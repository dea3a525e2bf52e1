import Mathlib.Data.Finset.Card
import Ralf.OneStore

/-!
# Timer ids

Chronos names a timer when it is made, and may name it anew whenever it is updated; the session
manager keeps the id in the stored session. `timer_id_tracked` says that between messages every
store has the id that Chronos returned last, and that it is the id a later request names.
`no_orphan_timers` is the same from the side of Chronos: the timers it holds for a session are those
named in the local store. This second statement has exceptions, which `timers_orphaned` shows at
work: a session that the CCF does not know any more is deleted together with its timer id but not
with its timer, and a START asks for a timer before it finds out that its session is not stored.
-/

namespace Ralf

open Bytes Runs

/-! ## The last id -/

/-- The id that a successful POST or PUT of the message returned. -/
def returnedId (y : Delivery × List TimerRequest) : Option Bytes :=
  if y.2.any fun req => req.spec.isSome then y.1.timer else none

/-- The id of the session's timer after one more message. A START begins a session without one. -/
def track (id : Bytes) (y : Delivery × List TimerRequest) : Bytes :=
  (returnedId y).getD (if y.1.msg.recordType.isStart then NO_TIMER else id)

/-- The id most recently returned for the session, or `NO_TIMER`. -/
def trackedId (ys : List (Delivery × List TimerRequest)) : Bytes := ys.foldl track NO_TIMER

/-- What is assumed of a message in these runs: it is of the key, a START is only processed when no
store holds the session, and Chronos does not return `NO_TIMER`. (An id comes out of an HTTP header
and has no NUL in it.) -/
structure Tracked (site : Site) (key : Bytes) (W : World) (x : Delivery) : Prop where
  hasKey : x.msg.key = key
  start : x.msg.recordType = .start → ∀ s ∈ site.stores, (W s).record key = none
  timer : ∀ id, x.timer = some id → id ≠ NO_TIMER ∧ NulFree id

/-- A stored session has this timer id. -/
def HasTimer (o : Option Session) (id : Bytes) : Prop :=
  ∀ v, o = some v → v.timerId = id ∧ NulFree id

section Steps

variable {P : Platform} {site : Site} {key : Bytes} {W W' : World} {x : Delivery}
  {o o' : Option Session} {id : Bytes} {reqs : List TimerRequest} {sess v : Session}

theorem returnedId_nil : returnedId (x, []) = none := rfl

theorem returnedId_of_spec {req : TimerRequest} {spec : TimerSpec} (h : req.spec = some spec) :
    returnedId (x, [req]) = x.timer := by
  simp [returnedId, h]

theorem track_of_interim (hi : x.msg.recordType = .interim) :
    track id (x, reqs) = (returnedId (x, reqs)).getD id := by
  unfold track
  rw [hi, if_neg (by decide)]

theorem track_of_start (hs : x.msg.recordType = .start) :
    track id (x, reqs) = (returnedId (x, reqs)).getD NO_TIMER := by
  unfold track
  rw [hs, if_pos (by decide)]

theorem eq_of_kept (h : sess.kept = some v) : v = sess.stored.content := by
  unfold Session.kept at h
  split_ifs at h
  exact (Option.some.inj h).symm

theorem hasTimer_kept (hid : NulFree id) (h : sess.timerId = id) : HasTimer sess.kept id := by
  intro v hv
  rw [eq_of_kept hv]
  refine ⟨?_, hid⟩
  show cStr sess.timerId = id
  rw [h, cStr_of_nulFree hid]

theorem nulFree_noTimer : NulFree NO_TIMER := by decide

theorem nulFree_getD (hx : ∀ id, x.timer = some id → id ≠ NO_TIMER ∧ NulFree id)
    (hid : NulFree id) : NulFree (x.timer.getD id) := by
  cases ht : x.timer with
  | none => exact hid
  | some id' => exact (hx id' ht).2

/-- A message keeps the stored id up to date. -/
theorem HasTimer.served (h : HasTimer o id) (hstart : x.msg.recordType = .start → o = none)
    (hx : ∀ id, x.timer = some id → id ≠ NO_TIMER ∧ NulFree id) (hserved : Served P x o o' reqs) :
    HasTimer o' (track id (x, reqs)) := by
  cases hserved with
  | ignored => exact fun v hv => by cases hv
  | unknown => exact fun v hv => by cases hv
  | @updated sess hi =>
    obtain ⟨hsess, hid⟩ := h sess rfl
    rw [track_of_interim hi, returnedId_of_spec (spec_chronosUpdate _ _), ← hsess]
    rw [← hsess] at hid
    split_ifs with hne
    · intro v hv
      obtain ⟨w, -, hw⟩ := Option.bind_eq_some_iff.mp hv
      exact hasTimer_kept (nulFree_getD hx hid)
        (show ({ w with timerId := x.timer.getD sess.timerId } : Session).timerId = _ from rfl) v hw
    · rw [not_not] at hne
      rw [hne]
      exact hasTimer_kept hid rfl
  | @counted sess hi =>
    obtain ⟨hsess, hid⟩ := h sess rfl
    rw [track_of_interim hi, returnedId_nil]
    exact hasTimer_kept hid hsess
  | stopped => exact fun v hv => by cases hv
  | timed hs =>
    rw [hstart hs, track_of_start hs, returnedId_of_spec rfl, Option.none_or]
    exact hasTimer_kept (nulFree_getD hx nulFree_noTimer) rfl
  | untimed hs =>
    rw [hstart hs, track_of_start hs, returnedId_nil, Option.none_or]
    exact hasTimer_kept nulFree_noTimer rfl
  | other hi =>
    by_cases hs : x.msg.recordType = .start
    · rw [hstart hs]
      exact fun v hv => by cases hv
    · have htrack : track id (x, []) = id := by
        unfold track
        rw [returnedId_nil, if_neg fun h => hs (AccountingRecordType.isStart_iff.mp h)]
        rfl
      rw [htrack]
      exact h

/-- The requests of a message. -/
theorem Served.requests (hserved : Served P x o o' reqs) :
    (reqs = [] ∧ (x.msg.recordType = .stop → o = none)) ∨
    (∃ sess spec, x.msg.recordType = .interim ∧ o = some sess ∧
      reqs = [if sess.timerId = NO_TIMER then .post spec else .put sess.timerId spec]) ∨
    (∃ sess, x.msg.recordType = .stop ∧ o = some sess ∧ reqs = stopRequests sess) ∨
    ∃ spec, x.msg.recordType = .start ∧ reqs = [.post spec] := by
  cases hserved with
  | ignored => exact .inl ⟨rfl, fun _ => rfl⟩
  | unknown hi => exact .inl ⟨rfl, fun hs => by cases hi.symm.trans hs⟩
  | @updated sess hi => exact .inr (.inl ⟨sess, _, hi, rfl, rfl⟩)
  | counted hi => exact .inl ⟨rfl, fun hs => by cases hi.symm.trans hs⟩
  | @stopped sess hs => exact .inr (.inr (.inl ⟨sess, hs, rfl, rfl⟩))
  | timed hs => exact .inr (.inr (.inr ⟨_, hs, rfl⟩))
  | untimed hs => exact .inl ⟨rfl, fun hst => by cases hs.symm.trans hst⟩
  | other _ hns => exact .inl ⟨rfl, fun hst => absurd hst hns⟩

/-- What a message asks of Chronos is about the stored id. -/
theorem HasTimer.requests (h : HasTimer o id) (hserved : Served P x o o' reqs) :
    (∀ id' spec, .put id' spec ∈ reqs → id' = id) ∧ (∀ id', .delete id' ∈ reqs → id' = id) ∧
      (x.msg.recordType = .interim → ∀ spec, .post spec ∈ reqs → id = NO_TIMER) ∧
      (x.msg.recordType = .stop → o ≠ none → ((∀ id', .delete id' ∉ reqs) ↔ id = NO_TIMER)) := by
  rcases hserved.requests with ⟨rfl, hstop⟩ | ⟨sess, spec, hi, rfl, rfl⟩ | ⟨sess, hs, rfl, rfl⟩ |
    ⟨spec, hs, rfl⟩
  · simp only [List.not_mem_nil, false_imp_iff, implies_true, true_and]
    exact fun hs ho => absurd (hstop hs) ho
  · have hid := (h sess rfl).1
    have hns : x.msg.recordType ≠ .stop := by
      rw [hi]
      decide
    rw [hid]
    by_cases heq : id = NO_TIMER
    · rw [if_pos heq]
      simp [heq, hns]
    · rw [if_neg heq]
      simp [hns]
  · have hid := (h sess rfl).1
    unfold stopRequests
    rw [hid]
    by_cases heq : id = NO_TIMER
    · rw [if_neg (not_not.mpr heq)]
      simp [heq]
    · rw [if_pos heq]
      simp [heq]
  · simp [hs, AccountingRecordType.start, AccountingRecordType.interim, AccountingRecordType.stop]

theorem OneStore.eq_none (h : OneStore P site key W o)
    (hempty : ∀ s ∈ site.stores, (W s).record key = none) : o = none := by
  have hview := h.view (s := site.localStore) List.mem_cons_self
  rw [view_of_none (hempty _ List.mem_cons_self)] at hview
  exact hview.symm

/-- The stores are one, and the stored session has this timer id. -/
def TracksTimer (P : Platform) (site : Site) (key : Bytes) (W : World) (id : Bytes) : Prop :=
  ∃ o, OneStore P site key W o ∧ HasTimer o id

theorem TracksTimer.step (h : TracksTimer P site key W id) (hx : Tracked site key W x)
    (hstep : Handles P site W x reqs W') : TracksTimer P site key W' (track id (x, reqs)) := by
  obtain ⟨o, hone, htimer⟩ := h
  obtain ⟨hone', hreqs⟩ := hone.step hx.hasKey hstep
  refine ⟨_, hone', ?_⟩
  rw [hreqs]
  exact htimer.served (fun hs => hone.eq_none (hx.start hs)) hx.timer (served_serve P x o)

end Steps

/-! ## Runs -/

section Runs

variable {P : Platform} {site : Site} {key : Bytes} {W₀ W : World}
  {xs : List (Delivery × List TimerRequest)}

/-- **Timer ids.** Messages of one key are processed one after another, from stores without the key.
At any point, every store that holds the session has the id that Chronos returned last for it, or
`NO_TIMER`; and the next message updates or deletes no other timer. A STOP deletes one unless the id
is `NO_TIMER`. -/
theorem timer_id_tracked (hempty : ∀ s, (W₀ s).record key = none)
    (hrun : Trace (fun W x reqs W' => Tracked site key W x ∧ Handles P site W x reqs W') W₀ xs W) :
    (∀ s ∈ site.stores, ∀ v, view P (W s) key = some v → v.timerId = trackedId xs) ∧
    ∀ x reqs W', Tracked site key W x → Handles P site W x reqs W' →
      (∀ id spec, .put id spec ∈ reqs → id = trackedId xs) ∧
      (∀ id, .delete id ∈ reqs → id = trackedId xs) ∧
      (x.msg.recordType = .interim → ∀ spec, .post spec ∈ reqs → trackedId xs = NO_TIMER) ∧
      (x.msg.recordType = .stop → ∀ s ∈ site.stores, view P (W s) key ≠ none →
        ((∀ id, .delete id ∉ reqs) ↔ trackedId xs = NO_TIMER)) := by
  have hstart : TracksTimer P site key W₀ NO_TIMER :=
    ⟨none, oneStore_empty hempty, fun v hv => by cases hv⟩
  have hend : TracksTimer P site key W (trackedId xs) :=
    hrun.foldl (fun _ _ _ _ _ h hstep => h.step hstep.1 hstep.2) hstart
  obtain ⟨o, hone, htimer⟩ := hend
  refine ⟨?_, ?_⟩
  · intro s hs v hv
    have hview := hone.view hs
    rw [hv] at hview
    exact (htimer v.content hview.symm).1
  · intro x reqs W' hx hstep
    obtain ⟨-, hreqs⟩ := hone.step hx.hasKey hstep
    rw [hreqs]
    obtain ⟨hput, hdelete, hpost, hstop⟩ := htimer.requests (served_serve P x o)
    refine ⟨hput, hdelete, hpost, fun hs s hmem hview => hstop hs fun ho => hview ?_⟩
    have hnone := hone.view hmem
    rw [ho] at hnone
    exact Option.map_eq_none_iff.mp hnone

end Runs

/-! ### A call with a timer -/

/-- A START whose timer is `t`, with an interval below its refresh time. -/
def timedStart : Delivery := ⟨sampleMessage .start, ⟨100, ascii "sid", 2001⟩, some (ascii "t")⟩

/-- An INTERIM after which the timer is `u`. -/
def retimedInterim : Delivery :=
  ⟨sampleMessage .interim, ⟨100, ascii "sid", 2001⟩, some (ascii "u")⟩

def lastStop : Delivery := ⟨sampleMessage .stop, ⟨0, ascii "sid", 2001⟩, none⟩

/-- What the messages of a run ask of Chronos, from stores without the key. -/
def served (xs : List Delivery) : List (Delivery × List TimerRequest) :=
  xs.zip (transduce (serve compactPlatform) none xs).2

set_option maxRecDepth 8000 in
theorem timer_id_tracked_retimed :
    ∃ W W' reqs, Trace (fun W x reqs W' => Tracked localAndRemote sampleKey W x ∧
        Handles compactPlatform localAndRemote W x reqs W') (fun _ => Store.empty)
        (served [timedStart, retimedInterim]) W ∧
      Handles compactPlatform localAndRemote W lastStop reqs W' ∧
      .delete (ascii "u") ∈ reqs := by
  have hempty : OneStore compactPlatform localAndRemote sampleKey (fun _ => Store.empty) none :=
    oneStore_empty fun _ => rfl
  have hids : ∀ id : Bytes, id ∈ [ascii "t", ascii "u"] → id ≠ NO_TIMER ∧ NulFree id := by decide
  obtain ⟨W, hrun, hone⟩ := hempty.exists_trace (A := Tracked localAndRemote sampleKey)
    (B := fun o x => x.msg.key = sampleKey ∧ (x.msg.recordType = .start → o = none) ∧
      ∀ id, x.timer = some id → id ≠ NO_TIMER ∧ NulFree id)
    (fun W o x h hx => ⟨hx.1, fun hs => by
      rw [hx.2.1 hs] at h
      exact h.record_eq_none, hx.2.2⟩)
    (show ∀ x ∈ [timedStart, retimedInterim], x.msg.key = sampleKey by decide)
    ⟨⟨rfl, fun _ => rfl, fun id h => hids id (by cases h; decide)⟩,
      ⟨rfl, fun h => absurd h (by decide), fun id h => hids id (by cases h; decide)⟩, trivial⟩
  have hstop : Tracked localAndRemote sampleKey W lastStop :=
    ⟨rfl, fun h => absurd h (by decide), fun id h => by cases h⟩
  obtain ⟨reqs, W', hstep⟩ := hone.exists_handles (x := lastStop) rfl
  refine ⟨W, W', reqs, hrun, hstep, ?_⟩
  obtain ⟨-, hnext⟩ := timer_id_tracked (fun _ => rfl) hrun
  obtain ⟨-, hdelete, -, hiff⟩ := hnext lastStop reqs W' hstop hstep
  have hid : trackedId (served [timedStart, retimedInterim]) = ascii "u" := by decide
  have hview : view compactPlatform (W 0) sampleKey ≠ none := by
    intro hnone
    have hcontent := hone.view (s := 0) (by decide)
    rw [hnone] at hcontent
    revert hcontent
    decide
  have hex : ¬ ∀ id, TimerRequest.delete id ∉ reqs := by
    rw [hiff rfl 0 (by decide) hview]
    show ¬ trackedId (served [timedStart, retimedInterim]) = NO_TIMER
    rw [hid]
    decide
  rw [not_forall] at hex
  obtain ⟨id, hmem⟩ := hex
  rw [not_not] at hmem
  have heq : id = ascii "u" := (hdelete id hmem).trans hid
  rwa [heq] at hmem

/-! ## The timers of Chronos -/

/-- The timers after a message. -/
def chronosStep (T : Finset Bytes) (y : Delivery × List TimerRequest) : Finset Bytes :=
  y.2.foldl (chronosServe y.1.timer) T

/-- Chronos holds what the stored session names, which is live. -/
structure Timed (o : Option Session) (T : Finset Bytes) : Prop where
  timers : T = o.elim ∅ Session.timers
  live : ∀ v, o = some v → 0 < v.expiry ∧ NulFree v.timerId

/-- Every timer is named by the stored session. -/
def Named (o : Option Session) (T : Finset Bytes) : Prop :=
  ∀ t ∈ T, ∃ v, o = some v ∧ v.timerId = t

/-- The message leaves no timer behind: it is not an INTERIM by which a session that has a timer
becomes unknown to the CCF, nor a START that gets a timer for a session that is not stored, because
another one is or because it expires at once. -/
structure KeepsTimers (o : Option Session) (T : Finset Bytes) (x : Delivery) : Prop where
  unknown : x.msg.recordType = .interim → x.answer.rc = 5002 → o ≠ none → T = ∅
  start : x.msg.recordType = .start → x.answer.accepted = true →
    resolveInterval x.msg x.answer.interimInterval < x.msg.sessionRefreshTime → x.timer ≠ none →
    o = none ∧ 0 < (2 * x.msg.sessionRefreshTime).toInt32

/-- What is assumed of Chronos: ids are not `NO_TIMER` (nor do they contain a NUL), and a timer that
is created gets a new one. -/
structure ChronosOk (T : Finset Bytes) (x : Delivery) : Prop where
  id : ∀ id, x.timer = some id → id ≠ NO_TIMER ∧ NulFree id
  fresh : ∀ id, x.timer = some id → x.msg.recordType = .start → id ∉ T

section Orphans

variable {P : Platform} {x : Delivery} {o o' : Option Session} {T : Finset Bytes} {id : Bytes}
  {reqs : List TimerRequest} {sess v : Session}

theorem Timed.named (h : Timed o T) : Named o T := by
  intro t ht
  rw [h.timers] at ht
  cases o with
  | none => cases ht
  | some v =>
    simp only [Option.elim, Session.timers] at ht
    split_ifs at ht
    · cases ht
    · exact ⟨v, rfl, (Finset.mem_singleton.mp ht).symm⟩

theorem timed_none : Timed none ∅ := ⟨rfl, fun v hv => by cases hv⟩

/-- A session that is written, with the timer Chronos holds. -/
theorem timed_kept (hlive : 0 < sess.expiry) (hid : NulFree sess.timerId) :
    Timed sess.kept sess.timers := by
  have hkept : sess.kept = some sess.stored.content := if_pos hlive
  have htimer : sess.stored.content.timerId = sess.timerId := cStr_of_nulFree hid
  rw [hkept]
  refine ⟨?_, ?_⟩
  · simp only [Option.elim, Session.timers, htimer]
  · intro v hv
    cases hv
    rw [htimer]
    exact ⟨hlive, hid⟩

theorem timers_of_ne (h : sess.timerId ≠ NO_TIMER) : sess.timers = {sess.timerId} := if_neg h

theorem timers_of_eq (h : sess.timerId = NO_TIMER) : sess.timers = ∅ := if_pos h

/-- After a successful update, Chronos holds the timer it has named. -/
theorem chronosServe_update (interimInterval : UInt32) :
    chronosServe (some id) sess.timers (chronosUpdate P (x.filled sess) interimInterval) =
      {id} := by
  have hmsg : (x.filled sess).timerId = sess.timerId := rfl
  unfold chronosUpdate
  rw [hmsg]
  by_cases heq : sess.timerId = NO_TIMER
  · rw [if_pos heq, timers_of_eq heq]
    rfl
  · rw [if_neg heq, timers_of_ne heq]
    show insert id (({sess.timerId} : Finset Bytes).erase sess.timerId) = {id}
    rw [Finset.erase_singleton]
    rfl

theorem chronosServe_none (req : TimerRequest) (h : ∀ id, req ≠ .delete id) :
    chronosServe none T req = T := by
  cases req with
  | post spec => rfl
  | put id spec => rfl
  | delete id => exact absurd rfl (h id)

theorem timed_updated (h : Timed (some sess) T) (hx : ChronosOk T x) (interimInterval : UInt32) :
    Timed
      (if x.timer.getD sess.timerId ≠ sess.timerId then
          sess.incremented.kept.bind fun v =>
            ({ v with timerId := x.timer.getD sess.timerId } : Session).kept
        else sess.incremented.kept)
      (chronosStep T (x, [chronosUpdate P (x.filled sess) interimInterval])) := by
  obtain ⟨hlive, hnul⟩ := h.live sess rfl
  have hT : T = sess.timers := h.timers
  have hincremented : Timed sess.incremented.kept sess.timers :=
    timed_kept (show 0 < sess.incremented.expiry from hlive) hnul
  have hkept : sess.incremented.kept = some sess.incremented.stored.content := if_pos hlive
  show Timed _ (chronosServe x.timer T (chronosUpdate P (x.filled sess) interimInterval))
  rw [hT]
  cases htimer : x.timer with
  | none =>
    rw [Option.getD_none, if_neg (not_not.mpr rfl), chronosServe_none]
    · exact hincremented
    · intro id
      unfold chronosUpdate
      split_ifs <;> rintro ⟨⟩
  | some id =>
    obtain ⟨hne, hid⟩ := hx.id id htimer
    rw [Option.getD_some, chronosServe_update]
    split_ifs with hnew
    · rw [hkept, Option.bind_some]
      have hset : ({ sess.incremented.stored.content with timerId := id } : Session).timers =
          {id} := timers_of_ne hne
      rw [← hset]
      have hset' : 0 < ({ sess.incremented.stored.content with timerId := id } : Session).expiry :=
        hlive
      exact timed_kept hset' hid
    · rw [not_not] at hnew
      rw [hnew] at hne ⊢
      rw [← timers_of_ne hne]
      exact hincremented

/-- A START without a timer. -/
theorem timed_or_untimed (h : Timed o T) (sess : Session) (hsess : sess.timerId = NO_TIMER) :
    Timed (o.or sess.kept) T := by
  cases o with
  | some v => exact h
  | none =>
    have hT : T = ∅ := h.timers
    rw [Option.none_or, hT]
    by_cases hlive : 0 < sess.expiry
    · rw [← timers_of_eq hsess]
      refine timed_kept hlive ?_
      rw [hsess]
      exact nulFree_noTimer
    · have hkept : sess.kept = none := if_neg hlive
      rw [hkept]
      exact timed_none

/-- A START with a new timer: its session has to be written. -/
theorem timed_or_timed (h : Timed o T) (hne : sess.timerId ≠ NO_TIMER) (hid : NulFree sess.timerId)
    (hfresh : sess.timerId ∉ T) :
    (Named (o.or sess.kept) (insert sess.timerId T) ↔ o = none ∧ 0 < sess.expiry) ∧
      (o = none ∧ 0 < sess.expiry → Timed (o.or sess.kept) (insert sess.timerId T)) := by
  have htimed : o = none ∧ 0 < sess.expiry → Timed (o.or sess.kept) (insert sess.timerId T) := by
    rintro ⟨rfl, hlive⟩
    have hT : T = ∅ := h.timers
    rw [Option.none_or, hT]
    show Timed sess.kept {sess.timerId}
    rw [← timers_of_ne hne]
    exact timed_kept hlive hid
  refine ⟨⟨fun hnamed => ?_, fun hk => (htimed hk).named⟩, htimed⟩
  obtain ⟨v, hv, htimer⟩ := hnamed sess.timerId (Finset.mem_insert_self _ _)
  cases o with
  | some w =>
    -- the new timer is not the one of the session that is already there
    cases hv
    have hw : T = v.timers := h.timers
    rw [hw, timers_of_ne (by rw [htimer]; exact hne), htimer] at hfresh
    exact absurd (Finset.mem_singleton_self _) hfresh
  | none =>
    refine ⟨rfl, ?_⟩
    rw [Option.none_or] at hv
    unfold Session.kept at hv
    split_ifs at hv with hlive
    exact hlive

/-- **Timers of one message.** It keeps the timers named exactly if it is not one of the exceptions,
and then Chronos still holds just what the stored session names. -/
theorem Timed.served (h : Timed o T) (hx : ChronosOk T x) (hserved : Served P x o o' reqs) :
    (Named o' (chronosStep T (x, reqs)) ↔ KeepsTimers o T x) ∧
      (KeepsTimers o T x → Timed o' (chronosStep T (x, reqs))) := by
  have hboth : ∀ {o' : Option Session} {T' : Finset Bytes}, KeepsTimers o T x → Timed o' T' →
      (Named o' T' ↔ KeepsTimers o T x) ∧ (KeepsTimers o T x → Timed o' T') :=
    fun hk ht => ⟨⟨fun _ => hk, fun _ => ht.named⟩, fun _ => ht⟩
  cases hserved with
  | ignored htype =>
    refine hboth ⟨fun _ _ ho => absurd rfl ho, fun hs => ?_⟩ h
    rcases htype with hi | hst
    · exact absurd hs (AccountingRecordType.ne_start_of_interim hi)
    · exact absurd hs (AccountingRecordType.ne_start_of_stop hst)
  | @unknown sess hi hrc =>
    -- the session is gone, its timer is not
    have hiff : Named none T ↔ T = ∅ := by
      constructor
      · intro hnamed
        refine Finset.eq_empty_of_forall_notMem fun t ht => ?_
        obtain ⟨v, hv, -⟩ := hnamed t ht
        cases hv
      · rintro rfl t ht
        cases ht
    have hkeeps : KeepsTimers (some sess) T x ↔ T = ∅ :=
      ⟨fun hk => hk.unknown hi hrc (by simp), fun hT =>
        ⟨fun _ _ _ => hT, fun hs => absurd hs (AccountingRecordType.ne_start_of_interim hi)⟩⟩
    refine ⟨hiff.trans hkeeps.symm, fun hk => ?_⟩
    have hT := hkeeps.mp hk
    subst hT
    exact timed_none
  | updated hi hrc =>
    have hns := AccountingRecordType.ne_start_of_interim hi
    exact hboth ⟨fun _ hrc' => absurd hrc' hrc, fun hs => absurd hs hns⟩ (timed_updated h hx _)
  | @counted sess hi hrc =>
    obtain ⟨hlive, hnul⟩ := h.live sess rfl
    have hT : T = sess.timers := h.timers
    have hns := AccountingRecordType.ne_start_of_interim hi
    refine hboth ⟨fun _ hrc' => absurd hrc' hrc, fun hs => absurd hs hns⟩ ?_
    show Timed _ T
    rw [hT]
    exact timed_kept (show 0 < sess.incremented.expiry from hlive) hnul
  | @stopped sess hst =>
    have hT : T = sess.timers := h.timers
    have hempty : chronosStep T (x, stopRequests sess) = ∅ := by
      unfold stopRequests
      rw [hT]
      by_cases heq : sess.timerId = NO_TIMER
      · rw [if_neg (not_not.mpr heq), timers_of_eq heq]
        rfl
      · rw [if_pos heq, timers_of_ne heq]
        exact Finset.erase_singleton _
    rw [hempty]
    exact hboth ⟨fun hi => absurd hi (AccountingRecordType.ne_interim_of_stop hst),
      fun hs => absurd hs (AccountingRecordType.ne_start_of_stop hst)⟩ timed_none
  | timed hs hacc hlt =>
    have hni := AccountingRecordType.ne_interim_of_start hs
    cases htimer : x.timer with
    | none =>
      have hstep : chronosStep T (x, [.post (timerSpec P x.first (x.interval x.first))]) = T := by
        simp only [chronosStep, List.foldl_cons, List.foldl_nil, htimer, chronosServe]
      rw [hstep]
      exact hboth ⟨fun hi => (hni hi).elim, fun _ _ _ hsome => absurd htimer hsome⟩
        (timed_or_untimed h _ rfl)
    | some id =>
      obtain ⟨hid, hnul⟩ := hx.id id htimer
      have hstep : chronosStep T (x, [.post (timerSpec P x.first (x.interval x.first))]) =
          insert id T := by
        simp only [chronosStep, List.foldl_cons, List.foldl_nil, htimer, chronosServe]
      have hkeeps : KeepsTimers o T x ↔ o = none ∧ 0 < (2 * x.msg.sessionRefreshTime).toInt32 :=
        ⟨fun hk => hk.start hs hacc hlt (by rw [htimer]; simp), fun hk =>
          ⟨fun hi => (hni hi).elim, fun _ _ _ _ => hk⟩⟩
      rw [hstep, Option.getD_some, hkeeps]
      have hne' : (startSession x.first (x.interval x.first) x.answer.sessionId id).timerId ≠
          NO_TIMER := hid
      exact timed_or_timed h hne' hnul (hx.fresh id htimer hs)
  | untimed hs hacc hlt =>
    have hni := AccountingRecordType.ne_interim_of_start hs
    exact hboth ⟨fun hi => absurd hi hni, fun _ _ h' => absurd h' hlt⟩
      (timed_or_untimed h _ rfl)
  | other hi hst hacc =>
    refine hboth ⟨fun hi' => absurd hi' hi, fun hs hacc' => ?_⟩ h
    rw [hacc hs] at hacc'
    cases hacc'

end Orphans

section Runs

variable {P : Platform} {site : Site} {key : Bytes} {W₀ W : World} {T : Finset Bytes}
  {xs : List (Delivery × List TimerRequest)}

/-- A message of the key is processed, and Chronos serves its requests. -/
structure TimersStep (P : Platform) (site : Site) (key : Bytes) (σ : World × Finset Bytes)
    (x : Delivery) (reqs : List TimerRequest) (σ' : World × Finset Bytes) : Prop where
  hasKey : x.msg.key = key
  chronos : ChronosOk σ.2 x
  handles : Handles P site σ.1 x reqs σ'.1
  timers : σ'.2 = chronosStep σ.2 (x, reqs)

/-- The session in the local store. -/
def localView (P : Platform) (site : Site) (key : Bytes) (W : World) : Option Session :=
  view P (W site.localStore) key

/-- The stores are one, and Chronos holds what they name. -/
def TimedStores (P : Platform) (site : Site) (key : Bytes) (σ : World × Finset Bytes) : Prop :=
  ∃ o, OneStore P site key σ.1 o ∧ Timed o σ.2

theorem OneStore.named {o : Option Session} (h : OneStore P site key W o) :
    Named (localView P site key W) T ↔ Named o T := by
  have hview := h.view (s := site.localStore) List.mem_cons_self
  unfold localView
  rw [← hview]
  constructor
  · intro hnamed t ht
    obtain ⟨v, hv, hid⟩ := hnamed t ht
    exact ⟨v.content, by rw [hv]; rfl, hid⟩
  · intro hnamed t ht
    obtain ⟨v, hv, hid⟩ := hnamed t ht
    obtain ⟨w, hw, rfl⟩ := Option.map_eq_some_iff.mp hv
    exact ⟨w, hw, hid⟩

theorem OneStore.keepsTimers {o : Option Session} (h : OneStore P site key W o) {x : Delivery} :
    KeepsTimers (localView P site key W) T x ↔ KeepsTimers o T x := by
  have hnone : localView P site key W = none ↔ o = none := by
    have hview := h.view (s := site.localStore) List.mem_cons_self
    unfold localView
    rw [← hview, Option.map_eq_none_iff]
  constructor
  · rintro ⟨hunknown, hstart⟩
    exact ⟨fun hi hrc ho => hunknown hi hrc (mt hnone.mp ho), fun hs hacc hlt ht =>
      ⟨hnone.mp (hstart hs hacc hlt ht).1, (hstart hs hacc hlt ht).2⟩⟩
  · rintro ⟨hunknown, hstart⟩
    exact ⟨fun hi hrc ho => hunknown hi hrc (mt hnone.mpr ho), fun hs hacc hlt ht =>
      ⟨hnone.mpr (hstart hs hacc hlt ht).1, (hstart hs hacc hlt ht).2⟩⟩

theorem TimedStores.step {σ σ' : World × Finset Bytes} (h : TimedStores P site key σ)
    {x : Delivery} {reqs : List TimerRequest} (hstep : TimersStep P site key σ x reqs σ') :
    (Named (localView P site key σ'.1) σ'.2 ↔ KeepsTimers (localView P site key σ.1) σ.2 x) ∧
      (KeepsTimers (localView P site key σ.1) σ.2 x → TimedStores P site key σ') := by
  obtain ⟨o, hone, htimed⟩ := h
  obtain ⟨hone', hreqs⟩ := hone.step hstep.hasKey hstep.handles
  have hserved := served_serve P x o
  rw [← hreqs] at hserved
  obtain ⟨hiff, hnext⟩ := htimed.served hstep.chronos hserved
  rw [hone'.named, hone.keepsTimers, hstep.timers]
  refine ⟨hiff, fun hk => ⟨_, hone', ?_⟩⟩
  rw [hstep.timers]
  exact hnext hk

/-- **No orphan timers.** Messages of one key are processed one after another, from stores without
the key, and none of them is one of the exceptions of `KeepsTimers`. At any point, the timers Chronos
holds are named by the session in the local store: there is at most one, and none without a session.
The exceptions are exact: the next message keeps it so if and only if it is none of them. -/
theorem no_orphan_timers (hempty : ∀ s, (W₀ s).record key = none)
    (hrun : Trace (fun σ x reqs σ' => TimersStep P site key σ x reqs σ' ∧
      KeepsTimers (localView P site key σ.1) σ.2 x) (W₀, ∅) xs (W, T)) :
    Named (localView P site key W) T ∧ T.card ≤ 1 ∧ (localView P site key W = none → T = ∅) ∧
      ∀ x reqs σ', TimersStep P site key (W, T) x reqs σ' →
        (Named (localView P site key σ'.1) σ'.2 ↔ KeepsTimers (localView P site key W) T x) := by
  have hend : TimedStores P site key (W, T) :=
    hrun.invariant (fun _ _ _ _ h hstep => (h.step hstep.1).2 hstep.2)
      ⟨none, oneStore_empty hempty, timed_none⟩
  have hnamed : Named (localView P site key W) T := by
    obtain ⟨o, hone, htimed⟩ := hend
    exact hone.named.mpr htimed.named
  refine ⟨hnamed, ?_, ?_, fun x reqs σ' hstep => (hend.step hstep).1⟩
  · refine Finset.card_le_one.mpr fun t ht u hu => ?_
    obtain ⟨v, hv, rfl⟩ := hnamed t ht
    obtain ⟨w, hw, rfl⟩ := hnamed u hu
    rw [hv] at hw
    cases hw
    rfl
  · intro hnone
    refine Finset.eq_empty_of_forall_notMem fun t ht => ?_
    obtain ⟨v, hv, -⟩ := hnamed t ht
    rw [hnone] at hv
    cases hv

end Runs

/-! ### Timers kept and lost -/

/-- An INTERIM of a session that the CCF does not know. -/
def unknownInterim : Delivery := ⟨sampleMessage .interim, ⟨0, ascii "sid", 5002⟩, none⟩

theorem chronosOk_timedStart : ChronosOk ∅ timedStart where
  id := by
    intro id hid
    cases hid
    decide
  fresh := fun id _ _ hmem => by cases hmem

theorem exists_timersStep {W : World} {o : Option Session} {T : Finset Bytes} {x : Delivery}
    (h : OneStore compactPlatform localAndRemote sampleKey W o) (hkey : x.msg.key = sampleKey)
    (hx : ChronosOk T x) :
    ∃ W', TimersStep compactPlatform localAndRemote sampleKey (W, T) x
        (serve compactPlatform o x).2 (W', chronosStep T (x, (serve compactPlatform o x).2)) ∧
      OneStore compactPlatform localAndRemote sampleKey W' (serve compactPlatform o x).1 := by
  obtain ⟨reqs, W', hstep⟩ := h.exists_handles hkey
  obtain ⟨h', rfl⟩ := h.step hkey hstep
  exact ⟨W', ⟨hkey, hx, hstep, rfl⟩, h'⟩

set_option maxRecDepth 8000 in
theorem no_orphan_timers_timedStart :
    ∃ reqs W, Trace (fun σ x reqs σ' =>
        TimersStep compactPlatform localAndRemote sampleKey σ x reqs σ' ∧
          KeepsTimers (localView compactPlatform localAndRemote sampleKey σ.1) σ.2 x)
        ((fun _ => Store.empty), ∅) [(timedStart, reqs)] (W, {ascii "t"}) ∧
      ∃ v, localView compactPlatform localAndRemote sampleKey W = some v ∧
        v.timerId = ascii "t" := by
  have hempty : OneStore compactPlatform localAndRemote sampleKey (fun _ => Store.empty) none :=
    oneStore_empty fun _ => rfl
  obtain ⟨W, hstep, -⟩ := exists_timersStep hempty rfl chronosOk_timedStart
  have hkeeps : KeepsTimers (none : Option Session) ∅ timedStart :=
    ⟨fun _ _ _ => rfl, fun _ _ _ _ => ⟨rfl, by decide⟩⟩
  have hrun : Trace (fun σ x reqs σ' =>
      TimersStep compactPlatform localAndRemote sampleKey σ x reqs σ' ∧
        KeepsTimers (localView compactPlatform localAndRemote sampleKey σ.1) σ.2 x)
      ((fun _ => Store.empty), ∅) [(timedStart, _)] (W, {ascii "t"}) :=
    .cons ⟨hstep, hempty.keepsTimers.mpr hkeeps⟩ .nil
  obtain ⟨hnamed, -⟩ := no_orphan_timers (fun _ => rfl) hrun
  exact ⟨_, W, hrun, hnamed _ (Finset.mem_singleton_self _)⟩

set_option maxRecDepth 8000 in
/-- The session of a call with a timer becomes unknown: it is deleted, and the timer stays. -/
theorem timers_orphaned :
    ∃ ys W, ys.map Prod.fst = [timedStart, unknownInterim] ∧
      Trace (TimersStep compactPlatform localAndRemote sampleKey) ((fun _ => Store.empty), ∅) ys
        (W, {ascii "t"}) ∧
      localView compactPlatform localAndRemote sampleKey W = none ∧
      ¬ Named (localView compactPlatform localAndRemote sampleKey W) {ascii "t"} := by
  have hempty : OneStore compactPlatform localAndRemote sampleKey (fun _ => Store.empty) none :=
    oneStore_empty fun _ => rfl
  obtain ⟨W₁, hstep₁, hone₁⟩ := exists_timersStep hempty rfl chronosOk_timedStart
  have hunknown : ChronosOk {ascii "t"} unknownInterim := by
    refine ⟨fun id hid => ?_, fun id hid => ?_⟩
    · cases hid
    · cases hid
  obtain ⟨W₂, hstep₂, hone₂⟩ := exists_timersStep hone₁ (x := unknownInterim) rfl hunknown
  have hnone : localView compactPlatform localAndRemote sampleKey W₂ = none :=
    view_of_none (hone₂.record_eq_none 0 (by decide))
  refine ⟨_, W₂, rfl, .cons hstep₁ (.cons hstep₂ .nil), hnone, ?_⟩
  rw [hnone]
  intro hnamed
  obtain ⟨v, hv, -⟩ := hnamed _ (Finset.mem_singleton_self _)
  cases hv

end Ralf
