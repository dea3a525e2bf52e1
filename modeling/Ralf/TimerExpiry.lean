import Ralf.TimerIds

/-!
# Timers and the expiry of sessions

When a timer pops, the session it was armed for should still be stored. The interval of a timer comes
from the answer, from the stored session or from the message, and it is compared with the refresh
time of the message; the expiry of the record comes from the refresh time in the stored session,
which an INTERIM does not change. `timer_outlived` says when the record outlives the timer all the
same: always, except for a message that brings a refresh time of its own and an interval between
twice the stored refresh time and this one.
-/

namespace Ralf

open Bytes Runs

/-- The interval an INTERIM uses: the answer's, or that of the session when the answer has none. -/
def intervalInForce (sess : Session) (x : Delivery) : UInt32 :=
  if x.answer.interimInterval = 0 then sess.interimInterval else x.answer.interimInterval

/-- An interval that is too long for the stored session, but not for the message. -/
def Overlong (sess : Session) (msg : Message) (interimInterval : UInt32) : Prop :=
  2 * sess.sessionRefreshTime.toNat ≤ interimInterval.toNat ∧
    interimInterval < msg.sessionRefreshTime

/-- The message arms a timer that outlives the stored session. -/
def Outlasts (sess : Session) (x : Delivery) : Prop :=
  (x.msg.recordType = .interim ∧ x.answer.rc ≠ 5002 ∧ x.msg.timerInterim = false ∧
      Overlong sess x.msg (intervalInForce sess x)) ∨
    (x.msg.recordType = .start ∧ x.answer.accepted = true ∧
      Overlong sess x.msg x.answer.interimInterval)

/-- What is assumed of the messages: they are of the key and as the constructor leaves them, and
refresh times are below 2^30; that of a START is given. -/
structure Arrives (key : Bytes) (x : Delivery) : Prop where
  hasKey : x.msg.key = key
  interimInterval : x.msg.interimInterval = 0
  start : x.msg.recordType = .start →
    1 ≤ x.msg.sessionRefreshTime.toNat ∧ x.msg.sessionRefreshTime.toNat < 2 ^ 30
  interim : x.msg.recordType = .interim → x.msg.sessionRefreshTime.toNat < 2 ^ 30

/-- The session expires after every timer that was asked for. -/
def Outlived (o : Option Session) (reqs : List TimerRequest) : Prop :=
  ∀ req ∈ reqs, ∀ spec, req.spec = some spec →
    ∃ v, o = some v ∧ (spec.interval.toNat : ℤ) < v.expiry.toInt

/-- The stored session is live. -/
def LiveStore (o : Option Session) : Prop := ∀ v, o = some v → v.Live

section Steps

variable {P : Platform} {key : Bytes} {x : Delivery} {o o' : Option Session}
  {reqs : List TimerRequest} {sess v : Session}

theorem kept_of_live (h : sess.Live) : sess.kept = some sess.stored.content := if_pos h.expiry_pos

theorem LiveStore.kept (h : sess.Live) : LiveStore sess.kept := by
  intro v hv
  rw [eq_of_kept hv]
  exact h

theorem liveStore_none : LiveStore none := by
  intro v hv
  cases hv

theorem outlived_nil : Outlived o [] := by
  intro req hreq
  cases hreq

/-- One request, with a live session that is stored afterwards. -/
theorem outlived_singleton {req : TimerRequest} {spec : TimerSpec} (hspec : req.spec = some spec)
    (hlive : sess.Live) (ho : o = some v) (hv : v.sessionRefreshTime = sess.sessionRefreshTime) :
    Outlived o [req] ↔ spec.interval.toNat < 2 * sess.sessionRefreshTime.toNat := by
  have hexpiry : v.expiry.toInt = 2 * sess.sessionRefreshTime.toNat := by
    have hlive' : v.Live := by
      unfold Session.Live
      rw [hv]
      exact hlive
    rw [hlive'.toInt_expiry, hv]
  constructor
  · intro h
    obtain ⟨w, hw, hlt⟩ := h req (List.mem_singleton.mpr rfl) spec hspec
    rw [ho] at hw
    cases hw
    rw [hexpiry] at hlt
    omega
  · intro hlt req' hreq' spec' hspec'
    cases List.mem_singleton.mp hreq'
    rw [hspec] at hspec'
    cases hspec'
    refine ⟨v, ho, ?_⟩
    rw [hexpiry]
    omega

/-! ### Intervals -/

/-- The refresh time an INTERIM is sent with. -/
theorem refreshTime_filled :
    (x.filled sess).sessionRefreshTime =
      if x.msg.sessionRefreshTime = 0 then sess.sessionRefreshTime else x.msg.sessionRefreshTime :=
  rfl

variable (x sess) in
/-- The interval of an INTERIM is the one in force, unless it falls back on the refresh time. -/
theorem interval_filled :
    x.interval (x.filled sess) = intervalInForce sess x ∨
      intervalInForce sess x = 0 ∧
        x.interval (x.filled sess) = (x.filled sess).sessionRefreshTime := by
  unfold Delivery.interval resolveInterval intervalInForce
  have hinterim : (x.filled sess).interimInterval = sess.interimInterval := rfl
  rw [hinterim]
  by_cases ha : x.answer.interimInterval = 0
  · by_cases hs : sess.interimInterval = 0
    · rw [if_pos ha, if_pos ha, if_pos hs]
      exact .inr ⟨hs, rfl⟩
    · rw [if_pos ha, if_pos ha, if_neg hs]
      exact .inl rfl
  · rw [if_neg ha, if_neg ha]
    exact .inl rfl

theorem interval_first (hx : Arrives key x) :
    x.interval x.first = x.answer.interimInterval ∨
      x.answer.interimInterval = 0 ∧ x.interval x.first = x.msg.sessionRefreshTime := by
  unfold Delivery.interval resolveInterval
  have hinterim : x.first.interimInterval = 0 := hx.interimInterval
  by_cases ha : x.answer.interimInterval = 0
  · rw [if_pos ha, if_pos hinterim]
    exact .inr ⟨ha, rfl⟩
  · rw [if_neg ha]
    exact .inl rfl

/-- A timer that an INTERIM arms is outlived unless its interval is overlong. -/
theorem interval_lt_iff (hlive : sess.Live)
    (hlt : x.interval (x.filled sess) < (x.filled sess).sessionRefreshTime) :
    (x.interval (x.filled sess)).toNat < 2 * sess.sessionRefreshTime.toNat ↔
      ¬ Overlong sess x.msg (intervalInForce sess x) := by
  have hpos := hlive.1
  rcases interval_filled x sess with heq | ⟨-, heq⟩
  · rw [heq] at hlt ⊢
    unfold Overlong
    rw [refreshTime_filled] at hlt
    rw [UInt32.lt_iff_toNat_lt] at hlt ⊢
    split_ifs at hlt with hzero
    · rw [hzero]
      simp only [UInt32.reduceToNat]
      omega
    · omega
  · rw [heq] at hlt
    exact absurd hlt (UInt32.lt_irrefl _)

/-- An INTERIM with an overlong interval arms a timer. -/
theorem lt_of_overlong (hlive : sess.Live)
    (h : Overlong sess x.msg (intervalInForce sess x)) :
    x.interval (x.filled sess) < (x.filled sess).sessionRefreshTime := by
  have hpos := hlive.1
  obtain ⟨hle, hlt⟩ := h
  have hne : x.msg.sessionRefreshTime ≠ 0 := by
    intro hzero
    rw [hzero, UInt32.lt_iff_toNat_lt] at hlt
    simp only [UInt32.reduceToNat] at hlt
    omega
  rcases interval_filled x sess with heq | ⟨hzero, -⟩
  · rw [heq, refreshTime_filled, if_neg hne]
    exact hlt
  · rw [hzero] at hle
    simp only [UInt32.reduceToNat] at hle
    omega

/-! ### One message -/

theorem not_outlasts_of_ne (hi : x.msg.recordType ≠ .interim)
    (hs : x.msg.recordType = .start → x.answer.accepted = false) : ¬ Outlasts sess x := by
  rintro (⟨hi', -⟩ | ⟨hs', hacc, -⟩)
  · exact hi hi'
  · rw [hs hs'] at hacc
    cases hacc

/-- The session an INTERIM leaves has the refresh time it had. -/
theorem updated_of_live (hlive : sess.Live) (timerId : Bytes) :
    ∃ v, (if timerId ≠ sess.timerId then
        sess.incremented.kept.bind fun v => ({ v with timerId := timerId } : Session).kept
      else sess.incremented.kept) = some v ∧
      v.sessionRefreshTime = sess.sessionRefreshTime := by
  have hkept : sess.incremented.kept = some sess.incremented.stored.content :=
    kept_of_live (show sess.incremented.Live from hlive)
  rw [hkept, Option.bind_some]
  split_ifs
  · have hset : ({ sess.incremented.stored.content with timerId := timerId } : Session).Live := hlive
    exact ⟨_, kept_of_live hset, rfl⟩
  · exact ⟨_, rfl, rfl⟩

theorem outlasts_interim_iff (hi : x.msg.recordType = .interim) (hrc : x.answer.rc ≠ 5002)
    (ht : x.msg.timerInterim = false) :
    Outlasts sess x ↔ Overlong sess x.msg (intervalInForce sess x) := by
  have hns := AccountingRecordType.ne_start_of_interim hi
  simp [Outlasts, hi, hrc, ht, hi ▸ hns]

theorem outlasts_start_iff (hs : x.msg.recordType = .start) (hacc : x.answer.accepted = true) :
    Outlasts sess x ↔ Overlong sess x.msg x.answer.interimInterval := by
  have hni := AccountingRecordType.ne_interim_of_start hs
  simp [Outlasts, hs, hacc, hs ▸ hni]

/-- **Timers of one message.** The stored session stays live, and outlives what was asked for unless
the message is one that outlasts it. -/
theorem LiveStore.served (h : LiveStore o) (hx : Arrives key x) (hserved : Served P x o o' reqs) :
    LiveStore o' ∧ (Outlived o' reqs ↔ ∀ sess, o = some sess → ¬ Outlasts sess x) := by
  cases hserved with
  | ignored => exact ⟨h, iff_of_true outlived_nil fun sess hsess => by cases hsess⟩
  | @unknown sess hi hrc =>
    refine ⟨liveStore_none, iff_of_true outlived_nil ?_⟩
    rintro sess' - (⟨-, hrc', -⟩ | ⟨hs, -⟩)
    · exact hrc' hrc
    · exact AccountingRecordType.ne_start_of_interim hi hs
  | @updated sess hi hrc ht hlt =>
    have hlive := h sess rfl
    obtain ⟨v, hv, hrefresh⟩ := updated_of_live hlive (x.timer.getD sess.timerId)
    rw [hv]
    refine ⟨?_, ?_⟩
    · intro w hw
      cases hw
      unfold Session.Live
      rw [hrefresh]
      exact hlive
    · rw [outlived_singleton (spec_chronosUpdate _ _) hlive rfl hrefresh]
      refine (interval_lt_iff hlive hlt).trans ?_
      simp [outlasts_interim_iff hi hrc ht]
  | @counted sess hi hrc hlt =>
    have hlive := h sess rfl
    refine ⟨LiveStore.kept (show sess.incremented.Live from hlive), iff_of_true outlived_nil ?_⟩
    rintro sess' hsess' (⟨-, -, ht, hover⟩ | ⟨hs, -⟩)
    · cases hsess'
      exact hlt ht (lt_of_overlong hlive hover)
    · exact AccountingRecordType.ne_start_of_interim hi hs
  | @stopped sess hst =>
    refine ⟨liveStore_none, iff_of_true ?_ ?_⟩
    · intro req hreq spec hspec
      unfold stopRequests at hreq
      split_ifs at hreq
      · cases List.mem_singleton.mp hreq
        cases hspec
      · cases hreq
    · intro sess' _
      exact not_outlasts_of_ne (AccountingRecordType.ne_interim_of_stop hst) fun hs =>
        absurd hs (AccountingRecordType.ne_start_of_stop hst)
  | timed hs hacc hlt =>
    rcases interval_first hx with heq | ⟨-, heq⟩
    · rw [heq] at hlt ⊢
      cases o with
      | none =>
        have hlive : (startSession x.first x.answer.interimInterval x.answer.sessionId
            (x.timer.getD NO_TIMER)).Live := hx.start hs
        rw [Option.none_or]
        refine ⟨.kept hlive, iff_of_true ?_ fun sess hsess => by cases hsess⟩
        rw [outlived_singleton rfl hlive (kept_of_live hlive) rfl]
        have hlt' := UInt32.lt_iff_toNat_lt.mp hlt
        show x.answer.interimInterval.toNat < 2 * x.msg.sessionRefreshTime.toNat
        omega
      | some sess =>
        have hlive := h sess rfl
        refine ⟨h, ?_⟩
        rw [Option.some_or, outlived_singleton rfl hlive rfl rfl]
        show x.answer.interimInterval.toNat < 2 * sess.sessionRefreshTime.toNat ↔ _
        simp [outlasts_start_iff hs hacc, Overlong, hlt]
    · rw [heq] at hlt
      exact absurd hlt (UInt32.lt_irrefl _)
  | untimed hs hacc hlt =>
    have hlive : (startSession x.first (x.interval x.first) x.answer.sessionId NO_TIMER).Live :=
      hx.start hs
    refine ⟨?_, iff_of_true outlived_nil ?_⟩
    · cases o with
      | none => exact .kept hlive
      | some sess => exact h
    · rintro sess rfl hover
      obtain ⟨hle, hlt'⟩ := (outlasts_start_iff hs hacc).mp hover
      have hpos := (h sess rfl).1
      rcases interval_first hx with heq | ⟨hzero, -⟩
      · rw [heq] at hlt
        exact hlt hlt'
      · rw [hzero] at hle
        simp only [UInt32.reduceToNat] at hle
        omega
  | other hi hst hacc =>
    exact ⟨h, iff_of_true outlived_nil fun sess _ => not_outlasts_of_ne hi hacc⟩

end Steps

/-! ## Runs -/

section Runs

variable {P : Platform} {site : Site} {key : Bytes} {W₀ W : World}
  {xs : List (Delivery × List TimerRequest)}

/-- The stores are one, and their session is live. -/
def LiveStores (P : Platform) (site : Site) (key : Bytes) (W : World) : Prop :=
  ∃ o, OneStore P site key W o ∧ LiveStore o

theorem LiveStores.step {W' : World} {x : Delivery} {reqs : List TimerRequest}
    (h : LiveStores P site key W) (hx : Arrives key x) (hstep : Handles P site W x reqs W') :
    LiveStores P site key W' ∧ (Outlived (localView P site key W') reqs ↔
      ∀ sess, localView P site key W = some sess → ¬ Outlasts sess x) := by
  obtain ⟨o, hone, hlive⟩ := h
  obtain ⟨hone', hreqs⟩ := hone.step hx.hasKey hstep
  have hserved := served_serve P x o
  rw [← hreqs] at hserved
  obtain ⟨hlive', hiff⟩ := hlive.served hx hserved
  have hview : (localView P site key W).map Session.content = o := hone.view List.mem_cons_self
  have hview' : (localView P site key W').map Session.content = (serve P o x).1 :=
    hone'.view List.mem_cons_self
  refine ⟨⟨_, hone', hlive'⟩, ?_⟩
  rw [← hview', ← hview] at hiff
  refine ⟨fun hout sess hsess => ?_, fun hall => ?_⟩
  · refine hiff.mp ?_ sess.content (by rw [hsess]; rfl)
    intro req hreq spec hspec
    obtain ⟨v, hv, hlt⟩ := hout req hreq spec hspec
    exact ⟨v.content, by rw [hv]; rfl, hlt⟩
  · have hout := hiff.mpr fun sess hsess => by
      obtain ⟨v, hv, rfl⟩ := Option.map_eq_some_iff.mp hsess
      exact hall v hv
    intro req hreq spec hspec
    obtain ⟨v, hv, hlt⟩ := hout req hreq spec hspec
    obtain ⟨w, hw, rfl⟩ := Option.map_eq_some_iff.mp hv
    exact ⟨w, hw, hlt⟩

/-- **The record outlives the timer.** Messages of one key are processed one after another, from
stores without the key. Whatever came before, a message that arms a timer leaves a session in the
local store that expires later than the timer pops, if and only if it does not outlast the session
that was stored before it. -/
theorem timer_outlived (hempty : ∀ s, (W₀ s).record key = none)
    (hrun : Trace (fun W x reqs W' => Arrives key x ∧ Handles P site W x reqs W') W₀ xs W)
    {x : Delivery} {reqs : List TimerRequest} {W' : World} (hx : Arrives key x)
    (hstep : Handles P site W x reqs W') :
    Outlived (localView P site key W') reqs ↔
      ∀ sess, localView P site key W = some sess → ¬ Outlasts sess x := by
  have hend : LiveStores P site key W :=
    hrun.invariant (fun _ _ _ _ h hstep => (h.step hstep.1 hstep.2).1)
      ⟨none, oneStore_empty hempty, liveStore_none⟩
  exact (hend.step hx hstep).2

end Runs

/-! ### A timer that is outlived, and one that is not -/

theorem arrives_sample {type : AccountingRecordType} {answer : Answer} {timer : Option Bytes} :
    Arrives sampleKey ⟨sampleMessage type, answer, timer⟩ := by
  have hrefresh : 1 ≤ (300 : UInt32).toNat ∧ (300 : UInt32).toNat < 2 ^ 30 := by decide
  exact ⟨rfl, rfl, fun _ => hrefresh, fun _ => hrefresh.2⟩

theorem timer_outlived_timedStart :
    ∃ reqs W, Handles compactPlatform localAndRemote (fun _ => Store.empty) timedStart reqs W ∧
      Outlived (localView compactPlatform localAndRemote sampleKey W) reqs := by
  have hempty : OneStore compactPlatform localAndRemote sampleKey (fun _ => Store.empty) none :=
    oneStore_empty fun _ => rfl
  obtain ⟨reqs, W, hstep⟩ := hempty.exists_handles (x := timedStart) rfl
  refine ⟨reqs, W, hstep, ?_⟩
  refine (timer_outlived (fun _ => rfl) .nil arrives_sample hstep).mpr fun sess hsess => ?_
  have hnone : localView compactPlatform localAndRemote sampleKey (fun _ => Store.empty) = none :=
    view_of_none rfl
  rw [hnone] at hsess
  cases hsess

/-- A START with a refresh time of 300 seconds, without a timer. -/
def plainStart : Delivery := ⟨sampleMessage .start, ⟨0, ascii "sid", 2001⟩, none⟩

/-- An INTERIM that brings a refresh time of 10000 seconds and is answered with 5000. -/
def longInterim : Delivery :=
  ⟨{ sampleMessage .interim with sessionRefreshTime := 10000 }, ⟨5000, ascii "sid", 2001⟩,
    some (ascii "t")⟩

set_option maxRecDepth 8000 in
/-- The timer is armed for 5000 seconds, while the record expires after 600. -/
theorem timer_outlasts :
    ∃ reqs W reqs' W' v spec,
      Trace (fun W x reqs W' => Arrives sampleKey x ∧
        Handles compactPlatform localAndRemote W x reqs W') (fun _ => Store.empty)
        [(plainStart, reqs), (longInterim, reqs')] W' ∧
      Handles compactPlatform localAndRemote W longInterim reqs' W' ∧
      .post spec ∈ reqs' ∧ spec.interval = 5000 ∧
      localView compactPlatform localAndRemote sampleKey W' = some v ∧ v.expiry = 600 ∧
      ¬ Outlived (localView compactPlatform localAndRemote sampleKey W') reqs' := by
  have hempty : OneStore compactPlatform localAndRemote sampleKey (fun _ => Store.empty) none :=
    oneStore_empty fun _ => rfl
  obtain ⟨reqs, W, hstep⟩ := hempty.exists_handles (x := plainStart) rfl
  obtain ⟨hone, -⟩ := hempty.step rfl hstep
  obtain ⟨reqs', W', hstep'⟩ := hone.exists_handles (x := longInterim) rfl
  obtain ⟨hone', hreqs'⟩ := hone.step rfl hstep'
  have hlong : Arrives sampleKey longInterim :=
    ⟨rfl, rfl, fun h => absurd h (by decide), fun _ => by decide⟩
  have hview := hone'.view (s := 0) (by decide)
  obtain ⟨v, hv, hcontent⟩ := Option.map_eq_some_iff.mp (hview.trans (by rfl))
  have hexpiry : v.expiry = 600 := (congrArg Session.expiry hcontent).trans (by decide)
  have hpost : ∃ spec, TimerRequest.post spec ∈ reqs' ∧ spec.interval = 5000 := by
    rw [hreqs']
    exact ⟨_, List.mem_singleton.mpr rfl, rfl⟩
  obtain ⟨spec, hmem, hinterval⟩ := hpost
  refine ⟨reqs, W, reqs', W', v, spec, .cons ⟨arrives_sample, hstep⟩ (.cons ⟨hlong, hstep'⟩ .nil),
    hstep', hmem, hinterval, hv, hexpiry, ?_⟩
  intro hout
  obtain ⟨w, hw, hlt⟩ := hout _ hmem spec rfl
  have heq : w = v := Option.some.inj (hw.symm.trans hv)
  rw [heq, hinterval, hexpiry] at hlt
  revert hlt
  decide

end Ralf
