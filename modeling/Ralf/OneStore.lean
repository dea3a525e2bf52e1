import Ralf.Sequential

/-!
# All stores as one

While messages of one key are processed one after another and every store can be reached, the stores
of a site hold the same session, CAS values aside (`Mirrors`). So a site is as good as one store, and
what a message does to it is a function: `serve`, of the session that is stored, the message, the
answer of the CCF and the id Chronos returns. `OneStore.step` says that processing a message follows
it, with all that is asked of Chronos.
-/

namespace Ralf

open Bytes Versioned Runs

/-! ## The function -/

/-- A message, the answer to it, and the id Chronos returns if it is asked for a timer. -/
structure Delivery where
  msg : Message
  answer : Answer
  timer : Option Bytes

/-- The message as `handle` sends it when the session is stored. -/
def Delivery.filled (x : Delivery) (sess : Session) : Message := fillIn x.msg sess.incremented

/-- The message as `handle` sends it when it is not about a stored session. -/
def Delivery.first (x : Delivery) : Message := { x.msg with accountingRecordNumber := 1 }

/-- The interim interval in force when the answer to `msg` comes. -/
def Delivery.interval (x : Delivery) (msg : Message) : UInt32 :=
  resolveInterval msg x.answer.interimInterval

/-- What a write leaves behind, CAS value aside. -/
def Session.kept (sess : Session) : Option Session :=
  if 0 < sess.expiry then some sess.stored.content else none

section Function

variable (P : Platform)

/-- `on_ccf_response`, on one store. -/
def serveAnswer (x : Delivery) (msg : Message) (o : Option Session) :
    Option Session × List TimerRequest :=
  let interimInterval := resolveInterval msg x.answer.interimInterval
  if msg.recordType.isInterim then
    if x.answer.rc = 5002 then (none, [])
    else if !msg.timerInterim && interimInterval < msg.sessionRefreshTime then
      let timerId := x.timer.getD msg.timerId
      (if timerId ≠ msg.timerId then
          o.bind fun sess => ({ sess with timerId := timerId } : Session).kept
        else o,
        [chronosUpdate P msg interimInterval])
    else (o, [])
  else if msg.recordType.isStart && x.answer.accepted then
    if interimInterval < msg.sessionRefreshTime then
      (o.or (startSession msg interimInterval x.answer.sessionId (x.timer.getD NO_TIMER)).kept,
        [.post (timerSpec P msg interimInterval)])
    else (o.or (startSession msg interimInterval x.answer.sessionId NO_TIMER).kept, [])
  else (o, [])

/-- A message, on one store. -/
def serve (o : Option Session) (x : Delivery) : Option Session × List TimerRequest :=
  if x.msg.recordType.isInterim then
    match o with
    | none => (none, [])
    | some sess => serveAnswer P x (x.filled sess) sess.incremented.kept
  else if x.msg.recordType.isStop then
    match o with
    | none => (none, [])
    | some sess => (none, stopRequests sess)
  else serveAnswer P x x.first o

variable {P} {x : Delivery} {msg : Message} {o : Option Session}

theorem serveAnswer_unknown (hi : msg.recordType = .interim) (hrc : x.answer.rc = 5002) :
    serveAnswer P x msg o = (none, []) := by
  unfold serveAnswer
  rw [if_pos (AccountingRecordType.isInterim_iff.mpr hi), if_pos hrc]

theorem serveAnswer_updated (hi : msg.recordType = .interim) (hrc : x.answer.rc ≠ 5002)
    (ht : msg.timerInterim = false)
    (hlt : resolveInterval msg x.answer.interimInterval < msg.sessionRefreshTime) :
    serveAnswer P x msg o =
      (if x.timer.getD msg.timerId ≠ msg.timerId then
          o.bind fun sess => ({ sess with timerId := x.timer.getD msg.timerId } : Session).kept
        else o,
        [chronosUpdate P msg (resolveInterval msg x.answer.interimInterval)]) := by
  unfold serveAnswer
  rw [if_pos (AccountingRecordType.isInterim_iff.mpr hi), if_neg hrc]
  exact if_pos (by simp [ht, hlt])

theorem serveAnswer_timed (hs : msg.recordType = .start) (hacc : x.answer.accepted = true)
    (hlt : resolveInterval msg x.answer.interimInterval < msg.sessionRefreshTime) :
    serveAnswer P x msg o =
      (o.or (startSession msg (resolveInterval msg x.answer.interimInterval) x.answer.sessionId
        (x.timer.getD NO_TIMER)).kept,
        [.post (timerSpec P msg (resolveInterval msg x.answer.interimInterval))]) := by
  unfold serveAnswer
  rw [hs, if_neg (by decide), hacc, if_pos (by decide)]
  exact if_pos hlt

theorem serveAnswer_untimed (hs : msg.recordType = .start) (hacc : x.answer.accepted = true)
    (hlt : ¬ resolveInterval msg x.answer.interimInterval < msg.sessionRefreshTime) :
    serveAnswer P x msg o =
      (o.or (startSession msg (resolveInterval msg x.answer.interimInterval) x.answer.sessionId
        NO_TIMER).kept, []) := by
  unfold serveAnswer
  rw [hs, if_neg (by decide), hacc, if_pos (by decide)]
  exact if_neg hlt

theorem serveAnswer_kept (hrc : msg.recordType = .interim → x.answer.rc ≠ 5002)
    (hacc : msg.recordType = .start → x.answer.accepted = false)
    (hlt : msg.recordType = .interim → msg.timerInterim = false →
      ¬ resolveInterval msg x.answer.interimInterval < msg.sessionRefreshTime) :
    serveAnswer P x msg o = (o, []) := by
  unfold serveAnswer
  by_cases hi : msg.recordType = .interim
  · rw [if_pos (AccountingRecordType.isInterim_iff.mpr hi), if_neg (hrc hi)]
    refine if_neg ?_
    simp only [Bool.and_eq_true, Bool.not_eq_true', decide_eq_true_eq]
    rintro ⟨ht, hlt'⟩
    exact hlt hi ht hlt'
  · rw [if_neg fun h => hi (AccountingRecordType.isInterim_iff.mp h)]
    refine if_neg ?_
    rw [Bool.and_eq_true]
    rintro ⟨hs, hacc'⟩
    rw [hacc (AccountingRecordType.isStart_iff.mp hs)] at hacc'
    cases hacc'

theorem serve_ignored (h : x.msg.recordType = .interim ∨ x.msg.recordType = .stop) :
    serve P none x = (none, []) := by
  unfold serve
  rcases h with hi | hs
  · rw [if_pos (AccountingRecordType.isInterim_iff.mpr hi)]
  · rw [hs, if_neg (by decide), if_pos (by decide)]

theorem serve_interim {sess : Session} (hi : x.msg.recordType = .interim) :
    serve P (some sess) x = serveAnswer P x (x.filled sess) sess.incremented.kept := by
  unfold serve
  rw [if_pos (AccountingRecordType.isInterim_iff.mpr hi)]

theorem serve_stop {sess : Session} (hs : x.msg.recordType = .stop) :
    serve P (some sess) x = (none, stopRequests sess) := by
  unfold serve
  rw [hs, if_neg (by decide), if_pos (by decide)]

theorem serve_first (hi : x.msg.recordType ≠ .interim) (hs : x.msg.recordType ≠ .stop) :
    serve P o x = serveAnswer P x x.first o := by
  unfold serve
  rw [if_neg fun h => hi (AccountingRecordType.isInterim_iff.mp h),
    if_neg fun h => hs (AccountingRecordType.isStop_iff.mp h)]

/-- All that `serve` can do. -/
inductive Served (P : Platform) (x : Delivery) :
    Option Session → Option Session → List TimerRequest → Prop where
  | ignored : x.msg.recordType = .interim ∨ x.msg.recordType = .stop → Served P x none none []
  | unknown {sess} : x.msg.recordType = .interim → x.answer.rc = 5002 → Served P x (some sess) none []
  | updated {sess} : x.msg.recordType = .interim → x.answer.rc ≠ 5002 →
      x.msg.timerInterim = false →
      x.interval (x.filled sess) < (x.filled sess).sessionRefreshTime →
      Served P x (some sess)
        (if x.timer.getD sess.timerId ≠ sess.timerId then
            sess.incremented.kept.bind fun v =>
              ({ v with timerId := x.timer.getD sess.timerId } : Session).kept
          else sess.incremented.kept)
        [chronosUpdate P (x.filled sess) (x.interval (x.filled sess))]
  | counted {sess} : x.msg.recordType = .interim → x.answer.rc ≠ 5002 →
      (x.msg.timerInterim = false →
        ¬ x.interval (x.filled sess) < (x.filled sess).sessionRefreshTime) →
      Served P x (some sess) sess.incremented.kept []
  | stopped {sess} : x.msg.recordType = .stop → Served P x (some sess) none (stopRequests sess)
  | timed {o : Option Session} : x.msg.recordType = .start → x.answer.accepted = true →
      x.interval x.first < x.msg.sessionRefreshTime →
      Served P x o
        (o.or (startSession x.first (x.interval x.first) x.answer.sessionId
          (x.timer.getD NO_TIMER)).kept)
        [.post (timerSpec P x.first (x.interval x.first))]
  | untimed {o : Option Session} : x.msg.recordType = .start → x.answer.accepted = true →
      ¬ x.interval x.first < x.msg.sessionRefreshTime →
      Served P x o
        (o.or (startSession x.first (x.interval x.first) x.answer.sessionId NO_TIMER).kept) []
  | other {o : Option Session} : x.msg.recordType ≠ .interim → x.msg.recordType ≠ .stop →
      (x.msg.recordType = .start → x.answer.accepted = false) → Served P x o o []

variable (P x o) in
theorem served_serve : Served P x o (serve P o x).1 (serve P o x).2 := by
  by_cases hi : x.msg.recordType = .interim
  · cases o with
    | none =>
      rw [serve_ignored (.inl hi)]
      exact .ignored (.inl hi)
    | some sess =>
      rw [serve_interim hi]
      by_cases hrc : x.answer.rc = 5002
      · rw [serveAnswer_unknown (show (x.filled sess).recordType = .interim from hi) hrc]
        exact .unknown hi hrc
      · by_cases hup : x.msg.timerInterim = false ∧
          x.interval (x.filled sess) < (x.filled sess).sessionRefreshTime
        · rw [serveAnswer_updated (show (x.filled sess).recordType = .interim from hi) hrc hup.1
            hup.2]
          exact .updated hi hrc hup.1 hup.2
        · rw [serveAnswer_kept (fun _ : (x.filled sess).recordType = .interim => hrc)
            (fun hs => by cases hi.symm.trans hs) fun _ ht hlt => hup ⟨ht, hlt⟩]
          exact .counted hi hrc fun ht hlt => hup ⟨ht, hlt⟩
  · by_cases hs : x.msg.recordType = .stop
    · cases o with
      | none =>
        rw [serve_ignored (.inr hs)]
        exact .ignored (.inr hs)
      | some sess =>
        rw [serve_stop hs]
        exact .stopped hs
    · rw [serve_first hi hs]
      by_cases hstart : x.msg.recordType = .start ∧ x.answer.accepted = true
      · obtain ⟨hst, hacc⟩ := hstart
        by_cases hlt : x.interval x.first < x.msg.sessionRefreshTime
        · rw [serveAnswer_timed (show x.first.recordType = .start from hst) hacc hlt]
          exact .timed hst hacc hlt
        · rw [serveAnswer_untimed (show x.first.recordType = .start from hst) hacc hlt]
          exact .untimed hst hacc hlt
      · have hacc : x.msg.recordType = .start → x.answer.accepted = false := by
          intro hst
          rw [Bool.eq_false_iff]
          exact fun htrue => hstart ⟨hst, htrue⟩
        rw [serveAnswer_kept (fun h : x.first.recordType = .interim => absurd h hi) hacc
          fun h => absurd h hi]
        exact .other hi hs hacc

end Function

/-! ## Stores that agree -/

/-- Every store of the site holds this session, CAS values aside. -/
def Mirrors (site : Site) (R : Regs) (o : Option Session) : Prop :=
  ∀ s ∈ site.stores, (R s).cell.map Session.content = o

/-- The environments of a message that is processed on its own, with these answers. -/
def Delivery.setting (x : Delivery) : Setting where
  Ok := fun env => env.Up ∧ env.answer = x.answer ∧ env.timer = x.timer
  up := fun _ h => h.1
  nonempty := ⟨⟨fun _ => .up, x.timer, [], x.answer⟩, fun _ => rfl, rfl, rfl⟩

section Mirrors

variable {P : Platform} {site : Site} {R R' : Regs} {o : Option Session} {sess v : Session}
  {x : Delivery} {msg : Message} {out : List Message} {reqs : List TimerRequest}

theorem written_content (sess : Session) (c : ℕ+) :
    (sess.written c).map Session.content = sess.kept := by
  unfold Session.written Session.kept
  split_ifs <;> rfl

theorem Mirrors.find (h : Mirrors site R o) :
    (R.find site.stores).map Session.content = o ∧
      (R site.localStore).cell.map Session.content = o := by
  have hlocal := h site.localStore List.mem_cons_self
  refine ⟨?_, hlocal⟩
  cases hc : (R site.localStore).cell with
  | some f => rw [find_stores_of_some hc, ← hc, hlocal]
  | none =>
    rw [hc] at hlocal
    have hnone : R.find site.stores = none := by
      refine List.findSome?_eq_none_iff.mpr fun s hs => ?_
      have hcell := h s hs
      rwa [← hlocal, Option.map_none, Option.map_eq_none_iff] at hcell
    rw [hnone]
    exact hlocal

/-- The local store shows whether there is a session at all. -/
theorem Mirrors.find_of_local (h : Mirrors site R o) (hnone : (R site.localStore).cell = none) :
    R.find site.stores = none := by
  obtain ⟨hfind, hlocal⟩ := h.find
  rw [hnone] at hlocal
  rw [← hlocal] at hfind
  exact Option.map_eq_none_iff.mp hfind

theorem Mirrors.gone (heff : Effect gone site.stores R R') : Mirrors site R' none := by
  intro s hs
  obtain ⟨c, hc⟩ := heff.cell s hs
  rw [hc]
  rfl

theorem Mirrors.counted (h : Mirrors site R (some v))
    (heff : Effect (counted sess) site.stores R R') : Mirrors site R' v.incremented.kept := by
  intro s hs
  obtain ⟨c, hc⟩ := heff.cell s hs
  obtain ⟨u, hu, rfl⟩ := Option.map_eq_some_iff.mp (h s hs)
  rw [hc, hu]
  exact written_content u.incremented c

theorem Mirrors.retimed {timerId : Bytes} (h : Mirrors site R o)
    (heff : Effect (retimed timerId) site.stores R R') :
    Mirrors site R' (o.bind fun v => ({ v with timerId := timerId } : Session).kept) := by
  intro s hs
  obtain ⟨c, hc⟩ := heff.cell s hs
  rw [hc, ← h s hs]
  cases (R s).cell with
  | none => rfl
  | some u => exact written_content { u with timerId := timerId } c

theorem Mirrors.added (h : Mirrors site R o) (heff : Effect (added sess) site.stores R R') :
    Mirrors site R' (o.or sess.kept) := by
  intro s hs
  obtain ⟨c, hc⟩ := heff.cell s hs
  rw [hc, ← h s hs]
  cases (R s).cell with
  | none => exact written_content sess c
  | some u => rfl

/-! ## One message -/

theorem Mirrors.answered (h : Mirrors site R o)
    (hans : AnsweredBy P site x.setting msg R R' reqs) :
    Mirrors site R' (serveAnswer P x msg o).1 ∧ reqs = (serveAnswer P x msg o).2 := by
  cases hans with
  | unknown henv hi hrc heff =>
    rw [henv.2.1] at hrc
    rw [serveAnswer_unknown hi hrc]
    exact ⟨.gone heff, rfl⟩
  | updated henv henv' hi hrc ht hlt hid heff =>
    rw [henv.2.1] at hrc hlt ⊢
    rw [henv'.2.2] at hid heff
    rw [serveAnswer_updated hi hrc ht hlt, if_pos hid]
    exact ⟨h.retimed heff, rfl⟩
  | unchanged henv henv' hi hrc ht hlt hid =>
    rw [henv.2.1] at hrc hlt ⊢
    rw [henv'.2.2] at hid
    rw [serveAnswer_updated hi hrc ht hlt, if_neg (not_not.mpr hid)]
    exact ⟨h, rfl⟩
  | timed henv henv' hs hacc hlt heff =>
    rw [henv.2.1] at hacc hlt heff ⊢
    rw [henv'.2.2] at heff
    rw [serveAnswer_timed hs hacc hlt]
    exact ⟨h.added heff, rfl⟩
  | untimed henv hs hacc hlt heff =>
    rw [henv.2.1] at hacc hlt heff
    rw [serveAnswer_untimed hs hacc hlt]
    exact ⟨h.added heff, rfl⟩
  | kept henv hrc hacc hlt =>
    rw [henv.2.1] at hrc hacc hlt
    rw [serveAnswer_kept hrc hacc hlt]
    exact ⟨h, rfl⟩

/-- The answer to a STOP changes nothing. -/
theorem AnsweredBy.stop (hs : msg.recordType = .stop)
    (hans : AnsweredBy P site x.setting msg R R' reqs) : R' = R ∧ reqs = [] := by
  cases hans with
  | unknown _ hi => cases hs.symm.trans hi
  | updated _ _ hi => cases hs.symm.trans hi
  | unchanged _ _ hi => cases hs.symm.trans hi
  | timed _ _ hst => cases hs.symm.trans hst
  | untimed _ hst => cases hs.symm.trans hst
  | kept => exact ⟨rfl, rfl⟩

/-- **One store.** What a message does to stores that agree is what `serve` says. -/
theorem Mirrors.step (h : Mirrors site R o)
    (hproc : ProcessedBy P site x.setting x.msg R R' out reqs) :
    Mirrors site R' (serve P o x).1 ∧ reqs = (serve P o x).2 := by
  obtain ⟨hfind, hlocal⟩ := h.find
  cases hproc with
  | ignored htype hnone =>
    rw [hnone] at hfind
    subst hfind
    rw [Option.map_none, serve_ignored htype]
    exact ⟨h, rfl⟩
  | @interim f R₁ _ _ hi hsome heff hans =>
    rw [hsome] at hfind
    subst hfind
    rw [Option.map_some, serve_interim hi]
    exact (h.counted heff).answered hans
  | @stop f R₁ _ reqs' hs hsome heff hans =>
    rw [hsome] at hlocal
    subst hlocal
    rw [Option.map_some, serve_stop hs]
    obtain ⟨rfl, rfl⟩ := hans.stop (show (fillIn x.msg f.incremented).recordType = .stop from hs)
    exact ⟨.gone heff, List.append_nil _⟩
  | first hi hs hans =>
    rw [serve_first hi hs]
    exact h.answered hans

end Mirrors

/-! ## Runs -/

section Runs

variable (P : Platform) (site : Site)

/-- A message is processed to completion while the stores can be reached, with these answers: what
it asks of Chronos, and what it leaves in the stores. -/
def Handles (W : World) (x : Delivery) (reqs : List TimerRequest) (W' : World) : Prop :=
  ∃ envs : List Env, (∀ env ∈ envs, env.Up ∧ env.answer = x.answer ∧ env.timer = x.timer) ∧ ∃ tr,
    exec (threadStep P site) envs (Thread.start x.msg W) = ⟨.done, W', tr⟩ ∧ requests tr = reqs

/-- The stores of the site are one, and it holds this session. -/
structure OneStore (key : Bytes) (W : World) (o : Option Session) : Prop where
  readable : ReadableAll P key W
  mirrors : Mirrors site (regs P key W) o

variable {P site} {key : Bytes} {W W' : World} {o : Option Session} {x : Delivery}
  {reqs : List TimerRequest}

theorem oneStore_empty (hempty : ∀ s, (W s).record key = none) : OneStore P site key W none where
  readable := fun s => readable_of_none (hempty s)
  mirrors := fun s _ => by
    show (view P (W s) key).map Session.content = none
    rw [view_of_none (hempty s)]
    rfl

/-- What a store of the site shows. -/
theorem OneStore.view (h : OneStore P site key W o) {s : StoreId} (hs : s ∈ site.stores) :
    (Ralf.view P (W s) key).map Session.content = o :=
  h.mirrors s hs

theorem OneStore.step (h : OneStore P site key W o) (hkey : x.msg.key = key)
    (hstep : Handles P site W x reqs W') :
    OneStore P site key W' (serve P o x).1 ∧ reqs = (serve P o x).2 := by
  obtain ⟨envs, henvs, tr, hexec, rfl⟩ := hstep
  have hproc := processedBy_of_exec (C := x.setting) hkey h.readable
    (fun _ => h.mirrors.find_of_local) henvs hexec
  obtain ⟨hmirrors, hreqs⟩ := h.mirrors.step hproc
  exact ⟨⟨readable_of_exec hkey h.readable hexec, hmirrors⟩, hreqs⟩

theorem OneStore.exists_handles (h : OneStore P site key W o) (hkey : x.msg.key = key) :
    ∃ reqs W', Handles P site W x reqs W' := by
  obtain ⟨envs, henvs, W', tr, hexec⟩ := exists_exec x.setting hkey h.readable
    fun _ => h.mirrors.find_of_local
  exact ⟨requests tr, W', envs, henvs, tr, hexec, rfl⟩

/-- There is a run for every list of messages, and `serve` tells its requests. `A` is what is assumed
of the messages in the runs; it can be checked on the one store. -/
theorem OneStore.exists_trace {A : World → Delivery → Prop} {B : Option Session → Delivery → Prop}
    (hA : ∀ W o x, OneStore P site key W o → B o x → A W x) {xs : List Delivery}
    (hkey : ∀ x ∈ xs, x.msg.key = key) (h : OneStore P site key W o)
    (hB : Along (fun x o => (serve P o x).1) B xs o) :
    ∃ W', Trace (fun W x reqs W' => A W x ∧ Handles P site W x reqs W') W
        (xs.zip (transduce (serve P) o xs).2) W' ∧
      OneStore P site key W' (transduce (serve P) o xs).1 := by
  induction xs generalizing W o with
  | nil => exact ⟨W, .nil, h⟩
  | cons x xs ih =>
    have hx := hkey x List.mem_cons_self
    obtain ⟨reqs, W₁, hstep⟩ := h.exists_handles hx
    obtain ⟨h₁, rfl⟩ := h.step hx hstep
    obtain ⟨W', htrace, hend⟩ := ih (fun y hy => hkey y (List.mem_cons_of_mem x hy)) h₁ hB.2
    exact ⟨W', .cons ⟨hA W o x h hB.1, hstep⟩ htrace, hend⟩

/-- Stores that are one and hold nothing. -/
theorem OneStore.record_eq_none (h : OneStore P site key W none) :
    ∀ s ∈ site.stores, (W s).record key = none := by
  intro s hs
  exact record_of_view_none (h.readable s) (Option.map_eq_none_iff.mp (h.view hs))

end Runs

end Ralf
