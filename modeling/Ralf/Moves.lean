import Ralf.System

/-!
# What a step can do

With every store reachable, `Move` lists the transitions of a thread over registers, one
constructor for each way a call can turn out, and `move_stepReg` says that there are no others.
What a move does to a register is one of three things (`Evolves`): nothing, a write under a version
never used before, or an unconditional delete. None of them spoils a copy that another thread has
read, so what a thread holds stays good until it writes it back (`Held`).
-/

namespace Ralf

open Bytes Versioned Runs

/-- A session with its accounting record number increased. -/
def Session.incremented (sess : Session) : Session :=
  { sess with acctRecordNumber := sess.acctRecordNumber + 1 }

theorem found_interim {msg : Message} (h : msg.recordType = .interim) (sess : Session)
    (newSession : Bool) :
    found msg sess newSession = .updateLocal msg sess.incremented newSession := by
  unfold found
  rw [h]
  rfl

/-- The version a write names. -/
def Session.expected (sess : Session) (newSession : Bool) : ℕ := if newSession then 0 else sess.cas

/-- The registers after a write to `s` went through. -/
def Regs.put (R : Regs) (s : StoreId) (env : Env) (x : Option Session) : Regs :=
  Function.update R s ((R s).put (env.store s).cas x)

/-- The registers after a delete at `s`. -/
def Regs.erase (R : Regs) (s : StoreId) : Regs := Function.update R s (R s).erase

/-- The version a write to `s` has to name to go through. -/
def Regs.version (R : Regs) (s : StoreId) : ℕ := (R s).version Session.cas

@[simp] theorem Regs.put_self (R : Regs) (s : StoreId) (env : Env) (x : Option Session) :
    R.put s env x s = (R s).put (env.store s).cas x := by
  simp [Regs.put]

theorem Regs.put_of_ne (R : Regs) {s t : StoreId} (env : Env) (x : Option Session) (h : t ≠ s) :
    R.put s env x t = R t := by
  simp [Regs.put, h]

@[simp] theorem Regs.erase_self (R : Regs) (s : StoreId) : R.erase s s = (R s).erase := by
  simp [Regs.erase]

theorem Regs.erase_of_ne (R : Regs) {s t : StoreId} (h : t ≠ s) : R.erase s t = R t := by
  simp [Regs.erase, h]

section Moves

variable (P : Platform) (site : Site) (env : Env)

/-- The transitions of a thread while every store can be reached. -/
inductive Move : Pc → Regs → Pc → Regs → List Event → Prop where
  | handleInterim {msg R sess} : msg.recordType = .interim → (R site.localStore).cell = some sess →
      Move (.handle msg) R (.updateLocal msg sess.incremented false) R []
  | handleStop {msg R sess} : msg.recordType = .stop → (R site.localStore).cell = some sess →
      Move (.handle msg) R (.deleteLocal msg sess.incremented) R []
  | handleMissing {msg R} : msg.recordType = .interim ∨ msg.recordType = .stop →
      (R site.localStore).cell = none →
      Move (.handle msg) R (.tryRemotes msg site.remoteStores) R []
  | handleFirst {msg R} : msg.recordType ≠ .interim → msg.recordType ≠ .stop →
      Move (.handle msg) R (.send { msg with accountingRecordNumber := 1 }) R []
  | tryNone {msg R} : Move (.tryRemotes msg []) R .done R []
  | tryInterim {msg s rest R sess} : msg.recordType = .interim → (R s).cell = some sess →
      Move (.tryRemotes msg (s :: rest)) R (.updateLocal msg sess.incremented true) R []
  | tryStop {msg s rest R sess} : msg.recordType ≠ .interim → (R s).cell = some sess →
      Move (.tryRemotes msg (s :: rest)) R (.deleteLocal msg sess.incremented) R []
  | tryNext {msg s rest R} : (R s).cell = none →
      Move (.tryRemotes msg (s :: rest)) R (.tryRemotes msg rest) R []
  | updateLocal {msg sess newSession R} :
      R.version site.localStore = sess.expected newSession →
      Move (.updateLocal msg sess newSession) R (.readRemotes msg sess site.remoteStores)
        (R.put site.localStore env (sess.written (env.store site.localStore).cas)) []
  | updateLocalAgain {msg sess newSession R} :
      R.version site.localStore ≠ sess.expected newSession →
      Move (.updateLocal msg sess newSession) R (.handle msg) R []
  | readRemotesNone {msg sess R} :
      Move (.readRemotes msg sess []) R (.send (fillIn msg sess)) R []
  | readRemotesMissing {msg sess s rest R} : (R s).cell = none →
      Move (.readRemotes msg sess (s :: rest)) R (.updateRemote msg sess s rest sess true) R []
  | readRemotesFound {msg sess s rest R remoteSess} : (R s).cell = some remoteSess →
      Move (.readRemotes msg sess (s :: rest)) R
        (.updateRemote msg sess s rest remoteSess.incremented false) R []
  | updateRemote {msg sess s rest remoteSess newSession R} :
      R.version s = remoteSess.expected newSession →
      Move (.updateRemote msg sess s rest remoteSess newSession) R (.readRemotes msg sess rest)
        (R.put s env (remoteSess.written (env.store s).cas)) []
  | updateRemoteAgain {msg sess s rest remoteSess newSession R} :
      R.version s ≠ remoteSess.expected newSession →
      Move (.updateRemote msg sess s rest remoteSess newSession) R
        (.readRemotes msg sess (s :: rest)) R []
  | deleteLocal {msg sess R} : R.version site.localStore = sess.cas →
      Move (.deleteLocal msg sess) R (.deleteRemotes msg sess site.remoteStores)
        (R.put site.localStore env none) []
  | deleteLocalAgain {msg sess R} : R.version site.localStore ≠ sess.cas →
      Move (.deleteLocal msg sess) R (.handle msg) R []
  | deleteRemotesTimer {msg sess R} : sess.timerId ≠ NO_TIMER →
      Move (.deleteRemotes msg sess []) R (.send (fillIn msg sess)) R
        [.timer (.delete sess.timerId)]
  | deleteRemotesNone {msg sess R} : sess.timerId = NO_TIMER →
      Move (.deleteRemotes msg sess []) R (.send (fillIn msg sess)) R []
  | deleteRemotes {msg sess s rest R} :
      Move (.deleteRemotes msg sess (s :: rest)) R (.deleteRemotes msg sess rest) (R.erase s) []
  | send {msg R} : Move (.send msg) R (.awaitAnswer msg) R [.send msg (acrSessionId env msg)]
  | answerUpdate {msg R} : msg.recordType = .interim → env.answer.rc ≠ 5002 →
      msg.timerInterim = false →
      resolveInterval msg env.answer.interimInterval < msg.sessionRefreshTime →
      Move (.awaitAnswer msg) R
        (.sendChronosUpdate msg (resolveInterval msg env.answer.interimInterval)
          env.answer.accepted) R []
  | answerTimer {msg R} : msg.recordType = .start → env.answer.accepted = true →
      resolveInterval msg env.answer.interimInterval < msg.sessionRefreshTime →
      Move (.awaitAnswer msg) R
        (.createTimer msg (resolveInterval msg env.answer.interimInterval) env.answer.sessionId) R []
  | answerStart {msg R} : msg.recordType = .start → env.answer.accepted = true →
      ¬ resolveInterval msg env.answer.interimInterval < msg.sessionRefreshTime →
      Move (.awaitAnswer msg) R
        (.writeSession { msg with timerId := NO_TIMER }
          (startSession msg (resolveInterval msg env.answer.interimInterval) env.answer.sessionId
            NO_TIMER) site.stores) R []
  | answerUnknown {msg R} : msg.recordType = .interim → env.answer.rc = 5002 →
      Move (.awaitAnswer msg) R (.deleteUnknown msg site.stores) R []
  | answerFinish {msg R} : (msg.recordType = .start → env.answer.accepted = false) →
      (msg.recordType = .interim → env.answer.rc ≠ 5002) →
      (msg.recordType = .interim → msg.timerInterim = false →
        ¬ resolveInterval msg env.answer.interimInterval < msg.sessionRefreshTime) →
      Move (.awaitAnswer msg) R (.finish env.answer.accepted) R []
  | deleteUnknownNone {msg R} : Move (.deleteUnknown msg []) R (.finish false) R []
  | deleteUnknown {msg s rest R} :
      Move (.deleteUnknown msg (s :: rest)) R (.deleteUnknown msg rest) (R.erase s) []
  | createTimer {msg interimInterval sessionId R} :
      Move (.createTimer msg interimInterval sessionId) R
        (.writeSession { msg with timerId := env.timer.getD NO_TIMER }
          (startSession msg interimInterval sessionId (env.timer.getD NO_TIMER)) site.stores) R
        [.timer (.post (timerSpec P msg interimInterval))]
  | writeSessionNone {msg sess R} : Move (.writeSession msg sess []) R (.finish true) R []
  | writeSession {msg sess s rest R} : R.version s = 0 →
      Move (.writeSession msg sess (s :: rest)) R (.writeSession msg sess rest)
        (R.put s env (sess.written (env.store s).cas)) []
  | writeSessionFailed {msg sess s rest R} : R.version s ≠ 0 →
      Move (.writeSession msg sess (s :: rest)) R (.writeSession msg sess rest) R []
  | chronosUpdated {msg interimInterval accepted R} : env.timer.getD msg.timerId ≠ msg.timerId →
      Move (.sendChronosUpdate msg interimInterval accepted) R
        (.readTimerId msg (env.timer.getD msg.timerId) site.stores accepted) R
        [.timer (chronosUpdate P msg interimInterval)]
  | chronosUnchanged {msg interimInterval accepted R} :
      env.timer.getD msg.timerId = msg.timerId →
      Move (.sendChronosUpdate msg interimInterval accepted) R (.finish accepted) R
        [.timer (chronosUpdate P msg interimInterval)]
  | readTimerIdNone {msg timerId accepted R} :
      Move (.readTimerId msg timerId [] accepted) R (.finish accepted) R []
  | readTimerId {msg timerId s rest accepted R sess} : (R s).cell = some sess →
      Move (.readTimerId msg timerId (s :: rest) accepted) R
        (.writeTimerId { msg with timerId := timerId } timerId s rest
          { sess with timerId := timerId } accepted) R []
  | readTimerIdMissing {msg timerId s rest accepted R} : (R s).cell = none →
      Move (.readTimerId msg timerId (s :: rest) accepted) R
        (.readTimerId msg timerId rest accepted) R []
  | writeTimerId {msg timerId s rest sess accepted R} : R.version s = sess.cas →
      Move (.writeTimerId msg timerId s rest sess accepted) R
        (.readTimerId msg timerId rest accepted)
        (R.put s env (sess.written (env.store s).cas)) []
  | writeTimerIdFailed {msg timerId s rest sess accepted R} : R.version s ≠ sess.cas →
      Move (.writeTimerId msg timerId s rest sess accepted) R
        (.readTimerId msg timerId rest accepted) R []
  | finish {R} : Move (.finish true) R .done R [.healthCheckPassed]
  | finishQuiet {R} : Move (.finish false) R .done R []
  | done {R} : Move .done R .done R []
  | aborted {R} : Move .aborted R .aborted R []

variable {P site env}

theorem regGet_up {r : Reg} {e : StoreEnv} (h : e.down = false) : regGet r e = r.cell := by
  simp [regGet, h]

theorem regSet_ok {r : Reg} {e : StoreEnv} {cas : ℕ} {x : Option Session} (h : e.down = false)
    (hv : r.version Session.cas = cas) : regSet r e cas x = (.ok, r.put e.cas x) := by
  simp [regSet, h, hv]

theorem regSet_contention {r : Reg} {e : StoreEnv} {cas : ℕ} {x : Option Session}
    (h : e.down = false) (hv : r.version Session.cas ≠ cas) :
    regSet r e cas x = (.dataContention, r) := by
  simp [regSet, h, hv]

theorem regDelete_up {r : Reg} {e : StoreEnv} (h : e.down = false) :
    regDelete r e = (.ok, r.erase) := by
  simp [regDelete, h]

/-! ## Steps are moves -/

theorem stepReg_get {s : StoreId} {key : Bytes} {k : Option Session → Pc} {pc : Pc} {R : Regs}
    (hup : env.Up) (h : next P site pc = .get s key k) :
    stepReg P site env pc R = (k (R s).cell, R, []) := by
  unfold stepReg
  rw [h]
  simp only [performReg, regGet_up (hup s)]

theorem stepReg_set {s : StoreId} {key : Bytes} {sess : Session} {newSession : Bool}
    {k : Status → Pc} {pc : Pc} {R : Regs} (hup : env.Up)
    (h : next P site pc = .set s key sess newSession k) :
    stepReg P site env pc R =
      if R.version s = sess.expected newSession then
        (k .ok, R.put s env (sess.written (env.store s).cas), [])
      else (k .dataContention, R, []) := by
  unfold stepReg
  rw [h]
  show (k (regSet (R s) (env.store s) (sess.expected newSession) _).1, Function.update R s
    (regSet (R s) (env.store s) (sess.expected newSession) _).2, []) = _
  by_cases hv : R.version s = sess.expected newSession
  · rw [if_pos hv, regSet_ok (hup s) hv]
    rfl
  · rw [if_neg hv, regSet_contention (hup s) hv, Function.update_eq_self]

theorem stepReg_casDelete {s : StoreId} {key : Bytes} {sess : Session} {k : Status → Pc} {pc : Pc}
    {R : Regs} (hup : env.Up) (h : next P site pc = .casDelete s key sess k) :
    stepReg P site env pc R =
      if R.version s = sess.cas then (k .ok, R.put s env none, [])
      else (k .dataContention, R, []) := by
  unfold stepReg
  rw [h]
  by_cases hv : R.version s = sess.cas
  · rw [if_pos hv]
    simp only [performReg, regSet_ok (hup s) hv, Regs.put]
  · rw [if_neg hv]
    simp only [performReg, regSet_contention (hup s) hv, Function.update_eq_self]

theorem stepReg_delete {s : StoreId} {key : Bytes} {k : Status → Pc} {pc : Pc} {R : Regs}
    (hup : env.Up) (h : next P site pc = .delete s key k) :
    stepReg P site env pc R = (k .ok, R.erase s, []) := by
  unfold stepReg
  rw [h]
  simp only [performReg, regDelete_up (hup s), Regs.erase]

theorem move_onCcfResponse (msg : Message) (R : Regs) :
    Move P site env (.awaitAnswer msg) R
      (onCcfResponse site env.answer.accepted env.answer.interimInterval env.answer.sessionId
        env.answer.rc msg) R [] := by
  have haccepted : env.answer.accepted = true → env.answer.rc ≠ 5002 := by
    intro h hrc
    rw [Answer.accepted, hrc] at h
    cases h
  have hni : ¬ msg.recordType.isInterim = true → msg.recordType ≠ .interim := fun h hi =>
    h (AccountingRecordType.isInterim_iff.mpr hi)
  have hns : ¬ msg.recordType.isStart = true → msg.recordType ≠ .start := fun h hs =>
    h (AccountingRecordType.isStart_iff.mpr hs)
  unfold onCcfResponse
  dsimp only
  split_ifs with h1 h2 h3 h4 h5 h6 h7
  · simp only [Bool.and_eq_true, Bool.not_eq_true', decide_eq_true_eq] at h2
    exact .answerUpdate (AccountingRecordType.isInterim_iff.mp h2.1.1) (haccepted h1) h2.1.2 h2.2
  · exact .answerTimer (AccountingRecordType.isStart_iff.mp h3) h1 h4
  · exact .answerStart (AccountingRecordType.isStart_iff.mp h3) h1 h4
  · refine .answerFinish (fun hs => absurd hs (hns h3)) (fun _ => haccepted h1) ?_
    intro hi ht hlt
    simp [AccountingRecordType.isInterim_iff.mpr hi, ht, hlt] at h2
  · exact .answerUnknown (AccountingRecordType.isInterim_iff.mp h5) h6
  · simp only [Bool.and_eq_true, Bool.not_eq_true', decide_eq_true_eq] at h7
    exact .answerUpdate (AccountingRecordType.isInterim_iff.mp h5) h6 h7.1 h7.2
  · refine .answerFinish (fun _ => by simpa using h1) (fun _ => h6) ?_
    intro hi ht hlt
    simp [ht, hlt] at h7
  · exact .answerFinish (fun _ => by simpa using h1) (fun hi => absurd hi (hni h5))
      fun hi => absurd hi (hni h5)

/-- **Moves.** While the stores can be reached, every step of a thread is a move. -/
theorem move_stepReg (hup : env.Up) (pc : Pc) (R : Regs) :
    Move P site env pc R (stepReg P site env pc R).1 (stepReg P site env pc R).2.1
      (stepReg P site env pc R).2.2 := by
  cases pc with
  | handle msg =>
    by_cases hi : msg.recordType = .interim
    · rw [stepReg_get hup (by simp only [next, AccountingRecordType.isInterim_iff.mpr hi]; rfl)]
      cases hc : (R site.localStore).cell with
      | none => exact .handleMissing (.inl hi) hc
      | some sess =>
        simp only [found, AccountingRecordType.isInterim_iff.mpr hi]
        exact .handleInterim hi hc
    · have hni : msg.recordType.isInterim = false := by
        rw [Bool.eq_false_iff]
        exact fun h => hi (AccountingRecordType.isInterim_iff.mp h)
      by_cases hs : msg.recordType = .stop
      · rw [stepReg_get hup (by simp only [next, AccountingRecordType.isStop_iff.mpr hs]; rw [hni]; rfl)]
        cases hc : (R site.localStore).cell with
        | none => exact .handleMissing (.inr hs) hc
        | some sess =>
          simp only [found, hni]
          exact .handleStop hs hc
      · have hns : msg.recordType.isStop = false := by
          rw [Bool.eq_false_iff]
          exact fun h => hs (AccountingRecordType.isStop_iff.mp h)
        unfold stepReg
        simp only [next, hni, hns]
        exact .handleFirst hi hs
  | tryRemotes msg rest =>
    cases rest with
    | nil => exact .tryNone
    | cons s rest =>
      rw [stepReg_get hup rfl]
      cases hc : (R s).cell with
      | none => exact .tryNext hc
      | some sess =>
        by_cases hi : msg.recordType = .interim
        · simp only [found, AccountingRecordType.isInterim_iff.mpr hi]
          exact .tryInterim hi hc
        · have hni : msg.recordType.isInterim = false := by
            rw [Bool.eq_false_iff]
            exact fun h => hi (AccountingRecordType.isInterim_iff.mp h)
          simp only [found, hni]
          exact .tryStop hi hc
  | updateLocal msg sess newSession =>
    rw [stepReg_set hup rfl]
    by_cases hv : R.version site.localStore = sess.expected newSession
    · rw [if_pos hv]
      exact .updateLocal hv
    · rw [if_neg hv]
      exact .updateLocalAgain hv
  | readRemotes msg sess rest =>
    cases rest with
    | nil => exact .readRemotesNone
    | cons s rest =>
      rw [stepReg_get hup rfl]
      cases hc : (R s).cell with
      | none => exact .readRemotesMissing hc
      | some remoteSess => exact .readRemotesFound hc
  | updateRemote msg sess s rest remoteSess newSession =>
    rw [stepReg_set hup rfl]
    by_cases hv : R.version s = remoteSess.expected newSession
    · rw [if_pos hv]
      exact .updateRemote hv
    · rw [if_neg hv]
      exact .updateRemoteAgain hv
  | deleteLocal msg sess =>
    rw [stepReg_casDelete hup rfl]
    by_cases hv : R.version site.localStore = sess.cas
    · rw [if_pos hv]
      exact .deleteLocal hv
    · rw [if_neg hv]
      exact .deleteLocalAgain hv
  | deleteRemotes msg sess rest =>
    cases rest with
    | nil =>
      by_cases ht : sess.timerId = NO_TIMER
      · unfold stepReg
        simp only [next, ht]
        exact .deleteRemotesNone ht
      · unfold stepReg
        simp only [next, ne_eq, ht, not_false_eq_true, if_true]
        exact .deleteRemotesTimer ht
    | cons s rest =>
      rw [stepReg_delete hup rfl]
      exact .deleteRemotes
  | send msg => exact .send
  | awaitAnswer msg => exact move_onCcfResponse msg R
  | deleteUnknown msg rest =>
    cases rest with
    | nil => exact .deleteUnknownNone
    | cons s rest =>
      rw [stepReg_delete hup rfl]
      exact .deleteUnknown
  | createTimer msg interimInterval sessionId => exact .createTimer
  | writeSession msg sess rest =>
    cases rest with
    | nil => exact .writeSessionNone
    | cons s rest =>
      rw [stepReg_set hup rfl]
      by_cases hv : R.version s = sess.expected true
      · rw [if_pos hv]
        exact .writeSession hv
      · rw [if_neg hv]
        exact .writeSessionFailed hv
  | sendChronosUpdate msg interimInterval accepted =>
    by_cases ht : env.timer.getD msg.timerId = msg.timerId
    · have h : stepReg P site env (.sendChronosUpdate msg interimInterval accepted) R =
          (.finish accepted, R, [.timer (chronosUpdate P msg interimInterval)]) := by
        simp only [stepReg, next, performReg, ht, ne_eq, not_true_eq_false, if_false]
      rw [h]
      exact .chronosUnchanged ht
    · have h : stepReg P site env (.sendChronosUpdate msg interimInterval accepted) R =
          (.readTimerId msg (env.timer.getD msg.timerId) site.stores accepted, R,
            [.timer (chronosUpdate P msg interimInterval)]) := by
        simp only [stepReg, next, performReg, ne_eq, ht, not_false_eq_true, if_true]
      rw [h]
      exact .chronosUpdated ht
  | readTimerId msg timerId rest accepted =>
    cases rest with
    | nil => exact .readTimerIdNone
    | cons s rest =>
      rw [stepReg_get hup rfl]
      cases hc : (R s).cell with
      | none => exact .readTimerIdMissing hc
      | some sess => exact .readTimerId hc
  | writeTimerId msg timerId s rest sess accepted =>
    rw [stepReg_set hup rfl]
    by_cases hv : R.version s = sess.expected false
    · rw [if_pos hv]
      exact .writeTimerId hv
    · rw [if_neg hv]
      exact .writeTimerIdFailed hv
  | finish accepted =>
    cases accepted
    · exact .finishQuiet
    · exact .finish
  | done => exact .done
  | aborted => exact .aborted

/-! ## What a move does to the registers -/

theorem eq_of_written {sess v : Session} {c : ℕ+} (h : sess.written c = some v) :
    v = { sess.stored with cas := c } := by
  unfold Session.written at h
  split_ifs at h
  exact (Option.some.inj h).symm

theorem cas_written {sess : Session} {c : ℕ+} {v : Session} (h : sess.written c = some v) :
    v.cas = c := by
  rw [eq_of_written h]

theorem evolves_put {R : Regs} (hfresh : FreshCas R.issued env) {s : StoreId}
    {x : Option Session} (hx : ∀ v, x = some v → v.cas = (env.store s).cas) (t : StoreId) :
    (R t).Evolves Session.cas (R.put s env x t) := by
  by_cases ht : t = s
  · subst ht
    rw [Regs.put_self]
    exact .put (hfresh t) (env.store t).cas.ne_zero hx
  · rw [Regs.put_of_ne R env x ht]
    exact .same

theorem evolves_erase (R : Regs) (s t : StoreId) :
    (R t).Evolves Session.cas (R.erase s t) := by
  by_cases ht : t = s
  · subst ht
    rw [Regs.erase_self]
    exact .erase
  · rw [Regs.erase_of_ne R ht]
    exact .same

theorem Move.evolves {pc pc' : Pc} {R R' : Regs} {es : List Event}
    (h : Move P site env pc R pc' R' es) (hfresh : FreshCas R.issued env) (t : StoreId) :
    (R t).Evolves Session.cas (R' t) := by
  cases h with
  | updateLocal => exact evolves_put hfresh (fun _ => cas_written) t
  | updateRemote => exact evolves_put hfresh (fun _ => cas_written) t
  | deleteLocal => exact evolves_put hfresh (by rintro v ⟨⟩) t
  | deleteRemotes => exact evolves_erase R _ t
  | deleteUnknown => exact evolves_erase R _ t
  | writeSession => exact evolves_put hfresh (fun _ => cas_written) t
  | writeTimerId => exact evolves_put hfresh (fun _ => cas_written) t
  | _ => exact .same

/-- Every register's value has a version that was given out. -/
def SoundAll (R : Regs) : Prop := ∀ s, (R s).Sound Session.cas

/-! ## Where a thread is in its loops -/

/-- The stores a loop still has in front of it are the last ones of its list. -/
def Pc.InLoop (site : Site) : Pc → Prop
  | .tryRemotes _ rest => rest <:+ site.remoteStores
  | .readRemotes _ _ rest => rest <:+ site.remoteStores
  | .updateRemote _ _ s rest _ _ => s :: rest <:+ site.remoteStores
  | .deleteRemotes _ _ rest => rest <:+ site.remoteStores
  | .deleteUnknown _ rest => rest <:+ site.stores
  | .writeSession _ _ rest => rest <:+ site.stores
  | .readTimerId _ _ rest _ => rest <:+ site.stores
  | .writeTimerId _ _ s rest _ _ => s :: rest <:+ site.stores
  | _ => True

theorem Move.inLoop {pc pc' : Pc} {R R' : Regs} {es : List Event}
    (h : Move P site env pc R pc' R' es) (hpc : pc.InLoop site) : pc'.InLoop site := by
  cases h with
  | handleMissing => exact List.suffix_rfl
  | tryNext => exact (List.suffix_cons _ _).trans hpc
  | updateLocal => exact List.suffix_rfl
  | readRemotesMissing => exact hpc
  | readRemotesFound => exact hpc
  | updateRemote => exact (List.suffix_cons _ _).trans hpc
  | updateRemoteAgain => exact hpc
  | deleteLocal => exact List.suffix_rfl
  | deleteRemotes => exact (List.suffix_cons _ _).trans hpc
  | answerStart => exact List.suffix_rfl
  | answerUnknown => exact List.suffix_rfl
  | deleteUnknown => exact (List.suffix_cons _ _).trans hpc
  | createTimer => exact List.suffix_rfl
  | writeSession => exact (List.suffix_cons _ _).trans hpc
  | writeSessionFailed => exact (List.suffix_cons _ _).trans hpc
  | chronosUpdated => exact List.suffix_rfl
  | readTimerId => exact hpc
  | readTimerIdMissing => exact (List.suffix_cons _ _).trans hpc
  | writeTimerId => exact (List.suffix_cons _ _).trans hpc
  | writeTimerIdFailed => exact (List.suffix_cons _ _).trans hpc
  | _ => trivial

/-! ## The record type of a thread -/

/-- The thread works on a message of this record type, if it still works on one. -/
def Pc.HasType (type : AccountingRecordType) (pc : Pc) : Prop :=
  ∀ msg, pc.message = some msg → msg.recordType = type

/-- Only a START makes a timer and a new session. -/
def Pc.Starting : Pc → Prop
  | .createTimer _ _ _ => True
  | .writeSession _ _ _ => True
  | _ => False

theorem Move.hasType {pc pc' : Pc} {R R' : Regs} {es : List Event} {type : AccountingRecordType}
    (h : Move P site env pc R pc' R' es) (hpc : pc.HasType type) : pc'.HasType type := by
  intro msg' hmsg'
  cases h <;> first
    | (cases hmsg'; done)
    | (have htype := hpc _ rfl; cases hmsg'; exact htype)

theorem Move.not_starting {pc pc' : Pc} {R R' : Regs} {es : List Event}
    {type : AccountingRecordType} (h : Move P site env pc R pc' R' es) (hpc : pc.HasType type)
    (hne : type ≠ .start) (hns : ¬ pc.Starting) : ¬ pc'.Starting := by
  cases h with
  | answerTimer hs => exact absurd ((hpc _ rfl).symm.trans hs) hne
  | answerStart hs => exact absurd ((hpc _ rfl).symm.trans hs) hne
  | createTimer => exact absurd trivial hns
  | writeSession => exact absurd trivial hns
  | writeSessionFailed => exact absurd trivial hns
  | _ => exact id

/-! ## What a thread holds -/

/-- What a thread is about to write back under a version it has read: the copy it read, changed. -/
def Held (site : Site) (R : Regs) : Pc → Prop
  | .updateLocal _ sess false =>
    ∃ held, (R site.localStore).Tracks Session.cas held ∧ sess = held.incremented
  | .updateLocal _ sess true =>
    ∃ s ∈ site.remoteStores, ∃ held, (R s).Tracks Session.cas held ∧ sess = held.incremented
  | .updateRemote _ _ s _ remoteSess false =>
    ∃ held, (R s).Tracks Session.cas held ∧ remoteSess = held.incremented
  | .updateRemote _ sess _ _ remoteSess true => remoteSess = sess
  | .deleteLocal _ sess =>
    ∃ s ∈ site.stores, ∃ held, (R s).Tracks Session.cas held ∧ sess = held.incremented
  | .writeTimerId _ timerId s _ sess _ =>
    ∃ held, (R s).Tracks Session.cas held ∧ sess = { held with timerId := timerId }
  | _ => True

/-- Other threads do not spoil what a thread holds. -/
theorem Held.evolves {R R' : Regs} {pc : Pc} (h : Held site R pc)
    (hR : ∀ s, (R s).Evolves Session.cas (R' s)) : Held site R' pc := by
  cases pc with
  | updateLocal msg sess newSession =>
    cases newSession with
    | false =>
      obtain ⟨held, ht, hs⟩ := h
      exact ⟨held, ht.evolves (hR _), hs⟩
    | true =>
      obtain ⟨s, hmem, held, ht, hs⟩ := h
      exact ⟨s, hmem, held, ht.evolves (hR _), hs⟩
  | updateRemote msg sess s rest remoteSess newSession =>
    cases newSession with
    | false =>
      obtain ⟨held, ht, hs⟩ := h
      exact ⟨held, ht.evolves (hR _), hs⟩
    | true => exact h
  | deleteLocal msg sess =>
    obtain ⟨s, hmem, held, ht, hs⟩ := h
    exact ⟨s, hmem, held, ht.evolves (hR _), hs⟩
  | writeTimerId msg timerId s rest sess accepted =>
    obtain ⟨held, ht, hs⟩ := h
    exact ⟨held, ht.evolves (hR _), hs⟩
  | _ => trivial

/-- A thread that reads a session holds it afterwards. -/
theorem Move.held {pc pc' : Pc} {R R' : Regs} {es : List Event}
    (h : Move P site env pc R pc' R' es) (hsound : SoundAll R) (hpc : pc.InLoop site) :
    Held site R' pc' := by
  cases h with
  | handleInterim _ hc => exact ⟨_, .of_read (hsound _) hc, rfl⟩
  | handleStop _ hc =>
    exact ⟨site.localStore, List.mem_cons_self, _, .of_read (hsound _) hc, rfl⟩
  | tryInterim _ hc =>
    exact ⟨_, hpc.subset List.mem_cons_self, _, .of_read (hsound _) hc, rfl⟩
  | tryStop _ hc =>
    exact ⟨_, List.mem_cons_of_mem _ (hpc.subset List.mem_cons_self), _,
      .of_read (hsound _) hc, rfl⟩
  | readRemotesMissing => exact rfl
  | readRemotesFound hc => exact ⟨_, .of_read (hsound _) hc, rfl⟩
  | readTimerId hc => exact ⟨_, .of_read (hsound _) hc, rfl⟩
  | _ => trivial

end Moves

/-! ## Systems -/

section Systems

variable {P : Platform} {κ : Type} [DecidableEq κ] {site : κ → Site}

variable (P site) in
/-- A step of a system is a move of one of its threads. -/
theorem regSysStep_cases (a : κ × Env) (hup : a.2.Up) (σ : RegSys κ) :
    ∃ pc' R' es, Move P (site a.1) a.2 (σ.pc a.1) σ.shared pc' R' es ∧
      regSysStep P site a σ =
        ⟨Function.update σ.pc a.1 pc', R', σ.trace ++ es.map (a.1, ·)⟩ :=
  ⟨_, _, _, move_stepReg hup _ _, rfl⟩

variable (P) in
/-- A step of a thread on its own is a move. -/
theorem regThreadStep_cases (site : Site) (env : Env) (hup : env.Up) (t : RegThread) :
    ∃ pc' R' es, Move P site env t.pc t.shared pc' R' es ∧
      regThreadStep P site env t = ⟨pc', R', t.trace ++ es⟩ :=
  ⟨_, _, _, move_stepReg hup _ _, rfl⟩

/-- The registers are sound and every thread holds what its place in the program says. -/
structure Sane (site : κ → Site) (σ : RegSys κ) : Prop where
  sound : SoundAll σ.shared
  inLoop : ∀ i, (σ.pc i).InLoop (site i)
  held : ∀ i, Held (site i) σ.shared (σ.pc i)

theorem soundAll_regs {key : Bytes} {W : World} (hW : StoresReady P key W) :
    SoundAll (regs P key W) := by
  intro s v hv
  obtain ⟨r, hr, hcas⟩ := record_of_view (hW.readable s) hv
  rw [hcas]
  exact ⟨hW.issued s key r hr, r.cas.ne_zero⟩

omit [DecidableEq κ] in
theorem sane_start {key : Bytes} {msg : κ → Message} {W : World} (hW : StoresReady P key W) :
    Sane site ((Sys.start msg W).map (regs P key)) where
  sound := soundAll_regs hW
  inLoop := fun _ => trivial
  held := fun _ => trivial

theorem Sane.step {σ : RegSys κ} (h : Sane site σ) {a : κ × Env}
    (hok : StoresOk σ.shared.issued a.2) : Sane site (regSysStep P site a σ) := by
  obtain ⟨pc', R', es, hm, heq⟩ := regSysStep_cases P site a hok.1 σ
  rw [heq]
  have hR : ∀ s, (σ.shared s).Evolves Session.cas (R' s) := hm.evolves hok.2
  refine ⟨fun s => (h.sound s).evolves (hR s), ?_, ?_⟩
  · exact (Function.forall_update_iff σ.pc fun i pc => pc.InLoop (site i)).mpr
      ⟨hm.inLoop (h.inLoop a.1), fun i _ => h.inLoop i⟩
  · exact (Function.forall_update_iff σ.pc fun i pc => Held (site i) R' pc).mpr
      ⟨hm.held h.sound (h.inLoop a.1), fun i _ => (h.held i).evolves hR⟩

end Systems

end Ralf
