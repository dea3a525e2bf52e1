import Ralf.Refinement

/-!
# Where sessions come from

A session enters the program when a START is accepted, and from then on it is only copied: from a
store to a thread, to the other stores, with another number or another timer id. So a property `ψ`
of sessions that these copies inherit, and that the session of a START has because of a property `χ`
of its message (`Inherited`), holds of every session in the stores and in the hands of a thread
(`Stocked`), at every step, whatever the environment does (`stocked_step`).
-/

namespace Ralf

open Bytes

/-! ## Reading after writing -/

section Stores

variable {P : Platform} {st : Store} {env e : StoreEnv} {key key' : Bytes} {sess v : Session}

variable (st env key key') in
theorem record_setData_cases (data : Bytes) (cas : ℕ) (expiry : Int32) :
    (st.setData env key data cas expiry).2.record key' = st.record key' ∨
      key' = key ∧ (st.setData env key data cas expiry).2.record key' =
        if 0 < expiry then some ⟨data, env.cas⟩ else none := by
  rcases st.setData_cases env key data cas expiry with heq | heq
  · rw [heq]
    exact .inl rfl
  · rw [heq]
    by_cases h : key' = key
    · exact .inr ⟨h, by simp [Store.put, h]⟩
    · exact .inl (by simp [Store.put, h])

variable (st env key key') in
theorem record_deleteData_cases :
    (st.deleteData env key).2.record key' = st.record key' ∨
      (st.deleteData env key).2.record key' = none := by
  unfold Store.deleteData
  split_ifs
  · exact .inl rfl
  · by_cases h : key' = key
    · exact .inr (by simp [h])
    · exact .inl (by simp [h])

/-- What is read after a write was there before, or is what was written. -/
theorem getSessionData_setSessionData {newSession : Bool}
    (h : getSessionData P (setSessionData P st env key sess newSession).2 e key' = .ok (some v)) :
    getSessionData P st e key' = .ok (some v) ∨
      key' = key ∧ v = { sess.stored with cas := env.cas } := by
  unfold setSessionData at h
  rcases record_setData_cases st env key key'
    (serializeSession P sess) (if newSession = true then 0 else sess.cas) sess.expiry with
    hsame | ⟨hkey, hrec⟩
  · rw [getSessionData_of_ne hsame] at h
    exact .inl h
  · by_cases hlive : 0 < sess.expiry
    · rw [if_pos hlive] at hrec
      cases hdown : e.down with
      | true =>
        unfold getSessionData Store.getData at h
        rw [hdown] at h
        cases h
      | false =>
        rw [getSessionData_of_some hrec (serializeSession_ne_nil P sess)
          (deserializeSession_serializeSession P sess) hdown] at h
        cases h
        exact .inr ⟨hkey, rfl⟩
    · rw [if_neg hlive] at hrec
      rw [getSessionData_of_none hrec] at h
      cases h

theorem getSessionData_deleteSessionDataCas
    (h : getSessionData P (deleteSessionDataCas st env key sess).2 e key' = .ok (some v)) :
    getSessionData P st e key' = .ok (some v) := by
  unfold deleteSessionDataCas at h
  rcases record_setData_cases st env key key' [] sess.cas 0 with
    hsame | ⟨-, hrec⟩
  · rwa [getSessionData_of_ne hsame] at h
  · rw [if_neg (by decide)] at hrec
    rw [getSessionData_of_none hrec] at h
    cases h

theorem getSessionData_deleteSessionData
    (h : getSessionData P (deleteSessionData st env key).2 e key' = .ok (some v)) :
    getSessionData P st e key' = .ok (some v) := by
  unfold deleteSessionData at h
  rcases record_deleteData_cases st env key key' with
    hsame | hnone
  · rwa [getSessionData_of_ne hsame] at h
  · rw [getSessionData_of_none hnone] at h
    cases h

end Stores

/-! ## Inherited properties -/

variable (ψ : Bytes → Session → Prop) (χ : Message → Prop)

/-- The message relates to an existing session. -/
def Message.Later (msg : Message) : Prop := msg.recordType = .interim ∨ msg.recordType = .stop

/-- Every way the program makes one session or message from another keeps the property. `ψ` may
depend on the key the session is stored under. -/
structure Inherited : Prop where
  stored : ∀ key sess cas, ψ key sess → ψ key { sess.stored with cas := cas }
  number : ∀ key sess n, ψ key sess → ψ key { sess with acctRecordNumber := n }
  timerId : ∀ key sess timerId, ψ key sess → ψ key { sess with timerId := timerId }
  fillIn : ∀ msg sess, msg.Later → ψ msg.key sess → χ (fillIn msg sess)
  first : ∀ msg, χ msg → χ { msg with accountingRecordNumber := 1 }
  start : ∀ msg interimInterval sessionId timerId, msg.recordType = .start → χ msg →
    ψ msg.key (startSession msg interimInterval sessionId timerId)

/-- Every session that can be read has the property. -/
def Stocked (P : Platform) (W : World) : Prop :=
  ∀ s e key sess, getSessionData P (W s) e key = .ok (some sess) → ψ key sess

/-- The sessions in the hands of a thread have the property, and so has a message from which a
session will be made. -/
def Pc.Stocked : Pc → Prop
  | .handle msg => msg.Later ∨ χ msg
  | .tryRemotes msg _ => msg.Later
  | .updateLocal msg sess _ => msg.Later ∧ ψ msg.key sess
  | .readRemotes msg sess _ => msg.Later ∧ ψ msg.key sess
  | .updateRemote msg sess _ _ remoteSess _ =>
    msg.Later ∧ ψ msg.key sess ∧ ψ msg.key remoteSess
  | .deleteLocal msg sess => msg.Later ∧ ψ msg.key sess
  | .deleteRemotes msg sess _ => msg.Later ∧ ψ msg.key sess
  | .send msg => χ msg
  | .awaitAnswer msg => χ msg
  | .createTimer msg _ _ => msg.recordType = .start ∧ χ msg
  | .writeSession msg sess _ => ψ msg.key sess
  | .writeTimerId msg _ _ _ sess _ => ψ msg.key sess
  | _ => True

/-- What the call writes has the property, and so has what follows it, if what it reads has. -/
def Action.Stocked : Action → Prop
  | .get _ key k => (k none).Stocked ψ χ ∧ ∀ sess, ψ key sess → (k (some sess)).Stocked ψ χ
  | .set _ key sess _ k => ψ key sess ∧ ∀ rc, (k rc).Stocked ψ χ
  | .casDelete _ _ _ k => ∀ rc, (k rc).Stocked ψ χ
  | .delete _ _ k => ∀ rc, (k rc).Stocked ψ χ
  | .timer _ k => ∀ id, (k id).Stocked ψ χ
  | .send _ pc => pc.Stocked ψ χ
  | .answer k => ∀ a, (k a).Stocked ψ χ
  | .healthCheckPassed pc => pc.Stocked ψ χ
  | .goto pc => pc.Stocked ψ χ

variable {ψ χ}

section Steps

variable {P : Platform} {msg : Message} {pc : Pc} {W : World}

theorem Message.later_iff : msg.Later ↔ (msg.recordType.isInterim || msg.recordType.isStop) = true := by
  rw [Bool.or_eq_true, AccountingRecordType.isInterim_iff, AccountingRecordType.isStop_iff]
  rfl

theorem stocked_found (h : Inherited ψ χ) (hmsg : msg.Later) {sess : Session}
    (hsess : ψ msg.key sess) (newSession : Bool) :
    (found msg sess newSession).Stocked ψ χ := by
  unfold found
  dsimp only
  split_ifs
  · exact ⟨hmsg, h.number _ _ _ hsess⟩
  · exact ⟨hmsg, h.number _ _ _ hsess⟩

theorem stocked_onCcfResponse (h : Inherited ψ χ) (hmsg : χ msg) (site : Site) (accepted : Bool)
    (interimInterval : UInt32) (sessionId : Bytes) (rc : Int32) :
    (onCcfResponse site accepted interimInterval sessionId rc msg).Stocked ψ χ := by
  unfold onCcfResponse
  dsimp only
  split_ifs with h1 h2 h3
  · trivial
  · exact ⟨AccountingRecordType.isStart_iff.mp h3, hmsg⟩
  · exact h.start msg _ sessionId NO_TIMER (AccountingRecordType.isStart_iff.mp h3) hmsg
  all_goals trivial

theorem stocked_next (h : Inherited ψ χ) (P : Platform) (site : Site) (hpc : pc.Stocked ψ χ) :
    (next P site pc).Stocked ψ χ := by
  cases pc with
  | handle msg =>
    simp only [next]
    split_ifs with hlater
    · have hmsg : msg.Later := Message.later_iff.mpr hlater
      exact ⟨hmsg, fun sess hsess => stocked_found h hmsg hsess false⟩
    · exact h.first msg (hpc.resolve_left fun hmsg => hlater (Message.later_iff.mp hmsg))
  | tryRemotes msg rest =>
    cases rest with
    | nil => trivial
    | cons s rest => exact ⟨hpc, fun sess hsess => stocked_found h hpc hsess true⟩
  | updateLocal msg sess newSession =>
    refine ⟨hpc.2, fun rc => ?_⟩
    dsimp only
    split_ifs
    · exact .inl hpc.1
    · exact hpc
  | readRemotes msg sess rest =>
    cases rest with
    | nil => exact h.fillIn msg sess hpc.1 hpc.2
    | cons s rest => exact ⟨⟨hpc.1, hpc.2, hpc.2⟩, fun v hv => ⟨hpc.1, hpc.2, h.number _ _ _ hv⟩⟩
  | updateRemote msg sess s rest remoteSess newSession =>
    refine ⟨hpc.2.2, fun rc => ?_⟩
    dsimp only
    split_ifs <;> exact ⟨hpc.1, hpc.2.1⟩
  | deleteLocal msg sess =>
    intro rc
    dsimp only
    split_ifs
    · exact .inl hpc.1
    · exact hpc
  | deleteRemotes msg sess rest =>
    cases rest with
    | nil =>
      simp only [next]
      split_ifs
      · exact fun _ => h.fillIn msg sess hpc.1 hpc.2
      · exact h.fillIn msg sess hpc.1 hpc.2
    | cons s rest =>
      intro rc
      dsimp only
      split_ifs <;> exact hpc
  | send msg => exact hpc
  | awaitAnswer msg => exact fun a => stocked_onCcfResponse h hpc site _ _ _ _
  | deleteUnknown msg rest =>
    cases rest with
    | nil => trivial
    | cons s rest => exact fun _ => trivial
  | createTimer msg interimInterval sessionId =>
    exact fun id => h.start msg interimInterval sessionId _ hpc.1 hpc.2
  | writeSession msg sess rest =>
    cases rest with
    | nil => trivial
    | cons s rest => exact ⟨hpc, fun _ => hpc⟩
  | sendChronosUpdate msg interimInterval accepted =>
    intro id
    dsimp only
    split_ifs <;> trivial
  | readTimerId msg timerId rest accepted =>
    cases rest with
    | nil => trivial
    | cons s rest => exact ⟨trivial, fun v hv => h.timerId _ _ _ hv⟩
  | writeTimerId msg timerId s rest sess accepted => exact ⟨hpc, fun _ => trivial⟩
  | finish accepted =>
    simp only [next]
    split_ifs <;> trivial
  | done => trivial
  | aborted => trivial

theorem Stocked.update (hW : Stocked ψ P W) {s : StoreId} {st : Store}
    (hst : ∀ e key sess, getSessionData P st e key = .ok (some sess) → ψ key sess) :
    Stocked ψ P (Function.update W s st) := by
  intro t e key sess hget
  by_cases ht : t = s
  · subst ht
    rw [Function.update_self] at hget
    exact hst e key sess hget
  · rw [Function.update_of_ne ht] at hget
    exact hW t e key sess hget

theorem stocked_perform (h : Inherited ψ χ) (hW : Stocked ψ P W) (env : Env) {a : Action}
    (ha : a.Stocked ψ χ) :
    Stocked ψ P (perform P env W a).2.1 ∧ (perform P env W a).1.Stocked ψ χ := by
  cases a with
  | get s key k =>
    simp only [perform]
    split
    · rename_i sess hget
      cases sess with
      | none => exact ⟨hW, ha.1⟩
      | some sess => exact ⟨hW, ha.2 sess (hW s _ key sess hget)⟩
    · exact ⟨hW, trivial⟩
  | set s key sess newSession k =>
    refine ⟨hW.update fun e key' v hget => ?_, ha.2 _⟩
    rcases getSessionData_setSessionData hget with hold | ⟨rfl, rfl⟩
    · exact hW s e key' v hold
    · exact h.stored _ sess _ ha.1
  | casDelete s key sess k =>
    exact ⟨hW.update fun e key' v hget =>
      hW s e key' v (getSessionData_deleteSessionDataCas hget), ha _⟩
  | delete s key k =>
    exact ⟨hW.update fun e key' v hget =>
      hW s e key' v (getSessionData_deleteSessionData hget), ha _⟩
  | timer req k => exact ⟨hW, ha _⟩
  | send msg pc => exact ⟨hW, ha⟩
  | answer k => exact ⟨hW, ha _⟩
  | healthCheckPassed pc => exact ⟨hW, ha⟩
  | goto pc => exact ⟨hW, ha⟩

/-- **Inheritance.** One step of a thread. -/
theorem stocked_step (h : Inherited ψ χ) (hW : Stocked ψ P W) (site : Site) (env : Env)
    (hpc : pc.Stocked ψ χ) :
    Stocked ψ P (step P site env pc W).2.1 ∧ (step P site env pc W).1.Stocked ψ χ :=
  stocked_perform h hW env (stocked_next h P site hpc)

end Steps

end Ralf
