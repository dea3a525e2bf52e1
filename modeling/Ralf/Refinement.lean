import Ralf.Registers

/-!
# The stores refine the registers

`view` is what a store shows under a key, `Readable` says that a record there can be read at all.
Each operation of the session store is the register operation on the view (`regSet_regOf` and its
companions), hence so is each step of a thread (`regs_step`).
-/

namespace Ralf

open Bytes Versioned

section Store

variable (P : Platform)

/-- The session a store shows under a key. -/
def view (st : Store) (key : Bytes) : Option Session :=
  match getSessionData P st .up key with
  | .ok sess => sess
  | .error _ => none

/-- A record under the key, if there is one, is a session. -/
def Readable (st : Store) (key : Bytes) : Prop :=
  ∀ r, st.record key = some r → ∃ sess, deserializeSession P r.data = .ok (some sess) ∧ r.data ≠ []

/-- The register of a store under a key. -/
def regOf (key : Bytes) (st : Store) : Reg := ⟨view P st key, st.issued⟩

/-- The registers of all stores. -/
def regs (key : Bytes) (W : World) : Regs := fun s => regOf P key (W s)

variable {P} {st : Store} {key : Bytes} {env : StoreEnv}

/-! ## Reading -/

theorem getSessionData_of_none (h : st.record key = none) : getSessionData P st env key = .ok none := by
  unfold getSessionData Store.getData
  rw [h]
  cases env.down <;> rfl

theorem getSessionData_of_some {r : Record} {sess : Session} (h : st.record key = some r)
    (hdata : r.data ≠ []) (hsess : deserializeSession P r.data = .ok (some sess))
    (hup : env.down = false) :
    getSessionData P st env key = .ok (some { sess with cas := r.cas }) := by
  unfold getSessionData Store.getData
  rw [h, hup]
  simp only [Bool.false_eq_true, if_false, if_neg hdata, hsess]
  rfl

theorem view_of_none (h : st.record key = none) : view P st key = none := by
  unfold view
  rw [getSessionData_of_none h]

theorem regOf_of_none (h : st.record key = none) : regOf P key st = ⟨none, st.issued⟩ := by
  unfold regOf
  rw [view_of_none h]

theorem view_of_some {r : Record} {sess : Session} (h : st.record key = some r)
    (hdata : r.data ≠ []) (hsess : deserializeSession P r.data = .ok (some sess)) :
    view P st key = some { sess with cas := r.cas } := by
  unfold view
  rw [getSessionData_of_some h hdata hsess rfl]

theorem getSessionData_of_readable (hr : Readable P st key) :
    getSessionData P st env key = .ok (regGet (regOf P key st) env) := by
  unfold regGet regOf
  cases hdown : env.down with
  | true =>
    unfold getSessionData Store.getData
    rw [hdown]
    rfl
  | false =>
    cases hrec : st.record key with
    | none => rw [getSessionData_of_none hrec, view_of_none hrec]; rfl
    | some r =>
      obtain ⟨sess, hsess, hdata⟩ := hr r hrec
      rw [getSessionData_of_some hrec hdata hsess hdown, view_of_some hrec hdata hsess]
      rfl

/-- The version of the register is the CAS value a write has to name. -/
theorem version_regOf (hr : Readable P st key) :
    (regOf P key st).version Session.cas = match st.record key with
      | some r => (r.cas : ℕ)
      | none => 0 := by
  unfold Register.version regOf
  cases hrec : st.record key with
  | none => rw [view_of_none hrec]; rfl
  | some r =>
    obtain ⟨sess, hsess, hdata⟩ := hr r hrec
    rw [view_of_some hrec hdata hsess]
    rfl

theorem record_of_view {sess : Session} (hr : Readable P st key) (h : view P st key = some sess) :
    ∃ r, st.record key = some r ∧ sess.cas = r.cas := by
  cases hrec : st.record key with
  | none =>
    rw [view_of_none hrec] at h
    cases h
  | some r =>
    obtain ⟨s, hs, hdata⟩ := hr r hrec
    rw [view_of_some hrec hdata hs] at h
    cases h
    exact ⟨r, rfl, rfl⟩

theorem record_of_view_none (hr : Readable P st key) (h : view P st key = none) :
    st.record key = none := by
  cases hrec : st.record key with
  | none => rfl
  | some r =>
    obtain ⟨s, hs, hdata⟩ := hr r hrec
    rw [view_of_some hrec hdata hs] at h
    cases h

/-! ## Writing -/

theorem getSessionData_of_ne {st st' : Store} (h : st'.record key = st.record key) :
    getSessionData P st' env key = getSessionData P st env key := by
  unfold getSessionData Store.getData
  rw [h]

theorem view_put (sess : Session) :
    view P (st.put env key (serializeSession P sess) sess.expiry) key = sess.written env.cas := by
  unfold Session.written
  by_cases h : 0 < sess.expiry
  · have hrec : (st.put env key (serializeSession P sess) sess.expiry).record key =
        some ⟨serializeSession P sess, env.cas⟩ := by
      simp [Store.put, h]
    rw [if_pos h, view_of_some hrec (serializeSession_ne_nil P sess)
      (deserializeSession_serializeSession P sess)]
  · have hrec : (st.put env key (serializeSession P sess) sess.expiry).record key = none := by
      simp [Store.put, h]
    rw [if_neg h, view_of_none hrec]

theorem readable_put (sess : Session) :
    Readable P (st.put env key (serializeSession P sess) sess.expiry) key := by
  intro r hr
  by_cases h : 0 < sess.expiry
  · simp only [Store.put, Function.update_self, if_pos h, Option.some.injEq] at hr
    subst hr
    exact ⟨_, deserializeSession_serializeSession P sess, serializeSession_ne_nil P sess⟩
  · simp [Store.put, h] at hr

theorem readable_of_none (h : st.record key = none) : Readable P st key := by
  intro r hr
  rw [h] at hr
  cases hr

/-- The compare-and-set of a store, in terms of its register. -/
theorem setData_of_readable (hr : Readable P st key) (data : Bytes) (cas : ℕ) (expiry : Int32) :
    st.setData env key data cas expiry =
      if env.down then (.error, st)
      else if (regOf P key st).version Session.cas = cas then (.ok, st.put env key data expiry)
      else (.dataContention, st) := by
  unfold Store.setData
  rw [version_regOf hr]
  cases st.record key with
  | none => simp only [eq_comm (a := cas)]
  | some r => simp only [eq_comm (a := cas)]

theorem regSet_regOf (hr : Readable P st key) (sess : Session) (newSession : Bool) :
    regSet (regOf P key st) env (if newSession then 0 else sess.cas) (sess.written env.cas) =
      ((setSessionData P st env key sess newSession).1,
        regOf P key (setSessionData P st env key sess newSession).2) := by
  unfold setSessionData regSet
  generalize (if newSession = true then 0 else sess.cas) = cas
  dsimp only
  rw [setData_of_readable hr]
  split_ifs
  · rfl
  · show _ = (Status.ok, regOf P key (st.put env key (serializeSession P sess) sess.expiry))
    rw [regOf, regOf, view_put]
    rfl
  · rfl

theorem regSet_regOf_delete (hr : Readable P st key) (sess : Session) :
    regSet (regOf P key st) env sess.cas none =
      ((deleteSessionDataCas st env key sess).1,
        regOf P key (deleteSessionDataCas st env key sess).2) := by
  unfold deleteSessionDataCas regSet
  rw [setData_of_readable hr]
  split_ifs
  · rfl
  · show _ = (Status.ok, regOf P key (st.put env key [] 0))
    have hrec : (st.put env key [] 0).record key = none := by simp [Store.put]
    rw [regOf_of_none hrec]
    rfl
  · rfl

theorem regDelete_regOf :
    regDelete (regOf P key st) env =
      ((deleteSessionData st env key).1, regOf P key (deleteSessionData st env key).2) := by
  unfold deleteSessionData Store.deleteData regDelete
  split_ifs
  · rfl
  · show _ = (Status.ok, regOf P key { st with record := Function.update st.record key none })
    have hrec : ({ st with record := Function.update st.record key none } : Store).record key =
        none := by simp
    rw [regOf_of_none hrec]
    rfl

theorem readable_setSessionData (hr : Readable P st key) (sess : Session) (newSession : Bool) :
    Readable P (setSessionData P st env key sess newSession).2 key := by
  unfold setSessionData
  generalize (if newSession = true then 0 else sess.cas) = cas
  dsimp only
  rw [setData_of_readable hr]
  split_ifs
  · exact hr
  · exact readable_put sess
  · exact hr

theorem readable_deleteSessionDataCas (hr : Readable P st key) (sess : Session) :
    Readable P (deleteSessionDataCas st env key sess).2 key := by
  unfold deleteSessionDataCas
  rw [setData_of_readable hr]
  split_ifs
  · exact hr
  · exact readable_of_none (by simp [Store.put])
  · exact hr

theorem readable_deleteSessionData (hr : Readable P st key) :
    Readable P (deleteSessionData st env key).2 key := by
  unfold deleteSessionData Store.deleteData
  split_ifs
  · exact hr
  · exact readable_of_none (by simp)

end Store

/-! ## Threads -/

section Threads

variable {P : Platform} {key : Bytes}

/-- Every store can be read under the key. -/
def ReadableAll (P : Platform) (key : Bytes) (W : World) : Prop := ∀ s, Readable P (W s) key

theorem regs_update (W : World) (s : StoreId) (st : Store) :
    regs P key (Function.update W s st) = Function.update (regs P key W) s (regOf P key st) := by
  funext t
  by_cases h : t = s
  · subst h; simp [regs]
  · simp [regs, h]

theorem ReadableAll.update {W : World} (h : ReadableAll P key W) {s : StoreId} {st : Store}
    (hst : Readable P st key) : ReadableAll P key (Function.update W s st) := by
  intro t
  by_cases ht : t = s
  · subst ht; simpa using hst
  · simpa [ht] using h t

theorem regs_perform {W : World} (hW : ReadableAll P key W) (env : Env) {a : Action}
    (ha : a.HasKey key) :
    performReg env (regs P key W) a =
      ((perform P env W a).1, regs P key (perform P env W a).2.1, (perform P env W a).2.2) := by
  cases a with
  | get s key' k =>
    obtain ⟨rfl, -⟩ := ha
    simp only [performReg, perform, getSessionData_of_readable (hW s)]
    rfl
  | set s key' sess newSession k =>
    obtain ⟨rfl, -⟩ := ha
    simp only [performReg, perform, regs_update, regs, regSet_regOf (hW s)]
  | casDelete s key' sess k =>
    obtain ⟨rfl, -⟩ := ha
    simp only [performReg, perform, regs_update, regs, regSet_regOf_delete (hW s)]
  | delete s key' k =>
    obtain ⟨rfl, -⟩ := ha
    simp only [performReg, perform, regs_update, regs, regDelete_regOf]
  | timer req k => rfl
  | send msg pc => rfl
  | answer k => rfl
  | healthCheckPassed pc => rfl
  | goto pc => rfl

theorem readable_perform {W : World} (hW : ReadableAll P key W) (env : Env) {a : Action}
    (ha : a.HasKey key) : ReadableAll P key (perform P env W a).2.1 := by
  cases a with
  | get s key' k =>
    simp only [perform]
    split <;> exact hW
  | set s key' sess newSession k =>
    obtain ⟨rfl, -⟩ := ha
    exact hW.update (readable_setSessionData (hW s) sess newSession)
  | casDelete s key' sess k =>
    obtain ⟨rfl, -⟩ := ha
    exact hW.update (readable_deleteSessionDataCas (hW s) sess)
  | delete s key' k =>
    obtain ⟨rfl, -⟩ := ha
    exact hW.update (readable_deleteSessionData (hW s))
  | timer req k => exact hW
  | send msg pc => exact hW
  | answer k => exact hW
  | healthCheckPassed pc => exact hW
  | goto pc => exact hW

theorem every_perform {φ : Message → Prop} {W : World} (env : Env) {a : Action}
    (ha : a.Every φ) : (perform P env W a).1.Every φ := by
  cases a with
  | get s key' k =>
    simp only [perform]
    split
    · exact ha _
    · exact Pc.every_of_none rfl
  | set s key' sess newSession k => exact ha _
  | casDelete s key' sess k => exact ha _
  | delete s key' k => exact ha _
  | timer req k => exact ha _
  | send msg pc => exact ha
  | answer k => exact ha _
  | healthCheckPassed pc => exact ha
  | goto pc => exact ha

/-- What only depends on the identity of a message stays true of it, step by step. -/
theorem every_step {φ : Message → Prop} {W : World} (site : Site) (env : Env) {pc : Pc}
    (hφ : ∀ m m' : Message, m'.identity = m.identity → φ m → φ m') (hpc : pc.Every φ) :
    (step P site env pc W).1.Every φ :=
  every_perform env (every_next P site hφ hpc)

theorem hasKey_perform {W : World} (env : Env) {a : Action} (ha : a.HasKey key) :
    (perform P env W a).1.HasKey key :=
  every_perform env (Action.hasKey_iff.mp ha).2

/-- What is seen of a call. -/
theorem event_perform {W : World} {env : Env} {a : Action} {e : Event}
    (h : e ∈ (perform P env W a).2.2) :
    (∃ req k, a = .timer req k ∧ e = .timer req) ∨
      (∃ msg pc, a = .send msg pc ∧ e = .send msg (acrSessionId env msg)) ∨
      e = .healthCheckPassed := by
  cases a with
  | get s key' k =>
    simp only [perform] at h
    split at h <;> cases h
  | timer req k => exact .inl ⟨req, k, rfl, List.mem_singleton.mp h⟩
  | send msg pc => exact .inr (.inl ⟨msg, pc, rfl, List.mem_singleton.mp h⟩)
  | healthCheckPassed pc => exact .inr (.inr (List.mem_singleton.mp h))
  | _ => cases h

/-- **Refinement.** A step over stores is the step over registers. -/
theorem regs_step {W : World} (hW : ReadableAll P key W) (site : Site) (env : Env) {pc : Pc}
    (hpc : pc.HasKey key) :
    stepReg P site env pc (regs P key W) =
      ((step P site env pc W).1, regs P key (step P site env pc W).2.1,
        (step P site env pc W).2.2) :=
  regs_perform hW env (hasKey_next P site hpc)

theorem readable_step {W : World} (hW : ReadableAll P key W) (site : Site) (env : Env) {pc : Pc}
    (hpc : pc.HasKey key) : ReadableAll P key (step P site env pc W).2.1 :=
  readable_perform hW env (hasKey_next P site hpc)

theorem hasKey_step {W : World} (site : Site) (env : Env) {pc : Pc} (hpc : pc.HasKey key) :
    (step P site env pc W).1.HasKey key :=
  hasKey_perform env (hasKey_next P site hpc)

end Threads

end Ralf
