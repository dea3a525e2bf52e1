import Ralf.Handlers
import Ralf.System

/-!
# Isolation of sessions

The stores are shared by all calls, and what keeps the sessions apart is their key: the call id,
the role and the function, written one after the other. A thread only ever touches the records
under its own key (`record_step`), so two messages whose keys differ do not see each other. Nothing
separates the three parts, though, and `isolated_iff` says exactly which triples collide.
-/

namespace Ralf

open Bytes Runs

/-! ## Frames -/

section Frames

variable {P : Platform} {key other : Bytes} {st : Store} {env : StoreEnv}

theorem record_put (h : other ≠ key) (data : Bytes) (expiry : Int32) :
    (st.put env key data expiry).record other = st.record other := by
  simp [Store.put, h]

theorem record_setData (h : other ≠ key) (data : Bytes) (cas : ℕ) (expiry : Int32) :
    (st.setData env key data cas expiry).2.record other = st.record other := by
  rcases st.setData_cases env key data cas expiry with heq | heq
  · rw [heq]
  · rw [heq]
    exact record_put h data expiry

theorem record_deleteData (h : other ≠ key) :
    (st.deleteData env key).2.record other = st.record other := by
  unfold Store.deleteData
  split_ifs
  · rfl
  · simp [h]

/-- A call about one key leaves the records under every other key alone. -/
theorem record_perform (h : other ≠ key) (e : Env) (W : World) {a : Action} (ha : a.HasKey key)
    (s : StoreId) : ((perform P e W a).2.1 s).record other = (W s).record other := by
  cases a with
  | get t key' k =>
    simp only [perform]
    split <;> rfl
  | set t key' sess newSession k =>
    obtain ⟨rfl, -⟩ := ha
    by_cases hs : s = t
    · subst hs
      simp only [perform, Function.update_self, setSessionData, record_setData h]
    · simp only [perform, Function.update_of_ne hs]
  | casDelete t key' sess k =>
    obtain ⟨rfl, -⟩ := ha
    by_cases hs : s = t
    · subst hs
      simp only [perform, Function.update_self, deleteSessionDataCas, record_setData h]
    · simp only [perform, Function.update_of_ne hs]
  | delete t key' k =>
    obtain ⟨rfl, -⟩ := ha
    by_cases hs : s = t
    · subst hs
      simp only [perform, Function.update_self, deleteSessionData, record_deleteData h]
    · simp only [perform, Function.update_of_ne hs]
  | timer => rfl
  | send => rfl
  | answer => rfl
  | healthCheckPassed => rfl
  | goto => rfl

theorem record_step (h : other ≠ key) (site : Site) (e : Env) {pc : Pc} (hpc : pc.HasKey key)
    (W : World) (s : StoreId) :
    ((step P site e pc W).2.1 s).record other = (W s).record other :=
  record_perform h e W (hasKey_next P site hpc) s

/-- **Frame.** Whatever a message does, from the start of `handle` on and with any answer, it leaves
the records under other keys alone. -/
theorem record_exec (h : other ≠ key) (site : Site) (envs : List Env) {t : Thread}
    (ht : t.pc.HasKey key) (s : StoreId) :
    ((exec (threadStep P site) envs t).shared s).record other = (t.shared s).record other := by
  induction envs generalizing t with
  | nil => rfl
  | cons e envs ih =>
    show ((exec (threadStep P site) envs (threadStep P site e t)).shared s).record other = _
    rw [ih (hasKey_step site e ht)]
    exact record_step h site e ht t.shared s

end Frames

/-! ## Keys -/

section Keys

/-- What tells sessions apart. -/
structure Triple where
  callId : Bytes
  role : RoleOfNode
  function : NodeFunctionality
  deriving DecidableEq

def Triple.key (x : Triple) : Bytes := createKey x.callId x.role x.function

/-- The decimal texts of role and function, one after the other. -/
def Triple.suffix (x : Triple) : Bytes := decimal x.role.toInt ++ decimal x.function.toInt

def Message.triple (msg : Message) : Triple := ⟨msg.callId, msg.role, msg.function⟩

/-- `y`'s call id is `x`'s with `d` after it, and `x`'s role and function are written as `d` followed
by `y`'s. -/
def Continues (x y : Triple) : Prop := ∃ d, y.callId = x.callId ++ d ∧ x.suffix = d ++ y.suffix

theorem key_eq_iff (x y : Triple) : x.key = y.key ↔ Continues x y ∨ Continues y x := by
  unfold Triple.key createKey Continues
  rw [List.append_assoc, List.append_assoc, List.append_eq_append_iff]
  simp only [Triple.suffix]

variable {P : Platform}

/-- The keys differ, and what is stored under one is not touched by any message, with any answers,
of the other. -/
structure Isolated (P : Platform) (x y : Triple) : Prop where
  key_ne : x.key ≠ y.key
  frame : ∀ (msg : Message) (site : Site) (W : World) (envs : List Env) (s : StoreId)
    (e : StoreEnv), msg.triple = x →
    getSessionData P ((exec (threadStep P site) envs (Thread.start msg W)).shared s) e y.key =
      getSessionData P (W s) e y.key

/-- **Isolation.** Two triples are isolated from each other if and only if neither call id is the
other one continued by the first part of the other's role and function. -/
theorem isolated_iff (x y : Triple) :
    (Isolated P x y ∧ Isolated P y x) ↔ ¬ Continues x y ∧ ¬ Continues y x := by
  have hframe : ∀ {x y : Triple}, x.key ≠ y.key → Isolated P x y := by
    intro x y hne
    refine ⟨hne, ?_⟩
    rintro msg site W envs s e rfl
    have ht : (Thread.start msg W).pc.HasKey msg.key := Pc.hasKey_of_message rfl rfl
    exact getSessionData_of_ne (record_exec (Ne.symm hne) site envs ht s)
  rw [← not_or, ← key_eq_iff]
  constructor
  · rintro ⟨h, -⟩
    exact h.key_ne
  · intro h
    exact ⟨hframe h, hframe (Ne.symm h)⟩

end Keys

/-! ### Two calls with one key -/

/-- An INTERIM body with this role and function. -/
def interimBody (role function : Int32) : Bytes :=
  createOpaqueData compactPlatform (.new [] role function .null .interim 0 false)

/-- The bodies are accepted for the call ids `a` and `a1`, and the messages share a key. -/
theorem key_collision :
    ∃ m₁ m₂ : Message,
      parseBody compactPlatform (ascii "a") false (interimBody 1 10) = .ok (some m₁) ∧
      parseBody compactPlatform (ascii "a1") false (interimBody 1 0) = .ok (some m₂) ∧
      m₁.triple ≠ m₂.triple ∧ m₁.key = m₂.key := by
  refine ⟨_, _, parseBody_createOpaqueData _ _ _, parseBody_createOpaqueData _ _ _, ?_, ?_⟩
  · decide
  · decide

end Ralf
