import Mathlib.Data.Finset.Basic
import Ralf.Refinement

/-!
# Systems of threads

Any number of threads, each of some site, over shared stores: `Sys` and its machine `sysStep`,
whose inputs say which thread moves and what its environment contributes. A single message
processed on its own is a `Thread` with the machine `threadStep`. Both have a counterpart over
registers, and running commutes with the passage to it (`regs_sysExec`, `regs_threadExec`).
-/

namespace Ralf

open Bytes Versioned Runs

/-- Threads over stores. -/
abbrev Sys (κ : Type) := Pool κ Pc World Event

/-- Threads over registers. -/
abbrev RegSys (κ : Type) := Pool κ Pc Regs Event

/-- One thread over stores. -/
abbrev Thread := Solo Pc World Event

/-- One thread over registers. -/
abbrev RegThread := Solo Pc Regs Event

section Machines

variable (P : Platform) {κ : Type} [DecidableEq κ]

def sysStep (site : κ → Site) : κ × Env → Sys κ → Sys κ :=
  Pool.step fun i env pc W => step P (site i) env pc W

def regSysStep (site : κ → Site) : κ × Env → RegSys κ → RegSys κ :=
  Pool.step fun i env pc R => stepReg P (site i) env pc R

def threadStep (site : Site) : Env → Thread → Thread :=
  Solo.step fun env pc W => step P site env pc W

def regThreadStep (site : Site) : Env → RegThread → RegThread :=
  Solo.step fun env pc R => stepReg P site env pc R

/-- A message at the start of `handle`. -/
def Thread.start (msg : Message) (W : World) : Thread := ⟨.handle msg, W, []⟩

/-- Each thread at the start of `handle`, nothing sent yet. -/
def Sys.start (msg : κ → Message) (W : World) : Sys κ := ⟨fun i => .handle (msg i), W, []⟩

/-! ## What is assumed of the stores -/

/-- Every store can be reached. -/
def Env.Up (env : Env) : Prop := ∀ s, (env.store s).down = false

/-- No store gives out a CAS value again. -/
def FreshCas (issued : StoreId → List ℕ) (env : Env) : Prop :=
  ∀ s, ((env.store s).cas : ℕ) ∉ issued s

/-- The stores can be reached and give out CAS values that were never used. -/
def StoresOk (issued : StoreId → List ℕ) (env : Env) : Prop := env.Up ∧ FreshCas issued env

def World.issued (W : World) : StoreId → List ℕ := fun s => (W s).issued

def Regs.issued (R : Regs) : StoreId → List ℕ := fun s => (R s).issued

/-- Every CAS value in use was given out. -/
def CasIssued (W : World) : Prop :=
  ∀ s key r, (W s).record key = some r → (r.cas : ℕ) ∈ (W s).issued

/-- The stores hold sessions or nothing under the key, under CAS values they have given out. -/
structure StoresReady (P : Platform) (key : Bytes) (W : World) : Prop where
  readable : ReadableAll P key W
  issued : CasIssued W

/-! ## Losses -/

def Store.lose (st : Store) (key : Bytes) : Store :=
  { st with record := Function.update st.record key none }

/-- The stores after one of them has lost its record. -/
def World.lose (W : World) (key : Bytes) (s : StoreId) : World :=
  Function.update W s ((W s).lose key)

theorem record_lose (st : Store) (key : Bytes) : (st.lose key).record key = none := by
  simp [Store.lose]

/-! ## From stores to registers -/

variable {P} {key : Bytes}

/-- All threads of the system work on `key`, and the stores can be read there. -/
structure Keyed (P : Platform) (key : Bytes) (σ : Sys κ) : Prop where
  hasKey : ∀ i, (σ.pc i).HasKey key
  readable : ReadableAll P key σ.shared

omit [DecidableEq κ] in
theorem keyed_start {msg : κ → Message} {W : World} (hmsg : ∀ i, (msg i).key = key)
    (hW : StoresReady P key W) : Keyed P key (Sys.start msg W) where
  hasKey := fun i => Pc.hasKey_of_message rfl (hmsg i)
  readable := hW.readable

theorem Keyed.step {σ : Sys κ} (h : Keyed P key σ) (site : κ → Site) (a : κ × Env) :
    Keyed P key (sysStep P site a σ) where
  hasKey := (Function.forall_update_iff σ.pc fun _ pc => pc.HasKey key).mpr
    ⟨hasKey_step (site a.1) a.2 (h.hasKey a.1), fun i _ => h.hasKey i⟩
  readable := readable_step h.readable (site a.1) a.2 (h.hasKey a.1)

theorem regs_sysStep {σ : Sys κ} (h : Keyed P key σ) (site : κ → Site) (a : κ × Env) :
    (sysStep P site a σ).map (regs P key) = regSysStep P site a (σ.map (regs P key)) :=
  Pool.map_step (regs_step h.readable (site a.1) a.2 (h.hasKey a.1))

/-- **Runs refine.** A run over stores is a run over registers. -/
theorem regs_sysExec {σ : Sys κ} (h : Keyed P key σ) (site : κ → Site) (as : List (κ × Env)) :
    (exec (sysStep P site) as σ).map (regs P key) =
      exec (regSysStep P site) as (σ.map (regs P key)) :=
  exec_map (I := Keyed P key) (fun _ a hs => hs.step site a)
    (fun _ a hs => regs_sysStep hs site a) h

/-- What is assumed along a run over stores may be assumed along the run over registers. -/
theorem regs_sysAlong {Ok : Sys κ → κ × Env → Prop} {OkR : RegSys κ → κ × Env → Prop} {σ : Sys κ}
    (h : Keyed P key σ) {site : κ → Site} {as : List (κ × Env)}
    (hok : ∀ σ a, Keyed P key σ → Ok σ a → OkR (σ.map (regs P key)) a)
    (hrun : Along (sysStep P site) Ok as σ) :
    Along (regSysStep P site) OkR as (σ.map (regs P key)) :=
  Along.map (I := Keyed P key) (fun _ a hs => hs.step site a)
    (fun _ a hs => regs_sysStep hs site a) hok h hrun

/-- The thread works on `key`, and the stores can be read there. -/
structure ThreadKeyed (P : Platform) (key : Bytes) (t : Thread) : Prop where
  hasKey : t.pc.HasKey key
  readable : ReadableAll P key t.shared

theorem ThreadKeyed.step {t : Thread} (h : ThreadKeyed P key t) (site : Site) (env : Env) :
    ThreadKeyed P key (threadStep P site env t) where
  hasKey := hasKey_step site env h.hasKey
  readable := readable_step h.readable site env h.hasKey

theorem regs_threadStep {t : Thread} (h : ThreadKeyed P key t) (site : Site) (env : Env) :
    (threadStep P site env t).map (regs P key) =
      regThreadStep P site env (t.map (regs P key)) :=
  Solo.map_step (regs_step h.readable site env h.hasKey)

theorem regs_threadExec {t : Thread} (h : ThreadKeyed P key t) (site : Site) (as : List Env) :
    (exec (threadStep P site) as t).map (regs P key) =
      exec (regThreadStep P site) as (t.map (regs P key)) :=
  exec_map (I := ThreadKeyed P key) (fun _ a hs => hs.step site a)
    (fun _ a hs => regs_threadStep hs site a) h

/-! ## Schedules -/

/-- What the outside world contributes to a step, the stores aside. -/
structure Input where
  timer : Option Bytes
  newSessionId : Bytes
  answer : Answer

/-- An environment whose stores can be reached and give out `cas`. -/
def Input.env (x : Input) (cas : ℕ+) : Env := ⟨fun _ => ⟨false, cas⟩, x.timer, x.newSessionId, x.answer⟩

/-- A schedule with the CAS values from `c` on, one for each step. -/
def schedule (c : ℕ) : List (κ × Input) → List (κ × Env)
  | [] => []
  | (i, x) :: rest => (i, x.env c.succPNat) :: schedule (c + 1) rest

theorem issued_setData {st : Store} {env : StoreEnv} {key data : Bytes} {cas : ℕ} {expiry : Int32}
    {x : ℕ} (h : x ∈ (st.setData env key data cas expiry).2.issued) :
    x = env.cas ∨ x ∈ st.issued := by
  rcases st.setData_cases env key data cas expiry with heq | heq
  · rw [heq] at h
    exact .inr h
  · rw [heq] at h
    exact List.mem_cons.mp h

/-- What a call does to the stores: nothing, or one of them is written to, or deleted from. -/
theorem stores_perform (env : Env) (W : World) (a : Action) :
    (perform P env W a).2.1 = W ∨
      (∃ s key data cas expiry, (perform P env W a).2.1 =
        Function.update W s ((W s).setData (env.store s) key data cas expiry).2) ∨
      ∃ s key, (perform P env W a).2.1 =
        Function.update W s ((W s).deleteData (env.store s) key).2 := by
  cases a with
  | get t key k =>
    simp only [perform]
    split <;> exact .inl rfl
  | set t key sess newSession k => exact .inr (.inl ⟨t, key, _, _, _, rfl⟩)
  | casDelete t key sess k => exact .inr (.inl ⟨t, key, _, _, _, rfl⟩)
  | delete t key k => exact .inr (.inr ⟨t, key, rfl⟩)
  | timer => exact .inl rfl
  | send => exact .inl rfl
  | answer => exact .inl rfl
  | healthCheckPassed => exact .inl rfl
  | goto => exact .inl rfl

theorem issued_perform {env : Env} {W : World} {a : Action} {s : StoreId} {x : ℕ}
    (h : x ∈ ((perform P env W a).2.1 s).issued) :
    x = (env.store s).cas ∨ x ∈ (W s).issued := by
  rcases stores_perform env W a with heq | ⟨t, key, data, cas, expiry, heq⟩ | ⟨t, key, heq⟩
  · rw [heq] at h
    exact .inr h
  · rw [heq] at h
    by_cases hs : s = t
    · subst hs
      rw [Function.update_self] at h
      exact issued_setData h
    · rw [Function.update_of_ne hs] at h
      exact .inr h
  · rw [heq] at h
    by_cases hs : s = t
    · subst hs
      rw [Function.update_self] at h
      unfold Store.deleteData at h
      split at h <;> exact .inr h
    · rw [Function.update_of_ne hs] at h
      exact .inr h

/-- A schedule gives out no CAS value twice. -/
theorem along_schedule {site : κ → Site} (Ok : Input → Prop) {c : ℕ} {xs : List (κ × Input)}
    (hok : ∀ x ∈ xs, Ok x.2) {σ : Sys κ} (hissued : ∀ s, ∀ x ∈ (σ.shared s).issued, x ≤ c) :
    Along (sysStep P site) (fun σ a => StoresOk (World.issued σ.shared) a.2 ∧
      ∃ x, Ok x ∧ ∃ cas, a.2 = x.env cas) (schedule c xs) σ := by
  induction xs generalizing c σ with
  | nil => trivial
  | cons x xs ih =>
    refine ⟨⟨⟨fun s => rfl, fun s hs => ?_⟩, x.2, hok x List.mem_cons_self, _, rfl⟩, ?_⟩
    · have hle : c + 1 ≤ c := hissued s _ hs
      omega
    · refine ih (fun y hy => hok y (List.mem_cons_of_mem _ hy)) ?_
      intro s y hy
      rcases issued_perform hy with rfl | hy
      · exact le_refl (c + 1)
      · exact (hissued s y hy).trans (Nat.le_succ c)

end Machines

/-! ## Stores with given contents -/

/-- A store that holds one session and has given out one CAS value. -/
def Store.holding (P : Platform) (key : Bytes) (sess : Session) (cas : ℕ+) : Store where
  record := fun k => if k = key then some ⟨serializeSession P sess, cas⟩ else none
  issued := [cas]

def Store.empty : Store := ⟨fun _ => none, []⟩

theorem readable_holding (P : Platform) (key : Bytes) (sess : Session) (cas : ℕ+) :
    Readable P (Store.holding P key sess cas) key := by
  intro r hr
  simp only [Store.holding, if_true, Option.some.injEq] at hr
  subst hr
  exact ⟨_, deserializeSession_serializeSession P sess, serializeSession_ne_nil P sess⟩

theorem regOf_holding (P : Platform) (key : Bytes) (sess : Session) (cas : ℕ+) :
    regOf P key (Store.holding P key sess cas) = ⟨some { sess.stored with cas := cas }, [cas]⟩ := by
  unfold regOf
  rw [view_of_some (r := ⟨serializeSession P sess, cas⟩) (by simp [Store.holding])
    (serializeSession_ne_nil P sess) (deserializeSession_serializeSession P sess)]
  rfl

/-- The stores in `on` hold the session, the others are empty. -/
def World.holding (P : Platform) (key : Bytes) (sess : Session) (on : StoreId → Bool) : World :=
  fun s => if on s then Store.holding P key sess (Nat.succPNat 0) else Store.empty

theorem storesReady_holding (P : Platform) (key : Bytes) (sess : Session) (on : StoreId → Bool) :
    StoresReady P key (World.holding P key sess on) where
  readable := by
    intro s
    unfold World.holding
    split_ifs
    · exact readable_holding P key sess 1
    · exact readable_of_none rfl
  issued := by
    intro s k r hr
    unfold World.holding at hr ⊢
    split_ifs at hr ⊢
    · simp only [Store.holding] at hr ⊢
      split_ifs at hr
      cases hr
      exact List.mem_singleton.mpr rfl
    · cases hr

/-- Registers that hold one session, or nothing. -/
def Regs.holding (sess : Session) (on : StoreId → Bool) : Regs :=
  fun s => if on s then ⟨some { sess.stored with cas := 1 }, [1]⟩ else ⟨none, []⟩

theorem regs_holding (P : Platform) (key : Bytes) (sess : Session) (on : StoreId → Bool) :
    regs P key (World.holding P key sess on) =
      Regs.holding sess on := by
  funext s
  unfold regs World.holding Regs.holding
  split_ifs
  · rw [regOf_holding]
    rfl
  · exact regOf_of_none rfl

theorem issued_holding {P : Platform} {key : Bytes} {sess : Session} {on : StoreId → Bool}
    {s : StoreId} {x : ℕ} (h : x ∈ (World.holding P key sess on s).issued) : x ≤ 1 := by
  unfold World.holding at h
  split_ifs at h
  · exact (List.mem_singleton.mp h).le
  · cases h

/-- A schedule from such stores. -/
theorem storesOk_schedule {P : Platform} {κ : Type} [DecidableEq κ] {site : κ → Site}
    {msg : κ → Message} {key : Bytes} {sess : Session} {on : StoreId → Bool}
    (xs : List (κ × Input)) :
    Along (sysStep P site) (fun σ a => StoresOk (World.issued σ.shared) a.2) (schedule 1 xs)
      (Sys.start msg (World.holding P key sess on)) := by
  refine Along.mono (fun τ a h => h.1) (along_schedule (fun _ => True) (fun _ _ => trivial) ?_)
  intro s x hx
  exact issued_holding hx

/-- A run from such stores, on registers. -/
theorem regs_sysExec_holding (P : Platform) {κ : Type} [DecidableEq κ] {key : Bytes}
    {msg : κ → Message} (hmsg : ∀ i, (msg i).key = key) (sess : Session) (on : StoreId → Bool)
    (site : κ → Site) (as : List (κ × Env)) :
    (exec (sysStep P site) as (Sys.start msg (World.holding P key sess on))).map (regs P key) =
      exec (regSysStep P site) as ⟨fun i => .handle (msg i), Regs.holding sess on, []⟩ := by
  rw [regs_sysExec (keyed_start hmsg (storesReady_holding P key sess on)) site as]
  congr 1
  ext1
  · rfl
  · exact regs_holding P key sess on
  · rfl

/-- A message of the call `call`. -/
def sampleMessage (type : AccountingRecordType) : Message :=
  .new (ascii "call") 0 0 .null type 300 false

def sampleKey : Bytes := createKey (ascii "call") 0 0

def sampleSession (n : UInt32) : Session where
  sessionId := ascii "sid"
  ccf := [ascii "ccf"]
  ecf := []
  acctRecordNumber := n
  timerId := NO_TIMER
  sessionRefreshTime := 300
  interimInterval := 300
  cas := 0

/-- One store. -/
def oneStore : Site := ⟨0, [], by decide⟩

/-- A local and a remote store. -/
def localAndRemote : Site := ⟨0, [1], by decide⟩

/-- The CCF answers with this result code; Chronos is not reached. -/
def Input.answering (rc : Int32) : Input := ⟨none, ascii "sid", ⟨0, ascii "sid", rc⟩⟩

end Ralf
