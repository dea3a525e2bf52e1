import Ralf.Isolation
import Ralf.Lib.Projection
import Ralf.Safety

/-!
# Calls run on their own

The frame of `record_step` says that a message does not disturb what is stored under other keys.
Here is the other half: it does not notice it either. What a step reads and writes depends on the
records under its own key alone (`taskStep_local`), so in a run of any number of tasks the tasks of
one key do exactly what they do on their own, on the same schedule without the others'
(`calls_apart`): the same states, the same records, the same requests to Chronos and to the CCFs.
What is proved for the messages of one call holds in the presence of all others.
-/

namespace Ralf

open Bytes Runs

/-- The stores hold the same under the key. -/
def SameUnder (key : Bytes) (W W' : World) : Prop := ∀ s, (W s).record key = (W' s).record key

section Local

variable {P : Platform} {key : Bytes} {W W' : World}

theorem setData_local {st st' : Store} (h : st.record key = st'.record key) (env : StoreEnv)
    (data : Bytes) (cas : ℕ) (expiry : Int32) :
    (st.setData env key data cas expiry).1 = (st'.setData env key data cas expiry).1 ∧
      (st.setData env key data cas expiry).2.record key =
        (st'.setData env key data cas expiry).2.record key := by
  have hput : (st.put env key data expiry).record key = (st'.put env key data expiry).record key := by
    simp [Store.put]
  unfold Store.setData
  rw [h]
  by_cases hdown : env.down = true
  · rw [if_pos hdown, if_pos hdown]
    exact ⟨rfl, h⟩
  · rw [if_neg hdown, if_neg hdown]
    cases st'.record key with
    | none =>
      dsimp only
      split_ifs
      · exact ⟨rfl, hput⟩
      · exact ⟨rfl, h⟩
    | some r =>
      dsimp only
      split_ifs
      · exact ⟨rfl, hput⟩
      · exact ⟨rfl, h⟩

theorem deleteData_local {st st' : Store} (h : st.record key = st'.record key) (env : StoreEnv) :
    (st.deleteData env key).1 = (st'.deleteData env key).1 ∧
      (st.deleteData env key).2.record key = (st'.deleteData env key).2.record key := by
  unfold Store.deleteData
  split_ifs
  · exact ⟨rfl, h⟩
  · exact ⟨rfl, by simp⟩

theorem SameUnder.update (h : SameUnder key W W') {s : StoreId} {st st' : Store}
    (hst : st.record key = st'.record key) :
    SameUnder key (Function.update W s st) (Function.update W' s st') := by
  intro t
  by_cases ht : t = s
  · subst ht
    simpa using hst
  · simpa [ht] using h t

/-- A call depends on the records under its key, and so does what it leaves there. -/
theorem perform_local (h : SameUnder key W W') (env : Env) {a : Action} (ha : a.HasKey key) :
    (perform P env W a).1 = (perform P env W' a).1 ∧
      SameUnder key (perform P env W a).2.1 (perform P env W' a).2.1 ∧
      (perform P env W a).2.2 = (perform P env W' a).2.2 := by
  cases a with
  | get s key' k =>
    obtain ⟨rfl, -⟩ := ha
    simp only [perform, getSessionData_of_ne (h s)]
    split <;> exact ⟨rfl, h, rfl⟩
  | set s key' sess newSession k =>
    obtain ⟨rfl, -⟩ := ha
    obtain ⟨hrc, hst⟩ := setData_local (h s) (env.store s) (serializeSession P sess)
      (if newSession = true then 0 else sess.cas) sess.expiry
    exact ⟨congrArg k hrc, h.update hst, rfl⟩
  | casDelete s key' sess k =>
    obtain ⟨rfl, -⟩ := ha
    obtain ⟨hrc, hst⟩ := setData_local (h s) (env.store s) [] sess.cas 0
    exact ⟨congrArg k hrc, h.update hst, rfl⟩
  | delete s key' k =>
    obtain ⟨rfl, -⟩ := ha
    obtain ⟨hrc, hst⟩ := deleteData_local (h s) (env.store s)
    exact ⟨congrArg k hrc, h.update hst, rfl⟩
  | timer req k => exact ⟨rfl, h, rfl⟩
  | send msg pc => exact ⟨rfl, h, rfl⟩
  | answer k => exact ⟨rfl, h, rfl⟩
  | healthCheckPassed pc => exact ⟨rfl, h, rfl⟩
  | goto pc => exact ⟨rfl, h, rfl⟩

theorem taskStep_local (h : SameUnder key W W') (site : Site) (x : TaskEnv) {t : Task}
    (ht : t.pc.HasKey key) :
    (taskStep P site x t W).1 = (taskStep P site x t W').1 ∧
      SameUnder key (taskStep P site x t W).2.1 (taskStep P site x t W').2.1 ∧
      (taskStep P site x t W).2.2 = (taskStep P site x t W').2.2 := by
  cases t with
  | manager pc =>
    by_cases hsend : ∃ msg, pc = .send msg
    · obtain ⟨msg, rfl⟩ := hsend
      exact ⟨rfl, h, rfl⟩
    · rw [taskStep_manager P site x W hsend, taskStep_manager P site x W' hsend]
      obtain ⟨hpc, hW, hes⟩ := perform_local (P := P) h x.env (hasKey_next P site ht)
      exact ⟨congrArg Task.manager hpc, hW, congrArg (List.map TaskEvent.manager) hes⟩
  | sender pm => exact ⟨rfl, h, rfl⟩
  | undefined => exact ⟨rfl, h, rfl⟩

/-- A task keeps to its key. -/
theorem hasKey_taskStep (site : Site) (x : TaskEnv) {t : Task} (ht : t.pc.HasKey key) :
    (taskStep P site x t W).1.pc.HasKey key :=
  every_taskStep (fun _ _ hid hm => (key_of_identity hid).trans hm) ht

theorem record_taskStep {other : Bytes} (h : other ≠ key) (site : Site) (x : TaskEnv) {t : Task}
    (ht : t.pc.HasKey key) (W : World) (s : StoreId) :
    ((taskStep P site x t W).2.1 s).record other = (W s).record other := by
  rcases taskStep_cases P site x t W with ⟨-, hW, -⟩ | ⟨-, hW, -⟩ | ⟨a, heq⟩
  · rw [hW]
  · rw [hW]
  · rw [show (taskStep P site x t W).2.1 = _ from (Prod.ext_iff.mp (Prod.ext_iff.mp heq).2).1]
    exact record_step h site _ ht W s

end Local

/-! ## Runs -/

section Runs

variable {P : Platform} {κ : Type} [DecidableEq κ] {site : κ → Site}

/-- What happens to the tasks in `p`, and to the records under the key. -/
def Happening.part (p : κ → Prop) [DecidablePred p] (key : Bytes) :
    Happening κ → Option (Happening {i // p i})
  | .move i x => if h : p i then some (.move ⟨i, h⟩ x) else none
  | .lose s lost => if lost = key then some (.lose s lost) else none

theorem sameUnder_lose {key lost : Bytes} {W : World} (h : lost ≠ key) (s : StoreId) :
    SameUnder key (W.lose lost s) W := by
  intro t
  unfold World.lose
  by_cases ht : t = s
  · subst ht
    simp [Store.lose, Ne.symm h]
  · simp [ht]

theorem SameUnder.lose {key : Bytes} {W W' : World} (h : SameUnder key W W') (s : StoreId) :
    SameUnder key (W.lose key s) (W'.lose key s) :=
  h.update (by rw [record_lose, record_lose])

/-- Tasks keep to their keys, and those of the key are where they are on their own. -/
structure Apart (msg : κ → Message) (key : Bytes) (σ : Tasks κ)
    (τ : Tasks {i // (msg i).key = key}) : Prop where
  hasKey : ∀ i, (σ.pc i).pc.HasKey (msg i).key
  part : Pool.Part (fun i => (msg i).key = key) (SameUnder key) σ τ

variable {msg : κ → Message} {key : Bytes} {σ : Tasks κ} {τ : Tasks {i // (msg i).key = key}}

theorem hasKey_tasksStep (h : ∀ j, (σ.pc j).pc.HasKey (msg j).key) (i : κ) (x : TaskEnv) (j : κ) :
    ((tasksStep P site (i, x) σ).pc j).pc.HasKey (msg j).key :=
  (Function.forall_update_iff σ.pc fun j t => t.pc.HasKey (msg j).key).mpr
    ⟨hasKey_taskStep (site i) x (h i), fun j _ => h j⟩ j

theorem Apart.seen (h : Apart msg key σ τ) {a : Happening κ}
    {b : Happening {i // (msg i).key = key}} (hb : a.part _ key = some b) :
    Apart msg key (happen P site a σ) (happen P (fun i => site i) b τ) := by
  cases a with
  | move i x =>
    simp only [Happening.part] at hb
    split_ifs at hb with hi
    cases hb
    obtain ⟨hpc, hshared, htrace⟩ := taskStep_local (P := P) h.part.shared (site i) x (hi ▸ h.hasKey i)
    exact ⟨hasKey_tasksStep h.hasKey i x, h.part.seen (fun i x t W => taskStep P (site i) x t W)
      (fun i : {i // (msg i).key = key} => fun x t W => taskStep P (site i) x t W) hi hpc.symm
      hshared htrace.symm⟩
  | lose s lost =>
    simp only [Happening.part] at hb
    split_ifs at hb with hlost
    cases hb
    subst hlost
    exact ⟨h.hasKey, h.part.pc, h.part.shared.lose s, h.part.trace⟩

theorem Apart.unseen (h : Apart msg key σ τ) {a : Happening κ}
    (ha : a.part (fun i => (msg i).key = key) key = none) :
    Apart msg key (happen P site a σ) τ := by
  cases a with
  | move i x =>
    simp only [Happening.part] at ha
    split_ifs at ha with hi
    refine ⟨hasKey_tasksStep h.hasKey i x,
      h.part.unseen (fun i x t W => taskStep P (site i) x t W) hi fun s => ?_⟩
    exact (record_taskStep (Ne.symm hi) (site i) x (h.hasKey i) σ.shared s).trans (h.part.shared s)
  | lose s lost =>
    simp only [Happening.part] at ha
    split_ifs at ha with hlost
    exact ⟨h.hasKey, h.part.pc, fun t => (sameUnder_lose hlost s t).trans (h.part.shared t),
      h.part.trace⟩

/-- **Calls run on their own.** For any key, a run of all tasks, with any failures and losses, is
for the tasks of that key a run of these tasks alone: they are in the same states, the stores hold
the same under the key, and they have made the same requests in the same order. -/
theorem calls_apart (msg : κ → Message) (W : World) (key : Bytes) (as : List (Happening κ))
    {σ : Tasks κ} (hσ : exec (happen P site) as (Tasks.start msg W) = σ)
    {τ : Tasks {i // (msg i).key = key}}
    (hτ : exec (happen P fun i : {i // (msg i).key = key} => site i)
      (as.filterMap (Happening.part _ key)) (Tasks.start (fun i => msg i) W) = τ) :
    (∀ i, τ.pc i = σ.pc i) ∧ (∀ s, (τ.shared s).record key = (σ.shared s).record key) ∧
      τ.trace = σ.trace.filterMap (Pool.keep fun i => (msg i).key = key) := by
  subst hσ hτ
  have hstart : Apart msg key (Tasks.start msg W) (Tasks.start (fun i => msg i) W) :=
    ⟨fun i => Pc.hasKey_of_message rfl rfl, fun _ => rfl, fun _ => rfl, rfl⟩
  have hrun : Apart msg key (exec (happen P site) as (Tasks.start msg W))
      (exec (happen P fun i : {i // (msg i).key = key} => site i)
        (as.filterMap (Happening.part _ key)) (Tasks.start (fun i => msg i) W)) :=
    exec_seen (fun _ _ _ _ h hb => h.seen hb) (fun _ _ _ h ha => h.unseen ha) as hstart
  exact ⟨hrun.part.pc, fun s => (hrun.part.shared s).symm, hrun.part.trace⟩

end Runs

/-- A START of the call `call` and one of another call. -/
def twoStarts (i : Bool) : Message :=
  if i then startMessage 300 else { startMessage 300 with callId := ascii "other" }

/-- Both are handed to their senders, one after the other, and a record of the other call is
lost. -/
def twoStartsSent : List (Happening Bool) :=
  [.move false unanswered, .move true unanswered, .lose 0 (twoStarts false).key,
    .move false unanswered, .move true unanswered]

theorem calls_apart_twoStarts :
    (exec (happen compactPlatform fun _ : {i // (twoStarts i).key = (twoStarts true).key} =>
          localAndRemote)
        (twoStartsSent.filterMap (Happening.part _ (twoStarts true).key))
        (Tasks.start (fun i : {i // (twoStarts i).key = (twoStarts true).key} => twoStarts i)
          fun _ => .empty)).trace =
      (exec (happen compactPlatform fun _ => localAndRemote) twoStartsSent
        (Tasks.start twoStarts fun _ => .empty)).trace.filterMap
          (Pool.keep fun i => (twoStarts i).key = (twoStarts true).key) :=
  (@calls_apart compactPlatform Bool _ (fun _ => localAndRemote) twoStarts (fun _ => .empty)
    (twoStarts true).key twoStartsSent _ rfl _ rfl).2.2

end Ralf
