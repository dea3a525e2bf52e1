import Ralf.Handlers
import Ralf.PeerMessageSender
import Ralf.Provenance
import Ralf.System

/-!
# Session manager and sender together

A `Task` is a message from the start of `handle` to its end: the session manager is at work on it,
or it is with its sender, which tries one CCF after another before it calls back. Seen from the
session manager a task is a thread (`Task.pc`): what the sender does on its own is not visible, and
its call of `on_ccf_response` is the answer (`taskStep_cases`). What C++ leaves undefined is a state
of its own, and `ccf_access_safe` says that no run of accepted messages gets there, whatever is lost
on the way.
-/

namespace Ralf

open Bytes Runs

/-- A message on its way. The session manager's own `awaitAnswer` is not used here: the sender takes
its place. -/
inductive Task where
  | manager (pc : Pc)
  | sender (pm : PeerMessageSender)
  | undefined

inductive TaskEvent where
  | manager (e : Event)
  | sender (e : SenderEvent)

/-- What the outside world contributes to a step of a task. -/
structure TaskEnv where
  env : Env
  outcome : Outcome

/-- Where a call of the sender leaves the task. -/
def Task.ofResult (site : Site) (msg : Message) : SenderResult → Task
  | .sent pm _ => .sender pm
  | .answered accepted a =>
    .manager (onCcfResponse site accepted a.interimInterval a.sessionId a.rc msg)
  | .undefined => .undefined

section Machine

variable (P : Platform)

/-- One step of a task. -/
def taskStep (site : Site) (x : TaskEnv) : Task → World → Task × World × List TaskEvent
  | .manager (.send msg), W =>
    (.ofResult site msg (PeerMessageSender.send msg), W,
      .manager (.send msg (acrSessionId x.env msg)) ::
        (PeerMessageSender.send msg).events.map .sender)
  | .manager pc, W =>
    (.manager (step P site x.env pc W).1, (step P site x.env pc W).2.1,
      (step P site x.env pc W).2.2.map .manager)
  | .sender pm, W =>
    (.ofResult site pm.msg (pm.sendCb x.outcome.sendCb), W,
      (pm.sendCb x.outcome.sendCb).events.map .sender)
  | .undefined, W => (.undefined, W, [])

/-- Tasks over stores. -/
abbrev Tasks (κ : Type) := Pool κ Task World TaskEvent

/-- What can happen to them: a task makes a step, or a store loses a record. -/
inductive Happening (κ : Type) where
  | move (i : κ) (x : TaskEnv)
  | lose (s : StoreId) (key : Bytes)

variable {κ : Type} [DecidableEq κ]

def tasksStep (site : κ → Site) : κ × TaskEnv → Tasks κ → Tasks κ :=
  Pool.step fun i x t W => taskStep P (site i) x t W

def happen (site : κ → Site) : Happening κ → Tasks κ → Tasks κ
  | .move i x, σ => tasksStep P site (i, x) σ
  | .lose s key, σ => { σ with shared := σ.shared.lose key s }

/-- Each message at the start of `handle`. -/
def Tasks.start (msg : κ → Message) (W : World) : Tasks κ :=
  ⟨fun i => .manager (.handle (msg i)), W, []⟩

end Machine

/-! ## Tasks as threads -/

/-- Where the session manager sees a task. -/
def Task.pc : Task → Pc
  | .manager pc => pc
  | .sender pm => .awaitAnswer pm.msg
  | .undefined => .aborted

def TaskEvent.event : TaskEvent → Option Event
  | .manager e => some e
  | .sender _ => none

section Threads

variable {P : Platform} {site : Site} {x : TaskEnv} {t : Task} {W : World}

theorem events_sender (es : List SenderEvent) :
    (es.map TaskEvent.sender).filterMap TaskEvent.event = [] := by
  rw [List.filterMap_map, List.filterMap_eq_nil_iff]
  exact fun _ _ => rfl

theorem events_manager (es : List Event) :
    (es.map TaskEvent.manager).filterMap TaskEvent.event = es := by
  rw [List.filterMap_map]
  exact List.filterMap_some

/-- A sender that calls back reports the answer as accepted when its result code says so. -/
theorem accepted_of_sendCb {pm : PeerMessageSender} {r : SendCb} {accepted : Bool} {a : Answer}
    (h : pm.sendCb r = .answered accepted a) : accepted = a.accepted := by
  have hsend : ∀ pm' : PeerMessageSender, pm'.intSendMsg ≠ .answered accepted a := by
    intro pm' h'
    unfold PeerMessageSender.intSendMsg at h'
    split at h' <;> cases h'
  unfold PeerMessageSender.sendCb at h
  split_ifs at h with hrc
  · cases h
    rfl
  · split at h
    · cases h
    · dsimp only at h
      split_ifs at h
      · exact absurd h (hsend _)
      · cases h
        rw [not_not] at hrc
        rw [Answer.accepted, hrc]
        rfl

theorem msg_of_sendCb {pm pm' : PeerMessageSender} {r : SendCb} {acr : AccountingRequest}
    (h : pm.sendCb r = .sent pm' acr) : pm'.msg = pm.msg := by
  unfold PeerMessageSender.sendCb at h
  split_ifs at h
  split at h
  · cases h
  · dsimp only at h
    split_ifs at h
    unfold PeerMessageSender.intSendMsg at h
    split at h <;> cases h
    rfl

/-- The first call of a sender hands the message on, or is undefined. -/
theorem send_cases (msg : Message) :
    PeerMessageSender.send msg = .undefined ∨
      ∃ acr, PeerMessageSender.send msg = .sent ⟨msg, 0, msg.ccfs⟩ acr := by
  unfold PeerMessageSender.send PeerMessageSender.intSendMsg
  split
  · exact .inr ⟨_, rfl⟩
  · exact .inl rfl

variable (P site x W) in
/-- As long as nothing is sent, the session manager is on its own. -/
theorem taskStep_manager {pc : Pc} (h : ¬∃ msg, pc = .send msg) :
    taskStep P site x (.manager pc) W =
      (.manager (step P site x.env pc W).1, (step P site x.env pc W).2.1,
        (step P site x.env pc W).2.2.map .manager) := by
  cases pc with
  | send msg => exact absurd ⟨msg, rfl⟩ h
  | _ => rfl

variable (P site x t W) in
/-- **Tasks are threads.** A step of a task is undefined, or invisible to the session manager, or a
step of its thread, with the answer the sender calls back with. -/
theorem taskStep_cases :
    ((taskStep P site x t W).1 = .undefined ∧ (taskStep P site x t W).2.1 = W ∧
      ∀ e ∈ (taskStep P site x t W).2.2.filterMap TaskEvent.event, ∃ msg sid, e = .send msg sid) ∨
    ((taskStep P site x t W).1.pc = t.pc ∧ (taskStep P site x t W).2.1 = W ∧
      (taskStep P site x t W).2.2.filterMap TaskEvent.event = []) ∨
    ∃ a, ((taskStep P site x t W).1.pc, (taskStep P site x t W).2.1,
      (taskStep P site x t W).2.2.filterMap TaskEvent.event) =
        step P site { x.env with answer := a } t.pc W := by
  cases t with
  | manager pc =>
    cases pc with
    | send msg =>
      rcases send_cases msg with hsend | ⟨acr, hsend⟩
      · refine .inl ?_
        simp only [taskStep, hsend]
        refine ⟨rfl, trivial, ?_⟩
        intro e he
        cases List.mem_singleton.mp he
        exact ⟨_, _, rfl⟩
      · refine .inr (.inr ⟨x.env.answer, ?_⟩)
        simp only [taskStep, hsend]
        rfl
    | _ =>
      refine .inr (.inr ⟨x.env.answer, ?_⟩)
      simp only [taskStep, events_manager]
      rfl
  | sender pm =>
    simp only [taskStep, events_sender]
    cases hcb : pm.sendCb x.outcome.sendCb with
    | sent pm' acr =>
      refine .inr (.inl ⟨?_, trivial, trivial⟩)
      show Pc.awaitAnswer pm'.msg = Pc.awaitAnswer pm.msg
      rw [msg_of_sendCb hcb]
    | answered accepted a =>
      refine .inr (.inr ⟨a, ?_⟩)
      rw [accepted_of_sendCb hcb]
      rfl
    | undefined => exact .inl ⟨rfl, trivial, fun e he => by cases he⟩
  | undefined => exact .inl ⟨rfl, rfl, fun e he => by cases he⟩

/-- What only depends on the identity of a message stays true of it, whatever its task does. -/
theorem every_taskStep {φ : Message → Prop}
    (hφ : ∀ m m' : Message, m'.identity = m.identity → φ m → φ m') (h : t.pc.Every φ) :
    (taskStep P site x t W).1.pc.Every φ := by
  rcases taskStep_cases P site x t W with ⟨hpc, -, -⟩ | ⟨hpc, -, -⟩ | ⟨a, heq⟩
  · rw [hpc]
    exact Pc.every_of_none rfl
  · rw [hpc]
    exact h
  · rw [show (taskStep P site x t W).1.pc = _ from (Prod.ext_iff.mp heq).1]
    exact every_step site _ hφ h

end Threads

end Ralf
