import Ralf.Tasks

/-!
# The CCFs of a message

Neither the sender nor the store checks that a list of CCFs has an element: the sender takes the
first one of its message, which has them from a request or from a stored session. The request's
were checked by the handler, and the session's are those of the START that made it (`Inherited`).
`ccf_access_safe` follows this through every interleaving and every loss: no session without CCFs is
ever stored, and no index is out of range.
-/

namespace Ralf

open Bytes Runs

/-- The session has a CCF. -/
def Session.Served (_ : Bytes) (sess : Session) : Prop := sess.ccf ≠ []

def Message.Served (msg : Message) : Prop := msg.ccfs ≠ []

/-- The document of the message has an event, which is an object. -/
def Message.HasEvent (msg : Message) : Prop :=
  ∃ ms, msg.receivedJson.findMember (ascii "event") = .ok (some (.obj ms))

theorem inherited_served : Inherited Session.Served Message.Served where
  stored := fun _ sess _ h => by
    show sess.ccf.map cStr ≠ []
    rw [ne_eq, List.map_eq_nil_iff]
    exact h
  number := fun _ _ _ h => h
  timerId := fun _ _ _ h => h
  fillIn := fun _ _ _ h => h
  first := fun _ h => h
  start := fun _ _ _ _ _ h => h

theorem hasEvent_of_identity (m m' : Message) (hid : m'.identity = m.identity)
    (h : m.HasEvent) : m'.HasEvent := by
  simp only [Message.identity, Prod.mk.injEq] at hid
  unfold Message.HasEvent
  rw [hid.2.2.2.1]
  exact h

/-! ## Accepted messages -/

section Accepted

variable {P : Platform} {callId body : Bytes} {timerInterim : Bool} {msg : Message}

theorem AccountingRecordType.valid_cases {t : AccountingRecordType} (h : t.isValid = true) :
    (t.isStart || t.isEvent) = true ∨ t = .interim ∨ t = .stop := by
  obtain ⟨code⟩ := t
  simp only [isValid, Bool.and_eq_true, decide_eq_true_eq, UInt32.le_iff_toNat_le,
    UInt32.reduceToNat] at h
  simp only [isStart, isEvent, Bool.or_eq_true, beq_iff_eq, ← UInt32.toNat_inj,
    UInt32.reduceToNat, interim, stop, AccountingRecordType.mk.injEq]
  omega

theorem handle_of_parseBody (h : parseBody P callId timerInterim body = .ok (some msg)) :
    msg.HasEvent ∧ (msg.Later ∨ msg.Served) := by
  obtain ⟨doc, event, role, function, type, ccfs, -, hevent, hvalid, hccfs, rfl⟩ := parseBody_ok h
  refine ⟨⟨event, ?_⟩, ?_⟩
  · unfold objectMember findMember at hevent
    split at hevent
    · rename_i hfind
      cases hevent
      exact congrArg Except.ok hfind
    · cases hevent
  · rcases AccountingRecordType.valid_cases hvalid with hfirst | hlater
    · exact .inr (hccfs hfirst)
    · exact .inl hlater

end Accepted

/-! ## Tasks -/

/-- The message has what its sender needs, and the index is in range. -/
structure PeerMessageSender.Safe (pm : PeerMessageSender) : Prop where
  which_lt : pm.which < pm.ccfs.length
  served : pm.msg.Served
  hasEvent : pm.msg.HasEvent

def Task.Safe : Task → Prop
  | .manager pc => pc.Stocked Session.Served Message.Served ∧ pc.Every Message.HasEvent
  | .sender pm => pm.Safe
  | .undefined => False

section Tasks

variable {P : Platform} {site : Site} {msg : Message} {pm : PeerMessageSender}

theorem PeerMessageSender.Safe.intSendMsg (h : pm.Safe) :
    ∃ acr, pm.intSendMsg = .sent pm acr := by
  obtain ⟨ms, hms⟩ := h.hasEvent
  exact ⟨_, intSendMsg_eq pm (List.getElem?_eq_getElem h.which_lt) hms⟩

/-- A sender stays in range, or calls back. -/
theorem PeerMessageSender.Safe.sendCb (h : pm.Safe) (r : SendCb) :
    (∃ pm' acr, pm.sendCb r = .sent pm' acr ∧ pm'.Safe) ∨
      ∃ accepted a, pm.sendCb r = .answered accepted a := by
  unfold PeerMessageSender.sendCb
  rw [List.getElem?_eq_getElem h.which_lt]
  dsimp only
  split_ifs with hrc hlt
  · exact .inr ⟨_, _, rfl⟩
  · have hnext : ({ pm with which := pm.which + 1 } : PeerMessageSender).Safe :=
      ⟨hlt, h.served, h.hasEvent⟩
    obtain ⟨acr, hsent⟩ := hnext.intSendMsg
    exact .inl ⟨_, acr, hsent, hnext⟩
  · exact .inr ⟨_, _, rfl⟩

theorem safe_onCcfResponse (hserved : msg.Served) (hevent : msg.HasEvent) (accepted : Bool)
    (a : Answer) : (Task.ofResult site msg (.answered accepted a)).Safe :=
  ⟨stocked_onCcfResponse inherited_served hserved site _ _ _ _,
    every_onCcfResponse hevent (hasEvent_of_identity msg _ rfl hevent) site _ _ _ _⟩

/-- Only a thread at `send` sends. -/
theorem send_of_event {env : Env} {pc : Pc} {W : World} {m : Message} {sid : Bytes}
    (h : .send m sid ∈ (step P site env pc W).2.2) : pc = .send m := by
  rcases event_perform h with ⟨req, k, -, he⟩ | ⟨m', pc', hnext, he⟩ | he
  · cases he
  · cases he
    cases pc with
    | handle msg =>
      simp only [next] at hnext
      split_ifs at hnext
    | tryRemotes msg rest => cases rest <;> cases hnext
    | readRemotes msg sess rest => cases rest <;> cases hnext
    | deleteRemotes msg sess rest =>
      cases rest with
      | nil =>
        simp only [next] at hnext
        split_ifs at hnext
      | cons s rest => cases hnext
    | send msg =>
      cases hnext
      rfl
    | deleteUnknown msg rest => cases rest <;> cases hnext
    | writeSession msg sess rest => cases rest <;> cases hnext
    | readTimerId msg timerId rest accepted => cases rest <;> cases hnext
    | finish accepted =>
      simp only [next] at hnext
      split_ifs at hnext
    | _ => cases hnext
  · cases he

variable (site) in
/-- One step of a task: the stores and the task stay safe, and what is handed to a sender has what
the sender needs. -/
theorem Task.Safe.step {t : Task} {W : World} (h : t.Safe)
    (hW : Stocked Session.Served P W) (x : TaskEnv) :
    Stocked Session.Served P (taskStep P site x t W).2.1 ∧ (taskStep P site x t W).1.Safe ∧
      ∀ m sid, .manager (.send m sid) ∈ (taskStep P site x t W).2.2 → m.Served ∧ m.HasEvent := by
  have hsender : ∀ (es : List SenderEvent) m sid,
      TaskEvent.manager (.send m sid) ∉ es.map TaskEvent.sender := by
    intro es m sid hmem
    obtain ⟨e, -, he⟩ := List.mem_map.mp hmem
    cases he
  cases t with
  | manager pc =>
    obtain ⟨hstocked, hevery⟩ := h
    by_cases hsend : ∃ msg, pc = .send msg
    · obtain ⟨msg, rfl⟩ := hsend
      have hevent : msg.HasEvent := hevery msg rfl
      have hsafe : PeerMessageSender.Safe ⟨msg, 0, msg.ccfs⟩ :=
        ⟨List.length_pos_of_ne_nil hstocked, hstocked, hevent⟩
      obtain ⟨acr, hacr⟩ := hsafe.intSendMsg
      have hsent : PeerMessageSender.send msg = .sent ⟨msg, 0, msg.ccfs⟩ acr := hacr
      refine ⟨hW, ?_, ?_⟩
      · simp only [taskStep, hsent]
        exact hsafe
      · intro m sid hmem
        rcases List.mem_cons.mp hmem with heq | hmem
        · cases heq
          exact ⟨hstocked, hevent⟩
        · exact absurd hmem (hsender _ m sid)
    · rw [taskStep_manager P site x W hsend]
      obtain ⟨hW', hpc'⟩ := stocked_step inherited_served hW site x.env hstocked
      refine ⟨hW', ⟨hpc', every_step site x.env hasEvent_of_identity hevery⟩, ?_⟩
      intro m sid hmem
      obtain ⟨e, he, heq⟩ := List.mem_map.mp hmem
      cases heq
      exact absurd ⟨m, send_of_event he⟩ hsend
  | sender pm =>
    refine ⟨hW, ?_, fun m sid hmem => absurd hmem (hsender _ m sid)⟩
    simp only [taskStep]
    rcases h.sendCb x.outcome.sendCb with ⟨pm', acr, heq, hsafe⟩ | ⟨accepted, a, heq⟩
    · rw [heq]
      exact hsafe
    · rw [heq]
      exact safe_onCcfResponse h.served h.hasEvent accepted a
  | undefined => exact h.elim

end Tasks

/-! ## Runs -/

section Runs

variable {P : Platform} {κ : Type} [DecidableEq κ] {site : κ → Site}

/-- Stores and tasks are safe, and so was everything handed to a sender. -/
structure SafeTasks (P : Platform) (σ : Tasks κ) : Prop where
  stocked : Stocked Session.Served P σ.shared
  task : ∀ i, (σ.pc i).Safe
  sent : ∀ i m sid, (i, TaskEvent.manager (.send m sid)) ∈ σ.trace → m.Served ∧ m.HasEvent

theorem SafeTasks.step {σ : Tasks κ} (h : SafeTasks P σ) (a : Happening κ) :
    SafeTasks P (happen P site a σ) := by
  cases a with
  | move i x =>
    obtain ⟨hW, htask, hsent⟩ := (h.task i).step (site i) h.stocked x
    refine ⟨hW, ?_, ?_⟩
    · exact (Function.forall_update_iff σ.pc fun _ t => t.Safe).mpr ⟨htask, fun j _ => h.task j⟩
    · intro j m sid hmem
      rcases List.mem_append.mp hmem with hold | hnew
      · exact h.sent j m sid hold
      · obtain ⟨e, he, heq⟩ := List.mem_map.mp hnew
        cases heq
        exact hsent m sid he
  | lose s key =>
    refine ⟨h.stocked.update fun e key' sess hget => ?_, h.task, h.sent⟩
    refine h.stocked s e key' sess ?_
    by_cases hkey : key' = key
    · rw [hkey, getSessionData_of_none (record_lose _ key)] at hget
      cases hget
    · have hsame : ((σ.shared s).lose key).record key' = (σ.shared s).record key' := by
        simp [Store.lose, hkey]
      rwa [getSessionData_of_ne hsame] at hget

/-- **Safety.** All messages were accepted by the handler, and the stores were empty; tasks are
interleaved in any way, with any answers and timeouts, and stores lose records. Then every stored
session has a CCF, every message handed to a sender has a CCF and an event, and no sender takes an
index out of range or misses the event. -/
theorem ccf_access_safe {msg : κ → Message}
    (hmsg : ∀ i, ∃ callId timerInterim body,
      parseBody P callId timerInterim body = .ok (some (msg i)))
    {W : World} (hW : ∀ s key, (W s).record key = none) (as : List (Happening κ)) {σ : Tasks κ}
    (hσ : exec (happen P site) as (Tasks.start msg W) = σ) :
    (∀ s e key sess, getSessionData P (σ.shared s) e key = .ok (some sess) → sess.ccf ≠ []) ∧
      (∀ i m sid, (i, TaskEvent.manager (.send m sid)) ∈ σ.trace → m.ccfs ≠ [] ∧
        ∃ ms, m.receivedJson.findMember (ascii "event") = .ok (some (.obj ms))) ∧
      (∀ i, σ.pc i ≠ .undefined) ∧
      ∀ i pm, σ.pc i = .sender pm → pm.which < pm.ccfs.length := by
  have hstart : SafeTasks P (Tasks.start msg W) := by
    refine ⟨?_, ?_, ?_⟩
    · intro s e key sess hget
      change getSessionData P (W s) e key = .ok (some sess) at hget
      rw [getSessionData_of_none (hW s key)] at hget
      cases hget
    · intro i
      obtain ⟨callId, timerInterim, body, hparse⟩ := hmsg i
      obtain ⟨hevent, hfirst⟩ := handle_of_parseBody hparse
      exact ⟨hfirst, Pc.every_of_message rfl hevent⟩
    · intro i m sid hmem
      cases hmem
  have hsafe : SafeTasks P σ := by
    rw [← hσ]
    exact exec_invariant (fun τ a h => h.step a) as hstart
  refine ⟨hsafe.stocked, hsafe.sent, ?_, ?_⟩
  · intro i hi
    have := hsafe.task i
    rw [hi] at this
    exact this
  · intro i pm hi
    have := hsafe.task i
    rw [hi] at this
    exact this.which_lt

end Runs

/-- The CCF does not answer the first ACR. -/
def unanswered : TaskEnv := ⟨(Input.answering 2001).env (Nat.succPNat 0), .timeout⟩

/-- A START is handed to its sender, and the only CCF times out. -/
def startTimesOut : List (Happening Unit) :=
  [.move () unanswered, .move () unanswered, .lose 0 sampleKey, .move () unanswered]

theorem ccf_access_safe_startTimesOut :
    (exec (happen compactPlatform fun _ => localAndRemote) startTimesOut
      (Tasks.start (fun _ => startMessage 300) fun _ => .empty)).pc () ≠ .undefined ∧
    ∃ m sid, ((), TaskEvent.manager (.send m sid)) ∈
      (exec (happen compactPlatform fun _ => localAndRemote) startTimesOut
        (Tasks.start (fun _ => startMessage 300) fun _ => .empty)).trace ∧ m.ccfs ≠ [] := by
  have hmsg : ∀ _ : Unit, ∃ callId timerInterim body,
      parseBody compactPlatform callId timerInterim body = .ok (some (startMessage 300)) :=
    fun _ => ⟨_, _, _, parseBody_startBody _ 300⟩
  obtain ⟨-, hsent, hdefined, -⟩ := ccf_access_safe hmsg (W := fun _ => .empty) (fun _ _ => rfl)
    startTimesOut (show exec (happen compactPlatform fun _ => localAndRemote) _ _ = _ from rfl)
  refine ⟨hdefined (), _, _, List.mem_cons_self, ?_⟩
  exact (hsent () _ _ List.mem_cons_self).1

end Ralf
