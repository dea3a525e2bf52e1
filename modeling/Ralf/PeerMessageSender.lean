import Ralf.Lib.Runs
import Ralf.SessionManager

/-!
# The sender

`peer_message_sender.cpp` and `ralf_transaction.cpp`: an ACR goes to the CCFs of its message one
after another, until one of them can be reached. The loop is spread over callbacks, with the index
`which` kept across them, so a call of the sender either leaves an ACR with the Diameter stack
(`SenderResult.sent`) or has called `on_ccf_response` (`SenderResult.answered`); the third result is
what C++ leaves undefined. `failover` says what a message's CCFs see of it, and what the session
manager hears in the end.
-/

namespace Ralf

open Bytes Runs

def ER_DIAMETER_SUCCESS : Int32 := 2001
def ER_DIAMETER_UNABLE_TO_DELIVER : Int32 := 3002

/-! ## Transactions -/

/-- An Accounting-Answer, as far as it is read. Any of the AVPs may be missing. -/
structure AccountingResponse where
  resultCode : Option Int32
  interimInterval : Option Int32
  sessionId : Option Bytes

/-- What comes of an ACR. -/
inductive Outcome where
  | response (rsp : AccountingResponse)
  | timeout

/-- The arguments of `send_cb`. -/
structure SendCb where
  resultCode : Int32
  interimInterval : Int32
  sessionId : Bytes

/-- `RalfTransaction::on_timeout`. -/
def onTimeout : SendCb := ⟨ER_DIAMETER_UNABLE_TO_DELIVER, 0, []⟩

/-- `RalfTransaction::on_response`. -/
def onResponse (rsp : AccountingResponse) : SendCb where
  resultCode := rsp.resultCode.getD 0
  interimInterval := rsp.interimInterval.getD 0
  sessionId := rsp.sessionId.getD (ascii "<value not found in Diameter message>")

def Outcome.sendCb : Outcome → SendCb
  | .response rsp => onResponse rsp
  | .timeout => onTimeout

/-- The CCF was not reached. -/
def Outcome.undeliverable (o : Outcome) : Bool :=
  o.sendCb.resultCode == ER_DIAMETER_UNABLE_TO_DELIVER

/-! ## The sender -/

/-- The arguments an `Rf::AccountingRequest` is built from. An empty session id stands for a new
one. The realm is the same for all of them. -/
structure AccountingRequest where
  sessionId : Bytes
  destHost : Bytes
  recordNumber : UInt32
  contents : Json

/-- `PeerMessageSender`. `which` is an `unsigned int`, the type that rapidjson counts the elements
of an array with. A number here makes a difference only for a list with more CCFs than such an array
can have elements. -/
structure PeerMessageSender where
  msg : Message
  which : ℕ
  ccfs : List Bytes

/-- What a call of the sender ends in. -/
inductive SenderResult where
  /-- The ACR is with the Diameter stack, which calls back with its outcome. -/
  | sent (pm : PeerMessageSender) (acr : AccountingRequest)
  /-- `on_ccf_response` was called with these arguments, and the sender has deleted itself. -/
  | answered (accepted : Bool) (a : Answer)
  /-- An index was out of range, or the "event" member was missing. -/
  | undefined

namespace PeerMessageSender

/-- The ACR of a message for one of its CCFs. -/
def accountingRequest (msg : Message) (event : Json) (ccf : Bytes) : AccountingRequest where
  sessionId := msg.sessionId
  destHost := ccf
  recordNumber := msg.accountingRecordNumber
  contents := event

def intSendMsg (pm : PeerMessageSender) : SenderResult :=
  match pm.ccfs[pm.which]?, pm.msg.receivedJson.findMember (ascii "event") with
  | some ccf, .ok (some event) => .sent pm (accountingRequest pm.msg event ccf)
  | _, _ => .undefined

def send (msg : Message) : SenderResult := intSendMsg ⟨msg, 0, msg.ccfs⟩

def sendCb (pm : PeerMessageSender) (r : SendCb) : SenderResult :=
  if r.resultCode ≠ ER_DIAMETER_UNABLE_TO_DELIVER then
    .answered (r.resultCode == ER_DIAMETER_SUCCESS)
      ⟨r.interimInterval.toUInt32, r.sessionId, r.resultCode⟩
  else
    -- the CCF that could not be reached is logged by its index
    match pm.ccfs[pm.which]? with
    | none => .undefined
    | some _ =>
      let pm := { pm with which := pm.which + 1 }
      if pm.which < pm.ccfs.length then pm.intSendMsg
      else .answered false ⟨0, [], r.resultCode⟩

end PeerMessageSender

/-! ## What is seen of a sender -/

inductive SenderEvent where
  | acr (acr : AccountingRequest)
  | onCcfResponse (accepted : Bool) (a : Answer)

def SenderResult.events : SenderResult → List SenderEvent
  | .sent _ acr => [.acr acr]
  | .answered accepted a => [.onCcfResponse accepted a]
  | .undefined => []

/-- The message is handed to a new sender. -/
def sending (msg : Message) : SenderResult × List SenderEvent :=
  (PeerMessageSender.send msg, (PeerMessageSender.send msg).events)

/-- The outcome of the ACR that is with the Diameter stack, if there is one. -/
def deliver (o : Outcome) (x : SenderResult × List SenderEvent) :
    SenderResult × List SenderEvent :=
  match x.1 with
  | .sent pm _ => (pm.sendCb o.sendCb, x.2 ++ (pm.sendCb o.sendCb).events)
  | _ => x

/-! ## Failover -/

/-- How many CCFs were not reached before one was. -/
def undelivered (os : List Outcome) : ℕ := (os.takeWhile Outcome.undeliverable).length

/-- The CCFs an ACR goes to: one more than could not be reached, as long as there are any. -/
def tried (ccfs : List Bytes) (os : List Outcome) : List Bytes := ccfs.take (undelivered os + 1)

/-- The session manager's part of an outcome. -/
def Outcome.call (o : Outcome) : SenderEvent :=
  .onCcfResponse (o.sendCb.resultCode == ER_DIAMETER_SUCCESS)
    ⟨o.sendCb.interimInterval.toUInt32, o.sendCb.sessionId, o.sendCb.resultCode⟩

/-- The call of `on_ccf_response`: with the first outcome that says the CCF was reached, or with an
error after all CCFs; none as long as neither has happened. -/
def lastCall (ccfs : List Bytes) (os : List Outcome) : List SenderEvent :=
  if ccfs.length ≤ undelivered os then
    [.onCcfResponse false ⟨0, [], ER_DIAMETER_UNABLE_TO_DELIVER⟩]
  else os[undelivered os]?.toList.map Outcome.call

section Failover

variable {msg : Message} {event : Json} {pm : PeerMessageSender} {o : Outcome} {os : List Outcome}

theorem undelivered_cons (h : o.undeliverable = true) :
    undelivered (o :: os) = undelivered os + 1 := by
  simp [undelivered, h]

theorem undelivered_cons_of_reached (h : o.undeliverable = false) : undelivered (o :: os) = 0 := by
  simp [undelivered, h]

/-- The outcomes that are counted are those of the CCFs before. -/
theorem lt_undelivered_iff {j : ℕ} :
    j < undelivered os ↔
      j ≤ undelivered os ∧ ∃ o, os[j]? = some o ∧ o.undeliverable = true := by
  induction os generalizing j with
  | nil => simp [undelivered]
  | cons o os ih =>
    cases h : o.undeliverable with
    | false =>
      rw [undelivered_cons_of_reached h]
      constructor
      · intro hj
        omega
      · rintro ⟨hj, o', ho', hu⟩
        rw [Nat.le_zero.mp hj] at ho'
        cases ho'
        rw [h] at hu
        cases hu
    | true =>
      rw [undelivered_cons h]
      cases j with
      | zero => simp [h]
      | succ j =>
        simp only [List.getElem?_cons_succ]
        rw [Nat.add_lt_add_iff_right, Nat.add_le_add_iff_right]
        exact ih

variable (pm) in
theorem sendCb_reached (h : o.undeliverable = false) :
    (pm.sendCb o.sendCb).events = [o.call] ∧ ∃ accepted a,
      pm.sendCb o.sendCb = .answered accepted a := by
  have hne : o.sendCb.resultCode ≠ ER_DIAMETER_UNABLE_TO_DELIVER := by
    simpa [Outcome.undeliverable] using h
  unfold PeerMessageSender.sendCb
  rw [if_pos hne]
  exact ⟨rfl, _, _, rfl⟩

/-- A sender that has called back hears of no more outcomes. -/
theorem exec_answered {accepted : Bool} {a : Answer} (os : List Outcome) (es : List SenderEvent) :
    exec deliver os (.answered accepted a, es) = (.answered accepted a, es) := by
  induction os with
  | nil => rfl
  | cons o os ih => exact ih

variable (pm) in
theorem intSendMsg_eq {ccf : Bytes} (hccf : pm.ccfs[pm.which]? = some ccf)
    (hevent : pm.msg.receivedJson.findMember (ascii "event") = .ok (some event)) :
    pm.intSendMsg = .sent pm (PeerMessageSender.accountingRequest pm.msg event ccf) := by
  unfold PeerMessageSender.intSendMsg
  rw [hccf, hevent]

/-- The CCF was not reached, and there is another one. -/
theorem sendCb_next {c c' : Bytes} {l r : List Bytes} (h : o.undeliverable = true)
    (hevent : pm.msg.receivedJson.findMember (ascii "event") = .ok (some event))
    (hccfs : pm.ccfs = l ++ c :: c' :: r) (hwhich : pm.which = l.length) :
    pm.sendCb o.sendCb = .sent { pm with which := pm.which + 1 }
      (PeerMessageSender.accountingRequest pm.msg event c') := by
  have hrc : o.sendCb.resultCode = ER_DIAMETER_UNABLE_TO_DELIVER := by
    simpa [Outcome.undeliverable] using h
  have hold : pm.ccfs[pm.which]? = some c := by
    rw [hccfs, hwhich, List.getElem?_append_right (Nat.le_refl _), Nat.sub_self]
    rfl
  have hnew : pm.ccfs[pm.which + 1]? = some c' := by
    rw [hccfs, hwhich, List.getElem?_append_right (Nat.le_add_right _ 1), Nat.add_sub_cancel_left]
    rfl
  have hlt : pm.which + 1 < pm.ccfs.length := (List.getElem?_eq_some_iff.mp hnew).1
  unfold PeerMessageSender.sendCb
  rw [if_neg (not_not.mpr hrc), hold]
  dsimp only
  rw [if_pos hlt]
  exact intSendMsg_eq { pm with which := pm.which + 1 } hnew hevent

/-- The last CCF was not reached. -/
theorem sendCb_last {c : Bytes} {l : List Bytes} (h : o.undeliverable = true)
    (hccfs : pm.ccfs = l ++ [c]) (hwhich : pm.which = l.length) :
    pm.sendCb o.sendCb = .answered false ⟨0, [], ER_DIAMETER_UNABLE_TO_DELIVER⟩ := by
  have hrc : o.sendCb.resultCode = ER_DIAMETER_UNABLE_TO_DELIVER := by
    simpa [Outcome.undeliverable] using h
  have hold : pm.ccfs[pm.which]? = some c := by
    rw [hccfs, hwhich, List.getElem?_append_right (Nat.le_refl _), Nat.sub_self]
    rfl
  have hlen : ¬ pm.which + 1 < pm.ccfs.length := by
    rw [hccfs, hwhich, List.length_append, List.length_singleton]
    omega
  unfold PeerMessageSender.sendCb
  rw [if_neg (not_not.mpr hrc), hold]
  dsimp only
  rw [if_neg hlen, hrc]

/-- The run of a sender from its ACR to `c`, with `l` behind it and `r` still to come. -/
theorem exec_deliver {c : Bytes} {l r : List Bytes} {acr : AccountingRequest}
    {es : List SenderEvent} (hmsg : pm.msg = msg)
    (hevent : msg.receivedJson.findMember (ascii "event") = .ok (some event))
    (hccfs : pm.ccfs = l ++ c :: r) (hwhich : pm.which = l.length) :
    (exec deliver os (.sent pm acr, es)).2 =
      es ++ (r.take (undelivered os)).map
          (fun ccf => .acr (PeerMessageSender.accountingRequest msg event ccf)) ++
        lastCall (c :: r) os := by
  induction os generalizing pm c l r acr es with
  | nil => simp [exec, undelivered, lastCall]
  | cons o os ih =>
    show (exec deliver os (pm.sendCb o.sendCb, es ++ (pm.sendCb o.sendCb).events)).2 = _
    cases h : o.undeliverable with
    | false =>
      obtain ⟨hcall, accepted, a, heq⟩ := sendCb_reached pm h
      rw [hcall, heq, exec_answered]
      simp [lastCall, undelivered_cons_of_reached h]
    | true =>
      subst hmsg
      cases r with
      | nil =>
        rw [sendCb_last h hccfs hwhich, exec_answered]
        simp [lastCall, undelivered_cons h, SenderResult.events]
      | cons c' r =>
        rw [sendCb_next h hevent hccfs hwhich]
        have hrest : pm.ccfs = (l ++ [c]) ++ c' :: r := by
          rw [List.append_assoc]
          exact hccfs
        have hnext : pm.which + 1 = (l ++ [c]).length := by
          rw [hwhich, List.length_append, List.length_singleton]
        rw [@ih { pm with which := pm.which + 1 } _ _ _ _ _ rfl hrest hnext]
        simp [lastCall, undelivered_cons h, SenderResult.events]

/-- **Failover.** The ACRs go to the CCFs of the message in their order, one to each, all with the
message's record number; the next one gets its ACR if and only if the one before could not be
reached. `on_ccf_response` comes last, and it comes when as many outcomes are in as there are
CCFs. -/
theorem failover (hccfs : msg.ccfs ≠ [])
    (hevent : msg.receivedJson.findMember (ascii "event") = .ok (some event))
    (os : List Outcome) :
    (exec deliver os (sending msg)).2 =
        (tried msg.ccfs os).map
          (fun ccf => .acr (PeerMessageSender.accountingRequest msg event ccf)) ++
          lastCall msg.ccfs os ∧
      (∀ j, j + 1 < msg.ccfs.length →
        (j + 1 < (tried msg.ccfs os).length ↔ j < (tried msg.ccfs os).length ∧
          ∃ o, os[j]? = some o ∧ o.undeliverable = true)) ∧
      (msg.ccfs.length ≤ os.length → ∃ accepted a,
        lastCall msg.ccfs os = [.onCcfResponse accepted a]) := by
  refine ⟨?_, ?_, ?_⟩
  · obtain ⟨c, r, hcr⟩ := List.exists_cons_of_ne_nil hccfs
    have hfirst : PeerMessageSender.send msg = .sent ⟨msg, 0, msg.ccfs⟩
        (PeerMessageSender.accountingRequest msg event c) :=
      intSendMsg_eq ⟨msg, 0, msg.ccfs⟩ (by simp [hcr]) hevent
    unfold sending
    rw [hfirst, exec_deliver (l := []) rfl hevent hcr rfl, tried, hcr]
    rfl
  · intro j hj
    rw [tried, List.length_take]
    have hiff : j < undelivered os ↔ _ := lt_undelivered_iff
    constructor
    · intro hlt
      obtain ⟨-, ho⟩ := hiff.mp (by omega)
      exact ⟨by omega, ho⟩
    · rintro ⟨hle, ho⟩
      have hlt := hiff.mpr ⟨by omega, ho⟩
      omega
  · intro hlen
    unfold lastCall
    by_cases h : msg.ccfs.length ≤ undelivered os
    · rw [if_pos h]
      exact ⟨_, _, rfl⟩
    · obtain ⟨o, ho⟩ : ∃ o, os[undelivered os]? = some o :=
        ⟨_, List.getElem?_eq_getElem (by omega)⟩
      rw [if_neg h, ho]
      exact ⟨_, _, rfl⟩

end Failover

/-- An EVENT with two CCFs. -/
def twoCcfs : Message where
  callId := ascii "call"
  role := 0
  function := 0
  receivedJson := .obj [(ascii "event", .obj [])]
  recordType := .event
  timerInterim := false
  ccfs := [ascii "c0", ascii "c1"]
  sessionId := []
  accountingRecordNumber := 1
  timerId := []
  interimInterval := 0
  sessionRefreshTime := 0

/-- The first CCF does not answer, the second one does. -/
theorem failover_twoCcfs :
    (exec deliver [.timeout, .response ⟨some 2001, some 600, some (ascii "sid")⟩]
        (sending twoCcfs)).2 =
      [.acr ⟨[], ascii "c0", 1, .obj []⟩, .acr ⟨[], ascii "c1", 1, .obj []⟩,
        .onCcfResponse true ⟨600, ascii "sid", 2001⟩] := by
  have hevent : twoCcfs.receivedJson.findMember (ascii "event") = .ok (some (.obj [])) := rfl
  have hrun := (failover (by decide) hevent
    [.timeout, .response ⟨some 2001, some 600, some (ascii "sid")⟩]).1
  exact hrun.trans rfl

end Ralf
