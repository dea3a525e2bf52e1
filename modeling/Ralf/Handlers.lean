import Ralf.SessionCodec
import Ralf.SessionManager

/-!
# The HTTP handler

`BillingTask::parse_body` (`handlers.cpp`): the checks on a request body, in the order the source
makes them, and the message they end in; and `BillingTask::run`, which calls it.
-/

namespace Ralf

open Bytes

/-- An HTTP status code. -/
abbrev HTTPCode := ℕ

def HTTP_OK : HTTPCode := 200
def HTTP_BAD_REQUEST : HTTPCode := 400

/-! ## Members -/

/-- The first member with the given name. -/
def findMember (ms : List (Bytes × Json)) (name : Bytes) : Option Json :=
  (ms.find? fun m => m.1 = name).map (·.2)

/-- A member that has to be an object. -/
def objectMember (ms : List (Bytes × Json)) (name : Bytes) :
    Except HTTPCode (List (Bytes × Json)) :=
  match findMember ms name with
  | some (.obj ms') => .ok ms'
  | _ => .error HTTP_BAD_REQUEST

/-- A member for which `IsInt` has to hold, and its `GetInt`. -/
def intMember (ms : List (Bytes × Json)) (name : Bytes) : Except HTTPCode Int32 :=
  match findMember ms name with
  | some v =>
    match v.getInt with
    | .ok n => .ok n
    | .error _ => .error HTTP_BAD_REQUEST
  | none => .error HTTP_BAD_REQUEST

/-! ## The body -/

/-- The "peers" part of a START or EVENT. `none` is a body without peers, which is not an error;
the "ccf" member then has to be an array of strings, with at least one of them. -/
def parsePeers (body : List (Bytes × Json)) : Except HTTPCode (Option (List Bytes)) :=
  match findMember body (ascii "peers") with
  | some (.obj peers) =>
    match findMember peers (ascii "ccf") with
    | some (.arr (c :: cs)) => do
      let ccfs ← (c :: cs).mapM fun
        | .str s => .ok (cStr s)
        | _ => .error HTTP_BAD_REQUEST
      return some ccfs
    | _ => .error HTTP_BAD_REQUEST
  | _ => .ok none

section Body

variable (P : Platform)

/-- `BillingTask::parse_body`. An error is the status it returns; otherwise it returns `HTTP_OK`,
with a message or without. A body that is no JSON text leaves the document null. -/
def parseBody (callId : Bytes) (timerInterim : Bool) (reqbody : Bytes) :
    Except HTTPCode (Option Message) :=
  match P.parse (cStr reqbody) with
  | some (.obj body) => do
    let event ← objectMember body (ascii "event")
    let serviceInformation ← objectMember event (ascii "Service-Information")
    let imsInformation ← objectMember serviceInformation (ascii "IMS-Information")
    let roleOfNode ← intMember imsInformation (ascii "Role-Of-Node")
    let nodeFunctionality ← intMember imsInformation (ascii "Node-Functionality")
    let recordType := AccountingRecordType.ofInt
      (← intMember event (ascii "Accounting-Record-Type"))
    if !recordType.isValid then .error HTTP_BAD_REQUEST
    else
      let sessionRefreshTime : UInt32 :=
        match intMember event (ascii "Acct-Interim-Interval") with
        | .ok n => n.toUInt32
        | .error _ => 0
      let msg := Message.new callId roleOfNode nodeFunctionality (.obj body) recordType
        sessionRefreshTime timerInterim
      if recordType.isStart || recordType.isEvent then
        match ← parsePeers body with
        | none => .ok none
        | some ccfs => .ok (some { msg with ccfs := ccfs })
      else .ok (some msg)
  | _ => .error HTTP_BAD_REQUEST

/-! ## The task -/

/-- cpp-common's HTTP stack, as far as the task asks it about a request's URI: the last part of its
path, unescaped, and the value of a query parameter. -/
structure HttpStack where
  file : Bytes → Bytes
  param : Bytes → Bytes → Bytes

inductive HttpMethod where
  | post
  | other
  deriving DecidableEq

structure HttpRequest where
  method : HttpMethod
  uri : Bytes
  rxBody : Bytes

def TIMER_INTERIM_PARAM : Bytes := ascii "timer-interim"

/-- `BillingTask::run`: the status it replies with, and the message it gives to the session
manager. -/
def runBillingTask (http : HttpStack) (req : HttpRequest) : HTTPCode × Option Message :=
  if req.method ≠ .post then (405, none)
  else
    let timerInterim := decide (http.param req.uri TIMER_INTERIM_PARAM = ascii "true")
    match parseBody P (http.file req.uri) timerInterim req.rxBody with
    | .error rc => (rc, none)
    | .ok msg => (HTTP_OK, msg)

variable {P}

/-! ## What is accepted -/

/-- The refresh time of a message: the Acct-Interim-Interval of its event, or 0. -/
def acctInterimInterval (event : List (Bytes × Json)) : UInt32 :=
  match intMember event (ascii "Acct-Interim-Interval") with
  | .ok n => n.toUInt32
  | .error _ => 0

theorem ne_nil_of_parsePeers {body : List (Bytes × Json)} {ccfs : List Bytes}
    (h : parsePeers body = .ok (some ccfs)) : ccfs ≠ [] := by
  unfold parsePeers at h
  split at h
  · split at h
    · obtain ⟨ccfs', hccfs, h⟩ := exists_of_bind_ok h
      cases h
      rw [List.mapM_cons] at hccfs
      obtain ⟨c, -, hccfs⟩ := exists_of_bind_ok hccfs
      obtain ⟨cs, -, hccfs⟩ := exists_of_bind_ok hccfs
      cases hccfs
      exact List.cons_ne_nil c cs
    · cases h
  · cases h

/-- What an accepted body is made into: a message with the fields of its event, and with CCFs if it
is a START or an EVENT. -/
theorem parseBody_ok {callId reqbody : Bytes} {timerInterim : Bool} {msg : Message}
    (h : parseBody P callId timerInterim reqbody = .ok (some msg)) :
    ∃ body event role function recordType ccfs,
      P.parse (cStr reqbody) = some (.obj body) ∧
      objectMember body (ascii "event") = .ok event ∧
      recordType.isValid = true ∧
      ((recordType.isStart || recordType.isEvent) = true → ccfs ≠ []) ∧
      msg = { Message.new callId role function (.obj body) recordType (acctInterimInterval event)
        timerInterim with ccfs := ccfs } := by
  unfold parseBody at h
  split at h
  · rename_i body hparse
    obtain ⟨event, hevent, h⟩ := exists_of_bind_ok h
    obtain ⟨_, _, h⟩ := exists_of_bind_ok h
    obtain ⟨_, _, h⟩ := exists_of_bind_ok h
    obtain ⟨role, _, h⟩ := exists_of_bind_ok h
    obtain ⟨function, _, h⟩ := exists_of_bind_ok h
    obtain ⟨type, _, h⟩ := exists_of_bind_ok h
    dsimp only at h
    split_ifs at h with hvalid hfirst
    · obtain ⟨peers, hpeers, h⟩ := exists_of_bind_ok h
      cases peers with
      | none => cases h
      | some ccfs =>
        cases h
        exact ⟨body, event, role, function, _, ccfs, hparse, hevent, by simpa using hvalid,
          fun _ => ne_nil_of_parsePeers hpeers, rfl⟩
    · cases h
      exact ⟨body, event, role, function, _, [], hparse, hevent, by simpa using hvalid,
        fun hf => absurd hf hfirst, rfl⟩
  · cases h

/-! ## The body of a timer callback -/

theorem intMember_of_find {ms : List (Bytes × Json)} {name : Bytes} {x : Int32}
    (h : findMember ms name = some (.int x.toInt)) : intMember ms name = .ok x := by
  unfold intMember
  rw [h]
  have h1 := x.minValue_le_toInt
  have h2 := x.toInt_lt
  simp only [Int32.toInt_minValue] at h1
  have hint : (Json.int x.toInt).isInt = true := by
    simp only [Json.isInt, decide_eq_true_eq]
    omega
  simp [Json.getInt, hint]

theorem plain_opaqueDoc (msg : Message) : (opaqueDoc msg).plain = true := by
  have hrole := plain_int32 msg.role
  have hfunction := plain_int32 msg.function
  simp only [Json.plain] at hrole hfunction
  simp only [opaqueDoc, Json.plain, Json.plainMembers, hrole, hfunction]
  rfl

/-- The body given to a timer is read as an INTERIM of the same role and function, whatever these
are. -/
theorem parseBody_createOpaqueData (callId : Bytes) (timerInterim : Bool) (msg : Message) :
    parseBody P callId timerInterim (createOpaqueData P msg) =
      .ok (some (.new callId msg.role msg.function (opaqueDoc msg) .interim 0 timerInterim)) := by
  unfold parseBody createOpaqueData
  rw [cStr_cStr, cStr_of_nulFree (P.nulFree_write _), P.parse_write _ (plain_opaqueDoc msg)]
  let ims : List (Bytes × Json) := [(ascii "Role-Of-Node", .int msg.role.toInt),
    (ascii "Node-Functionality", .int msg.function.toInt)]
  have hrole : intMember ims (ascii "Role-Of-Node") = .ok msg.role := intMember_of_find rfl
  have hfunction : intMember ims (ascii "Node-Functionality") = .ok msg.function :=
    intMember_of_find rfl
  show (do
    let role ← intMember ims (ascii "Role-Of-Node")
    let function ← intMember ims (ascii "Node-Functionality")
    Except.ok (some (Message.new callId role function (opaqueDoc msg) .interim 0 timerInterim))) = _
  rw [hrole, hfunction]
  rfl

end Body

/-! ## The body of a START -/

/-- A START with one CCF and this Acct-Interim-Interval. -/
def startDoc (acctInterimInterval : Int32) : Json :=
  .obj [
    (ascii "peers", .obj [(ascii "ccf", .arr [.str (ascii "ccf")])]),
    (ascii "event", .obj [
      (ascii "Accounting-Record-Type", .int 2),
      (ascii "Acct-Interim-Interval", .int acctInterimInterval.toInt),
      (ascii "Service-Information", .obj [
        (ascii "IMS-Information", .obj [
          (ascii "Role-Of-Node", .int 0),
          (ascii "Node-Functionality", .int 0)])])])]

def startBody (P : Platform) (acctInterimInterval : Int32) : Bytes :=
  P.write (startDoc acctInterimInterval)

/-- The message of the call `call` that such a body is made into. -/
def startMessage (acctInterimInterval : Int32) : Message :=
  { Message.new (ascii "call") 0 0 (startDoc acctInterimInterval) .start
      acctInterimInterval.toUInt32 false with ccfs := [ascii "ccf"] }

theorem plain_startDoc (n : Int32) : (startDoc n).plain = true := by
  have hn := plain_int32 n
  simp only [Json.plain] at hn
  simp only [startDoc, Json.plain, Json.plainMembers, Json.plainElements, hn]
  rfl

theorem parseBody_startBody (P : Platform) (n : Int32) :
    parseBody P (ascii "call") false (startBody P n) = .ok (some (startMessage n)) := by
  unfold parseBody startBody
  rw [cStr_of_nulFree (P.nulFree_write _), P.parse_write _ (plain_startDoc n)]
  have hn : acctInterimInterval [
      (ascii "Accounting-Record-Type", .int 2),
      (ascii "Acct-Interim-Interval", .int n.toInt),
      (ascii "Service-Information", .obj [
        (ascii "IMS-Information", .obj [
          (ascii "Role-Of-Node", .int 0),
          (ascii "Node-Functionality", .int 0)])])] = n.toUInt32 := by
    unfold acctInterimInterval
    rw [intMember_of_find (x := n) rfl]
  show Except.ok (some ({ Message.new (ascii "call") 0 0 (startDoc n) .start
    (acctInterimInterval _) false with ccfs := [ascii "ccf"] } : Message)) = _
  rw [hn]
  rfl

end Ralf
