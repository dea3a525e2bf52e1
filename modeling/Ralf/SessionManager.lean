import Ralf.SessionStore

/-!
# The session manager

`session_manager.cpp` as a machine. A message is processed by one thread of control, from
`handle` to the end of `on_ccf_response`; between two calls to the outside world (a store, Chronos,
the Diameter sender) its state is a `Pc`, which carries the local variables still needed. `next`
says which call comes next and what is done with its result, and `step` makes the call. Retries,
the recursive ones of `handle` and those of the loops, are transitions back to an earlier `Pc`, so
nothing here assumes that they end.

SAS logging is left out.
-/

namespace Ralf

open Bytes

/-- Stores are referred to by number. -/
abbrev StoreId := ℕ

/-- The contents of every store. -/
abbrev World := StoreId → Store

/-- A `SessionManager`'s stores: the one of its own site and those of the others, in order. -/
structure Site where
  localStore : StoreId
  remoteStores : List StoreId
  nodup : (localStore :: remoteStores).Nodup

/-- All stores of the manager, the local one first. -/
def Site.stores (site : Site) : List StoreId := site.localStore :: site.remoteStores

def Message.key (msg : Message) : Bytes := createKey msg.callId msg.role msg.function

/-- The timer id of a session without a timer. -/
def NO_TIMER : Bytes := ascii "NO_TIMER"

/-- The arguments a timer request carries besides the timer id. -/
structure TimerSpec where
  interval : UInt32
  repeatFor : UInt32
  callbackUri : Bytes
  opaqueData : Bytes
  tags : List (Bytes × UInt32)
  deriving DecidableEq

/-- A request to Chronos. -/
inductive TimerRequest where
  | post (spec : TimerSpec)
  | put (timerId : Bytes) (spec : TimerSpec)
  | delete (timerId : Bytes)
  deriving DecidableEq

/-- What the CCF answered: the arguments of `on_ccf_response`. -/
structure Answer where
  interimInterval : UInt32
  sessionId : Bytes
  rc : Int32

/-- `send_cb` reports an ACR as accepted when its result code is `ER_DIAMETER_SUCCESS`. -/
def Answer.accepted (a : Answer) : Bool := a.rc == 2001

/-- What the outside world contributes to a step. `timer` is the timer id Chronos returns, `none`
when the request fails and the id parameter keeps its value; `newSessionId` is the Session-Id the
Diameter stack makes for an ACR that has none. -/
structure Env where
  store : StoreId → StoreEnv
  timer : Option Bytes
  newSessionId : Bytes
  answer : Answer

/-- What the outside world sees of a step, store operations aside. -/
inductive Event where
  /-- The message is passed to `PeerMessageSender::send`; its ACR carries this Session-Id. -/
  | send (msg : Message) (sessionId : Bytes)
  | timer (req : TimerRequest)
  | healthCheckPassed

/-! ## Control states -/

/-- Where a thread stands: what it calls next, with its local variables. `rest` is the part of a
list of stores that a loop still has in front of it. -/
inductive Pc where
  /-- `handle`, from its start. -/
  | handle (msg : Message)
  /-- `handle`, the loop that looks for the session in the remote stores. -/
  | tryRemotes (msg : Message) (rest : List StoreId)
  /-- `handle`, INTERIM: write the session to the local store. -/
  | updateLocal (msg : Message) (sess : Session) (newSession : Bool)
  /-- `handle`, INTERIM: the loop over the remote stores, before it reads one. -/
  | readRemotes (msg : Message) (sess : Session) (rest : List StoreId)
  /-- `handle`, INTERIM: the same loop, before it writes `store`. -/
  | updateRemote (msg : Message) (sess : Session) (store : StoreId) (rest : List StoreId)
      (remoteSess : Session) (newSession : Bool)
  /-- `handle`, STOP: delete the session from the local store. -/
  | deleteLocal (msg : Message) (sess : Session)
  /-- `handle`, STOP: the loop that deletes it from the remote stores, then the timer. -/
  | deleteRemotes (msg : Message) (sess : Session) (rest : List StoreId)
  /-- `handle`, the call of `PeerMessageSender::send`. -/
  | send (msg : Message)
  /-- The message is with the sender, which calls `on_ccf_response` some time. -/
  | awaitAnswer (msg : Message)
  /-- `on_ccf_response`, result 5002: delete the session everywhere. -/
  | deleteUnknown (msg : Message) (rest : List StoreId)
  /-- `on_ccf_response`, START accepted: ask Chronos for a timer. -/
  | createTimer (msg : Message) (interimInterval : UInt32) (sessionId : Bytes)
  /-- `on_ccf_response`, START accepted: write the new session everywhere. -/
  | writeSession (msg : Message) (sess : Session) (rest : List StoreId)
  /-- `on_ccf_response`, INTERIM: the call of `send_chronos_update`. -/
  | sendChronosUpdate (msg : Message) (interimInterval : UInt32) (accepted : Bool)
  /-- `update_timer_id`, before it reads a store. -/
  | readTimerId (msg : Message) (timerId : Bytes) (rest : List StoreId) (accepted : Bool)
  /-- `update_timer_id`, before it writes `store`. -/
  | writeTimerId (msg : Message) (timerId : Bytes) (store : StoreId) (rest : List StoreId)
      (sess : Session) (accepted : Bool)
  /-- The end of `on_ccf_response`. -/
  | finish (accepted : Bool)
  /-- The message is deleted. -/
  | done
  /-- rapidjson's assertion failed. -/
  | aborted

/-- A call to the outside world, with what follows it. -/
inductive Action where
  | get (store : StoreId) (key : Bytes) (k : Option Session → Pc)
  | set (store : StoreId) (key : Bytes) (sess : Session) (newSession : Bool) (k : Status → Pc)
  | casDelete (store : StoreId) (key : Bytes) (sess : Session) (k : Status → Pc)
  | delete (store : StoreId) (key : Bytes) (k : Status → Pc)
  | timer (req : TimerRequest) (k : Option Bytes → Pc)
  | send (msg : Message) (pc : Pc)
  | answer (k : Answer → Pc)
  | healthCheckPassed (pc : Pc)
  | goto (pc : Pc)

section Program

variable (P : Platform)

/-! ## Straight-line parts -/

/-- `handle`, once the session is found: its number is increased before the ACR is built. -/
def found (msg : Message) (sess : Session) (newSession : Bool) : Pc :=
  let sess := { sess with acctRecordNumber := sess.acctRecordNumber + 1 }
  if msg.recordType.isInterim then .updateLocal msg sess newSession else .deleteLocal msg sess

/-- `handle`, the fields filled in from the session before the message is sent. -/
def fillIn (msg : Message) (sess : Session) : Message :=
  { msg with
    accountingRecordNumber := sess.acctRecordNumber
    ccfs := sess.ccf
    sessionId := sess.sessionId
    timerId := sess.timerId
    sessionRefreshTime :=
      if msg.sessionRefreshTime = 0 then sess.sessionRefreshTime else msg.sessionRefreshTime
    interimInterval := sess.interimInterval }

/-- The document of `create_opaque_data`. -/
def opaqueDoc (msg : Message) : Json :=
  .obj [(ascii "event", .obj [
    (ascii "Service-Information", .obj [
      (ascii "IMS-Information", .obj [
        (ascii "Role-Of-Node", .int msg.role.toInt),
        (ascii "Node-Functionality", .int msg.function.toInt)])]),
    (ascii "Accounting-Record-Type", .int 3)])]

def createOpaqueData (msg : Message) : Bytes := cStr (P.write (opaqueDoc msg))

/-- The arguments of every request that arms a timer. -/
def timerSpec (msg : Message) (interimInterval : UInt32) : TimerSpec where
  interval := interimInterval
  repeatFor := msg.sessionRefreshTime
  callbackUri := ascii "/call-id/" ++ P.urlEscape msg.callId ++ ascii "?timer-interim=true"
  opaqueData := createOpaqueData P msg
  tags := [(ascii "CALL", 1)]

/-- The session an accepted START writes. -/
def startSession (msg : Message) (interimInterval : UInt32) (sessionId timerId : Bytes) :
    Session where
  sessionId := sessionId
  ccf := msg.ccfs
  ecf := []
  acctRecordNumber := msg.accountingRecordNumber
  timerId := timerId
  sessionRefreshTime := msg.sessionRefreshTime
  interimInterval := interimInterval
  cas := 0

/-- The interim interval used when the answer has none: the stored one if there is one, else the
session refresh time. -/
def resolveInterval (msg : Message) (interimInterval : UInt32) : UInt32 :=
  if interimInterval = 0 then
    if msg.interimInterval = 0 then msg.sessionRefreshTime else msg.interimInterval
  else interimInterval

/-- `on_ccf_response`, up to its first call. -/
def onCcfResponse (site : Site) (accepted : Bool) (interimInterval : UInt32) (sessionId : Bytes)
    (rc : Int32) (msg : Message) : Pc :=
  let interimInterval := resolveInterval msg interimInterval
  if accepted then
    if msg.recordType.isInterim && !msg.timerInterim &&
        interimInterval < msg.sessionRefreshTime then
      .sendChronosUpdate msg interimInterval accepted
    else if msg.recordType.isStart then
      if interimInterval < msg.sessionRefreshTime then .createTimer msg interimInterval sessionId
      else .writeSession { msg with timerId := NO_TIMER }
        (startSession msg interimInterval sessionId NO_TIMER) site.stores
    else .finish accepted
  else if msg.recordType.isInterim then
    if rc = 5002 then .deleteUnknown msg site.stores
    else if !msg.timerInterim && interimInterval < msg.sessionRefreshTime then
      .sendChronosUpdate msg interimInterval accepted
    else .finish accepted
  else .finish accepted

/-- The request of `send_chronos_update`. -/
def chronosUpdate (msg : Message) (interimInterval : UInt32) : TimerRequest :=
  if msg.timerId = NO_TIMER then .post (timerSpec P msg interimInterval)
  else .put msg.timerId (timerSpec P msg interimInterval)

/-! ## The machine -/

/-- The next call of a thread, and where its result leads. -/
def next (site : Site) : Pc → Action
  | .handle msg =>
    if msg.recordType.isInterim || msg.recordType.isStop then
      .get site.localStore msg.key fun
        | some sess => found msg sess false
        | none => .tryRemotes msg site.remoteStores
    else .goto (.send { msg with accountingRecordNumber := 1 })
  | .tryRemotes _ [] => .goto .done
  | .tryRemotes msg (s :: rest) =>
    .get s msg.key fun
      | some sess => found msg sess true
      | none => .tryRemotes msg rest
  | .updateLocal msg sess newSession =>
    .set site.localStore msg.key sess newSession fun rc =>
      if rc = .dataContention then .handle msg
      else .readRemotes msg sess site.remoteStores
  | .readRemotes msg sess [] => .goto (.send (fillIn msg sess))
  | .readRemotes msg sess (s :: rest) =>
    .get s msg.key fun
      | none => .updateRemote msg sess s rest sess true
      | some remoteSess =>
        .updateRemote msg sess s rest
          { remoteSess with acctRecordNumber := remoteSess.acctRecordNumber + 1 } false
  | .updateRemote msg sess s rest remoteSess newSession =>
    .set s msg.key remoteSess newSession fun rc =>
      if rc ≠ .dataContention then .readRemotes msg sess rest
      else .readRemotes msg sess (s :: rest)
  | .deleteLocal msg sess =>
    .casDelete site.localStore msg.key sess fun rc =>
      if rc = .dataContention then .handle msg
      else .deleteRemotes msg sess site.remoteStores
  | .deleteRemotes msg sess [] =>
    if sess.timerId ≠ NO_TIMER then
      .timer (.delete sess.timerId) fun _ => .send (fillIn msg sess)
    else .goto (.send (fillIn msg sess))
  | .deleteRemotes msg sess (s :: rest) =>
    .delete s msg.key fun rc =>
      if rc ≠ .dataContention then .deleteRemotes msg sess rest
      else .deleteRemotes msg sess (s :: rest)
  | .send msg => .send msg (.awaitAnswer msg)
  | .awaitAnswer msg =>
    .answer fun a => onCcfResponse site a.accepted a.interimInterval a.sessionId a.rc msg
  | .deleteUnknown _ [] => .goto (.finish false)
  | .deleteUnknown msg (s :: rest) => .delete s msg.key fun _ => .deleteUnknown msg rest
  | .createTimer msg interimInterval sessionId =>
    .timer (.post (timerSpec P msg interimInterval)) fun id =>
      let timerId := id.getD NO_TIMER
      .writeSession { msg with timerId := timerId }
        (startSession msg interimInterval sessionId timerId) site.stores
  | .writeSession _ _ [] => .goto (.finish true)
  | .writeSession msg sess (s :: rest) =>
    .set s msg.key sess true fun _ => .writeSession msg sess rest
  | .sendChronosUpdate msg interimInterval accepted =>
    .timer (chronosUpdate P msg interimInterval) fun id =>
      let timerId := id.getD msg.timerId
      if timerId ≠ msg.timerId then .readTimerId msg timerId site.stores accepted
      else .finish accepted
  | .readTimerId _ _ [] accepted => .goto (.finish accepted)
  | .readTimerId msg timerId (s :: rest) accepted =>
    .get s msg.key fun
      | some sess =>
        .writeTimerId { msg with timerId := timerId } timerId s rest
          { sess with timerId := timerId } accepted
      | none => .readTimerId msg timerId rest accepted
  | .writeTimerId msg timerId s rest sess accepted =>
    .set s msg.key sess false fun _ => .readTimerId msg timerId rest accepted
  | .finish accepted => if accepted then .healthCheckPassed .done else .goto .done
  | .done => .goto .done
  | .aborted => .goto .aborted

/-- The Session-Id of the ACR built from a message: its own, or a new one if it has none. -/
def acrSessionId (env : Env) (msg : Message) : Bytes :=
  if msg.sessionId = [] then env.newSessionId else msg.sessionId

/-- Make a call. -/
def perform (env : Env) (W : World) : Action → Pc × World × List Event
  | .get s key k =>
    match getSessionData P (W s) (env.store s) key with
    | .ok sess => (k sess, W, [])
    | .error _ => (.aborted, W, [])
  | .set s key sess newSession k =>
    let r := setSessionData P (W s) (env.store s) key sess newSession
    (k r.1, Function.update W s r.2, [])
  | .casDelete s key sess k =>
    let r := deleteSessionDataCas (W s) (env.store s) key sess
    (k r.1, Function.update W s r.2, [])
  | .delete s key k =>
    let r := deleteSessionData (W s) (env.store s) key
    (k r.1, Function.update W s r.2, [])
  | .timer req k => (k env.timer, W, [.timer req])
  | .send msg pc => (pc, W, [.send msg (acrSessionId env msg)])
  | .answer k => (k env.answer, W, [])
  | .healthCheckPassed pc => (pc, W, [.healthCheckPassed])
  | .goto pc => (pc, W, [])

/-- One step of a thread. -/
def step (site : Site) (env : Env) (pc : Pc) (W : World) : Pc × World × List Event :=
  perform P env W (next P site pc)

end Program

end Ralf
