import Mathlib.Data.PNat.Basic
import Ralf.Message

/-!
# The session store

`session_store.cpp` over one underlying `Store`: the stored session and its JSON form, the keys,
and the four operations. The underlying store is cpp-common's; what the program relies on is its
compare-and-set rule, `Store.setData`.
-/

namespace Ralf

open Bytes

/-! ## The underlying store -/

/-- `Store::Status`. -/
inductive Status where
  | ok
  | notFound
  | error
  | dataContention
  deriving DecidableEq

/-- A live record: its data and its CAS value, which is never 0. -/
structure Record where
  data : Bytes
  cas : ℕ+
  deriving DecidableEq

/-- A store: the live record under each key, and every CAS value it has given out. -/
structure Store where
  record : Bytes → Option Record
  issued : List ℕ

/-- What the store contributes to one call: whether it can be reached, and the CAS value a
successful write gets. -/
structure StoreEnv where
  down : Bool
  cas : ℕ+

/-- A store that can be reached. The CAS value only matters to a write. -/
def StoreEnv.up : StoreEnv := ⟨false, 1⟩

@[simp] theorem StoreEnv.up_down : StoreEnv.up.down = false := rfl

namespace Store

def getData (st : Store) (env : StoreEnv) (key : Bytes) : Except Status Record :=
  if env.down then .error .error
  else match st.record key with
    | some r => .ok r
    | none => .error .notFound

/-- Put a record under `key`. A record written with an expiry that is not positive is not live. -/
def put (st : Store) (env : StoreEnv) (key data : Bytes) (expiry : Int32) : Store where
  record := Function.update st.record key (if 0 < expiry then some ⟨data, env.cas⟩ else none)
  issued := env.cas :: st.issued

/-- The compare-and-set rule: a CAS of 0 adds where there is no live record, any other CAS
replaces the record that has it. -/
def setData (st : Store) (env : StoreEnv) (key data : Bytes) (cas : ℕ) (expiry : Int32) :
    Status × Store :=
  if env.down then (.error, st)
  else match st.record key with
    | some r => if cas = r.cas then (.ok, st.put env key data expiry) else (.dataContention, st)
    | none => if cas = 0 then (.ok, st.put env key data expiry) else (.dataContention, st)

def deleteData (st : Store) (env : StoreEnv) (key : Bytes) : Status × Store :=
  if env.down then (.error, st)
  else (.ok, { st with record := Function.update st.record key none })

/-- A write changes nothing or goes through. -/
theorem setData_cases (st : Store) (env : StoreEnv) (key data : Bytes) (cas : ℕ) (expiry : Int32) :
    (st.setData env key data cas expiry).2 = st ∨
      (st.setData env key data cas expiry).2 = st.put env key data expiry := by
  unfold Store.setData
  by_cases hdown : env.down = true
  · rw [if_pos hdown]
    exact .inl rfl
  · rw [if_neg hdown]
    cases st.record key with
    | none =>
      dsimp only
      split_ifs
      · exact .inr rfl
      · exact .inl rfl
    | some r =>
      dsimp only
      split_ifs
      · exact .inr rfl
      · exact .inl rfl

/-- A write that succeeds goes through. -/
theorem setData_of_ok {st : Store} {env : StoreEnv} {key data : Bytes} {cas : ℕ} {expiry : Int32}
    (h : (st.setData env key data cas expiry).1 = .ok) :
    (st.setData env key data cas expiry).2 = st.put env key data expiry := by
  unfold Store.setData at h ⊢
  by_cases hdown : env.down = true
  · rw [if_pos hdown] at h
    cases h
  · rw [if_neg hdown] at h ⊢
    cases hrec : st.record key with
    | none =>
      rw [hrec] at h
      dsimp only at h ⊢
      split_ifs at h ⊢
      rfl
    | some r =>
      rw [hrec] at h
      dsimp only at h ⊢
      split_ifs at h ⊢
      rfl

end Store

/-! ## Sessions -/

/-- `SessionStore::Session`. `cas` is the private `_cas`, 0 in a new object. -/
structure Session where
  sessionId : Bytes
  ccf : List Bytes
  ecf : List Bytes
  acctRecordNumber : UInt32
  timerId : Bytes
  sessionRefreshTime : UInt32
  interimInterval : UInt32
  cas : ℕ
  deriving DecidableEq

def createKey (callId : Bytes) (role : RoleOfNode) (function : NodeFunctionality) : Bytes :=
  callId ++ decimal role.toInt ++ decimal function.toInt

/-! ## The JSON form -/

def jsonSessionId : Bytes := ascii "session_id"
def jsonCcfs : Bytes := ascii "ccfs"
def jsonAcctRecordNum : Bytes := ascii "acct_record_num"
def jsonTimerId : Bytes := ascii "timer_id"
def jsonRefreshTime : Bytes := ascii "refresh_time"
def jsonInterimInterval : Bytes := ascii "interim_interval"

/-- The document `serialize_session` hands to the writer. Strings go through `c_str()`, and the
unsigned numbers are written as `int`. -/
def sessionDoc (sess : Session) : Json :=
  .obj [
    (jsonSessionId, .str (cStr sess.sessionId)),
    (jsonCcfs, .arr (sess.ccf.map fun ccf => .str (cStr ccf))),
    (jsonAcctRecordNum, .int sess.acctRecordNumber.toInt32.toInt),
    (jsonTimerId, .str (cStr sess.timerId)),
    (jsonRefreshTime, .int sess.sessionRefreshTime.toInt32.toInt),
    (jsonInterimInterval, .int sess.interimInterval.toInt32.toInt)]

/-- The `try` block of `deserialize_session`. -/
def readSession (doc : Json) : Except JsonError Session := do
  let sessionId ← doc.getStringMember jsonSessionId
  doc.assertContains jsonCcfs
  let ccfs ← doc.member jsonCcfs
  ccfs.assertArray
  let ccf ← (← ccfs.elements).mapM fun c => do
    c.assertString
    c.getString
  let acctRecordNumber ← doc.getIntMember jsonAcctRecordNum
  let timerId ← doc.getStringMember jsonTimerId
  let sessionRefreshTime ← doc.getIntMember jsonRefreshTime
  let interimInterval ← doc.getIntMember jsonInterimInterval
  return {
    sessionId := sessionId
    ccf := ccf
    ecf := []
    acctRecordNumber := acctRecordNumber.toUInt32
    timerId := timerId
    sessionRefreshTime := sessionRefreshTime.toUInt32
    interimInterval := interimInterval.toUInt32
    cas := 0 }

section Operations

variable (P : Platform)

def serializeSession (sess : Session) : Bytes := cStr (P.write (sessionDoc sess))

/-- `none` is NULL. A `JsonFormatError` is caught; a failed assertion inside rapidjson is not. -/
def deserializeSession (data : Bytes) : Except JsonError (Option Session) :=
  match P.parse (cStr data) with
  | none => .ok none
  | some doc =>
    match readSession doc with
    | .ok sess => .ok (some sess)
    | .error .format => .ok none
    | .error .assertion => .error .assertion

/-! ## The operations -/

def getSessionData (st : Store) (env : StoreEnv) (key : Bytes) :
    Except JsonError (Option Session) :=
  match st.getData env key with
  | .error _ => .ok none
  | .ok r =>
    if r.data = [] then .ok none
    else do
      match ← deserializeSession P r.data with
      | some sess => return some { sess with cas := r.cas }
      | none => return none

/-- The expiry passed on: `2 * session_refresh_time` in `uint32_t`, received as an `int`. -/
def Session.expiry (sess : Session) : Int32 := (2 * sess.sessionRefreshTime).toInt32

def setSessionData (st : Store) (env : StoreEnv) (key : Bytes) (sess : Session)
    (newSession : Bool) : Status × Store :=
  let cas := if newSession then 0 else sess.cas
  st.setData env key (serializeSession P sess) cas sess.expiry

/-- The safe `delete_session_data`: it writes an empty record that expires at once. -/
def deleteSessionDataCas (st : Store) (env : StoreEnv) (key : Bytes) (sess : Session) :
    Status × Store :=
  st.setData env key [] sess.cas 0

/-- The aggressive `delete_session_data`. -/
def deleteSessionData (st : Store) (env : StoreEnv) (key : Bytes) : Status × Store :=
  st.deleteData env key

end Operations

end Ralf
