import Ralf.Lib.JsonText

/-!
# Messages

The libraries the program is linked against (`Platform`), the accounting record types of Rf
(`rf.h`) and the message a request is turned into (`message.hpp`).
-/

namespace Ralf

open Bytes

/-- The library code the program calls: rapidjson, and cpp-common's URL escaping. -/
structure Platform extends Json.Library where
  urlEscape : Bytes → Bytes

/-- rapidjson's compact texts, and URL escaping for strings that need none. -/
def compactPlatform : Platform where
  toLibrary := JsonText.library
  urlEscape := id

/-- `Rf::AccountingRecordType`. -/
structure AccountingRecordType where
  code : UInt32
  deriving DecidableEq

namespace AccountingRecordType

/-- The constructor, which stores an `int` as `uint32_t`. -/
def ofInt (type : Int32) : AccountingRecordType := ⟨type.toUInt32⟩

def isValid (t : AccountingRecordType) : Bool := t.code ≤ 4 && 1 ≤ t.code
def isEvent (t : AccountingRecordType) : Bool := t.code == 1
def isStart (t : AccountingRecordType) : Bool := t.code == 2
def isInterim (t : AccountingRecordType) : Bool := t.code == 3
def isStop (t : AccountingRecordType) : Bool := t.code == 4

def event : AccountingRecordType := ⟨1⟩
def start : AccountingRecordType := ⟨2⟩
def interim : AccountingRecordType := ⟨3⟩
def stop : AccountingRecordType := ⟨4⟩

theorem isInterim_iff {t : AccountingRecordType} : t.isInterim = true ↔ t = interim := by
  cases t; simp [isInterim, interim]

theorem isStop_iff {t : AccountingRecordType} : t.isStop = true ↔ t = stop := by
  cases t; simp [isStop, stop]

theorem isStart_iff {t : AccountingRecordType} : t.isStart = true ↔ t = start := by
  cases t; simp [isStart, start]

theorem ne_start_of_interim {t : AccountingRecordType} (h : t = interim) : t ≠ start := by
  rw [h]
  decide

theorem ne_stop_of_interim {t : AccountingRecordType} (h : t = interim) : t ≠ stop := by
  rw [h]
  decide

theorem ne_interim_of_stop {t : AccountingRecordType} (h : t = stop) : t ≠ interim := by
  rw [h]
  decide

theorem ne_start_of_stop {t : AccountingRecordType} (h : t = stop) : t ≠ start := by
  rw [h]
  decide

theorem ne_interim_of_start {t : AccountingRecordType} (h : t = start) : t ≠ interim := by
  rw [h]
  decide

theorem ne_stop_of_start {t : AccountingRecordType} (h : t = start) : t ≠ stop := by
  rw [h]
  decide

end AccountingRecordType

/-- `role_of_node_t`. The request's integer is cast without a range check, and printed as a signed
`int` again when a key is made of it. -/
abbrev RoleOfNode := Int32

/-- `node_functionality_t`, cast in the same way. -/
abbrev NodeFunctionality := Int32

/-- `struct Message`. The trail id only goes to the logs. -/
structure Message where
  callId : Bytes
  role : RoleOfNode
  function : NodeFunctionality
  receivedJson : Json
  recordType : AccountingRecordType
  timerInterim : Bool
  ccfs : List Bytes
  sessionId : Bytes
  accountingRecordNumber : UInt32
  timerId : Bytes
  interimInterval : UInt32
  sessionRefreshTime : UInt32

/-- The constructor of `Message`: the strings and lists start empty, the interim interval is 0.
(The record number is left unset; it is filled in before it is read.) -/
def Message.new (callId : Bytes) (role : RoleOfNode) (function : NodeFunctionality) (body : Json)
    (recordType : AccountingRecordType) (sessionRefreshTime : UInt32) (timerInterim : Bool) :
    Message where
  callId := callId
  role := role
  function := function
  receivedJson := body
  recordType := recordType
  timerInterim := timerInterim
  ccfs := []
  sessionId := []
  accountingRecordNumber := 0
  timerId := []
  interimInterval := 0
  sessionRefreshTime := sessionRefreshTime

end Ralf
