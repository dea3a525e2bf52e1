import Ralf.Decoding

/-!
# What the HTTP handler accepts

`BillingTask::parse_body` again, this time accessor by accessor: `BillingTask.parseBody` makes the
lookups the source makes, in its order, and each of them is only defined on a value of its own type.
`parseBody_eq` says that none of them ever fails and that the result is that of `parseBody`, and
`parseBody_outcomes` which bodies are rejected, which are dropped and which are made into a message.
-/

namespace Ralf

open Bytes Json

/-! ## The function -/

/-- `parse_body` before it has returned. The error of the outer computation is the status of an
early return, which leaves no message. -/
abbrev Parsing := ExceptT HTTPCode (Except JsonError)

namespace BillingTask

/-- A member that is checked for, and then used. -/
def requireMember (type : Json → Bool) (v : Json) (name : Bytes) : Parsing Json := do
  if ← hasMemberOf type v name then v.member name
  else throw HTTP_BAD_REQUEST

/-- A member that is found by `FindMember`, and has to be an `int`. -/
def findInt (v : Json) (name : Bytes) : Parsing Int32 := do
  match ← v.findMember name with
  | none => throw HTTP_BAD_REQUEST
  | some m => if m.isInt then m.getInt else throw HTTP_BAD_REQUEST

def readRecordType (event : Json) : Parsing AccountingRecordType := do
  let type ← (← requireMember isInt event (ascii "Accounting-Record-Type")).getInt
  let recordType := AccountingRecordType.ofInt type
  if recordType.isValid then return recordType
  else throw HTTP_BAD_REQUEST

def readRefreshTime (event : Json) : Except JsonError UInt32 := do
  if ← hasMemberOf isInt event (ascii "Acct-Interim-Interval") then
    let n ← (← event.member (ascii "Acct-Interim-Interval")).getInt
    return n.toUInt32
  else return 0

/-- The `for` loop over the "ccf" array, with `n` elements left from the index `i` on. -/
def readCcfs (body : Json) (i : ℕ) (ccfs : List Bytes) : ℕ → Parsing (List Bytes)
  | 0 => return ccfs
  | n + 1 => do
    let peers ← body.member (ascii "peers")
    let ccf ← (← peers.member (ascii "ccf")).element i
    if ccf.isString then
      let s ← ccf.getString
      readCcfs body (i + 1) (ccfs ++ [s]) n
    else throw HTTP_BAD_REQUEST

/-- The "peers" block of a START or an EVENT. -/
def readPeers (body : Json) : Parsing (List Bytes) := do
  if ← hasMemberOf isObject body (ascii "peers") then
    let peers ← body.member (ascii "peers")
    let ccf ← requireMember isArray peers (ascii "ccf")
    let size ← ccf.size
    if size = 0 then throw HTTP_BAD_REQUEST
    else readCcfs body 0 [] size
  else throw HTTP_OK

/-- The function from the first check of the document on. -/
def readMessage (callId : Bytes) (timerInterim : Bool) (body : Json) : Parsing Message := do
  if body.isObject then
    let event ← requireMember isObject body (ascii "event")
    let serviceInformation ← requireMember isObject event (ascii "Service-Information")
    let imsInformation ← requireMember isObject serviceInformation (ascii "IMS-Information")
    let roleOfNode ← findInt imsInformation (ascii "Role-Of-Node")
    let nodeFunctionality ← findInt imsInformation (ascii "Node-Functionality")
    let recordType ← readRecordType event
    let sessionRefreshTime ← readRefreshTime event
    let ccfs ← (if recordType.isStart || recordType.isEvent then readPeers body else pure [])
    let msg := Message.new callId roleOfNode nodeFunctionality body recordType sessionRefreshTime
      timerInterim
    return if ccfs.isEmpty then msg else { msg with ccfs := ccfs }
  else throw HTTP_BAD_REQUEST

section Parse

variable (P : Platform)

/-- `BillingTask::parse_body`: the status it returns, and `*msg`. A text that does not parse leaves
the document null. -/
def parseBody (callId : Bytes) (timerInterim : Bool) (reqbody : Bytes) :
    Except JsonError (HTTPCode × Option Message) := do
  let body := (P.parse (cStr reqbody)).getD .null
  match ← (readMessage callId timerInterim body).run with
  | .error rc => return (rc, none)
  | .ok msg => return (HTTP_OK, some msg)

end Parse

/-! ## No lookup fails -/

section Runs

variable {α β γ : Type} {body : List (Bytes × Json)}

theorem lift_bind {v : Except JsonError α} {a : α} (h : v = .ok a) (f : α → Parsing β) :
    (liftM v : Parsing α) >>= f = f a := by
  rw [h]
  rfl

/-- One part after another: what the parts come to in `parseBody`, the whole comes to. -/
theorem run_bind_map {x : Parsing α} {f : α → Parsing β} {y : Except HTTPCode γ} {h : γ → α}
    {g : γ → Except HTTPCode β} (hx : x.run = .ok (y.map h))
    (hf : ∀ c, y = .ok c → (f (h c)).run = .ok (g c)) : (x >>= f).run = .ok (y >>= g) := by
  change x = .ok (y.map h) at hx
  rw [hx]
  cases y with
  | error rc => rfl
  | ok c => exact hf c rfl

theorem run_bind {x : Parsing α} {f : α → Parsing β} {y : Except HTTPCode α}
    {g : α → Except HTTPCode β} (hx : x.run = .ok y)
    (hf : ∀ a, y = .ok a → (f a).run = .ok (g a)) : (x >>= f).run = .ok (y >>= g) := by
  refine run_bind_map (h := id) ?_ hf
  rw [hx]
  cases y with
  | error rc => rfl
  | ok a => rfl

theorem run_requireMember_object (ms : List (Bytes × Json)) (name : Bytes) :
    (requireMember isObject (.obj ms) name).run = .ok ((objectMember ms name).map Json.obj) := by
  have hfind := findMember_obj ms name
  unfold requireMember objectMember
  rw [lift_bind (hasMemberOf_of_findMember hfind)]
  cases hv : findMember ms name with
  | none => rfl
  | some v =>
    rw [hv] at hfind
    cases v with
    | obj ms' =>
      rw [member_of_findMember hfind]
      rfl
    | _ => rfl

/-- A member that is an `int` can be read, and any other member is not looked at again. -/
theorem intMember_cases (ms : List (Bytes × Json)) (name : Bytes) :
    (∃ v n, findMember ms name = some v ∧ v.isInt = true ∧ v.getInt = .ok n ∧
      intMember ms name = .ok n) ∨
    (findMember ms name).any isInt = false ∧ intMember ms name = .error HTTP_BAD_REQUEST := by
  unfold intMember
  cases findMember ms name with
  | none => exact .inr ⟨rfl, rfl⟩
  | some v =>
    cases v with
    | int n =>
      by_cases hint : (Json.int n).isInt = true
      · have hget : (Json.int n).getInt = .ok (Int32.ofInt n) := by
          simp only [getInt, hint, if_true]
        exact .inl ⟨_, _, rfl, hint, hget, by simp only [hget]⟩
      · have hget : (Json.int n).getInt = .error .assertion := by
          simp only [getInt, hint, Bool.false_eq_true, if_false]
        exact .inr ⟨by simpa using hint, by simp only [hget]⟩
    | _ => exact .inr ⟨rfl, rfl⟩

theorem run_findInt (ms : List (Bytes × Json)) (name : Bytes) :
    (findInt (.obj ms) name).run = .ok (intMember ms name) := by
  unfold findInt
  rw [lift_bind (findMember_obj ms name)]
  obtain ⟨v, n, hv, hint, hget, hmem⟩ | ⟨hv, hmem⟩ := intMember_cases ms name
  · rw [hv, hmem]
    dsimp only
    rw [if_pos hint, hget]
    rfl
  · rw [hmem]
    cases hfind : findMember ms name with
    | none => rfl
    | some v =>
      rw [hfind, Option.any_some] at hv
      dsimp only
      rw [hv]
      rfl

theorem run_readRecordType (event : List (Bytes × Json)) :
    (readRecordType (.obj event)).run =
      .ok (intMember event (ascii "Accounting-Record-Type") >>= fun n =>
        if (AccountingRecordType.ofInt n).isValid then .ok (AccountingRecordType.ofInt n)
        else .error HTTP_BAD_REQUEST) := by
  have hfind := findMember_obj event (ascii "Accounting-Record-Type")
  unfold readRecordType requireMember
  rw [lift_bind (hasMemberOf_of_findMember hfind)]
  obtain ⟨v, n, hv, hint, hget, hmem⟩ | ⟨hv, hmem⟩ :=
    intMember_cases event (ascii "Accounting-Record-Type")
  · rw [hv] at hfind ⊢
    rw [Option.any_some, if_pos hint, lift_bind (member_of_findMember hfind), lift_bind hget, hmem]
    by_cases hvalid : (AccountingRecordType.ofInt n).isValid = true
    · show ExceptT.run (if _ then _ else _) = Except.ok (if _ then _ else _)
      rw [if_pos hvalid, if_pos hvalid]
      rfl
    · show ExceptT.run (if _ then _ else _) = Except.ok (if _ then _ else _)
      rw [if_neg hvalid, if_neg hvalid]
      rfl
  · rw [hv, hmem]
    rfl

theorem readRefreshTime_obj (event : List (Bytes × Json)) :
    readRefreshTime (.obj event) = .ok (acctInterimInterval event) := by
  have hfind := findMember_obj event (ascii "Acct-Interim-Interval")
  unfold readRefreshTime acctInterimInterval
  rw [hasMemberOf_of_findMember hfind]
  obtain ⟨v, n, hv, hint, hget, hmem⟩ | ⟨hv, hmem⟩ :=
    intMember_cases event (ascii "Acct-Interim-Interval")
  · rw [hv] at hfind ⊢
    rw [Option.any_some, hint, member_of_findMember hfind, hmem]
    show (v.getInt >>= fun n => Except.ok n.toUInt32) = _
    rw [hget]
    rfl
  · rw [hv, hmem]
    rfl

/-- An element of the "ccf" array, as `parsePeers` reads it. -/
def ccfOf : Json → Except HTTPCode Bytes
  | .str s => .ok (cStr s)
  | _ => .error HTTP_BAD_REQUEST

/-- The loop reads the elements in order, and stops at the first that is no string. -/
theorem run_readCcfs {peers : List (Bytes × Json)} {xs : List Json}
    (hpeers : findMember body (ascii "peers") = some (.obj peers))
    (hccf : findMember peers (ascii "ccf") = some (.arr xs)) (n i : ℕ) (acc : List Bytes)
    (hn : i + n = xs.length) :
    (readCcfs (.obj body) i acc n).run =
      .ok ((xs.drop i).mapM ccfOf >>= fun ccfs => .ok (acc ++ ccfs)) := by
  induction n generalizing i acc with
  | zero =>
    rw [List.drop_eq_nil_of_le (by omega)]
    simp [readCcfs, Bind.bind, Except.bind, pure, Except.pure, ExceptT.pure, ExceptT.mk, ExceptT.run]
  | succ n ih =>
    have hi : i < xs.length := by omega
    have helem : (Json.arr xs).element i = .ok xs[i] := by
      simp only [element, List.getElem?_eq_getElem hi]
    have hpeers' := (findMember_obj body (ascii "peers")).trans (congrArg _ hpeers)
    have hccf' := (findMember_obj peers (ascii "ccf")).trans (congrArg _ hccf)
    rw [readCcfs, lift_bind (member_of_findMember hpeers'), lift_bind (member_of_findMember hccf'),
      lift_bind helem, List.drop_eq_getElem_cons hi, List.mapM_cons]
    cases hx : xs[i] with
    | str s =>
      have hrest := ih (i + 1) (acc ++ [cStr s]) (by omega)
      rw [if_pos (show (Json.str s).isString = true from rfl),
        lift_bind (show (Json.str s).getString = .ok (cStr s) from rfl), hrest]
      cases (xs.drop (i + 1)).mapM ccfOf with
      | error rc => rfl
      | ok ccfs =>
        show Except.ok (Except.ok (acc ++ [cStr s] ++ ccfs)) =
          Except.ok (Except.ok (acc ++ cStr s :: ccfs))
        rw [List.append_assoc, List.singleton_append]
    | _ => rfl

/-- A body without peers is an early return, too, though not with an error. -/
def peersOrReturn : Option (List Bytes) → Except HTTPCode (List Bytes)
  | some ccfs => .ok ccfs
  | none => .error HTTP_OK

theorem parsePeers_obj {peers : List (Bytes × Json)}
    (hpeers : findMember body (ascii "peers") = some (.obj peers)) :
    parsePeers body =
      match findMember peers (ascii "ccf") with
      | some (.arr (c :: cs)) => (c :: cs).mapM ccfOf >>= fun ccfs => .ok (some ccfs)
      | _ => .error HTTP_BAD_REQUEST := by
  unfold parsePeers
  rw [hpeers]
  rfl

theorem run_readPeers (body : List (Bytes × Json)) :
    (readPeers (.obj body)).run = .ok (parsePeers body >>= peersOrReturn) := by
  have hfind := findMember_obj body (ascii "peers")
  unfold readPeers
  rw [lift_bind (hasMemberOf_of_findMember hfind)]
  cases hv : findMember body (ascii "peers") with
  | none =>
    unfold parsePeers
    rw [hv]
    rfl
  | some v =>
    rw [hv] at hfind
    cases v with
    | obj peers =>
      have hccf := findMember_obj peers (ascii "ccf")
      have hobj : (Json.obj peers).isObject = true := rfl
      rw [parsePeers_obj hv, Option.any_some, if_pos hobj, lift_bind (member_of_findMember hfind)]
      unfold requireMember
      rw [lift_bind (hasMemberOf_of_findMember hccf)]
      cases hc : findMember peers (ascii "ccf") with
      | none => rfl
      | some c =>
        rw [hc] at hccf
        cases c with
        | arr xs =>
          have harr : (Json.arr xs).isArray = true := rfl
          rw [Option.any_some, if_pos harr, lift_bind (member_of_findMember hccf),
            lift_bind (show (Json.arr xs).size = .ok xs.length from rfl)]
          cases xs with
          | nil => rfl
          | cons x xs =>
            rw [if_neg (List.length_eq_zero_iff.not.mpr (List.cons_ne_nil x xs)),
              run_readCcfs hv hc _ 0 [] (Nat.zero_add _), List.drop_zero]
            dsimp only
            cases (x :: xs).mapM ccfOf with
            | error rc => rfl
            | ok ccfs => rfl
        | _ => rfl
    | _ =>
      unfold parsePeers
      rw [hv]
      rfl

/-- A body that is dropped, too, is an early return. -/
def messageOrReturn : Option Message → Except HTTPCode Message
  | some msg => .ok msg
  | none => .error HTTP_OK

/-- The end of `parseBody`: the CCFs of a message that needs some. -/
def withPeers (body : List (Bytes × Json)) (msg : Message) : Except HTTPCode (Option Message) :=
  if msg.recordType.isStart || msg.recordType.isEvent then do
    match ← parsePeers body with
    | none => .ok none
    | some ccfs => .ok (some { msg with ccfs := ccfs })
  else .ok (some msg)

theorem run_readPeers_message (body : List (Bytes × Json)) (msg : Message) :
    ExceptT.run (do
      let ccfs ← (if msg.recordType.isStart || msg.recordType.isEvent then readPeers (.obj body)
        else pure [])
      return if ccfs.isEmpty then msg else { msg with ccfs := ccfs }) =
    .ok (withPeers body msg >>= messageOrReturn) := by
  unfold withPeers
  by_cases hfirst : (msg.recordType.isStart || msg.recordType.isEvent) = true
  · rw [if_pos hfirst, if_pos hfirst]
    have hrun := run_readPeers body
    change readPeers (.obj body) = _ at hrun
    rw [hrun]
    cases hpeers : parsePeers body with
    | error rc => rfl
    | ok peers =>
      cases peers with
      | none => rfl
      | some ccfs =>
        have hccfs : ccfs.isEmpty = false := by
          simpa using ne_nil_of_parsePeers hpeers
        show Except.ok (Except.ok (if ccfs.isEmpty then msg else { msg with ccfs := ccfs })) = _
        rw [hccfs]
        rfl
  · rw [if_neg hfirst, if_neg hfirst]
    rfl

variable (P : Platform) in
/-- `parseBody` on a JSON object, with its end split off. -/
theorem parseBody_obj {callId reqbody : Bytes} {timerInterim : Bool}
    (h : P.parse (cStr reqbody) = some (.obj body)) :
    Ralf.parseBody P callId timerInterim reqbody = (do
      let event ← objectMember body (ascii "event")
      let serviceInformation ← objectMember event (ascii "Service-Information")
      let imsInformation ← objectMember serviceInformation (ascii "IMS-Information")
      let roleOfNode ← intMember imsInformation (ascii "Role-Of-Node")
      let nodeFunctionality ← intMember imsInformation (ascii "Node-Functionality")
      let type ← intMember event (ascii "Accounting-Record-Type")
      if (AccountingRecordType.ofInt type).isValid then
        withPeers body (.new callId roleOfNode nodeFunctionality (.obj body) (.ofInt type)
          (acctInterimInterval event) timerInterim)
      else .error HTTP_BAD_REQUEST) := by
  unfold Ralf.parseBody
  rw [h]
  refine bind_congr fun event => bind_congr fun _ => bind_congr fun _ => bind_congr fun _ =>
    bind_congr fun _ => bind_congr fun type => ?_
  dsimp only
  cases (AccountingRecordType.ofInt type).isValid with
  | false => rfl
  | true => rfl

end Runs

variable {P : Platform}

/-- **No lookup of the handler fails**, and what it returns is what `parseBody` says. -/
theorem parseBody_eq (callId : Bytes) (timerInterim : Bool) (reqbody : Bytes) :
    BillingTask.parseBody P callId timerInterim reqbody =
      .ok (match Ralf.parseBody P callId timerInterim reqbody with
        | .error rc => (rc, none)
        | .ok msg => (HTTP_OK, msg)) := by
  have hrun : (readMessage callId timerInterim ((P.parse (cStr reqbody)).getD .null)).run =
      .ok (Ralf.parseBody P callId timerInterim reqbody >>= messageOrReturn) := by
    cases hparse : P.parse (cStr reqbody) with
    | none =>
      unfold Ralf.parseBody
      rw [hparse]
      rfl
    | some doc =>
      cases doc with
      | obj body =>
        unfold readMessage
        rw [Option.getD_some, if_pos (show (Json.obj body).isObject = true from rfl),
          parseBody_obj P hparse]
        simp only [bind_assoc]
        refine run_bind_map (run_requireMember_object body _) fun event _ => ?_
        refine run_bind_map (run_requireMember_object event _) fun serviceInformation _ => ?_
        refine run_bind_map (run_requireMember_object serviceInformation _) fun ims _ => ?_
        refine run_bind (run_findInt ims _) fun role _ => ?_
        refine run_bind (run_findInt ims _) fun function _ => ?_
        refine (run_bind (run_readRecordType event) (g := fun recordType =>
          withPeers body (.new callId role function (.obj body) recordType
            (acctInterimInterval event) timerInterim) >>= messageOrReturn)
          fun recordType _ => ?_).trans ?_
        · rw [lift_bind (readRefreshTime_obj event)]
          exact run_readPeers_message body (.new callId role function (.obj body) recordType
            (acctInterimInterval event) timerInterim)
        · rw [bind_assoc]
          refine congrArg _ (bind_congr fun type => ?_)
          split_ifs with hvalid
          · rfl
          · rfl
      | _ =>
        unfold Ralf.parseBody
        rw [hparse]
        rfl
  unfold BillingTask.parseBody
  dsimp only
  rw [hrun]
  cases Ralf.parseBody P callId timerInterim reqbody with
  | error rc => rfl
  | ok msg =>
    cases msg with
    | none => rfl
    | some msg => rfl

/-! ## What is accepted -/

section Acceptance

/-- A body whose event passes all checks. A member is an `int` with the value `x` if it is the JSON
number `x.toInt`. -/
structure ValidEvent (P : Platform) (reqbody : Bytes) (body event : List (Bytes × Json))
    (role : RoleOfNode) (function : NodeFunctionality) (type : Int32) : Prop where
  parse : P.parse (cStr reqbody) = some (.obj body)
  eventMember : findMember body (ascii "event") = some (.obj event)
  imsInformation : ∃ serviceInformation ims,
    findMember event (ascii "Service-Information") = some (.obj serviceInformation) ∧
      findMember serviceInformation (ascii "IMS-Information") = some (.obj ims) ∧
      findMember ims (ascii "Role-Of-Node") = some (.int role.toInt) ∧
      findMember ims (ascii "Node-Functionality") = some (.int function.toInt)
  recordType : findMember event (ascii "Accounting-Record-Type") = some (.int type.toInt)
  range : 1 ≤ type.toInt ∧ type.toInt ≤ 4

/-- START and EVENT, the types that come with their peers. -/
def NeedsPeers (type : Int32) : Prop := type = 1 ∨ type = 2

/-- The "ccf" member is an array of strings, and not empty. -/
def HasCcfs (peers : List (Bytes × Json)) (cs : List Bytes) : Prop :=
  findMember peers (ascii "ccf") = some (.arr (cs.map .str)) ∧ cs ≠ []

/-- The refresh time of an event: its Acct-Interim-Interval, or 0 if that is no `int`. -/
def RefreshTime (event : List (Bytes × Json)) (t : UInt32) : Prop :=
  (∃ n : Int32, findMember event (ascii "Acct-Interim-Interval") = some (.int n.toInt) ∧
    t = n.toUInt32) ∨
  (¬∃ n : Int32, findMember event (ascii "Acct-Interim-Interval") = some (.int n.toInt)) ∧ t = 0

/-- A body that is answered with 400: its event fails a check, or it is a START or an EVENT whose
peers have no list of CCFs. -/
def Rejected (P : Platform) (reqbody : Bytes) : Prop :=
  (¬∃ body event role function type, ValidEvent P reqbody body event role function type) ∨
  ∃ body event role function type peers, ValidEvent P reqbody body event role function type ∧
    NeedsPeers type ∧ findMember body (ascii "peers") = some (.obj peers) ∧ ¬∃ cs, HasCcfs peers cs

/-- A body that is answered with 200 and dropped: a START or an EVENT without peers. -/
def Dropped (P : Platform) (reqbody : Bytes) : Prop :=
  ∃ body event role function type, ValidEvent P reqbody body event role function type ∧
    NeedsPeers type ∧ ¬∃ peers, findMember body (ascii "peers") = some (.obj peers)

/-- A message with exactly the fields of the body. -/
def IsMessageOf (P : Platform) (callId : Bytes) (timerInterim : Bool) (reqbody : Bytes)
    (msg : Message) : Prop :=
  ∃ body event role function type t ccfs, ValidEvent P reqbody body event role function type ∧
    RefreshTime event t ∧
    (NeedsPeers type → ∃ peers cs, findMember body (ascii "peers") = some (.obj peers) ∧
      HasCcfs peers cs ∧ ccfs = cs.map cStr) ∧
    (¬NeedsPeers type → ccfs = []) ∧
    msg = { Message.new callId role function (.obj body) (.ofInt type) t timerInterim with
      ccfs := ccfs }

/-! ### The members -/

theorem objectMember_cases (ms : List (Bytes × Json)) (name : Bytes) :
    (∃ ms', findMember ms name = some (.obj ms') ∧ objectMember ms name = .ok ms') ∨
    (¬∃ ms', findMember ms name = some (.obj ms')) ∧
      objectMember ms name = .error HTTP_BAD_REQUEST := by
  unfold objectMember
  cases findMember ms name with
  | none => exact .inr ⟨by simp, rfl⟩
  | some v =>
    cases v with
    | obj ms' => exact .inl ⟨ms', rfl, rfl⟩
    | _ => exact .inr ⟨by simp, rfl⟩

/-- What `GetInt` reads is the value of the number. -/
theorem eq_int_of_getInt {v : Json} {n : Int32} (h : v.getInt = .ok n) : v = .int n.toInt := by
  cases v with
  | int m =>
    by_cases hint : (Json.int m).isInt = true
    · simp only [getInt, hint, if_true, Except.ok.injEq] at h
      simp only [isInt, decide_eq_true_eq] at hint
      rw [← h, Int32.toInt_ofInt_of_le (by omega) (by omega)]
    · simp only [getInt, hint, Bool.false_eq_true, if_false] at h
      cases h
  | _ => cases h

theorem intMember_cases_int32 (ms : List (Bytes × Json)) (name : Bytes) :
    (∃ x : Int32, findMember ms name = some (.int x.toInt) ∧ intMember ms name = .ok x) ∨
    (¬∃ x : Int32, findMember ms name = some (.int x.toInt)) ∧
      intMember ms name = .error HTTP_BAD_REQUEST := by
  obtain ⟨v, n, hv, -, hget, hmem⟩ | ⟨hv, hmem⟩ := intMember_cases ms name
  · rw [eq_int_of_getInt hget] at hv
    exact .inl ⟨n, hv, hmem⟩
  · refine .inr ⟨?_, hmem⟩
    rintro ⟨x, hx⟩
    rw [hx, Option.any_some, isInt_int32] at hv
    cases hv

theorem refreshTime_acctInterimInterval (event : List (Bytes × Json)) :
    RefreshTime event (acctInterimInterval event) := by
  unfold acctInterimInterval
  obtain ⟨n, hn, hmem⟩ | ⟨hn, hmem⟩ := intMember_cases_int32 event (ascii "Acct-Interim-Interval")
  · rw [hmem]
    exact .inl ⟨n, hn, rfl⟩
  · rw [hmem]
    exact .inr ⟨hn, rfl⟩

/-! ### The record type -/

theorem isValid_ofInt (type : Int32) :
    (AccountingRecordType.ofInt type).isValid = true ↔ 1 ≤ type.toInt ∧ type.toInt ≤ 4 := by
  have hlt := type.toUInt32.toNat_lt
  have h4 : type.toUInt32 ≤ 4 ↔ type.toUInt32.toNat ≤ 4 := UInt32.le_iff_toNat_le
  have h1 : 1 ≤ type.toUInt32 ↔ 1 ≤ type.toUInt32.toNat := UInt32.le_iff_toNat_le
  rw [AccountingRecordType.isValid, Bool.and_eq_true, decide_eq_true_iff, decide_eq_true_iff]
  change type.toUInt32 ≤ 4 ∧ 1 ≤ type.toUInt32 ↔ _
  rw [h4, h1, toInt_eq_bmod, Int.bmod]
  omega

theorem toUInt32_eq_iff {x y : Int32} : x.toUInt32 = y.toUInt32 ↔ x = y := by
  refine ⟨fun h => ?_, congrArg _⟩
  have h' := congrArg UInt32.toInt32 h
  rwa [Int32.toInt32_toUInt32, Int32.toInt32_toUInt32] at h'

theorem needsPeers_iff (type : Int32) :
    ((AccountingRecordType.ofInt type).isStart || (AccountingRecordType.ofInt type).isEvent) = true ↔
      NeedsPeers type := by
  have h1 : type.toUInt32 = 1 ↔ type = 1 := toUInt32_eq_iff
  have h2 : type.toUInt32 = 2 ↔ type = 2 := toUInt32_eq_iff
  simp only [AccountingRecordType.isStart, AccountingRecordType.isEvent, AccountingRecordType.ofInt,
    Bool.or_eq_true, beq_iff_eq, NeedsPeers]
  rw [h1, h2]
  exact or_comm

/-! ### The peers -/

theorem ccfOf_cases (xs : List Json) :
    (∃ cs : List Bytes, xs = cs.map .str ∧ xs.mapM ccfOf = .ok (cs.map cStr)) ∨
    (¬∃ cs : List Bytes, xs = cs.map .str) ∧ xs.mapM ccfOf = .error HTTP_BAD_REQUEST := by
  induction xs with
  | nil => exact .inl ⟨[], rfl, rfl⟩
  | cons x xs ih =>
    rw [List.mapM_cons]
    by_cases hx : ∃ s, x = .str s
    · obtain ⟨s, rfl⟩ := hx
      obtain ⟨cs, rfl, hcs⟩ | ⟨hcs, herror⟩ := ih
      · refine .inl ⟨s :: cs, rfl, ?_⟩
        rw [hcs]
        rfl
      · refine .inr ⟨?_, ?_⟩
        · rintro ⟨cs, h⟩
          cases cs with
          | nil => cases h
          | cons c cs => exact hcs ⟨cs, (List.cons.inj h).2⟩
        · rw [herror]
          rfl
    · refine .inr ⟨?_, ?_⟩
      · rintro ⟨cs, h⟩
        cases cs with
        | nil => cases h
        | cons c cs => exact hx ⟨c, (List.cons.inj h).1⟩
      · cases x with
        | str s => exact absurd ⟨s, rfl⟩ hx
        | _ => rfl

theorem parsePeers_cases {body peers : List (Bytes × Json)}
    (hpeers : findMember body (ascii "peers") = some (.obj peers)) :
    (∃ cs, HasCcfs peers cs ∧ parsePeers body = .ok (some (cs.map cStr))) ∨
    (¬∃ cs, HasCcfs peers cs) ∧ parsePeers body = .error HTTP_BAD_REQUEST := by
  rw [parsePeers_obj hpeers]
  unfold HasCcfs
  cases findMember peers (ascii "ccf") with
  | none => exact .inr ⟨by simp, rfl⟩
  | some v =>
    cases v with
    | arr xs =>
      cases xs with
      | nil =>
        refine .inr ⟨?_, rfl⟩
        rintro ⟨cs, hcs, hne⟩
        cases cs with
        | nil => exact hne rfl
        | cons c cs => cases hcs
      | cons x xs =>
        dsimp only
        obtain ⟨cs, hcs, hok⟩ | ⟨hcs, herror⟩ := ccfOf_cases (x :: xs)
        · refine .inl ⟨cs, ⟨by rw [hcs], ?_⟩, by rw [hok]; rfl⟩
          rintro rfl
          cases hcs
        · refine .inr ⟨?_, by rw [herror]; rfl⟩
          rintro ⟨cs, heq, -⟩
          exact hcs ⟨cs, by simpa using heq⟩
    | _ => exact .inr ⟨by simp, rfl⟩

theorem parsePeers_none {body : List (Bytes × Json)}
    (h : ¬∃ peers, findMember body (ascii "peers") = some (.obj peers)) :
    parsePeers body = .ok none := by
  unfold parsePeers
  split
  · rename_i peers hpeers
    exact absurd ⟨peers, hpeers⟩ h
  · rfl

/-! ### The outcomes -/

variable {P : Platform} {callId reqbody : Bytes} {timerInterim : Bool}
  {body event : List (Bytes × Json)} {role : RoleOfNode} {function : NodeFunctionality}
  {type : Int32}

/-- The fields of a valid event are determined by the body. -/
theorem ValidEvent.unique (h : ValidEvent P reqbody body event role function type)
    {body' event' : List (Bytes × Json)} {role' : RoleOfNode} {function' : NodeFunctionality}
    {type' : Int32} (h' : ValidEvent P reqbody body' event' role' function' type') :
    body = body' ∧ event = event' ∧ role = role' ∧ function = function' ∧ type = type' := by
  obtain ⟨hparse, hevent, ⟨si, ims, hsi, hims, hrole, hfunction⟩, htype, -⟩ := h
  obtain ⟨hparse', hevent', ⟨si', ims', hsi', hims', hrole', hfunction'⟩, htype', -⟩ := h'
  rw [hparse] at hparse'
  cases hparse'
  rw [hevent] at hevent'
  cases hevent'
  rw [hsi] at hsi'
  cases hsi'
  rw [hims] at hims'
  cases hims'
  rw [hrole, Option.some.injEq, Json.int.injEq, Int32.toInt_inj] at hrole'
  rw [hfunction, Option.some.injEq, Json.int.injEq, Int32.toInt_inj] at hfunction'
  rw [htype, Option.some.injEq, Json.int.injEq, Int32.toInt_inj] at htype'
  exact ⟨rfl, rfl, hrole', hfunction', htype'⟩

/-- Past the checks of the event, what is left are the peers. -/
theorem parseBody_of_valid (h : ValidEvent P reqbody body event role function type) :
    Ralf.parseBody P callId timerInterim reqbody =
      withPeers body (.new callId role function (.obj body) (.ofInt type)
        (acctInterimInterval event) timerInterim) := by
  obtain ⟨hparse, hevent, ⟨si, ims, hsi, hims, hrole, hfunction⟩, htype, hrange⟩ := h
  have hobj : ∀ {ms ms' : List (Bytes × Json)} {name : Bytes},
      findMember ms name = some (.obj ms') → objectMember ms name = .ok ms' := by
    intro ms ms' name h
    unfold objectMember
    rw [h]
  rw [parseBody_obj P hparse, hobj hevent]
  show (objectMember event (ascii "Service-Information") >>= _) = _
  rw [hobj hsi]
  show (objectMember si (ascii "IMS-Information") >>= _) = _
  rw [hobj hims]
  show (intMember ims (ascii "Role-Of-Node") >>= _) = _
  rw [intMember_of_find hrole]
  show (intMember ims (ascii "Node-Functionality") >>= _) = _
  rw [intMember_of_find hfunction]
  show (intMember event (ascii "Accounting-Record-Type") >>= _) = _
  rw [intMember_of_find htype]
  exact if_pos ((isValid_ofInt type).mpr hrange)

/-- A check that passes or ends in a 400, before something that ends in a 400. -/
theorem bind_eq_badRequest {α β : Type} {q : α → Prop} {x : Except HTTPCode α}
    {f : α → Except HTTPCode β}
    (hx : (∃ a, q a ∧ x = .ok a) ∨ (¬∃ a, q a) ∧ x = .error HTTP_BAD_REQUEST)
    (hf : ∀ a, q a → f a = .error HTTP_BAD_REQUEST) : x >>= f = .error HTTP_BAD_REQUEST := by
  obtain ⟨a, ha, rfl⟩ | ⟨-, rfl⟩ := hx
  · exact hf a ha
  · rfl

theorem parseBody_of_not_valid
    (h : ¬∃ body event role function type, ValidEvent P reqbody body event role function type) :
    Ralf.parseBody P callId timerInterim reqbody = .error HTTP_BAD_REQUEST := by
  by_cases hbody : ∃ body, P.parse (cStr reqbody) = some (.obj body)
  · obtain ⟨body, hparse⟩ := hbody
    rw [parseBody_obj P hparse]
    refine bind_eq_badRequest (objectMember_cases body _) fun event hevent => ?_
    refine bind_eq_badRequest (objectMember_cases event _) fun si hsi => ?_
    refine bind_eq_badRequest (objectMember_cases si _) fun ims hims => ?_
    refine bind_eq_badRequest (intMember_cases_int32 ims _) fun role hrole => ?_
    refine bind_eq_badRequest (intMember_cases_int32 ims _) fun function hfunction => ?_
    refine bind_eq_badRequest (intMember_cases_int32 event _) fun type htype => ?_
    apply if_neg
    intro hvalid
    apply h
    exact ⟨body, event, role, function, type, hparse, hevent, ⟨si, ims, hsi, hims, hrole, hfunction⟩,
      htype, (isValid_ofInt type).mp hvalid⟩
  · unfold Ralf.parseBody
    split
    · rename_i body hparse
      exact absurd ⟨body, hparse⟩ hbody
    · rfl

theorem withPeers_of_needs {msg : Message} (htype : msg.recordType = .ofInt type)
    (hneeds : NeedsPeers type) :
    withPeers body msg = (do
      match ← parsePeers body with
      | none => .ok none
      | some ccfs => .ok (some { msg with ccfs := ccfs })) := by
  apply if_pos
  rw [htype]
  exact (needsPeers_iff type).mpr hneeds

theorem withPeers_of_not_needs {msg : Message} (htype : msg.recordType = .ofInt type)
    (hneeds : ¬NeedsPeers type) : withPeers body msg = .ok (some msg) := by
  apply if_neg
  rw [htype]
  exact (needsPeers_iff type).not.mpr hneeds

theorem rejected_iff (h : ValidEvent P reqbody body event role function type) :
    Rejected P reqbody ↔ NeedsPeers type ∧
      ∃ peers, findMember body (ascii "peers") = some (.obj peers) ∧ ¬∃ cs, HasCcfs peers cs := by
  constructor
  · rintro (hno | ⟨body', event', role', function', type', peers, h', hneeds, hpeers, hccfs⟩)
    · exact absurd ⟨body, event, role, function, type, h⟩ hno
    · obtain ⟨rfl, rfl, rfl, rfl, rfl⟩ := h.unique h'
      exact ⟨hneeds, peers, hpeers, hccfs⟩
  · rintro ⟨hneeds, peers, hpeers, hccfs⟩
    exact .inr ⟨body, event, role, function, type, peers, h, hneeds, hpeers, hccfs⟩

theorem dropped_iff (h : ValidEvent P reqbody body event role function type) :
    Dropped P reqbody ↔ NeedsPeers type ∧
      ¬∃ peers, findMember body (ascii "peers") = some (.obj peers) := by
  constructor
  · rintro ⟨body', event', role', function', type', h', hneeds, hpeers⟩
    obtain ⟨rfl, rfl, rfl, rfl, rfl⟩ := h.unique h'
    exact ⟨hneeds, hpeers⟩
  · rintro ⟨hneeds, hpeers⟩
    exact ⟨body, event, role, function, type, h, hneeds, hpeers⟩

/-- The three outcomes, one for each kind of body. -/
theorem parseBody_cases (P : Platform) (callId : Bytes) (timerInterim : Bool) (reqbody : Bytes) :
    Rejected P reqbody ∧ ¬Dropped P reqbody ∧
        Ralf.parseBody P callId timerInterim reqbody = .error HTTP_BAD_REQUEST ∨
      Dropped P reqbody ∧ ¬Rejected P reqbody ∧
        Ralf.parseBody P callId timerInterim reqbody = .ok none ∨
      ¬Rejected P reqbody ∧ ¬Dropped P reqbody ∧
        ∃ msg, IsMessageOf P callId timerInterim reqbody msg ∧
          Ralf.parseBody P callId timerInterim reqbody = .ok (some msg) := by
  by_cases hvalid : ∃ body event role function type, ValidEvent P reqbody body event role function type
  · obtain ⟨body, event, role, function, type, h⟩ := hvalid
    have hrefresh := refreshTime_acctInterimInterval event
    rw [rejected_iff h, dropped_iff h, parseBody_of_valid h]
    by_cases hneeds : NeedsPeers type
    · rw [withPeers_of_needs rfl hneeds]
      by_cases hpeers : ∃ peers, findMember body (ascii "peers") = some (.obj peers)
      · obtain ⟨peers, hpeers⟩ := hpeers
        obtain ⟨cs, hcs, hok⟩ | ⟨hcs, herror⟩ := parsePeers_cases hpeers
        · refine .inr (.inr ⟨?_, fun hd => hd.2 ⟨peers, hpeers⟩, ?_⟩)
          · rintro ⟨-, peers', hpeers', hcs'⟩
            rw [hpeers] at hpeers'
            cases hpeers'
            exact hcs' ⟨cs, hcs⟩
          · rw [hok]
            exact ⟨_, ⟨body, event, role, function, type, _, _, h, hrefresh,
              fun _ => ⟨peers, cs, hpeers, hcs, rfl⟩, fun hno => absurd hneeds hno, rfl⟩, rfl⟩
        · refine .inl ⟨⟨hneeds, peers, hpeers, hcs⟩, fun hd => hd.2 ⟨peers, hpeers⟩, ?_⟩
          rw [herror]
          rfl
      · refine .inr (.inl ⟨⟨hneeds, hpeers⟩, fun hr => hpeers ⟨_, hr.2.choose_spec.1⟩, ?_⟩)
        rw [parsePeers_none hpeers]
        rfl
    · rw [withPeers_of_not_needs rfl hneeds]
      exact .inr (.inr ⟨fun hr => hneeds hr.1, fun hd => hneeds hd.1, _,
        ⟨body, event, role, function, type, _, [], h, hrefresh, fun hyes => absurd hyes hneeds,
          fun _ => rfl, rfl⟩, rfl⟩)
  · refine .inl ⟨.inl hvalid, ?_, parseBody_of_not_valid hvalid⟩
    rintro ⟨body, event, role, function, type, h, -⟩
    exact hvalid ⟨body, event, role, function, type, h⟩

/-- **What the handler accepts.** On every body `parse_body` returns, and no accessor is applied to
a value it is not defined on. It returns 400 without a message exactly for the bodies that are to be
rejected, 200 without a message exactly for a START or an EVENT without peers, and for every other
body 200 and the message with the body's fields. -/
theorem parseBody_outcomes (P : Platform) (callId : Bytes) (timerInterim : Bool) (reqbody : Bytes) :
    ∃ rc msg, BillingTask.parseBody P callId timerInterim reqbody = .ok (rc, msg) ∧
      (rc = HTTP_BAD_REQUEST ∧ msg = none ↔ Rejected P reqbody) ∧
      (rc = HTTP_OK ∧ msg = none ↔ Dropped P reqbody) ∧
      (rc = HTTP_OK ∧ (∃ m, msg = some m ∧ IsMessageOf P callId timerInterim reqbody m) ↔
        ¬Rejected P reqbody ∧ ¬Dropped P reqbody) := by
  rw [parseBody_eq]
  obtain ⟨hrej, hdrop, heq⟩ | ⟨hdrop, hrej, heq⟩ | ⟨hrej, hdrop, msg, hmsg, heq⟩ :=
    parseBody_cases P callId timerInterim reqbody
  · rw [heq]
    exact ⟨HTTP_BAD_REQUEST, none, rfl, by simp [hrej], by simp [hdrop, HTTP_BAD_REQUEST, HTTP_OK],
      by simp [hrej]⟩
  · rw [heq]
    exact ⟨HTTP_OK, none, rfl, by simp [hrej, HTTP_BAD_REQUEST, HTTP_OK], by simp [hdrop],
      by simp [hdrop]⟩
  · rw [heq]
    exact ⟨HTTP_OK, some msg, rfl, by simp [hrej], by simp [hdrop], by simp [hrej, hdrop, hmsg]⟩

end Acceptance

end BillingTask

end Ralf
