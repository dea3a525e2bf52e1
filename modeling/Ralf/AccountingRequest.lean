import Ralf.PeerMessageSender

/-!
# Accounting requests

The constructor of `Rf::AccountingRequest` (`rf.cpp`): the AVPs every ACR has, and after them those
made of the members of an event. The dictionary, the message and the AVPs are cpp-common's; what the
constructor uses of them is `Diameter`. A member the dictionary does not know makes it throw, and
the handler of that exception stands inside the loop: `eventAvps_mapping` says that it costs no
other member its AVPs.
-/

namespace Ralf

open Bytes

/-! ## Diameter -/

/-- An AVP of a message: its entry in the dictionary, and its value. -/
structure Avp (Dict Data : Type) where
  dict : Dict
  data : Data
  deriving DecidableEq

/-- cpp-common's Diameter library, as far as it is used to build a message. -/
structure Diameter (Dict Data : Type) where
  /-- `Dictionary::AVP(vendors, name)`: the entry of the first vendor that has the name. It throws
  if there is none. -/
  find : List Bytes → Bytes → Option Dict
  /-- `Dictionary::AVP(name)`, for names of the base protocol. -/
  base : Bytes → Dict
  valStr : Dict → Bytes → Data
  valI32 : Dict → Int32 → Data
  valJson : List Bytes → Dict → Json → Data
  /-- The AVPs of `add_origin`. -/
  origin : List (Avp Dict Data)
  /-- The AVPs of `add_app_id` for accounting over Rf. -/
  appId : List (Avp Dict Data)

/-- `Stack::Exception`. -/
inductive StackException where
  | notFound

/-- A message under construction. An exception leaves it with the AVPs that have been added. -/
abbrev Building (Dict Data : Type) := ExceptT StackException (StateM (List (Avp Dict Data)))

def VENDORS : List Bytes := [ascii "3GPP", []]

def SERVICE_CONTEXT_ID_STR : Bytes := ascii "MNC.MCC.10.32260@3gpp.org"

namespace Diameter

variable {Dict Data : Type} (D : Diameter Dict Data)

/-! ## The constructor -/

def add (avp : Avp Dict Data) : Building Dict Data Unit := modify (· ++ [avp])

def strAvp (name s : Bytes) : Avp Dict Data := ⟨D.base name, D.valStr (D.base name) s⟩

def i32Avp (name : Bytes) (n : Int32) : Avp Dict Data := ⟨D.base name, D.valI32 (D.base name) n⟩

/-- One AVP of a member of the event. The name is read by `GetString`. -/
def addJson (name : Bytes) (v : Json) : Building Dict Data Unit := do
  match D.find VENDORS (cStr name) with
  | none => throw .notFound
  | some dict => add ⟨dict, D.valJson VENDORS dict v⟩

/-- The body of the loop over the members. -/
def addMember (m : Bytes × Json) : Building Dict Data Unit := do
  try
    match m.2 with
    | .bool _ | .null => pure ()
    | .str _ | .int _ | .real _ | .obj _ => D.addJson m.1 m.2
    | .arr xs => xs.forM (D.addJson m.1)
  catch _ => pure ()

/-- `AccountingRequest::AccountingRequest`. `newSessionId` is what the stack makes up for a message
without a session. -/
def accountingRequest (destRealm newSessionId : Bytes) (acr : AccountingRequest) :
    Building Dict Data Unit := do
  (if acr.sessionId = [] then add (D.strAvp (ascii "Session-Id") newSessionId)
    else add (D.strAvp (ascii "Session-Id") acr.sessionId))
  D.origin.forM add
  D.appId.forM add
  add (D.strAvp (ascii "Destination-Host") acr.destHost)
  add (D.strAvp (ascii "Destination-Realm") destRealm)
  add (D.i32Avp (ascii "Accounting-Record-Number") acr.recordNumber.toInt32)
  add (D.strAvp (ascii "Service-Context-Id") SERVICE_CONTEXT_ID_STR)
  match acr.contents with
  | .obj ms => ms.forM D.addMember
  | _ => return ()

/-- The AVPs of the message, once it is built. -/
def avps (destRealm newSessionId : Bytes) (acr : AccountingRequest) : List (Avp Dict Data) :=
  ((D.accountingRequest destRealm newSessionId acr).run.run []).2

/-! ## What is added -/

/-- The AVPs every ACR has. -/
def fixedAvps (destRealm newSessionId : Bytes) (acr : AccountingRequest) : List (Avp Dict Data) :=
  [D.strAvp (ascii "Session-Id") (if acr.sessionId = [] then newSessionId else acr.sessionId)] ++
    D.origin ++ D.appId ++
    [D.strAvp (ascii "Destination-Host") acr.destHost,
      D.strAvp (ascii "Destination-Realm") destRealm,
      D.i32Avp (ascii "Accounting-Record-Number") acr.recordNumber.toInt32,
      D.strAvp (ascii "Service-Context-Id") SERVICE_CONTEXT_ID_STR]

/-- What a member of the event is to be mapped to, if its name is taken as `read` takes it. -/
def memberAvps (read : Bytes → Bytes) (m : Bytes × Json) : List (Avp Dict Data) :=
  match D.find VENDORS (read m.1) with
  | none => []
  | some dict =>
    match m.2 with
    | .bool _ | .null => []
    | .str _ | .int _ | .real _ | .obj _ => [⟨dict, D.valJson VENDORS dict m.2⟩]
    | .arr xs => xs.map fun v => ⟨dict, D.valJson VENDORS dict v⟩

/-- The AVPs after the fixed ones in an ACR for an event with these members. -/
def eventAvps (destRealm newSessionId : Bytes) (acr : AccountingRequest)
    (ms : List (Bytes × Json)) : List (Avp Dict Data) :=
  (D.avps destRealm newSessionId { acr with contents := .obj ms }).drop
    (D.fixedAvps destRealm newSessionId acr).length

/-- The computation adds these AVPs, and no exception leaves it. -/
def Adds (x : Building Dict Data Unit) (avps : List (Avp Dict Data)) : Prop :=
  ∀ acr, x.run.run acr = (.ok (), acr ++ avps)

section Adds

variable {D} {x y : Building Dict Data Unit} {xs ys : List (Avp Dict Data)}

theorem adds_pure : Adds (pure () : Building Dict Data Unit) [] := by
  intro acr
  rw [List.append_nil]
  rfl

theorem adds_add (avp : Avp Dict Data) : Adds (add avp) [avp] := fun _ => rfl

theorem Adds.bind (hx : Adds x xs) (hy : Adds y ys) : Adds (x >>= fun _ => y) (xs ++ ys) := by
  intro acr
  rw [ExceptT.run_bind, StateT.run_bind, hx acr]
  show y.run.run (acr ++ xs) = _
  rw [hy, List.append_assoc]

/-- A loop adds what its iterations add, in their order. -/
theorem adds_forM {α : Type} {f : α → Building Dict Data Unit} {g : α → List (Avp Dict Data)}
    (h : ∀ a, Adds (f a) (g a)) (as : List α) : Adds (as.forM f) (as.flatMap g) := by
  induction as with
  | nil => exact adds_pure
  | cons a as ih => exact (h a).bind ih

variable (D)

theorem adds_addJson {dict : Dict} {name : Bytes} (h : D.find VENDORS (cStr name) = some dict)
    (v : Json) : Adds (D.addJson name v) [⟨dict, D.valJson VENDORS dict v⟩] := by
  unfold addJson
  rw [h]
  exact adds_add _

theorem run_addJson_of_none {name : Bytes} (h : D.find VENDORS (cStr name) = none) (v : Json)
    (acr : List (Avp Dict Data)) : (D.addJson name v).run.run acr = (.error .notFound, acr) := by
  unfold addJson
  rw [h]
  rfl

/-- The handler turns a computation that throws before it adds anything into one that does
nothing. -/
theorem adds_tryCatch_of_error {f : StackException → Building Dict Data Unit} {e : StackException}
    (hx : ∀ acr, x.run.run acr = (.error e, acr)) (hf : Adds (f e) xs) :
    Adds (tryCatch x f) xs := by
  intro acr
  rw [ExceptT.run_tryCatch, StateT.run_bind, hx acr]
  exact hf acr

theorem adds_tryCatch (f : StackException → Building Dict Data Unit) (hx : Adds x xs) :
    Adds (tryCatch x f) xs := by
  intro acr
  rw [ExceptT.run_tryCatch, StateT.run_bind, hx acr]
  rfl

/-- One iteration of the loop over the members. -/
theorem adds_addMember (m : Bytes × Json) : Adds (D.addMember m) (D.memberAvps cStr m) := by
  obtain ⟨name, v⟩ := m
  unfold addMember memberAvps
  cases hfind : D.find VENDORS (cStr name) with
  | none =>
    -- Nothing has been added when the lookup throws: it comes before the AVP, and an array is left
    -- at its first element.
    have hthrow := D.run_addJson_of_none hfind
    dsimp only
    cases v with
    | arr xs =>
      cases xs with
      | nil => exact adds_tryCatch _ adds_pure
      | cons v vs =>
        refine adds_tryCatch_of_error (e := .notFound) (fun acr => ?_) adds_pure
        show ((D.addJson name v >>= fun _ => vs.forM (D.addJson name)).run).run acr = _
        rw [ExceptT.run_bind, StateT.run_bind, hthrow v acr]
        rfl
    | null => exact adds_tryCatch _ adds_pure
    | bool b => exact adds_tryCatch _ adds_pure
    | _ => exact adds_tryCatch_of_error (hthrow _) adds_pure
  | some dict =>
    have hadd := D.adds_addJson hfind
    dsimp only
    cases v with
    | arr xs =>
      refine adds_tryCatch _ ?_
      have hloop := adds_forM hadd xs
      rwa [← List.map_eq_flatMap] at hloop
    | null => exact adds_tryCatch _ adds_pure
    | bool b => exact adds_tryCatch _ adds_pure
    | _ => exact adds_tryCatch _ (hadd _)

/-- The constructor as a whole. -/
theorem adds_accountingRequest (destRealm newSessionId : Bytes) {acr : AccountingRequest}
    {ms : List (Bytes × Json)} (hms : acr.contents = .obj ms) :
    Adds (D.accountingRequest destRealm newSessionId acr)
      (D.fixedAvps destRealm newSessionId acr ++ ms.flatMap (D.memberAvps cStr)) := by
  have hloop : ∀ avps : List (Avp Dict Data), Adds (avps.forM add) avps := by
    intro avps
    have h := adds_forM adds_add avps
    rwa [List.flatMap_singleton'] at h
  have hid : Adds (if acr.sessionId = [] then add (D.strAvp (ascii "Session-Id") newSessionId)
      else add (D.strAvp (ascii "Session-Id") acr.sessionId))
      [D.strAvp (ascii "Session-Id") (if acr.sessionId = [] then newSessionId
        else acr.sessionId)] := by
    split_ifs
    · exact adds_add _
    · exact adds_add _
  have hmembers : Adds (match acr.contents with
      | .obj ms => ms.forM D.addMember
      | _ => return ()) (ms.flatMap (D.memberAvps cStr)) := by
    rw [hms]
    exact adds_forM D.adds_addMember ms
  have h := hid.bind ((hloop D.origin).bind ((hloop D.appId).bind
    ((adds_add (D.strAvp (ascii "Destination-Host") acr.destHost)).bind
      ((adds_add (D.strAvp (ascii "Destination-Realm") destRealm)).bind
        ((adds_add (D.i32Avp (ascii "Accounting-Record-Number") acr.recordNumber.toInt32)).bind
          ((adds_add (D.strAvp (ascii "Service-Context-Id") SERVICE_CONTEXT_ID_STR)).bind
            hmembers))))))
  simp only [List.cons_append, List.nil_append] at h
  simp only [fixedAvps, List.append_assoc, List.cons_append, List.nil_append]
  exact h

theorem avps_eq (destRealm newSessionId : Bytes) {acr : AccountingRequest}
    {ms : List (Bytes × Json)} (hms : acr.contents = .obj ms) :
    D.avps destRealm newSessionId acr =
      D.fixedAvps destRealm newSessionId acr ++ ms.flatMap (D.memberAvps cStr) := by
  unfold avps
  rw [D.adds_accountingRequest destRealm newSessionId hms []]
  rfl

theorem eventAvps_eq (destRealm newSessionId : Bytes) (acr : AccountingRequest)
    (ms : List (Bytes × Json)) :
    D.eventAvps destRealm newSessionId acr ms = ms.flatMap (D.memberAvps cStr) := by
  have havps : D.avps destRealm newSessionId { acr with contents := .obj ms } =
      D.fixedAvps destRealm newSessionId acr ++ ms.flatMap (D.memberAvps cStr) :=
    D.avps_eq destRealm newSessionId rfl
  unfold eventAvps
  rw [havps]
  exact List.drop_left

end Adds

/-- **The event in the ACR.** An ACR has its fixed AVPs and then, in the order of the event, those of
each member, whose name is taken up to its first NUL: none for a value that is true, false or null
and for a name the dictionary does not have, one for a string, a number or an object, and one for
each element of an array. What a member adds does not depend on the others. -/
theorem eventAvps_mapping (destRealm newSessionId : Bytes) (acr : AccountingRequest) :
    (∀ ms, D.avps destRealm newSessionId { acr with contents := .obj ms } =
      D.fixedAvps destRealm newSessionId acr ++ D.eventAvps destRealm newSessionId acr ms) ∧
    (∀ ms, D.eventAvps destRealm newSessionId acr ms = ms.flatMap (D.memberAvps cStr)) ∧
    (∀ ms ms', D.eventAvps destRealm newSessionId acr (ms ++ ms') =
      D.eventAvps destRealm newSessionId acr ms ++ D.eventAvps destRealm newSessionId acr ms') ∧
    ∀ ms m ms', D.eventAvps destRealm newSessionId acr (ms ++ m :: ms') =
      D.eventAvps destRealm newSessionId acr ms ++ D.memberAvps cStr m ++
        D.eventAvps destRealm newSessionId acr ms' := by
  refine ⟨?_, D.eventAvps_eq destRealm newSessionId acr, ?_, ?_⟩
  · intro ms
    rw [eventAvps_eq]
    exact D.avps_eq destRealm newSessionId rfl
  · intro ms ms'
    simp only [eventAvps_eq, List.flatMap_append]
  · intro ms m ms'
    simp only [eventAvps_eq, List.flatMap_append, List.flatMap_cons, List.append_assoc]

end Diameter

/-! ## A dictionary -/

/-- Entries of the base protocol and of 3GPP, by vendor and name. -/
def someEntries : List (Bytes × Bytes) :=
  [([], ascii "Session-Id"), ([], ascii "Origin-Host"), ([], ascii "Origin-Realm"),
    ([], ascii "Acct-Application-Id"), ([], ascii "Destination-Host"),
    ([], ascii "Destination-Realm"), ([], ascii "Accounting-Record-Type"),
    ([], ascii "Accounting-Record-Number"), ([], ascii "Acct-Interim-Interval"),
    ([], ascii "Event-Timestamp"), ([], ascii "Service-Context-Id"),
    (ascii "3GPP", ascii "Service-Information")]

/-- A library with these entries, in which the value of an AVP is the JSON value it was given. -/
def someDiameter : Diameter (Bytes × Bytes) Json where
  find := fun vendors name => vendors.findSome? fun vendor =>
    if (vendor, name) ∈ someEntries then some (vendor, name) else none
  base := fun name => ([], name)
  valStr := fun _ s => .str s
  valI32 := fun _ n => .int n.toInt
  valJson := fun _ _ v => v
  origin := [⟨([], ascii "Origin-Host"), .str (ascii "ralf")⟩,
    ⟨([], ascii "Origin-Realm"), .str (ascii "realm")⟩]
  appId := [⟨([], ascii "Acct-Application-Id"), .int 3⟩]

/-- An event with one member, whose name goes on after a NUL. -/
def nulNamed : List (Bytes × Json) := [(ascii "Event-Timestamp" ++ 0 :: ascii "x", .int 5)]

/-- The whole name is in no dictionary, and there is an AVP for it. -/
theorem nulNamed_mapped :
    someDiameter.find VENDORS (ascii "Event-Timestamp" ++ 0 :: ascii "x") = none ∧
      (someDiameter.eventAvps (ascii "realm") (ascii "sid") ⟨[], ascii "ccf", 1, .null⟩
        nulNamed).map Avp.dict = [([], ascii "Event-Timestamp")] ∧
      someDiameter.eventAvps (ascii "realm") (ascii "sid") ⟨[], ascii "ccf", 1, .null⟩ nulNamed ≠
        nulNamed.flatMap (someDiameter.memberAvps id) := by
  have hnone : someDiameter.find VENDORS (ascii "Event-Timestamp" ++ 0 :: ascii "x") = none := by
    decide
  have hdict : (someDiameter.eventAvps (ascii "realm") (ascii "sid") ⟨[], ascii "ccf", 1, .null⟩
      nulNamed).map Avp.dict = [([], ascii "Event-Timestamp")] := by
    rw [Diameter.eventAvps_eq]
    decide
  refine ⟨hnone, hdict, fun heq => ?_⟩
  have hnil : nulNamed.flatMap (someDiameter.memberAvps id) = [] := by
    rw [nulNamed, List.flatMap_singleton, Diameter.memberAvps, id, hnone]
  rw [heq, hnil] at hdict
  cases hdict

end Ralf
