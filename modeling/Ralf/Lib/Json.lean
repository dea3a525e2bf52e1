import Ralf.Lib.Bytes

/-!
# JSON values and their accessors

The tree a JSON text parses to, and the accessors C++ code reads it with. An accessor is only
defined on values of its own type, and says so by failing with `JsonError.assertion`; the checking
accessors test the type first and fail with `JsonError.format`, an error their caller catches.
-/

open Bytes

/-- A JSON value. Integral numbers keep their value, any other number its bit pattern. -/
inductive Json where
  | null
  | bool (b : Bool)
  | int (n : ℤ)
  | real (bits : UInt64)
  | str (s : Bytes)
  | arr (xs : List Json)
  | obj (ms : List (Bytes × Json))
  deriving Inhabited

/-- How reading a JSON value can fail. -/
inductive JsonError where
  /-- A checked accessor found a member missing or of the wrong type. -/
  | format
  /-- An unchecked accessor was applied to a value it is not defined on. -/
  | assertion
  deriving DecidableEq

namespace Json

/-! ## Types -/

def isObject : Json → Bool
  | .obj _ => true
  | _ => false

def isArray : Json → Bool
  | .arr _ => true
  | _ => false

def isString : Json → Bool
  | .str _ => true
  | _ => false

/-- A number that fits a 32-bit signed integer. -/
def isInt : Json → Bool
  | .int n => decide (-2147483648 ≤ n ∧ n < 2147483648)
  | _ => false

/-! ## Unchecked accessors -/

/-- The first member of an object with the given name. -/
def findMember (v : Json) (name : Bytes) : Except JsonError (Option Json) :=
  match v with
  | .obj ms => .ok ((ms.find? fun m => m.1 = name).map (·.2))
  | _ => .error .assertion

def hasMember (v : Json) (name : Bytes) : Except JsonError Bool :=
  (v.findMember name).map Option.isSome

/-- `operator[]` on an object: the member must exist. -/
def member (v : Json) (name : Bytes) : Except JsonError Json := do
  match ← v.findMember name with
  | some m => .ok m
  | none => .error .assertion

/-- The elements of an array. -/
def elements : Json → Except JsonError (List Json)
  | .arr xs => .ok xs
  | _ => .error .assertion

/-- The number of elements of an array. -/
def size : Json → Except JsonError ℕ
  | .arr xs => .ok xs.length
  | _ => .error .assertion

/-- `operator[]` on an array: the index must be in range. -/
def element (v : Json) (i : ℕ) : Except JsonError Json :=
  match v with
  | .arr xs =>
    match xs[i]? with
    | some x => .ok x
    | none => .error .assertion
  | _ => .error .assertion

/-- `GetString`, which hands out a pointer: the string ends at its first NUL. -/
def getString : Json → Except JsonError Bytes
  | .str s => .ok (cStr s)
  | _ => .error .assertion

def getInt (v : Json) : Except JsonError Int32 :=
  match v with
  | .int n => if v.isInt then .ok (Int32.ofInt n) else .error .assertion
  | _ => .error .assertion

/-- `v.HasMember(name) && v[name].Is…()`: the member is only looked up if it is there. -/
def hasMemberOf (type : Json → Bool) (v : Json) (name : Bytes) : Except JsonError Bool := do
  if ← v.hasMember name then
    return type (← v.member name)
  else
    return false

/-! ## Checked accessors -/

def assertContains (v : Json) (name : Bytes) : Except JsonError Unit := do
  if ← v.hasMember name then .ok () else .error .format

def assertArray (v : Json) : Except JsonError Unit :=
  if v.isArray then .ok () else .error .format

def assertString (v : Json) : Except JsonError Unit :=
  if v.isString then .ok () else .error .format

def assertInt (v : Json) : Except JsonError Unit :=
  if v.isInt then .ok () else .error .format

def getStringMember (v : Json) (name : Bytes) : Except JsonError Bytes := do
  v.assertContains name
  let m ← v.member name
  m.assertString
  m.getString

def getIntMember (v : Json) (name : Bytes) : Except JsonError Int32 := do
  v.assertContains name
  let m ← v.member name
  m.assertInt
  m.getInt

/-! ## What the accessors do -/

theorem hasMember_of_findMember {v : Json} {name : Bytes} {o : Option Json}
    (h : v.findMember name = .ok o) : v.hasMember name = .ok o.isSome := by
  unfold hasMember
  rw [h]
  rfl

theorem member_of_findMember {v m : Json} {name : Bytes} (h : v.findMember name = .ok (some m)) :
    v.member name = .ok m := by
  unfold member
  rw [h]
  rfl

theorem hasMemberOf_of_findMember {type : Json → Bool} {v : Json} {name : Bytes} {o : Option Json}
    (h : v.findMember name = .ok o) : hasMemberOf type v name = .ok (o.any type) := by
  unfold hasMemberOf
  rw [hasMember_of_findMember h]
  cases o with
  | none => rfl
  | some m =>
    rw [member_of_findMember h]
    rfl

/-- A computation that checks `p`: it succeeds if `p` holds and throws a format error if not, and
no assertion fails in it. -/
def Checks {α : Type} (x : Except JsonError α) (p : Prop) : Prop :=
  p ∧ (∃ a, x = .ok a) ∨ ¬p ∧ x = .error .format

namespace Checks

variable {α β : Type} {x : Except JsonError α} {f : α → Except JsonError β} {p q : Prop}

theorem ok (a : α) : Checks (Except.ok a : Except JsonError α) True :=
  .inl ⟨trivial, a, rfl⟩

theorem congr (h : Checks x p) (hpq : p ↔ q) : Checks x q := by
  rwa [← propext hpq]

theorem holds (h : Checks x p) {a : α} (ha : x = .ok a) : p := by
  obtain ⟨hp, -⟩ | ⟨-, hx⟩ := h
  · exact hp
  · rw [ha] at hx
    cases hx

/-- One check after another. The second may rely on what the first one found. -/
theorem bind (h : Checks x p) (hf : ∀ a, x = .ok a → Checks (f a) q) : Checks (x >>= f) (p ∧ q) := by
  obtain ⟨hp, a, ha⟩ | ⟨hp, hx⟩ := h
  · obtain ⟨hq, b, hb⟩ | ⟨hq, hb⟩ := hf a ha
    · exact .inl ⟨⟨hp, hq⟩, b, by rw [ha]; exact hb⟩
    · exact .inr ⟨fun hpq => hq hpq.2, by rw [ha]; exact hb⟩
  · exact .inr ⟨fun hpq => hp hpq.1, by rw [hx]; rfl⟩

/-- The same check of every element of a list. -/
theorem mapM {p : α → Prop} (hf : ∀ a, Checks (f a) (p a)) (as : List α) :
    Checks (as.mapM f) (∀ a ∈ as, p a) := by
  induction as with
  | nil => exact (ok []).congr (by simp)
  | cons a as ih =>
    rw [List.mapM_cons]
    refine ((hf a).bind fun b _ => ih.bind fun bs _ => ok (b :: bs)).congr ?_
    rw [and_true, List.forall_mem_cons]

end Checks

theorem checks_assertContains {v : Json} {name : Bytes} {o : Option Json}
    (h : v.findMember name = .ok o) : Checks (v.assertContains name) (o.isSome = true) := by
  unfold assertContains
  rw [hasMember_of_findMember h]
  cases o with
  | none => exact .inr ⟨by simp, rfl⟩
  | some m => exact .inl ⟨rfl, (), rfl⟩

theorem checks_assertArray (v : Json) : Checks v.assertArray (v.isArray = true) := by
  unfold assertArray
  by_cases h : v.isArray = true
  · exact .inl ⟨h, (), if_pos h⟩
  · exact .inr ⟨h, if_neg h⟩

/-- A string that is checked and then read. -/
theorem checks_string (v : Json) :
    Checks (do v.assertString; v.getString) (v.isString = true) := by
  cases v with
  | str s => exact .inl ⟨rfl, cStr s, rfl⟩
  | _ => exact .inr ⟨by simp [isString], rfl⟩

/-- An `int` that is checked and then read. -/
theorem checks_int (v : Json) : Checks (do v.assertInt; v.getInt) (v.isInt = true) := by
  by_cases h : v.isInt = true
  · cases v with
    | int n => exact .inl ⟨h, Int32.ofInt n, by simp [assertInt, getInt, h, Bind.bind, Except.bind]⟩
    | _ => cases h
  · exact .inr ⟨h, by simp [assertInt, h, Bind.bind, Except.bind]⟩

section Members

variable {v : Json} {name : Bytes} {o : Option Json} {α : Type} {f : Json → Except JsonError α}

/-- A member that is looked up once it is known to be there, and then checked. -/
theorem checks_member {p : Json → Prop} (h : v.findMember name = .ok o)
    (hf : ∀ m, Checks (f m) (p m)) :
    Checks (do v.assertContains name; f (← v.member name)) (∃ m, o = some m ∧ p m) := by
  cases o with
  | none =>
    refine ((checks_assertContains h).bind (q := True) fun _ hok => ?_).congr (by simp)
    cases (checks_assertContains h).holds hok
  | some m =>
    refine ((checks_assertContains h).bind (q := p m) fun _ _ => ?_).congr (by simp)
    rw [member_of_findMember h]
    exact hf m

theorem checks_getStringMember (h : v.findMember name = .ok o) :
    Checks (v.getStringMember name) (∃ m, o = some m ∧ m.isString = true) :=
  checks_member h checks_string

theorem checks_getIntMember (h : v.findMember name = .ok o) :
    Checks (v.getIntMember name) (∃ m, o = some m ∧ m.isInt = true) :=
  checks_member h checks_int

end Members

/-! ## Texts -/

mutual

/-- No number of the value is lost in its text: all of them are integers of at most 64 bits. -/
def plain : Json → Bool
  | .int n => decide (-9223372036854775808 ≤ n ∧ n < 18446744073709551616)
  | .real _ => false
  | .arr xs => plainElements xs
  | .obj ms => plainMembers ms
  | _ => true

def plainElements : List Json → Bool
  | [] => true
  | x :: xs => x.plain && plainElements xs

def plainMembers : List (Bytes × Json) → Bool
  | [] => true
  | m :: ms => m.2.plain && plainMembers ms

end

/-- A JSON library: a writer and a parser that reads back what the writer wrote. -/
structure Library where
  /-- The value of a text, if it is a JSON text. -/
  parse : Bytes → Option Json
  /-- The text of a value. -/
  write : Json → Bytes
  parse_write : ∀ v : Json, v.plain = true → parse (write v) = some v
  /-- An empty text is no JSON text. -/
  parse_nil : parse [] = none
  nulFree_write : ∀ v : Json, NulFree (write v)

end Json
