import Mathlib.Data.List.Basic
import Mathlib.Tactic.SplitIfs
import Ralf.Lib.Json

/-!
# JSON texts

A JSON library: the compact writer, which escapes quotes, backslashes and control characters and
passes every other byte through, and a recursive-descent parser. `parse_write` is the round trip.
The parser runs on fuel, one unit for each value it opens; the length of the text is always enough.
-/

namespace JsonText

open Bytes

/-! ## Writing -/

def hexDigit (n : UInt8) : UInt8 := if n < 10 then 48 + n else 55 + n

/-- A byte inside a string literal. -/
def escape (b : UInt8) : Bytes :=
  if b = 34 then [92, 34]
  else if b = 92 then [92, 92]
  else if b = 8 then [92, 98]
  else if b = 9 then [92, 116]
  else if b = 10 then [92, 110]
  else if b = 12 then [92, 102]
  else if b = 13 then [92, 114]
  else if b < 32 then [92, 117, 48, 48, hexDigit (b / 16), hexDigit (b % 16)]
  else [b]

/-- A string literal, without its opening quote. -/
def writeString (s : Bytes) : Bytes := s.flatMap escape ++ [34]

mutual

def write : Json → Bytes
  | .null => ascii "null"
  | .bool true => ascii "true"
  | .bool false => ascii "false"
  | .int n => decimal n
  | .real bits => decimal bits.toNat ++ ascii ".0"
  | .str s => 34 :: writeString s
  | .arr [] => [91, 93]
  | .arr (x :: xs) => 91 :: (write x ++ writeElements xs)
  | .obj [] => [123, 125]
  | .obj (m :: ms) => 123 :: 34 :: (writeString m.1 ++ 58 :: (write m.2 ++ writeMembers ms))

/-- The elements after the first, and the closing bracket. -/
def writeElements : List Json → Bytes
  | [] => [93]
  | x :: xs => 44 :: (write x ++ writeElements xs)

/-- The members after the first, and the closing brace. -/
def writeMembers : List (Bytes × Json) → Bytes
  | [] => [125]
  | m :: ms => 44 :: 34 :: (writeString m.1 ++ 58 :: (write m.2 ++ writeMembers ms))

end

/-! ## Reading -/

def unhex (c : UInt8) : UInt8 := if c < 58 then c - 48 else c - 55

/-- The byte an escape letter stands for. -/
def unescape (e : UInt8) : UInt8 :=
  if e = 98 then 8 else if e = 116 then 9 else if e = 110 then 10 else if e = 102 then 12
  else if e = 114 then 13 else e

/-- How far the parser is inside a string literal. -/
inductive Quoted where
  | plain
  /-- After a backslash. -/
  | escape
  /-- Inside a `\u` escape, with the digits still to come and the value so far. -/
  | hex (left : ℕ) (value : UInt8)

/-- The rest of a string literal, after its opening quote. -/
def readString : Quoted → Bytes → Option (Bytes × Bytes)
  | _, [] => none
  | .plain, b :: rest =>
    if b = 34 then some ([], rest)
    else if b = 92 then readString .escape rest
    else (readString .plain rest).map fun p => (b :: p.1, p.2)
  | .escape, b :: rest =>
    if b = 117 then readString (.hex 3 0) rest
    else (readString .plain rest).map fun p => (unescape b :: p.1, p.2)
  | .hex 0 v, b :: rest =>
    (readString .plain rest).map fun p => ((16 * v + unhex b) :: p.1, p.2)
  | .hex (k + 1) v, b :: rest => readString (.hex k (16 * v + unhex b)) rest

def isDigit (b : UInt8) : Bool := 48 ≤ b && b ≤ 57

/-- The digits a text starts with, as a number. -/
def readNat (bs : Bytes) : ℕ := (bs.takeWhile isDigit).foldl (fun n b => 10 * n + (b.toNat - 48)) 0

def readInt (bs : Bytes) : ℤ × Bytes :=
  match bs with
  | 45 :: rest => (-(readNat rest : ℤ), rest.dropWhile isDigit)
  | _ => (readNat bs, bs.dropWhile isDigit)

mutual

def read : ℕ → Bytes → Option (Json × Bytes)
  | 0, _ => none
  | _, [] => none
  | n + 1, b :: rest =>
    if b = 110 then some (.null, rest.drop 3)
    else if b = 116 then some (.bool true, rest.drop 3)
    else if b = 102 then some (.bool false, rest.drop 4)
    else if b = 34 then (readString .plain rest).map fun p => (.str p.1, p.2)
    else if b = 91 then
      if rest.head? = some 93 then some (.arr [], rest.drop 1)
      else do
        let (x, rest) ← read n rest
        let (xs, rest) ← readElements n rest
        return (.arr (x :: xs), rest)
    else if b = 123 then
      if rest.head? = some 125 then some (.obj [], rest.drop 1)
      else do
        let (name, rest) ← readString .plain (rest.drop 1)
        let (x, rest) ← read n (rest.drop 1)
        let (ms, rest) ← readMembers n rest
        return (.obj ((name, x) :: ms), rest)
    else if b == 45 || isDigit b then some (.int (readInt (b :: rest)).1, (readInt (b :: rest)).2)
    else none

def readElements : ℕ → Bytes → Option (List Json × Bytes)
  | 0, _ => none
  | _, [] => none
  | n + 1, b :: rest =>
    if b = 93 then some ([], rest)
    else if b = 44 then do
      let (x, rest) ← read n rest
      let (xs, rest) ← readElements n rest
      return (x :: xs, rest)
    else none

def readMembers : ℕ → Bytes → Option (List (Bytes × Json) × Bytes)
  | 0, _ => none
  | _, [] => none
  | n + 1, b :: rest =>
    if b = 125 then some ([], rest)
    else if b = 44 then do
      let (name, rest) ← readString .plain (rest.drop 1)
      let (x, rest) ← read n (rest.drop 1)
      let (ms, rest) ← readMembers n rest
      return ((name, x) :: ms, rest)
    else none

end

/-- A text is one value and nothing after it. -/
def parse (bs : Bytes) : Option Json :=
  match read (bs.length + 1) bs with
  | some (v, []) => some v
  | _ => none

/-! ## Strings -/

theorem hex_byte {b : UInt8} (h : b < 32) :
    16 * (16 * (16 * (16 * 0 + unhex 48) + unhex 48) + unhex (hexDigit (b / 16))) +
      unhex (hexDigit (b % 16)) = b := by
  have hall : ∀ n < 32, 16 * (16 * (16 * (16 * 0 + unhex 48) + unhex 48) +
      unhex (hexDigit (UInt8.ofNat n / 16))) + unhex (hexDigit (UInt8.ofNat n % 16)) =
        UInt8.ofNat n := by decide
  have hb := hall b.toNat (UInt8.lt_iff_toNat_lt.mp h)
  rwa [UInt8.ofNat_toNat] at hb

theorem readString_escape (b : UInt8) (rest : Bytes) :
    readString .plain (escape b ++ rest) =
      (readString .plain rest).map fun p => (b :: p.1, p.2) := by
  unfold escape
  split_ifs with h1 h2 h3 h4 h5 h6 h7 h8
  · subst h1; rfl
  · subst h2; rfl
  · subst h3; rfl
  · subst h4; rfl
  · subst h5; rfl
  · subst h6; rfl
  · subst h7; rfl
  · show (readString .plain rest).map _ = _
    rw [hex_byte h8]
  · show readString .plain (b :: rest) = _
    rw [readString, if_neg h1, if_neg h2]

theorem readString_writeString (s rest : Bytes) :
    readString .plain (writeString s ++ rest) = some (s, rest) := by
  unfold writeString
  induction s with
  | nil => rfl
  | cons b s ih =>
    rw [List.flatMap_cons, List.append_assoc, List.append_assoc, readString_escape]
    rw [List.append_assoc] at ih
    rw [ih]
    rfl

/-! ## Numbers -/

/-- What follows a number does not start with a digit. -/
def NoDigit (rest : Bytes) : Prop := ∀ b, rest.head? = some b → isDigit b = false

theorem noDigit_cons {b : UInt8} {rest : Bytes} (h : isDigit b = false) : NoDigit (b :: rest) := by
  intro c hc
  cases hc
  exact h

/-- The digits of a natural number. -/
def digits (n : ℕ) : Bytes := (Nat.toDigits 10 n).map fun c => c.toNat.toUInt8

theorem char_of_digit {c : Char} (h : c.isDigit = true) :
    isDigit c.toNat.toUInt8 = true ∧ c.toNat.toUInt8.toNat = c.toNat := by
  simp only [Char.isDigit, Bool.and_eq_true, decide_eq_true_eq, UInt32.le_iff_toNat_le] at h
  have h1 : 48 ≤ c.toNat := h.1
  have h2 : c.toNat ≤ 57 := h.2
  have h3 : c.toNat.toUInt8.toNat = c.toNat := by
    simp only [Nat.toUInt8, UInt8.toNat_ofNat']
    omega
  refine ⟨?_, h3⟩
  simp only [isDigit, Bool.and_eq_true, decide_eq_true_eq, UInt8.le_iff_toNat_le, h3]
  exact ⟨h1, h2⟩

theorem isDigit_of_mem_digits {n : ℕ} {b : UInt8} (h : b ∈ digits n) : isDigit b = true := by
  obtain ⟨c, hc, rfl⟩ := List.mem_map.mp h
  exact (char_of_digit (Nat.isDigit_of_mem_toDigits (by omega) (by omega) hc)).1

theorem foldl_digits (cs : List Char) (h : ∀ c ∈ cs, c.isDigit = true) (n : ℕ) :
    (cs.map fun c => c.toNat.toUInt8).foldl (fun n b => 10 * n + (b.toNat - 48)) n =
      Nat.ofDigitChars 10 cs n := by
  induction cs generalizing n with
  | nil => simp
  | cons c cs ih =>
    rw [List.map_cons, List.foldl_cons, Nat.ofDigitChars_cons, (char_of_digit (h c (by simp))).2]
    exact ih (fun d hd => h d (by simp [hd])) _

theorem takeWhile_digits (n : ℕ) {rest : Bytes} (h : NoDigit rest) :
    (digits n ++ rest).takeWhile isDigit = digits n := by
  rw [List.takeWhile_append_of_pos fun b hb => isDigit_of_mem_digits hb]
  cases rest with
  | nil => simp
  | cons b rest => simp [h b rfl]

theorem dropWhile_digits (n : ℕ) {rest : Bytes} (h : NoDigit rest) :
    (digits n ++ rest).dropWhile isDigit = rest := by
  rw [List.dropWhile_append_of_pos fun b hb => isDigit_of_mem_digits hb]
  cases rest with
  | nil => simp
  | cons b rest => simp [h b rfl]

theorem readNat_digits (n : ℕ) {rest : Bytes} (h : NoDigit rest) :
    readNat (digits n ++ rest) = n := by
  unfold readNat
  rw [takeWhile_digits n h]
  unfold digits
  rw [foldl_digits _ fun c hc => Nat.isDigit_of_mem_toDigits (by omega) (by omega) hc]
  exact Nat.ofDigitChars_ten_toDigits

theorem decimal_ofNat (n : ℕ) : decimal (Int.ofNat n) = digits n := by
  show (Nat.repr n).toList.map _ = _
  rw [Nat.toList_repr]
  rfl

theorem decimal_negSucc (n : ℕ) : decimal (Int.negSucc n) = 45 :: digits (n + 1) := by
  show ("-" ++ Nat.repr (n + 1)).toList.map _ = _
  rw [String.toList_append, Nat.toList_repr]
  rfl

theorem digits_eq_cons (n : ℕ) : ∃ b bs, digits n = b :: bs := by
  cases h : digits n with
  | nil =>
    unfold digits at h
    exact absurd (List.map_eq_nil_iff.mp h) Nat.toDigits_ne_nil
  | cons b bs => exact ⟨b, bs, rfl⟩

theorem readInt_of_ne {b : UInt8} {rest : Bytes} (h : b ≠ 45) :
    readInt (b :: rest) = ((readNat (b :: rest) : ℤ), (b :: rest).dropWhile isDigit) := by
  unfold readInt
  split
  · rename_i heq
    cases heq
    exact absurd rfl h
  · rfl

theorem ne_of_isDigit {b : UInt8} (h : isDigit b = true) (c : UInt8) (hc : isDigit c = false) :
    b ≠ c := by
  rintro rfl
  rw [h] at hc
  cases hc

theorem readInt_decimal (n : ℤ) {rest : Bytes} (h : NoDigit rest) :
    readInt (decimal n ++ rest) = (n, rest) := by
  cases n with
  | ofNat n =>
    rw [decimal_ofNat]
    obtain ⟨b, bs, hb⟩ := digits_eq_cons n
    have hd : isDigit b = true := isDigit_of_mem_digits (n := n) (by rw [hb]; simp)
    have hne := ne_of_isDigit hd 45 (by decide)
    have hnat := readNat_digits n h
    have hdrop := dropWhile_digits n h
    rw [hb, List.cons_append] at hnat hdrop ⊢
    rw [readInt_of_ne hne, hnat, hdrop]
    rfl
  | negSucc n =>
    rw [decimal_negSucc]
    show (-(readNat (digits (n + 1) ++ rest) : ℤ), (digits (n + 1) ++ rest).dropWhile isDigit) = _
    rw [readNat_digits (n + 1) h, dropWhile_digits (n + 1) h]
    rfl

/-! ## Values -/

/-- A number, written or read, starts with a digit or a minus sign. -/
theorem decimal_eq_cons (n : ℤ) : ∃ b bs, decimal n = b :: bs ∧ (b == 45 || isDigit b) = true := by
  cases n with
  | ofNat n =>
    rw [decimal_ofNat]
    obtain ⟨b, bs, hb⟩ := digits_eq_cons n
    have hd : isDigit b = true := isDigit_of_mem_digits (n := n) (by rw [hb]; simp)
    exact ⟨b, bs, hb, by rw [hd, Bool.or_true]⟩
  | negSucc n => exact ⟨45, _, decimal_negSucc n, rfl⟩

theorem ne_of_number {b : UInt8} (h : (b == 45 || isDigit b) = true) (c : UInt8)
    (hc : (c == 45 || isDigit c) = false) : b ≠ c := by
  rintro rfl
  rw [h] at hc
  cases hc

theorem read_number {b : UInt8} (h : (b == 45 || isDigit b) = true) (n : ℕ) (rest : Bytes) :
    read (n + 1) (b :: rest) = some (.int (readInt (b :: rest)).1, (readInt (b :: rest)).2) := by
  have hne := ne_of_number h
  rw [read, if_neg (hne 110 rfl), if_neg (hne 116 rfl), if_neg (hne 102 rfl), if_neg (hne 34 rfl),
    if_neg (hne 91 rfl), if_neg (hne 123 rfl), if_pos h]

/-- One part of a text after another, as the readers put them together. -/
theorem bind_bind_some {α β γ : Type} (x : Option α) (y : α → Option β) (f : α → β → γ) :
    (x.bind fun p => (y p).bind fun q => some (f p q)) = x.bind fun p => (y p).map (f p) := by
  cases x with
  | none => rfl
  | some p => exact Option.map_eq_bind.symm

theorem read_array {rest : Bytes} (h : rest.head? ≠ some 93) (n : ℕ) :
    read (n + 1) (91 :: rest) = (read n rest).bind fun p =>
      (readElements n p.2).map fun q => (.arr (p.1 :: q.1), q.2) := by
  show (if rest.head? = some 93 then _ else _) = _
  rw [if_neg h]
  exact bind_bind_some (read n rest) (fun p => readElements n p.2) _

theorem read_object (name rest : Bytes) (n : ℕ) :
    read (n + 1) (123 :: 34 :: (writeString name ++ 58 :: rest)) = (read n rest).bind fun p =>
      (readMembers n p.2).map fun q => (.obj ((name, p.1) :: q.1), q.2) := by
  show (readString .plain (writeString name ++ 58 :: rest)).bind _ = _
  rw [readString_writeString]
  exact bind_bind_some (read n rest) (fun p => readMembers n p.2) _

theorem readElements_cons (rest : Bytes) (n : ℕ) :
    readElements (n + 1) (44 :: rest) = (read n rest).bind fun p =>
      (readElements n p.2).map fun q => (p.1 :: q.1, q.2) :=
  bind_bind_some (read n rest) (fun p => readElements n p.2) _

theorem readMembers_cons (name rest : Bytes) (n : ℕ) :
    readMembers (n + 1) (44 :: 34 :: (writeString name ++ 58 :: rest)) = (read n rest).bind fun p =>
      (readMembers n p.2).map fun q => ((name, p.1) :: q.1, q.2) := by
  show (readString .plain (writeString name ++ 58 :: rest)).bind _ = _
  rw [readString_writeString]
  exact bind_bind_some (read n rest) (fun p => readMembers n p.2) _

theorem noDigit_writeElements (xs : List Json) (rest : Bytes) :
    NoDigit (writeElements xs ++ rest) := by
  cases xs with
  | nil => exact noDigit_cons rfl
  | cons x xs =>
    rw [writeElements]
    exact noDigit_cons rfl

theorem noDigit_writeMembers (ms : List (Bytes × Json)) (rest : Bytes) :
    NoDigit (writeMembers ms ++ rest) := by
  cases ms with
  | nil => exact noDigit_cons rfl
  | cons m ms =>
    rw [writeMembers]
    exact noDigit_cons rfl

/-- No value starts with a closing bracket. -/
theorem head_write (j : Json) : ∃ b bs, write j = b :: bs ∧ b ≠ 93 := by
  cases j with
  | null => exact ⟨110, _, rfl, by decide⟩
  | bool b =>
    cases b with
    | true => exact ⟨116, _, rfl, by decide⟩
    | false => exact ⟨102, _, rfl, by decide⟩
  | int n =>
    obtain ⟨b, bs, hb, hn⟩ := decimal_eq_cons n
    exact ⟨b, bs, by rw [write, hb], ne_of_number hn 93 rfl⟩
  | real bits =>
    obtain ⟨b, bs, hb, hn⟩ := decimal_eq_cons bits.toNat
    exact ⟨b, _, by rw [write, hb, List.cons_append], ne_of_number hn 93 rfl⟩
  | str s => exact ⟨34, _, rfl, by decide⟩
  | arr xs =>
    cases xs with
    | nil => exact ⟨91, _, rfl, by decide⟩
    | cons x xs => exact ⟨91, _, by rw [write], by decide⟩
  | obj ms =>
    cases ms with
    | nil => exact ⟨123, _, rfl, by decide⟩
    | cons m ms => exact ⟨123, _, by rw [write], by decide⟩

mutual

/-- The parser reads a value off the front of a text; the value's length is enough fuel. -/
theorem read_write (j : Json) (hj : j.plain = true) (n : ℕ) (hn : (write j).length ≤ n)
    (rest : Bytes) (hrest : NoDigit rest) : read n (write j ++ rest) = some (j, rest) := by
  obtain ⟨b, bs, hb, -⟩ := head_write j
  obtain ⟨n, rfl⟩ : ∃ m, n = m + 1 := by
    rw [hb, List.length_cons] at hn
    exact ⟨n - 1, by omega⟩
  match j with
  | .null => rfl
  | .bool true => rfl
  | .bool false => rfl
  | .int z =>
    obtain ⟨c, cs, hc, hz⟩ := decimal_eq_cons z
    have hint := readInt_decimal z hrest
    rw [write]
    rw [hc, List.cons_append] at hint ⊢
    rw [read_number hz, hint]
  | .real _ => cases hj
  | .str s =>
    rw [write]
    show (readString .plain (writeString s ++ rest)).map _ = _
    rw [readString_writeString]
    rfl
  | .arr [] => rfl
  | .arr (x :: xs) =>
    rw [Json.plain, Json.plainElements, Bool.and_eq_true] at hj
    rw [write, List.length_cons, List.length_append] at hn
    obtain ⟨c, cs, hc, hne⟩ := head_write x
    have hx := read_write x hj.1 n (by omega) _ (noDigit_writeElements xs rest)
    have hxs := readElements_write xs hj.2 n (by omega) rest
    rw [write, List.cons_append, List.append_assoc, read_array (by simpa [hc] using hne), hx,
      Option.bind_some, hxs]
    rfl
  | .obj [] => rfl
  | .obj (m :: ms) =>
    rw [Json.plain, Json.plainMembers, Bool.and_eq_true] at hj
    rw [write, List.length_cons, List.length_cons, List.length_append, List.length_cons,
      List.length_append] at hn
    have hx := read_write m.2 hj.1 n (by omega) _ (noDigit_writeMembers ms rest)
    have hms := readMembers_write ms hj.2 n (by omega) rest
    rw [write, List.cons_append, List.cons_append, List.append_assoc, List.cons_append,
      List.append_assoc, read_object, hx, Option.bind_some, hms]
    rfl

theorem readElements_write (xs : List Json) (hxs : Json.plainElements xs = true) (n : ℕ)
    (hn : (writeElements xs).length ≤ n) (rest : Bytes) :
    readElements n (writeElements xs ++ rest) = some (xs, rest) := by
  match xs with
  | [] =>
    rw [writeElements, List.length_singleton] at hn
    obtain ⟨n, rfl⟩ : ∃ m, n = m + 1 := ⟨n - 1, by omega⟩
    rfl
  | x :: xs =>
    rw [Json.plainElements, Bool.and_eq_true] at hxs
    rw [writeElements, List.length_cons, List.length_append] at hn
    obtain ⟨n, rfl⟩ : ∃ m, n = m + 1 := ⟨n - 1, by omega⟩
    have hx := read_write x hxs.1 n (by omega) _ (noDigit_writeElements xs rest)
    have ih := readElements_write xs hxs.2 n (by omega) rest
    rw [writeElements, List.cons_append, List.append_assoc, readElements_cons, hx,
      Option.bind_some, ih]
    rfl

theorem readMembers_write (ms : List (Bytes × Json)) (hms : Json.plainMembers ms = true) (n : ℕ)
    (hn : (writeMembers ms).length ≤ n) (rest : Bytes) :
    readMembers n (writeMembers ms ++ rest) = some (ms, rest) := by
  match ms with
  | [] =>
    rw [writeMembers, List.length_singleton] at hn
    obtain ⟨n, rfl⟩ : ∃ m, n = m + 1 := ⟨n - 1, by omega⟩
    rfl
  | m :: ms =>
    rw [Json.plainMembers, Bool.and_eq_true] at hms
    rw [writeMembers, List.length_cons, List.length_cons, List.length_append, List.length_cons,
      List.length_append] at hn
    obtain ⟨n, rfl⟩ : ∃ m, n = m + 1 := ⟨n - 1, by omega⟩
    have hx := read_write m.2 hms.1 n (by omega) _ (noDigit_writeMembers ms rest)
    have ih := readMembers_write ms hms.2 n (by omega) rest
    rw [writeMembers, List.cons_append, List.cons_append, List.append_assoc, List.cons_append,
      List.append_assoc, readMembers_cons, hx, Option.bind_some, ih]
    rfl

end

/-- **Round trip.** A written value parses to itself. -/
theorem parse_write (j : Json) (hj : j.plain = true) : parse (write j) = some j := by
  have h := read_write j hj ((write j).length + 1) (by omega) [] (by intro b hb; cases hb)
  rw [List.append_nil] at h
  unfold parse
  rw [h]

/-! ## No NUL is ever written -/

theorem nulFree_append {s t : Bytes} : NulFree (s ++ t) ↔ NulFree s ∧ NulFree t := by
  simp [NulFree, or_imp, forall_and]

theorem nulFree_cons {b : UInt8} {s : Bytes} : NulFree (b :: s) ↔ b ≠ 0 ∧ NulFree s := by
  simp [NulFree]

theorem hexDigit_ne_zero {n : UInt8} (h : n < 16) : hexDigit n ≠ 0 := by
  have hall : ∀ k < 16, hexDigit (UInt8.ofNat k) ≠ 0 := by decide
  have hn := hall n.toNat (UInt8.lt_iff_toNat_lt.mp h)
  rwa [UInt8.ofNat_toNat] at hn

theorem nulFree_escape (b : UInt8) : NulFree (escape b) := by
  unfold escape
  split_ifs with h1 h2 h3 h4 h5 h6 h7 h8
  iterate 7 decide
  · have hq : b / 16 < 16 := by
      rw [UInt8.lt_iff_toNat_lt, UInt8.toNat_div]
      have := b.toNat_lt
      simp only [UInt8.reduceToNat]
      omega
    have hr : b % 16 < 16 := by
      rw [UInt8.lt_iff_toNat_lt, UInt8.toNat_mod]
      simp only [UInt8.reduceToNat]
      omega
    simp only [nulFree_cons]
    exact ⟨by decide, by decide, by decide, by decide, hexDigit_ne_zero hq, hexDigit_ne_zero hr,
      by decide⟩
  · rintro c hc rfl
    cases List.mem_singleton.mp hc
    exact h8 (by decide)

theorem nulFree_writeString (s : Bytes) : NulFree (writeString s) := by
  unfold writeString
  rw [nulFree_append]
  refine ⟨?_, by decide⟩
  intro b hb
  obtain ⟨c, -, hc⟩ := List.mem_flatMap.mp hb
  exact nulFree_escape c b hc

theorem nulFree_decimal (n : ℤ) : NulFree (decimal n) := by
  have hdigits : ∀ m, NulFree (digits m) := by
    intro m b hb
    exact ne_of_isDigit (isDigit_of_mem_digits hb) 0 rfl
  cases n with
  | ofNat n =>
    rw [decimal_ofNat]
    exact hdigits n
  | negSucc n =>
    rw [decimal_negSucc, nulFree_cons]
    exact ⟨by decide, hdigits (n + 1)⟩

mutual

theorem nulFree_write (j : Json) : NulFree (write j) := by
  match j with
  | .null => decide
  | .bool true => decide
  | .bool false => decide
  | .int n => exact nulFree_decimal n
  | .real bits =>
    rw [write, nulFree_append]
    exact ⟨nulFree_decimal _, by decide⟩
  | .str s =>
    rw [write, nulFree_cons]
    exact ⟨by decide, nulFree_writeString s⟩
  | .arr [] => decide
  | .arr (x :: xs) =>
    rw [write, nulFree_cons, nulFree_append]
    exact ⟨by decide, nulFree_write x, nulFree_writeElements xs⟩
  | .obj [] => decide
  | .obj (m :: ms) =>
    rw [write, nulFree_cons, nulFree_cons, nulFree_append, nulFree_cons, nulFree_append]
    exact ⟨by decide, by decide, nulFree_writeString m.1, by decide, nulFree_write m.2,
      nulFree_writeMembers ms⟩

theorem nulFree_writeElements (xs : List Json) : NulFree (writeElements xs) := by
  match xs with
  | [] => decide
  | x :: xs =>
    rw [writeElements, nulFree_cons, nulFree_append]
    exact ⟨by decide, nulFree_write x, nulFree_writeElements xs⟩

theorem nulFree_writeMembers (ms : List (Bytes × Json)) : NulFree (writeMembers ms) := by
  match ms with
  | [] => decide
  | m :: ms =>
    rw [writeMembers, nulFree_cons, nulFree_cons, nulFree_append, nulFree_cons, nulFree_append]
    exact ⟨by decide, by decide, nulFree_writeString m.1, by decide, nulFree_write m.2,
      nulFree_writeMembers ms⟩

end

/-- The library. -/
def library : Json.Library where
  parse := parse
  write := write
  parse_write := parse_write
  parse_nil := rfl
  nulFree_write := nulFree_write

end JsonText
