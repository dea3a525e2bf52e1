import Mathlib.Data.List.TakeWhile

/-!
# Byte strings

C++ strings as lists of bytes: the literals, the part of a string that survives a trip through a
NUL-terminated pointer, and the decimal form `std::to_string` writes.
-/

/-- A C++ `std::string`. -/
abbrev Bytes := List UInt8

namespace Bytes

/-- The bytes of an ASCII literal. -/
def ascii (s : String) : Bytes := s.toList.map fun c => c.toNat.toUInt8

/-- What is left of a string read back through `c_str()`: it ends at the first NUL. -/
def cStr (s : Bytes) : Bytes := s.takeWhile (· ≠ 0)

/-- A string that `c_str()` does not shorten. -/
def NulFree (s : Bytes) : Prop := ∀ b ∈ s, b ≠ 0

instance : DecidablePred NulFree := fun s => List.decidableBAll (fun b => b ≠ 0) s

/-- `std::to_string` of a signed integer. -/
def decimal (n : ℤ) : Bytes := ascii (toString n)

theorem cStr_of_nulFree {s : Bytes} (h : NulFree s) : cStr s = s := by
  unfold cStr
  rw [List.takeWhile_eq_self_iff]
  intro b hb
  simpa using h b hb

theorem nulFree_cStr (s : Bytes) : NulFree (cStr s) := by
  intro b hb
  simpa using List.mem_takeWhile_imp hb

@[simp] theorem cStr_cStr (s : Bytes) : cStr (cStr s) = cStr s :=
  cStr_of_nulFree (nulFree_cStr s)

end Bytes
