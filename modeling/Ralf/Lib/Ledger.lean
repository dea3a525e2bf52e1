import Mathlib.Data.List.Nodup
import Mathlib.Data.Set.Card

/-!
# Consecutive numbers

Parties take consecutive numbers one after another. `Numbers num l C` says that the parties in `l`
are those with a number, and that the one in place `j` has the number `num (j + 1)`; `num` may wrap
around, in which case numbers are told apart only as long as the list is short enough.
-/

namespace Ledger

variable {κ ν : Type*}

/-- The parties in `l` have taken the numbers from 1 on, in this order, and nobody else has one. -/
structure Numbers (num : ℕ → ν) (l : List κ) (C : κ → ν → Prop) : Prop where
  nodup : l.Nodup
  iff : ∀ i n, C i n ↔ ∃ j, l[j]? = some i ∧ n = num (j + 1)

variable {num : ℕ → ν} {l : List κ} {C C' : κ → ν → Prop} {i : κ}

theorem Numbers.nil (h : ∀ i n, ¬ C i n) : Numbers num [] C :=
  ⟨.nil, fun i n => by simp [h i n]⟩

theorem Numbers.congr (h : Numbers num l C) (hC : ∀ i n, C' i n ↔ C i n) : Numbers num l C' :=
  ⟨h.nodup, fun i n => (hC i n).trans (h.iff i n)⟩

theorem Numbers.mem_iff (h : Numbers num l C) : i ∈ l ↔ ∃ n, C i n := by
  constructor
  · intro hi
    obtain ⟨j, hj⟩ := List.mem_iff_getElem?.mp hi
    exact ⟨_, (h.iff i _).mpr ⟨j, hj, rfl⟩⟩
  · rintro ⟨n, hn⟩
    obtain ⟨j, hj, -⟩ := (h.iff i n).mp hn
    exact List.mem_of_getElem? hj

/-- A newcomer takes the next number. -/
theorem Numbers.concat (h : Numbers num l C) (hi : i ∉ l)
    (hC : ∀ k n, C' k n ↔ C k n ∨ k = i ∧ n = num (l.length + 1)) :
    Numbers num (l ++ [i]) C' where
  nodup := by
    rw [← List.concat_eq_append]
    exact h.nodup.concat hi
  iff := by
    intro k n
    rw [hC, h.iff]
    constructor
    · rintro (⟨j, hj, rfl⟩ | ⟨rfl, rfl⟩)
      · exact ⟨j, by rw [List.getElem?_append_left (List.getElem?_eq_some_iff.mp hj).1, hj], rfl⟩
      · exact ⟨l.length, by simp, rfl⟩
    · rintro ⟨j, hj, rfl⟩
      by_cases hlt : j < l.length
      · rw [List.getElem?_append_left hlt] at hj
        exact .inl ⟨j, hj, rfl⟩
      · rw [List.getElem?_append_right (not_lt.mp hlt), List.getElem?_singleton] at hj
        split_ifs at hj with hz
        have hj' : j = l.length := by omega
        exact .inr ⟨(Option.some.inj hj).symm, by rw [hj']⟩

/-- A single party. -/
theorem Numbers.singleton (hC : ∀ k n, C k n ↔ k = i ∧ n = num 1) : Numbers num [i] C :=
  (Numbers.nil (C := fun _ _ => False) fun _ _ => id).concat List.not_mem_nil fun k n => by
    rw [hC, false_or]
    rfl

/-- As many numbers as parties. -/
theorem Numbers.ncard (h : Numbers num l C) : {i | ∃ n, C i n}.ncard = l.length := by
  classical
  have hset : {i | ∃ n, C i n} = (l.toFinset : Set κ) := by
    ext i
    show (∃ n, C i n) ↔ _
    rw [← h.mem_iff]
    simp
  rw [hset, Set.ncard_coe_finset, List.toFinset_card_of_nodup h.nodup]

theorem Numbers.bounds (h : Numbers num l C) {n : ν} (hn : C i n) :
    ∃ k, n = num k ∧ 1 ≤ k ∧ k ≤ l.length := by
  obtain ⟨j, hj, rfl⟩ := (h.iff i n).mp hn
  exact ⟨j + 1, rfl, by omega, (List.getElem?_eq_some_iff.mp hj).1⟩

/-- No number is left out. -/
theorem Numbers.exists (h : Numbers num l C) {k : ℕ} (h1 : 1 ≤ k) (hk : k ≤ l.length) :
    ∃ i, C i (num k) := by
  obtain ⟨j, rfl⟩ : ∃ j, k = j + 1 := ⟨k - 1, by omega⟩
  have hj : j < l.length := by omega
  exact ⟨l[j], (h.iff _ _).mpr ⟨j, List.getElem?_eq_getElem hj, rfl⟩⟩

/-- No number is taken twice. -/
theorem Numbers.unique (h : Numbers num l C)
    (hinj : ∀ k k', k ≤ l.length → k' ≤ l.length → num k = num k' → k = k') {i' : κ} {n : ν}
    (hi : C i n) (hi' : C i' n) : i = i' := by
  obtain ⟨j, hj, rfl⟩ := (h.iff i n).mp hi
  obtain ⟨j', hj', hnum⟩ := (h.iff i' _).mp hi'
  have hlt := (List.getElem?_eq_some_iff.mp hj).1
  have hlt' := (List.getElem?_eq_some_iff.mp hj').1
  have heq := hinj (j + 1) (j' + 1) (by omega) (by omega) hnum
  obtain rfl : j = j' := by omega
  rw [hj] at hj'
  exact Option.some.inj hj'

/-- A party has one number. -/
theorem Numbers.functional (h : Numbers num l C) {n n' : ν} (hn : C i n) (hn' : C i n') :
    n = n' := by
  obtain ⟨j, hj, rfl⟩ := (h.iff i n).mp hn
  obtain ⟨j', hj', rfl⟩ := (h.iff i n').mp hn'
  have hlt := (List.getElem?_eq_some_iff.mp hj).1
  rw [(List.getElem?_inj hlt h.nodup).mp (hj.trans hj'.symm)]

/-- The last party has the number of all parties together. -/
theorem Numbers.last (h : Numbers num l C) (hlast : l.getLast? = some i) : C i (num l.length) := by
  rw [List.getLast?_eq_getElem?] at hlast
  have hlt := (List.getElem?_eq_some_iff.mp hlast).1
  exact (h.iff i _).mpr ⟨l.length - 1, hlast, by rw [Nat.sub_add_cancel (by omega)]⟩

end Ledger
