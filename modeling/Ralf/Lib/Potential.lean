import Mathlib.Algebra.BigOperators.Ring.Finset
import Mathlib.Algebra.Order.BigOperators.Group.Finset
import Mathlib.Data.Fintype.Basic
import Ralf.Lib.Runs

/-!
# Potentials

How long the runs of a machine can be. `tally` counts the steps of a run that have a property. A
potential that every busy step lowers, that no other step raises, and that a setback raises by at
most `D`, bounds the number of busy steps by itself and the setbacks (`Along.tally_le`), and in an
infinite run the busy steps or the setbacks never stop (`quiet_or_setbacks`).

For threads over a shared state the potential is made of two numbers for each thread: the writes it
has `left`, and the `cost` of what it does between them. A write may undo some of the work of the
others, as when they have to read again what was just written. If it undoes no more than the
`slack` of each, the pool makes progress all the same (`Pool.potential_lt_of_write`).
-/

namespace Runs

section Machine

variable {σ ι : Type*} (step : ι → σ → σ)

/-- The number of steps of the run at which `p` holds. -/
def tally (p : σ → ι → Bool) : List ι → σ → ℕ
  | [], _ => 0
  | a :: as, s => (p s a).toNat + tally p as (step a s)

variable {step} {Ok : σ → ι → Prop} {busy setback : σ → ι → Bool} {μ : σ → ℕ} {D : ℕ}

/-- The steps that cost something are paid for by the potential and the setbacks. -/
theorem Along.tally_le
    (hstep : ∀ s a, Ok s a → μ (step a s) + (busy s a).toNat ≤ μ s + D * (setback s a).toNat)
    {as : List ι} {s : σ} (h : Along step Ok as s) :
    tally step busy as s + μ (exec step as s) ≤ μ s + D * tally step setback as s := by
  induction as generalizing s with
  | nil => simp [tally, exec]
  | cons a as ih =>
    have hfirst := hstep s a h.1
    have hrest := ih h.2
    simp only [tally, exec, Nat.mul_add]
    omega

/-- In an infinite run the busy steps come to an end, or the setbacks do not. -/
theorem quiet_or_setbacks
    (hstep : ∀ s a, Ok s a → μ (step a s) + (busy s a).toNat ≤ μ s + D * (setback s a).toNat)
    {f : ℕ → ι} {s : σ} (hok : ∀ n, Ok (stateAt step f s n) (f n)) :
    (∃ n, ∀ m, n ≤ m → busy (stateAt step f s m) (f m) = false) ∨
      ∀ n, ∃ m, n ≤ m ∧ setback (stateAt step f s m) (f m) = true := by
  by_contra hnot
  rw [not_or, not_forall] at hnot
  obtain ⟨hbusy, n₀, hlast⟩ := hnot
  have hfree : ∀ m, n₀ ≤ m → setback (stateAt step f s m) (f m) = false := by
    intro m hm
    rw [← Bool.not_eq_true]
    exact fun h => hlast ⟨m, hm, h⟩
  -- from `n₀` on the potential only falls, so it has a least value there
  have hfalls : ∀ m, n₀ ≤ m →
      μ (stateAt step f s (m + 1)) + (busy (stateAt step f s m) (f m)).toNat ≤
        μ (stateAt step f s m) := by
    intro m hm
    have hm' := hstep _ _ (hok m)
    rw [hfree m hm] at hm'
    exact hm'
  have hleast : ∃ x n, n₀ ≤ n ∧ μ (stateAt step f s n) = x := ⟨_, n₀, le_refl n₀, rfl⟩
  classical
  obtain ⟨n, hn, heq⟩ := Nat.find_spec hleast
  have hle : ∀ m, n ≤ m → μ (stateAt step f s m) ≤ μ (stateAt step f s n) := by
    intro m hm
    induction m, hm using Nat.le_induction with
    | base => exact le_refl _
    | succ m hm ih => exact (Nat.le_of_add_right_le (hfalls m (hn.trans hm))).trans ih
  refine hbusy ⟨n, fun m hm => ?_⟩
  rw [← Bool.not_eq_true]
  intro hwork
  have hlow := hfalls m (hn.trans hm)
  have hmin := Nat.find_min' hleast ⟨m + 1, by omega, rfl⟩
  have hm' := hle m hm
  rw [hwork, Bool.toNat_true] at hlow
  omega

/-- What no step changes from `n` on stays as it is there. -/
theorem stateAt_still {τ : Type*} {g : σ → τ} {f : ℕ → ι} {s : σ} {n : ℕ}
    (h : ∀ m, n ≤ m → g (step (f m) (stateAt step f s m)) = g (stateAt step f s m)) {m : ℕ}
    (hm : n ≤ m) : g (stateAt step f s m) = g (stateAt step f s n) := by
  induction m, hm using Nat.le_induction with
  | base => rfl
  | succ m hm ih => exact (h m hm).trans ih

end Machine

/-! ## Pools -/

namespace Pool

variable {κ π Ω ε : Type*} [Fintype κ] (left : κ → π → ℕ) (cost : κ → π → Ω → ℕ) (slack : κ → ℕ)

/-- What the slacks of all threads come to. -/
def totalSlack : ℕ := ∑ i, slack i

/-- A write is worth more than everything it can undo. -/
def potential (p : Pool κ π Ω ε) : ℕ :=
  ∑ i, (left i (p.pc i) * (totalSlack slack + 1) + cost i (p.pc i) p.shared)

variable {left cost slack} {p p' : Pool κ π Ω ε}

theorem slack_le_totalSlack (i : κ) : slack i ≤ totalSlack slack :=
  Finset.single_le_sum (fun _ _ => Nat.zero_le _) (Finset.mem_univ i)

/-- A step that undoes no more than the slacks raises the potential by no more than them. -/
theorem potential_le_add
    (hall : ∀ j, left j (p'.pc j) ≤ left j (p.pc j) ∧
      cost j (p'.pc j) p'.shared ≤ cost j (p.pc j) p.shared + slack j) :
    potential left cost slack p' ≤ potential left cost slack p + totalSlack slack := by
  unfold potential
  rw [totalSlack, ← Finset.sum_add_distrib]
  refine Finset.sum_le_sum fun j _ => ?_
  obtain ⟨hleft, hcost⟩ := hall j
  have := Nat.mul_le_mul_right (totalSlack slack + 1) hleft
  unfold totalSlack at this
  omega

variable [DecidableEq κ] {i : κ}

/-- What one thread gives up, all of them together have less. -/
theorem sum_update_add_le {f : κ → π → ℕ} {pc : κ → π} {x : π} {d : ℕ}
    (h : f i x + d ≤ f i (pc i)) : ∑ j, f j (Function.update pc i x j) + d ≤ ∑ j, f j (pc j) := by
  rw [← Finset.add_sum_erase _ _ (Finset.mem_univ i),
    ← Finset.add_sum_erase _ (fun j => f j (pc j)) (Finset.mem_univ i), Function.update_self]
  have hrest : ∑ j ∈ Finset.univ.erase i, f j (Function.update pc i x j) =
      ∑ j ∈ Finset.univ.erase i, f j (pc j) := by
    refine Finset.sum_congr rfl fun j hj => ?_
    rw [Function.update_of_ne (Finset.ne_of_mem_erase hj)]
  omega

/-- A step that lowers the cost of its thread and leaves the other threads alone. -/
theorem potential_add_lt {d : ℕ} (hothers : ∀ j, j ≠ i → p'.pc j = p.pc j)
    (hleft : left i (p'.pc i) ≤ left i (p.pc i))
    (hcost : cost i (p'.pc i) p'.shared < cost i (p.pc i) p.shared + d)
    (hrest : ∀ j, j ≠ i → cost j (p.pc j) p'.shared ≤ cost j (p.pc j) p.shared) :
    potential left cost slack p' < potential left cost slack p + d := by
  unfold potential
  rw [← Finset.add_sum_erase _ _ (Finset.mem_univ i),
    ← Finset.add_sum_erase (a := i) (s := Finset.univ)
      (f := fun j => left j (p.pc j) * (totalSlack slack + 1) + cost j (p.pc j) p.shared)
      (h := Finset.mem_univ i)]
  have hsum : ∑ j ∈ Finset.univ.erase i,
      (left j (p'.pc j) * (totalSlack slack + 1) + cost j (p'.pc j) p'.shared) ≤
      ∑ j ∈ Finset.univ.erase i,
        (left j (p.pc j) * (totalSlack slack + 1) + cost j (p.pc j) p.shared) := by
    refine Finset.sum_le_sum fun j hj => ?_
    have hne : j ≠ i := (Finset.mem_erase.mp hj).1
    rw [hothers j hne]
    exact Nat.add_le_add_left (hrest j hne) _
  have := Nat.mul_le_mul_right (totalSlack slack + 1) hleft
  omega

/-- A write: it pays for what it undoes. -/
theorem potential_lt_of_write (hothers : ∀ j, j ≠ i → p'.pc j = p.pc j)
    (hleft : left i (p'.pc i) < left i (p.pc i))
    (hcost : ∀ j, cost j (p'.pc j) p'.shared ≤ cost j (p.pc j) p.shared + slack j) :
    potential left cost slack p' < potential left cost slack p := by
  unfold potential
  rw [Finset.sum_add_distrib, Finset.sum_add_distrib]
  have hsum : ∑ j, cost j (p'.pc j) p'.shared ≤
      ∑ j, cost j (p.pc j) p.shared + totalSlack slack := by
    rw [totalSlack, ← Finset.sum_add_distrib]
    exact Finset.sum_le_sum fun j _ => hcost j
  have hwrites : ∑ j, left j (p'.pc j) < ∑ j, left j (p.pc j) := by
    refine Finset.sum_lt_sum (fun j _ => ?_) ⟨i, Finset.mem_univ i, hleft⟩
    by_cases hj : j = i
    · rw [hj]
      exact hleft.le
    · rw [hothers j hj]
  rw [← Finset.sum_mul, ← Finset.sum_mul]
  have hpaid := Nat.mul_le_mul_right (totalSlack slack + 1) (Nat.succ_le_of_lt hwrites)
  rw [Nat.succ_mul] at hpaid
  omega

end Pool

end Runs
