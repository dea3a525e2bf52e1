import Mathlib.Data.Nat.Notation
import Mathlib.Data.List.Basic

/-!
# Versioned registers

A register holds nothing or one value, and every value carries the version the register gave it
when it was written. A writer who names the version it has read overwrites only the value it has
read, as long as no version is given out twice: a thread's copy stays good (`Tracks`) whatever
others write, and a write that is let through found exactly that copy
(`Tracks.cell_of_version`).
-/

namespace Versioned

/-- A register and the versions it has given out. -/
structure Register (α : Type*) where
  cell : Option α
  issued : List ℕ

namespace Register

variable {α : Type*} (ver : α → ℕ)

/-- The version a writer has to name; 0 stands for an empty register. -/
def version (r : Register α) : ℕ := r.cell.elim 0 ver

/-- Write under a new version. What is written may turn out to be nothing. -/
def put (r : Register α) (c : ℕ) (x : Option α) : Register α := ⟨x, c :: r.issued⟩

/-- Empty the register. -/
def erase (r : Register α) : Register α := { r with cell := none }

/-- The value in the register has a version that was given out, and that is not 0. -/
def Sound (r : Register α) : Prop := ∀ v, r.cell = some v → ver v ∈ r.issued ∧ ver v ≠ 0

/-- `held` was read from the register: while the register shows its version, it is the value. -/
structure Tracks (r : Register α) (held : α) : Prop where
  issued : ver held ∈ r.issued
  pos : ver held ≠ 0
  eq : ∀ v, r.cell = some v → ver v = ver held → v = held

variable {ver}

@[simp] theorem put_cell (r : Register α) (c : ℕ) (x : Option α) : (r.put c x).cell = x := rfl

theorem Sound.put {r : Register α} {c : ℕ} {x : Option α} (hc : c ≠ 0)
    (hx : ∀ v, x = some v → ver v = c) : Sound ver (r.put c x) := by
  intro v hv
  rw [hx v hv]
  exact ⟨List.mem_cons_self, hc⟩

theorem Sound.erase (r : Register α) : Sound ver r.erase := by
  intro v hv
  cases hv

theorem Tracks.of_read {r : Register α} {v : α} (hr : Sound ver r) (hv : r.cell = some v) :
    Tracks ver r v where
  issued := (hr v hv).1
  pos := (hr v hv).2
  eq := by
    intro w hw _
    rw [hv] at hw
    exact (Option.some.inj hw).symm

/-- A write under a fresh version does not invalidate copies read before. -/
theorem Tracks.put {r : Register α} {held : α} (h : Tracks ver r held) {c : ℕ} {x : Option α}
    (hc : c ∉ r.issued) (hx : ∀ v, x = some v → ver v = c) : Tracks ver (r.put c x) held where
  issued := List.mem_cons_of_mem _ h.issued
  pos := h.pos
  eq := by
    intro v hv hver
    have hcv : c = ver held := (hx v hv).symm.trans hver
    exact absurd (hcv ▸ h.issued) hc

theorem Tracks.erase {r : Register α} {held : α} (h : Tracks ver r held) :
    Tracks ver r.erase held where
  issued := h.issued
  pos := h.pos
  eq := by
    intro v hv
    cases hv

/-- The write of an unspoilt copy finds the copy. -/
theorem Tracks.cell_of_version {r : Register α} {held : α} (h : Tracks ver r held)
    (hv : r.version ver = ver held) : r.cell = some held := by
  unfold version at hv
  cases hc : r.cell with
  | none =>
    rw [hc] at hv
    exact absurd hv.symm h.pos
  | some v =>
    rw [hc] at hv
    rw [h.eq v hc hv]

/-- What can happen to a register: nothing, a write under a new version, or a delete. -/
inductive Evolves (ver : α → ℕ) (r : Register α) : Register α → Prop where
  | same : Evolves ver r r
  | put {c : ℕ} {x : Option α} (hc : c ∉ r.issued) (hpos : c ≠ 0)
      (hx : ∀ v, x = some v → ver v = c) : Evolves ver r (r.put c x)
  | erase : Evolves ver r r.erase

theorem Sound.evolves {r r' : Register α} (h : Sound ver r) (hr : r.Evolves ver r') :
    Sound ver r' := by
  cases hr with
  | same => exact h
  | put hc hpos hx => exact .put hpos hx
  | erase => exact .erase r

theorem Tracks.evolves {r r' : Register α} {held : α} (h : Tracks ver r held)
    (hr : r.Evolves ver r') : Tracks ver r' held := by
  cases hr with
  | same => exact h
  | put hc hpos hx => exact h.put hc hx
  | erase => exact h.erase

/-- Registers that share their versions: others may have given some out. -/
theorem Sound.mono {r r' : Register α} (h : Sound ver r) (hcell : r'.cell = r.cell)
    (hissued : r.issued ⊆ r'.issued) : Sound ver r' := by
  intro v hv
  rw [hcell] at hv
  exact ⟨hissued (h v hv).1, (h v hv).2⟩

theorem Tracks.mono {r r' : Register α} {held : α} (h : Tracks ver r held)
    (hcell : r'.cell = r.cell) (hissued : r.issued ⊆ r'.issued) : Tracks ver r' held where
  issued := hissued h.issued
  pos := h.pos
  eq := by
    intro v hv
    rw [hcell] at hv
    exact h.eq v hv

theorem version_eq_zero {r : Register α} (hr : Sound ver r) : r.version ver = 0 ↔ r.cell = none := by
  unfold version
  cases hc : r.cell with
  | none => simp
  | some v => simpa using (hr v hc).2

end Register

end Versioned
