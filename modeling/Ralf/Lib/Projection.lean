import Ralf.Lib.Runs

/-!
# Runs seen in part

A machine may take steps that another one does not: the ones that are not seen. If the seen steps
match and the others leave the two related, then so are whole runs, the second one on the seen
inputs only (`exec_seen`).

For pools the inputs that are seen are those of some of the threads. `Pool.Part` relates a pool to
the pool of these threads, which works on a state of its own; what there is to show is that a seen
step does the same on both (`Part.seen`), and that what the other threads do is not noticed
(`Part.unseen`).

A step may also be seen or not depending on where the machine stands; the second machine then
follows a part of the schedule (`Along.stutter`). The other way round, a step of the second machine
may take the first one several (`exec_expand`).
-/

namespace Runs

section Machine

variable {σ τ ι ι' : Type*} {step : ι → σ → σ} {stepτ : ι' → τ → τ} {R : σ → τ → Prop}

theorem exec_seen {g : ι → Option ι'}
    (hseen : ∀ s t a b, R s t → g a = some b → R (step a s) (stepτ b t))
    (hunseen : ∀ s t a, R s t → g a = none → R (step a s) t) (as : List ι) {s : σ} {t : τ}
    (h : R s t) : R (exec step as s) (exec stepτ (as.filterMap g) t) := by
  induction as generalizing s t with
  | nil => exact h
  | cons a as ih =>
    cases hg : g a with
    | none =>
      rw [List.filterMap_cons_none hg]
      exact ih (hunseen s t a h hg)
    | some b =>
      rw [List.filterMap_cons_some hg]
      exact ih (hseen s t a b h hg)

end Machine

section Stutter

variable {σ τ ι : Type*} {step : ι → σ → σ} {stepτ : ι → τ → τ} {R : σ → τ → Prop}
  {Ok : σ → ι → Prop}

/-- Each step is made by both machines or by the first one alone: the second one follows a part of
the schedule. -/
theorem Along.stutter
    (hstep : ∀ s t a, R s t → Ok s a → R (step a s) (stepτ a t) ∨ R (step a s) t) {as : List ι}
    {s : σ} {t : τ} (hok : Along step Ok as s) (h : R s t) :
    ∃ bs, bs.Sublist as ∧ R (exec step as s) (exec stepτ bs t) := by
  induction as generalizing s t with
  | nil => exact ⟨[], List.Sublist.refl [], h⟩
  | cons a as ih =>
    rcases hstep s t a h hok.1 with hboth | hone
    · obtain ⟨bs, hbs, hR⟩ := ih hok.2 hboth
      exact ⟨a :: bs, hbs.cons_cons a, hR⟩
    · obtain ⟨bs, hbs, hR⟩ := ih hok.2 hone
      exact ⟨bs, hbs.cons a, hR⟩

/-- The second machine follows a part of the schedule, with choices of its own. -/
theorem Along.follow {γ : Type*} {stepτ : ι × γ → τ → τ}
    (hstep : ∀ s t a, R s t → Ok s a → (∃ c, R (step a s) (stepτ (a, c) t)) ∨ R (step a s) t)
    {as : List ι} {s : σ} {t : τ} (hok : Along step Ok as s) (h : R s t) :
    ∃ bs, (bs.map Prod.fst).Sublist as ∧ R (exec step as s) (exec stepτ bs t) := by
  induction as generalizing s t with
  | nil => exact ⟨[], List.Sublist.refl [], h⟩
  | cons a as ih =>
    rcases hstep s t a h hok.1 with ⟨c, hboth⟩ | hone
    · obtain ⟨bs, hbs, hR⟩ := ih hok.2 hboth
      exact ⟨(a, c) :: bs, hbs.cons_cons a, hR⟩
    · obtain ⟨bs, hbs, hR⟩ := ih hok.2 hone
      exact ⟨bs, hbs.cons a, hR⟩

/-- Each step of the second machine is a run of the first one. -/
theorem exec_expand {Allowed : ι → Prop}
    (hstep : ∀ s t a, R s t → Allowed a →
      ∃ as, (∀ b ∈ as, Allowed b) ∧ R (exec step as s) (stepτ a t))
    {bs : List ι} (hbs : ∀ b ∈ bs, Allowed b) {s : σ} {t : τ} (h : R s t) :
    ∃ as, (∀ a ∈ as, Allowed a) ∧ R (exec step as s) (exec stepτ bs t) := by
  induction bs generalizing s t with
  | nil => exact ⟨[], fun a ha => absurd ha List.not_mem_nil, h⟩
  | cons b bs ih =>
    obtain ⟨as, has, hR⟩ := hstep s t b h (hbs b List.mem_cons_self)
    obtain ⟨as', has', hR'⟩ := ih (fun c hc => hbs c (List.mem_cons_of_mem b hc)) hR
    refine ⟨as ++ as', ?_, ?_⟩
    · intro a ha
      exact (List.mem_append.mp ha).elim (has a) (has' a)
    · rw [exec_append]
      exact hR'

end Stutter

/-! ## Part of a pool -/

namespace Pool

variable {κ π Ω Ω' ε η : Type*} {p : κ → Prop} [DecidablePred p]

/-- The events of the threads in `p`. -/
def keep (p : κ → Prop) [DecidablePred p] (x : κ × ε) : Option ({i // p i} × ε) :=
  if h : p x.1 then some (⟨x.1, h⟩, x.2) else none

theorem keep_of_pos {x : κ × ε} (h : p x.1) : keep p x = some (⟨x.1, h⟩, x.2) := dif_pos h

theorem keep_of_neg {x : κ × ε} (h : ¬p x.1) : keep p x = none := dif_neg h

theorem filterMap_keep_of_pos {i : κ} (h : p i) (es : List ε) :
    (es.map (i, ·)).filterMap (keep p) = es.map (⟨i, h⟩, ·) := by
  rw [List.filterMap_map, ← List.filterMap_eq_map]
  congr 1
  funext e
  exact keep_of_pos (x := (i, e)) h

theorem filterMap_keep_of_neg {i : κ} (h : ¬p i) (es : List ε) :
    (es.map (i, ·)).filterMap (keep p) = [] := by
  rw [List.filterMap_map, List.filterMap_eq_nil_iff]
  exact fun e _ => keep_of_neg (x := (i, e)) h

/-- The second pool is the part of the first one that consists of the threads in `p`. -/
structure Part (p : κ → Prop) [DecidablePred p] (S : Ω → Ω' → Prop) (q : Pool κ π Ω ε)
    (q' : Pool {i // p i} π Ω' ε) : Prop where
  pc : ∀ i, q'.pc i = q.pc i
  shared : S q.shared q'.shared
  trace : q'.trace = q.trace.filterMap (keep p)

variable [DecidableEq κ] {S : Ω → Ω' → Prop} {q : Pool κ π Ω ε} {q' : Pool {i // p i} π Ω' ε}
  {thread : κ → η → π → Ω → π × Ω × List ε} {thread' : {i // p i} → η → π → Ω' → π × Ω' × List ε}

variable (thread thread') in
/-- A thread of the part makes a step. -/
theorem Part.seen (h : Part p S q q') {i : κ} (hi : p i) {x : η}
    (hpc : (thread' ⟨i, hi⟩ x (q.pc i) q'.shared).1 = (thread i x (q.pc i) q.shared).1)
    (hshared : S (thread i x (q.pc i) q.shared).2.1 (thread' ⟨i, hi⟩ x (q.pc i) q'.shared).2.1)
    (htrace : (thread' ⟨i, hi⟩ x (q.pc i) q'.shared).2.2 = (thread i x (q.pc i) q.shared).2.2) :
    Part p S (q.step thread (i, x)) (q'.step thread' (⟨i, hi⟩, x)) := by
  have hself : q'.pc ⟨i, hi⟩ = q.pc i := h.pc ⟨i, hi⟩
  refine ⟨?_, ?_, ?_⟩
  · intro j
    by_cases hj : j = ⟨i, hi⟩
    · subst hj
      simp only [step, Function.update_self, hself, hpc]
    · have hne : (j : κ) ≠ i := fun heq => hj (Subtype.ext heq)
      simp only [step, Function.update_of_ne hj, Function.update_of_ne hne, h.pc j]
  · simp only [step, hself]
    exact hshared
  · simp only [step, hself, List.filterMap_append, filterMap_keep_of_pos hi, h.trace, htrace]

variable (thread) in
/-- Another thread makes a step. -/
theorem Part.unseen (h : Part p S q q') {i : κ} (hi : ¬p i) {x : η}
    (hshared : S (thread i x (q.pc i) q.shared).2.1 q'.shared) :
    Part p S (q.step thread (i, x)) q' := by
  refine ⟨?_, hshared, ?_⟩
  · intro j
    have hne : (j : κ) ≠ i := by
      intro heq
      exact hi (heq ▸ j.2)
    simp only [step, Function.update_of_ne hne, h.pc j]
  · simp only [step, List.filterMap_append, filterMap_keep_of_neg hi, List.append_nil, h.trace]

end Pool

end Runs
