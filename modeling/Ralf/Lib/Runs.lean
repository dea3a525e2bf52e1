import Mathlib.Data.Nat.Notation
import Mathlib.Logic.Function.Basic

/-!
# Runs of a machine driven by inputs

A machine is a function `step : ι → σ → σ`; the inputs carry the schedule and whatever else the
environment decides. `exec` runs it on a list of inputs, `stateAt` on an infinite sequence. What is
assumed of the environment is a relation `Ok` between the state and the input; `Along` says that a
run meets it throughout, `Along.invariant` is the induction rule, and `Eventually` the
total-correctness counterpart: whatever inputs the environment picks, the machine gets there. `notes`
is a history beside the run: what is noted of each step.

`Solo` runs one thread, `Pool` many threads against one shared state, in any interleaving. `Trace`
is for transitions that are whole runs themselves: a relation with inputs and outputs, its invariant
rule and its simulation by an automaton.
-/

namespace Runs

section Machine

variable {σ τ ι : Type*} (step : ι → σ → σ)

/-- The state after a list of inputs. -/
def exec : List ι → σ → σ
  | [], s => s
  | a :: as, s => exec as (step a s)

/-- The state after the first `n` inputs of an infinite sequence. -/
def stateAt (f : ℕ → ι) (s : σ) : ℕ → σ
  | 0 => s
  | n + 1 => step (f n) (stateAt f s n)

/-- `Ok` holds at every step of the run. -/
def Along (Ok : σ → ι → Prop) : List ι → σ → Prop
  | [], _ => True
  | a :: as, s => Ok s a ∧ Along Ok as (step a s)

variable {step}

theorem exec_append (as bs : List ι) (s : σ) :
    exec step (as ++ bs) s = exec step bs (exec step as s) := by
  induction as generalizing s with
  | nil => rfl
  | cons a as ih => exact ih (step a s)

theorem Along.append {Ok : σ → ι → Prop} {as bs : List ι} {s : σ} :
    Along step Ok (as ++ bs) s ↔ Along step Ok as s ∧ Along step Ok bs (exec step as s) := by
  induction as generalizing s with
  | nil => simp [Along, exec]
  | cons a as ih =>
    simp only [List.cons_append, Along, exec]
    rw [ih, and_assoc]

theorem Along.mono {Ok Ok' : σ → ι → Prop} (h : ∀ s a, Ok s a → Ok' s a) {as : List ι} {s : σ}
    (hs : Along step Ok as s) : Along step Ok' as s := by
  induction as generalizing s with
  | nil => trivial
  | cons a as ih => exact ⟨h _ _ hs.1, ih hs.2⟩

theorem Along.and {Ok Ok' : σ → ι → Prop} {as : List ι} {s : σ} (h : Along step Ok as s)
    (h' : Along step Ok' as s) : Along step (fun s a => Ok s a ∧ Ok' s a) as s := by
  induction as generalizing s with
  | nil => trivial
  | cons a as ih => exact ⟨⟨h.1, h'.1⟩, ih h.2 h'.2⟩

theorem Along.of_forall {Ok : σ → ι → Prop} {as : List ι} (h : ∀ a ∈ as, ∀ s, Ok s a) (s : σ) :
    Along step Ok as s := by
  induction as generalizing s with
  | nil => trivial
  | cons a as ih =>
    exact ⟨h a List.mem_cons_self s, ih (fun b hb => h b (List.mem_cons_of_mem a hb)) (step a s)⟩

/-- The invariant rule: what every allowed step preserves holds after every allowed run. -/
theorem Along.invariant {Ok : σ → ι → Prop} {I : σ → Prop}
    (hstep : ∀ s a, I s → Ok s a → I (step a s)) {as : List ι} {s : σ}
    (hok : Along step Ok as s) (hs : I s) : I (exec step as s) := by
  induction as generalizing s with
  | nil => exact hs
  | cons a as ih => exact ih hok.2 (hstep s a hs hok.1)

/-- What every step preserves holds after every run. -/
theorem exec_invariant {I : σ → Prop} (hstep : ∀ s a, I s → I (step a s)) (as : List ι) {s : σ}
    (hs : I s) : I (exec step as s) := by
  induction as generalizing s with
  | nil => exact hs
  | cons a as ih => exact ih (hstep s a hs)

/-- An invariant may be assumed at every step of a run. -/
theorem Along.strengthen {Ok : σ → ι → Prop} {I : σ → Prop}
    (hstep : ∀ s a, I s → Ok s a → I (step a s)) {as : List ι} {s : σ}
    (hok : Along step Ok as s) (hs : I s) :
    Along step (fun s a => Ok s a ∧ I s) as s := by
  induction as generalizing s with
  | nil => trivial
  | cons a as ih => exact ⟨⟨hok.1, hs⟩, ih hok.2 (hstep s a hs hok.1)⟩

/-- Two machines related by a function run in step. -/
theorem exec_map {stepτ : ι → τ → τ} {I : σ → Prop} {f : σ → τ}
    (hinv : ∀ s a, I s → I (step a s))
    (hcomm : ∀ s a, I s → f (step a s) = stepτ a (f s)) {as : List ι} {s : σ} (hs : I s) :
    f (exec step as s) = exec stepτ as (f s) := by
  induction as generalizing s with
  | nil => rfl
  | cons a as ih =>
    show f (exec step as (step a s)) = exec stepτ as (stepτ a (f s))
    rw [ih (hinv s a hs), hcomm s a hs]

/-- Two machines on the same inputs stay related if every step keeps them so. -/
theorem exec_related {stepτ : ι → τ → τ} {R : σ → τ → Prop}
    (hstep : ∀ s t a, R s t → R (step a s) (stepτ a t)) (as : List ι) {s : σ} {t : τ} (h : R s t) :
    R (exec step as s) (exec stepτ as t) := by
  induction as generalizing s t with
  | nil => exact h
  | cons a as ih => exact ih (hstep s t a h)

/-- Assumptions on the environment carry over to the related machine. -/
theorem Along.map {stepτ : ι → τ → τ} {I : σ → Prop} {f : σ → τ} {Ok : σ → ι → Prop}
    {Okτ : τ → ι → Prop} (hinv : ∀ s a, I s → I (step a s))
    (hcomm : ∀ s a, I s → f (step a s) = stepτ a (f s))
    (hok : ∀ s a, I s → Ok s a → Okτ (f s) a) {as : List ι} {s : σ} (hs : I s)
    (h : Along step Ok as s) : Along stepτ Okτ as (f s) := by
  induction as generalizing s with
  | nil => trivial
  | cons a as ih =>
    refine ⟨hok s a hs h.1, ?_⟩
    rw [← hcomm s a hs]
    exact ih (hinv s a hs) h.2

/-- Assumptions that only depend on the related machine can be checked there. -/
theorem Along.of_map {stepτ : ι → τ → τ} {I : σ → Prop} {f : σ → τ} {Ok : σ → ι → Prop}
    {Okτ : τ → ι → Prop} (hinv : ∀ s a, I s → I (step a s))
    (hcomm : ∀ s a, I s → f (step a s) = stepτ a (f s))
    (hok : ∀ s a, I s → Okτ (f s) a → Ok s a) {as : List ι} {s : σ} (hs : I s)
    (h : Along stepτ Okτ as (f s)) : Along step Ok as s := by
  induction as generalizing s with
  | nil => trivial
  | cons a as ih =>
    refine ⟨hok s a hs h.1, ih (hinv s a hs) ?_⟩
    rw [hcomm s a hs]
    exact h.2

theorem stateAt_succ' (f : ℕ → ι) (s : σ) (n : ℕ) :
    stateAt step f s (n + 1) = stateAt step (fun i => f (i + 1)) (step (f 0) s) n := by
  induction n with
  | zero => rfl
  | succ n ih =>
    show step (f (n + 1)) (stateAt step f s (n + 1)) = _
    rw [ih]
    rfl

theorem stateAt_invariant {I : σ → Prop} {f : ℕ → ι} {s : σ} (hs : I s)
    (hstep : ∀ n t, I t → I (step (f n) t)) (n : ℕ) : I (stateAt step f s n) := by
  induction n with
  | zero => exact hs
  | succ n ih => exact hstep n _ ih

theorem exec_map_range (f : ℕ → ι) (s : σ) (n : ℕ) :
    exec step ((List.range n).map f) s = stateAt step f s n := by
  induction n with
  | zero => rfl
  | succ n ih =>
    rw [List.range_succ, List.map_append, exec_append, ih]
    rfl

/-- Two machines related by a function run in step, on infinite sequences too. -/
theorem stateAt_map {stepτ : ι → τ → τ} {I : σ → Prop} {g : σ → τ}
    (hinv : ∀ s a, I s → I (step a s))
    (hcomm : ∀ s a, I s → g (step a s) = stepτ a (g s)) {f : ℕ → ι} {s : σ} (hs : I s) (n : ℕ) :
    g (stateAt step f s n) = stateAt stepτ f (g s) n := by
  have hI : ∀ m, I (stateAt step f s m) := stateAt_invariant hs fun m t ht => hinv t (f m) ht
  induction n with
  | zero => rfl
  | succ n ih =>
    show g (step (f n) (stateAt step f s n)) = stepτ (f n) (stateAt stepτ f (g s) n)
    rw [hcomm _ _ (hI n), ih]

/-! ## Notes on a run -/

section Notes

variable {ο : Type*} (step) (note : σ → ι → List ο)

/-- What is noted of the steps of a run, each in the state it is made in. -/
def notes : List ι → σ → List ο
  | [], _ => []
  | a :: as, s => note s a ++ notes as (step a s)

variable {step note}

/-- The invariant rule for a state together with what was noted on the way to it. -/
theorem notes_invariant {I : σ → List ο → Prop}
    (hstep : ∀ s l a, I s l → I (step a s) (l ++ note s a)) (as : List ι) {s : σ} {l : List ο}
    (hs : I s l) : I (exec step as s) (l ++ notes step note as s) := by
  induction as generalizing s l with
  | nil =>
    rw [notes, List.append_nil]
    exact hs
  | cons a as ih =>
    have hrest := ih (hstep s l a hs)
    rw [List.append_assoc] at hrest
    exact hrest

end Notes

/-! ## Reaching a goal -/

variable (step)

/-- Whatever allowed inputs come, a state in `Q` is reached after finitely many of them. -/
inductive Eventually (Ok : σ → ι → Prop) (Q : σ → Prop) : σ → Prop where
  | now {s : σ} : Q s → Eventually Ok Q s
  | next {s : σ} : (∃ a, Ok s a) → (∀ a, Ok s a → Eventually Ok Q (step a s)) → Eventually Ok Q s

variable {step}

theorem Eventually.stateAt {Ok : σ → ι → Prop} {Q : σ → Prop} {s : σ}
    (h : Eventually step Ok Q s) {f : ℕ → ι} (hf : ∀ n, Ok (stateAt step f s n) (f n)) :
    ∃ n, Q (stateAt step f s n) := by
  induction h generalizing f with
  | now hq => exact ⟨0, hq⟩
  | next _ _ ih =>
    obtain ⟨n, hn⟩ := ih (f 0) (hf 0) (f := fun i => f (i + 1)) fun n => by
      rw [← stateAt_succ']
      exact hf (n + 1)
    refine ⟨n + 1, ?_⟩
    rw [stateAt_succ']
    exact hn

/-- If only the states in `I` have a step to make, the run stays in `I` until it gets there. -/
theorem Eventually.until {Ok : σ → ι → Prop} {I Q : σ → Prop} {s : σ}
    (h : Eventually step (fun s a => I s ∧ Ok s a) Q s) {f : ℕ → ι}
    (hf : ∀ n, Ok (Runs.stateAt step f s n) (f n)) :
    ∃ n, Q (Runs.stateAt step f s n) ∧ ∀ k < n, I (Runs.stateAt step f s k) := by
  induction h generalizing f with
  | now hq => exact ⟨0, hq, fun k hk => absurd hk (Nat.not_lt_zero k)⟩
  | @next s hex _ ih =>
    obtain ⟨a, hI, -⟩ := hex
    have hok : ∀ n, Ok (Runs.stateAt step (fun i => f (i + 1)) (step (f 0) s) n) (f (n + 1)) := by
      intro n
      rw [← stateAt_succ']
      exact hf (n + 1)
    obtain ⟨n, hn, hbefore⟩ := ih (f 0) ⟨hI, hf 0⟩ hok
    refine ⟨n + 1, ?_, ?_⟩
    · rw [stateAt_succ']
      exact hn
    · intro k hk
      cases k with
      | zero => exact hI
      | succ k =>
        rw [stateAt_succ']
        exact hbefore k (Nat.lt_of_succ_lt_succ hk)

/-- A finite run that has come to rest has reached the goal. -/
theorem Eventually.exec {Ok : σ → ι → Prop} {Q T : σ → Prop} (hQ : ∀ s a, Q s → Q (step a s))
    (hT : ∀ s a, T s → step a s = s) {s : σ} (h : Eventually step Ok Q s) {as : List ι}
    (hok : Along step Ok as s) (hrest : T (exec step as s)) : Q (exec step as s) := by
  induction h generalizing as with
  | now hq => exact Along.invariant (fun s a hs _ => hQ s a hs) hok hq
  | @next s hex _ ih =>
    cases as with
    | nil =>
      obtain ⟨a, ha⟩ := hex
      have hs : step a s = s := hT s a hrest
      have := ih a ha (show Along step Ok [] (step a s) from trivial) (by rwa [hs])
      rwa [hs] at this
    | cons a as => exact ih a hok.1 hok.2 hrest

end Machine

/-! ## Transitions with outputs -/

section Transitions

variable {σ τ ι ο ο' : Type*}

/-- A run of the transition relation `T`: each input with the output it had. -/
inductive Trace (T : σ → ι → ο → σ → Prop) : σ → List (ι × ο) → σ → Prop where
  | nil {s} : Trace T s [] s
  | cons {s a o s₁ xs s'} : T s a o s₁ → Trace T s₁ xs s' → Trace T s ((a, o) :: xs) s'

/-- The state of an automaton after a list of inputs, and the outputs on the way. -/
def transduce (step : τ → ι → τ × ο') : τ → List ι → τ × List ο'
  | t, [] => (t, [])
  | t, a :: as =>
    let r := transduce step (step t a).1 as
    (r.1, (step t a).2 :: r.2)

variable {T : σ → ι → ο → σ → Prop}

theorem Trace.invariant {I : σ → Prop} (hstep : ∀ s a o s', I s → T s a o s' → I s') {s s' : σ}
    {xs : List (ι × ο)} (h : Trace T s xs s') (hs : I s) : I s' := by
  induction h with
  | nil => exact hs
  | cons ht _ ih => exact ih (hstep _ _ _ _ hs ht)

/-- What follows the transitions step by step, inputs and outputs, follows the run. -/
theorem Trace.foldl {step : τ → ι × ο → τ} {S : σ → τ → Prop}
    (hstep : ∀ s t a o s', S s t → T s a o s' → S s' (step t (a, o))) {s s' : σ}
    {xs : List (ι × ο)} (h : Trace T s xs s') {t : τ} (hs : S s t) : S s' (xs.foldl step t) := by
  induction h generalizing t with
  | nil => exact hs
  | cons ht _ ih => exact ih (hstep _ _ _ _ _ hs ht)

/-- A simulation step by step is one of whole runs, with what the automaton sees of the outputs. -/
theorem Trace.simulates {step : τ → ι → τ × ο'} {g : ο → ο'} {Ok : ι → Prop} {S : σ → τ → Prop}
    (hstep : ∀ s t a o s', S s t → Ok a → T s a o s' → S s' (step t a).1 ∧ g o = (step t a).2)
    {s s' : σ} {xs : List (ι × ο)} (h : Trace T s xs s') {t : τ} (hs : S s t)
    (hok : ∀ x ∈ xs, Ok x.1) :
    S s' (transduce step t (xs.map Prod.fst)).1 ∧
      xs.map (fun x => g x.2) = (transduce step t (xs.map Prod.fst)).2 := by
  induction h generalizing t with
  | nil => exact ⟨hs, rfl⟩
  | cons ht _ ih =>
    obtain ⟨hs₁, ho⟩ := hstep _ _ _ _ _ hs (hok _ List.mem_cons_self) ht
    obtain ⟨hs', hxs⟩ := ih hs₁ fun x hx => hok x (List.mem_cons_of_mem _ hx)
    refine ⟨hs', ?_⟩
    rw [List.map_cons, hxs, ho]
    rfl

end Transitions

/-! ## One thread -/

/-- A thread in a control state `π`, the state `Ω` it works on, and the events it has emitted. -/
@[ext] structure Solo (π Ω ε : Type*) where
  pc : π
  shared : Ω
  trace : List ε

namespace Solo

variable {π Ω Ω' ε η : Type*}

def step (thread : η → π → Ω → π × Ω × List ε) (a : η) (t : Solo π Ω ε) : Solo π Ω ε where
  pc := (thread a t.pc t.shared).1
  shared := (thread a t.pc t.shared).2.1
  trace := t.trace ++ (thread a t.pc t.shared).2.2

/-- Forget part of the state the thread works on. -/
def map (f : Ω → Ω') (t : Solo π Ω ε) : Solo π Ω' ε := ⟨t.pc, f t.shared, t.trace⟩

theorem map_step {thread : η → π → Ω → π × Ω × List ε} {thread' : η → π → Ω' → π × Ω' × List ε}
    {f : Ω → Ω'} {a : η} {t : Solo π Ω ε}
    (h : thread' a t.pc (f t.shared) =
      ((thread a t.pc t.shared).1, f (thread a t.pc t.shared).2.1,
        (thread a t.pc t.shared).2.2)) :
    (t.step thread a).map f = (t.map f).step thread' a := by
  unfold map step
  rw [h]

end Solo

/-! ## Threads over a shared state -/

/-- Threads in control states `π`, the state `Ω` they share, and the events they have emitted. -/
@[ext] structure Pool (κ π Ω ε : Type*) where
  pc : κ → π
  shared : Ω
  trace : List (κ × ε)

namespace Pool

variable {κ π Ω Ω' ε η : Type*} [DecidableEq κ]

/-- One thread makes a step. -/
def step (thread : κ → η → π → Ω → π × Ω × List ε) (a : κ × η) (p : Pool κ π Ω ε) :
    Pool κ π Ω ε where
  pc := Function.update p.pc a.1 (thread a.1 a.2 (p.pc a.1) p.shared).1
  shared := (thread a.1 a.2 (p.pc a.1) p.shared).2.1
  trace := p.trace ++ (thread a.1 a.2 (p.pc a.1) p.shared).2.2.map (a.1, ·)

/-- Forget part of the shared state. -/
def map (f : Ω → Ω') (p : Pool κ π Ω ε) : Pool κ π Ω' ε := ⟨p.pc, f p.shared, p.trace⟩

/-- A simulation of one thread's step is a simulation of the pool's. -/
theorem map_step {thread : κ → η → π → Ω → π × Ω × List ε}
    {thread' : κ → η → π → Ω' → π × Ω' × List ε} {f : Ω → Ω'} {a : κ × η} {p : Pool κ π Ω ε}
    (h : thread' a.1 a.2 (p.pc a.1) (f p.shared) =
      ((thread a.1 a.2 (p.pc a.1) p.shared).1, f (thread a.1 a.2 (p.pc a.1) p.shared).2.1,
        (thread a.1 a.2 (p.pc a.1) p.shared).2.2)) :
    (p.step thread a).map f = (p.map f).step thread' a := by
  unfold map step
  rw [h]

end Pool

end Runs
