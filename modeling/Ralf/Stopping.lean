import Ralf.Acrs

/-!
# After a STOP

One STOP and any number of INTERIMs of the same session are handled at one site. The STOP walks
over the stores, local store first, and deletes the session from each; what it has walked past
(`Pc.passed`) is empty, and stays so against every write that names a version, because the copy
such a write holds is older than the delete. Only an INTERIM that found a store empty can bring the
session back, by adding it: `stopped` says that nothing is left of the session as long as no store
is added to behind the STOP, and `stopped_resurrected` is a run in which one is.
-/

namespace Ralf

open Bytes Versioned Runs

/-- The STOP has found the store empty, or emptied it, and does not come back to it. -/
def Pc.passed (s : StoreId) : Pc → Bool
  | .tryRemotes _ rest => s ∉ rest
  | .deleteRemotes _ _ rest => s ∉ rest
  | .send _ => true
  | .awaitAnswer _ => true
  | .finish _ => true
  | .done => true
  | _ => false

/-- The store to which a thread is about to add the session. -/
def Pc.adds (site : Site) : Pc → Option StoreId
  | .updateLocal _ _ true => some site.localStore
  | .updateRemote _ _ s _ _ true => some s
  | _ => none

/-- Where a STOP can be. -/
def Pc.Stopping : Pc → Prop
  | .handle msg => msg.recordType = .stop
  | .tryRemotes msg _ => msg.recordType = .stop
  | .deleteLocal msg _ => msg.recordType = .stop
  | .deleteRemotes msg _ _ => msg.recordType = .stop
  | .send msg => msg.recordType = .stop
  | .awaitAnswer msg => msg.recordType = .stop
  | .finish _ => True
  | .done => True
  | _ => False

section Moves

variable {P : Platform} {site : Site} {env : Env} {pc pc' : Pc} {R R' : Regs} {es : List Event}

theorem Move.stopping (h : Move P site env pc R pc' R' es) (hpc : pc.Stopping) : pc'.Stopping := by
  cases h with
  | handleInterim hi => exact absurd hi (AccountingRecordType.ne_interim_of_stop hpc)
  | tryInterim hi => exact absurd hi (AccountingRecordType.ne_interim_of_stop hpc)
  | handleFirst _ hs => exact absurd hpc hs
  | answerUpdate hi => exact absurd hi (AccountingRecordType.ne_interim_of_stop hpc)
  | answerTimer hs => exact absurd hs (AccountingRecordType.ne_start_of_stop hpc)
  | answerStart hs => exact absurd hs (AccountingRecordType.ne_start_of_stop hpc)
  | answerUnknown hi => exact absurd hi (AccountingRecordType.ne_interim_of_stop hpc)
  | _ => first | exact hpc | exact hpc.elim | trivial

/-- What the STOP walks past is empty. -/
theorem Move.passed (h : Move P site env pc R pc' R' es) (hpc : pc.Stopping) {s : StoreId}
    (hs : s ∈ site.stores) (hempty : pc.passed s = true → (R s).cell = none)
    (hpass : pc'.passed s = true) : (R' s).cell = none := by
  cases h with
  | handleMissing _ hnone =>
    have hrem : s ∉ site.remoteStores := by simpa [Pc.passed] using hpass
    rw [(List.mem_cons.mp hs).resolve_right hrem]
    exact hnone
  | tryNone => exact hempty (by simp [Pc.passed])
  | @tryNext msg t rest _ hnone =>
    by_cases hst : s = t
    · rw [hst]
      exact hnone
    · exact hempty (by simpa [Pc.passed, hst] using hpass)
  | deleteLocal =>
    have hrem : s ∉ site.remoteStores := by simpa [Pc.passed] using hpass
    rw [(List.mem_cons.mp hs).resolve_right hrem, Regs.put_self]
    rfl
  | @deleteRemotes msg sess t rest =>
    by_cases hst : s = t
    · rw [hst, Regs.erase_self]
      rfl
    · rw [Regs.erase_of_ne R hst]
      exact hempty (by simpa [Pc.passed, hst] using hpass)
  | deleteRemotesTimer => exact hempty (by simp [Pc.passed])
  | deleteRemotesNone => exact hempty (by simp [Pc.passed])
  | send => exact hempty rfl
  | answerFinish => exact hempty rfl
  | finish => exact hempty rfl
  | finishQuiet => exact hempty rfl
  | done => exact hempty rfl
  | handleFirst _ hns => exact absurd hpc hns
  | _ => first | exact hpc.elim | cases hpass

/-- An INTERIM fills no empty store but by adding to it. -/
theorem Move.stays_empty (h : Move P site env pc R pc' R' es) (hheld : Held site R pc)
    (hns : ¬ pc.Starting) {s : StoreId} (hempty : (R s).cell = none)
    (hadds : pc.adds site ≠ some s) : (R' s).cell = none := by
  have hput : ∀ {t : StoreId} {x : Option Session}, t ≠ s → (R.put t env x s).cell = none := by
    intro t x hts
    rw [Regs.put_of_ne R env x hts.symm]
    exact hempty
  have herase : ∀ t, (R.erase t s).cell = none := by
    intro t
    by_cases hts : s = t
    · rw [hts, Regs.erase_self]
      rfl
    · rw [Regs.erase_of_ne R hts]
      exact hempty
  -- a copy with the store's version was read from it, so the store is not empty
  have hstale : ∀ {t : StoreId} {held : Session}, (R t).Tracks Session.cas held →
      R.version t = held.cas → t ≠ s := by
    rintro t held ht hver rfl
    rw [ht.cell_of_version hver] at hempty
    cases hempty
  cases h with
  | @updateLocal msg sess newSession _ hver =>
    cases newSession with
    | true => exact hput fun hts => hadds (by rw [Pc.adds, hts])
    | false =>
      obtain ⟨held, ht, rfl⟩ := hheld
      exact hput (hstale ht hver)
  | @updateRemote msg sess t rest remoteSess newSession _ hver =>
    cases newSession with
    | true => exact hput fun hts => hadds (by rw [Pc.adds, hts])
    | false =>
      obtain ⟨held, ht, rfl⟩ := hheld
      exact hput (hstale ht hver)
  | deleteLocal =>
    by_cases hts : site.localStore = s
    · rw [hts, Regs.put_self]
      rfl
    · exact hput hts
  | deleteRemotes => exact herase _
  | deleteUnknown => exact herase _
  | writeSession => exact absurd trivial hns
  | writeTimerId hver =>
    obtain ⟨held, ht, rfl⟩ := hheld
    exact hput (hstale ht hver)
  | _ => exact hempty

end Moves

/-! ## Systems -/

section Systems

variable {P : Platform} {κ : Type} [DecidableEq κ] {site : Site} {j : κ}

/-- The thread `j` is the STOP, the others are INTERIMs, and what the STOP has passed is empty. -/
structure StopInv (site : Site) (j : κ) (σ : RegSys κ) : Prop where
  sane : Sane (fun _ => site) σ
  stopping : (σ.pc j).Stopping
  interim : ∀ i, i ≠ j → (σ.pc i).HasType .interim ∧ ¬ (σ.pc i).Starting
  empty : ∀ s ∈ site.stores, (σ.pc j).passed s = true → (σ.shared s).cell = none

/-- The thread that moves does not add the session to a store behind the STOP. -/
def AddsAhead {Ω : Type} (site : Site) (j : κ) (σ : Pool κ Pc Ω Event) (a : κ × Env) : Prop :=
  ∀ s, (σ.pc a.1).adds site = some s → (σ.pc j).passed s = false

theorem StopInv.step {σ : RegSys κ} (h : StopInv site j σ) {a : κ × Env}
    (hok : StoresOk σ.shared.issued a.2) (hadds : AddsAhead site j σ a) :
    StopInv site j (regSysStep P (fun _ => site) a σ) := by
  have hsane := h.sane.step (P := P) hok
  obtain ⟨pc', R', es, hm, heq⟩ := regSysStep_cases P (fun _ => site) a hok.1 σ
  rw [heq] at hsane ⊢
  by_cases haj : a.1 = j
  · -- the STOP moves
    subst haj
    refine ⟨hsane, ?_, ?_, ?_⟩
    · simpa using hm.stopping h.stopping
    · intro i hi
      simpa [Function.update_of_ne hi] using h.interim i hi
    · intro s hs hpass
      exact hm.passed h.stopping hs (h.empty s hs) (by simpa using hpass)
  · -- an INTERIM moves
    have hja : j ≠ a.1 := Ne.symm haj
    obtain ⟨htype, hns⟩ := h.interim a.1 haj
    refine ⟨hsane, ?_, ?_, ?_⟩
    · simpa [Function.update_of_ne hja] using h.stopping
    · intro i hi
      by_cases hia : i = a.1
      · subst hia
        simpa using ⟨hm.hasType htype, hm.not_starting htype (by decide) hns⟩
      · simpa [Function.update_of_ne hia] using h.interim i hi
    · intro s hs hpass
      simp only [Function.update_of_ne hja] at hpass
      refine hm.stays_empty (h.sane.held a.1) hns (h.empty s hs hpass) ?_
      intro hadd
      rw [hadds s hadd] at hpass
      cases hpass

end Systems

/-! ## Runs -/

section Runs

variable {P : Platform} {κ : Type} [DecidableEq κ] {site : Site} {key : Bytes}

/-- The thread of a message whose session no store holds: it looks everywhere and gives up. -/
structure Ignoring (site : Site) (msg : Message) (W : World) (t : Thread) : Prop where
  shared : t.shared = W
  trace : t.trace = []
  pc : t.pc = .handle msg ∨ (∃ rest ⊆ site.remoteStores, t.pc = .tryRemotes msg rest) ∨ t.pc = .done

theorem Ignoring.step {W : World} {msg : Message}
    (hempty : ∀ s ∈ site.stores, (W s).record msg.key = none)
    (htype : msg.recordType = .interim ∨ msg.recordType = .stop) {t : Thread}
    (h : Ignoring site msg W t) (env : Env) : Ignoring site msg W (threadStep P site env t) := by
  obtain ⟨pc, W', tr⟩ := t
  obtain ⟨hW', htr, hpc⟩ := h
  dsimp only at hW' htr hpc
  subst hW' htr
  rcases hpc with rfl | ⟨rest, hsub, rfl⟩ | rfl
  · have hcond : (msg.recordType.isInterim || msg.recordType.isStop) = true := by
      rcases htype with h | h <;> rw [h] <;> rfl
    have hstep : Ralf.step P site env (.handle msg) W' =
        (.tryRemotes msg site.remoteStores, W', []) := by
      unfold Ralf.step
      simp only [next, hcond, if_true, perform,
        getSessionData_of_none (hempty _ List.mem_cons_self)]
    refine ⟨?_, ?_, .inr (.inl ⟨site.remoteStores, List.Subset.refl _, ?_⟩)⟩ <;>
      simp only [threadStep, Solo.step, hstep, List.append_nil]
  · cases rest with
    | nil => exact ⟨rfl, rfl, .inr (.inr rfl)⟩
    | cons s rest =>
      have hs : s ∈ site.stores := List.mem_cons_of_mem _ (hsub List.mem_cons_self)
      have hstep : Ralf.step P site env (.tryRemotes msg (s :: rest)) W' =
          (.tryRemotes msg rest, W', []) := by
        unfold Ralf.step
        simp only [next, perform, getSessionData_of_none (hempty s hs)]
      refine ⟨?_, ?_, .inr (.inl ⟨rest, fun x hx => hsub (List.mem_cons_of_mem _ hx), ?_⟩)⟩ <;>
        simp only [threadStep, Solo.step, hstep, List.append_nil]
  · exact ⟨rfl, rfl, .inr (.inr rfl)⟩

/-- An INTERIM or a STOP for a session that no store holds sends nothing and changes nothing. -/
theorem ignored {W : World} {msg : Message}
    (hempty : ∀ s ∈ site.stores, (W s).record msg.key = none)
    (htype : msg.recordType = .interim ∨ msg.recordType = .stop) (envs : List Env) :
    Ignoring site msg W (exec (threadStep P site) envs (Thread.start msg W)) := by
  have hstart : Ignoring site msg W (Thread.start msg W) := ⟨rfl, rfl, .inl rfl⟩
  generalize Thread.start msg W = t at hstart
  induction envs generalizing t with
  | nil => exact hstart
  | cons env envs ih => exact ih _ (hstart.step hempty htype env)

variable {msg : κ → Message} {W : World} {as : List (κ × Env)} {j : κ}

/-- What is assumed of a run with a STOP, and the condition under which the STOP is final. -/
def StopOk (site : Site) (j : κ) (σ : Sys κ) (a : κ × Env) : Prop :=
  StoresOk (World.issued σ.shared) a.2 ∧ AddsAhead site j σ a

/-- **No resurrection.** A STOP and any number of INTERIMs of one session are handled at one site,
and no INTERIM adds the session to a store that the STOP has already passed. When all of them have
completed, no store holds the session, and no later INTERIM for it is sent. -/
theorem stopped (hstop : (msg j).recordType = .stop)
    (hinterim : ∀ i, i ≠ j → (msg i).recordType = .interim) (hkey : ∀ i, (msg i).key = key)
    (hW : StoresReady P key W)
    (hrun : Along (sysStep P fun _ => site) (StopOk site j) as (Sys.start msg W))
    (hdone : ∀ i, (exec (sysStep P fun _ => site) as (Sys.start msg W)).pc i = .done) :
    (∀ s ∈ site.stores,
      ((exec (sysStep P fun _ => site) as (Sys.start msg W)).shared s).record key = none) ∧
    ∀ later : Message, later.recordType = .interim → later.key = key → ∀ envs,
      (exec (threadStep P site) envs (Thread.start later
        (exec (sysStep P fun _ => site) as (Sys.start msg W)).shared)).trace = [] := by
  have hkeyed : Keyed P key (Sys.start msg W) := keyed_start hkey hW
  have hregs := regs_sysExec hkeyed (fun _ => site) as
  have hstart : StopInv site j ((Sys.start msg W).map (regs P key)) := by
    refine ⟨sane_start hW, hstop, ?_, ?_⟩
    · rintro i hi
      exact ⟨fun m hm => by cases hm; exact hinterim i hi, id⟩
    · rintro s hs ⟨⟩
  have hend : StopInv site j
      ((exec (sysStep P fun _ => site) as (Sys.start msg W)).map (regs P key)) := by
    rw [hregs]
    have hok : Along (regSysStep P fun _ => site)
        (fun σ a => StoresOk σ.shared.issued a.2 ∧ AddsAhead site j σ a) as _ :=
      regs_sysAlong hkeyed (fun τ a _ h => h) hrun
    exact Along.invariant (fun τ a h ha => h.step ha.1 ha.2) hok hstart
  have hreadable : Keyed P key (exec (sysStep P fun _ => site) as (Sys.start msg W)) :=
    Along.invariant (fun τ a h _ => h.step _ a) hrun hkeyed
  have hempty : ∀ s ∈ site.stores,
      ((exec (sysStep P fun _ => site) as (Sys.start msg W)).shared s).record key = none := by
    intro s hs
    refine record_of_view_none (hreadable.readable s) (hend.empty s hs ?_)
    show Pc.passed s ((exec (sysStep P fun _ => site) as (Sys.start msg W)).pc j) = true
    rw [hdone j]
    rfl
  refine ⟨hempty, fun later htype hlater envs => ?_⟩
  subst hlater
  exact (ignored hempty (.inl htype) envs).trace

end Runs

/-! ### An INTERIM and a STOP -/

/-- Thread `true` is the STOP, thread `false` an INTERIM. -/
def interimAndStop : Bool → Message
  | true => sampleMessage .stop
  | false => sampleMessage .interim

/-- Both from their start, the session in both stores. -/
def beforeStop : Sys Bool :=
  Sys.start interimAndStop
    (World.holding compactPlatform sampleKey (sampleSession 1) fun s => s < 2)

/-- The same on registers. -/
def beforeStopRegs : RegSys Bool :=
  ⟨fun i => .handle (interimAndStop i), Regs.holding (sampleSession 1) fun s => s < 2, []⟩

/-- A schedule in which every answer is a success. -/
def successes (is : List Bool) : List (Bool × Env) :=
  schedule 1 (is.map fun i => (i, .answering 2001))

/-- The INTERIM completes, then the STOP. -/
def stopLast : List (Bool × Env) :=
  successes [false, false, false, false, false, false, false, false, true, true, true, true, true,
    true, true]

/-- The STOP comes between the INTERIM's write to the local store and its read of the remote one. -/
def stopBetween : List (Bool × Env) :=
  successes [false, false, true, true, true, true, true, true, true, false, false, false, false,
    false, false]

theorem key_interimAndStop (i : Bool) : (interimAndStop i).key = sampleKey := by
  cases i <;> rfl

theorem regs_beforeStop (as : List (Bool × Env)) :
    (exec (sysStep compactPlatform fun _ => localAndRemote) as beforeStop).map
        (regs compactPlatform sampleKey) =
      exec (regSysStep compactPlatform fun _ => localAndRemote) as beforeStopRegs :=
  regs_sysExec_holding _ key_interimAndStop _ _ _ _

set_option maxRecDepth 4000 in
/-- After an INTERIM and then a STOP, both stores are empty. -/
theorem stopped_stopLast :
    ((exec (sysStep compactPlatform fun _ => localAndRemote) stopLast beforeStop).shared
        0).record sampleKey = none ∧
      ((exec (sysStep compactPlatform fun _ => localAndRemote) stopLast beforeStop).shared
        1).record sampleKey = none := by
  have hkeyed : Keyed compactPlatform sampleKey beforeStop :=
    keyed_start key_interimAndStop (storesReady_holding _ _ _ _)
  have hstart : beforeStop.map (regs compactPlatform sampleKey) = beforeStopRegs :=
    regs_beforeStop []
  have hnone : Along (regSysStep compactPlatform fun _ => localAndRemote)
      (fun σ a => (σ.pc a.1).adds localAndRemote = none) stopLast
      (beforeStop.map (regs compactPlatform sampleKey)) := by
    rw [hstart]
    iterate 15 refine ⟨rfl, ?_⟩
    trivial
  have hadds : Along (sysStep compactPlatform fun _ => localAndRemote)
      (AddsAhead localAndRemote true) stopLast beforeStop := by
    refine Along.of_map (I := Keyed compactPlatform sampleKey) (fun τ a h => h.step _ a)
      (fun τ a h => regs_sysStep h _ a) ?_ hkeyed hnone
    intro τ a _ hτ s hs
    cases hτ.symm.trans hs
  have hinterim : ∀ i, i ≠ true → (interimAndStop i).recordType = .interim := by
    intro i hi
    cases i
    · rfl
    · exact absurd rfl hi
  have hdone : ∀ i, (exec (sysStep compactPlatform fun _ => localAndRemote) stopLast
      beforeStop).pc i = .done := by
    intro i
    refine (congrFun (congrArg Pool.pc (regs_beforeStop stopLast)) i).trans ?_
    cases i <;> rfl
  have hempty := (stopped rfl hinterim key_interimAndStop (storesReady_holding _ _ _ _)
    ((storesOk_schedule _).and hadds) hdone).1
  exact ⟨hempty 0 (by decide), hempty 1 (by decide)⟩

set_option maxRecDepth 4000 in
/-- With the STOP in between, the INTERIM puts the session back into the remote store: a record is
left when both have completed. -/
theorem stopped_resurrected :
    Along (sysStep compactPlatform fun _ => localAndRemote)
      (fun σ a => StoresOk (World.issued σ.shared) a.2) stopBetween beforeStop ∧
    (∀ i, (exec (sysStep compactPlatform fun _ => localAndRemote) stopBetween beforeStop).pc i =
      .done) ∧
    ¬ ∀ s ∈ localAndRemote.stores,
      ((exec (sysStep compactPlatform fun _ => localAndRemote) stopBetween beforeStop).shared
        s).record sampleKey = none := by
  refine ⟨storesOk_schedule _, ?_, ?_⟩
  · intro i
    refine (congrFun (congrArg Pool.pc (regs_beforeStop stopBetween)) i).trans ?_
    cases i <;> rfl
  · intro h
    have hcell := congrArg Register.cell
      (congrFun (congrArg Pool.shared (regs_beforeStop stopBetween)) 1)
    have hnone : view compactPlatform
        ((exec (sysStep compactPlatform fun _ => localAndRemote) stopBetween beforeStop).shared 1)
          sampleKey = none := view_of_none (h 1 (by decide))
    cases hnone.symm.trans (hcell.trans rfl)

end Ralf
