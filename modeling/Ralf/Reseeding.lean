import Ralf.Increments

/-!
# Replicas put back by INTERIMs

Some remote stores have lost the session when a number of INTERIMs is handled at one site. A
handler that finds a store empty puts its own copy there, with the number its own INTERIM has
obtained, and one that finds the session increases the number it finds. A store that was put back
by the INTERIM with the first number therefore ends where the others do, and one that was put back
by a later INTERIM ends too high: `reseeded_iff` says that the stores agree at the end exactly when
no handler but the first puts a store back.
-/

namespace Ralf

open Bytes Versioned Runs

section Systems

variable {P : Platform} {κ : Type} [DecidableEq κ] [Fintype κ] {site : κ → Site} {n b : UInt32}
  {σ : RegSys κ} {a : κ × Env} {S : Finset StoreId}

/-- Every store counts from `n`, or has lost the session. -/
structure Converging (site : κ → Site) (S : Finset StoreId) (n : UInt32) (σ : RegSys κ) : Prop where
  tally : Tally site n σ
  counts : ∀ s ∈ S, CountsFrom s n σ ∨ Absent s σ

/-- The thread that moves next does not put a store back, or has the first number. -/
def FirstReseeds (n : UInt32) (σ : RegSys κ) (a : κ × Env) : Prop :=
  ∀ s sess, (σ.pc a.1).Reseeds s sess → (σ.shared s).cell = none → sess.acctRecordNumber = n + 1

theorem Converging.step (hS : ∀ i s, s ∈ (site i).stores ↔ s ∈ S) (h : Converging site S n σ)
    (hok : CountingOk σ a) (hfirst : FirstReseeds n σ a) :
    Converging site S n (regSysStep P site a σ) where
  tally := h.tally.step (fun i j s hs => (hS j s).mpr ((hS i s).mp hs)) hok
  counts := by
    intro s hs
    have hsa := (hS a.1 s).mpr hs
    rcases h.counts s hs with hc | habs
    · exact .inl (hc.step h.tally hok hsa)
    · rcases habs.step (P := P) h.tally hok hsa with ⟨-, habs'⟩ | ⟨sess, hre, hc⟩
      · exact .inr habs'
      · rw [hfirst s sess hre habs.1, UInt32.add_sub_cancel] at hc
        exact .inl hc

/-- A store that counts from somewhere goes on counting from there. -/
theorem CountsFrom.exec (hS : ∀ i s, s ∈ (site i).stores ↔ s ∈ S) {s : StoreId} (hs : s ∈ S)
    {as : List (κ × Env)} (hrun : Along (regSysStep P site) CountingOk as σ)
    (h : Tally site n σ) (hc : CountsFrom s b σ) :
    CountsFrom s b (exec (regSysStep P site) as σ) := by
  refine (Along.invariant (I := fun τ => Tally site n τ ∧ CountsFrom s b τ) ?_ hrun ⟨h, hc⟩).2
  intro τ a h ha
  exact ⟨h.1.step (fun i j s hs => (hS j s).mpr ((hS i s).mp hs)) ha,
    h.2.step h.1 ha ((hS a.1 s).mpr hs)⟩

omit [DecidableEq κ] in
theorem CountsFrom.unique {s : StoreId} (h : CountsFrom s b σ) {v : Session}
    (hv : (σ.shared s).cell = some v) (hnum : v.acctRecordNumber = n + UInt32.ofNat (total s σ)) :
    b = n := by
  obtain ⟨v', hv', -, hnum'⟩ := h
  rw [hv] at hv'
  cases hv'
  rw [hnum] at hnum'
  exact ((UInt32.add_left_inj _).mp hnum').symm

/-- A store that is put back with another number never counts from `n` again. -/
theorem firstReseeds_of_countsFrom (hS : ∀ i s, s ∈ (site i).stores ↔ s ∈ S)
    {as : List (κ × Env)} (hrun : Along (regSysStep P site) CountingOk as σ)
    (h : Converging site S n σ)
    (hend : ∀ s ∈ S, ∃ v, ((exec (regSysStep P site) as σ).shared s).cell = some v ∧
      v.acctRecordNumber = n + UInt32.ofNat (total s (exec (regSysStep P site) as σ))) :
    Along (regSysStep P site) (FirstReseeds n) as σ := by
  induction as generalizing σ with
  | nil => trivial
  | cons a as ih =>
    have hfirst : FirstReseeds n σ a := by
      intro s sess hre hcell
      obtain ⟨msg, rest, remoteSess, hpc⟩ := hre
      have hloop := h.tally.sane.inLoop a.1
      rw [hpc] at hloop
      have hsa : s ∈ (site a.1).stores :=
        List.mem_cons_of_mem _ (hloop.subset List.mem_cons_self)
      have hs : s ∈ S := (hS a.1 s).mp hsa
      have habs : Absent s σ := by
        refine (h.counts s hs).resolve_left ?_
        rintro ⟨v, hv, -⟩
        rw [hcell] at hv
        cases hv
      rcases habs.step (P := P) h.tally hrun.1 hsa with ⟨hno, -⟩ | ⟨sess', hre', hc⟩
      · exact absurd ⟨msg, rest, remoteSess, hpc⟩ (hno sess)
      · obtain ⟨msg', rest', remoteSess', hpc'⟩ := hre'
        rw [hpc] at hpc'
        cases hpc'
        have htally := h.tally.step (P := P) (fun i j s hs => (hS j s).mpr ((hS i s).mp hs)) hrun.1
        have hlast := CountsFrom.exec hS hs hrun.2 htally hc
        obtain ⟨v, hv, hnum⟩ := hend s hs
        rw [← hlast.unique hv hnum, UInt32.sub_add_cancel]
    exact ⟨hfirst, ih hrun.2 (h.step hS hrun.1 hfirst) hend⟩

theorem Converging.exec (hS : ∀ i s, s ∈ (site i).stores ↔ s ∈ S) {as : List (κ × Env)}
    (hrun : Along (regSysStep P site) CountingOk as σ)
    (hfirst : Along (regSysStep P site) (FirstReseeds n) as σ) (h : Converging site S n σ) :
    Converging site S n (exec (regSysStep P site) as σ) :=
  Along.invariant (fun _ _ h ha => h.step hS ha.1 ha.2) (hrun.and hfirst) h

end Systems

/-! ## One site -/

section Site

variable {P : Platform} {κ : Type} [DecidableEq κ] [Fintype κ] {site : Site} {key : Bytes}
  {msg : κ → Message} {W : World} {as : List (κ × Env)} {n : UInt32}

/-- If the thread that moves next puts back a store that has lost the session, its INTERIM is the
first to have updated the local store. -/
def FirstPutsBack (P : Platform) (key : Bytes) (n : UInt32) (σ : Sys κ) (a : κ × Env) : Prop :=
  ∀ s sess, (σ.pc a.1).Reseeds s sess → view P (σ.shared s) key = none →
    sess.acctRecordNumber = n + 1

omit [DecidableEq κ] in
theorem converging_start (hmsg : ∀ i, (msg i).recordType = .interim) (hW : StoresReady P key W)
    (hlocal : LiveAt P key n (W site.localStore))
    (hremote : ∀ s ∈ site.remoteStores, LiveAt P key n (W s) ∨ (W s).record key = none) :
    Converging (fun _ : κ => site) site.stores.toFinset n
      ((Sys.start msg W).map (regs P key)) where
  tally := tally_start hmsg hW fun _ => hlocal
  counts := by
    intro s hs
    rcases List.mem_cons.mp (List.mem_toFinset.mp hs) with rfl | hrem
    · exact .inl hlocal.countsFrom
    · rcases hremote s hrem with hlive | hlost
      · exact .inl hlive.countsFrom
      · exact .inr ⟨view_of_none hlost, fun _ => rfl⟩

/-- **Replicas put back.** At least one INTERIM is handled at a site some of whose remote stores
have lost the session. When all INTERIMs have completed, every store holds the number `n` plus
that of the INTERIMs if and only if no store was put back by another INTERIM than the first. -/
theorem reseeded_iff [Nonempty κ] (hmsg : ∀ i, (msg i).recordType = .interim ∧ (msg i).key = key)
    (hW : StoresReady P key W) (hlocal : LiveAt P key n (W site.localStore))
    (hremote : ∀ s ∈ site.remoteStores, LiveAt P key n (W s) ∨ (W s).record key = none)
    (hrun : Along (sysStep P fun _ => site) InterimOk as (Sys.start msg W))
    (hdone : ∀ i, (exec (sysStep P fun _ => site) as (Sys.start msg W)).pc i = .done) :
    (∀ s ∈ site.stores, ∃ v,
      view P ((exec (sysStep P fun _ => site) as (Sys.start msg W)).shared s) key = some v ∧
        v.acctRecordNumber = n + UInt32.ofNat (Fintype.card κ)) ↔
      Along (sysStep P fun _ => site) (FirstPutsBack P key n) as (Sys.start msg W) := by
  have hS : ∀ (_ : κ) s, s ∈ site.stores ↔ s ∈ site.stores.toFinset := fun _ s =>
    List.mem_toFinset.symm
  have hkeyed : Keyed P key (Sys.start msg W) := keyed_start (fun i => (hmsg i).2) hW
  have hregs := regs_sysExec hkeyed (fun _ => site) as
  have hok := along_countingOk (fun i => (hmsg i).2) hW hrun
  have hstart := converging_start (fun i => (hmsg i).1) hW hlocal hremote
  have htotal : ∀ s, total s (exec (regSysStep P fun _ => site) as
      ((Sys.start msg W).map (regs P key))) = Fintype.card κ := by
    rw [← hregs]
    exact total_done hdone
  constructor
  · intro hend
    have hfirst : Along (regSysStep P fun _ => site) (FirstReseeds n) as
        ((Sys.start msg W).map (regs P key)) := by
      refine firstReseeds_of_countsFrom hS hok hstart fun s hs => ?_
      obtain ⟨v, hv, hnum⟩ := hend s (List.mem_toFinset.mp hs)
      rw [htotal s, ← hregs]
      exact ⟨v, hv, hnum⟩
    exact Along.of_map (I := Keyed P key) (fun τ a h => h.step _ a)
      (fun τ a h => regs_sysStep h _ a) (fun τ a _ h => h) hkeyed hfirst
  · intro hfirst s hs
    have hfirst' : Along (regSysStep P fun _ => site) (FirstReseeds n) as _ :=
      regs_sysAlong hkeyed (fun τ a _ h => h) hfirst
    have hconv := hstart.exec hS hok hfirst'
    rcases hconv.counts s (List.mem_toFinset.mpr hs) with ⟨v, hv, -, hnum⟩ | habs
    · rw [htotal s] at hnum
      rw [← hregs] at hv
      exact ⟨v, hv, hnum⟩
    · -- a thread that is done has counted everywhere
      obtain ⟨i⟩ := ‹Nonempty κ›
      have hzero := habs.2 i
      rw [← hregs] at hzero
      have hpc : ((exec (sysStep P fun _ => site) as (Sys.start msg W)).map (regs P key)).pc i =
        .done := hdone i
      rw [hpc] at hzero
      cases hzero

end Site

/-! ### Two INTERIMs, one lost replica -/

/-- The remote store has lost the session. -/
def lostRemote : World :=
  World.holding compactPlatform sampleKey (sampleSession 1) fun s => s = 0

/-- The INTERIM that updates the local store first also reaches the remote store first. -/
def inOrder : List (Bool × Env) :=
  schedule 1 ([false, false, true, true, false, false, true, true, false, false, false, false, true,
    true, true, true].map fun i => (i, .answering 2001))

/-- The INTERIM that updates the local store second overtakes the other one. -/
def overtaking : List (Bool × Env) :=
  schedule 1 ([false, false, false, true, true, true, true, true, true, true, true, false, false,
    false, false, false, false, false].map fun i => (i, .answering 2001))

/-- Both INTERIMs from their start in these stores. -/
def twoInterims : Sys Bool := Sys.start (fun _ => sampleMessage .interim) lostRemote

theorem regs_twoInterims (as : List (Bool × Env)) :
    (exec (sysStep compactPlatform fun _ => localAndRemote) as twoInterims).map
        (regs compactPlatform sampleKey) =
      exec (regSysStep compactPlatform fun _ => localAndRemote) as
        ⟨fun _ => .handle (sampleMessage .interim),
          Regs.holding (sampleSession 1) fun s => s = 0, []⟩ :=
  regs_sysExec_holding _ (fun _ => rfl) _ _ _ _

set_option maxRecDepth 4000 in
/-- In order, both stores end with the same number. -/
theorem reseeded_iff_inOrder :
    Along (sysStep compactPlatform fun _ => localAndRemote) (FirstPutsBack compactPlatform sampleKey 1)
      inOrder twoInterims := by
  have hkey : ∀ _ : Bool, (sampleMessage .interim).recordType = .interim ∧
      (sampleMessage .interim).key = sampleKey := fun _ => ⟨rfl, rfl⟩
  have hlocal : LiveAt compactPlatform sampleKey 1 (lostRemote localAndRemote.localStore) :=
    liveAt_holding rfl
  refine (reseeded_iff hkey (storesReady_holding _ _ _ _) hlocal ?_
    (interimOk_schedule _ (.answering 2001) (show (2001 : Int32) ≠ 5002 by decide)) ?_).mp ?_
  · intro s hs
    rw [List.mem_singleton.mp hs]
    exact .inr rfl
  · intro i
    refine (congrFun (congrArg Pool.pc (regs_twoInterims inOrder)) i).trans ?_
    cases i <;> rfl
  · intro s hs
    have hcell := congrArg Register.cell
      (congrFun (congrArg Pool.shared (regs_twoInterims inOrder)) s)
    rcases List.mem_cons.mp hs with rfl | hs
    · exact ⟨_, hcell.trans rfl, rfl⟩
    · rw [List.mem_singleton.mp hs] at hcell ⊢
      exact ⟨_, hcell.trans rfl, rfl⟩

set_option maxRecDepth 4000 in
/-- Out of order, the remote store ends with the number 4 after two INTERIMs from number 1. -/
theorem reseeded_overtaking :
    Along (sysStep compactPlatform fun _ => localAndRemote) InterimOk overtaking twoInterims ∧
    (∀ i, (exec (sysStep compactPlatform fun _ => localAndRemote) overtaking twoInterims).pc i =
      .done) ∧
    ¬ ∀ s ∈ localAndRemote.stores, ∃ v,
      view compactPlatform
        ((exec (sysStep compactPlatform fun _ => localAndRemote) overtaking twoInterims).shared s)
          sampleKey = some v ∧ v.acctRecordNumber = 1 + UInt32.ofNat (Fintype.card Bool) := by
  refine ⟨interimOk_schedule _ (.answering 2001) (show (2001 : Int32) ≠ 5002 by decide), ?_, ?_⟩
  · intro i
    refine (congrFun (congrArg Pool.pc (regs_twoInterims overtaking)) i).trans ?_
    cases i <;> rfl
  · intro h
    obtain ⟨v, hv, hnum⟩ := h 1 (by decide)
    have hcell := congrArg Register.cell
      (congrFun (congrArg Pool.shared (regs_twoInterims overtaking)) 1)
    have hfour : v.acctRecordNumber = 4 := by
      have hsome := hv.symm.trans (hcell.trans rfl)
      cases hsome
      rfl
    rw [hfour] at hnum
    revert hnum
    decide

end Ralf
