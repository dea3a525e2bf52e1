import Mathlib.Algebra.BigOperators.Group.Finset.Piecewise
import Mathlib.Algebra.Order.BigOperators.Group.Finset
import Ralf.Acrs

/-!
# Counting INTERIMs

Any number of INTERIMs of one session are handled at once, at sites that share their stores. Each
has its increment to make in every store: by a compare-and-set loop in its own site's store, by a
read-and-retry loop in each of the others. `Pc.counted s` says whether a thread has made the one in
`s`, and the invariant is that a store's number is where it started plus the number of threads that
have (`CountsFrom`): the rewrites of `update_timer_id` do not disturb it, and neither do the
retries.

A store that has lost the session starts again with the number of the INTERIM that puts it back,
so what it counts from is settled there (`absent_step`).
-/

namespace Ralf

open Bytes Versioned Runs

/-- 1 once a thread has counted its INTERIM in the store `s` of its site. -/
def Pc.counted (s : StoreId) : Pc → ℕ
  | .handle _ => 0
  | .updateLocal _ _ _ => 0
  | .readRemotes _ _ rest => if s ∈ rest then 0 else 1
  | .updateRemote _ _ t rest _ _ => if s ∈ t :: rest then 0 else 1
  | _ => 1

/-- An INTERIM for a session that the local store holds throughout and the CCF knows. -/
def Pc.Counting : Pc → Prop
  | .handle msg => msg.recordType = .interim
  | .updateLocal msg _ newSession => msg.recordType = .interim ∧ newSession = false
  | .readRemotes msg sess _ => msg.recordType = .interim ∧ 0 < sess.expiry
  | .updateRemote msg sess _ _ _ _ => msg.recordType = .interim ∧ 0 < sess.expiry
  | .send msg => msg.recordType = .interim
  | .awaitAnswer msg => msg.recordType = .interim
  | .sendChronosUpdate _ _ _ => True
  | .readTimerId _ _ _ _ => True
  | .writeTimerId _ _ _ _ _ _ => True
  | .finish _ => True
  | .done => True
  | _ => False

theorem counted_le_one (s : StoreId) (pc : Pc) : pc.counted s ≤ 1 := by
  cases pc with
  | handle => exact Nat.zero_le 1
  | updateLocal => exact Nat.zero_le 1
  | readRemotes msg sess rest =>
    simp only [Pc.counted]
    split_ifs <;> omega
  | updateRemote msg sess t rest remoteSess newSession =>
    simp only [Pc.counted]
    split_ifs <;> omega
  | _ => exact le_refl 1

section Moves

variable {P : Platform} {site : Site} {env : Env} {pc pc' : Pc} {R R' : Regs} {es : List Event}

theorem Move.counting (h : Move P site env pc R pc' R' es) (hpc : pc.Counting)
    (hheld : Held site R pc) (hlocal : ∃ v, (R site.localStore).cell = some v ∧ 0 < v.expiry)
    (hrc : env.answer.rc ≠ 5002) : pc'.Counting := by
  obtain ⟨v, hv, hlive⟩ := hlocal
  cases h with
  | handleInterim hi _ => exact ⟨hi, rfl⟩
  | handleStop hs _ =>
    rw [show _ = AccountingRecordType.interim from hpc] at hs
    cases hs
  | handleMissing _ hnone =>
    rw [hnone] at hv
    cases hv
  | handleFirst hi _ => exact absurd hpc hi
  | updateLocal hver =>
    obtain ⟨hi, rfl⟩ := hpc
    obtain ⟨held, ht, rfl⟩ := hheld
    have hcell := ht.cell_of_version hver
    rw [hv] at hcell
    cases hcell
    exact ⟨hi, hlive⟩
  | updateLocalAgain => exact hpc.1
  | readRemotesNone => exact hpc.1
  | readRemotesMissing => exact hpc
  | readRemotesFound => exact hpc
  | updateRemote => exact hpc
  | updateRemoteAgain => exact hpc
  | send => exact hpc
  | answerTimer hs =>
    rw [show _ = AccountingRecordType.interim from hpc] at hs
    cases hs
  | answerStart hs =>
    rw [show _ = AccountingRecordType.interim from hpc] at hs
    cases hs
  | answerUnknown _ hunknown => exact absurd hunknown hrc
  | _ => trivial

/-- The store `s` counts on: what is added to its number is what the thread has newly counted. -/
def CountsOn (s : StoreId) (pc pc' : Pc) (R' : Regs) (v : Session) : Prop :=
  ∃ v', (R' s).cell = some v' ∧ v'.sessionRefreshTime = v.sessionRefreshTime ∧
    v'.acctRecordNumber + UInt32.ofNat (pc.counted s) =
      v.acctRecordNumber + UInt32.ofNat (pc'.counted s)

theorem CountsOn.of_same {s : StoreId} {v : Session} (hcell : (R' s).cell = some v)
    (hcount : pc'.counted s = pc.counted s) : CountsOn s pc pc' R' v :=
  ⟨v, hcell, rfl, by rw [hcount]⟩

theorem cell_put_of_live {sess : Session} (h : 0 < sess.expiry) (s : StoreId) :
    (R.put s env (sess.written (env.store s).cas) s).cell =
      some { sess.stored with cas := (env.store s).cas } := by
  rw [Regs.put_self, Register.put_cell, Session.written, if_pos h]

/-- A write of the increased copy is the increment. -/
theorem CountsOn.of_increment {s : StoreId} {v : Session} (hlive : 0 < v.expiry)
    (hpc : pc.counted s = 0) (hpc' : pc'.counted s = 1) :
    CountsOn s pc pc' (R.put s env (v.incremented.written (env.store s).cas)) v := by
  have hlive' : 0 < v.incremented.expiry := hlive
  refine ⟨_, cell_put_of_live hlive' s, rfl, ?_⟩
  rw [hpc, hpc']
  show v.acctRecordNumber + 1 + 0 = v.acctRecordNumber + 1
  rw [UInt32.add_zero]

theorem counted_readRemotes_of_suffix {msg : Message} {sess : Session} {t : StoreId}
    {rest : List StoreId} (h : t :: rest <:+ site.remoteStores) :
    (Pc.readRemotes msg sess rest).counted t = 1 := by
  have hnodup : (t :: rest).Nodup := h.sublist.nodup (List.nodup_cons.mp site.nodup).2
  simp [Pc.counted, (List.nodup_cons.mp hnodup).1]

/-- A store that holds the session keeps count. -/
theorem Move.countsOn (h : Move P site env pc R pc' R' es) (hpc : pc.Counting)
    (hheld : Held site R pc) (hloop : pc.InLoop site) {s : StoreId} (hs : s ∈ site.stores)
    {v : Session} (hv : (R s).cell = some v) (hlive : 0 < v.expiry)
    (hsound : (R s).Sound Session.cas) (hpc' : pc'.Counting) : CountsOn s pc pc' R' v := by
  cases h with
  | handleInterim => exact .of_same hv rfl
  | updateLocalAgain => exact .of_same hv rfl
  | updateLocal hver =>
    obtain ⟨-, rfl⟩ := hpc
    obtain ⟨held, ht, rfl⟩ := hheld
    have hcell := ht.cell_of_version hver
    by_cases hsl : s = site.localStore
    · subst hsl
      rw [hv] at hcell
      cases hcell
      have hnot : site.localStore ∉ site.remoteStores := (List.nodup_cons.mp site.nodup).1
      exact .of_increment hlive rfl (by simp [Pc.counted, hnot])
    · have hrem : s ∈ site.remoteStores := (List.mem_cons.mp hs).resolve_left hsl
      refine .of_same ?_ (by simp [Pc.counted, hrem])
      rw [Regs.put_of_ne R env _ hsl]
      exact hv
  | readRemotesNone => exact .of_same hv rfl
  | readRemotesMissing => exact .of_same hv rfl
  | readRemotesFound => exact .of_same hv rfl
  | @updateRemote msg sess t rest remoteSess newSession _ hver =>
    by_cases hst : s = t
    · subst hst
      cases newSession with
      | true =>
        -- the store is not empty, so nothing is added
        rw [show Session.expected remoteSess true = 0 from rfl] at hver
        rw [(Register.version_eq_zero hsound).mp hver] at hv
        cases hv
      | false =>
        obtain ⟨held, ht, rfl⟩ := hheld
        have hcell := ht.cell_of_version hver
        rw [hv] at hcell
        cases hcell
        exact .of_increment hlive (by simp [Pc.counted]) (counted_readRemotes_of_suffix hloop)
    · refine .of_same ?_ (by simp [Pc.counted, hst])
      rw [Regs.put_of_ne R env _ hst]
      exact hv
  | updateRemoteAgain => exact .of_same hv rfl
  | send => exact .of_same hv rfl
  | answerUpdate => exact .of_same hv rfl
  | answerFinish => exact .of_same hv rfl
  | chronosUpdated => exact .of_same hv rfl
  | chronosUnchanged => exact .of_same hv rfl
  | readTimerIdNone => exact .of_same hv rfl
  | readTimerId => exact .of_same hv rfl
  | readTimerIdMissing => exact .of_same hv rfl
  | @writeTimerId msg timerId t rest sess accepted _ hver =>
    by_cases hst : s = t
    · subst hst
      obtain ⟨held, ht, rfl⟩ := hheld
      have hcell := ht.cell_of_version hver
      rw [hv] at hcell
      cases hcell
      have hlive' : 0 < ({ v with timerId := timerId } : Session).expiry := hlive
      exact ⟨_, cell_put_of_live hlive' s, rfl, rfl⟩
    · refine .of_same ?_ rfl
      rw [Regs.put_of_ne R env _ hst]
      exact hv
  | writeTimerIdFailed => exact .of_same hv rfl
  | finish => exact .of_same hv rfl
  | finishQuiet => exact .of_same hv rfl
  | done => exact .of_same hv rfl
  | handleStop => exact hpc'.elim
  | handleMissing => exact hpc'.elim
  | handleFirst hi => exact absurd hpc hi
  | answerTimer => exact hpc'.elim
  | answerStart => exact hpc'.elim
  | answerUnknown => exact hpc'.elim
  | _ => exact hpc.elim

/-- No thread takes a count back. -/
theorem Move.counted_le (h : Move P site env pc R pc' R' es) (hpc : pc.Counting) (s : StoreId) :
    pc.counted s ≤ pc'.counted s := by
  cases h with
  | handleInterim => exact le_refl 0
  | handleStop => exact Nat.zero_le _
  | handleMissing => exact Nat.zero_le _
  | handleFirst => exact Nat.zero_le _
  | updateLocal => exact Nat.zero_le _
  | updateLocalAgain => exact le_refl 0
  | readRemotesNone => exact counted_le_one s _
  | readRemotesMissing => exact le_refl _
  | readRemotesFound => exact le_refl _
  | updateRemote =>
    simp only [Pc.counted, List.mem_cons]
    split_ifs <;> first | omega | simp_all
  | updateRemoteAgain => exact le_refl _
  | _ => first | exact le_refl 1 | exact hpc.elim

/-- The thread puts the session back into the store `s`, which has lost it. -/
def Pc.Reseeds (s : StoreId) (sess : Session) (pc : Pc) : Prop :=
  ∃ msg rest remoteSess, pc = .updateRemote msg sess s rest remoteSess true

/-- A store that has lost the session stays empty until a thread puts it back. -/
theorem Move.absent (h : Move P site env pc R pc' R' es) (hpc : pc.Counting)
    (hheld : Held site R pc) (hloop : pc.InLoop site) {s : StoreId}
    (hv : (R s).cell = none) (hcount : pc.counted s = 0) (hne : s ≠ site.localStore)
    (hs : s ∈ site.stores) (hpc' : pc'.Counting) :
    ((∀ sess, ¬ pc.Reseeds s sess) ∧ (R' s).cell = none ∧ pc'.counted s = 0) ∨
      ∃ sess, pc.Reseeds s sess ∧ pc'.counted s = 1 ∧ ∃ v, (R' s).cell = some v ∧
        v.sessionRefreshTime = sess.sessionRefreshTime ∧
        v.acctRecordNumber = sess.acctRecordNumber := by
  have hno : ∀ {pc : Pc}, (∀ msg sess rest remoteSess,
      pc ≠ .updateRemote msg sess s rest remoteSess true) → ∀ sess, ¬ pc.Reseeds s sess := by
    rintro pc hne sess ⟨msg, rest, remoteSess, rfl⟩
    exact hne _ _ _ _ rfl
  have hrem : s ∈ site.remoteStores := (List.mem_cons.mp hs).resolve_left hne
  cases h with
  | handleInterim => exact .inl ⟨hno (by simp), hv, rfl⟩
  | updateLocalAgain => exact .inl ⟨hno (by simp), hv, rfl⟩
  | updateLocal hver =>
    refine .inl ⟨hno (by simp), ?_, by simp [Pc.counted, hrem]⟩
    rw [Regs.put_of_ne R env _ hne]
    exact hv
  | readRemotesMissing => exact .inl ⟨hno (by simp), hv, hcount⟩
  | readRemotesFound => exact .inl ⟨hno (by simp), hv, hcount⟩
  | @updateRemote msg sess t rest remoteSess newSession _ hver =>
    by_cases hst : s = t
    · subst hst
      cases newSession with
      | true =>
        cases hheld
        exact .inr ⟨sess, ⟨msg, rest, sess, rfl⟩, counted_readRemotes_of_suffix hloop, _,
          cell_put_of_live hpc.2 s, rfl, rfl⟩
      | false =>
        -- the copy was read from a store that is empty now
        obtain ⟨held, ht, rfl⟩ := hheld
        rw [ht.cell_of_version hver] at hv
        cases hv
    · refine .inl ⟨hno (by simp [Ne.symm hst]), ?_, ?_⟩
      · rw [Regs.put_of_ne R env _ hst]
        exact hv
      · simpa [Pc.counted, hst] using hcount
  | updateRemoteAgain hver =>
    refine .inl ⟨hno ?_, hv, hcount⟩
    rintro msg sess rest remoteSess ⟨⟩
    exact hver (by simp [Regs.version, Register.version, hv, Session.expected])
  | handleFirst hi => exact absurd hpc hi
  | handleStop => exact hpc'.elim
  | handleMissing => exact hpc'.elim
  | _ => cases hcount

end Moves

/-! ## Systems -/

section Systems

variable {P : Platform} {κ : Type} [DecidableEq κ] [Fintype κ] {site : κ → Site}

/-- How many threads have counted in the store `s`. -/
def total (s : StoreId) (σ : RegSys κ) : ℕ := ∑ i, (σ.pc i).counted s

omit [DecidableEq κ] in
theorem total_le_card (s : StoreId) (σ : RegSys κ) : total s σ ≤ Fintype.card κ := by
  unfold total
  calc ∑ i, (σ.pc i).counted s ≤ ∑ _i : κ, 1 := Finset.sum_le_sum fun i _ => counted_le_one s _
    _ = Fintype.card κ := by simp

/-- The sum changes where the thread that moves does. -/
theorem total_update (s : StoreId) (pc : κ → Pc) (R R' : Regs) (tr tr' : List (κ × Event)) (i : κ)
    (pc' : Pc) :
    total s ⟨Function.update pc i pc', R', tr'⟩ + (pc i).counted s =
      total s ⟨pc, R, tr⟩ + pc'.counted s := by
  unfold total
  have hupd : ∀ j, (Function.update pc i pc' j).counted s =
      Function.update (fun j => (pc j).counted s) i (pc'.counted s) j := by
    intro j
    by_cases hj : j = i
    · subst hj; simp
    · simp [hj]
  simp only [hupd]
  rw [Finset.sum_update_of_mem (Finset.mem_univ i), Finset.sdiff_singleton_eq_erase,
    ← Finset.add_sum_erase _ (fun j => (pc j).counted s) (Finset.mem_univ i)]
  omega

/-- The store `s` holds the session, alive, and counts from `b`. -/
def CountsFrom (s : StoreId) (b : UInt32) (σ : RegSys κ) : Prop :=
  ∃ v, (σ.shared s).cell = some v ∧ 0 < v.expiry ∧
    v.acctRecordNumber = b + UInt32.ofNat (total s σ)

/-- The store `s` has lost the session, and nobody has counted there yet. -/
def Absent (s : StoreId) (σ : RegSys κ) : Prop :=
  (σ.shared s).cell = none ∧ ∀ i, (σ.pc i).counted s = 0

/-- Every thread counts an INTERIM, and every site's own store counts from `n`. -/
structure Tally (site : κ → Site) (n : UInt32) (σ : RegSys κ) : Prop where
  sane : Sane site σ
  counting : ∀ i, (σ.pc i).Counting
  localCounts : ∀ i, CountsFrom (site i).localStore n σ

/-- What is assumed of the environment while INTERIMs are counted. -/
def CountingOk (σ : RegSys κ) (a : κ × Env) : Prop :=
  StoresOk σ.shared.issued a.2 ∧ a.2.answer.rc ≠ 5002

variable {n b : UInt32} {σ : RegSys κ} {a : κ × Env}

omit [DecidableEq κ] in
theorem Tally.counting_step (h : Tally site n σ) (hok : CountingOk σ a) {pc' : Pc} {R' : Regs}
    {es : List Event} (hm : Move P (site a.1) a.2 (σ.pc a.1) σ.shared pc' R' es) : pc'.Counting := by
  obtain ⟨v, hv, hlive, -⟩ := h.localCounts a.1
  exact hm.counting (h.counting a.1) (h.sane.held a.1) ⟨v, hv, hlive⟩ hok.2

/-- **Every store keeps count.** -/
theorem CountsFrom.step (h : Tally site n σ) (hok : CountingOk σ a) {s : StoreId}
    (hs : s ∈ (site a.1).stores) (hc : CountsFrom s b σ) :
    CountsFrom s b (regSysStep P site a σ) := by
  obtain ⟨pc', R', es, hm, heq⟩ := regSysStep_cases P site a hok.1.1 σ
  rw [heq]
  obtain ⟨v, hv, hlive, hnum⟩ := hc
  obtain ⟨v', hv', hrefresh, hnum'⟩ := hm.countsOn (h.counting a.1) (h.sane.held a.1)
    (h.sane.inLoop a.1) hs hv hlive (h.sane.sound s) (h.counting_step hok hm)
  refine ⟨v', hv', ?_, ?_⟩
  · unfold Session.expiry at hlive ⊢
    rwa [hrefresh]
  · have ht := total_update s σ.pc σ.shared R' σ.trace (σ.trace ++ es.map (a.1, ·)) a.1 pc'
    have ht' := congrArg UInt32.ofNat ht
    rw [UInt32.ofNat_add, UInt32.ofNat_add] at ht'
    rw [hnum, UInt32.add_assoc] at hnum'
    have hsum : v'.acctRecordNumber + UInt32.ofNat ((σ.pc a.1).counted s) =
        b + UInt32.ofNat (total s ⟨Function.update σ.pc a.1 pc', R', σ.trace ++ es.map (a.1, ·)⟩) +
          UInt32.ofNat ((σ.pc a.1).counted s) := by
      rw [UInt32.add_assoc, ht']
      exact hnum'
    exact (UInt32.add_left_inj _).mp hsum

theorem Tally.step (hsites : ∀ i j, ∀ s ∈ (site i).stores, s ∈ (site j).stores)
    (h : Tally site n σ) (hok : CountingOk σ a) : Tally site n (regSysStep P site a σ) where
  sane := h.sane.step hok.1
  counting := by
    obtain ⟨pc', R', es, hm, heq⟩ := regSysStep_cases P site a hok.1.1 σ
    rw [heq]
    exact (Function.forall_update_iff σ.pc fun _ pc => pc.Counting).mpr
      ⟨h.counting_step hok hm, fun i _ => h.counting i⟩
  localCounts := fun i =>
    (h.localCounts i).step h hok (hsites i a.1 _ List.mem_cons_self)

/-- Who finds a store without the session puts it back. -/
theorem Absent.step (h : Tally site n σ) (hok : CountingOk σ a) {s : StoreId}
    (hs : s ∈ (site a.1).stores) (hc : Absent s σ) :
    ((∀ sess, ¬ (σ.pc a.1).Reseeds s sess) ∧ Absent s (regSysStep P site a σ)) ∨
      ∃ sess, (σ.pc a.1).Reseeds s sess ∧
        CountsFrom s (sess.acctRecordNumber - 1) (regSysStep P site a σ) := by
  obtain ⟨pc', R', es, hm, heq⟩ := regSysStep_cases P site a hok.1.1 σ
  rw [heq]
  have hne : s ≠ (site a.1).localStore := by
    rintro rfl
    obtain ⟨v, hv, -⟩ := h.localCounts a.1
    rw [hc.1] at hv
    cases hv
  obtain ⟨hno, hcell, hcount⟩ | ⟨sess, hre, hcount, v, hv, hrefresh, hnum⟩ :=
    hm.absent (h.counting a.1) (h.sane.held a.1) (h.sane.inLoop a.1) hc.1 (hc.2 a.1) hne hs
      (h.counting_step hok hm)
  · refine .inl ⟨hno, hcell, ?_⟩
    exact (Function.forall_update_iff σ.pc fun _ pc => pc.counted s = 0).mpr
      ⟨hcount, fun i _ => hc.2 i⟩
  · refine .inr ⟨sess, hre, v, hv, ?_, ?_⟩
    · obtain ⟨msg, rest, remoteSess, hpc⟩ := hre
      have hcounting := h.counting a.1
      rw [hpc] at hcounting
      unfold Session.expiry
      rw [hrefresh]
      exact hcounting.2
    · have ht := total_update s σ.pc σ.shared R' σ.trace (σ.trace ++ es.map (a.1, ·)) a.1 pc'
      have hzero : total s (⟨σ.pc, σ.shared, σ.trace⟩ : RegSys κ) = 0 :=
        Finset.sum_eq_zero fun i _ => hc.2 i
      rw [hzero, hcount, hc.2 a.1] at ht
      rw [show total s _ = 1 by omega, hnum]
      exact (UInt32.sub_add_cancel _ _).symm

/-! ## The numbers on the ACRs -/

theorem le_total_step (h : Tally site n σ) (hok : CountingOk σ a) (s : StoreId) :
    total s σ ≤ total s (regSysStep P site a σ) := by
  obtain ⟨pc', R', es, hm, heq⟩ := regSysStep_cases P site a hok.1.1 σ
  rw [heq]
  have ht := total_update s σ.pc σ.shared R' σ.trace (σ.trace ++ es.map (a.1, ·)) a.1 pc'
  have hle := hm.counted_le (h.counting a.1) s
  have heta : total s (⟨σ.pc, σ.shared, σ.trace⟩ : RegSys κ) = total s σ := rfl
  omega

/-- The numbers the threads of one site have obtained differ, and the site's own store has counted
up to all of them. -/
structure Numbered (site : κ → Site) (n : UInt32) (σ : RegSys κ) : Prop where
  bound : ∀ i m, Obtained σ i m →
    m.accountingRecordNumber.toNat ≤ n.toNat + total (site i).localStore σ
  distinct : ∀ i j m m', i ≠ j → (site i).localStore = (site j).localStore → Obtained σ i m →
    Obtained σ j m' → m.accountingRecordNumber ≠ m'.accountingRecordNumber

/-- An INTERIM obtains the next number of its site's own store. -/
theorem Tally.settles (h : Tally site n σ) (hok : CountingOk σ a)
    (hn : n.toNat + Fintype.card κ < 2 ^ 32) {m : Message}
    (hset : Settles (site a.1) σ.shared (σ.pc a.1) ((regSysStep P site a σ).pc a.1) m) :
    m.accountingRecordNumber.toNat = n.toNat + total (site a.1).localStore σ + 1 ∧
      total (site a.1).localStore (regSysStep P site a σ) =
        total (site a.1).localStore σ + 1 := by
  obtain ⟨pc', R', es, hm, heq⟩ := regSysStep_cases P site a hok.1.1 σ
  have hpc' : (regSysStep P site a σ).pc a.1 = pc' := by
    rw [heq]
    simp
  rw [hpc'] at hset
  have ht := total_update (site a.1).localStore σ.pc σ.shared R' σ.trace
    (σ.trace ++ es.map (a.1, ·)) a.1 pc'
  have heta : total (site a.1).localStore (⟨σ.pc, σ.shared, σ.trace⟩ : RegSys κ) =
    total (site a.1).localStore σ := rfl
  have hcard := total_le_card (site a.1).localStore
    (⟨Function.update σ.pc a.1 pc', R', σ.trace ++ es.map (a.1, ·)⟩ : RegSys κ)
  have hcounting := h.counting a.1
  have hheld := h.sane.held a.1
  obtain ⟨v, hv, -, hnum⟩ := h.localCounts a.1
  rw [heq]
  generalize σ.pc a.1 = pc at hset ht hcounting hheld
  cases hset with
  | interim hver =>
    obtain ⟨-, rfl⟩ := hcounting
    obtain ⟨held, htr, rfl⟩ := hheld
    have hcell := htr.cell_of_version hver
    rw [hv] at hcell
    cases hcell
    have hnot : (site a.1).localStore ∉ (site a.1).remoteStores :=
      (List.nodup_cons.mp (site a.1).nodup).1
    have hone : (Pc.readRemotes ‹Message› v.incremented (site a.1).remoteStores).counted
        (site a.1).localStore = 1 := by simp [Pc.counted, hnot]
    rw [hone, show (Pc.updateLocal _ _ false).counted _ = 0 from rfl] at ht
    have hval : (n + UInt32.ofNat (total (site a.1).localStore σ) + 1).toNat =
        n.toNat + total (site a.1).localStore σ + 1 := by
      rw [UInt32.toNat_add, UInt32.toNat_add, UInt32.toNat_ofNat']
      simp only [UInt32.reduceToNat]
      omega
    refine ⟨?_, by omega⟩
    show (v.acctRecordNumber + 1).toNat = _
    rw [hnum, hval]
  | stop => exact hcounting.elim
  | first hi => exact absurd hcounting hi

theorem Numbered.step (hn : n.toNat + Fintype.card κ < 2 ^ 32) (h : Tally site n σ) (hnum : Numbered site n σ)
    (hok : CountingOk σ a) : Numbered site n (regSysStep P site a σ) := by
  have hle := le_total_step (P := P) h hok
  constructor
  · intro i m hm
    rcases obtained_step hok.1.1 hm with hold | ⟨rfl, hset⟩
    · exact (hnum.bound i m hold).trans (Nat.add_le_add_left (hle _) _)
    · obtain ⟨hval, htot⟩ := h.settles hok hn hset
      omega
  · intro i j m m' hij hl hm hm'
    rcases obtained_step hok.1.1 hm with hold | ⟨rfl, hset⟩ <;>
      rcases obtained_step hok.1.1 hm' with hold' | ⟨rfl, hset'⟩
    · exact hnum.distinct i j m m' hij hl hold hold'
    · obtain ⟨hval, -⟩ := h.settles hok hn hset'
      have hb := hnum.bound i m hold
      rw [hl] at hb
      intro heq
      rw [heq] at hb
      omega
    · obtain ⟨hval, -⟩ := h.settles hok hn hset
      have hb := hnum.bound j m' hold'
      rw [← hl] at hb
      intro heq
      rw [← heq] at hb
      omega
    · exact absurd rfl hij

/-! ## Runs -/

/-- What is assumed of a run while INTERIMs are counted. -/
def InterimOk (σ : Sys κ) (a : κ × Env) : Prop :=
  StoresOk (World.issued σ.shared) a.2 ∧ a.2.answer.rc ≠ 5002

/-- The store shows a live session with number `n`. -/
def LiveAt (P : Platform) (key : Bytes) (n : UInt32) (st : Store) : Prop :=
  ∃ v, view P st key = some v ∧ v.acctRecordNumber = n ∧ v.Live

variable {key : Bytes} {msg : κ → Message} {W : World} {as : List (κ × Env)}

omit [DecidableEq κ] in
theorem total_start (s : StoreId) : total s ((Sys.start msg W).map (regs P key)) = 0 :=
  Finset.sum_eq_zero fun _ _ => rfl

omit [DecidableEq κ] in
theorem LiveAt.countsFrom {s : StoreId} (h : LiveAt P key n (W s)) :
    CountsFrom s n ((Sys.start msg W).map (regs P key)) := by
  obtain ⟨v, hv, hnum, hlive⟩ := h
  refine ⟨v, hv, hlive.expiry_pos, ?_⟩
  rw [total_start, hnum]
  exact (UInt32.add_zero n).symm

omit [DecidableEq κ] in
theorem tally_start (hmsg : ∀ i, (msg i).recordType = .interim) (hW : StoresReady P key W)
    (hlocal : ∀ i, LiveAt P key n (W (site i).localStore)) :
    Tally site n ((Sys.start msg W).map (regs P key)) where
  sane := sane_start hW
  counting := hmsg
  localCounts := fun i => (hlocal i).countsFrom

omit [Fintype κ] in
/-- The run over registers meets the same assumptions. -/
theorem along_countingOk (hkey : ∀ i, (msg i).key = key) (hW : StoresReady P key W)
    (hrun : Along (sysStep P site) InterimOk as (Sys.start msg W)) :
    Along (regSysStep P site) CountingOk as ((Sys.start msg W).map (regs P key)) :=
  regs_sysAlong (keyed_start hkey hW) (fun _ _ _ h => h) hrun

omit [DecidableEq κ] in
theorem total_done (hdone : ∀ i, σ.pc i = .done) (s : StoreId) : total s σ = Fintype.card κ := by
  unfold total
  simp only [hdone]
  simp [Pc.counted]

/-- **No lost increments.** INTERIMs are handled at any of the sites that share the stores `S`, all
of which hold the session with number `n`. However the calls of their handlers interleave, once all
have completed every store holds the number `n` plus that of the INTERIMs, and the numbers sent
from one site differ. -/
theorem interims_counted {S : Finset StoreId} (hS : ∀ i s, s ∈ (site i).stores ↔ s ∈ S)
    (hmsg : ∀ i, (msg i).recordType = .interim ∧ (msg i).key = key) (hW : StoresReady P key W)
    (hheld : ∀ s ∈ S, LiveAt P key n (W s))
    (hrun : Along (sysStep P site) InterimOk as (Sys.start msg W)) :
    let σ := exec (sysStep P site) as (Sys.start msg W)
    ((∀ i, σ.pc i = .done) → ∀ s ∈ S, ∃ v, view P (σ.shared s) key = some v ∧
      v.acctRecordNumber = n + UInt32.ofNat (Fintype.card κ)) ∧
    (n.toNat + Fintype.card κ < 2 ^ 32 → σ.trace.Pairwise fun e e' =>
      ∀ m m', e.2.sent = some m → e'.2.sent = some m' →
        (site e.1).localStore = (site e'.1).localStore →
        m.1.accountingRecordNumber ≠ m'.1.accountingRecordNumber) := by
  intro σ
  have hsites : ∀ i j, ∀ s ∈ (site i).stores, s ∈ (site j).stores := fun i j s hs =>
    (hS j s).mpr ((hS i s).mp hs)
  have hkeyed : Keyed P key (Sys.start msg W) := keyed_start (fun i => (hmsg i).2) hW
  have hregs : σ.map (regs P key) = _ := regs_sysExec hkeyed site as
  have hok := along_countingOk (fun i => (hmsg i).2) hW hrun
  have hstart : Tally site n ((Sys.start msg W).map (regs P key)) :=
    tally_start (fun i => (hmsg i).1) hW fun i => hheld _ ((hS i _).mp List.mem_cons_self)
  constructor
  · intro hdone s hs
    have hend : Tally site n (σ.map (regs P key)) ∧ CountsFrom s n (σ.map (regs P key)) := by
      rw [hregs]
      refine Along.invariant (I := fun τ => Tally site n τ ∧ CountsFrom s n τ) ?_ hok
        ⟨hstart, (hheld s hs).countsFrom⟩
      exact fun τ a h ha => ⟨h.1.step hsites ha, h.2.step h.1 ha ((hS a.1 s).mpr hs)⟩
    obtain ⟨v, hv, -, hnum⟩ := hend.2
    rw [total_done (σ := σ.map (regs P key)) hdone] at hnum
    exact ⟨v, hv, hnum⟩
  · intro hn
    have hend : SendsOnce (σ.map (regs P key)) ∧ Numbered site n (σ.map (regs P key)) := by
      rw [hregs]
      have h := Along.invariant
        (I := fun τ => Tally site n τ ∧ SendsOnce τ ∧ Numbered site n τ) ?_ hok
        ⟨hstart, sendsOnce_start, fun i m hm => absurd hm not_obtained_start,
          fun i j m m' _ _ hm => absurd hm not_obtained_start⟩
      · exact h.2
      · exact fun τ a h ha => ⟨h.1.step hsites ha, h.2.1.step ha.1.1, h.2.2.step hn h.1 ha⟩
    refine pairwise_sent (Q := fun i j m m' => (site i).localStore = (site j).localStore →
      m.1.accountingRecordNumber ≠ m'.1.accountingRecordNumber) hend.1.once ?_
    intro i j m m' hij hm hm' hl
    exact hend.2.distinct i j m.1 m'.1 hij hl (.inl ⟨m.2, hm⟩) (.inl ⟨m'.2, hm'⟩)

end Systems

/-! ### Two sites, one INTERIM at each -/

/-- Two sites, each with the other's store as its remote store. -/
def twoSites (i : Bool) : Site :=
  match i with
  | false => localAndRemote
  | true => ⟨1, [0], by decide⟩

/-- The first handler's write to the second one's store comes between the second one's read and
its write, which has to be tried again. -/
def twoSitesRun : List (Bool × Env) :=
  schedule 1 ([false, true, false, false, false, true, true, true, true, true, true, true, true,
    true, false, false, false, false].map fun i => (i, .answering 2001))

theorem liveAt_holding {n : UInt32} {s : StoreId} {on : StoreId → Bool} (h : on s = true) :
    LiveAt compactPlatform sampleKey n
      (World.holding compactPlatform sampleKey (sampleSession n) on s) := by
  have hreg := congrFun (regs_holding compactPlatform sampleKey (sampleSession n) on) s
  unfold Regs.holding at hreg
  rw [if_pos h] at hreg
  exact ⟨_, congrArg Register.cell hreg, rfl, show 1 ≤ (300 : UInt32).toNat by decide,
    show (300 : UInt32).toNat < 2 ^ 30 by decide⟩

/-- A schedule whose answers are not 5002. -/
theorem interimOk_schedule {κ : Type} [DecidableEq κ] {P : Platform} {site : κ → Site}
    {msg : κ → Message} {key : Bytes} {sess : Session} {on : StoreId → Bool} (is : List κ)
    (x : Input) (hx : x.answer.rc ≠ 5002) :
    Along (sysStep P site) InterimOk (schedule 1 (is.map fun i => (i, x)))
      (Sys.start msg (World.holding P key sess on)) := by
  refine Along.mono ?_ (along_schedule (fun y => y.answer.rc ≠ 5002) ?_ ?_)
  · rintro τ a ⟨hok, y, hy, cas, ha⟩
    refine ⟨hok, ?_⟩
    rw [ha]
    exact hy
  · intro y hy
    obtain ⟨i, -, rfl⟩ := List.mem_map.mp hy
    exact hx
  · intro s y hy
    exact issued_holding hy

set_option maxRecDepth 4000 in
/-- Both INTERIMs are counted in both stores. -/
theorem interims_counted_twoSites :
    let σ := exec (sysStep compactPlatform twoSites) twoSitesRun (Sys.start
      (fun _ => sampleMessage .interim)
      (World.holding compactPlatform sampleKey (sampleSession 1) fun s => s < 2))
    (∀ i, σ.pc i = .done) ∧ ∀ s ∈ ({0, 1} : Finset StoreId), ∃ v,
      view compactPlatform (σ.shared s) sampleKey = some v ∧ v.acctRecordNumber = 3 := by
  intro σ
  have hmsg : ∀ _ : Bool, (sampleMessage .interim).recordType = .interim ∧
      (sampleMessage .interim).key = sampleKey := fun _ => ⟨rfl, rfl⟩
  have hregs := regs_sysExec_holding compactPlatform (fun i => (hmsg i).2) (sampleSession 1)
    (fun s => s < 2) twoSites twoSitesRun
  have hdone : ∀ i, σ.pc i = .done := by
    intro i
    refine (congrFun (congrArg Pool.pc hregs) i).trans ?_
    cases i <;> rfl
  refine ⟨hdone, (interims_counted (S := {0, 1}) (n := 1) ?_ hmsg (storesReady_holding _ _ _ _) ?_
    (interimOk_schedule _ (.answering 2001) (show (2001 : Int32) ≠ 5002 by decide))).1 hdone⟩
  · intro i s
    cases i <;> simp [twoSites, localAndRemote, Site.stores, or_comm]
  · intro s hs
    refine liveAt_holding ?_
    rcases Finset.mem_insert.mp hs with rfl | hs
    · rfl
    · rw [Finset.mem_singleton.mp hs]
      rfl

end Ralf
