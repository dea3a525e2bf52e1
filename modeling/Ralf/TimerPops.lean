import Ralf.Chronos
import Ralf.Moves
import Ralf.Tasks

/-!
# Timer pops

INTERIMs that Chronos triggers must not keep a session's timer alive. `timer_pops` follows any
number of them, of any keys, over stores in any state: none of them ever talks to Chronos, and what
is written over a record is a copy of that very record, with another number. The records need not be
readable here, so the registers of this module hold the records themselves (`recordReg`).
-/

namespace Ralf

open Bytes Versioned Runs

/-- What a session's timer depends on. -/
def Session.timing (sess : Session) : Bytes × UInt32 × UInt32 :=
  (sess.timerId, sess.sessionRefreshTime, sess.interimInterval)

/-- An INTERIM that Chronos has triggered. -/
def Message.Pop (msg : Message) : Prop := msg.recordType = .interim ∧ msg.timerInterim = true

/-! ## Records as registers -/

def Record.version (r : Record) : ℕ := r.cas

/-- The record under a key, whether it can be read or not. -/
def recordReg (key : Bytes) (st : Store) : Register Record := ⟨st.record key, st.issued⟩

section Records

variable {P : Platform} {key : Bytes} {st : Store} {env : Env} {W : World}

theorem sound_recordReg (hW : CasIssued W) (key : Bytes) (s : StoreId) :
    (recordReg key (W s)).Sound Record.version :=
  fun r hr => ⟨hW s key r hr, r.cas.ne_zero⟩

theorem recordReg_put (e : StoreEnv) (data : Bytes) (expiry : Int32) :
    recordReg key (st.put e key data expiry) =
      (recordReg key st).put e.cas (if 0 < expiry then some ⟨data, e.cas⟩ else none) := by
  simp [recordReg, Store.put, Register.put]

/-- A write under one key, seen under any. -/
theorem recordReg_setData {e : StoreEnv} (hfresh : (e.cas : ℕ) ∉ st.issued) (key' data : Bytes)
    (cas : ℕ) (expiry : Int32) :
    (recordReg key st).Evolves Record.version
        (recordReg key (st.setData e key' data cas expiry).2) ∨
      (recordReg key (st.setData e key' data cas expiry).2).cell = (recordReg key st).cell ∧
        (recordReg key st).issued ⊆ (recordReg key (st.setData e key' data cas expiry).2).issued := by
  rcases st.setData_cases e key' data cas expiry with heq | heq
  · rw [heq]
    exact .inl .same
  · rw [heq]
    by_cases hkey : key = key'
    · subst hkey
      rw [recordReg_put]
      refine .inl (.put hfresh e.cas.ne_zero fun r hr => ?_)
      split_ifs at hr
      cases hr
      rfl
    · refine .inr ⟨?_, List.subset_cons_self _ _⟩
      simp [recordReg, Store.put, hkey]

theorem recordReg_deleteData (e : StoreEnv) (key' : Bytes) :
    (recordReg key st).Evolves Record.version (recordReg key (st.deleteData e key').2) := by
  unfold Store.deleteData
  split_ifs
  · exact .same
  · by_cases hkey : key = key'
    · subst hkey
      have heq : recordReg key { st with record := Function.update st.record key none } =
          (recordReg key st).erase := by
        simp [recordReg, Register.erase]
      rw [heq]
      exact .erase
    · have heq : recordReg key { st with record := Function.update st.record key' none } =
          recordReg key st := by
        simp [recordReg, hkey]
      rw [heq]
      exact .same

variable (P key) in
/-- A call changes a record as a register changes, or only gives out versions. -/
theorem recordReg_perform (hfresh : FreshCas W.issued env) (a : Action) (s : StoreId) :
    (recordReg key (W s)).Evolves Record.version (recordReg key ((perform P env W a).2.1 s)) ∨
      (recordReg key ((perform P env W a).2.1 s)).cell = (recordReg key (W s)).cell ∧
        (recordReg key (W s)).issued ⊆ (recordReg key ((perform P env W a).2.1 s)).issued := by
  rcases stores_perform (P := P) env W a with heq | ⟨t, key', data, cas, expiry, heq⟩ |
    ⟨t, key', heq⟩
  · rw [heq]
    exact .inl .same
  · rw [heq]
    by_cases hs : s = t
    · subst hs
      rw [Function.update_self]
      exact recordReg_setData (hfresh s) key' data cas expiry
    · rw [Function.update_of_ne hs]
      exact .inl .same
  · rw [heq]
    by_cases hs : s = t
    · subst hs
      rw [Function.update_self]
      exact .inl (recordReg_deleteData _ key')
    · rw [Function.update_of_ne hs]
      exact .inl .same

theorem casIssued_step (hW : CasIssued W) (hfresh : FreshCas W.issued env) (site : Site) (pc : Pc) :
    CasIssued (step P site env pc W).2.1 := by
  intro s key r hr
  rcases recordReg_perform P key hfresh (next P site pc) s with hev | ⟨hcell, hsub⟩
  · exact (((sound_recordReg hW key s).evolves hev) r hr).1
  · exact (((sound_recordReg hW key s).mono hcell hsub) r hr).1

end Records

/-! ## Copies -/

/-- A copy of a record that was read, up to the number: as long as the record is there, it has the
same timing. -/
def CopyOf (P : Platform) (key : Bytes) (st : Store) (sess : Session) : Prop :=
  ∃ r d, (recordReg key st).Tracks Record.version r ∧ deserializeSession P r.data = .ok (some d) ∧
    sess.cas = r.cas ∧ sess.timing = d.timing

section Copies

variable {P : Platform} {key : Bytes} {st : Store} {env : Env} {W : World} {sess : Session}

theorem record_of_getSessionData {e : StoreEnv}
    (h : getSessionData P st e key = .ok (some sess)) :
    ∃ r d, st.record key = some r ∧ deserializeSession P r.data = .ok (some d) ∧
      sess = { d with cas := r.cas } := by
  unfold getSessionData Store.getData at h
  split_ifs at h
  · cases h
  · cases hrec : st.record key with
    | none =>
      rw [hrec] at h
      cases h
    | some r =>
      rw [hrec] at h
      dsimp only at h
      split_ifs at h
      · cases h
      · obtain ⟨o, hd, h⟩ := exists_of_bind_ok h
        cases o with
        | none => cases h
        | some d =>
          cases h
          exact ⟨r, d, rfl, hd, rfl⟩

theorem copyOf_read {e : StoreEnv} (hsound : (recordReg key st).Sound Record.version)
    (h : getSessionData P st e key = .ok (some sess)) (n : UInt32) :
    CopyOf P key st { sess with acctRecordNumber := n } := by
  obtain ⟨r, d, hrec, hd, rfl⟩ := record_of_getSessionData h
  exact ⟨r, d, .of_read hsound hrec, hd, rfl, rfl⟩

theorem CopyOf.step {s : StoreId} (h : CopyOf P key (W s) sess) (hfresh : FreshCas W.issued env)
    (site : Site) (pc : Pc) : CopyOf P key ((step P site env pc W).2.1 s) sess := by
  obtain ⟨r, d, ht, hd⟩ := h
  rcases recordReg_perform P key hfresh (next P site pc) s with hev | ⟨hcell, hsub⟩
  · exact ⟨r, d, ht.evolves hev, hd⟩
  · exact ⟨r, d, ht.mono hcell hsub, hd⟩

/-- No session that is in a store before and after has another timing. -/
def Steady (P : Platform) (W W' : World) : Prop :=
  ∀ s key v w, view P (W s) key = some v → view P (W' s) key = some w → w.timing = v.timing

theorem Steady.refl : Steady P W W := by
  intro s key v w hv hw
  rw [hv] at hw
  cases hw
  rfl

theorem Steady.update {s : StoreId} {st' : Store}
    (h : ∀ key v w, view P (W s) key = some v → view P st' key = some w → w.timing = v.timing) :
    Steady P W (Function.update W s st') := by
  intro t key v w hv hw
  by_cases ht : t = s
  · subst ht
    rw [Function.update_self] at hw
    exact h key v w hv hw
  · rw [Function.update_of_ne ht] at hw
    exact Steady.refl t key v w hv hw

theorem getSessionData_of_view {v : Session} (h : view P st key = some v) :
    getSessionData P st .up key = .ok (some v) := by
  unfold view at h
  split at h
  · rename_i o hget
    rw [hget, h]
  · cases h

theorem timing_stored {d : Session} {data : Bytes} {cas : ℕ}
    (hd : deserializeSession P data = .ok (some d)) (h : sess.timing = d.timing) :
    ({ sess.stored with cas := cas } : Session).timing = d.timing := by
  have hstored := congrArg Session.timing (stored_of_deserializeSession P hd)
  simp only [Session.timing, Prod.mk.injEq] at h
  obtain ⟨h1, h2, h3⟩ := h
  rw [← hstored]
  simp only [Session.timing, Session.stored, h1, h2, h3]

/-- A write to a record goes through when it names its version. -/
theorem setData_of_record {r : Record} (h : st.record key = some r) (e : StoreEnv) (data : Bytes)
    (cas : ℕ) (expiry : Int32) :
    (st.setData e key data cas expiry).2 = st ∨
      cas = r.cas ∧ (st.setData e key data cas expiry).2 = st.put e key data expiry := by
  unfold Store.setData
  rw [h]
  dsimp only
  split_ifs with hdown hcas
  · exact .inl rfl
  · exact .inr ⟨hcas, rfl⟩
  · exact .inl rfl

/-- The write of a copy, or of a new session, is steady. -/
theorem timing_setSessionData {e : StoreEnv} {newSession : Bool}
    (hcopy : newSession = false → CopyOf P key st sess) {key' : Bytes} {v w : Session}
    (hv : view P st key' = some v)
    (hw : view P (setSessionData P st e key sess newSession).2 key' = some w) :
    w.timing = v.timing := by
  have hsame : ∀ st' : Store, st'.record key' = st.record key' → view P st' key' = some w →
      w.timing = v.timing := by
    intro st' hrec hw'
    unfold view at hw'
    rw [getSessionData_of_ne hrec] at hw'
    cases hv.symm.trans hw'
    rfl
  obtain ⟨r, d, hrec, hd, rfl⟩ := record_of_getSessionData (getSessionData_of_view hv)
  unfold setSessionData at hw
  by_cases hkey : key' = key
  · subst hkey
    rcases setData_of_record hrec e (serializeSession P sess)
      (if newSession = true then 0 else sess.cas) sess.expiry with heq | ⟨hcas, heq⟩
    · rw [heq] at hw
      exact hsame st rfl hw
    · cases newSession with
      | true => exact absurd hcas.symm r.cas.ne_zero
      | false =>
        obtain ⟨r', d', ht, hd', hcas', htiming⟩ := hcopy rfl
        have hr : some r = some r' := by
          rw [← hrec]
          refine ht.cell_of_version ?_
          simp only [Register.version, recordReg, hrec, Option.elim, Record.version]
          exact hcas.symm.trans hcas'
        cases hr
        cases hd.symm.trans hd'
        rw [heq, view_put] at hw
        rw [eq_of_written hw]
        have hkept : ({ sess.stored with cas := (e.cas : ℕ) } : Session).timing = d.timing :=
          timing_stored hd htiming
        exact hkept
  · rcases record_setData_cases st e key key'
      (serializeSession P sess) (if newSession = true then 0 else sess.cas) sess.expiry with
      hrec' | ⟨heq, -⟩
    · exact hsame _ hrec' hw
    · exact absurd heq hkey

theorem timing_deleteSessionData {e : StoreEnv} {key' : Bytes} {v w : Session}
    (hv : view P st key' = some v) (hw : view P (deleteSessionData st e key).2 key' = some w) :
    w.timing = v.timing := by
  have hold := getSessionData_deleteSessionData (getSessionData_of_view hw)
  cases (getSessionData_of_view hv).symm.trans hold
  rfl

end Copies

/-! ## Threads -/

/-- Where a timer-triggered INTERIM can be; what it is about to write back is a copy. -/
def Pc.Pops (P : Platform) (site : Site) (W : World) : Pc → Prop
  | .handle msg => msg.Pop
  | .tryRemotes msg _ => msg.Pop
  | .updateLocal msg sess newSession =>
    msg.Pop ∧ (newSession = false → CopyOf P msg.key (W site.localStore) sess)
  | .readRemotes msg _ _ => msg.Pop
  | .updateRemote msg _ s _ remoteSess newSession =>
    msg.Pop ∧ (newSession = false → CopyOf P msg.key (W s) remoteSess)
  | .send msg => msg.Pop
  | .awaitAnswer msg => msg.Pop
  | .deleteUnknown _ _ => True
  | .finish _ => True
  | .done => True
  | .aborted => True
  | _ => False

section Threads

variable {P : Platform} {site : Site} {env : Env} {W : World} {pc : Pc} {msg : Message}

/-- Other threads' steps leave a thread its copy. -/
theorem Pc.Pops.other (h : pc.Pops P site W) (hfresh : FreshCas W.issued env) (site' : Site)
    (pc' : Pc) : pc.Pops P site (step P site' env pc' W).2.1 := by
  cases pc with
  | updateLocal msg sess newSession => exact ⟨h.1, fun hn => (h.2 hn).step hfresh site' pc'⟩
  | updateRemote msg sess s rest remoteSess newSession =>
    exact ⟨h.1, fun hn => (h.2 hn).step hfresh site' pc'⟩
  | _ => exact h

theorem pops_onCcfResponse (h : msg.Pop) (accepted : Bool) (interimInterval : UInt32)
    (sessionId : Bytes) (rc : Int32) :
    (onCcfResponse site accepted interimInterval sessionId rc msg).Pops P site W := by
  unfold onCcfResponse
  simp only [AccountingRecordType.isInterim_iff.mpr h.1, h.2]
  have hstart : msg.recordType.isStart = false := by
    rw [h.1]
    rfl
  split_ifs <;> first | trivial | simp_all

/-- **One step of a timer pop.** It asks nothing of Chronos and leaves the timing of every session
as it is. -/
theorem Pc.Pops.step (h : pc.Pops P site W) (hW : CasIssued W) (env : Env) :
    (Ralf.step P site env pc W).1.Pops P site (Ralf.step P site env pc W).2.1 ∧
      Steady P W (Ralf.step P site env pc W).2.1 ∧
      requests (Ralf.step P site env pc W).2.2 = [] := by
  unfold Ralf.step
  cases pc with
  | handle msg =>
    have hi : (msg.recordType.isInterim || msg.recordType.isStop) = true := by
      rw [h.1]
      rfl
    simp only [next, hi, if_true, perform]
    split
    · rename_i o hget
      refine ⟨?_, .refl, rfl⟩
      cases o with
      | none => exact h
      | some sess =>
        simp only [found, AccountingRecordType.isInterim_iff.mpr h.1, if_true]
        exact ⟨h, fun _ => copyOf_read (sound_recordReg hW _ _) hget _⟩
    · exact ⟨trivial, .refl, rfl⟩
  | tryRemotes msg rest =>
    cases rest with
    | nil => exact ⟨trivial, .refl, rfl⟩
    | cons s rest =>
      simp only [next, perform]
      split
      · rename_i o hget
        refine ⟨?_, .refl, rfl⟩
        cases o with
        | none => exact h
        | some sess =>
          simp only [found, AccountingRecordType.isInterim_iff.mpr h.1, if_true]
          exact ⟨h, fun hn => by cases hn⟩
      · exact ⟨trivial, .refl, rfl⟩
  | updateLocal msg sess newSession =>
    refine ⟨?_, .update fun key v w hv hw => timing_setSessionData h.2 hv hw, rfl⟩
    simp only [next, perform]
    split_ifs <;> exact h.1
  | readRemotes msg sess rest =>
    cases rest with
    | nil => exact ⟨h, .refl, rfl⟩
    | cons s rest =>
      simp only [next, perform]
      split
      · rename_i o hget
        refine ⟨?_, .refl, rfl⟩
        cases o with
        | none => exact ⟨h, fun hn => by cases hn⟩
        | some remoteSess => exact ⟨h, fun _ => copyOf_read (sound_recordReg hW _ _) hget _⟩
      · exact ⟨trivial, .refl, rfl⟩
  | updateRemote msg sess s rest remoteSess newSession =>
    refine ⟨?_, .update fun key v w hv hw => timing_setSessionData h.2 hv hw, rfl⟩
    simp only [next, perform]
    split_ifs <;> exact h.1
  | send msg => exact ⟨h, .refl, rfl⟩
  | awaitAnswer msg => exact ⟨pops_onCcfResponse h _ _ _ _, .refl, rfl⟩
  | deleteUnknown msg rest =>
    cases rest with
    | nil => exact ⟨trivial, .refl, rfl⟩
    | cons s rest =>
      exact ⟨trivial, .update fun key v w hv hw => timing_deleteSessionData hv hw, rfl⟩
  | finish accepted =>
    cases accepted
    · exact ⟨trivial, .refl, rfl⟩
    · exact ⟨trivial, .refl, rfl⟩
  | done => exact ⟨trivial, .refl, rfl⟩
  | aborted => exact ⟨trivial, .refl, rfl⟩
  | _ => exact h.elim

end Threads

/-! ## Runs -/

section Runs

variable {P : Platform} {κ : Type} [DecidableEq κ] {site : κ → Site}

/-- All tasks are timer pops, and nothing was asked of Chronos. -/
structure PopTasks (P : Platform) (site : κ → Site) (σ : Tasks κ) : Prop where
  issued : CasIssued σ.shared
  pops : ∀ i, (σ.pc i).pc.Pops P (site i) σ.shared
  quiet : ∀ i req, (i, TaskEvent.manager (.timer req)) ∉ σ.trace

/-- One step of a task. -/
theorem Task.pops_step {site : Site} {t : Task} {W : World} (ht : t.pc.Pops P site W)
    (hW : CasIssued W) (x : TaskEnv) (hfresh : FreshCas W.issued x.env) :
    CasIssued (taskStep P site x t W).2.1 ∧
      (taskStep P site x t W).1.pc.Pops P site (taskStep P site x t W).2.1 ∧
      (∀ (site' : Site) (pc : Pc), pc.Pops P site' W →
        pc.Pops P site' (taskStep P site x t W).2.1) ∧
      Steady P W (taskStep P site x t W).2.1 ∧
      ∀ req, TaskEvent.manager (.timer req) ∉ (taskStep P site x t W).2.2 := by
  have hevent : ∀ req, TaskEvent.manager (.timer req) ∈ (taskStep P site x t W).2.2 →
      Event.timer req ∈ (taskStep P site x t W).2.2.filterMap TaskEvent.event :=
    fun req hreq => List.mem_filterMap.mpr ⟨_, hreq, rfl⟩
  rcases taskStep_cases P site x t W with ⟨ht', hW', hes⟩ | ⟨ht', hW', hes⟩ | ⟨a, hstep⟩
  · rw [ht', hW']
    refine ⟨hW, trivial, fun _ _ h => h, .refl, fun req hreq => ?_⟩
    obtain ⟨m, sid, heq⟩ := hes _ (hevent req hreq)
    cases heq
  · rw [ht', hW']
    refine ⟨hW, ht, fun _ _ h => h, .refl, fun req hreq => ?_⟩
    have hmem := hevent req hreq
    rw [hes] at hmem
    cases hmem
  · -- the answer has no part in the CAS values
    have hfresh' : FreshCas W.issued { x.env with answer := a } := hfresh
    have hpc := congrArg Prod.fst hstep
    have hshared := congrArg (fun r => r.2.1) hstep
    have hes := congrArg (fun r => r.2.2) hstep
    dsimp only at hpc hshared hes
    obtain ⟨hpops, hsteady, hquiet⟩ := ht.step hW { x.env with answer := a }
    rw [hpc, hshared]
    refine ⟨casIssued_step hW hfresh' site t.pc, hpops,
      fun site' pc h => h.other hfresh' site t.pc, hsteady, fun req hreq => ?_⟩
    have hmem := hevent req hreq
    rw [hes] at hmem
    have hreq' : req ∈ requests (Ralf.step P site { x.env with answer := a } t.pc W).2.2 :=
      mem_requests.mpr hmem
    rw [hquiet] at hreq'
    cases hreq'

theorem PopTasks.step {σ : Tasks κ} (h : PopTasks P site σ) {a : κ × TaskEnv}
    (hfresh : FreshCas (World.issued σ.shared) a.2.env) :
    PopTasks P site (tasksStep P site a σ) ∧ Steady P σ.shared (tasksStep P site a σ).shared := by
  obtain ⟨hissued, hpops, hother, hsteady, hquiet⟩ :=
    Task.pops_step (h.pops a.1) h.issued a.2 hfresh
  refine ⟨⟨hissued, ?_, ?_⟩, hsteady⟩
  · exact (Function.forall_update_iff σ.pc fun i t =>
      t.pc.Pops P (site i) (tasksStep P site a σ).shared).mpr
      ⟨hpops, fun i _ => hother (site i) _ (h.pops i)⟩
  · intro i req hmem
    rcases List.mem_append.mp hmem with hold | hnew
    · exact h.quiet i req hold
    · obtain ⟨e, he, heq⟩ := List.mem_map.mp hnew
      cases heq
      exact hquiet req he

/-- **Timer pops.** From stores in any state, any number of timer-triggered INTERIMs of any keys,
interleaved in any way, with any CCFs, failovers and answers: Chronos gets no request, and no step
changes the timer id, the refresh time or the interim interval of a session that is in a store. -/
theorem timer_pops {msg : κ → Message}
    (hmsg : ∀ i, (msg i).recordType = .interim ∧ (msg i).timerInterim = true) {W : World}
    (hW : CasIssued W) {as : List (κ × TaskEnv)}
    (hrun : Along (tasksStep P site) (fun σ a => FreshCas (World.issued σ.shared) a.2.env) as
      (Tasks.start msg W)) :
    (∀ i req, (i, TaskEvent.manager (.timer req)) ∉
      (exec (tasksStep P site) as (Tasks.start msg W)).trace) ∧
    Along (tasksStep P site) (fun σ a => ∀ s key v w, view P (σ.shared s) key = some v →
      view P ((tasksStep P site a σ).shared s) key = some w →
        w.timerId = v.timerId ∧ w.sessionRefreshTime = v.sessionRefreshTime ∧
          w.interimInterval = v.interimInterval) as (Tasks.start msg W) := by
  have hstart : PopTasks P site (Tasks.start msg W) := by
    refine ⟨hW, fun i => hmsg i, ?_⟩
    intro i req hmem
    cases hmem
  refine ⟨?_, ?_⟩
  · exact (Along.invariant (fun σ a h ha => (h.step ha).1) hrun hstart).quiet
  · refine Along.mono ?_ (Along.strengthen (fun σ a h ha => (h.step ha).1) hrun hstart)
    rintro σ a ⟨hfresh, hσ⟩ s key v w hv hw
    have htiming := (hσ.step hfresh).2 s key v w hv hw
    simpa only [Session.timing, Prod.mk.injEq] using htiming

theorem issued_taskStep {site : Site} {x : TaskEnv} {t : Task} {W : World} {s : StoreId} {n : ℕ}
    (h : n ∈ ((taskStep P site x t W).2.1 s).issued) :
    n = (x.env.store s).cas ∨ n ∈ (W s).issued := by
  rcases taskStep_cases P site x t W with ⟨-, hW, -⟩ | ⟨-, hW, -⟩ | ⟨a, hstep⟩
  · rw [hW] at h
    exact .inr h
  · rw [hW] at h
    exact .inr h
  · have hshared := congrArg (fun r => r.2.1) hstep
    dsimp only at hshared
    rw [hshared] at h
    have hissued := issued_perform h
    exact hissued

end Runs

/-! ### A timer pop -/

/-- One task, whose sender gets these outcomes; the CAS values are those from `c` on. -/
def popRun (c : ℕ) : List Outcome → List (Unit × TaskEnv)
  | [] => []
  | o :: os => ((), ⟨(Input.answering 2001).env c.succPNat, o⟩) :: popRun (c + 1) os

theorem fresh_popRun {P : Platform} {site : Unit → Site} (os : List Outcome) {c : ℕ}
    {σ : Tasks Unit} (h : ∀ s, ∀ x ∈ (σ.shared s).issued, x ≤ c) :
    Along (tasksStep P site) (fun σ a => FreshCas (World.issued σ.shared) a.2.env) (popRun c os)
      σ := by
  induction os generalizing c σ with
  | nil => trivial
  | cons o os ih =>
    refine ⟨fun s hs => ?_, ih fun s x hx => ?_⟩
    · have hle : c + 1 ≤ c := h s _ hs
      omega
    · rcases issued_taskStep hx with rfl | hx
      · exact le_refl (c + 1)
      · exact (h s x hx).trans (Nat.le_succ c)

/-- A pop for a session with a timer, which is in both stores. -/
def poppedTasks : Tasks Unit :=
  Tasks.start (fun _ => { sampleMessage .interim with timerInterim := true })
    (World.holding compactPlatform sampleKey { sampleSession 1 with timerId := ascii "t" }
      fun s => s < 2)

theorem timer_pops_timeout :
    Along (tasksStep compactPlatform fun _ => localAndRemote)
      (fun σ a => FreshCas (World.issued σ.shared) a.2.env) (popRun 1 (List.replicate 8 .timeout))
      poppedTasks ∧
    ∀ req, ((), TaskEvent.manager (.timer req)) ∉
      (exec (tasksStep compactPlatform fun _ => localAndRemote)
        (popRun 1 (List.replicate 8 .timeout)) poppedTasks).trace := by
  have hrun : Along (tasksStep compactPlatform fun _ => localAndRemote)
      (fun σ a => FreshCas (World.issued σ.shared) a.2.env) (popRun 1 (List.replicate 8 .timeout))
      poppedTasks := fresh_popRun _ fun s x hx => issued_holding hx
  refine ⟨hrun, ?_⟩
  exact (timer_pops (fun _ => ⟨rfl, rfl⟩)
    (storesReady_holding compactPlatform sampleKey _ _).issued hrun).1 ()

end Ralf
