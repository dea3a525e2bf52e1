import Ralf.Isolation
import Ralf.Progress
import Ralf.TimerPops

/-!
# What becomes of a record

Many messages write to a record: INTERIMs count in it, answers change its timer, and another START of
the call tries to put its own session there. `records_continue` says what all this comes to. From
stores in any state, with any messages of any calls, outages, losses and answers: from one step to the
next a session in a store stays as it is, or its number is increased by one, or it gets another timer
id. So as long as the record is there, it is that of the session it was made for.

The argument is that of `TimerPops`, for all messages: whatever is written over a record is made from
a copy of that very record, since the write names its version (`Copy`).
-/

namespace Ralf

open Bytes Versioned Runs

/-! ## One step of a session -/

/-- The session that may come after `v` in a store, CAS values aside. -/
inductive Session.Next (v w : Session) : Prop where
  | same : w.content = v.content → Next v w
  | counted : w.content = v.content.incremented → Next v w
  | retimed {timerId : Bytes} : w.content = { v.content with timerId := timerId } → Next v w

/-- What a session has from its START. -/
def Session.lineage (sess : Session) : Bytes × List Bytes × UInt32 × UInt32 :=
  (sess.sessionId, sess.ccf, sess.sessionRefreshTime, sess.interimInterval)

section Sessions

variable {u v w : Session}

theorem lineage_content (sess : Session) : sess.content.lineage = sess.lineage := rfl

theorem number_content (sess : Session) : sess.content.acctRecordNumber = sess.acctRecordNumber := rfl

theorem Session.Next.lineage (h : v.Next w) : w.lineage = v.lineage := by
  rcases h with h | h | h
  all_goals
    rw [← lineage_content w, h]
    rfl

theorem Session.Next.number (h : v.Next w) :
    w.acctRecordNumber = v.acctRecordNumber ∨ w.acctRecordNumber = v.acctRecordNumber + 1 := by
  rw [← number_content w]
  rcases h with h | h | h
  · rw [h]
    exact .inl rfl
  · rw [h]
    exact .inr rfl
  · rw [h]
    exact .inl rfl

theorem Session.Next.refl (v : Session) : v.Next v := .same rfl

theorem Session.Next.of_content (h : v.Next w) (hu : u.content = v.content) : u.Next w := by
  rcases h with h | h | h
  · exact .same (by rw [h, hu])
  · exact .counted (by rw [h, hu])
  · exact .retimed (by rw [h, hu])

/-- What a store makes of the next session is a next session of what it holds. -/
theorem Session.Next.stored (h : v.Next w) (hv : v.stored = v) (cas : ℕ) :
    v.Next { w.stored with cas := cas } := by
  have hcontent : ({ w.stored with cas := cas } : Session).content = w.content.stored := rfl
  have hv' : v.content.stored = v.content := congrArg Session.content hv
  rcases h with h | h | @⟨timerId, h⟩
  · refine .same ?_
    rw [hcontent, h, hv']
  · refine .counted ?_
    rw [hcontent, h]
    exact congrArg Session.incremented hv'
  · refine @Session.Next.retimed v _ (cStr timerId) ?_
    rw [hcontent, h]
    exact congrArg (fun x : Session => { x with timerId := cStr timerId }) hv'

end Sessions

/-! ## Copies -/

/-- What is made from a copy of the record that was read: as long as this record is there, it is what
may come next. -/
def Copy (P : Platform) (key : Bytes) (st : Store) (sess : Session) : Prop :=
  ∃ r d, (recordReg key st).Tracks Record.version r ∧ deserializeSession P r.data = .ok (some d) ∧
    sess.cas = r.cas ∧ d.Next sess

section Copies

variable {P : Platform} {key : Bytes} {st st' : Store} {W : World} {env : Env} {sess : Session}

/-- What is made of the session that was read. -/
theorem copy_read {e : StoreEnv} (hsound : (recordReg key st).Sound Record.version)
    (h : getSessionData P st e key = .ok (some sess)) {w : Session} (hw : sess.Next w)
    (hcas : w.cas = sess.cas) : Copy P key st w := by
  obtain ⟨r, d, hrec, hd, rfl⟩ := record_of_getSessionData h
  exact ⟨r, d, .of_read hsound hrec, hd, hcas, hw.of_content rfl⟩

/-- The store at a later time. -/
def Store.Aged (st : Store) (key : Bytes) (st' : Store) : Prop :=
  (recordReg key st).Evolves Record.version (recordReg key st') ∨
    (recordReg key st').cell = (recordReg key st).cell ∧
      (recordReg key st).issued ⊆ (recordReg key st').issued

theorem Copy.aged (h : Copy P key st sess) (hst : st.Aged key st') : Copy P key st' sess := by
  obtain ⟨r, d, ht, hd⟩ := h
  rcases hst with hev | ⟨hcell, hsub⟩
  · exact ⟨r, d, ht.evolves hev, hd⟩
  · exact ⟨r, d, ht.mono hcell hsub, hd⟩

theorem aged_perform (hfresh : FreshCas W.issued env) (a : Action) (s : StoreId) :
    (W s).Aged key ((perform P env W a).2.1 s) :=
  recordReg_perform P key hfresh a s

theorem aged_lose (lost : Bytes) : st.Aged key (st.lose lost) := by
  by_cases hkey : key = lost
  · subst hkey
    have heq : recordReg key (st.lose key) = (recordReg key st).erase := by
      simp [recordReg, Store.lose, Register.erase]
    refine .inl ?_
    rw [heq]
    exact .erase
  · exact .inr ⟨record_lose_of_ne st hkey, List.Subset.refl _⟩

/-- Every session that is in a store before and after has gone on as it should. -/
def Continued (P : Platform) (W W' : World) : Prop :=
  ∀ s key v w, view P (W s) key = some v → view P (W' s) key = some w → v.Next w

theorem Continued.refl (W : World) : Continued P W W := by
  intro s key v w hv hw
  cases hv.symm.trans hw
  exact .refl v

theorem Continued.update {s : StoreId}
    (h : ∀ key v w, view P (W s) key = some v → view P st' key = some w → v.Next w) :
    Continued P W (Function.update W s st') := by
  intro t key v w hv hw
  by_cases ht : t = s
  · subst ht
    rw [Function.update_self] at hw
    exact h key v w hv hw
  · rw [Function.update_of_ne ht] at hw
    exact Continued.refl W t key v w hv hw

theorem next_of_record {key' : Bytes} (hrec : st'.record key' = st.record key') {v w : Session}
    (hv : view P st key' = some v) (hw : view P st' key' = some w) : v.Next w := by
  unfold view at hw
  rw [getSessionData_of_ne hrec] at hw
  cases hv.symm.trans hw
  exact .refl v

/-- What is made from a copy, and has the version of the record, is made from that record. -/
theorem Copy.next (h : Copy P key st sess) {r : Record} {d : Session}
    (hrec : st.record key = some r) (hd : deserializeSession P r.data = .ok (some d))
    (hcas : sess.cas = r.cas) : d.Next sess := by
  obtain ⟨r', d', ht, hd', hcas', hnext⟩ := h
  have hr : some r = some r' := by
    rw [← hrec]
    refine ht.cell_of_version ?_
    simp only [Register.version, recordReg, hrec, Option.elim, Record.version]
    exact hcas.symm.trans hcas'
  cases hr
  cases hd.symm.trans hd'
  exact hnext

/-- A write under a version that was read writes what comes next; a new session is not written over
another one. -/
theorem next_setSessionData {e : StoreEnv} {newSession : Bool}
    (hcopy : newSession = false → Copy P key st sess) {key' : Bytes} {v w : Session}
    (hv : view P st key' = some v)
    (hw : view P (setSessionData P st e key sess newSession).2 key' = some w) : v.Next w := by
  by_cases hkey : key' = key
  · subst hkey
    obtain ⟨r, d, hrec, hd, rfl⟩ := record_of_getSessionData (getSessionData_of_view hv)
    unfold setSessionData at hw
    rcases setData_of_record hrec e (serializeSession P sess)
      (if newSession = true then 0 else sess.cas) sess.expiry with heq | ⟨hcas, heq⟩
    · rw [heq] at hw
      exact next_of_record rfl hv hw
    · cases newSession with
      | true => exact absurd hcas.symm r.cas.ne_zero
      | false =>
        have hnext := (hcopy rfl).next hrec hd hcas
        rw [heq, view_put] at hw
        rw [eq_of_written hw]
        exact (hnext.stored (stored_of_deserializeSession P hd) _).of_content rfl
  · exact next_of_record (record_setData hkey _ _ _) hv hw

theorem next_deleteSessionData {e : StoreEnv} {key' : Bytes} {v w : Session}
    (hv : view P st key' = some v) (hw : view P (deleteSessionData st e key).2 key' = some w) :
    v.Next w := by
  have hold := getSessionData_deleteSessionData (getSessionData_of_view hw)
  cases (getSessionData_of_view hv).symm.trans hold
  exact .refl v

theorem next_deleteSessionDataCas {e : StoreEnv} {key' : Bytes} {v w : Session}
    (hv : view P st key' = some v) (hw : view P (deleteSessionDataCas st e key sess).2 key' = some w) :
    v.Next w := by
  have hold := getSessionData_deleteSessionDataCas (getSessionData_of_view hw)
  cases (getSessionData_of_view hv).symm.trans hold
  exact .refl v

end Copies

/-! ## Threads -/

/-- What a thread is about to write under a version it has read is made from what it has read. -/
def Pc.Copies (P : Platform) (site : Site) (W : World) : Pc → Prop
  | .updateLocal msg sess newSession =>
    newSession = false → Copy P msg.key (W site.localStore) sess
  | .updateRemote msg _ s _ remoteSess newSession =>
    newSession = false → Copy P msg.key (W s) remoteSess
  | .writeTimerId msg _ s _ sess _ => Copy P msg.key (W s) sess
  | _ => True

section Threads

variable {P : Platform} {site : Site} {W W' : World} {pc : Pc} {msg : Message}

/-- What others do leaves a thread its copy. -/
theorem Pc.Copies.aged (h : pc.Copies P site W) (hW : ∀ s key, (W s).Aged key (W' s)) :
    pc.Copies P site W' := by
  cases pc with
  | updateLocal msg sess newSession => exact fun hn => (h hn).aged (hW _ _)
  | updateRemote msg sess s rest remoteSess newSession => exact fun hn => (h hn).aged (hW _ _)
  | writeTimerId msg timerId s rest sess accepted => exact Copy.aged h (hW _ _)
  | _ => trivial

theorem copies_onCcfResponse (accepted : Bool) (interimInterval : UInt32) (sessionId : Bytes)
    (rc : Int32) (msg : Message) :
    (onCcfResponse site accepted interimInterval sessionId rc msg).Copies P site W := by
  unfold onCcfResponse
  dsimp only
  split_ifs <;> trivial

/-- Found in the local store, or in another one. -/
theorem copies_found {s : StoreId} {e : StoreEnv} (hW : CasIssued W) {sess : Session}
    (hget : getSessionData P (W s) e msg.key = .ok (some sess)) {newSession : Bool}
    (hs : newSession = false → s = site.localStore) :
    (found msg sess newSession).Copies P site W := by
  unfold found
  dsimp only
  split_ifs
  · intro hn
    rw [← hs hn]
    exact copy_read (sound_recordReg hW _ _) hget (.counted rfl) rfl
  · trivial

/-- **One step of a thread.** -/
theorem Pc.Copies.step (h : pc.Copies P site W) (hW : CasIssued W) (env : Env) :
    (Ralf.step P site env pc W).1.Copies P site (Ralf.step P site env pc W).2.1 ∧
      Continued P W (Ralf.step P site env pc W).2.1 := by
  unfold Ralf.step
  cases pc with
  | handle msg =>
    simp only [next]
    split_ifs
    · simp only [perform]
      split
      · rename_i o hget
        refine ⟨?_, .refl W⟩
        cases o with
        | none => trivial
        | some sess => exact copies_found hW hget fun _ => rfl
      · exact ⟨trivial, .refl W⟩
    · exact ⟨trivial, .refl W⟩
  | tryRemotes msg rest =>
    cases rest with
    | nil => exact ⟨trivial, .refl W⟩
    | cons s rest =>
      simp only [next, perform]
      split
      · rename_i o hget
        refine ⟨?_, .refl W⟩
        cases o with
        | none => trivial
        | some sess => exact copies_found hW hget fun hn => by cases hn
      · exact ⟨trivial, .refl W⟩
  | updateLocal msg sess newSession =>
    refine ⟨?_, .update fun key v w hv hw => next_setSessionData h hv hw⟩
    simp only [next, perform]
    split_ifs <;> trivial
  | readRemotes msg sess rest =>
    cases rest with
    | nil => exact ⟨trivial, .refl W⟩
    | cons s rest =>
      simp only [next, perform]
      split
      · rename_i o hget
        refine ⟨?_, .refl W⟩
        cases o with
        | none => exact fun hn => by cases hn
        | some remoteSess =>
          exact fun _ => copy_read (sound_recordReg hW _ _) hget (.counted rfl) rfl
      · exact ⟨trivial, .refl W⟩
  | updateRemote msg sess s rest remoteSess newSession =>
    refine ⟨?_, .update fun key v w hv hw => next_setSessionData h hv hw⟩
    simp only [next, perform]
    split_ifs <;> trivial
  | deleteLocal msg sess =>
    refine ⟨?_, .update fun key v w hv hw => next_deleteSessionDataCas hv hw⟩
    simp only [next, perform]
    split_ifs <;> trivial
  | deleteRemotes msg sess rest =>
    cases rest with
    | nil =>
      simp only [next]
      split_ifs <;> exact ⟨trivial, .refl W⟩
    | cons s rest =>
      refine ⟨?_, .update fun key v w hv hw => next_deleteSessionData hv hw⟩
      simp only [next, perform]
      split_ifs <;> trivial
  | send msg => exact ⟨trivial, .refl W⟩
  | awaitAnswer msg => exact ⟨copies_onCcfResponse _ _ _ _ msg, .refl W⟩
  | deleteUnknown msg rest =>
    cases rest with
    | nil => exact ⟨trivial, .refl W⟩
    | cons s rest => exact ⟨trivial, .update fun key v w hv hw => next_deleteSessionData hv hw⟩
  | createTimer msg interimInterval sessionId => exact ⟨trivial, .refl W⟩
  | writeSession msg sess rest =>
    cases rest with
    | nil => exact ⟨trivial, .refl W⟩
    | cons s rest =>
      exact ⟨trivial, .update fun key v w hv hw => next_setSessionData (fun hn => by cases hn) hv hw⟩
  | sendChronosUpdate msg interimInterval accepted =>
    refine ⟨?_, .refl W⟩
    simp only [next, perform]
    split_ifs <;> trivial
  | readTimerId msg timerId rest accepted =>
    cases rest with
    | nil => exact ⟨trivial, .refl W⟩
    | cons s rest =>
      simp only [next, perform]
      split
      · rename_i o hget
        refine ⟨?_, .refl W⟩
        cases o with
        | none => trivial
        | some sess => exact copy_read (sound_recordReg hW _ _) hget (.retimed rfl) rfl
      · exact ⟨trivial, .refl W⟩
  | writeTimerId msg timerId s rest sess accepted =>
    exact ⟨trivial, .update fun key v w hv hw => next_setSessionData (fun _ => h) hv hw⟩
  | finish accepted => cases accepted <;> exact ⟨trivial, .refl W⟩
  | done => exact ⟨trivial, .refl W⟩
  | aborted => exact ⟨trivial, .refl W⟩

end Threads

/-! ## Runs -/

section Runs

variable {P : Platform} {κ : Type} [DecidableEq κ] {site : κ → Site} {σ : Tasks κ}

omit [DecidableEq κ] in
/-- No store gives out a CAS value again. -/
def Tasks.Fresh (σ : Tasks κ) : Happening κ → Prop
  | .move _ x => FreshCas (World.issued σ.shared) x.env
  | .lose _ _ => True

/-- Every task writes what it has made from what it has read. -/
structure CopyTasks (P : Platform) (site : κ → Site) (σ : Tasks κ) : Prop where
  issued : CasIssued σ.shared
  copies : ∀ i, (σ.pc i).pc.Copies P (site i) σ.shared

theorem CopyTasks.lose (h : CopyTasks P site σ) (s : StoreId) (lost : Bytes) :
    CopyTasks P site (happen P site (.lose s lost) σ) ∧
      Continued P σ.shared (happen P site (.lose s lost) σ).shared := by
  have haged : ∀ t key, (σ.shared t).Aged key ((happen P site (.lose s lost) σ).shared t) := by
    intro t key
    by_cases ht : t = s
    · subst ht
      simp only [happen, World.lose, Function.update_self]
      exact aged_lose lost
    · simp only [happen, World.lose, Function.update_of_ne ht]
      exact .inl .same
  refine ⟨⟨?_, fun i => (h.copies i).aged haged⟩, ?_⟩
  · intro t key r hr
    rcases haged t key with hev | ⟨hcell, hsub⟩
    · exact (((sound_recordReg h.issued key t).evolves hev) r hr).1
    · exact (((sound_recordReg h.issued key t).mono hcell hsub) r hr).1
  · refine .update fun key v w hv hw => ?_
    by_cases hkey : key = lost
    · subst hkey
      rw [view_of_none (record_lose _ key)] at hw
      cases hw
    · exact next_of_record (record_lose_of_ne _ hkey) hv hw

theorem CopyTasks.move (h : CopyTasks P site σ) (i : κ) {x : TaskEnv}
    (hfresh : FreshCas (World.issued σ.shared) x.env) :
    CopyTasks P site (happen P site (.move i x) σ) ∧
      Continued P σ.shared (happen P site (.move i x) σ).shared := by
  have hmove : CasIssued (taskStep P (site i) x (σ.pc i) σ.shared).2.1 ∧
      (taskStep P (site i) x (σ.pc i) σ.shared).1.pc.Copies P (site i)
        (taskStep P (site i) x (σ.pc i) σ.shared).2.1 ∧
      (∀ t key, (σ.shared t).Aged key ((taskStep P (site i) x (σ.pc i) σ.shared).2.1 t)) ∧
      Continued P σ.shared (taskStep P (site i) x (σ.pc i) σ.shared).2.1 := by
    rcases taskStep_cases P (site i) x (σ.pc i) σ.shared with
      ⟨ht, hW, -⟩ | ⟨ht, hW, -⟩ | ⟨a, hstep⟩
    · rw [ht, hW]
      exact ⟨h.issued, trivial, fun _ _ => .inl .same, .refl _⟩
    · rw [ht, hW]
      exact ⟨h.issued, h.copies i, fun _ _ => .inl .same, .refl _⟩
    · -- the answer has no part in the CAS values
      have hfresh' : FreshCas (World.issued σ.shared) { x.env with answer := a } := hfresh
      have hpc := congrArg Prod.fst hstep
      have hshared := congrArg (fun r => r.2.1) hstep
      dsimp only at hpc hshared
      obtain ⟨hcopies, hcontinued⟩ := (h.copies i).step h.issued { x.env with answer := a }
      rw [hpc, hshared]
      exact ⟨casIssued_step h.issued hfresh' (site i) (σ.pc i).pc, hcopies,
        fun t key => aged_perform hfresh' _ t, hcontinued⟩
  obtain ⟨hissued, hcopies, haged, hcontinued⟩ := hmove
  refine ⟨⟨hissued, ?_⟩, hcontinued⟩
  exact (Function.forall_update_iff σ.pc fun j t => t.pc.Copies P (site j) _).mpr
    ⟨hcopies, fun j _ => (h.copies j).aged haged⟩

theorem CopyTasks.step (h : CopyTasks P site σ) {a : Happening κ} (hfresh : σ.Fresh a) :
    CopyTasks P site (happen P site a σ) ∧ Continued P σ.shared (happen P site a σ).shared := by
  cases a with
  | move i x => exact h.move i hfresh
  | lose s lost => exact h.lose s lost

/-- A record that is there all along. -/
theorem CopyTasks.run (h : CopyTasks P site σ) {as : List (Happening κ)}
    (hrun : Along (happen P site) Tasks.Fresh as σ) {s : StoreId} {key : Bytes}
    (hthere : Along (happen P site)
      (fun σ a => view P ((happen P site a σ).shared s) key ≠ none) as σ) {v w : Session}
    (hv : view P (σ.shared s) key = some v)
    (hw : view P ((exec (happen P site) as σ).shared s) key = some w) :
    w.lineage = v.lineage ∧
      ∃ n ≤ as.length, w.acctRecordNumber = v.acctRecordNumber + UInt32.ofNat n := by
  induction as generalizing σ v with
  | nil =>
    cases hv.symm.trans hw
    exact ⟨rfl, 0, le_refl 0, (UInt32.add_zero _).symm⟩
  | cons a as ih =>
    obtain ⟨hnext, hcontinued⟩ := h.step hrun.1
    obtain ⟨u, hu⟩ := Option.ne_none_iff_exists'.mp hthere.1
    have huv := hcontinued s key v u hv hu
    obtain ⟨hlineage, n, hn, hnumber⟩ := ih hnext hrun.2 hthere.2 hu hw
    refine ⟨hlineage.trans huv.lineage, ?_⟩
    rcases huv.number with hsame | hone
    · exact ⟨n, hn.trans (Nat.le_succ _), by rw [hnumber, hsame]⟩
    · refine ⟨n + 1, Nat.succ_le_succ hn, ?_⟩
      rw [hnumber, hone, UInt32.ofNat_add, UInt32.add_assoc, UInt32.add_comm 1]
      rfl

/-- **Records continue.** From stores in any state, whatever the messages, the answers, the outages
and the losses are: a step leaves a session in a store as it is, or increases its number, or changes
its timer id. So a record that is there all along still has the Session-Id, the CCFs, the refresh time
and the interim interval it had, and its number has only been counted up. -/
theorem records_continue {msg : κ → Message} {W : World} (hW : CasIssued W)
    {as : List (Happening κ)}
    (hrun : Along (happen P site) Tasks.Fresh as (Tasks.start msg W)) :
    Along (happen P site) (fun σ a => ∀ s key v w, view P (σ.shared s) key = some v →
      view P ((happen P site a σ).shared s) key = some w → v.Next w) as (Tasks.start msg W) ∧
    ∀ s key v w, view P (W s) key = some v →
      Along (happen P site) (fun σ a => view P ((happen P site a σ).shared s) key ≠ none) as
        (Tasks.start msg W) →
      view P ((exec (happen P site) as (Tasks.start msg W)).shared s) key = some w →
      w.lineage = v.lineage ∧
        ∃ n ≤ as.length, w.acctRecordNumber = v.acctRecordNumber + UInt32.ofNat n := by
  have hstart : CopyTasks P site (Tasks.start msg W) := ⟨hW, fun _ => trivial⟩
  refine ⟨?_, fun s key v w hv hthere hw => hstart.run hrun hthere hv hw⟩
  refine Along.mono ?_ (Along.strengthen (fun σ a h ha => (h.step ha).1) hrun hstart)
  rintro σ a ⟨hfresh, hσ⟩
  exact (hσ.step hfresh).2

end Runs

/-! ### A second START -/

/-- Tasks that make their steps in this order, with the CAS values from `c` on; every ACR is
accepted, with the Session-Id `other`. -/
def acceptedRun {κ : Type} (c : ℕ) : List κ → List (Happening κ)
  | [] => []
  | i :: is =>
    .move i ⟨(Input.answering 2001).env c.succPNat, .response ⟨some 2001, none, some (ascii "other")⟩⟩ ::
      acceptedRun (c + 1) is

theorem fresh_acceptedRun {P : Platform} {κ : Type} [DecidableEq κ] {site : κ → Site} (is : List κ)
    {c : ℕ} {σ : Tasks κ} (h : ∀ s, ∀ x ∈ (σ.shared s).issued, x ≤ c) :
    Along (happen P site) Tasks.Fresh (acceptedRun c is) σ := by
  induction is generalizing c σ with
  | nil => trivial
  | cons i is ih =>
    refine ⟨fun s hs => ?_, ih fun s x hx => ?_⟩
    · have hle : c + 1 ≤ c := h s _ hs
      omega
    · rcases issued_taskStep hx with rfl | hx
      · exact le_refl (c + 1)
      · exact (h s x hx).trans (Nat.le_succ c)

/-- A START of a call that has a session, while an INTERIM of the call is handled. -/
def secondStart (i : Bool) : Message := if i then sampleMessage .interim else startMessage 300

def secondStartRun : List Bool := [false, false, true, false, true, false, false, true]

/-- The START is accepted and its session is not stored. -/
theorem records_continue_secondStart :
    ∃ w, view compactPlatform ((exec (happen compactPlatform fun _ => localAndRemote)
        (acceptedRun 1 secondStartRun) (Tasks.start secondStart
          (World.holding compactPlatform sampleKey (sampleSession 1) fun s => s < 2))).shared 0)
          sampleKey = some w ∧
      w.lineage = (sampleSession 1).lineage := by
  have hview : view compactPlatform (World.holding compactPlatform sampleKey (sampleSession 1)
      (fun s => s < 2) 0) sampleKey = some { sampleSession 1 with cas := 1 } := by
    decide +kernel
  have hthere : Along (happen compactPlatform fun _ => localAndRemote)
      (fun σ a => view compactPlatform
        ((happen compactPlatform (fun _ => localAndRemote) a σ).shared 0) sampleKey ≠ none)
      (acceptedRun 1 secondStartRun) (Tasks.start secondStart
        (World.holding compactPlatform sampleKey (sampleSession 1) fun s => s < 2)) := by
    iterate 8 refine ⟨by decide +kernel, ?_⟩
    trivial
  have hend : view compactPlatform ((exec (happen compactPlatform fun _ => localAndRemote)
      (acceptedRun 1 secondStartRun) (Tasks.start secondStart
        (World.holding compactPlatform sampleKey (sampleSession 1) fun s => s < 2))).shared 0)
        sampleKey ≠ none := by
    decide +kernel
  obtain ⟨w, hw⟩ := Option.ne_none_iff_exists'.mp hend
  have hrun : Along (happen compactPlatform fun _ => localAndRemote) Tasks.Fresh
      (acceptedRun 1 secondStartRun) (Tasks.start secondStart
        (World.holding compactPlatform sampleKey (sampleSession 1) fun s => s < 2)) :=
    fresh_acceptedRun secondStartRun fun s x hx => issued_holding hx
  exact ⟨w, hw, ((records_continue (storesReady_holding _ _ _ _).issued hrun).2 0 sampleKey _ w
    hview hthere hw).1⟩

end Ralf
