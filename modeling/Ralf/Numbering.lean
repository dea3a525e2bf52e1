import Ralf.Bookkeeping

/-!
# Record numbers

The numbers the CCF sees, when any number of threads of one site work on one key, in any
interleaving. Within a Session-Id they are distinct at any time and without gap once all is done,
and a STOP has the largest (`numbers_consecutive`); all of this is read off the session's `Book`. A
message that is done without having sent anything found no session in the store when it looked for
the last time (`gave_up`).
-/

namespace Ralf

open Bytes Versioned Runs Ledger

/-! ## Messages that send nothing -/

/-- The thread is past `send`, and not done. -/
def Pc.afterSend : Pc → Bool
  | .awaitAnswer _ => true
  | .deleteUnknown _ _ => true
  | .createTimer _ _ _ => true
  | .writeSession _ _ _ => true
  | .sendChronosUpdate _ _ _ => true
  | .readTimerId _ _ _ _ => true
  | .writeTimerId _ _ _ _ _ _ => true
  | .finish _ => true
  | _ => false

/-- The thread looks for the session elsewhere, or is done. -/
def Pc.givingUp : Pc → Bool
  | .tryRemotes _ _ => true
  | .done => true
  | _ => false

section GivingUp

variable {P : Platform} {κ : Type} [DecidableEq κ] {site : κ → Site}

theorem Move.afterSend {site : Site} {env : Env} {pc pc' : Pc} {R R' : Regs} {es : List Event}
    (h : Move P site env pc R pc' R' es) (hpc' : pc'.afterSend = true) :
    pc.afterSend = true ∨ es.filterMap Event.sent ≠ [] := by
  cases h with
  | send => exact .inr (List.cons_ne_nil _ _)
  | _ => first | exact .inl rfl | cases hpc'

theorem Move.givingUp {site : Site} {env : Env} {pc pc' : Pc} {R R' : Regs} {es : List Event}
    (h : Move P site env pc R pc' R' es) (hpc' : pc'.givingUp = true) :
    pc.givingUp = true ∨ pc.afterSend = true ∨
      (R site.localStore).cell = none ∧ ∃ msg, pc = .handle msg := by
  cases h with
  | handleMissing _ hnone => exact .inr (.inr ⟨hnone, _, rfl⟩)
  | finish => exact .inr (.inl rfl)
  | finishQuiet => exact .inr (.inl rfl)
  | _ => first | exact .inl rfl | cases hpc'

/-- A thread that is past `send` has sent. -/
def SentAfter (σ : RegSys κ) : Prop :=
  ∀ i, (σ.pc i).afterSend = true → sentBy σ.trace i ≠ []

theorem SentAfter.step {σ : RegSys κ} (h : SentAfter σ) {a : κ × Env} (hup : a.2.Up) :
    SentAfter (regSysStep P site a σ) := by
  obtain ⟨pc', R', es, hm, heq⟩ := regSysStep_cases P site a hup σ
  rw [heq]
  change SentAfter (moved σ a.1 pc' R' es)
  intro i hi
  by_cases hia : i = a.1
  · subst hia
    rw [moved_pc_self] at hi
    rw [sentBy_moved_self]
    intro hnil
    obtain ⟨hold, hnew⟩ := List.append_eq_nil_iff.mp hnil
    rcases hm.afterSend hi with hafter | hsend
    · exact h a.1 hafter hold
    · exact hsend hnew
  · rw [moved_pc_of_ne hia] at hi
    rw [sentBy_moved_of_ne hia]
    exact h i hi

/-- A thread that gives up without having sent was giving up before, or it starts to with this step,
which reads the local store when there is no session in it. -/
theorem SentAfter.givingUp {σ : RegSys κ} (h : SentAfter σ) {a : κ × Env} (hup : a.2.Up) {i : κ}
    (hgive : ((regSysStep P site a σ).pc i).givingUp = true)
    (hsent : sentBy (regSysStep P site a σ).trace i = []) :
    (σ.pc i).givingUp = true ∧ sentBy σ.trace i = [] ∨
      i = a.1 ∧ (∃ msg, σ.pc i = .handle msg) ∧ (σ.shared (site i).localStore).cell = none := by
  obtain ⟨pc', R', es, hm, heq⟩ := regSysStep_cases P site a hup σ
  rw [heq] at hgive hsent
  change ((moved σ a.1 pc' R' es).pc i).givingUp = true at hgive
  change sentBy (moved σ a.1 pc' R' es).trace i = [] at hsent
  by_cases hi : i = a.1
  · subst hi
    rw [moved_pc_self] at hgive
    rw [sentBy_moved_self] at hsent
    have hold := (List.append_eq_nil_iff.mp hsent).1
    rcases hm.givingUp hgive with hgive' | hpast | ⟨hnone, hhandle⟩
    · exact .inl ⟨hgive', hold⟩
    · exact absurd hold (h a.1 hpast)
    · exact .inr ⟨rfl, hhandle, hnone⟩
  · rw [moved_pc_of_ne hi] at hgive
    rw [sentBy_moved_of_ne hi] at hsent
    exact .inl ⟨hgive, hsent⟩

/-- A thread that gives up without having sent: when it read the local store for the last time there
was no session in it, and since then it has been giving up. -/
theorem gave_up {σ₀ : RegSys κ} {as : List (κ × Env)}
    (hrun : Along (regSysStep P site) (fun _ a => a.2.Up) as σ₀) (hafter : SentAfter σ₀) {i : κ}
    (hstart : (σ₀.pc i).givingUp = false)
    (hgive : ((exec (regSysStep P site) as σ₀).pc i).givingUp = true)
    (hsent : sentBy (exec (regSysStep P site) as σ₀).trace i = []) :
    ∃ bs env cs msg, as = bs ++ (i, env) :: cs ∧
      (exec (regSysStep P site) bs σ₀).pc i = .handle msg ∧
      ((exec (regSysStep P site) bs σ₀).shared (site i).localStore).cell = none ∧
      ∀ ds, ds <+: cs →
        ((exec (regSysStep P site) (bs ++ (i, env) :: ds) σ₀).pc i).givingUp = true := by
  induction as using List.reverseRecOn with
  | nil => cases hstart.symm.trans hgive
  | append_singleton as a ih =>
    obtain ⟨hrun, hup, -⟩ := Along.append.mp hrun
    have hafter' : SentAfter (exec (regSysStep P site) as σ₀) :=
      Along.invariant (fun _ _ h hok => h.step hok) hrun hafter
    have hlast := hgive
    rw [exec_append] at hgive hsent
    rcases hafter'.givingUp hup hgive hsent with ⟨hgive', hsent'⟩ | ⟨rfl, ⟨msg, hhandle⟩, hnone⟩
    · obtain ⟨bs, env, cs, msg, rfl, hhandle, hnone, hsince⟩ := ih hrun hgive' hsent'
      refine ⟨bs, env, cs ++ [a], msg, by simp, hhandle, hnone, fun ds hds => ?_⟩
      rcases List.prefix_concat_iff.mp hds with rfl | hds
      · rw [List.append_assoc] at hlast
        exact hlast
      · exact hsince ds hds
    · refine ⟨as, a.2, [], msg, rfl, hhandle, hnone, fun ds hds => ?_⟩
      rw [List.prefix_nil.mp hds]
      exact hlast

end GivingUp

/-! ## Runs -/

section Runs

variable {P : Platform} {κ : Type} [DecidableEq κ] {site : Site} {msg : κ → Message} {key : Bytes}
  {W : World}

def NumberingOk (σ : Sys κ) (a : κ × Env) : Prop :=
  StoresOk (World.issued σ.shared) a.2 ∧ SessionIdsOk σ a

/-- The numbers sent under a Session-Id. -/
def SentNumber (trace : List (κ × Event)) (sid : Bytes) (n : UInt32) : Prop :=
  ∃ i m, (m, sid) ∈ sentBy trace i ∧ m.accountingRecordNumber = n

/-- What is sent in a run, seen from the CCF. -/
structure Consecutive (σ : Sys κ) : Prop where
  /-- No number is sent twice under one Session-Id. -/
  distinct : σ.trace.Pairwise fun e e' => ∀ m m', e.2.sent = some m → e'.2.sent = some m' →
    m.2 = m'.2 → m.1.accountingRecordNumber ≠ m'.1.accountingRecordNumber
  /-- In the end no number is left out. -/
  complete : (∀ i, σ.pc i = .done) → ∀ sid, ∃ top, ∀ n,
    SentNumber σ.trace sid n ↔ 1 ≤ n.toNat ∧ n.toNat ≤ top
  /-- There is one STOP at most, and it has the largest number. -/
  stop : ∀ i j m m' sid, (m, sid) ∈ sentBy σ.trace i → m.recordType = .stop →
    (m', sid) ∈ sentBy σ.trace j →
    m'.accountingRecordNumber ≤ m.accountingRecordNumber ∧ (m'.recordType = .stop → j = i)
  /-- A message is sent once, and takes one number. -/
  once : ∀ i, (sentBy σ.trace i).length ≤ 1
  unique : ∀ i sid n sid' n', Obtains σ i sid n → Obtains σ i sid' n' → sid = sid' ∧ n = n'

theorem booked_start (hnew : ∀ i, (msg i).sessionId = [])
    (hempty : ∀ s, (W s).record key = none) :
    Booked site (fun i => (msg i).recordType) ((Sys.start msg W).map (regs P key)) := by
  have hnone : ∀ s v, (regs P key W s).cell = some v → False := by
    intro s v hv
    cases (view_of_none (hempty s)).symm.trans hv
  refine ⟨⟨fun s v hv => (hnone s v hv).elim, fun _ => trivial, fun _ => trivial⟩,
    sendsOnce_start, fun i => ?_, fun v hv => (hnone _ v hv).elim, fun sid _ => ⟨[], ?_⟩⟩
  · refine ⟨hnew i, fun m hm => ?_, ?_, ?_, ?_, ?_⟩
    · cases hm
      rfl
    · rintro m ⟨⟩
    · rintro m ⟨⟩
    · rintro sid ⟨⟩
    · rintro m sid ⟨⟩
  · refine ⟨.nil ?_, fun h => absurd rfl h, fun v hv => (hnone _ v hv).elim, ?_, ?_⟩
    · rintro i n (⟨m, hm, -⟩ | ⟨m, hm, -⟩) <;> cases hm
    · rintro i (⟨m, hm, -⟩ | hopen)
      · cases hm
      · cases hopen
    · rintro i ⟨⟩

theorem ofNat_inj {k k' top : ℕ} (htop : top < 2 ^ 32) (hk : k ≤ top) (hk' : k' ≤ top)
    (h : UInt32.ofNat k = UInt32.ofNat k') : k = k' := by
  have h' := congrArg UInt32.toNat h
  rw [UInt32.toNat_ofNat_of_lt' (by simpa using hk.trans_lt htop),
    UInt32.toNat_ofNat_of_lt' (by simpa using hk'.trans_lt htop)] at h'
  exact h'

theorem toNat_ofNat {k top : ℕ} (htop : top < 2 ^ 32) (hk : k ≤ top) :
    (UInt32.ofNat k).toNat = k :=
  UInt32.toNat_ofNat_of_lt' (by simpa using hk.trans_lt htop)

theorem Obtains.unique {σ : RegSys κ} (h : SendsOnce σ) {i : κ} {sid sid' : Bytes} {n n' : UInt32}
    (h1 : Obtains σ i sid n) (h2 : Obtains σ i sid' n') : sid = sid' ∧ n = n' := by
  by_cases hsent : sentBy σ.trace i = []
  · unfold Obtains at h1 h2
    rw [hsent] at h1 h2
    simp only [List.not_mem_nil, false_and, exists_false, false_or] at h1 h2
    obtain ⟨m, hm, rfl, rfl⟩ := h1
    obtain ⟨m', hm', rfl, rfl⟩ := h2
    rw [hm] at hm'
    cases hm'
    exact ⟨rfl, rfl⟩
  · have hout : (σ.pc i).outgoing = none := by
      rw [Option.eq_none_iff_forall_ne_some]
      exact fun m hm => hsent (h.unsent i (unsent_of_outgoing hm))
    obtain ⟨x, hx⟩ : ∃ x, sentBy σ.trace i = [x] :=
      List.length_eq_one_iff.mp (le_antisymm (h.once i) (List.length_pos_iff.mpr hsent))
    unfold Obtains at h1 h2
    rw [hx, hout] at h1 h2
    simp only [List.mem_singleton, reduceCtorEq, false_and, exists_false, or_false] at h1 h2
    obtain ⟨m, rfl, rfl⟩ := h1
    obtain ⟨m', hm', rfl⟩ := h2
    cases hm'
    exact ⟨rfl, rfl⟩

section Reading

variable {type : κ → AccountingRecordType} {σ : RegSys κ} {sid : Bytes} {i j : κ} {m m' : Message}

theorem obtains_of_sent (h : (m, sid) ∈ sentBy σ.trace i) :
    Obtains σ i sid m.accountingRecordNumber :=
  .inl ⟨m, h, rfl⟩

/-- Fewer than 2^32 messages belong to a session. -/
def Few {Ω : Type} (σ : Pool κ Pc Ω Event) : Prop :=
  ∀ sid, sid ≠ [] → {i | ∃ n, Obtains σ i sid n}.ncard < 2 ^ 32

/-- The book of a Session-Id that was sent; its length fits a record number. -/
theorem Booked.book_of_sent (h : Booked site type σ) (hfew : Few σ)
    (hmem : (m, sid) ∈ sentBy σ.trace i) : ∃ l, Book site type σ sid l ∧ l.length < 2 ^ 32 := by
  have hne := ((h.own i).sent m sid hmem).1.1
  obtain ⟨l, hb⟩ := h.book sid hne
  refine ⟨l, hb, ?_⟩
  rw [← hb.numbers.ncard]
  exact hfew sid hne

theorem Booked.distinct (h : Booked site type σ) (hfew : Few σ) (hij : i ≠ j)
    (hm : (m, sid) ∈ sentBy σ.trace i) (hm' : (m', sid) ∈ sentBy σ.trace j) :
    m.accountingRecordNumber ≠ m'.accountingRecordNumber := by
  obtain ⟨l, hb, hlen⟩ := h.book_of_sent hfew hm
  intro hnum
  refine hij (hb.numbers.unique (fun k k' hk hk' => ofNat_inj hlen hk hk') (obtains_of_sent hm) ?_)
  rw [hnum]
  exact obtains_of_sent hm'

theorem Booked.complete (h : Booked site type σ) (hfew : Few σ) (hdone : ∀ i, σ.pc i = .done)
    (sid : Bytes) : ∃ top, ∀ n, SentNumber σ.trace sid n ↔ 1 ≤ n.toNat ∧ n.toNat ≤ top := by
  -- once all is done, to have a number is to have sent it
  have hsent : ∀ i n, Obtains σ i sid n ↔
      ∃ m, (m, sid) ∈ sentBy σ.trace i ∧ m.accountingRecordNumber = n := by
    intro i n
    unfold Obtains
    rw [hdone i]
    simp [Pc.outgoing]
  by_cases hne : sid = []
  · refine ⟨0, fun n => iff_of_false ?_ (by omega)⟩
    rintro ⟨i, m, hm, -⟩
    exact ((h.own i).sent m sid hm).1.1 hne
  · obtain ⟨l, hb⟩ := h.book sid hne
    have hlen : l.length < 2 ^ 32 := by
      rw [← hb.numbers.ncard]
      exact hfew sid hne
    refine ⟨l.length, fun n => ⟨?_, ?_⟩⟩
    · rintro ⟨i, m, hm, rfl⟩
      obtain ⟨k, hk, h1, h2⟩ := hb.numbers.bounds (obtains_of_sent hm)
      rw [hk, toNat_ofNat hlen h2]
      exact ⟨h1, h2⟩
    · rintro ⟨h1, h2⟩
      obtain ⟨i, hi⟩ := hb.numbers.exists h1 h2
      rw [UInt32.ofNat_toNat, hsent] at hi
      exact ⟨i, hi⟩

theorem Booked.stop (h : Booked site type σ) (hfew : Few σ) (hm : (m, sid) ∈ sentBy σ.trace i)
    (hstop : m.recordType = .stop) (hm' : (m', sid) ∈ sentBy σ.trace j) :
    m'.accountingRecordNumber ≤ m.accountingRecordNumber ∧ (m'.recordType = .stop → j = i) := by
  obtain ⟨l, hb, hlen⟩ := h.book_of_sent hfew hm
  have hlast : ∀ {k m}, (m, sid) ∈ sentBy σ.trace k → m.recordType = .stop →
      l.getLast? = some k := by
    intro k m hmem htype
    refine hb.stop k (hb.numbers.mem_iff.mpr ⟨_, obtains_of_sent hmem⟩) ?_
    rw [← ((h.own k).sent m sid hmem).2]
    exact htype
  constructor
  · have hnum := hb.numbers.functional (obtains_of_sent hm) (hb.numbers.last (hlast hm hstop))
    obtain ⟨k, hk, -, hle⟩ := hb.numbers.bounds (obtains_of_sent hm')
    rw [hnum, hk, UInt32.le_iff_toNat_le, toNat_ofNat hlen hle, toNat_ofNat hlen (le_refl _)]
    exact hle
  · intro hstop'
    exact Option.some.inj ((hlast hm' hstop').symm.trans (hlast hm hstop))

end Reading

variable {type : κ → AccountingRecordType}

/-- After a STOP has its number, nobody obtains another one of the session. -/
theorem Booked.closed_run {σ : RegSys κ} (h : Booked site type σ) (hsite : site.remoteStores = [])
    {bs : List (κ × Env)} (hrun : Along (regSysStep P fun _ => site)
      (fun σ a => StoresOk σ.shared.issued a.2 ∧ SessionIdsOk σ a) bs σ) {j : κ} {sid : Bytes}
    {n' : UInt32} (htype : type j = .stop) (hstop : Obtains σ j sid n') {k : κ} {n : UInt32}
    (hob : Obtains (exec (regSysStep P fun _ => site) bs σ) k sid n) : Obtains σ k sid n := by
  have hne := (properId_stop h htype hstop).1
  refine (Along.invariant (I := fun τ => Booked site type τ ∧ Obtains τ j sid n' ∧
    ∀ k n, Obtains τ k sid n → Obtains σ k sid n) ?_ hrun ⟨h, hstop, fun _ _ => id⟩).2.2 k n hob
  rintro τ a ⟨hτ, hstopτ, hback⟩ ⟨hok, hids⟩
  refine ⟨hτ.step hsite hok hids, ?_, fun k n hk => ?_⟩
  · obtain ⟨pc', R', es, hm, heq⟩ := regSysStep_cases P (fun _ => site) a hok.1 τ
    rw [heq]
    exact hstopτ.moved hτ.once hm hne
  · exact hback k n (hτ.closed hsite hok.1 hids htype hstopτ hk)

omit [DecidableEq κ] in
theorem keyed_empty (hkey : ∀ i, (msg i).key = key) (hempty : ∀ s, (W s).record key = none) :
    Keyed P key (Sys.start msg W) where
  hasKey := fun i => Pc.hasKey_of_message rfl (hkey i)
  readable := fun s => readable_of_none (hempty s)

/-- **Record numbers.** Any number of messages of one key are handled at a site without remote
stores, in any interleaving, from a store without the key. At any time, as long as fewer than 2^32
messages belong to a session, what is sent is `Consecutive`; once a STOP has its number, nobody
obtains another one of the session; and a message that is done without having sent anything found no
record in the store when `handle` read it for the last time, and gave up with that. -/
theorem numbers_consecutive (hsite : site.remoteStores = []) (hkey : ∀ i, (msg i).key = key)
    (hnew : ∀ i, (msg i).sessionId = []) (hempty : ∀ s, (W s).record key = none)
    {as : List (κ × Env)}
    (hrun : Along (sysStep P fun _ => site) NumberingOk as (Sys.start msg W)) {σ : Sys κ}
    (hσ : exec (sysStep P fun _ => site) as (Sys.start msg W) = σ) (hfew : Few σ) :
    Consecutive σ ∧
      (∀ bs, Along (sysStep P fun _ => site) NumberingOk bs σ → ∀ i sid n,
        (msg i).recordType = .stop → Obtains σ i sid n →
        ∀ k n', Obtains (exec (sysStep P fun _ => site) bs σ) k sid n' → Obtains σ k sid n') ∧
      ∀ i, σ.pc i = .done → sentBy σ.trace i = [] →
        ∃ bs env cs m, as = bs ++ (i, env) :: cs ∧
          (exec (sysStep P fun _ => site) bs (Sys.start msg W)).pc i = .handle m ∧
          ((exec (sysStep P fun _ => site) bs (Sys.start msg W)).shared
            site.localStore).record key = none ∧
          ∀ ds, ds <+: cs → ((exec (sysStep P fun _ => site) (bs ++ (i, env) :: ds)
            (Sys.start msg W)).pc i).givingUp = true := by
  have hkeyed : Keyed P key (Sys.start msg W) := keyed_empty hkey hempty
  have hregs : ∀ {σ : Sys κ} {bs}, Keyed P key σ →
      Along (sysStep P fun _ => site) NumberingOk bs σ →
      Along (regSysStep P fun _ => site)
        (fun σ a => StoresOk σ.shared.issued a.2 ∧ SessionIdsOk σ a) bs (σ.map (regs P key)) := by
    intro σ bs hk
    exact regs_sysAlong hk fun τ a _ h => ⟨h.1, h.2.fresh, h.2.proper, h.2.echoed⟩
  have hexec := regs_sysExec hkeyed (fun _ => site) as
  rw [hσ] at hexec
  have hbooked : Booked site (fun i => (msg i).recordType) (σ.map (regs P key)) := by
    rw [hexec]
    exact Along.invariant (fun τ a h hok => h.step hsite hok.1 hok.2) (hregs hkeyed hrun)
      (booked_start hnew hempty)
  have hkeyedσ : Keyed P key σ := by
    rw [← hσ]
    exact Along.invariant (fun τ a h _ => h.step _ a) hrun hkeyed
  refine ⟨⟨?_, ?_, ?_, ?_, ?_⟩, ?_, ?_⟩
  · exact pairwise_sent (Q := fun _ _ m m' => m.2 = m'.2 →
      m.1.accountingRecordNumber ≠ m'.1.accountingRecordNumber) hbooked.once.once
      fun i j m m' hij hm hm' hsid => hbooked.distinct hfew hij hm (hsid ▸ hm')
  · exact fun hdone sid => hbooked.complete hfew hdone sid
  · exact fun i j m m' sid hm hstop hm' => hbooked.stop hfew hm hstop hm'
  · exact hbooked.once.once
  · exact fun i sid n sid' n' h1 h2 => Obtains.unique hbooked.once h1 h2
  · intro bs hbs i sid n htype hstop k n' hob
    have hexec' := regs_sysExec hkeyedσ (fun _ => site) bs
    have hob' : Obtains ((exec (sysStep P fun _ => site) bs σ).map (regs P key)) k sid n' := hob
    rw [hexec'] at hob'
    exact hbooked.closed_run hsite (hregs hkeyedσ hbs) htype hstop hob'
  · intro i hdone hnone
    have hdoneR : (σ.map (regs P key)).pc i = .done := hdone
    have hnoneR : sentBy (σ.map (regs P key)).trace i = [] := hnone
    rw [hexec] at hdoneR hnoneR
    obtain ⟨bs, env, cs, m, has, hhandle, hcell, hsince⟩ :=
      gave_up ((hregs hkeyed hrun).mono fun _ _ h => h.1.1) (by rintro k ⟨⟩) (i := i) rfl
        (by rw [hdoneR]; rfl) hnoneR
    have hbsrun : Along (sysStep P fun _ => site) NumberingOk bs (Sys.start msg W) := by
      rw [has] at hrun
      exact (Along.append.mp hrun).1
    have hkeyedbs : Keyed P key (exec (sysStep P fun _ => site) bs (Sys.start msg W)) :=
      Along.invariant (fun τ a h _ => h.step _ a) hbsrun hkeyed
    rw [← regs_sysExec hkeyed (fun _ => site) bs] at hhandle hcell
    refine ⟨bs, env, cs, m, has, hhandle, record_of_view_none (hkeyedbs.readable _) hcell, ?_⟩
    intro ds hds
    have hgiving := hsince ds hds
    rw [← regs_sysExec hkeyed (fun _ => site) (bs ++ (i, env) :: ds)] at hgiving
    exact hgiving

end Runs

/-! ### A contention -/

/-- START, INTERIM and STOP of one session. -/
def threeMessages : Fin 3 → Message
  | 0 => sampleMessage .start
  | 1 => sampleMessage .interim
  | 2 => sampleMessage .stop

/-- The Diameter stack would make `next` as its next Session-Id; answers are for `sid`. -/
def makesId (next : String) : Input := ⟨none, ascii next, ⟨0, ascii "sid", 2001⟩⟩

/-- The START completes; then INTERIM and STOP both read the record, the INTERIM writes it, and the
STOP, whose delete fails, starts again. -/
def contention : List (Fin 3 × Input) :=
  (List.replicate 2 (0, makesId "sid")) ++
    ([0, 0, 0, 0, 1, 2, 1, 2, 2, 2, 2, 2, 2, 2, 1, 1, 1, 1] : List (Fin 3)).map
      fun i => (i, makesId "other")

def beforeContention : Sys (Fin 3) :=
  Sys.start threeMessages (World.holding compactPlatform sampleKey (sampleSession 1) fun _ => false)

def beforeContentionRegs : RegSys (Fin 3) :=
  ⟨fun i => .handle (threeMessages i), Regs.holding (sampleSession 1) fun _ => false, []⟩

theorem key_threeMessages (i : Fin 3) : (threeMessages i).key = sampleKey := by
  match i with
  | 0 => rfl
  | 1 => rfl
  | 2 => rfl

theorem regs_beforeContention (as : List (Fin 3 × Env)) :
    (exec (sysStep compactPlatform fun _ => oneStore) as beforeContention).map
        (regs compactPlatform sampleKey) =
      exec (regSysStep compactPlatform fun _ => oneStore) as beforeContentionRegs :=
  regs_sysExec_holding _ key_threeMessages _ _ _ _

/-- The Session-Ids in a trace. -/
def sentIds (trace : List (Fin 3 × Event)) : List Bytes :=
  trace.filterMap fun e => e.2.sent.map Prod.snd

theorem mem_sentIds {trace : List (Fin 3 × Event)} {i : Fin 3} {m : Message} {sid : Bytes}
    (h : (m, sid) ∈ sentBy trace i) : sid ∈ sentIds trace := by
  rw [mem_sentBy] at h
  exact List.mem_filterMap.mpr ⟨_, h, rfl⟩

set_option maxRecDepth 8000 in
theorem sessionIdsOk_contention :
    Along (sysStep compactPlatform fun _ => oneStore) SessionIdsOk (schedule 1 contention)
      beforeContention := by
  have hkeyed : Keyed compactPlatform sampleKey beforeContention :=
    keyed_empty key_threeMessages fun _ => rfl
  have hstart : beforeContention.map (regs compactPlatform sampleKey) = beforeContentionRegs :=
    regs_beforeContention []
  have hregs : Along (regSysStep compactPlatform fun _ => oneStore)
      (fun σ a => (sentIds σ.trace = [] ∧ a.2.newSessionId = ascii "sid" ∨
        sentIds σ.trace ⊆ [ascii "sid"] ∧ a.2.newSessionId = ascii "other") ∧
        a.2.answer.sessionId = ascii "sid") (schedule 1 contention)
      (beforeContention.map (regs compactPlatform sampleKey)) := by
    rw [hstart]
    iterate 2 refine ⟨⟨.inl ⟨rfl, rfl⟩, rfl⟩, ?_⟩
    iterate 18 refine ⟨⟨.inr ⟨by decide +kernel, rfl⟩, rfl⟩, ?_⟩
    trivial
  refine Along.of_map (I := Keyed compactPlatform sampleKey) (fun τ a h => h.step _ a)
    (fun τ a h => regs_sysStep h _ a) ?_ hkeyed hregs
  rintro τ a - ⟨⟨hids, hnew⟩ | ⟨hids, hnew⟩, hans⟩
  · have hnone : ∀ i m sid, (m, sid) ∉ sentBy τ.trace i := by
      intro i m sid hm
      have hmem : sid ∈ sentIds (τ.map (regs compactPlatform sampleKey)).trace := mem_sentIds hm
      rw [hids] at hmem
      cases hmem
    refine ⟨fun i m => hnone i m _, ?_, fun m sid hm => absurd hm (hnone _ m sid)⟩
    rw [hnew]
    exact ⟨by decide, by decide⟩
  · have honly : ∀ i m sid, (m, sid) ∈ sentBy τ.trace i → sid = ascii "sid" := fun i m sid hm =>
      List.mem_singleton.mp (hids (mem_sentIds hm))
    refine ⟨fun i m hm => ?_, ?_, fun m sid hm => hans.trans (honly _ m sid hm).symm⟩
    · exact absurd (hnew.symm.trans (honly i m _ hm)) (by decide)
    · rw [hnew]
      exact ⟨by decide, by decide⟩

set_option maxRecDepth 8000 in
/-- In this run all three messages are sent, with the numbers 1, 2 and 3. -/
theorem numbers_consecutive_contention :
    let σ := exec (sysStep compactPlatform fun _ => oneStore) (schedule 1 contention) beforeContention
    (∀ i, σ.pc i = .done) ∧
      (σ.trace.filterMap fun e => e.2.sent.map fun m => (e.1, m.1.accountingRecordNumber, m.2)) =
        [(0, 1, ascii "sid"), (2, 3, ascii "sid"), (1, 2, ascii "sid")] ∧
      Consecutive σ := by
  intro σ
  have hregs := regs_beforeContention (schedule 1 contention)
  have hfew : Few σ := by
    intro sid _
    refine (Set.ncard_le_ncard (Set.subset_univ _)).trans_lt ?_
    rw [Set.ncard_univ, Nat.card_eq_fintype_card, Fintype.card_fin]
    decide
  refine ⟨?_, ?_, ?_⟩
  · intro i
    refine (congrFun (congrArg Pool.pc hregs) i).trans ?_
    match i with
    | 0 => rfl
    | 1 => rfl
    | 2 => rfl
  · have htrace := congrArg Pool.trace hregs
    exact (congrArg (List.filterMap fun e => e.2.sent.map fun m =>
      (e.1, m.1.accountingRecordNumber, m.2)) htrace).trans rfl
  · have hsite : oneStore.remoteStores = [] := rfl
    refine (numbers_consecutive hsite key_threeMessages ?_ (fun _ => rfl)
      ((storesOk_schedule _).and sessionIdsOk_contention) rfl hfew).1
    intro i
    match i with
    | 0 => rfl
    | 1 => rfl
    | 2 => rfl

end Ralf
