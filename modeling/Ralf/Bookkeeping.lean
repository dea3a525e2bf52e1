import Ralf.Acrs
import Ralf.Lib.Ledger

/-!
# The book of a session

Any number of threads of one site, without remote stores, work on one key in any interleaving. A
thread obtains a number of a session when its compare-and-set on the session's record goes through
(INTERIM, STOP), or when the Diameter stack makes the Session-Id of its ACR (START, EVENT). Each
session has a list of the threads with a number, in the order in which they obtained it (`Book`).
The record holds the length of the list, and a STOP closes it; as long as the START that opened the
book has not written its record, it is the only one in it. Every step keeps the books
(`Booked.step`).
-/

namespace Ralf

open Bytes Versioned Runs Ledger

/-! ## What a thread does when -/

/-- The way a message takes through the program: `handle` starts with a message without a
Session-Id, and what a START or an EVENT sends and stores has the number 1. -/
def Pc.OnPath : Pc → Prop
  | .handle msg => msg.sessionId = []
  | .tryRemotes msg _ => msg.sessionId = [] ∧
      (msg.recordType = .interim ∨ msg.recordType = .stop)
  | .updateLocal msg _ _ => msg.sessionId = [] ∧ msg.recordType = .interim
  | .readRemotes msg _ _ => msg.recordType = .interim
  | .updateRemote msg _ _ _ _ _ => msg.recordType = .interim
  | .deleteLocal msg _ => msg.sessionId = [] ∧ msg.recordType = .stop
  | .deleteRemotes msg _ _ => msg.recordType = .stop
  | .send msg => msg.recordType ≠ .interim → msg.recordType ≠ .stop →
      msg.sessionId = [] ∧ msg.accountingRecordNumber = 1
  | .awaitAnswer msg => msg.recordType = .start → msg.accountingRecordNumber = 1
  | .createTimer msg _ _ => msg.recordType = .start ∧ msg.accountingRecordNumber = 1
  | .writeSession msg sess _ => msg.recordType = .start ∧ sess.acctRecordNumber = 1
  | _ => True

section Moves

variable {P : Platform} {site : Site} {env : Env} {pc pc' : Pc} {R R' : Regs} {es : List Event}

theorem Move.onPath (h : Move P site env pc R pc' R' es) (hpc : pc.OnPath) : pc'.OnPath := by
  cases h with
  | handleInterim hi => exact ⟨hpc, hi⟩
  | handleStop hs => exact ⟨hpc, hs⟩
  | handleMissing ht => exact ⟨hpc, ht⟩
  | handleFirst => exact fun _ _ => ⟨hpc, rfl⟩
  | tryInterim hi => exact ⟨hpc.1, hi⟩
  | tryStop hi => exact ⟨hpc.1, hpc.2.resolve_left hi⟩
  | tryNext => exact hpc
  | updateLocal => exact hpc.2
  | updateLocalAgain => exact hpc.1
  | readRemotesNone => exact fun hi => absurd hpc hi
  | readRemotesMissing => exact hpc
  | readRemotesFound => exact hpc
  | updateRemote => exact hpc
  | updateRemoteAgain => exact hpc
  | deleteLocal => exact hpc.2
  | deleteLocalAgain => exact hpc.1
  | deleteRemotesTimer => exact fun _ hs => absurd hpc hs
  | deleteRemotesNone => exact fun _ hs => absurd hpc hs
  | deleteRemotes => exact hpc
  | send =>
    exact fun hs => (hpc (AccountingRecordType.ne_interim_of_start hs)
      (AccountingRecordType.ne_stop_of_start hs)).2
  | answerTimer hs => exact ⟨hs, hpc hs⟩
  | answerStart hs => exact ⟨hs, hpc hs⟩
  | createTimer => exact hpc
  | writeSession => exact hpc
  | writeSessionFailed => exact hpc
  | _ => trivial

/-- The thread is about to write a new session with this id. -/
def Pc.Opening (sid : Bytes) : Pc → Prop
  | .createTimer _ _ sessionId => sessionId = sid
  | .writeSession _ sess (_ :: _) => sess.sessionId = sid
  | _ => False

theorem Move.opening (h : Move P site env pc R pc' R' es) {sid : Bytes} (hpc' : pc'.Opening sid) :
    pc.Opening sid ∨
      ∃ msg, pc = .awaitAnswer msg ∧ msg.recordType = .start ∧ env.answer.sessionId = sid := by
  cases h with
  | answerTimer hs => exact .inr ⟨_, rfl, hs, hpc'⟩
  | answerStart hs => exact .inr ⟨_, rfl, hs, hpc'⟩
  | createTimer => exact .inl hpc'
  | @writeSession _ _ _ rest =>
    cases rest with
    | nil => cases hpc'
    | cons s rest => exact .inl hpc'
  | @writeSessionFailed _ _ _ rest =>
    cases rest with
    | nil => cases hpc'
    | cons s rest => exact .inl hpc'
  | _ => cases hpc'

theorem Move.awaits {msg : Message} (h : Move P site env pc R (.awaitAnswer msg) R' es) :
    pc = .send msg ∧ es = [.send msg (acrSessionId env msg)] := by
  cases h
  exact ⟨rfl, rfl⟩

/-! ## The record -/

/-- Where a session found in the local store after a move comes from: it was there before, an
INTERIM has incremented it, or a START has added it. -/
inductive Recorded (site : Site) (pc : Pc) (R : Regs) (pc' : Pc) (v' : Session) : Prop where
  | kept {v} : (R site.localStore).cell = some v → v'.sessionId = v.sessionId →
      v'.acctRecordNumber = v.acctRecordNumber → Recorded site pc R pc' v'
  | counted {msg v} : (R site.localStore).cell = some v →
      pc = .updateLocal msg v.incremented false →
      pc' = .readRemotes msg v.incremented site.remoteStores → v'.sessionId = v.sessionId →
      v'.acctRecordNumber = v.acctRecordNumber + 1 → Recorded site pc R pc' v'
  | opened {msg sess s rest} : pc = .writeSession msg sess (s :: rest) → s = site.localStore →
      pc' = .writeSession msg sess rest → v'.sessionId = cStr sess.sessionId →
      v'.acctRecordNumber = sess.acctRecordNumber → Recorded site pc R pc' v'

theorem Move.recorded (h : Move P site env pc R pc' R' es) (hsite : site.remoteStores = [])
    (hloop : pc.InLoop site) (hheld : Held site R pc)
    (hnul : ∀ v, (R site.localStore).cell = some v → NulFree v.sessionId) {v' : Session}
    (hv' : (R' site.localStore).cell = some v') : Recorded site pc R pc' v' := by
  cases h with
  | @updateLocal msg sess newSession _ hver =>
    rw [Regs.put_self, Register.put_cell] at hv'
    obtain rfl := eq_of_written hv'
    cases newSession with
    | true =>
      obtain ⟨s, hs, -⟩ := hheld
      rw [hsite] at hs
      cases hs
    | false =>
      obtain ⟨held, ht, rfl⟩ := hheld
      have hcell := ht.cell_of_version hver
      exact .counted hcell rfl rfl (cStr_of_nulFree (hnul held hcell)) rfl
  | updateRemote =>
    have hsuf : _ <:+ site.remoteStores := hloop
    rw [hsite, List.suffix_nil] at hsuf
    cases hsuf
  | deleteLocal =>
    rw [Regs.put_self, Register.put_cell] at hv'
    cases hv'
  | deleteRemotes =>
    have hsuf : _ <:+ site.remoteStores := hloop
    rw [hsite, List.suffix_nil] at hsuf
    cases hsuf
  | @deleteUnknown _ s =>
    by_cases hs : site.localStore = s
    · rw [hs, Regs.erase_self] at hv'
      cases hv'
    · rw [Regs.erase_of_ne R hs] at hv'
      exact .kept hv' rfl rfl
  | @writeSession _ sess s =>
    by_cases hs : site.localStore = s
    · rw [hs, Regs.put_self, Register.put_cell] at hv'
      obtain rfl := eq_of_written hv'
      exact .opened rfl hs.symm rfl rfl rfl
    · rw [Regs.put_of_ne R env _ hs] at hv'
      exact .kept hv' rfl rfl
  | @writeTimerId _ _ s _ _ _ _ hver =>
    by_cases hs : site.localStore = s
    · obtain ⟨held, ht, rfl⟩ := hheld
      have hcell := ht.cell_of_version hver
      rw [hs, Regs.put_self, Register.put_cell] at hv'
      obtain rfl := eq_of_written hv'
      rw [← hs] at hcell
      exact .kept hcell (cStr_of_nulFree (hnul held hcell)) rfl
    · rw [Regs.put_of_ne R env _ hs] at hv'
      exact .kept hv' rfl rfl
  | _ => exact .kept hv' rfl rfl

end Moves

/-! ## Who has which number -/

section Pools

variable {κ : Type} [DecidableEq κ] {Ω : Type}

/-- The thread has obtained the number `n` of the session `sid`: it has sent it, or is going to. -/
def Obtains (σ : Pool κ Pc Ω Event) (i : κ) (sid : Bytes) (n : UInt32) : Prop :=
  (∃ msg, (msg, sid) ∈ sentBy σ.trace i ∧ msg.accountingRecordNumber = n) ∨
    ∃ msg, (σ.pc i).outgoing = some msg ∧ msg.sessionId = sid ∧ msg.accountingRecordNumber = n

/-- A Session-Id that is not empty and survives the store. -/
def ProperId (sid : Bytes) : Prop := sid ≠ [] ∧ NulFree sid

/-- The Session-Ids the Diameter stack makes are new and proper, and an answer has the Session-Id
of its ACR. -/
structure SessionIdsOk (σ : Pool κ Pc Ω Event) (a : κ × Env) : Prop where
  fresh : ∀ i msg, (msg, a.2.newSessionId) ∉ sentBy σ.trace i
  proper : ProperId a.2.newSessionId
  echoed : ∀ msg sid, (msg, sid) ∈ sentBy σ.trace a.1 → a.2.answer.sessionId = sid

/-- The system after a move of the thread `i`. -/
def moved (σ : RegSys κ) (i : κ) (pc' : Pc) (R' : Regs) (es : List Event) : RegSys κ :=
  ⟨Function.update σ.pc i pc', R', σ.trace ++ es.map (i, ·)⟩

variable {σ : RegSys κ} {i k : κ} {pc' : Pc} {R' : Regs} {es : List Event} {sid : Bytes}
  {n : UInt32} {msg : Message}

@[simp] theorem moved_pc_self : (moved σ i pc' R' es).pc i = pc' := by
  simp [moved]

theorem moved_pc_of_ne (h : k ≠ i) : (moved σ i pc' R' es).pc k = σ.pc k := by
  simp [moved, h]

@[simp] theorem sentBy_moved_self :
    sentBy (moved σ i pc' R' es).trace i = sentBy σ.trace i ++ es.filterMap Event.sent :=
  sentBy_append_self σ.trace i es

theorem sentBy_moved_of_ne (h : k ≠ i) :
    sentBy (moved σ i pc' R' es).trace k = sentBy σ.trace k :=
  sentBy_append_of_ne σ.trace h es

theorem sentBy_moved_mono {m : Message × Bytes} (h : m ∈ sentBy σ.trace k) :
    m ∈ sentBy (moved σ i pc' R' es).trace k := by
  by_cases hk : k = i
  · subst hk
    rw [sentBy_moved_self]
    exact List.mem_append_left _ h
  · rwa [sentBy_moved_of_ne hk]

theorem obtains_of_ne (h : k ≠ i) : Obtains (moved σ i pc' R' es) k sid n ↔ Obtains σ k sid n := by
  unfold Obtains
  rw [moved_pc_of_ne h, sentBy_moved_of_ne h]

theorem obtains_self : Obtains (moved σ i pc' R' es) i sid n ↔
    (∃ msg, (msg, sid) ∈ sentBy σ.trace i ++ es.filterMap Event.sent ∧
      msg.accountingRecordNumber = n) ∨
    ∃ msg, pc'.outgoing = some msg ∧ msg.sessionId = sid ∧ msg.accountingRecordNumber = n := by
  unfold Obtains
  rw [moved_pc_self, sentBy_moved_self]

theorem obtains_quiet (hes : es.filterMap Event.sent = [])
    (hout : pc'.outgoing = (σ.pc i).outgoing) :
    Obtains (moved σ i pc' R' es) k sid n ↔ Obtains σ k sid n := by
  by_cases hk : k = i
  · subst hk
    rw [obtains_self, hes, hout, List.append_nil]
    rfl
  · exact obtains_of_ne hk

/-- The thread has no number yet. -/
theorem not_obtains (hout : (σ.pc i).outgoing = none) (hsent : sentBy σ.trace i = []) :
    ¬ Obtains σ i sid n := by
  rintro (⟨msg, hmem, -⟩ | ⟨msg, hmsg, -⟩)
  · rw [hsent] at hmem
    cases hmem
  · rw [hout] at hmsg
    cases hmsg

theorem obtains_settle (hsent : sentBy σ.trace i = []) (hout : (σ.pc i).outgoing = none)
    (hout' : pc'.outgoing = some msg) :
    Obtains (moved σ i pc' R' []) k sid n ↔
      Obtains σ k sid n ∨ k = i ∧ msg.sessionId = sid ∧ msg.accountingRecordNumber = n := by
  by_cases hk : k = i
  · subst hk
    have hno : ¬ Obtains σ k sid n := not_obtains hout hsent
    rw [obtains_self, hsent, hout']
    simp [hno]
  · rw [obtains_of_ne hk]
    simp [hk]

theorem obtains_send {wire : Bytes} (hsent : sentBy σ.trace i = []) :
    Obtains (moved σ i (.awaitAnswer msg) R' [.send msg wire]) k sid n ↔
      k ≠ i ∧ Obtains σ k sid n ∨ k = i ∧ wire = sid ∧ msg.accountingRecordNumber = n := by
  by_cases hk : k = i
  · subst hk
    rw [obtains_self, hsent]
    simp [Event.sent, Pc.outgoing, eq_comm]
  · rw [obtains_of_ne hk]
    simp [hk]

theorem obtains_at_send (hsent : sentBy σ.trace i = []) (hpc : σ.pc i = .send msg) :
    Obtains σ i sid n ↔ msg.sessionId = sid ∧ msg.accountingRecordNumber = n := by
  unfold Obtains
  rw [hsent, hpc]
  simp [Pc.outgoing]

/-- A number of a session is kept. -/
theorem Obtains.moved {P : Platform} {site : Site} {env : Env} (hone : SendsOnce σ)
    (hm : Move P site env (σ.pc i) σ.shared pc' R' es) (hne : sid ≠ []) (h : Obtains σ k sid n) :
    Obtains (moved σ i pc' R' es) k sid n := by
  rcases hm.progress with ⟨hes, hout⟩ | ⟨rfl, hout, msg, hout', hset⟩ | ⟨msg, hpc, rfl, rfl, rfl⟩
  · exact (obtains_quiet hes hout).mpr h
  · exact (obtains_settle (hone.unsent i hset.unsent) hout hout').mpr (.inl h)
  · have hsent : sentBy σ.trace i = [] := hone.unsent i (by rw [hpc]; rfl)
    rw [obtains_send hsent]
    by_cases hk : k = i
    · subst hk
      rw [obtains_at_send hsent hpc] at h
      have hacr : acrSessionId env msg = msg.sessionId := if_neg (h.1 ▸ hne)
      exact .inr ⟨rfl, hacr.trans h.1, h.2⟩
    · exact .inl ⟨hk, h⟩

/-- The START that is about to write the session `sid`. -/
def Starting (σ : RegSys κ) (i : κ) (sid : Bytes) : Prop :=
  (∃ msg, σ.pc i = .awaitAnswer msg ∧ msg.recordType = .start ∧ (msg, sid) ∈ sentBy σ.trace i) ∨
    (σ.pc i).Opening sid

/-! ## The invariant -/

/-- What is true of one thread, of the record type `type`. -/
structure OwnNumber (type : AccountingRecordType) (σ : RegSys κ) (i : κ) : Prop where
  onPath : (σ.pc i).OnPath
  hasType : (σ.pc i).HasType type
  named : ∀ msg, (σ.pc i).outgoing = some msg →
    msg.recordType = .interim ∨ msg.recordType = .stop → ProperId msg.sessionId
  awaits : ∀ msg, σ.pc i = .awaitAnswer msg → ∃ sid, (msg, sid) ∈ sentBy σ.trace i
  opening : ∀ sid, (σ.pc i).Opening sid → ∃ msg, (msg, sid) ∈ sentBy σ.trace i
  sent : ∀ msg sid, (msg, sid) ∈ sentBy σ.trace i → ProperId sid ∧ msg.recordType = type

/-- The threads with a number of the session `sid`, in order. -/
structure Book (site : Site) (type : κ → AccountingRecordType) (σ : RegSys κ) (sid : Bytes)
    (l : List κ) : Prop where
  numbers : Numbers UInt32.ofNat l fun i n => Obtains σ i sid n
  opened : l ≠ [] → ∃ i msg, (msg, sid) ∈ sentBy σ.trace i
  record : ∀ v, (σ.shared site.localStore).cell = some v → v.sessionId = sid →
    l ≠ [] ∧ v.acctRecordNumber = UInt32.ofNat l.length ∧ ∀ i ∈ l, type i ≠ .stop
  starting : ∀ i, Starting σ i sid →
    l = [i] ∧ ∀ v, (σ.shared site.localStore).cell = some v → v.sessionId ≠ sid
  stop : ∀ i ∈ l, type i = .stop → l.getLast? = some i

structure Booked (site : Site) (type : κ → AccountingRecordType) (σ : RegSys κ) : Prop where
  sane : Sane (fun _ => site) σ
  once : SendsOnce σ
  own : ∀ i, OwnNumber (type i) σ i
  record : ∀ v, (σ.shared site.localStore).cell = some v → ProperId v.sessionId
  book : ∀ sid, sid ≠ [] → ∃ l, Book site type σ sid l

/-! ## Steps -/

section Steps

variable {P : Platform} {site : Site} {type : κ → AccountingRecordType} {env : Env} {l : List κ}

/-- An INTERIM or a STOP takes the number after the record's. -/
theorem Settles.found {pc : Pc} {R : Regs} (h : Settles site R pc pc' msg)
    (hsite : site.remoteStores = []) (hheld : Held site R pc) (hpath : pc.OnPath) :
    (msg.recordType ≠ .interim ∧ msg.recordType ≠ .stop ∧ msg.sessionId = []) ∨
      ∃ v, (R site.localStore).cell = some v ∧ msg.sessionId = v.sessionId ∧
        msg.accountingRecordNumber = v.acctRecordNumber + 1 := by
  cases h with
  | first hi hs => exact .inl ⟨hi, hs, hpath⟩
  | @interim msg sess newSession hver =>
    cases newSession with
    | true =>
      obtain ⟨s, hs, -⟩ := hheld
      rw [hsite] at hs
      cases hs
    | false =>
      obtain ⟨held, ht, rfl⟩ := hheld
      exact .inr ⟨held, ht.cell_of_version hver, rfl, rfl⟩
  | stop hver =>
    obtain ⟨s, hs, held, ht, rfl⟩ := hheld
    rw [Site.stores, hsite, List.mem_singleton] at hs
    subst hs
    exact .inr ⟨held, ht.cell_of_version hver, rfl, rfl⟩

theorem hasType_outgoing {pc : Pc} {t : AccountingRecordType} (h : pc.HasType t)
    (hmsg : pc.outgoing = some msg) : msg.recordType = t := by
  cases pc with
  | readRemotes msg' _ _ =>
    cases hmsg
    exact h msg' rfl
  | updateRemote msg' _ _ _ _ _ =>
    cases hmsg
    exact h msg' rfl
  | deleteRemotes msg' _ _ =>
    cases hmsg
    exact h msg' rfl
  | send msg' =>
    obtain rfl := Option.some.inj hmsg
    exact h msg' rfl
  | _ => cases hmsg

/-- Only an INTERIM leaves a record behind, with the number it has taken. -/
theorem Settles.record {pc : Pc} {R : Regs} (h : Settles site R pc pc' msg)
    (hm : Move P site env pc R pc' R' es) (hpath : pc.OnPath) (hne : msg.sessionId ≠ [])
    {v' : Session} (hv' : (R' site.localStore).cell = some v') :
    v'.acctRecordNumber = msg.accountingRecordNumber ∧
      ∃ msg', pc.message = some msg' ∧ msg'.recordType = .interim := by
  cases h with
  | first => exact absurd hpath hne
  | interim =>
    cases hm
    rw [Regs.put_self, Register.put_cell] at hv'
    obtain rfl := eq_of_written hv'
    exact ⟨rfl, _, rfl, hpath.2⟩
  | stop =>
    cases hm
    rw [Regs.put_self, Register.put_cell] at hv'
    cases hv'

variable (h : Booked site type σ)

include h

/-- A Session-Id on the wire: the message's own for INTERIM and STOP, else a new one. -/
theorem properId_acr (hids : SessionIdsOk σ (i, env)) (hpc : σ.pc i = .send msg) :
    ProperId (acrSessionId env msg) := by
  by_cases hkind : msg.recordType = .interim ∨ msg.recordType = .stop
  · have hnamed := (h.own i).named msg (by rw [hpc]; rfl) hkind
    rwa [acrSessionId, if_neg hnamed.1]
  · have hpath := (h.own i).onPath
    rw [hpc] at hpath
    rw [not_or] at hkind
    rw [acrSessionId, if_pos (hpath hkind.1 hkind.2).1]
    exact hids.proper

/-- A new session is written under the Session-Id of the START's own ACR. -/
theorem opening_sess {sess : Session} {s : StoreId} {rest : List StoreId}
    (hpc : σ.pc i = .writeSession msg sess (s :: rest)) :
    (σ.pc i).Opening sess.sessionId ∧ ProperId sess.sessionId := by
  have hopen : (σ.pc i).Opening sess.sessionId := by
    rw [hpc]
    rfl
  obtain ⟨msg', hmem⟩ := (h.own i).opening _ hopen
  exact ⟨hopen, ((h.own i).sent msg' _ hmem).1⟩

theorem starting_moved (hids : SessionIdsOk σ (i, env))
    (hm : Move P site env (σ.pc i) σ.shared pc' R' es)
    (hstart : Starting (moved σ i pc' R' es) k sid) :
    Starting σ k sid ∨ k = i ∧ ∃ msg, σ.pc i = .send msg ∧ msg.recordType = .start ∧
      sid = acrSessionId env msg := by
  unfold Starting at hstart
  by_cases hk : k = i
  · subst hk
    rw [moved_pc_self, sentBy_moved_self] at hstart
    rcases hstart with ⟨msg, rfl, hs, hmem⟩ | hopen
    · obtain ⟨hpc, rfl⟩ := hm.awaits
      rw [h.once.unsent k (by rw [hpc]; rfl)] at hmem
      exact .inr ⟨rfl, msg, hpc, hs, by simpa [Event.sent] using hmem⟩
    · rcases hm.opening hopen with hold | ⟨msg, hpc, hs, hsid⟩
      · exact .inl (.inr hold)
      · obtain ⟨sid', hmem⟩ := (h.own k).awaits msg hpc
        have hecho : sid' = sid := (hids.echoed msg sid' hmem).symm.trans hsid
        exact .inl (.inl ⟨msg, hpc, hs, hecho ▸ hmem⟩)
  · rw [moved_pc_of_ne hk, sentBy_moved_of_ne hk] at hstart
    exact .inl hstart

theorem ownNumber_self (hsite : site.remoteStores = []) (hids : SessionIdsOk σ (i, env))
    (hm : Move P site env (σ.pc i) σ.shared pc' R' es) :
    OwnNumber (type i) (moved σ i pc' R' es) i := by
  have hown := h.own i
  constructor
  · rw [moved_pc_self]
    exact hm.onPath hown.onPath
  · rw [moved_pc_self]
    exact hm.hasType hown.hasType
  · rw [moved_pc_self]
    intro msg hmsg hkind
    rcases hm.progress with ⟨-, hout⟩ | ⟨-, -, msg', hmsg', hset⟩ | ⟨msg', -, rfl, -⟩
    · exact hown.named msg (hout ▸ hmsg) hkind
    · rw [hmsg] at hmsg'
      cases hmsg'
      rcases hset.found hsite (h.sane.held i) hown.onPath with ⟨hi, hs, -⟩ | ⟨v, hv, hsid, -⟩
      · exact absurd hkind (not_or.mpr ⟨hi, hs⟩)
      · rw [hsid]
        exact h.record v hv
    · cases hmsg
  · intro msg hmsg
    rw [moved_pc_self] at hmsg
    subst hmsg
    obtain ⟨-, rfl⟩ := hm.awaits
    exact ⟨_, by rw [sentBy_moved_self]; exact List.mem_append_right _ List.mem_cons_self⟩
  · rw [moved_pc_self]
    intro sid hopen
    rcases hm.opening hopen with hold | ⟨msg, hpc', -, rfl⟩
    · obtain ⟨msg, hmem⟩ := hown.opening sid hold
      exact ⟨msg, sentBy_moved_mono hmem⟩
    · obtain ⟨sid', hmem⟩ := hown.awaits msg hpc'
      exact ⟨msg, sentBy_moved_mono (hids.echoed msg sid' hmem ▸ hmem)⟩
  · intro msg sid hmem
    rw [sentBy_moved_self] at hmem
    rcases List.mem_append.mp hmem with hold | hnew
    · exact hown.sent msg sid hold
    · obtain hnone | ⟨msg', hpc', -, rfl⟩ := hm.sent
      · rw [hnone] at hnew
        cases hnew
      · simp only [List.filterMap_cons, Event.sent, List.filterMap_nil, List.mem_singleton,
          Prod.mk.injEq] at hnew
        obtain ⟨rfl, rfl⟩ := hnew
        exact ⟨properId_acr h hids hpc', hown.hasType msg (by rw [hpc']; rfl)⟩

theorem ownNumber_of_ne (hk : k ≠ i) : OwnNumber (type k) (moved σ i pc' R' es) k := by
  have hown := h.own k
  have hpc : (moved σ i pc' R' es).pc k = σ.pc k := moved_pc_of_ne hk
  have hsent : sentBy (moved σ i pc' R' es).trace k = sentBy σ.trace k := sentBy_moved_of_ne hk
  constructor
  · rw [hpc]
    exact hown.onPath
  · rw [hpc]
    exact hown.hasType
  · rw [hpc]
    exact hown.named
  · rw [hpc, hsent]
    exact hown.awaits
  · rw [hpc, hsent]
    exact hown.opening
  · rw [hsent]
    exact hown.sent

theorem recorded_moved (hsite : site.remoteStores = [])
    (hm : Move P site env (σ.pc i) σ.shared pc' R' es) {v' : Session}
    (hv' : (R' site.localStore).cell = some v') : Recorded site (σ.pc i) σ.shared pc' v' :=
  hm.recorded hsite (h.sane.inLoop i) (h.sane.held i) (fun v hv => (h.record v hv).2) hv'

theorem record_moved (hsite : site.remoteStores = [])
    (hm : Move P site env (σ.pc i) σ.shared pc' R' es) {v' : Session}
    (hv' : (R' site.localStore).cell = some v') : ProperId v'.sessionId := by
  cases recorded_moved h hsite hm hv' with
  | kept hv hsid =>
    rw [hsid]
    exact h.record _ hv
  | counted hv _ _ hsid =>
    rw [hsid]
    exact h.record _ hv
  | opened hpc _ _ hsid =>
    have hproper := (opening_sess h hpc).2
    rw [hsid, cStr_of_nulFree hproper.2]
    exact hproper

/-- A record that has changed its number belongs to a session whose numbers have changed. -/
theorem recorded_of_same (hsite : site.remoteStores = [])
    (hm : Move P site env (σ.pc i) σ.shared pc' R' es)
    (hob : ∀ k n, Obtains (moved σ i pc' R' es) k sid n ↔ Obtains σ k sid n) {v' : Session}
    (hv' : (R' site.localStore).cell = some v') (hsid : v'.sessionId = sid) :
    (∃ v, (σ.shared site.localStore).cell = some v ∧ v.sessionId = sid ∧
        v'.acctRecordNumber = v.acctRecordNumber) ∨
      Starting σ i sid ∧ type i = .start ∧ v'.acctRecordNumber = 1 ∧
        ¬ Starting (moved σ i pc' R' es) i sid := by
  cases recorded_moved h hsite hm hv' with
  | kept hv hsid' hnum => exact .inl ⟨_, hv, hsid'.symm.trans hsid, hnum⟩
  | @counted msg v hv hpc hpc' hsid' =>
    -- the thread would have obtained a number
    have hout : (σ.pc i).outgoing = none := by
      rw [hpc]
      rfl
    have hsent : sentBy σ.trace i = [] := h.once.unsent i (by rw [hpc]; rfl)
    have hob' : Obtains (moved σ i pc' R' es) i sid (v.acctRecordNumber + 1) := by
      rw [obtains_self]
      refine .inr ⟨fillIn msg v.incremented, by rw [hpc']; rfl, ?_, rfl⟩
      exact hsid'.symm.trans hsid
    exact absurd ((hob i _).mp hob') (not_obtains hout hsent)
  | @opened msg sess s rest hpc hs hpc' hsid' hnum =>
    obtain ⟨hopen, hproper⟩ := opening_sess h hpc
    rw [cStr_of_nulFree hproper.2, hsid] at hsid'
    have hpath := (h.own i).onPath
    rw [hpc] at hpath
    have htype : type i = .start :=
      ((h.own i).hasType msg (by rw [hpc]; rfl)).symm.trans hpath.1
    have hrest : rest = [] := by
      have hsuf := h.sane.inLoop i
      rw [hpc] at hsuf
      have hlen := List.IsSuffix.length_le hsuf
      simp only [Site.stores, hsite, List.length_cons, List.length_nil] at hlen
      exact List.length_eq_zero_iff.mp (by omega)
    refine .inr ⟨.inr (hsid' ▸ hopen), htype, hnum.trans hpath.2, ?_⟩
    unfold Starting
    rw [moved_pc_self, hpc', hrest]
    rintro (⟨msg', hmsg', -⟩ | hopen')
    · cases hmsg'
    · cases hopen'

/-- Nobody obtains a number of the session. -/
theorem Book.same (hb : Book site type σ sid l) (hne : sid ≠ []) (hsite : site.remoteStores = [])
    (hids : SessionIdsOk σ (i, env)) (hm : Move P site env (σ.pc i) σ.shared pc' R' es)
    (hob : ∀ k n, Obtains (moved σ i pc' R' es) k sid n ↔ Obtains σ k sid n) :
    Book site type (moved σ i pc' R' es) sid l where
  numbers := hb.numbers.congr hob
  opened := by
    intro hl
    obtain ⟨j, msg, hmem⟩ := hb.opened hl
    exact ⟨j, msg, sentBy_moved_mono hmem⟩
  record := by
    intro v' hv' hsid
    rcases recorded_of_same h hsite hm hob hv' hsid with ⟨v, hv, hvsid, hnum⟩ | ⟨hst, ht, hnum, -⟩
    · rw [hnum]
      exact hb.record v hv hvsid
    · obtain ⟨rfl, -⟩ := hb.starting i hst
      refine ⟨List.cons_ne_nil i [], hnum, ?_⟩
      intro j hj
      rw [List.mem_singleton.mp hj]
      exact AccountingRecordType.ne_stop_of_start ht
  starting := by
    intro k hk
    rcases starting_moved h hids hm hk with hold | ⟨rfl, msg, hpc, hs, hacr⟩
    · obtain ⟨rfl, hno⟩ := hb.starting k hold
      refine ⟨rfl, fun v' hv' hsid => ?_⟩
      rcases recorded_of_same h hsite hm hob hv' hsid with ⟨v, hv, hvsid, -⟩ | ⟨hst, -, -, hnot⟩
      · exact hno v hv hvsid
      · -- the thread that adds the session is the one that starts it, and it is through then
        have hki : k = i := List.singleton_inj.mp (hb.starting i hst).1
        exact hnot (hki ▸ hk)
    · -- a START that sends under `sid` obtains a number of it
      exfalso
      have hunsent : sentBy σ.trace k = [] := h.once.unsent k (by rw [hpc]; rfl)
      obtain ⟨hpc', rfl⟩ : pc' = .awaitAnswer msg ∧ es = [.send msg (acrSessionId env msg)] := by
        rw [hpc] at hm
        cases hm
        exact ⟨rfl, rfl⟩
      have hself : Obtains σ k sid msg.accountingRecordNumber := by
        rw [← hob, hpc', obtains_send hunsent]
        exact .inr ⟨rfl, hacr.symm, rfl⟩
      have hpath := (h.own k).onPath
      rw [hpc] at hpath
      have hfirst := hpath (AccountingRecordType.ne_interim_of_start hs)
        (AccountingRecordType.ne_stop_of_start hs)
      rw [obtains_at_send hunsent hpc, hfirst.1] at hself
      exact hne hself.1.symm
  stop := hb.stop

/-- A thread obtains the number after the record's. -/
theorem Book.append (hb : Book site type σ sid l) (hids : SessionIdsOk σ (i, env))
    (hm : Move P site env (σ.pc i) σ.shared pc' R' es) {v : Session}
    (hv : (σ.shared site.localStore).cell = some v) (hsid : v.sessionId = sid)
    (hout : (σ.pc i).outgoing = none) (hsent : sentBy σ.trace i = [])
    (hob : ∀ k n, Obtains (moved σ i pc' R' es) k sid n ↔
      Obtains σ k sid n ∨ k = i ∧ n = v.acctRecordNumber + 1)
    (hrec : ∀ v', (R' site.localStore).cell = some v' → v'.sessionId = sid →
      v'.acctRecordNumber = v.acctRecordNumber + 1 ∧ type i ≠ .stop) :
    Book site type (moved σ i pc' R' es) sid (l ++ [i]) := by
  obtain ⟨hl, hnum, hstop⟩ := hb.record v hv hsid
  have hnext : v.acctRecordNumber + 1 = UInt32.ofNat (l.length + 1) := by
    rw [hnum, UInt32.ofNat_add]
    rfl
  have hi : i ∉ l := by
    rw [hb.numbers.mem_iff]
    rintro ⟨n, hn⟩
    exact not_obtains hout hsent hn
  constructor
  · refine hb.numbers.concat hi fun k n => ?_
    rw [hob, hnext]
  · intro _
    obtain ⟨j, msg, hmem⟩ := hb.opened hl
    exact ⟨j, msg, sentBy_moved_mono hmem⟩
  · intro v' hv' hsid'
    obtain ⟨hnum', htype⟩ := hrec v' hv' hsid'
    refine ⟨by simp, ?_, ?_⟩
    · rw [hnum', hnext, List.length_append]
      rfl
    · intro j hj
      rcases List.mem_append.mp hj with hj | hj
      · exact hstop j hj
      · rw [List.mem_singleton.mp hj]
        exact htype
  · intro k hk
    rcases starting_moved h hids hm hk with hold | ⟨-, msg, hpc, -⟩
    · exact absurd hsid ((hb.starting k hold).2 v hv)
    · rw [hpc] at hout
      cases hout
  · intro j hj htype
    rcases List.mem_append.mp hj with hj | hj
    · exact absurd htype (hstop j hj)
    · rw [List.mem_singleton.mp hj, List.getLast?_concat]

/-- A START or an EVENT obtains the first number of a new session. -/
theorem Book.first (hb : Book site type σ sid l) (hids : SessionIdsOk σ (i, env))
    (hm : Move P site env (σ.pc i) σ.shared (.awaitAnswer msg) σ.shared [.send msg sid])
    (hpc : σ.pc i = .send msg) (hnew : sid = env.newSessionId)
    (hnum : msg.accountingRecordNumber = 1) :
    Book site type (moved σ i (.awaitAnswer msg) σ.shared [.send msg sid]) sid [i] := by
  have hl : l = [] := by
    by_contra hl
    obtain ⟨j, msg', hmem⟩ := hb.opened hl
    rw [hnew] at hmem
    exact hids.fresh j msg' hmem
  subst hl
  have hsent : sentBy σ.trace i = [] := h.once.unsent i (by rw [hpc]; rfl)
  have hno : ∀ v, (σ.shared site.localStore).cell = some v → v.sessionId ≠ sid := fun v hv hsid =>
    (hb.record v hv hsid).1 rfl
  constructor
  · refine .singleton fun k n => ?_
    have hnone : ¬ Obtains σ k sid n := by
      rw [hb.numbers.iff]
      simp
    rw [obtains_send hsent, hnum]
    simp only [hnone, and_false, false_or, true_and]
    exact and_congr_right fun _ => eq_comm
  · intro _
    exact ⟨i, msg, by rw [sentBy_moved_self, hsent]; exact List.mem_cons_self⟩
  · exact fun v hv hsid => absurd hsid (hno v hv)
  · intro k hk
    rcases starting_moved h hids hm hk with hold | ⟨rfl, -⟩
    · cases (hb.starting k hold).1
    · exact ⟨rfl, hno⟩
  · intro j hj _
    rw [List.mem_singleton.mp hj]
    rfl

theorem book_settle (hne : sid ≠ []) (hsite : site.remoteStores = [])
    (hids : SessionIdsOk σ (i, env)) (hm : Move P site env (σ.pc i) σ.shared pc' R' [])
    (hout : (σ.pc i).outgoing = none) (hout' : pc'.outgoing = some msg)
    (hset : Settles site σ.shared (σ.pc i) pc' msg) :
    ∃ l, Book site type (moved σ i pc' R' []) sid l := by
  obtain ⟨l, hb⟩ := h.book sid hne
  have hown := h.own i
  have hsent : sentBy σ.trace i = [] := h.once.unsent i hset.unsent
  have hother : msg.sessionId ≠ sid →
      ∀ k n, Obtains (moved σ i pc' R' []) k sid n ↔ Obtains σ k sid n := by
    intro hmsg k n
    rw [obtains_settle hsent hout hout']
    simp [hmsg]
  rcases hset.found hsite (h.sane.held i) hown.onPath with ⟨-, -, hnil⟩ | ⟨v, hv, hvsid, hnum⟩
  · exact ⟨l, hb.same h hne hsite hids hm (hother (hnil ▸ hne.symm))⟩
  · by_cases hsid : v.sessionId = sid
    · refine ⟨l ++ [i], hb.append h hids hm hv hsid hout hsent ?_ ?_⟩
      · intro k n
        rw [obtains_settle hsent hout hout', hnum]
        simp [hvsid.trans hsid, eq_comm]
      · intro v' hv' _
        have hmsg : msg.sessionId ≠ [] := by
          rw [hvsid]
          exact (h.record v hv).1
        obtain ⟨hnum', msg', hmsg', hi⟩ := hset.record hm hown.onPath hmsg hv'
        refine ⟨hnum'.trans hnum, ?_⟩
        rw [← hown.hasType msg' hmsg', hi]
        decide
    · exact ⟨l, hb.same h hne hsite hids hm (hother (hvsid ▸ hsid))⟩

theorem book_send (hne : sid ≠ []) (hsite : site.remoteStores = [])
    (hids : SessionIdsOk σ (i, env)) (hpc : σ.pc i = .send msg)
    (hm : Move P site env (σ.pc i) σ.shared (.awaitAnswer msg) σ.shared
      [.send msg (acrSessionId env msg)]) :
    ∃ l, Book site type (moved σ i (.awaitAnswer msg) σ.shared
      [.send msg (acrSessionId env msg)]) sid l := by
  obtain ⟨l, hb⟩ := h.book sid hne
  have hown := h.own i
  have hsent : sentBy σ.trace i = [] := h.once.unsent i (by rw [hpc]; rfl)
  have hsame : (acrSessionId env msg = sid ↔ msg.sessionId = sid) → ∀ k n,
      Obtains (moved σ i (.awaitAnswer msg) σ.shared [.send msg (acrSessionId env msg)]) k sid n ↔
        Obtains σ k sid n := by
    intro hacr k n
    rw [obtains_send hsent]
    by_cases hk : k = i
    · subst hk
      rw [obtains_at_send hsent hpc, hacr]
      simp
    · simp [hk]
  by_cases hkind : msg.recordType = .interim ∨ msg.recordType = .stop
  · have hnamed := (hown.named msg (by rw [hpc]; rfl) hkind).1
    refine ⟨l, hb.same h hne hsite hids hm (hsame ?_)⟩
    rw [acrSessionId, if_neg hnamed]
  · rw [not_or] at hkind
    have hpath := hown.onPath
    rw [hpc] at hpath
    obtain ⟨hnil, hnum⟩ := hpath hkind.1 hkind.2
    have hacr : acrSessionId env msg = env.newSessionId := if_pos hnil
    by_cases hnew : acrSessionId env msg = sid
    · subst hnew
      exact ⟨[i], hb.first h hids hm hpc hacr hnum⟩
    · refine ⟨l, hb.same h hne hsite hids hm (hsame ?_)⟩
      exact iff_of_false hnew (hnil ▸ hne.symm)

theorem book_moved (hne : sid ≠ []) (hsite : site.remoteStores = [])
    (hids : SessionIdsOk σ (i, env)) (hm : Move P site env (σ.pc i) σ.shared pc' R' es) :
    ∃ l, Book site type (moved σ i pc' R' es) sid l := by
  rcases hm.progress with ⟨hes, hout⟩ | ⟨rfl, hout, msg, hout', hset⟩ | ⟨msg, hpc, rfl, rfl, rfl⟩
  · obtain ⟨l, hb⟩ := h.book sid hne
    exact ⟨l, hb.same h hne hsite hids hm fun k n => obtains_quiet hes hout⟩
  · exact book_settle h hne hsite hids hm hout hout' hset
  · exact book_send h hne hsite hids hpc hm

theorem Booked.step (hsite : site.remoteStores = []) {a : κ × Env}
    (hok : StoresOk σ.shared.issued a.2) (hids : SessionIdsOk σ a) :
    Booked site type (regSysStep P (fun _ => site) a σ) := by
  have hsane := h.sane.step (P := P) hok
  have honce : SendsOnce (regSysStep P (fun _ => site) a σ) := h.once.step hok.1
  obtain ⟨pc', R', es, hm, heq⟩ := regSysStep_cases P (fun _ => site) a hok.1 σ
  rw [heq] at hsane honce ⊢
  refine ⟨hsane, honce, ?_, ?_, ?_⟩
  · intro k
    by_cases hk : k = a.1
    · subst hk
      exact ownNumber_self h hsite hids hm
    · exact ownNumber_of_ne h hk
  · exact fun v' hv' => record_moved h hsite hm hv'
  · exact fun sid hne => book_moved h hne hsite hids hm

/-- A STOP has a number of a proper session. -/
theorem properId_stop (htype : type i = .stop) (hob : Obtains σ i sid n) : ProperId sid := by
  have hown := h.own i
  rcases hob with ⟨msg, hmem, -⟩ | ⟨msg, hmsg, rfl, -⟩
  · exact (hown.sent msg sid hmem).1
  · refine hown.named msg hmsg (.inr ?_)
    rw [← htype]
    exact hasType_outgoing hown.hasType hmsg

/-- A STOP closes the book. -/
theorem Booked.closed (hsite : site.remoteStores = []) {a : κ × Env} (hup : a.2.Up)
    (hids : SessionIdsOk σ a) {j : κ} {n' : UInt32} (htype : type j = .stop)
    (hstop : Obtains σ j sid n') (hob : Obtains (regSysStep P (fun _ => site) a σ) k sid n) :
    Obtains σ k sid n := by
  have hne := (properId_stop h htype hstop).1
  obtain ⟨l, hb⟩ := h.book sid hne
  have hj : j ∈ l := hb.numbers.mem_iff.mpr ⟨n', hstop⟩
  obtain ⟨pc', R', es, hm, heq⟩ := regSysStep_cases P (fun _ => site) a hup σ
  rw [heq] at hob
  change Obtains (moved σ a.1 pc' R' es) k sid n at hob
  have hown := h.own a.1
  rcases hm.progress with ⟨hes, hout⟩ | ⟨rfl, hout, msg, hout', hset⟩ | ⟨msg, hpc, rfl, rfl, rfl⟩
  · exact (obtains_quiet hes hout).mp hob
  · rw [obtains_settle (h.once.unsent a.1 hset.unsent) hout hout'] at hob
    rcases hob with hold | ⟨-, hsid, -⟩
    · exact hold
    · -- the session's record is gone
      rcases hset.found hsite (h.sane.held a.1) hown.onPath with ⟨-, -, hnil⟩ | ⟨v, hv, hvsid, -⟩
      · exact absurd (hsid.symm.trans hnil) hne
      · exact absurd htype ((hb.record v hv (hvsid.symm.trans hsid)).2.2 j hj)
  · have hsent : sentBy σ.trace a.1 = [] := h.once.unsent a.1 (by rw [hpc]; rfl)
    rw [obtains_send hsent] at hob
    rcases hob with ⟨-, hold⟩ | ⟨rfl, hacr, hnum⟩
    · exact hold
    · rw [obtains_at_send hsent hpc]
      refine ⟨?_, hnum⟩
      by_contra hmsg
      have hnew : a.2.newSessionId = sid := by
        rw [← hacr]
        refine (if_pos ?_).symm
        by_contra hnil
        exact hmsg ((if_neg hnil).symm.trans hacr)
      obtain ⟨j', msg', hmem⟩ := hb.opened (List.ne_nil_of_mem hj)
      exact hids.fresh j' msg' (hnew ▸ hmem)

end Steps

end Pools

end Ralf
