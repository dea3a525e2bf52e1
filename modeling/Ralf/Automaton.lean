import Ralf.Sequential

/-!
# The session automaton

What Ralf is for, seen from one call: a session is idle or active, and each message makes one
transition and sends at most one ACR. Messages that are processed one after another, with whatever
answers, make the stores of a site follow this automaton: every store shows the same state
(`Shows`), and the ACRs are the automaton's (`session_automaton`).
-/

namespace Ralf

open Bytes Versioned Runs

/-! ## The automaton -/

/-- A session that is being accounted for. -/
structure ActiveSession where
  /-- The number of its last ACR. -/
  number : ℕ
  sessionId : Bytes
  ccfs : List Bytes
  refreshTime : UInt32
  interimInterval : UInt32

inductive SessionState where
  | idle
  | active (s : ActiveSession)

/-- What the CCF sees of an ACR. -/
structure Acr where
  recordType : AccountingRecordType
  number : UInt32
  ccfs : List Bytes
  sessionId : Bytes
  deriving DecidableEq

def Message.acr (msg : Message) : Acr where
  recordType := msg.recordType
  number := msg.accountingRecordNumber
  ccfs := msg.ccfs
  sessionId := msg.sessionId

/-- The ACR of a START or an EVENT. -/
def Message.firstAcr (msg : Message) : Acr := { msg.acr with number := 1 }

/-- The ACR of an INTERIM or a STOP in an active session. -/
def ActiveSession.nextAcr (s : ActiveSession) (type : AccountingRecordType) : Acr where
  recordType := type
  number := UInt32.ofNat (s.number + 1)
  ccfs := s.ccfs
  sessionId := s.sessionId

/-- The session an accepted START opens. -/
def ActiveSession.opened (msg : Message) (a : Answer) : ActiveSession where
  number := 1
  sessionId := a.sessionId
  ccfs := msg.ccfs
  refreshTime := msg.sessionRefreshTime
  interimInterval := resolveInterval msg a.interimInterval

/-- A session is opened where there is none. -/
def SessionState.opening (st : SessionState) (d : ActiveSession) : SessionState :=
  match st with
  | .idle => .active d
  | .active s => .active s

/-- One message, with its answer. -/
def SessionState.step (st : SessionState) (x : Message × Answer) : SessionState × List Acr :=
  let (msg, a) := x
  if msg.recordType.isInterim then
    match st with
    | .idle => (.idle, [])
    | .active s =>
      (if a.rc = 5002 then .idle else .active { s with number := s.number + 1 },
        [s.nextAcr msg.recordType])
  else if msg.recordType.isStop then
    match st with
    | .idle => (.idle, [])
    | .active s => (.idle, [s.nextAcr msg.recordType])
  else if msg.recordType.isStart then
    (if a.accepted then st.opening (.opened msg a) else st, [msg.firstAcr])
  else (st, [msg.firstAcr])

/-! ## What the stores show -/

/-- A stored session is this active session. -/
structure Session.Of (sess : Session) (s : ActiveSession) : Prop where
  sessionId : sess.sessionId = s.sessionId
  ccf : sess.ccf = s.ccfs
  number : sess.acctRecordNumber = UInt32.ofNat s.number
  refreshTime : sess.sessionRefreshTime = s.refreshTime
  interimInterval : sess.interimInterval = s.interimInterval

/-- The session does not expire, and its strings survive the store. -/
structure ActiveSession.Lasting (d : ActiveSession) : Prop where
  refresh_pos : 1 ≤ d.refreshTime.toNat
  refresh_lt : d.refreshTime.toNat < 2 ^ 30
  sessionId : NulFree d.sessionId
  ccfs : ∀ c ∈ d.ccfs, NulFree c

/-- Every store of the site shows the state. -/
def Shows (P : Platform) (site : Site) (key : Bytes) (W : World) : SessionState → Prop
  | .idle => ∀ s ∈ site.stores, (W s).record key = none
  | .active d => ∀ s ∈ site.stores, ∃ sess, view P (W s) key = some sess ∧ sess.Of d

/-- The same on registers, for sessions that last. -/
def Carries (site : Site) (R : Regs) : SessionState → Prop
  | .idle => ∀ s ∈ site.stores, (R s).cell = none
  | .active d => d.Lasting ∧ ∀ s ∈ site.stores, ∃ sess, (R s).cell = some sess ∧ sess.Of d

theorem shows_of_carries {P : Platform} {site : Site} {key : Bytes} {W : World}
    (hW : ReadableAll P key W) {st : SessionState} (h : Carries site (regs P key W) st) :
    Shows P site key W st := by
  cases st with
  | idle => exact fun s hs => record_of_view_none (hW s) (h s hs)
  | active d => exact h.2

section Steps

variable {site : Site} {R R' : Regs} {d : ActiveSession} {sess : Session} {st : SessionState}

theorem Session.Of.incremented (h : sess.Of d) :
    sess.incremented.Of { d with number := d.number + 1 } where
  sessionId := h.sessionId
  ccf := h.ccf
  number := by
    show sess.acctRecordNumber + 1 = UInt32.ofNat (d.number + 1)
    rw [h.number, UInt32.ofNat_add]
    rfl
  refreshTime := h.refreshTime
  interimInterval := h.interimInterval

/-- A lasting session is written as it is. -/
theorem Session.Of.written (h : sess.Of d) (hd : d.Lasting) (c : ℕ+) :
    ∃ v, sess.written c = some v ∧ v.Of d := by
  have hlive : sess.Live := by
    unfold Session.Live
    rw [h.refreshTime]
    exact ⟨hd.refresh_pos, hd.refresh_lt⟩
  refine ⟨{ sess.stored with cas := c }, if_pos hlive.expiry_pos, ?_, ?_, h.number, h.refreshTime,
    h.interimInterval⟩
  · show cStr sess.sessionId = d.sessionId
    rw [h.sessionId, cStr_of_nulFree hd.sessionId]
  · show sess.ccf.map cStr = d.ccfs
    rw [h.ccf]
    exact (List.map_congr_left fun c hc => cStr_of_nulFree (hd.ccfs c hc)).trans (List.map_id _)

theorem Carries.find_idle (h : Carries site R .idle) : R.find site.stores = none :=
  List.findSome?_eq_none_iff.mpr h

theorem Carries.find_active (h : Carries site R (.active d)) :
    ∃ f, (R site.localStore).cell = some f ∧ R.find site.stores = some f ∧ f.Of d := by
  obtain ⟨f, hf, hof⟩ := h.2 site.localStore List.mem_cons_self
  exact ⟨f, hf, find_stores_of_some hf, hof⟩

/-- The local store shows whether there is a session at all. -/
theorem Carries.find_of_local (h : Carries site R st) (hnone : (R site.localStore).cell = none) :
    R.find site.stores = none := by
  cases st with
  | idle => exact h.find_idle
  | active d =>
    obtain ⟨f, hf, -, -⟩ := h.find_active
    rw [hnone] at hf
    cases hf

theorem Carries.gone (h : Effect gone site.stores R R') : Carries site R' .idle := by
  intro s hs
  obtain ⟨c, hc⟩ := h.cell s hs
  exact hc

theorem Carries.counted (h : Carries site R (.active d))
    (heff : Effect (counted sess) site.stores R R') :
    Carries site R' (.active { d with number := d.number + 1 }) := by
  have hlast : ActiveSession.Lasting { d with number := d.number + 1 } :=
    ⟨h.1.refresh_pos, h.1.refresh_lt, h.1.sessionId, h.1.ccfs⟩
  refine ⟨hlast, fun s hs => ?_⟩
  obtain ⟨v, hv, hof⟩ := h.2 s hs
  obtain ⟨c, hc⟩ := heff.cell s hs
  rw [hc, hv]
  exact hof.incremented.written hlast c

theorem Carries.retimed {timerId : Bytes} (h : Carries site R (.active d))
    (heff : Effect (retimed timerId) site.stores R R') : Carries site R' (.active d) := by
  refine ⟨h.1, fun s hs => ?_⟩
  obtain ⟨v, hv, hof⟩ := h.2 s hs
  obtain ⟨c, hc⟩ := heff.cell s hs
  rw [hc, hv]
  have hof' : ({ v with timerId := timerId } : Session).Of d :=
    ⟨hof.sessionId, hof.ccf, hof.number, hof.refreshTime, hof.interimInterval⟩
  exact hof'.written h.1 c

/-- A START adds its session to idle stores and changes nothing in active ones. -/
theorem Carries.added (h : Carries site R st) (hof : sess.Of d) (hd : d.Lasting)
    (heff : Effect (added sess) site.stores R R') :
    Carries site R' (st.opening d) := by
  cases st with
  | idle =>
    refine ⟨hd, fun s hs => ?_⟩
    obtain ⟨c, hc⟩ := heff.cell s hs
    rw [hc, h s hs]
    exact hof.written hd c
  | active e =>
    refine ⟨h.1, fun s hs => ?_⟩
    obtain ⟨v, hv, hofv⟩ := h.2 s hs
    obtain ⟨c, hc⟩ := heff.cell s hs
    rw [hc, hv]
    exact ⟨v, rfl, hofv⟩

/-- What is assumed of a message and its answer: the message is of the key, and a START opens a
session that lasts. -/
structure Admissible (key : Bytes) (x : Message × Answer) : Prop where
  key : x.1.key = key
  lasting : x.1.recordType = .start → (ActiveSession.opened x.1 x.2).Lasting

variable {key : Bytes} {msg : Message} {a : Answer} {out : List Message}

theorem step_interim (hi : msg.recordType = .interim) :
    st.step (msg, a) = match st with
      | .idle => (.idle, [])
      | .active s => (if a.rc = 5002 then .idle else .active { s with number := s.number + 1 },
          [s.nextAcr msg.recordType]) := by
  simp [SessionState.step, AccountingRecordType.isInterim_iff.mpr hi]

theorem step_stop (hs : msg.recordType = .stop) :
    st.step (msg, a) = match st with
      | .idle => (.idle, [])
      | .active s => (.idle, [s.nextAcr msg.recordType]) := by
  have hni : msg.recordType.isInterim = false := by rw [hs]; rfl
  simp [SessionState.step, AccountingRecordType.isStop_iff.mpr hs, hni]

/-- What is left of a message that is neither an INTERIM nor a STOP. -/
theorem step_first (hi : msg.recordType ≠ .interim) (hs : msg.recordType ≠ .stop) :
    st.step (msg, a) =
      (if msg.recordType = .start ∧ a.accepted = true then st.opening (.opened msg a) else st,
        [msg.firstAcr]) := by
  have hni : msg.recordType.isInterim = false := by
    rw [Bool.eq_false_iff]
    exact fun h => hi (AccountingRecordType.isInterim_iff.mp h)
  have hns : msg.recordType.isStop = false := by
    rw [Bool.eq_false_iff]
    exact fun h => hs (AccountingRecordType.isStop_iff.mp h)
  unfold SessionState.step
  simp only [hni, hns, Bool.false_eq_true, if_false, AccountingRecordType.isStart_iff, ite_and]
  split_ifs <;> rfl

theorem acr_fillIn {f : Session} (hof : f.Of d) :
    (fillIn msg f.incremented).acr = d.nextAcr msg.recordType := by
  have h := hof.incremented
  simp only [Message.acr, fillIn, ActiveSession.nextAcr, Acr.mk.injEq, true_and]
  exact ⟨h.number, h.ccf, h.sessionId⟩

/-- The answer to an INTERIM. -/
theorem Carries.answered_interim (h : Carries site R (.active d)) (hi : msg.recordType = .interim)
    (hans : Answered site a msg R R') :
    Carries site R' (if a.rc = 5002 then .idle else .active d) := by
  cases hans with
  | unknown _ hrc heff =>
    rw [if_pos hrc]
    exact .gone heff
  | retimed _ hrc heff =>
    rw [if_neg hrc]
    exact h.retimed heff
  | created hs => cases hi.symm.trans hs
  | kept hrc =>
    rw [if_neg (hrc hi)]
    exact h

/-- The answer to a START or an EVENT. -/
theorem Carries.answered_first (h : Carries site R st) (hx : Admissible key (msg, a))
    (hi : msg.recordType ≠ .interim)
    (hans : Answered site a { msg with accountingRecordNumber := 1 } R R') :
    Carries site R'
      (if msg.recordType = .start ∧ a.accepted = true then st.opening (.opened msg a) else st) := by
  cases hans with
  | unknown hi' => exact absurd hi' hi
  | retimed hi' => exact absurd hi' hi
  | created hs hacc heff =>
    rw [if_pos ⟨hs, hacc⟩]
    exact h.added (d := .opened msg a) ⟨rfl, rfl, rfl, rfl, rfl⟩ (hx.lasting hs) heff
  | kept _ hacc =>
    rw [if_neg]
    · exact h
    · rintro ⟨hs, htrue⟩
      rw [hacc hs] at htrue
      cases htrue

/-- The simulation: one message, one transition. -/
theorem Carries.step (h : Carries site R st) (hx : Admissible key (msg, a))
    (hproc : Processed site a msg R R' out) :
    Carries site R' (st.step (msg, a)).1 ∧ out.map Message.acr = (st.step (msg, a)).2 := by
  cases hproc with
  | ignored htype hnone =>
    cases st with
    | active d =>
      obtain ⟨f, -, hf, -⟩ := h.find_active
      rw [hnone] at hf
      cases hf
    | idle =>
      rcases htype with hi | hs
      · rw [step_interim hi]
        exact ⟨h, rfl⟩
      · rw [step_stop hs]
        exact ⟨h, rfl⟩
  | interim hi hsome heff hans =>
    cases st with
    | idle =>
      rw [h.find_idle] at hsome
      cases hsome
    | active d =>
      obtain ⟨f, -, hf, hof⟩ := h.find_active
      rw [hf] at hsome
      cases hsome
      rw [step_interim hi]
      refine ⟨(h.counted heff).answered_interim ?_ hans, congrArg (fun x => [x]) (acr_fillIn hof)⟩
      exact hi
  | stop hs hlocal heff hans =>
    cases st with
    | idle =>
      rw [h site.localStore List.mem_cons_self] at hlocal
      cases hlocal
    | active d =>
      obtain ⟨f, hf, -, hof⟩ := h.find_active
      rw [hf] at hlocal
      cases hlocal
      rw [step_stop hs]
      refine ⟨?_, congrArg (fun x => [x]) (acr_fillIn hof)⟩
      cases hans with
      | unknown hi => cases hs.symm.trans hi
      | retimed hi => cases hs.symm.trans hi
      | created hst => cases hs.symm.trans hst
      | kept => exact .gone heff
  | first hi hs hans =>
    rw [step_first hi hs]
    exact ⟨h.answered_first hx hi hans, rfl⟩

end Steps

/-! ## Runs -/

section Runs

variable {P : Platform} {site : Site} {key : Bytes} {W W₀ : World}

/-- The stores can be read, and carry the state. -/
def Simulates (P : Platform) (site : Site) (key : Bytes) (W : World) (st : SessionState) : Prop :=
  ReadableAll P key W ∧ Carries site (regs P key W) st

theorem simulates_idle (hempty : ∀ s, (W s).record key = none) :
    Simulates P site key W .idle :=
  ⟨fun s => readable_of_none (hempty s), fun s _ => view_of_none (hempty s)⟩

theorem Simulates.step {st : SessionState} (h : Simulates P site key W st) {x : Message × Answer}
    (hx : Admissible key x) {out : List Message} {W' : World}
    (hstep : Completes P site W x out W') :
    Simulates P site key W' (st.step x).1 ∧ out.map Message.acr = (st.step x).2 := by
  have hproc := processed_of_completes hx.key h.1 (fun _ => h.2.find_of_local) hstep
  obtain ⟨hcarries, hout⟩ := h.2.step hx hproc
  exact ⟨⟨readable_of_completes hx.key h.1 hstep, hcarries⟩, hout⟩

/-- There is a run for every list of messages. -/
theorem Simulates.exists_trace {st : SessionState} (h : Simulates P site key W st)
    {xs : List (Message × Answer)} (hxs : ∀ x ∈ xs, Admissible key x) :
    ∃ ys W', ys.map Prod.fst = xs ∧ Trace (Completes P site) W ys W' := by
  induction xs generalizing W st with
  | nil => exact ⟨[], W, rfl, .nil⟩
  | cons x xs ih =>
    have hx := hxs x List.mem_cons_self
    obtain ⟨out, W₁, hstep⟩ := exists_completes hx.key h.1 (fun _ => h.2.find_of_local) x.2
    obtain ⟨ys, W', hys, htrace⟩ :=
      ih (h.step hx hstep).1 fun y hy => hxs y (List.mem_cons_of_mem x hy)
    exact ⟨(x, out) :: ys, W', congrArg (x :: ·) hys, .cons hstep htrace⟩

/-- **The session automaton.** Messages of one key are processed to completion one after another,
from stores without the key. At any point, the stores show the state of the automaton, the ACRs sent
are the automaton's, and whatever message comes next is processed to completion. -/
theorem session_automaton (hempty : ∀ s, (W₀ s).record key = none)
    {xs : List ((Message × Answer) × List Message)} (hxs : ∀ x ∈ xs, Admissible key x.1)
    (hrun : Trace (Completes P site) W₀ xs W) :
    Shows P site key W (transduce SessionState.step .idle (xs.map Prod.fst)).1 ∧
      xs.map (fun x => x.2.map Message.acr) =
        (transduce SessionState.step .idle (xs.map Prod.fst)).2 ∧
      ∀ x, Admissible key x → ∀ f : ℕ → Env, (∀ n, (f n).Up ∧ (f n).answer = x.2) →
        ∃ n, (stateAt (threadStep P site) f (Thread.start x.1 W) n).pc = .done := by
  obtain ⟨hend, hout⟩ := hrun.simulates (S := Simulates P site key) (g := List.map Message.acr)
    (fun _ _ _ _ _ hS hx hstep => hS.step hx hstep) (simulates_idle hempty) hxs
  refine ⟨shows_of_carries hend.1 hend.2, hout, fun x hx f hf => ?_⟩
  exact completes hx.key hend.1 (fun _ => hend.2.find_of_local) hf

/-- A call that is started, updated and stopped, with its answers. -/
def sampleCall : List (Message × Answer) :=
  [({ sampleMessage .start with ccfs := [ascii "ccf"] }, ⟨0, ascii "sid", 2001⟩),
    (sampleMessage .interim, ⟨0, ascii "sid", 3004⟩), (sampleMessage .stop, ⟨0, ascii "sid", 2001⟩)]

theorem session_automaton_sampleCall :
    ∃ ys W, ys.map Prod.fst = sampleCall ∧
      Trace (Completes compactPlatform localAndRemote) (fun _ => Store.empty) ys W ∧
      (W 0).record sampleKey = none ∧ (W 1).record sampleKey = none ∧
      ys.map (fun x => x.2.map Message.acr) =
        [[⟨.start, 1, [ascii "ccf"], []⟩], [⟨.interim, 2, [ascii "ccf"], ascii "sid"⟩],
          [⟨.stop, 3, [ascii "ccf"], ascii "sid"⟩]] := by
  have hcall : ∀ x ∈ sampleCall, Admissible sampleKey x := by
    intro x hx
    simp only [sampleCall, List.mem_cons, List.not_mem_nil, or_false] at hx
    rcases hx with rfl | rfl | rfl
    all_goals exact ⟨rfl, fun _ => ⟨by decide, by decide, by decide, by decide⟩⟩
  have hstart : Simulates compactPlatform localAndRemote sampleKey (fun _ => Store.empty)
      .idle := simulates_idle fun _ => rfl
  obtain ⟨ys, W, hys, htrace⟩ := hstart.exists_trace hcall
  have hin : ∀ y ∈ ys, Admissible sampleKey y.1 := fun y hy =>
    hcall y.1 (by rw [← hys]; exact List.mem_map_of_mem hy)
  obtain ⟨hshows, hout, -⟩ := session_automaton (fun _ => rfl) hin htrace
  rw [hys] at hshows hout
  refine ⟨ys, W, hys, htrace, ?_, ?_, hout.trans (by decide)⟩
  · exact hshows 0 (by decide)
  · exact hshows 1 (by decide)

end Runs

end Ralf
