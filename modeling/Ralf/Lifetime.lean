import Ralf.Handlers
import Ralf.Provenance
import Ralf.System

/-!
# How long a session is stored

The refresh time of a session comes from the Acct-Interim-Interval of its START, as a signed JSON
integer, and is stored, doubled and passed on as an expiry in 32 bits, signed and unsigned by turns.
`lifetime` says for which STARTs all of this is arithmetic: exactly for those that give an interval
from 1 to 2^30 - 1. Any other START is accepted as well, and its session is not live.
-/

namespace Ralf

open Bytes Runs

/-- The expiry the session is written with is positive, and twice its refresh time. -/
def Session.Lasting (sess : Session) : Prop :=
  0 < sess.expiry.toInt ∧ sess.expiry.toInt = 2 * sess.sessionRefreshTime.toNat

theorem Session.lasting_iff {sess : Session} : sess.Lasting ↔ sess.Live := by
  constructor
  · rintro ⟨hpos, heq⟩
    have hlt := sess.expiry.toInt_lt
    unfold Session.Live
    omega
  · intro h
    refine ⟨?_, h.toInt_expiry⟩
    rw [h.toInt_expiry]
    have hpos := h.1
    omega

section Property

variable (P : Platform) {κ : Type} [DecidableEq κ] (site : κ → Site) (key : Bytes)

/-- If the step calls `set_session_data` for the key, the expiry is as it should be, and a write
that succeeds is found by whoever reads next. -/
def WritesLast (σ : Sys κ) (a : κ × Env) : Prop :=
  ∀ s sess newSession k, next P (site a.1) (σ.pc a.1) = .set s key sess newSession k →
    sess.Lasting ∧
      ((setSessionData P (σ.shared s) (a.2.store s) key sess newSession).1 = .ok →
        ∀ e : StoreEnv, e.down = false →
          getSessionData P ((sysStep P site a σ).shared s) e key =
            .ok (some { sess.stored with cas := (a.2.store s).cas }))

/-- Every write of the session that the START makes is as it should be: in every run, in which there
may be any messages that are not another START of the same session, from stores that do not hold
it. -/
def Lasts (msg : Message) : Prop :=
  ∀ (κ : Type) [DecidableEq κ] (site : κ → Site) (msgs : κ → Message) (i : κ) (W : World)
    (as : List (κ × Env)), msgs i = msg →
    (∀ j, j ≠ i → (msgs j).key = msg.key → (msgs j).Later) →
    (∀ s, (W s).record msg.key = none) →
    Along (sysStep P site) (WritesLast P site msg.key) as (Sys.start msgs W)

end Property

/-! ## Every write -/

/-- The session is not the one stored under the key, or it has this refresh time. -/
def Session.Refreshes (key : Bytes) (r : UInt32) (key' : Bytes) (sess : Session) : Prop :=
  key' = key → sess.sessionRefreshTime = r

def Message.Refreshes (key : Bytes) (r : UInt32) (msg : Message) : Prop :=
  msg.key = key → msg.recordType = .start → msg.sessionRefreshTime = r

section Writes

variable {P : Platform} {key : Bytes} {r : UInt32}

theorem inherited_refreshes (key : Bytes) (r : UInt32) :
    Inherited (Session.Refreshes key r) (Message.Refreshes key r) where
  stored := fun _ _ _ h => h
  number := fun _ _ _ h => h
  timerId := fun _ _ _ h => h
  fillIn := by
    intro msg sess hmsg _ _ hstart
    have htype : msg.recordType = .start := hstart
    rcases hmsg with h | h
    · rw [h] at htype
      cases htype
    · rw [h] at htype
      cases htype
  first := fun _ h => h
  start := fun _ _ _ _ htype h hkey => h hkey htype

/-- What is written under the key can be read. -/
theorem getSessionData_of_written {st : Store} {env e : StoreEnv} {sess : Session}
    {newSession : Bool} (hlive : sess.Live)
    (hok : (setSessionData P st env key sess newSession).1 = .ok) (he : e.down = false) :
    getSessionData P (setSessionData P st env key sess newSession).2 e key =
      .ok (some { sess.stored with cas := env.cas }) := by
  have hput : (setSessionData P st env key sess newSession).2 =
      st.put env key (serializeSession P sess) sess.expiry := Store.setData_of_ok hok
  have hrec : (st.put env key (serializeSession P sess) sess.expiry).record key =
      some ⟨serializeSession P sess, env.cas⟩ := by
    simp [Store.put, hlive.expiry_pos]
  rw [hput, getSessionData_of_some hrec (serializeSession_ne_nil P sess)
    (deserializeSession_serializeSession P sess) he]

/-- All sessions under the key have the refresh time, in the stores and in the hands of threads. -/
structure RefreshesAll (P : Platform) (key : Bytes) (r : UInt32) {κ : Type} (σ : Sys κ) : Prop where
  stores : Stocked (Session.Refreshes key r) P σ.shared
  threads : ∀ i, (σ.pc i).Stocked (Session.Refreshes key r) (Message.Refreshes key r)

variable {κ : Type} [DecidableEq κ] {site : κ → Site} {σ : Sys κ}

theorem RefreshesAll.step (h : RefreshesAll P key r σ) (a : κ × Env) :
    RefreshesAll P key r (sysStep P site a σ) := by
  obtain ⟨hW, hpc⟩ := stocked_step (inherited_refreshes key r) h.stores (site a.1) a.2 (h.threads a.1)
  exact ⟨hW, (Function.forall_update_iff σ.pc fun _ pc => pc.Stocked _ _).mpr
    ⟨hpc, fun i _ => h.threads i⟩⟩

theorem RefreshesAll.writesLast (h : RefreshesAll P key r σ) (hr : 1 ≤ r.toNat ∧ r.toNat < 2 ^ 30)
    (a : κ × Env) : WritesLast P site key σ a := by
  intro s sess newSession k hnext
  have hstocked := stocked_next (inherited_refreshes key r) P (site a.1) (h.threads a.1)
  rw [hnext] at hstocked
  have hlive : sess.Live := by
    unfold Session.Live
    rw [hstocked.1 rfl]
    exact hr
  refine ⟨Session.lasting_iff.mpr hlive, fun hok e he => ?_⟩
  have hshared : (sysStep P site a σ).shared s =
      (setSessionData P (σ.shared s) (a.2.store s) key sess newSession).2 := by
    show (perform P a.2 σ.shared (next P (site a.1) (σ.pc a.1))).2.1 s = _
    rw [hnext]
    simp [perform]
  rw [hshared]
  exact getSessionData_of_written hlive hok he

end Writes

theorem lasts_of_refreshTime {P : Platform} {msg : Message}
    (hr : 1 ≤ msg.sessionRefreshTime.toNat ∧ msg.sessionRefreshTime.toNat < 2 ^ 30) :
    Lasts P msg := by
  intro κ _ site msgs i W as hi hother hW
  have hstart : RefreshesAll P msg.key msg.sessionRefreshTime (Sys.start msgs W) := by
    refine ⟨?_, ?_⟩
    · intro s e key sess hget hkey
      subst hkey
      have hnone : getSessionData P (W s) e msg.key = .ok none := getSessionData_of_none (hW s)
      cases hnone.symm.trans hget
    · intro j
      by_cases hj : j = i
      · refine .inr fun _ _ => ?_
        rw [hj, hi]
      · by_cases hkey : (msgs j).key = msg.key
        · exact .inl (hother j hj hkey)
        · exact .inr fun h => absurd h hkey
  refine Along.mono (fun σ a h => h.2.writesLast hr a)
    (Along.strengthen (fun σ a h (_ : True) => h.step a)
      (Along.of_forall (fun _ _ _ => trivial) _) hstart)

/-! ## A START without a usable interval -/

/-- The CCF accepts and gives no interval of its own. -/
def acceptedEnv : Env := (Input.answering 2001).env (Nat.succPNat 0)

theorem pc_sysStep {P : Platform} {κ : Type} [DecidableEq κ] {site : κ → Site} {i : κ} {env : Env}
    {σ : Sys κ} : (sysStep P site (i, env) σ).pc i = (step P (site i) env (σ.pc i) σ.shared).1 := by
  simp [sysStep, Pool.step]

/-- The START is handled, sent and answered, and its session written to the local store. -/
theorem refreshTime_of_lasts {P : Platform} {msg : Message} (hstart : msg.recordType = .start)
    (hinterval : msg.interimInterval = 0) (h : Lasts P msg) :
    1 ≤ msg.sessionRefreshTime.toNat ∧ msg.sessionRefreshTime.toNat < 2 ^ 30 := by
  obtain ⟨-, -, -, hwrite, -⟩ := h Unit (fun _ => oneStore) (fun _ => msg) () (fun _ => .empty)
    (List.replicate 4 ((), acceptedEnv)) rfl (fun j hj => absurd rfl hj) (fun _ => rfl)
  let first : Message := { msg with accountingRecordNumber := 1 }
  have hsend : ∀ W tr, (sysStep P (fun _ => oneStore) ((), acceptedEnv)
      ⟨fun _ => .handle msg, W, tr⟩).pc () = .send first := by
    intro W tr
    have hlater : (msg.recordType.isInterim || msg.recordType.isStop) = false := by
      rw [hstart]
      rfl
    rw [pc_sysStep]
    simp only [step, next, hlater]
    rfl
  have hanswer : onCcfResponse oneStore true 0 (ascii "sid") 2001 first =
      .writeSession { first with timerId := NO_TIMER }
        (startSession first msg.sessionRefreshTime (ascii "sid") NO_TIMER) [0] := by
    have hresolve : resolveInterval first 0 = msg.sessionRefreshTime := by
      unfold resolveInterval
      rw [if_pos rfl]
      exact if_pos hinterval
    have hi : first.recordType.isInterim = false := by
      show msg.recordType.isInterim = false
      rw [hstart]
      rfl
    have hs : first.recordType.isStart = true := AccountingRecordType.isStart_iff.mpr hstart
    unfold onCcfResponse
    simp only [hresolve, hi, hs]
    exact if_neg (UInt32.lt_irrefl msg.sessionRefreshTime)
  have hpc : (exec (sysStep P fun _ => oneStore) (List.replicate 3 ((), acceptedEnv))
      (Sys.start (fun _ => msg) fun _ => .empty)).pc () =
        .writeSession { first with timerId := NO_TIMER }
          (startSession first msg.sessionRefreshTime (ascii "sid") NO_TIMER) [0] := by
    simp only [List.replicate, exec]
    rw [pc_sysStep, pc_sysStep, Sys.start, hsend]
    exact hanswer
  have hlasting := (hwrite 0 (startSession first msg.sessionRefreshTime (ascii "sid") NO_TIMER)
    true _ (by dsimp only; exact congrArg (next P oneStore) hpc)).1
  exact Session.lasting_iff.mp hlasting

/-! ## Which STARTs -/

/-- The event of the body has an Acct-Interim-Interval from 1 to 2^30 - 1. -/
def GivesInterval (P : Platform) (reqbody : Bytes) : Prop :=
  ∃ body event n, P.parse (cStr reqbody) = some (.obj body) ∧
    objectMember body (ascii "event") = .ok event ∧
    intMember event (ascii "Acct-Interim-Interval") = .ok n ∧ 1 ≤ n.toInt ∧ n.toInt < 2 ^ 30

theorem toNat_toUInt32 {n : Int32} :
    (1 ≤ n.toInt ∧ n.toInt < 2 ^ 30) ↔ 1 ≤ n.toUInt32.toNat ∧ n.toUInt32.toNat < 2 ^ 30 := by
  have hlt := n.toUInt32.toNat_lt
  rw [toInt_eq_bmod, Int.bmod]
  omega

theorem givesInterval_iff {P : Platform} {reqbody : Bytes} {body event : List (Bytes × Json)}
    (hbody : P.parse (cStr reqbody) = some (.obj body))
    (hevent : objectMember body (ascii "event") = .ok event) :
    GivesInterval P reqbody ↔
      1 ≤ (acctInterimInterval event).toNat ∧ (acctInterimInterval event).toNat < 2 ^ 30 := by
  unfold acctInterimInterval
  constructor
  · rintro ⟨body', event', n, hbody', hevent', hn, hrange⟩
    cases hbody.symm.trans hbody'
    cases hevent.symm.trans hevent'
    rw [hn]
    exact toNat_toUInt32.mp hrange
  · intro hrange
    cases hn : intMember event (ascii "Acct-Interim-Interval") with
    | error e =>
      rw [hn] at hrange
      exact absurd hrange.1 (by show ¬ 1 ≤ (0 : UInt32).toNat; decide)
    | ok n =>
      rw [hn] at hrange
      exact ⟨body, event, n, hbody, hevent, hn, toNat_toUInt32.mpr hrange⟩

/-- **Record lifetime.** Every START body that is accepted: the writes of its session, by the START
and by later INTERIMs, have a positive expiry that is twice the refresh time, and are found by the
messages that follow, exactly if the body gives an interval from 1 to 2^30 - 1. -/
theorem lifetime {P : Platform} {callId body : Bytes} {timerInterim : Bool} {msg : Message}
    (hmsg : parseBody P callId timerInterim body = .ok (some msg))
    (hstart : msg.recordType = .start) : Lasts P msg ↔ GivesInterval P body := by
  obtain ⟨doc, event, role, function, type, ccfs, hdoc, hevent, -, -, hnew⟩ := parseBody_ok hmsg
  have hrefresh : msg.sessionRefreshTime = acctInterimInterval event := by
    rw [hnew]
    rfl
  have hinterval : msg.interimInterval = 0 := by
    rw [hnew]
    rfl
  rw [givesInterval_iff hdoc hevent, ← hrefresh]
  exact ⟨refreshTime_of_lasts hstart hinterval, lasts_of_refreshTime⟩

/-- A START with an interval of five minutes. -/
theorem lifetime_fiveMinutes :
    parseBody compactPlatform (ascii "call") false (startBody compactPlatform 300) =
        .ok (some (startMessage 300)) ∧ Lasts compactPlatform (startMessage 300) := by
  have hmsg := parseBody_startBody compactPlatform 300
  refine ⟨hmsg, (lifetime hmsg rfl).mpr ?_⟩
  obtain ⟨doc, event, role, function, type, ccfs, hdoc, hevent, -, -, hnew⟩ := parseBody_ok hmsg
  rw [givesInterval_iff hdoc hevent]
  have hrefresh : acctInterimInterval event = 300 := (congrArg Message.sessionRefreshTime hnew).symm
  rw [hrefresh]
  decide

/-- With an interval of 2^30 seconds the expiry is negative. -/
theorem lifetime_overflows :
    parseBody compactPlatform (ascii "call") false (startBody compactPlatform 1073741824) =
        .ok (some (startMessage 1073741824)) ∧
      ¬ Lasts compactPlatform (startMessage 1073741824) := by
  refine ⟨parseBody_startBody compactPlatform 1073741824, fun h => ?_⟩
  have hrange := (refreshTime_of_lasts rfl rfl h).2
  revert hrange
  decide

end Ralf
