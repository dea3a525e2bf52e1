import Ralf.Protocol
import Ralf.Termination
import Ralf.TimerPops

/-!
# How far record numbers go

The number of an ACR is a 32-bit counter in the session. Retries, a session that is found in another
store and put back, and writes that fail half-way all touch it, and the stores of a call can come to
disagree. What bounds the numbers is that an INTERIM counts at most once in each store of its site
(`Pc.countsLeft`): whatever is in a store or on its way there is no larger than what the stores
started with and what has been counted since. So in any run, from any stores, with any failures, the
numbers of a call stay within the INTERIMs of the call times their stores (`numbers_bounded`); as long
as this is a 32-bit number, no counter wraps around, and no INTERIM or STOP is sent with the number of
a START.
-/

namespace Ralf

open Bytes Runs

/-! ## Numbers -/

/-- A session under the key has a number from `lo` to `hi`. -/
def Session.InRange (key : Bytes) (lo hi : ℕ) (k : Bytes) (sess : Session) : Prop :=
  k = key → lo ≤ sess.acctRecordNumber.toNat ∧ sess.acctRecordNumber.toNat ≤ hi

/-- The numbers a message can be sent with, when those in the stores go up to `hi`. A STOP takes the
next number and does not write it. -/
structure Message.InRange (hi : ℕ) (msg : Message) : Prop where
  first : ¬msg.Later → msg.accountingRecordNumber = 1
  interim : msg.recordType = .interim →
    2 ≤ msg.accountingRecordNumber.toNat ∧ msg.accountingRecordNumber.toNat ≤ hi
  stop : msg.recordType = .stop →
    2 ≤ msg.accountingRecordNumber.toNat ∧ msg.accountingRecordNumber.toNat ≤ hi + 1

section Numbers

variable {key k : Bytes} {lo lo' hi hi' : ℕ} {sess : Session}

theorem Session.InRange.mono (h : sess.InRange key lo hi k) (hlo : lo' ≤ lo) (hhi : hi ≤ hi') :
    sess.InRange key lo' hi' k := by
  intro hk
  obtain ⟨h1, h2⟩ := h hk
  exact ⟨hlo.trans h1, h2.trans hhi⟩

/-- The number that is taken next. -/
theorem inRange_incremented (h : sess.InRange key lo hi k) (hfit : hi + 1 < 2 ^ 32) :
    ({ sess with acctRecordNumber := sess.acctRecordNumber + 1 } : Session).InRange
      key (lo + 1) (hi + 1) k := by
  intro hk
  obtain ⟨h1, h2⟩ := h hk
  show lo + 1 ≤ (sess.acctRecordNumber + 1).toNat ∧ (sess.acctRecordNumber + 1).toNat ≤ hi + 1
  rw [UInt32.toNat_add, UInt32.toNat_one, Nat.mod_eq_of_lt (by omega)]
  exact ⟨Nat.succ_le_succ h1, Nat.succ_le_succ h2⟩

theorem Message.InRange.mono {msg : Message} (h : msg.InRange hi) (hhi : hi ≤ hi') :
    msg.InRange hi' where
  first := h.first
  interim := fun ht => ⟨(h.interim ht).1, (h.interim ht).2.trans hhi⟩
  stop := fun ht => ⟨(h.stop ht).1, (h.stop ht).2.trans (Nat.succ_le_succ hhi)⟩

theorem inRange_first (msg : Message) (hmsg : ¬msg.Later) : msg.first.InRange hi where
  first := fun _ => rfl
  interim := fun ht => absurd (.inl ht) hmsg
  stop := fun ht => absurd (.inr ht) hmsg

theorem inRange_fillIn_interim {msg : Message} (hmsg : msg.recordType = .interim)
    (h : sess.InRange key 2 hi msg.key) (hkey : msg.key = key) : (fillIn msg sess).InRange hi where
  first := fun hnot => absurd (.inl hmsg) hnot
  interim := fun _ => h hkey
  stop := fun ht => absurd ht (AccountingRecordType.ne_stop_of_interim hmsg)

theorem inRange_fillIn_stop {msg : Message} (hmsg : msg.recordType = .stop)
    (h : sess.InRange key 2 (hi + 1) msg.key) (hkey : msg.key = key) :
    (fillIn msg sess).InRange hi where
  first := fun hnot => absurd (.inr hmsg) hnot
  interim := fun ht => absurd ht (AccountingRecordType.ne_interim_of_stop hmsg)
  stop := fun _ => h hkey

end Numbers

/-! ## Threads -/

/-- In how many stores the thread may still count under the key. -/
def Pc.countsLeft (site : Site) (key : Bytes) : Pc → ℕ
  | .handle msg => if msg.recordType = .interim ∧ msg.key = key then site.stores.length else 0
  | .tryRemotes msg _ =>
    if msg.recordType = .interim ∧ msg.key = key then site.stores.length else 0
  | .updateLocal msg _ _ => if msg.key = key then site.stores.length else 0
  | .readRemotes msg _ rest => if msg.key = key then rest.length else 0
  | .updateRemote msg _ _ rest _ _ => if msg.key = key then rest.length + 1 else 0
  | _ => 0

/-- The numbers in the hands of a thread, when those in the stores go up to `N`. What is written
next may be one more. -/
def Pc.Ranges (key : Bytes) (N : ℕ) : Pc → Prop
  | .tryRemotes msg _ => msg.Later
  | .updateLocal msg sess _ => msg.recordType = .interim ∧ sess.InRange key 2 (N + 1) msg.key
  | .readRemotes msg sess _ => msg.recordType = .interim ∧ sess.InRange key 2 N msg.key
  | .updateRemote msg sess _ _ remoteSess _ =>
    msg.recordType = .interim ∧ sess.InRange key 2 N msg.key ∧
      remoteSess.InRange key 2 (N + 1) msg.key
  | .deleteLocal msg sess => msg.recordType = .stop ∧ sess.InRange key 2 (N + 1) msg.key
  | .deleteRemotes msg sess _ => msg.recordType = .stop ∧ sess.InRange key 2 (N + 1) msg.key
  | .send msg => msg.key = key → msg.InRange N
  | .awaitAnswer _ => False
  | .createTimer msg _ _ => msg.key = key → msg.accountingRecordNumber = 1
  | .writeSession msg sess _ => sess.InRange key 1 1 msg.key
  | .writeTimerId msg _ _ _ sess _ => sess.InRange key 1 N msg.key
  | _ => True

/-- The thread goes on with at most `L` stores to count in, `d` of which it has just counted in. -/
def Pc.Fits (site : Site) (key : Bytes) (N L d : ℕ) (pc : Pc) : Prop :=
  pc.countsLeft site key + d ≤ L ∧ pc.Ranges key (N + d)

/-- What follows the call fits, and what it writes has been counted. Contention writes nothing. -/
def Action.Fits (site : Site) (key : Bytes) (N L : ℕ) : Action → Prop
  | .get _ k pc => (pc none).Fits site key N L 0 ∧
      ∀ sess, sess.InRange key 1 N k → (pc (some sess)).Fits site key N L 0
  | .set _ k sess _ pc => (pc .dataContention).Fits site key N L 0 ∧
      ∀ rc, rc ≠ .dataContention →
        ∃ d, (pc rc).Fits site key N L d ∧ sess.InRange key 1 (N + d) k
  | .casDelete _ _ _ pc => ∀ rc, (pc rc).Fits site key N L 0
  | .delete _ _ pc => ∀ rc, (pc rc).Fits site key N L 0
  | .timer _ pc => ∀ id, (pc id).Fits site key N L 0
  | .send _ _ => False
  | .answer _ => False
  | .healthCheckPassed pc => pc.Fits site key N L 0
  | .goto pc => pc.Fits site key N L 0

section Threads

variable {P : Platform} {site : Site} {key : Bytes} {N N' L : ℕ} {pc : Pc} {W : World}
  {msg : Message} {sess : Session}

theorem Pc.Ranges.mono (h : pc.Ranges key N) (hN : N ≤ N') : pc.Ranges key N' := by
  cases pc with
  | updateLocal msg sess newSession => exact ⟨h.1, h.2.mono le_rfl (Nat.succ_le_succ hN)⟩
  | readRemotes msg sess rest => exact ⟨h.1, h.2.mono le_rfl hN⟩
  | updateRemote msg sess s rest remoteSess newSession =>
    exact ⟨h.1, h.2.1.mono le_rfl hN, h.2.2.mono le_rfl (Nat.succ_le_succ hN)⟩
  | deleteLocal msg sess => exact ⟨h.1, h.2.mono le_rfl (Nat.succ_le_succ hN)⟩
  | deleteRemotes msg sess rest => exact ⟨h.1, h.2.mono le_rfl (Nat.succ_le_succ hN)⟩
  | send msg => exact fun hkey => (h hkey).mono hN
  | writeTimerId msg timerId s rest sess accepted => exact Session.InRange.mono h le_rfl hN
  | _ => exact h

theorem fits_found (hfit : N + 1 < 2 ^ 32) (hmsg : msg.Later) (hsess : sess.InRange key 1 N msg.key)
    (newSession : Bool) (hL : (Pc.tryRemotes msg []).countsLeft site key ≤ L) :
    (found msg sess newSession).Fits site key N L 0 := by
  have hnext := inRange_incremented hsess hfit
  unfold found
  dsimp only
  split_ifs with hi
  · have hinterim := AccountingRecordType.isInterim_iff.mp hi
    refine ⟨?_, hinterim, hnext⟩
    simpa only [Pc.countsLeft, hinterim, true_and, Nat.add_zero] using hL
  · exact ⟨Nat.zero_le L, stop_of_later hmsg hi, hnext⟩

variable (site L) in
theorem fits_onCcfResponse (hmsg : msg.key = key → msg.InRange N) (accepted : Bool) (a : Answer) :
    (onCcfResponse site accepted a.interimInterval a.sessionId a.rc msg).Fits site key N L 0 := by
  have hone : msg.recordType = .start → msg.key = key → msg.accountingRecordNumber = 1 :=
    fun hs hkey => (hmsg hkey).first (not_later_of_start hs)
  unfold onCcfResponse
  dsimp only
  split_ifs with h1 h2 h3
  · exact ⟨Nat.zero_le L, trivial⟩
  · exact ⟨Nat.zero_le L, hone (AccountingRecordType.isStart_iff.mp h3)⟩
  · refine ⟨Nat.zero_le L, fun hkey => ?_⟩
    show 1 ≤ msg.accountingRecordNumber.toNat ∧ msg.accountingRecordNumber.toNat ≤ 1
    rw [hone (AccountingRecordType.isStart_iff.mp h3) hkey]
    decide
  all_goals exact ⟨Nat.zero_le L, trivial⟩

/-- After a write that is not refused, the store is counted in, if it is one for the key. -/
theorem fits_counted {rest : List StoreId} (hmsg : msg.recordType = .interim)
    (hsess : sess.InRange key 2 (N + 1) msg.key) {w : Session}
    (hw : w.InRange key 2 (N + 1) msg.key)
    (hL : (if msg.key = key then rest.length + 1 else 0) ≤ L) :
    ∃ d, (Pc.readRemotes msg sess rest).Fits site key N L d ∧ w.InRange key 1 (N + d) msg.key := by
  by_cases hkey : msg.key = key
  · rw [if_pos hkey] at hL
    refine ⟨1, ⟨?_, hmsg, hsess⟩, hw.mono (Nat.le_succ 1) le_rfl⟩
    simpa only [Pc.countsLeft, if_pos hkey] using hL
  · refine ⟨0, ⟨?_, hmsg, fun h => absurd h hkey⟩, fun h => absurd h hkey⟩
    simp only [Pc.countsLeft, if_neg hkey]
    exact Nat.zero_le L

theorem fits_next (P : Platform) (site : Site) (hN : 1 ≤ N) (hfit : N + 1 < 2 ^ 32)
    (h : pc.Ranges key N) (hsend : ¬∃ msg, pc = .send msg) :
    (next P site pc).Fits site key N (pc.countsLeft site key) := by
  cases pc with
  | handle msg =>
    simp only [next]
    split_ifs with hlater
    · have hmsg : msg.Later := Message.later_iff.mpr hlater
      exact ⟨⟨le_rfl, hmsg⟩, fun sess hsess => fits_found hfit hmsg hsess false le_rfl⟩
    · refine ⟨Nat.zero_le _, fun _ => ?_⟩
      exact inRange_first msg fun hmsg => hlater (Message.later_iff.mp hmsg)
  | tryRemotes msg rest =>
    cases rest with
    | nil => exact ⟨Nat.zero_le _, trivial⟩
    | cons s rest => exact ⟨⟨le_rfl, h⟩, fun sess hsess => fits_found hfit h hsess true le_rfl⟩
  | updateLocal msg sess newSession =>
    obtain ⟨hmsg, hsess⟩ := h
    refine ⟨⟨?_, trivial⟩, fun rc hrc => ?_⟩
    · simp only [if_true, Pc.countsLeft, hmsg, true_and]
      exact le_rfl
    · dsimp only
      rw [if_neg hrc]
      exact fits_counted hmsg hsess hsess le_rfl
  | readRemotes msg sess rest =>
    obtain ⟨hmsg, hsess⟩ := h
    cases rest with
    | nil => exact ⟨Nat.zero_le _, fun hkey => inRange_fillIn_interim hmsg hsess hkey⟩
    | cons s rest =>
      exact ⟨⟨le_rfl, hmsg, hsess, hsess.mono le_rfl (Nat.le_succ N)⟩,
        fun v hv => ⟨le_rfl, hmsg, hsess, inRange_incremented hv hfit⟩⟩
  | updateRemote msg sess s rest remoteSess newSession =>
    obtain ⟨hmsg, hsess, hremote⟩ := h
    refine ⟨⟨le_rfl, hmsg, hsess⟩, fun rc hrc => ?_⟩
    dsimp only
    rw [if_pos hrc]
    exact fits_counted hmsg (hsess.mono le_rfl (Nat.le_succ N)) hremote le_rfl
  | deleteLocal msg sess =>
    intro rc
    dsimp only
    split_ifs
    · refine ⟨?_, trivial⟩
      have hne := AccountingRecordType.ne_interim_of_stop h.1
      simp only [Pc.countsLeft, hne, false_and, if_false]
      exact le_rfl
    · exact ⟨le_rfl, h⟩
  | deleteRemotes msg sess rest =>
    cases rest with
    | nil =>
      have hsent : (Pc.send (fillIn msg sess)).Fits site key N 0 0 :=
        ⟨le_rfl, fun hkey => inRange_fillIn_stop h.1 h.2 hkey⟩
      simp only [next]
      split_ifs
      · exact fun _ => hsent
      · exact hsent
    | cons s rest =>
      intro rc
      dsimp only
      split_ifs <;> exact ⟨le_rfl, h⟩
  | send msg => exact absurd ⟨msg, rfl⟩ hsend
  | awaitAnswer msg => exact h.elim
  | deleteUnknown msg rest =>
    cases rest with
    | nil => exact ⟨le_rfl, trivial⟩
    | cons s rest => exact fun _ => ⟨le_rfl, trivial⟩
  | createTimer msg interimInterval sessionId =>
    refine fun id => ⟨le_rfl, fun hkey => ?_⟩
    show 1 ≤ msg.accountingRecordNumber.toNat ∧ msg.accountingRecordNumber.toNat ≤ 1
    rw [h hkey]
    decide
  | writeSession msg sess rest =>
    cases rest with
    | nil => exact ⟨le_rfl, trivial⟩
    | cons s rest =>
      exact ⟨⟨le_rfl, h⟩, fun rc _ => ⟨0, ⟨le_rfl, h⟩, Session.InRange.mono h le_rfl hN⟩⟩
  | sendChronosUpdate msg interimInterval accepted =>
    intro id
    dsimp only
    split_ifs <;> exact ⟨le_rfl, trivial⟩
  | readTimerId msg timerId rest accepted =>
    cases rest with
    | nil => exact ⟨le_rfl, trivial⟩
    | cons s rest => exact ⟨⟨le_rfl, trivial⟩, fun v hv => ⟨le_rfl, hv⟩⟩
  | writeTimerId msg timerId s rest sess accepted =>
    exact ⟨⟨le_rfl, trivial⟩, fun rc _ => ⟨0, ⟨le_rfl, trivial⟩, h⟩⟩
  | finish accepted =>
    simp only [next]
    split_ifs <;> exact ⟨le_rfl, trivial⟩
  | done => exact ⟨le_rfl, trivial⟩
  | aborted => exact ⟨le_rfl, trivial⟩

/-- Contention leaves the store alone. -/
theorem setSessionData_of_contention {st : Store} {e : StoreEnv} {k : Bytes} {newSession : Bool}
    (h : (setSessionData P st e k sess newSession).1 = .dataContention) :
    (setSessionData P st e k sess newSession).2 = st := by
  cases hdown : e.down with
  | true =>
    unfold setSessionData Store.setData at h
    rw [hdown] at h
    cases h
  | false =>
    rcases setSessionData_cases P st k hdown sess newSession with ⟨st', heq⟩ | heq
    · rw [heq] at h
      cases h
    · rw [heq]

theorem fits_perform (hW : Stocked (Session.InRange key 1 N) P W) (env : Env) {a : Action}
    (h : a.Fits site key N L) :
    ∃ d, (perform P env W a).1.Fits site key N L d ∧
      Stocked (Session.InRange key 1 (N + d)) P (perform P env W a).2.1 := by
  cases a with
  | get s k pc =>
    simp only [perform]
    split
    · rename_i sess hget
      cases sess with
      | none => exact ⟨0, h.1, hW⟩
      | some sess => exact ⟨0, h.2 sess (hW s _ k sess hget), hW⟩
    · exact ⟨0, ⟨Nat.zero_le L, trivial⟩, hW⟩
  | set s k sess newSession pc =>
    simp only [perform]
    by_cases hrc : (setSessionData P (W s) (env.store s) k sess newSession).1 = .dataContention
    · rw [hrc, setSessionData_of_contention hrc, Function.update_eq_self]
      exact ⟨0, h.1, hW⟩
    · obtain ⟨d, hpc, hsess⟩ := h.2 _ hrc
      refine ⟨d, hpc, Stocked.update ?_ fun e k' v hget => ?_⟩
      · exact hW.mono fun _ _ hold => hold.mono le_rfl (Nat.le_add_right N d)
      · rcases getSessionData_setSessionData hget with hold | ⟨rfl, rfl⟩
        · exact (hW s e k' v hold).mono le_rfl (Nat.le_add_right N d)
        · exact hsess
  | casDelete s k sess pc =>
    exact ⟨0, h _, hW.update fun e k' v hget =>
      hW s e k' v (getSessionData_deleteSessionDataCas hget)⟩
  | delete s k pc =>
    exact ⟨0, h _, hW.update fun e k' v hget =>
      hW s e k' v (getSessionData_deleteSessionData hget)⟩
  | timer req pc => exact ⟨0, h _, hW⟩
  | send msg pc => exact h.elim
  | answer pc => exact h.elim
  | healthCheckPassed pc => exact ⟨0, h, hW⟩
  | goto pc => exact ⟨0, h, hW⟩

end Threads

/-! ## Tasks -/

/-- The numbers in the hands of a task, with its sender. -/
def Task.Ranges (key : Bytes) (N : ℕ) : Task → Prop
  | .manager pc => pc.Ranges key N
  | .sender pm => pm.msg.key = key → pm.msg.InRange N
  | .undefined => True

section Tasks

variable {P : Platform} {key : Bytes} {N N' : ℕ} {t : Task} {W : World}

theorem Task.Ranges.mono (h : t.Ranges key N) (hN : N ≤ N') : t.Ranges key N' := by
  cases t with
  | manager pc => exact Pc.Ranges.mono h hN
  | sender pm => exact fun hkey => (h hkey).mono hN
  | undefined => trivial

/-- **One step of a task.** It counts in `d` stores, and the numbers go up by no more than that. -/
theorem Task.Ranges.step (h : t.Ranges key N) (hW : Stocked (Session.InRange key 1 N) P W)
    (hN : 1 ≤ N) (hfit : N + 1 < 2 ^ 32) (site : Site) (x : TaskEnv) :
    ∃ d, (taskStep P site x t W).1.pc.countsLeft site key + d ≤ t.pc.countsLeft site key ∧
      (taskStep P site x t W).1.Ranges key (N + d) ∧
      Stocked (Session.InRange key 1 (N + d)) P (taskStep P site x t W).2.1 := by
  cases t with
  | manager pc =>
    by_cases hsend : ∃ m, pc = .send m
    · obtain ⟨m, rfl⟩ := hsend
      refine ⟨0, ?_⟩
      rcases send_cases m with hs | ⟨acr, hs⟩
      · simp only [taskStep, hs]
        exact ⟨le_rfl, trivial, hW⟩
      · simp only [taskStep, hs]
        exact ⟨le_rfl, h, hW⟩
    · rw [taskStep_manager P site x W hsend]
      obtain ⟨d, ⟨hleft, hpc⟩, hW'⟩ := fits_perform hW x.env (fits_next P site hN hfit h hsend)
      exact ⟨d, hleft, hpc, hW'⟩
  | sender pm =>
    refine ⟨0, ?_⟩
    simp only [taskStep]
    cases hcb : pm.sendCb x.outcome.sendCb with
    | sent pm' acr =>
      refine ⟨le_rfl, ?_, hW⟩
      show pm'.msg.key = key → pm'.msg.InRange N
      rw [msg_of_sendCb hcb]
      exact h
    | answered accepted a =>
      obtain ⟨hleft, hpc⟩ := fits_onCcfResponse site 0 h accepted a
      exact ⟨hleft, hpc, hW⟩
    | undefined => exact ⟨le_rfl, trivial, hW⟩
  | undefined => exact ⟨0, le_rfl, trivial, hW⟩

end Tasks

/-! ## Runs -/

section Runs

variable {P : Platform} {κ : Type} [Fintype κ] {site : κ → Site} {key : Bytes} {B N : ℕ}
  {σ : Tasks κ} {msg : κ → Message}

/-- The numbers in the stores go up to `N`, and what the tasks may still count does not bring them
above `B`. -/
structure Ranging (P : Platform) (site : κ → Site) (key : Bytes) (B N : ℕ) (σ : Tasks κ) : Prop where
  pos : 1 ≤ N
  left : N + ∑ i, (σ.pc i).pc.countsLeft (site i) key ≤ B
  stores : Stocked (Session.InRange key 1 N) P σ.shared
  task : ∀ i, (σ.pc i).Ranges key N
  sent : ∀ i m sid, (i, .manager (.send m sid)) ∈ σ.trace → m.key = key → m.InRange N

variable [DecidableEq κ]

theorem Ranging.step (h : Ranging P site key B N σ) (hB : B + 1 < 2 ^ 32) (a : Happening κ) :
    ∃ N', Ranging P site key B N' (happen P site a σ) := by
  cases a with
  | lose s lost => exact ⟨N, h.pos, h.left, h.stores.lose s lost, h.task, h.sent⟩
  | move i x =>
    have hfit : N + 1 < 2 ^ 32 :=
      (Nat.succ_le_succ (Nat.le_of_add_right_le h.left)).trans_lt hB
    obtain ⟨d, hleft, htask, hW⟩ := (h.task i).step h.stores h.pos hfit (site i) x
    refine ⟨N + d, h.pos.trans (Nat.le_add_right N d), ?_, hW, ?_, ?_⟩
    · have hsum := Pool.sum_update_add_le (f := fun j (t : Task) => t.pc.countsLeft (site j) key)
        hleft
      have hbound := h.left
      show N + d + ∑ j, (Function.update σ.pc i (taskStep P (site i) x (σ.pc i) σ.shared).1
        j).pc.countsLeft (site j) key ≤ B
      omega
    · exact (Function.forall_update_iff σ.pc fun _ t => t.Ranges key (N + d)).mpr
        ⟨htask, fun j _ => (h.task j).mono (Nat.le_add_right N d)⟩
    · intro j m sid hmem hkey
      rcases List.mem_append.mp hmem with hold | hnew
      · exact (h.sent j m sid hold hkey).mono (Nat.le_add_right N d)
      · obtain ⟨e, he, heq⟩ := List.mem_map.mp hnew
        cases heq
        have hpc := h.task i
        rw [(eq_send_of_mem he).1] at hpc
        exact (hpc hkey).mono (Nat.le_add_right N d)

/-- The INTERIMs of the call, each as often as its site has stores. -/
def interimCounts (site : κ → Site) (msg : κ → Message) (key : Bytes) : ℕ :=
  ∑ i with (msg i).recordType = .interim ∧ (msg i).key = key, (site i).stores.length

omit [DecidableEq κ] in
theorem ranging_start {n : ℕ} (hn : 1 ≤ n) {W : World} (hW : Stocked (Session.InRange key 1 n) P W) :
    Ranging P site key (n + interimCounts site msg key) n (Tasks.start msg W) := by
  refine ⟨hn, ?_, hW, fun _ => trivial, fun i m sid hmem => by cases hmem⟩
  rw [interimCounts, Finset.sum_filter]
  rfl

/-- **Numbers are bounded.** The stores hold sessions of the call with numbers up to `n`, or none.
Whatever happens in a run, in which order: the numbers in the stores, and those of the INTERIMs of
the call that are sent, go no higher than `n` and the stores that its INTERIMs can count in, and that
of a STOP no higher than one more; no INTERIM or STOP has a number below 2, and every START or EVENT
has the number 1. -/
theorem numbers_bounded {n : ℕ} (hn : 1 ≤ n) {W : World}
    (hW : Stocked (Session.InRange key 1 n) P W)
    (hfit : n + interimCounts site msg key + 1 < 2 ^ 32) (as : List (Happening κ)) :
    (∀ i acr, (i, .sender (.acr acr)) ∈ (exec (happen P site) as (Tasks.start msg W)).trace →
      (msg i).key = key →
      (¬(msg i).Later → acr.recordNumber = 1) ∧
      ((msg i).recordType = .interim → 2 ≤ acr.recordNumber.toNat ∧
        acr.recordNumber.toNat ≤ n + interimCounts site msg key) ∧
      ((msg i).recordType = .stop → 2 ≤ acr.recordNumber.toNat ∧
        acr.recordNumber.toNat ≤ n + interimCounts site msg key + 1)) ∧
    ∀ s sess, view P ((exec (happen P site) as (Tasks.start msg W)).shared s) key = some sess →
      1 ≤ sess.acctRecordNumber.toNat ∧
        sess.acctRecordNumber.toNat ≤ n + interimCounts site msg key := by
  obtain ⟨N, hN⟩ := exec_invariant (fun τ a (h : ∃ N, Ranging P site key _ N τ) =>
    h.elim fun N hN => hN.step hfit a) as ⟨n, ranging_start hn hW⟩
  have hle : N ≤ n + interimCounts site msg key := Nat.le_of_add_right_le hN.left
  refine ⟨fun i acr hmem hkey => ?_, fun s sess hview => ?_⟩
  · obtain ⟨st, hcourse, -⟩ := onCourse_exec P site msg W as i
    obtain ⟨pre, post, hsplit⟩ := List.append_of_mem (mem_eventsOf.mpr hmem)
    obtain ⟨m, sid, event, ccf, hpre, -, -, rfl⟩ := hcourse.sent_before hsplit
    have hsend : TaskEvent.manager (.send m sid) ∈
        eventsOf i (exec (happen P site) as (Tasks.start msg W)).trace := by
      rw [hsplit]
      exact List.mem_append_left _ hpre
    have hm : m.recordType = (msg i).recordType ∧ m.key = (msg i).key := by
      rcases hcourse.sent_cases hsend with ⟨-, rfl⟩ | ⟨-, sess, rfl⟩ <;> exact ⟨rfl, rfl⟩
    have hrange := (hN.sent i m sid (mem_eventsOf.mp hsend) (hm.2.trans hkey)).mono hle
    rw [Message.Later, ← hm.1]
    exact ⟨hrange.first, hrange.interim, hrange.stop⟩
  · obtain ⟨h1, h2⟩ := hN.stores s _ key sess (getSessionData_of_view hview) rfl
    exact ⟨h1, h2.trans hle⟩

end Runs

/-- An INTERIM at a site with two stores has the number 2 or 3. -/
theorem numbers_bounded_startThenInterim :
    ∃ acr, (true, TaskEvent.sender (.acr acr)) ∈
        (exec (happen compactPlatform fun _ => localAndRemote) startThenInterim
          (Tasks.start startAndInterim fun _ => .empty)).trace ∧
      2 ≤ acr.recordNumber.toNat ∧ acr.recordNumber.toNat ≤ 3 := by
  have hany : (exec (happen compactPlatform fun _ => localAndRemote) startThenInterim
      (Tasks.start startAndInterim fun _ => .empty)).trace.any (fun x => x.1 && x.2.isAcr) =
        true := by
    decide +kernel
  have hcounts : interimCounts (fun _ => localAndRemote) startAndInterim
      (startAndInterim true).key = 2 := by
    decide +kernel
  obtain ⟨⟨i, e⟩, hmem, he⟩ := List.any_eq_true.mp hany
  obtain ⟨hi, hacr⟩ := (Bool.and_eq_true_iff).mp he
  cases hi
  cases e with
  | manager e => cases hacr
  | sender e =>
    cases e with
    | onCcfResponse accepted a => cases hacr
    | acr acr =>
      have hrange := ((numbers_bounded (P := compactPlatform) le_rfl
        (stocked_of_empty fun _ _ => rfl) (by rw [hcounts]; decide) startThenInterim).1
          true acr hmem rfl).2.1 rfl
      rw [hcounts] at hrange
      exact ⟨acr, hmem, hrange⟩

end Ralf
