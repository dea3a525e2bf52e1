import Ralf.Isolation
import Ralf.Lib.Potential
import Ralf.Safety
import Ralf.Sequential

/-!
# Every message comes to its end

`handle` starts again when its write meets contention, and so does each round of its loop over the
remote stores; nothing in the code bounds the number of retries. What bounds them is that a retry
takes a write of somebody else, and that every thread has only so many writes to make. `work_bounded`
makes this a number: tasks of any calls, record types and sites, interleaved in any way, with any
answers, timeouts and outages, make no more than `workload` steps before they are through, not
counting what `Tasks.setback` lists. Hence a fair run ends (`runs_end`), unless the setbacks never
stop.
-/

namespace Ralf

open Bytes Versioned Runs

/-! ## What is left to do -/

theorem Site.length_stores (site : Site) : site.stores.length = site.remoteStores.length + 1 := rfl

/-- How many writes a thread has left at most. -/
def Pc.writesLeft (site : Site) : Pc → ℕ
  | .handle _ => 2 * site.stores.length
  | .tryRemotes _ _ => 2 * site.stores.length
  | .updateLocal _ _ _ => 2 * site.stores.length
  | .readRemotes _ _ rest => rest.length + site.stores.length
  | .updateRemote _ _ _ rest _ _ => rest.length + 1 + site.stores.length
  | .deleteLocal _ _ => 2 * site.stores.length
  | .deleteRemotes _ _ rest => rest.length + site.stores.length
  | .send _ => site.stores.length
  | .awaitAnswer _ => site.stores.length
  | .deleteUnknown _ rest => rest.length
  | .createTimer _ _ _ => site.stores.length
  | .writeSession _ _ rest => rest.length
  | .sendChronosUpdate _ _ _ => site.stores.length
  | .readTimerId _ _ rest _ => rest.length
  | .writeTimerId _ _ _ rest _ _ => rest.length + 1
  | .finish _ => 0
  | .done => 0
  | .aborted => 0

/-- How many steps a thread has left at most if no write of it fails. `peers` bounds the number of
CCFs its sender tries. -/
def Pc.effort (site : Site) (peers : ℕ) : Pc → ℕ
  | .handle _ => 5 * site.stores.length + peers + 6
  | .tryRemotes _ rest => rest.length + 4 * site.stores.length + peers + 6
  | .updateLocal _ _ _ => 4 * site.stores.length + peers + 5
  | .readRemotes _ _ rest => 2 * rest.length + 2 * site.stores.length + peers + 6
  | .updateRemote _ _ _ rest _ _ => 2 * rest.length + 2 * site.stores.length + peers + 7
  | .deleteLocal _ _ => 4 * site.stores.length + peers + 5
  | .deleteRemotes _ _ rest => rest.length + 2 * site.stores.length + peers + 6
  | .send _ => 2 * site.stores.length + peers + 5
  | .awaitAnswer _ => 2 * site.stores.length + 4
  | .deleteUnknown _ rest => rest.length + 2
  | .createTimer _ _ _ => site.stores.length + 3
  | .writeSession _ _ rest => rest.length + 2
  | .sendChronosUpdate _ _ _ => 2 * site.stores.length + 3
  | .readTimerId _ _ rest _ => 2 * rest.length + 2
  | .writeTimerId _ _ _ rest _ _ => 2 * rest.length + 3
  | .finish _ => 1
  | .done => 0
  | .aborted => 0

/-- What a failed write will cost: the way back to the read. `v` gives the version of each store.
The stores in `out` cannot be reached, and a write there does not fail for contention. -/
def Pc.penalty (site : Site) (out : StoreId → Bool) (v : StoreId → ℕ) : Pc → ℕ
  | .tryRemotes _ _ =>
    if out site.localStore ∨ v site.localStore = 0 then 0 else site.stores.length + 2
  | .updateLocal _ sess newSession =>
    if out site.localStore ∨ v site.localStore = sess.expected newSession then 0
    else site.stores.length + 2
  | .updateRemote _ _ s _ remoteSess newSession =>
    if out s ∨ v s = remoteSess.expected newSession then 0 else 2
  | .deleteLocal _ sess =>
    if out site.localStore ∨ v site.localStore = sess.cas then 0 else site.stores.length + 2
  | _ => 0

/-- A read that leads a thread astray: the store holds the session but cannot be reached for the
moment, or it is a remote store and the session is to be deleted from the local one. -/
def Pc.misled (site : Site) (out : StoreId → Bool) (env : Env) (W : World) : Pc → Bool
  | .handle msg =>
    (msg.recordType.isInterim || msg.recordType.isStop) && !out site.localStore &&
      (env.store site.localStore).down && ((W site.localStore).record msg.key).isSome
  | .tryRemotes msg (s :: _) =>
    !msg.recordType.isInterim && !out site.localStore && !(env.store s).down &&
      ((W s).record msg.key).isSome
  | .readRemotes msg _ (s :: _) =>
    !out s && (env.store s).down && ((W s).record msg.key).isSome
  | _ => false

/-- The thread has nothing more to do. -/
def Pc.atRest : Pc → Bool
  | .done => true
  | .aborted => true
  | _ => false

theorem Pc.penalty_le (site : Site) (out : StoreId → Bool) (v : StoreId → ℕ) (pc : Pc) :
    pc.penalty site out v ≤ site.stores.length + 2 := by
  cases pc with
  | tryRemotes | updateLocal | updateRemote | deleteLocal =>
    simp only [Pc.penalty]
    split_ifs <;> omega
  | _ => exact Nat.zero_le _

/-! ## One step -/

section Steps

variable {P : Platform} {site : Site} {out : StoreId → Bool} {env : Env} {pc : Pc} {R : Regs}
  {peers : ℕ}

variable (P site env pc R) in
/-- A read finds what the register holds, or nothing because the store is down or empty. -/
theorem stepReg_get_cases {s : StoreId} {key : Bytes} {k : Option Session → Pc}
    (h : next P site pc = .get s key k) :
    (((env.store s).down = true ∨ (R s).cell = none) ∧ stepReg P site env pc R = (k none, R, [])) ∨
      ∃ sess, (env.store s).down = false ∧ (R s).cell = some sess ∧
        stepReg P site env pc R = (k (some sess), R, []) := by
  unfold stepReg
  rw [h]
  simp only [performReg, regGet]
  cases hdown : (env.store s).down with
  | true => exact .inl ⟨.inl rfl, rfl⟩
  | false =>
    cases hcell : (R s).cell with
    | none => exact .inl ⟨.inr rfl, rfl⟩
    | some sess => exact .inr ⟨sess, rfl, rfl, rfl⟩

/-- A compare-and-set goes through, or fails at a store that is down, or meets contention. -/
theorem regSet_cases (r : Reg) (e : StoreEnv) (cas : ℕ) (x : Option Session) :
    regSet r e cas x = (.ok, r.put e.cas x) ∨ regSet r e cas x = (.error, r) ∨
      (e.down = false ∧ r.version Session.cas ≠ cas ∧ regSet r e cas x = (.dataContention, r)) := by
  unfold regSet
  cases e.down with
  | true => exact .inr (.inl rfl)
  | false =>
    by_cases hv : r.version Session.cas = cas
    · exact .inl (by simp [hv])
    · exact .inr (.inr ⟨rfl, hv, by simp [hv]⟩)

variable (P site env pc R) in
theorem stepReg_set_cases {s : StoreId} {key : Bytes} {sess : Session} {newSession : Bool}
    {k : Status → Pc} (h : next P site pc = .set s key sess newSession k) :
    (∃ rc R', rc ≠ Status.dataContention ∧ stepReg P site env pc R = (k rc, R', [])) ∨
      ((env.store s).down = false ∧ R.version s ≠ sess.expected newSession ∧
        stepReg P site env pc R = (k .dataContention, R, [])) := by
  have heq : stepReg P site env pc R =
      (k (regSet (R s) (env.store s) (sess.expected newSession)
          (sess.written (env.store s).cas)).1,
        Function.update R s (regSet (R s) (env.store s) (sess.expected newSession)
          (sess.written (env.store s).cas)).2, []) := by
    unfold stepReg
    rw [h]
    rfl
  rw [heq]
  rcases regSet_cases (R s) (env.store s) (sess.expected newSession)
    (sess.written (env.store s).cas) with hset | hset | ⟨hup, hv, hset⟩
  · exact .inl ⟨.ok, _, by decide, by rw [hset]⟩
  · exact .inl ⟨.error, _, by decide, by rw [hset]⟩
  · exact .inr ⟨hup, hv, by rw [hset, Function.update_eq_self]⟩

variable (P site env pc R) in
theorem stepReg_casDelete_cases {s : StoreId} {key : Bytes} {sess : Session} {k : Status → Pc}
    (h : next P site pc = .casDelete s key sess k) :
    (∃ rc R', rc ≠ Status.dataContention ∧ stepReg P site env pc R = (k rc, R', [])) ∨
      ((env.store s).down = false ∧ R.version s ≠ sess.cas ∧
        stepReg P site env pc R = (k .dataContention, R, [])) := by
  unfold stepReg
  rw [h]
  simp only [performReg]
  rcases regSet_cases (R s) (env.store s) sess.cas none with hset | hset | ⟨hup, hv, hset⟩
  · exact .inl ⟨.ok, _, by decide, by rw [hset]⟩
  · exact .inl ⟨.error, _, by decide, by rw [hset]⟩
  · exact .inr ⟨hup, hv, by rw [hset, Function.update_eq_self]⟩

variable (P site env pc R) in
theorem stepReg_delete_cases {s : StoreId} {key : Bytes} {k : Status → Pc}
    (h : next P site pc = .delete s key k) :
    ∃ rc R', rc ≠ Status.dataContention ∧ stepReg P site env pc R = (k rc, R', []) := by
  unfold stepReg
  rw [h]
  simp only [performReg, regDelete]
  split_ifs
  · exact ⟨.error, _, by decide, rfl⟩
  · exact ⟨.ok, _, by decide, rfl⟩

/-- The step makes one of the writes that are left. -/
def Pc.Writes (site : Site) (peers : ℕ) (pc pc' : Pc) : Prop :=
  pc'.writesLeft site < pc.writesLeft site ∧ pc'.effort site peers < pc.effort site peers

/-- The step makes no write, and it lowers the cost by one at least, up to `d`. -/
def Pc.Advances (site : Site) (out : StoreId → Bool) (peers : ℕ) (v : StoreId → ℕ) (d : ℕ)
    (pc pc' : Pc) : Prop :=
  pc'.writesLeft site ≤ pc.writesLeft site ∧
    pc'.effort site peers + pc'.penalty site out v <
      pc.effort site peers + pc.penalty site out v + d

variable (site out peers) in
theorem effort_onCcfResponse (accepted : Bool) (a : Answer) (msg : Message) (v : StoreId → ℕ) :
    let pc := onCcfResponse site accepted a.interimInterval a.sessionId a.rc msg
    pc.writesLeft site ≤ site.stores.length ∧
      pc.effort site peers + pc.penalty site out v < 2 * site.stores.length + 4 := by
  unfold onCcfResponse
  dsimp only
  split_ifs <;> simp only [Pc.writesLeft, Pc.effort, Pc.penalty] <;> omega

variable (peers) in
/-- A session is found, and the local store is written or deleted from next. -/
theorem effort_found {msg : Message} {sess : Session} {newSession : Bool} {v : StoreId → ℕ}
    {d : ℕ}
    (hd : ¬out site.localStore → msg.recordType = .interim →
      v site.localStore ≠ sess.expected newSession → site.stores.length + 2 ≤ d)
    (hd' : ¬out site.localStore → msg.recordType ≠ .interim →
      v site.localStore ≠ sess.cas → site.stores.length + 2 ≤ d) :
    (found msg sess newSession).writesLeft site = 2 * site.stores.length ∧
      (found msg sess newSession).effort site peers +
        (found msg sess newSession).penalty site out v ≤
          4 * site.stores.length + peers + 5 + d := by
  unfold found
  dsimp only
  split_ifs with hi
  · refine ⟨rfl, ?_⟩
    simp only [Pc.effort, Pc.penalty]
    split_ifs with hok
    · omega
    · rw [not_or] at hok
      have := hd hok.1 (AccountingRecordType.isInterim_iff.mp hi) hok.2
      omega
  · refine ⟨rfl, ?_⟩
    simp only [Pc.effort, Pc.penalty]
    split_ifs with hok
    · omega
    · rw [not_or] at hok
      have := hd' hok.1 (fun h => hi (AccountingRecordType.isInterim_iff.mpr h)) hok.2
      omega

/-- What a step is charged with when its read leads it astray. -/
def Pc.charge (site : Site) (out : StoreId → Bool) (env : Env) (W : World) (pc : Pc) : ℕ :=
  (site.stores.length + 2) * (pc.misled site out env W).toNat

theorem charge_of_misled {W : World} (h : pc.misled site out env W = true) :
    pc.charge site out env W = site.stores.length + 2 := by
  rw [Pc.charge, h, Bool.toNat_true, Nat.mul_one]

/-- The registers show what the stores hold under the key of the thread's message. -/
def Reveals (W : World) (R : Regs) (pc : Pc) : Prop :=
  ∀ msg, pc.message = some msg → ∀ s, ((W s).record msg.key).isSome = (R s).cell.isSome

variable (P peers) in
theorem handle_pays {W : World} {msg : Message} (hlive : Reveals W R (.handle msg)) :
    (stepReg P site env (.handle msg) R).2.1 = R ∧
      (Pc.handle msg).Advances site out peers R.version ((Pc.handle msg).charge site out env W)
        (stepReg P site env (.handle msg) R).1 := by
  have hlength := site.length_stores
  by_cases hlater : (msg.recordType.isInterim || msg.recordType.isStop) = true
  · rcases stepReg_get_cases P site env (.handle msg) R (by simp only [next, if_pos hlater]; rfl)
      with ⟨hnone, heq⟩ | ⟨sess, hup, hcell, heq⟩
    · rw [heq]
      refine ⟨rfl, le_refl _, ?_⟩
      simp only [Pc.effort, Pc.penalty]
      split_ifs with hok
      · omega
      · -- the local store holds the session and is down
        rw [not_or] at hok
        have hcell : (R site.localStore).cell ≠ none := fun hc => hok.2 (version_of_none hc)
        have hmisled : (Pc.handle msg).misled site out env W = true := by
          simp only [Pc.misled, hlater, Bool.true_and, Bool.and_eq_true, Bool.not_eq_true']
          refine ⟨⟨by simpa using hok.1, hnone.resolve_right hcell⟩, ?_⟩
          rw [hlive msg rfl]
          exact Option.isSome_iff_ne_none.mpr hcell
        rw [charge_of_misled hmisled]
        omega
    · have hv : R.version site.localStore = sess.cas := version_of_some hcell
      obtain ⟨hleft, hcost⟩ := effort_found (d := 0) peers
        (fun _ _ h => absurd hv h : ¬out site.localStore → msg.recordType = .interim →
          R.version site.localStore ≠ sess.expected false → _) (fun _ _ h => absurd hv h)
      rw [heq]
      refine ⟨rfl, hleft.le, ?_⟩
      simp only [Pc.effort, Pc.penalty] at hcost ⊢
      omega
  · have heq : stepReg P site env (.handle msg) R =
        (.send { msg with accountingRecordNumber := 1 }, R, []) := by
      unfold stepReg
      simp only [next, if_neg hlater]
      rfl
    rw [heq]
    refine ⟨rfl, ?_, ?_⟩
    · simp only [Pc.writesLeft]
      omega
    · simp only [Pc.effort, Pc.penalty]
      omega

variable (P peers) in
theorem tryRemotes_pays {W : World} {msg : Message} {s : StoreId} {rest : List StoreId}
    (hlive : Reveals W R (.tryRemotes msg (s :: rest))) :
    (stepReg P site env (.tryRemotes msg (s :: rest)) R).2.1 = R ∧
      (Pc.tryRemotes msg (s :: rest)).Advances site out peers R.version
        ((Pc.tryRemotes msg (s :: rest)).charge site out env W)
        (stepReg P site env (.tryRemotes msg (s :: rest)) R).1 := by
  rcases stepReg_get_cases P site env (.tryRemotes msg (s :: rest)) R rfl with
    ⟨-, heq⟩ | ⟨sess, hup, hcell, heq⟩
  · rw [heq]
    refine ⟨rfl, le_refl _, ?_⟩
    simp only [Pc.effort, Pc.penalty, List.length_cons]
    omega
  · -- an INTERIM adds the session to the local store, a STOP takes it for the local one
    have hadd : ¬out site.localStore → msg.recordType = .interim →
        R.version site.localStore ≠ sess.expected true → site.stores.length + 2 ≤
          (Pc.tryRemotes msg (s :: rest)).penalty site out R.version +
            (Pc.tryRemotes msg (s :: rest)).charge site out env W := by
      intro hlocal _ hv
      have hv' : R.version site.localStore ≠ 0 := hv
      simp only [Pc.penalty]
      rw [if_neg (not_or.mpr ⟨hlocal, hv'⟩)]
      omega
    have hdelete : ¬out site.localStore → msg.recordType ≠ .interim →
        R.version site.localStore ≠ sess.cas → site.stores.length + 2 ≤
          (Pc.tryRemotes msg (s :: rest)).penalty site out R.version +
            (Pc.tryRemotes msg (s :: rest)).charge site out env W := by
      intro hlocal hi _
      have hmisled : (Pc.tryRemotes msg (s :: rest)).misled site out env W = true := by
        simp only [Pc.misled, hup, Bool.and_eq_true, Bool.not_eq_true', Bool.not_false]
        refine ⟨⟨⟨?_, by simpa using hlocal⟩, trivial⟩, ?_⟩
        · rw [Bool.eq_false_iff]
          exact fun h => hi (AccountingRecordType.isInterim_iff.mp h)
        · rw [hlive msg rfl, hcell]
          rfl
      rw [charge_of_misled hmisled]
      omega
    obtain ⟨hleft, hcost⟩ := effort_found peers hadd hdelete
    rw [heq]
    refine ⟨rfl, hleft.le, ?_⟩
    simp only [Pc.effort, List.length_cons] at hcost ⊢
    omega

variable (P peers) in
theorem readRemotes_pays {W : World} {msg : Message} {sess : Session} {s : StoreId}
    {rest : List StoreId} (hlive : Reveals W R (.readRemotes msg sess (s :: rest))) :
    (stepReg P site env (.readRemotes msg sess (s :: rest)) R).2.1 = R ∧
      (Pc.readRemotes msg sess (s :: rest)).Advances site out peers R.version
        ((Pc.readRemotes msg sess (s :: rest)).charge site out env W)
        (stepReg P site env (.readRemotes msg sess (s :: rest)) R).1 := by
  rcases stepReg_get_cases P site env (.readRemotes msg sess (s :: rest)) R rfl with
    ⟨hnone, heq⟩ | ⟨remoteSess, -, hcell, heq⟩
  · rw [heq]
    refine ⟨rfl, ?_, ?_⟩
    · simp only [Pc.writesLeft, List.length_cons]
      omega
    · simp only [Pc.effort, Pc.penalty, List.length_cons]
      split_ifs with hok
      · omega
      · rw [not_or] at hok
        have hcell : (R s).cell ≠ none := fun hc => hok.2 (version_of_none hc)
        have hmisled : (Pc.readRemotes msg sess (s :: rest)).misled site out env W = true := by
          simp only [Pc.misled, Bool.and_eq_true, Bool.not_eq_true']
          refine ⟨⟨by simpa using hok.1, hnone.resolve_right hcell⟩, ?_⟩
          rw [hlive msg rfl]
          exact Option.isSome_iff_ne_none.mpr hcell
        rw [charge_of_misled hmisled]
        omega
  · have hv : R.version s = remoteSess.cas := version_of_some hcell
    rw [heq]
    refine ⟨rfl, ?_, ?_⟩
    · simp only [Pc.writesLeft, List.length_cons]
      omega
    · simp only [Pc.effort, Pc.penalty, List.length_cons]
      rw [if_pos (.inr hv)]
      omega

variable (P peers) in
/-- **One step of a thread.** It makes a write, or it gets closer to its end. -/
theorem stepReg_pays {W : World} (hlive : Reveals W R pc)
    (hout : ∀ s, out s = true → (env.store s).down = true) (hrest : pc.atRest = false)
    (hsend : ¬∃ msg, pc = .send msg) :
    pc.Writes site peers (stepReg P site env pc R).1 ∨
      (stepReg P site env pc R).2.1 = R ∧
        pc.Advances site out peers R.version (pc.charge site out env W)
          (stepReg P site env pc R).1 := by
  have hlength := site.length_stores
  have hreached : ∀ {s}, (env.store s).down = false → ¬out s = true := by
    intro s hup h
    rw [hout s h] at hup
    cases hup
  cases pc with
  | handle msg => exact .inr (handle_pays P peers hlive)
  | tryRemotes msg rest =>
    cases rest with
    | nil =>
      refine .inr ⟨rfl, Nat.zero_le _, ?_⟩
      show 0 < _
      simp only [Pc.effort]
      omega
    | cons s rest => exact .inr (tryRemotes_pays P peers hlive)
  | updateLocal msg sess newSession =>
    rcases stepReg_set_cases P site env (.updateLocal msg sess newSession) R rfl with
      ⟨rc, R', hrc, heq⟩ | ⟨hup, hv, heq⟩
    · rw [heq, if_neg hrc]
      refine .inl ⟨?_, ?_⟩ <;> simp only [Pc.writesLeft, Pc.effort] <;> omega
    · rw [heq, if_pos rfl]
      refine .inr ⟨rfl, le_refl _, ?_⟩
      simp only [Pc.effort, Pc.penalty]
      rw [if_neg (not_or.mpr ⟨hreached hup, hv⟩)]
      omega
  | readRemotes msg sess rest =>
    cases rest with
    | nil =>
      refine .inr ⟨rfl, ?_, ?_⟩
      · show site.stores.length ≤ _
        simp only [Pc.writesLeft]
        omega
      · show 2 * site.stores.length + peers + 5 + 0 < _
        simp only [Pc.effort]
        omega
    | cons s rest => exact .inr (readRemotes_pays P peers hlive)
  | updateRemote msg sess s rest remoteSess newSession =>
    rcases stepReg_set_cases P site env (.updateRemote msg sess s rest remoteSess newSession) R rfl
      with ⟨rc, R', hrc, heq⟩ | ⟨hup, hv, heq⟩
    · rw [heq, if_pos hrc]
      refine .inl ⟨?_, ?_⟩ <;> simp only [Pc.writesLeft, Pc.effort] <;> omega
    · rw [heq, if_neg (not_not.mpr rfl)]
      refine .inr ⟨rfl, ?_, ?_⟩
      · simp only [Pc.writesLeft, List.length_cons]
        omega
      · simp only [Pc.effort, Pc.penalty, List.length_cons]
        rw [if_neg (not_or.mpr ⟨hreached hup, hv⟩)]
        omega
  | deleteLocal msg sess =>
    rcases stepReg_casDelete_cases P site env (.deleteLocal msg sess) R rfl with
      ⟨rc, R', hrc, heq⟩ | ⟨hup, hv, heq⟩
    · rw [heq, if_neg hrc]
      refine .inl ⟨?_, ?_⟩ <;> simp only [Pc.writesLeft, Pc.effort] <;> omega
    · rw [heq, if_pos rfl]
      refine .inr ⟨rfl, le_refl _, ?_⟩
      simp only [Pc.effort, Pc.penalty]
      rw [if_neg (not_or.mpr ⟨hreached hup, hv⟩)]
      omega
  | deleteRemotes msg sess rest =>
    cases rest with
    | nil =>
      have heq : (stepReg P site env (.deleteRemotes msg sess []) R).1 = .send (fillIn msg sess) ∧
          (stepReg P site env (.deleteRemotes msg sess []) R).2.1 = R := by
        unfold stepReg
        simp only [next]
        split_ifs <;> exact ⟨rfl, rfl⟩
      rw [heq.1, heq.2]
      refine .inr ⟨rfl, ?_, ?_⟩
      · simp only [Pc.writesLeft]
        omega
      · simp only [Pc.effort, Pc.penalty]
        omega
    | cons s rest =>
      obtain ⟨rc, R', hrc, heq⟩ :=
        stepReg_delete_cases P site env (.deleteRemotes msg sess (s :: rest)) R rfl
      rw [heq, if_pos hrc]
      refine .inl ⟨?_, ?_⟩ <;> simp only [Pc.writesLeft, Pc.effort, List.length_cons] <;> omega
  | send msg => exact absurd ⟨msg, rfl⟩ hsend
  | awaitAnswer msg =>
    obtain ⟨hleft, hcost⟩ := effort_onCcfResponse site out peers env.answer.accepted env.answer msg
      R.version
    exact .inr ⟨rfl, hleft, Nat.lt_add_right _ hcost⟩
  | deleteUnknown msg rest =>
    cases rest with
    | nil => exact .inr ⟨rfl, Nat.zero_le _, Nat.lt_add_right _ (Nat.lt_succ_self 1)⟩
    | cons s rest =>
      obtain ⟨rc, R', -, heq⟩ :=
        stepReg_delete_cases P site env (.deleteUnknown msg (s :: rest)) R rfl
      rw [heq]
      refine .inl ⟨?_, ?_⟩ <;> simp only [Pc.writesLeft, Pc.effort, List.length_cons] <;> omega
  | createTimer msg interimInterval sessionId =>
    exact .inr ⟨rfl, le_refl _, Nat.lt_add_right _ (Nat.lt_succ_self _)⟩
  | writeSession msg sess rest =>
    cases rest with
    | nil => exact .inr ⟨rfl, Nat.zero_le _, Nat.lt_add_right _ (Nat.lt_succ_self 1)⟩
    | cons s rest =>
      -- a START goes on after a failed write
      have hwrite : ∀ rc : Status, (Pc.writeSession msg sess (s :: rest)).Writes site peers
          ((fun _ => Pc.writeSession msg sess rest) rc) := by
        intro rc
        constructor <;> simp only [Pc.writesLeft, Pc.effort, List.length_cons] <;> omega
      rcases stepReg_set_cases P site env (.writeSession msg sess (s :: rest)) R rfl with
        ⟨rc, R', -, heq⟩ | ⟨-, -, heq⟩
      · rw [heq]
        exact .inl (hwrite rc)
      · rw [heq]
        exact .inl (hwrite .dataContention)
  | sendChronosUpdate msg interimInterval accepted =>
    refine .inr ⟨rfl, ?_, ?_⟩
    · simp only [stepReg, next, performReg]
      split_ifs <;> simp only [Pc.writesLeft] <;> omega
    · simp only [stepReg, next, performReg]
      split_ifs <;> simp only [Pc.effort, Pc.penalty] <;> omega
  | readTimerId msg timerId rest accepted =>
    cases rest with
    | nil => exact .inr ⟨rfl, Nat.zero_le _, Nat.lt_add_right _ (Nat.lt_succ_self 1)⟩
    | cons s rest =>
      rcases stepReg_get_cases P site env (.readTimerId msg timerId (s :: rest) accepted) R rfl with
        ⟨-, heq⟩ | ⟨sess, -, -, heq⟩
      · rw [heq]
        refine .inr ⟨rfl, ?_, ?_⟩ <;>
          simp only [Pc.writesLeft, Pc.effort, Pc.penalty, List.length_cons] <;> omega
      · rw [heq]
        refine .inr ⟨rfl, ?_, ?_⟩ <;>
          simp only [Pc.writesLeft, Pc.effort, Pc.penalty, List.length_cons] <;> omega
  | writeTimerId msg timerId s rest sess accepted =>
    have hwrite : ∀ rc : Status, (Pc.writeTimerId msg timerId s rest sess accepted).Writes site
        peers ((fun _ => Pc.readTimerId msg timerId rest accepted) rc) := by
      intro rc
      constructor <;> simp only [Pc.writesLeft, Pc.effort] <;> omega
    rcases stepReg_set_cases P site env (.writeTimerId msg timerId s rest sess accepted) R rfl with
      ⟨rc, R', -, heq⟩ | ⟨-, -, heq⟩
    · rw [heq]
      exact .inl (hwrite rc)
    · rw [heq]
      exact .inl (hwrite .dataContention)
  | finish accepted =>
    have hdone : (1 : ℕ) > 0 := Nat.one_pos
    cases accepted with
    | true => exact .inr ⟨rfl, le_refl 0, Nat.lt_add_right _ hdone⟩
    | false => exact .inr ⟨rfl, le_refl 0, Nat.lt_add_right _ hdone⟩
  | done => cases hrest
  | aborted => cases hrest

/-! ### Threads that can read do not abort -/

theorem found_ne_aborted (msg : Message) (sess : Session) (newSession : Bool) :
    found msg sess newSession ≠ .aborted := by
  unfold found
  dsimp only
  split_ifs <;> simp

theorem onCcfResponse_ne_aborted (site : Site) (accepted : Bool) (a : Answer) (msg : Message) :
    onCcfResponse site accepted a.interimInterval a.sessionId a.rc msg ≠ .aborted := by
  unfold onCcfResponse
  dsimp only
  split_ifs <;> simp

variable (P site env R) in
theorem stepReg_ne_aborted (h : pc ≠ .aborted) : (stepReg P site env pc R).1 ≠ .aborted := by
  cases pc with
  | handle msg =>
    simp only [stepReg, next]
    split_ifs
    · simp only [performReg]
      split
      · exact found_ne_aborted msg _ false
      · simp
    · simp [performReg]
  | tryRemotes msg rest =>
    cases rest with
    | nil => simp [stepReg, next, performReg]
    | cons s rest =>
      simp only [stepReg, next, performReg]
      split
      · exact found_ne_aborted msg _ true
      · simp
  | awaitAnswer msg => exact onCcfResponse_ne_aborted site _ env.answer msg
  | aborted => exact absurd rfl h
  | updateLocal | updateRemote | deleteLocal | sendChronosUpdate =>
    simp only [stepReg, next, performReg]
    split_ifs <;> simp
  | readRemotes msg sess rest | readTimerId msg timerId rest accepted =>
    cases rest with
    | nil => simp [stepReg, next, performReg]
    | cons s rest =>
      simp only [stepReg, next, performReg]
      split <;> simp
  | deleteRemotes msg sess rest =>
    cases rest with
    | nil =>
      simp only [stepReg, next]
      split_ifs <;> simp [performReg]
    | cons s rest =>
      simp only [stepReg, next, performReg]
      split_ifs <;> simp
  | deleteUnknown msg rest | writeSession msg sess rest =>
    cases rest <;> simp [stepReg, next, performReg]
  | finish accepted => cases accepted <;> simp [stepReg, next, performReg]
  | send | createTimer | writeTimerId | done => simp [stepReg, next, performReg]

/-! ### Other keys -/

theorem Readable.congr {st st' : Store} {key : Bytes} (h : st'.record key = st.record key)
    (hr : Readable P st key) : Readable P st' key := by
  intro r hrec
  exact hr r (h ▸ hrec)

theorem regs_version_congr {W W' : World} {key : Bytes}
    (h : ∀ s, (W' s).record key = (W s).record key) :
    (regs P key W').version = (regs P key W).version := by
  funext s
  show (view P (W' s) key).elim 0 Session.cas = (view P (W s) key).elim 0 Session.cas
  unfold view
  rw [getSessionData_of_ne (h s)]

/-- A thread keeps the stores readable under every key. -/
theorem ReadableAll.step {W : World} {key other : Bytes} (hW : ReadableAll P other W)
    (hpc : pc.HasKey key) : ReadableAll P other (step P site env pc W).2.1 := by
  by_cases hkey : other = key
  · rw [hkey] at hW ⊢
    exact readable_step hW site env hpc
  · intro s
    exact (hW s).congr (record_step hkey site env hpc W s)

theorem reveals_of_readable {W : World} {key : Bytes} (hW : ReadableAll P key W)
    (hpc : pc.HasKey key) : Reveals W (regs P key W) pc := by
  intro msg hmsg s
  rw [hpc msg hmsg]
  show _ = (view P (W s) key).isSome
  cases hview : view P (W s) key with
  | none =>
    rw [record_of_view_none (hW s) hview]
    rfl
  | some sess =>
    obtain ⟨r, hr, -⟩ := record_of_view (hW s) hview
    rw [hr]
    rfl

end Steps

/-! ## Tasks -/

def Task.writesLeft (site : Site) : Task → ℕ
  | .manager pc => pc.writesLeft site
  | .sender _ => site.stores.length
  | .undefined => 0

/-- What is left to do, with what failed writes will cost. A sender tries each of its CCFs once. -/
def Task.cost (site : Site) (out : StoreId → Bool) (peers : ℕ) (v : StoreId → ℕ) : Task → ℕ
  | .manager pc => pc.effort site peers + pc.penalty site out v
  | .sender pm => pm.ccfs.length - pm.which + 2 * site.stores.length + 4
  | .undefined => 0

def Task.atRest : Task → Bool
  | .manager pc => pc.atRest
  | .sender _ => false
  | .undefined => true

def Task.misled (site : Site) (out : StoreId → Bool) (env : Env) (W : World) : Task → Bool
  | .manager pc => pc.misled site out env W
  | _ => false

/-- The session, or the message, has at most so many CCFs. -/
def Session.PeersLe (peers : ℕ) (_ : Bytes) (sess : Session) : Prop := sess.ccf.length ≤ peers

def Message.PeersLe (peers : ℕ) (msg : Message) : Prop := msg.ccfs.length ≤ peers

theorem stocked_of_empty {ψ : Bytes → Session → Prop} {P : Platform} {W : World}
    (hW : ∀ s key, (W s).record key = none) : Stocked ψ P W := by
  intro s e key sess hget
  rw [getSessionData_of_none (hW s key)] at hget
  cases hget

theorem inherited_peersLe (peers : ℕ) :
    Inherited (Session.PeersLe peers) (Message.PeersLe peers) where
  stored := fun _ sess _ h => by
    show (sess.ccf.map cStr).length ≤ peers
    rw [List.length_map]
    exact h
  number := fun _ _ _ h => h
  timerId := fun _ _ _ h => h
  fillIn := fun _ _ _ h => h
  first := fun _ h => h
  start := fun _ _ _ _ _ h => h

section Tasks

variable {P : Platform} {site : Site} {out : StoreId → Bool} {x : TaskEnv} {t : Task} {W : World}
  {peers : ℕ} {key : Bytes}

theorem Task.cost_le (v v' : StoreId → ℕ) (t : Task) :
    t.cost site out peers v' ≤ t.cost site out peers v + (site.stores.length + 2) := by
  cases t with
  | manager pc =>
    have := Pc.penalty_le site out v' pc
    simp only [Task.cost]
    omega
  | sender pm => exact Nat.le_add_right _ _
  | undefined => exact Nat.zero_le _

variable (site out peers) in
/-- A sender goes on to the next CCF, or calls back. -/
theorem sendCb_pays {pm : PeerMessageSender} (r : SendCb) (v : StoreId → ℕ) :
    (Task.ofResult site pm.msg (pm.sendCb r)).writesLeft site ≤ site.stores.length ∧
      (Task.ofResult site pm.msg (pm.sendCb r)).cost site out peers v <
        (Task.sender pm).cost site out peers v := by
  cases hcb : pm.sendCb r with
  | answered accepted a =>
    obtain ⟨hleft, hcost⟩ := effort_onCcfResponse site out peers accepted a pm.msg v
    refine ⟨hleft, ?_⟩
    simp only [Task.ofResult, Task.cost]
    omega
  | undefined =>
    refine ⟨Nat.zero_le _, ?_⟩
    simp only [Task.ofResult, Task.cost]
    omega
  | sent pm' acr =>
    refine ⟨le_refl _, ?_⟩
    have hnext : pm'.ccfs = pm.ccfs ∧ pm'.which = pm.which + 1 ∧ pm'.which < pm.ccfs.length := by
      unfold PeerMessageSender.sendCb at hcb
      split_ifs at hcb
      split at hcb
      · cases hcb
      · dsimp only at hcb
        split_ifs at hcb with hlt
        unfold PeerMessageSender.intSendMsg at hcb
        split at hcb <;> cases hcb
        exact ⟨rfl, rfl, hlt⟩
    obtain ⟨hccfs, hwhich, hlt⟩ := hnext
    simp only [Task.ofResult, Task.cost, hccfs, hwhich]
    omega

variable (site out) in
theorem send_pays {msg : Message} (hpeers : msg.PeersLe peers) (v : StoreId → ℕ) :
    (Task.ofResult site msg (PeerMessageSender.send msg)).writesLeft site ≤ site.stores.length ∧
      (Task.ofResult site msg (PeerMessageSender.send msg)).cost site out peers v <
        (Task.manager (.send msg)).cost site out peers v := by
  rcases send_cases msg with hsend | ⟨acr, hsend⟩
  · rw [hsend]
    refine ⟨Nat.zero_le _, ?_⟩
    simp only [Task.ofResult, Task.cost, Pc.effort]
    omega
  · rw [hsend]
    refine ⟨le_refl _, ?_⟩
    unfold Message.PeersLe at hpeers
    simp only [Task.ofResult, Task.cost, Pc.effort, Pc.penalty]
    omega

/-- **One step of a task.** It makes a write, or it gets closer to its end. -/
theorem taskStep_pays (hW : ReadableAll P key W) (hkey : t.pc.HasKey key)
    (hpeers : t.pc.Stocked (Session.PeersLe peers) (Message.PeersLe peers))
    (hout : ∀ s, out s = true → (x.env.store s).down = true) (hrest : t.atRest = false) :
    ((taskStep P site x t W).1.writesLeft site < t.writesLeft site ∧
        ∀ v v', (taskStep P site x t W).1.cost site out peers v' ≤
          t.cost site out peers v + (site.stores.length + 2)) ∨
      (regs P key (taskStep P site x t W).2.1).version = (regs P key W).version ∧
        (taskStep P site x t W).1.writesLeft site ≤ t.writesLeft site ∧
        (taskStep P site x t W).1.cost site out peers (regs P key W).version <
          t.cost site out peers (regs P key W).version +
            (site.stores.length + 2) * (t.misled site out x.env W).toNat := by
  cases t with
  | manager pc =>
    by_cases hsend : ∃ msg, pc = .send msg
    · obtain ⟨msg, rfl⟩ := hsend
      obtain ⟨hleft, hcost⟩ := send_pays site out hpeers (regs P key W).version
      exact .inr ⟨rfl, hleft, Nat.lt_add_right _ hcost⟩
    · rw [taskStep_manager P site x W hsend]
      have hstep := regs_step hW site x.env hkey
      rcases stepReg_pays P peers (reveals_of_readable hW hkey) hout hrest hsend with
        ⟨hleft, heffort⟩ | ⟨hsame, hleft, hcost⟩
      · rw [hstep] at hleft heffort
        refine .inl ⟨hleft, fun v v' => ?_⟩
        have hpenalty := Pc.penalty_le site out v' (step P site x.env pc W).1
        change (step P site x.env pc W).1.effort site peers < pc.effort site peers at heffort
        simp only [Task.cost]
        omega
      · rw [hstep] at hsame hleft hcost
        exact .inr ⟨congrArg Regs.version hsame, hleft, hcost⟩
  | sender pm =>
    obtain ⟨hleft, hcost⟩ := sendCb_pays site out peers x.outcome.sendCb (regs P key W).version
    exact .inr ⟨rfl, hleft, Nat.lt_add_right _ hcost⟩
  | undefined => cases hrest

/-- A task at rest stays as it is. -/
theorem taskStep_rest (h : t.atRest = true) : taskStep P site x t W = (t, W, []) := by
  cases t with
  | manager pc =>
    cases pc with
    | done => rfl
    | aborted => rfl
    | _ => cases h
  | sender pm => cases h
  | undefined => rfl

end Tasks

/-! ## Runs -/

section Runs

variable {P : Platform} {κ : Type} [DecidableEq κ] (site : κ → Site) (out : StoreId → Bool)

/-- A task that is not through makes a step. -/
def Tasks.busy (σ : Tasks κ) : Happening κ → Bool
  | .move i _ => !(σ.pc i).atRest
  | .lose _ _ => false

/-- A record is lost, or a read leads a task astray. -/
def Tasks.setback (σ : Tasks κ) : Happening κ → Bool
  | .move i x => (σ.pc i).misled (site i) out x.env σ.shared
  | .lose _ _ => true

/-- The stores in `out` are down whenever a task makes a step. -/
def Happening.Without (out : StoreId → Bool) : Happening κ → Prop
  | .move _ x => ∀ s, out s = true → (x.env.store s).down = true
  | .lose _ _ => True

/-- The stores can be read under the keys of the tasks, and nothing lists more than `peers` CCFs. -/
structure Orderly (P : Platform) (peers : ℕ) (key : κ → Bytes) (σ : Tasks κ) : Prop where
  readable : ∀ i, ReadableAll P (key i) σ.shared
  hasKey : ∀ i, (σ.pc i).pc.HasKey (key i)
  stocked : Stocked (Session.PeersLe peers) P σ.shared
  task : ∀ i, (σ.pc i).pc.Stocked (Session.PeersLe peers) (Message.PeersLe peers)

variable {site out} {peers : ℕ} {key : κ → Bytes} {σ : Tasks κ}

/-- What a step does to the stores it does as a thread would. -/
theorem Orderly.move (h : Orderly P peers key σ) (i : κ) (x : TaskEnv) :
    Orderly P peers key (tasksStep P site (i, x) σ) ∧
      ∀ other, other ≠ key i → ∀ s, ((tasksStep P site (i, x) σ).shared s).record other =
        (σ.shared s).record other := by
  have hpool : ∀ {t : Task} {W : World}, (taskStep P (site i) x (σ.pc i) σ.shared).1 = t →
      (taskStep P (site i) x (σ.pc i) σ.shared).2.1 = W →
      (∀ j, ReadableAll P (key j) W) → t.pc.HasKey (key i) →
      Stocked (Session.PeersLe peers) P W →
      t.pc.Stocked (Session.PeersLe peers) (Message.PeersLe peers) →
      (∀ other, other ≠ key i → ∀ s, (W s).record other = (σ.shared s).record other) →
      Orderly P peers key (tasksStep P site (i, x) σ) ∧
        ∀ other, other ≠ key i → ∀ s, ((tasksStep P site (i, x) σ).shared s).record other =
          (σ.shared s).record other := by
    rintro t W rfl rfl hread hkey hstock htask hframe
    refine ⟨⟨hread, ?_, hstock, ?_⟩, hframe⟩
    · exact (Function.forall_update_iff σ.pc fun j t => t.pc.HasKey (key j)).mpr
        ⟨hkey, fun j _ => h.hasKey j⟩
    · exact (Function.forall_update_iff σ.pc fun _ t => t.pc.Stocked _ _).mpr
        ⟨htask, fun j _ => h.task j⟩
  rcases taskStep_cases P (site i) x (σ.pc i) σ.shared with
    ⟨hpc, hW, -⟩ | ⟨hpc, hW, -⟩ | ⟨a, heq⟩
  · exact hpool hpc hW h.readable (fun m hm => by cases hm) h.stocked trivial fun _ _ _ => rfl
  · refine hpool rfl hW h.readable ?_ h.stocked ?_ fun _ _ _ => rfl
    · rw [hpc]
      exact h.hasKey i
    · rw [hpc]
      exact h.task i
  · simp only [Prod.ext_iff] at heq
    obtain ⟨hpc, hW, -⟩ := heq
    obtain ⟨hstock, htask⟩ :=
      stocked_step (inherited_peersLe peers) h.stocked (site i) { x.env with answer := a } (h.task i)
    refine hpool rfl hW (fun j => (h.readable j).step (h.hasKey i)) ?_ hstock ?_ ?_
    · rw [hpc]
      exact hasKey_step (site i) _ (h.hasKey i)
    · rw [hpc]
      exact htask
    · exact fun other hne s => record_step hne (site i) _ (h.hasKey i) σ.shared s

theorem record_lose_of_ne (st : Store) {key other : Bytes} (h : other ≠ key) :
    (st.lose key).record other = st.record other := by
  simp [Store.lose, h]

/-- What can still be read after a loss could be read before. -/
theorem Stocked.lose {ψ : Bytes → Session → Prop} {W : World} (h : Stocked ψ P W) (s : StoreId)
    (lost : Bytes) : Stocked ψ P (W.lose lost s) := by
  refine h.update fun e other sess hget => ?_
  by_cases hkey : other = lost
  · rw [hkey, getSessionData_of_none (record_lose _ lost)] at hget
    cases hget
  · rw [getSessionData_of_ne (record_lose_of_ne _ hkey)] at hget
    exact h s e other sess hget

omit [DecidableEq κ] in
theorem Orderly.lose (h : Orderly P peers key σ) (s : StoreId) (lost : Bytes) :
    Orderly P peers key { σ with shared := σ.shared.lose lost s } := by
  refine ⟨fun i => (h.readable i).update ?_, h.hasKey, h.stocked.lose s lost, h.task⟩
  by_cases hkey : key i = lost
  · rw [hkey]
    exact readable_of_none (record_lose _ lost)
  · exact (h.readable i s).congr (record_lose_of_ne _ hkey)

theorem Orderly.step (h : Orderly P peers key σ) (a : Happening κ) :
    Orderly P peers key (happen P site a σ) := by
  cases a with
  | move i x => exact (h.move i x).1
  | lose s lost => exact h.lose s lost

variable [Fintype κ]

/-- What one write, or one setback, can undo. -/
def interference (site : κ → Site) : ℕ := Pool.totalSlack fun i => (site i).stores.length + 2

/-- What all tasks have to do from the start of `handle` on. -/
def workload (site : κ → Site) (peers : ℕ) : ℕ :=
  ∑ i, (2 * (site i).stores.length * (interference site + 1) +
    (5 * (site i).stores.length + peers + 6))

variable (P site out peers key) in
/-- What is left to do. -/
def Tasks.potential (σ : Tasks κ) : ℕ :=
  Pool.potential (fun i t => t.writesLeft (site i))
    (fun i t W => t.cost (site i) out peers (regs P (key i) W).version)
    (fun i => (site i).stores.length + 2) σ

omit [DecidableEq κ] in
theorem slack_le_interference (i : κ) : (site i).stores.length + 2 ≤ interference site :=
  @Pool.slack_le_totalSlack κ _ (fun i => (site i).stores.length + 2) i

/-- A task that is not through makes a step. -/
theorem potential_move (h : Orderly P peers key σ) {i : κ} {x : TaskEnv}
    (hout : ∀ s, out s = true → (x.env.store s).down = true) (hrest : (σ.pc i).atRest = false) :
    (tasksStep P site (i, x) σ).potential P site out peers key <
      σ.potential P site out peers key +
        interference site * ((σ.pc i).misled (site i) out x.env σ.shared).toNat := by
  have hself : (tasksStep P site (i, x) σ).pc i = (taskStep P (site i) x (σ.pc i) σ.shared).1 :=
    Function.update_self ..
  have hothers : ∀ j, j ≠ i → (tasksStep P site (i, x) σ).pc j = σ.pc j := fun j hj =>
    Function.update_of_ne hj ..
  rcases taskStep_pays (h.readable i) (h.hasKey i) (h.task i) hout hrest with
    ⟨hleft, hcost⟩ | ⟨hsame, hleft, hcost⟩
  · refine Nat.lt_add_right _ (Pool.potential_lt_of_write hothers ?_ ?_)
    · rw [hself]
      exact hleft
    · intro j
      by_cases hj : j = i
      · rw [hj, hself]
        exact hcost _ _
      · rw [hothers j hj]
        exact Task.cost_le _ _ (σ.pc j)
  · have hd : ((site i).stores.length + 2) *
        ((σ.pc i).misled (site i) out x.env σ.shared).toNat ≤
          interference site * ((σ.pc i).misled (site i) out x.env σ.shared).toNat :=
      Nat.mul_le_mul_right _ (slack_le_interference i)
    -- no version has changed, under the key of this task or any other
    have hversion : ∀ j, (regs P (key j) (tasksStep P site (i, x) σ).shared).version =
        (regs P (key j) σ.shared).version := by
      intro j
      by_cases hkey : key j = key i
      · rw [hkey]
        exact hsame
      · exact regs_version_congr ((h.move i x).2 (key j) hkey)
    refine lt_of_lt_of_le (Pool.potential_add_lt hothers ?_ ?_ ?_) (Nat.add_le_add_left hd _)
    · rw [hself]
      exact hleft
    · rw [hself, hversion i]
      exact hcost
    · intro j _
      rw [hversion j]

/-- **One step of all.** -/
theorem potential_happen (h : Orderly P peers key σ) {a : Happening κ} (hout : a.Without out) :
    (happen P site a σ).potential P site out peers key + (σ.busy a).toNat ≤
      σ.potential P site out peers key + interference site * (σ.setback site out a).toNat := by
  cases a with
  | move i x =>
    cases hrest : (σ.pc i).atRest with
    | true =>
      have hsame : (happen P site (.move i x) σ).potential P site out peers key =
          σ.potential P site out peers key := by
        show Pool.potential _ _ _ (tasksStep P site (i, x) σ) = _
        unfold tasksStep Pool.step
        simp only [taskStep_rest hrest, Function.update_eq_self]
        rfl
      rw [hsame]
      simp [Tasks.busy, hrest]
    | false =>
      simp only [Tasks.busy, hrest, Bool.not_false, Bool.toNat_true]
      exact potential_move h hout hrest
  | lose s lost =>
    have hall : (happen P site (.lose s lost) σ).potential P site out peers key ≤
        σ.potential P site out peers key + interference site :=
      Pool.potential_le_add fun j => ⟨le_refl _, Task.cost_le _ _ (σ.pc j)⟩
    simp only [Tasks.busy, Tasks.setback, Bool.toNat_false, Bool.toNat_true, Nat.mul_one]
    exact hall

omit [DecidableEq κ] [Fintype κ] in
theorem orderly_start {msg : κ → Message} {W : World} (hmsg : ∀ i, (msg i).PeersLe peers)
    (hW : Stocked (Session.PeersLe peers) P W) (hread : ∀ i, ReadableAll P (msg i).key W) :
    Orderly P peers (fun i => (msg i).key) (Tasks.start msg W) where
  readable := hread
  hasKey := fun _ => Pc.hasKey_of_message rfl rfl
  stocked := hW
  task := fun i => .inr (hmsg i)

/-- **Work is bounded.** Tasks of any calls and sites are interleaved in any way, with any answers
and timeouts, and the stores may go down and come back; the stores in `out` are down throughout. What
the stores hold at first under the keys of the messages can be decoded, and no session or message
lists more than `peers` CCFs. Then the steps the tasks make before they are through are at most
`workload`, and `interference` for each setback. -/
theorem work_bounded {msg : κ → Message} {W : World} (hmsg : ∀ i, (msg i).ccfs.length ≤ peers)
    (hW : ∀ s e key sess, getSessionData P (W s) e key = .ok (some sess) →
      sess.ccf.length ≤ peers)
    (hread : ∀ i, ReadableAll P (msg i).key W) {as : List (Happening κ)}
    (hout : ∀ a ∈ as, a.Without out) :
    tally (happen P site) Tasks.busy as (Tasks.start msg W) ≤
      workload site peers +
        interference site * tally (happen P site) (Tasks.setback site out) as (Tasks.start msg W) := by
  have horderly : Orderly P peers (fun i => (msg i).key) (Tasks.start msg W) :=
    orderly_start hmsg hW hread
  have hok : Along (happen P site)
      (fun σ a => a.Without out ∧ Orderly P peers (fun i => (msg i).key) σ) as
      (Tasks.start msg W) :=
    Along.strengthen (fun σ a hσ _ => hσ.step a)
      (Along.of_forall (fun a ha _ => hout a ha) (Tasks.start msg W)) horderly
  exact Nat.le_of_add_right_le (Along.tally_le (fun σ a h => potential_happen h.2 h.1) hok)

end Runs

/-- One message, once through with a CCF that does not answer. -/
theorem work_bounded_startTimesOut :
    tally (happen compactPlatform fun _ => localAndRemote) Tasks.busy startTimesOut
        (Tasks.start (fun _ => startMessage 300) fun _ => .empty) ≤
      workload (fun _ : Unit => localAndRemote) 1 +
        interference (fun _ : Unit => localAndRemote) *
          tally (happen compactPlatform fun _ => localAndRemote)
            (Tasks.setback (fun _ => localAndRemote) fun _ => false) startTimesOut
            (Tasks.start (fun _ => startMessage 300) fun _ => .empty) := by
  refine work_bounded (fun _ => by decide) (stocked_of_empty fun _ _ => rfl) ?_ ?_
  · exact fun _ s => readable_of_none rfl
  · intro a _
    cases a with
    | move i x => exact fun s hs => by cases hs
    | lose s key => trivial

section Fair

variable {P : Platform} {κ : Type} [DecidableEq κ] [Fintype κ] {site : κ → Site}
  {out : StoreId → Bool}

omit [Fintype κ] in
/-- The manager of no task has aborted. -/
theorem ne_aborted_happen {peers : ℕ} {key : κ → Bytes} {σ : Tasks κ}
    (h : Orderly P peers key σ) (hne : ∀ i, σ.pc i ≠ .manager .aborted) (a : Happening κ) (i : κ) :
    (happen P site a σ).pc i ≠ .manager .aborted := by
  cases a with
  | lose s lost => exact hne i
  | move j x =>
    refine (Function.forall_update_iff σ.pc fun _ t => t ≠ Task.manager .aborted).mpr
      ⟨?_, fun k _ => hne k⟩ i
    show (taskStep P (site j) x (σ.pc j) σ.shared).1 ≠ _
    have hpc := hne j
    have hkey := h.hasKey j
    generalize σ.pc j = t at hpc hkey
    cases t with
    | manager pc =>
      by_cases hsend : ∃ msg, pc = .send msg
      · obtain ⟨msg, rfl⟩ := hsend
        simp only [taskStep]
        rcases send_cases msg with hs | ⟨acr, hs⟩ <;> simp [hs, Task.ofResult]
      · rw [taskStep_manager P (site j) x σ.shared hsend]
        intro habort
        have hstep := stepReg_ne_aborted P (site j) x.env (regs P (key j) σ.shared)
          (fun hpc' => hpc (congrArg Task.manager hpc'))
        have heq := regs_step (h.readable j) (site j) x.env hkey
        exact hstep ((congrArg Prod.fst heq).trans (Task.manager.inj habort))
    | sender pm =>
      simp only [taskStep]
      cases pm.sendCb x.outcome.sendCb with
      | sent pm' acr => simp [Task.ofResult]
      | answered accepted a =>
        intro habort
        exact onCcfResponse_ne_aborted (site j) accepted a pm.msg (Task.manager.inj habort)
      | undefined => simp [Task.ofResult]
    | undefined => simp [taskStep]

/-- A task at rest that has not gone wrong is through. -/
theorem Task.Safe.done_of_atRest {t : Task} (h : t.Safe) (hne : t ≠ .manager .aborted)
    (hrest : t.atRest = true) : t = .manager .done := by
  cases t with
  | manager pc =>
    cases pc with
    | done => rfl
    | aborted => exact absurd rfl hne
    | _ => cases hrest
  | sender pm => cases hrest
  | undefined => exact h.elim

omit [Fintype κ] [DecidableEq κ] in
theorem safeTasks_start {msg : κ → Message}
    (hmsg : ∀ i, ∃ callId timerInterim body,
      parseBody P callId timerInterim body = .ok (some (msg i)))
    {W : World} (hW : ∀ s key, (W s).record key = none) : SafeTasks P (Tasks.start msg W) where
  stocked := stocked_of_empty hW
  task := fun i => by
    obtain ⟨callId, timerInterim, body, hparse⟩ := hmsg i
    obtain ⟨hevent, hfirst⟩ := handle_of_parseBody hparse
    exact ⟨hfirst, Pc.every_of_message rfl hevent⟩
  sent := fun i m sid hmem => by cases hmem

omit [Fintype κ] in
/-- A step of a task at rest, and a loss, leave every task where it is. -/
theorem pc_happen_of_not_busy {σ : Tasks κ} {a : Happening κ} (h : σ.busy a = false) :
    (happen P site a σ).pc = σ.pc := by
  cases a with
  | lose s lost => rfl
  | move i x =>
    have hrest : (σ.pc i).atRest = true := by simpa [Tasks.busy] using h
    show Function.update σ.pc i (taskStep P (site i) x (σ.pc i) σ.shared).1 = σ.pc
    rw [taskStep_rest hrest, Function.update_eq_self]

/-- **Every message comes to its end.** The messages were accepted by the handler and the stores were
empty. A run that gives every task a turn again and again, whatever else happens in it, brings all
of them to their end, unless its setbacks never stop. -/
theorem runs_end {msg : κ → Message}
    (hmsg : ∀ i, ∃ callId timerInterim body,
      parseBody P callId timerInterim body = .ok (some (msg i)))
    {W : World} (hW : ∀ s key, (W s).record key = none) {f : ℕ → Happening κ}
    (hout : ∀ n, (f n).Without out) (hfair : ∀ i n, ∃ m x, n ≤ m ∧ f m = .move i x) :
    (∃ n, ∀ m, n ≤ m → ∀ i,
        (stateAt (happen P site) f (Tasks.start msg W) m).pc i = .manager .done) ∨
      ∀ n, ∃ m, n ≤ m ∧
        (stateAt (happen P site) f (Tasks.start msg W) m).setback site out (f m) = true := by
  let peers := Finset.univ.sup fun i => (msg i).ccfs.length
  have hpeers : ∀ i, (msg i).PeersLe peers := fun i =>
    Finset.le_sup (f := fun i => (msg i).ccfs.length) (Finset.mem_univ i)
  have hsafe : ∀ n, SafeTasks P (stateAt (happen P site) f (Tasks.start msg W) n) :=
    stateAt_invariant (safeTasks_start hmsg hW) fun n σ h => h.step (f n)
  have hstart : Orderly P peers (fun i => (msg i).key) (Tasks.start msg W) :=
    orderly_start hpeers (stocked_of_empty hW) fun i s => readable_of_none (hW s _)
  have hinv : ∀ n, Orderly P peers (fun i => (msg i).key)
        (stateAt (happen P site) f (Tasks.start msg W) n) ∧
      ∀ i, (stateAt (happen P site) f (Tasks.start msg W) n).pc i ≠ .manager .aborted :=
    stateAt_invariant (I := fun σ => Orderly P peers (fun i => (msg i).key) σ ∧
        ∀ i, σ.pc i ≠ .manager .aborted)
      ⟨hstart, fun i => by simp [Tasks.start]⟩ fun n σ h => ⟨h.1.step (f n), ne_aborted_happen h.1 h.2 (f n)⟩
  have hstep : ∀ σ a, a.Without out ∧ Orderly P peers (fun i => (msg i).key) σ →
      (happen P site a σ).potential P site out peers (fun i => (msg i).key) + (σ.busy a).toNat ≤
        σ.potential P site out peers (fun i => (msg i).key) +
          interference site * (σ.setback site out a).toNat :=
    fun σ a h => potential_happen h.2 h.1
  refine (quiet_or_setbacks hstep fun n => ⟨hout n, (hinv n).1⟩).imp_left ?_
  rintro ⟨n, hn⟩
  have hstill : ∀ m, n ≤ m → (stateAt (happen P site) f (Tasks.start msg W) m).pc =
      (stateAt (happen P site) f (Tasks.start msg W) n).pc := fun m hm =>
    stateAt_still (g := Pool.pc) (fun k hk => pc_happen_of_not_busy (hn k hk)) hm
  refine ⟨n, fun m hm i => ?_⟩
  -- the task has a turn later on, at which it is at rest, so it is at rest now
  obtain ⟨k, x, hk, hmove⟩ := hfair i n
  rw [hstill m hm, ← hstill k hk]
  have hbusy := hn k hk
  have habort := (hinv k).2 i
  have htask := (hsafe k).task i
  rw [hmove] at hbusy
  simp only [Tasks.busy] at hbusy
  exact htask.done_of_atRest habort (by simpa using hbusy)

end Fair

/-! ### Runs without setbacks -/

section Straight

variable {P : Platform} {κ : Type} {site : κ → Site} {out : StoreId → Bool} {σ : Tasks κ}

/-- Every store can be reached, and no record is lost. -/
def Happening.Calm : Happening κ → Prop
  | .move _ x => x.env.Up
  | .lose _ _ => False

/-- The tasks are safe, and none of them is that of a STOP. -/
structure Straight (P : Platform) (σ : Tasks κ) : Prop where
  safe : SafeTasks P σ
  type : ∀ i, (σ.pc i).pc.Every fun m => m.recordType ≠ .stop

theorem Straight.step [DecidableEq κ] (h : Straight P σ) (a : Happening κ) :
    Straight P (happen P site a σ) where
  safe := h.safe.step a
  type := by
    cases a with
    | lose s lost => exact h.type
    | move i x =>
      refine (Function.forall_update_iff σ.pc fun _ t => t.pc.Every _).mpr
        ⟨every_taskStep (fun m m' hid hm => ?_) (h.type i), fun j _ => h.type j⟩
      simp only [Message.identity, Prod.mk.injEq] at hid
      rw [hid.2.2.2.2.1]
      exact hm

/-- While the stores can be reached, only a STOP is led astray. -/
theorem Straight.setback_eq_false (h : Straight P σ) {a : Happening κ} (ha : a.Calm) :
    σ.setback site out a = false := by
  cases a with
  | lose s lost => exact ha.elim
  | move i x =>
    have hsafe := h.safe.task i
    have htype := h.type i
    show (σ.pc i).misled (site i) out x.env σ.shared = false
    generalize σ.pc i = t at hsafe htype
    cases t with
    | manager pc =>
      cases pc with
      | handle m => simp [Task.misled, Pc.misled, ha (site i).localStore]
      | tryRemotes m rest =>
        cases rest with
        | nil => rfl
        | cons s rest =>
          have hlater : m.Later := hsafe.1
          have hinterim := AccountingRecordType.isInterim_iff.mpr
            (hlater.resolve_right (htype m rfl))
          simp [Task.misled, Pc.misled, hinterim]
      | readRemotes m sess rest =>
        cases rest with
        | nil => rfl
        | cons s rest => simp [Task.misled, Pc.misled, ha s]
      | _ => rfl
    | sender pm => rfl
    | undefined => rfl

end Straight

/-- A START whose CCF never answers, step after step, comes to its end. -/
theorem runs_end_unanswered :
    ∃ n, ∀ m, n ≤ m → ∀ i : Unit,
      (stateAt (happen compactPlatform fun _ => localAndRemote) (fun _ => .move () unanswered)
        (Tasks.start (fun _ => startMessage 300) fun _ => .empty) m).pc i = .manager .done := by
  have hmsg : ∀ _ : Unit, ∃ callId timerInterim body,
      parseBody compactPlatform callId timerInterim body = .ok (some (startMessage 300)) :=
    fun _ => ⟨_, _, _, parseBody_startBody _ 300⟩
  have hstart : Straight compactPlatform (Tasks.start (fun _ : Unit => startMessage 300)
      fun _ => .empty) :=
    ⟨safeTasks_start hmsg fun _ _ => rfl, fun _ => Pc.every_of_message rfl
      (show (startMessage 300).recordType ≠ .stop by decide)⟩
  refine Or.resolve_right (runs_end hmsg (fun _ _ => rfl)
    (show ∀ _, Happening.Without (fun _ => false) _ from fun _ s hs => by cases hs)
    fun _ n => ⟨n, unanswered, le_refl n, rfl⟩) fun hsetbacks => ?_
  obtain ⟨m, -, hm⟩ := hsetbacks 0
  have hstraight : Straight compactPlatform
      (stateAt (happen compactPlatform fun _ => localAndRemote) (fun _ => .move () unanswered)
        (Tasks.start (fun _ : Unit => startMessage 300) fun _ => .empty) m) :=
    stateAt_invariant hstart (fun _ _ h => h.step _) m
  exact Bool.noConfusion (hm.symm.trans (hstraight.setback_eq_false fun _ => rfl))

end Ralf
