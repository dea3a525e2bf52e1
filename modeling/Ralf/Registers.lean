import Ralf.Lib.Runs
import Ralf.Lib.Versioned
import Ralf.SessionCodec
import Ralf.SessionManager

/-!
# One key, seen as registers

For the threads that work on one key, a store is a versioned register that holds a session or
nothing. `stepReg` is the machine over registers: no bytes, no keys, no codec. As long as every
record under the key can be read, the machine over stores follows it step by step (`regs_step`),
and what the machine writes can be read again (`readable_step`).
-/

namespace Ralf

open Bytes Versioned

/-- The register of one store. -/
abbrev Reg := Register Session

/-- The registers of all stores, for one key. -/
abbrev Regs := StoreId → Reg

/-- What a write of `sess` leaves behind: nothing if it expires at once. -/
def Session.written (sess : Session) (cas : ℕ+) : Option Session :=
  if 0 < sess.expiry then some { sess.stored with cas := cas } else none

/-- The refresh time is positive, and its double fits an `int`. -/
def Session.Live (sess : Session) : Prop :=
  1 ≤ sess.sessionRefreshTime.toNat ∧ sess.sessionRefreshTime.toNat < 2 ^ 30

/-- The expiry of such a session is computed without a loss. -/
theorem Session.Live.toInt_expiry {sess : Session} (h : sess.Live) :
    sess.expiry.toInt = 2 * sess.sessionRefreshTime.toNat := by
  obtain ⟨-, hlt⟩ := h
  have hdbl : (2 * sess.sessionRefreshTime).toNat = 2 * sess.sessionRefreshTime.toNat := by
    rw [UInt32.toNat_mul]
    simp only [UInt32.reduceToNat]
    omega
  unfold Session.expiry
  rw [Int32.toInt, UInt32.toBitVec_toInt32, BitVec.toInt_eq_toNat_of_lt]
  · rw [UInt32.toNat_toBitVec, hdbl]
    rfl
  · rw [UInt32.toNat_toBitVec]
    omega

theorem Session.Live.expiry_pos {sess : Session} (h : sess.Live) : 0 < sess.expiry := by
  rw [Int32.lt_iff_toInt_lt, h.toInt_expiry, Int32.toInt_zero]
  have hpos := h.1
  omega

/-! ## The machine over registers -/

def regGet (r : Reg) (env : StoreEnv) : Option Session := if env.down then none else r.cell

def regSet (r : Reg) (env : StoreEnv) (cas : ℕ) (x : Option Session) : Status × Reg :=
  if env.down then (.error, r)
  else if r.version Session.cas = cas then (.ok, r.put env.cas x)
  else (.dataContention, r)

def regDelete (r : Reg) (env : StoreEnv) : Status × Reg :=
  if env.down then (.error, r) else (.ok, r.erase)

/-- Make a call, on registers. -/
def performReg (env : Env) (R : Regs) : Action → Pc × Regs × List Event
  | .get s _ k => (k (regGet (R s) (env.store s)), R, [])
  | .set s _ sess newSession k =>
    let r := regSet (R s) (env.store s) (if newSession then 0 else sess.cas)
      (sess.written (env.store s).cas)
    (k r.1, Function.update R s r.2, [])
  | .casDelete s _ sess k =>
    let r := regSet (R s) (env.store s) sess.cas none
    (k r.1, Function.update R s r.2, [])
  | .delete s _ k =>
    let r := regDelete (R s) (env.store s)
    (k r.1, Function.update R s r.2, [])
  | .timer req k => (k env.timer, R, [.timer req])
  | .send msg pc => (pc, R, [.send msg (acrSessionId env msg)])
  | .answer k => (k env.answer, R, [])
  | .healthCheckPassed pc => (pc, R, [.healthCheckPassed])
  | .goto pc => (pc, R, [])

/-- One step of a thread, on registers. -/
def stepReg (P : Platform) (site : Site) (env : Env) (pc : Pc) (R : Regs) :
    Pc × Regs × List Event :=
  performReg env R (next P site pc)

/-! ## The key of a thread -/

/-- The message a thread is working on. -/
def Pc.message : Pc → Option Message
  | .handle msg => some msg
  | .tryRemotes msg _ => some msg
  | .updateLocal msg _ _ => some msg
  | .readRemotes msg _ _ => some msg
  | .updateRemote msg _ _ _ _ _ => some msg
  | .deleteLocal msg _ => some msg
  | .deleteRemotes msg _ _ => some msg
  | .send msg => some msg
  | .awaitAnswer msg => some msg
  | .deleteUnknown msg _ => some msg
  | .createTimer msg _ _ => some msg
  | .writeSession msg _ _ => some msg
  | .sendChronosUpdate msg _ _ => some msg
  | .readTimerId msg _ _ _ => some msg
  | .writeTimerId msg _ _ _ _ _ => some msg
  | .finish _ => none
  | .done => none
  | .aborted => none

/-- The thread works on `key`, if it still works on a message. -/
def Pc.HasKey (key : Bytes) (pc : Pc) : Prop := ∀ msg, pc.message = some msg → msg.key = key

/-- The call is about `key`, and so is what follows it. -/
def Action.HasKey (key : Bytes) : Action → Prop
  | .get _ key' k => key' = key ∧ ∀ sess, (k sess).HasKey key
  | .set _ key' _ _ k => key' = key ∧ ∀ rc, (k rc).HasKey key
  | .casDelete _ key' _ k => key' = key ∧ ∀ rc, (k rc).HasKey key
  | .delete _ key' k => key' = key ∧ ∀ rc, (k rc).HasKey key
  | .timer _ k => ∀ id, (k id).HasKey key
  | .send _ pc => pc.HasKey key
  | .answer k => ∀ a, (k a).HasKey key
  | .healthCheckPassed pc => pc.HasKey key
  | .goto pc => pc.HasKey key

theorem Pc.hasKey_of_message {key : Bytes} {pc : Pc} {msg : Message} (h : pc.message = some msg)
    (hkey : msg.key = key) : pc.HasKey key := by
  intro m hm
  rw [h] at hm
  cases hm
  exact hkey

/-! ## What stays of a message -/

/-- What the constructor of a message sets for good. -/
def Message.identity (msg : Message) :
    Bytes × RoleOfNode × NodeFunctionality × Json × AccountingRecordType × Bool :=
  (msg.callId, msg.role, msg.function, msg.receivedJson, msg.recordType, msg.timerInterim)

/-- `φ` holds of the message a thread is working on. -/
def Pc.Every (φ : Message → Prop) (pc : Pc) : Prop := ∀ msg, pc.message = some msg → φ msg

/-- `φ` holds of the message however the call turns out. -/
def Action.Every (φ : Message → Prop) : Action → Prop
  | .get _ _ k => ∀ sess, (k sess).Every φ
  | .set _ _ _ _ k => ∀ rc, (k rc).Every φ
  | .casDelete _ _ _ k => ∀ rc, (k rc).Every φ
  | .delete _ _ k => ∀ rc, (k rc).Every φ
  | .timer _ k => ∀ id, (k id).Every φ
  | .send _ pc => pc.Every φ
  | .answer k => ∀ a, (k a).Every φ
  | .healthCheckPassed pc => pc.Every φ
  | .goto pc => pc.Every φ

/-- The key of a call to a store. -/
def Action.key : Action → Option Bytes
  | .get _ key _ => some key
  | .set _ key _ _ _ => some key
  | .casDelete _ key _ _ => some key
  | .delete _ key _ => some key
  | _ => none

section Messages

variable {φ : Message → Prop} {pc : Pc} {msg : Message}

theorem Pc.every_of_message (h : pc.message = some msg) (hφ : φ msg) : pc.Every φ := by
  intro m hm
  rw [h] at hm
  cases hm
  exact hφ

theorem Pc.every_of_none (h : pc.message = none) : pc.Every φ := by
  intro m hm
  rw [h] at hm
  cases hm

theorem every_found (h : φ msg) (sess : Session) (newSession : Bool) :
    (found msg sess newSession).Every φ := by
  unfold found
  dsimp only
  split_ifs
  · exact Pc.every_of_message rfl h
  · exact Pc.every_of_message rfl h

theorem every_onCcfResponse (h : φ msg) (htimer : φ { msg with timerId := NO_TIMER })
    (site : Site) (accepted : Bool) (interimInterval : UInt32) (sessionId : Bytes) (rc : Int32) :
    (onCcfResponse site accepted interimInterval sessionId rc msg).Every φ := by
  unfold onCcfResponse
  dsimp only
  split_ifs
  all_goals first
    | exact Pc.every_of_message rfl h
    | exact Pc.every_of_message rfl htimer
    | exact Pc.every_of_none rfl

/-- What only depends on the identity of a message stays true of it. -/
theorem every_next (P : Platform) (site : Site)
    (hφ : ∀ m m' : Message, m'.identity = m.identity → φ m → φ m') (h : pc.Every φ) :
    (next P site pc).Every φ := by
  cases pc with
  | handle msg =>
    have hm : φ msg := h msg rfl
    simp only [next]
    split_ifs
    · intro sess
      cases sess with
      | none => exact Pc.every_of_message rfl hm
      | some sess => exact every_found hm sess false
    · exact Pc.every_of_message rfl (hφ msg _ rfl hm)
  | tryRemotes msg rest =>
    have hm : φ msg := h msg rfl
    cases rest with
    | nil => exact Pc.every_of_none rfl
    | cons s rest =>
      intro sess
      cases sess with
      | none => exact Pc.every_of_message rfl hm
      | some sess => exact every_found hm sess true
  | updateLocal msg sess newSession =>
    intro rc
    dsimp only
    split_ifs <;> exact Pc.every_of_message rfl (h msg rfl)
  | readRemotes msg sess rest =>
    have hm : φ msg := h msg rfl
    cases rest with
    | nil => exact Pc.every_of_message rfl (hφ msg _ rfl hm)
    | cons s rest =>
      intro sess
      cases sess <;> exact Pc.every_of_message rfl hm
  | updateRemote msg sess s rest remoteSess newSession =>
    intro rc
    dsimp only
    split_ifs <;> exact Pc.every_of_message rfl (h msg rfl)
  | deleteLocal msg sess =>
    intro rc
    dsimp only
    split_ifs <;> exact Pc.every_of_message rfl (h msg rfl)
  | deleteRemotes msg sess rest =>
    have hm : φ msg := h msg rfl
    cases rest with
    | nil =>
      simp only [next]
      split_ifs
      · exact fun _ => Pc.every_of_message rfl (hφ msg _ rfl hm)
      · exact Pc.every_of_message rfl (hφ msg _ rfl hm)
    | cons s rest =>
      intro rc
      dsimp only
      split_ifs <;> exact Pc.every_of_message rfl hm
  | send msg => exact Pc.every_of_message rfl (h msg rfl)
  | awaitAnswer msg =>
    have hm : φ msg := h msg rfl
    exact fun a => every_onCcfResponse hm (hφ msg _ rfl hm) site _ _ _ _
  | deleteUnknown msg rest =>
    cases rest with
    | nil => exact Pc.every_of_none rfl
    | cons s rest => exact fun _ => Pc.every_of_message rfl (h msg rfl)
  | createTimer msg interimInterval sessionId =>
    exact fun _ => Pc.every_of_message rfl (hφ msg _ rfl (h msg rfl))
  | writeSession msg sess rest =>
    cases rest with
    | nil => exact Pc.every_of_none rfl
    | cons s rest => exact fun _ => Pc.every_of_message rfl (h msg rfl)
  | sendChronosUpdate msg interimInterval accepted =>
    intro id
    dsimp only
    split_ifs
    · exact Pc.every_of_message rfl (h msg rfl)
    · exact Pc.every_of_none rfl
  | readTimerId msg timerId rest accepted =>
    have hm : φ msg := h msg rfl
    cases rest with
    | nil => exact Pc.every_of_none rfl
    | cons s rest =>
      intro sess
      cases sess with
      | none => exact Pc.every_of_message rfl hm
      | some sess => exact Pc.every_of_message rfl (hφ msg _ rfl hm)
  | writeTimerId msg timerId s rest sess accepted =>
    exact fun _ => Pc.every_of_message rfl (h msg rfl)
  | finish accepted =>
    simp only [next]
    split_ifs <;> exact Pc.every_of_none rfl
  | done => exact Pc.every_of_none rfl
  | aborted => exact Pc.every_of_none rfl

end Messages

/-- The stores are called about the key of the message. -/
theorem key_next (P : Platform) (site : Site) {pc : Pc} {key : Bytes}
    (h : (next P site pc).key = some key) : ∃ msg, pc.message = some msg ∧ msg.key = key := by
  cases pc with
  | handle msg =>
    simp only [next] at h
    split_ifs at h
    · exact ⟨msg, rfl, Option.some.inj h⟩
    · cases h
  | tryRemotes msg rest =>
    cases rest with
    | nil => cases h
    | cons s rest => exact ⟨msg, rfl, Option.some.inj h⟩
  | readRemotes msg sess rest =>
    cases rest with
    | nil => cases h
    | cons s rest => exact ⟨msg, rfl, Option.some.inj h⟩
  | deleteRemotes msg sess rest =>
    cases rest with
    | nil =>
      simp only [next] at h
      split_ifs at h <;> cases h
    | cons s rest => exact ⟨msg, rfl, Option.some.inj h⟩
  | deleteUnknown msg rest =>
    cases rest with
    | nil => cases h
    | cons s rest => exact ⟨msg, rfl, Option.some.inj h⟩
  | writeSession msg sess rest =>
    cases rest with
    | nil => cases h
    | cons s rest => exact ⟨msg, rfl, Option.some.inj h⟩
  | readTimerId msg timerId rest accepted =>
    cases rest with
    | nil => cases h
    | cons s rest => exact ⟨msg, rfl, Option.some.inj h⟩
  | finish accepted =>
    simp only [next] at h
    split_ifs at h <;> cases h
  | _ => first | exact ⟨_, rfl, Option.some.inj h⟩ | cases h

theorem Action.hasKey_iff {key : Bytes} {a : Action} :
    a.HasKey key ↔ (∀ k, a.key = some k → k = key) ∧ a.Every fun msg => msg.key = key := by
  cases a <;> simp [Action.HasKey, Action.key, Action.Every, Pc.HasKey, Pc.Every]

theorem key_of_identity {m m' : Message} (hid : m'.identity = m.identity) : m'.key = m.key := by
  simp only [Message.identity, Prod.mk.injEq] at hid
  rw [Message.key, Message.key, hid.1, hid.2.1, hid.2.2.1]

/-- A thread keeps to its key. -/
theorem hasKey_next (P : Platform) (site : Site) {key : Bytes} {pc : Pc} (h : pc.HasKey key) :
    (next P site pc).HasKey key := by
  refine Action.hasKey_iff.mpr ⟨?_, every_next P site ?_ h⟩
  · intro k hk
    obtain ⟨msg, hmsg, hkey⟩ := key_next P site hk
    exact hkey.symm.trans (h msg hmsg)
  · exact fun m m' hid hm => (key_of_identity hid).trans hm

end Ralf
