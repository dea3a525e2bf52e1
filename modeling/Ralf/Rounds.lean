import Ralf.Lib.Projection
import Ralf.OneStore
import Ralf.Provenance

/-!
# Rounds are atomic

The session manager reads a store, changes what it has read and writes it back, and starts again if
somebody else was faster. It does so in the local store (`handle`), in each remote store of an
INTERIM, and for the timer id. `nextRound` is the program with each read and its write taken together:
a message visits one store after another, and a visit is a function of what the store holds. There are
no versions, and a write under a version that was read goes through.

`rounds_atomic`: any number of messages of a key, at any sites, in any interleaving of their calls
while the stores can be reached, do what they would do in some interleaving of their visits. The same
is sent and asked of Chronos, in the same order, the stores hold the same, and the same messages are
through.

A visit takes place when the write goes through. Three things remain of the races, and the first two
still take a message back to the start of `handle`:

1. an INTERIM that found its session in a remote store adds it to the local store in a visit of its
   own, and there may be a session by then;
2. the version that a STOP names in the local store may be that of a remote store, and then it is a
   matter of chance whether it is the right one;
3. a new timer id is lost if another message writes in between, which is a matter of chance too.
-/

namespace Ralf

open Bytes Versioned Runs

/-! ## The program in rounds -/

/-- What the stores hold under the key, CAS values aside. -/
abbrev Cells := StoreId → Option Session

/-- A call to the outside world, or a whole visit to a store. -/
inductive Round where
  /-- What the store holds decides where the thread goes, and what it leaves there. -/
  | visit (store : StoreId) (f : Option Session → Pc × Option Session)
  | timer (req : TimerRequest) (k : Option Bytes → Pc)
  | send (msg : Message) (pc : Pc)
  | answer (k : Answer → Pc)
  | healthCheckPassed (pc : Pc)
  | goto (pc : Pc)

/-- A call that is a round of its own. The writes among these add a session where there is none; a
write under a version that was read belongs to the round of the read. -/
def Action.round : Action → Round
  | .get s _ k => .visit s fun o => (k o, o)
  | .set s _ sess _ k => .visit s fun
    | none => (k .ok, sess.kept)
    | some v => (k .dataContention, some v)
  | .casDelete s _ _ k => .visit s fun _ => (k .ok, none)
  | .delete s _ k => .visit s fun _ => (k .ok, none)
  | .timer req k => .timer req k
  | .send msg pc => .send msg pc
  | .answer k => .answer k
  | .healthCheckPassed pc => .healthCheckPassed pc
  | .goto pc => .goto pc

section Program

variable (P : Platform)

/-- The next round of a thread. The control states between a read and its write are not used. -/
def nextRound (site : Site) (chance : Bool) : Pc → Round
  | .handle msg =>
    if msg.recordType.isInterim || msg.recordType.isStop then
      .visit site.localStore fun
        | some v =>
          if msg.recordType.isInterim then
            (.readRemotes msg v.incremented site.remoteStores, v.incremented.kept)
          else (.deleteRemotes msg v.incremented site.remoteStores, none)
        | none => (.tryRemotes msg site.remoteStores, none)
    else .goto (.send { msg with accountingRecordNumber := 1 })
  | .readRemotes msg sess (s :: rest) =>
    .visit s fun
      | some v => (.readRemotes msg sess rest, v.incremented.kept)
      | none => (.readRemotes msg sess rest, sess.kept)
  | .deleteLocal msg sess =>
    .visit site.localStore fun
      | some v =>
        if chance then (.deleteRemotes msg sess site.remoteStores, none) else (.handle msg, some v)
      | none => (.handle msg, none)
  | .readTimerId msg timerId (s :: rest) accepted =>
    .visit s fun
      | some v =>
        (.readTimerId msg timerId rest accepted,
          if chance then ({ v with timerId := timerId } : Session).kept else some v)
      | none => (.readTimerId msg timerId rest accepted, none)
  | pc => (next P site pc).round

def performRound (env : Env) (C : Cells) : Round → Pc × Cells × List Event
  | .visit s f => ((f (C s)).1, Function.update C s (f (C s)).2, [])
  | .timer req k => (k env.timer, C, [.timer req])
  | .send msg pc => (pc, C, [.send msg (acrSessionId env msg)])
  | .answer k => (k env.answer, C, [])
  | .healthCheckPassed pc => (pc, C, [.healthCheckPassed])
  | .goto pc => (pc, C, [])

/-- One round of a thread. -/
def stepRound (site : Site) (x : Env × Bool) (pc : Pc) (C : Cells) : Pc × Cells × List Event :=
  performRound x.1 C (nextRound P site x.2 pc)

/-- Threads that go in rounds. -/
abbrev RoundSys (κ : Type) := Pool κ Pc Cells Event

variable {κ : Type}

/-- Each message at the start of `handle`, over the stores as they are. -/
def RoundSys.start (key : Bytes) (msg : κ → Message) (W : World) : RoundSys κ :=
  ⟨fun i => .handle (msg i), fun s => (view P (W s) key).map Session.content, []⟩

variable [DecidableEq κ]

def roundSysStep (site : κ → Site) (a : (κ × Env) × Bool) : RoundSys κ → RoundSys κ :=
  Pool.step (fun i x pc C => stepRound P (site i) x pc C) (a.1.1, (a.1.2, a.2))

end Program

/-! ## Registers and cells -/

def Regs.cells (R : Regs) : Cells := fun s => (R s).cell.map Session.content

section Cells

variable {R : Regs}

theorem cells_put (s : StoreId) (env : Env) (x : Option Session) :
    (R.put s env x).cells = Function.update R.cells s (x.map Session.content) := by
  funext t
  unfold Regs.cells
  by_cases ht : t = s
  · subst ht
    rw [Regs.put_self, Register.put_cell, Function.update_self]
  · rw [Regs.put_of_ne R env x ht, Function.update_of_ne ht]

theorem cells_erase (s : StoreId) : (R.erase s).cells = Function.update R.cells s none := by
  funext t
  unfold Regs.cells
  by_cases ht : t = s
  · subst ht
    rw [Regs.erase_self, Function.update_self]
    rfl
  · rw [Regs.erase_of_ne R ht, Function.update_of_ne ht]

theorem cells_some {s : StoreId} {v : Session} (h : (R s).cell = some v) :
    R.cells s = some v.content := by
  unfold Regs.cells
  rw [h]
  rfl

theorem cells_none {s : StoreId} (h : (R s).cell = none) : R.cells s = none := by
  unfold Regs.cells
  rw [h]
  rfl

end Cells

/-! ## Where a thread stands in its rounds -/

/-- The thread is between rounds, and holds nothing that it has read and nothing that differs. -/
def Pc.BetweenRounds : Pc → Prop
  | .updateLocal _ _ _ => False
  | .readRemotes _ _ _ => False
  | .updateRemote _ _ _ _ _ _ => False
  | .deleteLocal _ _ => False
  | .deleteRemotes _ _ _ => False
  | .readTimerId _ _ _ _ => False
  | .writeTimerId _ _ _ _ _ _ => False
  | _ => True

/-- A thread, and where it stands in its rounds: between a read and the write that belongs to it, the
round is yet to come. -/
inductive Follows (site : Site) (R : Regs) : Pc → Pc → Prop where
  | same {pc} : pc.BetweenRounds → Follows site R pc pc
  | interim {msg held} : msg.recordType = .interim →
      (R site.localStore).Tracks Session.cas held →
      Follows site R (.updateLocal msg held.incremented false) (.handle msg)
  | add {msg sess} : Follows site R (.updateLocal msg sess true) (.updateLocal msg sess.content true)
  | remotes {msg sess rest} :
      Follows site R (.readRemotes msg sess rest) (.readRemotes msg sess.content rest)
  | found {msg sess s rest held} : (R s).Tracks Session.cas held →
      Follows site R (.updateRemote msg sess s rest held.incremented false)
        (.readRemotes msg sess.content (s :: rest))
  | missing {msg sess s rest} :
      Follows site R (.updateRemote msg sess s rest sess true)
        (.readRemotes msg sess.content (s :: rest))
  | stop {msg held} : msg.recordType = .stop → (R site.localStore).Tracks Session.cas held →
      Follows site R (.deleteLocal msg held.incremented) (.handle msg)
  | stray {msg sess} : sess.cas ≠ 0 →
      Follows site R (.deleteLocal msg sess) (.deleteLocal msg sess.content)
  | deletes {msg sess rest} :
      Follows site R (.deleteRemotes msg sess rest) (.deleteRemotes msg sess.content rest)
  | timerIds {msg m timerId rest accepted} :
      Follows site R (.readTimerId msg timerId rest accepted)
        (.readTimerId m timerId rest accepted)
  | timerId {msg m timerId s rest held accepted} : (R s).Tracks Session.cas held →
      Follows site R
        (.writeTimerId msg timerId s rest { held with timerId := timerId } accepted)
        (.readTimerId m timerId (s :: rest) accepted)

section Simulation

variable {P : Platform} {site : Site} {env : Env} {pc pc' q : Pc} {R R' : Regs} {es : List Event}

theorem Follows.done_iff (h : Follows site R pc q) : pc = .done ↔ q = .done := by
  cases h with
  | same _ => exact Iff.rfl
  | _ => exact iff_of_false Pc.noConfusion Pc.noConfusion

theorem Follows.evolves (h : Follows site R pc q)
    (hR : ∀ s, (R s).Evolves Session.cas (R' s)) : Follows site R' pc q := by
  cases h with
  | same hpc => exact .same hpc
  | interim hi ht => exact .interim hi (ht.evolves (hR _))
  | add => exact .add
  | remotes => exact .remotes
  | found ht => exact .found (ht.evolves (hR _))
  | missing => exact .missing
  | stop hs ht => exact .stop hs (ht.evolves (hR _))
  | stray hcas => exact .stray hcas
  | deletes => exact .deletes
  | timerIds => exact .timerIds
  | timerId ht => exact .timerId (ht.evolves (hR _))

variable (P site env R) in
/-- What a round makes of a thread is what the move makes of it. -/
def Matches (q : Pc) (pc' : Pc) (R' : Regs) (es : List Event) : Prop :=
  ∃ chance, Follows site R' pc' (stepRound P site (env, chance) q R.cells).1 ∧
    (stepRound P site (env, chance) q R.cells).2 = (R'.cells, es)

/-- A visit to a store. -/
theorem Matches.visit (chance : Bool) {s : StoreId} {f : Option Session → Pc × Option Session}
    {q' : Pc} (hround : nextRound P site chance q = .visit s f)
    (hf : (f (R.cells s)).1 = q') (hfollows : Follows site R' pc' q')
    (hcells : R'.cells = Function.update R.cells s (f (R.cells s)).2) :
    Matches P site env R q pc' R' [] := by
  refine ⟨chance, ?_, ?_⟩
  · simp only [stepRound, hround, performRound]
    rw [hf]
    exact hfollows
  · simp only [stepRound, hround, performRound]
    rw [hcells]

/-- A call that is not to a store. -/
theorem Matches.quiet (hkey : (next P site pc).key = none)
    (hround : nextRound P site false pc = (next P site pc).round)
    (hstep : stepReg P site env pc R = (pc', R', es)) (hfollows : Follows site R' pc' pc') :
    Matches P site env R pc pc' R' es := by
  unfold stepReg at hstep
  refine ⟨false, ?_⟩
  unfold stepRound
  rw [hround]
  cases ha : next P site pc with
  | get s key k =>
    rw [ha] at hkey
    cases hkey
  | set s key sess newSession k =>
    rw [ha] at hkey
    cases hkey
  | casDelete s key sess k =>
    rw [ha] at hkey
    cases hkey
  | delete s key k =>
    rw [ha] at hkey
    cases hkey
  | timer req k =>
    rw [ha] at hstep
    cases hstep
    exact ⟨hfollows, rfl⟩
  | send msg pc =>
    rw [ha] at hstep
    cases hstep
    exact ⟨hfollows, rfl⟩
  | answer k =>
    rw [ha] at hstep
    cases hstep
    exact ⟨hfollows, rfl⟩
  | healthCheckPassed pc =>
    rw [ha] at hstep
    cases hstep
    exact ⟨hfollows, rfl⟩
  | goto pc =>
    rw [ha] at hstep
    cases hstep
    exact ⟨hfollows, rfl⟩

theorem exists_of_version {s : StoreId} (hsound : SoundAll R) (h : R.version s ≠ 0) :
    ∃ v, (R s).cell = some v :=
  Option.ne_none_iff_exists'.mp fun hnone => h ((Register.version_eq_zero (hsound s)).mpr hnone)

/-- The visit that a write takes part in. -/
theorem Matches.write (chance : Bool) {s : StoreId} {f : Option Session → Pc × Option Session}
    {q' : Pc} {x : Option Session} (hround : nextRound P site chance q = .visit s f)
    (hf : f (R.cells s) = (q', x.map Session.content)) (hfollows : Follows site (R.put s env x) pc' q') :
    Matches P site env R q pc' (R.put s env x) [] := by
  refine .visit chance hround (by rw [hf]) hfollows ?_
  rw [cells_put, hf]

/-- A visit that changes nothing. -/
theorem Matches.look (chance : Bool) {s : StoreId} {f : Option Session → Pc × Option Session}
    {q' : Pc} (hround : nextRound P site chance q = .visit s f)
    (hf : f (R.cells s) = (q', R.cells s)) (hfollows : Follows site R pc' q') :
    Matches P site env R q pc' R [] := by
  refine .visit chance hround (by rw [hf]) hfollows ?_
  rw [hf, Function.update_eq_self]

theorem nextRound_handle {msg : Message}
    (h : (msg.recordType.isInterim || msg.recordType.isStop) = true) :
    nextRound P site false (.handle msg) = .visit site.localStore fun
      | some v =>
        if msg.recordType.isInterim then
          (.readRemotes msg v.incremented site.remoteStores, v.incremented.kept)
        else (.deleteRemotes msg v.incremented site.remoteStores, none)
      | none => (.tryRemotes msg site.remoteStores, none) := by
  simp only [nextRound]
  rw [if_pos h]

variable (P site) in
theorem nextRound_first {msg : Message}
    (h : ¬(msg.recordType.isInterim || msg.recordType.isStop) = true) :
    (next P site (.handle msg)).key = none ∧
      nextRound P site false (.handle msg) = (next P site (.handle msg)).round := by
  simp only [nextRound, next]
  rw [if_neg h, if_neg h]
  exact ⟨rfl, rfl⟩

theorem nextRound_deleteRemotes (msg : Message) (sess : Session) :
    nextRound P site false (.deleteRemotes msg sess.content []) =
      if sess.timerId ≠ NO_TIMER then
        .timer (.delete sess.timerId) fun _ => .send (fillIn msg sess)
      else .goto (.send (fillIn msg sess)) := by
  show (next P site (.deleteRemotes msg sess.content [])).round = _
  simp only [next]
  rw [show sess.content.timerId = sess.timerId from rfl]
  split_ifs <;> rfl

/-- **One step.** A thread that makes a move stays where it is in its rounds, or makes the round that
ends with the move. -/
theorem Move.follows (h : Move P site env pc R pc' R' es)
    (hstep : stepReg P site env pc R = (pc', R', es)) (hsound : SoundAll R)
    (hq : Follows site R pc q) :
    (Follows site R' pc' q ∧ R'.cells = R.cells ∧ es = []) ∨ Matches P site env R q pc' R' es := by
  cases h with
  | handleInterim hi hc =>
    cases hq
    exact .inl ⟨.interim hi (.of_read (hsound _) hc), rfl, rfl⟩
  | handleStop hs hc =>
    cases hq
    exact .inl ⟨.stop hs (.of_read (hsound _) hc), rfl, rfl⟩
  | handleMissing hlater hc =>
    cases hq
    refine .inr (.look false (nextRound_handle (Message.later_iff.mp hlater)) ?_ (.same trivial))
    rw [cells_none hc]
  | handleFirst hi hs =>
    cases hq
    obtain ⟨hkey, hround⟩ := nextRound_first P site fun h => (Message.later_iff.mpr h).elim hi hs
    exact .inr (.quiet hkey hround hstep (.same trivial))
  | tryNone =>
    cases hq
    exact .inr (.quiet rfl rfl hstep (.same trivial))
  | tryInterim hi hc =>
    cases hq
    refine .inr (.look false rfl ?_ .add)
    rw [cells_some hc]
    dsimp only
    rw [found_interim hi]
    rfl
  | tryStop hi hc =>
    cases hq
    refine .inr (.look false rfl ?_ (.stray (hsound _ _ hc).2))
    rw [cells_some hc]
    dsimp only
    unfold found
    rw [if_neg fun h => hi (AccountingRecordType.isInterim_iff.mp h)]
    rfl
  | tryNext hc =>
    cases hq
    refine .inr (.look false rfl ?_ (.same trivial))
    rw [cells_none hc]
  | updateLocal hver =>
    cases hq with
    | same hpc => exact hpc.elim
    | interim hi ht =>
      have hinterim := AccountingRecordType.isInterim_iff.mpr hi
      refine .inr (.write false (nextRound_handle (by rw [hinterim]; rfl)) ?_ .remotes)
      rw [cells_some (ht.cell_of_version hver)]
      dsimp only
      rw [if_pos hinterim, written_content]
      rfl
    | add =>
      refine .inr (.write false rfl ?_ .remotes)
      rw [cells_none ((Register.version_eq_zero (hsound _)).mp hver), written_content]
      rfl
  | updateLocalAgain hver =>
    cases hq with
    | same hpc => exact hpc.elim
    | interim hi ht => exact .inl ⟨.same trivial, rfl, rfl⟩
    | add =>
      obtain ⟨v, hv⟩ := exists_of_version hsound hver
      refine .inr (.look false rfl ?_ (.same trivial))
      rw [cells_some hv]
      rfl
  | readRemotesNone =>
    cases hq with
    | same hpc => exact hpc.elim
    | remotes => exact .inr ⟨false, .same trivial, rfl⟩
  | readRemotesMissing hc =>
    cases hq with
    | same hpc => exact hpc.elim
    | remotes => exact .inl ⟨.missing, rfl, rfl⟩
  | readRemotesFound hc =>
    cases hq with
    | same hpc => exact hpc.elim
    | remotes => exact .inl ⟨.found (.of_read (hsound _) hc), rfl, rfl⟩
  | updateRemote hver =>
    cases hq with
    | same hpc => exact hpc.elim
    | found ht =>
      refine .inr (.write false rfl ?_ .remotes)
      rw [cells_some (ht.cell_of_version hver), written_content]
      rfl
    | missing =>
      refine .inr (.write false rfl ?_ .remotes)
      rw [cells_none ((Register.version_eq_zero (hsound _)).mp hver), written_content]
      rfl
  | updateRemoteAgain hver =>
    cases hq with
    | same hpc => exact hpc.elim
    | found ht => exact .inl ⟨.remotes, rfl, rfl⟩
    | missing => exact .inl ⟨.remotes, rfl, rfl⟩
  | deleteLocal hver =>
    cases hq with
    | same hpc => exact hpc.elim
    | stop hs ht =>
      refine .inr (.write false (nextRound_handle (by rw [hs]; rfl)) ?_ .deletes)
      rw [cells_some (ht.cell_of_version hver)]
      dsimp only
      rw [hs]
      rfl
    | stray hcas =>
      obtain ⟨v, hv⟩ := exists_of_version hsound fun h0 => hcas (hver.symm.trans h0)
      refine .inr (.write true rfl ?_ .deletes)
      rw [cells_some hv]
      rfl
  | deleteLocalAgain hver =>
    cases hq with
    | same hpc => exact hpc.elim
    | stop hs ht => exact .inl ⟨.same trivial, rfl, rfl⟩
    | stray hcas =>
      refine .inr (.look false rfl ?_ (.same trivial))
      cases hc : R.cells site.localStore <;> rfl
  | @deleteRemotesTimer msg sess _ ht =>
    cases hq with
    | same hpc => exact hpc.elim
    | deletes =>
      refine .inr ⟨false, ?_⟩
      unfold stepRound
      rw [nextRound_deleteRemotes, if_pos ht]
      exact ⟨.same trivial, rfl⟩
  | @deleteRemotesNone msg sess _ ht =>
    cases hq with
    | same hpc => exact hpc.elim
    | deletes =>
      refine .inr ⟨false, ?_⟩
      unfold stepRound
      rw [nextRound_deleteRemotes, if_neg (not_not.mpr ht)]
      exact ⟨.same trivial, rfl⟩
  | deleteRemotes =>
    cases hq with
    | same hpc => exact hpc.elim
    | deletes => exact .inr (.visit false rfl rfl .deletes (cells_erase _))
  | deleteUnknown =>
    cases hq
    exact .inr (.visit false rfl rfl (.same trivial) (cells_erase _))
  | writeSession hver =>
    cases hq
    refine .inr (.write false rfl ?_ (.same trivial))
    rw [cells_none ((Register.version_eq_zero (hsound _)).mp hver), written_content]
  | writeSessionFailed hver =>
    cases hq
    obtain ⟨v, hv⟩ := exists_of_version hsound hver
    refine .inr (.look false rfl ?_ (.same trivial))
    rw [cells_some hv]
  | chronosUpdated =>
    cases hq
    exact .inr (.quiet rfl rfl hstep .timerIds)
  | readTimerIdNone =>
    cases hq with
    | same hpc => exact hpc.elim
    | timerIds => exact .inr ⟨false, .same trivial, rfl⟩
  | readTimerId hc =>
    cases hq with
    | same hpc => exact hpc.elim
    | timerIds => exact .inl ⟨.timerId (.of_read (hsound _) hc), rfl, rfl⟩
  | readTimerIdMissing hc =>
    cases hq with
    | same hpc => exact hpc.elim
    | @timerIds _ m =>
      refine .inr (.look false rfl ?_ (.timerIds (m := m)))
      rw [cells_none hc]
  | writeTimerId hver =>
    cases hq with
    | same hpc => exact hpc.elim
    | @timerId _ m _ _ _ _ _ ht =>
      refine .inr (.write true rfl ?_ (.timerIds (m := m)))
      rw [cells_some (ht.cell_of_version hver), written_content]
      rfl
  | @writeTimerIdFailed _ _ s =>
    cases hq with
    | same hpc => exact hpc.elim
    | @timerId _ m =>
      refine .inr (.look false rfl ?_ (.timerIds (m := m)))
      cases hc : R.cells s <;> rfl
  | _ =>
    cases hq
    exact .inr (.quiet rfl rfl hstep (.same trivial))

end Simulation

/-! ## Runs -/

section Runs

variable {P : Platform} {κ : Type} [DecidableEq κ] {site : κ → Site}

/-- The threads stand where they do in their rounds, the stores hold the same and the same was
seen. -/
structure InRounds (site : κ → Site) (σ : RegSys κ) (τ : RoundSys κ) : Prop where
  sound : SoundAll σ.shared
  pc : ∀ i, Follows (site i) σ.shared (σ.pc i) (τ.pc i)
  cells : τ.shared = σ.shared.cells
  trace : τ.trace = σ.trace

theorem InRounds.step {σ : RegSys κ} {τ : RoundSys κ} (h : InRounds site σ τ) {a : κ × Env}
    (hok : StoresOk σ.shared.issued a.2) :
    (∃ chance, InRounds site (regSysStep P site a σ) (roundSysStep P site (a, chance) τ)) ∨
      InRounds site (regSysStep P site a σ) τ := by
  obtain ⟨i, env⟩ := a
  have hmove : Move P (site i) env (σ.pc i) σ.shared _ _ _ := move_stepReg hok.1 (σ.pc i) σ.shared
  have hR := hmove.evolves hok.2
  have hsound : SoundAll (regSysStep P site (i, env) σ).shared :=
    fun s => (h.sound s).evolves (hR s)
  have hothers : ∀ j, Follows (site j) (regSysStep P site (i, env) σ).shared (σ.pc j) (τ.pc j) :=
    fun j => (h.pc j).evolves hR
  rcases hmove.follows rfl h.sound (h.pc i) with ⟨hf, hcells, hes⟩ | ⟨chance, hf, heq⟩
  · refine .inr ⟨hsound, ?_, h.cells.trans hcells.symm, ?_⟩
    · intro j
      by_cases hj : j = i
      · subst hj
        simp only [regSysStep, Pool.step, Function.update_self]
        exact hf
      · simp only [regSysStep, Pool.step, Function.update_of_ne hj]
        exact hothers j
    · simp only [regSysStep, Pool.step, hes, List.map_nil, List.append_nil]
      exact h.trace
  · rw [← h.cells] at hf heq
    refine .inl ⟨chance, hsound, ?_, congrArg Prod.fst heq, ?_⟩
    · intro j
      by_cases hj : j = i
      · subst hj
        simp only [regSysStep, roundSysStep, Pool.step, Function.update_self]
        exact hf
      · simp only [regSysStep, roundSysStep, Pool.step, Function.update_of_ne hj]
        exact hothers j
    · simp only [regSysStep, roundSysStep, Pool.step]
      rw [h.trace, congrArg Prod.snd heq]

/-- **Rounds are atomic.** A run of any messages of a key, from stores that hold sessions or nothing
under it and can always be reached, is matched by a run of the same messages in rounds, on a part of
the schedule: the same is sent and asked of Chronos in the same order, the stores hold the same
sessions, and the same messages are through. -/
theorem rounds_atomic {key : Bytes} {msg : κ → Message} {W : World} (hmsg : ∀ i, (msg i).key = key)
    (hW : StoresReady P key W) {as : List (κ × Env)}
    (hrun : Along (sysStep P site) (fun σ a => StoresOk (World.issued σ.shared) a.2) as
      (Sys.start msg W)) :
    ∃ bs, (bs.map Prod.fst).Sublist as ∧
      (exec (roundSysStep P site) bs (RoundSys.start P key msg W)).trace =
        (exec (sysStep P site) as (Sys.start msg W)).trace ∧
      (∀ s, (exec (roundSysStep P site) bs (RoundSys.start P key msg W)).shared s =
        (view P ((exec (sysStep P site) as (Sys.start msg W)).shared s) key).map
          Session.content) ∧
      ∀ i, (exec (sysStep P site) as (Sys.start msg W)).pc i = .done ↔
        (exec (roundSysStep P site) bs (RoundSys.start P key msg W)).pc i = .done := by
  have hregs := regs_sysExec (keyed_start hmsg hW) site as
  have hok : Along (regSysStep P site) (fun σ a => StoresOk σ.shared.issued a.2) as
      ((Sys.start msg W).map (regs P key)) :=
    regs_sysAlong (keyed_start hmsg hW) (fun _ _ _ h => h) hrun
  have hstart : InRounds site ((Sys.start msg W).map (regs P key)) (RoundSys.start P key msg W) :=
    ⟨soundAll_regs hW, fun i => .same trivial, rfl, rfl⟩
  obtain ⟨bs, hbs, hend⟩ := Along.follow (fun σ τ a h ha => h.step ha) hok hstart
  rw [← hregs] at hend
  exact ⟨bs, hbs, hend.trace, fun s => congrFun hend.cells s, fun i => (hend.pc i).done_iff⟩

end Runs

/-- Two INTERIMs of a session read the local store, and the second one to write starts again. -/
def racingInterims : List (Bool × Input) :=
  ([false, true, false, true] ++ List.replicate 8 false ++ List.replicate 8 true).map
    fun i => (i, Input.answering 2001)

theorem rounds_atomic_racing :
    ∃ bs, (bs.map Prod.fst).Sublist (schedule 1 racingInterims) ∧
      (exec (roundSysStep compactPlatform fun _ => localAndRemote) bs
        (RoundSys.start compactPlatform sampleKey (fun _ => sampleMessage .interim)
          (World.holding compactPlatform sampleKey (sampleSession 1) fun s => s < 2))).trace.filterMap
            (fun e => e.2.sent.map fun m => (e.1, m.1.accountingRecordNumber)) =
        [(false, 2), (true, 3)] := by
  let msg : Bool → Message := fun _ => sampleMessage .interim
  have hrun : Along (sysStep compactPlatform fun _ => localAndRemote)
      (fun σ a => StoresOk (World.issued σ.shared) a.2) (schedule 1 racingInterims)
      (Sys.start msg (World.holding compactPlatform sampleKey (sampleSession 1) fun s => s < 2)) :=
    storesOk_schedule racingInterims
  have hmsg : ∀ i, (msg i).key = sampleKey := fun _ => rfl
  obtain ⟨bs, hbs, htrace, -⟩ := rounds_atomic hmsg (storesReady_holding _ _ _ _) hrun
  refine ⟨bs, hbs, ?_⟩
  rw [htrace]
  decide +kernel

end Ralf
