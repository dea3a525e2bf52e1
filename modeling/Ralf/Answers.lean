import Ralf.Acrs

/-!
# What an answer touches

The answer to an INTERIM arrives some time after the INTERIM was sent; by then the session may have
been stopped and the call id reused for another one. `on_ccf_response` finds the record by its key
alone, when it deletes it (result 5002) and when `update_timer_id` reads it. `answers_spare_others`
says that no record of another session is changed in a run in which these two calls meet no such
record: the write of `update_timer_id` needs no condition of its own, since its version ties it to
the record that was read.
-/

namespace Ralf

open Bytes Versioned Runs

/-- The INTERIM whose answer is being processed. -/
def Pc.answering : Pc → Option Message
  | .awaitAnswer msg => some msg
  | .deleteUnknown msg _ => some msg
  | .sendChronosUpdate msg _ _ => some msg
  | .readTimerId msg _ _ _ => some msg
  | .writeTimerId msg _ _ _ _ _ => some msg
  | _ => none

/-- The store in which the answer's processing is about to look for the record by its key. -/
def Pc.looksUp : Pc → Option (Message × StoreId)
  | .deleteUnknown msg (s :: _) => some (msg, s)
  | .readTimerId msg _ (s :: _) _ => some (msg, s)
  | _ => none

/-- What is written back is a record of the answer's own session. -/
def Pc.WritesOwn : Pc → Prop
  | .writeTimerId msg _ _ _ sess _ => sess.sessionId = msg.sessionId
  | _ => True

section Moves

variable {P : Platform} {site : Site} {env : Env} {pc pc' : Pc} {R R' : Regs} {es : List Event}

theorem Move.writesOwn (h : Move P site env pc R pc' R' es)
    (hown : ∀ msg s, pc.looksUp = some (msg, s) → ∀ v, (R s).cell = some v →
      v.sessionId = msg.sessionId) : pc'.WritesOwn := by
  cases h with
  | readTimerId hcell =>
    have hid := hown _ _ rfl _ hcell
    exact hid
  | _ => trivial

/-- A step of an answer's processing leaves the records of other sessions alone. -/
theorem Move.spares (h : Move P site env pc R pc' R' es) (hheld : Held site R pc)
    (hwrites : pc.WritesOwn)
    (hown : ∀ msg s, pc.looksUp = some (msg, s) → ∀ v, (R s).cell = some v →
      v.sessionId = msg.sessionId)
    {msg : Message} (hans : pc.answering = some msg) {s : StoreId} {v : Session}
    (hv : (R s).cell = some v) (hne : v.sessionId ≠ msg.sessionId) : R' s = R s := by
  cases h with
  | @deleteUnknown _ t =>
    cases hans
    refine Regs.erase_of_ne R ?_
    rintro rfl
    exact hne (hown _ _ rfl _ hv)
  | @writeTimerId _ _ t _ _ _ _ hver =>
    cases hans
    refine Regs.put_of_ne R env _ ?_
    rintro rfl
    obtain ⟨held, ht, rfl⟩ := hheld
    rw [ht.cell_of_version hver] at hv
    cases hv
    exact hne hwrites
  | _ => first | rfl | cases hans

end Moves

section Runs

variable {P : Platform} {κ : Type} [DecidableEq κ] {site : κ → Site} {key : Bytes}

/-- The record that is deleted, or read for its timer id, belongs to the answer's own session. -/
def FindsOwn (P : Platform) (key : Bytes) (σ : Sys κ) (a : κ × Env) : Prop :=
  ∀ msg s, (σ.pc a.1).looksUp = some (msg, s) → ∀ v, view P (σ.shared s) key = some v →
    v.sessionId = msg.sessionId

/-- If the thread that moves processes an answer, it changes no record of another session. -/
def SparesOthers (P : Platform) (site : κ → Site) (key : Bytes) (σ : Sys κ) (a : κ × Env) : Prop :=
  ∀ msg, (σ.pc a.1).answering = some msg → ∀ s v, view P (σ.shared s) key = some v →
    v.sessionId ≠ msg.sessionId → view P ((sysStep P site a σ).shared s) key = some v

/-- The threads hold what they should, and write back only records of their own session. -/
structure AnswerInv (site : κ → Site) (σ : RegSys κ) : Prop where
  sane : Sane site σ
  writesOwn : ∀ i, (σ.pc i).WritesOwn

/-- The condition of `FindsOwn`, on registers. -/
def RegFindsOwn (σ : RegSys κ) (a : κ × Env) : Prop :=
  ∀ msg s, (σ.pc a.1).looksUp = some (msg, s) → ∀ v, (σ.shared s).cell = some v →
    v.sessionId = msg.sessionId

theorem AnswerInv.step {σ : RegSys κ} (h : AnswerInv site σ) {a : κ × Env}
    (hok : StoresOk σ.shared.issued a.2) (hown : RegFindsOwn σ a) :
    AnswerInv site (regSysStep P site a σ) := by
  have hsane := h.sane.step (P := P) hok
  obtain ⟨pc', R', es, hm, heq⟩ := regSysStep_cases P site a hok.1 σ
  rw [heq] at hsane ⊢
  refine ⟨hsane, ?_⟩
  exact (Function.forall_update_iff σ.pc fun _ pc => pc.WritesOwn).mpr
    ⟨hm.writesOwn hown, fun i _ => h.writesOwn i⟩

/-- What is assumed of a run, and the condition under which answers keep to their session. -/
def AnswerOk (P : Platform) (key : Bytes) (σ : Sys κ) (a : κ × Env) : Prop :=
  StoresOk (World.issued σ.shared) a.2 ∧ FindsOwn P key σ a

theorem sparesOthers_of_inv {σ : Sys κ} (hkeyed : Keyed P key σ)
    (h : AnswerInv site (σ.map (regs P key))) {a : κ × Env} (hok : AnswerOk P key σ a) :
    SparesOthers P site key σ a := by
  intro msg hans s v hv hne
  have hstep := regs_sysStep hkeyed site a
  obtain ⟨pc', R', es, hm, heq⟩ := regSysStep_cases P site a hok.1.1 (σ.map (regs P key))
  rw [heq] at hstep
  have hR' : regs P key (sysStep P site a σ).shared = R' := congrArg Pool.shared hstep
  have hsame : R' s = regs P key σ.shared s :=
    hm.spares (h.sane.held a.1) (h.writesOwn a.1) hok.2 hans hv hne
  rw [← hR'] at hsame
  exact (congrArg Register.cell hsame).trans hv

/-- **An answer keeps to its own session.** Messages of one key are handled at any sites, in any
interleaving. If every call by which the processing of an INTERIM's answer finds a record by its key
finds one of the INTERIM's own session, no step of such a processing changes a record of another
session, in any store. -/
theorem answers_spare_others {msg : κ → Message} (hkey : ∀ i, (msg i).key = key) {W : World}
    (hW : StoresReady P key W) {as : List (κ × Env)}
    (hrun : Along (sysStep P site) (AnswerOk P key) as (Sys.start msg W)) :
    Along (sysStep P site) (SparesOthers P site key) as (Sys.start msg W) := by
  have hkeyed : Keyed P key (Sys.start msg W) := keyed_start hkey hW
  have hstart : AnswerInv site ((Sys.start msg W).map (regs P key)) :=
    ⟨sane_start hW, fun _ => trivial⟩
  refine Along.mono (fun τ a h => sparesOthers_of_inv h.2.1 h.2.2 h.1)
    (Along.strengthen (I := fun τ => Keyed P key τ ∧ AnswerInv site (τ.map (regs P key))) ?_ hrun
      ⟨hkeyed, hstart⟩)
  intro τ a h ha
  refine ⟨h.1.step site a, ?_⟩
  rw [regs_sysStep h.1 site a]
  exact h.2.step ha.1 ha.2

end Runs

/-! ### A call id used twice -/

/-- START, INTERIM and STOP of a session, then the START of another one. -/
def reusedCallId : Fin 4 → Message
  | 0 => sampleMessage .start
  | 1 => sampleMessage .interim
  | 2 => sampleMessage .stop
  | 3 => sampleMessage .start

/-- The CCF answers with this session id and result code. -/
def answerFor (sessionId : String) (rc : Int32) : Input :=
  ⟨none, ascii sessionId, ⟨0, ascii sessionId, rc⟩⟩

/-- START and INTERIM, each up to its end. The INTERIM is answered with 5002. -/
def promptAnswer : List (Fin 4 × Env) :=
  schedule 1 ((List.replicate 6 (0, answerFor "x" 2001)) ++ List.replicate 8 (1, answerFor "x" 5002))

/-- The INTERIM is sent, the session stopped and another one started before the INTERIM's answer
arrives, which is 5002. -/
def lateAnswer : List (Fin 4 × Env) :=
  schedule 1 ((List.replicate 6 (0, answerFor "x" 2001)) ++
    (List.replicate 4 (1, answerFor "x" 2001)) ++ (List.replicate 6 (2, answerFor "x" 2001)) ++
    (List.replicate 6 (3, answerFor "y" 2001)) ++ [(1, answerFor "x" 5002)])

/-- All four from their start; no store holds anything. -/
def beforeCalls : Sys (Fin 4) :=
  Sys.start reusedCallId (World.holding compactPlatform sampleKey (sampleSession 1) fun _ => false)

def beforeCallsRegs : RegSys (Fin 4) :=
  ⟨fun i => .handle (reusedCallId i), Regs.holding (sampleSession 1) fun _ => false, []⟩

theorem key_reusedCallId (i : Fin 4) : (reusedCallId i).key = sampleKey := by
  match i with
  | 0 => rfl
  | 1 => rfl
  | 2 => rfl
  | 3 => rfl

theorem regs_beforeCalls (as : List (Fin 4 × Env)) :
    (exec (sysStep compactPlatform fun _ => oneStore) as beforeCalls).map
        (regs compactPlatform sampleKey) =
      exec (regSysStep compactPlatform fun _ => oneStore) as beforeCallsRegs :=
  regs_sysExec_holding _ key_reusedCallId _ _ _ _

set_option maxRecDepth 8000 in
/-- An answer that arrives at once deletes its own session only. -/
theorem answers_spare_others_promptAnswer :
    Along (sysStep compactPlatform fun _ => oneStore)
      (SparesOthers compactPlatform (fun _ => oneStore) sampleKey) promptAnswer beforeCalls := by
  have hkeyed : Keyed compactPlatform sampleKey beforeCalls :=
    keyed_start key_reusedCallId (storesReady_holding _ _ _ _)
  have hstart : beforeCalls.map (regs compactPlatform sampleKey) = beforeCallsRegs :=
    regs_beforeCalls []
  have hregs : Along (regSysStep compactPlatform fun _ => oneStore) RegFindsOwn promptAnswer
      (beforeCalls.map (regs compactPlatform sampleKey)) := by
    rw [hstart]
    iterate 11 refine ⟨by rintro msg s ⟨⟩, ?_⟩
    refine ⟨by rintro msg s ⟨⟩ v ⟨⟩; rfl, ?_⟩
    iterate 2 refine ⟨by rintro msg s ⟨⟩, ?_⟩
    trivial
  have hown : Along (sysStep compactPlatform fun _ => oneStore) (FindsOwn compactPlatform sampleKey)
      promptAnswer beforeCalls :=
    Along.of_map (I := Keyed compactPlatform sampleKey) (fun τ a h => h.step _ a)
      (fun τ a h => regs_sysStep h _ a) (fun τ a _ h => h) hkeyed hregs
  exact answers_spare_others key_reusedCallId (storesReady_holding _ _ _ _)
    ((storesOk_schedule _).and hown)

set_option maxRecDepth 8000 in
/-- The late answer to the first session's INTERIM deletes the second session. -/
theorem answers_lateAnswer :
    Along (sysStep compactPlatform fun _ => oneStore)
      (fun σ a => StoresOk (World.issued σ.shared) a.2)
      (lateAnswer ++ [(1, (answerFor "x" 5002).env 25)]) beforeCalls ∧
    ¬ Along (sysStep compactPlatform fun _ => oneStore)
      (SparesOthers compactPlatform (fun _ => oneStore) sampleKey)
      (lateAnswer ++ [(1, (answerFor "x" 5002).env 25)]) beforeCalls := by
  constructor
  · have hok : Along (sysStep compactPlatform fun _ => oneStore)
        (fun σ a => StoresOk (World.issued σ.shared) a.2)
        (schedule 1 ((List.replicate 6 (0, answerFor "x" 2001)) ++
          (List.replicate 4 (1, answerFor "x" 2001)) ++ (List.replicate 6 (2, answerFor "x" 2001)) ++
          (List.replicate 6 (3, answerFor "y" 2001)) ++ (List.replicate 2 (1, answerFor "x" 5002))))
        beforeCalls := storesOk_schedule _
    exact hok
  · intro h
    have hstep := (Along.append.mp h).2.1
    have hpc := congrFun (congrArg Pool.pc (regs_beforeCalls lateAnswer)) 1
    have hcell := congrArg Register.cell
      (congrFun (congrArg Pool.shared (regs_beforeCalls lateAnswer)) 0)
    have hans := (congrArg Pc.answering hpc).trans rfl
    have hkept := hstep _ hans 0 _ (hcell.trans rfl) (by decide)
    have hafter := congrArg Register.cell (congrFun (congrArg Pool.shared
      (regs_beforeCalls (lateAnswer ++ [(1, (answerFor "x" 5002).env 25)]))) 0)
    rw [exec_append] at hafter
    cases hkept.symm.trans (hafter.trans rfl)

end Ralf
