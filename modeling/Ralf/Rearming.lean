import Ralf.Chronos
import Ralf.Stopping

/-!
# Timers after a STOP

One call: a START, any number of INTERIMs, and a STOP that is handled once the START has been
answered. The threads run over the stores and the timers of Chronos (`TimedSys`). When the STOP
leaves the stores it deletes the timer named in the session; an INTERIM renews the timer when its
answer comes, with the id it took from the session in `handle`, and does not look whether the
session is still there. So a STOP ends the timers of a call when it leaves no such INTERIM behind,
and knows all timers (`Quiet`): `not_rearmed` says that nothing arms a timer any more then, and
`rearmed` is a run in which an answer that comes late does.
-/

namespace Ralf

open Bytes Versioned Runs

/-! ## Stores and timers -/

/-- Threads over stores and the timers of Chronos. -/
abbrev TimedSys (κ : Type) := Pool κ Pc (World × Finset Bytes) Event

/-- The same over registers. -/
abbrev TimedRegSys (κ : Type) := Pool κ Pc (Regs × Finset Bytes) Event

/-- A step, with Chronos serving its requests. -/
def withTimers {Ω : Type} (thread : Env → Pc → Ω → Pc × Ω × List Event) (env : Env) (pc : Pc)
    (S : Ω × Finset Bytes) : Pc × (Ω × Finset Bytes) × List Event :=
  let r := thread env pc S.1
  (r.1, (r.2.1, (requests r.2.2).foldl (chronosServe env.timer) S.2), r.2.2)

section Machines

variable (P : Platform) {κ : Type} [DecidableEq κ]

def timedStep (site : κ → Site) : κ × Env → TimedSys κ → TimedSys κ :=
  Pool.step fun i => withTimers (step P (site i))

def timedRegStep (site : κ → Site) : κ × Env → TimedRegSys κ → TimedRegSys κ :=
  Pool.step fun i => withTimers (stepReg P (site i))

/-- Each thread at the start of `handle`; Chronos holds no timer. -/
def TimedSys.start (msg : κ → Message) (W : World) : TimedSys κ :=
  ⟨fun i => .handle (msg i), (W, ∅), []⟩

/-- The registers of the stores, and the timers. -/
def timedRegs (key : Bytes) (S : World × Finset Bytes) : Regs × Finset Bytes :=
  (regs P key S.1, S.2)

variable {P} {site : κ → Site} {key : Bytes} {σ : TimedSys κ}

/-- Without the timers, these are the systems of `System`. -/
theorem fst_timedStep (a : κ × Env) :
    (timedStep P site a σ).map Prod.fst = sysStep P site a (σ.map Prod.fst) :=
  Pool.map_step rfl

theorem regs_timedStep (h : Keyed P key (σ.map Prod.fst)) (a : κ × Env) :
    (timedStep P site a σ).map (timedRegs P key) =
      timedRegStep P site a (σ.map (timedRegs P key)) := by
  refine Pool.map_step ?_
  have hstep := regs_step h.readable (site a.1) a.2 (h.hasKey a.1)
  simp only [withTimers, timedRegs]
  rw [show stepReg P (site a.1) a.2 (σ.pc a.1) (regs P key σ.shared.1) = _ from hstep]
  rfl

theorem keyed_timedStep (a : κ × Env) (h : Keyed P key (σ.map Prod.fst)) :
    Keyed P key ((timedStep P site a σ).map Prod.fst) := by
  rw [fst_timedStep]
  exact h.step site a

theorem regs_timedExec (h : Keyed P key (σ.map Prod.fst)) (as : List (κ × Env)) :
    (exec (timedStep P site) as σ).map (timedRegs P key) =
      exec (timedRegStep P site) as (σ.map (timedRegs P key)) :=
  exec_map (I := fun σ => Keyed P key (σ.map Prod.fst)) (fun _ a hσ => keyed_timedStep a hσ)
    (fun _ a hσ => regs_timedStep hσ a) h

end Machines

/-! ## Where an INTERIM stands -/

/-- Where an INTERIM can be. -/
def Pc.Updating : Pc → Prop
  | .handle msg => msg.recordType = .interim
  | .tryRemotes msg _ => msg.recordType = .interim
  | .updateLocal msg _ _ => msg.recordType = .interim
  | .readRemotes msg _ _ => msg.recordType = .interim
  | .updateRemote msg _ _ _ _ _ => msg.recordType = .interim
  | .send msg => msg.recordType = .interim
  | .awaitAnswer msg => msg.recordType = .interim
  | .deleteLocal _ _ => False
  | .deleteRemotes _ _ _ => False
  | .createTimer _ _ _ => False
  | .writeSession _ _ _ => False
  | _ => True

/-- The answer with this interval makes the INTERIM renew the timer. -/
def Renews (interval : UInt32) (msg : Message) : Prop :=
  msg.timerInterim = false ∧ resolveInterval msg interval < msg.sessionRefreshTime

/-- The INTERIM has its session, and the timer is still to be renewed. -/
def Pc.Renewing (interval : UInt32) : Pc → Prop
  | .readRemotes msg sess _ => Renews interval (fillIn msg sess)
  | .updateRemote msg sess _ _ _ _ => Renews interval (fillIn msg sess)
  | .send msg => Renews interval msg
  | .awaitAnswer msg => Renews interval msg
  | .sendChronosUpdate _ _ _ => True
  | _ => False

/-- A STOP that is about to leave the stores, with the timers it deletes then. -/
def Pc.leaves : Pc → Option (Finset Bytes)
  | .tryRemotes _ [] => some ∅
  | .deleteRemotes _ sess [] => some sess.timers
  | _ => none

/-- A STOP that has left the stores. -/
def Pc.left : Pc → Bool
  | .send _ => true
  | .awaitAnswer _ => true
  | .finish _ => true
  | .done => true
  | _ => false

theorem passed_of_left {pc : Pc} (h : pc.left = true) (s : StoreId) : pc.passed s = true := by
  cases pc <;> first | rfl | cases h

theorem Pc.Updating.not_starting {pc : Pc} (h : pc.Updating) : ¬ pc.Starting := by
  cases pc <;> first | exact h.elim | exact id

section Moves

variable {P : Platform} {site : Site} {env : Env} {pc pc' : Pc} {R R' : Regs} {es : List Event}

theorem Move.updating (h : Move P site env pc R pc' R' es) (hpc : pc.Updating) :
    pc'.Updating := by
  cases h with
  | handleStop hs => exact absurd hs (AccountingRecordType.ne_stop_of_interim hpc)
  | handleFirst hi => exact absurd hpc hi
  | tryStop hi => exact absurd hpc hi
  | answerTimer hs => exact absurd hs (AccountingRecordType.ne_start_of_interim hpc)
  | answerStart hs => exact absurd hs (AccountingRecordType.ne_start_of_interim hpc)
  | _ => first | exact hpc | exact hpc.elim | trivial

/-- While the local store is empty and nobody adds to it, an INTERIM that is not renewing the timer
does not come to do it, and arms none. -/
theorem Move.not_renewing (h : Move P site env pc R pc' R' es) (hheld : Held site R pc)
    (hpc : pc.Updating) (hempty : (R site.localStore).cell = none)
    (hadds : pc.adds site ≠ some site.localStore)
    (hr : ¬ pc.Renewing env.answer.interimInterval) :
    ¬ pc'.Renewing env.answer.interimInterval ∧ ∀ req ∈ requests es, req.spec = none := by
  have hnil : ∀ req ∈ requests [], req.spec = none := by simp
  cases h with
  | @updateLocal msg sess newSession _ hver =>
    cases newSession with
    | true => exact absurd rfl hadds
    | false =>
      -- the copy has the store's version, so it was read from it
      obtain ⟨held, ht, rfl⟩ := hheld
      rw [ht.cell_of_version hver] at hempty
      cases hempty
  | handleFirst hi => exact absurd hpc hi
  | answerUpdate _ _ ht hlt => exact absurd ⟨ht, hlt⟩ hr
  | createTimer => exact hpc.elim
  | chronosUpdated => exact absurd trivial hr
  | chronosUnchanged => exact absurd trivial hr
  | deleteRemotesTimer => exact hpc.elim
  | deleteRemotesNone => exact hpc.elim
  | send => exact ⟨hr, hnil⟩
  | finish => exact ⟨id, hnil⟩
  | _ => first | exact ⟨hr, hnil⟩ | exact ⟨id, hnil⟩

/-- Requests that arm nothing leave no timers where there are none. -/
theorem foldl_chronosServe_empty {timer : Option Bytes} {reqs : List TimerRequest}
    (h : ∀ req ∈ reqs, req.spec = none) : reqs.foldl (chronosServe timer) ∅ = ∅ := by
  induction reqs with
  | nil => rfl
  | cons req reqs ih =>
    have hreq := h req List.mem_cons_self
    cases req with
    | post spec => cases hreq
    | put id spec => cases hreq
    | delete id => exact ih fun req' hreq' => h req' (List.mem_cons_of_mem _ hreq')

/-- How a STOP comes to have left the stores: it had, or it leaves them now. -/
theorem Move.left (h : Move P site env pc R pc' R' es) (hpc : pc.Stopping)
    (hleft : pc'.left = true) :
    (pc.left = true ∧ requests es = []) ∨
      ∃ X, pc.leaves = some X ∧ ∀ T ⊆ X, (requests es).foldl (chronosServe env.timer) T = ∅ := by
  cases h with
  | tryNone => exact .inr ⟨∅, rfl, fun T hT => Finset.subset_empty.mp hT⟩
  | @deleteRemotesTimer msg sess _ ht =>
    refine .inr ⟨sess.timers, rfl, fun T hT => ?_⟩
    rw [Session.timers, if_neg ht] at hT
    show T.erase sess.timerId = ∅
    rw [Finset.erase_eq_empty_iff]
    exact Finset.subset_singleton_iff.mp hT
  | @deleteRemotesNone msg sess _ ht =>
    refine .inr ⟨sess.timers, rfl, fun T hT => ?_⟩
    rw [Session.timers, if_pos ht] at hT
    exact Finset.subset_empty.mp hT
  | handleFirst _ hs => exact absurd hpc hs
  | send => exact .inl ⟨rfl, rfl⟩
  | answerFinish => exact .inl ⟨rfl, rfl⟩
  | finish => exact .inl ⟨rfl, rfl⟩
  | finishQuiet => exact .inl ⟨rfl, rfl⟩
  | done => exact .inl ⟨rfl, rfl⟩
  | _ => first | exact hpc.elim | cases hleft

theorem Move.left_of_left (h : Move P site env pc R pc' R' es) (hpc : pc.Stopping)
    (hleft : pc.left = true) : pc'.left = true := by
  cases h with
  | answerUpdate hi => exact absurd hi (AccountingRecordType.ne_interim_of_stop hpc)
  | answerTimer hs => exact absurd hs (AccountingRecordType.ne_start_of_stop hpc)
  | answerStart hs => exact absurd hs (AccountingRecordType.ne_start_of_stop hpc)
  | answerUnknown hi => exact absurd hi (AccountingRecordType.ne_interim_of_stop hpc)
  | _ => first | rfl | cases hleft

/-- A STOP arms no timer. -/
theorem Move.spec_of_stopping (h : Move P site env pc R pc' R' es) (hpc : pc.Stopping) :
    ∀ req ∈ requests es, req.spec = none := by
  intro req hreq
  cases h with
  | @deleteRemotesTimer msg sess _ _ =>
    cases List.mem_singleton.mp (show req ∈ [TimerRequest.delete sess.timerId] from hreq)
    rfl
  | _ => first | exact hpc.elim | cases hreq

/-- A STOP that has not left the stores has asked nothing of Chronos. -/
theorem Move.requests_of_not_left (h : Move P site env pc R pc' R' es) (hpc : pc.Stopping)
    (hleft : pc'.left = false) : requests es = [] := by
  cases h <;> first | rfl | exact hpc.elim | cases hleft

end Moves

/-! ## Systems -/

section Systems

variable {P : Platform} {κ : Type} [DecidableEq κ] {site : Site} {i₀ j : κ}
  {interval : κ → UInt32}

/-- The messages of one call. -/
structure OneCall (msg : κ → Message) (key : Bytes) (i₀ j : κ) : Prop where
  start : (msg i₀).recordType = .start
  stop : (msg j).recordType = .stop
  interim : ∀ i, i ≠ i₀ → i ≠ j → (msg i).recordType = .interim
  hasKey : ∀ i, (msg i).key = key

/-- Every answer is a success and has the interval of its thread, and the STOP is handled after the
START's answer. -/
structure Racing {Ω : Type} (i₀ j : κ) (interval : κ → UInt32) (σ : Pool κ Pc Ω Event)
    (a : κ × Env) : Prop where
  accepted : a.2.answer.accepted = true
  interval : a.2.answer.interimInterval = interval a.1
  started : a.1 = j → σ.pc i₀ = .done

/-- No INTERIM adds the session to the local store behind the STOP; and when the STOP leaves the
stores, no INTERIM is still to renew the timer, and Chronos has no timer but the one that the STOP
deletes. -/
structure Quiet {Ω : Type} (site : Site) (j : κ) (interval : κ → UInt32)
    (σ : Pool κ Pc (Ω × Finset Bytes) Event) (a : κ × Env) : Prop where
  ahead : (σ.pc a.1).adds site = some site.localStore → (σ.pc j).passed site.localStore = false
  settled : a.1 = j → ∀ X, (σ.pc j).leaves = some X →
    σ.shared.2 ⊆ X ∧ ∀ i, i ≠ j → ¬ (σ.pc i).Renewing (interval i)

/-- Nothing is armed after the STOP's DELETE. -/
def Final (j : κ) (e e' : κ × Event) : Prop :=
  e.1 = j → (∃ id, e.2 = .timer (.delete id)) → ∀ req, e'.2 = .timer req → req.spec = none

omit [DecidableEq κ] in
theorem final_of_requests {i : κ} {es : List Event} (h : ∀ req ∈ requests es, req.spec = none)
    (e : κ × Event) {e' : κ × Event} (he' : e' ∈ es.map (i, ·)) : Final j e e' := by
  intro _ _ req hreq
  obtain ⟨x, hx, rfl⟩ := List.mem_map.mp he'
  exact h req (mem_requests.mpr ((show x = .timer req from hreq) ▸ hx))

/-- The STOP sends no DELETE before it leaves the stores, and nothing is armed after it. -/
structure DeletesLast (j : κ) (left : Bool) (trace : List (κ × Event)) : Prop where
  undeleted : left = false → ∀ e ∈ trace, e.1 = j → ∀ id, e.2 ≠ .timer (.delete id)
  final : trace.Pairwise (Final j)

omit [DecidableEq κ] in
/-- The STOP goes on. -/
theorem DeletesLast.append_stop {left left' : Bool} {trace : List (κ × Event)} {es : List Event}
    (h : DeletesLast j left trace) (hspec : ∀ req ∈ requests es, req.spec = none)
    (hleft : left' = false → left = false ∧ requests es = []) :
    DeletesLast j left' (trace ++ es.map (j, ·)) where
  undeleted := by
    intro hl e he hj id hid
    obtain ⟨hbefore, hreqs⟩ := hleft hl
    rcases List.mem_append.mp he with he | he
    · exact h.undeleted hbefore e he hj id hid
    · obtain ⟨x, hx, rfl⟩ := List.mem_map.mp he
      have hmem : TimerRequest.delete id ∈ requests es :=
        mem_requests.mpr ((show x = _ from hid) ▸ hx)
      rw [hreqs] at hmem
      cases hmem
  final := List.pairwise_append.mpr ⟨h.final,
    List.pairwise_of_forall_mem_list fun e _ e' he' => final_of_requests hspec e he',
    fun e _ e' he' => final_of_requests hspec e he'⟩

omit [DecidableEq κ] in
/-- Another thread goes on, and arms nothing once the STOP has left the stores. -/
theorem DeletesLast.append_other {i : κ} {left : Bool} {trace : List (κ × Event)}
    {es : List Event} (h : DeletesLast j left trace) (hi : i ≠ j)
    (hspec : left = true → ∀ req ∈ requests es, req.spec = none) :
    DeletesLast j left (trace ++ es.map (i, ·)) := by
  have hnew : ∀ e ∈ es.map (i, ·), e.1 ≠ j := by
    intro e he
    obtain ⟨x, -, rfl⟩ := List.mem_map.mp he
    exact hi
  have hundeleted : left = false → ∀ e ∈ trace ++ es.map (i, ·), e.1 = j →
      ∀ id, e.2 ≠ .timer (.delete id) := by
    intro hl e he hj
    rcases List.mem_append.mp he with he | he
    · exact h.undeleted hl e he hj
    · exact absurd hj (hnew e he)
  have hfinal : ∀ e ∈ trace ++ es.map (i, ·), ∀ e' ∈ es.map (i, ·), Final j e e' := by
    intro e he e' he'
    cases left with
    | true => exact final_of_requests (hspec rfl) e he'
    | false =>
      rintro hj ⟨id, hid⟩
      exact absurd hid (hundeleted rfl e he hj id)
  exact ⟨hundeleted, List.pairwise_append.mpr ⟨h.final,
    List.pairwise_of_forall_mem_list fun e he => hfinal e (List.mem_append_right _ he),
    fun e he => hfinal e (List.mem_append_left _ he)⟩⟩

variable (P site) in
theorem timedRegStep_cases (a : κ × Env) (hup : a.2.Up) (σ : TimedRegSys κ) :
    ∃ pc' R' es, Move P site a.2 (σ.pc a.1) σ.shared.1 pc' R' es ∧
      timedRegStep P (fun _ => site) a σ = ⟨Function.update σ.pc a.1 pc',
        (R', (requests es).foldl (chronosServe a.2.timer) σ.shared.2),
        σ.trace ++ es.map (a.1, ·)⟩ :=
  ⟨_, _, _, move_stepReg hup _ _, rfl⟩

/-- The STOP and the INTERIMs are where they can be, the START is done before the STOP begins, and
what the STOP leaves behind is quiet. -/
structure StopTimers (site : Site) (i₀ j : κ) (interval : κ → UInt32) (σ : TimedRegSys κ) :
    Prop where
  sane : Sane (fun _ => site) (σ.map Prod.fst)
  stopping : (σ.pc j).Stopping
  updating : ∀ i, i ≠ i₀ → i ≠ j → (σ.pc i).Updating
  started : σ.pc i₀ = .done ∨ ∃ msg, σ.pc j = .handle msg
  empty : (σ.pc j).passed site.localStore = true → (σ.shared.1 site.localStore).cell = none
  quiet : (σ.pc j).left = true → σ.shared.2 = ∅ ∧ ∀ i, i ≠ j → ¬ (σ.pc i).Renewing (interval i)
  trace : DeletesLast j (σ.pc j).left σ.trace

/-- Once the STOP has begun, the START is done, and counts as an INTERIM that is. -/
theorem StopTimers.updating_of_passed {σ : TimedRegSys κ} (h : StopTimers site i₀ j interval σ)
    {s : StoreId} (hpass : (σ.pc j).passed s = true) {i : κ} (hi : i ≠ j) :
    (σ.pc i).Updating := by
  by_cases hi₀ : i = i₀
  · rcases h.started with hdone | ⟨msg, hmsg⟩
    · rw [hi₀, hdone]
      trivial
    · rw [hmsg] at hpass
      cases hpass
  · exact h.updating i hi₀ hi

/-- The STOP moves. -/
theorem StopTimers.step_stop {σ : TimedRegSys κ} (h : StopTimers site i₀ j interval σ)
    {env : Env} (hok : StoresOk σ.shared.1.issued env) (hdone : σ.pc i₀ = .done) (hij : i₀ ≠ j)
    (hquiet : Quiet site j interval σ (j, env)) :
    StopTimers site i₀ j interval (timedRegStep P (fun _ => site) (j, env) σ) := by
  have hsane : Sane (fun _ => site) ((timedRegStep P (fun _ => site) (j, env) σ).map Prod.fst) :=
    h.sane.step (P := P) (a := (j, env)) hok
  obtain ⟨pc', R', es, hm, heq⟩ := timedRegStep_cases P site (j, env) hok.1 σ
  rw [heq] at hsane ⊢
  have hpc' : Function.update σ.pc j pc' j = pc' := Function.update_self ..
  have hother : ∀ i, i ≠ j → Function.update σ.pc j pc' i = σ.pc i := fun i hi =>
    Function.update_of_ne hi ..
  refine ⟨hsane, ?_, ?_, .inl ?_, ?_, ?_, ?_⟩
  · show Pc.Stopping (Function.update σ.pc j pc' j)
    rw [hpc']
    exact hm.stopping h.stopping
  · intro i hi₀ hi
    show Pc.Updating (Function.update σ.pc j pc' i)
    rw [hother i hi]
    exact h.updating i hi₀ hi
  · exact (hother i₀ hij).trans hdone
  · dsimp only
    rw [hpc']
    exact hm.passed h.stopping List.mem_cons_self h.empty
  · dsimp only
    rw [hpc']
    intro hleft
    have hrenew : ∀ i, i ≠ j → ¬ (σ.pc i).Renewing (interval i) →
        ¬ (Function.update σ.pc j pc' i).Renewing (interval i) := by
      intro i hi hr
      rwa [hother i hi]
    rcases hm.left h.stopping hleft with ⟨hold, hreqs⟩ | ⟨X, hX, hempty⟩
    · obtain ⟨hT, hr⟩ := h.quiet hold
      rw [hreqs]
      exact ⟨hT, fun i hi => hrenew i hi (hr i hi)⟩
    · obtain ⟨hT, hr⟩ := hquiet.settled rfl X hX
      exact ⟨hempty _ hT, fun i hi => hrenew i hi (hr i hi)⟩
  · dsimp only
    rw [hpc']
    refine h.trace.append_stop (hm.spec_of_stopping h.stopping) fun hleft => ⟨?_, ?_⟩
    · rw [Bool.eq_false_iff]
      intro hold
      rw [hm.left_of_left h.stopping hold] at hleft
      cases hleft
    · exact hm.requests_of_not_left h.stopping hleft

/-- Another thread moves. -/
theorem StopTimers.step_other {σ : TimedRegSys κ} (h : StopTimers site i₀ j interval σ) {i : κ}
    {env : Env} (hi : i ≠ j) (hok : StoresOk σ.shared.1.issued env)
    (hinterval : env.answer.interimInterval = interval i)
    (hquiet : Quiet site j interval σ (i, env)) :
    StopTimers site i₀ j interval (timedRegStep P (fun _ => site) (i, env) σ) := by
  have hsane : Sane (fun _ => site) ((timedRegStep P (fun _ => site) (i, env) σ).map Prod.fst) :=
    h.sane.step (P := P) (a := (i, env)) hok
  obtain ⟨pc', R', es, hm, heq⟩ := timedRegStep_cases P site (i, env) hok.1 σ
  rw [heq] at hsane ⊢
  have hpc' : Function.update σ.pc i pc' i = pc' := Function.update_self ..
  have hother : ∀ k, k ≠ i → Function.update σ.pc i pc' k = σ.pc k := fun k hk =>
    Function.update_of_ne hk ..
  have hj : Function.update σ.pc i pc' j = σ.pc j := hother j hi.symm
  have hadds : (σ.pc j).passed site.localStore = true →
      (σ.pc i).adds site ≠ some site.localStore := by
    intro hpass hadd
    rw [hquiet.ahead hadd] at hpass
    cases hpass
  -- what the thread does once the STOP has left the stores
  have hafter : (σ.pc j).left = true →
      ¬ pc'.Renewing (interval i) ∧ ∀ req ∈ requests es, req.spec = none := by
    intro hleft
    have hpass := passed_of_left hleft site.localStore
    have hr := (h.quiet hleft).2 i hi
    rw [← hinterval] at hr ⊢
    exact hm.not_renewing (h.sane.held i) (h.updating_of_passed hpass hi) (h.empty hpass)
      (hadds hpass) hr
  refine ⟨hsane, ?_, ?_, ?_, ?_, ?_, ?_⟩
  · dsimp only
    rw [hj]
    exact h.stopping
  · exact (Function.forall_update_iff σ.pc fun k pc => k ≠ i₀ → k ≠ j → pc.Updating).mpr
      ⟨fun hi₀ hj => hm.updating (h.updating i hi₀ hj), fun k _ => h.updating k⟩
  · dsimp only
    rw [hj]
    refine h.started.imp_left fun hdone => ?_
    by_cases hi₀ : i₀ = i
    · subst hi₀
      rw [hpc']
      rw [hdone] at hm
      cases hm
      rfl
    · exact (hother i₀ hi₀).trans hdone
  · dsimp only
    rw [hj]
    intro hpass
    exact hm.stays_empty (h.sane.held i) (h.updating_of_passed hpass hi).not_starting
      (h.empty hpass) (hadds hpass)
  · dsimp only
    rw [hj]
    intro hleft
    obtain ⟨hT, hr⟩ := h.quiet hleft
    obtain ⟨hr', hspec⟩ := hafter hleft
    refine ⟨?_, ?_⟩
    · rw [hT]
      exact foldl_chronosServe_empty hspec
    · exact (Function.forall_update_iff σ.pc fun k pc => k ≠ j → ¬ pc.Renewing (interval k)).mpr
        ⟨fun _ => hr', fun k _ => hr k⟩
  · dsimp only
    rw [hj]
    exact h.trace.append_other hi fun hleft => (hafter hleft).2

theorem StopTimers.step {σ : TimedRegSys κ} (h : StopTimers site i₀ j interval σ) (hij : i₀ ≠ j)
    {a : κ × Env} (hok : StoresOk σ.shared.1.issued a.2) (hrace : Racing i₀ j interval σ a)
    (hquiet : Quiet site j interval σ a) :
    StopTimers site i₀ j interval (timedRegStep P (fun _ => site) a σ) := by
  obtain ⟨i, env⟩ := a
  by_cases hi : i = j
  · subst hi
    exact h.step_stop hok (hrace.started rfl) hij hquiet
  · exact h.step_other hi hok hrace.interval hquiet

end Systems

/-! ## Runs -/

section Runs

variable {P : Platform} {κ : Type} [DecidableEq κ] {site : Site} {key : Bytes} {i₀ j : κ}
  {interval : κ → UInt32} {msg : κ → Message} {W : World} {as : List (κ × Env)}

/-- What is assumed of a run, and the condition under which the STOP ends the timers. -/
structure RearmOk (site : Site) (i₀ j : κ) (interval : κ → UInt32) (σ : TimedSys κ)
    (a : κ × Env) : Prop where
  stores : StoresOk (World.issued σ.shared.1) a.2
  racing : Racing i₀ j interval σ a
  quiet : Quiet site j interval σ a

omit [DecidableEq κ] in
theorem stopTimers_start (hmsg : OneCall msg key i₀ j) (hW : StoresReady P key W) :
    StopTimers site i₀ j interval ((TimedSys.start msg W).map (timedRegs P key)) where
  sane := (sane_start hW : Sane (fun _ => site) ((Sys.start msg W).map (regs P key)))
  stopping := hmsg.stop
  updating := hmsg.interim
  started := .inr ⟨msg j, rfl⟩
  empty := by rintro ⟨⟩
  quiet := by rintro ⟨⟩
  trace := ⟨by rintro _ e ⟨⟩, .nil⟩

/-- **No timer after a STOP.** A START, any number of INTERIMs and a STOP of one key are handled at
one site, the STOP after the START's answer, and all answers are successes. In every run whose steps
are quiet, no timer is armed after the STOP's DELETE, and once the STOP has been handled Chronos
holds none. -/
theorem not_rearmed (hmsg : OneCall msg key i₀ j) (hW : StoresReady P key W)
    (hrun : Along (timedStep P fun _ => site) (RearmOk site i₀ j interval) as
      (TimedSys.start msg W)) :
    (exec (timedStep P fun _ => site) as (TimedSys.start msg W)).trace.Pairwise (Final j) ∧
      (((exec (timedStep P fun _ => site) as (TimedSys.start msg W)).pc j).left = true →
        (exec (timedStep P fun _ => site) as (TimedSys.start msg W)).shared.2 = ∅) := by
  have hij : i₀ ≠ j := by
    rintro rfl
    exact absurd (hmsg.start.symm.trans hmsg.stop) (by decide)
  have hkeyed : Keyed P key ((TimedSys.start msg W).map Prod.fst) :=
    (keyed_start hmsg.hasKey hW : Keyed P key (Sys.start msg W))
  have hok : Along (timedRegStep P fun _ => site) (fun σ a => StoresOk σ.shared.1.issued a.2 ∧
      Racing i₀ j interval σ a ∧ Quiet site j interval σ a) as
      ((TimedSys.start msg W).map (timedRegs P key)) := by
    refine Along.map (I := fun σ => Keyed P key (σ.map Prod.fst))
      (fun σ a hσ => keyed_timedStep a hσ) (fun σ a hσ => regs_timedStep hσ a) ?_ hkeyed hrun
    intro σ a _ ha
    exact ⟨ha.stores, ⟨ha.racing.accepted, ha.racing.interval, ha.racing.started⟩,
      ⟨ha.quiet.ahead, ha.quiet.settled⟩⟩
  have hend : StopTimers site i₀ j interval
      ((exec (timedStep P fun _ => site) as (TimedSys.start msg W)).map (timedRegs P key)) := by
    rw [regs_timedExec hkeyed]
    exact Along.invariant (fun σ a h ha => h.step hij ha.1 ha.2.1 ha.2.2) hok
      (stopTimers_start hmsg hW)
  exact ⟨hend.trace.final, fun hleft => (hend.quiet hleft).1⟩

end Runs

/-! ### A call with a timer and an INTERIM -/

inductive CallThread where
  | start
  | interim
  | stop
  deriving DecidableEq

def callMessage : CallThread → Message
  | .start => sampleMessage .start
  | .interim => sampleMessage .interim
  | .stop => sampleMessage .stop

/-- Every answer is a success with the interval 100; Chronos names its timer `t`. -/
def callInput : Input := ⟨some (ascii "t"), ascii "sid", ⟨100, ascii "sid", 2001⟩⟩

def callSchedule (is : List CallThread) : List (CallThread × Env) :=
  schedule 1 (is.map fun i => (i, callInput))

/-- All three from their start, one store, without the session. -/
def beforeCall : TimedSys CallThread :=
  .start callMessage (World.holding compactPlatform sampleKey (sampleSession 1) fun _ => false)

/-- The same on registers. -/
def beforeCallRegs : TimedRegSys CallThread :=
  ⟨fun i => .handle (callMessage i), (Regs.holding (sampleSession 1) fun _ => false, ∅), []⟩

/-- The INTERIM is answered before the STOP comes. -/
def answeredBefore : List (CallThread × Env) :=
  callSchedule (List.replicate 7 .start ++ List.replicate 7 .interim ++ List.replicate 6 .stop)

/-- The INTERIM is sent, the STOP deletes session and timer, and then the INTERIM is answered. -/
def answeredAfter : List (CallThread × Env) :=
  callSchedule (List.replicate 7 .start ++ List.replicate 4 .interim ++ List.replicate 3 .stop ++
    List.replicate 3 .interim ++ List.replicate 3 .stop)

theorem oneCall_callMessage : OneCall callMessage sampleKey .start .stop where
  start := rfl
  stop := rfl
  interim := by
    rintro (_ | _ | _) hstart hstop
    · exact absurd rfl hstart
    · rfl
    · exact absurd rfl hstop
  hasKey := by rintro (_ | _ | _) <;> rfl

theorem keyed_beforeCall : Keyed compactPlatform sampleKey (beforeCall.map Prod.fst) :=
  (keyed_start oneCall_callMessage.hasKey (storesReady_holding _ _ _ _) : Keyed compactPlatform
    sampleKey (Sys.start callMessage (World.holding _ _ (sampleSession 1) fun _ => false)))

theorem regs_start_call :
    beforeCall.map (timedRegs compactPlatform sampleKey) = beforeCallRegs :=
  congrArg (fun R => (⟨fun i => .handle (callMessage i), (R, ∅), []⟩ : TimedRegSys _))
    (regs_holding compactPlatform sampleKey (sampleSession 1) fun _ => false)

theorem regs_beforeCall (as : List (CallThread × Env)) :
    (exec (timedStep compactPlatform fun _ => oneStore) as beforeCall).map
        (timedRegs compactPlatform sampleKey) =
      exec (timedRegStep compactPlatform fun _ => oneStore) as beforeCallRegs := by
  rw [regs_timedExec keyed_beforeCall, regs_start_call]

/-- What is assumed along these runs can be checked on registers. -/
theorem along_beforeCall {Ok : TimedSys CallThread → CallThread × Env → Prop}
    {OkR : TimedRegSys CallThread → CallThread × Env → Prop} {as : List (CallThread × Env)}
    (hok : ∀ σ a, OkR (σ.map (timedRegs compactPlatform sampleKey)) a → Ok σ a)
    (h : Along (timedRegStep compactPlatform fun _ => oneStore) OkR as beforeCallRegs) :
    Along (timedStep compactPlatform fun _ => oneStore) Ok as beforeCall := by
  rw [← regs_start_call] at h
  exact Along.of_map (I := fun σ => Keyed compactPlatform sampleKey (σ.map Prod.fst))
    (fun σ a hσ => keyed_timedStep a hσ) (fun σ a hσ => regs_timedStep hσ a)
    (fun σ a _ => hok σ a) keyed_beforeCall h

/-- What is assumed of the environment holds in these runs if the STOP waits for the START. -/
theorem racing_call {is : List CallThread}
    (h : Along (timedRegStep compactPlatform fun _ => oneStore)
      (fun σ a => a.1 = .stop → σ.pc .start = .done) (callSchedule is) beforeCallRegs) :
    Along (timedStep compactPlatform fun _ => oneStore) (fun σ a =>
        StoresOk (World.issued σ.shared.1) a.2 ∧ Racing .start .stop (fun _ => 100) σ a)
      (callSchedule is) beforeCall := by
  have hstarted : Along (timedStep compactPlatform fun _ => oneStore)
      (fun σ a => a.1 = .stop → σ.pc .start = .done) (callSchedule is) beforeCall :=
    along_beforeCall (fun _ _ h => h) h
  have hinputs : Along (sysStep compactPlatform fun _ => oneStore) (fun σ a =>
      StoresOk (World.issued σ.shared) a.2 ∧ ∃ x, x = callInput ∧ ∃ cas, a.2 = x.env cas)
      (callSchedule is) (beforeCall.map Prod.fst) := by
    refine along_schedule (· = callInput) ?_ fun s x hx => issued_holding hx
    intro x hx
    obtain ⟨i, -, rfl⟩ := List.mem_map.mp hx
    rfl
  have henv : Along (timedStep compactPlatform fun _ => oneStore) (fun σ a =>
      StoresOk (World.issued σ.shared.1) a.2 ∧ ∃ x, x = callInput ∧ ∃ cas, a.2 = x.env cas)
      (callSchedule is) beforeCall :=
    Along.of_map (I := fun _ => True) (f := Pool.map Prod.fst) (fun _ _ _ => trivial)
      (fun _ a _ => fst_timedStep a) (fun _ _ _ h => h) trivial hinputs
  refine Along.mono ?_ (hstarted.and henv)
  rintro σ ⟨i, env⟩ ⟨hdone, hstores, _, rfl, cas, rfl⟩
  exact ⟨hstores, rfl, rfl, hdone⟩

set_option maxRecDepth 8000 in
/-- With the INTERIM answered before the STOP comes, no timer is left. -/
theorem not_rearmed_answeredBefore :
    (exec (timedStep compactPlatform fun _ => oneStore) answeredBefore beforeCall).shared.2 = ∅ := by
  have hrace : Along (timedStep compactPlatform fun _ => oneStore) (fun σ a =>
      StoresOk (World.issued σ.shared.1) a.2 ∧ Racing .start .stop (fun _ => 100) σ a)
      answeredBefore beforeCall := by
    refine racing_call ?_
    iterate 14 refine ⟨by rintro ⟨⟩, ?_⟩
    iterate 6 refine ⟨fun _ => rfl, ?_⟩
    trivial
  have hquiet : Along (timedRegStep compactPlatform fun _ => oneStore)
      (Quiet oneStore .stop fun _ => 100) answeredBefore beforeCallRegs := by
    iterate 14 refine ⟨⟨by rintro ⟨⟩, by rintro ⟨⟩⟩, ?_⟩
    iterate 2 refine ⟨⟨by rintro ⟨⟩, by rintro _ X ⟨⟩⟩, ?_⟩
    refine ⟨⟨by rintro ⟨⟩, ?_⟩, ?_⟩
    · -- the STOP leaves the store
      rintro _ X ⟨⟩
      refine ⟨by decide, ?_⟩
      rintro (_ | _ | _) hi
      · exact id
      · exact id
      · exact absurd rfl hi
    iterate 3 refine ⟨⟨by rintro ⟨⟩, by rintro _ X ⟨⟩⟩, ?_⟩
    trivial
  have hrun : Along (timedStep compactPlatform fun _ => oneStore)
      (RearmOk oneStore .start .stop fun _ => 100) answeredBefore beforeCall := by
    refine Along.mono (fun σ a h => ⟨h.1.1, h.1.2, h.2⟩) (hrace.and (along_beforeCall ?_ hquiet))
    exact fun σ a h => ⟨h.ahead, h.settled⟩
  refine (not_rearmed oneCall_callMessage (storesReady_holding _ _ _ _) hrun).2 ?_
  have hpc := congrFun (congrArg Pool.pc (regs_beforeCall answeredBefore)) .stop
  exact congrArg Pc.left (hpc.trans rfl)

set_option maxRecDepth 8000 in
/-- With the INTERIM answered after it, the INTERIM renews the timer that the STOP has deleted. -/
theorem rearmed :
    Along (timedStep compactPlatform fun _ => oneStore) (fun σ a =>
        StoresOk (World.issued σ.shared.1) a.2 ∧ Racing .start .stop (fun _ => 100) σ a)
      answeredAfter beforeCall ∧
    (∀ i, (exec (timedStep compactPlatform fun _ => oneStore) answeredAfter beforeCall).pc i =
      .done) ∧
    ¬ (exec (timedStep compactPlatform fun _ => oneStore) answeredAfter beforeCall).trace.Pairwise
      (Final .stop) ∧
    (exec (timedStep compactPlatform fun _ => oneStore) answeredAfter beforeCall).shared.2 =
      {ascii "t"} := by
  have hregs := regs_beforeCall answeredAfter
  refine ⟨racing_call ?_, ?_, ?_, ?_⟩
  · iterate 11 refine ⟨by rintro ⟨⟩, ?_⟩
    iterate 3 refine ⟨fun _ => rfl, ?_⟩
    iterate 3 refine ⟨by rintro ⟨⟩, ?_⟩
    iterate 3 refine ⟨fun _ => rfl, ?_⟩
    trivial
  · intro i
    refine (congrFun (congrArg Pool.pc hregs) i).trans ?_
    cases i <;> rfl
  · intro h
    have htrace : (exec (timedStep compactPlatform fun _ => oneStore) answeredAfter
        beforeCall).trace = (exec (timedRegStep compactPlatform fun _ => oneStore) answeredAfter
        beforeCallRegs).trace := congrArg Pool.trace hregs
    rw [htrace, List.pairwise_iff_getElem] at h
    -- the STOP's DELETE and the INTERIM's PUT
    have hput := h 4 5 (by decide) (by decide) (by decide) rfl ⟨_, rfl⟩ _ rfl
    cases hput
  · have htimers := congrArg (fun σ : TimedRegSys CallThread => σ.shared.2) hregs
    exact htimers.trans rfl

end Ralf
