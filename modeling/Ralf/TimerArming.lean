import Ralf.Chronos
import Ralf.System

/-!
# When a timer is armed

`on_ccf_response` has two branches, for an ACR that was accepted and for one that was not, and each
of them decides for itself whether Chronos is asked for a timer, and for which interval. `arming` is
the one law both of them follow. `timer_arming` says so for every message, every answer and every
state of the stores, with other threads at work on them: at most one request is made, and it is made
before a store is touched; and to an INTERIM that Chronos did not cause it makes no difference
whether the CCF accepted it, as long as the CCF knows the session.
-/

namespace Ralf

open Bytes Runs

/-! ## The law -/

/-- The interval of the answer, else that of the session, else the refresh time; 0 is none. -/
def armedInterval (msg : Message) (a : Answer) : UInt32 :=
  if a.interimInterval ≠ 0 then a.interimInterval
  else if msg.interimInterval ≠ 0 then msg.interimInterval
  else msg.sessionRefreshTime

section Law

variable (P : Platform)

/-- The request an answer leads to. -/
def arming (msg : Message) (a : Answer) : Option TimerRequest :=
  if armedInterval msg a < msg.sessionRefreshTime then
    if msg.recordType = .start ∧ a.rc = 2001 then
      some (.post (timerSpec P msg (armedInterval msg a)))
    else if msg.recordType = .interim ∧ msg.timerInterim = false ∧ a.rc ≠ 5002 then
      if msg.timerId = NO_TIMER then some (.post (timerSpec P msg (armedInterval msg a)))
      else some (.put msg.timerId (timerSpec P msg (armedInterval msg a)))
    else none
  else none

/-- `on_ccf_response` with this answer, at its start. -/
def Thread.responding (site : Site) (msg : Message) (a : Answer) (W : World) : Thread :=
  ⟨onCcfResponse site a.accepted a.interimInterval a.sessionId a.rc msg, W, []⟩

/-- A step of the thread, after other threads have changed the stores. -/
def stepAmongOthers (site : Site) (x : Env × (World → World)) (t : Thread) : Thread :=
  threadStep P site x.1 { t with shared := x.2 t.shared }

end Law

theorem resolveInterval_eq (msg : Message) (a : Answer) :
    resolveInterval msg a.interimInterval = armedInterval msg a := by
  unfold resolveInterval armedInterval
  rw [ite_not, ite_not]

/-- An interval of 0 is never below the refresh time. -/
theorem armedInterval_pos {msg : Message} {a : Answer}
    (h : armedInterval msg a < msg.sessionRefreshTime) : 0 < armedInterval msg a := by
  unfold armedInterval at h ⊢
  split_ifs at h ⊢ with ha hm
  · exact UInt32.pos_iff_ne_zero.mpr ha
  · exact UInt32.pos_iff_ne_zero.mpr hm
  · exact absurd h (UInt32.lt_irrefl _)

theorem spec_arming {P : Platform} {msg : Message} {a : Answer} {req : TimerRequest}
    (h : arming P msg a = some req) :
    req.spec = some (timerSpec P msg (armedInterval msg a)) ∧
      armedInterval msg a < msg.sessionRefreshTime := by
  unfold arming at h
  split_ifs at h with hlt
  all_goals
    cases h
    exact ⟨rfl, hlt⟩

/-! ## The rest of `on_ccf_response` -/

/-- The thread is in `on_ccf_response`, past any request. -/
def Pc.quiet : Pc → Bool
  | .deleteUnknown _ _ => true
  | .writeSession _ _ _ => true
  | .readTimerId _ _ _ _ => true
  | .writeTimerId _ _ _ _ _ _ => true
  | .finish _ => true
  | .done => true
  | .aborted => true
  | _ => false

/-- How many steps of `on_ccf_response` are left at most. -/
def Pc.stepsLeft (site : Site) : Pc → ℕ
  | .createTimer _ _ _ => site.stores.length + 3
  | .sendChronosUpdate _ _ _ => 2 * site.stores.length + 3
  | .deleteUnknown _ rest => rest.length + 2
  | .writeSession _ _ rest => rest.length + 2
  | .readTimerId _ _ rest _ => 2 * rest.length + 2
  | .writeTimerId _ _ _ rest _ _ => 2 * rest.length + 3
  | .finish _ => 1
  | _ => 0

section Steps

variable {P : Platform} {site : Site} {env : Env} {pc : Pc} {W : World}

variable (P site env W) in
/-- A step past the request makes no other one, and brings the end nearer. -/
theorem quiet_step (h : pc.quiet = true) :
    (step P site env pc W).1.quiet = true ∧ requests (step P site env pc W).2.2 = [] ∧
      (step P site env pc W).1.stepsLeft site ≤ pc.stepsLeft site - 1 := by
  cases pc with
  | deleteUnknown msg rest =>
    cases rest with
    | nil => exact ⟨rfl, rfl, le_refl _⟩
    | cons s rest => exact ⟨rfl, rfl, le_refl _⟩
  | writeSession msg sess rest =>
    cases rest with
    | nil => exact ⟨rfl, rfl, le_refl _⟩
    | cons s rest => exact ⟨rfl, rfl, le_refl _⟩
  | readTimerId msg timerId rest accepted =>
    cases rest with
    | nil => exact ⟨rfl, rfl, by simp [step, next, perform, Pc.stepsLeft]⟩
    | cons s rest =>
      simp only [step, next, perform]
      cases getSessionData P (W s) (env.store s) msg.key with
      | error e => exact ⟨rfl, rfl, Nat.zero_le _⟩
      | ok sess =>
        cases sess with
        | none =>
          refine ⟨rfl, rfl, ?_⟩
          simp only [Pc.stepsLeft, List.length_cons]
          omega
        | some sess =>
          refine ⟨rfl, rfl, ?_⟩
          simp only [Pc.stepsLeft, List.length_cons]
          omega
  | writeTimerId msg timerId s rest sess accepted => exact ⟨rfl, rfl, le_refl _⟩
  | finish accepted =>
    cases accepted with
    | true => exact ⟨rfl, rfl, le_refl _⟩
    | false => exact ⟨rfl, rfl, le_refl _⟩
  | done => exact ⟨rfl, rfl, le_refl _⟩
  | aborted => exact ⟨rfl, rfl, le_refl _⟩
  | _ => cases h

theorem ended_of_stepsLeft (h : pc.quiet = true) (hleft : pc.stepsLeft site = 0) :
    pc = .done ∨ pc = .aborted := by
  cases pc with
  | done => exact .inl rfl
  | aborted => exact .inr rfl
  | _ => simp [Pc.quiet, Pc.stepsLeft] at h hleft

theorem accepted_iff {a : Answer} : a.accepted = true ↔ a.rc = 2001 := by
  simp [Answer.accepted]

/-- Both branches on an INTERIM: they only differ in what they do about a 5002, which is no
success. -/
theorem responding_interim {msg : Message} (h : msg.recordType = .interim) (a : Answer) :
    (Thread.responding site msg a W).pc =
      if a.rc = 5002 then .deleteUnknown msg site.stores
      else if msg.timerInterim = false ∧ armedInterval msg a < msg.sessionRefreshTime then
        .sendChronosUpdate msg (armedInterval msg a) a.accepted
      else .finish a.accepted := by
  have hinterim : msg.recordType.isInterim = true := by rw [h]; rfl
  have hstart : msg.recordType.isStart = false := by rw [h]; rfl
  unfold Thread.responding onCcfResponse
  rw [resolveInterval_eq]
  cases hacc : a.accepted with
  | true =>
    have hrc : a.rc ≠ 5002 := by
      rw [accepted_iff.mp hacc]
      decide
    simp [hinterim, hstart, hrc]
  | false => simp [hinterim]

theorem responding_start {msg : Message} (h : msg.recordType = .start) (a : Answer) :
    (Thread.responding site msg a W).pc =
      if a.rc = 2001 then
        if armedInterval msg a < msg.sessionRefreshTime then
          .createTimer msg (armedInterval msg a) a.sessionId
        else .writeSession { msg with timerId := NO_TIMER }
          (startSession msg (armedInterval msg a) a.sessionId NO_TIMER) site.stores
      else .finish false := by
  have hinterim : msg.recordType.isInterim = false := by rw [h]; rfl
  have hstart : msg.recordType.isStart = true := by rw [h]; rfl
  unfold Thread.responding onCcfResponse
  rw [resolveInterval_eq]
  cases hacc : a.accepted with
  | true => simp [hinterim, hstart, accepted_iff.mp hacc]
  | false =>
    have hrc : a.rc ≠ 2001 := by
      rw [ne_eq, ← accepted_iff, hacc]
      decide
    simp [hinterim, hrc]

theorem responding_other {msg : Message} (hinterim : msg.recordType ≠ .interim)
    (hstart : msg.recordType ≠ .start) (a : Answer) :
    (Thread.responding site msg a W).pc = .finish a.accepted := by
  have hinterim' : msg.recordType.isInterim = false := by
    rwa [← Bool.not_eq_true, AccountingRecordType.isInterim_iff]
  have hstart' : msg.recordType.isStart = false := by
    rwa [← Bool.not_eq_true, AccountingRecordType.isStart_iff]
  unfold Thread.responding onCcfResponse
  cases a.accepted with
  | true => simp [hinterim', hstart']
  | false => simp [hinterim']

variable (P site W) in
/-- `on_ccf_response` starts past any request if there is none to make, and with the request if there
is one. -/
theorem responding_cases (msg : Message) (a : Answer) :
    (arming P msg a = none ∧ (Thread.responding site msg a W).pc.quiet = true) ∨
      ∃ req k, arming P msg a = some req ∧
        next P site (Thread.responding site msg a W).pc = .timer req k ∧
        ∀ id, (k id).quiet = true ∧
          (k id).stepsLeft site + 1 ≤ (Thread.responding site msg a W).pc.stepsLeft site := by
  by_cases hinterim : msg.recordType = .interim
  · have hstart := AccountingRecordType.ne_start_of_interim hinterim
    rw [responding_interim hinterim]
    by_cases hrc : a.rc = 5002
    · rw [if_pos hrc]
      exact .inl ⟨by simp [arming, hstart, hrc], rfl⟩
    · rw [if_neg hrc]
      by_cases harm : msg.timerInterim = false ∧ armedInterval msg a < msg.sessionRefreshTime
      · rw [if_pos harm]
        refine .inr ⟨chronosUpdate P msg (armedInterval msg a), _, ?_, rfl, ?_⟩
        · rw [arming, if_pos harm.2, if_neg (fun h => hstart h.1), if_pos ⟨hinterim, harm.1, hrc⟩,
            chronosUpdate]
          split_ifs
          · rfl
          · rfl
        · intro id
          dsimp only
          split_ifs
          · exact ⟨rfl, le_refl _⟩
          · exact ⟨rfl, by simp [Pc.stepsLeft]⟩
      · rw [if_neg harm]
        refine .inl ⟨?_, rfl⟩
        unfold arming
        rw [if_neg (fun h : msg.recordType = .start ∧ a.rc = 2001 => hstart h.1)]
        split_ifs with hlt hint
        all_goals first | rfl | exact absurd ⟨hint.2.1, hlt⟩ harm
  · by_cases hstart : msg.recordType = .start
    · rw [responding_start hstart]
      by_cases hrc : a.rc = 2001
      · rw [if_pos hrc]
        by_cases hlt : armedInterval msg a < msg.sessionRefreshTime
        · rw [if_pos hlt]
          refine .inr ⟨_, _, ?_, rfl, fun id => ⟨rfl, le_refl _⟩⟩
          rw [arming, if_pos hlt, if_pos ⟨hstart, hrc⟩]
        · rw [if_neg hlt]
          exact .inl ⟨by rw [arming, if_neg hlt], rfl⟩
      · rw [if_neg hrc]
        exact .inl ⟨by simp [arming, hinterim, hrc], rfl⟩
    · rw [responding_other hinterim hstart]
      exact .inl ⟨by simp [arming, hinterim, hstart], rfl⟩

variable (site W) in
theorem stepsLeft_responding (msg : Message) (a : Answer) :
    (Thread.responding site msg a W).pc.stepsLeft site ≤ 2 * site.stores.length + 3 := by
  unfold Thread.responding onCcfResponse
  dsimp only
  split_ifs
  all_goals
    simp only [Pc.stepsLeft]
    omega

end Steps

/-! ## Accepted or not -/

/-- The same place in `on_ccf_response`, whether the ACR was accepted or not. -/
inductive SamePlace : Pc → Pc → Prop where
  | sendChronosUpdate (msg : Message) (interimInterval : UInt32) (accepted accepted' : Bool) :
      SamePlace (.sendChronosUpdate msg interimInterval accepted)
        (.sendChronosUpdate msg interimInterval accepted')
  | readTimerId (msg : Message) (timerId : Bytes) (rest : List StoreId)
      (accepted accepted' : Bool) :
      SamePlace (.readTimerId msg timerId rest accepted) (.readTimerId msg timerId rest accepted')
  | writeTimerId (msg : Message) (timerId : Bytes) (s : StoreId) (rest : List StoreId)
      (sess : Session) (accepted accepted' : Bool) :
      SamePlace (.writeTimerId msg timerId s rest sess accepted)
        (.writeTimerId msg timerId s rest sess accepted')
  | finish (accepted accepted' : Bool) : SamePlace (.finish accepted) (.finish accepted')
  | done : SamePlace .done .done
  | aborted : SamePlace .aborted .aborted

theorem SamePlace.step {pc pc' : Pc} (h : SamePlace pc pc') (P : Platform) (site : Site) (env : Env)
    (W : World) :
    SamePlace (Ralf.step P site env pc W).1 (Ralf.step P site env pc' W).1 ∧
      (Ralf.step P site env pc W).2.1 = (Ralf.step P site env pc' W).2.1 ∧
      requests (Ralf.step P site env pc W).2.2 = requests (Ralf.step P site env pc' W).2.2 := by
  cases h with
  | sendChronosUpdate msg interimInterval accepted accepted' =>
    refine ⟨?_, rfl, rfl⟩
    simp only [Ralf.step, next, perform]
    split_ifs
    · exact .readTimerId _ _ _ _ _
    · exact .finish _ _
  | readTimerId msg timerId rest accepted accepted' =>
    cases rest with
    | nil => exact ⟨.finish _ _, rfl, rfl⟩
    | cons s rest =>
      simp only [Ralf.step, next, perform]
      cases getSessionData P (W s) (env.store s) msg.key with
      | error e => exact ⟨.aborted, rfl, rfl⟩
      | ok sess =>
        cases sess with
        | none => exact ⟨.readTimerId _ _ _ _ _, rfl, rfl⟩
        | some sess => exact ⟨.writeTimerId _ _ _ _ _ _ _, rfl, rfl⟩
  | writeTimerId msg timerId s rest sess accepted accepted' =>
    exact ⟨.readTimerId _ _ _ _ _, rfl, rfl⟩
  | finish accepted accepted' =>
    cases accepted with
    | true =>
      cases accepted' with
      | true => exact ⟨.done, rfl, rfl⟩
      | false => exact ⟨.done, rfl, rfl⟩
    | false =>
      cases accepted' with
      | true => exact ⟨.done, rfl, rfl⟩
      | false => exact ⟨.done, rfl, rfl⟩
  | done => exact ⟨.done, rfl, rfl⟩
  | aborted => exact ⟨.aborted, rfl, rfl⟩

/-- Two threads at the same place, which have left the stores alike and asked Chronos alike. -/
structure InStep (t t' : Thread) : Prop where
  pc : SamePlace t.pc t'.pc
  shared : t.shared = t'.shared
  requests : requests t.trace = requests t'.trace

theorem InStep.step {P : Platform} {site : Site} {t t' : Thread} (h : InStep t t')
    (x : Env × (World → World)) :
    InStep (stepAmongOthers P site x t) (stepAmongOthers P site x t') := by
  obtain ⟨hpc, hshared, hreqs⟩ := h.pc.step P site x.1 (x.2 t'.shared)
  rw [← h.shared] at hpc hshared hreqs
  refine ⟨?_, ?_, ?_⟩
  · show SamePlace (Ralf.step P site x.1 t.pc (x.2 t.shared)).1
      (Ralf.step P site x.1 t'.pc (x.2 t'.shared)).1
    rwa [← h.shared]
  · show (Ralf.step P site x.1 t.pc (x.2 t.shared)).2.1 =
      (Ralf.step P site x.1 t'.pc (x.2 t'.shared)).2.1
    rwa [← h.shared]
  · show Ralf.requests (t.trace ++ (Ralf.step P site x.1 t.pc (x.2 t.shared)).2.2) =
      Ralf.requests (t'.trace ++ (Ralf.step P site x.1 t'.pc (x.2 t'.shared)).2.2)
    rw [requests_append, requests_append, h.requests, ← h.shared, hreqs]

theorem inStep_responding {site : Site} {msg : Message} {W : World}
    (hinterim : msg.recordType = .interim) {a a' : Answer} (ha : a.rc ≠ 5002) (ha' : a'.rc ≠ 5002)
    (hinterval : a'.interimInterval = a.interimInterval) :
    InStep (Thread.responding site msg a W) (Thread.responding site msg a' W) := by
  have hsame : armedInterval msg a' = armedInterval msg a := by
    unfold armedInterval
    rw [hinterval]
  refine ⟨?_, rfl, rfl⟩
  rw [responding_interim hinterim, responding_interim hinterim, if_neg ha, if_neg ha', hsame]
  split_ifs
  · exact .sendChronosUpdate _ _ _ _
  · exact .finish _ _

/-! ## Runs -/

section Runs

variable {P : Platform} {site : Site}

variable (P site) in
theorem quiet_run {t : Thread} (h : t.pc.quiet = true) (xs : List (Env × (World → World))) :
    (exec (stepAmongOthers P site) xs t).pc.quiet = true ∧
      requests (exec (stepAmongOthers P site) xs t).trace = requests t.trace ∧
      (exec (stepAmongOthers P site) xs t).pc.stepsLeft site ≤ t.pc.stepsLeft site - xs.length := by
  induction xs generalizing t with
  | nil => exact ⟨h, rfl, le_refl _⟩
  | cons x xs ih =>
    obtain ⟨hquiet, hreqs, hleft⟩ := quiet_step P site x.1 (x.2 t.shared) h
    obtain ⟨hquiet', hreqs', hleft'⟩ := @ih (stepAmongOthers P site x t) hquiet
    refine ⟨hquiet', hreqs'.trans ?_, hleft'.trans ?_⟩
    · show requests (t.trace ++ (step P site x.1 t.pc (x.2 t.shared)).2.2) = _
      rw [requests_append, hreqs, List.append_nil]
    · change _ - xs.length ≤ _ - (xs.length + 1)
      have hle : (stepAmongOthers P site x t).pc.stepsLeft site ≤ t.pc.stepsLeft site - 1 := hleft
      omega

/-- After the first step the request has been made, if there is one to make. -/
theorem responding_run (msg : Message) (a : Answer) (W : World) (x : Env × (World → World))
    (xs : List (Env × (World → World))) {t : Thread}
    (ht : exec (stepAmongOthers P site) (x :: xs) (Thread.responding site msg a W) = t) :
    t.pc.quiet = true ∧ requests t.trace = (arming P msg a).toList ∧
      t.pc.stepsLeft site ≤ 2 * site.stores.length + 3 - (xs.length + 1) := by
  have hbound := stepsLeft_responding site W msg a
  obtain ⟨hnone, hquiet⟩ | ⟨req, k, hsome, hnext, hk⟩ := responding_cases P site W msg a
  · obtain ⟨hquiet', hreqs, hleft⟩ := quiet_run P site hquiet (x :: xs)
    rw [ht] at hquiet' hreqs hleft
    rw [List.length_cons] at hleft
    refine ⟨hquiet', ?_, by omega⟩
    rw [hreqs, hnone]
    rfl
  · have hfirst : stepAmongOthers P site x (Thread.responding site msg a W) =
        ⟨k x.1.timer, x.2 W, [.timer req]⟩ := by
      unfold stepAmongOthers threadStep Solo.step step
      dsimp only
      rw [hnext]
      rfl
    have hrest : exec (stepAmongOthers P site) xs ⟨k x.1.timer, x.2 W, [.timer req]⟩ = t := by
      rw [← hfirst]
      exact ht
    obtain ⟨hquiet, hless⟩ := hk x.1.timer
    obtain ⟨hquiet', hreqs, hleft⟩ := quiet_run P site
      (show (⟨k x.1.timer, x.2 W, [.timer req]⟩ : Thread).pc.quiet = true from hquiet) xs
    rw [hrest] at hquiet' hreqs hleft
    dsimp only at hleft
    refine ⟨hquiet', ?_, by omega⟩
    rw [hreqs, hsome]
    rfl

/-- **When a timer is armed.** `on_ccf_response` makes the one request the law asks for, and no other,
with its first step; every request is for an interval above 0 and below the time it is repeated for,
which is the refresh time. It ends after a bounded number of steps. To an INTERIM that Chronos did
not cause, two answers with the same interval and other results than 5002 are the same, at every step
of the way. -/
theorem timer_arming (P : Platform) (site : Site) (msg : Message) (a : Answer) (W : World)
    {xs : List (Env × (World → World))} (hxs : xs ≠ []) {t : Thread}
    (ht : exec (stepAmongOthers P site) xs (Thread.responding site msg a W) = t) :
    requests t.trace = (arming P msg a).toList ∧
      (∀ req ∈ requests t.trace, ∃ spec, req.spec = some spec ∧
        0 < spec.interval ∧ spec.interval = armedInterval msg a ∧
        spec.interval < spec.repeatFor ∧ spec.repeatFor = msg.sessionRefreshTime) ∧
      (2 * site.stores.length + 3 ≤ xs.length → t.pc = .done ∨ t.pc = .aborted) ∧
      (msg.recordType = .interim → msg.timerInterim = false → a.rc ≠ 5002 →
        ∀ a' : Answer, a'.interimInterval = a.interimInterval → a'.rc ≠ 5002 →
          ∀ {t' : Thread},
            exec (stepAmongOthers P site) xs (Thread.responding site msg a' W) = t' →
              t'.shared = t.shared ∧ requests t'.trace = requests t.trace) := by
  obtain ⟨x, xs, rfl⟩ := List.exists_cons_of_ne_nil hxs
  obtain ⟨hquiet, hreqs, hleft⟩ := responding_run msg a W x xs ht
  refine ⟨hreqs, ?_, ?_, ?_⟩
  · intro req hreq
    rw [hreqs, Option.mem_toList] at hreq
    obtain ⟨hspec, hlt⟩ := spec_arming hreq
    exact ⟨_, hspec, armedInterval_pos hlt, rfl, hlt, rfl⟩
  · intro hlen
    rw [List.length_cons] at hlen
    exact ended_of_stepsLeft hquiet (show t.pc.stepsLeft site = 0 by omega)
  · intro hinterim _ ha a' hinterval ha' t' ht'
    have hstep : InStep t t' := by
      rw [← ht, ← ht']
      exact exec_related (fun s s' x h => h.step x) (x :: xs)
        (inStep_responding hinterim ha ha' hinterval)
    exact ⟨hstep.shared.symm, hstep.requests.symm⟩

end Runs

/-- An INTERIM of a session with a timer, which is renewed every 100 seconds. -/
def timedInterim : Message :=
  { sampleMessage .interim with timerId := ascii "t", interimInterval := 100 }

/-- Seven steps without other threads, in which Chronos gives the timer another id. -/
def renewing : List (Env × (World → World)) :=
  List.replicate 7 (⟨fun _ => .up, some (ascii "u"), [], ⟨0, [], 2001⟩⟩, id)

/-- The timer is renewed, and the stores are the same if the CCF answers 3004 instead. -/
theorem timer_arming_timedInterim :
    requests (exec (stepAmongOthers compactPlatform localAndRemote) renewing
        (Thread.responding localAndRemote timedInterim ⟨0, [], 2001⟩ fun _ => .empty)).trace =
      [.put (ascii "t") (timerSpec compactPlatform timedInterim 100)] ∧
    (exec (stepAmongOthers compactPlatform localAndRemote) renewing
        (Thread.responding localAndRemote timedInterim ⟨0, [], 3004⟩ fun _ => .empty)).shared =
      (exec (stepAmongOthers compactPlatform localAndRemote) renewing
        (Thread.responding localAndRemote timedInterim ⟨0, [], 2001⟩ fun _ => .empty)).shared := by
  obtain ⟨hreqs, -, -, hsame⟩ := timer_arming compactPlatform localAndRemote timedInterim
    ⟨0, [], 2001⟩ (fun _ => .empty) (List.cons_ne_nil _ _) (show
      exec (stepAmongOthers compactPlatform localAndRemote) renewing _ = _ from rfl)
  refine ⟨hreqs.trans rfl, ?_⟩
  exact (hsame rfl rfl (by decide) ⟨0, [], 3004⟩ rfl (by decide) rfl).1

end Ralf
