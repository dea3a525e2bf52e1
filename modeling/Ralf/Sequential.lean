import Ralf.Acrs
import Ralf.Chronos

/-!
# One message at a time

What a message does to the registers when nobody else writes. `ReachesIn` is total correctness:
whatever the environment contributes within a `Setting`, the thread gets to a state with the wanted
property. The rules follow the program: one for each loop, in terms of the `Effect` the loop has on
every store it visits, from them one for `on_ccf_response` (`reaches_answer`) and one for each way
through `handle`, and in the end `ProcessedBy`, which says all that a message does when it is
processed to completion: to the stores, to the CCF and to Chronos. `Processed` is what is left of it
when only the answer is known.
-/

namespace Ralf

open Bytes Versioned Runs

/-! ## Effects -/

/-- Every register in `stores` has changed by `f`, under a CAS value the store chose; the others are
as before. -/
structure Effect (f : Option Session → ℕ+ → Option Session) (stores : List StoreId) (R R' : Regs) :
    Prop where
  frame : ∀ s ∉ stores, R' s = R s
  cell : ∀ s ∈ stores, ∃ c, (R' s).cell = f (R s).cell c

/-- No session in a register has CAS value 0. -/
def Positive (R : Regs) : Prop := ∀ s v, (R s).cell = some v → v.cas ≠ 0

/-- The update of an INTERIM: an increment, or the message's own session where there is none. -/
def counted (sess : Session) (o : Option Session) (c : ℕ+) : Option Session :=
  ((o.map Session.incremented).getD sess).written c

/-- A new timer id, where there is a session. -/
def retimed (timerId : Bytes) (o : Option Session) (c : ℕ+) : Option Session :=
  o.bind fun v => ({ v with timerId := timerId } : Session).written c

/-- A session that is added where there is none. -/
def added (sess : Session) (o : Option Session) (c : ℕ+) : Option Session :=
  match o with
  | some v => some v
  | none => sess.written c

/-- A delete. -/
def gone (_ : Option Session) (_ : ℕ+) : Option Session := none

/-- A session apart from its CAS value. -/
def Session.content (sess : Session) : Session := { sess with cas := 0 }

theorem content_written {sess v : Session} {c : ℕ+} (h : sess.written c = some v) :
    v.content = sess.content.stored := by
  rw [eq_of_written h]
  rfl

section Effects

variable {f : Option Session → ℕ+ → Option Session} {R R₁ R' : Regs} {s : StoreId}
  {rest : List StoreId}

theorem Effect.nil : Effect f [] R R := ⟨fun _ _ => rfl, fun _ h => by cases h⟩

/-- A loop's effect: on its first store, then on the rest. -/
theorem Effect.cons (hs : s ∉ rest) (hframe : ∀ t, t ≠ s → R₁ t = R t)
    (hcell : ∃ c, (R₁ s).cell = f (R s).cell c) (h : Effect f rest R₁ R') :
    Effect f (s :: rest) R R' where
  frame := by
    intro t ht
    rw [List.mem_cons, not_or] at ht
    rw [h.frame t ht.2, hframe t ht.1]
  cell := by
    intro t ht
    by_cases hts : t = s
    · rw [hts, h.frame s hs]
      exact hcell
    · obtain ⟨c, hc⟩ := h.cell t ((List.mem_cons.mp ht).resolve_left hts)
      rw [hframe t hts] at hc
      exact ⟨c, hc⟩

/-- The effect on the first store is a write. -/
theorem Effect.put {env : Env} {x : Option Session} (hs : s ∉ rest)
    (hx : x = f (R s).cell (env.store s).cas) (h : Effect f rest (R.put s env x) R') :
    Effect f (s :: rest) R R' := by
  refine .cons hs (fun t ht => Regs.put_of_ne R env x ht) ⟨(env.store s).cas, ?_⟩ h
  rw [Regs.put_self, Register.put_cell, hx]

theorem version_of_none (h : (R s).cell = none) : R.version s = 0 := by
  simp [Regs.version, Register.version, h]

theorem version_of_some {v : Session} (h : (R s).cell = some v) : R.version s = v.cas := by
  simp [Regs.version, Register.version, h]

theorem version_eq_zero_iff (hpos : Positive R) : R.version s = 0 ↔ (R s).cell = none := by
  constructor
  · intro h
    cases hc : (R s).cell with
    | none => rfl
    | some v =>
      rw [version_of_some hc] at h
      exact absurd h (hpos s v hc)
  · exact version_of_none

theorem Positive.put (hpos : Positive R) {env : Env} {x : Option Session}
    (hx : ∀ v, x = some v → v.cas = (env.store s).cas) : Positive (R.put s env x) := by
  intro t v hv
  by_cases ht : t = s
  · subst ht
    rw [Regs.put_self, Register.put_cell] at hv
    rw [hx v hv]
    exact (env.store t).cas.ne_zero
  · rw [Regs.put_of_ne R env x ht] at hv
    exact hpos t v hv

theorem Positive.written (hpos : Positive R) {env : Env} (sess : Session) :
    Positive (R.put s env (sess.written (env.store s).cas)) :=
  hpos.put fun _ => cas_written

theorem Positive.erase (hpos : Positive R) : Positive (R.erase s) := by
  intro t v hv
  by_cases ht : t = s
  · subst ht
    rw [Regs.erase_self] at hv
    cases hv
  · rw [Regs.erase_of_ne R ht] at hv
    exact hpos t v hv

end Effects

/-! ## Reaching a state -/

section Reaching

variable (P : Platform) (site : Site) (a : Answer)

/-- What is known of the environments of a message that is processed on its own. -/
structure Setting where
  Ok : Env → Prop
  up : ∀ env, Ok env → env.Up
  nonempty : ∃ env, Ok env

/-- Only the answer is known. -/
def Setting.alone (a : Answer) : Setting where
  Ok := fun env => env.Up ∧ env.answer = a
  up := fun _ h => h.1
  nonempty := ⟨⟨fun _ => .up, none, [], a⟩, fun _ => rfl, rfl⟩

/-- The thread gets to a state in `Q`, whatever its environment contributes within the setting. -/
def ReachesIn (C : Setting) (Q : RegThread → Prop) (pc : Pc) (R : Regs) (tr : List Event) : Prop :=
  Eventually (regThreadStep P site) (fun _ env => C.Ok env) Q ⟨pc, R, tr⟩

variable {P site a} {C : Setting} {Q : RegThread → Prop} {pc : Pc} {R : Regs} {tr : List Event}

theorem ReachesIn.now (h : Q ⟨pc, R, tr⟩) : ReachesIn P site C Q pc R tr := Eventually.now h

theorem ReachesIn.move (h : ∀ env, C.Ok env → ∀ pc' R' es,
    Move P site env pc R pc' R' es → ReachesIn P site C Q pc' R' (tr ++ es)) :
    ReachesIn P site C Q pc R tr := by
  refine Eventually.next C.nonempty ?_
  intro env henv
  obtain ⟨pc', R', es, hm, heq⟩ := regThreadStep_cases P site env (C.up env henv) ⟨pc, R, tr⟩
  rw [heq]
  exact h env henv pc' R' es hm

/-! ## Loops -/

variable {msg : Message} {sess : Session} {rest : List StoreId}

theorem reaches_readRemotes (hnodup : rest.Nodup) (hpos : Positive R)
    (hQ : ∀ R', Positive R' → Effect (counted sess) rest R R' →
      ReachesIn P site C Q (.send (fillIn msg sess)) R' tr) :
    ReachesIn P site C Q (.readRemotes msg sess rest) R tr := by
  induction rest generalizing R with
  | nil =>
    refine .move fun env henv pc' R' es hm => ?_
    cases hm
    rw [List.append_nil]
    exact hQ R hpos .nil
  | cons s rest ih =>
    obtain ⟨hs, hnodup'⟩ := List.nodup_cons.mp hnodup
    refine .move fun env henv pc' R' es hm => ?_
    cases hm with
    | readRemotesMissing hnone =>
      refine .move fun env' henv' pc' R' es hm => ?_
      cases hm with
      | updateRemoteAgain hver => exact absurd (version_of_none hnone) hver
      | updateRemote =>
        rw [List.append_nil, List.append_nil]
        refine ih hnodup' (hpos.written _) fun R' hpos' heff => hQ R' hpos' ?_
        refine .put hs ?_ heff
        rw [hnone]
        rfl
    | readRemotesFound hsome =>
      refine .move fun env' henv' pc' R' es hm => ?_
      cases hm with
      | updateRemoteAgain hver => exact absurd (version_of_some hsome) hver
      | updateRemote =>
        rw [List.append_nil, List.append_nil]
        refine ih hnodup' (hpos.written _) fun R' hpos' heff => hQ R' hpos' ?_
        refine .put hs ?_ heff
        rw [hsome]
        rfl

theorem reaches_readTimerId {timerId : Bytes} {accepted : Bool} (hnodup : rest.Nodup)
    (hpos : Positive R)
    (hQ : ∀ R', Positive R' → Effect (retimed timerId) rest R R' →
      ReachesIn P site C Q (.finish accepted) R' tr) :
    ReachesIn P site C Q (.readTimerId msg timerId rest accepted) R tr := by
  induction rest generalizing R msg with
  | nil =>
    refine .move fun env henv pc' R' es hm => ?_
    cases hm
    rw [List.append_nil]
    exact hQ R hpos .nil
  | cons s rest ih =>
    obtain ⟨hs, hnodup'⟩ := List.nodup_cons.mp hnodup
    refine .move fun env henv pc' R' es hm => ?_
    cases hm with
    | readTimerIdMissing hnone =>
      rw [List.append_nil]
      refine ih hnodup' hpos fun R' hpos' heff => hQ R' hpos' ?_
      refine .cons hs (fun _ _ => rfl) ⟨1, ?_⟩ heff
      rw [hnone]
      rfl
    | readTimerId hsome =>
      refine .move fun env' henv' pc' R' es hm => ?_
      cases hm with
      | writeTimerIdFailed hver => exact absurd (version_of_some hsome) hver
      | writeTimerId =>
        rw [List.append_nil, List.append_nil]
        refine ih hnodup' (hpos.written _) fun R' hpos' heff => hQ R' hpos' ?_
        refine .put hs ?_ heff
        rw [hsome]
        rfl

theorem reaches_writeSession (hnodup : rest.Nodup) (hpos : Positive R)
    (hQ : ∀ R', Positive R' → Effect (added sess) rest R R' →
      ReachesIn P site C Q (.finish true) R' tr) :
    ReachesIn P site C Q (.writeSession msg sess rest) R tr := by
  induction rest generalizing R with
  | nil =>
    refine .move fun env henv pc' R' es hm => ?_
    cases hm
    rw [List.append_nil]
    exact hQ R hpos .nil
  | cons s rest ih =>
    obtain ⟨hs, hnodup'⟩ := List.nodup_cons.mp hnodup
    refine .move fun env henv pc' R' es hm => ?_
    cases hm with
    | writeSession hver =>
      rw [List.append_nil]
      refine ih hnodup' (hpos.written _) fun R' hpos' heff => hQ R' hpos' ?_
      refine .put hs ?_ heff
      rw [(version_eq_zero_iff hpos).mp hver]
      rfl
    | writeSessionFailed hver =>
      rw [List.append_nil]
      refine ih hnodup' hpos fun R' hpos' heff => hQ R' hpos' ?_
      refine .cons hs (fun _ _ => rfl) ⟨1, ?_⟩ heff
      cases hc : (R s).cell with
      | none => exact absurd (version_of_none hc) hver
      | some v => rfl

theorem effect_erase {R' : Regs} {s : StoreId} (hs : s ∉ rest) (h : Effect gone rest (R.erase s) R') :
    Effect gone (s :: rest) R R' :=
  .cons hs (fun _ ht => Regs.erase_of_ne R ht) ⟨1, by rw [Regs.erase_self]; rfl⟩ h

theorem reaches_deleteUnknown (hnodup : rest.Nodup) (hpos : Positive R)
    (hQ : ∀ R', Positive R' → Effect gone rest R R' → ReachesIn P site C Q (.finish false) R' tr) :
    ReachesIn P site C Q (.deleteUnknown msg rest) R tr := by
  induction rest generalizing R with
  | nil =>
    refine .move fun env henv pc' R' es hm => ?_
    cases hm
    rw [List.append_nil]
    exact hQ R hpos .nil
  | cons s rest ih =>
    obtain ⟨hs, hnodup'⟩ := List.nodup_cons.mp hnodup
    refine .move fun env henv pc' R' es hm => ?_
    cases hm
    rw [List.append_nil]
    exact ih hnodup' hpos.erase fun R' hpos' heff => hQ R' hpos' (effect_erase hs heff)

/-- What a STOP asks of Chronos. -/
def stopRequests (sess : Session) : List TimerRequest :=
  if sess.timerId ≠ NO_TIMER then [.delete sess.timerId] else []

/-- The loop of a STOP, and the delete of the timer after it. -/
theorem reaches_deleteRemotes (hnodup : rest.Nodup) (hpos : Positive R)
    (hQ : ∀ R' es, Positive R' → Effect gone rest R R' → es.filterMap Event.sent = [] →
      requests es = stopRequests sess →
      ReachesIn P site C Q (.send (fillIn msg sess)) R' (tr ++ es)) :
    ReachesIn P site C Q (.deleteRemotes msg sess rest) R tr := by
  induction rest generalizing R with
  | nil =>
    refine .move fun env henv pc' R' es hm => ?_
    cases hm with
    | deleteRemotesTimer ht =>
      refine hQ R _ hpos .nil rfl ?_
      rw [stopRequests, if_pos ht]
      rfl
    | deleteRemotesNone ht =>
      refine hQ R _ hpos .nil rfl ?_
      rw [stopRequests, if_neg (not_not.mpr ht)]
      rfl
  | cons s rest ih =>
    obtain ⟨hs, hnodup'⟩ := List.nodup_cons.mp hnodup
    refine .move fun env henv pc' R' es hm => ?_
    cases hm
    rw [List.append_nil]
    exact ih hnodup' hpos.erase fun R' es hpos' heff => hQ R' es hpos' (effect_erase hs heff)

/-! ## Whole messages -/

/-- What `on_ccf_response` does to the stores. -/
inductive Answered (site : Site) (a : Answer) (msg : Message) (R : Regs) : Regs → Prop where
  | unknown {R'} : msg.recordType = .interim → a.rc = 5002 → Effect gone site.stores R R' →
      Answered site a msg R R'
  | retimed {R' timerId} : msg.recordType = .interim → a.rc ≠ 5002 →
      Effect (retimed timerId) site.stores R R' → Answered site a msg R R'
  | created {R' timerId} : msg.recordType = .start → a.accepted = true →
      Effect (added (startSession msg (resolveInterval msg a.interimInterval) a.sessionId timerId))
        site.stores R R' →
      Answered site a msg R R'
  | kept : (msg.recordType = .interim → a.rc ≠ 5002) →
      (msg.recordType = .start → a.accepted = false) → Answered site a msg R R

/-- The session `handle` finds: the local one, or else that of the first remote store with one. -/
def Regs.find (R : Regs) (stores : List StoreId) : Option Session :=
  stores.findSome? fun s => (R s).cell

/-- What a message does to the stores when nobody else writes, and what it sends. -/
inductive Processed (site : Site) (a : Answer) (msg : Message) (R : Regs) :
    Regs → List Message → Prop where
  | ignored : msg.recordType = .interim ∨ msg.recordType = .stop → R.find site.stores = none →
      Processed site a msg R R []
  | interim {sess R₁ R'} : msg.recordType = .interim → R.find site.stores = some sess →
      Effect (counted sess.incremented) site.stores R R₁ →
      Answered site a (fillIn msg sess.incremented) R₁ R' →
      Processed site a msg R R' [fillIn msg sess.incremented]
  | stop {sess R₁ R'} : msg.recordType = .stop → (R site.localStore).cell = some sess →
      Effect gone site.stores R R₁ → Answered site a (fillIn msg sess.incremented) R₁ R' →
      Processed site a msg R R' [fillIn msg sess.incremented]
  | first {R'} : msg.recordType ≠ .interim → msg.recordType ≠ .stop →
      Answered site a { msg with accountingRecordNumber := 1 } R R' →
      Processed site a msg R R' [{ msg with accountingRecordNumber := 1 }]

/-- What `on_ccf_response` does to the stores, and what it asks of Chronos. -/
inductive AnsweredBy (P : Platform) (site : Site) (C : Setting) (msg : Message) (R : Regs) :
    Regs → List TimerRequest → Prop where
  | unknown {env R'} : C.Ok env → msg.recordType = .interim → env.answer.rc = 5002 →
      Effect gone site.stores R R' → AnsweredBy P site C msg R R' []
  | updated {env env' R'} : C.Ok env → C.Ok env' → msg.recordType = .interim →
      env.answer.rc ≠ 5002 → msg.timerInterim = false →
      resolveInterval msg env.answer.interimInterval < msg.sessionRefreshTime →
      env'.timer.getD msg.timerId ≠ msg.timerId →
      Effect (retimed (env'.timer.getD msg.timerId)) site.stores R R' →
      AnsweredBy P site C msg R R'
        [chronosUpdate P msg (resolveInterval msg env.answer.interimInterval)]
  | unchanged {env env'} : C.Ok env → C.Ok env' → msg.recordType = .interim →
      env.answer.rc ≠ 5002 → msg.timerInterim = false →
      resolveInterval msg env.answer.interimInterval < msg.sessionRefreshTime →
      env'.timer.getD msg.timerId = msg.timerId →
      AnsweredBy P site C msg R R
        [chronosUpdate P msg (resolveInterval msg env.answer.interimInterval)]
  | timed {env env' R'} : C.Ok env → C.Ok env' → msg.recordType = .start →
      env.answer.accepted = true →
      resolveInterval msg env.answer.interimInterval < msg.sessionRefreshTime →
      Effect (added (startSession msg (resolveInterval msg env.answer.interimInterval)
        env.answer.sessionId (env'.timer.getD NO_TIMER))) site.stores R R' →
      AnsweredBy P site C msg R R'
        [.post (timerSpec P msg (resolveInterval msg env.answer.interimInterval))]
  | untimed {env R'} : C.Ok env → msg.recordType = .start → env.answer.accepted = true →
      ¬ resolveInterval msg env.answer.interimInterval < msg.sessionRefreshTime →
      Effect (added (startSession msg (resolveInterval msg env.answer.interimInterval)
        env.answer.sessionId NO_TIMER)) site.stores R R' →
      AnsweredBy P site C msg R R' []
  | kept {env} : C.Ok env → (msg.recordType = .interim → env.answer.rc ≠ 5002) →
      (msg.recordType = .start → env.answer.accepted = false) →
      (msg.recordType = .interim → msg.timerInterim = false →
        ¬ resolveInterval msg env.answer.interimInterval < msg.sessionRefreshTime) →
      AnsweredBy P site C msg R R []

/-- What a message does when nobody else writes: to the stores, what it sends, and what it asks of
Chronos. -/
inductive ProcessedBy (P : Platform) (site : Site) (C : Setting) (msg : Message) (R : Regs) :
    Regs → List Message → List TimerRequest → Prop where
  | ignored : msg.recordType = .interim ∨ msg.recordType = .stop → R.find site.stores = none →
      ProcessedBy P site C msg R R [] []
  | interim {sess R₁ R' reqs} : msg.recordType = .interim → R.find site.stores = some sess →
      Effect (counted sess.incremented) site.stores R R₁ →
      AnsweredBy P site C (fillIn msg sess.incremented) R₁ R' reqs →
      ProcessedBy P site C msg R R' [fillIn msg sess.incremented] reqs
  | stop {sess R₁ R' reqs} : msg.recordType = .stop → (R site.localStore).cell = some sess →
      Effect gone site.stores R R₁ →
      AnsweredBy P site C (fillIn msg sess.incremented) R₁ R' reqs →
      ProcessedBy P site C msg R R' [fillIn msg sess.incremented] (stopRequests sess ++ reqs)
  | first {R' reqs} : msg.recordType ≠ .interim → msg.recordType ≠ .stop →
      AnsweredBy P site C { msg with accountingRecordNumber := 1 } R R' reqs →
      ProcessedBy P site C msg R R' [{ msg with accountingRecordNumber := 1 }] reqs

theorem AnsweredBy.answered {R' : Regs} {reqs : List TimerRequest}
    (h : AnsweredBy P site (.alone a) msg R R' reqs) : Answered site a msg R R' := by
  cases h with
  | unknown henv hi hrc heff =>
    rw [henv.2] at hrc
    exact .unknown hi hrc heff
  | updated henv _ hi hrc _ _ _ heff =>
    rw [henv.2] at hrc
    exact .retimed hi hrc heff
  | unchanged henv _ hi hrc =>
    rw [henv.2] at hrc
    refine .kept (fun _ => hrc) fun hs => ?_
    rw [hi] at hs
    cases hs
  | timed henv _ hs hacc _ heff =>
    rw [henv.2] at hacc heff
    exact .created hs hacc heff
  | untimed henv hs hacc _ heff =>
    rw [henv.2] at hacc heff
    exact .created hs hacc heff
  | kept henv hrc hacc =>
    rw [henv.2] at hrc hacc
    exact .kept hrc hacc

theorem ProcessedBy.processed {R' : Regs} {out : List Message} {reqs : List TimerRequest}
    (h : ProcessedBy P site (.alone a) msg R R' out reqs) : Processed site a msg R R' out := by
  cases h with
  | ignored htype hnone => exact .ignored htype hnone
  | interim hi hsome heff hans => exact .interim hi hsome heff hans.answered
  | stop hs hsome heff hans => exact .stop hs hsome heff hans.answered
  | first hi hs hans => exact .first hi hs hans.answered

/-- The sendings of a trace. -/
def sendings (tr : List Event) : List Message := (tr.filterMap Event.sent).map Prod.fst

theorem sendings_append_quiet {tr es : List Event} (h : es.filterMap Event.sent = []) :
    sendings (tr ++ es) = sendings tr := by
  simp [sendings, h]

theorem reaches_finish {accepted : Bool} (hQ : ∀ es, es.filterMap Event.sent = [] →
    requests es = [] → Q ⟨.done, R, tr ++ es⟩) : ReachesIn P site C Q (.finish accepted) R tr := by
  refine .move fun env henv pc' R' es hm => ?_
  cases hm with
  | finish => exact .now (hQ _ rfl rfl)
  | finishQuiet => exact .now (hQ _ rfl rfl)

/-- From the answer to the end. -/
theorem reaches_answer (hpos : Positive R)
    (hQ : ∀ R' es, Positive R' → AnsweredBy P site C msg R R' (requests es) →
      es.filterMap Event.sent = [] → Q ⟨.done, R', tr ++ es⟩) :
    ReachesIn P site C Q (.awaitAnswer msg) R tr := by
  -- the events before the last loop and those of `finish` together
  have hfinish : ∀ {R'} {accepted : Bool} {es₀ : List Event}, Positive R' →
      AnsweredBy P site C msg R R' (requests es₀) → es₀.filterMap Event.sent = [] →
      ReachesIn P site C Q (.finish accepted) R' (tr ++ es₀) := by
    intro R' accepted es₀ hpos' hans hes₀
    refine reaches_finish fun es hes hreqs => ?_
    rw [List.append_assoc]
    refine hQ R' _ hpos' ?_ (by rw [List.filterMap_append, hes₀, hes]; rfl)
    rw [requests_append, hreqs, List.append_nil]
    exact hans
  refine .move fun env henv pc' R' es hm => ?_
  cases hm with
  | answerUpdate hi hrc ht hlt =>
    refine .move fun env' henv' pc' R' es hm => ?_
    rw [List.append_nil]
    cases hm with
    | chronosUpdated hne =>
      exact reaches_readTimerId site.nodup hpos fun R' hpos' heff =>
        hfinish hpos' (.updated henv henv' hi hrc ht hlt hne heff) rfl
    | chronosUnchanged heq => exact hfinish hpos (.unchanged henv henv' hi hrc ht hlt heq) rfl
  | answerTimer hs hacc hlt =>
    refine .move fun env' henv' pc' R' es hm => ?_
    rw [List.append_nil]
    cases hm
    exact reaches_writeSession site.nodup hpos fun R' hpos' heff =>
      hfinish hpos' (.timed henv henv' hs hacc hlt heff) rfl
  | answerStart hs hacc hlt =>
    exact reaches_writeSession site.nodup hpos fun R' hpos' heff =>
      hfinish hpos' (.untimed henv hs hacc hlt heff) rfl
  | answerUnknown hi hrc =>
    exact reaches_deleteUnknown site.nodup hpos fun R' hpos' heff =>
      hfinish hpos' (.unknown henv hi hrc heff) rfl
  | answerFinish hs hrc hlt => exact hfinish hpos (.kept henv hrc hs hlt) rfl

theorem reaches_send (hpos : Positive R)
    (hQ : ∀ R' es, Positive R' → AnsweredBy P site C msg R R' (requests es) →
      sendings es = [msg] → Q ⟨.done, R', tr ++ es⟩) :
    ReachesIn P site C Q (.send msg) R tr := by
  refine .move fun env henv pc' R' es hm => ?_
  cases hm
  refine reaches_answer hpos fun R' es hpos' hans hes => ?_
  rw [List.append_assoc]
  exact hQ R' _ hpos' hans (sendings_append_quiet hes)

/-- INTERIM, from the write to the local store. -/
theorem reaches_updateLocal {newSession : Bool} (hpos : Positive R)
    (hver : R.version site.localStore = sess.expected newSession)
    (hlocal : ∀ c, counted sess (R site.localStore).cell c = sess.written c)
    (hQ : ∀ R', Positive R' → Effect (counted sess) site.stores R R' →
      ReachesIn P site C Q (.send (fillIn msg sess)) R' tr) :
    ReachesIn P site C Q (.updateLocal msg sess newSession) R tr := by
  obtain ⟨hs, hnodup⟩ := List.nodup_cons.mp site.nodup
  refine .move fun env henv pc' R' es hm => ?_
  cases hm with
  | updateLocalAgain hne => exact absurd hver hne
  | updateLocal =>
    rw [List.append_nil]
    refine reaches_readRemotes hnodup (hpos.written _) fun R' hpos' heff => hQ R' hpos' ?_
    exact .put hs (hlocal _).symm heff

/-- The loop that looks for the session of an INTERIM. -/
theorem reaches_tryRemotes {rest : List StoreId}
    (hnone : R.find rest = none → Q ⟨.done, R, tr⟩)
    (hsome : ∀ f, R.find rest = some f →
      ReachesIn P site C Q (found msg f true) R tr) :
    ReachesIn P site C Q (.tryRemotes msg rest) R tr := by
  induction rest with
  | nil =>
    refine .move fun env henv pc' R' es hm => ?_
    cases hm
    rw [List.append_nil]
    exact .now (hnone rfl)
  | cons s rest ih =>
    refine .move fun env henv pc' R' es hm => ?_
    cases hm with
    | tryNext hc =>
      rw [List.append_nil]
      exact ih (fun h => hnone (by simpa [Regs.find, hc] using h))
        fun f h => hsome f (by simpa [Regs.find, hc] using h)
    | @tryInterim _ _ _ _ f hi hc =>
      rw [List.append_nil]
      have := hsome f (by simp [Regs.find, hc])
      rwa [found, if_pos (AccountingRecordType.isInterim_iff.mpr hi)] at this
    | @tryStop _ _ _ _ f hi hc =>
      rw [List.append_nil]
      have := hsome f (by simp [Regs.find, hc])
      rwa [found, if_neg fun h => hi (AccountingRecordType.isInterim_iff.mp h)] at this

theorem find_stores_of_some {f : Session} (h : (R site.localStore).cell = some f) :
    R.find site.stores = some f := by
  simp [Regs.find, Site.stores, h]

theorem find_stores_of_none (h : (R site.localStore).cell = none) :
    R.find site.stores = R.find site.remoteStores := by
  simp [Regs.find, Site.stores, h]

theorem reaches_interim (hi : msg.recordType = .interim) (hpos : Positive R)
    (hnone : R.find site.stores = none → Q ⟨.done, R, tr⟩)
    (hsome : ∀ f R', R.find site.stores = some f → Positive R' →
      Effect (counted f.incremented) site.stores R R' →
      ReachesIn P site C Q (.send (fillIn msg f.incremented)) R' tr) :
    ReachesIn P site C Q (.handle msg) R tr := by
  refine .move fun env henv pc' R' es hm => ?_
  cases hm with
  | handleInterim _ hc =>
    rw [List.append_nil]
    have hver := version_of_some hc
    refine reaches_updateLocal hpos hver (fun c => by rw [hc]; rfl) ?_
    exact fun R' => hsome _ R' (find_stores_of_some hc)
  | handleStop hs => cases hi.symm.trans hs
  | handleFirst hni => exact absurd hi hni
  | handleMissing _ hc =>
    rw [List.append_nil]
    rw [find_stores_of_none hc] at hnone hsome
    refine reaches_tryRemotes hnone fun f hf => ?_
    rw [found, if_pos (AccountingRecordType.isInterim_iff.mpr hi)]
    refine reaches_updateLocal hpos (version_of_none hc) (fun c => by rw [hc]; rfl) ?_
    exact fun R' => hsome f R' hf

/-- A STOP with a session in the local store, or with none anywhere. -/
theorem reaches_stop (hs : msg.recordType = .stop) (hpos : Positive R)
    (hlocal : (R site.localStore).cell = none → R.find site.stores = none)
    (hnone : R.find site.stores = none → Q ⟨.done, R, tr⟩)
    (hsome : ∀ f R' es, (R site.localStore).cell = some f → Positive R' →
      Effect gone site.stores R R' → es.filterMap Event.sent = [] → requests es = stopRequests f →
      ReachesIn P site C Q (.send (fillIn msg f.incremented)) R' (tr ++ es)) :
    ReachesIn P site C Q (.handle msg) R tr := by
  obtain ⟨hmem, hnodup⟩ := List.nodup_cons.mp site.nodup
  refine .move fun env henv pc' R' es hm => ?_
  cases hm with
  | handleInterim hi => cases hs.symm.trans hi
  | handleFirst _ hns => exact absurd hs hns
  | handleMissing _ hc =>
    have hfind := hlocal hc
    rw [List.append_nil]
    refine reaches_tryRemotes (fun _ => hnone hfind) fun f hf => ?_
    rw [find_stores_of_none hc, hf] at hfind
    cases hfind
  | @handleStop _ _ f _ hc =>
    rw [List.append_nil]
    refine .move fun env' henv' pc' R' es hm => ?_
    cases hm with
    | deleteLocalAgain hne => exact absurd (version_of_some hc) hne
    | deleteLocal =>
      rw [List.append_nil]
      have hpos' : Positive (R.put site.localStore env' none) := hpos.put (by rintro v ⟨⟩)
      refine reaches_deleteRemotes hnodup hpos' fun R' es hpos'' heff => hsome f R' es hc hpos'' ?_
      exact .put hmem rfl heff

/-- **One message.** It is processed to completion, with all the effects `ProcessedBy` lists; a STOP
is assumed to find its session in the local store, or nowhere. -/
theorem reaches_processedBy (hpos : Positive R)
    (hlocal : msg.recordType = .stop → (R site.localStore).cell = none →
      R.find site.stores = none) :
    ReachesIn P site C (fun t => t.pc = .done ∧ Positive t.shared ∧
      ProcessedBy P site C msg R t.shared (sendings t.trace) (requests t.trace))
      (.handle msg) R [] := by
  by_cases hi : msg.recordType = .interim
  · refine reaches_interim hi hpos (fun h => ⟨rfl, hpos, .ignored (.inl hi) h⟩) ?_
    intro f R₁ hf hpos₁ heff
    refine reaches_send hpos₁ fun R' es hpos' hans hes => ⟨rfl, hpos', ?_⟩
    rw [List.nil_append, hes]
    exact .interim hi hf heff hans
  · by_cases hs : msg.recordType = .stop
    · refine reaches_stop hs hpos (hlocal hs) (fun h => ⟨rfl, hpos, .ignored (.inr hs) h⟩) ?_
      intro f R₁ es₁ hf hpos₁ heff hes₁ hreqs₁
      refine reaches_send hpos₁ fun R' es hpos' hans hes => ⟨rfl, hpos', ?_⟩
      have hsend : sendings ([] ++ es₁ ++ es) = [fillIn msg f.incremented] := by
        rw [← hes]
        simp [sendings, hes₁]
      rw [hsend, List.nil_append, requests_append, hreqs₁]
      exact .stop hs hf heff hans
    · refine .move fun env henv pc' R' es hm => ?_
      cases hm with
      | handleInterim h => exact absurd h hi
      | handleStop h => exact absurd h hs
      | handleMissing h => exact absurd h (not_or.mpr ⟨hi, hs⟩)
      | handleFirst =>
        refine reaches_send hpos fun R' es hpos' hans hes => ⟨rfl, hpos', ?_⟩
        rw [List.nil_append, List.nil_append, hes]
        exact .first hi hs hans

end Reaching

/-! ## On stores -/

section Stores

variable (P : Platform) (site : Site)

/-- A message that is processed to completion, with its answer, while the stores can be reached:
what it leaves in the stores, and what it has sent. -/
def Completes (W : World) (x : Message × Answer) (out : List Message) (W' : World) : Prop :=
  ∃ envs : List Env, (∀ env ∈ envs, env.Up ∧ env.answer = x.2) ∧ ∃ tr,
    exec (threadStep P site) envs (Thread.start x.1 W) = ⟨.done, W', tr⟩ ∧ sendings tr = out

variable {P site} {key : Bytes} {W W' : World} {msg : Message} {a : Answer} {out : List Message}

theorem positive_regs (hW : ReadableAll P key W) : Positive (regs P key W) := by
  intro s v hv
  obtain ⟨r, -, hcas⟩ := record_of_view (hW s) hv
  rw [hcas]
  exact r.cas.ne_zero

theorem threadKeyed_start (hkey : msg.key = key) (hW : ReadableAll P key W) :
    ThreadKeyed P key (Thread.start msg W) :=
  ⟨Pc.hasKey_of_message rfl hkey, hW⟩

theorem readable_of_exec (hkey : msg.key = key) (hW : ReadableAll P key W) {envs : List Env}
    {pc : Pc} {tr : List Event}
    (h : exec (threadStep P site) envs (Thread.start msg W) = ⟨pc, W', tr⟩) :
    ReadableAll P key W' := by
  have hkeyed : ThreadKeyed P key (exec (threadStep P site) envs (Thread.start msg W)) :=
    exec_invariant (fun t env ht => ht.step site env) envs (threadKeyed_start hkey hW)
  rw [h] at hkeyed
  exact hkeyed.readable

theorem readable_of_completes (hkey : msg.key = key) (hW : ReadableAll P key W)
    (h : Completes P site W (msg, a) out W') : ReadableAll P key W' := by
  obtain ⟨envs, henvs, tr, hexec, -⟩ := h
  exact readable_of_exec hkey hW hexec

theorem done_rest (t : RegThread) (env : Env) (h : t.pc = .done) :
    regThreadStep P site env t = t := by
  obtain ⟨pc, R, tr⟩ := t
  cases h
  exact Solo.ext rfl rfl (List.append_nil tr)

/-- Processing a message does what `ProcessedBy` says to the registers. -/
theorem processedBy_of_exec {C : Setting} (hkey : msg.key = key) (hW : ReadableAll P key W)
    (hlocal : msg.recordType = .stop → (regs P key W site.localStore).cell = none →
      (regs P key W).find site.stores = none) {envs : List Env} {tr : List Event}
    (henvs : ∀ env ∈ envs, C.Ok env)
    (hexec : exec (threadStep P site) envs (Thread.start msg W) = ⟨.done, W', tr⟩) :
    ProcessedBy P site C msg (regs P key W) (regs P key W') (sendings tr) (requests tr) := by
  have hreg : exec (regThreadStep P site) envs ⟨.handle msg, regs P key W, []⟩ =
      ⟨.done, regs P key W', tr⟩ := by
    have h := regs_threadExec (threadKeyed_start hkey hW) site envs
    rw [hexec] at h
    exact h.symm
  have hok : Along (regThreadStep P site) (fun _ env => C.Ok env) envs
      ⟨.handle msg, regs P key W, []⟩ :=
    Along.of_forall (fun env henv _ => henvs env henv) _
  have hend := Eventually.exec (T := fun t => t.pc = .done)
    (fun t env h => by rw [done_rest t env h.1]; exact h) done_rest
    (reaches_processedBy (P := P) (C := C) (positive_regs hW) hlocal) hok (by rw [hreg])
  rw [hreg] at hend
  exact hend.2.2

theorem processed_of_completes (hkey : msg.key = key) (hW : ReadableAll P key W)
    (hlocal : msg.recordType = .stop → (regs P key W site.localStore).cell = none →
      (regs P key W).find site.stores = none)
    (h : Completes P site W (msg, a) out W') :
    Processed site a msg (regs P key W) (regs P key W') out := by
  obtain ⟨envs, henvs, tr, hexec, rfl⟩ := h
  exact (processedBy_of_exec (C := .alone a) hkey hW hlocal henvs hexec).processed

/-- A message is processed to completion, whatever the environment contributes. -/
theorem done_stateAt {C : Setting} (hkey : msg.key = key) (hW : ReadableAll P key W)
    (hlocal : msg.recordType = .stop → (regs P key W site.localStore).cell = none →
      (regs P key W).find site.stores = none) {f : ℕ → Env} (hf : ∀ n, C.Ok (f n)) :
    ∃ n, (stateAt (threadStep P site) f (Thread.start msg W) n).pc = .done := by
  obtain ⟨n, hdone, -, -⟩ := (reaches_processedBy (P := P) (C := C) (positive_regs hW)
    hlocal).stateAt (f := f) hf
  refine ⟨n, ?_⟩
  have hmap := stateAt_map (I := ThreadKeyed P key) (fun t env ht => ht.step site env)
    (fun t env ht => regs_threadStep ht site env) (f := f) (threadKeyed_start hkey hW) n
  exact (congrArg Solo.pc hmap).trans hdone

theorem completes (hkey : msg.key = key) (hW : ReadableAll P key W)
    (hlocal : msg.recordType = .stop → (regs P key W site.localStore).cell = none →
      (regs P key W).find site.stores = none) {f : ℕ → Env}
    (hf : ∀ n, (f n).Up ∧ (f n).answer = a) :
    ∃ n, (stateAt (threadStep P site) f (Thread.start msg W) n).pc = .done :=
  done_stateAt (C := .alone a) hkey hW hlocal hf

/-- Some run processes the message to completion, within any setting. -/
theorem exists_exec (C : Setting) (hkey : msg.key = key) (hW : ReadableAll P key W)
    (hlocal : msg.recordType = .stop → (regs P key W site.localStore).cell = none →
      (regs P key W).find site.stores = none) :
    ∃ envs : List Env, (∀ env ∈ envs, C.Ok env) ∧ ∃ W' tr,
      exec (threadStep P site) envs (Thread.start msg W) = ⟨.done, W', tr⟩ := by
  obtain ⟨env, henv⟩ := C.nonempty
  obtain ⟨n, hn⟩ := done_stateAt (C := C) hkey hW hlocal (f := fun _ => env) fun _ => henv
  rw [← exec_map_range] at hn
  refine ⟨_, ?_, _, _, Solo.ext hn rfl rfl⟩
  intro env' henv'
  obtain ⟨m, -, rfl⟩ := List.mem_map.mp henv'
  exact henv

theorem exists_completes (hkey : msg.key = key) (hW : ReadableAll P key W)
    (hlocal : msg.recordType = .stop → (regs P key W site.localStore).cell = none →
      (regs P key W).find site.stores = none) (a : Answer) :
    ∃ out W', Completes P site W (msg, a) out W' := by
  obtain ⟨envs, henvs, W', tr, hexec⟩ := exists_exec (.alone a) hkey hW hlocal
  exact ⟨sendings tr, W', envs, henvs, tr, hexec, rfl⟩

/-- A run over registers that ends is one over stores. -/
theorem completes_of_regs (hkey : msg.key = key) (hW : ReadableAll P key W) {envs : List Env}
    (henvs : ∀ env ∈ envs, env.Up ∧ env.answer = a) {t : RegThread}
    (ht : exec (regThreadStep P site) envs ⟨.handle msg, regs P key W, []⟩ = t)
    (hdone : t.pc = .done) :
    ∃ W', Completes P site W (msg, a) (sendings t.trace) W' ∧ ReadableAll P key W' ∧
      regs P key W' = t.shared := by
  have hmap := (regs_threadExec (threadKeyed_start hkey hW) site envs).trans ht
  have hpc := (congrArg Solo.pc hmap).trans hdone
  have htrace := congrArg Solo.trace hmap
  have hcomp : Completes P site W (msg, a) (sendings t.trace)
      (exec (threadStep P site) envs (Thread.start msg W)).shared :=
    ⟨envs, henvs, t.trace, Solo.ext hpc rfl htrace, rfl⟩
  exact ⟨_, hcomp, readable_of_completes hkey hW hcomp, congrArg Solo.shared hmap⟩

end Stores

end Ralf
