import Ralf.Clock
import Ralf.Progress
import Ralf.Termination

/-!
# Requests and replies

The HTTP side of the program. `BillingTask::run` looks at a request, gives its message to
`handle`, and replies when `handle` returns; that may be before the CCF has answered, or after the
message is through, since the answer is dealt with on another thread. `Acknowledged` says what can
be seen of a request, its reply included: a refused request gets its status and nothing else comes
of it, and a request that is accepted gets its 200 not before an ACR is on its way, unless it is an
INTERIM or STOP for which every store of its site was last looked up in vain
(`replies_acknowledge`). `requests_answered`: in a fair run every request gets exactly one reply, the
one `run` decides on.
-/

namespace Ralf

open Bytes Runs

/-! ## The machine -/

/-- `handle` has returned. The sender may be at work, or have called back. -/
def Task.returned : Task → Bool
  | .manager pc => pc.returned
  | .sender _ => true
  | .undefined => false

/-- A request, from its arrival on. After the reply its message may still be at work; a request that
is refused leaves nothing to do. -/
inductive Request where
  | arrived (req : HttpRequest)
  | handling (t : Task)
  | replied (t : Task)

inductive RequestEvent where
  | reply (rc : HTTPCode)
  | seen (e : TaskEvent)

/-- What a request is given a turn for: its message makes a step, or `handle` returns if it can. A
request that has just arrived is looked at. -/
inductive RequestTurn where
  | work (x : TaskEnv)
  | reply

section Machine

variable (P : Platform) (http : HttpStack)

/-- One turn of a request. -/
def requestStep (site : Site) : RequestTurn → Request → World → Request × World × List RequestEvent
  | _, .arrived req, W =>
    match runBillingTask P http req with
    | (_, some msg) => (.handling (.manager (.handle msg)), W, [])
    | (rc, none) => (.replied (.manager .done), W, [.reply rc])
  | .work x, .handling t, W =>
    (.handling (taskStep P site x t W).1, (taskStep P site x t W).2.1,
      (taskStep P site x t W).2.2.map .seen)
  | .work x, .replied t, W =>
    (.replied (taskStep P site x t W).1, (taskStep P site x t W).2.1,
      (taskStep P site x t W).2.2.map .seen)
  | .reply, .handling t, W =>
    if t.returned then (.replied t, W, [.reply HTTP_OK]) else (.handling t, W, [])
  | .reply, .replied t, W => (.replied t, W, [])

/-- Requests over stores. -/
abbrev Requests (κ : Type) := Pool κ Request World RequestEvent

inductive Activity (κ : Type) where
  | turn (i : κ) (a : RequestTurn)
  | lose (s : StoreId) (key : Bytes)

variable {κ : Type} [DecidableEq κ]

def attend (site : κ → Site) : Activity κ → Requests κ → Requests κ
  | .turn i a, S => Pool.step (fun i a r W => requestStep P http (site i) a r W) (i, a) S
  | .lose s key, S => { S with shared := S.shared.lose key s }

def Requests.start (req : κ → HttpRequest) (W : World) : Requests κ :=
  ⟨fun i => .arrived (req i), W, []⟩

/-- What a turn of a request looks up. -/
def Request.lookups (site : Site) : RequestTurn → Request → World → List Lookup
  | .work x, .handling t, W => t.lookups P site x W
  | .work x, .replied t, W => t.lookups P site x W
  | _, _, _ => []

def Requests.lookups (site : κ → Site) (S : Requests κ) : Activity κ → List (κ × Lookup)
  | .turn i a => ((S.pc i).lookups P (site i) a S.shared).map (i, ·)
  | .lose _ _ => []

end Machine

/-! ## What a reply stands for -/

/-- The message has been handed to its sender, and the first CCF of its list has been sent an
ACR. -/
def Underway (es : List TaskEvent) : Prop :=
  ∃ m sid ccf event, .manager (.send m sid) ∈ es ∧ m.ccfs[0]? = some ccf ∧
    m.receivedJson.findMember (ascii "event") = .ok (some event) ∧
    .sender (.acr (PeerMessageSender.accountingRequest m event ccf)) ∈ es

section Replies

variable (P : Platform) (http : HttpStack) (site : Site) (req : HttpRequest) (ls : List Lookup)

/-- What can be seen of a request that has looked up `ls`. -/
inductive Acknowledged : List RequestEvent → Prop where
  | nothing : Acknowledged []
  | refused {rc} : runBillingTask P http req = (rc, none) → Acknowledged [.reply rc]
  | handling {msg es st} : runBillingTask P http req = (HTTP_OK, some msg) →
      Course P msg es st → Acknowledged (es.map .seen)
  | sent {msg es es' st} : runBillingTask P http req = (HTTP_OK, some msg) →
      Course P msg (es ++ es') st → Underway es →
      Acknowledged (es.map .seen ++ .reply HTTP_OK :: es'.map .seen)
  | dropped {msg} : runBillingTask P http req = (HTTP_OK, some msg) → msg.Later →
      Missed msg.key site.stores ls → Acknowledged [.reply HTTP_OK]

/-- The same, with where the request stands. -/
def Request.At (log : List RequestEvent) : Request → Prop
  | .arrived req' => req' = req ∧ log = []
  | .handling t => ∃ msg es st, runBillingTask P http req = (HTTP_OK, some msg) ∧
      Course P msg es st ∧ t.At P msg st ∧ t.Sought site msg es ls ∧ log = es.map .seen
  | .replied t =>
    (∃ rc, runBillingTask P http req = (rc, none) ∧ t = .manager .done ∧ log = [.reply rc]) ∨
    (∃ msg, runBillingTask P http req = (HTTP_OK, some msg) ∧ msg.Later ∧
      Missed msg.key site.stores ls ∧ t = .manager .done ∧ log = [.reply HTTP_OK]) ∨
    ∃ msg es es' st, runBillingTask P http req = (HTTP_OK, some msg) ∧
      Course P msg (es ++ es') st ∧ t.At P msg st ∧ Underway es ∧
      log = es.map .seen ++ .reply HTTP_OK :: es'.map .seen

variable {P http site req ls}

theorem Request.At.acknowledged {r : Request} {log : List RequestEvent}
    (h : r.At P http site req ls log) : Acknowledged P http site req ls log := by
  cases r with
  | arrived req' =>
    obtain ⟨-, rfl⟩ := h
    exact .nothing
  | handling t =>
    obtain ⟨msg, es, st, hrun, hcourse, -, -, rfl⟩ := h
    exact .handling hrun hcourse
  | replied t =>
    rcases h with ⟨rc, hrun, -, rfl⟩ | ⟨msg, hrun, hlater, hmissed, -, rfl⟩ |
      ⟨msg, es, es', st, hrun, hcourse, -, hsent, rfl⟩
    · exact .refused hrun
    · exact .dropped hrun hlater hmissed
    · exact .sent hrun hcourse hsent

/-! ## Courses -/

/-- An ACR is on its way, or was. -/
def Stage.Tried : Stage → Prop
  | .before => False
  | .disarmed _ => False
  | .handed _ tried => 0 < tried
  | .answered _ _ => True
  | .armed _ => True
  | .passed => True

theorem Underway.append {es : List TaskEvent} (h : Underway es) (es' : List TaskEvent) :
    Underway (es ++ es') := by
  obtain ⟨m, sid, ccf, event, hsend, hccf, hevent, hacr⟩ := h
  exact ⟨m, sid, ccf, event, List.mem_append_left _ hsend, hccf, hevent,
    List.mem_append_left _ hacr⟩

theorem Course.underway {msg : Message} {es : List TaskEvent} {st : Stage} (h : Course P msg es st)
    (htried : st.Tried) : Underway es := by
  induction h with
  | nil => exact htried.elim
  | snoc hcourse hstep ih =>
    cases hstep with
    | disarm => exact htried.elim
    | first => exact absurd htried (Nat.lt_irrefl 0)
    | interim => exact absurd htried (Nat.lt_irrefl 0)
    | untimed => exact absurd htried (Nat.lt_irrefl 0)
    | stop => exact absurd htried (Nat.lt_irrefl 0)
    | @acr m k ccf event hccf hevent =>
      cases k with
      | zero =>
        obtain ⟨sid, hmem⟩ := hcourse.send_mem rfl
        exact ⟨m, sid, ccf, event, List.mem_append_left _ hmem, hccf, hevent,
          List.mem_append_right _ (List.mem_singleton.mpr rfl)⟩
      | succ k => exact (ih (Nat.succ_pos k)).append _
    | answer => exact (ih (Nat.succ_pos _)).append _
    | arm => exact (ih trivial).append _
    | pass => exact (ih trivial).append _
    | passArmed => exact (ih trivial).append _

theorem Stage.Over.tried {accepted : Bool} {st : Stage} (h : st.Over P accepted) : st.Tried := by
  rcases h with rfl | ⟨m, a, rfl, -⟩ <;> trivial

/-- When `handle` has returned an ACR has been made, or the message was dropped. -/
theorem Task.At.tried {msg : Message} {st : Stage} {t : Task} (h : t.At P msg st)
    (hret : t.returned = true) :
    st.Tried ∨ t = .manager .done ∧ st = .before ∧ msg.Later := by
  cases t with
  | manager pc =>
    cases pc with
    | deleteUnknown m rest => exact .inl (Stage.Over.tried h)
    | createTimer m interimInterval sessionId =>
      obtain ⟨a, rfl, -⟩ := h
      exact .inl trivial
    | writeSession m sess rest => exact .inl (Stage.Over.tried h)
    | sendChronosUpdate m interimInterval accepted =>
      obtain ⟨a, rfl, -⟩ := h
      exact .inl trivial
    | readTimerId m timerId rest accepted => exact .inl (Stage.Over.tried h)
    | writeTimerId m timerId s rest sess accepted => exact .inl (Stage.Over.tried h)
    | finish accepted => exact .inl (Stage.Over.tried h)
    | done =>
      rcases h with (rfl | hover) | ⟨hst, hlater⟩
      · exact .inl trivial
      · exact .inl hover.tried
      · exact .inr ⟨rfl, hst, hlater⟩
    | awaitAnswer m => exact h.elim
    | _ => cases hret
  | sender pm =>
    obtain ⟨rfl, -⟩ := h
    exact .inl (Nat.succ_pos _)
  | undefined => cases hret

theorem parseBody_of_runBillingTask {rc : HTTPCode} {msg : Message}
    (h : runBillingTask P http req = (rc, some msg)) :
    rc = HTTP_OK ∧ ∃ callId timerInterim, parseBody P callId timerInterim req.rxBody =
      .ok (some msg) := by
  unfold runBillingTask at h
  split_ifs at h
  · cases h
  · dsimp only at h
    split at h
    · cases h
    · rename_i hparse
      cases h
      exact ⟨rfl, _, _, hparse⟩

/-- **One turn of a request.** -/
theorem Request.At.step {r : Request} {log : List RequestEvent} (h : r.At P http site req ls log)
    (a : RequestTurn) (W : World) :
    (requestStep P http site a r W).1.At P http site req (ls ++ r.lookups P site a W)
      (log ++ (requestStep P http site a r W).2.2) := by
  cases r with
  | arrived req' =>
    obtain ⟨rfl, rfl⟩ := h
    rcases hrun : runBillingTask P http req' with ⟨rc, msg⟩
    cases msg with
    | none =>
      simp only [requestStep, hrun]
      exact .inl ⟨rc, hrun, rfl, rfl⟩
    | some msg =>
      cases (parseBody_of_runBillingTask hrun).1
      simp only [requestStep, hrun]
      exact ⟨msg, [], .before, hrun, .nil, ⟨rfl, rfl⟩, trivial, rfl⟩
  | handling t =>
    obtain ⟨msg, es, st, hrun, hcourse, hat, hsought, rfl⟩ := h
    cases a with
    | work x =>
      obtain ⟨st', hcourse', hat'⟩ := hat.step site (W := W) hcourse x
      exact ⟨msg, _, st', hrun, hcourse', hat', hsought.step P site hat hcourse x,
        (List.map_append ..).symm⟩
    | reply =>
      simp only [Request.lookups, List.append_nil]
      cases hret : t.returned with
      | false =>
        simp only [requestStep, hret, Bool.false_eq_true, if_false, List.append_nil]
        exact ⟨msg, es, st, hrun, hcourse, hat, hsought, rfl⟩
      | true =>
        simp only [requestStep, hret, if_true]
        rcases hat.tried hret with htried | ⟨rfl, rfl, hlater⟩
        · refine .inr (.inr ⟨msg, es, [], st, hrun, ?_, hat, hcourse.underway htried, rfl⟩)
          rwa [List.append_nil]
        · have hes : es = [] := hcourse.eq_nil_iff.mpr rfl
          rw [hes]
          exact .inr (.inl ⟨msg, hrun, hlater, hsought hes, rfl, rfl⟩)
  | replied t =>
    cases a with
    | work x =>
      rcases h with ⟨rc, hrun, rfl, rfl⟩ | ⟨msg, hrun, hlater, hmissed, rfl, rfl⟩ |
        ⟨msg, es, es', st, hrun, hcourse, hat, hsent, rfl⟩
      · exact .inl ⟨rc, hrun, rfl, rfl⟩
      · refine .inr (.inl ⟨msg, hrun, hlater, ?_, rfl, rfl⟩)
        show Missed msg.key site.stores (ls ++ [])
        rw [List.append_nil]
        exact hmissed
      · obtain ⟨st', hcourse', hat'⟩ := hat.step site (W := W) hcourse x
        rw [List.append_assoc] at hcourse'
        refine .inr (.inr ⟨msg, es, _, st', hrun, hcourse', hat', hsent, ?_⟩)
        simp only [requestStep, List.map_append, List.append_assoc, List.cons_append]
    | reply =>
      simp only [requestStep, Request.lookups, List.append_nil]
      exact h

end Replies

/-! ## Runs -/

section Runs

variable {P : Platform} {http : HttpStack} {κ : Type} [DecidableEq κ] {site : κ → Site}
  {req : κ → HttpRequest}

def Requests.At (P : Platform) (http : HttpStack) (site : κ → Site) (req : κ → HttpRequest)
    (S : Requests κ) (ls : List (κ × Lookup)) : Prop :=
  ∀ i, (S.pc i).At P http (site i) (req i) (eventsOf i ls) (eventsOf i S.trace)

theorem Requests.At.step {S : Requests κ} {ls : List (κ × Lookup)} (h : S.At P http site req ls)
    (a : Activity κ) :
    (attend P http site a S).At P http site req (ls ++ S.lookups P site a) := by
  cases a with
  | lose s key =>
    show S.At P http site req (ls ++ [])
    rw [List.append_nil]
    exact h
  | turn i a =>
    intro j
    show (Function.update S.pc i _ j).At P http (site j) (req j)
      (eventsOf j (ls ++ ((S.pc i).lookups P (site i) a S.shared).map (i, ·)))
      (eventsOf j (S.trace ++ _))
    by_cases hj : j = i
    · subst hj
      rw [Function.update_self, eventsOf_append_self, eventsOf_append_self]
      exact (h j).step a S.shared
    · rw [Function.update_of_ne hj, eventsOf_append_of_ne (Ne.symm hj),
        eventsOf_append_of_ne (Ne.symm hj)]
      exact h j

variable (P http site) in
theorem requestsAt_start (req : κ → HttpRequest) (W : World) :
    (Requests.start req W).At P http site req [] := fun _ => ⟨rfl, rfl⟩

variable (P http site) in
theorem requestsAt_exec (req : κ → HttpRequest) (W : World) (as : List (Activity κ)) :
    (exec (attend P http site) as (Requests.start req W)).At P http site req
      (notes (attend P http site) (Requests.lookups P site) as (Requests.start req W)) :=
  notes_invariant (fun _ _ a h => h.step a) as (requestsAt_start P http site req W)

/-- **Replies acknowledge.** Whatever requests come, and whatever else happens, in any order: this
is what is seen of each of them. -/
theorem replies_acknowledge (W : World) (as : List (Activity κ)) (i : κ) :
    Acknowledged P http (site i) (req i)
      (eventsOf i (notes (attend P http site) (Requests.lookups P site) as (Requests.start req W)))
      (eventsOf i (exec (attend P http site) as (Requests.start req W)).trace) :=
  (requestsAt_exec P http site req W as i).acknowledged

end Runs

/-! ## Tasks of requests -/

/-- The reply, if it is one. -/
def RequestEvent.code : RequestEvent → Option HTTPCode
  | .reply rc => some rc
  | .seen _ => none

def RequestEvent.task : RequestEvent → Option TaskEvent
  | .reply _ => none
  | .seen e => some e

theorem task_seen (es : List TaskEvent) :
    (es.map RequestEvent.seen).filterMap RequestEvent.task = es := by
  rw [List.filterMap_map]
  exact List.filterMap_some

section Tasks

variable (P : Platform) (http : HttpStack) {κ : Type} [DecidableEq κ]

/-- The message of a request, as a task. -/
def Request.task : Request → Task
  | .arrived req => .manager ((runBillingTask P http req).2.elim .done .handle)
  | .handling t => t
  | .replied t => t

def Requests.tasks (S : Requests κ) : Tasks κ where
  pc := fun i => (S.pc i).task P http
  shared := S.shared
  trace := S.trace.filterMap fun x => x.2.task.map (x.1, ·)

/-- The request has been looked at. -/
def Request.started : Request → Bool
  | .arrived _ => false
  | _ => true

/-- What happens to the tasks. -/
def Requests.happening (S : Requests κ) : Activity κ → Option (Happening κ)
  | .turn i (.work x) => if (S.pc i).started then some (.move i x) else none
  | .turn _ .reply => none
  | .lose s key => some (.lose s key)

variable {P http} {site : κ → Site}

variable (P http) in
/-- A turn in which the task makes no step leaves it where it is. -/
theorem requestStep_still (site : Site) {a : RequestTurn} {r : Request} (W : World)
    (h : r.started = false ∨ a = .reply) :
    (requestStep P http site a r W).1.task P http = r.task P http ∧
      (requestStep P http site a r W).2.1 = W ∧
      (requestStep P http site a r W).2.2.filterMap RequestEvent.task = [] := by
  cases r with
  | arrived req =>
    rcases hrun : runBillingTask P http req with ⟨rc, msg⟩
    cases msg <;> simp [requestStep, Request.task, hrun, RequestEvent.task]
  | handling t =>
    rcases h with h | rfl
    · cases h
    · simp only [requestStep]
      split_ifs <;> exact ⟨rfl, rfl, rfl⟩
  | replied t =>
    rcases h with h | rfl
    · cases h
    · exact ⟨rfl, rfl, rfl⟩

variable (P http) in
/-- Any other turn is a step of the task. -/
theorem requestStep_work (site : Site) (x : TaskEnv) {r : Request} (W : World)
    (h : r.started = true) :
    ((requestStep P http site (.work x) r W).1.task P http,
      (requestStep P http site (.work x) r W).2.1,
      (requestStep P http site (.work x) r W).2.2.filterMap RequestEvent.task) =
        taskStep P site x (r.task P http) W := by
  cases r with
  | arrived req => cases h
  | handling t => simp only [requestStep, Request.task, task_seen]
  | replied t => simp only [requestStep, Request.task, task_seen]

variable (P http site) in
theorem tasks_turn (i : κ) (a : RequestTurn) (S : Requests κ) :
    (attend P http site (.turn i a) S).tasks P http =
      ⟨Function.update (S.tasks P http).pc i
          ((requestStep P http (site i) a (S.pc i) S.shared).1.task P http),
        (requestStep P http (site i) a (S.pc i) S.shared).2.1,
        (S.tasks P http).trace ++
          ((requestStep P http (site i) a (S.pc i) S.shared).2.2.filterMap RequestEvent.task).map
            (i, ·)⟩ := by
  refine Pool.ext ?_ rfl ?_
  · exact Function.comp_update (Request.task P http) S.pc i _
  · show (S.trace ++ _).filterMap _ = _
    rw [List.filterMap_append, List.filterMap_map, List.map_filterMap]
    rfl

/-- **Requests are tasks.** Of a run of requests, the tasks see steps of their own and nothing
else. -/
theorem tasks_attend (a : Activity κ) (S : Requests κ) :
    (attend P http site a S).tasks P http =
      (S.happening a).elim (S.tasks P http) fun b => happen P site b (S.tasks P http) := by
  have hstill : ∀ i a, (S.pc i).started = false ∨ a = .reply →
      (attend P http site (.turn i a) S).tasks P http = S.tasks P http := by
    intro i a h
    obtain ⟨htask, hW, hes⟩ := requestStep_still P http (site i) S.shared h
    rw [tasks_turn, htask, hW, hes, List.map_nil, List.append_nil]
    exact Pool.ext (Function.update_eq_self i _) rfl rfl
  cases a with
  | lose s key => rfl
  | turn i a =>
    cases a with
    | reply => exact hstill i .reply (.inr rfl)
    | work x =>
      cases hstarted : (S.pc i).started with
      | false =>
        simp only [Requests.happening, hstarted, Bool.false_eq_true, if_false, Option.elim]
        exact hstill i (.work x) (.inl hstarted)
      | true =>
        simp only [Requests.happening, hstarted, if_true, Option.elim]
        have hstep := requestStep_work P http (site i) x S.shared hstarted
        simp only [Prod.ext_iff] at hstep
        obtain ⟨htask, hW, hes⟩ := hstep
        rw [tasks_turn, htask, hW, hes]
        rfl

/-- What holds of the tasks at every step holds of the tasks of requests. -/
theorem tasks_invariant {I : Tasks κ → Prop} (hstep : ∀ σ b, I σ → I (happen P site b σ))
    {S : Requests κ} (h : I (S.tasks P http)) (a : Activity κ) :
    I ((attend P http site a S).tasks P http) := by
  rw [tasks_attend]
  cases S.happening a with
  | none => exact h
  | some b => exact hstep _ b h

end Tasks

/-! ## Every request is answered -/

/-- What is still to come of a request, apart from its task. -/
def Request.pending : Request → ℕ
  | .arrived _ => 2
  | .handling _ => 1
  | .replied _ => 0

/-- The turn is of use to the request. -/
def Request.busy : Request → RequestTurn → Bool
  | .arrived _, _ => true
  | .handling t, .work _ => !t.atRest
  | .replied t, .work _ => !t.atRest
  | .handling t, .reply => t.returned
  | .replied _, .reply => false

section Fair

variable {P : Platform} {http : HttpStack} {κ : Type} {site : κ → Site}
  {out : StoreId → Bool} {req : κ → HttpRequest}

def Requests.busy (S : Requests κ) : Activity κ → Bool
  | .turn i a => (S.pc i).busy a
  | .lose _ _ => false

variable (P http site out) in
/-- A setback for the tasks. -/
def Requests.setback (S : Requests κ) (a : Activity κ) : Bool :=
  (S.happening a).elim false ((S.tasks P http).setback site out)

/-- The stores in `out` are down whenever a task makes a step. -/
def Activity.Without (out : StoreId → Bool) : Activity κ → Prop
  | .turn _ (.work x) => ∀ s, out s = true → (x.env.store s).down = true
  | _ => True

/-- What happens to the tasks is the work of a turn, or a loss. -/
theorem happening_cases {S : Requests κ} {a : Activity κ} {b : Happening κ}
    (hb : S.happening a = some b) :
    (∃ i x, a = .turn i (.work x) ∧ b = .move i x) ∨ ∃ s key, a = .lose s key ∧ b = .lose s key := by
  cases a with
  | lose s key =>
    cases hb
    exact .inr ⟨s, key, rfl, rfl⟩
  | turn i a =>
    cases a with
    | reply => cases hb
    | work x =>
      simp only [Requests.happening] at hb
      split_ifs at hb
      cases hb
      exact .inl ⟨i, x, rfl, rfl⟩

theorem without_of_happening {S : Requests κ} {a : Activity κ} (h : a.Without out)
    {b : Happening κ} (hb : S.happening a = some b) : b.Without out := by
  rcases happening_cases hb with ⟨i, x, rfl, rfl⟩ | ⟨s, key, rfl, rfl⟩
  · exact h
  · trivial

/-- Every store can be reached, and no record is lost. -/
def Activity.Calm : Activity κ → Prop
  | .turn _ (.work x) => x.env.Up
  | .turn _ .reply => True
  | .lose _ _ => False

theorem setback_eq_false_of_calm {S : Requests κ} (h : Straight P (S.tasks P http))
    {a : Activity κ} (ha : a.Calm) : S.setback P http site out a = false := by
  unfold Requests.setback
  cases hb : S.happening a with
  | none => rfl
  | some b =>
    refine h.setback_eq_false ?_
    rcases happening_cases hb with ⟨i, x, rfl, rfl⟩ | ⟨s, key, rfl, -⟩
    · exact ha
    · exact ha.elim

/-- A turn that is of no use changes nothing. -/
theorem requestStep_of_not_busy {site : Site} {a : RequestTurn} {r : Request} {W : World}
    (h : r.busy a = false) : (requestStep P http site a r W).1 = r := by
  cases r with
  | arrived req => cases h
  | handling t =>
    cases a with
    | work x =>
      have hrest : t.atRest = true := by simpa [Request.busy] using h
      simp only [requestStep, taskStep_rest hrest]
    | reply =>
      have hret : t.returned = false := h
      simp only [requestStep, hret, Bool.false_eq_true, if_false]
  | replied t =>
    cases a with
    | work x =>
      have hrest : t.atRest = true := by simpa [Request.busy] using h
      simp only [requestStep, taskStep_rest hrest]
    | reply => rfl

/-- A turn in which the task makes no step brings the request closer to its reply, if it is of
use. -/
theorem pending_still {site : Site} {a : RequestTurn} {r : Request} {W : World}
    (h : r.started = false ∨ a = .reply) :
    (requestStep P http site a r W).1.pending + (r.busy a).toNat ≤ r.pending := by
  cases r with
  | arrived req =>
    rcases hrun : runBillingTask P http req with ⟨rc, msg⟩
    cases msg <;> simp [requestStep, hrun, Request.pending, Request.busy]
  | handling t =>
    rcases h with h | rfl
    · cases h
    · cases hret : t.returned <;> simp [requestStep, Request.pending, Request.busy, hret]
  | replied t =>
    rcases h with h | rfl
    · cases h
    · exact le_refl 0

theorem pending_work {site : Site} {x : TaskEnv} {r : Request} {W : World} (h : r.started = true) :
    (requestStep P http site (.work x) r W).1.pending ≤ r.pending ∧
      r.busy (.work x) = !(r.task P http).atRest := by
  cases r with
  | arrived req => cases h
  | handling t => exact ⟨le_refl 1, rfl⟩
  | replied t => exact ⟨le_refl 0, rfl⟩

variable [DecidableEq κ]

theorem pc_attend_of_not_busy {S : Requests κ} {a : Activity κ} (h : S.busy a = false) :
    (attend P http site a S).pc = S.pc := by
  cases a with
  | lose s key => rfl
  | turn i a =>
    show Function.update S.pc i _ = S.pc
    rw [requestStep_of_not_busy h, Function.update_eq_self]

omit [DecidableEq κ] in
theorem safeTasks_requests {W : World} (hW : ∀ s key, (W s).record key = none) :
    SafeTasks P ((Requests.start req W).tasks P http) where
  stocked := stocked_of_empty hW
  task := fun i => by
    show (Task.manager ((runBillingTask P http (req i)).2.elim .done .handle)).Safe
    rcases hrun : runBillingTask P http (req i) with ⟨rc, msg⟩
    cases msg with
    | none => exact ⟨trivial, fun m hm => by cases hm⟩
    | some msg =>
      obtain ⟨-, callId, timerInterim, hparse⟩ := parseBody_of_runBillingTask hrun
      obtain ⟨hevent, hfirst⟩ := handle_of_parseBody hparse
      exact ⟨hfirst, Pc.every_of_message rfl hevent⟩
  sent := fun i m sid hmem => by cases hmem

/-- A reply that has been made is the one that `run` decides on. -/
theorem Request.At.codes {t : Task} {ls : List Lookup} {log : List RequestEvent} {site : Site}
    {req : HttpRequest} (h : (Request.replied t).At P http site req ls log) :
    log.filterMap RequestEvent.code = [(runBillingTask P http req).1] := by
  have hseen : ∀ es : List TaskEvent,
      (es.map RequestEvent.seen).filterMap RequestEvent.code = [] := by
    intro es
    rw [List.filterMap_map, List.filterMap_eq_nil_iff]
    exact fun _ _ => rfl
  rcases h with ⟨rc, hrun, -, rfl⟩ | ⟨msg, hrun, -, -, -, rfl⟩ |
    ⟨msg, es, es', st, hrun, -, -, -, rfl⟩
  · rw [hrun]
    rfl
  · rw [hrun]
    rfl
  · rw [hrun, List.filterMap_append, hseen, List.filterMap_cons, hseen]
    rfl

variable (P http) in
/-- The key of a request's message, if it has one. -/
def requestKey (req : HttpRequest) : Bytes := (runBillingTask P http req).2.elim [] Message.key

variable (P http) in
def requestPeers (req : HttpRequest) : ℕ :=
  (runBillingTask P http req).2.elim 0 fun msg => msg.ccfs.length

variable (P http site req) in
/-- Where the requests stand, and what is known of their tasks. -/
structure Requests.Sound (peers : ℕ) (S : Requests κ) : Prop where
  at_ : ∃ ls, S.At P http site req ls
  safe : SafeTasks P (S.tasks P http)
  orderly : Orderly P peers (fun i => requestKey P http (req i)) (S.tasks P http)
  ne_aborted : ∀ i, (S.tasks P http).pc i ≠ .manager .aborted

variable {peers : ℕ}

theorem sound_start (hpeers : ∀ i, requestPeers P http (req i) ≤ peers) {W : World}
    (hW : ∀ s key, (W s).record key = none) : (Requests.start req W).Sound P http site req peers := by
  refine ⟨⟨_, requestsAt_start P http site req W⟩, safeTasks_requests hW,
    ⟨fun i s => readable_of_none (hW s _), fun i => ?_, stocked_of_empty hW, fun i => ?_⟩,
    fun i => ?_⟩
  · show ((runBillingTask P http (req i)).2.elim Pc.done .handle).HasKey
      ((runBillingTask P http (req i)).2.elim [] Message.key)
    cases (runBillingTask P http (req i)).2 with
    | none => exact fun m hm => by cases hm
    | some msg => exact Pc.hasKey_of_message rfl rfl
  · have hle := hpeers i
    unfold requestPeers at hle
    show ((runBillingTask P http (req i)).2.elim Pc.done .handle).Stocked _ _
    revert hle
    generalize (runBillingTask P http (req i)).2 = msg
    cases msg with
    | none => exact fun _ => trivial
    | some msg => exact fun hle => .inr hle
  · show Task.manager ((runBillingTask P http (req i)).2.elim .done .handle) ≠ _
    cases (runBillingTask P http (req i)).2 <;> simp

theorem Requests.Sound.step {S : Requests κ} (h : S.Sound P http site req peers) (a : Activity κ) :
    (attend P http site a S).Sound P http site req peers where
  at_ := h.at_.elim fun _ hat => ⟨_, hat.step a⟩
  safe := tasks_invariant (fun _ b hσ => hσ.step b) h.safe a
  orderly := tasks_invariant (fun _ b hσ => hσ.step b) h.orderly a
  ne_aborted := (tasks_invariant (I := fun σ => Orderly P _ _ σ ∧ ∀ i, σ.pc i ≠ .manager .aborted)
    (fun _ b hσ => ⟨hσ.1.step b, ne_aborted_happen hσ.1 hσ.2 b⟩) ⟨h.orderly, h.ne_aborted⟩ a).2

/-- A request that has no use for any turn has been answered, and its message is through. -/
theorem Requests.Sound.replied {S : Requests κ} (h : S.Sound P http site req peers) {i : κ}
    {x : TaskEnv} (hwork : (S.pc i).busy (.work x) = false) (hreply : (S.pc i).busy .reply = false) :
    S.pc i = .replied (.manager .done) := by
  have hdone : ∀ t, (S.pc i).task P http = t → t.atRest = true → t = .manager .done := by
    intro t ht hrest
    have hsafe := h.safe.task i
    have hne := h.ne_aborted i
    simp only [Requests.tasks, ht] at hsafe hne
    exact hsafe.done_of_atRest hne hrest
  generalize S.pc i = r at *
  cases r with
  | arrived req => cases hwork
  | handling t =>
    cases hdone t rfl (by simpa [Request.busy] using hwork)
    cases hreply
  | replied t => rw [hdone t rfl (by simpa [Request.busy] using hwork)]

variable [Fintype κ]

variable (P http site out) in
/-- What is left to do, with the replies. -/
def Requests.potential (peers : ℕ) (key : κ → Bytes) (S : Requests κ) : ℕ :=
  (S.tasks P http).potential P site out peers key + ∑ i, (S.pc i).pending

/-- **One step of all.** -/
theorem potential_attend {key : κ → Bytes} {S : Requests κ}
    (h : Orderly P peers key (S.tasks P http)) {a : Activity κ} (hout : a.Without out) :
    (attend P http site a S).potential P http site out peers key + (S.busy a).toNat ≤
      S.potential P http site out peers key +
        interference site * (S.setback P http site out a).toNat := by
  unfold Requests.potential Requests.setback
  rw [tasks_attend]
  -- either the tasks make a step, or the request gets closer to its reply
  have hmove : ∀ b, S.happening a = some b → S.busy a = (S.tasks P http).busy b →
      ∑ i, ((attend P http site a S).pc i).pending ≤ ∑ i, (S.pc i).pending →
      ((S.happening a).elim (S.tasks P http) fun b => happen P site b (S.tasks P http)).potential
          P site out peers key + ∑ i, ((attend P http site a S).pc i).pending + (S.busy a).toNat ≤
        (S.tasks P http).potential P site out peers key + ∑ i, (S.pc i).pending +
          interference site *
            ((S.happening a).elim false ((S.tasks P http).setback site out)).toNat := by
    intro b hb hbusy hsum
    have hpot : (happen P site b (S.tasks P http)).potential P site out peers key +
          ((S.tasks P http).busy b).toNat ≤ (S.tasks P http).potential P site out peers key +
            interference site * ((S.tasks P http).setback site out b).toNat :=
      potential_happen h (without_of_happening hout hb)
    rw [hb, hbusy]
    simp only [Option.elim]
    omega
  have hstill : ∀ i a', a = .turn i a' → ((S.pc i).started = false ∨ a' = .reply) →
      ∑ i, ((attend P http site a S).pc i).pending + (S.busy a).toNat ≤ ∑ i, (S.pc i).pending := by
    rintro i a' rfl hnone
    exact Pool.sum_update_add_le (f := fun _ => Request.pending) (pending_still hnone)
  cases a with
  | lose s key => exact hmove (.lose s key) rfl rfl (le_refl _)
  | turn i a =>
    cases a with
    | reply =>
      have hsum := hstill i .reply rfl (.inr rfl)
      simp only [Requests.happening, Option.elim, Bool.toNat_false, Nat.mul_zero]
      omega
    | work x =>
      cases hstarted : (S.pc i).started with
      | false =>
        have hsum := hstill i (.work x) rfl (.inl hstarted)
        simp only [Requests.happening, hstarted, Bool.false_eq_true, if_false, Option.elim,
          Bool.toNat_false, Nat.mul_zero]
        omega
      | true =>
        obtain ⟨hpending, hbusy⟩ := pending_work (P := P) (W := S.shared) (x := x) hstarted
        refine hmove (.move i x) ?_ hbusy ?_
        · simp only [Requests.happening, hstarted, if_true]
        · exact Pool.sum_update_add_le (f := fun _ => Request.pending) (d := 0) hpending

/-- **Every request is answered.** Requests of any kind come to empty stores. A run that gives each
of them its turns again and again, whatever else happens in it, ends with one reply to each, the one
that `run` decides on, and with its message through, unless its setbacks never stop. -/
theorem requests_answered {W : World} (hW : ∀ s key, (W s).record key = none)
    {f : ℕ → Activity κ} (hout : ∀ n, (f n).Without out)
    (hwork : ∀ i n, ∃ m x, n ≤ m ∧ f m = .turn i (.work x))
    (hreply : ∀ i n, ∃ m, n ≤ m ∧ f m = .turn i .reply) :
    (∃ n, ∀ m, n ≤ m → ∀ i,
      (stateAt (attend P http site) f (Requests.start req W) m).pc i = .replied (.manager .done) ∧
      (eventsOf i (stateAt (attend P http site) f (Requests.start req W) m).trace).filterMap
        RequestEvent.code = [(runBillingTask P http (req i)).1]) ∨
    ∀ n, ∃ m, n ≤ m ∧ (stateAt (attend P http site) f (Requests.start req W) m).setback
      P http site out (f m) = true := by
  obtain ⟨peers, hpeers⟩ : ∃ peers, ∀ i, requestPeers P http (req i) ≤ peers :=
    ⟨Finset.univ.sup fun i => requestPeers P http (req i), fun i =>
      Finset.le_sup (f := fun i => requestPeers P http (req i)) (Finset.mem_univ i)⟩
  have hsound : ∀ n,
      (stateAt (attend P http site) f (Requests.start req W) n).Sound P http site req peers :=
    stateAt_invariant (sound_start hpeers hW) fun n _ h => h.step (f n)
  have hstep : ∀ (S : Requests κ) a, a.Without out ∧ S.Sound P http site req peers →
      (attend P http site a S).potential P http site out peers
          (fun i => requestKey P http (req i)) + (S.busy a).toNat ≤
        S.potential P http site out peers (fun i => requestKey P http (req i)) +
          interference site * (S.setback P http site out a).toNat :=
    fun S a h => potential_attend h.2.orderly h.1
  refine (quiet_or_setbacks hstep fun n => ⟨hout n, hsound n⟩).imp_left ?_
  rintro ⟨n, hn⟩
  have hstill : ∀ m, n ≤ m → (stateAt (attend P http site) f (Requests.start req W) m).pc =
      (stateAt (attend P http site) f (Requests.start req W) n).pc := fun m hm =>
    stateAt_still (g := Pool.pc) (fun k hk => pc_attend_of_not_busy (hn k hk)) hm
  refine ⟨n, fun m hm i => ?_⟩
  -- the request has both turns later on, and no use for them, so it has come to its end
  obtain ⟨k, x, hk, hturn⟩ := hwork i n
  obtain ⟨l, hl, hturn'⟩ := hreply i n
  have hk' := hn k hk
  have hl' := hn l hl
  rw [hturn, Requests.busy, hstill k hk, ← hstill m hm] at hk'
  rw [hturn', Requests.busy, hstill l hl, ← hstill m hm] at hl'
  have hpc := (hsound m).replied hk' hl'
  refine ⟨hpc, ?_⟩
  obtain ⟨ls, hat⟩ := (hsound m).at_
  have hlog := hat i
  rw [hpc] at hlog
  exact hlog.codes

end Fair

/-- A START, and a request that is no POST. -/
def startAndGet : Bool → HttpRequest
  | true => ⟨.post, ascii "/call-id/call", startBody compactPlatform 300⟩
  | false => ⟨.other, ascii "/call-id/call", []⟩

/-- Turns by turns, while the CCF does not answer. -/
def byTurns (n : ℕ) : Activity Bool :=
  .turn (decide (n % 4 < 2)) (if n % 2 = 0 then .work unanswered else .reply)

theorem straight_startAndGet :
    Straight compactPlatform ((Requests.start startAndGet fun _ => .empty).tasks compactPlatform
      plainHttp) where
  safe := safeTasks_requests fun _ _ => rfl
  type := fun i => by
    show ((runBillingTask compactPlatform plainHttp (startAndGet i)).2.elim Pc.done .handle).Every _
    have htype : ((runBillingTask compactPlatform plainHttp (startAndGet i)).2.all
        fun m => decide (m.recordType ≠ .stop)) = true := by
      revert i
      decide +kernel
    cases hmsg : (runBillingTask compactPlatform plainHttp (startAndGet i)).2 with
    | none => exact Pc.every_of_none rfl
    | some m =>
      rw [hmsg] at htype
      exact Pc.every_of_message rfl (of_decide_eq_true htype)

/-- Both are answered, and the START comes to its end. -/
theorem requests_answered_startAndGet :
    ∃ n, ∀ m, n ≤ m → ∀ i,
      (stateAt (attend compactPlatform plainHttp fun _ => localAndRemote) byTurns
        (Requests.start startAndGet fun _ => .empty) m).pc i = .replied (.manager .done) ∧
      (eventsOf i (stateAt (attend compactPlatform plainHttp fun _ => localAndRemote) byTurns
        (Requests.start startAndGet fun _ => .empty) m).trace).filterMap
          RequestEvent.code = [(runBillingTask compactPlatform plainHttp (startAndGet i)).1] := by
  have hout : ∀ n, (byTurns n).Without fun _ => false := by
    intro n
    unfold byTurns
    split_ifs
    · exact fun s hs => by cases hs
    · trivial
  refine Or.resolve_right (requests_answered (fun _ _ => rfl) hout (fun i n => ?_) fun i n => ?_)
    fun hsetbacks => ?_
  · refine ⟨4 * n + if i then 0 else 2, unanswered, by omega, ?_⟩
    cases i <;> simp [byTurns, Nat.add_mod, Nat.mul_mod]
  · refine ⟨4 * n + if i then 1 else 3, by omega, ?_⟩
    cases i <;> simp [byTurns, Nat.add_mod, Nat.mul_mod]
  · obtain ⟨m, -, hm⟩ := hsetbacks 0
    have hstraight : Straight compactPlatform
        ((stateAt (attend compactPlatform plainHttp fun _ => localAndRemote) byTurns
          (Requests.start startAndGet fun _ => .empty) m).tasks compactPlatform plainHttp) :=
      stateAt_invariant
        (I := fun S : Requests Bool => Straight compactPlatform (S.tasks compactPlatform plainHttp))
        straight_startAndGet
        (fun n _ h => tasks_invariant (I := Straight compactPlatform) (fun _ b hσ => hσ.step b) h
          (byTurns n)) m
    have hcalm : (byTurns m).Calm := by
      unfold byTurns
      split_ifs
      · exact fun _ => rfl
      · trivial
    exact Bool.noConfusion (hm.symm.trans (setback_eq_false_of_calm hstraight hcalm))

end Ralf
