import Ralf.Integrity
import Ralf.TimerArming

/-!
# The course of a message

What Chronos and the CCFs see of one message, in which order. A STOP deletes the timer of its
session, if there is one; the message is handed to its sender; ACRs go to the CCFs in their order;
the sender calls back once; the one timer request that the answer calls for is made (`arming`); and
if the ACR was accepted this is reported to the health checker. `Stage.Step` is this protocol as an
automaton. `follows_protocol`: whatever the other messages, the stores, Chronos and the CCFs do,
every message keeps to it, and it is not through before it has gone all the way. The one exception is
an INTERIM or STOP that is dropped before anything is seen of it, and that takes a search in vain:
`get_session_data` returned NULL for every store of its site (`Missed`).
-/

namespace Ralf

open Bytes Runs

/-! ## The automaton -/

inductive Stage where
  /-- Nothing has been seen of the message. -/
  | before
  /-- The timer of the session has been deleted. -/
  | disarmed (timerId : Bytes)
  /-- The message is with its sender, which has made so many ACRs of it. -/
  | handed (m : Message) (tried : ℕ)
  /-- `on_ccf_response` has been called. -/
  | answered (m : Message) (a : Answer)
  /-- The timer request that the answer calls for has been made. -/
  | armed (accepted : Bool)
  /-- The health checker has been told. -/
  | passed

section Automaton

variable (P : Platform) (msg : Message)

/-- What may be seen next of the message. -/
inductive Stage.Step : Stage → TaskEvent → Stage → Prop where
  | disarm {timerId} : msg.recordType = .stop → timerId ≠ NO_TIMER →
      Step .before (.manager (.timer (.delete timerId))) (.disarmed timerId)
  | first {sid} : ¬msg.Later →
      Step .before (.manager (.send msg.first sid)) (.handed msg.first 0)
  | interim {sess sid} : msg.recordType = .interim →
      Step .before (.manager (.send (fillIn msg sess) sid)) (.handed (fillIn msg sess) 0)
  | untimed {sess sid} : msg.recordType = .stop → sess.timerId = NO_TIMER →
      Step .before (.manager (.send (fillIn msg sess) sid)) (.handed (fillIn msg sess) 0)
  | stop {sess sid} :
      Step (.disarmed sess.timerId) (.manager (.send (fillIn msg sess) sid))
        (.handed (fillIn msg sess) 0)
  | acr {m k ccf event} : m.ccfs[k]? = some ccf →
      m.receivedJson.findMember (ascii "event") = .ok (some event) →
      Step (.handed m k) (.sender (.acr (PeerMessageSender.accountingRequest m event ccf)))
        (.handed m (k + 1))
  | answer {m k a} :
      Step (.handed m (k + 1)) (.sender (.onCcfResponse a.accepted a)) (.answered m a)
  | arm {m a req} : arming P m a = some req →
      Step (.answered m a) (.manager (.timer req)) (.armed a.accepted)
  | pass {m a} : a.accepted = true → arming P m a = none →
      Step (.answered m a) (.manager .healthCheckPassed) .passed
  | passArmed : Step (.armed true) (.manager .healthCheckPassed) .passed

/-- What has been seen of the message, and where it stands. -/
inductive Course : List TaskEvent → Stage → Prop where
  | nil : Course [] .before
  | snoc {es st e st'} : Course es st → Stage.Step P msg st e st' → Course (es ++ [e]) st'

/-- All that `on_ccf_response` has to ask of Chronos has been asked. -/
def Stage.Over (accepted : Bool) (st : Stage) : Prop :=
  st = .armed accepted ∨ ∃ m a, st = .answered m a ∧ a.accepted = accepted ∧ arming P m a = none

/-- The answer has been dealt with: it was reported as accepted, or it was not accepted. -/
def Stage.Final (st : Stage) : Prop := st = .passed ∨ st.Over P false

/-- Where a thread stands. -/
def Pc.At (st : Stage) : Pc → Prop
  | .handle m => st = .before ∧ m = msg
  | .tryRemotes m _ => st = .before ∧ m = msg ∧ msg.Later
  | .updateLocal m _ _ => st = .before ∧ m = msg ∧ msg.recordType = .interim
  | .readRemotes m _ _ => st = .before ∧ m = msg ∧ msg.recordType = .interim
  | .updateRemote m _ _ _ _ _ => st = .before ∧ m = msg ∧ msg.recordType = .interim
  | .deleteLocal m _ => st = .before ∧ m = msg ∧ msg.recordType = .stop
  | .deleteRemotes m _ _ => st = .before ∧ m = msg ∧ msg.recordType = .stop
  | .send m => ∀ sid, Stage.Step P msg st (.manager (.send m sid)) (.handed m 0)
  | .awaitAnswer _ => False
  | .deleteUnknown _ _ => st.Over P false
  | .createTimer m interimInterval _ =>
    ∃ a, st = .answered m a ∧ a.accepted = true ∧
      arming P m a = some (.post (timerSpec P m interimInterval))
  | .writeSession _ _ _ => st.Over P true
  | .sendChronosUpdate m interimInterval accepted =>
    ∃ a, st = .answered m a ∧ a.accepted = accepted ∧
      arming P m a = some (chronosUpdate P m interimInterval)
  | .readTimerId _ _ _ accepted => st.Over P accepted
  | .writeTimerId _ _ _ _ _ accepted => st.Over P accepted
  | .finish accepted => st.Over P accepted
  | .done => st.Final P ∨ st = .before ∧ msg.Later
  | .aborted => True

/-- What follows the call stands where the call leaves it. -/
def Action.At (st : Stage) : Action → Prop
  | .get _ _ k => ∀ sess, (k sess).At P msg st
  | .set _ _ _ _ k => ∀ rc, (k rc).At P msg st
  | .casDelete _ _ _ k => ∀ rc, (k rc).At P msg st
  | .delete _ _ k => ∀ rc, (k rc).At P msg st
  | .timer req k => ∃ st', Stage.Step P msg st (.manager (.timer req)) st' ∧
      ∀ id, (k id).At P msg st'
  | .send _ _ => False
  | .answer _ => False
  | .healthCheckPassed pc => ∃ st', Stage.Step P msg st (.manager .healthCheckPassed) st' ∧
      pc.At P msg st'
  | .goto pc => pc.At P msg st

end Automaton

/-! ## Looking back -/

/-- The message that is with its sender, or was. -/
def Stage.sent : Stage → Option Message
  | .handed m _ => some m
  | .answered m _ => some m
  | _ => none

section Courses

variable {P : Platform} {msg : Message} {es : List TaskEvent} {st : Stage}

theorem Course.send_mem (h : Course P msg es st) {m : Message} (hm : st.sent = some m) :
    ∃ sid, .manager (.send m sid) ∈ es := by
  induction h with
  | nil => cases hm
  | snoc hcourse hstep ih =>
    cases hstep with
    | disarm => cases hm
    | first =>
      cases hm
      exact ⟨_, List.mem_append_right _ (List.mem_singleton.mpr rfl)⟩
    | interim =>
      cases hm
      exact ⟨_, List.mem_append_right _ (List.mem_singleton.mpr rfl)⟩
    | untimed =>
      cases hm
      exact ⟨_, List.mem_append_right _ (List.mem_singleton.mpr rfl)⟩
    | stop =>
      cases hm
      exact ⟨_, List.mem_append_right _ (List.mem_singleton.mpr rfl)⟩
    | acr =>
      obtain ⟨sid, hmem⟩ := ih hm
      exact ⟨sid, List.mem_append_left _ hmem⟩
    | answer =>
      obtain ⟨sid, hmem⟩ := ih hm
      exact ⟨sid, List.mem_append_left _ hmem⟩
    | arm => cases hm
    | pass => cases hm
    | passArmed => cases hm

/-- Only a STOP deletes a timer before it is sent. -/
theorem Course.stop_of_disarmed {timerId : Bytes} (h : Course P msg es (.disarmed timerId)) :
    msg.recordType = .stop := by
  cases h with
  | snoc _ hstep =>
    cases hstep with
    | disarm hstop _ => exact hstop

/-- The course starts with the first thing that is seen. -/
theorem Course.eq_nil_iff (h : Course P msg es st) : es = [] ↔ st = .before := by
  cases h with
  | nil => exact iff_of_true rfl rfl
  | snoc _ hstep =>
    refine iff_of_false (List.append_ne_nil_of_right_ne_nil _ (List.cons_ne_nil _ _)) ?_
    rintro rfl
    cases hstep

/-- What is handed to a sender is the message with its number, or with the data of a session. -/
theorem Course.sent_cases (h : Course P msg es st) {m : Message} {sid : Bytes}
    (hmem : .manager (.send m sid) ∈ es) :
    (¬msg.Later ∧ m = msg.first) ∨ msg.Later ∧ ∃ sess, m = fillIn msg sess := by
  induction h with
  | nil => cases hmem
  | snoc hcourse hstep ih =>
    rcases List.mem_append.mp hmem with hold | hnew
    · exact ih hold
    · cases List.mem_singleton.mp hnew
      cases hstep with
      | first hnot => exact .inl ⟨hnot, rfl⟩
      | interim hi => exact .inr ⟨.inl hi, _, rfl⟩
      | untimed hs _ => exact .inr ⟨.inr hs, _, rfl⟩
      | stop => exact .inr ⟨.inr hcourse.stop_of_disarmed, _, rfl⟩

/-- An ACR is made of the message that was handed to the sender before, for one of its CCFs. -/
theorem Course.sent_before (h : Course P msg es st) {pre post : List TaskEvent}
    {acr : AccountingRequest} (hes : es = pre ++ .sender (.acr acr) :: post) :
    ∃ m sid event ccf, .manager (.send m sid) ∈ pre ∧ ccf ∈ m.ccfs ∧
      m.receivedJson.findMember (ascii "event") = .ok (some event) ∧
      acr = PeerMessageSender.accountingRequest m event ccf := by
  induction h generalizing post with
  | nil => cases pre <;> cases hes
  | snoc hcourse hstep ih =>
    rcases split_append hes with ⟨post', hold⟩ | ⟨hsub, hnew⟩
    · exact ih hold
    · cases List.mem_singleton.mp hnew
      cases hstep with
      | @acr m k ccf event hccf hevent =>
        obtain ⟨sid, hsend⟩ := hcourse.send_mem rfl
        exact ⟨m, sid, event, ccf, hsub hsend, List.mem_of_getElem? hccf, hevent, rfl⟩

end Courses

/-! ## Steps -/

section Steps

variable {P : Platform} {msg : Message} {site : Site} {st : Stage} {pc : Pc} {W : World}

theorem stop_of_later (h : msg.Later) (hi : ¬msg.recordType.isInterim = true) :
    msg.recordType = .stop :=
  h.resolve_left fun hint => hi (AccountingRecordType.isInterim_iff.mpr hint)

theorem at_found (hst : st = .before) (hlater : msg.Later) (sess : Session) (newSession : Bool) :
    (found msg sess newSession).At P msg st := by
  unfold found
  dsimp only
  split_ifs with hi
  · exact ⟨hst, rfl, AccountingRecordType.isInterim_iff.mp hi⟩
  · exact ⟨hst, rfl, stop_of_later hlater hi⟩

/-- Where `on_ccf_response` starts. -/
theorem at_onCcfResponse (site : Site) (m : Message) (a : Answer) :
    (onCcfResponse site a.accepted a.interimInterval a.sessionId a.rc m).At P msg
      (.answered m a) := by
  have hpc : onCcfResponse site a.accepted a.interimInterval a.sessionId a.rc m =
      (Thread.responding site m a fun _ => .empty).pc := rfl
  rw [hpc]
  by_cases hinterim : m.recordType = .interim
  · have hstart := AccountingRecordType.ne_start_of_interim hinterim
    rw [responding_interim hinterim]
    split_ifs with hrc harm
    · refine .inr ⟨m, a, rfl, ?_, by simp [arming, hstart, hrc]⟩
      rw [Answer.accepted, hrc]
      rfl
    · refine ⟨a, rfl, rfl, ?_⟩
      rw [arming, if_pos harm.2, if_neg (fun h => hstart h.1), if_pos ⟨hinterim, harm.1, hrc⟩,
        chronosUpdate]
      split_ifs <;> rfl
    · refine .inr ⟨m, a, rfl, rfl, ?_⟩
      unfold arming
      rw [if_neg (fun h : m.recordType = .start ∧ a.rc = 2001 => hstart h.1)]
      split_ifs with hlt hint
      all_goals first | rfl | exact absurd ⟨hint.2.1, hlt⟩ harm
  · by_cases hstart : m.recordType = .start
    · rw [responding_start hstart]
      split_ifs with hrc hlt
      · refine ⟨a, rfl, accepted_iff.mpr hrc, ?_⟩
        rw [arming, if_pos hlt, if_pos ⟨hstart, hrc⟩]
      · exact .inr ⟨m, a, rfl, accepted_iff.mpr hrc, by rw [arming, if_neg hlt]⟩
      · refine .inr ⟨m, a, rfl, ?_, by simp [arming, hinterim, hrc]⟩
        rw [Bool.eq_false_iff, ne_eq, accepted_iff]
        exact hrc
    · rw [responding_other hinterim hstart]
      exact .inr ⟨m, a, rfl, rfl, by simp [arming, hinterim, hstart]⟩

theorem at_next (P : Platform) (site : Site) (h : pc.At P msg st) (hsend : ¬∃ m, pc = .send m) :
    (next P site pc).At P msg st := by
  cases pc with
  | handle m =>
    obtain ⟨hst, rfl⟩ := h
    simp only [next]
    split_ifs with hlater
    · have hm : m.Later := Message.later_iff.mpr hlater
      intro sess
      cases sess with
      | none => exact ⟨hst, rfl, hm⟩
      | some sess => exact at_found hst hm sess false
    · intro sid
      rw [hst]
      exact .first fun hm => hlater (Message.later_iff.mp hm)
  | tryRemotes m rest =>
    obtain ⟨hst, rfl, hm⟩ := h
    cases rest with
    | nil => exact .inr ⟨hst, hm⟩
    | cons s rest =>
      intro sess
      cases sess with
      | none => exact ⟨hst, rfl, hm⟩
      | some sess => exact at_found hst hm sess true
  | updateLocal m sess newSession =>
    obtain ⟨hst, rfl, hm⟩ := h
    intro rc
    dsimp only
    split_ifs
    · exact ⟨hst, rfl⟩
    · exact ⟨hst, rfl, hm⟩
  | readRemotes m sess rest =>
    obtain ⟨hst, rfl, hm⟩ := h
    cases rest with
    | nil =>
      intro sid
      rw [hst]
      exact .interim hm
    | cons s rest =>
      intro remoteSess
      cases remoteSess <;> exact ⟨hst, rfl, hm⟩
  | updateRemote m sess s rest remoteSess newSession =>
    intro rc
    dsimp only
    split_ifs <;> exact h
  | deleteLocal m sess =>
    obtain ⟨hst, rfl, hm⟩ := h
    intro rc
    dsimp only
    split_ifs
    · exact ⟨hst, rfl⟩
    · exact ⟨hst, rfl, hm⟩
  | deleteRemotes m sess rest =>
    obtain ⟨rfl, rfl, hm⟩ := h
    cases rest with
    | nil =>
      simp only [next]
      split_ifs with htimer
      · exact ⟨.disarmed sess.timerId, .disarm hm htimer, fun _ sid => .stop⟩
      · exact fun sid => .untimed hm (not_not.mp htimer)
    | cons s rest =>
      intro rc
      dsimp only
      split_ifs <;> exact ⟨rfl, rfl, hm⟩
  | send m => exact absurd ⟨m, rfl⟩ hsend
  | awaitAnswer m => exact h.elim
  | deleteUnknown m rest =>
    cases rest with
    | nil => exact h
    | cons s rest => exact fun _ => h
  | createTimer m interimInterval sessionId =>
    obtain ⟨a, rfl, hacc, harm⟩ := h
    exact ⟨.armed a.accepted, .arm harm, fun _ => .inl (by rw [hacc])⟩
  | writeSession m sess rest =>
    cases rest with
    | nil => exact h
    | cons s rest => exact fun _ => h
  | sendChronosUpdate m interimInterval accepted =>
    obtain ⟨a, rfl, rfl, harm⟩ := h
    refine ⟨.armed a.accepted, .arm harm, fun id => ?_⟩
    dsimp only
    split_ifs <;> exact .inl rfl
  | readTimerId m timerId rest accepted =>
    cases rest with
    | nil => exact h
    | cons s rest =>
      intro sess
      cases sess <;> exact h
  | writeTimerId m timerId s rest sess accepted => exact fun _ => h
  | finish accepted =>
    cases accepted with
    | false => exact .inl (.inr h)
    | true =>
      rcases h with rfl | ⟨m, a, rfl, hacc, harm⟩
      · exact ⟨.passed, .passArmed, .inl (.inl rfl)⟩
      · exact ⟨.passed, .pass hacc harm, .inl (.inl rfl)⟩
  | done => exact h
  | aborted => trivial

/-- A call is not seen, or it is the next event of the course. -/
theorem at_perform (env : Env) {a : Action} (h : a.At P msg st) :
    ((perform P env W a).2.2 = [] ∧ (perform P env W a).1.At P msg st) ∨
      ∃ e st', (perform P env W a).2.2 = [e] ∧ Stage.Step P msg st (.manager e) st' ∧
        (perform P env W a).1.At P msg st' := by
  cases a with
  | get s key k =>
    simp only [perform]
    split
    · exact .inl ⟨rfl, h _⟩
    · exact .inl ⟨rfl, trivial⟩
  | set s key sess newSession k => exact .inl ⟨rfl, h _⟩
  | casDelete s key sess k => exact .inl ⟨rfl, h _⟩
  | delete s key k => exact .inl ⟨rfl, h _⟩
  | timer req k =>
    obtain ⟨st', hstep, hk⟩ := h
    exact .inr ⟨_, st', rfl, hstep, hk _⟩
  | send m pc => exact h.elim
  | answer k => exact h.elim
  | healthCheckPassed pc =>
    obtain ⟨st', hstep, hpc⟩ := h
    exact .inr ⟨_, st', rfl, hstep, hpc⟩
  | goto pc => exact .inl ⟨rfl, h⟩

end Steps

/-! ## Tasks -/

/-- Where a task stands, with its sender. -/
def Task.At (P : Platform) (msg : Message) (st : Stage) : Task → Prop
  | .manager pc => pc.At P msg st
  | .sender pm => st = .handed pm.msg (pm.which + 1) ∧ pm.ccfs = pm.msg.ccfs
  | .undefined => True

section Tasks

variable {P : Platform} {msg : Message} {site : Site} {st : Stage} {W : World}

/-- An ACR is one for the CCF whose turn it is. -/
theorem intSendMsg_sent {pm pm' : PeerMessageSender} {acr : AccountingRequest}
    (h : pm.intSendMsg = .sent pm' acr) :
    pm' = pm ∧ ∃ ccf event, pm.ccfs[pm.which]? = some ccf ∧
      pm.msg.receivedJson.findMember (ascii "event") = .ok (some event) ∧
      acr = PeerMessageSender.accountingRequest pm.msg event ccf := by
  unfold PeerMessageSender.intSendMsg at h
  split at h
  · rename_i ccf event hccf hevent
    cases h
    exact ⟨rfl, ccf, event, hccf, hevent, rfl⟩
  · cases h

theorem sendCb_sent {pm pm' : PeerMessageSender} {r : SendCb} {acr : AccountingRequest}
    (h : pm.sendCb r = .sent pm' acr) :
    ({ pm with which := pm.which + 1 } : PeerMessageSender).intSendMsg = .sent pm' acr := by
  unfold PeerMessageSender.sendCb at h
  split_ifs at h
  split at h
  · cases h
  · dsimp only at h
    split_ifs at h
    exact h

variable (P msg) in
/-- The sender makes an ACR for the next CCF. -/
theorem step_intSendMsg {pm pm' : PeerMessageSender} {acr : AccountingRequest}
    (h : pm.intSendMsg = .sent pm' acr) (hccfs : pm.ccfs = pm.msg.ccfs) :
    Stage.Step P msg (.handed pm.msg pm.which) (.sender (.acr acr))
        (.handed pm'.msg (pm'.which + 1)) ∧ pm'.ccfs = pm'.msg.ccfs := by
  obtain ⟨rfl, ccf, event, hccf, hevent, rfl⟩ := intSendMsg_sent h
  rw [hccfs] at hccf
  exact ⟨.acr hccf hevent, hccfs⟩

variable (site) in
/-- **One step of a task.** What is seen of it continues the course. -/
theorem Task.At.step {t : Task} (h : t.At P msg st) {es : List TaskEvent}
    (hcourse : Course P msg es st) (x : TaskEnv) :
    ∃ st', Course P msg (es ++ (taskStep P site x t W).2.2) st' ∧
      (taskStep P site x t W).1.At P msg st' := by
  cases t with
  | manager pc =>
    by_cases hsend : ∃ m, pc = .send m
    · obtain ⟨m, rfl⟩ := hsend
      have hhanded := hcourse.snoc (h (acrSessionId x.env m))
      cases hres : PeerMessageSender.send m with
      | sent pm acr =>
        obtain ⟨hstep, hccfs⟩ := step_intSendMsg P msg hres rfl
        simp only [taskStep, hres]
        refine ⟨.handed pm.msg (pm.which + 1), ?_, rfl, hccfs⟩
        have := hhanded.snoc hstep
        rwa [List.append_assoc] at this
      | answered accepted a =>
        rcases send_cases m with hs | ⟨acr, hs⟩
        · rw [hs] at hres
          cases hres
        · rw [hs] at hres
          cases hres
      | undefined =>
        simp only [taskStep, hres]
        exact ⟨_, hhanded, trivial⟩
    · rw [taskStep_manager P site x W hsend]
      rcases at_perform (W := W) x.env (at_next P site h hsend) with
        ⟨hes, hpc⟩ | ⟨e, st', hes, hstep, hpc⟩
      · refine ⟨st, ?_, hpc⟩
        show Course P msg (es ++ (perform P x.env W (next P site pc)).2.2.map .manager) st
        rw [hes, List.map_nil, List.append_nil]
        exact hcourse
      · refine ⟨st', ?_, hpc⟩
        show Course P msg (es ++ (perform P x.env W (next P site pc)).2.2.map .manager) st'
        rw [hes]
        exact hcourse.snoc hstep
  | sender pm =>
    obtain ⟨rfl, hccfs⟩ := h
    cases hres : pm.sendCb x.outcome.sendCb with
    | sent pm' acr =>
      obtain ⟨hstep, hccfs'⟩ := step_intSendMsg P msg (sendCb_sent hres) hccfs
      simp only [taskStep, hres]
      exact ⟨_, hcourse.snoc hstep, rfl, hccfs'⟩
    | answered accepted a =>
      simp only [taskStep, hres]
      rw [accepted_of_sendCb hres]
      exact ⟨.answered pm.msg a, hcourse.snoc .answer, at_onCcfResponse site pm.msg a⟩
    | undefined =>
      simp only [taskStep, hres, SenderResult.events, List.map_nil, List.append_nil]
      exact ⟨_, hcourse, trivial⟩
  | undefined =>
    refine ⟨st, ?_, trivial⟩
    show Course P msg (es ++ []) st
    rw [List.append_nil]
    exact hcourse

end Tasks

/-! ## Lookups -/

/-- A call of `get_session_data` that has returned, with NULL or a session. -/
structure Lookup where
  store : StoreId
  key : Bytes
  sess : Option Session

/-- `get_session_data` returned NULL for each of these stores, in this order, and nothing has been
read since. -/
def Missed (key : Bytes) (stores : List StoreId) (ls : List Lookup) : Prop :=
  stores.map (⟨·, key, none⟩) <:+ ls

theorem Missed.snoc {key : Bytes} {stores : List StoreId} {ls : List Lookup}
    (h : Missed key stores ls) (s : StoreId) :
    Missed key (stores ++ [s]) (ls ++ [⟨s, key, none⟩]) := by
  unfold Missed at h ⊢
  rw [List.map_append]
  exact (List.suffix_append_inj_of_length_eq rfl).mpr ⟨h, rfl⟩

section Lookups

variable (P : Platform)

/-- What a call looks up. -/
def Action.lookups (env : Env) (W : World) : Action → List Lookup
  | .get s key _ =>
    match getSessionData P (W s) (env.store s) key with
    | .ok sess => [⟨s, key, sess⟩]
    | .error _ => []
  | _ => []

/-- What a step of a task looks up. -/
def Task.lookups (site : Site) (x : TaskEnv) : Task → World → List Lookup
  | .manager pc, W => (next P site pc).lookups P x.env W
  | .sender _, _ => []
  | .undefined, _ => []

variable (site : Site) (msg : Message)

/-- A thread that looks for the session in further stores has looked in the others in vain, and one
that drops the message in all of them. -/
def Pc.Sought (es : List TaskEvent) (ls : List Lookup) : Pc → Prop
  | .tryRemotes _ rest => ∃ tried, site.stores = tried ++ rest ∧ Missed msg.key tried ls
  | .done => es = [] → Missed msg.key site.stores ls
  | _ => True

/-- The same for what follows a call, which may have been a lookup, or seen. -/
def Action.Sought (es : List TaskEvent) (ls : List Lookup) : Action → Prop
  | .get s key k => ∀ sess, (k sess).Sought site msg es (ls ++ [⟨s, key, sess⟩])
  | .set _ _ _ _ k => ∀ rc, (k rc).Sought site msg es ls
  | .casDelete _ _ _ k => ∀ rc, (k rc).Sought site msg es ls
  | .delete _ _ k => ∀ rc, (k rc).Sought site msg es ls
  | .timer req k => ∀ id, (k id).Sought site msg (es ++ [.manager (.timer req)]) ls
  | .send m pc => ∀ sid, pc.Sought site msg (es ++ [.manager (.send m sid)]) ls
  | .answer k => ∀ a, (k a).Sought site msg es ls
  | .healthCheckPassed pc => pc.Sought site msg (es ++ [.manager .healthCheckPassed]) ls
  | .goto pc => pc.Sought site msg es ls

def Task.Sought (es : List TaskEvent) (ls : List Lookup) : Task → Prop
  | .manager pc => pc.Sought site msg es ls
  | .sender _ => True
  | .undefined => True

variable {P site msg} {es : List TaskEvent} {ls : List Lookup} {st : Stage} {W : World}

theorem sought_found (m : Message) (sess : Session) (newSession : Bool) :
    (found m sess newSession).Sought site msg es ls := by
  unfold found
  dsimp only
  split_ifs <;> trivial

theorem sought_onCcfResponse (site' : Site) (accepted : Bool) (interimInterval : UInt32)
    (sessionId : Bytes) (rc : Int32) (m : Message) :
    (onCcfResponse site' accepted interimInterval sessionId rc m).Sought site msg es ls := by
  unfold onCcfResponse
  dsimp only
  split_ifs <;> trivial

theorem sought_next {pc : Pc} (h : pc.Sought site msg es ls) (hat : pc.At P msg st)
    (hcourse : Course P msg es st) : (next P site pc).Sought site msg es ls := by
  cases pc with
  | handle m =>
    obtain ⟨-, rfl⟩ := hat
    simp only [next]
    split_ifs
    · intro sess
      cases sess with
      | none => exact ⟨[site.localStore], rfl, List.suffix_append _ _⟩
      | some sess => exact sought_found m sess false
    · trivial
  | tryRemotes m rest =>
    obtain ⟨-, rfl, -⟩ := hat
    obtain ⟨tried, hstores, hmissed⟩ := h
    cases rest with
    | nil =>
      intro _
      rw [hstores, List.append_nil]
      exact hmissed
    | cons s rest =>
      intro sess
      cases sess with
      | none =>
        refine ⟨tried ++ [s], ?_, hmissed.snoc s⟩
        rw [hstores, List.append_assoc]
        rfl
      | some sess => exact sought_found m sess true
  | updateLocal m sess newSession =>
    intro rc
    dsimp only
    split_ifs <;> trivial
  | readRemotes m sess rest =>
    cases rest with
    | nil => trivial
    | cons s rest =>
      intro remoteSess
      cases remoteSess <;> trivial
  | updateRemote m sess s rest remoteSess newSession =>
    intro rc
    dsimp only
    split_ifs <;> trivial
  | deleteLocal m sess =>
    intro rc
    dsimp only
    split_ifs <;> trivial
  | deleteRemotes m sess rest =>
    cases rest with
    | nil =>
      simp only [next]
      split_ifs
      · exact fun _ => trivial
      · trivial
    | cons s rest =>
      intro rc
      dsimp only
      split_ifs <;> trivial
  | send m => exact fun _ => trivial
  | awaitAnswer m => exact hat.elim
  | deleteUnknown m rest =>
    cases rest with
    | nil => trivial
    | cons s rest => exact fun _ => trivial
  | createTimer m interimInterval sessionId => exact fun _ => trivial
  | writeSession m sess rest =>
    cases rest with
    | nil => trivial
    | cons s rest => exact fun _ => trivial
  | sendChronosUpdate m interimInterval accepted =>
    intro id
    dsimp only
    split_ifs <;> trivial
  | readTimerId m timerId rest accepted =>
    cases rest with
    | nil => trivial
    | cons s rest =>
      intro sess
      cases sess <;> trivial
  | writeTimerId m timerId s rest sess accepted => exact fun _ => trivial
  | finish accepted =>
    -- the answer has been seen, so that this is not the end of a search
    have hseen : es ≠ [] := by
      rw [ne_eq, hcourse.eq_nil_iff]
      rcases hat with rfl | ⟨m, a, rfl, -⟩ <;> exact Stage.noConfusion
    cases accepted with
    | false => exact fun hnil => absurd hnil hseen
    | true => exact fun hnil => absurd (List.append_eq_nil_iff.mp hnil).1 hseen
  | done => exact h
  | aborted => trivial

theorem sought_perform (env : Env) {a : Action} (h : a.Sought site msg es ls) :
    (perform P env W a).1.Sought site msg (es ++ (perform P env W a).2.2.map .manager)
      (ls ++ a.lookups P env W) := by
  cases a with
  | get s key k =>
    simp only [perform, Action.lookups]
    cases getSessionData P (W s) (env.store s) key with
    | error e => trivial
    | ok sess =>
      rw [List.map_nil, List.append_nil]
      exact h sess
  | timer req k =>
    simp only [Action.lookups, List.append_nil]
    exact h env.timer
  | send m pc =>
    simp only [Action.lookups, List.append_nil]
    exact h _
  | healthCheckPassed pc =>
    simp only [Action.lookups, List.append_nil]
    exact h
  | goto pc =>
    simp only [perform, Action.lookups, List.map_nil, List.append_nil]
    exact h
  | _ =>
    simp only [perform, Action.lookups, List.map_nil, List.append_nil]
    exact h _

variable (P site) in
/-- **One step of a search.** -/
theorem Task.Sought.step {t : Task} (h : t.Sought site msg es ls) (hat : t.At P msg st)
    (hcourse : Course P msg es st) (x : TaskEnv) :
    (taskStep P site x t W).1.Sought site msg (es ++ (taskStep P site x t W).2.2)
      (ls ++ t.lookups P site x W) := by
  cases t with
  | manager pc =>
    by_cases hsend : ∃ m, pc = .send m
    · obtain ⟨m, rfl⟩ := hsend
      simp only [taskStep]
      rcases send_cases m with hs | ⟨acr, hs⟩
      · simp only [hs, Task.ofResult]
        trivial
      · simp only [hs, Task.ofResult]
        trivial
    · rw [taskStep_manager P site x W hsend]
      exact sought_perform x.env (sought_next h hat hcourse)
  | sender pm =>
    simp only [taskStep]
    cases pm.sendCb x.outcome.sendCb with
    | sent pm' acr => trivial
    | answered accepted a => exact sought_onCcfResponse ..
    | undefined => trivial
  | undefined => trivial

end Lookups

/-! ## Runs -/

section Runs

variable {P : Platform} {κ : Type} [DecidableEq κ] {site : κ → Site}

variable {ε : Type}

/-- What is seen of the task `i`. -/
def eventsOf (i : κ) (tr : List (κ × ε)) : List ε :=
  tr.filterMap fun x => if x.1 = i then some x.2 else none

theorem eventsOf_append_self (i : κ) (tr : List (κ × ε)) (es : List ε) :
    eventsOf i (tr ++ es.map (i, ·)) = eventsOf i tr ++ es := by
  unfold eventsOf
  rw [List.filterMap_append, List.filterMap_map]
  congr 1
  simp

theorem eventsOf_append_of_ne {i j : κ} (h : j ≠ i) (tr : List (κ × ε)) (es : List ε) :
    eventsOf i (tr ++ es.map (j, ·)) = eventsOf i tr := by
  unfold eventsOf
  rw [List.filterMap_append, List.filterMap_map]
  simp [h]

theorem eventsOf_split (i : κ) (e : ε) (pre post : List (κ × ε)) :
    eventsOf i (pre ++ (i, e) :: post) = eventsOf i pre ++ e :: eventsOf i post := by
  simp [eventsOf]

theorem mem_eventsOf {i : κ} {e : ε} {tr : List (κ × ε)} :
    e ∈ eventsOf i tr ↔ (i, e) ∈ tr := by
  unfold eventsOf
  rw [List.mem_filterMap]
  constructor
  · rintro ⟨⟨j, e'⟩, hmem, heq⟩
    dsimp only at heq
    split_ifs at heq with hj
    cases heq
    rwa [← hj]
  · intro hmem
    exact ⟨(i, e), hmem, if_pos rfl⟩

/-- Every task has kept to the protocol so far. -/
def OnCourse (P : Platform) (msg : κ → Message) (σ : Tasks κ) : Prop :=
  ∀ i, ∃ st, Course P (msg i) (eventsOf i σ.trace) st ∧ (σ.pc i).At P (msg i) st

theorem OnCourse.step {msg : κ → Message} {σ : Tasks κ} (h : OnCourse P msg σ)
    (a : Happening κ) : OnCourse P msg (happen P site a σ) := by
  cases a with
  | lose s key => exact h
  | move i x =>
    intro j
    obtain ⟨st, hcourse, hat⟩ := h j
    by_cases hj : j = i
    · subst hj
      obtain ⟨st', hcourse', hat'⟩ := hat.step (site j) (W := σ.shared) hcourse x
      refine ⟨st', ?_, ?_⟩
      · show Course P (msg j) (eventsOf j (σ.trace ++ _)) st'
        rw [eventsOf_append_self]
        exact hcourse'
      · show (Function.update σ.pc j _ j).At P (msg j) st'
        rw [Function.update_self]
        exact hat'
    · refine ⟨st, ?_, ?_⟩
      · show Course P (msg j) (eventsOf j (σ.trace ++ _)) st
        rw [eventsOf_append_of_ne (Ne.symm hj)]
        exact hcourse
      · show (Function.update σ.pc i _ j).At P (msg j) st
        rw [Function.update_of_ne hj]
        exact hat

variable (P site) in
theorem onCourse_exec (msg : κ → Message) (W : World) (as : List (Happening κ)) :
    OnCourse P msg (exec (happen P site) as (Tasks.start msg W)) :=
  exec_invariant (fun _ a h => h.step a) as fun _ => ⟨.before, .nil, rfl, rfl⟩

variable (P site) in
/-- What a step of the tasks looks up. -/
def Tasks.lookups (σ : Tasks κ) : Happening κ → List (κ × Lookup)
  | .move i x => ((σ.pc i).lookups P (site i) x σ.shared).map (i, ·)
  | .lose _ _ => []

variable (site) in
/-- The searches of the tasks, next to what was looked up. -/
def Tasks.Sought (msg : κ → Message) (σ : Tasks κ) (ls : List (κ × Lookup)) : Prop :=
  ∀ i, (σ.pc i).Sought (site i) (msg i) (eventsOf i σ.trace) (eventsOf i ls)

theorem Tasks.Sought.step {msg : κ → Message} {σ : Tasks κ} {ls : List (κ × Lookup)}
    (h : σ.Sought site msg ls) (hcourse : OnCourse P msg σ) (a : Happening κ) :
    (happen P site a σ).Sought site msg (ls ++ σ.lookups P site a) := by
  cases a with
  | lose s key =>
    show σ.Sought site msg (ls ++ [])
    rw [List.append_nil]
    exact h
  | move i x =>
    intro j
    obtain ⟨st, hes, hat⟩ := hcourse j
    show (Function.update σ.pc i _ j).Sought (site j) (msg j) (eventsOf j (σ.trace ++ _))
      (eventsOf j (ls ++ ((σ.pc i).lookups P (site i) x σ.shared).map (i, ·)))
    by_cases hj : j = i
    · subst hj
      rw [Function.update_self, eventsOf_append_self, eventsOf_append_self]
      exact (h j).step P (site j) hat hes x
    · rw [Function.update_of_ne hj, eventsOf_append_of_ne (Ne.symm hj),
        eventsOf_append_of_ne (Ne.symm hj)]
      exact h j

variable (P site) in
theorem sought_exec (msg : κ → Message) (W : World) (as : List (Happening κ)) :
    (exec (happen P site) as (Tasks.start msg W)).Sought site msg
      (notes (happen P site) (Tasks.lookups P site) as (Tasks.start msg W)) :=
  (notes_invariant (I := fun σ ls => OnCourse P msg σ ∧ σ.Sought site msg ls)
    (fun _ _ a h => ⟨h.1.step a, h.2.step h.1 a⟩) as (l := [])
    ⟨onCourse_exec P site msg W [], fun _ => trivial⟩).2

/-- **Every message follows the protocol**, in any run from any stores. When it is through its answer
has been dealt with; or it is an INTERIM or STOP of which nothing has been seen, and the last that it
looked up is every store of its site, in vain. -/
theorem follows_protocol (msg : κ → Message) (W : World) (as : List (Happening κ)) (i : κ) :
    ∃ st, Course P (msg i) (eventsOf i (exec (happen P site) as (Tasks.start msg W)).trace) st ∧
      ((exec (happen P site) as (Tasks.start msg W)).pc i = .manager .done →
        st.Final P ∨ st = .before ∧ (msg i).Later ∧ Missed (msg i).key (site i).stores
          (eventsOf i (notes (happen P site) (Tasks.lookups P site) as (Tasks.start msg W)))) := by
  obtain ⟨st, hcourse, hat⟩ := onCourse_exec P site msg W as i
  refine ⟨st, hcourse, fun hdone => ?_⟩
  have hsought := sought_exec P site msg W as i
  rw [hdone] at hat hsought
  refine hat.imp_right fun ⟨hst, hlater⟩ => ⟨hst, hlater, ?_⟩
  exact hsought (hcourse.eq_nil_iff.mpr hst)

end Runs

/-- An INTERIM over empty stores asks the local store and the remote one. -/
example : (notes (happen compactPlatform fun _ : Unit => localAndRemote)
    (Tasks.lookups compactPlatform fun _ => localAndRemote) (List.replicate 3 (.move () unanswered))
    (Tasks.start (fun _ => sampleMessage .interim) fun _ => .empty)).map
      (fun x => (x.2.store, x.2.sess.isNone)) = [(0, true), (1, true)] := by
  decide +kernel

end Ralf
