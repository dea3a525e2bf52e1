import Ralf.AccountingRequest
import Ralf.Callback
import Ralf.ParseBody
import Ralf.Requests

/-!
# From requests to ACRs

What a CCF is told, in terms of what the program was asked over HTTP. Between the two stand the
parser, the session manager with its stores, the sender and the constructor of the ACR, for any
number of requests at once. `acrs_report` takes them together: an ACR is that of a POST whose body
has a valid event, and carries the members of this event, in their order. A START or an EVENT goes to
a CCF that its own body lists, with the number 1 and no session. An INTERIM or a STOP goes to a CCF
that the body of a START of its call lists, with the Session-Id of an earlier answer that accepted this
START.
-/

namespace Ralf

open Bytes Runs

/-! ## Requests -/

section Requests

variable (P : Platform) (http : HttpStack)

/-- The request is a POST with this event, of this type, for the call with this key. -/
structure Posts (req : HttpRequest) (body event : List (Bytes × Json)) (key : Bytes)
    (type : Int32) : Prop where
  method : req.method = .post
  valid : ∃ role function, BillingTask.ValidEvent P req.rxBody body event role function type ∧
    key = createKey (http.file req.uri) role function

/-- The body lists the CCF among its peers. -/
def ListsCcf (body : List (Bytes × Json)) (ccf : Bytes) : Prop :=
  ∃ peers cs, findMember body (ascii "peers") = some (.obj peers) ∧ BillingTask.HasCcfs peers cs ∧
    ccf ∈ cs.map cStr

variable {P http} {req : HttpRequest}

/-- The types that come with their peers are those that do not belong to a session. -/
theorem later_iff_not_needsPeers {type : Int32} (h : 1 ≤ type.toInt ∧ type.toInt ≤ 4) {msg : Message}
    (hmsg : msg.recordType = .ofInt type) : msg.Later ↔ ¬BillingTask.NeedsPeers type := by
  rw [← BillingTask.needsPeers_iff, ← hmsg]
  constructor
  · rintro (hi | hs)
    · rw [hi]
      decide
    · rw [hs]
      decide
  · intro hneeds
    have hvalid : msg.recordType.isValid = true := by
      rw [hmsg, BillingTask.isValid_ofInt]
      exact h
    exact (AccountingRecordType.valid_cases hvalid).resolve_left hneeds

/-- What the message of a request is made of. -/
theorem posts_of_runBillingTask {rc : HTTPCode} {msg : Message}
    (h : runBillingTask P http req = (rc, some msg)) :
    ∃ body event type, Posts P http req body event msg.key type ∧
      msg.receivedJson.findMember (ascii "event") = .ok (some (.obj event)) ∧
      (msg.Later ↔ ¬BillingTask.NeedsPeers type) ∧ (msg.recordType = .start → type = 2) ∧
      msg.sessionId = [] ∧ (¬msg.Later → ∀ ccf ∈ msg.ccfs, ListsCcf body ccf) := by
  unfold runBillingTask at h
  split_ifs at h with hmethod
  · cases h
  dsimp only at h
  obtain ⟨-, -, heq⟩ | ⟨-, -, heq⟩ | ⟨-, -, msg', hmsg, heq⟩ := BillingTask.parseBody_cases P
    (http.file req.uri) (decide (http.param req.uri TIMER_INTERIM_PARAM = ascii "true")) req.rxBody
  · rw [heq] at h
    cases h
  · rw [heq] at h
    cases h
  · rw [heq] at h
    cases h
    obtain ⟨body, event, role, function, type, t, ccfs, hvalid, -, hpeers, -, hmsg⟩ := hmsg
    have hlater := later_iff_not_needsPeers hvalid.range (congrArg Message.recordType hmsg)
    refine ⟨body, event, type, ⟨not_not.mp hmethod, role, function, hvalid, ?_⟩, ?_, hlater, ?_, ?_,
      ?_⟩
    · rw [hmsg]
      rfl
    · rw [hmsg]
      exact congrArg Except.ok hvalid.eventMember
    · intro hstart
      rw [hmsg] at hstart
      exact BillingTask.toUInt32_eq_iff.mp (congrArg AccountingRecordType.code hstart)
    · rw [hmsg]
      rfl
    · intro hnot ccf hccf
      rw [hlater, not_not] at hnot
      obtain ⟨peers, cs, hobj, hcs, rfl⟩ := hpeers hnot
      rw [hmsg] at hccf
      exact ⟨peers, cs, hobj, hcs, hccf⟩

theorem ListsCcf.cStr {body : List (Bytes × Json)} {ccf : Bytes} (h : ListsCcf body ccf) :
    ListsCcf body (cStr ccf) := by
  obtain ⟨peers, cs, hpeers, hcs, hmem⟩ := h
  obtain ⟨c, -, rfl⟩ := List.mem_map.mp hmem
  rw [cStr_cStr]
  exact ⟨peers, cs, hpeers, hcs, hmem⟩

/-- What is seen of a request, apart from its reply, is the course of its message. -/
theorem Acknowledged.course {site : Site} {ls : List Lookup} {log : List RequestEvent}
    (h : Acknowledged P http site req ls log) :
    log.filterMap RequestEvent.task = [] ∨
      ∃ msg st, runBillingTask P http req = (HTTP_OK, some msg) ∧
        Course P msg (log.filterMap RequestEvent.task) st := by
  cases h with
  | nothing => exact .inl rfl
  | refused _ => exact .inl rfl
  | dropped _ _ _ => exact .inl rfl
  | @handling msg es st hrun hcourse =>
    refine .inr ⟨msg, st, hrun, ?_⟩
    rw [task_seen]
    exact hcourse
  | @sent msg es es' st hrun hcourse _ =>
    refine .inr ⟨msg, st, hrun, ?_⟩
    rw [List.filterMap_append, task_seen, List.filterMap_cons_none rfl, task_seen]
    exact hcourse

variable (P http) in
/-- The message of a request. One that has none stands for a message without a session. -/
def requestMessage (req : HttpRequest) : Message :=
  (runBillingTask P http req).2.getD (.new [] 0 0 .null .interim 0 false)

theorem run_of_requestMessage (h : (requestMessage P http req).recordType = .start) :
    ∃ rc, runBillingTask P http req = (rc, some (requestMessage P http req)) := by
  unfold requestMessage at h ⊢
  rcases hrun : runBillingTask P http req with ⟨rc, msg⟩
  rw [hrun] at h
  cases msg with
  | none => exact absurd h (AccountingRecordType.ne_start_of_interim rfl)
  | some msg => exact ⟨rc, rfl⟩

end Requests

/-! ## Runs -/

section Runs

variable {P : Platform} {http : HttpStack} {κ : Type} {site : κ → Site} {req : κ → HttpRequest}

theorem authentic_requests {W : World} (hW : ∀ s key, (W s).record key = none) :
    Authentic P (fun i => requestMessage P http (req i)) ((Requests.start req W).tasks P http) := by
  refine ⟨stocked_of_empty hW, fun i => ?_, ?_⟩
  · show (Task.manager ((runBillingTask P http (req i)).2.elim .done .handle)).Bears _
      (· = (runBillingTask P http (req i)).2.getD _)
    cases (runBillingTask P http (req i)).2 with
    | none => trivial
    | some msg => rfl
  · intro pre post j m sid h
    cases pre <;> cases h

variable (P http) in
/-- What is seen of the tasks before an event of theirs. -/
theorem tasks_trace_split {S : Requests κ} {pre post : List (κ × RequestEvent)} {i : κ}
    {e : TaskEvent} (h : S.trace = pre ++ (i, .seen e) :: post) :
    ∃ pre' post', (S.tasks P http).trace = pre' ++ (i, e) :: post' ∧
      ∀ j e', (j, e') ∈ pre' → (j, .seen e') ∈ pre := by
  refine ⟨pre.filterMap fun x => x.2.task.map (x.1, ·),
    post.filterMap fun x => x.2.task.map (x.1, ·), ?_, ?_⟩
  · show S.trace.filterMap _ = _
    rw [h, List.filterMap_append]
    rfl
  · intro j e' hmem
    obtain ⟨⟨k, e₀⟩, hpre, heq⟩ := List.mem_filterMap.mp hmem
    cases e₀ with
    | reply rc => cases heq
    | seen e₀ =>
      cases heq
      exact hpre

variable [DecidableEq κ]

theorem authentic_exec {W : World} (hW : ∀ s key, (W s).record key = none)
    (as : List (Activity κ)) :
    Authentic P (fun i => requestMessage P http (req i))
      ((exec (attend P http site) as (Requests.start req W)).tasks P http) := by
  have hstep : ∀ (S : Requests κ) a,
      Authentic P (fun i => requestMessage P http (req i)) (S.tasks P http) →
      Authentic P (fun i => requestMessage P http (req i))
        ((attend P http site a S).tasks P http) :=
    fun S a h => tasks_invariant (I := Authentic P fun i => requestMessage P http (req i))
      (fun _ b hσ => hσ.step b) h a
  exact exec_invariant hstep as (authentic_requests hW)

/-- An ACR comes from a message that its request was given, and that was sent before. -/
theorem sent_of_acr (W : World) (as : List (Activity κ)) {pre post : List (κ × RequestEvent)} {i : κ}
    {acr : AccountingRequest}
    (htrace : (exec (attend P http site) as (Requests.start req W)).trace =
      pre ++ (i, .seen (.sender (.acr acr))) :: post) :
    ∃ msg m sid event ccf, runBillingTask P http (req i) = (HTTP_OK, some msg) ∧
      (i, .seen (.manager (.send m sid))) ∈ pre ∧
      ((¬msg.Later ∧ m = msg.first) ∨ msg.Later ∧ ∃ sess, m = fillIn msg sess) ∧ ccf ∈ m.ccfs ∧
      m.receivedJson.findMember (ascii "event") = .ok (some event) ∧
      acr = PeerMessageSender.accountingRequest m event ccf := by
  have hlog := (requestsAt_exec P http site req W as i).acknowledged.course
  have hcons : (RequestEvent.seen (.sender (.acr acr)) :: eventsOf i post).filterMap
      RequestEvent.task = .sender (.acr acr) :: (eventsOf i post).filterMap RequestEvent.task := rfl
  rw [htrace, eventsOf_split, List.filterMap_append, hcons] at hlog
  rcases hlog with hnil | ⟨msg, st, hrun, hcourse⟩
  · exact absurd hnil (List.append_ne_nil_of_right_ne_nil _ (List.cons_ne_nil _ _))
  · obtain ⟨m, sid, event, ccf, hsend, hccf, hevent, hacr⟩ := hcourse.sent_before rfl
    refine ⟨msg, m, sid, event, ccf, hrun, ?_, hcourse.sent_cases (List.mem_append_left _ hsend),
      hccf, hevent, hacr⟩
    obtain ⟨e, hmem, he⟩ := List.mem_filterMap.mp hsend
    cases e with
    | reply rc => cases he
    | seen e =>
      cases he
      exact mem_eventsOf.mp hmem

/-- The Session-Id and the CCFs of a later message are those of a START that was accepted before. -/
theorem start_of_sent {W : World} (hW : ∀ s key, (W s).record key = none) (as : List (Activity κ))
    {pre post : List (κ × RequestEvent)} {i : κ} {m : Message} {sid : Bytes}
    (htrace : (exec (attend P http site) as (Requests.start req W)).trace =
      pre ++ (i, .seen (.manager (.send m sid))) :: post) (hm : m.Later) :
    ∃ j a body event, (j, .seen (.sender (.onCcfResponse true a))) ∈ pre ∧
      Posts P http (req j) body event m.key 2 ∧ m.sessionId = cStr a.sessionId ∧
      ∀ ccf ∈ m.ccfs, ListsCcf body ccf := by
  obtain ⟨pre', post', htasks, hpre⟩ := tasks_trace_split P http htrace
  obtain ⟨m₀, sess, -, ⟨j, a, hmem, hstart, hkey, hsess⟩, rfl⟩ :=
    ((authentic_exec hW as).sent pre' post' i m sid htasks).outgoing.later hm
  obtain ⟨rc, hrun⟩ := run_of_requestMessage hstart
  obtain ⟨body, event, type, hposts, -, -, htype, -, hccfs⟩ := posts_of_runBillingTask hrun
  refine ⟨j, a, body, event, hpre _ _ hmem, ?_, hsess.sessionId, ?_⟩
  · rw [htype hstart, hkey] at hposts
    exact hposts
  · intro ccf hccf
    have hccf' : ccf ∈ sess.ccf := hccf
    rw [hsess.ccf] at hccf'
    obtain ⟨c, hc, rfl⟩ := List.mem_map.mp hccf'
    exact (hccfs (not_later_of_start hstart) c hc).cStr

/-- **ACRs report requests.** Requests of any kind come to stores that were empty, and anything may
happen to them, in any order. An ACR is that of a POST with a valid event, and its AVPs after the
fixed ones are those of the members of this event. If the event comes with its peers, the ACR goes to
one of them, with the number 1 and without a session; otherwise it goes to a CCF that a START of the
same key lists, with the Session-Id of the answer that accepted this START before. -/
theorem acrs_report {Dict Data : Type} (D : Diameter Dict Data) (destRealm newSessionId : Bytes)
    {W : World} (hW : ∀ s key, (W s).record key = none) (as : List (Activity κ))
    {pre post : List (κ × RequestEvent)} {i : κ} {acr : AccountingRequest}
    (htrace : (exec (attend P http site) as (Requests.start req W)).trace =
      pre ++ (i, .seen (.sender (.acr acr))) :: post) :
    ∃ body event key type, Posts P http (req i) body event key type ∧
      D.avps destRealm newSessionId acr = D.fixedAvps destRealm newSessionId acr ++
        event.flatMap (D.memberAvps cStr) ∧
      (BillingTask.NeedsPeers type →
        acr.recordNumber = 1 ∧ acr.sessionId = [] ∧ ListsCcf body acr.destHost) ∧
      (¬BillingTask.NeedsPeers type → ∃ j a body' event',
        (j, .seen (.sender (.onCcfResponse true a))) ∈ pre ∧
        Posts P http (req j) body' event' key 2 ∧ acr.sessionId = cStr a.sessionId ∧
        ListsCcf body' acr.destHost) := by
  obtain ⟨msg, m, sid, json, ccf, hrun, hsend, hm, hccf, hjson, rfl⟩ := sent_of_acr W as htrace
  obtain ⟨body, event, type, hposts, hevent, hlater, -, hsid, hpeers⟩ := posts_of_runBillingTask hrun
  have hsame : m.receivedJson = msg.receivedJson ∧ m.key = msg.key ∧ (m.Later ↔ msg.Later) := by
    rcases hm with ⟨-, rfl⟩ | ⟨-, sess, rfl⟩ <;> exact ⟨rfl, rfl, Iff.rfl⟩
  rw [hsame.1, hevent] at hjson
  cases hjson
  refine ⟨body, event, msg.key, type, hposts, D.avps_eq destRealm newSessionId rfl, ?_, ?_⟩
  · intro hneeds
    have hfirst : ¬msg.Later := fun h => hlater.mp h hneeds
    obtain ⟨-, rfl⟩ := hm.resolve_right fun h => hfirst h.1
    exact ⟨rfl, hsid, hpeers hfirst ccf hccf⟩
  · intro hneeds
    obtain ⟨pre', post', hsplit⟩ := List.append_of_mem hsend
    rw [hsplit, List.append_assoc] at htrace
    obtain ⟨j, a, body', event', hmem, hposts', hsid', hccfs⟩ :=
      start_of_sent hW as htrace (hsame.2.2.mpr (hlater.mpr hneeds))
    rw [hsame.2.1] at hposts'
    refine ⟨j, a, body', event', ?_, hposts', hsid', hccfs ccf hccf⟩
    rw [hsplit]
    exact List.mem_append_left _ hmem

end Runs

/-- A START, and the callback of its timer. -/
def startAndPop : Bool → HttpRequest
  | false => ⟨.post, ascii "/call-id/call", startBody compactPlatform 300⟩
  | true => ⟨.post, callbackUri compactPlatform (ascii "call"),
      createOpaqueData compactPlatform (startMessage 300)⟩

/-- The START comes to its end, and the callback is handled. -/
def startThenPop : List (Activity Bool) :=
  List.replicate 8 (.turn false (.work accepting)) ++ List.replicate 8 (.turn true (.work accepting))

/-- The ACR of the callback. -/
theorem acrs_report_startThenPop :
    ∃ acr body event key type, (true, .seen (.sender (.acr acr))) ∈
        (exec (attend compactPlatform plainHttp fun _ => localAndRemote) startThenPop
          (Requests.start startAndPop fun _ => .empty)).trace ∧
      Posts compactPlatform plainHttp (startAndPop true) body event key type ∧
      someDiameter.avps (ascii "realm") (ascii "new") acr =
        someDiameter.fixedAvps (ascii "realm") (ascii "new") acr ++
          event.flatMap (someDiameter.memberAvps cStr) := by
  have hany : (exec (attend compactPlatform plainHttp fun _ => localAndRemote) startThenPop
      (Requests.start startAndPop fun _ => .empty)).trace.any
        (fun x => x.1 && x.2.task.any TaskEvent.isAcr) = true := by
    decide +kernel
  obtain ⟨⟨i, e⟩, hmem, he⟩ := List.any_eq_true.mp hany
  obtain ⟨hi, hacr⟩ := Bool.and_eq_true_iff.mp he
  cases hi
  cases e with
  | reply rc => cases hacr
  | seen e =>
    cases e with
    | manager e => cases hacr
    | sender e =>
      cases e with
      | onCcfResponse accepted a => cases hacr
      | acr acr =>
        obtain ⟨pre, post, htrace⟩ := List.append_of_mem hmem
        obtain ⟨body, event, key, type, hposts, havps, -⟩ := acrs_report someDiameter
          (ascii "realm") (ascii "new") (fun _ _ => rfl) startThenPop htrace
        exact ⟨acr, body, event, key, type, hmem, hposts, havps⟩

end Ralf
