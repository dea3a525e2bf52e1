import Ralf.AccountingRequest
import Ralf.ParseBody
import Ralf.Safety

/-!
# The session-control AVPs

Five AVPs of an ACR are Ralf's own: they say which session the ACR belongs to, where it goes and
which number it has. The constructor adds them, and then one AVP for each member of the event,
whatever its name. `sessionControl_avps` says for which accepted bodies an ACR has each of the five
exactly once: for those whose event has none of them.
-/

namespace Ralf

open Bytes Runs

def sessionControl : List Bytes :=
  [ascii "Session-Id", ascii "Destination-Host", ascii "Destination-Realm",
    ascii "Accounting-Record-Number", ascii "Service-Context-Id"]

/-- The value is mapped to an AVP, if its name is one. -/
def givesAvp : Json → Bool
  | .bool _ | .null => false
  | .arr xs => !xs.isEmpty
  | _ => true

namespace Diameter

variable {Dict Data : Type} (D : Diameter Dict Data)

/-- The names are those of different AVPs, and neither `add_origin` nor `add_app_id` adds one of
them. -/
structure Lawful : Prop where
  base_inj : ∀ n ∈ sessionControl, ∀ n' ∈ sessionControl, D.base n = D.base n' → n = n'
  origin : ∀ avp ∈ D.origin, ∀ n ∈ sessionControl, avp.dict ≠ D.base n
  appId : ∀ avp ∈ D.appId, ∀ n ∈ sessionControl, avp.dict ≠ D.base n

/-- How many AVPs of this name there are. -/
def count [DecidableEq Dict] (n : Bytes) (avps : List (Avp Dict Data)) : ℕ := avps.countP fun avp => avp.dict = D.base n

/-- Each of the five is there once, and the record number is this one. -/
def OneOfEach [DecidableEq Dict] (avps : List (Avp Dict Data)) (number : UInt32) : Prop :=
  (∀ n ∈ sessionControl, D.count n avps = 1) ∧
    ∀ avp ∈ avps, avp.dict = D.base (ascii "Accounting-Record-Number") →
      avp = D.i32Avp (ascii "Accounting-Record-Number") number.toInt32

/-- No member of the event that is mapped to an AVP has a name under which the dictionary has one of
the five. -/
def ControlFree (event : List (Bytes × Json)) : Prop :=
  ∀ m ∈ event, ∀ n ∈ sessionControl, D.find VENDORS (cStr m.1) = some (D.base n) →
    givesAvp m.2 = false

variable {D}

/-! ## One ACR -/

theorem mem_memberAvps {m : Bytes × Json} {d : Dict} :
    (∃ avp ∈ D.memberAvps cStr m, avp.dict = d) ↔
      D.find VENDORS (cStr m.1) = some d ∧ givesAvp m.2 = true := by
  obtain ⟨name, v⟩ := m
  unfold memberAvps
  cases hfind : D.find VENDORS (cStr name) with
  | none => simp
  | some dict =>
    cases v with
    | arr xs =>
      cases xs with
      | nil => simp [givesAvp]
      | cons x xs => simp [givesAvp]
    | _ => simp [givesAvp]

theorem Lawful.recordNumber_fixedAvps (hD : D.Lawful) (destRealm newSessionId : Bytes)
    (acr : AccountingRequest) {avp : Avp Dict Data}
    (havp : avp ∈ D.fixedAvps destRealm newSessionId acr)
    (hdict : avp.dict = D.base (ascii "Accounting-Record-Number")) :
    avp = D.i32Avp (ascii "Accounting-Record-Number") acr.recordNumber.toInt32 := by
  have hother : ∀ n ∈ sessionControl, n ≠ ascii "Accounting-Record-Number" →
      D.base n ≠ D.base (ascii "Accounting-Record-Number") := by
    intro n hn hne heq
    exact hne (hD.base_inj n hn _ (by decide) heq)
  simp only [fixedAvps, List.mem_append, List.mem_cons, List.not_mem_nil, or_false] at havp
  rcases havp with ((rfl | horigin) | happId) | rfl | rfl | rfl | rfl
  · exact absurd hdict (hother _ (by decide) (by decide))
  · exact absurd hdict (hD.origin avp horigin _ (by decide))
  · exact absurd hdict (hD.appId avp happId _ (by decide))
  · exact absurd hdict (hother _ (by decide) (by decide))
  · exact absurd hdict (hother _ (by decide) (by decide))
  · rfl
  · exact absurd hdict (hother _ (by decide) (by decide))

variable [DecidableEq Dict]

/-- The event adds none of the five if and only if it is free of them. -/
theorem controlFree_iff {event : List (Bytes × Json)} :
    D.ControlFree event ↔
      ∀ n ∈ sessionControl, D.count n (event.flatMap (D.memberAvps cStr)) = 0 := by
  unfold ControlFree count
  constructor
  · intro h n hn
    rw [List.countP_eq_zero]
    intro avp havp
    obtain ⟨m, hm, hmem⟩ := List.mem_flatMap.mp havp
    rw [decide_eq_true_eq]
    intro hdict
    obtain ⟨hfind, hgives⟩ := mem_memberAvps.mp ⟨avp, hmem, hdict⟩
    rw [h m hm n hn hfind] at hgives
    cases hgives
  · intro h m hm n hn hfind
    by_contra hgives
    obtain ⟨avp, hmem, hdict⟩ := mem_memberAvps.mpr ⟨hfind, by simpa using hgives⟩
    have hzero := List.countP_eq_zero.mp (h n hn) avp (List.mem_flatMap.mpr ⟨m, hm, hmem⟩)
    rw [decide_eq_true_eq] at hzero
    exact hzero hdict

theorem count_append (n : Bytes) (xs ys : List (Avp Dict Data)) :
    D.count n (xs ++ ys) = D.count n xs + D.count n ys := List.countP_append

theorem Lawful.count_fixedAvps (hD : D.Lawful) (destRealm newSessionId : Bytes)
    (acr : AccountingRequest) {n : Bytes} (hn : n ∈ sessionControl) :
    D.count n (D.fixedAvps destRealm newSessionId acr) = 1 := by
  have hother : ∀ avps : List (Avp Dict Data),
      (∀ avp ∈ avps, ∀ n ∈ sessionControl, avp.dict ≠ D.base n) → D.count n avps = 0 := by
    intro avps h
    rw [count, List.countP_eq_zero]
    intro avp havp
    simpa using h avp havp n hn
  have hnames : D.count n (D.fixedAvps destRealm newSessionId acr) =
      sessionControl.countP fun n' => D.base n' = D.base n := by
    rw [fixedAvps, count_append, count_append, count_append, hother _ hD.origin,
      hother _ hD.appId, Nat.add_zero, ← count_append]
    rfl
  have hsame : (sessionControl.countP fun n' => D.base n' = D.base n) =
      sessionControl.countP fun n' => n' = n := by
    apply List.countP_congr
    intro n' hn'
    rw [decide_eq_true_eq, decide_eq_true_eq]
    exact ⟨hD.base_inj n' hn' n hn, congrArg D.base⟩
  have hone : ∀ n ∈ sessionControl, (sessionControl.countP fun n' => n' = n) = 1 := by decide
  rw [hnames, hsame, hone n hn]

/-- An ACR has each of the five once if and only if its event is free of them. -/
theorem Lawful.oneOfEach_iff (hD : D.Lawful) (destRealm newSessionId : Bytes)
    {acr : AccountingRequest} {event : List (Bytes × Json)} (hevent : acr.contents = .obj event) :
    D.OneOfEach (D.avps destRealm newSessionId acr) acr.recordNumber ↔ D.ControlFree event := by
  rw [D.avps_eq destRealm newSessionId hevent, controlFree_iff]
  have hcount : ∀ n ∈ sessionControl,
      (D.count n (D.fixedAvps destRealm newSessionId acr ++ event.flatMap (D.memberAvps cStr)) = 1 ↔
        D.count n (event.flatMap (D.memberAvps cStr)) = 0) := by
    intro n hn
    rw [count_append, hD.count_fixedAvps destRealm newSessionId acr hn]
    omega
  constructor
  · intro h n hn
    exact (hcount n hn).mp (h.1 n hn)
  · intro h
    refine ⟨fun n hn => (hcount n hn).mpr (h n hn), ?_⟩
    intro avp havp hdict
    rcases List.mem_append.mp havp with hfixed | hevent
    · exact hD.recordNumber_fixedAvps destRealm newSessionId acr hfixed hdict
    · have hzero := List.countP_eq_zero.mp (h (ascii "Accounting-Record-Number") (by decide)) avp hevent
      rw [decide_eq_true_eq] at hzero
      exact absurd hdict hzero

end Diameter

/-! ## The ACRs of a task -/

section Tasks

variable {P : Platform} {site : Site} {pm : PeerMessageSender} {acr : AccountingRequest}

/-- An ACR for one of the CCFs of the message. -/
def IsAcrOf (msg : Message) (acr : AccountingRequest) : Prop :=
  ∃ event ccf, msg.receivedJson.findMember (ascii "event") = .ok (some event) ∧
    acr = PeerMessageSender.accountingRequest msg event ccf

theorem isAcrOf_intSendMsg (h : .acr acr ∈ pm.intSendMsg.events) : IsAcrOf pm.msg acr := by
  unfold PeerMessageSender.intSendMsg at h
  split at h
  · rename_i ccf event _ hevent
    cases List.mem_singleton.mp h
    exact ⟨event, ccf, hevent, rfl⟩
  · cases h

theorem isAcrOf_sendCb {r : SendCb} (h : .acr acr ∈ (pm.sendCb r).events) : IsAcrOf pm.msg acr := by
  unfold PeerMessageSender.sendCb at h
  split_ifs at h
  · cases List.mem_singleton.mp h
  · split at h
    · cases h
    · dsimp only at h
      split_ifs at h
      · exact @isAcrOf_intSendMsg { pm with which := pm.which + 1 } acr h
      · cases List.mem_singleton.mp h

variable (site) in
/-- One step of a task: an ACR is one of the message that is handed to the sender in this step, or
was before. -/
theorem acr_of_taskStep {t : Task} {W : World} {x : TaskEnv}
    (h : .sender (.acr acr) ∈ (taskStep P site x t W).2.2) :
    ∃ m, t.pc.message = some m ∧ IsAcrOf m acr ∧
      ((∃ sid, .manager (.send m sid) ∈ (taskStep P site x t W).2.2) ∨
        ∃ pm, t = .sender pm ∧ pm.msg = m) := by
  have hacr : ∀ es : List SenderEvent,
      TaskEvent.sender (.acr acr) ∈ es.map TaskEvent.sender → .acr acr ∈ es := by
    intro es hmem
    obtain ⟨e, he, heq⟩ := List.mem_map.mp hmem
    cases heq
    exact he
  cases t with
  | manager pc =>
    by_cases hsend : ∃ msg, pc = .send msg
    · obtain ⟨msg, rfl⟩ := hsend
      rcases List.mem_cons.mp h with heq | hmem
      · cases heq
      · exact ⟨msg, rfl, isAcrOf_intSendMsg (hacr _ hmem), .inl ⟨_, List.mem_cons_self⟩⟩
    · rw [taskStep_manager P site x W hsend] at h
      obtain ⟨e, -, heq⟩ := List.mem_map.mp h
      cases heq
  | sender pm => exact ⟨pm.msg, rfl, isAcrOf_sendCb (hacr _ h), .inr ⟨pm, rfl, rfl⟩⟩
  | undefined => cases h

variable (site) in
/-- A task that is with a sender was handed to it in this step, or was with it before. -/
theorem sender_of_taskStep {t : Task} {W : World} {x : TaskEnv}
    (h : (taskStep P site x t W).1 = .sender pm) :
    (∃ sid, .manager (.send pm.msg sid) ∈ (taskStep P site x t W).2.2) ∨
      ∃ pm', t = .sender pm' ∧ pm'.msg = pm.msg := by
  cases t with
  | manager pc =>
    by_cases hsend : ∃ msg, pc = .send msg
    · obtain ⟨msg, rfl⟩ := hsend
      simp only [taskStep] at h ⊢
      rcases send_cases msg with hundef | ⟨acr, hsent⟩
      · rw [hundef] at h
        cases h
      · rw [hsent] at h
        cases h
        exact .inl ⟨_, List.mem_cons_self⟩
    · rw [taskStep_manager P site x W hsend] at h
      cases h
  | sender pm' =>
    simp only [taskStep] at h
    cases hcb : pm'.sendCb x.outcome.sendCb with
    | sent pm'' acr =>
      rw [hcb] at h
      cases h
      exact .inr ⟨pm', rfl, (msg_of_sendCb hcb).symm⟩
    | answered accepted a =>
      rw [hcb] at h
      cases h
    | undefined =>
      rw [hcb] at h
      cases h
  | undefined => cases h

variable (site) in
/-- The document of a message stays the one that was received. -/
theorem receivedJson_taskStep {t : Task} {W : World} {x : TaskEnv} {doc : Json}
    (h : t.pc.Every fun m => m.receivedJson = doc) :
    (taskStep P site x t W).1.pc.Every fun m => m.receivedJson = doc := by
  obtain ⟨hpc, -, -⟩ | ⟨hpc, -, -⟩ | ⟨a, heq⟩ := taskStep_cases P site x t W
  · rw [hpc]
    exact Pc.every_of_none rfl
  · rw [hpc]
    exact h
  · rw [show (taskStep P site x t W).1.pc = _ from congrArg Prod.fst heq]
    refine every_step site _ (fun m m' hid hm => ?_) h
    simp only [Message.identity, Prod.mk.injEq] at hid
    exact hid.2.2.2.1.trans hm

end Tasks

/-! ## Runs -/

section Runs

variable {P : Platform} {κ : Type} {msg : κ → Message}

/-- Every ACR of a task is one of the message it has handed to its sender. -/
structure TracedAcrs (msg : κ → Message) (σ : Tasks κ) : Prop where
  received : ∀ i, (σ.pc i).pc.Every fun m => m.receivedJson = (msg i).receivedJson
  sender : ∀ i pm, σ.pc i = .sender pm → ∃ sid, (i, .manager (.send pm.msg sid)) ∈ σ.trace
  acr : ∀ i acr, (i, .sender (.acr acr)) ∈ σ.trace →
    ∃ m sid, (i, .manager (.send m sid)) ∈ σ.trace ∧ m.receivedJson = (msg i).receivedJson ∧
      IsAcrOf m acr

theorem tracedAcrs_start (W : World) : TracedAcrs msg (Tasks.start msg W) where
  received := fun _ => Pc.every_of_message rfl rfl
  sender := nofun
  acr := nofun

variable [DecidableEq κ] {site : κ → Site}

theorem TracedAcrs.step {σ : Tasks κ} (h : TracedAcrs msg σ) (a : Happening κ) :
    TracedAcrs msg (happen P site a σ) := by
  cases a with
  | lose s key => exact ⟨h.received, h.sender, h.acr⟩
  | move i x =>
    have hnew : ∀ {e : TaskEvent}, e ∈ (taskStep P (site i) x (σ.pc i) σ.shared).2.2 →
        (i, e) ∈ (happen P site (.move i x) σ).trace := fun he =>
      List.mem_append_right _ (List.mem_map_of_mem he)
    have hold : ∀ {e : κ × TaskEvent}, e ∈ σ.trace → e ∈ (happen P site (.move i x) σ).trace :=
      fun he => List.mem_append_left _ he
    refine ⟨?_, ?_, ?_⟩
    · exact (Function.forall_update_iff σ.pc fun j t => t.pc.Every fun m =>
        m.receivedJson = (msg j).receivedJson).mpr
          ⟨receivedJson_taskStep (site i) (h.received i), fun j _ => h.received j⟩
    · refine (Function.forall_update_iff σ.pc fun j t => ∀ pm, t = .sender pm →
        ∃ sid, (j, .manager (.send pm.msg sid)) ∈ (happen P site (.move i x) σ).trace).mpr
          ⟨fun pm hpm => ?_, fun j _ pm hpm => ?_⟩
      · rcases sender_of_taskStep (site i) hpm with ⟨sid, hsid⟩ | ⟨pm', hpm', hmsg⟩
        · exact ⟨sid, hnew hsid⟩
        · obtain ⟨sid, hsid⟩ := h.sender i pm' hpm'
          exact ⟨sid, hold (hmsg ▸ hsid)⟩
      · obtain ⟨sid, hsid⟩ := h.sender j pm hpm
        exact ⟨sid, hold hsid⟩
    · intro j acr hacr
      rcases List.mem_append.mp hacr with hacr | hacr
      · obtain ⟨m, sid, hsid, hdoc, hof⟩ := h.acr j acr hacr
        exact ⟨m, sid, hold hsid, hdoc, hof⟩
      · obtain ⟨e, he, heq⟩ := List.mem_map.mp hacr
        cases heq
        obtain ⟨m, hm, hof, ⟨sid, hsid⟩ | ⟨pm, hpm, rfl⟩⟩ := acr_of_taskStep (site i) he
        · exact ⟨m, sid, hnew hsid, h.received i m hm, hof⟩
        · obtain ⟨sid, hsid⟩ := h.sender i pm hpm
          exact ⟨pm.msg, sid, hold hsid, h.received i pm.msg hm, hof⟩

/-- The event of the body is free of the five AVPs. -/
def ControlFreeBody {Dict Data : Type} (D : Diameter Dict Data) (P : Platform) (reqbody : Bytes) :
    Prop :=
  ∀ body event, P.parse (cStr reqbody) = some (.obj body) →
    findMember body (ascii "event") = some (.obj event) → D.ControlFree event

theorem controlFreeBody_iff {Dict Data : Type} {D : Diameter Dict Data} {reqbody : Bytes}
    {body event : List (Bytes × Json)} (hbody : P.parse (cStr reqbody) = some (.obj body))
    (hevent : findMember body (ascii "event") = some (.obj event)) :
    ControlFreeBody D P reqbody ↔ D.ControlFree event := by
  refine ⟨fun h => h body event hbody hevent, ?_⟩
  intro h body' event' hbody' hevent'
  rw [hbody] at hbody'
  cases hbody'
  rw [hevent] at hevent'
  cases hevent'
  exact h

theorem event_of_accepted {callId reqbody : Bytes} {timerInterim : Bool} {m : Message}
    (h : BillingTask.parseBody P callId timerInterim reqbody = .ok (HTTP_OK, some m)) :
    ∃ body event, P.parse (cStr reqbody) = some (.obj body) ∧
      findMember body (ascii "event") = some (.obj event) ∧ m.receivedJson = .obj body := by
  rw [BillingTask.parseBody_eq] at h
  obtain ⟨-, -, heq⟩ | ⟨-, -, heq⟩ | ⟨-, -, m', hof, heq⟩ :=
    BillingTask.parseBody_cases P callId timerInterim reqbody
  · rw [heq] at h
    cases h
  · rw [heq] at h
    cases h
  · rw [heq] at h
    cases h
    obtain ⟨body, event, role, function, type, t, ccfs, hvalid, -, -, -, rfl⟩ := hof
    exact ⟨body, event, hvalid.parse, hvalid.eventMember, rfl⟩

/-- **The session-control AVPs.** For every ACR that is built from an accepted body, in any run of
any tasks: each of the five AVPs is there exactly once, and the record number is that of the message
the session manager has handed to the sender, if and only if no member of the event has the name of
one of the five and a value that is mapped to an AVP. -/
theorem sessionControl_avps {Dict Data : Type} [DecidableEq Dict] {D : Diameter Dict Data}
    (hD : D.Lawful) {callId reqbody : κ → Bytes} {timerInterim : κ → Bool}
    (hmsg : ∀ i, BillingTask.parseBody P (callId i) (timerInterim i) (reqbody i) =
      .ok (HTTP_OK, some (msg i)))
    (W : World) (as : List (Happening κ)) {σ : Tasks κ}
    (hσ : exec (happen P site) as (Tasks.start msg W) = σ) {i : κ} {acr : AccountingRequest}
    (hacr : (i, .sender (.acr acr)) ∈ σ.trace) (destRealm newSessionId : Bytes) :
    ∃ m sid, (i, .manager (.send m sid)) ∈ σ.trace ∧
      (D.OneOfEach (D.avps destRealm newSessionId acr) m.accountingRecordNumber ↔
        ControlFreeBody D P (reqbody i)) := by
  have htraced : TracedAcrs msg σ := by
    rw [← hσ]
    exact exec_invariant (fun τ a h => h.step a) as (tracedAcrs_start W)
  obtain ⟨m, sid, hsid, hdoc, event, ccf, hevent, rfl⟩ := htraced.acr i acr hacr
  obtain ⟨body, event', hbody, hevent', hjson⟩ := event_of_accepted (hmsg i)
  rw [hdoc, hjson, findMember_obj, hevent'] at hevent
  cases hevent
  refine ⟨m, sid, hsid, ?_⟩
  rw [controlFreeBody_iff hbody hevent']
  exact hD.oneOfEach_iff destRealm newSessionId rfl

end Runs

theorem someDiameter_lawful : someDiameter.Lawful where
  base_inj := by decide
  origin := by decide
  appId := by decide

/-- The ACR of a START without such members, in the run that times out. -/
theorem sessionControl_avps_startTimesOut :
    ∃ acr m sid, ((), TaskEvent.sender (.acr acr)) ∈
        (exec (happen compactPlatform fun _ => localAndRemote) startTimesOut
          (Tasks.start (fun _ => startMessage 300) fun _ => .empty)).trace ∧
      ((), TaskEvent.manager (.send m sid)) ∈
        (exec (happen compactPlatform fun _ => localAndRemote) startTimesOut
          (Tasks.start (fun _ => startMessage 300) fun _ => .empty)).trace ∧
      someDiameter.OneOfEach (someDiameter.avps (ascii "realm") (ascii "sid") acr)
        m.accountingRecordNumber := by
  have hmsg : ∀ _ : Unit, BillingTask.parseBody compactPlatform (ascii "call") false
      (startBody compactPlatform 300) = .ok (HTTP_OK, some (startMessage 300)) := by
    intro _
    rw [BillingTask.parseBody_eq, parseBody_startBody]
  obtain ⟨m, sid, hsid, hiff⟩ := sessionControl_avps someDiameter_lawful hmsg (fun _ => .empty)
    startTimesOut rfl (List.mem_cons_of_mem _ List.mem_cons_self) (ascii "realm") (ascii "sid")
  refine ⟨_, m, sid, List.mem_cons_of_mem _ List.mem_cons_self, hsid, hiff.mpr ?_⟩
  have hbody : compactPlatform.parse (cStr (startBody compactPlatform 300)) =
      some (startDoc 300) := by
    unfold startBody
    rw [cStr_of_nulFree (compactPlatform.nulFree_write _),
      compactPlatform.parse_write _ (plain_startDoc 300)]
  rw [controlFreeBody_iff hbody rfl]
  unfold Diameter.ControlFree
  decide

/-! ## An event with a record number of its own -/

/-- A START whose event has an Accounting-Record-Number. -/
def numberedEvent : List (Bytes × Json) :=
  [(ascii "Accounting-Record-Type", .int 2), (ascii "Accounting-Record-Number", .int 7),
    (ascii "Service-Information", .obj [
      (ascii "IMS-Information", .obj [
        (ascii "Role-Of-Node", .int 0),
        (ascii "Node-Functionality", .int 0)])])]

def numberedDoc : Json :=
  .obj [
    (ascii "peers", .obj [(ascii "ccf", .arr [.str (ascii "ccf")])]),
    (ascii "event", .obj numberedEvent)]

def numberedMessage : Message :=
  { Message.new (ascii "call") 0 0 numberedDoc .start 0 false with ccfs := [ascii "ccf"] }

def numberedAcr : AccountingRequest := ⟨[], ascii "ccf", 1, .obj numberedEvent⟩

/-- The body is accepted, and its ACR has two record numbers. -/
theorem numberedAcr_twice :
    BillingTask.parseBody compactPlatform (ascii "call") false (compactPlatform.write numberedDoc) =
        .ok (HTTP_OK, some numberedMessage) ∧
      ((), TaskEvent.sender (.acr numberedAcr)) ∈
        (exec (happen compactPlatform fun _ => localAndRemote) startTimesOut
          (Tasks.start (fun _ => numberedMessage) fun _ => .empty)).trace ∧
      someDiameter.count (ascii "Accounting-Record-Number")
        (someDiameter.avps (ascii "realm") (ascii "sid") numberedAcr) = 2 ∧
      ∀ number, ¬someDiameter.OneOfEach
        (someDiameter.avps (ascii "realm") (ascii "sid") numberedAcr) number := by
  have htwo : someDiameter.count (ascii "Accounting-Record-Number")
      (someDiameter.avps (ascii "realm") (ascii "sid") numberedAcr) = 2 := by
    rw [someDiameter.avps_eq (ascii "realm") (ascii "sid")
      (show numberedAcr.contents = .obj numberedEvent from rfl)]
    decide
  refine ⟨?_, List.mem_cons_of_mem _ List.mem_cons_self, htwo, ?_⟩
  · unfold BillingTask.parseBody
    rw [cStr_of_nulFree (compactPlatform.nulFree_write _), compactPlatform.parse_write _ rfl]
    rfl
  · intro number h
    have hone := h.1 (ascii "Accounting-Record-Number") (by decide)
    rw [htwo] at hone
    cases hone

end Ralf
