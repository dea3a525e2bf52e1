import Ralf.Progress

/-!
# One call, one session

The CCF matches the ACRs of a call by their Session-Id, which it gives out when it answers the START;
and an ACR is of use only to a CCF that has seen the START. `acrs_belong` says that the program keeps
the two together: in any interleaving, with any failures and losses, the ACR of an INTERIM or a STOP
carries the Session-Id, the CCFs and the interim interval of one and the same START of its own key,
which was accepted before the ACR was sent.

The proof follows the sessions as `Provenance` does, but the property depends on what has happened so
far: `Origin` asks for the answer in the trace, and the trace only grows.
-/

namespace Ralf

open Bytes Runs

/-! ## What threads bear -/

variable (ψ : Bytes → Session → Prop) (χ : Message → Prop)

/-- What a store will show of the session has the property. -/
def Session.Kept (key : Bytes) (sess : Session) : Prop :=
  ∀ cas, ψ key { sess.stored with cas := cas }

/-- The message of a START or an EVENT as it is sent. -/
def Message.first (msg : Message) : Message := { msg with accountingRecordNumber := 1 }

/-- A message on its way to the CCF: one with the property `χ`, with its number, or with the data of a
session that has `ψ`. -/
structure Message.Outgoing (msg : Message) : Prop where
  first : ¬msg.Later → ∃ m, χ m ∧ msg = m.first
  later : msg.Later → ∃ m sess, χ m ∧ ψ msg.key sess ∧ msg = fillIn m sess

/-- Every session in the hands of the thread has the property `ψ`, or will have it once it is
stored, and the message has `χ` until it is sent. The sender waits for the answer, not the
thread. -/
def Pc.Bears : Pc → Prop
  | .handle msg => χ msg
  | .tryRemotes msg _ => msg.Later ∧ χ msg
  | .updateLocal msg sess _ => (msg.Later ∧ χ msg) ∧ ψ msg.key sess
  | .readRemotes msg sess _ => (msg.Later ∧ χ msg) ∧ ψ msg.key sess
  | .updateRemote msg sess _ _ remoteSess _ =>
    (msg.Later ∧ χ msg) ∧ ψ msg.key sess ∧ ψ msg.key remoteSess
  | .deleteLocal msg sess => (msg.Later ∧ χ msg) ∧ ψ msg.key sess
  | .deleteRemotes msg sess _ => (msg.Later ∧ χ msg) ∧ ψ msg.key sess
  | .send msg => msg.Outgoing ψ χ
  | .awaitAnswer _ => False
  | .createTimer msg interimInterval sessionId =>
    ∀ timerId, (startSession msg interimInterval sessionId timerId).Kept ψ msg.key
  | .writeSession msg sess _ => sess.Kept ψ msg.key
  | .writeTimerId msg _ _ _ sess _ => ψ msg.key sess
  | _ => True

/-- What the call writes will have the property, and what follows it bears it. -/
def Action.Bears : Action → Prop
  | .get _ key k => (k none).Bears ψ χ ∧ ∀ sess, ψ key sess → (k (some sess)).Bears ψ χ
  | .set _ key sess _ k => sess.Kept ψ key ∧ ∀ rc, (k rc).Bears ψ χ
  | .casDelete _ _ _ k => ∀ rc, (k rc).Bears ψ χ
  | .delete _ _ k => ∀ rc, (k rc).Bears ψ χ
  | .timer _ k => ∀ id, (k id).Bears ψ χ
  | .send _ pc => pc.Bears ψ χ
  | .answer k => ∀ a, (k a).Bears ψ χ
  | .healthCheckPassed pc => pc.Bears ψ χ
  | .goto pc => pc.Bears ψ χ

/-- The property does not depend on the number, the timer id and the version of a session, and what
a store shows of a session still has it. -/
structure Lasting : Prop where
  stored : ∀ key sess, ψ key sess → sess.Kept ψ key
  number : ∀ key sess n, ψ key sess → ψ key { sess with acctRecordNumber := n }
  timerId : ∀ key sess timerId, ψ key sess → ψ key { sess with timerId := timerId }

variable {ψ χ}

theorem not_later_of_start {msg : Message} (h : msg.recordType = .start) : ¬msg.Later := by
  rintro (hi | hs)
  · exact AccountingRecordType.ne_interim_of_start h hi
  · exact AccountingRecordType.ne_stop_of_start h hs

theorem Message.Outgoing.mono {ψ' : Bytes → Session → Prop}
    (hψ : ∀ key sess, ψ key sess → ψ' key sess) {msg : Message} (h : msg.Outgoing ψ χ) :
    msg.Outgoing ψ' χ where
  first := h.first
  later := by
    intro hlater
    obtain ⟨m, sess, hm, hsess, heq⟩ := h.later hlater
    exact ⟨m, sess, hm, hψ _ _ hsess, heq⟩

section Steps

variable {P : Platform} {site : Site} {pc : Pc} {W : World} {msg : Message}

theorem bears_found (h : Lasting ψ) (hmsg : msg.Later ∧ χ msg) {sess : Session} (hsess : ψ msg.key sess)
    (newSession : Bool) : (found msg sess newSession).Bears ψ χ := by
  unfold found
  dsimp only
  split_ifs
  · exact ⟨hmsg, h.number _ _ _ hsess⟩
  · exact ⟨hmsg, h.number _ _ _ hsess⟩

theorem outgoing_fillIn (hmsg : msg.Later ∧ χ msg) {sess : Session} (hsess : ψ msg.key sess) :
    (fillIn msg sess).Outgoing ψ χ :=
  ⟨fun hnot => absurd hmsg.1 hnot, fun _ => ⟨msg, sess, hmsg.2, hsess, rfl⟩⟩

/-- `on_ccf_response` bears what the accepted START was given. -/
theorem bears_onCcfResponse (site : Site) (accepted : Bool) (a : Answer)
    (hstart : accepted = true → msg.recordType = .start → ∀ timerId,
      (startSession msg (resolveInterval msg a.interimInterval) a.sessionId timerId).Kept ψ
        msg.key) :
    (onCcfResponse site accepted a.interimInterval a.sessionId a.rc msg).Bears ψ χ := by
  unfold onCcfResponse
  dsimp only
  split_ifs with h1 h2 h3
  · trivial
  · exact hstart h1 (AccountingRecordType.isStart_iff.mp h3)
  · exact hstart h1 (AccountingRecordType.isStart_iff.mp h3) NO_TIMER
  all_goals trivial

theorem bears_next (h : Lasting ψ) (P : Platform) (site : Site)
    (hpc : pc.Bears ψ χ) (hsend : ¬∃ msg, pc = .send msg) :
    (next P site pc).Bears ψ χ := by
  cases pc with
  | handle msg =>
    simp only [next]
    split_ifs with hlater
    · have hmsg : msg.Later ∧ χ msg := ⟨Message.later_iff.mpr hlater, hpc⟩
      exact ⟨hmsg, fun sess hsess => bears_found h hmsg hsess false⟩
    · exact ⟨fun _ => ⟨msg, hpc, rfl⟩, fun hmsg => absurd (Message.later_iff.mp hmsg) hlater⟩
  | tryRemotes msg rest =>
    cases rest with
    | nil => trivial
    | cons s rest => exact ⟨hpc, fun sess hsess => bears_found h hpc hsess true⟩
  | updateLocal msg sess newSession =>
    refine ⟨h.stored _ _ hpc.2, fun rc => ?_⟩
    dsimp only
    split_ifs
    · exact hpc.1.2
    · exact hpc
  | readRemotes msg sess rest =>
    cases rest with
    | nil => exact outgoing_fillIn hpc.1 hpc.2
    | cons s rest =>
      exact ⟨⟨hpc.1, hpc.2, hpc.2⟩, fun v hv => ⟨hpc.1, hpc.2, h.number _ _ _ hv⟩⟩
  | updateRemote msg sess s rest remoteSess newSession =>
    refine ⟨h.stored _ _ hpc.2.2, fun rc => ?_⟩
    dsimp only
    split_ifs <;> exact ⟨hpc.1, hpc.2.1⟩
  | deleteLocal msg sess =>
    intro rc
    dsimp only
    split_ifs
    · exact hpc.1.2
    · exact hpc
  | deleteRemotes msg sess rest =>
    cases rest with
    | nil =>
      simp only [next]
      split_ifs
      · exact fun _ => outgoing_fillIn hpc.1 hpc.2
      · exact outgoing_fillIn hpc.1 hpc.2
    | cons s rest =>
      intro rc
      dsimp only
      split_ifs <;> exact hpc
  | send msg => exact absurd ⟨msg, rfl⟩ hsend
  | awaitAnswer msg => exact hpc.elim
  | deleteUnknown msg rest =>
    cases rest with
    | nil => trivial
    | cons s rest => exact fun _ => trivial
  | createTimer msg interimInterval sessionId => exact fun id => hpc (id.getD NO_TIMER)
  | writeSession msg sess rest =>
    cases rest with
    | nil => trivial
    | cons s rest => exact ⟨hpc, fun _ => hpc⟩
  | sendChronosUpdate msg interimInterval accepted =>
    intro id
    dsimp only
    split_ifs <;> trivial
  | readTimerId msg timerId rest accepted =>
    cases rest with
    | nil => trivial
    | cons s rest => exact ⟨trivial, fun v hv => h.timerId _ _ _ hv⟩
  | writeTimerId msg timerId s rest sess accepted => exact ⟨h.stored _ _ hpc, fun _ => trivial⟩
  | finish accepted =>
    simp only [next]
    split_ifs <;> trivial
  | done => trivial
  | aborted => trivial

theorem bears_perform (hW : Stocked ψ P W) (env : Env) {a : Action} (ha : a.Bears ψ χ) :
    Stocked ψ P (perform P env W a).2.1 ∧ (perform P env W a).1.Bears ψ χ := by
  cases a with
  | get s key k =>
    simp only [perform]
    split
    · rename_i sess hget
      cases sess with
      | none => exact ⟨hW, ha.1⟩
      | some sess => exact ⟨hW, ha.2 sess (hW s _ key sess hget)⟩
    · exact ⟨hW, trivial⟩
  | set s key sess newSession k =>
    refine ⟨hW.update fun e key' v hget => ?_, ha.2 _⟩
    rcases getSessionData_setSessionData hget with hold | ⟨rfl, rfl⟩
    · exact hW s e key' v hold
    · exact ha.1 _
  | casDelete s key sess k =>
    exact ⟨hW.update fun e key' v hget =>
      hW s e key' v (getSessionData_deleteSessionDataCas hget), ha _⟩
  | delete s key k =>
    exact ⟨hW.update fun e key' v hget =>
      hW s e key' v (getSessionData_deleteSessionData hget), ha _⟩
  | timer req k => exact ⟨hW, ha _⟩
  | send msg pc => exact ⟨hW, ha⟩
  | answer k => exact ⟨hW, ha _⟩
  | healthCheckPassed pc => exact ⟨hW, ha⟩
  | goto pc => exact ⟨hW, ha⟩

theorem Pc.Bears.mono {ψ' : Bytes → Session → Prop} (hψ : ∀ key sess, ψ key sess → ψ' key sess)
    (h : pc.Bears ψ χ) : pc.Bears ψ' χ := by
  cases pc with
  | updateLocal msg sess newSession => exact ⟨h.1, hψ _ _ h.2⟩
  | readRemotes msg sess rest => exact ⟨h.1, hψ _ _ h.2⟩
  | updateRemote msg sess s rest remoteSess newSession =>
    exact ⟨h.1, hψ _ _ h.2.1, hψ _ _ h.2.2⟩
  | deleteLocal msg sess => exact ⟨h.1, hψ _ _ h.2⟩
  | deleteRemotes msg sess rest => exact ⟨h.1, hψ _ _ h.2⟩
  | send msg => exact Message.Outgoing.mono hψ h
  | createTimer msg interimInterval sessionId => exact fun t cas => hψ _ _ (h t cas)
  | writeSession msg sess rest => exact fun cas => hψ _ _ (h cas)
  | writeTimerId msg timerId s rest sess accepted => exact hψ _ _ h
  | _ => exact h

end Steps

/-! ## Origins -/

/-- The session is that of the START, which was accepted with this answer. -/
structure Session.OfStart (msg : Message) (a : Answer) (sess : Session) : Prop where
  sessionId : sess.sessionId = cStr a.sessionId
  ccf : sess.ccf = msg.ccfs.map cStr
  sessionRefreshTime : sess.sessionRefreshTime = msg.sessionRefreshTime
  interimInterval : sess.interimInterval = resolveInterval msg a.interimInterval

section Origins

variable {κ : Type} (msg : κ → Message)

/-- The session is that of a START of the key that was accepted before. -/
def Origin (tr : List (κ × TaskEvent)) (key : Bytes) (sess : Session) : Prop :=
  ∃ i a, (i, TaskEvent.sender (.onCcfResponse true a)) ∈ tr ∧ (msg i).recordType = .start ∧
    (msg i).key = key ∧ sess.OfStart (msg i) a

variable {msg}

theorem lasting_origin (tr : List (κ × TaskEvent)) : Lasting (Origin msg tr) where
  stored := by
    rintro key sess ⟨i, a, hmem, hstart, hkey, hsess⟩ cas
    refine ⟨i, a, hmem, hstart, hkey, ?_, ?_, hsess.sessionRefreshTime, hsess.interimInterval⟩
    · show cStr sess.sessionId = _
      rw [hsess.sessionId, cStr_cStr]
    · show sess.ccf.map cStr = _
      rw [hsess.ccf, List.map_map]
      congr 1
      funext c
      exact cStr_cStr c
  number := by
    rintro key sess n ⟨i, a, hmem, hstart, hkey, hsess⟩
    exact ⟨i, a, hmem, hstart, hkey, hsess.1, hsess.2, hsess.3, hsess.4⟩
  timerId := by
    rintro key sess t ⟨i, a, hmem, hstart, hkey, hsess⟩
    exact ⟨i, a, hmem, hstart, hkey, hsess.1, hsess.2, hsess.3, hsess.4⟩

theorem Origin.mono {tr tr' : List (κ × TaskEvent)} (h : tr ⊆ tr') {key : Bytes} {sess : Session}
    (ho : Origin msg tr key sess) : Origin msg tr' key sess := by
  obtain ⟨i, a, hmem, hrest⟩ := ho
  exact ⟨i, a, h hmem, hrest⟩

/-- The session of a START that has just been accepted. -/
theorem origin_start {tr : List (κ × TaskEvent)} {i : κ} {a : Answer}
    (hmem : (i, TaskEvent.sender (.onCcfResponse true a)) ∈ tr) {m : Message}
    (hm : m = (msg i).first) (hstart : m.recordType = .start) (timerId : Bytes) :
    (startSession m (resolveInterval m a.interimInterval) a.sessionId timerId).Kept
      (Origin msg tr) m.key := by
  subst hm
  intro cas
  exact ⟨i, a, hmem, hstart, rfl, rfl, rfl, rfl, rfl⟩

end Origins

/-! ## Tasks -/

/-- What the task bears, with its sender. -/
def Task.Bears (ψ : Bytes → Session → Prop) (χ : Message → Prop) : Task → Prop
  | .manager pc => pc.Bears ψ χ
  | .sender pm => pm.msg.Outgoing ψ χ
  | .undefined => True

section Tasks

variable {P : Platform} {κ : Type} {msg : κ → Message} {site : Site} {W : World}

/-- What a task hands to a sender: its message, with the data of its session if it has one. -/
structure Sent (msg : κ → Message) (i : κ) (tr : List (κ × TaskEvent)) (m : Message) (sid : Bytes) :
    Prop where
  sid : m.sessionId ≠ [] → sid = m.sessionId
  outgoing : m.Outgoing (Origin msg tr) (· = msg i)

theorem Task.Bears.mono {ψ ψ' : Bytes → Session → Prop} {χ : Message → Prop}
    (hψ : ∀ key sess, ψ key sess → ψ' key sess) {t : Task} (h : t.Bears ψ χ) : t.Bears ψ' χ := by
  cases t with
  | manager pc => exact Pc.Bears.mono hψ h
  | sender pm => exact Message.Outgoing.mono hψ h
  | undefined => trivial

theorem Stocked.mono {ψ ψ' : Bytes → Session → Prop} (hψ : ∀ key sess, ψ key sess → ψ' key sess)
    (h : Stocked ψ P W) : Stocked ψ' P W :=
  fun s e key sess hget => hψ key sess (h s e key sess hget)

/-- What is handed to a sender is what the task was about to send. -/
theorem eq_send_of_mem {t : Task} {x : TaskEnv} {m : Message} {sid : Bytes}
    (h : .manager (.send m sid) ∈ (taskStep P site x t W).2.2) :
    t = .manager (.send m) ∧ sid = acrSessionId x.env m := by
  have hsender : ∀ es : List SenderEvent,
      TaskEvent.manager (.send m sid) ∉ es.map TaskEvent.sender := by
    intro es hmem
    obtain ⟨e, -, he⟩ := List.mem_map.mp hmem
    cases he
  cases t with
  | manager pc =>
    by_cases hsend : ∃ msg, pc = .send msg
    · obtain ⟨m', rfl⟩ := hsend
      rcases List.mem_cons.mp h with heq | hmem
      · cases heq
        exact ⟨rfl, rfl⟩
      · exact absurd hmem (hsender _)
    · rw [taskStep_manager P site x W hsend] at h
      obtain ⟨e, he, heq⟩ := List.mem_map.mp h
      cases heq
      exact absurd ⟨m, send_of_event he⟩ hsend
  | sender pm => exact absurd h (hsender _)
  | undefined => cases h

/-- **One step of a task**, `tr` being the trace up to it and `tr'` the trace with what is seen of
it. -/
theorem Task.Bears.step {i : κ} {t : Task} {tr tr' : List (κ × TaskEvent)}
    (h : t.Bears (Origin msg tr) (· = msg i)) (hW : Stocked (Origin msg tr) P W)
    (x : TaskEnv) (htr : tr ⊆ tr')
    (hnew : ∀ e ∈ (taskStep P site x t W).2.2, (i, e) ∈ tr') :
    Stocked (Origin msg tr') P (taskStep P site x t W).2.1 ∧
      (taskStep P site x t W).1.Bears (Origin msg tr') (· = msg i) ∧
      ∀ m sid, .manager (.send m sid) ∈ (taskStep P site x t W).2.2 → Sent msg i tr m sid := by
  have hgrow : ∀ key sess, Origin msg tr key sess → Origin msg tr' key sess :=
    fun _ _ ho => ho.mono htr
  have hsent : ∀ m sid, .manager (.send m sid) ∈ (taskStep P site x t W).2.2 →
      Sent msg i tr m sid := by
    intro m sid hmem
    obtain ⟨rfl, rfl⟩ := eq_send_of_mem hmem
    exact ⟨fun hne => if_neg hne, h⟩
  cases t with
  | manager pc =>
    by_cases hsend : ∃ msg, pc = .send msg
    · obtain ⟨m, rfl⟩ := hsend
      refine ⟨hW.mono hgrow, ?_, hsent⟩
      rcases send_cases m with hs | ⟨acr, hs⟩
      · simp only [taskStep, hs, Task.ofResult]
        trivial
      · simp only [taskStep, hs, Task.ofResult]
        exact Message.Outgoing.mono hgrow h
    · rw [taskStep_manager P site x W hsend] at hnew hsent ⊢
      have hpc : pc.Bears (Origin msg tr) (· = msg i) := h
      obtain ⟨hW', hpc'⟩ :=
        bears_perform hW x.env (bears_next (lasting_origin tr) P site hpc hsend)
      exact ⟨hW'.mono hgrow, Pc.Bears.mono hgrow hpc', hsent⟩
  | sender pm =>
    refine ⟨hW.mono hgrow, ?_, hsent⟩
    simp only [taskStep] at hnew ⊢
    cases hcb : pm.sendCb x.outcome.sendCb with
    | sent pm' acr =>
      show pm'.msg.Outgoing (Origin msg tr') (· = msg i)
      rw [msg_of_sendCb hcb]
      exact Message.Outgoing.mono hgrow h
    | answered accepted a =>
      -- the answer is in the trace from now on
      rw [hcb] at hnew
      show (onCcfResponse site accepted a.interimInterval a.sessionId a.rc pm.msg).Bears
        (Origin msg tr') (· = msg i)
      refine bears_onCcfResponse site accepted a fun hacc hstart => ?_
      subst hacc
      obtain ⟨m, rfl, hm⟩ := h.first (not_later_of_start hstart)
      exact origin_start (hnew _ (List.mem_singleton.mpr rfl)) hm hstart
    | undefined => trivial
  | undefined => exact ⟨hW.mono hgrow, trivial, hsent⟩

end Tasks

/-! ## Runs -/

/-- An element of `l ++ es` has the same elements before it as in `l`, or it is in `es` and has all of
`l` before it. -/
theorem split_append {α : Type*} {l es pre post : List α} {e : α}
    (h : l ++ es = pre ++ e :: post) :
    (∃ post', l = pre ++ e :: post') ∨ (l ⊆ pre ∧ e ∈ es) := by
  rcases List.append_eq_append_iff.mp h with ⟨m, rfl, hes⟩ | ⟨m, rfl, hpost⟩
  · refine .inr ⟨List.subset_append_left l m, ?_⟩
    rw [hes]
    simp
  · cases m with
    | nil =>
      refine .inr ⟨by simp, ?_⟩
      rw [List.nil_append] at hpost
      rw [← hpost]
      exact List.mem_cons_self
    | cons x m =>
      rw [List.cons_append] at hpost
      cases hpost
      exact .inl ⟨m, rfl⟩

section Runs

variable {P : Platform} {κ : Type} [DecidableEq κ] {site : κ → Site} {msg : κ → Message}

/-- Every session has its origin, in the stores and in the tasks, and what was sent had it then. -/
structure Authentic (P : Platform) (msg : κ → Message) (σ : Tasks κ) : Prop where
  stores : Stocked (Origin msg σ.trace) P σ.shared
  task : ∀ i, (σ.pc i).Bears (Origin msg σ.trace) (· = msg i)
  sent : ∀ pre post i m sid, σ.trace = pre ++ (i, .manager (.send m sid)) :: post →
    Sent msg i pre m sid

theorem Authentic.step {σ : Tasks κ} (h : Authentic P msg σ) (a : Happening κ) :
    Authentic P msg (happen P site a σ) := by
  cases a with
  | lose s lost => exact ⟨h.stores.lose s lost, h.task, h.sent⟩
  | move i x =>
    have hgrow : σ.trace ⊆ (tasksStep P site (i, x) σ).trace := List.subset_append_left _ _
    have hnew : ∀ e ∈ (taskStep P (site i) x (σ.pc i) σ.shared).2.2,
        (i, e) ∈ (tasksStep P site (i, x) σ).trace := fun e he =>
      List.mem_append_right _ (List.mem_map.mpr ⟨e, he, rfl⟩)
    obtain ⟨hW, htask, hsent⟩ := (h.task i).step h.stores x hgrow hnew
    refine ⟨hW, ?_, ?_⟩
    · exact (Function.forall_update_iff σ.pc fun j t =>
        t.Bears (Origin msg (tasksStep P site (i, x) σ).trace) (· = msg j)).mpr
          ⟨htask, fun j _ => (h.task j).mono fun _ _ ho => ho.mono hgrow⟩
    · intro pre post j m sid htrace
      rcases split_append htrace with ⟨post', hold⟩ | ⟨hsub, hmem⟩
      · exact h.sent pre post' j m sid hold
      · obtain ⟨e, he, heq⟩ := List.mem_map.mp hmem
        cases heq
        have hnow := hsent m sid he
        exact ⟨hnow.sid, hnow.outgoing.mono fun _ _ ho => ho.mono hsub⟩

omit [DecidableEq κ] in
theorem authentic_start {W : World} (hW : ∀ s key, (W s).record key = none) :
    Authentic P msg (Tasks.start msg W) := by
  refine ⟨stocked_of_empty hW, fun _ => rfl, ?_⟩
  intro pre post j m sid h
  cases pre <;> cases h

/-- **One call, one session.** In any run over stores that were empty, the message handed to a sender
for an INTERIM or a STOP has the Session-Id, the CCFs and the interim interval of one START of its
key, and its refresh time if it has none of its own; and this START had been accepted. -/
theorem acrs_belong {W : World} (hW : ∀ s key, (W s).record key = none) (as : List (Happening κ))
    {pre post : List (κ × TaskEvent)} {i : κ} {m : Message} {sid : Bytes}
    (htrace : (exec (happen P site) as (Tasks.start msg W)).trace =
      pre ++ (i, .manager (.send m sid)) :: post)
    (hlater : m.recordType = .interim ∨ m.recordType = .stop) :
    ∃ j a, (j, TaskEvent.sender (.onCcfResponse true a)) ∈ pre ∧ (msg j).recordType = .start ∧
      (msg j).key = m.key ∧ m.sessionId = cStr a.sessionId ∧ m.ccfs = (msg j).ccfs.map cStr ∧
      m.interimInterval = resolveInterval (msg j) a.interimInterval ∧
      m.sessionRefreshTime = (if (msg i).sessionRefreshTime = 0 then (msg j).sessionRefreshTime
        else (msg i).sessionRefreshTime) ∧
      (cStr a.sessionId ≠ [] → sid = cStr a.sessionId) := by
  have hsent := (exec_invariant (fun τ a h => h.step a) as (authentic_start hW)).sent pre post i m
    sid htrace
  obtain ⟨m₀, sess, rfl, ⟨j, a, hmem, htype, hkey, hsess⟩, rfl⟩ := hsent.outgoing.later hlater
  refine ⟨j, a, hmem, htype, hkey, hsess.sessionId, hsess.ccf, hsess.interimInterval, ?_, ?_⟩
  · rw [← hsess.sessionRefreshTime]
    rfl
  · rw [← hsess.sessionId]
    exact hsent.sid

end Runs

/-- Every CCF accepts, with the Session-Id `sid`. -/
def accepting : TaskEnv :=
  ⟨(Input.answering 2001).env (Nat.succPNat 0), .response ⟨some 2001, none, some (ascii "sid")⟩⟩

/-- A START and an INTERIM of its call. -/
def startAndInterim (i : Bool) : Message :=
  if i then { startMessage 300 with recordType := .interim, ccfs := [] } else startMessage 300

/-- The START comes to its end, and the INTERIM is handed to its sender. -/
def startThenInterim : List (Happening Bool) :=
  List.replicate 7 (.move false accepting) ++ List.replicate 6 (.move true accepting)

/-- A message of a session is handed to a sender. -/
def TaskEvent.sendsLater : TaskEvent → Bool
  | .manager (.send m _) => m.recordType.isInterim || m.recordType.isStop
  | _ => false

def TaskEvent.isAcr : TaskEvent → Bool
  | .sender (.acr _) => true
  | _ => false

theorem acrs_belong_startThenInterim :
    ∃ (i : Bool) (m : Message) (sid : Bytes) (j : Bool) (a : Answer),
      (i, TaskEvent.manager (.send m sid)) ∈
        (exec (happen compactPlatform fun _ => localAndRemote) startThenInterim
          (Tasks.start startAndInterim fun _ => .empty)).trace ∧
      m.Later ∧ (startAndInterim j).recordType = .start ∧ m.sessionId = cStr a.sessionId ∧
      m.ccfs = (startAndInterim j).ccfs.map cStr := by
  have hany : (exec (happen compactPlatform fun _ => localAndRemote) startThenInterim
      (Tasks.start startAndInterim fun _ => .empty)).trace.any (·.2.sendsLater) = true := by
    decide +kernel
  obtain ⟨⟨i, e⟩, hmem, he⟩ := List.any_eq_true.mp hany
  cases e with
  | sender e => cases he
  | manager e =>
    cases e with
    | timer req => cases he
    | healthCheckPassed => cases he
    | send m sid =>
      have hlater : m.Later := Message.later_iff.mpr he
      obtain ⟨pre, post, htrace⟩ := List.append_of_mem hmem
      obtain ⟨j, a, -, hstart, -, hsid, hccfs, -⟩ := acrs_belong (fun _ _ => rfl) _ htrace hlater
      exact ⟨i, m, sid, j, a, hmem, hlater, hstart, hsid, hccfs⟩

end Ralf
