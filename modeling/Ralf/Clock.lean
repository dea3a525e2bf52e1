import Ralf.Callback
import Ralf.Projection
import Ralf.Protocol
import Ralf.TimerPops

/-!
# Calls without a STOP

A call may end without a STOP: the node that would send it has failed. Then nothing tells the program
that the session is of no use any more, and it is left to time: the record in a store is written with
an expiry, Chronos repeats a timer only for so long, and the callback of a timer, which is an INTERIM
of the call and writes the record again, does not arm the timer again. `abandoned_forgotten` adds
this up for any interleaving: if what is not a callback has come to its end by the time `T`, nothing
is seen of the call after `T + ρ + Δ`, and no record of it is kept beyond `T + 3 * ρ + Δ`, where `ρ`
bounds the refresh times of the call's messages and `Δ` the time a callback takes.

Time is only observed here. Each step comes with the time it is made at, and `Clocked` notes down
when something was seen and when a record runs out.
-/

namespace Ralf

open Bytes Runs

/-! ## The clock -/

/-- Tasks, with the time each record runs out and the times at which something was seen. -/
structure Clocked (κ : Type) where
  tasks : Tasks κ
  expires : StoreId → Bytes → ℕ
  log : List (ℕ × κ × TaskEvent)

section Machine

variable (P : Platform)

/-- The record a call puts into a store, and for how long. -/
def Action.lease (env : Env) (W : World) : Action → Option (StoreId × Bytes × Int32)
  | .set s key sess newSession _ =>
    if (setSessionData P (W s) (env.store s) key sess newSession).1 = .ok then
      some (s, key, sess.expiry)
    else none
  | _ => none

def Task.lease (site : Site) (x : TaskEnv) (W : World) : Task → Option (StoreId × Bytes × Int32)
  | .manager pc => (next P site pc).lease P x.env W
  | _ => none

variable {κ : Type}

/-- When the records run out after one was put into a store. -/
def Clocked.renew (c : Clocked κ) (t : ℕ) : Option (StoreId × Bytes × Int32) → StoreId → Bytes → ℕ
  | some (s, key, expiry) =>
    Function.update c.expires s (Function.update (c.expires s) key (t + expiry.toInt.toNat))
  | none => c.expires

variable [DecidableEq κ]

/-- A step at the time it is made. -/
def clockStep (site : κ → Site) : ℕ × Happening κ → Clocked κ → Clocked κ
  | (t, .move i x), c =>
    { tasks := happen P site (.move i x) c.tasks
      expires := c.renew t ((c.tasks.pc i).lease P (site i) x c.tasks.shared)
      log := c.log ++
        (taskStep P (site i) x (c.tasks.pc i) c.tasks.shared).2.2.map fun e => (t, i, e) }
  | (_, .lose s key), c => { c with tasks := happen P site (.lose s key) c.tasks }

def Clocked.start (msg : κ → Message) (W : World) : Clocked κ := ⟨Tasks.start msg W, fun _ _ => 0, []⟩

end Machine

/-! ## Chronos -/

/-- The timer that is asked for. -/
def TaskEvent.arms : TaskEvent → Option TimerSpec
  | .manager (.timer req) => req.spec
  | _ => none

section Assumptions

variable (P : Platform) (http : HttpStack) {κ : Type} (msg : κ → Message) (key : Bytes) (T Δ : ℕ)

/-- The request that Chronos makes when the timer pops is accepted as this message. -/
def TimerSpec.Replays (spec : TimerSpec) (m : Message) : Prop :=
  runBillingTask P http ⟨.post, spec.callbackUri, spec.opaqueData⟩ = (HTTP_OK, some m)

/-- The message `i` is at work at the time `t`: if it is a callback, that of a timer which was asked
for, and which runs, or did until `Δ` ago; if not, until `T`. -/
structure Clocked.AtWork (c : Clocked κ) (i : κ) (t : ℕ) : Prop where
  callback : (msg i).Pop → ∃ t₀ j e spec,
    (t₀, j, e) ∈ c.log ∧ e.arms = some spec ∧ spec.Replays P http (msg i) ∧
      t₀ ≤ t ∧ t ≤ t₀ + spec.repeatFor.toNat + Δ
  other : ¬(msg i).Pop → t ≤ T

/-- What is assumed of the messages of the key: they come when they can, and do not take longer than
that. -/
def Clocked.Timely (c : Clocked κ) : ℕ × Happening κ → Prop
  | (t, .move i _) => (msg i).key = key → (c.tasks.pc i).atRest = false →
      c.AtWork P http msg T Δ i t
  | (_, .lose _ _) => True

end Assumptions

/-! ## Records and their leases -/

section Leases

variable {P : Platform} {site : Site} {W : World}

theorem setData_of_not_ok {st : Store} {env : StoreEnv} {key data : Bytes} {cas : ℕ} {expiry : Int32}
    (h : (st.setData env key data cas expiry).1 ≠ .ok) :
    (st.setData env key data cas expiry).2 = st := by
  unfold Store.setData at h ⊢
  by_cases hdown : env.down = true
  · rw [if_pos hdown]
  · rw [if_neg hdown] at h ⊢
    cases hrec : st.record key with
    | none =>
      rw [hrec] at h
      dsimp only at h ⊢
      split_ifs at h ⊢ with hcas
      · exact absurd rfl h
      · rfl
    | some r =>
      rw [hrec] at h
      dsimp only at h ⊢
      split_ifs at h ⊢ with hcas
      · exact absurd rfl h
      · rfl

/-- A record that is there after a call was put there by it, or was there before. -/
theorem lease_of_record {env : Env} {a : Action} {s : StoreId} {key : Bytes}
    (h : ((perform P env W a).2.1 s).record key ≠ none) :
    (∃ expiry, a.lease P env W = some (s, key, expiry)) ∨ (W s).record key ≠ none := by
  cases a with
  | get t key' k =>
    simp only [perform] at h
    split at h <;> exact .inr h
  | set t key' sess newSession k =>
    by_cases hs : s = t
    · subst hs
      simp only [perform, Function.update_self] at h
      by_cases hok : (setSessionData P (W s) (env.store s) key' sess newSession).1 = .ok
      · by_cases hkey : key = key'
        · subst hkey
          exact .inl ⟨sess.expiry, if_pos hok⟩
        · rw [setSessionData, record_setData hkey] at h
          exact .inr h
      · rw [setSessionData, setData_of_not_ok hok] at h
        exact .inr h
    · simp only [perform, Function.update_of_ne hs] at h
      exact .inr h
  | casDelete t key' sess k =>
    by_cases hs : s = t
    · subst hs
      simp only [perform, Function.update_self, deleteSessionDataCas] at h
      rcases (W s).setData_cases (env.store s) key' [] sess.cas 0 with heq | heq
      · rw [heq] at h
        exact .inr h
      · rw [heq] at h
        by_cases hkey : key = key'
        · subst hkey
          exact absurd (by simp [Store.put]) h
        · rw [record_put hkey] at h
          exact .inr h
    · simp only [perform, Function.update_of_ne hs] at h
      exact .inr h
  | delete t key' k =>
    by_cases hs : s = t
    · subst hs
      simp only [perform, Function.update_self, deleteSessionData] at h
      by_cases hkey : key = key'
      · subst hkey
        unfold Store.deleteData at h
        split_ifs at h
        · exact .inr h
        · exact absurd (by simp) h
      · rw [record_deleteData hkey] at h
        exact .inr h
    · simp only [perform, Function.update_of_ne hs] at h
      exact .inr h
  | timer req k => exact .inr h
  | send msg pc => exact .inr h
  | answer k => exact .inr h
  | healthCheckPassed pc => exact .inr h
  | goto pc => exact .inr h

theorem lease_of_record_taskStep {x : TaskEnv} {t : Task} {s : StoreId} {key : Bytes}
    (h : ((taskStep P site x t W).2.1 s).record key ≠ none) :
    (∃ expiry, t.lease P site x W = some (s, key, expiry)) ∨ (W s).record key ≠ none := by
  cases t with
  | manager pc =>
    by_cases hsend : ∃ msg, pc = .send msg
    · obtain ⟨msg, rfl⟩ := hsend
      exact .inr h
    · rw [taskStep_manager P site x W hsend] at h
      exact lease_of_record h
  | sender pm => exact .inr h
  | undefined => exact .inr h

theorem set_of_lease {env : Env} {a : Action} {s : StoreId} {key : Bytes} {expiry : Int32}
    (h : a.lease P env W = some (s, key, expiry)) :
    ∃ sess newSession k, a = .set s key sess newSession k ∧ expiry = sess.expiry := by
  cases a with
  | set t key' sess newSession k =>
    simp only [Action.lease] at h
    split_ifs at h
    cases h
    exact ⟨sess, newSession, k, rfl, rfl⟩
  | _ => cases h

theorem lease_rest {x : TaskEnv} {t : Task} (h : t.atRest = true) : t.lease P site x W = none := by
  cases t with
  | manager pc =>
    cases pc with
    | done => rfl
    | aborted => rfl
    | _ => cases h
  | sender pm => rfl
  | undefined => rfl

theorem key_of_lease {x : TaskEnv} {t : Task} {own : Bytes} (hkey : t.pc.HasKey own) {s : StoreId}
    {key : Bytes} {expiry : Int32} (h : t.lease P site x W = some (s, key, expiry)) : key = own := by
  cases t with
  | manager pc =>
    obtain ⟨sess, newSession, k, hnext, -⟩ := set_of_lease h
    have hkey' : (next P site pc).HasKey own := hasKey_next P site hkey
    rw [hnext] at hkey'
    exact hkey'.1
  | sender pm => cases h
  | undefined => cases h

/-- A record is kept for twice the refresh time of a START of its key, in 32 bits. -/
theorem lease_spec {κ : Type} {msg : κ → Message} {i : κ} {tr : List (κ × TaskEvent)} {x : TaskEnv}
    {t : Task} (hkey : t.pc.HasKey (msg i).key) (hbears : t.Bears (Origin msg tr) (· = msg i))
    {s : StoreId} {key : Bytes} {expiry : Int32}
    (h : t.lease P site x W = some (s, key, expiry)) :
    key = (msg i).key ∧
      ∃ j, (msg j).key = key ∧ expiry = (2 * (msg j).sessionRefreshTime).toInt32 := by
  refine ⟨key_of_lease hkey h, ?_⟩
  cases t with
  | manager pc =>
    obtain ⟨sess, newSession, k, hnext, rfl⟩ := set_of_lease h
    have hsend : ¬∃ m, pc = .send m := by
      rintro ⟨m, rfl⟩
      cases hnext
    have hbears' := bears_next (lasting_origin tr) P site hbears hsend
    rw [hnext] at hbears'
    obtain ⟨j, a, -, -, hj, hsess⟩ := hbears'.1 0
    refine ⟨j, hj, ?_⟩
    rw [← hsess.sessionRefreshTime]
    rfl
  | sender pm => cases h
  | undefined => cases h

theorem renew_self {κ : Type} (c : Clocked κ) (t : ℕ) (s : StoreId) (key : Bytes) (expiry : Int32) :
    c.renew t (some (s, key, expiry)) s key = t + expiry.toInt.toNat := by
  simp [Clocked.renew]

theorem renew_of_ne {κ : Type} (c : Clocked κ) (t : ℕ) {l : Option (StoreId × Bytes × Int32)}
    {s : StoreId} {key : Bytes} (h : ∀ expiry, l ≠ some (s, key, expiry)) :
    c.renew t l s key = c.expires s key := by
  cases l with
  | none => rfl
  | some l =>
    obtain ⟨s', key', expiry⟩ := l
    simp only [Clocked.renew]
    by_cases hs : s = s'
    · subst hs
      have hkey : key ≠ key' := by
        rintro rfl
        exact h expiry rfl
      rw [Function.update_self, Function.update_of_ne hkey]
    · rw [Function.update_of_ne hs]

theorem toNat_expiry_le (r : UInt32) : (2 * r).toInt32.toInt.toNat ≤ 2 * r.toNat := by
  have hlt := (2 * r).toNat_lt
  have hmul : (2 * r).toNat = 2 * r.toNat % 2 ^ 32 := UInt32.toNat_mul 2 r
  rw [toInt_eq_bmod, Int.bmod]
  simp only [UInt32.toUInt32_toInt32]
  omega

end Leases

/-! ## Timers and their callbacks -/

section Timers

variable {P : Platform} {msg : Message}

/-- A timer is asked for as the answer to a message that was sent calls for it. -/
theorem Course.arming_of_mem {es : List TaskEvent} {st : Stage} (h : Course P msg es st)
    {e : TaskEvent} (he : e ∈ es) {spec : TimerSpec} (hspec : e.arms = some spec) :
    ∃ m a req sid, arming P m a = some req ∧ req.spec = some spec ∧ .manager (.send m sid) ∈ es := by
  induction h with
  | nil => cases he
  | snoc hcourse hstep ih =>
    rcases List.mem_append.mp he with hold | hnew
    · obtain ⟨m, a, req, sid, harm, hreq, hmem⟩ := ih hold
      exact ⟨m, a, req, sid, harm, hreq, List.mem_append_left _ hmem⟩
    · cases List.mem_singleton.mp hnew
      cases hstep with
      | @arm m a req harm =>
        obtain ⟨sid, hmem⟩ := hcourse.send_mem rfl
        exact ⟨m, a, req, sid, harm, hspec, List.mem_append_left _ hmem⟩
      | _ => cases hspec

theorem not_pop_of_arming {m : Message} {a : Answer} {req : TimerRequest}
    (h : arming P m a = some req) : ¬m.Pop := by
  rintro ⟨htype, htimer⟩
  unfold arming at h
  split_ifs at h with _ hstart hinterim
  · exact AccountingRecordType.ne_start_of_interim htype hstart.1
  · rw [htimer] at hinterim
    cases hinterim.2.1
  · rw [htimer] at hinterim
    cases hinterim.2.1

/-- What the callback of a timer is accepted as. -/
theorem replays_iff {http : HttpStack} {spec : TimerSpec} {m : Message} (hspec : spec.For P msg) :
    spec.Replays P http m ↔
      m = .new (http.file (callbackUri P msg.callId)) msg.role msg.function (opaqueDoc msg) .interim 0
        (decide (http.param (callbackUri P msg.callId) TIMER_INTERIM_PARAM = ascii "true")) := by
  unfold TimerSpec.Replays runBillingTask
  rw [hspec.callbackUri, hspec.opaqueData]
  simp only [ne_eq, not_true_eq_false, if_false, parseBody_createOpaqueData, Prod.mk.injEq,
    true_and, Option.some.injEq]
  exact eq_comm

/-- A callback is of the call that its timer was armed for. -/
theorem key_of_replays {http : HttpStack} {spec : TimerSpec} {m : Message} (hspec : spec.For P msg)
    (hfile : http.file (callbackUri P msg.callId) = msg.callId) (h : spec.Replays P http m) :
    m.key = msg.key := by
  rw [(replays_iff hspec).mp h]
  show createKey (http.file (callbackUri P msg.callId)) msg.role msg.function = msg.key
  rw [hfile]
  rfl

end Timers

/-! ## Runs -/

section Runs

variable {P : Platform} {http : HttpStack} {κ : Type} [DecidableEq κ] {site : κ → Site}
  {msg : κ → Message} {key : Bytes} {T ρ Δ : ℕ}

omit [DecidableEq κ] in
/-- What is sent is the message it was, with a refresh time of its call. -/
theorem Authentic.refresh_le {σ : Tasks κ} (h : Authentic P msg σ)
    (hρ : ∀ j, (msg j).key = key → (msg j).sessionRefreshTime.toNat ≤ ρ) {i : κ} {m : Message}
    {sid : Bytes} (hmem : (i, .manager (.send m sid)) ∈ σ.trace) :
    m.identity = (msg i).identity ∧ ((msg i).key = key → m.sessionRefreshTime.toNat ≤ ρ) := by
  obtain ⟨pre, post, htrace⟩ := List.append_of_mem hmem
  have hout := (h.sent pre post i m sid htrace).outgoing
  by_cases hlater : m.Later
  · obtain ⟨m₀, sess, rfl, ⟨j, a, -, -, hj, hsess⟩, rfl⟩ := hout.later hlater
    refine ⟨rfl, fun hkey => ?_⟩
    simp only [fillIn]
    split_ifs
    · rw [hsess.sessionRefreshTime]
      exact hρ j (hj.trans hkey)
    · exact hρ i hkey
  · obtain ⟨m₀, rfl, rfl⟩ := hout.first hlater
    exact ⟨rfl, hρ i⟩

/-- **Timers that were asked for**: not by a callback, for the call of the message, and for a refresh
time of the call. -/
theorem armed_spec {σ : Tasks κ} (hauth : Authentic P msg σ) (hcourse : OnCourse P msg σ)
    (hρ : ∀ j, (msg j).key = key → (msg j).sessionRefreshTime.toNat ≤ ρ) {j : κ} {e : TaskEvent}
    {spec : TimerSpec} (hmem : (j, e) ∈ σ.trace) (hspec : e.arms = some spec) :
    ¬(msg j).Pop ∧ spec.For P (msg j) ∧ ((msg j).key = key → spec.repeatFor.toNat ≤ ρ) := by
  obtain ⟨st, hes, -⟩ := hcourse j
  obtain ⟨m, a, req, sid, harm, hreq, hsend⟩ := hes.arming_of_mem (mem_eventsOf.mpr hmem) hspec
  obtain ⟨hid, hrefresh⟩ := hauth.refresh_le hρ (mem_eventsOf.mp hsend)
  have heq : timerSpec P m (armedInterval m a) = spec :=
    Option.some.inj ((spec_arming harm).1.symm.trans hreq)
  subst heq
  refine ⟨?_, for_timerSpec hid _, hrefresh⟩
  have hnot := not_pop_of_arming harm
  simp only [Message.identity, Prod.mk.injEq] at hid
  rwa [Message.Pop, ← hid.2.2.2.2.1, ← hid.2.2.2.2.2]

/-- The bounds hold so far; what else is known of the tasks, and the log is their trace. -/
structure Clocked.Bounded (P : Platform) (msg : κ → Message) (key : Bytes) (T ρ Δ : ℕ)
    (c : Clocked κ) : Prop where
  authentic : Authentic P msg c.tasks
  course : OnCourse P msg c.tasks
  hasKey : ∀ i, (c.tasks.pc i).pc.HasKey (msg i).key
  trace : ∀ t i e, (t, i, e) ∈ c.log → (i, e) ∈ c.tasks.trace
  other : ∀ t i e, (t, i, e) ∈ c.log → (msg i).key = key → ¬(msg i).Pop → t ≤ T
  seen : ∀ t i e, (t, i, e) ∈ c.log → (msg i).key = key → t ≤ T + ρ + Δ
  kept : ∀ s, (c.tasks.shared s).record key ≠ none → c.expires s key ≤ T + 3 * ρ + Δ

/-- No message of the call is at work for longer. -/
theorem Clocked.Bounded.time_le {c : Clocked κ} (h : c.Bounded P msg key T ρ Δ)
    (hρ : ∀ j, (msg j).key = key → (msg j).sessionRefreshTime.toNat ≤ ρ)
    (hfile : ∀ j, http.file (callbackUri P (msg j).callId) = (msg j).callId) {i : κ} {t : ℕ}
    (hkey : (msg i).key = key) (hwork : c.AtWork P http msg T Δ i t) : t ≤ T + ρ + Δ := by
  by_cases hcb : (msg i).Pop
  · obtain ⟨t₀, j, e, spec, hmem, hspec, hreplays, -, ht⟩ := hwork.callback hcb
    obtain ⟨hnot, hfor, hrepeat⟩ := armed_spec h.authentic h.course hρ (h.trace _ _ _ hmem) hspec
    have hj : (msg j).key = key := (key_of_replays hfor (hfile j) hreplays).symm.trans hkey
    have ht₀ := h.other _ _ _ hmem hj hnot
    have hle := hrepeat hj
    omega
  · have ht := hwork.other hcb
    omega

theorem Clocked.Bounded.lose {c : Clocked κ} (h : c.Bounded P msg key T ρ Δ) (t : ℕ) (s : StoreId)
    (lost : Bytes) : (clockStep P site (t, .lose s lost) c).Bounded P msg key T ρ Δ := by
  have hauth : Authentic P msg (happen P site (.lose s lost) c.tasks) := h.authentic.step _
  have hcourse : OnCourse P msg (happen P site (.lose s lost) c.tasks) := h.course.step _
  refine ⟨hauth, hcourse, h.hasKey, h.trace, h.other, h.seen, ?_⟩
  intro s' hrec
  refine h.kept s' fun hnone => hrec ?_
  by_cases hs : s' = s
  · subst hs
    by_cases hk : key = lost
    · subst hk
      simp [clockStep, happen, World.lose, record_lose]
    · simp [clockStep, happen, World.lose, record_lose_of_ne _ hk, hnone]
  · simp [clockStep, happen, World.lose, hs, hnone]

/-- A record that a message of the call writes runs out in time. -/
theorem Clocked.Bounded.lease_le {c : Clocked κ} (h : c.Bounded P msg key T ρ Δ)
    (hρ : ∀ j, (msg j).key = key → (msg j).sessionRefreshTime.toNat ≤ ρ) {i : κ} {t : ℕ} {x : TaskEnv}
    (ht : (msg i).key = key → (c.tasks.pc i).atRest = false → t ≤ T + ρ + Δ) {s : StoreId}
    {expiry : Int32}
    (hlease : (c.tasks.pc i).lease P (site i) x c.tasks.shared = some (s, key, expiry)) :
    t + expiry.toInt.toNat ≤ T + 3 * ρ + Δ := by
  obtain ⟨hkey, j, hj, rfl⟩ := lease_spec (h.hasKey i) (h.authentic.task i) hlease
  have hrest : (c.tasks.pc i).atRest = false := by
    rw [Bool.eq_false_iff]
    intro hrest
    rw [lease_rest hrest] at hlease
    cases hlease
  have ht := ht hkey.symm hrest
  have hle := toNat_expiry_le (msg j).sessionRefreshTime
  have hr := hρ j hj
  omega

theorem Clocked.Bounded.move {c : Clocked κ} (h : c.Bounded P msg key T ρ Δ)
    (hρ : ∀ j, (msg j).key = key → (msg j).sessionRefreshTime.toNat ≤ ρ)
    (hfile : ∀ j, http.file (callbackUri P (msg j).callId) = (msg j).callId) {t : ℕ} {i : κ}
    {x : TaskEnv} (ha : c.Timely P http msg key T Δ (t, .move i x)) :
    (clockStep P site (t, .move i x) c).Bounded P msg key T ρ Δ := by
  have hauth : Authentic P msg (happen P site (.move i x) c.tasks) := h.authentic.step _
  have hcourse : OnCourse P msg (happen P site (.move i x) c.tasks) := h.course.step _
  have hlog : ∀ t' j e, (t', j, e) ∈ (clockStep P site (t, .move i x) c).log →
      (t', j, e) ∈ c.log ∨ t' = t ∧ j = i ∧
        e ∈ (taskStep P (site i) x (c.tasks.pc i) c.tasks.shared).2.2 := by
    intro t' j e hmem
    rcases List.mem_append.mp hmem with hold | hnew
    · exact .inl hold
    · obtain ⟨e', he', heq⟩ := List.mem_map.mp hnew
      cases heq
      exact .inr ⟨rfl, rfl, he'⟩
  -- a task at rest does nothing, so that whoever does something is at work
  have hwork : ∀ e, e ∈ (taskStep P (site i) x (c.tasks.pc i) c.tasks.shared).2.2 →
      (msg i).key = key → c.AtWork P http msg T Δ i t := by
    intro e he hkey
    by_cases hrest : (c.tasks.pc i).atRest = true
    · rw [taskStep_rest hrest] at he
      cases he
    · exact ha hkey (Bool.eq_false_iff.mpr hrest)
  refine ⟨hauth, hcourse, hasKey_tasksStep h.hasKey i x, ?_, ?_, ?_, ?_⟩
  · intro t' j e hmem
    rcases hlog t' j e hmem with hold | ⟨rfl, rfl, he⟩
    · exact List.mem_append_left _ (h.trace t' j e hold)
    · exact List.mem_append_right _ (List.mem_map.mpr ⟨e, he, rfl⟩)
  · intro t' j e hmem hkey hnot
    rcases hlog t' j e hmem with hold | ⟨rfl, rfl, he⟩
    · exact h.other t' j e hold hkey hnot
    · exact (hwork e he hkey).other hnot
  · intro t' j e hmem hkey
    rcases hlog t' j e hmem with hold | ⟨rfl, rfl, he⟩
    · exact h.seen t' j e hold hkey
    · exact h.time_le hρ hfile hkey (hwork e he hkey)
  · intro s hrec
    show c.renew t ((c.tasks.pc i).lease P (site i) x c.tasks.shared) s key ≤ _
    by_cases hnew : ∃ expiry,
        (c.tasks.pc i).lease P (site i) x c.tasks.shared = some (s, key, expiry)
    · obtain ⟨expiry, hlease⟩ := hnew
      rw [hlease, renew_self]
      exact h.lease_le hρ (fun hkey hrest => h.time_le hρ hfile hkey (ha hkey hrest)) hlease
    · rw [renew_of_ne c t (not_exists.mp hnew)]
      exact h.kept s ((lease_of_record_taskStep hrec).resolve_left hnew)

theorem Clocked.Bounded.step {c : Clocked κ} (h : c.Bounded P msg key T ρ Δ)
    (hρ : ∀ j, (msg j).key = key → (msg j).sessionRefreshTime.toNat ≤ ρ)
    (hfile : ∀ j, http.file (callbackUri P (msg j).callId) = (msg j).callId)
    {a : ℕ × Happening κ} (ha : c.Timely P http msg key T Δ a) :
    (clockStep P site a c).Bounded P msg key T ρ Δ := by
  obtain ⟨t, a⟩ := a
  cases a with
  | lose s lost => exact h.lose t s lost
  | move i x => exact h.move hρ hfile ha

/-- **Calls are forgotten.** If the messages of a call that are not callbacks have all come to their
end by `T`, then nothing is seen of the call after `T + ρ + Δ`, and its records run out by
`T + 3 * ρ + Δ`: its timers keep none of them alive. -/
theorem abandoned_forgotten {W : World} (hW : ∀ s key, (W s).record key = none)
    (hρ : ∀ j, (msg j).key = key → (msg j).sessionRefreshTime.toNat ≤ ρ)
    (hfile : ∀ j, http.file (callbackUri P (msg j).callId) = (msg j).callId)
    {as : List (ℕ × Happening κ)}
    (hrun : Along (clockStep P site) (Clocked.Timely P http msg key T Δ) as (Clocked.start msg W)) :
    (∀ t i e, (t, i, e) ∈ (exec (clockStep P site) as (Clocked.start msg W)).log →
      (msg i).key = key → t ≤ T + ρ + Δ) ∧
    ∀ s, ((exec (clockStep P site) as (Clocked.start msg W)).tasks.shared s).record key ≠ none →
      (exec (clockStep P site) as (Clocked.start msg W)).expires s key ≤ T + 3 * ρ + Δ := by
  have hstart : (Clocked.start msg W).Bounded P msg key T ρ Δ := by
    refine ⟨authentic_start hW, fun j => ⟨.before, .nil, rfl, rfl⟩,
      fun i => Pc.hasKey_of_message rfl rfl, ?_, ?_, ?_, ?_⟩
    · intro t i e hmem
      cases hmem
    · intro t i e hmem
      cases hmem
    · intro t i e hmem
      cases hmem
    · intro s hrec
      exact absurd (hW s key) hrec
  have hend := Along.invariant (fun c a hc ha => hc.step hρ hfile ha) hrun hstart
  exact ⟨hend.seen, hend.kept⟩

end Runs

/-- A START, and the callback of its timer. -/
def startAndCallback (i : Bool) : Message :=
  if i then .new (ascii "call") 0 0 (opaqueDoc (startMessage 300)) .interim 0 true
  else startMessage 300

/-- The CCF accepts, and asks for an INTERIM every 100 seconds. -/
def acceptingEvery : TaskEnv :=
  { accepting with outcome := .response ⟨some 2001, some 100, some (ascii "sid")⟩ }

/-- The START comes to its end at once, and the callback 250 seconds later. -/
def startThenCallback : List (ℕ × Happening Bool) :=
  List.replicate 8 (0, .move false acceptingEvery) ++
    List.replicate 9 (250, .move true acceptingEvery)

theorem mem_log_clockStep {P : Platform} {κ : Type} [DecidableEq κ] {site : κ → Site} {c : Clocked κ}
    {y : ℕ × κ × TaskEvent} (h : y ∈ c.log) (a : ℕ × Happening κ) :
    y ∈ (clockStep P site a c).log := by
  obtain ⟨t, a⟩ := a
  cases a with
  | lose s key => exact h
  | move i x => exact List.mem_append_left _ h

theorem file_startAndCallback (j : Bool) :
    plainHttp.file (callbackUri compactPlatform (startAndCallback j).callId) =
      (startAndCallback j).callId := by
  cases j <;> decide

theorem timely_startThenCallback :
    Along (clockStep compactPlatform fun _ => localAndRemote)
      (Clocked.Timely compactPlatform plainHttp startAndCallback (startMessage 300).key 0 0)
      startThenCallback (Clocked.start startAndCallback fun _ => .empty) := by
  let spec : TimerSpec := timerSpec compactPlatform (startMessage 300) 100
  let armed : Clocked Bool → Prop := fun c => ∃ j e, (0, j, e) ∈ c.log ∧ e.arms = some spec
  refine Along.append.mpr ⟨Along.of_forall ?_ _, ?_⟩
  · intro a ha c
    rw [List.eq_of_mem_replicate ha]
    intro _ _
    refine ⟨fun hcb => ?_, fun _ => le_refl 0⟩
    cases hcb.1
  · have harmed : armed (exec (clockStep compactPlatform fun _ => localAndRemote)
        (List.replicate 8 (0, .move false acceptingEvery))
        (Clocked.start startAndCallback fun _ => .empty)) := by
      have hany : (exec (clockStep compactPlatform fun _ => localAndRemote)
          (List.replicate 8 (0, .move false acceptingEvery))
          (Clocked.start startAndCallback fun _ => .empty)).log.any
            (fun y => decide (y.1 = 0) && decide (y.2.2.arms = some spec)) = true := by
        decide +kernel
      obtain ⟨⟨t, j, e⟩, hmem, he⟩ := List.any_eq_true.mp hany
      rw [Bool.and_eq_true, decide_eq_true_eq, decide_eq_true_eq] at he
      obtain ⟨rfl, he⟩ := he
      exact ⟨j, e, hmem, he⟩
    have hlate : Along (clockStep compactPlatform fun _ => localAndRemote)
        (fun _ a => a = (250, .move true acceptingEvery))
        (List.replicate 9 (250, .move true acceptingEvery))
        (exec (clockStep compactPlatform fun _ => localAndRemote)
          (List.replicate 8 (0, .move false acceptingEvery))
          (Clocked.start startAndCallback fun _ => .empty)) :=
      Along.of_forall (fun a ha _ => List.eq_of_mem_replicate ha) _
    refine Along.mono ?_ (hlate.strengthen (I := armed) ?_ harmed)
    · rintro c a ⟨rfl, j, e, hmem, he⟩
      intro _ _
      have hspec : spec.For compactPlatform (startMessage 300) := for_timerSpec rfl 100
      have hreplays : spec.Replays compactPlatform plainHttp (startAndCallback true) := by
        rw [replays_iff hspec]
        have hfile : plainHttp.file (callbackUri compactPlatform (startMessage 300).callId) =
            ascii "call" := by decide
        have hparam : plainHttp.param (callbackUri compactPlatform (startMessage 300).callId)
            TIMER_INTERIM_PARAM = ascii "true" := by decide
        rw [hfile, hparam]
        rfl
      exact ⟨fun _ => ⟨0, j, e, spec, hmem, he, hreplays, Nat.zero_le _, by decide⟩,
        fun hnot => absurd ⟨rfl, rfl⟩ hnot⟩
    · rintro c a ⟨j, e, hmem, he⟩ -
      exact ⟨j, e, mem_log_clockStep hmem a, he⟩

/-- The callback writes the record once more, for 600 seconds. -/
theorem abandoned_forgotten_callback :
    (exec (clockStep compactPlatform fun _ => localAndRemote) startThenCallback
        (Clocked.start startAndCallback fun _ => .empty)).expires 0 (startMessage 300).key = 850 ∧
      (exec (clockStep compactPlatform fun _ => localAndRemote) startThenCallback
        (Clocked.start startAndCallback fun _ => .empty)).expires 0 (startMessage 300).key ≤
          0 + 3 * 300 + 0 := by
  have hrec : ((exec (clockStep compactPlatform fun _ => localAndRemote) startThenCallback
      (Clocked.start startAndCallback fun _ => .empty)).tasks.shared 0).record
        (startMessage 300).key ≠ none := by
    decide +kernel
  have hexp : (exec (clockStep compactPlatform fun _ => localAndRemote) startThenCallback
      (Clocked.start startAndCallback fun _ => .empty)).expires 0 (startMessage 300).key = 850 := by
    decide +kernel
  have hρ : ∀ j, (startAndCallback j).key = (startMessage 300).key →
      (startAndCallback j).sessionRefreshTime.toNat ≤ 300 := by
    decide
  exact ⟨hexp, (abandoned_forgotten (fun _ _ => rfl) hρ file_startAndCallback
    timely_startThenCallback).2 0 hrec⟩

end Ralf
