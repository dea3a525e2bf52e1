import Ralf.Clock
import Ralf.Continuity
import Ralf.Requests

/-!
# Calls that are kept up

The other side of `Clock`: a call whose INTERIMs keep coming is not forgotten. A store drops a
record when it has run out, and every INTERIM writes the record of its call again, for twice the
refresh time, before it is sent. `refreshed_remembered`: some store that can be reached holds the
session of a call whose messages are all handled at sites that have this store, no STOP comes, and the
last INTERIM was sent at most `gap` ago, where `gap` and the time `Δ` that `handle` takes are together
at most twice the refresh time. Then the session stays in that store, whatever the other messages and
the other stores do, and no INTERIM of the call is dropped.
-/

namespace Ralf

open Bytes Runs

/-! ## Writing to a record -/

section Writes

variable {P : Platform} {st : Store} {e : StoreEnv} {key : Bytes} {sess v : Session}
  {newSession : Bool}

/-- A write over a record that goes through has been made from it. -/
theorem next_of_ok (hcopy : newSession = false → Copy P key st sess)
    (hv : view P st key = some v) (hok : (setSessionData P st e key sess newSession).1 = .ok) :
    v.Next sess := by
  obtain ⟨r, d, hrec, hd, rfl⟩ := record_of_getSessionData (getSessionData_of_view hv)
  unfold setSessionData Store.setData at hok
  rw [hrec] at hok
  dsimp only at hok
  split_ifs at hok with hdown hnew hcas hcas
  · exact absurd hcas.symm r.cas.ne_zero
  · exact ((hcopy (by simpa using hnew)).next hrec hd hcas).of_content rfl

theorem live_of_lineage {w : Session} (h : w.lineage = v.lineage) (hv : v.Live) : w.Live := by
  simp only [Session.lineage, Prod.mk.injEq] at h
  unfold Session.Live
  rw [h.2.2.1]
  exact hv

/-- A record that is there is there after a write to it, and runs out two refresh times later. -/
theorem kept_of_ok (hcopy : newSession = false → Copy P key st sess)
    (hv : view P st key = some v) (hlive : v.Live)
    (hok : (setSessionData P st e key sess newSession).1 = .ok) :
    view P (setSessionData P st e key sess newSession).2 key ≠ none ∧
      sess.expiry.toInt.toNat = 2 * v.sessionRefreshTime.toNat := by
  have hlineage := (next_of_ok hcopy hv hok).lineage
  have hsess : sess.Live := live_of_lineage hlineage hlive
  simp only [Session.lineage, Prod.mk.injEq] at hlineage
  constructor
  · unfold setSessionData at hok ⊢
    rw [Store.setData_of_ok hok, view_put, Session.written, if_pos hsess.expiry_pos]
    exact Option.some_ne_none _
  · rw [hsess.toInt_expiry, hlineage.2.2.1]
    exact Int.toNat_natCast _

theorem status_of_up (hup : e.down = false)
    (h : (setSessionData P st e key sess newSession).1 ≠ .dataContention) :
    (setSessionData P st e key sess newSession).1 = .ok := by
  rcases setSessionData_cases P st key hup sess newSession with ⟨st', heq⟩ | heq
  · rw [heq]
  · rw [heq] at h
    exact absurd rfl h

end Writes

/-! ## Calls that leave the record there -/

/-- The call does not delete, and what it writes under a version that was read is made from what was
read. -/
def Action.Spares (P : Platform) (W : World) : Action → Prop
  | .set s key sess newSession _ => newSession = false → Copy P key (W s) sess
  | .casDelete _ _ _ _ => False
  | .delete _ _ _ => False
  | _ => True

theorem Action.Spares.keeps {P : Platform} {W : World} {env : Env} {a : Action}
    (h : a.Spares P W) {s : StoreId} {key : Bytes} {v : Session} (hv : view P (W s) key = some v)
    (hlive : v.Live) :
    view P ((perform P env W a).2.1 s) key ≠ none ∧
      ∀ expiry, a.lease P env W = some (s, key, expiry) →
        expiry.toInt.toNat = 2 * v.sessionRefreshTime.toNat := by
  have hthere : view P (W s) key ≠ none := by
    rw [hv]
    exact Option.some_ne_none v
  cases a with
  | get t key' k =>
    refine ⟨?_, fun _ hlease => by cases hlease⟩
    simp only [perform]
    split <;> exact hthere
  | set t key' sess newSession k =>
    by_cases hok : (setSessionData P (W t) (env.store t) key' sess newSession).1 = .ok
    · simp only [perform, Action.lease, if_pos hok]
      by_cases hs : s = t
      · subst hs
        rw [Function.update_self]
        by_cases hkey : key = key'
        · subst hkey
          obtain ⟨hkept, hexpiry⟩ := kept_of_ok h hv hlive hok
          refine ⟨hkept, ?_⟩
          rintro expiry ⟨⟩
          exact hexpiry
        · refine ⟨?_, ?_⟩
          · unfold view setSessionData
            rw [getSessionData_of_ne (record_setData hkey _ _ _)]
            exact hthere
          · rintro expiry ⟨⟩
            exact absurd rfl hkey
      · rw [Function.update_of_ne hs]
        refine ⟨hthere, ?_⟩
        rintro expiry ⟨⟩
        exact absurd rfl hs
    · simp only [perform, Action.lease, if_neg hok]
      refine ⟨?_, fun _ hlease => by cases hlease⟩
      have hsame : (setSessionData P (W t) (env.store t) key' sess newSession).2 = W t :=
        setData_of_not_ok hok
      rw [hsame, Function.update_eq_self]
      exact hthere
  | casDelete t key' sess k => exact h.elim
  | delete t key' k => exact h.elim
  | timer req k => exact ⟨hthere, fun _ hlease => by cases hlease⟩
  | send m pc => exact ⟨hthere, fun _ hlease => by cases hlease⟩
  | answer k => exact ⟨hthere, fun _ hlease => by cases hlease⟩
  | healthCheckPassed pc => exact ⟨hthere, fun _ hlease => by cases hlease⟩
  | goto pc => exact ⟨hthere, fun _ hlease => by cases hlease⟩

/-! ## Threads -/

/-- Where a thread of the call stands that neither deletes nor passes by the record in `s₀`, which
is that of the session `v`. `fed` is to hold from when the thread has written this record on. -/
def Pc.Minds (s₀ : StoreId) (v : Session) (site : Site) (fed : Prop) : Pc → Prop
  | .tryRemotes _ rest => site.localStore ≠ s₀ ∧ s₀ ∈ rest
  | .updateLocal _ sess _ => site.localStore = s₀ → sess.lineage = v.lineage
  | .readRemotes _ sess rest =>
    (s₀ ∈ rest ∨ fed) ∧ (site.localStore = s₀ → sess.lineage = v.lineage)
  | .updateRemote _ sess s rest _ _ =>
    (s₀ ∈ s :: rest ∨ fed) ∧ (site.localStore = s₀ → sess.lineage = v.lineage)
  | .send m => m.recordType = .interim →
      fed ∧ (site.localStore = s₀ → m.sessionId = v.sessionId ∧ m.ccfs = v.ccf)
  | .deleteLocal _ _ => False
  | .deleteRemotes _ _ _ => False
  | .deleteUnknown _ _ => False
  | _ => True

section Threads

variable {P : Platform} {site : Site} {env : Env} {s₀ : StoreId} {key : Bytes} {v w : Session}
  {fed fed' : Prop} {pc : Pc} {W : World} {msg : Message} {st : Stage}

theorem Pc.Minds.mono (h : pc.Minds s₀ v site fed) (hfed : fed → fed') :
    pc.Minds s₀ v site fed' := by
  cases pc with
  | readRemotes m sess rest => exact ⟨h.1.imp_right hfed, h.2⟩
  | updateRemote m sess s rest remoteSess newSession => exact ⟨h.1.imp_right hfed, h.2⟩
  | send m => exact fun hm => ⟨hfed (h hm).1, (h hm).2⟩
  | _ => exact h

theorem Pc.Minds.spares (h : pc.Minds s₀ v site fed) (hcopies : pc.Copies P site W) :
    (next P site pc).Spares P W := by
  cases pc with
  | handle m =>
    simp only [next]
    split_ifs <;> trivial
  | tryRemotes m rest => cases rest <;> trivial
  | updateLocal m sess newSession => exact hcopies
  | readRemotes m sess rest => cases rest <;> trivial
  | updateRemote m sess s rest remoteSess newSession => exact hcopies
  | deleteLocal m sess => exact h.elim
  | deleteRemotes m sess rest => exact h.elim
  | deleteUnknown m rest => exact h.elim
  | writeSession m sess rest =>
    cases rest with
    | nil => trivial
    | cons s rest => exact fun hn => by cases hn
  | readTimerId m timerId rest accepted => cases rest <;> trivial
  | writeTimerId m timerId s rest sess accepted => exact fun _ => hcopies
  | finish accepted => cases accepted <;> trivial
  | _ => trivial

theorem minds_onCcfResponse {accepted : Bool} {interimInterval : UInt32} {sessionId : Bytes}
    {rc : Int32} (hrc : rc ≠ 5002) (m : Message) :
    (onCcfResponse site accepted interimInterval sessionId rc m).Minds s₀ v site fed := by
  unfold onCcfResponse
  dsimp only
  split_ifs <;> trivial

/-- The session is found in the store. -/
theorem eq_of_getSessionData {st : Store} {e : StoreEnv} (hup : e.down = false)
    (hw : view P st key = some w) {o : Option Session} (h : getSessionData P st e key = .ok o) :
    o = some w := by
  rw [getSessionData_of_up hup, show lookUp P st key = _ from getSessionData_of_view hw] at h
  cases h
  rfl

/-- **One step of a thread of the call.** -/
theorem Pc.Minds.step (h : pc.Minds s₀ v site fed) (hat : pc.At P msg st)
    (hstop : msg.recordType ≠ .stop) (hkey : msg.key = key) (hmem : s₀ ∈ site.stores)
    (hup : (env.store s₀).down = false) (hw : view P (W s₀) key = some w)
    (hlineage : w.lineage = v.lineage) (hfed : fed → fed')
    (hlease : pc.unsent = true → ∀ expiry,
      (next P site pc).lease P env W = some (s₀, key, expiry) → fed')
    (hsend : ¬∃ m, pc = .send m) : (Ralf.step P site env pc W).1.Minds s₀ v site fed' := by
  subst hkey
  unfold Ralf.step
  cases pc with
  | handle m =>
    obtain ⟨-, rfl⟩ := hat
    simp only [next]
    split_ifs with hlater
    · simp only [perform]
      split
      · rename_i o hget
        cases o with
        | none =>
          have hne : site.localStore ≠ s₀ := by
            rintro rfl
            cases eq_of_getSessionData hup hw hget
          exact ⟨hne, (List.mem_cons.mp hmem).resolve_left (Ne.symm hne)⟩
        | some sess =>
          dsimp only
          unfold found
          dsimp only
          split_ifs with hi
          · rintro rfl
            cases eq_of_getSessionData hup hw hget
            exact hlineage
          · exact hstop (stop_of_later (Message.later_iff.mpr hlater) hi)
      · trivial
    · intro hm
      exact absurd (Message.later_iff.mp (.inl hm)) hlater
  | tryRemotes m rest =>
    obtain ⟨-, rfl, hlater⟩ := hat
    obtain ⟨hne, hs₀⟩ := h
    cases rest with
    | nil => cases hs₀
    | cons s rest =>
      simp only [next, perform]
      split
      · rename_i o hget
        cases o with
        | none =>
          refine ⟨hne, (List.mem_cons.mp hs₀).resolve_left ?_⟩
          rintro rfl
          cases eq_of_getSessionData hup hw hget
        | some sess =>
          dsimp only
          unfold found
          dsimp only
          split_ifs with hi
          · exact fun hl => absurd hl hne
          · exact hstop (stop_of_later hlater hi)
      · trivial
  | updateLocal m sess newSession =>
    obtain ⟨-, rfl, -⟩ := hat
    simp only [next, perform]
    split_ifs with hrc
    · trivial
    · refine ⟨?_, h⟩
      by_cases hlocal : site.localStore = s₀
      · subst hlocal
        exact .inr (hlease rfl sess.expiry (if_pos (status_of_up hup hrc)))
      · exact .inl ((List.mem_cons.mp hmem).resolve_left (Ne.symm hlocal))
  | readRemotes m sess rest =>
    obtain ⟨-, rfl, -⟩ := hat
    obtain ⟨hrest, hsess⟩ := h
    cases rest with
    | nil =>
      have hfed' := hfed (hrest.resolve_left List.not_mem_nil)
      refine fun _ => ⟨hfed', fun hlocal => ?_⟩
      have hl := hsess hlocal
      simp only [Session.lineage, Prod.mk.injEq] at hl
      exact ⟨hl.1, hl.2.1⟩
    | cons s rest =>
      simp only [next, perform]
      split
      · rename_i o hget
        cases o <;> exact ⟨hrest.imp_right hfed, hsess⟩
      · trivial
  | updateRemote m sess s rest remoteSess newSession =>
    obtain ⟨-, rfl, -⟩ := hat
    obtain ⟨hrest, hsess⟩ := h
    simp only [next, perform]
    split_ifs with hrc
    · refine ⟨?_, hsess⟩
      by_cases hs : s = s₀
      · subst hs
        exact .inr (hlease rfl remoteSess.expiry (if_pos (status_of_up hup hrc)))
      · exact hrest.imp (fun hs₀ => (List.mem_cons.mp hs₀).resolve_left (Ne.symm hs)) hfed
    · exact ⟨hrest.imp_right hfed, hsess⟩
  | send m => exact absurd ⟨m, rfl⟩ hsend
  | awaitAnswer m => exact hat.elim
  | deleteLocal m sess => exact h.elim
  | deleteRemotes m sess rest => exact h.elim
  | deleteUnknown m rest => exact h.elim
  | createTimer m interimInterval sessionId => trivial
  | writeSession m sess rest => cases rest <;> trivial
  | sendChronosUpdate m interimInterval accepted =>
    simp only [next, perform]
    split_ifs <;> trivial
  | readTimerId m timerId rest accepted =>
    cases rest with
    | nil => trivial
    | cons s rest =>
      simp only [next, perform]
      split
      · rename_i o hget
        cases o <;> trivial
      · trivial
  | writeTimerId m timerId s rest sess accepted => trivial
  | finish accepted => cases accepted <;> trivial
  | done => trivial
  | aborted => trivial

theorem unsent_found (m : Message) (sess : Session) (newSession : Bool) :
    (found m sess newSession).unsent = true := by
  unfold found
  dsimp only
  split_ifs <;> rfl

/-- Before it is sent, a message does not get to its end. -/
theorem unsent_step (h : pc.unsent = true) (hsend : ¬∃ m, pc = .send m)
    (htry : ∀ m, pc ≠ .tryRemotes m []) :
    (Ralf.step P site env pc W).1.unsent = true ∨ (Ralf.step P site env pc W).1 = .aborted := by
  unfold Ralf.step
  cases pc with
  | handle m =>
    simp only [next]
    split_ifs
    · simp only [perform]
      split
      · rename_i o _
        cases o with
        | none => exact .inl rfl
        | some sess => exact .inl (unsent_found m sess _)
      · exact .inr rfl
    · exact .inl rfl
  | tryRemotes m rest =>
    cases rest with
    | nil => exact absurd rfl (htry m)
    | cons s rest =>
      simp only [next, perform]
      split
      · rename_i o _
        cases o with
        | none => exact .inl rfl
        | some sess => exact .inl (unsent_found m sess _)
      · exact .inr rfl
  | updateLocal m sess newSession =>
    simp only [next, perform]
    split_ifs <;> exact .inl rfl
  | readRemotes m sess rest =>
    cases rest with
    | nil => exact .inl rfl
    | cons s rest =>
      simp only [next, perform]
      split
      · rename_i o _
        cases o <;> exact .inl rfl
      · exact .inr rfl
  | updateRemote m sess s rest remoteSess newSession =>
    simp only [next, perform]
    split_ifs <;> exact .inl rfl
  | deleteLocal m sess =>
    simp only [next, perform]
    split_ifs <;> exact .inl rfl
  | deleteRemotes m sess rest =>
    cases rest with
    | nil =>
      simp only [next]
      split_ifs <;> exact .inl rfl
    | cons s rest =>
      simp only [next, perform]
      split_ifs <;> exact .inl rfl
  | send m => exact absurd ⟨m, rfl⟩ hsend
  | _ => cases h

end Threads

/-! ## Tasks -/

section Tasks

variable {P : Platform} {site : Site} {x : TaskEnv} {s₀ : StoreId} {key : Bytes} {v w : Session}
  {fed fed' : Prop} {t : Task} {W : World} {msg : Message} {st : Stage}

theorem rc_of_sendCb {pm : PeerMessageSender} {r : SendCb} {accepted : Bool} {a : Answer}
    (h : pm.sendCb r = .answered accepted a) : a.rc = r.resultCode := by
  unfold PeerMessageSender.sendCb at h
  split_ifs at h
  · cases h
    rfl
  · split at h
    · cases h
    · dsimp only at h
      split_ifs at h
      · unfold PeerMessageSender.intSendMsg at h
        split at h <;> cases h
      · cases h
        rfl

/-- One step of a task of the call. -/
theorem Task.minds_step (h : t.pc.Minds s₀ v site fed) (hat : t.At P msg st)
    (hstop : msg.recordType ≠ .stop) (hkey : msg.key = key) (hmem : s₀ ∈ site.stores)
    (hup : (x.env.store s₀).down = false) (hknown : x.outcome.sendCb.resultCode ≠ 5002)
    (hw : view P (W s₀) key = some w) (hlineage : w.lineage = v.lineage) (hfed : fed → fed')
    (hlease : t.pc.unsent = true → ∀ expiry,
      t.lease P site x W = some (s₀, key, expiry) → fed') :
    (taskStep P site x t W).1.pc.Minds s₀ v site fed' := by
  cases t with
  | manager pc =>
    by_cases hsend : ∃ m, pc = .send m
    · obtain ⟨m, rfl⟩ := hsend
      simp only [taskStep]
      rcases send_cases m with hs | ⟨acr, hs⟩
      · simp only [hs, Task.ofResult]
        trivial
      · simp only [hs, Task.ofResult]
        trivial
    · rw [taskStep_manager P site x W hsend]
      exact Pc.Minds.step h hat hstop hkey hmem hup hw hlineage hfed hlease hsend
  | sender pm =>
    simp only [taskStep]
    cases hcb : pm.sendCb x.outcome.sendCb with
    | sent pm' acr => trivial
    | answered accepted a =>
      refine minds_onCcfResponse ?_ pm.msg
      rw [rc_of_sendCb hcb]
      exact hknown
    | undefined => trivial
  | undefined => trivial

/-- A task of the call leaves the record there. -/
theorem Task.keeps (h : t.pc.Minds s₀ v site fed) (hcopies : t.pc.Copies P site W)
    (hw : view P (W s₀) key = some w) (hlive : w.Live) :
    view P ((taskStep P site x t W).2.1 s₀) key ≠ none ∧
      ∀ expiry, t.lease P site x W = some (s₀, key, expiry) →
        expiry.toInt.toNat = 2 * w.sessionRefreshTime.toNat := by
  have hthere : view P (W s₀) key ≠ none := by
    rw [hw]
    exact Option.some_ne_none w
  cases t with
  | manager pc =>
    by_cases hsend : ∃ m, pc = .send m
    · obtain ⟨m, rfl⟩ := hsend
      exact ⟨hthere, fun _ hlease => by cases hlease⟩
    · rw [taskStep_manager P site x W hsend]
      exact (Pc.Minds.spares h hcopies).keeps hw hlive
  | sender pm => exact ⟨hthere, fun _ hlease => by cases hlease⟩
  | undefined => exact ⟨hthere, fun _ hlease => by cases hlease⟩

theorem returned_iff {pc : Pc} : pc.returned = true ↔ pc ≠ .aborted ∧ pc.unsent = false := by
  cases pc <;> simp [Pc.returned, Pc.unsent]

/-- `handle` returns when the message has been sent. -/
theorem returned_taskStep (htry : ∀ m, t.pc ≠ .tryRemotes m [])
    (h : (taskStep P site x t W).1.pc.returned = true) :
    t.pc.returned = true ∨ ∃ m sid, .manager (.send m sid) ∈ (taskStep P site x t W).2.2 := by
  cases t with
  | manager pc =>
    by_cases hsend : ∃ m, pc = .send m
    · obtain ⟨m, rfl⟩ := hsend
      exact .inr ⟨m, _, List.mem_cons_self⟩
    · rw [taskStep_manager P site x W hsend] at h
      obtain ⟨hne, hsent⟩ := returned_iff.mp h
      refine .inl (returned_iff.mpr ⟨?_, ?_⟩)
      · rintro rfl
        exact hne rfl
      · rw [← Bool.not_eq_true]
        intro hunsent
        have hcases : (step P site x.env pc W).1.unsent = true ∨
            (step P site x.env pc W).1 = .aborted := unsent_step hunsent hsend htry
        rcases hcases with hstill | habort
        · cases hstill.symm.trans hsent
        · exact hne habort
  | sender pm => exact .inl rfl
  | undefined => cases h

end Tasks

/-! ## Runs -/

section Assumptions

variable {κ : Type} (msg : κ → Message) (key : Bytes) (s₀ : StoreId) (arrival : κ → ℕ)
  (T gap Δ : ℕ)

/-- At this time an INTERIM of the call was sent, or the run began. -/
def Clocked.RefreshedAt (c : Clocked κ) (t : ℕ) : Prop :=
  t = T ∨ ∃ i m sid, (t, i, .manager (.send m sid)) ∈ c.log ∧ (msg i).key = key ∧
    m.recordType = .interim

/-- What is assumed at a step: the CAS values are new; the last INTERIM of the call was sent at most
`gap` ago; the store `s₀` loses the record of the call only when it has run out, and can be reached
by the messages of the call; the CCFs know the session; and `handle` takes at most `Δ`. -/
structure Clocked.Attended (c : Clocked κ) (a : ℕ × Happening κ) : Prop where
  fresh : c.tasks.Fresh a.2
  refreshed : ∃ t, c.RefreshedAt msg key T t ∧ a.1 ≤ t + gap
  lost : a.2 = .lose s₀ key → c.expires s₀ key < a.1
  reached : ∀ i x, a.2 = .move i x → (msg i).key = key → (x.env.store s₀).down = false
  known : ∀ i x, a.2 = .move i x → (msg i).key = key → x.outcome.sendCb.resultCode ≠ 5002
  prompt : ∀ i x, a.2 = .move i x → (msg i).key = key → (c.tasks.pc i).pc.unsent = true →
    arrival i ≤ a.1 ∧ a.1 ≤ arrival i + Δ

end Assumptions

/-- The record was written at the time `u` or later. -/
def Clocked.Fed {κ : Type} (c : Clocked κ) (s₀ : StoreId) (key : Bytes) (v : Session)
    (now u : ℕ) : Prop :=
  u ≤ now ∧ u + 2 * v.sessionRefreshTime.toNat ≤ c.expires s₀ key

section Runs

variable {P : Platform} {κ : Type} [DecidableEq κ] {site : κ → Site} {msg : κ → Message}
  {key : Bytes} {s₀ : StoreId} {v : Session} {arrival : κ → ℕ} {T gap Δ now : ℕ} {c : Clocked κ}

variable (P site msg key s₀ v arrival T Δ) in
/-- The session is where it was, and every task of the call minds it. -/
structure Clocked.Remembers (now : ℕ) (c : Clocked κ) : Prop where
  copies : CopyTasks P site c.tasks
  course : OnCourse P msg c.tasks
  hasKey : ∀ i, (c.tasks.pc i).pc.HasKey (msg i).key
  held : ∃ w, view P (c.tasks.shared s₀) key = some w ∧ w.lineage = v.lineage
  begun : c.Fed s₀ key v now T
  task : ∀ i, (msg i).key = key →
    (c.tasks.pc i).pc.Minds s₀ v (site i) (c.Fed s₀ key v now (arrival i))
  sent : ∀ t i m sid, (t, i, .manager (.send m sid)) ∈ c.log → (msg i).key = key →
    m.recordType = .interim → c.Fed s₀ key v now (arrival i) ∧ t ≤ arrival i + Δ ∧
      ((site i).localStore = s₀ → m.sessionId = v.sessionId ∧ m.ccfs = v.ccf)
  handled : ∀ i, (msg i).key = key → (c.tasks.pc i).pc.returned = true →
    ∃ t m sid, (t, i, .manager (.send m sid)) ∈ c.log

omit [DecidableEq κ] in
theorem Clocked.Fed.later {c' : Clocked κ} {t u : ℕ} (h : c.Fed s₀ key v now u) (hnow : now ≤ t)
    (hexp : c'.expires s₀ key = c.expires s₀ key ∨
      c'.expires s₀ key = t + 2 * v.sessionRefreshTime.toNat) : c'.Fed s₀ key v t u := by
  obtain ⟨hu, hkept⟩ := h
  refine ⟨hu.trans hnow, ?_⟩
  rcases hexp with hexp | hexp <;> omega

/-- The record does not run out as long as the INTERIMs come. -/
theorem Clocked.Remembers.not_expired (h : c.Remembers P site msg key s₀ v arrival T Δ now)
    (hgap : gap + Δ ≤ 2 * v.sessionRefreshTime.toNat) {t : ℕ}
    (ht : ∃ t', c.RefreshedAt msg key T t' ∧ t ≤ t' + gap) : t ≤ c.expires s₀ key := by
  obtain ⟨t', rfl | ⟨i, m, sid, hmem, hkey, hm⟩, ht⟩ := ht
  · have hbegun := h.begun.2
    omega
  · obtain ⟨⟨-, hfed⟩, hle, -⟩ := h.sent t' i m sid hmem hkey hm
    omega

theorem Clocked.Remembers.lose (h : c.Remembers P site msg key s₀ v arrival T Δ now) {t : ℕ}
    (hnow : now ≤ t) {s : StoreId} {lost : Bytes} (hne : ¬(s = s₀ ∧ lost = key)) :
    (clockStep P site (t, .lose s lost) c).Remembers P site msg key s₀ v arrival T Δ t := by
  have hfed : ∀ u, c.Fed s₀ key v now u →
      (clockStep P site (t, .lose s lost) c).Fed s₀ key v t u :=
    fun u hu => hu.later hnow (.inl rfl)
  obtain ⟨hcopies, -⟩ := h.copies.lose s lost
  have hcourse : OnCourse P msg (happen P site (.lose s lost) c.tasks) := h.course.step _
  refine ⟨hcopies, hcourse, h.hasKey, ?_, hfed T h.begun, ?_, ?_, h.handled⟩
  · obtain ⟨w, hw, hlineage⟩ := h.held
    refine ⟨w, ?_, hlineage⟩
    have hrec : ((c.tasks.shared.lose lost s) s₀).record key = (c.tasks.shared s₀).record key := by
      unfold World.lose
      by_cases hs : s₀ = s
      · subst hs
        rw [Function.update_self]
        exact record_lose_of_ne _ fun hkey => hne ⟨rfl, hkey.symm⟩
      · rw [Function.update_of_ne hs]
    show view P ((c.tasks.shared.lose lost s) s₀) key = some w
    unfold view at hw ⊢
    rw [getSessionData_of_ne hrec]
    exact hw
  · exact fun i hi => (h.task i hi).mono (hfed _)
  · intro t' i m sid hmem hkey hm
    obtain ⟨hf, hrest⟩ := h.sent t' i m sid hmem hkey hm
    exact ⟨hfed _ hf, hrest⟩

/-- A record of the call that is written runs out two refresh times later. -/
theorem Clocked.Remembers.renewed (h : c.Remembers P site msg key s₀ v arrival T Δ now)
    (hlive : v.Live) {i : κ} {x : TaskEnv} {t : ℕ} {expiry : Int32}
    (hlease : (c.tasks.pc i).lease P (site i) x c.tasks.shared = some (s₀, key, expiry)) :
    (clockStep P site (t, .move i x) c).expires s₀ key =
      t + 2 * v.sessionRefreshTime.toNat := by
  obtain ⟨w, hw, hlineage⟩ := h.held
  have hi : (msg i).key = key := (key_of_lease (h.hasKey i) hlease).symm
  obtain ⟨-, hexpiry⟩ := Task.keeps (x := x) (h.task i hi) (h.copies.copies i) hw
    (live_of_lineage hlineage hlive)
  simp only [Session.lineage, Prod.mk.injEq] at hlineage
  show c.renew t ((c.tasks.pc i).lease P (site i) x c.tasks.shared) s₀ key = _
  rw [hlease, renew_self, hexpiry expiry hlease, hlineage.2.2.1]

/-- A task leaves the record of the call there, whichever call it is of. -/
theorem Clocked.Remembers.there (h : c.Remembers P site msg key s₀ v arrival T Δ now)
    (hlive : v.Live) (i : κ) (x : TaskEnv) :
    view P ((taskStep P (site i) x (c.tasks.pc i) c.tasks.shared).2.1 s₀) key ≠ none := by
  obtain ⟨w, hw, hlineage⟩ := h.held
  by_cases hi : (msg i).key = key
  · exact (Task.keeps (h.task i hi) (h.copies.copies i) hw (live_of_lineage hlineage hlive)).1
  · unfold view at hw ⊢
    rw [getSessionData_of_ne (record_taskStep (Ne.symm hi) (site i) x (h.hasKey i) _ s₀), hw]
    exact Option.some_ne_none w

theorem Clocked.Remembers.move (h : c.Remembers P site msg key s₀ v arrival T Δ now)
    (hlive : v.Live) (hsite : ∀ i, (msg i).key = key → s₀ ∈ (site i).stores)
    (hstop : ∀ i, (msg i).key = key → (msg i).recordType ≠ .stop) {t : ℕ} (hnow : now ≤ t) {i : κ}
    {x : TaskEnv} (ha : c.Attended msg key s₀ arrival T gap Δ (t, .move i x)) :
    (clockStep P site (t, .move i x) c).Remembers P site msg key s₀ v arrival T Δ t := by
  obtain ⟨hcopies, hcontinued⟩ := h.copies.move i ha.fresh
  have hcourse : OnCourse P msg (happen P site (.move i x) c.tasks) := h.course.step _
  have hexp : (clockStep P site (t, .move i x) c).expires s₀ key = c.expires s₀ key ∨
      (clockStep P site (t, .move i x) c).expires s₀ key =
        t + 2 * v.sessionRefreshTime.toNat := by
    by_cases hlease : ∃ expiry,
        (c.tasks.pc i).lease P (site i) x c.tasks.shared = some (s₀, key, expiry)
    · obtain ⟨expiry, hlease⟩ := hlease
      exact .inr (h.renewed hlive hlease)
    · exact .inl (renew_of_ne c t (not_exists.mp hlease))
  have hfed : ∀ u, c.Fed s₀ key v now u →
      (clockStep P site (t, .move i x) c).Fed s₀ key v t u := fun u hu => hu.later hnow hexp
  obtain ⟨w, hw, hlineage⟩ := h.held
  refine ⟨hcopies, hcourse, hasKey_tasksStep h.hasKey i x, ?_, hfed T h.begun, ?_, ?_, ?_⟩
  · obtain ⟨w', hw'⟩ := Option.ne_none_iff_exists'.mp (h.there hlive i x)
    exact ⟨w', hw', (hcontinued s₀ key w w' hw hw').lineage.trans hlineage⟩
  · intro j hj
    by_cases hji : j = i
    · subst hji
      obtain ⟨st, -, hat⟩ := h.course j
      show (Function.update c.tasks.pc j _ j).pc.Minds s₀ v (site j) _
      rw [Function.update_self]
      refine Task.minds_step (h.task j hj) hat (hstop j hj) hj (hsite j hj) (ha.reached j x rfl hj)
        (ha.known j x rfl hj) hw hlineage (hfed _) fun hunsent expiry hlease => ?_
      obtain ⟨harrival, -⟩ := ha.prompt j x rfl hj hunsent
      refine ⟨harrival, ?_⟩
      rw [h.renewed hlive hlease]
      exact Nat.add_le_add_right harrival _
    · show (Function.update c.tasks.pc i _ j).pc.Minds s₀ v (site j) _
      rw [Function.update_of_ne hji]
      exact (h.task j hj).mono (hfed _)
  · intro t' j m sid hmem hj hm
    rcases List.mem_append.mp hmem with hold | hnew
    · obtain ⟨hf, hrest⟩ := h.sent t' j m sid hold hj hm
      exact ⟨hfed _ hf, hrest⟩
    · obtain ⟨e, he, heq⟩ := List.mem_map.mp hnew
      cases heq
      obtain ⟨hpc, -⟩ := eq_send_of_mem he
      have hminds := h.task i hj
      have hprompt := ha.prompt i x rfl hj
      rw [hpc] at hminds hprompt
      obtain ⟨hf, hid⟩ := hminds hm
      exact ⟨hfed _ hf, (hprompt rfl).2, hid⟩
  · intro j hj hret
    by_cases hji : j = i
    · subst hji
      replace hret : (Function.update c.tasks.pc j _ j).pc.returned = true := hret
      rw [Function.update_self] at hret
      have htry : ∀ m, (c.tasks.pc j).pc ≠ .tryRemotes m [] := by
        intro m hpc
        have hminds := h.task j hj
        rw [hpc] at hminds
        cases hminds.2
      rcases returned_taskStep htry hret with hold | ⟨m, sid, hmem⟩
      · obtain ⟨t', m, sid, hmem⟩ := h.handled j hj hold
        exact ⟨t', m, sid, List.mem_append_left _ hmem⟩
      · exact ⟨t, m, sid, List.mem_append_right _ (List.mem_map.mpr ⟨_, hmem, rfl⟩)⟩
    · replace hret : (Function.update c.tasks.pc i _ j).pc.returned = true := hret
      rw [Function.update_of_ne hji] at hret
      obtain ⟨t', m, sid, hmem⟩ := h.handled j hj hret
      exact ⟨t', m, sid, List.mem_append_left _ hmem⟩

/-- A step after which no less is known. -/
theorem Clocked.Remembers.step (h : c.Remembers P site msg key s₀ v arrival T Δ now)
    (hlive : v.Live) (hsite : ∀ i, (msg i).key = key → s₀ ∈ (site i).stores)
    (hstop : ∀ i, (msg i).key = key → (msg i).recordType ≠ .stop)
    (hgap : gap + Δ ≤ 2 * v.sessionRefreshTime.toNat) {a : ℕ × Happening κ} (hnow : now ≤ a.1)
    (ha : c.Attended msg key s₀ arrival T gap Δ a) :
    (clockStep P site a c).Remembers P site msg key s₀ v arrival T Δ a.1 := by
  obtain ⟨t, a⟩ := a
  cases a with
  | move i x => exact h.move hlive hsite hstop hnow ha
  | lose s lost =>
    refine h.lose hnow ?_
    rintro ⟨rfl, rfl⟩
    have hle := h.not_expired hgap ha.refreshed
    have hlt := ha.lost rfl
    dsimp only at hle hlt
    omega

/-- The same for runs. The clock does not go back. -/
theorem Clocked.Remembers.run (h : c.Remembers P site msg key s₀ v arrival T Δ now)
    (hlive : v.Live) (hsite : ∀ i, (msg i).key = key → s₀ ∈ (site i).stores)
    (hstop : ∀ i, (msg i).key = key → (msg i).recordType ≠ .stop)
    (hgap : gap + Δ ≤ 2 * v.sessionRefreshTime.toNat) {as : List (ℕ × Happening κ)}
    (hclock : (now :: as.map Prod.fst).Pairwise (· ≤ ·))
    (hrun : Along (clockStep P site) (Clocked.Attended msg key s₀ arrival T gap Δ) as c) :
    ∃ now', (exec (clockStep P site) as c).Remembers P site msg key s₀ v arrival T Δ now' := by
  induction as generalizing c now with
  | nil => exact ⟨now, h⟩
  | cons a as ih =>
    rw [List.map_cons, List.pairwise_cons] at hclock
    have hnow : now ≤ a.1 := hclock.1 a.1 List.mem_cons_self
    exact ih (h.step hlive hsite hstop hgap hnow hrun.1) hclock.2 hrun.2

/-- **Calls that are kept up are remembered.** At the time `T` the store `s₀` holds the session `v`
of a call, for two refresh times at least; the refresh time is positive and its double fits an `int`,
and every message of the call is handled at a site that has `s₀` among its stores. As long as no STOP
of the call comes, the CCFs know it, and its INTERIMs come in time, the session stays there, every
message of the call that `handle` returns from has been sent, and the INTERIMs at the sites whose
local store is `s₀` have been sent for this very session. -/
theorem refreshed_remembered {W : World} (hstart : c.tasks = Tasks.start msg W) (hlog : c.log = [])
    (hW : CasIssued W) (hv : view P (W s₀) key = some v) (hlive : v.Live)
    (hexpires : T + 2 * v.sessionRefreshTime.toNat ≤ c.expires s₀ key)
    (hsite : ∀ i, (msg i).key = key → s₀ ∈ (site i).stores)
    (hstop : ∀ i, (msg i).key = key → (msg i).recordType ≠ .stop)
    (hgap : gap + Δ ≤ 2 * v.sessionRefreshTime.toNat) {as : List (ℕ × Happening κ)}
    (hclock : (T :: as.map Prod.fst).Pairwise (· ≤ ·))
    (hrun : Along (clockStep P site) (Clocked.Attended msg key s₀ arrival T gap Δ) as c) :
    (∃ w, view P ((exec (clockStep P site) as c).tasks.shared s₀) key = some w ∧
      w.lineage = v.lineage) ∧
    (∀ i, (msg i).key = key → ((exec (clockStep P site) as c).tasks.pc i).pc.returned = true →
      ∃ t m sid, (t, i, .manager (.send m sid)) ∈ (exec (clockStep P site) as c).log) ∧
    ∀ t i m sid, (t, i, .manager (.send m sid)) ∈ (exec (clockStep P site) as c).log →
      (msg i).key = key → m.recordType = .interim → (site i).localStore = s₀ →
      m.sessionId = v.sessionId ∧ m.ccfs = v.ccf := by
  have hremembers : c.Remembers P site msg key s₀ v arrival T Δ T := by
    obtain ⟨tasks, expires, log⟩ := c
    cases hstart
    cases hlog
    refine ⟨⟨hW, fun _ => trivial⟩, fun j => ⟨.before, .nil, rfl, rfl⟩,
      fun i => Pc.hasKey_of_message rfl rfl, ⟨v, hv, rfl⟩, ⟨le_refl T, hexpires⟩,
      fun _ _ => trivial, ?_, ?_⟩
    · intro t i m sid hmem
      cases hmem
    · intro i _ hret
      cases hret
  obtain ⟨now, hend⟩ := hremembers.run hlive hsite hstop hgap hclock hrun
  exact ⟨hend.held, hend.handled, fun t i m sid hmem hi hm hlocal =>
    (hend.sent t i m sid hmem hi hm).2.2 hlocal⟩

end Runs

/-! ### Two INTERIMs -/

section Sample

variable {P : Platform} {κ : Type} [DecidableEq κ] {site : κ → Site} {msg : κ → Message}
  {key : Bytes} {s₀ : StoreId} {arrival : κ → ℕ} {T gap Δ : ℕ}

/-- Accepted messages that come at the time `t`, not too long after an INTERIM. -/
theorem attended_acceptedRun (is : List κ) {n t t' : ℕ} {c : Clocked κ}
    (h : ∀ s, ∀ x ∈ (c.tasks.shared s).issued, x ≤ n) (ht' : c.RefreshedAt msg key T t')
    (hgap : t ≤ t' + gap) (harrival : ∀ i ∈ is, arrival i ≤ t ∧ t ≤ arrival i + Δ) :
    Along (clockStep P site) (Clocked.Attended msg key s₀ arrival T gap Δ)
      ((acceptedRun n is).map (t, ·)) c := by
  induction is generalizing c n with
  | nil => trivial
  | cons i is ih =>
    refine ⟨?_, ih (fun s x hx => ?_) ?_ fun j hj => harrival j (List.mem_cons_of_mem i hj)⟩
    · refine ⟨fun s hs => ?_, ⟨t', ht', hgap⟩, fun hlose => ?_, ?_, ?_, ?_⟩
      · have hle : n + 1 ≤ n := h s _ hs
        omega
      · cases hlose
      · rintro j x ⟨⟩ _
        rfl
      · rintro j x ⟨⟩ _
        exact show (2001 : Int32) ≠ 5002 by decide
      · rintro j x ⟨⟩ _ _
        exact harrival i List.mem_cons_self
    · rcases issued_taskStep hx with rfl | hx
      · exact le_refl (n + 1)
      · exact (h s x hx).trans (Nat.le_succ n)
    · refine ht'.imp_right ?_
      rintro ⟨j, m, sid, hmem, hm⟩
      exact ⟨j, m, sid, mem_log_clockStep hmem _, hm⟩

theorem issued_acceptedRun (is : List κ) {n t : ℕ} {c : Clocked κ}
    (h : ∀ s, ∀ x ∈ (c.tasks.shared s).issued, x ≤ n) (s : StoreId) :
    ∀ x ∈ ((exec (clockStep P site) ((acceptedRun n is).map (t, ·)) c).tasks.shared s).issued,
      x ≤ n + is.length := by
  induction is generalizing c n with
  | nil => exact h s
  | cons i is ih =>
    rw [List.length_cons, ← Nat.succ_add_eq_add_succ]
    refine ih fun s x hx => ?_
    rcases issued_taskStep hx with rfl | hx
    · exact le_refl (n + 1)
    · exact (h s x hx).trans (Nat.le_succ n)

end Sample

theorem eq_send_of_sent {e : TaskEvent} {m : Message} {sid : Bytes}
    (h : e.event.bind Event.sent = some (m, sid)) : e = .manager (.send m sid) := by
  cases e with
  | manager e =>
    cases e with
    | send m' sid' =>
      cases h
      rfl
    | _ => cases h
  | sender e => cases h

/-- Two INTERIMs of a call, 400 seconds apart. -/
def twiceRefreshed : List (ℕ × Happening Bool) :=
  (acceptedRun 1 (List.replicate 9 false)).map (400, ·) ++
    (acceptedRun 10 (List.replicate 9 true)).map (800, ·)

def interimOfCall : Message :=
  .new (ascii "call") 0 0 (opaqueDoc (startMessage 300)) .interim 0 false

def beforeRefreshing : Clocked Bool where
  tasks := Tasks.start (fun _ => interimOfCall)
    (World.holding compactPlatform sampleKey (sampleSession 1) fun s => s < 2)
  expires := fun _ _ => 600
  log := []

theorem attended_twiceRefreshed :
    Along (clockStep compactPlatform fun _ => localAndRemote)
      (Clocked.Attended (fun _ => interimOfCall) sampleKey 0 (fun i => if i then 800 else 400)
        0 400 0)
      twiceRefreshed beforeRefreshing := by
  refine Along.append.mpr ⟨?_, ?_⟩
  · refine attended_acceptedRun _ (fun s x hx => issued_holding hx) (.inl rfl) (by omega) ?_
    intro i hi
    rw [List.eq_of_mem_replicate hi]
    decide
  · have hany : (exec (clockStep compactPlatform fun _ => localAndRemote)
        ((acceptedRun 1 (List.replicate 9 false)).map (400, ·)) beforeRefreshing).log.any
          (fun y => decide (y.1 = 400) && (y.2.2.event.bind Event.sent).any
            fun z => decide (z.1.recordType = .interim)) = true := by
      decide +kernel
    obtain ⟨⟨t, j, e⟩, hmem, he⟩ := List.any_eq_true.mp hany
    rw [Bool.and_eq_true, decide_eq_true_eq] at he
    obtain ⟨rfl, he⟩ := he
    have hrefreshed : (exec (clockStep compactPlatform fun _ => localAndRemote)
        ((acceptedRun 1 (List.replicate 9 false)).map (400, ·)) beforeRefreshing).RefreshedAt
          (fun _ => interimOfCall) sampleKey 0 400 := by
      obtain ⟨⟨m, sid⟩, hsent, hm⟩ := (Option.any_eq_true _ _).mp he
      cases eq_send_of_sent hsent
      exact .inr ⟨j, m, sid, hmem, rfl, decide_eq_true_eq.mp hm⟩
    refine attended_acceptedRun _ (issued_acceptedRun (List.replicate 9 false)
      fun s x hx => issued_holding hx) hrefreshed (by omega) ?_
    intro i hi
    rw [List.eq_of_mem_replicate hi]
    decide

/-- The second INTERIM comes when the record that was there at first would have run out. -/
theorem refreshed_remembered_twice :
    beforeRefreshing.expires 0 sampleKey < 800 ∧
    (∃ w, view compactPlatform ((exec (clockStep compactPlatform fun _ => localAndRemote)
      twiceRefreshed beforeRefreshing).tasks.shared 0) sampleKey = some w ∧
        w.lineage = (sampleSession 1).lineage) ∧
    ∃ t m sid, (t, true, .manager (.send m sid)) ∈
      (exec (clockStep compactPlatform fun _ => localAndRemote) twiceRefreshed
        beforeRefreshing).log := by
  have hview : view compactPlatform (World.holding compactPlatform sampleKey (sampleSession 1)
      (fun s => s < 2) 0) sampleKey = some { sampleSession 1 with cas := 1 } := by
    decide +kernel
  have hdone : ((exec (clockStep compactPlatform fun _ => localAndRemote) twiceRefreshed
      beforeRefreshing).tasks.pc true).pc.returned = true := by
    decide +kernel
  have hlive : ({ sampleSession 1 with cas := 1 } : Session).Live := by
    unfold Session.Live
    decide +kernel
  have hclock : (0 :: twiceRefreshed.map Prod.fst).Pairwise (· ≤ ·) := by decide +kernel
  have hexpires : 0 + 2 * ({ sampleSession 1 with cas := 1 } : Session).sessionRefreshTime.toNat ≤
      beforeRefreshing.expires 0 sampleKey := by
    decide +kernel
  obtain ⟨hheld, hhandled, -⟩ := refreshed_remembered rfl rfl (storesReady_holding _ _ _ _).issued
    hview hlive hexpires (fun _ _ => List.mem_cons_self) (fun _ _ => by decide) (by decide +kernel)
    hclock attended_twiceRefreshed
  exact ⟨by decide, hheld, hhandled true rfl hdone⟩

end Ralf
