import Mathlib.Data.Finset.Basic
import Ralf.Refinement

/-!
# Requests to Chronos

What a run asks of Chronos (`requests`), and where a request comes from: whatever arms a timer
carries the arguments of `timerSpec`, made from the message the thread is working on
(`request_step`). Chronos itself is the set of the timers it holds (`chronosServe`).
-/

namespace Ralf

open Bytes

/-- The arguments of a request that arms a timer. -/
def TimerRequest.spec : TimerRequest → Option TimerSpec
  | .post spec => some spec
  | .put _ spec => some spec
  | .delete _ => none

def Event.request : Event → Option TimerRequest
  | .timer req => some req
  | _ => none

/-- The requests of a trace. -/
def requests (tr : List Event) : List TimerRequest := tr.filterMap Event.request

@[simp] theorem requests_nil : requests [] = [] := rfl

@[simp] theorem requests_append (tr es : List Event) :
    requests (tr ++ es) = requests tr ++ requests es :=
  List.filterMap_append

theorem mem_requests {req : TimerRequest} {es : List Event} :
    req ∈ requests es ↔ .timer req ∈ es := by
  unfold requests
  rw [List.mem_filterMap]
  constructor
  · rintro ⟨e, he, hreq⟩
    cases e with
    | timer req' =>
      cases hreq
      exact he
    | send => cases hreq
    | healthCheckPassed => cases hreq
  · intro h
    exact ⟨_, h, rfl⟩

/-- What a request does to the timers Chronos holds: a POST adds the timer whose id it returns, a PUT
replaces the timer it names, and a DELETE removes it. A POST or PUT that fails changes nothing. -/
def chronosServe (timer : Option Bytes) (T : Finset Bytes) : TimerRequest → Finset Bytes
  | .post _ =>
    match timer with
    | some id => insert id T
    | none => T
  | .put id _ =>
    match timer with
    | some id' => insert id' (T.erase id)
    | none => T
  | .delete id => T.erase id

/-- The timer a stored session names. -/
def Session.timers (sess : Session) : Finset Bytes :=
  if sess.timerId = NO_TIMER then ∅ else {sess.timerId}

section Requests

variable {P : Platform} {site : Site} {env : Env} {pc : Pc} {W : World} {req : TimerRequest}

theorem spec_chronosUpdate (msg : Message) (interimInterval : UInt32) :
    (chronosUpdate P msg interimInterval).spec = some (timerSpec P msg interimInterval) := by
  unfold chronosUpdate
  split_ifs <;> rfl

theorem request_next {k : Option Bytes → Pc} (h : next P site pc = .timer req k) :
    ∃ msg, pc.message = some msg ∧
      ∀ spec, req.spec = some spec → ∃ interimInterval, spec = timerSpec P msg interimInterval := by
  cases pc with
  | handle msg =>
    simp only [next] at h
    split_ifs at h
  | tryRemotes msg rest => cases rest <;> cases h
  | readRemotes msg sess rest => cases rest <;> cases h
  | deleteRemotes msg sess rest =>
    cases rest with
    | nil =>
      simp only [next] at h
      split_ifs at h
      cases h
      exact ⟨msg, rfl, fun spec hspec => by cases hspec⟩
    | cons s rest => cases h
  | deleteUnknown msg rest => cases rest <;> cases h
  | createTimer msg interimInterval sessionId =>
    cases h
    exact ⟨msg, rfl, fun spec hspec => ⟨interimInterval, (Option.some.inj hspec).symm⟩⟩
  | writeSession msg sess rest => cases rest <;> cases h
  | sendChronosUpdate msg interimInterval accepted =>
    cases h
    refine ⟨msg, rfl, fun spec hspec => ⟨interimInterval, ?_⟩⟩
    rw [spec_chronosUpdate] at hspec
    exact (Option.some.inj hspec).symm
  | readTimerId msg timerId rest accepted => cases rest <;> cases h
  | finish accepted =>
    simp only [next] at h
    split_ifs at h
  | _ => cases h

/-- A step that makes a request was about to make it. -/
theorem next_of_request (h : req ∈ requests (step P site env pc W).2.2) :
    ∃ k, next P site pc = .timer req k := by
  obtain ⟨e, he, hreq⟩ := List.mem_filterMap.mp h
  rcases event_perform he with ⟨req', k, hnext, rfl⟩ | ⟨msg, pc', -, rfl⟩ | rfl
  · cases hreq
    exact ⟨k, hnext⟩
  · cases hreq
  · cases hreq

/-- **Where requests come from.** -/
theorem request_step (h : req ∈ requests (step P site env pc W).2.2) :
    ∃ msg, pc.message = some msg ∧
      ∀ spec, req.spec = some spec → ∃ interimInterval, spec = timerSpec P msg interimInterval := by
  obtain ⟨k, hk⟩ := next_of_request h
  exact request_next hk

end Requests

end Ralf
