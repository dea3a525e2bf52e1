import Ralf.Chronos
import Ralf.Handlers
import Ralf.System

/-!
# Timer callbacks

A request that arms a timer carries a URI and a body, and when the timer pops Chronos sends the body
to the URI. The body is written by the session manager and read by the HTTP handler, which know
nothing of each other; `timer_callback` says that they agree, whatever message the timer was armed
for.
-/

namespace Ralf

open Bytes Runs

section Callback

variable {P : Platform} {site : Site} {msg : Message}

variable (P) in
/-- The URI given to a timer of a call. -/
def callbackUri (callId : Bytes) : Bytes :=
  ascii "/call-id/" ++ P.urlEscape callId ++ ascii "?timer-interim=true"

variable (P msg) in
/-- The arguments of a timer request are those of the message's call. -/
structure TimerSpec.For (spec : TimerSpec) : Prop where
  callbackUri : spec.callbackUri = Ralf.callbackUri P msg.callId
  opaqueData : spec.opaqueData = createOpaqueData P msg

theorem for_timerSpec {m : Message} (h : m.identity = msg.identity) (interimInterval : UInt32) :
    (timerSpec P m interimInterval).For P msg := by
  simp only [Message.identity, Prod.mk.injEq] at h
  obtain ⟨hcall, hrole, hfunction, -⟩ := h
  refine ⟨?_, ?_⟩
  · simp only [timerSpec, callbackUri, hcall]
  · simp only [timerSpec, createOpaqueData, opaqueDoc, hrole, hfunction]

/-- What a thread has asked of Chronos is for the message it started with. -/
structure AsksFor (P : Platform) (msg : Message) (t : Thread) : Prop where
  identity : t.pc.Every fun m => m.identity = msg.identity
  specs : ∀ req ∈ requests t.trace, ∀ spec, req.spec = some spec → spec.For P msg

theorem AsksFor.step {t : Thread} (h : AsksFor P msg t) (env : Env) :
    AsksFor P msg (threadStep P site env t) where
  identity := every_step site env (fun m m' hid hm => hid.trans hm) h.identity
  specs := by
    intro req hreq spec hspec
    have hreq' : req ∈ requests t.trace ++ requests (Ralf.step P site env t.pc t.shared).2.2 := by
      rw [← requests_append]
      exact hreq
    rcases List.mem_append.mp hreq' with hold | hnew
    · exact h.specs req hold spec hspec
    · obtain ⟨m, hm, hmade⟩ := request_step hnew
      obtain ⟨interimInterval, rfl⟩ := hmade spec hspec
      exact for_timerSpec (h.identity m hm) interimInterval

theorem asksFor_exec (W : World) (envs : List Env) :
    AsksFor P msg (exec (threadStep P site) envs (Thread.start msg W)) := by
  refine exec_invariant (fun t env ht => ht.step env) envs ⟨Pc.every_of_message rfl rfl, ?_⟩
  intro req hreq
  cases hreq

/-- **Timer callbacks.** Every message that was accepted arms its timers with the URI of its call
and the body of `create_opaque_data`, and the request Chronos makes of these is accepted, as a
timer-triggered INTERIM of the same role and function, without a refresh time or CCFs. If the HTTP
stack undoes the URL escaping, it is of the same call and finds the same session. -/
theorem timer_callback {callId body : Bytes} {timerInterim : Bool}
    (hmsg : parseBody P callId timerInterim body = .ok (some msg)) (http : HttpStack)
    (hparam : http.param (callbackUri P callId) TIMER_INTERIM_PARAM = ascii "true") :
    (∀ (site : Site) (W : World) (envs : List Env),
      ∀ req ∈ requests (exec (threadStep P site) envs (Thread.start msg W)).trace,
        ∀ spec, req.spec = some spec →
          spec.callbackUri = callbackUri P callId ∧ spec.opaqueData = createOpaqueData P msg) ∧
      ∃ m, runBillingTask P http ⟨.post, callbackUri P callId, createOpaqueData P msg⟩ =
          (HTTP_OK, some m) ∧
        m.recordType = .interim ∧ m.timerInterim = true ∧ m.sessionRefreshTime = 0 ∧
        m.ccfs = [] ∧ m.role = msg.role ∧ m.function = msg.function ∧
        (http.file (callbackUri P callId) = callId →
          m.callId = msg.callId ∧ m.key = msg.key ∧
          ∀ st env, getSessionData P st env m.key = getSessionData P st env msg.key) := by
  have hcall : msg.callId = callId := by
    obtain ⟨_, _, _, _, _, _, -, -, -, -, rfl⟩ := parseBody_ok hmsg
    rfl
  refine ⟨?_, ?_⟩
  · intro site W envs req hreq spec hspec
    obtain ⟨huri, hdata⟩ := (asksFor_exec W envs).specs req hreq spec hspec
    rw [hcall] at huri
    exact ⟨huri, hdata⟩
  · refine ⟨.new (http.file (callbackUri P callId)) msg.role msg.function (opaqueDoc msg)
      .interim 0 true, ?_, rfl, rfl, rfl, rfl, rfl, rfl, ?_⟩
    · unfold runBillingTask
      simp only [ne_eq, not_true_eq_false, if_false, hparam, decide_true,
        parseBody_createOpaqueData]
    · intro hfile
      have hkey : createKey (http.file (callbackUri P callId)) msg.role msg.function = msg.key := by
        rw [hfile, ← hcall]
        rfl
      refine ⟨hfile.trans hcall.symm, hkey, fun st env => ?_⟩
      exact congrArg (getSessionData P st env) hkey

end Callback

/-- An HTTP stack for URIs without escapes and with one parameter: the file is what stands between
the last slash and the query. -/
def plainHttp : HttpStack where
  file := fun uri => (((uri.takeWhile (· ≠ 63)).reverse).takeWhile (· ≠ 47)).reverse
  param := fun uri name =>
    let query := (uri.dropWhile (· ≠ 63)).drop 1
    if query.takeWhile (· ≠ 61) = name then (query.dropWhile (· ≠ 61)).drop 1 else []

/-- The body of an INTERIM with an unusual role. -/
def interimOfRole (role : Int32) : Bytes :=
  createOpaqueData compactPlatform (.new [] role 10 .null .interim 0 false)

theorem timer_callback_interim :
    ∃ m m', parseBody compactPlatform (ascii "call") false (interimOfRole (-7)) = .ok (some m) ∧
      runBillingTask compactPlatform plainHttp ⟨.post, callbackUri compactPlatform (ascii "call"),
        createOpaqueData compactPlatform m⟩ = (HTTP_OK, some m') ∧
      m'.key = m.key := by
  have hmsg := parseBody_createOpaqueData (P := compactPlatform) (ascii "call") false
    (.new [] (-7) 10 .null .interim 0 false)
  obtain ⟨-, m', hrun, -, -, -, -, -, -, hsame⟩ := timer_callback hmsg plainHttp (by decide)
  exact ⟨_, m', hmsg, hrun, (hsame (by decide)).2.1⟩

end Ralf
