import Ralf.Integrity
import Ralf.Lib.Projection

/-!
# Remote stores that cannot be reached

A site with remote stores that cannot be reached does what a site without these stores does:
`unreachable_as_none`. A read there finds nothing and the search goes on, a write or a delete fails
with an error that no loop takes for contention. So the only trace of the store is that the loops
take a few steps more, and every property of the program that speaks of stores, requests and ACRs
can be used during an outage, at the site without the stores.

`without` takes the stores out of a site and out of the lists that a thread still has in front of
it. A step at one of them is not seen (`step_atOutage`), every other step is the same on both sides
(`next_without`).
-/

namespace Ralf

open Bytes Runs

variable (out : StoreId → Bool)

/-- The stores that are left of a list. -/
def remaining (stores : List StoreId) : List StoreId := stores.filter fun s => !out s

/-- The site without the remote stores in `out`. -/
def Site.without (site : Site) : Site where
  localStore := site.localStore
  remoteStores := remaining out site.remoteStores
  nodup := by
    have h := List.nodup_cons.mp site.nodup
    exact List.nodup_cons.mpr ⟨fun hmem => h.1 (List.mem_of_mem_filter hmem), h.2.filter _⟩

/-- Where the thread stands at the site without the stores. One that has read from such a store and
is about to write to it is through with it. -/
def Pc.without : Pc → Pc
  | .tryRemotes msg rest => .tryRemotes msg (remaining out rest)
  | .readRemotes msg sess rest => .readRemotes msg sess (remaining out rest)
  | .updateRemote msg sess s rest remoteSess newSession =>
    if out s then .readRemotes msg sess (remaining out rest)
    else .updateRemote msg sess s (remaining out rest) remoteSess newSession
  | .deleteRemotes msg sess rest => .deleteRemotes msg sess (remaining out rest)
  | .deleteUnknown msg rest => .deleteUnknown msg (remaining out rest)
  | .writeSession msg sess rest => .writeSession msg sess (remaining out rest)
  | .readTimerId msg timerId rest accepted =>
    .readTimerId msg timerId (remaining out rest) accepted
  | .writeTimerId msg timerId s rest sess accepted =>
    if out s then .readTimerId msg timerId (remaining out rest) accepted
    else .writeTimerId msg timerId s (remaining out rest) sess accepted
  | pc => pc

/-- The thread calls one of the stores next. -/
def Pc.atOutage : Pc → Bool
  | .tryRemotes _ (s :: _) => out s
  | .readRemotes _ _ (s :: _) => out s
  | .updateRemote _ _ s _ _ _ => out s
  | .deleteRemotes _ _ (s :: _) => out s
  | .deleteUnknown _ (s :: _) => out s
  | .writeSession _ _ (s :: _) => out s
  | .readTimerId _ _ (s :: _) _ => out s
  | .writeTimerId _ _ s _ _ _ => out s
  | _ => false

/-- Another continuation. -/
def Action.map (f : Pc → Pc) : Action → Action
  | .get s key k => .get s key (f ∘ k)
  | .set s key sess newSession k => .set s key sess newSession (f ∘ k)
  | .casDelete s key sess k => .casDelete s key sess (f ∘ k)
  | .delete s key k => .delete s key (f ∘ k)
  | .timer req k => .timer req (f ∘ k)
  | .send msg pc => .send msg (f pc)
  | .answer k => .answer (f ∘ k)
  | .healthCheckPassed pc => .healthCheckPassed (f pc)
  | .goto pc => .goto (f pc)

variable {out}

theorem remaining_cons_of_out {s : StoreId} (h : out s = true) (rest : List StoreId) :
    remaining out (s :: rest) = remaining out rest := by
  simp [remaining, h]

theorem remaining_cons {s : StoreId} (h : out s = false) (rest : List StoreId) :
    remaining out (s :: rest) = s :: remaining out rest := by
  simp [remaining, h]

theorem Site.stores_without {site : Site} (h : out site.localStore = false) :
    (site.without out).stores = remaining out site.stores := by
  unfold Site.stores
  rw [remaining_cons h]
  rfl

/-! ## Steps that are not seen -/

section Steps

variable {P : Platform} {site : Site} {env : Env} {pc : Pc} {W : World}

theorem perform_get_down {s : StoreId} (h : (env.store s).down = true) (key : Bytes)
    (k : Option Session → Pc) : perform P env W (.get s key k) = (k none, W, []) := by
  have hget : getSessionData P (W s) (env.store s) key = .ok none := by
    unfold getSessionData Store.getData
    rw [h]
    rfl
  simp only [perform, hget]

theorem perform_set_down {s : StoreId} (h : (env.store s).down = true) (key : Bytes)
    (sess : Session) (newSession : Bool) (k : Status → Pc) :
    perform P env W (.set s key sess newSession k) = (k .error, W, []) := by
  simp [perform, setSessionData, Store.setData, h]

theorem perform_delete_down {s : StoreId} (h : (env.store s).down = true) (key : Bytes)
    (k : Status → Pc) : perform P env W (.delete s key k) = (k .error, W, []) := by
  simp [perform, deleteSessionData, Store.deleteData, h]

/-- A step at a store that cannot be reached is a step on the spot, and there are not many of
them. -/
theorem step_atOutage (hout : ∀ s, out s = true → (env.store s).down = true)
    (h : pc.atOutage out = true) :
    ∃ pc', step P site env pc W = (pc', W, []) ∧ pc'.without out = pc.without out ∧
      pc'.effort site 0 < pc.effort site 0 := by
  unfold step
  cases pc with
  | tryRemotes msg rest =>
    cases rest with
    | nil => cases h
    | cons s rest =>
      refine ⟨_, perform_get_down (hout s h) msg.key _, ?_, ?_⟩
      · simp only [Pc.without, remaining_cons_of_out h]
      · simp only [Pc.effort, List.length_cons]
        omega
  | readRemotes msg sess rest =>
    cases rest with
    | nil => cases h
    | cons s rest =>
      have hs : out s = true := h
      refine ⟨_, perform_get_down (hout s hs) msg.key _, ?_, ?_⟩
      · simp only [Pc.without, remaining_cons_of_out hs, if_pos hs]
      · simp only [Pc.effort, List.length_cons]
        omega
  | updateRemote msg sess s rest remoteSess newSession =>
    have hs : out s = true := h
    refine ⟨_, perform_set_down (hout s hs) msg.key _ _ _, ?_, ?_⟩
    · rw [if_pos (by decide)]
      simp only [Pc.without, if_pos hs]
    · rw [if_pos (by decide)]
      simp only [Pc.effort]
      omega
  | deleteRemotes msg sess rest =>
    cases rest with
    | nil => cases h
    | cons s rest =>
      refine ⟨_, perform_delete_down (hout s h) msg.key _, ?_, ?_⟩
      · simp only [Pc.without, remaining_cons_of_out h]
        rfl
      · rw [if_pos (by decide)]
        simp only [Pc.effort, List.length_cons]
        omega
  | deleteUnknown msg rest =>
    cases rest with
    | nil => cases h
    | cons s rest =>
      refine ⟨_, perform_delete_down (hout s h) msg.key _, ?_, ?_⟩
      · simp only [Pc.without, remaining_cons_of_out h]
      · simp only [Pc.effort, List.length_cons]
        omega
  | writeSession msg sess rest =>
    cases rest with
    | nil => cases h
    | cons s rest =>
      refine ⟨_, perform_set_down (hout s h) msg.key _ _ _, ?_, ?_⟩
      · simp only [Pc.without, remaining_cons_of_out h]
      · simp only [Pc.effort, List.length_cons]
        omega
  | readTimerId msg timerId rest accepted =>
    cases rest with
    | nil => cases h
    | cons s rest =>
      refine ⟨_, perform_get_down (hout s h) msg.key _, ?_, ?_⟩
      · simp only [Pc.without, remaining_cons_of_out h]
      · simp only [Pc.effort, List.length_cons]
        omega
  | writeTimerId msg timerId s rest sess accepted =>
    have hs : out s = true := h
    refine ⟨_, perform_set_down (hout s hs) msg.key _ _ _, ?_, ?_⟩
    · simp only [Pc.without, if_pos hs]
    · simp only [Pc.effort]
      omega
  | _ => cases h

/-! ## Steps that are the same -/

theorem found_without (msg : Message) (sess : Session) (newSession : Bool) :
    (found msg sess newSession).without out = found msg sess newSession := by
  unfold found
  dsimp only
  split_ifs <;> rfl

theorem onCcfResponse_without (hlocal : out site.localStore = false) (accepted : Bool)
    (interimInterval : UInt32) (sessionId : Bytes) (rc : Int32) (msg : Message) :
    (onCcfResponse site accepted interimInterval sessionId rc msg).without out =
      onCcfResponse (site.without out) accepted interimInterval sessionId rc msg := by
  unfold onCcfResponse
  rw [Site.stores_without hlocal]
  dsimp only
  split_ifs <;> rfl

/-- **The same call.** Away from the stores in `out` the thread makes the same call at both sites,
and goes on at the same place. -/
theorem next_without (hlocal : out site.localStore = false) (h : pc.atOutage out = false) :
    next P (site.without out) (pc.without out) = (next P site pc).map (Pc.without out) := by
  cases pc with
  | handle msg =>
    simp only [Pc.without, next]
    split_ifs
    · simp only [Action.map]
      congr 1
      funext o
      cases o with
      | none => rfl
      | some sess => exact (found_without msg sess false).symm
    · rfl
  | tryRemotes msg rest =>
    cases rest with
    | nil => rfl
    | cons s rest =>
      simp only [Pc.without, remaining_cons (show out s = false from h), next, Action.map]
      congr 1
      funext o
      cases o with
      | none => rfl
      | some sess => exact (found_without msg sess true).symm
  | updateLocal msg sess newSession =>
    simp only [Pc.without, next, Action.map]
    congr 1
    funext rc
    simp only [Function.comp]
    split_ifs <;> rfl
  | readRemotes msg sess rest =>
    cases rest with
    | nil => rfl
    | cons s rest =>
      have hs : out s = false := h
      simp only [Pc.without, remaining_cons hs, next, Action.map]
      congr 1
      funext o
      cases o <;> simp [Pc.without, hs]
  | updateRemote msg sess s rest remoteSess newSession =>
    have hs : out s = false := h
    simp only [Pc.without, hs, next, Action.map, Bool.false_eq_true, if_false]
    congr 1
    funext rc
    simp only [Function.comp]
    split_ifs
    · rfl
    · simp only [Pc.without, remaining_cons hs]
  | deleteLocal msg sess =>
    simp only [Pc.without, next, Action.map]
    congr 1
    funext rc
    simp only [Function.comp]
    split_ifs <;> rfl
  | deleteRemotes msg sess rest =>
    cases rest with
    | nil =>
      simp only [Pc.without, remaining, List.filter_nil, next]
      split_ifs <;> rfl
    | cons s rest =>
      have hs : out s = false := h
      simp only [Pc.without, remaining_cons hs, next, Action.map]
      congr 1
      funext rc
      simp only [Function.comp]
      split_ifs
      · rfl
      · simp only [Pc.without, remaining_cons hs]
  | send msg => rfl
  | awaitAnswer msg =>
    simp only [Pc.without, next, Action.map]
    congr 1
    funext a
    exact (onCcfResponse_without hlocal _ _ _ _ msg).symm
  | deleteUnknown msg rest =>
    cases rest with
    | nil => rfl
    | cons s rest =>
      simp only [Pc.without, remaining_cons (show out s = false from h), next, Action.map]
      rfl
  | createTimer msg interimInterval sessionId =>
    simp only [Pc.without, next, Action.map, Site.stores_without hlocal]
    rfl
  | writeSession msg sess rest =>
    cases rest with
    | nil => rfl
    | cons s rest =>
      simp only [Pc.without, remaining_cons (show out s = false from h), next, Action.map]
      rfl
  | sendChronosUpdate msg interimInterval accepted =>
    simp only [Pc.without, next, Action.map, Site.stores_without hlocal]
    congr 1
    funext id
    simp only [Function.comp]
    split_ifs <;> rfl
  | readTimerId msg timerId rest accepted =>
    cases rest with
    | nil => rfl
    | cons s rest =>
      have hs : out s = false := h
      simp only [Pc.without, remaining_cons hs, next, Action.map]
      congr 1
      funext o
      cases o <;> simp [Pc.without, hs]
  | writeTimerId msg timerId s rest sess accepted =>
    have hs : out s = false := h
    simp only [Pc.without, hs, next, Action.map, Bool.false_eq_true, if_false]
    rfl
  | finish accepted =>
    simp only [Pc.without, next]
    split_ifs <;> rfl
  | done => rfl
  | aborted => rfl

theorem perform_map (a : Action) :
    perform P env W (a.map (Pc.without out)) =
      ((perform P env W a).1.without out, (perform P env W a).2) := by
  cases a with
  | get s key k =>
    simp only [Action.map, perform]
    split <;> rfl
  | _ => rfl

theorem step_without (hlocal : out site.localStore = false) (h : pc.atOutage out = false) :
    step P (site.without out) env (pc.without out) W =
      ((step P site env pc W).1.without out, (step P site env pc W).2) := by
  unfold step
  rw [next_without hlocal h, perform_map]

end Steps

/-! ## Tasks -/

/-- Where the task stands at the site without the stores. -/
def Task.without (out : StoreId → Bool) : Task → Task
  | .manager pc => .manager (pc.without out)
  | .sender pm => .sender pm
  | .undefined => .undefined

def Task.atOutage (out : StoreId → Bool) : Task → Bool
  | .manager pc => pc.atOutage out
  | _ => false

/-- The steps the session manager has left at most. -/
def Task.effort (site : Site) : Task → ℕ
  | .manager pc => pc.effort site 0
  | _ => 0

section Tasks

variable {P : Platform} {site : Site} {x : TaskEnv} {t : Task} {W : World}

theorem Task.atRest_without (t : Task) : (t.without out).atRest = t.atRest := by
  cases t with
  | manager pc =>
    cases pc with
    | updateRemote | writeTimerId =>
      simp only [Task.without, Pc.without]
      split_ifs <;> rfl
    | _ => rfl
  | _ => rfl

theorem ofResult_without (hlocal : out site.localStore = false) (msg : Message)
    (r : SenderResult) :
    (Task.ofResult site msg r).without out = Task.ofResult (site.without out) msg r := by
  cases r with
  | answered accepted a => exact congrArg Task.manager (onCcfResponse_without hlocal _ _ _ _ msg)
  | _ => rfl

variable (P site W) in
theorem taskStep_atOutage (hout : ∀ s, out s = true → (x.env.store s).down = true)
    (h : t.atOutage out = true) :
    ∃ t', taskStep P site x t W = (t', W, []) ∧ t'.without out = t.without out ∧
      t'.effort site < t.effort site := by
  cases t with
  | manager pc =>
    have hsend : ¬∃ msg, pc = .send msg := by
      rintro ⟨msg, rfl⟩
      cases h
    obtain ⟨pc', heq, hwithout, heffort⟩ := step_atOutage (P := P) (W := W) hout h
    refine ⟨.manager pc', ?_, congrArg Task.manager hwithout, heffort⟩
    rw [taskStep_manager P site x W hsend, heq]
    rfl
  | sender pm => cases h
  | undefined => cases h

theorem taskStep_without (hlocal : out site.localStore = false) (h : t.atOutage out = false) :
    taskStep P (site.without out) x (t.without out) W =
      ((taskStep P site x t W).1.without out, (taskStep P site x t W).2) := by
  cases t with
  | manager pc =>
    by_cases hsend : ∃ msg, pc = .send msg
    · obtain ⟨msg, rfl⟩ := hsend
      show (Task.ofResult (site.without out) msg (PeerMessageSender.send msg), W, _) = _
      rw [← ofResult_without hlocal]
      rfl
    · have hsend' : ¬∃ msg, pc.without out = .send msg := by
        rintro ⟨msg, hmsg⟩
        cases pc with
        | send m => exact hsend ⟨m, rfl⟩
        | updateRemote | writeTimerId =>
          simp only [Pc.without] at hmsg
          split_ifs at hmsg
        | _ => cases hmsg
      rw [taskStep_manager P site x W hsend]
      show taskStep P (site.without out) x (.manager (pc.without out)) W = _
      rw [taskStep_manager P (site.without out) x W hsend', step_without hlocal h]
      rfl
  | sender pm =>
    show (Task.ofResult (site.without out) pm.msg (pm.sendCb x.outcome.sendCb), W, _) = _
    rw [← ofResult_without hlocal]
    rfl
  | undefined => rfl

end Tasks

/-! ## Runs -/

section Runs

variable {P : Platform} {κ : Type} [DecidableEq κ] {site : κ → Site} {σ τ : Tasks κ}

/-- The same stores and the same trace, with the tasks where they are without the stores in
`out`. -/
structure Shadows (out : StoreId → Bool) (σ τ : Tasks κ) : Prop where
  pc : ∀ i, τ.pc i = (σ.pc i).without out
  shared : τ.shared = σ.shared
  trace : τ.trace = σ.trace

theorem Shadows.unseen (h : Shadows out σ τ) {i : κ} {x : TaskEnv}
    (hout : ∀ s, out s = true → (x.env.store s).down = true)
    (hat : (σ.pc i).atOutage out = true) :
    Shadows out (happen P site (.move i x) σ) τ ∧
      ((happen P site (.move i x) σ).pc i).effort (site i) < (σ.pc i).effort (site i) := by
  obtain ⟨t', heq, hwithout, heffort⟩ := taskStep_atOutage P (site i) σ.shared hout hat
  have hstep : happen P site (.move i x) σ =
      ⟨Function.update σ.pc i t', σ.shared, σ.trace⟩ := by
    unfold happen tasksStep Pool.step
    simp only [heq, List.map_nil, List.append_nil]
  rw [hstep]
  refine ⟨⟨?_, h.shared, h.trace⟩, ?_⟩
  · intro j
    by_cases hj : j = i
    · subst hj
      simp only [Function.update_self]
      rw [hwithout]
      exact h.pc j
    · simp only [Function.update_of_ne hj]
      exact h.pc j
  · simp only [Function.update_self]
    exact heffort

theorem Shadows.seen (h : Shadows out σ τ) {i : κ} (hlocal : out (site i).localStore = false)
    (x : TaskEnv) (hat : (σ.pc i).atOutage out = false) :
    Shadows out (happen P site (.move i x) σ)
      (happen P (fun i => (site i).without out) (.move i x) τ) := by
  have hstep := taskStep_without (P := P) (x := x) (W := σ.shared) hlocal hat
  rw [← h.pc i, ← h.shared] at hstep
  refine ⟨?_, ?_, ?_⟩
  · intro j
    show Function.update τ.pc i _ j = (Function.update σ.pc i _ j).without out
    by_cases hj : j = i
    · subst hj
      rw [Function.update_self, Function.update_self]
      show (taskStep P ((site j).without out) x (τ.pc j) τ.shared).1 = _
      rw [hstep, h.shared]
    · rw [Function.update_of_ne hj, Function.update_of_ne hj]
      exact h.pc j
  · show (taskStep P ((site i).without out) x (τ.pc i) τ.shared).2.1 = _
    rw [hstep, h.shared]
    rfl
  · show τ.trace ++ (taskStep P ((site i).without out) x (τ.pc i) τ.shared).2.2.map _ = _
    rw [hstep, h.shared, h.trace]
    rfl

theorem Shadows.lose (h : Shadows out σ τ) (s : StoreId) (key : Bytes) :
    Shadows out (happen P site (.lose s key) σ)
      (happen P (fun i => (site i).without out) (.lose s key) τ) := by
  refine ⟨h.pc, ?_, h.trace⟩
  show τ.shared.lose key s = σ.shared.lose key s
  rw [h.shared]

/-- A step of the task at the site without the stores takes a few more at the full site. -/
theorem Shadows.expand (hlocal : ∀ i, out (site i).localStore = false) (h : Shadows out σ τ)
    {a : Happening κ} (ha : a.Without out) :
    ∃ as : List (Happening κ), (∀ b ∈ as, b.Without out) ∧
      Shadows out (exec (happen P site) as σ)
        (happen P (fun i => (site i).without out) a τ) := by
  cases a with
  | lose s key =>
    refine ⟨[.lose s key], ?_, h.lose s key⟩
    intro b hb
    rw [List.mem_singleton.mp hb]
    trivial
  | move i x =>
    -- by induction on the steps the session manager has left
    induction hn : (σ.pc i).effort (site i) using Nat.strong_induction_on generalizing σ with
    | _ n ih =>
      cases hat : (σ.pc i).atOutage out with
      | false =>
        refine ⟨[.move i x], ?_, h.seen (hlocal i) x hat⟩
        intro b hb
        rw [List.mem_singleton.mp hb]
        exact ha
      | true =>
        obtain ⟨h', hlt⟩ := h.unseen (P := P) ha hat
        obtain ⟨as, has, hR⟩ := ih _ (hn ▸ hlt) h' rfl
        refine ⟨.move i x :: as, ?_, hR⟩
        intro b hb
        rcases List.mem_cons.mp hb with rfl | hb
        · exact ha
        · exact has b hb

/-- What can be seen of a run: the stores, the requests and ACRs, and which messages are through. -/
structure Seen (κ : Type) where
  stores : World
  trace : List (κ × TaskEvent)
  through : κ → Bool

def Tasks.seen (σ : Tasks κ) : Seen κ := ⟨σ.shared, σ.trace, fun i => (σ.pc i).atRest⟩

omit [DecidableEq κ] in
theorem Shadows.seen_eq (h : Shadows out σ τ) : τ.seen = σ.seen := by
  unfold Tasks.seen
  rw [h.shared, h.trace]
  congr 1
  funext i
  rw [h.pc i, Task.atRest_without]

/-- **Unreachable remote stores are as good as none.** Some stores, none of them local to a site of
the tasks, cannot be reached throughout. Then what can be seen of the runs is exactly what can be
seen of them at the sites without these stores. -/
theorem unreachable_as_none (hlocal : ∀ i, out (site i).localStore = false) (msg : κ → Message)
    (W : World) (v : Seen κ) :
    (∃ as : List (Happening κ), (∀ a ∈ as, a.Without out) ∧
        (exec (happen P site) as (Tasks.start msg W)).seen = v) ↔
      ∃ as : List (Happening κ), (∀ a ∈ as, a.Without out) ∧
        (exec (happen P fun i => (site i).without out) as (Tasks.start msg W)).seen = v := by
  have hstart : Shadows out (Tasks.start msg W) (Tasks.start msg W) := ⟨fun _ => rfl, rfl, rfl⟩
  constructor
  · rintro ⟨as, has, rfl⟩
    obtain ⟨bs, hbs, hR⟩ : ∃ bs, bs.Sublist as ∧
        Shadows out (exec (happen P site) as (Tasks.start msg W))
          (exec (happen P fun i => (site i).without out) bs (Tasks.start msg W)) := by
      refine Along.stutter ?_ (Along.of_forall (fun a ha _ => has a ha) _) hstart
      intro σ τ a h ha
      cases a with
      | lose s key => exact .inl (h.lose s key)
      | move i x =>
        cases hat : (σ.pc i).atOutage out with
        | false => exact .inl (h.seen (hlocal i) x hat)
        | true => exact .inr (h.unseen ha hat).1
    exact ⟨bs, fun b hb => has b (hbs.mem hb), hR.seen_eq⟩
  · rintro ⟨bs, hbs, rfl⟩
    obtain ⟨as, has, hR⟩ := exec_expand
      (fun σ τ a (h : Shadows out σ τ) ha => h.expand (P := P) hlocal ha) hbs hstart
    exact ⟨as, has, hR.seen_eq.symm⟩

end Runs

/-- Every CCF accepts, and the remote store cannot be reached. -/
def remoteDown : TaskEnv where
  env := { accepting.env with store := fun s => ⟨s == 1, Nat.succPNat 0⟩ }
  outcome := accepting.outcome

/-- A START over a store that cannot be reached: what is seen of it at the site without the store, to
its end, is seen of a run at the full site. -/
theorem unreachable_as_none_start :
    ∃ as : List (Happening Unit), (∀ a ∈ as, a.Without (· == 1)) ∧
      (exec (happen compactPlatform fun _ => localAndRemote) as
        (Tasks.start (fun _ => startMessage 300) fun _ => .empty)).seen =
      (exec (happen compactPlatform fun _ => localAndRemote.without (· == 1))
        (List.replicate 6 (.move () remoteDown))
        (Tasks.start (fun _ => startMessage 300) fun _ => .empty)).seen := by
  refine (unreachable_as_none (fun _ => rfl) _ _ _).mpr ⟨_, ?_, rfl⟩
  intro a ha
  rw [List.eq_of_mem_replicate ha]
  exact fun s hs => hs

end Ralf
