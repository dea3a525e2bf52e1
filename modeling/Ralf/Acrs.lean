import Ralf.Moves

/-!
# The ACRs of a thread

A thread settles the contents of its ACR when its write to the local store goes through (INTERIM,
STOP) or at once (START, EVENT); from then on the message is `outgoing`, until it is sent. Over
whole runs each thread obtains at most one message and sends it at most once (`SendsOnce`), however
often it starts again after a contention.
-/

namespace Ralf

open Bytes Versioned Runs

/-- The message and the Session-Id of an ACR that is sent. -/
def Event.sent : Event → Option (Message × Bytes)
  | .send msg sessionId => some (msg, sessionId)
  | _ => none

/-- The message a thread is going to send, once its contents are settled. -/
def Pc.outgoing : Pc → Option Message
  | .readRemotes msg sess _ => some (fillIn msg sess)
  | .updateRemote msg sess _ _ _ _ => some (fillIn msg sess)
  | .deleteRemotes msg sess _ => some (fillIn msg sess)
  | .send msg => some msg
  | _ => none

/-- The thread is still inside `handle`. -/
def Pc.unsent : Pc → Bool
  | .handle _ => true
  | .tryRemotes _ _ => true
  | .updateLocal _ _ _ => true
  | .readRemotes _ _ _ => true
  | .updateRemote _ _ _ _ _ _ => true
  | .deleteLocal _ _ => true
  | .deleteRemotes _ _ _ => true
  | .send _ => true
  | _ => false

theorem unsent_of_outgoing {pc : Pc} {msg : Message} (h : pc.outgoing = some msg) :
    pc.unsent = true := by
  cases pc <;> first | rfl | cases h

section Moves

variable {P : Platform} {site : Site} {env : Env} {pc pc' : Pc} {R R' : Regs} {es : List Event}

theorem Move.unsent (h : Move P site env pc R pc' R' es) (hpc' : pc'.unsent = true) :
    pc.unsent = true := by
  cases h <;> first | rfl | cases hpc'

/-- Where the contents of an ACR are settled. -/
inductive Settles (site : Site) (R : Regs) : Pc → Pc → Message → Prop where
  | interim {msg sess newSession} : R.version site.localStore = sess.expected newSession →
      Settles site R (.updateLocal msg sess newSession) (.readRemotes msg sess site.remoteStores)
        (fillIn msg sess)
  | stop {msg sess} : R.version site.localStore = sess.cas →
      Settles site R (.deleteLocal msg sess) (.deleteRemotes msg sess site.remoteStores)
        (fillIn msg sess)
  | first {msg} : msg.recordType ≠ .interim → msg.recordType ≠ .stop →
      Settles site R (.handle msg) (.send { msg with accountingRecordNumber := 1 })
        { msg with accountingRecordNumber := 1 }

theorem Settles.unsent {msg : Message} (h : Settles site R pc pc' msg) : pc.unsent = true := by
  cases h <;> rfl

/-- What a move means for the ACR of its thread: nothing, or its contents are settled, or it is
sent. -/
theorem Move.progress (h : Move P site env pc R pc' R' es) :
    (es.filterMap Event.sent = [] ∧ pc'.outgoing = pc.outgoing) ∨
      (es = [] ∧ pc.outgoing = none ∧ ∃ msg, pc'.outgoing = some msg ∧ Settles site R pc pc' msg) ∨
      ∃ msg, pc = .send msg ∧ pc' = .awaitAnswer msg ∧ R' = R ∧
        es = [.send msg (acrSessionId env msg)] := by
  cases h with
  | handleFirst hi hs => exact .inr (.inl ⟨rfl, rfl, _, rfl, .first hi hs⟩)
  | updateLocal hv => exact .inr (.inl ⟨rfl, rfl, _, rfl, .interim hv⟩)
  | deleteLocal hv => exact .inr (.inl ⟨rfl, rfl, _, rfl, .stop hv⟩)
  | send => exact .inr (.inr ⟨_, rfl, rfl, rfl, rfl⟩)
  | _ => exact .inl ⟨rfl, rfl⟩

/-- Only a thread at `send` sends, and it is past `handle` then. -/
theorem Move.sent (h : Move P site env pc R pc' R' es) :
    es.filterMap Event.sent = [] ∨
      ∃ msg, pc = .send msg ∧ pc' = .awaitAnswer msg ∧ es = [.send msg (acrSessionId env msg)] := by
  rcases h.progress with ⟨hes, -⟩ | ⟨rfl, -⟩ | ⟨msg, hpc, hpc', -, hes⟩
  · exact .inl hes
  · exact .inl rfl
  · exact .inr ⟨msg, hpc, hpc', hes⟩

theorem Move.outgoing (h : Move P site env pc R pc' R' es) {msg : Message}
    (hpc' : pc'.outgoing = some msg) : pc.outgoing = some msg ∨ Settles site R pc pc' msg := by
  rcases h.progress with ⟨-, hout⟩ | ⟨-, -, msg', hout', hset⟩ | ⟨msg', -, rfl, -⟩
  · exact .inl (hout.symm.trans hpc')
  · rw [hout'] at hpc'
    cases hpc'
    exact .inr hset
  · cases hpc'

end Moves

/-! ## Runs -/

section Runs

variable {P : Platform} {κ : Type} [DecidableEq κ] {site : κ → Site}

/-- What a thread has sent. -/
def sentBy (trace : List (κ × Event)) (i : κ) : List (Message × Bytes) :=
  trace.filterMap fun e => if e.1 = i then e.2.sent else none

theorem sentBy_append_self (trace : List (κ × Event)) (i : κ) (es : List Event) :
    sentBy (trace ++ es.map (i, ·)) i = sentBy trace i ++ es.filterMap Event.sent := by
  unfold sentBy
  rw [List.filterMap_append, List.filterMap_map]
  congr 1
  apply List.filterMap_congr
  intro e _
  simp

theorem sentBy_append_of_ne (trace : List (κ × Event)) {i j : κ} (h : j ≠ i) (es : List Event) :
    sentBy (trace ++ es.map (i, ·)) j = sentBy trace j := by
  unfold sentBy
  rw [List.filterMap_append, List.filterMap_map]
  have hnil : es.filterMap ((fun e : κ × Event => if e.1 = j then e.2.sent else none) ∘ (i, ·)) =
      [] := by
    rw [List.filterMap_eq_nil_iff]
    intro e _
    simp [h.symm]
  rw [hnil, List.append_nil]

/-- No thread sends twice, and what is still inside `handle` has not sent. -/
structure SendsOnce (σ : RegSys κ) : Prop where
  unsent : ∀ i, (σ.pc i).unsent = true → sentBy σ.trace i = []
  once : ∀ i, (sentBy σ.trace i).length ≤ 1

/-- The message was sent by the thread, or it is going to be. -/
def Obtained (σ : RegSys κ) (i : κ) (msg : Message) : Prop :=
  (∃ sessionId, (msg, sessionId) ∈ sentBy σ.trace i) ∨ (σ.pc i).outgoing = some msg

theorem sendsOnce_start {key : Bytes} {msg : κ → Message} {W : World} :
    SendsOnce ((Sys.start msg W).map (regs P key)) where
  unsent := fun _ _ => rfl
  once := fun _ => Nat.zero_le 1

theorem not_obtained_start {key : Bytes} {msg : κ → Message} {W : World} {i : κ} {m : Message} :
    ¬ Obtained ((Sys.start msg W).map (regs P key)) i m := by
  rintro (⟨sid, h⟩ | h) <;> cases h

theorem SendsOnce.step {σ : RegSys κ} (h : SendsOnce σ) {a : κ × Env} (hup : a.2.Up) :
    SendsOnce (regSysStep P site a σ) := by
  obtain ⟨pc', R', es, hm, heq⟩ := regSysStep_cases P site a hup σ
  rw [heq]
  have hself : (pc'.unsent = true → sentBy (σ.trace ++ es.map (a.1, ·)) a.1 = []) ∧
      (sentBy (σ.trace ++ es.map (a.1, ·)) a.1).length ≤ 1 := by
    rw [sentBy_append_self]
    obtain hnone | ⟨msg, hpc, rfl, rfl⟩ := hm.sent
    · rw [hnone, List.append_nil]
      exact ⟨fun hpc' => h.unsent a.1 (hm.unsent hpc'), h.once a.1⟩
    · rw [h.unsent a.1 (by rw [hpc]; rfl)]
      exact ⟨fun hpc' => (by cases hpc'), le_refl 1⟩
  constructor
  · intro i hi
    by_cases hia : i = a.1
    · subst hia
      exact hself.1 (by simpa using hi)
    · rw [sentBy_append_of_ne _ hia]
      exact h.unsent i (by simpa [Function.update_of_ne hia] using hi)
  · intro i
    by_cases hia : i = a.1
    · subst hia
      exact hself.2
    · rw [sentBy_append_of_ne _ hia]
      exact h.once i

/-- A step gives a message to no thread but the one that moves, when it settles it. -/
theorem obtained_step {σ : RegSys κ} {a : κ × Env} (hup : a.2.Up) {i : κ} {msg : Message}
    (h : Obtained (regSysStep P site a σ) i msg) :
    Obtained σ i msg ∨
      i = a.1 ∧ Settles (site i) σ.shared (σ.pc i) ((regSysStep P site a σ).pc i) msg := by
  obtain ⟨pc', R', es, hm, heq⟩ := regSysStep_cases P site a hup σ
  rw [heq] at h ⊢
  by_cases hia : i = a.1
  · subst hia
    unfold Obtained at h
    simp only [Function.update_self] at h ⊢
    rw [sentBy_append_self] at h
    rcases h with ⟨sid, hsid⟩ | hout
    · obtain hnone | ⟨msg', hpc, -, rfl⟩ := hm.sent
      · rw [hnone, List.append_nil] at hsid
        exact .inl (.inl ⟨sid, hsid⟩)
      · rcases List.mem_append.mp hsid with hsid | hsid
        · exact .inl (.inl ⟨sid, hsid⟩)
        · simp only [List.filterMap_cons, Event.sent, List.filterMap_nil, List.mem_singleton,
            Prod.mk.injEq] at hsid
          refine .inl (.inr ?_)
          rw [hpc, hsid.1]
          rfl
    · rcases hm.outgoing hout with hold | hset
      · exact .inl (.inr hold)
      · exact .inr ⟨trivial, hset⟩
  · unfold Obtained at h
    rw [sentBy_append_of_ne _ hia] at h
    simp only [Function.update_of_ne hia] at h
    exact .inl h

theorem mem_sentBy {trace : List (κ × Event)} {i : κ} {m : Message × Bytes} :
    m ∈ sentBy trace i ↔ (i, Event.send m.1 m.2) ∈ trace := by
  unfold sentBy
  rw [List.mem_filterMap]
  constructor
  · rintro ⟨⟨j, e⟩, he, h⟩
    dsimp only at h
    split_ifs at h with hj
    subst hj
    cases e with
    | send msg sid =>
      cases h
      exact he
    | timer => cases h
    | healthCheckPassed => cases h
  · intro h
    exact ⟨_, h, by simp [Event.sent]⟩

/-- What holds between the messages of different threads holds between any two sendings. -/
theorem pairwise_sent {Q : κ → κ → Message × Bytes → Message × Bytes → Prop}
    {trace : List (κ × Event)} (honce : ∀ i, (sentBy trace i).length ≤ 1)
    (hQ : ∀ i j m m', i ≠ j → m ∈ sentBy trace i → m' ∈ sentBy trace j → Q i j m m') :
    trace.Pairwise fun e e' =>
      ∀ m m', e.2.sent = some m → e'.2.sent = some m' → Q e.1 e'.1 m m' := by
  induction trace with
  | nil => exact .nil
  | cons e trace ih =>
    have hsub : ∀ i, (sentBy trace i).Sublist (sentBy (e :: trace) i) := by
      intro i
      exact (List.sublist_cons_self e trace).filterMap _
    refine List.pairwise_cons.mpr ⟨?_, ih (fun i => (hsub i).length_le.trans (honce i))
      fun i j m m' hij hm hm' => hQ i j m m' hij ((hsub i).subset hm) ((hsub j).subset hm')⟩
    rintro ⟨j, e'⟩ he' m m' hm hm'
    have hmem : m' ∈ sentBy trace j := List.mem_filterMap.mpr ⟨(j, e'), he', by simpa using hm'⟩
    have hself : sentBy (e :: trace) e.1 = m :: sentBy trace e.1 := by
      simp [sentBy, hm]
    by_cases hj : e.1 = j
    · -- the same thread would have sent twice
      have hlen := honce e.1
      rw [hself, List.length_cons] at hlen
      rw [← hj] at hmem
      have := List.length_pos_of_mem hmem
      omega
    · exact hQ e.1 j m m' hj (by rw [hself]; exact List.mem_cons_self) ((hsub j).subset hmem)

end Runs

end Ralf
