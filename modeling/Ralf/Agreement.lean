import Ralf.Sequential

/-!
# Replicas

Messages are processed one after another, and between them stores may lose the record. An INTERIM
repairs such a loss: it takes the session from wherever it is left and writes it back everywhere. A
START does not: it adds its session where there is none and leaves the others as they are, so that
after an accepted START over a session that only some stores have lost, the stores hold two
different sessions (`replicas_differ`). Apart from that the stores of a site that hold the key agree
on it, whatever is lost (`replicas_agree`).
-/

namespace Ralf

open Bytes Versioned Runs

section Registers

variable {site : Site} {R R' : Regs} {sess : Session}

/-- Any two stores of the site that hold a session hold the same one. -/
def Agree (site : Site) (R : Regs) : Prop :=
  ∀ s ∈ site.stores, ∀ t ∈ site.stores, ∀ v w, (R s).cell = some v → (R t).cell = some w →
    v.content = w.content

/-- No store of the site holds a session, or every one. -/
def Uniform (site : Site) (R : Regs) : Prop :=
  (∀ s ∈ site.stores, (R s).cell = none) ∨ ∀ s ∈ site.stores, (R s).cell ≠ none

/-- It is enough that any two results of the effect agree. -/
theorem Agree.of_effect {g : Option Session → ℕ+ → Option Session}
    (heff : Effect g site.stores R R')
    (h : ∀ s ∈ site.stores, ∀ t ∈ site.stores, ∀ c d v w, g (R s).cell c = some v →
      g (R t).cell d = some w → v.content = w.content) : Agree site R' := by
  intro s hs t ht v w hv hw
  obtain ⟨c, hc⟩ := heff.cell s hs
  obtain ⟨d, hd⟩ := heff.cell t ht
  exact h s hs t ht c d v w (hc.symm.trans hv) (hd.symm.trans hw)

theorem Agree.gone (heff : Effect gone site.stores R R') : Agree site R' :=
  .of_effect heff fun s _ t _ c d v w hv => by cases hv

/-- A loss. -/
theorem Agree.erase (h : Agree site R) (s : StoreId) : Agree site (R.erase s) := by
  have hcell : ∀ t v, (R.erase s t).cell = some v → (R t).cell = some v := by
    intro t v hv
    by_cases hts : t = s
    · subst hts
      rw [Regs.erase_self] at hv
      cases hv
    · rwa [Regs.erase_of_ne R hts] at hv
  exact fun t ht u hu v w hv hw => h t ht u hu v w (hcell t v hv) (hcell u w hw)

theorem Agree.retimed {timerId : Bytes} (h : Agree site R)
    (heff : Effect (retimed timerId) site.stores R R') : Agree site R' := by
  refine .of_effect heff fun s hs t ht c d v w hv hw => ?_
  obtain ⟨v₀, hv₀, hv⟩ := Option.bind_eq_some_iff.mp hv
  obtain ⟨w₀, hw₀, hw⟩ := Option.bind_eq_some_iff.mp hw
  rw [content_written hv, content_written hw]
  have hcontent := h s hs t ht v₀ w₀ hv₀ hw₀
  exact congrArg (fun x : Session => ({ x with timerId := timerId } : Session).stored) hcontent

theorem mem_of_find {stores : List StoreId} (h : R.find stores = some sess) :
    ∃ s ∈ stores, (R s).cell = some sess :=
  List.exists_of_findSome?_eq_some h

/-- An INTERIM brings every store to the same session, the lost ones too. -/
theorem Agree.counted (h : Agree site R) (hfind : R.find site.stores = some sess)
    (heff : Effect (counted sess.incremented) site.stores R R') : Agree site R' := by
  obtain ⟨s₀, hs₀, hcell₀⟩ := mem_of_find hfind
  -- what is written to a store is the incremented session, whether the store had one or not
  have hsource : ∀ s ∈ site.stores, ∀ c v, Ralf.counted sess.incremented (R s).cell c = some v →
      v.content = sess.incremented.content.stored := by
    intro s hs c v hv
    rw [content_written hv]
    cases hc : (R s).cell with
    | none => rfl
    | some w =>
      have hcontent := h s hs s₀ hs₀ w sess hc hcell₀
      exact congrArg (fun x : Session => x.incremented.stored) hcontent
  exact .of_effect heff fun s hs t ht c d v w hv hw =>
    (hsource s hs c v hv).trans (hsource t ht d w hw).symm

/-- A START keeps the agreement if no store lacks the session while another one has it, or if its
own session expires at once. -/
theorem Agree.added (h : Agree site R) (hsess : Uniform site R ∨ ¬ 0 < sess.expiry)
    (heff : Effect (added sess) site.stores R R') : Agree site R' := by
  rcases hsess with (hnone | hall) | hdead
  · refine .of_effect heff fun s hs t ht c d v w hv hw => ?_
    rw [hnone s hs] at hv
    rw [hnone t ht] at hw
    rw [content_written hv, content_written hw]
  · refine .of_effect heff fun s hs t ht c d v w hv hw => ?_
    obtain ⟨v₀, hv₀⟩ := Option.ne_none_iff_exists'.mp (hall s hs)
    obtain ⟨w₀, hw₀⟩ := Option.ne_none_iff_exists'.mp (hall t ht)
    rw [hv₀] at hv
    rw [hw₀] at hw
    cases hv
    cases hw
    exact h s hs t ht _ _ hv₀ hw₀
  · -- nothing is added
    have hkeep : ∀ s c v, Ralf.added sess (R s).cell c = some v → (R s).cell = some v := by
      intro s c v hv
      cases hc : (R s).cell with
      | some v₀ =>
        rw [hc] at hv
        exact hv
      | none =>
        rw [hc] at hv
        simp [Ralf.added, Session.written, hdead] at hv
    exact .of_effect heff fun s hs t ht c d v w hv hw =>
      h s hs t ht v w (hkeep s c v hv) (hkeep t d w hw)

variable {msg : Message} {a : Answer} {out : List Message}

theorem expiry_startSession (interimInterval : UInt32) (sessionId timerId : Bytes) :
    (startSession msg interimInterval sessionId timerId).expiry =
      (2 * msg.sessionRefreshTime).toInt32 := rfl

theorem Agree.answered (h : Agree site R)
    (hstart : msg.recordType = .start → a.accepted = true → Uniform site R ∨
      ¬ 0 < (2 * msg.sessionRefreshTime).toInt32) (hans : Answered site a msg R R') :
    Agree site R' := by
  cases hans with
  | unknown _ _ heff => exact .gone heff
  | retimed _ _ heff => exact h.retimed heff
  | created hs hacc heff =>
    refine h.added ?_ heff
    rw [expiry_startSession]
    exact hstart hs hacc
  | kept => exact h

/-- One message. -/
theorem Agree.processed (h : Agree site R)
    (hstart : msg.recordType = .start → a.accepted = true → Uniform site R ∨
      ¬ 0 < (2 * msg.sessionRefreshTime).toInt32) (hproc : Processed site a msg R R' out) :
    Agree site R' := by
  cases hproc with
  | ignored => exact h
  | interim hi hfind heff hans =>
    refine (h.counted hfind heff).answered (fun hs => ?_) hans
    cases hi.symm.trans hs
  | stop hst _ heff hans =>
    refine (Agree.gone heff).answered (fun hs => ?_) hans
    cases hst.symm.trans hs
  | first _ _ hans =>
    refine h.answered ?_ hans
    exact hstart

end Registers

/-! ## Runs with losses -/

/-- What happens to the stores: a message is processed to completion, or a store loses the record. -/
inductive Turn where
  | message (msg : Message) (a : Answer)
  | loss (store : StoreId)

section Runs

variable (P : Platform) (site : Site) (key : Bytes)

inductive Takes : World → Turn → List Message → World → Prop where
  | message {W msg a out W'} : Completes P site W (msg, a) out W' →
      Takes W (.message msg a) out W'
  | loss {W s} : Takes W (.loss s) [] (W.lose key s)

/-- The message is of the key, and a STOP finds the local record. -/
def Turn.Assumed (W : World) : Turn → Prop
  | .message msg _ => msg.key = key ∧
      (msg.recordType = .stop → (W site.localStore).record key ≠ none)
  | .loss _ => True

/-- No START is accepted, for a session that does not expire at once, while some but not all stores
hold the key. -/
def Turn.Whole (W : World) : Turn → Prop
  | .message msg a => msg.recordType = .start → a.accepted = true →
      0 < (2 * msg.sessionRefreshTime).toInt32 →
      (∀ s ∈ site.stores, (W s).record key = none) ∨ ∀ s ∈ site.stores, (W s).record key ≠ none
  | .loss _ => True

def AssumedTurn (W : World) (x : Turn) (out : List Message) (W' : World) : Prop :=
  x.Assumed site key W ∧ Takes P site key W x out W'

def WholeTurn (W : World) (x : Turn) (out : List Message) (W' : World) : Prop :=
  x.Whole site key W ∧ AssumedTurn P site key W x out W'

/-- Any two stores of the site that hold the key hold equal sessions. -/
def ReplicasAgree (W : World) : Prop :=
  ∀ s ∈ site.stores, ∀ t ∈ site.stores, ∀ v w, view P (W s) key = some v →
    view P (W t) key = some w → v.content = w.content

variable {P site key} {W W' W₀ : World}

theorem regs_lose (s : StoreId) : regs P key (W.lose key s) = (regs P key W).erase s := by
  unfold World.lose
  rw [regs_update, regOf_of_none (record_lose (W s) key)]
  rfl

theorem readable_lose (hW : ReadableAll P key W) (s : StoreId) : ReadableAll P key (W.lose key s) :=
  hW.update (readable_of_none (record_lose (W s) key))

theorem view_ne_none (hW : ReadableAll P key W) {s : StoreId} (h : (W s).record key ≠ none) :
    (regs P key W s).cell ≠ none :=
  fun hnone => h (record_of_view_none (hW s) hnone)

theorem uniform_regs (hW : ReadableAll P key W)
    (h : (∀ s ∈ site.stores, (W s).record key = none) ∨
      ∀ s ∈ site.stores, (W s).record key ≠ none) : Uniform site (regs P key W) := by
  rcases h with hnone | hall
  · exact .inl fun s hs => view_of_none (hnone s hs)
  · exact .inr fun s hs => view_ne_none hW (hall s hs)

/-- The stores can be read, and they agree. -/
structure Consistent (P : Platform) (site : Site) (key : Bytes) (W : World) : Prop where
  readable : ReadableAll P key W
  agree : Agree site (regs P key W)

theorem Consistent.step (h : Consistent P site key W) {x : Turn} {out : List Message}
    (hstep : WholeTurn P site key W x out W') : Consistent P site key W' := by
  obtain ⟨hwhole, hassumed, htakes⟩ := hstep
  cases htakes with
  | @loss s =>
    refine ⟨readable_lose h.readable s, ?_⟩
    rw [regs_lose]
    exact h.agree.erase s
  | @message msg a _ _ hcomp =>
    obtain ⟨hkey, hstop⟩ := hassumed
    have hlocal : msg.recordType = .stop → (regs P key W site.localStore).cell = none →
        (regs P key W).find site.stores = none := fun hs hnone =>
      absurd hnone (view_ne_none h.readable (hstop hs))
    refine ⟨readable_of_completes hkey h.readable hcomp, ?_⟩
    refine h.agree.processed ?_ (processed_of_completes hkey h.readable hlocal hcomp)
    intro hs hacc
    by_cases hlive : 0 < (2 * msg.sessionRefreshTime).toInt32
    · exact .inl (uniform_regs h.readable (hwhole hs hacc hlive))
    · exact .inr hlive

/-- **Replicas agree.** Messages of one key are processed one after another and stores lose their
records in between, in any order; as long as no START is accepted over a session that only some of
the stores have lost, the stores that hold the key always hold equal sessions. -/
theorem replicas_agree (hW : ReadableAll P key W₀) (hagree : ReplicasAgree P site key W₀)
    {xs : List (Turn × List Message)} (hrun : Trace (WholeTurn P site key) W₀ xs W) :
    ReplicasAgree P site key W :=
  (hrun.invariant (fun _ _ _ _ hI hstep => Consistent.step hI hstep) ⟨hW, hagree⟩).agree

end Runs

/-! ## Two runs -/

/-- A message processed alone; a dozen steps are enough here. -/
def alone (R : Regs) (msg : Message) (a : Answer) : RegThread :=
  exec (regThreadStep compactPlatform localAndRemote)
    (List.replicate 12 ⟨fun _ => .up, none, [], a⟩) ⟨.handle msg, R, []⟩

theorem exists_alone {W : World} (hW : ReadableAll compactPlatform sampleKey W) {R : Regs}
    (hR : regs compactPlatform sampleKey W = R) (msg : Message) (a : Answer)
    (hkey : msg.key = sampleKey) (hdone : (alone R msg a).pc = .done) :
    ∃ out W', Takes compactPlatform localAndRemote sampleKey W (.message msg a) out W' ∧
      ReadableAll compactPlatform sampleKey W' ∧
      regs compactPlatform sampleKey W' = (alone R msg a).shared := by
  subst hR
  have henvs : ∀ env ∈ List.replicate 12 (⟨fun _ => .up, none, [], a⟩ : Env),
      env.Up ∧ env.answer = a := by
    intro env henv
    rw [List.eq_of_mem_replicate henv]
    exact ⟨fun _ => rfl, rfl⟩
  obtain ⟨W', hcomp, hW', hregs⟩ := completes_of_regs hkey hW henvs rfl hdone
  exact ⟨_, W', .message hcomp, hW', hregs⟩

theorem readable_empty (P : Platform) (key : Bytes) : ReadableAll P key fun _ => Store.empty :=
  fun _ => readable_of_none rfl

/-- The registers of empty stores. -/
def Regs.empty : Regs := fun _ => ⟨none, []⟩

theorem regs_empty (P : Platform) (key : Bytes) : regs P key (fun _ => Store.empty) = Regs.empty :=
  funext fun _ => regOf_of_none rfl

def answerX : Answer := ⟨0, ascii "x", 2001⟩
def answerY : Answer := ⟨0, ascii "y", 2001⟩

/-- The registers after a START. -/
def startedRegs : Regs := (alone .empty (sampleMessage .start) answerX).shared

set_option maxRecDepth 4000 in
theorem replicas_agree_repaired :
    ∃ xs W, Trace (WholeTurn compactPlatform localAndRemote sampleKey) (fun _ => Store.empty) xs W ∧
      xs.map Prod.fst = [.message (sampleMessage .start) answerX, .loss 1,
        .message (sampleMessage .interim) answerX] ∧
      (∃ v, view compactPlatform (W 0) sampleKey = some v ∧ v.acctRecordNumber = 2) ∧
      (∃ v, view compactPlatform (W 1) sampleKey = some v ∧ v.acctRecordNumber = 2) ∧
      ReplicasAgree compactPlatform localAndRemote sampleKey W := by
  obtain ⟨out₁, W₁, h₁, hW₁, hR₁⟩ := exists_alone (readable_empty _ _) (regs_empty _ _)
    (sampleMessage .start) answerX rfl rfl
  have hW₂ := readable_lose hW₁ 1
  have hR₂ : regs compactPlatform sampleKey (W₁.lose sampleKey 1) = startedRegs.erase 1 := by
    rw [regs_lose, hR₁]
    rfl
  obtain ⟨out₃, W₃, h₃, hW₃, hR₃⟩ := exists_alone hW₂ hR₂ (sampleMessage .interim) answerX rfl rfl
  have hrun : Trace (WholeTurn compactPlatform localAndRemote sampleKey) (fun _ => Store.empty)
      [(.message (sampleMessage .start) answerX, out₁), (.loss 1, []),
        (.message (sampleMessage .interim) answerX, out₃)] W₃ := by
    refine .cons ⟨fun _ _ _ => .inl fun _ _ => rfl, ⟨rfl, ?_⟩, h₁⟩
      (.cons ⟨trivial, trivial, .loss⟩ (.cons ⟨?_, ⟨rfl, ?_⟩, h₃⟩ .nil))
    all_goals exact fun h => by cases h
  refine ⟨_, W₃, hrun, rfl, ?_, ?_, ?_⟩
  · exact ⟨_, congrArg Register.cell (congrFun hR₃ 0), rfl⟩
  · exact ⟨_, congrArg Register.cell (congrFun hR₃ 1), rfl⟩
  · refine replicas_agree (readable_empty _ _) ?_ hrun
    intro s _ t _ v w hv
    rw [view_of_none rfl] at hv
    cases hv

set_option maxRecDepth 4000 in
theorem replicas_differ :
    ∃ xs W, Trace (AssumedTurn compactPlatform localAndRemote sampleKey) (fun _ => Store.empty) xs W ∧
      xs.map Prod.fst = [.message (sampleMessage .start) answerX, .loss 0,
        .message (sampleMessage .start) answerY] ∧
      ¬ ReplicasAgree compactPlatform localAndRemote sampleKey W := by
  obtain ⟨out₁, W₁, h₁, hW₁, hR₁⟩ := exists_alone (readable_empty _ _) (regs_empty _ _)
    (sampleMessage .start) answerX rfl rfl
  have hW₂ := readable_lose hW₁ 0
  have hR₂ : regs compactPlatform sampleKey (W₁.lose sampleKey 0) = startedRegs.erase 0 := by
    rw [regs_lose, hR₁]
    rfl
  obtain ⟨out₃, W₃, h₃, hW₃, hR₃⟩ := exists_alone hW₂ hR₂ (sampleMessage .start) answerY rfl rfl
  have hrun : Trace (AssumedTurn compactPlatform localAndRemote sampleKey) (fun _ => Store.empty)
      [(.message (sampleMessage .start) answerX, out₁), (.loss 0, []),
        (.message (sampleMessage .start) answerY, out₃)] W₃ := by
    refine .cons ⟨⟨rfl, ?_⟩, h₁⟩ (.cons ⟨trivial, .loss⟩ (.cons ⟨⟨rfl, ?_⟩, h₃⟩ .nil))
    all_goals exact fun h => by cases h
  refine ⟨_, W₃, hrun, rfl, fun h => ?_⟩
  have hsid := congrArg Session.sessionId
    (h 0 (by decide) 1 (by decide) _ _ (congrArg Register.cell (congrFun hR₃ 0))
      (congrArg Register.cell (congrFun hR₃ 1)))
  cases hsid

end Ralf
