import Ralf.Isolation
import Ralf.Termination

/-!
# An INTERIM over disagreeing replicas

Nothing keeps the stores of a site in agreement: one may have lost its record, or be behind. `handle`
takes the first session it finds, and then visits every store once more, the one it found the session
in included, to increase the number there or to add the session. `interim_replicas` says what comes
of it for any replicas: each store is written once, with its own session if it had one.

The proofs run the machine over the stores themselves. `Sending` is total correctness up to the end
of `handle`, with one rule for each kind of call.
-/

namespace Ralf

open Bytes Runs

/-! ## What a store holds -/

section Holds

variable (P : Platform) (key : Bytes)

/-- The store holds this session under the key, or nothing at all. -/
def Holds (st : Store) : Option Session → Prop
  | none => st.record key = none
  | some v => lookUp P st key = .ok (some v)

/-- Sessions that stay live when they are written again, or nothing, in each of the stores. -/
structure Replicas (stores : List StoreId) (held : StoreId → Option Session) (W : World) : Prop where
  holds : ∀ s ∈ stores, Holds P key (W s) (held s)
  live : ∀ s ∈ stores, ∀ v, held s = some v → v.Live

/-- The store was written once: it holds the session, under the CAS value of that write, and the
records under other keys are as before. -/
structure Rewritten (sess : Session) (st st' : Store) : Prop where
  once : ∃ c : ℕ+, st'.issued = (c : ℕ) :: st.issued ∧ Holds P key st' (some { sess with cas := c })
  frame : ∀ other, other ≠ key → st'.record other = st.record other

/-- Each of the stores was written once, with its own session; the others are as before. -/
structure Updated (new : StoreId → Session) (stores : List StoreId) (W W' : World) : Prop where
  store : ∀ s ∈ stores, Rewritten P key (new s) (W s) (W' s)
  frame : ∀ s, s ∉ stores → W' s = W s

variable {P key} {st : Store} {e : StoreEnv} {v sess : Session}

theorem lookUp_of_holds {o : Option Session} (h : Holds P key st o) : lookUp P st key = .ok o := by
  cases o with
  | none => exact getSessionData_of_none h
  | some v => exact h

theorem stored_of_holds (h : Holds P key st (some v)) : v.stored = v := by
  obtain ⟨r, d, -, hd, rfl⟩ := record_of_lookUp h
  have hstored := stored_of_deserializeSession P hd
  exact congrArg (fun d : Session => { d with cas := r.cas }) hstored

/-- A write that names the version of what the store holds goes through. -/
theorem setSessionData_of_holds {o : Option Session} (h : Holds P key st o) (hup : e.down = false)
    {newSession : Bool} (hver : sess.expected newSession = (o.map Session.cas).getD 0) :
    setSessionData P st e key sess newSession =
      (.ok, st.put e key (serializeSession P sess) sess.expiry) := by
  change st.setData e key _ (sess.expected newSession) _ = _
  rw [hver]
  cases o with
  | none => exact setData_none h hup _ _
  | some v =>
    obtain ⟨r, d, hr, -, rfl⟩ := record_of_lookUp h
    exact setData_some hr hup _ _

/-- A session in the form of the store is read back as it was written. -/
theorem holds_of_record {c : ℕ+} (hrec : st.record key = some ⟨serializeSession P sess, c⟩)
    (hstored : sess.stored = sess) : Holds P key st (some { sess with cas := c }) := by
  have hget := getSessionData_of_some hrec (serializeSession_ne_nil P sess)
    (deserializeSession_serializeSession P sess) StoreEnv.up_down
  rw [hstored] at hget
  exact hget

theorem holds_holding (hstored : sess.stored = sess) (c : ℕ+) :
    Holds P key (Store.holding P key sess c) (some { sess with cas := c }) :=
  holds_of_record (by simp [Store.holding]) hstored

theorem rewritten_put (hlive : sess.Live) (hstored : sess.stored = sess) :
    Rewritten P key sess st (st.put e key (serializeSession P sess) sess.expiry) where
  once := by
    have hrec : (st.put e key (serializeSession P sess) sess.expiry).record key =
        some ⟨serializeSession P sess, e.cas⟩ := by
      simp [Store.put, hlive.expiry_pos]
    exact ⟨e.cas, rfl, holds_of_record hrec hstored⟩
  frame := fun other hne => record_put hne _ _

/-! ## Stores written one after the other -/

variable {new : StoreId → Session} {s : StoreId} {rest : List StoreId} {W W' : World} {st' : Store}

theorem updated_nil : Updated P key new [] W W where
  store := fun _ hs => absurd hs List.not_mem_nil
  frame := fun _ _ => rfl

/-- The first store is not written again with the rest. -/
theorem Updated.cons (hnot : s ∉ rest) (hst : Rewritten P key (new s) (W s) st')
    (h : Updated P key new rest (Function.update W s st') W') :
    Updated P key new (s :: rest) W W' where
  store := by
    intro u hu
    by_cases hus : u = s
    · subst hus
      rw [h.frame u hnot, Function.update_self]
      exact hst
    · have hstore := h.store u ((List.mem_cons.mp hu).resolve_left hus)
      rwa [Function.update_of_ne hus] at hstore
  frame := by
    intro u hu
    have hus : u ≠ s := List.ne_of_not_mem_cons hu
    rw [h.frame u (List.not_mem_of_not_mem_cons hu), Function.update_of_ne hus]

variable {held : StoreId → Option Session}

theorem Replicas.tail (h : Replicas P key (s :: rest) held W) : Replicas P key rest held W where
  holds := fun u hu => h.holds u (List.mem_cons_of_mem s hu)
  live := fun u hu => h.live u (List.mem_cons_of_mem s hu)

/-- What the other stores hold is not touched by a write. -/
theorem Replicas.update (h : Replicas P key (s :: rest) held W) (hnot : s ∉ rest) (st' : Store) :
    Replicas P key rest held (Function.update W s st') where
  holds := by
    intro u hu
    have hus : u ≠ s := by
      rintro rfl
      exact hnot hu
    rw [Function.update_of_ne hus]
    exact h.tail.holds u hu
  live := h.tail.live

end Holds

/-! ## `handle`, up to the sender -/

section Sending

variable (P : Platform) (site : Site)

/-- A thread inside `handle` comes to `Q`, whatever CAS values the stores give out on the way. -/
def Sending (Q : Thread → Prop) (t : Thread) : Prop :=
  Eventually (threadStep P site) (fun t env => t.pc.unsent = true ∧ AllUp t env) Q t

variable {P site} {Q : Thread → Prop} {pc : Pc} {W : World} {tr : List Event} {s : StoreId}
  {key : Bytes} {o : Option Session}

theorem Sending.next {t : Thread} (hpc : t.pc.unsent = true)
    (h : ∀ env : Env, env.Up → Sending P site Q (threadStep P site env t)) : Sending P site Q t :=
  Eventually.next ⟨reachable 0, hpc, fun _ => rfl⟩ fun env henv => h env henv.2

theorem Sending.get {k : Option Session → Pc} (hpc : pc.unsent = true)
    (hnext : Ralf.next P site pc = .get s key k) (h : Holds P key (W s) o)
    (hk : Sending P site Q ⟨k o, W, tr⟩) : Sending P site Q ⟨pc, W, tr⟩ := by
  refine .next hpc fun env hup => ?_
  rw [threadStep_get hup hnext, lookUp_of_holds h]
  exact hk

theorem Sending.set {sess : Session} {newSession : Bool} {k : Status → Pc} (hpc : pc.unsent = true)
    (hnext : Ralf.next P site pc = .set s key sess newSession k) (h : Holds P key (W s) o)
    (hver : sess.expected newSession = (o.map Session.cas).getD 0) (hlive : sess.Live)
    (hstored : sess.stored = sess)
    (hk : ∀ st', Rewritten P key sess (W s) st' →
      Sending P site Q ⟨k .ok, Function.update W s st', tr⟩) : Sending P site Q ⟨pc, W, tr⟩ := by
  refine .next hpc fun env hup => ?_
  rw [threadStep_set hnext, setSessionData_of_holds h (hup s) hver]
  exact hk _ (rewritten_put hlive hstored)

/-! ### The loops -/

variable {msg : Message} {held : StoreId → Option Session} {f : Session} {rest : List StoreId}

/-- What a store is to hold in the end: its own session, or the one that was found, with the number
increased. -/
def revised (held : StoreId → Option Session) (f : Session) (s : StoreId) : Session :=
  ((held s).getD f).incremented

theorem revised_of_none (h : held s = none) : revised held f s = f.incremented := by
  simp [revised, h]

theorem revised_of_some {v : Session} (h : held s = some v) :
    revised held f s = v.incremented := by
  simp [revised, h]

/-- A session that can be written anywhere, and is read back as it is. -/
structure Writable (sess : Session) : Prop where
  live : sess.Live
  stored : sess.stored = sess

theorem Writable.incremented {sess : Session} (h : Writable sess) : Writable sess.incremented where
  live := h.live
  stored := congrArg Session.incremented h.stored

theorem Replicas.writable {stores : List StoreId} {v : Session} (h : Replicas P key stores held W)
    (hs : s ∈ stores) (hv : held s = some v) : Writable v where
  live := h.live s hs v hv
  stored := by
    have hholds := h.holds s hs
    rw [hv] at hholds
    exact stored_of_holds hholds

/-- The loop over the remote stores writes each of them once, and the message is sent. -/
theorem sending_readRemotes (hnodup : rest.Nodup) (h : Replicas P msg.key rest held W)
    (hf : Writable f)
    (hQ : ∀ sid W', Updated P msg.key (revised held f) rest W W' →
      Q ⟨.awaitAnswer (fillIn msg f.incremented), W',
        tr ++ [.send (fillIn msg f.incremented) sid]⟩) :
    Sending P site Q ⟨.readRemotes msg f.incremented rest, W, tr⟩ := by
  induction rest generalizing W with
  | nil =>
    refine .next rfl fun env _ => .next rfl fun env' _ => .now ?_
    have hdone := hQ (acrSessionId env' (fillIn msg f.incremented)) W updated_nil
    simpa [threadStep, Solo.step, step, perform, next] using hdone
  | cons s rest ih =>
    obtain ⟨hnot, hnodup'⟩ := List.nodup_cons.mp hnodup
    have hholds := h.holds s List.mem_cons_self
    -- once the store is written, the rest of the loop
    have hwritten : ∀ st', Rewritten P msg.key (revised held f s) (W s) st' →
        Sending P site Q ⟨.readRemotes msg f.incremented rest, Function.update W s st', tr⟩ := by
      intro st' hst'
      exact ih hnodup' (h.update hnot st') fun sid W' hW' => hQ sid W' (hW'.cons hnot hst')
    refine .get rfl rfl hholds ?_
    cases hheld : held s with
    | none =>
      rw [hheld] at hholds
      rw [revised_of_none hheld] at hwritten
      exact .set rfl rfl hholds rfl hf.incremented.live hf.incremented.stored hwritten
    | some v =>
      rw [hheld] at hholds
      rw [revised_of_some hheld] at hwritten
      have hv := (h.writable List.mem_cons_self hheld).incremented
      exact .set rfl rfl hholds rfl hv.live hv.stored hwritten

/-- The lookup stops at the first session. -/
theorem sending_tryRemotes (htype : msg.recordType = .interim)
    (h : Replicas P msg.key rest held W) (hfirst : rest.findSome? held = some f)
    (hk : Sending P site Q ⟨.updateLocal msg f.incremented true, W, tr⟩) :
    Sending P site Q ⟨.tryRemotes msg rest, W, tr⟩ := by
  induction rest with
  | nil => cases hfirst
  | cons s rest ih =>
    refine .get rfl rfl (h.holds s List.mem_cons_self) ?_
    cases hheld : held s with
    | none =>
      rw [List.findSome?_cons, hheld] at hfirst
      exact ih h.tail hfirst
    | some v =>
      rw [List.findSome?_cons, hheld] at hfirst
      cases hfirst
      change Sending P site Q ⟨found msg f true, W, tr⟩
      rw [found_interim htype]
      exact hk

/-- The local store first, under the version of what it holds, then the others. -/
theorem sending_updateLocal {newSession : Bool} (h : Replicas P msg.key site.stores held W)
    (hf : Writable f) (hown : (held site.localStore).getD f = f)
    (hver : f.incremented.expected newSession = ((held site.localStore).map Session.cas).getD 0)
    (hQ : ∀ sid W', Updated P msg.key (revised held f) site.stores W W' →
      Q ⟨.awaitAnswer (fillIn msg f.incremented), W',
        tr ++ [.send (fillIn msg f.incremented) sid]⟩) :
    Sending P site Q ⟨.updateLocal msg f.incremented newSession, W, tr⟩ := by
  obtain ⟨hnot, hnodup⟩ := List.nodup_cons.mp site.nodup
  have hrev : revised held f site.localStore = f.incremented := congrArg Session.incremented hown
  refine .set rfl rfl (h.holds _ List.mem_cons_self) hver hf.incremented.live
    hf.incremented.stored fun st' hst' => ?_
  rw [← hrev] at hst'
  exact sending_readRemotes hnodup (h.update hnot st') hf fun sid W' hW' =>
    hQ sid W' (hW'.cons hnot hst')

theorem sending_handle (htype : msg.recordType = .interim)
    (h : Replicas P msg.key site.stores held W) (hfirst : site.stores.findSome? held = some f)
    (hQ : ∀ sid W', Updated P msg.key (revised held f) site.stores W W' →
      Q ⟨.awaitAnswer (fillIn msg f.incremented), W',
        tr ++ [.send (fillIn msg f.incremented) sid]⟩) :
    Sending P site Q ⟨.handle msg, W, tr⟩ := by
  have hf : Writable f := by
    obtain ⟨s, hs, hheld⟩ := List.exists_of_findSome?_eq_some hfirst
    exact h.writable hs hheld
  refine .get rfl (by simp only [next, htype]; rfl) (h.holds _ List.mem_cons_self) ?_
  change (site.localStore :: site.remoteStores).findSome? held = some f at hfirst
  rw [List.findSome?_cons] at hfirst
  cases hheld : held site.localStore with
  | none =>
    rw [hheld] at hfirst
    refine sending_tryRemotes htype h.tail hfirst ?_
    apply sending_updateLocal h hf
    · rw [hheld]
      rfl
    · rw [hheld]
      rfl
    · exact hQ
  | some v =>
    rw [hheld] at hfirst
    cases hfirst
    change Sending P site Q ⟨found msg f false, W, tr⟩
    rw [found_interim htype]
    apply sending_updateLocal h hf
    · rw [hheld]
      rfl
    · rw [hheld]
      rfl
    · exact hQ

end Sending

/-! ## The result -/

/-- **Disagreeing replicas.** While nobody else writes and the stores can be reached, `handle` on an
INTERIM comes to its end from any replicas of which one at least holds the session. Let `f` be the
first session in the order of the stores. Then the one message sent carries the number after that of
`f`, and the other fields of `f`; each store of the site was written once and holds its own session,
or `f` if it had none, with the number increased; and nothing else in any store has changed. -/
theorem interim_replicas {P : Platform} {site : Site} {msg : Message} {W : World}
    {held : StoreId → Option Session} {f : Session} {e : ℕ → Env}
    (htype : msg.recordType = .interim) (h : Replicas P msg.key site.stores held W)
    (hfirst : site.stores.findSome? held = some f) (hup : ∀ n, (e n).Up) :
    ∃ n m sid W',
      stateAt (threadStep P site) e (Thread.start msg W) n = ⟨.awaitAnswer m, W', [.send m sid]⟩ ∧
      (∀ k < n, (stateAt (threadStep P site) e (Thread.start msg W) k).pc.unsent = true) ∧
      m.accountingRecordNumber = f.acctRecordNumber + 1 ∧ m.ccfs = f.ccf ∧
      m.sessionId = f.sessionId ∧ m.timerId = f.timerId ∧ m.interimInterval = f.interimInterval ∧
      Updated P msg.key
        (fun s => match held s with
          | some v => { v with acctRecordNumber := v.acctRecordNumber + 1 }
          | none => { f with acctRecordNumber := f.acctRecordNumber + 1 })
        site.stores W W' := by
  have hsending : Sending P site (fun t => ∃ sid W',
      t = ⟨.awaitAnswer (fillIn msg f.incremented), W', [.send (fillIn msg f.incremented) sid]⟩ ∧
        Updated P msg.key (revised held f) site.stores W W') (Thread.start msg W) :=
    sending_handle htype h hfirst fun sid W' hW' => ⟨sid, W', rfl, hW'⟩
  obtain ⟨n, ⟨sid, W', hn, hW'⟩, hbefore⟩ := hsending.until fun k => hup k
  refine ⟨n, _, sid, W', hn, hbefore, rfl, rfl, rfl, rfl, rfl, ?_⟩
  convert hW' using 2 with s
  cases hheld : held s with
  | none => exact (revised_of_none hheld).symm
  | some v => exact (revised_of_some hheld).symm

/-- A local and two remote stores. -/
def localAndRemotes : Site := ⟨0, [1, 2], by decide⟩

/-- What three stores hold that do not agree: nothing, and two sessions with other numbers. -/
def disagreeing : StoreId → Option Session
  | 0 => none
  | 1 => some { sampleSession 5 with cas := 1 }
  | _ => some { sampleSession 9 with cas := 1 }

def disagreeingStores : World
  | 0 => Store.empty
  | 1 => Store.holding compactPlatform sampleKey (sampleSession 5) (Nat.succPNat 0)
  | _ => Store.holding compactPlatform sampleKey (sampleSession 9) (Nat.succPNat 0)

theorem replicas_disagreeing :
    Replicas compactPlatform sampleKey localAndRemotes.stores disagreeing disagreeingStores where
  holds := by
    intro s _
    match s with
    | 0 => exact rfl
    | 1 => exact holds_holding (show (sampleSession 5).stored = sampleSession 5 from rfl) _
    | _ + 2 => exact holds_holding (show (sampleSession 9).stored = sampleSession 9 from rfl) _
  live := by
    intro s _ v hv
    match s with
    | 0 => cases hv
    | 1 =>
      cases hv
      exact ⟨by decide, by decide⟩
    | _ + 2 =>
      cases hv
      exact ⟨by decide, by decide⟩

/-- The message carries number 6; afterwards the stores hold the numbers 6, 6 and 10. -/
theorem interim_replicas_disagreeing :
    ∃ n m sid W',
      stateAt (threadStep compactPlatform localAndRemotes) reachable
        (Thread.start (sampleMessage .interim) disagreeingStores) n =
          ⟨.awaitAnswer m, W', [.send m sid]⟩ ∧
      m.accountingRecordNumber = 6 ∧
      (∃ c, Holds compactPlatform sampleKey (W' 0) (some { sampleSession 6 with cas := c })) ∧
      (∃ c, Holds compactPlatform sampleKey (W' 1) (some { sampleSession 6 with cas := c })) ∧
      ∃ c, Holds compactPlatform sampleKey (W' 2) (some { sampleSession 10 with cas := c }) := by
  obtain ⟨n, m, sid, W', hn, -, hnumber, -, -, -, -, hW'⟩ :=
    interim_replicas (show (sampleMessage .interim).recordType = .interim from rfl)
      replicas_disagreeing rfl
      (show ∀ n, (reachable n).Up from fun _ _ => rfl)
  obtain ⟨c₀, -, h₀⟩ := (hW'.store 0 (by decide)).once
  obtain ⟨c₁, -, h₁⟩ := (hW'.store 1 (by decide)).once
  obtain ⟨c₂, -, h₂⟩ := (hW'.store 2 (by decide)).once
  exact ⟨n, m, sid, W', hn, hnumber, ⟨c₀, h₀⟩, ⟨c₁, h₁⟩, ⟨c₂, h₂⟩⟩

end Ralf
