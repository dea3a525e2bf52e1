import Ralf.Acrs

/-!
# Termination of `handle`

One message is handled while nobody else writes. `handle` starts again when the compare-and-set in
the local store fails, and the loop over the remote stores tries a store again when its write fails;
with nobody else writing, the same call then fails again. A STOP whose session is only left in a
remote store names that store's CAS value in the local store, and never gets on
(`stop_never_returns`). An INTERIM that meets a record it cannot decode takes it for an empty store,
and never gets on either if it has a session to write (`interim_returns_iff`).
-/

namespace Ralf

open Bytes Runs

/-- `handle` has returned: the message is with the sender, or dropped. -/
def Pc.returned : Pc → Bool
  | .aborted => false
  | pc => !pc.unsent

/-! ## Contents of a store -/

section Contents

variable (P : Platform)

/-- What the store answers while it can be reached. -/
def lookUp (st : Store) (key : Bytes) : Except JsonError (Option Session) :=
  getSessionData P st .up key

/-- A record that is read as a session. -/
def Decodable (st : Store) (key : Bytes) : Prop := ∃ sess, lookUp P st key = .ok (some sess)

/-- A live record that `deserialize_session` rejects. -/
def Corrupt (st : Store) (key : Bytes) : Prop :=
  st.record key ≠ none ∧ lookUp P st key = .ok none

variable {P} {st : Store} {env : StoreEnv} {key : Bytes}

theorem getSessionData_of_up (h : env.down = false) :
    getSessionData P st env key = lookUp P st key := by
  unfold lookUp getSessionData Store.getData
  rw [h, StoreEnv.up_down]

theorem record_of_lookUp {sess : Session} (h : lookUp P st key = .ok (some sess)) :
    ∃ r d, st.record key = some r ∧ deserializeSession P r.data = .ok (some d) ∧
      sess = { d with cas := r.cas } := by
  unfold lookUp getSessionData Store.getData at h
  cases hr : st.record key with
  | none =>
    rw [hr] at h
    cases h
  | some r =>
    rw [hr] at h
    simp only [StoreEnv.up_down, Bool.false_eq_true, if_false] at h
    by_cases hdata : r.data = []
    · rw [if_pos hdata] at h
      cases h
    · rw [if_neg hdata] at h
      cases hd : deserializeSession P r.data with
      | error e =>
        rw [hd] at h
        cases h
      | ok o =>
        rw [hd] at h
        cases o with
        | none => cases h
        | some d =>
          cases h
          exact ⟨r, d, rfl, hd, rfl⟩

theorem setData_some {r : Record} (hr : st.record key = some r) (hup : env.down = false)
    (data : Bytes) (expiry : Int32) :
    (st.setData env key data r.cas expiry) = (.ok, st.put env key data expiry) := by
  simp [Store.setData, hup, hr]

theorem setData_none (hr : st.record key = none) (hup : env.down = false) (data : Bytes)
    (expiry : Int32) : (st.setData env key data 0 expiry) = (.ok, st.put env key data expiry) := by
  simp [Store.setData, hup, hr]

variable (P st key) in
/-- While the store can be reached, a write goes through or meets a contention. -/
theorem setSessionData_cases (hup : env.down = false) (sess : Session) (newSession : Bool) :
    (∃ st', setSessionData P st env key sess newSession = (.ok, st')) ∨
      setSessionData P st env key sess newSession = (.dataContention, st) := by
  unfold setSessionData Store.setData
  generalize (if newSession = true then 0 else sess.cas) = cas
  dsimp only
  rw [hup, if_neg Bool.false_ne_true]
  cases st.record key with
  | none =>
    dsimp only
    split_ifs
    · exact .inl ⟨_, rfl⟩
    · exact .inr rfl
  | some r =>
    dsimp only
    split_ifs
    · exact .inl ⟨_, rfl⟩
    · exact .inr rfl

/-- A write with CAS 0 does not replace a live record. -/
theorem setData_add_live (hr : st.record key ≠ none) (hup : env.down = false) (data : Bytes)
    (expiry : Int32) : (st.setData env key data 0 expiry) = (.dataContention, st) := by
  obtain ⟨r, hr⟩ := Option.ne_none_iff_exists'.mp hr
  have hcas : (0 : ℕ) ≠ r.cas := r.cas.ne_zero.symm
  simp [Store.setData, hup, hr, hcas]

/-- A write with another CAS than 0 does not fill an empty place. -/
theorem setData_replace_none (hr : st.record key = none) (hup : env.down = false) (data : Bytes)
    {cas : ℕ} (hcas : cas ≠ 0) (expiry : Int32) :
    (st.setData env key data cas expiry) = (.dataContention, st) := by
  simp [Store.setData, hup, hr, hcas]

end Contents

/-! ## Single steps -/

section Steps

variable {P : Platform} {site : Site} {env : Env} {pc : Pc} {W : World} {tr : List Event}

theorem threadStep_get {s : StoreId} {key : Bytes} {k : Option Session → Pc} (hup : env.Up)
    (h : next P site pc = .get s key k) :
    threadStep P site env ⟨pc, W, tr⟩ =
      match lookUp P (W s) key with
      | .ok sess => ⟨k sess, W, tr⟩
      | .error _ => ⟨.aborted, W, tr⟩ := by
  unfold threadStep Solo.step step
  simp only [h, perform, getSessionData_of_up (hup s)]
  cases lookUp P (W s) key <;> simp

theorem threadStep_set {s : StoreId} {key : Bytes} {sess : Session} {newSession : Bool}
    {k : Status → Pc} (h : next P site pc = .set s key sess newSession k) :
    threadStep P site env ⟨pc, W, tr⟩ =
      ⟨k (setSessionData P (W s) (env.store s) key sess newSession).1,
        Function.update W s (setSessionData P (W s) (env.store s) key sess newSession).2, tr⟩ := by
  unfold threadStep Solo.step step
  simp only [h, perform, List.append_nil]

theorem threadStep_casDelete {s : StoreId} {key : Bytes} {sess : Session} {k : Status → Pc}
    (h : next P site pc = .casDelete s key sess k) :
    threadStep P site env ⟨pc, W, tr⟩ =
      ⟨k (deleteSessionDataCas (W s) (env.store s) key sess).1,
        Function.update W s (deleteSessionDataCas (W s) (env.store s) key sess).2, tr⟩ := by
  unfold threadStep Solo.step step
  simp only [h, perform, List.append_nil]

end Steps

/-! ## Searching in vain -/

section Searching

variable {P : Platform} {site : Site} {msg : Message} {W : World}

/-- The message looks for its session, finds it in a remote store, cannot write it to the local
store and starts again; nothing has changed and nothing was sent. -/
structure Searching (P : Platform) (site : Site) (msg : Message) (W : World) (t : Thread) :
    Prop where
  shared : t.shared = W
  trace : t.trace = []
  pc : t.pc = .handle msg ∨
    (∃ rest, t.pc = .tryRemotes msg rest ∧ ∃ s ∈ rest, Decodable P (W s) msg.key) ∨
    (∃ sess : Session, sess.cas ≠ 0 ∧ t.pc = found msg sess true) ∨ t.pc = .aborted

/-- The local store shows no session, and cannot be written with a session from elsewhere. -/
structure LocalBlocked (P : Platform) (site : Site) (msg : Message) (W : World) : Prop where
  existing : msg.recordType.isInterim = true ∨ msg.recordType.isStop = true
  missing : lookUp P (W site.localStore) msg.key = .ok none
  blocked : ∀ env : Env, env.Up → ∀ sess : Session, sess.cas ≠ 0 →
    threadStep P site env ⟨found msg sess true, W, []⟩ = ⟨.handle msg, W, []⟩
  remote : ∃ s ∈ site.remoteStores, Decodable P (W s) msg.key

theorem Searching.step (hb : LocalBlocked P site msg W) {t : Thread}
    (h : Searching P site msg W t) {env : Env} (hup : env.Up) :
    Searching P site msg W (threadStep P site env t) := by
  obtain ⟨pc, W', tr⟩ := t
  obtain ⟨hW', htr, hpc⟩ := h
  dsimp only at hW' htr hpc
  subst hW' htr
  rcases hpc with rfl | ⟨rest, rfl, s, hs, hdec⟩ | ⟨sess, hcas, rfl⟩ | rfl
  · have hcond : (msg.recordType.isInterim || msg.recordType.isStop) = true := by
      rw [Bool.or_eq_true]
      exact hb.existing
    rw [threadStep_get hup (by simp only [next, hcond, if_true]; rfl), hb.missing]
    exact ⟨rfl, rfl, .inr (.inl ⟨site.remoteStores, rfl, hb.remote⟩)⟩
  · cases rest with
    | nil => cases hs
    | cons s' rest =>
      rw [threadStep_get hup rfl]
      cases hl : lookUp P (W' s') msg.key with
      | error e => exact ⟨rfl, rfl, .inr (.inr (.inr rfl))⟩
      | ok o =>
        cases o with
        | some sess =>
          obtain ⟨r, d, -, -, rfl⟩ := record_of_lookUp hl
          exact ⟨rfl, rfl, .inr (.inr (.inl ⟨_, r.cas.ne_zero, rfl⟩))⟩
        | none =>
          refine ⟨rfl, rfl, .inr (.inl ⟨rest, rfl, s, ?_, hdec⟩)⟩
          rcases List.mem_cons.mp hs with rfl | hs
          · obtain ⟨sess, hsess⟩ := hdec
            rw [hl] at hsess
            cases hsess
          · exact hs
  · rw [hb.blocked env hup sess hcas]
    exact ⟨rfl, rfl, .inl rfl⟩
  · exact ⟨rfl, rfl, .inr (.inr (.inr rfl))⟩

/-- A search in vain does not end. -/
theorem Searching.not_returned {t : Thread} (h : Searching P site msg W t) :
    t.pc.returned = false := by
  rcases h.pc with hpc | ⟨rest, hpc, -⟩ | ⟨sess, -, hpc⟩ | hpc
  · rw [hpc]; rfl
  · rw [hpc]; rfl
  · rw [hpc]
    unfold found
    dsimp only
    split_ifs <;> rfl
  · rw [hpc]; rfl

theorem searching_stateAt (hb : LocalBlocked P site msg W) {f : ℕ → Env} (hup : ∀ n, (f n).Up)
    (n : ℕ) : Searching P site msg W (stateAt (threadStep P site) f (Thread.start msg W) n) :=
  stateAt_invariant ⟨rfl, rfl, .inl rfl⟩ (fun k _ h => h.step hb (hup k)) n

end Searching

/-! ## STOP -/

section Stop

variable {P : Platform} {site : Site} {msg : Message} {W : World}

theorem localBlocked_stop (htype : msg.recordType = .stop)
    (hlocal : (W site.localStore).record msg.key = none)
    (hremote : ∃ s ∈ site.remoteStores, Decodable P (W s) msg.key) :
    LocalBlocked P site msg W where
  existing := .inr (AccountingRecordType.isStop_iff.mpr htype)
  missing := getSessionData_of_none hlocal
  blocked := by
    intro env hup sess hcas
    have hfound : found msg sess true = .deleteLocal msg sess.incremented := by
      unfold found
      rw [htype]
      rfl
    have hset : deleteSessionDataCas (W site.localStore) (env.store site.localStore) msg.key
        sess.incremented = (.dataContention, W site.localStore) :=
      setData_replace_none hlocal (hup _) [] hcas 0
    rw [hfound, threadStep_casDelete rfl, hset, Function.update_eq_self]
    rfl
  remote := hremote

/-- **A STOP after local loss never returns.** If the local store has lost the session and a remote
store still holds it, `handle` on the STOP goes round for ever, whatever the reachable stores
contribute: nothing is sent, no timer is deleted, and no store changes. -/
theorem stop_never_returns (htype : msg.recordType = .stop)
    (hlocal : (W site.localStore).record msg.key = none)
    (hremote : ∃ s ∈ site.remoteStores, Decodable P (W s) msg.key) {f : ℕ → Env}
    (hup : ∀ n, (f n).Up) (n : ℕ) :
    (stateAt (threadStep P site) f (Thread.start msg W) n).pc.returned = false ∧
    (stateAt (threadStep P site) f (Thread.start msg W) n).trace = [] ∧
    (stateAt (threadStep P site) f (Thread.start msg W) n).shared = W := by
  have h := searching_stateAt (localBlocked_stop htype hlocal hremote) hup n
  exact ⟨h.not_returned, h.trace, h.shared⟩

end Stop

/-! ### A session left in a remote store only -/

/-- Store 1 holds the session, store 0 has lost it. -/
def localLost : World :=
  World.holding compactPlatform sampleKey (sampleSession 1) fun s => s = 1

/-- Stores that can be reached for ever. -/
def reachable (n : ℕ) : Env := (Input.answering 2001).env n.succPNat

theorem decodable_localLost :
    ∃ s ∈ localAndRemote.remoteStores,
      Decodable compactPlatform (localLost s) (sampleMessage .stop).key := by
  exact ⟨1, List.mem_singleton.mpr rfl, _, getSessionData_of_some rfl
    (serializeSession_ne_nil _ (sampleSession 1)) (deserializeSession_serializeSession _ _) rfl⟩

theorem stop_never_returns_localLost :
    (stateAt (threadStep compactPlatform localAndRemote) reachable
      (Thread.start (sampleMessage .stop) localLost) 1000).pc.returned = false ∧
    (stateAt (threadStep compactPlatform localAndRemote) reachable
      (Thread.start (sampleMessage .stop) localLost) 1000).trace = [] := by
  have h := stop_never_returns (f := reachable) rfl rfl decodable_localLost (fun _ _ => rfl) 1000
  exact ⟨h.1, h.2.1⟩

/-- The STOP is not handed to the sender, and its session stays. -/
theorem stop_localLost :
    ¬ ∃ n, (stateAt (threadStep compactPlatform localAndRemote) reachable
      (Thread.start (sampleMessage .stop) localLost) n).pc.returned = true := by
  rintro ⟨n, hn⟩
  have h := (searching_stateAt (localBlocked_stop rfl rfl decodable_localLost)
    (fun k => (fun _ => rfl : (reachable k).Up)) n).not_returned
  rw [hn] at h
  cases h

/-! ## INTERIM -/

section Interim

variable {P : Platform} {site : Site} {msg : Message} {W : World}

theorem localBlocked_interim (htype : msg.recordType = .interim)
    (hlocal : Corrupt P (W site.localStore) msg.key)
    (hremote : ∃ s ∈ site.remoteStores, Decodable P (W s) msg.key) :
    LocalBlocked P site msg W where
  existing := .inl (AccountingRecordType.isInterim_iff.mpr htype)
  missing := hlocal.2
  blocked := by
    intro env hup sess _
    have hset : setSessionData P (W site.localStore) (env.store site.localStore) msg.key
        sess.incremented true = (.dataContention, W site.localStore) :=
      setData_add_live hlocal.1 (hup _) _ _
    rw [found_interim htype, threadStep_set rfl, hset, Function.update_eq_self]
    rfl
  remote := hremote

/-- The INTERIM has not got past the remote store `c`, whose record it cannot decode. -/
structure StuckAt (P : Platform) (site : Site) (msg : Message) (W : World) (c : StoreId)
    (t : Thread) : Prop where
  record : (t.shared c) = W c
  pc : (t.shared = W ∧ t.pc = .handle msg) ∨
    (t.shared = W ∧ ∃ rest, t.pc = .tryRemotes msg rest ∧
      ∃ s ∈ rest, Decodable P (W s) msg.key) ∨
    (t.shared = W ∧ ∃ sess newSession, t.pc = .updateLocal msg sess newSession) ∨
    (∃ sess rest, t.pc = .readRemotes msg sess rest ∧ c ∈ rest) ∨
    (∃ sess s rest remoteSess newSession,
      t.pc = .updateRemote msg sess s rest remoteSess newSession ∧ c ∈ s :: rest ∧
        (c = s → newSession = true)) ∨
    t.pc = .aborted

theorem StuckAt.step (htype : msg.recordType = .interim) {c : StoreId}
    (hc : c ∈ site.remoteStores) (hcorrupt : Corrupt P (W c) msg.key)
    (hdec : ∃ s ∈ site.stores, Decodable P (W s) msg.key) {t : Thread}
    (h : StuckAt P site msg W c t) {env : Env} (hup : env.Up) :
    StuckAt P site msg W c (threadStep P site env t) := by
  have hinterim : msg.recordType.isInterim = true := AccountingRecordType.isInterim_iff.mpr htype
  have hcl : c ≠ site.localStore := by
    rintro rfl
    exact (List.nodup_cons.mp site.nodup).1 hc
  obtain ⟨pc, W', tr⟩ := t
  obtain ⟨hrec, hpc⟩ := h
  dsimp only at hrec hpc
  rcases hpc with ⟨rfl, rfl⟩ | ⟨rfl, rest, rfl, s, hs, hd⟩ | ⟨rfl, sess, newSession, rfl⟩ |
    ⟨sess, rest, rfl, hcr⟩ | ⟨sess, s, rest, remoteSess, newSession, rfl, hcr, hnew⟩ | rfl
  · rw [threadStep_get hup (by simp only [next, hinterim, Bool.true_or, if_true]; rfl)]
    cases hl : lookUp P (W' site.localStore) msg.key with
    | error e => exact ⟨rfl, .inr (.inr (.inr (.inr (.inr rfl))))⟩
    | ok o =>
      cases o with
      | some sess =>
        exact ⟨rfl, .inr (.inr (.inl ⟨rfl, sess.incremented, false, found_interim htype sess false⟩))⟩
      | none =>
        refine ⟨rfl, .inr (.inl ⟨rfl, site.remoteStores, rfl, ?_⟩)⟩
        obtain ⟨s, hs, sess, hsess⟩ := hdec
        rcases List.mem_cons.mp hs with rfl | hs
        · rw [hl] at hsess
          cases hsess
        · exact ⟨s, hs, sess, hsess⟩
  · cases rest with
    | nil => cases hs
    | cons s' rest =>
      rw [threadStep_get hup rfl]
      cases hl : lookUp P (W' s') msg.key with
      | error e => exact ⟨rfl, .inr (.inr (.inr (.inr (.inr rfl))))⟩
      | ok o =>
        cases o with
        | some sess =>
          exact ⟨rfl, .inr (.inr (.inl ⟨rfl, sess.incremented, true, found_interim htype sess true⟩))⟩
        | none =>
          refine ⟨rfl, .inr (.inl ⟨rfl, rest, rfl, s, ?_, hd⟩)⟩
          rcases List.mem_cons.mp hs with rfl | hs
          · obtain ⟨sess, hsess⟩ := hd
            rw [hl] at hsess
            cases hsess
          · exact hs
  · rw [threadStep_set rfl]
    rcases setSessionData_cases P (W' site.localStore) msg.key (hup site.localStore) sess
      newSession with ⟨st', hset⟩ | hset
    · rw [hset]
      exact ⟨Function.update_of_ne hcl _ _,
        .inr (.inr (.inr (.inl ⟨sess, site.remoteStores, rfl, hc⟩)))⟩
    · rw [hset, Function.update_eq_self]
      exact ⟨rfl, .inl ⟨rfl, rfl⟩⟩
  · cases rest with
    | nil => cases hcr
    | cons s rest =>
      rw [threadStep_get hup rfl]
      cases hl : lookUp P (W' s) msg.key with
      | error e => exact ⟨hrec, .inr (.inr (.inr (.inr (.inr rfl))))⟩
      | ok o =>
        cases o with
        | none =>
          exact ⟨hrec, .inr (.inr (.inr (.inr (.inl ⟨sess, s, rest, sess, true, rfl, hcr,
            fun _ => rfl⟩))))⟩
        | some remoteSess =>
          refine ⟨hrec, .inr (.inr (.inr (.inr (.inl ⟨sess, s, rest, remoteSess.incremented, false,
            rfl, hcr, ?_⟩))))⟩
          rintro rfl
          rw [hrec, hcorrupt.2] at hl
          cases hl
  · rw [threadStep_set rfl]
    by_cases hcs : c = s
    · -- the store `c` itself: its record is live, so nothing is added
      subst hcs
      cases hnew rfl
      have hlive : (W' c).record msg.key ≠ none := by
        rw [hrec]
        exact hcorrupt.1
      have hset : setSessionData P (W' c) (env.store c) msg.key remoteSess true =
          (.dataContention, W' c) := setData_add_live hlive (hup c) _ _
      rw [hset, Function.update_eq_self]
      exact ⟨hrec, .inr (.inr (.inr (.inl ⟨sess, c :: rest, rfl, List.mem_cons_self⟩)))⟩
    · have hrest : c ∈ rest := (List.mem_cons.mp hcr).resolve_left hcs
      refine ⟨(Function.update_of_ne hcs _ _).trans hrec, .inr (.inr (.inr (.inl ?_)))⟩
      dsimp only
      split_ifs
      · exact ⟨sess, rest, rfl, hrest⟩
      · exact ⟨sess, s :: rest, rfl, hcr⟩
  · exact ⟨hrec, .inr (.inr (.inr (.inr (.inr rfl))))⟩

theorem StuckAt.not_returned {c : StoreId} {t : Thread} (h : StuckAt P site msg W c t) :
    t.pc.returned = false := by
  rcases h.pc with ⟨-, hpc⟩ | ⟨-, rest, hpc, -⟩ | ⟨-, sess, newSession, hpc⟩ |
    ⟨sess, rest, hpc, -⟩ | ⟨sess, s, rest, remoteSess, newSession, hpc, -⟩ | hpc <;>
  · rw [hpc]; rfl

/-! ### Where it ends -/

/-- The environments of a message that is handled on its own. -/
def AllUp (_ : Thread) (env : Env) : Prop := env.Up

/-- `handle` returns, whatever the stores contribute while they can be reached. -/
def Returns (P : Platform) (site : Site) (t : Thread) : Prop :=
  Eventually (threadStep P site) AllUp (fun t => t.pc.returned = true) t

theorem Returns.next {t : Thread} (h : ∀ env : Env, env.Up → Returns P site (threadStep P site env t)) :
    Returns P site t :=
  Eventually.next ⟨reachable 0, fun _ => rfl⟩ h

/-- A store that is empty or shows a session. -/
theorem decodable_or_empty {st : Store} {key : Bytes} (hdef : ∃ o, lookUp P st key = .ok o)
    (h : ¬ Corrupt P st key) :
    (∃ sess, lookUp P st key = .ok (some sess)) ∨
      (st.record key = none ∧ lookUp P st key = .ok none) := by
  obtain ⟨o, ho⟩ := hdef
  cases o with
  | some sess => exact .inl ⟨sess, ho⟩
  | none =>
    refine .inr ⟨?_, ho⟩
    by_contra hne
    exact h ⟨hne, ho⟩

/-- The write back of a session just read goes through. -/
theorem setSessionData_of_lookUp {st : Store} {env : StoreEnv} {key : Bytes} {sess : Session}
    (h : lookUp P st key = .ok (some sess)) (hup : env.down = false) :
    setSessionData P st env key sess.incremented false =
      (.ok, st.put env key (serializeSession P sess.incremented) sess.expiry) := by
  obtain ⟨r, d, hr, -, rfl⟩ := record_of_lookUp h
  exact setData_some hr hup _ _

theorem returns_readRemotes {sess : Session} {rest : List StoreId} {tr : List Event}
    (hnodup : rest.Nodup) (hdef : ∀ s ∈ rest, ∃ o, lookUp P (W s) msg.key = .ok o)
    (hok : ∀ s ∈ rest, ¬ Corrupt P (W s) msg.key) :
    Returns P site ⟨.readRemotes msg sess rest, W, tr⟩ := by
  induction rest generalizing W with
  | nil => exact .next fun env _ => .next fun env' _ => Eventually.now rfl
  | cons s rest ih =>
    obtain ⟨hnot, hnodup'⟩ := List.nodup_cons.mp hnodup
    -- the stores further on are not touched by the write to `s`
    have hrest : ∀ st, Returns P site ⟨.readRemotes msg sess rest, Function.update W s st, tr⟩ := by
      intro st
      have hsame : ∀ u ∈ rest, Function.update W s st u = W u := by
        rintro u hu
        exact Function.update_of_ne (by rintro rfl; exact hnot hu) _ _
      refine ih hnodup' ?_ ?_
      · intro u hu
        rw [hsame u hu]
        exact hdef u (List.mem_cons_of_mem _ hu)
      · intro u hu
        rw [hsame u hu]
        exact hok u (List.mem_cons_of_mem _ hu)
    refine .next fun env hup => ?_
    rw [threadStep_get hup rfl]
    rcases decodable_or_empty (hdef s List.mem_cons_self) (hok s List.mem_cons_self) with
      ⟨remoteSess, hl⟩ | ⟨hnone, hl⟩
    · rw [hl]
      refine .next fun env' hup' => ?_
      have hset := setSessionData_of_lookUp hl (hup' s)
      rw [threadStep_set rfl]
      change Returns P site ⟨_, Function.update W s
        (setSessionData P (W s) (env'.store s) msg.key remoteSess.incremented false).2, tr⟩
      rw [show ({ remoteSess with acctRecordNumber := remoteSess.acctRecordNumber + 1 } : Session) =
        remoteSess.incremented from rfl, hset]
      exact hrest _
    · rw [hl]
      refine .next fun env' hup' => ?_
      have hset : setSessionData P (W s) (env'.store s) msg.key sess true = (.ok, _) :=
        setData_none hnone (hup' s) _ _
      rw [threadStep_set rfl, hset]
      exact hrest _

theorem returns_updateLocal {sess : Session} {newSession : Bool} {tr : List Event}
    (hset : ∀ env : Env, env.Up →
      (setSessionData P (W site.localStore) (env.store site.localStore) msg.key sess newSession).1 =
        .ok)
    (hdef : ∀ s ∈ site.stores, ∃ o, lookUp P (W s) msg.key = .ok o)
    (hok : ∀ s ∈ site.stores, ¬ Corrupt P (W s) msg.key) :
    Returns P site ⟨.updateLocal msg sess newSession, W, tr⟩ := by
  refine .next fun env hup => ?_
  rw [threadStep_set rfl, hset env hup]
  obtain ⟨hnot, hnodup⟩ := List.nodup_cons.mp site.nodup
  have hsame : ∀ st, ∀ u ∈ site.remoteStores, Function.update W site.localStore st u = W u := by
    rintro st u hu
    exact Function.update_of_ne (by rintro rfl; exact hnot hu) _ _
  refine returns_readRemotes hnodup ?_ ?_
  · intro u hu
    rw [hsame _ u hu]
    exact hdef u (List.mem_cons_of_mem _ hu)
  · intro u hu
    rw [hsame _ u hu]
    exact hok u (List.mem_cons_of_mem _ hu)

theorem returns_tryRemotes (htype : msg.recordType = .interim) {rest : List StoreId}
    {tr : List Event} (hlocal : (W site.localStore).record msg.key = none)
    (hsub : rest ⊆ site.remoteStores)
    (hdef : ∀ s ∈ site.stores, ∃ o, lookUp P (W s) msg.key = .ok o)
    (hok : ∀ s ∈ site.stores, ¬ Corrupt P (W s) msg.key) :
    Returns P site ⟨.tryRemotes msg rest, W, tr⟩ := by
  induction rest with
  | nil => exact .next fun env _ => Eventually.now rfl
  | cons s rest ih =>
    refine .next fun env hup => ?_
    rw [threadStep_get hup rfl]
    obtain ⟨o, ho⟩ := hdef s (List.mem_cons_of_mem _ (hsub List.mem_cons_self))
    rw [ho]
    cases o with
    | none => exact ih fun u hu => hsub (List.mem_cons_of_mem _ hu)
    | some sess =>
      show Returns P site ⟨found msg sess true, W, tr⟩
      rw [found_interim htype]
      refine returns_updateLocal (fun env' hup' => ?_) hdef hok
      exact congrArg Prod.fst (setData_none hlocal (hup' site.localStore) _ _)

theorem returns_of_not_decodable (htype : msg.recordType = .interim)
    (hdef : ∀ s ∈ site.stores, ∃ o, lookUp P (W s) msg.key = .ok o)
    (hnone : ∀ s ∈ site.stores, ¬ Decodable P (W s) msg.key) :
    Returns P site (Thread.start msg W) := by
  have hlook : ∀ s ∈ site.stores, lookUp P (W s) msg.key = .ok none := by
    intro s hs
    obtain ⟨o, ho⟩ := hdef s hs
    cases o with
    | none => exact ho
    | some sess => exact absurd ⟨sess, ho⟩ (hnone s hs)
  have htry : ∀ {rest : List StoreId}, rest ⊆ site.remoteStores →
      Returns P site ⟨.tryRemotes msg rest, W, []⟩ := by
    intro rest
    induction rest with
    | nil => exact fun _ => .next fun env _ => Eventually.now rfl
    | cons s rest ih =>
      intro hsub
      refine .next fun env hup => ?_
      rw [threadStep_get hup rfl, hlook s (List.mem_cons_of_mem _ (hsub List.mem_cons_self))]
      exact ih fun u hu => hsub (List.mem_cons_of_mem _ hu)
  have hinterim : msg.recordType.isInterim = true := AccountingRecordType.isInterim_iff.mpr htype
  refine .next fun env hup => ?_
  unfold Thread.start
  rw [threadStep_get hup (by simp only [next, hinterim, Bool.true_or, if_true]; rfl),
    hlook _ List.mem_cons_self]
  exact htry (List.Subset.refl _)

theorem returns_of_not_corrupt (htype : msg.recordType = .interim)
    (hdef : ∀ s ∈ site.stores, ∃ o, lookUp P (W s) msg.key = .ok o)
    (hok : ∀ s ∈ site.stores, ¬ Corrupt P (W s) msg.key) :
    Returns P site (Thread.start msg W) := by
  have hinterim : msg.recordType.isInterim = true := AccountingRecordType.isInterim_iff.mpr htype
  refine .next fun env hup => ?_
  unfold Thread.start
  rw [threadStep_get hup (by simp only [next, hinterim, Bool.true_or, if_true]; rfl)]
  rcases decodable_or_empty (hdef _ List.mem_cons_self) (hok _ List.mem_cons_self) with
    ⟨sess, hl⟩ | ⟨hnone, hl⟩
  · rw [hl]
    show Returns P site ⟨found msg sess false, W, []⟩
    rw [found_interim htype]
    refine returns_updateLocal (fun env' hup' => ?_) hdef hok
    exact congrArg Prod.fst (setSessionData_of_lookUp hl (hup' site.localStore))
  · rw [hl]
    exact returns_tryRemotes htype hnone (List.Subset.refl _) hdef hok

/-- With a session to write and a record that cannot be decoded, `handle` does not return. -/
theorem not_returns (htype : msg.recordType = .interim)
    (hdec : ∃ s ∈ site.stores, Decodable P (W s) msg.key)
    (hcor : ∃ s ∈ site.stores, Corrupt P (W s) msg.key) :
    ¬ Returns P site (Thread.start msg W) := by
  intro hret
  obtain ⟨c, hc, hcorrupt⟩ := hcor
  obtain ⟨n, hn⟩ := hret.stateAt (f := reachable) fun _ _ => rfl
  have hnot : (stateAt (threadStep P site) reachable (Thread.start msg W) n).pc.returned =
      false := by
    rcases List.mem_cons.mp hc with rfl | hrem
    · have hremote : ∃ s ∈ site.remoteStores, Decodable P (W s) msg.key := by
        obtain ⟨s, hs, sess, hsess⟩ := hdec
        rcases List.mem_cons.mp hs with rfl | hs
        · rw [hcorrupt.2] at hsess
          cases hsess
        · exact ⟨s, hs, sess, hsess⟩
      exact (searching_stateAt (localBlocked_interim htype hcorrupt hremote)
        (fun k => (fun _ => rfl : (reachable k).Up)) n).not_returned
    · have hstuck : StuckAt P site msg W c
          (stateAt (threadStep P site) reachable (Thread.start msg W) n) :=
        stateAt_invariant ⟨rfl, .inl ⟨rfl, rfl⟩⟩
          (fun k t h => h.step htype hrem hcorrupt hdec fun _ => rfl) n
      exact hstuck.not_returned
  rw [hn] at hnot
  cases hnot

/-- **Termination of an INTERIM.** Each store is empty, shows a session or holds bytes that
`deserialize_session` rejects. With nobody else writing, `handle` returns if and only if no store
shows a session, or no store holds such bytes. -/
theorem interim_returns_iff (htype : msg.recordType = .interim)
    (hdef : ∀ s ∈ site.stores, ∃ o, lookUp P (W s) msg.key = .ok o) :
    Returns P site (Thread.start msg W) ↔
      (∀ s ∈ site.stores, ¬ Decodable P (W s) msg.key) ∨
        ∀ s ∈ site.stores, ¬ Corrupt P (W s) msg.key := by
  constructor
  · intro hret
    by_contra hcon
    push Not at hcon
    exact not_returns htype hcon.1 hcon.2 hret
  · rintro (hnone | hok)
    · exact returns_of_not_decodable htype hdef hnone
    · exact returns_of_not_corrupt htype hdef hok

end Interim

/-! ### A remote store with a record that cannot be decoded -/

theorem lookUp_holding (s : StoreId) {on : StoreId → Bool} (h : on s = true) :
    ∃ sess, lookUp compactPlatform
      (World.holding compactPlatform sampleKey (sampleSession 1) on s) sampleKey =
        .ok (some sess) := by
  unfold World.holding
  rw [if_pos h]
  exact ⟨_, getSessionData_of_some (by simp [Store.holding]; rfl)
    (serializeSession_ne_nil _ (sampleSession 1)) (deserializeSession_serializeSession _ _) rfl⟩

/-- With a session in both stores, an INTERIM returns. -/
theorem interim_returns_iff_holding :
    Returns compactPlatform localAndRemote (Thread.start (sampleMessage .interim)
      (World.holding compactPlatform sampleKey (sampleSession 1) fun s => s < 2)) := by
  have hlook : ∀ s ∈ localAndRemote.stores, ∃ sess, lookUp compactPlatform
      (World.holding compactPlatform sampleKey (sampleSession 1) (fun s => s < 2) s) sampleKey =
        .ok (some sess) := by
    intro s hs
    refine lookUp_holding s ?_
    rcases List.mem_cons.mp hs with rfl | hs
    · rfl
    · rw [List.mem_singleton.mp hs]
      rfl
  refine (interim_returns_iff rfl ?_).mpr (.inr ?_)
  · intro s hs
    obtain ⟨sess, hsess⟩ := hlook s hs
    exact ⟨some sess, hsess⟩
  · rintro s hs ⟨-, hnone⟩
    obtain ⟨sess, hsess⟩ := hlook s hs
    cases hnone.symm.trans hsess

/-- Store 0 holds the session, store 1 bytes that are no session. -/
def corruptRemote : World := fun s =>
  if s = 0 then Store.holding compactPlatform sampleKey (sampleSession 1) (Nat.succPNat 0)
  else ⟨fun _ => some ⟨ascii "corrupt", Nat.succPNat 0⟩, [1]⟩

/-- The INTERIM tries the second store again and again. -/
theorem interim_corruptRemote :
    ¬ Returns compactPlatform localAndRemote
      (Thread.start (sampleMessage .interim) corruptRemote) := by
  refine not_returns rfl ⟨0, List.mem_cons_self, ?_⟩ ⟨1, by decide, ?_, ?_⟩
  · exact ⟨_, getSessionData_of_some rfl (serializeSession_ne_nil _ (sampleSession 1))
      (deserializeSession_serializeSession _ _) rfl⟩
  · intro h
    cases h
  · rfl

end Ralf
