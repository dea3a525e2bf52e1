import Ralf.SessionStore

/-!
# What a stored session reads back as

`Session.stored` is a session as the store keeps it: every string ends at its first NUL and the
ECF list is gone. `deserializeSession_serializeSession` says that reading a written session gives
exactly that, and `stored_of_readSession` that a session which was read is already in that form;
`session_roundTrip` is what follows for the codec as a whole.
-/

namespace Ralf

open Bytes

/-- A session as the store keeps it. -/
def Session.stored (sess : Session) : Session :=
  { sess with
    sessionId := cStr sess.sessionId
    ccf := sess.ccf.map cStr
    ecf := []
    timerId := cStr sess.timerId }

/-! ## Writing -/

theorem plain_int32 (x : Int32) : (Json.int x.toInt).plain = true := by
  have h1 := x.minValue_le_toInt
  have h2 := x.toInt_lt
  simp only [Json.plain, decide_eq_true_eq]
  simp only [Int32.toInt_minValue] at h1
  omega

theorem plainElements_map_str (xs : List Bytes) :
    Json.plainElements (xs.map fun c => .str (cStr c)) = true := by
  induction xs with
  | nil => rfl
  | cons c xs ih => simpa [Json.plainElements, Json.plain] using ih

theorem plain_sessionDoc (sess : Session) : (sessionDoc sess).plain = true := by
  have h1 := plain_int32 sess.acctRecordNumber.toInt32
  have h2 := plain_int32 sess.sessionRefreshTime.toInt32
  have h3 := plain_int32 sess.interimInterval.toInt32
  have h4 := plainElements_map_str sess.ccf
  simp only [Json.plain] at h1 h2 h3
  simp only [sessionDoc, Json.plain, Json.plainMembers, h1, h2, h3, h4, Bool.and_self]

/-! ## Reading -/

theorem isInt_int32 (x : Int32) : (Json.int x.toInt).isInt = true := by
  have h1 := x.minValue_le_toInt
  have h2 := x.toInt_lt
  simp only [Json.isInt, decide_eq_true_eq]
  simp only [Int32.toInt_minValue] at h1
  omega

/-- A signed integer and the same 32 bits without a sign. -/
theorem toInt_eq_bmod (x : Int32) : x.toInt = (x.toUInt32.toNat : ℤ).bmod (2 ^ 32) := by
  rw [Int32.toInt, BitVec.toInt_eq_toNat_bmod]
  rfl

/-- Reading a string member that is there. -/
theorem getStringMember_obj {ms : List (Bytes × Json)} {name s : Bytes}
    (h : (ms.find? fun m => m.1 = name) = some (name, .str s)) :
    (Json.obj ms).getStringMember name = .ok (cStr s) := by
  simp [Json.getStringMember, Json.assertContains, Json.hasMember, Json.member, Json.findMember, h,
    Json.assertString, Json.isString, Json.getString, bind, Except.bind, Except.map]

/-- Reading an `int` member that is there. -/
theorem getIntMember_obj {ms : List (Bytes × Json)} {name : Bytes} {x : Int32}
    (h : (ms.find? fun m => m.1 = name) = some (name, .int x.toInt)) :
    (Json.obj ms).getIntMember name = .ok x := by
  simp [Json.getIntMember, Json.assertContains, Json.hasMember, Json.member, Json.findMember, h,
    Json.assertInt, isInt_int32, Json.getInt, bind, Except.bind, Except.map]

theorem mapM_getString_str (xs : List Bytes) :
    ((xs.map fun c => Json.str (cStr c)).mapM fun c => do
      c.assertString
      c.getString) = Except.ok (xs.map cStr) := by
  induction xs with
  | nil => rfl
  | cons c xs ih =>
    rw [List.map_cons, List.mapM_cons, ih]
    simp [Json.assertString, Json.isString, Json.getString, bind, Except.bind, pure, Except.pure]

theorem readSession_sessionDoc (sess : Session) :
    readSession (sessionDoc sess) = .ok { sess.stored with cas := 0 } := by
  have hid : (sessionDoc sess).getStringMember jsonSessionId = .ok (cStr (cStr sess.sessionId)) :=
    getStringMember_obj rfl
  have htimer : (sessionDoc sess).getStringMember jsonTimerId = .ok (cStr (cStr sess.timerId)) :=
    getStringMember_obj rfl
  have hnum : (sessionDoc sess).getIntMember jsonAcctRecordNum =
      .ok sess.acctRecordNumber.toInt32 := getIntMember_obj rfl
  have hrefresh : (sessionDoc sess).getIntMember jsonRefreshTime =
      .ok sess.sessionRefreshTime.toInt32 := getIntMember_obj rfl
  have hinterim : (sessionDoc sess).getIntMember jsonInterimInterval =
      .ok sess.interimInterval.toInt32 := getIntMember_obj rfl
  have hcontains : (sessionDoc sess).assertContains jsonCcfs = .ok () := rfl
  have hccfs : (sessionDoc sess).member jsonCcfs =
      .ok (.arr (sess.ccf.map fun ccf => .str (cStr ccf))) := rfl
  unfold readSession
  rw [hid, htimer, hnum, hrefresh, hinterim, hcontains, hccfs]
  simp only [bind, Except.bind, Json.assertArray, Json.isArray, Json.elements, if_true]
  have hmap := mapM_getString_str sess.ccf
  simp only [bind, Except.bind] at hmap
  rw [hmap]
  simp [pure, Except.pure, Session.stored]

/-! ## The form of a session that was read -/

/-- A computation that succeeds has succeeded step by step. -/
theorem exists_of_bind_ok {ε α β : Type} {x : Except ε α} {f : α → Except ε β} {b : β}
    (h : x >>= f = .ok b) : ∃ a, x = .ok a ∧ f a = .ok b := by
  cases x with
  | error e => cases h
  | ok a => exact ⟨a, rfl, h⟩

theorem cStr_of_getString {v : Json} {s : Bytes} (h : v.getString = .ok s) : cStr s = s := by
  cases v with
  | str t =>
    simp only [Json.getString, Except.ok.injEq] at h
    rw [← h, cStr_cStr]
  | _ => cases h

theorem cStr_of_getStringMember {v : Json} {name s : Bytes}
    (h : v.getStringMember name = .ok s) : cStr s = s := by
  obtain ⟨_, _, h⟩ := exists_of_bind_ok h
  obtain ⟨_, _, h⟩ := exists_of_bind_ok h
  obtain ⟨_, _, h⟩ := exists_of_bind_ok h
  exact cStr_of_getString h

theorem map_cStr_of_mapM {xs : List Json} {ss : List Bytes}
    (h : (xs.mapM fun c => do
      c.assertString
      c.getString) = Except.ok ss) : ss.map cStr = ss := by
  induction xs generalizing ss with
  | nil =>
    cases h
    rfl
  | cons x xs ih =>
    rw [List.mapM_cons] at h
    obtain ⟨s, hs, h⟩ := exists_of_bind_ok h
    obtain ⟨ss', hss, h⟩ := exists_of_bind_ok h
    obtain ⟨_, _, hs⟩ := exists_of_bind_ok hs
    cases h
    rw [List.map_cons, ih hss, cStr_of_getString hs]

theorem stored_of_readSession {doc : Json} {sess : Session} (h : readSession doc = .ok sess) :
    sess.stored = sess := by
  unfold readSession at h
  obtain ⟨sessionId, hid, h⟩ := exists_of_bind_ok h
  obtain ⟨_, _, h⟩ := exists_of_bind_ok h
  obtain ⟨_, _, h⟩ := exists_of_bind_ok h
  obtain ⟨_, _, h⟩ := exists_of_bind_ok h
  obtain ⟨_, _, h⟩ := exists_of_bind_ok h
  obtain ⟨ccf, hccf, h⟩ := exists_of_bind_ok h
  obtain ⟨_, _, h⟩ := exists_of_bind_ok h
  obtain ⟨timerId, htimer, h⟩ := exists_of_bind_ok h
  obtain ⟨_, _, h⟩ := exists_of_bind_ok h
  obtain ⟨_, _, h⟩ := exists_of_bind_ok h
  cases h
  simp only [Session.stored, cStr_of_getStringMember hid, cStr_of_getStringMember htimer,
    map_cStr_of_mapM hccf]

/-! ## The round trip -/

section RoundTrip

variable (P : Platform)

theorem cStr_serializeSession (sess : Session) :
    cStr (serializeSession P sess) = P.write (sessionDoc sess) := by
  unfold serializeSession
  rw [cStr_cStr, cStr_of_nulFree (P.nulFree_write _)]

/-- A written session reads back as the store keeps it. -/
theorem deserializeSession_serializeSession (sess : Session) :
    deserializeSession P (serializeSession P sess) = .ok (some { sess.stored with cas := 0 }) := by
  unfold deserializeSession
  rw [cStr_serializeSession, P.parse_write _ (plain_sessionDoc sess)]
  simp only [readSession_sessionDoc]

theorem serializeSession_ne_nil (sess : Session) : serializeSession P sess ≠ [] := by
  intro h
  have hwrite : P.write (sessionDoc sess) = [] := by
    rw [← cStr_serializeSession, h]
    rfl
  have hparse := P.parse_write _ (plain_sessionDoc sess)
  rw [hwrite, P.parse_nil] at hparse
  cases hparse

theorem stored_of_deserializeSession {data : Bytes} {sess : Session}
    (h : deserializeSession P data = .ok (some sess)) : sess.stored = sess := by
  unfold deserializeSession at h
  split at h
  · cases h
  · split at h
    · rename_i hread
      cases h
      exact stored_of_readSession hread
    · cases h
    · cases h

/-- A session whose strings have no NUL in them. -/
structure Session.NulFree (sess : Session) : Prop where
  sessionId : Bytes.NulFree sess.sessionId
  ccf : ∀ c ∈ sess.ccf, Bytes.NulFree c
  timerId : Bytes.NulFree sess.timerId

/-- The six fields that are written. -/
def Session.fields (sess : Session) : Bytes × List Bytes × UInt32 × Bytes × UInt32 × UInt32 :=
  (sess.sessionId, sess.ccf, sess.acctRecordNumber, sess.timerId, sess.sessionRefreshTime,
    sess.interimInterval)

variable {P}

theorem fields_stored {sess : Session} (h : sess.NulFree) : sess.stored.fields = sess.fields := by
  have hccf : sess.ccf.map cStr = sess.ccf :=
    (List.map_congr_left fun c hc => cStr_of_nulFree (h.ccf c hc)).trans (List.map_id _)
  simp only [Session.fields, Session.stored, cStr_of_nulFree h.sessionId, hccf,
    cStr_of_nulFree h.timerId]

/-- What is written of a session is what the store keeps of it. -/
theorem serializeSession_stored (sess : Session) (cas : ℕ) :
    serializeSession P { sess.stored with cas := cas } = serializeSession P sess := by
  have hdoc : sessionDoc { sess.stored with cas := cas } = sessionDoc sess := by
    have hccf : (sess.ccf.map cStr).map (fun c => Json.str (cStr c)) =
        sess.ccf.map fun c => Json.str (cStr c) := by
      simp only [List.map_map, Function.comp_def, cStr_cStr]
    simp only [sessionDoc, Session.stored, cStr_cStr, hccf]
  unfold serializeSession
  rw [hdoc]

/-- **The codec.** What a session is written as reads back as the session, each string cut at its
first NUL and the ECFs gone. Sessions without NULs come back whole and are told apart by their
texts, and what was read is written as the same text again. -/
theorem session_roundTrip (sess : Session) :
    deserializeSession P (serializeSession P sess) = .ok (some { sess.stored with cas := 0 }) ∧
      (sess.NulFree → ∃ d, deserializeSession P (serializeSession P sess) = .ok (some d) ∧
        d.fields = sess.fields ∧ d.ecf = []) ∧
      (∀ sess' : Session, sess.NulFree → sess'.NulFree →
        serializeSession P sess = serializeSession P sess' → sess.fields = sess'.fields) ∧
      ∀ d, deserializeSession P (serializeSession P sess) = .ok (some d) →
        serializeSession P d = serializeSession P sess := by
  refine ⟨deserializeSession_serializeSession P sess, ?_, ?_, ?_⟩
  · intro h
    exact ⟨_, deserializeSession_serializeSession P sess, fields_stored h, rfl⟩
  · intro sess' h h' heq
    have hread := deserializeSession_serializeSession P sess
    rw [heq, deserializeSession_serializeSession P sess'] at hread
    have hstored : ({ sess'.stored with cas := 0 } : Session) = { sess.stored with cas := 0 } :=
      Option.some.inj (Except.ok.inj hread)
    rw [← fields_stored h, ← fields_stored h']
    exact (congrArg Session.fields hstored).symm
  · intro d hd
    rw [deserializeSession_serializeSession P sess] at hd
    cases hd
    exact serializeSession_stored sess 0

/-- Numbers from 2^31 on, and a CCF that is listed twice. -/
def largeSession : Session where
  sessionId := ascii "sid"
  ccf := [ascii "b", ascii "a", ascii "b"]
  ecf := [ascii "e"]
  acctRecordNumber := 4294967295
  timerId := ascii "t"
  sessionRefreshTime := 2147483648
  interimInterval := 0
  cas := 7

theorem session_roundTrip_large :
    ∃ d, deserializeSession compactPlatform (serializeSession compactPlatform largeSession) =
        .ok (some d) ∧
      d.ccf = [ascii "b", ascii "a", ascii "b"] ∧ d.acctRecordNumber = 4294967295 ∧
      d.sessionRefreshTime = 2147483648 := by
  obtain ⟨-, hfields, -, -⟩ := session_roundTrip (P := compactPlatform) largeSession
  obtain ⟨d, hd, heq, -⟩ := hfields ⟨by decide, by decide, by decide⟩
  simp only [Session.fields, largeSession, Prod.mk.injEq] at heq
  exact ⟨d, hd, heq.2.1, heq.2.2.1, heq.2.2.2.2.1⟩

end RoundTrip

end Ralf
