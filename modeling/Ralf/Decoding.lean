import Ralf.Handlers

/-!
# What the session decoder accepts

`deserialize_session` reads a text of the store into a session. `IsSession` is the JSON form of a
session, said without the accessors. On every object the decoder decides it, and no accessor of
rapidjson is applied to a value it is not defined on (`checks_readSession`); on a JSON text that is
no object the first member is looked up all the same, and that lookup is an assertion.
-/

namespace Ralf

open Bytes Json

/-! ## Members by type -/

/-- The first member of this name has a value of this type. -/
def MemberIs (type : Json → Bool) (ms : List (Bytes × Json)) (name : Bytes) : Prop :=
  ∃ v, findMember ms name = some v ∧ type v = true

theorem findMember_obj (ms : List (Bytes × Json)) (name : Bytes) :
    (Json.obj ms).findMember name = .ok (findMember ms name) := rfl

theorem getStringMember_checks (ms : List (Bytes × Json)) (name : Bytes) :
    Checks ((Json.obj ms).getStringMember name) (MemberIs isString ms name) :=
  checks_getStringMember (findMember_obj ms name)

theorem getIntMember_checks (ms : List (Bytes × Json)) (name : Bytes) :
    Checks ((Json.obj ms).getIntMember name) (MemberIs isInt ms name) :=
  checks_getIntMember (findMember_obj ms name)

/-! ## Sessions -/

/-- The members of an object that is a session. Other members are allowed beside them. -/
structure IsSession (ms : List (Bytes × Json)) : Prop where
  sessionId : MemberIs isString ms jsonSessionId
  ccfs : ∃ xs, findMember ms jsonCcfs = some (.arr xs) ∧ ∀ x ∈ xs, x.isString = true
  acctRecordNum : MemberIs isInt ms jsonAcctRecordNum
  timerId : MemberIs isString ms jsonTimerId
  refreshTime : MemberIs isInt ms jsonRefreshTime
  interimInterval : MemberIs isInt ms jsonInterimInterval

/-- The `try` block decides whether an object is a session. -/
theorem checks_readSession (ms : List (Bytes × Json)) :
    Checks (readSession (.obj ms)) (IsSession ms) := by
  let ccfs : Prop := ∃ xs, findMember ms jsonCcfs = some (.arr xs) ∧ ∀ x ∈ xs, x.isString = true
  let rest : Prop := MemberIs isInt ms jsonAcctRecordNum ∧ MemberIs isString ms jsonTimerId ∧
    MemberIs isInt ms jsonRefreshTime ∧ MemberIs isInt ms jsonInterimInterval ∧ True
  have hcontains := checks_assertContains (findMember_obj ms jsonCcfs)
  have h : Checks (readSession (.obj ms)) (MemberIs isString ms jsonSessionId ∧
      (findMember ms jsonCcfs).isSome = true ∧ ccfs ∧ rest) := by
    unfold readSession
    refine (getStringMember_checks ms _).bind fun _ _ => hcontains.bind fun _ hok => ?_
    obtain ⟨v, hv⟩ := Option.isSome_iff_exists.mp (hcontains.holds hok)
    rw [member_of_findMember ((findMember_obj ms jsonCcfs).trans (congrArg _ hv))]
    -- The member is there; what is left to find out is whether it is an array of strings.
    refine ((checks_assertArray v).bind (q := ccfs ∧ rest) fun _ hok => ?_).congr ?_
    · have harray := (checks_assertArray v).holds hok
      cases v with
      | arr xs =>
        refine ((Checks.mapM checks_string xs).bind (q := rest) fun _ _ => ?_).congr ?_
        · exact (getIntMember_checks ms _).bind fun _ _ => (getStringMember_checks ms _).bind
            fun _ _ => (getIntMember_checks ms _).bind fun _ _ => (getIntMember_checks ms _).bind
            fun _ _ => Checks.ok _
        · refine and_congr_left fun _ => ⟨fun hxs => ⟨xs, hv, hxs⟩, ?_⟩
          rintro ⟨ys, hys, hall⟩
          rw [hv] at hys
          cases hys
          exact hall
      | _ => cases harray
    · refine and_iff_right_of_imp ?_
      rintro ⟨⟨xs, hxs, -⟩, -⟩
      rw [hv] at hxs
      cases hxs
      rfl
  refine h.congr ⟨?_, ?_⟩
  · rintro ⟨h1, -, h2, h3, h4, h5, h6, -⟩
    exact ⟨h1, h2, h3, h4, h5, h6⟩
  · rintro ⟨h1, ⟨xs, hxs, hall⟩, h3, h4, h5, h6⟩
    exact ⟨h1, by rw [hxs]; rfl, ⟨xs, hxs, hall⟩, h3, h4, h5, h6, trivial⟩

/-- A value that is no object has no members to look up: the first lookup fails. -/
theorem readSession_of_not_object {doc : Json} (h : doc.isObject = false) :
    readSession doc = .error .assertion := by
  cases doc with
  | obj ms => cases h
  | _ => rfl

/-! ## Texts -/

section Texts

variable (P : Platform)

/-- The text, up to its first NUL, is that of a session. -/
def IsSessionText (data : Bytes) : Prop :=
  ∃ ms, P.parse (cStr data) = some (.obj ms) ∧ IsSession ms

/-- The decoder returns, with a session if the text is one and with NULL if it is not. -/
def DecidesSessionText (data : Bytes) : Prop :=
  ∃ sess, deserializeSession P data = .ok sess ∧ (sess.isSome = true ↔ IsSessionText P data)

variable {P} {data : Bytes}

theorem deserializeSession_of_not_object {doc : Json} (hparse : P.parse (cStr data) = some doc)
    (h : doc.isObject = false) : deserializeSession P data = .error .assertion := by
  unfold deserializeSession
  rw [hparse]
  simp only [readSession_of_not_object h]

theorem decidesSessionText_of_none (hparse : P.parse (cStr data) = none) :
    DecidesSessionText P data := by
  refine ⟨none, by unfold deserializeSession; rw [hparse], nofun, ?_⟩
  rintro ⟨ms, hms, -⟩
  rw [hparse] at hms
  cases hms

theorem decidesSessionText_of_object {ms : List (Bytes × Json)}
    (hparse : P.parse (cStr data) = some (.obj ms)) : DecidesSessionText P data := by
  obtain ⟨hms, sess, hread⟩ | ⟨hms, hread⟩ := checks_readSession ms
  · refine ⟨some sess, ?_, fun _ => ⟨ms, hparse, hms⟩, fun _ => rfl⟩
    unfold deserializeSession
    rw [hparse]
    simp only [hread]
  · refine ⟨none, ?_, nofun, ?_⟩
    · unfold deserializeSession
      rw [hparse]
      simp only [hread]
    · rintro ⟨ms', hms', hsess⟩
      rw [hparse] at hms'
      cases hms'
      exact absurd hsess hms

variable (P data) in
/-- **What the decoder accepts.** The decoder decides whether a text is that of a session, exactly
when the text is no JSON text at all or a JSON object: on every other JSON text it looks up a member
of a value that has none. -/
theorem decidesSessionText_iff :
    DecidesSessionText P data ↔ ∀ doc, P.parse (cStr data) = some doc → doc.isObject = true := by
  constructor
  · rintro ⟨sess, hok, -⟩ doc hparse
    by_contra hobj
    rw [deserializeSession_of_not_object hparse (by simpa using hobj)] at hok
    cases hok
  · intro h
    cases hparse : P.parse (cStr data) with
    | none => exact decidesSessionText_of_none hparse
    | some doc =>
      have hobj := h doc hparse
      cases doc with
      | obj ms => exact decidesSessionText_of_object hparse
      | _ => cases hobj

/-- An empty array is a JSON text. It is no session, and the decoder does not say so. -/
theorem emptyArray_not_decided :
    ¬IsSessionText compactPlatform (ascii "[]") ∧
      deserializeSession compactPlatform (ascii "[]") = .error .assertion ∧
      ¬DecidesSessionText compactPlatform (ascii "[]") := by
  have hparse : compactPlatform.parse (cStr (ascii "[]")) = some (.arr []) :=
    compactPlatform.parse_write (.arr []) rfl
  have herror := deserializeSession_of_not_object hparse rfl
  refine ⟨?_, herror, ?_⟩
  · rintro ⟨ms, hms, -⟩
    rw [hparse] at hms
    cases hms
  · rintro ⟨sess, hok, -⟩
    rw [herror] at hok
    cases hok

end Texts

end Ralf
