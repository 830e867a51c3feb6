import Mathlib.Data.List.DropRight
import Atlas.Auth.Agreement

/-!
# Credentials that raise

A malformed credential is to be refused like a wrong one.  The check of a session token
catches what the decoding of the body raises as a `ValueError`, and the check of the admin
token raises its HTTP errors.  Some failures are out of their reach: the signature of a body
with a surrogate, the comparison of texts that are no ASCII, and a signed document that is
no dictionary or nests too deep.

The texts of the backend are sequences of code points.  Some of these, the surrogates, are
no characters.

## Main definitions

* `Text` — a text of the backend.
* `Backend.verifyText` — `verify_session_token` of any text.
* `Backend.Settled` — a token for which the check comes to an answer.
* `requireAdminToken` — `require_admin_token`.

## Main results

* `Backend.verifyText_ok_iff` — **when the check of a session token does not raise**.
* `requireAdminToken_ok_iff` — the headers that are let in.
* `requireAdminToken_http_iff` — **when the other check raises nothing but its HTTP errors**.
* `credentials_settled_iff` — both.
* `credentials_raise` — a token and a header with a letter that is no ASCII.

## References

`app/auth/tokens.py`, `app/api/deps.py`, `app/api/auth.py`.
-/

namespace Atlas.Auth

open Json

/-- A text of the backend: code points, of which some are no characters. -/
abbrev Text := List (Fin 0x110000)

/-- The text of a literal. -/
def Text.ofString (s : String) : Text := s.toList.map fun c => Fin.ofNat 0x110000 c.toNat

/-- The character of a code point; a surrogate has none. -/
def char? (p : Fin 0x110000) : Option Char :=
  if h : p.val.isValidChar then some (Char.ofNatAux p.val h) else none

/-- The text is ASCII. -/
def Text.IsAscii (text : Text) : Prop := ∀ p ∈ text, p.val < 0x80

instance (text : Text) : Decidable text.IsAscii :=
  List.decidableBAll (fun p : Fin 0x110000 => p.val < 0x80) text

/-! ### Session tokens -/

/-- The dot of a token. -/
def dot : Fin 0x110000 := 0x2E

/-- The text before the first dot. -/
def Text.body (token : Text) : Text := token.takeWhile (· ≠ dot)

/-- The text after the first dot. -/
def Text.signature (token : Text) : Text := (token.dropWhile (· ≠ dot)).tail

namespace Backend

/-- `verify_session_token`: the body is encoded to be signed, and then the signatures are
compared, both out of the reach of what is caught. -/
def verifyText (shared : Shared) (limits : Limits) (token : Option Text) :
    Except PyException (Option Session) :=
  match token with
  | none => .ok none
  | some token =>
      if token = [] ∨ dot ∉ token then .ok none
      else
        match token.body.mapM char?, token.signature.mapM char? with
        -- `UnicodeEncodeError`
        | none, _ => .error .valueError
        | some _, none => .error .typeError
        | some body, some signature =>
            verifySessionToken shared limits (some (body ++ '.' :: signature))

/-- The document in a body is a dictionary, or there is no document. -/
def Readable (limits : Limits) (body : List Char) : Prop :=
  payload limits body = .error .valueError ∨ ∃ members, payload limits body = .ok (.object members)

/-- A token for which the check comes to an answer: without a dot; or with a body that has no
surrogate and a signature in ASCII, which signs a dictionary or no document at all if it is
the right one. -/
def Settled (shared : Shared) (limits : Limits) (token : Text) : Prop :=
  dot ∉ token ∨
    token.signature.IsAscii ∧ ∃ body, token.body.mapM char? = some body ∧
      (token.signature.mapM char? = some (sign shared body) → Readable limits body)

end Backend

/-! ### The admin token -/

/-- `str.isspace` of a code point. -/
def isSpace (p : Fin 0x110000) : Bool :=
  (9 ≤ p.val ∧ p.val ≤ 13) ∨ (0x1C ≤ p.val ∧ p.val ≤ 0x20) ∨ p.val = 0x85 ∨ p.val = 0xA0 ∨
    p.val = 0x1680 ∨ (0x2000 ≤ p.val ∧ p.val ≤ 0x200A) ∨ p.val = 0x2028 ∨ p.val = 0x2029 ∨
    p.val = 0x202F ∨ p.val = 0x205F ∨ p.val = 0x3000

/-- `str.strip`. -/
def Text.strip (text : Text) : Text := (text.dropWhile isSpace).rdropWhile isSpace

/-- The lower case of a letter in ASCII. -/
def lower (p : Fin 0x110000) : Fin 0x110000 := if 0x41 ≤ p.val ∧ p.val ≤ 0x5A then p + 0x20 else p

/-- The token of an `Authorization` header; no letter out of ASCII has one of `bearer` for its
lower case. -/
def bearer (authorization : Text) : Text :=
  let scheme := authorization.takeWhile (· ≠ 0x20)
  if 0x20 ∈ authorization ∧ scheme.map lower = Text.ofString "bearer" then
    Text.strip (authorization.dropWhile (· ≠ 0x20)).tail
  else []

/-- The token that the headers present. -/
def presented (xAdminToken authorization : Option Text) : Text :=
  let provided := (xAdminToken.getD []).strip
  if provided = [] then bearer (authorization.getD []) else provided

inductive AdminError
  | http (status : ℕ) (detail : String)
  | typeError
  deriving DecidableEq, Repr

/-- `require_admin_token`, for the token of the settings and the headers. -/
def requireAdminToken (adminApiToken xAdminToken authorization : Option Text) :
    Except AdminError Unit :=
  let expected := adminApiToken.getD []
  if expected.strip = [] then
    .error (.http 503 "ADMIN_API_TOKEN is not configured; mutating endpoints disabled")
  else
    let provided := presented xAdminToken authorization
    if provided = [] then .error (.http 401 "Invalid or missing admin token")
    -- `secrets.compare_digest`
    else if ¬(provided.IsAscii ∧ expected.IsAscii) then .error .typeError
    else if provided ≠ expected then .error (.http 401 "Invalid or missing admin token")
    else .ok ()

variable {shared : Shared} {limits : Backend.Limits} {text token : Text} {chars : List Char}

/-! ### Characters and code points -/

theorem toNat_of_char? {p : Fin 0x110000} {c : Char} (h : char? p = some c) : c.toNat = p.val := by
  by_cases hvalid : p.val.isValidChar
  · rw [char?, dif_pos hvalid] at h
    rw [← Option.some.inj h]
    rfl
  · rw [char?, dif_neg hvalid] at h
    exact absurd h (Option.some_ne_none c).symm

theorem map_toNat_of_mapM (h : text.mapM char? = some chars) :
    chars.map Char.toNat = text.map Fin.val := by
  induction text generalizing chars with
  | nil =>
    rw [← Option.some.inj h]
    rfl
  | cons p text ih =>
    rw [List.mapM_cons] at h
    obtain ⟨c, hc, hrest⟩ := Option.bind_eq_some_iff.mp h
    obtain ⟨rest, htext, hcons⟩ := Option.bind_eq_some_iff.mp hrest
    rw [← Option.some.inj hcons, List.map_cons, List.map_cons, toNat_of_char? hc, ih htext]

/-- A text in ASCII has characters only. -/
theorem exists_mapM_of_isAscii (h : text.IsAscii) : ∃ chars, text.mapM char? = some chars := by
  induction text with
  | nil => exact ⟨[], rfl⟩
  | cons p text ih =>
    obtain ⟨rest, hrest⟩ := ih fun q hq => h q (List.mem_cons_of_mem _ hq)
    have hp : p.val < 0x80 := h p (List.mem_cons_self ..)
    have hvalid : p.val.isValidChar := Or.inl (by omega)
    refine ⟨Char.ofNatAux p.val hvalid :: rest, ?_⟩
    rw [List.mapM_cons, hrest, char?, dif_pos hvalid]
    rfl

theorem all_isAscii_iff (h : text.mapM char? = some chars) :
    chars.all Backend.isAscii = true ↔ text.IsAscii := by
  have hmap := map_toNat_of_mapM h
  rw [List.all_eq_true]
  constructor
  · intro hall p hp
    have hmem : p.val ∈ chars.map Char.toNat := by
      rw [hmap]
      exact List.mem_map_of_mem hp
    obtain ⟨c, hc, heq⟩ := List.mem_map.mp hmem
    rw [← heq]
    exact of_decide_eq_true (hall c hc)
  · intro hall c hc
    have hmem : c.toNat ∈ text.map Fin.val := by
      rw [← hmap]
      exact List.mem_map_of_mem hc
    obtain ⟨p, hp, heq⟩ := List.mem_map.mp hmem
    refine decide_eq_true ?_
    rw [← heq]
    exact hall p hp

/-- The characters of a body have no dot. -/
theorem dot_notMem_of_body (h : token.body.mapM char? = some chars) : '.' ∉ chars := by
  intro hdot
  have hmem : '.'.toNat ∈ token.body.map Fin.val := by
    rw [← map_toNat_of_mapM h]
    exact List.mem_map_of_mem hdot
  obtain ⟨p, hp, heq⟩ := List.mem_map.mp hmem
  unfold Text.body at hp
  have hne : decide (p ≠ dot) = true := List.mem_takeWhile_imp (l := token) hp
  exact of_decide_eq_true hne (Fin.ext heq)

/-! ### Session tokens -/

theorem beforeDot_append {body signature : List Char} (hdot : '.' ∉ body) :
    beforeDot (body ++ '.' :: signature) = body := by
  have hbody : ∀ c ∈ body, decide (c ≠ '.') = true :=
    fun c hc => decide_eq_true (ne_of_mem_of_not_mem hc hdot)
  unfold beforeDot
  rw [List.takeWhile_append_of_pos hbody]
  simp

theorem afterDot_append {body signature : List Char} (hdot : '.' ∉ body) :
    afterDot (body ++ '.' :: signature) = signature := by
  have hbody : ∀ c ∈ body, decide (c ≠ '.') = true :=
    fun c hc => decide_eq_true (ne_of_mem_of_not_mem hc hdot)
  unfold afterDot
  rw [List.dropWhile_append_of_pos hbody]
  simp

/-- What the check of a body and a signature comes to. -/
theorem Backend.verifySessionToken_ok_iff {body signature : List Char} (hdot : '.' ∉ body) :
    (∃ session, verifySessionToken shared limits (some (body ++ '.' :: signature)) = .ok session) ↔
      signature.all isAscii = true ∧ (signature = sign shared body → Readable limits body) := by
  have hne : ¬(body ++ '.' :: signature = [] ∨ '.' ∉ body ++ '.' :: signature) := by simp
  simp only [verifySessionToken, if_neg hne, beforeDot_append hdot, afterDot_append hdot]
  by_cases hascii : signature.all isAscii = true
  · rw [compareDigest, if_pos ⟨hascii, sign_isAscii shared body⟩]
    by_cases hsign : signature = sign shared body
    · -- the signature is right: it depends on the document
      rw [decide_eq_true hsign]
      simp only [hsign, Readable, true_implies]
      rw [and_iff_right (sign_isAscii shared body)]
      cases hpayload : payload limits body with
      | error e => cases e <;> simp
      | ok value => cases value <;> simp
    · rw [decide_eq_false hsign]
      simp [hascii, hsign]
  · rw [compareDigest, if_neg fun h => hascii h.1]
    simp [hascii]

/-- **When the check of a session token does not raise.** -/
theorem Backend.verifyText_ok_iff (shared : Shared) (limits : Limits) (token : Text) :
    (∃ session, verifyText shared limits (some token) = .ok session) ↔
      Settled shared limits token := by
  unfold Settled
  by_cases hdot : dot ∈ token
  · have hne : ¬(token = [] ∨ dot ∉ token) := by
      rintro (rfl | hno)
      · exact List.not_mem_nil hdot
      · exact hno hdot
    unfold verifyText
    dsimp only
    rw [if_neg hne, or_iff_right (not_not.mpr hdot)]
    cases hbody : token.body.mapM char? with
    | none => simp
    | some body =>
      cases hsignature : token.signature.mapM char? with
      | none =>
        -- a signature with a surrogate is no ASCII
        have hascii : ¬token.signature.IsAscii := by
          intro h
          obtain ⟨chars, hchars⟩ := exists_mapM_of_isAscii h
          rw [hsignature] at hchars
          exact absurd hchars (by simp)
        simp [hascii]
      | some signature =>
        have hiff := @verifySessionToken_ok_iff shared limits body signature
          (dot_notMem_of_body hbody)
        rw [all_isAscii_iff hsignature] at hiff
        simpa using hiff
  · simp [verifyText, hdot]

/-! ### The admin token -/

/-- **The headers that are let in** present the token of the settings, in ASCII. -/
theorem requireAdminToken_ok_iff (adminApiToken xAdminToken authorization : Option Text) :
    requireAdminToken adminApiToken xAdminToken authorization = .ok () ↔
      (adminApiToken.getD []).strip ≠ [] ∧
        presented xAdminToken authorization = adminApiToken.getD [] ∧
        (adminApiToken.getD []).IsAscii := by
  unfold requireAdminToken
  dsimp only
  split_ifs with hblank hempty hascii hne
  · simp [hblank]
  · -- nothing is presented, but a token is expected
    rw [hempty]
    simp only [false_iff, not_and]
    intro hstrip heq
    rw [← heq] at hstrip
    exact absurd rfl hstrip
  · simp [hne]
  · simp only [true_iff]
    exact ⟨hblank, not_not.mp hne, hascii.2⟩
  · simp only [false_iff, not_and]
    intro _ heq hexpected
    rw [heq] at hascii
    exact hascii ⟨hexpected, hexpected⟩

/-- **When the check of the admin token raises nothing but its HTTP errors.** -/
theorem requireAdminToken_http_iff (adminApiToken xAdminToken authorization : Option Text) :
    (requireAdminToken adminApiToken xAdminToken authorization = .ok () ∨
      ∃ status detail, requireAdminToken adminApiToken xAdminToken authorization =
        .error (.http status detail) ∧ (status = 401 ∨ status = 503)) ↔
      (adminApiToken.getD []).strip = [] ∨ presented xAdminToken authorization = [] ∨
        (presented xAdminToken authorization).IsAscii ∧ (adminApiToken.getD []).IsAscii := by
  unfold requireAdminToken
  dsimp only
  split_ifs with hblank hempty hascii heq
  · simp [hblank]
  · simp [hempty]
  · simp [hascii]
  · simp [hascii]
  · simp [hblank, hempty, hascii]

/-! ### Both checks -/

/-- **When the checks of credentials come to an answer**: a session or none for a session
token, and access or an HTTP error for the headers of an admin. -/
theorem credentials_settled_iff (shared : Shared) (limits : Backend.Limits) (token : Text)
    (adminApiToken xAdminToken authorization : Option Text) :
    ((∃ session, Backend.verifyText shared limits (some token) = .ok session) ↔
      Backend.Settled shared limits token) ∧
    ((requireAdminToken adminApiToken xAdminToken authorization = .ok () ∨
        ∃ status detail, requireAdminToken adminApiToken xAdminToken authorization =
          .error (.http status detail) ∧ (status = 401 ∨ status = 503)) ↔
      (adminApiToken.getD []).strip = [] ∨ presented xAdminToken authorization = [] ∨
        (presented xAdminToken authorization).IsAscii ∧ (adminApiToken.getD []).IsAscii) :=
  ⟨Backend.verifyText_ok_iff shared limits token,
    requireAdminToken_http_iff adminApiToken xAdminToken authorization⟩

/-- A token whose signature has a letter that is no ASCII, and such a header: both checks raise
a `TypeError`. -/
theorem credentials_raise :
    ¬(∀ (shared : Shared) (limits : Backend.Limits) (token : Text),
      ∃ session, Backend.verifyText shared limits (some token) = .ok session) ∧
    ¬(∀ adminApiToken xAdminToken authorization : Option Text,
      requireAdminToken adminApiToken xAdminToken authorization = .ok () ∨
        ∃ status detail, requireAdminToken adminApiToken xAdminToken authorization =
          .error (.http status detail) ∧ (status = 401 ∨ status = 503)) := by
  constructor
  · intro hall
    have hsettled := (Backend.verifyText_ok_iff _ _ _).mp <|
      hall { hmac := fun _ => ⟨List.replicate 32 0, rfl⟩, now := 0 }
        { maxStrDigits := some 4300, recursion := 1000 } (Text.ofString "a.é")
    have hdot : dot ∈ Text.ofString "a.é" := by decide +kernel
    have hascii : ¬(Text.ofString "a.é").signature.IsAscii := by decide +kernel
    exact hsettled.elim (fun hno => hno hdot) fun hsigned => hascii hsigned.1
  · intro hall
    have hraise : requireAdminToken (some (Text.ofString "secret")) (some (Text.ofString "é"))
        none = .error .typeError := by decide +kernel
    have h := hall (some (Text.ofString "secret")) (some (Text.ofString "é")) none
    rw [hraise] at h
    simp at h

end Atlas.Auth
