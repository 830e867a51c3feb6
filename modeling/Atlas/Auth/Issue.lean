import Atlas.Auth.Credentials
import Atlas.Lib.Writing

/-!
# Issuing session tokens

Each side also issues tokens: it writes the document of a user and an expiry, takes the text in
UTF-8 as the body, and signs it.  The backend escapes whatever is not printable ASCII; the front
end leaves a character as it is, unless it is a control character or has an escape of its own.

Whichever side issues a token, both sides take it until it expires, and find its user and its
expiry in it.  A text may hold surrogates on their own for either language, and then two of them
next to each other are read as one code point; a text of characters does not.

## Main definitions

* `Backend.createSessionToken`, `Frontend.createSessionToken` — the functions of the sides.
* `tokenOf` — the token with a text for its body.
* `Legible` — what a writer leaves as it is, so that both sides read it.

## Main results

* `verified_of_backend` — **what the backend issues, both sides take**.
* `verified_of_frontend` — **what the front end issues, both sides take**.

## References

`app/auth/tokens.py`, `frontend/lib/auth.ts`, `tests/unit/test_auth.py`.
-/

namespace Atlas.Auth

open Json Binary64

/-! ### The functions -/

/-- The document of a token. -/
def document (username : List ℕ) (exp : ℤ) : Value ℤ :=
  .object [(codes "username", .string username), (codes "exp", .number exp)]

/-- The token with a text for its body. -/
def tokenOf (shared : Shared) (text : List ℕ) : List Char :=
  let body := Base64.encodeUrl (Unicode.encode text)
  body ++ '.' :: Base64.encodeUrl (shared.hmac body).1

namespace Backend

/-- What `json.dumps` leaves as it is: `[^\ -~]` is escaped. -/
def raw (c : ℕ) : Bool := 0x20 ≤ c ∧ c ≤ 0x7E

/-- `DEFAULT_TTL_SECONDS` -/
def defaultTtlSeconds : ℤ := 60 * 60 * 8

/-- `REMEMBER_TTL_SECONDS` -/
def rememberTtlSeconds : ℤ := 60 * 60 * 24 * 30

/-- `create_session_token`; an integer of too many digits is not written. -/
def createSessionToken (shared : Shared) (limits : Limits) (username : List ℕ) (ttlSeconds : ℤ) :
    Except PyException (List Char) :=
  let exp := shared.now + ttlSeconds
  if limits.maxStrDigits.any (· < (decimalDigits exp.natAbs).length) then .error .valueError
  else .ok (tokenOf shared ((document username exp).write raw))

end Backend

namespace Frontend

/-- What `JSON.stringify` leaves as it is: a surrogate on its own is escaped. -/
def raw (c : ℕ) : Bool := 0x20 ≤ c ∧ Unicode.IsScalar c

/-- `SESSION_MAX_AGE` -/
def sessionMaxAge : ℤ := 60 * 60 * 8

/-- `createSessionToken` -/
def createSessionToken (shared : Shared) (username : List ℕ) : List Char :=
  tokenOf shared ((document username (shared.now + sessionMaxAge)).write raw)

end Frontend

/-! ### The text of a token -/

/-- A writer that both sides read: it leaves no control character as it is, and nothing that
stands for no character. -/
structure Legible (raw : ℕ → Bool) : Prop where
  printable : Printable raw
  scalar : ∀ c, raw c = true → Unicode.IsScalar c

theorem Backend.legible_raw : Legible Backend.raw where
  printable := fun _ hc => (of_decide_eq_true hc).1
  scalar := fun c hc => by
    have := (of_decide_eq_true hc).2
    unfold Unicode.IsScalar
    omega

theorem Frontend.legible_raw : Legible Frontend.raw where
  printable := fun _ hc => (of_decide_eq_true hc).1
  scalar := fun _ hc => (of_decide_eq_true hc).2

variable {raw : ℕ → Bool} {username : List ℕ} {exp : ℤ}

theorem Legible.written (h : Legible raw) : Written raw Unicode.IsScalar where
  ascii := fun c hlow hhigh => by
    unfold Unicode.IsScalar
    omega
  raw := h.scalar

theorem codes_lt : (∀ c ∈ codes "username", c < 0x110000) ∧ ∀ c ∈ codes "exp", c < 0x110000 := by
  decide

theorem names_ne : codes "username" ≠ codes "exp" := by decide

theorem whole_names : Whole (codes "username") ∧ Whole (codes "exp") := by
  refine ⟨⟨codes_lt.1, ?_⟩, ⟨codes_lt.2, ?_⟩⟩ <;> decide

/-- The text of a document, by its parts. -/
theorem write_document (raw : ℕ → Bool) (username : List ℕ) (exp : ℤ) :
    (document username exp).write raw = '\x7b'.toNat :: (writeString raw (codes "username") ++
      ':'.toNat :: (writeString raw username ++ ','.toNat :: (writeString raw (codes "exp") ++
        ':'.toNat :: (writeInteger exp ++ ['\x7d'.toNat])))) := by
  simp [document, Value.write, Value.writeMembers]

/-- A document is written in characters. -/
theorem Legible.document (h : Legible raw) (huser : Whole username) :
    ∀ c ∈ (document username exp).write raw, Unicode.IsScalar c := by
  have hw := h.written
  have hascii (c : ℕ) (hlow : 0x20 ≤ c) (hhigh : c < 0x7F) := hw.ascii c hlow hhigh
  intro c hc
  rw [write_document] at hc
  simp only [List.mem_cons, List.mem_append, List.not_mem_nil, or_false] at hc
  rcases hc with rfl | hc | rfl | hc | rfl | hc | rfl | hc | rfl
  · exact hascii _ (by decide) (by decide)
  · exact hw.string codes_lt.1 c hc
  · exact hascii _ (by decide) (by decide)
  · exact hw.string huser.1 c hc
  · exact hascii _ (by decide) (by decide)
  · exact hw.string codes_lt.2 c hc
  · exact hascii _ (by decide) (by decide)
  · exact hw.integer exp c hc
  · exact hascii _ (by decide) (by decide)

theorem distinct_document (huser : Whole username) : (document username exp).Distinct :=
  ⟨by simp [names_ne], whole_names.1, huser, whole_names.2, trivial, trivial⟩

/-! ### The parts of a token -/

/-- The body of a token. -/
def bodyOf (text : List ℕ) : List Char := Base64.encodeUrl (Unicode.encode text)

theorem beforeDot_tokenOf (shared : Shared) (text : List ℕ) :
    beforeDot (tokenOf shared text) = bodyOf text :=
  beforeDot_append (Base64.dot_notMem_encodeUrl _)

theorem afterDot_tokenOf (shared : Shared) (text : List ℕ) :
    afterDot (tokenOf shared text) = Backend.sign shared (bodyOf text) :=
  afterDot_append (Base64.dot_notMem_encodeUrl _)

theorem dot_mem_tokenOf (shared : Shared) (text : List ℕ) : '.' ∈ tokenOf shared text := by
  simp [tokenOf]

/-! ### The body at the backend -/

/-- The backend reads the bytes of a body back. -/
theorem Backend.b64urlDecode_bodyOf (text : List ℕ) :
    Backend.b64urlDecode (bodyOf text) = .ok (Unicode.encode text) := by
  have hascii : (bodyOf text).all Backend.isAscii = true := by
    rw [List.all_eq_true]
    exact fun c hc => decide_eq_true (Base64.toNat_lt_of_mem_encodeUrl hc)
  have hpadding : (Base64.padding (bodyOf text).length).map Base64.standard =
      Base64.padding ((bodyOf text).map Base64.standard).length := by
    rw [List.length_map, Base64.padding, List.map_replicate]
    rfl
  rw [Backend.b64urlDecode, if_pos hascii, List.map_append, hpadding, bodyOf,
    Base64.lenientDecode_encodeUrl]

/-- A text that begins with a brace and a quote is taken for UTF-8. -/
theorem Backend.detectEncoding_encode (rest : List ℕ) :
    Backend.detectEncoding (Unicode.encode ('\x7b'.toNat :: '"'.toNat :: rest)) =
      (.utf8, Unicode.encode ('\x7b'.toNat :: '"'.toNat :: rest)) := by
  have hbytes : Unicode.encode ('\x7b'.toNat :: '"'.toNat :: rest) =
      0x7B :: 0x22 :: Unicode.encode rest := rfl
  rw [hbytes]
  cases hrest : Unicode.encode rest with
  | nil => rfl
  | cons c more =>
    cases more with
    | nil => rfl
    | cons d more => rfl

theorem mapM_id_map_some {α : Type} (l : List α) : (l.map some).mapM id = some l := by
  induction l with
  | nil => rfl
  | cons a l ih =>
    rw [List.map_cons, List.mapM_cons, ih]
    rfl

theorem Backend.makes {limits : Backend.Limits}
    (hdigits : ∀ m ∈ limits.maxStrDigits, (decimalDigits exp.natAbs).length ≤ m) :
    limits.dialect.Makes Backend.PyNumber.int exp := by
  have hfew : ¬limits.maxStrDigits.any (· < (literal exp).whole.length) = true := by
    rw [Option.any_eq_true]
    rintro ⟨m, hm, hlt⟩
    exact absurd (hdigits m hm) (not_le.mpr (of_decide_eq_true hlt))
  have hinteger : (literal exp).IsInteger := ⟨rfl, rfl⟩
  simp only [Dialect.Makes, Backend.Limits.dialect, if_pos hinteger, if_neg hfew, integer_literal]

/-- The document that the backend reads in a body. -/
theorem Backend.payload_bodyOf (hraw : Legible raw) (huser : Whole username)
    {limits : Backend.Limits} (hrecursion : 0 < limits.recursion)
    (hdigits : ∀ m ∈ limits.maxStrDigits, (decimalDigits exp.natAbs).length ≤ m) :
    Backend.payload limits (bodyOf ((document username exp).write raw)) =
      .ok (.object [(codes "username", .string username), (codes "exp", .number (.int exp))]) := by
  have hdetect : Backend.detectEncoding (Unicode.encode ((document username exp).write raw)) =
      (.utf8, Unicode.encode ((document username exp).write raw)) := by
    rw [write_document, writeString, List.cons_append]
    exact Backend.detectEncoding_encode _
  have hdecode : Backend.Encoding.utf8.decode
      (Unicode.encode ((document username exp).write raw)) =
        some ((document username exp).write raw) := by
    rw [Backend.Encoding.decode, Unicode.utf8_encode true (hraw.document huser), mapM_id_map_some]
  have hparse : parse limits.dialect ((document username exp).write raw) =
      .ok ((document username exp).map Backend.PyNumber.int) := by
    refine parse_write hraw.printable (distinct_document huser)
      ⟨trivial, Backend.makes hdigits, trivial⟩ fun m hm => ?_
    obtain rfl := Option.some.inj hm
    exact hrecursion
  rw [Backend.payload, Backend.b64urlDecode_bodyOf]
  simp only [Backend.Limits.loads, hdetect, hdecode, Backend.Limits.loadsText, hparse]
  rfl

/-- What the backend makes of a token that is signed as it is to be. -/
theorem Backend.verifySessionToken_tokenOf (hraw : Legible raw) (huser : Whole username)
    {issuer verifier : Shared} (hshared : verifier.hmac = issuer.hmac) {limits : Backend.Limits}
    (hrecursion : 0 < limits.recursion)
    (hdigits : ∀ m ∈ limits.maxStrDigits, (decimalDigits exp.natAbs).length ≤ m) :
    Backend.verifySessionToken verifier limits
        (some (tokenOf issuer ((document username exp).write raw))) =
      .ok (if username ≠ [] ∧ verifier.now ≤ exp then
        some { username := .string username, exp := .number (.int exp) } else none) := by
  have hdot := dot_mem_tokenOf issuer ((document username exp).write raw)
  have hguard : ¬(tokenOf issuer ((document username exp).write raw) = [] ∨
      '.' ∉ tokenOf issuer ((document username exp).write raw)) := by
    rintro (hnil | hno)
    · rw [hnil] at hdot
      cases hdot
    · exact hno hdot
  have hsign : Backend.sign verifier (bodyOf ((document username exp).write raw)) =
      Backend.sign issuer (bodyOf ((document username exp).write raw)) := by
    rw [Backend.sign, hshared, Backend.sign]
  have hcompare (signature : List Char) (hascii : signature.all Backend.isAscii = true) :
      Backend.compareDigest signature signature = .ok true := by
    rw [Backend.compareDigest, if_pos ⟨hascii, hascii⟩, decide_eq_true rfl]
  have husername : Backend.get "username" [(codes "username", .string username),
      (codes "exp", .number (.int exp))] = .string username := by
    simp [Backend.get, member?]
  have hexp : Backend.get "exp" [(codes "username", .string username),
      (codes "exp", .number (.int exp))] = .number (.int exp) := by
    have hne : (codes "exp" == codes "username") = false := by decide
    simp [Backend.get, member?, List.lookup_cons, hne]
  simp only [Backend.verifySessionToken, if_neg hguard, beforeDot_tokenOf, afterDot_tokenOf, hsign,
    hcompare _ (Backend.sign_isAscii issuer _),
    Backend.payload_bodyOf hraw huser hrecursion hdigits, husername, hexp]
  simp only [Backend.session?, Backend.int?, Backend.Truthy]
  by_cases hname : username = []
  · simp [hname]
  · by_cases hlive : verifier.now ≤ exp
    · simp [hname, hlive]
    · simp [hname, hlive, not_le.mp hlive]

/-! ### The body at the front end -/

/-- The literal of an integer has its value. -/
theorem value_literal (z : ℤ) : (literal z).value = z := by
  have hwhole : (decimal ((literal z).whole ++ (literal z).fraction) : ℚ) = z.natAbs := by
    simp [literal]
  rw [Literal.value, hwhole]
  by_cases hz : z < 0
  · have habs : ((z.natAbs : ℤ) : ℚ) = -z := by exact_mod_cast Int.ofNat_natAbs_of_nonpos hz.le
    simp only [Int.cast_natCast] at habs
    simp [literal, hz, habs]
  · have habs : ((z.natAbs : ℤ) : ℚ) = z := by exact_mod_cast Int.natAbs_of_nonneg (not_lt.mp hz)
    simp only [Int.cast_natCast] at habs
    simp [literal, hz, habs]

theorem Frontend.makes (z : ℤ) : Frontend.dialect.Makes (fun z => round (z : ℚ)) z := by
  simp only [Dialect.Makes, Frontend.dialect, value_literal]

/-- A text that begins with a brace has no mark of UTF-8. -/
theorem Frontend.decode_encode {rest : List ℕ}
    (htext : ∀ c ∈ '\x7b'.toNat :: rest, Unicode.IsScalar c) :
    Frontend.decode (Unicode.encode ('\x7b'.toNat :: rest)) = '\x7b'.toNat :: rest := by
  have hmark : Frontend.decode (Unicode.encode ('\x7b'.toNat :: rest)) =
      (Unicode.utf8 false (Unicode.encode ('\x7b'.toNat :: rest))).map (·.getD 0xFFFD) := rfl
  rw [hmark, Unicode.utf8_encode false htext, List.map_map]
  exact List.map_id _

/-- The document that the front end reads in a body. -/
theorem Frontend.payload_bodyOf (hraw : Legible raw) (huser : Whole username) :
    Frontend.payload (bodyOf ((document username exp).write raw)) =
      some (.object [(codes "username", .string username),
        (codes "exp", .number (round (exp : ℚ)))]) := by
  have hbytes : Frontend.base64urlDecode (bodyOf ((document username exp).write raw)) =
      some (Unicode.encode ((document username exp).write raw)) := by
    rw [Frontend.base64urlDecode, bodyOf, Base64.forgivingDecode_encodeUrl]
  have hdecode : Frontend.decode (Unicode.encode ((document username exp).write raw)) =
      (document username exp).write raw := by
    have hscalar := @Legible.document raw username exp hraw huser
    rw [write_document] at hscalar ⊢
    exact Frontend.decode_encode hscalar
  have hparse : parse Frontend.dialect ((document username exp).write raw) =
      .ok ((document username exp).map fun z : ℤ => round (z : ℚ)) := by
    refine parse_write hraw.printable (distinct_document huser) ?_ fun m hm => by cases hm
    exact ⟨trivial, Frontend.makes exp, trivial⟩
  simp only [Frontend.payload, hbytes, Option.bind_some, hdecode, hparse]
  rfl

/-- What the front end makes of a token that is signed as it is to be. -/
theorem Frontend.verifySessionToken_tokenOf (hraw : Legible raw) (huser : Whole username)
    {issuer verifier : Shared} (hshared : verifier.hmac = issuer.hmac)
    (hexp : IsDouble (exp : ℚ)) :
    Frontend.verifySessionToken verifier
        (some (tokenOf issuer ((document username exp).write raw))) =
      if username ≠ [] ∧ verifier.now ≤ exp then
        some { username := .string username, exp := round (exp : ℚ) } else none := by
  have hdot := dot_mem_tokenOf issuer ((document username exp).write raw)
  have hbody : bodyOf ((document username exp).write raw) ≠ [] := by
    intro hnil
    have hdecode := Backend.b64urlDecode_bodyOf ((document username exp).write raw)
    rw [hnil, write_document] at hdecode
    cases hdecode
  have hsigned : Signed verifier (tokenOf issuer ((document username exp).write raw)) := by
    refine signed_of_canonical ?_ ?_
    · rwa [beforeDot_tokenOf]
    · rw [afterDot_tokenOf, beforeDot_tokenOf, Backend.sign, Backend.sign, hshared]
  have hfields : Frontend.fields (bodyOf ((document username exp).write raw)) =
      some (.string username, .number (round (exp : ℚ))) := by
    have hne : (codes "exp" == codes "username") = false := by decide
    rw [Frontend.fields, Frontend.payload_bodyOf hraw huser]
    simp [Frontend.property, member?, List.lookup_cons, hne]
  rw [Frontend.verifySessionToken_some, if_pos ⟨hdot, hsigned⟩, beforeDot_tokenOf, hfields,
    Option.bind_some]
  simp only [Frontend.session?, Frontend.Truthy, round_below_iff hexp]
  by_cases hname : username = []
  · simp [hname]
  · by_cases hlive : verifier.now ≤ exp
    · simp [hname, hlive]
    · simp [hname, hlive, not_le.mp hlive]

/-! ### What is issued -/

/-- What the backend issues is the token of the document. -/
theorem Backend.createSessionToken_eq_ok {issuer : Shared} {limits : Backend.Limits}
    {ttlSeconds : ℤ} {token : List Char}
    (h : Backend.createSessionToken issuer limits username ttlSeconds = .ok token) :
    (∀ m ∈ limits.maxStrDigits,
        (decimalDigits (issuer.now + ttlSeconds).natAbs).length ≤ m) ∧
      token = tokenOf issuer ((document username (issuer.now + ttlSeconds)).write Backend.raw) := by
  rw [Backend.createSessionToken] at h
  split at h <;> rename_i hdigits
  · cases h
  refine ⟨fun m hm => ?_, (Except.ok.inj h).symm⟩
  by_contra hlt
  exact hdigits ((Option.any_eq_true ..).mpr ⟨m, hm, decide_eq_true (not_le.mp hlt)⟩)

/-- **What the backend issues, both sides take**, from whoever shares the secret, until it
expires, and they find its user and its expiry in it.  The front end is exact on an expiry of
double precision. -/
theorem verified_of_backend (issuer verifier : Shared) (limits : Backend.Limits)
    (username : List ℕ) (ttlSeconds : ℤ) (token : List Char)
    (hshared : verifier.hmac = issuer.hmac) (hrecursion : 0 < limits.recursion)
    (huser : Whole username)
    (htoken : Backend.createSessionToken issuer limits username ttlSeconds = .ok token) :
    Backend.verifySessionToken verifier limits (some token) =
        .ok (if username ≠ [] ∧ verifier.now ≤ issuer.now + ttlSeconds then
          some { username := .string username, exp := .number (.int (issuer.now + ttlSeconds)) }
        else none) ∧
      (IsDouble ((issuer.now + ttlSeconds : ℤ) : ℚ) →
        Frontend.verifySessionToken verifier (some token) =
          if username ≠ [] ∧ verifier.now ≤ issuer.now + ttlSeconds then
            some
              { username := .string username
                exp := round ((issuer.now + ttlSeconds : ℤ) : ℚ) }
          else none) := by
  obtain ⟨hfew, rfl⟩ := Backend.createSessionToken_eq_ok htoken
  exact ⟨Backend.verifySessionToken_tokenOf Backend.legible_raw huser hshared hrecursion hfew,
    Frontend.verifySessionToken_tokenOf Backend.legible_raw huser hshared⟩

/-- A user with a quote, a letter that is not of ASCII and a character beyond the first plane. -/
def quotedUser : List ℕ := codes "Zoë \"😀\""

theorem whole_quotedUser : Whole quotedUser := ⟨by decide, by decide⟩

/-- The secret half a minute before the end of what is issued. -/
def later (shared : Shared) : Shared := { shared with now := shared.now + 28770 }

/-- The front end finds the user in what the backend has issued. -/
theorem verified_of_backend_quotedUser : ∃ token,
    Backend.createSessionToken adminShared defaultLimits quotedUser Backend.defaultTtlSeconds =
        .ok token ∧
      Frontend.verifySessionToken (later adminShared) (some token) =
        some { username := .string quotedUser, exp := round ((1790028800 : ℤ) : ℚ) } := by
  have htoken : ∃ token, Backend.createSessionToken adminShared defaultLimits quotedUser
      Backend.defaultTtlSeconds = .ok token := by
    rw [Backend.createSessionToken]
    exact ⟨_, if_neg (by decide +kernel)⟩
  obtain ⟨token, htoken⟩ := htoken
  obtain ⟨-, hfront⟩ := verified_of_backend adminShared (later adminShared)
    defaultLimits quotedUser Backend.defaultTtlSeconds token rfl (by decide) whole_quotedUser htoken
  refine ⟨token, htoken, ?_⟩
  rw [hfront (isDouble_intCast (by decide)), if_pos (by decide)]
  rfl

/-- The seconds that a time in a script can be of. -/
def InDateRange (now : ℤ) : Prop := |now| ≤ 8640000000000

instance (now : ℤ) : Decidable (InDateRange now) := inferInstanceAs (Decidable (_ ≤ _))

/-- The limit on digits that the interpreter takes, if it has any. -/
def Backend.Limits.ForDigits (limits : Backend.Limits) : Prop := ∀ m ∈ limits.maxStrDigits, 640 ≤ m

/-- **What the front end issues, both sides take**, from whoever shares the secret, until it
expires, and they find its user and its expiry in it. -/
theorem verified_of_frontend (issuer verifier : Shared) (limits : Backend.Limits)
    (username : List ℕ) (hshared : verifier.hmac = issuer.hmac) (hrecursion : 0 < limits.recursion)
    (hlimits : limits.ForDigits) (huser : Whole username) (hnow : InDateRange issuer.now) :
    Frontend.verifySessionToken verifier (some (Frontend.createSessionToken issuer username)) =
        (if username ≠ [] ∧ verifier.now ≤ issuer.now + Frontend.sessionMaxAge then
          some
            { username := .string username
              exp := round ((issuer.now + Frontend.sessionMaxAge : ℤ) : ℚ) }
        else none) ∧
      Backend.verifySessionToken verifier limits
          (some (Frontend.createSessionToken issuer username)) =
        .ok (if username ≠ [] ∧ verifier.now ≤ issuer.now + Frontend.sessionMaxAge then
          some
            { username := .string username
              exp := .number (.int (issuer.now + Frontend.sessionMaxAge)) }
        else none) := by
  have hage : Frontend.sessionMaxAge = 28800 := rfl
  have hexp : |issuer.now + Frontend.sessionMaxAge| ≤ 8640000028800 := by
    rw [InDateRange, abs_le] at hnow
    rw [abs_le]
    omega
  have hdouble : IsDouble ((issuer.now + Frontend.sessionMaxAge : ℤ) : ℚ) :=
    isDouble_intCast (lt_of_le_of_lt hexp (by norm_num))
  have hdigits : ∀ m ∈ limits.maxStrDigits,
      (decimalDigits (issuer.now + Frontend.sessionMaxAge).natAbs).length ≤ m := by
    intro m hm
    have hfew : (decimalDigits (issuer.now + Frontend.sessionMaxAge).natAbs).length ≤ 13 := by
      refine length_decimalDigits_le (by decide) ?_
      rw [Int.abs_eq_natAbs] at hexp
      omega
    have := hlimits m hm
    omega
  exact ⟨Frontend.verifySessionToken_tokenOf Frontend.legible_raw huser hshared hdouble,
    Backend.verifySessionToken_tokenOf Frontend.legible_raw huser hshared hrecursion hdigits⟩

theorem defaultLimits_forDigits : defaultLimits.ForDigits := by
  intro m hm
  obtain rfl := Option.some.inj hm
  decide

/-- The backend finds the user in what the front end has issued. -/
theorem verified_of_frontend_quotedUser :
    Backend.verifySessionToken (later adminShared) defaultLimits
        (some (Frontend.createSessionToken adminShared quotedUser)) =
      .ok (some { username := .string quotedUser, exp := .number (.int 1790028800) }) := by
  obtain ⟨-, hback⟩ := verified_of_frontend adminShared (later adminShared)
    defaultLimits quotedUser rfl (by decide) defaultLimits_forDigits whole_quotedUser (by decide)
  rw [hback, if_pos (by decide)]
  rfl

end Atlas.Auth
