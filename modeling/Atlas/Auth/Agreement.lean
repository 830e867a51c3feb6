import Mathlib.Data.List.TakeWhile
import Atlas.Auth.Fields

/-!
# The two sides of a session token

The backend and the front end are to accept the same tokens, and to find the same user and the
same expiry in them.  Not on everything that carries the signature do they: what follows a second
dot, or a signature that is written in another way, is nothing to the front end; and the bodies
of which they make different things are those in which their fields diverge.

## Main definitions

* `Agree` — both sides accept a token with the same session, or neither accepts it.
* `BodiesAlike` — the sides make the same of what they read in a body.
* `Alike` — the tokens of which the sides make the same.

## Main results

* `verifySessionToken_agree_iff` — **the sides agree exactly on the tokens that are alike to
  them**.
* `trailing_segment_accepted` — of a valid token with a dot and a letter after it, only the
  front end makes a session.

## References

`app/auth/tokens.py`, `frontend/lib/auth.ts`.
-/

namespace Atlas.Auth

open Json Binary64

open Backend.PyNumber (Same)

/-! ### Agreement -/

/-- The session of what the backend does, which is none when it raises. -/
def Backend.accepted (r : Except Backend.PyException (Option Backend.Session)) :
    Option Backend.Session :=
  match r with
  | .ok o => o
  | .error _ => none

/-- The sides agree on a token. -/
def Agree (shared : Shared) (limits : Backend.Limits) (token : List Char) : Prop :=
  SameOutcome (Backend.accepted (Backend.verifySessionToken shared limits (some token)))
    (Frontend.verifySessionToken shared (some token))

/-- The sides make the same of what they read in a body. -/
def BodiesAlike (now : ℤ) (b : Option (Value Backend.PyNumber × Value Backend.PyNumber))
    (f : Option (Value Number × Value Number)) : Prop :=
  (ReadTogether b f → ∀ u e, b = some (u, e) → ¬Diverge now u e) ∧
    (¬ReadTogether b f →
      (∀ u e, b = some (u, e) → ¬Backend.Live now u e) ∧
        ∀ w x, f = some (w, x) → ¬Frontend.Live now w x)

/-- The front end takes the signature: the second of the segments between the dots has the
bytes of the body's HMAC. -/
def Signed (shared : Shared) (token : List Char) : Prop :=
  beforeDot token ≠ [] ∧
    Frontend.base64urlDecode (beforeDot (afterDot token)) = some (shared.hmac (beforeDot token)).1

instance (shared : Shared) (token : List Char) : Decidable (Signed shared token) :=
  inferInstanceAs (Decidable (_ ∧ _))

/-- The sides make the same of a token: the front end does not take the signature, or it is not
written in the one way that the backend takes and there is no session in the body, or it is and
the bodies are alike. -/
def Alike (shared : Shared) (limits : Backend.Limits) (token : List Char) : Prop :=
  Signed shared token →
    (afterDot token ≠ Backend.sign shared (beforeDot token) →
      ∀ w x, Frontend.fields (beforeDot token) = some (w, x) → ¬Frontend.Live shared.now w x) ∧
    (afterDot token = Backend.sign shared (beforeDot token) →
      BodiesAlike shared.now (Backend.fields limits (beforeDot token))
        (Frontend.fields (beforeDot token)))

/-! ### Bodies -/

/-- A session that both sides find is of one user and one expiry. -/
theorem readTogether_of_same {u e : Value Backend.PyNumber} {w x : Value Number}
    (huser : u.Rel Same w) (hexp : e.Rel Same x) : ReadTogether (some (u, e)) (some (w, x)) :=
  ⟨u, e, w, x, rfl, rfl, huser.mono Backend.PyNumber.reads_of_same,
    hexp.mono Backend.PyNumber.reads_of_same⟩

/-- **The outcomes of two bodies are the same when the bodies are alike.** -/
theorem sameOutcome_bind_iff {now : ℤ}
    {b : Option (Value Backend.PyNumber × Value Backend.PyNumber)}
    {f : Option (Value Number × Value Number)} :
    SameOutcome (b.bind fun p => Backend.session? now p.1 p.2)
      (f.bind fun p => Frontend.session? now p.1 p.2) ↔ BodiesAlike now b f := by
  by_cases htogether : ReadTogether b f
  · obtain ⟨u, e, w, x, rfl, rfl, hu, he⟩ := htogether
    have hread : ReadTogether (some (u, e)) (some (w, x)) := ⟨u, e, w, x, rfl, rfl, hu, he⟩
    rw [Option.bind_some, Option.bind_some, sameOutcome_iff_not_diverge hu he]
    constructor
    · intro hno
      refine ⟨fun _ u' e' heq => ?_, fun hapart => (hapart hread).elim⟩
      obtain ⟨rfl, rfl⟩ := Prod.mk.inj (Option.some.inj heq)
      exact hno
    · exact fun h => h.1 hread u e rfl
  · constructor
    · rintro ⟨hback, hfront⟩
      refine ⟨fun h => (htogether h).elim, fun _ => ⟨?_, ?_⟩⟩
      · rintro u e rfl hb
        obtain ⟨s', hs', huser, hexp⟩ := hback _ (Backend.session?_eq_some_iff.mpr ⟨hb, rfl⟩)
        obtain ⟨⟨w, x⟩, rfl, hs'⟩ := Option.bind_eq_some_iff.mp hs'
        obtain ⟨hw, n, rfl, hn, rfl⟩ := Frontend.session?_eq_some_iff.mp hs'
        exact htogether (readTogether_of_same huser hexp)
      · rintro w x rfl ⟨hw, n, rfl, hn⟩
        obtain ⟨s, hs, huser, hexp⟩ :=
          hfront _ (Frontend.session?_eq_some_iff.mpr ⟨hw, n, rfl, hn, rfl⟩)
        obtain ⟨⟨u, e⟩, rfl, hs⟩ := Option.bind_eq_some_iff.mp hs
        obtain ⟨-, rfl⟩ := Backend.session?_eq_some_iff.mp hs
        exact htogether (readTogether_of_same huser hexp)
    · intro h
      obtain ⟨hback, hfront⟩ := h.2 htogether
      constructor
      · intro s hs
        obtain ⟨⟨u, e⟩, hb, hs⟩ := Option.bind_eq_some_iff.mp hs
        exact (hback u e hb (Backend.session?_eq_some_iff.mp hs).1).elim
      · intro s' hs'
        obtain ⟨⟨w, x⟩, hf, hs'⟩ := Option.bind_eq_some_iff.mp hs'
        obtain ⟨hw, n, rfl, hn, -⟩ := Frontend.session?_eq_some_iff.mp hs'
        exact (hfront w _ hf ⟨hw, n, rfl, hn⟩).elim

/-! ### Tokens -/

/-- A text with a dot is what is before it, the dot, and what is after it. -/
theorem eq_beforeDot_append {text : List Char} (hdot : '.' ∈ text) :
    text = beforeDot text ++ '.' :: afterDot text := by
  have hne : text.dropWhile (· ≠ '.') ≠ [] := by
    intro hnil
    exact of_decide_eq_true (List.dropWhile_eq_nil_iff.mp hnil '.' hdot) rfl
  have hhead : (text.dropWhile (· ≠ '.')).head hne = '.' := by
    simpa using List.head_dropWhile_not (fun c => decide (c ≠ '.')) hne
  have hcons : text.dropWhile (· ≠ '.') = '.' :: afterDot text := by
    rw [← List.cons_head_tail hne, hhead]
    rfl
  rw [← hcons]
  exact List.takeWhile_append_dropWhile.symm

theorem dot_notMem_beforeDot (text : List Char) : '.' ∉ beforeDot text := by
  intro hmem
  have hne : decide ('.' ≠ '.') = true := List.mem_takeWhile_imp (l := text) hmem
  exact of_decide_eq_true hne rfl

theorem beforeDot_of_notMem {text : List Char} (hdot : '.' ∉ text) : beforeDot text = text := by
  rw [beforeDot, List.takeWhile_eq_self_iff]
  intro c hc
  exact decide_eq_true fun h => hdot (h ▸ hc)

theorem splitOn_of_mem {text : List Char} (hdot : '.' ∈ text) :
    text.splitOn '.' = beforeDot text :: (afterDot text).splitOn '.' := by
  conv_lhs => rw [eq_beforeDot_append hdot]
  exact List.splitOn_append_cons_self_of_not_mem (dot_notMem_beforeDot text) _

theorem exists_splitOn (text : List Char) : ∃ more, text.splitOn '.' = beforeDot text :: more := by
  by_cases hdot : '.' ∈ text
  · exact ⟨_, splitOn_of_mem hdot⟩
  · exact ⟨[], by rw [beforeDot_of_notMem hdot, List.splitOn_eq_singleton hdot]⟩

theorem Backend.sign_isAscii (shared : Shared) (body : List Char) :
    (Backend.sign shared body).all Backend.isAscii = true := by
  rw [List.all_eq_true]
  intro c hc
  exact decide_eq_true (Base64.toNat_lt_of_mem_encodeUrl hc)

/-- The front end reads back a signature that the backend writes. -/
theorem Frontend.base64urlDecode_sign (shared : Shared) (body : List Char) :
    Frontend.base64urlDecode (Backend.sign shared body) = some (shared.hmac body).1 :=
  Base64.forgivingDecode_encodeUrl _

/-- The backend takes no signature but the one it writes, and then goes by the fields of the
body. -/
theorem Backend.accepted_verifySessionToken {shared : Shared} {limits : Backend.Limits}
    {token : List Char} :
    Backend.accepted (Backend.verifySessionToken shared limits (some token)) =
      if '.' ∈ token ∧ afterDot token = Backend.sign shared (beforeDot token) then
        (Backend.fields limits (beforeDot token)).bind fun p =>
          Backend.session? shared.now p.1 p.2
      else none := by
  by_cases hdot : '.' ∈ token
  · have hne : ¬(token = [] ∨ '.' ∉ token) := by
      rintro (rfl | hno)
      · exact List.not_mem_nil hdot
      · exact hno hdot
    simp only [Backend.verifySessionToken, if_neg hne]
    by_cases hsign : afterDot token = Backend.sign shared (beforeDot token)
    · rw [if_pos ⟨hdot, hsign⟩, hsign]
      have hcompare : Backend.compareDigest (Backend.sign shared (beforeDot token))
          (Backend.sign shared (beforeDot token)) = .ok true := by
        have hascii := Backend.sign_isAscii shared (beforeDot token)
        rw [Backend.compareDigest, if_pos ⟨hascii, hascii⟩]
        simp
      rw [hcompare]
      simp only [Backend.fields]
      cases hpayload : Backend.payload limits (beforeDot token) with
      | error e => cases e <;> rfl
      | ok payload => cases payload <;> rfl
    · rw [if_neg fun h => hsign h.2]
      simp only [Backend.compareDigest]
      split_ifs
      · rw [decide_eq_false hsign]
        rfl
      · rfl
  · rw [if_neg fun h => hdot h.1]
    simp only [Backend.verifySessionToken, if_pos (Or.inr hdot : token = [] ∨ '.' ∉ token)]
    rfl

/-- No digest is empty, so that a signature that is taken is not. -/
theorem Signed.signature_ne_nil {shared : Shared} {token : List Char}
    (hsigned : Signed shared token) : beforeDot (afterDot token) ≠ [] := by
  intro hnil
  have hbytes := hsigned.2
  have hlength := (shared.hmac (beforeDot token)).2
  rw [hnil] at hbytes
  rw [← Option.some.inj (hbytes : some [] = _)] at hlength
  exact absurd hlength (by decide)

/-- The front end takes the signature of a signed token, and then goes by the fields of the
body. -/
theorem Frontend.verifySessionToken_some {shared : Shared} {token : List Char} :
    Frontend.verifySessionToken shared (some token) =
      if '.' ∈ token ∧ Signed shared token then
        (Frontend.fields (beforeDot token)).bind fun p => Frontend.session? shared.now p.1 p.2
      else none := by
  by_cases hdot : '.' ∈ token
  · obtain ⟨more, hmore⟩ := exists_splitOn (afterDot token)
    simp only [Frontend.verifySessionToken, splitOn_of_mem hdot, hmore]
    by_cases hsigned : Signed shared token
    · have hparts : ¬(beforeDot token = [] ∨ beforeDot (afterDot token) = []) :=
        fun h => h.elim hsigned.1 hsigned.signature_ne_nil
      rw [if_neg hparts, if_neg (not_not.mpr hsigned.2), if_pos ⟨hdot, hsigned⟩, Frontend.fields,
        Option.bind_map]
      rfl
    · have hno : ¬('.' ∈ token ∧ Signed shared token) := fun h => hsigned h.2
      rw [if_neg hno]
      by_cases hparts : beforeDot token = [] ∨ beforeDot (afterDot token) = []
      · rw [if_pos hparts]
      · have hbytes : Frontend.base64urlDecode (beforeDot (afterDot token)) ≠
            some (shared.hmac (beforeDot token)).1 :=
          fun h => hsigned ⟨fun hnil => hparts (.inl hnil), h⟩
        rw [if_neg hparts, if_pos hbytes]
  · rw [if_neg fun h => hdot h.1]
    simp only [Frontend.verifySessionToken, List.splitOn_eq_singleton hdot]

/-- A token that the front end takes the signature of has a dot. -/
theorem Signed.dot_mem {shared : Shared} {token : List Char} (hsigned : Signed shared token) :
    '.' ∈ token := by
  by_contra hdot
  have hall : ∀ c ∈ token, decide (c ≠ '.') = true :=
    fun c hc => decide_eq_true fun h => hdot (h ▸ hc)
  have hafter : afterDot token = [] := by
    rw [afterDot, List.dropWhile_eq_nil_iff.mpr hall]
    rfl
  exact hsigned.signature_ne_nil (by rw [hafter]; rfl)

/-- The front end takes the signature that the backend takes, if there is a body. -/
theorem signed_of_canonical {shared : Shared} {token : List Char} (hbody : beforeDot token ≠ [])
    (hsign : afterDot token = Backend.sign shared (beforeDot token)) : Signed shared token := by
  refine ⟨hbody, ?_⟩
  have hplain : '.' ∉ Backend.sign shared (beforeDot token) := Base64.dot_notMem_encodeUrl _
  rw [hsign, beforeDot_of_notMem hplain]
  exact Frontend.base64urlDecode_sign shared _

/-- There is no document in an empty body. -/
theorem Backend.fields_nil (limits : Backend.Limits) : Backend.fields limits [] = none := rfl

theorem sameOutcome_none_iff {now : ℤ} {f : Option (Value Number × Value Number)} :
    SameOutcome none (f.bind fun p => Frontend.session? now p.1 p.2) ↔
      ∀ w x, f = some (w, x) → ¬Frontend.Live now w x := by
  constructor
  · rintro ⟨-, hfront⟩ w x rfl ⟨hw, n, rfl, hn⟩
    obtain ⟨s, hs, -⟩ := hfront _ (Frontend.session?_eq_some_iff.mpr ⟨hw, n, rfl, hn, rfl⟩)
    exact nomatch hs
  · intro hno
    refine ⟨nofun, fun s' hs' => ?_⟩
    obtain ⟨⟨w, x⟩, hf, hs'⟩ := Option.bind_eq_some_iff.mp hs'
    obtain ⟨hw, n, rfl, hn, -⟩ := Frontend.session?_eq_some_iff.mp hs'
    exact (hno w _ hf ⟨hw, n, rfl, hn⟩).elim

/-- **The sides agree exactly on the tokens that are alike to them.** -/
theorem verifySessionToken_agree_iff (shared : Shared) (limits : Backend.Limits)
    (token : List Char) : Agree shared limits token ↔ Alike shared limits token := by
  rw [Agree, Backend.accepted_verifySessionToken, Frontend.verifySessionToken_some]
  by_cases hsigned : Signed shared token
  · have hdot := hsigned.dot_mem
    by_cases hsign : afterDot token = Backend.sign shared (beforeDot token)
    · rw [if_pos ⟨hdot, hsign⟩, if_pos ⟨hdot, hsigned⟩, sameOutcome_bind_iff]
      exact ⟨fun h _ => ⟨fun hno => (hno hsign).elim, fun _ => h⟩, fun h => (h hsigned).2 hsign⟩
    · rw [if_neg fun h => hsign h.2, if_pos ⟨hdot, hsigned⟩, sameOutcome_none_iff]
      exact ⟨fun h _ => ⟨fun _ => h, fun hyes => (hsign hyes).elim⟩, fun h => (h hsigned).1 hsign⟩
  · -- without a signature for the front end, there is none for the backend, or no body
    have hback : (if '.' ∈ token ∧ afterDot token = Backend.sign shared (beforeDot token) then
        (Backend.fields limits (beforeDot token)).bind fun p =>
          Backend.session? shared.now p.1 p.2
        else none) = none := by
      split_ifs with hsign
      · have hbody : beforeDot token = [] := by
          by_contra hne
          exact hsigned (signed_of_canonical hne hsign.2)
        rw [hbody, Backend.fields_nil]
        rfl
      · rfl
    rw [hback, if_neg fun h => hsigned h.2]
    exact iff_of_true ⟨nofun, nofun⟩ fun h => (hsigned h).elim

/-! ### A segment after the signature -/

/-- The body of the user `admin` until 1800000000. -/
def adminBody : List Char := "eyJ1c2VybmFtZSI6ImFkbWluIiwiZXhwIjoxODAwMDAwMDAwfQ".toList

/-- The HMAC-SHA256 of that body with the secret of development. -/
def adminDigest : Digest :=
  ⟨[189, 242, 75, 121, 144, 174, 101, 217, 138, 207, 209, 231, 120, 229, 63, 188, 151, 49, 162, 211,
    184, 23, 38, 11, 83, 91, 165, 163, 96, 98, 67, 223], rfl⟩

/-- A secret that is the one of development on that body, before the expiry in it. -/
def adminShared : Shared where
  hmac _ := adminDigest
  now := 1790000000

/-- The limits that the interpreter comes with. -/
def defaultLimits : Backend.Limits where
  maxStrDigits := some 4300
  recursion := 1000

/-- The token that the sides issue for it, with a dot and a letter after it. -/
def trailingToken : List Char :=
  adminBody ++ '.' :: Backend.sign adminShared adminBody ++ ".x".toList

/-- **Of a valid token with a dot and a letter after it, only the front end makes a session.** -/
theorem trailing_segment_accepted :
    ¬∀ (shared : Shared) (limits : Backend.Limits) (token : List Char),
      token.all Backend.isAscii = true → Agree shared limits token := by
  intro hall
  have hagree := hall adminShared defaultLimits trailingToken (by decide +kernel)
  have hfront : (Frontend.verifySessionToken adminShared (some trailingToken)).isSome = true := by
    decide +kernel
  have hback : (Backend.accepted (Backend.verifySessionToken adminShared defaultLimits
      (some trailingToken))).isNone = true := by
    decide +kernel
  obtain ⟨s', hs'⟩ := Option.isSome_iff_exists.mp hfront
  obtain ⟨s, hs, -⟩ := hagree.2 s' hs'
  rw [hs] at hback
  exact nomatch hback

end Atlas.Auth
