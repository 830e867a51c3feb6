import Atlas.Auth.Tokens
import Atlas.Lib.Dialects

/-!
# What the two sides read in a body

The document in the body of a token has a user and an expiry.  To the backend a session needs a
user that counts as true and an integer that is not over, to the front end a user that counts as
true and a number that is not over.  Of one document, the sides may tell apart a user that is an
empty container, an expiry that is no integer, or an integer that is no double.

## Main definitions

* `SameSession`, `SameOutcome` — the same user and the same expiry; both sides find the same
  session, or neither finds one.
* `Backend.fields`, `Frontend.fields` — the user and the expiry in a body.
* `Diverge` — a user and an expiry of which the sides make different things.

## Main results

* `sameOutcome_iff_not_diverge` — **of one user and one expiry, the sides make the same unless
  they diverge**.
* `readTogether_of_text` — **of one text, the sides read one user and one expiry**, unless the
  backend meets one of its limits.

## References

`app/auth/tokens.py`, `frontend/lib/auth.ts`.
-/

namespace Atlas.Auth

open Json Binary64

/-! ### Sessions -/

/-- The numbers are the same. -/
def Backend.PyNumber.Same : Backend.PyNumber → Number → Prop
  | .int z, x => x.Is z
  | .float y, x => x = y
  | .nan, _ => False

/-- The two numbers are read from one literal. -/
def Backend.PyNumber.Reads : Backend.PyNumber → Number → Prop
  | .int z, x => x = Binary64.round z
  | .float y, x => x = y
  | .nan, _ => False

/-- The number is no integer that is not of double precision. -/
def Backend.PyNumber.Exact : Backend.PyNumber → Prop
  | .int z => IsDouble z
  | _ => True

open Backend.PyNumber (Same Reads Exact)

/-- The same user and the same expiry. -/
def SameSession (s : Backend.Session) (s' : Frontend.Session) : Prop :=
  s.username.Rel Same s'.username ∧ s.exp.Rel Same (.number s'.exp)

/-- Both find the same session, or neither finds one. -/
def SameOutcome (o : Option Backend.Session) (o' : Option Frontend.Session) : Prop :=
  (∀ s, o = some s → ∃ s', o' = some s' ∧ SameSession s s') ∧
    ∀ s', o' = some s' → ∃ s, o = some s ∧ SameSession s s'

/-! ### What a body says -/

/-- The user and the expiry in a body, as the backend reads it. -/
def Backend.fields (limits : Backend.Limits) (body : List Char) :
    Option (Value Backend.PyNumber × Value Backend.PyNumber) :=
  match Backend.payload limits body with
  | .ok (.object members) => some (Backend.get "username" members, Backend.get "exp" members)
  | _ => none

/-- The user and the expiry in a body, as the front end reads it. -/
def Frontend.fields (body : List Char) : Option (Value Number × Value Number) :=
  (Frontend.payload body).map fun payload =>
    (Frontend.property "username" payload, Frontend.property "exp" payload)

/-- To the backend, there is a user, and the expiry is an integer that is not over. -/
def Backend.Live (now : ℤ) (username exp : Value Backend.PyNumber) : Prop :=
  Backend.Truthy username ∧ ∃ z, Backend.int? exp = some z ∧ now ≤ z

/-- To the front end, there is a user, and the expiry is a number that is not over. -/
def Frontend.Live (now : ℤ) (username exp : Value Number) : Prop :=
  Frontend.Truthy username ∧ ∃ x, exp = .number x ∧ ¬x.Below now

/-- An empty container. -/
def Hollow (v : Value Backend.PyNumber) : Prop := v = .array [] ∨ v = .object []

/-- Of this user and this expiry, which are read from one text, the sides make different
things. -/
def Diverge (now : ℤ) (username : Value Backend.PyNumber) : Value Backend.PyNumber → Prop
  -- a truth value is an integer to the backend, and no number to the front end
  | .bool b => Backend.Truthy username ∧ now ≤ b.toInt
  -- a literal with a fraction or an exponent is a number, but no integer
  | .number (.float x) => (Backend.Truthy username ∨ Hollow username) ∧ ¬x.Below now
  | .number (.int z) =>
      if IsDouble z then
        -- an empty container counts as true to the front end only, and what the user has of
        -- other integers is rounded there
        now ≤ z ∧ (Hollow username ∨ Backend.Truthy username ∧ ¬username.Numbers Exact)
      else
        -- the expiry is rounded at the front end
        Backend.Truthy username ∧ now ≤ z ∨
          (Backend.Truthy username ∨ Hollow username) ∧ ¬(Binary64.round z).Below now
  | _ => False

/-- The sides read one user and one expiry. -/
def ReadTogether (b : Option (Value Backend.PyNumber × Value Backend.PyNumber))
    (f : Option (Value Number × Value Number)) : Prop :=
  ∃ u e w x, b = some (u, e) ∧ f = some (w, x) ∧ u.Rel Reads w ∧ e.Rel Reads x

/-! ### The sessions of the fields -/

theorem Backend.session?_eq_some_iff {now : ℤ} {u e : Value Backend.PyNumber}
    {s : Backend.Session} :
    Backend.session? now u e = some s ↔ Backend.Live now u e ∧ s = { username := u, exp := e } := by
  unfold Backend.session? Backend.Live
  cases hint : Backend.int? e with
  | none => simp
  | some z =>
    by_cases hu : Backend.Truthy u
    · by_cases hz : z < now
      · simp [hu, hz]
      · simp [hu, hz, not_lt.mp hz, eq_comm]
    · simp [hu]

theorem Frontend.session?_eq_some_iff {now : ℤ} {w x : Value Number} {s : Frontend.Session} :
    Frontend.session? now w x = some s ↔
      Frontend.Truthy w ∧ ∃ n, x = .number n ∧ ¬n.Below now ∧ s = { username := w, exp := n } := by
  unfold Frontend.session?
  cases x with
  | number n =>
    by_cases hw : Frontend.Truthy w
    · by_cases hn : n.Below now
      · simp [hw, hn]
      · simp [hw, hn, eq_comm]
    · simp [hw]
  | _ => simp

/-- The outcomes are the same when a session that one side finds is found by the other, with the
same user and the same expiry. -/
theorem sameOutcome_iff {now : ℤ} {u e : Value Backend.PyNumber} {w x : Value Number} :
    SameOutcome (Backend.session? now u e) (Frontend.session? now w x) ↔
      (Backend.Live now u e ↔ Frontend.Live now w x) ∧
        (Backend.Live now u e → u.Rel Same w ∧ e.Rel Same x) := by
  constructor
  · rintro ⟨hback, hfront⟩
    have hgo : Backend.Live now u e → Frontend.Live now w x ∧ u.Rel Same w ∧ e.Rel Same x := by
      intro hlive
      obtain ⟨s', hs', huser, hexp⟩ := hback _ (Backend.session?_eq_some_iff.mpr ⟨hlive, rfl⟩)
      obtain ⟨hw, n, rfl, hn, rfl⟩ := Frontend.session?_eq_some_iff.mp hs'
      exact ⟨⟨hw, n, rfl, hn⟩, huser, hexp⟩
    refine ⟨⟨fun hlive => (hgo hlive).1, ?_⟩, fun hlive => (hgo hlive).2⟩
    rintro ⟨hw, n, rfl, hn⟩
    obtain ⟨s, hs, -⟩ := hfront _ (Frontend.session?_eq_some_iff.mpr ⟨hw, n, rfl, hn, rfl⟩)
    exact (Backend.session?_eq_some_iff.mp hs).1
  · rintro ⟨hlive, hsame⟩
    constructor
    · intro s hs
      obtain ⟨hb, rfl⟩ := Backend.session?_eq_some_iff.mp hs
      obtain ⟨hw, n, rfl, hn⟩ := hlive.mp hb
      exact ⟨_, Frontend.session?_eq_some_iff.mpr ⟨hw, n, rfl, hn, rfl⟩, hsame hb⟩
    · intro s' hs'
      obtain ⟨hw, n, rfl, hn, rfl⟩ := Frontend.session?_eq_some_iff.mp hs'
      have hb := hlive.mpr ⟨hw, n, rfl, hn⟩
      exact ⟨_, Backend.session?_eq_some_iff.mpr ⟨hb, rfl⟩, hsame hb⟩

/-! ### One user and one expiry -/

theorem Backend.PyNumber.same_iff_exact :
    ∀ (n : Backend.PyNumber) (m : Number), Reads n m → (Same n m ↔ Exact n)
  | .int z, m, h => by
      rw [Reads] at h
      rw [h, Same, Exact, is_round_iff]
  | .float y, m, h => by
      rw [Reads] at h
      simp [Same, Exact, h]
  | .nan, m, h => h.elim

theorem Backend.PyNumber.reads_of_same :
    ∀ (n : Backend.PyNumber) (m : Number), Same n m → Reads n m
  | .int _, _, h => Number.Is.eq_round h
  | .float _, _, h => h
  | .nan, _, h => h

/-- What counts as true to the front end does to the backend, but for an empty container. -/
theorem truthy_iff {u : Value Backend.PyNumber} {w : Value Number} (h : u.Rel Reads w) :
    Frontend.Truthy w ↔ Backend.Truthy u ∨ Hollow u := by
  have hflat : ∀ {v : Value Backend.PyNumber}, v ≠ .array [] → v ≠ .object [] → ¬Hollow v :=
    fun ha ho hv => hv.elim ha ho
  cases u with
  | null =>
    cases w with
    | null => exact ⟨fun hw => hw.elim, fun hv => hv.elim id (hflat nofun nofun)⟩
    | _ => exact h.elim
  | bool b =>
    cases w with
    | bool c =>
      rw [Value.Rel] at h
      rw [Frontend.Truthy, Backend.Truthy, h, or_iff_left (hflat (v := .bool c) nofun nofun)]
    | _ => exact h.elim
  | number n =>
    cases w with
    | number m =>
      rw [or_iff_left (hflat (v := .number n) nofun nofun)]
      cases n with
      | int z =>
        have hm : m = Binary64.round z := h
        rw [Frontend.Truthy, Backend.Truthy, hm, round_is_zero_iff]
      | float y =>
        have hm : m = y := h
        rw [Frontend.Truthy, Backend.Truthy, hm]
      | nan => exact h.elim
    | _ => exact h.elim
  | string text =>
    cases w with
    | string other =>
      rw [Value.Rel] at h
      rw [Frontend.Truthy, Backend.Truthy, h, or_iff_left (hflat (v := .string other) nofun nofun)]
    | _ => exact h.elim
  | array elements =>
    cases w with
    | array others =>
      refine ⟨fun _ => ?_, fun _ => trivial⟩
      by_cases hnil : elements = []
      · exact .inr (.inl (hnil ▸ rfl))
      · exact .inl hnil
    | _ => exact h.elim
  | object members =>
    cases w with
    | object others =>
      refine ⟨fun _ => ?_, fun _ => trivial⟩
      by_cases hnil : members = []
      · exact .inr (.inr (hnil ▸ rfl))
      · exact .inl hnil
    | _ => exact h.elim

theorem Hollow.not_truthy {u : Value Backend.PyNumber} (hu : Hollow u) : ¬Backend.Truthy u := by
  rcases hu with rfl | rfl
  · exact fun h => h rfl
  · exact fun h => h rfl

theorem Backend.live_number_int {now z : ℤ} {u : Value Backend.PyNumber} :
    Backend.Live now u (.number (.int z)) ↔ Backend.Truthy u ∧ now ≤ z := by
  simp [Backend.Live, Backend.int?]

theorem Backend.live_bool {now : ℤ} {b : Bool} {u : Value Backend.PyNumber} :
    Backend.Live now u (.bool b) ↔ Backend.Truthy u ∧ now ≤ b.toInt := by
  simp [Backend.Live, Backend.int?]

theorem Frontend.live_number {now : ℤ} {n : Number} {w : Value Number} :
    Frontend.Live now w (.number n) ↔ Frontend.Truthy w ∧ ¬n.Below now := by
  simp [Frontend.Live]

/-- What is no number is no expiry to the front end. -/
theorem Frontend.not_live {now : ℤ} {w x : Value Number} (hx : ∀ n, x ≠ .number n) :
    ¬Frontend.Live now w x := by
  rintro ⟨-, n, rfl, -⟩
  exact hx n rfl

/-- What is no integer is no expiry to the backend. -/
theorem Backend.not_live {now : ℤ} {u e : Value Backend.PyNumber}
    (he : ∀ z, Backend.int? e ≠ some z) : ¬Backend.Live now u e := by
  rintro ⟨-, z, hz, -⟩
  exact he z hz

section Expiry

variable {now : ℤ} {u : Value Backend.PyNumber} {w : Value Number}

/-- Of an expiry that is one to neither side, neither makes a session. -/
theorem sameOutcome_of_no_expiry {e : Value Backend.PyNumber} {x : Value Number}
    (he : ∀ z, Backend.int? e ≠ some z) (hx : ∀ n, x ≠ .number n) :
    SameOutcome (Backend.session? now u e) (Frontend.session? now w x) := by
  have hb : ¬Backend.Live now u e := Backend.not_live he
  rw [sameOutcome_iff]
  exact ⟨iff_of_false hb (Frontend.not_live hx), fun hlive => (hb hlive).elim⟩

/-- A truth value is an expiry to the backend only. -/
theorem sameOutcome_bool_iff (b : Bool) :
    SameOutcome (Backend.session? now u (.bool b)) (Frontend.session? now w (.bool b)) ↔
      ¬Diverge now u (.bool b) := by
  have hf : ¬Frontend.Live now w (.bool b) := Frontend.not_live nofun
  rw [sameOutcome_iff, Diverge, Backend.live_bool, iff_false_right hf]
  exact ⟨fun h => h.1, fun h => ⟨h, fun hlive => (h hlive).elim⟩⟩

/-- A number that is no integer is an expiry to the front end only. -/
theorem sameOutcome_float_iff (hu : u.Rel Reads w) (y : Number) :
    SameOutcome (Backend.session? now u (.number (.float y)))
      (Frontend.session? now w (.number y)) ↔ ¬Diverge now u (.number (.float y)) := by
  have hb : ¬Backend.Live now u (.number (.float y)) := Backend.not_live nofun
  rw [sameOutcome_iff, Frontend.live_number, truthy_iff hu, Diverge, iff_false_left hb]
  exact ⟨fun h => h.1, fun h => ⟨h, fun hlive => (hb hlive).elim⟩⟩

/-- An integer is an expiry to both sides, and rounded to one of them. -/
theorem sameOutcome_int_iff (hu : u.Rel Reads w) (z : ℤ) :
    SameOutcome (Backend.session? now u (.number (.int z)))
      (Frontend.session? now w (.number (Binary64.round z))) ↔
        ¬Diverge now u (.number (.int z)) := by
  have huser : u.Rel Same w ↔ u.Numbers Exact := hu.rel_iff Backend.PyNumber.same_iff_exact
  have hexp : (Value.number (.int z)).Rel Same (.number (Binary64.round z)) ↔ IsDouble (z : ℚ) := by
    rw [Value.Rel, Same, is_round_iff]
  rw [sameOutcome_iff, Frontend.live_number, truthy_iff hu, Backend.live_number_int, huser, hexp,
    Diverge]
  by_cases hz : IsDouble (z : ℚ)
  · -- the two expiries are one number
    rw [if_pos hz, round_below_iff hz, not_lt]
    constructor
    · rintro ⟨hlive, hsame⟩ ⟨hnow, hhollow | ⟨hb, hrounded⟩⟩
      · exact hhollow.not_truthy (hlive.mpr ⟨.inr hhollow, hnow⟩).1
      · exact hrounded (hsame ⟨hb, hnow⟩).1
    · intro hno
      refine ⟨⟨fun h => ⟨.inl h.1, h.2⟩, ?_⟩, fun h => ⟨?_, hz⟩⟩
      · rintro ⟨hb | hhollow, hnow⟩
        · exact ⟨hb, hnow⟩
        · exact (hno ⟨hnow, .inl hhollow⟩).elim
      · by_contra hrounded
        exact hno ⟨h.2, .inr ⟨h.1, hrounded⟩⟩
  · -- the expiries differ, so that neither side may find a session
    rw [if_neg hz]
    constructor
    · rintro ⟨hlive, hsame⟩ (hb | hf)
      · exact hz (hsame hb).2
      · exact hz (hsame (hlive.mpr hf)).2
    · intro hno
      have hb : ¬(Backend.Truthy u ∧ now ≤ z) := fun h => hno (.inl h)
      exact ⟨iff_of_false hb fun h => hno (.inr h), fun h => (hb h).elim⟩

/-- **Of one user and one expiry, the sides make the same unless they diverge.** -/
theorem sameOutcome_iff_not_diverge {e : Value Backend.PyNumber} {x : Value Number}
    (hu : u.Rel Reads w) (he : e.Rel Reads x) :
    SameOutcome (Backend.session? now u e) (Frontend.session? now w x) ↔ ¬Diverge now u e := by
  have hx : (∀ n, e ≠ .number n) → ∀ n, x ≠ .number n := by
    rintro hne n rfl
    cases e with
    | number m => exact hne m rfl
    | _ => exact he.elim
  cases e with
  | bool b =>
    cases x with
    | bool c =>
      rw [Value.Rel] at he
      rw [← he]
      exact sameOutcome_bool_iff b
    | _ => exact he.elim
  | number n =>
    cases x with
    | number m =>
      cases n with
      | int z =>
        have hm : m = Binary64.round z := he
        rw [hm]
        exact sameOutcome_int_iff hu z
      | float y =>
        have hm : m = y := he
        rw [hm]
        exact sameOutcome_float_iff hu y
      | nan => exact he.elim
    | _ => exact he.elim
  | null => exact iff_of_true (sameOutcome_of_no_expiry nofun (hx nofun)) id
  | string text => exact iff_of_true (sameOutcome_of_no_expiry nofun (hx nofun)) id
  | array elements => exact iff_of_true (sameOutcome_of_no_expiry nofun (hx nofun)) id
  | object members => exact iff_of_true (sameOutcome_of_no_expiry nofun (hx nofun)) id

end Expiry

/-! ### One text -/

/-- The text in a body, as the backend reads it. -/
def Backend.text (body : List Char) : Option (List ℕ) :=
  match Backend.b64urlDecode body with
  | .ok data => (Backend.detectEncoding data).1.decode (Backend.detectEncoding data).2
  | .error _ => none

/-- The text in a body, as the front end reads it. -/
def Frontend.text (body : List Char) : Option (List ℕ) :=
  (Frontend.base64urlDecode body).map Frontend.decode

theorem value_of_isInteger {l : Literal} (hl : l.IsInteger) : l.value = l.integer := by
  simp only [Literal.value, Literal.integer, hl.1, hl.2, List.append_nil, List.length_nil,
    Option.getD_none, pow_zero, zpow_zero, div_one, mul_one]
  split_ifs
  · push_cast
    rfl
  · rfl

/-- The reader of the backend is the softer one. -/
theorem softer (limits : Backend.Limits) : limits.dialect.Softer Frontend.dialect Reads where
  number l m hm := by
    have hm : Binary64.round l.value = m := Except.ok.inj hm
    simp only [Backend.Limits.dialect]
    split_ifs with hint hdigits
    · exact .inr rfl
    · exact .inl ⟨_, rfl, by rw [Reads, ← hm, value_of_isInteger hint]⟩
    · exact .inl ⟨_, rfl, hm.symm⟩
  constant _ := rfl

/-- **Of one text, the sides read one user and one expiry**, unless the backend meets one of its
limits. -/
theorem readTogether_of_text {limits : Backend.Limits} {body : List Char} {cs : List ℕ}
    {members : List (List ℕ × Value Number)} (hb : Backend.text body = some cs)
    (hf : Frontend.text body = some cs)
    (hpayload : Frontend.payload body = some (.object members)) :
    ReadTogether (Backend.fields limits body) (Frontend.fields body) ∨
      Backend.payload limits body = .error .valueError ∨
        Backend.payload limits body = .error .recursionError := by
  obtain ⟨data, hdata, hdecode⟩ := Option.map_eq_some_iff.mp hf
  have hparse : parse Frontend.dialect cs = .ok (.object members) := by
    rw [Frontend.payload, hdata, Option.bind_some, hdecode] at hpayload
    cases hr : parse Frontend.dialect cs with
    | error f =>
      rw [hr] at hpayload
      exact nomatch hpayload
    | ok w =>
      rw [hr] at hpayload
      rw [Option.some.inj (hpayload : some w = _)]
  have hloads : Backend.payload limits body = limits.loadsText cs := by
    rw [Backend.text] at hb
    rw [Backend.payload]
    cases hbytes : Backend.b64urlDecode body with
    | error x =>
      rw [hbytes] at hb
      exact nomatch hb
    | ok bytes =>
      rw [hbytes] at hb
      simp only at hb
      simp only [Backend.Limits.loads, hb]
  rw [Backend.Limits.loadsText] at hloads
  rcases parse_of_softer (softer limits) hparse with ⟨v, hv, hrel⟩ | hlimit | hlimit
  · rw [hv] at hloads
    cases v with
    | object ms =>
      refine .inl ⟨_, _, _, _, ?_, ?_, rel_member? (codes "username") hrel,
        rel_member? (codes "exp") hrel⟩
      · rw [Backend.fields, hloads]
        rfl
      · rw [Frontend.fields, hpayload]
        rfl
    | _ => exact hrel.elim
  · rw [hlimit] at hloads
    exact .inr (.inl hloads)
  · rw [hlimit] at hloads
    exact .inr (.inr hloads)

end Atlas.Auth
