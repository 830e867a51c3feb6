import Atlas.Lib.Quantize
import Mathlib.Algebra.Field.Rat
import Mathlib.Algebra.Order.Group.Int
import Mathlib.Data.Rat.Floor
import Mathlib.Data.List.Basic
import Mathlib.Tactic.Ring

/-!
# Decimal numbers and their texts

A decimal number has a sign, a coefficient and an exponent; numbers of one value with
different exponents are different.  Its text is the scientific notation of the general
decimal arithmetic: the point is written where it is, as long as the exponent is not
positive and the first digit is not far behind the point, and otherwise after the first
digit, with the exponent behind.

A text is a list of characters.  Only the digits from 0 to 9 are digits.

## Main definitions

* `Decimal`, `Decimal.value`, `Decimal.toText` — a number, its value and its text.
* `Decimal.ofText` — the number of a text.
* `Decimal.rescale` — a number rounded to an exponent.

## Main results

* `Decimal.ofText_toText` — **a number is read back from its text**, with its exponent.
* `Decimal.value_rescale` — the value of a rounded number is the rounded value.
-/

/-- A finite decimal number: `(-1) ^ negative * coefficient * 10 ^ exponent`. -/
structure Decimal where
  negative : Bool
  coefficient : ℕ
  exponent : ℤ
  deriving DecidableEq, Repr, Inhabited

namespace Decimal

/-- The value of a decimal number. -/
def value (d : Decimal) : ℚ := (if d.negative then -1 else 1) * d.coefficient * 10 ^ d.exponent

/-! ### Texts -/

/-- A sign in front of the digits of a number. -/
def signed (n : ℤ) : List Char := (if n < 0 then '-' else '+') :: Nat.toDigits 10 n.natAbs

/-- A fraction with its point, if there is one. -/
def fractionText (fraction : List Char) : List Char :=
  if fraction = [] then [] else '.' :: fraction

/-- An exponent that is not zero. -/
def exponentText (e : ℤ) : List Char := if e = 0 then [] else 'E' :: signed e

variable (d : Decimal)

/-- The digits of the coefficient. -/
def digits : List Char := Nat.toDigits 10 d.coefficient

/-- How many digits stand before the point. -/
def leftDigits : ℤ := d.exponent + d.digits.length

/-- The place of the point among the digits that is written. -/
def dotPlace : ℤ := if d.exponent ≤ 0 ∧ -6 < d.leftDigits then d.leftDigits else 1

/-- The digits that are written before the point. -/
def whole : List Char :=
  if d.dotPlace ≤ 0 then ['0']
  else if d.digits.length ≤ d.dotPlace then
    d.digits ++ List.replicate (d.dotPlace - d.digits.length).toNat '0'
  else d.digits.take d.dotPlace.toNat

/-- The digits that are written behind the point. -/
def fraction : List Char :=
  if d.dotPlace ≤ 0 then List.replicate (-d.dotPlace).toNat '0' ++ d.digits
  else if d.digits.length ≤ d.dotPlace then []
  else d.digits.drop d.dotPlace.toNat

/-- The text of a number. -/
def toText : List Char :=
  (if d.negative then ['-'] else []) ++
    (d.whole ++ (fractionText d.fraction ++ exponentText (d.leftDigits - d.dotPlace)))

/-! ### Reading -/

/-- A sign, if there is one. -/
def scanSign : List Char → Bool × List Char
  | '-' :: cs => (true, cs)
  | '+' :: cs => (false, cs)
  | cs => (false, cs)

/-- The digits behind a point, if there is one. -/
def scanFraction : List Char → List Char × List Char
  | '.' :: cs => (cs.takeWhile Char.isDigit, cs.dropWhile Char.isDigit)
  | cs => ([], cs)

/-- The number of some digits. -/
def readNat (cs : List Char) : Option ℕ :=
  if cs ≠ [] ∧ cs.all Char.isDigit = true then some (Nat.ofDigitChars 10 cs 0) else none

/-- The exponent at the end of a text. -/
def readExponent : List Char → Option ℤ
  | [] => some 0
  | c :: cs =>
      if c = 'E' ∨ c = 'e' then
        (readNat (scanSign cs).2).map fun n : ℕ => if (scanSign cs).1 then -(n : ℤ) else (n : ℤ)
      else none

/-- A text without the blanks around it and the underscores in it. -/
def cleaned (cs : List Char) : List Char :=
  (((cs.dropWhile Char.isWhitespace).reverse.dropWhile Char.isWhitespace).reverse).filter (· ≠ '_')

/-- The number of a clean text. -/
def ofCleaned (cs : List Char) : Option Decimal :=
  let unsigned := (scanSign cs).2
  let whole := unsigned.takeWhile Char.isDigit
  let rest := scanFraction (unsigned.dropWhile Char.isDigit)
  if whole ++ rest.1 = [] then none
  else
    (readExponent rest.2).map fun e =>
      { negative := (scanSign cs).1
        coefficient := Nat.ofDigitChars 10 (whole ++ rest.1) 0
        exponent := e - rest.1.length }

/-- The number of a text; not a number and the infinities are none. -/
def ofText (cs : List Char) : Option Decimal := ofCleaned (cleaned cs)

/-! ### Reading back -/

/-- All are digits. -/
def Digits (cs : List Char) : Prop := ∀ c ∈ cs, c.isDigit = true

theorem digits_toDigits (n : ℕ) : Digits (Nat.toDigits 10 n) := fun _ hc =>
  Nat.isDigit_of_mem_toDigits (by omega) le_rfl hc

theorem digits_replicate (n : ℕ) : Digits (List.replicate n '0') := by
  intro c hc
  rw [List.eq_of_mem_replicate hc]
  rfl

theorem Digits.append {cs ds : List Char} (hcs : Digits cs) (hds : Digits ds) :
    Digits (cs ++ ds) := fun c hc =>
  (List.mem_append.mp hc).elim (hcs c) (hds c)

/-- A list that does not go on with a digit. -/
def Ends (cs : List Char) : Prop := ∀ c ∈ cs.head?, c.isDigit = false

theorem takeWhile_digits {cs rest : List Char} (hcs : Digits cs) (hrest : Ends rest) :
    (cs ++ rest).takeWhile Char.isDigit = cs ∧ (cs ++ rest).dropWhile Char.isDigit = rest := by
  rw [List.takeWhile_append_of_pos hcs, List.dropWhile_append_of_pos hcs]
  cases rest with
  | nil => simp
  | cons c rest =>
    have hc : c.isDigit = false := hrest c rfl
    simp [hc]

/-- A digit is no sign. -/
theorem scanSign_digit {c : Char} {cs : List Char} (hc : c.isDigit = true) :
    scanSign (c :: cs) = (false, c :: cs) := by
  have hminus : c ≠ '-' := by
    rintro rfl
    cases hc
  have hplus : c ≠ '+' := by
    rintro rfl
    cases hc
  unfold scanSign
  split
  · exact absurd (List.cons.inj ‹_›).1 hminus
  · exact absurd (List.cons.inj ‹_›).1 hplus
  · rfl

theorem readNat_toDigits (n : ℕ) : readNat (Nat.toDigits 10 n) = some n := by
  have hall : (Nat.toDigits 10 n).all Char.isDigit = true :=
    List.all_eq_true.mpr (digits_toDigits n)
  rw [readNat, if_pos ⟨Nat.toDigits_ne_nil, hall⟩, Nat.ofDigitChars_ten_toDigits]

theorem readExponent_exponentText (e : ℤ) : readExponent (exponentText e) = some e := by
  unfold exponentText
  split_ifs with hzero
  · rw [hzero]
    rfl
  · unfold signed readExponent
    split_ifs with hneg
    · simp only [true_or, if_true, scanSign, readNat_toDigits, Option.map_some]
      rw [Option.some.injEq]
      omega
    · simp only [true_or, if_true, scanSign, readNat_toDigits, Option.map_some,
        Bool.false_eq_true, if_false]
      rw [Option.some.injEq]
      omega

theorem ends_exponentText (e : ℤ) : Ends (exponentText e) := by
  unfold exponentText
  split_ifs
  · exact fun c hc => by cases hc
  · intro c hc
    obtain rfl : 'E' = c := by simpa using hc
    rfl

theorem scanFraction_fractionText {cs : List Char} (hcs : Digits cs) (e : ℤ) :
    scanFraction (fractionText cs ++ exponentText e) = (cs, exponentText e) := by
  unfold fractionText
  split_ifs with hnil
  · rw [hnil, List.nil_append]
    unfold exponentText
    split_ifs <;> rfl
  · obtain ⟨htake, hdrop⟩ := takeWhile_digits hcs (ends_exponentText e)
    rw [List.cons_append, scanFraction, htake, hdrop]

theorem ends_fractionText (cs : List Char) (e : ℤ) : Ends (fractionText cs ++ exponentText e) := by
  unfold fractionText
  split_ifs
  · exact ends_exponentText e
  · intro c hc
    obtain rfl : '.' = c := by simpa using hc
    rfl

/-- A number is read back from its sign, its digits and its exponent. -/
theorem ofCleaned_pieces (negative : Bool) {whole fraction : List Char} (hsome : whole ≠ [])
    (hwhole : Digits whole) (hfraction : Digits fraction) (e : ℤ) :
    ofCleaned ((if negative then ['-'] else []) ++
        (whole ++ (fractionText fraction ++ exponentText e))) =
      some ⟨negative, Nat.ofDigitChars 10 (whole ++ fraction) 0, e - fraction.length⟩ := by
  have hsign : scanSign ((if negative then ['-'] else []) ++
      (whole ++ (fractionText fraction ++ exponentText e))) =
      (negative, whole ++ (fractionText fraction ++ exponentText e)) := by
    cases negative with
    | true => rfl
    | false =>
      -- the text begins with a digit
      obtain ⟨c, cs, rfl⟩ := List.exists_cons_of_ne_nil hsome
      exact scanSign_digit (hwhole c (List.mem_cons_self ..))
  obtain ⟨htake, hdrop⟩ := takeWhile_digits hwhole (ends_fractionText fraction e)
  unfold ofCleaned
  simp only [hsign, htake, hdrop, scanFraction_fractionText hfraction, readExponent_exponentText,
    Option.map_some]
  rw [if_neg (by simp [hsome])]

/-! ### The texts of numbers -/

theorem digits_ne_nil : d.digits ≠ [] := Nat.toDigits_ne_nil

theorem digits_digits : Digits d.digits := digits_toDigits _

/-- **The pieces of a text**: the digits that are written are those of the coefficient, up
to zeros in front, and the point and the exponent make up the exponent of the number. -/
theorem pieces : d.whole ≠ [] ∧ Digits d.whole ∧ Digits d.fraction ∧
    Nat.ofDigitChars 10 (d.whole ++ d.fraction) 0 = d.coefficient ∧
    d.leftDigits - d.dotPlace - d.fraction.length = d.exponent := by
  have hdigits : Digits d.digits := d.digits_digits
  have hlength : 0 < d.digits.length := List.length_pos_iff.mpr d.digits_ne_nil
  have hvalue : Nat.ofDigitChars 10 d.digits 0 = d.coefficient := Nat.ofDigitChars_ten_toDigits
  have hleft : d.leftDigits = d.exponent + d.digits.length := rfl
  have hplace : d.exponent ≤ 0 ∧ d.dotPlace = d.leftDigits ∨ d.dotPlace = 1 := by
    unfold dotPlace
    split_ifs with h
    · exact .inl ⟨h.1, rfl⟩
    · exact .inr rfl
  unfold whole fraction
  split_ifs with hbefore hbehind
  · -- the point is before the digits
    have hzeros : Digits (List.replicate (-d.dotPlace).toNat '0' ++ d.digits) :=
      (digits_replicate _).append hdigits
    refine ⟨List.cons_ne_nil _ _, digits_replicate 1, hzeros, ?_, ?_⟩
    · rw [← List.replicate_one, Nat.ofDigitChars_append, Nat.ofDigitChars_replicate_zero,
        Nat.ofDigitChars_append, Nat.mul_zero, Nat.ofDigitChars_replicate_zero, Nat.mul_zero,
        hvalue]
    · rw [List.length_append, List.length_replicate]
      omega
  · -- there are no digits behind the point, and no zeros either
    have hzeros : (d.dotPlace - d.digits.length).toNat = 0 := by omega
    rw [hzeros, List.replicate_zero, List.append_nil, List.append_nil]
    refine ⟨d.digits_ne_nil, hdigits, fun c hc => (List.not_mem_nil hc).elim, hvalue, ?_⟩
    rw [List.length_nil]
    omega
  · -- the point is among the digits
    refine ⟨?_, fun c hc => hdigits c (List.mem_of_mem_take hc),
      fun c hc => hdigits c (List.mem_of_mem_drop hc), ?_, ?_⟩
    · rw [← List.length_pos_iff, List.length_take]
      omega
    · rw [List.take_append_drop, hvalue]
    · rw [List.length_drop]
      omega

/-- A character of the text of a number. -/
def IsPlain (c : Char) : Prop := c.isDigit = true ∨ c = '-' ∨ c = '+' ∨ c = '.' ∨ c = 'E'

theorem isPlain_toText : ∀ c ∈ d.toText, IsPlain c := by
  obtain ⟨-, hwhole, hfraction, -, -⟩ := d.pieces
  have hexponent : ∀ (e : ℤ), ∀ c ∈ exponentText e, IsPlain c := by
    intro e c hc
    unfold exponentText signed at hc
    split_ifs at hc with hzero hneg
    · cases hc
    · simp only [List.mem_cons] at hc
      rcases hc with rfl | rfl | hc
      · simp [IsPlain]
      · simp [IsPlain]
      · exact .inl (digits_toDigits _ c hc)
    · simp only [List.mem_cons] at hc
      rcases hc with rfl | rfl | hc
      · simp [IsPlain]
      · simp [IsPlain]
      · exact .inl (digits_toDigits _ c hc)
  intro c hc
  unfold toText fractionText at hc
  simp only [List.mem_append] at hc
  rcases hc with hc | hc | hc | hc
  · split_ifs at hc
    · rw [List.mem_singleton.mp hc]
      simp [IsPlain]
    · cases hc
  · exact .inl (hwhole c hc)
  · split_ifs at hc
    · cases hc
    · rcases List.mem_cons.mp hc with rfl | hc
      · simp [IsPlain]
      · exact .inl (hfraction c hc)
  · exact hexponent _ c hc

/-- A plain character is neither a blank nor an underscore. -/
theorem IsPlain.kept {c : Char} (h : IsPlain c) : c.isWhitespace = false ∧ c ≠ '_' := by
  rcases h with hdigit | rfl | rfl | rfl | rfl
  · refine ⟨?_, ?_⟩
    · by_contra hblank
      rw [Bool.not_eq_false] at hblank
      have hcases : c = ' ' ∨ c = '\t' ∨ c = '\r' ∨ c = '\n' := by
        simpa [Char.isWhitespace, or_assoc] using hblank
      rcases hcases with rfl | rfl | rfl | rfl <;> cases hdigit
    · rintro rfl
      cases hdigit
  all_goals exact ⟨by decide, by decide⟩

/-- A text of plain characters is clean. -/
theorem cleaned_of_isPlain {cs : List Char} (h : ∀ c ∈ cs, IsPlain c) : cleaned cs = cs := by
  have hstrip : ∀ ds : List Char, (∀ c ∈ ds, IsPlain c) → ds.dropWhile Char.isWhitespace = ds := by
    intro ds hds
    cases ds with
    | nil => rfl
    | cons c ds => rw [List.dropWhile_cons, (hds c (List.mem_cons_self ..)).kept.1]; rfl
  unfold cleaned
  rw [hstrip cs h, hstrip cs.reverse fun c hc => h c (List.mem_reverse.mp hc), List.reverse_reverse,
    List.filter_eq_self]
  exact fun c hc => decide_eq_true (h c hc).kept.2

/-- **A number is read back from its text**, with its exponent. -/
theorem ofText_toText : ofText d.toText = some d := by
  obtain ⟨hsome, hwhole, hfraction, hvalue, hexponent⟩ := d.pieces
  rw [ofText, cleaned_of_isPlain d.isPlain_toText, toText,
    ofCleaned_pieces d.negative hsome hwhole hfraction, hvalue, hexponent]

/-! ### Rounding to an exponent -/

/-- A number with another exponent, rounded to the nearest one with ties to the even
coefficient, unless its coefficient has more digits than the precision allows. -/
def rescale (precision : ℕ) (exponent : ℤ) : Option Decimal :=
  let scaled : ℚ := d.coefficient * 10 ^ (d.exponent - exponent)
  let coefficient := (Quantize.roundHalfEven scaled).toNat
  if coefficient < 10 ^ precision then some ⟨d.negative, coefficient, exponent⟩ else none

/-- The value of a rounded number is the rounded value. -/
theorem value_rescale {precision : ℕ} {exponent : ℤ} {q : Decimal}
    (h : d.rescale precision exponent = some q) :
    q.value = Quantize.quantize (10 ^ exponent) d.value := by
  have hten : (10 : ℚ) ^ exponent ≠ 0 := zpow_ne_zero _ (by norm_num)
  simp only [rescale, Option.ite_none_right_eq_some, Option.some.injEq] at h
  obtain ⟨-, rfl⟩ := h
  have hpos : (0 : ℚ) ≤ d.coefficient * 10 ^ (d.exponent - exponent) :=
    mul_nonneg (Nat.cast_nonneg _) (zpow_nonneg (by norm_num) _)
  have hcoefficient : ((Quantize.roundHalfEven
      (d.coefficient * 10 ^ (d.exponent - exponent) : ℚ)).toNat : ℚ) =
      Quantize.roundHalfEven (d.coefficient * 10 ^ (d.exponent - exponent) : ℚ) := by
    exact_mod_cast Int.toNat_of_nonneg (Quantize.roundHalfEven_nonneg hpos)
  have hscaled : d.value / 10 ^ exponent =
      (if d.negative then -1 else 1) * (d.coefficient * 10 ^ (d.exponent - exponent)) := by
    rw [value, zpow_sub₀ (by norm_num)]
    ring
  rw [value, Quantize.quantize, hscaled, hcoefficient]
  cases d.negative with
  | false => simp
  | true => simp [Quantize.roundHalfEven_neg]

/-- The texts of 0.00001230 and of 1230000000. -/
example : String.ofList (toText ⟨false, 1230, -8⟩) = "0.00001230" ∧
    String.ofList (toText ⟨true, 123, 7⟩) = "-1.23E+9" := by decide +kernel

end Decimal
