import Mathlib.Data.Nat.Digits.Lemmas
import Mathlib.Tactic.IntervalCases
import Atlas.Lib.Dialects

/-!
# Writing JSON

A value is written without white space.  Its numbers are integers here, which every language
writes by their decimal digits.  What the writers differ in is the code points of a string that
they leave as they are; every other one is escaped, by a letter if it has one and else by its
number, as a pair of surrogates if it is beyond the first plane.

What is written is read back, by every dialect that makes a number of the integers in it and goes
deep enough.  The names of an object have to be different, since the reader keeps one member of a
name; and a text must not have the two halves of a pair next to each other, since they are read
as one code point.

## Main definitions

* `Value.write` — the text of a value.
* `Value.map` — the value with other numbers.
* `Value.Distinct`, `Value.height` — no name occurs twice; how deep the value is.

## Main results

* `scanString_write`, `scanNumber_write` — **a string and a number are read back**.
* `parse_write` — **a value is read back**.
-/

namespace Json

/-! ### Numbers -/

/-- The decimal digits of a number, the highest one first. -/
def decimalDigits (n : ℕ) : List ℕ := if n = 0 then [0] else (Nat.digits 10 n).reverse

/-- The literal of an integer. -/
def literal (z : ℤ) : Literal where
  negative := z < 0
  whole := decimalDigits z.natAbs
  fraction := []
  exponent := none

/-- The text of an integer. -/
def writeInteger (z : ℤ) : List ℕ :=
  (if z < 0 then ['-'.toNat] else []) ++ (decimalDigits z.natAbs).map (· + 0x30)

/-- A number ends here: what follows is no part of one. -/
def Ends (rest : List ℕ) : Prop :=
  ∀ c ∈ rest.head?, digit? c = none ∧ c ≠ '.'.toNat ∧ c ≠ 'e'.toNat ∧ c ≠ 'E'.toNat

theorem ends_nil : Ends [] := by simp [Ends]

theorem ends_cons {c : ℕ} (hc : c = ','.toNat ∨ c = ']'.toNat ∨ c = '\x7d'.toNat)
    (rest : List ℕ) : Ends (c :: rest) := by
  intro d hd
  obtain rfl := Option.some.inj hd
  rcases hc with rfl | rfl | rfl <;> decide

theorem decimal_append (digits : List ℕ) (d : ℕ) :
    decimal (digits ++ [d]) = decimal digits * 10 + d := by
  simp [decimal]

theorem decimal_reverse (digits : List ℕ) : decimal digits.reverse = Nat.ofDigits 10 digits := by
  induction digits with
  | nil => rfl
  | cons d digits ih =>
    rw [List.reverse_cons, decimal_append, ih, Nat.ofDigits_cons]
    omega

@[simp]
theorem decimal_decimalDigits (n : ℕ) : decimal (decimalDigits n) = n := by
  unfold decimalDigits
  split <;> rename_i hn
  · rw [hn]
    rfl
  · rw [decimal_reverse, Nat.ofDigits_digits]

theorem decimalDigits_lt {n d : ℕ} (hd : d ∈ decimalDigits n) : d < 10 := by
  unfold decimalDigits at hd
  split at hd
  · simp only [List.mem_singleton] at hd
    omega
  · exact Nat.digits_lt_base (by decide) (List.mem_reverse.mp hd)

theorem length_decimalDigits_le {n k : ℕ} (hk : 0 < k) (hn : n < 10 ^ k) :
    (decimalDigits n).length ≤ k := by
  unfold decimalDigits
  split
  · exact hk
  · rw [List.length_reverse]
    exact (Nat.digits_length_le_iff (by decide) n).mpr hn

/-- The literal of an integer stands for it. -/
@[simp]
theorem integer_literal (z : ℤ) : (literal z).integer = z := by
  unfold Literal.integer literal
  rw [decimal_decimalDigits]
  split <;> rename_i hz <;> simp only [decide_eq_true_eq] at hz <;> omega

theorem digit?_add {d : ℕ} (hd : d < 10) : digit? (d + 0x30) = some d := by
  rw [digit?, if_pos (by omega)]
  simp

/-- Digits are scanned up to something that is none. -/
theorem scanDigits_append {digits rest : List ℕ} (hdigits : ∀ d ∈ digits, d < 10)
    (hrest : ∀ c ∈ rest.head?, digit? c = none) :
    scanDigits (digits.map (· + 0x30) ++ rest) = (digits, rest) := by
  induction digits with
  | nil =>
    cases rest with
    | nil => rfl
    | cons c rest => simp [scanDigits, hrest c rfl]
  | cons d digits ih =>
    have hd := digit?_add (hdigits d (List.mem_cons_self ..))
    rw [List.map_cons, List.cons_append, scanDigits, hd,
      ih fun e he => hdigits e (List.mem_cons_of_mem _ he)]

/-- The digits begin with a zero only if there is no other. -/
theorem scanWhole_append {n : ℕ} {rest : List ℕ} (hrest : ∀ c ∈ rest.head?, digit? c = none) :
    scanWhole ((decimalDigits n).map (· + 0x30) ++ rest) = some (decimalDigits n, rest) := by
  have hscan := @scanDigits_append (decimalDigits n) _ (fun d => decimalDigits_lt) hrest
  by_cases hn : n = 0
  · subst hn
    simp [decimalDigits, scanWhole]
  · obtain ⟨d, digits, hdigits, hd⟩ : ∃ d digits, decimalDigits n = d :: digits ∧ d ≠ 0 := by
      have hne : Nat.digits 10 n ≠ [] := Nat.digits_ne_nil_iff_ne_zero.mpr hn
      refine ⟨(Nat.digits 10 n).getLast hne, (Nat.digits 10 n).dropLast.reverse, ?_,
        Nat.getLast_digit_ne_zero 10 hn⟩
      rw [decimalDigits, if_neg hn]
      conv_lhs => rw [← List.dropLast_append_getLast hne]
      rw [List.reverse_append, List.reverse_singleton, List.singleton_append]
    rw [hdigits] at hscan ⊢
    rw [List.map_cons, List.cons_append] at hscan ⊢
    rw [scanWhole, if_neg (by omega), hscan, if_neg (List.cons_ne_nil _ _)]

theorem scanFraction_ends {rest : List ℕ} (hrest : Ends rest) : scanFraction rest = ([], rest) := by
  cases rest with
  | nil => rfl
  | cons c rest => rw [scanFraction, if_neg fun h => (hrest c rfl).2.1 h.1]

theorem scanExponent_ends {rest : List ℕ} (hrest : Ends rest) :
    scanExponent rest = (none, rest) := by
  cases rest with
  | nil => rfl
  | cons c rest =>
    obtain ⟨-, -, hlower, hupper⟩ := hrest c rfl
    have hno : ¬((c = 'e'.toNat ∨ c = 'E'.toNat) ∧ (scanDigits (scanSign rest).2).1 ≠ []) :=
      fun h => h.1.elim hlower hupper
    simp only [scanExponent, if_neg hno]

theorem exists_decimalDigits (n : ℕ) : ∃ d < 10, ∃ digits, decimalDigits n = d :: digits := by
  cases hdigits : decimalDigits n with
  | nil =>
    have hvalue := decimal_decimalDigits n
    rw [hdigits] at hvalue
    obtain rfl : n = 0 := hvalue.symm
    cases hdigits
  | cons d digits => exact ⟨d, decimalDigits_lt (hdigits ▸ List.mem_cons_self ..), digits, rfl⟩

/-- The first character of an integer is a sign or a digit. -/
theorem exists_writeInteger (z : ℤ) : ∃ c tail, writeInteger z = c :: tail ∧
    (c = '-'.toNat ∨ ∃ d < 10, c = d + 0x30) := by
  obtain ⟨d, hd, digits, hdigits⟩ := exists_decimalDigits z.natAbs
  unfold writeInteger
  split
  · exact ⟨_, _, rfl, .inl rfl⟩
  · rw [hdigits]
    exact ⟨_, _, rfl, .inr ⟨d, hd, rfl⟩⟩

/-- **An integer is scanned as its literal.** -/
theorem scanNumber_write (z : ℤ) {rest : List ℕ} (hrest : Ends rest) :
    scanNumber (writeInteger z ++ rest) = some (literal z, rest) := by
  have hwhole := scanWhole_append (n := z.natAbs) fun c hc => (hrest c hc).1
  have hnumber {negative : Bool} {cs : List ℕ}
      (hsign : (cs.head? = some '-'.toNat) = (negative = true))
      (hcs : (if negative then cs.tail else cs) =
        (decimalDigits z.natAbs).map (· + 0x30) ++ rest) :
      scanNumber cs = some ({ literal z with negative := negative }, rest) := by
    unfold scanNumber
    simp only [hsign, hcs, hwhole, Option.map_some, scanFraction_ends hrest,
      scanExponent_ends hrest]
    simp [literal]
  by_cases hz : z < 0
  · have hwrite := @hnumber true (writeInteger z ++ rest)
      (by simp [writeInteger, hz]) (by simp [writeInteger, hz])
    simpa [literal, hz] using hwrite
  · have hwrite := @hnumber false (writeInteger z ++ rest) ?_
      (by simp [writeInteger, hz])
    · simpa [literal, hz] using hwrite
    obtain ⟨d, hd, digits, hdigits⟩ := exists_decimalDigits z.natAbs
    simp [writeInteger, hz, hdigits]

/-- No word is the beginning of a number. -/
theorem scanScalar_of_scanNumber {ν : Type} {dialect : Dialect ν} {cs : List ℕ}
    {r : Literal × List ℕ} (h : scanNumber cs = some r) :
    scanScalar dialect cs = (dialect.number r.1).map fun n => (.number n, r.2) := by
  have hno {word : String} (hword : ∀ rest, scanNumber (codes word ++ rest) = none) :
      scanWord word cs = none := by
    rw [scanWord]
    split_ifs with hpre
    · obtain ⟨rest, rfl⟩ := List.isPrefixOf_iff_prefix.mp hpre
      rw [hword rest] at h
      cases h
    · rfl
  have hnull : scanWord "null" cs = none := hno fun _ => rfl
  have htrue : scanWord "true" cs = none := hno fun _ => rfl
  have hfalse : scanWord "false" cs = none := hno fun _ => rfl
  obtain ⟨hnan, hinf, hneg⟩ := scanWord_constant_eq_none h
  simp [scanScalar, hnull, htrue, hfalse, hnan, hinf, hneg, h]

/-! ### Strings -/

/-- The code points that are escaped by a letter, with the letter. -/
def letters : List (ℕ × ℕ) :=
  [('"'.toNat, '"'.toNat), ('\\'.toNat, '\\'.toNat), (0x08, 'b'.toNat), (0x0C, 'f'.toNat),
    (0x0A, 'n'.toNat), (0x0D, 'r'.toNat), (0x09, 't'.toNat)]

/-- The letter of an escape, if there is one. -/
def escape (c : ℕ) : Option ℕ := letters.lookup c

/-- A hexadecimal digit in lower case. -/
def writeHexDigit (d : ℕ) : ℕ := if d < 10 then d + 0x30 else d + 0x57

/-- The escape of a unit by its number. -/
def writeUnit (u : ℕ) : List ℕ :=
  ['\\'.toNat, 'u'.toNat, writeHexDigit (u / 0x1000), writeHexDigit (u / 0x100 % 16),
    writeHexDigit (u / 0x10 % 16), writeHexDigit (u % 16)]

/-- The halves of a code point beyond the first plane. -/
def halves (c : ℕ) : ℕ × ℕ := (0xD800 + (c - 0x10000) / 0x400, 0xDC00 + (c - 0x10000) % 0x400)

/-- A code point in a string, where those that are `raw` are left as they are. -/
def writePoint (raw : ℕ → Bool) (c : ℕ) : List ℕ :=
  match escape c with
  | some letter => ['\\'.toNat, letter]
  | none =>
      if raw c then [c]
      else if c < 0x10000 then writeUnit c
      else writeUnit (halves c).1 ++ writeUnit (halves c).2

/-- The text of a string. -/
def writeString (raw : ℕ → Bool) (text : List ℕ) : List ℕ :=
  '"'.toNat :: (text.flatMap (writePoint raw) ++ ['"'.toNat])

/-- What is scanned of a code point in a string. -/
def marked (raw : ℕ → Bool) (c : ℕ) : List (ℕ × Bool) :=
  if (escape c).isSome ∨ raw c = true then [(c, false)]
  else if c < 0x10000 then [(c, true)]
  else [((halves c).1, true), ((halves c).2, true)]

/-- No control character is left as it is. -/
def Printable (raw : ℕ → Bool) : Prop := ∀ c, raw c = true → 0x20 ≤ c

/-- No two code points next to each other are the halves of one. -/
def Whole (text : List ℕ) : Prop :=
  (∀ c ∈ text, c < 0x110000) ∧
    text.IsChain fun high low => ¬(Unicode.IsHigh high ∧ Unicode.IsLow low)

theorem hexDigit?_write {d : ℕ} (hd : d < 16) : hexDigit? (writeHexDigit d) = some d := by
  interval_cases d <;> rfl

/-- An escape by its number is read back. -/
theorem scanString_unit {u : ℕ} (hu : u < 0x10000) (rest : List ℕ) :
    scanString (writeUnit u ++ rest) =
      (scanString rest).map fun r => ((u, true) :: r.1, r.2) := by
  have hunit : hexUnit? (writeHexDigit (u / 0x1000)) (writeHexDigit (u / 0x100 % 16))
      (writeHexDigit (u / 0x10 % 16)) (writeHexDigit (u % 16)) = some u := by
    unfold hexUnit?
    rw [hexDigit?_write (by omega), hexDigit?_write (by omega), hexDigit?_write (by omega),
      hexDigit?_write (by omega)]
    simp only [bind, Option.bind, Option.some.injEq]
    omega
  simp [writeUnit, scanString, escape?, hunit]

/-- An escape by a letter is read back, and the letter is a printable character. -/
theorem escape_eq_some {c letter : ℕ} (h : escape c = some letter) :
    escape? letter = some c ∧ 0x20 ≤ letter ∧ letter < 0x7F := by
  have hall : ∀ p ∈ letters, escape? p.2 = some p.1 ∧ 0x20 ≤ p.2 ∧ p.2 < 0x7F := by decide
  obtain ⟨before, after, hletters, -⟩ := List.lookup_eq_some_iff.mp h
  exact hall (c, letter) (by simp [hletters])

theorem halves_lt {c : ℕ} (hc : c < 0x110000) :
    Unicode.IsHigh (halves c).1 ∧ Unicode.IsLow (halves c).2 := by
  unfold halves Unicode.IsHigh Unicode.IsLow
  omega

theorem joined_halves {c : ℕ} (hc : 0x10000 ≤ c) :
    Unicode.joined (halves c).1 (halves c).2 = c := by
  unfold halves Unicode.joined
  omega

/-- **A code point of a string is scanned.** -/
theorem scanString_point {raw : ℕ → Bool} (hraw : Printable raw) {c : ℕ} (hc : c < 0x110000)
    (rest : List ℕ) :
    scanString (writePoint raw c ++ rest) =
      (scanString rest).map fun r => (marked raw c ++ r.1, r.2) := by
  unfold writePoint marked
  cases hescape : escape c with
  | some letter =>
    simp only [List.cons_append, List.nil_append]
    rw [scanString.eq_def]
    simp [(escape_eq_some hescape).1]
  | none =>
    by_cases hc' : raw c = true
    · have hquote : c ≠ '"'.toNat ∧ c ≠ '\\'.toNat := by
        constructor <;> rintro rfl <;> exact absurd hescape (by decide)
      have hspace : ¬c < 0x20 := not_lt.mpr (hraw c hc')
      simp only [hc', if_true, List.singleton_append, Option.isSome_none, Bool.false_eq_true,
        false_or]
      rw [scanString.eq_def]
      simp only [if_neg hquote.1, if_neg hspace, if_neg hquote.2]
    · simp only [hc', if_false, Option.isSome_none, Bool.false_eq_true, false_or]
      by_cases hplane : c < 0x10000
      · simp only [hplane, if_true]
        exact scanString_unit hplane rest
      · obtain ⟨hhigh, hlow⟩ := halves_lt hc
        simp only [hplane, if_false, List.append_assoc]
        rw [scanString_unit (by unfold Unicode.IsHigh at hhigh; omega),
          scanString_unit (by unfold Unicode.IsLow at hlow; omega), Option.map_map]
        rfl

theorem scanString_points {raw : ℕ → Bool} (hraw : Printable raw) {text : List ℕ}
    (htext : ∀ c ∈ text, c < 0x110000) (rest : List ℕ) :
    scanString (text.flatMap (writePoint raw) ++ '"'.toNat :: rest) =
      some (text.flatMap (marked raw), rest) := by
  induction text with
  | nil =>
    rw [List.flatMap_nil, List.nil_append, scanString.eq_def]
    rfl
  | cons c text ih =>
    rw [List.flatMap_cons, List.append_assoc,
      scanString_point hraw (htext c (List.mem_cons_self ..)),
      ih fun d hd => htext d (List.mem_cons_of_mem _ hd)]
    rfl

/-- The marks of a text begin with a low half only if the text does. -/
theorem head?_marked {raw : ℕ → Bool} {text : List ℕ} (htext : ∀ c ∈ text, c < 0x110000)
    {p : ℕ × Bool} (hp : p ∈ (text.flatMap (marked raw)).head?) (hlow : Unicode.IsLow p.1) :
    p.1 ∈ text.head? := by
  cases text with
  | nil => simp at hp
  | cons c text =>
    rw [List.flatMap_cons] at hp
    unfold marked at hp
    split at hp
    · obtain rfl : (c, false) = p := by simpa using hp
      simp
    split at hp
    · obtain rfl : (c, true) = p := by simpa using hp
      simp
    · obtain rfl : ((halves c).1, true) = p := by simpa using hp
      have hhigh := (halves_lt (htext c (List.mem_cons_self ..))).1
      unfold Unicode.IsHigh at hhigh
      unfold Unicode.IsLow at hlow
      simp only at hlow
      omega

theorem joinEscapes_cons {c : ℕ} {b : Bool} {ps : List (ℕ × Bool)}
    (h : b = true → ∀ low, (low, true) ∈ ps.head? → ¬(Unicode.IsHigh c ∧ Unicode.IsLow low)) :
    joinEscapes ((c, b) :: ps) = c :: joinEscapes ps := by
  cases b with
  | false => rw [joinEscapes]; simp
  | true =>
    cases ps with
    | nil => rfl
    | cons p ps =>
      obtain ⟨low, marked⟩ := p
      cases marked with
      | false => rw [joinEscapes]; simp
      | true => rw [joinEscapes, if_neg (h rfl low rfl)]

/-- The halves that were taken apart are joined, and no others. -/
theorem joinEscapes_marked {raw : ℕ → Bool} {text : List ℕ} (htext : Whole text) :
    joinEscapes (text.flatMap (marked raw)) = text := by
  induction text with
  | nil => rfl
  | cons c text ih =>
    have hrest : ∀ d ∈ text, d < 0x110000 := fun d hd => htext.1 d (List.mem_cons_of_mem _ hd)
    have hc := htext.1 c (List.mem_cons_self ..)
    have hmore := ih ⟨hrest, htext.2.tail⟩
    rw [List.flatMap_cons, marked]
    split
    · rw [List.singleton_append, joinEscapes_cons (by simp), hmore]
    split
    · rw [List.singleton_append, joinEscapes_cons ?_, hmore]
      rintro - low hlow ⟨hhigh, hlow'⟩
      have hhead := head?_marked hrest hlow hlow'
      cases text with
      | nil => cases hhead
      | cons d text =>
        obtain rfl : d = low := by simpa using hhead
        exact htext.2.rel ⟨hhigh, hlow'⟩
    · rename_i hplane
      rw [List.cons_append, List.singleton_append, joinEscapes, if_pos (halves_lt hc),
        joined_halves (not_lt.mp hplane), hmore]

/-! ### Values -/

section Map

variable {ν μ : Type} (f : ν → μ)

mutual

/-- The value with other numbers. -/
def Value.map : Value ν → Value μ
  | .null => .null
  | .bool b => .bool b
  | .number n => .number (f n)
  | .string text => .string text
  | .array elements => .array (Value.mapElements elements)
  | .object members => .object (Value.mapMembers members)

def Value.mapElements : List (Value ν) → List (Value μ)
  | [] => []
  | v :: vs => v.map :: Value.mapElements vs

def Value.mapMembers : List (List ℕ × Value ν) → List (List ℕ × Value μ)
  | [] => []
  | (name, v) :: ms => (name, v.map) :: Value.mapMembers ms

end

end Map

section Shape

variable {ν : Type}

mutual

/-- Every text in a value is whole, and no name occurs twice in an object. -/
def Value.Distinct : Value ν → Prop
  | .string text => Whole text
  | .array elements => Value.ElementsDistinct elements
  | .object members => (members.map Prod.fst).Nodup ∧ Value.MembersDistinct members
  | _ => True

def Value.ElementsDistinct : List (Value ν) → Prop
  | [] => True
  | v :: vs => v.Distinct ∧ Value.ElementsDistinct vs

def Value.MembersDistinct : List (List ℕ × Value ν) → Prop
  | [] => True
  | (name, v) :: ms => Whole name ∧ v.Distinct ∧ Value.MembersDistinct ms

end

mutual

/-- How deep the containers are nested. -/
def Value.height : Value ν → ℕ
  | .array elements => Value.elementsHeight elements + 1
  | .object members => Value.membersHeight members + 1
  | _ => 0

def Value.elementsHeight : List (Value ν) → ℕ
  | [] => 0
  | v :: vs => max v.height (Value.elementsHeight vs)

def Value.membersHeight : List (List ℕ × Value ν) → ℕ
  | [] => 0
  | (_, v) :: ms => max v.height (Value.membersHeight ms)

end

end Shape

section Write

variable (raw : ℕ → Bool)

mutual

/-- The text of a value. -/
def Value.write : Value ℤ → List ℕ
  | .null => codes "null"
  | .bool true => codes "true"
  | .bool false => codes "false"
  | .number z => writeInteger z
  | .string text => writeString raw text
  | .array elements => '['.toNat :: (Value.writeElements elements ++ [']'.toNat])
  | .object members => '\x7b'.toNat :: (Value.writeMembers members ++ ['\x7d'.toNat])

/-- The elements of an array, with commas between them. -/
def Value.writeElements : List (Value ℤ) → List ℕ
  | [] => []
  | v :: vs => v.write ++ (if vs = [] then [] else ','.toNat :: Value.writeElements vs)

/-- The members of an object, with commas between them. -/
def Value.writeMembers : List (List ℕ × Value ℤ) → List ℕ
  | [] => []
  | (name, v) :: ms =>
      writeString raw name ++ ':'.toNat :: (v.write ++
        (if ms = [] then [] else ','.toNat :: Value.writeMembers ms))

end

end Write

/-! ### What is in a text -/

section Members

variable {raw : ℕ → Bool} {P : ℕ → Prop}

/-- A property of whatever is written: of the printable characters of ASCII, and of those that
are left as they are. -/
structure Written (raw : ℕ → Bool) (P : ℕ → Prop) : Prop where
  ascii : ∀ c, 0x20 ≤ c → c < 0x7F → P c
  raw : ∀ c, raw c = true → P c

theorem Written.unit (h : Written raw P) {u : ℕ} (hu : u < 0x10000) : ∀ c ∈ writeUnit u, P c := by
  have hdigit (d : ℕ) (hd : d < 16) : P (writeHexDigit d) := by
    unfold writeHexDigit
    split <;> exact h.ascii _ (by omega) (by omega)
  simp only [writeUnit, List.mem_cons, forall_eq_or_imp, List.not_mem_nil, false_implies,
    implies_true, and_true]
  exact ⟨h.ascii _ (by decide) (by decide), h.ascii _ (by decide) (by decide),
    hdigit _ (by omega), hdigit _ (by omega), hdigit _ (by omega), hdigit _ (by omega)⟩

theorem Written.point (h : Written raw P) {n : ℕ} (hn : n < 0x110000) :
    ∀ c ∈ writePoint raw n, P c := by
  unfold writePoint
  cases hescape : escape n with
  | some letter =>
    obtain ⟨-, hletter⟩ := escape_eq_some hescape
    simp only [List.mem_cons, forall_eq_or_imp, List.not_mem_nil, false_implies, implies_true,
      and_true]
    exact ⟨h.ascii _ (by decide) (by decide), h.ascii _ hletter.1 hletter.2⟩
  | none =>
    dsimp only
    split
    · rename_i hraw
      simpa using h.raw n hraw
    split
    · exact h.unit ‹_›
    · obtain ⟨hhigh, hlow⟩ := halves_lt hn
      intro c hc
      rcases List.mem_append.mp hc with hc | hc
      · exact h.unit (by unfold Unicode.IsHigh at hhigh; omega) c hc
      · exact h.unit (by unfold Unicode.IsLow at hlow; omega) c hc

theorem Written.string (h : Written raw P) {text : List ℕ} (htext : ∀ c ∈ text, c < 0x110000) :
    ∀ c ∈ writeString raw text, P c := by
  have hquote : P '"'.toNat := h.ascii _ (by decide) (by decide)
  intro c hc
  simp only [writeString, List.mem_cons, List.mem_append, List.mem_flatMap, List.not_mem_nil,
    or_false] at hc
  rcases hc with rfl | ⟨n, hn, hc⟩ | rfl
  · exact hquote
  · exact h.point (htext n hn) c hc
  · exact hquote

theorem Written.integer (h : Written raw P) (z : ℤ) : ∀ c ∈ writeInteger z, P c := by
  intro c hc
  rcases List.mem_append.mp hc with hc | hc
  · split at hc
    · obtain rfl := List.mem_singleton.mp hc
      exact h.ascii _ (by decide) (by decide)
    · cases hc
  · obtain ⟨d, hd, rfl⟩ := List.mem_map.mp hc
    have := decimalDigits_lt hd
    exact h.ascii _ (by omega) (by omega)

end Members

/-! ### Reading back -/

section Reading

variable {μ : Type} {d : Dialect μ} {f : ℤ → μ} {raw : ℕ → Bool}

/-- The dialect makes the number of an integer of its literal. -/
def Dialect.Makes (d : Dialect μ) (f : ℤ → μ) (z : ℤ) : Prop := d.number (literal z) = .ok (f z)

theorem skipSpace_cons {c : ℕ} (hc : isSpace c = false) (rest : List ℕ) :
    skipSpace (c :: rest) = c :: rest := by
  rw [skipSpace, List.dropWhile_cons_of_neg (by simp [hc])]

/-- The text of a value does not begin with white space, or like the end of an array. -/
theorem exists_write (v : Value ℤ) : ∃ c tail, v.write raw = c :: tail ∧ isSpace c = false ∧
    c ≠ ']'.toNat := by
  cases v with
  | null => exact ⟨_, _, rfl, rfl, by decide⟩
  | bool b => cases b <;> exact ⟨_, _, rfl, rfl, by decide⟩
  | number z =>
    obtain ⟨c, tail, hwrite, rfl | ⟨d, hd, rfl⟩⟩ := exists_writeInteger z
    · exact ⟨_, _, hwrite, rfl, by decide⟩
    · refine ⟨_, _, hwrite, ?_, ?_⟩ <;> interval_cases d <;> decide
  | string text => exact ⟨_, _, rfl, rfl, by decide⟩
  | array elements => exact ⟨_, _, rfl, rfl, by decide⟩
  | object members => exact ⟨_, _, rfl, rfl, by decide⟩

theorem skipSpace_write (v : Value ℤ) (rest : List ℕ) :
    skipSpace (v.write raw ++ rest) = v.write raw ++ rest := by
  obtain ⟨c, tail, hwrite, hc, -⟩ := @exists_write raw v
  rw [hwrite, List.cons_append, skipSpace_cons hc]

theorem setMember_of_notMem {name : List ℕ} {v : Value μ} {ms : List (List ℕ × Value μ)}
    (h : name ∉ ms.map Prod.fst) : setMember name v ms = ms ++ [(name, v)] := by
  induction ms with
  | nil => rfl
  | cons m ms ih =>
    rw [List.map_cons, List.mem_cons, not_or] at h
    rw [setMember, if_neg (Ne.symm h.1), ih h.2, List.cons_append]

theorem not_full {depth height : ℕ} (h : ∀ m ∈ d.maxDepth, depth + (height + 1) ≤ m) :
    ¬d.Full depth := by
  intro hfull
  obtain ⟨m, hm, hle⟩ := (Option.any_eq_true ..).mp hfull
  have := h m hm
  have := of_decide_eq_true hle
  omega

/-- A value that is one word or one number. -/
theorem parseValue_scalar {fuel depth : ℕ} {c : ℕ} {tail : List ℕ}
    (hc : c ≠ '"'.toNat ∧ c ≠ '\x7b'.toNat ∧ c ≠ '['.toNat) :
    parseValue d (fuel + 1) depth (c :: tail) = scanScalar d (c :: tail) := by
  rw [parseValue, if_neg hc.1, if_neg hc.2.1, if_neg hc.2.2]

theorem parseValue_string (hraw : Printable raw) {fuel depth : ℕ} {text : List ℕ}
    (htext : Whole text) (rest : List ℕ) :
    parseValue d (fuel + 1) depth (writeString raw text ++ rest) = .ok (.string text, rest) := by
  have hscan := scanString_points hraw htext.1 rest
  rw [writeString, List.cons_append, List.append_assoc, List.singleton_append, parseValue,
    if_pos rfl, hscan]
  simp only [joinEscapes_marked htext]

theorem parseValue_number {fuel depth : ℕ} {z : ℤ} (hz : d.Makes f z) {rest : List ℕ}
    (hrest : Ends rest) :
    parseValue d (fuel + 1) depth (writeInteger z ++ rest) = .ok (.number (f z), rest) := by
  have hscalar : scanScalar d (writeInteger z ++ rest) = .ok (.number (f z), rest) := by
    rw [scanScalar_of_scanNumber (scanNumber_write z hrest)]
    simp only [show d.number (literal z) = .ok (f z) from hz]
    rfl
  obtain ⟨c, tail, hwrite, hc⟩ := exists_writeInteger z
  rw [← hscalar, hwrite, List.cons_append]
  refine parseValue_scalar ?_
  rcases hc with rfl | ⟨d, hd, rfl⟩
  · decide
  · interval_cases d <;> decide

/-- An array, by its elements. -/
theorem parseValue_array {fuel depth : ℕ} {v : Value ℤ} {vs : List (Value ℤ)}
    {ws : List (Value μ)} (hdepth : ¬d.Full depth) {rest : List ℕ}
    (h : parseElements d fuel (depth + 1)
      (Value.writeElements raw (v :: vs) ++ ']'.toNat :: rest) = .ok (ws, rest)) :
    parseValue d (fuel + 1) depth ((Value.array (v :: vs)).write raw ++ rest) =
      .ok (.array ws, rest) := by
  obtain ⟨c, tail, hwrite, hspace, hend⟩ := @exists_write raw v
  rw [Value.writeElements, hwrite, List.cons_append, List.cons_append] at h
  rw [Value.write, Value.writeElements, hwrite]
  simp only [List.cons_append, List.append_assoc, List.nil_append]
  simp only [List.append_assoc] at h
  rw [parseValue, if_neg (by decide), if_neg (by decide), if_pos rfl, if_neg hdepth,
    skipSpace_cons hspace, List.head?_cons, if_neg (by simpa using hend), h]
  rfl

/-- An object, by its members. -/
theorem parseValue_object {fuel depth : ℕ} {name : List ℕ} {v : Value ℤ}
    {ms : List (List ℕ × Value ℤ)} {ns : List (List ℕ × Value μ)} (hdepth : ¬d.Full depth)
    {rest : List ℕ}
    (h : parseMembers d fuel (depth + 1) []
      (Value.writeMembers raw ((name, v) :: ms) ++ '\x7d'.toNat :: rest) = .ok (ns, rest)) :
    parseValue d (fuel + 1) depth ((Value.object ((name, v) :: ms)).write raw ++ rest) =
      .ok (.object ns, rest) := by
  rw [Value.writeMembers, writeString, List.cons_append, List.cons_append] at h
  rw [Value.write, Value.writeMembers, writeString]
  simp only [List.cons_append, List.append_assoc, List.nil_append]
  simp only [List.append_assoc, List.cons_append, List.nil_append] at h
  rw [parseValue, if_neg (by decide), if_pos rfl, if_neg hdepth, skipSpace_cons rfl,
    List.head?_cons, if_neg (by decide), h]
  rfl

/-- The elements, by the first one and the others. -/
theorem parseElements_cons {fuel depth : ℕ} {v : Value ℤ} {vs : List (Value ℤ)} {w : Value μ}
    {ws : List (Value μ)} {rest : List ℕ}
    (hv : ∀ rest, Ends rest → parseValue d fuel depth (v.write raw ++ rest) = .ok (w, rest))
    (hvs : vs ≠ [] → parseElements d fuel depth
      (Value.writeElements raw vs ++ ']'.toNat :: rest) = .ok (ws, rest))
    (hnil : vs = [] → ws = []) :
    parseElements d (fuel + 1) depth (Value.writeElements raw (v :: vs) ++ ']'.toNat :: rest) =
      .ok (w :: ws, rest) := by
  rw [Value.writeElements, List.append_assoc, parseElements]
  cases vs with
  | nil =>
    obtain rfl := hnil rfl
    rw [if_pos rfl, List.nil_append, hv _ (ends_cons (.inr (.inl rfl)) rest)]
    simp only [bind, Except.bind]
    rw [skipSpace_cons rfl]
    rfl
  | cons v' vs =>
    rw [if_neg (List.cons_ne_nil _ _), List.cons_append, hv _ (ends_cons (.inl rfl) _)]
    simp only [bind, Except.bind]
    have hskip : skipSpace (Value.writeElements raw (v' :: vs) ++ ']'.toNat :: rest) =
        Value.writeElements raw (v' :: vs) ++ ']'.toNat :: rest := by
      rw [Value.writeElements, List.append_assoc]
      exact skipSpace_write v' _
    rw [skipSpace_cons rfl]
    simp only [if_true, hskip, hvs (List.cons_ne_nil _ _)]

/-- The members, by the first one and the others. -/
theorem parseMembers_cons (hraw : Printable raw) {fuel depth : ℕ} {name : List ℕ} {v : Value ℤ}
    {ms : List (List ℕ × Value ℤ)} {w : Value μ} {before ns : List (List ℕ × Value μ)}
    {rest : List ℕ} (hname : Whole name) (hnew : name ∉ before.map Prod.fst)
    (hv : ∀ rest, Ends rest → parseValue d fuel depth (v.write raw ++ rest) = .ok (w, rest))
    (hms : ms ≠ [] → parseMembers d fuel depth (before ++ [(name, w)])
      (Value.writeMembers raw ms ++ '\x7d'.toNat :: rest) =
        .ok (before ++ (name, w) :: ns, rest))
    (hnil : ms = [] → ns = []) :
    parseMembers d (fuel + 1) depth before
      (Value.writeMembers raw ((name, v) :: ms) ++ '\x7d'.toNat :: rest) =
        .ok (before ++ (name, w) :: ns, rest) := by
  have hscan (after : List ℕ) := scanString_points hraw hname.1 after
  rw [Value.writeMembers, writeString]
  simp only [List.cons_append, List.append_assoc, List.nil_append]
  rw [parseMembers, if_neg (by simp), hscan]
  simp only []
  rw [skipSpace_cons rfl, List.head?_cons, if_neg (by simp), List.tail_cons, skipSpace_write]
  cases ms with
  | nil =>
    obtain rfl := hnil rfl
    rw [if_pos rfl, List.nil_append, hv _ (ends_cons (.inr (.inr rfl)) rest)]
    simp only [bind, Except.bind]
    rw [skipSpace_cons rfl, joinEscapes_marked hname, setMember_of_notMem hnew]
    rfl
  | cons m ms =>
    rw [if_neg (List.cons_ne_nil _ _), List.cons_append, hv _ (ends_cons (.inl rfl) _)]
    simp only [bind, Except.bind]
    have hskip : skipSpace (Value.writeMembers raw (m :: ms) ++ '\x7d'.toNat :: rest) =
        Value.writeMembers raw (m :: ms) ++ '\x7d'.toNat :: rest := by
      rw [Value.writeMembers, writeString, List.append_assoc, List.cons_append, skipSpace_cons rfl]
    rw [skipSpace_cons rfl]
    simp only [if_true, hskip, joinEscapes_marked hname, setMember_of_notMem hnew,
      hms (List.cons_ne_nil _ _)]

theorem length_writeElements_cons (v : Value ℤ) (vs : List (Value ℤ)) :
    (v.write raw).length ≤ (Value.writeElements raw (v :: vs)).length ∧
      (vs ≠ [] → (v.write raw).length + (Value.writeElements raw vs).length + 1 =
        (Value.writeElements raw (v :: vs)).length) := by
  rw [Value.writeElements, List.length_append]
  split
  · simp_all
  · simp only [List.length_cons]
    omega

theorem length_writeMembers_cons (name : List ℕ) (v : Value ℤ) (ms : List (List ℕ × Value ℤ)) :
    (v.write raw).length + 2 ≤ (Value.writeMembers raw ((name, v) :: ms)).length ∧
      (ms ≠ [] → (v.write raw).length + (Value.writeMembers raw ms).length + 2 ≤
        (Value.writeMembers raw ((name, v) :: ms)).length) := by
  rw [Value.writeMembers, writeString]
  simp only [List.length_append, List.length_cons]
  split
  · simp_all
    omega
  · simp only [List.length_cons]
    omega

mutual

/-- The text of a value is read as that value, whatever follows. -/
theorem parseValue_write (hraw : Printable raw) :
    ∀ (v : Value ℤ) (fuel depth : ℕ) (rest : List ℕ), 2 * (v.write raw).length ≤ fuel →
      (∀ m ∈ d.maxDepth, depth + v.height ≤ m) → v.Distinct → v.Numbers (d.Makes f) → Ends rest →
        parseValue d (fuel + 1) depth (v.write raw ++ rest) = .ok (v.map f, rest)
  | .null, fuel, depth, rest, _, _, _, _, _ => by
      rw [Value.write, Value.map]
      exact parseValue_scalar (by decide)
  | .bool b, fuel, depth, rest, _, _, _, _, _ => by
      cases b <;> rw [Value.write, Value.map] <;> exact parseValue_scalar (by decide)
  | .number z, fuel, depth, rest, _, _, _, hz, hrest => by
      rw [Value.write, Value.map]
      exact parseValue_number hz hrest
  | .string text, fuel, depth, rest, _, _, htext, _, _ => by
      rw [Value.write, Value.map]
      exact parseValue_string hraw htext rest
  | .array [], fuel, depth, rest, _, hdepth, _, _, _ => by
      rw [Value.map, Value.mapElements, Value.write, Value.writeElements]
      simp only [List.cons_append, List.nil_append]
      rw [parseValue, if_neg (by decide), if_neg (by decide), if_pos rfl,
        if_neg (@not_full _ d _ 0 hdepth), skipSpace_cons rfl, List.head?_cons, if_pos rfl]
      rfl
  | .array (v :: vs), 0, _, _, hfuel, _, _, _, _ => absurd hfuel (by simp [Value.write])
  | .array (v :: vs), fuel + 1, depth, rest, hfuel, hdepth, hv, hn, hrest => by
      rw [Value.height] at hdepth
      rw [Value.write, List.length_cons, List.length_append] at hfuel
      rw [Value.map]
      refine parseValue_array (not_full hdepth) ?_
      refine parseElements_write hraw (v :: vs) fuel (depth + 1) rest (List.cons_ne_nil _ _)
        (by omega) (fun m hm => ?_) hv hn
      have := hdepth m hm
      omega
  | .object [], fuel, depth, rest, _, hdepth, _, _, _ => by
      rw [Value.map, Value.mapMembers, Value.write, Value.writeMembers]
      simp only [List.cons_append, List.nil_append]
      rw [parseValue, if_neg (by decide), if_pos rfl, if_neg (@not_full _ d _ 0 hdepth),
        skipSpace_cons rfl, List.head?_cons, if_pos rfl]
      rfl
  | .object ((name, v) :: ms), 0, _, _, hfuel, _, _, _, _ => absurd hfuel (by simp [Value.write])
  | .object ((name, v) :: ms), fuel + 1, depth, rest, hfuel, hdepth, hv, hn, hrest => by
      rw [Value.height] at hdepth
      rw [Value.write, List.length_cons, List.length_append] at hfuel
      rw [Value.map]
      refine parseValue_object (not_full hdepth) ?_
      refine parseMembers_write hraw ((name, v) :: ms) fuel (depth + 1) [] rest
        (List.cons_ne_nil _ _) (by omega) (fun m hm => ?_) hv.1 hv.2 hn
      have := hdepth m hm
      omega

/-- The elements of an array are read. -/
theorem parseElements_write (hraw : Printable raw) :
    ∀ (vs : List (Value ℤ)) (fuel depth : ℕ) (rest : List ℕ), vs ≠ [] →
      2 * (Value.writeElements raw vs).length + 1 ≤ fuel →
      (∀ m ∈ d.maxDepth, depth + Value.elementsHeight vs ≤ m) → Value.ElementsDistinct vs →
      Value.ElementsNumbers (d.Makes f) vs →
        parseElements d (fuel + 1) depth (Value.writeElements raw vs ++ ']'.toNat :: rest) =
          .ok (Value.mapElements f vs, rest)
  | [], _, _, _, hne, _, _, _, _ => absurd rfl hne
  | v :: vs, 0, _, _, _, hfuel, _, _, _ => absurd hfuel (by omega)
  | v :: vs, fuel + 1, depth, rest, _, hfuel, hdepth, hv, hn => by
      obtain ⟨hfirst, hothers⟩ := @length_writeElements_cons raw v vs
      rw [Value.mapElements]
      refine parseElements_cons (fun rest hrest => ?_) (fun hvs => ?_) fun hvs => ?_
      · refine parseValue_write hraw v fuel depth rest (by omega) (fun m hm => ?_) hv.1 hn.1 hrest
        have := hdepth m hm
        rw [Value.elementsHeight] at this
        omega
      · have hlength := hothers hvs
        refine parseElements_write hraw vs fuel depth rest hvs (by omega) (fun m hm => ?_) hv.2 hn.2
        have := hdepth m hm
        rw [Value.elementsHeight] at this
        omega
      · rw [hvs, Value.mapElements]

/-- The members of an object are read, after those before. -/
theorem parseMembers_write (hraw : Printable raw) :
    ∀ (ms : List (List ℕ × Value ℤ)) (fuel depth : ℕ) (before : List (List ℕ × Value μ))
      (rest : List ℕ), ms ≠ [] → 2 * (Value.writeMembers raw ms).length + 1 ≤ fuel →
      (∀ m ∈ d.maxDepth, depth + Value.membersHeight ms ≤ m) →
      (before.map Prod.fst ++ ms.map Prod.fst).Nodup → Value.MembersDistinct ms →
      Value.MembersNumbers (d.Makes f) ms →
        parseMembers d (fuel + 1) depth before
          (Value.writeMembers raw ms ++ '\x7d'.toNat :: rest) =
            .ok (before ++ Value.mapMembers f ms, rest)
  | [], _, _, _, _, hne, _, _, _, _, _ => absurd rfl hne
  | (name, v) :: ms, 0, _, _, _, _, hfuel, _, _, _, _ => absurd hfuel (by omega)
  | (name, v) :: ms, fuel + 1, depth, before, rest, _, hfuel, hdepth, hnames, hv, hn => by
      obtain ⟨hfirst, hothers⟩ := @length_writeMembers_cons raw name v ms
      obtain ⟨hname, hvalue, hrest⟩ := hv
      have hnew : name ∉ before.map Prod.fst := by
        intro hmem
        exact (List.nodup_append.mp hnames).2.2 name hmem name (List.mem_cons_self ..) rfl
      rw [Value.mapMembers]
      refine parseMembers_cons hraw hname hnew (fun rest hrest => ?_) (fun hms => ?_) fun hms => ?_
      · refine parseValue_write hraw v fuel depth rest (by omega) (fun m hm => ?_) hvalue hn.1 hrest
        have := hdepth m hm
        rw [Value.membersHeight] at this
        omega
      · have hlength := hothers hms
        have hmore := parseMembers_write hraw ms fuel depth (before ++ [(name, v.map f)]) rest hms
          (by omega) (fun m hm => ?_) (by simpa using hnames) hrest hn.2
        · simpa using hmore
        have := hdepth m hm
        rw [Value.membersHeight] at this
        omega
      · rw [hms, Value.mapMembers]

end

/-- **A value is read back from its text.** -/
theorem parse_write (hraw : Printable raw) {v : Value ℤ} (hdistinct : v.Distinct)
    (hnumbers : v.Numbers (d.Makes f)) (hdepth : ∀ m ∈ d.maxDepth, v.height ≤ m) :
    parse d (v.write raw) = .ok (v.map f) := by
  have hread := parseValue_write hraw v (2 * (v.write raw).length) 0 [] le_rfl
    (fun m hm => by simpa using hdepth m hm) hdistinct hnumbers ends_nil
  have hskip := @skipSpace_write raw v []
  rw [List.append_nil] at hread hskip
  rw [parse, hskip, hread]
  rfl

end Reading

end Json
