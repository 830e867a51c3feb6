import Mathlib.Data.List.Basic
import Mathlib.Data.Rat.Defs
import Atlas.Lib.Unicode

/-!
# JSON texts

A text is a list of code points, and a value is read from it by recursive descent.  Readers of
different languages take the same grammar; they differ in the numbers they make of the
literals, in the constants for numbers that are not finite, which some of them take, and in
the nesting they allow.  These are the parameters of a dialect.

Members of an object with one name are one member, with the last value.  A pair of escaped
surrogates is one code point; a surrogate on its own is kept.

The recursion is on fuel, of which a text never needs more than twice its length.

## Main definitions

* `Value` — the values, over the numbers of a language.
* `Value.Numbers`, `Value.Rel` — a property of all the numbers of a value, and two values that
  are the same up to their numbers.
* `Literal`, `Dialect` — the literal of a number, and what a language makes of it.
* `parse` — the value of a text.

## Main results

* `Value.Rel.rel_iff` — of values that are the same up to their numbers, the numbers tell
  whether they are so in a closer sense.
* `parse_ne_noFuel` — **the fuel is enough for every text**.
-/

namespace Json

/-! ### Values -/

/-- A value, with numbers in `ν`. -/
inductive Value (ν : Type) : Type
  | null
  | bool (b : Bool)
  | number (n : ν)
  | string (text : List ℕ)
  | array (elements : List (Value ν))
  | object (members : List (List ℕ × Value ν))

/-- The member of a name, in a list of members. -/
def member? {ν : Type} (name : List ℕ) (members : List (List ℕ × Value ν)) : Option (Value ν) :=
  members.lookup name

/-- Give a member its value, at the place it has. -/
def setMember {ν : Type} (name : List ℕ) (value : Value ν) :
    List (List ℕ × Value ν) → List (List ℕ × Value ν)
  | [] => [(name, value)]
  | m :: members =>
      if m.1 = name then (name, value) :: members else m :: setMember name value members

/-- The code points of a text. -/
def codes (text : String) : List ℕ := text.toList.map Char.toNat

/-! ### Values up to their numbers -/

section Relation

variable {ν μ : Type}

mutual

/-- Every number in a value is as `P` says. -/
def Value.Numbers (P : ν → Prop) : Value ν → Prop
  | .number n => P n
  | .array elements => Value.ElementsNumbers P elements
  | .object members => Value.MembersNumbers P members
  | _ => True

def Value.ElementsNumbers (P : ν → Prop) : List (Value ν) → Prop
  | [] => True
  | v :: vs => v.Numbers P ∧ Value.ElementsNumbers P vs

def Value.MembersNumbers (P : ν → Prop) : List (List ℕ × Value ν) → Prop
  | [] => True
  | (_, v) :: ms => v.Numbers P ∧ Value.MembersNumbers P ms

end

mutual

/-- Two values that are the same up to their numbers, which are as `R` says. -/
def Value.Rel (R : ν → μ → Prop) : Value ν → Value μ → Prop
  | .null, .null => True
  | .bool b, .bool c => b = c
  | .number n, .number m => R n m
  | .string s, .string t => s = t
  | .array vs, .array ws => Value.ElementsRel R vs ws
  | .object ms, .object ns => Value.MembersRel R ms ns
  | _, _ => False

def Value.ElementsRel (R : ν → μ → Prop) : List (Value ν) → List (Value μ) → Prop
  | [], [] => True
  | v :: vs, w :: ws => v.Rel R w ∧ Value.ElementsRel R vs ws
  | _, _ => False

def Value.MembersRel (R : ν → μ → Prop) :
    List (List ℕ × Value ν) → List (List ℕ × Value μ) → Prop
  | [], [] => True
  | (name, v) :: ms, (other, w) :: ns => name = other ∧ v.Rel R w ∧ Value.MembersRel R ms ns
  | _, _ => False

end

variable {R S : ν → μ → Prop} {P : ν → Prop}

mutual

/-- Of values that are the same up to `R`, the numbers tell whether they are up to `S`. -/
theorem Value.Rel.rel_iff (hRS : ∀ n m, R n m → (S n m ↔ P n)) :
    ∀ {v : Value ν} {w : Value μ}, v.Rel R w → (v.Rel S w ↔ v.Numbers P)
  | .null, w, h => by cases w <;> simp_all [Value.Rel, Value.Numbers]
  | .bool b, w, h => by cases w <;> simp_all [Value.Rel, Value.Numbers]
  | .number n, w, h => by
      cases w with
      | number m =>
        simp only [Value.Rel, Value.Numbers] at h ⊢
        exact hRS n m h
      | _ => exact h.elim
  | .string s, w, h => by cases w <;> simp_all [Value.Rel, Value.Numbers]
  | .array vs, w, h => by
      cases w with
      | array ws =>
        simp only [Value.Rel, Value.Numbers] at h ⊢
        exact Value.ElementsRel.rel_iff hRS h
      | _ => exact h.elim
  | .object ms, w, h => by
      cases w with
      | object ns =>
        simp only [Value.Rel, Value.Numbers] at h ⊢
        exact Value.MembersRel.rel_iff hRS h
      | _ => exact h.elim

theorem Value.ElementsRel.rel_iff (hRS : ∀ n m, R n m → (S n m ↔ P n)) :
    ∀ {vs : List (Value ν)} {ws : List (Value μ)}, Value.ElementsRel R vs ws →
      (Value.ElementsRel S vs ws ↔ Value.ElementsNumbers P vs)
  | [], [], _ => by simp [Value.ElementsRel, Value.ElementsNumbers]
  | [], _ :: _, h => h.elim
  | _ :: _, [], h => h.elim
  | v :: vs, w :: ws, h => by
      simp only [Value.ElementsRel, Value.ElementsNumbers] at h ⊢
      rw [Value.Rel.rel_iff hRS h.1, Value.ElementsRel.rel_iff hRS h.2]

theorem Value.MembersRel.rel_iff (hRS : ∀ n m, R n m → (S n m ↔ P n)) :
    ∀ {ms : List (List ℕ × Value ν)} {ns : List (List ℕ × Value μ)}, Value.MembersRel R ms ns →
      (Value.MembersRel S ms ns ↔ Value.MembersNumbers P ms)
  | [], [], _ => by simp [Value.MembersRel, Value.MembersNumbers]
  | [], _ :: _, h => h.elim
  | _ :: _, [], h => h.elim
  | (name, v) :: ms, (other, w) :: ns, h => by
      simp only [Value.MembersRel, Value.MembersNumbers] at h ⊢
      rw [Value.Rel.rel_iff hRS h.2.1, Value.MembersRel.rel_iff hRS h.2.2]
      simp [h.1]

end

mutual

theorem Value.Rel.mono (hRS : ∀ n m, R n m → S n m) :
    ∀ {v : Value ν} {w : Value μ}, v.Rel R w → v.Rel S w
  | .null, w, h => by cases w <;> simp_all [Value.Rel]
  | .bool b, w, h => by cases w <;> simp_all [Value.Rel]
  | .number n, w, h => by
      cases w with
      | number m => exact hRS n m h
      | _ => exact h.elim
  | .string s, w, h => by cases w <;> simp_all [Value.Rel]
  | .array vs, w, h => by
      cases w with
      | array ws =>
        simp only [Value.Rel] at h ⊢
        exact Value.ElementsRel.mono hRS h
      | _ => exact h.elim
  | .object ms, w, h => by
      cases w with
      | object ns =>
        simp only [Value.Rel] at h ⊢
        exact Value.MembersRel.mono hRS h
      | _ => exact h.elim

theorem Value.ElementsRel.mono (hRS : ∀ n m, R n m → S n m) :
    ∀ {vs : List (Value ν)} {ws : List (Value μ)}, Value.ElementsRel R vs ws →
      Value.ElementsRel S vs ws
  | [], [], h => h
  | [], _ :: _, h => h.elim
  | _ :: _, [], h => h.elim
  | _ :: _, _ :: _, h => ⟨Value.Rel.mono hRS h.1, Value.ElementsRel.mono hRS h.2⟩

theorem Value.MembersRel.mono (hRS : ∀ n m, R n m → S n m) :
    ∀ {ms : List (List ℕ × Value ν)} {ns : List (List ℕ × Value μ)}, Value.MembersRel R ms ns →
      Value.MembersRel S ms ns
  | [], [], h => h
  | [], _ :: _, h => h.elim
  | _ :: _, [], h => h.elim
  | (_, _) :: _, (_, _) :: _, h =>
      ⟨h.1, Value.Rel.mono hRS h.2.1, Value.MembersRel.mono hRS h.2.2⟩

end

end Relation

/-! ### Literals and dialects -/

/-- The literal of a number: its sign, its digits, and the exponent if there is one. -/
structure Literal where
  negative : Bool
  whole : List ℕ
  fraction : List ℕ
  exponent : Option ℤ
  deriving DecidableEq, Repr

/-- The number that decimal digits stand for. -/
def decimal (digits : List ℕ) : ℕ := digits.foldl (fun n d => n * 10 + d) 0

/-- The literal has neither a fraction nor an exponent. -/
def Literal.IsInteger (l : Literal) : Prop := l.fraction = [] ∧ l.exponent = none

instance (l : Literal) : Decidable l.IsInteger := inferInstanceAs (Decidable (_ ∧ _))

/-- The integer before the fraction. -/
def Literal.integer (l : Literal) : ℤ := if l.negative then -decimal l.whole else decimal l.whole

/-- The number the literal stands for. -/
def Literal.value (l : Literal) : ℚ :=
  let m : ℚ := decimal (l.whole ++ l.fraction) / 10 ^ l.fraction.length * 10 ^ l.exponent.getD 0
  if l.negative then -m else m

/-- The constants that some languages take. -/
inductive Constant
  | nan
  | infinity
  | negativeInfinity
  deriving DecidableEq, Repr

/-- Why a text has no value. -/
inductive Failure
  | malformed
  | tooManyDigits
  | tooDeep
  | noFuel
  deriving DecidableEq, Repr

/-- What a language makes of the literals and the constants, and how deep it goes. -/
structure Dialect (ν : Type) where
  number : Literal → Except Failure ν
  constant : Constant → Option ν
  maxDepth : Option ℕ

/-! ### Scanners -/

def isSpace (c : ℕ) : Bool := c = 0x20 ∨ c = 0x09 ∨ c = 0x0A ∨ c = 0x0D

/-- The text without white space at its beginning. -/
def skipSpace (cs : List ℕ) : List ℕ := cs.dropWhile isSpace

def digit? (c : ℕ) : Option ℕ := if 0x30 ≤ c ∧ c ≤ 0x39 then some (c - 0x30) else none

def hexDigit? (c : ℕ) : Option ℕ :=
  if 0x30 ≤ c ∧ c ≤ 0x39 then some (c - 0x30)
  else if 0x41 ≤ c ∧ c ≤ 0x46 then some (c - 0x37)
  else if 0x61 ≤ c ∧ c ≤ 0x66 then some (c - 0x57)
  else none

/-- The digits at the beginning of a text, and what follows. -/
def scanDigits : List ℕ → List ℕ × List ℕ
  | [] => ([], [])
  | c :: rest =>
      match digit? c with
      | some d => (d :: (scanDigits rest).1, (scanDigits rest).2)
      | none => ([], c :: rest)

/-- A zero, or digits that do not begin with one. -/
def scanWhole : List ℕ → Option (List ℕ × List ℕ)
  | [] => none
  | c :: rest =>
      if c = 0x30 then some ([0], rest)
      else if (scanDigits (c :: rest)).1 = [] then none
      else some (scanDigits (c :: rest))

/-- A fraction, if there is one. -/
def scanFraction : List ℕ → List ℕ × List ℕ
  | [] => ([], [])
  | c :: rest =>
      if c = '.'.toNat ∧ (scanDigits rest).1 ≠ [] then scanDigits rest else ([], c :: rest)

/-- A sign, if there is one. -/
def scanSign : List ℕ → Bool × List ℕ
  | [] => (false, [])
  | c :: rest =>
      if c = '-'.toNat then (true, rest)
      else if c = '+'.toNat then (false, rest)
      else (false, c :: rest)

/-- An exponent, if there is one. -/
def scanExponent : List ℕ → Option ℤ × List ℕ
  | [] => (none, [])
  | c :: rest =>
      let sign := scanSign rest
      let digits := scanDigits sign.2
      if (c = 'e'.toNat ∨ c = 'E'.toNat) ∧ digits.1 ≠ [] then
        (some (if sign.1 then -decimal digits.1 else decimal digits.1), digits.2)
      else (none, c :: rest)

/-- The literal of a number. -/
def scanNumber (cs : List ℕ) : Option (Literal × List ℕ) :=
  let negative := cs.head? = some '-'.toNat
  (scanWhole (if negative then cs.tail else cs)).map fun whole =>
    let fraction := scanFraction whole.2
    let exponent := scanExponent fraction.2
    ({ negative := negative
       whole := whole.1
       fraction := fraction.1
       exponent := exponent.1 }, exponent.2)

/-- The code point of an escape of one character. -/
def escape? (c : ℕ) : Option ℕ :=
  if c = '"'.toNat ∨ c = '\\'.toNat ∨ c = '/'.toNat then some c
  else if c = 'b'.toNat then some 0x08
  else if c = 'f'.toNat then some 0x0C
  else if c = 'n'.toNat then some 0x0A
  else if c = 'r'.toNat then some 0x0D
  else if c = 't'.toNat then some 0x09
  else none

/-- The unit of an escape by four hexadecimal digits. -/
def hexUnit? (a b c d : ℕ) : Option ℕ := do
  let a ← hexDigit? a
  let b ← hexDigit? b
  let c ← hexDigit? c
  let d ← hexDigit? d
  some (((a * 16 + b) * 16 + c) * 16 + d)

/-- A string after its opening quote: its code points, with a mark on the units that are
escaped by their number. -/
def scanString : List ℕ → Option (List (ℕ × Bool) × List ℕ)
  | [] => none
  | c :: rest =>
      if c = '"'.toNat then some ([], rest)
      else if c < 0x20 then none
      else if c = '\\'.toNat then
        match rest with
        | [] => none
        | e :: rest =>
            match escape? e with
            | some p => (scanString rest).map fun r => ((p, false) :: r.1, r.2)
            | none =>
                if e = 'u'.toNat then
                  match rest with
                  | a :: b :: c :: d :: rest =>
                      match hexUnit? a b c d with
                      | some u => (scanString rest).map fun r => ((u, true) :: r.1, r.2)
                      | none => none
                  | _ => none
                else none
      else (scanString rest).map fun r => ((c, false) :: r.1, r.2)

/-- The code points of a string, in which an escaped high surrogate takes the escaped low one
that follows. -/
def joinEscapes : List (ℕ × Bool) → List ℕ
  | (high, true) :: (low, true) :: rest =>
      if Unicode.IsHigh high ∧ Unicode.IsLow low then
        Unicode.joined high low :: joinEscapes rest
      else high :: joinEscapes ((low, true) :: rest)
  | c :: rest => c.1 :: joinEscapes rest
  | [] => []

/-- What follows a word at the beginning of a text. -/
def scanWord (word : String) (cs : List ℕ) : Option (List ℕ) :=
  if (codes word).isPrefixOf cs then some (cs.drop (codes word).length) else none

/-! ### The parser -/

section Parser

variable {ν : Type} (dialect : Dialect ν)

/-- A value that is one word or one number. -/
def scanScalar (cs : List ℕ) : Except Failure (Value ν × List ℕ) :=
  let constant (c : Constant) (word : String) : Option (Value ν × List ℕ) :=
    (dialect.constant c).bind fun n => (scanWord word cs).map (.number n, ·)
  let words :=
    ((scanWord "null" cs).map (.null, ·)).or <|
    ((scanWord "true" cs).map (.bool true, ·)).or <|
    ((scanWord "false" cs).map (.bool false, ·)).or <|
    (constant .nan "NaN").or <|
    (constant .infinity "Infinity").or (constant .negativeInfinity "-Infinity")
  match words, scanNumber cs with
  | some r, _ => .ok r
  | none, some (literal, rest) => (dialect.number literal).map fun n => (.number n, rest)
  | none, none => .error .malformed

/-- As many containers are open as the language allows. -/
def Dialect.Full (depth : ℕ) : Prop := dialect.maxDepth.any (· ≤ depth) = true

instance (depth : ℕ) : Decidable (dialect.Full depth) := inferInstanceAs (Decidable (_ = true))

mutual

/-- The value at the beginning of a text, and what follows. -/
def parseValue : ℕ → ℕ → List ℕ → Except Failure (Value ν × List ℕ)
  | 0, _, _ => .error .noFuel
  | _ + 1, _, [] => .error .malformed
  | fuel + 1, depth, c :: rest =>
      if c = '"'.toNat then
        match scanString rest with
        | some (text, rest) => .ok (.string (joinEscapes text), rest)
        | none => .error .malformed
      else if c = '\x7b'.toNat then
        if dialect.Full depth then .error .tooDeep
        else if (skipSpace rest).head? = some '\x7d'.toNat then
          .ok (.object [], (skipSpace rest).tail)
        else do
          let (members, rest) ← parseMembers fuel (depth + 1) [] (skipSpace rest)
          .ok (.object members, rest)
      else if c = '['.toNat then
        if dialect.Full depth then .error .tooDeep
        else if (skipSpace rest).head? = some ']'.toNat then .ok (.array [], (skipSpace rest).tail)
        else do
          let (elements, rest) ← parseElements fuel (depth + 1) (skipSpace rest)
          .ok (.array elements, rest)
      else scanScalar dialect (c :: rest)

/-- The elements of an array, up to its end. -/
def parseElements : ℕ → ℕ → List ℕ → Except Failure (List (Value ν) × List ℕ)
  | 0, _, _ => .error .noFuel
  | fuel + 1, depth, cs => do
      let (value, rest) ← parseValue fuel depth cs
      match skipSpace rest with
      | c :: rest =>
          if c = ','.toNat then do
            let (values, rest) ← parseElements fuel depth (skipSpace rest)
            .ok (value :: values, rest)
          else if c = ']'.toNat then .ok ([value], rest)
          else .error .malformed
      | [] => .error .malformed

/-- The members of an object, up to its end, after those before. -/
def parseMembers : ℕ → ℕ → List (List ℕ × Value ν) → List ℕ →
    Except Failure (List (List ℕ × Value ν) × List ℕ)
  | 0, _, _, _ => .error .noFuel
  | fuel + 1, depth, members, cs =>
      match cs with
      | [] => .error .malformed
      | c :: rest =>
          if c ≠ '"'.toNat then .error .malformed
          else
            match scanString rest with
            | none => .error .malformed
            | some (name, rest) =>
                if (skipSpace rest).head? ≠ some ':'.toNat then .error .malformed
                else do
                  let (value, rest) ← parseValue fuel depth (skipSpace (skipSpace rest).tail)
                  let members := setMember (joinEscapes name) value members
                  match skipSpace rest with
                  | c :: rest =>
                      if c = ','.toNat then parseMembers fuel depth members (skipSpace rest)
                      else if c = '\x7d'.toNat then .ok (members, rest)
                      else .error .malformed
                  | [] => .error .malformed

end

/-- The value of a text. -/
def parse (cs : List ℕ) : Except Failure (Value ν) := do
  let (value, rest) ← parseValue dialect (2 * cs.length + 1) 0 (skipSpace cs)
  if skipSpace rest = [] then .ok value else .error .malformed

end Parser

/-! ### The fuel -/

section Fuel

variable {ν : Type}

theorem length_skipSpace_le (cs : List ℕ) : (skipSpace cs).length ≤ cs.length :=
  (List.dropWhile_sublist _).length_le

theorem length_scanDigits_le (cs : List ℕ) : (scanDigits cs).2.length ≤ cs.length := by
  induction cs with
  | nil => exact le_rfl
  | cons c rest ih =>
    rw [scanDigits]
    cases digit? c with
    | none => exact le_rfl
    | some d =>
      simp only [List.length_cons]
      omega

theorem length_scanWhole_lt {cs : List ℕ} {r : List ℕ × List ℕ} (h : scanWhole cs = some r) :
    r.2.length < cs.length := by
  cases cs with
  | nil => exact absurd h (by simp [scanWhole])
  | cons c rest =>
    simp only [scanWhole] at h
    split_ifs at h with hzero hdigits
    · rw [← Option.some.inj h]
      exact Nat.lt_succ_self _
    · rw [← Option.some.inj h]
      have hle := length_scanDigits_le rest
      rw [scanDigits] at hdigits ⊢
      cases hd : digit? c with
      | none => simp [hd] at hdigits
      | some d =>
        simp only [List.length_cons]
        omega

theorem length_scanFraction_le (cs : List ℕ) : (scanFraction cs).2.length ≤ cs.length := by
  cases cs with
  | nil => exact le_rfl
  | cons c rest =>
    have hle := length_scanDigits_le rest
    rw [scanFraction]
    split_ifs
    · simp only [List.length_cons]
      omega
    · exact le_rfl

theorem length_scanSign_le (cs : List ℕ) : (scanSign cs).2.length ≤ cs.length := by
  cases cs with
  | nil => exact le_rfl
  | cons c rest =>
    rw [scanSign]
    split_ifs
    · exact Nat.le_succ _
    · exact Nat.le_succ _
    · exact le_rfl

theorem length_scanExponent_le (cs : List ℕ) : (scanExponent cs).2.length ≤ cs.length := by
  cases cs with
  | nil => exact le_rfl
  | cons c rest =>
    have hsign := length_scanSign_le rest
    have hdigits := length_scanDigits_le (scanSign rest).2
    rw [scanExponent]
    by_cases hexponent : (c = 'e'.toNat ∨ c = 'E'.toNat) ∧ (scanDigits (scanSign rest).2).1 ≠ []
    · rw [if_pos hexponent]
      exact (hdigits.trans hsign).trans (Nat.le_succ _)
    · rw [if_neg hexponent]

theorem length_scanNumber_lt {cs : List ℕ} {r : Literal × List ℕ} (h : scanNumber cs = some r) :
    r.2.length < cs.length := by
  obtain ⟨whole, hwhole, rfl⟩ := Option.map_eq_some_iff.mp h
  have hlt := length_scanWhole_lt hwhole
  have hfraction := length_scanFraction_le whole.2
  have hexponent := length_scanExponent_le (scanFraction whole.2).2
  have hsign : (if cs.head? = some '-'.toNat then cs.tail else cs).length ≤ cs.length := by
    split_ifs
    · simp
    · exact le_rfl
  show (scanExponent (scanFraction whole.2).2).2.length < cs.length
  omega

theorem length_scanWord_lt {word : String} {cs rest : List ℕ} (hword : codes word ≠ [])
    (h : scanWord word cs = some rest) : rest.length < cs.length := by
  rw [scanWord] at h
  split_ifs at h with hpre
  have hle := (List.isPrefixOf_iff_prefix.mp hpre).length_le
  have hpos := List.length_pos_iff.mpr hword
  rw [← Option.some.inj h, List.length_drop]
  omega


theorem length_scanString_lt {cs : List ℕ} {r : List (ℕ × Bool) × List ℕ}
    (h : scanString cs = some r) : r.2.length < cs.length := by
  have hmap : ∀ {rest : List ℕ} {p : ℕ × Bool} {r : List (ℕ × Bool) × List ℕ},
      (∀ {r : List (ℕ × Bool) × List ℕ}, scanString rest = some r → r.2.length < rest.length) →
      (scanString rest).map (fun r => (p :: r.1, r.2)) = some r → r.2.length < rest.length := by
    intro rest p r ih hr
    obtain ⟨r', hr', rfl⟩ := Option.map_eq_some_iff.mp hr
    have hlt := ih hr'
    exact hlt
  fun_induction scanString cs generalizing r with
  | case1 => exact absurd h (by simp)
  | case2 => 
    rw [← Option.some.inj h]
    exact Nat.lt_succ_self _
  | case5 e rest p he _ _ ih => 
    have := hmap ih h
    simp only [List.length_cons]
    omega
  | case6 a b c d rest u hu _ _ _ ih =>
    have := hmap ih h
    simp only [List.length_cons]
    omega
  | case10 c rest _ _ _ ih => 
    have := hmap ih h
    simp only [List.length_cons]
    omega
  | _ => exact absurd h (by simp)

/-- What a scanner or a parser makes of a text: it does not run out of fuel, and it leaves less
of the text than there was. -/
def Advances {α : Type} (cs : List ℕ) (r : Except Failure (α × List ℕ)) : Prop :=
  match r with
  | .ok r => r.2.length < cs.length
  | .error f => f ≠ .noFuel

theorem Advances.of_le {α : Type} {cs ds : List ℕ} {r : Except Failure (α × List ℕ)}
    (hr : Advances cs r) (hle : cs.length ≤ ds.length) : Advances ds r := by
  cases r with
  | ok r => exact lt_of_lt_of_le hr hle
  | error f => exact hr

theorem Advances.bind {α β : Type} {cs : List ℕ} {r : Except Failure (α × List ℕ)}
    {f : α × List ℕ → Except Failure (β × List ℕ)} (hr : Advances cs r)
    (hf : ∀ a rest, rest.length < cs.length → Advances cs (f (a, rest))) :
    Advances cs (r >>= f) := by
  cases r with
  | ok r => exact hf r.1 r.2 hr
  | error e => exact hr

theorem advances_scanScalar {dialect : Dialect ν}
    (hnumber : ∀ l, dialect.number l ≠ .error .noFuel) (cs : List ℕ) :
    Advances cs (scanScalar dialect cs) := by
  have hword : ∀ {word : String} {r : Value ν × List ℕ} {v : Value ν}, codes word ≠ [] →
      (scanWord word cs).map (v, ·) = some r → r.2.length < cs.length := by
    intro word r v hne hr
    obtain ⟨rest, hrest, rfl⟩ := Option.map_eq_some_iff.mp hr
    exact length_scanWord_lt hne hrest
  have hconstant : ∀ {c : Constant} {word : String} {r : Value ν × List ℕ}, codes word ≠ [] →
      ((dialect.constant c).bind fun n => (scanWord word cs).map (Value.number n, ·)) = some r →
        r.2.length < cs.length := by
    intro c word r hne hr
    obtain ⟨n, -, hr⟩ := Option.bind_eq_some_iff.mp hr
    exact hword hne hr
  simp only [scanScalar]
  split
  · next r hr =>
    simp only [Option.or_eq_some_iff] at hr
    rcases hr with hr | ⟨-, hr | ⟨-, hr | ⟨-, hr | ⟨-, hr | ⟨-, hr⟩⟩⟩⟩⟩
    · exact hword (by decide) hr
    · exact hword (by decide) hr
    · exact hword (by decide) hr
    · exact hconstant (by decide) hr
    · exact hconstant (by decide) hr
    · exact hconstant (by decide) hr
  · next literal rest _ hscan => 
    have hlt := length_scanNumber_lt hscan
    cases hn : dialect.number literal with
    | error f => exact fun hf => hnumber literal (hf ▸ hn)
    | ok n => exact hlt
  · exact fun h => nomatch h



/-- With so much fuel, each part of the parser advances on the texts it is enough for. -/
structure Advancing (dialect : Dialect ν) (fuel : ℕ) : Prop where
  value : ∀ depth cs, 2 * cs.length + 1 ≤ fuel → Advances cs (parseValue dialect fuel depth cs)
  elements : ∀ depth cs, 2 * cs.length + 2 ≤ fuel →
    Advances cs (parseElements dialect fuel depth cs)
  members : ∀ depth members cs, 2 * cs.length + 2 ≤ fuel →
    Advances cs (parseMembers dialect fuel depth members cs)

section Succ

variable {dialect : Dialect ν} {fuel depth : ℕ} {cs : List ℕ}

theorem Advancing.value_succ (hnumber : ∀ l, dialect.number l ≠ .error .noFuel)
    (ih : Advancing dialect fuel) (hfuel : 2 * cs.length + 1 ≤ fuel + 1) :
    Advances cs (parseValue dialect (fuel + 1) depth cs) := by
  cases cs with
  | nil => exact fun h => nomatch h
  | cons c rest =>
    have hspace := length_skipSpace_le rest
    have htail : (skipSpace rest).tail.length ≤ (skipSpace rest).length := by simp
    rw [List.length_cons] at hfuel
    rw [parseValue]
    split_ifs
    · cases hscan : scanString rest with
      | none => exact fun h => nomatch h
      | some r =>
        have hlt := length_scanString_lt hscan
        exact hlt.trans (Nat.lt_succ_self _)
    · exact fun h => nomatch h
    · exact Nat.lt_succ_of_le (htail.trans hspace)
    · have hmembers := ih.members (depth + 1) [] (skipSpace rest) (by omega)
      exact (hmembers.of_le (hspace.trans (Nat.le_succ _))).bind fun _ _ hrest => hrest
    · exact fun h => nomatch h
    · exact Nat.lt_succ_of_le (htail.trans hspace)
    · have helements := ih.elements (depth + 1) (skipSpace rest) (by omega)
      exact (helements.of_le (hspace.trans (Nat.le_succ _))).bind fun _ _ hrest => hrest
    · exact advances_scanScalar hnumber (c :: rest)

theorem Advancing.elements_succ (ih : Advancing dialect fuel)
    (hfuel : 2 * cs.length + 2 ≤ fuel + 1) :
    Advances cs (parseElements dialect (fuel + 1) depth cs) := by
  rw [parseElements]
  refine (ih.value depth cs (by omega)).bind fun value rest hrest => ?_
  have hspace := length_skipSpace_le rest
  dsimp only
  cases hnext : skipSpace rest with
  | nil => exact fun h => nomatch h
  | cons c after =>
    rw [hnext, List.length_cons] at hspace
    have hafter := length_skipSpace_le after
    dsimp only
    split_ifs
    · have helements := ih.elements depth (skipSpace after) (by omega)
      exact (helements.of_le (by omega)).bind fun _ _ hlast => hlast
    · show after.length < cs.length
      omega
    · exact fun h => nomatch h

theorem Advancing.members_succ (ih : Advancing dialect fuel) (members : List (List ℕ × Value ν))
    (hfuel : 2 * cs.length + 2 ≤ fuel + 1) :
    Advances cs (parseMembers dialect (fuel + 1) depth members cs) := by
  cases cs with
  | nil => exact fun h => nomatch h
  | cons c rest =>
    rw [List.length_cons] at hfuel
    rw [parseMembers]
    split_ifs
    · exact fun h => nomatch h
    cases hscan : scanString rest with
    | none => exact fun h => nomatch h
    | some r =>
      have hname := length_scanString_lt hscan
      have hcolon := length_skipSpace_le r.2
      have hspace := length_skipSpace_le (skipSpace r.2).tail
      have htail : (skipSpace r.2).tail.length ≤ (skipSpace r.2).length := by simp
      dsimp only
      split_ifs
      · exact fun h => nomatch h
      have hvalue := ih.value depth (skipSpace (skipSpace r.2).tail) (by omega)
      refine (hvalue.of_le (by rw [List.length_cons]; omega)).bind fun value after hafter => ?_
      have hlast := length_skipSpace_le after
      dsimp only
      cases hnext : skipSpace after with
      | nil => exact fun h => nomatch h
      | cons c last =>
        rw [hnext, List.length_cons] at hlast
        rw [List.length_cons] at hafter
        have hmore := length_skipSpace_le last
        dsimp only
        split_ifs
        · have hmembers := fun members => ih.members depth members (skipSpace last) (by omega)
          exact (hmembers _).of_le (by rw [List.length_cons]; omega)
        · show last.length < rest.length + 1
          omega
        · exact fun h => nomatch h

end Succ

/-- Each part of the parser advances on the texts that the fuel is enough for. -/
theorem advancing {dialect : Dialect ν} (hnumber : ∀ l, dialect.number l ≠ .error .noFuel)
    (fuel : ℕ) : Advancing dialect fuel := by
  induction fuel with
  | zero => exact ⟨fun _ _ h => by omega, fun _ _ h => by omega, fun _ _ _ h => by omega⟩
  | succ fuel ih =>
    exact ⟨fun _ _ => ih.value_succ hnumber, fun _ _ => ih.elements_succ,
      fun _ members _ => ih.members_succ members⟩

/-- **The fuel is enough for every text.** -/
theorem parse_ne_noFuel {dialect : Dialect ν}
    (hnumber : ∀ l, dialect.number l ≠ .error .noFuel) (cs : List ℕ) :
    parse dialect cs ≠ .error .noFuel := by
  have hspace := length_skipSpace_le cs
  have hvalue := (advancing hnumber (2 * cs.length + 1)).value 0 (skipSpace cs) (by omega)
  rw [parse]
  cases hr : parseValue dialect (2 * cs.length + 1) 0 (skipSpace cs) with
  | error f =>
    rw [hr] at hvalue
    exact fun h => hvalue (Except.error.inj h)
  | ok r =>
    simp only [bind, Except.bind]
    split_ifs
    · exact fun h => nomatch h
    · exact fun h => nomatch h

end Fuel

end Json
