import Mathlib.Data.List.Basic

/-!
# Unicode encoding forms

Bytes are read as code points, which are numbers here: a text may hold surrogates on their own,
which no character stands for.

UTF-8 is read by a machine that knows how many bytes a sequence still needs, and in which
bounds the next one must be.  A byte out of the bounds ends the sequence with one error and is
read again as the first of another.  A reader then drops the text at the first error, or puts
the replacement character in its place.

## Main definitions

* `utf8` — the code points of a text in UTF-8, and the errors.
* `encode` — a text in UTF-8.
* `utf16`, `utf32` — the code points of a text in the wider forms.

## Main results

* `utf8_encode` — **a text of characters is read back from its bytes**.
-/

namespace Unicode

/-! ### Surrogates -/

/-- A high surrogate. -/
def IsHigh (n : ℕ) : Prop := 0xD800 ≤ n ∧ n < 0xDC00

/-- A low surrogate. -/
def IsLow (n : ℕ) : Prop := 0xDC00 ≤ n ∧ n < 0xE000

instance (n : ℕ) : Decidable (IsHigh n) := inferInstanceAs (Decidable (_ ∧ _))

instance (n : ℕ) : Decidable (IsLow n) := inferInstanceAs (Decidable (_ ∧ _))

/-- The code point of a pair of surrogates. -/
def joined (high low : ℕ) : ℕ := 0x10000 + (high - 0xD800) * 0x400 + (low - 0xDC00)

/-- Units of 16 bits as code points; a surrogate without its other half is left. -/
def joinUnits : List ℕ → List ℕ
  | high :: low :: rest =>
      if IsHigh high ∧ IsLow low then joined high low :: joinUnits rest
      else high :: joinUnits (low :: rest)
  | units => units

/-! ### UTF-8 -/

/-- A sequence that has begun: the bytes it needs, the bits it has, and the bounds of the next
byte. -/
structure Sequence where
  needed : ℕ
  point : ℕ
  low : ℕ := 0x80
  high : ℕ := 0xBF
  deriving DecidableEq, Repr

/-- What a first byte begins. -/
inductive Lead
  | point (p : ℕ)
  | sequence (q : Sequence)
  | invalid
  deriving DecidableEq, Repr

/-- The first byte of a sequence.  Sequences for surrogates may be allowed. -/
def lead (surrogates : Bool) (b : ℕ) : Lead :=
  if b < 0x80 then .point b
  else if 0xC2 ≤ b ∧ b < 0xE0 then .sequence { needed := 1, point := b - 0xC0 }
  else if 0xE0 ≤ b ∧ b < 0xF0 then
    .sequence
      { needed := 2
        point := b - 0xE0
        low := if b = 0xE0 then 0xA0 else 0x80
        high := if b = 0xED ∧ ¬surrogates then 0x9F else 0xBF }
  else if 0xF0 ≤ b ∧ b < 0xF5 then
    .sequence
      { needed := 3
        point := b - 0xF0
        low := if b = 0xF0 then 0x90 else 0x80
        high := if b = 0xF4 then 0x8F else 0xBF }
  else .invalid

/-- The code points of the bytes after a sequence that has begun; an error is nothing. -/
def utf8Loop (surrogates : Bool) : Option Sequence → List UInt8 → List (Option ℕ)
  | none, [] => []
  | some _, [] => [none]
  | none, b :: rest =>
      match lead surrogates b.toNat with
      | .point p => some p :: utf8Loop surrogates none rest
      | .sequence q => utf8Loop surrogates (some q) rest
      | .invalid => none :: utf8Loop surrogates none rest
  | some q, b :: rest =>
      if q.low ≤ b.toNat ∧ b.toNat ≤ q.high then
        let point := q.point * 64 + (b.toNat - 0x80)
        if q.needed = 1 then some point :: utf8Loop surrogates none rest
        else utf8Loop surrogates (some { needed := q.needed - 1, point := point }) rest
      else
        -- the sequence is an error, and the byte is read as a first one
        match lead surrogates b.toNat with
        | .point p => none :: some p :: utf8Loop surrogates none rest
        | .sequence q => none :: utf8Loop surrogates (some q) rest
        | .invalid => none :: none :: utf8Loop surrogates none rest

/-- The code points of a text in UTF-8; an error is nothing. -/
def utf8 (surrogates : Bool) (data : List UInt8) : List (Option ℕ) := utf8Loop surrogates none data

/-- The code point stands for a character. -/
def IsScalar (n : ℕ) : Prop := n < 0x110000 ∧ ¬(0xD800 ≤ n ∧ n < 0xE000)

instance (n : ℕ) : Decidable (IsScalar n) := inferInstanceAs (Decidable (_ ∧ ¬_))

/-- The bytes of a code point in UTF-8. -/
def encodePoint (n : ℕ) : List UInt8 :=
  if n < 0x80 then [.ofNat n]
  else if n < 0x800 then [.ofNat (0xC0 + n / 0x40), .ofNat (0x80 + n % 0x40)]
  else if n < 0x10000 then
    [.ofNat (0xE0 + n / 0x1000), .ofNat (0x80 + n / 0x40 % 0x40), .ofNat (0x80 + n % 0x40)]
  else
    [.ofNat (0xF0 + n / 0x40000), .ofNat (0x80 + n / 0x1000 % 0x40),
      .ofNat (0x80 + n / 0x40 % 0x40), .ofNat (0x80 + n % 0x40)]

/-- A text in UTF-8. -/
def encode (text : List ℕ) : List UInt8 := text.flatMap encodePoint

theorem toNat_ofNat {n : ℕ} (hn : n < 0x100) : (UInt8.ofNat n).toNat = n := by
  rw [UInt8.toNat_ofNat', Nat.mod_eq_of_lt hn]

/-- A byte within the bounds is the next of a sequence. -/
theorem utf8Loop_next {surrogates : Bool} {k point low high n : ℕ} (hn : n < 0x100)
    (hlow : low ≤ n) (hhigh : n ≤ high) (rest : List UInt8) :
    utf8Loop surrogates (some ⟨k + 2, point, low, high⟩) (.ofNat n :: rest) =
      utf8Loop surrogates (some ⟨k + 1, point * 64 + (n - 0x80), 0x80, 0xBF⟩) rest := by
  rw [utf8Loop, toNat_ofNat hn, if_pos ⟨hlow, hhigh⟩, if_neg (by simp)]
  rfl

/-- A byte within the bounds is the last of a sequence. -/
theorem utf8Loop_last {surrogates : Bool} {point low high n : ℕ} (hn : n < 0x100)
    (hlow : low ≤ n) (hhigh : n ≤ high) (rest : List UInt8) :
    utf8Loop surrogates (some ⟨1, point, low, high⟩) (.ofNat n :: rest) =
      some (point * 64 + (n - 0x80)) :: utf8Loop surrogates none rest := by
  rw [utf8Loop, toNat_ofNat hn, if_pos ⟨hlow, hhigh⟩, if_pos rfl]

/-- **The code point of a character is read back.** -/
theorem utf8Loop_encodePoint (surrogates : Bool) {n : ℕ} (hn : IsScalar n) (rest : List UInt8) :
    utf8Loop surrogates none (encodePoint n ++ rest) = some n :: utf8Loop surrogates none rest := by
  obtain ⟨hmax, hscalar⟩ := hn
  unfold encodePoint
  split <;> rename_i hone
  · rw [List.singleton_append, utf8Loop, toNat_ofNat (by omega), lead, if_pos hone]
  split <;> rename_i htwo
  · rw [List.cons_append, List.singleton_append, utf8Loop, toNat_ofNat (by omega), lead,
      if_neg (by omega), if_pos (by omega)]
    simp only
    rw [utf8Loop_last (by omega) (by omega) (by omega)]
    have hpoint : (0xC0 + n / 0x40 - 0xC0) * 64 + (0x80 + n % 0x40 - 0x80) = n := by omega
    rw [hpoint]
  split <;> rename_i hthree
  · rw [List.cons_append, List.cons_append, List.singleton_append, utf8Loop,
      toNat_ofNat (by omega), lead, if_neg (by omega), if_neg (by omega), if_pos (by omega)]
    simp only
    rw [utf8Loop_next (by omega) (by split <;> omega) (by split <;> omega),
      utf8Loop_last (by omega) (by omega) (by omega)]
    have hpoint : ((0xE0 + n / 0x1000 - 0xE0) * 64 + (0x80 + n / 0x40 % 0x40 - 0x80)) * 64 +
        (0x80 + n % 0x40 - 0x80) = n := by omega
    rw [hpoint]
  · rw [List.cons_append, List.cons_append, List.cons_append, List.singleton_append, utf8Loop,
      toNat_ofNat (by omega), lead, if_neg (by omega), if_neg (by omega), if_neg (by omega),
      if_pos (by omega)]
    simp only
    rw [utf8Loop_next (by omega) (by split <;> omega) (by split <;> omega),
      utf8Loop_next (by omega) (by omega) (by omega),
      utf8Loop_last (by omega) (by omega) (by omega)]
    have hpoint : (((0xF0 + n / 0x40000 - 0xF0) * 64 + (0x80 + n / 0x1000 % 0x40 - 0x80)) * 64 +
        (0x80 + n / 0x40 % 0x40 - 0x80)) * 64 + (0x80 + n % 0x40 - 0x80) = n := by omega
    rw [hpoint]

/-- **A text of characters is read back from its bytes.** -/
theorem utf8_encode (surrogates : Bool) {text : List ℕ} (htext : ∀ n ∈ text, IsScalar n) :
    utf8 surrogates (encode text) = text.map some := by
  unfold utf8 encode
  induction text with
  | nil => rfl
  | cons n text ih =>
    rw [List.flatMap_cons, utf8Loop_encodePoint surrogates (htext n (List.mem_cons_self ..)),
      ih fun m hm => htext m (List.mem_cons_of_mem _ hm), List.map_cons]

/-! ### The wider forms -/

/-- The bytes in groups of a size; nothing if the last one is not whole. -/
def groups (size : ℕ) : List UInt8 → List UInt8 → Option (List (List UInt8))
  | [], group => if group = [] then some [] else none
  | b :: rest, group =>
      if group.length + 1 = size then (groups size rest []).map ((group ++ [b]) :: ·)
      else groups size rest (group ++ [b])

/-- The number that a group stands for. -/
def unit (bigEndian : Bool) (group : List UInt8) : ℕ :=
  (if bigEndian then group else group.reverse).foldl (fun n b => n * 256 + b.toNat) 0

/-- The code points of a text in UTF-16. -/
def utf16 (bigEndian : Bool) (data : List UInt8) : Option (List ℕ) :=
  (groups 2 data []).map fun gs => joinUnits (gs.map (unit bigEndian))

/-- The code points of a text in UTF-32. -/
def utf32 (bigEndian : Bool) (data : List UInt8) : Option (List ℕ) :=
  ((groups 4 data []).map fun gs => gs.map (unit bigEndian)).filter fun points =>
    points.all (· < 0x110000)

end Unicode
