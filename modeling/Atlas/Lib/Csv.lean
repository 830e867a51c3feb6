import Mathlib.Data.List.Basic

/-!
# Records of separated fields

A table is written as a text: a row is a line, its fields are separated by a delimiter, and
a field that holds a delimiter, a quote or an end of line is quoted, its own quotes doubled.
The reader is a machine that takes one character after another.

A row with one empty field is written as two quotes, since nothing at all is a row without
fields.

## Main definitions

* `Dialect` — the two characters that a dialect chooses.
* `write` — the text of a table.
* `Reader`, `Reader.step`, `read` — the machine that reads a text, and the table it leaves.

## Main results

* `read_write` — **a table is read back from its text**, whatever characters its fields
  hold.
-/

namespace Csv

/-- A dialect: the character between two fields and the one that quotes a field. -/
structure Dialect where
  delimiter : Char
  quote : Char
  delimiter_ne_quote : delimiter ≠ quote
  delimiter_inLine : delimiter ≠ '\r' ∧ delimiter ≠ '\n'
  quote_inLine : quote ≠ '\r' ∧ quote ≠ '\n'

/-- Commas and double quotes. -/
def excel : Dialect where
  delimiter := ','
  quote := '"'
  delimiter_ne_quote := by decide
  delimiter_inLine := by decide
  quote_inLine := by decide

variable (d : Dialect)

/-! ### Writing -/

/-- A character ends a line. -/
def IsEnd (c : Char) : Prop := c = '\r' ∨ c = '\n'

instance (c : Char) : Decidable (IsEnd c) := inferInstanceAs (Decidable (_ ∨ _))

/-- A character that a field is quoted for. -/
def Dialect.Special (c : Char) : Prop := c = d.delimiter ∨ c = d.quote ∨ IsEnd c

instance (c : Char) : Decidable (d.Special c) := inferInstanceAs (Decidable (_ ∨ _ ∨ _))

/-- The quotes of a text, doubled. -/
def Dialect.escape (d : Dialect) : List Char → List Char
  | [] => []
  | c :: cs => if c = d.quote then c :: c :: d.escape cs else c :: d.escape cs

/-- The text of a field. -/
def Dialect.writeField (cs : List Char) : List Char :=
  if cs.any fun c => d.Special c then d.quote :: (d.escape cs ++ [d.quote]) else cs

/-- The texts of the fields, with the delimiter between them. -/
def Dialect.writeFields (d : Dialect) : List (List Char) → List Char
  | [] => []
  | [cs] => d.writeField cs
  | cs :: cs' :: fields => d.writeField cs ++ d.delimiter :: d.writeFields (cs' :: fields)

/-- The line of a row. -/
def Dialect.writeRow (row : List (List Char)) : List Char :=
  (if row = [[]] then [d.quote, d.quote] else d.writeFields row) ++ ['\r', '\n']

/-- The text of a table. -/
def write (table : List (List (List Char))) : List Char := table.flatMap d.writeRow

/-! ### Reading -/

/-- Where the reader is. -/
inductive Place where
  /-- At the start of a row. -/
  | record
  /-- At the start of a field. -/
  | field
  /-- In a field without quotes. -/
  | plain
  /-- Between the quotes of a field. -/
  | quoted
  /-- Behind a quote in a quoted field. -/
  | closing
  /-- Behind a carriage return that has ended a row. -/
  | returned
  deriving DecidableEq, Repr, Inhabited

/-- The reader: its place, the field, the row and the table so far. -/
structure Reader where
  place : Place := .record
  text : List Char := []
  row : List (List Char) := []
  table : List (List (List Char)) := []
  deriving DecidableEq, Repr, Inhabited

namespace Reader

variable (r : Reader)

/-- The field is complete. -/
def endField : Reader := { r with place := .field, text := [], row := r.row ++ [r.text] }

/-- The row is complete, at an end of line. -/
def endRow (c : Char) : Reader :=
  { place := if c = '\r' then .returned else .record
    table := r.table ++ [r.row] }

/-- A character outside of quotes. -/
def unquoted (c : Char) : Reader :=
  if c = d.delimiter then r.endField
  else if IsEnd c then r.endField.endRow c
  else { r with place := .plain, text := r.text ++ [c] }

/-- The first character of a field. -/
def start (c : Char) : Reader :=
  if c = d.quote then { r with place := .quoted } else r.unquoted d c

/-- The first character of a row. -/
def startRow (c : Char) : Reader := if IsEnd c then r.endRow c else r.start d c

/-- The reader takes a character. -/
def step (c : Char) : Reader :=
  match r.place with
  | .record => r.startRow d c
  | .field => r.start d c
  | .plain => r.unquoted d c
  | .quoted =>
      if c = d.quote then { r with place := .closing } else { r with text := r.text ++ [c] }
  | .closing =>
      if c = d.quote then { r with place := .quoted, text := r.text ++ [c] }
      else r.unquoted d c
  | .returned => if c = '\n' then { r with place := .record } else r.startRow d c

/-- The table at the end of the text. -/
def finish : List (List (List Char)) :=
  match r.place with
  | .record | .returned => r.table
  | .field | .plain | .quoted | .closing => r.table ++ [r.row ++ [r.text]]

end Reader

/-- The table of a text. -/
def read (cs : List Char) : List (List (List Char)) :=
  (cs.foldl (fun r c => r.step d c) ({} : Reader)).finish

/-! ### A table is read back -/

/-- The reader takes a text. -/
def Reader.take (r : Reader) (cs : List Char) : Reader := cs.foldl (fun r c => r.step d c) r

section

variable {d}

theorem Reader.take_append (r : Reader) (cs cs' : List Char) :
    r.take d (cs ++ cs') = (r.take d cs).take d cs' :=
  List.foldl_append

@[simp]
theorem Reader.take_cons (r : Reader) (c : Char) (cs : List Char) :
    r.take d (c :: cs) = (r.step d c).take d cs := rfl

@[simp]
theorem Reader.take_nil (r : Reader) : r.take d [] = r := rfl

/-- Between quotes, a text with its quotes doubled is taken as the text. -/
theorem Reader.take_escape (text : List Char) (row : List (List Char))
    (table : List (List (List Char))) : ∀ cs : List Char,
    Reader.take d ⟨.quoted, text, row, table⟩ (d.escape cs) =
      ⟨.quoted, text ++ cs, row, table⟩ := by
  intro cs
  induction cs generalizing text with
  | nil => simp [Dialect.escape]
  | cons c cs ih =>
    by_cases hc : c = d.quote
    · simp [Dialect.escape, hc, step, ih]
    · simp [Dialect.escape, hc, step, ih]

/-- Outside of quotes, a text without special characters is taken as it is. -/
theorem Reader.take_plain {cs : List Char} (h : ∀ c ∈ cs, ¬d.Special c) (text : List Char)
    (row : List (List Char)) (table : List (List (List Char))) :
    Reader.take d ⟨.plain, text, row, table⟩ cs = ⟨.plain, text ++ cs, row, table⟩ := by
  induction cs generalizing text with
  | nil => simp
  | cons c cs ih =>
    have hc : ¬d.Special c := h c (List.mem_cons_self ..)
    simp only [Dialect.Special, not_or] at hc
    rw [take_cons, step, unquoted, if_neg hc.1, if_neg hc.2.2]
    rw [ih (fun x hx => h x (List.mem_cons_of_mem _ hx)), List.append_assoc, List.singleton_append]

/-- A reader that has taken a field: in the field without quotes, behind its closing quote,
or still at its start. -/
inductive Reader.Holds (row : List (List Char)) (table : List (List (List Char)))
    (cs : List Char) : Reader → Prop
  | plain : Holds row table cs ⟨.plain, cs, row, table⟩
  | closing : Holds row table cs ⟨.closing, cs, row, table⟩
  | field (h : cs = []) : Holds row table cs ⟨.field, [], row, table⟩

/-- A character that a text starts with, at the start of a field or of a row. -/
theorem Reader.step_start {place : Place} (hplace : place = .record ∨ place = .field) {c : Char}
    (hc : ¬IsEnd c) (row : List (List Char)) (table : List (List (List Char))) :
    Reader.step d ⟨place, [], row, table⟩ c = Reader.start d ⟨.field, [], row, table⟩ c := by
  have hsame : Reader.start d ⟨.record, [], row, table⟩ c =
      Reader.start d ⟨.field, [], row, table⟩ c := by
    simp only [start, unquoted, endField, if_neg hc]
  rcases hplace with rfl | rfl
  · rw [step, startRow, if_neg hc, hsame]
  · rfl

/-- The reader takes a field that is written, unless it is empty at the start of a row. -/
theorem Reader.take_writeField {place : Place} (hplace : place = .record ∨ place = .field)
    (row : List (List Char)) (table : List (List (List Char))) {cs : List Char} (hcs : cs ≠ []) :
    Reader.Holds row table cs (Reader.take d ⟨place, [], row, table⟩ (d.writeField cs)) := by
  rw [Dialect.writeField]
  split
  · have hquote : ¬IsEnd d.quote := not_or.mpr d.quote_inLine
    rw [take_cons, step_start hplace hquote, start, if_pos rfl, take_append, take_escape]
    simp only [take_cons, take_nil, step, if_pos, List.nil_append]
    exact .closing
  · rename_i hplain
    have hplain : ∀ c ∈ cs, ¬d.Special c := fun c hc hs =>
      hplain (List.any_eq_true.mpr ⟨c, hc, decide_eq_true hs⟩)
    match cs, hcs with
    | c :: cs, _ =>
      have hc := hplain c (List.mem_cons_self ..)
      simp only [Dialect.Special, not_or] at hc
      rw [take_cons, step_start hplace hc.2.2, start, if_neg hc.2.1, unquoted, if_neg hc.1,
        if_neg hc.2.2, take_plain fun x hx => hplain x (List.mem_cons_of_mem _ hx)]
      exact .plain

/-- A field that is taken ends at a delimiter. -/
theorem Reader.Holds.delimiter {row : List (List Char)} {table : List (List (List Char))}
    {cs : List Char} {r : Reader} (h : Reader.Holds row table cs r) :
    r.step d d.delimiter = ⟨.field, [], row ++ [cs], table⟩ := by
  cases h with
  | plain => simp [step, unquoted, endField]
  | closing => simp [step, unquoted, endField, d.delimiter_ne_quote]
  | field h => simp [step, start, unquoted, endField, d.delimiter_ne_quote, h]

/-- A field that is taken, and its row, end at the end of the line. -/
theorem Reader.Holds.lineEnd {row : List (List Char)} {table : List (List (List Char))}
    {cs : List Char} {r : Reader} (h : Reader.Holds row table cs r) :
    r.take d ['\r', '\n'] = ⟨.record, [], [], table ++ [row ++ [cs]]⟩ := by
  have hdelimiter := d.delimiter_inLine.1.symm
  have hquote := d.quote_inLine.1.symm
  cases h with
  | plain => simp [step, unquoted, endField, endRow, hdelimiter, IsEnd]
  | closing => simp [step, unquoted, endField, endRow, hdelimiter, hquote, IsEnd]
  | field h => simp [step, start, unquoted, endField, endRow, hdelimiter, hquote, IsEnd, h]

/-- A delimiter at the start of a field or of a row ends an empty field. -/
theorem Reader.step_delimiter {place : Place} (hplace : place = .record ∨ place = .field)
    (row : List (List Char)) (table : List (List (List Char))) :
    Reader.step d ⟨place, [], row, table⟩ d.delimiter = ⟨.field, [], row ++ [[]], table⟩ := by
  rw [step_start hplace (not_or.mpr d.delimiter_inLine), start, if_neg d.delimiter_ne_quote,
    unquoted, if_pos rfl, endField]

theorem writeField_nil : d.writeField [] = [] := by simp [Dialect.writeField]

/-- The fields of a row are taken, up to the end of the line. -/
theorem Reader.take_writeFields (table : List (List (List Char))) :
    ∀ (fields : List (List Char)) (row : List (List Char)) (place : Place),
    place = .field ∨ place = .record ∧ fields ≠ [[]] → fields ≠ [] →
    Reader.take d ⟨place, [], row, table⟩ (d.writeFields fields ++ ['\r', '\n']) =
      ⟨.record, [], [], table ++ [row ++ fields]⟩
  | [], _, _, _, hsome => absurd rfl hsome
  | [cs], row, place, hplace, _ => by
      rw [Dialect.writeFields, take_append]
      by_cases hcs : cs = []
      · -- An empty field stands at the start of a field, since it is not alone in its row.
        have hfield : place = .field := hplace.resolve_right fun h => h.2 (by rw [hcs])
        rw [hcs, writeField_nil, take_nil, hfield]
        exact (Holds.field rfl).lineEnd
      · exact (take_writeField (hplace.elim .inr fun h => .inl h.1) row table hcs).lineEnd
  | cs :: cs' :: fields, row, place, hplace, _ => by
      have hplace' : place = .record ∨ place = .field := hplace.elim .inr fun h => .inl h.1
      have hrest := take_writeFields table (cs' :: fields) (row ++ [cs]) .field (.inl rfl) (by simp)
      rw [Dialect.writeFields, List.append_assoc, List.cons_append, take_append]
      by_cases hcs : cs = []
      · rw [hcs] at hrest ⊢
        rw [writeField_nil, take_nil, take_cons, step_delimiter hplace', hrest]
        simp
      · rw [take_cons, (take_writeField hplace' row table hcs).delimiter, hrest]
        simp

/-- The reader takes the line of a row. -/
theorem Reader.take_writeRow (table : List (List (List Char))) (row : List (List Char)) :
    Reader.take d ⟨.record, [], [], table⟩ (d.writeRow row) =
      ⟨.record, [], [], table ++ [row]⟩ := by
  rw [Dialect.writeRow]
  split
  · -- Two quotes: a field that is empty, but there.
    rename_i hrow
    have hquote : ¬IsEnd d.quote := not_or.mpr d.quote_inLine
    have hquotes : Reader.take d ⟨.record, [], [], table⟩ [d.quote, d.quote] =
        ⟨.closing, [], [], table⟩ := by
      rw [take_cons, step_start (.inl rfl) hquote, start, if_pos rfl, take_cons, step]
      exact if_pos rfl
    rw [hrow, take_append, hquotes, Holds.closing.lineEnd, List.nil_append]
  · rename_i hrow
    by_cases hnil : row = []
    · simp [hnil, Dialect.writeFields, step, startRow, endRow, IsEnd]
    · rw [take_writeFields table row [] .record (.inr ⟨rfl, hrow⟩) hnil, List.nil_append]

end

/-- **A table is read back from its text.** -/
theorem read_write (table : List (List (List Char))) : read d (write d table) = table := by
  suffices h : ∀ before : List (List (List Char)),
      Reader.take d ⟨.record, [], [], before⟩ (write d table) =
        ⟨.record, [], [], before ++ table⟩ by
    show (Reader.take d ⟨.record, [], [], []⟩ (write d table)).finish = table
    rw [h, Reader.finish, List.nil_append]
  induction table with
  | nil => simp [write]
  | cons row table ih =>
    intro before
    rw [write, List.flatMap_cons, Reader.take_append, Reader.take_writeRow]
    exact (ih (before ++ [row])).trans (by simp)

end Csv
