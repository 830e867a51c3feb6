import Atlas.Lib.Calendar

/-!
# Reading ISO 8601 texts

`datetime.fromisoformat` reads what `isoformat` writes: the date, a separator, the time with
a fraction if there is one, and the offset from UTC if there is one.  The text of a point in
time that is known in UTC may end in `Z` in place of the offset; older readers have it
replaced first.

The other forms that the reader knows are left out: texts without the time or its seconds,
the basic format, the weeks, and offsets with seconds.

## Main definitions

* `DateTime.Valid` — the points in time that have a text.
* `DateTime.fromisoformat` — the point in time of a text.
* `DateTime.zulu`, `replaceZulu` — a text with `Z`, and its replacement.

## Main results

* `fromisoformat_isoformat` — **a point in time is read back from its text**.
* `replaceZulu_zulu` — a replaced `Z` gives the text without it.
-/

namespace Calendar

/-! ### Fields -/

theorem isDigit_padded : ∀ (width n : ℕ), ∀ c ∈ padded width n, c.isDigit = true := by
  intro width
  induction width with
  | zero => exact fun n c hc => (List.not_mem_nil hc).elim
  | succ width ih =>
    intro n c hc
    rcases List.mem_append.mp hc with hc | hc
    · exact ih (n / 10) c hc
    · rw [List.mem_singleton.mp hc]
      rw [Nat.isDigit_digitChar]
      exact decide_eq_true (Nat.mod_lt n (by omega))

theorem length_padded : ∀ (width n : ℕ), (padded width n).length = width := by
  intro width
  induction width with
  | zero => exact fun _ => rfl
  | succ width ih =>
    intro n
    rw [padded, List.length_append, ih, List.length_singleton]

/-- A number is read back from its last digits. -/
theorem ofDigitChars_padded : ∀ (width n : ℕ),
    Nat.ofDigitChars 10 (padded width n) 0 = n % 10 ^ width := by
  intro width
  induction width with
  | zero =>
    intro n
    rw [padded, Nat.ofDigitChars_nil, pow_zero, Nat.mod_one]
  | succ width ih =>
    intro n
    rw [padded, Nat.ofDigitChars_append, ih,
      Nat.ofDigitChars_cons_digitChar_of_lt_ten (Nat.mod_lt n (by omega)), Nat.ofDigitChars_nil]
    rw [pow_succ, mul_comm (10 ^ width) 10, Nat.mod_mul]
    omega

/-- A number of so many digits, and the rest of the text. -/
def field (width : ℕ) (cs : List Char) : Option (ℕ × List Char) :=
  if (cs.take width).length = width ∧ (cs.take width).all Char.isDigit = true then
    some (Nat.ofDigitChars 10 (cs.take width) 0, cs.drop width)
  else none

/-- The rest of a text that begins with a character. -/
def expect (c : Char) : List Char → Option (List Char)
  | [] => none
  | d :: cs => if d = c then some cs else none

@[simp] theorem expect_self (c : Char) (cs : List Char) : expect c (c :: cs) = some cs := by
  rw [expect, if_pos rfl]

theorem field_padded {width n : ℕ} (hn : n < 10 ^ width) (rest : List Char) :
    field width (padded width n ++ rest) = some (n, rest) := by
  have htake : (padded width n ++ rest).take width = padded width n := by
    rw [List.take_append_of_le_length (by rw [length_padded]),
      List.take_of_length_le (by rw [length_padded])]
  have hdrop : (padded width n ++ rest).drop width = rest := by
    rw [List.drop_append_of_le_length (by rw [length_padded]),
      List.drop_eq_nil_of_le (by rw [length_padded]), List.nil_append]
  rw [field, htake, hdrop, if_pos ⟨length_padded .., List.all_eq_true.mpr (isDigit_padded width n)⟩,
    ofDigitChars_padded, Nat.mod_eq_of_lt hn]

/-! ### Reading -/

namespace DateTime

/-- The date at the beginning of a text, if there is such a date. -/
def readDate (cs : List Char) : Option (ℤ × List Char) := do
  let (year, cs) ← field 4 cs
  let cs ← expect '-' cs
  let (month, cs) ← field 2 cs
  let cs ← expect '-' cs
  let (day, cs) ← field 2 cs
  let date : Date := ⟨year, month, day⟩
  if 1 ≤ date.year ∧ ofDays date.toDays = date then some (date.toDays, cs) else none

/-- The microseconds of a fraction, if there is one; what is behind the sixth digit is cut. -/
def readFraction : List Char → Option (ℕ × List Char)
  | '.' :: cs =>
      let digits := cs.takeWhile Char.isDigit
      if digits = [] then none
      else
        some (Nat.ofDigitChars 10 ((digits ++ List.replicate 6 '0').take 6) 0,
          cs.dropWhile Char.isDigit)
  | cs => some (0, cs)

/-- The time of the day at the beginning of a text, in microseconds. -/
def readTime (cs : List Char) : Option (ℕ × List Char) := do
  let (hour, cs) ← field 2 cs
  let cs ← expect ':' cs
  let (minute, cs) ← field 2 cs
  let cs ← expect ':' cs
  let (second, cs) ← field 2 cs
  let (micros, cs) ← readFraction cs
  if hour < 24 ∧ minute < 60 ∧ second < 60 then
    some (((hour * 60 + minute) * 60 + second) * 1000000 + micros, cs)
  else none

/-- The minutes of an offset without its sign. -/
def readMinutes (cs : List Char) : Option ℕ := do
  let (hours, cs) ← field 2 cs
  let cs ← expect ':' cs
  let (minutes, cs) ← field 2 cs
  if cs = [] ∧ minutes < 60 ∧ hours < 24 then some (hours * 60 + minutes) else none

/-- The offset at the end of a text. -/
def readOffset : List Char → Option (Option ℤ)
  | [] => some none
  | ['Z'] => some (some 0)
  | '+' :: cs => (readMinutes cs).map fun m : ℕ => some (m : ℤ)
  | '-' :: cs => (readMinutes cs).map fun m : ℕ => some (-(m : ℤ))
  | _ => none

/-- `datetime.fromisoformat`; any character separates the date and the time. -/
def fromisoformat (cs : List Char) : Option DateTime := do
  let (days, cs) ← readDate cs
  let (micros, cs) ← readTime (cs.drop 1)
  let offset ← readOffset cs
  some ⟨days * dayMicros + micros, offset⟩

/-- A point in time in the years 1 to 9999, with an offset of less than a day. -/
def Valid (t : DateTime) : Prop :=
  (1 ≤ (ofDays (t.wall / dayMicros)).year ∧ (ofDays (t.wall / dayMicros)).year ≤ 9999) ∧
    ∀ minutes ∈ t.offset, |minutes| < 1440

instance (t : DateTime) : Decidable t.Valid := inferInstanceAs (Decidable (_ ∧ _))

/-! ### Reading back -/

theorem readDate_dateText {n : ℤ} (hlow : 1 ≤ (ofDays n).year) (hhigh : (ofDays n).year ≤ 9999)
    (rest : List Char) : readDate (dateText n ++ rest) = some (n, rest) := by
  obtain ⟨hmonth, hmonth'⟩ := month_ofDays n
  obtain ⟨hday, hday'⟩ := day_ofDays n
  have hyear : (ofDays n).year.toNat < 10 ^ 4 := by omega
  have hmonths : (ofDays n).month.toNat < 10 ^ 2 := by omega
  have hdays : (ofDays n).day.toNat < 10 ^ 2 := by omega
  have hfirst : 1 ≤ ((ofDays n).year.toNat : ℤ) := by omega
  have hdate : (⟨((ofDays n).year.toNat : ℤ), ((ofDays n).month.toNat : ℤ),
      ((ofDays n).day.toNat : ℤ)⟩ : Date) = ofDays n := by
    rw [Int.toNat_of_nonneg (by omega), Int.toNat_of_nonneg (by omega),
      Int.toNat_of_nonneg (by omega)]
  unfold readDate dateText
  simp only [List.append_assoc, List.cons_append, field_padded hyear, field_padded hmonths,
    field_padded hdays, expect_self, Option.bind_eq_bind, Option.bind_some, hdate, toDays_ofDays,
    and_true, if_pos hfirst]

theorem readFraction_text {f : ℕ} (hf : f < 1000000) {rest : List Char}
    (hrest : ∀ c ∈ rest.head?, c.isDigit = false ∧ c ≠ '.') :
    readFraction ((if f = 0 then [] else '.' :: padded 6 f) ++ rest) = some (f, rest) := by
  split_ifs with hzero
  · rw [List.nil_append, hzero]
    cases rest with
    | nil => rfl
    | cons c rest =>
      have hdot : c ≠ '.' := (hrest c rfl).2
      unfold readFraction
      split
      · exact absurd (List.cons.inj ‹_›).1 hdot
      · rfl
  · have htake : (padded 6 f ++ rest).takeWhile Char.isDigit = padded 6 f := by
      rw [List.takeWhile_append_of_pos (isDigit_padded 6 f)]
      cases rest with
      | nil => simp
      | cons c rest => simp [(hrest c rfl).1]
    have hdrop : (padded 6 f ++ rest).dropWhile Char.isDigit = rest := by
      rw [List.dropWhile_append_of_pos (isDigit_padded 6 f)]
      cases rest with
      | nil => simp
      | cons c rest => simp [(hrest c rfl).1]
    -- all six digits are written, so none is added and none cut
    have hsome : padded 6 f ≠ [] := List.ne_nil_of_length_pos (by rw [length_padded]; omega)
    have hsix : (padded 6 f ++ List.replicate 6 '0').take 6 = padded 6 f := by
      rw [List.take_append_of_le_length (by rw [length_padded]),
        List.take_of_length_le (by rw [length_padded])]
    rw [List.cons_append, readFraction, htake, hdrop, if_neg hsome, hsix, ofDigitChars_padded,
      Nat.mod_eq_of_lt (by omega)]

theorem readTime_timeText {micros : ℕ} (hday : micros < 86400000000) {rest : List Char}
    (hrest : ∀ c ∈ rest.head?, c.isDigit = false ∧ c ≠ '.') :
    readTime (timeText micros ++ rest) = some (micros, rest) := by
  have hhour : micros / 3600000000 < 10 ^ 2 := by omega
  have hminute : micros / 60000000 % 60 < 10 ^ 2 := by omega
  have hsecond : micros / 1000000 % 60 < 10 ^ 2 := by omega
  have hmicros : micros % 1000000 < 1000000 := by omega
  have hrange : micros / 3600000000 < 24 ∧ micros / 60000000 % 60 < 60 ∧
      micros / 1000000 % 60 < 60 := by omega
  have hsum : ((micros / 3600000000 * 60 + micros / 60000000 % 60) * 60 +
      micros / 1000000 % 60) * 1000000 + micros % 1000000 = micros := by omega
  unfold readTime timeText
  simp only [List.append_assoc, List.cons_append, field_padded hhour, field_padded hminute,
    field_padded hsecond, expect_self, Option.bind_eq_bind, Option.bind_some,
    readFraction_text hmicros hrest, if_pos hrange, hsum]

theorem readOffset_offsetText {minutes : ℤ} (h : |minutes| < 1440) :
    readOffset (offsetText minutes) = some (some minutes) := by
  have hnat : minutes.natAbs < 1440 := by
    rw [Int.abs_eq_natAbs] at h
    omega
  have hhours : minutes.natAbs / 60 < 10 ^ 2 := by omega
  have hrest : minutes.natAbs % 60 < 10 ^ 2 := by omega
  have hrange : minutes.natAbs % 60 < 60 ∧ minutes.natAbs / 60 < 24 := by omega
  have hread : readMinutes (padded 2 (minutes.natAbs / 60) ++
      ':' :: padded 2 (minutes.natAbs % 60)) = some minutes.natAbs := by
    have hlast : field 2 (padded 2 (minutes.natAbs % 60)) = some (minutes.natAbs % 60, []) := by
      have hfield := field_padded hrest []
      rwa [List.append_nil] at hfield
    have hsum : minutes.natAbs / 60 * 60 + minutes.natAbs % 60 = minutes.natAbs := by omega
    unfold readMinutes
    simp only [field_padded hhours, hlast, expect_self, Option.bind_eq_bind, Option.bind_some,
      true_and, if_pos hrange, hsum]
  unfold offsetText
  split_ifs with hneg
  · rw [List.cons_append, readOffset, hread, Option.map_some]
    congr 2
    omega
  · rw [List.cons_append, readOffset, hread, Option.map_some]
    congr 2
    omega

/-- **A point in time is read back from its text.** -/
theorem fromisoformat_isoformat {t : DateTime} (h : t.Valid) :
    fromisoformat t.isoformat = some t := by
  obtain ⟨⟨hlow, hhigh⟩, hoffset⟩ := h
  have hmod : 0 ≤ t.wall % dayMicros ∧ t.wall % dayMicros < dayMicros := by
    unfold dayMicros
    omega
  have hday : (t.wall % dayMicros).toNat < 86400000000 := by
    unfold dayMicros at *
    omega
  -- an offset begins with its sign, so it does not go on with the fraction
  have hends : ∀ c ∈ (t.offset.elim [] offsetText).head?, c.isDigit = false ∧ c ≠ '.' := by
    cases t.offset with
    | none => exact fun c hc => by cases hc
    | some minutes =>
      intro c hc
      have hsign : (if minutes < 0 then '-' else '+') = c := by simpa [offsetText] using hc
      split_ifs at hsign <;> subst hsign <;> exact ⟨rfl, by decide⟩
  have hread : readOffset (t.offset.elim [] offsetText) = some t.offset := by
    cases ht : t.offset with
    | none => rfl
    | some minutes => exact readOffset_offsetText (hoffset minutes ht)
  have hwall : t.wall / dayMicros * dayMicros + ((t.wall % dayMicros).toNat : ℤ) = t.wall := by
    rw [Int.toNat_of_nonneg hmod.1]
    exact Int.ediv_mul_add_emod ..
  unfold fromisoformat isoformat
  simp only [List.append_assoc, List.cons_append, readDate_dateText hlow hhigh, List.drop_one,
    List.tail_cons, readTime_timeText hday hends, hread, Option.bind_eq_bind, Option.bind_some,
    hwall]

/-! ### Texts with `Z` -/

/-- The text of a point in time, with `Z` for an offset of zero. -/
def zulu (t : DateTime) : List Char :=
  if t.offset = some 0 then isoformat { t with offset := none } ++ ['Z'] else t.isoformat

/-- `replace("Z", "+00:00")`. -/
def replaceZulu (cs : List Char) : List Char :=
  cs.flatMap fun c => if c = 'Z' then "+00:00".toList else [c]

theorem replaceZulu_of_notMem {cs : List Char} (h : 'Z' ∉ cs) : replaceZulu cs = cs := by
  induction cs with
  | nil => rfl
  | cons c cs ih =>
    have hc : c ≠ 'Z' := fun heq => h (heq ▸ List.mem_cons_self ..)
    rw [replaceZulu, List.flatMap_cons, if_neg hc, ← replaceZulu,
      ih fun hmem => h (List.mem_cons_of_mem _ hmem)]
    rfl

theorem zed_notMem_padded (width n : ℕ) : 'Z' ∉ padded width n := fun hmem =>
  absurd (isDigit_padded width n 'Z' hmem) (by decide)

theorem zed_notMem_isoformat (t : DateTime) : 'Z' ∉ t.isoformat := by
  have htime : ∀ micros : ℕ, 'Z' ∉ timeText micros := by
    intro micros
    unfold timeText
    split_ifs <;> simp [zed_notMem_padded]
  have hoffset : ∀ minutes : ℤ, 'Z' ∉ offsetText minutes := by
    intro minutes
    unfold offsetText
    split_ifs <;> simp [zed_notMem_padded]
  unfold isoformat
  cases t.offset <;> simp [dateText, zed_notMem_padded, htime, hoffset]

theorem replaceZulu_isoformat (t : DateTime) : replaceZulu t.isoformat = t.isoformat :=
  replaceZulu_of_notMem t.zed_notMem_isoformat

/-- A replaced `Z` gives the text without it. -/
theorem replaceZulu_zulu (t : DateTime) : replaceZulu t.zulu = t.isoformat := by
  unfold zulu
  split_ifs with hutc
  · have hsplit : ∀ cs ds : List Char,
        replaceZulu (cs ++ ds) = replaceZulu cs ++ replaceZulu ds := fun cs ds =>
      List.flatMap_append
    have hzero : offsetText 0 = "+00:00".toList := by decide
    rw [hsplit, replaceZulu_isoformat]
    unfold isoformat
    rw [hutc]
    dsimp only [Option.elim]
    rw [List.append_nil, hzero]
    rfl
  · exact replaceZulu_isoformat t

end DateTime

end Calendar
