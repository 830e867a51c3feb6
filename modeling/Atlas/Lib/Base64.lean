import Mathlib.Data.List.Basic
import Mathlib.Data.Option.Basic

/-!
# Base64

Six bits of data to a character.  A text is written in the URL-safe alphabet without padding,
and read by one of two decoders of the standard alphabet.  The forgiving decoder passes over
white space, takes at most two padding characters at the end, and refuses every other
character.  The lenient one passes over every character outside of the alphabet, passes over
padding that is out of place, and ends at a padding that is complete, whatever follows.  Both
drop the bits that are left over.

## Main definitions

* `sextets`, `bytes` — bytes as numbers of six bits, and back.
* `encodeUrl` — the URL-safe text of some bytes, without padding.
* `forgivingDecode`, `lenientDecode` — the decoders.

## Main results

* `bytes_sextets` — **the bytes are read back from their sextets**.
* `forgivingDecode_encodeUrl`, `lenientDecode_encodeUrl` — **the decoders read back what was
  written**, once it is in the standard alphabet and padded.
-/

namespace Base64

/-! ### Sextets -/

/-- The sextets of some bytes, the last one filled up with zeros. -/
def sextets : List UInt8 → List ℕ
  | x :: y :: z :: rest =>
      x.toNat / 4 :: (x.toNat % 4 * 16 + y.toNat / 16) :: (y.toNat % 16 * 4 + z.toNat / 64) ::
        z.toNat % 64 :: sextets rest
  | [x, y] => [x.toNat / 4, x.toNat % 4 * 16 + y.toNat / 16, y.toNat % 16 * 4]
  | [x] => [x.toNat / 4, x.toNat % 4 * 16]
  | [] => []

/-- The whole bytes in some sextets. -/
def bytes : List ℕ → List UInt8
  | a :: b :: c :: d :: rest =>
      .ofNat (a * 4 + b / 16) :: .ofNat (b % 16 * 16 + c / 4) :: .ofNat (c % 4 * 64 + d) ::
        bytes rest
  | [a, b, c] => [.ofNat (a * 4 + b / 16), .ofNat (b % 16 * 16 + c / 4)]
  | [a, b] => [.ofNat (a * 4 + b / 16)]
  | _ => []

/-- A byte is read off the number it was taken apart into. -/
theorem ofNat_eq {x : UInt8} {n : ℕ} (h : n = x.toNat) : UInt8.ofNat n = x := by
  rw [h, UInt8.ofNat_toNat]

/-- **The bytes are read back from their sextets.** -/
theorem bytes_sextets (data : List UInt8) : bytes (sextets data) = data := by
  induction data using sextets.induct with
  | case1 x y z rest ih =>
    have hy := y.toNat_lt
    have hz := z.toNat_lt
    rw [sextets, bytes, ih]
    congr 1
    · exact ofNat_eq (by omega)
    congr 1
    · exact ofNat_eq (by omega)
    congr 1
    exact ofNat_eq (by omega)
  | case2 x y =>
    have hy := y.toNat_lt
    rw [sextets, bytes]
    congr 1
    · exact ofNat_eq (by omega)
    congr 1
    exact ofNat_eq (by omega)
  | case3 x =>
    rw [sextets, bytes]
    congr 1
    exact ofNat_eq (by omega)
  | case4 => rfl

/-- A sextet has six bits. -/
theorem sextets_lt (data : List UInt8) : ∀ n ∈ sextets data, n < 64 := by
  induction data using sextets.induct with
  | case1 x y z rest ih =>
    have hx := x.toNat_lt
    have hy := y.toNat_lt
    have hz := z.toNat_lt
    intro n hn
    simp only [sextets, List.mem_cons] at hn
    rcases hn with rfl | rfl | rfl | rfl | hn
    · omega
    · omega
    · omega
    · omega
    · exact ih n hn
  | case2 x y =>
    have hx := x.toNat_lt
    have hy := y.toNat_lt
    intro n hn
    simp only [sextets, List.mem_cons, List.not_mem_nil, or_false] at hn
    omega
  | case3 x =>
    have hx := x.toNat_lt
    intro n hn
    simp only [sextets, List.mem_cons, List.not_mem_nil, or_false] at hn
    omega
  | case4 => exact fun n hn => (List.not_mem_nil hn).elim

/-- No group of sextets has one only. -/
theorem length_sextets_mod (data : List UInt8) : (sextets data).length % 4 ≠ 1 := by
  induction data using sextets.induct with
  | case1 x y z rest ih =>
    simp only [sextets, List.length_cons]
    omega
  | case2 x y => simp [sextets]
  | case3 x => simp [sextets]
  | case4 => simp [sextets]

/-! ### Characters -/

/-- The character of a sextet in the standard alphabet. -/
def symbol (n : ℕ) : Char :=
  if n < 26 then .ofNat (n + 65)
  else if n < 52 then .ofNat (n + 71)
  else if n < 62 then .ofNat (n - 4)
  else if n = 62 then '+'
  else '/'

/-- The sextet of a character of the standard alphabet. -/
def sextet? (c : Char) : Option ℕ :=
  if 'A' ≤ c ∧ c ≤ 'Z' then some (c.toNat - 65)
  else if 'a' ≤ c ∧ c ≤ 'z' then some (c.toNat - 71)
  else if '0' ≤ c ∧ c ≤ '9' then some (c.toNat + 4)
  else if c = '+' then some 62
  else if c = '/' then some 63
  else none

/-- From the standard alphabet to the URL-safe one. -/
def urlSafe (c : Char) : Char := if c = '+' then '-' else if c = '/' then '_' else c

/-- From the URL-safe alphabet to the standard one. -/
def standard (c : Char) : Char := if c = '-' then '+' else if c = '_' then '/' else c

/-- White space of the forgiving decoder. -/
def isSpace (c : Char) : Bool := c = '\t' ∨ c = '\n' ∨ c = '\x0c' ∨ c = '\r' ∨ c = ' '

/-- What the alphabets have to do with each other. -/
theorem symbol_spec : ∀ n < 64, sextet? (symbol n) = some n ∧ symbol n ≠ '=' ∧
    isSpace (symbol n) = false ∧ standard (urlSafe (symbol n)) = symbol n ∧
    urlSafe (symbol n) ≠ '.' ∧ (urlSafe (symbol n)).toNat < 0x80 := by
  decide +kernel

/-- The URL-safe text of some bytes, without padding. -/
def encodeUrl (data : List UInt8) : List Char := (sextets data).map fun n => urlSafe (symbol n)

/-- The padding of a text to whole groups of four. -/
def padding (length : ℕ) : List Char := List.replicate ((4 - length % 4) % 4) '='

/-- The text in the standard alphabet. -/
theorem map_standard_encodeUrl (data : List UInt8) :
    (encodeUrl data).map standard = (sextets data).map symbol := by
  rw [encodeUrl, List.map_map]
  exact List.map_congr_left fun n hn => (symbol_spec n (sextets_lt data n hn)).2.2.2.1

/-- No character of the text is a dot. -/
theorem dot_notMem_encodeUrl (data : List UInt8) : '.' ∉ encodeUrl data := by
  intro hdot
  obtain ⟨n, hn, heq⟩ := List.mem_map.mp hdot
  exact (symbol_spec n (sextets_lt data n hn)).2.2.2.2.1 heq

/-- Every character of the text is an ASCII character. -/
theorem toNat_lt_of_mem_encodeUrl {data : List UInt8} {c : Char} (hc : c ∈ encodeUrl data) :
    c.toNat < 0x80 := by
  obtain ⟨n, hn, rfl⟩ := List.mem_map.mp hc
  exact (symbol_spec n (sextets_lt data n hn)).2.2.2.2.2

/-! ### Decoders -/

/-- A text without one or two padding characters at its end. -/
def trimPadding (text : List Char) : List Char :=
  match text.reverse with
  | '=' :: '=' :: rest => rest.reverse
  | '=' :: rest => rest.reverse
  | _ => text

/-- The forgiving decoder. -/
def forgivingDecode (text : List Char) : Option (List UInt8) :=
  let data := text.filter fun c => ¬isSpace c
  let data := if data.length % 4 = 0 then trimPadding data else data
  if data.length % 4 = 1 then none else (data.mapM sextet?).map bytes

/-- The lenient decoder, with the sextets of the group it is in, and the padding it has seen
in the group. -/
def lenientLoop : List Char → List ℕ → ℕ → Option (List UInt8)
  | [], group, _ => if group = [] then some [] else none
  | c :: rest, group, pads =>
      if c = '=' then
        if 2 ≤ group.length then
          -- a complete group ends the text
          if 4 ≤ group.length + (pads + 1) then some (bytes group)
          else lenientLoop rest group (pads + 1)
        else lenientLoop rest group pads
      else
        match sextet? c with
        | none => lenientLoop rest group pads
        | some n =>
            if group.length = 3 then (lenientLoop rest [] 0).map (bytes (group ++ [n]) ++ ·)
            else lenientLoop rest (group ++ [n]) 0

/-- The lenient decoder. -/
def lenientDecode (text : List Char) : Option (List UInt8) := lenientLoop text [] 0

/-! ### Reading back -/

theorem mapM_sextet? (ns : List ℕ) (h : ∀ n ∈ ns, n < 64) :
    (ns.map symbol).mapM sextet? = some ns := by
  induction ns with
  | nil => rfl
  | cons n ns ih =>
    rw [List.map_cons, List.mapM_cons, (symbol_spec n (h n (List.mem_cons_self ..))).1,
      ih fun m hm => h m (List.mem_cons_of_mem _ hm)]
    rfl

/-- Padding is trimmed from a text of symbols. -/
theorem trimPadding_append {text : List Char} {k : ℕ} (hk : k ≤ 2) (htext : '=' ∉ text) :
    trimPadding (text ++ List.replicate k '=') = text := by
  have hplain : ∀ {c : Char} {rest : List Char}, text.reverse = c :: rest → c ≠ '=' := by
    rintro c rest hrev rfl
    refine htext (List.mem_reverse.mp ?_)
    rw [hrev]
    exact List.mem_cons_self ..
  unfold trimPadding
  rw [List.reverse_append, List.reverse_replicate]
  obtain rfl | rfl | rfl : k = 0 ∨ k = 1 ∨ k = 2 := by omega
  · rw [List.replicate_zero, List.nil_append, List.append_nil]
    split
    · next hrev => exact absurd rfl (hplain hrev)
    · next hrev => exact absurd rfl (hplain hrev)
    · rfl
  · rw [List.replicate_one, List.singleton_append]
    split
    · next hrev => exact absurd rfl (hplain (List.cons.inj hrev).2)
    · next hrev => rw [← (List.cons.inj hrev).2, List.reverse_reverse]
    · next hno => exact absurd rfl (hno text.reverse)
  · exact List.reverse_reverse text

/-- **The forgiving decoder reads back what was written**, in the standard alphabet and with
padding. -/
theorem forgivingDecode_encodeUrl (data : List UInt8) :
    let text := (encodeUrl data).map standard
    forgivingDecode (text ++ padding text.length) = some data := by
  intro text
  have htext : text = (sextets data).map symbol := map_standard_encodeUrl data
  have hlt := sextets_lt data
  have hmod : text.length % 4 ≠ 1 := by
    rw [htext, List.length_map]
    exact length_sextets_mod data
  have hpad : padding text.length = List.replicate ((4 - text.length % 4) % 4) '=' := rfl
  have hplain : '=' ∉ text := by
    intro hmem
    rw [htext] at hmem
    obtain ⟨n, hn, heq⟩ := List.mem_map.mp hmem
    exact (symbol_spec n (hlt n hn)).2.1 heq
  have hkept : (text ++ padding text.length).filter (fun c => ¬isSpace c) =
      text ++ padding text.length := by
    refine List.filter_eq_self.mpr fun c hc => ?_
    rcases List.mem_append.mp hc with hc | hc
    · rw [htext] at hc
      obtain ⟨n, hn, rfl⟩ := List.mem_map.mp hc
      simp [(symbol_spec n (hlt n hn)).2.2.1]
    · rw [List.eq_of_mem_replicate hc]
      rfl
  have hwhole : (text ++ padding text.length).length % 4 = 0 := by
    rw [hpad, List.length_append, List.length_replicate]
    omega
  have htrim : trimPadding (text ++ padding text.length) = text := by
    rw [hpad]
    exact trimPadding_append (by omega) hplain
  simp only [forgivingDecode, hkept, if_pos hwhole, htrim, if_neg hmod]
  rw [htext, mapM_sextet? _ hlt, Option.map_some, bytes_sextets]

/-- The lenient decoder takes a sextet into its group. -/
theorem lenientLoop_symbol {n : ℕ} (hn : n < 64) (rest : List Char) (group : List ℕ) (pads : ℕ) :
    lenientLoop (symbol n :: rest) group pads =
      if group.length = 3 then (lenientLoop rest [] 0).map (bytes (group ++ [n]) ++ ·)
      else lenientLoop rest (group ++ [n]) 0 := by
  obtain ⟨hsextet, hpad, -⟩ := symbol_spec n hn
  rw [lenientLoop, if_neg hpad, hsextet]

/-- **The lenient decoder reads back what was written**, in the standard alphabet and with
padding. -/
theorem lenientDecode_encodeUrl (data : List UInt8) :
    let text := (encodeUrl data).map standard
    lenientDecode (text ++ padding text.length) = some data := by
  intro text
  have htext : text = (sextets data).map symbol := map_standard_encodeUrl data
  rw [htext, List.length_map, lenientDecode]
  clear htext text
  have hlt := sextets_lt data
  have hread := bytes_sextets data
  induction data using sextets.induct with
  | case1 x y z rest ih =>
    rw [sextets] at hlt ⊢
    simp only [List.mem_cons, forall_eq_or_imp] at hlt
    obtain ⟨ha, hb, hc, hd, hrest⟩ := hlt
    have hfour := bytes_sextets [x, y, z]
    have hpad (n : ℕ) : padding (n + 1 + 1 + 1 + 1) = padding n := by simp [padding, Nat.add_assoc]
    simp only [List.map_cons, List.cons_append, List.length_cons, hpad]
    rw [lenientLoop_symbol ha, if_neg (by simp), lenientLoop_symbol hb, if_neg (by simp),
      lenientLoop_symbol hc, if_neg (by simp), lenientLoop_symbol hd, if_pos (by simp),
      ih hrest (bytes_sextets rest)]
    rw [sextets, sextets] at hfour
    simp only [List.nil_append, List.cons_append, Option.map_some, hfour]
  | case2 x y =>
    rw [sextets] at hlt hread ⊢
    simp only [List.mem_cons, forall_eq_or_imp] at hlt
    obtain ⟨ha, hb, hc, -⟩ := hlt
    simp only [List.map_cons, List.cons_append]
    rw [lenientLoop_symbol ha, if_neg (by simp), lenientLoop_symbol hb, if_neg (by simp),
      lenientLoop_symbol hc, if_neg (by simp)]
    exact congrArg some hread
  | case3 x =>
    rw [sextets] at hlt hread ⊢
    simp only [List.mem_cons, forall_eq_or_imp] at hlt
    obtain ⟨ha, hb, -⟩ := hlt
    simp only [List.map_cons, List.cons_append]
    rw [lenientLoop_symbol ha, if_neg (by simp), lenientLoop_symbol hb, if_neg (by simp)]
    exact congrArg some hread
  | case4 => rfl

end Base64
