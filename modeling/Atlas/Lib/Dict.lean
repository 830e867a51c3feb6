import Mathlib.Algebra.BigOperators.Group.List.Basic
import Mathlib.Algebra.Order.BigOperators.Group.List
import Mathlib.Data.List.Nodup
import Mathlib.Tactic.Abel

/-!
# Insertion-ordered dictionaries

A dictionary whose iteration order is the order in which its keys were first
inserted: overwriting a key keeps its place, a new key goes to the end.  The
entries are a list with distinct keys, and the distinctness is a field, so a
dictionary with a repeated key cannot be built.

## Main definitions

* `Dict κ α` — the dictionaries from `κ` to `α`.
* `Dict.get?`, `Dict.set`, `Dict.erase` — lookup, assignment and deletion.
* `Dict.map`, `Dict.setAll` — a function on the values, and many assignments in turn.
* `Dict.values`, `Dict.keys` — the entries in iteration order.
* `Dict.sum f d` — the sum of `f` over the values.

## Main results

* `Dict.get?_set`, `Dict.get?_erase` — the lookup after an assignment or a
  deletion.
* `Dict.mem_values_iff` — the values are what lookup returns.
* `Dict.setAll_values` — assigning the values of a dictionary again, each under its
  own key, gives the dictionary back.
* `Dict.sum_set` — an assignment changes a sum by the new value's share minus
  the old one's.
* `Dict.sum_of_ne` — the same for any dictionary that differs in one key.
* `Dict.le_sum` — a share is at most a sum of non-negative shares.
-/

/-- An insertion-ordered dictionary: a list of entries with distinct keys. -/
structure Dict (κ α : Type*) where
  /-- The entries in iteration order. -/
  entries : List (κ × α)
  /-- No key occurs twice. -/
  nodup : (entries.map Prod.fst).Nodup
  deriving Repr, DecidableEq

namespace Dict

variable {κ α β : Type*}

/-- The dictionary without entries. -/
def empty : Dict κ α := ⟨[], List.nodup_nil⟩

instance : EmptyCollection (Dict κ α) := ⟨empty⟩
instance : Inhabited (Dict κ α) := ⟨empty⟩

theorem ext_entries {d d' : Dict κ α} (h : d.entries = d'.entries) : d = d' := by
  cases d
  cases d'
  cases h
  rfl

/-- The keys in iteration order. -/
def keys (d : Dict κ α) : List κ := d.entries.map Prod.fst

/-- The values in iteration order. -/
def values (d : Dict κ α) : List α := d.entries.map Prod.snd

/-- The sum of `f` over the values. -/
def sum [AddMonoid β] (f : α → β) (d : Dict κ α) : β := (d.values.map f).sum

@[simp] theorem sum_empty [AddMonoid β] (f : α → β) : (empty : Dict κ α).sum f = 0 := rfl

variable [DecidableEq κ]

/-- The value of a key in a list of entries. -/
def lookup (k : κ) : List (κ × α) → Option α
  | [] => none
  | (k', v) :: l => if k' = k then some v else lookup k l

/-- Assign a key in a list of entries: in place if it occurs, else at the end. -/
def assign (k : κ) (v : α) : List (κ × α) → List (κ × α)
  | [] => [(k, v)]
  | (k', v') :: l => if k' = k then (k, v) :: l else (k', v') :: assign k v l

/-- Remove a key from a list of entries. -/
def remove (k : κ) : List (κ × α) → List (κ × α)
  | [] => []
  | (k', v) :: l => if k' = k then l else (k', v) :: remove k l

theorem mem_keys_assign {k j : κ} {v : α} {l : List (κ × α)} :
    j ∈ (assign k v l).map Prod.fst ↔ j = k ∨ j ∈ l.map Prod.fst := by
  induction l with
  | nil => simp [assign]
  | cons e l ih =>
    obtain ⟨k', v'⟩ := e
    by_cases h : k' = k
    · subst h; simp [assign]
    · simp only [assign, if_neg h, List.map_cons, List.mem_cons, ih]
      tauto

theorem nodup_assign {k : κ} {v : α} {l : List (κ × α)} (h : (l.map Prod.fst).Nodup) :
    ((assign k v l).map Prod.fst).Nodup := by
  induction l with
  | nil => simp [assign]
  | cons e l ih =>
    obtain ⟨k', v'⟩ := e
    rw [List.map_cons, List.nodup_cons] at h
    by_cases hk : k' = k
    · subst hk
      simpa [assign] using h
    · simp only [assign, if_neg hk, List.map_cons, List.nodup_cons, mem_keys_assign]
      exact ⟨fun hmem => hmem.elim hk h.1, ih h.2⟩

theorem remove_sublist (k : κ) (l : List (κ × α)) : (remove k l).Sublist l := by
  induction l with
  | nil => exact .slnil
  | cons e l ih =>
    obtain ⟨k', v'⟩ := e
    by_cases hk : k' = k
    · simp [remove, hk]
    · simpa [remove, hk] using ih

/-- The value of a key. -/
def get? (d : Dict κ α) (k : κ) : Option α := lookup k d.entries

/-- Assign a key. -/
def set (d : Dict κ α) (k : κ) (v : α) : Dict κ α :=
  ⟨assign k v d.entries, nodup_assign d.nodup⟩

/-- Delete a key. -/
def erase (d : Dict κ α) (k : κ) : Dict κ α :=
  ⟨remove k d.entries, d.nodup.sublist ((remove_sublist k d.entries).map Prod.fst)⟩

/-! ### Lookup -/

theorem lookup_assign (k j : κ) (v : α) (l : List (κ × α)) :
    lookup j (assign k v l) = if k = j then some v else lookup j l := by
  induction l with
  | nil => simp [assign, lookup]
  | cons e l ih =>
    obtain ⟨k', v'⟩ := e
    by_cases hk : k' = k
    · subst hk
      by_cases hj : k' = j <;> simp [assign, lookup, hj]
    · simp only [assign, if_neg hk, lookup, ih]
      by_cases hj : k' = j
      · subst hj; simp [Ne.symm hk]
      · simp [hj]

theorem lookup_eq_none {k : κ} {l : List (κ × α)} :
    lookup k l = none ↔ k ∉ l.map Prod.fst := by
  induction l with
  | nil => simp [lookup]
  | cons e l ih =>
    obtain ⟨k', v'⟩ := e
    by_cases hk : k' = k
    · simp [lookup, hk]
    · simp [lookup, hk, ih, Ne.symm hk]

theorem lookup_remove {k j : κ} {l : List (κ × α)} (h : (l.map Prod.fst).Nodup) :
    lookup j (remove k l) = if k = j then none else lookup j l := by
  induction l with
  | nil => simp [remove, lookup]
  | cons e l ih =>
    obtain ⟨k', v'⟩ := e
    rw [List.map_cons, List.nodup_cons] at h
    by_cases hk : k' = k
    · subst hk
      by_cases hj : k' = j
      · subst hj; simpa [remove] using lookup_eq_none.mpr h.1
      · simp [remove, lookup, hj]
    · simp only [remove, if_neg hk, lookup, ih h.2]
      by_cases hj : k' = j
      · subst hj; simp [Ne.symm hk]
      · simp [hj]

/-- An entry of a dictionary is found under its key. -/
theorem lookup_eq_some {k : κ} {v : α} {l : List (κ × α)} (h : (l.map Prod.fst).Nodup) :
    lookup k l = some v ↔ (k, v) ∈ l := by
  induction l with
  | nil => simp [lookup]
  | cons e l ih =>
    obtain ⟨k', v'⟩ := e
    rw [List.map_cons, List.nodup_cons] at h
    by_cases hk : k' = k
    · subst hk
      have hnot : (k', v) ∉ l := fun hmem => h.1 (List.mem_map.mpr ⟨(k', v), hmem, rfl⟩)
      simp [lookup, hnot, eq_comm]
    · simp [lookup, hk, ih h.2, Ne.symm hk]

@[simp] theorem get?_empty (k : κ) : (empty : Dict κ α).get? k = none := rfl

theorem get?_set (d : Dict κ α) (k j : κ) (v : α) :
    (d.set k v).get? j = if k = j then some v else d.get? j := lookup_assign k j v d.entries

@[simp] theorem get?_set_self (d : Dict κ α) (k : κ) (v : α) : (d.set k v).get? k = some v := by
  rw [get?_set, if_pos rfl]

theorem get?_set_ne (d : Dict κ α) {k j : κ} (h : k ≠ j) (v : α) :
    (d.set k v).get? j = d.get? j := by rw [get?_set, if_neg h]

theorem assign_assign (k : κ) (v w : α) (l : List (κ × α)) :
    assign k w (assign k v l) = assign k w l := by
  induction l with
  | nil => simp [assign]
  | cons e l ih =>
    by_cases h : e.1 = k
    · simp [assign, h]
    · simp [assign, h, ih]

/-- The last value assigned to a key stands. -/
theorem set_set (d : Dict κ α) (k : κ) (v w : α) : (d.set k v).set k w = d.set k w := by
  simp only [set, assign_assign]

theorem assign_of_lookup {k : κ} {v : α} {l : List (κ × α)} (h : lookup k l = some v) :
    assign k v l = l := by
  induction l with
  | nil => cases h
  | cons e l ih =>
    obtain ⟨k', v'⟩ := e
    by_cases hk : k' = k
    · simp only [lookup, if_pos hk, Option.some.injEq] at h
      simp [assign, hk, h]
    · simp only [lookup, if_neg hk] at h
      simp [assign, hk, ih h]

/-- Assigning the value of a key again changes nothing. -/
theorem set_of_get? {d : Dict κ α} {k : κ} {v : α} (h : d.get? k = some v) : d.set k v = d := by
  obtain ⟨l, hl⟩ := d
  simp only [set, assign_of_lookup (show lookup k l = some v from h)]

theorem get?_erase (d : Dict κ α) (k j : κ) :
    (d.erase k).get? j = if k = j then none else d.get? j := lookup_remove d.nodup

theorem mem_entries_iff {d : Dict κ α} {k : κ} {v : α} : (k, v) ∈ d.entries ↔ d.get? k = some v :=
  (lookup_eq_some d.nodup).symm

theorem mem_values_iff {d : Dict κ α} {v : α} : v ∈ d.values ↔ ∃ k, d.get? k = some v := by
  simp [values, ← mem_entries_iff]

/-- A new key goes to the end. -/
theorem entries_set_of_get?_none {d : Dict κ α} {k : κ} (h : d.get? k = none) (v : α) :
    (d.set k v).entries = d.entries ++ [(k, v)] := by
  have happend : ∀ l : List (κ × α), lookup k l = none → assign k v l = l ++ [(k, v)] := by
    intro l
    induction l with
    | nil => exact fun _ => rfl
    | cons e l ih =>
      obtain ⟨k', v'⟩ := e
      intro hl
      by_cases hk : k' = k
      · simp [lookup, hk] at hl
      · rw [lookup, if_neg hk] at hl
        rw [assign, if_neg hk, ih hl, List.cons_append]
  exact happend _ h

/-- An assignment to a new key adds its value at the end. -/
theorem values_set_of_get?_none {d : Dict κ α} {k : κ} (h : d.get? k = none) (v : α) :
    (d.set k v).values = d.values ++ [v] := by
  rw [values, entries_set_of_get?_none h, List.map_append]
  rfl

/-! ### Functions on the values, and many assignments -/

omit [DecidableEq κ] in
theorem nodup_map (f : κ → α → β) (d : Dict κ α) :
    ((d.entries.map fun e => (e.1, f e.1 e.2)).map Prod.fst).Nodup := by
  rw [List.map_map]
  exact d.nodup

/-- The dictionary with `f` applied to each key and value. -/
def map (f : κ → α → β) (d : Dict κ α) : Dict κ β :=
  ⟨d.entries.map fun e => (e.1, f e.1 e.2), nodup_map f d⟩

theorem lookup_map (f : κ → α → β) (k : κ) (l : List (κ × α)) :
    lookup k (l.map fun e => (e.1, f e.1 e.2)) = (lookup k l).map (f k) := by
  induction l with
  | nil => rfl
  | cons e l ih =>
    obtain ⟨k', v⟩ := e
    by_cases hk : k' = k
    · subst hk; simp [lookup]
    · simp only [List.map_cons, lookup, if_neg hk, ih]

@[simp] theorem get?_map (f : κ → α → β) (d : Dict κ α) (k : κ) :
    (d.map f).get? k = (d.get? k).map (f k) := lookup_map f k d.entries

/-- Assign the values of a list in turn, each under its key. -/
def setAll (key : α → κ) (d : Dict κ α) (l : List α) : Dict κ α :=
  l.foldl (fun d v => d.set (key v) v) d

/-- A value found after assigning a list is in the list, or was there before. -/
theorem mem_or_of_get?_setAll {key : α → κ} {l : List α} {d : Dict κ α} {k : κ} {v : α}
    (h : (d.setAll key l).get? k = some v) : v ∈ l ∨ d.get? k = some v := by
  induction l generalizing d with
  | nil => exact .inr h
  | cons w l ih =>
    rcases @ih (d.set (key w) w) h with hv | hv
    · exact .inl (List.mem_cons_of_mem _ hv)
    · rw [get?_set] at hv
      split_ifs at hv
      · exact .inl (List.mem_cons.mpr (.inl (Option.some.inj hv).symm))
      · exact .inr hv

/-- The last value assigned is found. -/
theorem exists_get?_setAll {key : α → κ} {l : List α} (hl : l ≠ []) (d : Dict κ α) :
    ∃ v ∈ l, (d.setAll key l).get? (key v) = some v := by
  obtain rfl | ⟨l, v, rfl⟩ := List.eq_nil_or_concat l
  · exact absurd rfl hl
  · rw [List.concat_eq_append]
    refine ⟨v, List.mem_append_right l (List.mem_singleton_self v), ?_⟩
    rw [setAll, List.foldl_append, List.foldl_cons, List.foldl_nil, get?_set_self]

/-- Every value is assigned under its own key. -/
theorem key_of_get?_setAll {key : α → κ} {l : List α} {d : Dict κ α}
    (hd : ∀ {k v}, d.get? k = some v → key v = k) {k : κ} {v : α}
    (h : (d.setAll key l).get? k = some v) : key v = k := by
  induction l generalizing d with
  | nil => exact hd h
  | cons w l ih =>
    refine @ih (d.set (key w) w) (fun {j u} hu => ?_) h
    rw [get?_set] at hu
    split_ifs at hu with hj
    · rw [← Option.some.inj hu, hj]
    · exact hd hu

omit [DecidableEq κ] in
theorem map_values_of_key {key : α → κ} {d : Dict κ α} (h : ∀ e ∈ d.entries, key e.2 = e.1) :
    d.values.map key = d.keys := by
  rw [values, keys, List.map_map]
  exact List.map_congr_left h

/-- Values whose keys are all new go to the end. -/
theorem entries_setAll_of_nodup {key : α → κ} {l : List α} {d : Dict κ α}
    (h : (d.keys ++ l.map key).Nodup) :
    (d.setAll key l).entries = d.entries ++ l.map fun v => (key v, v) := by
  induction l generalizing d with
  | nil => exact (List.append_nil _).symm
  | cons v l ih =>
    have hnew : d.get? (key v) = none := by
      rw [get?, lookup_eq_none]
      intro hmem
      exact (List.nodup_append.mp h).2.2 _ hmem _ (List.mem_cons_self ..) rfl
    have hentries : (d.set (key v) v).entries = d.entries ++ [(key v, v)] :=
      entries_set_of_get?_none hnew v
    have hkeys : (d.set (key v) v).keys = d.keys ++ [key v] := by
      rw [keys, hentries, List.map_append]
      rfl
    rw [setAll, List.foldl_cons, ← setAll, ih, hentries, List.append_assoc]
    · rfl
    · rw [hkeys, List.append_assoc]
      exact h

/-- **Assigning the values of a dictionary again**, each under its own key, gives the
dictionary back. -/
theorem setAll_values {key : α → κ} {d : Dict κ α} (h : ∀ {k v}, d.get? k = some v → key v = k) :
    (empty : Dict κ α).setAll key d.values = d := by
  have hkey : ∀ e ∈ d.entries, key e.2 = e.1 := fun e he => h (mem_entries_iff.mp he)
  have hnodup : ((empty : Dict κ α).keys ++ d.values.map key).Nodup := by
    rw [map_values_of_key hkey]
    exact d.nodup
  apply ext_entries
  rw [entries_setAll_of_nodup hnodup, values, List.map_map]
  refine (List.map_congr_left fun e he => ?_).trans (List.map_id _)
  exact Prod.ext (hkey e he) rfl

theorem get?_setAll_values {key : α → κ} {d : Dict κ α}
    (h : ∀ {k v}, d.get? k = some v → key v = k) (k : κ) :
    ((empty : Dict κ α).setAll key d.values).get? k = d.get? k := by rw [setAll_values h]

/-! ### Sums -/

theorem sum_assign [AddCommGroup β] (f : α → β) {k : κ} (v : α) {l : List (κ × α)} :
    ((assign k v l).map fun e => f e.2).sum =
      (l.map fun e => f e.2).sum - (lookup k l).elim 0 f + f v := by
  induction l with
  | nil => simp [assign, lookup]
  | cons e l ih =>
    obtain ⟨k', v'⟩ := e
    by_cases hk : k' = k
    · simp only [assign, lookup, if_pos hk, List.map_cons, List.sum_cons, Option.elim]
      abel
    · simp only [assign, lookup, if_neg hk, List.map_cons, List.sum_cons, ih]
      abel

/-- **An assignment changes a sum by the new value's share minus the old one's.** -/
theorem sum_set [AddCommGroup β] (f : α → β) (d : Dict κ α) (k : κ) (v : α) :
    (d.set k v).sum f = d.sum f - (d.get? k).elim 0 f + f v := by
  simpa [sum, values, set, get?, List.map_map, Function.comp_def] using sum_assign f v

theorem sum_remove [AddCommGroup β] (f : α → β) (k : κ) (l : List (κ × α)) :
    ((remove k l).map fun e => f e.2).sum =
      (l.map fun e => f e.2).sum - (lookup k l).elim 0 f := by
  induction l with
  | nil => simp [remove, lookup]
  | cons e l ih =>
    obtain ⟨k', v'⟩ := e
    by_cases hk : k' = k
    · simp only [remove, lookup, if_pos hk, List.map_cons, List.sum_cons, Option.elim]
      abel
    · simp only [remove, lookup, if_neg hk, List.map_cons, List.sum_cons, ih]
      abel

/-- A deletion takes the share of the deleted value out of a sum. -/
theorem sum_erase [AddCommGroup β] (f : α → β) (d : Dict κ α) (k : κ) :
    (d.erase k).sum f = d.sum f - (d.get? k).elim 0 f := by
  simpa [sum, values, erase, get?, List.map_map, Function.comp_def] using sum_remove f k d.entries

omit [DecidableEq κ] in
theorem entries_nodup (d : Dict κ α) : d.entries.Nodup := List.Nodup.of_map _ d.nodup

/-- Dictionaries that return the same values hold the same entries. -/
theorem entries_perm {d d' : Dict κ α} (h : ∀ k, d.get? k = d'.get? k) :
    d.entries.Perm d'.entries := by
  refine (List.perm_ext_iff_of_nodup d.entries_nodup d'.entries_nodup).mpr fun e => ?_
  rw [mem_entries_iff, mem_entries_iff, h]

/-- A sum over the values does not depend on their order. -/
theorem sum_congr [AddCommMonoid β] (f : α → β) {d d' : Dict κ α}
    (h : ∀ k, d.get? k = d'.get? k) : d.sum f = d'.sum f :=
  ((entries_perm h).map Prod.snd |>.map f).sum_eq

omit [DecidableEq κ] in
/-- A sum depends on the shares of the values that occur. -/
theorem sum_congr_values [AddMonoid β] {f g : α → β} {d : Dict κ α} (h : ∀ v ∈ d.values, f v = g v) :
    d.sum f = d.sum g := by
  rw [sum, sum, List.map_congr_left h]

omit [DecidableEq κ] in
theorem sum_map {γ : Type*} [AddMonoid γ] {f : κ → α → β} {g : β → γ} {h : α → γ} {d : Dict κ α}
    (hfg : ∀ k v, g (f k v) = h v) : (d.map f).sum g = d.sum h := by
  simp only [sum, values, map, List.map_map, Function.comp_def, hfg]

/-- **A dictionary that differs in one key** differs in the sum by that key's shares. -/
theorem sum_of_ne [AddCommGroup β] (f : α → β) {d d' : Dict κ α} {k : κ} {v : α}
    (h : ∀ {j}, k ≠ j → d'.get? j = d.get? j) (hv : d'.get? k = some v) :
    d'.sum f = d.sum f - (d.get? k).elim 0 f + f v := by
  rw [← sum_set]
  refine sum_congr f fun j => ?_
  rw [get?_set]
  split_ifs with hj
  · rw [← hj, hv]
  · exact h hj

/-- One share of a sum of non-negative shares is at most the sum. -/
theorem le_sum [AddCommMonoid β] [PartialOrder β] [IsOrderedAddMonoid β] {f : α → β}
    {d : Dict κ α} (h : ∀ {k v}, d.get? k = some v → 0 ≤ f v) {k : κ} {v : α}
    (hv : d.get? k = some v) : f v ≤ d.sum f := by
  refine List.single_le_sum (fun x hx => ?_) _ (List.mem_map_of_mem (mem_values_iff.mpr ⟨k, hv⟩))
  obtain ⟨w, hw, rfl⟩ := List.mem_map.mp hx
  obtain ⟨j, hj⟩ := mem_values_iff.mp hw
  exact h hj

end Dict
