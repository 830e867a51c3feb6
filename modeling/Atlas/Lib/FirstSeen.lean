import Mathlib.Data.Finset.Lattice.Lemmas

/-!
# First appearances

A reader that remembers the keys it has seen keeps of a list what has a new key, and of
several with one new key the first.  What it keeps it has then seen.

## Main definitions

* `firsts key seen l` — what is kept of `l` when the keys in `seen` are known.

## Main results

* `firsts_union` — **when more keys are known, those are left out**.
* `firsts_nodup`, `notMem_of_mem_firsts` — the keys that are kept are new and distinct.
-/

namespace FirstSeen

variable {α κ : Type*} [DecidableEq κ] {key : α → κ} {seen more : Finset κ} {l : List α}

/-- The first appearance of every key that has not been seen. -/
def firsts (key : α → κ) (seen : Finset κ) : List α → List α
  | [] => []
  | a :: l => if key a ∈ seen then firsts key seen l else a :: firsts key (insert (key a) seen) l

@[simp] theorem firsts_nil : firsts key seen [] = [] := rfl

theorem firsts_cons_of_mem {a : α} (h : key a ∈ seen) :
    firsts key seen (a :: l) = firsts key seen l := if_pos h

theorem firsts_cons_of_notMem {a : α} (h : key a ∉ seen) :
    firsts key seen (a :: l) = a :: firsts key (insert (key a) seen) l := if_neg h

/-- What is kept has a key that has not been seen. -/
theorem notMem_of_mem_firsts {a : α} (h : a ∈ firsts key seen l) : key a ∉ seen := by
  induction l generalizing seen with
  | nil => exact absurd h List.not_mem_nil
  | cons b l ih =>
    by_cases hb : key b ∈ seen
    · rw [firsts_cons_of_mem hb] at h
      exact ih h
    · rw [firsts_cons_of_notMem hb] at h
      rcases List.mem_cons.mp h with rfl | hl
      · exact hb
      · exact fun ha => ih hl (Finset.mem_insert_of_mem ha)

theorem firsts_nodup (key : α → κ) (seen : Finset κ) (l : List α) :
    ((firsts key seen l).map key).Nodup := by
  induction l generalizing seen with
  | nil => exact List.nodup_nil
  | cons a l ih =>
    by_cases ha : key a ∈ seen
    · rw [firsts_cons_of_mem ha]
      exact ih seen
    · rw [firsts_cons_of_notMem ha, List.map_cons, List.nodup_cons]
      refine ⟨fun hmem => ?_, ih _⟩
      obtain ⟨b, hb, heq⟩ := List.mem_map.mp hmem
      exact notMem_of_mem_firsts hb (heq ▸ Finset.mem_insert_self ..)

/-- **When more keys are known**, what has one of them is left out, and nothing else changes. -/
theorem firsts_union (key : α → κ) (seen more : Finset κ) (l : List α) :
    firsts key (seen ∪ more) l = (firsts key seen l).filter fun a => key a ∉ more := by
  induction l generalizing seen with
  | nil => rfl
  | cons a l ih =>
    by_cases ha : key a ∈ seen
    · rw [firsts_cons_of_mem ha, firsts_cons_of_mem (Finset.mem_union_left _ ha)]
      exact ih seen
    · rw [firsts_cons_of_notMem ha]
      have hrest := ih (insert (key a) seen)
      rw [Finset.insert_union] at hrest
      by_cases hmore : key a ∈ more
      · -- the key is known already
        rw [Finset.insert_eq_of_mem (Finset.mem_union_right _ hmore)] at hrest
        rw [firsts_cons_of_mem (Finset.mem_union_right _ hmore), hrest,
          List.filter_cons_of_neg (by simpa using hmore)]
      · have hnew : key a ∉ seen ∪ more := by
          rw [Finset.mem_union]
          exact not_or.mpr ⟨ha, hmore⟩
        rw [firsts_cons_of_notMem hnew, hrest, List.filter_cons_of_pos (by simpa using hmore)]

end FirstSeen
