import Mathlib.Algebra.Order.Group.Defs
import Mathlib.Data.List.Chain

/-!
# Sliding-window limits

A limiter keeps a list of times.  It drops the times before its window now and then,
and admits an event only while fewer than `n` times are kept; the time of an admitted
event is appended.  Between two drops the list may hold times that no longer count, so
the list over-approximates the events of the last window, and never misses one.

The log of admitted events is compared with the list by counting: from any point of the
last window on, the list has at least the events of the log.

The same list may serve to keep events apart: an event is admitted only if every listed
time is `gap` ago.  That works as long as a time is not dropped before `gap` has passed.

A log that grows in the order of time keeps to a limit for half-open windows exactly if each
event finds fewer than that many events of the log in the window before it.

## Main definitions

* `kept w now times` — the times of the window of length `w` that ends now.
* `Tracks w n now times log` — the list of times accounts for the log.
* `Spaced w gap now times log` — the log is spaced, and the list knows its last event.
* `recent w now times` — the times that are less than `w` ago.
* `Limited w n log` — no half-open window of length `w` has more than `n` events.

## Main results

* `Tracks.keep`, `Tracks.later`, `Tracks.admit` — what a limiter does keeps it.
* `Tracks.limited` — **no closed window has more than `n` events of the log**.
* `Spaced.admit` — **events are kept apart by a gap within the window**.
* `limited_concat_iff` — **what one more event takes to keep to the limit**.
-/

namespace SlidingWindow

variable {α : Type*} [AddCommGroup α] [LinearOrder α]

/-- The times of the window of length `w` that ends now. -/
def kept (w now : α) (times : List α) : List α := times.filter fun t => now - w ≤ t

/-- The events of the log in the closed window of length `w` that ends at `t`. -/
def within (w t : α) (log : List α) : List α := log.filter fun a => t - w ≤ a ∧ a ≤ t

/-- The list of times accounts for the log of admitted events, now. -/
structure Tracks (w : α) (n : ℕ) (now : α) (times log : List α) : Prop where
  le_now : ∀ a ∈ log, a ≤ now
  counted : ∀ lo, now - w ≤ lo →
    (log.countP fun a => lo ≤ a) ≤ times.countP fun a => lo ≤ a
  limited : ∀ t, (within w t log).length ≤ n

variable {w now now' : α} {n : ℕ} {times log : List α}

/-- Before any event nothing has to be accounted for. -/
theorem Tracks.nil (times : List α) : Tracks w n now times [] where
  le_now := by simp
  counted := by simp
  limited := by simp [within]

/-- Dropping the times before the window loses no time that counts. -/
theorem Tracks.keep (h : Tracks w n now times log) : Tracks w n now (kept w now times) log where
  le_now := h.le_now
  counted := by
    intro lo hlo
    have hsame : ((kept w now times).countP fun a => lo ≤ a) = times.countP fun a => lo ≤ a := by
      rw [kept, List.countP_filter]
      refine List.countP_congr fun a _ => ?_
      simp only [Bool.and_eq_true, decide_eq_true_eq, and_iff_left_iff_imp]
      exact hlo.trans
    rw [hsame]
    exact h.counted lo hlo
  limited := h.limited

variable [IsOrderedAddMonoid α]

/-- Time passes. -/
theorem Tracks.later (h : Tracks w n now times log) (hle : now ≤ now') :
    Tracks w n now' times log where
  le_now := fun a ha => (h.le_now a ha).trans hle
  counted := fun lo hlo => h.counted lo ((sub_le_sub_right hle w).trans hlo)
  limited := h.limited

/-- What has been dropped would be dropped later. -/
theorem kept_kept (h : now ≤ now') : kept w now' (kept w now times) = kept w now' times := by
  rw [kept, kept, List.filter_filter]
  refine List.filter_congr fun t _ => ?_
  simp only [Bool.and_eq_left_iff_imp, decide_eq_true_eq]
  exact (sub_le_sub_right h w).trans

/-- **An event is admitted** while fewer than `n` times are kept.  A window that ends
before now does not have it; the events of one that does not are all on the list. -/
theorem Tracks.admit (h : Tracks w n now times log) (hroom : times.length < n) :
    Tracks w n now (times ++ [now]) (log ++ [now]) where
  le_now := by
    intro a ha
    rcases List.mem_append.mp ha with ha | ha
    · exact h.le_now a ha
    · exact (List.mem_singleton.mp ha).le
  counted := by
    intro lo hlo
    rw [List.countP_append, List.countP_append]
    exact Nat.add_le_add_right (h.counted lo hlo) _
  limited := by
    intro t
    rw [within, List.filter_append, List.length_append]
    by_cases hnow : t - w ≤ now ∧ now ≤ t
    · have hearlier : (within w t log).length ≤ times.length :=
        calc (within w t log).length
            ≤ log.countP (fun a => t - w ≤ a) := by
              rw [within, ← List.countP_eq_length_filter]
              refine List.countP_mono_left fun a _ ha => ?_
              simp only [decide_eq_true_eq] at ha ⊢
              exact ha.1
          _ ≤ times.countP (fun a => t - w ≤ a) := h.counted _ (sub_le_sub_right hnow.2 w)
          _ ≤ times.length := List.countP_le_length
      rw [List.filter_cons_of_pos (by simpa using hnow), List.filter_nil, List.length_singleton]
      have hlog : (log.filter fun a => decide (t - w ≤ a ∧ a ≤ t)).length ≤ times.length := hearlier
      omega
    · rw [List.filter_cons_of_neg (by simpa using hnow), List.filter_nil, List.length_nil]
      exact h.limited t

/-! ### Events apart -/

omit [IsOrderedAddMonoid α] in
/-- Consecutive events of the log are `gap` apart, and the list has the last one for as long
as it is in the window. -/
structure Spaced (w gap now : α) (times log : List α) : Prop where
  apart : log.IsChain fun a b => gap ≤ b - a
  recalls : ∀ a ∈ log.getLast?, a ∈ times ∨ a < now - w

variable {gap : α}

omit [IsOrderedAddMonoid α] in
theorem Spaced.nil (times : List α) : Spaced w gap now times [] where
  apart := .nil
  recalls := by simp

omit [IsOrderedAddMonoid α] in
/-- A time that is dropped is out of the window. -/
theorem Spaced.keep (h : Spaced w gap now times log) : Spaced w gap now (kept w now times) log where
  apart := h.apart
  recalls := by
    intro a ha
    rcases h.recalls a ha with hmem | hold
    · by_cases hin : now - w ≤ a
      · exact .inl (List.mem_filter.mpr ⟨hmem, by simpa using hin⟩)
      · exact .inr (not_le.mp hin)
    · exact .inr hold

theorem Spaced.later (h : Spaced w gap now times log) (hle : now ≤ now') :
    Spaced w gap now' times log where
  apart := h.apart
  recalls := fun a ha => (h.recalls a ha).imp_right fun hold =>
    hold.trans_le (sub_le_sub_right hle w)

/-- **An event is admitted** when every listed time is `gap` ago.  If the last event is not
listed any more, it is out of the window, and the gap is within the window. -/
theorem Spaced.admit (h : Spaced w gap now times log) (hgap : gap ≤ w)
    (hago : ∀ a ∈ times, gap ≤ now - a) :
    Spaced w gap now (times ++ [now]) (log ++ [now]) where
  apart := by
    refine List.isChain_append.mpr ⟨h.apart, .singleton now, fun a ha b hb => ?_⟩
    obtain rfl : now = b := Option.some.inj hb
    rcases h.recalls a ha with hmem | hold
    · exact hago a hmem
    · have hfar : w < now - a := lt_sub_comm.mp hold
      exact hgap.trans hfar.le
  recalls := by
    intro a ha
    rw [List.getLast?_concat, Option.mem_some_iff] at ha
    exact .inl (List.mem_append_right _ (List.mem_singleton.mpr ha.symm))

/-! ### Half-open windows -/

/-- The times that are less than `w` ago. -/
def recent (w now : α) (times : List α) : List α := times.filter fun t => now - t < w

/-- The events of the log in the half-open window of length `w` from `t` on. -/
def span (w t : α) (log : List α) : List α := log.filter fun a => t ≤ a ∧ a < t + w

/-- No half-open window of length `w` has more than `n` events of the log. -/
def Limited (w : α) (n : ℤ) (log : List α) : Prop := ∀ t, ((span w t log).length : ℤ) ≤ n

variable {limit : ℤ}

omit [IsOrderedAddMonoid α] in
@[simp] theorem recent_append (times times' : List α) :
    recent w now (times ++ times') = recent w now times ++ recent w now times' :=
  List.filter_append ..

omit [IsOrderedAddMonoid α] in
@[simp] theorem limited_nil : Limited w limit ([] : List α) ↔ 0 ≤ limit := by
  simp [Limited, span]

/-- What is not recent will not be recent later. -/
theorem recent_recent (h : now ≤ now') :
    recent w now' (recent w now times) = recent w now' times := by
  rw [recent, recent, List.filter_filter]
  refine List.filter_congr fun t _ => ?_
  simp only [Bool.and_eq_left_iff_imp, decide_eq_true_eq]
  exact (sub_le_sub_right h t).trans_lt

/-- The recent events and the present are in one window. -/
theorem exists_le_recent (now : α) (hw : 0 < w) (log : List α) :
    ∃ t, t ≤ now ∧ now < t + w ∧ ∀ a ∈ recent w now log, t ≤ a := by
  induction log with
  | nil => exact ⟨now, le_rfl, lt_add_of_pos_right now hw, by simp [recent]⟩
  | cons a log ih =>
    obtain ⟨t, hle, hlt, hfirst⟩ := ih
    by_cases ha : now - a < w
    · rw [recent, List.filter_cons_of_pos (by simpa using ha)]
      refine ⟨min a t, (min_le_right a t).trans hle, ?_, ?_⟩
      · rcases min_choice a t with hmin | hmin <;> rw [hmin]
        · exact sub_lt_iff_lt_add'.mp ha
        · exact hlt
      · intro b hb
        rcases List.mem_cons.mp hb with rfl | hb
        · exact min_le_left b t
        · exact (min_le_right a t).trans (hfirst b hb)
    · rw [recent, List.filter_cons_of_neg (by simpa using ha)]
      exact ⟨t, hle, hlt, hfirst⟩

/-- **What one more event takes to keep to the limit.**  A window without it is a window of
the log; one with it has no other events than the recent ones, and there is one that has all
of them. -/
theorem limited_concat_iff (hw : 0 < w) (hlog : ∀ a ∈ log, a ≤ now) :
    Limited w limit (log ++ [now]) ↔
      Limited w limit log ∧ ((recent w now log).length : ℤ) < limit := by
  have hspan : ∀ t, (span w t (log ++ [now])).length =
      (span w t log).length + if t ≤ now ∧ now < t + w then 1 else 0 := by
    intro t
    rw [span, List.filter_append, List.length_append, ← span]
    by_cases hnow : t ≤ now ∧ now < t + w
    · rw [List.filter_cons_of_pos (by simpa using hnow), if_pos hnow]
      rfl
    · rw [List.filter_cons_of_neg (by simpa using hnow), if_neg hnow]
      rfl
  constructor
  · intro h
    constructor
    · intro t
      have ht := h t
      rw [hspan] at ht
      omega
    · obtain ⟨t, hle, hlt, hfirst⟩ := exists_le_recent now hw log
      have ht := h t
      rw [hspan, if_pos ⟨hle, hlt⟩] at ht
      have hall : (recent w now log).length ≤ (span w t log).length := by
        rw [recent, span, ← List.countP_eq_length_filter, ← List.countP_eq_length_filter]
        refine List.countP_mono_left fun a ha hrecent => ?_
        have hge : t ≤ a := hfirst a (List.mem_filter.mpr ⟨ha, hrecent⟩)
        simpa using ⟨hge, (hlog a ha).trans_lt hlt⟩
      omega
  · rintro ⟨h, hroom⟩ t
    rw [hspan]
    split_ifs with hnow
    · have hall : (span w t log).length ≤ (recent w now log).length := by
        rw [recent, span, ← List.countP_eq_length_filter, ← List.countP_eq_length_filter]
        refine List.countP_mono_left fun a _ ha => ?_
        have hge : t ≤ a := (of_decide_eq_true ha).1
        have hlt : now - a < w := (sub_le_sub_left hge now).trans_lt (sub_lt_iff_lt_add'.mpr hnow.2)
        simpa using hlt
      omega
    · exact h t

end SlidingWindow
