import Mathlib.Algebra.Order.Group.Int
import Mathlib.Data.List.Basic

/-!
# Sliding windows

Times in the order in which they were noted down, and how many of them lie within a window.

* `within` — the times in the window that ends at a time;
* `Limited` — no interval of a window's length holds more times than a limit;
* `limited_concat` — one more time keeps the limit exactly if the window that ends there had room;
* `within_within` — a list cut down to a window is still right for later windows.
-/

namespace Lib.Window

open List

variable {limit window : ℕ} {now later start : ℤ} {times : List ℤ}

/-- The times that are not older than a window. -/
def within (window : ℕ) (now : ℤ) (times : List ℤ) : List ℤ :=
  times.filter fun time => now - time ≤ window

def Limited (limit window : ℕ) (times : List ℤ) : Prop :=
  ∀ start : ℤ, (times.filter fun time => start ≤ time ∧ time ≤ start + window).length ≤ limit

theorem mem_within {time : ℤ} : time ∈ within window now times ↔
    time ∈ times ∧ now - time ≤ window := by
  rw [within, mem_filter, decide_eq_true_eq]

theorem within_append (more : List ℤ) :
    within window now (times ++ more) = within window now times ++ within window now more :=
  filter_append ..

theorem within_within (h : now ≤ later) :
    within window later (within window now times) = within window later times := by
  rw [within, within, filter_filter]
  refine filter_congr fun time _ => ?_
  rw [← Bool.decide_and, decide_eq_decide]
  omega

theorem limited_nil : Limited limit window [] := fun _ => Nat.zero_le limit

theorem Limited.of_append {more : List ℤ} (h : Limited limit window (times ++ more)) :
    Limited limit window times := by
  intro start
  refine (List.Sublist.length_le ?_).trans (h start)
  exact (sublist_append_left times more).filter _

/-- The interval that ends at the last time is the window there. -/
theorem interval_end (hLast : ∀ time ∈ times, time ≤ now) :
    times.filter (fun time => now - window ≤ time ∧ time ≤ now - window + window) =
      within window now times := by
  refine filter_congr fun time hTime => ?_
  have hLe := hLast time hTime
  rw [decide_eq_decide]
  omega

/-- One more time keeps the limit if the window before it has room. -/
theorem limited_concat (hLast : ∀ time ∈ times, time ≤ now) :
    Limited limit window (times ++ [now]) ↔
      Limited limit window times ∧ (within window now times).length < limit := by
  constructor
  · intro h
    refine ⟨h.of_append, ?_⟩
    have hEnd := h (now - window)
    rw [filter_append, interval_end hLast, filter_cons_of_pos (by
      rw [decide_eq_true_eq]
      omega), filter_nil, length_append, length_singleton] at hEnd
    omega
  · rintro ⟨hTimes, hRoom⟩ start
    rw [filter_append, length_append]
    by_cases hIn : start ≤ now ∧ now ≤ start + window
    · -- What lies in the interval before the last time lies in the window there.
      have hSub : (times.filter fun time => start ≤ time ∧ time ≤ start + window).length ≤
          (within window now times).length := by
        refine List.Sublist.length_le (monotone_filter_right times fun time hTime => ?_)
        rw [decide_eq_true_eq] at hTime ⊢
        omega
      rw [filter_cons_of_pos (by rw [decide_eq_true_eq]; exact hIn), filter_nil,
        length_singleton]
      omega
    · rw [filter_cons_of_neg (by rw [decide_eq_true_eq]; exact hIn), filter_nil,
        length_nil, Nat.add_zero]
      exact hTimes start

end Lib.Window
