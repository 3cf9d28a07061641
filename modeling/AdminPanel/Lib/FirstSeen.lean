import Mathlib.Data.List.Nodup
import Mathlib.Data.Nat.Init

/-!
# Lists without what was seen

`List.eraseDups` keeps the first of equal elements, as a loop with a set of what it has seen does.

* `nodup_eraseDups` — what is kept is kept once;
* `eraseDups_append_of_subset` — elements that are all there already change nothing.
-/

namespace Lib

open List

variable {α : Type} [BEq α] [LawfulBEq α]

theorem nodup_eraseDups (xs : List α) : xs.eraseDups.Nodup := by
  induction hLength : xs.length using Nat.strong_induction_on generalizing xs with
  | _ length ih =>
    cases xs with
    | nil => exact nodup_nil
    | cons x xs =>
      have hShorter : (xs.filter fun other => !other == x).length < length :=
        hLength ▸ Nat.lt_succ_of_le (length_filter_le _ xs)
      rw [eraseDups_cons, nodup_cons, mem_eraseDups]
      exact ⟨fun hMem => by simp at hMem, ih _ hShorter _ rfl⟩

/-- **Elements that are there already** are not kept again. -/
theorem eraseDups_append_of_subset {xs more : List α} (h : xs.Nodup) (hMore : more ⊆ xs) :
    (xs ++ more).eraseDups = xs := by
  induction xs generalizing more with
  | nil => rw [eq_nil_of_subset_nil hMore]; rfl
  | cons x xs ih =>
    rw [nodup_cons] at h
    have hKept : (xs.filter fun other => !other == x) = xs := by
      rw [filter_eq_self]
      intro other hOther
      rw [Bool.not_eq_true', beq_eq_false_iff_ne]
      exact fun hEq => h.1 (hEq ▸ hOther)
    have hSubset : (more.filter fun other => !other == x) ⊆ xs := by
      intro other hOther
      rw [mem_filter, Bool.not_eq_true', beq_eq_false_iff_ne] at hOther
      exact (mem_cons.mp (hMore hOther.1)).resolve_left hOther.2
    rw [cons_append, eraseDups_cons, filter_append, hKept, ih h.2 hSubset]

end Lib
