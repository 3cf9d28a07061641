import Mathlib.Data.List.Basic
import Mathlib.Order.MinMax

/-!
# An index of intervals

Intervals sorted by their start, with the greatest end up to each of them. Whether one that starts
by `x` ends at `y` or later is looked up at one place.

* `bisectRight`, `scanMax` — where the starts exceed `x`, and the running maximum of the ends;
* `reaches_iff` — the look-up finds what a scan finds.
-/

namespace Lib.IntervalIndex

open List

variable {α : Type} [LinearOrder α]

/-- `bisect_right` on a sorted list -/
def bisectRight (starts : List α) (x : α) : ℕ := (starts.takeWhile (· ≤ x)).length

def scanMax (current : α) : List α → List α
  | [] => []
  | e :: ends => max current e :: scanMax (max current e) ends

/-- The running maximum before the place where the starts exceed `x` is `y` or more. -/
def reaches (starts maxEnds : List α) (x y : α) : Bool :=
  if bisectRight starts x = 0 then false
  else maxEnds[bisectRight starts x - 1]?.any (y ≤ ·)

theorem getElem?_scanMax {current : α} {ends : List α} {i : ℕ} (h : i < ends.length) :
    (scanMax current ends)[i]? = some ((ends.take (i + 1)).foldl max current) := by
  induction ends generalizing current i with
  | nil => cases h
  | cons e ends ih =>
    cases i with
    | zero => rfl
    | succ i => exact ih (Nat.lt_of_succ_lt_succ h)

theorem le_foldl_max {y current : α} {ends : List α} :
    y ≤ ends.foldl max current ↔ y ≤ current ∨ ∃ e ∈ ends, y ≤ e := by
  induction ends generalizing current with
  | nil => simp
  | cons e ends ih =>
    rw [foldl_cons, ih, le_max_iff, or_assoc]
    simp only [mem_cons, exists_eq_or_imp]

/-- In a sorted list, what stands before the first element above `x` is all that is not above. -/
theorem mem_take_bisectRight {ranges : List (α × α)} (hSorted : ranges.Pairwise (·.1 ≤ ·.1))
    (x : α) {r : α × α} : r ∈ ranges.take (bisectRight (ranges.map Prod.fst) x) ↔
      r ∈ ranges ∧ r.1 ≤ x := by
  induction ranges with
  | nil => simp
  | cons s ranges ih =>
    obtain ⟨hFirst, hRest⟩ := pairwise_cons.mp hSorted
    by_cases hStart : s.1 ≤ x
    · have hCount : bisectRight ((s :: ranges).map Prod.fst) x =
          bisectRight (ranges.map Prod.fst) x + 1 := by
        simp [bisectRight, hStart]
      rw [hCount, take_succ_cons, mem_cons, mem_cons, ih hRest]
      constructor
      · rintro (rfl | ⟨hMem, hLe⟩)
        · exact ⟨.inl rfl, hStart⟩
        · exact ⟨.inr hMem, hLe⟩
      · rintro ⟨rfl | hMem, hLe⟩
        · exact .inl rfl
        · exact .inr ⟨hMem, hLe⟩
    · have hCount : bisectRight ((s :: ranges).map Prod.fst) x = 0 := by
        simp [bisectRight, hStart]
      rw [hCount, take_zero]
      refine iff_of_false not_mem_nil ?_
      rintro ⟨hMem, hLe⟩
      rcases mem_cons.mp hMem with rfl | hMem
      · exact hStart hLe
      · exact hStart ((hFirst r hMem).trans hLe)

/-- **The look-up finds what a scan finds.** -/
theorem reaches_iff {ranges : List (α × α)} (hSorted : ranges.Pairwise (·.1 ≤ ·.1)) {x y least : α}
    (hLeast : ¬ y ≤ least) :
    reaches (ranges.map Prod.fst) (scanMax least (ranges.map Prod.snd)) x y = true ↔
      ∃ r ∈ ranges, r.1 ≤ x ∧ y ≤ r.2 := by
  have hTaken := fun r => @mem_take_bisectRight α _ ranges hSorted x r
  unfold reaches
  split_ifs with hZero
  · rw [hZero, take_zero] at hTaken
    refine iff_of_false (fun hFalse => hFalse) ?_
    rintro ⟨r, hMem, hStart, -⟩
    exact absurd ((hTaken r).mpr ⟨hMem, hStart⟩) not_mem_nil
  · have hLength : bisectRight (ranges.map Prod.fst) x - 1 < (ranges.map Prod.snd).length := by
      have hLe : bisectRight (ranges.map Prod.fst) x ≤ (ranges.map Prod.fst).length :=
        List.Sublist.length_le (takeWhile_sublist _)
      rw [length_map] at hLe ⊢
      omega
    rw [getElem?_scanMax hLength, Nat.sub_add_cancel (Nat.pos_of_ne_zero hZero), Option.any_some,
      decide_eq_true_eq, le_foldl_max, or_iff_right hLeast, ← map_take]
    constructor
    · rintro ⟨e, hMem, hLe⟩
      obtain ⟨r, hTake, rfl⟩ := mem_map.mp hMem
      obtain ⟨hRange, hStart⟩ := (hTaken r).mp hTake
      exact ⟨r, hRange, hStart, hLe⟩
    · rintro ⟨r, hRange, hStart, hLe⟩
      exact ⟨r.2, mem_map_of_mem ((hTaken r).mpr ⟨hRange, hStart⟩), hLe⟩

end Lib.IntervalIndex
