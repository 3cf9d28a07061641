import Mathlib.Algebra.BigOperators.Group.List.Basic
import Mathlib.Algebra.Ring.Int.Defs
import Mathlib.Data.Int.Basic
import Mathlib.Order.Lattice

/-!
# Periods of a time line

A function that gives the period of a time, with its start and its end.

* `Tiles` — the period has the time in it, and is the period of all times that it has in it;
* `Consecutive` — times in periods that follow each other;
* `count_consecutive`, `sum_consecutive` — what is counted over consecutive periods is counted
  once, and adds up.
-/

namespace Lib.Periods

open List

variable {τ ι : Type} [LinearOrder τ]

/-- A period; its end is not in it. -/
def within (start finish t : τ) : Bool := decide (start ≤ t) && decide (t < finish)

theorem within_iff {start finish t : τ} :
    within start finish t = true ↔ start ≤ t ∧ t < finish := by
  rw [within, Bool.and_eq_true, decide_eq_true_eq, decide_eq_true_eq]

/-- The period of a time is the period of every time in it, and the next one begins at its end. -/
structure Tiles (periodOf : τ → Option (τ × τ)) (now start finish : τ) : Prop where
  period : periodOf now = some (start, finish)
  start_le : start ≤ now
  lt_finish : now < finish
  same : ∀ t, start ≤ t → t < finish → periodOf t = some (start, finish)
  next : ∃ after, periodOf finish = some (finish, after)

/-- Times whose periods follow each other, from the first start to the last end. -/
inductive Consecutive (periodOf : τ → Option (τ × τ)) : τ → List τ → τ → Prop where
  | nil (start : τ) : Consecutive periodOf start [] start
  | cons {start middle finish now : τ} {nows : List τ}
      (hPeriod : periodOf now = some (start, middle))
      (hRest : Consecutive periodOf middle nows finish) :
      Consecutive periodOf start (now :: nows) finish

/-- A time is in the period of another one. -/
def inPeriod (periodOf : τ → Option (τ × τ)) (t now : τ) : Bool :=
  (periodOf now).any fun period => within period.1 period.2 t

variable {periodOf : τ → Option (τ × τ)} {start middle finish : τ} {nows : List τ}

theorem Consecutive.le (h : Consecutive periodOf start nows finish)
    (hOrder : ∀ now s e, periodOf now = some (s, e) → s ≤ e) : start ≤ finish := by
  induction h with
  | nil start => exact le_rfl
  | cons hPeriod hRest ih => exact le_trans (hOrder _ _ _ hPeriod) ih

/-- **Each time from the first start to the last end is in one period of a row.** -/
theorem count_consecutive (h : Consecutive periodOf start nows finish)
    (hOrder : ∀ now s e, periodOf now = some (s, e) → s ≤ e) (t : τ) :
    nows.countP (inPeriod periodOf t) = if start ≤ t ∧ t < finish then 1 else 0 := by
  induction h with
  | nil start =>
    rw [if_neg fun hBoth => absurd hBoth.2 (not_lt.mpr hBoth.1)]
    rfl
  | @cons start middle finish now nows hPeriod hRest ih =>
    have hFirst : inPeriod periodOf t now = within start middle t := by
      rw [inPeriod, hPeriod]
      rfl
    have hStart := hOrder _ _ _ hPeriod
    have hFinish := hRest.le hOrder
    rw [countP_cons, ih, hFirst]
    by_cases hMiddle : t < middle
    · rw [if_neg fun hBoth => absurd hMiddle (not_lt.mpr hBoth.1), Nat.zero_add]
      by_cases hIn : start ≤ t
      · rw [if_pos (within_iff.mpr ⟨hIn, hMiddle⟩), if_pos ⟨hIn, lt_of_lt_of_le hMiddle hFinish⟩]
      · rw [if_neg fun hWithin => hIn (within_iff.mp hWithin).1, if_neg fun hBoth => hIn hBoth.1]
    · rw [if_neg fun hWithin => hMiddle (within_iff.mp hWithin).2, Nat.add_zero]
      have hLater := not_lt.mp hMiddle
      simp only [hLater, le_trans hStart hLater, true_and]

/-- What is counted in a period. -/
def amount (time : ι → τ) (size : ι → Int) (items : List ι) (start finish : τ) : Int :=
  ((items.filter fun item => within start finish (time item)).map size).sum

theorem amount_self (time : ι → τ) (size : ι → Int) (items : List ι) :
    amount time size items start start = 0 := by
  rw [amount, filter_eq_nil_iff.mpr]
  · rfl
  · intro item _ hWithin
    obtain ⟨hLe, hLt⟩ := within_iff.mp hWithin
    exact absurd hLt (not_lt.mpr hLe)

/-- Two periods that meet are one. -/
theorem amount_append (time : ι → τ) (size : ι → Int) (items : List ι) (hStart : start ≤ middle)
    (hFinish : middle ≤ finish) :
    amount time size items start middle + amount time size items middle finish =
      amount time size items start finish := by
  induction items with
  | nil => rfl
  | cons item items ih =>
    unfold amount at ih ⊢
    rw [filter_cons, filter_cons, filter_cons]
    rcases lt_or_ge (time item) middle with hBefore | hAfter
    · have hNot : ¬within middle finish (time item) = true := fun hWithin =>
        absurd hBefore (not_lt.mpr (within_iff.mp hWithin).1)
      by_cases hIn : start ≤ time item
      · rw [if_pos (within_iff.mpr ⟨hIn, hBefore⟩), if_neg hNot,
          if_pos (within_iff.mpr ⟨hIn, lt_of_lt_of_le hBefore hFinish⟩), map_cons,
          map_cons, sum_cons, sum_cons, add_assoc, ih]
      · rw [if_neg fun hWithin => hIn (within_iff.mp hWithin).1, if_neg hNot,
          if_neg fun hWithin => hIn (within_iff.mp hWithin).1, ih]
    · have hNot : ¬within start middle (time item) = true := fun hWithin =>
        absurd (within_iff.mp hWithin).2 (not_lt.mpr hAfter)
      by_cases hIn : time item < finish
      · rw [if_neg hNot, if_pos (within_iff.mpr ⟨hAfter, hIn⟩),
          if_pos (within_iff.mpr ⟨le_trans hStart hAfter, hIn⟩), map_cons, map_cons,
          sum_cons, sum_cons, add_left_comm, ih]
      · rw [if_neg hNot, if_neg fun hWithin => hIn (within_iff.mp hWithin).2,
          if_neg fun hWithin => hIn (within_iff.mp hWithin).2, ih]

/-- **The amounts of consecutive periods add up.** -/
theorem sum_consecutive (h : Consecutive periodOf start nows finish)
    (hOrder : ∀ now s e, periodOf now = some (s, e) → s ≤ e) (time : ι → τ) (size : ι → Int)
    (items : List ι) (of : τ → Option Int)
    (hOf : ∀ now s e, periodOf now = some (s, e) → of now = some (amount time size items s e)) :
    (nows.mapM of).map List.sum = some (amount time size items start finish) := by
  induction h with
  | nil start =>
    rw [amount_self]
    rfl
  | @cons start middle finish now nows hPeriod hRest ih =>
    obtain ⟨amounts, hAmounts, hSum⟩ := Option.map_eq_some_iff.mp ih
    rw [mapM_cons, hOf _ _ _ hPeriod, hAmounts]
    show some (amount time size items start middle + amounts.sum) = _
    rw [hSum, amount_append time size items (hOrder _ _ _ hPeriod) (hRest.le hOrder)]

end Lib.Periods
