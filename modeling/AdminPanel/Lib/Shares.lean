import Mathlib.Algebra.GroupWithZero.Nat
import Mathlib.Algebra.Order.BigOperators.Group.List
import Mathlib.Algebra.Order.Group.Nat

/-!
# Shares of a limit

* `total` — what all have together;
* `total_floor_le` — shares rounded down do not exceed what is shared out;
* `topUp` — what is left goes to one after the other, up to the capacity of each.
-/

namespace Lib.Shares

open Function

variable {ι : Type}

def total (l : List ι) (f : ι → ℕ) : ℕ := (l.map f).sum

section

variable {l : List ι} {f g : ι → ℕ}

theorem total_cons (i : ι) (l : List ι) (f : ι → ℕ) : total (i :: l) f = f i + total l f :=
  List.sum_cons

theorem total_perm {l' : List ι} (h : l.Perm l') : total l f = total l' f :=
  (h.map f).sum_eq

theorem total_congr (h : ∀ i ∈ l, f i = g i) : total l f = total l g :=
  congrArg List.sum (List.map_congr_left h)

theorem total_mono (h : ∀ i ∈ l, f i ≤ g i) : total l f ≤ total l g :=
  List.sum_le_sum h

theorem total_add (l : List ι) (f g : ι → ℕ) :
    total l (fun i => f i + g i) = total l f + total l g := by
  induction l with
  | nil => rfl
  | cons i l ih =>
    simp only [total_cons, ih]
    omega

theorem total_sub (h : ∀ i ∈ l, g i ≤ f i) :
    total l (fun i => f i - g i) + total l g = total l f := by
  rw [← total_add]
  exact total_congr fun i hMem => Nat.sub_add_cancel (h i hMem)

theorem total_filter (p : ι → Bool) (h : ∀ i ∈ l, p i = false → f i = 0) :
    total (l.filter p) f = total l f := by
  induction l with
  | nil => rfl
  | cons i l ih =>
    rw [List.forall_mem_cons] at h
    cases hP : p i with
    | true => rw [List.filter_cons_of_pos hP, total_cons, total_cons, ih h.2]
    | false =>
      rw [List.filter_cons_of_neg (by rw [hP]; exact Bool.false_ne_true), total_cons, ih h.2,
        h.1 hP, Nat.zero_add]

/-- How many of a list there are. -/
theorem total_indicator (p : ι → Prop) [DecidablePred p] :
    total l (fun i => if p i then 1 else 0) = (l.filter p).length := by
  induction l with
  | nil => rfl
  | cons i l ih =>
    rw [total_cons, ih, List.filter_cons]
    by_cases hP : p i
    · rw [if_pos hP, if_pos (decide_eq_true hP), List.length_cons, Nat.add_comm]
    · rw [if_neg hP, if_neg fun hTrue => hP (of_decide_eq_true hTrue), Nat.zero_add]

/-- **Shares rounded down do not exceed what is shared out.** -/
theorem total_floor_le (l : List ι) (f : ι → ℕ) (amount whole : ℕ) :
    total l (fun i => f i * amount / whole) ≤ total l f * amount / whole := by
  induction l with
  | nil => exact Nat.zero_le _
  | cons i l ih =>
    rw [total_cons, total_cons, Nat.add_mul]
    exact (Nat.add_le_add_left ih _).trans Nat.div_add_div_le_add_div

end

/-! ## What is left -/

variable [DecidableEq ι] {limit used : ℕ} {cap b : ι → ℕ} {l : List ι} {i : ι}

def topUp (limit : ℕ) (cap : ι → ℕ) : List ι → (ι → ℕ) → ℕ → ι → ℕ
  | [], b, _ => b
  | i :: l, b, used =>
    let extra := min (cap i - b i) (limit - used)
    topUp limit cap l (update b i (b i + extra)) (used + extra)

theorem topUp_of_notMem (h : i ∉ l) : topUp limit cap l b used i = b i := by
  induction l generalizing b used with
  | nil => rfl
  | cons j l ih =>
    rw [List.mem_cons, not_or] at h
    rw [topUp, ih h.2, update_of_ne h.1]

theorem le_topUp : b i ≤ topUp limit cap l b used i := by
  induction l generalizing b used with
  | nil => exact le_rfl
  | cons j l ih =>
    refine le_trans ?_ ih
    by_cases hSame : i = j
    · subst hSame
      rw [update_self]
      exact Nat.le_add_right _ _
    · rw [update_of_ne hSame]

theorem topUp_le (h : b i ≤ cap i) : topUp limit cap l b used i ≤ cap i := by
  induction l generalizing b used with
  | nil => exact h
  | cons j l ih =>
    refine ih ?_
    by_cases hSame : i = j
    · subst hSame
      rw [update_self]
      omega
    · rw [update_of_ne hSame]
      exact h

/-- **What is left is given out up to the capacities.** -/
theorem total_topUp (hNodup : l.Nodup) : total l (topUp limit cap l b used) =
    total l b + min (total l fun i => cap i - b i) (limit - used) := by
  induction l generalizing b used with
  | nil => simp [total]
  | cons i l ih =>
    obtain ⟨hNot, hRest⟩ := List.nodup_cons.mp hNodup
    set extra := min (cap i - b i) (limit - used) with hExtra
    set after := update b i (b i + extra)
    have hSame : ∀ j ∈ l, after j = b j := fun j hMem =>
      update_of_ne (ne_of_mem_of_not_mem hMem hNot) _ _
    have hTotal : total l after = total l b := total_congr hSame
    have hRoom : (total l fun j => cap j - after j) = total l fun j => cap j - b j :=
      total_congr fun j hMem => congrArg (cap j - ·) (hSame j hMem)
    have hHead : topUp limit cap l after (used + extra) i = b i + extra := by
      rw [topUp_of_notMem hNot]
      exact update_self ..
    rw [topUp, total_cons, total_cons, total_cons, hHead, ih hRest, hTotal, hRoom]
    omega

end Lib.Shares
