import Mathlib.Data.List.Induction
import Mathlib.Data.List.Nodup
import Mathlib.Order.Minimal

/-!
# The maximal elements of a list

The elements are taken one by one: one that lies below a kept one is left out, and one that comes
in drives out the kept ones below it.

* `keepMaximal` — what is kept;
* `Tops` — what holds of it after every element;
* `mem_keepMaximal` — these are the maximal elements.
-/

namespace Lib

open List

variable {α : Type} [PartialOrder α] [DecidableLE α] {l kept : List α} {a : α}

def insertMaximal (kept : List α) (a : α) : List α :=
  if kept.any (a ≤ ·) then kept else kept.filter (fun b => ¬ b ≤ a) ++ [a]

def keepMaximal (l : List α) : List α := l.foldl insertMaximal []

/-- The kept elements, each once, are above all of the list and not above each other. -/
structure Tops (l kept : List α) : Prop where
  nodup : kept.Nodup
  sub : ∀ b ∈ kept, b ∈ l
  above : ∀ c ∈ l, ∃ b ∈ kept, c ≤ b
  apart : ∀ b ∈ kept, ∀ c ∈ kept, b ≤ c → b = c

/-- An element that lies in a kept one is dropped; else it drops those in it. -/
theorem Tops.insert (h : Tops l kept) : Tops (l ++ [a]) (insertMaximal kept a) := by
  unfold insertMaximal
  split_ifs with hBelow
  · obtain ⟨b, hMem, hLe⟩ := any_eq_true.mp hBelow
    refine { h with sub := fun c hC => mem_append_left _ (h.sub c hC), above := ?_ }
    refine forall_mem_append.mpr ⟨h.above, forall_mem_singleton.mpr ?_⟩
    exact ⟨b, hMem, of_decide_eq_true hLe⟩
  · have hNot : ∀ b ∈ kept, ¬ a ≤ b := fun b hMem hLe =>
      hBelow (any_eq_true.mpr ⟨b, hMem, decide_eq_true hLe⟩)
    have hFilter : ∀ b ∈ kept.filter (fun b => ¬ b ≤ a), b ∈ kept ∧ ¬ b ≤ a := fun b hMem =>
      ⟨(mem_filter.mp hMem).1, of_decide_eq_true (mem_filter.mp hMem).2⟩
    refine ⟨?_, ?_, ?_, ?_⟩
    · refine (h.nodup.filter _).append (nodup_singleton a) ?_
      exact disjoint_singleton.mpr fun hMem => (hFilter a hMem).2 le_rfl
    · refine forall_mem_append.mpr ⟨fun b hMem => ?_, forall_mem_singleton.mpr ?_⟩
      · exact mem_append_left _ (h.sub b (hFilter b hMem).1)
      · exact mem_append_right _ (mem_singleton_self a)
    · refine forall_mem_append.mpr ⟨fun c hMem => ?_, forall_mem_singleton.mpr ?_⟩
      · obtain ⟨b, hB, hLe⟩ := h.above c hMem
        by_cases hDriven : b ≤ a
        · exact ⟨a, mem_append_right _ (mem_singleton_self a), hLe.trans hDriven⟩
        · exact ⟨b, mem_append_left _ (mem_filter.mpr ⟨hB, decide_eq_true hDriven⟩), hLe⟩
      · exact ⟨a, mem_append_right _ (mem_singleton_self a), le_rfl⟩
    · intro b hB c hC hLe
      rcases mem_append.mp hB with hB | hB <;> rcases mem_append.mp hC with hC | hC
      · exact h.apart b (hFilter b hB).1 c (hFilter c hC).1 hLe
      · rw [mem_singleton.mp hC] at hLe
        exact absurd hLe (hFilter b hB).2
      · rw [mem_singleton.mp hB] at hLe
        exact absurd hLe (hNot c (hFilter c hC).1)
      · rw [mem_singleton.mp hB, mem_singleton.mp hC]

theorem tops_keepMaximal (l : List α) : Tops l (keepMaximal l) := by
  induction l using List.reverseRecOn with
  | nil =>
    exact ⟨nodup_nil, fun _ hMem => hMem, fun _ hMem => absurd hMem not_mem_nil,
      fun _ hMem => absurd hMem not_mem_nil⟩
  | append_singleton l a ih =>
    rw [keepMaximal, foldl_append]
    exact ih.insert

/-- **The kept elements are the maximal ones.** -/
theorem mem_keepMaximal : a ∈ keepMaximal l ↔ Maximal (· ∈ l) a := by
  have h := tops_keepMaximal l
  constructor
  · intro hMem
    refine ⟨h.sub a hMem, fun c hC hLe => ?_⟩
    obtain ⟨b, hB, hAbove⟩ := h.above c hC
    have hSame := h.apart a hMem b hB (hLe.trans hAbove)
    exact hSame ▸ hAbove
  · rintro ⟨hMem, hMax⟩
    obtain ⟨b, hB, hLe⟩ := h.above a hMem
    have hSame : a = b := le_antisymm hLe (hMax (h.sub b hB) hLe)
    exact hSame ▸ hB

end Lib
