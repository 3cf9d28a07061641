import AdminPanel.Lib.PyText
import Mathlib.Data.List.Infix

/-!
# Occurrences of a text in a text

* `countOf` — `str.count`: occurrences one after another, that do not overlap;
* `Apart` — no occurrence of a needle can begin before a text and end in it;
* `infix_append_iff` — such a needle is found in two joined texts exactly if it is found in one;
* `countOf_eq_one`, `not_infix_of_countOf` — what is counted once stands in one place;
* `partition?_of_marker` — and is found there.
-/

namespace Lib.PyText

open List

variable {needle s p q : List Char}

/-- No end of the needle, short of the needle, begins the text. -/
def Apart (needle q : List Char) : Prop :=
  ∀ v ∈ needle.tails, v ≠ [] → v ≠ needle → ¬ v <+: q

instance (needle q : List Char) : Decidable (Apart needle q) :=
  inferInstanceAs (Decidable (∀ v ∈ needle.tails, _))

theorem Apart.append (h : Apart needle q) (hLong : needle.length ≤ q.length + 1)
    (rest : List Char) : Apart needle (q ++ rest) := by
  intro v hV hNil hSelf hPrefix
  have hSuffix := (mem_tails _ _).mp hV
  have hShort : v.length ≠ needle.length := fun hEq => hSelf (hSuffix.eq_of_length hEq)
  have hLe := hSuffix.length_le
  exact h v hV hNil hSelf
    (prefix_of_prefix_length_le hPrefix (prefix_append q rest) (by omega))

theorem prefix_of_apart (h : Apart needle q) {u : List Char} (hU : u ≠ [])
    (hPrefix : needle <+: u ++ q) : needle <+: u := by
  obtain ⟨after, hEq⟩ := hPrefix
  rcases append_eq_append_iff.mp hEq with ⟨more, rfl, -⟩ | ⟨v, rfl, rfl⟩
  · exact prefix_append _ _
  · have hSelf : v ≠ u ++ v := fun hV => hU (self_eq_append_left.mp hV)
    by_cases hV : v = []
    · rw [hV, append_nil]
    · exact absurd (prefix_append v after)
        (h v ((mem_tails _ _).mpr (suffix_append u v)) hV hSelf)

/-- **A needle is found in one of two texts**, if it does not reach from one into the other. -/
theorem infix_append_iff (h : Apart needle q) :
    needle <:+: p ++ q ↔ needle <:+: p ∨ needle <:+: q := by
  constructor
  · intro hFound
    induction p with
    | nil => exact Or.inr hFound
    | cons c p ih =>
      rw [cons_append, infix_cons_iff] at hFound
      rcases hFound with hHere | hLater
      · exact Or.inl (prefix_of_apart h (cons_ne_nil c p) hHere).isInfix
      · exact (ih hLater).imp_left infix_cons
  · rintro (hP | hQ)
    · exact hP.trans (infix_append_left)
    · exact hQ.trans (infix_append_right)

/-- A needle without a newline does not reach over one. -/
theorem apart_newline (h : '\n' ∉ needle) (q : List Char) : Apart needle ('\n' :: q) := by
  intro v hV hNil _ hPrefix
  obtain ⟨c, v, rfl⟩ := exists_cons_of_ne_nil hNil
  obtain ⟨rfl, -⟩ := cons_prefix_cons.mp hPrefix
  exact h (((mem_tails _ _).mp hV).subset mem_cons_self)

/-! ## Counting -/

/-- `str.count`, with the number of characters of an occurrence that are still to be passed. -/
def countFrom (needle : List Char) : ℕ → List Char → ℕ
  | _, [] => 0
  | 0, c :: s =>
    if needle <+: c :: s then countFrom needle (needle.length - 1) s + 1 else countFrom needle 0 s
  | k + 1, _ :: s => countFrom needle k s

/-- `s.count(needle)` for a needle that is not empty -/
def countOf (needle s : List Char) : ℕ := countFrom needle 0 s

theorem countFrom_skip (passed rest : List Char) :
    countFrom needle passed.length (passed ++ rest) = countOf needle rest := by
  induction passed with
  | nil => rfl
  | cons c passed ih => exact ih

theorem countOf_append_needle (hNe : needle ≠ []) (s : List Char) :
    countOf needle (needle ++ s) = countOf needle s + 1 := by
  cases needle with
  | nil => exact absurd rfl hNe
  | cons c needle =>
    have hHere : c :: needle <+: c :: (needle ++ s) := prefix_append (c :: needle) s
    rw [countOf, cons_append, countFrom, if_pos hHere]
    exact congrArg (· + 1) (countFrom_skip needle s)

theorem countOf_cons_of_not {c : Char} (h : ¬ needle <+: c :: s) :
    countOf needle (c :: s) = countOf needle s := if_neg h

theorem countOf_eq_zero (hNe : needle ≠ []) : countOf needle s = 0 ↔ ¬ needle <:+: s := by
  induction s with
  | nil => exact iff_of_true rfl fun hFound => hNe (infix_nil.mp hFound)
  | cons c s ih =>
    rw [infix_cons_iff, not_or]
    by_cases hHere : needle <+: c :: s
    · obtain ⟨rest, hRest⟩ := hHere
      rw [← hRest, countOf_append_needle hNe]
      simp
    · rw [countOf_cons_of_not hHere, ih, and_iff_right hHere]

/-- What is counted before and in a text that the needle does not reach into. -/
theorem countOf_append (hApart : Apart needle q) (hP : ¬ needle <:+: p) :
    countOf needle (p ++ q) = countOf needle q := by
  induction p with
  | nil => rfl
  | cons c p ih =>
    rw [infix_cons_iff, not_or] at hP
    have hHere : ¬ needle <+: c :: (p ++ q) := fun hPrefix =>
      hP.1 (prefix_of_apart hApart (cons_ne_nil c p) hPrefix)
    rw [cons_append, countOf_cons_of_not hHere, ih hP.2]

/-- **One occurrence.** Nothing is found behind any place where the needle stands. -/
theorem not_infix_of_countOf (h : countOf needle (p ++ needle ++ q) = 1) (hNe : needle ≠ []) :
    ¬ needle <:+: q := by
  induction p with
  | nil =>
    rw [nil_append, countOf_append_needle hNe] at h
    exact (countOf_eq_zero hNe).mp (by omega)
  | cons c p ih =>
    by_cases hHere : needle <+: c :: (p ++ needle ++ q)
    · obtain ⟨rest, hRest⟩ := hHere
      rw [cons_append, cons_append, ← hRest, countOf_append_needle hNe] at h
      have hNone : ¬ needle <:+: rest := (countOf_eq_zero hNe).mp (by omega)
      -- what is behind the later place is behind the first one
      have hLater : q <:+ needle ++ rest := hRest ▸ ⟨c :: (p ++ needle), by simp⟩
      have hLength := congrArg List.length hRest
      simp only [length_append, length_cons] at hLength
      have hSuffix := suffix_of_suffix_length_le hLater (suffix_append needle rest)
        (by omega)
      exact fun hFound => hNone (hFound.trans hSuffix.isInfix)
    · exact ih (by rwa [cons_append, cons_append, countOf_cons_of_not hHere] at h)

/-- **A needle is counted once** where it stands apart from itself and from what follows it. -/
theorem countOf_eq_one (hNe : needle ≠ []) (hApart : Apart needle (needle ++ q))
    (hP : ¬ needle <:+: p) (hQ : ¬ needle <:+: q) : countOf needle (p ++ (needle ++ q)) = 1 := by
  rw [countOf_append hApart hP, countOf_append_needle hNe, (countOf_eq_zero hNe).mpr hQ]

/-! ## Cutting -/

theorem dropPrefix?_append (needle s : List Char) : (needle ++ s).dropPrefix? needle = some s :=
  List.dropPrefix?_eq_some_iff.mpr ⟨needle, rfl, beq_self_eq_true _⟩

theorem dropPrefix?_eq_none (h : ¬ needle <+: s) : s.dropPrefix? needle = none := by
  cases hDrop : s.dropPrefix? needle with
  | none => rfl
  | some rest =>
    obtain ⟨start, hEq, hStart⟩ := List.dropPrefix?_eq_some_iff.mp hDrop
    rw [eq_of_beq hStart] at hEq
    exact absurd ⟨rest, hEq.symm⟩ h

/-- **A text is cut where the needle stands**, if what the needle begins with does not stand
before it. -/
theorem partition?_of_marker {marker : List Char} (hMarker : marker <+: needle)
    (hNe : needle ≠ []) (hApart : Apart marker (needle ++ q)) (hP : ¬ marker <:+: p) :
    partition? needle (p ++ (needle ++ q)) = some (p, q) := by
  induction p with
  | nil =>
    obtain ⟨c, more, rfl⟩ := exists_cons_of_ne_nil hNe
    show partition? (c :: more) (c :: (more ++ q)) = _
    rw [partition?, ← cons_append, dropPrefix?_append]
  | cons c p ih =>
    rw [infix_cons_iff, not_or] at hP
    have hHere : ¬ needle <+: c :: (p ++ (needle ++ q)) := fun hPrefix =>
      hP.1 (prefix_of_apart hApart (cons_ne_nil c p) (hMarker.trans hPrefix))
    rw [cons_append, partition?, dropPrefix?_eq_none hHere, ih hP.2]
    rfl

end Lib.PyText
