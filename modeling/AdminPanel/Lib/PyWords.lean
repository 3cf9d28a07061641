import AdminPanel.Lib.PyText

/-!
# Words of a text

`str.split()`: the runs of characters that are no white space.

* `splitWords` — the words;
* `splitWords_append_space` — white space parts words, whatever stands on its sides;
* `IsWord` — text that is one word, and `isWord_of_mem`: the words of a text are such;
* `splitOn_eq_append` — a text that is cut at a character is cut in two between its pieces.
-/

namespace Lib.PyText

open List

/-- `str.split()` -/
def splitWords (s : List Char) : List (List Char) := (s.splitOnP isSpace).filter (· ≠ [])

/-- Text that is one word. -/
structure IsWord (word : List Char) : Prop where
  ne_nil : word ≠ []
  not_space : ∀ c ∈ word, isSpace c = false

variable {c : Char} {word : List Char}

@[simp] theorem splitWords_nil : splitWords [] = [] := rfl

/-- **White space parts words.** -/
theorem splitWords_append_space (h : isSpace c = true) (s rest : List Char) :
    splitWords (s ++ c :: rest) = splitWords s ++ splitWords rest := by
  rw [splitWords, splitOnP_append_cons s rest h, filter_append]
  rfl

theorem splitWords_concat (h : isSpace c = true) (s : List Char) :
    splitWords (s ++ [c]) = splitWords s := by
  rw [splitWords_append_space h, splitWords_nil, append_nil]

theorem IsWord.splitWords (h : IsWord word) : splitWords word = [word] := by
  rw [Lib.PyText.splitWords, splitOnP_eq_singleton fun c hC => h.not_space c hC]
  exact filter_cons_of_pos (decide_eq_true h.ne_nil)

/-- A word, white space and more. -/
theorem IsWord.splitWords_append (h : IsWord word) (hSpace : isSpace c = true)
    (rest : List Char) : Lib.PyText.splitWords (word ++ c :: rest) =
      word :: Lib.PyText.splitWords rest := by
  rw [splitWords_append_space hSpace, h.splitWords]
  rfl

/-- The pieces between white space are words. -/
theorem isWord_of_mem {s : List Char} (h : word ∈ splitWords s) : IsWord word := by
  induction hLength : s.length using Nat.strong_induction_on generalizing s with
  | _ n ih =>
    by_cases hSpace : ∃ c ∈ s, isSpace c = true
    · obtain ⟨c, hC, hSpace⟩ := hSpace
      obtain ⟨before, after, rfl⟩ := append_of_mem hC
      rw [length_append, length_cons] at hLength
      rw [splitWords_append_space hSpace, mem_append] at h
      rcases h with hBefore | hAfter
      · exact ih before.length (by omega) hBefore rfl
      · exact ih after.length (by omega) hAfter rfl
    · have hNot : ∀ c ∈ s, isSpace c = false := fun c hC =>
        Bool.eq_false_iff.mpr fun hTrue => hSpace ⟨c, hC, hTrue⟩
      rw [splitWords, splitOnP_eq_singleton hNot, mem_filter, mem_singleton] at h
      obtain ⟨rfl, hNe⟩ := h
      exact ⟨of_decide_eq_true hNe, hNot⟩

/-! ## Pieces -/

/-- No piece of a text that is cut at a character has that character. -/
theorem not_mem_of_mem_splitOn {s piece : List Char} (h : piece ∈ s.splitOn c) : c ∉ piece := by
  induction s generalizing piece with
  | nil =>
    rw [splitOn_nil, mem_singleton] at h
    rw [h]
    exact not_mem_nil
  | cons d s ih =>
    rw [splitOn_cons_eq_if_modifyHead] at h
    split_ifs at h with hSame
    · rcases mem_cons.mp h with rfl | hRest
      · exact not_mem_nil
      · exact ih hRest
    · obtain ⟨first, rest, hSplit⟩ := exists_cons_of_ne_nil (splitOn_ne_nil c s)
      rw [hSplit, modifyHead_cons] at h
      rw [hSplit] at ih
      rcases mem_cons.mp h with rfl | hRest
      · rw [mem_cons, not_or]
        exact ⟨fun hNe => hSame (by rw [hNe, beq_self_eq_true]), ih mem_cons_self⟩
      · exact ih (mem_cons_of_mem _ hRest)

/-- **A text is cut in two between pieces.** -/
theorem splitOn_eq_append {s : List Char} {before after : List (List Char)}
    (h : s.splitOn c = before ++ after) (hBefore : before ≠ []) (hAfter : after ≠ []) :
    ∃ a b, s = a ++ c :: b ∧ a.splitOn c = before ∧ b.splitOn c = after := by
  have hPieces : ∀ piece ∈ before ++ after, c ∉ piece := fun piece hMem =>
    not_mem_of_mem_splitOn (h ▸ hMem)
  rw [forall_mem_append] at hPieces
  have hA := splitOn_intercalate c hPieces.1 hBefore
  have hB := splitOn_intercalate c hPieces.2 hAfter
  have hText : [c].intercalate (s.splitOn c) = s := intercalate_splitOn c
  refine ⟨[c].intercalate before, [c].intercalate after, ?_, hA, hB⟩
  rw [← hText, h, ← hA, ← hB, ← splitOn_append_cons_self, intercalate_splitOn, hA, hB]

end Lib.PyText
