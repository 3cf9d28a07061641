import Mathlib.Data.List.DropRight
import Mathlib.Data.List.Infix

/-!
# Python text

The string operations of Python that text-handling code rests on, over lists
of characters.

* `strip` — `str.strip()`: both ends, Python's white space;
* `splitLines` — `str.splitlines()`: every Unicode line boundary, `\r\n` once;
* `unlines` — lines joined and closed by `\n`;
* `splitLines_unlines` — what was written in lines is read back in lines;
* `readText` — `Path.read_text`: every line end read as `\n`;
* `partition?` — `str.partition`;
* `fileLines` — the lines that line-oriented tools find in a file.
-/

namespace Lib.PyText

open List

/-- The characters of a text are looked through, and not all characters there are. -/
instance (priority := high) decidableForallMem (s : List Char) (p : Char → Prop)
    [DecidablePred p] : Decidable (∀ c ∈ s, p c) := List.decidableBAll p s

instance (priority := high) decidableForallMemOption (o : Option Char) (p : Char → Prop)
    [DecidablePred p] : Decidable (∀ c ∈ o, p c) :=
  decidable_of_iff (∀ c ∈ o.toList, p c) (by simp)

instance (priority := high) decidableMemText (s : List Char) (l : List (List Char)) :
    Decidable (s ∈ l) := List.instDecidableMemOfLawfulBEq s l

instance (priority := high) decidableExistsMem (s : List Char) (p : Char → Prop)
    [DecidablePred p] : Decidable (∃ c ∈ s, p c) := List.decidableBEx p s

/-- `str.isspace` for one character. -/
def isSpace (c : Char) : Bool :=
  let n := c.toNat
  (9 ≤ n && n ≤ 13) || (28 ≤ n && n ≤ 32) || n = 0x85 || n = 0xa0 || n = 0x1680 ||
    (0x2000 ≤ n && n ≤ 0x200a) || n = 0x2028 || n = 0x2029 || n = 0x202f || n = 0x205f ||
    n = 0x3000

/-- `str.strip()` -/
def strip (s : List Char) : List Char :=
  ((s.dropWhile isSpace).reverse.dropWhile isSpace).reverse

/-- The line boundaries of `str.splitlines`. -/
def isLineBreak (c : Char) : Bool :=
  let n := c.toNat
  (10 ≤ n && n ≤ 13) || (28 ≤ n && n ≤ 30) || n = 0x85 || n = 0x2028 || n = 0x2029

/-- `splitLines` after the characters `line` of an unfinished line. -/
def splitLinesFrom (line : List Char) : List Char → List (List Char)
  | [] => if line = [] then [] else [line]
  | '\r' :: '\n' :: rest => line :: splitLinesFrom [] rest
  | c :: rest =>
    if isLineBreak c then line :: splitLinesFrom [] rest else splitLinesFrom (line ++ [c]) rest

attribute [local simp] splitLinesFrom

/-- `str.splitlines()` -/
def splitLines (s : List Char) : List (List Char) := splitLinesFrom [] s

/-- The lines, each closed by a newline. -/
def unlines (lines : List (List Char)) : List Char :=
  lines.flatMap fun line => line ++ ['\n']

/-! ## Lines read back -/

variable {c : Char}

theorem splitLinesFrom_of_not_break (line rest : List Char) (h : isLineBreak c = false) :
    splitLinesFrom line (c :: rest) = splitLinesFrom (line ++ [c]) rest := by
  have hNe : c ≠ '\r' := by
    rintro rfl
    exact absurd h (by decide)
  rw [splitLinesFrom.eq_3 _ _ _ (fun _ hc => absurd hc hNe), h]
  rfl

theorem splitLinesFrom_newline (line rest : List Char) :
    splitLinesFrom line ('\n' :: rest) = line :: splitLinesFrom [] rest := by
  rw [splitLinesFrom.eq_3 _ _ _ (fun _ hc => absurd hc (by decide))]
  rfl

theorem splitLinesFrom_line (line more rest : List Char) (h : ∀ c ∈ more, isLineBreak c = false) :
    splitLinesFrom line (more ++ '\n' :: rest) = (line ++ more) :: splitLinesFrom [] rest := by
  induction more generalizing line with
  | nil => rw [nil_append, splitLinesFrom_newline, append_nil]
  | cons c more ih =>
    rw [cons_append, splitLinesFrom_of_not_break _ _ (h c mem_cons_self),
      ih _ fun d hd => h d (mem_cons_of_mem c hd), append_assoc]
    rfl

/-- **Lines without a line boundary inside are read back as written.** -/
theorem splitLines_unlines (lines : List (List Char))
    (h : ∀ line ∈ lines, ∀ c ∈ line, isLineBreak c = false) :
    splitLines (unlines lines) = lines := by
  induction lines with
  | nil => rfl
  | cons line lines ih =>
    have hRest := ih fun l hl => h l (mem_cons_of_mem line hl)
    unfold splitLines unlines at hRest ⊢
    rw [flatMap_cons, append_assoc, singleton_append,
      splitLinesFrom_line _ _ _ (h line mem_cons_self), nil_append, hRest]

variable {s : List Char}

/-- No line of a split text has a line boundary inside. -/
theorem not_break_of_mem_splitLinesFrom {line l : List Char}
    (hLine : ∀ c ∈ line, isLineBreak c = false) (hMem : l ∈ splitLinesFrom line s) :
    ∀ c ∈ l, isLineBreak c = false := by
  induction line, s using splitLinesFrom.induct with
  | case1 => simp [splitLinesFrom] at hMem
  | case2 line hNe =>
    simp only [splitLinesFrom, if_neg hNe, mem_singleton] at hMem
    exact hMem ▸ hLine
  | case3 line rest ih =>
    rw [splitLinesFrom, mem_cons] at hMem
    rcases hMem with rfl | hMem
    · exact hLine
    · exact ih (by simp) hMem
  | case4 line c rest hCr hBreak ih =>
    rw [splitLinesFrom.eq_3 _ _ _ hCr, if_pos hBreak, mem_cons] at hMem
    rcases hMem with rfl | hMem
    · exact hLine
    · exact ih (by simp) hMem
  | case5 line c rest hCr hBreak ih =>
    rw [splitLinesFrom.eq_3 _ _ _ hCr, if_neg hBreak] at hMem
    refine ih ?_ hMem
    intro d hd
    rcases mem_append.mp hd with hd | hd
    · exact hLine d hd
    · rw [mem_singleton] at hd
      rw [hd]
      simpa using hBreak

theorem not_break_of_mem_splitLines {l : List Char} (hMem : l ∈ splitLines s) :
    ∀ c ∈ l, isLineBreak c = false :=
  not_break_of_mem_splitLinesFrom (by simp) hMem

/-! ## Stripped text -/

theorem strip_eq_rdropWhile (s : List Char) :
    strip s = (s.dropWhile isSpace).rdropWhile isSpace := rfl

theorem mem_of_mem_strip (h : c ∈ strip s) : c ∈ s := by
  rw [strip_eq_rdropWhile] at h
  exact (dropWhile_suffix _).subset ((List.rdropWhile_prefix _ _).subset h)

/-- Text that strips to nothing is blank. -/
theorem isSpace_of_strip_eq_nil (h : strip s = []) (hMem : c ∈ s) : isSpace c = true := by
  rw [strip_eq_rdropWhile, rdropWhile_eq_nil_iff] at h
  rw [← takeWhile_append_dropWhile (p := isSpace) (l := s), mem_append] at hMem
  rcases hMem with hFront | hRest
  · exact mem_takeWhile_imp hFront
  · exact h c hRest

/-- Text without white space has none to strip. -/
theorem strip_of_not_space (h : ∀ c ∈ s, isSpace c = false) : strip s = s := by
  have hNot : ∀ c ∈ s, ¬isSpace c = true := fun c hC => by rw [h c hC]; exact Bool.false_ne_true
  have hFront : s.dropWhile isSpace = s := by
    rcases s with _ | ⟨c, s⟩
    · rfl
    · exact dropWhile_cons_of_neg (hNot c mem_cons_self)
  rw [strip_eq_rdropWhile, hFront, rdropWhile_eq_self_iff]
  exact fun hNe => hNot _ (getLast_mem hNe)

theorem isUpper_iff : c.isUpper = true ↔ 65 ≤ c.toNat ∧ c.toNat ≤ 90 :=
  decide_eq_true_iff

theorem isLower_iff : c.isLower = true ↔ 97 ≤ c.toNat ∧ c.toNat ≤ 122 :=
  (Bool.and_eq_true _ _).to_iff.trans (and_congr decide_eq_true_iff decide_eq_true_iff)

theorem isDigit_iff : c.isDigit = true ↔ 48 ≤ c.toNat ∧ c.toNat ≤ 57 :=
  (Bool.and_eq_true _ _).to_iff.trans (and_congr decide_eq_true_iff decide_eq_true_iff)

theorem isAlpha_iff : c.isAlpha = true ↔ c.isUpper = true ∨ c.isLower = true :=
  Bool.or_eq_true_iff

theorem isAlphanum_iff : c.isAlphanum = true ↔ c.isAlpha = true ∨ c.isDigit = true :=
  Bool.or_eq_true_iff

theorem toLower_of_not_isUpper (h : c.isUpper = false) : c.toLower = c :=
  dif_neg (of_decide_eq_false h)

theorem not_isSpace_of_isAlphanum (h : c.isAlphanum = true) : isSpace c = false := by
  rw [isAlphanum_iff, isAlpha_iff, isUpper_iff, isLower_iff, isDigit_iff] at h
  simp only [isSpace, Bool.or_eq_false_iff, Bool.and_eq_false_iff, decide_eq_false_iff_not]
  omega

/-- Text is stripped once and for all. -/
theorem strip_strip (s : List Char) : strip (strip s) = strip s := by
  rw [strip_eq_rdropWhile (strip s)]
  have hFront : (strip s).dropWhile isSpace = strip s := by
    rw [dropWhile_eq_self_iff]
    intro hl hSpace
    obtain ⟨t, ht⟩ := rdropWhile_prefix isSpace (s.dropWhile isSpace)
    rw [← strip_eq_rdropWhile] at ht
    have hLong : 0 < (s.dropWhile isSpace).length := by
      rw [← ht, length_append]
      omega
    have hHead : (s.dropWhile isSpace)[0] = (strip s)[0] := by
      simp only [← ht, getElem_append_left hl]
    have hNot := dropWhile_get_zero_not isSpace s hLong
    rw [get_eq_getElem] at hNot
    exact hNot (hHead ▸ hSpace)
  rw [hFront, strip_eq_rdropWhile, rdropWhile_idempotent]

theorem strip_cons_space (h : isSpace c = true) (s : List Char) : strip (c :: s) = strip s := by
  rw [strip, strip, dropWhile_cons_of_pos h]

theorem dropWhile_of_head {α : Type} {p : α → Bool} {l : List α} (h : ∀ a ∈ l.head?, p a = false) :
    l.dropWhile p = l := by
  cases l with
  | nil => rfl
  | cons a l => rw [dropWhile_cons, h a rfl, if_neg (by decide)]

theorem strip_of_ends (hFirst : ∀ c ∈ s.head?, isSpace c = false)
    (hLast : ∀ c ∈ s.getLast?, isSpace c = false) : strip s = s := by
  rw [strip, dropWhile_of_head hFirst,
    dropWhile_of_head (fun c hC => hLast c (by rwa [← List.head?_reverse])), reverse_reverse]

/-! ## Text files -/

/-- What `Path.read_text` makes of the line ends of a file. -/
def readText : List Char → List Char
  | [] => []
  | '\r' :: '\n' :: rest => '\n' :: readText rest
  | '\r' :: rest => '\n' :: readText rest
  | c :: rest => c :: readText rest

attribute [local simp] readText

theorem readText_of_no_return (h : '\r' ∉ s) : readText s = s := by
  induction s with
  | nil => rfl
  | cons c s ih =>
    rw [mem_cons, not_or] at h
    rw [readText.eq_4 _ _ (fun _ hc => absurd hc.symm h.1) (fun hc => absurd hc.symm h.1), ih h.2]

/-- `str.partition` at the first `needle`. -/
def partition? (needle : List Char) : List Char → Option (List Char × List Char)
  | [] => if needle = [] then some ([], []) else none
  | c :: s =>
    match (c :: s).dropPrefix? needle with
    | some rest => some ([], rest)
    | none => (partition? needle s).map fun (before, rest) => (c :: before, rest)

theorem eq_of_partition? {needle before rest : List Char}
    (h : partition? needle s = some (before, rest)) : s = before ++ needle ++ rest := by
  induction s generalizing before rest with
  | nil =>
    unfold partition? at h
    split at h
    · next hEmpty =>
      cases h
      rw [hEmpty]
      rfl
    · cases h
  | cons c s ih =>
    unfold partition? at h
    split at h
    · next after hDrop =>
      cases h
      obtain ⟨start, hStart, hEq⟩ := List.dropPrefix?_eq_some_iff.mp hDrop
      rw [hStart, eq_of_beq hEq, nil_append]
    · obtain ⟨⟨b, r⟩, hRest, hEq⟩ := Option.map_eq_some_iff.mp h
      cases hEq
      rw [ih hRest]
      rfl

/-- One character is found at its first occurrence. -/
theorem partition?_singleton (c : Char) (s : List Char) :
    (partition? [c] s = none → c ∉ s) ∧
    ∀ before rest, partition? [c] s = some (before, rest) → c ∉ before := by
  induction s with
  | nil =>
    refine ⟨fun _ => not_mem_nil, fun before rest h => ?_⟩
    cases h
  | cons d s ih =>
    unfold partition?
    by_cases hEq : d = c
    · subst hEq
      have hDrop : (d :: s).dropPrefix? [d] = some s := by simp [List.dropPrefix?]
      rw [hDrop]
      refine ⟨nofun, fun before rest h => ?_⟩
      cases h
      exact not_mem_nil
    · have hDrop : (d :: s).dropPrefix? [c] = none := by simp [List.dropPrefix?, hEq]
      rw [hDrop]
      constructor
      · intro h
        rw [mem_cons, not_or]
        exact ⟨Ne.symm hEq, ih.1 (Option.map_eq_none_iff.mp h)⟩
      · intro before rest h
        obtain ⟨⟨b, r⟩, hRest, hPair⟩ := Option.map_eq_some_iff.mp h
        cases hPair
        rw [mem_cons, not_or]
        exact ⟨Ne.symm hEq, ih.2 _ _ hRest⟩

/-- The lines of a file as line-oriented tools see them, after the characters `line`. -/
def fileLinesFrom (line : List Char) : List Char → List (List Char)
  | [] => if line = [] then [] else [line]
  | c :: rest => if c = '\n' then line :: fileLinesFrom [] rest else fileLinesFrom (line ++ [c]) rest

def fileLines (s : List Char) : List (List Char) := fileLinesFrom [] s

theorem fileLinesFrom_line (line more rest : List Char) (h : '\n' ∉ more) :
    fileLinesFrom line (more ++ '\n' :: rest) = (line ++ more) :: fileLinesFrom [] rest := by
  induction more generalizing line with
  | nil => rw [nil_append, fileLinesFrom, if_pos rfl, append_nil]
  | cons c more ih =>
    rw [mem_cons, not_or] at h
    rw [cons_append, fileLinesFrom, if_neg (Ne.symm h.1), ih _ h.2, append_assoc]
    rfl

theorem fileLines_unlines (lines : List (List Char)) (h : ∀ line ∈ lines, '\n' ∉ line) :
    fileLines (unlines lines) = lines := by
  induction lines with
  | nil => rfl
  | cons line lines ih =>
    have hRest := ih fun l hl => h l (mem_cons_of_mem line hl)
    unfold fileLines unlines at hRest ⊢
    rw [flatMap_cons, append_assoc, singleton_append,
      fileLinesFrom_line _ _ _ (h line mem_cons_self), nil_append, hRest]

end Lib.PyText
