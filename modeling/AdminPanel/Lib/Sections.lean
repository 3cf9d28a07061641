import AdminPanel.Lib.Occurrences
import AdminPanel.Lib.PyLines

/-!
# Texts in sections

A text is cut into sections at a line that is a title, always the same one. Python programs cut
such a text with `str.split` at the title between two newlines, and not line by line.

* `split`, `joined` — `str.split(sep)` and `sep.join(..)`;
* `Untitled` — no line of the text is the title;
* `split_joined` — sections without a title inside are found again as they were joined;
* `partition?_joined` — and so is the first one;
* `filterMap_splitLines` — what is found line by line is found on both sides of a newline;
* `infix_cons_newline` — a needle without a newline is found within one line;
* `infix_iff_line`, `infix_strip` — a needle is found in one of the lines, stripped or not;
* `infix_entry` — how `key = value` is found within another entry.
-/

namespace Lib.PyText

open List

variable {title s rest : List Char}

/-- `str.split(sep)`, with the number of characters of a separator that are still to be passed. -/
def splitFrom (sep : List Char) : ℕ → List Char → List (List Char)
  | _, [] => [[]]
  | 0, c :: s =>
    if sep <+: c :: s then [] :: splitFrom sep (sep.length - 1) s
    else consLine c (splitFrom sep 0 s)
  | k + 1, _ :: s => splitFrom sep k s

/-- `str.split(sep)`, for a separator that is not empty -/
def split (sep s : List Char) : List (List Char) := splitFrom sep 0 s

/-- The title on a line of its own. -/
def titleLine (title : List Char) : List Char := '\n' :: title ++ ['\n']

/-- No line of the text is the title. -/
def Untitled (title s : List Char) : Prop := title ∉ s.splitOn '\n'

/-- `sep.join([head, *sections])` -/
def joined (sep head : List Char) (sections : List (List Char)) : List Char :=
  head ++ sections.flatMap fun section_ => sep ++ section_

/-! ## Lines -/

theorem lines_newline (s rest : List Char) :
    (s ++ '\n' :: rest).splitOn '\n' = s.splitOn '\n' ++ rest.splitOn '\n' :=
  splitOn_append_cons_self s rest

theorem untitled_newline :
    Untitled title (s ++ '\n' :: rest) ↔ Untitled title s ∧ Untitled title rest := by
  rw [Untitled, lines_newline, mem_append, not_or]
  rfl

theorem untitled_line (h : '\n' ∉ s) : Untitled title s ↔ s ≠ title := by
  rw [Untitled, splitOn_eq_singleton h, mem_singleton]
  exact ne_comm

/-- **Line by line**, what is found before a newline and after it. -/
theorem filterMap_splitLinesFrom {α : Type} {f : List Char → Option α} (hNil : f [] = none)
    (line s rest : List Char) :
    (splitLinesFrom line (s ++ '\n' :: rest)).filterMap f =
      (splitLinesFrom line s).filterMap f ++ (splitLines rest).filterMap f := by
  induction line, s using splitLinesFrom.induct with
  | case1 =>
    rw [nil_append, splitLinesFrom_newline, filterMap_cons_none hNil]
    rfl
  | case2 line hNe =>
    rw [nil_append, splitLinesFrom_newline, splitLinesFrom, if_neg hNe, filterMap_cons,
      filterMap_cons]
    cases f line <;> rfl
  | case3 line s ih =>
    show (line :: splitLinesFrom [] (s ++ '\n' :: rest)).filterMap f =
      (line :: splitLinesFrom [] s).filterMap f ++ _
    rw [filterMap_cons, filterMap_cons, ih]
    cases f line <;> rfl
  | case4 line c s hCr hBreak ih =>
    rw [splitLinesFrom.eq_3 _ _ _ hCr, if_pos hBreak]
    -- `\r` at the end of the text and the newline are one line end
    by_cases hPair : c = '\r' ∧ s = []
    · obtain ⟨rfl, rfl⟩ := hPair
      show (line :: splitLinesFrom [] rest).filterMap f = _
      rw [filterMap_cons, filterMap_cons]
      cases f line <;> rfl
    · have hLong : ∀ more, c = '\r' → s ++ '\n' :: rest = '\n' :: more → False := by
        intro more hC hEq
        cases s with
        | nil => exact hPair ⟨hC, rfl⟩
        | cons d s =>
          obtain ⟨rfl, -⟩ := List.cons.inj hEq
          exact hCr s hC rfl
      rw [cons_append, splitLinesFrom.eq_3 _ _ _ hLong, if_pos hBreak, filterMap_cons,
        filterMap_cons, ih]
      cases f line <;> rfl
  | case5 line c s hCr hBreak ih =>
    rw [Bool.not_eq_true] at hBreak
    rw [cons_append, splitLinesFrom_of_not_break _ _ hBreak,
      splitLinesFrom_of_not_break _ _ hBreak, ih]

theorem filterMap_splitLines {α : Type} {f : List Char → Option α} (hNil : f [] = none)
    (s rest : List Char) : (splitLines (s ++ '\n' :: rest)).filterMap f =
      (splitLines s).filterMap f ++ (splitLines rest).filterMap f :=
  filterMap_splitLinesFrom hNil [] s rest

theorem splitLines_line (hNe : s ≠ []) (h : ∀ c ∈ s, isLineBreak c = false) :
    splitLines s = [s] := by
  have hFrom : ∀ line s : List Char, line ++ s ≠ [] → (∀ c ∈ s, isLineBreak c = false) →
      splitLinesFrom line s = [line ++ s] := by
    intro line s hNe h
    induction s generalizing line with
    | nil =>
      rw [append_nil] at hNe ⊢
      rw [splitLinesFrom, if_neg hNe]
    | cons c s ih =>
      rw [forall_mem_cons] at h
      rw [splitLinesFrom_of_not_break _ _ h.1, ih (line ++ [c]) (by simp) h.2, append_assoc,
        singleton_append]
  exact hFrom [] s hNe h

/-- A title is no prefix of a text that has none, whatever comes on the next line. -/
theorem not_titled (hTitle : '\n' ∉ title) (h : Untitled title s)
    (hRest : rest = [] ∨ ∃ more, rest = '\n' :: more) : ¬ title ++ ['\n'] <+: s ++ rest := by
  have hSelf : s ≠ title := by
    rintro rfl
    exact (untitled_line hTitle).mp h rfl
  rintro ⟨after, hEq⟩
  rw [append_assoc, singleton_append] at hEq
  rcases append_eq_append_iff.mp hEq with ⟨inner, hS, hEnd⟩ | ⟨inner, hS, hEnd⟩
  · cases inner with
    | nil => exact hSelf (by rw [hS, append_nil])
    | cons c inner =>
      -- the title is a line of the text
      obtain ⟨rfl, rfl⟩ := List.cons.inj hEnd
      rw [hS, untitled_newline, untitled_line hTitle] at h
      exact h.1 rfl
  · cases inner with
    | nil => exact hSelf (by rw [hS, append_nil])
    | cons c inner =>
      rcases hRest with rfl | ⟨more, rfl⟩
      · cases hEnd
      · obtain ⟨rfl, -⟩ := List.cons.inj hEnd
        exact hTitle (hS ▸ mem_append_right _ mem_cons_self)

/-- No line but perhaps the first one, which something may stand before, is the title. -/
def Continues (title s : List Char) : Prop := title ∉ (s.splitOn '\n').tail

theorem Untitled.continues (h : Untitled title s) : Continues title s :=
  fun hMem => h (mem_of_mem_tail hMem)

variable {c : Char}

theorem continues_cons (h : Continues title (c :: s)) :
    Continues title s ∧ (c = '\n' → Untitled title s) := by
  unfold Continues at h
  rw [splitOn_cons_eq_if_modifyHead] at h
  by_cases hNl : c = '\n'
  · rw [if_pos (by rw [hNl]; rfl), tail_cons] at h
    exact ⟨Untitled.continues h, fun _ => h⟩
  · rw [if_neg (by simpa using hNl), tail_modifyHead] at h
    exact ⟨h, fun hC => absurd hC hNl⟩

theorem titleLine_append (title rest : List Char) :
    titleLine title ++ rest = [] ∨ ∃ more, titleLine title ++ rest = '\n' :: more :=
  .inr ⟨title ++ ['\n'] ++ rest, by simp [titleLine]⟩

/-- Within a text without titles no separator starts. -/
theorem not_separator (hTitle : '\n' ∉ title) (h : Continues title (c :: s))
    (hRest : rest = [] ∨ ∃ more, rest = '\n' :: more) :
    ¬ titleLine title <+: c :: (s ++ rest) := by
  intro hPrefix
  rw [titleLine, cons_append, cons_prefix_cons] at hPrefix
  exact not_titled hTitle ((continues_cons h).2 hPrefix.1.symm) hRest hPrefix.2

/-! ## Cutting -/

theorem splitFrom_skip (sep passed rest : List Char) :
    splitFrom sep passed.length (passed ++ rest) = split sep rest := by
  induction passed with
  | nil => rfl
  | cons c passed ih =>
    show splitFrom sep passed.length (passed ++ rest) = split sep rest
    exact ih

theorem split_separator (rest : List Char) :
    split (titleLine title) (titleLine title ++ rest) = [] :: split (titleLine title) rest := by
  have hPrefix : titleLine title <+: '\n' :: (title ++ ['\n'] ++ rest) := ⟨rest, by simp [titleLine]⟩
  show splitFrom (titleLine title) 0 ('\n' :: (title ++ ['\n'] ++ rest)) = _
  rw [splitFrom, if_pos hPrefix]
  exact congrArg _ (splitFrom_skip (titleLine title) (title ++ ['\n']) rest)

theorem split_continues (hTitle : '\n' ∉ title) (h : Continues title s)
    (hRest : rest = [] ∨ ∃ more, rest = '\n' :: more) {first : List Char}
    {others : List (List Char)} (hSplit : split (titleLine title) rest = first :: others) :
    split (titleLine title) (s ++ rest) = (s ++ first) :: others := by
  induction s with
  | nil => exact hSplit
  | cons c s ih =>
    show splitFrom (titleLine title) 0 (c :: (s ++ rest)) = _
    rw [splitFrom, if_neg (not_separator hTitle h hRest)]
    show consLine c (split (titleLine title) (s ++ rest)) = _
    rw [ih (continues_cons h).1]
    rfl

/-- **Sections without a title inside are found again.** -/
theorem split_joined (hTitle : '\n' ∉ title) {head : List Char} {sections : List (List Char)}
    (hHead : Untitled title head) (hSections : ∀ s ∈ sections, Untitled title s) :
    split (titleLine title) (joined (titleLine title) head sections) = head :: sections := by
  induction sections generalizing head with
  | nil =>
    rw [joined, flatMap_nil, split_continues hTitle hHead.continues (.inl rfl) rfl,
      append_nil]
  | cons s sections ih =>
    rw [forall_mem_cons] at hSections
    have hFront : split (titleLine title) (titleLine title ++ joined (titleLine title) s sections) =
        [] :: split (titleLine title) (joined (titleLine title) s sections) := split_separator _
    rw [ih hSections.1 hSections.2] at hFront
    have hJoined : joined (titleLine title) head (s :: sections) =
        head ++ (titleLine title ++ joined (titleLine title) s sections) := by
      simp [joined]
    rw [hJoined, split_continues hTitle hHead.continues (titleLine_append _ _) hFront,
      append_nil]

/-! ## The first section -/

theorem partition?_continues (hTitle : '\n' ∉ title) (h : Continues title s)
    (hRest : rest = [] ∨ ∃ more, rest = '\n' :: more) :
    partition? (titleLine title) (s ++ rest) =
      (partition? (titleLine title) rest).map fun (before, after) => (s ++ before, after) := by
  induction s with
  | nil => simp
  | cons c s ih =>
    rw [cons_append, partition?, dropPrefix?_eq_none (not_separator hTitle h hRest)]
    show (partition? (titleLine title) (s ++ rest)).map _ = _
    rw [ih (continues_cons h).1, Option.map_map]
    rfl

theorem partition?_untitled (hTitle : '\n' ∉ title) (h : Untitled title s) :
    partition? (titleLine title) s = none := by
  have hNone := partition?_continues hTitle h.continues (.inl rfl)
  rw [append_nil] at hNone
  rw [hNone]
  rfl

/-- Cutting at the first title gives back the sections. -/
theorem partition?_joined (hTitle : '\n' ∉ title) {head section_ : List Char}
    {sections : List (List Char)} (hHead : Untitled title head) :
    partition? (titleLine title) (joined (titleLine title) head (section_ :: sections)) =
      some (head, joined (titleLine title) section_ sections) := by
  have hJoined : joined (titleLine title) head (section_ :: sections) =
      head ++ (titleLine title ++ joined (titleLine title) section_ sections) := by
    simp [joined]
  have hFront : partition? (titleLine title)
      (titleLine title ++ joined (titleLine title) section_ sections) =
        some ([], joined (titleLine title) section_ sections) := by
    have hDrop : (titleLine title ++ joined (titleLine title) section_ sections).dropPrefix?
        (titleLine title) = some (joined (titleLine title) section_ sections) :=
      List.dropPrefix?_eq_some_iff.mpr ⟨_, rfl, beq_self_eq_true _⟩
    show partition? (titleLine title) ('\n' :: _) = _
    rw [partition?]
    erw [hDrop]
  rw [hJoined, partition?_continues hTitle hHead.continues (titleLine_append _ _), hFront]
  exact congrArg some (Prod.ext (append_nil head) rfl)

/-! ## Files that are appended to -/

/-- What is read of a text and of what is appended, unless the two make one line end. -/
theorem readText_append_cons (h : c ≠ '\n' ∨ s.getLast? ≠ some '\r') :
    readText (s ++ c :: rest) = readText s ++ readText (c :: rest) := by
  induction s using readText.induct with
  | case1 => rfl
  | case2 s ih =>
    show '\n' :: readText (s ++ c :: rest) = '\n' :: (readText s ++ readText (c :: rest))
    rw [ih ?_]
    refine h.imp_right fun hLast hReturn => hLast ?_
    rw [List.getLast?_cons_cons, List.getLast?_cons, hReturn]
    rfl
  | case3 s hNext ih =>
    have hLong : ∀ more, s ++ c :: rest = '\n' :: more → False := by
      intro more hEq
      cases s with
      | nil =>
        obtain ⟨rfl, -⟩ := List.cons.inj hEq
        exact h.elim (fun hNe => hNe rfl) fun hLast => hLast rfl
      | cons d s =>
        obtain ⟨rfl, -⟩ := List.cons.inj hEq
        exact hNext s rfl
    rw [cons_append, readText.eq_3 _ hLong, readText.eq_3 _ hNext, ih ?_]
    · rfl
    · refine h.imp_right fun hLast hReturn => hLast ?_
      rw [List.getLast?_cons, hReturn]
      rfl
  | case4 d s hPair hD ih =>
    have hPair' : ∀ more, d = '\r' → s ++ c :: rest = '\n' :: more → False :=
      fun more hReturn => absurd hReturn hD
    rw [cons_append, readText.eq_4 _ _ hPair' hD, readText.eq_4 _ _ hPair hD, ih ?_]
    · rfl
    · refine h.imp_right fun hLast hReturn => hLast ?_
      rw [List.getLast?_cons, hReturn]
      rfl

/-! ## Needles -/

variable {needle : List Char}

/-- A needle without a newline is found before it or after it. -/
theorem infix_cons_newline (h : '\n' ∉ needle) (hNe : needle ≠ []) :
    needle <:+: s ++ '\n' :: rest ↔ needle <:+: s ∨ needle <:+: rest := by
  constructor
  · rintro ⟨before, after, hEq⟩
    rw [append_assoc] at hEq
    rcases append_eq_append_iff.mp hEq with ⟨inner, rfl, hInner⟩ | ⟨inner, rfl, hInner⟩
    · rcases append_eq_append_iff.mp hInner with ⟨last, rfl, -⟩ | ⟨last, rfl, hLast⟩
      · exact .inl ⟨before, last, by rw [append_assoc]⟩
      · cases last with
        | nil => exact .inl ⟨before, [], by simp⟩
        | cons c last =>
          obtain ⟨rfl, -⟩ := List.cons.inj hLast
          exact absurd (mem_append_right _ mem_cons_self) h
    · cases inner with
      | nil =>
        cases needle with
        | nil => exact absurd rfl hNe
        | cons c needle =>
          obtain ⟨rfl, -⟩ := List.cons.inj hInner
          exact absurd mem_cons_self h
      | cons c inner =>
        have hAfter : rest = inner ++ (needle ++ after) := (List.cons.inj hInner).2
        exact .inr ⟨inner, after, by rw [hAfter, append_assoc]⟩
  · rintro (⟨before, after, rfl⟩ | ⟨before, after, rfl⟩)
    · exact ⟨before, after ++ '\n' :: rest, by simp⟩
    · exact ⟨s ++ '\n' :: before, after, by simp⟩

/-- A needle without a newline is found in a line. -/
theorem infix_iff_line (h : '\n' ∉ needle) (hNe : needle ≠ []) :
    needle <:+: s ↔ ∃ line ∈ s.splitOn '\n', needle <:+: line := by
  have hJoin : ∀ lines : List (List Char), lines ≠ [] →
      (needle <:+: ['\n'].intercalate lines ↔ ∃ line ∈ lines, needle <:+: line) := by
    intro lines hLines
    induction lines with
    | nil => exact absurd rfl hLines
    | cons line lines ih =>
      cases lines with
      | nil => simp
      | cons next lines =>
        have hSplit : ['\n'].intercalate (line :: next :: lines) =
            line ++ '\n' :: ['\n'].intercalate (next :: lines) := by
          rw [intercalate_cons_cons]
          simp
        rw [hSplit, infix_cons_newline h hNe, ih (cons_ne_nil _ _)]
        exact (exists_mem_cons_iff _ _ _).symm
  rw [← hJoin _ (splitOn_ne_nil _ _), intercalate_splitOn]

theorem infix_dropWhile {p : Char → Bool} (h : ∀ c ∈ needle, p c = false)
    (hNe : needle ≠ []) : needle <:+: s.dropWhile p ↔ needle <:+: s := by
  induction s with
  | nil => rfl
  | cons c s ih =>
    cases hC : p c with
    | false => rw [dropWhile_cons_of_neg (by rw [hC]; decide)]
    | true =>
      rw [dropWhile_cons_of_pos hC, ih, infix_cons_iff]
      refine (or_iff_right fun hPrefix => ?_).symm
      obtain ⟨d, needle, rfl⟩ := exists_cons_of_ne_nil hNe
      obtain ⟨after, hAfter⟩ := hPrefix
      obtain ⟨rfl, -⟩ := List.cons.inj hAfter
      rw [h d mem_cons_self] at hC
      cases hC

/-- A needle without blanks is found whether or not a line is stripped. -/
theorem infix_strip (h : ∀ c ∈ needle, isSpace c = false)
    (hNe : needle ≠ []) : needle <:+: strip s ↔ needle <:+: s := by
  rw [strip_eq_rdropWhile, List.rdropWhile, ← reverse_infix, reverse_reverse,
    infix_dropWhile (fun c hc => h c (mem_reverse.mp hc)) (reverse_ne_nil_iff.mpr hNe),
    reverse_infix, infix_dropWhile h hNe]

/-- What stands before the first occurrence of a character. -/
theorem eq_of_append_cons {s' rest' : List Char} (h : c ∉ s) (h' : c ∉ s')
    (hEq : s ++ c :: rest = s' ++ c :: rest') : s = s' ∧ rest = rest' := by
  have hTake : ∀ {s : List Char} (rest : List Char), c ∉ s →
      (s ++ c :: rest).takeWhile (· ≠ c) = s := by
    intro s rest hNot
    rw [takeWhile_append_of_pos, takeWhile_cons_of_neg (by simp), append_nil]
    intro d hd
    exact decide_eq_true fun hC => hNot (hC ▸ hd)
  have hSame : s = s' := by rw [← hTake rest h, hEq, hTake rest' h']
  subst hSame
  exact ⟨rfl, (List.cons.inj (append_cancel_left hEq)).2⟩

theorem partition?_append_cons {c : Char} (h : c ∉ s) (rest : List Char) :
    partition? [c] (s ++ c :: rest) = some (s, rest) := by
  cases hCut : partition? [c] (s ++ c :: rest) with
  | none =>
    have hNot := (partition?_singleton c (s ++ c :: rest)).1 hCut
    exact absurd (mem_append_right s mem_cons_self) hNot
  | some pair =>
    obtain ⟨before, after⟩ := pair
    have hNot := (partition?_singleton c (s ++ c :: rest)).2 before after hCut
    have hEq := eq_of_partition? hCut
    rw [append_assoc, singleton_append] at hEq
    obtain ⟨rfl, rfl⟩ := eq_of_append_cons h hNot hEq
    rfl

def entry (key value : List Char) : List Char := key ++ ' ' :: '=' :: ' ' :: value

/-- An entry is found within another one at the end of its key. -/
theorem infix_entry {key value key' value' : List Char} (hKey : ' ' ∉ key) (hKey' : ' ' ∉ key')
    (hValue' : ' ' ∉ value') (h : entry key value <:+: entry key' value') :
    key <:+ key' ∧ value <+: value' := by
  obtain ⟨before, after, hEq⟩ := h
  have hCount := congrArg (List.count ' ') hEq
  have hNone : ∀ {s : List Char}, ' ' ∉ s → s.count ' ' = 0 := count_eq_zero.mpr
  simp only [entry, count_append, count_cons, hNone hKey, hNone hKey',
    hNone hValue'] at hCount
  have hBefore : ' ' ∉ before := by
    refine count_eq_zero.mp ?_
    simp at hCount
    omega
  have hSplit : (before ++ key) ++ ' ' :: ('=' :: ' ' :: (value ++ after)) =
      key' ++ ' ' :: ('=' :: ' ' :: value') := by
    have hFlat := hEq
    simp only [entry, append_assoc, cons_append] at hFlat ⊢
    exact hFlat
  obtain ⟨hFront, hEnd⟩ := eq_of_append_cons
    (fun hMem => (mem_append.mp hMem).elim hBefore hKey) hKey' hSplit
  exact ⟨⟨before, hFront⟩, ⟨after, (List.cons.inj (List.cons.inj hEnd).2).2⟩⟩

end Lib.PyText
