import AdminPanel.Lib.PyText

/-!
# Lines with their ends

`str.splitlines(keepends=True)` ends a line at every Unicode boundary. A text is cut, changed and
joined line by line, and cut again.

* `keepLines` — `str.splitlines(keepends=True)`;
* `IsLine` — a complete line: one boundary, at its end;
* `keepLines_flatten` — lines are found again as they were joined;
* `Cut` — lines taken out of a text, and what `Cut.forall_keepLines` says of their text;
* `splitLines_eq_map` — `str.splitlines()` by way of `keepLines`.
-/

namespace Lib.PyText

open List

/-- A character before the first line. -/
def consLine (c : Char) : List (List Char) → List (List Char)
  | [] => [[c]]
  | line :: lines => (c :: line) :: lines

/-- `str.splitlines(keepends=True)` -/
def keepLines : List Char → List (List Char)
  | [] => []
  | '\r' :: '\n' :: rest => ['\r', '\n'] :: keepLines rest
  | c :: rest => if isLineBreak c then [c] :: keepLines rest else consLine c (keepLines rest)

attribute [local simp] keepLines

/-- A line with its end, which is not `\r`. -/
def IsLine (line : List Char) : Prop :=
  ∃ body b, line = body ++ [b] ∧ (∀ c ∈ body, isLineBreak c = false) ∧
    isLineBreak b = true ∧ b ≠ '\r'

/-! ## Cutting and joining -/

variable {c : Char}

theorem keepLines_of_not_break (h : isLineBreak c = false) (rest : List Char) :
    keepLines (c :: rest) = consLine c (keepLines rest) := by
  have hNe : c ≠ '\r' := by
    rintro rfl
    exact absurd h (by decide)
  rw [keepLines.eq_3 _ _ (fun _ hc => absurd hc hNe), h]
  rfl

theorem keepLines_of_break (h : isLineBreak c = true) (hNe : c ≠ '\r')
    (rest : List Char) : keepLines (c :: rest) = [c] :: keepLines rest := by
  rw [keepLines.eq_3 _ _ (fun _ hc => absurd hc hNe), if_pos h]

theorem flatten_consLine (c : Char) (lines : List (List Char)) :
    (consLine c lines).flatten = c :: lines.flatten := by
  cases lines with
  | nil | cons line lines => rfl

theorem flatten_keepLines (s : List Char) : (keepLines s).flatten = s := by
  induction s using keepLines.induct with
  | case1 => rfl
  | case2 rest ih => rw [keepLines, flatten_cons, ih]; rfl
  | case3 c rest hCr hBreak ih =>
    rw [keepLines.eq_3 _ _ hCr, if_pos hBreak, flatten_cons, ih]
    rfl
  | case4 c rest hCr hBreak ih => rw [keepLines.eq_3 _ _ hCr, if_neg hBreak, flatten_consLine, ih]

variable {body : List Char} {b : Char}

theorem keepLines_line (hBody : ∀ c ∈ body, isLineBreak c = false)
    (hBreak : isLineBreak b = true) (hNe : b ≠ '\r') (rest : List Char) :
    keepLines (body ++ b :: rest) = (body ++ [b]) :: keepLines rest := by
  induction body with
  | nil => exact keepLines_of_break hBreak hNe rest
  | cons c body ih =>
    rw [cons_append, keepLines_of_not_break (hBody c mem_cons_self),
      ih fun d hd => hBody d (mem_cons_of_mem c hd)]
    rfl

variable {lines : List (List Char)}

/-- **Complete lines are found again.** -/
theorem keepLines_flatten_append (h : ∀ line ∈ lines, IsLine line)
    (rest : List Char) : keepLines (lines.flatten ++ rest) = lines ++ keepLines rest := by
  induction lines with
  | nil => rfl
  | cons line lines ih =>
    obtain ⟨body, b, rfl, hBody, hBreak, hNe⟩ := h line mem_cons_self
    rw [flatten_cons, append_assoc, append_assoc, singleton_append,
      keepLines_line hBody hBreak hNe, ih fun l hl => h l (mem_cons_of_mem _ hl)]
    rfl

theorem keepLines_open (hNe : body ≠ [])
    (hBody : ∀ c ∈ body, isLineBreak c = false) : keepLines body = [body] := by
  induction body with
  | nil => exact absurd rfl hNe
  | cons c body ih =>
    rw [keepLines_of_not_break (hBody c mem_cons_self)]
    cases body with
    | nil => rfl
    | cons d body =>
      rw [ih (cons_ne_nil d body) fun x hx => hBody x (mem_cons_of_mem c hx)]
      rfl

/-- Complete lines, and perhaps one that is not ended. -/
def WellCut (cut : List (List Char)) : Prop :=
  ∃ lines last, cut = lines ++ last ∧ (∀ line ∈ lines, IsLine line) ∧
    (last = [] ∨ ∃ body, last = [body] ∧ body ≠ [] ∧ ∀ c ∈ body, isLineBreak c = false)

variable {cut : List (List Char)}

theorem keepLines_flatten (h : WellCut cut) : keepLines cut.flatten = cut := by
  obtain ⟨lines, last, rfl, hLines, hLast⟩ := h
  rw [flatten_append, keepLines_flatten_append hLines]
  rcases hLast with rfl | ⟨body, rfl, hNe, hBody⟩
  · rfl
  · rw [flatten_singleton, keepLines_open hNe hBody]

variable {s : List Char}

theorem wellCut_keepLines (h : '\r' ∉ s) : WellCut (keepLines s) := by
  induction s with
  | nil => exact ⟨[], [], rfl, fun line hMem => absurd hMem not_mem_nil, .inl rfl⟩
  | cons c s ih =>
    rw [mem_cons, not_or] at h
    obtain ⟨lines, last, hEq, hLines, hLast⟩ := ih h.2
    cases hBreak : isLineBreak c with
    | true =>
      refine ⟨[c] :: lines, last, ?_, ?_, hLast⟩
      · rw [keepLines_of_break hBreak (Ne.symm h.1), hEq, cons_append]
      · intro line hMem
        rcases mem_cons.mp hMem with rfl | hRest
        · exact ⟨[], c, rfl, fun d hd => absurd hd not_mem_nil, hBreak, Ne.symm h.1⟩
        · exact hLines line hRest
    | false =>
      rw [keepLines_of_not_break hBreak, hEq]
      rcases lines with _ | ⟨line, lines⟩
      · have hNone : ∀ line ∈ ([] : List (List Char)), IsLine line :=
          fun line hMem => absurd hMem not_mem_nil
        rcases hLast with rfl | ⟨body, rfl, hNe, hBody⟩
        · refine ⟨[], [[c]], rfl, hNone, .inr ⟨[c], rfl, cons_ne_nil _ _, ?_⟩⟩
          intro d hd
          rwa [mem_singleton.mp hd]
        · refine ⟨[], [c :: body], rfl, hNone, .inr ⟨c :: body, rfl, cons_ne_nil _ _, ?_⟩⟩
          exact forall_mem_cons.mpr ⟨hBreak, hBody⟩
      · obtain ⟨body, b, hLine, hBody, hEnd, hNe⟩ := hLines line mem_cons_self
        refine ⟨(c :: line) :: lines, last, rfl, ?_, hLast⟩
        intro other hMem
        rcases mem_cons.mp hMem with rfl | hRest
        · exact ⟨c :: body, b, by rw [hLine]; rfl, forall_mem_cons.mpr ⟨hBreak, hBody⟩,
            hEnd, hNe⟩
        · exact hLines other (mem_cons_of_mem _ hRest)

variable {line : List Char}

theorem WellCut.return_notMem (h : WellCut cut) : '\r' ∉ cut.flatten := by
  obtain ⟨lines, last, rfl, hLines, hLast⟩ := h
  intro hMem
  obtain ⟨line, hLine, hIn⟩ := mem_flatten.mp hMem
  rcases mem_append.mp hLine with hLine | hLine
  · obtain ⟨body, b, rfl, hBody, -, hNe⟩ := hLines line hLine
    rcases mem_append.mp hIn with hIn | hIn
    · exact absurd (hBody _ hIn) (by decide)
    · exact hNe (mem_singleton.mp hIn).symm
  · rcases hLast with rfl | ⟨body, rfl, -, hBody⟩
    · cases hLine
    · rw [mem_singleton.mp hLine] at hIn
      exact absurd (hBody _ hIn) (by decide)

/-- A line of any text, with its end if it has one. -/
theorem line_cases (h : line ∈ keepLines s) : ∃ body, (∀ c ∈ body, isLineBreak c = false) ∧
      (line = body ∧ body ≠ [] ∨ (∃ b, isLineBreak b = true ∧ line = body ++ [b]) ∨
        line = body ++ ['\r', '\n']) := by
  induction s using keepLines.induct generalizing line with
  | case1 => cases h
  | case2 rest ih =>
    rw [keepLines] at h
    rcases mem_cons.mp h with rfl | hRest
    · exact ⟨[], fun c hC => absurd hC not_mem_nil, .inr (.inr rfl)⟩
    · exact ih hRest
  | case3 c rest hCr hBreak ih =>
    rw [keepLines.eq_3 _ _ hCr, if_pos hBreak] at h
    rcases mem_cons.mp h with rfl | hRest
    · exact ⟨[], fun c hC => absurd hC not_mem_nil, .inr (.inl ⟨c, hBreak, rfl⟩)⟩
    · exact ih hRest
  | case4 c rest hCr hBreak ih =>
    have hFalse : isLineBreak c = false := Bool.not_eq_true _ ▸ hBreak
    rw [keepLines.eq_3 _ _ hCr, if_neg hBreak] at h
    cases hLines : keepLines rest with
    | nil =>
      rw [hLines] at h
      rw [mem_singleton.mp h]
      refine ⟨[c], ?_, .inl ⟨rfl, cons_ne_nil _ _⟩⟩
      intro d hD
      rwa [mem_singleton.mp hD]
    | cons first lines =>
      rw [hLines] at h
      rcases mem_cons.mp h with rfl | hRest
      · obtain ⟨body, hBody, hEnd⟩ := ih (hLines ▸ mem_cons_self)
        refine ⟨c :: body, forall_mem_cons.mpr ⟨hFalse, hBody⟩, ?_⟩
        rcases hEnd with ⟨rfl, -⟩ | ⟨b, hB, rfl⟩ | rfl
        · exact .inl ⟨rfl, cons_ne_nil _ _⟩
        · exact .inr (.inl ⟨b, hB, rfl⟩)
        · exact .inr (.inr rfl)
      · exact ih (hLines ▸ mem_cons_of_mem _ hRest)

/-- A line without its end. -/
def bareLine (line : List Char) : List Char := line.takeWhile fun c => !isLineBreak c

theorem bareLine_append (h : ∀ c ∈ s, isLineBreak c = false) (line : List Char) :
    bareLine (s ++ line) = s ++ bareLine line := by
  refine takeWhile_append_of_pos fun c hC => ?_
  rw [h c hC]
  rfl

theorem bareLine_of_not_break (h : ∀ c ∈ s, isLineBreak c = false) : bareLine s = s := by
  have hAll := bareLine_append h []
  rwa [append_nil, show bareLine [] = [] from rfl, append_nil] at hAll

/-- Lines behind characters that end no line. -/
theorem foldr_consLine (s line : List Char) (lines : List (List Char)) :
    s.foldr consLine (line :: lines) = (s ++ line) :: lines := by
  induction s with
  | nil => rfl
  | cons c s ih => rw [foldr_cons, ih]; rfl

/-- **The lines of a text are its lines with their ends taken off.** -/
theorem splitLines_eq_map (s : List Char) : splitLines s = (keepLines s).map bareLine := by
  have hFrom : ∀ s line : List Char, (∀ c ∈ line, isLineBreak c = false) →
      splitLinesFrom line s = (line.foldr consLine (keepLines s)).map bareLine := by
    intro s
    induction s using keepLines.induct with
    | case1 =>
      intro line hLine
      rcases line.eq_nil_or_concat with rfl | ⟨start, d, rfl⟩
      · rfl
      · rw [concat_eq_append] at hLine ⊢
        rw [keepLines, foldr_append, foldr_cons, foldr_nil, consLine,
          foldr_consLine, map_singleton, bareLine_of_not_break hLine, splitLinesFrom,
          if_neg (by simp)]
    | case2 rest ih =>
      intro line hLine
      rw [keepLines, foldr_consLine, map_cons, bareLine_append hLine, splitLinesFrom,
        ih [] (by simp)]
      simp [bareLine, isLineBreak]
    | case3 c rest hCr hBreak ih =>
      intro line hLine
      rw [keepLines.eq_3 _ _ hCr, if_pos hBreak, foldr_consLine, map_cons,
        bareLine_append hLine, splitLinesFrom.eq_3 _ _ _ hCr, if_pos hBreak, ih [] (by simp)]
      simp [bareLine, hBreak]
    | case4 c rest hCr hBreak ih =>
      intro line hLine
      rw [Bool.not_eq_true] at hBreak
      have hMore : ∀ d ∈ line ++ [c], isLineBreak d = false := by
        intro d hD
        rcases mem_append.mp hD with hD | hD
        · exact hLine d hD
        · rwa [mem_singleton.mp hD]
      rw [splitLinesFrom_of_not_break _ _ hBreak, ih _ hMore, keepLines_of_not_break hBreak,
        foldr_append]
      rfl
  exact hFrom s [] (by simp)

/-- A line by itself is that line. -/
theorem keepLines_of_mem (h : line ∈ keepLines s) : keepLines line = [line] := by
  obtain ⟨body, hBody, hEnd⟩ := line_cases h
  have hOne : ∀ e, keepLines e = [e] → keepLines (body ++ e) = [body ++ e] := by
    intro e hE
    clear h hEnd
    induction body with
    | nil => exact hE
    | cons c body ih =>
      rw [forall_mem_cons] at hBody
      rw [cons_append, keepLines_of_not_break hBody.1, ih hBody.2]
      rfl
  rcases hEnd with ⟨rfl, hNe⟩ | ⟨b, hBreak, rfl⟩ | rfl
  · exact keepLines_open hNe hBody
  · refine hOne [b] ?_
    rw [keepLines.eq_3 _ _ (fun _ _ hRest => by cases hRest), if_pos hBreak]
    rfl
  · exact hOne _ rfl

/-- Lines taken out of a text leave complete lines. -/
theorem WellCut.filter (h : WellCut cut) (p : List Char → Bool) : WellCut (cut.filter p) := by
  obtain ⟨lines, last, rfl, hLines, hLast⟩ := h
  refine ⟨lines.filter p, last.filter p, filter_append _ _,
    fun line hMem => hLines line (mem_of_mem_filter hMem), ?_⟩
  rcases hLast with rfl | ⟨body, rfl, hNe, hBody⟩
  · exact .inl rfl
  · cases hP : p body with
    | true => exact .inr ⟨body, by rw [filter_singleton, hP]; rfl, hNe, hBody⟩
    | false => exact .inl (by rw [filter_singleton, hP]; rfl)

/-- A line with an end of any kind. -/
def Ended (line : List Char) : Prop :=
  ∃ body, (∀ c ∈ body, isLineBreak c = false) ∧
    ((∃ b, isLineBreak b = true ∧ line = body ++ [b]) ∨ line = body ++ ['\r', '\n'])

/-- An ended line is found again, unless its end goes together with what follows. -/
theorem keepLines_ended (h : Ended line) {rest : List Char}
    (hRest : line.getLast? = some '\r' → rest.head? ≠ some '\n') :
    keepLines (line ++ rest) = line :: keepLines rest := by
  obtain ⟨body, hBody, hEnd⟩ := h
  have hBefore : ∀ e, keepLines (e ++ rest) = e :: keepLines rest →
      keepLines (body ++ e ++ rest) = (body ++ e) :: keepLines rest := by
    intro e hE
    clear hEnd hRest
    induction body with
    | nil => exact hE
    | cons c body ih =>
      rw [forall_mem_cons] at hBody
      rw [cons_append, cons_append, keepLines_of_not_break hBody.1, ih hBody.2]
      rfl
  rcases hEnd with ⟨b, hBreak, rfl⟩ | rfl
  · refine hBefore [b] ?_
    have hSplit : ∀ tail, b = '\r' → rest = '\n' :: tail → False := by
      rintro tail rfl rfl
      exact hRest List.getLast?_concat rfl
    rw [singleton_append, keepLines.eq_3 _ _ hSplit, if_pos hBreak]
  · exact hBefore _ rfl

/-- The first line of a text and the others. -/
theorem keepLines_uncons (h : keepLines s = line :: lines) :
    keepLines lines.flatten = lines ∧ (lines ≠ [] →
      Ended line ∧ (line.getLast? = some '\r' → lines.flatten.head? ≠ some '\n')) := by
  induction s using keepLines.induct generalizing line lines with
  | case1 => cases h
  | case2 rest ih =>
    obtain ⟨rfl, rfl⟩ := List.cons.inj h
    rw [flatten_keepLines]
    refine ⟨rfl, fun _ => ⟨⟨[], by simp, .inr rfl⟩, fun hLast => ?_⟩⟩
    exact absurd hLast (by decide)
  | case3 c rest hCr hBreak ih =>
    rw [keepLines.eq_3 _ _ hCr, if_pos hBreak] at h
    obtain ⟨rfl, rfl⟩ := List.cons.inj h
    rw [flatten_keepLines]
    refine ⟨rfl, fun _ => ⟨⟨[], by simp, .inl ⟨c, hBreak, rfl⟩⟩, fun hLast hHead => ?_⟩⟩
    obtain ⟨tail, rfl⟩ := List.head?_eq_some_iff.mp hHead
    exact hCr tail (Option.some.inj hLast) rfl
  | case4 c rest hCr hBreak ih =>
    rw [Bool.not_eq_true] at hBreak
    rw [keepLines_of_not_break hBreak] at h
    cases hLines : keepLines rest with
    | nil =>
      rw [hLines] at h
      obtain ⟨-, rfl⟩ := List.cons.inj h
      exact ⟨rfl, fun hNe => absurd rfl hNe⟩
    | cons first more =>
      rw [hLines] at h
      obtain ⟨rfl, rfl⟩ := List.cons.inj h
      obtain ⟨hAgain, hFirst⟩ := ih hLines
      refine ⟨hAgain, fun hNe => ?_⟩
      obtain ⟨⟨body, hBody, hEnd⟩, hHead⟩ := hFirst hNe
      have hCons : Ended (c :: first) := by
        refine ⟨c :: body, forall_mem_cons.mpr ⟨hBreak, hBody⟩, ?_⟩
        rcases hEnd with ⟨b, hB, rfl⟩ | rfl
        · exact .inl ⟨b, hB, rfl⟩
        · exact .inr rfl
      refine ⟨hCons, fun hLast => hHead ?_⟩
      have hNil : first ≠ [] := by rcases hEnd with ⟨b, -, rfl⟩ | rfl <;> simp
      rwa [List.getLast?_cons_of_ne_nil hNil] at hLast

/-- **A text is cut the same way in front of other text**, where a line of it begins. -/
theorem keepLines_before {after : List (List Char)} (h : keepLines s = lines ++ line :: after)
    {rest : List Char} (hRest : rest.head? ≠ some '\n') :
    keepLines (lines.flatten ++ rest) = lines ++ keepLines rest := by
  induction lines generalizing s with
  | nil => rfl
  | cons first lines ih =>
    obtain ⟨hAgain, hFirst⟩ := keepLines_uncons h
    obtain ⟨hEnded, hHead⟩ := hFirst (by simp)
    rw [flatten_cons, append_assoc, keepLines_ended hEnded, ih hAgain, cons_append]
    intro hLast
    cases hNil : lines.flatten with
    | nil => exact hRest
    | cons c tail =>
      have hHead : (lines ++ line :: after).flatten.head? ≠ some '\n' := hHead hLast
      rw [flatten_append, hNil] at hHead
      exact hHead

/-- Lines of texts, of which only the last can have no end. -/
structure Cut (cut : List (List Char)) : Prop where
  ended : cut.Pairwise fun line _ => Ended line
  line : ∀ line ∈ cut, keepLines line = [line]

theorem cut_keepLines (s : List Char) : Cut (keepLines s) := by
  refine ⟨?_, fun line hMem => keepLines_of_mem hMem⟩
  have hPairwise : ∀ cut s, keepLines s = cut → cut.Pairwise fun line _ => Ended line := by
    intro cut
    induction cut with
    | nil => exact fun _ _ => List.Pairwise.nil
    | cons line lines ih =>
      intro s hS
      obtain ⟨hAgain, hFirst⟩ := keepLines_uncons hS
      refine List.Pairwise.cons (fun other hOther => ?_) (ih _ hAgain)
      exact (hFirst (ne_nil_of_mem hOther)).1
  exact hPairwise _ s rfl

theorem Cut.filter (h : Cut cut) (p : List Char → Bool) : Cut (cut.filter p) :=
  ⟨h.ended.filter p, fun line hMem => h.line line (mem_of_mem_filter hMem)⟩

theorem Cut.tail (h : Cut (line :: cut)) : Cut cut :=
  ⟨h.ended.of_cons, fun other hMem => h.line other (mem_cons_of_mem _ hMem)⟩

/-- Lines are found again where none ends in `\r`. -/
theorem Cut.keepLines_flatten (h : Cut cut)
    (hReturn : ∀ line ∈ cut, line.getLast? ≠ some '\r') : keepLines cut.flatten = cut := by
  induction cut with
  | nil => rfl
  | cons line lines ih =>
    rw [forall_mem_cons] at hReturn
    cases hNil : lines with
    | nil => rw [flatten_singleton]; exact h.line line mem_cons_self
    | cons next more =>
      have hEnded := rel_of_pairwise_cons h.ended (hNil ▸ mem_cons_self : next ∈ lines)
      rw [flatten_cons, keepLines_ended hEnded fun hLast => absurd hLast hReturn.1, ← hNil,
        ih h.tail hReturn.2]

/-- **What holds of lines holds of the lines that they are read as**: an end `\r` can have come
together with a line that is `\n`, and nothing else has changed. -/
theorem Cut.forall_keepLines {P : List Char → Prop} (h : Cut cut) (hAll : ∀ line ∈ cut, P line)
    (hMerge : ∀ body, P (body ++ ['\r']) → P (body ++ ['\r', '\n'])) :
    ∀ line ∈ keepLines cut.flatten, P line := by
  induction cut with
  | nil => exact fun line hMem => absurd hMem not_mem_nil
  | cons line lines ih =>
    have hAll := forall_mem_cons.mp hAll
    have hRest := ih h.tail hAll.2
    rcases lines with _ | ⟨next, more⟩
    · rw [flatten_singleton, h.line line mem_cons_self]
      exact fun other hMem => mem_singleton.mp hMem ▸ hAll.1
    have hEnded := rel_of_pairwise_cons h.ended (mem_cons_self (a := next) (l := more))
    by_cases hPair : line.getLast? = some '\r' ∧ (next :: more).flatten.head? = some '\n'
    · obtain ⟨body, rfl⟩ := List.getLast?_eq_some_iff.mp hPair.1
      obtain ⟨tail, hTail⟩ := List.head?_eq_some_iff.mp hPair.2
      rw [hTail, keepLines_of_break (by decide) (by decide), forall_mem_cons] at hRest
      have hBody : ∀ c ∈ body, isLineBreak c = false := by
        obtain ⟨start, hStart, ⟨b, -, hEq⟩ | hEq⟩ := hEnded
        · exact (append_inj' hEq rfl).1 ▸ hStart
        · exact absurd (congrArg List.getLast? hEq) (by simp)
      have hBoth : Ended (body ++ ['\r', '\n']) := ⟨body, hBody, .inr rfl⟩
      rw [flatten_cons, hTail]
      show ∀ l ∈ keepLines (body ++ ['\r'] ++ '\n' :: tail), P l
      rw [show body ++ ['\r'] ++ '\n' :: tail = body ++ ['\r', '\n'] ++ tail by simp,
        keepLines_ended hBoth (by simp), forall_mem_cons]
      exact ⟨hMerge body hAll.1, hRest.2⟩
    · rw [flatten_cons, keepLines_ended hEnded fun hLast hHead => hPair ⟨hLast, hHead⟩,
        forall_mem_cons]
      exact ⟨hAll.1, hRest⟩

/-! ## Text files -/

theorem return_notMem_readText (s : List Char) : '\r' ∉ readText s := by
  induction s using readText.induct with
  | case1 => exact not_mem_nil
  | case2 rest ih =>
    rw [readText, mem_cons, not_or]
    exact ⟨by decide, ih⟩
  | case3 rest hNe ih =>
    rw [readText.eq_3 _ hNe, mem_cons, not_or]
    exact ⟨by decide, ih⟩
  | case4 c rest hPair hNe ih =>
    rw [readText.eq_4 _ _ hPair hNe, mem_cons, not_or]
    exact ⟨fun hEq => hNe hEq.symm, ih⟩

theorem isSpace_of_isLineBreak (h : isLineBreak c = true) : isSpace c = true := by
  simp only [isLineBreak, isSpace, Bool.or_eq_true, Bool.and_eq_true, decide_eq_true_eq] at h ⊢
  omega

theorem strip_concat (s : List Char) (h : isSpace c = true) : strip (s ++ [c]) = strip s := by
  rw [strip_eq_rdropWhile, strip_eq_rdropWhile]
  by_cases hAll : ∀ d ∈ s, isSpace d = true
  · have hS : s.dropWhile isSpace = [] := dropWhile_eq_nil_iff.mpr hAll
    have hSc : (s ++ [c]).dropWhile isSpace = [] := by
      refine dropWhile_eq_nil_iff.mpr fun d hd => ?_
      rcases mem_append.mp hd with hOld | hNew
      · exact hAll d hOld
      · rwa [mem_singleton.mp hNew]
    rw [hS, hSc]
  · have hSc : (s ++ [c]).dropWhile isSpace = s.dropWhile isSpace ++ [c] := by
      rw [dropWhile_append, if_neg]
      rw [List.isEmpty_iff, dropWhile_eq_nil_iff]
      exact hAll
    rw [hSc, rdropWhile_concat_pos _ _ _ h]

/-- Stripped text has no white space at either end. -/
theorem dropWhile_of_strip (h : strip s = s) : s.dropWhile isSpace = s ∧ s.rdropWhile isSpace = s := by
  have hFront : s.dropWhile isSpace = s := by
    refine (dropWhile_suffix _).eq_of_length
      (Nat.le_antisymm (dropWhile_suffix _).length_le ?_)
    calc s.length = (strip s).length := by rw [h]
      _ ≤ (s.dropWhile isSpace).length := (List.rdropWhile_prefix _ _).length_le
  refine ⟨hFront, ?_⟩
  rw [strip_eq_rdropWhile, hFront] at h
  exact h

/-- White space at the end goes up to a character that is none. -/
theorem rdropWhile_append_cons (hC : isSpace c = false) (s rest : List Char) :
    (s ++ c :: rest).rdropWhile isSpace = s ++ c :: rest.rdropWhile isSpace := by
  induction rest using List.reverseRecOn with
  | nil =>
    rw [rdropWhile_nil,
      rdropWhile_concat_neg _ _ _ (by rw [hC]; exact Bool.false_ne_true)]
  | append_singleton rest d ih =>
    have hEq : s ++ c :: (rest ++ [d]) = (s ++ c :: rest) ++ [d] := by simp
    rw [hEq]
    by_cases hD : isSpace d = true
    · rw [rdropWhile_concat_pos _ _ _ hD, rdropWhile_concat_pos _ _ _ hD, ih]
    · rw [rdropWhile_concat_neg _ _ _ hD, rdropWhile_concat_neg _ _ _ hD, hEq]

end Lib.PyText
