import AdminPanel.Lib.Sections

/-!
# The `.env` file

`env_file.py`: the panel sets and removes single keys of its `.env` file, and reads them back. The
writers take a line for a key's own when it begins with `KEY=`, the readers when it does so
stripped.

* `setEnvValue`, `removeEnvKey` — the writers; `getEnvValue`, `envKeyDefinedInFile` — the readers;
* `WritesOnlyKey` — what is written is read, and nothing else changes;
* `NotIndented` — the readers find no line of the key that the writers pass over;
* `writesOnlyKey_iff` — writing one key works exactly under this condition;
* `value_of_writes` — after any writes a key has the value of the last one to it.
-/

namespace AdminPanel.Panel.EnvFile

open List Lib.PyText

/-! ## Keys and values -/

/-- A key: an identifier has no `=`, no `#` and no white space. -/
structure EnvKey where
  text : List Char
  nonempty : text ≠ []
  plain : ∀ c ∈ text, c ≠ '=' ∧ c ≠ '#' ∧ isSpace c = false

/-- A value without line breaks and surrounding spaces. -/
structure EnvValue where
  text : List Char
  oneLine : ∀ c ∈ text, isLineBreak c = false
  stripped : strip text = text

section

variable (key : EnvKey) (file : File)

/-- `f"{key}="` -/
def EnvKey.mark : List Char := key.text ++ ['=']

/-- `f"{key}={value}\n"` -/
def EnvKey.line (value : EnvValue) : List Char := key.mark ++ value.text ++ ['\n']

/-- The file, if there is one. -/
abbrev File := Option (List Char)

/-! ## The writers -/

/-- The loop body of `_set_env_value`. -/
def rewriteLine (value : EnvValue) (line : List Char) : List Char :=
  if key.mark <+: line then key.line value
  else if ['\n'] <:+ line then line
  else line ++ ['\n']

def setEnvValue (value : EnvValue) (file : File) : File :=
  let lines := match file with
    | none => []
    | some raw => keepLines (readText raw)
  let updated := lines.any fun line => decide (key.mark <+: line)
  let newLines := lines.map (rewriteLine key value)
  some (if updated then newLines else newLines ++ [key.line value]).flatten

/-- `_set_env_value` with any text for the value: it is not escaped. -/
def setEnvText (text : List Char) (file : File) : File :=
  let keyLine := key.mark ++ text ++ ['\n']
  let lines := match file with
    | none => []
    | some raw => keepLines (readText raw)
  let updated := lines.any fun line => decide (key.mark <+: line)
  let newLines := lines.map fun line =>
    if key.mark <+: line then keyLine else if ['\n'] <:+ line then line else line ++ ['\n']
  some (if updated then newLines else newLines ++ [keyLine]).flatten

def removeEnvKey : File :=
  match file with
  | none => none
  | some raw =>
    let lines := keepLines (readText raw)
    let newLines := lines.filter fun line => !decide (key.mark <+: line)
    if newLines.length = lines.length then some raw else some newLines.flatten

/-! ## The readers -/

/-- A line that gives the key a value. -/
def lineValue? (raw : List Char) : Option (List Char) :=
  let line := strip raw
  if line = [] ∨ ['#'] <+: line then none
  else if key.mark <+: line then some (strip ((line.dropWhile (· ≠ '=')).drop 1))
  else none

/-- The lines of the file, as `str.splitlines()` finds them. -/
def envLines : List (List Char) :=
  match file with
  | none => []
  | some raw => splitLines (readText raw)

/-- What `get_env_value` returns from the file. -/
def fileValue? : Option (List Char) :=
  (envLines file).findSome? (lineValue? key)

def getEnvValue (environ : EnvKey → Option (List Char)) (key : EnvKey) (default : List Char)
    (file : File) : List Char :=
  (fileValue? key file).getD ((environ key).getD default)

def envKeyDefinedInFile : Bool :=
  (envLines file).any fun line => (lineValue? key line).isSome

def isComment (line : List Char) : Bool := decide (['#'] <+: strip line)

/-- The comment lines of the file. -/
def comments : List (List Char) := (envLines file).filter isComment

/-! ## What writing a key must do -/

structure WritesOnlyKey (k j : EnvKey) (v : EnvValue) (file : File) : Prop where
  set_get : ∀ environ default, getEnvValue environ k default (setEnvValue k v file) = v.text
  set_defined : envKeyDefinedInFile k (setEnvValue k v file) = true
  remove_defined : envKeyDefinedInFile k (removeEnvKey k file) = false
  set_other : fileValue? j (setEnvValue k v file) = fileValue? j file
  set_other_defined : envKeyDefinedInFile j (setEnvValue k v file) = envKeyDefinedInFile j file
  remove_other : fileValue? j (removeEnvKey k file) = fileValue? j file
  remove_other_defined : envKeyDefinedInFile j (removeEnvKey k file) = envKeyDefinedInFile j file
  set_comments : comments (setEnvValue k v file) = comments file
  remove_comments : comments (removeEnvKey k file) = comments file

/-- Every line that the readers take for one of the key begins with it. -/
def NotIndented : Prop :=
  ∀ line ∈ envLines file, key.mark <+: strip line → key.mark <+: line

end

instance (key : EnvKey) (file : File) : Decidable (NotIndented key file) :=
  inferInstanceAs (Decidable (∀ line ∈ envLines file, _))

/-! ## Lines and their values -/

variable {k j : EnvKey} {v : EnvValue} {line : List Char}

theorem EnvKey.not_break_mark (key : EnvKey) : ∀ c ∈ key.mark, isLineBreak c = false := by
  intro c hC
  rcases mem_append.mp hC with hKey | hEq
  · by_contra hBreak
    rw [Bool.not_eq_false] at hBreak
    have hSpace := isSpace_of_isLineBreak hBreak
    rw [(key.plain c hKey).2.2] at hSpace
    cases hSpace
  · rw [mem_singleton.mp hEq]
    decide

/-- Two keys with one mark in front of a text are the same. -/
theorem eq_of_marks {s : List Char} (hK : k.mark <+: s) (hJ : j.mark <+: s) : k.text = j.text := by
  obtain ⟨rest, hRest⟩ := hK
  obtain ⟨rest', hRest'⟩ := hJ
  rw [EnvKey.mark, append_assoc, singleton_append] at hRest hRest'
  have hNot : ∀ key : EnvKey, '=' ∉ key.text := fun key hMem => (key.plain _ hMem).1 rfl
  exact (eq_of_append_cons (hNot k) (hNot j) (hRest.trans hRest'.symm)).1

/-- A line that begins with the mark of a key is no comment, and gives no other key a value. -/
theorem mark_strip (h : k.mark <+: line) : k.mark <+: strip line := by
  obtain ⟨rest, rfl⟩ := h
  obtain ⟨c, text, hText⟩ := exists_cons_of_ne_nil k.nonempty
  have hSpace : isSpace c = false := (k.plain c (by rw [hText]; exact mem_cons_self)).2.2
  have hFront : (k.mark ++ rest).dropWhile isSpace = k.mark ++ rest := by
    rw [EnvKey.mark, hText, cons_append, cons_append,
      dropWhile_cons_of_neg (by rw [hSpace]; exact Bool.false_ne_true)]
  rw [strip_eq_rdropWhile, hFront, EnvKey.mark, append_assoc, singleton_append,
    rdropWhile_append_cons (by decide)]
  exact ⟨_, append_assoc _ _ _⟩

theorem mark_not_comment (h : k.mark <+: line) : ¬ ['#'] <+: line := by
  obtain ⟨rest, rfl⟩ := h
  obtain ⟨c, text, hText⟩ := exists_cons_of_ne_nil k.nonempty
  rintro ⟨more, hMore⟩
  rw [EnvKey.mark, hText] at hMore
  obtain ⟨rfl, -⟩ := List.cons.inj hMore
  exact (k.plain '#' (by rw [hText]; exact mem_cons_self)).2.1 rfl

theorem lineValue?_isSome : (lineValue? k line).isSome = true ↔ k.mark <+: strip line := by
  simp only [lineValue?]
  by_cases h : k.mark <+: strip line
  · have hNot : ¬ (strip line = [] ∨ ['#'] <+: strip line) := by
      rintro (hNil | hComment)
      · rw [hNil, prefix_nil] at h
        exact append_ne_nil_of_left_ne_nil k.nonempty _ h
      · exact mark_not_comment h hComment
    rw [if_neg hNot, if_pos h]
    exact iff_of_true rfl h
  · simp only [if_neg h]
    split <;> simp [h]

theorem lineValue?_nil (key : EnvKey) : lineValue? key [] = none := rfl

/-- The line of a key gives it its value. -/
theorem lineValue?_line (k : EnvKey) (v : EnvValue) :
    lineValue? k (k.mark ++ v.text) = some v.text := by
  have hMark : k.mark <+: k.mark ++ v.text := prefix_append _ _
  have hStrip : strip (k.mark ++ v.text) = k.mark ++ v.text := by
    obtain ⟨c, text, hText⟩ := exists_cons_of_ne_nil k.nonempty
    have hSpace : isSpace c = false := (k.plain c (by rw [hText]; exact mem_cons_self)).2.2
    have hFront : (k.mark ++ v.text).dropWhile isSpace = k.mark ++ v.text := by
      rw [EnvKey.mark, hText, cons_append, cons_append,
        dropWhile_cons_of_neg (by rw [hSpace]; exact Bool.false_ne_true)]
    rw [strip_eq_rdropWhile, hFront, EnvKey.mark, append_assoc, singleton_append,
      rdropWhile_append_cons (by decide), (dropWhile_of_strip v.stripped).2]
  have hSome : (lineValue? k (k.mark ++ v.text)).isSome = true :=
    lineValue?_isSome.mpr (hStrip.symm ▸ hMark)
  have hValue : ((k.mark ++ v.text).dropWhile (· ≠ '=')).drop 1 = v.text := by
    rw [EnvKey.mark, append_assoc, singleton_append,
      dropWhile_append_of_pos fun c hC => by simpa using (k.plain c hC).1,
      dropWhile_cons_of_neg (by simp)]
    rfl
  simp only [lineValue?, hStrip, hValue, v.stripped, if_pos hMark] at hSome ⊢
  split at hSome
  · cases hSome
  · next hNot => rw [if_neg hNot]

/-! ## What is found in a file -/

section

variable {α : Type} {f : List Char → Option α} {s : List Char}

theorem mark_bareLine : k.mark <+: bareLine line ↔ k.mark <+: line := by
  constructor
  · exact fun h => h.trans (List.takeWhile_prefix _)
  · rintro ⟨rest, rfl⟩
    rw [bareLine_append k.not_break_mark]
    exact prefix_append _ _

/-- Pieces that end with a newline are looked through one by one. -/
theorem found_pieces (hNil : f [] = none) {pieces : List (List Char)}
    (h : ∀ p ∈ pieces, ∃ x, p = x ++ ['\n']) : (splitLines pieces.flatten).filterMap f =
      pieces.flatMap fun p => (splitLines p).filterMap f := by
  induction pieces with
  | nil => rfl
  | cons p pieces ih =>
    obtain ⟨x, rfl⟩ := h p mem_cons_self
    have hPiece : (splitLines (x ++ ['\n'])).filterMap f = (splitLines x).filterMap f := by
      rw [filterMap_splitLines hNil]
      exact append_nil _
    rw [flatten_cons, append_assoc, singleton_append, filterMap_splitLines hNil,
      ih fun p hP => h p (mem_cons_of_mem _ hP), flatMap_cons, hPiece]

theorem found_line (h : line ∈ keepLines s) :
    (splitLines line).filterMap f = (f (bareLine line)).toList := by
  rw [splitLines_eq_map, keepLines_of_mem h, map_singleton, filterMap_cons]
  cases f (bareLine line) <;> rfl

/-- The lines of the file with their ends. -/
def rawLines (file : File) : List (List Char) := keepLines (readText (file.getD []))

/-- What the lines of the file give, one by one. -/
def foundIn (f : List Char → Option α) (file : File) : List α := (envLines file).filterMap f

theorem envLines_eq (file : File) : envLines file = (rawLines file).map bareLine := by
  cases file with
  | none => rfl
  | some raw => exact splitLines_eq_map _

theorem foundIn_eq (f : List Char → Option α) (file : File) :
    foundIn f file = (rawLines file).flatMap fun line => (f (bareLine line)).toList := by
  rw [foundIn, envLines_eq, filterMap_map, filterMap_eq_flatMap_toList]
  rfl

theorem setEnvValue_eq (k : EnvKey) (v : EnvValue) (file : File) :
    setEnvValue k v file = some (((rawLines file).map (rewriteLine k v) ++
      if (rawLines file).any fun line => decide (k.mark <+: line) then [] else [k.line v])).flatten := by
  have hLines : setEnvValue k v file =
      some (if (rawLines file).any fun line => decide (k.mark <+: line) then
          (rawLines file).map (rewriteLine k v)
        else (rawLines file).map (rewriteLine k v) ++ [k.line v]).flatten := by
    cases file <;> rfl
  rw [hLines]
  split
  · rw [append_nil]
  · rfl

theorem return_notMem_line (k : EnvKey) (v : EnvValue) : '\r' ∉ k.line v := by
  intro hMem
  rcases mem_append.mp hMem with hMem | hMem
  · rcases mem_append.mp hMem with hMem | hMem
    · exact absurd (k.not_break_mark _ hMem) (by decide)
    · exact absurd (v.oneLine _ hMem) (by decide)
  · exact absurd (mem_singleton.mp hMem) (by decide)

theorem return_notMem_rewriteLine {file : File} (h : line ∈ rawLines file) :
    '\r' ∉ rewriteLine k v line := by
  have hOld : '\r' ∉ line := by
    intro hMem
    have hIn : '\r' ∈ (keepLines (readText (file.getD []))).flatten := mem_flatten.mpr ⟨line, h, hMem⟩
    rw [flatten_keepLines] at hIn
    exact return_notMem_readText _ hIn
  unfold rewriteLine
  split_ifs
  · exact return_notMem_line k v
  · exact hOld
  · rw [mem_append, not_or]
    exact ⟨hOld, by decide⟩

theorem found_keyLine (hNil : f [] = none) (k : EnvKey) (v : EnvValue) :
    (splitLines (k.line v)).filterMap f = (f (k.mark ++ v.text)).toList := by
  have hNe : k.mark ++ v.text ≠ [] := by
    refine append_ne_nil_of_left_ne_nil ?_ _
    exact append_ne_nil_of_left_ne_nil k.nonempty _
  have hBreak : ∀ c ∈ k.mark ++ v.text, isLineBreak c = false := by
    intro c hC
    exact (mem_append.mp hC).elim (k.not_break_mark c) (v.oneLine c)
  rw [EnvKey.line, filterMap_splitLines hNil, splitLines_line hNe hBreak]
  show _ ++ [] = _
  rw [append_nil, filterMap_cons]
  cases f (k.mark ++ v.text) <;> rfl

theorem found_rewriteLine (hNil : f [] = none) (h : line ∈ keepLines s) :
    (splitLines (rewriteLine k v line)).filterMap f =
      if k.mark <+: line then (f (k.mark ++ v.text)).toList else (f (bareLine line)).toList := by
  rw [rewriteLine]
  split_ifs with hMark hEnd
  · exact found_keyLine hNil k v
  · exact found_line h
  · rw [filterMap_splitLines hNil, found_line h]
    exact append_nil _

theorem endsNewline_rewriteLine (k : EnvKey) (v : EnvValue) (line : List Char) :
    ∃ x, rewriteLine k v line = x ++ ['\n'] := by
  rw [rewriteLine]
  split_ifs with hMark hEnd
  · exact ⟨_, rfl⟩
  · obtain ⟨x, hX⟩ := hEnd
    exact ⟨x, hX.symm⟩
  · exact ⟨line, rfl⟩

/-- **What is found after a key is set.** -/
theorem foundIn_set (hNil : f [] = none) (k : EnvKey) (v : EnvValue) (file : File) :
    foundIn f (setEnvValue k v file) =
      ((rawLines file).flatMap fun line =>
        if k.mark <+: line then (f (k.mark ++ v.text)).toList else (f (bareLine line)).toList) ++
      if (rawLines file).any fun line => decide (k.mark <+: line) then []
      else (f (k.mark ++ v.text)).toList := by
  rw [setEnvValue_eq]
  generalize hLast : (if (rawLines file).any fun line => decide (k.mark <+: line) then []
    else [k.line v]) = last
  have hLastMem : ∀ p ∈ last, p = k.line v := by
    intro p hP
    rw [← hLast] at hP
    split_ifs at hP
    · cases hP
    · exact mem_singleton.mp hP
  have hReturn : '\r' ∉ ((rawLines file).map (rewriteLine k v) ++ last).flatten := by
    intro hMem
    obtain ⟨p, hP, hIn⟩ := mem_flatten.mp hMem
    rcases mem_append.mp hP with hP | hP
    · obtain ⟨line, hLine, rfl⟩ := mem_map.mp hP
      exact return_notMem_rewriteLine hLine hIn
    · exact return_notMem_line k v (hLastMem p hP ▸ hIn)
  show (splitLines (readText _)).filterMap f = _
  rw [readText_of_no_return hReturn, found_pieces hNil, flatMap_append, flatMap_map]
  · congr 1
    · exact flatMap_congr fun line hLine => found_rewriteLine hNil hLine
    · rw [← hLast]
      split_ifs
      · rfl
      · rw [flatMap_singleton, found_keyLine hNil]
  · intro p hP
    rcases mem_append.mp hP with hP | hP
    · obtain ⟨line, -, rfl⟩ := mem_map.mp hP
      exact endsNewline_rewriteLine k v line
    · exact ⟨_, hLastMem p hP⟩

/-- **What is found after a key is removed.** -/
theorem foundIn_remove (f : List Char → Option α) (k : EnvKey) (file : File) :
    foundIn f (removeEnvKey k file) =
      ((rawLines file).filter fun line => !decide (k.mark <+: line)).flatMap
        fun line => (f (bareLine line)).toList := by
  cases file with
  | none => rfl
  | some raw =>
    have hLines : rawLines (some raw) = keepLines (readText raw) := rfl
    rw [removeEnvKey]
    split_ifs with hLength
    · rw [foundIn_eq, hLines, filter_eq_self.mpr (length_filter_eq_length_iff.mp hLength)]
    · have hCut := (wellCut_keepLines (return_notMem_readText raw)).filter
        fun line => !decide (k.mark <+: line)
      rw [foundIn_eq, rawLines, Option.getD_some, readText_of_no_return hCut.return_notMem,
        keepLines_flatten hCut]
      rfl

/-- A search that passes over the lines of a key finds the same when the key is written. -/
theorem foundIn_written (hNil : f [] = none) (hOver : ∀ line, k.mark <+: line → f line = none)
    (file : File) : foundIn f (setEnvValue k v file) = foundIn f file ∧
      foundIn f (removeEnvKey k file) = foundIn f file := by
  have hNew : f (k.mark ++ v.text) = none := hOver _ (prefix_append _ _)
  have hOld : ∀ line, k.mark <+: line → f (bareLine line) = none :=
    fun line hMark => hOver _ (mark_bareLine.mpr hMark)
  constructor
  · rw [foundIn_set hNil, foundIn_eq, hNew, Option.toList_none, ite_self, append_nil]
    refine flatMap_congr fun line _ => ?_
    split_ifs with hMark
    · rw [hOld line hMark]
      rfl
    · rfl
  · rw [foundIn_remove, foundIn_eq]
    induction rawLines file with
    | nil => rfl
    | cons line lines ih =>
      by_cases hMark : k.mark <+: line
      · rw [filter_cons_of_neg (by simpa using hMark), ih, flatMap_cons, hOld line hMark]
        rfl
      · rw [filter_cons_of_pos (by simpa using hMark), flatMap_cons, ih, flatMap_cons]

end

/-! ## The readers after a write -/

section

variable {file : File}

theorem fileValue?_eq (key : EnvKey) (file : File) :
    fileValue? key file = (foundIn (lineValue? key) file).head? :=
  (List.head?_filterMap).symm

theorem envKeyDefinedInFile_eq (key : EnvKey) (file : File) :
    envKeyDefinedInFile key file = !(foundIn (lineValue? key) file).isEmpty := by
  rw [envKeyDefinedInFile, foundIn]
  induction envLines file with
  | nil => rfl
  | cons line lines ih =>
    rw [any_cons, ih, filterMap_cons]
    cases lineValue? key line <;> rfl

theorem comments_eq (file : File) : comments file = foundIn (Option.guard isComment) file :=
  (congrFun filterMap_eq_filter.symm _).trans rfl

theorem lineValue?_other (hNe : k.text ≠ j.text) (h : k.mark <+: line) :
    lineValue? j line = none := by
  rw [← Option.not_isSome_iff_eq_none, lineValue?_isSome]
  exact fun hOther => hNe (eq_of_marks (mark_strip h) hOther)

theorem guard_isComment (h : k.mark <+: line) : Option.guard isComment line = none := by
  rw [Option.guard_eq_none_iff, isComment, decide_eq_false_iff_not]
  exact mark_not_comment (mark_strip h)

/-- Once set, a key has a line. -/
theorem foundIn_set_ne_nil (k : EnvKey) (v : EnvValue) (file : File) :
    v.text ∈ foundIn (lineValue? k) (setEnvValue k v file) := by
  rw [foundIn_set (lineValue?_nil k), lineValue?_line, mem_append]
  by_cases hAny : ((rawLines file).any fun line => decide (k.mark <+: line)) = true
  · obtain ⟨line, hLine, hMark⟩ := any_eq_true.mp hAny
    rw [decide_eq_true_eq] at hMark
    exact Or.inl (mem_flatMap.mpr ⟨line, hLine, by rw [if_pos hMark]; exact mem_cons_self⟩)
  · rw [if_neg hAny]
    exact Or.inr mem_cons_self

/-- Lines that do not begin with the mark give the key no value. -/
theorem lineValue?_unmarked (h : NotIndented k file) (hLine : line ∈ rawLines file)
    (hMark : ¬ k.mark <+: line) : lineValue? k (bareLine line) = none := by
  rw [← Option.not_isSome_iff_eq_none, lineValue?_isSome]
  intro hStrip
  have hMem : bareLine line ∈ envLines file := envLines_eq file ▸ mem_map.mpr ⟨line, hLine, rfl⟩
  exact hMark (mark_bareLine.mp (h _ hMem hStrip))

theorem value_of_foundIn_set (h : NotIndented k file) {value : List Char}
    (hMem : value ∈ foundIn (lineValue? k) (setEnvValue k v file)) : value = v.text := by
  rw [foundIn_set (lineValue?_nil k), lineValue?_line, mem_append] at hMem
  rcases hMem with hMem | hMem
  · obtain ⟨line, hLine, hValue⟩ := mem_flatMap.mp hMem
    split_ifs at hValue with hMark
    · exact mem_singleton.mp hValue
    · rw [lineValue?_unmarked h hLine hMark] at hValue
      cases hValue
  · split_ifs at hMem
    · cases hMem
    · exact mem_singleton.mp hMem

theorem foundIn_remove_eq_nil :
    foundIn (lineValue? k) (removeEnvKey k file) = [] ↔ NotIndented k file := by
  rw [foundIn_remove, flatMap_eq_nil_iff]
  constructor
  · intro h line hLine hStrip
    rw [envLines_eq] at hLine
    obtain ⟨raw, hRaw, rfl⟩ := mem_map.mp hLine
    rw [mark_bareLine]
    by_contra hMark
    have hNone := h raw (mem_filter.mpr ⟨hRaw, by simpa using hMark⟩)
    have hSome := lineValue?_isSome.mpr hStrip
    rw [Option.toList_eq_nil_iff.mp hNone] at hSome
    cases hSome
  · intro h line hMem
    obtain ⟨hLine, hMark⟩ := mem_filter.mp hMem
    rw [lineValue?_unmarked h hLine (by simpa using hMark)]
    rfl

/-- **Writing one key is seen and changes no other** exactly when no line of it is indented. -/
theorem writesOnlyKey_iff (hNe : k.text ≠ j.text) (v : EnvValue) (file : File) :
    WritesOnlyKey k j v file ↔ NotIndented k file := by
  obtain ⟨hSetOther, hRemoveOther⟩ := foundIn_written (v := v) (lineValue?_nil j)
    (fun line => lineValue?_other hNe) file
  obtain ⟨hSetComments, hRemoveComments⟩ := foundIn_written (v := v) (f := Option.guard isComment)
    (by rfl) (fun line => guard_isComment (k := k)) file
  constructor
  · intro h
    have hRemoved := h.remove_defined
    rw [envKeyDefinedInFile_eq, Bool.not_eq_false', List.isEmpty_iff] at hRemoved
    exact foundIn_remove_eq_nil.mp hRemoved
  · intro h
    refine ⟨?_, ?_, ?_, ?_, ?_, ?_, ?_, ?_, ?_⟩
    · intro environ default
      have hMem := foundIn_set_ne_nil k v file
      rw [getEnvValue, fileValue?_eq]
      cases hFound : foundIn (lineValue? k) (setEnvValue k v file) with
      | nil =>
        rw [hFound] at hMem
        cases hMem
      | cons value more =>
        have hFirst : value ∈ foundIn (lineValue? k) (setEnvValue k v file) :=
          hFound ▸ mem_cons_self
        exact value_of_foundIn_set h hFirst
    · rw [envKeyDefinedInFile_eq, Bool.not_eq_true', isEmpty_eq_false_iff]
      exact ne_nil_of_mem (foundIn_set_ne_nil k v file)
    · rw [envKeyDefinedInFile_eq, foundIn_remove_eq_nil.mpr h]
      rfl
    · rw [fileValue?_eq, fileValue?_eq, hSetOther]
    · rw [envKeyDefinedInFile_eq, envKeyDefinedInFile_eq, hSetOther]
    · rw [fileValue?_eq, fileValue?_eq, hRemoveOther]
    · rw [envKeyDefinedInFile_eq, envKeyDefinedInFile_eq, hRemoveOther]
    · rw [comments_eq, comments_eq, hSetComments]
    · rw [comments_eq, comments_eq, hRemoveComments]

end

/-! ## Runs of writes -/

/-- A call of a writer; the lock lets one go after the other. -/
inductive EnvWrite
  | set (key : EnvKey) (value : EnvValue)
  | remove (key : EnvKey)

def EnvWrite.run (file : File) : EnvWrite → File
  | .set key value => setEnvValue key value file
  | .remove key => removeEnvKey key file

/-- The value of a key after a write, from the one before. -/
def EnvWrite.leaves (key : EnvKey) (value : Option (List Char)) : EnvWrite → Option (List Char)
  | .set written v => if written.text = key.text then some v.text else value
  | .remove written => if written.text = key.text then none else value

section

variable {file : File}

theorem eq_of_text (h : j.text = k.text) : j = k := by
  cases j
  cases k
  cases h
  rfl

theorem fileValue?_set (h : NotIndented k file) (v : EnvValue) :
    fileValue? k (setEnvValue k v file) = some v.text := by
  obtain ⟨value, more, hFound⟩ :=
    exists_cons_of_ne_nil (ne_nil_of_mem (foundIn_set_ne_nil k v file))
  rw [fileValue?_eq, hFound, List.head?_cons]
  exact congrArg some (value_of_foundIn_set h (hFound ▸ mem_cons_self))

/-- A stripped text is read back from the line of the key exactly when it is one line. -/
theorem fileValue?_setEnvText_iff (h : NotIndented k file) {text : List Char}
    (hStrip : strip text = text) :
    fileValue? k (setEnvText k text file) = some text ↔ ∀ c ∈ text, isLineBreak c = false := by
  constructor
  · intro hRead c hC
    obtain ⟨line, hLine, hValue⟩ := exists_of_findSome?_eq_some hRead
    -- what is read is a piece of one line
    have hIn : c ∈ line := by
      simp only [lineValue?] at hValue
      split_ifs at hValue
      cases hValue
      exact mem_of_mem_strip ((dropWhile_suffix _).subset
        (mem_of_mem_drop (mem_of_mem_strip hC)))
    exact not_break_of_mem_splitLines hLine c hIn
  · exact fun hOne => fileValue?_set h ⟨text, hOne, hStrip⟩

/-- The lines that the readers alone take for one of the key. -/
def indented (key : EnvKey) (line : List Char) : Bool :=
  decide (key.mark <+: strip line ∧ ¬ key.mark <+: line)

theorem notIndented_iff : NotIndented k file ↔ foundIn (Option.guard (indented k)) file = [] := by
  simp only [foundIn, filterMap_eq_nil_iff, Option.guard_eq_none_iff, indented,
    decide_eq_false_iff_not, not_and, not_not]
  rfl

/-- No write makes an indented line. -/
theorem notIndented_run (h : NotIndented k file) (write : EnvWrite) :
    NotIndented k (write.run file) := by
  have hOver : ∀ (j : EnvKey) (line : List Char), j.mark <+: line →
      Option.guard (indented k) line = none := by
    intro j line hMark
    rw [Option.guard_eq_none_iff, indented, decide_eq_false_iff_not]
    rintro ⟨hStrip, hNot⟩
    exact hNot (eq_of_text (eq_of_marks (mark_strip hMark) hStrip) ▸ hMark)
  have hNil : Option.guard (indented k) [] = none := by
    rw [Option.guard_eq_none_iff, indented, decide_eq_false_iff_not]
    exact fun hIndented => hIndented.2 hIndented.1
  rw [notIndented_iff] at h ⊢
  cases write with
  | set j v => exact ((foundIn_written hNil (hOver j) file).1).trans h
  | remove j => exact ((foundIn_written (v := ⟨[], by simp, rfl⟩) hNil (hOver j) file).2).trans h

theorem fileValue?_run (h : NotIndented k file) (write : EnvWrite) :
    fileValue? k (write.run file) = write.leaves k (fileValue? k file) := by
  cases write with
  | set j v =>
    rw [EnvWrite.leaves]
    split_ifs with hSame
    · rw [eq_of_text hSame]
      exact fileValue?_set h v
    · rw [EnvWrite.run, fileValue?_eq, fileValue?_eq,
        (foundIn_written (lineValue?_nil k) (fun line => lineValue?_other hSame) file).1]
  | remove j =>
    rw [EnvWrite.leaves]
    split_ifs with hSame
    · rw [eq_of_text hSame, EnvWrite.run, fileValue?_eq, foundIn_remove_eq_nil.mpr h]
      rfl
    · have hKept := foundIn_written (v := ⟨[], by simp, rfl⟩) (lineValue?_nil k)
        (fun line => lineValue?_other hSame) file
      rw [EnvWrite.run, fileValue?_eq, fileValue?_eq, hKept.2]

/-- **The file is a map**: after any writes a key has the value of its last one. -/
theorem value_of_writes (h : NotIndented k file) (writes : List EnvWrite) :
    fileValue? k (writes.foldl EnvWrite.run file) =
      writes.foldl (EnvWrite.leaves k) (fileValue? k file) := by
  induction writes generalizing file with
  | nil => rfl
  | cons write writes ih =>
    rw [foldl_cons, foldl_cons, ih (notIndented_run h write), fileValue?_run h write]

end

/-! ## An indented line -/

def portKey : EnvKey := ⟨"PORT".toList, by decide, by decide⟩

def hostKey : EnvKey := ⟨"HOST".toList, by decide, by decide⟩

def port80 : EnvValue := ⟨"80".toList, by decide, by decide⟩

/-- A key that stands at the start of its lines is written for the readers. -/
theorem writesOnlyKey_port :
    WritesOnlyKey portKey hostKey port80 (some "# panel\n HOST=a\nPORT=1\nPORT = 2".toList) :=
  (writesOnlyKey_iff (by decide) port80 _).mpr (by decide)

/-- What is read after three writes of a file with a comment, another key and two such lines. -/
theorem value_of_writes_port : fileValue? portKey ([.set hostKey port80, .remove portKey,
    .set portKey port80].foldl EnvWrite.run (some "# panel\n HOST=a\nPORT=1\nPORT = 2".toList)) =
      some "80".toList :=
  value_of_writes (by decide) _

/-- **An indented line is read and not written.** -/
theorem not_always_written : ¬ WritesOnlyKey portKey hostKey port80 (some "  PORT=1\n".toList) := by
  intro h
  have hGet := h.set_get (fun _ => none) []
  exact absurd hGet (by decide)

end AdminPanel.Panel.EnvFile
