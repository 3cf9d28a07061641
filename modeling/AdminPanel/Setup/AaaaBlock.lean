import AdminPanel.Lib.Occurrences

/-!
# The managed AAAA block

`kresd_aaaa.py` keeps a block of Lua between two markers in a file that is the user's. It goes
behind the user's text after a blank line, and is taken out with the text and the blank line that
are found there then.

* `aaaaMode`, `withAaaaNodata` — the functions;
* `aaaaMode_nodata_iff` — the block is recognised exactly where it stands alone in the file;
* `withAaaaNodata_error_iff` — when an exception is raised;
* `reversible_iff` — exactly when the file is as it would be without the block.
-/

namespace AdminPanel.Setup.AaaaBlock

open List Lib.PyText

/-! ## `kresd_aaaa.py` -/

def blockStart : List Char := "-- [ADMINPANEL-AAAA-NODATA-START]".toList

def blockEnd : List Char := "-- [ADMINPANEL-AAAA-NODATA-END]".toList

/-- What `NODATA_BLOCK` has between its markers. -/
def blockTexts : List String := [
    " Managed by AdminPanelAZ: answer AAAA with NODATA instead of ::\n",
    "do\n",
    "\tlocal nodata = policy.ANSWER(\x7b[kres.type.SOA] = \x7brdata = ",
    "kres.parse_rdata(\x7b'SOA . . 1 1 1 1 86400'\x7d), ttl = 86400\x7d\x7d, true)\n",
    "\tlocal rule = policy.add(function(_, query)\n",
    "\t\tif query.stype == kres.type.AAAA then\n",
    "\t\t\treturn nodata\n",
    "\t\tend\n",
    "\tend)\n",
    "\t-- kresd.conf adds its AAAA -> :: rule before loading this file and the first ",
    "matching rule wins;\n",
    "\t-- policy.special_names (localhost, private zones) stay ahead of this rule.\n",
    "\tif policy.rules[#policy.rules] == rule then\n",
    "\t\ttable.remove(policy.rules)\n",
    "\t\tlocal special = \x7b\x7d\n",
    "\t\tfor _, item in ipairs(policy.special_names) do\n",
    "\t\t\tspecial[item.cb] = true\n",
    "\t\tend\n",
    "\t\tlocal pos = 1\n",
    "\t\tfor i, r in ipairs(policy.rules) do\n",
    "\t\t\tif special[r.cb] then\n",
    "\t\t\t\tpos = i + 1\n",
    "\t\t\tend\n",
    "\t\tend\n",
    "\t\ttable.insert(policy.rules, pos, rule)\n",
    "\tend\n",
    "end\n"]

def blockBody : List Char := blockTexts.flatMap String.toList

def nodataBlock : List Char := blockStart ++ (blockBody ++ (blockEnd ++ ['\n']))

inductive AaaaMode where
  | zero
  | nodata
  | custom
  deriving DecidableEq, Repr

section

variable (content : List Char)

def aaaaMode : AaaaMode :=
  let starts := countOf blockStart content
  let ends := countOf blockEnd content
  if starts = 0 ∧ ends = 0 then .zero
  else if starts = 1 ∧ ends = 1 ∧ nodataBlock <:+: content then .nodata
  else .custom

/-- `text.rstrip("\n")` -/
def rstripNewlines (text : List Char) : List Char := text.rdropWhile (· = '\n')

/-- `with_aaaa_nodata`; the last case cannot come up. -/
def withAaaaNodata (enabled : Bool) : Except String (List Char) :=
  match aaaaMode content with
  | .custom => .error "AAAA block was edited by hand"
  | mode =>
    if enabled then
      if mode = .nodata then .ok content
      else
        let base := rstripNewlines content
        .ok (if base ≠ [] then base ++ ['\n', '\n'] ++ nodataBlock else nodataBlock)
    else if mode = .zero then .ok content
    else
      match partition? nodataBlock content with
      | some (before, after) =>
        .ok ((if ['\n', '\n'] <:+ before then before.dropLast else before) ++ after)
      | none => .error "not enough values to unpack (expected 2, got 1)"

/-! ## What the block is to do -/

/-- Neither marker stands in the text. -/
def Unmarked (text : List Char) : Prop := ¬ blockStart <:+: text ∧ ¬ blockEnd <:+: text

instance (text : List Char) : Decidable (Unmarked text) := inferInstanceAs (Decidable (_ ∧ _))

/-- The managed block is what stands between the markers. -/
def Managed : Prop :=
  ∃ before after, content = before ++ (nodataBlock ++ after) ∧ Unmarked before ∧ Unmarked after

/-- The user's text around the block, which begins a line. -/
structure Surroundings where
  before : List Char
  after : List Char
  unmarked_before : Unmarked before
  unmarked_after : Unmarked after
  closed : before = [] ∨ ['\n'] <:+ before

/-- The blank line that enabling puts before the block. -/
def gap : List Char := if rstripNewlines content = [] then [] else ['\n']

/-- The file with the block, after the user has changed the text around it. -/
def edited (t : Surroundings) : List Char :=
  t.before ++ gap content ++ (nodataBlock ++ t.after)

/-- The texts are equal up to line breaks at the end. -/
def SameText (text other : List Char) : Prop := rstripNewlines text = rstripNewlines other

/-- The block is put in and taken out without touching the user's file. -/
structure Reversible (content : List Char) (t : Surroundings) : Prop where
  undone : aaaaMode content = .zero → ∃ new, withAaaaNodata content true = .ok new ∧
    aaaaMode new = .nodata ∧ ∃ old, withAaaaNodata new false = .ok old ∧ SameText old content
  edited : aaaaMode content = .zero → ∃ old, withAaaaNodata (edited content t) false = .ok old ∧
    SameText old (t.before ++ t.after)
  idempotent : ∀ enabled new, withAaaaNodata content enabled = .ok new →
    withAaaaNodata new enabled = .ok new
  raises : ∀ enabled, (∃ error, withAaaaNodata content enabled = .error error) ↔
    ¬ Unmarked content ∧ ¬ Managed content

/-- The text before the block is not one that is taken for the blank line, or ends in it. -/
def GapTold (t : Surroundings) : Prop :=
  if rstripNewlines content = [] then ¬ ['\n', '\n'] <:+ t.before else t.before ≠ []

/-- What is around the block does not make up a marker without it. -/
def JoinsUnmarked : Prop :=
  ∀ before after, content = before ++ (nodataBlock ++ after) → Unmarked before → Unmarked after →
    Unmarked (before ++ after)

end

/-! ## Markers -/

variable {content before after : List Char}

/-- The characters of a literal. -/
theorem toList_literal {s : String} {chars : List Char} (h : s = String.ofList chars) :
    s.toList = chars := by
  rw [h, String.toList_ofList]

theorem start_eq : blockStart =
    ['-', '-', ' ', '[', 'A', 'D', 'M', 'I', 'N', 'P', 'A', 'N', 'E', 'L', '-', 'A', 'A',
     'A', 'A', '-', 'N', 'O', 'D', 'A', 'T', 'A', '-', 'S', 'T', 'A', 'R', 'T', ']'] :=
  toList_literal (Eq.refl (String.ofList _))

theorem end_eq : blockEnd =
    ['-', '-', ' ', '[', 'A', 'D', 'M', 'I', 'N', 'P', 'A', 'N', 'E', 'L', '-', 'A', 'A',
     'A', 'A', '-', 'N', 'O', 'D', 'A', 'T', 'A', '-', 'E', 'N', 'D', ']'] :=
  toList_literal (Eq.refl (String.ofList _))

-- the markers are texts that proofs have no need to look into
attribute [irreducible] blockStart blockEnd blockTexts

theorem newline_notMem_start : '\n' ∉ blockStart := by rw [start_eq]; decide

theorem newline_notMem_end : '\n' ∉ blockEnd := by rw [end_eq]; decide

theorem apart_start : Apart blockStart blockStart := by rw [start_eq]; decide

theorem apart_end : Apart blockEnd blockEnd := by rw [end_eq]; decide

theorem apart_end_start : Apart blockEnd blockStart := by rw [start_eq, end_eq]; decide

theorem apart_start_end : Apart blockStart (blockEnd ++ ['\n']) := by
  rw [start_eq, end_eq]
  decide

theorem length_start : blockStart.length = 33 := by rw [start_eq]; rfl

theorem length_end : blockEnd.length = 31 := by rw [end_eq]; rfl

theorem mem_start : 'L' ∈ blockStart := by rw [start_eq]; decide

theorem mem_end : 'L' ∈ blockEnd := by rw [end_eq]; decide

theorem start_ne_nil : blockStart ≠ [] := ne_nil_of_mem mem_start

theorem end_ne_nil : blockEnd ≠ [] := ne_nil_of_mem mem_end

theorem start_notIn_end : ¬ blockStart <:+: blockEnd := fun hFound => by
  have hLength := hFound.length_le
  rw [length_start, length_end] at hLength
  omega

theorem end_notIn_start : ¬ blockEnd <:+: blockStart := by rw [start_eq, end_eq]; decide

theorem notMem_literal {s : String} {chars : List Char} (h : s = String.ofList chars)
    (hNot : 'L' ∉ chars) : 'L' ∉ s.toList := by
  rwa [toList_literal h]

/-- The markers have a letter that the block does not have. -/
theorem notMem_body : 'L' ∉ blockBody := by
  have hTexts : ∀ text ∈ blockTexts, 'L' ∉ text.toList := by
    simp only [blockTexts, forall_mem_cons]
    repeat' refine And.intro (notMem_literal (Eq.refl (String.ofList _)) (by decide)) ?_
    exact fun text hMem => absurd hMem not_mem_nil
  intro hMem
  obtain ⟨text, hText, hIn⟩ := mem_flatMap.mp hMem
  exact hTexts text hText hIn

theorem head?_body : blockBody.head? = some ' ' := by
  rw [blockBody, blockTexts, flatMap_cons, toList_literal (Eq.refl (String.ofList _))]
  rfl

theorem notIn_body {marker : List Char} (h : 'L' ∈ marker) : ¬ marker <:+: blockBody :=
  fun hFound => notMem_body (hFound.subset h)

theorem apart_end_body : Apart blockEnd blockBody := by
  have hSpace : ∀ v ∈ blockEnd.tails, v.head? = some ' ' → 'L' ∈ v := by
    rw [end_eq]
    decide
  intro v hV hNil _ hPrefix
  obtain ⟨c, v, rfl⟩ := exists_cons_of_ne_nil hNil
  have hHead := head?_body
  obtain ⟨rest, hRest⟩ := hPrefix
  rw [← hRest] at hHead
  exact notMem_body (hRest ▸ mem_append_left rest (hSpace _ hV hHead))

/-! ## The block -/

theorem unmarked_append_newline (hP : Unmarked before) (hQ : Unmarked after) :
    Unmarked (before ++ '\n' :: after) := by
  have hCons : ∀ {marker : List Char}, '\n' ∉ marker → marker ≠ [] → ¬ marker <:+: before →
      ¬ marker <:+: after → ¬ marker <:+: before ++ '\n' :: after := by
    intro marker hNewline hNe hBefore hAfter
    rw [infix_append_iff (apart_newline hNewline after), infix_cons_iff]
    rintro (hFound | hFirst | hFound)
    · exact hBefore hFound
    · obtain ⟨c, marker, rfl⟩ := exists_cons_of_ne_nil hNe
      obtain ⟨rfl, -⟩ := cons_prefix_cons.mp hFirst
      exact hNewline mem_cons_self
    · exact hAfter hFound
  exact ⟨hCons newline_notMem_start start_ne_nil hP.1 hQ.1,
    hCons newline_notMem_end end_ne_nil hP.2 hQ.2⟩

theorem unmarked_nil : Unmarked [] :=
  ⟨fun h => start_ne_nil (infix_nil.mp h), fun h => end_ne_nil (infix_nil.mp h)⟩

theorem apart_start_block (after : List Char) : Apart blockStart (nodataBlock ++ after) := by
  rw [nodataBlock, append_assoc]
  exact apart_start.append (Nat.le_succ _) _

/-- **A block in unmarked text** has the only markers. -/
theorem countOf_block (hP : Unmarked before) (hQ : Unmarked after) :
    countOf blockStart (before ++ (nodataBlock ++ after)) = 1 ∧
      countOf blockEnd (before ++ (nodataBlock ++ after)) = 1 := by
  have hStart : before ++ (nodataBlock ++ after) =
      before ++ (blockStart ++ (blockBody ++ (blockEnd ++ '\n' :: after))) := by
    simp [nodataBlock]
  have hEnd : before ++ (nodataBlock ++ after) =
      (before ++ (blockStart ++ blockBody)) ++ (blockEnd ++ '\n' :: after) := by
    simp [nodataBlock]
  have hTail := unmarked_append_newline unmarked_nil hQ
  constructor
  · rw [hStart]
    refine countOf_eq_one start_ne_nil (apart_start.append (Nat.le_succ _) _) hP.1 ?_
    have hApart : Apart blockStart (blockEnd ++ '\n' :: after) := by
      have hLong : blockStart.length ≤ (blockEnd ++ ['\n']).length + 1 := by
        rw [length_append, length_start, length_end]
        decide
      have hMore := apart_start_end.append hLong after
      rwa [append_assoc, singleton_append] at hMore
    rw [infix_append_iff hApart, infix_append_iff (apart_newline newline_notMem_start after)]
    rintro (hBody | hIn | hAfter)
    · exact notIn_body mem_start hBody
    · exact start_notIn_end hIn
    · exact hTail.1 hAfter
  · rw [hEnd]
    refine countOf_eq_one end_ne_nil (apart_end.append (Nat.le_succ _) _) ?_ hTail.2
    have hApart : Apart blockEnd (blockStart ++ blockBody) :=
      apart_end_start.append (by rw [length_start, length_end]; decide) _
    rw [infix_append_iff hApart, infix_append_iff apart_end_body]
    rintro (hBefore | hIn | hBody)
    · exact hP.2 hBefore
    · exact end_notIn_start hIn
    · exact notIn_body mem_end hBody

theorem start_prefix_block : blockStart <+: nodataBlock := prefix_append _ _

theorem end_infix_block : blockEnd <:+: nodataBlock :=
  ⟨blockStart ++ blockBody, ['\n'], by simp [nodataBlock]⟩

theorem aaaaMode_zero_iff : aaaaMode content = .zero ↔ Unmarked content := by
  simp only [aaaaMode, countOf_eq_zero start_ne_nil, countOf_eq_zero end_ne_nil]
  by_cases h : ¬ blockStart <:+: content ∧ ¬ blockEnd <:+: content
  · rw [if_pos h]
    exact iff_of_true rfl h
  · rw [if_neg h]
    refine iff_of_false (fun hMode => ?_) h
    split_ifs at hMode

/-- **The block is recognised exactly where it is the only thing marked.** -/
theorem aaaaMode_nodata_iff : aaaaMode content = .nodata ↔ Managed content := by
  constructor
  · intro hMode
    simp only [aaaaMode] at hMode
    split_ifs at hMode with hZero hOne
    obtain ⟨hStarts, hEnds, before, after, hContent⟩ := hOne
    rw [append_assoc] at hContent
    refine ⟨before, after, hContent.symm, ⟨fun hFound => ?_, fun hFound => ?_⟩,
      fun hFound => ?_, fun hFound => ?_⟩
    · obtain ⟨u, v, rfl⟩ := hFound
      rw [← hContent, append_assoc] at hStarts
      refine not_infix_of_countOf hStarts start_ne_nil ?_
      exact start_prefix_block.isInfix.trans
        (infix_append_left.trans infix_append_right)
    · obtain ⟨u, v, rfl⟩ := hFound
      rw [← hContent, append_assoc] at hEnds
      refine not_infix_of_countOf hEnds end_ne_nil ?_
      exact end_infix_block.trans (infix_append_left.trans infix_append_right)
    · have hSplit : content = before ++ blockStart ++
          (blockBody ++ (blockEnd ++ ['\n']) ++ after) := by
        rw [← hContent]
        simp [nodataBlock]
      rw [hSplit] at hStarts
      exact not_infix_of_countOf hStarts start_ne_nil (hFound.trans infix_append_right)
    · have hSplit : content = (before ++ (blockStart ++ blockBody)) ++ blockEnd ++
          ('\n' :: after) := by
        rw [← hContent]
        simp [nodataBlock]
      rw [hSplit] at hEnds
      exact not_infix_of_countOf hEnds end_ne_nil (hFound.trans (infix_cons infix_rfl))
  · rintro ⟨before, after, rfl, hP, hQ⟩
    obtain ⟨hStarts, hEnds⟩ := countOf_block hP hQ
    have hBlock : nodataBlock <:+: before ++ (nodataBlock ++ after) :=
      ⟨before, after, by rw [append_assoc]⟩
    simp only [aaaaMode, hStarts, hEnds]
    rw [if_neg (by decide), if_pos ⟨trivial, trivial, hBlock⟩]

/-! ## Putting in and taking out -/

/-- What is left of the text before the block. -/
def cutBefore (before : List Char) : List Char :=
  if ['\n', '\n'] <:+ before then before.dropLast else before

/-- The text before the block of a file that had none. -/
def front (content : List Char) : List Char :=
  if rstripNewlines content = [] then [] else rstripNewlines content ++ ['\n', '\n']

theorem withAaaaNodata_zero_true (h : Unmarked content) :
    withAaaaNodata content true = .ok (front content ++ (nodataBlock ++ [])) := by
  rw [withAaaaNodata, aaaaMode_zero_iff.mpr h]
  show Except.ok (if rstripNewlines content ≠ [] then _ else _) = _
  rw [front]
  split_ifs <;> simp_all

theorem withAaaaNodata_zero_false (h : Unmarked content) :
    withAaaaNodata content false = .ok content := by
  rw [withAaaaNodata, aaaaMode_zero_iff.mpr h]
  rfl

theorem withAaaaNodata_nodata_true (h : Managed content) :
    withAaaaNodata content true = .ok content := by
  rw [withAaaaNodata, aaaaMode_nodata_iff.mpr h]
  rfl

/-- **The block is taken out** with one newline, where a blank line is before it. -/
theorem withAaaaNodata_nodata_false (hP : Unmarked before) (hQ : Unmarked after) :
    withAaaaNodata (before ++ (nodataBlock ++ after)) false = .ok (cutBefore before ++ after) := by
  have hCut : partition? nodataBlock (before ++ (nodataBlock ++ after)) = some (before, after) :=
    partition?_of_marker start_prefix_block (append_ne_nil_of_left_ne_nil start_ne_nil _)
      (apart_start_block after) hP.1
  rw [withAaaaNodata, aaaaMode_nodata_iff.mpr ⟨before, after, rfl, hP, hQ⟩]
  simp only [hCut, cutBefore]
  rfl

/-- **An exception is raised** where there are markers and the block is not the managed one. -/
theorem withAaaaNodata_error_iff (enabled : Bool) :
    (∃ error, withAaaaNodata content enabled = .error error) ↔
      ¬ Unmarked content ∧ ¬ Managed content := by
  constructor
  · rintro ⟨error, hError⟩
    refine ⟨fun h => ?_, fun h => ?_⟩
    · cases enabled with
      | true => rw [withAaaaNodata_zero_true h] at hError; cases hError
      | false => rw [withAaaaNodata_zero_false h] at hError; cases hError
    · cases enabled with
      | true => rw [withAaaaNodata_nodata_true h] at hError; cases hError
      | false =>
        obtain ⟨before, after, rfl, hP, hQ⟩ := h
        rw [withAaaaNodata_nodata_false hP hQ] at hError
        cases hError
  · rintro ⟨hMarked, hHand⟩
    refine ⟨"AAAA block was edited by hand", ?_⟩
    rw [← aaaaMode_zero_iff] at hMarked
    rw [← aaaaMode_nodata_iff] at hHand
    rw [withAaaaNodata]
    cases hMode : aaaaMode content with
    | zero => exact absurd hMode hMarked
    | nodata => exact absurd hMode hHand
    | custom => rfl

theorem prefix_rstripNewlines (text : List Char) : rstripNewlines text <+: text :=
  rdropWhile_prefix _ _

theorem Unmarked.of_prefix (h : Unmarked content) (hPrefix : before <+: content) :
    Unmarked before :=
  ⟨fun hFound => h.1 (hFound.trans hPrefix.isInfix),
    fun hFound => h.2 (hFound.trans hPrefix.isInfix)⟩

theorem unmarked_front (h : Unmarked content) : Unmarked (front content) := by
  rw [front]
  split_ifs
  · exact unmarked_nil
  · have hBase := h.of_prefix (prefix_rstripNewlines content)
    exact unmarked_append_newline hBase (unmarked_append_newline unmarked_nil unmarked_nil)

/-- Newlines at the end do not count. -/
theorem rstripNewlines_append {newlines : List Char} (h : ∀ c ∈ newlines, c = '\n')
    (text : List Char) : rstripNewlines (text ++ newlines) = rstripNewlines text := by
  induction newlines using List.reverseRecOn with
  | nil => rw [append_nil]
  | append_singleton newlines c ih =>
    rw [forall_mem_append, forall_mem_singleton] at h
    rw [← append_assoc, rstripNewlines, rdropWhile_concat_pos _ _ _ (by simp [h.2])]
    exact ih h.1

/-- Other text at the end does. -/
theorem rstripNewlines_append_of_not {more : List Char} (h : ¬ ∀ c ∈ more, c = '\n')
    (text : List Char) : rstripNewlines (text ++ more) = text ++ rstripNewlines more := by
  induction more using List.reverseRecOn with
  | nil => exact absurd (fun c hC => absurd hC not_mem_nil) h
  | append_singleton more c ih =>
    rw [← append_assoc, rstripNewlines, rstripNewlines]
    by_cases hC : c = '\n'
    · rw [rdropWhile_concat_pos _ _ _ (by simp [hC]),
        rdropWhile_concat_pos _ _ _ (by simp [hC])]
      refine ih fun hAll => h ?_
      rw [forall_mem_append, forall_mem_singleton]
      exact ⟨hAll, hC⟩
    · rw [rdropWhile_concat_neg _ _ _ (by simp [hC]),
        rdropWhile_concat_neg _ _ _ (by simp [hC]), append_assoc]

theorem rstripNewlines_rstripNewlines (text : List Char) :
    rstripNewlines (rstripNewlines text) = rstripNewlines text :=
  rdropWhile_idempotent _ _

theorem cutBefore_of_blank (before : List Char) :
    cutBefore (before ++ ['\n', '\n']) = before ++ ['\n'] := by
  have hSplit : before ++ ['\n', '\n'] = (before ++ ['\n']) ++ ['\n'] := by simp
  rw [cutBefore, if_pos (suffix_append _ _), hSplit, dropLast_concat]

theorem rstripNewlines_cutBefore (before : List Char) :
    rstripNewlines (cutBefore before) = rstripNewlines before := by
  by_cases h : ['\n', '\n'] <:+ before
  · obtain ⟨start, rfl⟩ := h
    rw [cutBefore_of_blank, rstripNewlines_append (by simp), rstripNewlines_append (by simp)]
  · rw [cutBefore, if_neg h]

/-- The block makes no difference to whether there are markers, unless a line is broken. -/
theorem unmarked_cutBefore (hP : Unmarked before) (hQ : Unmarked after) :
    Unmarked (cutBefore before ++ after) ↔ Unmarked (before ++ after) := by
  by_cases h : ['\n', '\n'] <:+ before
  · obtain ⟨start, rfl⟩ := h
    have hStart := hP.of_prefix (prefix_append start ['\n', '\n'])
    rw [cutBefore_of_blank]
    have hOne := unmarked_append_newline hStart hQ
    have hTwo := unmarked_append_newline hStart (unmarked_append_newline unmarked_nil hQ)
    exact iff_of_true (by simpa using hOne) (by simpa using hTwo)
  · rw [cutBefore, if_neg h]

/-! ## Exactly when -/

variable {t : Surroundings}

theorem gap_newlines : ∀ c ∈ gap content, c = '\n' := by
  rw [gap]
  split_ifs <;> simp

theorem unmarked_before_gap : Unmarked (t.before ++ gap content) := by
  rw [gap]
  split_ifs
  · rw [append_nil]
    exact t.unmarked_before
  · exact unmarked_append_newline t.unmarked_before unmarked_nil

theorem cutBefore_gap : cutBefore (t.before ++ gap content) = t.before ↔ GapTold content t := by
  rw [gap, GapTold]
  split_ifs with hBase
  · rw [append_nil]
    constructor
    · rintro hCut ⟨start, hStart⟩
      rw [← hStart, cutBefore_of_blank] at hCut
      exact absurd (congrArg List.length hCut) (by simp)
    · exact fun hNone => if_neg hNone
  · rcases t.closed with hNil | ⟨start, hStart⟩
    · rw [hNil]
      exact iff_of_false (by decide) fun hNe => hNe rfl
    · have hNe : t.before ≠ [] := by rw [← hStart]; simp
      refine iff_of_true ?_ hNe
      rw [← hStart, append_assoc]
      exact cutBefore_of_blank start

/-- What enabling has put in comes out. -/
theorem undone (h : Unmarked content) : ∃ new, withAaaaNodata content true = .ok new ∧
    aaaaMode new = .nodata ∧ ∃ old, withAaaaNodata new false = .ok old ∧ SameText old content := by
  have hFront := unmarked_front h
  refine ⟨_, withAaaaNodata_zero_true h,
    aaaaMode_nodata_iff.mpr ⟨_, _, rfl, hFront, unmarked_nil⟩, _,
    withAaaaNodata_nodata_false hFront unmarked_nil, ?_⟩
  rw [SameText, append_nil, rstripNewlines_cutBefore, front]
  split_ifs with hBase
  · rw [hBase]
    rfl
  · rw [rstripNewlines_append (by simp), rstripNewlines_rstripNewlines]

/-- **A file that was changed around the block.** -/
theorem sameText_edited_iff : SameText (cutBefore (t.before ++ gap content) ++ t.after)
    (t.before ++ t.after) ↔ (∀ c ∈ t.after, c = '\n') ∨ GapTold content t := by
  rw [SameText, ← cutBefore_gap]
  by_cases hAfter : ∀ c ∈ t.after, c = '\n'
  · refine iff_of_true ?_ (Or.inl hAfter)
    rw [rstripNewlines_append hAfter, rstripNewlines_append hAfter, rstripNewlines_cutBefore,
      rstripNewlines_append gap_newlines]
  · rw [rstripNewlines_append_of_not hAfter, rstripNewlines_append_of_not hAfter,
      append_left_inj, or_iff_right hAfter]

theorem idempotent_true {new : List Char} (h : withAaaaNodata content true = .ok new) :
    withAaaaNodata new true = .ok new := by
  by_cases hZero : Unmarked content
  · rw [withAaaaNodata_zero_true hZero] at h
    cases h
    exact withAaaaNodata_nodata_true ⟨_, _, rfl, unmarked_front hZero, unmarked_nil⟩
  by_cases hManaged : Managed content
  · rw [withAaaaNodata_nodata_true hManaged] at h
    cases h
    exact withAaaaNodata_nodata_true hManaged
  · obtain ⟨error, hError⟩ := (withAaaaNodata_error_iff true).mpr ⟨hZero, hManaged⟩
    rw [hError] at h
    cases h

/-- Taking out what is out changes nothing, unless there are markers again. -/
theorem withAaaaNodata_false_self : withAaaaNodata content false = .ok content ↔
    Unmarked content := by
  refine ⟨fun h => ?_, withAaaaNodata_zero_false⟩
  by_contra hZero
  by_cases hManaged : Managed content
  · obtain ⟨before, after, rfl, hP, hQ⟩ := hManaged
    rw [withAaaaNodata_nodata_false hP hQ] at h
    have hLength := congrArg List.length (Except.ok.inj h)
    have hCut : (cutBefore before).length ≤ before.length := by
      rw [cutBefore]
      split_ifs
      · rw [length_dropLast]
        exact Nat.sub_le _ _
      · exact Nat.le_refl _
    have hBlock : 0 < nodataBlock.length :=
      length_pos_of_ne_nil (append_ne_nil_of_left_ne_nil start_ne_nil _)
    simp only [length_append] at hLength
    omega
  · obtain ⟨error, hError⟩ := (withAaaaNodata_error_iff false).mpr ⟨hZero, hManaged⟩
    rw [hError] at h
    cases h

/-- **When the block comes and goes without a trace.** -/
theorem reversible_iff (content : List Char) (t : Surroundings) : Reversible content t ↔
    (Unmarked content → (∀ c ∈ t.after, c = '\n') ∨ GapTold content t) ∧
      JoinsUnmarked content := by
  have hEdited : withAaaaNodata (edited content t) false =
      .ok (cutBefore (t.before ++ gap content) ++ t.after) :=
    withAaaaNodata_nodata_false unmarked_before_gap t.unmarked_after
  constructor
  · refine fun h => ⟨fun hZero => ?_, fun before after hContent hP hQ => ?_⟩
    · obtain ⟨old, hOld, hSame⟩ := h.edited (aaaaMode_zero_iff.mpr hZero)
      rw [hEdited] at hOld
      cases hOld
      exact sameText_edited_iff.mp hSame
    · have hOut := withAaaaNodata_nodata_false hP hQ
      rw [← hContent] at hOut
      have hAgain := h.idempotent false _ hOut
      rwa [withAaaaNodata_false_self, unmarked_cutBefore hP hQ] at hAgain
  · rintro ⟨hTold, hJoins⟩
    refine ⟨fun hZero => undone (aaaaMode_zero_iff.mp hZero), fun hZero => ⟨_, hEdited, ?_⟩,
      fun enabled new hNew => ?_, withAaaaNodata_error_iff⟩
    · exact sameText_edited_iff.mpr (hTold (aaaaMode_zero_iff.mp hZero))
    · cases enabled with
      | true => exact idempotent_true hNew
      | false =>
        rw [withAaaaNodata_false_self]
        by_cases hZero : Unmarked content
        · rw [withAaaaNodata_zero_false hZero] at hNew
          exact Except.ok.inj hNew ▸ hZero
        by_cases hManaged : Managed content
        · obtain ⟨before, after, rfl, hP, hQ⟩ := hManaged
          rw [withAaaaNodata_nodata_false hP hQ] at hNew
          rw [← Except.ok.inj hNew, unmarked_cutBefore hP hQ]
          exact hJoins before after rfl hP hQ
        · obtain ⟨error, hError⟩ := (withAaaaNodata_error_iff false).mpr ⟨hZero, hManaged⟩
          rw [hError] at hNew
          cases hNew

theorem unmarked_singleton {c : Char} (h : c ≠ 'L') : Unmarked [c] := by
  have hNone : ∀ {marker : List Char}, 'L' ∈ marker → ¬ marker <:+: [c] := fun hMarker hFound =>
    h (mem_singleton.mp (hFound.subset hMarker)).symm
  exact ⟨hNone mem_start, hNone mem_end⟩

/-- The user has moved the text from before the block behind it. -/
def moved : Surroundings :=
  ⟨[], ['x'], unmarked_nil, unmarked_singleton (by decide), Or.inl rfl⟩

/-- **The blank line stays** at the front of the file. -/
theorem not_reversible_moved : ¬ Reversible ['x'] moved := by
  intro h
  rcases ((reversible_iff ['x'] moved).mp h).1 (unmarked_singleton (by decide)) with hAfter | hTold
  · exact absurd (hAfter 'x' (mem_singleton.mpr rfl)) (by decide)
  · rw [GapTold, if_neg (by decide)] at hTold
    exact hTold rfl

end AdminPanel.Setup.AaaaBlock
