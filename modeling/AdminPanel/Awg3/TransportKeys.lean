import AdminPanel.Awg3.ConfText
import AdminPanel.Lib.PyWords

/-!
# The transport keys of `awg1.conf`

`migrate_transport31` looks for the transport keys in every line of `awg1.conf` and puts those
that it does not find before the first `[Peer]` between two newlines. The `awg` tool cuts comments
off, passes over white space and capitals, and takes a key for the section that it stands in.

* `toolLine`, `isPeerHeader`, `toolEntry?` — what the tool makes of a line;
* `interfaceLines`, `peerLines` — the sections of a text, as the tool finds them;
* `linesOf_migrated` — the lines of a text with keys put in;
* `migratesSafely_iff` — exactly when each key stands once in `[Interface]`, and nothing else is
  changed.
-/

namespace AdminPanel.Awg3Clients.Transport

open List Lib.PyText

/-! ## As the tool reads -/

/-- The white space of C. -/
def isCSpace (c : Char) : Bool := c = ' ' || (9 ≤ c.toNat && c.toNat ≤ 13)

/-- A line without its comment and its white space. -/
def toolLine (line : List Char) : List Char :=
  (line.takeWhile (· ≠ '#')).filter fun c => !isCSpace c

/-- The line begins a `[Peer]` section. -/
def isPeerHeader (line : List Char) : Bool :=
  (toolLine line).map Char.toLower = "[peer]".toList

/-- The line does not begin a new section of a peer. -/
def goesOn (line : List Char) : Bool := !isPeerHeader line

/-- The key of a line, without capitals, and its value. -/
def toolEntry? (line : List Char) : Option (List Char × List Char) :=
  (partition? ['='] (toolLine line)).map fun (key, value) => (key.map Char.toLower, value)

def linesOf (text : List Char) : List (List Char) := text.splitOn '\n'

/-- What stands before the peers. -/
def interfaceLines (text : List Char) : List (List Char) :=
  (linesOf text).takeWhile goesOn

/-- The sections of the peers, with all that is in them. -/
def peerLines (text : List Char) : List (List Char) :=
  (linesOf text).dropWhile goesOn

def toolEntries (lines : List (List Char)) : List (List Char × List Char) :=
  lines.filterMap toolEntry?

def lowerKey (key : String) : List Char := key.toList.map Char.toLower

/-- The values of a key. -/
def valuesOf (key : String) (entries : List (List Char × List Char)) : List (List Char) :=
  entries.filterMap fun e => if e.1 = lowerKey key then some e.2 else none

/-- The entries with other keys. -/
def otherEntries (entries : List (List Char × List Char)) : List (List Char × List Char) :=
  entries.filter fun e => e.1 ∉ transport31Lines.map fun line => lowerKey line.1

/-! ## What the migration is to do -/

/-- The file after `migrate_transport31`. -/
def migrated (text : List Char) : List Char := (migrateTransport31 text).getD text

/-- The transport keys are added to `[Interface]`, and nothing else is changed. -/
structure MigratesSafely (text : List Char) : Prop where
  once : ∀ e ∈ transport31Lines, valuesOf e.1 (toolEntries (interfaceLines (migrated text))) =
    [(valuesOf e.1 (toolEntries (interfaceLines text))).head?.getD e.2.toList]
  others : otherEntries (toolEntries (interfaceLines (migrated text))) =
    otherEntries (toolEntries (interfaceLines text))
  peers : peerLines (migrated text) = peerLines text
  again : migrateTransport31 (migrated text) = none

/-- The first header of a peer is `[Peer]` between two newlines. -/
def PlainMarker (text : List Char) : Prop :=
  ∀ header after, peerLines text = header :: after →
    header = peerTitle ∧ after ≠ [] ∧ interfaceLines text ≠ []

/-- `[Interface]` has each key that the file has, and once; and where a key is to be added, the
place is found. -/
structure Migratable (text : List Char) : Prop where
  known : ∀ e ∈ transport31Lines, (valuesOf e.1 (toolEntries (interfaceLines text))).length =
    if e.1 ∈ (serverEntries text).map Prod.fst then 1 else 0
  marked : missingTransport (serverEntries text) ≠ [] → PlainMarker text

/-! ## Lines -/

variable {text rest : List Char} {entries : List (String × String)}

/-- What stands before the place where keys are put in. -/
def insertHead (text : List Char) : List Char :=
  match partition? peerMarker text with
  | some (head, _) => head
  | none => text

/-- What stands behind it. -/
def insertTail (text : List Char) : List Char :=
  match partition? peerMarker text with
  | some (_, rest) => peerMarker ++ rest
  | none => []

def entryLine (e : String × String) : List Char := entry e.1.toList e.2.toList

theorem insertHead_append (text : List Char) : insertHead text ++ insertTail text = text := by
  rw [insertHead, insertTail]
  cases hCut : partition? peerMarker text with
  | none => exact append_nil text
  | some pair =>
    obtain ⟨head, rest⟩ := pair
    have hText := eq_of_partition? hCut
    rw [append_assoc] at hText
    exact hText.symm

theorem migrated_eq (text : List Char) : migrated text =
    if missingTransport (serverEntries text) = [] then text
    else (insertHead text).rdropWhile (· = '\n') ++
      '\n' :: (writeEntries (missingTransport (serverEntries text)) ++ insertTail text) := by
  rw [migrated, migrateTransport31, insertHead, insertTail]
  split_ifs with hMissing
  · rfl
  · cases partition? peerMarker text with
    | none | some pair => simp

theorem linesOf_newline (s rest : List Char) :
    linesOf (s ++ '\n' :: rest) = linesOf s ++ linesOf rest := lines_newline s rest

theorem linesOf_newlines (s : List Char) (k : ℕ) :
    linesOf (s ++ List.replicate k '\n') = linesOf s ++ List.replicate k [] := by
  induction k generalizing s with
  | zero => simp
  | succ k ih =>
    have hOne : s ++ List.replicate (k + 1) '\n' = (s ++ ['\n']) ++ List.replicate k '\n' := by
      simp [replicate_succ]
    have hEmpty : linesOf [] = [[]] := rfl
    rw [hOne, ih, linesOf_newline, hEmpty]
    simp [replicate_succ]

/-- Lines that are lost with the newlines at the end are empty. -/
theorem linesOf_rdropWhile (s : List Char) : ∃ k,
    linesOf s = linesOf (s.rdropWhile (· = '\n')) ++ List.replicate k [] := by
  have hTail : ∀ c ∈ s.rtakeWhile (· = '\n'), c = '\n' := fun c hC => by
    simpa using mem_rtakeWhile_imp hC
  have hReplicate := eq_replicate_of_mem hTail
  refine ⟨(s.rtakeWhile (· = '\n')).length, ?_⟩
  rw [← linesOf_newlines, ← hReplicate, rdropWhile_append_rtakeWhile]

theorem linesOf_writeEntries (h : ∀ e ∈ entries, PlainEntry e.1 e.2) (rest : List Char) :
    linesOf (writeEntries entries ++ rest) = entries.map entryLine ++ linesOf rest := by
  induction entries with
  | nil => rfl
  | cons e entries ih =>
    rw [forall_mem_cons] at h
    have hWrite : writeEntries (e :: entries) ++ rest =
        entryLine e ++ '\n' :: (writeEntries entries ++ rest) := by
      simp [writeEntries, entryLine]
    have hNewline : '\n' ∉ entryLine e := fun hMem => absurd (h.1.not_break _ hMem) (by decide)
    have hLine : linesOf (entryLine e) = [entryLine e] := splitOn_eq_singleton hNewline
    rw [hWrite, linesOf_newline, ih h.2, hLine]
    rfl

/-- The lines behind the place where keys are put in. -/
def linesBehind (text : List Char) : List (List Char) := (linesOf (insertTail text)).tail

/-- The text from the insertion on, in lines: nothing, or a `[Peer]` and what follows. -/
theorem linesOf_insertTail (text : List Char) : linesOf (insertTail text) = [] :: linesBehind text ∧
    (linesBehind text = [] ∨ ∃ rest, linesBehind text = peerTitle :: linesOf rest) ∧
    linesOf text = linesOf (insertHead text) ++ linesBehind text := by
  have hTitle : linesOf peerTitle = [peerTitle] :=
    splitOn_eq_singleton newline_notMem_peerTitle
  have hMarker : ∀ rest, peerMarker ++ rest = '\n' :: (peerTitle ++ '\n' :: rest) := fun rest => by
    simp [peerMarker, titleLine]
  have hLines : ∀ s rest, linesOf (s ++ (peerMarker ++ rest)) =
      linesOf s ++ peerTitle :: linesOf rest := fun s rest => by
    rw [hMarker, linesOf_newline, linesOf_newline, hTitle]
    rfl
  have hText := insertHead_append text
  rw [linesBehind]
  rw [insertTail] at hText ⊢
  cases hCut : partition? peerMarker text with
  | none =>
    rw [hCut] at hText
    rw [show insertHead text = text by simpa using hText]
    exact ⟨rfl, .inl rfl, (append_nil _).symm⟩
  | some pair =>
    obtain ⟨head, rest⟩ := pair
    rw [hCut] at hText
    have hTail : linesOf (peerMarker ++ rest) = [] :: peerTitle :: linesOf rest := hLines [] rest
    refine ⟨by simp only [hTail, tail_cons], .inr ⟨rest, by simp only [hTail, tail_cons]⟩, ?_⟩
    conv_lhs => rw [← hText]
    simp only [hLines, hTail, tail_cons]

theorem missing_plain (text : List Char) :
    ∀ e ∈ missingTransport (serverEntries text), PlainEntry e.1 e.2 :=
  fun e hMem => plain_transport31Lines e (mem_of_mem_filter hMem)

/-- **The lines of a text with keys put in.** -/
theorem linesOf_migrated (h : missingTransport (serverEntries text) ≠ []) :
    linesOf (migrated text) = linesOf ((insertHead text).rdropWhile (· = '\n')) ++
      ((missingTransport (serverEntries text)).map entryLine ++ [] :: linesBehind text) := by
  rw [migrated_eq, if_neg h, linesOf_newline, linesOf_writeEntries (missing_plain text),
    (linesOf_insertTail text).1]

/-! ## Written lines -/

theorem goesOn_peerTitle : goesOn peerTitle = false := by decide

theorem goesOn_nil : goesOn [] = true := by decide

theorem toolEntry?_nil : toolEntry? [] = none := by decide

theorem written_lines : ∀ e ∈ transport31Lines, goesOn (entryLine e) = true ∧
    toolEntry? (entryLine e) = some (lowerKey e.1, e.2.toList) := by decide

theorem toolEntries_append (lines more : List (List Char)) :
    toolEntries (lines ++ more) = toolEntries lines ++ toolEntries more := filterMap_append

theorem toolEntries_empty (k : ℕ) : toolEntries (List.replicate k []) = [] := by
  rw [toolEntries, filterMap_eq_nil_iff]
  exact fun line hLine => eq_of_mem_replicate hLine ▸ toolEntry?_nil

theorem toolEntries_written (h : entries ⊆ transport31Lines) :
    toolEntries (entries.map entryLine) = entries.map fun e => (lowerKey e.1, e.2.toList) := by
  induction entries with
  | nil => rfl
  | cons e entries ih =>
    rw [cons_subset] at h
    rw [map_cons, toolEntries, filterMap_cons_some (written_lines e h.1).2]
    exact congrArg _ (ih h.2)

theorem toolEntries_rdropWhile (s : List Char) :
    toolEntries (linesOf (s.rdropWhile (· = '\n'))) = toolEntries (linesOf s) := by
  obtain ⟨k, hK⟩ := linesOf_rdropWhile s
  rw [hK, toolEntries_append, toolEntries_empty, append_nil]

/-! ## The place -/

/-- The keys are put in before every header. -/
def Inside (text : List Char) : Prop :=
  ∀ line ∈ linesOf (insertHead text), goesOn line = true

theorem takeWhile_of_inside {lines : List (List Char)}
    (h : ∀ line ∈ lines, goesOn line = true) (more : List (List Char)) :
    ((lines ++ more).takeWhile goesOn) = lines ++ more.takeWhile goesOn ∧
      ((lines ++ more).dropWhile goesOn) =
        more.dropWhile goesOn := by
  exact ⟨takeWhile_append_of_pos h, dropWhile_append_of_pos h⟩

/-- Behind the place a peer begins, or the text ends. -/
theorem linesBehind_header (text : List Char) :
    ((linesBehind text).takeWhile goesOn) = [] ∧
      ((linesBehind text).dropWhile goesOn) = linesBehind text := by
  rcases (linesOf_insertTail text).2.1 with hNil | ⟨more, hMore⟩
  · rw [hNil]
    exact ⟨rfl, rfl⟩
  · have hNot : ¬ goesOn peerTitle = true := by
      rw [goesOn_peerTitle]
      decide
    rw [hMore, takeWhile_cons_of_neg hNot, dropWhile_cons_of_neg hNot]
    exact ⟨rfl, rfl⟩

theorem Inside.lines (h : Inside text) :
    interfaceLines text = linesOf (insertHead text) ∧ peerLines text = linesBehind text := by
  have hBehind := linesBehind_header text
  obtain ⟨hTake, hDrop⟩ := takeWhile_of_inside h (linesBehind text)
  rw [interfaceLines, peerLines, (linesOf_insertTail text).2.2, hTake, hDrop, hBehind.1, hBehind.2,
    append_nil]
  exact ⟨rfl, rfl⟩

theorem linesOf_ne_nil (s : List Char) : linesOf s ≠ [] := splitOn_ne_nil _ _

/-- **The place is before every header exactly if the first one is a plain marker.** -/
theorem plainMarker_iff : PlainMarker text ↔ Inside text := by
  -- the lines of the interface, and those from the first peer on
  have hAll : interfaceLines text ++ peerLines text = linesOf text :=
    takeWhile_append_dropWhile
  have hInterface : ∀ line ∈ interfaceLines text, goesOn line = true := fun line hLine =>
    mem_takeWhile_imp hLine
  constructor
  · intro h
    cases hPeers : peerLines text with
    | nil =>
      rw [hPeers, append_nil] at hAll
      intro line hLine
      refine hInterface line ?_
      rw [hAll, (linesOf_insertTail text).2.2]
      exact mem_append_left _ hLine
    | cons header after =>
      obtain ⟨rfl, hAfter, hBefore⟩ := h header after hPeers
      rw [hPeers] at hAll
      obtain ⟨head, tail, hText, hHead, hTail⟩ :=
        splitOn_eq_append hAll.symm hBefore (cons_ne_nil _ _)
      have hTitled : linesOf tail = [peerTitle] ++ after := hTail
      obtain ⟨title, rest, hRest, hTitle, -⟩ :=
        splitOn_eq_append hTitled (cons_ne_nil _ _) hAfter
      have hSame : title = peerTitle := by
        have hWhole : ['\n'].intercalate (title.splitOn '\n') = title :=
          intercalate_splitOn '\n'
        rw [← hWhole, hTitle]
        rfl
      have hUntitled : Untitled peerTitle head := by
        rw [Untitled, hHead]
        intro hMem
        have hGoesOn := hInterface _ hMem
        rw [goesOn_peerTitle] at hGoesOn
        cases hGoesOn
      -- the marker cuts the text at the first peer
      have hJoined : text = joined peerMarker head [rest] := by
        rw [hText, hRest, hSame]
        simp [joined, peerMarker, titleLine]
      have hCut : insertHead text = head := by
        have hFound : partition? peerMarker text = some (head, joined peerMarker rest []) := by
          rw [hJoined]
          exact partition?_joined newline_notMem_peerTitle hUntitled
        rw [insertHead, hFound]
      rw [Inside, hCut]
      intro line hLine
      refine hInterface line ?_
      rw [← hHead]
      exact hLine
  · intro h header after hPeers
    rw [h.lines.2] at hPeers
    rw [h.lines.1]
    rcases (linesOf_insertTail text).2.1 with hNil | ⟨rest, hRest⟩
    · rw [hNil] at hPeers
      cases hPeers
    · rw [hRest] at hPeers
      obtain ⟨rfl, rfl⟩ := List.cons.inj hPeers
      exact ⟨rfl, linesOf_ne_nil rest, linesOf_ne_nil _⟩

/-! ## A text with keys put in -/

theorem serverEntries_written (h : ∀ e ∈ entries, PlainEntry e.1 e.2) (rest : List Char) :
    serverEntries (writeEntries entries ++ rest) = entries ++ serverEntries rest := by
  have hSelf := serverEntries_writeEntries h
  cases entries using List.reverseRecOn with
  | nil => rfl
  | append_singleton init e =>
    have hWrite : ∀ more, writeEntries (init ++ [e]) ++ more =
        (writeEntries init ++ entryLine e) ++ '\n' :: more := fun more => by
      simp [writeEntries, entryLine]
    have hAlone := hWrite []
    rw [append_nil] at hAlone
    have hNil : serverEntries [] = [] := rfl
    rw [hAlone, serverEntries_newline, hNil, append_nil] at hSelf
    rw [hWrite, serverEntries_newline, hSelf]

/-- What is found again in a text with keys put in. -/
theorem serverEntries_migrated (h : missingTransport (serverEntries text) ≠ []) :
    serverEntries (migrated text) = serverEntries (insertHead text) ++
      (missingTransport (serverEntries text) ++ serverEntries (insertTail text)) := by
  rw [migrated_eq, if_neg h, serverEntries_newline, (entries_rdropWhile _).1,
    serverEntries_written (missing_plain text)]

theorem serverEntries_split (text : List Char) : serverEntries text =
    serverEntries (insertHead text) ++ serverEntries (insertTail text) := by
  have hTail : insertTail text = [] ∨ ∃ rest, insertTail text = '\n' :: rest := by
    rw [insertTail]
    cases partition? peerMarker text with
    | none => exact .inl rfl
    | some pair => exact titleLine_append peerTitle pair.2
  conv_lhs => rw [← insertHead_append text]
  rcases hTail with hNil | ⟨rest, hRest⟩
  · have hEmpty : serverEntries [] = [] := rfl
    rw [hNil, hEmpty, append_nil, append_nil]
  · have hCut := serverEntries_newline [] rest
    rw [nil_append] at hCut
    rw [hRest, serverEntries_newline, hCut]
    rfl

/-- **A second run changes nothing.** -/
theorem migrateTransport31_again (text : List Char) : migrateTransport31 (migrated text) = none := by
  have hNone : missingTransport (serverEntries (migrated text)) = [] := by
    by_cases hMissing : missingTransport (serverEntries text) = []
    · rw [migrated_eq, if_pos hMissing]
      exact hMissing
    refine filter_eq_nil_iff.mpr fun line hMem hNot => ?_
    have hAbsent := of_decide_eq_true hNot
    have hAll := filter_eq_nil_iff.mp (missingTransport_migrated (serverEntries text)) line
      hMem
    refine hAll (decide_eq_true fun hIn => hAbsent ?_)
    rw [serverEntries_migrated hMissing]
    simp only [map_append, mem_append] at hIn ⊢
    rcases hIn with hFound | hAdded
    · rw [serverEntries_split, map_append, mem_append] at hFound
      exact hFound.imp_right .inr
    · exact .inr (.inl hAdded)
  unfold migrateTransport31
  rw [hNone]
  rfl

theorem keys_differ : ∀ e ∈ transport31Lines, ∀ d ∈ transport31Lines,
    lowerKey d.1 = lowerKey e.1 ↔ d = e := by
  decide

theorem nodup_transport31Lines : transport31Lines.Nodup := by decide

theorem valuesOf_append (key : String) (entries more : List (List Char × List Char)) :
    valuesOf key (entries ++ more) = valuesOf key entries ++ valuesOf key more :=
  filterMap_append

/-- Each key that is put in is put in once. -/
theorem valuesOf_added {e : String × String} (hMem : e ∈ transport31Lines)
    (h : entries.Sublist transport31Lines) :
    valuesOf e.1 (entries.map fun d => (lowerKey d.1, d.2.toList)) =
      if e ∈ entries then [e.2.toList] else [] := by
  have hNodup := h.nodup nodup_transport31Lines
  have hSubset := h.subset
  clear h
  induction entries with
  | nil => rfl
  | cons d entries ih =>
    rw [cons_subset] at hSubset
    rw [nodup_cons] at hNodup
    have hKey := keys_differ e hMem d hSubset.1
    have hRest := ih hNodup.2 hSubset.2
    rw [valuesOf] at hRest
    rw [map_cons, valuesOf, filterMap_cons, hRest]
    by_cases hSame : d = e
    · subst hSame
      simp [hNodup.1]
    · have hOther : e ≠ d := fun hEq => hSame hEq.symm
      simp [hKey, hSame, hOther]

/-- Keys that are put in are transport keys. -/
theorem otherEntries_added (h : entries ⊆ transport31Lines) :
    otherEntries (entries.map fun d => (lowerKey d.1, d.2.toList)) = [] := by
  refine filter_eq_nil_iff.mpr fun e hMem hNot => ?_
  obtain ⟨d, hD, rfl⟩ := mem_map.mp hMem
  exact of_decide_eq_true hNot (mem_map_of_mem (h hD))

theorem missing_sublist (found : List (String × String)) :
    (missingTransport found).Sublist transport31Lines := filter_sublist

theorem mem_missing {e : String × String} (hMem : e ∈ transport31Lines)
    (found : List (String × String)) :
    e ∈ missingTransport found ↔ e.1 ∉ found.map Prod.fst := by
  rw [missingTransport, mem_filter, decide_eq_true_iff]
  exact and_iff_right hMem

/-- **Put in before every header**, the keys are at the end of `[Interface]`. -/
theorem Inside.added (h : Inside text) (hMissing : missingTransport (serverEntries text) ≠ []) :
    toolEntries (interfaceLines (migrated text)) = toolEntries (interfaceLines text) ++
        (missingTransport (serverEntries text)).map (fun e => (lowerKey e.1, e.2.toList)) ∧
      peerLines (migrated text) = peerLines text := by
  obtain ⟨k, hHead⟩ := linesOf_rdropWhile (insertHead text)
  have hSubset := (missing_sublist (serverEntries text)).subset
  have hInside : ∀ line ∈ linesOf ((insertHead text).rdropWhile (· = '\n')) ++
      ((missingTransport (serverEntries text)).map entryLine ++ [[]]), goesOn line = true := by
    intro line hLine
    simp only [mem_append, mem_map, mem_singleton] at hLine
    rcases hLine with hOld | ⟨e, hE, rfl⟩ | rfl
    · refine h line ?_
      rw [hHead]
      exact mem_append_left _ hOld
    · exact (written_lines e (hSubset hE)).1
    · exact goesOn_nil
  have hLines : linesOf (migrated text) = (linesOf ((insertHead text).rdropWhile (· = '\n')) ++
      ((missingTransport (serverEntries text)).map entryLine ++ [[]])) ++ linesBehind text := by
    rw [linesOf_migrated hMissing]
    simp
  obtain ⟨hTake, hDrop⟩ := takeWhile_of_inside hInside (linesBehind text)
  obtain ⟨hTakeBehind, hDropBehind⟩ := linesBehind_header text
  have hEmpty : toolEntries [[]] = [] := toolEntries_empty 1
  rw [interfaceLines, peerLines, hLines, hTake, hDrop, hTakeBehind, hDropBehind, h.lines.1,
    h.lines.2, append_nil, toolEntries_append, toolEntries_append, toolEntries_rdropWhile,
    toolEntries_written hSubset, hEmpty, append_nil]
  exact ⟨rfl, rfl⟩

/-- **Put in behind a header**, the keys are given to a peer. -/
theorem inside_of_peers (hMissing : missingTransport (serverEntries text) ≠ [])
    (h : peerLines (migrated text) = peerLines text) : Inside text := by
  by_contra hNot
  obtain ⟨header, hHeader, hBegins⟩ : ∃ line ∈ linesOf (insertHead text), goesOn line ≠ true := by
    simpa only [Inside, not_forall, exists_prop] using hNot
  obtain ⟨k, hHead⟩ := linesOf_rdropWhile (insertHead text)
  have hKept : header ∈ linesOf ((insertHead text).rdropWhile (· = '\n')) := by
    rw [hHead, mem_append] at hHeader
    refine hHeader.resolve_right fun hEmpty => hBegins ?_
    rw [eq_of_mem_replicate hEmpty]
    exact goesOn_nil
  have hDrop : ∀ more, (linesOf ((insertHead text).rdropWhile (· = '\n')) ++ more).dropWhile
      goesOn = (linesOf ((insertHead text).rdropWhile (· = '\n'))).dropWhile goesOn ++ more := by
    intro more
    rw [dropWhile_append, if_neg]
    rw [List.isEmpty_iff, dropWhile_eq_nil_iff]
    exact fun hAll => hBegins (hAll header hKept)
  have hNew : toolEntries (peerLines (migrated text)) = toolEntries
      ((linesOf ((insertHead text).rdropWhile (· = '\n'))).dropWhile goesOn) ++
        ((missingTransport (serverEntries text)).map (fun e => (lowerKey e.1, e.2.toList)) ++
          toolEntries (linesBehind text)) := by
    have hEmpty : toolEntries ([] :: linesBehind text) = toolEntries (linesBehind text) :=
      filterMap_cons_none toolEntry?_nil
    rw [peerLines, linesOf_migrated hMissing, hDrop, toolEntries_append, toolEntries_append,
      toolEntries_written (missing_sublist _).subset, hEmpty]
  have hOld : toolEntries (peerLines text) = toolEntries
      ((linesOf ((insertHead text).rdropWhile (· = '\n'))).dropWhile goesOn) ++
        toolEntries (linesBehind text) := by
    rw [peerLines, (linesOf_insertTail text).2.2, hHead, append_assoc, hDrop,
      toolEntries_append, toolEntries_append, toolEntries_empty, nil_append]
  have hLength := congrArg List.length (hNew.symm.trans ((congrArg toolEntries h).trans hOld))
  simp only [length_append, length_map] at hLength
  have hSome := length_pos_iff.mpr hMissing
  omega

/-! ## Exactly when -/

/-- One value is added to those that there are, or none. -/
theorem once_iff (old : List (List Char)) (value : List Char) (p : Prop) [Decidable p] :
    old ++ (if p then [value] else []) = [old.head?.getD value] ↔
      old.length = if p then 0 else 1 := by
  split_ifs
  · cases old with
    | nil | cons v old => simp
  · cases old with
    | nil | cons v old => simp

/-- Where there is nothing to add, or the place is found, `[Interface]` is longer by the keys. -/
theorem added (h : missingTransport (serverEntries text) ≠ [] → PlainMarker text) :
    toolEntries (interfaceLines (migrated text)) = toolEntries (interfaceLines text) ++
        (missingTransport (serverEntries text)).map (fun e => (lowerKey e.1, e.2.toList)) ∧
      peerLines (migrated text) = peerLines text := by
  by_cases hMissing : missingTransport (serverEntries text) = []
  · have hSame : migrated text = text := by rw [migrated_eq, if_pos hMissing]
    rw [hSame, hMissing]
    exact ⟨(append_nil _).symm, rfl⟩
  · exact (plainMarker_iff.mp (h hMissing)).added hMissing

theorem once_of_added (h : missingTransport (serverEntries text) ≠ [] → PlainMarker text)
    {e : String × String} (hMem : e ∈ transport31Lines) :
    valuesOf e.1 (toolEntries (interfaceLines (migrated text))) =
        [(valuesOf e.1 (toolEntries (interfaceLines text))).head?.getD e.2.toList] ↔
      (valuesOf e.1 (toolEntries (interfaceLines text))).length =
        if e.1 ∈ (serverEntries text).map Prod.fst then 1 else 0 := by
  have hIn := mem_missing hMem (serverEntries text)
  rw [(added h).1, valuesOf_append, valuesOf_added hMem (missing_sublist _), once_iff]
  by_cases hThere : e.1 ∈ (serverEntries text).map Prod.fst
  · rw [if_pos hThere, if_neg fun h => hIn.mp h hThere]
  · rw [if_neg hThere, if_pos (hIn.mpr hThere)]

/-- **The transport keys are added to `[Interface]` and nothing else is changed, exactly if**
`[Interface]` has each key that the file has, and once, and the first header of a peer is
`[Peer]` between two newlines where a key is added. -/
theorem migratesSafely_iff (text : List Char) : MigratesSafely text ↔ Migratable text := by
  constructor
  · intro h
    have hMarked : missingTransport (serverEntries text) ≠ [] → PlainMarker text :=
      fun hMissing => plainMarker_iff.mpr (inside_of_peers hMissing h.peers)
    exact ⟨fun e hMem => (once_of_added hMarked hMem).mp (h.once e hMem), hMarked⟩
  · intro h
    obtain ⟨hInterface, hPeers⟩ := added h.marked
    have hAdded := otherEntries_added (missing_sublist (serverEntries text)).subset
    refine ⟨fun e hMem => (once_of_added h.marked hMem).mpr (h.known e hMem), ?_, hPeers,
      migrateTransport31_again text⟩
    rw [otherEntries] at hAdded
    rw [hInterface, otherEntries, filter_append, hAdded, append_nil]
    rfl

/-- Behind `[Peer] # phone` the keys are given to the peer. -/
theorem not_always_migratesSafely : ¬ ∀ text, MigratesSafely text := by
  intro h
  have hPeers := (h "[Interface]\nJc = 4\n[Peer] # phone\nPublicKey = k\n".toList).peers
  have hAdded : (peerLines (migrated
      "[Interface]\nJc = 4\n[Peer] # phone\nPublicKey = k\n".toList)).length ≠ (peerLines
        "[Interface]\nJc = 4\n[Peer] # phone\nPublicKey = k\n".toList).length := by
    decide
  exact hAdded (congrArg List.length hPeers)

end AdminPanel.Awg3Clients.Transport
