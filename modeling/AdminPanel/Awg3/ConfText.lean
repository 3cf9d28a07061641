import AdminPanel.Awg3.Suspension
import AdminPanel.Lib.Sections

/-!
# `awg1.conf` as a text

The panel reads `awg1.conf` by its lines, cuts it at `[Peer]`, drops the pieces with a key in
them, appends new ones and adds transport keys before the first.

* `serverEntries` — `_server_values`, with every entry;
* `PeerBlock.text`, `dropPeerBlock`, `migrateTransport31` — what is done to the text;
* `interfaceEntries`, `peerEntries` — what the text says;
* `Renders` — the text is a part without peers, followed by blocks;
* `Renders.append`, `Renders.drop`, `Renders.migrate` — that stays so.
-/

namespace AdminPanel.Awg3Clients

open List Lib.PyText

/-! ## Reading -/

/-- The `[Peer]` line. -/
def peerTitle : List Char := "[Peer]".toList

/-- `"\n[Peer]\n"` -/
def peerMarker : List Char := titleLine peerTitle

/-- A line with `=` in it that is no comment. -/
def entryOf (line : List Char) : Option (String × String) :=
  if '=' ∈ line ∧ (line.dropWhile isSpace).head? ≠ some '#' then
    (partition? ['='] line).map fun (key, value) =>
      (String.ofList (strip key), String.ofList (strip value))
  else none

/-- `_server_values`; of the entries with one key the last counts. -/
def serverEntries (text : List Char) : List (String × String) :=
  (splitLines text).filterMap entryOf

/-- The entries of `[Interface]`, which is what stands before the peers. -/
def interfaceEntries (text : List Char) : List (String × String) :=
  serverEntries ((split peerMarker text).headD [])

/-- The entries of every `[Peer]`. -/
def peerEntries (text : List Char) : List (List (String × String)) :=
  (split peerMarker text).tail.map serverEntries

/-! ## Writing -/

def writeEntries (entries : List (String × String)) : List Char :=
  entries.flatMap fun (key, value) => entry key.toList value.toList ++ ['\n']

def PeerBlock.entries (block : PeerBlock) : List (String × String) :=
  [("PublicKey", block.publicKey), ("PresharedKey", block.psk), ("AllowedIPs", block.ip ++ "/32")]

/-- What `_peer_block` writes after `[Peer]`. -/
def PeerBlock.body (block : PeerBlock) : List Char :=
  '#' :: ' ' :: block.name.toList ++ '\n' :: writeEntries block.entries

/-- `_peer_block` -/
def PeerBlock.text (block : PeerBlock) : List Char := peerMarker ++ block.body

/-- `f"PublicKey = {public}"` -/
def publicKeyEntry (publicKey : String) : List Char := entry "PublicKey".toList publicKey.toList

def dropPeerBlock (text : List Char) (publicKey : String) : List Char :=
  let blocks := split peerMarker text
  joined peerMarker (blocks.headD [])
    (blocks.tail.filter fun block => ¬ publicKeyEntry publicKey <:+: block)

def transport31Lines : List (String × String) :=
  [("ContentPaddingAddition", "2"), ("RandomTrailers", "on"), ("DisableCookies", "on")]

/-- The transport keys that no entry has. -/
def missingTransport (entries : List (String × String)) : List (String × String) :=
  transport31Lines.filter fun line => line.1 ∉ entries.map Prod.fst

/-- `migrate_transport31`: the new text, if there is one. -/
def migrateTransport31 (text : List Char) : Option (List Char) :=
  let missing := missingTransport (serverEntries text)
  if missing = [] then none
  else
    some <| match partition? peerMarker text with
      | some (head, rest) =>
        head.rdropWhile (· = '\n') ++ '\n' :: writeEntries missing ++ peerMarker ++ rest
      | none => text.rdropWhile (· = '\n') ++ '\n' :: writeEntries missing

example : migrateTransport31 "[Interface]\nJc = 4\n\n[Peer]\nPublicKey = k\n".toList =
    some ("[Interface]\nJc = 4\nContentPaddingAddition = 2\nRandomTrailers = on\n" ++
      "DisableCookies = on\n\n[Peer]\nPublicKey = k\n").toList := by
  decide

/-! ## Entries -/

/-- Text without white space. -/
def Solid (s : List Char) : Prop := ∀ c ∈ s, isSpace c = false

variable {s rest : List Char} {key value : String} {entries : List (String × String)}

theorem Solid.newline (h : Solid s) : '\n' ∉ s := fun hMem => absurd (h _ hMem) (by decide)

theorem Solid.blank (h : Solid s) : ' ' ∉ s := fun hMem => absurd (h _ hMem) (by decide)

variable {c : Char}

theorem Solid.not_break (h : Solid s) (hMem : c ∈ s) : isLineBreak c = false := by
  rw [← Bool.not_eq_true]
  intro hBreak
  exact absurd (isSpace_of_isLineBreak hBreak) (by rw [h c hMem]; decide)

theorem serverEntries_newline (s rest : List Char) :
    serverEntries (s ++ '\n' :: rest) = serverEntries s ++ serverEntries rest :=
  filterMap_splitLines (by decide) s rest

/-- A key without white space that is neither empty nor looks like a comment. -/
def PlainKey (key : String) : Prop :=
  (∀ c ∈ key.toList, isSpace c = false) ∧ '=' ∉ key.toList ∧ key.toList.head? ≠ some '#' ∧
    key.toList ≠ []

instance (key : String) : Decidable (PlainKey key) :=
  inferInstanceAs (Decidable ((∀ c ∈ key.toList, isSpace c = false) ∧ _))

structure PlainEntry (key value : String) : Prop where
  plainKey : PlainKey key
  solidValue : Solid value.toList

theorem PlainEntry.solidKey (h : PlainEntry key value) : Solid key.toList := h.plainKey.1

/-- An entry is read back as it was written. -/
theorem entryOf_entry (h : PlainEntry key value) :
    entryOf (entry key.toList value.toList) = some (key, value) := by
  obtain ⟨hSolid, hNoEqual, hNoComment, hNe⟩ := h.plainKey
  obtain ⟨c, front, hKey⟩ := exists_cons_of_ne_nil hNe
  rw [hKey] at hSolid
  have hFront : ¬ isSpace c = true := by
    rw [hSolid c mem_cons_self]
    decide
  have hHead : ((entry key.toList value.toList).dropWhile isSpace).head? ≠ some '#' := by
    rw [hKey] at hNoComment
    rw [entry, hKey, cons_append, dropWhile_cons_of_neg hFront]
    exact hNoComment
  have hEqual : entry key.toList value.toList =
      (key.toList ++ [' ']) ++ '=' :: ' ' :: value.toList := by simp [entry]
  have hNot : '=' ∉ key.toList ++ [' '] := by simpa using hNoEqual
  rw [entryOf, if_pos ⟨by rw [hEqual]; exact mem_append_right _ mem_cons_self, hHead⟩,
    hEqual, partition?_append_cons hNot, Option.map_some]
  show some (String.ofList (strip (key.toList ++ [' '])),
    String.ofList (strip (' ' :: value.toList))) = _
  rw [strip_concat _ (by decide), strip_cons_space (by decide), strip_of_not_space h.solidKey,
    strip_of_not_space h.solidValue, String.ofList_toList, String.ofList_toList]

theorem PlainEntry.not_break (h : PlainEntry key value) :
    ∀ c ∈ entry key.toList value.toList, isLineBreak c = false := by
  intro c hMem
  simp only [entry, mem_append, mem_cons] at hMem
  rcases hMem with hKey | rfl | rfl | rfl | hValue
  · exact h.solidKey.not_break hKey
  · decide
  · decide
  · decide
  · exact h.solidValue.not_break hValue

/-- **Written entries are read again.** -/
theorem serverEntries_writeEntries (h : ∀ e ∈ entries, PlainEntry e.1 e.2) :
    serverEntries (writeEntries entries) = entries := by
  induction entries with
  | nil => rfl
  | cons e entries ih =>
    rw [forall_mem_cons] at h
    have hWrite : writeEntries (e :: entries) =
        entry e.1.toList e.2.toList ++ '\n' :: writeEntries entries := by
      simp [writeEntries]
    have hLine : serverEntries (entry e.1.toList e.2.toList) = [e] := by
      rw [serverEntries, splitLines_line (by simp [entry]) h.1.not_break, filterMap_cons_some
        (entryOf_entry h.1)]
      rfl
    rw [hWrite, serverEntries_newline, hLine, ih h.2]
    rfl

theorem untitled_entry (h : PlainEntry key value) :
    Untitled peerTitle (entry key.toList value.toList) := by
  refine (untitled_line ?_).mpr ?_
  · exact fun hMem => absurd (h.not_break _ hMem) (by decide)
  · intro hSame
    have hBlank : ' ' ∈ peerTitle := hSame ▸ mem_append_right _ mem_cons_self
    exact absurd hBlank (by decide)

theorem untitled_writeEntries (h : ∀ e ∈ entries, PlainEntry e.1 e.2) :
    Untitled peerTitle (writeEntries entries) := by
  induction entries with
  | nil => exact (untitled_line (by decide)).mpr (by decide)
  | cons e entries ih =>
    rw [forall_mem_cons] at h
    have hWrite : writeEntries (e :: entries) =
        entry e.1.toList e.2.toList ++ '\n' :: writeEntries entries := by
      simp [writeEntries]
    rw [hWrite, untitled_newline]
    exact ⟨untitled_entry h.1, ih h.2⟩

theorem return_notMem_writeEntries (h : ∀ e ∈ entries, PlainEntry e.1 e.2) :
    '\r' ∉ writeEntries entries := by
  intro hMem
  obtain ⟨e, hEntry, hMem⟩ := mem_flatMap.mp hMem
  rcases mem_append.mp hMem with hLine | hEnd
  · exact absurd ((h e hEntry).not_break _ hLine) (by decide)
  · exact absurd hEnd (by decide)

/-! ## Blocks -/

/-- The fields of a block have no white space inside; a name may end in a newline. -/
structure PeerBlock.Plain (block : PeerBlock) : Prop where
  name : ∃ front, Solid front ∧
    (block.name.toList = front ∨ block.name.toList = front ++ ['\n'])
  publicKey : Solid block.publicKey.toList
  psk : Solid block.psk.toList
  ip : Solid block.ip.toList

variable {block : PeerBlock}

theorem PeerBlock.Plain.plainEntries (h : block.Plain) :
    ∀ e ∈ block.entries, PlainEntry e.1 e.2 := by
  have hKeys : ∀ key ∈ ["PublicKey", "PresharedKey", "AllowedIPs"], PlainKey key := by decide
  have hEnd : ∀ c ∈ "/32".toList, isSpace c = false := by decide
  have hIp : Solid (block.ip ++ "/32").toList := by
    rw [String.toList_append]
    intro c hMem
    exact (mem_append.mp hMem).elim (h.ip c) (hEnd c)
  simp only [forall_mem_cons] at hKeys
  rw [PeerBlock.entries, forall_mem_cons, forall_mem_cons, forall_mem_singleton]
  exact ⟨⟨hKeys.1, h.publicKey⟩, ⟨hKeys.2.1, h.psk⟩, ⟨hKeys.2.2.1, hIp⟩⟩

/-- The comment with the name, line by line. -/
theorem comment_cases (h : block.Plain) : ∃ line, '\n' ∉ line ∧ line.head? = some '#' ∧
    (∀ c ∈ line, isLineBreak c = false) ∧
    ('#' :: ' ' :: block.name.toList = line ∨ '#' :: ' ' :: block.name.toList = line ++ ['\n']) := by
  obtain ⟨front, hFront, hName⟩ := h.name
  refine ⟨'#' :: ' ' :: front, ?_, rfl, ?_, ?_⟩
  · simpa using hFront.newline
  · exact forall_mem_cons.mpr ⟨by decide, forall_mem_cons.mpr
      ⟨by decide, fun c hMem => hFront.not_break hMem⟩⟩
  · rcases hName with hName | hName
    · exact .inl (by rw [hName])
    · exact .inr (by rw [hName]; rfl)

theorem serverEntries_body (h : block.Plain) : serverEntries block.body = block.entries := by
  obtain ⟨line, hNewline, hHead, hBreak, hComment⟩ := comment_cases h
  have hLine : serverEntries line = [] := by
    cases line with
    | nil => rfl
    | cons c line =>
      obtain rfl : c = '#' := Option.some.inj hHead
      have hNone : entryOf ('#' :: line) = none := by
        refine if_neg fun hEntry => hEntry.2 ?_
        rw [dropWhile_cons_of_neg (by decide)]
        rfl
      rw [serverEntries, splitLines_line (cons_ne_nil _ _) hBreak,
        filterMap_cons_none hNone]
      rfl
  rw [PeerBlock.body, serverEntries_newline, serverEntries_writeEntries h.plainEntries]
  rcases hComment with hComment | hComment
  · rw [hComment, hLine]
    rfl
  · rw [hComment, serverEntries_newline, hLine]
    rfl

theorem untitled_body (h : block.Plain) : Untitled peerTitle block.body := by
  obtain ⟨line, hNewline, hHead, -, hComment⟩ := comment_cases h
  have hLine : Untitled peerTitle line := by
    refine (untitled_line hNewline).mpr ?_
    rintro rfl
    exact absurd hHead (by decide)
  rw [PeerBlock.body, untitled_newline]
  refine ⟨?_, untitled_writeEntries h.plainEntries⟩
  rcases hComment with hComment | hComment
  · rwa [hComment]
  · rw [hComment, untitled_newline]
    exact ⟨hLine, (untitled_line (by decide)).mpr (by decide)⟩

theorem return_notMem_body (h : block.Plain) : '\r' ∉ block.body := by
  obtain ⟨line, -, -, hBreak, hComment⟩ := comment_cases h
  have hLine : '\r' ∉ line := fun hMem => absurd (hBreak _ hMem) (by decide)
  rw [PeerBlock.body, mem_append, not_or]
  constructor
  · rcases hComment with hComment | hComment
    · rwa [hComment]
    · rw [hComment, mem_append, not_or]
      exact ⟨hLine, by decide⟩
  · rw [mem_cons, not_or]
    exact ⟨by decide, return_notMem_writeEntries h.plainEntries⟩

theorem getLast?_body (block : PeerBlock) : block.body.getLast? = some '\n' := by
  have hBody : block.body = '#' :: ' ' :: block.name.toList ++ '\n' ::
      (writeEntries [("PublicKey", block.publicKey), ("PresharedKey", block.psk)] ++
        entry "AllowedIPs".toList (block.ip ++ "/32").toList) ++ ['\n'] := by
    simp [PeerBlock.body, PeerBlock.entries, writeEntries]
  rw [hBody, List.getLast?_concat]

theorem infix_writeEntries {needle : List Char} (h : '\n' ∉ needle) (hNe : needle ≠ []) :
    needle <:+: writeEntries entries ↔
      ∃ e ∈ entries, needle <:+: entry e.1.toList e.2.toList := by
  induction entries with
  | nil => simpa [writeEntries] using hNe
  | cons e entries ih =>
    have hWrite : writeEntries (e :: entries) =
        entry e.1.toList e.2.toList ++ '\n' :: writeEntries entries := by
      simp [writeEntries]
    rw [hWrite, infix_cons_newline h hNe, ih, exists_mem_cons_iff]

/-- **A key is found in its own block only.** -/
theorem publicKeyEntry_infix_body (h : block.Plain) {publicKey : String}
    (hKey : Solid publicKey.toList) (hLength : publicKey.length = block.publicKey.length) :
    publicKeyEntry publicKey <:+: block.body ↔ block.publicKey = publicKey := by
  have hNeedle : '\n' ∉ publicKeyEntry publicKey := by
    simpa [publicKeyEntry, entry] using hKey.newline
  have hNe : publicKeyEntry publicKey ≠ [] := by simp [publicKeyEntry, entry]
  rw [PeerBlock.body, infix_cons_newline hNeedle hNe, infix_writeEntries hNeedle hNe]
  -- the comment has one blank, and the needle two
  have hComment : ¬ publicKeyEntry publicKey <:+: '#' :: ' ' :: block.name.toList := by
    intro hInfix
    obtain ⟨front, hFront, hName⟩ := h.name
    have hCount : block.name.toList.count ' ' = 0 := by
      rcases hName with hName | hName
      · rw [hName, count_eq_zero]
        exact hFront.blank
      · rw [hName, count_append, count_eq_zero.mpr hFront.blank]
        rfl
    have hLe := hInfix.sublist.count_le ' '
    have hTwo : 2 ≤ (publicKeyEntry publicKey).count ' ' := by
      simp only [publicKeyEntry, entry, count_append, count_cons]
      simp
    simp only [count_cons, hCount] at hLe
    simp at hLe
    omega
  constructor
  · rintro (hInfix | ⟨e, hMem, hInfix⟩)
    · exact absurd hInfix hComment
    have hPlain := h.plainEntries e hMem
    obtain ⟨hSuffix, hPrefix⟩ := infix_entry (by decide) hPlain.solidKey.blank
      hPlain.solidValue.blank hInfix
    rw [PeerBlock.entries, mem_cons, mem_pair] at hMem
    rcases hMem with rfl | rfl | rfl
    · have hSame := hPrefix.eq_of_length (by rwa [String.length_toList, String.length_toList])
      exact (String.toList_injective hSame).symm
    · exact absurd hSuffix (show ¬ "PublicKey".toList <:+ "PresharedKey".toList by decide)
    · exact absurd hSuffix (show ¬ "PublicKey".toList <:+ "AllowedIPs".toList by decide)
  · rintro rfl
    exact .inr ⟨_, mem_cons_self, infix_refl _⟩

/-! ## The text and its blocks -/

/-- The text is a part without `[Peer]` lines, followed by the blocks. -/
structure Renders (text head : List Char) (blocks : List PeerBlock) : Prop where
  text : text = joined peerMarker head (blocks.map PeerBlock.body)
  untitled : Untitled peerTitle head
  noReturn : '\r' ∉ head
  plain : ∀ block ∈ blocks, block.Plain

variable {text head : List Char} {blocks : List PeerBlock}

theorem newline_notMem_peerTitle : '\n' ∉ peerTitle := by decide

theorem Renders.split (h : Renders text head blocks) :
    split peerMarker text = head :: blocks.map PeerBlock.body := by
  rw [h.text]
  refine split_joined newline_notMem_peerTitle h.untitled ?_
  rw [forall_mem_map]
  exact fun block hMem => untitled_body (h.plain block hMem)

theorem Renders.interfaceEntries (h : Renders text head blocks) :
    interfaceEntries text = serverEntries head := by
  rw [Awg3Clients.interfaceEntries, h.split]
  rfl

theorem Renders.peerEntries (h : Renders text head blocks) :
    peerEntries text = blocks.map PeerBlock.entries := by
  rw [Awg3Clients.peerEntries, h.split, tail_cons, map_map]
  exact map_congr_left fun block hMem => serverEntries_body (h.plain block hMem)

/-- **A new block.** -/
theorem Renders.append (h : Renders text head blocks) (hPlain : block.Plain) :
    Renders (text ++ block.text) head (blocks ++ [block]) where
  text := by
    rw [h.text]
    simp [joined, PeerBlock.text]
  untitled := h.untitled
  noReturn := h.noReturn
  plain := by
    intro other hMem
    rcases mem_append.mp hMem with hOld | hNew
    · exact h.plain other hOld
    · exact mem_singleton.mp hNew ▸ hPlain

/-- **A block dropped.** -/
theorem Renders.drop (h : Renders text head blocks) {publicKey : String}
    (hKey : Solid publicKey.toList)
    (hLength : ∀ block ∈ blocks, publicKey.length = block.publicKey.length) :
    Renders (dropPeerBlock text publicKey) head (blocks.filter (·.publicKey ≠ publicKey)) where
  text := by
    rw [dropPeerBlock, h.split]
    simp only [headD_cons, tail_cons, filter_map]
    congr 2
    refine filter_congr fun block hMem => ?_
    have hBody := publicKeyEntry_infix_body (h.plain block hMem) hKey (hLength block hMem)
    rw [Function.comp_apply, decide_eq_decide, not_congr hBody]
  untitled := h.untitled
  noReturn := h.noReturn
  plain := fun block hMem => h.plain block (mem_of_mem_filter hMem)

theorem Renders.return_notMem (h : Renders text head blocks) : '\r' ∉ text := by
  rw [h.text, joined, mem_append, not_or]
  refine ⟨h.noReturn, fun hMem => ?_⟩
  obtain ⟨body, hBody, hMem⟩ := mem_flatMap.mp hMem
  obtain ⟨block, hBlock, rfl⟩ := mem_map.mp hBody
  rcases mem_append.mp hMem with hMarker | hBody
  · exact absurd hMarker (by decide)
  · exact return_notMem_body (h.plain block hBlock) hBody

theorem Renders.getLast? (h : Renders text head blocks) (hNe : blocks ≠ []) :
    text.getLast? = some '\n' := by
  obtain ⟨front, block, rfl⟩ := (eq_nil_or_concat blocks).resolve_left hNe
  rw [h.text]
  simp [joined, List.getLast?_append, getLast?_body]

theorem getLast?_text (block : PeerBlock) : block.text.getLast? = some '\n' := by
  rw [PeerBlock.text, List.getLast?_append, getLast?_body]
  rfl

/-- **A block appended to the file.** A `\r` at its end makes one line end with the newline before
the block. -/
theorem Renders.appendFile {file : List Char} (h : Renders (readText file) head blocks)
    (hLast : blocks = [] ∨ file.getLast? = some '\n') (hPlain : block.Plain) :
    ∃ head', Renders (readText (file ++ block.text)) head' (blocks ++ [block]) ∧
      Awg3Clients.serverEntries head' = Awg3Clients.serverEntries head := by
  have hText : block.text = '\n' :: (peerTitle ++ '\n' :: block.body) := by
    simp [PeerBlock.text, peerMarker, titleLine]
  have hRead : readText block.text = block.text := by
    refine readText_of_no_return ?_
    rw [PeerBlock.text, mem_append, not_or]
    exact ⟨by decide, return_notMem_body hPlain⟩
  by_cases hReturn : file.getLast? = some '\r'
  · obtain rfl : blocks = [] := by
      rcases hLast with hNil | hNewline
      · exact hNil
      · rw [hReturn] at hNewline
        exact absurd hNewline (by decide)
    obtain ⟨front, rfl⟩ := List.getLast?_eq_some_iff.mp hReturn
    have hHead : head = readText front ++ '\n' :: [] := by
      have hJoined := h.text
      rw [readText_append_cons (.inl (by decide))] at hJoined
      simpa [joined, readText] using hJoined.symm
    have hBefore : readText (front ++ ['\r'] ++ block.text) = readText front ++ block.text := by
      rw [hText, append_assoc, singleton_append,
        readText_append_cons (.inl (by decide))]
      show readText front ++ readText ('\n' :: (peerTitle ++ '\n' :: block.body)) = _
      rw [← hText, hRead]
    have hUntitled := h.untitled
    rw [hHead, untitled_newline] at hUntitled
    refine ⟨readText front, ⟨?_, hUntitled.1, return_notMem_readText front, ?_⟩, ?_⟩
    · rw [hBefore]
      simp [joined, PeerBlock.text]
    · rw [nil_append, forall_mem_singleton]
      exact hPlain
    · rw [hHead, serverEntries_newline]
      exact (append_nil _).symm
  · refine ⟨head, ?_, rfl⟩
    have hAppend := h.append hPlain
    rwa [← hRead, hText, ← readText_append_cons (.inr hReturn), ← hText] at hAppend

theorem entries_rdropWhile (head : List Char) :
    serverEntries (head.rdropWhile (· = '\n')) = serverEntries head ∧
      (Untitled peerTitle head → Untitled peerTitle (head.rdropWhile (· = '\n'))) := by
  induction head using List.reverseRecOn with
  | nil => exact ⟨rfl, id⟩
  | append_singleton head c ih =>
    by_cases hC : c = '\n'
    · subst hC
      have hEntries := serverEntries_newline head []
      rw [rdropWhile_concat_pos _ _ _ (by decide), hEntries, ih.1]
      refine ⟨(append_nil _).symm, fun hUntitled => ih.2 ?_⟩
      exact (untitled_newline.mp hUntitled).1
    · rw [rdropWhile_concat_neg _ _ _ (by simpa using hC)]
      exact ⟨rfl, id⟩

theorem plain_transport31Lines : ∀ e ∈ transport31Lines, PlainEntry e.1 e.2 := by
  have hPlain : ∀ e ∈ transport31Lines, PlainKey e.1 ∧ ∀ c ∈ e.2.toList, isSpace c = false := by
    decide
  exact fun e hMem => ⟨(hPlain e hMem).1, (hPlain e hMem).2⟩

theorem serverEntries_joined (head : List Char) (sections : List (List Char)) :
    serverEntries (joined peerMarker head sections) =
      serverEntries head ++ sections.flatMap serverEntries := by
  induction sections generalizing head with
  | nil => simp [joined]
  | cons s sections ih =>
    have hJoined : joined peerMarker head (s :: sections) =
        head ++ '\n' :: (peerTitle ++ '\n' :: joined peerMarker s sections) := by
      simp [joined, peerMarker, titleLine]
    have hTitle : serverEntries peerTitle = [] := by decide
    rw [hJoined, serverEntries_newline, serverEntries_newline, hTitle, nil_append, ih,
      flatMap_cons]

/-- What the whole text says is what the part without peers says, and the peers. -/
theorem Renders.serverEntries (h : Renders text head blocks) :
    serverEntries text = Awg3Clients.serverEntries head ++ blocks.flatMap PeerBlock.entries := by
  rw [h.text, serverEntries_joined, flatMap_map]
  congr 1
  exact flatMap_congr fun block hMem => serverEntries_body (h.plain block hMem)

theorem missingTransport_append (entries : List (String × String)) (blocks : List PeerBlock) :
    missingTransport (entries ++ blocks.flatMap PeerBlock.entries) = missingTransport entries := by
  have hKeys : ∀ line ∈ transport31Lines,
      line.1 ∉ ["PublicKey", "PresharedKey", "AllowedIPs"] := by decide
  refine filter_congr fun line hMem => ?_
  rw [decide_eq_decide, map_append, mem_append, not_or, and_iff_left]
  intro hBlock
  obtain ⟨e, hEntry, hSame⟩ := mem_map.mp hBlock
  obtain ⟨block, -, hEntry⟩ := mem_flatMap.mp hEntry
  refine hKeys line hMem (hSame ▸ ?_)
  exact mem_map_of_mem (f := Prod.fst) hEntry

/-- **The transport keys.** -/
theorem Renders.migrate (h : Renders text head blocks) {new : List Char}
    (hNew : migrateTransport31 text = some new) : ∃ head', Renders new head' blocks ∧
      Awg3Clients.serverEntries head' = Awg3Clients.serverEntries head ++
        missingTransport (Awg3Clients.serverEntries head) := by
  unfold migrateTransport31 at hNew
  rw [h.serverEntries, missingTransport_append] at hNew
  dsimp only at hNew
  split_ifs at hNew with hMissing
  have hNew := Option.some.inj hNew
  have hPlain : ∀ e ∈ missingTransport (Awg3Clients.serverEntries head), PlainEntry e.1 e.2 :=
    fun e hMem => plain_transport31Lines e (mem_of_mem_filter hMem)
  obtain ⟨hEntries, hUntitled⟩ := entries_rdropWhile head
  refine ⟨head.rdropWhile (· = '\n') ++
    '\n' :: writeEntries (missingTransport (Awg3Clients.serverEntries head)),
    ⟨?_, ?_, ?_, h.plain⟩, ?_⟩
  · rw [← hNew, h.text]
    cases blocks with
    | nil =>
      have hNone := partition?_untitled newline_notMem_peerTitle h.untitled
      simp only [map_nil, joined, flatMap_nil, append_nil]
      rw [peerMarker, hNone]
    | cons block blocks =>
      rw [map_cons]
      have hFound : partition? peerMarker (joined peerMarker head
          (block.body :: blocks.map PeerBlock.body)) =
            some (head, joined peerMarker block.body (blocks.map PeerBlock.body)) :=
        partition?_joined newline_notMem_peerTitle h.untitled
      rw [hFound]
      simp [joined]
  · rw [untitled_newline]
    exact ⟨hUntitled h.untitled, untitled_writeEntries hPlain⟩
  · rw [mem_append, mem_cons, not_or, not_or]
    exact ⟨fun hMem => h.noReturn ((List.rdropWhile_prefix _ _).subset hMem), by decide,
      return_notMem_writeEntries hPlain⟩
  · rw [serverEntries_newline, hEntries, serverEntries_writeEntries hPlain]

/-- Once they are there, nothing is missing. -/
theorem missingTransport_migrated (entries : List (String × String)) :
    missingTransport (entries ++ missingTransport entries) = [] := by
  refine filter_eq_nil_iff.mpr fun line hMem hMissing => ?_
  have hNot := of_decide_eq_true hMissing
  rw [map_append, mem_append, not_or] at hNot
  have hIn : line ∈ missingTransport entries := mem_filter.mpr ⟨hMem, decide_eq_true hNot.1⟩
  exact hNot.2 (mem_map_of_mem hIn)

theorem migrateTransport31_eq_none (h : Renders text head blocks)
    (hNone : missingTransport (Awg3Clients.serverEntries head) = []) :
    migrateTransport31 text = none := by
  unfold migrateTransport31
  rw [h.serverEntries, missingTransport_append, hNone]
  rfl

end AdminPanel.Awg3Clients
