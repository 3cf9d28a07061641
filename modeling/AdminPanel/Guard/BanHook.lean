import AdminPanel.Access.BannedClients

/-!
# The ban check of the connect script

OpenVPN runs `client-connect.sh` for every connection. `openvpn_ban_hook.py` copies the ban file
next to the script and puts a block into the script that looks the client up in the copy.

* `enforceBans` — `write_banned_clients` with the `ensure_openvpn_ban_check` behind it;
* `Shell` — what a script does before it comes to the block;
* `installAll_script`, `installAll_copy` — what an installation leaves of each script;
* `rejects_exactly_banned_iff` — the names and scripts for which every list of banned clients
  is enforced.
-/

namespace AdminPanel.Guard.BanHook

open List Function Lib.PyText
open Access

/-! ## Files -/

/-- An absolute path, component by component. -/
abbrev Path := List (List Char)

def pathText (path : Path) : List Char := path.flatMap fun part => '/' :: part

/-- `path.parent` -/
def parent (path : Path) : Path := path.dropLast

/-- The contents of the files there are. -/
abbrev Files := Path → Option (List Char)

def writeText (files : Files) (path : Path) (content : List Char) : Files :=
  update files path (some content)

/-- Characters that a shell takes as they are between double quotes. -/
def Quotable (text : List Char) : Prop := ∀ c ∈ text, c ∉ ['"', '$', '`', '\\', '\n']

instance (text : List Char) : Decidable (Quotable text) := List.decidableBAll _ text

/-- Where AntiZapret is installed. -/
structure InstallPath where
  path : Path
  quotable : Quotable (pathText path)

/-- The panel's rule for client names. -/
def NameRule (name : List Char) : Prop :=
  name ≠ [] ∧ name.length ≤ 32 ∧ ∀ c ∈ name,
    ('a' ≤ c ∧ c ≤ 'z') ∨ ('A' ≤ c ∧ c ≤ 'Z') ∨ ('0' ≤ c ∧ c ≤ '9') ∨ c = '_' ∨ c = '-'

instance (name : List Char) : Decidable (NameRule name) :=
  @instDecidableAnd _ _ _ (@instDecidableAnd _ _ _ (List.decidableBAll _ name))

/-! ## The block -/

def banCheckStart : List Char := "# BEGIN adminpanel ban check".toList

def banCheckEnd : List Char := "# END adminpanel ban check".toList

def buildBanCheckBlock (bannedClientsPath : List Char) : List Char :=
  banCheckStart ++ "\nif [ -f \"".toList ++ bannedClientsPath ++ "\" ]; then\n".toList ++
    "  if grep -qxF \"$common_name\" \"".toList ++ bannedClientsPath ++
    "\" 2>/dev/null; then\n".toList ++
    "    echo \"Client $common_name is banned\" >&2\n".toList ++
    "    exit 1\n  fi\nfi\n".toList ++ banCheckEnd

theorem length_partition? {needle s before rest : List Char}
    (h : partition? needle s = some (before, rest)) :
    s.length = before.length + needle.length + rest.length := by
  rw [eq_of_partition? h, length_append, length_append]

theorem length_dropPrefix?_getD (start s : List Char) :
    ((s.dropPrefix? start).getD s).length ≤ s.length := by
  cases hDrop : s.dropPrefix? start with
  | none => exact Nat.le_refl _
  | some rest =>
    obtain ⟨before, rfl, -⟩ := List.dropPrefix?_eq_some_iff.mp hDrop
    rw [length_append]
    exact Nat.le_add_left _ _

/-- `_strip_existing_block`: without every block up to its first end line. -/
def stripExistingBlock (content : List Char) : List Char :=
  match _hStart : partition? banCheckStart content with
  | none => content
  | some (before, rest) =>
    match _hEnd : partition? banCheckEnd rest with
    | none => content
    | some (_, after) => before ++ stripExistingBlock ((after.dropPrefix? ['\n']).getD after)
termination_by content.length
decreasing_by
  have hFirst := length_partition? _hStart
  have hSecond := length_partition? _hEnd
  have hMark : banCheckStart.length = 28 := rfl
  have hRest := length_dropPrefix?_getD ['\n'] after
  omega

/-- The text with the block in it: behind the `#!` line, or first of all. -/
def withBlock (block cleaned : List Char) : List Char :=
  if "#!".toList <+: cleaned then
    match partition? ['\n'] cleaned with
    | none => cleaned ++ "\n\n".toList ++ block ++ ['\n']
    | some (first, rest) =>
      first ++ ['\n'] ++ ['\n'] ++ block ++ ['\n'] ++ rest.dropWhile (· = '\n')
  else block ++ ['\n'] ++ cleaned.dropWhile (· = '\n')

/-- `MIRROR_FILENAME`, in the directory above the one of the script. -/
def mirrorPath (script : Path) : Path := parent (parent script) ++ ["banned_clients".toList]

/-- `_install_into_script` for a script that is there; whether it changed. -/
def installIntoScript (script : Path) (raw banned : List Char) (files : Files) : Files × Bool :=
  let files := writeText files (mirrorPath script) banned
  let block := buildBanCheckBlock (pathText (mirrorPath script))
  let content := readText raw
  if block <:+: content then (files, false)
  else (writeText files script (withBlock block (stripExistingBlock content)), true)

def candidateScripts (antizapret : Path) : List Path :=
  let own := antizapret ++ ["client-connect.sh".toList]
  let served := ["etc", "openvpn", "server", "scripts", "client-connect.sh"].map String.toList
  if own = served then [own] else [own, served]

/-- The loop over the candidates: what each installed script reports. -/
def installAll (banned : List Char) : List Path → Files → Files × List Bool
  | [], files => (files, [])
  | script :: rest, files =>
    match files script with
    | none => installAll banned rest files
    | some raw =>
      let (files, changed) := installIntoScript script raw banned files
      let (files, results) := installAll banned rest files
      (files, changed :: results)

/-- The ban file of the node. -/
def bannedClientsFile (antizapret : Path) : Path :=
  antizapret ++ ["config".toList, "banned_clients".toList]

/-- `ensure_openvpn_ban_check`; `none` when it does not succeed. -/
def ensureOpenvpnBanCheck (antizapret : Path) (readable : Bool) (files : Files) : Option Files :=
  if readable then
    let banned := readText ((files (bannedClientsFile antizapret)).getD [])
    let (files, results) := installAll banned (candidateScripts antizapret) files
    if results = [] then none else some files
  else none

/-- `write_banned_clients` -/
def enforceBans (antizapret : Path) (readable : Bool) (clients : NameSet) (files : Files) :
    Option Files :=
  ensureOpenvpnBanCheck antizapret readable
    (writeText files (bannedClientsFile antizapret) (writeBannedClients clients))

/-! ## A connection -/

/-- Blank lines and comments. -/
def Inert (text : List Char) : Prop :=
  ∀ line ∈ fileLines text,
    let words := line.dropWhile fun c => c = ' ' || c = '\t'
    words = [] ∨ words.head? = some '#'

/-- How a shell runs a script: the value of `$common_name` with which a run for a client first
comes to the block, if it does. Blank lines and comments before the block do nothing. -/
structure Shell where
  comesTo : (script block commonName : List Char) → Option (List Char)
  comesTo_of_inert {before path after : List Char} (commonName : List Char)
    (hBefore : Inert before) (hPath : Quotable path)
    (hAfter : after = [] ∨ after.head? = some '\n') :
    comesTo (before ++ buildBanCheckBlock path ++ after) (buildBanCheckBlock path) commonName =
      some commonName

/-- `grep -qxF pattern path` exits with 0. What begins with a dash is taken for options: what
comes of it, `optionRun` says. -/
def grepMatches (optionRun : (argument path content : List Char) → Bool)
    (pattern path content : List Char) : Bool :=
  if pattern.head? = some '-' then optionRun pattern path content
  else decide (pattern ∈ fileLines content)

section

variable (shell : Shell) (optionRun : (argument path content : List Char) → Bool)

/-- The script, run for a client, ends with failure at the ban check. -/
def rejects (files : Files) (script : Path) (commonName : List Char) : Bool :=
  let mirror := mirrorPath script
  match files script, files mirror with
  | some text, some banned =>
    (shell.comesTo text (buildBanCheckBlock (pathText mirror)) commonName).any fun name =>
      grepMatches optionRun name (pathText mirror) banned
  | _, _ => false

/-- Every list of banned clients that is written and installed rejects the client exactly when
it is on it, and is the list read back. -/
def Enforces (antizapret : InstallPath) (files : Files) (script : Path)
    (commonName : List Char) : Prop :=
  ∀ clients : NameSet, (∀ name ∈ clients, NameRule name) → ∀ readable files',
    enforceBans antizapret.path readable clients files = some files' →
      (rejects shell optionRun files' script commonName = true ↔ commonName ∈ clients) ∧
      ∀ name, name ∈ readBannedClients
        (readText ((files' (bannedClientsFile antizapret.path)).getD [])) ↔ name ∈ clients

/-- What a run for the client comes to the block with: a script that has the block keeps it
where it is, and another one gets it in front. -/
def seenName (script : Path) (raw commonName : List Char) : Option (List Char) :=
  let block := buildBanCheckBlock (pathText (mirrorPath script))
  if block <:+: readText raw then shell.comesTo raw block commonName else some commonName

/-- The name that a check looks up tells the client. -/
def Tells (script : Path) (commonName name : List Char) : Prop :=
  if name.head? = some '-' then
    ∀ clients : NameSet, (∀ n ∈ clients, NameRule n) →
      (optionRun name (pathText (mirrorPath script)) (writeBannedClients clients) = true ↔
        commonName ∈ clients)
  else name = commonName

end

/-! ## Names and their file -/

variable {name : List Char} {c : Char}

theorem NameRule.bounds (h : NameRule name) (hc : c ∈ name) : 45 ≤ c.toNat ∧ c.toNat ≤ 122 := by
  have hChar := h.2.2 c hc
  simp only [Char.le_def, ← Char.toNat_inj, UInt32.le_iff_toNat_le] at hChar
  change (97 ≤ c.toNat ∧ c.toNat ≤ 122) ∨ (65 ≤ c.toNat ∧ c.toNat ≤ 90) ∨
    (48 ≤ c.toNat ∧ c.toNat ≤ 57) ∨ c.toNat = 95 ∨ c.toNat = 45 at hChar
  omega

theorem NameRule.not_mem (h : NameRule name) (hc : c.toNat < 45) : c ∉ name := by
  intro hMem
  have := (h.bounds hMem).1
  omega

theorem isSpace_of_bounds (h : 45 ≤ c.toNat ∧ c.toNat ≤ 122) : isSpace c = false := by
  simp only [isSpace, Bool.or_eq_false_iff, Bool.and_eq_false_iff, decide_eq_false_iff_not]
  omega

theorem NameRule.plain (h : NameRule name) : Plain name where
  stripped := strip_of_not_space fun c hc => isSpace_of_bounds (h.bounds hc)
  nonempty := h.1
  noComment hHead := h.not_mem (by decide) (mem_of_mem_head? hHead)
  oneLine c hc := by
    have hBounds := h.bounds hc
    simp only [isLineBreak, Bool.or_eq_false_iff, Bool.and_eq_false_iff, decide_eq_false_iff_not]
    omega

section

variable {clients : NameSet}

theorem unlines_of_write (clients : NameSet) :
    writeBannedClients clients =
      unlines (clients.insertionSort fun a b => lowerName a ≤ lowerName b) := by
  rw [writeBannedClients, intercalate_newline]

theorem mem_fileLines_write (h : ∀ name ∈ clients, NameRule name) (name : List Char) :
    name ∈ fileLines (writeBannedClients clients) ↔ name ∈ clients := by
  have hMem : ∀ line, line ∈ clients.insertionSort (fun a b => lowerName a ≤ lowerName b) ↔
      line ∈ clients := fun line => (perm_insertionSort _ clients).mem_iff
  rw [unlines_of_write, fileLines_unlines, hMem]
  exact fun line hLine => (h line ((hMem line).mp hLine)).not_mem (by decide)

theorem readText_write (h : ∀ name ∈ clients, NameRule name) :
    readText (writeBannedClients clients) = writeBannedClients clients := by
  refine readText_of_no_return fun hReturn => ?_
  rw [unlines_of_write, unlines, mem_flatMap] at hReturn
  obtain ⟨line, hLine, hMem⟩ := hReturn
  have hName := h line ((perm_insertionSort _ clients).mem_iff.mp hLine)
  rcases mem_append.mp hMem with hIn | hNewline
  · exact hName.not_mem (by decide) hIn
  · exact absurd (mem_singleton.mp hNewline) (by decide)

end

/-! ## Installation -/

/-- A script with the block in it. -/
def installedText (script : Path) (raw : List Char) : List Char :=
  let block := buildBanCheckBlock (pathText (mirrorPath script))
  if block <:+: readText raw then raw else withBlock block (stripExistingBlock (readText raw))

/-- The file name of every candidate. -/
def IsScript (path : Path) : Prop := path.getLast? = some "client-connect.sh".toList

def IsList (path : Path) : Prop := path.getLast? = some "banned_clients".toList

theorem isList_mirrorPath (script : Path) : IsList (mirrorPath script) :=
  List.getLast?_concat

variable {path script : Path}

theorem IsList.ne (hList : IsList path) (hScript : IsScript script) : path ≠ script := by
  rintro rfl
  exact absurd (hList.symm.trans hScript) (by decide)

theorem candidateScripts_isScript {antizapret : Path}
    (h : script ∈ candidateScripts antizapret) : IsScript script := by
  have hOwn : IsScript (antizapret ++ ["client-connect.sh".toList]) := List.getLast?_concat
  unfold candidateScripts at h
  dsimp only at h
  split at h
  · rw [mem_singleton.mp h]
    exact hOwn
  · rcases mem_pair.mp h with rfl | rfl
    · exact hOwn
    · rfl

theorem nodup_candidateScripts (antizapret : Path) : (candidateScripts antizapret).Nodup := by
  unfold candidateScripts
  dsimp only
  split
  · exact nodup_singleton _
  · next hNe =>
    rw [nodup_cons, mem_singleton]
    exact ⟨hNe, nodup_singleton _⟩

section

variable {banned raw : List Char} {script : Path} {scripts : List Path} {files : Files}

theorem installIntoScript_script (hScript : IsScript script) (hRaw : files script = some raw) :
    (installIntoScript script raw banned files).1 script = some (installedText script raw) := by
  have hMirror := ((isList_mirrorPath script).ne hScript).symm
  unfold installIntoScript installedText writeText
  dsimp only
  split
  · exact (update_of_ne hMirror _ _).trans hRaw
  · exact update_self _ _ _

theorem installIntoScript_of_ne (hScript : path ≠ script) (hMirror : path ≠ mirrorPath script) :
    (installIntoScript script raw banned files).1 path = files path := by
  unfold installIntoScript writeText
  dsimp only
  split
  · exact update_of_ne hMirror _ _
  · show update (update _ _ _) _ _ _ = _
    rw [update_of_ne hScript, update_of_ne hMirror]

theorem installIntoScript_mirror (hScript : IsScript script) :
    (installIntoScript script raw banned files).1 (mirrorPath script) = some banned := by
  have hMirror := (isList_mirrorPath script).ne hScript
  unfold installIntoScript writeText
  dsimp only
  split
  · exact update_self _ _ _
  · show update (update _ _ _) _ _ _ = _
    rw [update_of_ne hMirror, update_self]

/-- A copy of the list stays one. -/
theorem installIntoScript_copy (hScript : IsScript script) (hPath : IsList path)
    (hCopy : files path = some banned) :
    (installIntoScript script raw banned files).1 path = some banned := by
  by_cases hMirror : path = mirrorPath script
  · rw [hMirror]
    exact installIntoScript_mirror hScript
  · rw [installIntoScript_of_ne (hPath.ne hScript) hMirror, hCopy]

theorem installAll_copy (hScripts : ∀ s ∈ scripts, IsScript s)
    (hPath : IsList path) (hCopy : files path = some banned) :
    (installAll banned scripts files).1 path = some banned := by
  induction scripts generalizing files with
  | nil => exact hCopy
  | cons first rest ih =>
    rw [forall_mem_cons] at hScripts
    unfold installAll
    split
    · exact ih hScripts.2 hCopy
    · exact ih hScripts.2 (installIntoScript_copy hScripts.1 hPath hCopy)

theorem installAll_of_not_mem (hScripts : ∀ s ∈ scripts, IsScript s) (hScript : IsScript script)
    (hNot : script ∉ scripts) : (installAll banned scripts files).1 script = files script := by
  induction scripts generalizing files with
  | nil => rfl
  | cons first rest ih =>
    rw [forall_mem_cons] at hScripts
    rw [mem_cons, not_or] at hNot
    unfold installAll
    split
    · exact ih hScripts.2 hNot.2
    · refine (ih hScripts.2 hNot.2).trans ?_
      exact installIntoScript_of_ne hNot.1 ((isList_mirrorPath first).ne hScript).symm

/-- Every script that is there has the block, and the list next to it. -/
theorem installAll_script (banned : List Char) (hScripts : ∀ s ∈ scripts, IsScript s) (hNodup : scripts.Nodup)
    (hMem : script ∈ scripts) (hRaw : files script = some raw) :
    (installAll banned scripts files).1 script = some (installedText script raw) ∧
    (installAll banned scripts files).1 (mirrorPath script) = some banned := by
  induction scripts generalizing files with
  | nil => cases hMem
  | cons first rest ih =>
    rw [forall_mem_cons] at hScripts
    rw [nodup_cons] at hNodup
    unfold installAll
    rcases mem_cons.mp hMem with rfl | hRest
    · rw [hRaw]
      refine ⟨?_, installAll_copy hScripts.2 (isList_mirrorPath script)
        (installIntoScript_mirror hScripts.1)⟩
      exact (installAll_of_not_mem hScripts.2 hScripts.1 hNodup.1).trans
        (installIntoScript_script hScripts.1 hRaw)
    · have hNe : script ≠ first := fun h => hNodup.1 (h ▸ hRest)
      split
      · exact ih hScripts.2 hNodup.2 hRest hRaw
      · refine ih hScripts.2 hNodup.2 hRest ?_
        rw [installIntoScript_of_ne hNe ((isList_mirrorPath first).ne (hScripts.2 script hRest)).symm,
          hRaw]

theorem installAll_results (hScripts : ∀ s ∈ scripts, IsScript s) (hMem : script ∈ scripts)
    (hRaw : files script = some raw) : (installAll banned scripts files).2 ≠ [] := by
  induction scripts generalizing files with
  | nil => cases hMem
  | cons first rest ih =>
    rw [forall_mem_cons] at hScripts
    unfold installAll
    split
    · next hNone =>
      rcases mem_cons.mp hMem with rfl | hRest
      · rw [hRaw] at hNone
        cases hNone
      · exact ih hScripts.2 hRest hRaw
    · exact cons_ne_nil _ _

end

/-! ## The block in front -/

theorem inert_nil : Inert [] := fun _ hLine => absurd hLine not_mem_nil

/-- A comment line and a blank one. -/
theorem inert_shebang {first : List Char} (hLine : '\n' ∉ first)
    (hComment : first.head? = some '#') : Inert (first ++ ['\n'] ++ ['\n']) := by
  intro line hMem
  have hLines : fileLines (first ++ ['\n'] ++ ['\n']) = [first, []] := by
    unfold fileLines
    rw [append_assoc, singleton_append, fileLinesFrom_line _ _ _ hLine,
      nil_append]
    rfl
  rw [hLines] at hMem
  rcases mem_pair.mp hMem with rfl | rfl
  · right
    cases line with
    | nil => cases hComment
    | cons c rest =>
      cases hComment
      rfl
  · exact .inl rfl

theorem head?_of_shebang {cleaned : List Char} (h : "#!".toList <+: cleaned) :
    cleaned.head? = some '#' := by
  obtain ⟨rest, rfl⟩ := h
  rfl

/-- The block is put where a run comes to it at once. -/
theorem withBlock_split (block cleaned : List Char) :
    ∃ before after, withBlock block cleaned = before ++ block ++ after ∧ Inert before ∧
      (after = [] ∨ after.head? = some '\n') := by
  unfold withBlock
  split
  · next hShebang =>
    have hHead := head?_of_shebang hShebang
    split
    · next hNone =>
      have hLine := (partition?_singleton '\n' cleaned).1 hNone
      refine ⟨cleaned ++ ['\n'] ++ ['\n'], ['\n'], ?_, inert_shebang hLine hHead, .inr rfl⟩
      simp
    · next first rest hSome =>
      have hLine := (partition?_singleton '\n' cleaned).2 first rest hSome
      have hFirst : first.head? = some '#' := by
        rw [eq_of_partition? hSome] at hHead
        cases first with
        | nil => cases hHead
        | cons c first => exact hHead
      refine ⟨first ++ ['\n'] ++ ['\n'], '\n' :: rest.dropWhile (· = '\n'), ?_,
        inert_shebang hLine hFirst, .inr rfl⟩
      simp
  · refine ⟨[], '\n' :: cleaned.dropWhile (· = '\n'), ?_, inert_nil, .inr rfl⟩
    simp

theorem quotable_dropLast (h : Quotable (pathText path)) : Quotable (pathText path.dropLast) := by
  intro c hc
  obtain ⟨part, hPart, hMem⟩ := mem_flatMap.mp hc
  exact h c (mem_flatMap.mpr ⟨part, mem_of_mem_dropLast hPart, hMem⟩)

theorem quotable_mirrorPath {antizapret : InstallPath}
    (h : script ∈ candidateScripts antizapret.path) : Quotable (pathText (mirrorPath script)) := by
  have hOwn : Quotable
      (pathText (mirrorPath (antizapret.path ++ ["client-connect.sh".toList]))) := by
    have hParent : parent (antizapret.path ++ ["client-connect.sh".toList]) = antizapret.path :=
      dropLast_concat
    intro c hc
    rw [mirrorPath, hParent, pathText, flatMap_append] at hc
    have hFile : Quotable (pathText ["banned_clients".toList]) := by
      decide
    rcases mem_append.mp hc with hIn | hName
    · exact quotable_dropLast antizapret.quotable c hIn
    · exact hFile c hName
  have hServed : Quotable (pathText (mirrorPath
      (["etc", "openvpn", "server", "scripts", "client-connect.sh"].map String.toList))) := by
    decide
  unfold candidateScripts at h
  dsimp only at h
  split at h
  · rw [mem_singleton.mp h]
    exact hOwn
  · rcases mem_pair.mp h with rfl | rfl
    · exact hOwn
    · exact hServed

/-- A run of an installed script comes to the block with what `seenName` says. -/
theorem comesTo_installedText (shell : Shell) {antizapret : InstallPath}
    (hScript : script ∈ candidateScripts antizapret.path) (raw commonName : List Char) :
    shell.comesTo (installedText script raw)
      (buildBanCheckBlock (pathText (mirrorPath script))) commonName =
        seenName shell script raw commonName := by
  unfold installedText seenName
  dsimp only
  split
  · rfl
  · obtain ⟨before, after, hText, hBefore, hAfter⟩ := withBlock_split
      (buildBanCheckBlock (pathText (mirrorPath script))) (stripExistingBlock (readText raw))
    rw [hText]
    exact shell.comesTo_of_inert commonName hBefore (quotable_mirrorPath hScript) hAfter

/-! ## Enforced bans -/

section

variable {shell : Shell} {optionRun : (argument path content : List Char) → Bool}
  {antizapret : InstallPath} {files files' : Files} {script : Path} {raw commonName : List Char}
  {clients : NameSet} {readable : Bool}

theorem isList_bannedClientsFile (antizapret : Path) : IsList (bannedClientsFile antizapret) := by
  unfold IsList bannedClientsFile
  rw [List.getLast?_append]
  rfl

/-- What an enforced list leaves in the files. -/
theorem enforceBans_files (hScript : script ∈ candidateScripts antizapret.path)
    (hRaw : files script = some raw) (hClients : ∀ name ∈ clients, NameRule name)
    (hEnforce : enforceBans antizapret.path readable clients files = some files') :
    files' script = some (installedText script raw) ∧
    files' (mirrorPath script) = some (writeBannedClients clients) ∧
    files' (bannedClientsFile antizapret.path) = some (writeBannedClients clients) := by
  have hScripts : ∀ s ∈ candidateScripts antizapret.path, IsScript s :=
    fun s hs => candidateScripts_isScript hs
  have hList := isList_bannedClientsFile antizapret.path
  unfold enforceBans ensureOpenvpnBanCheck at hEnforce
  dsimp only at hEnforce
  split at hEnforce
  · have hSource : (writeText files (bannedClientsFile antizapret.path)
        (writeBannedClients clients)) (bannedClientsFile antizapret.path) =
          some (writeBannedClients clients) := update_self _ _ _
    rw [hSource, Option.getD_some, readText_write hClients] at hEnforce
    split at hEnforce
    · cases hEnforce
    · cases hEnforce
      have hThere : (writeText files (bannedClientsFile antizapret.path)
          (writeBannedClients clients)) script = some raw :=
        (update_of_ne (hList.ne (hScripts script hScript)).symm _ _).trans hRaw
      obtain ⟨hText, hMirror⟩ := installAll_script (writeBannedClients clients)
        hScripts (nodup_candidateScripts antizapret.path) hScript hThere
      exact ⟨hText, hMirror, installAll_copy hScripts hList hSource⟩
  · cases hEnforce

/-- Where a script is installed, the list can be enforced. -/
theorem enforceBans_succeeds (hScript : script ∈ candidateScripts antizapret.path)
    (hRaw : files script = some raw) (clients : NameSet) :
    ∃ files', enforceBans antizapret.path true clients files = some files' := by
  have hScripts : ∀ s ∈ candidateScripts antizapret.path, IsScript s :=
    fun s hs => candidateScripts_isScript hs
  have hThere : (writeText files (bannedClientsFile antizapret.path)
      (writeBannedClients clients)) script = some raw :=
    (update_of_ne ((isList_bannedClientsFile antizapret.path).ne
      (hScripts script hScript)).symm _ _).trans hRaw
  unfold enforceBans ensureOpenvpnBanCheck
  dsimp only
  rw [if_pos rfl, if_neg (installAll_results hScripts hScript hThere)]
  exact ⟨_, rfl⟩

/-- What the check answers once a list is enforced. -/
theorem rejects_of_enforceBans (hScript : script ∈ candidateScripts antizapret.path)
    (hRaw : files script = some raw) (hClients : ∀ name ∈ clients, NameRule name)
    (hEnforce : enforceBans antizapret.path readable clients files = some files') :
    rejects shell optionRun files' script commonName =
      (seenName shell script raw commonName).any fun name =>
        grepMatches optionRun name (pathText (mirrorPath script)) (writeBannedClients clients) := by
  obtain ⟨hText, hMirror, -⟩ := enforceBans_files hScript hRaw hClients hEnforce
  unfold rejects
  dsimp only
  rw [hText, hMirror, ← comesTo_installedText shell hScript]

end

/-- **Exactly the banned clients.** Every list of banned clients is enforced for a client exactly
when a run for it comes to the check with a name that tells the client: its own where that does
not begin with a dash. A run of a script that had no block before does come with its own. -/
theorem rejects_exactly_banned_iff (shell : Shell)
    (optionRun : (argument path content : List Char) → Bool) (antizapret : InstallPath)
    (files : Files) (script : Path) (raw commonName : List Char)
    (hScript : script ∈ candidateScripts antizapret.path) (hRaw : files script = some raw)
    (hName : NameRule commonName) :
    Enforces shell optionRun antizapret files script commonName ↔
      ∃ name, seenName shell script raw commonName = some name ∧
        Tells optionRun script commonName name := by
  -- the list of the client alone
  have hAlone : ∀ name ∈ [commonName], NameRule name := by
    intro name hMem
    rw [mem_singleton.mp hMem]
    exact hName
  constructor
  · intro hEnforces
    have hAll : ∀ clients : NameSet, (∀ name ∈ clients, NameRule name) →
        ((seenName shell script raw commonName).any (fun name =>
          grepMatches optionRun name (pathText (mirrorPath script))
            (writeBannedClients clients)) = true ↔ commonName ∈ clients) := by
      intro clients hClients
      obtain ⟨files', hEnforce⟩ := enforceBans_succeeds hScript hRaw clients
      rw [← rejects_of_enforceBans hScript hRaw hClients hEnforce]
      exact (hEnforces clients hClients true files' hEnforce).1
    cases hSeen : seenName shell script raw commonName with
    | none =>
      have hBanned := (hAll [commonName] hAlone).mpr (mem_singleton.mpr rfl)
      rw [hSeen] at hBanned
      cases hBanned
    | some name =>
      refine ⟨name, rfl, ?_⟩
      rw [hSeen] at hAll
      unfold Tells
      split
      · next hDash =>
        intro clients hClients
        rw [← hAll clients hClients, Option.any_some, grepMatches, if_pos hDash]
      · next hPlain =>
        have hBanned := (hAll [commonName] hAlone).mpr (mem_singleton.mpr rfl)
        rw [Option.any_some, grepMatches, if_neg hPlain, decide_eq_true_eq,
          mem_fileLines_write hAlone] at hBanned
        exact mem_singleton.mp hBanned
  · rintro ⟨name, hSeen, hTells⟩ clients hClients readable files' hEnforce
    constructor
    · rw [rejects_of_enforceBans hScript hRaw hClients hEnforce, hSeen, Option.any_some, grepMatches]
      unfold Tells at hTells
      split
      · next hDash =>
        rw [if_pos hDash] at hTells
        exact hTells clients hClients
      · next hPlain =>
        rw [if_neg hPlain] at hTells
        rw [hTells, decide_eq_true_eq, mem_fileLines_write hClients]
    · intro other
      obtain ⟨-, -, hSource⟩ := enforceBans_files hScript hRaw hClients hEnforce
      rw [hSource, Option.getD_some, readText_write hClients]
      exact mem_read_write (fun n hn => (hClients n hn).plain) other

/-- A shell for scripts in which nothing keeps a run from the block. -/
def straightShell : Shell where
  comesTo script block commonName := if block <:+: script then some commonName else none
  comesTo_of_inert _ _ _ _ := if_pos ⟨_, _, rfl⟩

/-- `grep` with the options that a name may be: with `-e` the rest is the pattern, and with `-x`
the path is, for an empty input. -/
def grepOptions (argument _path content : List Char) : Bool :=
  match argument with
  | '-' :: 'e' :: pattern => decide (pattern ∈ fileLines content)
  | _ => false

def antizapretAtRoot : InstallPath where
  path := ["root".toList, "antizapret".toList]
  quotable := by decide

def servedScript : Path :=
  ["etc", "openvpn", "server", "scripts", "client-connect.sh"].map String.toList

/-- A node with one connect script, as AntiZapret leaves it. -/
def freshFiles : Files := fun path =>
  if path = servedScript then some "#!/bin/bash\n\nexit 0\n".toList else none

theorem bob_enforced :
    Enforces straightShell grepOptions antizapretAtRoot freshFiles servedScript "bob".toList := by
  refine (rejects_exactly_banned_iff straightShell grepOptions antizapretAtRoot freshFiles
    servedScript "#!/bin/bash\n\nexit 0\n".toList "bob".toList (by decide) rfl ?_).mpr
    ⟨"bob".toList, by decide, rfl⟩
  decide

/-- A fresh installation rejects what `grep` finds in the file. -/
theorem fresh_rejects {clients : NameSet} (hClients : ∀ name ∈ clients, NameRule name)
    (commonName : List Char) :
    ∃ files', enforceBans antizapretAtRoot.path true clients freshFiles = some files' ∧
      rejects straightShell grepOptions files' servedScript commonName =
        grepMatches grepOptions commonName (pathText (mirrorPath servedScript))
          (writeBannedClients clients) := by
  have hScript : servedScript ∈ candidateScripts antizapretAtRoot.path := by decide
  have hRaw : freshFiles servedScript = some "#!/bin/bash\n\nexit 0\n".toList := rfl
  obtain ⟨files', hEnforce⟩ := enforceBans_succeeds hScript hRaw clients
  have hSeen : seenName straightShell servedScript "#!/bin/bash\n\nexit 0\n".toList commonName =
      some commonName := by
    unfold seenName
    exact if_neg (by decide)
  refine ⟨files', hEnforce, ?_⟩
  rw [rejects_of_enforceBans hScript hRaw hClients hEnforce, hSeen, Option.any_some]

/-- A banned client that connects, and one that is rejected in place of another. -/
theorem dash_names_misread :
    (∃ files', enforceBans antizapretAtRoot.path true ["-x".toList] freshFiles = some files' ∧
      rejects straightShell grepOptions files' servedScript "-x".toList = false) ∧
    (∃ files', enforceBans antizapretAtRoot.path true ["bob".toList] freshFiles = some files' ∧
      rejects straightShell grepOptions files' servedScript "-ebob".toList = true) ∧
    NameRule "-x".toList ∧ NameRule "bob".toList ∧ NameRule "-ebob".toList := by
  have hRules : NameRule "-x".toList ∧ NameRule "bob".toList ∧ NameRule "-ebob".toList := by
    decide
  obtain ⟨files, hFiles, hPasses⟩ := fresh_rejects
    (forall_mem_singleton.mpr hRules.1) "-x".toList
  obtain ⟨files', hFiles', hRejected⟩ := fresh_rejects
    (forall_mem_singleton.mpr hRules.2.1) "-ebob".toList
  refine ⟨⟨files, hFiles, hPasses.trans ?_⟩, ⟨files', hFiles', hRejected.trans ?_⟩, hRules⟩
  · decide
  · decide

end AdminPanel.Guard.BanHook
