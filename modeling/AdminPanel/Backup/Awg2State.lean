import AdminPanel.Backup.LayerArchives

/-!
# The state of an AmneziaWG 2 layer

`export_state_archive` and `import_state_archive` of `awg2.py`: two trees without what is excluded
and the file of expiry dates. The importer removes each tree before it copies the new one.

* `Layer`, `exportStateArchive`, `importStateArchive` — as `awg2.py` has them;
* `Copyable` — when an archive is copied exactly or not at all;
* `replaceTree_spec`, `replaceAwg2Snapshot_spec` — one tree, then the whole layer, whatever fails;
* `exact_iff` — the condition is exact.
-/

namespace AdminPanel.Backup.Layers.Awg2

open List

open Lib (FileTree)

/-! ## The layer -/

def amneziawg : FileName := ⟨"amneziawg", by decide⟩
def clientsDir : FileName := ⟨"clients", by decide⟩
def awgstate : FileName := ⟨"awgstate", by decide⟩
def expiryTsv : FileName := ⟨"expiry.tsv", by decide⟩

/-- The layer of a node; a tree is missing where its directory is. -/
structure Layer where
  awgClient : Bool
  overlayDir : Bool
  amnezia : Option Tree
  clients : Option Tree
  expiry : Option Content

variable (layer source target : Layer)

/-- `_ensure_replica_installed`: what is missing. -/
def Layer.missing : List String :=
  (if layer.awgClient then [] else ["awg_client"]) ++
    (if layer.overlayDir then [] else ["overlay_dir"]) ++
    (if layer.amnezia.isSome then [] else ["amnezia_dir"])

def Layer.isInstalled : Bool := layer.missing.isEmpty

/-- `Path.suffix` is `.pyc` -/
def hasPycSuffix (name : FileName) : Bool :=
  ".pyc".toList.isSuffixOf name.val.toList && 4 < name.val.length

def isExcludedArchivePath (path : Path) : Bool :=
  (path.getLast?.any fun name => name.val = "stats.db" || hasPycSuffix name) ||
    path.any fun part => part.val = "venv" || part.val = "__pycache__"

/-- `_write_tree_to_archive` -/
def treeMembers (root : Option Tree) (archivePrefix : FileName) : List Member :=
  match root with
  | none => []
  | some tree =>
    (tree.keep (!isExcludedArchivePath ·)).entries.map fun e => .file (archivePrefix :: e.1) e.2

/-- `_write_file_to_archive` -/
def fileMember (file : Option Content) (path : Path) : List Member :=
  file.toList.map (.file path)

/-- `_build_manifest` with the default directories -/
def buildManifest (kind : String) : Content :=
  ("kind=" ++ kind ++ "\namnezia_dir=/etc/amnezia/amneziawg" ++
    "\nclient_dir=/opt/antizapret-awg/clients" ++
    "\nexpiry_tsv=/opt/antizapret-awg/expiry.tsv").toList

/-- `AWG2_STATE_ARCHIVE_KIND` -/
def stateArchiveKind : String := "az-awg2-state"

def exportStateArchive : Except ImportError ArchiveData :=
  if layer.isInstalled then
    .ok (.members (treeMembers layer.amnezia amneziawg ++ treeMembers layer.clients clientsDir ++
      fileMember layer.expiry [awgstate, expiryTsv] ++
      [.file [manifestName] (buildManifest stateArchiveKind)]))
  else .error (.notInstalled layer.missing)

/-- A file operation that fails while a tree is replaced. -/
inductive TreeFault where
  /-- `rmtree` leaves what is at or under `top`. -/
  | remove (top : Path)
  /-- `rmtree` leaves the directory. -/
  | rmdir
  /-- `copytree` cannot make a directory. -/
  | makedirs (dir : Path)
  /-- A file is not copied; `left` is at its place. -/
  | copy (path : Path) (left : Option Content)
  /-- `copystat` of a directory. -/
  | copystat
  deriving DecidableEq

inductive Root where
  | amnezia
  | clients
  deriving DecidableEq

/-- The file operation that fails. -/
inductive Fault where
  /-- The temporary directory, or a file that is written there. -/
  | extract
  | tree (root : Root) (fault : TreeFault)
  | expiryParent
  /-- A file that has been written to in part is `left`. -/
  | expiryCopy (left : Option Content)
  | expiryUnlink
  deriving DecidableEq

/-- The fault in the tree `root`. -/
def Fault.under (root : Root) : Option Fault → Option TreeFault
  | some (.tree r fault) => if r = root then some fault else none
  | _ => none

/-- `shutil.rmtree(ignore_errors=True)` -/
def rmtree (tree : Tree) (fault : Option TreeFault) : Option Tree :=
  match fault with
  | some (.remove top) =>
    let rest := tree.keep (top.isPrefixOf ·)
    if rest.hasFiles then some rest else none
  | some .rmdir => some .empty
  | _ => none

/-- `shutil.copytree` into a new directory, which goes on after an error: what is there, and
whether it returns. -/
def copytree (tree : Tree) (fault : Option TreeFault) : Option Tree × Bool :=
  match fault with
  | some (.makedirs []) => (none, false)
  | some (.makedirs dir) =>
    if (tree.keep (dir.isPrefixOf ·)).hasFiles then
      (some (tree.keep (!dir.isPrefixOf ·)), false)
    else (some tree, true)
  | some (.copy path left) =>
    if (tree.file? path).isSome then (some (tree.put path left), false) else (some tree, true)
  | some .copystat => (some tree, false)
  | _ => (some tree, true)

def replaceTreeFromSnapshot (snapshot current : Option Tree) (fault : Option TreeFault) :
    Option Tree × Bool :=
  let rest := current.bind (rmtree · fault)
  match snapshot with
  | some tree => if rest.isSome then (rest, false) else copytree tree fault
  | none => if fault = some (.makedirs []) then (rest, false) else (some (rest.getD .empty), true)

def treeHasFiles (root : Option Tree) : Bool := root.any FileTree.hasFiles

structure Snapshot where
  amnezia : Option Tree
  clients : Option Tree
  expiry : Option Content

/-- The end of `_replace_awg2_snapshot`. -/
def replaceExpiry (snapshot current : Option Content) (fault : Option Fault) :
    Option Content × Bool :=
  match snapshot with
  | some content =>
    match fault with
    | some .expiryParent => (current, false)
    | some (.expiryCopy left) => (left <|> current, false)
    | _ => (some content, true)
  | none => if fault = some .expiryUnlink && current.isSome then (current, false) else (none, true)

def replaceAwg2Snapshot (snapshot : Snapshot) (fault : Option Fault) : Layer × Option ImportError :=
  if !treeHasFiles snapshot.amnezia || !treeHasFiles snapshot.clients then
    (layer, some (.value
      "AWG2 archive must contain both amneziawg/ and clients/ files before import"))
  else
    match replaceTreeFromSnapshot snapshot.amnezia layer.amnezia (Fault.under .amnezia fault) with
    | (amnezia, false) => ({ layer with amnezia := amnezia }, some .os)
    | (amnezia, true) =>
      match replaceTreeFromSnapshot snapshot.clients layer.clients (Fault.under .clients fault) with
      | (clients, false) => ({ layer with amnezia := amnezia, clients := clients }, some .os)
      | (clients, true) =>
        match replaceExpiry snapshot.expiry layer.expiry fault with
        | (expiry, false) => ({ layer with amnezia, clients, expiry }, some .os)
        | (expiry, true) => ({ layer with amnezia, clients, expiry }, none)

/-- A directory of the extracted tree. -/
def subdir (tree : Tree) (name : FileName) : Option Tree :=
  if (tree.below name).hasFiles then some (tree.below name) else none

def importStateArchive (odd : List Member → Option Tree) (data : ArchiveData)
    (fault : Option Fault) : Layer × Option ImportError :=
  if data = .empty then (layer, some (.value "empty AWG2 archive"))
  else if !layer.isInstalled then (layer, some (.notInstalled layer.missing))
  else if fault = some .extract then (layer, some .os)
  else
    match data with
    | .members ms =>
      match extractall odd ms with
      | some root =>
        replaceAwg2Snapshot layer
          ⟨subdir root amneziawg, subdir root clientsDir, root.file? [awgstate, expiryTsv]⟩ fault
      | none => (layer, some .tar)
    | _ => (layer, some .tar)

/-! ## When an archive is copied exactly -/

/-- A file of a tree that is not excluded. -/
def coveredFile (tree : Option Tree) (path : Path) : Option Content :=
  if isExcludedArchivePath path then none else tree.bind (·.file? path)

/-- The files of the layer under their names in an archive. -/
def Layer.covered : Path → Option Content
  | [] => none
  | root :: path =>
    if root = amneziawg then coveredFile layer.amnezia path
    else if root = clientsDir then coveredFile layer.clients path
    else if root = awgstate && path = [expiryTsv] then layer.expiry
    else none

/-- A tree has a file to archive. -/
def HasCovered (tree : Option Tree) : Prop := ∃ path, (coveredFile tree path).isSome = true

def SameFiles (tree tree' : Option Tree) : Prop :=
  ∀ path, coveredFile tree path = coveredFile tree' path

/-- The operation comes to be done when the tree `source` replaces `target`. -/
def TreeFault.Occurs (source target : Option Tree) : TreeFault → Prop
  | .remove top => ∃ tree, target = some tree ∧ ∃ path, top <+: path ∧ (tree.file? path).isSome
  | .rmdir => target.isSome = true
  | .makedirs dir => dir = [] ∨ ∃ path, dir <+: path ∧ (coveredFile source path).isSome = true
  | .copy path _ => (coveredFile source path).isSome = true
  | .copystat => True

/-- Its failure leaves the target's files. -/
def TreeFault.Harmless (source target : Option Tree) : TreeFault → Prop
  | .remove top => ∀ path, (coveredFile target path).isSome = true → top <+: path
  | .rmdir => ∀ path, coveredFile target path = none
  | .makedirs dir => ∀ path,
    coveredFile target path = if dir <+: path then none else coveredFile source path
  | .copy path left => ∀ other,
    coveredFile target other = if other = path then left else coveredFile source other
  | .copystat => SameFiles target source

/-- When the failure leaves the target as it was: the trees before that operation are the same. -/
def Fault.Harmless : Fault → Prop
  | .extract => True
  | .tree .amnezia fault =>
    fault.Occurs source.amnezia target.amnezia → fault.Harmless source.amnezia target.amnezia
  | .tree .clients fault =>
    fault.Occurs source.clients target.clients →
      SameFiles target.amnezia source.amnezia ∧ fault.Harmless source.clients target.clients
  | .expiryParent => source.expiry.isSome = true →
    SameFiles target.amnezia source.amnezia ∧ SameFiles target.clients source.clients
  | .expiryCopy left => source.expiry.isSome = true →
    SameFiles target.amnezia source.amnezia ∧ SameFiles target.clients source.clients ∧
      (left = none ∨ left = target.expiry)
  | .expiryUnlink => source.expiry = none → target.expiry.isSome = true →
    SameFiles target.amnezia source.amnezia ∧ SameFiles target.clients source.clients

/-- The target has the layer, and both trees of the source have files; what fails does no harm. -/
def Copyable (fault : Option Fault) : Prop :=
  target.isInstalled = true ∧
    (fault = some .extract ∨
      HasCovered source.amnezia ∧ HasCovered source.clients ∧
        ∀ f, fault = some f → f.Harmless source target)

/-! ## What is archived -/

/-- The files of a tree that are archived. -/
def treeEntries (root : Option Tree) (archivePrefix : FileName) : List (Path × Content) :=
  match root with
  | none => []
  | some tree =>
    (tree.keep (!isExcludedArchivePath ·)).entries.map fun e => (archivePrefix :: e.1, e.2)

def Layer.entries (layer : Layer) : List (Path × Content) :=
  treeEntries layer.amnezia amneziawg ++ treeEntries layer.clients clientsDir ++
    layer.expiry.toList.map ([awgstate, expiryTsv], ·) ++
    [([manifestName], buildManifest stateArchiveKind)]

theorem treeMembers_eq (root : Option Tree) (archivePrefix : FileName) :
    treeMembers root archivePrefix =
      (treeEntries root archivePrefix).map fun e => .file e.1 e.2 := by
  cases root with
  | none => rfl
  | some tree =>
    rw [treeMembers, treeEntries, map_map]
    rfl

theorem exportStateArchive_eq {layer : Layer} (hInstalled : layer.isInstalled = true) :
    exportStateArchive layer = .ok (.members (layer.entries.map fun e => .file e.1 e.2)) := by
  rw [exportStateArchive, if_pos hInstalled, treeMembers_eq, treeMembers_eq, Layer.entries]
  simp only [fileMember, map_append, map_map, map_cons, map_nil,
    Function.comp_def]

theorem coveredFile_some (tree : Tree) (path : Path) :
    coveredFile (some tree) path = (tree.keep (!isExcludedArchivePath ·)).file? path := by
  rw [FileTree.file?_keep, coveredFile]
  cases isExcludedArchivePath path <;> rfl

theorem mem_treeEntries {root : Option Tree} {archivePrefix : FileName} {p : Path} {c : Content} :
    (p, c) ∈ treeEntries root archivePrefix ↔
      ∃ path, p = archivePrefix :: path ∧ coveredFile root path = some c := by
  cases root with
  | none =>
    constructor
    · exact nofun
    · rintro ⟨path, -, hFile⟩
      rw [coveredFile, Option.bind_none, ite_self] at hFile
      cases hFile
  | some tree =>
    rw [treeEntries, mem_map]
    constructor
    · rintro ⟨⟨path, content⟩, hMem, hPair⟩
      cases hPair
      exact ⟨path, rfl, by rw [coveredFile_some]; exact (FileTree.mem_entries _).mp hMem⟩
    · rintro ⟨path, rfl, hFile⟩
      rw [coveredFile_some] at hFile
      exact ⟨(path, c), (FileTree.mem_entries _).mpr hFile, rfl⟩

theorem treeEntries_apart (root : Option Tree) (archivePrefix : FileName) :
    (treeEntries root archivePrefix).Pairwise fun e e' => Lib.Apart e.1 e'.1 := by
  cases root with
  | none => exact List.Pairwise.nil
  | some tree =>
    exact pairwise_map.mpr
      ((FileTree.entries_apart _).imp fun hApart => hApart.cons archivePrefix)

/-- What each entry of a layer begins with. -/
theorem entries_apart (layer : Layer) : layer.entries.Pairwise fun e e' => Lib.Apart e.1 e'.1 := by
  have hHead : ∀ {root archivePrefix} {e : Path × Content}, e ∈ treeEntries root archivePrefix →
      ∃ path, e.1 = archivePrefix :: path := by
    intro root archivePrefix e hMem
    obtain ⟨path, hPath, -⟩ := mem_treeEntries.mp (show (e.1, e.2) ∈ _ from hMem)
    exact ⟨path, hPath⟩
  have hExpiry : ∀ {e : Path × Content}, e ∈ layer.expiry.toList.map ([awgstate, expiryTsv], ·) →
      e.1 = [awgstate, expiryTsv] := by
    intro e hMem
    obtain ⟨c, -, rfl⟩ := mem_map.mp hMem
    rfl
  rw [Layer.entries, append_assoc, append_assoc]
  refine pairwise_append.mpr ⟨treeEntries_apart _ _, pairwise_append.mpr
    ⟨treeEntries_apart _ _, pairwise_append.mpr ⟨?_, pairwise_singleton _ _, ?_⟩, ?_⟩, ?_⟩
  · cases layer.expiry with
    | none => exact List.Pairwise.nil
    | some c => exact pairwise_singleton _ _
  · intro e hE e' hE'
    rw [hExpiry hE, mem_singleton.mp hE']
    exact Lib.apart_of_head_ne (by decide) _ _
  · intro e hE e' hE'
    obtain ⟨path, hPath⟩ := hHead hE
    rw [hPath]
    rcases mem_append.mp hE' with hE' | hE'
    · rw [hExpiry hE']
      exact Lib.apart_of_head_ne (by decide) _ _
    · rw [mem_singleton.mp hE']
      exact Lib.apart_of_head_ne (by decide) _ _
  · intro e hE e' hE'
    obtain ⟨path, hPath⟩ := hHead hE
    rw [hPath]
    rcases mem_append.mp hE' with hE' | hE'
    · obtain ⟨path', hPath'⟩ := hHead hE'
      rw [hPath']
      exact Lib.apart_of_head_ne (by decide) _ _
    · rcases mem_append.mp hE' with hE' | hE'
      · rw [hExpiry hE']
        exact Lib.apart_of_head_ne (by decide) _ _
      · rw [mem_singleton.mp hE']
        exact Lib.apart_of_head_ne (by decide) _ _

variable {path : Path}

/-- The entries are the covered files and the manifest. -/
theorem mem_entries {layer : Layer} {root : FileName} {c : Content} (hRoot : root ≠ manifestName) :
    (root :: path, c) ∈ layer.entries ↔ layer.covered (root :: path) = some c := by
  have hTree : ∀ {tree name}, (root :: path, c) ∈ treeEntries tree name ↔
      root = name ∧ coveredFile tree path = some c := by
    intro tree name
    rw [mem_treeEntries]
    constructor
    · rintro ⟨rest, hPath, hFile⟩
      obtain ⟨rfl, rfl⟩ := List.cons.inj hPath
      exact ⟨rfl, hFile⟩
    · rintro ⟨rfl, hFile⟩
      exact ⟨path, rfl, hFile⟩
  have hManifest : (root :: path, c) ∉ [([manifestName], buildManifest stateArchiveKind)] := by
    intro hMem
    have hPath := congrArg Prod.fst (mem_singleton.mp hMem)
    exact hRoot (List.cons.inj hPath).1
  have hExpiry : (root :: path, c) ∈ layer.expiry.toList.map ([awgstate, expiryTsv], ·) ↔
      (root = awgstate ∧ path = [expiryTsv]) ∧ layer.expiry = some c := by
    rw [mem_map]
    constructor
    · rintro ⟨c', hMem, hPair⟩
      obtain ⟨hPath, rfl⟩ := Prod.mk.inj hPair
      obtain ⟨rfl, rfl⟩ := List.cons.inj hPath
      exact ⟨⟨rfl, rfl⟩, Option.mem_toList.mp hMem⟩
    · rintro ⟨⟨rfl, rfl⟩, hFile⟩
      exact ⟨c, Option.mem_toList.mpr hFile, rfl⟩
  have hNames : amneziawg ≠ clientsDir ∧ amneziawg ≠ awgstate ∧ clientsDir ≠ awgstate := by decide
  simp only [Layer.entries, mem_append, hTree, hManifest, hExpiry, or_false, Layer.covered]
  by_cases hAmnezia : root = amneziawg
  · subst hAmnezia
    simp [hNames.1, hNames.2.1]
  by_cases hClients : root = clientsDir
  · subst hClients
    simp [hAmnezia, hNames.2.2]
  · by_cases hState : root = awgstate ∧ path = [expiryTsv]
    · obtain ⟨rfl, rfl⟩ := hState
      simp [hAmnezia, hClients]
    · have hNot : ¬ (root = awgstate && path = [expiryTsv]) = true := by simpa using hState
      simp only [hAmnezia, hClients, hState, false_and, or_self, false_iff, if_false,
        if_neg hNot]
      exact nofun

/-! ## One tree in place of another -/

theorem coveredFile_of_excluded {tree : Option Tree}
    (h : isExcludedArchivePath path = true) : coveredFile tree path = none := if_pos h

/-- A tree that holds the covered files of another. -/
def Extracted (tree : Tree) (source : Option Tree) : Prop :=
  ∀ path, tree.file? path = coveredFile source path

section

variable {tree : Tree} {source target : Option Tree}

theorem Extracted.sameFiles (h : Extracted tree source) : SameFiles (some tree) source := by
  intro path
  cases hPath : isExcludedArchivePath path with
  | true => rw [coveredFile_of_excluded hPath, coveredFile_of_excluded hPath]
  | false =>
    rw [← h path, coveredFile, hPath]
    rfl

theorem coveredFile_keep (tree : Tree) (f : Path → Bool) (path : Path) :
    coveredFile (some (tree.keep f)) path =
      if f path then coveredFile (some tree) path else none := by
  simp only [coveredFile_some, FileTree.file?_keep]
  split_ifs <;> rfl

theorem keep_hasFiles {f : Path → Bool} :
    (tree.keep f).hasFiles = true ↔ ∃ path, f path = true ∧ (tree.file? path).isSome = true := by
  rw [FileTree.hasFiles_iff]
  refine exists_congr fun path => ?_
  rw [FileTree.file?_keep, Option.isSome_iff_exists]
  cases f path <;> simp

theorem Extracted.put (h : Extracted tree source) {left : Option Content}
    (hSome : (coveredFile source path).isSome = true) (other : Path) :
    coveredFile (some (tree.put path left)) other =
      if other = path then left else coveredFile source other := by
  cases hOther : isExcludedArchivePath other with
  | true =>
    have hNe : other ≠ path := by
      rintro rfl
      rw [coveredFile_of_excluded hOther] at hSome
      cases hSome
    rw [if_neg hNe, coveredFile_of_excluded hOther, coveredFile_of_excluded hOther]
  | false =>
    have hFile : coveredFile (some (tree.put path left)) other =
        (tree.put path left).file? other := by
      rw [coveredFile, hOther]
      rfl
    rw [hFile, FileTree.file?_put, h other]
    split_ifs with hSame
    · subst hSame
      obtain ⟨c, hC⟩ := Option.isSome_iff_exists.mp hSome
      rw [hC, Option.bind_some]
    · rfl

/-- The source's files are there, or an operation has failed; what is there then is as it was
exactly when the failure does no harm. -/
def Replaced (source target : Option Tree) (fault : Option TreeFault)
    (out : Option Tree × Bool) : Prop :=
  out.2 = true ∧ SameFiles out.1 source ∧ (∀ f, fault = some f → ¬ f.Occurs source target) ∨
    out.2 = false ∧ ∃ f, fault = some f ∧ f.Occurs source target ∧
      (SameFiles out.1 target ↔ f.Harmless source target)

theorem sameFiles_iff {rest : Option Tree} {files : Path → Option Content}
    (h : ∀ path, coveredFile rest path = files path) :
    SameFiles rest target ↔ ∀ path, coveredFile target path = files path :=
  forall_congr' fun path => by rw [h path, eq_comm]

/-- `rmtree` leaves what it cannot remove. -/
theorem replaceTree_remove (h : Extracted tree source) (top : Path) :
    Replaced source target (some (.remove top))
      (replaceTreeFromSnapshot (some tree) target (some (.remove top))) := by
  by_cases hOccurs : (TreeFault.remove top).Occurs source target
  · obtain ⟨current, rfl, path, hTop, hFile⟩ := hOccurs
    have hRest : (current.keep (top.isPrefixOf ·)).hasFiles = true :=
      keep_hasFiles.mpr ⟨path, isPrefixOf_iff_prefix.mpr hTop, hFile⟩
    have hOut : replaceTreeFromSnapshot (some tree) (some current) (some (.remove top)) =
        (some (current.keep (top.isPrefixOf ·)), false) := by
      simp [replaceTreeFromSnapshot, rmtree, hRest]
    rw [hOut]
    refine .inr ⟨rfl, _, rfl, ⟨current, rfl, path, hTop, hFile⟩, ?_⟩
    refine forall_congr' fun other => ?_
    rw [coveredFile_keep, Option.isSome_iff_ne_none]
    split_ifs with hOther
    · exact iff_of_true rfl fun _ => isPrefixOf_iff_prefix.mp hOther
    · exact ⟨fun hNone hSome => absurd hNone.symm hSome, fun hAll =>
        (not_not.mp fun hSome => hOther (List.isPrefixOf_iff_prefix.mpr (hAll hSome))).symm⟩
  · have hRest : (target.bind (rmtree · (some (.remove top)))) = none := by
      cases target with
      | none => rfl
      | some current =>
        refine if_neg fun hRest => hOccurs ?_
        obtain ⟨path, hTop, hFile⟩ := keep_hasFiles.mp hRest
        exact ⟨current, rfl, path, isPrefixOf_iff_prefix.mp hTop, hFile⟩
    have hOut : replaceTreeFromSnapshot (some tree) target (some (.remove top)) =
        (some tree, true) := by
      simp [replaceTreeFromSnapshot, hRest, copytree]
    rw [hOut]
    refine .inl ⟨rfl, h.sameFiles, ?_⟩
    rintro f ⟨⟩
    exact hOccurs

/-- No failure of `rmtree`. -/
theorem rmtree_bind {fault : Option TreeFault} (hRemove : ∀ top, fault ≠ some (.remove top))
    (hRmdir : fault ≠ some .rmdir) : target.bind (rmtree · fault) = none := by
  cases target with
  | none => rfl
  | some current =>
    match fault with
    | some (.remove top) => exact absurd rfl (hRemove top)
    | some .rmdir => exact absurd rfl hRmdir
    | none | some (.makedirs _) | some (.copy _ _) | some .copystat => rfl

/-- A directory cannot be made: what lies below it is missing. -/
theorem replaceTree_makedirs (h : Extracted tree source) (dir : Path) :
    Replaced source target (some (.makedirs dir))
      (replaceTreeFromSnapshot (some tree) target (some (.makedirs dir))) := by
  have hOut : replaceTreeFromSnapshot (some tree) target (some (.makedirs dir)) =
      copytree tree (some (.makedirs dir)) := by
    simp [replaceTreeFromSnapshot, rmtree_bind]
  rw [hOut]
  cases dir with
  | nil =>
    refine .inr ⟨rfl, _, rfl, .inl rfl, sameFiles_iff fun path => ?_⟩
    rw [if_pos nil_prefix]
    exact ite_self none
  | cons name dir =>
    by_cases hFiles : (tree.keep ((name :: dir).isPrefixOf ·)).hasFiles = true
    · rw [copytree.eq_def]
      simp only [if_pos hFiles]
      obtain ⟨path, hDir, hFile⟩ := keep_hasFiles.mp hFiles
      rw [h path] at hFile
      refine .inr ⟨rfl, _, rfl, .inr ⟨path, isPrefixOf_iff_prefix.mp hDir, hFile⟩,
        sameFiles_iff fun other => ?_⟩
      rw [coveredFile_keep, h.sameFiles other]
      by_cases hUnder : name :: dir <+: other
      · rw [if_pos hUnder, isPrefixOf_iff_prefix.mpr hUnder]
        rfl
      · have hNot : (name :: dir).isPrefixOf other = false :=
          Bool.eq_false_iff.mpr fun hPrefix => hUnder (List.isPrefixOf_iff_prefix.mp hPrefix)
        rw [if_neg hUnder, hNot]
        rfl
    · rw [copytree.eq_def]
      simp only [if_neg hFiles]
      refine .inl ⟨rfl, h.sameFiles, ?_⟩
      rintro f ⟨⟩ (hNil | ⟨path, hDir, hFile⟩)
      · exact cons_ne_nil _ _ hNil
      · exact hFiles (keep_hasFiles.mpr
          ⟨path, isPrefixOf_iff_prefix.mpr hDir, by rw [h path]; exact hFile⟩)

theorem replaceTree_copy (h : Extracted tree source) (path : Path) (left : Option Content) :
    Replaced source target (some (.copy path left))
      (replaceTreeFromSnapshot (some tree) target (some (.copy path left))) := by
  have hOut : replaceTreeFromSnapshot (some tree) target (some (.copy path left)) =
      copytree tree (some (.copy path left)) := by
    simp [replaceTreeFromSnapshot, rmtree_bind]
  rw [hOut, copytree, h path]
  by_cases hSome : (coveredFile source path).isSome = true
  · rw [if_pos hSome]
    exact .inr ⟨rfl, _, rfl, hSome, sameFiles_iff (h.put hSome)⟩
  · rw [if_neg hSome]
    refine .inl ⟨rfl, h.sameFiles, ?_⟩
    rintro f ⟨⟩
    exact hSome

/-- **One tree.** -/
theorem replaceTree_spec (h : Extracted tree source) (fault : Option TreeFault) :
    Replaced source target fault (replaceTreeFromSnapshot (some tree) target fault) := by
  match fault with
  | none =>
    have hOut : replaceTreeFromSnapshot (some tree) target none = (some tree, true) := by
      simp [replaceTreeFromSnapshot, rmtree_bind, copytree]
    rw [hOut]
    exact .inl ⟨rfl, h.sameFiles, nofun⟩
  | some (.remove top) => exact replaceTree_remove h top
  | some .rmdir =>
    cases target with
    | none =>
      refine .inl ⟨rfl, h.sameFiles, ?_⟩
      rintro f ⟨⟩ hSome
      cases hSome
    | some current =>
      refine .inr ⟨rfl, _, rfl, rfl, sameFiles_iff fun path => ?_⟩
      exact ite_self none
  | some (.makedirs dir) => exact replaceTree_makedirs h dir
  | some (.copy path left) => exact replaceTree_copy h path left
  | some .copystat =>
    have hOut : replaceTreeFromSnapshot (some tree) target (some .copystat) =
        (some tree, false) := by
      simp [replaceTreeFromSnapshot, rmtree_bind, copytree]
    rw [hOut]
    exact .inr ⟨rfl, _, rfl, trivial, sameFiles_iff h.sameFiles⟩

end

/-! ## The whole layer -/

section

variable {source target layer : Layer} {fault : Option Fault}

theorem covered_amnezia (layer : Layer) (path : Path) :
    layer.covered (amneziawg :: path) = coveredFile layer.amnezia path := by
  simp [Layer.covered]

theorem covered_clients (layer : Layer) (path : Path) :
    layer.covered (clientsDir :: path) = coveredFile layer.clients path := by
  have hNe : clientsDir ≠ amneziawg := by decide
  simp [Layer.covered, hNe]

theorem covered_expiry (layer : Layer) : layer.covered [awgstate, expiryTsv] = layer.expiry := by
  have hNames : awgstate ≠ amneziawg ∧ awgstate ≠ clientsDir := by decide
  simp [Layer.covered, hNames]

/-- Layers agree on what is archived. -/
theorem covered_eq_iff {layer layer' : Layer} : (∀ path, layer.covered path = layer'.covered path) ↔
    SameFiles layer.amnezia layer'.amnezia ∧ SameFiles layer.clients layer'.clients ∧
      layer.expiry = layer'.expiry := by
  constructor
  · intro h
    refine ⟨fun path => ?_, fun path => ?_, ?_⟩
    · rw [← covered_amnezia, ← covered_amnezia, h]
    · rw [← covered_clients, ← covered_clients, h]
    · rw [← covered_expiry, ← covered_expiry, h]
  · rintro ⟨hA, hC, hE⟩ path
    cases path with
    | nil => rfl
    | cons root path => simp only [Layer.covered, hA path, hC path, hE]

theorem under_eq_some {root : Root} {f : TreeFault} :
    Fault.under root fault = some f ↔ fault = some (.tree root f) := by
  match fault with
  | some (.tree r f') =>
    simp only [Fault.under, Option.ite_none_right_eq_some, Option.some.injEq, Fault.tree.injEq]
  | none | some .extract | some .expiryParent | some (.expiryCopy _) | some .expiryUnlink =>
    simp [Fault.under]

/-- The source's layer is there, or an operation has failed; what is there then is as it was
exactly when the failure does no harm. -/
def Imported (source target : Layer) (fault : Option Fault) (out : Layer × Option ImportError) :
    Prop :=
  out.2 = none ∧ (∀ path, out.1.covered path = source.covered path) ∧
      (∀ f, fault = some f → f.Harmless source target) ∨
    out.2 = some .os ∧ ((∀ path, out.1.covered path = target.covered path) ↔
      ∀ f, fault = some f → f.Harmless source target)

theorem forall_fault {f : Fault} {p : Fault → Prop} (h : fault = some f) :
    (∀ f, fault = some f → p f) ↔ p f := by
  subst h
  exact ⟨fun hAll => hAll f rfl, fun hOne f' hF' => Option.some.inj hF' ▸ hOne⟩

/-- The last file. -/
theorem replaceExpiry_spec {amnezia clients : Option Tree}
    (hAmnezia : SameFiles amnezia source.amnezia) (hClients : SameFiles clients source.clients)
    (hNotA : ∀ f, fault = some (.tree .amnezia f) → ¬ f.Occurs source.amnezia target.amnezia)
    (hNotC : ∀ f, fault = some (.tree .clients f) → ¬ f.Occurs source.clients target.clients) :
    Imported source target fault
      (match replaceExpiry source.expiry target.expiry fault with
        | (expiry, false) => ({ target with amnezia, clients, expiry }, some .os)
        | (expiry, true) => ({ target with amnezia, clients, expiry }, none)) := by
  -- the trees are the source's, so they are the target's if the two agree
  have hTrees : (SameFiles amnezia target.amnezia ∧ SameFiles clients target.clients) ↔
      SameFiles target.amnezia source.amnezia ∧ SameFiles target.clients source.clients :=
    and_congr (sameFiles_iff hAmnezia) (sameFiles_iff hClients)
  have hReturns : ∀ {expiry}, expiry = source.expiry →
      (∀ f, fault = some f → f.Harmless source target) →
      Imported source target fault ({ target with amnezia, clients, expiry }, none) :=
    fun hExpiry hHarmless =>
      .inl ⟨rfl, covered_eq_iff.mpr ⟨hAmnezia, hClients, hExpiry⟩, hHarmless⟩
  have hRaises : ∀ {f expiry}, fault = some f →
      ((SameFiles target.amnezia source.amnezia ∧ SameFiles target.clients source.clients) ∧
        expiry = target.expiry ↔ f.Harmless source target) →
      Imported source target fault ({ target with amnezia, clients, expiry }, some .os) := by
    intro f expiry hFault hIff
    refine .inr ⟨rfl, ?_⟩
    rw [covered_eq_iff, forall_fault hFault, ← hIff, ← hTrees, and_assoc]
  match fault with
  | none =>
    have hOut : replaceExpiry source.expiry target.expiry none = (source.expiry, true) := by
      cases source.expiry <;> simp [replaceExpiry]
    rw [hOut]
    exact hReturns rfl nofun
  | some .extract =>
    have hOut : replaceExpiry source.expiry target.expiry (some .extract) =
        (source.expiry, true) := by
      cases source.expiry <;> simp [replaceExpiry]
    rw [hOut]
    exact hReturns rfl ((forall_fault rfl).mpr trivial)
  | some (.tree root f) =>
    have hOut : replaceExpiry source.expiry target.expiry (some (.tree root f)) =
        (source.expiry, true) := by
      cases source.expiry <;> simp [replaceExpiry]
    rw [hOut]
    refine hReturns rfl ((forall_fault rfl).mpr ?_)
    cases root with
    | amnezia => exact fun hOccurs => absurd hOccurs (hNotA f rfl)
    | clients => exact fun hOccurs => absurd hOccurs (hNotC f rfl)
  -- its directory cannot be made
  | some .expiryParent =>
    cases hExpiry : source.expiry with
    | none =>
      refine hReturns hExpiry.symm ((forall_fault rfl).mpr fun hSome => ?_)
      rw [hExpiry] at hSome
      cases hSome
    | some content =>
      refine hRaises rfl ⟨fun hBoth _ => hBoth.1, fun hHarmless => ⟨hHarmless ?_, rfl⟩⟩
      rw [hExpiry]
      rfl
  | some (.expiryCopy left) =>
    cases hExpiry : source.expiry with
    | none =>
      refine hReturns hExpiry.symm ((forall_fault rfl).mpr fun hSome => ?_)
      rw [hExpiry] at hSome
      cases hSome
    | some content =>
      have hLeft : (left <|> target.expiry) = target.expiry ↔
          left = none ∨ left = target.expiry := by
        cases left <;> simp
      have hSome : source.expiry.isSome = true := by
        rw [hExpiry]
        rfl
      refine hRaises rfl ?_
      rw [hLeft, and_assoc]
      exact ⟨fun hAll _ => hAll, fun hHarmless => hHarmless hSome⟩
  -- the target's file cannot be removed
  | some .expiryUnlink =>
    cases hExpiry : source.expiry with
    | some content =>
      refine hReturns hExpiry.symm ((forall_fault rfl).mpr fun hNone => ?_)
      rw [hExpiry] at hNone
      cases hNone
    | none =>
      cases hTarget : target.expiry with
      | none =>
        refine hReturns hExpiry.symm ((forall_fault rfl).mpr fun _ hSome => ?_)
        rw [hTarget] at hSome
        cases hSome
      | some old =>
        refine hRaises rfl ⟨fun hBoth _ _ => hBoth.1, fun hHarmless => ⟨hHarmless hExpiry ?_, ?_⟩⟩
        · rw [hTarget]
          rfl
        · exact hTarget.symm

/-- **The layer.** -/
theorem replaceAwg2Snapshot_spec {amnezia clients : Tree}
    (hAmnezia : Extracted amnezia source.amnezia) (hClients : Extracted clients source.clients)
    (hFilesA : amnezia.hasFiles = true) (hFilesC : clients.hasFiles = true) :
    Imported source target fault
      (replaceAwg2Snapshot target ⟨some amnezia, some clients, source.expiry⟩ fault) := by
  rw [replaceAwg2Snapshot, if_neg (by simp [treeHasFiles, hFilesA, hFilesC])]
  have hSpecA : Replaced source.amnezia target.amnezia (Fault.under .amnezia fault) _ :=
    replaceTree_spec hAmnezia _
  have hSpecC : Replaced source.clients target.clients (Fault.under .clients fault) _ :=
    replaceTree_spec hClients _
  dsimp only
  generalize replaceTreeFromSnapshot (some amnezia) target.amnezia (Fault.under .amnezia fault) =
    outA at hSpecA ⊢
  generalize replaceTreeFromSnapshot (some clients) target.clients (Fault.under .clients fault) =
    outC at hSpecC ⊢
  obtain ⟨restA, okA⟩ := outA
  obtain ⟨restC, okC⟩ := outC
  rcases hSpecA with ⟨rfl, hSameA, hNotA⟩ | ⟨rfl, f, hFault, hOccurs, hIff⟩
  · rcases hSpecC with ⟨rfl, hSameC, hNotC⟩ | ⟨rfl, f, hFault, hOccurs, hIff⟩
    · exact replaceExpiry_spec hSameA hSameC (fun f hFault => hNotA f (under_eq_some.mpr hFault))
        fun f hFault => hNotC f (under_eq_some.mpr hFault)
    · refine .inr ⟨rfl, ?_⟩
      rw [forall_fault (under_eq_some.mp hFault), covered_eq_iff]
      dsimp only
      rw [hIff, sameFiles_iff hSameA]
      exact ⟨fun hAll _ => ⟨hAll.1, hAll.2.1⟩,
        fun hHarmless => ⟨(hHarmless hOccurs).1, (hHarmless hOccurs).2, rfl⟩⟩
  · refine .inr ⟨rfl, ?_⟩
    rw [forall_fault (under_eq_some.mp hFault), covered_eq_iff]
    dsimp only
    rw [hIff]
    exact ⟨fun hAll _ => hAll.1, fun hHarmless => ⟨hHarmless hOccurs, fun _ => rfl, rfl⟩⟩

/-- The directory of a tree in an extracted archive. -/
theorem subdir_spec {root : Tree} {name : FileName} {tree : Option Tree}
    (hRoot : ∀ path, root.file? (name :: path) = coveredFile tree path) :
    (HasCovered tree → ∃ files, subdir root name = some files ∧ Extracted files tree ∧
        files.hasFiles = true) ∧
      (¬ HasCovered tree → subdir root name = none) := by
  have hFiles : (root.below name).hasFiles = true ↔ HasCovered tree := by
    rw [FileTree.hasFiles_iff]
    refine exists_congr fun path => ?_
    rw [FileTree.file?_below, hRoot path, Option.isSome_iff_exists]
  constructor
  · intro hHas
    exact ⟨root.below name, if_pos (hFiles.mpr hHas), hRoot, hFiles.mpr hHas⟩
  · intro hNot
    exact if_neg fun h => hNot (hFiles.mp h)

/-- **An export and its import**, for every fault. -/
theorem exact_iff (odd : List Member → Option Tree) (source target : Layer) (fault : Option Fault) :
    Exact Layer.covered (exportStateArchive source) source target
        (fun data => importStateArchive target odd data fault) ↔
      (source.isInstalled = true → Copyable source target fault) := by
  -- no layer, no archive
  by_cases hSource : source.isInstalled = true
  swap
  · have hExport : exportStateArchive source = .error (.notInstalled source.missing) :=
      if_neg hSource
    rw [hExport]
    exact iff_of_true ⟨nofun, nofun, nofun⟩ fun h => absurd h hSource
  rw [exportStateArchive_eq hSource, forall_prop_of_true hSource, Copyable]
  by_cases hTarget : target.isInstalled = true
  swap
  · have hRefused : (importStateArchive target odd
        (.members (source.entries.map fun e => .file e.1 e.2)) fault).2 =
        some (.notInstalled target.missing) := by
      simp [importStateArchive, hTarget]
    exact iff_of_false (not_exact_of_error hRefused nofun) fun h => hTarget h.1
  rw [and_iff_right hTarget]
  by_cases hExtract : fault = some .extract
  · refine iff_of_true ((exact_iff_of_os ?_).mpr ?_) (.inl hExtract)
    · simp [importStateArchive, hTarget, hExtract]
    · simp [importStateArchive, hTarget, hExtract]
  rw [or_iff_right hExtract]
  -- the extracted tree holds the covered files of the source
  obtain ⟨root, hRoot, hFiles⟩ := extractall_map odd (entries_apart source)
  have hCovered : ∀ name path, name ≠ manifestName →
      root.file? (name :: path) = source.covered (name :: path) := by
    intro name path hName
    refine Option.ext fun c => ?_
    rw [hFiles, mem_entries hName]
  have hImport : importStateArchive target odd
      (.members (source.entries.map fun e => .file e.1 e.2)) fault =
      replaceAwg2Snapshot target
        ⟨subdir root amneziawg, subdir root clientsDir, source.expiry⟩ fault := by
    rw [← covered_expiry source, ← hCovered awgstate [expiryTsv] (by decide)]
    simp [importStateArchive, hTarget, hExtract, hRoot]
  obtain ⟨hSomeA, hNoneA⟩ := subdir_spec fun path =>
    (hCovered amneziawg path (by decide)).trans (covered_amnezia source path)
  obtain ⟨hSomeC, hNoneC⟩ := subdir_spec fun path =>
    (hCovered clientsDir path (by decide)).trans (covered_clients source path)
  by_cases hHas : HasCovered source.amnezia ∧ HasCovered source.clients
  · obtain ⟨amnezia, hSubdirA, hAmnezia, hFilesA⟩ := hSomeA hHas.1
    obtain ⟨clients, hSubdirC, hClients, hFilesC⟩ := hSomeC hHas.2
    rw [hSubdirA, hSubdirC] at hImport
    have hSpec : Imported source target fault _ :=
      replaceAwg2Snapshot_spec hAmnezia hClients hFilesA hFilesC
    rw [← hImport] at hSpec
    rcases hSpec with ⟨hReturns, hCopied, hHarmless⟩ | ⟨hRaises, hIff⟩
    · exact iff_of_true ((exact_iff_of_returns hReturns).mpr hCopied) ⟨hHas.1, hHas.2, hHarmless⟩
    · rw [exact_iff_of_os hRaises, hIff, and_iff_right hHas.1, and_iff_right hHas.2]
  · -- the importer refuses an archive without clients
    have hRefused : (replaceAwg2Snapshot target ⟨subdir root amneziawg, subdir root clientsDir,
        source.expiry⟩ fault).2 = some (.value
          "AWG2 archive must contain both amneziawg/ and clients/ files before import") := by
      rw [replaceAwg2Snapshot, if_pos]
      rcases not_and_or.mp hHas with hNot | hNot
      · rw [hNoneA hNot]
        rfl
      · rw [hNoneC hNot]
        simp [treeHasFiles]
    rw [← hImport] at hRefused
    refine iff_of_false (not_exact_of_error hRefused nofun) ?_
    rintro ⟨hA, hC, -⟩
    exact hHas ⟨hA, hC⟩

/-- A refusal comes before the first file operation. -/
theorem replaceAwg2Snapshot_refused {snapshot : Snapshot} {e : ImportError}
    (hOut : (replaceAwg2Snapshot target snapshot fault).2 = some e) (hOther : e ≠ .os) :
    (replaceAwg2Snapshot target snapshot fault).1 = target := by
  unfold replaceAwg2Snapshot at hOut ⊢
  split_ifs with hFiles
  · rfl
  rw [if_neg hFiles] at hOut
  generalize replaceTreeFromSnapshot snapshot.amnezia target.amnezia
    (Fault.under .amnezia fault) = outA at hOut
  generalize replaceTreeFromSnapshot snapshot.clients target.clients
    (Fault.under .clients fault) = outC at hOut
  generalize replaceExpiry snapshot.expiry target.expiry fault = outE at hOut
  obtain ⟨restA, _ | _⟩ := outA
  · exact absurd (Option.some.inj hOut).symm hOther
  · obtain ⟨restC, _ | _⟩ := outC
    · exact absurd (Option.some.inj hOut).symm hOther
    · obtain ⟨restE, _ | _⟩ := outE
      · exact absurd (Option.some.inj hOut).symm hOther
      · cases hOut

/-- Whatever the archive: an import that raises for another reason than a file operation has not
changed anything. -/
theorem unchanged_of_refused {odd : List Member → Option Tree} {data : ArchiveData}
    {e : ImportError} (hOut : (importStateArchive target odd data fault).2 = some e)
    (hOther : e ≠ .os) : (importStateArchive target odd data fault).1 = target := by
  unfold importStateArchive at hOut ⊢
  split_ifs with hEmpty hInstalled hExtract
  · rfl
  · rfl
  · rfl
  · rw [if_neg hEmpty, if_neg hInstalled, if_neg hExtract] at hOut
    match data with
    | .empty | .damaged => rfl
    | .members ms =>
      dsimp only at hOut ⊢
      cases hRoot : extractall odd ms with
      | none => rfl
      | some root =>
        rw [hRoot] at hOut
        exact replaceAwg2Snapshot_refused hOut hOther

end

end AdminPanel.Backup.Layers.Awg2
