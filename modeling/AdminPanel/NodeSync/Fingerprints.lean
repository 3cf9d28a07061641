import AdminPanel.Backup.LayerArchives
import AdminPanel.Lib.Records
import Mathlib.Data.List.Dedup
import Mathlib.Data.List.Lex
import Mathlib.Data.String.Basic

/-!
# Fingerprints of a node's files

`node_sync/fingerprints.py` hashes the files of a node, and `verify.py` compares the hashes of a
primary with those of a replica. The names and contents of a directory go into one hash, sorted
by name, with nothing between them.

* `sha256DirectoryTree`, `sha256NamedFiles`, `collectAntizapretFingerprints` — the fingerprints;
* `fingerprintMismatches` — what a check of a group reports of them;
* `MeansEqual` — equal fingerprints mean equal files;
* `SpelledApart` — two sets of files that do not spell the same text in different layouts;
* `meansEqual_iff` — fingerprints tell two nodes apart exactly under this condition.

A name that is no valid Unicode raises in `encode` and is left out. The paths that callers of
`_sha256_named_files` give are of one directory, and stand here for their names.
-/

namespace AdminPanel.NodeSync.Fingerprints

open List

open Lib (Table FileTree fingerprint SpelledApart sortedRecords told_iff)
open Backup.Layers (FileName)

/-! ## Files -/

abbrev Bytes := List UInt8

/-- The files below a directory, by the names on the way to them. -/
structure Tree extends FileTree FileName Bytes where
  root : [] ∉ files.keys

abbrev Directory := Table FileName Bytes

/-- `str.encode()` -/
def encode (text : String) : Bytes := text.toList.flatMap String.utf8EncodeChar

/-- `path.as_posix()` -/
def asPosix : List FileName → String
  | [] => ""
  | [name] => name.1
  | name :: path => name.1 ++ "/" ++ asPosix path

/-- What a node has at the paths that are hashed; no directory is `none`. -/
structure NodeFiles where
  easyrsa : FileName → Option Bytes
  wireguard : FileName → Option Bytes
  clientOpenvpn : Option Tree
  config : Option Directory

section

variable {Digest : Type} (sha256 : Bytes → Digest)

/-! ## Hashing -/

/-- `_sha256_file`. Feeding a content in chunks is feeding all of it. -/
def sha256File (content : Option Bytes) : Option Digest := content.map sha256

/-- The files of a tree, sorted by path. -/
def sortedFiles (tree : Tree) : List (List FileName × Bytes) :=
  sortedRecords tree.files.keys tree.file?

def sha256DirectoryTree (directory : Option Tree) : Option Digest :=
  match directory with
  | none => none
  | some tree =>
    let files := sortedFiles tree
    if files = [] then none
    else some (sha256 (files.foldl
      (fun hasher file => hasher ++ encode (asPosix file.1) ++ file.2) []))

/-- `_sha256_named_files` of a directory. -/
def sha256NamedFiles (file? : FileName → Option Bytes) (paths : List FileName) : Option Digest :=
  let (hasher, included) := (paths.insertionSort (· ≤ ·)).foldl
    (fun state path =>
      match file? path with
      | none => state
      | some content => (state.1 ++ encode path.1 ++ content, true)) ([], false)
  if included then some (sha256 hasher) else none

/-- `_sha256_directory_glob` for the pattern `*`. -/
def sha256DirectoryGlob (directory : Option Directory) (excludeNames : List String) :
    Option Digest :=
  match directory with
  | none => none
  | some files =>
    sha256NamedFiles sha256 files.row? (files.keys.filter fun name => name.1 ∉ excludeNames)

def configFingerprintExclude : List String := ["warper-include-ips.txt"]

def configFpPrefix : String := "antizapret/config"

/-- `collect_config_file_fingerprints`, as its items. -/
def collectConfigFileFingerprints (directory : Option Directory) (excludeNames : List String) :
    List (String × Digest) :=
  match directory with
  | none => []
  | some files =>
    ((files.keys.insertionSort (· ≤ ·)).filter fun name => name.1 ∉ excludeNames).filterMap
      fun name => (sha256File sha256 (files.row? name)).map (name.1, ·)

section

variable (fingerprints : Table String Digest)

/-- `if digest: fingerprints[key] = digest` -/
def putDigest (key : String) (digest : Option Digest) : Table String Digest :=
  match digest with
  | none => fingerprints
  | some digest => fingerprints.set key digest

/-- The PKI files of `collect_antizapret_fingerprints`, in `/etc/openvpn/easyrsa3/pki`. -/
def pkiEntries : List FileName :=
  [⟨"ca.crt", by decide⟩, ⟨"crl.pem", by decide⟩, ⟨"index.txt", by decide⟩,
    ⟨"serial", by decide⟩]

/-- The files of `WG_CONFIG_FILES`, in `/etc/wireguard`. -/
def wgConfigFiles : List FileName := [⟨"antizapret.conf", by decide⟩, ⟨"vpn.conf", by decide⟩]

def putConfigDigest (entry : String × Digest) : Table String Digest :=
  fingerprints.set (configFpPrefix ++ "/" ++ entry.1) entry.2

def collectAntizapretFingerprints (node : NodeFiles) : Table String Digest :=
  let fingerprints := pkiEntries.foldl
    (fun fingerprints name =>
      putDigest fingerprints ("easyrsa3/pki/" ++ name.1) (sha256File sha256 (node.easyrsa name)))
    Table.empty
  let fingerprints := putDigest fingerprints "wireguard/conf_files"
    (sha256NamedFiles sha256 node.wireguard wgConfigFiles)
  let fingerprints := putDigest fingerprints "openvpn/client_profiles"
    (sha256DirectoryTree sha256 node.clientOpenvpn)
  let fingerprints :=
    (collectConfigFileFingerprints sha256 node.config configFingerprintExclude).foldl
      putConfigDigest fingerprints
  putDigest fingerprints configFpPrefix
    (sha256DirectoryGlob sha256 node.config configFingerprintExclude)

/-! ## `verify.py` -/

/-- A key of one config file. -/
def isConfigFileKey (key : String) : Bool :=
  (configFpPrefix ++ "/").toList.isPrefixOf key.toList

def configFileMaps : List (String × Digest) :=
  (fingerprints.keys.filter isConfigFileKey).filterMap fun key =>
    (fingerprints.row? key).map
      (String.ofList (key.toList.drop (configFpPrefix ++ "/").length), ·)

/-- `_enrich_config_fingerprints`; `fileHashes` is the node's answer, none if it has failed. -/
def enrichConfigFingerprints (fileHashes : Option (List (String × Digest))) : Table String Digest :=
  if configFileMaps fingerprints ≠ [] then fingerprints
  else (fileHashes.getD []).foldl putConfigDigest fingerprints

end

structure ConfigFilesDiff where
  changedFiles : List String
  onlyPrimary : List String
  onlyReplica : List String
  detail : Option String := none
  deriving DecidableEq, Repr

structure FingerprintMismatch (Digest : Type) where
  path : String
  primary : Option Digest
  replica : Option Digest
  configDiff : Option ConfigFilesDiff := none

variable [DecidableEq Digest]

def configFilesDiff (primaryFp replicaFp : Table String Digest) : Option ConfigFilesDiff :=
  let primaryFiles := configFileMaps primaryFp
  let replicaFiles := configFileMaps replicaFp
  let names := ((primaryFiles ++ replicaFiles).map Prod.fst).dedup.insertionSort (· ≤ ·)
  let hashOf := fun (files : List (String × Digest)) name => files.lookup name
  let both := !primaryFiles.isEmpty && !replicaFiles.isEmpty
  let onlyReplica := names.filter fun name => both && (hashOf primaryFiles name).isNone
  let onlyPrimary := names.filter fun name =>
    both && (hashOf primaryFiles name).isSome && (hashOf replicaFiles name).isNone
  let changedFiles := names.filter fun name =>
    both && (hashOf primaryFiles name).isSome && (hashOf replicaFiles name).isSome &&
      hashOf primaryFiles name != hashOf replicaFiles name
  let detail :=
    match primaryFiles.isEmpty, replicaFiles.isEmpty with
    | false, true => some
      "Детализация по файлам недоступна на реплике — обновите node agent и повторите проверку."
    | true, false => some
      "Детализация по файлам недоступна на основном узле — обновите node agent и повторите проверку."
    | _, _ => none
  if primaryFp.row? configFpPrefix = replicaFp.row? configFpPrefix ∧ changedFiles = [] ∧
      onlyPrimary = [] ∧ onlyReplica = [] ∧ detail = none then none
  else some ⟨changedFiles, onlyPrimary, onlyReplica, detail⟩

def fingerprintMismatches (primaryFp replicaFp : Table String Digest) :
    List (FingerprintMismatch Digest) :=
  let keys := ((primaryFp.keys ++ replicaFp.keys).dedup.filter fun key =>
    key ≠ configFpPrefix && !isConfigFileKey key).insertionSort (· ≤ ·)
  let mismatches := (keys.filter fun key => primaryFp.row? key != replicaFp.row? key).map
    fun key => ⟨key, primaryFp.row? key, replicaFp.row? key, none⟩
  match configFilesDiff primaryFp replicaFp with
  | none => mismatches
  | some diff => mismatches ++
    [⟨configFpPrefix, primaryFp.row? configFpPrefix, replicaFp.row? configFpPrefix, some diff⟩]

/-- A check of a node as primary and another one as replica, with what their agents answer when
they are asked for config files. -/
def checkedMismatches (primary replica : NodeFiles)
    (primaryHashes replicaHashes : Option (List (String × Digest))) :
    List (FingerprintMismatch Digest) :=
  fingerprintMismatches
    (enrichConfigFingerprints (collectAntizapretFingerprints sha256 primary) primaryHashes)
    (enrichConfigFingerprints (collectAntizapretFingerprints sha256 replica) replicaHashes)

end

/-! ## What equal fingerprints must mean -/

/-- The file of a directory at a path. -/
def fileAt (directory : Option Tree) (path : List FileName) : Option Bytes :=
  directory.bind fun tree => tree.file? path

/-- Some paths of a directory, whether or not there are files. -/
structure NamedFiles where
  file? : FileName → Option Bytes
  paths : List FileName
  nodup : paths.Nodup

def NamedFiles.content (named : NamedFiles) (name : FileName) : Option Bytes :=
  if name ∈ named.paths then named.file? name else none

def NodeFiles.wgFiles (node : NodeFiles) : NamedFiles where
  file? := node.wireguard
  paths := wgConfigFiles
  nodup := by decide

/-- Equal fingerprints of two trees, of two sets of named files, and in a check of two nodes. -/
structure MeansEqual {Digest : Type} [DecidableEq Digest] (sha256 : Bytes → Digest)
    (s t : Option Tree) (a b : NamedFiles) (primary replica : NodeFiles) : Prop where
  tree : sha256DirectoryTree sha256 s = sha256DirectoryTree sha256 t ↔
    ∀ path, fileAt s path = fileAt t path
  noTree : sha256DirectoryTree sha256 s = none ↔ ∀ path, fileAt s path = none
  named : sha256NamedFiles sha256 a.file? a.paths = sha256NamedFiles sha256 b.file? b.paths ↔
    ∀ name, a.content name = b.content name
  noNamed : sha256NamedFiles sha256 a.file? a.paths = none ↔ ∀ name, a.content name = none
  profiles : ∀ primaryHashes replicaHashes,
    (∀ m ∈ checkedMismatches sha256 primary replica primaryHashes replicaHashes,
      m.path ≠ "openvpn/client_profiles") →
    ∀ path, fileAt primary.clientOpenvpn path = fileAt replica.clientOpenvpn path
  wireguard : ∀ primaryHashes replicaHashes,
    (∀ m ∈ checkedMismatches sha256 primary replica primaryHashes replicaHashes,
      m.path ≠ "wireguard/conf_files") →
    ∀ name ∈ wgConfigFiles, primary.wireguard name = replica.wireguard name

/-- The files of a directory as they are hashed. -/
def treeRecords (directory : Option Tree) : List (List FileName × Bytes) :=
  (directory.map sortedFiles).getD []

def NamedFiles.records (named : NamedFiles) : List (FileName × Bytes) :=
  sortedRecords named.paths named.file?

/-- The files have the same names and sizes, or do not spell the same text. -/
def TreesApart (s t : Option Tree) : Prop :=
  SpelledApart (fun path => encode (asPosix path)) (treeRecords s) (treeRecords t)

def NamedApart (a b : NamedFiles) : Prop :=
  SpelledApart (fun name => encode name.1) a.records b.records

instance (s t : Option Tree) : Decidable (TreesApart s t) :=
  inferInstanceAs (Decidable (SpelledApart _ _ _))

instance (a b : NamedFiles) : Decidable (NamedApart a b) :=
  inferInstanceAs (Decidable (SpelledApart _ _ _))

/-! ## Names -/

theorem encode_ne_nil {text : String} (h : text ≠ "") : encode text ≠ [] := by
  cases hChars : text.toList with
  | nil => exact absurd (String.toList_eq_nil_iff.mp hChars) h
  | cons c chars =>
    rw [encode, hChars, flatMap_cons]
    exact append_ne_nil_of_left_ne_nil String.utf8EncodeChar_ne_nil _

theorem name_ne_empty (name : FileName) : name.1 ≠ "" := by
  obtain ⟨text, hName⟩ := name
  rintro rfl
  exact absurd hName (by decide)

theorem asPosix_ne_empty {path : List FileName} (h : path ≠ []) : asPosix path ≠ "" := by
  match path with
  | [] => exact absurd rfl h
  | [name] => exact name_ne_empty name
  | name :: next :: path =>
    intro hEmpty
    rw [asPosix, String.append_eq_empty_iff, String.append_eq_empty_iff] at hEmpty
    · exact name_ne_empty name hEmpty.1.1
    · exact cons_ne_nil _ _

/-! ## The hashes of files -/

section

variable {Digest : Type} {sha256 : Bytes → Digest}

theorem sha256DirectoryTree_eq (directory : Option Tree) :
    sha256DirectoryTree sha256 directory =
      fingerprint sha256 (fun path => encode (asPosix path)) (treeRecords directory) := by
  cases directory with
  | none => rfl
  | some tree =>
    show (if sortedFiles tree = [] then none else some (sha256 _)) = fingerprint _ _ (sortedFiles tree)
    rw [fingerprint, ← nil_append (Lib.spelled _ _), ← Lib.foldl_spelled]

theorem sha256NamedFiles_eq (file? : FileName → Option Bytes) (paths : List FileName) :
    sha256NamedFiles sha256 file? paths =
      fingerprint sha256 (fun name => encode name.1) (sortedRecords paths file?) := by
  have hFold : ∀ (names : List FileName) (state : Bytes × Bool),
      names.foldl (fun state name => match file? name with
        | none => state
        | some content => (state.1 ++ encode name.1 ++ content, true)) state =
      (state.1 ++ Lib.spelled (fun name => encode name.1)
          (names.filterMap fun name => (file? name).map (name, ·)),
        state.2 || !(names.filterMap fun name => (file? name).map (name, ·)).isEmpty) := by
    intro names
    induction names with
    | nil => intro state; simp [Lib.spelled]
    | cons name names ih =>
      intro state
      rw [foldl_cons, ih, filterMap_cons]
      cases file? name with
      | none => rfl
      | some content => simp [Lib.spelled]
  rw [sha256NamedFiles, hFold, fingerprint, ← sortedRecords]
  cases sortedRecords paths file? <;> rfl

theorem encode_treeRecords {directory : Option Tree} {e : List FileName × Bytes}
    (h : e ∈ treeRecords directory) : encode (asPosix e.1) ≠ [] := by
  cases directory with
  | none => cases h
  | some tree =>
    refine encode_ne_nil (asPosix_ne_empty fun hRoot => tree.root ?_)
    exact hRoot ▸ (Lib.mem_sortedRecords.mp h).1

/-- A file stands under a path of the records. -/
theorem mem_treeRecords {directory : Option Tree} {path : List FileName} {content : Bytes} :
    (path, content) ∈ treeRecords directory ↔ fileAt directory path = some content := by
  cases directory with
  | none => exact iff_of_false not_mem_nil (Option.some_ne_none content).symm
  | some tree =>
    show (path, content) ∈ sortedRecords tree.files.keys tree.file? ↔ tree.file? path = some content
    rw [Lib.mem_sortedRecords, and_iff_right_iff_imp]
    exact Table.mem_keys_of_row?

theorem treeRecords_eq (directory : Option Tree) : treeRecords directory =
    sortedRecords ((directory.map fun tree => tree.files.keys).getD []) (fileAt directory) := by
  cases directory <;> rfl

theorem nodup_keys (directory : Option Tree) :
    ((directory.map fun tree => tree.files.keys).getD []).Nodup := by
  cases directory with
  | none => exact nodup_nil
  | some tree => exact tree.files.nodup

theorem treeRecords_eq_iff (s t : Option Tree) :
    treeRecords s = treeRecords t ↔ ∀ path, fileAt s path = fileAt t path := by
  constructor
  · intro h path
    refine Option.ext fun content => ?_
    rw [← mem_treeRecords, ← mem_treeRecords, h]
  · intro h
    rw [treeRecords_eq, treeRecords_eq, Lib.sortedRecords_eq_iff (nodup_keys s) (nodup_keys t)]
    intro path content
    have hMem := fun directory => (Lib.mem_sortedRecords (e := (path, content))).symm.trans
      (treeRecords_eq directory ▸ mem_treeRecords)
    rw [hMem s, hMem t, h]

theorem treeRecords_eq_nil (s : Option Tree) :
    treeRecords s = [] ↔ ∀ path, fileAt s path = none := by
  have hNone : treeRecords none = [] := rfl
  rw [← hNone, treeRecords_eq_iff]
  rfl

theorem NamedFiles.content_eq_some {named : NamedFiles} {name : FileName} {c : Bytes} :
    named.content name = some c ↔ name ∈ named.paths ∧ named.file? name = some c := by
  rw [NamedFiles.content]
  by_cases h : name ∈ named.paths <;> simp [h]

theorem records_eq_iff (a b : NamedFiles) :
    a.records = b.records ↔ ∀ name, a.content name = b.content name := by
  rw [NamedFiles.records, NamedFiles.records, Lib.sortedRecords_eq_iff a.nodup b.nodup]
  refine forall_congr' fun name => ?_
  rw [Option.ext_iff]
  exact forall_congr' fun c => by rw [NamedFiles.content_eq_some, NamedFiles.content_eq_some]

theorem records_eq_nil (a : NamedFiles) : a.records = [] ↔ ∀ name, a.content name = none := by
  rw [NamedFiles.records, Lib.sortedRecords_eq_nil]
  refine forall_congr' fun name => ?_
  rw [NamedFiles.content]
  by_cases h : name ∈ a.paths <;> simp [h]

theorem wgFiles_content_iff {x y : NodeFiles} :
    (∀ name, x.wgFiles.content name = y.wgFiles.content name) ↔
      ∀ name ∈ wgConfigFiles, x.wireguard name = y.wireguard name := by
  refine forall_congr' fun name => ?_
  rw [NamedFiles.content, NamedFiles.content]
  show ((if name ∈ wgConfigFiles then _ else none) = if name ∈ wgConfigFiles then _ else none) ↔ _
  by_cases h : name ∈ wgConfigFiles
  · rw [if_pos h, if_pos h]
    exact ⟨fun hEq _ => hEq, fun hEq => hEq h⟩
  · rw [if_neg h, if_neg h]
    exact ⟨fun _ hMem => absurd hMem h, fun _ => rfl⟩

/-- **Trees are told apart** exactly when they are spelled apart. -/
theorem tree_told_iff (hSha : Function.Injective sha256) (s t : Option Tree) :
    (sha256DirectoryTree sha256 s = sha256DirectoryTree sha256 t ↔
      ∀ path, fileAt s path = fileAt t path) ↔ TreesApart s t := by
  rw [sha256DirectoryTree_eq, sha256DirectoryTree_eq, ← treeRecords_eq_iff]
  exact told_iff hSha (fun _ => encode_treeRecords) fun _ => encode_treeRecords

/-- **Named files are told apart** exactly when they are spelled apart. -/
theorem named_told_iff (hSha : Function.Injective sha256) (a b : NamedFiles) :
    (sha256NamedFiles sha256 a.file? a.paths = sha256NamedFiles sha256 b.file? b.paths ↔
      ∀ name, a.content name = b.content name) ↔ NamedApart a b := by
  rw [sha256NamedFiles_eq, sha256NamedFiles_eq, ← records_eq_iff]
  exact told_iff hSha (fun e _ => encode_ne_nil (name_ne_empty e.1))
    fun e _ => encode_ne_nil (name_ne_empty e.1)

/-! ## What is collected -/

theorem row?_putDigest (t : Table String Digest) (key other : String) (digest : Option Digest) :
    (putDigest t key digest).row? other =
      if other = key then digest.or (t.row? other) else t.row? other := by
  cases digest with
  | none => simp [putDigest]
  | some digest =>
    by_cases h : other = key
    · subst h
      simp [putDigest]
    · rw [if_neg h]
      exact Table.row?_set_of_ne _ _ h

theorem isConfigFileKey_append (name : String) :
    isConfigFileKey (configFpPrefix ++ "/" ++ name) = true := by
  have hText : (configFpPrefix ++ "/" ++ name).toList =
      (configFpPrefix ++ "/").toList ++ name.toList := String.toList_append
  rw [isConfigFileKey, isPrefixOf_iff_prefix, hText]
  exact prefix_append _ _

theorem row?_putConfigDigests {key : String} (h : isConfigFileKey key = false)
    (entries : List (String × Digest)) (t : Table String Digest) :
    (entries.foldl putConfigDigest t).row? key = t.row? key := by
  induction entries generalizing t with
  | nil => rfl
  | cons entry entries ih =>
    rw [foldl_cons, ih]
    refine Table.row?_set_of_ne _ _ fun hKey => ?_
    rw [hKey, isConfigFileKey_append] at h
    cases h

theorem row?_enrich {key : String} (h : isConfigFileKey key = false) (t : Table String Digest)
    (fileHashes : Option (List (String × Digest))) :
    (enrichConfigFingerprints t fileHashes).row? key = t.row? key := by
  rw [enrichConfigFingerprints]
  split
  · rfl
  · exact row?_putConfigDigests h _ t

theorem row?_profiles (node : NodeFiles) :
    (collectAntizapretFingerprints sha256 node).row? "openvpn/client_profiles" =
      sha256DirectoryTree sha256 node.clientOpenvpn := by
  have hKey : isConfigFileKey "openvpn/client_profiles" = false := by decide
  simp only [collectAntizapretFingerprints, row?_putDigest, row?_putConfigDigests hKey, pkiEntries,
    foldl_cons, foldl_nil, configFpPrefix]
  simp

theorem row?_wireguard (node : NodeFiles) :
    (collectAntizapretFingerprints sha256 node).row? "wireguard/conf_files" =
      sha256NamedFiles sha256 node.wgFiles.file? node.wgFiles.paths := by
  have hKey : isConfigFileKey "wireguard/conf_files" = false := by decide
  simp only [collectAntizapretFingerprints, row?_putDigest, row?_putConfigDigests hKey, pkiEntries,
    foldl_cons, foldl_nil, configFpPrefix]
  simp [NodeFiles.wgFiles]

variable [DecidableEq Digest]

/-- A check reports a key exactly when the two nodes differ in it. -/
theorem mismatch_iff {key : String} (hKey : isConfigFileKey key = false)
    (hNe : key ≠ configFpPrefix) (primaryFp replicaFp : Table String Digest) :
    (∀ m ∈ fingerprintMismatches primaryFp replicaFp, m.path ≠ key) ↔
      primaryFp.row? key = replicaFp.row? key := by
  have hMem : (∃ m ∈ fingerprintMismatches primaryFp replicaFp, m.path = key) ↔
      (key ∈ primaryFp.keys ∨ key ∈ replicaFp.keys) ∧ primaryFp.row? key ≠ replicaFp.row? key := by
    rw [fingerprintMismatches]
    cases configFilesDiff primaryFp replicaFp with
    | none => simp [hKey, hNe, and_assoc, mem_dedup]
    | some diff =>
      have hOther : configFpPrefix ≠ key := Ne.symm hNe
      simp [hKey, hNe, hOther, mem_dedup]
  rw [← not_iff_not]
  push Not
  rw [hMem, and_iff_right_iff_imp]
  intro hDiffer
  rw [primaryFp.mem_keys, replicaFp.mem_keys]
  by_contra hNone
  rw [not_or, Option.not_isSome_iff_eq_none, Option.not_isSome_iff_eq_none] at hNone
  exact hDiffer (hNone.1.trans hNone.2.symm)

/-- **Equal fingerprints mean equal files** exactly when the files are spelled apart. -/
theorem meansEqual_iff (hSha : Function.Injective sha256) (s t : Option Tree) (a b : NamedFiles)
    (primary replica : NodeFiles) : MeansEqual sha256 s t a b primary replica ↔
      TreesApart s t ∧ NamedApart a b ∧
        TreesApart primary.clientOpenvpn replica.clientOpenvpn ∧
        NamedApart primary.wgFiles replica.wgFiles := by
  -- a side without files has no digest
  have hNoTree : sha256DirectoryTree sha256 s = none ↔ ∀ path, fileAt s path = none := by
    rw [sha256DirectoryTree_eq, Lib.fingerprint_eq_none, treeRecords_eq_nil]
  have hNoNamed : sha256NamedFiles sha256 a.file? a.paths = none ↔
      ∀ name, a.content name = none := by
    rw [sha256NamedFiles_eq, Lib.fingerprint_eq_none]
    exact records_eq_nil a
  -- these two keys are compared as they are
  have hProfiles : isConfigFileKey "openvpn/client_profiles" = false := by decide
  have hWireguard : isConfigFileKey "wireguard/conf_files" = false := by decide
  rw [← tree_told_iff hSha s t, ← named_told_iff hSha a b, ← tree_told_iff hSha,
    ← named_told_iff hSha]
  constructor
  · rintro ⟨hTree, -, hNamed, -, hSameProfiles, hSameWireguard⟩
    refine ⟨hTree, hNamed, ⟨?_, ?_⟩, ⟨?_, ?_⟩⟩
    · intro hEq
      refine hSameProfiles none none ?_
      rw [checkedMismatches, mismatch_iff hProfiles (by decide), row?_enrich hProfiles,
        row?_enrich hProfiles, row?_profiles, row?_profiles]
      exact hEq
    · intro hSame
      rw [sha256DirectoryTree_eq, sha256DirectoryTree_eq, (treeRecords_eq_iff _ _).mpr hSame]
    · intro hEq
      refine wgFiles_content_iff.mpr (hSameWireguard none none ?_)
      rw [checkedMismatches, mismatch_iff hWireguard (by decide), row?_enrich hWireguard,
        row?_enrich hWireguard, row?_wireguard, row?_wireguard]
      exact hEq
    · intro hSame
      rw [sha256NamedFiles_eq, sha256NamedFiles_eq]
      exact congrArg _ ((records_eq_iff _ _).mpr hSame)
  · rintro ⟨hTree, hNamed, hSameProfiles, hSameWireguard⟩
    refine ⟨hTree, hNoTree, hNamed, hNoNamed, ?_, ?_⟩
    · intro primaryHashes replicaHashes hQuiet
      rw [checkedMismatches, mismatch_iff hProfiles (by decide), row?_enrich hProfiles,
        row?_enrich hProfiles, row?_profiles, row?_profiles] at hQuiet
      exact hSameProfiles.mp hQuiet
    · intro primaryHashes replicaHashes hQuiet
      rw [checkedMismatches, mismatch_iff hWireguard (by decide), row?_enrich hWireguard,
        row?_enrich hWireguard, row?_wireguard, row?_wireguard] at hQuiet
      exact wgFiles_content_iff.mp (hSameWireguard.mp hQuiet)

end

/-! ## Two nodes -/

def annProfile : List FileName := [⟨"vpn", by decide⟩, ⟨"ann.ovpn", by decide⟩]

/-- A node with one profile and the given WireGuard configs. -/
def nodeWith (profile : String) (antizapretConf vpnConf : Option String) : NodeFiles where
  easyrsa := fun _ => none
  wireguard := fun name =>
    if name.1 = "antizapret.conf" then antizapretConf.map encode
    else if name.1 = "vpn.conf" then vpnConf.map encode
    else none
  clientOpenvpn := some {
    FileTree.ofEntries [(annProfile, encode profile)] (pairwise_singleton _ _) with
    root := fun h => cons_ne_nil _ _ (mem_singleton.mp h).symm }
  config := none

/-- Profiles and configs of the same sizes are told apart. -/
theorem meansEqual_sameSizes :
    MeansEqual (fun bytes => bytes) (nodeWith "remote a" none none).clientOpenvpn
      (nodeWith "remote b" none none).clientOpenvpn
      (nodeWith "" (some "[Peer]1") (some "")).wgFiles
      (nodeWith "" (some "[Peer]2") (some "")).wgFiles
      (nodeWith "remote a" (some "[Peer]1") (some ""))
      (nodeWith "remote b" (some "[Peer]2") (some "")) :=
  (meansEqual_iff (fun _ _ h => h) _ _ _ _ _ _).mpr (by decide)

/-- **A replica without `vpn.conf` passes for its primary**, whose peers of `vpn.conf` stand in
its `antizapret.conf`. -/
theorem not_always_meansEqual : ¬ MeansEqual (fun bytes => bytes)
    (nodeWith "remote a" none none).clientOpenvpn (nodeWith "remote a" none none).clientOpenvpn
    (nodeWith "" (some "[Peer]1") (some "[Peer]2")).wgFiles
    (nodeWith "" (some "[Peer]1vpn.conf[Peer]2") none).wgFiles
    (nodeWith "remote a" (some "[Peer]1") (some "[Peer]2"))
    (nodeWith "remote a" (some "[Peer]1vpn.conf[Peer]2") none) := by
  intro h
  have hQuiet : ∀ m ∈ checkedMismatches (fun bytes => bytes)
      (nodeWith "remote a" (some "[Peer]1") (some "[Peer]2"))
      (nodeWith "remote a" (some "[Peer]1vpn.conf[Peer]2") none) none none,
      m.path ≠ "wireguard/conf_files" := by
    have hKey : isConfigFileKey "wireguard/conf_files" = false := by decide
    rw [checkedMismatches, mismatch_iff hKey (by decide), row?_enrich hKey, row?_enrich hKey,
      row?_wireguard, row?_wireguard]
    decide
  have hSame := h.wireguard none none hQuiet ⟨"vpn.conf", by decide⟩ (by decide)
  exact absurd hSame (by decide)

end AdminPanel.NodeSync.Fingerprints
