import AdminPanel.Lib.FileTree

/-!
# Archives of the AmneziaWG layers

A node hands its AmneziaWG 2 or 3 layer out as a tar archive, and takes one in place of its own.

* `ArchiveData`, `extractall` — what the bytes of an archive hold, and what `tarfile` restores;
* `Exact` — an archive is copied exactly or not at all;
* `extractall_map` — an archive of files comes back;
* `exact_iff_of_returns`, `exact_iff_of_os` — what is left to show of an import.
-/

namespace AdminPanel.Backup.Layers

open Lib (FileTree)

/-! ## Archives -/

def isFileName (name : String) : Bool :=
  name ≠ "" && name ≠ "." && name ≠ ".." && !name.toList.contains '/'

abbrev FileName := { name : String // isFileName name = true }

abbrev Path := List FileName

abbrev Content := List Char

abbrev Tree := FileTree FileName Content

inductive Member where
  | file (path : Path) (content : Content)
  /-- A directory, a link, a device, or a name that leads somewhere else. -/
  | other (name : String)
  deriving DecidableEq

/-- The bytes of an archive. -/
inductive ArchiveData where
  | empty
  /-- What `tarfile` cannot read to its end. -/
  | damaged
  | members (ms : List Member)
  deriving DecidableEq

inductive ImportError where
  | notInstalled (missing : List String)
  | value (text : String)
  /-- Raised by `tarfile`. -/
  | tar
  /-- A file operation has failed. -/
  | os
  deriving DecidableEq

def manifestName : FileName := ⟨"MANIFEST", by decide⟩

/-- The members, if they are all files. -/
def plainFiles? : List Member → Option (List (Path × Content))
  | [] => some []
  | .file path content :: ms => (plainFiles? ms).map ((path, content) :: ·)
  | .other _ :: _ => none

/-- `extractall` with the data filter: files that are apart come back under their names. What it
makes of other members, `odd` says. -/
def extractall (odd : List Member → Option Tree) (ms : List Member) : Option Tree :=
  match plainFiles? ms with
  | some es =>
    if hApart : es.Pairwise fun e e' => Lib.Apart e.1 e'.1 then some (.ofEntries es hApart) else odd ms
  | none => odd ms

/-- An archive of one layer in place of another: exactly, or not at all. -/
structure Exact {L ι : Type} (covered : L → ι → Option Content)
    (archive : Except ImportError ArchiveData) (source target : L)
    (importArchive : ArchiveData → L × Option ImportError) : Prop where
  copied : ∀ data, archive = .ok data → (importArchive data).2 = none →
    ∀ k, covered (importArchive data).1 k = covered source k
  kept : ∀ data e, archive = .ok data → (importArchive data).2 = some e →
    ∀ k, covered (importArchive data).1 k = covered target k
  /-- It raises only when a file operation fails. -/
  accepted : ∀ data e, archive = .ok data → (importArchive data).2 = some e → e = .os

/-! ## What is extracted -/

theorem plainFiles?_map (es : List (Path × Content)) :
    plainFiles? (es.map fun e => .file e.1 e.2) = some es := by
  induction es with
  | nil => rfl
  | cons e es ih =>
    rw [List.map_cons, plainFiles?, ih]
    rfl

/-- An archive of files that are apart is restored. -/
theorem extractall_map (odd : List Member → Option Tree) {es : List (Path × Content)}
    (hApart : es.Pairwise fun e e' => Lib.Apart e.1 e'.1) :
    ∃ root, extractall odd (es.map fun e => .file e.1 e.2) = some root ∧
      ∀ p c, root.file? p = some c ↔ (p, c) ∈ es := by
  refine ⟨.ofEntries es hApart, ?_, fun p c => FileTree.file?_ofEntries es hApart⟩
  rw [extractall, plainFiles?_map]
  exact dif_pos hApart

section

variable {L ι : Type} {covered : L → ι → Option Content} {source target : L}
  {data : ArchiveData} {importArchive : ArchiveData → L × Option ImportError}

/-- An import that returns has to leave the source's files. -/
theorem exact_iff_of_returns (hOut : (importArchive data).2 = none) :
    Exact covered (.ok data) source target importArchive ↔
      ∀ k, covered (importArchive data).1 k = covered source k := by
  constructor
  · exact fun h => h.copied data rfl hOut
  intro hCopied
  refine ⟨?_, ?_, ?_⟩
  · rintro _ ⟨⟩ _
    exact hCopied
  · rintro _ e ⟨⟩ hError
    rw [hOut] at hError
    cases hError
  · rintro _ e ⟨⟩ hError
    rw [hOut] at hError
    cases hError

/-- A failing file operation has to leave the target as it was. -/
theorem exact_iff_of_os (hOut : (importArchive data).2 = some .os) :
    Exact covered (.ok data) source target importArchive ↔
      ∀ k, covered (importArchive data).1 k = covered target k := by
  constructor
  · exact fun h => h.kept data .os rfl hOut
  intro hKept
  refine ⟨?_, ?_, ?_⟩
  · rintro _ ⟨⟩ hNone
    rw [hOut] at hNone
    cases hNone
  · rintro _ e ⟨⟩ _
    exact hKept
  · rintro _ e ⟨⟩ hError
    exact (Option.mem_unique hOut hError).symm

theorem not_exact_of_error {e : ImportError} (hOut : (importArchive data).2 = some e)
    (hOther : e ≠ .os) : ¬ Exact covered (.ok data) source target importArchive :=
  fun h => hOther (h.accepted data e rfl hOut)

end

end AdminPanel.Backup.Layers
