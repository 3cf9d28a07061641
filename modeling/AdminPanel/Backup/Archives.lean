import AdminPanel.Lib.PyText
import AdminPanel.Lib.Runs
import AdminPanel.Lib.Table
import Mathlib.Data.List.Perm.Subperm

/-!
# Stored backups

`create_backup`, `import_uploaded_backup` and `delete_backup` write to one directory: an archive
`X.tar.gz` and its metadata `X.json` each. Older versions wrote the metadata of `X.tar.gz` to
`X.tar.json`, which is today the metadata of an archive `X.tar.tar.gz`; it is still read and still
removed.

* `Directory` — the files, under their names without `.tar.gz` and `.json`;
* `createBackup`, `importUploadedBackup`, `deleteBackup`, `enforceRetention` — as
  `backup_manager.py` has them;
* `Kept` — what has been reported is there until it is deleted or enough others are;
* `keepsOthers` — a call takes no name that is taken, and finds no `X.tar.tar.gz` beside an
  `X.tar.gz`;
* `archives_kept` — runs of such calls.
-/

namespace AdminPanel.Backup

open List

open Lib (Table Along exec exec_cons_iff invariant_exec)
open Lib.PyText (strip)

/-! ## Names -/

/-- `datetime.now(timezone.utc)` -/
structure Moment where
  year : ℕ
  month : ℕ
  day : ℕ
  hour : ℕ
  minute : ℕ
  second : ℕ
  microsecond : ℕ
  deriving DecidableEq, Repr

/-- The order of time. -/
def Moment.fields (m : Moment) : List ℕ :=
  [m.year, m.month, m.day, m.hour, m.minute, m.second, m.microsecond]

def digits (width n : ℕ) : String :=
  String.ofList (List.replicate (width - (toString n).length) '0') ++ toString n

/-- `strftime("%Y%m%d_%H%M%S")` -/
def Moment.seconds (m : Moment) : String :=
  digits 4 m.year ++ digits 2 m.month ++ digits 2 m.day ++ "_" ++ digits 2 m.hour ++
    digits 2 m.minute ++ digits 2 m.second

/-- `strftime("%Y-%m-%dT%H:%M:%SZ")` -/
def Moment.iso (m : Moment) : String :=
  digits 4 m.year ++ "-" ++ digits 2 m.month ++ "-" ++ digits 2 m.day ++ "T" ++
    digits 2 m.hour ++ ":" ++ digits 2 m.minute ++ ":" ++ digits 2 m.second ++ "Z"

def archiveSuffix : String := ".tar.gz"

def archivePrefix : String := "adminpanelaz_"

/-- The name of a new archive, without its suffix. -/
def createdName (now : Moment) : String :=
  archivePrefix ++ now.seconds ++ "_" ++ digits 6 now.microsecond

def uploadName (now : Moment) : String := archivePrefix ++ now.seconds ++ "_upload"

/-- `os.path.basename` -/
def basename (path : List Char) : List Char := path.rtakeWhile (· ≠ '/')

/-- The name of an archive without its suffix, if it has the suffix. -/
def archiveStem (name : List Char) : Option String :=
  if archiveSuffix.toList <:+ name then
    some (String.ofList (name.take (name.length - archiveSuffix.length)))
  else none

def uploadTargetName (originalName : Option String) (now : Moment) : String :=
  let safeName := strip (basename (originalName.getD "").toList)
  if archivePrefix.toList <+: safeName then (archiveStem safeName).getD (uploadName now)
  else uploadName now

/-! ## The directory -/

structure Metadata where
  createdAt : String
  components : List String
  summary : String
  source : Option String := none
  deriving DecidableEq, Repr

structure Archive (β : Type) where
  bytes : β
  mtime : Moment
  deriving DecidableEq

/-- Files under their names without `.tar.gz` and `.json`. -/
structure Directory (β : Type) where
  archives : Table String (Archive β)
  metas : Table String Metadata

/-- `Path(name).with_suffix(".json")` -/
def legacyMeta (name : String) : String := name ++ ".tar"

variable {report : Report}

section

variable {β : Type}

section

variable (d : Directory β)

def Directory.hasMetadata (name : String) : Bool :=
  (d.metas.row? name).isSome || (d.metas.row? (legacyMeta name)).isSome

def Directory.store (name : String) (archive : Archive β) (metadata : Metadata) : Directory β :=
  { archives := d.archives.set name archive
    metas := d.metas.set name metadata }

/-- An archive and both files that may be its metadata. -/
def Directory.remove (name : String) : Directory β :=
  { archives := d.archives.erase name
    metas := (d.metas.erase name).erase (legacyMeta name) }

/-! ## Retention -/

/-- The order of `(mtime, name)`, newest first. -/
def Directory.newerEq (a b : String) : Bool :=
  match d.archives.row? a, d.archives.row? b with
  | some x, some y =>
    y.mtime.fields < x.mtime.fields ||
      (x.mtime = y.mtime && b ++ archiveSuffix ≤ a ++ archiveSuffix)
  | _, _ => false

def Directory.dated : List String := d.archives.keys.mergeSort d.newerEq

def Directory.complete : List String := d.dated.filter d.hasMetadata

/-- Older than the oldest complete archive that is kept. -/
def Directory.stale (count : ℕ) (name : String) : Bool :=
  match d.archives.row? name, d.complete[count - 1]?.bind d.archives.row? with
  | some archive, some oldest => archive.mtime.fields < oldest.mtime.fields
  | _, _ => false

def enforceRetention (count : ℕ) : Directory β :=
  if d.complete.length ≤ count then d
  else
    let doomed := d.complete.drop count ++
      d.dated.filter fun name => d.stale count name && !d.hasMetadata name
    doomed.foldl .remove d

/-! ## The calls -/

/-- What a call returns. -/
structure Report where
  name : String
  createdAt : String
  components : List String
  summary : String
  deriving DecidableEq, Repr

/-- The steps of a call that may raise. -/
inductive StoreFault where
  | archive
  | metadata
  deriving DecidableEq, Repr

/-- An archive that `_write_archive` has put together. -/
structure CreateRequest (β : Type) where
  bytes : β
  components : List String := []
  summaryParts : List String := []
  retention : ℤ := 5

def CreateRequest.count (req : CreateRequest β) : ℕ := (max 1 req.retention).toNat

/-- The metadata of a created archive. -/
def CreateRequest.metadata (req : CreateRequest β) (now : Moment) : Metadata where
  createdAt := now.iso
  components := req.components
  summary := ",".intercalate req.summaryParts

def createBackup (now : Moment) (req : CreateRequest β) (fault : Option StoreFault) :
    Directory β × Option Report :=
  let name := createdName now
  let metadata := req.metadata now
  match fault with
  | some .archive => (d, none)
  | some .metadata =>
    ({ d with archives := (d.archives.set name ⟨req.bytes, now⟩).erase name }, none)
  | none =>
    let d' := enforceRetention (d.store name ⟨req.bytes, now⟩ metadata) req.count
    -- the size is read at last
    (d', (d'.archives.row? name).map fun _ =>
      ⟨name, metadata.createdAt, metadata.components, metadata.summary⟩)

/-- `_validate_tar_members` -/
def validMember (name : List Char) : Bool :=
  let name := name.map fun c => if c = '\\' then '/' else c
  !("/".toList.isPrefixOf name || "../".toList.isPrefixOf name ||
    decide ("/../".toList <:+: '/' :: name ++ ['/']))

/-- `inspect_backup_archive`, with the member names that `tarfile` finds. -/
def inspectBackupArchive (members : β → Option (List String)) (bytes : β) : Option (List String) :=
  (members bytes).bind fun names =>
    let components : List (String × Bool) := [
      ("db", names.contains "data/adminpanel.db"),
      ("cidr_db", names.contains "data/cidr/cidr.db"),
      ("env", names.contains "env/.env"),
      ("configs", names.any fun name => "antizapret/config/".toList.isPrefixOf name.toList),
      ("awg2", names.contains "awg2/az-awg2-backup.tar.gz"),
      ("awg3", names.contains "awg3/az-awg3-backup.tar.gz")]
    let present := (components.filter (·.2)).map (·.1)
    if (names.all fun name => validMember name.toList) && present ≠ [] then some present else none

/-- Where an upload is stored. -/
def storedName (originalName : Option String) (now : Moment) : String :=
  let targetName := uploadTargetName originalName now
  if (d.archives.row? targetName).isSome then uploadName now else targetName

def importUploadedBackup (members : β → Option (List String)) (d : Directory β) (now : Moment)
    (bytes : β) (originalName : Option String) (fault : Option StoreFault) :
    Directory β × Option Report :=
  match inspectBackupArchive members bytes with
  | none => (d, none)
  | some components =>
    let name := storedName d originalName now
    let summary := ",".intercalate components
    match fault with
    | some .archive => (d, none)
    | some .metadata => ({ d with archives := d.archives.set name ⟨bytes, now⟩ }, none)
    | none =>
      (d.store name ⟨bytes, now⟩ ⟨now.iso, components, summary, some "upload"⟩,
        some ⟨name, now.iso, components, summary⟩)

/-- `_resolve_archive`, without its suffix. -/
def resolveArchive (fileName : String) : Option String :=
  (archiveStem (basename fileName.toList)).filter fun name =>
    !("/".toList.isPrefixOf fileName.toList) && (d.archives.row? name).isSome

def deleteBackup (fileName : String) : Directory β :=
  match resolveArchive d fileName with
  | some name => d.remove name
  | none => d

inductive BackupCall (β : Type) where
  | create (now : Moment) (req : CreateRequest β) (fault : Option StoreFault)
  | upload (now : Moment) (bytes : β) (originalName : Option String) (fault : Option StoreFault)
  | delete (fileName : String)

def perform (members : β → Option (List String)) (d : Directory β) :
    BackupCall β → Directory β × Option Report
  | .create now req fault => createBackup d now req fault
  | .upload now bytes originalName fault =>
    importUploadedBackup members d now bytes originalName fault
  | .delete fileName => (deleteBackup d fileName, none)

def backupStep (members : β → Option (List String)) (d : Directory β) (call : BackupCall β) :
    Option (Directory β) :=
  some (perform members d call).1

/-! ## What is promised -/

def BackupCall.bytes? : BackupCall β → Option β
  | .create _ req _ => some req.bytes
  | .upload _ bytes _ _ => some bytes
  | .delete _ => none

/-- The metadata that belongs to a report. -/
def BackupCall.metadata (call : BackupCall β) (report : Report) : Metadata :=
  ⟨report.createdAt, report.components, report.summary,
    match call with
    | .upload .. => some "upload"
    | _ => none⟩

/-- The archive with its bytes and its metadata. -/
def Directory.Has (name : String) (bytes : Option β) (metadata : Metadata) : Prop :=
  (d.archives.row? name).map (·.bytes) = bytes ∧ bytes ≠ none ∧ d.metas.row? name = some metadata

/-- The complete archives besides one. -/
def Directory.others (name : String) : List String :=
  d.archives.keys.filter fun other => other ≠ name && d.hasMetadata other

/-- From here on the archive may be gone: it has been deleted, or enough others remain. -/
def Excuses (name : String) (d : Directory β) :
    BackupCall β → Prop
  | .create now req fault =>
    req.count ≤ ((createBackup d now req fault).1.others name).length
  | .upload .. => False
  | .delete fileName => resolveArchive d fileName = some name

/-- What a call has reported is there when it returns, and after any calls that do not excuse its
loss. -/
def Kept (members : β → Option (List String)) (start : Directory β) (calls : List (BackupCall β)) :
    Prop :=
  ∀ before call after s d report, calls = before ++ call :: after →
    exec (backupStep members) start before = some s → (perform members s call).2 = some report →
    Along (backupStep members) (fun s later => ¬ Excuses report.name s later)
      (perform members s call).1 after →
    exec (backupStep members) (perform members s call).1 after = some d →
    d.Has report.name call.bytes? (call.metadata report)

/-- The archives `X.tar.gz` and `X.tar.tar.gz` are not both there. -/
def Apart (names : List String) : Prop := ∀ name ∈ names, legacyMeta name ∉ names

/-- The call takes no name that is taken, and removes no `X.tar.gz` beside an `X.tar.tar.gz`. -/
def keepsOthers : BackupCall β → Prop
  | .create now _ _ =>
    createdName now ∉ d.archives.keys ∧ Apart (createdName now :: d.archives.keys)
  | .upload now _ originalName _ =>
    uploadTargetName originalName now ∉ d.archives.keys ∨ uploadName now ∉ d.archives.keys
  | .delete fileName =>
    ∀ name, resolveArchive d fileName = some name → legacyMeta name ∉ d.archives.keys

end

/-! ## Removed archives -/

variable {d : Directory β} {name x : String} {names : List String} {count : ℕ}

theorem legacyMeta_inj {a b : String} (h : legacyMeta a = legacyMeta b) : a = b := by
  have hChars := congrArg String.toList h
  rw [legacyMeta, legacyMeta, String.toList_append, String.toList_append] at hChars
  exact String.toList_inj.mp (append_cancel_right hChars)

theorem archives_removed (names : List String) (d : Directory β) (x : String) :
    (names.foldl .remove d).archives.row? x =
      if x ∈ names then none else d.archives.row? x := by
  induction names generalizing d with
  | nil => exact (if_neg not_mem_nil).symm
  | cons name names ih =>
    rw [foldl_cons, ih, Directory.remove, Table.row?_erase]
    by_cases hIn : x ∈ names
    · rw [if_pos hIn, if_pos (mem_cons_of_mem name hIn)]
    · rw [if_neg hIn]
      by_cases hSame : x = name
      · rw [if_pos hSame, if_pos (hSame ▸ mem_cons_self)]
      · rw [if_neg hSame, if_neg fun hMem => (mem_cons.mp hMem).elim hSame hIn]

/-- Metadata that no removed archive is read with. -/
theorem metas_removed (names : List String) (d : Directory β) {key : String}
    (h : ∀ name ∈ names, key ≠ name ∧ key ≠ legacyMeta name) :
    (names.foldl .remove d).metas.row? key = d.metas.row? key := by
  induction names generalizing d with
  | nil => rfl
  | cons name names ih =>
    rw [forall_mem_cons] at h
    rw [foldl_cons, ih _ h.2, Directory.remove, Table.row?_erase, if_neg h.1.2,
      Table.row?_erase, if_neg h.1.1]

/-! ## Retention -/

theorem mem_dated : name ∈ d.dated ↔ name ∈ d.archives.keys := mem_mergeSort

theorem dated_nodup (d : Directory β) : d.dated.Nodup :=
  (mergeSort_perm d.archives.keys d.newerEq).nodup_iff.mpr d.archives.nodup

theorem mem_complete : name ∈ d.complete ↔ name ∈ d.archives.keys ∧ d.hasMetadata name = true := by
  rw [Directory.complete, mem_filter, mem_dated]

theorem complete_nodup (d : Directory β) : d.complete.Nodup := (dated_nodup d).filter _

/-- The metadata of an archive that stays is not removed. -/
theorem metas_kept (hApart : Apart d.archives.keys)
    (hNames : ∀ name ∈ names, name ∈ d.archives.keys) (hStored : name ∈ d.archives.keys)
    (hStays : name ∉ names) :
    (names.foldl .remove d).metas.row? name = d.metas.row? name ∧
      (names.foldl .remove d).hasMetadata name = d.hasMetadata name := by
  have hOwn : (names.foldl .remove d).metas.row? name = d.metas.row? name := by
    refine metas_removed names d fun other hOther => ⟨fun hSame => hStays (hSame ▸ hOther), ?_⟩
    intro hSame
    exact hApart other (hNames other hOther) (hSame ▸ hStored)
  have hLegacy : (names.foldl .remove d).metas.row? (legacyMeta name) =
      d.metas.row? (legacyMeta name) := by
    refine metas_removed names d fun other hOther => ⟨?_, fun hSame => ?_⟩
    · intro hSame
      exact hApart name hStored (hSame ▸ hNames other hOther)
    · exact hStays (legacyMeta_inj hSame ▸ hOther)
  exact ⟨hOwn, by rw [Directory.hasMetadata, Directory.hasMetadata, hOwn, hLegacy]⟩

/-- An archive stays with its metadata, or it is gone and, had it metadata, `count` others
remain. -/
theorem enforceRetention_spec (count : ℕ) (hApart : Apart d.archives.keys)
    (hStored : name ∈ d.archives.keys) :
    ((enforceRetention d count).archives.row? name = d.archives.row? name ∧
        (enforceRetention d count).metas.row? name = d.metas.row? name) ∨
      ((enforceRetention d count).archives.row? name = none ∧
        (d.hasMetadata name = true →
          count ≤ ((enforceRetention d count).others name).length)) := by
  unfold enforceRetention
  split_ifs with hFew
  · exact .inl ⟨rfl, rfl⟩
  dsimp only
  generalize hDoomed : (d.complete.drop count ++
    d.dated.filter fun name => d.stale count name && !d.hasMetadata name) = doomed
  have hAmong : ∀ other ∈ doomed, other ∈ d.archives.keys := by
    intro other hMem
    rw [← hDoomed, mem_append] at hMem
    rcases hMem with hOld | hStale
    · exact (mem_complete.mp (mem_of_mem_drop hOld)).1
    · exact mem_dated.mp (mem_of_mem_filter hStale)
  by_cases hIn : name ∈ doomed
  · refine .inr ⟨by rw [archives_removed, if_pos hIn], fun hMeta => ?_⟩
    have hOld : name ∈ d.complete.drop count := by
      rw [← hDoomed, mem_append] at hIn
      refine hIn.resolve_right fun hStale => ?_
      have hBoth := (mem_filter.mp hStale).2
      rw [hMeta, Bool.not_true, Bool.and_false] at hBoth
      cases hBoth
    have hParts := complete_nodup d
    rw [← take_append_drop count d.complete, nodup_append'] at hParts
    obtain ⟨hTake, -, hDisjoint⟩ := hParts
    -- the newest `count` archives with metadata stay, and this one is not among them
    have hSub : d.complete.take count ⊆ (doomed.foldl .remove d).others name := by
      intro other hKept
      obtain ⟨hOther, hOtherMeta⟩ := mem_complete.mp (mem_of_mem_take hKept)
      have hStays : other ∉ doomed := by
        rw [← hDoomed, mem_append, not_or]
        refine ⟨hDisjoint hKept, fun hStale => ?_⟩
        have hBoth := (mem_filter.mp hStale).2
        rw [hOtherMeta, Bool.not_true, Bool.and_false] at hBoth
        cases hBoth
      refine mem_filter.mpr ⟨?_, ?_⟩
      · rw [Table.mem_keys, archives_removed, if_neg hStays, ← Table.mem_keys]
        exact hOther
      · rw [Bool.and_eq_true, (metas_kept hApart hAmong hOther hStays).2, decide_eq_true_eq]
        exact ⟨fun hSame => hDisjoint hKept (hSame ▸ hOld), hOtherMeta⟩
    calc count = (d.complete.take count).length := by
          rw [length_take]
          omega
      _ ≤ _ := (subperm_of_subset hTake hSub).length_le
  · exact .inl ⟨by rw [archives_removed, if_neg hIn], (metas_kept hApart hAmong hStored hIn).1⟩

/-! ## One call -/

variable {bytes : Option β} {metadata : Metadata} {members : β → Option (List String)}

theorem Directory.Has.mem_keys (h : d.Has name bytes metadata) : name ∈ d.archives.keys := by
  rw [Table.mem_keys, ← Option.isSome_map, h.1, Option.isSome_iff_ne_none]
  exact h.2.1

theorem Directory.Has.hasMetadata (h : d.Has name bytes metadata) : d.hasMetadata name = true := by
  rw [Directory.hasMetadata, h.2.2]
  rfl

theorem Directory.Has.congr {d' : Directory β} (h : d.Has name bytes metadata)
    (hArchive : d'.archives.row? name = d.archives.row? name)
    (hMeta : d'.metas.row? name = d.metas.row? name) : d'.Has name bytes metadata :=
  ⟨by rw [hArchive, h.1], h.2.1, by rw [hMeta, h.2.2]⟩

theorem row?_store (d : Directory β) (archive : Archive β) (metadata : Metadata)
    (hOther : x ≠ name) :
    (d.store name archive metadata).archives.row? x = d.archives.row? x ∧
      (d.store name archive metadata).metas.row? x = d.metas.row? x :=
  ⟨Table.row?_set_of_ne _ _ hOther, Table.row?_set_of_ne _ _ hOther⟩

theorem has_store (d : Directory β) (name : String) (archive : Archive β) (metadata : Metadata) :
    (d.store name archive metadata).Has name (some archive.bytes) metadata := by
  refine ⟨?_, Option.some_ne_none _, Table.row?_set_self _ _ _⟩
  rw [Directory.store, Table.row?_set_self]
  rfl

theorem apart_store {archive : Archive β} (hApart : Apart (name :: d.archives.keys)) :
    Apart (d.store name archive metadata).archives.keys := by
  have hKeys {x : String} (h : x ∈ (d.store name archive metadata).archives.keys) :
      x ∈ name :: d.archives.keys := by
    rw [Directory.store, Table.mem_keys, Table.row?_set] at h
    split_ifs at h with hSame
    · exact hSame ▸ mem_cons_self
    · exact mem_cons_of_mem _ ((Table.mem_keys _ _).mpr h)
  exact fun x hMem hLegacy => hApart x (hKeys hMem) (hKeys hLegacy)

theorem createBackup_reported {now : Moment} {req : CreateRequest β} {fault : Option StoreFault}
    (hKeeps : keepsOthers d (.create now req fault))
    (hReport : (createBackup d now req fault).2 = some report) :
    (createBackup d now req fault).1.Has report.name (some req.bytes)
      ((BackupCall.create now req fault).metadata report) := by
  rcases fault with _ | _ | _
  · obtain ⟨row, hRow, rfl⟩ := Option.map_eq_some_iff.mp hReport
    have hStored := has_store d (createdName now) ⟨req.bytes, now⟩ (req.metadata now)
    rcases enforceRetention_spec req.count (apart_store hKeeps.2) hStored.mem_keys with
      ⟨hArchive, hMeta⟩ | ⟨hGone, -⟩
    · exact hStored.congr hArchive hMeta
    · exact absurd (hRow.symm.trans hGone) (Option.some_ne_none row)
  · cases hReport
  · cases hReport

/-- Stored archives go only by retention. -/
theorem createBackup_keeps {now : Moment} {req : CreateRequest β} {fault : Option StoreFault}
    (hKeeps : keepsOthers d (.create now req fault)) (hHas : d.Has name bytes metadata)
    (hExcuse : ¬ Excuses name d (.create now req fault)) :
    (createBackup d now req fault).1.Has name bytes metadata := by
  have hOther : name ≠ createdName now := fun hSame => hKeeps.1 (hSame ▸ hHas.mem_keys)
  rcases fault with _ | _ | _
  · obtain ⟨hArchive, hMeta⟩ := row?_store d ⟨req.bytes, now⟩ (req.metadata now) hOther
    have hStored := hHas.congr hArchive hMeta
    rcases enforceRetention_spec req.count (apart_store hKeeps.2) hStored.mem_keys with
      ⟨hArchive, hMeta⟩ | ⟨-, hEnough⟩
    · exact hStored.congr hArchive hMeta
    · exact absurd (hEnough hStored.hasMetadata) hExcuse
  · exact hHas
  · refine hHas.congr ?_ rfl
    show (Table.erase _ _).row? name = _
    rw [Table.row?_erase, if_neg hOther, Table.row?_set_of_ne _ _ hOther]

section

variable {now : Moment} {data : β} {originalName : Option String} {fault : Option StoreFault}

theorem storedName_new (hKeeps : keepsOthers d (.upload now data originalName fault)) :
    storedName d originalName now ∉ d.archives.keys := by
  unfold storedName
  dsimp only
  split_ifs with hTaken
  · rw [← Table.mem_keys] at hTaken
    exact hKeeps.resolve_left fun hFree => hFree hTaken
  · rwa [← Table.mem_keys] at hTaken

theorem importUploadedBackup_reported
    (hReport : (importUploadedBackup members d now data originalName fault).2 = some report) :
    (importUploadedBackup members d now data originalName fault).1.Has report.name (some data)
      ((BackupCall.upload now data originalName fault).metadata report) := by
  unfold importUploadedBackup at hReport ⊢
  cases hInspect : inspectBackupArchive members data with
  | none =>
    rw [hInspect] at hReport
    cases hReport
  | some components =>
    rw [hInspect] at hReport
    rcases fault with _ | _ | _
    · cases hReport
      exact has_store d _ ⟨data, now⟩ _
    · cases hReport
    · cases hReport

theorem importUploadedBackup_keeps (hKeeps : keepsOthers d (.upload now data originalName fault))
    (hHas : d.Has name bytes metadata) :
    (importUploadedBackup members d now data originalName fault).1.Has name bytes metadata := by
  have hOther : name ≠ storedName d originalName now := fun hSame =>
    storedName_new hKeeps (hSame ▸ hHas.mem_keys)
  unfold importUploadedBackup
  cases inspectBackupArchive members data with
  | none => exact hHas
  | some components =>
    rcases fault with _ | _ | _
    · obtain ⟨hArchive, hMeta⟩ := row?_store d ⟨data, now⟩ _ hOther
      exact hHas.congr hArchive hMeta
    · exact hHas
    · exact hHas.congr (Table.row?_set_of_ne _ _ hOther) rfl

end

theorem deleteBackup_keeps {fileName : String} (hKeeps : keepsOthers d (.delete fileName))
    (hHas : d.Has name bytes metadata) (hExcuse : ¬ Excuses name d (.delete fileName)) :
    (deleteBackup d fileName).Has name bytes metadata := by
  unfold deleteBackup
  cases hName : resolveArchive d fileName with
  | none => exact hHas
  | some deleted =>
    have hOther : name ≠ deleted := fun hSame => hExcuse (hSame ▸ hName)
    have hLegacy : name ≠ legacyMeta deleted := fun hSame =>
      hKeeps deleted hName (hSame ▸ hHas.mem_keys)
    show (d.remove deleted).Has name bytes metadata
    refine hHas.congr ?_ ?_
    · rw [Directory.remove, Table.row?_erase, if_neg hOther]
    · rw [Directory.remove, Table.row?_erase, if_neg hLegacy, Table.row?_erase, if_neg hOther]

/-! ## Runs -/

/-- A call keeps what it does not excuse. -/
theorem has_perform {call : BackupCall β} (hKeeps : keepsOthers d call)
    (hHas : d.Has name bytes metadata) (hExcuse : ¬ Excuses name d call) :
    (perform members d call).1.Has name bytes metadata := by
  cases call with
  | create now req fault => exact createBackup_keeps hKeeps hHas hExcuse
  | upload now data originalName fault => exact importUploadedBackup_keeps hKeeps hHas
  | delete fileName => exact deleteBackup_keeps hKeeps hHas hExcuse

/-- What a call reports is there. -/
theorem has_reported {call : BackupCall β} (hKeeps : keepsOthers d call)
    (hReport : (perform members d call).2 = some report) :
    (perform members d call).1.Has report.name call.bytes? (call.metadata report) := by
  cases call with
  | create now req fault => exact createBackup_reported hKeeps hReport
  | upload now data originalName fault => exact importUploadedBackup_reported hReport
  | delete fileName => cases hReport

/-- Runs of calls that take no taken name lose nothing but by deletion and retention. -/
theorem archives_kept (members : β → Option (List String)) (start : Directory β)
    (calls : List (BackupCall β))
    (hKeeps : Along (backupStep members) keepsOthers start calls) : Kept members start calls := by
  intro before call after s d report hCalls hBefore hReport hExcuse hAfter
  subst hCalls
  obtain ⟨hCall, hRest⟩ := hKeeps.rest hBefore
  have hStep : ∀ (s : Directory β) (later : BackupCall β) (s' : Directory β),
      s.Has report.name call.bytes? (call.metadata report) →
      keepsOthers s later ∧ ¬ Excuses report.name s later → backupStep members s later = some s' →
      s'.Has report.name call.bytes? (call.metadata report) :=
    fun s later s' hHas hLater hNext => Option.some.inj hNext ▸ has_perform hLater.1 hHas hLater.2
  exact invariant_exec hStep (has_reported hCall hReport) ((hRest _ rfl).and hExcuse) hAfter

end

def emptyDirectory : Directory ℕ := ⟨Table.empty, Table.empty⟩

def noon : Moment := ⟨2026, 5, 5, 12, 0, 0, 250000⟩

/-- Every archive holds the environment file. -/
def envMember (_ : ℕ) : Option (List String) := some ["env/.env"]

/-- A backup, and an upload under a name of its own. -/
theorem archives_kept_twice :
    Along (backupStep envMember) keepsOthers emptyDirectory
        [.create noon { bytes := 1 } none, .upload noon 2 (some "backup.tar.gz") none] ∧
      Kept envMember emptyDirectory
        [.create noon { bytes := 1 } none, .upload noon 2 (some "backup.tar.gz") none] := by
  have hKeeps : Along (backupStep envMember) keepsOthers emptyDirectory
      [.create noon { bytes := 1 } none, .upload noon 2 (some "backup.tar.gz") none] := by
    refine ⟨⟨?_, ?_⟩, fun d hFirst => ⟨.inl ?_, fun _ _ => trivial⟩⟩
    · decide
    · show ∀ name ∈ [createdName noon], legacyMeta name ∉ [createdName noon]
      decide
    · cases hFirst
      decide +kernel
  exact ⟨hKeeps, archives_kept envMember emptyDirectory _ hKeeps⟩

def firstUpload : BackupCall ℕ := .upload noon 1 (some "backup.tar.gz") none

def secondUpload : BackupCall ℕ := .upload noon 2 (some "backup.tar.gz") none

def firstReport : Report :=
  ⟨"adminpanelaz_20260505_120000_upload", "2026-05-05T12:00:00Z", ["env"], "env"⟩

/-- Two uploads within one second: the second takes the name of the first. -/
theorem second_upload_overwrites : ¬ Kept envMember emptyDirectory [firstUpload, secondUpload] := by
  intro hKept
  have hReport : (perform envMember emptyDirectory firstUpload).2 = some firstReport := by
    decide
  have hGone : ((perform envMember (perform envMember emptyDirectory firstUpload).1
      secondUpload).1.archives.row? firstReport.name).map (·.bytes) ≠ firstUpload.bytes? := by
    decide
  have hFirst := hKept [] firstUpload [secondUpload] emptyDirectory
    (perform envMember (perform envMember emptyDirectory firstUpload).1 secondUpload).1 firstReport
    rfl rfl hReport ⟨id, fun _ _ => trivial⟩ rfl
  exact hGone hFirst.1

end AdminPanel.Backup
