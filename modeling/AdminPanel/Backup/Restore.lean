import AdminPanel.Lib.Table
import Mathlib.Data.List.Sort

/-!
# Restoring a backup

`apply_restore_payload` copies the files it is about to replace to a directory of its own under
`.pre-restore`, thins out the older ones of these directories and replaces the files one by one;
what it has replaced goes back when a step raises.

* `Sqlite` — what a connection reads from a database file and its WAL;
* `carryOverProcessedUpdates` — what a restored panel database takes over from the replaced one;
* `snapshotLiveFiles`, `replaceFiles`, `rollbackFromSnapshot`, `applyRestorePayload`,
  `loadPreRestorePayload` — as `backup_manager.py` has them;
* `RestoreSafe` — all or nothing, and a way back;
* `restore_safe` — it holds, where the snapshot counts if the retention keeps its directory.
-/

namespace AdminPanel.Backup

open Option List Function

open Lib (Table)

/-! ## Files -/

inductive Role where
  | db
  | cidrDb
  | env
  deriving DecidableEq, Repr

/-- `SQLITE_ROLES` -/
def Role.isSqlite : Role → Bool
  | .env => false
  | _ => true

/-- The key of a role in a payload. -/
def Role.key : Role → String
  | .db => "db"
  | .cidrDb => "cidr_db"
  | .env => "env"

/-- The committed content of a database: the rows of `telegram_processed_updates`, if it has that
table, and the rest. -/
structure Database (κ : Type) where
  updates : Option (List (ℤ × String))
  rest : κ
  deriving DecidableEq

/-- `INSERT OR IGNORE`, by `update_id`. -/
def insertOrIgnore (rows : List (ℤ × String)) (row : ℤ × String) : List (ℤ × String) :=
  if rows.any (·.1 = row.1) then rows else rows ++ [row]

def carryOverProcessedUpdates {κ : Type} (source target : Database κ) : Database κ :=
  match source.updates.getD [] with
  | [] => target
  | row :: rows =>
    { target with updates := some ((row :: rows).foldl insertOrIgnore (target.updates.getD [])) }

/-- What SQLite makes of files with bytes in `β`. -/
structure Sqlite (β κ : Type) where
  /-- What a connection reads from a file and its WAL, if they are a readable database. -/
  read : β → Option β → Option (Database κ)
  /-- The file that an online backup writes. -/
  backup : Database κ → β
  /-- `validate_sqlite_bytes` -/
  sound : β → Bool
  read_backup : ∀ c, read (backup c) none = some c
  /-- A WAL does not make a database unreadable. -/
  read_alone : ∀ b w, read b w = none → read b none = none

/-- A database by its committed content, another file by its bytes. -/
inductive Content (β κ : Type) where
  | database (c : Database κ)
  | bytes (b : β)
  deriving DecidableEq

/-- The live files and the directories under `.pre-restore` with their copies. -/
structure Disk (β : Type) where
  live : Role → Option β
  wal : Role → Option β := fun _ => none
  snapshots : Table String (Role → Option β)

/-- The name of a directory, `strftime("%Y%m%d_%H%M%S_%f")`. -/
def isPreRestoreId (name : String) : Bool :=
  let cs := name.toList
  cs.length = 22 && (cs.take 8).all Char.isDigit && cs[8]? = some '_' &&
    ((cs.drop 9).take 6).all Char.isDigit && cs[15]? = some '_' && (cs.drop 16).all Char.isDigit

structure Stamp where
  text : String
  ok : isPreRestoreId text = true

section

variable {β κ : Type} (sql : Sqlite β κ)

def contentOf (data : β) (wal : Option β) : Content β κ :=
  match sql.read data wal with
  | some c => .database c
  | none => .bytes data

/-- The WAL beside a file; only databases have one. -/
def Disk.sidecar (d : Disk β) (role : Role) : Option β :=
  if role.isSqlite then d.wal role else none

def Disk.content (d : Disk β) (role : Role) : Option (Content β κ) :=
  (d.live role).map fun data => contentOf sql data (d.sidecar role)

/-! ## The snapshot -/

/-- The steps of a restore that may raise. -/
inductive RestoreStep where
  | mkdir
  | copy (role : Role)
  | retention
  | write (role : Role)
  deriving DecidableEq, Repr

structure Faults where
  fails : RestoreStep → Bool := fun _ => false
  rollbackFails : Role → Bool := fun _ => false
  carryFails : Bool := false

/-- `_copy_sqlite_consistent`, or the bytes of a file that is no readable database. -/
def savedCopy (d : Disk β) (role : Role) : Option β :=
  (d.live role).map fun data =>
    match sql.read data (d.sidecar role) with
    | some c => sql.backup c
    | none => data

/-- The copies after those in `files`, and whether no step has raised. -/
def copyLiveFiles (d : Disk β) (faults : Faults) :
    List Role → (Role → Option β) → (Role → Option β) × Bool
  | [], files => (files, true)
  | role :: rest, files =>
    match savedCopy sql d role with
    | none => copyLiveFiles d faults rest files
    | some data =>
      if faults.fails (.copy role) then (files, false)
      else copyLiveFiles d faults rest (update files role (some data))

def preRestoreKeep : Nat := 3

/-- The names that sort last. -/
def keptNames (names : List String) : List String :=
  (names.insertionSort (· ≥ ·)).take preRestoreKeep

def enforcePreRestoreRetention (snapshots : Table String (Role → Option β))
    (keepSnapshotId : Option String) : Table String (Role → Option β) :=
  snapshots.filter fun name _ => name ∈ keptNames snapshots.keys || some name = keepSnapshotId

/-- `_snapshot_live_files`, and whether it returns. -/
def snapshotLiveFiles (d : Disk β) (roles : List Role) (stamp : Stamp)
    (keepSnapshotId : Option String) (faults : Faults) : Disk β × Bool :=
  if faults.fails .mkdir || (d.snapshots.row? stamp.text).isSome then (d, false)
  else
    let copies := copyLiveFiles sql d faults roles fun _ => none
    let snapshots := d.snapshots.set stamp.text copies.1
    if !copies.2 || faults.fails .retention then ({ d with snapshots := snapshots }, false)
    else
      ({ d with snapshots := enforcePreRestoreRetention snapshots keepSnapshotId }, true)

/-! ## Replacing files -/

structure Payload (β : Type) where
  restored : List String := []
  fileName : String := ""
  configs : List (String × String) := []
  files : Role → Option β
  preRestoreSource : Option String := none

structure RestoreResult where
  restored : List String
  fileName : String
  configs : List (String × String)
  preRestoreSnapshot : Option String
  deriving DecidableEq, Repr

/-- `_restore_targets`; `cidr` says that the panel has a CIDR database. -/
def restoreTargets (cidr : Bool) (files : Role → Option β) : List (Role × β) :=
  [Role.db, .cidrDb, .env].filterMap fun role =>
    if role = .cidrDb && !cidr then none else (files role).map (role, ·)

/-- `atomic_write_bytes` -/
def Disk.put (d : Disk β) (role : Role) (data : β) : Disk β :=
  { d with live := update d.live role (some data) }

/-- `remove_sqlite_sidecars`, which raises nothing. -/
def Disk.removeSidecars (d : Disk β) (role : Role) : Disk β :=
  { d with wal := update d.wal role none }

/-- The loop over the targets: the disk, what has been replaced, and whether no write raised. -/
def replaceFiles (faults : Faults) :
    List (Role × β) → Disk β → List Role → Disk β × List Role × Bool
  | [], d, replaced => (d, replaced, true)
  | (role, data) :: rest, d, replaced =>
    if faults.fails (.write role) then (d, replaced, false)
    else
      let d := d.put role data
      let d := if role.isSqlite then d.removeSidecars role else d
      replaceFiles faults rest d (replaced ++ [role])

/-- One turn of `_rollback_from_snapshot`. -/
def rollbackFile (stamp : Stamp) (faults : Faults) (d : Disk β) (role : Role) : Disk β :=
  if faults.rollbackFails role then d
  else
    match (d.snapshots.row? stamp.text).bind fun files => files role with
    | some saved => (d.put role saved).removeSidecars role
    | none => { d with live := update d.live role none }.removeSidecars role

def rollbackFromSnapshot (stamp : Stamp) (faults : Faults) (d : Disk β) (replaced : List Role) :
    Disk β :=
  replaced.foldl (rollbackFile stamp faults) d

def carryOverTelegramUpdates (stamp : Stamp) (faults : Faults) (d : Disk β) : Disk β :=
  match (d.snapshots.row? stamp.text).bind (· .db), d.live .db with
  | some saved, some data =>
    match sql.read saved none, sql.read data (d.sidecar .db) with
    | some source, some target =>
      if faults.carryFails || source.updates.getD [] = [] then d
      else (d.put .db (sql.backup (carryOverProcessedUpdates source target))).removeSidecars .db
    | _, _ => d
  | _, _ => d

/-- `apply_restore_payload`: the disk, and the result if it returns. -/
def applyRestorePayload (cidr : Bool) (d : Disk β) (payload : Payload β) (stamp : Stamp)
    (faults : Faults) : Disk β × Option RestoreResult :=
  let targets := restoreTargets cidr payload.files
  let result (snapshot : Option String) : RestoreResult :=
    ⟨payload.restored, payload.fileName, payload.configs, snapshot⟩
  if targets.isEmpty then (d, some (result none))
  else
    match snapshotLiveFiles sql d (targets.map (·.1)) stamp payload.preRestoreSource faults with
    | (d, false) => (d, none)
    | (d, true) =>
      match replaceFiles faults targets d [] with
      | (d, replaced, false) => (rollbackFromSnapshot stamp faults d replaced, none)
      | (d, _, true) =>
        (carryOverTelegramUpdates sql stamp faults d, some (result (some stamp.text)))

/-- `load_pre_restore_payload`; `ensureRestoreSpace` says whether the disk has room for targets. -/
def loadPreRestorePayload (ensureRestoreSpace : List (Role × β) → Bool) (cidr : Bool) (d : Disk β)
    (snapshotId : String) : Option (Payload β) :=
  if isPreRestoreId snapshotId then
    (d.snapshots.row? snapshotId).bind fun saved =>
      let files : Role → Option β := fun role =>
        if role = .cidrDb && !cidr then none else saved role
      let present := [Role.db, .cidrDb, .env].filter fun role => (files role).isSome
      if present = [] then none
      else if (present.all fun role => !role.isSqlite || (files role).all sql.sound) &&
          ensureRestoreSpace (restoreTargets cidr files) then
        some { restored := present.map Role.key, fileName := snapshotId, files := files,
               preRestoreSource := some snapshotId }
      else none
  else none

/-! ## All or nothing -/

/-- Content with the updates of `source` carried over. -/
def carried (carry : Database κ → Database κ → Database κ) : Content β κ → Content β κ → Content β κ
  | .database source, .database target => .database (carry source target)
  | _, target => target

/-- The content is the given one; in the panel's database updates of `source` may be carried
over. -/
def Has (carry : Database κ → Database κ → Database κ) (d : Disk β) (role : Role)
    (source : Option (Content β κ)) (content : Content β κ) : Prop :=
  d.content sql role = some content ∨
    role = .db ∧ ∃ old, source = some old ∧ d.content sql role = some (carried carry old content)

/-- The retention keeps the new directory: it is among the last by name. -/
def SnapshotKept (d : Disk β) (stamp : Stamp) : Prop :=
  stamp.text ∈ keptNames (d.snapshots.keys ++ [stamp.text])

/-- A restore changes nothing if it raises; if it returns it has replaced its targets and left a
snapshot that leads back. Whatever reads the snapshot counts on the retention to have kept it. -/
structure RestoreSafe (carry : Database κ → Database κ → Database κ) (cidr : Bool) (d : Disk β)
    (payload : Payload β) (stamp : Stamp) (faults : Faults)
    (out : Disk β × Option RestoreResult) : Prop where
  raised : SnapshotKept d stamp → out.2 = none → (∀ role, faults.rollbackFails role = false) →
    ∀ role, out.1.content sql role = d.content sql role
  replaced : ∀ result, out.2 = some result →
    ∀ role data, (role, data) ∈ restoreTargets cidr payload.files →
      Has sql carry out.1 role (d.content sql role) (contentOf sql data none)
  untouched : ∀ role, (∀ data, (role, data) ∉ restoreTargets cidr payload.files) →
    out.1.content sql role = d.content sql role
  snapshot : SnapshotKept d stamp → ∀ result, out.2 = some result →
    restoreTargets cidr payload.files ≠ [] →
      result.preRestoreSnapshot = some stamp.text ∧
        (out.1.snapshots.row? stamp.text).isSome = true
  /-- Some replaced file existed, and the replaced databases were sound. -/
  undone : SnapshotKept d stamp → ∀ result, out.2 = some result →
    (∃ role data, (role, data) ∈ restoreTargets cidr payload.files ∧ (d.live role).isSome = true) →
    (∀ role, role.isSqlite = true → ∀ copy, savedCopy sql d role = some copy →
      sql.sound copy = true) →
    ∃ back : Payload β,
      (∀ ensureRestoreSpace, ensureRestoreSpace (restoreTargets cidr back.files) = true →
        loadPreRestorePayload sql ensureRestoreSpace cidr out.1 stamp.text = some back) ∧
      ∀ stamp' faults' d' result',
        applyRestorePayload sql cidr out.1 back stamp' faults' = (d', some result') →
        ∀ role data, (role, data) ∈ restoreTargets cidr payload.files →
          ∀ old, d.content sql role = some old →
            Has sql carry d' role (out.1.content sql role) old

end

/-! ## Copies and writes -/

section

variable {β κ : Type} {sql : Sqlite β κ} {d d' : Disk β} {role : Role} {faults : Faults}
  {stamp : Stamp} {cidr : Bool}

theorem contentOf_backup (c : Database κ) : contentOf sql (sql.backup c) none = .database c := by
  rw [contentOf, sql.read_backup]

/-- A saved copy has the content of its file. -/
theorem content_savedCopy (d : Disk β) (role : Role) :
    ((savedCopy sql d role).map fun copy => contentOf sql copy none) = d.content sql role := by
  rw [savedCopy, Disk.content, Option.map_map]
  refine Option.map_congr fun data _ => ?_
  show contentOf sql (match sql.read data (d.sidecar role) with
    | some c => sql.backup c
    | none => data) none = contentOf sql data (d.sidecar role)
  cases hRead : sql.read data (d.sidecar role) with
  | some c => rw [contentOf_backup, contentOf, hRead]
  | none => rw [contentOf, contentOf, sql.read_alone data _ hRead, hRead]

theorem savedCopy_isSome : (savedCopy sql d role).isSome = (d.live role).isSome :=
  isSome_map

/-- Content depends on the file and its WAL. -/
theorem content_congr (hLive : d'.live role = d.live role)
    (hWal : d'.sidecar role = d.sidecar role) : d'.content sql role = d.content sql role := by
  rw [Disk.content, Disk.content, hLive, hWal]

/-- A file is replaced and its WAL removed, if it may have one. -/
theorem content_put (d : Disk β) (role other : Role) (data : β) :
    ((d.put role data).removeSidecars role).content sql other =
      if other = role then some (contentOf sql data none) else d.content sql other := by
  unfold Disk.content Disk.put Disk.removeSidecars Disk.sidecar
  dsimp only
  by_cases hSame : other = role
  · subst hSame
    rw [if_pos rfl, update_self, update_self, ite_self]
    rfl
  · rw [if_neg hSame, update_of_ne hSame, update_of_ne hSame]

theorem content_removeSidecars {d : Disk β} {role : Role} (hType : role.isSqlite = false)
    (other : Role) : (d.removeSidecars role).content sql other = d.content sql other := by
  refine content_congr rfl ?_
  unfold Disk.removeSidecars Disk.sidecar
  by_cases hSame : other = role
  · rw [hSame, hType]
    rfl
  · dsimp only
    rw [update_of_ne hSame]

variable {files : Role → Option β}

/-- The copies, if the loop comes to its end. -/
theorem copyLiveFiles_ok {roles : List Role}
    (h : (copyLiveFiles sql d faults roles files).2 = true) :
    ∀ other, (copyLiveFiles sql d faults roles files).1 other =
      if other ∈ roles then (savedCopy sql d other).or (files other) else files other := by
  induction roles generalizing files with
  | nil => exact fun other => (if_neg not_mem_nil).symm
  | cons role rest ih =>
    intro other
    rw [copyLiveFiles] at h ⊢
    cases hCopy : savedCopy sql d role with
    | none =>
      rw [hCopy] at h
      dsimp only at h ⊢
      rw [ih h]
      by_cases hSame : other = role
      · subst hSame
        simp [hCopy]
      · simp [hSame]
    | some data =>
      rw [hCopy] at h
      dsimp only at h ⊢
      by_cases hFails : faults.fails (.copy role) = true
      · rw [if_pos hFails] at h
        cases h
      · rw [if_neg hFails] at h ⊢
        rw [ih h]
        by_cases hSame : other = role
        · subst hSame
          rw [if_pos mem_cons_self, update_self, hCopy, some_or,
            some_or, ite_self]
        · simp [hSame]

/-- A snapshot leaves the files alone; a complete one holds their copies, if it is kept. -/
theorem snapshotLiveFiles_spec {roles : List Role} {keep : Option String} {ok : Bool}
    (h : snapshotLiveFiles sql d roles stamp keep faults = (d', ok)) :
    d'.live = d.live ∧ d'.wal = d.wal ∧
      (ok = true → (∀ files, d'.snapshots.row? stamp.text = some files → ∀ other,
          files other = if other ∈ roles then savedCopy sql d other else none) ∧
        (SnapshotKept d stamp → (d'.snapshots.row? stamp.text).isSome = true)) := by
  unfold snapshotLiveFiles at h
  by_cases hDir : (faults.fails .mkdir || (d.snapshots.row? stamp.text).isSome) = true
  · rw [if_pos hDir] at h
    cases h
    exact ⟨rfl, rfl, nofun⟩
  rw [if_neg hDir] at h
  dsimp only at h
  split_ifs at h with hFails
  · cases h
    exact ⟨rfl, rfl, nofun⟩
  cases h
  have hRow : (enforcePreRestoreRetention (d.snapshots.set stamp.text
        (copyLiveFiles sql d faults roles fun _ => none).1) keep).row? stamp.text =
      Option.filter (fun _ => stamp.text ∈ keptNames (d.snapshots.set stamp.text
        (copyLiveFiles sql d faults roles fun _ => none).1).keys || some stamp.text = keep)
        (some (copyLiveFiles sql d faults roles fun _ => none).1) := by
    rw [enforcePreRestoreRetention, Table.row?_filter, Table.row?_set_self]
  refine ⟨rfl, rfl, fun _ => ⟨fun files hFiles other => ?_, fun hKept => ?_⟩⟩
  · have hOk : (copyLiveFiles sql d faults roles fun _ => none).2 = true := by
      cases hDone : (copyLiveFiles sql d faults roles fun _ => none).2 with
      | true => rfl
      | false =>
        rw [hDone] at hFails
        exact absurd rfl hFails
    rw [hRow, filter_eq_some_iff] at hFiles
    rw [← Option.some.inj hFiles.1, copyLiveFiles_ok hOk other, or_none]
  · have hNew : stamp.text ∉ d.snapshots.keys := by
      intro hMem
      rw [d.snapshots.mem_keys] at hMem
      rw [hMem, Bool.or_true] at hDir
      exact hDir rfl
    have hKeys : (d.snapshots.set stamp.text
        (copyLiveFiles sql d faults roles fun _ => none).1).keys =
        d.snapshots.keys ++ [stamp.text] := by
      simp only [Table.set, if_neg hNew]
    have hKeep : (decide (stamp.text ∈ keptNames (d.snapshots.keys ++ [stamp.text])) ||
        decide (some stamp.text = keep)) = true := by
      rw [Bool.or_eq_true, decide_eq_true_eq]
      exact .inl hKept
    rw [hRow, hKeys, filter_some, if_pos hKeep]
    rfl

/-- A turn that raises, or one that replaces a file. -/
theorem replaceFiles_cons {role : Role} {data : β} {rest : List (Role × β)}
    {before after : List Role} {ok : Bool}
    (h : replaceFiles faults ((role, data) :: rest) d before = (d', after, ok)) :
    (d' = d ∧ after = before ∧ ok = false) ∨
      ∃ next : Disk β, next.snapshots = d.snapshots ∧
        (∀ other, next.content sql other =
          if other = role then some (contentOf sql data none) else d.content sql other) ∧
        replaceFiles faults rest next (before ++ [role]) = (d', after, ok) := by
  rw [replaceFiles] at h
  by_cases hWrite : faults.fails (.write role) = true
  · rw [if_pos hWrite] at h
    cases h
    exact .inl ⟨rfl, rfl, rfl⟩
  · rw [if_neg hWrite] at h
    refine .inr ⟨_, ?_, fun other => ?_, h⟩
    · split_ifs <;> rfl
    · cases hType : role.isSqlite with
      | true => exact content_put d role other data
      | false =>
        exact (content_removeSidecars hType other).symm.trans (content_put d role other data)

/-- The files that have been replaced are among the targets, the others are as they were; without
a failure all targets hold their data. -/
theorem replaceFiles_spec (sql : Sqlite β κ)
    {targets : List (Role × β)} {before after : List Role} {ok : Bool}
    (hTargets : ∀ target ∈ targets, files target.1 = some target.2)
    (h : replaceFiles faults targets d before = (d', after, ok)) :
    d'.snapshots = d.snapshots ∧
      (∀ other ∈ after, other ∈ before ∨ other ∈ targets.map (·.1)) ∧
      (∀ other, other ∉ after → d'.content sql other = d.content sql other) ∧
      (ok = true → ∀ other, d'.content sql other =
        if other ∈ targets.map (·.1) then (files other).map fun data => contentOf sql data none
        else d.content sql other) ∧
      (∀ other ∈ before, other ∈ after) := by
  induction targets generalizing d before with
  | nil =>
    cases h
    exact ⟨rfl, fun _ hIn => .inl hIn, fun _ _ => rfl,
      fun _ _ => (if_neg not_mem_nil).symm, fun _ hIn => hIn⟩
  | cons target rest ih =>
    obtain ⟨role, data⟩ := target
    have hTurn : _ ∨ ∃ next : Disk β, next.snapshots = d.snapshots ∧
        (∀ other, next.content sql other =
          if other = role then some (contentOf sql data none) else d.content sql other) ∧
        replaceFiles faults rest next (before ++ [role]) = (d', after, ok) := replaceFiles_cons h
    -- the file cannot be written and the loop ends, or it goes on
    rcases hTurn with ⟨rfl, rfl, rfl⟩ | ⟨next, hSame, hNext, hRest⟩
    · exact ⟨rfl, fun _ hIn => .inl hIn, fun _ _ => rfl, (by cases ·), fun _ hIn => hIn⟩
    obtain ⟨hSnapshots, hAmong, hOthers, hDone, hBefore⟩ :=
      ih (fun target hMem => hTargets target (mem_cons_of_mem _ hMem)) hRest
    have hRole : role ∈ after :=
      hBefore role (mem_append_right _ mem_cons_self)
    refine ⟨hSnapshots.trans hSame, fun other hIn => ?_, fun other hNot => ?_,
      fun hOk other => ?_, fun other hIn => hBefore other (mem_append_left _ hIn)⟩
    · rcases hAmong other hIn with hIn | hIn
      · rcases mem_append.mp hIn with hIn | hIn
        · exact .inl hIn
        · exact .inr (mem_singleton.mp hIn ▸ mem_cons_self)
      · exact .inr (mem_cons_of_mem _ hIn)
    · have hNe : other ≠ role := fun hEq => hNot (hEq ▸ hRole)
      rw [hOthers other hNot, hNext, if_neg hNe]
    · have hData := hTargets (role, data) mem_cons_self
      rw [hDone hOk, hNext, map_cons]
      by_cases hIn : other ∈ rest.map (·.1)
      · rw [if_pos hIn, if_pos (mem_cons_of_mem _ hIn)]
      · rw [if_neg hIn]
        by_cases hEq : other = role
        · subst hEq
          rw [if_pos rfl, if_pos mem_cons_self, hData]
          rfl
        · rw [if_neg hEq, if_neg fun hMem => (mem_cons.mp hMem).elim hEq hIn]

/-! ## Rollback -/

/-- With the copies there and no write failing, the files that were replaced have their copies
again. -/
theorem rollback_spec {replaced : List Role} (hFiles : d.snapshots.row? stamp.text = some files)
    (hWrites : ∀ role, faults.rollbackFails role = false) :
    ∀ other, (rollbackFromSnapshot stamp faults d replaced).content sql other =
      if other ∈ replaced then (files other).map fun data => contentOf sql data none
      else d.content sql other := by
  unfold rollbackFromSnapshot
  induction replaced generalizing d with
  | nil => exact fun other => (if_neg not_mem_nil).symm
  | cons role rest ih =>
    intro other
    have hTurn : (rollbackFile stamp faults d role).snapshots = d.snapshots ∧
        ∀ other, (rollbackFile stamp faults d role).content sql other =
          if other = role then (files role).map fun data => contentOf sql data none
          else d.content sql other := by
      rw [rollbackFile, hWrites, hFiles]
      cases hSaved : files role with
      | some saved =>
        simp only [bind_some, hSaved]
        exact ⟨rfl, fun other => content_put d role other saved⟩
      | none =>
        simp only [bind_some, hSaved]
        refine ⟨rfl, fun other => ?_⟩
        by_cases hSame : other = role
        · subst hSame
          simp [Disk.content, Disk.removeSidecars]
        · simp [Disk.content, Disk.removeSidecars, Disk.sidecar, hSame]
    rw [foldl_cons, ih (by rw [hTurn.1, hFiles]), hTurn.2]
    by_cases hIn : other ∈ rest
    · rw [if_pos hIn, if_pos (mem_cons_of_mem _ hIn)]
    · rw [if_neg hIn]
      by_cases hSame : other = role
      · subst hSame
        rw [if_pos rfl, if_pos mem_cons_self]
      · rw [if_neg hSame, if_neg fun hMem => (mem_cons.mp hMem).elim hSame hIn]

/-- Files that were not replaced are left alone, also when a write fails. -/
theorem rollback_of_not_mem {replaced : List Role} {other : Role} (hNot : other ∉ replaced) :
    (rollbackFromSnapshot stamp faults d replaced).content sql other = d.content sql other := by
  unfold rollbackFromSnapshot
  induction replaced generalizing d with
  | nil => rfl
  | cons role rest ih =>
    have hNe : other ≠ role := fun hSame => hNot (hSame ▸ mem_cons_self)
    rw [foldl_cons, ih fun hIn => hNot (mem_cons_of_mem _ hIn), rollbackFile]
    split_ifs
    · rfl
    · split
      · rw [content_put, if_neg hNe]
      · simp [Disk.content, Disk.removeSidecars, Disk.sidecar, hNe]

/-! ## Targets -/

theorem mem_restoreTargets {role : Role} {data : β} :
    (role, data) ∈ restoreTargets cidr files ↔
      files role = some data ∧ (role = .cidrDb → cidr = true) := by
  unfold restoreTargets
  cases role <;> cases cidr <;> simp [map_eq_some_iff, eq_comm]

/-- After the carry-over: the panel's database may have taken updates from the copy. -/
theorem carryOver_spec (d : Disk β) (stamp : Stamp) (faults : Faults) (role : Role) :
    (carryOverTelegramUpdates sql stamp faults d).content sql role = d.content sql role ∨
      role = .db ∧ ∃ files saved source target, d.snapshots.row? stamp.text = some files ∧
        files .db = some saved ∧ contentOf sql saved none = .database source ∧
        d.content sql .db = some (.database target) ∧
        (carryOverTelegramUpdates sql stamp faults d).content sql .db =
          some (.database (carryOverProcessedUpdates source target)) := by
  unfold carryOverTelegramUpdates
  split
  · next saved data hSaved hData =>
    split
    · next source target hSource hTarget =>
      split_ifs
      · exact .inl rfl
      obtain ⟨files, hFiles, hDb⟩ := bind_eq_some_iff.mp hSaved
      rw [content_put]
      by_cases hSame : role = .db
      · refine .inr ⟨hSame, files, saved, source, target, hFiles, hDb, ?_, ?_, ?_⟩
        · rw [contentOf, hSource]
        · rw [Disk.content, hData, map_some, contentOf, hTarget]
        · rw [content_put, if_pos rfl, contentOf_backup]
      · exact .inl (if_neg hSame)
    · exact .inl rfl
  · exact .inl rfl

/-! ## Whole restores -/

theorem targets_some : ∀ target ∈ restoreTargets cidr files, files target.1 = some target.2 :=
  fun (_, _) hMem => (mem_restoreTargets.mp hMem).1

theorem mem_roles {role : Role} :
    role ∈ (restoreTargets cidr files).map (·.1) ↔
      ∃ data, (role, data) ∈ restoreTargets cidr files := by
  constructor
  · intro hMem
    obtain ⟨target, hTarget, rfl⟩ := mem_map.mp hMem
    exact ⟨target.2, hTarget⟩
  · rintro ⟨data, hMem⟩
    exact mem_map.mpr ⟨(role, data), hMem, rfl⟩

/-- A restore with targets: the snapshot raises, or a write does, or it returns. -/
inductive Outcome (sql : Sqlite β κ) (cidr : Bool) (d : Disk β) (payload : Payload β)
    (stamp : Stamp) (faults : Faults) : Disk β × Option RestoreResult → Prop where
  | noSnapshot (d' : Disk β)
      (hSnap : snapshotLiveFiles sql d ((restoreTargets cidr payload.files).map (·.1)) stamp
        payload.preRestoreSource faults = (d', false)) :
      Outcome sql cidr d payload stamp faults (d', none)
  | rolledBack (d₁ d₂ : Disk β) (replaced : List Role)
      (hSnap : snapshotLiveFiles sql d ((restoreTargets cidr payload.files).map (·.1)) stamp
        payload.preRestoreSource faults = (d₁, true))
      (hReplace : replaceFiles faults (restoreTargets cidr payload.files) d₁ [] =
        (d₂, replaced, false)) :
      Outcome sql cidr d payload stamp faults (rollbackFromSnapshot stamp faults d₂ replaced, none)
  | returned (d₁ d₂ : Disk β) (replaced : List Role) (result : RestoreResult)
      (hSnap : snapshotLiveFiles sql d ((restoreTargets cidr payload.files).map (·.1)) stamp
        payload.preRestoreSource faults = (d₁, true))
      (hReplace : replaceFiles faults (restoreTargets cidr payload.files) d₁ [] =
        (d₂, replaced, true)) (hResult : result.preRestoreSnapshot = some stamp.text) :
      Outcome sql cidr d payload stamp faults
        (carryOverTelegramUpdates sql stamp faults d₂, some result)

theorem outcome (sql : Sqlite β κ) (d : Disk β) (stamp : Stamp) (faults : Faults)
    (payload : Payload β) (h : restoreTargets cidr payload.files ≠ []) :
    Outcome sql cidr d payload stamp faults
      (applyRestorePayload sql cidr d payload stamp faults) := by
  unfold applyRestorePayload
  dsimp only
  rw [if_neg (by rwa [List.isEmpty_iff])]
  split
  · next d' hSnap => exact .noSnapshot d' hSnap
  · next d₁ hSnap =>
    split
    · next d₂ replaced hReplace => exact .rolledBack d₁ d₂ replaced hSnap hReplace
    · next d₂ replaced hReplace => exact .returned d₁ d₂ replaced _ hSnap hReplace rfl

/-- A restore that returns, with a snapshot or without. -/
theorem replaced_of_returned {payload : Payload β} {result : RestoreResult}
    (h : applyRestorePayload sql cidr d payload stamp faults = (d', some result))
    {role : Role} {data : β} (hTarget : (role, data) ∈ restoreTargets cidr payload.files) :
    Has sql carryOverProcessedUpdates d' role (d.content sql role) (contentOf sql data none) := by
  have hOut : Outcome sql cidr d payload stamp faults (d', some result) :=
    h ▸ outcome sql d stamp faults payload (ne_nil_of_mem hTarget)
  cases hOut with
  | returned d₁ d₂ replaced result hSnap hReplace =>
    obtain ⟨-, -, hOk⟩ := snapshotLiveFiles_spec hSnap
    obtain ⟨hSnapshots, -, -, hDone, -⟩ := replaceFiles_spec sql targets_some hReplace
    have hHas (role : Role) (data : β)
        (hTarget : (role, data) ∈ restoreTargets cidr payload.files) :
        d₂.content sql role = some (contentOf sql data none) := by
      rw [hDone rfl, if_pos (mem_roles.mpr ⟨data, hTarget⟩), (mem_restoreTargets.mp hTarget).1]
      rfl
    rcases carryOver_spec d₂ stamp faults role with
      hSame | ⟨rfl, files, saved, source, target, hFiles, hSaved, hSource, hData, hCarried⟩
    · exact .inl (hSame.trans (hHas role data hTarget))
    rw [hSnapshots] at hFiles
    have hCopy : savedCopy sql d .db = some saved := by
      rw [← hSaved, (hOk rfl).1 files hFiles, if_pos (mem_roles.mpr ⟨data, hTarget⟩)]
    refine .inr ⟨rfl, .database source, ?_, ?_⟩
    · rw [← content_savedCopy, hCopy, map_some, hSource]
    · have hTo : contentOf sql data none = .database target :=
        Option.mem_unique (hHas .db data hTarget) hData
      rw [hTo]
      exact hCarried

theorem content_of_same (hLive : d'.live = d.live) (hWal : d'.wal = d.wal) (role : Role) :
    d'.content sql role = d.content sql role := by
  refine content_congr (congrFun hLive role) ?_
  rw [Disk.sidecar, Disk.sidecar, hWal]

/-- A file that the archive does not have stays as it is. -/
theorem untouched_of_no_target (sql : Sqlite β κ) (d : Disk β) (stamp : Stamp) (faults : Faults)
    (payload : Payload β) {role : Role}
    (hNone : ∀ data, (role, data) ∉ restoreTargets cidr payload.files) :
    (applyRestorePayload sql cidr d payload stamp faults).1.content sql role =
      d.content sql role := by
  by_cases hEmpty : restoreTargets cidr payload.files = []
  · rw [applyRestorePayload, hEmpty]
    rfl
  have hNot : role ∉ (restoreTargets cidr payload.files).map (·.1) := fun hMem =>
    (mem_roles.mp hMem).elim hNone
  have hOut := outcome sql d stamp faults payload hEmpty
  generalize applyRestorePayload sql cidr d payload stamp faults = out at hOut ⊢
  cases hOut with
  | noSnapshot d' hSnap =>
    obtain ⟨hLive, hWal, -⟩ := snapshotLiveFiles_spec hSnap
    exact content_of_same hLive hWal role
  | rolledBack d₁ d₂ replaced hSnap hReplace =>
    obtain ⟨hLive, hWal, -⟩ := snapshotLiveFiles_spec hSnap
    obtain ⟨-, hAmong, hOthers, -⟩ := replaceFiles_spec sql targets_some hReplace
    have hOut : role ∉ replaced := fun hIn =>
      (hAmong role hIn).elim (fun hNil => not_mem_nil hNil) hNot
    exact (rollback_of_not_mem hOut).trans
      ((hOthers role hOut).trans (content_of_same hLive hWal role))
  | returned d₁ d₂ replaced result hSnap hReplace =>
    obtain ⟨hLive, hWal, hOk⟩ := snapshotLiveFiles_spec hSnap
    obtain ⟨hSnapshots, -, -, hDone, -⟩ := replaceFiles_spec sql targets_some hReplace
    have hSame : d₂.content sql role = d.content sql role := by
      rw [hDone rfl, if_neg hNot, content_of_same hLive hWal]
    rcases carryOver_spec d₂ stamp faults role with
      hKeep | ⟨rfl, files, saved, source, target, hFiles, hSaved, -⟩
    · exact hKeep.trans hSame
    · -- without a target there is no copy to take updates from
      rw [hSnapshots] at hFiles
      rw [(hOk rfl).1 files hFiles, if_neg hNot] at hSaved
      cases hSaved

theorem snapshots_carryOver (d : Disk β) :
    (carryOverTelegramUpdates sql stamp faults d).snapshots = d.snapshots := by
  unfold carryOverTelegramUpdates
  split
  · split
    · split_ifs <;> rfl
    · rfl
  · rfl

/-- A restore that raises, with its snapshot kept. -/
theorem unchanged_of_raised {payload : Payload β}
    (h : applyRestorePayload sql cidr d payload stamp faults = (d', none))
    (hKept : SnapshotKept d stamp) (hWrites : ∀ role, faults.rollbackFails role = false)
    (role : Role) : d'.content sql role = d.content sql role := by
  by_cases hEmpty : restoreTargets cidr payload.files = []
  · rw [applyRestorePayload, hEmpty] at h
    cases h
  have hOut : Outcome sql cidr d payload stamp faults (d', none) :=
    h ▸ outcome sql d stamp faults payload hEmpty
  cases hOut with
  | noSnapshot d' hSnap =>
    obtain ⟨hLive, hWal, -⟩ := snapshotLiveFiles_spec hSnap
    exact content_of_same hLive hWal role
  | rolledBack d₁ d₂ replaced hSnap hReplace =>
    obtain ⟨hLive, hWal, hOk⟩ := snapshotLiveFiles_spec hSnap
    obtain ⟨hSnapshots, hAmong, hOthers, -⟩ := replaceFiles_spec sql targets_some hReplace
    obtain ⟨files, hFiles⟩ := isSome_iff_exists.mp ((hOk rfl).2 hKept)
    rw [rollback_spec (by rw [hSnapshots, hFiles]) hWrites]
    by_cases hIn : role ∈ replaced
    · have hTarget : role ∈ (restoreTargets cidr payload.files).map (·.1) :=
        (hAmong role hIn).resolve_left not_mem_nil
      rw [if_pos hIn, (hOk rfl).1 files hFiles, if_pos hTarget, content_savedCopy]
    · rw [if_neg hIn, hOthers role hIn, content_of_same hLive hWal]

/-- The snapshot that a restore returns holds the copies of its targets. -/
theorem snapshot_of_returned {payload : Payload β} {result : RestoreResult}
    (h : applyRestorePayload sql cidr d payload stamp faults = (d', some result))
    (hKept : SnapshotKept d stamp) (hTargets : restoreTargets cidr payload.files ≠ []) :
    result.preRestoreSnapshot = some stamp.text ∧
      ∃ files, d'.snapshots.row? stamp.text = some files ∧ ∀ other,
        files other = if other ∈ (restoreTargets cidr payload.files).map (·.1)
          then savedCopy sql d other else none := by
  have hOut : Outcome sql cidr d payload stamp faults (d', some result) :=
    h ▸ outcome sql d stamp faults payload hTargets
  cases hOut with
  | returned d₁ d₂ replaced result hSnap hReplace hResult =>
    obtain ⟨-, -, hOk⟩ := snapshotLiveFiles_spec hSnap
    obtain ⟨files, hFiles⟩ := isSome_iff_exists.mp ((hOk rfl).2 hKept)
    refine ⟨hResult, files, ?_, (hOk rfl).1 files hFiles⟩
    rw [snapshots_carryOver, (replaceFiles_spec sql targets_some hReplace).1, hFiles]

/-- A snapshot with sound databases can be loaded. -/
theorem load_of_sound
    (hFiles : d.snapshots.row? stamp.text = some files) {role : Role} {saved : β}
    (hSaved : files role = some saved) (hCidr : ∀ data, files .cidrDb = some data → cidr = true)
    (hSound : ∀ role, role.isSqlite = true → ∀ copy, files role = some copy →
      sql.sound copy = true) :
    ∃ back : Payload β, (∀ ensureRestoreSpace,
        ensureRestoreSpace (restoreTargets cidr back.files) = true →
          loadPreRestorePayload sql ensureRestoreSpace cidr d stamp.text = some back) ∧
      back.files = files := by
  have hSame (role : Role) :
      (if (role = .cidrDb && !cidr) = true then none else files role) = files role := by
    split_ifs with hOff
    · rw [Bool.and_eq_true, decide_eq_true_eq, Bool.not_eq_true'] at hOff
      rw [hOff.1]
      cases hData : files .cidrDb with
      | none => rfl
      | some data =>
        rw [hCidr data hData] at hOff
        cases hOff.2
    · rfl
  have hRole : role ∈ [Role.db, .cidrDb, .env].filter fun role => (files role).isSome :=
    mem_filter.mpr ⟨by cases role <;> simp, by rw [hSaved]; rfl⟩
  have hAll : (([Role.db, .cidrDb, .env].filter fun role => (files role).isSome).all
      fun role => !role.isSqlite || (files role).all sql.sound) = true := by
    refine all_eq_true.mpr fun role _ => ?_
    cases hType : role.isSqlite with
    | false => rfl
    | true => exact (Option.all_eq_true _ _).mpr (hSound role hType)
  set present := [Role.db, .cidrDb, .env].filter fun role => (files role).isSome
  refine ⟨{ restored := present.map Role.key, fileName := stamp.text, files := files,
            preRestoreSource := some stamp.text }, fun ensureRestoreSpace hRoom => ?_, rfl⟩
  rw [loadPreRestorePayload, if_pos stamp.ok, hFiles, bind_some]
  dsimp only
  simp only [hSame]
  rw [if_neg (ne_nil_of_mem hRole), if_pos (Bool.and_eq_true_iff.mpr ⟨hAll, hRoom⟩)]

/-- Whatever step raises, a restore is all or nothing, and its snapshot leads back. -/
theorem restore_safe (sql : Sqlite β κ) (cidr : Bool) (d : Disk β) (payload : Payload β)
    (stamp : Stamp) (faults : Faults) :
    RestoreSafe sql carryOverProcessedUpdates cidr d payload stamp faults
      (applyRestorePayload sql cidr d payload stamp faults) := by
  cases hOut : applyRestorePayload sql cidr d payload stamp faults with | mk d' out =>
  refine ⟨fun hKept hNone hWrites role => ?_, fun result hResult role data hTarget => ?_,
    fun role hNone => ?_, fun hKept result hResult hTargets => ?_,
    fun hKept result hResult hExisted hSound => ?_⟩
  · subst hNone
    exact unchanged_of_raised hOut hKept hWrites role
  · subst hResult
    exact replaced_of_returned hOut hTarget
  · have hSame := untouched_of_no_target sql d stamp faults payload hNone
    rw [hOut] at hSame
    exact hSame
  · subst hResult
    obtain ⟨hName, files, hFiles, -⟩ := snapshot_of_returned hOut hKept hTargets
    exact ⟨hName, isSome_iff_exists.mpr ⟨files, hFiles⟩⟩
  · subst hResult
    obtain ⟨role, data, hTarget, hLive⟩ := hExisted
    obtain ⟨-, files, hFiles, hCopies⟩ :=
      snapshot_of_returned hOut hKept (ne_nil_of_mem hTarget)
    have hCopy {role : Role} {data : β}
        (hTarget : (role, data) ∈ restoreTargets cidr payload.files) :
        files role = savedCopy sql d role := by
      rw [hCopies, if_pos (mem_roles.mpr ⟨data, hTarget⟩)]
    have hFrom {role : Role} {saved : β} (hSaved : files role = some saved) :
        savedCopy sql d role = some saved ∧ (role = .cidrDb → cidr = true) := by
      rw [hCopies] at hSaved
      split_ifs at hSaved with hIn
      obtain ⟨data, hTarget⟩ := mem_roles.mp hIn
      exact ⟨hSaved, (mem_restoreTargets.mp hTarget).2⟩
    obtain ⟨saved, hSaved⟩ := isSome_iff_exists.mp
      ((congrArg Option.isSome (hCopy hTarget)).trans (savedCopy_isSome.trans hLive))
    obtain ⟨back, hBack, rfl⟩ := load_of_sound hFiles hSaved
      (fun data hData => (hFrom hData).2 rfl)
      (fun role hType copy hSaved => hSound role hType copy (hFrom hSaved).1)
    refine ⟨back, hBack, fun stamp' faults' d'' result' hAgain role data hTarget old hOld => ?_⟩
    rw [← content_savedCopy, ← hCopy hTarget] at hOld
    obtain ⟨copy, hFile, rfl⟩ := map_eq_some_iff.mp hOld
    exact replaced_of_returned hAgain (mem_restoreTargets.mpr ⟨hFile, (hFrom hFile).2⟩)

end

/-- A file of one number, or a database of updates. -/
inductive DemoFile where
  | text (n : ℕ)
  | database (updates : Option (List (ℤ × String)))
  deriving DecidableEq

/-- A WAL holds further updates. -/
def demoSqlite : Sqlite DemoFile Unit where
  read data wal :=
    match data, wal with
    | .database updates, some (.database more) => some ⟨some (updates.getD [] ++ more.getD []), ()⟩
    | .database updates, _ => some ⟨updates, ()⟩
    | .text _, _ => none
  backup c := .database c.updates
  sound data := match data with
    | .database _ => true
    | .text _ => false
  read_backup _ := rfl
  read_alone data wal h := by
    split at h
    · cases h
    · cases h
    · rfl

def noonStamp : Stamp := ⟨"20260505_120000_000000", by decide⟩

/-- A database of updates that came at noon. -/
def updatesFile (ids : List ℤ) : DemoFile := .database (some (ids.map (·, "2026-05-05 12:00")))

/-- Update 8 is still in the WAL. -/
def liveDisk : Disk DemoFile where
  live
    | .db => some (updatesFile [7])
    | .cidrDb => none
    | .env => some (.text 5)
  wal role := if role = .db then some (updatesFile [8]) else none
  snapshots := Table.empty

def archivedFiles : Payload DemoFile where
  fileName := "adminpanelaz_20260401_030000_000000.tar.gz"
  files
    | .db => some (updatesFile [1])
    | .cidrDb => none
    | .env => some (.text 6)

/-- The second write raises. -/
theorem restore_safe_second_write :
    SnapshotKept liveDisk noonStamp ∧
      RestoreSafe demoSqlite carryOverProcessedUpdates false liveDisk archivedFiles noonStamp
        { fails := (· = .write .env) }
        (applyRestorePayload demoSqlite false liveDisk archivedFiles noonStamp
          { fails := (· = .write .env) }) := by
  refine ⟨?_, restore_safe demoSqlite false liveDisk archivedFiles noonStamp _⟩
  show _ ∈ keptNames [_]
  decide

/-- The restored database is not the archived one: it has the updates of the live one. -/
theorem updates_carried_over :
    SnapshotKept liveDisk noonStamp ∧
      ¬ RestoreSafe demoSqlite (fun _ target => target) false liveDisk archivedFiles noonStamp {}
        (applyRestorePayload demoSqlite false liveDisk archivedFiles noonStamp {}) := by
  have hDb : (applyRestorePayload demoSqlite false liveDisk archivedFiles noonStamp {}).1.content
      demoSqlite .db =
        some (.database ⟨some ([1, 7, 8].map (·, "2026-05-05 12:00")), ()⟩) := by decide
  refine ⟨by show _ ∈ keptNames [_]; decide, fun hSafe => ?_⟩
  have hTarget : (Role.db, updatesFile [1]) ∈ restoreTargets false archivedFiles.files := by decide
  have hLive : liveDisk.content demoSqlite .db =
      some (.database ⟨some ([7, 8].map (·, "2026-05-05 12:00")), ()⟩) := by decide
  rcases hSafe.replaced _ rfl .db _ hTarget with hSame | ⟨-, old, hOld, hCarried⟩
  · rw [hDb] at hSame
    revert hSame
    decide
  · rw [hLive] at hOld
    rw [hDb, ← Option.some.inj hOld] at hCarried
    revert hCarried
    decide

end AdminPanel.Backup
