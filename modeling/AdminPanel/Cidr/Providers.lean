import AdminPanel.Cidr.Staging
import AdminPanel.Lib.Table

/-!
# The provider tables of the CIDR database

`db_service.py` and `cidr_csv_import.py`: the prefixes of each provider are downloaded and replace
the stored ones, entries are added by hand, and providers are cleared. Every step may raise. The
rows lie in one database, the metadata and the refresh log in another.

* `importActs`, `importCidrs` — the import with its chunk commits, and what a fault leaves of it;
* `refreshTurn`, `refreshAll` — a refresh, provider by provider;
* `addCustomProviderEntries`, `clearProviderData` — the other writers;
* `getLastFailedProviders` — the providers to be tried again.
-/

namespace AdminPanel.Cidr

open Lib (Table)
open Lib.PyText (strip)
open Lib.Ipv4 (Network)

/-! ## The import -/

structure Config where
  /-- `cidr_db_csv_import_batch` -/
  batchSize : ℕ
  /-- `cidr_db_csv_import_chunk_rows` -/
  chunkRows : ℕ
  /-- the keys of `PROVIDER_SOURCES` -/
  providers : List Text
  plain : ∀ key ∈ providers, key.head? ≠ some '_'
  /-- the keys of `IP_FILES` -/
  ipFiles : List Text
  /-- `CIDR_FALLBACK_MIN_CANDIDATE` -/
  minCandidate : ℕ

/-- What an import does to the table, in order. -/
inductive ImportAct
  | delete
  | insert (batch : List ProviderCidr)
  | commit
  deriving DecidableEq, Repr

/-- A table and an open transaction on it. -/
structure Transaction where
  committed : List ProviderCidr
  working : List ProviderCidr

def ImportAct.run (providerKey : Text) (t : Transaction) : ImportAct → Transaction
  | .delete => { t with working := t.working.filter (·.providerKey ≠ providerKey) }
  | .insert batch => { t with working := t.working ++ batch }
  | .commit => { t with committed := t.working }

/-- The loop over the rows of the CSV, with the batch that is being filled and the rows since the
last commit. -/
def importLoop (batchSize chunkRows : ℕ) (useChunkCommits : Bool) :
    List ProviderCidr → ℕ → List ProviderCidr → List ImportAct
  | batch, _, [] => (if batch = [] then [] else [.insert batch]) ++ [.commit]
  | batch, rowsSinceCommit, row :: rows =>
    if (batch ++ [row]).length < batchSize then
      importLoop batchSize chunkRows useChunkCommits (batch ++ [row]) rowsSinceCommit rows
    else
      .insert (batch ++ [row]) ::
        if useChunkCommits && decide (chunkRows ≤ rowsSinceCommit + (batch ++ [row]).length) then
          .commit :: importLoop batchSize chunkRows useChunkCommits [] 0 rows
        else
          importLoop batchSize chunkRows useChunkCommits []
            (rowsSinceCommit + (batch ++ [row]).length) rows

def importActs (config : Config) (rows : List ProviderCidr) : List ImportAct :=
  .delete :: importLoop config.batchSize config.chunkRows
    (0 < config.chunkRows && config.chunkRows < rows.length) [] 0 rows

/-- `import_provider_cidr_csv`: the table that is left, when the act at the position `fault`
raises. -/
def importCidrs (config : Config) (table : List ProviderCidr) (providerKey : Text)
    (rows : List ProviderCidr) (fault : Option ℕ) : List ProviderCidr :=
  let acts := importActs config rows
  let done := (fault.map acts.take).getD acts
  (done.foldl (ImportAct.run providerKey) ⟨table, table⟩).committed

/-- The rows that `_upsert_provider_cidrs` is to store. -/
def newRows (providerKey : Text) (items : List Item) : List ProviderCidr :=
  (writeProviderCidrCsv providerKey [] items).filterMap insertedRow

/-- Where `_upsert_provider_cidrs`, or what is around it, raises. -/
inductive PersistFault
  /-- ASN rows, the CSV, the commit of the session -/
  | beforeImport
  | import (position : ℕ)
  /-- metadata, snapshots, the last commit -/
  | afterImport
  deriving DecidableEq, Repr

/-- The table after the import of the items, or what a fault leaves. -/
def upsertCidrs (config : Config) (table : List ProviderCidr) (providerKey : Text)
    (items : List Item) : Option PersistFault → List ProviderCidr
  | some .beforeImport => table
  | some (.import position) =>
    importCidrs config table providerKey (newRows providerKey items) (some position)
  | _ => importCidrs config table providerKey (newRows providerKey items) none

/-! ## The databases -/

/-- `refresh_status`; `partly` stands for `partial` -/
inductive RefreshStatus
  | never
  | ok
  | partly
  | error
  deriving DecidableEq, Repr

/-- A row of `provider_meta`. -/
structure ProviderMeta where
  cidrCount : ℕ := 0
  refreshStatus : RefreshStatus := .never
  deriving DecidableEq, Repr

inductive LogStatus
  | running
  | cleared
  | done (status : RefreshStatus)
  deriving DecidableEq, Repr

/-- A row of `cidr_db_refresh_log`; the details are the statuses by provider. -/
structure RefreshLog where
  startedAt : ℕ
  status : LogStatus
  details : Option (Table Text RefreshStatus)

structure CidrDb where
  cidrs : List ProviderCidr
  providerMeta : Text → Option ProviderMeta
  logs : List RefreshLog

/-- `_update_provider_meta`; a count of `none` leaves the stored one. -/
def CidrDb.updateProviderMeta (db : CidrDb) (providerKey : Text) (cidrCount : Option ℕ)
    (status : RefreshStatus) : CidrDb :=
  let old := (db.providerMeta providerKey).getD {}
  { db with
    providerMeta := fun key =>
      if key = providerKey then some ⟨cidrCount.getD old.cidrCount, status⟩
      else db.providerMeta key }

@[simp] theorem CidrDb.cidrs_updateProviderMeta (db : CidrDb) (providerKey : Text)
    (cidrCount : Option ℕ) (status : RefreshStatus) :
    (db.updateProviderMeta providerKey cidrCount status).cidrs = db.cidrs := rfl

def CidrDb.countOf (db : CidrDb) (providerKey : Text) : ℕ := (rowsOf db.cidrs providerKey).length

/-! ## Downloads -/

/-- An item of `_extract_cidrs_with_meta`, whose prefix is normalised. -/
structure FetchedItem where
  network : Network
  positive : network.prefixLen ≠ 0
  region : Option Text
  countries : Option (List Text)

def FetchedItem.item (fetched : FetchedItem) : Item :=
  ⟨networkText fetched.network, fetched.region, fetched.countries⟩

/-- `sorted(set(codes))` -/
def sortedSet (codes : List Text) : List Text := codes.dedup.insertionSort (· ≤ ·)

def nonEmpty {α : Type} (l : List α) : Option (List α) := if l.isEmpty then none else some l

/-- An item met again. -/
def mergeItem (existing item : Item) : Item :=
  let oldCountries := existing.countries.getD []
  let newCountries := item.countries.getD []
  let countries := sortedSet (oldCountries ++ newCountries)
  if (existing.regionField = [] ∧ item.regionField ≠ []) ∨
      (oldCountries = [] ∧ newCountries ≠ []) then
    { existing with
      region := (nonEmpty existing.regionField).or (nonEmpty item.regionField)
      countries := nonEmpty countries }
  else if countries ≠ [] then { existing with countries := some countries }
  else existing

def mergeInto (merged : List Item) (item : Item) : List Item :=
  let cidr := strip item.cidr
  if cidr = [] then merged
  else if merged.any (·.cidr = cidr) then
    merged.map fun existing => if existing.cidr = cidr then mergeItem existing item else existing
  else
    merged ++ [⟨cidr, nonEmpty item.regionField, nonEmpty (item.countries.getD [])⟩]

def mergeCidrItems (items : List Item) : List Item := items.foldl mergeInto []

/-- What the downloads of a provider give. -/
structure Fetched where
  items : List FetchedItem
  asnErrors : Bool

def countUniqueCidrs (items : List Item) : ℕ :=
  ((items.filter (·.cidr ≠ [])).map fun item => strip item.cidr).dedup.length

/-- `_should_preserve_previous_pool`. The quotient of the counts is rounded; with this rounding a
drop by exactly 45% is below the ratio. -/
def shouldPreservePreviousPool (config : Config) (previous candidate : ℕ) (asnErrors : Bool) :
    Bool :=
  if previous = 0 then false
  else if candidate = 0 then true
  else if candidate = previous ∧ !asnErrors then false
  else if 2 * candidate ≤ previous then true
  else if config.minCandidate ≤ candidate ∧ !asnErrors then false
  else if candidate < config.minCandidate then
    !(decide (previous < config.minCandidate) && !asnErrors)
  else asnErrors && decide (9 * previous < 20 * (previous - candidate))

/-! ## The refresh -/

/-- What a refresh meets at one provider. -/
structure TurnEnv where
  /-- there are sources -/
  sources : Bool := true
  /-- `none` when the downloads raise -/
  fetched : Option Fetched
  fault : Option PersistFault := none
  /-- deleting the rows after a fault raises -/
  cleanupFails : Bool := false
  /-- writing the metadata after a fault, or for a kept pool, raises -/
  markFails : Bool := false

/-- How the turn of a provider ends, when it does not raise. -/
inductive TurnEnd
  /-- no sources, or no download -/
  | failed
  | stored
  /-- the previous pool is kept -/
  | kept
  /-- storing raised -/
  | lost
  deriving DecidableEq, Repr

/-- The merged items, unless there are none. -/
def TurnEnv.merged (env : TurnEnv) : Option (List Item) :=
  env.fetched.bind fun fetched => nonEmpty (mergeCidrItems (fetched.items.map FetchedItem.item))

def TurnEnv.asnErrors (env : TurnEnv) : Bool := (env.fetched.map Fetched.asnErrors).getD false

/-- `provider_status` of what is stored -/
def TurnEnv.status (env : TurnEnv) : RefreshStatus := if env.asnErrors then .partly else .ok

/-- The items that a turn goes to store. -/
def TurnEnv.toStore (config : Config) (previous : ℕ) (env : TurnEnv) : Option (List Item) :=
  if env.sources then
    env.merged.filter fun items =>
      !shouldPreservePreviousPool config previous (countUniqueCidrs items) env.asnErrors
  else none

/-- How a turn ends that does not raise. -/
def TurnEnv.outcome (config : Config) (previous : ℕ) (env : TurnEnv) : TurnEnd :=
  match env.sources, env.merged with
  | true, some items =>
    if shouldPreservePreviousPool config previous (countUniqueCidrs items) env.asnErrors then .kept
    else if env.fault.isSome then .lost
    else .stored
  | _, _ => .failed

/-- The failure is noted in the metadata. -/
def markError (db : CidrDb) (providerKey : Text) (env : TurnEnv) (turnEnd : TurnEnd) :
    CidrDb × Option TurnEnd :=
  if env.markFails then (db, none)
  else (db.updateProviderMeta providerKey none .error, some turnEnd)

/-- Storing raised: what there is of the provider's rows goes. -/
def cleanUp (table : List ProviderCidr) (providerKey : Text) (env : TurnEnv) : List ProviderCidr :=
  if env.cleanupFails then table else table.filter (·.providerKey ≠ providerKey)

/-- The loop body of `refresh_all_providers`; the end is `none` when it raises. -/
def refreshTurn (config : Config) (db : CidrDb) (providerKey : Text) (previous : ℕ)
    (env : TurnEnv) : CidrDb × Option TurnEnd :=
  match env.sources, env.merged with
  | false, _ => markError db providerKey env .failed
  | true, none => markError db providerKey env .failed
  | true, some items =>
    if shouldPreservePreviousPool config previous (countUniqueCidrs items) env.asnErrors then
      if env.markFails then (db, none)
      else (db.updateProviderMeta providerKey (some previous) .partly, some .kept)
    else
      let table := upsertCidrs config db.cidrs providerKey items env.fault
      if env.fault.isSome then
        markError { db with cidrs := cleanUp table providerKey env } providerKey env .lost
      else
        ({ db with cidrs := table }.updateProviderMeta providerKey
          (some (newRows providerKey items).length) env.status, some .stored)

section

variable {config : Config} {db : CidrDb} {providerKey : Text} {previous : ℕ} {env : TurnEnv}
  {items : List Item}

theorem toStore_eq_some : env.toStore config previous = some items ↔
    env.sources = true ∧ env.merged = some items ∧
      shouldPreservePreviousPool config previous (countUniqueCidrs items) env.asnErrors =
        false := by
  unfold TurnEnv.toStore
  split_ifs with hSources
  · simp [Option.filter_eq_some_iff, hSources]
  · exact iff_of_false nofun fun h => hSources h.1

theorem refreshTurn_stored (hStore : env.toStore config previous = some items)
    (hFault : env.fault = none) :
    refreshTurn config db providerKey previous env =
      ({ db with cidrs := upsertCidrs config db.cidrs providerKey items none }.updateProviderMeta
        providerKey (some (newRows providerKey items).length) env.status, some .stored) := by
  obtain ⟨hSources, hMerged, hPreserve⟩ := toStore_eq_some.mp hStore
  simp [refreshTurn, hSources, hMerged, hPreserve, hFault]

theorem refreshTurn_lost (hStore : env.toStore config previous = some items)
    (hFault : env.fault.isSome = true) :
    refreshTurn config db providerKey previous env =
      markError
        { db with cidrs :=
            cleanUp (upsertCidrs config db.cidrs providerKey items env.fault) providerKey env }
        providerKey env .lost := by
  obtain ⟨hSources, hMerged, hPreserve⟩ := toStore_eq_some.mp hStore
  simp [refreshTurn, hSources, hMerged, hPreserve, hFault]

/-- A provider of which nothing is stored has failed, or its pool is kept. -/
theorem refreshTurn_skipped (hStore : env.toStore config previous = none) :
    refreshTurn config db providerKey previous env =
        (if env.markFails then (db, none)
        else (db.updateProviderMeta providerKey none .error, some .failed)) ∨
      env.outcome config previous = .kept ∧ refreshTurn config db providerKey previous env =
        (if env.markFails then (db, none)
        else (db.updateProviderMeta providerKey (some previous) .partly, some .kept)) := by
  unfold refreshTurn TurnEnv.outcome
  rcases hSources : env.sources with _ | _
  · exact Or.inl rfl
  rcases hMerged : env.merged with _ | items
  · exact Or.inl rfl
  · have hPreserve : shouldPreservePreviousPool config previous (countUniqueCidrs items)
        env.asnErrors = true := by
      by_contra hNot
      rw [toStore_eq_some.mpr ⟨hSources, hMerged, Bool.eq_false_of_not_eq_true hNot⟩] at hStore
      cases hStore
    exact Or.inr ⟨if_pos hPreserve, if_pos hPreserve⟩

end

/-- The counters and the details of a refresh. -/
structure Summary where
  updated : ℕ := 0
  failed : ℕ := 0
  partials : ℕ := 0
  perProvider : Table Text RefreshStatus := .empty

/-- The counters are raised before a provider is stored. -/
def Summary.countUpdated (summary : Summary) (status : RefreshStatus) : Summary :=
  { summary with
    updated := summary.updated + 1
    partials := summary.partials + if status = .partly then 1 else 0 }

def Summary.note (summary : Summary) (providerKey : Text) (status : RefreshStatus) : Summary :=
  { summary with perProvider := summary.perProvider.set providerKey status }

/-- What the turn of a provider adds, whose items are stored with `status`. -/
def Summary.count (summary : Summary) (providerKey : Text) (status : RefreshStatus) :
    TurnEnd → Summary
  | .failed => { summary.note providerKey .error with failed := summary.failed + 1 }
  | .stored => (summary.countUpdated status).note providerKey status
  | .kept => (summary.countUpdated .partly).note providerKey .partly
  | .lost => summary.countUpdated status

/-- One provider after the other, until one raises. -/
def refreshLoop (config : Config) (previous : Text → ℕ) (env : ℕ → TurnEnv) :
    ℕ → List Text → CidrDb → Summary → CidrDb × Option Summary
  | _, [], db, summary => (db, some summary)
  | index, providerKey :: rest, db, summary =>
    match refreshTurn config db providerKey (previous providerKey) (env index) with
    | (after, none) => (after, none)
    | (after, some turnEnd) =>
      refreshLoop config previous env (index + 1) rest after
        (summary.count providerKey (env index).status turnEnd)

/-- What a refresh meets. -/
structure RefreshEnv where
  now : ℕ
  turn : ℕ → TurnEnv
  /-- the log entry cannot be made -/
  beginFails : Bool := false
  /-- the log entry cannot be completed -/
  logFails : Bool := false

structure RefreshReport where
  status : RefreshStatus
  providersUpdated : ℕ
  providersFailed : ℕ
  perProvider : Table Text RefreshStatus

def filesToUpdate (config : Config) (selected : List Text) : List Text :=
  (if selected.isEmpty then config.providers else selected).filter (· ∈ config.providers)

def Summary.finalStatus (summary : Summary) : RefreshStatus :=
  if 0 < summary.failed ∧ summary.updated = 0 then .error
  else if 0 < summary.failed ∨ 0 < summary.partials then .partly
  else .ok

/-- The entry of the log that is made before the first provider. -/
def CidrDb.beginLog (db : CidrDb) (now : ℕ) : CidrDb :=
  { db with logs := db.logs ++ [⟨now, .running, none⟩] }

/-- The entry is completed; `logs` are those before it. -/
def completeLog (logs : List RefreshLog) (env : RefreshEnv) (fileCount : ℕ) (after : CidrDb)
    (summary : Summary) : CidrDb × RefreshReport :=
  if env.logFails then (after, ⟨.error, 0, fileCount, .empty⟩)
  else
    ({ after with
        logs := logs ++ [⟨env.now, .done summary.finalStatus, some summary.perProvider⟩] },
      ⟨summary.finalStatus, summary.updated, summary.failed, summary.perProvider⟩)

/-- `refresh_all_providers`, not a dry run; the report is `none` when it raises. -/
def refreshAll (config : Config) (db : CidrDb) (selected : List Text) (env : RefreshEnv) :
    CidrDb × Option RefreshReport :=
  if (filesToUpdate config selected).isEmpty then (db, some ⟨.error, 0, 0, .empty⟩)
  else if env.beginFails then (db, none)
  else
    match refreshLoop config db.countOf env.turn 0 (filesToUpdate config selected)
        (db.beginLog env.now) {} with
    | (after, none) => (after, none)
    | (after, some summary) =>
      let (logged, report) :=
        completeLog db.logs env (filesToUpdate config selected).length after summary
      (logged, some report)

/-! ## The other calls -/

def laterLog (best : Option RefreshLog) (log : RefreshLog) : Option RefreshLog :=
  match best with
  | none => some log
  | some earlier => if earlier.startedAt < log.startedAt then some log else some earlier

/-- The log that began last, without those of clearings. -/
def latestLog (logs : List RefreshLog) : Option RefreshLog :=
  (logs.filter fun log => log.status ≠ .cleared).foldl laterLog none

def getLastFailedProviders (db : CidrDb) : List Text :=
  match (latestLog db.logs).bind RefreshLog.details with
  | none => []
  | some details =>
    sortedSet (details.keys.filter fun key =>
      key.head? ≠ some '_' ∧ details.row? key = some .error)

/-- What an addition is given and meets. -/
structure AddEnv where
  /-- what `CIDR_V4_SCAN_PATTERN` finds in the entries -/
  parsedCidrs : List Text
  hasAsns : Bool := false
  fault : Option PersistFault := none

/-- The items that an addition stores with those that are there. -/
def customItems (table : List ProviderCidr) (providerKey : Text) (parsed : List Text) : List Item :=
  let existing := (rowsOf table providerKey).map readBack
  (parsed.eraseDups.filter fun cidr => !existing.any (·.cidr = cidr)).map (⟨·, none, none⟩)

/-- The table after the insertion of an addition, if it has anything to insert. -/
def insertCustom (config : Config) (table : List ProviderCidr) (providerKey : Text) (env : AddEnv) :
    List ProviderCidr :=
  let items := customItems table providerKey env.parsedCidrs
  if items.isEmpty then table
  else
    upsertCidrs config table providerKey ((rowsOf table providerKey).map readBack ++ items) env.fault

/-- `add_custom_provider_entries`; the answer is `none` when it raises, and says otherwise whether
it succeeded. -/
def addCustomProviderEntries (config : Config) (db : CidrDb) (providerKey : Text) (env : AddEnv) :
    CidrDb × Option Bool :=
  if providerKey ∉ config.ipFiles ∨ (env.parsedCidrs = [] ∧ !env.hasAsns) then (db, some false)
  else
    let table := insertCustom config db.cidrs providerKey env
    if env.fault.isSome then ({ db with cidrs := table }, none)
    else
      ({ db with cidrs := table }.updateProviderMeta providerKey
        (some (rowsOf table providerKey).length) .ok, some true)

/-- Whether an addition goes past its checks. -/
def AddEnv.accepted (config : Config) (providerKey : Text) (env : AddEnv) : Prop :=
  providerKey ∈ config.ipFiles ∧ (env.parsedCidrs ≠ [] ∨ env.hasAsns = true)

section

variable {config : Config} {db : CidrDb} {providerKey : Text} {env : AddEnv}

theorem addition_refused (h : ¬env.accepted config providerKey) :
    addCustomProviderEntries config db providerKey env = (db, some false) := by
  refine if_pos ?_
  by_contra hNot
  obtain ⟨hKey, hGiven⟩ := not_or.mp hNot
  refine h ⟨not_not.mp hKey, or_iff_not_imp_left.mpr fun hCidrs => ?_⟩
  by_contra hAsns
  exact hGiven ⟨not_not.mp hCidrs, by simpa using hAsns⟩

theorem addition_accepted (h : env.accepted config providerKey) :
    addCustomProviderEntries config db providerKey env =
      if env.fault.isSome then
        ({ db with cidrs := insertCustom config db.cidrs providerKey env }, none)
      else
        ({ db with cidrs := insertCustom config db.cidrs providerKey env }.updateProviderMeta
          providerKey
          (some (rowsOf (insertCustom config db.cidrs providerKey env) providerKey).length) .ok,
          some true) := by
  refine if_neg ?_
  rintro (hKey | ⟨hCidrs, hAsns⟩)
  · exact hKey h.1
  · rcases h.2 with hGiven | hGiven
    · exact hGiven hCidrs
    · rw [hGiven] at hAsns
      cases hAsns

end

/-- Where clearing raises: before the commit of the rows, or between the two commits. -/
inductive ClearFault
  | before
  | between
  deriving DecidableEq, Repr

def clearTargets (config : Config) (selected : Option (List Text)) : List Text :=
  (selected.getD config.providers).filter (· ∈ config.providers)

/-- `clear_provider_data`; whether it returns -/
def clearProviderData (config : Config) (db : CidrDb) (selected : Option (List Text)) (now : ℕ)
    (fault : Option ClearFault) : CidrDb × Bool :=
  let targets := clearTargets config selected
  let cleared := { db with cidrs := db.cidrs.filter (·.providerKey ∉ targets) }
  if targets.isEmpty then (db, true)
  else
    match fault with
    | some .before => (db, false)
    | some .between => (cleared, false)
    | none =>
      ({ cleared with
          providerMeta := fun key => if key ∈ targets then none else db.providerMeta key
          logs :=
            if config.providers.all (· ∈ targets) then []
            else db.logs ++ [⟨now, .cleared, none⟩] }, true)

end AdminPanel.Cidr
