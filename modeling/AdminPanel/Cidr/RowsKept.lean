import AdminPanel.Cidr.Providers
import AdminPanel.Lib.Runs

/-!
# What a failed refresh leaves of the stored prefixes

* `committedRows` — what an import has committed when it stops, and `committedRows_importActs`;
* `TurnKeeps`, `AdditionKeeps` — a provider has the new rows if the call succeeds and the old ones
  otherwise;
* `TurnSafe`, `AdditionSafe` — storing does not raise where rows would be lost;
* `turnKeeps_iff`, `additionKeeps_iff` — the one is exactly the other.

Main result: `rows_kept_iff`, for every run of refreshes and additions.
-/

namespace AdminPanel.Cidr

open List

open Lib (Along along_congr)

variable {config : Config} {db : CidrDb} {table : List ProviderCidr} {providerKey other : Text}

/-! ## An import that stops -/

/-- The new rows that are inserted, and those that are committed. -/
def ImportAct.progress (done : List ProviderCidr × Option (List ProviderCidr)) :
    ImportAct → List ProviderCidr × Option (List ProviderCidr)
  | .delete => ([], done.2)
  | .insert batch => (done.1 ++ batch, done.2)
  | .commit => (done.1, some done.1)

/-- The new rows that an import has committed after `acts`, if it has committed anything. -/
def committedRows (acts : List ImportAct) : Option (List ProviderCidr) :=
  (acts.foldl ImportAct.progress ([], none)).2

/-- The rows of the other providers. -/
def othersOf (table : List ProviderCidr) (providerKey : Text) : List ProviderCidr :=
  table.filter (·.providerKey ≠ providerKey)

/-- The table with `rows` for those of the provider, if there are any to take their place. -/
def replaced (table : List ProviderCidr) (providerKey : Text) :
    Option (List ProviderCidr) → List ProviderCidr
  | none => table
  | some rows => othersOf table providerKey ++ rows

def OfKey (providerKey : Text) (rows : List ProviderCidr) : Prop :=
  ∀ row ∈ rows, row.providerKey = providerKey

theorem othersOf_append {rows : List ProviderCidr} (h : OfKey providerKey rows) :
    othersOf (othersOf table providerKey ++ rows) providerKey = othersOf table providerKey := by
  have hRows : othersOf rows providerKey = [] :=
    filter_eq_nil_iff.mpr fun row hRow hNe => of_decide_eq_true hNe (h row hRow)
  unfold othersOf at hRows ⊢
  rw [filter_append, filter_filter, hRows, append_nil]
  simp only [Bool.and_self]

theorem rowsOf_append {rows : List ProviderCidr} (h : OfKey providerKey rows) :
    rowsOf (othersOf table providerKey ++ rows) providerKey = rows := by
  have hOthers : rowsOf (othersOf table providerKey) providerKey = [] := by
    rw [rowsOf, othersOf, filter_filter, filter_eq_nil_iff]
    intro row _ hRow
    simp only [Bool.and_eq_true, decide_eq_true_eq] at hRow
    exact hRow.2 hRow.1
  have hRows : rowsOf rows providerKey = rows :=
    filter_eq_self.mpr fun row hRow => decide_eq_true (h row hRow)
  rw [rowsOf, filter_append]
  show rowsOf _ _ ++ rowsOf _ _ = _
  rw [hOthers, hRows, nil_append]

theorem rowsOf_othersOf (hOther : other ≠ providerKey) :
    rowsOf (othersOf table providerKey) other = rowsOf table other := by
  rw [rowsOf, othersOf, filter_filter]
  refine filter_congr fun row _ => ?_
  rw [Bool.eq_iff_iff, Bool.and_eq_true, decide_eq_true_eq, decide_eq_true_eq]
  exact and_iff_left_of_imp fun hRow => hRow ▸ hOther

theorem rowsOf_replaced {rows : Option (List ProviderCidr)} (h : ∀ r ∈ rows, OfKey providerKey r) :
    rowsOf (replaced table providerKey rows) providerKey =
      rows.getD (rowsOf table providerKey) := by
  cases rows with
  | none => rfl
  | some rows => exact rowsOf_append (h rows rfl)

theorem rowsOf_replaced_other {rows : Option (List ProviderCidr)}
    (h : ∀ r ∈ rows, OfKey providerKey r) (hOther : other ≠ providerKey) :
    rowsOf (replaced table providerKey rows) other = rowsOf table other := by
  cases rows with
  | none => rfl
  | some rows =>
    have hRows : rowsOf rows other = [] :=
      filter_eq_nil_iff.mpr fun row hRow hKey =>
        hOther ((of_decide_eq_true hKey).symm.trans (h rows rfl row hRow))
    show rowsOf (othersOf table providerKey ++ rows) other = _
    rw [rowsOf, filter_append]
    show rowsOf _ _ ++ rowsOf _ _ = _
    rw [hRows, append_nil, rowsOf_othersOf hOther]

/-- The transaction of an import beside what it has inserted and committed. -/
structure Tracks (table : List ProviderCidr) (providerKey : Text) (t : Transaction)
    (done : List ProviderCidr × Option (List ProviderCidr)) : Prop where
  working : t.working = othersOf table providerKey ++ done.1
  committed : t.committed = replaced table providerKey done.2
  inserted : OfKey providerKey done.1
  stored : ∀ rows ∈ done.2, OfKey providerKey rows

def ImportAct.batchOf : ImportAct → List ProviderCidr
  | .insert batch => batch
  | _ => []

/-- One act of an import, on the open transaction. -/
theorem tracks_run {t : Transaction} {done : List ProviderCidr × Option (List ProviderCidr)}
    (h : Tracks table providerKey t done) {act : ImportAct} (hAct : OfKey providerKey act.batchOf) :
    Tracks table providerKey (act.run providerKey t) (act.progress done) := by
  obtain ⟨hWorking, hCommitted, hInserted, hStored⟩ := h
  cases act with
  | delete =>
    refine ⟨?_, hCommitted, fun row hRow => absurd hRow not_mem_nil, hStored⟩
    show othersOf t.working providerKey = othersOf table providerKey ++ []
    rw [hWorking, othersOf_append hInserted, append_nil]
  | insert batch =>
    refine ⟨?_, hCommitted, ?_, hStored⟩
    · show t.working ++ batch = othersOf table providerKey ++ (done.1 ++ batch)
      rw [hWorking, append_assoc]
    · intro row hRow
      exact (mem_append.mp hRow).elim (hInserted row) (hAct row)
  | commit =>
    refine ⟨hWorking, hWorking, hInserted, fun rows hRows => ?_⟩
    exact Option.some.inj hRows ▸ hInserted

theorem tracks_foldl {acts : List ImportAct} {t : Transaction}
    {done : List ProviderCidr × Option (List ProviderCidr)}
    (h : Tracks table providerKey t done) (hActs : ∀ act ∈ acts, OfKey providerKey act.batchOf) :
    Tracks table providerKey (acts.foldl (ImportAct.run providerKey) t)
      (acts.foldl ImportAct.progress done) := by
  induction acts generalizing t done with
  | nil => exact h
  | cons act acts ih =>
    rw [forall_mem_cons] at hActs
    exact ih (tracks_run h hActs.1) hActs.2

/-- Every batch holds rows of the provider. -/
theorem ofKey_importLoop {batchSize chunkRows count : ℕ} {useChunkCommits : Bool}
    {batch rows : List ProviderCidr} (hBatch : OfKey providerKey batch)
    (hRows : OfKey providerKey rows) :
    ∀ act ∈ importLoop batchSize chunkRows useChunkCommits batch count rows,
      OfKey providerKey act.batchOf := by
  have hNone : OfKey providerKey [] := fun row hRow => absurd hRow not_mem_nil
  induction rows generalizing batch count with
  | nil =>
    intro act hAct
    rw [importLoop] at hAct
    rcases mem_append.mp hAct with hInsert | hCommit
    · split_ifs at hInsert
      · exact absurd hInsert not_mem_nil
      · exact mem_singleton.mp hInsert ▸ hBatch
    · exact mem_singleton.mp hCommit ▸ hNone
  | cons row rows ih =>
    have hFirst : OfKey providerKey [row] := fun r hRow =>
      hRows r (mem_singleton.mp hRow ▸ mem_cons_self)
    have hRest : OfKey providerKey rows := fun r hRow => hRows r (mem_cons_of_mem row hRow)
    have hFull : OfKey providerKey (batch ++ [row]) := fun r hRow =>
      (mem_append.mp hRow).elim (hBatch r) (hFirst r)
    intro act hAct
    rw [importLoop] at hAct
    split_ifs at hAct with hSize hChunk
    · exact ih hFull hRest act hAct
    · rcases mem_cons.mp hAct with rfl | hAct
      · exact hFull
      · rcases mem_cons.mp hAct with rfl | hAct
        · exact hNone
        · exact ih hNone hRest act hAct
    · rcases mem_cons.mp hAct with rfl | hAct
      · exact hFull
      · exact ih hNone hRest act hAct

/-- All rows of the loop are committed at its end. -/
theorem foldl_importLoop {batchSize chunkRows count : ℕ} {useChunkCommits : Bool}
    {batch rows inserted : List ProviderCidr} {committed : Option (List ProviderCidr)} :
    ((importLoop batchSize chunkRows useChunkCommits batch count rows).foldl ImportAct.progress
      (inserted, committed)).2 = some (inserted ++ batch ++ rows) := by
  induction rows generalizing batch count inserted committed with
  | nil =>
    rw [importLoop, append_nil]
    split_ifs with hBatch
    · rw [hBatch, append_nil]
      rfl
    · rfl
  | cons row rows ih =>
    have hNext : inserted ++ (batch ++ [row]) ++ [] ++ rows = inserted ++ batch ++ row :: rows := by
      simp only [append_nil, append_assoc, singleton_append]
    rw [importLoop]
    split_ifs with hSize hChunk
    · rw [ih, ← hNext, append_nil]
    · rw [foldl_cons, foldl_cons]
      exact ih.trans (congrArg some hNext)
    · rw [foldl_cons]
      exact ih.trans (congrArg some hNext)

theorem committedRows_importActs {rows : List ProviderCidr} :
    committedRows (importActs config rows) = some rows := foldl_importLoop

theorem newRows_eq {items : List Item} :
    newRows providerKey items = (dedupeCidrItems [] items).map (storedRow providerKey) := by
  rw [newRows, writeProviderCidrCsv, filterMap_map]
  exact filterMap_eq_map_iff_forall_eq_some.mpr fun item _ => insertedRow_csvRow item

theorem ofKey_newRows {items : List Item} : OfKey providerKey (newRows providerKey items) := by
  intro row hRow
  rw [newRows_eq] at hRow
  obtain ⟨item, -, rfl⟩ := mem_map.mp hRow
  rfl

/-- What of the new rows is committed when storing raises at `fault`, or when it does not. -/
def committedAt (config : Config) (rows : List ProviderCidr) :
    Option PersistFault → Option (List ProviderCidr)
  | some .beforeImport => none
  | some (.import position) => committedRows ((importActs config rows).take position)
  | _ => some rows

/-- A committed import is in place of the old rows. -/
theorem committed_delete {acts : List ImportAct}
    (hActs : ∀ act ∈ acts, OfKey providerKey act.batchOf) :
    (((.delete :: acts).foldl (ImportAct.run providerKey) ⟨table, table⟩).committed =
        replaced table providerKey (committedRows (.delete :: acts))) ∧
      ∀ rows ∈ committedRows (.delete :: acts), OfKey providerKey rows := by
  have hBegun : Tracks table providerKey ⟨table, othersOf table providerKey⟩ ([], none) :=
    ⟨(append_nil _).symm, rfl, fun row hRow => absurd hRow not_mem_nil,
      nofun⟩
  have hTracks := tracks_foldl hBegun hActs
  exact ⟨hTracks.committed, hTracks.stored⟩

/-- What is committed when an import stops at a fault. -/
theorem upsertCidrs_eq {items : List Item} (fault : Option PersistFault) :
    upsertCidrs config table providerKey items fault =
        replaced table providerKey (committedAt config (newRows providerKey items) fault) ∧
      ∀ rows ∈ committedAt config (newRows providerKey items) fault, OfKey providerKey rows := by
  have hRows : OfKey providerKey (newRows providerKey items) := ofKey_newRows
  have hLoop := @ofKey_importLoop providerKey config.batchSize config.chunkRows 0
    (0 < config.chunkRows && config.chunkRows < (newRows providerKey items).length) []
    (newRows providerKey items) (fun row hRow => absurd hRow not_mem_nil) hRows
  have hWhole := @committed_delete table providerKey _ hLoop
  have hFull : committedRows (importActs config (newRows providerKey items)) = _ :=
    committedRows_importActs
  rcases fault with _ | _ | position | _
  · rw [importActs] at hFull
    rw [hFull] at hWhole
    exact hWhole
  · exact ⟨rfl, nofun⟩
  · cases position with
    | zero => exact ⟨rfl, nofun⟩
    | succ position =>
      exact committed_delete fun act hAct => hLoop act (mem_of_mem_take hAct)
  · rw [importActs] at hFull
    rw [hFull] at hWhole
    exact hWhole

/-! ## A turn and an addition -/

theorem rowsOf_upsertCidrs {items : List Item} {fault : Option PersistFault} :
    rowsOf (upsertCidrs config table providerKey items fault) providerKey =
      (committedAt config (newRows providerKey items) fault).getD (rowsOf table providerKey) := by
  obtain ⟨hTable, hRows⟩ := @upsertCidrs_eq config table providerKey items fault
  rw [hTable, rowsOf_replaced hRows]

theorem rowsOf_upsertCidrs_other {items : List Item} {fault : Option PersistFault}
    (hOther : other ≠ providerKey) :
    rowsOf (upsertCidrs config table providerKey items fault) other = rowsOf table other := by
  obtain ⟨hTable, hRows⟩ := @upsertCidrs_eq config table providerKey items fault
  rw [hTable, rowsOf_replaced_other hRows hOther]

/-- The rows of a provider after its turn: the deduplicated items if they were stored, and the rows
before otherwise. The other providers keep their rows. -/
structure TurnKeeps (config : Config) (db : CidrDb) (providerKey : Text) (previous : ℕ)
    (env : TurnEnv) : Prop where
  stored : (refreshTurn config db providerKey previous env).2 = some .stored →
    ∃ items, env.merged = some items ∧
      rowsOf (refreshTurn config db providerKey previous env).1.cidrs providerKey =
        (dedupeCidrItems [] items).map (storedRow providerKey)
  unstored : (refreshTurn config db providerKey previous env).2 ≠ some .stored →
    rowsOf (refreshTurn config db providerKey previous env).1.cidrs providerKey =
      rowsOf db.cidrs providerKey
  preserved : ∀ items, env.merged = some items →
    shouldPreservePreviousPool config previous (countUniqueCidrs items) env.asnErrors = true →
    rowsOf (refreshTurn config db providerKey previous env).1.cidrs providerKey =
      rowsOf db.cidrs providerKey
  others : ∀ other, other ≠ providerKey →
    rowsOf (refreshTurn config db providerKey previous env).1.cidrs other = rowsOf db.cidrs other

/-- Where storing raises there are no rows to lose; if deleting them fails, the import has committed
nothing but the rows that are there. -/
def TurnSafe (config : Config) (db : CidrDb) (providerKey : Text) (previous : ℕ)
    (env : TurnEnv) : Prop :=
  ∀ items, env.toStore config previous = some items → env.fault.isSome →
    if env.cleanupFails then
      ∀ rows ∈ committedAt config (newRows providerKey items) env.fault,
        rows = rowsOf db.cidrs providerKey
    else rowsOf db.cidrs providerKey = []

theorem rowsOf_cleanUp {env : TurnEnv} {after : List ProviderCidr} :
    rowsOf (cleanUp after providerKey env) providerKey =
      if env.cleanupFails then rowsOf after providerKey else [] := by
  unfold cleanUp
  split_ifs with hFails
  · rfl
  · exact (congrArg (rowsOf · providerKey) (append_nil _).symm).trans
      (rowsOf_append fun row hRow => absurd hRow not_mem_nil)

theorem rowsOf_cleanUp_other {env : TurnEnv} {after : List ProviderCidr}
    (hOther : other ≠ providerKey) :
    rowsOf (cleanUp after providerKey env) other = rowsOf after other := by
  unfold cleanUp
  split_ifs with hFails
  · rfl
  · exact rowsOf_othersOf hOther

theorem cidrs_markError {db : CidrDb} {env : TurnEnv} {turnEnd : TurnEnd} :
    (markError db providerKey env turnEnd).1.cidrs = db.cidrs ∧
      ((markError db providerKey env turnEnd).2 = none ∨
        (markError db providerKey env turnEnd).2 = some turnEnd) := by
  unfold markError
  split_ifs
  · exact ⟨rfl, Or.inl rfl⟩
  · exact ⟨rfl, Or.inr rfl⟩

theorem cidrs_skipped {previous : ℕ} {env : TurnEnv} (hStore : env.toStore config previous = none) :
    (refreshTurn config db providerKey previous env).1.cidrs = db.cidrs ∧
      (refreshTurn config db providerKey previous env).2 ≠ some .stored := by
  rcases @refreshTurn_skipped config db providerKey previous env hStore with hTurn | ⟨-, hTurn⟩
  all_goals
    rw [hTurn]
    split_ifs
    · exact ⟨rfl, nofun⟩
    · exact ⟨rfl, nofun⟩

/-- **A turn keeps the rows exactly if nothing raises where rows would be lost.** -/
theorem turnKeeps_iff {previous : ℕ} {env : TurnEnv} :
    TurnKeeps config db providerKey previous env ↔
      TurnSafe config db providerKey previous env := by
  -- nothing to store: the rows stay
  rcases hStore : env.toStore config previous with _ | items
  · obtain ⟨hCidrs, hEnd⟩ := @cidrs_skipped config db providerKey previous env hStore
    refine iff_of_true ⟨fun hStored => absurd hStored hEnd, fun _ => by rw [hCidrs],
      fun _ _ _ => by rw [hCidrs], fun _ _ => by rw [hCidrs]⟩ ?_
    intro items hSome
    rw [hStore] at hSome
    cases hSome
  · obtain ⟨-, hMerged, hPreserve⟩ := toStore_eq_some.mp hStore
    have hNotPreserved : ∀ other, env.merged = some other →
        shouldPreservePreviousPool config previous (countUniqueCidrs other) env.asnErrors ≠
          true := by
      intro other hOther hTrue
      obtain rfl := Option.mem_unique hMerged hOther
      rw [hPreserve] at hTrue
      cases hTrue
    rcases hFault : env.fault with _ | fault
    · have hTurn := @refreshTurn_stored config db providerKey previous env items hStore hFault
      refine iff_of_true ⟨fun _ => ⟨items, hMerged, ?_⟩, fun hNot => ?_,
        fun other hOther hTrue => absurd hTrue (hNotPreserved other hOther),
        fun other hOther => ?_⟩ ?_
      · rw [hTurn, CidrDb.cidrs_updateProviderMeta, rowsOf_upsertCidrs]
        exact newRows_eq
      · rw [hTurn] at hNot
        exact absurd rfl hNot
      · rw [hTurn, CidrDb.cidrs_updateProviderMeta, rowsOf_upsertCidrs_other hOther]
      · intro _ _ hSome
        rw [hFault] at hSome
        cases hSome
    · have hSome : env.fault.isSome = true := by rw [hFault]; rfl
      have hTurn := @refreshTurn_lost config db providerKey previous env items hStore hSome
      obtain ⟨hCidrs, hEnd⟩ := @cidrs_markError providerKey
        { db with cidrs :=
            cleanUp (upsertCidrs config db.cidrs providerKey items env.fault) providerKey env }
        env .lost
      rw [← hTurn] at hCidrs hEnd
      have hNotStored : (refreshTurn config db providerKey previous env).2 ≠ some .stored := by
        rcases hEnd with hEnd | hEnd
        · rw [hEnd]; decide
        · rw [hEnd]; decide
      -- after a fault the rows are what was committed, or the clean-up deletes them
      have hRows : rowsOf (refreshTurn config db providerKey previous env).1.cidrs providerKey =
          if env.cleanupFails then
            (committedAt config (newRows providerKey items) env.fault).getD
              (rowsOf db.cidrs providerKey)
          else [] := by
        rw [hCidrs, rowsOf_cleanUp, rowsOf_upsertCidrs]
      have hSafe : TurnSafe config db providerKey previous env ↔
          rowsOf (refreshTurn config db providerKey previous env).1.cidrs providerKey =
            rowsOf db.cidrs providerKey := by
        rw [hRows]
        unfold TurnSafe
        rw [hStore]
        simp only [Option.some.injEq, forall_eq', hSome, forall_const]
        split_ifs
        · rcases committedAt config (newRows providerKey items) env.fault with _ | rows
          · simp
          · simp
        · exact eq_comm
      rw [hSafe]
      constructor
      · exact fun hKeeps => hKeeps.unstored hNotStored
      · intro hSame
        refine ⟨fun hStored => absurd hStored hNotStored, fun _ => hSame,
          fun other hOther hTrue => absurd hTrue (hNotPreserved other hOther), ?_⟩
        intro other hOther
        rw [hCidrs, rowsOf_cleanUp_other hOther, rowsOf_upsertCidrs_other hOther]

/-- The rows of a provider after an addition: the deduplicated items with the added ones if it
succeeded and added any, and the rows before otherwise. -/
structure AdditionKeeps (config : Config) (db : CidrDb) (providerKey : Text) (env : AddEnv) :
    Prop where
  added : (addCustomProviderEntries config db providerKey env).2 = some true →
    rowsOf (addCustomProviderEntries config db providerKey env).1.cidrs providerKey =
      if customItems db.cidrs providerKey env.parsedCidrs = [] then rowsOf db.cidrs providerKey
      else
        (dedupeCidrItems [] ((rowsOf db.cidrs providerKey).map readBack ++
          customItems db.cidrs providerKey env.parsedCidrs)).map (storedRow providerKey)
  unadded : (addCustomProviderEntries config db providerKey env).2 ≠ some true →
    rowsOf (addCustomProviderEntries config db providerKey env).1.cidrs providerKey =
      rowsOf db.cidrs providerKey
  others : ∀ other, other ≠ providerKey →
    rowsOf (addCustomProviderEntries config db providerKey env).1.cidrs other =
      rowsOf db.cidrs other

/-- Where an addition raises, the import has committed nothing but the rows that are there. -/
def AdditionSafe (config : Config) (db : CidrDb) (providerKey : Text) (env : AddEnv) : Prop :=
  env.accepted config providerKey → env.fault.isSome →
    customItems db.cidrs providerKey env.parsedCidrs ≠ [] →
    ∀ rows ∈ committedAt config
        (newRows providerKey ((rowsOf db.cidrs providerKey).map readBack ++
          customItems db.cidrs providerKey env.parsedCidrs)) env.fault,
      rows = rowsOf db.cidrs providerKey

theorem rowsOf_insertCustom {env : AddEnv} :
    rowsOf (insertCustom config table providerKey env) providerKey =
      if customItems table providerKey env.parsedCidrs = [] then rowsOf table providerKey
      else
        (committedAt config
          (newRows providerKey ((rowsOf table providerKey).map readBack ++
            customItems table providerKey env.parsedCidrs)) env.fault).getD
          (rowsOf table providerKey) := by
  unfold insertCustom
  rcases customItems table providerKey env.parsedCidrs with _ | ⟨item, items⟩
  · rfl
  · exact rowsOf_upsertCidrs

theorem rowsOf_insertCustom_other {env : AddEnv} (hOther : other ≠ providerKey) :
    rowsOf (insertCustom config table providerKey env) other = rowsOf table other := by
  unfold insertCustom
  rcases customItems table providerKey env.parsedCidrs with _ | ⟨item, items⟩
  · rfl
  · exact rowsOf_upsertCidrs_other hOther

/-- **An addition keeps the rows exactly if it raises before any chunk is committed.** -/
theorem additionKeeps_iff {env : AddEnv} :
    AdditionKeeps config db providerKey env ↔ AdditionSafe config db providerKey env := by
  by_cases hAccepted : env.accepted config providerKey
  · have hAddition := @addition_accepted config db providerKey env hAccepted
    rcases hFault : env.fault with _ | fault
    · -- the call goes through
      rw [hFault, Option.isSome_none, if_neg Bool.false_ne_true] at hAddition
      refine iff_of_true ⟨fun _ => ?_, fun hNot => ?_, fun other hOther => ?_⟩ ?_
      · rw [hAddition, CidrDb.cidrs_updateProviderMeta, rowsOf_insertCustom, hFault, ← newRows_eq]
        rfl
      · rw [hAddition] at hNot
        exact absurd rfl hNot
      · rw [hAddition, CidrDb.cidrs_updateProviderMeta, rowsOf_insertCustom_other hOther]
      · intro _ hSome
        rw [hFault] at hSome
        cases hSome
    · -- it raises: the rows must be as before
      rw [hFault, Option.isSome_some, if_pos rfl] at hAddition
      have hSafe : AdditionSafe config db providerKey env ↔
          rowsOf (insertCustom config db.cidrs providerKey env) providerKey =
            rowsOf db.cidrs providerKey := by
        have hRaised : env.fault.isSome = true := by rw [hFault]; rfl
        rw [rowsOf_insertCustom]
        unfold AdditionSafe
        simp only [hAccepted, hRaised, forall_const]
        split_ifs with hNone
        · exact iff_of_true (fun hSome => absurd hNone hSome) rfl
        · simp only [ne_eq, hNone, not_false_eq_true, forall_const]
          rcases committedAt config _ env.fault with _ | rows
          · simp
          · simp
      rw [hSafe]
      constructor
      · intro hKeeps
        have hRows := hKeeps.unadded (by rw [hAddition]; exact fun hEnd => by cases hEnd)
        rwa [hAddition] at hRows
      intro hSame
      refine ⟨fun hAdded => ?_, fun _ => ?_, fun other hOther => ?_⟩
      · rw [hAddition] at hAdded
        cases hAdded
      · rw [hAddition]
        exact hSame
      · rw [hAddition]
        exact rowsOf_insertCustom_other hOther
  · have hAddition := @addition_refused config db providerKey env hAccepted
    refine iff_of_true ⟨fun hAdded => ?_, fun _ => ?_, fun _ _ => ?_⟩
      fun hIn => absurd hIn hAccepted
    · rw [hAddition] at hAdded
      cases hAdded
    · rw [hAddition]
    · rw [hAddition]

/-! ## Runs -/

inductive Call
  | refresh (selected : List Text) (env : RefreshEnv)
  | add (providerKey : Text) (env : AddEnv)

def Call.step (config : Config) (db : CidrDb) : Call → Option CidrDb
  | .refresh selected env => some (refreshAll config db selected env).1
  | .add providerKey env => some (addCustomProviderEntries config db providerKey env).1

/-- A property of every turn that the loop of a refresh takes. -/
def EveryTurn (config : Config) (P : CidrDb → Text → ℕ → TurnEnv → Prop) (previous : Text → ℕ)
    (env : ℕ → TurnEnv) : ℕ → List Text → CidrDb → Prop
  | _, [], _ => True
  | index, providerKey :: rest, db =>
    P db providerKey (previous providerKey) (env index) ∧
      ((refreshTurn config db providerKey (previous providerKey) (env index)).2 ≠ none →
        EveryTurn config P previous env (index + 1) rest
          (refreshTurn config db providerKey (previous providerKey) (env index)).1)

theorem everyTurn_congr {P Q : CidrDb → Text → ℕ → TurnEnv → Prop}
    (hIff : ∀ db providerKey previous env,
      P db providerKey previous env ↔ Q db providerKey previous env)
    {previous : Text → ℕ} {env : ℕ → TurnEnv} {index : ℕ} {files : List Text} {db : CidrDb} :
    EveryTurn config P previous env index files db ↔
      EveryTurn config Q previous env index files db := by
  induction files generalizing index db with
  | nil => exact Iff.rfl
  | cons providerKey rest ih => exact and_congr (hIff _ _ _ _) (imp_congr_right fun _ => ih)

/-- The property of the turns of a refresh and of an addition, at the states they meet. -/
def Call.Has (config : Config) (onTurn : CidrDb → Text → ℕ → TurnEnv → Prop)
    (onAddition : CidrDb → Text → AddEnv → Prop) (db : CidrDb) : Call → Prop
  | .refresh selected env =>
    env.beginFails = false →
      EveryTurn config onTurn db.countOf env.turn 0 (filesToUpdate config selected)
        (db.beginLog env.now)
  | .add providerKey env => onAddition db providerKey env

/-- Every provider has its new rows after a turn or an addition that succeeds, and its old rows
after one that does not. -/
def Call.Keeps (config : Config) : CidrDb → Call → Prop :=
  Call.Has config (TurnKeeps config) (AdditionKeeps config)

def Call.Safe (config : Config) : CidrDb → Call → Prop :=
  Call.Has config (TurnSafe config) (AdditionSafe config)

/-- **In every run, the stored prefixes are kept exactly if no storing raises where it has
committed others, or where the handler deletes them.** -/
theorem rows_kept_iff (config : Config) (db : CidrDb) (calls : List Call) :
    Along (Call.step config) (Call.Keeps config) db calls ↔
      Along (Call.step config) (Call.Safe config) db calls := by
  have hCall : ∀ db call, True → (Call.Keeps config db call ↔ Call.Safe config db call) := by
    intro db call _
    cases call with
    | refresh selected env =>
      exact imp_congr_right fun _ => everyTurn_congr fun _ _ _ _ => turnKeeps_iff
    | add providerKey env => exact additionKeeps_iff
  exact along_congr hCall (fun _ _ _ _ _ _ => trivial) trivial calls

/-! ## A refresh that cannot store -/

def amazon : Text := "amazon-ips.txt".toList

def oneProvider : Config where
  batchSize := 2000
  chunkRows := 0
  providers := [amazon]
  plain := by decide
  ipFiles := [amazon]
  minCandidate := 1000

def fetchedPrefix : FetchedItem where
  network := ⟨50331648, 8, by decide, by decide, by decide⟩
  positive := by decide
  region := none
  countries := none

/-- The same prefix is stored and downloaded. -/
def storedPrefix : CidrDb where
  cidrs := [storedRow amazon fetchedPrefix.item]
  providerMeta := fun _ => none
  logs := []

/-- The staging CSV cannot be written. -/
def unwritable : TurnEnv where
  fetched := some ⟨[fetchedPrefix], false⟩
  fault := some .beforeImport

/-- The handler of a failed refresh deletes the rows that were stored before. -/
theorem not_always_kept : ¬∀ config db calls,
    Along (Call.step config) (Call.Keeps config) db calls := by
  intro hAll
  have hRun := hAll oneProvider storedPrefix [.refresh [] ⟨1, fun _ => unwritable, false, false⟩]
  have hTurn := hRun.1 rfl
  have hSafe := turnKeeps_iff.mp hTurn.1 [fetchedPrefix.item] (by decide) rfl
  exact absurd hSafe (by decide)

end AdminPanel.Cidr
