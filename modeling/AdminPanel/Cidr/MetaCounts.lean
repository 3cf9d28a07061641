import AdminPanel.Cidr.NetworkTexts
import AdminPanel.Cidr.RefreshReports
import AdminPanel.Lib.FirstSeen

/-!
# Metadata and rows

The count of a provider's prefixes stands in the metadata, in another database than the rows.

* `MetaMatches` — where the metadata say `ok` or `partial`, they count the rows, and the rows are
  as generation takes them;
* `TurnMatches`, `AdditionMatches`, `ClearMatches` — the steps that keep this
  (`metaMatches_turn`, `metaMatches_addition`, `metaMatches_clear`).

Main result: `meta_matches_rows`, for every run of refreshes, additions and clearings.
-/

namespace AdminPanel.Cidr

open List

open Lib (exec Along invariant_exec)

variable {config : Config} {db after : CidrDb} {providerKey other : Text} {previous : ℕ}

/-! ## The invariant -/

/-- The metadata of a provider say `ok` or `partial`. -/
def CidrDb.saysOk (db : CidrDb) (providerKey : Text) : Prop :=
  db.statusOf providerKey = some .ok ∨ db.statusOf providerKey = some .partly

def ProviderMatches (db : CidrDb) (providerKey : Text) : Prop :=
  ∀ row ∈ db.providerMeta providerKey, db.saysOk providerKey →
    row.cidrCount = db.countOf providerKey ∧ NormalRows (rowsOf db.cidrs providerKey)

/-- Where the metadata say `ok` or `partial`, their count is the number of the rows, and the rows
are the normalised texts of distinct networks. -/
def MetaMatches (db : CidrDb) : Prop := ∀ providerKey, ProviderMatches db providerKey

/-- A step on one provider leaves the others as they are. -/
structure Frame (db after : CidrDb) (providerKey : Text) : Prop where
  rows : ∀ other, other ≠ providerKey → rowsOf after.cidrs other = rowsOf db.cidrs other
  providerMeta : ∀ other, other ≠ providerKey → after.providerMeta other = db.providerMeta other

theorem matches_of_same (hRows : rowsOf after.cidrs other = rowsOf db.cidrs other)
    (hMeta : after.providerMeta other = db.providerMeta other) (h : ProviderMatches db other) :
    ProviderMatches after other := by
  have hOk : after.saysOk other ↔ db.saysOk other := by
    rw [CidrDb.saysOk, CidrDb.saysOk, CidrDb.statusOf, CidrDb.statusOf, hMeta]
  intro row hRow hSays
  rw [hMeta] at hRow
  rw [CidrDb.countOf, hRows]
  exact h row hRow (hOk.mp hSays)

theorem metaMatches_of_frame (h : MetaMatches db) (hFrame : Frame db after providerKey)
    (hKey : ProviderMatches after providerKey) : MetaMatches after := by
  intro other
  by_cases hOther : other = providerKey
  · exact hOther ▸ hKey
  · exact matches_of_same (hFrame.rows other hOther) (hFrame.providerMeta other hOther) (h other)

theorem matches_of_not_ok (h : ¬db.saysOk providerKey) : ProviderMatches db providerKey :=
  fun _ _ hOk => absurd hOk h

variable {status : RefreshStatus}

theorem providerMeta_update_other {cidrCount : Option ℕ} (hOther : other ≠ providerKey) :
    (db.updateProviderMeta providerKey cidrCount status).providerMeta other =
      db.providerMeta other := if_neg hOther

theorem providerMeta_update_self {cidrCount : ℕ} :
    (db.updateProviderMeta providerKey (some cidrCount) status).providerMeta providerKey =
      some ⟨cidrCount, status⟩ := if_pos rfl

/-- A count that is written with the rows it counts. -/
theorem matches_update {count : ℕ} (hCount : count = db.countOf providerKey)
    (hRows : NormalRows (rowsOf db.cidrs providerKey)) :
    ProviderMatches (db.updateProviderMeta providerKey (some count) status) providerKey := by
  intro row hRow _
  rw [providerMeta_update_self] at hRow
  rw [← Option.some.inj hRow]
  exact ⟨hCount, hRows⟩

theorem not_saysOk_error {cidrCount : Option ℕ} :
    ¬(db.updateProviderMeta providerKey cidrCount .error).saysOk providerKey := by
  rw [CidrDb.saysOk, statusOf_update, if_pos rfl]
  decide

/-! ## Turns -/

/-- A pool is kept only with the rows that were counted, as generation takes them; and where storing
raises and this cannot be noted, the rows stay or the metadata do not say `ok`. -/
structure TurnMatches (config : Config) (db : CidrDb) (providerKey : Text) (previous : ℕ)
    (env : TurnEnv) : Prop where
  kept : env.outcome config previous = .kept → env.markFails = false →
    previous = db.countOf providerKey ∧ NormalRows (rowsOf db.cidrs providerKey)
  unnoted : env.markFails = true → db.saysOk providerKey →
    TurnSafe config db providerKey previous env

/-- A turn touches the rows and metadata of its own provider. -/
theorem frame_turn {env : TurnEnv} :
    Frame db (refreshTurn config db providerKey previous env).1 providerKey := by
  rcases hStore : env.toStore config previous with _ | items
  · rcases @refreshTurn_skipped config db providerKey previous env hStore with hTurn | ⟨-, hTurn⟩
    all_goals
      rw [hTurn]
      split_ifs
      · exact ⟨fun _ _ => rfl, fun _ _ => rfl⟩
      · exact ⟨fun _ _ => rfl, fun other hOther => providerMeta_update_other hOther⟩
  · rcases hFault : env.fault with _ | fault
    · rw [refreshTurn_stored hStore hFault]
      refine ⟨fun other hOther => ?_, fun other hOther => providerMeta_update_other hOther⟩
      rw [CidrDb.cidrs_updateProviderMeta, rowsOf_upsertCidrs_other hOther]
    have hSome : env.fault.isSome = true := by rw [hFault]; rfl
    have hRows : ∀ other, other ≠ providerKey →
        rowsOf (cleanUp (upsertCidrs config db.cidrs providerKey items env.fault) providerKey env)
          other = rowsOf db.cidrs other := fun other hOther => by
      rw [rowsOf_cleanUp_other hOther, rowsOf_upsertCidrs_other hOther]
    rw [refreshTurn_lost hStore hSome, markError]
    split_ifs
    · exact ⟨hRows, fun _ _ => rfl⟩
    · exact ⟨hRows, fun other hOther => providerMeta_update_other hOther⟩

/-- **A turn keeps the counts.** -/
theorem metaMatches_turn {env : TurnEnv} (h : MetaMatches db)
    (hTurn : TurnMatches config db providerKey previous env) :
    MetaMatches (refreshTurn config db providerKey previous env).1 := by
  refine metaMatches_of_frame h frame_turn ?_
  rcases hStore : env.toStore config previous with _ | items
  · rcases @refreshTurn_skipped config db providerKey previous env hStore with hEnd | ⟨hKept, hEnd⟩
    · rw [hEnd]
      split_ifs
      · exact h providerKey
      · exact matches_of_not_ok not_saysOk_error
    · rw [hEnd]
      split_ifs with hMark
      · exact h providerKey
      · obtain ⟨hCount, hRows⟩ := hTurn.kept hKept (Bool.eq_false_of_not_eq_true hMark)
        exact matches_update hCount hRows
  · obtain ⟨-, hNew⟩ := @newRows_of_normal items providerKey (normalTexts_toStore hStore)
    rcases hFault : env.fault with _ | fault
    · rw [refreshTurn_stored hStore hFault]
      have hRows : rowsOf (upsertCidrs config db.cidrs providerKey items none) providerKey =
          newRows providerKey items := rowsOf_upsertCidrs
      refine matches_update ?_ ?_
      · rw [CidrDb.countOf, hRows]
      · rw [hRows]
        exact hNew
    · have hSome : env.fault.isSome = true := by rw [hFault]; rfl
      have hKeeps := (@turnKeeps_iff config db providerKey previous env)
      have hLost := @refreshTurn_lost config db providerKey previous env items hStore hSome
      rw [markError] at hLost
      split_ifs at hLost with hMark
      · by_cases hOk : db.saysOk providerKey
        · have hSame := (hKeeps.mpr (hTurn.unnoted hMark hOk)).unstored (by rw [hLost]; simp)
          refine matches_of_same hSame ?_ (h providerKey)
          rw [hLost]
        · rw [hLost]
          exact matches_of_not_ok hOk
      · rw [hLost]
        exact matches_of_not_ok not_saysOk_error

theorem metaMatches_refreshLoop {previous : Text → ℕ} {env : ℕ → TurnEnv} {index : ℕ}
    {files : List Text} {summary : Summary} (h : MetaMatches db)
    (hTurns : EveryTurn config (TurnMatches config) previous env index files db) :
    MetaMatches (refreshLoop config previous env index files db summary).1 := by
  induction files generalizing index db summary with
  | nil => exact h
  | cons key rest ih =>
    obtain ⟨hTurn, hRest⟩ := hTurns
    have hNext := metaMatches_turn h hTurn
    rw [refreshLoop]
    rcases hAfter : refreshTurn config db key (previous key) (env index) with ⟨after, _ | turnEnd⟩
    · rw [hAfter] at hNext
      exact hNext
    · rw [hAfter] at hNext hRest
      exact ih hNext (hRest (Option.some_ne_none turnEnd))

/-- The log has no part in this. -/
theorem metaMatches_logs {logs : List RefreshLog} (h : MetaMatches db) :
    MetaMatches { db with logs := logs } := h

/-- A whole refresh, turn by turn. -/
theorem metaMatches_refreshAll {selected : List Text} {env : RefreshEnv} (h : MetaMatches db)
    (hTurns : Call.Has config (TurnMatches config) (fun _ _ _ => True) db
      (.refresh selected env)) : MetaMatches (refreshAll config db selected env).1 := by
  rw [refreshAll]
  split_ifs with hFiles hBegin
  · exact h
  · exact h
  · rw [Bool.not_eq_true] at hBegin
    have hBegun : MetaMatches (db.beginLog env.now) := metaMatches_logs h
    have hLoop := @metaMatches_refreshLoop config (db.beginLog env.now) db.countOf env.turn 0
      (filesToUpdate config selected) {} hBegun (hTurns hBegin)
    rcases hAfter : refreshLoop config db.countOf env.turn 0 (filesToUpdate config selected)
        (db.beginLog env.now) {} with ⟨after, _ | summary⟩
    · rw [hAfter] at hLoop
      exact hLoop
    · rw [hAfter] at hLoop
      show MetaMatches (completeLog _ _ _ after summary).1
      rw [completeLog]
      split_ifs
      · exact hLoop
      · exact metaMatches_logs hLoop

/-! ## Additions -/

/-- An addition that succeeds meets normal rows and adds normal texts; and where one raises, the
rows stay or the metadata do not say `ok`. -/
structure AdditionMatches (config : Config) (db : CidrDb) (providerKey : Text) (env : AddEnv) :
    Prop where
  rows : env.accepted config providerKey → env.fault = none → ¬db.saysOk providerKey →
    NormalRows (rowsOf db.cidrs providerKey)
  added : env.accepted config providerKey → env.fault = none →
    ∀ item ∈ customItems db.cidrs providerKey env.parsedCidrs, IsNormal item.cidr
  unnoted : db.saysOk providerKey → AdditionSafe config db providerKey env

theorem frame_addition {env : AddEnv} :
    Frame db (addCustomProviderEntries config db providerKey env).1 providerKey := by
  by_cases hAccepted : env.accepted config providerKey
  · rw [addition_accepted hAccepted]
    split_ifs
    · exact ⟨fun other hOther => rowsOf_insertCustom_other hOther, fun _ _ => rfl⟩
    · exact ⟨fun other hOther => rowsOf_insertCustom_other hOther,
        fun other hOther => providerMeta_update_other hOther⟩
  · rw [addition_refused hAccepted]
    exact ⟨fun _ _ => rfl, fun _ _ => rfl⟩

variable {table : List ProviderCidr}

/-- The texts that an addition adds are not there yet, and each is added once. -/
theorem customItems_nodup {parsed : List Text} :
    ((customItems table providerKey parsed).map Item.cidr).Nodup ∧
      ∀ text ∈ (customItems table providerKey parsed).map Item.cidr,
        text ∉ (rowsOf table providerKey).map ProviderCidr.cidr := by
  have hTexts : (customItems table providerKey parsed).map Item.cidr =
      parsed.eraseDups.filter fun cidr =>
        !((rowsOf table providerKey).map readBack).any (·.cidr = cidr) := by
    unfold customItems
    rw [map_map]
    exact map_id _
  rw [hTexts]
  refine ⟨(Lib.nodup_eraseDups parsed).filter _, fun text hText hMem => ?_⟩
  have hNew := (mem_filter.mp hText).2
  obtain ⟨row, hRow, rfl⟩ := mem_map.mp hMem
  rw [Bool.not_eq_true', any_eq_false] at hNew
  exact hNew (readBack row) (mem_map_of_mem hRow) (decide_eq_true rfl)

theorem normalTexts_added {parsed : List Text} (hRows : NormalRows (rowsOf table providerKey))
    (hAdded : ∀ item ∈ customItems table providerKey parsed, IsNormal item.cidr) :
    NormalTexts (((rowsOf table providerKey).map readBack ++
      customItems table providerKey parsed).map Item.cidr) := by
  obtain ⟨hNodup, hNew⟩ := @customItems_nodup providerKey table parsed
  have hOld : ((rowsOf table providerKey).map readBack).map Item.cidr =
      (rowsOf table providerKey).map ProviderCidr.cidr := by
    rw [map_map]
    rfl
  rw [map_append, hOld]
  unfold NormalRows at hRows
  rw [normalTexts_iff] at hRows ⊢
  refine ⟨List.Nodup.append hRows.1 hNodup fun text hText hMem => hNew text hMem hText, ?_⟩
  intro text hText
  rcases mem_append.mp hText with hMem | hMem
  · exact hRows.2 text hMem
  · obtain ⟨item, hItem, rfl⟩ := mem_map.mp hMem
    exact hAdded item hItem

/-- **An addition keeps the counts.** -/
theorem metaMatches_addition {env : AddEnv} (h : MetaMatches db)
    (hAddition : AdditionMatches config db providerKey env) :
    MetaMatches (addCustomProviderEntries config db providerKey env).1 := by
  refine metaMatches_of_frame h frame_addition ?_
  by_cases hAccepted : env.accepted config providerKey
  · rcases hFault : env.fault with _ | fault
    · have hRows : NormalRows (rowsOf db.cidrs providerKey) := by
        by_cases hOk : db.saysOk providerKey
        · obtain ⟨row, hRow, -⟩ : ∃ row, db.providerMeta providerKey = some row ∧ True := by
            rcases hRow : db.providerMeta providerKey with _ | row
            · rw [CidrDb.saysOk, CidrDb.statusOf, hRow] at hOk
              simp at hOk
            · exact ⟨row, rfl, trivial⟩
          exact (h providerKey row hRow hOk).2
        · exact hAddition.rows hAccepted hFault hOk
      have hNormal := normalTexts_added hRows (hAddition.added hAccepted hFault)
      have hAfter := @rowsOf_insertCustom config db.cidrs providerKey env
      rw [addition_accepted hAccepted, hFault, Option.isSome_none, if_neg Bool.false_ne_true]
      refine matches_update rfl ?_
      show NormalRows (rowsOf (insertCustom config db.cidrs providerKey env) providerKey)
      rw [hAfter, hFault]
      split_ifs with hNone
      · exact hRows
      · exact (newRows_of_normal hNormal).2
    · by_cases hOk : db.saysOk providerKey
      · have hKeeps := additionKeeps_iff.mpr (hAddition.unnoted hOk)
        have hEnd := @addition_accepted config db providerKey env hAccepted
        rw [hFault, Option.isSome_some, if_pos rfl] at hEnd
        have hSame := hKeeps.unadded (by rw [hEnd]; simp)
        refine matches_of_same hSame ?_ (h providerKey)
        rw [hEnd]
      · rw [addition_accepted hAccepted, hFault, Option.isSome_some, if_pos rfl]
        exact matches_of_not_ok hOk
  · rw [addition_refused hAccepted]
    exact h providerKey

/-! ## Clearing -/

/-- Clearing does not raise between its two commits, unless what it clears has no rows or metadata
that do not say `ok`. -/
def ClearMatches (config : Config) (db : CidrDb) (selected : Option (List Text))
    (fault : Option ClearFault) : Prop :=
  fault = some .between → ∀ key ∈ clearTargets config selected, db.saysOk key →
    rowsOf db.cidrs key = []

theorem rowsOf_cleared {targets : List Text} {key : Text} :
    rowsOf (table.filter (·.providerKey ∉ targets)) key =
      if key ∈ targets then [] else rowsOf table key := by
  rw [rowsOf, filter_filter]
  split_ifs with hKey
  · rw [filter_eq_nil_iff]
    intro row _ hRow
    simp only [Bool.and_eq_true, decide_eq_true_eq] at hRow
    exact hRow.2 (hRow.1 ▸ hKey)
  · refine filter_congr fun row _ => ?_
    rw [Bool.eq_iff_iff, Bool.and_eq_true, decide_eq_true_eq, decide_eq_true_eq]
    exact and_iff_left_of_imp fun hRow => hRow ▸ hKey

/-- **Clearing keeps the counts.** -/
theorem metaMatches_clear {selected : Option (List Text)} {now : ℕ} {fault : Option ClearFault}
    (h : MetaMatches db) (hClear : ClearMatches config db selected fault) :
    MetaMatches (clearProviderData config db selected now fault).1 := by
  have hRows : ∀ key, rowsOf (db.cidrs.filter (·.providerKey ∉ clearTargets config selected)) key =
      if key ∈ clearTargets config selected then [] else rowsOf db.cidrs key := fun key =>
    rowsOf_cleared
  unfold clearProviderData
  dsimp only
  by_cases hNone : (clearTargets config selected).isEmpty = true
  · rw [if_pos hNone]
    exact h
  rw [if_neg hNone]
  rcases fault with _ | _ | _
  · intro key
    by_cases hKey : key ∈ clearTargets config selected
    · intro row hRow
      cases (show (if key ∈ clearTargets config selected then none
        else db.providerMeta key) = some row from hRow).symm.trans (if_pos hKey)
    · exact matches_of_same ((hRows key).trans (if_neg hKey)) (if_neg hKey) (h key)
  · exact h
  · show MetaMatches
      { db with cidrs := db.cidrs.filter (·.providerKey ∉ clearTargets config selected) }
    intro key
    by_cases hKey : key ∈ clearTargets config selected
    · by_cases hOk : db.saysOk key
      · have hSame := ((hRows key).trans (if_pos hKey)).trans (hClear rfl key hKey hOk).symm
        exact matches_of_same hSame rfl (h key)
      · exact matches_of_not_ok hOk
    · exact matches_of_same ((hRows key).trans (if_neg hKey)) rfl (h key)

/-! ## Runs -/

/-- The calls that write the provider tables. -/
inductive Write
  | call (c : Call)
  | clear (selected : Option (List Text)) (now : ℕ) (fault : Option ClearFault)

def Write.step (config : Config) (db : CidrDb) : Write → Option CidrDb
  | .call c => c.step config db
  | .clear selected now fault => some (clearProviderData config db selected now fault).1

def Write.Matches (config : Config) (db : CidrDb) : Write → Prop
  | .call c => Call.Has config (TurnMatches config) (AdditionMatches config) db c
  | .clear selected _ fault => ClearMatches config db selected fault

theorem metaMatches_step {write : Write} (h : MetaMatches db)
    (hWrite : write.Matches config db) (hStep : write.step config db = some after) :
    MetaMatches after := by
  cases write with
  | call c =>
    cases c with
    | refresh selected env =>
      rw [← Option.some.inj hStep]
      exact metaMatches_refreshAll h hWrite
    | add providerKey env =>
      rw [← Option.some.inj hStep]
      exact metaMatches_addition h hWrite
  | clear selected now fault =>
    rw [← Option.some.inj hStep]
    exact metaMatches_clear h hWrite

/-- **The metadata match the rows in every state of a run whose steps keep them.** -/
theorem meta_matches_rows (config : Config) {db after : CidrDb} (writes : List Write)
    (hStart : MetaMatches db) (hWrites : Along (Write.step config) (Write.Matches config) db writes)
    (hExec : exec (Write.step config) db writes = some after) : MetaMatches after :=
  invariant_exec (fun _ _ _ h hWrite hStep => metaMatches_step h hWrite hStep) hStart hWrites hExec

/-! ## A prefix that is not normalised -/

def unfilledDb : CidrDb := ⟨[], fun _ => none, []⟩

theorem metaMatches_unfilled : MetaMatches unfilledDb := nofun

def firstFetch : RefreshEnv where
  now := 1
  turn := fun _ => { fetched := some ⟨[fetchedPrefix], false⟩ }

/-- A first refresh, and an addition of a prefix. -/
def fetchAndAdd : List Write :=
  [.call (.refresh [] firstFetch), .call (.add amazon ⟨["5.0.0.0/8".toList], false, none⟩)]

theorem matches_fetchAndAdd : ∃ after,
    exec (Write.step oneProvider) unfilledDb fetchAndAdd = some after ∧ MetaMatches after := by
  have hTurn : TurnMatches oneProvider (unfilledDb.beginLog 1) amazon 0 (firstFetch.turn 0) :=
    ⟨fun hKept => absurd hKept (by decide), nofun⟩
  have hAdded : AdditionMatches oneProvider (refreshAll oneProvider unfilledDb [] firstFetch).1
      amazon ⟨["5.0.0.0/8".toList], false, none⟩ := by
    refine ⟨fun _ _ hNot => absurd (Or.inl (by decide)) hNot, fun _ _ item hMem => ?_,
      nofun⟩
    have hItems : customItems (refreshAll oneProvider unfilledDb [] firstFetch).1.cidrs amazon
        ["5.0.0.0/8".toList] = [⟨"5.0.0.0/8".toList, none, none⟩] := by decide
    rw [hItems, mem_singleton] at hMem
    rw [hMem]
    exact ⟨⟨83886080, 8, by decide, by decide, by decide⟩, by decide, by decide⟩
  have hWrites : Along (Write.step oneProvider) (Write.Matches oneProvider) unfilledDb
      fetchAndAdd := by
    refine ⟨fun _ => ⟨hTurn, fun _ => trivial⟩, fun next hNext => ⟨?_, fun _ _ => trivial⟩⟩
    rw [← Option.some.inj hNext]
    exact hAdded
  exact ⟨_, rfl, meta_matches_rows oneProvider fetchAndAdd metaMatches_unfilled hWrites rfl⟩

/-- An addition with host bits is stored as it is. -/
theorem not_always_matches : ¬∀ config db after writes, MetaMatches db →
    exec (Write.step config) db writes = some after → MetaMatches after := by
  intro hAll
  have hMatches := hAll oneProvider unfilledDb _
    [.call (.add amazon ⟨["5.0.0.1/8".toList], false, none⟩)] metaMatches_unfilled rfl
  obtain ⟨-, hRows⟩ := hMatches amazon ⟨1, .ok⟩ (by decide) (Or.inl (by decide))
  obtain ⟨n, hText, -⟩ := (normalTexts_iff.mp hRows).2 "5.0.0.1/8".toList (by decide)
  have hRead := parseNetwork_networkText n
  rw [← hText] at hRead
  have hOther : (Lib.Ipv4.parseNetwork "5.0.0.1/8".toList).map networkText =
      some "5.0.0.0/8".toList := by decide
  rw [hRead, Option.map_some, ← hText] at hOther
  exact absurd hOther (by decide)

end AdminPanel.Cidr
