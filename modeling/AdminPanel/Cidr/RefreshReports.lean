import AdminPanel.Cidr.RowsKept

/-!
# What a refresh reports

* `turnsOf` — how the turns of a refresh end, from what it is given;
* `Booked` — the counters, the details and the metadata after some turns (`booked_loop`);
* `Reported` — the report of a refresh agrees with the metadata, and so do the providers to be
  tried again;
* `Traced` — the end of a provider's turns can be seen in the details (`traced_iff`).

Main result: `reported_iff`.
-/

namespace AdminPanel.Cidr

open List

variable {config : Config} {db after : CidrDb} {providerKey other : Text} {previous : ℕ}
  {env : TurnEnv}

/-! ## The ends of the turns -/

structure Turn where
  providerKey : Text
  turnEnd : TurnEnd
  /-- the status of what is stored -/
  status : RefreshStatus
  deriving DecidableEq, Repr

/-- The status that a turn leaves in the metadata. -/
def Turn.metaStatus (turn : Turn) : RefreshStatus :=
  match turn.turnEnd with
  | .failed => .error
  | .stored => turn.status
  | .kept => .partly
  | .lost => .error

def turnsOf (config : Config) (previous : Text → ℕ) (env : ℕ → TurnEnv) : ℕ → List Text → List Turn
  | _, [] => []
  | index, providerKey :: rest =>
    ⟨providerKey, (env index).outcome config (previous providerKey), (env index).status⟩ ::
      turnsOf config previous env (index + 1) rest

def CidrDb.statusOf (db : CidrDb) (providerKey : Text) : Option RefreshStatus :=
  (db.providerMeta providerKey).map ProviderMeta.refreshStatus

theorem statusOf_update {cidrCount : Option ℕ} {status : RefreshStatus} :
    (db.updateProviderMeta providerKey cidrCount status).statusOf other =
      if other = providerKey then some status else db.statusOf other := by
  unfold CidrDb.updateProviderMeta CidrDb.statusOf
  dsimp only
  split_ifs
  · rfl
  · rfl

/-- A failure that is noted sets the status to `error`. -/
theorem markError_cases {before : CidrDb} {marked turnEnd : TurnEnd}
    (hMark : markError before providerKey env marked = (after, some turnEnd)) :
    turnEnd = marked ∧ after = before.updateProviderMeta providerKey none .error := by
  unfold markError at hMark
  split_ifs at hMark
  · cases hMark
  · cases hMark
    exact ⟨rfl, rfl⟩

/-- **What a turn does that does not raise:** its status stands in the metadata of its provider. -/
theorem refreshTurn_cases {turnEnd : TurnEnd}
    (hTurn : refreshTurn config db providerKey previous env = (after, some turnEnd)) :
    turnEnd = env.outcome config previous ∧
      ∀ other, after.statusOf other =
        if other = providerKey then some (Turn.metaStatus ⟨providerKey, turnEnd, env.status⟩)
        else db.statusOf other := by
  unfold refreshTurn at hTurn
  unfold TurnEnv.outcome
  rcases hSources : env.sources with _ | _
  · rw [hSources] at hTurn
    obtain ⟨rfl, rfl⟩ := markError_cases hTurn
    exact ⟨rfl, fun other => statusOf_update⟩
  rcases hMerged : env.merged with _ | items
  · rw [hSources, hMerged] at hTurn
    obtain ⟨rfl, rfl⟩ := markError_cases hTurn
    exact ⟨rfl, fun other => statusOf_update⟩
  rw [hSources, hMerged] at hTurn
  dsimp only at hTurn ⊢
  split_ifs at hTurn with hPreserve hMark hFault
  · cases hTurn
  · cases hTurn
    rw [if_pos hPreserve]
    exact ⟨rfl, fun other => statusOf_update⟩
  · obtain ⟨rfl, rfl⟩ := markError_cases hTurn
    rw [if_neg hPreserve, if_pos hFault]
    exact ⟨rfl, fun other => statusOf_update⟩
  · cases hTurn
    rw [if_neg hPreserve, if_neg hFault]
    exact ⟨rfl, fun other => statusOf_update⟩

/-! ## What is booked -/

variable {past turns : List Turn} {turn last : Turn} {summary : Summary}

/-- The turns of a provider. -/
def ofProvider (turns : List Turn) (providerKey : Text) : List Turn :=
  turns.filter (·.providerKey = providerKey)

/-- The turns that are entered in the details. -/
def entered (turns : List Turn) : List Turn := turns.filter (·.turnEnd ≠ .lost)

theorem ofProvider_append : ofProvider (past ++ [turn]) providerKey =
    if turn.providerKey = providerKey then ofProvider past providerKey ++ [turn]
    else ofProvider past providerKey := by
  unfold ofProvider
  split_ifs with hKey
  · simp [hKey]
  · simp [hKey]

theorem entered_append : entered (past ++ [turn]) =
    if turn.turnEnd = .lost then entered past else entered past ++ [turn] := by
  unfold entered
  split_ifs with hLost
  · simp [hLost]
  · simp [hLost]

/-- The books after some turns: each is counted, the details have the last status that was entered,
and the metadata the last one. -/
structure Booked (past : List Turn) (db : CidrDb) (summary : Summary) : Prop where
  counted : summary.updated + summary.failed = past.length
  details : ∀ providerKey, summary.perProvider.row? providerKey =
    (entered (ofProvider past providerKey)).getLast?.map Turn.metaStatus
  written : ∀ providerKey, ∀ last ∈ (ofProvider past providerKey).getLast?,
    db.statusOf providerKey = some last.metaStatus
  clean : summary.failed = 0 → summary.partials = 0 →
    ∀ turn ∈ past, turn.turnEnd ≠ .lost → turn.metaStatus = .ok

/-- A turn is entered unless storing raised. -/
theorem perProvider_count : (summary.count turn.providerKey turn.status turn.turnEnd).perProvider =
    if turn.turnEnd = .lost then summary.perProvider
    else summary.perProvider.set turn.providerKey turn.metaStatus := by
  obtain ⟨key, turnEnd, status⟩ := turn
  cases turnEnd with
  | failed | stored | kept | lost => rfl

/-- **One turn**: counters, details and metadata say the same of it. -/
theorem booked_turn (h : Booked past db summary)
    (hStatus : turn.status = .ok ∨ turn.status = .partly)
    (hMeta : ∀ other, after.statusOf other =
      if other = turn.providerKey then some turn.metaStatus else db.statusOf other) :
    Booked (past ++ [turn]) after
      (summary.count turn.providerKey turn.status turn.turnEnd) where
  counted := by
    have hBefore := h.counted
    rw [length_append, length_singleton]
    obtain ⟨key, turnEnd, status⟩ := turn
    cases turnEnd with
    | failed => show summary.updated + (summary.failed + 1) = _; omega
    | stored | kept | lost => show (summary.updated + 1) + summary.failed = _; omega
  details := by
    intro providerKey
    rw [perProvider_count, ofProvider_append]
    -- a turn that could not store is not entered
    by_cases hLost : turn.turnEnd = .lost
    · rw [if_pos hLost, h.details]
      split_ifs
      · rw [entered_append, if_pos hLost]
      · rfl
    · rw [if_neg hLost, Lib.Table.row?_set, h.details]
      by_cases hKey : turn.providerKey = providerKey
      · rw [if_pos hKey.symm, if_pos hKey, entered_append, if_neg hLost, List.getLast?_concat]
        rfl
      · rw [if_neg (Ne.symm hKey), if_neg hKey]
  written := by
    intro providerKey last hLast
    rw [hMeta]
    rw [ofProvider_append] at hLast
    by_cases hKey : turn.providerKey = providerKey
    · rw [if_pos hKey, List.getLast?_concat] at hLast
      rw [if_pos hKey.symm, Option.some.inj hLast]
    · rw [if_neg hKey] at hLast
      rw [if_neg (Ne.symm hKey)]
      exact h.written providerKey last hLast
  clean := by
    intro hFailed hPartials other hMem hEntered
    -- counters are zero after the turn only if they were before it
    have hBefore : summary.failed = 0 ∧ summary.partials = 0 ∧
        (turn.turnEnd ≠ .lost → turn.metaStatus = .ok) := by
      obtain ⟨key, turnEnd, status⟩ := turn
      cases turnEnd with
      | failed => exact absurd hFailed (Nat.succ_ne_zero _)
      | stored =>
        have hSum : summary.partials + (if status = .partly then 1 else 0) = 0 := hPartials
        obtain ⟨hZero, hNot⟩ := Nat.add_eq_zero_iff.mp hSum
        refine ⟨hFailed, hZero, fun _ => ?_⟩
        rcases hStatus with hOk | hPartly
        · exact hOk
        · rw [if_pos hPartly] at hNot
          cases hNot
      | kept => exact absurd hPartials (Nat.succ_ne_zero _)
      | lost =>
        have hSum : summary.partials + (if status = .partly then 1 else 0) = 0 := hPartials
        exact ⟨hFailed, (Nat.add_eq_zero_iff.mp hSum).1, fun hNot => absurd rfl hNot⟩
    rcases mem_append.mp hMem with hOld | hNew
    · exact h.clean hBefore.1 hBefore.2.1 other hOld hEntered
    · rw [mem_singleton.mp hNew] at hEntered ⊢
      exact hBefore.2.2 hEntered

theorem status_cases (env : TurnEnv) : env.status = .ok ∨ env.status = .partly := by
  unfold TurnEnv.status
  split_ifs
  · exact Or.inr rfl
  · exact Or.inl rfl

variable {index : ℕ} {files : List Text}

/-- **The books after the loop.** -/
theorem booked_loop {previous : Text → ℕ} {env : ℕ → TurnEnv}
    {total : Summary} (h : Booked past db summary)
    (hLoop : refreshLoop config previous env index files db summary = (after, some total)) :
    Booked (past ++ turnsOf config previous env index files) after total := by
  induction files generalizing past index db summary with
  | nil =>
    cases hLoop
    rw [turnsOf, append_nil]
    exact h
  | cons providerKey rest ih =>
    rw [refreshLoop] at hLoop
    rcases hTurn : refreshTurn config db providerKey (previous providerKey) (env index) with
      ⟨next, _ | turnEnd⟩
    · rw [hTurn] at hLoop
      cases hLoop
    rw [hTurn] at hLoop
    obtain ⟨rfl, hMeta⟩ := refreshTurn_cases hTurn
    have hNext := @booked_turn db next past
      ⟨providerKey, (env index).outcome config (previous providerKey), (env index).status⟩ summary
      h (status_cases (env index)) hMeta
    have hRest := ih hNext hLoop
    rw [append_assoc] at hRest
    exact hRest

/-! ## The report -/

/-- The report of a refresh says of each selected provider what the metadata say. -/
structure Reported (files : List Text) (after : CidrDb) (report : RefreshReport) : Prop where
  counted : report.providersUpdated + report.providersFailed = files.length
  ok : report.status = .ok → ∀ providerKey ∈ files, after.statusOf providerKey = some .ok
  detailed : ∀ providerKey ∈ files, ∃ status,
    report.perProvider.row? providerKey = some status ∧ after.statusOf providerKey = some status
  again : ∀ providerKey, providerKey ∈ getLastFailedProviders after ↔
    providerKey ∈ files ∧ after.statusOf providerKey = some .error

/-- The last turn of the provider is entered in the details, or the last one that is entered failed
as well. -/
def Traced (turns : List Turn) (providerKey : Text) : Prop :=
  (ofProvider turns providerKey).getLast?.map Turn.turnEnd ≠ some .lost ∨
    (entered (ofProvider turns providerKey)).getLast?.map Turn.turnEnd = some .failed

/-- A turn that is entered is an error if it failed. -/
theorem metaStatus_eq_error (hStatus : turn.status = .ok ∨ turn.status = .partly)
    (hEntered : turn.turnEnd ≠ .lost) : turn.metaStatus = .error ↔ turn.turnEnd = .failed := by
  obtain ⟨key, turnEnd, status⟩ := turn
  cases turnEnd with
  | failed => exact iff_of_true rfl rfl
  | stored =>
    refine iff_of_false (fun hError => ?_) nofun
    rcases hStatus with hOk | hPartly
    · cases hOk.symm.trans hError
    · cases hPartly.symm.trans hError
  | kept => exact iff_of_false nofun nofun
  | lost => exact absurd rfl hEntered

/-- What the details and the metadata say of a provider is the same exactly if it is traced. -/
theorem traced_iff (hStatus : ∀ turn ∈ turns, turn.status = .ok ∨ turn.status = .partly)
    (hLast : (ofProvider turns providerKey).getLast? = some last) :
    (entered (ofProvider turns providerKey)).getLast?.map Turn.metaStatus = some last.metaStatus ↔
      Traced turns providerKey := by
  have hTurns : ∀ turn ∈ ofProvider turns providerKey, turn.status = .ok ∨ turn.status = .partly :=
    fun turn hMem => hStatus turn (mem_of_mem_filter hMem)
  unfold Traced
  obtain ⟨earlier, hSplit⟩ := List.getLast?_eq_some_iff.mp hLast
  rw [hSplit] at hTurns
  rw [hLast, hSplit, entered_append]
  by_cases hLost : last.turnEnd = .lost
  · have hError : last.metaStatus = .error := by rw [Turn.metaStatus, hLost]
    rw [if_pos hLost, hError]
    have hSecond : (Option.map Turn.turnEnd (some last) ≠ some .lost ∨
        (entered earlier).getLast?.map Turn.turnEnd = some .failed) ↔
        (entered earlier).getLast?.map Turn.turnEnd = some .failed :=
      or_iff_right fun hNot => hNot (congrArg some hLost)
    rw [hSecond]
    rcases hFound : (entered earlier).getLast? with _ | found
    · exact iff_of_false nofun nofun
    · have hMem := mem_filter.mp (mem_of_getLast? hFound)
      have hIff := metaStatus_eq_error (hTurns found (mem_append_left _ hMem.1))
        (of_decide_eq_true hMem.2)
      rw [Option.map_some, Option.map_some, Option.some.injEq, Option.some.injEq]
      exact hIff
  · rw [if_neg hLost, List.getLast?_concat]
    exact iff_of_true rfl (Or.inl fun h => hLost (Option.some.inj h))

/-- There is one turn for each file that is selected. -/
theorem turnsOf_keys {previous : Text → ℕ} {env : ℕ → TurnEnv} :
    (turnsOf config previous env index files).map Turn.providerKey = files := by
  induction files generalizing index with
  | nil => rfl
  | cons providerKey rest ih => exact congrArg (List.cons providerKey) ih

theorem turnsOf_status {previous : Text → ℕ} {env : ℕ → TurnEnv} :
    ∀ turn ∈ turnsOf config previous env index files, turn.status = .ok ∨ turn.status = .partly := by
  induction files generalizing index with
  | nil => exact fun turn hMem => absurd hMem not_mem_nil
  | cons providerKey rest ih =>
    intro turn hMem
    rcases mem_cons.mp hMem with rfl | hMem
    · exact status_cases (env index)
    · exact ih turn hMem

/-- A provider with a turn has a last one. -/
theorem exists_last (hMem : turn ∈ turns) (hKey : turn.providerKey = providerKey) :
    ∃ last, (ofProvider turns providerKey).getLast? = some last := by
  rw [← Option.isSome_iff_exists, List.getLast?_isSome]
  exact ne_nil_of_mem (mem_filter.mpr ⟨hMem, decide_eq_true hKey⟩)

variable {log : RefreshLog}

/-- The newest log is the one that is shown. -/
theorem latestLog_concat {logs : List RefreshLog} (hLog : log.status ≠ .cleared)
    (hClock : ∀ earlier ∈ logs, earlier.startedAt < log.startedAt) :
    latestLog (logs ++ [log]) = some log := by
  have hBest : ∀ (others : List RefreshLog) (best : Option RefreshLog),
      (∀ b ∈ best, b.startedAt < log.startedAt) →
      (∀ other ∈ others, other.startedAt < log.startedAt) →
      ∀ b ∈ others.foldl laterLog best, b.startedAt < log.startedAt := by
    intro others
    induction others with
    | nil => exact fun best hBest _ => hBest
    | cons other others ih =>
      intro best hBest hOthers
      rw [forall_mem_cons] at hOthers
      refine ih (laterLog best other) (fun b hMem => ?_) hOthers.2
      rcases best with _ | earlier
      · exact Option.some.inj hMem ▸ hOthers.1
      · unfold laterLog at hMem
        dsimp only at hMem
        split_ifs at hMem
        · exact Option.some.inj hMem ▸ hOthers.1
        · exact hBest b hMem
  have hLast : ∀ best : Option RefreshLog, (∀ b ∈ best, b.startedAt < log.startedAt) →
      laterLog best log = some log := by
    intro best hBest
    rcases best with _ | earlier
    · rfl
    · exact if_pos (hBest earlier rfl)
  unfold latestLog
  rw [filter_append, foldl_append]
  have hKept : [log].filter (fun log => log.status ≠ .cleared) = [log] := by simp [hLog]
  rw [hKept]
  exact hLast _ (hBest _ none nofun fun other hOther =>
    hClock other (mem_of_mem_filter hOther))

/-- What a retry selects, from the details of the last log. -/
theorem mem_getLastFailedProviders {details : Lib.Table Text RefreshStatus}
    (hLatest : latestLog db.logs = some log) (hDetails : log.details = some details) :
    providerKey ∈ getLastFailedProviders db ↔
      providerKey.head? ≠ some '_' ∧ details.row? providerKey = some .error := by
  unfold getLastFailedProviders
  rw [hLatest, Option.bind_some, hDetails]
  show providerKey ∈ sortedSet _ ↔ _
  rw [sortedSet, mem_insertionSort, mem_dedup, mem_filter, decide_eq_true_eq]
  exact and_iff_right_of_imp fun h => Lib.Table.mem_keys_of_row? h.2

/-- `ok` over all means that nothing failed. -/
theorem zero_of_finalStatus (h : summary.finalStatus = .ok) :
    summary.failed = 0 ∧ summary.partials = 0 := by
  unfold Summary.finalStatus at h
  split_ifs at h with hError hPartly
  omega

/-- A completed log says what the books say. -/
theorem reported_of_traced {total : Summary} {report : RefreshReport}
    (hBooked : Booked turns after total) (hKeys : turns.map Turn.providerKey = files)
    (hStatus : ∀ turn ∈ turns, turn.status = .ok ∨ turn.status = .partly)
    (hPlain : ∀ key ∈ files, key.head? ≠ some '_')
    (hReport : report = ⟨total.finalStatus, total.updated, total.failed, total.perProvider⟩)
    (hLatest : latestLog after.logs = some log) (hDetails : log.details = some total.perProvider) :
    Reported files after report ↔ ∀ providerKey ∈ files, Traced turns providerKey := by
  -- every provider has a last turn, and its metadata are of that turn
  have hLast : ∀ key ∈ files, ∃ last, (ofProvider turns key).getLast? = some last ∧
      after.statusOf key = some last.metaStatus := by
    intro key hKey
    rw [← hKeys] at hKey
    obtain ⟨turn, hMem, hTurn⟩ := mem_map.mp hKey
    obtain ⟨last, hLast⟩ := exists_last hMem hTurn
    exact ⟨last, hLast, hBooked.written key last hLast⟩
  -- an entry is of a turn of its provider that could store
  have hMem : ∀ key, ∀ found ∈ (entered (ofProvider turns key)).getLast?,
      found ∈ turns ∧ found.providerKey = key ∧ found.turnEnd ≠ .lost := by
    intro key found hFound
    obtain ⟨hOf, hEntered⟩ := mem_filter.mp (mem_of_getLast? hFound)
    obtain ⟨hTurns, hKey⟩ := mem_filter.mp hOf
    exact ⟨hTurns, of_decide_eq_true hKey, of_decide_eq_true hEntered⟩
  subst hReport
  constructor
  · intro hReported key hKey
    obtain ⟨last, hLast, hWritten⟩ := hLast key hKey
    obtain ⟨status, hRow, hSame⟩ := hReported.detailed key hKey
    refine (traced_iff hStatus hLast).mp ?_
    rw [← hBooked.details, ← hWritten, hSame]
    exact hRow
  · intro hTraced
    have hDetailed : ∀ key ∈ files, ∃ last, (ofProvider turns key).getLast? = some last ∧
        total.perProvider.row? key = some last.metaStatus ∧
        after.statusOf key = some last.metaStatus := by
      intro key hKey
      obtain ⟨last, hLast, hWritten⟩ := hLast key hKey
      refine ⟨last, hLast, ?_, hWritten⟩
      rw [hBooked.details]
      exact (traced_iff hStatus hLast).mpr (hTraced key hKey)
    refine ⟨?_, fun hOk key hKey => ?_, fun key hKey => ?_, fun key => ?_⟩
    · -- the counters add up to the files
      rw [← hKeys, length_map]
      exact hBooked.counted
    · -- `ok` over all is `ok` for each
      obtain ⟨last, -, hRow, hWritten⟩ := hDetailed key hKey
      obtain ⟨hFailed, hPartials⟩ := zero_of_finalStatus hOk
      rw [hBooked.details, Option.map_eq_some_iff] at hRow
      obtain ⟨found, hFound, hSame⟩ := hRow
      obtain ⟨hTurns, -, hEntered⟩ := hMem key found hFound
      rw [hWritten, ← hSame, hBooked.clean hFailed hPartials found hTurns hEntered]
    · obtain ⟨last, -, hRow, hWritten⟩ := hDetailed key hKey
      exact ⟨last.metaStatus, hRow, hWritten⟩
    · -- the retry selects those with the status `error`
      rw [mem_getLastFailedProviders hLatest hDetails]
      constructor
      · rintro ⟨-, hRow⟩
        have hKey : key ∈ files := by
          rw [hBooked.details, Option.map_eq_some_iff] at hRow
          obtain ⟨found, hFound, -⟩ := hRow
          obtain ⟨hTurns, hSame, -⟩ := hMem key found hFound
          rw [← hKeys, ← hSame]
          exact mem_map_of_mem hTurns
        obtain ⟨last, -, hSame, hWritten⟩ := hDetailed key hKey
        exact ⟨hKey, hWritten.trans (hSame.symm.trans hRow)⟩
      · rintro ⟨hKey, hError⟩
        obtain ⟨last, -, hRow, hWritten⟩ := hDetailed key hKey
        exact ⟨hPlain key hKey, hRow.trans (hWritten.symm.trans hError)⟩

/-- **A refresh reports every provider exactly if its log is completed and no turn is lost
untraced.** -/
theorem reported_iff (config : Config) (db : CidrDb) (selected : List Text) (env : RefreshEnv)
    (hFiles : filesToUpdate config selected ≠ [])
    (hClock : ∀ log ∈ db.logs, log.startedAt < env.now) {after : CidrDb} {report : RefreshReport}
    (hReturns : refreshAll config db selected env = (after, some report)) :
    Reported (filesToUpdate config selected) after report ↔
      env.logFails = false ∧ ∀ providerKey ∈ filesToUpdate config selected,
        Traced (turnsOf config db.countOf env.turn 0 (filesToUpdate config selected))
          providerKey := by
  have hPlain : ∀ key ∈ filesToUpdate config selected, key.head? ≠ some '_' := fun key hKey =>
    config.plain key (of_decide_eq_true (mem_filter.mp hKey).2)
  have hNotEmpty : ¬(filesToUpdate config selected).isEmpty = true := fun hEmpty =>
    hFiles (List.isEmpty_iff.mp hEmpty)
  rw [refreshAll, if_neg hNotEmpty] at hReturns
  split_ifs at hReturns
  · cases hReturns
  rcases hLoop : refreshLoop config db.countOf env.turn 0 (filesToUpdate config selected)
      (db.beginLog env.now) {} with ⟨middle, _ | total⟩
  · rw [hLoop] at hReturns
    cases hReturns
  rw [hLoop] at hReturns
  have hNone : Booked [] (db.beginLog env.now) {} :=
    ⟨rfl, fun _ => rfl, nofun,
      fun _ _ turn hMem => absurd hMem not_mem_nil⟩
  have hBooked := booked_loop hNone hLoop
  rw [nil_append] at hBooked
  dsimp only at hReturns
  rcases hLog : env.logFails with _ | _
  · rw [completeLog, if_neg (by rw [hLog]; exact Bool.false_ne_true)] at hReturns
    cases hReturns
    rw [and_iff_right rfl]
    refine reported_of_traced ⟨hBooked.counted, hBooked.details, hBooked.written, hBooked.clean⟩
      turnsOf_keys turnsOf_status hPlain rfl (latestLog_concat ?_ hClock) rfl
    exact nofun
  · rw [completeLog, if_pos hLog] at hReturns
    cases hReturns
    refine iff_of_false (fun hReported => ?_) fun h => by cases h.1
    obtain ⟨key, hKey⟩ := exists_mem_of_ne_nil _ hFiles
    obtain ⟨status, hRow, -⟩ := hReported.detailed key hKey
    cases hRow

/-! ## A failure that is not reported -/

def unwritableRefresh : RefreshEnv where
  now := 1
  turn := fun _ => unwritable

/-- Storing the only provider raises. -/
theorem refreshAll_unwritable : ∃ after, refreshAll oneProvider storedPrefix [] unwritableRefresh =
    (after, some ⟨.ok, 1, 0, .empty⟩) := ⟨_, rfl⟩

theorem reported_iff_unwritable : ∃ after report,
    refreshAll oneProvider storedPrefix [] unwritableRefresh = (after, some report) ∧
      (Reported [amazon] after report ↔
        unwritableRefresh.logFails = false ∧ ∀ providerKey ∈ [amazon],
          Traced (turnsOf oneProvider storedPrefix.countOf unwritableRefresh.turn 0 [amazon])
            providerKey) := by
  obtain ⟨after, hReturns⟩ := refreshAll_unwritable
  exact ⟨after, _, hReturns, reported_iff oneProvider storedPrefix [] unwritableRefresh (by decide)
    (fun log hMem => absurd hMem not_mem_nil) hReturns⟩

/-- The report says `ok` and has no entry for the provider that could not be stored. -/
theorem not_always_reported : ¬∀ config db selected env after report,
    filesToUpdate config selected ≠ [] → (∀ log ∈ db.logs, log.startedAt < env.now) →
    refreshAll config db selected env = (after, some report) →
    Reported (filesToUpdate config selected) after report := by
  intro hAll
  obtain ⟨after, hReturns⟩ := refreshAll_unwritable
  have hReported := hAll oneProvider storedPrefix [] unwritableRefresh after _ (by decide)
    (fun log hMem => absurd hMem not_mem_nil) hReturns
  obtain ⟨status, hRow, -⟩ := hReported.detailed amazon (by decide)
  cases hRow

end AdminPanel.Cidr
