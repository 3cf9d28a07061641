import AdminPanel.NodeSync.SyncStatus

/-!
# The reconcile tick and auto-heal

A tick checks the groups in order and may start a heal attempt for one that is not ready.
The count of failed attempts lives in the stored check of the group: a check carries it
over, a ready one drops it, and the worker adds the attempt after it is over. Whatever
raises in between ends the tick.

* `verifySyncGroup`, `attemptIncrementalHeal`, `visitGroup`, `reconcileSyncGroupsOnce` —
  one tick, from what each call meets;
* `TickOk` — no attempt beyond the limit, every attempt counted, every group whose turn it
  is checked;
* `Undisturbed` — no attempt raises, no check raises before the last turn;
* `auto_heal_bounded` — the ticks of a run keep `TickOk` exactly while they are `Undisturbed`.
-/

namespace AdminPanel.NodeSync.AutoHeal

open List Lib
open Status (SyncStatus GroupRow)

/-! ## Data -/

inductive HealAction
  | cryptoSync
  | config
  | antizapret
  | policy
  deriving DecidableEq, Repr

/-- An entry of `mismatches`; the lists of names and the details are left out. -/
inductive Mismatch
  | nodeStatus
  | openvpnClients
  | wireguardClients
  | wireguardPeers
  | awg2Clients
  | fingerprint (path : String)
  | openvpnProfileCerts
  | openvpnRestartPending
  deriving DecidableEq, Repr

structure ReplicaResult where
  nodeId : Nat
  mismatches : List Mismatch
  deriving DecidableEq, Repr

/-- The JSON of a check. A count that `int` does not take reads like a missing one. -/
structure VerifyResult where
  ready : Bool
  replicas : List ReplicaResult := []
  summary : String
  autoHealFailures : Option Int := none
  deriving DecidableEq, Repr

structure SyncGroup extends GroupRow where
  id : Nat
  name : String := ""
  sharedDomain : String := ""
  syncMode : String := "auto"
  /-- `none` when empty or not a JSON object. -/
  lastVerifyResult : Option VerifyResult := none
  deriving DecidableEq, Repr

structure Settings where
  nodeSyncAutoHeal : Bool := false
  nodeSyncAutoHealMaxFailures : Int := 3
  deriving DecidableEq, Repr

def autoHealMaxFailures (settings : Settings) : Nat :=
  (max 1 settings.nodeSyncAutoHealMaxFailures).toNat

section

variable (group : SyncGroup)

def isAutoSyncEnabled : Bool :=
  Panel.lower (Panel.stripped group.syncMode) = "auto"

/-- What the calls of `verify_sync_group` meet: `raises` when the primary is online and one of
its calls fails. -/
inductive Check
  | raises
  | primaryOffline
  | compared (primaryProfilesReady : Bool) (replicas : List ReplicaResult)
  deriving DecidableEq, Repr

/-- How a heal function ends. -/
inductive HealEnd
  | raises
  | done (success : Bool) (errors : List String)
  deriving DecidableEq, Repr

/-- What a tick meets at one group. Heals and other threads write the status of the group
and its text too, and may make it pending at any point. -/
structure Visit where
  paused : Bool := false
  before : GroupRow → GroupRow := id
  check : Check
  afterCheck : GroupRow → GroupRow := id
  pausedBeforeHeal : Bool := false
  heal : HealAction → HealEnd := fun _ => .done true []
  afterHeal : GroupRow → GroupRow := id
  recheck : Check := .compared true []
  afterRecheck : GroupRow → GroupRow := id

/-- Others write the row. -/
def SyncGroup.others (write : GroupRow → GroupRow) : SyncGroup :=
  { group with toGroupRow := write group.toGroupRow }

/-! ## verify.py -/

def carryAutoHealFailures (result : VerifyResult) : VerifyResult :=
  if result.ready then result
  else match group.lastVerifyResult.bind (·.autoHealFailures) with
    | none => result
    | some failures => { result with autoHealFailures := some failures }

/-- The verdict of a check; `none` when it raises. -/
def Check.result : Check → Option VerifyResult
  | .raises => none
  | .primaryOffline =>
    some { ready := false, summary := "Основной узел offline или не найден" }
  | .compared primaryProfilesReady replicas =>
    let ready := primaryProfilesReady && replicas.all (·.mismatches.isEmpty)
    some {
      ready := ready
      replicas := replicas
      summary :=
        if ready then "Готово к DNS-переключению"
        else "Расхождения между основным узлом и репликой" }

def storeCheck (result : VerifyResult) : SyncGroup :=
  if result.ready ∧ group.syncStatus = .drift then
    { group with lastVerifyResult := some result, syncStatus := .synced, lastSyncError := none }
  else { group with lastVerifyResult := some result }

/-- The group as committed, and the result. -/
def verifySyncGroup (check : Check) : Option (SyncGroup × VerifyResult) :=
  check.result.map fun found =>
    (storeCheck group (carryAutoHealFailures group found), carryAutoHealFailures group found)

/-! ## reconcile_worker.py -/

def Mismatch.healActions : Mismatch → List HealAction
  | .nodeStatus => []
  | .openvpnClients => [.cryptoSync, .policy]
  | .wireguardClients => [.cryptoSync, .policy]
  | .openvpnRestartPending => [.cryptoSync]
  | .wireguardPeers => [.cryptoSync]
  | .awg2Clients => [.cryptoSync]
  | .fingerprint path =>
    if path = "antizapret/config" then [.config, .antizapret]
    else if path = "wireguard/conf_files" ∨ path.startsWith "easyrsa3/" then [.cryptoSync]
    else [.config]
  | .openvpnProfileCerts => []

/-- The actions, and whether there is only drift that no heal can fix. -/
def classifyHealActions (result : VerifyResult) : List HealAction × Bool :=
  let mismatches : List Mismatch := result.replicas.flatMap (·.mismatches)
  let actions := mismatches.flatMap (·.healActions)
  if Mismatch.nodeStatus ∈ mismatches ∧ actions = [] then ([], true) else (actions, false)

/-- The heal functions in order; `none` when one raises. -/
def runHeals (heal : HealAction → HealEnd) : List HealAction → Option (List String)
  | [] => some []
  | action :: rest =>
    match heal action with
    | .raises => none
    | .done success errors =>
      (runHeals heal rest).map fun more => (if success then [] else errors) ++ more

def attemptIncrementalHeal (heal : HealAction → HealEnd) (result : VerifyResult) :
    Option (Bool × List String) :=
  match classifyHealActions result with
  | (_, true) => some (false, ["incremental heal cannot fix offline nodes"])
  | ([], false) => some (false, ["no incremental heal actions for detected drift"])
  | (actions, false) =>
    let order := [HealAction.cryptoSync, .config, .antizapret, .policy]
    (runHeals heal (order.filter (· ∈ actions))).map fun errors => (errors.isEmpty, errors)

def readHealFailureCount (result : Option VerifyResult) : Nat :=
  ((result.bind (·.autoHealFailures)).getD 0).toNat

def SyncGroup.failures : Nat := readHealFailureCount group.lastVerifyResult

def mergeHealFailureCount (result : VerifyResult) (count : Nat) : VerifyResult :=
  { result with autoHealFailures := some count }

def autoHealSuspendedPrefix : String := "Автолечение приостановлено"

def autoHealSuspendedText (failures : Nat) : String :=
  autoHealSuspendedPrefix ++ s!" после {failures} неудачных попыток подряд: " ++
    "нужна ручная синхронизация («Синхронизировать»). Проверка группы продолжается, " ++
    "автолечение возобновится после успешной синхронизации или проверки без расхождений"

structure DriftItem where
  groupId : Nat
  name : String
  sharedDomain : String
  summary : String
  autoHealFailures : Nat
  notify : Bool
  autoHealSuspended : Bool
  hint : Option String
  deriving DecidableEq, Repr

/-- How the loop goes on after a group. -/
inductive Ending
  | next
  | stop
  | raised
  deriving DecidableEq, Repr

/-- The turn of one group: `checked` and `attempted` when the check and a heal were started. -/
structure Report where
  before : SyncGroup
  after : SyncGroup
  ending : Ending := .next
  checked : Bool := false
  ready : Bool := false
  attempted : Bool := false
  drift : Option DriftItem := none
  deriving DecidableEq, Repr

/-- The group was not reached. -/
def Report.untouched : Report := { before := group, after := group }

end

section

variable (settings : Settings) (v : Visit)

/-- The error text of a failed turn. -/
def failureText (attempted suspended : Bool) (failures : Nat) (summary : String)
    (healErrors : List String) (lastSyncError : Option String) : Option String :=
  let maxFailures := autoHealMaxFailures settings
  let detail := if healErrors = [] then summary else "; ".intercalate healErrors
  if attempted ∧ maxFailures ≤ failures then
    some (autoHealSuspendedText failures ++ s!". Последняя ошибка: {detail}")
  else if attempted then some s!"auto-heal attempt {failures}/{maxFailures}: {detail}"
  else if suspended then
    if (lastSyncError.getD "").startsWith autoHealSuspendedPrefix then lastSyncError
    else some (autoHealSuspendedText failures ++ s!". Проверка: {summary}")
  else some summary

def driftItem (group : SyncGroup) (autoHeal attempted suspended : Bool) (failures : Nat)
    (summary : String) : DriftItem :=
  let justSuspended := attempted && decide (autoHealMaxFailures settings ≤ failures)
  { groupId := group.id
    name := group.name
    sharedDomain := group.sharedDomain
    summary := summary
    autoHealFailures := failures
    notify := !autoHeal || justSuspended
    autoHealSuspended := suspended || justSuspended
    hint :=
      if justSuspended then
        some (s!"Автолечение приостановлено после {failures} неудачных попыток подряд: " ++
          "запустите «Синхронизировать» (Push full) вручную или устраните расхождение на primary")
      else none }

/-- The end of a turn that found the group not ready; `start` is the row at its beginning. -/
def recordFailure (start group : SyncGroup) (result : VerifyResult)
    (autoHeal attempted suspended : Bool) (healErrors : List String) : Report :=
  let failures := start.failures + if attempted then 1 else 0
  let stored := { group with lastVerifyResult := some (mergeHealFailureCount result failures) }
  if group.syncStatus = .pending then
    { before := start, after := stored, checked := true, attempted := attempted }
  else
    { before := start
      after := { stored with
        syncStatus := .failed
        lastSyncError := failureText settings attempted suspended failures result.summary healErrors
          group.lastSyncError }
      checked := true
      attempted := attempted
      drift :=
        some (driftItem settings group autoHeal attempted suspended failures result.summary) }

/-- `auto_heal` of a turn. -/
def autoHealOn (group : SyncGroup) : Bool := settings.nodeSyncAutoHeal && isAutoSyncEnabled group

/-- `heal_suspended` of a turn. -/
def healSuspended (start : SyncGroup) : Bool :=
  decide (autoHealMaxFailures settings ≤ start.failures)

/-- The heal attempt and what follows; `group` and `result` are the check's. -/
def healGroup (start group : SyncGroup) (result : VerifyResult) : Report :=
  match attemptIncrementalHeal v.heal result with
  | none =>
    { before := start, after := group.others v.afterHeal, ending := .raised, checked := true,
      attempted := true }
  | some (false, healErrors) =>
    recordFailure settings start (group.others v.afterHeal) result true true false healErrors
  | some (true, healErrors) =>
    match verifySyncGroup (group.others v.afterHeal) v.recheck with
    | none =>
      { before := start, after := group.others v.afterHeal, ending := .raised, checked := true,
        attempted := true }
    | some (rechecked, result) =>
      if result.ready then
        { before := start, after := rechecked, checked := true, ready := true, attempted := true }
      else
        recordFailure settings start (rechecked.others v.afterRecheck) result true true false
          healErrors

/-- The turn after a check that is not ready. -/
def treatGroup (start group : SyncGroup) (result : VerifyResult) : Report :=
  if group.syncStatus = .pending then { before := start, after := group, checked := true }
  else if !autoHealOn settings group then
    recordFailure settings start (group.others v.afterHeal) result false false false []
  else if healSuspended settings start then
    recordFailure settings start (group.others v.afterHeal) result true false true []
  else if v.pausedBeforeHeal then
    { before := start, after := group, ending := .stop, checked := true }
  else healGroup settings v start group result

/-- The body of the loop. -/
def visitGroup (start : SyncGroup) : Report :=
  if v.paused then { before := start, after := start, ending := .stop }
  else if (v.before start.toGroupRow).syncStatus = .pending then
    { before := start, after := start.others v.before }
  else match verifySyncGroup (start.others v.before) v.check with
    | none =>
      { before := start, after := start.others v.before, ending := .raised, checked := true }
    | some (group, result) =>
      if result.ready then { before := start, after := group, checked := true, ready := true }
      else treatGroup settings v start (group.others v.afterCheck) result

end

section

variable (settings : Settings) (visits : Nat → Visit)

/-- The loop; its handler stands outside. -/
def reconcileLoop : List SyncGroup → List Report
  | [] => []
  | group :: rest =>
    let report := visitGroup settings (visits group.id) group
    report :: if report.ending = .next then reconcileLoop rest else rest.map Report.untouched

end

/-- What `recover_stuck_pending_groups` makes of a group; `stuck` has the error of a task that
has ended. -/
def SyncGroup.recover (stuck : Nat → Option String) (group : SyncGroup) : SyncGroup :=
  if group.syncStatus = .pending then
    match stuck group.id with
    | none => group
    | some detail =>
      { group with
        syncStatus := .failed
        lastSyncError := some ((s!"Синхронизация не завершилась: {detail}".take 1000).toString) }
  else group

structure Tick where
  stuck : Nat → Option String := fun _ => none
  visits : Nat → Visit

def reconcileSyncGroupsOnce (settings : Settings) (tick : Tick) (groups : List SyncGroup) :
    List Report :=
  reconcileLoop settings tick.visits (groups.map (·.recover tick.stuck))

/-! ## Runs of ticks -/

/-- A group, and how many heal attempts were started since it was last found ready. -/
structure Tracked where
  group : SyncGroup
  attempts : Nat := 0
  deriving DecidableEq, Repr

def Tracked.advance (t : Tracked) (report : Report) : Tracked where
  group := report.after
  attempts := if report.ready then 0 else t.attempts + if report.attempted then 1 else 0

/-- What becomes of a group in a tick. -/
inductive Turn
  | paused
  | skipped
  | checkRaises
  | checkOnly
  | healPaused
  | healRaises
  | heal
  deriving DecidableEq, Repr

def Turn.ending : Turn → Ending
  | .paused => .stop
  | .skipped => .next
  | .checkRaises => .raised
  | .checkOnly => .next
  | .healPaused => .stop
  | .healRaises => .raised
  | .heal => .next

def Turn.checks : Turn → Bool
  | .paused => false
  | .skipped => false
  | _ => true

def Turn.attempts : Turn → Bool
  | .healRaises => true
  | .heal => true
  | _ => false

/-- A heal function raises, or the check after the heal. -/
def Visit.healRaises (v : Visit) (result : VerifyResult) : Bool :=
  match attemptIncrementalHeal v.heal result with
  | none => true
  | some (false, _) => false
  | some (true, _) => decide (v.recheck = .raises)

section

variable (settings : Settings)

/-- The turn that a group is in for, from its row and what it meets. -/
def turnOf (v : Visit) (group : SyncGroup) : Turn :=
  if v.paused then .paused
  else if (v.before group.toGroupRow).syncStatus = .pending then .skipped
  else match verifySyncGroup (group.others v.before) v.check with
    | none => .checkRaises
    | some (checked, result) =>
      if result.ready ∨ (v.afterCheck checked.toGroupRow).syncStatus = .pending ∨
          ¬ autoHealOn settings checked ∨ healSuspended settings group then .checkOnly
      else if v.pausedBeforeHeal then .healPaused
      else if v.healRaises result then .healRaises
      else .heal

/-- The groups whose turn it is: those that are not pending when the loop comes to them,
up to a pause, whatever happens to the groups before. -/
def turns (visits : Nat → Visit) : List SyncGroup → List Nat
  | [] => []
  | group :: rest =>
    match turnOf settings (visits group.id) group with
    | .paused => []
    | .skipped => turns visits rest
    | .healPaused => [group.id]
    | _ => group.id :: turns visits rest

/-- No heal attempt is cut short, and no check raises with turns still to come. -/
def UndisturbedFrom (visits : Nat → Visit) : List SyncGroup → Prop
  | [] => True
  | group :: rest =>
    match turnOf settings (visits group.id) group with
    | .paused => True
    | .healPaused => True
    | .checkRaises => turns settings visits rest = []
    | .healRaises => False
    | _ => UndisturbedFrom visits rest

def recovered (tick : Tick) (ts : List Tracked) : List SyncGroup :=
  ts.map (·.group.recover tick.stuck)

def Undisturbed (ts : List Tracked) (tick : Tick) : Prop :=
  UndisturbedFrom settings tick.visits (recovered tick ts)

/-- The tick's reports. -/
def tickReports (ts : List Tracked) (tick : Tick) : List Report :=
  reconcileSyncGroupsOnce settings tick (ts.map (·.group))

def tickStep (ts : List Tracked) (tick : Tick) : Option (List Tracked) :=
  some ((ts.zip (tickReports settings ts tick)).map fun x => x.1.advance x.2)

/-- **The bound.** Since its group was last found ready, each attempt that a tick starts has
less than the maximum before it; it is counted unless it leaves the group ready; and every
group whose turn it is is checked. -/
structure TickOk (ts : List Tracked) (tick : Tick) : Prop where
  bounded : ∀ x ∈ ts.zip (tickReports settings ts tick), x.2.attempted = true →
    x.1.attempts < autoHealMaxFailures settings
  counted : ∀ r ∈ tickReports settings ts tick, r.attempted = true → r.ready = false →
    r.after.failures = r.before.failures + 1
  checked : ((tickReports settings ts tick).filter (·.checked)).map (·.before.id) =
    turns settings tick.visits (recovered tick ts)

end

/-! ## One turn -/

variable {check : Check} {result : VerifyResult}

section

variable {settings : Settings} {v : Visit} {group start : SyncGroup}

theorem Check.result_uncounted {found : VerifyResult}
    (h : check.result = some found) : found.autoHealFailures = none := by
  cases check with
  | raises => simp [Check.result] at h
  | primaryOffline | compared primaryProfilesReady replicas => exact Option.some.inj h ▸ rfl

theorem readHealFailureCount_carry (group : SyncGroup) {found : VerifyResult}
    (hFound : found.autoHealFailures = none) (hReady : found.ready = false) :
    readHealFailureCount (some (carryAutoHealFailures group found)) = group.failures := by
  unfold carryAutoHealFailures SyncGroup.failures readHealFailureCount
  rw [hReady, if_neg (by simp)]
  cases hPrior : group.lastVerifyResult.bind (·.autoHealFailures) with
  | none => simp [hFound]
  | some failures => rfl

theorem carryAutoHealFailures_ready (found : VerifyResult) :
    (carryAutoHealFailures group found).ready = found.ready := by
  unfold carryAutoHealFailures
  split
  · rfl
  · split <;> rfl

/-- A check that is not ready keeps the count. -/
theorem verify_failures {checked : SyncGroup}
    (h : verifySyncGroup group check = some (checked, result)) (hReady : result.ready = false) :
    checked.failures = group.failures := by
  obtain ⟨found, hFound, hEq⟩ := Option.map_eq_some_iff.mp h
  cases hEq
  have hNot : found.ready = false := by rwa [carryAutoHealFailures_ready] at hReady
  have hCount := readHealFailureCount_carry group (Check.result_uncounted hFound) hNot
  unfold storeCheck
  rw [if_neg (by simp [hReady])]
  exact hCount

@[simp] theorem others_failures (write : GroupRow → GroupRow) :
    (group.others write).failures = group.failures := rfl

@[simp] theorem recover_failures (stuck : Nat → Option String) :
    (group.recover stuck).failures = group.failures := by
  unfold SyncGroup.recover
  split
  · split <;> rfl
  · rfl

/-- The report of a turn. -/
structure Reports (report : Report) (start : SyncGroup) (turn : Turn) : Prop where
  before : report.before = start
  ending : report.ending = turn.ending
  checked : report.checked = turn.checks
  attempted : report.attempted = turn.attempts
  count : report.ready = false →
    report.after.failures = start.failures + if turn = .heal then 1 else 0
  cut : turn = .healRaises → report.ready = false

theorem recordFailure_reports (autoHeal suspended : Bool)
    (healErrors : List String) (attempted : Bool) :
    Reports (recordFailure settings start group result autoHeal attempted suspended healErrors)
      start (if attempted then .heal else .checkOnly) := by
  by_cases hPending : group.syncStatus = .pending
  · simp only [recordFailure, if_pos hPending]
    cases attempted <;> exact ⟨rfl, rfl, rfl, rfl, fun _ => rfl, fun _ => rfl⟩
  · simp only [recordFailure, if_neg hPending]
    cases attempted <;> exact ⟨rfl, rfl, rfl, rfl, fun _ => rfl, fun _ => rfl⟩

theorem verify_none : verifySyncGroup group check = none ↔ check = .raises := by
  cases check <;> simp [verifySyncGroup, Check.result]

/-- What a heal reports is what has happened. -/
theorem healGroup_reports (hCount : group.failures = start.failures) :
    Reports (healGroup settings v start group result) start
      (if v.healRaises result then .healRaises else .heal) := by
  rcases hHeal : attemptIncrementalHeal v.heal result with _ | ⟨ok, healErrors⟩
  · simp only [healGroup, Visit.healRaises, hHeal, if_true]
    exact ⟨rfl, rfl, rfl, rfl, fun _ => hCount, fun _ => rfl⟩
  · cases ok with
    | false =>
      simp only [healGroup, Visit.healRaises, hHeal, Bool.false_eq_true, if_false]
      exact recordFailure_reports true false healErrors true
    | true =>
      rcases hRecheck : verifySyncGroup (group.others v.afterHeal) v.recheck with
        _ | ⟨rechecked, again⟩
      · have hRaises : v.recheck = .raises := verify_none.mp hRecheck
        simp only [healGroup, Visit.healRaises, hHeal, hRaises, verify_none.mpr, decide_true,
          if_true]
        exact ⟨rfl, rfl, rfl, rfl, fun _ => hCount, fun _ => rfl⟩
      · have hReturns : v.recheck ≠ .raises := fun hRaises => by
          rw [verify_none.mpr hRaises] at hRecheck
          simp at hRecheck
        simp only [healGroup, Visit.healRaises, hHeal, hRecheck, hReturns, decide_false,
          Bool.false_eq_true, if_false]
        by_cases hReady : again.ready = true
        · rw [if_pos hReady]
          exact ⟨rfl, rfl, rfl, rfl, fun h => by simp at h, fun h => by simp at h⟩
        · rw [if_neg hReady]
          exact recordFailure_reports true false healErrors true

/-- **One turn.** The report is the one of the group's turn. -/
theorem visitGroup_reports (settings : Settings) (v : Visit) (start : SyncGroup) :
    Reports (visitGroup settings v start) start (turnOf settings v start) := by
  unfold visitGroup turnOf
  -- the branches in the order of the worker: pause, setup, check, heal
  by_cases hPaused : v.paused = true
  · rw [if_pos hPaused, if_pos hPaused]
    exact ⟨rfl, rfl, rfl, rfl, fun _ => rfl, fun _ => rfl⟩
  rw [if_neg hPaused, if_neg hPaused]
  by_cases hPending : (v.before start.toGroupRow).syncStatus = .pending
  · rw [if_pos hPending, if_pos hPending]
    exact ⟨rfl, rfl, rfl, rfl, fun _ => rfl, fun _ => rfl⟩
  rw [if_neg hPending, if_neg hPending]
  rcases hCheck : verifySyncGroup (start.others v.before) v.check with _ | ⟨checked, result⟩
  · exact ⟨rfl, rfl, rfl, rfl, fun _ => rfl, fun _ => rfl⟩
  simp only
  by_cases hReady : result.ready = true
  · rw [if_pos hReady, if_pos (.inl hReady)]
    exact ⟨rfl, rfl, rfl, rfl, fun h => by simp at h, fun h => by simp at h⟩
  rw [if_neg hReady]
  have hCount : (checked.others v.afterCheck).failures = start.failures := by
    rw [others_failures, verify_failures hCheck (by simpa using hReady), others_failures]
  unfold treatGroup
  show Reports (if (v.afterCheck checked.toGroupRow).syncStatus = .pending then _ else _) start _
  by_cases hSetup : (v.afterCheck checked.toGroupRow).syncStatus = .pending
  · rw [if_pos hSetup, if_pos (.inr (.inl hSetup))]
    exact ⟨rfl, rfl, rfl, rfl, fun _ => hCount, fun _ => rfl⟩
  rw [if_neg hSetup]
  by_cases hOn : autoHealOn settings checked = true
  · have hOnOthers : autoHealOn settings (checked.others v.afterCheck) = true := hOn
    rw [hOnOthers, if_neg (by simp)]
    -- suspended: the failure is recorded and nothing else
    by_cases hSuspended : healSuspended settings start = true
    · rw [if_pos hSuspended, if_pos (.inr (.inr (.inr hSuspended)))]
      exact recordFailure_reports true true [] false
    have hDue : ¬ (result.ready = true ∨ (v.afterCheck checked.toGroupRow).syncStatus = .pending ∨
        ¬ autoHealOn settings checked = true ∨ healSuspended settings start = true) := by
      simp [hReady, hSetup, hOn, hSuspended]
    rw [if_neg hSuspended, if_neg hDue]
    -- a pause may begin between check and heal
    by_cases hHealPaused : v.pausedBeforeHeal = true
    · rw [if_pos hHealPaused, if_pos hHealPaused]
      exact ⟨rfl, rfl, rfl, rfl, fun _ => hCount, fun _ => rfl⟩
    · rw [if_neg hHealPaused, if_neg hHealPaused]
      exact healGroup_reports hCount
  · have hOff : autoHealOn settings checked = false := by simpa using hOn
    have hOffOthers : autoHealOn settings (checked.others v.afterCheck) = false := hOff
    rw [hOffOthers, if_pos (by simp), if_pos (.inr (.inr (.inl hOn)))]
    exact recordFailure_reports false false [] false

/-- A turn that starts an attempt has the count below the maximum. -/
theorem turnOf_attempts (h : (turnOf settings v start).attempts = true) :
    start.failures < autoHealMaxFailures settings := by
  unfold turnOf at h
  split at h
  · simp [Turn.attempts] at h
  split at h
  · simp [Turn.attempts] at h
  split at h
  · simp [Turn.attempts] at h
  split at h
  · simp [Turn.attempts] at h
  · next hDue =>
    have hNot : ¬ healSuspended settings start = true := fun hSuspended =>
      hDue (.inr (.inr (.inr hSuspended)))
    rw [healSuspended, decide_eq_true_eq] at hNot
    omega

/-! ## One tick -/

variable {visits : Nat → Visit}

theorem reconcileLoop_cons (group : SyncGroup) (rest : List SyncGroup) :
    reconcileLoop settings visits (group :: rest) =
      visitGroup settings (visits group.id) group ::
        if (turnOf settings (visits group.id) group).ending = .next then
          reconcileLoop settings visits rest
        else rest.map Report.untouched := by
  rw [reconcileLoop, (visitGroup_reports ..).ending]

/-- The attempt of a report is counted. -/
def Report.Counted (r : Report) : Prop :=
  r.attempted = true → r.ready = false → r.after.failures = r.before.failures + 1

/-- Every report is one of a turn; an attempt has the count below the maximum. -/
theorem reconcileLoop_reports {groups : List SyncGroup} {r : Report}
    (h : r ∈ reconcileLoop settings visits groups) :
    ∃ turn, Reports r r.before turn ∧
      (turn.attempts = true → r.before.failures < autoHealMaxFailures settings) := by
  induction groups with
  | nil => simp [reconcileLoop] at h
  | cons group rest ih =>
    rw [reconcileLoop_cons, mem_cons] at h
    rcases h with rfl | h
    · have hTurn := visitGroup_reports settings (visits group.id) group
      rw [hTurn.before]
      exact ⟨_, hTurn, turnOf_attempts⟩
    · split at h
      · exact ih h
      · obtain ⟨other, -, rfl⟩ := mem_map.mp h
        exact ⟨.skipped, ⟨rfl, rfl, rfl, rfl, fun _ => rfl, fun _ => rfl⟩, by simp [Turn.attempts]⟩

theorem reconcileLoop_before (groups : List SyncGroup) :
    (reconcileLoop settings visits groups).map (·.before) = groups := by
  induction groups with
  | nil => rfl
  | cons group rest ih =>
    rw [reconcileLoop_cons, map_cons, (visitGroup_reports ..).before]
    split
    · rw [ih]
    · rw [map_map]
      exact congrArg (group :: ·) (map_id rest)

theorem untouched_unchecked (groups : List SyncGroup) :
    (groups.map Report.untouched).filter (·.checked) = [] := by
  simp [Report.untouched]

theorem untouched_counted (group : SyncGroup) : (Report.untouched group).Counted := by
  intro hAttempted
  simp [Report.untouched] at hAttempted

/-- **One tick.** Every attempt is counted and every turn taken exactly when nothing cuts it
short. -/
theorem reconcileLoop_undisturbed (groups : List SyncGroup) :
    ((∀ r ∈ reconcileLoop settings visits groups, r.Counted) ∧
      ((reconcileLoop settings visits groups).filter (·.checked)).map (·.before.id) =
        turns settings visits groups) ↔ UndisturbedFrom settings visits groups := by
  induction groups with
  | nil => simp [reconcileLoop, turns, UndisturbedFrom]
  | cons group rest ih =>
    have hReport := visitGroup_reports settings (visits group.id) group
    rw [reconcileLoop_cons, forall_mem_cons, filter_cons, hReport.checked, turns,
      UndisturbedFrom]
    have hCalm : (turnOf settings (visits group.id) group).attempts = false →
        (visitGroup settings (visits group.id) group).Counted := by
      intro hNone hAttempted
      rw [hReport.attempted, hNone] at hAttempted
      simp at hAttempted
    have hId : (visitGroup settings (visits group.id) group).before.id = group.id := by
      rw [hReport.before]
    cases hTurn : turnOf settings (visits group.id) group with
    | paused =>
      have hFirst := hCalm (by rw [hTurn]; rfl)
      simp [Turn.ending, Turn.checks, untouched_unchecked, untouched_counted, hFirst]
    | skipped =>
      have hFirst := hCalm (by rw [hTurn]; rfl)
      simpa [Turn.ending, Turn.checks, hFirst] using ih
    -- the loop ends here: the groups that follow are not checked
    | checkRaises =>
      have hFirst := hCalm (by rw [hTurn]; rfl)
      simp only [Turn.ending, Turn.checks, reduceCtorEq, if_false, if_true, hFirst, true_and,
        forall_mem_map, untouched_counted, implies_true, untouched_unchecked, map_cons,
        map_nil, hId, List.cons.injEq]
      exact eq_comm
    | checkOnly =>
      have hFirst := hCalm (by rw [hTurn]; rfl)
      simpa [Turn.ending, Turn.checks, hFirst, hId] using ih
    | healPaused =>
      have hFirst := hCalm (by rw [hTurn]; rfl)
      simp [Turn.ending, Turn.checks, untouched_unchecked, untouched_counted, hFirst, hId]
    -- the count is stored behind the heal, so this failure is lost
    | healRaises =>
      have hLost : ¬ (visitGroup settings (visits group.id) group).Counted := by
        intro hCounted
        have hReady := hReport.cut hTurn
        have hMore := hCounted (by rw [hReport.attempted, hTurn]; rfl) hReady
        have hSame := hReport.count hReady
        rw [hReport.before] at hMore
        rw [hTurn, if_neg (by simp)] at hSame
        omega
      exact iff_of_false (fun h => hLost h.1.1) id
    | heal =>
      have hFirst : (visitGroup settings (visits group.id) group).Counted := by
        intro _ hReady
        rw [hReport.before, hReport.count hReady, hTurn, if_pos rfl]
      simpa [Turn.ending, Turn.checks, hFirst, hId] using ih

/-! ## Ticks -/

variable {tick : Tick} {ts ts' : List Tracked}

/-- Every attempt since the last ready check is in the count. -/
def Counting (ts : List Tracked) : Prop := ∀ t ∈ ts, t.attempts ≤ t.group.failures

theorem tickReports_eq :
    tickReports settings ts tick = reconcileLoop settings tick.visits (recovered tick ts) := by
  rw [tickReports, reconcileSyncGroupsOnce, map_map]
  rfl

/-- A report beside its group. -/
theorem tickReports_before {x : Tracked × Report} (h : x ∈ ts.zip (tickReports settings ts tick)) :
    x.2.before.failures = x.1.group.failures := by
  have hBefore : (tickReports settings ts tick).map (·.before) = recovered tick ts := by
    rw [tickReports_eq, reconcileLoop_before]
  have hPair : (x.1.group.recover tick.stuck, x.2.before) ∈
      (recovered tick ts).zip ((tickReports settings ts tick).map (·.before)) := by
    rw [recovered, zip_map]
    exact mem_map_of_mem h
  rw [hBefore, recovered, zip_map'] at hPair
  obtain ⟨t, -, hEq⟩ := mem_map.mp hPair
  have hSame : x.1.group.recover tick.stuck = x.2.before :=
    (Prod.mk.inj hEq).1.symm.trans (Prod.mk.inj hEq).2
  rw [← hSame, recover_failures]

theorem Counting.bounded (hCounting : Counting ts) {x : Tracked × Report}
    (h : x ∈ ts.zip (tickReports settings ts tick)) (hAttempted : x.2.attempted = true) :
    x.1.attempts < autoHealMaxFailures settings := by
  have hMem := of_mem_zip h
  have hLe := hCounting x.1 hMem.1
  rw [tickReports_eq] at hMem
  obtain ⟨turn, hReport, hBound⟩ := reconcileLoop_reports hMem.2
  rw [hReport.attempted] at hAttempted
  have hLt := hBound hAttempted
  rw [tickReports_before h] at hLt
  omega

theorem tickOk_iff (hCounting : Counting ts) :
    TickOk settings ts tick ↔ Undisturbed settings ts tick := by
  rw [Undisturbed, ← reconcileLoop_undisturbed, ← tickReports_eq]
  constructor
  · intro hOk
    exact ⟨hOk.counted, hOk.checked⟩
  · rintro ⟨hCounted, hChecked⟩
    exact ⟨fun x hx => hCounting.bounded hx, hCounted, hChecked⟩

theorem Counting.step (hCounting : Counting ts) (hOk : TickOk settings ts tick)
    (hStep : tickStep settings ts tick = some ts') : Counting ts' := by
  cases hStep
  intro t ht
  obtain ⟨x, hx, rfl⟩ := mem_map.mp ht
  have hMem := of_mem_zip hx
  have hLe := hCounting x.1 hMem.1
  have hBefore := tickReports_before hx
  have hReports := hMem.2
  rw [tickReports_eq] at hReports
  obtain ⟨turn, hReport, -⟩ := reconcileLoop_reports hReports
  show (if x.2.ready then 0 else _) ≤ x.2.after.failures
  cases hReady : x.2.ready with
  | true => simp
  | false =>
    rw [if_neg (by simp)]
    cases hAttempted : x.2.attempted with
    | true =>
      have hCounted := hOk.counted x.2 hMem.2 hAttempted hReady
      rw [if_pos rfl]
      omega
    | false =>
      have hSame := hReport.count hReady
      rw [if_neg (by simp)]
      omega

end

/-! ## Runs -/

def track (groups : List SyncGroup) : List Tracked := groups.map fun group => { group := group }

/-- **Bounded healing, where it holds.** From any groups, with any counts stored, every tick
of a run keeps the bound, counts its attempts and takes every turn exactly when in every tick
no heal attempt is cut short and no check raises with turns still to come. -/
theorem auto_heal_bounded (settings : Settings) (groups : List SyncGroup) (ticks : List Tick) :
    Along (tickStep settings) (TickOk settings) (track groups) ticks ↔
      Along (tickStep settings) (Undisturbed settings) (track groups) ticks := by
  have hStart : Counting (track groups) := by
    intro t ht
    obtain ⟨group, -, rfl⟩ := mem_map.mp ht
    exact Nat.zero_le _
  refine along_congr (fun ts tick (h : Counting ts) => tickOk_iff h) ?_ hStart ticks
  intro ts tick ts' h hOk hStep
  exact h.step hOk hStep

/-- Groups 1 and 2; the clients of 1 differ and its primary is gone when the heal starts. -/
def brokenTick : Tick where
  visits id :=
    { check := .compared true [⟨3, if id = 1 then [.openvpnClients] else []⟩]
      heal := fun _ => .raises }

def twoGroups : List SyncGroup :=
  [{ id := 1, syncStatus := .synced }, { id := 2, syncStatus := .synced }]

/-- Four attempts with a maximum of three, none in the count, and the second group is never
checked. -/
theorem attempts_unbounded : let settings : Settings := { nodeSyncAutoHeal := true }
    autoHealMaxFailures settings = 3 ∧
    (exec (tickStep settings) (track twoGroups)
      [brokenTick, brokenTick, brokenTick, brokenTick]).map
      (·.map fun t => (t.attempts, t.group.failures)) = some [(4, 0), (0, 0)] ∧
    ((tickReports settings (track twoGroups) brokenTick).filter (·.checked)).map (·.before.id) =
      [1] ∧
    turns settings brokenTick.visits twoGroups = [1, 2] ∧
    ¬ Along (tickStep settings) (TickOk settings) (track twoGroups) [brokenTick] := by
  refine ⟨by decide, by decide, by decide, by decide, ?_⟩
  intro hAlong
  exact absurd hAlong.1.checked (by decide)

end AdminPanel.NodeSync.AutoHeal
