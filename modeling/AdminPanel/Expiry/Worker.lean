import AdminPanel.Unlock.Effect

/-!
# The access-expiry worker

`_run_once` of `app/services/access_expiry_worker.py`: `apply_due_access_blocks`,
then `apply_due_user_subscription_blocks`, on one session without autoflush. A due
row is claimed by a conditional `UPDATE` with its commit, then reconciled.

* `WorkerEnv` — what the policy services meet, in the order they are built: the
  clock, the traffic, and the call that raises;
* `WorkerState.reconcile` — a reconcile changes the row, then calls the node: an
  OpenVPN row is committed before the ban file is written, a peer row after the
  runtime call;
* `claimAndReconcile` — `set_access_until` with `require_deadline_lte`;
* `applyDueAccessBlocks` — an exception is logged, the session goes on;
* `applyDueUserSubscriptionBlocks` — an exception rolls back and ends the user;
* `runOnce`.

The rows of AmneziaWG3, which have no policy service, are left out.
-/

namespace AdminPanel.Expiry

open Lib (Table Session)
open Access Panel Unlock

inductive Pass where
  | access
  | subscription
  deriving DecidableEq, Repr

/-- How the work of one policy service ends. `failsBefore`: the adapter cannot be
built, or the ban file cannot be read. `failsEnforcing`: the peer call or the write
of the ban file raises. -/
inductive ServiceOutcome where
  | succeeds
  | failsBefore
  | failsEnforcing
  deriving DecidableEq, Repr

/-- The services of a run, numbered in the order they are built. No clock reads less
than the time its pass started at. -/
structure WorkerEnv where
  startedAt : Pass → Time
  reading : Pass → Nat → Reading
  outcome : Nat → ServiceOutcome
  clock : ∀ pass n, startedAt pass ≤ (reading pass n).now

/-- A claimed row and how its reconcile ended. -/
structure Attempt where
  key : PolicyKey
  pass : Pass
  outcome : ServiceOutcome
  deriving DecidableEq, Repr

/-- The committed rows, the session, the number of services built, the claims. -/
structure WorkerState where
  policies : Table PolicyKey PolicyRow
  session : PolicySession
  services : Nat
  attempts : List Attempt

def workerActor : String := "access_expiry_worker"

/-- The row as the worker's claim leaves it. -/
def claimedRow (row : PolicyRow) : PolicyRow := { row with updatedBy := some workerActor }

namespace WorkerState

def commit (st : WorkerState) : WorkerState :=
  { st with policies := st.session.commitInto changedColumns st.policies, session := .empty }

def rollback (st : WorkerState) : WorkerState := { st with session := .empty }

def write (st : WorkerState) (key : PolicyKey) (row : PolicyRow) : WorkerState :=
  { st with session := st.session.write st.policies key row }

end WorkerState

/-! ## One row -/

/-- The deadline is past, and the row does not say so yet. -/
def dueBy (row : PolicyRow) (cutoff : Time) : Bool :=
  policyAccessExpired row cutoff && decide (row.blockReason ≠ some .accessExpired)

/-- The conditional `UPDATE`; `none` when it matches no row. -/
def WorkerState.claim (st : WorkerState) (key : PolicyKey) (cutoff : Time) : Option WorkerState :=
  match st.policies.row? key with
  | none => none
  | some row =>
    if dueBy row cutoff then
      some { st with
        policies := st.policies.set key (claimedRow row)
        session := st.session.sync key claimedRow }
    else none

/-- The end of `reconcile_wg` and `reconcile_awg2`: runtime call, then commit. -/
def WorkerState.endPeer (st : WorkerState) (outcome : ServiceOutcome) : WorkerState × Bool :=
  if outcome = .failsEnforcing then (st, true) else (st.commit, false)

/-- `_reconcile_access_until` with its policy service: the state, and whether it
raised. -/
def WorkerState.reconcile (env : WorkerEnv) (pass : Pass) (st : WorkerState) (key : PolicyKey) :
    WorkerState × Bool :=
  let r := env.reading pass st.services
  let outcome := env.outcome st.services
  let st := { st with
    services := st.services + 1
    attempts := st.attempts ++ [⟨key, pass, outcome⟩] }
  if outcome = .failsBefore then (st, true)
  else
    match st.session.view st.policies key with
    | none => (st, decide (outcome = .failsEnforcing))
    | some row =>
      match key.protocol with
      | .openvpn =>
        let result := reconcileOpenvpn row r false
        let st := st.write key result.1
        (if result.2 then st.commit else st, decide (outcome = .failsEnforcing))
      | .wireguard => (st.write key (reconcileWg row r true true false).1).endPeer outcome
      | .amneziawg2 => (st.write key (reconcileAwg2 row r true true false).1).endPeer outcome

/-- `set_access_until` of the worker: claim, commit, reconcile. -/
def claimAndReconcile (env : WorkerEnv) (nodes : List Nat) (pass : Pass) (cutoff : Time)
    (st : WorkerState) (key : PolicyKey) : WorkerState × Bool :=
  if key.nodeId ∈ nodes then
    match st.claim key cutoff with
    | none => (st, false)
    | some st => st.commit.reconcile env pass key
  else (st, true)

/-! ## The two passes -/

/-- `_normalized_client_name` -/
def normalizedKey (key : PolicyKey) : PolicyKey :=
  { key with clientName := policyClientName key.protocol key.clientName }

/-- `due_targets`, protocol by protocol. -/
def dueTargets (policies : Table PolicyKey PolicyRow) (now : Time) : List PolicyKey :=
  policyProtocols.flatMap fun p =>
    policies.keys.filter fun k =>
      k.protocol = p && (policies.row? k).any fun row => dueBy row now

/-- An exception is logged; the session is not rolled back. -/
def applyDueAccessBlocks (env : WorkerEnv) (nodes : List Nat) (st : WorkerState) : WorkerState :=
  (dueTargets st.policies (env.startedAt .access)).foldl
    (fun st key =>
      (claimAndReconcile env nodes .access (env.startedAt .access) st (normalizedKey key)).1)
    st.commit

/-- What the cascade does with a config, given what a query for its policy row sees:
the row's key and whether its deadline is missing. A row under an administrator's ban
is left out. -/
def cascadeTarget (view : PolicyKey → Option PolicyRow) (config : VpnConfig) :
    Option (PolicyKey × Bool) :=
  config.vpnType.protocol?.bind fun protocol =>
    let row := view (configKey config protocol)
    if isManualAdminBlock row then none
    else some (configKey config protocol, (accessUntilOf row).isNone)

def cascadeTargets (db : Db) (userId : Nat) (st : WorkerState) : List (PolicyKey × Bool) :=
  (ownedConfigs db userId).filterMap (cascadeTarget (st.session.view st.policies))

/-- Write the missing deadlines, uncommitted. A policy service is built for each. -/
def seedMissing (env : WorkerEnv) (nodes : List Nat) (accessUntil : Time) :
    List PolicyKey → WorkerState → WorkerState × Bool
  | [], st => (st, false)
  | key :: keys, st =>
    if key.nodeId ∈ nodes then
      let seeded := { st with
        session := setAccessUntil st.session st.policies key (some accessUntil) workerActor
        services := st.services + 1 }
      if env.outcome st.services = .failsBefore then (seeded, true)
      else seedMissing env nodes accessUntil keys seeded
    else (st, true)

def claimAll (env : WorkerEnv) (nodes : List Nat) (cutoff : Time) :
    List PolicyKey → WorkerState → WorkerState × Bool
  | [], st => (st, false)
  | key :: keys, st =>
    let result := claimAndReconcile env nodes .subscription cutoff st key
    if result.2 then result else claimAll env nodes cutoff keys result.1

def applyUserSubscriptionExpiry (env : WorkerEnv) (db : Db) (userId : Nat) (accessUntil : Time)
    (st : WorkerState) : WorkerState × Bool :=
  let queued := cascadeTargets db userId st
  let missing := (queued.filter (·.2)).map (·.1)
  let seeded := seedMissing env db.nodes accessUntil missing st
  if seeded.2 then seeded
  else claimAll env db.nodes accessUntil (queued.map (·.1)) seeded.1.commit

/-- The loop body of the second pass. -/
def expireUser (env : WorkerEnv) (db : Db) (st : WorkerState) (userId : Nat) : WorkerState :=
  match (db.users.row? userId).bind (·.accessUntil) with
  | none => st
  | some t =>
    if t ≤ env.startedAt .subscription then
      let result := applyUserSubscriptionExpiry env db userId t st
      if result.2 then result.1.rollback else result.1
    else st

def applyDueUserSubscriptionBlocks (env : WorkerEnv) (db : Db) (st : WorkerState) : WorkerState :=
  db.users.keys.foldl (expireUser env db) st.commit

/-- `_run_once`; what it has not committed at its end is lost with its session. -/
def runOnce (env : WorkerEnv) (db : Db) : WorkerState :=
  applyDueUserSubscriptionBlocks env db
    (applyDueAccessBlocks env db.nodes ⟨db.policies, .empty, 0, []⟩)

end AdminPanel.Expiry
