import Mathlib.Data.Int.Basic

/-!
# Access policies — rows, traffic limit and reported state

The data model of `app/services/access_policy.py`. Every protocol keeps one
policy row per client of a node. The three tables have the same columns, except
that the WireGuard table calls the deadline `expires_at`; `accessUntil` stands
for that column under either name (`_policy_access_until` reads both).

* `PolicyRow` — the columns of a policy row that the service reads or writes;
* `Reading` — what a call reads from outside the row: the clock and the
  client's traffic counter;
* `resolveTrafficLimitState` — `traffic_limit.resolve_traffic_limit_state`;
* `policyState` — the common body of `_ovpn_state`, `_wg_state`, `_awg2_state`.

Times are UTC instants in microseconds (naive datetimes of the database are
UTC, so `_as_utc` and `_to_db_datetime` are the identity here).
-/

namespace AdminPanel.Access

abbrev Time := Int

/-- `timedelta(days=n)` in microseconds. -/
def timedeltaDays (n : Int) : Time := n * 86400000000

theorem timedeltaDays_pos {n : Int} (h : 1 ≤ n) : 0 < timedeltaDays n := by
  show (0 : Int) < n * 86400000000
  omega

inductive Protocol where
  | openvpn
  | wireguard
  | amneziawg2
  deriving DecidableEq, Repr

/-- Every word the code stores in the column `block_reason`. The OpenVPN
service stores the block mode itself, which is where `temp` and `permanent`
come from. -/
inductive BlockReason where
  | manualTemp
  | manualPermanent
  | accessExpired
  | trafficLimit
  | temp
  | permanent
  deriving DecidableEq, Repr

/-- `block_mode` of a reported state. -/
inductive BlockMode where
  | permanent
  | accessExpired
  | temp
  | trafficLimit
  | none
  deriving DecidableEq, Repr

structure PolicyRow where
  accessUntil : Option Time := none
  isTempBlocked : Bool := false
  isPermanentBlocked : Bool := false
  blockReason : Option BlockReason := none
  blockStartedAt : Option Time := none
  blockDays : Option Int := none
  blockUntil : Option Time := none
  trafficLimitBytes : Option Int := none
  trafficLimitPeriodDays : Option Int := none
  updatedBy : Option String := none
  deriving DecidableEq, Repr

/-- The clock and the client's traffic counter (`_consumed_bytes`, which takes
the period of the limit) as one call sees them. -/
structure Reading where
  now : Time
  consumed : Option Int → Int

/-! ## Traffic limit -/

def trafficLimitPeriodDaysAllowed : List Int := [1, 7, 30]

structure TrafficState where
  trafficLimitBytes : Option Int
  trafficLimitPeriodDays : Option Int
  trafficConsumedBytes : Int
  trafficBytesLeft : Option Int
  trafficLimitExceeded : Bool
  deriving DecidableEq, Repr

def resolveTrafficLimitState (trafficLimitBytes trafficLimitPeriodDays : Option Int)
    (consumedBytes : Int) : TrafficState :=
  let consumed := max consumedBytes 0
  let periodDays := trafficLimitPeriodDays.filter (· ∈ trafficLimitPeriodDaysAllowed)
  match trafficLimitBytes with
  | none => ⟨none, none, consumed, none, false⟩
  | some limit =>
    if limit < 1 then ⟨none, none, consumed, none, false⟩
    else
      let exceeded := decide (limit ≤ consumed)
      ⟨some limit, periodDays, consumed,
        some (if exceeded then 0 else max (limit - consumed) 0), exceeded⟩

section

variable (row : PolicyRow) (r : Reading)

/-- The row branch of `_ovpn_traffic_state`, `_wg_traffic_state` and
`_awg2_traffic_state`; they differ in the protocol whose counter they read. -/
def trafficState : TrafficState :=
  resolveTrafficLimitState row.trafficLimitBytes row.trafficLimitPeriodDays
    (r.consumed row.trafficLimitPeriodDays)

/-- `traffic_state["traffic_limit_exceeded"]` -/
def trafficExceeded : Bool :=
  (trafficState row r).trafficLimitExceeded

/-! ## Reported state -/

def policyAccessExpired (now : Time) : Bool :=
  match row.accessUntil with
  | some t => decide (t ≤ now)
  | none => false

/-- `temp` of the state functions: an unlapsed temporary block. -/
def tempActive (now : Time) : Bool :=
  row.isTempBlocked &&
    match row.blockUntil with
    | some t => decide (now < t)
    | none => false

structure PolicyState where
  isBlocked : Bool
  blockMode : BlockMode
  accessExpired : Bool
  accessUntil : Option Time
  blockedDaysLeft : Option Int
  blockUntil : Option Time
  traffic : TrafficState
  deriving DecidableEq, Repr

/-- A permanent ban outranks an expired deadline, which outranks a temporary
block, which outranks an exceeded limit. -/
def blockMode : BlockMode :=
  if row.isPermanentBlocked then .permanent
  else if policyAccessExpired row r.now then .accessExpired
  else if tempActive row r.now then .temp
  else if trafficExceeded row r then .trafficLimit
  else .none

def isBlocked : Bool :=
  policyAccessExpired row r.now || tempActive row r.now || row.isPermanentBlocked ||
    trafficExceeded row r

def policyState : PolicyState where
  isBlocked := isBlocked row r
  blockMode := blockMode row r
  accessExpired := policyAccessExpired row r.now
  accessUntil := row.accessUntil
  blockedDaysLeft :=
    if tempActive row r.now then row.blockUntil.map fun t => (t - r.now) / timedeltaDays 1
    else none
  blockUntil := row.blockUntil
  traffic := trafficState row r

def ovpnState := policyState

def wgState := policyState

def awg2State := policyState

/-- A state is blocked exactly when its mode is not `none`. -/
theorem isBlocked_eq_mode : isBlocked row r = decide (blockMode row r ≠ .none) := by
  unfold isBlocked blockMode
  cases row.isPermanentBlocked <;> cases policyAccessExpired row r.now <;>
    cases tempActive row r.now <;> cases trafficExceeded row r <;> rfl

end

variable {row : PolicyRow}

theorem isBlocked_of_permanent (h : row.isPermanentBlocked = true)
    (r : Reading) : isBlocked row r = true := by
  simp [isBlocked, h]

theorem blockMode_of_permanent (h : row.isPermanentBlocked = true)
    (r : Reading) : blockMode row r = .permanent := by
  simp [blockMode, h]

theorem blockMode_of_expired {r : Reading}
    (hPerm : row.isPermanentBlocked = false) (hExp : policyAccessExpired row r.now = true) :
    blockMode row r = .accessExpired := by
  simp [blockMode, hPerm, hExp]

end AdminPanel.Access
