import AdminPanel.Access.Operations

/-!
# The AmneziaWG 3 access service

`app/services/awg3_access.py` and `_set_awg3_access_until` of `access_until.py`:
deadline, temporary and permanent blocks of AmneziaWG 3 clients, without traffic
limits. The service is written apart from `AccessPolicyService` and commits at
other places: a block is only flushed before its runtime call, so a call that
raises takes the block with it, while the AmneziaWG2 service commits the block
first.

* `Awg3Row`, `Awg3.stateOf`, `Awg3.reconcile` — the row and its state machine;
* `Attempt` — an operation around its runtime call: what is committed if the
  call raises, and what is if it does not;
* `BanColumns` — the columns that decide a block, with the reconcile that both
  services refine (`awg3_reconcile_ban`, `reconcilePeer_ban`).
-/

namespace AdminPanel.Access

/-- A row of `amneziawg3_access_policies`. -/
structure Awg3Row where
  accessUntil : Option Time := none
  isTempBlocked : Bool := false
  isPermanentBlocked : Bool := false
  blockReason : Option BlockReason := none
  blockStartedAt : Option Time := none
  blockDays : Option Int := none
  blockUntil : Option Time := none
  updatedBy : Option String := none
  deriving DecidableEq, Repr

namespace Awg3

structure State where
  isBlocked : Bool
  blockMode : BlockMode
  accessExpired : Bool
  accessUntil : Option Time
  blockedDaysLeft : Option Int
  blockDurationDays : Option Int
  blockUntil : Option Time
  deriving DecidableEq, Repr

section

variable (row : Awg3Row) (now : Time)

def accessExpired : Bool :=
  match row.accessUntil with
  | some t => decide (t ≤ now)
  | none => false

def tempActive : Bool :=
  row.isTempBlocked &&
    match row.blockUntil with
    | some t => decide (now < t)
    | none => false

def stateOf : State where
  isBlocked := accessExpired row now || tempActive row now || row.isPermanentBlocked
  blockMode :=
    if row.isPermanentBlocked then .permanent
    else if accessExpired row now then .accessExpired
    else if tempActive row now then .temp
    else .none
  accessExpired := accessExpired row now
  accessUntil := row.accessUntil
  blockedDaysLeft :=
    if tempActive row now then row.blockUntil.map fun t => (t - now) / timedeltaDays 1 else none
  blockDurationDays := row.blockDays
  blockUntil := row.blockUntil

def targetReason (state : State) : Option BlockReason :=
  match state.blockMode with
  | .accessExpired => some .accessExpired
  | .permanent => some .manualPermanent
  | .temp => some .manualTemp
  | _ => none

def tempBlockLapsed : Bool :=
  row.isTempBlocked &&
    match row.blockUntil with
    | some t => decide (t ≤ now)
    | none => false

/-- The first branch of `reconcile`: a lapsed temporary block is cleaned up. -/
def cleanupTempBlock : Awg3Row :=
  if tempBlockLapsed row now then
    { row with
      isTempBlocked := false
      blockUntil := none
      blockDays := none
      blockStartedAt := none
      blockReason := if row.blockReason = some .manualTemp then none else row.blockReason }
  else row

/-- The second branch of `reconcile`: the reason leaves with the past deadline. -/
def dropExpiredReason : Awg3Row :=
  if !(stateOf row now).accessExpired && row.blockReason = some .accessExpired then
    { row with blockReason := none }
  else row

/-- `reconcile` on an existing row: the row it leaves and the runtime call it makes
before the commit (`apply(node, client, is_blocked)`). -/
def reconcile (forceRuntime : Bool) : Awg3Row × Option Bool :=
  let beforeBlocked := (stateOf row now).isBlocked
  let beforeReason := row.blockReason
  let current := dropExpiredReason (cleanupTempBlock row now) now
  let state := stateOf current now
  let reason := targetReason state
  ({ current with blockReason := reason },
    if forceRuntime || beforeBlocked != state.isBlocked || beforeReason != reason then
      some state.isBlocked
    else none)

end

end Awg3

/-! ## Operations around their runtime call -/

/-- An operation around its runtime call. -/
structure Attempt (ρ : Type) where
  /-- what is committed when the call raises -/
  before : ρ
  call : Option Bool
  after : ρ

/-- A policy row of a client and whether its peer is live on the node. -/
structure Client (ρ : Type) where
  row : ρ
  live : Bool

def Attempt.raised {ρ : Type} (a : Attempt ρ) (raises : Bool) : Bool := a.call.isSome && raises

/-- What an attempt leaves; a call that raises does not move the peer. -/
def Attempt.run {ρ : Type} (a : Attempt ρ) (raises : Bool) (live : Bool) : Client ρ :=
  match a.call with
  | none => ⟨a.after, live⟩
  | some isBlocked => if raises then ⟨a.before, live⟩ else ⟨a.after, !isBlocked⟩

/-- The operations that both services have. -/
inductive BlockOp where
  | tempBlock (days : Int)
  | permanentBlock
  | unblock
  | setAccessUntil (accessUntil : Option Time)
  | reconcile
  deriving DecidableEq, Repr

def BlockOp.toPolicyOp : BlockOp → PolicyOp
  | .tempBlock days => .tempBlock days
  | .permanentBlock => .permanentBlock
  | .unblock => .unblock
  | .setAccessUntil t => .setAccessUntil t
  | .reconcile => .reconcile

namespace Awg3

/-- The columns `set_temp_block` writes. -/
def tempBlockColumns (row : Awg3Row) (days : Int) (actor : Option String) (now : Time) : Awg3Row :=
  { row with
    isTempBlocked := true
    isPermanentBlocked := false
    blockStartedAt := some now
    blockDays := some days
    blockUntil := some (now + timedeltaDays days)
    blockReason := some .manualTemp
    updatedBy := actor }

/-- The columns `set_permanent_block` writes. -/
def permanentBlockColumns (row : Awg3Row) (actor : Option String) : Awg3Row :=
  { row with
    isPermanentBlocked := true
    isTempBlocked := false
    blockUntil := none
    blockDays := none
    blockStartedAt := none
    blockReason := some .manualPermanent
    updatedBy := actor }

/-- The columns `unblock` writes. -/
def unblockColumns (row : Awg3Row) (actor : Option String) : Awg3Row :=
  { row with
    isPermanentBlocked := false
    isTempBlocked := false
    blockUntil := none
    blockDays := none
    blockStartedAt := none
    blockReason := none
    updatedBy := actor }

/-- Flush and reconcile: nothing is committed before the runtime call. -/
def flushed (row entered : Awg3Row) (now : Time) : Attempt Awg3Row :=
  let result := reconcile entered now true
  ⟨row, result.2, result.1⟩

/-- The service as a function of an operation. `_set_awg3_access_until` commits the
deadline before it reconciles and records `api`, whoever the actor is. -/
def op (o : BlockOp) (actor : Option String) (now : Time) (row : Awg3Row) : Attempt Awg3Row :=
  match o with
  | .tempBlock days => flushed row (tempBlockColumns row days actor now) now
  | .permanentBlock => flushed row (permanentBlockColumns row actor) now
  | .unblock => flushed row (unblockColumns row actor) now
  | .setAccessUntil t =>
    let entered := { row with accessUntil := t, updatedBy := some "api" }
    let result := reconcile entered now true
    ⟨entered, result.2, result.1⟩
  | .reconcile =>
    let result := reconcile row now false
    ⟨row, result.2, result.1⟩

end Awg3

/-- The AmneziaWG2 service around its runtime call: the columns of an operation are
committed first, what `reconcile_awg2` changes only after the call. -/
def awg2Attempt (o : BlockOp) (actor : Option String) (r : Reading) (row : PolicyRow) :
    Except PolicyError (Attempt PolicyRow) := do
  let entered ← enter o.toPolicyOp actor r row
  let result ← awg2Op o.toPolicyOp actor r row
  return ⟨entered.row, result.2.map (·.isBlocked), result.1⟩

/-! ## The ban that both services keep -/

/-- The columns that decide a block. -/
@[ext] structure BanColumns where
  accessUntil : Option Time
  isTempBlocked : Bool
  isPermanentBlocked : Bool
  blockUntil : Option Time
  blockReason : Option BlockReason
  deriving DecidableEq, Repr

def PolicyRow.ban (row : PolicyRow) : BanColumns :=
  ⟨row.accessUntil, row.isTempBlocked, row.isPermanentBlocked, row.blockUntil, row.blockReason⟩

def Awg3Row.ban (row : Awg3Row) : BanColumns :=
  ⟨row.accessUntil, row.isTempBlocked, row.isPermanentBlocked, row.blockUntil, row.blockReason⟩

namespace BanColumns

section

variable (b : BanColumns) (now : Time)

def expired : Bool :=
  match b.accessUntil with
  | some t => decide (t ≤ now)
  | none => false

def tempActive : Bool :=
  b.isTempBlocked &&
    match b.blockUntil with
    | some t => decide (now < t)
    | none => false

def lapsed : Bool :=
  b.isTempBlocked &&
    match b.blockUntil with
    | some t => decide (t ≤ now)
    | none => false

def mode : BlockMode :=
  if b.isPermanentBlocked then .permanent
  else if b.expired now then .accessExpired
  else if b.tempActive now then .temp
  else .none

/-- The reason the ban calls for. -/
def reason : Option BlockReason := (b.mode now).targetReason

def blocked : Bool := (b.reason now).isSome

/-- What a reconcile makes of the ban. -/
def reconciled : BanColumns :=
  { b with
    isTempBlocked := b.isTempBlocked && !b.lapsed now
    blockUntil := if b.lapsed now then none else b.blockUntil
    blockReason := b.reason now }

/-- The runtime call of a reconcile. -/
def call (force : Bool) : Option Bool :=
  if force || b.blockReason != b.reason now then some (b.blocked now) else none

theorem lapsed_not_active {b : BanColumns} {now : Time} (h : b.lapsed now = true) :
    b.tempActive now = false := by
  simp only [lapsed, Bool.and_eq_true] at h
  cases hUntil : b.blockUntil with
  | none => simp [hUntil] at h
  | some t =>
    simp only [hUntil, decide_eq_true_eq] at h
    have hNot : ¬ now < t := Int.not_lt.mpr h.2
    simp [tempActive, hUntil, hNot]

/-- A lapsed temporary block does not count. -/
theorem reason_reconciled : (b.reconciled now).reason now = b.reason now := by
  have hMode : (b.reconciled now).mode now = b.mode now := by
    unfold reconciled
    cases hLapsed : b.lapsed now with
    | false => simp [mode, expired, tempActive]
    | true =>
      have hActive := lapsed_not_active hLapsed
      unfold mode
      rw [hActive]
      simp [expired, tempActive]
  rw [reason, hMode, reason]

theorem blocked_eq :
    b.blocked now = (b.expired now || b.tempActive now || b.isPermanentBlocked) := by
  unfold blocked reason mode
  cases b.isPermanentBlocked <;> cases b.expired now <;> cases b.tempActive now <;> rfl

end

end BanColumns

/-! ## AmneziaWG 3 refines the ban -/

theorem awg3_stateOf_isBlocked (row : Awg3Row) (now : Time) :
    (Awg3.stateOf row now).isBlocked = row.ban.blocked now := by
  rw [BanColumns.blocked_eq]
  rfl

theorem awg3_targetReason (row : Awg3Row) (now : Time) :
    Awg3.targetReason (Awg3.stateOf row now) = row.ban.reason now := by
  unfold Awg3.targetReason Awg3.stateOf BanColumns.reason BanColumns.mode
  have hExp : Awg3.accessExpired row now = row.ban.expired now := rfl
  have hTemp : Awg3.tempActive row now = row.ban.tempActive now := rfl
  have hPerm : row.isPermanentBlocked = row.ban.isPermanentBlocked := rfl
  rw [hExp, hTemp, hPerm]
  cases row.ban.isPermanentBlocked <;> cases row.ban.expired now <;>
    cases row.ban.tempActive now <;> rfl

/-- The ban with the lapsed temporary block cleaned up. -/
theorem awg3_cleanup_ban (row : Awg3Row) (now : Time) (reason : Option BlockReason) :
    ({ Awg3.cleanupTempBlock row now with blockReason := reason } : Awg3Row).ban =
      { row.ban.reconciled now with blockReason := reason } := by
  unfold Awg3.cleanupTempBlock BanColumns.reconciled
  split
  · next h =>
    have hLapsed : row.ban.lapsed now = true := h
    rw [hLapsed]
    simp [Awg3Row.ban]
  · next h =>
    have hLapsed : row.ban.lapsed now = false := Bool.eq_false_iff.mpr h
    rw [hLapsed]
    simp [Awg3Row.ban]

theorem awg3_dropExpiredReason_eq (row : Awg3Row) (now : Time) :
    ∃ reason, Awg3.dropExpiredReason row now = { row with blockReason := reason } := by
  unfold Awg3.dropExpiredReason
  split
  · exact ⟨none, rfl⟩
  · exact ⟨row.blockReason, rfl⟩

/-- **The AmneziaWG 3 reconcile refines the ban's.** -/
theorem awg3_reconcile_ban (row : Awg3Row) (now : Time) (force : Bool) :
    (Awg3.reconcile row now force).1.ban = row.ban.reconciled now ∧
      (Awg3.reconcile row now force).2 = row.ban.call now force := by
  obtain ⟨reason, hCurrent⟩ := awg3_dropExpiredReason_eq (Awg3.cleanupTempBlock row now) now
  have hReason : ({ Awg3.cleanupTempBlock row now with blockReason := reason } :
      Awg3Row).ban.reason now = row.ban.reason now := by
    rw [awg3_cleanup_ban]
    exact row.ban.reason_reconciled now
  unfold Awg3.reconcile
  simp only [hCurrent, awg3_targetReason, awg3_stateOf_isBlocked, BanColumns.blocked, hReason]
  constructor
  · exact awg3_cleanup_ban row now _
  · rw [bne_self_eq_false, Bool.or_false]
    rfl

/-! ## So does AmneziaWG 2 without a traffic limit -/

variable {row : PolicyRow}

theorem trafficExceeded_of_no_limit (h : row.trafficLimitBytes = none)
    (r : Reading) : trafficExceeded row r = false := by
  simp [trafficExceeded, trafficState, h, resolveTrafficLimitState]

theorem blockMode_ban (h : row.trafficLimitBytes = none) (r : Reading) :
    blockMode row r = row.ban.mode r.now := by
  unfold blockMode BanColumns.mode
  rw [trafficExceeded_of_no_limit h]
  rfl

theorem isBlocked_ban (h : row.trafficLimitBytes = none) (r : Reading) :
    isBlocked row r = row.ban.blocked r.now := by
  unfold isBlocked
  rw [trafficExceeded_of_no_limit h, Bool.or_false, BanColumns.blocked_eq]
  rfl

/-- **The AmneziaWG2 reconcile refines the ban's**, on a row without a limit. -/
theorem reconcilePeer_ban (h : row.trafficLimitBytes = none) (r : Reading) (force : Bool) :
    (reconcilePeer row r true force false).1.ban = row.ban.reconciled r.now ∧
      (reconcilePeer row r true force false).2.map (·.isBlocked) = row.ban.call r.now force := by
  have hReason : (reconciledPeer row r false).blockReason = row.ban.reason r.now := by
    rw [reconciledPeer_reason, blockMode_ban h]
    rfl
  have hBlocked : isBlocked (reconciledPeer row r false) r = row.ban.blocked r.now := by
    rw [isBlocked_reconciledPeer, isBlocked_ban h]
  constructor
  · rw [reconcilePeer_row]
    have hBan : (reconciledPeer row r false).ban =
        { (cleanupTempBlock row r.now).ban with
          blockReason := (reconciledPeer row r false).blockReason } := by
      simp only [reconciledPeer, limitChangeLifts, Bool.false_and, settle_false]
      rfl
    rw [hBan, hReason]
    unfold cleanupTempBlock BanColumns.reconciled
    split
    · next h =>
      have hLapsed : row.ban.lapsed r.now = true := h
      rw [hLapsed]
      simp [PolicyRow.ban]
    · next h =>
      have hLapsed : row.ban.lapsed r.now = false := Bool.eq_false_iff.mpr h
      rw [hLapsed]
      simp [PolicyRow.ban]
  · rw [reconcilePeer_call, hReason, hBlocked, isBlocked_ban h, bne_self_eq_false, Bool.false_or,
      Bool.true_and, Bool.or_comm]
    unfold BanColumns.call
    have hRow : row.ban.blockReason = row.blockReason := rfl
    rw [hRow]
    split <;> rfl

end AdminPanel.Access
