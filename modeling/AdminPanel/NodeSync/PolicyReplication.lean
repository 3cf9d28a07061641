import AdminPanel.NodeSync.PolicySync

/-!
# When a policy operation arrives on a replica

An operation that `replicate_policy_op` has applied on a replica forces its runtime
call, so the client's peers there follow the replica's own row; what can go wrong is
the row. The operations that copy start from the primary's row. The block operations
and the WireGuard expiry write their own columns and leave the others as the replica
had them. Every node counts its own traffic.

* `PeerReplicates` — when an operation of a WireGuard or AmneziaWG2 client arrives
  (`peer_replicates_iff`);
* `awg3_replicates_iff` — the same for AmneziaWG 3.
-/

namespace AdminPanel.NodeSync

open Lib (Table)
open Access
open Panel (VpnType)

/-! ## What a reconcile leaves of a row -/

/-- The columns that no block operation writes. -/
structure SameLimits (row row' : PolicyRow) : Prop where
  accessUntil : row.accessUntil = row'.accessUntil
  trafficLimitBytes : row.trafficLimitBytes = row'.trafficLimitBytes
  trafficLimitPeriodDays : row.trafficLimitPeriodDays = row'.trafficLimitPeriodDays

variable {row row' : PolicyRow}

theorem SameLimits.symm (h : SameLimits row row') : SameLimits row' row :=
  ⟨h.accessUntil.symm, h.trafficLimitBytes.symm, h.trafficLimitPeriodDays.symm⟩

variable {a b : PolicyRow}

theorem SameLimits.trans {c : PolicyRow} (h : SameLimits a b) (h' : SameLimits b c) :
    SameLimits a c :=
  ⟨h.accessUntil.trans h'.accessUntil, h.trafficLimitBytes.trans h'.trafficLimitBytes,
    h.trafficLimitPeriodDays.trans h'.trafficLimitPeriodDays⟩

theorem reconciledPeer_limits (row : PolicyRow) (r : Reading) (changed : Bool) :
    SameLimits (reconciledPeer row r changed) row :=
  let h := reconciledPeer_frame row r changed
  ⟨h.accessUntil, h.trafficLimitBytes, h.trafficLimitPeriodDays⟩

theorem reconciledPeer_unchanged_eq (row : PolicyRow) (r : Reading) :
    reconciledPeer row r false =
      { cleanupTempBlock row r.now with blockReason := (blockMode row r).targetReason } := by
  have hReason := reconciledPeer_reason row r
  simp only [reconciledPeer, limitChangeLifts, Bool.false_and, settle_false] at hReason ⊢
  rw [hReason]

theorem targetReason_inj {a b : BlockMode} (h : a.targetReason = b.targetReason) : a = b := by
  cases a <;> cases b <;> simp [BlockMode.targetReason] at h ⊢

variable {now : Time}

theorem cleanupTempBlock_of_not_lapsed
    (h : tempBlockLapsed row now = false) : cleanupTempBlock row now = row := by
  simp [cleanupTempBlock, h]

theorem tempBlockLapsed_cleanup (row : PolicyRow) (now : Time) :
    tempBlockLapsed (cleanupTempBlock row now) now = false := by
  unfold cleanupTempBlock
  split
  · simp [tempBlockLapsed]
  · next h => exact Bool.eq_false_iff.mpr h

/-- Nothing is left to clean up after a reconcile. -/
theorem tempBlockLapsed_reconciledPeer (row : PolicyRow) (r : Reading) (changed : Bool) :
    tempBlockLapsed (reconciledPeer row r changed) r.now = false :=
  tempBlockLapsed_cleanup row r.now

variable {r : Reading}

/-- A reconcile of a row without a lapsed temporary block keeps it exactly when it
lifts no permanent flag and the stored reason is the one the state calls for. -/
theorem reconciledPeer_eq_self_iff {changed : Bool} (h : tempBlockLapsed row r.now = false) :
    reconciledPeer row r changed = row ↔
      (row.isPermanentBlocked && limitChangeLifts row r changed) = false ∧
        (blockMode row r).targetReason = row.blockReason := by
  unfold reconciledPeer
  simp only [cleanupTempBlock_of_not_lapsed h]
  cases hLift : row.isPermanentBlocked && limitChangeLifts row r changed with
  | true =>
    simp only [Bool.and_eq_true] at hLift
    constructor
    · intro hEq
      have hPerm := congrArg PolicyRow.isPermanentBlocked hEq
      simp [settle, hLift.1, hLift.2] at hPerm
    · simp
  | false =>
    have hSame : ∀ reason, settle row (limitChangeLifts row r changed) reason =
        { row with blockReason := reason } := by
      intro reason
      rw [← settle_false]
      unfold settle
      cases hPerm : row.isPermanentBlocked with
      | false => simp
      | true =>
        rw [hPerm, Bool.true_and] at hLift
        simp [hLift]
    rw [hSame, hSame, ← settle_false row none, blockMode_settle_false]
    constructor
    · exact fun hEq => ⟨rfl, congrArg PolicyRow.blockReason hEq⟩
    · rintro ⟨-, hReason⟩
      rw [hReason]

/-! ## One operation on a WireGuard or AmneziaWG2 row -/

/-- The row as an operation commits it first, and the reconcile that follows. -/
def enterSync (vpnType : VpnType) (op : SyncOp) (actor : Option String) (r : Reading)
    (row : PolicyRow) : Except SyncError Entered :=
  match vpnType, op with
  | .wireguard, .setWgExpiry days extend =>
    .ok ⟨accessUntilColumns row (some (wgExpiryFrom row.accessUntil days extend r.now)) actor,
      true, false⟩
  | _, op =>
    match op.toPolicyOp? with
    | none => .error .unsupported
    | some o => (enter o actor r row).mapError .policy

/-- The runtime call of an operation is always forced. -/
theorem peerSyncOp_eq (vpnType : VpnType) (op : SyncOp) (actor : Option String) (r : Reading)
    (row : PolicyRow) :
    peerSyncOp vpnType op actor r row =
      (enterSync vpnType op actor r row).map (·.peerResult r true) := by
  have hOp : ∀ o : PolicyOp, o.forcesRuntime = true →
      (if vpnType = .wireguard then wgOp o actor r row else awg2Op o actor r row).mapError
          SyncError.policy =
        ((enter o actor r row).mapError SyncError.policy).map (·.peerResult r true) := by
    intro o hForce
    rw [awg2Op_eq_wgOp, ite_self, wgOp_eq, hForce]
    cases enter o actor r row <;> rfl
  cases vpnType <;> cases op <;> first | rfl | exact hOp _ rfl

/-- Whose peers the forced call of an operation leaves live. -/
theorem peerResult_live (e : Entered) (r : Reading) :
    (e.peerResult r true).2.map (·.isBlocked) =
      some (e.reconciles && isBlocked (e.peer r) r) := by
  unfold Entered.peerResult Entered.peer
  cases e.reconciles with
  | false => rfl
  | true => simp [reconcilePeer_call]

/-! ## When an operation arrives -/

def SyncOp.changesLimit : SyncOp → Bool
  | .setTrafficLimit _ _ => true
  | .clearTrafficLimit => true
  | _ => false

/-- The columns that the operation neither writes nor copies are the primary's. -/
def KeptColumnsAgree (op : SyncOp) (primaryRow replicaRow : PolicyRow) (now : Time) : Prop :=
  match op with
  | .blockTemp _ => SameLimits replicaRow primaryRow
  | .blockPermanent => SameLimits replicaRow primaryRow
  | .unblock => SameLimits replicaRow primaryRow
  | .setWgExpiry days extend =>
    primaryRow.accessUntil = some (wgExpiryFrom replicaRow.accessUntil days extend now) ∧
      { cleanupTempBlock replicaRow now with
        accessUntil := primaryRow.accessUntil
        blockReason := primaryRow.blockReason
        updatedBy := primaryRow.updatedBy } = primaryRow
  | .setTrafficLimit _ _ => True
  | .clearTrafficLimit => True
  | .setAccessUntil _ => True

/-- When an operation of a WireGuard or AmneziaWG2 client arrives: of the primary's row
after it, the replica's row before it and the two readings. -/
structure PeerReplicates (op : SyncOp) (primaryRow replicaRow : PolicyRow)
    (primary replica : Reading) : Prop where
  columns : KeptColumnsAgree op primaryRow replicaRow replica.now
  /-- the traffic counters of the two nodes make no difference -/
  mode : blockMode primaryRow replica = blockMode primaryRow primary
  /-- a permanent flag that the primary kept under its counter is not lifted here -/
  flag : op.changesLimit = true →
    (primaryRow.isPermanentBlocked && limitChangeLifts primaryRow replica true) = false
  /-- an unblock under a past deadline lets the client in until the next expiry tick -/
  deadline : op = .unblock → policyAccessExpired primaryRow replica.now = false

/-- The row and the peers of the replica are what the primary's row calls for. -/
def PeerArrives (e : Entered) (primaryRow : PolicyRow) (primary replica : Reading) : Prop :=
  e.peer replica = primaryRow ∧
    (e.reconciles && isBlocked (e.peer replica) replica) = isBlocked primaryRow primary

theorem isBlocked_congr_mode {r' : Reading}
    (h : blockMode row r = blockMode row' r') : isBlocked row r = isBlocked row' r' := by
  rw [isBlocked_eq_mode, isBlocked_eq_mode, h]

variable {x : PolicyRow} {primary replica : Reading}

/-- Without a limit change a reconcile arrives exactly when the cleaned row is the
primary's outside the reason and the counters make no difference. -/
theorem peerArrives_reconciled_iff {y : PolicyRow} :
    PeerArrives ⟨y, true, false⟩ (reconciledPeer x primary false) primary replica ↔
      { cleanupTempBlock y replica.now with
        blockReason := (reconciledPeer x primary false).blockReason } =
          reconciledPeer x primary false ∧
      blockMode (reconciledPeer x primary false) replica =
        blockMode (reconciledPeer x primary false) primary := by
  have hPeer : Entered.peer ⟨y, true, false⟩ replica =
      { cleanupTempBlock y replica.now with
        blockReason := (blockMode y replica).targetReason } :=
    reconciledPeer_unchanged_eq y replica
  have hReason : (reconciledPeer x primary false).blockReason =
      (blockMode (reconciledPeer x primary false) primary).targetReason := rfl
  have hMode : ∀ reason, blockMode
      { cleanupTempBlock y replica.now with blockReason := reason } replica =
        blockMode y replica := by
    intro reason
    rw [← settle_false, blockMode_settle_false, blockMode_cleanupTempBlock]
  unfold PeerArrives
  rw [hPeer, Bool.true_and]
  generalize reconciledPeer x primary false = row at hReason ⊢
  constructor
  · rintro ⟨hRow, -⟩
    have hModes : blockMode row replica = blockMode y replica := by
      rw [← hRow]
      exact hMode _
    constructor
    · rw [← hRow]
    · apply targetReason_inj
      rw [← hReason, hModes, ← hRow]
  · rintro ⟨hRow, hSame⟩
    have hModes : blockMode y replica = blockMode row primary := by
      rw [← hMode row.blockReason, hRow, hSame]
    rw [hModes, ← hReason, hRow]
    exact ⟨rfl, isBlocked_congr_mode hSame⟩

/-- An operation that writes every column outside the limits arrives exactly when the
limits agree. -/
theorem peerArrives_block_iff (columns : PolicyRow → PolicyRow) (hNow : primary.now = replica.now)
    (hKeeps : ∀ row, SameLimits (columns row) row)
    (hWrites : ∀ row row', SameLimits row row' → columns row = columns row') :
    PeerArrives ⟨columns b, true, false⟩ (reconciledPeer (columns a) primary false) primary
        replica ↔
      SameLimits b (reconciledPeer (columns a) primary false) ∧
      blockMode (reconciledPeer (columns a) primary false) replica =
        blockMode (reconciledPeer (columns a) primary false) primary := by
  have hPrimary : SameLimits (reconciledPeer (columns a) primary false) a :=
    (reconciledPeer_limits _ _ _).trans (hKeeps a)
  rw [peerArrives_reconciled_iff]
  refine and_congr_left fun _ => ⟨fun hRow => ?_, fun hLimits => ?_⟩
  · have hFrame := cleanupTempBlock_frame (columns b) replica.now
    refine (hKeeps b).symm.trans ⟨?_, ?_, ?_⟩
    · rw [← hRow]
      exact hFrame.accessUntil.symm
    · rw [← hRow]
      exact hFrame.trafficLimitBytes.symm
    · rw [← hRow]
      exact hFrame.trafficLimitPeriodDays.symm
  · rw [hWrites b a (hLimits.trans hPrimary), ← hNow, reconciledPeer_unchanged_eq]

/-- A copied row arrives exactly when the reconcile on the replica lifts no flag and the
counters make no difference. -/
theorem peerArrives_copied_iff {changed : Bool} (hNow : primary.now = replica.now) :
    PeerArrives ⟨reconciledPeer x primary changed, true, changed⟩
        (reconciledPeer x primary changed) primary replica ↔
      ((reconciledPeer x primary changed).isPermanentBlocked &&
        limitChangeLifts (reconciledPeer x primary changed) replica changed) = false ∧
      blockMode (reconciledPeer x primary changed) replica =
        blockMode (reconciledPeer x primary changed) primary := by
  have hReason : (reconciledPeer x primary changed).blockReason =
      (blockMode (reconciledPeer x primary changed) primary).targetReason := rfl
  have hClean : tempBlockLapsed (reconciledPeer x primary changed) replica.now = false :=
    hNow ▸ tempBlockLapsed_reconciledPeer x primary changed
  have hPeer : Entered.peer ⟨reconciledPeer x primary changed, true, changed⟩ replica =
      reconciledPeer (reconciledPeer x primary changed) replica changed := rfl
  unfold PeerArrives
  rw [hPeer, Bool.true_and, reconciledPeer_eq_self_iff hClean, hReason]
  constructor
  · rintro ⟨⟨hLift, hTarget⟩, -⟩
    exact ⟨hLift, targetReason_inj hTarget⟩
  · rintro ⟨hLift, hMode⟩
    have hSelf : reconciledPeer (reconciledPeer x primary changed) replica changed = _ :=
      (reconciledPeer_eq_self_iff hClean).mpr
        ⟨hLift, hReason ▸ congrArg BlockMode.targetReason hMode⟩
    rw [hSelf]
    exact ⟨⟨hLift, congrArg BlockMode.targetReason hMode⟩, isBlocked_congr_mode hMode⟩

/-- What a block or an unblock enters, on either node. -/
theorem enterSync_blockTemp (vpnType : VpnType) (days : Int) (actor : Option String)
    (r : Reading) (row : PolicyRow) :
    enterSync vpnType (.blockTemp days) actor r row =
      .ok ⟨tempBlockColumns row days actor r.now, true, false⟩ := by
  cases vpnType <;> rfl

theorem enterSync_blockPermanent (vpnType : VpnType) (actor : Option String) (r : Reading)
    (row : PolicyRow) :
    enterSync vpnType .blockPermanent actor r row =
      .ok ⟨permanentBlockColumns row actor r.now, true, false⟩ := by
  cases vpnType <;> rfl

theorem enterSync_unblock (vpnType : VpnType) (actor : Option String) (r : Reading)
    (row : PolicyRow) :
    enterSync vpnType .unblock actor r row =
      if trafficExceeded row r then .error (.policy .trafficLimitExceeded)
      else .ok ⟨unblockColumns row actor, !policyAccessExpired row r.now, false⟩ := by
  cases vpnType <;> simp only [enterSync, SyncOp.toPolicyOp?, enter] <;> split <;> rfl

theorem enterSync_setAccessUntil (vpnType : VpnType) (t : Option Time) (actor : Option String)
    (r : Reading) (row : PolicyRow) :
    enterSync vpnType (.setAccessUntil t) actor r row =
      .ok ⟨accessUntilColumns row t actor, true, false⟩ := by
  cases vpnType <;> rfl

theorem enterSync_clearTrafficLimit (vpnType : VpnType) (actor : Option String) (r : Reading)
    (row : PolicyRow) :
    enterSync vpnType .clearTrafficLimit actor r row =
      .ok ⟨clearTrafficLimitColumns row actor, true, true⟩ := by
  cases vpnType <;> rfl

variable {vpnType : VpnType} {actor : Option String} {e : Entered}

/-- A limit that is set writes its columns, on every row the same. -/
theorem enterSync_setTrafficLimit {limitBytes : Int} {periodDays : Option Int}
    (h : enterSync vpnType (.setTrafficLimit limitBytes periodDays) actor r row = .ok e) :
    ∀ row' r', enterSync vpnType (.setTrafficLimit limitBytes periodDays) actor r' row' =
      .ok ⟨{ row' with
        trafficLimitBytes := some limitBytes
        trafficLimitPeriodDays := periodDays
        updatedBy := actor }, true, true⟩ := by
  intro row' r'
  have hEnter : ∀ (r : Reading) (row : PolicyRow),
      enterSync vpnType (.setTrafficLimit limitBytes periodDays) actor r row =
        (enter (.setTrafficLimit limitBytes periodDays) actor r row).mapError .policy := by
    intro r row
    cases vpnType <;> rfl
  rw [hEnter] at h ⊢
  simp only [enter, setTrafficLimitColumns] at h ⊢
  by_cases hSmall : limitBytes < 1
  · simp [hSmall, Except.map, Except.mapError] at h
  rw [if_neg hSmall] at h ⊢
  cases periodDays with
  | none => rfl
  | some days =>
    by_cases hDays : days ∉ trafficLimitPeriodDaysAllowed
    · simp [hDays, Except.map, Except.mapError] at h
    · simp only [hDays, if_false]
      rfl

theorem policyAccessExpired_congr (h : SameLimits row row') (now : Time) :
    policyAccessExpired row now = policyAccessExpired row' now := by
  unfold policyAccessExpired
  rw [h.accessUntil]

theorem enterSync_unblock_ok (h : enterSync vpnType .unblock actor r row = .ok e) :
    e = ⟨unblockColumns row actor, !policyAccessExpired row r.now, false⟩ := by
  rw [enterSync_unblock] at h
  split at h
  · simp at h
  · exact (Except.ok.inj h).symm

theorem unblockColumns_limits (row : PolicyRow) (actor : Option String) :
    SameLimits (unblockColumns row actor) row := ⟨rfl, rfl, rfl⟩

theorem unblock_peer_limits (row : PolicyRow) (actor : Option String) (r : Reading)
    (reconciles : Bool) :
    SameLimits (Entered.peer ⟨unblockColumns row actor, reconciles, false⟩ r) row := by
  cases reconciles with
  | true => exact (reconciledPeer_limits _ _ _).trans (unblockColumns_limits row actor)
  | false => exact unblockColumns_limits row actor

variable {e' : Entered}

/-- An unblock: under a past deadline the client is let in against its policy, and
otherwise neither counter blocks it. -/
theorem unblock_replicates_iff (hNow : primary.now = replica.now)
    (hPrimary : enterSync vpnType .unblock actor primary a = .ok e)
    (hReplica : enterSync vpnType .unblock actor replica b = .ok e') :
    PeerArrives e' (e.peer primary) primary replica ↔
      PeerReplicates .unblock (e.peer primary) b primary replica := by
  obtain rfl := enterSync_unblock_ok hPrimary
  obtain rfl := enterSync_unblock_ok hReplica
  -- the deadline of the two rows decides, and it is the same if the rows agree
  have hSame : ∀ {row : PolicyRow}, SameLimits b row → SameLimits row a →
      policyAccessExpired b replica.now = policyAccessExpired a primary.now := by
    intro row hB hA
    rw [policyAccessExpired_congr (hB.trans hA), hNow]
  have hArrived : PeerArrives ⟨unblockColumns b actor, !policyAccessExpired b replica.now, false⟩
      (Entered.peer ⟨unblockColumns a actor, !policyAccessExpired a primary.now, false⟩ primary)
      primary replica →
      policyAccessExpired b replica.now = policyAccessExpired a primary.now := by
    intro h
    exact hSame (h.1 ▸ (unblock_peer_limits b actor replica _).symm)
      (unblock_peer_limits a actor primary _)
  cases hA : policyAccessExpired a primary.now with
  | true =>
    rw [hA] at hArrived
    constructor
    · intro h
      have hBlocked := h.2
      rw [hArrived h] at hBlocked
      have hExpired : policyAccessExpired (unblockColumns a actor) primary.now = true := hA
      have hTrue : isBlocked (unblockColumns a actor) primary = true := by
        simp [isBlocked, hExpired]
      exact absurd (hBlocked.trans hTrue) (by simp)
    · intro h
      have hOpen := h.deadline rfl
      rw [policyAccessExpired_congr (unblock_peer_limits a actor primary _), ← hNow, hA] at hOpen
      simp at hOpen
  | false =>
    rw [hA] at hArrived
    cases hB : policyAccessExpired b replica.now with
    | true =>
      rw [hB] at hArrived
      constructor
      · exact fun h => absurd (hArrived h) (by simp)
      · intro h
        have hEq := hSame h.columns (unblock_peer_limits a actor primary _)
        rw [hA, hB] at hEq
        simp at hEq
    | false =>
      have hBlock := peerArrives_block_iff (fun row => unblockColumns row actor) (a := a) (b := b)
        hNow (unblockColumns_limits · actor) fun row row' h => by
          simp [unblockColumns, h.accessUntil, h.trafficLimitBytes, h.trafficLimitPeriodDays]
      refine hBlock.trans ⟨fun h => ⟨h.1, h.2, by simp [SyncOp.changesLimit], fun _ => ?_⟩,
        fun h => ⟨h.columns, h.mode⟩⟩
      exact (policyAccessExpired_congr (unblock_peer_limits a actor primary true)
        replica.now).trans (hNow ▸ hA)

theorem limitColumns_self {limit period : Option Int}
    (hLimit : row.trafficLimitBytes = limit) (hPeriod : row.trafficLimitPeriodDays = period)
    (hActor : row.updatedBy = actor) :
    { row with
      trafficLimitBytes := limit
      trafficLimitPeriodDays := period
      updatedBy := actor } = row := by
  subst hLimit hPeriod hActor
  rfl

theorem accessUntilColumns_self {t : Option Time}
    (hUntil : row.accessUntil = t) (hActor : row.updatedBy = actor) :
    accessUntilColumns row t actor = row := by
  subst hUntil hActor
  rfl

/-- An operation that is copied arrives through the row the primary already has. -/
theorem copied_replicates_iff (op : SyncOp) (hNow : primary.now = replica.now)
    (hCopies : op.copies = true)
    (hEntered : e' = ⟨reconciledPeer x primary op.changesLimit, true, op.changesLimit⟩) :
    PeerArrives e' (reconciledPeer x primary op.changesLimit) primary replica ↔
      PeerReplicates op (reconciledPeer x primary op.changesLimit) b primary replica := by
  subst hEntered
  rw [peerArrives_copied_iff hNow]
  constructor
  · rintro ⟨hLift, hMode⟩
    refine ⟨?_, hMode, ?_, ?_⟩
    · cases op <;> simp [SyncOp.copies] at hCopies <;> trivial
    · intro hLimit
      rw [hLimit] at hLift ⊢
      exact hLift
    · rintro rfl
      simp [SyncOp.copies] at hCopies
  · intro h
    refine ⟨?_, h.mode⟩
    cases hLimit : op.changesLimit with
    | true =>
      have hFlag := h.flag hLimit
      rw [hLimit] at hFlag
      exact hFlag
    | false => simp [limitChangeLifts]

theorem cleanupTempBlock_accessUntilColumns (row : PolicyRow) (t : Option Time)
    (actor : Option String) (now : Time) :
    cleanupTempBlock (accessUntilColumns row t actor) now =
      accessUntilColumns (cleanupTempBlock row now) t actor := by
  have hLapsed : tempBlockLapsed (accessUntilColumns row t actor) now = tempBlockLapsed row now :=
    rfl
  unfold cleanupTempBlock
  rw [hLapsed]
  split <;> rfl

theorem deadlineColumns_iff {t : Option Time} (hActor : row.updatedBy = actor) :
    { cleanupTempBlock (accessUntilColumns b t actor) now with blockReason := row.blockReason } =
        row ↔
      row.accessUntil = t ∧
        { cleanupTempBlock b now with
          accessUntil := row.accessUntil
          blockReason := row.blockReason
          updatedBy := row.updatedBy } = row := by
  rw [cleanupTempBlock_accessUntilColumns]
  constructor
  · intro hRow
    have hUntil : t = row.accessUntil := congrArg PolicyRow.accessUntil hRow
    subst hUntil hActor
    exact ⟨rfl, hRow⟩
  · rintro ⟨hUntil, hRow⟩
    subst hUntil hActor
    exact hRow

variable {op : SyncOp}

/-- **When an operation of a WireGuard or AmneziaWG2 client arrives on a replica.** -/
theorem peer_replicates_iff (hNow : primary.now = replica.now)
    (hPrimary : enterSync vpnType op actor primary a = .ok e)
    (hReplica : enterSync vpnType op actor replica (if op.copies then e.peer primary else b) =
      .ok e') :
    PeerArrives e' (e.peer primary) primary replica ↔
      PeerReplicates op (e.peer primary) b primary replica := by
  -- off limits and unblocks only columns and block mode matter
  have hSplit : ∀ {row : PolicyRow}, op.changesLimit = false → op ≠ .unblock →
      (PeerReplicates op row b primary replica ↔
        KeptColumnsAgree op row b replica.now ∧
          blockMode row replica = blockMode row primary) := by
    intro row hLimit hUnblock
    exact ⟨fun h => ⟨h.columns, h.mode⟩, fun h => ⟨h.1, h.2, by simp [hLimit], by simp [hUnblock]⟩⟩
  cases op with
  | blockTemp days =>
    rw [enterSync_blockTemp] at hPrimary hReplica
    cases hPrimary
    cases hReplica
    rw [hSplit rfl (by simp), ← hNow]
    exact peerArrives_block_iff (fun row => tempBlockColumns row days actor primary.now) hNow
      (fun _ => ⟨rfl, rfl, rfl⟩) fun row row' h => by
        simp [tempBlockColumns, h.accessUntil, h.trafficLimitBytes, h.trafficLimitPeriodDays]
  | blockPermanent =>
    rw [enterSync_blockPermanent] at hPrimary hReplica
    cases hPrimary
    cases hReplica
    rw [hSplit rfl (by simp), ← hNow]
    exact peerArrives_block_iff (fun row => permanentBlockColumns row actor primary.now) hNow
      (fun _ => ⟨rfl, rfl, rfl⟩) fun row row' h => by
        simp [permanentBlockColumns, h.accessUntil, h.trafficLimitBytes, h.trafficLimitPeriodDays]
  | unblock => exact unblock_replicates_iff hNow hPrimary hReplica
  | setTrafficLimit limitBytes periodDays =>
    -- the columns are copied first, so entering them again changes nothing
    have hColumns := enterSync_setTrafficLimit hPrimary
    obtain rfl := Except.ok.inj ((hColumns a primary).symm.trans hPrimary)
    have hFrame := reconciledPeer_frame { a with
      trafficLimitBytes := some limitBytes
      trafficLimitPeriodDays := periodDays
      updatedBy := actor } primary true
    have hSelf := limitColumns_self hFrame.trafficLimitBytes hFrame.trafficLimitPeriodDays
      hFrame.updatedBy
    have hEntered := Except.ok.inj (hReplica.symm.trans (hColumns _ _))
    exact copied_replicates_iff (.setTrafficLimit limitBytes periodDays) hNow rfl
      (hEntered.trans (congrArg (Entered.mk · true true) hSelf))
  | clearTrafficLimit =>
    rw [enterSync_clearTrafficLimit] at hPrimary hReplica
    cases hPrimary
    have hFrame := reconciledPeer_frame (clearTrafficLimitColumns a actor) primary true
    have hSelf := limitColumns_self hFrame.trafficLimitBytes hFrame.trafficLimitPeriodDays
      hFrame.updatedBy
    exact copied_replicates_iff .clearTrafficLimit hNow rfl
      ((Except.ok.inj hReplica).symm.trans (congrArg (Entered.mk · true true) hSelf))
  | setAccessUntil t =>
    rw [enterSync_setAccessUntil] at hPrimary hReplica
    cases hPrimary
    have hFrame := reconciledPeer_frame (accessUntilColumns a t actor) primary false
    have hSelf := accessUntilColumns_self hFrame.accessUntil hFrame.updatedBy
    exact copied_replicates_iff (.setAccessUntil t) hNow rfl
      ((Except.ok.inj hReplica).symm.trans (congrArg (Entered.mk · true false) hSelf))
  | setWgExpiry days extend =>
    cases vpnType with
    | wireguard =>
      cases hPrimary
      cases hReplica
      -- a renewal counts from the deadline of each side's own row
      rw [hSplit rfl (by simp)]
      have hFrame := reconciledPeer_frame (accessUntilColumns a
        (some (wgExpiryFrom a.accessUntil days extend primary.now)) actor) primary false
      exact peerArrives_reconciled_iff.trans
        (and_congr_left fun _ => deadlineColumns_iff hFrame.updatedBy)
    | openvpn | amneziawg2 | amneziawg3 => simp [enterSync, SyncOp.toPolicyOp?] at hPrimary

/-! ## AmneziaWG 3 -/

theorem awg3_reconcile_row (row : Awg3Row) (now : Time) (force : Bool) :
    (Awg3.reconcile row now force).1 =
      { Awg3.cleanupTempBlock row now with blockReason := row.ban.reason now } := by
  obtain ⟨reason, hCurrent⟩ := awg3_dropExpiredReason_eq (Awg3.cleanupTempBlock row now) now
  have hReason := congrArg BanColumns.blockReason (awg3_reconcile_ban row now force).1
  have hRow : (Awg3.reconcile row now force).1 =
      { Awg3.cleanupTempBlock row now with
        blockReason := (Awg3.reconcile row now force).1.blockReason } := by
    simp only [Awg3.reconcile, hCurrent]
  rw [hRow]
  exact congrArg (fun reason => { Awg3.cleanupTempBlock row now with blockReason := reason })
    hReason

theorem awg3_reconcile_frame (row : Awg3Row) (now : Time) (force : Bool) :
    (Awg3.reconcile row now force).1.accessUntil = row.accessUntil ∧
      (Awg3.reconcile row now force).1.updatedBy = row.updatedBy := by
  rw [awg3_reconcile_row]
  unfold Awg3.cleanupTempBlock
  split <;> exact ⟨rfl, rfl⟩

/-- A reconcile leaves nothing for a second one. -/
theorem awg3_reconcile_reconcile (row : Awg3Row) (now : Time) (force force' : Bool) :
    (Awg3.reconcile (Awg3.reconcile row now force).1 now force').1 =
      (Awg3.reconcile row now force).1 := by
  have hReason : (Awg3.reconcile row now force).1.ban.reason now =
      (Awg3.reconcile row now force).1.blockReason := by
    rw [(awg3_reconcile_ban row now force).1, BanColumns.reason_reconciled, awg3_reconcile_row]
  have hClean : Awg3.tempBlockLapsed (Awg3.reconcile row now force).1 now = false := by
    rw [awg3_reconcile_row]
    show Awg3.tempBlockLapsed (Awg3.cleanupTempBlock row now) now = false
    unfold Awg3.cleanupTempBlock
    split
    · simp [Awg3.tempBlockLapsed]
    · next h => exact Bool.eq_false_iff.mpr h
  rw [awg3_reconcile_row (Awg3.reconcile row now force).1, hReason]
  simp [Awg3.cleanupTempBlock, hClean]

/-- The columns with which an operation enters its forced reconcile. -/
def awg3Columns (o : BlockOp) (actor : Option String) (now : Time) (row : Awg3Row) : Awg3Row :=
  match o with
  | .tempBlock days => Awg3.tempBlockColumns row days actor now
  | .permanentBlock => Awg3.permanentBlockColumns row actor
  | .unblock => Awg3.unblockColumns row actor
  | .setAccessUntil t => { row with accessUntil := t, updatedBy := some "api" }
  | .reconcile => row

/-- An operation that does not raise leaves the reconciled row and the peers it calls for. -/
theorem awg3_op_run {o : BlockOp} (h : op.toBlockOp? = some o)
    (actor : Option String) (now : Time) (row : Awg3Row) (live : Bool) :
    ((Awg3.op o actor now row).run false live).row =
        (Awg3.reconcile (awg3Columns o actor now row) now true).1 ∧
      ((Awg3.op o actor now row).run false live).live =
        !(Awg3.stateOf ((Awg3.op o actor now row).run false live).row now).isBlocked := by
  have hForced : ∀ before entered : Awg3Row,
      (Attempt.mk before (Awg3.reconcile entered now true).2
        (Awg3.reconcile entered now true).1).run false live =
      ⟨(Awg3.reconcile entered now true).1,
        !(Awg3.stateOf (Awg3.reconcile entered now true).1 now).isBlocked⟩ := by
    intro before entered
    have hBan := awg3_reconcile_ban entered now true
    have hBlocked : (Awg3.stateOf (Awg3.reconcile entered now true).1 now).isBlocked =
        entered.ban.blocked now := by
      rw [awg3_stateOf_isBlocked, hBan.1, BanColumns.blocked, BanColumns.reason_reconciled]
      rfl
    have hCall : (Awg3.reconcile entered now true).2 = some (entered.ban.blocked now) := hBan.2
    rw [hBlocked]
    simp only [Attempt.run, hCall]
    rfl
  have hRun : (Awg3.op o actor now row).run false live =
      ⟨(Awg3.reconcile (awg3Columns o actor now row) now true).1,
        !(Awg3.stateOf (Awg3.reconcile (awg3Columns o actor now row) now true).1
          now).isBlocked⟩ := by
    cases o with
    | reconcile => cases op <;> simp [SyncOp.toBlockOp?] at h
    | tempBlock days | permanentBlock | unblock | setAccessUntil t => exact hForced _ _
  rw [hRun]
  exact ⟨rfl, rfl⟩

/-- **When an operation of an AmneziaWG 3 client arrives on a replica**: the deadline is
all that a block operation leaves to the replica's own row. -/
theorem awg3_replicates_iff {o : BlockOp} (h : op.toBlockOp? = some o)
    {a p : Awg3Row} (b : Awg3Row) (live : Bool)
    (hPrimary : p = (Awg3.reconcile (awg3Columns o actor now a) now true).1) :
    ((Awg3.op o actor now (if op.copies then p else b)).run false live).row = p ↔
      op.copies = true ∨ b.accessUntil = p.accessUntil := by
  rw [(awg3_op_run h actor now _ live).1]
  have hBlock : op.copies = false → (∀ row, (awg3Columns o actor now row).accessUntil =
        row.accessUntil) →
      (∀ row row' : Awg3Row, row.accessUntil = row'.accessUntil →
        awg3Columns o actor now row = awg3Columns o actor now row') →
      ((Awg3.reconcile (awg3Columns o actor now (if op.copies then p else b)) now true).1 = p ↔
        op.copies = true ∨ b.accessUntil = p.accessUntil) := by
    intro hCopies hKeeps hWrites
    have hA : p.accessUntil = a.accessUntil := by
      rw [hPrimary, (awg3_reconcile_frame _ _ _).1, hKeeps]
    simp only [hCopies, Bool.false_eq_true, if_false, false_or]
    constructor
    · intro hRow
      rw [← hRow, (awg3_reconcile_frame _ _ _).1, hKeeps]
    · intro hUntil
      rw [hWrites b a (hUntil.trans hA), ← hPrimary]
  cases op with
  | blockTemp days =>
    cases h
    exact hBlock rfl (fun _ => rfl) fun row row' hRow => by
      simp [awg3Columns, Awg3.tempBlockColumns, hRow]
  | blockPermanent =>
    cases h
    exact hBlock rfl (fun _ => rfl) fun row row' hRow => by
      simp [awg3Columns, Awg3.permanentBlockColumns, hRow]
  | unblock =>
    cases h
    exact hBlock rfl (fun _ => rfl) fun row row' hRow => by
      simp [awg3Columns, Awg3.unblockColumns, hRow]
  | setAccessUntil t =>
    cases h
    have hFrame := awg3_reconcile_frame (awg3Columns (.setAccessUntil t) actor now a) now true
    have hSelf : awg3Columns (.setAccessUntil t) actor now p = p := by
      have hUntil : p.accessUntil = t := hPrimary ▸ hFrame.1
      have hActor : p.updatedBy = some "api" := hPrimary ▸ hFrame.2
      rw [awg3Columns, ← hUntil, ← hActor]
    simp only [SyncOp.copies, if_true, true_or, iff_true, hSelf]
    rw [hPrimary, awg3_reconcile_reconcile]
  | setTrafficLimit limitBytes periodDays | clearTrafficLimit | setWgExpiry days extend =>
    simp [SyncOp.toBlockOp?] at h

end AdminPanel.NodeSync
