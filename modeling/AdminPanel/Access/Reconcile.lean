import AdminPanel.Access.Policy
import AdminPanel.Lib.PyText

/-!
# Access policies — reconciliation and operations on one row

`AccessPolicyService` of `app/services/access_policy.py`, one row at a time.
The OpenVPN service has its own `reconcileOpenvpn`; the WireGuard and
AmneziaWG2 services are copies of one body, `reconcilePeer`. What a call does
outside the row is returned beside it: `reconcileOpenvpn` says whether it
changed the row (the source commits then, and flushes otherwise), `reconcilePeer`
returns the runtime call it makes.

Main results, one normal form for each reconcile function:

* `reconcilePeer_row` — lapsed temporary block cleaned, permanent flag dropped
  only by a limit change, reason set to the target reason of what is left;
* `reconcileOpenvpn_row` — the same for OpenVPN, whose traffic clean-up drops
  more.
-/

namespace AdminPanel.Access

open Lib.PyText (strip)

/-! ## Clean-up of the row -/

section

variable (row : PolicyRow) (r : Reading)

/-- The temporary block is over: the condition of the three `_cleanup_*_temp_block`. -/
def tempBlockLapsed (now : Time) : Bool :=
  row.isTempBlocked &&
    match row.blockUntil with
    | some t => decide (t ≤ now)
    | none => false

/-- The common body of `_cleanup_ovpn_temp_block`, `_cleanup_wg_temp_block` and
`_cleanup_awg2_temp_block`, which also return `tempBlockLapsed row now`. -/
def cleanupTempBlock (now : Time) : PolicyRow :=
  if tempBlockLapsed row now then
    { row with
      isTempBlocked := false
      blockUntil := none
      blockDays := none
      blockReason := if row.blockReason = some .manualTemp then none else row.blockReason
      blockStartedAt := none }
  else row

def cleanupOvpnTempBlock := cleanupTempBlock
def cleanupWgTempBlock := cleanupTempBlock
def cleanupAwg2TempBlock := cleanupTempBlock

/-- `(updated_by or "").strip()` is not empty. -/
def namedActor (actor : Option String) : Bool :=
  !(strip (actor.getD "").toList).isEmpty

def clearBlockColumns : PolicyRow :=
  { row with blockStartedAt := none, blockDays := none, blockUntil := none }

/-- `_cleanup_ovpn_traffic_limit`: the row and whether it changed. -/
def cleanupOvpnTrafficLimit (trafficExceeded trafficLimitChanged : Bool) : PolicyRow × Bool :=
  if trafficExceeded then
    if row.isPermanentBlocked && !row.isTempBlocked && !namedActor row.updatedBy then
      ({ clearBlockColumns row with isPermanentBlocked := false }, true)
    else (row, false)
  else
    let (row, changed) :=
      if row.blockReason = some .trafficLimit then (clearBlockColumns row, true)
      else (row, false)
    if trafficLimitChanged && !trafficExceeded && row.isPermanentBlocked && !row.isTempBlocked then
      ({ clearBlockColumns row with isPermanentBlocked := false }, true)
    else (row, changed)

/-! ## Block reasons -/

/-- The block mode as the word the OpenVPN service stores. -/
def BlockMode.word : BlockMode → Option BlockReason
  | .permanent => some .permanent
  | .accessExpired => some .accessExpired
  | .temp => some .temp
  | .trafficLimit => some .trafficLimit
  | .none => Option.none

/-- The words `_wg_target_reason` and `_awg2_target_reason` choose. -/
def BlockMode.targetReason : BlockMode → Option BlockReason
  | .accessExpired => some .accessExpired
  | .permanent => some .manualPermanent
  | .temp => some .manualTemp
  | .trafficLimit => some .trafficLimit
  | .none => Option.none

/-- `state["block_mode"] if state["is_blocked"] else None` -/
def ovpnTargetReason (state : PolicyState) : Option BlockReason :=
  if state.isBlocked then state.blockMode.word else none

/-- The common body of `_wg_target_reason` and `_awg2_target_reason`. -/
def peerTargetReason (state : PolicyState) : Option BlockReason :=
  if !state.isBlocked then none else state.blockMode.targetReason

def wgTargetReason := peerTargetReason
def awg2TargetReason := peerTargetReason

theorem ovpnTargetReason_policyState :
    ovpnTargetReason (policyState row r) = (blockMode row r).word := by
  simp only [ovpnTargetReason, policyState, isBlocked_eq_mode]
  cases blockMode row r <;> rfl

theorem peerTargetReason_policyState :
    peerTargetReason (policyState row r) = (blockMode row r).targetReason := by
  simp only [peerTargetReason, policyState, isBlocked_eq_mode]
  cases blockMode row r <;> rfl

/-! ## Reconcile -/

/-- A deadline that is no longer past takes its reason with it; the permanent
flag stays, the schedule must not wipe a manual ban. -/
def dropExpiredReason (now : Time) : PolicyRow :=
  if !policyAccessExpired row now && row.blockReason = some .accessExpired then
    { row with blockReason := none }
  else row

/-- `reconcile_openvpn` on an existing row: the row and `changed`. -/
def reconcileOpenvpn (trafficLimitChanged : Bool) : PolicyRow × Bool :=
  let cleaned := cleanupOvpnTempBlock row r.now
  let current := dropExpiredReason cleaned r.now
  let limited := cleanupOvpnTrafficLimit current (trafficExceeded current r) trafficLimitChanged
  let target := ovpnTargetReason (ovpnState limited.1 r)
  ({ limited.1 with blockReason := target },
    tempBlockLapsed row r.now || cleaned.blockReason != current.blockReason || limited.2 ||
      limited.1.blockReason != target)

/-- A call of the node runtime for the client: remove or restore its peers, and
whether the re-block pass over the other clients follows. -/
structure RuntimeCall where
  isBlocked : Bool
  reapply : Bool
  deriving DecidableEq, Repr

/-- A reason `traffic_limit` of a client that is back under its limit is reset. -/
def dropTrafficReason : PolicyRow :=
  if row.blockReason = some .trafficLimit && !trafficExceeded row r then
    { row with blockReason := none }
  else row

/-- The reason follows a leading deadline or limit, and leaves with it. -/
def adoptReason (state : PolicyState) : PolicyRow :=
  if state.isBlocked && (state.blockMode = .trafficLimit || state.blockMode = .accessExpired) then
    { row with blockReason := state.blockMode.word }
  else if row.blockReason = some .trafficLimit && !state.isBlocked then
    { row with blockReason := none }
  else if row.blockReason = some .accessExpired && !state.isBlocked then
    { row with blockReason := none }
  else row

/-- A limit change that leaves the client under its limit lifts a permanent
flag that no temporary block accompanies. -/
def liftOnLimitChange (state : PolicyState) (trafficLimitChanged : Bool) : PolicyRow :=
  if trafficLimitChanged && !state.traffic.trafficLimitExceeded && row.isPermanentBlocked &&
      !row.isTempBlocked then
    { row with isPermanentBlocked := false, blockReason := none }
  else row

/-- The common body of `reconcile_wg` and `reconcile_awg2` on an existing row:
the row and the runtime call made before the commit. -/
def reconcilePeer (applyRuntime forceRuntime trafficLimitChanged : Bool) :
    PolicyRow × Option RuntimeCall :=
  let current := dropTrafficReason (dropExpiredReason (cleanupTempBlock row r.now) r.now) r
  let state := policyState current r
  let lifted := liftOnLimitChange (adoptReason current state) state trafficLimitChanged
  let after := policyState lifted r
  let target := peerTargetReason after
  let runtimeChanged :=
    (policyState row r).isBlocked != after.isBlocked || row.blockReason != target
  ({ lifted with blockReason := target },
    if applyRuntime && (runtimeChanged || forceRuntime) then
      some ⟨after.isBlocked, !after.isBlocked⟩
    else none)

def reconcileWg := reconcilePeer
def reconcileAwg2 := reconcilePeer

/-! ## Normal forms -/

/-- Reset to `reason` and, when `lift` holds, without the permanent flag. -/
def settle (lift : Bool) (reason : Option BlockReason) : PolicyRow :=
  { row with
    isPermanentBlocked := row.isPermanentBlocked && !lift
    blockReason := reason }

theorem settle_false (reason : Option BlockReason) :
    settle row false reason = { row with blockReason := reason } := by
  simp [settle]

theorem settle_eq_self : settle row false row.blockReason = row := by
  rw [settle_false]

theorem dropExpiredReason_eq (now : Time) :
    ∃ reason, dropExpiredReason row now = settle row false reason := by
  unfold dropExpiredReason
  split
  · exact ⟨none, by simp [settle]⟩
  · exact ⟨row.blockReason, (settle_eq_self row).symm⟩

theorem dropTrafficReason_eq : ∃ reason, dropTrafficReason row r = settle row false reason := by
  unfold dropTrafficReason
  split
  · exact ⟨none, by simp [settle]⟩
  · exact ⟨row.blockReason, (settle_eq_self row).symm⟩

theorem adoptReason_eq (state : PolicyState) :
    ∃ reason, adoptReason row state = settle row false reason := by
  unfold adoptReason
  split
  · exact ⟨state.blockMode.word, by simp [settle]⟩
  · split
    · exact ⟨none, by simp [settle]⟩
    · split
      · exact ⟨none, by simp [settle]⟩
      · exact ⟨row.blockReason, (settle_eq_self row).symm⟩

/-- The condition under which `liftOnLimitChange` drops a permanent flag. -/
def limitChangeLifts (trafficLimitChanged : Bool) : Bool :=
  trafficLimitChanged && !trafficExceeded row r && !row.isTempBlocked

/-- A changed limit resets the row, with some reason. -/
theorem liftOnLimitChange_eq (changed : Bool) :
    ∃ reason, liftOnLimitChange row (policyState row r) changed =
      settle row (limitChangeLifts row r changed) reason := by
  unfold liftOnLimitChange
  split
  · next h =>
    refine ⟨none, ?_⟩
    simp only [Bool.and_eq_true] at h
    obtain ⟨⟨⟨hCh, hEx⟩, -⟩, hTemp⟩ := h
    have hLift : limitChangeLifts row r changed = true := by
      simp only [limitChangeLifts, Bool.and_eq_true]
      exact ⟨⟨hCh, hEx⟩, hTemp⟩
    simp [settle, hLift]
  · next h =>
    refine ⟨row.blockReason, ?_⟩
    cases hPerm : row.isPermanentBlocked with
    | false =>
      have hSame : ∀ lift, settle row lift row.blockReason = settle row false row.blockReason := by
        intro lift
        simp [settle, hPerm]
      rw [hSame, settle_eq_self]
    | true =>
      have hLift : limitChangeLifts row r changed = false := by
        rw [hPerm, Bool.and_true] at h
        exact Bool.eq_false_iff.mpr h
      rw [hLift, settle_eq_self]

@[simp] theorem settle_settle (lift : Bool) (reason reason' : Option BlockReason) :
    settle (settle row false reason) lift reason' = settle row lift reason' := by
  simp [settle]

@[simp] theorem policyState_settle (reason : Option BlockReason) (r : Reading) :
    policyState (settle row false reason) r = policyState row r := by
  rw [settle_false]
  rfl

theorem blockMode_settle_false (reason : Option BlockReason) (r : Reading) :
    blockMode (settle row false reason) r = blockMode row r :=
  congrArg PolicyState.blockMode (policyState_settle row reason r)

@[simp] theorem limitChangeLifts_settle (lift : Bool)
    (reason : Option BlockReason) (r : Reading) (changed : Bool) :
    limitChangeLifts (settle row lift reason) r changed = limitChangeLifts row r changed := rfl

/-- The block mode does not read the stored reason. -/
theorem blockMode_settle (lift : Bool) (reason reason' : Option BlockReason) (r : Reading) :
    blockMode (settle row lift reason) r = blockMode (settle row lift reason') r :=
  rfl

/-- Two rows with the same columns outside the block: deadline, limit, updater. -/
structure SameFrame (row row' : PolicyRow) : Prop where
  accessUntil : row.accessUntil = row'.accessUntil
  trafficLimitBytes : row.trafficLimitBytes = row'.trafficLimitBytes
  trafficLimitPeriodDays : row.trafficLimitPeriodDays = row'.trafficLimitPeriodDays
  updatedBy : row.updatedBy = row'.updatedBy

theorem cleanupTempBlock_frame (now : Time) : SameFrame (cleanupTempBlock row now) row := by
  unfold cleanupTempBlock
  split <;> exact ⟨rfl, rfl, rfl, rfl⟩

/-- What a reconcile of a peer protocol leaves: the lapsed temporary block
cleaned up, the permanent flag lifted by a limit change only, and the reason
that the rest calls for. -/
def reconciledPeer (trafficLimitChanged : Bool) : PolicyRow :=
  let cleaned := cleanupTempBlock row r.now
  let lift := limitChangeLifts cleaned r trafficLimitChanged
  settle cleaned lift (blockMode (settle cleaned lift none) r).targetReason

/-- **Normal form of the WireGuard and AmneziaWG2 reconcile.** -/
theorem reconcilePeer_row (applyRuntime forceRuntime changed : Bool) :
    (reconcilePeer row r applyRuntime forceRuntime changed).1 = reconciledPeer row r changed := by
  simp only [reconcilePeer, reconciledPeer, peerTargetReason_policyState]
  obtain ⟨r₁, h₁⟩ := dropExpiredReason_eq (cleanupTempBlock row r.now) r.now
  obtain ⟨r₂, h₂⟩ := dropTrafficReason_eq (settle (cleanupTempBlock row r.now) false r₁) r
  rw [h₁, h₂, settle_settle]
  obtain ⟨r₃, h₃⟩ := adoptReason_eq (settle (cleanupTempBlock row r.now) false r₂)
    (policyState (settle (cleanupTempBlock row r.now) false r₂) r)
  rw [h₃, settle_settle, policyState_settle,
    ← policyState_settle (cleanupTempBlock row r.now) r₃ r]
  obtain ⟨r₄, h₄⟩ := liftOnLimitChange_eq (settle (cleanupTempBlock row r.now) false r₃) r changed
  rw [h₄, settle_settle, limitChangeLifts_settle]
  rw [blockMode_settle _ _ r₄ none]
  rfl

/-- The runtime call of a reconcile: made when forced, or when the blocked state
or the reason moves, and for the state the row ends in. -/
theorem reconcilePeer_call (applyRuntime forceRuntime changed : Bool) :
    (reconcilePeer row r applyRuntime forceRuntime changed).2 =
      if applyRuntime && ((isBlocked row r != isBlocked (reconciledPeer row r changed) r ||
          row.blockReason != (reconciledPeer row r changed).blockReason) || forceRuntime) then
        some ⟨isBlocked (reconciledPeer row r changed) r,
          !isBlocked (reconciledPeer row r changed) r⟩
      else none := by
  rw [← reconcilePeer_row row r applyRuntime forceRuntime changed]
  rfl

/-- The target reason says whether the client is blocked. -/
theorem targetReason_isNone : (blockMode row r).targetReason.isNone = !isBlocked row r := by
  rw [isBlocked_eq_mode]
  cases blockMode row r <;> rfl

/-- After a reconcile the stored reason says whether the client is blocked. -/
theorem reconciledPeer_reason_isNone (changed : Bool) :
    (reconciledPeer row r changed).blockReason.isNone =
      !isBlocked (reconciledPeer row r changed) r := by
  have hMode : (reconciledPeer row r changed).blockReason =
      (blockMode (reconciledPeer row r changed) r).targetReason := rfl
  rw [hMode, targetReason_isNone]

/-- A lapsed temporary block does not count, so cleaning it up blocks or frees nobody. -/
theorem tempActive_cleanupTempBlock (now : Time) :
    tempActive (cleanupTempBlock row now) now = tempActive row now := by
  unfold cleanupTempBlock
  split
  · next h =>
    simp only [tempBlockLapsed, Bool.and_eq_true] at h
    obtain ⟨hTemp, hUntil⟩ := h
    cases hBu : row.blockUntil with
    | none => simp [hBu] at hUntil
    | some t =>
      simp only [hBu, decide_eq_true_eq] at hUntil
      have hNot : ¬ now < t := Int.not_lt.mpr hUntil
      simp [tempActive, hBu, hNot]
  · rfl

theorem isPermanentBlocked_cleanupTempBlock (now : Time) :
    (cleanupTempBlock row now).isPermanentBlocked = row.isPermanentBlocked := by
  unfold cleanupTempBlock
  split <;> rfl

theorem policyAccessExpired_cleanupTempBlock (now now' : Time) :
    policyAccessExpired (cleanupTempBlock row now) now' = policyAccessExpired row now' := by
  unfold cleanupTempBlock
  split <;> rfl

theorem trafficExceeded_cleanupTempBlock (now : Time) (r : Reading) :
    trafficExceeded (cleanupTempBlock row now) r = trafficExceeded row r := by
  unfold cleanupTempBlock
  split <;> rfl

theorem isBlocked_cleanupTempBlock :
    isBlocked (cleanupTempBlock row r.now) r = isBlocked row r := by
  simp only [isBlocked, tempActive_cleanupTempBlock, isPermanentBlocked_cleanupTempBlock,
    policyAccessExpired_cleanupTempBlock, trafficExceeded_cleanupTempBlock]

theorem blockMode_cleanupTempBlock :
    blockMode (cleanupTempBlock row r.now) r = blockMode row r := by
  simp only [blockMode, tempActive_cleanupTempBlock, isPermanentBlocked_cleanupTempBlock,
    policyAccessExpired_cleanupTempBlock, trafficExceeded_cleanupTempBlock]

/-- A reconcile of this row leaves the client unblocked. -/
def reconcileFrees (trafficLimitChanged : Bool) : Bool :=
  let cleaned := cleanupTempBlock row r.now
  !(cleaned.isPermanentBlocked && !limitChangeLifts cleaned r trafficLimitChanged) &&
    !policyAccessExpired row r.now && !tempActive row r.now && !trafficExceeded row r

theorem isBlocked_reconciledPeer_eq (changed : Bool) :
    isBlocked (reconciledPeer row r changed) r = !reconcileFrees row r changed := by
  rw [reconcileFrees, ← policyAccessExpired_cleanupTempBlock row r.now,
    ← tempActive_cleanupTempBlock row r.now, ← trafficExceeded_cleanupTempBlock row r.now]
  have hState : isBlocked (reconciledPeer row r changed) r =
      (policyAccessExpired (cleanupTempBlock row r.now) r.now ||
        tempActive (cleanupTempBlock row r.now) r.now ||
        ((cleanupTempBlock row r.now).isPermanentBlocked &&
          !limitChangeLifts (cleanupTempBlock row r.now) r changed) ||
        trafficExceeded (cleanupTempBlock row r.now) r) := rfl
  rw [hState]
  cases policyAccessExpired (cleanupTempBlock row r.now) r.now <;>
    cases tempActive (cleanupTempBlock row r.now) r.now <;>
    cases trafficExceeded (cleanupTempBlock row r.now) r <;> simp

/-- Without a limit change the reason that a reconcile stores is that of the
state it found. -/
theorem reconciledPeer_reason :
    (reconciledPeer row r false).blockReason = (blockMode row r).targetReason := by
  rw [← blockMode_cleanupTempBlock row r, ← blockMode_settle_false _ none r]
  simp only [reconciledPeer, limitChangeLifts, Bool.false_and]
  rfl

/-- Without a limit change a reconcile does not move the blocked state. -/
theorem isBlocked_reconciledPeer : isBlocked (reconciledPeer row r false) r = isBlocked row r := by
  rw [← isBlocked_cleanupTempBlock row r]
  simp only [reconciledPeer, limitChangeLifts, Bool.false_and]
  rw [settle_false]
  rfl

/-- A reconcile writes no column outside the block. -/
theorem reconciledPeer_frame (changed : Bool) : SameFrame (reconciledPeer row r changed) row :=
  let h := cleanupTempBlock_frame row r.now
  ⟨h.accessUntil, h.trafficLimitBytes, h.trafficLimitPeriodDays, h.updatedBy⟩

/-- When `_cleanup_ovpn_traffic_limit` drops a permanent flag: under an exceeded
limit that of an unnamed updater, otherwise any on a limit change. -/
def ovpnLifts (trafficLimitChanged : Bool) : Bool :=
  !row.isTempBlocked &&
    if trafficExceeded row r then !namedActor row.updatedBy else trafficLimitChanged

/-- When it also clears the block columns. -/
def ovpnClears (trafficLimitChanged : Bool) : Bool :=
  if trafficExceeded row r then row.isPermanentBlocked && ovpnLifts row r trafficLimitChanged
  else row.blockReason = some .trafficLimit ||
    (row.isPermanentBlocked && ovpnLifts row r trafficLimitChanged)

/-- What a reconcile of OpenVPN leaves. -/
def reconciledOpenvpn (trafficLimitChanged : Bool) : PolicyRow :=
  let cleaned := cleanupTempBlock row r.now
  let lift := ovpnLifts cleaned r trafficLimitChanged
  let columns :=
    if ovpnClears cleaned r trafficLimitChanged then clearBlockColumns cleaned else cleaned
  settle columns lift (blockMode (settle columns lift none) r).word

theorem reconciledOpenvpn_frame (changed : Bool) :
    SameFrame (reconciledOpenvpn row r changed) row := by
  have h := cleanupTempBlock_frame row r.now
  simp only [reconciledOpenvpn]
  split <;> exact ⟨h.accessUntil, h.trafficLimitBytes, h.trafficLimitPeriodDays, h.updatedBy⟩

theorem cleanupOvpnTrafficLimit_eq (changed : Bool) :
    (cleanupOvpnTrafficLimit row (trafficExceeded row r) changed).1 =
      settle (if ovpnClears row r changed then clearBlockColumns row else row)
        (ovpnLifts row r changed) row.blockReason := by
  unfold cleanupOvpnTrafficLimit ovpnClears ovpnLifts
  obtain ⟨u, temp, perm, reason, st, d, bu, l, p, by_⟩ := row
  generalize trafficExceeded _ r = exceeded
  cases exceeded <;> cases temp <;> cases perm <;> cases changed <;>
    cases namedActor by_ <;> by_cases hReason : reason = some .trafficLimit <;>
    simp [settle, clearBlockColumns, hReason]

theorem ovpnClears_dropExpiredReason (changed : Bool) :
    ovpnClears (dropExpiredReason row r.now) r changed = ovpnClears row r changed := by
  unfold dropExpiredReason
  split
  · next h =>
    simp only [Bool.and_eq_true, decide_eq_true_eq] at h
    have hNe : row.blockReason ≠ some .trafficLimit := by
      rw [h.2]
      decide
    simp only [ovpnClears, hNe]
    rfl
  · rfl

/-- **Normal form of the OpenVPN reconcile.** -/
theorem reconcileOpenvpn_row (changed : Bool) :
    (reconcileOpenvpn row r changed).1 = reconciledOpenvpn row r changed := by
  simp only [reconcileOpenvpn, reconciledOpenvpn, ovpnState, ovpnTargetReason_policyState,
    cleanupOvpnTempBlock]
  generalize cleanupTempBlock row r.now = cleaned
  rw [cleanupOvpnTrafficLimit_eq, ovpnClears_dropExpiredReason]
  obtain ⟨reason, h⟩ := dropExpiredReason_eq cleaned r.now
  rw [h, settle_false]
  split <;> rfl

end

end AdminPanel.Access
