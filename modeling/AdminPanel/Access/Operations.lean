import AdminPanel.Access.Reconcile

/-!
# Access policies — the administrator's operations

The operations of `AccessPolicyService` and `access_until.set_access_until` on
one row: the columns an operation writes and commits, then the reconcile it
ends with. The WireGuard and AmneziaWG2 operations are copies of one body and
return the runtime call beside the row.

* `openvpnOp`, `wgOp`, `awg2Op` — the three services as functions of an
  operation;
* `policyOp_eq` — every operation is `enter` (its own columns) followed by the
  protocol's reconcile.
-/

namespace AdminPanel.Access

inductive PolicyError where
  | trafficLimitExceeded
  | limitTooSmall
  | badPeriod
  deriving DecidableEq, Repr

def PolicyError.message : PolicyError → String
  | .trafficLimitExceeded =>
    "Клиент отключён по превышению лимита трафика. " ++
      "Для разблокировки увеличьте лимит, снимите его или очистите статистику трафика."
  | .limitTooSmall => "Лимит трафика должен быть не меньше 1 байта"
  | .badPeriod => "Период лимита трафика должен быть 1, 7 или 30 дней."

/-! ## Columns an operation writes -/

section

variable (row : PolicyRow)

def tempBlockColumns (days : Int) (actor : Option String) (now : Time) : PolicyRow :=
  { row with
    isTempBlocked := true
    isPermanentBlocked := false
    blockReason := some .manualTemp
    blockStartedAt := some now
    blockDays := some days
    blockUntil := some (now + timedeltaDays days)
    updatedBy := actor }

def permanentBlockColumns (actor : Option String) (now : Time) : PolicyRow :=
  { row with
    isTempBlocked := false
    isPermanentBlocked := true
    blockReason := some .manualPermanent
    blockStartedAt := some now
    blockDays := none
    blockUntil := none
    updatedBy := actor }

def unblockColumns (actor : Option String) : PolicyRow :=
  { row with
    isTempBlocked := false
    isPermanentBlocked := false
    blockReason := none
    blockStartedAt := none
    blockDays := none
    blockUntil := none
    updatedBy := actor }

/-- The checks of `*_set_traffic_limit` and the columns it writes. -/
def setTrafficLimitColumns (limitBytes : Int) (periodDays : Option Int) (actor : Option String) :
    Except PolicyError PolicyRow :=
  if limitBytes < 1 then .error .limitTooSmall
  else
    match periodDays with
    | some p =>
      if p ∉ trafficLimitPeriodDaysAllowed then .error .badPeriod
      else .ok { row with
        trafficLimitBytes := some limitBytes
        trafficLimitPeriodDays := some p
        updatedBy := actor }
    | none => .ok { row with
        trafficLimitBytes := some limitBytes
        trafficLimitPeriodDays := none
        updatedBy := actor }

def clearTrafficLimitColumns (actor : Option String) : PolicyRow :=
  { row with
    trafficLimitBytes := none
    trafficLimitPeriodDays := none
    updatedBy := actor }

/-- `_set_row_access_until` and `updated_by` of `set_access_until`. -/
def accessUntilColumns (accessUntil : Option Time) (actor : Option String) : PolicyRow :=
  { row with accessUntil := accessUntil, updatedBy := actor }

/-! ## OpenVPN -/

def openvpnTempBlock (days : Int) (actor : Option String) (r : Reading) : PolicyRow :=
  (reconcileOpenvpn (tempBlockColumns row days actor r.now) r false).1

def openvpnPermanentBlock (actor : Option String) (r : Reading) : PolicyRow :=
  (reconcileOpenvpn (permanentBlockColumns row actor r.now) r false).1

/-- While the deadline is past, the client is let in until the next
access-expiry tick: no reconcile, only the ban file is rewritten. -/
def openvpnUnblock (actor : Option String) (r : Reading) : Except PolicyError PolicyRow :=
  if trafficExceeded row r then .error .trafficLimitExceeded
  else if policyAccessExpired row r.now then .ok (unblockColumns row actor)
  else .ok (reconcileOpenvpn (unblockColumns row actor) r false).1

def openvpnSetTrafficLimit (limitBytes : Int) (periodDays : Option Int)
    (actor : Option String) (r : Reading) : Except PolicyError PolicyRow :=
  (setTrafficLimitColumns row limitBytes periodDays actor).map fun row =>
    (reconcileOpenvpn row r true).1

def openvpnClearTrafficLimit (actor : Option String) (r : Reading) : PolicyRow :=
  (reconcileOpenvpn (clearTrafficLimitColumns row actor) r true).1

/-! ## WireGuard and AmneziaWG2 -/

abbrev PeerResult := PolicyRow × Option RuntimeCall

def peerTempBlock (days : Int) (actor : Option String) (r : Reading) : PeerResult :=
  reconcilePeer (tempBlockColumns row days actor r.now) r true true false

def peerPermanentBlock (actor : Option String) (r : Reading) : PeerResult :=
  reconcilePeer (permanentBlockColumns row actor r.now) r true true false

/-- While the deadline is past, the peers are restored without a reconcile and
without the re-block pass. -/
def peerUnblock (actor : Option String) (r : Reading) : Except PolicyError PeerResult :=
  if trafficExceeded row r then .error .trafficLimitExceeded
  else if policyAccessExpired row r.now then .ok (unblockColumns row actor, some ⟨false, false⟩)
  else .ok (reconcilePeer (unblockColumns row actor) r true true false)

def peerSetTrafficLimit (limitBytes : Int) (periodDays : Option Int)
    (actor : Option String) (r : Reading) : Except PolicyError PeerResult :=
  (setTrafficLimitColumns row limitBytes periodDays actor).map fun row =>
    reconcilePeer row r true true true

def peerClearTrafficLimit (actor : Option String) (r : Reading) : PeerResult :=
  reconcilePeer (clearTrafficLimitColumns row actor) r true true true

def wgTempBlock := peerTempBlock
def wgPermanentBlock := peerPermanentBlock
def wgUnblock := peerUnblock
def wgSetTrafficLimit := peerSetTrafficLimit
def wgClearTrafficLimit := peerClearTrafficLimit

def awg2TempBlock := peerTempBlock
def awg2PermanentBlock := peerPermanentBlock
def awg2Unblock := peerUnblock
def awg2SetTrafficLimit := peerSetTrafficLimit
def awg2ClearTrafficLimit := peerClearTrafficLimit

def wgExpiryFrom (existing : Option Time) (days : Int) (extend : Bool) (now : Time) : Time :=
  let base :=
    match existing with
    | some t => if extend && decide (now < t) then t else now
    | none => now
  base + timedeltaDays days

/-- `wg_set_expiry`; the AmneziaWG2 service has no counterpart. -/
def wgSetExpiry (days : Int) (extend : Bool) (actor : Option String) (r : Reading) : PeerResult :=
  reconcileWg
    (accessUntilColumns row (some (wgExpiryFrom row.accessUntil days extend r.now)) actor)
    r true true false

end

/-! ## The services as functions of an operation -/

/-- The operations all three services have. `setAccessUntil` is
`access_until.set_access_until` with its commit; `reconcile` is the bare call
`reconcile_<protocol>(client_name)`. -/
inductive PolicyOp where
  | tempBlock (days : Int)
  | permanentBlock
  | unblock
  | setTrafficLimit (limitBytes : Int) (periodDays : Option Int)
  | clearTrafficLimit
  | setAccessUntil (accessUntil : Option Time)
  | reconcile
  deriving DecidableEq, Repr

def openvpnOp (op : PolicyOp) (actor : Option String) (r : Reading) (row : PolicyRow) :
    Except PolicyError PolicyRow :=
  match op with
  | .tempBlock days => .ok (openvpnTempBlock row days actor r)
  | .permanentBlock => .ok (openvpnPermanentBlock row actor r)
  | .unblock => openvpnUnblock row actor r
  | .setTrafficLimit limitBytes periodDays =>
    openvpnSetTrafficLimit row limitBytes periodDays actor r
  | .clearTrafficLimit => .ok (openvpnClearTrafficLimit row actor r)
  | .setAccessUntil t => .ok (reconcileOpenvpn (accessUntilColumns row t actor) r false).1
  | .reconcile => .ok (reconcileOpenvpn row r false).1

def wgOp (op : PolicyOp) (actor : Option String) (r : Reading) (row : PolicyRow) :
    Except PolicyError PeerResult :=
  match op with
  | .tempBlock days => .ok (wgTempBlock row days actor r)
  | .permanentBlock => .ok (wgPermanentBlock row actor r)
  | .unblock => wgUnblock row actor r
  | .setTrafficLimit limitBytes periodDays => wgSetTrafficLimit row limitBytes periodDays actor r
  | .clearTrafficLimit => .ok (wgClearTrafficLimit row actor r)
  | .setAccessUntil t => .ok (reconcileWg (accessUntilColumns row t actor) r true true false)
  | .reconcile => .ok (reconcileWg row r true false false)

def awg2Op (op : PolicyOp) (actor : Option String) (r : Reading) (row : PolicyRow) :
    Except PolicyError PeerResult :=
  match op with
  | .tempBlock days => .ok (awg2TempBlock row days actor r)
  | .permanentBlock => .ok (awg2PermanentBlock row actor r)
  | .unblock => awg2Unblock row actor r
  | .setTrafficLimit limitBytes periodDays => awg2SetTrafficLimit row limitBytes periodDays actor r
  | .clearTrafficLimit => .ok (awg2ClearTrafficLimit row actor r)
  | .setAccessUntil t => .ok (reconcileAwg2 (accessUntilColumns row t actor) r true true false)
  | .reconcile => .ok (reconcileAwg2 row r true false false)

/-- The row a service leaves after an operation. -/
def policyOp (protocol : Protocol) (op : PolicyOp) (actor : Option String) (r : Reading)
    (row : PolicyRow) : Except PolicyError PolicyRow :=
  match protocol with
  | .openvpn => openvpnOp op actor r row
  | .wireguard => (wgOp op actor r row).map Prod.fst
  | .amneziawg2 => (awg2Op op actor r row).map Prod.fst

/-! ## Every operation is its own columns, then the protocol's reconcile -/

/-- The row as an operation commits it first, and the reconcile that follows. -/
structure Entered where
  row : PolicyRow
  reconciles : Bool
  limitChanged : Bool

def enter (op : PolicyOp) (actor : Option String) (r : Reading) (row : PolicyRow) :
    Except PolicyError Entered :=
  match op with
  | .tempBlock days => .ok ⟨tempBlockColumns row days actor r.now, true, false⟩
  | .permanentBlock => .ok ⟨permanentBlockColumns row actor r.now, true, false⟩
  | .unblock =>
    if trafficExceeded row r then .error .trafficLimitExceeded
    else .ok ⟨unblockColumns row actor, !policyAccessExpired row r.now, false⟩
  | .setTrafficLimit limitBytes periodDays =>
    (setTrafficLimitColumns row limitBytes periodDays actor).map fun row => ⟨row, true, true⟩
  | .clearTrafficLimit => .ok ⟨clearTrafficLimitColumns row actor, true, true⟩
  | .setAccessUntil t => .ok ⟨accessUntilColumns row t actor, true, false⟩
  | .reconcile => .ok ⟨row, true, false⟩

def Entered.openvpn (e : Entered) (r : Reading) : PolicyRow :=
  if e.reconciles then reconciledOpenvpn e.row r e.limitChanged else e.row

def Entered.peer (e : Entered) (r : Reading) : PolicyRow :=
  if e.reconciles then reconciledPeer e.row r e.limitChanged else e.row

theorem openvpnOp_eq (op : PolicyOp) (actor : Option String) (r : Reading) (row : PolicyRow) :
    openvpnOp op actor r row = (enter op actor r row).map (·.openvpn r) := by
  cases op with
  | unblock =>
    simp only [openvpnOp, openvpnUnblock, enter, reconcileOpenvpn_row]
    split
    · rfl
    · cases hExp : policyAccessExpired row r.now <;> rfl
  | setTrafficLimit limitBytes periodDays =>
    simp only [openvpnOp, openvpnSetTrafficLimit, enter, reconcileOpenvpn_row]
    cases setTrafficLimitColumns row limitBytes periodDays actor <;> rfl
  | _ =>
    simp only [openvpnOp, openvpnTempBlock, openvpnPermanentBlock, openvpnClearTrafficLimit, enter,
      reconcileOpenvpn_row]
    rfl

/-- What a peer service makes of the entered row, with its runtime call. An
unblock under a past deadline only restores the client's own peers. -/
def Entered.peerResult (e : Entered) (r : Reading) (forceRuntime : Bool) : PeerResult :=
  if e.reconciles then reconcilePeer e.row r true forceRuntime e.limitChanged
  else (e.row, some ⟨false, false⟩)

/-- Every operation but the bare reconcile forces its runtime call. -/
def PolicyOp.forcesRuntime : PolicyOp → Bool
  | .reconcile => false
  | _ => true

theorem wgOp_eq (op : PolicyOp) (actor : Option String) (r : Reading) (row : PolicyRow) :
    wgOp op actor r row = (enter op actor r row).map (·.peerResult r op.forcesRuntime) := by
  cases op with
  | unblock =>
    simp only [wgOp, wgUnblock, peerUnblock, enter]
    split
    · rfl
    · cases hExp : policyAccessExpired row r.now <;> rfl
  | setTrafficLimit limitBytes periodDays =>
    simp only [wgOp, wgSetTrafficLimit, peerSetTrafficLimit, enter]
    cases setTrafficLimitColumns row limitBytes periodDays actor <;> rfl
  | _ => rfl

theorem Entered.peerResult_row (e : Entered) (r : Reading) (forceRuntime : Bool) :
    (e.peerResult r forceRuntime).1 = e.peer r := by
  unfold Entered.peerResult Entered.peer
  split
  · exact reconcilePeer_row e.row r true forceRuntime e.limitChanged
  · rfl

theorem wgOp_row (op : PolicyOp) (actor : Option String) (r : Reading) (row : PolicyRow) :
    (wgOp op actor r row).map Prod.fst = (enter op actor r row).map (·.peer r) := by
  rw [wgOp_eq]
  cases enter op actor r row with
  | error e => rfl
  | ok e => exact congrArg Except.ok (e.peerResult_row r op.forcesRuntime)

section

variable {op : PolicyOp} {actor : Option String} {r : Reading} {row : PolicyRow} {e : Entered}

/-- Only an unblock skips the reconcile. -/
theorem enter_unblock_of_drop (h : enter op actor r row = .ok e) (hRec : e.reconciles = false) :
    op = .unblock := by
  cases op with
  | unblock => rfl
  | setTrafficLimit limitBytes periodDays =>
    simp only [enter] at h
    cases hCols : setTrafficLimitColumns row limitBytes periodDays actor <;> rw [hCols] at h <;>
      cases h
    simp at hRec
  | _ =>
    cases h
    simp at hRec

/-- An unblock without a reconcile leaves no reason. -/
theorem enter_reason_of_not_reconciles (h : enter op actor r row = .ok e)
    (hRec : e.reconciles = false) : e.row.blockReason = none := by
  obtain rfl := enter_unblock_of_drop h hRec
  simp only [enter] at h
  split at h
  · simp at h
  · cases h
    rfl

end

theorem awg2Op_eq_wgOp (op : PolicyOp) (actor : Option String) (r : Reading) (row : PolicyRow) :
    awg2Op op actor r row = wgOp op actor r row := by
  cases op <;> rfl

/-- What the protocol's service makes of the entered row. -/
def Entered.settled (protocol : Protocol) (e : Entered) (r : Reading) : PolicyRow :=
  match protocol with
  | .openvpn => e.openvpn r
  | .wireguard => e.peer r
  | .amneziawg2 => e.peer r

/-- What follows the entered row writes no column outside the block. -/
theorem Entered.settled_frame (protocol : Protocol) (e : Entered) (r : Reading) :
    SameFrame (e.settled protocol r) e.row := by
  have hOvpn := reconciledOpenvpn_frame e.row r e.limitChanged
  have hPeer := reconciledPeer_frame e.row r e.limitChanged
  cases protocol <;> simp only [Entered.settled, Entered.openvpn, Entered.peer] <;>
    split <;> first | assumption | exact ⟨rfl, rfl, rfl, rfl⟩

/-- **Every operation is its own columns, then the protocol's reconcile.** -/
theorem policyOp_eq (protocol : Protocol) (op : PolicyOp) (actor : Option String) (r : Reading)
    (row : PolicyRow) :
    policyOp protocol op actor r row = (enter op actor r row).map (·.settled protocol r) := by
  cases protocol with
  | openvpn => exact openvpnOp_eq op actor r row
  | wireguard => exact wgOp_row op actor r row
  | amneziawg2 =>
    simp only [policyOp, awg2Op_eq_wgOp]
    exact wgOp_row op actor r row

end AdminPanel.Access
