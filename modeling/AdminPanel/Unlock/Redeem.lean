import AdminPanel.Panel.Database

/-!
# Redeeming an unlock code

`redeem_unlock_code` of `app/services/unlock_codes.py`, cut at its database
steps: the reads and checks before the reservation, the conditional `UPDATE`
that reserves a slot, the deadlines it grants, the insert of the redemption with
the commit, and the reconcile that follows the commit.

* `checkCode`, `checkUser`, `checkDuplicate`, `loadPolicies`, `manuallyBlocked` —
  the steps before the reservation;
* `reservable` — the condition of the `UPDATE`;
* `grantClient`, `extendOwnedClients` — what a redemption grants in the client
  and in the user portal;
* `commitRedemption` — insert and commit, under the unique indexes;
* `redeemCommitted` — the steps up to the commit with nothing in between;
* `redeemUnlockCode` — and the reconcile after it.

The feature gate is taken as open; the best-effort replication to other nodes is
left out.
-/

namespace AdminPanel.Unlock

open Lib (Table Session)
open Access Panel

inductive RedeemError where
  | nodeNotFound
  | invalid
  | revoked
  | expired
  | limit
  | alreadyUsed
  | clientNotAllowed
  | protocolMismatch
  | manualBlock
  | generic
  | nothingToExtend
  deriving DecidableEq, Repr

def RedeemError.message : RedeemError → String
  | .nodeNotFound => "Узел не найден"
  | .invalid => "Неверный unlock-ключ"
  | .revoked => "Unlock-ключ отозван"
  | .expired => "Срок действия unlock-ключа истёк"
  | .limit => "Лимит активаций unlock-ключа исчерпан"
  | .alreadyUsed => "Этот unlock-ключ уже использован вами"
  | .clientNotAllowed => "Этот unlock-ключ не предназначен для вашего клиента"
  | .protocolMismatch => "Нет пересечения протоколов клиента и unlock-ключа"
  | .manualBlock =>
    "Данный пользователь заблокирован администратором вручную. Обратитесь к администратору."
  | .generic => "Не удалось активировать unlock-ключ"
  | .nothingToExtend => "Срок ваших профилей не ограничен — продлевать нечего"

/-- A call. Without `userId` it comes from the client portal. -/
structure RedeemRequest where
  code : String
  clientName : String
  nodeId : Nat
  userId : Option Nat
  now : Time

/-- `_normalize_code(code)` -/
def RedeemRequest.codeText (req : RedeemRequest) : String := upper (stripped req.code)

def RedeemRequest.clientKey (req : RedeemRequest) : String := normalizeClientName req.clientName

/-! ## Checks before the reservation -/

def codeExpired (code : UnlockCode) (now : Time) : Bool :=
  match code.codeExpiresAt with
  | some t => decide (t ≤ now)
  | none => false

def checkCode (req : RedeemRequest) (found : Option UnlockCode) : Except RedeemError UnlockCode :=
  match found with
  | none => .error .invalid
  | some code =>
    if code.revokedAt.isSome then .error .revoked
    else if codeExpired code req.now then .error .expired
    else if code.allowedClientNames ≠ [] ∧ req.clientKey ∉ code.allowedClientNames then
      .error .clientNotAllowed
    else .ok code

/-- The owner in the user portal, `none` in the client portal. -/
def checkUser (db : Db) (req : RedeemRequest) : Except RedeemError (Option User) :=
  match req.userId with
  | none => .ok none
  | some id =>
    match db.users.row? id with
    | some user => .ok (some user)
    | none => .error .generic

/-- What the unique indexes tell apart: a user once for each code, a client of a
node without a user once for each code. -/
def sameRedeemer (a b : UnlockCodeRedemption) : Bool :=
  a.code = b.code && a.userId = b.userId &&
    (a.userId.isSome || (a.clientName = b.clientName && a.nodeId = b.nodeId))

def RedeemRequest.redemption (req : RedeemRequest) : UnlockCodeRedemption :=
  ⟨req.codeText, req.userId, req.clientKey, req.nodeId⟩

def alreadyRedeemed (db : Db) (req : RedeemRequest) : Bool :=
  db.redemptions.any fun r => sameRedeemer req.redemption r

/-- Client-bound codes extend every protocol the client has, the others those on
the code. -/
def protocolsApplied (code : UnlockCode) (clientProtocols : List Protocol) : List Protocol :=
  if code.allowedClientNames ≠ [] then
    [Protocol.openvpn, .wireguard, .amneziawg2].filter (· ∈ clientProtocols)
  else code.protocols.filter (· ∈ clientProtocols)

/-- The duplicate check, then the protocols the redemption applies to. -/
def checkDuplicate (db : Db) (req : RedeemRequest) (code : UnlockCode)
    (clientProtocols : List Protocol) : Except RedeemError (List Protocol) :=
  if alreadyRedeemed db req then .error .alreadyUsed
  else if protocolsApplied code clientProtocols = [] then .error .protocolMismatch
  else .ok (protocolsApplied code clientProtocols)

/-- The policy row of a protocol under the client's config name. -/
def profileKey (nodeId : Nat) (canonicalName : String) (protocol : Protocol) : PolicyKey :=
  match protocol with
  | .openvpn => ⟨.openvpn, nodeId, canonicalName⟩
  | p => ⟨p, nodeId, lower canonicalName⟩

theorem profileKey_protocol (nodeId : Nat) (canonicalName : String) (p : Protocol) :
    (profileKey nodeId canonicalName p).protocol = p := by
  cases p <;> rfl

theorem profileKey_injective (nodeId : Nat) (canonicalName : String) :
    Function.Injective (profileKey nodeId canonicalName) := by
  intro p q h
  rw [← profileKey_protocol nodeId canonicalName p, h, profileKey_protocol]

/-- `policy_rows`: the three rows of the profile are loaded one by one. -/
def policyProtocols : List Protocol := [.openvpn, .wireguard, .amneziawg2]

/-- `reason in ("manual_permanent", "manual_temp")`: of the stored words, those that
start with `manual`. -/
def manualReason (reason : Option BlockReason) : Bool :=
  reason = some .manualTemp || reason = some .manualPermanent

def isManualAdminBlock (row : Option PolicyRow) : Bool :=
  match row with
  | none => false
  | some row =>
    if row.isPermanentBlocked then true
    else if manualReason row.blockReason then true
    else if row.isTempBlocked && manualReason row.blockReason then true
    else false

theorem isManualAdminBlock_some (row : PolicyRow) :
    isManualAdminBlock (some row) =
      (row.isPermanentBlocked || manualReason row.blockReason) := by
  unfold isManualAdminBlock
  cases hPerm : row.isPermanentBlocked <;> cases hReason : manualReason row.blockReason <;>
    simp [hPerm, hReason]

/-! ## Reservation -/

/-- The `WHERE` of the reserving `UPDATE`. -/
def reservable (code : UnlockCode) (now : Time) : Bool :=
  code.revokedAt.isNone && decide (code.redemptionCount < code.maxRedemptions) &&
    !codeExpired code now

/-- Why a reservation missed, told from the refreshed row. -/
def missedReason (code : UnlockCode) (now : Time) : RedeemError :=
  if code.revokedAt.isSome then .revoked
  else if codeExpired code now then .expired
  else .limit

/-! ## What a redemption grants -/

def clearPolicyBlock (row : PolicyRow) (actor : String) : PolicyRow :=
  if row.isPermanentBlocked then row
  else if manualReason row.blockReason then row
  else unblockColumns row (some actor)

/-- A redemption on its way: what it has read, and its session. -/
structure Claim where
  code : UnlockCode
  canonicalName : String
  applied : List Protocol
  user : Option User
  session : PolicySession

/-- `policy_rows[protocol]` -/
def Claim.policyRow (claim : Claim) (nodeId : Nat) (protocol : Protocol) : Option PolicyRow :=
  (claim.session.objects.row? (profileKey nodeId claim.canonicalName protocol)).map (·.current)

def grantedUntil (deadline : Option Time) (now : Time) (days : Int) : Time :=
  max now (deadline.getD now) + timedeltaDays days

/-- `min(present) if present else now` -/
def profileBase (deadlines : List (Option Time)) (now : Time) : Time :=
  match deadlines.filterMap id with
  | [] => now
  | t :: rest => rest.foldl min t

/-- The deadline a protocol of the client gets: a client-bound code moves the whole
profile from its earliest deadline, another code moves each protocol from its own. -/
def clientGrant (policies : Table PolicyKey PolicyRow) (nodeId : Nat) (now : Time) (claim : Claim)
    (protocol : Protocol) : Time :=
  let deadline := fun p =>
    accessUntilOf (claim.session.view policies (profileKey nodeId claim.canonicalName p))
  if claim.code.allowedClientNames ≠ [] then
    max now (profileBase (claim.applied.map deadline) now) + timedeltaDays claim.code.grantDays
  else grantedUntil (deadline protocol) now claim.code.grantDays

/-- The loop body of a client-portal redemption. A row that was not there when the
policy rows were loaded is not cleared. -/
def grantProtocol (policies : Table PolicyKey PolicyRow) (nodeId : Nat) (now : Time)
    (claim : Claim) (s : PolicySession) (protocol : Protocol) : PolicySession :=
  let key := profileKey nodeId claim.canonicalName protocol
  let s :=
    match claim.policyRow nodeId protocol with
    | some row => s.write policies key (clearPolicyBlock row "unlock_codes")
    | none => s
  setAccessUntil s policies key (some (clientGrant policies nodeId now claim protocol))
    "unlock_codes"

def grantClient (policies : Table PolicyKey PolicyRow) (nodeId : Nat) (now : Time)
    (claim : Claim) : PolicySession :=
  claim.applied.foldl (grantProtocol policies nodeId now claim) claim.session

/-- The loop body of `extend_owned_clients_for_redeem`: the session and the rows
written so far. -/
def extendConfig (policies : Table PolicyKey PolicyRow) (now : Time) (days : Int)
    (protocols : List Protocol) (clientNames : Option (List String)) (userUntil : Option Time)
    (acc : PolicySession × List PolicyKey) (config : VpnConfig) :
    PolicySession × List PolicyKey :=
  match config.vpnType.protocol? with
  | none => acc
  | some protocol =>
    if userUntil.isNone && protocol ∉ protocols then acc
    else if clientNames.any fun names => lower (stripped config.clientName) ∉ names then acc
    else
      let key := configKey config protocol
      match accessUntilOf (acc.1.view policies key) with
      | none => acc
      | some deadline =>
        let newUntil :=
          match userUntil with
          | some t => max deadline t
          | none => max now deadline + timedeltaDays days
        if newUntil = deadline then acc
        else (setAccessUntil acc.1 policies key (some newUntil) "unlock_codes", acc.2 ++ [key])

/-- `extend_owned_clients_for_redeem`: the new subscription deadline, if it moves,
the session and the written rows. Unlimited clients stay unlimited. -/
def extendOwnedClients (db : Db) (userId : Nat) (user : User) (now : Time) (days : Int)
    (protocols : List Protocol) (clientNames : Option (List String)) (s : PolicySession) :
    Option Time × PolicySession × List PolicyKey :=
  let userUntil :=
    match user.accessUntil with
    | some current =>
      if clientNames.isNone then some (max now current + timedeltaDays days) else none
    | none => none
  (userUntil,
    (ownedConfigs db userId).foldl
      (extendConfig db.policies now days protocols clientNames userUntil) (s, []))

/-! ## Insert and commit -/

/-- The slot that the reservation took, once it is committed. -/
def countRedemption (codes : Table String UnlockCode) (codeText : String) :
    Table String UnlockCode :=
  match codes.row? codeText with
  | some code => codes.set codeText { code with redemptionCount := code.redemptionCount + 1 }
  | none => codes

/-- Insert the redemption and commit, or meet a unique index. -/
def commitRedemption (db : Db) (req : RedeemRequest) (userUntil : Option Time)
    (s : PolicySession) : Except RedeemError Db :=
  if alreadyRedeemed db req then .error .alreadyUsed
  else .ok { db with
    users :=
      match req.userId, userUntil with
      | some id, some t => db.users.set id { accessUntil := some t }
      | _, _ => db.users
    policies := s.commitInto changedColumns db.policies
    codes := countRedemption db.codes req.codeText
    redemptions := db.redemptions ++ [req.redemption] }

/-- What follows the reservation, up to the commit. -/
def grantAndCommit (db : Db) (req : RedeemRequest) (claim : Claim) : Except RedeemError Db :=
  match req.userId, claim.user with
  | some id, some user =>
    let clientNames :=
      if claim.code.allowedClientNames ≠ [] then some claim.code.allowedClientNames else none
    let protocols :=
      if claim.code.allowedClientNames ≠ [] then policyProtocols else claim.code.protocols
    let (userUntil, s, changed) :=
      extendOwnedClients db id user req.now claim.code.grantDays protocols clientNames
        claim.session
    if userUntil.isNone && changed.isEmpty then .error .nothingToExtend
    else commitRedemption db req userUntil s
  | _, _ =>
    commitRedemption db req none (grantClient db.policies req.nodeId req.now claim)

/-! ## The call without interruption -/

/-- The three policy rows of the profile are loaded into the session. -/
def loadPolicies (policies : Table PolicyKey PolicyRow) (nodeId : Nat) (canonicalName : String)
    (s : PolicySession) : PolicySession :=
  policyProtocols.foldl (fun s p => s.load policies (profileKey nodeId canonicalName p)) s

def manuallyBlocked (nodeId : Nat) (claim : Claim) : Bool :=
  claim.applied.any fun p => isManualAdminBlock (claim.policyRow nodeId p)

/-- Raise unless the check holds. -/
def ensure (check : Bool) (e : RedeemError) : Except RedeemError Unit :=
  if check then .ok () else .error e

/-- The database after the commit, and the claim that was committed. -/
def redeemCommitted (db : Db) (req : RedeemRequest) : Except RedeemError (Db × Claim) := do
  ensure (decide (req.nodeId ∈ db.nodes)) .nodeNotFound
  let code ← checkCode req (db.codes.row? req.codeText)
  let (canonicalName, clientProtocols) :=
    clientConfigNameAndProtocols db req.nodeId req.clientKey
  let user ← checkUser db req
  let applied ← checkDuplicate db req code clientProtocols
  let claim : Claim :=
    ⟨code, canonicalName, applied, user, loadPolicies db.policies req.nodeId canonicalName .empty⟩
  ensure (!manuallyBlocked req.nodeId claim) .manualBlock
  ensure (reservable code req.now) (missedReason code req.now)
  let db' ← grantAndCommit db req claim
  return (db', claim)

/-! ## The reconcile after the commit -/

/-- What a reconcile that follows a redemption does to the policy row; a missing
row is left alone. -/
def reconcileKey (policies : Table PolicyKey PolicyRow) (key : PolicyKey) (r : Reading) :
    Table PolicyKey PolicyRow :=
  match policies.row? key with
  | none => policies
  | some row =>
    match key.protocol with
    | .openvpn => policies.set key (reconcileOpenvpn row r false).1
    | .wireguard => policies.set key (reconcileWg row r true true false).1
    | .amneziawg2 => policies.set key (reconcileAwg2 row r true true false).1

/-- The rows a redemption reconciles: those of the client, or those of the user. -/
def reconciledKeys (db : Db) (req : RedeemRequest) (claim : Claim) : List PolicyKey :=
  match req.userId with
  | none => claim.applied.map (profileKey req.nodeId claim.canonicalName)
  | some id =>
    (ownedConfigs db id).filterMap fun c => c.vpnType.protocol?.map (configKey c)

/-- `redeem_unlock_code` whose reconciles succeed. `consumed` is the traffic of
each row's client. -/
def redeemUnlockCode (db : Db) (req : RedeemRequest) (consumed : PolicyKey → Option Int → Int) :
    Except RedeemError Db := do
  let (db', claim) ← redeemCommitted db req
  return { db' with
    policies := (reconciledKeys db' req claim).foldl
      (fun policies key => reconcileKey policies key ⟨req.now, consumed key⟩) db'.policies }

end AdminPanel.Unlock
