import AdminPanel.Access.Operations
import AdminPanel.Lib.Session
import Mathlib.Data.List.Sort

/-!
# The panel database

The tables that access control and unlock codes work on: nodes, users, VPN
configs, the policy rows of three protocols, unlock codes and their redemptions.

* `Db` — the committed state;
* `PolicyKey` — the unique key of a policy row, `(node_id, client_name)` in the
  table of its protocol;
* `PolicySession` — a SQLAlchemy session over the policy rows, with
  `changedColumns` as its write-back;
* `clientConfigNameAndProtocols`, `ownedConfigs` — the lookups of a client and of
  a user.

Codes are addressed by their text, which is unique; JSON columns stand for the
lists they hold.
-/

namespace AdminPanel.Panel

open Lib (Table Session)
open Lib.PyText (strip)
open Access

/-! ## Names -/

/-- `str.lower()`, for the letters a client name can have. -/
def lower (s : String) : String := String.ofList (s.toList.map Char.toLower)

/-- `str.upper()`, for the letters a code can have. -/
def upper (s : String) : String := String.ofList (s.toList.map Char.toUpper)

def stripped (s : String) : String := String.ofList (strip s.toList)

def normalizeClientName (clientName : String) : String := lower (stripped clientName)

/-! ## Rows -/

inductive VpnType where
  | openvpn
  | wireguard
  | amneziawg2
  | amneziawg3
  deriving DecidableEq, Repr

def VpnType.value : VpnType → String
  | .openvpn => "openvpn"
  | .wireguard => "wireguard"
  | .amneziawg2 => "amneziawg2"
  | .amneziawg3 => "amneziawg3"

/-- `_VPN_PROTOCOLS.get` -/
def VpnType.protocol? : VpnType → Option Protocol
  | .openvpn => some .openvpn
  | .wireguard => some .wireguard
  | .amneziawg2 => some .amneziawg2
  | .amneziawg3 => none

/-- A row of `vpn_configs`; `haReplica` says that `ha_primary_config_id` is set. -/
structure VpnConfig where
  nodeId : Nat
  clientName : String
  vpnType : VpnType
  ownerId : Option Nat
  haReplica : Bool
  deriving DecidableEq, Repr

structure PolicyKey where
  protocol : Protocol
  nodeId : Nat
  clientName : String
  deriving DecidableEq, Repr

structure User where
  accessUntil : Option Time
  deriving DecidableEq, Repr

/-- A row of `unlock_codes`, as `create_unlock_code` lets it be built. -/
structure UnlockCode where
  grantDays : Int
  protocols : List Protocol
  maxRedemptions : Nat
  redemptionCount : Nat
  allowedClientNames : List String
  codeExpiresAt : Option Time
  revokedAt : Option Time
  grantDays_pos : 1 ≤ grantDays
  protocols_nodup : protocols.Nodup

structure UnlockCodeRedemption where
  code : String
  userId : Option Nat
  clientName : String
  nodeId : Nat
  deriving DecidableEq, Repr

structure Db where
  nodes : List Nat
  users : Table Nat User
  configs : List VpnConfig
  policies : Table PolicyKey PolicyRow
  codes : Table String UnlockCode
  redemptions : List UnlockCodeRedemption

/-! ## Sessions over the policy rows -/

abbrev PolicySession := Session PolicyKey PolicyRow

/-- The stored row with the columns that `current` changed against `loaded`: the
`UPDATE` of a flush sets no other column. -/
def changedColumns (loaded current stored : PolicyRow) : PolicyRow where
  accessUntil := if current.accessUntil = loaded.accessUntil then stored.accessUntil
    else current.accessUntil
  isTempBlocked := if current.isTempBlocked = loaded.isTempBlocked then stored.isTempBlocked
    else current.isTempBlocked
  isPermanentBlocked :=
    if current.isPermanentBlocked = loaded.isPermanentBlocked then stored.isPermanentBlocked
    else current.isPermanentBlocked
  blockReason := if current.blockReason = loaded.blockReason then stored.blockReason
    else current.blockReason
  blockStartedAt := if current.blockStartedAt = loaded.blockStartedAt then stored.blockStartedAt
    else current.blockStartedAt
  blockDays := if current.blockDays = loaded.blockDays then stored.blockDays
    else current.blockDays
  blockUntil := if current.blockUntil = loaded.blockUntil then stored.blockUntil
    else current.blockUntil
  trafficLimitBytes :=
    if current.trafficLimitBytes = loaded.trafficLimitBytes then stored.trafficLimitBytes
    else current.trafficLimitBytes
  trafficLimitPeriodDays :=
    if current.trafficLimitPeriodDays = loaded.trafficLimitPeriodDays then
      stored.trafficLimitPeriodDays
    else current.trafficLimitPeriodDays
  updatedBy := if current.updatedBy = loaded.updatedBy then stored.updatedBy
    else current.updatedBy

/-- Writing back to the row as it was loaded leaves the object's values. -/
theorem changedColumns_fresh (loaded current : PolicyRow) :
    changedColumns loaded current loaded = current := by
  cases loaded
  cases current
  simp only [changedColumns, PolicyRow.mk.injEq]
  refine ⟨?_, ?_, ?_, ?_, ?_, ?_, ?_, ?_, ?_, ?_⟩
  all_goals
    split
    · next h => exact h.symm
    · rfl

def policyClientName (protocol : Protocol) (clientName : String) : String :=
  match protocol with
  | .openvpn => stripped clientName
  | _ => lower (stripped clientName)

/-- The deadline that an access to the policy row sees (`_row_access_until`). -/
def accessUntilOf (row : Option PolicyRow) : Option Time := row.bind (·.accessUntil)

/-- The deadline stored in the policy row. -/
def deadlineAt (db : Db) (key : PolicyKey) : Option Time := accessUntilOf (db.policies.row? key)

/-- `set_access_until(..., commit=False)`: a missing row is created. -/
def setAccessUntil (s : PolicySession) (policies : Table PolicyKey PolicyRow) (key : PolicyKey)
    (accessUntil : Option Time) (actor : String) : PolicySession :=
  s.write policies key
    (accessUntilColumns ((s.view policies key).getD {}) accessUntil (some actor))

/-! ## Lookups -/

/-- `_client_config_name_and_protocols`. Without a config the policy rows tell the
name and the protocols. Of the protocols only the three of unlock codes matter. -/
def clientConfigNameAndProtocols (db : Db) (nodeId : Nat) (clientName : String) :
    String × List Protocol :=
  let clientKey := normalizeClientName clientName
  let rows := db.configs.filter fun c =>
    c.nodeId = nodeId && lower c.clientName = clientKey && !c.haReplica
  match rows with
  | first :: _ => (stripped first.clientName, rows.filterMap (·.vpnType.protocol?))
  | [] =>
    let named := fun protocol => db.policies.keys.filter fun k =>
      k.protocol = protocol && k.nodeId = nodeId && lower k.clientName = clientKey
    let canonicalName :=
      match named .openvpn with
      | k :: _ => if stripped k.clientName = "" then clientKey else stripped k.clientName
      | [] => clientKey
    (canonicalName,
      [Protocol.openvpn, .wireguard, .amneziawg2].filter fun p => !(named p).isEmpty)

def configLe (a b : VpnConfig) : Bool :=
  a.nodeId < b.nodeId ||
    (a.nodeId = b.nodeId && (a.clientName < b.clientName ||
      (a.clientName = b.clientName && decide (a.vpnType.value ≤ b.vpnType.value))))

def ownedConfigs (db : Db) (userId : Nat) : List VpnConfig :=
  (db.configs.filter fun c => c.ownerId = some userId && !c.haReplica).insertionSort
    fun a b => configLe a b

/-- The policy row of a config. -/
def configKey (c : VpnConfig) (protocol : Protocol) : PolicyKey :=
  ⟨protocol, c.nodeId, policyClientName protocol c.clientName⟩

end AdminPanel.Panel
