import AdminPanel.Access.WgNode
import AdminPanel.Access.Awg3
import AdminPanel.Panel.Database

/-!
# Access policies on an HA replica

`policy_sync.py` and `policy_import.py`: a policy operation is repeated on every
replica (`replicate_policy_op`), and a drifted replica gets the primary's rows
(`heal_policy_drift`). Both end in the calls of the access services, so a replica is
a node with its policy tables and its live peers.

* `HaNode`, `NodeTraffic` — a node, and the clock with the traffic counters that its
  services read (every node counts its own traffic);
* `applyPolicyOp` — `_apply_policy_op` over the four services;
* `replicatePolicyOp`, `healPolicyDrift` — the part of either function that
  concerns one replica, with runtime calls that succeed.

Client names stand for the names under which a service keys the row.
-/

namespace AdminPanel.NodeSync

open Lib (Table)
open Access
open Panel (VpnType)

/-! ## Nodes -/

structure Awg3Node where
  policies : Table String Awg3Row
  present : String → Bool

/-- A node. The AmneziaWG2 part has the same shape as the WireGuard part. -/
structure HaNode where
  openvpn : Table String PolicyRow
  wireguard : WgNode
  amneziawg2 : WgNode
  amneziawg3 : Awg3Node

/-- The clock and the traffic counters of one node. -/
structure NodeTraffic where
  now : Time
  consumed : VpnType → String → Option Int → Int

def NodeTraffic.reading (t : NodeTraffic) (vpnType : VpnType) : NodeReading :=
  ⟨t.now, t.consumed vpnType⟩

/-- A row of one of the four policy tables. -/
inductive AccessRow where
  | policy (row : PolicyRow)
  | awg3 (row : Awg3Row)
  deriving DecidableEq, Repr

namespace HaNode

def row? (n : HaNode) : VpnType → String → Option AccessRow
  | .openvpn, name => (n.openvpn.row? name).map .policy
  | .wireguard, name => (n.wireguard.policies.row? name).map .policy
  | .amneziawg2, name => (n.amneziawg2.policies.row? name).map .policy
  | .amneziawg3, name => (n.amneziawg3.policies.row? name).map .awg3

/-- The policy of a client says that it is blocked. -/
def blocked (n : HaNode) (t : NodeTraffic) (vpnType : VpnType) (name : String) : Bool :=
  match n.row? vpnType name with
  | some (.policy row) => isBlocked row ((t.reading vpnType).client name)
  | some (.awg3 row) => (Awg3.stateOf row t.now).isBlocked
  | none => false

/-- The client's peers are in the runtime; OpenVPN has no peers. -/
def live (n : HaNode) : VpnType → String → Bool
  | .openvpn, _ => true
  | .wireguard, name => n.wireguard.present name
  | .amneziawg2, name => n.amneziawg2.present name
  | .amneziawg3, name => n.amneziawg3.present name

end HaNode

/-! ## The services of a node -/

section

variable (vpnType : VpnType)

/-- The rows that a re-block pass looks at: `_reapply_all_blocked_runtime` passes over
the node default, `_reapply_all_blocked_awg2_runtime` over none. -/
def reblockCovers (name : String) : Bool :=
  match vpnType with
  | .wireguard => !isNodeDefaultPolicyClient name
  | _ => true

/-- Commit the row of a client and make its runtime call, with the re-block pass. -/
def commitPeer (n : WgNode) (r : NodeReading) (name : String) (result : PeerResult) : WgNode :=
  let n := { n with policies := n.policies.set name result.1 }
  match result.2 with
  | none => n
  | some call =>
    let n := n.applyWgClientRuntime name call.isBlocked
    if call.reapply then
      n.blockAll (n.policies.keys.filter fun other =>
        reblockCovers vpnType other && other ≠ name && n.blocked r other)
    else n

/-- `PolicyOp` of `policy_sync.py`. -/
inductive SyncOp where
  | blockTemp (days : Int)
  | blockPermanent
  | unblock
  | setTrafficLimit (limitBytes : Int) (periodDays : Option Int)
  | clearTrafficLimit
  | setWgExpiry (days : Int) (extend : Bool)
  | setAccessUntil (accessUntil : Option Time)
  deriving DecidableEq, Repr

/-- `_COPY_OPS` -/
def SyncOp.copies : SyncOp → Bool
  | .setTrafficLimit _ _ => true
  | .clearTrafficLimit => true
  | .setAccessUntil _ => true
  | _ => false

/-- The operation of the OpenVPN, WireGuard and AmneziaWG2 services. -/
def SyncOp.toPolicyOp? : SyncOp → Option PolicyOp
  | .blockTemp days => some (.tempBlock days)
  | .blockPermanent => some .permanentBlock
  | .unblock => some .unblock
  | .setTrafficLimit limitBytes periodDays => some (.setTrafficLimit limitBytes periodDays)
  | .clearTrafficLimit => some .clearTrafficLimit
  | .setWgExpiry _ _ => none
  | .setAccessUntil t => some (.setAccessUntil t)

/-- The operation of the AmneziaWG 3 service. -/
def SyncOp.toBlockOp? : SyncOp → Option BlockOp
  | .blockTemp days => some (.tempBlock days)
  | .blockPermanent => some .permanentBlock
  | .unblock => some .unblock
  | .setAccessUntil t => some (.setAccessUntil t)
  | _ => none

inductive SyncError where
  | policy (e : PolicyError)
  | unsupported
  | shadowNotFound
  deriving DecidableEq, Repr

/-- What an operation makes of the row of a WireGuard or AmneziaWG2 client. -/
def peerSyncOp (op : SyncOp) (actor : Option String) (r : Reading) (row : PolicyRow) :
    Except SyncError PeerResult :=
  match vpnType, op with
  | .wireguard, .setWgExpiry days extend => .ok (wgSetExpiry row days extend actor r)
  | _, op =>
    match op.toPolicyOp? with
    | none => .error .unsupported
    | some o => (if vpnType = .wireguard then wgOp o actor r row else awg2Op o actor r row).mapError
        .policy

/-- `_apply_policy_op` on a node whose runtime calls succeed; a missing row is created. -/
def applyPolicyOp (n : HaNode) (t : NodeTraffic) (vpnType : VpnType) (name : String)
    (op : SyncOp) (actor : Option String) : Except SyncError HaNode :=
  match vpnType with
  | .openvpn =>
    match op.toPolicyOp? with
    | none => .error .unsupported
    | some o =>
      match openvpnOp o actor ((t.reading .openvpn).client name)
          ((n.openvpn.row? name).getD {}) with
      | .error e => .error (.policy e)
      | .ok row => .ok { n with openvpn := n.openvpn.set name row }
  | .wireguard =>
    (peerSyncOp .wireguard op actor ((t.reading .wireguard).client name)
        ((n.wireguard.policies.row? name).getD {})).map fun result =>
      { n with wireguard := commitPeer .wireguard n.wireguard (t.reading .wireguard) name result }
  | .amneziawg2 =>
    (peerSyncOp .amneziawg2 op actor ((t.reading .amneziawg2).client name)
        ((n.amneziawg2.policies.row? name).getD {})).map fun result =>
      { n with
        amneziawg2 := commitPeer .amneziawg2 n.amneziawg2 (t.reading .amneziawg2) name result }
  | .amneziawg3 =>
    match op.toBlockOp? with
    | none => .error .unsupported
    | some o =>
      let node := n.amneziawg3
      let after := (Awg3.op o actor t.now ((node.policies.row? name).getD {})).run false
        (node.present name)
      .ok { n with
        amneziawg3 := ⟨node.policies.set name after.row,
          Function.update node.present name after.live⟩ }

/-! ## policy_import.py -/

/-- Copy a row onto the row of the same client; the two rows have the same policy fields,
so it is the source row that ends up there. -/
def copyRow {ρ : Type} (source target : Table String ρ) (name : String) : Table String ρ :=
  match source.row? name with
  | some row => target.set name row
  | none => target

def copySingleClientPolicy (source target : HaNode) (vpnType : VpnType) (name : String) : HaNode :=
  match vpnType with
  | .openvpn => { target with openvpn := copyRow source.openvpn target.openvpn name }
  | .wireguard => { target with wireguard := { target.wireguard with
      policies := copyRow source.wireguard.policies target.wireguard.policies name } }
  | .amneziawg2 => { target with amneziawg2 := { target.amneziawg2 with
      policies := copyRow source.amneziawg2.policies target.amneziawg2.policies name } }
  | .amneziawg3 => { target with amneziawg3 := { target.amneziawg3 with
      policies := copyRow source.amneziawg3.policies target.amneziawg3.policies name } }

def copyPoliciesForModel {ρ : Type} (source target : Table String ρ) : Table String ρ :=
  target.absorb source fun row _ => row

/-- `copy_access_policies_from_node`: three of the four tables. -/
def copyAccessPoliciesFromNode (source target : HaNode) : HaNode :=
  { target with
    openvpn := copyPoliciesForModel source.openvpn target.openvpn
    wireguard := { target.wireguard with
      policies := copyPoliciesForModel source.wireguard.policies target.wireguard.policies }
    amneziawg2 := { target.amneziawg2 with
      policies := copyPoliciesForModel source.amneziawg2.policies target.amneziawg2.policies } }

/-! ## policy_sync.py -/

/-- The body of `replicate_policy_op` for one replica: `ok` is an entry of `applied`. -/
def replicatePolicyOp (primary replica : HaNode) (hasShadow : Bool) (t : NodeTraffic)
    (vpnType : VpnType) (name : String) (op : SyncOp) (actor : Option String) :
    Except SyncError HaNode :=
  if !hasShadow then .error .shadowNotFound
  else
    let replica :=
      if op.copies then copySingleClientPolicy primary replica vpnType name else replica
    applyPolicyOp replica t vpnType name op actor

/-- `reconcile_wg` or `reconcile_awg2` on a client. -/
def reconcileClient (r : NodeReading) (n : WgNode) (name : String) : WgNode :=
  match n.policies.row? name with
  | none => n
  | some row => commitPeer vpnType n r name (reconcilePeer row (r.client name) true false false)

/-- The rows a heal reconciles: the node default is left out of the WireGuard rows only. -/
def healReconciles (name : String) : Bool :=
  match vpnType with
  | .amneziawg2 => true
  | _ => !isNodeDefaultPolicyClient name

def healPeers (r : NodeReading) (n : WgNode) : WgNode :=
  (n.policies.keys.filter (healReconciles vpnType)).foldl (reconcileClient vpnType r) n

end

/-- The body of `heal_policy_drift` for one replica, an entry of `successes`. -/
def healPolicyDrift (primary replica : HaNode) (t : NodeTraffic) : HaNode :=
  let copied := copyAccessPoliciesFromNode primary replica
  { copied with
    openvpn := copied.openvpn.mapRows fun name row =>
      if healReconciles .openvpn name then
        (reconcileOpenvpn row ((t.reading .openvpn).client name) false).1
      else row
    wireguard := healPeers .wireguard (t.reading .wireguard) copied.wireguard
    amneziawg2 := healPeers .amneziawg2 (t.reading .amneziawg2) copied.amneziawg2 }

end AdminPanel.NodeSync
