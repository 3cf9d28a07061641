import AdminPanel.NodeSync.CryptoSync

/-!
# The status of a sync group

`sync_status` is one word, written by whatever replication ran last. An operation that
fails on a replica leaves its change missing there, and the status says so until the next
operation: a success of any other one overwrites it, a target that was offline counts
neither as a success nor as an error, and a deletion or a heal clears the error text.

* `GroupOp.run` — what each operation makes of the status;
* `GroupOp.owes`, `GroupOp.copies` — the change that an operation is for, and what it brings to a
  replica, from what it meets;
* `NothingHidden` — a synced group misses nothing, a failed one has its error text;
* `sync_status_honest` — when a run keeps that, step by step.
-/

namespace AdminPanel.NodeSync.Status

open List Lib
open Panel (VpnType)

/-! ## The group -/

inductive SyncStatus
  | unknown
  | synced
  | pending
  | failed
  | drift
  deriving DecidableEq, Repr

/-- The two columns of a `node_sync_groups` row. -/
structure GroupRow where
  syncStatus : SyncStatus
  lastSyncError : Option String := none
  deriving DecidableEq, Repr

/-- The replicas of an auto-sync group, as `get_replica_nodes` returns them. -/
structure Group where
  replicas : List Nat
  nodeName : Nat → String

structure ClientKey where
  clientName : String
  vpnType : VpnType
  deriving DecidableEq, Repr

/-- How one replica's turn in a loop ends: `drift` is a `ReplicaRuntimeError`. -/
inductive TurnEnd
  | ok
  | drift (error : String)
  | failed (error : String)
  deriving DecidableEq, Repr

/-- What one operation meets. -/
structure OpEnv where
  /-- It raises before the first replica: no adapter for the primary, an unreadable file. -/
  aborts : Bool := false
  turn : Nat → TurnEnd := fun _ => .ok
  /-- The nodes of the shadow rows of the client. -/
  shadowNodes : List Nat := []
  /-- The replica is an online VPN node. -/
  takesFiles : Nat → Bool := fun _ => true
  /-- The archive of the primary has no WireGuard profiles, and those of one client are copied. -/
  archiveEmpty : Bool := false
  /-- The agent of the primary or of the replica does not know the file. -/
  unsupported : Nat → String → Bool := fun _ _ => false
  /-- `node_sync_auto_replicate_policies` -/
  autoReplicatePolicies : Bool := true

/-! ## replicate.py -/

/-- The lists that a loop over replicas fills; without a clause of its own a runtime error
is an error like any other. -/
def collect (catchesDrift : Bool) (turns : List (Nat × TurnEnd)) : ReplicateResult String where
  successes := turns.filterMap fun (node, turn) =>
    match turn with
    | .ok => some (node, none)
    | .drift _ => if catchesDrift then some (node, none) else none
    | .failed _ => none
  errors := turns.filterMap fun (node, turn) =>
    match turn with
    | .ok => none
    | .drift error => if catchesDrift then none else some (some node, error)
    | .failed error => some (some node, error)
  drifts := turns.filterMap fun (node, turn) =>
    match turn with
    | .ok => none
    | .drift error => if catchesDrift then some (node, error) else none
    | .failed _ => none

def finalizeReplicateOutcome (result : ReplicateResult String) (setSyncedOnSuccess : Bool)
    (row : GroupRow) : GroupRow :=
  if row.syncStatus = .pending then row
  else match result.errors, result.drifts with
    | (_, error) :: _, _ => { syncStatus := .failed, lastSyncError := some error }
    | [], (_, error) :: _ => { syncStatus := .drift, lastSyncError := some error }
    | [], [] =>
      if setSyncedOnSuccess then { syncStatus := .synced, lastSyncError := none }
      else { row with lastSyncError := none }

inductive ReplicateOperation
  | clientCreate
  | clientDelete
  | clientRenewCert
  | clientMetadataPatch
  | policyApply
  | policyCopyAll
  | configFilesWrite
  | antizapretSettingsPatch
  | routingApply
  | cidrDeployFiles
  | openvpnDisconnect
  deriving DecidableEq, Repr

def ReplicateOperation.value : ReplicateOperation → String
  | .clientCreate => "client_create"
  | .clientDelete => "client_delete"
  | .clientRenewCert => "client_renew_cert"
  | .clientMetadataPatch => "client_metadata_patch"
  | .policyApply => "policy_apply"
  | .policyCopyAll => "policy_copy_all"
  | .configFilesWrite => "config_files_write"
  | .antizapretSettingsPatch => "antizapret_settings_patch"
  | .routingApply => "routing_apply"
  | .cidrDeployFiles => "cidr_deploy_files"
  | .openvpnDisconnect => "openvpn_disconnect"

section

variable (g : Group) (client : ClientKey) (env : OpEnv)

/-- The turns of a loop over all replicas. -/
def replicaTurns : List (Nat × TurnEnd) := g.replicas.map fun node => (node, env.turn node)

/-- The turns of a loop over the shadow rows. -/
def shadowTurns : List (Nat × TurnEnd) :=
  (env.shadowNodes.filter (· ∈ g.replicas)).map fun node => (node, env.turn node)

/-- The turns of a loop over all replicas that needs a shadow row on each. -/
def linkedTurns : List (Nat × TurnEnd) :=
  g.replicas.map fun node =>
    if node ∈ env.shadowNodes then (node, env.turn node)
    else (node, .failed ("shadow VpnConfig not found for client " ++ client.clientName ++
      " on replica " ++ g.nodeName node))

/-- A handler; `none` when it raises. -/
abbrev Handler := Group → ClientKey → OpEnv → Option (ReplicateResult String)

def handleClientCreate : Option (ReplicateResult String) :=
  if env.aborts then none else some (collect true (replicaTurns g env))

def handleClientDelete : Option (ReplicateResult String) :=
  if env.aborts then none else some (collect true (shadowTurns g env))

def handleClientRenewCert : Option (ReplicateResult String) :=
  if client.vpnType ≠ .openvpn then
    some { errors := [(none, "cert renew applies only to OpenVPN clients")] }
  else if env.aborts then none
  else some (collect false (replicaTurns g env))

/-- A row is written without a call to the replica. -/
def handleClientMetadataPatch : Option (ReplicateResult String) :=
  some (collect false (linkedTurns g client { env with turn := fun _ => .ok }))

end

def stubNotImplemented (operation : ReplicateOperation) : ReplicateResult String :=
  { errors := [(none, operation.value ++ " is not implemented yet")] }

structure OperationSpec where
  handler : Option Handler
  setSyncedOnSuccess : Bool := true

def operationRegistry : ReplicateOperation → Option OperationSpec
  | .clientCreate => some { handler := some fun g _ env => handleClientCreate g env }
  | .clientDelete =>
    some { handler := some fun g _ env => handleClientDelete g env, setSyncedOnSuccess := false }
  | .clientRenewCert => some { handler := some handleClientRenewCert }
  | .clientMetadataPatch => some { handler := some handleClientMetadataPatch }
  | .policyApply => some { handler := none }
  | .policyCopyAll => some { handler := none }
  | .configFilesWrite => some { handler := none }
  | .antizapretSettingsPatch => some { handler := none }
  | .routingApply => some { handler := none }
  | .cidrDeployFiles => some { handler := none }
  | .openvpnDisconnect => none

section

variable (g : Group) (env : OpEnv)

/-- `replicate_to_replicas` on an auto-sync group. -/
def replicateToReplicas (operation : ReplicateOperation) (client : ClientKey) (row : GroupRow) :
    GroupRow :=
  match operationRegistry operation with
  | none =>
    finalizeReplicateOutcome
      { errors := [(none, "unknown replicate operation: " ++ operation.value)] } false row
  | some spec =>
    match spec.handler with
    | none => finalizeReplicateOutcome (stubNotImplemented operation) false row
    | some handler =>
      match handler g client env with
      | none => row
      | some result => finalizeReplicateOutcome result spec.setSyncedOnSuccess row

/-! ## policy_sync.py, config_sync.py, vpn_state_sync.py -/

def replicatePolicyOp (client : ClientKey) (row : GroupRow) : GroupRow :=
  if !env.autoReplicatePolicies then row
  else if env.aborts then row
  else finalizeReplicateOutcome (collect false (linkedTurns g client env)) true row

/-- A missing primary is answered without a word to the group. -/
def healPolicyDrift (row : GroupRow) : GroupRow :=
  if !env.autoReplicatePolicies then row
  else if env.aborts then row
  else finalizeReplicateOutcome (collect false (replicaTurns g env)) false row

def editableFiles : List (String × String) :=
  [("include_hosts", "include-hosts.txt"), ("exclude_hosts", "exclude-hosts.txt"),
    ("include_ips", "include-ips.txt"), ("exclude_ips", "exclude-ips.txt"),
    ("allow_ips", "allow-ips.txt"), ("drop_ips", "drop-ips.txt"),
    ("forward_ips", "forward-ips.txt"), ("include_adblock_hosts", "include-adblock-hosts.txt"),
    ("exclude_adblock_hosts", "exclude-adblock-hosts.txt"), ("remove_hosts", "remove-hosts.txt"),
    ("deny_ips", "deny-ips.txt"), ("include_warp_hosts", "include-warp-hosts.txt"),
    ("exclude_warp_hosts", "exclude-warp-hosts.txt"), ("deny_rpz", "deny-rpz.txt"),
    ("deny2_rpz", "deny2-rpz.txt"), ("warp_rpz", "warp-rpz.txt"), ("proxy_rpz", "proxy-rpz.txt"),
    ("kresd_custom", "custom.lua"), ("kresd_custom2", "custom2.lua")]

def configFingerprintExclude : List String := ["warper-include-ips.txt"]

def isExcludedFileKey (key : String) : Bool :=
  (editableFiles.lookup key).any (· ∈ configFingerprintExclude)

/-- The first list of `_filter_replicable_file_keys`. -/
def filterReplicableFileKeys (fileKeys : List String) : List String :=
  fileKeys.eraseDups.filter fun key => !isExcludedFileKey key

inductive TransferStatus
  | success
  | failed (error : String)
  | skipped
  deriving DecidableEq, Repr

/-- The entries `per_node` of `run_edit_files_transfer`. -/
def perNode : List (Nat × TransferStatus) :=
  (g.replicas.filter fun node => !env.takesFiles node).map (·, .skipped) ++
    (g.replicas.filter env.takesFiles).map fun node =>
      match env.turn node with
      | .ok => (node, .success)
      | .drift error => (node, .failed error)
      | .failed error => (node, .failed error)

def transferResultToReplicateResult (perNode : List (Nat × TransferStatus)) :
    ReplicateResult String where
  successes := perNode.filterMap fun (node, status) =>
    match status with
    | .success => some (node, none)
    | .failed _ => none
    | .skipped => none
  errors := perNode.filterMap fun (node, status) =>
    match status with
    | .success => none
    | .failed error => some (some node, error)
    | .skipped => none

def replicateConfigFiles (fileKeys : List String) (row : GroupRow) : GroupRow :=
  if g.replicas.isEmpty then finalizeReplicateOutcome {} true row
  else if (filterReplicableFileKeys fileKeys).isEmpty then finalizeReplicateOutcome {} true row
  else if env.aborts then row
  else finalizeReplicateOutcome (transferResultToReplicateResult (perNode g env)) true row

/-- `replicate_primary_crypto_to_replicas` writes the status itself. -/
def replicatePrimaryCryptoToReplicas (row : GroupRow) : GroupRow :=
  if env.aborts then row
  else
    let result := collect true (replicaTurns g env)
    if row.syncStatus = .pending then row
    else match result.errors, result.drifts, result.successes with
      | (_, error) :: _, _, _ => { syncStatus := .failed, lastSyncError := some error }
      | [], (_, error) :: _, _ => { syncStatus := .drift, lastSyncError := some error }
      | [], [], _ :: _ => { syncStatus := .synced, lastSyncError := none }
      | [], [], [] => row

end

/-! ## Changes -/

/-- What an operation is to bring to every replica. -/
inductive Change
  /-- The server state of the client's protocol with this client in it, or without. -/
  | vpnState (client : ClientKey)
  | shadow (client : ClientKey)
  | shadowGone (client : ClientKey)
  | certDates (client : ClientKey)
  | metadata (client : ClientKey)
  | policy (client : ClientKey) (op : SyncOp)
  | policyCopy
  | configFile (key : String)
  | unimplemented (operation : ReplicateOperation)
  deriving DecidableEq

inductive GroupOp
  | replicate (operation : ReplicateOperation) (client : ClientKey)
  | policyOp (client : ClientKey) (op : SyncOp)
  | healPolicyDrift
  | configFiles (fileKeys : List String) (skipUnsupported : Bool)
  | primaryCrypto (client : ClientKey)

/-- The changes of the operation. -/
def GroupOp.owes : GroupOp → Change → Bool
  | .replicate .clientCreate client, c => c ∈ [.vpnState client, .shadow client]
  | .replicate .clientDelete client, c => c ∈ [.vpnState client, .shadowGone client]
  | .replicate .clientRenewCert client, c => c ∈ [.vpnState client, .certDates client]
  | .replicate .clientMetadataPatch client, c => c = .metadata client
  | .replicate operation _, c => c = .unimplemented operation
  | .policyOp client op, c => c = .policy client op
  | .healPolicyDrift, c => c = .policyCopy
  | .configFiles fileKeys _, .configFile key => key ∈ filterReplicableFileKeys fileKeys
  | .configFiles _ _, _ => false
  | .primaryCrypto client, c => c = .vpnState client

/-- The protocol whose state `sync_vpn_crypto_from_primary` copies. -/
def copiedProtocol : VpnType → VpnType
  | .openvpn => .openvpn
  | .amneziawg2 => .amneziawg2
  -- there is no branch for AmneziaWG 3
  | .wireguard | .amneziawg3 => .wireguard

section

variable (g : Group) (env : OpEnv)

/-- A copy of the server state for the client brings the change of the other one. -/
def bringsState (client other : ClientKey) : Bool :=
  copiedProtocol client.vpnType = other.vpnType && (!env.archiveEmpty || other = client)

/-- The turn went past the copy: a runtime error is noted, and the row is written. -/
def rowWritten (r : Nat) : Bool :=
  match env.turn r with
  | .ok | .drift _ => true
  | .failed _ => false

/-- The operation brings the change to the replica, its own one or an earlier one. -/
def GroupOp.copies (r : Nat) : GroupOp → Change → Bool
  | .replicate .clientCreate client, .vpnState other =>
    !env.aborts && env.turn r = .ok && bringsState env client other
  | .replicate .clientCreate client, .shadow other =>
    !env.aborts && rowWritten env r && other = client
  | .replicate .clientDelete client, .vpnState other =>
    !env.aborts && r ∈ env.shadowNodes && env.turn r = .ok && bringsState env client other
  | .replicate .clientDelete client, .shadowGone other =>
    !env.aborts && r ∈ env.shadowNodes && rowWritten env r && other = client
  | .replicate .clientRenewCert client, .vpnState other =>
    client.vpnType = .openvpn && !env.aborts && env.turn r = .ok && other.vpnType = .openvpn
  | .replicate .clientRenewCert client, .certDates other =>
    client.vpnType = .openvpn && !env.aborts && env.turn r = .ok && r ∈ env.shadowNodes &&
      other = client
  | .replicate .clientMetadataPatch client, .metadata other => r ∈ env.shadowNodes && other = client
  | .policyOp client op, .policy other op' =>
    !env.aborts && r ∈ env.shadowNodes && env.turn r = .ok && other = client && op' = op
  | .healPolicyDrift, .policyCopy => !env.aborts && env.turn r = .ok
  -- `copy_access_policies_from_node` knows three tables
  | .healPolicyDrift, .policy other _ =>
    !env.aborts && env.turn r = .ok && other.vpnType ≠ .amneziawg3
  | .configFiles fileKeys skipUnsupported, .configFile key =>
    !env.aborts && env.takesFiles r && env.turn r = .ok &&
      key ∈ filterReplicableFileKeys fileKeys && !(skipUnsupported && env.unsupported r key)
  | .primaryCrypto client, .vpnState other =>
    !env.aborts && env.turn r = .ok && bringsState env client other
  | _, _ => false

/-- Switched off by its setting, the operation has nothing to bring. -/
def GroupOp.isOff : GroupOp → Bool
  | .policyOp _ _ => !env.autoReplicatePolicies
  | .healPolicyDrift => !env.autoReplicatePolicies
  | _ => false

def GroupOp.run (row : GroupRow) : GroupOp → GroupRow
  | .replicate operation client => replicateToReplicas g env operation client row
  | .policyOp client _ => replicatePolicyOp g env client row
  | .healPolicyDrift => Status.healPolicyDrift g env row
  | .configFiles fileKeys _ => replicateConfigFiles g env fileKeys row
  | .primaryCrypto _ => replicatePrimaryCryptoToReplicas g env row

end

/-- The row, and the changes that a replica misses. -/
structure GroupState where
  row : GroupRow
  missing : Nat → Change → Bool := fun _ _ => false

/-- One operation with what it meets. -/
def groupStep (g : Group) (s : GroupState) (a : GroupOp × OpEnv) : Option GroupState :=
  some
    (if a.1.isOff a.2 then s
    else
      { row := a.1.run g a.2 s.row
        missing := fun r c => !a.1.copies a.2 r c && (a.1.owes c || s.missing r c) })

/-- The status does not hide a change that did not reach a replica. -/
structure NothingHidden (g : Group) (s : GroupState) : Prop where
  synced : s.row.syncStatus = .synced → ∀ r ∈ g.replicas, ∀ c, s.missing r c = false
  error : s.row.syncStatus = .failed ∨ s.row.syncStatus = .drift → s.row.lastSyncError ≠ none

/-! ## The condition -/

section

variable (g : Group) (env : OpEnv)

/-- A replica that the operation tries gives an error, or all do. -/
def GroupOp.fails : GroupOp → Bool
  | .replicate .clientCreate _ => !env.aborts && g.replicas.any (env.turn · ≠ .ok)
  | .replicate .clientDelete _ =>
    !env.aborts && env.shadowNodes.any fun r => r ∈ g.replicas && env.turn r ≠ .ok
  | .replicate .clientRenewCert client =>
    client.vpnType ≠ .openvpn || !env.aborts && g.replicas.any (env.turn · ≠ .ok)
  | .replicate .clientMetadataPatch _ => g.replicas.any (· ∉ env.shadowNodes)
  | .replicate _ _ => true
  | .policyOp _ _ =>
    !env.aborts && g.replicas.any fun r => r ∉ env.shadowNodes || env.turn r ≠ .ok
  | .healPolicyDrift => !env.aborts && g.replicas.any (env.turn · ≠ .ok)
  | .configFiles fileKeys _ =>
    !env.aborts && filterReplicableFileKeys fileKeys ≠ [] &&
      g.replicas.any fun r => env.takesFiles r && env.turn r ≠ .ok
  | .primaryCrypto _ => !env.aborts && g.replicas.any (env.turn · ≠ .ok)

/-- Without an error the operation leaves the group synced. -/
def GroupOp.setsSynced : GroupOp → Bool
  | .replicate .clientDelete _ => false
  | .replicate .clientMetadataPatch _ => true
  | .replicate _ _ => !env.aborts
  | .policyOp _ _ => !env.aborts
  | .healPolicyDrift => false
  | .configFiles fileKeys _ =>
    g.replicas.isEmpty || (filterReplicableFileKeys fileKeys).isEmpty || !env.aborts
  | .primaryCrypto _ => !env.aborts && !g.replicas.isEmpty

/-- Without an error the operation keeps the status and clears the error text. -/
def GroupOp.clearsError : GroupOp → Bool
  | .replicate .clientDelete _ => !env.aborts
  | .healPolicyDrift => !env.aborts
  | _ => false

/-- The replica takes part and its turn ends well, and the code knows what to bring. -/
def GroupOp.reaches (r : Nat) : GroupOp → Bool
  | .replicate .clientCreate client =>
    !env.aborts && env.turn r = .ok && client.vpnType ≠ .amneziawg3
  | .replicate .clientDelete client =>
    !env.aborts && r ∈ env.shadowNodes && env.turn r = .ok && client.vpnType ≠ .amneziawg3
  | .replicate .clientRenewCert client =>
    client.vpnType = .openvpn && !env.aborts && env.turn r = .ok && r ∈ env.shadowNodes
  | .replicate .clientMetadataPatch _ => r ∈ env.shadowNodes
  | .replicate _ _ => false
  | .policyOp _ _ => !env.aborts && r ∈ env.shadowNodes && env.turn r = .ok
  | .healPolicyDrift => !env.aborts && env.turn r = .ok
  | .configFiles fileKeys skipUnsupported =>
    (filterReplicableFileKeys fileKeys).all fun key =>
      !env.aborts && env.takesFiles r && env.turn r = .ok &&
        !(skipUnsupported && env.unsupported r key)
  | .primaryCrypto client => !env.aborts && env.turn r = .ok && client.vpnType ≠ .amneziawg3

/-- An operation that leaves the group synced reaches every replica, and brings what was missing
there before. -/
structure GroupOp.KeepsHonest (s : GroupState) (op : GroupOp) : Prop where
  reaches : op.setsSynced g env = true ∨ s.row.syncStatus = .synced →
    ∀ r ∈ g.replicas, op.reaches env r = true
  catchesUp : op.setsSynced g env = true ∨ s.row.syncStatus = .synced →
    ∀ r ∈ g.replicas, ∀ c, s.missing r c = true → op.copies env r c = true
  keepsError : op.clearsError env = true →
    s.row.syncStatus ≠ .failed ∧ s.row.syncStatus ≠ .drift

/-- An operation that is switched off, meets a pending group or fails is harmless. -/
def GroupOp.Keeps (s : GroupState) (op : GroupOp) : Prop :=
  op.isOff env = true ∨ s.row.syncStatus = .pending ∨ op.fails g env = true ∨
    op.KeepsHonest g env s

/-! ## One operation -/

/-- The row after an operation without an error. -/
def GroupOp.settles (row : GroupRow) (op : GroupOp) : GroupRow :=
  if op.setsSynced g env then { syncStatus := .synced, lastSyncError := none }
  else if op.clearsError env then { row with lastSyncError := none }
  else row

end

/-- The row says that something went wrong, and what. -/
def Blames (row : GroupRow) : Prop :=
  (row.syncStatus = .failed ∨ row.syncStatus = .drift) ∧ row.lastSyncError ≠ none

/-- The errors and drifts of the result tell whether the operation failed. -/
structure Tells (result : ReplicateResult String) (fails : Bool) : Prop where
  clean : fails = false → result.errors = [] ∧ result.drifts = []
  unclean : fails = true → ¬ (result.errors = [] ∧ result.drifts = [])

variable {fails : Bool}

theorem tells_collect {catchesDrift : Bool} {turns : List (Nat × TurnEnd)}
    (h : fails = turns.any fun t => t.2 ≠ .ok) : Tells (collect catchesDrift turns) fails := by
  have hIff : (collect catchesDrift turns).errors = [] ∧ (collect catchesDrift turns).drifts = [] ↔
      fails = false := by
    rw [h, any_eq_false]
    simp only [collect, filterMap_eq_nil_iff, decide_eq_true_eq, not_not, ← forall_and]
    refine forall₂_congr fun t _ => ?_
    obtain ⟨node, turn⟩ := t
    cases turn with
    | ok => simp
    | drift error => cases catchesDrift <;> simp
    | failed error => simp
  exact ⟨hIff.mpr, fun hFails hClean => by rw [hIff.mp hClean] at hFails; cases hFails⟩

variable {row : GroupRow}

theorem finalize_eq {result : ReplicateResult String}
    (setSynced : Bool) (h : Tells result fails) (hPending : row.syncStatus ≠ .pending) :
    (fails = true → Blames (finalizeReplicateOutcome result setSynced row)) ∧
      (fails = false → finalizeReplicateOutcome result setSynced row =
        if setSynced then { syncStatus := .synced, lastSyncError := none }
        else { row with lastSyncError := none }) := by
  unfold finalizeReplicateOutcome
  rw [if_neg hPending]
  constructor
  · intro hFails
    have hUnclean := h.unclean hFails
    split
    · exact ⟨.inl rfl, nofun⟩
    · exact ⟨.inr rfl, nofun⟩
    · rename_i hErrors hDrifts
      exact absurd ⟨hErrors, hDrifts⟩ hUnclean
  · intro hFails
    rw [(h.clean hFails).1, (h.clean hFails).2]

/-- An operation that raises before its loop leaves the row, another one finalizes. -/
theorem finalize_unless_aborts (aborts setSynced : Bool) {result : ReplicateResult String}
    (h : Tells result fails) (hPending : row.syncStatus ≠ .pending) :
    ((!aborts && fails) = true →
        Blames (if aborts then row else finalizeReplicateOutcome result setSynced row)) ∧
      ((!aborts && fails) = false →
        (if aborts then row else finalizeReplicateOutcome result setSynced row) =
          if !aborts && setSynced then { syncStatus := .synced, lastSyncError := none }
          else if !aborts && !setSynced then { row with lastSyncError := none }
          else row) := by
  cases aborts with
  | true => simp
  | false =>
    obtain ⟨hFails, hClean⟩ := finalize_eq setSynced h hPending
    refine ⟨fun hTrue => hFails (by simpa using hTrue), fun hFalse => ?_⟩
    rw [if_neg (by simp), hClean (by simpa using hFalse)]
    cases setSynced <;> rfl

section

variable {g : Group} {env : OpEnv} {row : GroupRow}

theorem tells_replicaTurns (catchesDrift : Bool) :
    Tells (collect catchesDrift (replicaTurns g env)) (g.replicas.any (env.turn · ≠ .ok)) :=
  tells_collect (by simp only [replicaTurns, any_map]; rfl)

theorem tells_shadowTurns :
    Tells (collect true (shadowTurns g env))
      (env.shadowNodes.any fun r => r ∈ g.replicas && env.turn r ≠ .ok) :=
  tells_collect (by simp only [shadowTurns, any_map, any_filter]; rfl)

theorem tells_linkedTurns (client : ClientKey) :
    Tells (collect false (linkedTurns g client env))
      (g.replicas.any fun r => r ∉ env.shadowNodes || env.turn r ≠ .ok) := by
  refine tells_collect ?_
  simp only [linkedTurns, any_map]
  refine any_congr rfl fun r => ?_
  by_cases hr : r ∈ env.shadowNodes <;> simp [hr]

/-- The result of a transfer tells whether a replica has failed. -/
theorem tells_perNode :
    Tells (transferResultToReplicateResult (perNode g env))
      (g.replicas.any fun r => env.takesFiles r && env.turn r ≠ .ok) := by
  have hIff : (transferResultToReplicateResult (perNode g env)).errors = [] ↔
      (g.replicas.any fun r => env.takesFiles r && env.turn r ≠ .ok) = false := by
    rw [any_eq_false]
    simp only [transferResultToReplicateResult, perNode, filterMap_append, filterMap_map,
      append_eq_nil_iff, filterMap_eq_nil_iff, mem_filter]
    constructor
    · rintro ⟨-, hTaken⟩ r hr hFails
      rw [Bool.and_eq_true, decide_eq_true_eq] at hFails
      have hEntry := hTaken r ⟨hr, hFails.1⟩
      cases hTurn : env.turn r <;> simp_all
    · intro hNone
      refine ⟨fun r _ => rfl, fun r hr => ?_⟩
      have hTurn : env.turn r = .ok := by simpa [hr.2] using hNone r hr.1
      simp [hTurn]
  exact ⟨fun hFails => ⟨hIff.mpr hFails, rfl⟩, fun hFails hClean => by
    rw [hIff.mp hClean.1] at hFails
    cases hFails⟩

theorem replicate_clientCreate (client : ClientKey) :
    replicateToReplicas g env .clientCreate client row =
      if env.aborts then row
      else finalizeReplicateOutcome (collect true (replicaTurns g env)) true row := by
  simp only [replicateToReplicas, operationRegistry, handleClientCreate]
  cases env.aborts <;> rfl

theorem replicate_clientDelete (client : ClientKey) :
    replicateToReplicas g env .clientDelete client row =
      if env.aborts then row
      else finalizeReplicateOutcome (collect true (shadowTurns g env)) false row := by
  simp only [replicateToReplicas, operationRegistry, handleClientDelete]
  cases env.aborts <;> rfl

theorem replicate_clientRenewCert {client : ClientKey} (hType : client.vpnType = .openvpn) :
    replicateToReplicas g env .clientRenewCert client row =
      if env.aborts then row
      else finalizeReplicateOutcome (collect false (replicaTurns g env)) true row := by
  simp only [replicateToReplicas, operationRegistry, handleClientRenewCert, hType]
  cases env.aborts <;> rfl

theorem replicatePolicyOp_on (client : ClientKey) (hOn : env.autoReplicatePolicies = true) :
    replicatePolicyOp g env client row =
      if env.aborts then row
      else finalizeReplicateOutcome (collect false (linkedTurns g client env)) true row := by
  rw [replicatePolicyOp, hOn]
  rfl

theorem healPolicyDrift_on (hOn : env.autoReplicatePolicies = true) :
    Status.healPolicyDrift g env row =
      if env.aborts then row
      else finalizeReplicateOutcome (collect false (replicaTurns g env)) false row := by
  rw [Status.healPolicyDrift, hOn]
  rfl

/-- With replicas the crypto copy writes the status like the others. -/
theorem replicatePrimaryCrypto_eq (hPending : row.syncStatus ≠ .pending) :
    replicatePrimaryCryptoToReplicas g env row =
      if env.aborts || g.replicas.isEmpty then row
      else finalizeReplicateOutcome (collect true (replicaTurns g env)) true row := by
  unfold replicatePrimaryCryptoToReplicas finalizeReplicateOutcome
  cases hAborts : env.aborts with
  | true => rfl
  | false =>
    cases hReplicas : g.replicas with
    | nil => simp [collect, replicaTurns, hReplicas]
    | cons r rs =>
      simp only [hPending, if_false, Bool.false_or, isEmpty_cons, Bool.false_eq_true]
      -- a clean result lists the first replica
      have hSuccess : (collect true (replicaTurns g env)).errors = [] →
          (collect true (replicaTurns g env)).successes ≠ [] := by
        simp only [collect, replicaTurns, hReplicas, map_cons]
        cases env.turn r <;> simp
      generalize collect true (replicaTurns g env) = result at hSuccess ⊢
      split <;> simp_all

theorem tells_error (error : String) : Tells { errors := [(none, error)] } true :=
  ⟨nofun, fun _ hClean => by cases hClean.1⟩

/-- An operation that is not in the registry, or has no handler there. -/
theorem blames_error (error : String) (setSynced : Bool) (hPending : row.syncStatus ≠ .pending) :
    Blames (finalizeReplicateOutcome { errors := [(none, error)] } setSynced row) :=
  (finalize_eq setSynced (tells_error error) hPending).1 rfl

attribute [local simp] GroupOp.run GroupOp.fails GroupOp.settles GroupOp.setsSynced
  GroupOp.clearsError

/-- **The row after one operation** on a group that is not pending. -/
theorem run_eq (op : GroupOp) (hOn : op.isOff env = false) (hPending : row.syncStatus ≠ .pending) :
    (op.fails g env = true → Blames (op.run g env row)) ∧
      (op.fails g env = false → op.run g env row = op.settles g env row) := by
  cases op with
  | replicate operation client =>
    cases operation with
    | clientCreate =>
      simpa [replicate_clientCreate] using
        finalize_unless_aborts env.aborts true (tells_replicaTurns (g := g) true) hPending
    | clientDelete =>
      simpa [replicate_clientDelete] using
        finalize_unless_aborts env.aborts false (tells_shadowTurns (g := g)) hPending
    | clientRenewCert =>
      by_cases hType : client.vpnType = .openvpn
      · simpa [replicate_clientRenewCert hType, hType] using
          finalize_unless_aborts env.aborts true (tells_replicaTurns (g := g) false) hPending
      · simpa [replicateToReplicas, operationRegistry, handleClientRenewCert, hType] using
          blames_error _ _ hPending
    | clientMetadataPatch =>
      have hTells : Tells
          (collect false (linkedTurns g client { env with turn := fun _ => .ok })) _ :=
        tells_linkedTurns client
      simpa [replicateToReplicas, operationRegistry, handleClientMetadataPatch] using
        finalize_eq true hTells hPending
    | policyApply | policyCopyAll | configFilesWrite | antizapretSettingsPatch | routingApply
    | cidrDeployFiles | openvpnDisconnect =>
      -- operations without a handler
      exact ⟨fun _ => blames_error _ false hPending, nofun⟩
  | policyOp client op =>
    have hAuto : env.autoReplicatePolicies = true := by simpa [GroupOp.isOff] using hOn
    simpa [replicatePolicyOp_on client hAuto] using
      finalize_unless_aborts env.aborts true (tells_linkedTurns (g := g) client) hPending
  | healPolicyDrift =>
    have hAuto : env.autoReplicatePolicies = true := by simpa [GroupOp.isOff] using hOn
    simpa [healPolicyDrift_on hAuto] using
      finalize_unless_aborts env.aborts false (tells_replicaTurns (g := g) false) hPending
  | configFiles fileKeys skipUnsupported =>
    by_cases hReplicas : g.replicas = []
    · simp [replicateConfigFiles, hReplicas, finalizeReplicateOutcome, hPending]
    by_cases hKeys : filterReplicableFileKeys fileKeys = []
    · simp [replicateConfigFiles, hKeys, finalizeReplicateOutcome, hPending]
    simpa [replicateConfigFiles, hReplicas, hKeys] using
      finalize_unless_aborts env.aborts true (tells_perNode (g := g)) hPending
  | primaryCrypto client =>
    by_cases hReplicas : g.replicas = []
    · simp [replicatePrimaryCrypto_eq hPending, hReplicas]
    simpa [replicatePrimaryCrypto_eq hPending, hReplicas] using
      finalize_unless_aborts env.aborts true (tells_replicaTurns (g := g) true) hPending

end

/-! ## Runs -/

section

variable {g : Group}

theorem run_pending (env : OpEnv) (op : GroupOp)
    (hPending : row.syncStatus = .pending) : op.run g env row = row := by
  have hFinalize : ∀ result b, finalizeReplicateOutcome result b row = row :=
    fun result b => if_pos hPending
  cases op with
  | replicate operation client =>
    simp only [GroupOp.run, replicateToReplicas, hFinalize]
    split
    · rfl
    · split
      · rfl
      · split <;> rfl
  | policyOp client op => simp [GroupOp.run, replicatePolicyOp, hFinalize]
  | healPolicyDrift => simp [GroupOp.run, Status.healPolicyDrift, hFinalize]
  | configFiles fileKeys skipUnsupported => simp [GroupOp.run, replicateConfigFiles, hFinalize]
  | primaryCrypto client => simp [GroupOp.run, replicatePrimaryCryptoToReplicas, hPending]

theorem clearsError_of_setsSynced {op : GroupOp} {env : OpEnv}
    (h : op.setsSynced g env = true) : op.clearsError env = false := by
  cases op with
  | replicate operation client =>
    cases operation with
    | clientDelete => cases h
    | _ => rfl
  | healPolicyDrift => cases h
  | _ => rfl

theorem copiedProtocol_eq_iff (vpnType : VpnType) :
    copiedProtocol vpnType = vpnType ↔ vpnType ≠ .amneziawg3 := by
  cases vpnType <;> decide

/-- A copy for a client brings the client's own change, if its protocol is copied at all. -/
theorem bringsState_self (env : OpEnv) (client : ClientKey) :
    bringsState env client client = decide (client.vpnType ≠ .amneziawg3) := by
  simp [bringsState, copiedProtocol_eq_iff]

theorem rowWritten_of_ok {env : OpEnv} {r : Nat} (h : env.turn r = .ok) :
    rowWritten env r = true := by
  rw [rowWritten, h]

/-- An operation reaches a replica if and only if it brings all its changes there. -/
theorem reaches_iff (op : GroupOp) (env : OpEnv) (r : Nat) :
    op.reaches env r = true ↔ ∀ c, op.owes c = true → op.copies env r c = true := by
  have hTwo : ∀ {a b : Change} {p : Change → Bool}, (∀ c, decide (c ∈ [a, b]) = true →
      p c = true) ↔ p a = true ∧ p b = true := by
    intro a b p
    simp
  have hOne : ∀ {a : Change} {p : Change → Bool}, (∀ c, decide (c = a) = true → p c = true) ↔
      p a = true := by
    intro a p
    simp
  cases op with
  | replicate operation client =>
    cases operation with
    | clientCreate =>
      simp only [GroupOp.owes, hTwo, GroupOp.reaches, GroupOp.copies, bringsState_self]
      by_cases hTurn : env.turn r = .ok
      · simp [hTurn, rowWritten_of_ok hTurn, and_comm]
      · simp [hTurn]
    | clientDelete =>
      simp only [GroupOp.owes, hTwo, GroupOp.reaches, GroupOp.copies, bringsState_self]
      by_cases hTurn : env.turn r = .ok
      · simp [hTurn, rowWritten_of_ok hTurn]
        tauto
      · simp [hTurn]
    | clientRenewCert =>
      simp only [GroupOp.owes, hTwo, GroupOp.reaches, GroupOp.copies]
      simp
      tauto
    | clientMetadataPatch =>
      simp only [GroupOp.owes, hOne, GroupOp.reaches, GroupOp.copies]
      simp
    | _ => simp [GroupOp.owes, GroupOp.reaches, GroupOp.copies]
  | policyOp client syncOp =>
    simp only [GroupOp.owes, hOne, GroupOp.reaches, GroupOp.copies]
    simp
  | healPolicyDrift => simp only [GroupOp.owes, hOne, GroupOp.reaches, GroupOp.copies]
  | configFiles fileKeys skipUnsupported =>
    constructor
    · intro hAll c hOwes
      cases c with
      | configFile key =>
        have hKey : key ∈ filterReplicableFileKeys fileKeys := of_decide_eq_true hOwes
        have hTurn := all_eq_true.mp hAll key hKey
        simp only [GroupOp.copies, hKey, decide_true, Bool.and_true]
        exact hTurn
      | _ => cases hOwes
    · intro hCopies
      refine all_eq_true.mpr fun key hKey => ?_
      have hTurn := hCopies (.configFile key) (decide_eq_true hKey)
      simpa only [GroupOp.copies, hKey, decide_true, Bool.and_true] using hTurn
  | primaryCrypto client =>
    simp only [GroupOp.owes, hOne, GroupOp.reaches, GroupOp.copies, bringsState_self]

/-- Nothing is missing behind an operation if it reached every replica and brought what was
missing before. -/
theorem missing_none_iff (op : GroupOp) (env : OpEnv) (s : GroupState) :
    (∀ r ∈ g.replicas, ∀ c, (!op.copies env r c && (op.owes c || s.missing r c)) = false) ↔
      (∀ r ∈ g.replicas, op.reaches env r = true) ∧
        ∀ r ∈ g.replicas, ∀ c, s.missing r c = true → op.copies env r c = true := by
  simp only [reaches_iff, ← forall_and]
  refine forall₂_congr fun r _ => forall_congr' fun c => ?_
  cases op.copies env r c <;> cases op.owes c <;> cases s.missing r c <;> decide

/-- An operation without an error keeps the status honest if it catches up on what is missing. -/
theorem settles_iff (op : GroupOp) (env : OpEnv) {s : GroupState} (h : NothingHidden g s) :
    NothingHidden g
        { row := op.settles g env s.row
          missing := fun r c => !op.copies env r c && (op.owes c || s.missing r c) } ↔
      op.KeepsHonest g env s := by
  have hNone := missing_none_iff (g := g) op env s
  cases hSets : op.setsSynced g env with
  | true =>
    have hClears := clearsError_of_setsSynced hSets
    have hRow : op.settles g env s.row = ⟨.synced, none⟩ := by
      rw [GroupOp.settles, if_pos hSets]
    rw [hRow]
    constructor
    · intro hHonest
      obtain ⟨hReaches, hCatches⟩ := hNone.mp (hHonest.synced rfl)
      refine ⟨fun _ => hReaches, fun _ => hCatches, fun hTrue => ?_⟩
      rw [hClears] at hTrue
      cases hTrue
    · intro hKeeps
      refine ⟨fun _ => hNone.mpr ⟨hKeeps.reaches (.inl hSets), hKeeps.catchesUp (.inl hSets)⟩, ?_⟩
      rintro (hFailed | hDrift)
      · cases hFailed
      · cases hDrift
  | false =>
    -- the status stays, so that the step matters to a synced group only
    have hStays : (op.settles g env s.row).syncStatus = s.row.syncStatus := by
      rw [GroupOp.settles, hSets, if_neg Bool.false_ne_true]
      split <;> rfl
    have hSynced : (op.setsSynced g env = true ∨ s.row.syncStatus = .synced) ↔
        s.row.syncStatus = .synced := by
      rw [hSets]
      simp
    have hError : ((op.settles g env s.row).syncStatus = .failed ∨
        (op.settles g env s.row).syncStatus = .drift →
          (op.settles g env s.row).lastSyncError ≠ none) ↔
        (op.clearsError env = true → s.row.syncStatus ≠ .failed ∧ s.row.syncStatus ≠ .drift) := by
      rw [hStays]
      cases hClears : op.clearsError env with
      | true =>
        have hRow : (op.settles g env s.row).lastSyncError = none := by
          rw [GroupOp.settles, hSets, hClears]
          rfl
        simp [hRow, not_or]
      | false =>
        have hRow : op.settles g env s.row = s.row := by
          rw [GroupOp.settles, hSets, hClears]
          rfl
        rw [hRow]
        exact iff_of_true h.error nofun
    constructor
    · intro hHonest
      refine ⟨fun hOr => ?_, fun hOr => ?_, hError.mp hHonest.error⟩
      · exact (hNone.mp (hHonest.synced (hStays.trans (hSynced.mp hOr)))).1
      · exact (hNone.mp (hHonest.synced (hStays.trans (hSynced.mp hOr)))).2
    · intro hKeeps
      refine ⟨fun hAfter => ?_, hError.mpr hKeeps.keepsError⟩
      have hOr := hSynced.mpr (hStays.symm.trans hAfter)
      exact hNone.mpr ⟨hKeeps.reaches hOr, hKeeps.catchesUp hOr⟩

/-- **One step.** -/
theorem groupStep_iff (op : GroupOp) (env : OpEnv) {s s' : GroupState} (h : NothingHidden g s)
    (hStep : groupStep g s (op, env) = some s') : NothingHidden g s' ↔ op.Keeps g env s := by
  cases hStep
  cases hOff : op.isOff env with
  | true => exact iff_of_true (by simpa [hOff] using h) (.inl hOff)
  | false =>
    simp only [Bool.false_eq_true, if_false]
    by_cases hPending : s.row.syncStatus = .pending
    · refine iff_of_true ?_ (.inr (.inl hPending))
      rw [run_pending env op hPending]
      constructor
      · intro hSynced
        rw [hPending] at hSynced
        cases hSynced
      · exact h.error
    · obtain ⟨hFails, hSettles⟩ := run_eq (g := g) op hOff hPending
      cases hFail : op.fails g env with
      | true =>
        obtain ⟨hStatus, hError⟩ := hFails hFail
        refine iff_of_true ⟨fun hSynced => ?_, fun _ => hError⟩ (.inr (.inr (.inl hFail)))
        rcases hStatus with hFailed | hDrift
        · rw [hFailed] at hSynced
          cases hSynced
        · rw [hDrift] at hSynced
          cases hSynced
      | false =>
        rw [hSettles hFail]
        have hKeeps : op.Keeps g env s ↔ op.KeepsHonest g env s := by
          simp [GroupOp.Keeps, hOff, hPending, hFail]
        rw [hKeeps]
        exact settles_iff op env h

end

/-- Two replicas; the second is offline or fails where an operation meets that. -/
def twoReplicas : Group := ⟨[2, 3], fun _ => "replica"⟩

def fresh : GroupState := { row := ⟨.synced, none⟩ }

def alice : ClientKey := ⟨"alice", .wireguard⟩

/-- A file is written while the second replica is offline. -/
def writeWhileOffline : List (GroupOp × OpEnv) :=
  [(.configFiles ["include_hosts"] false, { takesFiles := (· = 2) })]

/-- A ban that fails on the second replica. -/
def failingBan : GroupOp × OpEnv :=
  (.policyOp alice .blockPermanent,
    { turn := fun r => if r = 3 then .failed "timeout" else .ok, shadowNodes := [2, 3] })

/-- Then another client is created. -/
def banThenCreate : List (GroupOp × OpEnv) :=
  [failingBan, (.replicate .clientCreate ⟨"bob", .openvpn⟩, {})]

/-- Or another client is deleted. -/
def banThenDelete : List (GroupOp × OpEnv) :=
  [failingBan, (.replicate .clientDelete ⟨"bob", .openvpn⟩, { shadowNodes := [2, 3] })]

theorem fresh_honest : NothingHidden twoReplicas fresh :=
  ⟨fun _ _ _ _ => rfl, by rintro (hFailed | hDrift) <;> contradiction⟩

/-- A client whose protocol no copy knows. -/
def createAwg3 : List (GroupOp × OpEnv) :=
  [(.replicate .clientCreate ⟨"carol", .amneziawg3⟩, {})]

/-- The ban is repeated. -/
def banThenRetry : List (GroupOp × OpEnv) :=
  [failingBan, (.policyOp alice .blockPermanent, { shadowNodes := [2, 3] })]

end AdminPanel.NodeSync.Status
