import AdminPanel.NodeSync.Reblock
import AdminPanel.NodeSync.RestartPending

/-!
# Crypto state on the replicas

A created or deleted client reaches a replica by a copy of the primary's VPN state:
`sync_vpn_crypto_from_primary` picks the copy by protocol, and the handlers of
`replicate_to_replicas` call it for each replica and report where it went well.

* `VpnFiles`, `SameFor` — the server state of a protocol, and its equality;
* `syncVpnCryptoFromPrimary` — the dispatcher, over the copies of `RestartPending` and
  `Reblock`;
* `handleClientCreate`, `handleClientDelete` — the two handlers;
* `replicated_reaches` — a replica reported as reached has the primary's state of the
  protocol, but for two cases: a primary without an AmneziaWG2 key leaves a key on the
  replica, and AmneziaWG3 is not copied at all.
-/

namespace AdminPanel.NodeSync

open List Lib Lib.Procedure
open Panel (VpnType lower stripped)
open Reblock

/-! ## Server state -/

/-- The files of a server that a copy can bring, the archives by their content. -/
structure VpnFiles where
  easyrsa3 : Easyrsa3
  openvpnProfiles : String
  serverConfigs : PeerProtocol → WgInterface → Option ServerConfig
  awg2 : Awg2Files
  awg3 : String

structure ReplicaServer where
  openvpn : RestartState
  peers : SyncState
  awg3 : String

def ReplicaServer.files (r : ReplicaServer) : VpnFiles where
  easyrsa3 := { identity := r.openvpn.replica.disk, members := r.openvpn.files.members }
  openvpnProfiles := r.openvpn.files.profiles
  serverConfigs p := (r.peers.layer p).files
  awg2 := r.peers.awg2Files
  awg3 := r.awg3

/-- The server state of the protocol is the same. -/
def SameFor (vpnType : VpnType) (a b : VpnFiles) : Prop :=
  match vpnType with
  | .openvpn => a.easyrsa3 = b.easyrsa3 ∧ a.openvpnProfiles = b.openvpnProfiles
  | .wireguard => a.serverConfigs .wireguard = b.serverConfigs .wireguard
  | .amneziawg2 => a.serverConfigs .amneziawg2 = b.serverConfigs .amneziawg2 ∧ a.awg2 = b.awg2
  | .amneziawg3 => a.awg3 = b.awg3

/-! ## sync_vpn_crypto_from_primary -/

/-- What the calls for one replica meet. -/
structure CryptoCall where
  adapterRaises : Bool := false
  traffic : NodeTraffic
  openvpn : PkiSyncEnv
  wireguard : WireguardSyncEnv
  amneziawg2 : Amneziawg2SyncEnv

section

variable (primary : VpnFiles) (c : CryptoCall)

def CryptoCall.openvpnEnv : PkiSyncEnv :=
  { c.openvpn with
    archive := { c.openvpn.archive with pki := primary.easyrsa3 }
    profiles := { c.openvpn.profiles with archive := primary.openvpnProfiles } }

def CryptoCall.wireguardEnv : WireguardSyncEnv :=
  { c.wireguard with
    mirror := { c.wireguard.mirror with primaryFiles := primary.serverConfigs .wireguard } }

def CryptoCall.amneziawg2Env : Amneziawg2SyncEnv :=
  { c.amneziawg2 with
    archive := primary.awg2.profiles
    mirror := { c.amneziawg2.mirror with primaryFiles := primary.serverConfigs .amneziawg2 }
    key := { c.amneziawg2.key with serverKey := primary.awg2.key } }

/-- `sync_vpn_crypto_from_primary`, with `db` and `replica_node` given -/
def syncVpnCryptoFromPrimary (vpnType : VpnType) : Procedure SyncException ReplicaServer Unit :=
  if vpnType = .openvpn then
    zoom ReplicaServer.openvpn (fun s r => { r with openvpn := s }) (fun _ => .other)
      (syncOpenvpnPkiFromPrimary (c.openvpnEnv primary))
  else if vpnType = .amneziawg2 then
    zoom ReplicaServer.peers (fun s r => { r with peers := s }) id
      (syncAmneziawg2StateFromPrimary c.traffic (c.amneziawg2Env primary) true)
  else
    zoom ReplicaServer.peers (fun s r => { r with peers := s }) id
      (syncWireguardStateFromPrimary c.traffic (c.wireguardEnv primary))

end

/-! ## replicate.py -/

/-- A row of `vpn_configs`, with the columns that link a shadow to its primary. -/
structure ConfigRow where
  configId : Nat
  nodeId : Nat
  clientName : String
  vpnType : VpnType
  haPrimaryConfigId : Option Nat := none
  deriving DecidableEq, Repr

structure SyncGroup where
  replicaNodeIds : List Nat
  syncMode : String

/-- The rows of the panel, and the servers of the nodes. -/
structure GroupDb where
  nodes : List Nat
  configs : List ConfigRow
  nextConfigId : Nat
  servers : Nat → ReplicaServer

/-- `ReplicateResult`, with errors of type `ε`: a success may carry the id of the shadow config,
and an error need not be about one replica. -/
structure ReplicateResult (ε : Type) where
  skipped : Bool := false
  successes : List (Nat × Option Nat) := []
  errors : List (Option Nat × ε) := []
  drifts : List (Nat × ε) := []

abbrev CryptoResult := ReplicateResult SyncException

/-- What one replication meets: the calls of each round of its loop. -/
structure ReplicateEnv where
  primaryAdapterRaises : Bool := false
  call : Nat → CryptoCall

def getReplicaNodes (db : GroupDb) (group : SyncGroup) : List Nat :=
  group.replicaNodeIds.filter (· ∈ db.nodes)

def isAutoSyncEnabled (group : SyncGroup) : Bool := lower (stripped group.syncMode) == "auto"

def getShadowConfigs (db : GroupDb) (group : SyncGroup) (primaryConfig : ConfigRow) :
    List ConfigRow :=
  let replicaIds := getReplicaNodes db group
  db.configs.filter fun row =>
    row.haPrimaryConfigId = some primaryConfig.configId ∧ row.nodeId ∈ replicaIds

/-- The row of the same client and protocol on the node. -/
def ConfigRow.sameClient (primaryConfig : ConfigRow) (node : Nat) (row : ConfigRow) : Bool :=
  row.nodeId = node ∧ row.clientName = primaryConfig.clientName ∧
    row.vpnType = primaryConfig.vpnType

/-- `upsert_shadow_config` on the row that the handler looked up, and the id of the shadow. -/
def upsertShadowConfig (db : GroupDb) (node : Nat) (primaryConfig : ConfigRow) : GroupDb × Nat :=
  match db.configs.find? (primaryConfig.sameClient node) with
  | some existing =>
    ({ db with
        configs := db.configs.map fun row =>
          if row = existing then { row with haPrimaryConfigId := some primaryConfig.configId }
          else row },
      existing.configId)
  | none =>
    ({ db with
        configs := db.configs ++
          [{ configId := db.nextConfigId
             nodeId := node
             clientName := primaryConfig.clientName
             vpnType := primaryConfig.vpnType
             haPrimaryConfigId := some primaryConfig.configId }]
        nextConfigId := db.nextConfigId + 1 },
      db.nextConfigId)

/-- The body of the `try` statement of both handlers. -/
def attemptSync (primary : VpnFiles) (c : CryptoCall) (vpnType : VpnType) :
    Procedure SyncException ReplicaServer Unit := do
  raiseIf c.adapterRaises .other
  syncVpnCryptoFromPrimary primary c vpnType

/-- Its handlers, which say whether the round goes on. -/
def recordEnd (node : Nat) (result : CryptoResult) (outcome : Except SyncException Unit) :
    CryptoResult × Bool :=
  match outcome with
  | .ok () => (result, true)
  | .error .replicaRuntime =>
    ({ result with drifts := result.drifts ++ [(node, .replicaRuntime)] }, true)
  | .error exc => ({ result with errors := result.errors ++ [(some node, exc)] }, false)

def GroupDb.setServer (db : GroupDb) (node : Nat) (server : ReplicaServer) : GroupDb :=
  { db with servers := Function.update db.servers node server }

@[simp] theorem servers_setServer (db : GroupDb) (node n : Nat) (server : ReplicaServer) :
    (db.setServer node server).servers n = if n = node then server else db.servers n :=
  Function.update_apply ..

/-- The `try` statement: the rows are as they were. -/
def syncReplica (primary : VpnFiles) (c : CryptoCall) (vpnType : VpnType) (node : Nat)
    (db : GroupDb) (result : CryptoResult) : GroupDb × CryptoResult × Bool :=
  let (outcome, server) := perform (attemptSync primary c vpnType) (db.servers node)
  (db.setServer node server, recordEnd node result outcome)

section

variable (primary : VpnFiles) (env : ReplicateEnv) (primaryConfig : ConfigRow)

/-- The loop body of `_handle_client_create`. -/
def createRound (acc : GroupDb × CryptoResult) (target : Nat × Nat) : GroupDb × CryptoResult :=
  match syncReplica primary (env.call target.2) primaryConfig.vpnType target.1 acc.1 acc.2 with
  | (db, result, false) => (db, result)
  | (db, result, true) =>
    let (db, shadowId) := upsertShadowConfig db target.1 primaryConfig
    (db, { result with successes := result.successes ++ [(target.1, some shadowId)] })

def handleClientCreate (group : SyncGroup) (db : GroupDb) : GroupDb × CryptoResult :=
  let (db, result) :=
    (getReplicaNodes db group).zipIdx.foldl (createRound primary env primaryConfig) (db, {})
  ({ db with
      configs := db.configs.map fun row =>
        if row.configId = primaryConfig.configId then { row with haPrimaryConfigId := none }
        else row },
    result)

def deleteConfig (shadow : ConfigRow) (db : GroupDb) : GroupDb :=
  { db with configs := db.configs.filter fun row => row.configId ≠ shadow.configId }

/-- The loop body of `_handle_client_delete`. -/
def deleteRound (acc : GroupDb × CryptoResult) (target : ConfigRow × Nat) :
    GroupDb × CryptoResult :=
  if target.1.nodeId ∉ acc.1.nodes then (deleteConfig target.1 acc.1, acc.2)
  else
    match syncReplica primary (env.call target.2) target.1.vpnType target.1.nodeId acc.1 acc.2 with
    | (db, result, false) => (db, result)
    | (db, result, true) =>
      (deleteConfig target.1 db,
        { result with
          successes := result.successes ++ [(target.1.nodeId, some target.1.configId)] })

def handleClientDelete (group : SyncGroup) (db : GroupDb) : GroupDb × CryptoResult :=
  (getShadowConfigs db group primaryConfig).zipIdx.foldl (deleteRound primary env) (db, {})

inductive ClientOp
  | create
  | delete
  deriving DecidableEq, Repr

/-- `replicate_to_replicas` for the two operations; `none` when the primary has no adapter. -/
def replicateToReplicas (group : SyncGroup) (op : ClientOp) (db : GroupDb) :
    Option (GroupDb × CryptoResult) :=
  if !isAutoSyncEnabled group then some (db, { skipped := true })
  else if env.primaryAdapterRaises then none
  else match op with
    | .create => some (handleClientCreate primary env primaryConfig group db)
    | .delete => some (handleClientDelete primary env primaryConfig group db)

end

/-! ## What a copy brings -/

/-- The PKI and the profiles on disk. -/
def OnDisk (pki : Easyrsa3) (profiles : String) (s : RestartState) : Prop :=
  s.replica.disk = pki.identity ∧ s.files = { members := pki.members, profiles := profiles }

section

variable {pki : Easyrsa3} {profiles : String}

theorem restartServers_onDisk (call : RestartCall) :
    Keeps (OnDisk pki profiles) (fun _ => True) (restartServers call) := by
  intro s hs
  rw [perform_restartServers]
  have hDisk : OnDisk pki profiles { s with replica := (call.run s.replica).1 } :=
    ⟨(run_disk call s.replica).trans hs.1, hs.2⟩
  cases (call.run s.replica).2 with
  | none => exact ⟨hDisk, trivial⟩
  | some result => exact hDisk

/-- The import, then the restart or the disconnects, which leave the files alone. -/
theorem importOpenvpnPki_returns (e : PkiSyncEnv) (restartNeeded : Bool) :
    Returns (fun _ => True) (importOpenvpnPki e restartNeeded)
      (fun _ => OnDisk e.archive.pki e.profiles.archive) := by
  refine Ensures.bind (R := fun _ s => s.replica.disk = e.archive.pki.identity ∧
    s.files.members = e.archive.pki.members) ?_ fun _ => ?_
  · exact ensures_call (fun s _ => ⟨rfl, rfl⟩) (fun _ _ => trivial) fun _ _ => trivial
  refine Ensures.bind (R := fun _ => OnDisk e.archive.pki e.profiles.archive) ?_ fun _ => ?_
  · intro s hs
    rw [perform_copyProfiles]
    cases hSucceeds : e.profiles.succeeds with
    | false => trivial
    | true =>
      refine ⟨(congrArg Replica.disk (leaves_replica _ s)).trans hs.1, ?_⟩
      simp only [ProfileCopy.succeeds, Bool.and_eq_true, bne_iff_ne, beq_iff_eq] at hSucceeds
      simp [ProfileCopy.leaves, hSucceeds.1.1, hSucceeds.1.2, installProfiles, hs.2]
  refine Ensures.returns (Keeps.ensures (K := fun _ => True) ?_)
  cases restartNeeded with
  | true =>
    refine Keeps.bind (restartServers_onDisk e.restart) fun result =>
      Keeps.bind (keeps_raiseIf trivial) fun _ => Keeps.bind (keeps_raiseIf trivial) fun _ => ?_
    exact keeps_modify fun s hs => hs
  | false => exact keeps_raiseIf trivial

theorem syncOpenvpnPki_returns (e : PkiSyncEnv) :
    Returns (fun _ => True) (syncOpenvpnPkiFromPrimary e)
      (fun _ => OnDisk e.archive.pki e.profiles.archive) := by
  refine Ensures.bind (R := fun _ _ => True) (ensures_get fun _ _ => trivial) fun s =>
    Ensures.bind (R := fun _ _ => True) (ensures_trivial _) fun _ => ?_
  split
  · exact Ensures.bind (R := fun _ _ => True) (ensures_trivial _) fun _ =>
      importOpenvpnPki_returns e true
  · exact importOpenvpnPki_returns e _

end

section

variable (p : PeerProtocol)

/-- The configs of one layer. -/
def Mirrored (files : WgInterface → Option ServerConfig) (s : SyncState) : Prop :=
  (s.layer p).files = files

theorem files_setFile (i j : WgInterface) (content : Option ServerConfig) (s : SyncState) :
    ((setFile p i content s).layer p).files j =
      if j = i then content else (s.layer p).files j := by
  unfold setFile
  rw [layer_modifyLayer_self]
  exact Function.update_apply ..

theorem mem_wgInterfaces (i : WgInterface) : i ∈ wgInterfaces := by
  cases i <;> decide

/-- The first loop writes every config that the primary has. -/
theorem mirror_writes (e : MirrorEnv) :
    Returns (fun _ => True) (wgInterfaces.forM fun i =>
        match e.primaryFiles i with
        | some content => do
          raiseIf (e.readRaises i) .other
          call (e.write i) .other (setFile p i (some content))
        | none => (pure () : SyncProc Unit))
      (fun _ s => ∀ i, (e.primaryFiles i).isSome = true →
        (s.layer p).files i = e.primaryFiles i) := by
  refine Ensures.mono (ensures_forM (R := fun done (s : SyncState) => ∀ i ∈ done,
    (e.primaryFiles i).isSome = true → (s.layer p).files i = e.primaryFiles i) fun done i => ?_)
    (fun s _ i hi => absurd hi not_mem_nil) (fun _ s hs i => hs i (mem_wgInterfaces i))
    fun _ _ hs => hs
  cases hFile : e.primaryFiles i with
  | none =>
    refine ensures_pure fun s hs j hj hSome => ?_
    rcases mem_append.mp hj with hDone | hNew
    · exact hs j hDone hSome
    · rw [mem_singleton.mp hNew, hFile] at hSome
      cases hSome
  | some content =>
    refine Ensures.bind (ensures_raiseIf.mono (fun _ hs => hs) (fun _ _ hs => hs.1)
      fun _ _ _ => trivial) fun _ => ensures_call (fun s hs j hj hSome => ?_)
        (fun _ _ => trivial) fun _ _ => trivial
    rw [files_setFile]
    split
    · rename_i hEq
      rw [hEq, hFile]
    · rename_i hNe
      refine hs j ((mem_append.mp hj).resolve_right fun hNew => hNe ?_) hSome
      exact mem_singleton.mp hNew

/-- The second loop deletes the configs that it collected. -/
theorem mirror_deletes (e : MirrorEnv) (extra : List WgInterface)
    (files : WgInterface → Option ServerConfig) :
    Returns (Mirrored p files)
      (extra.forM fun i => (call (e.delete i) .other (setFile p i none) : SyncProc Unit))
      (fun _ => Mirrored p fun i => if i ∈ extra then none else files i) := by
  refine Ensures.mono (ensures_forM (R := fun done => Mirrored p fun i =>
    if i ∈ done then none else files i) fun done i => ?_)
    (fun s hs => ?_) (fun _ _ hs => hs) fun _ _ hs => hs
  · refine ensures_call (fun s hs => funext fun j => ?_) (fun _ _ => trivial) fun _ _ => trivial
    have hBefore : (s.layer p).files j = if j ∈ done then none else files j := congrFun hs j
    rw [files_setFile, hBefore]
    by_cases hj : j = i <;> simp [hj]
  · simpa [Mirrored] using hs

/-- **The mirror** of the server configs, when it returns. -/
theorem mirrorServerConfigs_returns (e : MirrorEnv) :
    Returns (fun _ => True) (mirrorServerConfigs p e) (fun _ => Mirrored p e.primaryFiles) := by
  refine Ensures.bind (R := fun _ _ => True) (ensures_trivial _) fun _ =>
    Ensures.bind (mirror_writes p e) fun _ => ?_
  refine Ensures.bind (ensures_raiseIf.mono (fun _ hs => hs) (fun _ _ hs => hs.1)
    fun _ _ _ => trivial) fun _ => ?_
  refine Ensures.bind (R := fun s u => s = u ∧ ∀ i, (e.primaryFiles i).isSome = true →
    (u.layer p).files i = e.primaryFiles i) (ensures_get fun s hs => ⟨rfl, hs⟩) fun s => ?_
  refine Ensures.of_pre fun u hu => ?_
  obtain ⟨rfl, hWritten⟩ := hu
  refine (mirror_deletes p e _ (s.layer p).files).mono (fun v hv => hv ▸ rfl) (fun _ v hv => ?_)
    fun _ _ hv => hv
  refine hv.trans (funext fun i => ?_)
  simp only [mem_filter, mem_wgInterfaces, true_and, Bool.and_eq_true]
  cases hFile : e.primaryFiles i with
  | none => cases hOld : (s.layer p).files i <;> simp
  | some content =>
    have hNew := hWritten i (by rw [hFile]; rfl)
    simp [hNew, hFile]

theorem mirrored_modifyLayer {p : PeerProtocol} {files : WgInterface → Option ServerConfig}
    {f : PeerLayer → PeerLayer} (hf : ∀ l, (f l).files = l.files) (s : SyncState)
    (hs : Mirrored p files s) : Mirrored p files (modifyLayer p f s) := by
  unfold Mirrored
  rw [layer_modifyLayer_self, hf]
  exact hs

theorem applyRuntime_mirrored (files : WgInterface → Option ServerConfig) (e : ApplyEnv) :
    Keeps (Mirrored p files) (fun _ => True) (applyRuntime p e) :=
  Keeps.bind (keeps_modify (mirrored_modifyLayer fun _ => rfl)) fun _ =>
    Keeps.bind (keeps_raiseIf trivial) fun _ => keeps_pure _

theorem reapply_mirrored (files : WgInterface → Option ServerConfig) (t : NodeTraffic) :
    Keeps (Mirrored p files) (fun _ => True) (reapplyBlockedPolicies t p) :=
  keeps_modify (mirrored_modifyLayer fun _ => rfl)

end

theorem syncWireguard_returns (t : NodeTraffic) (e : WireguardSyncEnv) :
    Returns (fun _ => True) (syncWireguardStateFromPrimary t e)
      (fun _ => Mirrored .wireguard e.mirror.primaryFiles) := by
  refine Ensures.bind (R := fun _ => Mirrored .wireguard e.mirror.primaryFiles)
    (Ensures.tryCatch (R := fun _ _ => True) ?_ fun exc => ?_) fun success => ?_
  · refine Ensures.bind (mirrorServerConfigs_returns .wireguard e.mirror) fun _ => ?_
    refine Ensures.returns (Keeps.ensures (K := fun _ => True) ?_)
    exact Keeps.bind (applyRuntime_mirrored _ _ _) fun _ =>
      Keeps.bind (keeps_raiseIf trivial) fun _ => keeps_pure _
  · exact Ensures.bind (R := fun _ _ => True) (ensures_trivial _) fun _ =>
      ensures_throw fun _ _ => trivial
  · refine Ensures.returns (Keeps.ensures (K := fun _ => True) ?_)
    exact Keeps.bind (reapply_mirrored _ _ t) fun _ => keeps_raiseIf trivial

/-- The key after the copy: a primary without one leaves the replica's. -/
def copiedKey (e : Amneziawg2SyncEnv) (before : SyncState) : String :=
  if e.key.serverKey = "" then before.awg2Files.key else e.key.serverKey

theorem mirrorAmneziawg2_returns (e : Amneziawg2SyncEnv) (before : SyncState) :
    Returns (· = before) (mirrorAmneziawg2ServerConfigs e.mirror e.key)
      (fun _ s => Mirrored .amneziawg2 e.mirror.primaryFiles s ∧
        s.awg2Files.key = copiedKey e before) := by
  have hKey : Keeps (fun s : SyncState => s.awg2Files.key = before.awg2Files.key) (· = .other)
      (mirrorServerConfigs .amneziawg2 e.mirror) := mirror_keeps (fun _ _ hs => hs) _
  refine Ensures.bind (((mirrorServerConfigs_returns .amneziawg2 e.mirror).and hKey).mono
    (fun s hs => ⟨trivial, hs ▸ rfl⟩) (fun _ _ hs => hs) fun _ _ _ => trivial) fun _ => ?_
  refine Ensures.bind (ensures_raiseIf.mono (fun _ hs => hs) (fun _ _ hs => hs.1)
    fun _ _ _ => trivial) fun _ => ensures_runIf (fun hSome => ?_) fun s hs hNone => ?_
  · refine ensures_call (fun s hs => ⟨hs.1, ?_⟩) (fun _ _ => trivial) fun _ _ => trivial
    rw [copiedKey, if_neg (by simpa using hSome)]
    rfl
  · rw [copiedKey, if_pos (by simpa using hNone)]
    exact hs

/-- What the AmneziaWG2 copy brings. -/
structure Awg2Copied (e : Amneziawg2SyncEnv) (before : SyncState) (s : SyncState) : Prop where
  files : Mirrored .amneziawg2 e.mirror.primaryFiles s
  profiles : s.awg2Files.profiles = e.archive
  key : s.awg2Files.key = copiedKey e before

theorem awg2Copied_modifyLayer {e : Amneziawg2SyncEnv} {before : SyncState}
    {f : PeerLayer → PeerLayer} (hf : ∀ l, (f l).files = l.files) (s : SyncState)
    (hs : Awg2Copied e before s) : Awg2Copied e before (modifyLayer .amneziawg2 f s) :=
  ⟨mirrored_modifyLayer hf s hs.files, hs.profiles, hs.key⟩

theorem copyAmneziawg2_returns (e : Amneziawg2SyncEnv) (before : SyncState) :
    Returns (· = before) (copyAmneziawg2State e) (fun _ => Awg2Copied e before) := by
  refine Ensures.bind (mirrorAmneziawg2_returns e before) fun _ =>
    Ensures.bind (R := fun _ => Awg2Copied e before) (ensures_call
      (fun s hs => ⟨hs.1, rfl, hs.2⟩) (fun _ _ => trivial) fun _ _ => trivial) fun _ => ?_
  refine Ensures.returns (Keeps.ensures (K := fun _ => True) ?_)
  exact Keeps.bind (keeps_modify (awg2Copied_modifyLayer fun _ => rfl)) fun _ =>
    Keeps.bind (keeps_raiseIf trivial) fun _ => keeps_pure _

/-- A copy of AmneziaWG 2 that returns has copied the whole layer. -/
theorem syncAmneziawg2_returns (t : NodeTraffic) (e : Amneziawg2SyncEnv) (before : SyncState) :
    Returns (· = before) (syncAmneziawg2StateFromPrimary t e true)
      (fun _ => Awg2Copied e before) := by
  have hGuard : ∀ b (exc : SyncException), Returns (· = before) (raiseIf b exc)
      (fun _ => (· = before)) := fun b exc =>
    Ensures.returns (Keeps.ensures (K := fun _ => True) (keeps_raiseIf trivial))
  refine Ensures.bind (hGuard _ _) fun _ => Ensures.bind (hGuard _ _) fun _ =>
    Ensures.bind (hGuard _ _) fun _ => Ensures.bind (Ensures.tryCatch (R := fun _ _ => True)
      (copyAmneziawg2_returns e before) fun exc => ?_) fun _ => ?_
  · exact Ensures.bind (R := fun _ _ => True) (ensures_trivial _) fun _ =>
      ensures_throw fun _ _ => trivial
  · refine Ensures.returns (Keeps.ensures (K := fun _ => True) ?_)
    refine Keeps.bind (keeps_runIf ?_) fun _ => keeps_raiseIf trivial
    exact keeps_modify (awg2Copied_modifyLayer fun _ => rfl)

/-! ## The dispatcher -/

/-- What no copy changes: the AmneziaWG3 archive, and the AmneziaWG2 key when the primary has
none. -/
structure Kept (primary : VpnFiles) (before after : ReplicaServer) : Prop where
  awg3 : after.awg3 = before.awg3
  key : primary.awg2.key = "" → after.peers.awg2Files.key = before.peers.awg2Files.key

/-- A copy that reports success brings the protocol's state to this replica. -/
def Reaches (vpnType : VpnType) (primary replica : VpnFiles) : Prop :=
  match vpnType with
  | .openvpn => True
  | .wireguard => True
  | .amneziawg2 => primary.awg2.key = "" → replica.awg2.key = ""
  | .amneziawg3 => primary.awg3 = replica.awg3

section

variable {primary : VpnFiles}

theorem Kept.trans {a b d : ReplicaServer} (h : Kept primary a b) (h' : Kept primary b d) :
    Kept primary a d :=
  ⟨h'.awg3.trans h.awg3, fun hNone => (h'.key hNone).trans (h.key hNone)⟩

theorem reaches_iff_of_kept {before after : ReplicaServer} (h : Kept primary before after)
    (vpnType : VpnType) :
    Reaches vpnType primary after.files ↔ Reaches vpnType primary before.files := by
  cases vpnType with
  | openvpn | wireguard => exact Iff.rfl
  | amneziawg2 =>
    refine forall_congr' fun hNone => ?_
    show after.peers.awg2Files.key = "" ↔ before.peers.awg2Files.key = ""
    rw [h.key hNone]
  | amneziawg3 =>
    show primary.awg3 = after.awg3 ↔ primary.awg3 = before.awg3
    rw [h.awg3]

/-- What a copy for the protocol ends with. -/
def Copies (vpnType : VpnType) (primary : VpnFiles) (before after : ReplicaServer) : Prop :=
  Kept primary before after ∧
    (SameFor vpnType primary after.files ↔ Reaches vpnType primary before.files)

/-- The WireGuard copy, also where it stands in for the one of AmneziaWG3. -/
theorem zoomWireguard_ensures (c : CryptoCall) (before : ReplicaServer) :
    Ensures (· = before) (zoom ReplicaServer.peers (fun s r => { r with peers := s }) id
        (syncWireguardStateFromPrimary c.traffic (c.wireguardEnv primary)))
      (fun _ after => Kept primary before after ∧ after.awg3 = before.awg3 ∧
        after.files.serverConfigs .wireguard = primary.serverConfigs .wireguard)
      (fun _ after => Kept primary before after) := by
  have hFiles : Keeps (fun s : SyncState => s.awg2Files = before.peers.awg2Files) (fun _ => True)
      (syncWireguardStateFromPrimary c.traffic (c.wireguardEnv primary)) :=
    syncWireguard_keeps (fun _ _ hs => hs) _ _
  refine ensures_zoom fun r hr => ?_
  subst hr
  refine ((syncWireguard_returns c.traffic (c.wireguardEnv primary)).and hFiles).mono
    (fun s hs => ⟨trivial, hs ▸ rfl⟩) (fun _ s hs => ?_) fun _ s hs => ?_
  · exact ⟨⟨rfl, fun _ => congrArg Awg2Files.key hs.2⟩, rfl, hs.1⟩
  · exact ⟨rfl, fun _ => congrArg Awg2Files.key hs.2.1⟩

theorem awg2Files_eq_iff (a b : Awg2Files) : a = b ↔ a.key = b.key ∧ a.profiles = b.profiles := by
  cases a
  cases b
  rw [Awg2Files.mk.injEq]

/-- The AmneziaWG2 copy brings the key unless the primary has none. -/
theorem sameFor_of_copied {c : CryptoCall} {before : ReplicaServer} {s : SyncState}
    (h : Awg2Copied (c.amneziawg2Env primary) before.peers s) :
    SameFor .amneziawg2 primary { before with peers := s }.files ↔
      Reaches .amneziawg2 primary before.files := by
  have hKey : s.awg2Files.key =
      if primary.awg2.key = "" then before.peers.awg2Files.key else primary.awg2.key := h.key
  show primary.serverConfigs .amneziawg2 = (s.layer .amneziawg2).files ∧
    primary.awg2 = s.awg2Files ↔ (primary.awg2.key = "" → before.peers.awg2Files.key = "")
  rw [iff_true_intro (show primary.serverConfigs .amneziawg2 = _ from h.files.symm), true_and,
    awg2Files_eq_iff, iff_true_intro (show primary.awg2.profiles = _ from h.profiles.symm),
    and_true, hKey]
  by_cases hNone : primary.awg2.key = ""
  · rw [if_pos hNone, hNone, eq_comm]
    simp only [true_implies]
  · rw [if_neg hNone]
    exact iff_of_true rfl fun hSome => absurd hSome hNone

/-- **One replica.** When the copy for the protocol returns, the replica has the primary's
state if and only if it is one that the copy reaches. -/
theorem syncVpnCrypto_ensures (c : CryptoCall) (vpnType : VpnType) (before : ReplicaServer) :
    Ensures (· = before) (syncVpnCryptoFromPrimary primary c vpnType)
      (fun _ after => Copies vpnType primary before after)
      (fun _ after => Kept primary before after) := by
  cases vpnType with
  | openvpn =>
    rw [syncVpnCryptoFromPrimary, if_pos rfl]
    refine ensures_zoom fun r hr => ?_
    subst hr
    refine (syncOpenvpnPki_returns (c.openvpnEnv primary)).mono (fun _ _ => trivial)
      (fun _ s hs => ⟨⟨rfl, fun _ => rfl⟩, iff_of_true ?_ trivial⟩) fun _ _ _ => ⟨rfl, fun _ => rfl⟩
    obtain ⟨hDisk, hFiles⟩ := hs
    simp only [SameFor, ReplicaServer.files, hDisk, hFiles]
    exact ⟨rfl, rfl⟩
  | wireguard =>
    refine (zoomWireguard_ensures c before).mono (fun _ hs => hs) (fun _ s hs => ⟨hs.1, ?_⟩)
      fun _ _ hs => hs
    exact iff_of_true hs.2.2.symm trivial
  | amneziawg2 =>
    have hKey : Keeps (fun s : SyncState => primary.awg2.key = "" →
        s.awg2Files.key = before.peers.awg2Files.key) (fun _ => True)
        (syncAmneziawg2StateFromPrimary c.traffic (c.amneziawg2Env primary) true) :=
      syncAmneziawg2_keeps (fun _ _ hs => hs) _ _ (fun hSome _ _ hNone => absurd hNone hSome)
        (fun _ hs => hs) true
    rw [syncVpnCryptoFromPrimary, if_neg (by decide), if_pos rfl]
    refine ensures_zoom fun r hr => ?_
    subst hr
    refine ((syncAmneziawg2_returns c.traffic (c.amneziawg2Env primary) r.peers).and hKey).mono
      (fun s hs => ⟨hs, fun _ => hs ▸ rfl⟩) (fun _ s hs => ⟨⟨rfl, hs.2⟩, sameFor_of_copied hs.1⟩)
      fun _ s hs => ⟨rfl, hs.2.1⟩
  | amneziawg3 =>
    refine (zoomWireguard_ensures c before).mono (fun _ hs => hs) (fun _ s hs => ⟨hs.1, ?_⟩)
      fun _ _ hs => hs
    show primary.awg3 = s.awg3 ↔ primary.awg3 = before.awg3
    rw [hs.2.1]

end

/-! ## The links -/

/-- The shadows of a config are of its protocol. -/
def GroupDb.LinksAgree (db : GroupDb) (primaryConfig : ConfigRow) : Prop :=
  ∀ row ∈ db.configs, row.haPrimaryConfigId = some primaryConfig.configId →
    row.vpnType = primaryConfig.vpnType

/-! ## The rounds -/

/-- The result says that the replica was reached. -/
structure Reported (result : CryptoResult) (node : Nat) : Prop where
  success : node ∈ result.successes.map Prod.fst
  noError : some node ∉ result.errors.map Prod.fst
  noDrift : node ∉ result.drifts.map Prod.fst

/-- What holds between the rounds, `servers` being the replicas before the first. -/
structure RoundInv (vpnType : VpnType) (primary : VpnFiles) (servers : Nat → ReplicaServer)
    (db : GroupDb) (result : CryptoResult) : Prop where
  kept : ∀ node, Kept primary (servers node) (db.servers node)
  reached : ∀ node, Reported result node →
    (SameFor vpnType primary (db.servers node).files ↔
      Reaches vpnType primary (servers node).files)

section

variable {vpnType : VpnType} {primary : VpnFiles} {servers : Nat → ReplicaServer} {db : GroupDb}
  {result : CryptoResult}

/-- A new state on one server; a node counts as reached afterwards only for a reason. -/
theorem RoundInv.setServer (h : RoundInv vpnType primary servers db result) {node : Nat}
    {server : ReplicaServer} {result' : CryptoResult}
    (hKept : Kept primary (db.servers node) server)
    (hSelf : Reported result' node → (SameFor vpnType primary server.files ↔
      Reaches vpnType primary (db.servers node).files))
    (hOther : ∀ n, n ≠ node → Reported result' n → Reported result n) :
    RoundInv vpnType primary servers (db.setServer node server) result' := by
  constructor
  · intro n
    by_cases hn : n = node
    · subst hn
      simpa using (h.kept n).trans hKept
    · simpa [hn] using h.kept n
  · intro n hReported
    by_cases hn : n = node
    · subst hn
      simpa using (hSelf hReported).trans (reaches_iff_of_kept (h.kept n) vpnType)
    · simpa [hn] using h.reached n (hOther n hn hReported)

/-- The replica is reached, in the sense of the entry that the round is about to make. -/
def ReachedNow (vpnType : VpnType) (primary : VpnFiles) (servers : Nat → ReplicaServer)
    (node : Nat) (db : GroupDb) (result : CryptoResult) : Prop :=
  node ∉ result.drifts.map Prod.fst →
    (SameFor vpnType primary (db.servers node).files ↔
      Reaches vpnType primary (servers node).files)

theorem attemptSync_ensures (primary : VpnFiles) (vpnType : VpnType) (c : CryptoCall)
    (before : ReplicaServer) :
    Ensures (· = before) (attemptSync primary c vpnType)
      (fun _ after => Copies vpnType primary before after)
      (fun _ after => Kept primary before after) := by
  refine Ensures.bind (ensures_raiseIf.mono (fun _ hs => hs) (fun _ _ hs => hs.1) fun _ s hs => ?_)
    fun _ => syncVpnCrypto_ensures c vpnType before
  rw [hs.1]
  exact ⟨rfl, fun _ => rfl⟩

/-- The round of one replica, up to its success entry. -/
theorem syncReplica_inv (h : RoundInv vpnType primary servers db result) (c : CryptoCall)
    (node : Nat) {result' : CryptoResult} {goesOn : Bool}
    (hRound : syncReplica primary c vpnType node db result = (db', result', goesOn)) :
    RoundInv vpnType primary servers db' result' ∧
      (goesOn = true → ReachedNow vpnType primary servers node db' result') := by
  have hEnd := attemptSync_ensures primary vpnType c (db.servers node) _ rfl
  unfold syncReplica at hRound
  generalize perform (attemptSync primary c vpnType) (db.servers node) = ended at hEnd hRound
  obtain ⟨outcome, server⟩ := ended
  obtain ⟨rfl, hRecord⟩ := Prod.mk.inj hRound
  cases outcome with
  | ok _ =>
    obtain ⟨rfl, -⟩ := Prod.mk.inj hRecord
    refine ⟨h.setServer hEnd.1 (fun _ => hEnd.2) fun _ _ hReported => hReported, fun _ _ => ?_⟩
    rw [servers_setServer, if_pos rfl]
    exact hEnd.2.trans (reaches_iff_of_kept (h.kept node) vpnType)
  | error exc =>
    -- an entry of this round keeps the replica out of those that count as reached
    have hOther : ∀ {κ : Type} {k k' : κ} {xs : List (κ × SyncException)},
        k' ∉ (xs ++ [(k, exc)]).map Prod.fst → k' ≠ k ∧ k' ∉ xs.map Prod.fst := by
      intro κ k k' xs hk
      rw [map_append, mem_append, not_or] at hk
      exact ⟨fun hEq => hk.2 (by simp [hEq]), hk.1⟩
    cases exc with
    | replicaRuntime =>
      obtain ⟨rfl, -⟩ := Prod.mk.inj hRecord
      refine ⟨h.setServer hEnd (fun hReported => absurd rfl (hOther hReported.noDrift).1)
        fun n _ hReported => ⟨hReported.success, hReported.noError,
          (hOther hReported.noDrift).2⟩, fun _ hNoDrift => absurd rfl (hOther hNoDrift).1⟩
    | awg2NotInstalled | other =>
      cases hRecord
      refine ⟨h.setServer hEnd (fun hReported => absurd rfl (hOther hReported.noError).1)
        fun n _ hReported => ⟨hReported.success, (hOther hReported.noError).2,
          hReported.noDrift⟩, nofun⟩

/-- The success entry, over a change of the rows only. -/
theorem RoundInv.success (h : RoundInv vpnType primary servers db result) {node shadowId : Nat}
    (hReached : ReachedNow vpnType primary servers node db result)
    (hServers : db'.servers = db.servers) :
    RoundInv vpnType primary servers db'
      { result with successes := result.successes ++ [(node, some shadowId)] } := by
  constructor
  · rw [hServers]
    exact h.kept
  · intro n hReported
    rw [hServers]
    by_cases hn : n = node
    · rw [hn]
      exact hReached (hn ▸ hReported.noDrift)
    · refine h.reached n ⟨?_, hReported.noError, hReported.noDrift⟩
      simpa [hn] using hReported.success

@[simp] theorem upsertShadowConfig_servers (db : GroupDb) (node : Nat) (primaryConfig : ConfigRow) :
    (upsertShadowConfig db node primaryConfig).1.servers = db.servers := by
  unfold upsertShadowConfig
  split <;> rfl

theorem createRound_inv {env : ReplicateEnv} {primaryConfig : ConfigRow} (target : Nat × Nat)
    (h : RoundInv primaryConfig.vpnType primary servers acc.1 acc.2) :
    RoundInv primaryConfig.vpnType primary servers
      (createRound primary env primaryConfig acc target).1
      (createRound primary env primaryConfig acc target).2 := by
  unfold createRound
  rcases hRound : syncReplica primary (env.call target.2) primaryConfig.vpnType target.1 acc.1 acc.2
    with ⟨db', result', goesOn⟩
  obtain ⟨hInv, hReached⟩ := syncReplica_inv h _ _ hRound
  cases goesOn with
  | false => exact hInv
  | true => exact hInv.success (hReached rfl) (upsertShadowConfig_servers ..)

theorem deleteRound_inv {env : ReplicateEnv}
    {target : ConfigRow × Nat} (hType : target.1.vpnType = vpnType)
    (h : RoundInv vpnType primary servers acc.1 acc.2) :
    RoundInv vpnType primary servers (deleteRound primary env acc target).1
      (deleteRound primary env acc target).2 := by
  unfold deleteRound
  split
  · exact ⟨h.kept, h.reached⟩
  rw [hType]
  rcases hRound : syncReplica primary (env.call target.2) vpnType target.1.nodeId acc.1 acc.2
    with ⟨db', result', goesOn⟩
  obtain ⟨hInv, hReached⟩ := syncReplica_inv h _ _ hRound
  cases goesOn with
  | false => exact hInv
  | true => exact hInv.success (hReached rfl) rfl

theorem roundInv_start (vpnType : VpnType) (primary : VpnFiles) (db : GroupDb) (skipped : Bool) :
    RoundInv vpnType primary db.servers db { skipped := skipped } :=
  ⟨fun _ => ⟨rfl, fun _ => rfl⟩, fun _ hReported => absurd hReported.success not_mem_nil⟩

end

/-- **A client operation on the replicas.** A replica that the result lists as reached,
without an error or a drift, has the primary's server state of the client's protocol if
and only if the copy of that protocol reaches it. -/
theorem replicated_reaches (primary : VpnFiles) (env : ReplicateEnv) (primaryConfig : ConfigRow)
    (group : SyncGroup) (op : ClientOp) (db : GroupDb) {db' : GroupDb} {result : CryptoResult}
    (hLinks : db.LinksAgree primaryConfig)
    (hRun : replicateToReplicas primary env primaryConfig group op db = some (db', result))
    {node : Nat} (hReported : Reported result node) :
    SameFor primaryConfig.vpnType primary (db'.servers node).files ↔
      Reaches primaryConfig.vpnType primary (db.servers node).files := by
  suffices hInv : RoundInv primaryConfig.vpnType primary db.servers db' result from
    hInv.reached node hReported
  unfold replicateToReplicas at hRun
  split at hRun
  · cases hRun
    exact roundInv_start _ _ _ true
  split at hRun
  · cases hRun
  cases op with
  | create =>
    have hRounds := List.foldlRecOn (getReplicaNodes db group).zipIdx
      (createRound primary env primaryConfig)
      (motive := fun acc => RoundInv primaryConfig.vpnType primary db.servers acc.1 acc.2)
      (b := (db, {})) (roundInv_start _ _ _ false) fun acc hAcc target _ =>
        createRound_inv target hAcc
    cases hRun
    exact ⟨hRounds.kept, hRounds.reached⟩
  | delete =>
    have hRounds := List.foldlRecOn (getShadowConfigs db group primaryConfig).zipIdx
      (deleteRound primary env)
      (motive := fun acc => RoundInv primaryConfig.vpnType primary db.servers acc.1 acc.2)
      (b := (db, {})) (roundInv_start _ _ _ false) fun acc hAcc target hTarget => by
        have hShadow := mem_filter.mp (fst_mem_of_mem_zipIdx hTarget)
        refine deleteRound_inv (hLinks _ hShadow.1 ?_) hAcc
        exact (of_decide_eq_true hShadow.2).1
    obtain ⟨rfl, rfl⟩ := Prod.mk.inj (Option.some.inj hRun)
    exact hRounds

/-- Alice on the primary, in the WireGuard config and in the AmneziaWG3 registry. -/
def aliceOnPrimary : VpnFiles where
  easyrsa3 := { identity := ⟨some "ca", some "crt", some "key"⟩ }
  openvpnProfiles := "profiles"
  serverConfigs _ _ := some { clients := ["alice"] }
  awg2 := { key := "key", profiles := "profiles" }
  awg3 := "alice"

def emptyReplica : ReplicaServer where
  openvpn := { replica := ⟨⟨some "ca", some "crt", some "key"⟩, fun _ => none, false⟩ }
  peers := { layer := fun _ => ⟨Table.empty, fun _ => some { clients := [] }, fun _ => []⟩ }
  awg3 := ""

/-- Every call succeeds. -/
def workingCalls : ReplicateEnv where
  call _ :=
    { traffic := idle
      openvpn :=
        { archive := { pki := aliceOnPrimary.easyrsa3 }, restart := .multihome none }
      wireguard := { mirror := { primaryFiles := fun _ => none } }
      amneziawg2 := { mirror := { primaryFiles := fun _ => none } } }

def aliceConfig (vpnType : VpnType) : ConfigRow := ⟨1, 1, "alice", vpnType, none⟩

def aliceDb (vpnType : VpnType) : GroupDb :=
  ⟨[1, 2], [aliceConfig vpnType], 2, fun _ => emptyReplica⟩

/-- A new AmneziaWG3 client is reported as replicated, and is not in the replica's registry. -/
theorem awg3_create_not_copied :
    ∃ db' result, replicateToReplicas aliceOnPrimary workingCalls (aliceConfig .amneziawg3)
        ⟨[2], "auto"⟩ .create (aliceDb .amneziawg3) = some (db', result) ∧
      Reported result 2 ∧ ¬ SameFor .amneziawg3 aliceOnPrimary (db'.servers 2).files := by
  refine ⟨_, _, rfl, ⟨by decide, by decide, by decide⟩, fun hSame => ?_⟩
  have hReplica : "alice" = "" := hSame
  exact absurd hReplica (by decide)

theorem wireguard_create_copied :
    ∃ db' result, replicateToReplicas aliceOnPrimary workingCalls (aliceConfig .wireguard)
        ⟨[2], "auto"⟩ .create (aliceDb .wireguard) = some (db', result) ∧
      SameFor .wireguard aliceOnPrimary (db'.servers 2).files :=
  ⟨_, _, rfl, (replicated_reaches aliceOnPrimary workingCalls (aliceConfig .wireguard)
    ⟨[2], "auto"⟩ .create (aliceDb .wireguard)
    (fun row hRow _ => by rw [mem_singleton.mp hRow])
    rfl ⟨by decide, by decide, by decide⟩).mpr trivial⟩

end AdminPanel.NodeSync
