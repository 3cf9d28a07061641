import AdminPanel.Lib.Procedure
import AdminPanel.NodeSync.PolicySync

/-!
# Blocks on a replica across a copy of the state

A WireGuard or AmneziaWG2 block removes the peers from the running interface only, and
a runtime apply brings back every peer of the server configs. The functions that
copy state to a replica therefore re-block on every way out.

* `SyncState` — rows, server configs and live peers of a replica;
* `syncWireguardStateFromPrimary`, `syncAmneziawg2StateFromPrimary`,
  `syncAllVpnCryptoFromPrimary`, `runPushFull` — the four functions, with the calls
  that may raise;
* `replica_blocks_hold` — they keep every block, but for one case: a full push that
  cannot read AmneziaWG2 on the primary replaces the AmneziaWG2 rows all the same and
  re-blocks WireGuard only.

The re-block calls themselves succeed.
-/

namespace AdminPanel.NodeSync.Reblock

open Function Lib Lib.Procedure
open Access
open Panel (VpnType)

/-! ## The replica -/

/-- `WIREGUARD_INTERFACES` and, with a 2 after the name, `NATIVE_AWG2_INTERFACES` -/
inductive WgInterface
  | antizapret
  | vpn
  deriving DecidableEq, Repr

def wgInterfaces : List WgInterface := [.antizapret, .vpn]

/-- The `.conf` of an interface: its `[Interface]` part and the clients with a `[Peer]`. -/
structure ServerConfig where
  interface : String := ""
  clients : List String
  deriving DecidableEq, Repr

/-- One of the two protocols with runtime-only blocks: the policy rows, the server configs,
and the clients with a live peer on every interface. -/
structure PeerLayer where
  policies : Table String PolicyRow
  files : WgInterface → Option ServerConfig
  runtime : WgInterface → List String

inductive PeerProtocol
  | wireguard
  | amneziawg2
  deriving DecidableEq, Repr

def PeerProtocol.vpnType : PeerProtocol → VpnType
  | .wireguard => .wireguard
  | .amneziawg2 => .amneziawg2

/-- The server key and the client profiles of AmneziaWG2; no key is `""`. -/
structure Awg2Files where
  key : String := ""
  profiles : String := ""
  deriving DecidableEq, Repr

/-- The replica, with the two local variables of `run_push_full`. -/
structure SyncState where
  layer : PeerProtocol → PeerLayer
  awg2Files : Awg2Files := {}
  reblockAttempted : Bool := false
  awg2SyncStarted : Bool := false

inductive SyncException
  | replicaRuntime
  | awg2NotInstalled
  | other
  deriving DecidableEq, Repr

abbrev SyncProc := Procedure SyncException SyncState

/-- The policy of a client says that it is blocked. -/
def PeerLayer.isBlocked (l : PeerLayer) (r : NodeReading) (name : String) : Bool :=
  match l.policies.row? name with
  | some row => AdminPanel.Access.isBlocked row (r.client name)
  | none => false

/-- No blocked client has a live peer. -/
def BlocksHold (t : NodeTraffic) (p : PeerProtocol) (l : PeerLayer) : Prop :=
  ∀ name, reblockCovers p.vpnType name = true → l.isBlocked (t.reading p.vpnType) name = true →
    ∀ i, name ∉ l.runtime i

def modifyLayer (p : PeerProtocol) (f : PeerLayer → PeerLayer) (s : SyncState) : SyncState :=
  { s with layer := update s.layer p (f (s.layer p)) }

/-! ## The re-block -/

/-- The clients that `_reapply_all_blocked_runtime` (`_reapply_all_blocked_awg2_runtime`)
collects. -/
def PeerLayer.blockedClients (t : NodeTraffic) (p : PeerProtocol) (l : PeerLayer) : List String :=
  l.policies.keys.filter fun name =>
    reblockCovers p.vpnType name && l.isBlocked (t.reading p.vpnType) name

def PeerLayer.reblock (t : NodeTraffic) (p : PeerProtocol) (l : PeerLayer) : PeerLayer :=
  let blocked := l.blockedClients t p
  { l with runtime := fun i => (l.runtime i).filter fun name => name ∉ blocked }

/-- `_reapply_blocked_wireguard_policies`, `_reapply_blocked_awg2_policies` -/
def reapplyBlockedPolicies (t : NodeTraffic) (p : PeerProtocol) : SyncProc Unit :=
  modify (modifyLayer p (·.reblock t p))

def reapplyBlockedRuntimePolicies (t : NodeTraffic) (awg2 : Bool) : SyncProc Unit := do
  reapplyBlockedPolicies t .wireguard
  runIf awg2 (reapplyBlockedPolicies t .amneziawg2)

/-! ## Steps on the replica -/

/-- What `_mirror_wireguard_server_configs` meets, and the primary's configs. -/
structure MirrorEnv where
  primaryFiles : WgInterface → Option ServerConfig
  listRaises : Bool := false
  readRaises : WgInterface → Bool := fun _ => false
  write : WgInterface → CallEnd := fun _ => .ok
  listReplicaRaises : Bool := false
  delete : WgInterface → CallEnd := fun _ => .ok

def setFile (p : PeerProtocol) (i : WgInterface) (content : Option ServerConfig) :
    SyncState → SyncState :=
  modifyLayer p fun l => { l with files := update l.files i content }

/-- Copy the configs of the primary, then remove the extra ones. -/
def mirrorServerConfigs (p : PeerProtocol) (e : MirrorEnv) : SyncProc Unit := do
  raiseIf e.listRaises .other
  wgInterfaces.forM fun i =>
    match e.primaryFiles i with
    | some content => do
      raiseIf (e.readRaises i) .other
      call (e.write i) .other (setFile p i (some content))
    | none => pure ()
  raiseIf e.listReplicaRaises .other
  let s ← get
  let extra := wgInterfaces.filter fun i =>
    ((s.layer p).files i).isSome && (e.primaryFiles i).isNone
  extra.forM fun i => call (e.delete i) .other (setFile p i none)

/-- How a runtime apply ends: the interfaces that were synced, and whether it answered. -/
structure ApplyEnv where
  synced : WgInterface → Bool := fun _ => true
  raises : Bool := false

/-- `syncconf` of an interface: the peers of its config, all of them, become live. -/
def PeerLayer.sync (synced : WgInterface → Bool) (l : PeerLayer) : PeerLayer :=
  { l with runtime := fun i =>
      if synced i then ((l.files i).map ServerConfig.clients).getD (l.runtime i) else l.runtime i }

/-- `apply_wireguard_runtime`, `apply_amneziawg2_runtime`: the success it answers -/
def applyRuntime (p : PeerProtocol) (e : ApplyEnv) : SyncProc Bool := do
  modify (modifyLayer p (·.sync e.synced))
  raiseIf e.raises .other
  pure (wgInterfaces.all e.synced)

/-! ## vpn_state_sync.py -/

def mirrorWireguardServerConfigs (e : MirrorEnv) : SyncProc Unit := mirrorServerConfigs .wireguard e

/-- The server key of the primary and how its copy goes. -/
structure KeyCopy where
  serverKey : String := "key"
  readRaises : Bool := false
  write : CallEnd := .ok

def setAwg2Key (key : String) (s : SyncState) : SyncState :=
  { s with awg2Files := { s.awg2Files with key := key } }

def setAwg2Profiles (archive : String) (s : SyncState) : SyncState :=
  { s with awg2Files := { s.awg2Files with profiles := archive } }

def mirrorAmneziawg2ServerConfigs (e : MirrorEnv) (k : KeyCopy) : SyncProc Unit := do
  mirrorServerConfigs .amneziawg2 e
  raiseIf k.readRaises .other
  runIf (k.serverKey != "") (call k.write .other (setAwg2Key k.serverKey))

structure WireguardSyncEnv where
  mirror : MirrorEnv
  apply : ApplyEnv := {}
  profilesRaise : Bool := false

/-- `sync_wireguard_state_from_primary`, with `db` and `replica_node` given -/
def syncWireguardStateFromPrimary (t : NodeTraffic) (e : WireguardSyncEnv) : SyncProc Unit := do
  let success ← tryCatch
    (do
      mirrorWireguardServerConfigs e.mirror
      let success ← applyRuntime .wireguard e.apply
      raiseIf e.profilesRaise .other
      pure success)
    fun exc => do
      reapplyBlockedPolicies t .wireguard
      throw exc
  reapplyBlockedPolicies t .wireguard
  raiseIf (!success) .replicaRuntime

structure Amneziawg2SyncEnv where
  healthRaises : Bool := false
  installed : Bool := true
  exportRaises : Bool := false
  archive : String := "profiles"
  mirror : MirrorEnv
  key : KeyCopy := {}
  importEnd : CallEnd := .ok
  apply : ApplyEnv := {}

/-- The `try` block of `sync_amneziawg2_state_from_primary`. -/
def copyAmneziawg2State (e : Amneziawg2SyncEnv) : SyncProc Bool := do
  mirrorAmneziawg2ServerConfigs e.mirror e.key
  call e.importEnd .other (setAwg2Profiles e.archive)
  applyRuntime .amneziawg2 e.apply

/-- `sync_amneziawg2_state_from_primary`; `reblock` says that `db` and `replica_node`
are given. -/
def syncAmneziawg2StateFromPrimary (t : NodeTraffic) (e : Amneziawg2SyncEnv) (reblock : Bool) :
    SyncProc Unit := do
  raiseIf e.healthRaises .other
  raiseIf (!e.installed) .awg2NotInstalled
  raiseIf (e.exportRaises || e.archive == "") .other
  let success ← tryCatch (copyAmneziawg2State e) fun exc => do
      runIf reblock (reapplyBlockedPolicies t .amneziawg2)
      throw exc
  runIf reblock (reapplyBlockedPolicies t .amneziawg2)
  raiseIf (!success) .replicaRuntime

structure AllSyncEnv where
  wireguard : WireguardSyncEnv
  openvpnRaises : Bool := false
  primaryHasAwg2 : Bool := true
  amneziawg2 : Amneziawg2SyncEnv

/-- The AmneziaWG2 part of `sync_all_vpn_crypto_from_primary`: is there a runtime error? -/
def syncPrimaryAwg2 (t : NodeTraffic) (e : AllSyncEnv) : SyncProc Bool :=
  if e.primaryHasAwg2 then
    tryCatch
      (do
        syncAmneziawg2StateFromPrimary t e.amneziawg2 true
        pure false)
      fun exc =>
        if exc = .awg2NotInstalled then pure false
        else if exc = .replicaRuntime then pure true
        else throw exc
  else pure false

/-- `sync_all_vpn_crypto_from_primary`; the OpenVPN part touches no peer. -/
def syncAllVpnCryptoFromPrimary (t : NodeTraffic) (e : AllSyncEnv) : SyncProc Unit := do
  let wireguardError ← tryCatch
    (do
      syncWireguardStateFromPrimary t e.wireguard
      pure false)
    fun exc => if exc = .replicaRuntime then pure true else throw exc
  raiseIf e.openvpnRaises .other
  let awg2Error ← syncPrimaryAwg2 t e
  raiseIf (wireguardError || awg2Error) .replicaRuntime

/-! ## push_full.py -/

structure PushEnv where
  adapterRaises : Bool := false
  restoreRaises : Bool := false
  backupFiles : WgInterface → Option ServerConfig
  reload : ApplyEnv := {}
  profilesRaise : Bool := false
  pruned : List String := []
  pruneSync : ApplyEnv := {}
  pruneFails : Bool := false
  openvpnRaises : Bool := false
  apply : ApplyEnv := {}
  /-- The health of AmneziaWG2 on the primary was read and says installed. -/
  awg2Installed : Bool := true
  amneziawg2 : Amneziawg2SyncEnv
  /-- There is an admin to import the clients for. -/
  hasAdmin : Bool := true
  importRaises : Bool := false
  stale : PeerProtocol → String → Bool := fun _ _ => false
  primaryPolicies : PeerProtocol → Table String PolicyRow

/-- The steps of `run_push_full` up to `apply_wireguard`. -/
def pushRestore (e : PushEnv) : SyncProc Unit := do
  raiseIf e.restoreRaises .other
  modify (modifyLayer .wireguard fun l => { l with files := e.backupFiles })
  let _ ← applyRuntime .wireguard e.reload
  raiseIf e.profilesRaise .other
  modify (modifyLayer .wireguard fun l =>
    { l with files := fun i => (l.files i).map fun config =>
        { config with clients := config.clients.filter (· ∉ e.pruned) } })
  let _ ← applyRuntime .wireguard e.pruneSync
  raiseIf e.pruneFails .other
  raiseIf e.openvpnRaises .other
  let success ← applyRuntime .wireguard e.apply
  raiseIf (!success) .other

/-- The rows after `import_clients_from_disk` and `copy_access_policies_from_node`. -/
def PushEnv.pushedPolicies (e : PushEnv) (p : PeerProtocol) (l : PeerLayer) : PeerLayer :=
  { l with policies :=
      copyPoliciesForModel (e.primaryPolicies p) (l.policies.filter fun name _ => !e.stale p name) }

/-- The step `access_policies`. -/
def pushAccessPolicies (e : PushEnv) : SyncProc Unit := do
  raiseIf e.importRaises .other
  modify fun s => { s with layer := fun p => e.pushedPolicies p (s.layer p) }

/-- The `try` block of `run_push_full` for one replica. -/
def pushSteps (t : NodeTraffic) (e : PushEnv) : SyncProc Unit := do
  pushRestore e
  runIf e.awg2Installed do
    modify fun s => { s with awg2SyncStarted := true }
    syncAmneziawg2StateFromPrimary t e.amneziawg2 false
  runIf e.hasAdmin (pushAccessPolicies e)
  modify fun s => { s with reblockAttempted := true }
  reapplyBlockedRuntimePolicies t e.awg2Installed

/-- `run_push_full` on one replica; without an adapter nothing is re-blocked. -/
def runPushFull (t : NodeTraffic) (e : PushEnv) : SyncProc Unit := do
  modify fun s => { s with reblockAttempted := false, awg2SyncStarted := false }
  if e.adapterRaises then pure ()
  else
    tryCatch (pushSteps t e) fun exc => do
      let s ← get
      runIf (!s.reblockAttempted)
        (reapplyBlockedRuntimePolicies t (s.awg2SyncStarted && exc ≠ .awg2NotInstalled))

/-! ## What a step leaves alone -/

@[simp] theorem layer_modifyLayer_self (p : PeerProtocol) (f : PeerLayer → PeerLayer)
    (s : SyncState) : (modifyLayer p f s).layer p = f (s.layer p) := update_self ..

variable {q : PeerProtocol}

@[simp] theorem layer_modifyLayer_of_ne {p : PeerProtocol} (h : q ≠ p)
    (f : PeerLayer → PeerLayer) (s : SyncState) : (modifyLayer p f s).layer q = s.layer q :=
  update_of_ne h ..

/-- The other protocol and the local variables are as they were. -/
structure Untouched (s₀ : SyncState) (q : PeerProtocol) (s : SyncState) : Prop where
  layer : s.layer q = s₀.layer q
  reblockAttempted : s.reblockAttempted = s₀.reblockAttempted
  awg2SyncStarted : s.awg2SyncStarted = s₀.awg2SyncStarted

variable {K : SyncException → Prop}

section

variable {s₀ : SyncState} {p q : PeerProtocol} {I : SyncState → Prop}

theorem untouched_modifyLayer (h : q ≠ p) (f : PeerLayer → PeerLayer) (s : SyncState)
    (hs : Untouched s₀ q s) : Untouched s₀ q (modifyLayer p f s) :=
  ⟨(layer_modifyLayer_of_ne h f s).trans hs.layer, hs.reblockAttempted, hs.awg2SyncStarted⟩

/-- What survives any change of one layer survives the steps on it. -/
theorem mirror_keeps (hI : ∀ f s, I s → I (modifyLayer p f s)) (e : MirrorEnv) :
    Keeps I (· = .other) (mirrorServerConfigs p e) := by
  unfold mirrorServerConfigs
  refine Keeps.bind (keeps_raiseIf rfl) fun _ => Keeps.bind (keeps_forM fun i _ => ?_) fun _ =>
    Keeps.bind (keeps_raiseIf rfl) fun _ => Keeps.bind keeps_get fun s => keeps_forM fun i _ => ?_
  · cases e.primaryFiles i with
    | none => exact keeps_pure ()
    | some content => exact Keeps.bind (keeps_raiseIf rfl) fun _ => keeps_call rfl (hI _)
  · exact keeps_call rfl (hI _)

theorem apply_keeps (hI : ∀ f s, I s → I (modifyLayer p f s)) (e : ApplyEnv) :
    Keeps I (· = .other) (applyRuntime p e) :=
  Keeps.bind (keeps_modify (hI _)) fun _ => Keeps.bind (keeps_raiseIf rfl) fun _ => keeps_pure _

theorem reapply_keeps (hI : ∀ f s, I s → I (modifyLayer p f s)) (t : NodeTraffic)
    : Keeps I K (reapplyBlockedPolicies t p) :=
  keeps_modify (hI _)

theorem syncWireguard_keeps (hI : ∀ f s, I s → I (modifyLayer .wireguard f s)) (t : NodeTraffic)
    (e : WireguardSyncEnv) : Keeps I (fun _ => True) (syncWireguardStateFromPrimary t e) := by
  refine Keeps.bind (Keeps.tryCatch (K := (· = .other)) ?_ fun exc _ => ?_) fun success => ?_
  · refine Keeps.bind (mirror_keeps hI _) fun _ => Keeps.bind (apply_keeps hI _) fun _ => ?_
    exact Keeps.bind (keeps_raiseIf rfl) fun _ => keeps_pure _
  · exact Keeps.bind (reapply_keeps hI t) fun _ => keeps_throw trivial
  · exact Keeps.bind (reapply_keeps hI t) fun _ => keeps_raiseIf trivial

theorem copyAmneziawg2_keeps (hI : ∀ f s, I s → I (modifyLayer .amneziawg2 f s))
    (e : Amneziawg2SyncEnv)
    (hKey : e.key.serverKey ≠ "" → ∀ s, I s → I (setAwg2Key e.key.serverKey s))
    (hProfiles : ∀ s, I s → I (setAwg2Profiles e.archive s)) :
    Keeps I (· = .other) (copyAmneziawg2State e) := by
  refine Keeps.bind (Keeps.bind (mirror_keeps hI _) fun _ => Keeps.bind (keeps_raiseIf rfl)
    fun _ => ?_) fun _ => Keeps.bind (keeps_call rfl hProfiles) fun _ => apply_keeps hI _
  cases hEmpty : e.key.serverKey != "" with
  | false => exact keeps_pure ()
  | true => exact keeps_call rfl (hKey (by simpa using hEmpty))

theorem syncAmneziawg2_keeps (hI : ∀ f s, I s → I (modifyLayer .amneziawg2 f s)) (t : NodeTraffic)
    (e : Amneziawg2SyncEnv)
    (hKey : e.key.serverKey ≠ "" → ∀ s, I s → I (setAwg2Key e.key.serverKey s))
    (hProfiles : ∀ s, I s → I (setAwg2Profiles e.archive s)) (reblock : Bool) :
    Keeps I (fun _ => True) (syncAmneziawg2StateFromPrimary t e reblock) := by
  refine Keeps.bind (keeps_raiseIf trivial) fun _ => Keeps.bind (keeps_raiseIf trivial) fun _ =>
    Keeps.bind (keeps_raiseIf trivial) fun _ =>
      Keeps.bind (Keeps.tryCatch (copyAmneziawg2_keeps hI e hKey hProfiles) fun exc _ => ?_)
        fun _ => ?_
  · exact Keeps.bind (keeps_runIf (reapply_keeps hI t)) fun _ => keeps_throw trivial
  · exact Keeps.bind (keeps_runIf (reapply_keeps hI t)) fun _ => keeps_raiseIf trivial

theorem syncWireguard_untouched (s₀ : SyncState) (t : NodeTraffic) (e : WireguardSyncEnv) :
    Keeps (Untouched s₀ .amneziawg2) (fun _ => True) (syncWireguardStateFromPrimary t e) :=
  syncWireguard_keeps (untouched_modifyLayer (by decide)) t e

theorem untouched_awg2Files (f : SyncState → Awg2Files) (s : SyncState)
    (hs : Untouched s₀ .wireguard s) : Untouched s₀ .wireguard { s with awg2Files := f s } :=
  ⟨hs.layer, hs.reblockAttempted, hs.awg2SyncStarted⟩

theorem copyAmneziawg2_untouched (s₀ : SyncState) (e : Amneziawg2SyncEnv) :
    Keeps (Untouched s₀ .wireguard) (· = .other) (copyAmneziawg2State e) :=
  copyAmneziawg2_keeps (untouched_modifyLayer (by decide)) e (fun _ => untouched_awg2Files _)
    (untouched_awg2Files _)

theorem syncAmneziawg2_untouched (s₀ : SyncState) (t : NodeTraffic) (e : Amneziawg2SyncEnv)
    (reblock : Bool) :
    Keeps (Untouched s₀ .wireguard) (fun _ => True) (syncAmneziawg2StateFromPrimary t e reblock) :=
  syncAmneziawg2_keeps (untouched_modifyLayer (by decide)) t e (fun _ => untouched_awg2Files _)
    (untouched_awg2Files _) reblock

end

/-! ## The re-block holds -/

/-- **After a re-block** every block holds, whatever was live before. -/
theorem blocksHold_reblock (t : NodeTraffic) (p : PeerProtocol) (l : PeerLayer) :
    BlocksHold t p (l.reblock t p) := by
  intro name hCovers hBlocked i hLive
  have hNot : name ∉ l.blockedClients t p := by
    simpa using (List.mem_filter.mp hLive).2
  obtain ⟨row, hRow⟩ : ∃ row, l.policies.row? name = some row := by
    cases hRow : l.policies.row? name with
    | none => simp [PeerLayer.reblock, PeerLayer.isBlocked, hRow] at hBlocked
    | some row => exact ⟨row, rfl⟩
  refine hNot (List.mem_filter.mpr ⟨Table.mem_keys_of_row? hRow, ?_⟩)
  rw [Bool.and_eq_true]
  exact ⟨hCovers, hBlocked⟩

/-- Every block of one protocol holds on the replica. -/
def HoldsOn (t : NodeTraffic) (p : PeerProtocol) (s : SyncState) : Prop :=
  BlocksHold t p (s.layer p)

variable {P : SyncState → Prop} {E : SyncException → SyncState → Prop}

theorem reapply_ensures (t : NodeTraffic) (p : PeerProtocol) :
    Ensures P (reapplyBlockedPolicies t p) (fun _ => HoldsOn t p) E := by
  refine ensures_modify fun s _ => ?_
  rw [HoldsOn, layer_modifyLayer_self]
  exact blocksHold_reblock t p (s.layer p)

/-- Every way out of the WireGuard sync goes through a re-block. -/
theorem syncWireguard_ensures (t : NodeTraffic) (e : WireguardSyncEnv) :
    Ensures (fun _ => True) (syncWireguardStateFromPrimary t e) (fun _ => HoldsOn t .wireguard)
      (fun _ => HoldsOn t .wireguard) := by
  refine Ensures.bind (R := fun _ _ => True)
    (Ensures.tryCatch (R := fun _ _ => True) (ensures_trivial _) fun exc => ?_) fun success => ?_
  · exact Ensures.bind (reapply_ensures t .wireguard) fun _ => ensures_throw fun _ hs => hs
  · refine Ensures.bind (reapply_ensures t .wireguard) fun _ => ?_
    exact Keeps.ensures (K := fun _ => True) (keeps_raiseIf trivial)

/-- The AmneziaWG2 sync re-blocks once it has touched the replica. -/
theorem syncAmneziawg2_ensures (t : NodeTraffic) (e : Amneziawg2SyncEnv) :
    Ensures (HoldsOn t .amneziawg2) (syncAmneziawg2StateFromPrimary t e true)
      (fun _ => HoldsOn t .amneziawg2) (fun _ => HoldsOn t .amneziawg2) := by
  have hGuard : ∀ b (exc : SyncException), Ensures (HoldsOn t .amneziawg2) (raiseIf b exc)
      (fun _ => HoldsOn t .amneziawg2) (fun _ => HoldsOn t .amneziawg2) :=
    fun b exc => Keeps.ensures (K := fun _ => True) (keeps_raiseIf trivial)
  refine Ensures.bind (hGuard _ _) fun _ => Ensures.bind (hGuard _ _) fun _ =>
    Ensures.bind (hGuard _ _) fun _ => Ensures.bind (R := fun _ _ => True)
      (Ensures.tryCatch (R := fun _ _ => True) (ensures_trivial _) fun exc => ?_) fun _ => ?_
  · exact Ensures.bind (reapply_ensures t .amneziawg2) fun _ => ensures_throw fun _ hs => hs
  · exact Ensures.bind (reapply_ensures t .amneziawg2) fun _ => hGuard _ _

/-! ## The functions of `vpn_state_sync.py` -/

/-- What depends on untouched parts only is kept. -/
theorem keeps_of_untouched {α : Type}
    {op : SyncProc α} (h : ∀ s₀, Keeps (Untouched s₀ q) K op) {J : SyncState → Prop}
    (hJ : ∀ s₀ s, Untouched s₀ q s → J s₀ → J s) : Keeps J K op := by
  refine Ensures.of_pre fun s hs => ?_
  refine (h s).mono ?_ (fun _ t ht => hJ s t ht hs) fun _ t ht => ⟨hJ s t ht.1 hs, ht.2⟩
  rintro t rfl
  exact ⟨rfl, rfl, rfl⟩

variable {t : NodeTraffic}

theorem holdsOn_of_untouched (s₀ s : SyncState)
    (h : Untouched s₀ q s) (hHolds : HoldsOn t q s₀) : HoldsOn t q s := by
  unfold HoldsOn
  rw [h.layer]
  exact hHolds

/-- Every block holds on the replica. -/
structure Holds (t : NodeTraffic) (s : SyncState) : Prop where
  wireguard : HoldsOn t .wireguard s
  amneziawg2 : HoldsOn t .amneziawg2 s

theorem syncWireguard_holds (t : NodeTraffic) (e : WireguardSyncEnv) :
    Ensures (Holds t) (syncWireguardStateFromPrimary t e) (fun _ => Holds t)
      (fun _ => Holds t) := by
  have hFrame := keeps_of_untouched (syncWireguard_untouched · t e) (J := HoldsOn t .amneziawg2)
    holdsOn_of_untouched
  refine ((syncWireguard_ensures t e).and hFrame).mono (fun s hs => ⟨trivial, hs.amneziawg2⟩) ?_ ?_
  · exact fun _ s hs => ⟨hs.1, hs.2⟩
  · exact fun _ s hs => ⟨hs.1, hs.2.1⟩

theorem syncAmneziawg2_holds (t : NodeTraffic) (e : Amneziawg2SyncEnv) :
    Ensures (Holds t) (syncAmneziawg2StateFromPrimary t e true) (fun _ => Holds t)
      (fun _ => Holds t) := by
  have hFrame := keeps_of_untouched (syncAmneziawg2_untouched · t e true)
    (J := HoldsOn t .wireguard) holdsOn_of_untouched
  refine ((syncAmneziawg2_ensures t e).and hFrame).mono (fun s hs => ⟨hs.amneziawg2, hs.wireguard⟩)
    ?_ ?_
  · exact fun _ s hs => ⟨hs.2, hs.1⟩
  · exact fun _ s hs => ⟨hs.2.1, hs.1⟩

/-- The two rules for exceptions fit together when any exception is allowed. -/
theorem keeps_holds {α : Type} {op : SyncProc α}
    (h : Ensures (Holds t) op (fun _ => Holds t) (fun _ => Holds t)) :
    Keeps (Holds t) (fun _ => True) op :=
  h.mono (fun _ hs => hs) (fun _ _ hs => hs) fun _ _ hs => ⟨hs, trivial⟩

theorem syncPrimaryAwg2_holds (t : NodeTraffic) (e : AllSyncEnv) :
    Keeps (Holds t) (fun _ => True) (syncPrimaryAwg2 t e) := by
  unfold syncPrimaryAwg2
  split
  · refine Keeps.tryCatch (K := fun _ => True) ?_ fun exc _ => ?_
    · exact Keeps.bind (keeps_holds (syncAmneziawg2_holds t e.amneziawg2)) fun _ => keeps_pure _
    · cases exc
      · exact keeps_pure _
      · exact keeps_pure _
      · exact keeps_throw trivial
  · exact keeps_pure _

theorem syncAll_holds (t : NodeTraffic) (e : AllSyncEnv) :
    Keeps (Holds t) (fun _ => True) (syncAllVpnCryptoFromPrimary t e) := by
  refine Keeps.bind (Keeps.tryCatch (K := fun _ => True) ?_ fun exc _ => ?_) fun _ =>
    Keeps.bind (keeps_raiseIf trivial) fun _ => Keeps.bind (syncPrimaryAwg2_holds t e) fun _ =>
      keeps_raiseIf trivial
  · exact Keeps.bind (keeps_holds (syncWireguard_holds t e.wireguard)) fun _ => keeps_pure _
  · cases exc
    · exact keeps_pure _
    · exact keeps_throw trivial
    · exact keeps_throw trivial

/-! ## The full push -/

theorem holdsOn_modifyLayer_of_ne {p : PeerProtocol} (h : q ≠ p)
    (f : PeerLayer → PeerLayer) {s : SyncState} (hs : HoldsOn t q s) :
    HoldsOn t q (modifyLayer p f s) := by
  unfold HoldsOn
  rw [layer_modifyLayer_of_ne h]
  exact hs

/-- The WireGuard blocks hold after the common re-block. -/
theorem reapplyRuntime_wireguard (t : NodeTraffic) (awg2 : Bool) :
    Ensures P (reapplyBlockedRuntimePolicies t awg2) (fun _ => HoldsOn t .wireguard) E := by
  refine Ensures.bind (reapply_ensures t .wireguard) fun _ => ensures_runIf (fun _ => ?_)
    fun _ hs _ => hs
  exact ensures_modify fun _ hs => holdsOn_modifyLayer_of_ne (by decide) _ hs

theorem reapplyRuntime_amneziawg2 (t : NodeTraffic) :
    Ensures P (reapplyBlockedRuntimePolicies t true) (fun _ => HoldsOn t .amneziawg2) E :=
  Ensures.bind (R := fun _ _ => True) (ensures_modify fun _ _ => trivial) fun _ =>
    reapply_ensures t .amneziawg2

/-- Without AmneziaWG2 the common re-block leaves that layer alone. -/
theorem reapplyRuntime_layer (t : NodeTraffic) (l : PeerLayer) :
    Keeps (fun s => s.layer .amneziawg2 = l) K (reapplyBlockedRuntimePolicies t false) :=
  Keeps.bind (keeps_modify fun s hs => (layer_modifyLayer_of_ne (by decide) _ s).trans hs) fun _ =>
    keeps_pure ()

/-- The steps before AmneziaWG2 all succeed. -/
def PushEnv.restores (e : PushEnv) : Bool :=
  !e.restoreRaises && !e.reload.raises && !e.profilesRaise && !e.pruneSync.raises &&
    !e.pruneFails && !e.openvpnRaises && !e.apply.raises && wgInterfaces.all e.apply.synced

section

variable {s₀ : SyncState}

theorem applyRuntime_checks (e : ApplyEnv) :
    Checks (Untouched s₀ .amneziawg2) (!e.raises) (applyRuntime .wireguard e) :=
  Checks.congr
    (Checks.bind (checks_modify (untouched_modifyLayer (by decide) _)) fun _ =>
      Checks.bind checks_raiseIf fun _ => checks_pure _)
    (by simp)

/-- An apply whose failure raises. -/
theorem applyAll_checks (e : ApplyEnv) :
    Checks (Untouched s₀ .amneziawg2) (!e.raises && wgInterfaces.all e.synced) (do
      let success ← applyRuntime .wireguard e
      raiseIf (!success) .other) := by
  intro s hs
  have hSync := untouched_modifyLayer (p := .wireguard) (by decide) (·.sync e.synced) s hs
  simp only [applyRuntime, perform_bind, perform_modify, perform_raiseIf]
  cases hRaises : e.raises with
  | true => exact ⟨hSync, by simp⟩
  | false =>
    cases hAll : wgInterfaces.all e.synced with
    | true | false => exact ⟨hSync, rfl⟩

theorem pushRestore_checks (s₀ : SyncState) (e : PushEnv) :
    Checks (Untouched s₀ .amneziawg2) e.restores (pushRestore e) := by
  have hModify : ∀ f, Checks (Untouched s₀ .amneziawg2) true
      (modify (modifyLayer .wireguard f) : SyncProc PUnit) :=
    fun f => checks_modify (untouched_modifyLayer (by decide) f)
  refine Checks.congr (Checks.bind checks_raiseIf fun _ => Checks.bind (hModify _) fun _ =>
    Checks.bind (applyRuntime_checks _) fun _ => Checks.bind checks_raiseIf fun _ =>
      Checks.bind (hModify _) fun _ => Checks.bind (applyRuntime_checks _) fun _ =>
        Checks.bind checks_raiseIf fun _ => Checks.bind checks_raiseIf fun _ =>
          applyAll_checks _) ?_
  simp only [PushEnv.restores, Bool.true_and, Bool.and_assoc]

end

/-- The steps before AmneziaWG2 touch neither that layer nor the local variables. -/
theorem pushRestore_untouched (s₀ : SyncState) (e : PushEnv) :
    Keeps (Untouched s₀ .amneziawg2) (fun _ => True) (pushRestore e) :=
  (pushRestore_checks s₀ e).mono (fun _ hs => hs) (fun _ _ hs => hs.1) fun _ _ hs => ⟨hs.1, trivial⟩

/-- What raises in the `try` block before the re-block finds it not attempted. -/
theorem pushSteps_wireguard (t : NodeTraffic) (e : PushEnv) :
    Ensures (fun s => s.reblockAttempted = false) (pushSteps t e) (fun _ => HoldsOn t .wireguard)
      (fun _ s => s.reblockAttempted = false) := by
  have hRestore := keeps_of_untouched (pushRestore_untouched · e)
    (J := fun s => s.reblockAttempted = false) fun s₀ s h hs => h.reblockAttempted.trans hs
  have hSync := keeps_of_untouched (syncAmneziawg2_untouched · t e.amneziawg2 false)
    (J := fun s => s.reblockAttempted = false) fun s₀ s h hs => h.reblockAttempted.trans hs
  refine Ensures.bind hRestore.ensures fun _ => ?_
  refine Ensures.bind (Keeps.ensures (K := fun _ => True) (keeps_runIf ?_)) fun _ => ?_
  · exact Keeps.bind (keeps_modify fun s hs => hs) fun _ => hSync
  refine Ensures.bind (Keeps.ensures (K := fun _ => True) (keeps_runIf ?_)) fun _ => ?_
  · exact Keeps.bind (keeps_raiseIf trivial) fun _ => keeps_modify fun s hs => hs
  exact Ensures.bind (R := fun _ _ => True) (ensures_modify fun _ _ => trivial) fun _ =>
    reapplyRuntime_wireguard t _

theorem runPushFull_wireguard (t : NodeTraffic) (e : PushEnv) :
    Ensures (HoldsOn t .wireguard) (runPushFull t e) (fun _ => HoldsOn t .wireguard)
      (fun _ => HoldsOn t .wireguard) := by
  refine Ensures.bind (R := fun _ s => s.reblockAttempted = false ∧ HoldsOn t .wireguard s)
    (ensures_modify fun s hs => ⟨rfl, hs⟩) fun _ => ?_
  split
  · exact ensures_pure fun s hs => hs.2
  refine Ensures.tryCatch ((pushSteps_wireguard t e).mono (fun s hs => hs.1) (fun _ _ hs => hs)
    fun _ _ hs => hs) fun exc => ?_
  refine Ensures.bind (R := fun a s => a = s ∧ s.reblockAttempted = false)
    (ensures_get fun s hs => ⟨rfl, hs⟩) fun s => ensures_runIf (fun _ => ?_) ?_
  · exact reapplyRuntime_wireguard t _
  · rintro u ⟨rfl, hNot⟩ hSkip
    rw [hNot] at hSkip
    cases hSkip

/-! ## AmneziaWG2 across a push -/

/-- Without a re-block of its own the AmneziaWG2 sync says by its exception whether it
touched the replica. -/
theorem syncAmneziawg2_raises (t : NodeTraffic) (e : Amneziawg2SyncEnv) :
    Ensures (HoldsOn t .amneziawg2) (syncAmneziawg2StateFromPrimary t e false) (fun _ _ => True)
      (fun exc s => exc ≠ .awg2NotInstalled ∨ HoldsOn t .amneziawg2 s) := by
  have hGuard : ∀ b (exc : SyncException), Ensures (HoldsOn t .amneziawg2) (raiseIf b exc)
      (fun _ => HoldsOn t .amneziawg2)
      (fun exc s => exc ≠ .awg2NotInstalled ∨ HoldsOn t .amneziawg2 s) :=
    fun b exc => (keeps_raiseIf (K := fun _ => True) trivial).ensures.mono (fun _ hs => hs)
      (fun _ _ hs => hs) fun _ _ hs => .inr hs
  refine Ensures.bind (hGuard _ _) fun _ => Ensures.bind (hGuard _ _) fun _ =>
    Ensures.bind (hGuard _ _) fun _ => Ensures.bind (R := fun _ _ => True)
      (Ensures.tryCatch (R := fun exc _ => exc = .other) ?_ fun exc => ?_) fun _ => ?_
  · refine Ensures.of_pre fun s _ => (copyAmneziawg2_untouched s e).mono ?_ (fun _ _ _ => trivial)
      fun _ _ hs => hs.2
    rintro u rfl
    exact ⟨rfl, rfl, rfl⟩
  · exact Ensures.bind (R := fun _ _ => exc = .other) (ensures_pure fun _ hs => hs) fun _ =>
      ensures_throw fun _ hs => .inl (by rw [hs]; decide)
  · refine Ensures.bind (R := fun _ _ => True) (ensures_pure fun _ _ => trivial) fun success => ?_
    exact (keeps_raiseIf (I := fun _ => True) (K := (· = .replicaRuntime)) rfl).mono
      (fun _ _ => trivial) (fun _ _ _ => trivial) fun _ _ hs => .inl (by rw [hs.2]; decide)

/-- The local variables of the push. -/
def Locals (attempted started : Bool) (s : SyncState) : Prop :=
  s.reblockAttempted = attempted ∧ s.awg2SyncStarted = started

theorem locals_of_untouched {attempted started : Bool} (s₀ s : SyncState)
    (h : Untouched s₀ q s) (hs : Locals attempted started s₀) : Locals attempted started s :=
  ⟨h.reblockAttempted.trans hs.1, h.awg2SyncStarted.trans hs.2⟩

/-- What the handler of a push finds: a re-block of AmneziaWG2 is due only if it will be
made. -/
def HandlerFinds (t : NodeTraffic) (exc : SyncException) (s : SyncState) : Prop :=
  s.reblockAttempted = false ∧
    (s.awg2SyncStarted = true ∧ exc ≠ .awg2NotInstalled ∨ HoldsOn t .amneziawg2 s)

variable {e : PushEnv}

theorem pushSteps_amneziawg2 (t : NodeTraffic) (hInstalled : e.awg2Installed = true) :
    Ensures (fun s => Locals false false s ∧ HoldsOn t .amneziawg2 s) (pushSteps t e)
      (fun _ => HoldsOn t .amneziawg2) (HandlerFinds t) := by
  have hRestore := keeps_of_untouched (pushRestore_untouched · e)
    (J := fun s => Locals false false s ∧ HoldsOn t .amneziawg2 s) fun s₀ s h hs =>
      ⟨locals_of_untouched s₀ s h hs.1, holdsOn_of_untouched s₀ s h hs.2⟩
  have hLocals := keeps_of_untouched (syncAmneziawg2_untouched · t e.amneziawg2 false)
    (J := Locals false true) locals_of_untouched
  unfold pushSteps
  rw [hInstalled]
  refine Ensures.bind (hRestore.mono (fun _ hs => hs) (fun _ _ hs => hs)
    fun _ s hs => ⟨hs.1.1.1, .inr hs.1.2⟩) fun _ => ?_
  refine Ensures.bind (R := fun _ => Locals false true) ?_ fun _ => ?_
  · refine Ensures.bind (R := fun _ s => HoldsOn t .amneziawg2 s ∧ Locals false true s)
      (ensures_modify fun s hs => ⟨hs.2, hs.1.1, rfl⟩) fun _ => ?_
    refine ((syncAmneziawg2_raises t e.amneziawg2).and hLocals).mono (fun _ hs => hs)
      (fun _ _ hs => hs.2) fun exc s hs => ⟨hs.2.1.1, ?_⟩
    exact hs.1.imp_left fun hNe => ⟨hs.2.1.2, hNe⟩
  refine Ensures.bind (R := fun _ => Locals false true) ?_ fun _ => ?_
  · refine (keeps_runIf (I := Locals false true) (K := (· = .other)) ?_).mono (fun _ hs => hs)
      (fun _ _ hs => hs) fun exc s hs => ⟨hs.1.1, .inl ⟨hs.1.2, by rw [hs.2]; decide⟩⟩
    exact Keeps.bind (keeps_raiseIf rfl) fun _ => keeps_modify fun s hs => hs
  exact Ensures.bind (R := fun _ _ => True) (ensures_modify fun _ _ => trivial) fun _ =>
    reapplyRuntime_amneziawg2 t

theorem runPushFull_amneziawg2 (t : NodeTraffic) (hInstalled : e.awg2Installed = true) :
    Ensures (HoldsOn t .amneziawg2) (runPushFull t e) (fun _ => HoldsOn t .amneziawg2)
      (fun _ => HoldsOn t .amneziawg2) := by
  refine Ensures.bind (R := fun _ s => Locals false false s ∧ HoldsOn t .amneziawg2 s)
    (ensures_modify fun s hs => ⟨⟨rfl, rfl⟩, hs⟩) fun _ => ?_
  split
  · exact ensures_pure fun s hs => hs.2
  refine Ensures.tryCatch (pushSteps_amneziawg2 t hInstalled) fun exc => ?_
  refine Ensures.bind (R := fun a s => a = s ∧ HandlerFinds t exc s)
    (ensures_get fun s hs => ⟨rfl, hs⟩) fun s => ensures_runIf (fun _ => ?_) ?_
  · cases hStarted : s.awg2SyncStarted && decide (exc ≠ .awg2NotInstalled) with
    | true => exact reapplyRuntime_amneziawg2 t
    | false =>
      refine Ensures.of_pre fun u hu => ?_
      have hHolds : HoldsOn t .amneziawg2 u := by
        refine hu.2.2.resolve_left fun hDue => ?_
        rw [hu.1, hDue.1] at hStarted
        simp [hDue.2] at hStarted
      refine (reapplyRuntime_layer t (u.layer .amneziawg2) (K := fun _ => True)).mono
        (fun v hv => hv ▸ rfl) (fun _ v hv => ?_) fun _ v hv => ?_
      · rwa [HoldsOn, hv]
      · rwa [HoldsOn, hv.1]
  · rintro u ⟨rfl, hNot, -⟩ hSkip
    rw [hNot] at hSkip
    cases hSkip

/-- The push replaces the AmneziaWG2 rows of the replica. -/
def PushEnv.copies (e : PushEnv) : Bool :=
  !e.adapterRaises && e.restores && e.hasAdmin && !e.importRaises

/-- The AmneziaWG2 layer after a push that does not see AmneziaWG2 on the primary. -/
def PushEnv.leavesLayer (e : PushEnv) (l : PeerLayer) : PeerLayer :=
  if e.copies then e.pushedPolicies .amneziawg2 l else l

/-- Before the rows are copied nothing of AmneziaWG2 has moved. -/
def Unmoved (l : PeerLayer) (s : SyncState) : Prop :=
  Locals false false s ∧ s.layer .amneziawg2 = l

theorem pushRestore_unmoved (e : PushEnv) (l : PeerLayer) :
    Checks (Unmoved l) e.restores (pushRestore e) := by
  refine Ensures.of_pre fun u hu => ?_
  have hFrame : ∀ s, Untouched u .amneziawg2 s → Unmoved l s :=
    fun s hs => ⟨locals_of_untouched u s hs hu.1, hs.layer.trans hu.2⟩
  refine (pushRestore_checks u e).mono ?_ (fun _ s hs => ⟨hFrame s hs.1, hs.2⟩)
    fun _ s hs => ⟨hFrame s hs.1, hs.2⟩
  rintro s rfl
  exact ⟨rfl, rfl, rfl⟩

theorem pushSteps_layer (t : NodeTraffic) (hMissing : e.awg2Installed = false)
    (hAdapter : e.adapterRaises = false) (l : PeerLayer) :
    Ensures (Unmoved l) (pushSteps t e) (fun _ s => s.layer .amneziawg2 = e.leavesLayer l)
      (fun _ s => Unmoved l s ∧ e.copies = false) := by
  unfold pushSteps
  rw [hMissing]
  refine Ensures.bind ((pushRestore_unmoved e l).mono (fun _ hs => hs) (fun _ _ hs => hs)
    fun _ s hs => ⟨hs.1, by simp [PushEnv.copies, hs.2]⟩) fun _ => ?_
  refine Ensures.bind (R := fun _ s => Unmoved l s ∧ e.restores = true)
    (ensures_pure fun _ hs => hs) fun _ => ?_
  refine Ensures.bind (R := fun _ s => s.layer .amneziawg2 = e.leavesLayer l)
    (ensures_runIf (fun hAdmin => ?_) fun s hs hAdmin => ?_) fun _ => ?_
  · refine Ensures.bind (ensures_raiseIf.mono (fun _ hs => hs) (fun _ _ hs => hs)
      fun _ s hs => ⟨hs.1.1, by simp [PushEnv.copies, hs.2]⟩) fun _ => ensures_modify fun s hs => ?_
    have hCopies : e.copies = true := by
      simp [PushEnv.copies, hAdapter, hs.1.2, hAdmin, hs.2]
    rw [PushEnv.leavesLayer, if_pos hCopies, ← hs.1.1.2]
  · have hCopies : e.copies = false := by
      simp [PushEnv.copies, hAdmin]
    rw [PushEnv.leavesLayer, hCopies]
    exact hs.1.2
  · refine Ensures.bind (R := fun _ s => s.layer .amneziawg2 = e.leavesLayer l)
      (ensures_modify fun s hs => hs) fun _ => ?_
    exact (reapplyRuntime_layer t _ (K := fun _ => False)).mono (fun _ hs => hs) (fun _ _ hs => hs)
      fun _ _ hs => hs.2.elim

/-- **The exception.** Such a push ends with the new rows and the old peers. -/
theorem runPushFull_layer (t : NodeTraffic) (hMissing : e.awg2Installed = false) (s : SyncState) :
    (perform (runPushFull t e) s).2.layer .amneziawg2 = e.leavesLayer (s.layer .amneziawg2) := by
  have hEnsures : Ensures (· = s) (runPushFull t e)
      (fun _ u => u.layer .amneziawg2 = e.leavesLayer (s.layer .amneziawg2))
      (fun _ u => u.layer .amneziawg2 = e.leavesLayer (s.layer .amneziawg2)) := by
    refine Ensures.bind (R := fun _ => Unmoved (s.layer .amneziawg2))
      (ensures_modify fun u hu => ⟨⟨rfl, rfl⟩, hu ▸ rfl⟩) fun _ => ?_
    cases hAdapter : e.adapterRaises with
    | true =>
      refine ensures_pure fun u hu => ?_
      have hCopies : e.copies = false := by
        simp [PushEnv.copies, hAdapter]
      rw [PushEnv.leavesLayer, hCopies]
      exact hu.2
    | false =>
      refine Ensures.tryCatch (pushSteps_layer t hMissing hAdapter _) fun exc => ?_
      refine Ensures.bind (R := fun a u => a = u ∧ Unmoved (s.layer .amneziawg2) u ∧
        e.copies = false) (ensures_get fun u hu => ⟨rfl, hu⟩) fun a => ?_
      refine Ensures.of_pre fun u hu => ?_
      obtain ⟨rfl, hUnmoved, hCopies⟩ := hu
      have hStarted : (a.awg2SyncStarted && decide (exc ≠ .awg2NotInstalled)) = false := by
        rw [hUnmoved.1.2, Bool.false_and]
      rw [PushEnv.leavesLayer, hCopies, hStarted]
      refine Keeps.ensures (K := fun _ => False) (keeps_runIf (reapplyRuntime_layer t _)) |>.mono
        ?_ (fun _ _ hu => hu) fun _ _ hu => hu
      rintro u rfl
      exact hUnmoved.2
  exact hEnsures.state rfl

/-! ## All four -/

/-- The functions that copy state to a replica, with what each meets. -/
inductive CopyOp
  | wireguard (e : WireguardSyncEnv)
  | amneziawg2 (e : Amneziawg2SyncEnv)
  | all (e : AllSyncEnv)
  | pushFull (e : PushEnv)

def CopyOp.run (t : NodeTraffic) : CopyOp → SyncProc Unit
  | .wireguard e => syncWireguardStateFromPrimary t e
  | .amneziawg2 e => syncAmneziawg2StateFromPrimary t e true
  | .all e => syncAllVpnCryptoFromPrimary t e
  | .pushFull e => runPushFull t e

/-- A push that does not see AmneziaWG2 on the primary copies no row that blocks an
AmneziaWG2 client who is live on the replica. -/
def CopyOp.Keeps (t : NodeTraffic) (s : SyncState) : CopyOp → Prop
  | .pushFull e => e.awg2Installed = false → e.copies = true →
      BlocksHold t .amneziawg2 (e.pushedPolicies .amneziawg2 (s.layer .amneziawg2))
  | _ => True

/-- **A full push** keeps the blocks exactly if `Keeps` holds of it. -/
theorem pushFull_holds_iff (t : NodeTraffic) (e : PushEnv) {s : SyncState} (h : Holds t s) :
    Holds t (perform (runPushFull t e) s).2 ↔ (CopyOp.pushFull e).Keeps t s := by
  have hWireguard := (runPushFull_wireguard t e).state h.wireguard
  unfold CopyOp.Keeps
  cases hInstalled : e.awg2Installed with
  | true =>
    exact iff_of_true ⟨hWireguard, (runPushFull_amneziawg2 t hInstalled).state h.amneziawg2⟩
      (by simp [hInstalled])
  | false =>
    have hLayer := runPushFull_layer t hInstalled s
    have hIff : Holds t (perform (runPushFull t e) s).2 ↔
        BlocksHold t .amneziawg2 (e.leavesLayer (s.layer .amneziawg2)) := by
      rw [← hLayer]
      exact ⟨fun hHolds => hHolds.amneziawg2, fun hHolds => ⟨hWireguard, hHolds⟩⟩
    rw [hIff, PushEnv.leavesLayer]
    cases hCopies : e.copies with
    | true => simp [hInstalled, hCopies]
    | false => exact iff_of_true h.amneziawg2 (by simp [hCopies])

/-- **Blocks across a copy.** When every blocked client of the replica is without peers
before one of the four functions runs, every one is afterwards, however the function
ends, if and only if its condition is met. -/
theorem replica_blocks_hold (t : NodeTraffic) (op : CopyOp) (s : SyncState) (h : Holds t s) :
    Holds t (perform (op.run t) s).2 ↔ op.Keeps t s := by
  cases op with
  | wireguard e => exact iff_of_true ((syncWireguard_holds t e).state h) trivial
  | amneziawg2 e => exact iff_of_true ((syncAmneziawg2_holds t e).state h) trivial
  | all e => exact iff_of_true ((syncAll_holds t e).ensures.state h) trivial
  | pushFull e => exact pushFull_holds_iff t e h

/-- Alice, live on the replica without a policy row there. -/
def aliceLive : SyncState :=
  { layer := fun _ => ⟨Table.empty, fun _ => some { clients := ["alice"] }, fun _ => ["alice"]⟩ }

/-- The primary's row, blocked while the replica could not be reached. -/
def aliceBanned : Table String PolicyRow :=
  Table.empty.set "alice" { isPermanentBlocked := true, blockReason := some .manualPermanent }

def idle : NodeTraffic := ⟨0, fun _ _ _ => 0⟩

theorem aliceLive_holds : Holds idle aliceLive := by
  constructor <;> intro name _ hBlocked <;>
    simp [aliceLive, PeerLayer.isBlocked] at hBlocked

/-- A push after the health of AmneziaWG2 on the primary could not be read. -/
def blindPush : PushEnv where
  backupFiles := fun _ => some { clients := ["alice"] }
  awg2Installed := false
  amneziawg2 := { mirror := { primaryFiles := fun _ => some { clients := ["alice"] } } }
  primaryPolicies := fun _ => aliceBanned

theorem push_leaves_blocked_live :
    Holds idle aliceLive ∧ ¬ Holds idle (perform (runPushFull idle blindPush) aliceLive).2 := by
  refine ⟨aliceLive_holds, fun hHolds => ?_⟩
  refine hHolds.amneziawg2 "alice" (by decide) (by decide) .vpn ?_
  decide

/-- The same push with AmneziaWG2 seen on the primary. -/
theorem push_blocks_alice :
    Holds idle aliceLive ∧
      Holds idle
        (perform (runPushFull idle { blindPush with awg2Installed := true }) aliceLive).2 :=
  ⟨aliceLive_holds, (replica_blocks_hold idle (.pushFull { blindPush with awg2Installed := true })
    aliceLive aliceLive_holds).mpr nofun⟩

end AdminPanel.NodeSync.Reblock
