import AdminPanel.NodeSync.SyncStatus
import AdminPanel.Panel.ConfigImport

/-!
# Sync groups and shadow links

The members of a group hold a row of every client each: the row of the primary node, and on the
replicas its shadows, which refer to it. Links are made when a group is formed or turned to
automatic mode and when a client is created; they are cleared when the members change, when the
mode is turned back and when the group is deleted.

* `HaDb` — the rows, the groups and the nodes;
* `validateSyncGroupPayload`, `createSyncGroup`, `updateSyncGroup`, `deleteSyncGroup` — the groups;
* `dissolveSyncGroup`, `clearShadowLinks`, `linkShadowConfigs`, `linkPrimaryConfigs` — the links;
* `handleClientCreate`, `createConfig` — a client and its shadows;
* `Kept` — the rows that were there stay, under their node, name and protocol.
-/

namespace AdminPanel.Panel.Ha

open Lib (Table exec)
open NodeSync.Status

/-! ## Groups -/

/-- A row of `node_sync_groups`. -/
structure SyncGroup extends GroupRow where
  name : String
  primaryNodeId : Nat
  replicaNodeIds : List Nat
  syncMode : String
  deriving DecidableEq, Repr

/-- A row of `nodes`; `online` is its status. -/
structure NodeRow where
  name : String
  online : Bool
  antizapretVersion : String
  deriving DecidableEq, Repr

structure HaDb (ρ : Type) extends ConfigDb ρ where
  nodes : Table Nat NodeRow
  groups : Table Nat SyncGroup
  /-- `banned_clients` of the nodes. -/
  banned : Nat → List String

/-- `strip().lower()` of a `sync_mode` -/
def normalizedMode (syncMode : String) : String := lower (stripped syncMode)

def isAutoSyncEnabled (g : SyncGroup) : Bool := normalizedMode g.syncMode = "auto"

/-- `json.dumps(sorted(set(...)))` -/
def serializeReplicaNodeIds (replicaIds : List Nat) : List Nat :=
  replicaIds.dedup.insertionSort (· ≤ ·)

/-- `group_member_node_ids` -/
def SyncGroup.members (g : SyncGroup) : List Nat := g.primaryNodeId :: g.replicaNodeIds

section

variable {ρ : Type} (db : HaDb ρ)

/-- The first group with `p`. -/
def HaDb.firstGroup (p : Nat → SyncGroup → Bool) : Option (Nat × SyncGroup) :=
  db.groups.keys.findSome? fun gid => ((db.groups.row? gid).filter (p gid)).map (gid, ·)

def findGroupForNode (nodeId : Nat) (excludeGroupId : Option Nat) : Option (Nat × SyncGroup) :=
  db.firstGroup fun gid g => excludeGroupId ≠ some gid && nodeId ∈ g.members

def findSyncGroupForPrimary (nodeId : Nat) : Option (Nat × SyncGroup) :=
  db.firstGroup fun _ g => g.primaryNodeId = nodeId

def getReplicaNodes (g : SyncGroup) : List Nat :=
  g.replicaNodeIds.filter fun nodeId => (db.nodes.row? nodeId).isSome

/-- The errors of `validate_sync_group_payload` about one replica. -/
def replicaErrors (excludeGroupId : Option Nat) (nodeId : Nat) : List String :=
  match db.nodes.row? nodeId with
  | none => ["Replica узел " ++ toString nodeId ++ " не найден"]
  | some node =>
    (if node.online then [] else ["Replica «" ++ node.name ++ "» не online"]) ++
      match findGroupForNode db nodeId excludeGroupId with
      | none => []
      | some (_, existing) => ["Узел «" ++ node.name ++ "» уже в группе «" ++ existing.name ++ "»"]

def primaryErrors (primaryNodeId : Nat) : List String :=
  match db.nodes.row? primaryNodeId with
  | none => ["Primary узел " ++ toString primaryNodeId ++ " не найден"]
  | some primary =>
    if primary.online then [] else ["Primary узел «" ++ primary.name ++ "» не online"]

def primaryGroupErrors (primaryNodeId : Nat) (excludeGroupId : Option Nat) : List String :=
  match db.nodes.row? primaryNodeId with
  | none => []
  | some primary =>
    match findGroupForNode db primaryNodeId excludeGroupId with
    | none => []
    | some (_, existing) =>
      ["Primary «" ++ primary.name ++ "» уже в группе «" ++ existing.name ++ "»"]

def versionErrors (nodeIds : List Nat) : List String :=
  let versions := ((nodeIds.filterMap db.nodes.row?).map (·.antizapretVersion)).filter (· ≠ "")
  if 1 < versions.dedup.length then
    ["Разные версии AntiZapret на узлах: " ++
      ", ".intercalate (versions.dedup.insertionSort (· ≤ ·))]
  else []

def validateSyncGroupPayload (primaryNodeId : Nat) (replicaNodeIds : List Nat)
    (excludeGroupId : Option Nat) : List String :=
  (if replicaNodeIds = [] then ["Укажите хотя бы один replica-узел"] else []) ++
    (if primaryNodeId ∈ replicaNodeIds then ["Primary не может быть в списке replica"] else []) ++
    primaryErrors db primaryNodeId ++ replicaNodeIds.flatMap (replicaErrors db excludeGroupId) ++
    primaryGroupErrors db primaryNodeId excludeGroupId ++
    versionErrors db (primaryNodeId :: replicaNodeIds)

end

theorem firstGroup_some {ρ : Type} {db : HaDb ρ} {p : Nat → SyncGroup → Bool} {gid : Nat}
    {g : SyncGroup} (h : db.firstGroup p = some (gid, g)) :
    db.groups.row? gid = some g ∧ p gid g = true := by
  obtain ⟨other, -, hFound⟩ := List.exists_of_findSome?_eq_some h
  obtain ⟨found, hFilter, hPair⟩ := Option.map_eq_some_iff.mp hFound
  obtain ⟨rfl, rfl⟩ := Prod.mk.injEq .. ▸ hPair
  exact Option.filter_eq_some_iff.mp hFilter

/-! ## Clearing links -/

section

variable (t : ConfigTable) (gid : Nat) (g : SyncGroup)

/-- The rows that `dissolve_sync_group` detaches as the primary's. -/
def taggedPrimary (row : ConfigRow) : Bool :=
  row.syncGroupId = some gid && row.haPrimaryConfigId.isNone && row.nodeId = g.primaryNodeId

/-- The rows that it detaches as shadows. -/
def groupShadow (row : ConfigRow) : Bool :=
  row.haPrimaryConfigId.any fun p =>
    row.syncGroupId = some gid || (t.row? p).any (taggedPrimary gid g)

/-- `stray_replica_configs` -/
def strayReplica (row : ConfigRow) : Bool :=
  row.syncGroupId = some gid && row.haPrimaryConfigId.isNone && row.nodeId ≠ g.primaryNodeId

def detached (row : ConfigRow) : ConfigRow :=
  if groupShadow t gid g row then { row with syncGroupId := none, haPrimaryConfigId := none }
  else if taggedPrimary gid g row || strayReplica gid g row then { row with syncGroupId := none }
  else row

theorem detached_entry (row : ConfigRow) :
    (detached t gid g row).nodeId = row.nodeId ∧
      (detached t gid g row).clientName = row.clientName ∧
      (detached t gid g row).vpnType = row.vpnType := by
  unfold detached
  split_ifs <;> exact ⟨rfl, rfl, rfl⟩

/-- `dissolve_sync_group`: the queries all read what was committed. -/
def dissolveSyncGroup (t : ConfigTable) : ConfigTable :=
  t.relink (fun _ => detached t gid g) (fun _ row => detached_entry t gid g row) <| by
    intro _ row p hP
    refine .inl ?_
    unfold detached at hP
    split_ifs at hP
    · exact hP
    · exact hP

theorem row?_dissolve (t : ConfigTable) (id : Nat) :
    (dissolveSyncGroup gid g t).row? id = (t.row? id).map (detached t gid g) := rfl

/-- `clear_shadow_links_for_group` -/
def clearShadowLinks (t : ConfigTable) : ConfigTable :=
  t.relink
    (fun _ row =>
      if row.syncGroupId = some gid then { row with haPrimaryConfigId := none } else row)
    (fun _ _ => by split <;> exact ⟨rfl, rfl, rfl⟩) <| by
    intro _ row p hP
    refine .inl ?_
    split_ifs at hP
    exact hP

/-! ## Making links -/

/-- A new shadow of `upsert_shadow_config`. -/
def shadowRow (gid replicaNodeId primaryConfigId : Nat) (primary : ConfigRow) : ConfigRow :=
  { primary with
    nodeId := replicaNodeId
    syncGroupId := some gid
    haPrimaryConfigId := some primaryConfigId }

/-- What `upsert_shadow_config` makes of a row that is there. -/
def linkedRow (gid primaryConfigId : Nat) (primary row : ConfigRow) : ConfigRow :=
  { row with
    syncGroupId := some gid
    haPrimaryConfigId := some primaryConfigId
    certExpiresAt := primary.certExpiresAt
    expiresAt := primary.expiresAt }

def linkExisting (gid primaryConfigId : Nat) (primary : ConfigRow) (existing : Nat) :
    Option ConfigTable :=
  if h : (t.row? primaryConfigId).isSome = true then
    some <| t.relink
      (fun id row => if id = existing then linkedRow gid primaryConfigId primary row else row)
      (fun _ _ => by split <;> exact ⟨rfl, rfl, rfl⟩) <| by
      intro id row p hP
      split_ifs at hP
      · obtain rfl : primaryConfigId = p := Option.some.inj hP
        exact .inr h
      · exact .inl hP
  else none

def upsertShadowConfig (gid replicaNodeId primaryConfigId : Nat)
    (primary : ConfigRow) (existing : Option Nat) : Option ConfigTable :=
  match existing with
  | some id => linkExisting t gid primaryConfigId primary id
  | none => t.insert (shadowRow gid replicaNodeId primaryConfigId primary)

/-- The row of the client on the replica. -/
def findReplicaRow (replicaNodeId : Nat) (primary : ConfigRow) : Option Nat :=
  (t.ids fun row => row.nodeId = replicaNodeId && row.clientName = primary.clientName &&
    row.vpnType = primary.vpnType).head?

/-- `already_linked`: the certificate dates are taken over. -/
def refreshedRow (primary row : ConfigRow) : ConfigRow :=
  { row with
    syncGroupId := some gid
    certExpireDays := primary.certExpireDays
    certExpiresAt := primary.certExpiresAt }

def refreshShadow (primary : ConfigRow) (existing : Nat) : ConfigTable :=
  t.update (fun id row => if id = existing then refreshedRow gid primary row else row)
    fun _ _ => by split <;> rfl

/-- One replica's turn in `link_shadow_configs_for_group`. -/
def linkReplica (gid primaryConfigId : Nat) (t : ConfigTable) (replicaNodeId : Nat) :
    Option ConfigTable := do
  let primary ← t.row? primaryConfigId
  match findReplicaRow t replicaNodeId primary with
  | none => upsertShadowConfig t gid replicaNodeId primaryConfigId primary none
  | some existing =>
    match (t.row? existing).bind (·.haPrimaryConfigId) with
    | none => upsertShadowConfig t gid replicaNodeId primaryConfigId primary (some existing)
    | some p =>
      if p = primaryConfigId then return refreshShadow t gid primary existing
      -- a row of `conflicts`
      else return t

def tagGroup (gid configId : Nat) : ConfigTable :=
  t.update (fun id row => if id = configId then { row with syncGroupId := some gid } else row)
    fun _ _ => by split <;> rfl

/-- One primary row's turn. -/
def linkShadows (replicaNodes : List Nat) (t : ConfigTable) (primaryConfigId : Nat) :
    Option ConfigTable :=
  exec (linkReplica gid primaryConfigId) (tagGroup t gid primaryConfigId) replicaNodes

/-- The unlinked rows of the primary node. -/
def primaryConfigs (t : ConfigTable) : List Nat :=
  t.ids fun row => row.nodeId = g.primaryNodeId && row.haPrimaryConfigId.isNone

/-- `link_shadow_configs_for_group` -/
def linkShadowConfigs (replicaNodes : List Nat) (t : ConfigTable) : Option ConfigTable :=
  if !isAutoSyncEnabled g then some t
  else if replicaNodes = [] then some t
  else exec (linkShadows gid replicaNodes) t (primaryConfigs g t)

/-- `link_primary_configs_to_group` -/
def linkPrimaryConfigs (t : ConfigTable) : ConfigTable :=
  if isAutoSyncEnabled g then t
  else t.update
    (fun _ row =>
      if row.nodeId = g.primaryNodeId && row.haPrimaryConfigId.isNone then
        { row with syncGroupId := some gid }
      else row)
    fun _ _ => by split <;> rfl

/-- `link_primary_config_to_group` -/
def linkPrimaryConfig (t : ConfigTable) (configId : Nat) : ConfigTable :=
  if isAutoSyncEnabled g then t
  else if (t.row? configId).any fun row =>
      row.nodeId = g.primaryNodeId && row.haPrimaryConfigId.isNone then
    tagGroup t gid configId
  else t

end

/-! ## node_sync.py -/

section

variable {ρ : Type}

section

variable (db : HaDb ρ) (gid : Nat) (g : SyncGroup)

/-- The links of a group as its mode has them; what was committed before stays if this raises. -/
def linkGroup : HaDb ρ :=
  if isAutoSyncEnabled g then
    { db with
      configs := (linkShadowConfigs gid g (getReplicaNodes db g) db.configs).getD db.configs }
  else { db with configs := linkPrimaryConfigs gid g db.configs }

structure SyncGroupCreate where
  name : String
  primaryNodeId : Nat
  replicaNodeIds : List Nat
  syncMode : String := "manual_full"
  /-- One of the domains is the panel's own. -/
  domainConflict : Bool := false

def newGroup (payload : SyncGroupCreate) : SyncGroup where
  syncStatus := .unknown
  name := stripped payload.name
  primaryNodeId := payload.primaryNodeId
  replicaNodeIds := serializeReplicaNodeIds payload.replicaNodeIds
  syncMode := if payload.syncMode = "" then "manual_full" else payload.syncMode

/-- `create_sync_group`, under an id that is free. -/
def createSyncGroup (payload : SyncGroupCreate) : Option (HaDb ρ) :=
  if (db.groups.row? gid).isSome then none
  else if validateSyncGroupPayload db payload.primaryNodeId payload.replicaNodeIds none ≠ [] then
    none
  else if payload.domainConflict then none
  else
    some <| linkGroup { db with groups := db.groups.set gid (newGroup payload) } gid
      (newGroup payload)

structure SyncGroupUpdate where
  name : Option String := none
  primaryNodeId : Option Nat := none
  replicaNodeIds : Option (List Nat) := none
  syncMode : Option String := none
  domainConflict : Bool := false

def applyGroupFields (payload : SyncGroupUpdate) : SyncGroup :=
  { g with
    name := (payload.name.map stripped).getD g.name
    primaryNodeId := payload.primaryNodeId.getD g.primaryNodeId
    replicaNodeIds := (payload.replicaNodeIds.map serializeReplicaNodeIds).getD g.replicaNodeIds
    syncMode := payload.syncMode.getD g.syncMode }

def membershipChanged (payload : SyncGroupUpdate) : Bool :=
  payload.primaryNodeId.getD g.primaryNodeId ≠ g.primaryNodeId ||
    serializeReplicaNodeIds (payload.replicaNodeIds.getD g.replicaNodeIds) ≠
      serializeReplicaNodeIds g.replicaNodeIds

/-- The mode goes from automatic to `manual_full`. -/
def leavesAuto (g g' : SyncGroup) : Bool :=
  isAutoSyncEnabled g && normalizedMode g'.syncMode = "manual_full"

/-- The end of `update_sync_group` when the members stay. -/
def changeMode (g g' : SyncGroup) : HaDb ρ :=
  let configs := if leavesAuto g g' then clearShadowLinks gid db.configs else db.configs
  if isAutoSyncEnabled g' && !isAutoSyncEnabled g then linkGroup { db with configs } gid g'
  else { db with configs }

def updateSyncGroup (payload : SyncGroupUpdate) : Option (HaDb ρ) :=
  match db.groups.row? gid with
  | none => none
  | some g =>
    if g.syncStatus = .pending then none
    else if validateSyncGroupPayload db (payload.primaryNodeId.getD g.primaryNodeId)
        (payload.replicaNodeIds.getD g.replicaNodeIds) (some gid) ≠ [] then none
    else if payload.domainConflict then none
    else
      let g' := applyGroupFields g payload
      let groups := db.groups.set gid g'
      if membershipChanged g payload then
        some (linkGroup { db with configs := dissolveSyncGroup gid g db.configs, groups } gid g')
      else some (changeMode { db with groups } gid g g')

/-- `delete_sync_group`; a row that still has the group raises. -/
def deleteSyncGroup : Option (HaDb ρ) :=
  match db.groups.row? gid with
  | none => none
  | some g =>
    if g.syncStatus = .pending then none
    else
      let configs := dissolveSyncGroup gid g db.configs
      if configs.ids (·.syncGroupId = some gid) = [] then
        some { db with configs, groups := db.groups.erase gid }
      else none

/-! ## Creating a client -/

/-- What the calls to the nodes meet. -/
structure HaEnv where
  /-- There is no adapter for the primary. -/
  aborts : Bool := false
  /-- The transfer to a replica. -/
  turn : Nat → TurnEnd := fun _ => .ok
  /-- The node lets its `banned_clients` be read and written. -/
  forgets : Nat → Bool := fun _ => true

def transferFailed : TurnEnd → Bool
  | .failed _ => true
  | .drift _ => false
  | .ok => false

def HaEnv.opEnv (env : HaEnv) : OpEnv := { aborts := env.aborts, turn := env.turn }

/-- One replica's turn in `_handle_client_create`. -/
def createShadow (env : HaEnv) (gid primaryConfigId : Nat) (t : ConfigTable) (replicaNodeId : Nat) :
    Option ConfigTable :=
  if transferFailed (env.turn replicaNodeId) then some t
  else do
    let primary ← t.row? primaryConfigId
    upsertShadowConfig t gid replicaNodeId primaryConfigId primary
      (findReplicaRow t replicaNodeId primary)

/-- The last lines of `_handle_client_create`. -/
def claimPrimary (t : ConfigTable) (gid primaryConfigId : Nat) : ConfigTable :=
  t.relink
    (fun id row =>
      if id = primaryConfigId then { row with syncGroupId := some gid, haPrimaryConfigId := none }
      else row)
    (fun _ _ => by split <;> exact ⟨rfl, rfl, rfl⟩) <| by
    intro _ row p hP
    refine .inl ?_
    split_ifs at hP
    exact hP

/-- The rows of `_handle_client_create`. -/
def handleClientCreate (env : HaEnv) (gid primaryConfigId : Nat) (replicaNodes : List Nat)
    (t : ConfigTable) : Option ConfigTable :=
  (exec (createShadow env gid primaryConfigId) t replicaNodes).map
    (claimPrimary · gid primaryConfigId)

/-- The group as the status functions see it. -/
def HaDb.statusGroup : Group where
  replicas := getReplicaNodes db g
  nodeName := fun nodeId => ((db.nodes.row? nodeId).map (·.name)).getD ""

def HaDb.setStatus (row : GroupRow) : HaDb ρ :=
  { db with groups := db.groups.set gid { g with toGroupRow := row } }

def maybeReplicateCreate (nodeId primaryConfigId : Nat) (env : HaEnv) : Option (HaDb ρ) :=
  match findSyncGroupForPrimary db nodeId with
  | none => some db
  | some (gid, g) =>
    if env.aborts then none
    else if isAutoSyncEnabled g then
      let result := collect true (replicaTurns (db.statusGroup g) env.opEnv)
      (handleClientCreate env gid primaryConfigId (getReplicaNodes db g) db.configs).map
        fun configs =>
          { db with configs }.setStatus gid g (finalizeReplicateOutcome result true g.toGroupRow)
    else
      some <| { db with configs := linkPrimaryConfig gid g db.configs primaryConfigId }.setStatus
        gid g (replicatePrimaryCryptoToReplicas (db.statusGroup g) env.opEnv g.toGroupRow)

/-- `require_ha_primary_for_client_ops` -/
def isReplica (nodeId : Nat) : Bool :=
  (findGroupForNode db nodeId none).any fun (_, g) => g.primaryNodeId ≠ nodeId

/-- `create_config`: the row is committed before it is replicated. -/
def createConfig (row : ConfigRow) (env : HaEnv) : Option (HaDb ρ) :=
  if isReplica db row.nodeId then none
  else
    (db.configs.insert { row with haPrimaryConfigId := none, syncGroupId := none }).map
      fun configs =>
        (maybeReplicateCreate { db with configs } row.nodeId db.configs.nextId env).getD
          { db with configs }

end

end

/-! ## Rows stay -/

section

variable {ρ : Type} {db after : HaDb ρ} {t t' u : ConfigTable} {gid primaryConfigId : Nat}
  {row primary : ConfigRow} {env : HaEnv}

/-- The rows stay, with what they are about. -/
def Kept (t t' : ConfigTable) : Prop :=
  ∀ id row, t.row? id = some row → ∃ row', t'.row? id = some row' ∧ row'.nodeId = row.nodeId ∧
    row'.clientName = row.clientName ∧ row'.vpnType = row.vpnType

theorem Kept.refl (t : ConfigTable) : Kept t t := fun _ row hRow => ⟨row, hRow, rfl, rfl, rfl⟩

theorem Kept.trans (h : Kept t t') (h' : Kept t' u) : Kept t u := by
  intro id row hRow
  obtain ⟨mid, hMid, hNode, hName, hType⟩ := h id row hRow
  obtain ⟨last, hLast, hNode', hName', hType'⟩ := h' id mid hMid
  exact ⟨last, hLast, hNode'.trans hNode, hName'.trans hName, hType'.trans hType⟩

theorem kept_relink {f : Nat → ConfigRow → ConfigRow}
    {hEntry : ∀ id row, (f id row).nodeId = row.nodeId ∧ (f id row).clientName = row.clientName ∧
      (f id row).vpnType = row.vpnType}
    {hRefs : ∀ id row p, (f id row).haPrimaryConfigId = some p →
      row.haPrimaryConfigId = some p ∨ (t.row? p).isSome = true} :
    Kept t (t.relink f hEntry hRefs) := by
  intro id row hRow
  exact ⟨f id row, by rw [ConfigTable.row?_relink, hRow]; rfl, hEntry id row⟩

theorem kept_insert (h : t.insert row = some t') : Kept t t' := by
  intro id old hOld
  refine ⟨old, ?_, rfl, rfl, rfl⟩
  rw [ConfigTable.row?_insert h, if_neg, hOld]
  rintro rfl
  rw [ConfigTable.row?_nextId] at hOld
  cases hOld

theorem kept_tagGroup (t : ConfigTable) (gid configId : Nat) :
    Kept t (tagGroup t gid configId) := by
  intro id row hRow
  refine ⟨_, by rw [tagGroup, ConfigTable.row?_update, hRow]; rfl, ?_⟩
  split <;> exact ⟨rfl, rfl, rfl⟩

theorem kept_linkPrimaryConfig (gid : Nat) (g : SyncGroup) (t : ConfigTable) (configId : Nat) :
    Kept t (linkPrimaryConfig gid g t configId) := by
  rw [linkPrimaryConfig]
  split
  · exact Kept.refl t
  · split
    · exact kept_tagGroup t gid configId
    · exact Kept.refl t

theorem kept_upsert {replicaNodeId : Nat} {existing : Option Nat}
    (h : upsertShadowConfig t gid replicaNodeId primaryConfigId primary existing = some t') :
    Kept t t' := by
  cases existing with
  | none => exact kept_insert h
  | some id =>
    rw [upsertShadowConfig, linkExisting] at h
    split_ifs at h
    cases h
    exact kept_relink

theorem kept_createShadow {replicaNodeId : Nat}
    (h : createShadow env gid primaryConfigId t replicaNodeId = some t') : Kept t t' := by
  rw [createShadow] at h
  split_ifs at h
  · cases h
    exact Kept.refl t
  · obtain ⟨row, -, hUpsert⟩ := Option.bind_eq_some_iff.mp h
    exact kept_upsert hUpsert

theorem kept_handleClientCreate {replicaNodes : List Nat}
    (h : handleClientCreate env gid primaryConfigId replicaNodes t = some t') : Kept t t' := by
  rw [handleClientCreate, Option.map_eq_some_iff] at h
  obtain ⟨mid, hLoop, rfl⟩ := h
  have hMid : Kept t mid := Lib.invariant_of_exec
    (fun _ _ _ hInv hTurn => hInv.trans (kept_createShadow hTurn)) (Kept.refl t) hLoop
  exact hMid.trans kept_relink

/-- Creating a client adds rows and leaves policies, links and banned names. -/
structure OnlyAdds (db after : HaDb ρ) : Prop where
  rows : Kept db.configs after.configs
  policies : after.policies = db.policies
  banned : after.banned = db.banned

theorem onlyAdds_maybeReplicateCreate {nodeId : Nat}
    (h : maybeReplicateCreate db nodeId primaryConfigId env = some after) : OnlyAdds db after := by
  rw [maybeReplicateCreate] at h
  split at h
  · cases h
    exact ⟨Kept.refl _, rfl, rfl⟩
  · next gid g _ =>
    split_ifs at h
    · obtain ⟨configs, hCreate, rfl⟩ := Option.map_eq_some_iff.mp h
      exact ⟨kept_handleClientCreate hCreate, rfl, rfl⟩
    · have hRows := kept_linkPrimaryConfig gid g db.configs primaryConfigId
      generalize linkPrimaryConfig gid g db.configs primaryConfigId = configs at h hRows
      cases h
      exact ⟨hRows, rfl, rfl⟩

theorem onlyAdds_createConfig (h : createConfig db row env = some after) : OnlyAdds db after := by
  rw [createConfig] at h
  split_ifs at h
  obtain ⟨configs, hInsert, hAfter⟩ := Option.map_eq_some_iff.mp h
  have hRows : Kept db.configs configs := kept_insert hInsert
  cases hCreate : maybeReplicateCreate { db with configs } row.nodeId db.configs.nextId env with
  | none =>
    rw [hCreate, Option.getD_none] at hAfter
    obtain rfl := hAfter
    exact ⟨hRows, rfl, rfl⟩
  | some created =>
    rw [hCreate, Option.getD_some] at hAfter
    obtain rfl := hAfter
    obtain ⟨hMore, hPolicies, hBanned⟩ := onlyAdds_maybeReplicateCreate hCreate
    exact ⟨hRows.trans hMore, hPolicies, hBanned⟩

end

end AdminPanel.Panel.Ha
