import AdminPanel.Panel.SyncGroups

/-!
# Deleting a client of a sync group

`delete_config` on the primary of an automatic group removes the shadows of the client too. On a
replica that takes the transfer the shadow goes with its policy row and its entry in
`banned_clients`; the shadow of a replica that fails is purged with the others afterwards, and what
belongs to it stays behind.

* `deleteConfig` — the function, with `handleClientDelete` and `maybeReplicateDelete`;
* `LeavesNothing` — what a deletion must leave;
* `CleanDelete` — the condition on the rows and on the replicas;
* `leavesNothing_iff` — a deletion leaves nothing behind exactly under the condition;
* `unreachable_replica_keeps_policy` — a client that is created again starts blocked.
-/

namespace AdminPanel.Panel.Ha

open Lib (Table)
open Access (Time)
open NodeSync (ReplicateResult)
open List NodeSync.Status

/-! ## Deleting -/

section

variable {ρ : Type}

/-- `forget_deleted_openvpn_client`; an error of the node is logged. -/
def forgetDeletedOpenvpnClient (banned : Nat → List String) (forgets : Bool) (nodeId : Nat)
    (clientName : String) : Nat → List String :=
  if forgets then Function.update banned nodeId ((banned nodeId).filter (· ≠ clientName))
  else banned

section

variable (db : HaDb ρ) (g : SyncGroup)

def forgetClient (env : HaEnv) (row : ConfigRow) : HaDb ρ :=
  { db with
    banned :=
      if row.vpnType = .openvpn then
        forgetDeletedOpenvpnClient db.banned (env.forgets row.nodeId) row.nodeId row.clientName.text
      else db.banned }

def getShadowConfigs (primaryConfigId : Nat) : List (Nat × ConfigRow) :=
  (db.configs.ids fun row =>
    row.haPrimaryConfigId = some primaryConfigId && row.nodeId ∈ getReplicaNodes db g).filterMap
    fun id => (db.configs.row? id).map (id, ·)

/-- What goes with a shadow whose replica took the transfer. -/
def cleanShadow (env : HaEnv) (db : HaDb ρ) (shadow : Nat × ConfigRow) : HaDb ρ :=
  let db := forgetClient db env shadow.2
  { db with
    policies :=
      (deleteClientAccessPolicies db.clients shadow.1 shadow.2.toClientConfig).1.policies }

/-- The shadows that `_handle_client_delete` deletes; a failed transfer continues the loop. -/
def handledShadows (primaryConfigId : Nat) (env : HaEnv) : List (Nat × ConfigRow) :=
  (getShadowConfigs db g primaryConfigId).filter fun shadow =>
    !transferFailed (env.turn shadow.2.nodeId)

/-- `_handle_client_delete`: the rows are there for its queries until the commit. -/
def handleClientDelete (primaryConfigId : Nat) (env : HaEnv) :
    Option (HaDb ρ × ReplicateResult String) :=
  if env.aborts then none
  else
    let handled := handledShadows db g primaryConfigId env
    let cleaned := handled.foldl (cleanShadow env) db
    let turns := (getShadowConfigs db g primaryConfigId).map fun shadow =>
      (shadow.2.nodeId, env.turn shadow.2.nodeId)
    (db.configs.delete fun id _ => id ∈ handled.map (·.1)).map fun configs =>
      ({ cleaned with configs }, collect true turns)

/-- The group's row after `replicate_client_delete`, and after the fallback when there was no
shadow. -/
def deleteOutcome (env : HaEnv) (result : ReplicateResult String) : GroupRow :=
  let row := finalizeReplicateOutcome result false g.toGroupRow
  if result.successes.isEmpty && result.errors.isEmpty then
    replicatePrimaryCryptoToReplicas (db.statusGroup g) env.opEnv row
  else row

def maybeReplicateDelete (nodeId primaryConfigId : Nat) (env : HaEnv) : Option (HaDb ρ) :=
  match findSyncGroupForPrimary db nodeId with
  | none => some db
  | some (gid, g) =>
    if isAutoSyncEnabled g then
      (handleClientDelete db g primaryConfigId env).map fun (after, result) =>
        after.setStatus gid g (deleteOutcome db g env result)
    else if env.aborts then none
    else
      some <| db.setStatus gid g <|
        replicatePrimaryCryptoToReplicas (db.statusGroup g) env.opEnv g.toGroupRow

def getConfigForActiveNode (activeNode id : Nat) : Option ConfigRow :=
  let nodeId :=
    match findGroupForNode db activeNode none with
    | some (_, g) => g.primaryNodeId
    | none => activeNode
  (db.configs.row? id).filter fun row => row.haPrimaryConfigId.isNone && row.nodeId = nodeId

/-- The end of `delete_config`. -/
def finishDelete (id : Nat) (row : ConfigRow) (now : Time) : Option (HaDb ρ) := do
  let purged ← purgeHaShadowConfigs db.configs id
  let configs ← purged.delete fun other _ => other = id
  let cleaned := cleanupDeletedClientRecords { db.toConfigDb with configs } id row now
  return { db with toConfigDb := cleaned }

/-- `delete_config`, once the node has deleted the client. -/
def deleteConfig (activeNode id : Nat) (env : HaEnv) (now : Time) : Option (HaDb ρ) :=
  match getConfigForActiveNode db activeNode id with
  | none => none
  | some row =>
    if isReplica db activeNode then none
    else
      (maybeReplicateDelete (forgetClient db env row) activeNode id env).bind fun db =>
        finishDelete db id row now

end

end

/-! ## What a deletion must leave -/

/-- A shadow has the name and the protocol of its primary row. -/
def NamedAlike (t : ConfigTable) : Prop :=
  ∀ id row p primary, t.row? id = some row → row.haPrimaryConfigId = some p →
    t.row? p = some primary → row.clientName = primary.clientName ∧ row.vpnType = primary.vpnType

instance (t : ConfigTable) : Decidable (NamedAlike t) :=
  decidable_of_iff
    (∀ id ∈ t.rows.keys, ∀ row ∈ t.row? id, ∀ p ∈ row.haPrimaryConfigId, ∀ primary ∈ t.row? p,
      row.clientName = primary.clientName ∧ row.vpnType = primary.vpnType)
    ⟨fun h id row p primary hRow hLink hPrimary =>
      h id (Table.mem_keys_of_row? hRow) row hRow p hLink primary hPrimary,
    fun h id _ row hRow p hLink primary hPrimary => h id row p primary hRow hLink hPrimary⟩

/-- The policy row of the client on a node. -/
def keyOn (row : ConfigRow) (nodeId : Nat) : AccessKey :=
  ⟨row.vpnType, nodeId, accessName row.vpnType row.clientName.text⟩

/-- Some config keeps its policy in the row. -/
def Used (t : ConfigTable) (key : AccessKey) : Prop :=
  ∃ id row, t.row? id = some row ∧ row.accessKey = key

/-- The portal has a client of the name on the node. -/
def PortalClient (t : ConfigTable) (nodeId : Nat) (clientName : ClientName) : Prop :=
  ∃ id row, t.row? id = some row ∧ row.nodeId = nodeId ∧ row.clientName = clientName ∧
    row.haPrimaryConfigId = none

section

variable {ρ : Type}

/-- The new client of a name has no policy of its own, and OpenVPN does not refuse it. -/
structure StartsFree (db : HaDb ρ) (id : Nat) (row : ConfigRow) : Prop where
  policy : db.policies.row? row.accessKey = none ∨
    ∃ other r, other ≠ id ∧ db.configs.row? other = some r ∧ r.accessKey = row.accessKey
  notBanned : row.vpnType = .openvpn → row.clientName.text ∉ db.banned row.nodeId

/-- Nothing of the client `row` is left on `members`, the nodes of the group `gid`. -/
structure LeavesNothing (members : List Nat) (row : ConfigRow) (gid : Nat) (replicaFailed : Prop)
    (out : HaDb ρ) : Prop where
  rows : ∀ m ∈ members, ¬ out.configs.has m row.clientName row.vpnType
  policies : ∀ m ∈ members, out.policies.row? (keyOn row m) = none ∨ Used out.configs (keyOn row m)
  notBanned : row.vpnType = .openvpn → ∀ m ∈ members, row.clientName.text ∉ out.banned m
  /-- A link is for all protocols of a name. -/
  links : ∀ m ∈ members, ∀ link ∈ out.links, link.activeOf m row.clientName.text = true →
    PortalClient out.configs m row.clientName
  /-- A client that is created under the name starts free on every member. -/
  reused : ∀ created env after, createConfig out created env = some after →
    ∀ m ∈ members, ∀ id new, after.configs.row? id = some new → new.nodeId = m →
      new.clientName = row.clientName → new.vpnType = row.vpnType → StartsFree after id new
  status : replicaFailed → ∀ g, out.groups.row? gid = some g → g.syncStatus ≠ .synced

/-! ## The condition -/

/-- The row goes with the client `id`. -/
def goes (id other : Nat) (row : ConfigRow) : Bool :=
  other = id || row.haPrimaryConfigId = some id

/-- What belongs to the client on the node goes: it is the primary, or it has a shadow and took
the transfer. -/
def Cleaned (db : HaDb ρ) (g : SyncGroup) (id : Nat) (env : HaEnv) (m : Nat) : Prop :=
  m = g.primaryNodeId ∨ ∃ shadow ∈ handledShadows db g id env, shadow.2.nodeId = m

/-- The transfer to some replica fails. -/
def SomeReplicaFails (db : HaDb ρ) (g : SyncGroup) (env : HaEnv) : Prop :=
  ∃ m ∈ getReplicaNodes db g, transferFailed (env.turn m) = true

structure CleanDelete (db : HaDb ρ) (g : SyncGroup) (id : Nat) (row : ConfigRow) (env : HaEnv) :
    Prop where
  /-- The rows of the client on the replicas are its shadows. -/
  linked : ∀ other r, db.configs.row? other = some r → r.nodeId ∈ getReplicaNodes db g →
    r.clientName = row.clientName → r.vpnType = row.vpnType → goes id other r = true
  /-- Of AmneziaWG 3, and where the transfer failed, there is no policy row, or one in use. -/
  policies : ∀ m ∈ row.nodeId :: getReplicaNodes db g,
    (row.vpnType ≠ .amneziawg3 ∧ Cleaned db g id env m) ∨
      db.policies.row? (keyOn row m) = none ∨
      ∃ other r, db.configs.row? other = some r ∧ goes id other r = false ∧
        r.accessKey = keyOn row m
  notBanned : row.vpnType = .openvpn → ∀ m ∈ row.nodeId :: getReplicaNodes db g,
    row.clientName.text ∈ db.banned m → Cleaned db g id env m ∧ env.forgets m = true
  /-- A replica has no link of its own to the name, unless for another client. -/
  links : ∀ m ∈ getReplicaNodes db g, m ≠ row.nodeId → ∀ link ∈ db.links,
    link.activeOf m row.clientName.text = true →
    ∃ other r, db.configs.row? other = some r ∧ goes id other r = false ∧ r.nodeId = m ∧
      r.clientName = row.clientName ∧ r.haPrimaryConfigId = none
  /-- A replica that fails is noticed: no replica has a shadow, or one that has is not well. -/
  noticed : SomeReplicaFails db g env →
    g.syncStatus ≠ .synced ∨ getShadowConfigs db g id = [] ∨
      ∃ shadow ∈ getShadowConfigs db g id, env.turn shadow.2.nodeId ≠ .ok

end

/-! ## What the loop over the shadows does -/

variable {m other : Nat} {name : String} {r : ConfigRow}

section

variable {ρ : Type} {db out : HaDb ρ} {g : SyncGroup} {id gid activeNode : Nat} {row : ConfigRow}
  {env : HaEnv} {now : Time}

theorem mem_getShadowConfigs {shadow : Nat × ConfigRow} : shadow ∈ getShadowConfigs db g id ↔
    db.configs.row? shadow.1 = some shadow.2 ∧ shadow.2.haPrimaryConfigId = some id ∧
      shadow.2.nodeId ∈ getReplicaNodes db g := by
  simp only [getShadowConfigs, mem_filterMap, ConfigTable.mem_ids, Bool.and_eq_true,
    decide_eq_true_eq]
  constructor
  · rintro ⟨other, ⟨r, hRow, hLink, hNode⟩, hShadow⟩
    rw [hRow, Option.map_some, Option.some.injEq] at hShadow
    rw [← hShadow]
    exact ⟨hRow, hLink, hNode⟩
  · rintro ⟨hRow, hLink, hNode⟩
    exact ⟨shadow.1, ⟨shadow.2, hRow, hLink, hNode⟩, by rw [hRow]; rfl⟩

/-- The name is off the list of the node, if it is OpenVPN's and the node answers. -/
def forgotten (env : HaEnv) (row : ConfigRow) (m : Nat) (name : String) : Prop :=
  row.vpnType = .openvpn ∧ row.nodeId = m ∧ row.clientName.text = name ∧ env.forgets m = true

theorem mem_banned_forgetClient : name ∈ (forgetClient db env row).banned m ↔
      name ∈ db.banned m ∧ ¬ forgotten env row m name := by
  simp only [forgetClient, forgotten]
  by_cases hType : row.vpnType = .openvpn
  · rw [if_pos hType, forgetDeletedOpenvpnClient]
    by_cases hNode : row.nodeId = m
    · subst hNode
      cases hForgets : env.forgets row.nodeId with
      | true =>
        rw [if_pos rfl, Function.update_self, mem_filter, decide_eq_true_eq]
        simp only [hType, true_and, and_true, ne_eq, @eq_comm _ name]
      | false => simp
    · split
      · rw [Function.update_of_ne (Ne.symm hNode)]
        simp [hNode]
      · simp [hNode]
  · rw [if_neg hType]
    simp [hType]

/-- The loop leaves the rows, the links and the groups to the end. -/
theorem frame_cleanShadows (env : HaEnv) (shadows : List (Nat × ConfigRow)) (db : HaDb ρ) :
    (shadows.foldl (cleanShadow env) db).configs = db.configs ∧
      (shadows.foldl (cleanShadow env) db).links = db.links ∧
      (shadows.foldl (cleanShadow env) db).nodes = db.nodes ∧
      (shadows.foldl (cleanShadow env) db).groups = db.groups := by
  induction shadows generalizing db with
  | nil => exact ⟨rfl, rfl, rfl, rfl⟩
  | cons shadow shadows ih => exact ih (cleanShadow env db shadow)

/-- The shadow's turn takes the policy row. -/
def takes (db : HaDb ρ) (shadow : Nat × ConfigRow) (key : AccessKey) : Prop :=
  key = deletedKey shadow.2.toClientConfig ∧
    stillUsed db.clients shadow.1 shadow.2.toClientConfig = false

instance (db : HaDb ρ) (shadow : Nat × ConfigRow) (key : AccessKey) :
    Decidable (takes db shadow key) :=
  inferInstanceAs (Decidable (_ ∧ _))

/-- The policy rows that the turns of the shadows take. -/
theorem policies_cleanShadows (shadows : List (Nat × ConfigRow)) (db : HaDb ρ) (key : AccessKey) :
    ((∃ shadow ∈ shadows, takes db shadow key) →
        (shadows.foldl (cleanShadow env) db).policies.row? key = none) ∧
      ((∀ shadow ∈ shadows, ¬ takes db shadow key) →
        (shadows.foldl (cleanShadow env) db).policies.row? key = db.policies.row? key) := by
  induction shadows generalizing db with
  | nil => exact ⟨fun ⟨_, hMem, _⟩ => absurd hMem not_mem_nil, fun _ => rfl⟩
  | cons shadow shadows ih =>
    have hTurn := row?_deleteClientAccessPolicies db.clients shadow.1 shadow.2.toClientConfig key
    have hPolicies : (cleanShadow env db shadow).policies.row? key =
        if takes db shadow key then none else db.policies.row? key := hTurn
    obtain ⟨hGone, hKept⟩ := ih (cleanShadow env db shadow)
    rw [foldl_cons]
    constructor
    · rintro ⟨other, hMem, hTakes⟩
      by_cases hLater : ∃ later ∈ shadows, takes db later key
      · exact hGone hLater
      · have hFirst : other = shadow := by
          rcases mem_cons.mp hMem with hEq | hRest
          · exact hEq
          · exact absurd ⟨other, hRest, hTakes⟩ hLater
        rw [hKept fun later hIn hLate => hLater ⟨later, hIn, hLate⟩, hPolicies,
          if_pos (hFirst ▸ hTakes)]
    · intro hNone
      rw [hKept fun later hIn => hNone later (mem_cons_of_mem _ hIn), hPolicies,
        if_neg (hNone shadow mem_cons_self)]

theorem mem_banned_cleanShadows (shadows : List (Nat × ConfigRow)) (db : HaDb ρ)
    : name ∈ (shadows.foldl (cleanShadow env) db).banned m ↔
      name ∈ db.banned m ∧ ∀ shadow ∈ shadows, ¬ forgotten env shadow.2 m name := by
  induction shadows generalizing db with
  | nil => simp
  | cons shadow shadows ih =>
    have hTurn : (cleanShadow env db shadow).banned = (forgetClient db env shadow.2).banned := rfl
    rw [foldl_cons, ih, hTurn, mem_banned_forgetClient, forall_mem_cons, and_assoc]

/-! ## What a deletion does -/

/-- The database when the loop over the shadows is done. -/
def afterShadows (db : HaDb ρ) (g : SyncGroup) (id : Nat) (row : ConfigRow) (env : HaEnv) :
    HaDb ρ :=
  (handledShadows db g id env).foldl (cleanShadow env) (forgetClient db env row)

def shadowResult (db : HaDb ρ) (g : SyncGroup) (id : Nat) (env : HaEnv) : ReplicateResult String :=
  collect true <| (getShadowConfigs db g id).map fun shadow =>
    (shadow.2.nodeId, env.turn shadow.2.nodeId)

/-- What a deletion has done once it returns. -/
structure Deleted (db out : HaDb ρ) (gid : Nat) (g : SyncGroup) (id : Nat) (row : ConfigRow)
    (env : HaEnv) (now : Time) : Prop where
  primary : row.haPrimaryConfigId = none
  goesOn : env.aborts = false
  configs : ∀ other, out.configs.row? other =
    (db.configs.row? other).filter fun r => !goes id other r
  policies : ∀ key, out.policies.row? key =
    if key = deletedKey row.toClientConfig ∧
        stillUsed out.clients id row.toClientConfig = false then none
    else (afterShadows db g id row env).policies.row? key
  banned : out.banned = (afterShadows db g id row env).banned
  links : out.links = if portalClientRemains out.configs id row then db.links
    else revokeClientPortalLinks db.links row.nodeId row.clientName.text now
  group : out.groups.row? gid =
    some { g with toGroupRow := deleteOutcome db g env (shadowResult db g id env) }

theorem node_of_active (hConfig : getConfigForActiveNode db activeNode id = some row)
    (hReplica : isReplica db activeNode = false) :
    db.configs.row? id = some row ∧ row.haPrimaryConfigId = none ∧ row.nodeId = activeNode := by
  rw [getConfigForActiveNode, Option.filter_eq_some_iff] at hConfig
  obtain ⟨hRow, hIs⟩ := hConfig
  rw [Bool.and_eq_true, Option.isNone_iff_eq_none, decide_eq_true_eq] at hIs
  refine ⟨hRow, hIs.1, hIs.2.trans ?_⟩
  rw [isReplica] at hReplica
  cases hGroup : findGroupForNode db activeNode none with
  | none => rfl
  | some found =>
    rw [hGroup, Option.any_some, decide_eq_false_iff_not, not_not] at hReplica
    exact hReplica

theorem goes_iff : goes id other r = true ↔ other = id ∨ r.haPrimaryConfigId = some id := by
  simp only [goes, Bool.or_eq_true, decide_eq_true_eq]

/-- The end of a deletion, from rows of which shadows may be gone already. -/
theorem row?_finishDelete {mid : HaDb ρ} (h : finishDelete mid id row now = some out)
    (hMid : ∀ other, mid.configs.row? other = db.configs.row? other ∨
      mid.configs.row? other = none ∧ ∀ r, db.configs.row? other = some r →
        r.haPrimaryConfigId = some id) (other : Nat) :
    out.configs.row? other = (db.configs.row? other).filter fun r => !goes id other r := by
  simp only [finishDelete, Option.bind_eq_bind, Option.bind_eq_some_iff, Option.pure_def,
    Option.some.injEq] at h
  obtain ⟨purged, hPurge, configs, hDelete, rfl⟩ := h
  show configs.row? other = _
  rw [ConfigTable.row?_delete hDelete, ConfigTable.row?_delete hPurge, Option.filter_filter]
  rcases hMid other with hSame | ⟨hGone, hShadow⟩
  · rw [hSame]
    congr 1
    funext r
    simp only [goes, Bool.not_or, Bool.and_comm]
  · rw [hGone]
    symm
    rw [Option.filter_none, Option.filter_eq_none_iff]
    intro r hRow
    simp only [Bool.not_eq_true', Bool.not_eq_false, goes_iff]
    exact .inr (hShadow r hRow)

/-- The rows once `_handle_client_delete` is committed. -/
theorem row?_handledDelete {rows : ConfigTable}
    (hRows : db.configs.delete (fun other _ => other ∈ (handledShadows db g id env).map (·.1)) =
      some rows) (other : Nat) :
    rows.row? other = db.configs.row? other ∨
      rows.row? other = none ∧ ∀ r, db.configs.row? other = some r →
        r.haPrimaryConfigId = some id := by
  rw [ConfigTable.row?_delete hRows]
  by_cases hMem : other ∈ (handledShadows db g id env).map (·.1)
  · right
    obtain ⟨shadow, hIn, rfl⟩ := mem_map.mp hMem
    obtain ⟨hShadow, hLink, -⟩ := mem_getShadowConfigs.mp (mem_of_mem_filter hIn)
    refine ⟨?_, ?_⟩
    · rw [Option.filter_eq_none_iff]
      intro r _
      simpa using ⟨shadow.2, hIn⟩
    · intro r hRow
      obtain rfl := Option.mem_unique hRow hShadow
      exact hLink
  · left
    cases db.configs.row? other with
    | none => rfl
    | some r => rw [Option.filter_some_pos (by simpa using hMem)]

/-- What a deletion that returns has done. -/
theorem deleted_of_deleteConfig (hRow : db.configs.row? id = some row)
    (hGroup : findSyncGroupForPrimary db row.nodeId = some (gid, g))
    (hAuto : isAutoSyncEnabled g = true) (h : deleteConfig db activeNode id env now = some out) :
    Deleted db out gid g id row env now := by
  rw [deleteConfig] at h
  split at h
  · cases h
  · next config hConfig =>
    -- a row of a replica is refused
    split_ifs at h with hReplica
    obtain ⟨hConfigRow, hPrimary, hActive⟩ := node_of_active hConfig (by simpa using hReplica)
    obtain rfl : row = config := Option.mem_unique hRow hConfigRow
    obtain ⟨mid, hMid, hFinish⟩ := Option.bind_eq_some_iff.mp h
    have hFound : findSyncGroupForPrimary (forgetClient db env row) activeNode = some (gid, g) := by
      rw [← hActive]
      exact hGroup
    rw [maybeReplicateDelete, hFound] at hMid
    simp only [hAuto, if_true, handleClientDelete, Option.map_eq_some_iff] at hMid
    obtain ⟨⟨after, result⟩, hHandled, hAfter⟩ := hMid
    split_ifs at hHandled with hAborts
    obtain ⟨rows, hRows, hPair⟩ := Option.map_eq_some_iff.mp hHandled
    obtain ⟨rfl, rfl⟩ := Prod.mk.injEq .. ▸ hPair
    -- the handler deletes shadows of the row and no other
    have hMidRows : ∀ other, mid.configs.row? other = db.configs.row? other ∨
        mid.configs.row? other = none ∧ ∀ r, db.configs.row? other = some r →
          r.haPrimaryConfigId = some id := by
      intro other
      rw [← hAfter]
      exact row?_handledDelete hRows other
    have hConfigs := row?_finishDelete hFinish hMidRows
    obtain ⟨-, hLinks, -, -⟩ :=
      frame_cleanShadows env (handledShadows db g id env) (forgetClient db env row)
    simp only [finishDelete, Option.bind_eq_bind, Option.bind_eq_some_iff, Option.pure_def,
      Option.some.injEq] at hFinish
    obtain ⟨purged, -, configs, -, rfl⟩ := hFinish
    refine ⟨hPrimary, by simpa using hAborts, hConfigs, ?_, ?_, ?_, ?_⟩
    · intro key
      rw [← hAfter]
      exact row?_deleteClientAccessPolicies _ id row.toClientConfig key
    · rw [← hAfter]
      rfl
    · rw [← hAfter]
      show (if portalClientRemains configs id row then (afterShadows db g id row env).links
        else revokeClientPortalLinks (afterShadows db g id row env).links _ _ _) = _
      rw [afterShadows, hLinks]
      rfl
    · rw [← hAfter]
      exact Table.row?_set_self _ _ _

/-! ## Policies -/

theorem deletedKey_nodeId (config : ClientConfig) : (deletedKey config).nodeId = config.nodeId := by
  unfold deletedKey
  cases config.vpnType <;> rfl

/-- A row that goes with the client has its name and protocol. -/
theorem alike_of_goes (hNamed : NamedAlike db.configs) (hRow : db.configs.row? id = some row)
    (hOther : db.configs.row? other = some r)
    (hGoes : goes id other r = true) : r.clientName = row.clientName ∧ r.vpnType = row.vpnType := by
  rcases goes_iff.mp hGoes with rfl | hLink
  · obtain rfl := Option.mem_unique hRow hOther
    exact ⟨rfl, rfl⟩
  · exact hNamed other r id row hOther hLink hRow

theorem shadow_alike (hNamed : NamedAlike db.configs) (hRow : db.configs.row? id = some row)
    {shadow : Nat × ConfigRow} (hMem : shadow ∈ handledShadows db g id env) :
    db.configs.row? shadow.1 = some shadow.2 ∧ shadow.2.clientName = row.clientName ∧
      shadow.2.vpnType = row.vpnType := by
  obtain ⟨hShadow, hLink, -⟩ := mem_getShadowConfigs.mp (mem_of_mem_filter hMem)
  exact ⟨hShadow, hNamed _ _ _ _ hShadow hLink hRow⟩

theorem accessKey_eq_keyOn (hName : r.clientName = row.clientName)
    (hType : r.vpnType = row.vpnType) : r.accessKey = keyOn row r.nodeId := by
  simp only [ClientConfig.accessKey, keyOn, hName, hType]

namespace Deleted

variable (hDone : Deleted db out gid g id row env now)

include hDone

theorem row?_out_iff : out.configs.row? other = some r ↔
    db.configs.row? other = some r ∧ goes id other r = false := by
  rw [hDone.configs, Option.filter_eq_some_iff, Bool.not_eq_true']

theorem used_iff {key : AccessKey} : Used out.configs key ↔
    ∃ other r, db.configs.row? other = some r ∧ goes id other r = false ∧ r.accessKey = key := by
  simp only [Used, hDone.row?_out_iff, and_assoc]

/-- Who else uses the policy row of a deleted row stays. -/
theorem used_of_stillUsed (hNamed : NamedAlike db.configs) (hRow : db.configs.row? id = some row)
    (hOther : db.configs.row? other = some r)
    (hName : r.clientName = row.clientName) (hType : r.vpnType = row.vpnType)
    (hAwg3 : row.vpnType ≠ .amneziawg3)
    (hUsed : stillUsed db.clients other r.toClientConfig = true) :
    Used out.configs (keyOn row r.nodeId) := by
  rw [stillUsed_eq_usedByOther db.clients other (hType ▸ hAwg3)] at hUsed
  obtain ⟨user, config, hNe, hUser, hKey⟩ := anyOther_iff.mp hUsed
  obtain ⟨u, hUserRow, rfl⟩ := Option.map_eq_some_iff.mp hUser
  have hKey' : u.accessKey = r.accessKey := by simpa using hKey
  rw [hDone.used_iff]
  refine ⟨user, u, hUserRow, ?_, hKey'.trans (accessKey_eq_keyOn hName hType)⟩
  by_contra hGoes
  -- a second row of the same node, name and protocol
  obtain ⟨hUserName, hUserType⟩ := alike_of_goes hNamed hRow hUserRow (by simpa using hGoes)
  have hNode : u.nodeId = r.nodeId := congrArg AccessKey.nodeId hKey'
  have hSame : u.sameEntry r = true := ConfigRow.sameEntry_iff.mpr
    ⟨hNode, hUserName.trans hName.symm, hUserType.trans hType.symm⟩
  exact hNe (db.configs.unique user u other r hUserRow hOther hSame)

/-- The policy row goes where the client is cleaned up, unless it is used or of AmneziaWG 3. -/
theorem policy_gone (hNamed : NamedAlike db.configs) (hRow : db.configs.row? id = some row)
    (hPrimary : g.primaryNodeId = row.nodeId) (hAwg3 : row.vpnType ≠ .amneziawg3)
    (hCleaned : Cleaned db g id env m) (hUnused : ¬ Used out.configs (keyOn row m)) :
    out.policies.row? (keyOn row m) = none := by
  rw [hDone.policies]
  rcases hCleaned with rfl | ⟨shadow, hMem, rfl⟩
  · rw [if_pos]
    refine ⟨?_, ?_⟩
    · rw [deletedKey_eq_accessKey hAwg3, hPrimary]
      exact (accessKey_eq_keyOn rfl rfl).symm
    by_contra hUsed
    rw [Bool.not_eq_false, stillUsed_eq_usedByOther out.clients id hAwg3] at hUsed
    obtain ⟨user, config, -, hUser, hKey⟩ := anyOther_iff.mp hUsed
    obtain ⟨u, hUserRow, rfl⟩ := Option.map_eq_some_iff.mp hUser
    refine hUnused ⟨user, u, hUserRow, ?_⟩
    have hOwn : row.accessKey = keyOn row row.nodeId := accessKey_eq_keyOn rfl rfl
    rw [hPrimary, ← hOwn]
    simpa using hKey
  · obtain ⟨hShadow, hName, hType⟩ := shadow_alike hNamed hRow hMem
    have hTakes : takes (forgetClient db env row) shadow (keyOn row shadow.2.nodeId) := by
      refine ⟨?_, ?_⟩
      · rw [deletedKey_eq_accessKey (hType ▸ hAwg3)]
        exact (accessKey_eq_keyOn hName hType).symm
      · by_contra hUsed
        rw [Bool.not_eq_false] at hUsed
        exact hUnused (hDone.used_of_stillUsed hNamed hRow hShadow hName hType hAwg3 hUsed)
    split
    · rfl
    · exact (policies_cleanShadows _ _ _).1 ⟨shadow, hMem, hTakes⟩

/-- Elsewhere it stays. -/
theorem policy_kept (hNamed : NamedAlike db.configs) (hRow : db.configs.row? id = some row)
    (hPrimary : g.primaryNodeId = row.nodeId)
    (hNot : row.vpnType = .amneziawg3 ∨ ¬ Cleaned db g id env m) :
    out.policies.row? (keyOn row m) = db.policies.row? (keyOn row m) := by
  have hOther : ∀ config : ClientConfig, config.vpnType = row.vpnType →
      keyOn row m = deletedKey config → row.vpnType ≠ .amneziawg3 ∧ m = config.nodeId := by
    intro config hType hKey
    refine ⟨?_, ?_⟩
    · intro hAwg3
      have hTable := congrArg AccessKey.table hKey
      rw [deletedKey_table (hType.trans hAwg3)] at hTable
      exact absurd (hAwg3.symm.trans hTable) (by decide)
    · have hNode := congrArg AccessKey.nodeId hKey
      rwa [deletedKey_nodeId] at hNode
  rw [hDone.policies, if_neg]
  · refine (policies_cleanShadows _ _ _).2 ?_
    rintro shadow hMem ⟨hKey, -⟩
    obtain ⟨-, -, hType⟩ := shadow_alike hNamed hRow hMem
    obtain ⟨hAwg3, hNode⟩ := hOther _ hType hKey
    rcases hNot with hIs | hNone
    · exact hAwg3 hIs
    · exact hNone (.inr ⟨shadow, hMem, hNode.symm⟩)
  · rintro ⟨hKey, -⟩
    obtain ⟨hAwg3, hNode⟩ := hOther _ rfl hKey
    rcases hNot with hIs | hNone
    · exact hAwg3 hIs
    · exact hNone (.inl (hNode.trans hPrimary.symm))

/-- Off the list of the node are the names of OpenVPN clients that are cleaned up. -/
theorem mem_banned_iff (hNamed : NamedAlike db.configs) (hRow : db.configs.row? id = some row)
    (hPrimary : g.primaryNodeId = row.nodeId) (hOpenvpn : row.vpnType = .openvpn) :
    row.clientName.text ∈ out.banned m ↔ row.clientName.text ∈ db.banned m ∧
      ¬ (Cleaned db g id env m ∧ env.forgets m = true) := by
  rw [hDone.banned, afterShadows, mem_banned_cleanShadows, mem_banned_forgetClient, and_assoc]
  refine and_congr_right fun _ => ?_
  constructor
  · rintro ⟨hNotPrimary, hNotShadow⟩ ⟨hPrim | ⟨shadow, hMem, hNode⟩, hForgets⟩
    · exact hNotPrimary ⟨hOpenvpn, by rw [hPrim, hPrimary], rfl, hForgets⟩
    · obtain ⟨-, hName, hType⟩ := shadow_alike hNamed hRow hMem
      exact hNotShadow shadow hMem
        ⟨hType.trans hOpenvpn, hNode, congrArg ClientName.text hName, hForgets⟩
  · intro hNot
    refine ⟨?_, ?_⟩
    · rintro ⟨-, hNode, -, hForgets⟩
      exact hNot ⟨.inl (hNode.symm.trans hPrimary.symm), hForgets⟩
    · rintro shadow hMem ⟨-, hNode, -, hForgets⟩
      exact hNot ⟨.inr ⟨shadow, hMem, hNode⟩, hForgets⟩

end Deleted

/-! ## Links and status -/

theorem portalClientRemains_iff {t : ConfigTable} : portalClientRemains t id row = true ↔
    ∃ other r, other ≠ id ∧ t.row? other = some r ∧ r.nodeId = row.nodeId ∧
      r.clientName = row.clientName ∧ r.haPrimaryConfigId = none := by
  simp only [portalClientRemains, ConfigTable.anyOther_iff, Bool.and_eq_true, decide_eq_true_eq,
    Option.isNone_iff_eq_none, and_assoc]

/-- An active link stays active unless it is of the node and the name that is revoked. -/
theorem active_revoked_iff {links : List ClientPortalToken} {nodeId : Nat} :
    (∃ link ∈ revokeClientPortalLinks links nodeId name now, link.activeOf m name = true) ↔
      m ≠ nodeId ∧ ∃ link ∈ links, link.activeOf m name = true := by
  simp only [revokeClientPortalLinks, mem_map]
  constructor
  · rintro ⟨_, ⟨link, hMem, rfl⟩, hActive⟩
    split_ifs at hActive with hRevoked
    · simp [ClientPortalToken.activeOf] at hActive
    · refine ⟨?_, link, hMem, hActive⟩
      rintro rfl
      exact hRevoked hActive
  · rintro ⟨hNe, link, hMem, hActive⟩
    refine ⟨_, ⟨link, hMem, rfl⟩, ?_⟩
    have hOther : ¬ link.activeOf nodeId name = true := by
      intro hRevoked
      simp only [ClientPortalToken.activeOf, Bool.and_eq_true, decide_eq_true_eq]
        at hActive hRevoked
      exact hNe (hActive.1.1.symm.trans hRevoked.1.1)
    rwa [if_neg hOther]

theorem Deleted.portalClient_iff (hDone : Deleted db out gid g id row env now) :
    PortalClient out.configs m row.clientName ↔
      ∃ other r, db.configs.row? other = some r ∧ goes id other r = false ∧ r.nodeId = m ∧
        r.clientName = row.clientName ∧ r.haPrimaryConfigId = none := by
  simp only [PortalClient, hDone.row?_out_iff, and_assoc]

/-- Only on the primary are links revoked. -/
theorem Deleted.active_link_iff (hDone : Deleted db out gid g id row env now)
    (hUnused : ¬ PortalClient out.configs m row.clientName) :
    (∃ link ∈ out.links, link.activeOf m row.clientName.text = true) ↔
      m ≠ row.nodeId ∧ ∃ link ∈ db.links, link.activeOf m row.clientName.text = true := by
  rw [hDone.links]
  cases hRemains : portalClientRemains out.configs id row with
  | false => exact active_revoked_iff
  | true =>
    rw [if_pos rfl]
    obtain ⟨other, r, -, hRow, hNode, hName, hPrimary⟩ := portalClientRemains_iff.mp hRemains
    have hNe : m ≠ row.nodeId := by
      rintro rfl
      exact hUnused ⟨other, r, hRow, hNode, hName, hPrimary⟩
    exact (and_iff_right hNe).symm

theorem collect_eq_nil_iff {turns : List (Nat × TurnEnd)} :
    ((collect true turns).successes.isEmpty && (collect true turns).errors.isEmpty) = true ↔
      turns = [] := by
  cases turns with
  | nil => simp [collect]
  | cons turn turns =>
    obtain ⟨node, turnEnd⟩ := turn
    cases turnEnd <;> simp [collect]

theorem Blames.notSynced {groupRow : GroupRow} (h : Blames groupRow) :
    groupRow.syncStatus ≠ .synced := by
  rcases h.1 with hFailed | hDrift
  · rw [hFailed]
    exact nofun
  · rw [hDrift]
    exact nofun

/-- Whether the status tells that a replica has failed. -/
theorem status_deleteOutcome (hAborts : env.aborts = false) (hFailed : SomeReplicaFails db g env) :
    (deleteOutcome db g env (shadowResult db g id env)).syncStatus ≠ .synced ↔
      g.syncStatus ≠ .synced ∨ getShadowConfigs db g id = [] ∨
        ∃ shadow ∈ getShadowConfigs db g id, env.turn shadow.2.nodeId ≠ .ok := by
  simp only [deleteOutcome, shadowResult, collect_eq_nil_iff, map_eq_nil_iff]
  by_cases hPending : g.syncStatus = .pending
  · have hStatus : (finalizeReplicateOutcome (shadowResult db g id env) false
        g.toGroupRow) = g.toGroupRow := by rw [finalizeReplicateOutcome, if_pos hPending]
    rw [shadowResult] at hStatus
    rw [hStatus]
    refine iff_of_true ?_ (.inl (by rw [hPending]; decide))
    have hSame : replicatePrimaryCryptoToReplicas (db.statusGroup g) env.opEnv g.toGroupRow =
        g.toGroupRow := by
      rw [replicatePrimaryCryptoToReplicas, if_pos hPending]
      split <;> rfl
    rw [hSame, ite_self, hPending]
    decide
  · have hTells : Tells (collect true ((getShadowConfigs db g id).map fun shadow =>
        (shadow.2.nodeId, env.turn shadow.2.nodeId))) _ := tells_collect rfl
    obtain ⟨hBlamed, hClean⟩ := finalize_eq false hTells hPending
    cases hShadows : getShadowConfigs db g id with
    | nil =>
      -- the fallback meets the failed replica
      rw [if_pos rfl]
      refine iff_of_true ?_ (.inr (.inl rfl))
      obtain ⟨m, hMem, hTurn⟩ := hFailed
      rw [hShadows] at hClean
      rw [map_nil] at hClean ⊢
      have hCleared : ({ g.toGroupRow with lastSyncError := none } : GroupRow).syncStatus ≠
          .pending := hPending
      rw [hClean rfl, if_neg (by decide), replicatePrimaryCrypto_eq hCleared, if_neg]
      · refine Blames.notSynced ((finalize_eq true (tells_replicaTurns true) hCleared).1 ?_)
        rw [any_eq_true]
        refine ⟨m, hMem, ?_⟩
        rw [decide_eq_true_eq]
        intro hOk
        rw [show env.turn m = .ok from hOk] at hTurn
        cases hTurn
      · intro hNone
        rw [Bool.or_eq_true, List.isEmpty_iff] at hNone
        rcases hNone with hStops | hNil
        · rw [show env.opEnv.aborts = env.aborts from rfl, hAborts] at hStops
          cases hStops
        · rw [show (db.statusGroup g).replicas = getReplicaNodes db g from rfl] at hNil
          rw [hNil] at hMem
          cases hMem
    | cons first rest =>
      rw [if_neg (cons_ne_nil _ _), ← hShadows]
      rw [any_map] at hBlamed hClean
      cases hAny : (getShadowConfigs db g id).any
          ((fun t : Nat × TurnEnd => decide (t.2 ≠ .ok)) ∘ fun shadow =>
            (shadow.2.nodeId, env.turn shadow.2.nodeId)) with
      | true =>
        refine iff_of_true (Blames.notSynced (hBlamed hAny)) (.inr (.inr ?_))
        obtain ⟨shadow, hMem, hTurn⟩ := any_eq_true.mp hAny
        exact ⟨shadow, hMem, by simpa using hTurn⟩
      | false =>
        rw [hClean hAny, if_neg (by decide)]
        constructor
        · exact .inl
        · rintro (hStatus | hNil | ⟨shadow, hMem, hTurn⟩)
          · exact hStatus
          · rw [hNil] at hShadows
            cases hShadows
          · have hOk := any_eq_false.mp hAny shadow hMem
            exact absurd (by simpa using hOk) hTurn

/-! ## When nothing is left -/

namespace Deleted

variable (hDone : Deleted db out gid g id row env now)

include hDone

/-- When no row of the client is left on a member. -/
theorem rows_iff (hRow : db.configs.row? id = some row) :
    (∀ m ∈ row.nodeId :: getReplicaNodes db g,
      ¬ out.configs.has m row.clientName row.vpnType) ↔
      ∀ other r, db.configs.row? other = some r → r.nodeId ∈ getReplicaNodes db g →
        r.clientName = row.clientName → r.vpnType = row.vpnType → goes id other r = true := by
  constructor
  · intro hNone other r hOther hNode hName hType
    by_contra hStays
    refine hNone r.nodeId (mem_cons_of_mem _ hNode) ⟨other, r, ?_, rfl, hName, hType⟩
    exact hDone.row?_out_iff.mpr ⟨hOther, by simpa using hStays⟩
  · rintro hLinked m hMem ⟨other, r, hOut, rfl, hName, hType⟩
    obtain ⟨hOther, hStays⟩ := hDone.row?_out_iff.mp hOut
    have hGoes : goes id other r = true := by
      rcases mem_cons.mp hMem with hNode | hReplica
      · have hSame : r.sameEntry row = true := ConfigRow.sameEntry_iff.mpr ⟨hNode, hName, hType⟩
        exact goes_iff.mpr (.inl (db.configs.unique other r id row hOther hRow hSame))
      · exact hLinked other r hOther hReplica hName hType
    rw [hStays] at hGoes
    cases hGoes

/-- When no policy row is left without a config. -/
theorem policy_iff (hNamed : NamedAlike db.configs) (hRow : db.configs.row? id = some row)
    (hPrimary : g.primaryNodeId = row.nodeId) (m : Nat) :
    (out.policies.row? (keyOn row m) = none ∨ Used out.configs (keyOn row m)) ↔
      ((row.vpnType ≠ .amneziawg3 ∧ Cleaned db g id env m) ∨
        db.policies.row? (keyOn row m) = none ∨
        ∃ other r, db.configs.row? other = some r ∧ goes id other r = false ∧
          r.accessKey = keyOn row m) := by
  rw [← hDone.used_iff]
  by_cases hUsed : Used out.configs (keyOn row m)
  · exact iff_of_true (.inr hUsed) (.inr (.inr hUsed))
  simp only [hUsed, or_false]
  by_cases hTended : row.vpnType ≠ .amneziawg3 ∧ Cleaned db g id env m
  · have hGone := hDone.policy_gone hNamed hRow hPrimary hTended.1 hTended.2 hUsed
    exact iff_of_true hGone (.inl hTended)
  · have hNot : row.vpnType = .amneziawg3 ∨ ¬ Cleaned db g id env m := by
      by_cases hAwg3 : row.vpnType = .amneziawg3
      · exact .inl hAwg3
      · exact .inr fun hCleaned => hTended ⟨hAwg3, hCleaned⟩
    rw [hDone.policy_kept hNamed hRow hPrimary hNot]
    exact (or_iff_right hTended).symm

/-- When no link is left without a client. -/
theorem links_iff :
    (∀ m ∈ row.nodeId :: getReplicaNodes db g, ∀ link ∈ out.links,
      link.activeOf m row.clientName.text = true → PortalClient out.configs m row.clientName) ↔
      ∀ m ∈ getReplicaNodes db g, m ≠ row.nodeId → ∀ link ∈ db.links,
        link.activeOf m row.clientName.text = true →
        ∃ other r, db.configs.row? other = some r ∧ goes id other r = false ∧ r.nodeId = m ∧
          r.clientName = row.clientName ∧ r.haPrimaryConfigId = none := by
  simp only [← hDone.portalClient_iff]
  constructor
  · intro hLeft m hMem hNe link hLink hActive
    by_contra hUnused
    obtain ⟨after, hAfter, hStill⟩ :=
      (hDone.active_link_iff hUnused).mpr ⟨hNe, link, hLink, hActive⟩
    exact hUnused (hLeft m (mem_cons_of_mem _ hMem) after hAfter hStill)
  · intro hReplicas m hMem link hLink hActive
    by_contra hUnused
    obtain ⟨hNe, before, hBefore, hWas⟩ :=
      (hDone.active_link_iff hUnused).mp ⟨link, hLink, hActive⟩
    rcases mem_cons.mp hMem with hNode | hReplica
    · exact hNe hNode
    · exact hUnused (hReplicas m hReplica hNe before hBefore hWas)

end Deleted

/-- Where nothing is left, a new client of the name starts free. -/
theorem startsFree {after : HaDb ρ} {created new : ConfigRow} {members : List Nat} {newId : Nat}
    {createEnv : HaEnv} (hCreate : createConfig out created createEnv = some after)
    (hRows : ∀ m ∈ members, ¬ out.configs.has m row.clientName row.vpnType)
    (hPolicies : ∀ m ∈ members, out.policies.row? (keyOn row m) = none ∨
      Used out.configs (keyOn row m))
    (hBanned : row.vpnType = .openvpn → ∀ m ∈ members, row.clientName.text ∉ out.banned m)
    (hMem : m ∈ members) (hNew : after.configs.row? newId = some new) (hNode : new.nodeId = m)
    (hName : new.clientName = row.clientName) (hType : new.vpnType = row.vpnType) :
    StartsFree after newId new := by
  obtain ⟨hKept, hSamePolicies, hSameBanned⟩ := onlyAdds_createConfig hCreate
  have hKey : new.accessKey = keyOn row m := hNode ▸ accessKey_eq_keyOn hName hType
  refine ⟨?_, ?_⟩
  · rw [hKey, hSamePolicies]
    rcases hPolicies m hMem with hNone | ⟨other, r, hRow, hUses⟩
    · exact .inl hNone
    obtain ⟨r', hRow', hNode', hName', hType'⟩ := hKept other r hRow
    refine .inr ⟨other, r', ?_, hRow', ?_⟩
    · -- the user was there when no row of the name was
      rintro rfl
      obtain rfl := Option.mem_unique hNew hRow'
      exact hRows m hMem ⟨other, r, hRow, hNode'.symm.trans hNode, hName'.symm.trans hName,
        hType'.symm.trans hType⟩
    · rw [← hUses, ClientConfig.accessKey, ClientConfig.accessKey, hNode', hName', hType']
  · intro hOpenvpn
    rw [hSameBanned, hName, hNode]
    exact hBanned (hType.symm.trans hOpenvpn) m hMem

/-- **A deletion that returns leaves nothing of the client exactly when it is clean.** -/
theorem leavesNothing_iff (hNamed : NamedAlike db.configs) (hRow : db.configs.row? id = some row)
    (hGroup : findSyncGroupForPrimary db row.nodeId = some (gid, g))
    (hAuto : isAutoSyncEnabled g = true)
    (hReturns : deleteConfig db activeNode id env now = some out) :
    LeavesNothing (row.nodeId :: getReplicaNodes db g) row gid (SomeReplicaFails db g env) out ↔
      CleanDelete db g id row env := by
  have hDone := deleted_of_deleteConfig hRow hGroup hAuto hReturns
  have hPrimary : g.primaryNodeId = row.nodeId := by
    simpa using (firstGroup_some hGroup).2
  constructor
  · intro hLeft
    refine ⟨(hDone.rows_iff hRow).mp hLeft.rows, ?_, ?_, hDone.links_iff.mp hLeft.links, ?_⟩
    · exact fun m hMem => (hDone.policy_iff hNamed hRow hPrimary m).mp (hLeft.policies m hMem)
    · intro hOpenvpn m hMem hWas
      by_contra hNot
      exact hLeft.notBanned hOpenvpn m hMem
        ((hDone.mem_banned_iff hNamed hRow hPrimary hOpenvpn).mpr ⟨hWas, hNot⟩)
    · intro hFailed
      exact (status_deleteOutcome hDone.goesOn hFailed).mp (hLeft.status hFailed _ hDone.group)
  · intro hClean
    have hRows := (hDone.rows_iff hRow).mpr hClean.linked
    have hPolicies : ∀ m ∈ row.nodeId :: getReplicaNodes db g,
        out.policies.row? (keyOn row m) = none ∨ Used out.configs (keyOn row m) :=
      fun m hMem => (hDone.policy_iff hNamed hRow hPrimary m).mpr (hClean.policies m hMem)
    have hBanned : row.vpnType = .openvpn → ∀ m ∈ row.nodeId :: getReplicaNodes db g,
        row.clientName.text ∉ out.banned m := by
      intro hOpenvpn m hMem hStill
      obtain ⟨hWas, hNot⟩ := (hDone.mem_banned_iff hNamed hRow hPrimary hOpenvpn).mp hStill
      exact hNot (hClean.notBanned hOpenvpn m hMem hWas)
    refine ⟨hRows, hPolicies, hBanned, hDone.links_iff.mpr hClean.links, ?_, ?_⟩
    · intro created createEnv after hCreate m hMem newId new hNew hNode hName hType
      exact startsFree hCreate hRows hPolicies hBanned hMem hNew hNode hName hType
    · intro hFailed g' hG'
      rw [hDone.group] at hG'
      cases hG'
      exact (status_deleteOutcome hDone.goesOn hFailed).mpr (hClean.noticed hFailed)

end

/-! ## An unreachable replica -/

def olgaOn (nodeId : Nat) (haPrimaryConfigId : Option Nat) : ConfigRow :=
  { nodeId := nodeId, clientName := olga, vpnType := .wireguard,
    haPrimaryConfigId := haPrimaryConfigId, ownerId := 1, syncGroupId := some 7 }

/-- Olga on the primary and on the replica. -/
def olgaRows : ConfigTable :=
  ((ConfigTable.empty.insert (olgaOn 1 none)).bind (·.insert (olgaOn 2 (some 1)))).get
    (by decide)

def pair : SyncGroup :=
  { syncStatus := .synced, name := "pair", primaryNodeId := 1, replicaNodeIds := [2],
    syncMode := "auto" }

/-- She is blocked on both. -/
def olgaBlocked : HaDb Bool where
  configs := olgaRows
  policies := (Table.empty.set ⟨.wireguard, 1, "olga"⟩ true).set ⟨.wireguard, 2, "olga"⟩ true
  links := [⟨"c_1", 1, "Olga", none, none⟩]
  nodes := (Table.empty.set 1 ⟨"first", true, ""⟩).set 2 ⟨"second", true, ""⟩
  groups := Table.empty.set 7 pair
  banned := fun _ => []

def secondUnreachable : HaEnv where
  turn := fun nodeId => if nodeId = 2 then .failed "unreachable" else .ok

/-- With both nodes at hand nothing is left. -/
theorem leavesNothing_reachable : ∃ out, deleteConfig olgaBlocked 1 1 {} 0 = some out ∧
    LeavesNothing [1, 2] (olgaOn 1 none) 7 (SomeReplicaFails olgaBlocked pair {}) out := by
  have hReturns : (deleteConfig olgaBlocked 1 1 {} 0).isSome = true := by decide
  obtain ⟨out, hOut⟩ := Option.isSome_iff_exists.mp hReturns
  have hIff := leavesNothing_iff (by decide : NamedAlike olgaBlocked.configs)
    (by decide : olgaBlocked.configs.row? 1 = some (olgaOn 1 none))
    (by decide : findSyncGroupForPrimary olgaBlocked 1 = some (7, pair))
    (by decide : isAutoSyncEnabled pair = true) hOut
  have hNodes : getReplicaNodes olgaBlocked pair = [2] := by decide
  have hShadows : (handledShadows olgaBlocked pair 1 {}).map (·.2.nodeId) = [2] := by decide
  have hCleaned : ∀ m ∈ [1, 2], Cleaned olgaBlocked pair 1 {} m := by
    intro m hMem
    rcases mem_cons.mp hMem with rfl | hReplica
    · exact .inl rfl
    · rw [← hShadows] at hReplica
      obtain ⟨shadow, hIn, rfl⟩ := mem_map.mp hReplica
      exact .inr ⟨shadow, hIn, rfl⟩
  rw [hNodes] at hIff
  refine ⟨out, hOut, hIff.mpr
    { linked := by
        have hAll : ∀ other ∈ olgaRows.rows.keys, ∀ r ∈ olgaRows.row? other, r.nodeId = 2 →
            goes 1 other r = true := by decide
        intro other r hRow hNode _ _
        rw [hNodes, mem_singleton] at hNode
        exact hAll other (Table.mem_keys_of_row? hRow) r hRow hNode
      policies := by
        rw [hNodes]
        exact fun m hMem => .inl ⟨by decide, hCleaned m hMem⟩
      notBanned := fun _ _ _ hBanned => absurd hBanned not_mem_nil
      links := by
        intro m hMem hNe link hLink hActive
        rw [hNodes, mem_singleton] at hMem
        obtain rfl : link = ⟨"c_1", 1, "Olga", none, none⟩ := mem_singleton.mp hLink
        rw [hMem] at hActive
        exact absurd hActive (by decide)
      noticed := fun ⟨_, _, hTurn⟩ => by cases hTurn }⟩

/-- **The replica keeps the policy**: the deletion returns, no row is left, and when Olga is created
again her row on the replica is blocked from the start. -/
theorem unreachable_replica_keeps_policy :
    ∃ out after, deleteConfig olgaBlocked 1 1 secondUnreachable 0 = some out ∧
      createConfig out (olgaOn 1 none) {} = some after ∧
      out.configs.rows.keys = [] ∧ after.configs.row? 2 = some (olgaOn 2 (some 1)) ∧
      after.policies.row? ⟨.wireguard, 2, "olga"⟩ = some true ∧
      ¬ LeavesNothing [1, 2] (olgaOn 1 none) 7
        (SomeReplicaFails olgaBlocked pair secondUnreachable) out := by
  have hRun : ((deleteConfig olgaBlocked 1 1 secondUnreachable 0).bind fun out =>
      (createConfig out (olgaOn 1 none) {}).map fun after =>
        (out.configs.rows.keys, out.policies.row? ⟨.wireguard, 2, "olga"⟩,
          after.configs.row? 2, after.policies.row? ⟨.wireguard, 2, "olga"⟩)) =
      some ([], some true, some (olgaOn 2 (some 1)), some true) := by
    decide
  obtain ⟨out, hDelete, hRest⟩ := Option.bind_eq_some_iff.mp hRun
  obtain ⟨after, hCreate, hFacts⟩ := Option.map_eq_some_iff.mp hRest
  simp only [Prod.mk.injEq] at hFacts
  obtain ⟨hKeys, hPolicy, hRow, hStarts⟩ := hFacts
  refine ⟨out, after, hDelete, hCreate, hKeys, hRow, hStarts, fun hLeft => ?_⟩
  have hKey : keyOn (olgaOn 1 none) 2 = ⟨.wireguard, 2, "olga"⟩ := by decide
  rcases hLeft.policies 2 (by decide) with hNone | ⟨other, r, hOther, -⟩
  · rw [hKey, hPolicy] at hNone
    cases hNone
  · have hMem := Table.mem_keys_of_row? hOther
    rw [hKeys] at hMem
    cases hMem

end AdminPanel.Panel.Ha
