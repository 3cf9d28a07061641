import AdminPanel.Panel.HaDeletion

/-!
# Runs of sync groups

A link says that a row on a replica is the shadow of a row on the primary of its group. Three
places make links and four clear them; `update_sync_group` tells the modes apart by two names,
but the field takes any text, and a group that goes from automatic mode to any other name than
`manual_full` keeps its links.

* `haStep` — the operations on groups, clients and rows, one call a step;
* `LinksOk` — what links must be in every state;
* `LinkMove` — what a single write can do to the links; every operation is a chain of these;
* `links_ok` — in runs that leave automatic mode by its name only, links are right in every state;
* `other_mode_keeps_links` — a group that goes to another mode keeps its links;
* `namedAlike_run` — in every run groups stay apart and shadows have their primary's name.
-/

namespace AdminPanel.Panel.Ha

open Lib (Table exec Along)
open Access (Time)
open Option List NodeSync.Status
open Relation (ReflTransGen)

/-! ## Steps -/

inductive HaStep where
  | createGroup (gid : Nat) (payload : SyncGroupCreate)
  | updateGroup (gid : Nat) (payload : SyncGroupUpdate)
  | deleteGroup (gid : Nat)
  /-- The links at the end of a full push. -/
  | linkGroup (gid : Nat)
  | createConfig (row : ConfigRow) (env : HaEnv)
  | deleteConfig (activeNode id : Nat) (env : HaEnv) (now : Time)
  /-- A deletion that is cut off after its first commit. -/
  | replicateDelete (nodeId id : Nat) (env : HaEnv)
  | importDisk (c : DiskImport)
  /-- Other operations write the status of a group. -/
  | status (gid : Nat) (row : GroupRow)
  /-- A node is registered, or its status changes. -/
  | node (nodeId : Nat) (row : NodeRow)

section

variable {ρ : Type}

def haStep (db : HaDb ρ) : HaStep → Option (HaDb ρ)
  | .createGroup gid payload => createSyncGroup db gid payload
  | .updateGroup gid payload => updateSyncGroup db gid payload
  | .deleteGroup gid => deleteSyncGroup db gid
  | .linkGroup gid => (db.groups.row? gid).map (linkGroup db gid)
  | .createConfig row env => createConfig db row env
  | .deleteConfig activeNode id env now => deleteConfig db activeNode id env now
  | .replicateDelete nodeId id env => maybeReplicateDelete db nodeId id env
  | .importDisk c => (importClientsFromDisk c db.toConfigDb).map fun (configDb, _) =>
      { db with toConfigDb := configDb }
  | .status gid row => (db.groups.row? gid).map fun g => db.setStatus gid g row
  | .node nodeId row => some { db with nodes := db.nodes.set nodeId row }

/-! ## What links must be -/

/-- `row` is on a replica of the automatic group `g`, and `p` is the row of its client on the
primary. -/
structure ShadowOn (t : ConfigTable) (g : SyncGroup) (row : ConfigRow) (p : Nat) : Prop where
  auto : isAutoSyncEnabled g = true
  replica : row.nodeId ∈ g.replicaNodeIds
  primary : ∃ primary, t.row? p = some primary ∧ primary.haPrimaryConfigId = none ∧
    primary.nodeId = g.primaryNodeId ∧ primary.clientName = row.clientName ∧
    primary.vpnType = row.vpnType

structure LinksOk (db : HaDb ρ) : Prop where
  shadow : ∀ id row p, db.configs.row? id = some row → row.haPrimaryConfigId = some p →
    ∃ gid g, db.groups.row? gid = some g ∧ ShadowOn db.configs g row p
  /-- A primary row has one shadow on a replica at most. -/
  one : ∀ id row id' row' p, db.configs.row? id = some row → db.configs.row? id' = some row' →
    row.haPrimaryConfigId = some p → row'.haPrimaryConfigId = some p → row.nodeId = row'.nodeId →
    id = id'
  member : ∀ id row gid, db.configs.row? id = some row → row.syncGroupId = some gid →
    ∃ g, db.groups.row? gid = some g ∧ row.nodeId ∈ g.members
  /-- Dissolving a group keeps the rows and leaves its nodes without links. -/
  dissolve : ∀ gid g, db.groups.row? gid = some g →
    Kept db.configs (dissolveSyncGroup gid g db.configs) ∧
    ∀ id row, (dissolveSyncGroup gid g db.configs).row? id = some row → row.nodeId ∈ g.members →
      row.haPrimaryConfigId = none ∧ row.syncGroupId = none

/-- No row is linked and there is no group. -/
structure Unlinked (db : HaDb ρ) : Prop where
  rows : ∀ id row, db.configs.row? id = some row →
    row.haPrimaryConfigId = none ∧ row.syncGroupId = none
  groups : ∀ gid, db.groups.row? gid = none

/-- A group that keeps its members leaves automatic mode by the name `manual_full`, unless it has
no links. -/
def CleanUpdate (db : HaDb ρ) (gid : Nat) (payload : SyncGroupUpdate) : Prop :=
  ∀ g, db.groups.row? gid = some g → isAutoSyncEnabled g = true →
    membershipChanged g payload = false →
    isAutoSyncEnabled (applyGroupFields g payload) = true ∨
      normalizedMode (applyGroupFields g payload).syncMode = "manual_full" ∨
      ∀ id row, db.configs.row? id = some row → row.syncGroupId = some gid →
        row.haPrimaryConfigId = none

def CleanHaStep (db : HaDb ρ) : HaStep → Prop
  | .updateGroup gid payload => CleanUpdate db gid payload
  | _ => True

end

/-! ## Writes -/

/-- The row was there with the same entry and link, or has no link; a group that is new to it is
one of its node. -/
structure Tame (groups : Table Nat SyncGroup) (t : ConfigTable) (id : Nat) (row' : ConfigRow) :
    Prop where
  entry : ∀ row, t.row? id = some row → row'.nodeId = row.nodeId ∧
    row'.clientName = row.clientName ∧ row'.vpnType = row.vpnType
  link : (∃ row, t.row? id = some row ∧ row'.haPrimaryConfigId = row.haPrimaryConfigId ∧
      row'.syncGroupId = row.syncGroupId) ∨
    row'.haPrimaryConfigId = none ∧ ∀ gid, row'.syncGroupId = some gid →
      (∃ row, t.row? id = some row ∧ row.syncGroupId = some gid) ∨
      ∃ g, groups.row? gid = some g ∧ row'.nodeId ∈ g.members

/-- One write. -/
inductive LinkMove (groups : Table Nat SyncGroup) (t t' : ConfigTable) : Prop
  | tame (hRows : ∀ id row', t'.row? id = some row' → Tame groups t id row')
  | link (id p gid : Nat) (g : SyncGroup) (row : ConfigRow)
      (hGroup : groups.row? gid = some g)
      (hShadow : ShadowOn t g row p)
      (hLink : row.haPrimaryConfigId = some p)
      (hTag : row.syncGroupId = some gid)
      (hOld : ∀ old, t.row? id = some old → old.nodeId = row.nodeId ∧
        old.clientName = row.clientName ∧ old.vpnType = row.vpnType)
      (hRows : ∀ other, t'.row? other = if other = id then some row else t.row? other)

abbrev Moves (groups : Table Nat SyncGroup) : ConfigTable → ConfigTable → Prop :=
  ReflTransGen (LinkMove groups)

/-- The nodes of the groups are apart. -/
structure Apart (groups : Table Nat SyncGroup) : Prop where
  one : ∀ gid g gid' g' m, groups.row? gid = some g → groups.row? gid' = some g' →
    m ∈ g.members → m ∈ g'.members → gid = gid'
  primary : ∀ gid g, groups.row? gid = some g → g.primaryNodeId ∉ g.replicaNodeIds

structure LinkedIn (groups : Table Nat SyncGroup) (t : ConfigTable) : Prop where
  shadow : ∀ id row p, t.row? id = some row → row.haPrimaryConfigId = some p →
    ∃ gid g, row.syncGroupId = some gid ∧ groups.row? gid = some g ∧ ShadowOn t g row p
  member : ∀ id row gid, t.row? id = some row → row.syncGroupId = some gid →
    ∃ g, groups.row? gid = some g ∧ row.nodeId ∈ g.members

variable {gid m : Nat}

section

variable {groups groups' : Table Nat SyncGroup} {t t' : ConfigTable}

theorem ShadowOn.mono {g : SyncGroup} {row : ConfigRow} {p : Nat} (h : ShadowOn t g row p)
    (hRow : ∀ primary, t.row? p = some primary → primary.haPrimaryConfigId = none →
      ∃ primary', t'.row? p = some primary' ∧ primary'.haPrimaryConfigId = none ∧
        primary'.nodeId = primary.nodeId ∧ primary'.clientName = primary.clientName ∧
        primary'.vpnType = primary.vpnType) : ShadowOn t' g row p where
  auto := h.auto
  replica := h.replica
  primary := by
    obtain ⟨primary, hPrimary, hOwn, hNode, hName, hType⟩ := h.primary
    obtain ⟨primary', hPrimary', hOwn', hNode', hName', hType'⟩ := hRow primary hPrimary hOwn
    exact ⟨primary', hPrimary', hOwn', hNode'.trans hNode, hName'.trans hName, hType'.trans hType⟩

/-- Tame changes keep the links. -/
theorem linkedIn_tame (h : LinkedIn groups t)
    (hRows : ∀ id row', t'.row? id = some row' → Tame groups t id row') : LinkedIn groups t' where
  shadow := by
    intro id row' p hRow' hLink'
    obtain ⟨hEntry, ⟨row, hRow, hLink, hTag⟩ | ⟨hNone, -⟩⟩ := hRows id row' hRow'
    · obtain ⟨gid, g, hSame, hGroup, hShadow⟩ := h.shadow id row p hRow (hLink ▸ hLink')
      obtain ⟨hNode, hName, hType⟩ := hEntry row hRow
      refine ⟨gid, g, hTag.trans hSame, hGroup, ?_⟩
      have hMoved : ShadowOn t' g row p := by
        refine hShadow.mono fun primary hPrimary hOwn => ?_
        obtain ⟨primary', hPrimary'⟩ := isSome_iff_exists.mp (t'.refs id row' p hRow' hLink')
        obtain ⟨hEntryP, ⟨old, hOld, hLinkP, -⟩ | ⟨hNoneP, -⟩⟩ := hRows p primary' hPrimary'
        · obtain rfl := Option.mem_unique hPrimary hOld
          exact ⟨primary', hPrimary', hLinkP.trans hOwn, hEntryP primary hPrimary⟩
        · exact ⟨primary', hPrimary', hNoneP, hEntryP primary hPrimary⟩
      obtain ⟨hAuto, hReplica, primary, hPrimary, hOwn, hOn, hSameName, hSameType⟩ := hMoved
      exact ⟨hAuto, hNode ▸ hReplica, primary, hPrimary, hOwn, hOn, hSameName.trans hName.symm,
        hSameType.trans hType.symm⟩
    · rw [hNone] at hLink'
      cases hLink'
  member := by
    intro id row' gid hRow' hTag'
    obtain ⟨hEntry, ⟨row, hRow, -, hTag⟩ | ⟨-, hNew⟩⟩ := hRows id row' hRow'
    · obtain ⟨g, hGroup, hMember⟩ := h.member id row gid hRow (hTag ▸ hTag')
      exact ⟨g, hGroup, (hEntry row hRow).1 ▸ hMember⟩
    · rcases hNew gid hTag' with ⟨row, hRow, hTag⟩ | hOf
      · obtain ⟨g, hGroup, hMember⟩ := h.member id row gid hRow hTag
        exact ⟨g, hGroup, (hEntry row hRow).1 ▸ hMember⟩
      · exact hOf

/-- The row that is linked is on a replica, so it is nobody's primary row. -/
theorem linkedIn_link (hApart : Apart groups) (h : LinkedIn groups t) {id p : Nat}
    {g : SyncGroup} {row : ConfigRow} (hGroup : groups.row? gid = some g)
    (hShadow : ShadowOn t g row p) (hLink : row.haPrimaryConfigId = some p)
    (hTag : row.syncGroupId = some gid)
    (hOld : ∀ old, t.row? id = some old → old.nodeId = row.nodeId)
    (hRows : ∀ other, t'.row? other = if other = id then some row else t.row? other) :
    LinkedIn groups t' := by
  have hNobodys : ∀ gid' g' row' q, groups.row? gid' = some g' → ShadowOn t g' row' q → q ≠ id := by
    rintro gid' g' row' q hGroup' hOther rfl
    obtain ⟨primary, hPrimary, -, hNode, -⟩ := hOther.primary
    have hReplica : g'.primaryNodeId ∈ g.replicaNodeIds := by
      rw [← hNode, hOld primary hPrimary]
      exact hShadow.replica
    obtain rfl := hApart.one gid g gid' g' g'.primaryNodeId hGroup hGroup'
      (mem_cons_of_mem _ hReplica) mem_cons_self
    obtain rfl := Option.mem_unique hGroup hGroup'
    exact hApart.primary gid g hGroup hReplica
  have hMoved : ∀ gid' g' row' q, groups.row? gid' = some g' → ShadowOn t g' row' q →
      ShadowOn t' g' row' q := by
    intro gid' g' row' q hGroup' hOther
    refine hOther.mono fun primary hPrimary hOwn => ⟨primary, ?_, hOwn, rfl, rfl, rfl⟩
    rw [hRows, if_neg (hNobodys gid' g' row' q hGroup' hOther), hPrimary]
  constructor
  · intro other row' q hRow' hLink'
    rw [hRows] at hRow'
    split_ifs at hRow' with hId
    · cases hRow'
      obtain rfl := Option.mem_unique hLink hLink'
      exact ⟨gid, g, hTag, hGroup, hMoved gid g row p hGroup hShadow⟩
    · obtain ⟨gid', g', hTag', hGroup', hOther⟩ := h.shadow other row' q hRow' hLink'
      exact ⟨gid', g', hTag', hGroup', hMoved gid' g' row' q hGroup' hOther⟩
  · intro other row' gid' hRow' hTag'
    rw [hRows] at hRow'
    split_ifs at hRow' with hId
    · cases hRow'
      obtain rfl := Option.mem_unique hTag hTag'
      exact ⟨g, hGroup, mem_cons_of_mem _ hShadow.replica⟩
    · exact h.member other row' gid' hRow' hTag'

/-- Writes keep links right. -/
theorem linkedIn_moves (hApart : Apart groups) (h : LinkedIn groups t)
    (hMoves : Moves groups t t') : LinkedIn groups t' := by
  induction hMoves with
  | refl => exact h
  | tail _ hMove ih =>
    cases hMove with
    | tame hRows => exact linkedIn_tame ih hRows
    | link id p gid g row hGroup hShadow hLink hTag hOld hRows =>
      exact linkedIn_link hApart ih hGroup hShadow hLink hTag (fun old h => (hOld old h).1) hRows

/-- Writes keep the names of shadows. -/
theorem namedAlike_moves (h : NamedAlike t) (hMoves : Moves groups t t') : NamedAlike t' := by
  induction hMoves with
  | refl => exact h
  | @tail u t' _ hMove ih =>
    cases hMove with
    | tame hRows =>
      intro id row' p primary' hRow' hLink' hPrimary'
      obtain ⟨hEntry, ⟨row, hRow, hLink, -⟩ | ⟨hNone, -⟩⟩ := hRows id row' hRow'
      · obtain ⟨primary, hPrimary⟩ := isSome_iff_exists.mp
          (u.refs id row p hRow (hLink ▸ hLink'))
        obtain ⟨-, hName, hType⟩ := hEntry row hRow
        obtain ⟨-, hNameP, hTypeP⟩ := (hRows p primary' hPrimary').entry primary hPrimary
        obtain ⟨hSameName, hSameType⟩ := ih id row p primary hRow (hLink ▸ hLink') hPrimary
        exact ⟨hName.trans (hSameName.trans hNameP.symm), hType.trans (hSameType.trans hTypeP.symm)⟩
      · rw [hNone] at hLink'
        cases hLink'
    | link id p gid g row hGroup hShadow hLink hTag hOld hRows =>
      intro other row' q primary' hRow' hLink' hPrimary'
      rw [hRows] at hRow' hPrimary'
      split_ifs at hRow' hPrimary' with hId hPrimaryId hPrimaryId
      · rw [← Option.some.inj hRow', ← Option.some.inj hPrimary']
        exact ⟨rfl, rfl⟩
      · cases hRow'
        obtain rfl := Option.mem_unique hLink hLink'
        obtain ⟨primary, hPrimary, -, -, hName, hType⟩ := hShadow.primary
        obtain rfl := Option.mem_unique hPrimary hPrimary'
        exact ⟨hName.symm, hType.symm⟩
      · cases hPrimary'
        obtain ⟨old, hWas⟩ := isSome_iff_exists.mp (u.refs other row' q hRow' hLink')
        obtain ⟨hName, hType⟩ := ih other row' q old hRow' hLink' hWas
        obtain ⟨-, hOldName, hOldType⟩ := hOld old (hPrimaryId ▸ hWas)
        exact ⟨hName.trans hOldName, hType.trans hOldType⟩
      · exact ih other row' q primary' hRow' hLink' hPrimary'

/-! ## Writes of single functions -/

theorem move_delete {gone : Nat → ConfigRow → Bool} (h : t.delete gone = some t') :
    LinkMove groups t t' := by
  refine .tame fun id row' hRow' => ?_
  rw [ConfigTable.row?_delete h, filter_eq_some_iff] at hRow'
  refine ⟨fun row hRow => ?_, .inl ⟨row', hRow'.1, rfl, rfl⟩⟩
  obtain rfl := Option.mem_unique hRow hRow'.1
  exact ⟨rfl, rfl, rfl⟩

/-- A row without a link is inserted. -/
theorem move_insert {row : ConfigRow} (h : t.insert row = some t')
    (hLink : row.haPrimaryConfigId = none) (hTag : row.syncGroupId = none) :
    LinkMove groups t t' := by
  refine .tame fun id row' hRow' => ?_
  rw [ConfigTable.row?_insert h] at hRow'
  split_ifs at hRow' with hId
  · cases hRow'
    refine ⟨fun old hOld => ?_, .inr ⟨hLink, fun gid hSome => ?_⟩⟩
    · rw [hId, ConfigTable.row?_nextId] at hOld
      cases hOld
    · rw [hTag] at hSome
      cases hSome
  · refine ⟨fun row hRow => ?_, .inl ⟨row', hRow', rfl, rfl⟩⟩
    obtain rfl := Option.mem_unique hRow hRow'
    exact ⟨rfl, rfl, rfl⟩

/-- Every row is rewritten in place. -/
theorem move_map {f : Nat → ConfigRow → ConfigRow}
    (hRows : ∀ id, t'.row? id = (t.row? id).map (f id))
    (hEntry : ∀ id row, (f id row).nodeId = row.nodeId ∧ (f id row).clientName = row.clientName ∧
      (f id row).vpnType = row.vpnType)
    (hLinks : ∀ id row, t.row? id = some row →
      ((f id row).haPrimaryConfigId = row.haPrimaryConfigId ∧
        (f id row).syncGroupId = row.syncGroupId) ∨
      (f id row).haPrimaryConfigId = none ∧ ∀ gid, (f id row).syncGroupId = some gid →
        row.syncGroupId = some gid ∨ ∃ g, groups.row? gid = some g ∧ row.nodeId ∈ g.members) :
    LinkMove groups t t' := by
  refine .tame fun id row' hRow' => ?_
  rw [hRows, map_eq_some_iff] at hRow'
  obtain ⟨row, hRow, rfl⟩ := hRow'
  constructor
  · intro old hOld
    obtain rfl := Option.mem_unique hRow hOld
    exact hEntry id row
  · rcases hLinks id row hRow with hSame | ⟨hNone, hTag⟩
    · exact .inl ⟨row, hRow, hSame⟩
    · refine .inr ⟨hNone, fun gid hSome => ?_⟩
      rcases hTag gid hSome with hWas | ⟨g, hGroup, hMember⟩
      · exact .inl ⟨row, hRow, hWas⟩
      · exact .inr ⟨g, hGroup, (hEntry id row).1.symm ▸ hMember⟩

theorem move_dissolve (gid : Nat) (g : SyncGroup) :
    LinkMove groups t (dissolveSyncGroup gid g t) := by
  refine move_map (fun _ => rfl) (fun _ row => detached_entry t gid g row) fun id row _ => ?_
  unfold detached
  split_ifs with hShadow hTagged
  · exact .inr ⟨rfl, nofun⟩
  · refine .inr ⟨?_, nofun⟩
    simp only [taggedPrimary, strayReplica, Bool.or_eq_true, Bool.and_eq_true,
      isNone_iff_eq_none] at hTagged
    rcases hTagged with hPrimary | hStray
    · exact hPrimary.1.2
    · exact hStray.1.2
  · exact .inl ⟨rfl, rfl⟩

theorem move_clear (gid : Nat) : LinkMove groups t (clearShadowLinks gid t) := by
  refine move_map (fun _ => rfl) (fun _ _ => by split <;> exact ⟨rfl, rfl, rfl⟩) fun id row _ => ?_
  split
  · exact .inr ⟨rfl, fun _ hTag => .inl hTag⟩
  · exact .inl ⟨rfl, rfl⟩

/-- `f` gives rows of the primary node without a link the group. -/
theorem move_tag {g : SyncGroup} (hGroup : groups.row? gid = some g)
    {f : Nat → ConfigRow → ConfigRow} (hRows : ∀ id, t'.row? id = (t.row? id).map (f id))
    (hEntry : ∀ id row, (f id row).nodeId = row.nodeId ∧ (f id row).clientName = row.clientName ∧
      (f id row).vpnType = row.vpnType)
    (hTags : ∀ id row, t.row? id = some row → f id row = row ∨
      row.nodeId = g.primaryNodeId ∧ (f id row).haPrimaryConfigId = none ∧
        (f id row).syncGroupId = some gid) : LinkMove groups t t' := by
  refine move_map hRows hEntry fun id row hRow => ?_
  rcases hTags id row hRow with hSame | ⟨hNode, hNone, hTag⟩
  · rw [hSame]
    exact .inl ⟨rfl, rfl⟩
  · refine .inr ⟨hNone, fun gid' hSome => .inr ?_⟩
    obtain rfl := Option.mem_unique hTag hSome
    exact ⟨g, hGroup, hNode ▸ mem_cons_self⟩

/-- An unlinked row of the primary node. -/
def IsPrimary (g : SyncGroup) (t : ConfigTable) (id : Nat) : Prop :=
  ∃ row, t.row? id = some row ∧ row.nodeId = g.primaryNodeId ∧ row.haPrimaryConfigId = none

theorem IsPrimary.row {g : SyncGroup} {id : Nat} {row : ConfigRow} (h : IsPrimary g t id)
    (hRow : t.row? id = some row) :
    row.nodeId = g.primaryNodeId ∧ row.haPrimaryConfigId = none := by
  obtain ⟨r, hR, hNode, hOwn⟩ := h
  obtain rfl := Option.mem_unique hR hRow
  exact ⟨hNode, hOwn⟩

theorem move_tagGroup {gid id : Nat} {g : SyncGroup} (hGroup : groups.row? gid = some g)
    (hPrimary : IsPrimary g t id) : LinkMove groups t (tagGroup t gid id) := by
  refine move_tag hGroup (fun _ => rfl) (fun _ _ => by split <;> exact ⟨rfl, rfl, rfl⟩) ?_
  intro other row hRow
  split_ifs with hId
  · obtain ⟨hNode, hOwn⟩ := hPrimary.row (hId ▸ hRow)
    exact .inr ⟨hNode, hOwn, rfl⟩
  · exact .inl rfl

theorem move_claimPrimary {gid id : Nat} {g : SyncGroup} (hGroup : groups.row? gid = some g)
    (hPrimary : IsPrimary g t id) : LinkMove groups t (claimPrimary t gid id) := by
  refine move_tag hGroup (fun _ => rfl) (fun _ _ => by split <;> exact ⟨rfl, rfl, rfl⟩) ?_
  intro other row hRow
  split_ifs with hId
  · exact .inr ⟨(hPrimary.row (hId ▸ hRow)).1, rfl, rfl⟩
  · exact .inl rfl

theorem moves_linkPrimaryConfigs {g : SyncGroup} (hGroup : groups.row? gid = some g) :
    Moves groups t (linkPrimaryConfigs gid g t) := by
  rw [linkPrimaryConfigs]
  split
  · exact ReflTransGen.refl
  · refine ReflTransGen.single (move_tag hGroup (fun _ => rfl)
      (fun _ _ => by split <;> exact ⟨rfl, rfl, rfl⟩) fun id row _ => ?_)
    split_ifs with hPrimary
    · rw [Bool.and_eq_true, decide_eq_true_eq, isNone_iff_eq_none] at hPrimary
      exact .inr ⟨hPrimary.1, hPrimary.2, rfl⟩
    · exact .inl rfl

theorem moves_linkPrimaryConfig {id : Nat} {g : SyncGroup}
    (hGroup : groups.row? gid = some g) : Moves groups t (linkPrimaryConfig gid g t id) := by
  rw [linkPrimaryConfig]
  split
  · exact ReflTransGen.refl
  · split
    · next hAny =>
      obtain ⟨row, hRow, hPrimary⟩ := (Option.any_eq_true _ _).mp hAny
      rw [Bool.and_eq_true, decide_eq_true_eq, isNone_iff_eq_none] at hPrimary
      exact ReflTransGen.single (move_tagGroup hGroup ⟨row, hRow, hPrimary⟩)
    · exact ReflTransGen.refl

/-! ## Making links -/

/-- Rewriting one row in place. -/
theorem rewriteOne {id : Nat} {r : ConfigRow} {f : ConfigRow → ConfigRow}
    (hRow : t.row? id = some r) (hRows : ∀ other, t'.row? other =
      (t.row? other).map fun row => if other = id then f row else row) (other : Nat) :
    t'.row? other = if other = id then some (f r) else t.row? other := by
  rw [hRows]
  split_ifs with hId
  · rw [hId, hRow]
    rfl
  · cases t.row? other <;> rfl

/-- While links to `ids` are made, these stay primary rows. -/
structure Linking (groups : Table Nat SyncGroup) (g : SyncGroup) (ids : List Nat)
    (start t : ConfigTable) : Prop where
  moves : Moves groups start t
  primaries : ∀ id ∈ ids, IsPrimary g t id

section

variable {gid p : Nat} {g : SyncGroup} {ids replicaNodes : List Nat} {start : ConfigTable}
  {env : HaEnv} (hApart : Apart groups) (hGroup : groups.row? gid = some g)
  (hAuto : isAutoSyncEnabled g = true)

include hApart hGroup hAuto

/-- A row of a replica is linked to one of `ids`. -/
theorem Linking.link (h : Linking groups g ids start t) (hMem : p ∈ ids) {primary : ConfigRow}
    (hPrimary : t.row? p = some primary) (id : Nat) (row : ConfigRow)
    (hReplica : row.nodeId ∈ g.replicaNodeIds)
    (hName : row.clientName = primary.clientName) (hType : row.vpnType = primary.vpnType)
    (hLink : row.haPrimaryConfigId = some p) (hTag : row.syncGroupId = some gid)
    (hOld : ∀ old, t.row? id = some old → old.nodeId = row.nodeId ∧
      old.clientName = row.clientName ∧ old.vpnType = row.vpnType)
    (hRows : ∀ other, t'.row? other = if other = id then some row else t.row? other) :
    Linking groups g ids start t' where
  moves := by
    obtain ⟨hNode, hOwn⟩ := (h.primaries p hMem).row hPrimary
    have hShadow : ShadowOn t g row p :=
      ⟨hAuto, hReplica, primary, hPrimary, hOwn, hNode, hName.symm, hType.symm⟩
    exact h.moves.tail (.link id p gid g row hGroup hShadow hLink hTag hOld hRows)
  primaries := by
    intro other hOther
    obtain ⟨r, hRow, hNode, hOwn⟩ := h.primaries other hOther
    have hNe : other ≠ id := by
      rintro rfl
      have hSame := (hOld r hRow).1
      rw [hNode] at hSame
      exact hApart.primary gid g hGroup (hSame ▸ hReplica)
    exact ⟨r, by rw [hRows, if_neg hNe, hRow], hNode, hOwn⟩

/-- One shadow row is written. -/
theorem Linking.upsert (h : Linking groups g ids start t) (hMem : p ∈ ids) {primary : ConfigRow}
    (hPrimary : t.row? p = some primary) (hReplica : m ∈ g.replicaNodeIds) {existing : Option Nat}
    (hExisting : ∀ id ∈ existing, ∃ r, t.row? id = some r ∧ r.nodeId = m ∧
      r.clientName = primary.clientName ∧ r.vpnType = primary.vpnType)
    (hUpsert : upsertShadowConfig t gid m p primary existing = some t') :
    Linking groups g ids start t' := by
  cases existing with
  | none =>
    have hRows : ∀ other, t'.row? other =
        if other = t.nextId then some (shadowRow gid m p primary) else t.row? other :=
      ConfigTable.row?_insert hUpsert
    refine h.link hApart hGroup hAuto hMem hPrimary _ (shadowRow gid m p primary) hReplica rfl rfl
      rfl rfl ?_ hRows
    intro old hOld
    rw [ConfigTable.row?_nextId] at hOld
    cases hOld
  | some id =>
    obtain ⟨r, hRow, rfl, hName, hType⟩ := hExisting id rfl
    rw [upsertShadowConfig, linkExisting] at hUpsert
    split_ifs at hUpsert
    cases hUpsert
    refine h.link hApart hGroup hAuto hMem hPrimary id (linkedRow gid p primary r) hReplica hName
      hType rfl rfl ?_ (rewriteOne hRow fun _ => rfl)
    intro old hOld
    obtain rfl := Option.mem_unique hRow hOld
    exact ⟨rfl, rfl, rfl⟩

omit hApart hGroup hAuto in
theorem findReplicaRow_mem {id : Nat} {primary : ConfigRow}
    (h : id ∈ findReplicaRow t m primary) : ∃ r, t.row? id = some r ∧ r.nodeId = m ∧
      r.clientName = primary.clientName ∧ r.vpnType = primary.vpnType := by
  obtain ⟨r, hRow, hIs⟩ := ConfigTable.mem_ids.mp (mem_of_mem_head? h)
  simp only [Bool.and_eq_true, decide_eq_true_eq] at hIs
  exact ⟨r, hRow, hIs.1.1, hIs.1.2, hIs.2⟩

/-- One replica is gone through. -/
theorem Linking.linkReplica (h : Linking groups g ids start t) (hMem : p ∈ ids)
    (hReplica : m ∈ g.replicaNodeIds) (hTurn : linkReplica gid p t m = some t') :
    Linking groups g ids start t' := by
  obtain ⟨primary, hPrimary, hLinks⟩ := bind_eq_some_iff.mp hTurn
  cases hFound : findReplicaRow t m primary with
  | none =>
    rw [hFound] at hLinks
    exact h.upsert hApart hGroup hAuto hMem hPrimary hReplica (fun _ hNone => by cases hNone) hLinks
  | some existing =>
    obtain ⟨r, hRow, hNode, hName, hType⟩ := findReplicaRow_mem hFound
    simp only [hFound, hRow, bind_some] at hLinks
    cases hLink : r.haPrimaryConfigId with
    | none =>
      rw [hLink] at hLinks
      refine h.upsert hApart hGroup hAuto hMem hPrimary hReplica (fun id hId => ?_) hLinks
      cases hId
      exact ⟨r, hRow, hNode, hName, hType⟩
    | some q =>
      simp only [hLink] at hLinks
      split_ifs at hLinks with hSame
      · cases hLinks
        have hTo : r.haPrimaryConfigId = some p := hSame ▸ hLink
        have hOn : (refreshedRow gid primary r).nodeId ∈ g.replicaNodeIds := hNode ▸ hReplica
        refine h.link hApart hGroup hAuto hMem hPrimary existing (refreshedRow gid primary r) hOn
          hName hType hTo rfl ?_ (rewriteOne hRow fun _ => rfl)
        intro old hOld
        obtain rfl := Option.mem_unique hRow hOld
        exact ⟨rfl, rfl, rfl⟩
      · cases hLinks
        exact h

theorem Linking.createShadow (h : Linking groups g ids start t) (hMem : p ∈ ids)
    (hReplica : m ∈ g.replicaNodeIds) (hTurn : createShadow env gid p t m = some t') :
    Linking groups g ids start t' := by
  rw [Ha.createShadow] at hTurn
  split_ifs at hTurn
  · cases hTurn
    exact h
  · obtain ⟨primary, hPrimary, hUpsert⟩ := bind_eq_some_iff.mp hTurn
    exact h.upsert hApart hGroup hAuto hMem hPrimary hReplica
      (fun id hId => findReplicaRow_mem hId) hUpsert

/-- All replicas are gone through. -/
theorem Linking.linkShadows (h : Linking groups g ids start t) (hMem : p ∈ ids)
    (hReplicas : ∀ m ∈ replicaNodes, m ∈ g.replicaNodeIds)
    (hTurn : linkShadows gid replicaNodes t p = some t') : Linking groups g ids start t' := by
  have hTagged : Linking groups g ids start (tagGroup t gid p) := by
    refine ⟨h.moves.tail (move_tagGroup hGroup (h.primaries p hMem)), fun id hId => ?_⟩
    obtain ⟨row, hRow, hNode, hOwn⟩ := h.primaries id hId
    refine ⟨_, by rw [tagGroup, ConfigTable.row?_update, hRow]; rfl, ?_⟩
    split_ifs
    · exact ⟨hNode, hOwn⟩
    · exact ⟨hNode, hOwn⟩
  exact Lib.invariant_exec_mem
    (fun _ m _ hIn hLinking hLink =>
      hLinking.linkReplica hApart hGroup hAuto hMem (hReplicas m hIn) hLink)
    hTagged hTurn

theorem moves_linkShadowConfigs (hReplicas : ∀ m ∈ replicaNodes, m ∈ g.replicaNodeIds)
    (h : linkShadowConfigs gid g replicaNodes t = some t') : Moves groups t t' := by
  rw [linkShadowConfigs] at h
  split_ifs at h
  · cases h
    exact ReflTransGen.refl
  · cases h
    exact ReflTransGen.refl
  · have hStart : Linking groups g (primaryConfigs g t) t t := by
      refine ⟨ReflTransGen.refl, fun id hId => ?_⟩
      obtain ⟨row, hRow, hIs⟩ := ConfigTable.mem_ids.mp hId
      rw [Bool.and_eq_true, decide_eq_true_eq, isNone_iff_eq_none] at hIs
      exact ⟨row, hRow, hIs⟩
    have hDone : Linking groups g (primaryConfigs g t) t t' := Lib.invariant_exec_mem
      (fun _ _ _ hIn hLinking hTurn =>
        hLinking.linkShadows hApart hGroup hAuto hIn hReplicas hTurn)
      hStart h
    exact hDone.moves

theorem moves_handleClientCreate (hReplicas : ∀ m ∈ replicaNodes, m ∈ g.replicaNodeIds)
    (hPrimary : IsPrimary g t p) (h : handleClientCreate env gid p replicaNodes t = some t') :
    Moves groups t t' := by
  rw [handleClientCreate, map_eq_some_iff] at h
  obtain ⟨mid, hLoop, rfl⟩ := h
  have hStart : Linking groups g [p] t t :=
    ⟨ReflTransGen.refl, fun id hId => mem_singleton.mp hId ▸ hPrimary⟩
  have hDone : Linking groups g [p] t mid := Lib.invariant_exec_mem
    (fun _ m _ hIn hLinking hTurn => hLinking.createShadow hApart hGroup hAuto
      mem_cons_self (hReplicas m hIn) hTurn)
    hStart hLoop
  exact hDone.moves.tail (move_claimPrimary hGroup (hDone.primaries p mem_cons_self))

end

end

/-! ## Writes of the operations -/

variable {now : Time} {c : DiskImport} {clean : Prop} {payload : SyncGroupUpdate}

section

variable {ρ : Type} {db db' : HaDb ρ} {groups : Table Nat SyncGroup} {t t' : ConfigTable}
  {gid p : Nat} {g : SyncGroup} {env : HaEnv}

theorem mem_of_mem_replicaNodes (h : m ∈ getReplicaNodes db g) : m ∈ g.replicaNodeIds :=
  mem_of_mem_filter h

theorem groups_linkGroup (db : HaDb ρ) (gid : Nat) (g : SyncGroup) :
    (linkGroup db gid g).groups = db.groups := by
  rw [linkGroup]
  split <;> rfl

theorem moves_linkGroup (hApart : Apart db.groups) (hGroup : db.groups.row? gid = some g) :
    Moves db.groups db.configs (linkGroup db gid g).configs := by
  have hManual : Moves db.groups db.configs (linkPrimaryConfigs gid g db.configs) :=
    moves_linkPrimaryConfigs hGroup
  rw [linkGroup]
  generalize linkPrimaryConfigs gid g db.configs = manual at hManual
  split
  · next hAuto =>
    cases hLinks : linkShadowConfigs gid g (getReplicaNodes db g) db.configs with
    | none => exact ReflTransGen.refl
    | some configs =>
      exact moves_linkShadowConfigs hApart hGroup hAuto (fun _ => mem_of_mem_replicaNodes) hLinks
  · exact hManual

theorem moves_removeConfig {queried : ConfigTable} {cdb cdb' : ConfigDb ρ} {id : Nat}
    (h : removeConfig queried now cdb id = some cdb') :
    Moves groups cdb.configs cdb'.configs := by
  simp only [removeConfig, bind_eq_bind, bind_eq_some_iff, Option.pure_def,
    Option.some.injEq] at h
  obtain ⟨row, -, purged, hPurge, configs, hDelete, rfl⟩ := h
  refine ReflTransGen.tail ?_ (move_delete hDelete)
  rw [purgeShadowsOf] at hPurge
  split_ifs at hPurge
  · exact ReflTransGen.single (move_delete hPurge)
  · cases hPurge
    exact ReflTransGen.refl

theorem move_importClient {vpnType : VpnType} {clientName : ClientName}
    {found found' : ConfigTable × Nat} (h : importClient c vpnType found clientName = some found') :
    LinkMove groups found.1 found'.1 := by
  simp only [importClient] at h
  split at h
  · obtain ⟨rows, hInsert, rfl⟩ := map_eq_some_iff.mp h
    exact move_insert hInsert rfl rfl
  · cases h
    refine move_map (fun _ => rfl) (fun _ _ => by split <;> exact ⟨rfl, rfl, rfl⟩) fun _ _ _ => ?_
    split <;> exact .inl ⟨rfl, rfl⟩

theorem moves_importClients {vpnType : VpnType} {names : List ClientName}
    {found found' : ConfigTable × Nat} (h : importClients c vpnType names found = some found') :
    Moves groups found.1 found'.1 := by
  rw [importClients, Lib.foldlM_eq_exec] at h
  have hStep : ∀ s clientName s', Moves groups found.1 s.1 →
      importClient c vpnType s clientName = some s' → Moves groups found.1 s'.1 :=
    fun _ _ _ hMoves hTurn => hMoves.tail (move_importClient hTurn)
  exact Lib.invariant_of_exec hStep ReflTransGen.refl h

theorem moves_importClientsFromDisk {cdb cdb' : ConfigDb ρ}
    {result : ConfigDiskSyncResult} (h : importClientsFromDisk c cdb = some (cdb', result)) :
    Moves groups cdb.configs cdb'.configs := by
  simp only [importClientsFromDisk, bind_eq_bind, bind_eq_some_iff, Option.pure_def,
    Option.some.injEq, Prod.mk.injEq] at h
  obtain ⟨⟨configs, imported⟩, hImport, last, hRemove, rfl, -⟩ := h
  simp only [importAll, bind_eq_bind, bind_eq_some_iff] at hImport
  obtain ⟨first, hOpenvpn, second, hWireguard, hAwg2⟩ := hImport
  have hImported : Moves groups cdb.configs configs :=
    ((moves_importClients hOpenvpn).trans (moves_importClients hWireguard)).trans
      (moves_importClients hAwg2)
  have hStep : ∀ (s : ConfigDb ρ) (id : Nat) (s' : ConfigDb ρ), Moves groups cdb.configs s.configs →
      removeConfig cdb.configs c.now s id = some s' → Moves groups cdb.configs s'.configs :=
    fun _ _ _ hMoves hTurn => hMoves.trans (moves_removeConfig hTurn)
  exact Lib.invariant_of_exec hStep hImported hRemove

theorem moves_finishDelete (groups : Table Nat SyncGroup) {id : Nat} {row : ConfigRow}
    (h : finishDelete db id row now = some db') :
    Moves groups db.configs db'.configs ∧ db'.groups = db.groups := by
  simp only [finishDelete, bind_eq_bind, bind_eq_some_iff, Option.pure_def,
    Option.some.injEq] at h
  obtain ⟨purged, hPurge, configs, hDelete, rfl⟩ := h
  exact ⟨(ReflTransGen.single (move_delete hPurge)).tail (move_delete hDelete), rfl⟩

/-! ## Changes of groups -/

/-- A group is as it was, or none of its links is left; its members stay while rows have it. -/
theorem linkedIn_regroup {groups' : Table Nat SyncGroup} (h : LinkedIn groups t)
    (hGroups : ∀ gid g, groups.row? gid = some g →
      (∀ id row, t.row? id = some row → row.syncGroupId ≠ some gid) ∨
      ∃ g', groups'.row? gid = some g' ∧ g'.primaryNodeId = g.primaryNodeId ∧
        (∀ m, m ∈ g'.replicaNodeIds ↔ m ∈ g.replicaNodeIds) ∧
        (isAutoSyncEnabled g = true → isAutoSyncEnabled g' = true ∨
          ∀ id row, t.row? id = some row → row.syncGroupId = some gid →
            row.haPrimaryConfigId = none)) : LinkedIn groups' t where
  shadow := by
    intro id row p hRow hLink
    obtain ⟨gid, g, hTag, hGroup, hAuto, hReplica, primary, hPrimary, hOwn, hNode, hSame⟩ :=
      h.shadow id row p hRow hLink
    rcases hGroups gid g hGroup with hNone | ⟨g', hGroup', hPrim, hReps, hMode⟩
    · exact absurd hTag (hNone id row hRow)
    · rcases hMode hAuto with hAuto' | hCleared
      · exact ⟨gid, g', hTag, hGroup', hAuto', (hReps _).mpr hReplica, primary, hPrimary, hOwn,
          hNode.trans hPrim.symm, hSame⟩
      · rw [hCleared id row hRow hTag] at hLink
        cases hLink
  member := by
    intro id row gid hRow hTag
    obtain ⟨g, hGroup, hMember⟩ := h.member id row gid hRow hTag
    rcases hGroups gid g hGroup with hNone | ⟨g', hGroup', hPrim, hReps, -⟩
    · exact absurd hTag (hNone id row hRow)
    · refine ⟨g', hGroup', ?_⟩
      rcases mem_cons.mp hMember with hIs | hReplica
      · exact mem_cons.mpr (.inl (hIs.trans hPrim.symm))
      · exact mem_cons_of_mem _ ((hReps _).mpr hReplica)

theorem apart_erase (h : Apart groups) (gid : Nat) : Apart (groups.erase gid) := by
  have hWas : ∀ other g, (groups.erase gid).row? other = some g → groups.row? other = some g := by
    intro other g hGroup
    rw [Table.row?_erase] at hGroup
    split_ifs at hGroup
    exact hGroup
  exact ⟨fun gid g gid' g' m hG hG' => h.one gid g gid' g' m (hWas gid g hG) (hWas gid' g' hG'),
    fun gid g hG => h.primary gid g (hWas gid g hG)⟩

/-- A group is set whose nodes are in no other. -/
theorem apart_set (h : Apart groups) (hOthers : ∀ other g', groups.row? other = some g' →
    other ≠ gid → ∀ m ∈ g.members, m ∉ g'.members) (hPrimary : g.primaryNodeId ∉ g.replicaNodeIds) :
    Apart (groups.set gid g) where
  one := by
    intro a ga b gb m hA hB hMemA hMemB
    rw [Table.row?_set] at hA hB
    split_ifs at hA hB with hIsA hIsB hIsB
    · rw [hIsA, hIsB]
    · cases hA
      exact absurd hMemB (hOthers b gb hB hIsB m hMemA)
    · cases hB
      exact absurd hMemA (hOthers a ga hA hIsA m hMemB)
    · exact h.one a ga b gb m hA hB hMemA hMemB
  primary := by
    intro a ga hA
    rw [Table.row?_set] at hA
    split_ifs at hA with hIs
    · cases hA
      exact hPrimary
    · exact h.primary a ga hA

/-- Only the status of a group is written. -/
theorem apart_setStatus (h : Apart db.groups) (hGroup : db.groups.row? gid = some g)
    (row : GroupRow) : Apart (db.setStatus gid g row).groups := by
  refine apart_set h (fun other g' hOther hNe m hMem hMem' => ?_) (h.primary gid g hGroup)
  exact hNe (h.one other g' gid g m hOther hGroup hMem' hMem)

theorem linkedIn_setStatus (h : LinkedIn db.groups t) (hGroup : db.groups.row? gid = some g)
    (row : GroupRow) : LinkedIn (db.setStatus gid g row).groups t := by
  refine linkedIn_regroup h fun other g' hOther => .inr ?_
  by_cases hIs : other = gid
  · obtain rfl := hIs
    obtain rfl := Option.mem_unique hGroup hOther
    exact ⟨_, Table.row?_set_self _ _ _, rfl, fun _ => Iff.rfl, fun hAuto => .inl hAuto⟩
  · exact ⟨g', (Table.row?_set_of_ne _ _ hIs).trans hOther, rfl, fun _ => Iff.rfl,
      fun hAuto => .inl hAuto⟩

theorem firstGroup_none {q : Nat → SyncGroup → Bool} (h : db.firstGroup q = none)
    (hGroup : db.groups.row? gid = some g) : q gid g = false := by
  have hNone := List.findSome?_eq_none_iff.mp h gid (Table.mem_keys_of_row? hGroup)
  rw [hGroup, map_eq_none_iff, filter_eq_none_iff] at hNone
  simpa using hNone g rfl

/-- Validated members are in no group but the excluded one. -/
theorem validated {primaryNodeId : Nat} {replicaNodeIds : List Nat} {excludeGroupId : Option Nat}
    (h : validateSyncGroupPayload db primaryNodeId replicaNodeIds excludeGroupId = []) :
    primaryNodeId ∉ replicaNodeIds ∧ ∀ m ∈ primaryNodeId :: replicaNodeIds,
      findGroupForNode db m excludeGroupId = none := by
  simp only [validateSyncGroupPayload, append_eq_nil_iff, flatMap_eq_nil_iff] at h
  obtain ⟨⟨⟨⟨⟨-, hApart⟩, hPrimary⟩, hReplicas⟩, hInGroup⟩, -⟩ := h
  refine ⟨?_, ?_⟩
  · intro hMem
    rw [if_pos hMem] at hApart
    cases hApart
  intro m hMem
  rcases mem_cons.mp hMem with rfl | hReplica
  · rw [primaryErrors] at hPrimary
    rw [primaryGroupErrors] at hInGroup
    cases hNode : db.nodes.row? m with
    | none =>
      rw [hNode] at hPrimary
      cases hPrimary
    | some node =>
      cases hFound : findGroupForNode db m excludeGroupId with
      | none => rfl
      | some found =>
        rw [hNode, hFound] at hInGroup
        cases hInGroup
  · have hErrors := hReplicas m hReplica
    rw [replicaErrors] at hErrors
    cases hNode : db.nodes.row? m with
    | none =>
      rw [hNode] at hErrors
      cases hErrors
    | some node =>
      cases hFound : findGroupForNode db m excludeGroupId with
      | none => rfl
      | some found =>
        rw [hNode, hFound] at hErrors
        exact absurd (append_eq_nil_iff.mp hErrors).2 (cons_ne_nil _ _)

/-- A validated group is apart from the others. -/
theorem apart_validated (h : Apart db.groups) {replicaNodeIds : List Nat}
    {excludeGroupId : Option Nat}
    (hValid : validateSyncGroupPayload db g.primaryNodeId replicaNodeIds excludeGroupId = [])
    (hReplicas : ∀ m, m ∈ g.replicaNodeIds ↔ m ∈ replicaNodeIds)
    (hExclude : ∀ other, excludeGroupId = some other → other = gid) :
    Apart (db.groups.set gid g) := by
  obtain ⟨hPrimary, hFree⟩ := validated hValid
  refine apart_set h ?_ (fun hMem => hPrimary ((hReplicas _).mp hMem))
  intro other g' hOther hNe m hMem hMem'
  have hIn : m ∈ g.primaryNodeId :: replicaNodeIds := by
    rcases mem_cons.mp hMem with hIs | hReplica
    · exact mem_cons.mpr (.inl hIs)
    · exact mem_cons_of_mem _ ((hReplicas m).mp hReplica)
  have hNot := firstGroup_none (hFree m hIn) hOther
  simp only [Bool.and_eq_false_iff, decide_eq_false_iff_not, not_not] at hNot
  rcases hNot with hExcluded | hNone
  · exact hNe (hExclude other hExcluded)
  · exact hNone hMem'

/-! ## One step -/

/-- A step writes rows, changes groups, and writes rows again; under `clean` the change of groups
keeps links right. -/
structure Stepped (db db' : HaDb ρ) (clean : Prop) : Prop where
  apart : Apart db'.groups
  path : ∃ mid, Moves db.groups db.configs mid ∧
    (clean → LinkedIn db.groups mid → LinkedIn db'.groups mid) ∧
    Moves db'.groups mid db'.configs

/-- An operation that moves rows and leaves the groups alone. -/
theorem Stepped.of_moves (hApart : Apart db.groups)
    (hGroups : db'.groups = db.groups) (hMoves : Moves db.groups db.configs db'.configs) :
    Stepped db db' clean where
  apart := hGroups ▸ hApart
  path := ⟨db'.configs, hMoves, fun _ h => hGroups ▸ h, ReflTransGen.refl⟩

/-- Rows are written first. -/
theorem Stepped.after {mid : HaDb ρ} (h : Stepped mid db' clean)
    (hGroups : mid.groups = db.groups) (hMoves : Moves db.groups db.configs mid.configs) :
    Stepped db db' clean where
  apart := h.apart
  path := by
    obtain ⟨last, hFirst, hChange, hSecond⟩ := h.path
    rw [hGroups] at hFirst hChange
    exact ⟨last, hMoves.trans hFirst, hChange, hSecond⟩

/-- The status is written at the end. -/
theorem stepped_setStatus (hApart : Apart db.groups)
    (hGroup : db.groups.row? gid = some g) (mid : HaDb ρ) (hGroups : mid.groups = db.groups)
    (hMoves : Moves db.groups db.configs mid.configs) (row : GroupRow) :
    Stepped db (mid.setStatus gid g row) clean := by
  have hStatus : Stepped mid (mid.setStatus gid g row) clean :=
    ⟨apart_setStatus (hGroups ▸ hApart) (hGroups ▸ hGroup) row, mid.configs, ReflTransGen.refl,
      fun _ h => linkedIn_setStatus h (hGroups ▸ hGroup) row, ReflTransGen.refl⟩
  exact hStatus.after hGroups hMoves

theorem stepped_maybeReplicateCreate {nodeId : Nat} {row : ConfigRow}
    (hApart : Apart db.groups) (hRow : db.configs.row? p = some row) (hNode : row.nodeId = nodeId)
    (hOwn : row.haPrimaryConfigId = none)
    (h : maybeReplicateCreate db nodeId p env = some db') : Stepped db db' clean := by
  rw [maybeReplicateCreate] at h
  split at h
  · cases h
    exact .of_moves hApart rfl ReflTransGen.refl
  · next gid g hFound =>
    obtain ⟨hGroup, hIs⟩ := firstGroup_some hFound
    have hPrimary : IsPrimary g db.configs p :=
      ⟨row, hRow, hNode.trans (decide_eq_true_eq.mp hIs).symm, hOwn⟩
    split_ifs at h with _ hAuto
    · obtain ⟨configs, hCreate, rfl⟩ := map_eq_some_iff.mp h
      have hMoves : Moves db.groups db.configs configs :=
        moves_handleClientCreate hApart hGroup hAuto (fun _ => mem_of_mem_replicaNodes) hPrimary
          hCreate
      exact stepped_setStatus hApart hGroup { db with configs } rfl hMoves _
    · have hMoves : Moves db.groups db.configs (linkPrimaryConfig gid g db.configs p) :=
        moves_linkPrimaryConfig hGroup
      generalize linkPrimaryConfig gid g db.configs p = configs at h hMoves
      cases h
      exact stepped_setStatus hApart hGroup { db with configs } rfl hMoves _

theorem stepped_createConfig {row : ConfigRow} (hApart : Apart db.groups)
    (h : createConfig db row env = some db') : Stepped db db' clean := by
  rw [createConfig] at h
  split_ifs at h
  obtain ⟨configs, hInsert, hAfter⟩ := map_eq_some_iff.mp h
  have hMoves : Moves db.groups db.configs configs :=
    ReflTransGen.single (move_insert hInsert rfl rfl)
  cases hCreate : maybeReplicateCreate { db with configs } row.nodeId db.configs.nextId env with
  | none =>
    rw [hCreate, getD_none] at hAfter
    obtain rfl := hAfter
    exact .of_moves hApart rfl hMoves
  | some created =>
    rw [hCreate, getD_some] at hAfter
    obtain rfl := hAfter
    have hNew := ConfigTable.row?_insert hInsert db.configs.nextId
    rw [if_pos rfl] at hNew
    have hStep : Stepped { db with configs } created clean :=
      stepped_maybeReplicateCreate hApart hNew rfl rfl hCreate
    exact hStep.after rfl hMoves

theorem stepped_maybeReplicateDelete {nodeId : Nat} (hApart : Apart db.groups)
    (h : maybeReplicateDelete db nodeId p env = some db') : Stepped db db' clean := by
  rw [maybeReplicateDelete] at h
  split at h
  · cases h
    exact .of_moves hApart rfl ReflTransGen.refl
  · next gid g hFound =>
    obtain ⟨hGroup, -⟩ := firstGroup_some hFound
    split_ifs at h
    · obtain ⟨⟨after, result⟩, hHandled, rfl⟩ := map_eq_some_iff.mp h
      rw [handleClientDelete] at hHandled
      split_ifs at hHandled
      obtain ⟨rows, hRows, hPair⟩ := map_eq_some_iff.mp hHandled
      obtain ⟨rfl, rfl⟩ := Prod.mk.injEq .. ▸ hPair
      obtain ⟨-, -, -, hGroups⟩ := frame_cleanShadows env (handledShadows db g p env) db
      exact stepped_setStatus hApart hGroup
        { (handledShadows db g p env).foldl (cleanShadow env) db with configs := rows } hGroups
        (ReflTransGen.single (move_delete hRows)) _
    · cases h
      exact stepped_setStatus hApart hGroup db rfl ReflTransGen.refl _

theorem stepped_deleteConfig {activeNode id : Nat}
    (hApart : Apart db.groups) (h : deleteConfig db activeNode id env now = some db') :
    Stepped db db' clean := by
  rw [deleteConfig] at h
  split at h
  · cases h
  · next row _ =>
    split_ifs at h
    obtain ⟨mid, hReplicate, hFinish⟩ := bind_eq_some_iff.mp h
    have hForgot : Apart (forgetClient db env row).groups := hApart
    have hMid : Stepped (forgetClient db env row) mid clean :=
      stepped_maybeReplicateDelete hForgot hReplicate
    obtain ⟨hMoves, hGroups⟩ := moves_finishDelete mid.groups hFinish
    obtain ⟨last, hFirst, hChange, hSecond⟩ := hMid.path
    exact ⟨hGroups ▸ hMid.apart, last, hFirst, hGroups ▸ hChange, hGroups ▸ hSecond.trans hMoves⟩

theorem mem_serialize {replicaIds : List Nat} :
    m ∈ serializeReplicaNodeIds replicaIds ↔ m ∈ replicaIds := by
  rw [serializeReplicaNodeIds, mem_insertionSort, mem_dedup]

theorem mem_applyGroupFields : m ∈ (applyGroupFields g payload).replicaNodeIds ↔
      m ∈ payload.replicaNodeIds.getD g.replicaNodeIds := by
  simp only [applyGroupFields]
  cases payload.replicaNodeIds with
  | none => exact Iff.rfl
  | some replicaIds => exact mem_serialize

/-- An update that changes no member. -/
theorem membershipKept (h : membershipChanged g payload = false) :
    (applyGroupFields g payload).primaryNodeId = g.primaryNodeId ∧
      ∀ m, m ∈ (applyGroupFields g payload).replicaNodeIds ↔ m ∈ g.replicaNodeIds := by
  simp only [membershipChanged, Bool.or_eq_false_iff, decide_eq_false_iff_not, ne_eq, not_not] at h
  refine ⟨h.1, fun m => ?_⟩
  rw [mem_applyGroupFields, ← mem_serialize, h.2, mem_serialize]

/-- No row keeps a group that is dissolved. -/
theorem untagged_dissolve {id : Nat} {row : ConfigRow}
    (hRow : (dissolveSyncGroup gid g t).row? id = some row) : row.syncGroupId ≠ some gid := by
  rw [row?_dissolve, map_eq_some_iff] at hRow
  obtain ⟨r, -, rfl⟩ := hRow
  unfold detached
  split_ifs with hShadow hTagged
  · exact nofun
  · exact nofun
  · intro hTag
    cases hLink : r.haPrimaryConfigId with
    | some p =>
      rw [groupShadow, hLink, any_some, hTag] at hShadow
      simp at hShadow
    | none =>
      by_cases hNode : r.nodeId = g.primaryNodeId
      · simp [taggedPrimary, hTag, hLink, hNode] at hTagged
      · simp [strayReplica, hTag, hLink, hNode] at hTagged

theorem unlinked_clear {id : Nat} {row : ConfigRow}
    (hRow : (clearShadowLinks gid t).row? id = some row) (hTag : row.syncGroupId = some gid) :
    row.haPrimaryConfigId = none := by
  rw [clearShadowLinks, ConfigTable.row?_relink, map_eq_some_iff] at hRow
  obtain ⟨r, -, rfl⟩ := hRow
  by_cases hOf : r.syncGroupId = some gid
  · rw [if_pos hOf]
  · rw [if_neg hOf] at hTag
    exact absurd hTag hOf

/-- Setting the group that has been dissolved. -/
theorem linkedIn_dissolved {groups' : Table Nat SyncGroup}
    (hOthers : ∀ other, other ≠ gid → groups'.row? other = groups.row? other)
    (h : LinkedIn groups (dissolveSyncGroup gid g t)) :
    LinkedIn groups' (dissolveSyncGroup gid g t) := by
  refine linkedIn_regroup h fun other g' hOther => ?_
  by_cases hIs : other = gid
  · exact .inl fun id row hRow => hIs ▸ untagged_dissolve hRow
  · exact .inr ⟨g', (hOthers other hIs).trans hOther, rfl, fun _ => Iff.rfl, .inl⟩

/-- Groups change, and then the links of a group are made as its mode has them. -/
theorem stepped_linkGroup {mid : HaDb ρ}
    (hMoves : Moves db.groups db.configs mid.configs) (hApart : Apart mid.groups)
    (hGroup : mid.groups.row? gid = some g)
    (hChange : clean → LinkedIn db.groups mid.configs → LinkedIn mid.groups mid.configs) :
    Stepped db (linkGroup mid gid g) clean where
  apart := by
    rw [groups_linkGroup]
    exact hApart
  path := by
    have hLinks := moves_linkGroup hApart hGroup
    refine ⟨mid.configs, hMoves, ?_, ?_⟩
    · rw [groups_linkGroup]
      exact hChange
    · rw [groups_linkGroup]
      exact hLinks

theorem stepped_createSyncGroup {payload : SyncGroupCreate}
    (hApart : Apart db.groups) (h : createSyncGroup db gid payload = some db') :
    Stepped db db' clean := by
  rw [createSyncGroup] at h
  split_ifs at h with hTaken hErrors
  obtain rfl := Option.some.inj h
  have hFree : db.groups.row? gid = none := by simpa using hTaken
  have hValid : validateSyncGroupPayload db payload.primaryNodeId payload.replicaNodeIds none =
      [] := by
    simpa using hErrors
  have hNewApart : Apart (db.groups.set gid (newGroup payload)) :=
    apart_validated (g := newGroup payload) hApart hValid (fun _ => mem_serialize) fun _ => nofun
  refine stepped_linkGroup ReflTransGen.refl hNewApart (Table.row?_set_self _ _ _) ?_
  refine fun _ hLinked => linkedIn_regroup hLinked fun other g' hOther => .inr ?_
  have hNe : other ≠ gid := by
    rintro rfl
    rw [hFree] at hOther
    cases hOther
  exact ⟨g', (Table.row?_set_of_ne _ _ hNe).trans hOther, rfl, fun _ => Iff.rfl, .inl⟩

/-- The members stay: what the change of mode leaves of the links is right under `CleanUpdate`. -/
theorem linkedIn_changeMode (hGroup : db.groups.row? gid = some g)
    (hKept : membershipChanged g payload = false)
    (hRows : t = if leavesAuto g (applyGroupFields g payload) then clearShadowLinks gid db.configs
      else db.configs)
    (hClean : CleanUpdate db gid payload) (h : LinkedIn db.groups t) :
    LinkedIn (db.groups.set gid (applyGroupFields g payload)) t := by
  refine linkedIn_regroup h fun other g' hOther => .inr ?_
  by_cases hIs : other = gid
  · obtain rfl := hIs
    obtain rfl := Option.mem_unique hGroup hOther
    obtain ⟨hPrimary, hReplicas⟩ := membershipKept hKept
    refine ⟨_, Table.row?_set_self _ _ _, hPrimary, hReplicas, fun hAuto => ?_⟩
    cases hLeaves : leavesAuto g (applyGroupFields g payload) with
    | true =>
      rw [hLeaves, if_pos rfl] at hRows
      subst hRows
      exact .inr fun id row hRow hTag => unlinked_clear hRow hTag
    | false =>
      rw [hLeaves, if_neg (by decide)] at hRows
      subst hRows
      rcases hClean g hGroup hAuto hKept with hStays | hManual | hNone
      · exact .inl hStays
      · rw [leavesAuto, hAuto, Bool.true_and, decide_eq_false_iff_not] at hLeaves
        exact absurd hManual hLeaves
      · exact .inr hNone
  · exact ⟨g', (Table.row?_set_of_ne _ _ hIs).trans hOther, rfl, fun _ => Iff.rfl, .inl⟩

theorem stepped_changeMode (hGroup : db.groups.row? gid = some g)
    (hApart : Apart (db.groups.set gid (applyGroupFields g payload)))
    (hKept : membershipChanged g payload = false) :
    Stepped db
      (changeMode { db with groups := db.groups.set gid (applyGroupFields g payload) } gid g
        (applyGroupFields g payload))
      (CleanUpdate db gid payload) := by
  rw [changeMode]
  generalize hRows : (if leavesAuto g (applyGroupFields g payload) then
    clearShadowLinks gid db.configs else db.configs) = configs
  have hMoves : Moves db.groups db.configs configs := by
    rw [← hRows]
    split
    · exact ReflTransGen.single (move_clear gid)
    · exact ReflTransGen.refl
  have hChange := linkedIn_changeMode hGroup hKept hRows.symm
  dsimp only
  split
  · exact stepped_linkGroup hMoves hApart (Table.row?_set_self _ _ _) hChange
  · exact ⟨hApart, configs, hMoves, hChange, ReflTransGen.refl⟩

/-- An update of a group, under `CleanUpdate`. -/
theorem stepped_updateSyncGroup (hApart : Apart db.groups)
    (h : updateSyncGroup db gid payload = some db') :
    Stepped db db' (CleanUpdate db gid payload) := by
  rw [updateSyncGroup] at h
  split at h
  · cases h
  · next g hGroup =>
    dsimp only at h
    split_ifs at h with _ hErrors _ hChanged
    all_goals
      have hValid : validateSyncGroupPayload db (applyGroupFields g payload).primaryNodeId
        (payload.replicaNodeIds.getD g.replicaNodeIds) (some gid) = [] := not_not.mp hErrors
      have hNewApart : Apart (db.groups.set gid (applyGroupFields g payload)) :=
        apart_validated hApart hValid (fun _ => mem_applyGroupFields) fun _ hSome =>
          (Option.some.inj hSome).symm
      obtain rfl := Option.some.inj h
    · refine stepped_linkGroup (ReflTransGen.single (move_dissolve gid g)) hNewApart
        (Table.row?_set_self _ _ _) fun _ hLinked => ?_
      exact linkedIn_dissolved (fun other hNe => Table.row?_set_of_ne _ _ hNe) hLinked
    · exact stepped_changeMode hGroup hNewApart (by simpa using hChanged)

theorem stepped_deleteSyncGroup (hApart : Apart db.groups)
    (h : deleteSyncGroup db gid = some db') : Stepped db db' clean := by
  rw [deleteSyncGroup] at h
  split at h
  · cases h
  · next g hGroup =>
    dsimp only at h
    split_ifs at h
    cases h
    refine ⟨apart_erase hApart gid, _, ReflTransGen.single (move_dissolve gid g), ?_,
      ReflTransGen.refl⟩
    refine fun _ hLinked => linkedIn_dissolved (fun other hNe => ?_) hLinked
    rw [Table.row?_erase, if_neg hNe]

/-- **One operation.** -/
theorem stepped {step : HaStep} (hApart : Apart db.groups) (h : haStep db step = some db') :
    Stepped db db' (CleanHaStep db step) := by
  cases step with
  | createGroup gid payload => exact stepped_createSyncGroup hApart h
  | updateGroup gid payload => exact stepped_updateSyncGroup hApart h
  | deleteGroup gid => exact stepped_deleteSyncGroup hApart h
  | linkGroup gid =>
    obtain ⟨g, hGroup, rfl⟩ := map_eq_some_iff.mp h
    exact stepped_linkGroup ReflTransGen.refl hApart hGroup fun _ hLinked => hLinked
  | createConfig row env => exact stepped_createConfig hApart h
  | deleteConfig activeNode id env now => exact stepped_deleteConfig hApart h
  | replicateDelete nodeId id env => exact stepped_maybeReplicateDelete hApart h
  | importDisk c =>
    obtain ⟨⟨configDb, result⟩, hImport, rfl⟩ := map_eq_some_iff.mp h
    exact .of_moves hApart rfl (moves_importClientsFromDisk hImport)
  | status gid row =>
    obtain ⟨g, hGroup, rfl⟩ := map_eq_some_iff.mp h
    exact stepped_setStatus hApart hGroup db rfl ReflTransGen.refl row
  | node nodeId row =>
    obtain rfl := Option.some.inj h
    exact .of_moves hApart rfl ReflTransGen.refl

/-! ## Runs -/

/-- After a dissolution no row of the group's nodes is linked. -/
theorem unlinked_dissolve (hApart : Apart db.groups) (h : LinkedIn db.groups db.configs)
    (hGroup : db.groups.row? gid = some g) {id : Nat} {row : ConfigRow}
    (hRow : (dissolveSyncGroup gid g db.configs).row? id = some row)
    (hMember : row.nodeId ∈ g.members) :
    row.haPrimaryConfigId = none ∧ row.syncGroupId = none := by
  have hUntagged := untagged_dissolve hRow
  rw [row?_dissolve, map_eq_some_iff] at hRow
  obtain ⟨r, hR, rfl⟩ := hRow
  rw [(detached_entry db.configs gid g r).1] at hMember
  have hOnly : ∀ gid' g', db.groups.row? gid' = some g' → r.nodeId ∈ g'.members → gid' = gid :=
    fun gid' g' hGroup' hMember' =>
      hApart.one gid' g' gid g r.nodeId hGroup' hGroup hMember' hMember
  unfold detached at hUntagged ⊢
  split_ifs at hUntagged ⊢ with hShadow hTagged
  · exact ⟨rfl, rfl⟩
  · simp only [taggedPrimary, strayReplica, Bool.or_eq_true, Bool.and_eq_true,
      isNone_iff_eq_none] at hTagged
    rcases hTagged with hPrimary | hStray
    · exact ⟨hPrimary.1.2, rfl⟩
    · exact ⟨hStray.1.2, rfl⟩
  · refine ⟨?_, ?_⟩
    · cases hLink : r.haPrimaryConfigId with
      | none => rfl
      | some p =>
        obtain ⟨gid', g', hTag, hGroup', hOn⟩ := h.shadow id r p hR hLink
        rw [hOnly gid' g' hGroup' (mem_cons_of_mem _ hOn.replica)] at hTag
        exact absurd hTag hUntagged
    · cases hTag : r.syncGroupId with
      | none => rfl
      | some gid' =>
        obtain ⟨g', hGroup', hMember'⟩ := h.member id r gid' hR hTag
        rw [hOnly gid' g' hGroup' hMember'] at hTag
        exact absurd hTag hUntagged

/-- The invariant says what the claim is about. -/
theorem linksOk_of_linkedIn (hApart : Apart db.groups) (h : LinkedIn db.groups db.configs) :
    LinksOk db where
  shadow := by
    intro id row p hRow hLink
    obtain ⟨gid, g, -, hGroup, hShadow⟩ := h.shadow id row p hRow hLink
    exact ⟨gid, g, hGroup, hShadow⟩
  one := by
    intro id row id' row' p hRow hRow' hLink hLink' hNode
    obtain ⟨-, -, -, -, -, -, primary, hPrimary, -, -, hName, hType⟩ := h.shadow id row p hRow hLink
    obtain ⟨-, -, -, -, -, -, primary', hPrimary', -, -, hName', hType'⟩ :=
      h.shadow id' row' p hRow' hLink'
    obtain rfl := Option.mem_unique hPrimary hPrimary'
    have hSame : row.sameEntry row' = true :=
      ConfigRow.sameEntry_iff.mpr ⟨hNode, hName.symm.trans hName', hType.symm.trans hType'⟩
    exact db.configs.unique id row id' row' hRow hRow' hSame
  member := h.member
  dissolve := fun _ _ hGroup =>
    ⟨kept_relink, fun _ _ hRow hMember => unlinked_dissolve hApart h hGroup hRow hMember⟩

theorem Unlinked.apart (h : Unlinked db) : Apart db.groups where
  one := fun gid g _ _ _ hGroup => by rw [h.groups] at hGroup; cases hGroup
  primary := fun gid g hGroup => by rw [h.groups] at hGroup; cases hGroup

theorem Unlinked.linkedIn (h : Unlinked db) : LinkedIn db.groups db.configs where
  shadow := fun id row p hRow hLink => by rw [(h.rows id row hRow).1] at hLink; cases hLink
  member := fun id row gid hRow hTag => by rw [(h.rows id row hRow).2] at hTag; cases hTag

/-- What clean runs keep. -/
structure Sound (db : HaDb ρ) : Prop where
  apart : Apart db.groups
  linked : LinkedIn db.groups db.configs

/-- What all runs keep. -/
structure Named (db : HaDb ρ) : Prop where
  apart : Apart db.groups
  alike : NamedAlike db.configs

/-- **One operation** under the condition keeps the links sound. -/
theorem sound_step (s : HaDb ρ) (step : HaStep) (s' : HaDb ρ) (h : Sound s)
    (hClean : CleanHaStep s step) (hStep : haStep s step = some s') : Sound s' := by
  obtain ⟨hApart, mid, hFirst, hChange, hSecond⟩ := stepped h.apart hStep
  have hMid := linkedIn_moves h.apart h.linked hFirst
  exact ⟨hApart, linkedIn_moves hApart (hChange hClean hMid) hSecond⟩

/-- **One operation** keeps shadows named as their primaries. -/
theorem named_step (s : HaDb ρ) (step : HaStep) (s' : HaDb ρ) (h : Named s)
    (hStep : haStep s step = some s') : Named s' := by
  obtain ⟨hApart, mid, hFirst, -, hSecond⟩ := stepped h.apart hStep
  exact ⟨hApart, namedAlike_moves (namedAlike_moves h.alike hFirst) hSecond⟩

/-- **Links are right in every state of a run that leaves automatic mode by its name only.** -/
theorem links_ok (db : HaDb ρ) (steps : List HaStep) (t : HaDb ρ) (hStart : Unlinked db)
    (hClean : Along haStep CleanHaStep db steps) (hRun : exec haStep db steps = some t) :
    LinksOk t := by
  have hSound : Sound t :=
    Lib.invariant_exec sound_step ⟨hStart.apart, hStart.linkedIn⟩ hClean hRun
  exact linksOk_of_linkedIn hSound.apart hSound.linked

/-- **In every run** the nodes of the groups stay apart, and a shadow has the name and the protocol
of its primary row. -/
theorem namedAlike_run {steps : List HaStep} {db t : HaDb ρ} (hStart : Unlinked db)
    (hRun : exec haStep db steps = some t) : Named t := by
  have hNamed : NamedAlike db.configs := by
    intro id row p _ hRow hLink
    rw [(hStart.rows id row hRow).1] at hLink
    cases hLink
  exact Lib.invariant_of_exec named_step ⟨hStart.apart, hNamed⟩ hRun

end

/-! ## Another mode -/

/-- Two nodes and Olga on the first. -/
def twoNodes : HaDb Bool where
  configs := (ConfigTable.empty.insert
    { nodeId := 1, clientName := olga, vpnType := .wireguard, haPrimaryConfigId := none,
      ownerId := 1 }).get (by decide)
  policies := Table.empty
  links := []
  nodes := (Table.empty.set 1 ⟨"first", true, ""⟩).set 2 ⟨"second", true, ""⟩
  groups := Table.empty
  banned := fun _ => []

def autoPair : SyncGroupCreate :=
  { name := "pair", primaryNodeId := 1, replicaNodeIds := [2], syncMode := "auto" }

theorem twoNodes_unlinked : Unlinked twoNodes where
  rows := by
    have hAll : ∀ id ∈ twoNodes.configs.rows.keys, ∀ row ∈ twoNodes.configs.row? id,
        row.haPrimaryConfigId = none ∧ row.syncGroupId = none := by decide
    exact fun id row hRow => hAll id (Table.mem_keys_of_row? hRow) row hRow
  groups := fun _ => rfl

/-- The group is formed, turned to manual mode and back, and the client is deleted. -/
theorem links_ok_pair : ∃ t, exec haStep twoNodes
      [.createGroup 7 autoPair, .updateGroup 7 { syncMode := some "manual_full" },
        .updateGroup 7 { syncMode := some "auto" }, .deleteConfig 1 1 {} 0] = some t ∧
      LinksOk t := by
  have hRuns : (exec haStep twoNodes
      [.createGroup 7 autoPair, .updateGroup 7 { syncMode := some "manual_full" },
        .updateGroup 7 { syncMode := some "auto" }, .deleteConfig 1 1 {} 0]).isSome = true := by
    decide
  obtain ⟨t, hRun⟩ := isSome_iff_exists.mp hRuns
  refine ⟨t, hRun, links_ok _ _ t twoNodes_unlinked ?_ hRun⟩
  refine ⟨trivial, fun _ _ => ⟨?_, fun _ _ => ⟨?_, fun _ _ => ⟨trivial, fun _ _ => trivial⟩⟩⟩⟩
  · exact fun g _ _ _ => .inr (.inl (by decide : normalizedMode "manual_full" = _))
  · exact fun g _ _ _ => .inl (by decide : decide (normalizedMode "auto" = "auto") = true)

theorem namedAlike_run_pair : ∃ t, exec haStep twoNodes
    [.createGroup 7 autoPair, .updateGroup 7 { syncMode := some "manual" }] = some t ∧
      Named t := by
  have hRuns : (exec haStep twoNodes
      [.createGroup 7 autoPair, .updateGroup 7 { syncMode := some "manual" }]).isSome := by decide
  obtain ⟨t, hRun⟩ := isSome_iff_exists.mp hRuns
  exact ⟨t, hRun, namedAlike_run twoNodes_unlinked hRun⟩

/-- **A group that goes to another mode keeps its links**: the shadow refers to a row of a group
that is not automatic any more. -/
theorem other_mode_keeps_links : Unlinked twoNodes ∧ ∃ t, exec haStep twoNodes
      [.createGroup 7 autoPair, .updateGroup 7 { syncMode := some "manual" }] = some t ∧
    (t.configs.row? 2).map (·.haPrimaryConfigId) = some (some 1) ∧
    (t.groups.row? 7).map (·.syncMode) = some "manual" ∧ ¬ LinksOk t := by
  have hRun : (exec haStep twoNodes
      [.createGroup 7 autoPair, .updateGroup 7 { syncMode := some "manual" }]).map (fun t =>
        ((t.configs.row? 2).map (·.haPrimaryConfigId), t.groups.keys,
          (t.groups.row? 7).map (·.syncMode))) = some (some (some 1), [7], some "manual") := by
    decide
  obtain ⟨t, hDone, hFacts⟩ := map_eq_some_iff.mp hRun
  simp only [Prod.mk.injEq] at hFacts
  obtain ⟨hLink, hKeys, hMode⟩ := hFacts
  refine ⟨twoNodes_unlinked, t, hDone, hLink, hMode, fun hOk => ?_⟩
  obtain ⟨row, hRow, hTo⟩ := map_eq_some_iff.mp hLink
  obtain ⟨gid, g, hGroup, hShadow⟩ := hOk.shadow 2 row 1 hRow hTo
  have hIs : gid = 7 := by
    have hMem := Table.mem_keys_of_row? hGroup
    rw [hKeys] at hMem
    exact mem_singleton.mp hMem
  rw [hIs] at hGroup
  rw [hGroup, map_some, Option.some.injEq] at hMode
  have hAuto := hShadow.auto
  rw [isAutoSyncEnabled, hMode] at hAuto
  exact absurd hAuto (by decide)

end AdminPanel.Panel.Ha
