import AdminPanel.Panel.ClientDeletion

/-!
# The table of VPN configs

`vpn_configs` with its unique constraint and its foreign key to itself, the portal links, and what
goes with a config that is deleted.

* `ConfigTable` — the rows; a deletion that leaves a reference open is refused;
* `ConfigTable.insert`, `ConfigTable.delete` — with `row?_insert`, `row?_delete`;
* `purgeHaShadowConfigs`, `cleanupDeletedClientRecords` — the shadows, links and policies of a
  config.
-/

namespace AdminPanel.Panel

open Option

open Lib (Table)
open Access (Time)

/-! ## Rows -/

structure ConfigRow extends ClientConfig where
  ownerId : Nat
  certExpireDays : Option Int := none
  certExpiresAt : Option Time := none
  expiresAt : Option Time := none
  description : Option String := none
  syncGroupId : Option Nat := none
  deriving DecidableEq

/-- A row of `client_portal_tokens`. -/
structure ClientPortalToken where
  token : String
  nodeId : Nat
  clientName : String
  createdByUserId : Option Nat := none
  revokedAt : Option Time := none
  deriving DecidableEq, Repr

def ConfigRow.sameEntry (a b : ConfigRow) : Bool := a.toClientConfig.sameEntry b.toClientConfig

theorem ConfigRow.sameEntry_iff {a b : ConfigRow} : a.sameEntry b = true ↔
    a.nodeId = b.nodeId ∧ a.clientName = b.clientName ∧ a.vpnType = b.vpnType := by
  simp only [ConfigRow.sameEntry, ClientConfig.sameEntry, Bool.and_eq_true, decide_eq_true_eq,
    and_assoc]

/-- `UNIQUE (node_id, client_name, vpn_type)`, and `ha_primary_config_id` is the id of a row. -/
structure ConfigTable where
  rows : Table Nat ConfigRow
  unique : ∀ id row id' row', rows.row? id = some row → rows.row? id' = some row' →
    row.sameEntry row' = true → id = id'
  refs : ∀ id row p, rows.row? id = some row → row.haPrimaryConfigId = some p →
    (rows.row? p).isSome = true

variable {p : ConfigRow → Bool} {gone : Nat → ConfigRow → Bool}

namespace ConfigTable

variable {t t' : ConfigTable} {id : Nat} {row : ConfigRow}

def row? (t : ConfigTable) (id : Nat) : Option ConfigRow := t.rows.row? id

def empty : ConfigTable where
  rows := Table.empty
  unique := fun _ _ _ _ hRow => by cases hRow
  refs := fun _ _ _ hRow => by cases hRow

/-- The rows with `p`, by their ids. -/
def ids (t : ConfigTable) (p : ConfigRow → Bool) : List Nat :=
  t.rows.keys.filter fun id => (t.row? id).any p

theorem mem_ids : id ∈ t.ids p ↔ ∃ row, t.row? id = some row ∧ p row = true := by
  rw [ids, List.mem_filter, Option.any_eq_true]
  constructor
  · rintro ⟨-, row, hRow, hP⟩
    exact ⟨row, hRow, hP⟩
  · rintro ⟨row, hRow, hP⟩
    exact ⟨Table.mem_keys_of_row? hRow, row, hRow, hP⟩

/-! ## Inserting -/

def nextId (t : ConfigTable) : Nat := t.rows.keys.foldr max 0 + 1

theorem lt_nextId (h : t.row? id = some row) : id < t.nextId := by
  have hLe : ∀ keys : List Nat, id ∈ keys → id ≤ keys.foldr max 0 := by
    intro keys
    induction keys with
    | nil => exact fun hMem => absurd hMem List.not_mem_nil
    | cons k keys ih =>
      intro hMem
      rw [List.foldr_cons]
      rcases List.mem_cons.mp hMem with rfl | hRest
      · exact Nat.le_max_left _ _
      · exact (ih hRest).trans (Nat.le_max_right _ _)
  have hBound := hLe t.rows.keys (Table.mem_keys_of_row? h)
  rw [nextId]
  omega

theorem row?_nextId (t : ConfigTable) : t.row? t.nextId = none := by
  cases h : t.row? t.nextId with
  | none => rfl
  | some row => exact absurd (lt_nextId h) (Nat.lt_irrefl _)

/-- Some row but `id` has `p`. -/
def anyOther (t : ConfigTable) (id : Nat) (p : ConfigRow → Bool) : Bool :=
  (t.ids p).any (· ≠ id)

theorem anyOther_iff : t.anyOther id p = true ↔
    ∃ other row, other ≠ id ∧ t.row? other = some row ∧ p row = true := by
  simp only [anyOther, List.any_eq_true, mem_ids, decide_eq_true_eq]
  constructor
  · rintro ⟨other, ⟨row, hRow, hP⟩, hNe⟩
    exact ⟨other, row, hNe, hRow, hP⟩
  · rintro ⟨other, row, hNe, hRow, hP⟩
    exact ⟨other, ⟨row, hRow, hP⟩, hNe⟩

/-- What the row refers to is there. -/
def refers (t : ConfigTable) (row : ConfigRow) : Bool :=
  row.haPrimaryConfigId.all fun p => (t.row? p).isSome

/-- `INSERT`; a violated constraint raises. -/
def insert (t : ConfigTable) (row : ConfigRow) : Option ConfigTable :=
  if h : (t.ids row.sameEntry) = [] ∧ t.refers row = true then
    some
      { rows := t.rows.set t.nextId row
        unique := by
          have hFree : ∀ other r, t.row? other = some r → row.sameEntry r = false := by
            intro other r hRow
            by_contra hSame
            have hMem : other ∈ t.ids row.sameEntry := mem_ids.mpr ⟨r, hRow, by simpa using hSame⟩
            rw [h.1] at hMem
            cases hMem
          have hSymm : ∀ a b : ConfigRow, a.sameEntry b = b.sameEntry a := by
            intro a b
            rw [Bool.eq_iff_iff, ConfigRow.sameEntry_iff, ConfigRow.sameEntry_iff]
            tauto
          intro a ra b rb hA hB hSame
          rw [Table.row?_set] at hA hB
          split_ifs at hA hB with hANew hBNew hBNew
          · rw [hANew, hBNew]
          · cases hA
            rw [hFree b rb hB] at hSame
            cases hSame
          · cases hB
            rw [hSymm, hFree a ra hA] at hSame
            cases hSame
          · exact t.unique a ra b rb hA hB hSame
        refs := by
          have hStays : ∀ p, (t.row? p).isSome = true →
              ((t.rows.set t.nextId row).row? p).isSome = true := by
            intro p hSome
            rw [Table.row?_set]
            split_ifs
            · rfl
            · exact hSome
          intro a ra p hA hP
          rw [Table.row?_set] at hA
          refine hStays p ?_
          split_ifs at hA with hANew
          · cases hA
            have hRefers := h.2
            rwa [refers, hP] at hRefers
          · exact t.refs a ra p hA hP }
  else none

theorem row?_insert (h : t.insert row = some t') (id : Nat) :
    t'.row? id = if id = t.nextId then some row else t.row? id := by
  rw [insert] at h
  split_ifs at h
  cases h
  exact Table.row?_set _ _ _ _

theorem insert_isSome (hFree : ∀ id r, t.row? id = some r → row.sameEntry r = false)
    (hRefers : t.refers row = true) : (t.insert row).isSome = true := by
  have hNil : t.ids row.sameEntry = [] := by
    rw [List.eq_nil_iff_forall_not_mem]
    intro id hMem
    obtain ⟨r, hRow, hSame⟩ := mem_ids.mp hMem
    rw [hFree id r hRow] at hSame
    cases hSame
  rw [insert, dif_pos ⟨hNil, hRefers⟩]
  rfl

/-! ## Updating -/

/-- Rewrite columns that no constraint is about. -/
def update (t : ConfigTable) (f : Nat → ConfigRow → ConfigRow)
    (hKept : ∀ id row, (f id row).toClientConfig = row.toClientConfig) : ConfigTable where
  rows := t.rows.mapRows f
  unique := by
    intro a ra b rb hA hB hSame
    rw [Table.row?_mapRows, map_eq_some_iff] at hA hB
    obtain ⟨oldA, hOldA, rfl⟩ := hA
    obtain ⟨oldB, hOldB, rfl⟩ := hB
    refine t.unique a oldA b oldB hOldA hOldB ?_
    rwa [ConfigRow.sameEntry, hKept, hKept] at hSame
  refs := by
    intro a ra p hA hP
    rw [Table.row?_mapRows, map_eq_some_iff] at hA
    obtain ⟨oldA, hOldA, rfl⟩ := hA
    rw [Table.row?_mapRows, isSome_map]
    exact t.refs a oldA p hOldA (by rw [← hKept a oldA]; exact hP)

@[simp] theorem row?_update (t : ConfigTable) (f : Nat → ConfigRow → ConfigRow)
    (hKept : ∀ id row, (f id row).toClientConfig = row.toClientConfig) (id : Nat) :
    (t.update f hKept).row? id = (t.row? id).map (f id) := rfl

/-- Rewrite the link columns; a new reference is to a row that is there. -/
def relink (t : ConfigTable) (f : Nat → ConfigRow → ConfigRow)
    (hEntry : ∀ id row, (f id row).nodeId = row.nodeId ∧ (f id row).clientName = row.clientName ∧
      (f id row).vpnType = row.vpnType)
    (hRefs : ∀ id row p, (f id row).haPrimaryConfigId = some p →
      row.haPrimaryConfigId = some p ∨ (t.row? p).isSome = true) : ConfigTable where
  rows := t.rows.mapRows f
  unique := by
    intro a ra b rb hA hB hSame
    rw [Table.row?_mapRows, map_eq_some_iff] at hA hB
    obtain ⟨oldA, hOldA, rfl⟩ := hA
    obtain ⟨oldB, hOldB, rfl⟩ := hB
    obtain ⟨hNode, hName, hType⟩ := ConfigRow.sameEntry_iff.mp hSame
    refine t.unique a oldA b oldB hOldA hOldB (ConfigRow.sameEntry_iff.mpr ⟨?_, ?_, ?_⟩)
    · rw [← (hEntry a oldA).1, hNode, (hEntry b oldB).1]
    · rw [← (hEntry a oldA).2.1, hName, (hEntry b oldB).2.1]
    · rw [← (hEntry a oldA).2.2, hType, (hEntry b oldB).2.2]
  refs := by
    intro a ra p hA hP
    rw [Table.row?_mapRows, map_eq_some_iff] at hA
    obtain ⟨oldA, hOldA, rfl⟩ := hA
    rw [Table.row?_mapRows, isSome_map]
    rcases hRefs a oldA p hP with hOld | hNew
    · exact t.refs a oldA p hOldA hOld
    · exact hNew

theorem row?_relink {f : Nat → ConfigRow → ConfigRow}
    {hEntry : ∀ id row, (f id row).nodeId = row.nodeId ∧ (f id row).clientName = row.clientName ∧
      (f id row).vpnType = row.vpnType}
    {hRefs : ∀ id row p, (f id row).haPrimaryConfigId = some p →
      row.haPrimaryConfigId = some p ∨ (t.row? p).isSome = true} (id : Nat) :
    (t.relink f hEntry hRefs).row? id = (t.row? id).map (f id) := rfl

/-! ## Deleting -/

/-- No row that stays refers to one that goes. -/
def closedUnder (t : ConfigTable) (gone : Nat → ConfigRow → Bool) : Bool :=
  t.rows.keys.all fun id => (t.row? id).all fun row =>
    gone id row || row.haPrimaryConfigId.all fun p => (t.row? p).all fun primary => !gone p primary

theorem closedUnder_iff : t.closedUnder gone = true ↔
    ∀ id row p primary, t.row? id = some row → row.haPrimaryConfigId = some p →
      t.row? p = some primary → gone p primary = true → gone id row = true := by
  simp only [closedUnder, List.all_eq_true]
  constructor
  · intro h id row p primary hRow hP hPrimary hGone
    have hAll := h id (Table.mem_keys_of_row? hRow)
    simp only [hRow, hP, hPrimary, all_some, hGone, Bool.not_true, Bool.or_false] at hAll
    exact hAll
  · intro h id _
    cases hRow : t.row? id with
    | none => rfl
    | some row =>
      rw [all_some, Bool.or_eq_true]
      cases hGone : gone id row with
      | true => exact Or.inl rfl
      | false =>
        refine Or.inr ?_
        cases hP : row.haPrimaryConfigId with
        | none => rfl
        | some p =>
          rw [all_some]
          cases hPrimary : t.row? p with
          | none => rfl
          | some primary =>
            rw [all_some]
            cases hGoneP : gone p primary with
            | false => rfl
            | true =>
              rw [h id row p primary hRow hP hPrimary hGoneP] at hGone
              cases hGone

/-- `DELETE`; a row that still refers to one of the deleted raises. -/
def delete (t : ConfigTable) (gone : Nat → ConfigRow → Bool) : Option ConfigTable :=
  if h : t.closedUnder gone = true then
    some
      { rows := t.rows.filter fun id row => !gone id row
        unique := by
          intro a ra b rb hA hB hSame
          rw [Table.row?_filter, filter_eq_some_iff] at hA hB
          exact t.unique a ra b rb hA.1 hB.1 hSame
        refs := by
          intro a ra p hA hP
          rw [Table.row?_filter, filter_eq_some_iff] at hA
          obtain ⟨primary, hPrimary⟩ := isSome_iff_exists.mp (t.refs a ra p hA.1 hP)
          rw [Table.row?_filter, hPrimary, filter_some_pos]
          · rfl
          · rw [Bool.not_eq_true']
            by_contra hGone
            have hBoth :=
              closedUnder_iff.mp h a ra p primary hA.1 hP hPrimary (by simpa using hGone)
            rw [hBoth] at hA
            cases hA.2 }
  else none

theorem row?_delete (h : t.delete gone = some t') (id : Nat) :
    t'.row? id = (t.row? id).filter fun row => !gone id row := by
  rw [delete] at h
  split_ifs at h
  cases h
  rfl

theorem delete_isSome : (t.delete gone).isSome = true ↔ t.closedUnder gone = true := by
  rw [delete]
  split_ifs with h
  · exact iff_of_true rfl h
  · exact iff_of_false Bool.false_ne_true h

end ConfigTable

/-! ## The records of a config -/

structure ConfigDb (ρ : Type) where
  configs : ConfigTable
  policies : Table AccessKey ρ
  links : List ClientPortalToken

section

variable {ρ : Type}

/-- What the deletion of policies works on. -/
def ConfigDb.clients (db : ConfigDb ρ) : ClientDb ρ :=
  ⟨db.configs.rows.map ConfigRow.toClientConfig, db.policies⟩

def purgeHaShadowConfigs (t : ConfigTable) (primaryConfigId : Nat) : Option ConfigTable :=
  t.delete fun _ row => row.haPrimaryConfigId = some primaryConfigId

/-- An active link of the client. -/
def ClientPortalToken.activeOf (nodeId : Nat) (clientName : String) (link : ClientPortalToken) :
    Bool :=
  link.nodeId = nodeId && link.clientName = clientName && link.revokedAt.isNone

def revokeClientPortalLinks (links : List ClientPortalToken) (nodeId : Nat) (clientName : String)
    (now : Time) : List ClientPortalToken :=
  links.map fun link => if link.activeOf nodeId clientName then { link with revokedAt := some now }
    else link

/-- `remaining` -/
def portalClientRemains (t : ConfigTable) (id : Nat) (row : ConfigRow) : Bool :=
  t.anyOther id fun other => other.nodeId = row.nodeId && other.clientName = row.clientName &&
    other.haPrimaryConfigId.isNone

def cleanupDeletedClientRecords (db : ConfigDb ρ) (id : Nat) (row : ConfigRow) (now : Time) :
    ConfigDb ρ where
  configs := db.configs
  policies := (deleteClientAccessPolicies db.clients id row.toClientConfig).1.policies
  links := if portalClientRemains db.configs id row then db.links
    else revokeClientPortalLinks db.links row.nodeId row.clientName.text now

end

end AdminPanel.Panel
