import AdminPanel.Panel.ConfigTable
import Mathlib.Data.List.Dedup

/-!
# Synchronising from disk

`import_clients_from_disk` adds a row for every client that the node lists and had none, then
removes the rows of the node that are not on disk. Presence is told by elimination: what is
neither OpenVPN nor AmneziaWG 2 is looked up among the WireGuard clients.

* `importClientsFromDisk` — the function; `stale` — the rows it removes;
* `Synced` — what a synchronisation must do;
* `CleanSync` — the condition on the table and the lists;
* `synced_iff` — a synchronisation does what it must exactly under the condition;
* `awg3_client_removed` — an AmneziaWG 3 client is removed with the policy of a WireGuard client.

The session writes the new rows at its first flush. Nothing that is read before depends on them,
so they are inserted first here, under ids above all others.
-/

namespace AdminPanel.Panel

open Option List

open Lib (Table exec)
open Access (Time)

/-! ## Importing -/

/-- One call: what the node answers, and the clock. -/
structure DiskImport where
  nodeId : Nat
  ownerId : Nat
  openvpn : List ClientName
  wireguard : List ClientName
  /-- `none` if the node has not answered. -/
  amneziawg2 : Option (List ClientName)
  /-- `notAfter` of a certificate and the days that are left. -/
  certificate : ClientName → Option (Time × Int) := fun _ => none
  now : Time

/-- `exists` is a row: an expiry that is not known is filled in, a new date is taken over. -/
def ConfigRow.refreshCertificate (row : ConfigRow) (cert : Option (Time × Int)) : ConfigRow :=
  { row with
    certExpireDays := row.certExpireDays.or (cert.map (·.2))
    certExpiresAt := (cert.map (·.1)).or row.certExpiresAt }

def ConfigTable.refreshCertificate (t : ConfigTable) (id : Nat) (cert : Option (Time × Int)) :
    ConfigTable :=
  t.update (fun other row => if other = id then row.refreshCertificate cert else row)
    fun other row => by split <;> rfl

/-- Only OpenVPN has certificates. -/
def DiskImport.certificateOf (c : DiskImport) (vpnType : VpnType) (clientName : ClientName) :
    Option (Time × Int) :=
  if vpnType = .openvpn then c.certificate clientName else none

def importedRow (c : DiskImport) (vpnType : VpnType) (cert : Option (Time × Int))
    (clientName : ClientName) : ConfigRow where
  nodeId := c.nodeId
  clientName := clientName
  vpnType := vpnType
  haPrimaryConfigId := none
  ownerId := c.ownerId
  certExpireDays := cert.map (·.2)
  certExpiresAt := cert.map (·.1)

/-- One listed client, with the number of rows added so far. -/
def importClient (c : DiskImport) (vpnType : VpnType) (found : ConfigTable × Nat)
    (clientName : ClientName) : Option (ConfigTable × Nat) :=
  let (t, imported) := found
  let cert := c.certificateOf vpnType clientName
  match t.ids (importedRow c vpnType cert clientName).sameEntry with
  | [] => (t.insert (importedRow c vpnType cert clientName)).map (·, imported + 1)
  | id :: _ => some (t.refreshCertificate id cert, imported)

def importClients (c : DiskImport) (vpnType : VpnType) (names : List ClientName)
    (found : ConfigTable × Nat) : Option (ConfigTable × Nat) :=
  names.dedup.foldlM (importClient c vpnType) found

def importAll (c : DiskImport) (t : ConfigTable) : Option (ConfigTable × Nat) := do
  let found ← importClients c .openvpn c.openvpn (t, 0)
  let found ← importClients c .wireguard c.wireguard found
  importClients c .amneziawg2 (c.amneziawg2.getD []) found

/-! ## Removing -/

def isOnDisk (clientName : ClientName) (vpnType : VpnType)
    (ovpnOnDisk wgOnDisk awg2OnDisk : List ClientName) : Bool :=
  if vpnType = .openvpn then clientName ∈ ovpnOnDisk
  else if vpnType = .amneziawg2 then clientName ∈ awg2OnDisk
  else clientName ∈ wgOnDisk

/-- The row is one that `_remove_stale_configs` removes. -/
def DiskImport.stale (c : DiskImport) (row : ConfigRow) : Bool :=
  row.nodeId = c.nodeId && !(c.amneziawg2.isNone && row.vpnType = .amneziawg2) &&
    !isOnDisk row.clientName row.vpnType c.openvpn c.wireguard (c.amneziawg2.getD [])

section

variable {ρ : Type}

/-- Only a primary row has shadows to purge. -/
def purgeShadowsOf (t : ConfigTable) (id : Nat) (row : ConfigRow) : Option ConfigTable :=
  if row.haPrimaryConfigId = none then purgeHaShadowConfigs t id else some t

/-- One turn of the loop, for a row as the query gave it. -/
def removeConfig (queried : ConfigTable) (now : Time) (db : ConfigDb ρ) (id : Nat) :
    Option (ConfigDb ρ) := do
  let row ← queried.row? id
  let purged ← purgeShadowsOf db.configs id row
  let configs ← purged.delete fun other _ => other = id
  return cleanupDeletedClientRecords { db with configs } id row now

structure ConfigDiskSyncResult where
  imported : Nat
  removed : Nat
  awg2Skipped : Bool
  deriving DecidableEq, Repr

/-- `import_clients_from_disk`; `none` if a constraint raises, and nothing is committed. -/
def importClientsFromDisk (c : DiskImport) (db : ConfigDb ρ) :
    Option (ConfigDb ρ × ConfigDiskSyncResult) := do
  let (configs, imported) ← importAll c db.configs
  let ids := db.configs.ids c.stale
  let db' ← exec (removeConfig db.configs c.now) { db with configs } ids
  return (db', ⟨imported, ids.length, c.amneziawg2.isNone⟩)

end

/-! ## What a synchronisation must do -/

/-- The clients of a protocol that the node has listed. -/
def DiskImport.listed (c : DiskImport) : VpnType → Option (List ClientName)
  | .openvpn => some c.openvpn
  | .wireguard => some c.wireguard
  | .amneziawg2 => c.amneziawg2
  | .amneziawg3 => none

/-- The client's own protocol was listed, without it. -/
def DiskImport.leaves (c : DiskImport) (row : ConfigRow) : Prop :=
  ∃ names, c.listed row.vpnType = some names ∧ row.clientName ∉ names

def ConfigTable.has (t : ConfigTable) (nodeId : Nat) (clientName : ClientName)
    (vpnType : VpnType) : Prop :=
  ∃ id row, t.row? id = some row ∧ row.nodeId = nodeId ∧ row.clientName = clientName ∧
    row.vpnType = vpnType

/-- The client is still on the node: listed, or with a row and its protocol not listed. -/
def DiskImport.onNode (c : DiskImport) (t : ConfigTable) (clientName : ClientName)
    (vpnType : VpnType) : Prop :=
  match c.listed vpnType with
  | some names => clientName ∈ names
  | none => t.has c.nodeId clientName vpnType

/-- The client has no row on the node, or a primary one: its portal is on this node. -/
def ConfigTable.portalHere (t : ConfigTable) (nodeId : Nat) (clientName : ClientName)
    (vpnType : VpnType) : Prop :=
  ∀ id row, t.row? id = some row → row.nodeId = nodeId → row.clientName = clientName →
    row.vpnType = vpnType → row.haPrimaryConfigId = none

def linksOf (links : List ClientPortalToken) (nodeId : Nat) (clientName : String) :
    List ClientPortalToken :=
  links.filter fun link => link.nodeId = nodeId && link.clientName = clientName

/-- The rows match the node, and nothing else is harmed. -/
structure Synced {ρ : Type} (c : DiskImport) (db db' : ConfigDb ρ) : Prop where
  added : ∀ vpnType names clientName, c.listed vpnType = some names → clientName ∈ names →
    db'.configs.has c.nodeId clientName vpnType
  removed : ∀ id row, db.configs.row? id = some row → row.nodeId = c.nodeId →
    (db'.configs.row? id = none ↔ c.leaves row)
  kept : ∀ id row row', db.configs.row? id = some row → db'.configs.row? id = some row' →
    row'.toClientConfig = row.toClientConfig ∧ row'.ownerId = row.ownerId ∧
      row'.description = row.description
  /-- A new row is one of a listed client that had none. -/
  new : ∀ id row', db'.configs.row? id = some row' → db.configs.row? id = none →
    row'.nodeId = c.nodeId ∧ (∃ names, c.listed row'.vpnType = some names ∧
      row'.clientName ∈ names) ∧ ¬ db.configs.has c.nodeId row'.clientName row'.vpnType
  policies : ∀ clientName vpnType, c.onNode db.configs clientName vpnType →
    db'.policies.row? ⟨vpnType, c.nodeId, accessName vpnType clientName.text⟩ =
      db.policies.row? ⟨vpnType, c.nodeId, accessName vpnType clientName.text⟩
  /-- The portal has the client of a shadow on the node of its primary. -/
  links : ∀ clientName vpnType, c.onNode db.configs clientName vpnType →
    db.configs.portalHere c.nodeId clientName vpnType →
    linksOf db'.links c.nodeId clientName.text = linksOf db.links c.nodeId clientName.text
  otherRows : ∀ id row, db.configs.row? id = some row → row.nodeId ≠ c.nodeId →
    db'.configs.row? id = none → ∃ p primary, row.haPrimaryConfigId = some p ∧
      db.configs.row? p = some primary ∧ primary.nodeId = c.nodeId ∧
      db'.configs.row? p = none
  otherPolicies : ∀ key, key.nodeId ≠ c.nodeId → db'.policies.row? key = db.policies.row? key
  otherLinks : ∀ nodeId clientName, nodeId ≠ c.nodeId →
    linksOf db'.links nodeId clientName = linksOf db.links nodeId clientName

/-! ## The condition -/

/-- The rows that are gone once the loop has done with some: these, and the shadows of those of
them that are primary. -/
def removedBy (t : ConfigTable) (done : List Nat) (id : Nat) (row : ConfigRow) : Bool :=
  id ∈ done || row.haPrimaryConfigId.any fun p =>
    p ∈ done && (t.row? p).any (·.haPrimaryConfigId.isNone)

structure CleanSync (c : DiskImport) (t : ConfigTable) : Prop where
  /-- Every AmneziaWG 3 client of the node has the name of a WireGuard client on it. -/
  awg3 : ∀ id row, t.row? id = some row → row.nodeId = c.nodeId → row.vpnType = .amneziawg3 →
    row.clientName ∈ c.wireguard
  /-- A row of the node that is the shadow of one that goes is not on disk itself. -/
  shadows : ∀ id row p primary, t.row? id = some row → row.nodeId = c.nodeId →
    row.haPrimaryConfigId = some p → t.row? p = some primary →
    primary.haPrimaryConfigId = none → c.stale primary = true → c.stale row = true
  /-- When a row goes, no row that stays refers to it or to a shadow that goes with it. -/
  refs : ∀ before id after, t.ids c.stale = before ++ id :: after →
    t.closedUnder (removedBy t (before ++ [id])) = true

/-! ## What importing does to the table -/

variable {nodeId id : Nat} {row : ConfigRow}

section

variable {c : DiskImport} {t t' u : ConfigTable} {vpnType : VpnType} {names : List ClientName}
  {clientName : ClientName} {found found' : ConfigTable × Nat}

/-- The columns that an import leaves. -/
structure ConfigRow.SameClient (row row' : ConfigRow) : Prop where
  config : row'.toClientConfig = row.toClientConfig
  owner : row'.ownerId = row.ownerId
  description : row'.description = row.description

theorem ConfigRow.SameClient.refl (row : ConfigRow) : row.SameClient row := ⟨rfl, rfl, rfl⟩

theorem ConfigRow.SameClient.trans {a b d : ConfigRow} (h : a.SameClient b) (h' : b.SameClient d) :
    a.SameClient d :=
  ⟨h'.config.trans h.config, h'.owner.trans h.owner, h'.description.trans h.description⟩

/-- The rows stay, and new ones are of listed clients that had none. -/
structure Grown (c : DiskImport) (t t' : ConfigTable) : Prop where
  old : ∀ id row, t.row? id = some row → ∃ row', t'.row? id = some row' ∧ row.SameClient row'
  new : ∀ id row', t'.row? id = some row' → t.row? id = none → row'.nodeId = c.nodeId ∧
    row'.haPrimaryConfigId = none ∧ (∃ names, c.listed row'.vpnType = some names ∧
      row'.clientName ∈ names) ∧ ¬ t.has c.nodeId row'.clientName row'.vpnType

theorem Grown.refl (c : DiskImport) (t : ConfigTable) : Grown c t t where
  old := fun _ row hRow => ⟨row, hRow, ConfigRow.SameClient.refl row⟩
  new := fun _ _ hRow hNone => by rw [hNone] at hRow; cases hRow

theorem Grown.has (h : Grown c t t') (hHas : t.has nodeId clientName vpnType) :
    t'.has nodeId clientName vpnType := by
  obtain ⟨id, row, hRow, hNode, hName, hType⟩ := hHas
  obtain ⟨row', hRow', hSame⟩ := h.old id row hRow
  refine ⟨id, row', hRow', ?_, ?_, ?_⟩
  · rw [hSame.config, hNode]
  · rw [hSame.config, hName]
  · rw [hSame.config, hType]

theorem Grown.trans (h : Grown c t t') (h' : Grown c t' u) : Grown c t u where
  old := by
    intro id row hRow
    obtain ⟨row', hRow', hSame⟩ := h.old id row hRow
    obtain ⟨last, hLast, hSame'⟩ := h'.old id row' hRow'
    exact ⟨last, hLast, hSame.trans hSame'⟩
  new := by
    intro id last hLast hNone
    cases hMid : t'.row? id with
    | none =>
      obtain ⟨hNode, hPrimary, hListed, hFree⟩ := h'.new id last hLast hMid
      exact ⟨hNode, hPrimary, hListed, fun hHas => hFree (h.has hHas)⟩
    | some row' =>
      obtain ⟨other, hOther, hSame⟩ := h'.old id row' hMid
      obtain rfl := Option.mem_unique hOther hLast
      rw [hSame.config]
      exact h.new id row' hMid hNone

theorem ConfigTable.mem_ids_sameEntry :
    id ∈ t.ids row.sameEntry ↔ ∃ r, t.row? id = some r ∧ r.nodeId = row.nodeId ∧
      r.clientName = row.clientName ∧ r.vpnType = row.vpnType := by
  rw [ConfigTable.mem_ids]
  constructor
  · rintro ⟨r, hRow, hSame⟩
    obtain ⟨hNode, hName, hType⟩ := ConfigRow.sameEntry_iff.mp hSame
    exact ⟨r, hRow, hNode.symm, hName.symm, hType.symm⟩
  · rintro ⟨r, hRow, hNode, hName, hType⟩
    exact ⟨r, hRow, ConfigRow.sameEntry_iff.mpr ⟨hNode.symm, hName.symm, hType.symm⟩⟩

/-- One listed client has a row afterwards. -/
theorem importClient_grown (hListed : c.listed vpnType = some names) (hMem : clientName ∈ names)
    (found : ConfigTable × Nat) : ∃ found', importClient c vpnType found clientName = some found' ∧
      Grown c found.1 found'.1 ∧ found'.1.has c.nodeId clientName vpnType := by
  obtain ⟨t, imported⟩ := found
  simp only [importClient]
  generalize c.certificateOf vpnType clientName = cert
  cases hIds : t.ids (importedRow c vpnType cert clientName).sameEntry with
  | nil =>
    have hFree : ∀ id r, t.row? id = some r →
        (importedRow c vpnType cert clientName).sameEntry r = false := by
      intro id r hRow
      by_contra hSame
      have hIn : id ∈ t.ids (importedRow c vpnType cert clientName).sameEntry :=
        ConfigTable.mem_ids.mpr ⟨r, hRow, by simpa using hSame⟩
      rw [hIds] at hIn
      cases hIn
    obtain ⟨t', hInsert⟩ := isSome_iff_exists.mp (ConfigTable.insert_isSome hFree rfl)
    have hRow := ConfigTable.row?_insert hInsert
    refine ⟨(t', imported + 1), by simp only [hInsert, map_some], ⟨?_, ?_⟩, ?_⟩
    · intro id row hOld
      have hNe : id ≠ t.nextId := fun hEq => by
        rw [hEq, ConfigTable.row?_nextId] at hOld
        cases hOld
      exact ⟨row, by rw [hRow, if_neg hNe, hOld], ConfigRow.SameClient.refl row⟩
    · intro id row' hNew hNone
      rw [hRow] at hNew
      split_ifs at hNew with hId
      · cases hNew
        refine ⟨rfl, rfl, ⟨names, hListed, hMem⟩, ?_⟩
        rintro ⟨other, r, hOther, hNode, hName, hType⟩
        have hSame := hFree other r hOther
        rw [← Bool.not_eq_true, ConfigRow.sameEntry_iff] at hSame
        exact hSame ⟨hNode.symm, hName.symm, hType.symm⟩
      · rw [hNone] at hNew
        cases hNew
    · exact ⟨t.nextId, _, by rw [hRow, if_pos rfl], rfl, rfl, rfl⟩
  | cons id rest =>
    have hSame : ∀ other row, ConfigRow.SameClient row
        (if other = id then row.refreshCertificate cert else row) := by
      intro other row
      split_ifs
      · exact ⟨rfl, rfl, rfl⟩
      · exact ConfigRow.SameClient.refl row
    have hGrown : Grown c t (t.refreshCertificate id cert) := by
      constructor
      · intro other row hOld
        exact ⟨_, by rw [ConfigTable.refreshCertificate, ConfigTable.row?_update, hOld,
          map_some], hSame other row⟩
      · intro other row' hNew hNone
        rw [ConfigTable.refreshCertificate, ConfigTable.row?_update, hNone] at hNew
        cases hNew
    refine ⟨_, rfl, hGrown, hGrown.has ?_⟩
    obtain ⟨r, hOld, hNode, hName, hType⟩ :=
      ConfigTable.mem_ids_sameEntry.mp (hIds ▸ mem_cons_self)
    exact ⟨id, r, hOld, hNode, hName, hType⟩

/-- An import leaves a row for every listed client. -/
theorem importClients_grown (hListed : c.listed vpnType = some names)
    (found : ConfigTable × Nat) : ∃ found', importClients c vpnType names found = some found' ∧
      Grown c found.1 found'.1 ∧
      ∀ clientName ∈ names, found'.1.has c.nodeId clientName vpnType := by
  have hFold : ∀ (ns : List ClientName), (∀ n ∈ ns, n ∈ names) → ∀ found : ConfigTable × Nat,
      ∃ found', ns.foldlM (importClient c vpnType) found = some found' ∧
        Grown c found.1 found'.1 ∧ ∀ n ∈ ns, found'.1.has c.nodeId n vpnType := by
    intro ns
    induction ns with
    | nil =>
      exact fun _ found =>
        ⟨found, rfl, Grown.refl c _, fun n hMem => absurd hMem not_mem_nil⟩
    | cons n ns ih =>
      intro hNs found
      obtain ⟨mid, hMid, hGrown, hHas⟩ :=
        importClient_grown hListed (hNs n mem_cons_self) found
      obtain ⟨last, hLast, hGrown', hHas'⟩ := ih (fun m hM => hNs m (mem_cons_of_mem n hM)) mid
      refine ⟨last, ?_, hGrown.trans hGrown', ?_⟩
      · rw [foldlM_cons, hMid]
        exact hLast
      · intro m hM
        rcases mem_cons.mp hM with rfl | hRest
        · exact hGrown'.has hHas
        · exact hHas' m hRest
  obtain ⟨last, hLast, hGrown, hHas⟩ :=
    hFold names.dedup (fun n hMem => mem_dedup.mp hMem) found
  exact ⟨last, hLast, hGrown, fun n hMem => hHas n (mem_dedup.mpr hMem)⟩

/-- **Every listed client has a row**, and no other is new. -/
theorem importAll_grown (c : DiskImport) (t : ConfigTable) : ∃ t' imported,
    importAll c t = some (t', imported) ∧ Grown c t t' ∧
      ∀ vpnType names clientName, c.listed vpnType = some names → clientName ∈ names →
        t'.has c.nodeId clientName vpnType := by
  have hOpenvpn : c.listed .openvpn = some c.openvpn := rfl
  have hWireguard : c.listed .wireguard = some c.wireguard := rfl
  obtain ⟨ovpn, hOvpn, hGrownO, hHasO⟩ := importClients_grown hOpenvpn (t, 0)
  obtain ⟨wg, hWg, hGrownW, hHasW⟩ := importClients_grown hWireguard ovpn
  have hAwg : ∃ last, importClients c .amneziawg2 (c.amneziawg2.getD []) wg = some last ∧
      Grown c wg.1 last.1 ∧ ∀ names clientName, c.amneziawg2 = some names → clientName ∈ names →
        last.1.has c.nodeId clientName .amneziawg2 := by
    cases hList : c.amneziawg2 with
    | none => exact ⟨wg, rfl, Grown.refl c _, nofun⟩
    | some names =>
      have hListed : c.listed .amneziawg2 = some names := hList
      obtain ⟨last, hLast, hGrown, hHas⟩ := importClients_grown hListed wg
      refine ⟨last, hLast, hGrown, fun names' n hSome hMem => hHas n ?_⟩
      cases hSome
      exact hMem
  obtain ⟨⟨t', imported⟩, hLast, hGrownA, hHasA⟩ := hAwg
  refine ⟨t', imported, ?_, (hGrownO.trans hGrownW).trans hGrownA, ?_⟩
  · rw [importAll, hOvpn]
    show (importClients c .wireguard c.wireguard ovpn).bind _ = _
    rw [hWg]
    exact hLast
  · intro vpnType names clientName hListed hMem
    cases vpnType with
    | openvpn =>
      cases hListed
      exact hGrownA.has (hGrownW.has (hHasO clientName hMem))
    | wireguard =>
      cases hListed
      exact hGrownA.has (hHasW clientName hMem)
    | amneziawg2 => exact hHasA names clientName hListed hMem
    | amneziawg3 => cases hListed

end

/-! ## What removing does to the rows -/

section

variable {ρ : Type} {queried t : ConfigTable} {now : Time} {db db' : ConfigDb ρ} {id : Nat}
  {row : ConfigRow} {done : List Nat}

/-- What a turn of the loop does. -/
theorem removeConfig_cases (h : removeConfig queried now db id = some db')
    (hRow : queried.row? id = some row) : ∃ purged configs,
      purgeShadowsOf db.configs id row = some purged ∧
      purged.delete (fun other _ => other = id) = some configs ∧
      db' = cleanupDeletedClientRecords { db with configs } id row now := by
  simp only [removeConfig, hRow, bind_eq_bind, bind_some, bind_eq_some_iff,
    Option.pure_def, Option.some.injEq] at h
  obtain ⟨purged, hPurged, configs, hConfigs, rfl⟩ := h
  exact ⟨purged, configs, hPurged, hConfigs, rfl⟩

/-- A turn removes the row and, of a primary one, the shadows. -/
def goesWith (id : Nat) (row : ConfigRow) (other : Nat) (r : ConfigRow) : Bool :=
  other = id || (row.haPrimaryConfigId.isNone && r.haPrimaryConfigId = some id)

/-- A removal takes the rows that go with the row. -/
theorem row?_removeConfig (h : removeConfig queried now db id = some db')
    (hRow : queried.row? id = some row) (other : Nat) :
    db'.configs.row? other = (db.configs.row? other).filter fun r => !goesWith id row other r := by
  obtain ⟨purged, configs, hPurged, hConfigs, rfl⟩ := removeConfig_cases h hRow
  show configs.row? other = _
  rw [ConfigTable.row?_delete hConfigs]
  have hPurge : purged.row? other = (db.configs.row? other).filter fun r =>
      !(row.haPrimaryConfigId.isNone && r.haPrimaryConfigId = some id) := by
    rw [purgeShadowsOf] at hPurged
    split_ifs at hPurged with hPrimary
    · rw [ConfigTable.row?_delete hPurged, hPrimary]
      simp
    · cases hPurged
      have hSome : row.haPrimaryConfigId.isNone = false := by
        rw [← Bool.not_eq_true, isNone_iff_eq_none]
        exact hPrimary
      rw [hSome]
      cases db.configs.row? other <;> rfl
  rw [hPurge, Option.filter_filter]
  congr 1
  funext r
  simp only [goesWith, Bool.not_or, Bool.and_comm]

theorem removedBy_concat (hRow : queried.row? id = some row) (done : List Nat) (other : Nat)
    (r : ConfigRow) : removedBy queried (done ++ [id]) other r =
      (removedBy queried done other r || goesWith id row other r) := by
  rw [Bool.eq_iff_iff]
  simp only [removedBy, goesWith, mem_append, mem_singleton, Bool.or_eq_true,
    decide_eq_true_eq, Option.any_eq_true, Bool.and_eq_true]
  constructor
  · rintro ((hDone | rfl) | ⟨p, hP, hDone | rfl, primary, hPrimary, hNone⟩)
    · exact .inl (.inl hDone)
    · exact .inr (.inl rfl)
    · exact .inl (.inr ⟨p, hP, hDone, primary, hPrimary, hNone⟩)
    · obtain rfl := Option.mem_unique hRow hPrimary
      exact .inr (.inr ⟨hNone, hP⟩)
  · rintro ((hDone | ⟨p, hP, hDone, primary, hPrimary, hNone⟩) | (rfl | ⟨hNone, hP⟩))
    · exact .inl (.inl hDone)
    · exact .inr ⟨p, hP, .inl hDone, primary, hPrimary, hNone⟩
    · exact .inl (.inr rfl)
    · exact .inr ⟨id, hP, .inr rfl, row, hRow, hNone⟩

/-- The rows once the loop has done with some. -/
def Cut (queried t : ConfigTable) (done : List Nat) (db : ConfigDb ρ) : Prop :=
  ∀ id, db.configs.row? id = (t.row? id).filter fun row => !removedBy queried done id row

theorem Cut.step (hCut : Cut queried t done db) (h : removeConfig queried now db id = some db')
    (hRow : queried.row? id = some row) : Cut queried t (done ++ [id]) db' := by
  intro other
  rw [row?_removeConfig h hRow, hCut other, Option.filter_filter]
  congr 1
  funext r
  rw [removedBy_concat hRow, Bool.not_or]

/-- The rows that are left refer to rows that are left. -/
theorem Cut.closed (hCut : Cut queried t done db) :
    t.closedUnder (removedBy queried done) = true := by
  rw [ConfigTable.closedUnder_iff]
  intro id row p primary hRow hP hPrimary hGone
  by_contra hStays
  have hHere : db.configs.row? id = some row := by
    rw [hCut id, hRow, filter_some_pos (by simpa using hStays)]
  have hThere := db.configs.refs id row p hHere hP
  change (db.configs.row? p).isSome = true at hThere
  rw [hCut p, hPrimary, filter_some_neg (by simpa using hGone)] at hThere
  cases hThere

/-- A turn raises no exception when it leaves no reference open. -/
theorem Cut.enabled (hCut : Cut queried t done db) (hRow : queried.row? id = some row)
    (hSame : ∀ r, t.row? id = some r → r.haPrimaryConfigId = row.haPrimaryConfigId)
    (hClosed : t.closedUnder (removedBy queried (done ++ [id])) = true) :
    ∃ db', removeConfig queried now db id = some db' := by
  -- with a primary that goes its shadows go, by `hClosed`
  have hRemoved : ∀ other r p primary, db.configs.row? other = some r →
      r.haPrimaryConfigId = some p → db.configs.row? p = some primary →
      goesWith id row p primary = true → goesWith id row other r = true := by
    intro other r p primary hOther hP hPrimary hGone
    rw [hCut, filter_eq_some_iff, Bool.not_eq_true'] at hOther hPrimary
    have hGoes := ConfigTable.closedUnder_iff.mp hClosed other r p primary hOther.1 hP hPrimary.1
      (by rw [removedBy_concat hRow, hGone, Bool.or_true])
    rwa [removedBy_concat hRow, hOther.2, Bool.false_or] at hGoes
  have hId : ∀ r, db.configs.row? id = some r → r.haPrimaryConfigId = row.haPrimaryConfigId := by
    intro r hR
    rw [hCut, filter_eq_some_iff] at hR
    exact hSame r hR.1
  -- first the shadows of a primary, then the row
  have hPurge : ∃ purged, purgeShadowsOf db.configs id row = some purged ∧
      ∀ other r, purged.row? other = some r → db.configs.row? other = some r ∧
        (row.haPrimaryConfigId = none → r.haPrimaryConfigId ≠ some id) := by
    rw [purgeShadowsOf]
    split_ifs with hPrimary
    · have hEnabled : db.configs.closedUnder (fun _ r => r.haPrimaryConfigId = some id) = true := by
        rw [ConfigTable.closedUnder_iff]
        intro other r p primary hOther hP hP' hGone
        have hGoes := hRemoved other r p primary hOther hP hP' (by
          rw [goesWith, hPrimary, hGone]
          simp)
        rw [goesWith, Bool.or_eq_true, decide_eq_true_eq] at hGoes
        rcases hGoes with rfl | hShadow
        · rw [hId r hOther, hPrimary] at hP
          cases hP
        · exact (Bool.and_eq_true _ _ ▸ hShadow).2
      obtain ⟨purged, hDelete⟩ := isSome_iff_exists.mp
        (ConfigTable.delete_isSome.mpr hEnabled)
      refine ⟨purged, hDelete, fun other r hR => ?_⟩
      rw [ConfigTable.row?_delete hDelete, filter_eq_some_iff] at hR
      exact ⟨hR.1, fun _ => by simpa using hR.2⟩
    · exact ⟨db.configs, rfl, fun other r hR => ⟨hR, fun hNone => absurd hNone hPrimary⟩⟩
  obtain ⟨purged, hPurged, hLeft⟩ := hPurge
  have hEnabled : purged.closedUnder (fun other _ => other = id) = true := by
    rw [ConfigTable.closedUnder_iff]
    intro other r p primary hOther hP hPrimary hGone
    obtain rfl : p = id := of_decide_eq_true hGone
    obtain ⟨hHere, hNot⟩ := hLeft other r hOther
    have hGoes :=
      hRemoved other r p primary hHere hP (hLeft p primary hPrimary).1 (by simp [goesWith])
    rw [goesWith, Bool.or_eq_true] at hGoes
    rcases hGoes with hEq | hShadow
    · exact hEq
    · rw [Bool.and_eq_true, isNone_iff_eq_none] at hShadow
      exact absurd hP (hNot hShadow.1)
  obtain ⟨configs, hDelete⟩ := isSome_iff_exists.mp (ConfigTable.delete_isSome.mpr hEnabled)
  refine ⟨cleanupDeletedClientRecords { db with configs } id row now, ?_⟩
  simp only [removeConfig, hRow, hPurged, hDelete, bind_eq_bind, bind_some,
    Option.pure_def]

end

/-! ## What removing does to the policies and the links -/

variable {other : Nat} {r : ConfigRow} {name : String}

section

variable {ρ : Type} {queried t : ConfigTable} {now : Time} {db db' : ConfigDb ρ} {id : Nat}
  {row : ConfigRow}

theorem row?_clients (db : ConfigDb ρ) (id : Nat) :
    db.clients.configs.row? id = (db.configs.row? id).map ConfigRow.toClientConfig := rfl

theorem policies_removeConfig (h : removeConfig queried now db id = some db')
    (hRow : queried.row? id = some row) (key : AccessKey) :
    db'.policies.row? key = db.policies.row? key ∨
      key = deletedKey row.toClientConfig ∧
        stillUsed db'.clients id row.toClientConfig = false := by
  obtain ⟨purged, configs, -, -, rfl⟩ := removeConfig_cases h hRow
  have hKey := row?_deleteClientAccessPolicies (ConfigDb.clients { db with configs }) id
    row.toClientConfig key
  by_cases hPicked : key = deletedKey row.toClientConfig ∧
      stillUsed (ConfigDb.clients { db with configs }) id row.toClientConfig = false
  · exact .inr hPicked
  · rw [if_neg hPicked] at hKey
    exact .inl hKey

theorem deletedKey_nodeId (config : ClientConfig) : (deletedKey config).nodeId = config.nodeId := by
  rw [deletedKey]
  split <;> rfl

/-- A client with a row of its own afterwards keeps its policy. -/
theorem policy_removeConfig (h : removeConfig queried now db id = some db')
    (hRow : queried.row? id = some row) (hType : row.vpnType ≠ .amneziawg3)
    (hOther : db'.configs.row? other = some r) :
    db'.policies.row? r.accessKey = db.policies.row? r.accessKey := by
  rcases policies_removeConfig h hRow r.accessKey with hSame | ⟨hKey, hUnused⟩
  · exact hSame
  have hNe : other ≠ id := by
    rintro rfl
    rw [row?_removeConfig h hRow, filter_eq_some_iff] at hOther
    simp [goesWith] at hOther
  have hUsed : db'.clients.usedByOther id row.accessKey = true := by
    refine anyOther_iff.mpr ⟨other, r.toClientConfig, hNe, ?_, ?_⟩
    · rw [row?_clients, hOther, map_some]
    · rw [decide_eq_true_eq, hKey, deletedKey_eq_accessKey hType]
  rw [stillUsed_eq_usedByOther _ _ hType, hUsed] at hUnused
  cases hUnused

theorem linksOf_revoke (links : List ClientPortalToken) {nodeId' : Nat} {name' : String}
    (hNe : ¬ (nodeId' = nodeId ∧ name' = name)) (now : Time) :
    linksOf (revokeClientPortalLinks links nodeId name now) nodeId' name' =
      linksOf links nodeId' name' := by
  induction links with
  | nil => rfl
  | cons link links ih =>
    rw [revokeClientPortalLinks, map_cons]
    change linksOf (_ :: revokeClientPortalLinks links nodeId name now) nodeId' name' = _
    have hCons : ∀ (l : ClientPortalToken) ls, linksOf (l :: ls) nodeId' name' =
        if l.nodeId = nodeId' ∧ l.clientName = name' then l :: linksOf ls nodeId' name'
        else linksOf ls nodeId' name' := by
      intro l ls
      simp [linksOf, filter_cons]
    rw [hCons, hCons, ih]
    by_cases hActive : link.activeOf nodeId name = true
    · rw [if_pos hActive]
      simp only [ClientPortalToken.activeOf, Bool.and_eq_true, decide_eq_true_eq] at hActive
      obtain ⟨⟨rfl, rfl⟩, -⟩ := hActive
      have hOther : ¬ (link.nodeId = nodeId' ∧ link.clientName = name') :=
        fun hEq => hNe ⟨hEq.1.symm, hEq.2.symm⟩
      rw [if_neg hOther, if_neg hOther]
    · rw [if_neg hActive]

theorem eq_of_text {a b : ClientName} (h : a.text = b.text) : a = b := by
  cases a
  cases b
  simp only at h
  subst h
  rfl

/-- The links of a client change only with a row of its name, the last one that the portal
shows. -/
theorem links_removeConfig (h : removeConfig queried now db id = some db')
    (hRow : queried.row? id = some row)
    (hKept : nodeId = row.nodeId → ∃ other r, db'.configs.row? other = some r ∧
      r.nodeId = nodeId ∧ r.clientName.text = name ∧ r.haPrimaryConfigId = none) :
    linksOf db'.links nodeId name = linksOf db.links nodeId name := by
  have hAt := row?_removeConfig h hRow
  obtain ⟨purged, configs, -, -, rfl⟩ := removeConfig_cases h hRow
  show linksOf (if portalClientRemains configs id row then db.links else _) _ _ = _
  split_ifs with hRemains
  · rfl
  refine linksOf_revoke _ ?_ now
  rintro ⟨rfl, hName⟩
  obtain ⟨other, r, hOther, hNode, hR, hPrimary⟩ := hKept rfl
  have hEq : r.clientName = row.clientName := eq_of_text (hR.trans hName)
  refine hRemains (ConfigTable.anyOther_iff.mpr ⟨other, r, ?_, hOther, ?_⟩)
  · rintro rfl
    rw [hAt, filter_eq_some_iff] at hOther
    simp [goesWith] at hOther
  · simp [hNode, hEq, hPrimary]

end

/-! ## The loop -/

section

variable {ρ : Type} {queried t : ConfigTable} {now : Time} {db db' : ConfigDb ρ}
  {ids done : List Nat}

theorem Cut.run (hCut : Cut queried t done db)
    (hIds : ∀ id ∈ ids, ∃ row, queried.row? id = some row)
    (h : exec (removeConfig queried now) db ids = some db') :
    Cut queried t (done ++ ids) db' := by
  induction ids generalizing db done with
  | nil =>
    rw [Lib.exec_nil] at h
    rw [append_nil, ← Option.some.inj h]
    exact hCut
  | cons id ids ih =>
    obtain ⟨u, hu, hRest⟩ := Lib.exec_cons_iff.mp h
    obtain ⟨row, hRow⟩ := hIds id mem_cons_self
    have hNext := ih (hCut.step hu hRow) (fun x hX => hIds x (mem_cons_of_mem id hX)) hRest
    rwa [append_assoc] at hNext

/-- **The loop raises no exception** exactly if every turn leaves no reference open. -/
theorem Cut.run_iff (hCut : Cut queried t done db)
    (hIds : ∀ id ∈ ids, ∃ row, queried.row? id = some row ∧
      ∀ r, t.row? id = some r → r.haPrimaryConfigId = row.haPrimaryConfigId) :
    (∃ db', exec (removeConfig queried now) db ids = some db') ↔
      ∀ before id after, ids = before ++ id :: after →
        t.closedUnder (removedBy queried (done ++ (before ++ [id]))) = true := by
  induction ids generalizing db done with
  | nil =>
    refine iff_of_true ⟨db, rfl⟩ fun before id after hEq => ?_
    exact absurd hEq (by simp)
  | cons id ids ih =>
    obtain ⟨row, hRow, hSame⟩ := hIds id mem_cons_self
    have hRestIds := fun x hX => hIds x (mem_cons_of_mem id hX)
    constructor
    · rintro ⟨db', hExec⟩ before x after hEq
      obtain ⟨u, hu, hRest⟩ := Lib.exec_cons_iff.mp hExec
      have hNext := hCut.step hu hRow
      rcases before with _ | ⟨b, before⟩
      · obtain ⟨rfl, -⟩ := List.cons.inj hEq
        exact hNext.closed
      · obtain ⟨rfl, hTail⟩ := List.cons.inj hEq
        have hClosed := (ih hNext hRestIds).mp ⟨db', hRest⟩ before x after hTail
        rwa [append_assoc] at hClosed
    · intro hAll
      obtain ⟨u, hu⟩ := hCut.enabled hRow hSame (hAll [] id ids rfl)
      have hRest := (ih (hCut.step hu hRow) hRestIds).mpr (by
        intro before x after hEq
        have hClosed := hAll (id :: before) x after (by rw [hEq]; rfl)
        rwa [append_assoc])
      obtain ⟨db', hExec⟩ := hRest
      exact ⟨db', Lib.exec_cons_iff.mpr ⟨u, hu, hExec⟩⟩

theorem rows_run (hIds : ∀ id ∈ ids, ∃ row, queried.row? id = some row)
    (h : exec (removeConfig queried now) db ids = some db')
    (hOther : db'.configs.row? other = some r) : db.configs.row? other = some r := by
  induction ids generalizing db with
  | nil =>
    rw [Lib.exec_nil] at h
    rw [Option.some.inj h]
    exact hOther
  | cons id ids ih =>
    obtain ⟨u, hu, hRest⟩ := Lib.exec_cons_iff.mp h
    obtain ⟨row, hRow⟩ := hIds id mem_cons_self
    have hMid := ih (fun x hX => hIds x (mem_cons_of_mem id hX)) hRest
    rw [row?_removeConfig hu hRow, filter_eq_some_iff] at hMid
    exact hMid.1

/-- A client with a row at the end has kept its policy. -/
theorem policy_run (hIds : ∀ id ∈ ids, ∃ row, queried.row? id = some row ∧
      row.vpnType ≠ .amneziawg3)
    (h : exec (removeConfig queried now) db ids = some db')
    (hOther : db'.configs.row? other = some r) :
    db'.policies.row? r.accessKey = db.policies.row? r.accessKey := by
  induction ids generalizing db with
  | nil =>
    rw [Lib.exec_nil] at h
    rw [Option.some.inj h]
  | cons id ids ih =>
    obtain ⟨u, hu, hRest⟩ := Lib.exec_cons_iff.mp h
    obtain ⟨row, hRow, hType⟩ := hIds id mem_cons_self
    have hRestIds := fun x hX => hIds x (mem_cons_of_mem id hX)
    have hMid := rows_run (fun x hX => (hRestIds x hX).imp fun _ hX => hX.1) hRest hOther
    exact (ih hRestIds hRest).trans (policy_removeConfig hu hRow hType hMid)

theorem otherPolicy_run (hIds : ∀ id ∈ ids, ∃ row, queried.row? id = some row ∧ row.nodeId = nodeId)
    (h : exec (removeConfig queried now) db ids = some db') {key : AccessKey}
    (hKey : key.nodeId ≠ nodeId) : db'.policies.row? key = db.policies.row? key := by
  induction ids generalizing db with
  | nil =>
    rw [Lib.exec_nil] at h
    rw [Option.some.inj h]
  | cons id ids ih =>
    obtain ⟨u, hu, hRest⟩ := Lib.exec_cons_iff.mp h
    obtain ⟨row, hRow, hNode⟩ := hIds id mem_cons_self
    refine (ih (fun x hX => hIds x (mem_cons_of_mem id hX)) hRest).trans ?_
    rcases policies_removeConfig hu hRow key with hSame | ⟨hPicked, -⟩
    · exact hSame
    · refine absurd ?_ hKey
      rw [hPicked, deletedKey_nodeId, hNode]

/-- The links of a name that has a primary row at the end, or that is none of the node. -/
theorem links_run (hIds : ∀ id ∈ ids, ∃ row, queried.row? id = some row)
    (h : exec (removeConfig queried now) db ids = some db')
    (hKept : (∃ id ∈ ids, ∃ row, queried.row? id = some row ∧ nodeId = row.nodeId) →
      ∃ other r, db'.configs.row? other = some r ∧ r.nodeId = nodeId ∧
        r.clientName.text = name ∧ r.haPrimaryConfigId = none) :
    linksOf db'.links nodeId name = linksOf db.links nodeId name := by
  induction ids generalizing db with
  | nil =>
    rw [Lib.exec_nil] at h
    rw [Option.some.inj h]
  | cons id ids ih =>
    obtain ⟨u, hu, hRest⟩ := Lib.exec_cons_iff.mp h
    obtain ⟨row, hRow⟩ := hIds id mem_cons_self
    have hRestIds := fun x hX => hIds x (mem_cons_of_mem id hX)
    refine (ih hRestIds hRest ?_).trans (links_removeConfig hu hRow ?_)
    · rintro ⟨x, hX, hSome⟩
      exact hKept ⟨x, mem_cons_of_mem id hX, hSome⟩
    · intro hNode
      obtain ⟨other, r, hOther, hRest'⟩ := hKept ⟨id, mem_cons_self, row, hRow, hNode⟩
      exact ⟨other, r, rows_run hRestIds hRest hOther, hRest'⟩

end

/-! ## Which synchronisations do what they must -/

/-- The rows that go: of a protocol that was listed without them, or of AmneziaWG 3 and not among
the WireGuard clients. -/
theorem stale_iff (c : DiskImport) (row : ConfigRow) : c.stale row = true ↔
    row.nodeId = c.nodeId ∧
      (c.leaves row ∨ row.vpnType = .amneziawg3 ∧ row.clientName ∉ c.wireguard) := by
  rw [DiskImport.stale, DiskImport.leaves]
  cases row.vpnType with
  | openvpn | wireguard => simp [DiskImport.listed, isOnDisk]
  | amneziawg2 =>
    cases hList : c.amneziawg2 with
    | none => simp [DiskImport.listed, hList]
    | some names => simp [DiskImport.listed, isOnDisk, hList]
  | amneziawg3 => simp [DiskImport.listed, isOnDisk]

section

variable {ρ : Type} {c : DiskImport} {db db' : ConfigDb ρ} {t' : ConfigTable} {imported : Nat}

theorem importClientsFromDisk_eq (hImport : importAll c db.configs = some (t', imported)) :
    importClientsFromDisk c db =
      (exec (removeConfig db.configs c.now) { db with configs := t' } (db.configs.ids c.stale)).map
        fun db' => (db', ⟨imported, (db.configs.ids c.stale).length, c.amneziawg2.isNone⟩) := by
  simp only [importClientsFromDisk, hImport, bind_eq_bind, bind_some, Option.pure_def,
    map_eq_bind]
  rfl

theorem removedBy_nil (t : ConfigTable) (id : Nat) (row : ConfigRow) :
    removedBy t [] id row = false := by
  rw [removedBy]
  cases row.haPrimaryConfigId <;> simp

/-- The loop starts with the imported table. -/
theorem cut_start (db : ConfigDb ρ) (t' : ConfigTable) :
    Cut db.configs t' [] { db with configs := t' } := by
  intro id
  show t'.row? id = _
  cases hRow : t'.row? id with
  | none => rfl
  | some row => rw [filter_some_pos (by rw [removedBy_nil]; rfl)]

theorem sameRemoved {t : ConfigTable} {done : List Nat} {row' : ConfigRow}
    (h : row.SameClient row') : removedBy t done id row' = removedBy t done id row := by
  have hPrimary : row'.haPrimaryConfigId = row.haPrimaryConfigId := by rw [h.config]
  rw [removedBy, removedBy, hPrimary]

/-- New rows refer to nothing, so references are open in the one table as in the other. -/
theorem closedUnder_grown (hGrown : Grown c db.configs t') (done : List Nat) :
    t'.closedUnder (removedBy db.configs done) =
      db.configs.closedUnder (removedBy db.configs done) := by
  rw [Bool.eq_iff_iff, ConfigTable.closedUnder_iff, ConfigTable.closedUnder_iff]
  constructor
  · intro h id row p primary hRow hP hPrimary hGone
    obtain ⟨row', hRow', hSame⟩ := hGrown.old id row hRow
    obtain ⟨primary', hPrimary', hSame'⟩ := hGrown.old p primary hPrimary
    have hGoes := h id row' p primary' hRow' (by rw [hSame.config, hP]) hPrimary'
      (by rw [sameRemoved hSame', hGone])
    rwa [sameRemoved hSame] at hGoes
  · intro h id row' p primary' hRow' hP hPrimary' hGone
    cases hRow : db.configs.row? id with
    | none =>
      have hNone := (hGrown.new id row' hRow' hRow).2.1
      rw [hP] at hNone
      cases hNone
    | some row =>
      obtain ⟨other, hOther, hSame⟩ := hGrown.old id row hRow
      obtain rfl := Option.mem_unique hOther hRow'
      have hP' : row.haPrimaryConfigId = some p := by rw [← hP, hSame.config]
      obtain ⟨primary, hPrimary⟩ := isSome_iff_exists.mp (db.configs.refs id row p hRow hP')
      obtain ⟨last, hLast, hSame'⟩ := hGrown.old p primary hPrimary
      obtain rfl := Option.mem_unique hLast hPrimary'
      rw [sameRemoved hSame]
      exact h id row p primary hRow hP' hPrimary (by rwa [sameRemoved hSame'] at hGone)

/-- The ids of the loop are of rows of the node, unchanged by the import. -/
theorem stale_row (hMem : id ∈ db.configs.ids c.stale) (hGrown : Grown c db.configs t') :
    ∃ row, db.configs.row? id = some row ∧ c.stale row = true ∧
      ∀ r, t'.row? id = some r → r.haPrimaryConfigId = row.haPrimaryConfigId := by
  obtain ⟨row, hRow, hStale⟩ := ConfigTable.mem_ids.mp hMem
  refine ⟨row, hRow, hStale, fun r hR => ?_⟩
  obtain ⟨row', hRow', hSame⟩ := hGrown.old id row hRow
  obtain rfl := Option.mem_unique hRow' hR
  rw [hSame.config]

/-- What is left at the end. -/
theorem row?_synced (hGrown : Grown c db.configs t')
    (hRun : exec (removeConfig db.configs c.now) { db with configs := t' }
      (db.configs.ids c.stale) = some db') (id : Nat) :
    db'.configs.row? id =
      (t'.row? id).filter fun row => !removedBy db.configs (db.configs.ids c.stale) id row := by
  have hCut := (cut_start db t').run
    (fun id hMem => (stale_row hMem hGrown).imp fun _ h => h.1) hRun
  rw [nil_append] at hCut
  exact hCut id

/-- An old row goes as it is stale, or as the shadow of a stale primary row. -/
theorem removedBy_stale (hRow : db.configs.row? id = some row) :
    removedBy db.configs (db.configs.ids c.stale) id row = true ↔ c.stale row = true ∨
      ∃ p primary, row.haPrimaryConfigId = some p ∧ db.configs.row? p = some primary ∧
        primary.haPrimaryConfigId = none ∧ c.stale primary = true := by
  simp only [removedBy, Bool.or_eq_true, decide_eq_true_eq, ConfigTable.mem_ids,
    Option.any_eq_true, Bool.and_eq_true, isNone_iff_eq_none]
  constructor
  · rintro (⟨r, hR, hStale⟩ | ⟨p, hP, ⟨r, hR, hStale⟩, primary, hPrimary, hNone⟩)
    · obtain rfl := Option.mem_unique hRow hR
      exact .inl hStale
    · obtain rfl := Option.mem_unique hR hPrimary
      exact .inr ⟨p, r, hP, hR, hNone, hStale⟩
  · rintro (hStale | ⟨p, primary, hP, hPrimary, hNone, hStale⟩)
    · exact .inl ⟨row, hRow, hStale⟩
    · exact .inr ⟨p, hP, ⟨primary, hPrimary, hStale⟩, primary, hPrimary, hNone⟩

theorem row?_synced_none (hGrown : Grown c db.configs t')
    (hRun : exec (removeConfig db.configs c.now) { db with configs := t' }
      (db.configs.ids c.stale) = some db')
    (hRow : db.configs.row? id = some row) : db'.configs.row? id = none ↔
      removedBy db.configs (db.configs.ids c.stale) id row = true := by
  obtain ⟨row', hRow', hSame⟩ := hGrown.old id row hRow
  rw [row?_synced hGrown hRun, hRow', ← sameRemoved hSame, filter_eq_none_iff]
  constructor
  · intro h
    simpa using h row' rfl
  · intro h a hA
    rw [Option.some.inj hA] at h
    simpa using h

/-- A client that is still on the node has a row at the end. -/
theorem survivor (hClean : CleanSync c db.configs) (hGrown : Grown c db.configs t')
    (hHas : ∀ vpnType names clientName, c.listed vpnType = some names → clientName ∈ names →
      t'.has c.nodeId clientName vpnType)
    (hRun : exec (removeConfig db.configs c.now) { db with configs := t' }
      (db.configs.ids c.stale) = some db') {clientName : ClientName} {vpnType : VpnType}
    (hOn : c.onNode db.configs clientName vpnType) :
    ∃ id row, t'.row? id = some row ∧ db'.configs.row? id = some row ∧ row.nodeId = c.nodeId ∧
      row.clientName = clientName ∧ row.vpnType = vpnType := by
  have hThere : t'.has c.nodeId clientName vpnType := by
    rw [DiskImport.onNode] at hOn
    cases hListed : c.listed vpnType with
    | some names =>
      rw [hListed] at hOn
      exact hHas vpnType names clientName hListed hOn
    | none =>
      rw [hListed] at hOn
      exact hGrown.has hOn
  obtain ⟨id, row', hRow', hNode, hName, hType⟩ := hThere
  refine ⟨id, row', hRow', ?_, hNode, hName, hType⟩
  rw [row?_synced hGrown hRun, hRow', filter_some_pos]
  rw [Bool.not_eq_true']
  cases hRow : db.configs.row? id with
  | none =>
    have hNone := (hGrown.new id row' hRow' hRow).2.1
    rw [removedBy, hNone, any_none, Bool.or_false, decide_eq_false_iff_not]
    intro hMem
    obtain ⟨r, hR, -⟩ := ConfigTable.mem_ids.mp hMem
    rw [hRow] at hR
    cases hR
  | some row =>
    obtain ⟨other, hOther, hSame⟩ := hGrown.old id row hRow
    obtain rfl := Option.mem_unique hOther hRow'
    rw [hSame.config] at hNode hName hType
    have hStays : c.stale row = false := by
      rw [← Bool.not_eq_true, stale_iff]
      rintro ⟨-, ⟨names, hListed, hNot⟩ | ⟨hAwg3, hNot⟩⟩
      · rw [hType] at hListed
        rw [DiskImport.onNode, hListed] at hOn
        rw [hName] at hNot
        exact hNot hOn
      · exact hNot (hClean.awg3 id row hRow hNode hAwg3)
    rw [sameRemoved hSame, ← Bool.not_eq_true, removedBy_stale hRow]
    rintro (hStale | ⟨p, primary, hP, hPrimary, hNone, hStale⟩)
    · rw [hStays] at hStale
      cases hStale
    · rw [hClean.shadows id row p primary hRow hNode hP hPrimary hNone hStale] at hStays
      cases hStays

/-- **A synchronisation under the condition does what it must.** -/
theorem synced_of_clean (hClean : CleanSync c db.configs) (hGrown : Grown c db.configs t')
    (hHas : ∀ vpnType names clientName, c.listed vpnType = some names → clientName ∈ names →
      t'.has c.nodeId clientName vpnType)
    (hRun : exec (removeConfig db.configs c.now) { db with configs := t' }
      (db.configs.ids c.stale) = some db') : Synced c db db' := by
  -- what is removed is a row of the node, and none of AmneziaWG 3
  have hIds : ∀ id ∈ db.configs.ids c.stale, ∃ row, db.configs.row? id = some row ∧
      row.nodeId = c.nodeId ∧ row.vpnType ≠ .amneziawg3 := by
    intro id hMem
    obtain ⟨row, hRow, hStale, -⟩ := stale_row hMem hGrown
    obtain ⟨hNode, ⟨names, hListed, -⟩ | ⟨hAwg3, hNot⟩⟩ := (stale_iff c row).mp hStale
    · refine ⟨row, hRow, hNode, fun hAwg3 => ?_⟩
      rw [hAwg3] at hListed
      cases hListed
    · exact absurd (hClean.awg3 id row hRow hNode hAwg3) hNot
  have hRows := fun id hMem => (hIds id hMem).imp fun _ h => h.1
  constructor
  · -- listed clients have a row
    intro vpnType names clientName hListed hMem
    have hOn : c.onNode db.configs clientName vpnType := by
      rw [DiskImport.onNode, hListed]
      exact hMem
    obtain ⟨id, row, -, hRow, hFound⟩ := survivor hClean hGrown hHas hRun hOn
    exact ⟨id, row, hRow, hFound⟩
  · intro id row hRow hNode
    -- a row goes if it is stale itself, or a shadow of one that is
    rw [row?_synced_none hGrown hRun hRow, removedBy_stale hRow]
    constructor
    · intro hGone
      have hStale : c.stale row = true := by
        rcases hGone with hStale | ⟨p, primary, hP, hPrimary, hNone, hStale⟩
        · exact hStale
        · exact hClean.shadows id row p primary hRow hNode hP hPrimary hNone hStale
      obtain ⟨-, hLeaves | ⟨hAwg3, hNot⟩⟩ := (stale_iff c row).mp hStale
      · exact hLeaves
      · exact absurd (hClean.awg3 id row hRow hNode hAwg3) hNot
    · exact fun hLeaves => .inl ((stale_iff c row).mpr ⟨hNode, .inl hLeaves⟩)
  · intro id row row' hRow hLast
    rw [row?_synced hGrown hRun, filter_eq_some_iff] at hLast
    obtain ⟨mid, hMid, hSame⟩ := hGrown.old id row hRow
    obtain rfl := Option.mem_unique hMid hLast.1
    exact ⟨hSame.config, hSame.owner, hSame.description⟩
  · intro id row' hLast hNone
    rw [row?_synced hGrown hRun, filter_eq_some_iff] at hLast
    obtain ⟨hNode, -, hListed, hFree⟩ := hGrown.new id row' hLast.1 hNone
    exact ⟨hNode, hListed, hFree⟩
  · intro clientName vpnType hOn
    obtain ⟨id, row, -, hRow, hNode, rfl, rfl⟩ := survivor hClean hGrown hHas hRun hOn
    have hKept := policy_run (fun id hMem => (hIds id hMem).imp fun _ h => ⟨h.1, h.2.2⟩) hRun hRow
    rwa [ClientConfig.accessKey, hNode] at hKept
  · intro clientName vpnType hOn hHere
    -- the links of a client go with its last row on the node
    refine Eq.trans (links_run hRows hRun fun _ => ?_) rfl
    obtain ⟨id, row, hMid, hRow, hNode, hName, hType⟩ := survivor hClean hGrown hHas hRun hOn
    refine ⟨id, row, hRow, hNode, by rw [hName], ?_⟩
    cases hOld : db.configs.row? id with
    | none => exact (hGrown.new id row hMid hOld).2.1
    | some old =>
      obtain ⟨other, hOther, hSame⟩ := hGrown.old id old hOld
      obtain rfl := Option.mem_unique hOther hMid
      rw [hSame.config] at hNode hName hType ⊢
      exact hHere id old hOld hNode hName hType
  · intro id row hRow hNode hNone
    rw [row?_synced_none hGrown hRun hRow, removedBy_stale hRow] at hNone
    rcases hNone with hStale | ⟨p, primary, hP, hPrimary, -, hStale⟩
    · exact absurd ((stale_iff c row).mp hStale).1 hNode
    · refine ⟨p, primary, hP, hPrimary, ((stale_iff c primary).mp hStale).1, ?_⟩
      rw [row?_synced_none hGrown hRun hPrimary, removedBy_stale hPrimary]
      exact .inl hStale
  · intro key hKey
    exact otherPolicy_run (fun id hMem => (hIds id hMem).imp fun _ h => ⟨h.1, h.2.1⟩) hRun hKey
  · intro nodeId clientName hNode
    refine Eq.trans (links_run hRows hRun ?_) rfl
    rintro ⟨id, hMem, row, hRow, rfl⟩
    obtain ⟨r, hR, hHere, -⟩ := hIds id hMem
    obtain rfl := Option.mem_unique hRow hR
    exact absurd hHere hNode

/-- **A synchronisation does what it must exactly under the condition.** -/
theorem synced_iff (c : DiskImport) (db : ConfigDb ρ) :
    (∃ db' result, importClientsFromDisk c db = some (db', result) ∧ Synced c db db') ↔
      CleanSync c db.configs := by
  obtain ⟨t', imported, hImport, hGrown, hHas⟩ := importAll_grown c db.configs
  have hRunIff : (∃ db', exec (removeConfig db.configs c.now) { db with configs := t' }
      (db.configs.ids c.stale) = some db') ↔ _ :=
    (cut_start db t').run_iff fun id hMem => (stale_row hMem hGrown).imp fun _ h => ⟨h.1, h.2.2⟩
  simp only [nil_append, closedUnder_grown hGrown] at hRunIff
  rw [importClientsFromDisk_eq hImport]
  constructor
  · rintro ⟨db', result, hDone, hSynced⟩
    obtain ⟨last, hRun, hEq⟩ := map_eq_some_iff.mp hDone
    obtain ⟨rfl, -⟩ := Prod.mk.inj hEq
    have hLeaves : ∀ id row, db.configs.row? id = some row → row.nodeId = c.nodeId →
        removedBy db.configs (db.configs.ids c.stale) id row = true → c.leaves row :=
      fun id row hRow hNode hGone =>
        (hSynced.removed id row hRow hNode).mp ((row?_synced_none hGrown hRun hRow).mpr hGone)
    refine ⟨?_, ?_, hRunIff.mp ⟨last, hRun⟩⟩
    · intro id row hRow hNode hAwg3
      by_contra hNot
      have hStale := (stale_iff c row).mpr ⟨hNode, .inr ⟨hAwg3, hNot⟩⟩
      obtain ⟨names, hListed, -⟩ :=
        hLeaves id row hRow hNode ((removedBy_stale hRow).mpr (.inl hStale))
      rw [hAwg3] at hListed
      cases hListed
    · intro id row p primary hRow hNode hP hPrimary hNone hStale
      have hGone := (removedBy_stale hRow).mpr (.inr ⟨p, primary, hP, hPrimary, hNone, hStale⟩)
      exact (stale_iff c row).mpr ⟨hNode, .inl (hLeaves id row hRow hNode hGone)⟩
  · intro hClean
    obtain ⟨db', hRun⟩ := hRunIff.mpr hClean.refs
    exact ⟨db', _, by rw [hRun]; rfl, synced_of_clean hClean hGrown hHas hRun⟩

end

/-! ## An AmneziaWG 3 client -/

def olgaLower : ClientName := ⟨"olga", by decide, by decide⟩

/-- WireGuard's olga and AmneziaWG 3's Olga on node 1. -/
def bothOlgas : ConfigTable :=
  ((ConfigTable.empty.insert
      { nodeId := 1, clientName := olgaLower, vpnType := .wireguard, haPrimaryConfigId := none,
        ownerId := 1 }).bind
    (·.insert
      { nodeId := 1, clientName := olga, vpnType := .amneziawg3, haPrimaryConfigId := none,
        ownerId := 2 })).get (by decide)

def bothOlgasDb : ConfigDb Bool where
  configs := bothOlgas
  policies := (Table.empty.set ⟨.wireguard, 1, "olga"⟩ true).set ⟨.amneziawg3, 1, "Olga"⟩ false
  links := [⟨"c_1", 1, "Olga", none, none⟩]

/-- The node lists the WireGuard client, and nobody asks for AmneziaWG 3. -/
def olgaListed : DiskImport where
  nodeId := 1
  ownerId := 1
  openvpn := []
  wireguard := [olgaLower]
  amneziawg2 := some []
  now := 0

/-- **The AmneziaWG 3 client is removed**, with its link, and with it goes the policy of the
WireGuard client that is still on the node. -/
theorem awg3_client_removed : ∃ db', importClientsFromDisk olgaListed bothOlgasDb =
      some (db', ⟨0, 1, false⟩) ∧
    db'.configs.row? 2 = none ∧ db'.policies.row? ⟨.wireguard, 1, "olga"⟩ = none ∧
    db'.links = [⟨"c_1", 1, "Olga", none, some 0⟩] ∧ ¬ Synced olgaListed bothOlgasDb db' := by
  have hRun : (importClientsFromDisk olgaListed bothOlgasDb).map (fun out =>
      (out.1.configs.row? 2, out.1.policies.row? ⟨.wireguard, 1, "olga"⟩, out.1.links, out.2)) =
      some (none, none, [⟨"c_1", 1, "Olga", none, some 0⟩], ⟨0, 1, false⟩) := by
    decide
  obtain ⟨⟨db', result⟩, hDone, hOut⟩ := map_eq_some_iff.mp hRun
  simp only [Prod.mk.injEq] at hOut
  obtain ⟨hRow, hPolicy, hLinks, rfl⟩ := hOut
  refine ⟨db', hDone, hRow, hPolicy, hLinks, fun hSynced => ?_⟩
  have hOld : ∃ row, bothOlgasDb.configs.row? 2 = some row ∧ row.nodeId = 1 ∧
      row.vpnType = .amneziawg3 := by
    have hSome : (bothOlgasDb.configs.row? 2).any
        (fun row => row.nodeId = 1 && row.vpnType = .amneziawg3) = true := by
      decide
    simpa [Option.any_eq_true] using hSome
  obtain ⟨row, hOld, hNode, hType⟩ := hOld
  obtain ⟨names, hListed, -⟩ := (hSynced.removed 2 row hOld hNode).mp hRow
  rw [hType] at hListed
  cases hListed

end AdminPanel.Panel
