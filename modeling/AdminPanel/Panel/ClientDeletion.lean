import AdminPanel.Panel.Database
import AdminPanel.Lib.Runs

/-!
# Deleting a client's access policy

`delete_client_access_policies` of `access_policy.py` removes the policy row of a
client that is deleted. It knows the tables of OpenVPN and of AmneziaWG2 and takes
the WireGuard table for everything else, so the row of an AmneziaWG 3 client stays
behind and the WireGuard row of the lower-cased name goes.

* `AccessKey` — the unique key of a policy row over the four tables, with
  `ClientConfig.accessKey` as the services compute it;
* `deleteClientAccessPolicies` — the function; `deletedKey`, `stillUsed` — the row it
  picks and when it leaves it;
* `clientStep` — creations, deletions and purges of shadow configs.

Main result: `deletion_exact` — a deletion removes the client's own row and no other
exactly when it is `CleanDeletion`, and in runs of clean deletions clients keep their
rows and reused names start without one.
-/

namespace AdminPanel.Panel

open Lib (Table exec Along invariant_exec)
open Lib.PyText (strip isSpace strip_of_not_space)

/-! ## Clients -/

/-- The pattern `^[a-zA-Z0-9_-]+$` of `VpnConfigCreate.client_name`. -/
def isNameChar (c : Char) : Bool := c.isAlphanum || c = '_' || c = '-'

structure ClientName where
  text : String
  charsOk : text.toList.all isNameChar = true
  lengthOk : 1 ≤ text.length ∧ text.length ≤ 32
  deriving DecidableEq

/-- A row of `vpn_configs`; `haPrimaryConfigId` is set for the shadows of a replica. -/
structure ClientConfig where
  nodeId : Nat
  clientName : ClientName
  vpnType : VpnType
  haPrimaryConfigId : Option Nat
  deriving DecidableEq

/-- A row of one of the four policy tables. -/
structure AccessKey where
  table : VpnType
  nodeId : Nat
  clientName : String
  deriving DecidableEq, Repr

/-- The name under which the service of a protocol keeps the policy of a client. -/
def accessName (vpnType : VpnType) (clientName : String) : String :=
  match vpnType with
  | .openvpn => clientName
  | .wireguard => lower (stripped clientName)
  | .amneziawg2 => lower (stripped clientName)
  | .amneziawg3 => stripped clientName

/-- The policy row of a client. -/
def ClientConfig.accessKey (config : ClientConfig) : AccessKey :=
  ⟨config.vpnType, config.nodeId, accessName config.vpnType config.clientName.text⟩

/-- Configs under their ids and the rows of the four policy tables; what a row holds
plays no part in a deletion. -/
structure ClientDb (ρ : Type) where
  configs : Table Nat ClientConfig
  policies : Table AccessKey ρ

variable {ρ : Type}

/-! ## delete_client_access_policies -/

/-- `model` and `policy_name` -/
def deletedKey (config : ClientConfig) : AccessKey :=
  match config.vpnType with
  | .openvpn => ⟨.openvpn, config.nodeId, config.clientName.text⟩
  | vpnType =>
    let model := if vpnType = .amneziawg2 then VpnType.amneziawg2 else .wireguard
    ⟨model, config.nodeId, lower (stripped config.clientName.text)⟩

def sameName (config other : ClientConfig) : Bool :=
  match config.vpnType with
  | .openvpn => other.clientName.text = config.clientName.text
  | _ => lower other.clientName.text = lower (stripped config.clientName.text)

/-- Some config but `id` has `p`. -/
def ClientDb.anyOther (db : ClientDb ρ) (id : Nat) (p : ClientConfig → Bool) : Bool :=
  db.configs.keys.any fun other => other ≠ id && (db.configs.row? other).any p

def stillUsed (db : ClientDb ρ) (id : Nat) (config : ClientConfig) : Bool :=
  db.anyOther id fun other =>
    other.nodeId = config.nodeId && other.vpnType = config.vpnType && sameName config other

/-- `delete_client_access_policies`, with the number of deleted rows. -/
def deleteClientAccessPolicies (db : ClientDb ρ) (id : Nat) (config : ClientConfig) :
    ClientDb ρ × Nat :=
  if stillUsed db id config then (db, 0)
  else
    ({ db with policies := db.policies.erase (deletedKey config) },
      if (db.policies.row? (deletedKey config)).isSome then 1 else 0)

variable {db : ClientDb ρ} {id : Nat}

theorem anyOther_iff {p : ClientConfig → Bool} : db.anyOther id p = true ↔
      ∃ other config, other ≠ id ∧ db.configs.row? other = some config ∧ p config = true := by
  simp only [ClientDb.anyOther, List.any_eq_true, Bool.and_eq_true, decide_eq_true_eq,
    Option.any_eq_true]
  constructor
  · rintro ⟨other, -, hNe, config, hRow, hP⟩
    exact ⟨other, config, hNe, hRow, hP⟩
  · rintro ⟨other, config, hNe, hRow, hP⟩
    exact ⟨other, Table.mem_keys_of_row? hRow, hNe, config, hRow, hP⟩

theorem row?_deleteClientAccessPolicies (db : ClientDb ρ) (id : Nat) (config : ClientConfig)
    (key : AccessKey) :
    (deleteClientAccessPolicies db id config).1.policies.row? key =
      if key = deletedKey config ∧ stillUsed db id config = false then none
      else db.policies.row? key := by
  unfold deleteClientAccessPolicies
  cases stillUsed db id config with
  | true => simp
  | false => simp [Table.row?_erase]

/-! ## Names -/

theorem not_isSpace_of_isNameChar {c : Char} (h : isNameChar c = true) : isSpace c = false := by
  simp only [isNameChar, Bool.or_eq_true, decide_eq_true_eq] at h
  rcases h with (hAlphanum | rfl) | rfl
  · exact Lib.PyText.not_isSpace_of_isAlphanum hAlphanum
  · decide
  · decide

/-- A name of the pattern has no white space to strip. -/
theorem ClientName.stripped_text (name : ClientName) : stripped name.text = name.text := by
  have hChars : ∀ c ∈ name.text.toList, isSpace c = false := by
    intro c hC
    exact not_isSpace_of_isNameChar (List.all_eq_true.mp name.charsOk c hC)
  rw [stripped, strip_of_not_space hChars, String.ofList_toList]

variable {config : ClientConfig}

/-- Outside AmneziaWG 3 the function picks the row of the client. -/
theorem deletedKey_eq_accessKey (h : config.vpnType ≠ .amneziawg3) :
    deletedKey config = config.accessKey := by
  unfold deletedKey ClientConfig.accessKey accessName
  cases hType : config.vpnType with
  | openvpn | wireguard | amneziawg2 => rfl
  | amneziawg3 => exact absurd hType h

/-- Outside AmneziaWG 3 `still_used` asks for another user of the row. -/
theorem sameName_iff_accessKey {other : ClientConfig} (h : config.vpnType ≠ .amneziawg3) :
    (other.nodeId = config.nodeId ∧ other.vpnType = config.vpnType ∧
        sameName config other = true) ↔ other.accessKey = config.accessKey := by
  unfold sameName ClientConfig.accessKey accessName
  simp only [ClientName.stripped_text, AccessKey.mk.injEq]
  constructor
  · rintro ⟨hNode, hType, hName⟩
    refine ⟨hType, hNode, ?_⟩
    rw [hType]
    cases hConfig : config.vpnType <;> simp_all
  · rintro ⟨hType, hNode, hName⟩
    refine ⟨hNode, hType, ?_⟩
    rw [hType] at hName
    cases hConfig : config.vpnType <;> simp_all

/-! ## One deletion -/

section

variable (db : ClientDb ρ) (id : Nat)

/-- Another config keeps its policy in the row. -/
def ClientDb.usedByOther (key : AccessKey) : Bool :=
  db.anyOther id fun other => other.accessKey = key

/-- The client's own row goes unless another config uses it; no other row changes. -/
def DeletesOwnRow (config : ClientConfig) : Prop :=
  ∀ key, (deleteClientAccessPolicies db id config).1.policies.row? key =
    if key = config.accessKey ∧ db.usedByOther id config.accessKey = false then none
    else db.policies.row? key

/-- Not AmneziaWG 3; or no row of its own to remove, and no WireGuard row of the
lower-cased name that would go instead. -/
def CleanDeletion (config : ClientConfig) : Prop :=
  config.vpnType ≠ .amneziawg3 ∨
    ((db.policies.row? config.accessKey = none ∨ db.usedByOther id config.accessKey = true) ∧
      (db.policies.row? (deletedKey config) = none ∨ stillUsed db id config = true))

instance (db : ClientDb ρ) (id : Nat) (config : ClientConfig) :
    Decidable (CleanDeletion db id config) := by
  unfold CleanDeletion
  exact inferInstance

theorem stillUsed_eq_usedByOther (h : config.vpnType ≠ .amneziawg3) :
    stillUsed db id config = db.usedByOther id config.accessKey := by
  unfold stillUsed ClientDb.usedByOther
  congr 1
  funext other
  have hIff : _ ↔ other.accessKey = config.accessKey := sameName_iff_accessKey h
  rw [Bool.eq_iff_iff]
  simpa [and_assoc] using hIff

theorem deletedKey_table (h : config.vpnType = .amneziawg3) :
    (deletedKey config).table = .wireguard := by
  simp [deletedKey, h]

/-- **A deletion removes the client's own row and nobody else's exactly when it is
clean.** -/
theorem deletesOwnRow_iff (config : ClientConfig) :
    DeletesOwnRow db id config ↔ CleanDeletion db id config := by
  unfold DeletesOwnRow CleanDeletion
  simp only [row?_deleteClientAccessPolicies]
  by_cases hType : config.vpnType = .amneziawg3
  · -- the row it picks is one of the WireGuard table
    have hOther : deletedKey config ≠ config.accessKey := by
      intro h
      have hTable := congrArg AccessKey.table h
      rw [deletedKey_table hType] at hTable
      exact absurd (hTable.trans hType) (by decide)
    simp only [hType, ne_eq, not_true_eq_false, false_or]
    constructor
    · intro h
      have hOwn := h config.accessKey
      have hPicked := h (deletedKey config)
      simp only [hOther, hOther.symm, false_and, if_false, true_and] at hOwn hPicked
      constructor
      · cases hUsed : db.usedByOther id config.accessKey with
        | true => exact .inr rfl
        | false => exact .inl (by simpa [hUsed] using hOwn)
      · cases hUsed : stillUsed db id config with
        | true => exact .inr rfl
        | false => exact .inl (by simpa [hUsed] using hPicked.symm)
    · rintro ⟨hOwn, hPicked⟩ key
      have hLeft : (if key = deletedKey config ∧ stillUsed db id config = false then none
          else db.policies.row? key) = db.policies.row? key := by
        split
        · next hKey =>
          rcases hPicked with hNone | hUsed
          · rw [hKey.1, hNone]
          · exact absurd (hKey.2.symm.trans hUsed) (by decide)
        · rfl
      rw [hLeft]
      split
      · next hKey =>
        rcases hOwn with hNone | hUsed
        · rw [hKey.1, hNone]
        · exact absurd (hKey.2.symm.trans hUsed) (by decide)
      · rfl
  · rw [deletedKey_eq_accessKey hType, stillUsed_eq_usedByOther db id hType]
    exact ⟨fun _ => .inl hType, fun _ _ => rfl⟩

/-! ## Creations and deletions -/

inductive ClientStep where
  /-- a new config, under the unique constraint of the table -/
  | create (id : Nat) (config : ClientConfig)
  | delete (id : Nat)
  /-- `purge_ha_shadow_configs` -/
  | purge (primaryConfigId : Nat)
  deriving DecidableEq

def ClientConfig.sameEntry (a b : ClientConfig) : Bool :=
  a.nodeId = b.nodeId && a.clientName = b.clientName && a.vpnType = b.vpnType

def clientStep : ClientStep → Option (ClientDb ρ)
  | .create id config =>
    if (db.configs.row? id).isSome || db.anyOther id config.sameEntry then none
    else some { db with configs := db.configs.set id config }
  | .delete id =>
    (db.configs.row? id).map fun config =>
      { (deleteClientAccessPolicies db id config).1 with configs := db.configs.erase id }
  | .purge primaryConfigId =>
    some { db with
      configs := db.configs.filter fun _ config =>
        config.haPrimaryConfigId ≠ some primaryConfigId }

/-- A step that removes the config. -/
def ClientStep.removes (step : ClientStep) (id : Nat) (config : ClientConfig) : Bool :=
  match step with
  | .create _ _ => false
  | .delete removed => removed = id
  | .purge primaryConfigId => config.haPrimaryConfigId = some primaryConfigId

/-- Deletions are clean, and the row of a purged shadow is not there or used by a config
that stays. -/
def CleanStep : ClientStep → Prop
  | .create _ _ => True
  | .delete id => ∀ config, db.configs.row? id = some config → CleanDeletion db id config
  | .purge primaryConfigId => ∀ id config, db.configs.row? id = some config →
      config.haPrimaryConfigId = some primaryConfigId →
      db.policies.row? config.accessKey = none ∨
        ∃ other kept, db.configs.row? other = some kept ∧
          kept.haPrimaryConfigId ≠ some primaryConfigId ∧ kept.accessKey = config.accessKey

end

/-- A row that has no config of its own is not there. -/
def Tended (key : AccessKey) (db : ClientDb ρ) : Prop :=
  db.policies.row? key = none ∨
    ∃ id config, db.configs.row? id = some config ∧ config.accessKey = key

section

variable {db db' : ClientDb ρ} {step : ClientStep}

/-- What a step does to the configs. -/
theorem row?_configs_step (h : clientStep db step = some db')
    (hRow : db.configs.row? id = some config) :
    db'.configs.row? id = if step.removes id config then none else some config := by
  cases step with
  | create newId newConfig =>
    simp only [clientStep, Option.ite_none_left_eq_some, Option.some.injEq] at h
    obtain ⟨hFree, rfl⟩ := h
    have hNe : id ≠ newId := by
      rintro rfl
      simp [hRow] at hFree
    simp [ClientStep.removes, Table.row?_set_of_ne _ _ hNe, hRow]
  | delete removed =>
    simp only [clientStep, Option.map_eq_some_iff] at h
    obtain ⟨c, -, rfl⟩ := h
    simp only [ClientStep.removes, Table.row?_erase, hRow, decide_eq_true_eq,
      @eq_comm _ removed id]
  | purge primaryConfigId =>
    simp only [clientStep, Option.some.injEq] at h
    subst h
    simp only [ClientStep.removes, Table.row?_filter, hRow]
    by_cases hShadow : config.haPrimaryConfigId = some primaryConfigId
    · simp [hShadow]
    · simp [hShadow]

/-- What a clean step does to a policy row. -/
theorem row?_policies_step (hClean : CleanStep db step) (h : clientStep db step = some db')
    (key : AccessKey) :
    db'.policies.row? key = db.policies.row? key ∨
      (db'.policies.row? key = none ∧ ∃ id config, step = .delete id ∧
        db.configs.row? id = some config ∧ config.accessKey = key ∧
        db.usedByOther id key = false) := by
  cases step with
  | create id config =>
    simp only [clientStep, Option.ite_none_left_eq_some, Option.some.injEq] at h
    exact .inl (h.2 ▸ rfl)
  | purge primaryConfigId =>
    simp only [clientStep, Option.some.injEq] at h
    exact .inl (h ▸ rfl)
  | delete id =>
    simp only [clientStep, Option.map_eq_some_iff] at h
    obtain ⟨config, hRow, rfl⟩ := h
    have hExact := (deletesOwnRow_iff db id config).mpr (hClean config hRow) key
    by_cases hKey : key = config.accessKey ∧ db.usedByOther id config.accessKey = false
    · rw [if_pos hKey] at hExact
      exact .inr ⟨hExact, id, config, rfl, hRow, hKey.1.symm, hKey.1 ▸ hKey.2⟩
    · rw [if_neg hKey] at hExact
      exact .inl hExact

/-- A client that the step does not remove keeps its row. -/
theorem kept_step (hClean : CleanStep db step)
    (h : clientStep db step = some db') (hRow : db.configs.row? id = some config)
    (hStays : step.removes id config = false) :
    db'.configs.row? id = some config ∧
      db'.policies.row? config.accessKey = db.policies.row? config.accessKey := by
  refine ⟨by rw [row?_configs_step h hRow, hStays]; rfl, ?_⟩
  rcases row?_policies_step hClean h config.accessKey with hSame | hGone
  · exact hSame
  · obtain ⟨-, removed, other, rfl, -, -, hUnused⟩ := hGone
    have hNe : id ≠ removed := by
      rintro rfl
      simp [ClientStep.removes] at hStays
    have hUsed : db.usedByOther removed config.accessKey = true :=
      anyOther_iff.mpr ⟨id, config, hNe, hRow, by simp⟩
    exact absurd (hUnused.symm.trans hUsed) (by decide)

/-- Of a removed client no row stays behind without a config. -/
theorem tended_of_removed (hClean : CleanStep db step)
    (h : clientStep db step = some db') (hRow : db.configs.row? id = some config)
    (hRemoves : step.removes id config = true) : Tended config.accessKey db' := by
  have hStays : ∀ other kept, db.configs.row? other = some kept →
      step.removes other kept = false → kept.accessKey = config.accessKey →
      Tended config.accessKey db' := by
    intro other kept hOther hKept hKey
    exact .inr ⟨other, kept, (kept_step hClean h hOther hKept).1, hKey⟩
  cases step with
  | create newId newConfig => simp [ClientStep.removes] at hRemoves
  | delete removed =>
    obtain rfl : removed = id := by simpa [ClientStep.removes] using hRemoves
    have hExact := (deletesOwnRow_iff db removed config).mpr (hClean config hRow) config.accessKey
    cases hUsed : db.usedByOther removed config.accessKey with
    | true =>
      obtain ⟨other, kept, hNe, hOther, hKey⟩ := anyOther_iff.mp hUsed
      exact hStays other kept hOther (by simpa [ClientStep.removes] using hNe.symm)
        (by simpa using hKey)
    | false =>
      rw [if_pos ⟨rfl, hUsed⟩] at hExact
      simp only [clientStep, hRow, Option.map_some, Option.some.injEq] at h
      exact .inl (h ▸ hExact)
  | purge primaryConfigId =>
    have hShadow : config.haPrimaryConfigId = some primaryConfigId := by
      simpa [ClientStep.removes] using hRemoves
    rcases hClean id config hRow hShadow with hNone | ⟨other, kept, hOther, hPrimary, hKey⟩
    · simp only [clientStep, Option.some.injEq] at h
      exact .inl (h ▸ hNone)
    · exact hStays other kept hOther (by simpa [ClientStep.removes] using hPrimary) hKey

/-- A row that is tended to stays so. -/
theorem tended_step {key : AccessKey} (hInv : Tended key db) (hClean : CleanStep db step)
    (h : clientStep db step = some db') : Tended key db' := by
  rcases hInv with hNone | ⟨id, config, hRow, rfl⟩
  · rcases row?_policies_step hClean h key with hSame | hGone
    · exact .inl (hSame.trans hNone)
    · exact .inl hGone.1
  · cases hRemoves : step.removes id config with
    | false =>
      exact .inr ⟨id, config, (kept_step hClean h hRow hRemoves).1, rfl⟩
    | true => exact tended_of_removed hClean h hRow hRemoves

end

/-! ## Runs -/

/-- A client that no step removes is still there, with the row it had. -/
theorem kept_run {t : ClientDb ρ} {steps : List ClientStep}
    (hClean : Along clientStep CleanStep db steps) (hExec : exec clientStep db steps = some t)
    (hRow : db.configs.row? id = some config)
    (hStays : ∀ step ∈ steps, step.removes id config = false) :
    t.configs.row? id = some config ∧
      t.policies.row? config.accessKey = db.policies.row? config.accessKey := by
  induction steps generalizing db with
  | nil =>
    rw [Lib.exec_nil] at hExec
    exact Option.some.inj hExec ▸ ⟨hRow, rfl⟩
  | cons step steps ih =>
    obtain ⟨u, hu, hut⟩ := Lib.exec_cons_iff.mp hExec
    rw [List.forall_mem_cons] at hStays
    obtain ⟨hRowU, hSame⟩ := kept_step hClean.1 hu hRow hStays.1
    obtain ⟨hRowT, hSameT⟩ := ih (hClean.2 u hu) hut hRowU hStays.2
    exact ⟨hRowT, hSameT.trans hSame⟩

/-- A name that is used again after its client was removed starts without a row. -/
theorem reused_fresh {t t' : ClientDb ρ} {gone : ClientStep} {steps : List ClientStep}
    {newId : Nat} {newConfig : ClientConfig}
    (hClean : Along clientStep CleanStep db (gone :: steps))
    (hRow : db.configs.row? id = some config) (hGone : gone.removes id config = true)
    (hExec : exec clientStep db (gone :: steps) = some t)
    (hCreate : clientStep t (.create newId newConfig) = some t')
    (hReused : newConfig.accessKey = config.accessKey)
    (hOnly : t'.usedByOther newId config.accessKey = false) :
    t'.policies.row? newConfig.accessKey = none := by
  obtain ⟨u, hu, hut⟩ := Lib.exec_cons_iff.mp hExec
  have hTended : Tended config.accessKey t :=
    invariant_exec (fun _ _ _ hInv hStep h => tended_step hInv hStep h)
      (tended_of_removed hClean.1 hu hRow hGone) (hClean.2 u hu) hut
  have hFree : CleanStep t (.create newId newConfig) := trivial
  rcases row?_policies_step hFree hCreate newConfig.accessKey with hSame | hDeleted
  · rw [hSame, hReused]
    rcases hTended with hNone | ⟨other, kept, hOther, hKey⟩
    · exact hNone
    -- a config that still used the row would be another one than the new
    have hStill := row?_configs_step hCreate hOther
    have hNe : other ≠ newId := by
      rintro rfl
      simp [clientStep, hOther] at hCreate
    have hUsed : t'.usedByOther newId config.accessKey = true :=
      anyOther_iff.mpr ⟨other, kept, hNe, hStill, by simpa using hKey⟩
    exact absurd (hOnly.symm.trans hUsed) (by decide)
  · exact hDeleted.1

/-- **Deleting a client.** `delete_client_access_policies` removes the client's own row
and nobody else's exactly when the deletion is clean. In any run of creations, clean
deletions and purges, a client that stays keeps its row, and a client created with the
name of a removed one, which no other config uses, starts without a row. -/
theorem deletion_exact :
    (∀ (db : ClientDb ρ) (id : Nat) (config : ClientConfig),
      DeletesOwnRow db id config ↔ CleanDeletion db id config) ∧
    (∀ (db t : ClientDb ρ) (steps : List ClientStep) (id : Nat) (config : ClientConfig),
      Along clientStep CleanStep db steps → exec clientStep db steps = some t →
      db.configs.row? id = some config → (∀ step ∈ steps, step.removes id config = false) →
      t.policies.row? config.accessKey = db.policies.row? config.accessKey) ∧
    (∀ (db t t' : ClientDb ρ) (gone : ClientStep) (steps : List ClientStep) (id newId : Nat)
        (config newConfig : ClientConfig),
      Along clientStep CleanStep db (gone :: steps) →
      db.configs.row? id = some config → gone.removes id config = true →
      exec clientStep db (gone :: steps) = some t →
      clientStep t (.create newId newConfig) = some t' →
      newConfig.accessKey = config.accessKey →
      t'.usedByOther newId config.accessKey = false →
      t'.policies.row? newConfig.accessKey = none) := by
  refine ⟨deletesOwnRow_iff, ?_, ?_⟩
  · intro db t steps id config hClean hExec hRow hStays
    exact (kept_run hClean hExec hRow hStays).2
  · intro db t t' gone steps id newId config newConfig hClean hRow hGone hExec hCreate hReused hOnly
    exact reused_fresh hClean hRow hGone hExec hCreate hReused hOnly

/-! ## An AmneziaWG 3 client -/

def olga : ClientName := ⟨"Olga", by decide, by decide⟩

/-- Olga on WireGuard and on AmneziaWG 3 of node 1, with a row in either table. -/
def olgaTwice : ClientDb Bool where
  configs := (Table.empty.set 1 ⟨1, olga, .wireguard, none⟩).set 2 ⟨1, olga, .amneziawg3, none⟩
  policies :=
    (Table.empty.set ⟨.wireguard, 1, "olga"⟩ true).set ⟨.amneziawg3, 1, "Olga"⟩ false

/-- Deleting the AmneziaWG 3 client leaves its row and takes the WireGuard client's. -/
theorem awg3_deletion_takes_wireguard_row :
    let config : ClientConfig := ⟨1, olga, .amneziawg3, none⟩
    let after := (deleteClientAccessPolicies olgaTwice 2 config).1
    olgaTwice.configs.row? 2 = some config ∧ ¬ DeletesOwnRow olgaTwice 2 config ∧
      after.policies.row? ⟨.amneziawg3, 1, "Olga"⟩ = some false ∧
      after.policies.row? ⟨.wireguard, 1, "olga"⟩ = none := by
  refine ⟨by decide, ?_, by decide, by decide⟩
  rw [deletesOwnRow_iff]
  decide

/-- The WireGuard client deleted and created again starts without its row, and the
AmneziaWG 3 client keeps its own. -/
theorem wireguard_recreated_fresh : let wireguard : ClientConfig := ⟨1, olga, .wireguard, none⟩
    ∃ t t', exec clientStep olgaTwice [.delete 1] = some t ∧
      clientStep t (.create 3 wireguard) = some t' ∧
      t'.policies.row? wireguard.accessKey = none ∧
      t.policies.row? ⟨.amneziawg3, 1, "Olga"⟩ = some false := by
  intro wireguard
  have hRow : olgaTwice.configs.row? 1 = some wireguard := by decide
  have hClean : Along clientStep CleanStep olgaTwice [.delete 1] := by
    refine ⟨fun config hConfig => .inl ?_, fun _ _ => trivial⟩
    rw [← Option.mem_unique hRow hConfig]
    decide
  refine ⟨_, _, rfl, rfl, ?_, ?_⟩
  · exact deletion_exact.2.2 olgaTwice _ _ (.delete 1) [] 1 3 wireguard wireguard hClean hRow
      rfl rfl rfl rfl (by decide)
  · have hKey : (⟨.amneziawg3, 1, "Olga"⟩ : AccessKey) =
        (⟨1, olga, .amneziawg3, none⟩ : ClientConfig).accessKey := by decide
    rw [hKey, deletion_exact.2.1 olgaTwice _ [.delete 1] 2 ⟨1, olga, .amneziawg3, none⟩ hClean rfl
      (by decide) (by decide)]
    decide

end AdminPanel.Panel
