import AdminPanel.Awg3.Clients
import AdminPanel.Panel.Database

/-!
# Creating and deleting AmneziaWG 3 clients

The AmneziaWG 3 branches of `create_config` and `delete_config`: two records on the node and one
row of the panel. When the second record fails, the first is deleted again.

* `createConfig`, `deleteConfig` — with the steps that fail;
* `Outline` — a state up to the keys, the addresses and the ports of a new client;
* `Repeatable` — a request that has failed can be repeated;
* `harmless` — the failures after which it can;
* `repeatable_iff`.
-/

namespace AdminPanel.Awg3Clients

open Option List

open Lib (Table)
open Panel (VpnType lower)

/-! ## The requests -/

/-- A row of `vpn_configs` of the node. -/
structure PanelRow where
  clientName : String
  vpnType : VpnType
  deriving DecidableEq, Repr

structure Panel where
  node : Node
  rows : List PanelRow

inductive Request
  | create (name : String)
  | delete (name : String)
  deriving DecidableEq, Repr

def Request.name : Request → String
  | .create name => name
  | .delete name => name

/-- The draws for both records. -/
structure Draws where
  split : Draw
  full : Draw
  deriving DecidableEq, Repr

/-- What fails. A fault at a step that a request does not come to has no effect. -/
structure Faults where
  /-- The checks and queries before anything is done. -/
  check : Bool := false
  split : Option CreationStep := none
  full : Option CreationStep := none
  /-- A step of the compensation, by the place of its record. -/
  undo : Option (ℕ × RemovalStep) := none
  undoAnswer : Bool := false
  removal : Option (ℕ × RemovalStep) := none
  removalAnswer : Bool := false
  /-- It comes after the commit of a creation, and before that of a deletion. -/
  replication : Bool := false
  commit : Bool := false
  deriving DecidableEq, Repr

/-- `delete_client` by way of the adapter, whose answer may be lost. -/
def adapterDelete (s : Node) (name : String) (fault : Option (ℕ × RemovalStep)) (answer : Bool) :
    Node × Option Refusal :=
  match deleteClient s name fault with
  | (s', none) => (s', if answer then some .fault else none)
  | failed => failed

/-- Both records; the first goes if the second fails. -/
def createRecords (env : Env) (s : Node) (name : String) (draws : Draws) (f : Faults) :
    Node × Option Refusal :=
  match createClient env s (profileRecord name .split) .split draws.split f.split with
  | (s₁, some refusal) => (s₁, some refusal)
  | (s₁, none) =>
    match createClient env s₁ (profileRecord name .full) .full draws.full f.full with
    | (s₂, none) => (s₂, none)
    | (s₂, some refusal) =>
      let undone := adapterDelete s₂ (profileRecord name .split) f.undo f.undoAnswer
      (undone.1, some (undone.2.getD refusal))

/-- `RESERVED_CLIENT_NAME_PREFIXES` -/
def reservedPrefixes : List String := ["vpn-", "antizapret-"]

/-- The checks of `create_config` on the name, with `validate_new_client_name`. -/
def admits (rows : List PanelRow) (name : String) : Bool :=
  !rows.contains ⟨name, .amneziawg3⟩ &&
    !reservedPrefixes.any (fun start => start.toList.isPrefixOf (lower name).toList) &&
    !rows.any (fun row => lower row.clientName = lower name && row.clientName ≠ name) &&
    name.length ≤ baseNameMax

def createConfig (env : Env) (p : Panel) (name : String) (draws : Draws) (f : Faults) :
    Panel × Option Refusal :=
  if !admits p.rows name then (p, some .badName)
  else if f.check then (p, some .fault)
  else
    match createRecords env p.node name draws f with
    | (s, some refusal) => ({ p with node := s }, some refusal)
    | (s, none) =>
      if f.commit then ({ p with node := s }, some .fault)
      else (⟨s, p.rows ++ [⟨name, .amneziawg3⟩]⟩, if f.replication then some .fault else none)

def deleteConfig (p : Panel) (name : String) (f : Faults) : Panel × Option Refusal :=
  if !p.rows.contains ⟨name, .amneziawg3⟩ then (p, some .notFound)
  else if f.check then (p, some .fault)
  else
    match adapterDelete p.node name f.removal f.removalAnswer with
    | (s, some refusal) => ({ p with node := s }, some refusal)
    | (s, none) =>
      if f.replication || f.commit then ({ p with node := s }, some .fault)
      else (⟨s, p.rows.filter (· ≠ ⟨name, .amneziawg3⟩)⟩, none)

def perform (env : Env) (p : Panel) (request : Request) (draws : Draws) (f : Faults) :
    Panel × Option Refusal :=
  match request with
  | .create name => createConfig env p name draws f
  | .delete name => deleteConfig p name f

/-! ## Repeating a request -/

/-- Without its keys, its address and its port. -/
def Record.blank (record : Record) : Record :=
  { record with publicKey := "", ip := "", port := none, psk := "", privateKey := "" }

def Profile.blank (profile : Profile) : Profile :=
  { profile with privateKey := "", ip := "", psk := "", port := 0 }

def PeerBlock.blank (block : PeerBlock) : PeerBlock := ⟨block.name, "", "", ""⟩

/-- A state up to the keys, the addresses and the ports of some records. -/
@[ext] structure Outline where
  rows : List PanelRow
  registry : String → Option Record
  /-- The live peers of others. -/
  live : String → Option Peer
  /-- Whether the records have their own live peers. -/
  served : List (Option Bool)
  interface : List (String × String)
  peers : List PeerBlock
  profiles : Mode × String → Option Profile

def Panel.outline (p : Panel) (own : List String) : Outline where
  rows := p.rows
  registry := fun r => (p.node.registry.row? r).map fun record =>
    if r ∈ own then record.blank else record
  live := fun key => if key ∈ p.node.ownKeys own then none else p.node.live.row? key
  served := own.map fun r =>
    (p.node.registry.row? r).map fun record => (p.node.live.row? record.publicKey).isSome
  interface := p.node.conf.interface
  peers := p.node.conf.peers.map fun block =>
    if block.publicKey ∈ p.node.ownKeys own then block.blank else block
  profiles := fun file => (p.node.profiles.row? file).map fun profile =>
    if file.2 ∈ own then profile.blank else profile

/-- The records that a request makes. -/
def Request.own : Request → List String
  | .create name => [profileRecord name .split, profileRecord name .full]
  | .delete _ => []

/-- Repeating the request without a fault succeeds, with the state that it would have had at
once. -/
def Repeatable (env : Env) (p : Panel) (request : Request) (draws again : Draws) (f : Faults) :
    Prop :=
  let failed := (perform env p request draws f).1
  (perform env failed request again {}).2 = none ∧
    (perform env failed request again {}).1.outline request.own =
      (perform env p request draws {}).1.outline request.own

/-- The keys that two attempts draw. -/
def drawnKeys (env : Env) (draws again : Draws) : List String :=
  [draws.split, draws.full, again.split, again.full].map fun draw => env.publicOf draw.privateKey

/-- `awg genkey` draws keys that nobody has. -/
structure Fresh (env : Env) (s : Node) (draws again : Draws) : Prop where
  nodup : (drawnKeys env draws again).Nodup
  live : ∀ key ∈ drawnKeys env draws again, s.live.row? key = none
  blocks : ∀ key ∈ drawnKeys env draws again, ∀ block ∈ s.conf.peers, block.publicKey ≠ key

/-- A creation has done nothing yet. -/
def CreationStep.early : CreationStep → Bool
  | .prepare => true
  | .peer added => !added
  | _ => false

/-- What a failed rewriting has left of the server config is, but for the peers still to be
deleted, the rest of it. -/
def RemovalStep.keepsConf (s : Node) (records rest : List String) : RemovalStep → Bool
  | .rewrite left => left.dropAll (s.ownKeys rest) = s.conf.dropAll (s.ownKeys records)
  | _ => true

/-- Nothing has been done, or all of it has been undone, or a record is still there to be
deleted. -/
def harmless (p : Panel) (f : Faults) : Request → Bool
  | .create _ => f.check || f.split.any CreationStep.early ||
    (f.split = none && f.full.any CreationStep.early && !f.undo.any fun (k, _) => k = 0)
  | .delete name => f.check || f.removal.any fun (k, step) =>
    k < (targets p.node name).length &&
      step.keepsConf p.node (targets p.node name) ((targets p.node name).drop k)

/-! ## Deleting -/

variable {env : Env} {p q : Panel} {s s' t t' w : Node} {name r : String} {draws again : Draws}
  {f : Faults} {record : Record} {step : RemovalStep} {own : List String} {k : ℕ}

/-- The nodes have the same contents. -/
structure SameContents (s s' : Node) : Prop where
  registry : ∀ r, s.registry.row? r = s'.registry.row? r
  live : ∀ key, s.live.row? key = s'.live.row? key
  conf : s.conf = s'.conf
  profiles : ∀ file, s.profiles.row? file = s'.profiles.row? file

theorem outline_congr (hRows : p.rows = q.rows) (h : SameContents p.node q.node)
    (own : List String) : p.outline own = q.outline own := by
  have hKeys : p.node.ownKeys own = q.node.ownKeys own :=
    ownKeys_congr fun r _ => h.registry r
  simp only [Panel.outline, hRows, hKeys, h.registry, h.live, h.conf, h.profiles]

theorem conf_of_outline (h : p.outline [] = q.outline []) : p.node.conf = q.node.conf := by
  have hInterface : p.node.conf.interface = q.node.conf.interface := congrArg Outline.interface h
  have hPeers : p.node.conf.peers = q.node.conf.peers := by
    have hMapped := congrArg Outline.peers h
    simpa [Panel.outline, Node.ownKeys] using hMapped
  calc p.node.conf = ⟨p.node.conf.interface, p.node.conf.peers⟩ := rfl
    _ = q.node.conf := by rw [hInterface, hPeers]

theorem registry_of_outline (h : p.outline [] = q.outline []) (r : String) :
    p.node.registry.row? r = q.node.registry.row? r := by
  have hMapped := congrFun (congrArg Outline.registry h) r
  simpa [Panel.outline] using hMapped

/-- A fault at a record leaves it in the registry, and nothing but its own is gone. -/
theorem removed_fault (w : Node) (r : String) (record : Record) (step : RemovalStep) :
    (w.removed r record (some step)).registry = w.registry ∧
      (∀ key, key ≠ record.publicKey →
        (w.removed r record (some step)).live.row? key = w.live.row? key) ∧
      (∀ file, file ≠ (record.modeOf, r) →
        (w.removed r record (some step)).profiles.row? file = w.profiles.row? file) ∧
      ((∃ left, step = .rewrite left ∧ (w.removed r record (some step)).conf = left) ∨
        (∀ s records rest, step.keepsConf s records rest = true) ∧
          ((w.removed r record (some step)).conf = w.conf ∨
            (w.removed r record (some step)).conf = w.conf.drop record.publicKey)) := by
  have hLive : ∀ key, key ≠ record.publicKey →
      (w.live.erase record.publicKey).row? key = w.live.row? key := fun key hOther => by
    rw [Table.row?_erase, if_neg hOther]
  cases step with
  | load =>
    exact ⟨rfl, fun _ _ => rfl, fun _ _ => rfl, .inr ⟨fun _ _ _ => rfl, .inl rfl⟩⟩
  | peer removed =>
    cases removed with
    | false => exact ⟨rfl, fun _ _ => rfl, fun _ _ => rfl, .inr ⟨fun _ _ _ => rfl, .inl rfl⟩⟩
    | true => exact ⟨rfl, hLive, fun _ _ => rfl, .inr ⟨fun _ _ _ => rfl, .inl rfl⟩⟩
  | rewrite left => exact ⟨rfl, hLive, fun _ _ => rfl, .inl ⟨left, rfl, rfl⟩⟩
  | unlink => exact ⟨rfl, hLive, fun _ _ => rfl, .inr ⟨fun _ _ _ => rfl, .inr rfl⟩⟩
  | save =>
    refine ⟨rfl, hLive, fun file hOther => ?_, .inr ⟨fun _ _ _ => rfl, .inr rfl⟩⟩
    show (w.profiles.erase (record.modeOf, r)).row? file = _
    rw [Table.row?_erase, if_neg hOther]

section

variable {records : List String}

/-- Deleting the records that a fault has left comes to deleting all of them at once. -/
theorem completed (hNodup : records.Nodup) (hK : k < records.length)
    (hBefore : Without s (records.take k) w) (hRow : w.registry.row? records[k] = some record)
    (hAfter : Without (w.removed records[k] record (some step)) (records.drop k) t')
    (hAll : Without s records t) :
    (∀ r, t'.registry.row? r = t.registry.row? r) ∧ (∀ key, t'.live.row? key = t.live.row? key) ∧
      (∀ file, t'.profiles.row? file = t.profiles.row? file) ∧
      (step.keepsConf s records (records.drop k) = true ↔ t'.conf = t.conf) := by
  obtain ⟨hRegistry, hLive, hProfiles, hConf⟩ := removed_fault w records[k] record step
  -- the records before the fault are gone; the second request has the rest
  have hParts : records = records.take k ++ records.drop k := (take_append_drop k records).symm
  have hApart : ∀ r ∈ records.drop k, r ∉ records.take k := by
    intro r hMem
    rw [← filter_not_mem_take hNodup] at hMem
    exact of_decide_eq_true (mem_filter.mp hMem).2
  have hMem : ∀ r, r ∈ records ↔ r ∈ records.take k ∨ r ∈ records.drop k := by
    intro r
    rw [← mem_append, ← hParts]
  have hSame : ∀ r ∈ records.drop k,
      (w.removed records[k] record (some step)).registry.row? r = s.registry.row? r := by
    intro r hIn
    rw [hRegistry, hBefore.registry, if_neg (hApart r hIn)]
  have hKeys : s.ownKeys records = s.ownKeys (records.take k) ++ s.ownKeys (records.drop k) := by
    rw [← ownKeys_append, ← hParts]
  have hNow : records[k] ∈ records.drop k := by
    rw [drop_eq_getElem_cons hK]
    exact mem_cons_self
  have hRowS : s.registry.row? records[k] = some record := by
    rw [← hSame _ hNow, hRegistry, hRow]
  -- the registry still has the record at the fault
  have hOwn : record.publicKey ∈ s.ownKeys (records.drop k) :=
    mem_filterMap.mpr ⟨records[k], hNow, by rw [hRowS]; rfl⟩
  refine ⟨?_, ?_, ?_, ?_⟩
  · intro r
    rw [hAfter.registry, hRegistry, hBefore.registry, hAll.registry]
    by_cases hDrop : r ∈ records.drop k
    · rw [if_pos hDrop, if_pos ((hMem r).mpr (.inr hDrop))]
    · by_cases hTake : r ∈ records.take k
      · rw [if_neg hDrop, if_pos hTake, if_pos ((hMem r).mpr (.inl hTake))]
      · rw [if_neg hDrop, if_neg hTake, if_neg fun h => ((hMem r).mp h).elim hTake hDrop]
  · intro key
    rw [hAfter.live, ownKeys_congr hSame, hAll.live, hKeys]
    by_cases hDrop : key ∈ s.ownKeys (records.drop k)
    · rw [if_pos hDrop, if_pos (mem_append_right _ hDrop)]
    · rw [if_neg hDrop, hLive key fun h => hDrop (h ▸ hOwn), hBefore.live]
      by_cases hTake : key ∈ s.ownKeys (records.take k)
      · rw [if_pos hTake, if_pos (mem_append_left _ hTake)]
      · rw [if_neg hTake, if_neg fun h => (mem_append.mp h).elim hTake hDrop]
  · intro file
    have hLater : (w.removed records[k] record (some step)).ownsFile (records.drop k) file ↔
        s.ownsFile (records.drop k) file :=
      and_congr_right fun hIn => by rw [hSame _ hIn]
    have hSplit : s.ownsFile records file ↔
        s.ownsFile (records.take k) file ∨ s.ownsFile (records.drop k) file := by
      unfold Node.ownsFile
      rw [hMem, or_and_right]
    by_cases hDrop : s.ownsFile (records.drop k) file
    · rw [(hAfter.profiles file).1 (hLater.mpr hDrop),
        (hAll.profiles file).1 (hSplit.mpr (.inr hDrop))]
    · rw [(hAfter.profiles file).2 (mt hLater.mp hDrop), hProfiles]
      · by_cases hTake : s.ownsFile (records.take k) file
        · rw [(hBefore.profiles file).1 hTake, (hAll.profiles file).1 (hSplit.mpr (.inl hTake))]
        · rw [(hBefore.profiles file).2 hTake,
            (hAll.profiles file).2 fun h => (hSplit.mp h).elim hTake hDrop]
      · rintro rfl
        exact hDrop ⟨hNow, by rw [hRowS]; rfl⟩
  · rw [hAfter.conf, hAll.conf, ownKeys_congr hSame]
    -- `awg1.conf` is half written, as it was, or without the block
    rcases hConf with ⟨left, rfl, hLeft⟩ | ⟨hKeeps, hKept | hDropped⟩
    · rw [hLeft]
      exact decide_eq_true_iff
    · rw [hKept, hBefore.conf, Conf.dropAll_dropAll, hKeys]
      exact iff_of_true (hKeeps _ _ _) rfl
    · rw [hDropped, hBefore.conf, Conf.drop_eq, Conf.dropAll_dropAll, Conf.dropAll_dropAll, hKeys]
      refine iff_of_true (hKeeps _ _ _) (Conf.dropAll_congr _ fun key => ?_)
      rw [mem_append, mem_append, mem_append, mem_singleton]
      constructor
      · rintro (hTake | rfl | hDrop)
        · exact .inl hTake
        · exact .inr hOwn
        · exact .inr hDrop
      · exact Or.imp id .inr

theorem targets_ne_nil (s : Node) (name : String) : targets s name ≠ [] := by
  unfold targets recordsFor
  dsimp only
  split_ifs with _ hPair
  · exact cons_ne_nil _ _
  · exact hPair
  · exact cons_ne_nil _ _

theorem deleteClient_ok (h : (deleteClient s name none).2 = none) :
    (∀ r ∈ targets s name, (s.registry.row? r).isSome = true) ∧
      Without s (targets s name) (deleteClient s name none).1 := by
  have hIn := deleteRecords_ok (targets_nodup s name) h
  obtain ⟨t, hDone, hWithout⟩ := deleteRecords_none hIn (targets_nodup s name)
  refine ⟨hIn, ?_⟩
  rw [deleteClient, hDone]
  exact hWithout

end

theorem deleteConfig_first (hRow : p.rows.contains ⟨name, .amneziawg3⟩ = true) :
    deleteConfig p name {} = match deleteClient p.node name none with
      | (s, some refusal) => ({ p with node := s }, some refusal)
      | (s, none) => (⟨s, p.rows.filter (· ≠ ⟨name, .amneziawg3⟩)⟩, none) := by
  unfold deleteConfig adapterDelete
  rw [hRow]
  cases h : (deleteClient p.node name none) with
  | mk s refusal => cases refusal <;> rfl

theorem deleteConfig_ok_iff : (deleteConfig p name {}).2 = none ↔
    p.rows.contains ⟨name, .amneziawg3⟩ = true ∧ (deleteClient p.node name none).2 = none := by
  cases hRow : p.rows.contains ⟨name, .amneziawg3⟩ with
  | false =>
    rw [deleteConfig, hRow]
    simp
  | true =>
    rw [deleteConfig_first hRow]
    cases h : (deleteClient p.node name none) with
    | mk s refusal => cases refusal <;> simp

theorem deleteConfig_node (h : (deleteConfig p name {}).2 = none) :
    (deleteConfig p name {}).1 =
      ⟨(deleteClient p.node name none).1, p.rows.filter (· ≠ ⟨name, .amneziawg3⟩)⟩ := by
  obtain ⟨hRow, hDone⟩ := deleteConfig_ok_iff.mp h
  rw [deleteConfig_first hRow]
  cases h : (deleteClient p.node name none) with
  | mk s refusal =>
    rw [h] at hDone
    obtain rfl : refusal = none := hDone
    rfl

/-- A failed deletion, and what it leaves: nothing done, a record begun, or all deleted. -/
theorem deleteConfig_failed (hFirst : (deleteConfig p name {}).2 = none)
    (hFails : (deleteConfig p name f).2 ≠ none) :
    f.check = true ∧ (deleteConfig p name f).1 = p ∨
    f.check = false ∧ (∃ k step, f.removal = some (k, step) ∧ k < (targets p.node name).length ∧
      (deleteConfig p name f).1 = { p with node := (deleteClient p.node name f.removal).1 }) ∨
    f.check = false ∧ (∀ k step, f.removal = some (k, step) → (targets p.node name).length ≤ k) ∧
      (deleteConfig p name f).1 = { p with node := (deleteClient p.node name none).1 } := by
  obtain ⟨hRow, hDone⟩ := deleteConfig_ok_iff.mp hFirst
  have hIn := (deleteClient_ok hDone).1
  unfold deleteConfig at hFails ⊢
  rw [hRow] at hFails ⊢
  cases hCheck : f.check with
  | true => exact .inl ⟨rfl, rfl⟩
  | false =>
    rw [hCheck] at hFails
    refine .inr ?_
    -- a fault behind the last record strikes nothing
    by_cases hStrikes : ∃ k step, f.removal = some (k, step) ∧ k < (targets p.node name).length
    · obtain ⟨k, step, hRemoval, hK⟩ := hStrikes
      obtain ⟨w, record, -, -, hFault⟩ :=
        deleteRecords_fault hIn (targets_nodup p.node name) hK step
      have hClient : deleteClient p.node name f.removal =
          (w.removed (targets p.node name)[k] record (some step), some .fault) := by
        rw [hRemoval, deleteClient, hFault]
      refine .inl ⟨rfl, k, step, hRemoval, hK, ?_⟩
      simp [adapterDelete, hClient]
    · have hBeyond : ∀ k step, f.removal = some (k, step) → (targets p.node name).length ≤ k :=
        fun k step hRemoval => Nat.le_of_not_lt fun hK => hStrikes ⟨k, step, hRemoval, hK⟩
      have hSame : deleteClient p.node name f.removal = deleteClient p.node name none := by
        cases hRemoval : f.removal with
        | none => rfl
        | some fault => exact deleteRecords_beyond _ (hBeyond fault.1 fault.2 hRemoval) _
      refine .inr ⟨rfl, hBeyond, ?_⟩
      have hAdapter : adapterDelete p.node name f.removal f.removalAnswer =
          ((deleteClient p.node name none).1, if f.removalAnswer then some .fault else none) := by
        rw [adapterDelete, hSame]
        cases h : deleteClient p.node name none with
        | mk s refusal =>
          rw [h] at hDone
          obtain rfl : refusal = none := hDone
          rfl
      rw [hAdapter] at hFails ⊢
      cases hAnswer : f.removalAnswer with
      | true => rfl
      | false =>
        cases hLate : f.replication || f.commit with
        | true => simp
        | false => simp [hAnswer, hLate] at hFails

/-- A deletion in which a record has begun to go. -/
theorem delete_begun (hFirst : (deleteConfig p name {}).2 = none)
    (hRemoval : f.removal = some (k, step)) (hK : k < (targets p.node name).length)
    (hFailed : (deleteConfig p name f).1 =
      { p with node := (deleteClient p.node name f.removal).1 }) :
    Repeatable env p (.delete name) draws again f ↔
      step.keepsConf p.node (targets p.node name) ((targets p.node name).drop k) = true := by
  obtain ⟨hRow, hDone⟩ := deleteConfig_ok_iff.mp hFirst
  obtain ⟨hIn, hAll⟩ := deleteClient_ok hDone
  have hNodup := targets_nodup p.node name
  obtain ⟨w, record, hBefore, hLast, hFault⟩ := deleteRecords_fault hIn hNodup hK step
  rw [hRemoval, deleteClient, hFault] at hFailed
  have hRegistry := (removed_fault w (targets p.node name)[k] record step).1
  -- the client still has the records from the fault on
  have hRest : targets (w.removed (targets p.node name)[k] record (some step)) name =
      (targets p.node name).drop k :=
    targets_rest hIn hK fun r => by rw [hRegistry, hBefore.registry]
  have hStill : ∀ r ∈ (targets p.node name).drop k,
      ((w.removed (targets p.node name)[k] record (some step)).registry.row? r).isSome = true := by
    intro r hMem
    have hNot : r ∉ (targets p.node name).take k := by
      rw [← filter_not_mem_take hNodup] at hMem
      exact of_decide_eq_true (mem_filter.mp hMem).2
    rw [hRegistry, hBefore.registry, if_neg hNot]
    exact hIn r (mem_of_mem_drop hMem)
  obtain ⟨t', hAgain, hAfter⟩ :=
    deleteRecords_none hStill (hNodup.sublist (drop_sublist k _))
  have hRetry : (deleteConfig (deleteConfig p name f).1 name {}).2 = none := by
    rw [hFailed]
    refine deleteConfig_ok_iff.mpr ⟨hRow, ?_⟩
    rw [deleteClient, hRest, hAgain]
  obtain ⟨hSameRegistry, hSameLive, hSameFiles, hConf⟩ :=
    completed hNodup hK hBefore hLast hAfter hAll
  have hEnd := deleteConfig_node hRetry
  rw [hFailed, deleteClient, hRest, hAgain] at hEnd
  have hFirstEnd := deleteConfig_node hFirst
  show ((deleteConfig (deleteConfig p name f).1 name {}).2 = none ∧
    (deleteConfig (deleteConfig p name f).1 name {}).1.outline [] =
      (deleteConfig p name {}).1.outline []) ↔ _
  rw [and_iff_right hRetry, hConf, hFailed, hEnd, hFirstEnd]
  constructor
  · exact fun hSame => conf_of_outline hSame
  · intro hSame
    refine outline_congr ?_ ⟨hSameRegistry, hSameLive, hSame, hSameFiles⟩ []
    rfl

/-- A deletion after which no record is left cannot be repeated. -/
theorem delete_done (hFirst : (deleteConfig p name {}).2 = none)
    (hFailed : (deleteConfig p name f).1 = { p with node := (deleteClient p.node name none).1 }) :
    ¬ Repeatable env p (.delete name) draws again f := by
  rintro ⟨hRetry, hSame⟩
  change (deleteConfig (deleteConfig p name f).1 name {}).2 = none at hRetry
  change (deleteConfig (deleteConfig p name f).1 name {}).1.outline [] =
    (deleteConfig p name {}).1.outline [] at hSame
  rw [deleteConfig_node hRetry, deleteConfig_node hFirst, hFailed] at hSame
  rw [hFailed] at hRetry
  obtain ⟨hIn, hGone⟩ := deleteClient_ok (deleteConfig_ok_iff.mp hRetry).2
  obtain ⟨r, hMem⟩ := exists_mem_of_ne_nil _ (targets_ne_nil _ name)
  have hRow := registry_of_outline hSame r
  rw [hGone.registry, if_pos hMem] at hRow
  exact absurd (hRow ▸ hIn r hMem) Bool.noConfusion

/-- **A deletion that has failed**, sent again. -/
theorem delete_repeatable_iff (hFirst : (deleteConfig p name {}).2 = none)
    (hFails : (deleteConfig p name f).2 ≠ none) :
    Repeatable env p (.delete name) draws again f ↔ harmless p f (.delete name) = true := by
  have hHarmless : harmless p f (.delete name) = (f.check || f.removal.any fun (k, step) =>
    k < (targets p.node name).length &&
      step.keepsConf p.node (targets p.node name) ((targets p.node name).drop k)) := rfl
  rw [hHarmless]
  rcases deleteConfig_failed hFirst hFails with
    ⟨hCheck, hSame⟩ | ⟨hCheck, k, step, hRemoval, hK, hFailed⟩ | ⟨hCheck, hBeyond, hFailed⟩
  · rw [hCheck, Bool.true_or]
    refine iff_of_true ?_ rfl
    show (deleteConfig (deleteConfig p name f).1 name {}).2 = none ∧ _
    rw [hSame]
    exact ⟨hFirst, congrArg (·.1.outline []) (congrArg (deleteConfig · name {}) hSame)⟩
  · rw [delete_begun hFirst hRemoval hK hFailed, hCheck, hRemoval]
    simp [hK]
  · refine iff_of_false (delete_done hFirst hFailed) ?_
    rw [hCheck, Bool.false_or]
    cases hRemoval : f.removal with
    | none => exact Bool.noConfusion
    | some fault =>
      have hNot := Nat.not_lt_of_le (hBeyond fault.1 fault.2 hRemoval)
      simp [hNot]

/-! ## Creating -/

variable {new new₁ new₂ : NewClient}

/-- The node takes both records. -/
structure Creatable (env : Env) (s : Node) (name : String) : Prop where
  split : Ready env s (profileRecord name .split) .split
  full : Ready env s (profileRecord name .full) .full
  ports : ∃ a b, a ∈ s.freePorts ∧ b ∈ s.freePorts ∧ a ≠ b

theorem Creatable.congr (h : Creatable env s name)
    (hRegistry : ∀ r, s'.registry.row? r = s.registry.row? r)
    (hConf : s'.conf.interface = s.conf.interface) : Creatable env s' name where
  split := h.split.congr hRegistry hConf
  full := h.full.congr hRegistry hConf
  ports := by
    obtain ⟨a, b, hA, hB, hNe⟩ := h.ports
    refine ⟨a, b, ?_, ?_, hNe⟩
    · simpa only [mem_freePorts, hRegistry] using hA
    · simpa only [mem_freePorts, hRegistry] using hB

/-- What the split record leaves for the full one. -/
theorem ready_full_iff (port : ℕ) (hName : new.name = profileRecord name .split)
    (hMode : new.record.modeOf = .split) (hPort : new.record.portOf = port)
    (hVacant : s.registry.row? (profileRecord name .split) = none) :
    Ready env (s.created new none) (profileRecord name .full) .full ↔
      Ready env s (profileRecord name .full) .full ∧ ∃ a ∈ s.freePorts, a ≠ port := by
  have hRegistry : ∀ r, (s.created new none).registry.row? r =
      if r = profileRecord name .split then some new.record else s.registry.row? r := by
    intro r
    show (s.registry.set new.name new.record).row? r = _
    rw [hName, Table.row?_set]
  have hUsed : ∀ ip, ip ∈ (s.created new none).usedIps .full ↔ ip ∈ s.usedIps .full := by
    intro ip
    simp only [mem_usedIps, hRegistry]
    constructor
    · rintro ⟨r, record, hRow, hFull, hIp⟩
      split_ifs at hRow
      · cases hRow
        rw [hMode] at hFull
        cases hFull
      · exact ⟨r, record, hRow, hFull, hIp⟩
    · rintro ⟨r, record, hRow, hFull, hIp⟩
      have hOther : r ≠ profileRecord name .split := by
        rintro rfl
        rw [hVacant] at hRow
        cases hRow
      exact ⟨r, record, by rw [if_neg hOther, hRow], hFull, hIp⟩
  have hFree : ∀ a, a ∈ (s.created new none).freePorts ↔ a ∈ s.freePorts ∧ a ≠ port := by
    intro a
    simp only [mem_freePorts, hRegistry]
    constructor
    · rintro ⟨hRange, hNone⟩
      refine ⟨⟨hRange, fun r record hRow => ?_⟩, ?_⟩
      · have hOther : r ≠ profileRecord name .split := by
          rintro rfl
          rw [hVacant] at hRow
          cases hRow
        exact hNone r record (by rw [if_neg hOther, hRow])
      · rw [← hPort]
        exact (hNone _ new.record (if_pos rfl)).symm
    · rintro ⟨⟨hRange, hNone⟩, hNe⟩
      refine ⟨hRange, fun r record hRow => ?_⟩
      split_ifs at hRow
      · cases hRow
        rw [hPort]
        exact hNe.symm
      · exact hNone r record hRow
  have hVpn : (s.created new none).registry.row? (profileRecord name .full) =
      s.registry.row? (profileRecord name .full) := by
    rw [hRegistry, if_neg (profileRecord_ne name).symm]
  constructor
  · intro hReady
    obtain ⟨a, hMem⟩ := exists_mem_of_ne_nil _ hReady.port
    obtain ⟨hIn, hNe⟩ := (hFree a).mp hMem
    refine ⟨⟨hReady.valid, by rw [← hVpn, hReady.vacant], hReady.split, hReady.serverKey, ?_,
      ne_nil_of_mem hIn⟩, a, hIn, hNe⟩
    rw [← nextIp_congr hUsed]
    exact hReady.ip
  · rintro ⟨hReady, a, hIn, hNe⟩
    refine ⟨hReady.valid, by rw [hVpn, hReady.vacant], hReady.split, hReady.serverKey, ?_,
      ne_nil_of_mem ((hFree a).mpr ⟨hIn, hNe⟩)⟩
    rw [nextIp_congr hUsed]
    exact hReady.ip

/-- What the two creations make. -/
structure Made (env : Env) (s : Node) (name : String) (draws : Draws) (new₁ new₂ : NewClient) :
    Prop where
  split : prepareClient env s (profileRecord name .split) .split draws.split = .ok new₁
  full : prepareClient env (s.created new₁ none) (profileRecord name .full) .full draws.full =
    .ok new₂

/-- A creation goes through exactly if both records can be prepared. -/
theorem creatable_iff (draws : Draws) :
    Creatable env s name ↔ ∃ new₁ new₂, Made env s name draws new₁ new₂ := by
  constructor
  · intro h
    obtain ⟨new₁, hSplit⟩ := prepareClient_ready h.split draws.split
    obtain ⟨-, serverPrivate, ip, port, -, -, hNew⟩ := prepareClient_ok hSplit
    have hFull : Ready env (s.created new₁ none) (profileRecord name .full) .full := by
      obtain ⟨a, b, hA, hB, hNe⟩ := h.ports
      refine (ready_full_iff port (by rw [hNew]; rfl) (by rw [hNew]; rfl)
        (by rw [hNew]; rfl) h.split.vacant).mpr ⟨h.full, ?_⟩
      by_cases hSame : a = port
      · exact ⟨b, hB, fun h => hNe (hSame.trans h.symm)⟩
      · exact ⟨a, hA, hSame⟩
    obtain ⟨new₂, hMade⟩ := prepareClient_ready hFull draws.full
    exact ⟨new₁, new₂, hSplit, hMade⟩
  · rintro ⟨new₁, new₂, hSplit, hFull⟩
    obtain ⟨hReady, serverPrivate, ip, port, hPort, -, hNew⟩ := prepareClient_ok hSplit
    obtain ⟨hBoth, a, hA, hNe⟩ := (ready_full_iff port (by rw [hNew]; rfl)
      (by rw [hNew]; rfl) (by rw [hNew]; rfl) hReady.vacant).mp (prepareClient_ok hFull).1
    exact ⟨hReady, hBoth, a, port, hA, hPort, hNe⟩

theorem createClient_of_ok {mode : Mode} {draw : Draw}
    (h : prepareClient env s name mode draw = .ok new) (fault : Option CreationStep) :
    createClient env s name mode draw fault = (s.created new fault, fault.map fun _ => .fault) := by
  rw [createClient, h]

theorem createRecords_made (h : Made env s name draws new₁ new₂) (hSplit : f.split = none)
    (hFull : f.full = none) : createRecords env s name draws f =
      ((s.created new₁ none).created new₂ none, none) := by
  rw [createRecords, hSplit, hFull, createClient_of_ok h.split]
  simp only [map_none]
  rw [createClient_of_ok h.full]
  rfl

theorem createRecords_ok (h : (createRecords env s name draws {}).2 = none) :
    ∃ new₁ new₂, Made env s name draws new₁ new₂ := by
  unfold createRecords at h
  cases hSplit : prepareClient env s (profileRecord name .split) .split draws.split with
  | error refusal =>
    simp only [createClient, hSplit] at h
    cases h
  | ok new₁ =>
    cases hFull : prepareClient env (s.created new₁ none) (profileRecord name .full) .full
        draws.full with
    | error refusal =>
      simp only [createClient, hSplit, map_none, hFull] at h
      cases h
    | ok new₂ => exact ⟨new₁, new₂, hSplit, hFull⟩

/-- When a request without faults succeeds. -/
theorem createConfig_ok_iff : (createConfig env p name draws {}).2 = none ↔
    admits p.rows name = true ∧ Creatable env p.node name := by
  unfold createConfig
  cases hAdmits : admits p.rows name with
  | false => simp
  | true =>
    rw [and_iff_right rfl]
    simp only [Bool.not_true, Bool.false_eq_true, if_false]
    constructor
    · intro h
      refine (creatable_iff draws).mpr (createRecords_ok ?_)
      cases hRecords : createRecords env p.node name draws {} with
      | mk s refusal =>
        rw [hRecords] at h
        cases refusal with
        | none => rfl
        | some refusal => cases h
    · intro h
      obtain ⟨new₁, new₂, hMade⟩ := (creatable_iff draws).mp h
      rw [createRecords_made hMade rfl rfl]

theorem createConfig_made (hAdmits : admits p.rows name = true)
    (h : Made env p.node name draws new₁ new₂) : (createConfig env p name draws {}).1 =
      ⟨(p.node.created new₁ none).created new₂ none, p.rows ++ [⟨name, .amneziawg3⟩]⟩ := by
  rw [createConfig, hAdmits, createRecords_made h rfl rfl]
  rfl

/-! ## The state after a creation -/

/-- A new record without its keys, its address and its port. -/
def blankRecord (mode : Mode) : Record := ⟨some mode, "", "", none, "", "", false⟩

def blankProfile (env : Env) (conf : Conf) (mode : Mode) : Profile where
  mode := mode
  privateKey := ""
  ip := ""
  mtu := env.mtu
  obfuscation := conf.obfuscation
  serverPublic := env.publicOf ((conf.value? "PrivateKey").getD "")
  psk := ""
  endpointHost := env.endpointHost
  port := 0
  allowedIps := allowedIpsFor mode env.splitAllowedIps

/-- What a successful creation makes of a state, whatever it draws. -/
def createdOutline (env : Env) (p : Panel) (name : String) : Outline where
  rows := p.rows ++ [⟨name, .amneziawg3⟩]
  registry := fun r =>
    if r = profileRecord name .full then some (blankRecord .full)
    else if r = profileRecord name .split then some (blankRecord .split)
    else p.node.registry.row? r
  live := p.node.live.row?
  served := [some true, some true]
  interface := p.node.conf.interface
  peers := p.node.conf.peers ++
    [⟨profileRecord name .split, "", "", ""⟩, ⟨profileRecord name .full, "", "", ""⟩]
  profiles := fun file =>
    if file = (.full, profileRecord name .full) then some (blankProfile env p.node.conf .full)
    else if file = (.split, profileRecord name .split) then
      some (blankProfile env p.node.conf .split)
    else (p.node.profiles.row? file).map fun profile =>
      if file.2 ∈ (Request.create name).own then profile.blank else profile

/-- The keys and blanks of what is made. -/
theorem Made.facts (h : Made env s name draws new₁ new₂) :
    (new₁.name = profileRecord name .split ∧ new₁.record.modeOf = .split ∧
      new₁.record.publicKey = env.publicOf draws.split.privateKey ∧
      new₁.record.blank = blankRecord .split ∧
      new₁.profile.blank = blankProfile env s.conf .split) ∧
    (new₂.name = profileRecord name .full ∧ new₂.record.modeOf = .full ∧
      new₂.record.publicKey = env.publicOf draws.full.privateKey ∧
      new₂.record.blank = blankRecord .full ∧
      new₂.profile.blank = blankProfile env s.conf .full) := by
  obtain ⟨-, serverPrivate, ip, port, -, hKey, rfl⟩ := prepareClient_ok h.split
  obtain ⟨-, serverPrivate', ip', port', -, hKey', rfl⟩ := prepareClient_ok h.full
  have hPrivate : s.conf.value? "PrivateKey" = some serverPrivate' := hKey'
  refine ⟨⟨rfl, rfl, rfl, rfl, ?_⟩, ⟨rfl, rfl, rfl, rfl, ?_⟩⟩
  · simp only [newClient, Profile.blank, blankProfile, hKey, getD_some]
  · simp only [newClient, Profile.blank, blankProfile, hPrivate, getD_some]
    rfl

/-- The node with both records. -/
theorem Made.node (h : Made env s name draws new₁ new₂)
    (hNode : t = (s.created new₁ none).created new₂ none) :
    (∀ r, t.registry.row? r = if r = profileRecord name .full then some new₂.record
      else if r = profileRecord name .split then some new₁.record else s.registry.row? r) ∧
    (∀ key, t.live.row? key = if key = env.publicOf draws.full.privateKey then some new₂.peer
      else if key = env.publicOf draws.split.privateKey then some new₁.peer
      else s.live.row? key) ∧
    t.conf = ⟨s.conf.interface, s.conf.peers ++ [new₁.block] ++ [new₂.block]⟩ ∧
    (∀ file, t.profiles.row? file =
      if file = (.full, profileRecord name .full) then some new₂.profile
      else if file = (.split, profileRecord name .split) then some new₁.profile
      else s.profiles.row? file) := by
  obtain ⟨⟨hName₁, hMode₁, hKey₁, -, -⟩, ⟨hName₂, hMode₂, hKey₂, -, -⟩⟩ := h.facts
  subst hNode
  refine ⟨fun r => ?_, fun key => ?_, rfl, fun file => ?_⟩
  · show ((s.registry.set new₁.name new₁.record).set new₂.name new₂.record).row? r = _
    rw [hName₁, hName₂, Table.row?_set, Table.row?_set]
  · show ((s.live.set new₁.record.publicKey new₁.peer).set new₂.record.publicKey
      new₂.peer).row? key = _
    rw [hKey₁, hKey₂, Table.row?_set, Table.row?_set]
  · show ((s.profiles.set (new₁.record.modeOf, new₁.name) new₁.profile).set
      (new₂.record.modeOf, new₂.name) new₂.profile).row? file = _
    rw [hName₁, hName₂, hMode₁, hMode₂, Table.row?_set, Table.row?_set]

theorem Made.ownKeys (h : Made env s name draws new₁ new₂) :
    ((s.created new₁ none).created new₂ none).ownKeys (Request.create name).own =
      [env.publicOf draws.split.privateKey, env.publicOf draws.full.privateKey] := by
  obtain ⟨⟨-, -, hKey₁, -, -⟩, ⟨-, -, hKey₂, -, -⟩⟩ := h.facts
  have hRegistry := (h.node rfl).1
  have hAz := hRegistry (profileRecord name .split)
  have hVpn := hRegistry (profileRecord name .full)
  rw [if_neg (profileRecord_ne name), if_pos rfl] at hAz
  rw [if_pos rfl] at hVpn
  simp [Node.ownKeys, Request.own, hAz, hVpn, hKey₁, hKey₂]

/-- The peers of others after a creation are those before it. -/
theorem Made.live (h : Made env p.node name draws new₁ new₂) (rows : List PanelRow) (key : String) :
    (Panel.outline ⟨(p.node.created new₁ none).created new₂ none, rows⟩
      (Request.create name).own).live key =
    if key ∈ [env.publicOf draws.split.privateKey, env.publicOf draws.full.privateKey] then none
    else p.node.live.row? key := by
  show (if key ∈ Node.ownKeys _ _ then none else _) = _
  rw [h.ownKeys, (h.node rfl).2.1]
  by_cases hOwn : key ∈ [env.publicOf draws.split.privateKey, env.publicOf draws.full.privateKey]
  · rw [if_pos hOwn, if_pos hOwn]
  · rw [if_neg hOwn, if_neg hOwn]
    rw [mem_pair, not_or] at hOwn
    rw [if_neg hOwn.2, if_neg hOwn.1]

theorem Made.registry (h : Made env p.node name draws new₁ new₂) (rows : List PanelRow)
    (r : String) :
    (Panel.outline ⟨(p.node.created new₁ none).created new₂ none, rows⟩
      (Request.create name).own).registry r = (createdOutline env p name).registry r := by
  obtain ⟨⟨-, -, -, hBlank₁, -⟩, ⟨-, -, -, hBlank₂, -⟩⟩ := h.facts
  have hOwn : r ∈ (Request.create name).own ↔
      r = profileRecord name .split ∨ r = profileRecord name .full := mem_pair
  show Option.map _ (Table.row? _ r) = ite _ _ _
  rw [(h.node rfl).1]
  by_cases hVpn : r = profileRecord name .full
  · rw [if_pos hVpn, if_pos hVpn, map_some, if_pos (hOwn.mpr (.inr hVpn)), hBlank₂]
  · by_cases hAz : r = profileRecord name .split
    · rw [if_neg hVpn, if_pos hAz, if_neg hVpn, if_pos hAz, map_some,
        if_pos (hOwn.mpr (.inl hAz)), hBlank₁]
    · have hOther : r ∉ (Request.create name).own := fun hIn => (hOwn.mp hIn).elim hAz hVpn
      rw [if_neg hVpn, if_neg hAz, if_neg hVpn, if_neg hAz]
      simp only [if_neg hOther, Option.map_id']

theorem Made.profiles (h : Made env p.node name draws new₁ new₂) (rows : List PanelRow)
    (file : Mode × String) :
    (Panel.outline ⟨(p.node.created new₁ none).created new₂ none, rows⟩
      (Request.create name).own).profiles file = (createdOutline env p name).profiles file := by
  obtain ⟨⟨-, -, -, -, hBlank₁⟩, ⟨-, -, -, -, hBlank₂⟩⟩ := h.facts
  show Option.map _ (Table.row? _ file) = ite _ _ _
  rw [(h.node rfl).2.2.2]
  by_cases hVpn : file = (.full, profileRecord name .full)
  · have hOwn : file.2 ∈ (Request.create name).own := by
      rw [hVpn]
      exact mem_pair.mpr (.inr rfl)
    rw [if_pos hVpn, if_pos hVpn, map_some, if_pos hOwn, hBlank₂]
  · by_cases hAz : file = (.split, profileRecord name .split)
    · have hOwn : file.2 ∈ (Request.create name).own := by
        rw [hAz]
        exact mem_pair.mpr (.inl rfl)
      rw [if_neg hVpn, if_pos hAz, if_neg hVpn, if_pos hAz, map_some, if_pos hOwn, hBlank₁]
    · rw [if_neg hVpn, if_neg hAz, if_neg hVpn, if_neg hAz]

/-- The keys of the draws are new. -/
def NewKeys (env : Env) (s : Node) (draws : Draws) : Prop :=
  env.publicOf draws.split.privateKey ≠ env.publicOf draws.full.privateKey ∧
    ∀ draw ∈ [draws.split, draws.full], s.live.row? (env.publicOf draw.privateKey) = none ∧
      ∀ block ∈ s.conf.peers, block.publicKey ≠ env.publicOf draw.privateKey

/-- What a creation leaves is the outline of the client. -/
theorem Made.outline (h : Made env p.node name draws new₁ new₂) (hNew : NewKeys env p.node draws) :
    Panel.outline ⟨(p.node.created new₁ none).created new₂ none,
      p.rows ++ [⟨name, .amneziawg3⟩]⟩ (Request.create name).own =
      createdOutline env p name := by
  obtain ⟨⟨hName₁, -, hKey₁, -, -⟩, ⟨hName₂, -, hKey₂, -, -⟩⟩ := h.facts
  obtain ⟨hNe, hDrawn⟩ := hNew
  rw [forall_mem_cons, forall_mem_singleton] at hDrawn
  obtain ⟨⟨hLive₁, hBlocks₁⟩, ⟨hLive₂, hBlocks₂⟩⟩ := hDrawn
  obtain ⟨hRegistry, hPeers, hConf, -⟩ := h.node rfl
  refine Outline.ext rfl (funext (h.registry _)) ?_ ?_ rfl ?_ (funext (h.profiles _))
  · funext key
    rw [h.live]
    split_ifs with hOwn
    · rcases mem_pair.mp hOwn with rfl | rfl
      · exact hLive₁.symm
      · exact hLive₂.symm
    · rfl
  · have hAz := hRegistry (profileRecord name .split)
    have hVpn := hRegistry (profileRecord name .full)
    rw [if_neg (profileRecord_ne name), if_pos rfl] at hAz
    rw [if_pos rfl] at hVpn
    simp [Panel.outline, Request.own, createdOutline, hAz, hVpn, hPeers, hKey₁, hKey₂, hNe]
  · have hOld : p.node.conf.peers.map (fun block =>
        if block.publicKey ∈ [env.publicOf draws.split.privateKey,
          env.publicOf draws.full.privateKey] then block.blank else block) =
        p.node.conf.peers := by
      conv_rhs => rw [← map_id p.node.conf.peers]
      refine map_congr_left fun block hMem => if_neg fun hIn => ?_
      exact (mem_pair.mp hIn).elim (hBlocks₁ block hMem) (hBlocks₂ block hMem)
    show List.map _ (Conf.peers _) = _
    rw [h.ownKeys, hConf, map_append, map_append, hOld, append_assoc]
    simp [createdOutline, NewClient.block, PeerBlock.blank, hName₁, hName₂, hKey₁, hKey₂]

/-! ## Repeating a creation -/

/-- A creation that succeeds, by what it leaves. -/
theorem createConfig_outline (hFirst : (createConfig env p name draws {}).2 = none)
    (hNew : NewKeys env p.node draws) :
    (createConfig env p name draws {}).1.outline (Request.create name).own =
      createdOutline env p name := by
  obtain ⟨hAdmits, hCreatable⟩ := createConfig_ok_iff.mp hFirst
  obtain ⟨new₁, new₂, hMade⟩ := (creatable_iff draws).mp hCreatable
  rw [createConfig_made hAdmits hMade]
  exact hMade.outline hNew

/-- The failed attempt has left nothing but a profile file of the split record. -/
theorem create_repeats (hFirst : (createConfig env p name draws {}).2 = none)
    (hDraws : NewKeys env p.node draws) (hAgain : NewKeys env p.node again)
    (hFailed : (createConfig env p name draws f).1 = q) (hRows : q.rows = p.rows)
    (hRegistry : ∀ r, q.node.registry.row? r = p.node.registry.row? r)
    (hLive : ∀ key, q.node.live.row? key = p.node.live.row? key) (hConf : q.node.conf = p.node.conf)
    (hFiles : ∀ file, file ≠ (.split, profileRecord name .split) →
      q.node.profiles.row? file = p.node.profiles.row? file) :
    Repeatable env p (.create name) draws again f := by
  obtain ⟨hAdmits, hCreatable⟩ := createConfig_ok_iff.mp hFirst
  have hRetry : (createConfig env q name again {}).2 = none :=
    createConfig_ok_iff.mpr ⟨hRows ▸ hAdmits, hCreatable.congr hRegistry (by rw [hConf])⟩
  have hNew : NewKeys env q.node again := by
    refine ⟨hAgain.1, fun draw hMem => ?_⟩
    rw [hLive, hConf]
    exact hAgain.2 draw hMem
  have hSame : createdOutline env q name = createdOutline env p name := by
    refine Outline.ext ?_ (funext fun r => ?_) (funext hLive) rfl ?_ ?_ (funext fun file => ?_)
    · rw [createdOutline, createdOutline, hRows]
    · unfold createdOutline
      dsimp only
      rw [hRegistry]
    · rw [createdOutline, createdOutline, hConf]
    · rw [createdOutline, createdOutline, hConf]
    · unfold createdOutline
      dsimp only
      by_cases hAz : file = (.split, profileRecord name .split)
      · simp only [hConf, hAz, reduceIte]
      · rw [hConf, hFiles file hAz]
  show (createConfig env (createConfig env p name draws f).1 name again {}).2 = none ∧
    (createConfig env (createConfig env p name draws f).1 name again {}).1.outline _ =
      (createConfig env p name draws {}).1.outline _
  rw [hFailed]
  refine ⟨hRetry, ?_⟩
  rw [createConfig_outline hRetry hNew, hSame, createConfig_outline hFirst hDraws]

/-- A live peer of the failed attempt stays. -/
theorem create_leaks (hFirst : (createConfig env p name draws {}).2 = none)
    (hFresh : (drawnKeys env draws again).Nodup) {draw : Draw}
    (hDraw : draw ∈ [draws.split, draws.full])
    (hLeft : ((createConfig env p name draws f).1.node.live.row?
      (env.publicOf draw.privateKey)).isSome = true) :
    ¬ Repeatable env p (.create name) draws again f := by
  rintro ⟨hRetry, hSame⟩
  generalize hFailed : (createConfig env p name draws f).1 = q at hLeft
  change (createConfig env (createConfig env p name draws f).1 name again {}).2 = none at hRetry
  change (createConfig env (createConfig env p name draws f).1 name again {}).1.outline _ =
    (createConfig env p name draws {}).1.outline _ at hSame
  rw [hFailed] at hRetry hSame
  obtain ⟨hAdmits, hCreatable⟩ := createConfig_ok_iff.mp hFirst
  obtain ⟨new₁, new₂, hMade⟩ := (creatable_iff draws).mp hCreatable
  obtain ⟨hAdmitsQ, hCreatableQ⟩ := createConfig_ok_iff.mp hRetry
  obtain ⟨old₁, old₂, hMadeQ⟩ := (creatable_iff again).mp hCreatableQ
  rw [createConfig_made hAdmits hMade, createConfig_made hAdmitsQ hMadeQ] at hSame
  have hKey := congrFun (congrArg Outline.live hSame) (env.publicOf draw.privateKey)
  have hOwn : env.publicOf draw.privateKey ∈
      [env.publicOf draws.split.privateKey, env.publicOf draws.full.privateKey] := by
    rcases mem_pair.mp hDraw with rfl | rfl
    · exact mem_pair.mpr (.inl rfl)
    · exact mem_pair.mpr (.inr rfl)
  have hOther : env.publicOf draw.privateKey ∉
      [env.publicOf again.split.privateKey, env.publicOf again.full.privateKey] := by
    have hDisjoint : List.Disjoint
        [env.publicOf draws.split.privateKey, env.publicOf draws.full.privateKey]
        [env.publicOf again.split.privateKey, env.publicOf again.full.privateKey] :=
      disjoint_of_nodup_append hFresh
    exact hDisjoint hOwn
  rw [hMade.live, hMadeQ.live, if_pos hOwn, if_neg hOther] at hKey
  rw [hKey] at hLeft
  cases hLeft

/-- A name that is taken is refused. -/
theorem create_refused
    (hTaken : admits (createConfig env p name draws f).1.rows name = false ∨
      ((createConfig env p name draws f).1.node.registry.row?
        (profileRecord name .split)).isSome = true) :
    ¬ Repeatable env p (.create name) draws again f := by
  rintro ⟨hRetry, -⟩
  obtain ⟨hAdmits, hCreatable⟩ := createConfig_ok_iff.mp hRetry
  rcases hTaken with hRows | hRow
  · exact absurd (hRows.symm.trans hAdmits) Bool.noConfusion
  · exact absurd hCreatable.split.vacant (isSome_iff_ne_none.mp hRow)

theorem created_early {early : CreationStep} (h : early.early = true) :
    s.created new (some early) = s := by
  cases early with
  | prepare => rfl
  | peer added =>
    cases added with
    | false => rfl
    | true => cases h
  | _ => cases h

theorem created_late {late : CreationStep} (h : late.early = false) :
    (s.created new (some late)).live.row? new.record.publicKey = some new.peer := by
  have hSet : (s.live.set new.record.publicKey new.peer).row? new.record.publicKey =
      some new.peer := Table.row?_set_self _ _ _
  cases late with
  | prepare => cases h
  | peer added =>
    cases added with
    | false => cases h
    | true => exact hSet
  | _ => exact hSet

theorem adapterDelete_fst (s : Node) (name : String) (fault : Option (ℕ × RemovalStep))
    (answer : Bool) : (adapterDelete s name fault answer).1 = (deleteClient s name fault).1 := by
  unfold adapterDelete
  cases deleteClient s name fault with
  | mk t refusal => cases refusal <;> rfl

/-- The compensation, which is interrupted or not. -/
theorem deleteClient_own (hRow : s.registry.row? r = some record)
    (fault : Option (ℕ × RemovalStep)) :
    (∃ step, fault = some (0, step) ∧
      (deleteClient s r fault).1 = s.removed r record (some step)) ∨
    fault.any (fun (k, _) => k = 0) = false ∧
      (deleteClient s r fault).1 = s.removed r record none := by
  have hTargets : targets s r = [r] := targets_of_isSome (by rw [hRow]; rfl)
  rw [deleteClient, hTargets]
  have hNone : (deleteRecords s [r] none).1 = s.removed r record none := by
    rw [deleteRecords, deleteRecord_of_row hRow]
    rfl
  rcases fault with _ | ⟨_ | k, step⟩
  · exact .inr ⟨rfl, hNone⟩
  · refine .inl ⟨step, rfl, ?_⟩
    rw [deleteRecords, deleteRecord_of_row hRow]
  · refine .inr ⟨rfl, ?_⟩
    rw [deleteRecords_beyond s (by rw [length_singleton]; omega), hNone]

/-- A record that is made and deleted leaves its node as it was, but for a profile file. -/
theorem created_removed (hVacant : s.registry.row? new.name = none)
    (hLive : s.live.row? new.record.publicKey = none)
    (hBlocks : ∀ block ∈ s.conf.peers, block.publicKey ≠ new.record.publicKey) :
    (∀ r, ((s.created new none).removed new.name new.record none).registry.row? r =
      s.registry.row? r) ∧
    (∀ key, ((s.created new none).removed new.name new.record none).live.row? key =
      s.live.row? key) ∧
    ((s.created new none).removed new.name new.record none).conf = s.conf ∧
    (∀ file, file ≠ (new.record.modeOf, new.name) →
      ((s.created new none).removed new.name new.record none).profiles.row? file =
        s.profiles.row? file) := by
  refine ⟨fun r => ?_, fun key => ?_, ?_, fun file hOther => ?_⟩
  · show ((s.registry.set new.name new.record).erase new.name).row? r = _
    rw [Table.row?_erase, Table.row?_set]
    by_cases hSame : r = new.name
    · rw [if_pos hSame, hSame, hVacant]
    · rw [if_neg hSame, if_neg hSame]
  · show ((s.live.set new.record.publicKey new.peer).erase new.record.publicKey).row? key = _
    rw [Table.row?_erase, Table.row?_set]
    by_cases hSame : key = new.record.publicKey
    · rw [if_pos hSame, hSame, hLive]
    · rw [if_neg hSame, if_neg hSame]
  · show (⟨s.conf.interface, (s.conf.peers ++ [new.block]).filter
      (·.publicKey ≠ new.record.publicKey)⟩ : Conf) = s.conf
    have hOld : s.conf.peers.filter (·.publicKey ≠ new.record.publicKey) = s.conf.peers :=
      filter_eq_self.mpr fun block hMem => decide_eq_true (hBlocks block hMem)
    rw [filter_append, hOld]
    simp [NewClient.block]
  · show ((s.profiles.set (new.record.modeOf, new.name) new.profile).erase
      (new.record.modeOf, new.name)).row? file = _
    rw [Table.row?_erase, if_neg hOther, Table.row?_set_of_ne _ _ hOther]

section

variable (hFirst : (createConfig env p name draws {}).2 = none)
  (hDraws : NewKeys env p.node draws) (hAgain : NewKeys env p.node again)
  (hNodup : (drawnKeys env draws again).Nodup)

include hFirst hDraws hAgain hNodup

/-- The split record fails. -/
theorem create_split {first : CreationStep} (hFailed : (createConfig env p name draws f).1 =
      { p with node := p.node.created new₁ (some first) })
    (hKey : new₁.record.publicKey = env.publicOf draws.split.privateKey) :
    Repeatable env p (.create name) draws again f ↔ first.early = true := by
  cases hEarly : first.early with
  | true =>
    rw [created_early hEarly] at hFailed
    exact iff_of_true (create_repeats hFirst hDraws hAgain hFailed rfl (fun _ => rfl)
      (fun _ => rfl) rfl fun _ _ => rfl) rfl
  | false =>
    refine iff_of_false (create_leaks hFirst hNodup mem_cons_self ?_) Bool.noConfusion
    rw [hFailed, ← hKey]
    exact isSome_iff_exists.mpr ⟨_, created_late hEarly⟩

/-- The full record fails, and the split one is deleted again. -/
theorem create_full {second : CreationStep} (hMade : Made env p.node name draws new₁ new₂)
    (hFailed : (createConfig env p name draws f).1 = { p with node := (deleteClient
      ((p.node.created new₁ none).created new₂ (some second))
      (profileRecord name .split) f.undo).1 }) :
    Repeatable env p (.create name) draws again f ↔
      (second.early && !f.undo.any fun (k, _) => k = 0) = true := by
  obtain ⟨⟨hName₁, hMode₁, hKey₁, -, -⟩, ⟨hName₂, -, hKey₂, -, -⟩⟩ := hMade.facts
  have hRow : ((p.node.created new₁ none).created new₂ (some second)).registry.row?
      (profileRecord name .split) = some new₁.record := by
    have hFirstRow : (p.node.registry.set new₁.name new₁.record).row?
        (profileRecord name .split) =
        some new₁.record := by rw [hName₁, Table.row?_set_self]
    have hBothRow : ((p.node.registry.set new₁.name new₁.record).set new₂.name
        new₂.record).row? (profileRecord name .split) = some new₁.record := by
      rw [hName₂, Table.row?_set_of_ne _ _ (profileRecord_ne name), hFirstRow]
    cases second with
    | peer added => cases added <;> exact hFirstRow
    | profile | answer => exact hBothRow
    | _ => exact hFirstRow
  rcases deleteClient_own hRow f.undo with ⟨step, hUndo, hEnd⟩ | ⟨hUndo, hEnd⟩
  · rw [hEnd] at hFailed
    refine iff_of_false (create_refused (.inr ?_)) (by rw [hUndo]; simp)
    rw [hFailed]
    show (Table.row? (Node.registry _) _).isSome = true
    rw [(removed_fault _ _ _ _).1, hRow]
    rfl
  · rw [hEnd] at hFailed
    rw [hUndo, Bool.not_false, Bool.and_true]
    cases hEarly : second.early with
    | true =>
      rw [created_early hEarly] at hFailed
      obtain ⟨hRegistry, hLive, hConf, hFiles⟩ := @created_removed p.node new₁
        (by rw [hName₁]; exact (prepareClient_ok hMade.split).1.vacant)
        (by rw [hKey₁]; exact (hDraws.2 _ mem_cons_self).1)
        (by rw [hKey₁]; exact (hDraws.2 _ mem_cons_self).2)
      rw [hName₁] at hRegistry hLive hConf hFiles
      rw [hMode₁] at hFiles
      exact iff_of_true (create_repeats hFirst hDraws hAgain hFailed rfl hRegistry hLive hConf
        hFiles) rfl
    | false =>
      refine iff_of_false (create_leaks hFirst hNodup
        (mem_cons_of_mem _ (mem_singleton_self _)) ?_) Bool.noConfusion
      rw [hFailed, ← hKey₂]
      show ((Table.erase _ _).row? _).isSome = true
      rw [Table.row?_erase, hKey₁, hKey₂, if_neg hDraws.1.symm, ← hKey₂, created_late hEarly]
      rfl

/-- **A creation that has failed**, sent again: it is refused for the records that are there. -/
theorem create_repeatable_iff :
    Repeatable env p (.create name) draws again f ↔ harmless p f (.create name) = true := by
  obtain ⟨hAdmits, hCreatable⟩ := createConfig_ok_iff.mp hFirst
  obtain ⟨new₁, new₂, hMade⟩ := (creatable_iff draws).mp hCreatable
  obtain ⟨⟨-, -, hKey₁, -, -⟩, -⟩ := hMade.facts
  have hHarmless : harmless p f (.create name) = (f.check || f.split.any CreationStep.early ||
    (f.split = none && f.full.any CreationStep.early && !f.undo.any fun (k, _) => k = 0)) := rfl
  rw [hHarmless]
  cases hCheck : f.check with
  | true =>
    have hSame : (createConfig env p name draws f).1 = p := by
      rw [createConfig, hAdmits, hCheck]
      rfl
    rw [Bool.true_or, Bool.true_or]
    exact iff_of_true (create_repeats hFirst hDraws hAgain hSame rfl (fun _ => rfl)
      (fun _ => rfl) rfl fun _ _ => rfl) rfl
  | false =>
    have hConfig : createConfig env p name draws f =
        match createRecords env p.node name draws f with
        | (s, some refusal) => ({ p with node := s }, some refusal)
        | (s, none) =>
          if f.commit then ({ p with node := s }, some .fault)
          else (⟨s, p.rows ++ [⟨name, .amneziawg3⟩]⟩,
            if f.replication then some .fault else none) := by
      rw [createConfig, hAdmits, hCheck]
      rfl
    cases hSplit : f.split with
    | some first =>
      have hFailed : (createConfig env p name draws f).1 =
          { p with node := p.node.created new₁ (some first) } := by
        rw [hConfig, createRecords, createClient_of_ok hMade.split, hSplit]
        rfl
      rw [create_split hFirst hDraws hAgain hNodup hFailed hKey₁]
      simp
    | none =>
      cases hFull : f.full with
      | some second =>
        have hFailed : (createConfig env p name draws f).1 = { p with node := (deleteClient
            ((p.node.created new₁ none).created new₂ (some second))
            (profileRecord name .split) f.undo).1 } := by
          rw [hConfig, createRecords, createClient_of_ok hMade.split, hSplit]
          simp only [map_none]
          rw [createClient_of_ok hMade.full, hFull]
          simp only [map_some, adapterDelete_fst]
        rw [create_full hFirst hDraws hAgain hNodup hMade hFailed]
        simp
      | none =>
        have hDone := createRecords_made hMade hSplit hFull
        refine iff_of_false ?_ (by simp)
        cases hCommit : f.commit with
        | true =>
          refine create_leaks hFirst hNodup mem_cons_self ?_
          rw [hConfig, hDone]
          simp only [hCommit, reduceIte]
          rw [(hMade.node rfl).2.1, if_neg hDraws.1, if_pos rfl]
          rfl
        | false =>
          refine create_refused (.inl ?_)
          rw [hConfig, hDone]
          simp [hCommit, admits]

end

/-! ## Both requests -/

theorem Fresh.newKeys (h : Fresh env s draws again) :
    NewKeys env s draws ∧ NewKeys env s again := by
  obtain ⟨hNodup, hLive, hBlocks⟩ := h
  have hMem : ∀ draw, draw ∈ [draws.split, draws.full, again.split, again.full] →
      env.publicOf draw.privateKey ∈ drawnKeys env draws again := fun draw hIn =>
    mem_map_of_mem hIn
  simp only [drawnKeys, map_cons, map_nil, nodup_cons, mem_cons,
    not_mem_nil, or_false, not_or] at hNodup
  refine ⟨⟨hNodup.1.1, fun draw hIn => ?_⟩, ⟨hNodup.2.2.1, fun draw hIn => ?_⟩⟩
  all_goals
    have hKey := hMem draw (by rcases mem_pair.mp hIn with rfl | rfl <;> simp)
    exact ⟨hLive _ hKey, hBlocks _ hKey⟩

/-- A failed request can be repeated exactly when its failure was harmless. -/
theorem repeatable_iff (env : Env) (p : Panel) (request : Request) (draws again : Draws)
    (f : Faults) (hFresh : Fresh env p.node draws again)
    (hFirst : (perform env p request draws {}).2 = none)
    (hFails : (perform env p request draws f).2 ≠ none) :
    Repeatable env p request draws again f ↔ harmless p f request = true := by
  obtain ⟨hDraws, hAgain⟩ := hFresh.newKeys
  cases request with
  | create name => exact create_repeatable_iff hFirst hDraws hAgain hFresh.nodup
  | delete name => exact delete_repeatable_iff hFirst hFails

def exampleEnv : Env where
  publicOf := fun privateKey => "public " ++ privateKey
  endpointHost := "vpn.example.com"
  splitAllowedIps := ["1.1.1.1/32"]
  mtu := 1280

/-- A node without clients. -/
def emptyPanel : Panel where
  node := ⟨.empty, .empty, ⟨[("PrivateKey", "server"), ("Jc", "4")], []⟩, .empty⟩
  rows := []

def firstDraws : Draws := ⟨⟨"a", "psk a", 3⟩, ⟨"b", "psk b", 3⟩⟩

def laterDraws : Draws := ⟨⟨"c", "psk c", 7⟩, ⟨"d", "psk d", 7⟩⟩

theorem fresh_draws : Fresh exampleEnv emptyPanel.node firstDraws laterDraws where
  nodup := by decide
  live := fun _ _ => rfl
  blocks := fun _ _ _ hMem => absurd hMem not_mem_nil

/-- The full record is refused at its keys, and the split one deleted. -/
theorem repeatable_iff_full :
    Repeatable exampleEnv emptyPanel (.create "ivan") firstDraws laterDraws
        { full := some .prepare } ↔
      harmless emptyPanel { full := some .prepare } (.create "ivan") = true :=
  repeatable_iff exampleEnv emptyPanel (.create "ivan") firstDraws laterDraws
    { full := some .prepare } fresh_draws (by decide) (by decide)

/-- When the profile file of the split record cannot be written, its record stays, and the name
is taken. -/
theorem failed_profile_blocks_retry :
    ¬ ∀ env p request draws again f, Fresh env p.node draws again →
      (perform env p request draws {}).2 = none → (perform env p request draws f).2 ≠ none →
      Repeatable env p request draws again f := by
  intro hAll
  have hRefused : (perform exampleEnv (perform exampleEnv emptyPanel (.create "ivan") firstDraws
      { split := some .profile }).1 (.create "ivan") laterDraws {}).2 = some .exists := by
    decide
  have hRepeats := hAll exampleEnv emptyPanel (.create "ivan") firstDraws laterDraws
    { split := some .profile } fresh_draws (by decide) (by decide)
  exact absurd (hRefused.symm.trans hRepeats.1) nofun

end AdminPanel.Awg3Clients
