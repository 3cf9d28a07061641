import AdminPanel.Awg3.ConfText
import AdminPanel.Lib.Runs

/-!
# Registry, `awg1.conf` and interface of AmneziaWG 3

Three stores, written one after the other by five operations: the registry, the text of
`awg1.conf` and the live peers. An `awg` command succeeds with its effect or fails without.

* `Host` — the stores, with `createClient`, `RecordOp.perform` and `migrateTransport31`;
* `Coupled` — blocks and live peers are those of the records that are not suspended;
* `Mirror`, `Mirror.attach`, `Mirror.detach` — blocks and live peers follow the records;
* `RegistryInv` — keys, addresses and ports are apart, and the fields well formed;
* `inv_step` — every operation keeps both;
* `HalfDone` — what a pair is left as when the command of its second record fails.

Main result: `coupled_of_fresh`.
-/

namespace AdminPanel.Awg3Clients

open Lib (Table exec Along invariant_exec)
open Lib.PyText

/-! ## The stores -/

structure Host where
  registry : Table String Record
  /-- `awg show awg1`, by public key -/
  live : Table String Peer
  /-- `awg1.conf` -/
  file : List Char

/-- `server_conf.read_text()` -/
def Host.text (h : Host) : List Char := readText h.file

/-- What the checks see. -/
def Host.node (h : Host) : Node := ⟨h.registry, h.live, ⟨serverEntries h.text, []⟩, .empty⟩

/-- `NAME_RE`, whose `$` also matches before a newline at the end -/
def nameMatches (name : String) : Bool :=
  validName name ||
    (name.toList.getLast? = some '\n' && validName (String.ofList name.toList.dropLast))

/-- The checks of `create_client`; `keys` tells whether its commands for keys succeed. -/
def Host.prepareClient (env : Env) (h : Host) (name : String) (mode : Mode) (draw : Draw)
    (keys : Bool) : Except Refusal NewClient :=
  if !nameMatches name then .error .badName
  else if (h.registry.row? name).isSome then .error .exists
  else if mode = .split ∧ env.splitAllowedIps = [] then .error .emptySplitList
  else
    match h.node.conf.value? "PrivateKey" with
    | none => .error .noServerKey
    | some serverPrivate =>
      if !keys then .error .fault
      else
        match nextIp mode (h.node.usedIps mode), h.node.randomPort draw.port with
        | none, _ => .error .subnetFull
        | _, none => .error .noFreePort
        | some ip, some port => .ok (newClient env h.node.conf name mode draw serverPrivate ip port)

def Host.created (h : Host) (new : NewClient) : Host where
  registry := h.registry.set new.name new.record
  live := h.live.set new.record.publicKey new.peer
  file := h.file ++ new.block.text

/-- `create_client`; `set` tells whether `awg set` succeeds. -/
def Host.createClient (env : Env) (h : Host) (name : String) (mode : Mode) (draw : Draw)
    (keys set : Bool) : Host × Option Refusal :=
  match h.prepareClient env name mode draw keys with
  | .error refusal => (h, some refusal)
  | .ok new => if set then (h.created new, none) else (h, some .fault)

inductive RecordOp
  | delete
  | suspend
  | unsuspend
  deriving DecidableEq, Repr

/-- The peer is removed, and `registry` is what becomes of the records. -/
def Host.withoutPeer (h : Host) (record : Record) (registry : Table String Record) : Host where
  registry := registry
  live := h.live.erase record.publicKey
  file := dropPeerBlock h.text record.publicKey

/-- The peer of a suspended record is back. -/
def Host.restored (h : Host) (name : String) (record : Record) : Host where
  registry := h.registry.set name { record with suspended := false }
  live := h.live.set record.publicKey record.peer
  file := h.file ++ (record.block name).text

/-- `delete_client` for one record, `_suspend_record` and `_unsuspend_record`. `awg` tells whether
the command for the record succeeds; the answer says whether something was done. -/
def RecordOp.record (op : RecordOp) (awg : String → Bool) (h : Host) (name : String) :
    Host × Except Refusal Bool :=
  match h.registry.row? name with
  | none => (h, .error .notFound)
  | some record =>
    match op with
    | .delete =>
      if awg name then (h.withoutPeer record (h.registry.erase name), .ok true)
      else (h, .error .fault)
    | .suspend =>
      if record.suspended then (h, .ok false)
      else if awg name then
        (h.withoutPeer record (h.registry.set name { record with suspended := true }), .ok true)
      else (h, .error .fault)
    | .unsuspend =>
      if !record.suspended then (h, .ok false)
      else if awg name then (h.restored name record, .ok true)
      else (h, .error .fault)

/-- The records that an operation goes on to. -/
def RecordOp.records (op : RecordOp) (h : Host) (name : String) : List String :=
  match op with
  | .delete => targets h.node name
  | .suspend | .unsuspend => heldRecords h.node name

/-- One record after the other. -/
def RecordOp.each (op : RecordOp) (awg : String → Bool) (h : Host) (changed : Bool) :
    List String → Host × Except Refusal Bool
  | [] => (h, .ok changed)
  | name :: names =>
    match op.record awg h name with
    | (h', .error refusal) => (h', .error refusal)
    | (h', .ok now) => op.each awg h' (now || changed) names

/-- `delete_client`, `suspend_client` and `unsuspend_client` -/
def RecordOp.perform (op : RecordOp) (awg : String → Bool) (h : Host) (name : String) :
    Host × Except Refusal Bool :=
  op.each awg h false (op.records h name)

inductive HostAction
  | create (env : Env) (name : String) (mode : Mode) (draw : Draw) (keys set : Bool)
  | records (op : RecordOp) (name : String) (awg : String → Bool)
  | migrate

def Host.perform (h : Host) : HostAction → Host × Option Refusal
  | .create env name mode draw keys set => h.createClient env name mode draw keys set
  | .records op name awg => ((op.perform awg h name).1, raised (op.perform awg h name).2)
  | .migrate => (match migrateTransport31 h.text with
    | none => h
    | some text => { h with file := text }, none)

def hostStep (h : Host) (a : HostAction) : Option Host := some (h.perform a).1

/-- `awg1.conf` without peers, and nothing else. -/
def Host.start (file : List Char) : Host := ⟨.empty, .empty, file⟩

/-! ## Coupling -/

/-- The record is not suspended. -/
def Active (registry : Table String Record) (name : String) (record : Record) : Prop :=
  registry.row? name = some record ∧ record.suspended = false

/-- No two records have the same `f`. -/
def DistinctBy {κ : Type} (registry : Table String Record) (f : Record → κ) : Prop :=
  ∀ name name' record record', registry.row? name = some record →
    registry.row? name' = some record' → f record = f record' → name = name'

/-- The three stores agree. -/
structure Coupled (initial : List Char) (h : Host) : Prop where
  single : (peerEntries h.text).Nodup
  blocks : ∀ entries, entries ∈ peerEntries h.text ↔
    ∃ name record, Active h.registry name record ∧ (record.block name).entries = entries
  live : ∀ key peer, h.live.row? key = some peer ↔
    ∃ name record, Active h.registry name record ∧ record.publicKey = key ∧ record.peer = peer
  addresses : DistinctBy h.registry fun record => (record.modeOf, record.ip)
  ports : DistinctBy h.registry Record.portOf
  interface : interfaceEntries h.text = serverEntries initial ∨
    interfaceEntries h.text =
      serverEntries initial ++ missingTransport (serverEntries initial)

/-- `awg` prints 32 bytes in base 64. -/
def IsKey (key : String) : Prop := key.length = 44 ∧ Solid key.toList

/-- `awg genkey`, `awg pubkey` and `awg genpsk` give keys, and no public key twice. -/
def FreshDraw (h : Host) : HostAction → Prop
  | .create env _ _ draw _ _ => IsKey (env.publicOf draw.privateKey) ∧ IsKey draw.psk ∧
      ∀ r record, h.registry.row? r = some record → record.publicKey ≠ env.publicOf draw.privateKey
  | _ => True

/-- The command for the second record of a pair has failed, and the first one is done. -/
def HalfDone (h : Host) (a : HostAction) (t : Host) : Prop :=
  ∃ op name awg changed, a = .records op name awg ∧ h.registry.row? name = none ∧
    op.record awg h (profileRecord name .split) = (t, .ok changed) ∧
    awg (profileRecord name .full) = false

/-! ## Blocks and live peers -/

/-- There is a block and a live peer for each record that is not suspended. -/
structure Mirror (registry : Table String Record) (live : Table String Peer)
    (blocks : List PeerBlock) : Prop where
  nodup : (blocks.map (·.publicKey)).Nodup
  blocks : ∀ block, block ∈ blocks ↔
    ∃ name record, Active registry name record ∧ record.block name = block
  live : ∀ key peer, live.row? key = some peer ↔
    ∃ name record, Active registry name record ∧ record.publicKey = key ∧ record.peer = peer

variable {registry registry' : Table String Record} {live : Table String Peer}
  {blocks : List PeerBlock} {name : String} {record : Record} {key : String}

/-- **One more record.** -/
theorem Mirror.attach (h : Mirror registry live blocks)
    (hNew : ∀ n r, Active registry n r → r.publicKey ≠ record.publicKey)
    (hActive : ∀ n r, Active registry' n r ↔ n = name ∧ r = record ∨ Active registry n r) :
    Mirror registry' (live.set record.publicKey record.peer)
      (blocks ++ [record.block name]) where
  nodup := by
    rw [List.map_append, List.map_singleton, List.nodup_append]
    refine ⟨h.nodup, List.nodup_singleton _, ?_⟩
    intro key hKey key' hKey' hSame
    obtain ⟨block, hBlock, rfl⟩ := List.mem_map.mp hKey
    obtain ⟨n, r, hOld, rfl⟩ := (h.blocks block).mp hBlock
    exact hNew n r hOld (hSame.trans (List.mem_singleton.mp hKey'))
  blocks := by
    intro block
    simp only [List.mem_append, List.mem_singleton, h.blocks, hActive]
    constructor
    · rintro (⟨n, r, hOld, hBlock⟩ | rfl)
      · exact ⟨n, r, .inr hOld, hBlock⟩
      · exact ⟨name, record, .inl ⟨rfl, rfl⟩, rfl⟩
    · rintro ⟨n, r, ⟨rfl, rfl⟩ | hOld, hBlock⟩
      · exact .inr hBlock.symm
      · exact .inl ⟨n, r, hOld, hBlock⟩
  live := by
    intro key peer
    simp only [Table.row?_set, hActive]
    constructor
    · split_ifs with hKey
      · intro hPeer
        exact ⟨name, record, .inl ⟨rfl, rfl⟩, hKey.symm, Option.some.inj hPeer⟩
      · intro hPeer
        obtain ⟨n, r, hOld, hSame⟩ := (h.live key peer).mp hPeer
        exact ⟨n, r, .inr hOld, hSame⟩
    · rintro ⟨n, r, ⟨rfl, rfl⟩ | hOld, rfl, rfl⟩
      · exact if_pos rfl
      · rw [if_neg (hNew n r hOld)]
        exact (h.live _ _).mpr ⟨n, r, hOld, rfl, rfl⟩

/-- **The records with a key are gone, or suspended.** -/
theorem Mirror.detach (h : Mirror registry live blocks)
    (hActive : ∀ n r, Active registry' n r ↔ Active registry n r ∧ r.publicKey ≠ key) :
    Mirror registry' (live.erase key) (blocks.filter (·.publicKey ≠ key)) where
  nodup := h.nodup.sublist (List.filter_sublist.map _)
  blocks := by
    intro block
    simp only [List.mem_filter, h.blocks, hActive, decide_eq_true_eq]
    constructor
    · rintro ⟨⟨n, r, hOld, rfl⟩, hKey⟩
      exact ⟨n, r, ⟨hOld, hKey⟩, rfl⟩
    · rintro ⟨n, r, ⟨hOld, hKey⟩, rfl⟩
      exact ⟨⟨n, r, hOld, rfl⟩, hKey⟩
  live := by
    intro key' peer
    simp only [Table.row?_erase, hActive]
    constructor
    · split_ifs with hKey
      · exact fun hPeer => nomatch hPeer
      · intro hPeer
        obtain ⟨n, r, hOld, rfl, rfl⟩ := (h.live key' peer).mp hPeer
        exact ⟨n, r, ⟨hOld, hKey⟩, rfl, rfl⟩
    · rintro ⟨n, r, ⟨hOld, hKey⟩, rfl, rfl⟩
      rw [if_neg hKey]
      exact (h.live _ _).mpr ⟨n, r, hOld, rfl, rfl⟩

/-! ## Records -/

/-- What `create_client` writes into a record. -/
structure RecordSound (name : String) (record : Record) : Prop where
  name : nameMatches name = true
  publicKey : IsKey record.publicKey
  psk : IsKey record.psk
  ip : record.ip ∈ record.modeOf.hosts

theorem DistinctBy.of_rows {κ : Type} {f : Record → κ} (h : DistinctBy registry f)
    (hRows : ∀ n r', registry'.row? n = some r' → ∃ r, registry.row? n = some r ∧ f r = f r') :
    DistinctBy registry' f := by
  intro n n' r r' hRow hRow' hSame
  obtain ⟨o, hOld, hF⟩ := hRows n r hRow
  obtain ⟨o', hOld', hF'⟩ := hRows n' r' hRow'
  exact h n n' o o' hOld hOld' (by rw [hF, hF', hSame])

theorem row?_set_cases {n : String} {r : Record} (h : (registry.set name record).row? n = some r) :
    n = name ∧ r = record ∨ registry.row? n = some r := by
  rw [Table.row?_set] at h
  split_ifs at h with hName
  · exact .inl ⟨hName, (Option.some.inj h).symm⟩
  · exact .inr h

theorem DistinctBy.set {κ : Type} {f : Record → κ} (h : DistinctBy registry f)
    (hNew : ∀ n r, registry.row? n = some r → f r ≠ f record) :
    DistinctBy (registry.set name record) f := by
  intro n n' r r' hRow hRow' hSame
  rcases row?_set_cases hRow with ⟨rfl, rfl⟩ | hOld <;>
    rcases row?_set_cases hRow' with ⟨rfl, rfl⟩ | hOld'
  · rfl
  · exact absurd hSame.symm (hNew n' r' hOld')
  · exact absurd hSame (hNew n r hOld)
  · exact h n n' r r' hOld hOld' hSame

/-- Keys, addresses and ports are apart. -/
structure RegistryInv (registry : Table String Record) : Prop where
  sound : ∀ name record, registry.row? name = some record → RecordSound name record
  keys : DistinctBy registry Record.publicKey
  addresses : DistinctBy registry fun record => (record.modeOf, record.ip)
  ports : DistinctBy registry Record.portOf

/-- Records go, or are suspended or not. -/
theorem RegistryInv.of_rows (h : RegistryInv registry) (hRows : ∀ n r', registry'.row? n = some r' →
      ∃ r, registry.row? n = some r ∧ r' = { r with suspended := r'.suspended }) :
    RegistryInv registry' := by
  have hField : ∀ {κ : Type} (f : Record → κ),
      (∀ r suspended, f { r with suspended } = f r) → ∀ n r', registry'.row? n = some r' →
        ∃ r, registry.row? n = some r ∧ f r = f r' := by
    intro κ f hF n r' hRow
    obtain ⟨r, hOld, hSame⟩ := hRows n r' hRow
    exact ⟨r, hOld, (hF r r'.suspended).symm.trans (congrArg f hSame.symm)⟩
  refine ⟨?_, h.keys.of_rows (hField _ fun _ _ => rfl),
    h.addresses.of_rows (hField _ fun _ _ => rfl), h.ports.of_rows (hField _ fun _ _ => rfl)⟩
  intro n r' hRow
  obtain ⟨r, hOld, hSame⟩ := hRows n r' hRow
  obtain ⟨hName, hKey, hPsk, hIp⟩ := h.sound n r hOld
  rw [hSame]
  exact ⟨hName, hKey, hPsk, hIp⟩

/-! ## The invariant -/

/-- `[Interface]` has the entries it began with, and perhaps the transport keys. -/
def Grown (initial head : List Char) : Prop :=
  serverEntries head = serverEntries initial ∨
    serverEntries head = serverEntries initial ++ missingTransport (serverEntries initial)

structure HostInv (initial : List Char) (h : Host) : Prop where
  registry : RegistryInv h.registry
  conf : ∃ head blocks, Renders h.text head blocks ∧ Mirror h.registry h.live blocks ∧
    Grown initial head ∧ (blocks = [] ∨ h.file.getLast? = some '\n')

variable {initial : List Char} {h t : Host}

theorem solid_of_validName (hName : validName name = true) : Solid name.toList := by
  intro c hMem
  unfold validName at hName
  rw [Bool.and_eq_true, List.all_eq_true] at hName
  have hChar := hName.2 c hMem
  simp only [Bool.or_eq_true, decide_eq_true_eq] at hChar
  rcases hChar with (hAlphanum | rfl) | rfl
  · exact not_isSpace_of_isAlphanum hAlphanum
  · decide
  · decide

theorem solid_hosts (mode : Mode) : ∀ ip ∈ mode.hosts, Solid ip.toList := by
  unfold Solid
  cases mode <;> decide +kernel

/-- The block of a record has the fields that its text is read again by. -/
theorem RecordSound.plain (hSound : RecordSound name record) : (record.block name).Plain where
  name := by
    have hName := hSound.name
    rw [nameMatches, Bool.or_eq_true, Bool.and_eq_true, decide_eq_true_eq] at hName
    rcases hName with hName | ⟨hLast, hName⟩
    · exact ⟨name.toList, solid_of_validName hName, .inl rfl⟩
    · obtain ⟨front, hFront⟩ := List.getLast?_eq_some_iff.mp hLast
      have hSolid := solid_of_validName hName
      rw [String.toList_ofList, hFront, List.dropLast_concat] at hSolid
      exact ⟨front, hSolid, .inr hFront⟩
  publicKey := hSound.publicKey.2
  psk := hSound.psk.2
  ip := solid_hosts _ _ hSound.ip

theorem HostInv.start {file : List Char} (hNoPeers : Untitled peerTitle (readText file)) :
    HostInv (readText file) (.start file) where
  registry := by
    refine ⟨?_, ?_, ?_, ?_⟩ <;> intro n <;> intros <;> contradiction
  conf := by
    refine ⟨readText file, [], ⟨(List.append_nil _).symm, hNoPeers, return_notMem_readText file,
      by simp⟩, ⟨List.nodup_nil, ?_, ?_⟩, .inl rfl, .inl rfl⟩
    · simp [Active, Host.start]
    · simp [Active, Host.start]

/-- The invariant says what the claim is about. -/
theorem HostInv.coupled (hInv : HostInv initial h) : Coupled initial h := by
  obtain ⟨head, blocks, hText, hMirror, hGrown, -⟩ := hInv.conf
  refine ⟨?_, ?_, hMirror.live, hInv.registry.addresses, hInv.registry.ports, ?_⟩
  · rw [hText.peerEntries]
    refine (List.nodup_map_iff_inj_on hMirror.nodup.of_map).mpr ?_
    intro block hBlock block' hBlock' hSame
    have hKey : block.publicKey = block'.publicKey := by
      simp only [PeerBlock.entries, List.cons.injEq, Prod.mk.injEq] at hSame
      exact hSame.1.2
    exact List.inj_on_of_nodup_map hMirror.nodup hBlock hBlock' hKey
  · intro entries
    rw [hText.peerEntries, List.mem_map]
    constructor
    · rintro ⟨block, hBlock, rfl⟩
      obtain ⟨n, r, hActive, rfl⟩ := (hMirror.blocks block).mp hBlock
      exact ⟨n, r, hActive, rfl⟩
    · rintro ⟨n, r, hActive, rfl⟩
      exact ⟨_, (hMirror.blocks _).mpr ⟨n, r, hActive, rfl⟩, rfl⟩
  · rwa [hText.interfaceEntries]

/-! ## Steps -/

/-- A peer is added, for a record that is not suspended any more, or new. -/
theorem HostInv.attach (hInv : HostInv initial h) (hSound : RecordSound name record)
    (hRegistry : RegistryInv registry')
    (hNew : ∀ n r, Active h.registry n r → r.publicKey ≠ record.publicKey)
    (hActive : ∀ n r, Active registry' n r ↔ n = name ∧ r = record ∨ Active h.registry n r) :
    HostInv initial ⟨registry', h.live.set record.publicKey record.peer,
      h.file ++ (record.block name).text⟩ where
  registry := hRegistry
  conf := by
    obtain ⟨head, blocks, hText, hMirror, hGrown, hLast⟩ := hInv.conf
    obtain ⟨head', hText', hEntries⟩ := hText.appendFile hLast hSound.plain
    refine ⟨head', _, hText', hMirror.attach hNew hActive, ?_, .inr ?_⟩
    · rwa [Grown, hEntries]
    · rw [List.getLast?_append, getLast?_text]
      rfl

/-- What is written as a whole is read again. -/
theorem Renders.written {text head : List Char} (hText : Renders text head blocks) :
    Renders (readText text) head blocks ∧ (blocks = [] ∨ text.getLast? = some '\n') := by
  refine ⟨by rwa [readText_of_no_return hText.return_notMem], ?_⟩
  by_cases hNil : blocks = []
  · exact .inl hNil
  · exact .inr (hText.getLast? hNil)

/-- The peer of a key is removed. -/
theorem HostInv.detach (hInv : HostInv initial h) (hKey : IsKey key)
    (hRegistry : RegistryInv registry')
    (hActive : ∀ n r, Active registry' n r ↔ Active h.registry n r ∧ r.publicKey ≠ key) :
    HostInv initial ⟨registry', h.live.erase key, dropPeerBlock h.text key⟩ where
  registry := hRegistry
  conf := by
    obtain ⟨head, blocks, hText, hMirror, hGrown, -⟩ := hInv.conf
    have hLength : ∀ block ∈ blocks, key.length = block.publicKey.length := by
      intro block hMem
      obtain ⟨n, r, hOld, rfl⟩ := (hMirror.blocks block).mp hMem
      exact hKey.1.trans (hInv.registry.sound n r hOld.1).publicKey.1.symm
    obtain ⟨hRead, hLast⟩ := (hText.drop hKey.2 hLength).written
    exact ⟨head, _, hRead, hMirror.detach hActive, hGrown, hLast⟩

theorem HostInv.migrate (hInv : HostInv initial h) {text : List Char}
    (hNew : migrateTransport31 h.text = some text) : HostInv initial { h with file := text } where
  registry := hInv.registry
  conf := by
    obtain ⟨head, blocks, hText, hMirror, hGrown, -⟩ := hInv.conf
    obtain ⟨head', hText', hEntries⟩ := hText.migrate hNew
    obtain ⟨hRead, hLast⟩ := hText'.written
    refine ⟨head', blocks, hRead, hMirror, ?_, hLast⟩
    rcases hGrown with hSame | hMore
    · right
      rw [hEntries, hSame]
    · -- nothing is missing a second time
      have hNone := migrateTransport31_eq_none hText
        (by rw [hMore]; exact missingTransport_migrated _)
      rw [hNone] at hNew
      cases hNew

/-- The record is the only one of its key. -/
theorem active_key (hRegistry : RegistryInv registry) (hRow : registry.row? name = some record)
    {n : String} {r : Record} (hActive : Active registry n r) :
    r.publicKey = record.publicKey ↔ n = name := by
  constructor
  · exact fun hKey => hRegistry.keys n name r record hActive.1 hRow hKey
  · rintro rfl
    rw [Option.mem_unique hActive.1 hRow]

/-- A registry in which the client is not active any more, and the others are as they were. -/
theorem active_without {after : Table String Record} (hRegistry : RegistryInv registry)
    (hRow : registry.row? name = some record) (hGone : ∀ r, ¬ Active after name r)
    (hOther : ∀ n, n ≠ name → after.row? n = registry.row? n) (n : String) (r : Record) :
    Active after n r ↔ Active registry n r ∧ r.publicKey ≠ record.publicKey := by
  by_cases hName : n = name
  · subst hName
    exact iff_of_false (hGone r) fun h => h.2 ((active_key hRegistry hRow h.1).mpr rfl)
  · rw [Active, hOther n hName, ← Active, iff_self_and]
    exact fun hActive hKey => hName ((active_key hRegistry hRow hActive).mp hKey)

theorem active_erase (hRegistry : RegistryInv registry) (hRow : registry.row? name = some record) :
    ∀ n r, Active (registry.erase name) n r ↔
      Active registry n r ∧ r.publicKey ≠ record.publicKey := by
  refine active_without hRegistry hRow (fun r hActive => ?_) fun n hName => ?_
  · have hNone := hActive.1
    rw [Table.row?_erase, if_pos rfl] at hNone
    cases hNone
  · rw [Table.row?_erase, if_neg hName]

theorem active_suspended (hRegistry : RegistryInv registry)
    (hRow : registry.row? name = some record) :
    ∀ n r, Active (registry.set name { record with suspended := true }) n r ↔
      Active registry n r ∧ r.publicKey ≠ record.publicKey := by
  refine active_without hRegistry hRow (fun r hActive => ?_) fun n hName =>
    Table.row?_set_of_ne _ _ hName
  obtain ⟨hSet, hState⟩ := hActive
  rw [Table.row?_set_self] at hSet
  rw [← Option.some.inj hSet] at hState
  cases hState

/-- A record set where none was active. -/
theorem active_set (hState : record.suspended = false)
    (hIdle : ∀ r, ¬ Active registry name r) (n : String) (r : Record) :
    Active (registry.set name record) n r ↔ n = name ∧ r = record ∨ Active registry n r := by
  constructor
  · rintro ⟨hSet, hActive⟩
    exact (row?_set_cases hSet).imp_right fun hOld => ⟨hOld, hActive⟩
  · rintro (⟨rfl, rfl⟩ | hActive)
    · exact ⟨Table.row?_set_self _ _ _, hState⟩
    · refine ⟨?_, hActive.2⟩
      rw [Table.row?_set, if_neg]
      · exact hActive.1
      · rintro rfl
        exact hIdle r hActive

theorem RegistryInv.set_suspended (hRegistry : RegistryInv registry)
    (hRow : registry.row? name = some record) (suspended : Bool) :
    RegistryInv (registry.set name { record with suspended }) := by
  refine hRegistry.of_rows fun n r hSet => ?_
  rcases row?_set_cases hSet with ⟨rfl, rfl⟩ | hOld
  · exact ⟨record, hRow, rfl⟩
  · exact ⟨r, hOld, rfl⟩

theorem RegistryInv.erase (hRegistry : RegistryInv registry) (name : String) :
    RegistryInv (registry.erase name) := by
  refine hRegistry.of_rows fun n r hErased => ?_
  rw [Table.row?_erase] at hErased
  split_ifs at hErased
  exact ⟨r, hErased, rfl⟩

/-- **One record.** A failure changes nothing. -/
theorem record_spec (hInv : HostInv initial h) (op : RecordOp) (awg : String → Bool)
    (name : String) : HostInv initial (op.record awg h name).1 ∧
      (∀ refusal, (op.record awg h name).2 = .error refusal → (op.record awg h name).1 = h) := by
  unfold RecordOp.record
  cases hRow : h.registry.row? name with
  | none => exact ⟨hInv, fun _ _ => rfl⟩
  | some record =>
    have hSound := hInv.registry.sound name record hRow
    cases op with
    | delete =>
      dsimp only
      split_ifs
      · exact ⟨hInv.detach hSound.publicKey (hInv.registry.erase name)
          (active_erase hInv.registry hRow), fun _ hError => nomatch hError⟩
      · exact ⟨hInv, fun _ _ => rfl⟩
    | suspend =>
      dsimp only
      split_ifs
      · exact ⟨hInv, fun _ _ => rfl⟩
      · exact ⟨hInv.detach hSound.publicKey (hInv.registry.set_suspended hRow true)
          (active_suspended hInv.registry hRow), fun _ hError => nomatch hError⟩
      · exact ⟨hInv, fun _ _ => rfl⟩
    | unsuspend =>
      dsimp only
      split_ifs with hState
      · exact ⟨hInv, fun _ _ => rfl⟩
      · have hIdle : ∀ r, ¬ Active h.registry name r := by
          intro r hActive
          rw [Option.mem_unique hRow hActive.1, hActive.2] at hState
          exact hState rfl
        have hRestored : RecordSound name { record with suspended := false } :=
          ⟨hSound.name, hSound.publicKey, hSound.psk, hSound.ip⟩
        have hAttached := hInv.attach hRestored (hInv.registry.set_suspended hRow false)
          (fun n r hActive hKey =>
            hIdle r ((active_key hInv.registry hRow hActive).mp hKey ▸ hActive))
          (active_set rfl hIdle)
        exact ⟨hAttached, fun _ hError => nomatch hError⟩
      · exact ⟨hInv, fun _ _ => rfl⟩

theorem inv_each (hInv : HostInv initial h) (op : RecordOp) (awg : String → Bool)
    (changed : Bool) (names : List String) : HostInv initial (op.each awg h changed names).1 := by
  induction names generalizing h changed with
  | nil => exact hInv
  | cons name names ih =>
    have hFirst := (record_spec hInv op awg name).1
    rw [RecordOp.each]
    cases hRecord : op.record awg h name with
    | mk t answer =>
      rw [hRecord] at hFirst
      cases answer with
      | error refusal => exact hFirst
      | ok now => exact ih hFirst (now || changed)

/-- What a creation goes on with. -/
theorem Host.prepareClient_ok {env : Env} {mode : Mode} {draw : Draw} {keys : Bool}
    {new : NewClient} (hNew : h.prepareClient env name mode draw keys = .ok new) :
    nameMatches name = true ∧ h.registry.row? name = none ∧
      ∃ serverPrivate ip port, nextIp mode (h.node.usedIps mode) = some ip ∧
        port ∈ h.node.freePorts ∧
        new = newClient env h.node.conf name mode draw serverPrivate ip port := by
  unfold Host.prepareClient at hNew
  split_ifs at hNew with hName hRow hSplit hKeys
  · split at hNew <;> cases hNew
  rw [Bool.not_eq_true', Bool.not_eq_false] at hName
  rw [Option.not_isSome_iff_eq_none] at hRow
  split at hNew
  · cases hNew
  · next serverPrivate hKey =>
    split at hNew
    · cases hNew
    · cases hNew
    · next ip port hIp hPort =>
      exact ⟨hName, hRow, serverPrivate, ip, port, hIp, List.mem_of_getElem? hPort,
        (Except.ok.inj hNew).symm⟩

/-- **A creation.** -/
theorem inv_created (hInv : HostInv initial h) {env : Env} {mode : Mode} {draw : Draw}
    {keys set : Bool} (hFresh : FreshDraw h (.create env name mode draw keys set))
    {new : NewClient} (hNew : h.prepareClient env name mode draw keys = .ok new) :
    HostInv initial (h.created new) := by
  obtain ⟨hName, hVacant, serverPrivate, ip, port, hIp, hPort, rfl⟩ := Host.prepareClient_ok hNew
  obtain ⟨hKey, hPsk, hFreshKey⟩ := hFresh
  have hHost : ip ∈ mode.hosts := List.mem_of_find?_eq_some hIp
  have hUnused : ip ∉ h.node.usedIps mode := by
    have hFound := List.find?_some hIp
    rw [Bool.and_eq_true, Bool.not_eq_true', List.contains_eq_mem] at hFound
    exact of_decide_eq_false hFound.2
  have hSound : RecordSound name
      (newClient env h.node.conf name mode draw serverPrivate ip port).record :=
    ⟨hName, hKey, hPsk, hHost⟩
  refine hInv.attach hSound ⟨?_, hInv.registry.keys.set hFreshKey, ?_, ?_⟩ ?_ (active_set rfl ?_)
  · intro n r hRow
    rcases row?_set_cases hRow with ⟨rfl, rfl⟩ | hOld
    · exact hSound
    · exact hInv.registry.sound n r hOld
  · refine hInv.registry.addresses.set fun n r hRow hSame => hUnused ?_
    obtain ⟨hMode, hAddress⟩ := Prod.mk.inj hSame
    exact mem_usedIps.mpr ⟨n, r, hRow, hMode, hAddress⟩
  · exact hInv.registry.ports.set fun n r hRow => (mem_freePorts.mp hPort).2 n r hRow
  · exact fun n r hActive => hFreshKey n r hActive.1
  · exact fun r hActive => nomatch hVacant.symm.trans hActive.1

variable {a : HostAction}

theorem inv_perform (hInv : HostInv initial h) (hFresh : FreshDraw h a) :
    HostInv initial (h.perform a).1 := by
  cases a with
  | create env name mode draw keys set =>
    show HostInv initial (h.createClient env name mode draw keys set).1
    unfold Host.createClient
    cases hNew : h.prepareClient env name mode draw keys with
    | error refusal => exact hInv
    | ok new =>
      dsimp only
      split_ifs
      · exact inv_created hInv hFresh hNew
      · exact hInv
  | records op name awg => exact inv_each hInv op awg false (op.records h name)
  | migrate =>
    show HostInv initial (match migrateTransport31 h.text with
      | none => h
      | some text => { h with file := text })
    cases hNew : migrateTransport31 h.text with
    | none => exact hInv
    | some text => exact hInv.migrate hNew

theorem inv_step (hInv : HostInv initial h) (hFresh : FreshDraw h a)
    (hStep : hostStep h a = some t) : HostInv initial t :=
  Option.some.inj hStep ▸ inv_perform hInv hFresh

/-! ## Failures -/

theorem recordsFor_cases (s : Node) (name : String) :
    (∃ record, recordsFor s name = [record]) ∨
      recordsFor s name = [profileRecord name .split, profileRecord name .full] ∧
        (s.registry.row? (profileRecord name .full)).isSome = true := by
  unfold recordsFor
  cases hAz : (s.registry.row? (profileRecord name .split)).isSome <;>
    cases hVpn : (s.registry.row? (profileRecord name .full)).isSome <;> simp [hAz, hVpn]

/-- The records that an operation goes on to: a single one, or those of a pair. -/
theorem records_cases (op : RecordOp) (h : Host) (name : String) :
    (∃ record, op.records h name = [record]) ∨
      h.registry.row? name = none ∧
        op.records h name = [profileRecord name .split, profileRecord name .full] ∧
        (h.registry.row? (profileRecord name .full)).isSome = true := by
  have hHeld : (∃ record, heldRecords h.node name = [record]) ∨ h.registry.row? name = none ∧
      heldRecords h.node name = [profileRecord name .split, profileRecord name .full] ∧
      (h.registry.row? (profileRecord name .full)).isSome = true := by
    unfold heldRecords
    split_ifs with hNone
    · exact (recordsFor_cases h.node name).imp_right
        fun hPair => ⟨Option.isNone_iff_eq_none.mp hNone, hPair⟩
    · exact .inl ⟨name, rfl⟩
  cases op with
  | delete =>
    show (∃ record, targets h.node name = [record]) ∨ _ ∧ targets h.node name = _ ∧ _
    unfold targets
    split_ifs with hPair
    · rw [Bool.and_eq_true, Option.isNone_iff_eq_none] at hPair
      exact (recordsFor_cases h.node name).imp_right fun hBoth => ⟨hPair.1, hBoth⟩
    · exact .inl ⟨name, rfl⟩
  | suspend | unsuspend => exact hHeld

theorem record_other (op : RecordOp) (awg : String → Bool) (h : Host) (name : String)
    {r : String} (hNe : r ≠ name) :
    (op.record awg h name).1.registry.row? r = h.registry.row? r := by
  unfold RecordOp.record
  cases h.registry.row? name with
  | none => rfl
  | some record =>
    cases op <;> dsimp only <;> split_ifs <;> first
      | rfl
      | exact Table.row?_set_of_ne _ _ hNe
      | exact (Table.row?_erase _ _ _).trans (if_neg hNe)

variable {refusal : Refusal}

/-- An operation on a record that is there fails with its command only. -/
theorem record_error {op : RecordOp} {awg : String → Bool}
    (hSome : (h.registry.row? name).isSome = true)
    (hError : op.record awg h name = (t, .error refusal)) : awg name = false := by
  obtain ⟨record, hRow⟩ := Option.isSome_iff_exists.mp hSome
  rw [← Bool.not_eq_true]
  intro hAwg
  unfold RecordOp.record at hError
  rw [hRow] at hError
  cases op <;> simp only [hAwg, if_true] at hError
  · cases hError
  · split_ifs at hError <;> cases hError
  · split_ifs at hError <;> cases hError

theorem raised_eq_some {answer : Except Refusal Bool}
    (hRaised : raised answer = some refusal) : answer = .error refusal := by
  cases answer with
  | error other => exact congrArg _ (Option.some.inj hRaised)
  | ok _ => cases hRaised

/-- **Record by record**, a failure is that of a single record, or of one of a pair. -/
theorem perform_error (hInv : HostInv initial h) {op : RecordOp} {awg : String → Bool}
    (hError : (op.perform awg h name).2 = .error refusal) :
    (op.perform awg h name).1 = h ∨
      HalfDone h (.records op name awg) (op.perform awg h name).1 := by
  have hSpec := record_spec hInv op awg
  unfold RecordOp.perform at hError ⊢
  rcases records_cases op h name with ⟨record, hOne⟩ | ⟨hNone, hPair, hVpn⟩
  · left
    rw [hOne, RecordOp.each] at hError ⊢
    have hFailed := (hSpec record).2
    cases hRecord : op.record awg h record with
    | mk t answer =>
      rw [hRecord] at hError hFailed
      cases answer with
      | error other => exact hFailed other rfl
      | ok now => cases hError
  · rw [hPair, RecordOp.each] at hError ⊢
    have hFailed := (hSpec (profileRecord name .split)).2
    have hFirst := (hSpec (profileRecord name .split)).1
    have hOther := record_other op awg h (profileRecord name .split) (profileRecord_ne name).symm
    cases hRecord : op.record awg h (profileRecord name .split) with
    | mk t answer =>
      rw [hRecord] at hError hFailed hFirst hOther
      cases answer with
      | error other => exact .inl (hFailed other rfl)
      | ok now =>
        right
        dsimp only at hError ⊢
        rw [RecordOp.each] at hError ⊢
        have hFailed' := (record_spec hFirst op awg (profileRecord name .full)).2
        cases hRecord' : op.record awg t (profileRecord name .full) with
        | mk u answer' =>
          rw [hRecord'] at hError hFailed'
          cases answer' with
          | ok _ => cases hError
          | error other =>
            obtain rfl := hFailed' other rfl
            exact ⟨op, name, awg, now, rfl, hNone, hRecord,
              record_error (by rw [hOther]; exact hVpn) hRecord'⟩

/-- **A step that fails** has changed nothing, or is done with the first record of a pair. -/
theorem raised_spec (hInv : HostInv initial h) (hRaised : (h.perform a).2 = some refusal) :
    (h.perform a).1 = h ∨ HalfDone h a (h.perform a).1 := by
  cases a with
  | create env name mode draw keys set =>
    left
    revert hRaised
    show (h.createClient env name mode draw keys set).2 = some refusal →
      (h.createClient env name mode draw keys set).1 = h
    unfold Host.createClient
    cases h.prepareClient env name mode draw keys with
    | error other => exact fun _ => rfl
    | ok new =>
      dsimp only
      split_ifs
      · exact fun hNone => nomatch hNone
      · exact fun _ => rfl
  | records op name awg => exact perform_error hInv (raised_eq_some hRaised)
  | migrate => cases hRaised

/-- **The stores stay coupled.** -/
theorem coupled_of_fresh (file : List Char) (hNoPeers : Untitled peerTitle (readText file))
    (actions : List HostAction) (hFresh : Along hostStep FreshDraw (.start file) actions)
    {h : Host} (hExec : exec hostStep (.start file) actions = some h) :
    Coupled (readText file) h ∧
      ∀ a refusal, (h.perform a).2 = some refusal →
        (h.perform a).1 = h ∨ HalfDone h a (h.perform a).1 := by
  have hInv : HostInv (readText file) h := invariant_exec
    (fun _ _ _ hInv hDraw hStep => inv_step hInv hDraw hStep) (.start hNoPeers) hFresh hExec
  exact ⟨hInv.coupled, fun a refusal => raised_spec hInv⟩

instance (key : String) : Decidable (IsKey key) :=
  inferInstanceAs (Decidable (key.length = 44 ∧ ∀ c ∈ key.toList, isSpace c = false))

instance (h : Host) : DecidablePred (FreshDraw h)
  | .create env _ _ draw _ _ => decidable_of_iff
      (IsKey (env.publicOf draw.privateKey) ∧ IsKey draw.psk ∧ ∀ r ∈ h.registry.keys,
        ∀ record ∈ h.registry.row? r, record.publicKey ≠ env.publicOf draw.privateKey)
      (and_congr_right fun _ => and_congr_right fun _ => (Table.forall_row_iff _ _).symm)
  | .records _ _ _ | .migrate => isTrue trivial

def exampleKey (c : Char) : String := String.ofList (List.replicate 43 c ++ ['='])

/-- An `awg` whose public keys are the private ones in capitals. -/
def capitalEnv : Env where
  publicOf := fun privateKey => privateKey.map Char.toUpper
  endpointHost := "vpn.example.com"
  splitAllowedIps := ["1.1.1.1/32"]
  mtu := 1280

def exampleFile : List Char := "[Interface]\nPrivateKey = server\nJc = 4\n".toList

/-- Both records of a client. -/
def examplePair : List HostAction :=
  [.create capitalEnv "a_az" .split ⟨exampleKey 'a', exampleKey '1', 3⟩ true true,
    .create capitalEnv "a_vpn" .full ⟨exampleKey 'b', exampleKey '2', 3⟩ true true]

/-- A pair is suspended by half, the transport keys are added, and the pair is deleted. -/
theorem coupled_halfSuspended : ∃ h, exec hostStep (.start exampleFile)
      (examplePair ++ [.records .suspend "a" (· ≠ "a_vpn"), .migrate,
        .records .delete "a" fun _ => true]) = some h ∧
    Coupled (readText exampleFile) h := by
  refine ⟨_, rfl, (coupled_of_fresh exampleFile ?_ (examplePair ++
    [.records .suspend "a" (· ≠ "a_vpn"), .migrate, .records .delete "a" fun _ => true]) ?_ rfl).1⟩
  · unfold Untitled
    decide
  · decide +kernel

/-- When the command for the second record of a pair fails, the first one is suspended. -/
theorem failure_keeps_not :
    ¬ ∀ file, Untitled peerTitle (readText file) → ∀ actions,
      Along hostStep FreshDraw (.start file) actions →
      ∀ h, exec hostStep (.start file) actions = some h →
      ∀ a refusal, (h.perform a).2 = some refusal → (h.perform a).1 = h := by
  intro hAll
  have hSame := hAll exampleFile (by unfold Untitled; decide) examplePair
    (by decide +kernel) _ rfl (.records .suspend "a" (· ≠ "a_vpn")) .fault (by decide +kernel)
  have hFile := congrArg Host.file hSame
  revert hFile
  decide +kernel

end AdminPanel.Awg3Clients
