import AdminPanel.Lib.Table

/-!
# AmneziaWG 3 clients on a node

`awg3_clients.py`: a client is two records of `clients.json`, each with a live peer, a block of
`awg1.conf` and a profile file.

* `Node` — the registry, the live peers, the server config and the profile files;
* `createClient`, `deleteClient` — with the step that fails and what it leaves;
* `prepareClient_ok`, `Ready` — when a creation gets past its checks, and with what;
* `deleteRecords_ok`, `Without` — what a deletion takes away.
-/

namespace AdminPanel.Awg3Clients

open List

open Lib (Table)

/-! ## The node -/

inductive Mode
  | split
  | full
  deriving DecidableEq, Repr

def Mode.subnet : Mode → String
  | .split => "10.9.0."
  | .full => "10.9.1."

def Mode.serverIp (mode : Mode) : String := mode.subnet ++ "1"

/-- `subnet.hosts()` -/
def Mode.hosts (mode : Mode) : List String :=
  (List.range 254).map fun k => mode.subnet ++ toString (k + 1)

/-- A record of `clients.json`. -/
structure Record where
  mode : Option Mode
  publicKey : String
  ip : String
  port : Option ℕ
  psk : String
  privateKey : String
  suspended : Bool := false
  deriving DecidableEq, Repr

def Record.modeOf (record : Record) : Mode := record.mode.getD .split

/-- `PORT` -/
def serverPort : ℕ := 51821

def Record.portOf (record : Record) : ℕ := record.port.getD serverPort

/-- A `[Peer]` block of `awg1.conf`. -/
structure PeerBlock where
  name : String
  publicKey : String
  psk : String
  ip : String
  deriving DecidableEq, Repr

/-- `awg1.conf`: the entries of `[Interface]` and the peers. -/
structure Conf where
  interface : List (String × String)
  peers : List PeerBlock
  deriving DecidableEq, Repr

/-- `_server_values(..).get(key)`: the last entry counts. -/
def Conf.value? (conf : Conf) (key : String) : Option String := conf.interface.reverse.lookup key

def Conf.drop (conf : Conf) (publicKey : String) : Conf :=
  { conf with peers := conf.peers.filter (·.publicKey ≠ publicKey) }

/-- A live peer of the interface. -/
structure Peer where
  psk : String
  ip : String
  deriving DecidableEq, Repr

/-- What `build_config` puts into a profile. -/
structure Profile where
  mode : Mode
  privateKey : String
  ip : String
  mtu : ℕ
  obfuscation : List (String × String)
  serverPublic : String
  psk : String
  endpointHost : String
  port : ℕ
  allowedIps : List String
  deriving DecidableEq, Repr

structure Node where
  registry : Table String Record
  /-- `awg show awg1`, by public key -/
  live : Table String Peer
  conf : Conf
  /-- by folder and record -/
  profiles : Table (Mode × String) Profile

/-- What does not change between two attempts. -/
structure Env where
  /-- `awg pubkey` -/
  publicOf : String → String
  endpointHost : String
  splitAllowedIps : List String
  mtu : ℕ

/-- What a creation draws: a private key, a preshared key and a place among the free ports. -/
structure Draw where
  privateKey : String
  psk : String
  port : ℕ
  deriving DecidableEq, Repr

/-! ## Names, addresses and ports -/

def profileRecord (name : String) : Mode → String
  | .split => name ++ "_az"
  | .full => name ++ "_vpn"

def baseNameMax : ℕ := 28

/-- A name without a suffix that it has and is longer than. -/
def withoutSuffix (suffix name : String) : Option String :=
  if suffix.toList <:+ name.toList ∧ suffix.length < name.length then
    some (String.ofList (name.toList.take (name.length - suffix.length)))
  else none

def baseName (record : String) : String :=
  ((withoutSuffix "_az" record).or (withoutSuffix "_vpn" record)).getD record

/-- `NAME_RE`, for a name without a line break -/
def validName (name : String) : Bool :=
  0 < name.length && name.length ≤ 32 &&
    name.toList.all fun c => c.isAlphanum || c = '_' || c = '-'

def Node.usedIps (s : Node) (mode : Mode) : List String :=
  (s.registry.keys.filterMap s.registry.row?).filterMap fun record =>
    if record.modeOf = mode then some record.ip else none

def nextIp (mode : Mode) (used : List String) : Option String :=
  mode.hosts.find? fun ip => ip ≠ mode.serverIp && !used.contains ip

def Node.freePorts (s : Node) : List ℕ :=
  (List.range' 51900 100).filter fun port =>
    !((s.registry.keys.filterMap s.registry.row?).map Record.portOf).contains port

/-- `_random_port`; `place` is drawn. -/
def Node.randomPort (s : Node) (place : ℕ) : Option ℕ :=
  s.freePorts[place % s.freePorts.length]?

/-- `AWG3_OBFUSCATION_KEYS` -/
def obfuscationKeys : List String :=
  ["Jc", "Jmin", "Jmax", "S1", "S2", "S3", "S4", "H1", "H2", "H3", "H4",
    "HeaderProtectionKey", "ContentPaddingAddition", "RandomTrailers", "DisableCookies"]

/-- `obfuscation_lines` -/
def Conf.obfuscation (conf : Conf) : List (String × String) :=
  obfuscationKeys.filterMap fun key => (conf.value? key).map (key, ·)

def allowedIpsFor (mode : Mode) (splitAllowedIps : List String) : List String :=
  match mode with
  | .full => ["0.0.0.0/0"]
  | .split => "10.9.0.0/24" :: splitAllowedIps.filter (· ≠ "10.9.0.0/24")

/-! ## Creating -/

/-- Why a request fails. -/
inductive Refusal
  /-- A command, a file or the answer failed. -/
  | fault
  | badName
  | exists
  | notFound
  | emptySplitList
  | noServerKey
  | subnetFull
  | noFreePort
  deriving DecidableEq, Repr

/-- The step of a creation that fails. -/
inductive CreationStep
  /-- Reading the files, asking for keys, or the request to the node. -/
  | prepare
  /-- `awg set`, which may have added the peer. -/
  | peer (added : Bool)
  | block
  | save
  | profile
  /-- The record is made, but the panel does not hear of it. -/
  | answer
  deriving DecidableEq, Repr

/-- What a creation makes. -/
structure NewClient where
  name : String
  record : Record
  profile : Profile
  deriving DecidableEq, Repr

def NewClient.peer (new : NewClient) : Peer := ⟨new.record.psk, new.record.ip⟩

/-- `_peer_block` -/
def NewClient.block (new : NewClient) : PeerBlock :=
  ⟨new.name, new.record.publicKey, new.record.psk, new.record.ip⟩

/-- What is there when the step fails, or at the end. -/
def Node.created (s : Node) (new : NewClient) (fault : Option CreationStep) : Node :=
  let s₁ := { s with live := s.live.set new.record.publicKey new.peer }
  let s₂ := { s₁ with conf.peers := s₁.conf.peers ++ [new.block] }
  let s₃ := { s₂ with registry := s₂.registry.set new.name new.record }
  let s₄ := { s₃ with profiles := s₃.profiles.set (new.record.modeOf, new.name) new.profile }
  match fault with
  | some .prepare => s
  | some (.peer added) => if added then s₁ else s
  | some .block => s₁
  | some .save => s₂
  | some .profile => s₃
  | some .answer => s₄
  | none => s₄

def newClient (env : Env) (conf : Conf) (name : String) (mode : Mode) (draw : Draw)
    (serverPrivate ip : String) (port : ℕ) : NewClient where
  name := name
  record :=
    { mode := some mode, publicKey := env.publicOf draw.privateKey, ip, port := some port
      psk := draw.psk, privateKey := draw.privateKey }
  profile :=
    { mode, privateKey := draw.privateKey, ip, mtu := env.mtu, obfuscation := conf.obfuscation
      serverPublic := env.publicOf serverPrivate, psk := draw.psk
      endpointHost := env.endpointHost, port
      allowedIps := allowedIpsFor mode env.splitAllowedIps }

/-- The checks of `create_client`, and what it is going to make. -/
def prepareClient (env : Env) (s : Node) (name : String) (mode : Mode) (draw : Draw) :
    Except Refusal NewClient :=
  if !validName name then .error .badName
  else if (s.registry.row? name).isSome then .error .exists
  else if mode = .split ∧ env.splitAllowedIps = [] then .error .emptySplitList
  else
    match s.conf.value? "PrivateKey", nextIp mode (s.usedIps mode), s.randomPort draw.port with
    | none, _, _ => .error .noServerKey
    | _, none, _ => .error .subnetFull
    | _, _, none => .error .noFreePort
    | some serverPrivate, some ip, some port =>
      .ok (newClient env s.conf name mode draw serverPrivate ip port)

def createClient (env : Env) (s : Node) (name : String) (mode : Mode) (draw : Draw)
    (fault : Option CreationStep) : Node × Option Refusal :=
  match prepareClient env s name mode draw with
  | .error refusal => (s, some refusal)
  | .ok new => (s.created new fault, fault.map fun _ => .fault)

/-! ## Deleting -/

/-- The step of the deletion of a record that fails. -/
inductive RemovalStep
  | load
  /-- `awg set .. remove`, which may have removed the peer. -/
  | peer (removed : Bool)
  /-- `awg1.conf` is written in place, and something else is left of it. -/
  | rewrite (left : Conf)
  | unlink
  | save
  deriving DecidableEq, Repr

/-- What is there when the step fails, or at the end. -/
def Node.removed (s : Node) (name : String) (record : Record) (fault : Option RemovalStep) : Node :=
  let s₁ := { s with live := s.live.erase record.publicKey }
  let s₂ := { s₁ with conf := s₁.conf.drop record.publicKey }
  let s₃ := { s₂ with profiles := s₂.profiles.erase (record.modeOf, name) }
  match fault with
  | some .load => s
  | some (.peer removed) => if removed then s₁ else s
  | some (.rewrite left) => { s₁ with conf := left }
  | some .unlink => s₂
  | some .save => s₃
  | none => { s₃ with registry := s₃.registry.erase name }

/-- `delete_client` for one record -/
def deleteRecord (s : Node) (name : String) (fault : Option RemovalStep) : Node × Option Refusal :=
  match s.registry.row? name with
  | none => (s, some .notFound)
  | some record => (s.removed name record fault, fault.map fun _ => .fault)

/-- The next step after a step that has not failed. -/
def andThen : Node × Option Refusal → (Node → Node × Option Refusal) → Node × Option Refusal
  | (s, some refusal), _ => (s, some refusal)
  | (s, none), next => next s

/-- One record after the other; the fault strikes at one of them. -/
def deleteRecords (s : Node) : List String → Option (ℕ × RemovalStep) → Node × Option Refusal
  | [], _ => (s, none)
  | name :: _, some (0, step) => deleteRecord s name (some step)
  | name :: names, some (k + 1, step) =>
    andThen (deleteRecord s name none) fun s' => deleteRecords s' names (some (k, step))
  | name :: names, none =>
    andThen (deleteRecord s name none) fun s' => deleteRecords s' names none

def recordsFor (s : Node) (name : String) : List String :=
  let paired := [profileRecord name .split, profileRecord name .full].filter fun record =>
    (s.registry.row? record).isSome
  if paired = [] then [name] else paired

/-- The records that `delete_client` goes on to. -/
def targets (s : Node) (name : String) : List String :=
  if (s.registry.row? name).isNone && s.registry.keys.any (baseName · = name) then
    recordsFor s name
  else [name]

def deleteClient (s : Node) (name : String) (fault : Option (ℕ × RemovalStep)) :
    Node × Option Refusal :=
  deleteRecords s (targets s name) fault

/-! ## What a creation needs -/

/-- The node takes a new record. -/
structure Ready (env : Env) (s : Node) (name : String) (mode : Mode) : Prop where
  valid : validName name = true
  vacant : s.registry.row? name = none
  split : ¬(mode = .split ∧ env.splitAllowedIps = [])
  serverKey : (s.conf.value? "PrivateKey").isSome = true
  ip : (nextIp mode (s.usedIps mode)).isSome = true
  port : s.freePorts ≠ []

variable {env : Env} {s s' : Node} {name : String} {mode : Mode} {draw : Draw} {new : NewClient}

theorem randomPort_isSome (place : ℕ) : (s.randomPort place).isSome = true ↔ s.freePorts ≠ [] := by
  rw [Node.randomPort, isSome_getElem?, ← length_pos_iff]
  constructor
  · intro hLt
    omega
  · exact fun hPos => Nat.mod_lt _ hPos

theorem prepareClient_ok (h : prepareClient env s name mode draw = .ok new) :
    Ready env s name mode ∧ ∃ serverPrivate ip port, port ∈ s.freePorts ∧
      s.conf.value? "PrivateKey" = some serverPrivate ∧
      new = newClient env s.conf name mode draw serverPrivate ip port := by
  unfold prepareClient at h
  split_ifs at h with hName hRow hSplit
  rw [Bool.not_eq_true', Bool.not_eq_false] at hName
  rw [Option.not_isSome_iff_eq_none] at hRow
  split at h
  · cases h
  · cases h
  · cases h
  · next serverPrivate ip port hKey hIp hPort =>
    cases h
    have hFree := (randomPort_isSome draw.port).mp (Option.isSome_iff_exists.mpr ⟨port, hPort⟩)
    refine ⟨⟨hName, hRow, hSplit, by rw [hKey]; rfl, by rw [hIp]; rfl, hFree⟩, ?_⟩
    exact ⟨serverPrivate, ip, port, mem_of_getElem? hPort, hKey, rfl⟩

theorem prepareClient_ready (h : Ready env s name mode) (draw : Draw) :
    ∃ new, prepareClient env s name mode draw = .ok new := by
  obtain ⟨serverPrivate, hKey⟩ := Option.isSome_iff_exists.mp h.serverKey
  obtain ⟨ip, hIp⟩ := Option.isSome_iff_exists.mp h.ip
  obtain ⟨port, hPort⟩ := Option.isSome_iff_exists.mp
    ((randomPort_isSome draw.port).mpr h.port)
  unfold prepareClient
  rw [h.valid, h.vacant, hKey, hIp, hPort, if_neg h.split]
  exact ⟨_, rfl⟩

theorem mem_usedIps {ip : String} : ip ∈ s.usedIps mode ↔
    ∃ name record, s.registry.row? name = some record ∧ record.modeOf = mode ∧ record.ip = ip := by
  simp only [Node.usedIps, mem_filterMap, Option.ite_none_right_eq_some, Option.some.injEq]
  constructor
  · rintro ⟨record, ⟨name, -, hRow⟩, hMode, hIp⟩
    exact ⟨name, record, hRow, hMode, hIp⟩
  · rintro ⟨name, record, hRow, hMode, hIp⟩
    exact ⟨record, ⟨name, Table.mem_keys_of_row? hRow, hRow⟩, hMode, hIp⟩

theorem mem_freePorts {port : ℕ} : port ∈ s.freePorts ↔ port ∈ List.range' 51900 100 ∧
    ∀ name record, s.registry.row? name = some record → record.portOf ≠ port := by
  rw [Node.freePorts, mem_filter, Bool.not_eq_true', contains_eq_mem,
    decide_eq_false_iff_not]
  refine and_congr_right fun _ => ?_
  constructor
  · intro hNone name record hRow hPort
    exact hNone (mem_map.mpr ⟨record, mem_filterMap.mpr
      ⟨name, Table.mem_keys_of_row? hRow, hRow⟩, hPort⟩)
  · intro hNone hMem
    obtain ⟨record, hRecord, hPort⟩ := mem_map.mp hMem
    obtain ⟨name, -, hRow⟩ := mem_filterMap.mp hRecord
    exact hNone name record hRow hPort

theorem nextIp_congr {used used' : List String} (h : ∀ ip, ip ∈ used ↔ ip ∈ used') :
    nextIp mode used = nextIp mode used' := by
  unfold nextIp
  congr 1
  funext ip
  rw [contains_eq_mem, contains_eq_mem, decide_eq_decide.mpr (h ip)]

/-- Whether a record is taken depends on the records only. -/
theorem Ready.congr (h : Ready env s name mode)
    (hRegistry : ∀ r, s'.registry.row? r = s.registry.row? r)
    (hConf : s'.conf.interface = s.conf.interface) : Ready env s' name mode where
  valid := h.valid
  vacant := by rw [hRegistry, h.vacant]
  split := h.split
  serverKey := by
    rw [Conf.value?, hConf]
    exact h.serverKey
  ip := by
    have hUsed : ∀ ip, ip ∈ s'.usedIps mode ↔ ip ∈ s.usedIps mode := by
      simp only [mem_usedIps, hRegistry, implies_true]
    rw [nextIp_congr hUsed]
    exact h.ip
  port := by
    obtain ⟨port, hPort⟩ := exists_mem_of_ne_nil _ h.port
    rw [mem_freePorts] at hPort
    refine ne_nil_of_mem (a := port) (mem_freePorts.mpr ⟨hPort.1, fun r record hRow => ?_⟩)
    exact hPort.2 r record (hRegistry r ▸ hRow)

/-! ## What a deletion takes away -/

/-- The public keys of the records. -/
def Node.ownKeys (s : Node) (own : List String) : List String :=
  own.filterMap fun r => (s.registry.row? r).map (·.publicKey)

def Conf.dropAll (conf : Conf) (keys : List String) : Conf :=
  { conf with peers := conf.peers.filter fun block => block.publicKey ∉ keys }

/-- The file is the profile of one of the records. -/
def Node.ownsFile (s : Node) (own : List String) (file : Mode × String) : Prop :=
  file.2 ∈ own ∧ (s.registry.row? file.2).map Record.modeOf = some file.1

/-- `s'` is `s` without the records. -/
structure Without (s : Node) (records : List String) (s' : Node) : Prop where
  registry : ∀ r, s'.registry.row? r = if r ∈ records then none else s.registry.row? r
  live : ∀ key, s'.live.row? key = if key ∈ s.ownKeys records then none else s.live.row? key
  conf : s'.conf = s.conf.dropAll (s.ownKeys records)
  profiles : ∀ file, (s.ownsFile records file → s'.profiles.row? file = none) ∧
    (¬ s.ownsFile records file → s'.profiles.row? file = s.profiles.row? file)

theorem Conf.dropAll_dropAll (conf : Conf) (keys keys' : List String) :
    (conf.dropAll keys).dropAll keys' = conf.dropAll (keys ++ keys') := by
  simp only [Conf.dropAll, filter_filter, mem_append, not_or, Bool.decide_and,
    decide_not]
  congr 1
  exact filter_congr fun block _ => Bool.and_comm _ _

theorem Conf.drop_eq (conf : Conf) (key : String) : conf.drop key = conf.dropAll [key] := by
  simp [Conf.drop, Conf.dropAll]

theorem Conf.dropAll_congr (conf : Conf) {keys keys' : List String}
    (h : ∀ key, key ∈ keys ↔ key ∈ keys') : conf.dropAll keys = conf.dropAll keys' := by
  unfold Conf.dropAll
  congr 1
  exact filter_congr fun block _ => by rw [decide_eq_decide.mpr (not_congr (h _))]

theorem ownKeys_congr {own : List String}
    (h : ∀ r ∈ own, s'.registry.row? r = s.registry.row? r) : s'.ownKeys own = s.ownKeys own :=
  filterMap_congr fun r hMem => by rw [h r hMem]

theorem ownKeys_append (own own' : List String) :
    s.ownKeys (own ++ own') = s.ownKeys own ++ s.ownKeys own' := filterMap_append

theorem Without.nil (s : Node) : Without s [] s where
  registry := fun r => (if_neg not_mem_nil).symm
  live := fun key => (if_neg not_mem_nil).symm
  conf := by simp [Conf.dropAll, Node.ownKeys]
  profiles := fun file => ⟨fun hOwns => absurd hOwns.1 not_mem_nil, fun _ => rfl⟩

variable {record : Record} {names : List String}

/-- One record after the others. -/
theorem Without.cons {t : Node} (hRow : s.registry.row? name = some record) (hNew : name ∉ names)
    (hRest : Without (s.removed name record none) names t) : Without s (name :: names) t := by
  have hRegistry : ∀ r, (s.removed name record none).registry.row? r =
      if r = name then none else s.registry.row? r := fun r => Table.row?_erase _ _ _
  -- the records that follow are as they were
  have hOther : ∀ r ∈ names, (s.removed name record none).registry.row? r =
      s.registry.row? r := by
    intro r hMem
    rw [hRegistry, if_neg (ne_of_mem_of_not_mem hMem hNew)]
  have hKeys : s.ownKeys (name :: names) = record.publicKey :: s.ownKeys names := by
    simp [Node.ownKeys, hRow]
  refine ⟨?_, ?_, ?_, ?_⟩
  · intro r
    rw [hRest.registry, hRegistry]
    by_cases hIn : r ∈ names
    · rw [if_pos hIn, if_pos (mem_cons_of_mem _ hIn)]
    · by_cases hSame : r = name
      · rw [if_neg hIn, if_pos hSame, if_pos (mem_cons.mpr (.inl hSame))]
      · rw [if_neg hIn, if_neg hSame,
          if_neg fun hMem => (mem_cons.mp hMem).elim hSame hIn]
  · intro key
    have hLive : (s.removed name record none).live.row? key =
        if key = record.publicKey then none else s.live.row? key := Table.row?_erase _ _ _
    rw [hRest.live, ownKeys_congr hOther, hKeys, hLive]
    by_cases hIn : key ∈ s.ownKeys names
    · rw [if_pos hIn, if_pos (mem_cons_of_mem _ hIn)]
    · by_cases hSame : key = record.publicKey
      · rw [if_neg hIn, if_pos hSame, if_pos (mem_cons.mpr (.inl hSame))]
      · rw [if_neg hIn, if_neg hSame,
          if_neg fun hMem => (mem_cons.mp hMem).elim hSame hIn]
  · have hConf : (s.removed name record none).conf = s.conf.drop record.publicKey := rfl
    rw [hRest.conf, ownKeys_congr hOther, hConf, Conf.drop_eq, Conf.dropAll_dropAll, hKeys,
      singleton_append]
  · intro file
    have hProfiles : (s.removed name record none).profiles.row? file =
        if file = (record.modeOf, name) then none else s.profiles.row? file :=
      Table.row?_erase _ _ _
    -- a profile is that of this record or of one of the others
    have hSplit : s.ownsFile (name :: names) file ↔ file = (record.modeOf, name) ∨
        (s.removed name record none).ownsFile names file := by
      unfold Node.ownsFile
      constructor
      · rintro ⟨hMem, hMode⟩
        rcases mem_cons.mp hMem with hSame | hIn
        · rw [hSame, hRow] at hMode
          exact .inl (Prod.ext (Option.some.inj hMode).symm hSame)
        · exact .inr ⟨hIn, by rw [hOther _ hIn, hMode]⟩
      · rintro (rfl | ⟨hIn, hMode⟩)
        · exact ⟨mem_cons_self, by rw [hRow]; rfl⟩
        · exact ⟨mem_cons_of_mem _ hIn, by rw [← hOther _ hIn, hMode]⟩
    by_cases hOwns : (s.removed name record none).ownsFile names file
    · exact ⟨fun _ => (hRest.profiles file).1 hOwns,
        fun hNot => absurd (hSplit.mpr (.inr hOwns)) hNot⟩
    · rw [(hRest.profiles file).2 hOwns, hProfiles, hSplit]
      constructor
      · exact fun hOwn => if_pos (hOwn.resolve_right hOwns)
      · exact fun hNot => if_neg fun hSame => hNot (.inl hSame)

theorem deleteRecord_of_row (hRow : s.registry.row? name = some record)
    (fault : Option RemovalStep) :
    deleteRecord s name fault = (s.removed name record fault, fault.map fun _ => .fault) := by
  rw [deleteRecord, hRow]

theorem registry_removed (s : Node) (record : Record) {r : String} (hOther : r ≠ name) :
    (s.removed name record none).registry.row? r = s.registry.row? r := by
  show (s.registry.erase name).row? r = s.registry.row? r
  rw [Table.row?_erase, if_neg hOther]

/-- Other records are still to be deleted. -/
theorem isSome_removed
    (hIn : ∀ r ∈ names, (s.registry.row? r).isSome = true) (hNew : name ∉ names) :
    ∀ r ∈ names, ((s.removed name record none).registry.row? r).isSome = true := by
  intro r hMem
  rw [registry_removed s record (ne_of_mem_of_not_mem hMem hNew)]
  exact hIn r hMem

theorem deleteRecords_none
    (hIn : ∀ r ∈ names, (s.registry.row? r).isSome = true) (hNodup : names.Nodup) :
    ∃ t, deleteRecords s names none = (t, none) ∧ Without s names t := by
  induction names generalizing s with
  | nil => exact ⟨s, rfl, .nil s⟩
  | cons name names ih =>
    rw [forall_mem_cons] at hIn
    obtain ⟨hNew, hNodup⟩ := nodup_cons.mp hNodup
    obtain ⟨record, hRow⟩ := Option.isSome_iff_exists.mp hIn.1
    obtain ⟨t, hDone, hWithout⟩ := ih (isSome_removed hIn.2 hNew) hNodup
    refine ⟨t, ?_, hWithout.cons hRow hNew⟩
    rw [deleteRecords, deleteRecord_of_row hRow]
    exact hDone

variable {k : ℕ}

/-- A fault leaves the records before it deleted, and its own begun. -/
theorem deleteRecords_fault
    (hIn : ∀ r ∈ names, (s.registry.row? r).isSome = true) (hNodup : names.Nodup)
    (hK : k < names.length) (step : RemovalStep) :
    ∃ w record, Without s (names.take k) w ∧ w.registry.row? names[k] = some record ∧
      deleteRecords s names (some (k, step)) =
        (w.removed names[k] record (some step), some .fault) := by
  induction names generalizing s k with
  | nil => exact absurd hK (Nat.not_lt_zero k)
  | cons name names ih =>
    rw [forall_mem_cons] at hIn
    obtain ⟨hNew, hNodup⟩ := nodup_cons.mp hNodup
    obtain ⟨record, hRow⟩ := Option.isSome_iff_exists.mp hIn.1
    cases k with
    | zero => exact ⟨s, record, .nil s, hRow, deleteRecord_of_row hRow (some step)⟩
    | succ k =>
      obtain ⟨w, last, hWithout, hLast, hDone⟩ :=
        ih (isSome_removed hIn.2 hNew) hNodup (Nat.lt_of_succ_lt_succ hK)
      refine ⟨w, last, ?_, hLast, ?_⟩
      · rw [take_succ_cons]
        exact hWithout.cons hRow fun hMem => hNew (mem_of_mem_take hMem)
      · rw [deleteRecords, deleteRecord_of_row hRow]
        exact hDone

/-- A fault after the last record does not strike. -/
theorem deleteRecords_beyond (s : Node) (hK : names.length ≤ k)
    (step : RemovalStep) : deleteRecords s names (some (k, step)) = deleteRecords s names none := by
  induction names generalizing s k with
  | nil => rfl
  | cons name names ih =>
    cases k with
    | zero => exact absurd hK (Nat.not_succ_le_zero _)
    | succ k =>
      rw [deleteRecords, deleteRecords]
      congr 1
      funext t
      exact ih t (Nat.le_of_succ_le_succ hK)

theorem deleteRecords_ok (hNodup : names.Nodup) (hDone : (deleteRecords s names none).2 = none) :
    ∀ r ∈ names, (s.registry.row? r).isSome = true := by
  induction names generalizing s with
  | nil => exact fun _ hMem => absurd hMem not_mem_nil
  | cons name names ih =>
    obtain ⟨hNew, hNodup⟩ := nodup_cons.mp hNodup
    rw [deleteRecords] at hDone
    cases hRow : s.registry.row? name with
    | none =>
      rw [deleteRecord, hRow] at hDone
      cases hDone
    | some record =>
      rw [deleteRecord_of_row hRow] at hDone
      have hRest := ih hNodup hDone
      refine forall_mem_cons.mpr ⟨by rw [hRow]; rfl, fun r hMem => ?_⟩
      rw [← registry_removed s record (ne_of_mem_of_not_mem hMem hNew)]
      exact hRest r hMem

/-! ## The records of a client -/

theorem withoutSuffix_append {suffix : String} (h : name ≠ "") :
    withoutSuffix suffix (name ++ suffix) = some name := by
  have hLength : suffix.length < (name ++ suffix).length := by
    have hPos : name.length ≠ 0 := fun hZero => h (String.length_eq_zero_iff.mp hZero)
    rw [String.length_append]
    omega
  have hSuffix : suffix.toList <:+ (name ++ suffix).toList := by
    rw [String.toList_append]
    exact suffix_append _ _
  have hTake : (name ++ suffix).length - suffix.length = name.toList.length := by
    rw [String.length_append, String.length_toList]
    omega
  rw [withoutSuffix, if_pos ⟨hSuffix, hLength⟩, hTake, String.toList_append, take_left,
    String.ofList_toList]

theorem withoutSuffix_vpn (name : String) : withoutSuffix "_az" (name ++ "_vpn") = none := by
  refine if_neg ?_
  rintro ⟨hSuffix, -⟩
  rw [String.toList_append] at hSuffix
  have hLast := hSuffix.getLast (by decide)
  rw [getLast_append_of_ne_nil _ (by decide)] at hLast
  exact absurd hLast (by decide)

theorem baseName_profileRecord (h : name ≠ "") (mode : Mode) :
    baseName (profileRecord name mode) = name := by
  unfold baseName
  cases mode with
  | split =>
    rw [profileRecord, withoutSuffix_append h]
    rfl
  | full =>
    rw [profileRecord, withoutSuffix_vpn, withoutSuffix_append h]
    rfl

theorem profileRecord_ne (name : String) :
    profileRecord name .split ≠ profileRecord name .full := by
  intro hSame
  have hChars := congrArg String.toList hSame
  rw [profileRecord, profileRecord, String.toList_append, String.toList_append] at hChars
  exact absurd (append_cancel_left hChars) (by decide)

theorem withoutSuffix_ne_empty {suffix record : String}
    (h : withoutSuffix suffix record = some "") : False := by
  unfold withoutSuffix at h
  split_ifs at h with hSuffix
  have hChars := congrArg String.toList (Option.some.inj h)
  rw [String.toList_ofList] at hChars
  have hLength := congrArg List.length hChars
  rw [length_take, String.length_toList] at hLength
  have hZero : "".toList.length = 0 := rfl
  omega

theorem baseName_eq_empty {record : String} (h : baseName record = "") : record = "" := by
  unfold baseName at h
  cases hAz : withoutSuffix "_az" record with
  | some base =>
    rw [hAz] at h
    exact (withoutSuffix_ne_empty (hAz.trans (congrArg some h))).elim
  | none =>
    cases hVpn : withoutSuffix "_vpn" record with
    | some base =>
      rw [hAz, hVpn] at h
      exact (withoutSuffix_ne_empty (hVpn.trans (congrArg some h))).elim
    | none =>
      rw [hAz, hVpn] at h
      exact h

theorem targets_of_isSome (h : (s.registry.row? name).isSome = true) : targets s name = [name] := by
  obtain ⟨record, hRow⟩ := Option.isSome_iff_exists.mp h
  rw [targets, hRow]
  rfl

theorem recordsFor_nodup (s : Node) (name : String) : (recordsFor s name).Nodup := by
  unfold recordsFor
  dsimp only
  split_ifs
  · exact nodup_singleton name
  · refine List.Nodup.filter _ (nodup_cons.mpr ⟨?_, nodup_singleton _⟩)
    rw [mem_singleton]
    exact profileRecord_ne name

theorem targets_nodup (s : Node) (name : String) : (targets s name).Nodup := by
  unfold targets
  split_ifs
  · exact recordsFor_nodup s name
  · exact nodup_singleton name

/-- The records of a client that can be deleted: one of its name, or the pair. -/
theorem targets_cases (hIn : ∀ r ∈ targets s name, (s.registry.row? r).isSome = true) :
    (s.registry.row? name).isSome = true ∧ targets s name = [name] ∨
      name ≠ "" ∧ s.registry.row? name = none ∧
        targets s name = [profileRecord name .split, profileRecord name .full].filter fun record =>
          (s.registry.row? record).isSome := by
  unfold targets at hIn ⊢
  split_ifs at hIn ⊢ with hPair
  · rw [Bool.and_eq_true, Option.isNone_iff_eq_none, any_eq_true] at hPair
    obtain ⟨hNone, r, hMem, hBase⟩ := hPair
    refine .inr ⟨?_, hNone, ?_⟩
    · rintro rfl
      have hEmpty := baseName_eq_empty (of_decide_eq_true hBase)
      rw [hEmpty, s.registry.mem_keys, hNone] at hMem
      cases hMem
    · unfold recordsFor at hIn ⊢
      dsimp only at hIn ⊢
      split_ifs at hIn ⊢
      · have hRow := hIn name (mem_singleton_self name)
        rw [hNone] at hRow
        cases hRow
      · rfl
  · exact .inl ⟨hIn name (mem_singleton_self name), rfl⟩

theorem filter_not_mem_take {l : List String} (h : l.Nodup) (k : ℕ) :
    l.filter (· ∉ l.take k) = l.drop k := by
  have hParts := h
  rw [← take_append_drop k l, nodup_append'] at hParts
  calc l.filter (· ∉ l.take k)
      = (l.take k).filter (· ∉ l.take k) ++ (l.drop k).filter (· ∉ l.take k) := by
        rw [← filter_append, take_append_drop]
    _ = [] ++ l.drop k := by
        congr 1
        · rw [filter_eq_nil_iff]
          exact fun r hMem => by simp [hMem]
        · rw [filter_eq_self]
          exact fun r hMem => decide_eq_true fun hTaken => hParts.2.2 hTaken hMem
    _ = l.drop k := nil_append _

theorem getElem_not_mem_take {l : List String} (h : l.Nodup) (hK : k < l.length) :
    l[k] ∉ l.take k := by
  intro hTaken
  have hRest : l[k] ∈ l.filter (· ∉ l.take k) := by
    rw [filter_not_mem_take h, drop_eq_getElem_cons hK]
    exact mem_cons_self
  exact of_decide_eq_true (mem_filter.mp hRest).2 hTaken

/-- When some of its records are gone, a client has the rest. -/
theorem targets_rest (hIn : ∀ r ∈ targets s name, (s.registry.row? r).isSome = true)
    (hK : k < (targets s name).length) {w : Node} (hW : ∀ r, w.registry.row? r =
      if r ∈ (targets s name).take k then none else s.registry.row? r) :
    targets w name = (targets s name).drop k := by
  rcases targets_cases hIn with ⟨hRow, hOne⟩ | ⟨hName, hNone, hPair⟩
  · rw [hOne] at hK hW ⊢
    obtain rfl : k = 0 := by simpa using hK
    refine targets_of_isSome ?_
    rw [hW, take_zero, if_neg not_mem_nil]
    exact hRow
  · have hLast : (targets s name)[k] ∈ targets s name := getElem_mem hK
    -- the record at which the deletion has stopped
    have hStill : (w.registry.row? (targets s name)[k]).isSome = true := by
      rw [hW, if_neg (getElem_not_mem_take (targets_nodup s name) hK)]
      exact hIn _ hLast
    have hBase : baseName (targets s name)[k] = name := by
      have hMem : (targets s name)[k] ∈ [profileRecord name .split, profileRecord name .full] := by
        have hSub : ∀ r ∈ targets s name,
            r ∈ [profileRecord name .split, profileRecord name .full] := by
          rw [hPair]
          exact fun r hIn => (mem_filter.mp hIn).1
        exact hSub _ hLast
      rcases mem_pair.mp hMem with hSame | hSame
      · rw [hSame, baseName_profileRecord hName]
      · rw [hSame, baseName_profileRecord hName]
    have hFilter : ([profileRecord name .split, profileRecord name .full].filter fun record =>
        (w.registry.row? record).isSome) = (targets s name).drop k := by
      rw [← filter_not_mem_take (targets_nodup s name) k]
      conv_rhs => rw [hPair]
      rw [filter_filter]
      refine filter_congr fun r _ => ?_
      rw [hW, ← hPair]
      by_cases hTaken : r ∈ (targets s name).take k
      · simp [hTaken]
      · simp [hTaken]
    have hNoName : w.registry.row? name = none := by
      rw [hW, hNone, ite_self]
    have hAny : w.registry.keys.any (baseName · = name) = true :=
      any_eq_true.mpr ⟨_, (w.registry.mem_keys _).mpr hStill, decide_eq_true hBase⟩
    have hSome : (targets s name).drop k ≠ [] := by
      rw [drop_eq_getElem_cons hK]
      exact cons_ne_nil _ _
    rw [targets, hNoName, hAny, Option.isNone_none, Bool.and_self, if_pos rfl, recordsFor, hFilter]
    exact if_neg hSome

end AdminPanel.Awg3Clients
