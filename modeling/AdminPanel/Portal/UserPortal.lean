import AdminPanel.Panel.ConfigTable
import AdminPanel.Portal.QrDownload
import Mathlib.Data.List.Dedup

/-!
# The portal link of a user

`build_user_portal_payload` lists the profile files of the clients that a user owns;
`read_portal_profile` serves one of them by the node, the client name and the path of its download
link.

* `PortalNode` — what a node answers: the profile files of a client and their contents;
* `ownedPortalTargets`, `listFilesForConfigs`, `buildUserPortalPayload`, `readPortalProfile` — as
  `client_portal.py` has them;
* `ServesOwn` — the link lists and serves the files of its user, all that it lists and no others;
* `OwnTargets` — the condition on the configs and the marks of the nodes under which it does.
-/

namespace AdminPanel.Portal

open List Panel

/-! ## Nodes -/

/-- An item of `get_profile_files`, or of `_awg3_portal_entries`. -/
structure ProfileFile where
  path : String
  name : String := ""
  protocol : String := ""
  variant : String := ""
  deriving DecidableEq, Repr

def awg3PortalPathPrefix : String := "awg3:"

/-- `profile_record(name, "split")` and `profile_record(name, "full")` -/
def profileRecord (name : String) (split : Bool) : String :=
  name ++ (if split then "_az" else "_vpn")

def hasParentStep (path : String) : Bool := decide (['.', '.'] <:+: path.toList)

/-- The profiles are files below the install directory of the node. -/
structure IsProfilePath (path : String) : Prop where
  absolute : path.toList.head? = some '/'
  trimmed : stripped path = path
  plain : hasParentStep path = false

/-- A row of `nodes` and the files behind it. -/
structure PortalNode where
  name : String
  portalLabel : Option String := none
  /-- `status == NodeStatus.offline`, which the last check of the node has left. -/
  offline : Bool := false
  /-- Every request to the node raises this. -/
  unreachable : Option HttpError := none
  profileFiles : ClientName → VpnType → List ProfileFile
  awg3Records : List String := []
  readProfileFile : String → String
  awg3ClientConfig : String → String
  pathsOk : ∀ client vpnType, ∀ file ∈ profileFiles client vpnType, IsProfilePath file.path
  /-- A file is the profile of one client and protocol. -/
  apart : ∀ client vpnType client' vpnType', ∀ file ∈ profileFiles client vpnType,
    ∀ file' ∈ profileFiles client' vpnType', file.path = file'.path →
    client = client' ∧ vpnType = vpnType'

def PortalNode.awg3PortalEntries (node : PortalNode) (clientName : String) : List ProfileFile :=
  [(true, "AmneziaWG 3 (антизапрет)", "antizapret"),
    (false, "AmneziaWG 3 (полный VPN)", "vpn")].filterMap fun (split, label, variant) =>
    if profileRecord clientName split ∈ node.awg3Records then
      some ⟨awg3PortalPathPrefix ++ profileRecord clientName split, label, "amneziawg3", variant⟩
    else none

/-- The files of a client and protocol, before the panel chooses among them. -/
def PortalNode.filesOf (node : PortalNode) (client : ClientName) : VpnType → List ProfileFile
  | .amneziawg3 => node.awg3PortalEntries client.text
  | vpnType => node.profileFiles client vpnType

/-- `path.startswith(AWG3_PORTAL_PATH_PREFIX)` -/
def isAwg3Path (path : String) : Bool := awg3PortalPathPrefix.toList.isPrefixOf path.toList

/-- What a path of the portal stands for on the node. -/
def PortalNode.content (node : PortalNode) (path : String) : String :=
  if isAwg3Path path then
    node.awg3ClientConfig (String.ofList (path.toList.drop awg3PortalPathPrefix.length))
  else node.readProfileFile path

/-! ## Listing -/

/-- The settings behind the portal. -/
structure PortalEnv where
  nodes : Nat → Option PortalNode
  /-- `profile_file_allowed` under the visibility policy of an owner: protocol, variant, path. -/
  profileFileAllowed : Option Nat → String → String → String → Bool
  protocolFeatureEnabled : String → Bool
  /-- `build_profile_download_filename`: client, protocol, variant, path. -/
  downloadFilename : String → String → String → String → String
  casefold : String → String
  /-- The ids of `users`. -/
  users : List Nat

def nodeUnknown : HttpError := ⟨404, "Узел не найден"⟩

/-- An item of `_list_files_for_configs`. -/
structure PortalFile where
  path : String
  label : String
  filename : String
  vpnType : String
  configId : Nat
  deriving DecidableEq, Repr

/-- An entry of `_portal_file_entries`: the file under its download link. -/
structure PortalLink where
  file : PortalFile
  nodeId : Nat
  clientName : String
  path : String
  deriving DecidableEq, Repr

structure PortalClient where
  nodeId : Nat
  clientName : ClientName
  protocols : List String
  files : List PortalLink
  deriving DecidableEq

structure PortalNodeEntry where
  nodeId : Nat
  label : String
  clients : List PortalClient
  deriving DecidableEq

section

variable (env : PortalEnv) (t : ConfigTable)

/-- `_adapter_for_node_id`, with the first request to the node. -/
def adapterForNodeId (nodeId : Nat) : Except HttpError PortalNode :=
  match env.nodes nodeId with
  | none => .error nodeUnknown
  | some node =>
    match node.unreachable with
    | some error => .error error
    | none => .ok node

def portalProtocolForFile (file : ProfileFile) (vpnType : VpnType) : String :=
  let proto := normalizeClientName file.protocol
  if proto ∈ ["openvpn", "wireguard", "amneziawg", "amneziawg2", "amneziawg3"] then proto
  else vpnType.value

/-- The owner, if it is a user. -/
def ownerForConfig (row : ConfigRow) : Option Nat :=
  if row.ownerId ∈ env.users then some row.ownerId else none

/-- The file is one that the portal shows for the config. -/
def visible (row : ConfigRow) (file : ProfileFile) : Bool :=
  let protocol := portalProtocolForFile file row.vpnType
  file.path ≠ "" && env.protocolFeatureEnabled protocol &&
    env.profileFileAllowed (ownerForConfig env row) protocol file.variant file.path

/-- The item made of a file; `enrich_profile_files` has named all but the AmneziaWG 3 files. -/
def portalFile (id : Nat) (row : ConfigRow) (file : ProfileFile) : PortalFile :=
  let protocol := portalProtocolForFile file row.vpnType
  let named := if row.vpnType = .amneziawg3 then ""
    else env.downloadFilename row.clientName.text file.protocol file.variant file.path
  let filename := if named = "" then
    env.downloadFilename row.clientName.text protocol file.variant file.path else named
  let label := if file.name = "" then filename else file.name
  ⟨file.path, label, filename, protocol, id⟩

/-- One turn of `_list_files_for_configs`. -/
def configFiles (node : PortalNode) (config : Nat × ConfigRow) : List PortalFile :=
  ((node.filesOf config.2.clientName config.2.vpnType).filter (visible env config.2)).map
    (portalFile env config.1 config.2)

def listFilesForConfigs : List (Nat × ConfigRow) → Except HttpError (List PortalFile)
  | [] => .ok []
  | config :: rest => do
    let node ← adapterForNodeId env config.2.nodeId
    return (config :: rest).flatMap (configFiles env node)

/-- The configs of a client on a node, shadows apart. -/
def clientConfigs (nodeId : Nat) (client : ClientName) : List (Nat × ConfigRow) :=
  (t.ids fun row => row.nodeId = nodeId && row.clientName = client &&
    row.haPrimaryConfigId.isNone).filterMap fun id => (t.row? id).map (id, ·)

/-- The order of `ORDER BY node_id, client_name`. -/
def targetLe (a b : Nat × ClientName) : Prop :=
  a.1 < b.1 ∨ a.1 = b.1 ∧ a.2.text ≤ b.2.text

instance : DecidableRel targetLe := fun a b =>
  inferInstanceAs (Decidable (a.1 < b.1 ∨ a.1 = b.1 ∧ a.2.text ≤ b.2.text))

/-- `_owned_portal_targets`; equal targets are neighbours once they are in order, so that it does
not matter which of them stays. -/
def ownedPortalTargets (userId : Nat) : List (Nat × ClientName) :=
  (((t.ids fun row => row.ownerId = userId && row.haPrimaryConfigId.isNone).filterMap fun id =>
    (t.row? id).map fun row => (row.nodeId, row.clientName)).insertionSort targetLe).dedup

def buildClientPortalEntry (nodeId : Nat) (client : ClientName) :
    Except HttpError PortalClient := do
  let files ← listFilesForConfigs env (clientConfigs t nodeId client)
  return {
    nodeId := nodeId
    clientName := client
    protocols := (files.map (·.vpnType)).dedup.insertionSort (· ≤ ·)
    files := files.map fun file => ⟨file, nodeId, client.text, file.path⟩ }

/-- `info is not None and info.offline` -/
def markedOffline (nodeId : Nat) : Bool := (env.nodes nodeId).any PortalNode.offline

/-- One turn of the loop over the targets, with `failed_nodes` and the entries so far. -/
def payloadTurn (found : List Nat × List PortalClient) (target : Nat × ClientName) :
    List Nat × List PortalClient :=
  if target.1 ∈ found.1 || markedOffline env target.1 then found
  else
    match buildClientPortalEntry env t target.1 target.2 with
    | .error _ => (target.1 :: found.1, found.2)
    | .ok entry => if entry.files = [] then found else (found.1, found.2 ++ [entry])

def PortalNode.label (node : PortalNode) : String :=
  let label := stripped (node.portalLabel.getD "")
  if label = "" then node.name else label

def nodeLabel (nodeId : Nat) : String :=
  let label := ((env.nodes nodeId).map PortalNode.label).getD ""
  if label = "" then "Сервер " ++ toString nodeId else label

/-- The entries of `build_user_portal_payload`, before they are put under their nodes. -/
def portalClients (userId : Nat) : List PortalClient :=
  ((ownedPortalTargets t userId).foldl (payloadTurn env t) ([], [])).2

/-- `nodes` of `build_user_portal_payload` -/
def buildUserPortalPayload (userId : Nat) : List PortalNodeEntry :=
  let entries := portalClients env t userId
  let nodes := (entries.map (·.nodeId)).dedup.map fun nodeId => PortalNodeEntry.mk nodeId
    (nodeLabel env nodeId) ((entries.filter (·.nodeId = nodeId)).insertionSort
      fun a b => a.clientName.text ≤ b.clientName.text)
  nodes.insertionSort fun a b => env.casefold a.label < env.casefold b.label ∨
    env.casefold a.label = env.casefold b.label ∧ a.nodeId ≤ b.nodeId

/-! ## Serving -/

def pathRefused : HttpError := ⟨400, "Некорректный путь"⟩

def fileUnknown : HttpError := ⟨404, "Файл не найден"⟩

def clientMissing : HttpError := ⟨400, "Не указан клиент"⟩

def clientUnknown : HttpError := ⟨404, "Клиент не найден"⟩

/-- `_read_client_portal_profile`: the file name and the content. -/
def readClientPortalProfile (nodeId : Nat) (client : ClientName) (path : String) :
    Except HttpError (String × String) :=
  let path := stripped path
  if path = "" || hasParentStep path then .error pathRefused
  else do
    let files ← listFilesForConfigs env (clientConfigs t nodeId client)
    -- the last item of a path stays in the dictionary
    match files.reverse.find? (·.path = path) with
    | none => .error fileUnknown
    | some item =>
      let node ← adapterForNodeId env nodeId
      if isAwg3Path path then return (item.filename, node.content path)
      else return (env.downloadFilename client.text "" "" path, node.content path)

/-- `read_portal_profile` for the link of a user. -/
def readPortalProfile (userId : Nat) (path : String) (nodeId : Option Nat)
    (clientName : Option String) : Except HttpError (String × String) :=
  let key := normalizeClientName (clientName.getD "")
  match nodeId with
  | none => .error clientMissing
  | some nodeId =>
    if key = "" then .error clientMissing
    else
      match (ownedPortalTargets t userId).find? fun target =>
          target.1 = nodeId && normalizeClientName target.2.text = key with
      | none => .error clientUnknown
      | some target => readClientPortalProfile env t target.1 target.2 path

end

/-! ## What the link gives -/

section

variable (env : PortalEnv) (t : ConfigTable) (userId : Nat)

/-- The link is one of the payload. -/
def Lists (link : PortalLink) : Prop :=
  ∃ entry ∈ buildUserPortalPayload env t userId, ∃ client ∈ entry.clients, link ∈ client.files

/-- The path is a profile of the client on the node, and the config of its protocol is the
user's. -/
def OwnFile (nodeId : Nat) (clientName path : String) : Prop :=
  ∃ id row node, t.row? id = some row ∧ row.ownerId = userId ∧ row.nodeId = nodeId ∧
    row.clientName.text = clientName ∧ env.nodes nodeId = some node ∧
    ∃ file ∈ node.filesOf row.clientName row.vpnType, file.path = path

/-- The content of the path on the node. -/
def IsContent (nodeId : Nat) (path content : String) : Prop :=
  ∃ node, env.nodes nodeId = some node ∧ content = node.content path

/-- The link of the user gives access to the user's files, to all it lists and to no others. -/
structure ServesOwn : Prop where
  lists_own : ∀ link, Lists env t userId link → OwnFile env t userId link.nodeId link.clientName
    link.path
  serves_own : ∀ path nodeId clientName out,
    readPortalProfile env t userId path nodeId clientName = .ok out →
    ∃ node client, nodeId = some node ∧ OwnFile env t userId node client (stripped path)
  serves_all : ∀ link, Lists env t userId link → ∃ out,
    readPortalProfile env t userId link.path (some link.nodeId) (some link.clientName) = .ok out ∧
      IsContent env link.nodeId link.path out.2
  nothing_else : ∀ path nodeId clientName out,
    readPortalProfile env t userId path nodeId clientName = .ok out →
    ∃ link, Lists env t userId link ∧ nodeId = some link.nodeId ∧ stripped path = link.path ∧
      normalizeClientName (clientName.getD "") = normalizeClientName link.clientName ∧
      IsContent env link.nodeId link.path out.2

/-- The user owns a config of the client. -/
def Owns (nodeId : Nat) (client : ClientName) : Prop :=
  ∃ id row, t.row? id = some row ∧ row.ownerId = userId ∧ row.haPrimaryConfigId = none ∧
    row.nodeId = nodeId ∧ row.clientName = client

/-- The node has a file for the config that the settings let the portal show. -/
def HasVisible (row : ConfigRow) : Prop :=
  ∃ node, adapterForNodeId env row.nodeId = .ok node ∧
    ∃ file ∈ node.filesOf row.clientName row.vpnType, visible env row file = true

/-- The client is the first of the user's clients on the node with its name in this or another
case. -/
def IsFirst (row : ConfigRow) : Prop :=
  ∀ client, Owns t userId row.nodeId client →
    normalizeClientName client.text = normalizeClientName row.clientName.text →
    ¬ client.text < row.clientName.text

/-- Of the configs with files, of clients that the user has a config of: on a node that is not
marked offline they are the user's and their client is the first of its name; on a node that is,
but answers, it is not the first. -/
structure OwnTargets : Prop where
  owned : ∀ id row, t.row? id = some row → row.haPrimaryConfigId = none →
    Owns t userId row.nodeId row.clientName → HasVisible env row →
    markedOffline env row.nodeId = false → row.ownerId = userId
  first : ∀ id row, t.row? id = some row → row.haPrimaryConfigId = none →
    Owns t userId row.nodeId row.clientName → HasVisible env row →
    (IsFirst t userId row ↔ markedOffline env row.nodeId = false)

end

/-! ## Paths -/

section

variable {node : PortalNode} {file file' : ProfileFile} {client client' : ClientName}
  {vpnType vpnType' : VpnType}

theorem mem_awg3PortalEntries {name : String} (h : file ∈ node.awg3PortalEntries name) :
    ∃ split, file.path = awg3PortalPathPrefix ++ profileRecord name split := by
  obtain ⟨⟨split, label, variant⟩, -, hSome⟩ := mem_filterMap.mp h
  dsimp only at hSome
  split_ifs at hSome
  cases hSome
  exact ⟨split, rfl⟩

theorem toList_awg3Path (name : String) (split : Bool) :
    (awg3PortalPathPrefix ++ profileRecord name split).toList =
      "awg3:".toList ++ name.toList ++ (if split then "_az" else "_vpn").toList := by
  rw [profileRecord, String.toList_append, String.toList_append, append_assoc,
    awg3PortalPathPrefix]

/-- A record belongs to one client. -/
theorem awg3Path_injective {name name' : String} {split split' : Bool}
    (h : awg3PortalPathPrefix ++ profileRecord name split =
      awg3PortalPathPrefix ++ profileRecord name' split') : name = name' := by
  have hLists := congrArg String.toList h
  rw [toList_awg3Path, toList_awg3Path, append_assoc, append_assoc] at hLists
  have hTails := append_cancel_left hLists
  have hLast := congrArg List.getLast? hTails
  cases split <;> cases split' <;> simp at hLast hTails
  all_goals exact String.toList_inj.mp hTails

/-- The character of an AmneziaWG 3 path is one of a name or the colon of the prefix. -/
theorem mem_awg3Path {split : Bool} {c : Char}
    (h : c ∈ (awg3PortalPathPrefix ++ profileRecord client.text split).toList) :
    isNameChar c = true ∨ c = ':' := by
  rw [toList_awg3Path] at h
  rcases mem_append.mp h with hFront | hSuffix
  · rcases mem_append.mp hFront with hPrefix | hName
    · have hAll : ∀ d ∈ "awg3:".toList, isNameChar d = true ∨ d = ':' := by decide
      exact hAll c hPrefix
    · exact .inl (all_eq_true.mp client.charsOk c hName)
  · have hAll : ∀ split : Bool, ∀ d ∈ (if split then "_az" else "_vpn").toList,
        isNameChar d = true ∨ d = ':' := by decide
    exact hAll split c hSuffix

/-- The path of a profile as it comes back in a request is the path itself. -/
theorem filePath_ok (h : file ∈ node.filesOf client vpnType) :
    stripped file.path = file.path ∧ file.path ≠ "" ∧ hasParentStep file.path = false := by
  by_cases hType : vpnType = .amneziawg3
  · rw [hType] at h
    obtain ⟨split, hPath⟩ := mem_awg3PortalEntries h
    rw [hPath]
    refine ⟨?_, ?_, ?_⟩
    · rw [stripped, Lib.PyText.strip_of_not_space, String.ofList_toList]
      intro c hC
      rcases mem_awg3Path hC with hName | rfl
      · exact not_isSpace_of_isNameChar hName
      · decide
    · intro hEmpty
      have hLists := congrArg String.toList hEmpty
      rw [toList_awg3Path] at hLists
      simp at hLists
    · rw [hasParentStep, decide_eq_false_iff_not]
      intro hInfix
      have hDot : '.' ∈ (awg3PortalPathPrefix ++ profileRecord client.text split).toList :=
        hInfix.subset mem_cons_self
      rcases mem_awg3Path hDot with hName | hColon
      · exact absurd hName (by decide)
      · exact absurd hColon (by decide)
  · have hFile : file ∈ node.profileFiles client vpnType := by
      cases vpnType with
      | amneziawg3 => exact absurd rfl hType
      | _ => exact h
    have hOk := node.pathsOk client vpnType file hFile
    refine ⟨hOk.trimmed, ?_, hOk.plain⟩
    intro hEmpty
    have hHead := hOk.absolute
    rw [hEmpty] at hHead
    cases hHead

theorem absolute_of_profileFiles (hType : vpnType ≠ .amneziawg3)
    (h : file ∈ node.filesOf client vpnType) :
    file ∈ node.profileFiles client vpnType ∧ file.path.toList.head? = some '/' := by
  have hFile : file ∈ node.profileFiles client vpnType := by
    cases vpnType with
    | amneziawg3 => exact absurd rfl hType
    | _ => exact h
  exact ⟨hFile, (node.pathsOk client vpnType file hFile).absolute⟩

theorem head_awg3Path (name : String) (split : Bool) :
    (awg3PortalPathPrefix ++ profileRecord name split).toList.head? = some 'a' := by
  rw [toList_awg3Path]
  rfl

theorem ClientName.eq_of_text {a b : ClientName} (h : a.text = b.text) : a = b := by
  cases a
  cases b
  simpa using h

/-- A path is a profile of one client and protocol. -/
theorem client_of_path (h : file ∈ node.filesOf client vpnType)
    (h' : file' ∈ node.filesOf client' vpnType') (hPath : file.path = file'.path) :
    client = client' ∧ vpnType = vpnType' := by
  by_cases hType : vpnType = .amneziawg3
  · rw [hType] at h
    obtain ⟨split, hFile⟩ := mem_awg3PortalEntries h
    by_cases hType' : vpnType' = .amneziawg3
    · rw [hType'] at h'
      obtain ⟨split', hFile'⟩ := mem_awg3PortalEntries h'
      have hText := awg3Path_injective (hFile.symm.trans (hPath.trans hFile'))
      exact ⟨ClientName.eq_of_text hText, hType.trans hType'.symm⟩
    · have hHead := (absolute_of_profileFiles hType' h').2
      rw [← hPath, hFile, head_awg3Path] at hHead
      exact absurd hHead (by decide)
  · obtain ⟨hFile, hHead⟩ := absolute_of_profileFiles hType h
    by_cases hType' : vpnType' = .amneziawg3
    · rw [hType'] at h'
      obtain ⟨split', hFile'⟩ := mem_awg3PortalEntries h'
      rw [hPath, hFile', head_awg3Path] at hHead
      exact absurd hHead (by decide)
    · obtain ⟨hFile', -⟩ := absolute_of_profileFiles hType' h'
      exact node.apart client vpnType client' vpnType' file hFile file' hFile' hPath

end

/-! ## Targets and configs -/

variable {node : PortalNode}

section

variable {env : PortalEnv} {t : ConfigTable} {userId nodeId : Nat} {client : ClientName}

theorem mem_ownedPortalTargets :
    (nodeId, client) ∈ ownedPortalTargets t userId ↔ Owns t userId nodeId client := by
  rw [ownedPortalTargets, mem_dedup, mem_insertionSort, mem_filterMap]
  constructor
  · rintro ⟨id, hId, hSome⟩
    obtain ⟨row, hRow, hPair⟩ := Option.map_eq_some_iff.mp hSome
    obtain ⟨row', hRow', hP⟩ := ConfigTable.mem_ids.mp hId
    obtain rfl := Option.mem_unique hRow hRow'
    simp only [Bool.and_eq_true, decide_eq_true_eq, Option.isNone_iff_eq_none] at hP
    obtain ⟨rfl, rfl⟩ := Prod.mk.injEq .. ▸ hPair
    exact ⟨id, row, hRow, hP.1, hP.2, rfl, rfl⟩
  · rintro ⟨id, row, hRow, hOwner, hShadow, rfl, rfl⟩
    refine ⟨id, ConfigTable.mem_ids.mpr ⟨row, hRow, ?_⟩, by rw [hRow]; rfl⟩
    simp [hOwner, hShadow]

theorem mem_clientConfigs {config : Nat × ConfigRow} :
    config ∈ clientConfigs t nodeId client ↔ t.row? config.1 = some config.2 ∧
      config.2.nodeId = nodeId ∧ config.2.clientName = client ∧
      config.2.haPrimaryConfigId = none := by
  rw [clientConfigs, mem_filterMap]
  constructor
  · rintro ⟨id, hId, hSome⟩
    obtain ⟨row, hRow, rfl⟩ := Option.map_eq_some_iff.mp hSome
    obtain ⟨row', hRow', hP⟩ := ConfigTable.mem_ids.mp hId
    obtain rfl := Option.mem_unique hRow hRow'
    simp only [Bool.and_eq_true, decide_eq_true_eq, Option.isNone_iff_eq_none, and_assoc] at hP
    exact ⟨hRow, hP⟩
  · rintro ⟨hRow, hNode, hName, hShadow⟩
    refine ⟨config.1, ConfigTable.mem_ids.mpr ⟨config.2, hRow, ?_⟩, by rw [hRow]; rfl⟩
    simp [hNode, hName, hShadow]

instance : Std.Total targetLe where
  total a b := by
    unfold targetLe
    have hText := String.le_total a.2.text b.2.text
    rcases Nat.lt_trichotomy a.1 b.1 with hLt | hEq | hGt
    · exact .inl (.inl hLt)
    · rcases hText with hLe | hLe
      · exact .inl (.inr ⟨hEq, hLe⟩)
      · exact .inr (.inr ⟨hEq.symm, hLe⟩)
    · exact .inr (.inl hGt)

instance : IsTrans (Nat × ClientName) targetLe where
  trans a b c hAB hBC := by
    rcases hAB with hAB | ⟨hAB, hTextAB⟩ <;> rcases hBC with hBC | ⟨hBC, hTextBC⟩
    · exact .inl (hAB.trans hBC)
    · exact .inl (hBC ▸ hAB)
    · exact .inl (hAB ▸ hBC)
    · exact .inr ⟨hAB.trans hBC, String.le_trans hTextAB hTextBC⟩

theorem sorted_ownedPortalTargets (t : ConfigTable) (userId : Nat) :
    (ownedPortalTargets t userId).Pairwise targetLe :=
  (pairwise_insertionSort targetLe _).sublist (dedup_sublist _)

/-- In an ordered list the first element found is the least one. -/
theorem le_of_find? {α : Type} {r : α → α → Prop} {p : α → Bool} {l : List α} {a b : α}
    (hSorted : l.Pairwise r) (hFind : l.find? p = some a) (hMem : b ∈ l) (hP : p b = true) :
    a = b ∨ r a b := by
  induction l with
  | nil => cases hMem
  | cons x l ih =>
    rw [pairwise_cons] at hSorted
    rw [List.find?_cons] at hFind
    cases hX : p x with
    | true =>
      rw [hX] at hFind
      cases hFind
      rcases mem_cons.mp hMem with rfl | hRest
      · exact .inl rfl
      · exact .inr (hSorted.1 b hRest)
    | false =>
      rw [hX] at hFind
      rcases mem_cons.mp hMem with rfl | hRest
      · rw [hP] at hX
        cases hX
      · exact ih hSorted.2 hFind hRest

/-! ## The payload -/

theorem listFilesForConfigs_ok (hNode : adapterForNodeId env nodeId = .ok node) :
    listFilesForConfigs env (clientConfigs t nodeId client) =
      .ok ((clientConfigs t nodeId client).flatMap (configFiles env node)) := by
  cases hConfigs : clientConfigs t nodeId client with
  | nil => rfl
  | cons config rest =>
    have hMem : config ∈ clientConfigs t nodeId client := by
      rw [hConfigs]
      exact mem_cons_self
    rw [listFilesForConfigs, (mem_clientConfigs.mp hMem).2.1, hNode]
    rfl

/-- A client with configs on a node that does not answer has no list. -/
theorem listFilesForConfigs_error {error : HttpError}
    (hNode : adapterForNodeId env nodeId = .error error) {files : List PortalFile}
    (h : listFilesForConfigs env (clientConfigs t nodeId client) = .ok files) : files = [] := by
  cases hConfigs : clientConfigs t nodeId client with
  | nil =>
    rw [hConfigs] at h
    cases h
    rfl
  | cons config rest =>
    have hMem : config ∈ clientConfigs t nodeId client := by
      rw [hConfigs]
      exact mem_cons_self
    rw [hConfigs, listFilesForConfigs, (mem_clientConfigs.mp hMem).2.1, hNode] at h
    cases h

/-- The item is made of a visible file of a config of the client. -/
theorem mem_listFiles {item : PortalFile} :
    item ∈ (clientConfigs t nodeId client).flatMap (configFiles env node) ↔
      ∃ id row, t.row? id = some row ∧ row.nodeId = nodeId ∧ row.clientName = client ∧
        row.haPrimaryConfigId = none ∧ ∃ file ∈ node.filesOf client row.vpnType,
          visible env row file = true ∧ item = portalFile env id row file := by
  rw [mem_flatMap]
  constructor
  · rintro ⟨⟨id, row⟩, hConfig, hItem⟩
    obtain ⟨hRow, hNode, hName, hShadow⟩ := mem_clientConfigs.mp hConfig
    obtain ⟨file, hFile, rfl⟩ := mem_map.mp hItem
    obtain ⟨hFile, hVisible⟩ := mem_filter.mp hFile
    dsimp only at hRow hNode hName hShadow hFile hVisible
    rw [hName] at hFile
    exact ⟨id, row, hRow, hNode, hName, hShadow, file, hFile, hVisible, rfl⟩
  · rintro ⟨id, row, hRow, hNode, hName, hShadow, file, hFile, hVisible, rfl⟩
    refine ⟨(id, row), mem_clientConfigs.mpr ⟨hRow, hNode, hName, hShadow⟩, ?_⟩
    refine mem_map.mpr ⟨file, mem_filter.mpr ⟨?_, hVisible⟩, rfl⟩
    rw [hName]
    exact hFile

/-- What the payload has for a target. -/
def entryOf (env : PortalEnv) (t : ConfigTable) (target : Nat × ClientName) : Option PortalClient :=
  if markedOffline env target.1 then none
  else match buildClientPortalEntry env t target.1 target.2 with
  | .error _ => none
  | .ok entry => if entry.files = [] then none else some entry

theorem buildClientPortalEntry_ok (t : ConfigTable) (client : ClientName)
    (hNode : adapterForNodeId env nodeId = .ok node) :
    ∃ entry, buildClientPortalEntry env t nodeId client = .ok entry ∧ entry.nodeId = nodeId ∧
      entry.files = ((clientConfigs t nodeId client).flatMap (configFiles env node)).map
        fun file => ⟨file, nodeId, client.text, file.path⟩ := by
  rw [buildClientPortalEntry, listFilesForConfigs_ok hNode]
  exact ⟨_, rfl, rfl, rfl⟩

theorem entryOf_none (t : ConfigTable) (client : ClientName) {error : HttpError}
    (hNode : adapterForNodeId env nodeId = .error error) :
    entryOf env t (nodeId, client) = none := by
  unfold entryOf
  split_ifs
  · rfl
  cases hEntry : buildClientPortalEntry env t nodeId client with
  | error _ => rfl
  | ok entry =>
    rw [buildClientPortalEntry] at hEntry
    cases hFiles : listFilesForConfigs env (clientConfigs t nodeId client) with
    | error _ =>
      rw [hFiles] at hEntry
      cases hEntry
    | ok files =>
      rw [hFiles, listFilesForConfigs_error hNode hFiles] at hEntry
      cases hEntry
      exact if_pos rfl

/-- A node that failed raises again, so that every target gets its entry. -/
theorem foldl_payloadTurn (targets : List (Nat × ClientName)) (found : List Nat × List PortalClient)
    (hFailed : ∀ nodeId ∈ found.1, ∃ error, adapterForNodeId env nodeId = .error error) :
    (targets.foldl (payloadTurn env t) found).2 = found.2 ++ targets.filterMap (entryOf env t) := by
  induction targets generalizing found with
  | nil => simp
  | cons target targets ih =>
    obtain ⟨nodeId, client⟩ := target
    rw [foldl_cons, filterMap_cons]
    cases hMarked : markedOffline env nodeId with
    -- marked offline: passed over without a call
    | true =>
      have hTurn : payloadTurn env t found (nodeId, client) = found := by
        rw [payloadTurn, hMarked, Bool.or_true, if_pos rfl]
      rw [hTurn, ih found hFailed, entryOf, hMarked, if_pos rfl]
    | false =>
    cases hNode : adapterForNodeId env nodeId with
    | error error =>
      have hNone := entryOf_none t client hNode
      have hKept : (payloadTurn env t found (nodeId, client)).2 = found.2 ∧
          ∀ n ∈ (payloadTurn env t found (nodeId, client)).1,
            ∃ error, adapterForNodeId env n = .error error := by
        unfold entryOf at hNone
        rw [hMarked, if_neg Bool.false_ne_true] at hNone
        unfold payloadTurn
        split_ifs with hSkip
        · exact ⟨rfl, hFailed⟩
        · cases hEntry : buildClientPortalEntry env t nodeId client with
          | error _ =>
            refine ⟨rfl, fun n hMem => ?_⟩
            rcases mem_cons.mp hMem with rfl | hRest
            · exact ⟨error, hNode⟩
            · exact hFailed n hRest
          | ok entry =>
            rw [hEntry] at hNone
            dsimp only at hNone ⊢
            split_ifs at hNone with hEmpty
            rw [if_pos hEmpty]
            exact ⟨rfl, hFailed⟩
      rw [ih _ hKept.2, hKept.1, hNone]
    | ok node =>
      have hGo : ¬ (decide (nodeId ∈ found.1) || markedOffline env nodeId) = true := by
        rw [hMarked, Bool.or_false, decide_eq_true_eq]
        intro hIn
        obtain ⟨error, hError⟩ := hFailed nodeId hIn
        rw [hNode] at hError
        cases hError
      obtain ⟨entry, hEntry, -⟩ := buildClientPortalEntry_ok t client hNode
      have hTurn : payloadTurn env t found (nodeId, client) =
          if entry.files = [] then found else (found.1, found.2 ++ [entry]) := by
        rw [payloadTurn, if_neg hGo, hEntry]
      have hOf : entryOf env t (nodeId, client) =
          if entry.files = [] then none else some entry := by
        rw [entryOf, hMarked, if_neg Bool.false_ne_true, hEntry]
      rw [hTurn, hOf]
      split_ifs with hEmpty
      · exact ih found hFailed
      · rw [ih (found.1, found.2 ++ [entry]) hFailed, append_assoc]
        rfl

/-- The clients that the payload lists. -/
theorem mem_portalClients {entry : PortalClient} :
    entry ∈ portalClients env t userId ↔ ∃ nodeId client, Owns t userId nodeId client ∧
      markedOffline env nodeId = false ∧
      buildClientPortalEntry env t nodeId client = .ok entry ∧ entry.files ≠ [] := by
  rw [portalClients, foldl_payloadTurn _ _ (fun _ hMem => absurd hMem not_mem_nil),
    nil_append, mem_filterMap]
  constructor
  · rintro ⟨⟨nodeId, client⟩, hTarget, hSome⟩
    rw [entryOf] at hSome
    split_ifs at hSome with hMarked
    rw [Bool.not_eq_true] at hMarked
    cases hEntry : buildClientPortalEntry env t nodeId client with
    | error _ =>
      rw [hEntry] at hSome
      cases hSome
    | ok found =>
      rw [hEntry] at hSome
      dsimp only at hSome
      split_ifs at hSome with hEmpty
      cases hSome
      exact ⟨nodeId, client, mem_ownedPortalTargets.mp hTarget, hMarked, hEntry, hEmpty⟩
  · rintro ⟨nodeId, client, hOwns, hMarked, hEntry, hNe⟩
    refine ⟨(nodeId, client), mem_ownedPortalTargets.mpr hOwns, ?_⟩
    rw [entryOf, hMarked, if_neg Bool.false_ne_true, hEntry]
    exact if_neg hNe

/-- Putting the entries under their nodes loses none. -/
theorem lists_iff_entry {link : PortalLink} :
    Lists env t userId link ↔ ∃ entry ∈ portalClients env t userId, link ∈ entry.files := by
  unfold Lists buildUserPortalPayload
  constructor
  · rintro ⟨nodeEntry, hNode, client, hClient, hLink⟩
    obtain ⟨n, -, rfl⟩ := mem_map.mp ((mem_insertionSort _).mp hNode)
    have hIn := (mem_insertionSort _).mp hClient
    exact ⟨client, (mem_filter.mp hIn).1, hLink⟩
  · rintro ⟨entry, hEntry, hLink⟩
    refine ⟨_, (mem_insertionSort _).mpr (mem_map.mpr ⟨entry.nodeId, ?_, rfl⟩), entry,
      (mem_insertionSort _).mpr ?_, hLink⟩
    · exact mem_dedup.mpr (mem_map_of_mem hEntry)
    · exact mem_filter.mpr ⟨hEntry, decide_eq_true rfl⟩

/-- **What the payload lists**: the visible files of all configs of the user's clients, on the
nodes that are not marked offline. -/
theorem lists_iff {link : PortalLink} : Lists env t userId link ↔
    ∃ id row node file, t.row? id = some row ∧ row.haPrimaryConfigId = none ∧
      Owns t userId row.nodeId row.clientName ∧ markedOffline env row.nodeId = false ∧
      adapterForNodeId env row.nodeId = .ok node ∧
      file ∈ node.filesOf row.clientName row.vpnType ∧ visible env row file = true ∧
      link = ⟨portalFile env id row file, row.nodeId, row.clientName.text, file.path⟩ := by
  rw [lists_iff_entry]
  constructor
  · rintro ⟨entry, hEntry, hLink⟩
    obtain ⟨nodeId, client, hOwns, hMarked, hBuilt, -⟩ := mem_portalClients.mp hEntry
    cases hNode : adapterForNodeId env nodeId with
    | error error =>
      have hNone := entryOf_none t client hNode
      rw [entryOf, hMarked, if_neg Bool.false_ne_true, hBuilt] at hNone
      dsimp only at hNone
      split_ifs at hNone with hEmpty
      rw [hEmpty] at hLink
      cases hLink
    | ok node =>
      obtain ⟨entry', hBuilt', -, hFiles⟩ := buildClientPortalEntry_ok t client hNode
      obtain rfl := Except.ok.inj (hBuilt.symm.trans hBuilt')
      rw [hFiles] at hLink
      obtain ⟨item, hItem, rfl⟩ := mem_map.mp hLink
      obtain ⟨id, row, hRow, rfl, rfl, hShadow, file, hFile, hVisible, rfl⟩ :=
        mem_listFiles.mp hItem
      exact ⟨id, row, node, file, hRow, hShadow, hOwns, hMarked, hNode, hFile, hVisible, rfl⟩
  · rintro ⟨id, row, node, file, hRow, hShadow, hOwns, hMarked, hNode, hFile, hVisible, rfl⟩
    obtain ⟨entry, hBuilt, -, hFiles⟩ := buildClientPortalEntry_ok t row.clientName hNode
    have hItem := mem_listFiles.mpr
      ⟨id, row, hRow, rfl, rfl, hShadow, file, hFile, hVisible, rfl⟩
    have hLink := hFiles ▸ mem_map_of_mem (f := fun item : PortalFile =>
      PortalLink.mk item row.nodeId row.clientName.text item.path) hItem
    exact ⟨entry, mem_portalClients.mpr ⟨row.nodeId, row.clientName, hOwns, hMarked, hBuilt,
      ne_nil_of_mem hLink⟩, hLink⟩

/-! ## The download -/

theorem nodes_of_adapter (h : adapterForNodeId env nodeId = .ok node) :
    env.nodes nodeId = some node := by
  rw [adapterForNodeId] at h
  cases hNode : env.nodes nodeId with
  | none =>
    rw [hNode] at h
    cases h
  | some found =>
    rw [hNode] at h
    dsimp only at h
    cases hDown : found.unreachable with
    | some error =>
      rw [hDown] at h
      cases h
    | none =>
      rw [hDown] at h
      cases h
      rfl

variable {out : String × String}

/-- A client's file is served from a visible file of one of its configs. -/
theorem file_of_read {path : String}
    (h : readClientPortalProfile env t nodeId client path = .ok out) :
    ∃ id row node file, t.row? id = some row ∧ row.nodeId = nodeId ∧ row.clientName = client ∧
      row.haPrimaryConfigId = none ∧ adapterForNodeId env nodeId = .ok node ∧
      file ∈ node.filesOf client row.vpnType ∧ visible env row file = true ∧
      file.path = stripped path ∧ out.2 = node.content (stripped path) := by
  have hPath : ¬ (decide (stripped path = "") || hasParentStep (stripped path)) = true := by
    intro hPath
    unfold readClientPortalProfile at h
    dsimp only at h
    rw [if_pos hPath] at h
    cases h
  unfold readClientPortalProfile at h
  dsimp only at h
  rw [if_neg hPath] at h
  cases hNode : adapterForNodeId env nodeId with
  | error error =>
    cases hFiles : listFilesForConfigs env (clientConfigs t nodeId client) with
    | error _ =>
      rw [hFiles] at h
      cases h
    | ok files =>
      rw [hFiles, listFilesForConfigs_error hNode hFiles] at h
      cases h
  | ok node =>
    rw [listFilesForConfigs_ok hNode] at h
    dsimp only [bind, Except.bind] at h
    split at h
    · cases h
    rename_i item hFind
    rw [hNode] at h
    have hItem := mem_reverse.mp (mem_of_find?_eq_some hFind)
    have hItemPath := List.find?_some hFind
    rw [decide_eq_true_eq] at hItemPath
    obtain ⟨id, row, hRow, hRowNode, hName, hShadow, file, hFile, hVisible, rfl⟩ :=
      mem_listFiles.mp hItem
    refine ⟨id, row, node, file, hRow, hRowNode, hName, hShadow, rfl, hFile, hVisible, hItemPath,
      ?_⟩
    dsimp only at h
    by_cases hAwg3 : isAwg3Path (stripped path) = true
    · rw [if_pos hAwg3] at h
      simp only [pure, Except.pure, Except.ok.injEq] at h
      rw [← h]
    · rw [if_neg hAwg3] at h
      simp only [pure, Except.pure, Except.ok.injEq] at h
      rw [← h]

/-- Every visible file of a client is served. -/
theorem read_of_file {id : Nat} {row : ConfigRow} {file : ProfileFile}
    (hRow : t.row? id = some row) (hShadow : row.haPrimaryConfigId = none)
    (hNode : adapterForNodeId env row.nodeId = .ok node)
    (hFile : file ∈ node.filesOf row.clientName row.vpnType)
    (hVisible : visible env row file = true) :
    ∃ out, readClientPortalProfile env t row.nodeId row.clientName file.path = .ok out ∧
      out.2 = node.content file.path := by
  obtain ⟨hStripped, hNe, hPlain⟩ := filePath_ok hFile
  have hItem := mem_listFiles.mpr
    ⟨id, row, hRow, rfl, rfl, hShadow, file, hFile, hVisible, rfl⟩
  have hFound : ∃ item, ((clientConfigs t row.nodeId row.clientName).flatMap
      (configFiles env node)).reverse.find? (·.path = file.path) = some item := by
    rw [← Option.isSome_iff_exists, List.find?_isSome]
    exact ⟨_, mem_reverse.mpr hItem, decide_eq_true rfl⟩
  obtain ⟨item, hFind⟩ := hFound
  unfold readClientPortalProfile
  dsimp only
  have hGo : ¬ (decide (file.path = "") || hasParentStep file.path) = true := by
    simp [hNe, hPlain]
  rw [hStripped, if_neg hGo, listFilesForConfigs_ok hNode]
  dsimp only [bind, Except.bind]
  rw [hFind, hNode]
  dsimp only
  split_ifs
  · exact ⟨_, rfl, rfl⟩
  · exact ⟨_, rfl, rfl⟩

/-- The first of the user's targets that a request fits has the least name. -/
theorem le_text_of_find? {p : Nat × ClientName → Bool} {target : Nat × ClientName}
    (hFind : (ownedPortalTargets t userId).find? p = some target) {other : ClientName}
    (hOther : Owns t userId target.1 other) (hP : p (target.1, other) = true) :
    target.2.text ≤ other.text := by
  rcases le_of_find? (sorted_ownedPortalTargets t userId) hFind
    (mem_ownedPortalTargets.mpr hOther) hP with hEq | hLt | ⟨-, hText⟩
  · have hSame : target.2.text = other.text := congrArg (·.2.text) hEq
    exact hSame ▸ String.le_refl _
  · exact absurd hLt (Nat.lt_irrefl _)
  · exact hText

/-- What a file that is served says about its target. -/
theorem target_of_read {path : String} {nodeId : Option Nat} {clientName : Option String} (h : readPortalProfile env t userId path nodeId clientName = .ok out) :
    ∃ n client, nodeId = some n ∧ Owns t userId n client ∧
      normalizeClientName client.text = normalizeClientName (clientName.getD "") ∧
      (∀ other, Owns t userId n other →
        normalizeClientName other.text = normalizeClientName client.text →
        client.text ≤ other.text) ∧
      readClientPortalProfile env t n client path = .ok out := by
  unfold readPortalProfile at h
  dsimp only at h
  cases nodeId with
  | none => cases h
  | some n =>
    dsimp only at h
    split_ifs at h with hKey
    split at h
    · cases h
    rename_i target hFind
    have hTarget := mem_of_find?_eq_some hFind
    have hP := List.find?_some hFind
    simp only [Bool.and_eq_true, decide_eq_true_eq] at hP
    obtain ⟨rfl, hName⟩ := hP
    refine ⟨target.1, target.2, rfl, mem_ownedPortalTargets.mp hTarget, hName, ?_, h⟩
    intro other hOther hOtherName
    refine le_text_of_find? hFind hOther ?_
    simp [hOtherName, hName]

theorem normalizeClientName_ne (client : ClientName) : normalizeClientName client.text ≠ "" := by
  intro hEmpty
  rw [normalizeClientName, client.stripped_text, lower] at hEmpty
  have hNil := congrArg String.toList hEmpty
  rw [String.toList_ofList, String.toList_empty, map_eq_nil_iff] at hNil
  have hLength := client.lengthOk.1
  rw [← String.length_toList, hNil] at hLength
  exact absurd hLength (by decide)

/-- A request for a client is answered for the first of the user's clients of that name. -/
theorem read_of_target (hOwns : Owns t userId nodeId client) (path : String) :
    ∃ client', Owns t userId nodeId client' ∧
      normalizeClientName client'.text = normalizeClientName client.text ∧
      (∀ other, Owns t userId nodeId other →
        normalizeClientName other.text = normalizeClientName client.text →
        client'.text ≤ other.text) ∧
      readPortalProfile env t userId path (some nodeId) (some client.text) =
        readClientPortalProfile env t nodeId client' path := by
  let p : Nat × ClientName → Bool := fun target => target.1 = nodeId &&
    normalizeClientName target.2.text = normalizeClientName client.text
  have hP : ∀ other, normalizeClientName other.text = normalizeClientName client.text →
      p (nodeId, other) = true := by
    intro other hName
    simp [p, hName]
  have hSome : ((ownedPortalTargets t userId).find? p).isSome = true := by
    rw [List.find?_isSome]
    exact ⟨_, mem_ownedPortalTargets.mpr hOwns, hP client rfl⟩
  obtain ⟨⟨n, client'⟩, hFind⟩ := Option.isSome_iff_exists.mp hSome
  have hFound := List.find?_some hFind
  simp only [p, Bool.and_eq_true, decide_eq_true_eq] at hFound
  obtain ⟨rfl, hName⟩ := hFound
  refine ⟨client', mem_ownedPortalTargets.mp (mem_of_find?_eq_some hFind), hName, ?_, ?_⟩
  · exact fun other hOther hOtherName => le_text_of_find? hFind hOther (hP other hOtherName)
  · unfold readPortalProfile
    dsimp only
    rw [Option.getD_some, if_neg (normalizeClientName_ne client)]
    change (match (ownedPortalTargets t userId).find? p with
      | none => _
      | some target => _) = _
    rw [hFind]

/-! ## The link serves its user's files -/

/-- A file is the profile of one config. -/
theorem owner_of_ownFile {id : Nat} {row : ConfigRow} {file : ProfileFile}
    (hRow : t.row? id = some row) (hNode : env.nodes row.nodeId = some node)
    (hFile : file ∈ node.filesOf row.clientName row.vpnType)
    (h : OwnFile env t userId row.nodeId row.clientName.text file.path) : row.ownerId = userId := by
  obtain ⟨id', row', node', hRow', hOwner, hRowNode, hText, hNode', file', hFile', hPath⟩ := h
  obtain rfl := Option.mem_unique hNode hNode'
  obtain ⟨hName, hType⟩ := client_of_path hFile' hFile hPath
  have hId := t.unique id' row' id row hRow' hRow
    (ConfigRow.sameEntry_iff.mpr ⟨hRowNode, hName, hType⟩)
  rw [hId, hRow] at hRow'
  rw [Option.some.inj hRow']
  exact hOwner

/-- A visible file of a client that is the first of its name is served. -/
theorem read_of_first {id : Nat} {row : ConfigRow} {file : ProfileFile}
    (hRow : t.row? id = some row) (hShadow : row.haPrimaryConfigId = none)
    (hOwns : Owns t userId row.nodeId row.clientName)
    (hNode : adapterForNodeId env row.nodeId = .ok node)
    (hFile : file ∈ node.filesOf row.clientName row.vpnType)
    (hVisible : visible env row file = true) (hFirst : IsFirst t userId row) :
    ∃ out, readPortalProfile env t userId file.path (some row.nodeId)
        (some row.clientName.text) = .ok out ∧ out.2 = node.content file.path := by
  obtain ⟨client', hClient, hName, hLeast, hAnswer⟩ := read_of_target hOwns file.path
  have hText := String.le_antisymm (hLeast row.clientName hOwns rfl)
    (String.not_lt.mp (hFirst client' hClient hName))
  rw [ClientName.eq_of_text hText] at hAnswer
  obtain ⟨out, hRead, hContent⟩ := read_of_file hRow hShadow hNode hFile hVisible
  exact ⟨out, hAnswer.trans hRead, hContent⟩

/-- What is served is a file of the client that is the first of its name. -/
theorem first_of_target {path : String} {nodeId : Option Nat} {clientName : Option String} (h : readPortalProfile env t userId path nodeId clientName = .ok out) :
    ∃ id row node file, t.row? id = some row ∧ row.haPrimaryConfigId = none ∧
      Owns t userId row.nodeId row.clientName ∧ IsFirst t userId row ∧
      adapterForNodeId env row.nodeId = .ok node ∧
      file ∈ node.filesOf row.clientName row.vpnType ∧ visible env row file = true ∧
      nodeId = some row.nodeId ∧ file.path = stripped path ∧
      normalizeClientName row.clientName.text = normalizeClientName (clientName.getD "") ∧
      out.2 = node.content (stripped path) := by
  obtain ⟨n, client, rfl, hOwns, hName, hLeast, hClientRead⟩ := target_of_read h
  obtain ⟨id, row, node, file, hRow, rfl, rfl, hShadow, hNode, hFile, hVisible, hPath,
    hContent⟩ := file_of_read hClientRead
  refine ⟨id, row, node, file, hRow, hShadow, hOwns, ?_, hNode, hFile, hVisible, rfl, hPath, hName,
    hContent⟩
  intro client hClient hSame
  exact String.not_lt.mpr (hLeast client hClient hSame)

theorem ownTargets_of_servesOwn (h : ServesOwn env t userId) : OwnTargets env t userId := by
  constructor
  · rintro id row hRow hShadow hOwns ⟨node, hNode, file, hFile, hVisible⟩ hMarked
    have hLists := lists_iff.mpr
      ⟨id, row, node, file, hRow, hShadow, hOwns, hMarked, hNode, hFile, hVisible, rfl⟩
    exact owner_of_ownFile hRow (nodes_of_adapter hNode) hFile (h.lists_own _ hLists)
  · rintro id row hRow hShadow hOwns ⟨node, hNode, file, hFile, hVisible⟩
    constructor
    · -- what is served is listed, so that the node is not marked
      intro hFirst
      obtain ⟨out, hRead, -⟩ := read_of_first hRow hShadow hOwns hNode hFile hVisible hFirst
      obtain ⟨link, hLists, hLink, -⟩ := h.nothing_else _ _ _ out hRead
      obtain ⟨_, row', _, _, -, -, -, hMarked, -, -, -, rfl⟩ := lists_iff.mp hLists
      rw [Option.some.inj hLink]
      exact hMarked
    · intro hMarked client hClient hName hLt
      have hLists := lists_iff.mpr
        ⟨id, row, node, file, hRow, hShadow, hOwns, hMarked, hNode, hFile, hVisible, rfl⟩
      obtain ⟨out, hRead, -⟩ := h.serves_all _ hLists
      obtain ⟨client', -, -, hLeast, hAnswer⟩ := read_of_target hOwns file.path
      rw [hAnswer] at hRead
      obtain ⟨id', row', node', file', -, -, -, -, hNode', hFile', -, hPath, -⟩ :=
        file_of_read hRead
      obtain rfl := Except.ok.inj (hNode.symm.trans hNode')
      rw [(filePath_ok hFile).1] at hPath
      obtain ⟨rfl, -⟩ := client_of_path hFile' hFile hPath
      exact String.not_le.mpr hLt (hLeast client hClient hName)

theorem servesOwn_of_ownTargets (h : OwnTargets env t userId) : ServesOwn env t userId := by
  -- what is listed is the user's own, by `owned`
  have hListsOwn : ∀ link, Lists env t userId link →
      OwnFile env t userId link.nodeId link.clientName link.path := by
    intro link hLists
    obtain ⟨id, row, node, file, hRow, hShadow, hOwns, hMarked, hNode, hFile, hVisible, rfl⟩ :=
      lists_iff.mp hLists
    have hOwner := h.owned id row hRow hShadow hOwns ⟨node, hNode, file, hFile, hVisible⟩ hMarked
    exact ⟨id, row, node, hRow, hOwner, rfl, rfl, nodes_of_adapter hNode, file, hFile, rfl⟩
  -- what is read is listed: the first of its name is not marked offline
  have hNothingElse : ∀ path nodeId clientName out,
      readPortalProfile env t userId path nodeId clientName = .ok out →
      ∃ link, Lists env t userId link ∧ nodeId = some link.nodeId ∧ stripped path = link.path ∧
        normalizeClientName (clientName.getD "") = normalizeClientName link.clientName ∧
        IsContent env link.nodeId link.path out.2 := by
    intro path nodeId clientName out hRead
    obtain ⟨id, row, node, file, hRow, hShadow, hOwns, hFirst, hNode, hFile, hVisible, rfl, hPath,
      hName, hContent⟩ := first_of_target hRead
    have hMarked := (h.first id row hRow hShadow hOwns ⟨node, hNode, file, hFile, hVisible⟩).mp
      hFirst
    refine ⟨⟨portalFile env id row file, row.nodeId, row.clientName.text, file.path⟩,
      lists_iff.mpr ⟨id, row, node, file, hRow, hShadow, hOwns, hMarked, hNode, hFile, hVisible,
        rfl⟩, rfl, hPath.symm, hName.symm, node, nodes_of_adapter hNode, ?_⟩
    rw [hPath]
    exact hContent
  refine ⟨hListsOwn, ?_, ?_, hNothingElse⟩
  · intro path nodeId clientName out hRead
    obtain ⟨link, hLists, hNode, hPath, -, -⟩ := hNothingElse path nodeId clientName out hRead
    rw [hPath]
    exact ⟨link.nodeId, link.clientName, hNode, hListsOwn link hLists⟩
  · intro link hLists
    obtain ⟨id, row, node, file, hRow, hShadow, hOwns, hMarked, hNode, hFile, hVisible, rfl⟩ :=
      lists_iff.mp hLists
    have hFirst := (h.first id row hRow hShadow hOwns ⟨node, hNode, file, hFile, hVisible⟩).mpr
      hMarked
    obtain ⟨out, hRead, hContent⟩ := read_of_first hRow hShadow hOwns hNode hFile hVisible hFirst
    exact ⟨out, hRead, node, nodes_of_adapter hNode, hContent⟩

/-- **The link gives the user's own files**, all that it lists and no others, exactly when the
user's clients share no name with the configs of others, nor among themselves up to case, and no
node is marked offline that answers for one of them. -/
theorem servesOwn_iff (env : PortalEnv) (t : ConfigTable) (userId : Nat) :
    ServesOwn env t userId ↔ OwnTargets env t userId :=
  ⟨ownTargets_of_servesOwn, servesOwn_of_ownTargets⟩

end

/-! ## A client of two owners -/

def anna : ClientName := ⟨"anna", by decide, by decide⟩

def annaConfig (vpnType : VpnType) (ownerId : Nat) : ConfigRow :=
  { nodeId := 1, clientName := anna, vpnType := vpnType, haPrimaryConfigId := none,
    ownerId := ownerId }

/-- The OpenVPN config of the name is of user 1, the WireGuard config of user 2. -/
def annaTable : Option ConfigTable :=
  (ConfigTable.empty.insert (annaConfig .openvpn 1)).bind fun t =>
    t.insert (annaConfig .wireguard 2)

def annaFiles (client : ClientName) (vpnType : VpnType) : List ProfileFile :=
  if client = anna ∧ vpnType = .wireguard then
    [⟨"/root/antizapret/client/wireguard/vpn/anna-wg.conf", "", "wireguard", "vpn"⟩]
  else []

def annaNode : PortalNode where
  name := "node"
  profileFiles := annaFiles
  readProfileFile := fun path => path
  awg3ClientConfig := fun record => record
  pathsOk := by
    intro client vpnType file hFile
    unfold annaFiles at hFile
    split_ifs at hFile
    · rw [mem_singleton.mp hFile]
      exact ⟨by decide, by decide, by decide⟩
    · cases hFile
  apart := by
    intro client vpnType client' vpnType' file hFile file' hFile' _
    unfold annaFiles at hFile hFile'
    split_ifs at hFile hFile' with h h'
    · exact ⟨h.1.trans h'.1.symm, h.2.trans h'.2.symm⟩
    · cases hFile'
    · cases hFile
    · cases hFile

def annaEnv : PortalEnv where
  nodes := fun nodeId => if nodeId = 1 then some annaNode else none
  profileFileAllowed := fun _ _ _ _ => true
  protocolFeatureEnabled := fun _ => true
  downloadFilename := fun client _ _ _ => client
  casefold := fun label => label
  users := [1, 2]

/-- **A stranger's profile is listed**: the link of user 1 gives the WireGuard file of user 2. -/
theorem stranger_is_listed : ∃ t, annaTable = some t ∧ ¬ ServesOwn annaEnv t 1 := by
  have hRows : annaTable.map (fun t => (t.row? 1, t.row? 2)) =
      some (some (annaConfig .openvpn 1), some (annaConfig .wireguard 2)) := by
    decide
  obtain ⟨t, hTable, hPair⟩ := Option.map_eq_some_iff.mp hRows
  obtain ⟨hFirst, hSecond⟩ := Prod.mk.inj hPair
  refine ⟨t, hTable, fun hServes => ?_⟩
  have hFile : (⟨"/root/antizapret/client/wireguard/vpn/anna-wg.conf", "", "wireguard", "vpn"⟩ :
      ProfileFile) ∈ annaNode.filesOf anna .wireguard := by
    decide
  have hOwner := (ownTargets_of_servesOwn hServes).owned 2 _ hSecond rfl
    ⟨1, _, hFirst, rfl, rfl, rfl, rfl⟩ ⟨annaNode, rfl, _, hFile, by decide⟩
  exact absurd hOwner (by decide)

end AdminPanel.Portal
