import AdminPanel.Access.RuntimePeers

/-!
# Many clients blocked in few commands

`runtime_peer_batch.py` removes the peers of many clients with one command for up to two hundred
peers of an interface, and peer by peer where such a command fails. A command of several peers
goes through them up to the first that fails, and then reports failure.

* `blockPeersBatch`, `blockClientsRuntime` — the batch;
* `blockSeparately`, `blockClientsSeparately` — `block_client_runtime` for each client;
* `removeChunk_eq` — a chunk ends as if its peers were removed one by one, whatever of it the
  failing command has carried out;
* `batch_same_as_separate` — the batch leaves the same peers and reports the same.
-/

namespace AdminPanel.Access.Batch

open Lib.PyText (strip)
open Function List Access.Runtime

/-! ## Commands -/

/-- What a failing command prints. -/
structure Printed where
  stderr : String
  stdout : String
  deriving DecidableEq, Repr

/-- The peers for which the runtime command fails. -/
abbrev Faults := Peer → Option Printed

/-- `set <interface> peer <key> remove peer <key> remove …` -/
def runRemove (faults : Faults) (interfaceName : String) :
    List String → Live → Live × Option Printed
  | [], live => (live, none)
  | key :: keys, live =>
    match faults ⟨interfaceName, key⟩ with
    | some printed => (live, some printed)
    | none => runRemove faults interfaceName keys (update live ⟨interfaceName, key⟩ false)

/-- `_stderr` -/
def batchFailureText (svc : PeerService) (printed : Printed) : String :=
  failureText svc (if printed.stderr = "" then printed.stdout else printed.stderr)

/-- The commands of single peers. -/
def answersOf (faults : Faults) : Answers
  | .remove peer => (faults peer).map (·.stderr)
  | _ => none

/-! ## `runtime_peer_batch.py` -/

/-- The fallback of a chunk: its keys one by one, and those that could not be removed. -/
def removeSingly (svc : PeerService) (faults : Faults) (interfaceName : String) :
    List String → Live → Live × List (Peer × String)
  | [], live => (live, [])
  | key :: keys, live =>
    let (live, printed) := runRemove faults interfaceName [key] live
    let (live, failed) := removeSingly svc faults interfaceName keys live
    (live, match printed with
      | none => failed
      | some printed => (⟨interfaceName, key⟩, batchFailureText svc printed) :: failed)

def removeChunk (svc : PeerService) (faults : Faults) (interfaceName : String)
    (chunk : List String) (live : Live) : Live × List (Peer × String) :=
  match runRemove faults interfaceName chunk live with
  | (live, none) => (live, [])
  | (live, some _) => removeSingly svc faults interfaceName chunk live

/-- The loop of `_remove_on_interface` over the chunks. -/
def removeChunks (svc : PeerService) (faults : Faults) (interfaceName : String) :
    List (List String) → Live → Live × List (Peer × String)
  | [], live => (live, [])
  | chunk :: chunks, live =>
    let (live, failed) := removeChunk svc faults interfaceName chunk live
    let (live, more) := removeChunks svc faults interfaceName chunks live
    (live, failed ++ more)

def removeOnInterface (svc : PeerService) (faults : Faults) (interfaceName : String)
    (keys : List String) : Live → Live × List (Peer × String) :=
  removeChunks svc faults interfaceName (chunksOf peersPerCommand keys.length keys)

def removeOnInterfaces (svc : PeerService) (faults : Faults) :
    List (String × List String) → Live → Live × List (Peer × String)
  | [], live => (live, [])
  | (interfaceName, keys) :: rest, live =>
    let (live, failed) := removeOnInterface svc faults interfaceName keys live
    let (live, more) := removeOnInterfaces svc faults rest live
    (live, failed ++ more)

/-- `keys_by_interface`: the interfaces and the keys of each, in the order of their first peers. -/
def keysByInterface (peers : List Peer) : List (String × List String) :=
  (peers.map Peer.interfaceName).eraseDups.map fun interfaceName =>
    (interfaceName,
      ((peers.filter fun peer => peer.interfaceName = interfaceName).map Peer.publicKey).eraseDups)

def blockPeersBatch (svc : PeerService) (faults : Faults)
    (peersByClient : List (String × List Peer)) (live : Live) :
    Live × List (String × RuntimeResult) :=
  let (live, failed) := removeOnInterfaces svc faults
    (keysByInterface (peersByClient.flatMap Prod.snd)) live
  (live, peersByClient.map fun client => (client.1, batchResult failed client.2))

/-- A peer of a config, under the name of its `# Client =` line. -/
structure PeerSpec where
  clientName : String
  peer : Peer
  deriving DecidableEq, Repr

/-- The peers of the clients with a normalized name. -/
def peersOf (normalize : String → String) (specs : List PeerSpec) (normalized : String) :
    List Peer :=
  (specs.filter fun spec => normalize spec.clientName = normalized &&
    spec.peer.interfaceName ≠ "" && spec.peer.publicKey ≠ "").map (·.peer)

def groupPeersByClient (clientNames : List String) (specs : List PeerSpec)
    (normalize : String → String) : List (String × List Peer) :=
  ((clientNames.map normalize).filter (· ≠ "")).eraseDups.map fun name =>
    (name, peersOf normalize specs name)

/-- `block_clients_runtime` of `wg_runtime.py` -/
def blockClientsRuntime (svc : PeerService) (faults : Faults) (normalize : String → String)
    (specs : List PeerSpec) (clientNames : List String) : Live → Live × List (String × RuntimeResult) :=
  blockPeersBatch svc faults (groupPeersByClient clientNames specs normalize)

/-! ## One client after another -/

/-- `block_client_runtime` for a client with these peers. -/
def blockPeers (svc : PeerService) (faults : Faults) (peers : List Peer) (live : Live) :
    Live × RuntimeResult :=
  match peers with
  | [] => (live, noPeersResult)
  | peers =>
    let (live, removed, errors) := removeEach svc (answersOf faults) peers live
    (live, runtimeResult removed errors)

def blockSeparately (svc : PeerService) (faults : Faults) :
    List (String × List Peer) → Live → Live × List (String × RuntimeResult)
  | [], live => (live, [])
  | (name, peers) :: clients, live =>
    let (live, result) := blockPeers svc faults peers live
    let (live, results) := blockSeparately svc faults clients live
    (live, (name, result) :: results)

/-- `block_client_runtime` for each of the names. -/
def blockClientsSeparately (svc : PeerService) (faults : Faults) (normalize : String → String)
    (specs : List PeerSpec) (clientNames : List String) : Live → Live × List (String × RuntimeResult) :=
  blockSeparately svc faults
    (clientNames.map fun name => (name, peersOf normalize specs (normalize name)))

/-- What a result says of a client: blocked or failed, and which peers. The texts of the errors
are those of the commands. -/
def outcome (result : RuntimeResult) : Bool × Nat × Nat × List (Option String × Option String) :=
  (result.success, result.count, result.errorCount,
    result.errors.map fun error => (error.interfaceName, error.publicKey))

/-! ## What commands leave -/

section

variable {svc : PeerService} {faults : Faults} {interfaceName : String}

/-- The peers with `p` are removed unless their commands fail. -/
def removeWhere (faults : Faults) (p : Peer → Prop) [DecidablePred p] (live : Live) : Live :=
  fun peer => if p peer ∧ faults peer = none then false else live peer

theorem removeWhere_congr {p q : Peer → Prop} [DecidablePred p] [DecidablePred q]
    (h : ∀ peer, p peer ↔ q peer) (live : Live) :
    removeWhere faults p live = removeWhere faults q live := by
  funext peer
  simp only [removeWhere, h peer]

theorem removeWhere_removeWhere {p q : Peer → Prop} [DecidablePred p] [DecidablePred q]
    (live : Live) : removeWhere faults q (removeWhere faults p live) =
      removeWhere faults (fun peer => p peer ∨ q peer) live := by
  funext peer
  simp only [removeWhere]
  by_cases hP : p peer <;> by_cases hQ : q peer <;> simp [hP, hQ]

/-- The keys of an interface are removed unless their commands fail. -/
def removeKeys (faults : Faults) (interfaceName : String) (keys : List String) : Live → Live :=
  removeWhere faults fun peer => peer.interfaceName = interfaceName ∧ peer.publicKey ∈ keys

/-- The keys whose commands fail, with what their errors say. -/
def failedKeys (svc : PeerService) (faults : Faults) (interfaceName : String)
    (keys : List String) : List (Peer × String) :=
  keys.filterMap fun key => (faults ⟨interfaceName, key⟩).map fun printed =>
    (⟨interfaceName, key⟩, batchFailureText svc printed)

theorem removeKeys_append (keys more : List String) (live : Live) :
    removeKeys faults interfaceName more (removeKeys faults interfaceName keys live) =
      removeKeys faults interfaceName (keys ++ more) live := by
  rw [removeKeys, removeKeys, removeWhere_removeWhere, removeKeys]
  refine removeWhere_congr (fun peer => ?_) live
  rw [mem_append, and_or_left]

theorem removeKeys_nil (live : Live) : removeKeys faults interfaceName [] live = live := by
  funext peer
  simp [removeKeys, removeWhere]

theorem removeKeys_single {key : String} (h : faults ⟨interfaceName, key⟩ = none) (live : Live) :
    removeKeys faults interfaceName [key] live =
      update live ⟨interfaceName, key⟩ false := by
  funext ⟨i, k⟩
  by_cases hPeer : i = interfaceName ∧ k = key
  · obtain ⟨rfl, rfl⟩ := hPeer
    simp [removeKeys, removeWhere, h]
  · have hNe : (⟨i, k⟩ : Peer) ≠ ⟨interfaceName, key⟩ := by
      rw [ne_eq, Peer.mk.injEq]
      exact hPeer
    rw [update_of_ne hNe]
    simp only [removeKeys, removeWhere, mem_singleton]
    exact if_neg fun hBoth => hPeer hBoth.1

theorem removeKeys_failed {key : String} (h : faults ⟨interfaceName, key⟩ ≠ none) (live : Live) :
    removeKeys faults interfaceName [key] live = live := by
  funext ⟨i, k⟩
  simp only [removeKeys, removeWhere, mem_singleton]
  refine if_neg ?_
  rintro ⟨⟨rfl, rfl⟩, hNone⟩
  exact h hNone

/-- A command goes up to the first peer that fails. -/
theorem runRemove_eq (keys : List String) (live : Live) :
    runRemove faults interfaceName keys live =
      (removeKeys faults interfaceName
        (keys.takeWhile fun key => (faults ⟨interfaceName, key⟩).isNone) live,
      keys.findSome? fun key => faults ⟨interfaceName, key⟩) := by
  induction keys generalizing live with
  | nil => rw [runRemove, takeWhile_nil, removeKeys_nil]; rfl
  | cons key keys ih =>
    rw [runRemove]
    cases hFault : faults ⟨interfaceName, key⟩ with
    | some printed =>
      rw [takeWhile_cons_of_neg (by simp [hFault]), removeKeys_nil,
        List.findSome?_cons_of_isSome (by simp [hFault])]
      exact congrArg _ hFault.symm
    | none =>
      rw [takeWhile_cons_of_pos (by simp [hFault]), List.findSome?_cons_of_isNone
        (by simp [hFault]), ← singleton_append, ← removeKeys_append,
        removeKeys_single hFault]
      exact ih _

theorem failedKeys_cons (key : String) (keys : List String) :
    failedKeys svc faults interfaceName (key :: keys) =
      match faults ⟨interfaceName, key⟩ with
      | none => failedKeys svc faults interfaceName keys
      | some printed => (⟨interfaceName, key⟩, batchFailureText svc printed) ::
          failedKeys svc faults interfaceName keys := by
  rw [failedKeys, filterMap_cons]
  cases faults ⟨interfaceName, key⟩ <;> rfl

/-- The single commands come to one removal of all keys but the failing ones. -/
theorem removeSingly_eq (keys : List String) (live : Live) :
    removeSingly svc faults interfaceName keys live =
      (removeKeys faults interfaceName keys live, failedKeys svc faults interfaceName keys) := by
  induction keys generalizing live with
  | nil => rw [removeSingly, removeKeys_nil]; rfl
  | cons key keys ih =>
    have hOne : (runRemove faults interfaceName [key] live) =
        (removeKeys faults interfaceName [key] live, faults ⟨interfaceName, key⟩) := by
      rw [runRemove_eq]
      cases hFault : faults ⟨interfaceName, key⟩ with
      | some printed =>
        rw [takeWhile_cons_of_neg (by simp [hFault]), removeKeys_nil,
          removeKeys_failed (by simp [hFault])]
        simp [hFault]
      | none =>
        rw [takeWhile_cons_of_pos (by simp [hFault])]
        simp [hFault]
    simp only [removeSingly, hOne, ih]
    rw [removeKeys_append, singleton_append, failedKeys_cons]

theorem failedKeys_eq_nil {keys : List String}
    (h : ∀ key ∈ keys, faults ⟨interfaceName, key⟩ = none) :
    failedKeys svc faults interfaceName keys = [] := by
  rw [failedKeys, filterMap_eq_nil_iff]
  intro key hKey
  rw [h key hKey]
  rfl

/-- **A chunk ends as if its peers were removed one by one**, whatever a failing command has
carried out of it. -/
theorem removeChunk_eq (chunk : List String) (live : Live) :
    removeChunk svc faults interfaceName chunk live =
      (removeKeys faults interfaceName chunk live, failedKeys svc faults interfaceName chunk) := by
  rw [removeChunk, runRemove_eq]
  cases hFirst : chunk.findSome? fun key => faults ⟨interfaceName, key⟩ with
  | none =>
    have hNone := List.findSome?_eq_none_iff.mp hFirst
    have hAll : (chunk.takeWhile fun key => (faults ⟨interfaceName, key⟩).isNone) = chunk := by
      rw [takeWhile_eq_self_iff]
      exact fun key hKey => by rw [hNone key hKey]; rfl
    show (removeKeys faults interfaceName (chunk.takeWhile _) live, []) = _
    rw [hAll, failedKeys_eq_nil hNone]
  | some printed =>
    show removeSingly svc faults interfaceName chunk (removeKeys faults interfaceName
      (chunk.takeWhile fun key => (faults ⟨interfaceName, key⟩).isNone) live) = _
    rw [removeSingly_eq, removeKeys_append]
    refine congrArg₂ Prod.mk (removeWhere_congr (fun peer => ?_) live) rfl
    rw [mem_append, or_iff_right_of_imp fun hMem => (takeWhile_sublist _).subset hMem]

theorem removeChunks_eq (chunks : List (List String)) (live : Live) :
    removeChunks svc faults interfaceName chunks live =
      (removeKeys faults interfaceName chunks.flatten live,
        failedKeys svc faults interfaceName chunks.flatten) := by
  induction chunks generalizing live with
  | nil => rw [removeChunks, flatten_nil, removeKeys_nil]; rfl
  | cons chunk chunks ih =>
    simp only [removeChunks, removeChunk_eq, ih]
    rw [removeKeys_append, flatten_cons, failedKeys, failedKeys, failedKeys,
      filterMap_append]

theorem flatten_chunksOf {τ : Type} {size : Nat} (hSize : 0 < size) (fuel : Nat) (keys : List τ)
    (h : keys.length ≤ fuel) : (chunksOf size fuel keys).flatten = keys := by
  induction fuel generalizing keys with
  | zero => rw [length_eq_zero_iff.mp (Nat.le_zero.mp h)]; rfl
  | succ fuel ih =>
    rw [chunksOf]
    split_ifs with hNil
    · exact hNil.symm
    · have hPos := length_pos_iff.mpr hNil
      rw [flatten_cons, ih _ (by rw [length_drop]; omega), take_append_drop]

/-- **All keys of an interface.** -/
theorem removeOnInterface_eq (keys : List String) (live : Live) :
    removeOnInterface svc faults interfaceName keys live =
      (removeKeys faults interfaceName keys live, failedKeys svc faults interfaceName keys) := by
  rw [removeOnInterface, removeChunks_eq, flatten_chunksOf (by decide) _ _ (Nat.le_refl _)]

/-! ## A batch -/

theorem removeOnInterfaces_eq (entries : List (String × List String)) (live : Live) :
    removeOnInterfaces svc faults entries live =
      (removeWhere faults
        (fun peer => ∃ e ∈ entries, peer.interfaceName = e.1 ∧ peer.publicKey ∈ e.2) live,
      entries.flatMap fun e => failedKeys svc faults e.1 e.2) := by
  induction entries generalizing live with
  | nil =>
    refine congrArg₂ Prod.mk (funext fun peer => ?_) rfl
    simp [removeWhere]
  | cons e entries ih =>
    simp only [removeOnInterfaces, removeOnInterface_eq, ih]
    rw [removeKeys, removeWhere_removeWhere]
    refine congrArg₂ Prod.mk (removeWhere_congr (fun peer => ?_) live) rfl
    rw [exists_mem_cons_iff]

theorem mem_keysByInterface {peers : List Peer} {peer : Peer} :
    (∃ e ∈ keysByInterface peers, peer.interfaceName = e.1 ∧ peer.publicKey ∈ e.2) ↔
      peer ∈ peers := by
  constructor
  · rintro ⟨e, hEntry, hInterface, hKey⟩
    obtain ⟨interfaceName, -, rfl⟩ := mem_map.mp hEntry
    rw [mem_eraseDups, mem_map] at hKey
    obtain ⟨other, hOther, hSame⟩ := hKey
    rw [mem_filter, decide_eq_true_eq] at hOther
    obtain rfl : other = peer := by
      cases other
      cases peer
      exact congrArg₂ Peer.mk (hOther.2.trans hInterface.symm) hSame
    exact hOther.1
  · intro hPeer
    refine ⟨_, mem_map.mpr ⟨peer.interfaceName, ?_, rfl⟩, rfl, ?_⟩
    · rw [mem_eraseDups]
      exact mem_map_of_mem hPeer
    · rw [mem_eraseDups]
      exact mem_map_of_mem (mem_filter.mpr ⟨hPeer, decide_eq_true rfl⟩)

/-- The errors of a batch. -/
def batchFailures (svc : PeerService) (faults : Faults) (peers : List Peer) :
    List (Peer × String) :=
  (keysByInterface peers).flatMap fun e => failedKeys svc faults e.1 e.2

theorem removeBatch_eq (peers : List Peer) (live : Live) :
    removeOnInterfaces svc faults (keysByInterface peers) live =
      (removeWhere faults (· ∈ peers) live, batchFailures svc faults peers) := by
  rw [removeOnInterfaces_eq]
  exact congrArg₂ Prod.mk (removeWhere_congr (fun peer => mem_keysByInterface) live) rfl

theorem mem_batchFailures {peers : List Peer} {peer : Peer} {text : String} :
    (peer, text) ∈ batchFailures svc faults peers ↔
      peer ∈ peers ∧ (faults peer).map (batchFailureText svc) = some text := by
  rw [← mem_keysByInterface, batchFailures, mem_flatMap]
  simp only [failedKeys, mem_filterMap, Option.map_eq_some_iff, Prod.mk.injEq]
  constructor
  · rintro ⟨e, hEntry, key, hKey, printed, hFault, rfl, rfl⟩
    exact ⟨⟨e, hEntry, rfl, hKey⟩, printed, hFault, rfl⟩
  · rintro ⟨⟨e, hEntry, hInterface, hKey⟩, printed, hFault, rfl⟩
    have hPeer : (⟨e.1, peer.publicKey⟩ : Peer) = peer := by
      cases peer
      exact congrArg₂ Peer.mk hInterface.symm rfl
    exact ⟨e, hEntry, peer.publicKey, hKey, printed, hPeer.symm ▸ hFault, hPeer, rfl⟩

/-- The error of a peer of a batch, by the dictionary `failed`. -/
theorem failure_of_mem {peers : List Peer} {peer : Peer} (h : peer ∈ peers) :
    ((batchFailures svc faults peers).find? fun entry => entry.1 = peer).map Prod.snd =
      (faults peer).map (batchFailureText svc) := by
  cases hFind : (batchFailures svc faults peers).find? fun entry => entry.1 = peer with
  | none =>
    rw [List.find?_eq_none] at hFind
    cases hFault : (faults peer).map (batchFailureText svc) with
    | none => rfl
    | some text =>
      exact absurd (decide_eq_true rfl) (hFind (peer, text) (mem_batchFailures.mpr ⟨h, hFault⟩))
  | some entry =>
    have hSame := List.find?_some hFind
    rw [decide_eq_true_eq] at hSame
    have hEntry := mem_batchFailures.mp (mem_of_find?_eq_some hFind)
    exact (hSame ▸ hEntry.2).symm

/-! ## One client after another -/

theorem runEach_errors {command : Peer → Command} {leaves : Bool}
    {error : Peer → String → RuntimeError} {answers : Answers} (peers : List Peer) (live : Live) :
    (runEach command leaves error answers peers live).2.2 =
      peers.filterMap fun peer => (answers (command peer)).map (error peer) := by
  induction peers generalizing live with
  | nil => rfl
  | cons peer peers ih =>
    unfold runEach
    cases hAnswer : answers (command peer) with
    | none =>
      rw [filterMap_cons_none (by rw [hAnswer]; rfl)]
      exact ih (update live peer leaves)
    | some stderr =>
      rw [filterMap_cons_some (by rw [hAnswer]; rfl)]
      exact congrArg _ (ih live)

/-- What `block_client_runtime` reports. -/
def separateResult (svc : PeerService) (faults : Faults) (peers : List Peer) : RuntimeResult :=
  if peers = [] then noPeersResult
  else runtimeResult (peers.filter fun peer => (faults peer).isNone)
    (peers.filterMap fun peer => (faults peer).map fun printed =>
      ⟨some peer.interfaceName, some peer.publicKey, failureText svc printed.stderr⟩)

/-- A call for one client removes its peers but the failing ones. -/
theorem blockPeers_eq (peers : List Peer) (live : Live) :
    blockPeers svc faults peers live =
      (removeWhere faults (· ∈ peers) live, separateResult svc faults peers) := by
  have hAnswer : ∀ peer, answersOf faults (.remove peer) = (faults peer).map (·.stderr) :=
    fun _ => rfl
  match peers with
  | [] => exact congrArg₂ Prod.mk (funext fun peer => by simp [removeWhere]) rfl
  | peer :: peers =>
    refine congrArg₂ Prod.mk (funext fun other => ?_) ?_
    · show (removeEach svc (answersOf faults) (peer :: peers) live).1 other = _
      rw [removeEach, runEach_live]
      simp only [hAnswer, Option.map_eq_none_iff]
      rfl
    · show runtimeResult (removeEach svc (answersOf faults) (peer :: peers) live).2.1
        (removeEach svc (answersOf faults) (peer :: peers) live).2.2 = _
      rw [removeEach, runEach_treated, runEach_errors, separateResult,
        if_neg (cons_ne_nil _ _)]
      simp only [hAnswer, Option.isNone_map, Option.map_map, comp_def]

theorem blockSeparately_eq (clients : List (String × List Peer)) (live : Live) :
    blockSeparately svc faults clients live =
      (removeWhere faults (· ∈ clients.flatMap Prod.snd) live,
        clients.map fun client => (client.1, separateResult svc faults client.2)) := by
  induction clients generalizing live with
  | nil => exact congrArg₂ Prod.mk (funext fun peer => by simp [removeWhere]) rfl
  | cons client clients ih =>
    simp only [blockSeparately, blockPeers_eq, ih]
    rw [removeWhere_removeWhere]
    refine congrArg₂ Prod.mk (removeWhere_congr (fun peer => ?_) live) rfl
    rw [flatMap_cons, mem_append]

/-- A client of a batch comes out as it would alone, whoever else is in the batch. -/
theorem outcome_batchResult {peers all : List Peer} (h : ∀ peer ∈ peers, peer ∈ all) :
    outcome (batchResult (batchFailures svc faults all) peers) =
      outcome (separateResult svc faults peers) := by
  rw [separateResult]
  split_ifs with hNil
  · rw [hNil]
    rfl
  have hFailure : ∀ peer ∈ peers,
      ((batchFailures svc faults all).find? fun entry => entry.1 = peer).map Prod.snd =
        (faults peer).map (batchFailureText svc) := fun peer hPeer => failure_of_mem (h peer hPeer)
  have hResult : batchResult (batchFailures svc faults all) peers =
      runtimeResult (peers.filter fun peer => (faults peer).isNone)
        (peers.filterMap fun peer => (faults peer).map fun printed =>
          ⟨some peer.interfaceName, some peer.publicKey, batchFailureText svc printed⟩) := by
    rw [batchResult.eq_2 _ _ hNil]
    refine congrArg₂ runtimeResult (filter_congr fun peer hPeer => ?_)
      (filterMap_congr fun peer hPeer => ?_)
    · exact (congrArg Option.isNone (hFailure peer hPeer)).trans Option.isNone_map
    · exact (congrArg _ (hFailure peer hPeer)).trans (Option.map_map _ _ _)
  rw [hResult]
  simp only [outcome, runtimeResult, length_filterMap_eq_countP, Option.isSome_map,
    map_filterMap, Option.map_map, comp_def]

/-! ## Both ways -/

theorem blockPeersBatch_eq (clients : List (String × List Peer)) (live : Live) :
    blockPeersBatch svc faults clients live =
      (removeWhere faults (· ∈ clients.flatMap Prod.snd) live, clients.map fun client =>
        (client.1, batchResult (batchFailures svc faults (clients.flatMap Prod.snd)) client.2)) := by
  simp only [blockPeersBatch, removeBatch_eq]

theorem outcomes_blockPeersBatch (clients : List (String × List Peer)) (live : Live) :
    (blockPeersBatch svc faults clients live).2.map (fun entry => (entry.1, outcome entry.2)) =
      clients.map fun client => (client.1, outcome (separateResult svc faults client.2)) := by
  rw [blockPeersBatch_eq, map_map]
  refine map_congr_left fun client hClient => congrArg _ (outcome_batchResult ?_)
  exact fun peer hPeer => mem_flatMap.mpr ⟨client, hClient, hPeer⟩

variable {normalize : String → String} {specs : List PeerSpec}

/-- The names that are not blank. -/
def named (normalize : String → String) (clientNames : List String) : List String :=
  clientNames.filter fun name => normalize name ≠ ""

theorem flatMap_groupPeersByClient {clientNames : List String} {peer : Peer} :
    peer ∈ (groupPeersByClient clientNames specs normalize).flatMap Prod.snd ↔
      ∃ name ∈ named normalize clientNames, peer ∈ peersOf normalize specs (normalize name) := by
  simp only [groupPeersByClient, named, mem_flatMap, mem_map, mem_eraseDups,
    mem_filter]
  constructor
  · rintro ⟨_, ⟨_, ⟨⟨name, hName, rfl⟩, hBlank⟩, rfl⟩, hPeer⟩
    exact ⟨name, ⟨hName, hBlank⟩, hPeer⟩
  · rintro ⟨name, ⟨hName, hBlank⟩, hPeer⟩
    exact ⟨_, ⟨_, ⟨⟨name, hName, rfl⟩, hBlank⟩, rfl⟩, hPeer⟩

/-- The answer for a name is found under its normalized form. -/
theorem lookup_blockClientsRuntime {clientNames : List String} {name : String}
    (h : name ∈ named normalize clientNames) (live : Live) :
    ((blockClientsRuntime svc faults normalize specs clientNames live).2.lookup
        (normalize name)).map outcome =
      some (outcome (separateResult svc faults (peersOf normalize specs (normalize name)))) := by
  have hName : normalize name ∈ ((clientNames.map normalize).filter (· ≠ "")).eraseDups := by
    rw [named, mem_filter] at h
    rw [mem_eraseDups, mem_filter]
    exact ⟨mem_map_of_mem h.1, h.2⟩
  rw [blockClientsRuntime, blockPeersBatch_eq]
  have hGraph := lookup_graph (fun normalized => batchResult (batchFailures svc faults
    ((groupPeersByClient clientNames specs normalize).flatMap Prod.snd))
      (peersOf normalize specs normalized)) hName
  rw [groupPeersByClient] at hGraph ⊢
  rw [map_map]
  refine (congrArg _ hGraph).trans (congrArg some (outcome_batchResult fun peer hPeer => ?_))
  rw [← groupPeersByClient, flatMap_groupPeersByClient]
  exact ⟨name, h, hPeer⟩

end

/-- **A batch does what `block_client_runtime` does client by client**, whichever peers fail:
it leaves the same peers in the interfaces and reports the same of each client. -/
theorem batch_same_as_separate (svc : PeerService) (faults : Faults) (live : Live) :
    (∀ peersByClient : List (String × List Peer),
      (blockPeersBatch svc faults peersByClient live).1 =
          (blockSeparately svc faults peersByClient live).1 ∧
        (blockPeersBatch svc faults peersByClient live).2.map
            (fun entry => (entry.1, outcome entry.2)) =
          (blockSeparately svc faults peersByClient live).2.map
            fun entry => (entry.1, outcome entry.2)) ∧
    ∀ (normalize : String → String) (specs : List PeerSpec) (clientNames : List String),
      let batch := blockClientsRuntime svc faults normalize specs clientNames live
      let separate := blockClientsSeparately svc faults normalize specs
        (named normalize clientNames) live
      batch.1 = separate.1 ∧
        separate.2.map (fun entry => (entry.1, some (outcome entry.2))) =
          (named normalize clientNames).map fun name =>
            (name, (batch.2.lookup (normalize name)).map outcome) := by
  refine ⟨fun clients => ⟨?_, ?_⟩, fun normalize specs clientNames => ⟨?_, ?_⟩⟩
  · rw [blockPeersBatch_eq, blockSeparately_eq]
  · rw [outcomes_blockPeersBatch, blockSeparately_eq, map_map]
    rfl
  · rw [blockClientsRuntime, blockPeersBatch_eq, blockClientsSeparately, blockSeparately_eq]
    refine removeWhere_congr (fun peer => ?_) live
    rw [flatMap_groupPeersByClient, flatMap_map, mem_flatMap]
  · rw [blockClientsSeparately, blockSeparately_eq, map_map, map_map]
    refine map_congr_left fun name hName => ?_
    rw [lookup_blockClientsRuntime hName]
    rfl

end AdminPanel.Access.Batch
