import AdminPanel.Lib.PyText
import Mathlib.Data.List.Nodup

/-!
# Runtime peers of WireGuard and AmneziaWG2

`app/services/wg_runtime.py`, `native_awg2_runtime.py` and `runtime_peer_batch.py`: the peers
of a client are removed from, or restored to, the running interfaces by one command each. A
command that fails changes nothing, and the functions report it in the dictionary they return.

* `applyClientRuntime_live` — what a call for one client leaves in the interfaces;
* `blockPeersBatch_live` — the same for the re-block of many clients in few commands;
* `applyClientRuntime_success_iff` — when `success` says that every peer was treated.
-/

namespace AdminPanel.Access.Runtime

open List

open Lib.PyText (strip)

/-! ## Peers and commands -/

inductive PeerService where
  | wireguard
  | amneziawg2
  deriving DecidableEq, Repr

def PeerService.tool : PeerService → String
  | .wireguard => "wg"
  | .amneziawg2 => "awg"

/-- `(interface_name, peer_public_key)` -/
structure Peer where
  interfaceName : String
  publicKey : String
  deriving DecidableEq, Repr

/-- The server configs of a service: its interfaces, and the peers of all of them in file
order, each under the name of its `# Client =` line. -/
structure PeerConfig where
  interfaces : List String
  peers : List (String × Peer)
  nodup : (peers.map Prod.snd).Nodup

def PeerConfig.collectClientPeers (cfg : PeerConfig) (clientName : String) : List Peer :=
  (cfg.peers.filter fun entry => entry.1 = clientName).map Prod.snd

/-- `restore` stands for the `set … allowed-ips …` of `_restore_peer_spec`, `syncInterface` for
the strip and syncconf of `_sync_interface_from_stripped_config`. -/
inductive Command where
  | remove (peer : Peer)
  | removeMany (interfaceName : String) (publicKeys : List String)
  | restore (peer : Peer)
  | syncInterface (interfaceName : String)
  deriving DecidableEq, Repr

/-- How the commands of one call end: `none` with the effect, `some stderr` without one and
with a non-zero return code. -/
abbrev Answers := Command → Option String

def Answers.allDone : Answers := fun _ => none

/-- Which peers are in the running interfaces. -/
abbrev Live := Peer → Bool

structure RuntimeError where
  interfaceName : Option String
  publicKey : Option String
  stderr : String
  deriving DecidableEq, Repr

/-- The dictionary of a call; `count` is `removed_count` (`blocked`) or `synced_count`
(`restored`). -/
structure RuntimeResult where
  success : Bool
  count : Nat
  errorCount : Nat
  errors : List RuntimeError
  deriving DecidableEq, Repr

/-- `(result.stderr or "").strip() or "wg set failed"` -/
def failureText (svc : PeerService) (stderr : String) : String :=
  let text := strip stderr.toList
  if text = [] then svc.tool ++ " set failed" else String.ofList text

/-- The dictionary that all these functions build from their two lists. -/
def runtimeResult {τ : Type} (treated : List τ) (errors : List RuntimeError) : RuntimeResult :=
  ⟨decide (0 < treated.length), treated.length, errors.length, errors⟩

/-- `NO_PEERS_ERROR` -/
def noPeersResult : RuntimeResult :=
  ⟨false, 0, 1, [⟨none, none, "Пиры клиента не найдены"⟩]⟩

/-! ## One client -/

/-- The loops of `block_client_runtime` and `unblock_client_runtime`: one command a peer, which
leaves it live or not. The peers whose command succeeded, and the errors of the others. -/
def runEach (command : Peer → Command) (leaves : Bool) (error : Peer → String → RuntimeError)
    (answers : Answers) : List Peer → Live → Live × List Peer × List RuntimeError
  | [], live => (live, [], [])
  | peer :: rest, live =>
    match answers (command peer) with
    | none =>
      let (live, treated, errors) :=
        runEach command leaves error answers rest (Function.update live peer leaves)
      (live, peer :: treated, errors)
    | some stderr =>
      let (live, treated, errors) := runEach command leaves error answers rest live
      (live, treated, error peer stderr :: errors)

def removeEach (svc : PeerService) :
    Answers → List Peer → Live → Live × List Peer × List RuntimeError :=
  runEach .remove false fun peer stderr =>
    ⟨some peer.interfaceName, some peer.publicKey, failureText svc stderr⟩

def restoreEach (svc : PeerService) :
    Answers → List Peer → Live → Live × List Peer × List RuntimeError :=
  runEach .restore true fun peer stderr => ⟨some peer.interfaceName, none, failureText svc stderr⟩

def blockClientRuntime (svc : PeerService) (cfg : PeerConfig) (answers : Answers)
    (clientName : String) (live : Live) : Live × RuntimeResult :=
  match cfg.collectClientPeers clientName with
  | [] => (live, noPeersResult)
  | peers =>
    let (live, removed, errors) := removeEach svc answers peers live
    (live, runtimeResult removed errors)

/-- The running interface follows its config: every peer of the file, no other. -/
def syncConf (cfg : PeerConfig) (interfaceName : String) (live : Live) : Live := fun peer =>
  if peer.interfaceName = interfaceName then decide (peer ∈ cfg.peers.map Prod.snd)
  else live peer

def syncEach (cfg : PeerConfig) (answers : Answers) :
    List String → Live → Live × List String × List RuntimeError
  | [], live => (live, [], [])
  | interfaceName :: rest, live =>
    match answers (.syncInterface interfaceName) with
    | none =>
      let (live, synced, errors) := syncEach cfg answers rest (syncConf cfg interfaceName live)
      (live, interfaceName :: synced, errors)
    | some stderr =>
      let (live, synced, errors) := syncEach cfg answers rest live
      (live, synced, ⟨some interfaceName, none, stderr⟩ :: errors)

/-- A client without peers has every interface synced from its config. -/
def unblockClientRuntime (svc : PeerService) (cfg : PeerConfig) (answers : Answers)
    (clientName : String) (live : Live) : Live × RuntimeResult :=
  match cfg.collectClientPeers clientName with
  | [] =>
    let (live, synced, errors) := syncEach cfg answers cfg.interfaces live
    (live, runtimeResult synced errors)
  | specs =>
    let (live, restored, errors) := restoreEach svc answers specs live
    (live, runtimeResult restored errors)

/-- `_apply_wg_client_runtime`, `_apply_awg2_client_runtime` -/
def applyClientRuntime (svc : PeerService) (cfg : PeerConfig) (answers : Answers)
    (clientName : String) (isBlocked : Bool) (live : Live) : Live × RuntimeResult :=
  if isBlocked then blockClientRuntime svc cfg answers clientName live
  else unblockClientRuntime svc cfg answers clientName live

/-! ## Many clients -/

def peersPerCommand : Nat := 200

/-- `keys[start : start + size]` for every `start` of `range(0, len(keys), size)`. -/
def chunksOf {τ : Type} (size : Nat) : Nat → List τ → List (List τ)
  | 0, _ => []
  | fuel + 1, keys =>
    if keys = [] then [] else keys.take size :: chunksOf size fuel (keys.drop size)

/-- The peer goes with its chunk, or alone when the chunk's command fails. -/
def chunkRemoves (answers : Answers) (interfaceName : String) (chunk : List String)
    (publicKey : String) : Bool :=
  decide (publicKey ∈ chunk) &&
    ((answers (.removeMany interfaceName chunk)).isNone ||
      (answers (.remove ⟨interfaceName, publicKey⟩)).isNone)

/-- The chunk's command, then one command a key if it fails. The keys that could not be
removed, with their errors. -/
def removeChunk (svc : PeerService) (answers : Answers) (interfaceName : String)
    (chunk : List String) (live : Live) : Live × List (Peer × String) :=
  (fun peer =>
      if peer.interfaceName = interfaceName ∧
          chunkRemoves answers interfaceName chunk peer.publicKey = true then false
      else live peer,
    match answers (.removeMany interfaceName chunk) with
    | none => []
    | some _ => chunk.filterMap fun key =>
      (answers (.remove ⟨interfaceName, key⟩)).map fun stderr =>
        (⟨interfaceName, key⟩, failureText svc stderr))

def removeOnInterface (svc : PeerService) (answers : Answers) (interfaceName : String)
    (publicKeys : List String) (live : Live) : Live × List (Peer × String) :=
  (chunksOf peersPerCommand publicKeys.length publicKeys).foldl
    (fun acc chunk =>
      let (live, failed) := removeChunk svc answers interfaceName chunk acc.1
      (live, acc.2 ++ failed)) (live, [])

/-- `keys_by_interface` of a batch. -/
def keysByInterface (cfg : PeerConfig) (clientNames : List String) : List (String × List String) :=
  let peers := clientNames.flatMap cfg.collectClientPeers
  (peers.map Peer.interfaceName).eraseDups.map fun interfaceName =>
    (interfaceName,
      ((peers.filter fun peer => peer.interfaceName = interfaceName).map Peer.publicKey).eraseDups)

/-- The dictionary of one client of a batch. -/
def batchResult (failed : List (Peer × String)) (peers : List Peer) : RuntimeResult :=
  match peers with
  | [] => noPeersResult
  | peers =>
    let failure := fun peer => (failed.find? fun entry => entry.1 = peer).map Prod.snd
    let errors := peers.filterMap fun peer =>
      (failure peer).map fun stderr => ⟨some peer.interfaceName, some peer.publicKey, stderr⟩
    runtimeResult (peers.filter fun peer => (failure peer).isNone) errors

/-- `block_peers_batch` on the groups of `group_peers_by_client`. -/
def blockPeersBatch (svc : PeerService) (cfg : PeerConfig) (answers : Answers)
    (clientNames : List String) (live : Live) : Live × List (String × RuntimeResult) :=
  let (live, failed) := (keysByInterface cfg clientNames).foldl
    (fun acc entry =>
      let (live, failed) := removeOnInterface svc answers entry.1 entry.2 acc.1
      (live, acc.2 ++ failed)) (live, [])
  (live, clientNames.map fun name => (name, batchResult failed (cfg.collectClientPeers name)))

/-- `block_clients_runtime` of AmneziaWG2, and the pass over an agent without the batch route. -/
def blockClientsRuntime (svc : PeerService) (cfg : PeerConfig) (answers : Answers) :
    List String → Live → Live × List (String × RuntimeResult)
  | [], live => (live, [])
  | name :: rest, live =>
    let (live, result) := blockClientRuntime svc cfg answers name live
    let (live, results) := blockClientsRuntime svc cfg answers rest live
    (live, (name, result) :: results)

/-- `_reblock_runtime_batch`: WireGuard removes the peers in few commands where the node can. -/
def reblockRuntimeBatch (svc : PeerService) (cfg : PeerConfig) (batchRoute : Bool)
    (answers : Answers) (clientNames : List String) (live : Live) :
    Live × List (String × RuntimeResult) :=
  match svc with
  | .wireguard =>
    if batchRoute then blockPeersBatch svc cfg answers clientNames live
    else blockClientsRuntime svc cfg answers clientNames live
  | .amneziawg2 => blockClientsRuntime svc cfg answers clientNames live

/-! ## Peers of a client -/

variable {name : String} {peer : Peer} {τ : Type}

section

variable {svc : PeerService} {cfg : PeerConfig} {answers : Answers}

theorem mem_collectClientPeers : peer ∈ cfg.collectClientPeers name ↔ (name, peer) ∈ cfg.peers := by
  simp [PeerConfig.collectClientPeers]

/-- A peer belongs to one client. -/
theorem collectClientPeers_disjoint {other : String}
    (h : peer ∈ cfg.collectClientPeers name) (hOther : peer ∈ cfg.collectClientPeers other) :
    name = other := by
  rw [mem_collectClientPeers] at h hOther
  have hInj := inj_on_of_nodup_map cfg.nodup h hOther rfl
  exact congrArg Prod.fst hInj

/-! ## What a call leaves -/

/-- The loop treats the peers whose command succeeds. -/
theorem runEach_live {command : Peer → Command} {leaves : Bool}
    {error : Peer → String → RuntimeError} (peers : List Peer) (live : Live) (peer : Peer) :
    (runEach command leaves error answers peers live).1 peer =
      if peer ∈ peers ∧ answers (command peer) = none then leaves else live peer := by
  induction peers generalizing live with
  | nil => simp [runEach]
  | cons head rest ih =>
    unfold runEach
    cases hAnswer : answers (command head) with
    | none =>
      show (runEach command leaves error answers rest (Function.update live head leaves)).1 peer = _
      rw [ih]
      by_cases hHead : peer = head
      · subst hHead
        simp [hAnswer]
      · simp [hHead]
    | some stderr =>
      show (runEach command leaves error answers rest live).1 peer = _
      rw [ih]
      by_cases hHead : peer = head
      · subst hHead
        simp [hAnswer]
      · simp [hHead]

theorem runEach_treated {command : Peer → Command} {leaves : Bool}
    {error : Peer → String → RuntimeError} (peers : List Peer) (live : Live) :
    (runEach command leaves error answers peers live).2.1 =
      peers.filter fun peer => (answers (command peer)).isNone := by
  induction peers generalizing live with
  | nil => rfl
  | cons head rest ih =>
    unfold runEach
    cases hAnswer : answers (command head) with
    | none =>
      rw [filter_cons_of_pos (by simp [hAnswer]), ← ih (Function.update live head leaves)]
    | some stderr => rw [filter_cons_of_neg (by simp [hAnswer]), ← ih live]

/-- The command of a call for one peer. -/
def peerCommand (isBlocked : Bool) (peer : Peer) : Command :=
  if isBlocked then .remove peer else .restore peer

theorem blockClientRuntime_live (name : String) (live : Live) (peer : Peer) :
    (blockClientRuntime svc cfg answers name live).1 peer =
      if peer ∈ cfg.collectClientPeers name ∧ answers (.remove peer) = none then false
      else live peer := by
  unfold blockClientRuntime
  split
  · next h => simp [h]
  · next h => exact runEach_live _ live peer

/-- **A call for one client.** The peers whose command succeeds are as the call wants them. -/
theorem applyClientRuntime_live (hPeers : cfg.collectClientPeers name ≠ [])
    (isBlocked : Bool) (live : Live) (peer : Peer) :
    (applyClientRuntime svc cfg answers name isBlocked live).1 peer =
      if peer ∈ cfg.collectClientPeers name ∧ answers (peerCommand isBlocked peer) = none then
        !isBlocked
      else live peer := by
  unfold applyClientRuntime
  cases isBlocked with
  | true => exact blockClientRuntime_live name live peer
  | false =>
    show (unblockClientRuntime svc cfg answers name live).1 peer = _
    unfold unblockClientRuntime
    split
    · next h => exact absurd h hPeers
    · next h => exact runEach_live _ live peer

/-- Every peer of the client was treated. -/
def AllTreated (cfg : PeerConfig) (answers : Answers) (name : String) (isBlocked : Bool) : Prop :=
  ∀ peer ∈ cfg.collectClientPeers name, answers (peerCommand isBlocked peer) = none

/-- The commands of a call fail for some peers of the client only. -/
def FailsInPart (cfg : PeerConfig) (answers : Answers) (name : String) (isBlocked : Bool) : Prop :=
  (∃ peer ∈ cfg.collectClientPeers name, answers (peerCommand isBlocked peer) = none) ∧
    ∃ peer ∈ cfg.collectClientPeers name, answers (peerCommand isBlocked peer) ≠ none

theorem runtimeResult_filter_success (peers : List τ) (ok : τ → Bool) (errors : List RuntimeError) :
    (runtimeResult (peers.filter ok) errors).success = true ↔ ∃ peer ∈ peers, ok peer = true := by
  simp [runtimeResult, length_pos_iff, filter_eq_nil_iff]

/-- `success` says that one peer was treated. -/
theorem applyClientRuntime_success (hPeers : cfg.collectClientPeers name ≠ [])
    (isBlocked : Bool) (live : Live) :
    (applyClientRuntime svc cfg answers name isBlocked live).2.success = true ↔
      ∃ peer ∈ cfg.collectClientPeers name, answers (peerCommand isBlocked peer) = none := by
  unfold applyClientRuntime
  cases isBlocked with
  | true =>
    show (blockClientRuntime svc cfg answers name live).2.success = true ↔ _
    unfold blockClientRuntime
    split
    · next h => exact absurd h hPeers
    · next h =>
      show (runtimeResult (removeEach svc answers _ live).2.1 _).success = true ↔ _
      rw [removeEach, runEach_treated, runtimeResult_filter_success]
      simp [peerCommand]
  | false =>
    show (unblockClientRuntime svc cfg answers name live).2.success = true ↔ _
    unfold unblockClientRuntime
    split
    · next h => exact absurd h hPeers
    · next h =>
      show (runtimeResult (restoreEach svc answers _ live).2.1 _).success = true ↔ _
      rw [restoreEach, runEach_treated, runtimeResult_filter_success]
      simp [peerCommand]

/-- `success` means that every peer was treated exactly for the calls that do not fail in part. -/
theorem applyClientRuntime_success_iff (name : String) (isBlocked : Bool) (live : Live) :
    ((applyClientRuntime svc cfg answers name isBlocked live).2.success = true →
        AllTreated cfg answers name isBlocked) ↔ ¬ FailsInPart cfg answers name isBlocked := by
  by_cases hPeers : cfg.collectClientPeers name = []
  · simp [AllTreated, FailsInPart, hPeers]
  · rw [applyClientRuntime_success hPeers]
    unfold FailsInPart
    rw [not_and]
    refine imp_congr_right fun _ => ?_
    unfold AllTreated
    push Not
    exact Iff.rfl

/-! ## What a re-block pass leaves -/

theorem mem_of_mem_chunksOf {size fuel : Nat} {keys chunk : List τ}
    (h : chunk ∈ chunksOf size fuel keys) {key : τ} (hKey : key ∈ chunk) : key ∈ keys := by
  induction fuel generalizing keys with
  | zero => simp [chunksOf] at h
  | succ fuel ih =>
    unfold chunksOf at h
    split at h
    · simp at h
    · rcases mem_cons.mp h with rfl | h
      · exact mem_of_mem_take hKey
      · exact mem_of_mem_drop (ih h)

/-- The peer goes in the pass over one interface. -/
def interfaceRemoves (answers : Answers) (interfaceName : String) (publicKeys : List String)
    (peer : Peer) : Bool :=
  decide (peer.interfaceName = interfaceName) &&
    (chunksOf peersPerCommand publicKeys.length publicKeys).any fun chunk =>
      chunkRemoves answers interfaceName chunk peer.publicKey

/-- The re-block pass over these clients takes the peer out. -/
def passRemoves (svc : PeerService) (cfg : PeerConfig) (batchRoute : Bool) (answers : Answers)
    (clientNames : List String) (peer : Peer) : Bool :=
  if svc = .wireguard ∧ batchRoute = true then
    (keysByInterface cfg clientNames).any fun entry =>
      interfaceRemoves answers entry.1 entry.2 peer
  else clientNames.any fun name =>
    decide (peer ∈ cfg.collectClientPeers name) && (answers (.remove peer)).isNone

/-- A loop whose rounds each take some peers out. -/
theorem foldl_removes {ε : Type} (round : τ → Live → Live × List ε) (removes : τ → Peer → Bool)
    (hRound : ∀ t live peer,
      (round t live).1 peer = if removes t peer = true then false else live peer)
    (rounds : List τ) (acc : Live × List ε) (peer : Peer) :
    (rounds.foldl (fun acc t => ((round t acc.1).1, acc.2 ++ (round t acc.1).2)) acc).1 peer =
      if rounds.any (fun t => removes t peer) = true then false else acc.1 peer := by
  induction rounds generalizing acc with
  | nil => simp
  | cons t rest ih =>
    rw [foldl_cons, ih, hRound, any_cons]
    cases removes t peer <;> simp

theorem removeOnInterface_live (interfaceName : String) (publicKeys : List String) (live : Live)
    (peer : Peer) :
    (removeOnInterface svc answers interfaceName publicKeys live).1 peer =
      if interfaceRemoves answers interfaceName publicKeys peer = true then false
      else live peer := by
  have hFold := foldl_removes (removeChunk svc answers interfaceName)
    (fun chunk peer => decide (peer.interfaceName = interfaceName) &&
      chunkRemoves answers interfaceName chunk peer.publicKey)
    (by simp [removeChunk]) (chunksOf peersPerCommand publicKeys.length publicKeys) (live, []) peer
  refine hFold.trans ?_
  unfold interfaceRemoves
  by_cases hInterface : peer.interfaceName = interfaceName <;> simp [hInterface]

theorem blockPeersBatch_live (clientNames : List String) (live : Live) (peer : Peer) :
    (blockPeersBatch svc cfg answers clientNames live).1 peer =
      if (keysByInterface cfg clientNames).any
          (fun entry => interfaceRemoves answers entry.1 entry.2 peer) = true then false
      else live peer :=
  foldl_removes (fun entry : String × List String => removeOnInterface svc answers entry.1 entry.2)
    (fun entry => interfaceRemoves answers entry.1 entry.2)
    (fun entry => removeOnInterface_live entry.1 entry.2) _ (live, []) peer

theorem blockClientsRuntime_live (clientNames : List String) (live : Live) (peer : Peer) :
    (blockClientsRuntime svc cfg answers clientNames live).1 peer =
      if clientNames.any (fun name =>
          decide (peer ∈ cfg.collectClientPeers name) && (answers (.remove peer)).isNone) = true
      then false else live peer := by
  induction clientNames generalizing live with
  | nil => simp [blockClientsRuntime]
  | cons name rest ih =>
    show (blockClientsRuntime svc cfg answers rest
      (blockClientRuntime svc cfg answers name live).1).1 peer = _
    rw [ih, blockClientRuntime_live, any_cons]
    by_cases hPeer : peer ∈ cfg.collectClientPeers name <;>
      cases hAnswer : answers (.remove peer) <;> simp [hPeer]

/-- **A re-block pass.** -/
theorem reblockRuntimeBatch_live (batchRoute : Bool) (clientNames : List String) (live : Live)
    (peer : Peer) :
    (reblockRuntimeBatch svc cfg batchRoute answers clientNames live).1 peer =
      if passRemoves svc cfg batchRoute answers clientNames peer = true then false
      else live peer := by
  unfold reblockRuntimeBatch passRemoves
  cases svc with
  | wireguard =>
    cases batchRoute with
    | true => exact blockPeersBatch_live clientNames live peer
    | false => exact blockClientsRuntime_live clientNames live peer
  | amneziawg2 => exact blockClientsRuntime_live clientNames live peer

/-- A pass takes out peers of its clients only. -/
theorem client_of_passRemoves {batchRoute : Bool} {clientNames : List String}
    (h : passRemoves svc cfg batchRoute answers clientNames peer = true) :
    ∃ name ∈ clientNames, peer ∈ cfg.collectClientPeers name := by
  unfold passRemoves at h
  split at h
  · obtain ⟨⟨interfaceName, keys⟩, hEntry, hRemoves⟩ := any_eq_true.mp h
    simp only [interfaceRemoves, Bool.and_eq_true, decide_eq_true_eq, any_eq_true,
      chunkRemoves] at hRemoves
    obtain ⟨hInterface, chunk, hChunk, hKey, -⟩ := hRemoves
    have hMem := mem_of_mem_chunksOf hChunk hKey
    simp only [keysByInterface, mem_map, Prod.mk.injEq] at hEntry
    obtain ⟨_, -, rfl, rfl⟩ := hEntry
    rw [mem_eraseDups, mem_map] at hMem
    obtain ⟨other, hOther, hSame⟩ := hMem
    rw [mem_filter, mem_flatMap, decide_eq_true_eq] at hOther
    obtain ⟨⟨name, hName, hPeer⟩, hOtherInterface⟩ := hOther
    have hEq : other = peer := by
      obtain ⟨i, k⟩ := peer
      obtain ⟨i', k'⟩ := other
      obtain rfl : i' = i := hOtherInterface.trans hInterface.symm
      obtain rfl : k' = k := hSame
      rfl
    exact ⟨name, hName, hEq ▸ hPeer⟩
  · obtain ⟨name, hName, hPeer⟩ := any_eq_true.mp h
    rw [Bool.and_eq_true, decide_eq_true_eq] at hPeer
    exact ⟨name, hName, hPeer.1⟩

end

end AdminPanel.Access.Runtime
