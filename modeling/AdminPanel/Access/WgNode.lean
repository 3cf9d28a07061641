import AdminPanel.Access.Operations
import AdminPanel.Lib.Table

/-!
# A WireGuard node — policies and live peers

The WireGuard part of `AccessPolicyService` over a whole node: the policy rows
and, beside them, which clients have their peers in the running interface. An
operation writes its row and makes the runtime call that its reconcile asks
for; after an unblock the service blocks again every other client whose state
says so (`_reapply_all_blocked_runtime`).

* `WgNode.runOp`, `WgNode.runSetExpiry` — one operation on a client;
* `reconcileAllWgPolicies` — the sync over all rows, with runtime calls that
  may raise;
* `reconcileAll_present` — whose peers are live after a sync;
* `reconcileAll_again` — a sync at the same reading does nothing more.

Client names stand for the normalised names (`strip().lower()`) that key the
rows.
-/

namespace AdminPanel.Access

open List

open Lib (Table)
open Lib.PyText (strip)

/-! ## The node -/

def isNodeDefaultPolicyClient (clientName : String) : Bool :=
  (strip clientName.toList).map Char.toLower = "__node_default__".toList

structure WgNode where
  policies : Table String PolicyRow
  present : String → Bool

/-- The clock and every client's traffic counter. -/
structure NodeReading where
  now : Time
  consumed : String → Option Int → Int

def NodeReading.client (r : NodeReading) (name : String) : Reading :=
  ⟨r.now, r.consumed name⟩

namespace WgNode

section

variable (n : WgNode) (r : NodeReading) (name : String)

/-- The stored `block_reason` of a client; a client without a row has none. -/
def reason : Option BlockReason :=
  (n.policies.row? name).bind (·.blockReason)

/-- A client's peers are absent exactly when its stored reason is not `None`. -/
def Coupled : Prop :=
  ∀ name, n.present name = (n.reason name).isNone

/-- `_wg_state(row)["is_blocked"]`; a client without a row is not blocked. -/
def blocked : Bool :=
  match n.policies.row? name with
  | some row => (wgState row (r.client name)).isBlocked
  | none => false

def applyWgClientRuntime (isBlocked : Bool) : WgNode :=
  { n with present := Function.update n.present name (!isBlocked) }

/-- The answer of the node to the re-block of several clients. An agent without
the batch route (404, 405) gets one call for each client, some of which fail. -/
inductive BatchReply where
  | applied
  | unsupported (fails : String → Bool)
  | failed

def blockAll (names : List String) : WgNode :=
  { n with present := fun name => if name ∈ names then false else n.present name }

/-- `_reblock_runtime_batch`; a failure is logged, never raised. -/
def reblockRuntimeBatch (names : List String) (reply : BatchReply) : WgNode :=
  match reply with
  | .applied => n.blockAll names
  | .unsupported fails => n.blockAll (names.filter fun name => !fails name)
  | .failed => n

/-- The clients `_reapply_all_blocked_runtime` collects. -/
def blockedClients (excludeClient : Option String) : List String :=
  n.policies.keys.filter fun name =>
    !isNodeDefaultPolicyClient name && some name != excludeClient && n.blocked r name

def reapplyAllBlockedRuntime (excludeClient : Option String) (reply : BatchReply) : WgNode :=
  n.reblockRuntimeBatch (n.blockedClients r excludeClient) reply

/-! ## One operation -/

/-- The runtime call of a reconcile, answered. -/
def runtimeCall (call : Option RuntimeCall) : WgNode :=
  match call with
  | none => n
  | some c =>
    let n := n.applyWgClientRuntime name c.isBlocked
    if c.reapply then n.reapplyAllBlockedRuntime r (some name) .applied else n

/-- Commit the row an operation leaves and make its runtime call. -/
def commitOp (result : PeerResult) : WgNode :=
  { n with policies := n.policies.set name result.1 }.runtimeCall r name result.2

/-- An operation on a client. `_get_wg` creates the missing row, a bare
reconcile does nothing without one, and what raises is rolled back. -/
def runOp (op : PolicyOp) (actor : Option String) : WgNode :=
  match n.policies.row? name, op with
  | none, .reconcile => n
  | row, op =>
    match wgOp op actor (r.client name) (row.getD {}) with
    | .ok result => n.commitOp r name result
    | .error _ => n

/-- `wg_set_expiry` -/
def runSetExpiry (days : Int) (extend : Bool) (actor : Option String) : WgNode :=
  n.commitOp r name
    (wgSetExpiry ((n.policies.row? name).getD {}) days extend actor (r.client name))

end

end WgNode

/-! ## `reconcile_all_wg_policies` -/

/-- The loop body of `reconcile_all_wg_policies`: the row, and the state to
apply if the client is one of the changed ones. -/
def reconcileAllRow (row : PolicyRow) (r : Reading) : PolicyRow × Option Bool :=
  let current := dropTrafficReason (cleanupWgTempBlock row r.now) r
  let state := wgState current r
  let target := wgTargetReason state
  ({ current with blockReason := target },
    if (wgState row r).isBlocked != state.isBlocked || row.blockReason != target then
      some state.isBlocked
    else none)

theorem reconcileAllRow_row (row : PolicyRow) (r : Reading) :
    (reconcileAllRow row r).1 = reconciledPeer row r false := by
  obtain ⟨reason, h⟩ := dropTrafficReason_eq (cleanupTempBlock row r.now) r
  simp only [reconcileAllRow, cleanupWgTempBlock, wgState, wgTargetReason,
    peerTargetReason_policyState, h, reconciledPeer, limitChangeLifts, Bool.false_and]
  rw [← settle_false, settle_settle, blockMode_settle _ _ reason none]

/-- A sync calls the runtime exactly for the rows whose reason moves. -/
theorem reconcileAllRow_call (row : PolicyRow) (r : Reading) :
    (reconcileAllRow row r).2 =
      if row.blockReason = (reconciledPeer row r false).blockReason then none
      else some (isBlocked row r) := by
  obtain ⟨reason, h⟩ := dropTrafficReason_eq (cleanupTempBlock row r.now) r
  rw [reconciledPeer_reason]
  simp only [reconcileAllRow, cleanupWgTempBlock, wgState, wgTargetReason, h, policyState_settle,
    peerTargetReason_policyState, blockMode_cleanupTempBlock]
  simp only [policyState, isBlocked_cleanupTempBlock, bne_self_eq_false, Bool.false_or, bne_iff_ne,
    ne_eq, ite_not]

/-- One loop over the targets, which the first call that raises ends: the node
and whether the loop ran to its end. -/
def applyRuntimeTargets (n : WgNode) :
    List (String × Bool) → (Nat → Bool) → WgNode × Bool
  | [], _ => (n, true)
  | (name, isBlocked) :: rest, raises =>
    if raises 0 then (n, false)
    else applyRuntimeTargets (n.applyWgClientRuntime name isBlocked) rest fun i => raises (i + 1)

/-- Which runtime calls of a sync fail: the single calls by position, and the
answer to the re-block pass. -/
structure RuntimeFaults where
  raises : Nat → Bool
  batch : WgNode.BatchReply

def RuntimeFaults.never : RuntimeFaults := ⟨fun _ => false, .applied⟩

namespace WgNode

/-- The rows a sync commits. -/
def syncedPolicies (n : WgNode) (r : NodeReading) : Table String PolicyRow :=
  n.policies.mapRows fun name row =>
    if isNodeDefaultPolicyClient name then row else (reconcileAllRow row (r.client name)).1

def changedRuntimeClients (n : WgNode) (r : NodeReading) : List (String × Bool) :=
  n.policies.keys.filterMap fun name =>
    if isNodeDefaultPolicyClient name then none
    else (n.policies.row? name).bind fun row =>
      (reconcileAllRow row (r.client name)).2.map fun isBlocked => (name, isBlocked)

end WgNode

/-- `reconcile_all_wg_policies(apply_runtime=True, sync_all_runtime=False)`. The
new reasons of all rows are committed before the first runtime call; a call that
raises leaves the rest of the loop and the re-block pass undone. -/
def reconcileAllWgPolicies (n : WgNode) (r : NodeReading) (faults : RuntimeFaults) : WgNode :=
  let changed := n.changedRuntimeClients r
  let committed := { n with policies := n.syncedPolicies r }
  let (applied, completed) := applyRuntimeTargets committed changed faults.raises
  if completed && changed.any fun target => !target.2 then
    applied.reapplyAllBlockedRuntime r none faults.batch
  else applied

/-! ## Whose peers are live after a sync -/

/-- The targets before the first call that raises. -/
def reachedTargets {τ : Type} : List τ → (Nat → Bool) → List τ
  | [], _ => []
  | target :: rest, raises =>
    if raises 0 then [] else target :: reachedTargets rest fun i => raises (i + 1)

attribute [local simp] applyRuntimeTargets reachedTargets

theorem applyRuntimeTargets_policies (n : WgNode) (targets : List (String × Bool))
    (raises : Nat → Bool) : (applyRuntimeTargets n targets raises).1.policies = n.policies := by
  induction targets generalizing n raises with
  | nil => rfl
  | cons target rest ih =>
    unfold applyRuntimeTargets
    split
    · rfl
    · exact ih _ _

theorem applyRuntimeTargets_completed (n : WgNode) (targets : List (String × Bool))
    (raises : Nat → Bool) :
    (applyRuntimeTargets n targets raises).2 =
      decide (reachedTargets targets raises = targets) := by
  induction targets generalizing n raises with
  | nil => rfl
  | cons target rest ih =>
    unfold applyRuntimeTargets reachedTargets
    split
    · simp
    · rw [ih]
      simp

variable {name : String}

theorem applyRuntimeTargets_unreached (n : WgNode) {targets : List (String × Bool)}
    {raises : Nat → Bool} (h : name ∉ (reachedTargets targets raises).map Prod.fst) :
    (applyRuntimeTargets n targets raises).1.present name = n.present name := by
  induction targets generalizing n raises with
  | nil => rfl
  | cons target rest ih =>
    unfold applyRuntimeTargets
    unfold reachedTargets at h
    split
    · rfl
    · next hRaises =>
      rw [if_neg hRaises, map_cons, mem_cons, not_or] at h
      rw [ih _ h.2]
      simp [WgNode.applyWgClientRuntime, h.1]

variable {τ : Type}

theorem reachedTargets_sublist (targets : List τ) (raises : Nat → Bool) :
    (reachedTargets targets raises).Sublist targets := by
  induction targets generalizing raises with
  | nil => exact List.Sublist.refl _
  | cons target rest ih =>
    unfold reachedTargets
    split
    · exact nil_sublist _
    · exact (ih _).cons_cons _

theorem reachedTargets_never (targets : List τ) :
    reachedTargets targets (fun _ => false) = targets := by
  induction targets with
  | nil => rfl
  | cons target rest ih => simp [reachedTargets, ih]

theorem map_reachedTargets {υ : Type} (f : τ → υ) (targets : List τ) (raises : Nat → Bool) :
    (reachedTargets targets raises).map f = reachedTargets (targets.map f) raises := by
  induction targets generalizing raises with
  | nil => rfl
  | cons target rest ih =>
    simp only [reachedTargets, map_cons]
    split
    · rfl
    · rw [map_cons, ih]

theorem reachedTargets_eq_self_iff (targets : List τ) (raises : Nat → Bool) :
    reachedTargets targets raises = targets ↔ ∀ i, i < targets.length → raises i = false := by
  induction targets generalizing raises with
  | nil => simp [reachedTargets]
  | cons target rest ih =>
    unfold reachedTargets
    split
    · next hRaises =>
      refine ⟨fun h => absurd h (by simp), fun h => ?_⟩
      have h0 := h 0 (by simp)
      rw [hRaises] at h0
      simp at h0
    · next hRaises =>
      rw [cons_inj_right, ih]
      constructor
      · intro h i hi
        cases i with
        | zero => simpa using hRaises
        | succ i => exact h i (by simpa using hi)
      · intro h i hi
        exact h (i + 1) (by simpa using hi)

/-- A reached client has the peers its state calls for: no later call touches
them, as the targets name distinct clients. -/
theorem applyRuntimeTargets_reached (n : WgNode) {targets : List (String × Bool)}
    {raises : Nat → Bool} {isBlocked : Bool} (hNodup : (targets.map Prod.fst).Nodup)
    (h : (name, isBlocked) ∈ reachedTargets targets raises) :
    (applyRuntimeTargets n targets raises).1.present name = !isBlocked := by
  induction targets generalizing n raises with
  | nil => simp [reachedTargets] at h
  | cons target rest ih =>
    rw [map_cons, nodup_cons] at hNodup
    unfold applyRuntimeTargets
    unfold reachedTargets at h
    split
    · next hRaises => simp [hRaises] at h
    · next hRaises =>
      rw [if_neg hRaises, mem_cons] at h
      rcases h with rfl | h
      · have hLater : name ∉ (reachedTargets rest fun i => raises (i + 1)).map Prod.fst :=
          fun hMem => hNodup.1 (((reachedTargets_sublist _ _).map _).subset hMem)
        rw [applyRuntimeTargets_unreached _ hLater]
        simp [WgNode.applyWgClientRuntime]
      · exact ih _ hNodup.2 h

variable {n : WgNode}

namespace WgNode

theorem blocked_syncedPolicies (n : WgNode) (r : NodeReading) (name : String) :
    { n with policies := n.syncedPolicies r }.blocked r name = n.blocked r name := by
  unfold blocked syncedPolicies
  rw [Table.row?_mapRows]
  cases n.policies.row? name with
  | none => rfl
  | some row =>
    simp only [Option.map_some]
    split
    · rfl
    · rw [reconcileAllRow_row]
      exact isBlocked_reconciledPeer row (r.client name)

theorem blocked_congr {n' : WgNode} (h : n.policies = n'.policies) (r : NodeReading)
    (name : String) : n.blocked r name = n'.blocked r name := by
  unfold blocked
  rw [h]

/-- A sync calls the runtime for the clients whose reason moves. -/
theorem mem_changedRuntimeClients {r : NodeReading} {isBlocked : Bool} :
    (name, isBlocked) ∈ n.changedRuntimeClients r ↔
      isNodeDefaultPolicyClient name = false ∧ isBlocked = n.blocked r name ∧
        ∃ row, n.policies.row? name = some row ∧
          row.blockReason ≠ (blockMode row (r.client name)).targetReason := by
  unfold changedRuntimeClients
  rw [mem_filterMap]
  constructor
  · rintro ⟨a, -, h⟩
    split at h
    · simp at h
    · next hDefault =>
      rw [Option.bind_eq_some_iff] at h
      obtain ⟨row, hRow, hCall⟩ := h
      rw [Option.map_eq_some_iff] at hCall
      obtain ⟨b, hb, hEq⟩ := hCall
      cases hEq
      rw [reconcileAllRow_call, reconciledPeer_reason] at hb
      split at hb
      · simp at hb
      · next hReason =>
        refine ⟨by simpa using hDefault, ?_, row, hRow, hReason⟩
        simp only [blocked, hRow]
        exact (Option.some.inj hb).symm
  · rintro ⟨hDefault, rfl, row, hRow, hReason⟩
    refine ⟨name, ?_, ?_⟩
    · rw [n.policies.mem_keys, hRow]
      rfl
    · rw [hDefault, hRow]
      simp only [Bool.false_eq_true, if_false, Option.bind_some, reconcileAllRow_call,
        reconciledPeer_reason, if_neg hReason, blocked, hRow]
      rfl

theorem changedRuntimeClients_nodup (n : WgNode) (r : NodeReading) :
    ((n.changedRuntimeClients r).map Prod.fst).Nodup := by
  unfold changedRuntimeClients
  rw [map_filterMap]
  refine n.policies.nodup.filterMap ?_
  intro a a' b hb hb'
  have hName : ∀ c : String, b ∈ Option.map Prod.fst
      (if isNodeDefaultPolicyClient c then none
        else (n.policies.row? c).bind fun row =>
          (reconcileAllRow row (r.client c)).2.map fun isBlocked => (c, isBlocked)) → c = b := by
    intro c hc
    split at hc
    · simp at hc
    · simp only [Option.mem_def, Option.map_eq_some_iff, Option.bind_eq_some_iff] at hc
      obtain ⟨_, ⟨row, -, _, -, rfl⟩, rfl⟩ := hc
      rfl
  rw [hName a hb, hName a' hb']

/-- The clients that the loop of a sync reaches. -/
def reached (n : WgNode) (r : NodeReading) (faults : RuntimeFaults) : List String :=
  (reachedTargets (n.changedRuntimeClients r) faults.raises).map Prod.fst

/-- A sync that gets through its loop and frees someone starts the re-block pass. -/
def startsReblock (n : WgNode) (r : NodeReading) (faults : RuntimeFaults) : Bool :=
  decide (reachedTargets (n.changedRuntimeClients r) faults.raises = n.changedRuntimeClients r) &&
    (n.changedRuntimeClients r).any fun target => !target.2

/-- The clients that the node answers for in a re-block pass. -/
def BatchReply.removes (reply : BatchReply) (name : String) : Bool :=
  match reply with
  | .applied => true
  | .unsupported fails => !fails name
  | .failed => false

theorem reapply_present (n : WgNode) (r : NodeReading) (excludeClient : Option String)
    (reply : BatchReply) (name : String) :
    (n.reapplyAllBlockedRuntime r excludeClient reply).present name =
      if name ∈ n.blockedClients r excludeClient ∧ reply.removes name = true then false
      else n.present name := by
  unfold reapplyAllBlockedRuntime reblockRuntimeBatch
  cases reply <;> simp [blockAll, BatchReply.removes]

theorem reapply_policies (n : WgNode) (r : NodeReading) (excludeClient : Option String)
    (reply : BatchReply) :
    (n.reapplyAllBlockedRuntime r excludeClient reply).policies = n.policies := by
  unfold reapplyAllBlockedRuntime reblockRuntimeBatch
  cases reply <;> rfl

theorem mem_blockedClients {r : NodeReading} {excludeClient : Option String} :
    name ∈ n.blockedClients r excludeClient ↔
      isNodeDefaultPolicyClient name = false ∧ some name ≠ excludeClient ∧
        n.blocked r name = true := by
  unfold blockedClients
  rw [mem_filter, Bool.and_eq_true, Bool.and_eq_true, Bool.not_eq_true', bne_iff_ne]
  constructor
  · rintro ⟨-, ⟨hDefault, hExcl⟩, hBlocked⟩
    exact ⟨hDefault, hExcl, hBlocked⟩
  · rintro ⟨hDefault, hExcl, hBlocked⟩
    refine ⟨?_, ⟨hDefault, hExcl⟩, hBlocked⟩
    rw [n.policies.mem_keys]
    cases hRow : n.policies.row? name with
    | none => simp [blocked, hRow] at hBlocked
    | some row => rfl

end WgNode

/-- The rows are committed whatever the runtime answers. -/
theorem reconcileAll_policies (n : WgNode) (r : NodeReading) (faults : RuntimeFaults) :
    (reconcileAllWgPolicies n r faults).policies = n.syncedPolicies r := by
  have hApplied := applyRuntimeTargets_policies { n with policies := n.syncedPolicies r }
    (n.changedRuntimeClients r) faults.raises
  simp only [reconcileAllWgPolicies]
  split
  · rw [WgNode.reapply_policies, hApplied]
  · exact hApplied

theorem reconcileAll_blocked (n : WgNode) (r r' : NodeReading) (faults : RuntimeFaults)
    (name : String) :
    (reconcileAllWgPolicies n r faults).blocked r' name =
      { n with policies := n.syncedPolicies r }.blocked r' name :=
  WgNode.blocked_congr (reconcileAll_policies n r faults) r' name

/-- A sync stores for every client the reason its state calls for. -/
theorem reconcileAll_reason (n : WgNode) (r : NodeReading) (faults : RuntimeFaults)
    {row : PolicyRow} (hDefault : isNodeDefaultPolicyClient name = false)
    (hRow : n.policies.row? name = some row) :
    (reconcileAllWgPolicies n r faults).reason name =
      (blockMode row (r.client name)).targetReason := by
  simp only [WgNode.reason, reconcileAll_policies, WgNode.syncedPolicies, Table.row?_mapRows, hRow,
    Option.map_some, Option.bind_some, hDefault, Bool.false_eq_true, if_false,
    reconcileAllRow_row, reconciledPeer_reason]

/-- A sync leaves the rows of the node default and the clients without a row alone. -/
theorem reconcileAll_reason_of_skipped (n : WgNode) (r : NodeReading) (faults : RuntimeFaults)
    (h : isNodeDefaultPolicyClient name = true ∨ n.policies.row? name = none) :
    (reconcileAllWgPolicies n r faults).reason name = n.reason name := by
  simp only [WgNode.reason, reconcileAll_policies, WgNode.syncedPolicies, Table.row?_mapRows]
  cases hRow : n.policies.row? name with
  | none => rfl
  | some row =>
    rcases h with h | h
    · simp [h]
    · rw [hRow] at h
      simp at h

/-- **Live peers after a sync.** Re-blocked clients lose their peers, reached
clients have the peers their state calls for, nobody else changes. -/
theorem reconcileAll_present (n : WgNode) (r : NodeReading) (faults : RuntimeFaults)
    (name : String) :
    (reconcileAllWgPolicies n r faults).present name =
      if n.startsReblock r faults = true ∧ name ∈ n.blockedClients r none ∧
          faults.batch.removes name = true then false
      else if name ∈ n.reached r faults then !n.blocked r name
      else n.present name := by
  have hPolicies := applyRuntimeTargets_policies { n with policies := n.syncedPolicies r }
    (n.changedRuntimeClients r) faults.raises
  have hBlocked : name ∈ ((applyRuntimeTargets { n with policies := n.syncedPolicies r }
      (n.changedRuntimeClients r) faults.raises).1.blockedClients r none) ↔
      name ∈ n.blockedClients r none := by
    rw [WgNode.mem_blockedClients, WgNode.mem_blockedClients, WgNode.blocked_congr hPolicies,
      WgNode.blocked_syncedPolicies]
  have hApplied : (applyRuntimeTargets { n with policies := n.syncedPolicies r }
      (n.changedRuntimeClients r) faults.raises).1.present name =
      if name ∈ n.reached r faults then !n.blocked r name else n.present name := by
    split
    · next hReached =>
      obtain ⟨⟨_, b⟩, hMem, rfl⟩ := mem_map.mp hReached
      have hb := (WgNode.mem_changedRuntimeClients.mp
        ((reachedTargets_sublist _ _).subset hMem)).2.1
      rw [applyRuntimeTargets_reached _ (n.changedRuntimeClients_nodup r) hMem, hb]
    · next hReached => rw [applyRuntimeTargets_unreached _ hReached]
  simp only [reconcileAllWgPolicies, applyRuntimeTargets_completed]
  split
  · next hStarts =>
    have hPass : n.startsReblock r faults = true := hStarts
    rw [WgNode.reapply_present, hApplied, hPass]
    simp only [hBlocked, true_and]
  · next hStarts =>
    have hPass : ¬ n.startsReblock r faults = true := hStarts
    rw [hApplied]
    simp only [hPass, false_and, if_false, Bool.false_eq_true]

/-- Reconciling a row again at the same reading changes nothing. -/
theorem reconciledPeer_again (row : PolicyRow) (r : Reading) :
    reconciledPeer (reconciledPeer row r false) r false = reconciledPeer row r false := by
  have hOnce : ∀ row : PolicyRow, reconciledPeer row r false =
      settle (cleanupTempBlock row r.now) false
        (blockMode (cleanupTempBlock row r.now) r).targetReason := by
    intro row
    simp only [reconciledPeer, limitChangeLifts, Bool.false_and, blockMode_settle_false]
  have hClean : ∀ reason,
      cleanupTempBlock (settle (cleanupTempBlock row r.now) false reason) r.now =
        settle (cleanupTempBlock row r.now) false reason := by
    intro reason
    refine if_neg ?_
    by_cases hLapsed : tempBlockLapsed row r.now = true
    · rw [cleanupTempBlock, if_pos hLapsed]
      exact Bool.false_ne_true
    · rw [cleanupTempBlock, if_neg hLapsed]
      exact hLapsed
  rw [hOnce (reconciledPeer row r false), hOnce row, hClean, blockMode_settle_false, settle_settle]

/-- **A sync at the same reading does nothing more**, also where the first has not reached every
client: what a failed call has left undone is not retried. -/
theorem reconcileAll_again (n : WgNode) (r : NodeReading) (faults faults' : RuntimeFaults) :
    reconcileAllWgPolicies (reconcileAllWgPolicies n r faults) r faults' =
      reconcileAllWgPolicies n r faults := by
  have hRows : (reconcileAllWgPolicies n r faults).syncedPolicies r =
      (reconcileAllWgPolicies n r faults).policies := by
    rw [WgNode.syncedPolicies, reconcileAll_policies, WgNode.syncedPolicies, Table.mapRows,
      Table.mapRows]
    congr 1
    funext name
    dsimp only
    cases n.policies.row? name with
    | none => rfl
    | some row =>
      simp only [Option.map_some, reconcileAllRow_row]
      split_ifs
      · rfl
      · rw [reconciledPeer_again]
  have hQuiet : (reconcileAllWgPolicies n r faults).changedRuntimeClients r = [] := by
    refine eq_nil_iff_forall_not_mem.mpr fun ⟨name, isBlocked⟩ hMem => ?_
    obtain ⟨hDefault, -, row, hRow, hReason⟩ := WgNode.mem_changedRuntimeClients.mp hMem
    rw [reconcileAll_policies, WgNode.syncedPolicies, Table.row?_mapRows,
      Option.map_eq_some_iff] at hRow
    obtain ⟨old, -, rfl⟩ := hRow
    refine hReason ?_
    rw [if_neg (by rw [hDefault]; exact Bool.false_ne_true), reconcileAllRow_row,
      ← reconciledPeer_reason, reconciledPeer_again]
  rw [reconcileAllWgPolicies.eq_def (reconcileAllWgPolicies n r faults)]
  simp only [hQuiet, hRows, applyRuntimeTargets, any_nil, Bool.and_false, Bool.false_eq_true,
    if_false]

end AdminPanel.Access
