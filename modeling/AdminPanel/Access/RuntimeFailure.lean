import AdminPanel.Access.RuntimePeers
import AdminPanel.Access.WgNode
import AdminPanel.Lib.Runs

/-!
# Runtime commands that fail without raising

The WireGuard and AmneziaWG2 operations of `AccessPolicyService` over clients whose peers are
removed and restored by commands that may each fail. A failure comes back as a value that no
operation looks at, and the new `block_reason` is stored all the same.

* `RuntimeState`, `runtimeStep` — the policies and the live peers of both services;
* `Recovers` — once the commands work again, a reconcile puts every client right;
* `recovers_iff` — that is, whoever keeps its reason is right already;
* `commandsTreat_iff` — the steps after which this still holds;
* `runtime_failures_recovered` — the runs that keep it, and the results that mean what they say.
-/

namespace AdminPanel.Access.Runtime

open List Function

open Lib (Table exec Along along_congr)

/-! ## The services over their peers -/

structure PeerNode where
  policies : Table String PolicyRow
  live : Live

/-- What one action meets: the clock and the traffic, and how its commands end. The calls of
an action are for distinct clients. -/
structure Turn where
  reading : NodeReading
  call : String → Answers
  batchRoute : Bool
  reapply : Answers

/-- Every command succeeds. -/
def Turn.allDone (reading : NodeReading) (batchRoute : Bool) : Turn :=
  ⟨reading, fun _ => .allDone, batchRoute, .allDone⟩

namespace PeerNode

section

variable (n : PeerNode) (svc : PeerService)

/-- The rows as those of a `WgNode`, where a client is present with all its peers. -/
def rows (cfg : PeerConfig) : WgNode :=
  ⟨n.policies, fun name => (cfg.collectClientPeers name).all n.live⟩

/-- The stored `block_reason`. -/
def reason (name : String) : Option BlockReason :=
  (n.policies.row? name).bind (·.blockReason)

/-- The client's state is blocked. -/
def blocked (r : NodeReading) (name : String) : Bool :=
  (n.policies.row? name).any fun row => isBlocked row (r.client name)

/-- `_reapply_all_blocked_runtime`, `_reapply_all_blocked_awg2_runtime` -/
def reapplyAllBlockedRuntime (cfg : PeerConfig) (turn : Turn) (excludeClient : Option String) :
    PeerNode × List (String × RuntimeResult) :=
  let (live, results) := reblockRuntimeBatch svc cfg turn.batchRoute turn.reapply
    ((n.rows cfg).blockedClients turn.reading excludeClient) n.live
  ({ n with live := live }, results)

/-- The runtime call of a reconcile; its results are dropped. -/
def runtimeCall (cfg : PeerConfig) (turn : Turn) (name : String) (call : Option RuntimeCall) :
    PeerNode :=
  match call with
  | none => n
  | some c =>
    let live := (applyClientRuntime svc cfg (turn.call name) name c.isBlocked n.live).1
    let n := { n with live := live }
    if c.reapply then (n.reapplyAllBlockedRuntime svc cfg turn (some name)).1 else n

def commitOp (cfg : PeerConfig) (turn : Turn) (name : String) (result : PeerResult) : PeerNode :=
  { n with policies := n.policies.set name result.1 }.runtimeCall svc cfg turn name result.2

/-- The service's function for an operation. -/
def peerOp : PolicyOp → Option String → Reading → PolicyRow → Except PolicyError PeerResult :=
  match svc with
  | .wireguard => wgOp
  | .amneziawg2 => awg2Op

/-- An operation on a client. `_get_wg` and `_get_awg2` create the missing row, a bare reconcile
does nothing without one, and what raises is rolled back. -/
def runOp (cfg : PeerConfig) (turn : Turn) (name : String) (op : PolicyOp) (actor : Option String) :
    PeerNode :=
  match n.policies.row? name, op with
  | none, .reconcile => n
  | row, op =>
    match peerOp svc op actor (turn.reading.client name) (row.getD {}) with
    | .ok result => n.commitOp svc cfg turn name result
    | .error _ => n

/-- The loop over `runtime_targets`, with the entries of `runtime`. -/
def applyRuntimeTargets (cfg : PeerConfig) (turn : Turn) :
    List (String × Bool) → Live → Live × List (String × RuntimeResult)
  | [], live => (live, [])
  | (name, isBlocked) :: rest, live =>
    let (live, result) :=
      applyClientRuntime .wireguard cfg (turn.call name) name isBlocked live
    let (live, results) := applyRuntimeTargets cfg turn rest live
    (live, (name, result) :: results)

/-- `reconcile_all_wg_policies(apply_runtime=True, sync_all_runtime=False)` -/
def reconcileAllWgPolicies (cfg : PeerConfig) (turn : Turn) :
    PeerNode × List (String × RuntimeResult) :=
  let changed := (n.rows cfg).changedRuntimeClients turn.reading
  let (live, results) := applyRuntimeTargets cfg turn changed n.live
  let n : PeerNode := ⟨(n.rows cfg).syncedPolicies turn.reading, live⟩
  if changed.any fun target => !target.2 then
    let (n, reblocked) := n.reapplyAllBlockedRuntime .wireguard cfg turn none
    (n, results ++ reblocked)
  else (n, results)

end

end PeerNode

structure RuntimeState where
  now : Time
  node : PeerService → PeerNode

inductive RuntimeAction where
  | op (svc : PeerService) (name : String) (op : PolicyOp) (actor : Option String) (turn : Turn)
  | reconcileAll (turn : Turn)

def RuntimeAction.turn : RuntimeAction → Turn
  | .op _ _ _ _ turn => turn
  | .reconcileAll turn => turn

/-- The clock does not go back. -/
def runtimeStep (cfg : PeerService → PeerConfig) (s : RuntimeState) (a : RuntimeAction) :
    Option RuntimeState :=
  if a.turn.reading.now < s.now then none
  else some
    { now := a.turn.reading.now
      node :=
        match a with
        | .op svc name op actor turn =>
          update s.node svc ((s.node svc).runOp svc (cfg svc) turn name op actor)
        | .reconcileAll turn =>
          update s.node .wireguard
            ((s.node .wireguard).reconcileAllWgPolicies (cfg .wireguard) turn).1 }

/-! ## What a later reconcile makes of a client -/

/-- No peer of a blocked client and every peer of an unblocked one is live. -/
def Right (cfg : PeerConfig) (n : PeerNode) (r : NodeReading) (name : String) : Prop :=
  ∀ peer ∈ cfg.collectClientPeers name, n.live peer = !n.blocked r name

/-- When every command succeeds, a sync puts every WireGuard client right, and a reconcile of
either service its client. -/
def Recovers (cfg : PeerService → PeerConfig) (s : RuntimeState) : Prop :=
  (∀ r batchRoute name, s.now ≤ r.now → isNodeDefaultPolicyClient name = false →
    Right (cfg .wireguard)
      ((s.node .wireguard).reconcileAllWgPolicies (cfg .wireguard) (.allDone r batchRoute)).1
      r name) ∧
  ∀ svc r batchRoute name, s.now ≤ r.now →
    Right (cfg svc) ((s.node svc).runOp svc (cfg svc) (.allDone r batchRoute) name .reconcile none)
      r name

/-- The reason that the client's state calls for. -/
def PeerNode.targetReason (n : PeerNode) (r : NodeReading) (name : String) : Option BlockReason :=
  (n.policies.row? name).bind fun row => (blockMode row (r.client name)).targetReason

/-- A client whose reason a reconcile leaves alone is right. -/
def Sound (cfg : PeerConfig) (t : Time) (n : PeerNode) (name : String) : Prop :=
  ∀ r : NodeReading, t ≤ r.now → n.reason name = n.targetReason r name → Right cfg n r name

/-- The peers of the client are live exactly when no reason is stored. -/
def Tracks (cfg : PeerConfig) (n : PeerNode) (name : String) : Prop :=
  ∀ peer ∈ cfg.collectClientPeers name, n.live peer = (n.reason name).isNone

/-- Every client with a row has peers in the config. -/
def Known (cfg : PeerConfig) (n : PeerNode) : Prop :=
  ∀ name, (n.policies.row? name).isSome = true → cfg.collectClientPeers name ≠ []

variable {r : NodeReading} {t : Time} {turn : Turn} {peer : Peer} {other : String} {e : Entered}
  {op : PolicyOp} {actor : Option String} {row : PolicyRow}

section

variable {svc : PeerService} {cfg : PeerConfig} {n : PeerNode} {name : String}

theorem targetReason_isNone_node (n : PeerNode) (r : NodeReading) (name : String) :
    (n.targetReason r name).isNone = !n.blocked r name := by
  unfold PeerNode.targetReason PeerNode.blocked
  cases n.policies.row? name with
  | none => rfl
  | some row => exact targetReason_isNone row (r.client name)

theorem right_iff_tracks (h : n.reason name = n.targetReason r name) :
    Right cfg n r name ↔ Tracks cfg n name := by
  unfold Right Tracks
  rw [← targetReason_isNone_node, h]

theorem Tracks.sound (h : Tracks cfg n name) (t : Time) : Sound cfg t n name :=
  fun _ _ hSame => (right_iff_tracks hSame).mpr h

theorem Sound.tracks (h : Sound cfg t n name) (hLater : t ≤ r.now)
    (hSame : n.reason name = n.targetReason r name) : Tracks cfg n name :=
  (right_iff_tracks hSame).mp (h r hLater hSame)

/-- Both depend on the client's row and peers only. -/
theorem sound_congr {n' : PeerNode} (hRow : n'.policies.row? name = n.policies.row? name)
    (hLive : ∀ peer ∈ cfg.collectClientPeers name, n'.live peer = n.live peer) :
    Sound cfg t n' name ↔ Sound cfg t n name := by
  unfold Sound Right PeerNode.reason PeerNode.targetReason PeerNode.blocked
  rw [hRow]
  refine forall₃_congr fun r _ _ => forall₂_congr fun peer hPeer => ?_
  rw [hLive peer hPeer]

theorem Sound.mono {t' : Time} (h : Sound cfg t n name) (hLe : t ≤ t') : Sound cfg t' n name :=
  fun r hLater => h r (Int.le_trans hLe hLater)

theorem rows_blocked (n : PeerNode) (cfg : PeerConfig) (r : NodeReading) (name : String) :
    (n.rows cfg).blocked r name = n.blocked r name := by
  unfold WgNode.blocked PeerNode.blocked PeerNode.rows
  cases n.policies.row? name <;> rfl

/-! ## What an action leaves -/

theorem reapply_live (turn : Turn) (excludeClient : Option String) (peer : Peer) :
    (n.reapplyAllBlockedRuntime svc cfg turn excludeClient).1.live peer =
      if passRemoves svc cfg turn.batchRoute turn.reapply
          ((n.rows cfg).blockedClients turn.reading excludeClient) peer = true then false
      else n.live peer :=
  reblockRuntimeBatch_live turn.batchRoute _ n.live peer

theorem commitOp_policies (turn : Turn) (result : PeerResult) :
    (n.commitOp svc cfg turn name result).policies = n.policies.set name result.1 := by
  unfold PeerNode.commitOp PeerNode.runtimeCall
  cases result.2 with
  | none => rfl
  | some c =>
    show (ite (c.reapply = true) _ _ : PeerNode).policies = _
    split <;> rfl

/-- The re-block pass after an operation goes by the rows of the other clients. -/
theorem blockedClients_set (n : PeerNode) (r : NodeReading) (name : String) (row : PolicyRow)
    (live : Live) :
    ((⟨n.policies.set name row, live⟩ : PeerNode).rows cfg).blockedClients r (some name) =
      (n.rows cfg).blockedClients r (some name) := by
  have hSame : ∀ other, other ≠ name →
      ((⟨n.policies.set name row, live⟩ : PeerNode).rows cfg).blocked r other =
        (n.rows cfg).blocked r other := by
    intro other hOther
    rw [rows_blocked, rows_blocked]
    unfold PeerNode.blocked
    rw [Table.row?_set_of_ne _ _ hOther]
  have hFilter : ∀ keys : List String,
      keys.filter (fun other => !isNodeDefaultPolicyClient other && some other != some name &&
        ((⟨n.policies.set name row, live⟩ : PeerNode).rows cfg).blocked r other) =
      keys.filter (fun other => !isNodeDefaultPolicyClient other && some other != some name &&
        (n.rows cfg).blocked r other) := by
    intro keys
    refine filter_congr fun other _ => ?_
    by_cases hOther : other = name
    · simp [hOther]
    · rw [hSame other hOther]
  unfold WgNode.blockedClients
  rw [hFilter]
  show (if name ∈ n.policies.keys then n.policies.keys else n.policies.keys ++ [name]).filter _ = _
  split
  · rfl
  · rw [filter_append, filter_cons_of_neg (by simp), filter_nil, append_nil]
    rfl

/-- The peers that the re-block pass after an operation takes out. -/
def Reblocks (svc : PeerService) (cfg : PeerConfig) (n : PeerNode) (turn : Turn) (name : String)
    (peer : Peer) : Prop :=
  passRemoves svc cfg turn.batchRoute turn.reapply
    ((n.rows cfg).blockedClients turn.reading (some name)) peer = true

instance (turn : Turn) (peer : Peer) : Decidable (Reblocks svc cfg n turn name peer) :=
  inferInstanceAs (Decidable (_ = true))

theorem Reblocks.client (h : Reblocks svc cfg n turn name peer) :
    ∃ other, other ≠ name ∧ n.blocked turn.reading other = true ∧
      peer ∈ cfg.collectClientPeers other := by
  obtain ⟨other, hOther, hPeer⟩ := client_of_passRemoves h
  rw [WgNode.mem_blockedClients, rows_blocked] at hOther
  exact ⟨other, fun hEq => hOther.2.1 (congrArg some hEq), hOther.2.2, hPeer⟩

/-- A peer after the commit: the re-block pass comes after the client's own command. -/
theorem commitOp_live (hPeers : cfg.collectClientPeers name ≠ []) (turn : Turn)
    (row : PolicyRow) (c : RuntimeCall) (peer : Peer) :
    (n.commitOp svc cfg turn name (row, some c)).live peer =
      if c.reapply = true ∧ Reblocks svc cfg n turn name peer then false
      else if peer ∈ cfg.collectClientPeers name ∧
          turn.call name (peerCommand c.isBlocked peer) = none then !c.isBlocked
      else n.live peer := by
  obtain ⟨isBlocked, reapply⟩ := c
  cases reapply with
  | false =>
    show (applyClientRuntime svc cfg (turn.call name) name isBlocked n.live).1 peer = _
    simp only [Bool.false_eq_true, false_and, if_false]
    exact applyClientRuntime_live hPeers isBlocked n.live peer
  | true =>
    show (PeerNode.reapplyAllBlockedRuntime ⟨n.policies.set name row,
      (applyClientRuntime svc cfg (turn.call name) name isBlocked n.live).1⟩
      svc cfg turn (some name)).1.live peer = _
    rw [reapply_live, blockedClients_set]
    simp only [applyClientRuntime_live hPeers, true_and]
    rfl

/-- The client of an operation has its own peers as its call left them. -/
theorem commitOp_live_self (hPeers : cfg.collectClientPeers name ≠ []) (turn : Turn)
    (row : PolicyRow) (c : RuntimeCall) (hPeer : peer ∈ cfg.collectClientPeers name) :
    (n.commitOp svc cfg turn name (row, some c)).live peer =
      if turn.call name (peerCommand c.isBlocked peer) = none then !c.isBlocked
      else n.live peer := by
  have hNot : ¬ Reblocks svc cfg n turn name peer := by
    intro hReblocks
    obtain ⟨other, hOther, -, hMem⟩ := hReblocks.client
    exact hOther (collectClientPeers_disjoint hMem hPeer)
  rw [commitOp_live hPeers]
  simp only [hNot, and_false, if_false, hPeer, true_and]

theorem commitOp_live_other (hPeers : cfg.collectClientPeers name ≠ []) (turn : Turn)
    (row : PolicyRow) (c : RuntimeCall) (hOther : other ≠ name)
    (hPeer : peer ∈ cfg.collectClientPeers other) :
    (n.commitOp svc cfg turn name (row, some c)).live peer =
      if c.reapply = true ∧ Reblocks svc cfg n turn name peer then false else n.live peer := by
  have hNot : peer ∉ cfg.collectClientPeers name := fun hMem =>
    hOther (collectClientPeers_disjoint hPeer hMem)
  rw [commitOp_live hPeers]
  simp only [hNot, false_and, if_false]

/-! ## One operation -/

/-- The client may be unblocked at a later reading. -/
def Releasable (n : PeerNode) (r : NodeReading) (name : String) : Prop :=
  ∃ later : NodeReading, r.now ≤ later.now ∧ n.blocked later name = false

/-- The operation enters the row `e` and goes on. -/
def Commits (n : PeerNode) (r : NodeReading) (name : String) (op : PolicyOp)
    (actor : Option String) (e : Entered) : Prop :=
  (op = .reconcile → (n.policies.row? name).isSome = true) ∧
    enter op actor (r.client name) ((n.policies.row? name).getD {}) = .ok e

/-- Every command of the operation's own call succeeds or finds its peer as it should be. A
client let in under a past deadline is blocked by its next reconcile whatever they do. -/
def CallTreats (cfg : PeerConfig) (n : PeerNode) (turn : Turn) (name : String) (e : Entered)
    (c : RuntimeCall) : Prop :=
  e.reconciles = true → ∀ peer ∈ cfg.collectClientPeers name,
    turn.call name (peerCommand c.isBlocked peer) = none ∨ n.live peer = !c.isBlocked

/-- The re-block pass takes no peer from a client that has no reason stored and may be
unblocked later. -/
def PassSpares (svc : PeerService) (cfg : PeerConfig) (n : PeerNode) (turn : Turn)
    (name : String) (c : RuntimeCall) : Prop :=
  c.reapply = true → ∀ other, n.reason other = none → Releasable n turn.reading other →
    ∀ peer ∈ cfg.collectClientPeers other, ¬ Reblocks svc cfg n turn name peer

def OpTreats (svc : PeerService) (cfg : PeerConfig) (n : PeerNode) (turn : Turn) (name : String)
    (op : PolicyOp) (actor : Option String) : Prop :=
  ∀ e c, Commits n turn.reading name op actor e →
    (e.peerResult (turn.reading.client name) op.forcesRuntime).2 = some c →
    CallTreats cfg n turn name e c ∧ PassSpares svc cfg n turn name c

/-- An operation raises and changes nothing, or enters one row and commits it. -/
theorem runOp_cases (svc : PeerService) (cfg : PeerConfig) (n : PeerNode) (turn : Turn)
    (name : String) (op : PolicyOp) (actor : Option String) :
    (n.runOp svc cfg turn name op actor = n ∧ ∀ e, ¬ Commits n turn.reading name op actor e) ∨
    ∃ e, Commits n turn.reading name op actor e ∧
      n.runOp svc cfg turn name op actor =
        n.commitOp svc cfg turn name
          (e.peerResult (turn.reading.client name) op.forcesRuntime) := by
  have hOp : PeerNode.peerOp svc = wgOp := by
    cases svc with
    | wireguard => rfl
    | amneziawg2 =>
      funext op actor r row
      exact awg2Op_eq_wgOp op actor r row
  have hGo : (op = .reconcile → (n.policies.row? name).isSome = true) →
      n.runOp svc cfg turn name op actor =
        (match wgOp op actor (turn.reading.client name) ((n.policies.row? name).getD {}) with
          | .ok result => n.commitOp svc cfg turn name result
          | .error _ => n) →
      (n.runOp svc cfg turn name op actor = n ∧ ∀ e, ¬ Commits n turn.reading name op actor e) ∨
        ∃ e, Commits n turn.reading name op actor e ∧
          n.runOp svc cfg turn name op actor =
            n.commitOp svc cfg turn name
              (e.peerResult (turn.reading.client name) op.forcesRuntime) := by
    intro hSome hRun
    rw [hRun, wgOp_eq]
    cases hEnter : enter op actor (turn.reading.client name) ((n.policies.row? name).getD {}) with
    | error err =>
      refine .inl ⟨rfl, fun e hCommits => ?_⟩
      rw [Commits, hEnter] at hCommits
      cases hCommits.2
    | ok e => exact .inr ⟨e, ⟨hSome, hEnter⟩, rfl⟩
  rw [← hOp] at hGo
  cases hRow : n.policies.row? name with
  | none =>
    cases op with
    | reconcile =>
      refine .inl ⟨by simp [PeerNode.runOp, hRow], fun e hCommits => ?_⟩
      have hSome := hCommits.1 rfl
      rw [hRow] at hSome
      cases hSome
    | _ => exact hGo (by simp) (by simp [PeerNode.runOp, hRow])
  | some row => exact hGo (fun _ => by rw [hRow]; rfl) (by simp [PeerNode.runOp, hRow])

/-- What a reconciled row calls for is what its reason says. -/
theorem peer_reason (hReconciles : e.reconciles = true) (r : Reading) :
    (e.peer r).blockReason = (blockMode (e.peer r) r).targetReason := by
  unfold Entered.peer
  rw [if_pos hReconciles]
  rfl

theorem peerResult_call (hReconciles : e.reconciles = true) {r : Reading}
    {forceRuntime : Bool} {c : RuntimeCall} (h : (e.peerResult r forceRuntime).2 = some c) :
    c.isBlocked = isBlocked (e.peer r) r := by
  unfold Entered.peerResult at h
  rw [if_pos hReconciles, reconcilePeer_call] at h
  split at h
  · cases h
    unfold Entered.peer
    rw [if_pos hReconciles]
  · cases h

/-- An operation that leaves its row under a past deadline and without a reason is an unblock. -/
theorem enter_expired {r : Reading}
    (h : enter op actor r row = .ok e) (hReconciles : e.reconciles = false) :
    policyAccessExpired e.row r.now = true := by
  obtain rfl := enter_unblock_of_drop h hReconciles
  simp only [enter] at h
  split at h
  · simp at h
  · cases h
    rw [Bool.not_eq_false'] at hReconciles
    exact hReconciles

theorem policyAccessExpired_mono {now later : Time} (hLe : now ≤ later)
    (h : policyAccessExpired row now = true) : policyAccessExpired row later = true := by
  unfold policyAccessExpired at h ⊢
  cases hUntil : row.accessUntil with
  | none => simp [hUntil] at h
  | some t =>
    simp only [hUntil, decide_eq_true_eq] at h ⊢
    exact Int.le_trans h hLe

/-- A bare reconcile that makes no call leaves the reason as it is. -/
theorem reason_of_no_call {r : Reading} (h : enter op actor r row = .ok e)
    (hCall : (e.peerResult r op.forcesRuntime).2 = none) :
    e.row = row ∧ row.blockReason = (blockMode row r).targetReason ∧
      row.blockReason = (e.peer r).blockReason := by
  unfold Entered.peerResult at hCall
  split at hCall
  · next hReconciles =>
    rw [reconcilePeer_call] at hCall
    cases op with
    | reconcile =>
      cases h
      split at hCall
      · cases hCall
      · next hNot =>
        simp only [PolicyOp.forcesRuntime, Bool.true_and, Bool.or_false, Bool.or_eq_true,
          bne_iff_ne, not_or, not_not] at hNot
        refine ⟨rfl, hNot.2.trans (reconciledPeer_reason row r), ?_⟩
        exact hNot.2
    | _ => simp [PolicyOp.forcesRuntime] at hCall
  · cases hCall

theorem blocked_congr_row {n' : PeerNode} (h : n'.policies.row? name = n.policies.row? name)
    (r : NodeReading) :
    n'.reason name = n.reason name ∧ n'.targetReason r name = n.targetReason r name ∧
      n'.blocked r name = n.blocked r name := by
  unfold PeerNode.reason PeerNode.targetReason PeerNode.blocked
  rw [h]
  exact ⟨rfl, rfl, rfl⟩

theorem reason_commitOp (turn : Turn) (result : PeerResult) :
    (n.commitOp svc cfg turn name result).reason name = result.1.blockReason := by
  unfold PeerNode.reason
  rw [commitOp_policies, Table.row?_set_self]
  rfl

theorem targetReason_commitOp (turn : Turn) (result : PeerResult) (r : NodeReading) :
    (n.commitOp svc cfg turn name result).targetReason r name =
      (blockMode result.1 (r.client name)).targetReason := by
  unfold PeerNode.targetReason
  rw [commitOp_policies, Table.row?_set_self]
  rfl

theorem row_commitOp_other (turn : Turn) (result : PeerResult) (h : other ≠ name) :
    (n.commitOp svc cfg turn name result).policies.row? other = n.policies.row? other := by
  rw [commitOp_policies, Table.row?_set_of_ne _ _ h]

/-- The client of an operation that reconciles and makes its call. -/
theorem sound_own (hPeers : cfg.collectClientPeers name ≠ [])
    (hReconciles : e.reconciles = true) {forceRuntime : Bool} {c : RuntimeCall}
    (hCall : (e.peerResult (turn.reading.client name) forceRuntime).2 = some c) :
    Sound cfg turn.reading.now
        (n.commitOp svc cfg turn name (e.peerResult (turn.reading.client name) forceRuntime)) name ↔
      CallTreats cfg n turn name e c := by
  have hRow := e.peerResult_row (turn.reading.client name) forceRuntime
  have hReason := peer_reason hReconciles (turn.reading.client name)
  have hBlocked := peerResult_call hReconciles hCall
  generalize hResult : e.peerResult (turn.reading.client name) forceRuntime = result at hCall hRow ⊢
  obtain ⟨row, call⟩ := result
  obtain rfl : row = e.peer (turn.reading.client name) := hRow
  obtain rfl : call = some c := hCall
  have hSame : (n.commitOp svc cfg turn name (e.peer (turn.reading.client name), some c)).reason
      name = (n.commitOp svc cfg turn name
        (e.peer (turn.reading.client name), some c)).targetReason turn.reading name := by
    rw [reason_commitOp, targetReason_commitOp]
    exact hReason
  have hNone : (e.peer (turn.reading.client name)).blockReason.isNone = !c.isBlocked := by
    rw [hReason, targetReason_isNone, hBlocked]
  have hTracks : Sound cfg turn.reading.now
      (n.commitOp svc cfg turn name (e.peer (turn.reading.client name), some c)) name ↔
      Tracks cfg (n.commitOp svc cfg turn name (e.peer (turn.reading.client name), some c)) name :=
    ⟨fun h => h.tracks (Int.le_refl _) hSame, fun h => h.sound _⟩
  rw [hTracks]
  unfold Tracks CallTreats
  rw [reason_commitOp, forall_prop_of_true hReconciles]
  refine forall₂_congr fun peer hPeer => ?_
  rw [commitOp_live_self hPeers turn _ c hPeer, hNone]
  by_cases hAnswer : turn.call name (peerCommand c.isBlocked peer) = none
  · simp [hAnswer]
  · simp [hAnswer]

/-- A client let in under a past deadline is blocked at every later reading. -/
theorem sound_own_expired
    (hCommits : Commits n turn.reading name op actor e) (hReconciles : e.reconciles = false)
    (forceRuntime : Bool) :
    Sound cfg turn.reading.now
      (n.commitOp svc cfg turn name (e.peerResult (turn.reading.client name) forceRuntime))
      name := by
  intro later hLater hSame
  exfalso
  have hRow : (e.peerResult (turn.reading.client name) forceRuntime).1 = e.row := by
    rw [e.peerResult_row, Entered.peer, if_neg (by simp [hReconciles])]
  rw [reason_commitOp, targetReason_commitOp, hRow,
    enter_reason_of_not_reconciles hCommits.2 hReconciles] at hSame
  have hExpired := policyAccessExpired_mono hLater (enter_expired hCommits.2 hReconciles)
  have hFree : isBlocked e.row (later.client name) = false := by
    have hNone := targetReason_isNone e.row (later.client name)
    rw [← hSame] at hNone
    simpa using hNone
  have hDeadline : policyAccessExpired e.row (later.client name).now = true := hExpired
  simp [isBlocked, hDeadline] at hFree

/-- An operation without a runtime call leaves its client as it was. -/
theorem sound_own_no_call (hSound : Sound cfg t n name) (hLater : t ≤ turn.reading.now)
    (hCommits : Commits n turn.reading name op actor e)
    (hCall : (e.peerResult (turn.reading.client name) op.forcesRuntime).2 = none) :
    Sound cfg turn.reading.now
      (n.commitOp svc cfg turn name (e.peerResult (turn.reading.client name) op.forcesRuntime))
      name := by
  obtain ⟨hRow, hReason, hKept⟩ := reason_of_no_call hCommits.2 hCall
  have hTracks : Tracks cfg n name := by
    refine hSound.tracks hLater ?_
    unfold PeerNode.reason PeerNode.targetReason
    cases hStored : n.policies.row? name with
    | none => rfl
    | some row =>
      rw [hStored] at hReason
      exact hReason
  refine Tracks.sound ?_ _
  intro peer hPeer
  have hStored : (n.reason name).isNone = ((n.policies.row? name).getD {}).blockReason.isNone := by
    unfold PeerNode.reason
    cases n.policies.row? name <;> rfl
  rw [reason_commitOp, e.peerResult_row, ← hKept, ← hStored, ← hTracks peer hPeer]
  unfold PeerNode.commitOp PeerNode.runtimeCall
  rw [hCall]

/-- The other clients, whom only the re-block pass can touch. -/
theorem sound_other (hPeers : cfg.collectClientPeers name ≠ [])
    (hOther : other ≠ name) (hSound : Sound cfg t n other)
    (hLater : t ≤ turn.reading.now) (row : PolicyRow) (c : RuntimeCall) :
    Sound cfg turn.reading.now (n.commitOp svc cfg turn name (row, some c)) other ↔
      (c.reapply = true → n.reason other = none → Releasable n turn.reading other →
        ∀ peer ∈ cfg.collectClientPeers other, ¬ Reblocks svc cfg n turn name peer) := by
  have hRow : (n.commitOp svc cfg turn name (row, some c)).policies.row? other =
      n.policies.row? other := row_commitOp_other turn (row, some c) hOther
  constructor
  · rintro hAfter hReapply hReason ⟨later, hLe, hFree⟩ peer hPeer hReblocks
    obtain ⟨hSameReason, hSameTarget, -⟩ := blocked_congr_row hRow later
    have hTarget : n.targetReason later other = none := by
      have hNone := targetReason_isNone_node n later other
      rw [hFree] at hNone
      simpa using hNone
    have hTracks := hAfter.tracks hLe (by rw [hSameReason, hSameTarget, hReason, hTarget])
    have hLive := hTracks peer hPeer
    rw [commitOp_live_other hPeers turn row c hOther hPeer, if_pos ⟨hReapply, hReblocks⟩,
      hSameReason, hReason] at hLive
    cases hLive
  · intro hSpares later hLe hSame
    obtain ⟨hSameReason, hSameTarget, -⟩ := blocked_congr_row hRow later
    refine (right_iff_tracks hSame).mpr ?_
    rw [hSameReason, hSameTarget] at hSame
    have hTracks := hSound.tracks (Int.le_trans hLater hLe) hSame
    intro peer hPeer
    rw [commitOp_live_other hPeers turn row c hOther hPeer, hSameReason]
    split
    · next hTaken =>
      cases hReason : n.reason other with
      | some reason => rfl
      | none =>
        have hFree : n.blocked later other = false := by
          have hNone := targetReason_isNone_node n later other
          rw [← hSame, hReason] at hNone
          simpa using hNone
        exact absurd hTaken.2 (hSpares hTaken.1 hReason ⟨later, hLe, hFree⟩ peer hPeer)
    · exact hTracks peer hPeer

/-- **One operation.** -/
theorem sound_runOp (hPeers : cfg.collectClientPeers name ≠ [])
    (hSound : ∀ other, Sound cfg t n other) (hLater : t ≤ turn.reading.now) (op : PolicyOp)
    (actor : Option String) :
    (∀ other, Sound cfg turn.reading.now (n.runOp svc cfg turn name op actor) other) ↔
      OpTreats svc cfg n turn name op actor := by
  -- an operation that raises is no operation
  rcases runOp_cases svc cfg n turn name op actor with ⟨hSame, hNone⟩ | ⟨e, hCommits, hRun⟩
  · rw [hSame]
    exact ⟨fun _ e c hCommits => absurd hCommits (hNone e),
      fun _ other => (hSound other).mono hLater⟩
  have hOnly : ∀ e', Commits n turn.reading name op actor e' → e' = e := fun e' h =>
    Except.ok.inj (h.2.symm.trans hCommits.2)
  rw [hRun]
  -- without a runtime call only the row has changed
  cases hCall : (e.peerResult (turn.reading.client name) op.forcesRuntime).2 with
  | none =>
    refine ⟨fun _ e' c hCommits' hCall' => ?_, fun _ other => ?_⟩
    · rw [hOnly e' hCommits', hCall] at hCall'
      cases hCall'
    by_cases hOther : other = name
    · subst hOther
      exact sound_own_no_call (hSound other) hLater hCommits hCall
    · refine (sound_congr (row_commitOp_other turn _ hOther) ?_).mpr
        ((hSound other).mono hLater)
      intro peer _
      unfold PeerNode.commitOp PeerNode.runtimeCall
      rw [hCall]
  | some c =>
    have hResult : e.peerResult (turn.reading.client name) op.forcesRuntime =
        ((e.peerResult (turn.reading.client name) op.forcesRuntime).1, some c) := by
      rw [← hCall]
    have hOwn : Sound cfg turn.reading.now (n.commitOp svc cfg turn name
        (e.peerResult (turn.reading.client name) op.forcesRuntime)) name ↔
        CallTreats cfg n turn name e c := by
      cases hReconciles : e.reconciles with
      | true => exact sound_own hPeers hReconciles hCall
      | false =>
        refine iff_of_true (sound_own_expired hCommits hReconciles _) ?_
        intro hTrue
        rw [hReconciles] at hTrue
        cases hTrue
    -- the re-block pass after an unblock may meet other clients
    have hOthers : ∀ other, other ≠ name → (Sound cfg turn.reading.now (n.commitOp svc cfg turn
        name (e.peerResult (turn.reading.client name) op.forcesRuntime)) other ↔
        (c.reapply = true → n.reason other = none → Releasable n turn.reading other →
          ∀ peer ∈ cfg.collectClientPeers other, ¬ Reblocks svc cfg n turn name peer)) := by
      intro other hOther
      rw [hResult]
      exact sound_other hPeers hOther (hSound other) hLater _ c
    constructor
    · intro hAfter e' c' hCommits' hCall'
      obtain rfl := hOnly e' hCommits'
      obtain rfl := Option.mem_unique hCall hCall'
      refine ⟨hOwn.mp (hAfter name), fun hReapply other hReason hFree peer hPeer hTaken => ?_⟩
      obtain ⟨owner, hOwner, -, hMem⟩ := hTaken.client
      obtain rfl := collectClientPeers_disjoint hMem hPeer
      exact (hOthers owner hOwner).mp (hAfter owner) hReapply hReason hFree peer hPeer hTaken
    · intro hTreats other
      obtain ⟨hCallTreats, hSpares⟩ := hTreats e c hCommits hCall
      by_cases hOther : other = name
      · subst hOther
        exact hOwn.mpr hCallTreats
      · exact (hOthers other hOther).mpr fun hReapply => hSpares hReapply other

end

/-! ## One sync -/

variable {name : String}

section

variable {cfg : PeerConfig} {n : PeerNode}

theorem applyRuntimeTargets_cons (turn : Turn) (target : String × Bool)
    (rest : List (String × Bool)) (live : Live) :
    (PeerNode.applyRuntimeTargets cfg turn (target :: rest) live).1 =
      (PeerNode.applyRuntimeTargets cfg turn rest
        (applyClientRuntime .wireguard cfg (turn.call target.1) target.1 target.2 live).1).1 :=
  rfl

theorem applyRuntimeTargets_other (turn : Turn) {targets : List (String × Bool)}
    (hPeers : ∀ target ∈ targets, cfg.collectClientPeers target.1 ≠ []) (live : Live)
    (hPeer : ∀ target ∈ targets, peer ∉ cfg.collectClientPeers target.1) :
    (PeerNode.applyRuntimeTargets cfg turn targets live).1 peer = live peer := by
  induction targets generalizing live with
  | nil => rfl
  | cons target rest ih =>
    rw [forall_mem_cons] at hPeers hPeer
    rw [applyRuntimeTargets_cons, ih hPeers.2 _ hPeer.2, applyClientRuntime_live hPeers.1]
    simp only [hPeer.1, false_and, if_false]

/-- No later call of the loop touches the peers of a client, as the targets are distinct. -/
theorem applyRuntimeTargets_live (turn : Turn) {targets : List (String × Bool)}
    (hPeers : ∀ target ∈ targets, cfg.collectClientPeers target.1 ≠ [])
    (hNodup : (targets.map Prod.fst).Nodup) (live : Live) {isBlocked : Bool}
    (hTarget : (name, isBlocked) ∈ targets) (hPeer : peer ∈ cfg.collectClientPeers name) :
    (PeerNode.applyRuntimeTargets cfg turn targets live).1 peer =
      if turn.call name (peerCommand isBlocked peer) = none then !isBlocked else live peer := by
  induction targets generalizing live with
  | nil => simp at hTarget
  | cons target rest ih =>
    rw [forall_mem_cons] at hPeers
    rw [map_cons, nodup_cons] at hNodup
    rw [applyRuntimeTargets_cons]
    rcases mem_cons.mp hTarget with rfl | hTarget
    · rw [applyRuntimeTargets_other turn hPeers.2, applyClientRuntime_live hPeers.1]
      · simp only [hPeer, true_and]
      · intro other hOther hMem
        refine hNodup.1 ?_
        rw [collectClientPeers_disjoint hPeer hMem]
        exact mem_map.mpr ⟨other, hOther, rfl⟩
    · rw [ih hPeers.2 hNodup.2 _ hTarget, applyClientRuntime_live hPeers.1]
      have hNot : peer ∉ cfg.collectClientPeers target.1 := by
        intro hMem
        refine hNodup.1 ?_
        rw [collectClientPeers_disjoint hMem hPeer]
        exact mem_map_of_mem hTarget
      simp only [hNot, false_and, if_false]

/-- The sync frees a client, so that its re-block pass starts. -/
def StartsPass (cfg : PeerConfig) (n : PeerNode) (r : NodeReading) : Prop :=
  ((n.rows cfg).changedRuntimeClients r).any (fun target => !target.2) = true

instance (r : NodeReading) : Decidable (StartsPass cfg n r) :=
  inferInstanceAs (Decidable (_ = true))

/-- The peers that the re-block pass of a sync takes out. -/
def SyncReblocks (cfg : PeerConfig) (n : PeerNode) (turn : Turn) (peer : Peer) : Prop :=
  StartsPass cfg n turn.reading ∧
    passRemoves .wireguard cfg turn.batchRoute turn.reapply
      ((n.rows cfg).blockedClients turn.reading none) peer = true

instance (turn : Turn) (peer : Peer) : Decidable (SyncReblocks cfg n turn peer) :=
  inferInstanceAs (Decidable (_ ∧ _))

theorem SyncReblocks.client (h : SyncReblocks cfg n turn peer) :
    ∃ name, isNodeDefaultPolicyClient name = false ∧ n.blocked turn.reading name = true ∧
      peer ∈ cfg.collectClientPeers name := by
  obtain ⟨name, hName, hPeer⟩ := client_of_passRemoves h.2
  rw [WgNode.mem_blockedClients, rows_blocked] at hName
  exact ⟨name, hName.1, hName.2.2, hPeer⟩

theorem reconcileAll_policies_node (turn : Turn) :
    (n.reconcileAllWgPolicies cfg turn).1.policies = (n.rows cfg).syncedPolicies turn.reading := by
  simp only [PeerNode.reconcileAllWgPolicies]
  split <;> rfl

/-- A sync does not change who is blocked. -/
theorem blockedClients_synced (r : NodeReading) (live : Live) :
    ((⟨(n.rows cfg).syncedPolicies r, live⟩ : PeerNode).rows cfg).blockedClients r none =
      (n.rows cfg).blockedClients r none := by
  unfold WgNode.blockedClients
  refine filter_congr fun name _ => ?_
  have hSame := WgNode.blocked_syncedPolicies (n.rows cfg) r name
  rw [← hSame]
  rfl

theorem reconcileAll_live (turn : Turn) (peer : Peer) :
    (n.reconcileAllWgPolicies cfg turn).1.live peer =
      if SyncReblocks cfg n turn peer then false
      else (PeerNode.applyRuntimeTargets cfg turn
        ((n.rows cfg).changedRuntimeClients turn.reading) n.live).1 peer := by
  simp only [PeerNode.reconcileAllWgPolicies]
  split
  · next hStarts =>
    have hStarts : StartsPass cfg n turn.reading := hStarts
    dsimp only
    rw [reapply_live, blockedClients_synced]
    simp only [SyncReblocks, hStarts, true_and]
  · next hStarts =>
    have hStarts : ¬ StartsPass cfg n turn.reading := hStarts
    simp only [SyncReblocks, hStarts, false_and, if_false]

/-- Every command of the loop succeeds, finds its peer as it should be, or is made up for by the
re-block pass. -/
def SyncTreats (cfg : PeerConfig) (n : PeerNode) (turn : Turn) : Prop :=
  ∀ name isBlocked, (name, isBlocked) ∈ (n.rows cfg).changedRuntimeClients turn.reading →
    ∀ peer ∈ cfg.collectClientPeers name,
      turn.call name (peerCommand isBlocked peer) = none ∨ n.live peer = !isBlocked ∨
        (isBlocked = true ∧ SyncReblocks cfg n turn peer)

theorem mem_changed {isBlocked : Bool} : (name, isBlocked) ∈ (n.rows cfg).changedRuntimeClients r ↔
      isNodeDefaultPolicyClient name = false ∧ (n.policies.row? name).isSome = true ∧
        isBlocked = n.blocked r name ∧ n.reason name ≠ n.targetReason r name := by
  rw [WgNode.mem_changedRuntimeClients, rows_blocked]
  unfold PeerNode.reason PeerNode.targetReason
  show _ ∧ _ ∧ (∃ row, n.policies.row? name = some row ∧ _) ↔ _
  cases n.policies.row? name <;> simp

/-- A sync stores the reason that the state calls for. -/
theorem reason_reconcileAll (turn : Turn) (hDefault : isNodeDefaultPolicyClient name = false) :
    (n.reconcileAllWgPolicies cfg turn).1.reason name = n.targetReason turn.reading name ∧
      (n.reconcileAllWgPolicies cfg turn).1.targetReason turn.reading name =
        n.targetReason turn.reading name := by
  have hRow : ((n.rows cfg).syncedPolicies turn.reading).row? name =
      (n.policies.row? name).map fun row =>
        reconciledPeer row (turn.reading.client name) false := by
    show ((n.policies.mapRows _).row? name) = _
    rw [Table.row?_mapRows]
    refine congrArg (fun f => (n.policies.row? name).map f) ?_
    funext row
    simp only [hDefault, Bool.false_eq_true, if_false]
    exact reconcileAllRow_row row _
  unfold PeerNode.reason PeerNode.targetReason
  rw [reconcileAll_policies_node, hRow]
  cases n.policies.row? name with
  | none => exact ⟨rfl, rfl⟩
  | some row =>
    have hReason := reconciledPeer_reason row (turn.reading.client name)
    exact ⟨hReason, hReason⟩

/-- **One sync.** -/
theorem sound_reconcileAll (hKnown : Known cfg n)
    (hSound : ∀ name, Sound cfg t n name) (hLater : t ≤ turn.reading.now) :
    (∀ name, Sound cfg turn.reading.now (n.reconcileAllWgPolicies cfg turn).1 name) ↔
      SyncTreats cfg n turn := by
  -- a client with a row has peers
  have hPeers : ∀ target ∈ (n.rows cfg).changedRuntimeClients turn.reading,
      cfg.collectClientPeers target.1 ≠ [] := by
    rintro ⟨name, isBlocked⟩ hTarget
    exact hKnown name (mem_changed.mp hTarget).2.1
  have hNodup := (n.rows cfg).changedRuntimeClients_nodup turn.reading
  -- a changed client has the reason its state calls for
  have hChanged : ∀ name isBlocked,
      (name, isBlocked) ∈ (n.rows cfg).changedRuntimeClients turn.reading →
      (Sound cfg turn.reading.now (n.reconcileAllWgPolicies cfg turn).1 name ↔
        ∀ peer ∈ cfg.collectClientPeers name,
          turn.call name (peerCommand isBlocked peer) = none ∨ n.live peer = !isBlocked ∨
            (isBlocked = true ∧ SyncReblocks cfg n turn peer)) := by
    intro name isBlocked hTarget
    obtain ⟨hDefault, -, hBlocked, -⟩ := mem_changed.mp hTarget
    obtain ⟨hReason, hSame⟩ : (n.reconcileAllWgPolicies cfg turn).1.reason name = _ ∧ _ :=
      reason_reconcileAll turn hDefault
    have hTracks : Sound cfg turn.reading.now (n.reconcileAllWgPolicies cfg turn).1 name ↔
        Tracks cfg (n.reconcileAllWgPolicies cfg turn).1 name :=
      ⟨fun h => h.tracks (Int.le_refl _) (hReason.trans hSame.symm), fun h => h.sound _⟩
    rw [hTracks]
    refine forall₂_congr fun peer hPeer => ?_
    rw [hReason, targetReason_isNone_node, ← hBlocked, reconcileAll_live,
      applyRuntimeTargets_live turn hPeers hNodup n.live hTarget hPeer]
    have hOwner : SyncReblocks cfg n turn peer → isBlocked = true := by
      intro hTaken
      obtain ⟨owner, -, hOwner, hMem⟩ := hTaken.client
      rw [hBlocked, ← collectClientPeers_disjoint hMem hPeer, hOwner]
    by_cases hTaken : SyncReblocks cfg n turn peer
    · simp [hTaken, hOwner hTaken]
    · by_cases hAnswer : turn.call name (peerCommand isBlocked peer) = none
      · simp [hTaken, hAnswer]
      · simp [hTaken, hAnswer]
  -- a client whose reason stays is touched by the re-block pass at most
  have hKept : ∀ name, (∀ isBlocked,
      (name, isBlocked) ∉ (n.rows cfg).changedRuntimeClients turn.reading) →
      Sound cfg turn.reading.now (n.reconcileAllWgPolicies cfg turn).1 name := by
    intro name hNot
    have hLive : ∀ peer ∈ cfg.collectClientPeers name,
        (n.reconcileAllWgPolicies cfg turn).1.live peer =
          if SyncReblocks cfg n turn peer then false else n.live peer := by
      intro peer hPeer
      rw [reconcileAll_live, applyRuntimeTargets_other turn hPeers]
      rintro ⟨other, isBlocked⟩ hTarget hMem
      obtain rfl : name = other := collectClientPeers_disjoint hPeer hMem
      exact hNot isBlocked hTarget
    have hTaken : ∀ peer ∈ cfg.collectClientPeers name, SyncReblocks cfg n turn peer →
        isNodeDefaultPolicyClient name = false ∧ n.blocked turn.reading name = true := by
      intro peer hPeer hTaken
      obtain ⟨owner, hDefault, hBlocked, hMem⟩ := hTaken.client
      obtain rfl := collectClientPeers_disjoint hMem hPeer
      exact ⟨hDefault, hBlocked⟩
    cases hDefault : isNodeDefaultPolicyClient name with
    | true =>
      refine (sound_congr ?_ ?_).mpr ((hSound name).mono hLater)
      · rw [reconcileAll_policies_node]
        show (n.policies.mapRows _).row? name = _
        rw [Table.row?_mapRows]
        cases n.policies.row? name <;> simp [hDefault]
      · intro peer hPeer
        rw [hLive peer hPeer, if_neg]
        intro hSome
        have hOther := (hTaken peer hPeer hSome).1
        rw [hDefault] at hOther
        cases hOther
    | false =>
      have hStored : n.reason name = n.targetReason turn.reading name := by
        by_contra hMoved
        cases hRow : n.policies.row? name with
        | none => simp [PeerNode.reason, PeerNode.targetReason, hRow] at hMoved
        | some row =>
          exact hNot _ (mem_changed.mpr ⟨hDefault, by rw [hRow]; rfl, rfl, hMoved⟩)
      have hTracks := (hSound name).tracks hLater hStored
      refine Tracks.sound ?_ _
      intro peer hPeer
      rw [hLive peer hPeer, (reason_reconcileAll turn hDefault).1, ← hStored]
      split
      · next hSome =>
        rw [hStored, targetReason_isNone_node, (hTaken peer hPeer hSome).2]
        rfl
      · exact hTracks peer hPeer
  constructor
  · intro hAfter name isBlocked hTarget
    exact (hChanged name isBlocked hTarget).mp (hAfter name)
  · intro hTreats name
    by_cases hTarget : ∃ isBlocked,
        (name, isBlocked) ∈ (n.rows cfg).changedRuntimeClients turn.reading
    · obtain ⟨isBlocked, hTarget⟩ := hTarget
      exact (hChanged name isBlocked hTarget).mpr (hTreats name isBlocked hTarget)
    · exact hKept name fun isBlocked hMem => hTarget ⟨isBlocked, hMem⟩

end

/-! ## Recovery -/

section

variable {svc : PeerService} {cfg : PeerConfig} {n : PeerNode} {name : String}

/-- A bare reconcile of a client with a row enters that row. -/
theorem commits_reconcile (h : Commits n r name .reconcile actor e) : e.reconciles = true := by
  obtain ⟨-, hEnter⟩ := h
  cases hEnter
  rfl

/-- A reconcile whose commands succeed puts its client right. -/
theorem right_runOp_reconcile (hSound : Sound cfg t n name)
    (hLater : t ≤ turn.reading.now) (hDone : ∀ command, turn.call name command = none) :
    Right cfg (n.runOp svc cfg turn name .reconcile none) turn.reading name := by
  by_cases hPeers : cfg.collectClientPeers name = []
  · intro peer hPeer
    rw [hPeers] at hPeer
    cases hPeer
  rcases runOp_cases svc cfg n turn name .reconcile none with
    ⟨hSame, hNone⟩ | ⟨e, hCommits, hRun⟩
  · rw [hSame]
    refine hSound turn.reading hLater ?_
    unfold PeerNode.reason PeerNode.targetReason
    cases hRow : n.policies.row? name with
    | none => rfl
    | some row =>
      refine absurd ⟨fun _ => ?_, rfl⟩ (hNone ⟨(n.policies.row? name).getD {}, true, false⟩)
      rw [hRow]
      rfl
  · have hReconciles := commits_reconcile hCommits
    have hAfter : Sound cfg turn.reading.now (n.commitOp svc cfg turn name
        (e.peerResult (turn.reading.client name) PolicyOp.reconcile.forcesRuntime)) name := by
      cases hCall : (e.peerResult (turn.reading.client name)
          PolicyOp.reconcile.forcesRuntime).2 with
      | none => exact sound_own_no_call hSound hLater hCommits hCall
      | some c => exact (sound_own hPeers hReconciles hCall).mpr fun _ _ _ => .inl (hDone _)
    rw [hRun]
    refine hAfter turn.reading (Int.le_refl _) ?_
    rw [reason_commitOp, targetReason_commitOp, e.peerResult_row]
    exact peer_reason hReconciles (turn.reading.client name)

/-- A client whose reason stays is left as it is by a reconcile. -/
theorem right_of_runOp_reconcile {batchRoute : Bool} (hSame : n.reason name = n.targetReason r name)
    (hAfter : Right cfg (n.runOp svc cfg (.allDone r batchRoute) name .reconcile none) r name) :
    Right cfg n r name := by
  rcases runOp_cases svc cfg n (.allDone r batchRoute) name .reconcile none with
    ⟨hRun, -⟩ | ⟨e, ⟨hSome, hEnter⟩, hRun⟩
  · rwa [hRun] at hAfter
  obtain ⟨row, hRow⟩ := Option.isSome_iff_exists.mp (hSome rfl)
  cases hEnter
  rw [hRun] at hAfter
  have hReason : row.blockReason = (reconciledPeer row (r.client name) false).blockReason := by
    rw [reconciledPeer_reason]
    simpa [PeerNode.reason, PeerNode.targetReason, hRow] using hSame
  have hResult : (Entered.peerResult ⟨(n.policies.row? name).getD {}, true, false⟩
      (r.client name) PolicyOp.reconcile.forcesRuntime) =
      (reconciledPeer row (r.client name) false, none) := by
    refine Prod.ext ?_ ?_
    · rw [Entered.peerResult_row, hRow]
      rfl
    · show (reconcilePeer ((n.policies.row? name).getD {}) (r.client name) true false false).2 = _
      rw [hRow, Option.getD_some, reconcilePeer_call, isBlocked_reconciledPeer, ← hReason]
      simp
  intro peer hPeer
  have hLive := hAfter peer hPeer
  have hResult' : (Entered.peerResult ⟨(n.policies.row? name).getD {}, true, false⟩
      ((Turn.allDone r batchRoute).reading.client name) PolicyOp.reconcile.forcesRuntime) =
      (reconciledPeer row (r.client name) false, none) := hResult
  rw [hResult'] at hLive
  have hBlocked : (n.commitOp svc cfg (.allDone r batchRoute) name
      (reconciledPeer row (r.client name) false, none)).blocked r name = n.blocked r name := by
    unfold PeerNode.blocked
    rw [commitOp_policies, Table.row?_set_self, hRow]
    exact isBlocked_reconciledPeer row (r.client name)
  rw [hBlocked] at hLive
  exact hLive

end

section

variable {cfg : PeerService → PeerConfig} {s s' : RuntimeState}

/-- **Who recovers.** Those are right whose reason a reconcile would leave alone. -/
theorem recovers_iff (hKnown : ∀ svc, Known (cfg svc) (s.node svc)) :
    Recovers cfg s ↔ ∀ svc name, Sound (cfg svc) s.now (s.node svc) name := by
  constructor
  · intro h svc name r hLater hSame
    exact right_of_runOp_reconcile hSame (h.2 svc r true name hLater)
  intro hSound
  constructor
  · intro r batchRoute name hLater hDefault
    have hAfter := (sound_reconcileAll (hKnown .wireguard) (hSound .wireguard) hLater).mpr
      (fun _ _ _ _ _ => .inl rfl : SyncTreats (cfg .wireguard) (s.node .wireguard)
        (.allDone r batchRoute))
    refine hAfter name r (Int.le_refl _) ?_
    obtain ⟨hReason, hTarget⟩ :
      ((s.node .wireguard).reconcileAllWgPolicies (cfg .wireguard)
        (.allDone r batchRoute)).1.reason name = _ ∧ _ := reason_reconcileAll _ hDefault
    exact hReason.trans hTarget.symm
  · intro svc r batchRoute name hLater
    exact right_runOp_reconcile (hSound svc name) hLater fun _ => rfl

/-- The commands of an action that fail do no harm, nor does its re-block pass. -/
def CommandsTreat (cfg : PeerService → PeerConfig) (s : RuntimeState) : RuntimeAction → Prop
  | .op svc name op actor turn => OpTreats svc (cfg svc) (s.node svc) turn name op actor
  | .reconcileAll turn => SyncTreats (cfg .wireguard) (s.node .wireguard) turn

/-- The client of an operation has peers. -/
def RuntimeAction.HasPeers (cfg : PeerService → PeerConfig) : RuntimeAction → Prop
  | .op svc name _ _ _ => (cfg svc).collectClientPeers name ≠ []
  | .reconcileAll _ => True

/-- A new row is one of a client with peers. -/
theorem known_step {a : RuntimeAction} (hKnown : ∀ svc, Known (cfg svc) (s.node svc))
    (hPeers : a.HasPeers cfg) (hStep : runtimeStep cfg s a = some s') :
    ∀ svc, Known (cfg svc) (s'.node svc) := by
  unfold runtimeStep at hStep
  split at hStep
  · cases hStep
  cases hStep
  have hUpdate : ∀ svc n, Known (cfg svc) n →
      ∀ other, Known (cfg other) (update s.node svc n other) := by
    intro svc n hNode other
    by_cases hOther : other = svc
    · subst hOther
      rw [update_self]
      exact hNode
    · rw [update_of_ne hOther]
      exact hKnown other
  cases a with
  | op svc name op actor turn =>
    refine hUpdate svc _ ?_
    rcases runOp_cases svc (cfg svc) (s.node svc) turn name op actor with
      ⟨hSame, -⟩ | ⟨e, -, hRun⟩
    · rw [hSame]
      exact hKnown svc
    · rw [hRun]
      intro other hRow
      by_cases hOther : other = name
      · rw [hOther]
        exact hPeers
      · rw [row_commitOp_other turn _ hOther] at hRow
        exact hKnown svc other hRow
  | reconcileAll turn =>
    refine hUpdate .wireguard _ ?_
    intro name hRow
    rw [reconcileAll_policies_node] at hRow
    refine hKnown .wireguard name ?_
    rw [← hRow]
    exact (Option.isSome_map ..).symm

/-- Every client with a row has peers, and is right if a reconcile would leave its reason alone. -/
def Settled (cfg : PeerService → PeerConfig) (s : RuntimeState) : Prop :=
  (∀ svc, Known (cfg svc) (s.node svc)) ∧ ∀ svc name, Sound (cfg svc) s.now (s.node svc) name

/-- **One step.** -/
theorem commandsTreat_iff {a : RuntimeAction} (hKnown : ∀ svc, Known (cfg svc) (s.node svc))
    (hSound : ∀ svc name, Sound (cfg svc) s.now (s.node svc) name)
    (hPeers : a.HasPeers cfg) (hStep : runtimeStep cfg s a = some s') :
    (∀ svc name, Sound (cfg svc) s'.now (s'.node svc) name) ↔ CommandsTreat cfg s a := by
  unfold runtimeStep at hStep
  split at hStep
  · cases hStep
  next hClock =>
  rw [Int.not_lt] at hClock
  cases hStep
  have hUpdate : ∀ svc n,
      (∀ other name, Sound (cfg other) a.turn.reading.now
        (update s.node svc n other) name) ↔
      ∀ name, Sound (cfg svc) a.turn.reading.now n name := by
    intro svc n
    constructor
    · intro h name
      have hName := h svc name
      rwa [update_self] at hName
    · intro h other name
      by_cases hOther : other = svc
      · subst hOther
        rw [update_self]
        exact h name
      · rw [update_of_ne hOther]
        exact (hSound other name).mono hClock
  cases a with
  | op svc name op actor turn =>
    exact (hUpdate svc _).trans (sound_runOp hPeers (hSound svc) hClock op actor)
  | reconcileAll turn =>
    exact (hUpdate .wireguard _).trans
      (sound_reconcileAll (hKnown .wireguard) (hSound .wireguard) hClock)

end

/-- **Failures that are made up for.** From a state that recovers, every state of a run does
exactly when every command that fails finds its peer as it should be (or the re-block pass of
its sync makes up for it) and no re-block pass takes a peer from a client without a reason who
may be unblocked later. `success` means that all peers of the client were treated exactly for
the calls whose commands do not fail in part. -/
theorem runtime_failures_recovered (cfg : PeerService → PeerConfig) (s : RuntimeState)
    (hKnown : ∀ svc, Known (cfg svc) (s.node svc)) (hRecovers : Recovers cfg s)
    (as : List RuntimeAction) (hPeers : ∀ a ∈ as, a.HasPeers cfg) :
    (Along (runtimeStep cfg) (fun s a => ∀ s', runtimeStep cfg s a = some s' → Recovers cfg s')
        s as ↔
      Along (runtimeStep cfg)
        (fun s a => ∀ s', runtimeStep cfg s a = some s' → CommandsTreat cfg s a) s as) ∧
    ∀ svc answers name isBlocked live,
      ((applyClientRuntime svc (cfg svc) answers name isBlocked live).2.success = true →
        AllTreated (cfg svc) answers name isBlocked) ↔
      ¬ FailsInPart (cfg svc) answers name isBlocked := by
  refine ⟨?_, fun svc answers name isBlocked live =>
    applyClientRuntime_success_iff name isBlocked live⟩
  have hInv : Settled cfg s := ⟨hKnown, (recovers_iff hKnown).mp hRecovers⟩
  refine Lib.along_congr_on ?_ ?_ hInv
  · rintro a ha s ⟨hKnown, hSound⟩
    refine forall₂_congr fun s' hStep => ?_
    rw [recovers_iff (known_step hKnown (hPeers a ha) hStep)]
    exact commandsTreat_iff hKnown hSound (hPeers a ha) hStep
  · rintro a ha s s' ⟨hKnown, hSound⟩ hNext hStep
    have hKnown' := known_step hKnown (hPeers a ha) hStep
    exact ⟨hKnown', (recovers_iff hKnown').mp (hNext s' hStep)⟩

/-- Both services have one client, with a peer on each interface. -/
def twoPeers : PeerService → PeerConfig := fun _ =>
  ⟨["antizapret", "vpn"], [("alice", ⟨"antizapret", "pubA"⟩), ("alice", ⟨"vpn", "pubB"⟩)],
    by decide⟩

/-- No policy yet, every peer live. -/
def openNodes : RuntimeState := ⟨0, fun _ => ⟨Table.empty, fun _ => true⟩⟩

def noTraffic : NodeReading := ⟨0, fun _ _ => 0⟩

theorem openNodes_known (svc : PeerService) : Known (twoPeers svc) (openNodes.node svc) := by
  intro name hRow
  cases hRow

theorem openNodes_recovers : Recovers twoPeers openNodes :=
  (recovers_iff openNodes_known).mpr fun _ _ _ _ _ _ _ => rfl

theorem done_block_recovers :
    Along (runtimeStep twoPeers)
      (fun s a => ∀ s', runtimeStep twoPeers s a = some s' → Recovers twoPeers s') openNodes
      [.op .wireguard "alice" .permanentBlock (some "admin") (.allDone noTraffic true)] := by
  refine (runtime_failures_recovered twoPeers openNodes openNodes_known openNodes_recovers _
    ?_).1.mpr ⟨fun s' _ e c hCommits hCall => ⟨fun _ _ _ => .inl rfl, ?_⟩, fun _ _ => trivial⟩
  · intro a ha
    obtain rfl := mem_singleton.mp ha
    show (twoPeers .wireguard).collectClientPeers "alice" ≠ []
    decide
  · obtain rfl := Except.ok.inj hCommits.2
    cases hCall
    intro hReapply
    cases hReapply

/-- `wg set` fails on these interfaces. -/
def failingOn (interfaces : List String) : Answers
  | .remove peer => if peer.interfaceName ∈ interfaces then some "Unable to modify" else none
  | _ => none

/-- A block of `alice` that fails on one of her interfaces. -/
def halfBlock : Live × RuntimeResult :=
  applyClientRuntime .wireguard (twoPeers .wireguard) (failingOn ["vpn"]) "alice" true fun _ => true

/-- A ban whose commands fail is stored, and the next sync, with every command at work, leaves
both peers of the banned client live. A ban that fails on one interface reports success. -/
theorem failed_ban_taken_as_done :
    ((∀ svc, Known (twoPeers svc) (openNodes.node svc)) ∧ Recovers twoPeers openNodes) ∧
    (exec (runtimeStep twoPeers) openNodes
      [.op .wireguard "alice" .permanentBlock (some "admin")
        ⟨noTraffic, fun _ => failingOn ["antizapret", "vpn"], true, .allDone⟩]).map (fun s =>
        let synced := ((s.node .wireguard).reconcileAllWgPolicies (twoPeers .wireguard)
          (.allDone noTraffic true)).1
        (synced.reason "alice", synced.blocked noTraffic "alice",
          synced.live ⟨"antizapret", "pubA"⟩, synced.live ⟨"vpn", "pubB"⟩)) =
      some (some .manualPermanent, true, true, true) ∧
    (halfBlock.2.success, halfBlock.1 ⟨"vpn", "pubB"⟩) = (true, true) := by
  refine ⟨⟨openNodes_known, openNodes_recovers⟩, ?_, ?_⟩
  · decide
  · decide

end AdminPanel.Access.Runtime
