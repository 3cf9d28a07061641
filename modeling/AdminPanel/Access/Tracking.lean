import AdminPanel.Access.WgNode
import AdminPanel.Lib.Runs

/-!
# The node runtime follows the policies

Runs of a WireGuard node without runtime failures: operations on any clients,
syncs, and between them any movement of the clock and the traffic counters. The
coupling invariant says that a client's peers are absent exactly when its row
stores a block reason.

A block that merely becomes due (a deadline passes, a limit is exceeded) shows
in the state before it shows in the stored reason. The re-block pass after an
unblock goes by the state, so it removes peers of clients whose reason is still
empty, and no later call looks at them until their reason moves.

* `commitOp_coupled_iff` — when one operation keeps the coupling;
* `tracks_iff` — the step lemma over all actions;
* `runtime_follows_iff` — along a run the runtime follows the policies exactly
  when no re-block pass meets a blocked client without a reason.
-/

namespace AdminPanel.Access

open Lib (Table Along along_congr)

/-! ## Steps -/

inductive NodeAction where
  | op (name : String) (op : PolicyOp) (actor : Option String)
  | setExpiry (name : String) (days : Int) (extend : Bool) (actor : Option String)
  | reconcileAll

/-- An action at a clock and traffic counters. -/
structure NodeStep where
  action : NodeAction
  reading : NodeReading

/-- The node after a step in which every runtime call succeeds. -/
def wgNodeAfter (n : WgNode) (s : NodeStep) : WgNode :=
  match s.action with
  | .op name op actor => n.runOp s.reading name op actor
  | .setExpiry name days extend actor => n.runSetExpiry s.reading name days extend actor
  | .reconcileAll => reconcileAllWgPolicies n s.reading .never

def wgNodeStep (n : WgNode) (s : NodeStep) : Option WgNode := some (wgNodeAfter n s)

/-! ## Coupling -/

variable {n : WgNode}

namespace WgNode

section

variable (n : WgNode) (r : NodeReading) (name : String)

/-- A client's peers are absent exactly when `_wg_state` says it is blocked. -/
def Follows : Prop :=
  ∀ name, isNodeDefaultPolicyClient name = false → n.present name = !n.blocked r name

/-- The step leaves the runtime following the policies. -/
def Tracks (s : NodeStep) : Prop :=
  (wgNodeAfter n s).Coupled ∧
    (s.action = .reconcileAll → (wgNodeAfter n s).Follows s.reading)

/-- The operation runs the re-block pass: it leaves its own client unblocked and
makes its runtime call. -/
def runsReblock (op : PolicyOp) (actor : Option String) : Bool :=
  match n.policies.row? name, op with
  | none, .reconcile => false
  | row, op =>
    match enter op actor (r.client name) (row.getD {}) with
    | .ok e => e.reconciles && reconcileFrees e.row (r.client name) e.limitChanged &&
        (op.forcesRuntime || (n.reason name).isSome)
    | .error _ => false

/-- Every other client that is blocked by its state has a stored reason. -/
def OthersHaveReasons : Prop :=
  ∀ other, other ≠ name → isNodeDefaultPolicyClient other = false →
    n.blocked r other = true → n.reason other ≠ none

/-- If the step runs the re-block pass, no blocked client is without a reason. -/
def ReblockHasReasons (s : NodeStep) : Prop :=
  match s.action with
  | .op name op actor =>
    n.runsReblock s.reading name op actor = true → n.OthersHaveReasons s.reading name
  | .setExpiry name days extend actor =>
    reconcileFrees
        (accessUntilColumns ((n.policies.row? name).getD {})
          (some (wgExpiryFrom ((n.policies.row? name).getD {}).accessUntil days extend
            s.reading.now)) actor)
        (s.reading.client name) false = true →
      n.OthersHaveReasons s.reading name
  | .reconcileAll => True

theorem reason_set (row : PolicyRow) (other : String) :
    ({ n with policies := n.policies.set name row } : WgNode).reason other =
      if other = name then row.blockReason else n.reason other := by
  unfold reason
  rw [Table.row?_set]
  split <;> rfl

theorem blocked_set_of_ne {name other : String} (row : PolicyRow) (r : NodeReading)
    (h : other ≠ name) :
    ({ n with policies := n.policies.set name row } : WgNode).blocked r other =
      n.blocked r other := by
  unfold blocked
  rw [Table.row?_set_of_ne _ _ h]

theorem runtimeCall_policies (call : Option RuntimeCall) :
    (n.runtimeCall r name call).policies = n.policies := by
  cases call with
  | none => rfl
  | some c =>
    simp only [runtimeCall]
    split
    · exact reapply_policies _ _ _ _
    · rfl

/-- Whose peers an operation's runtime call leaves live. -/
theorem runtimeCall_present (c : RuntimeCall) (other : String) :
    (n.runtimeCall r name (some c)).present other =
      if other = name then !c.isBlocked
      else if c.reapply = true ∧ isNodeDefaultPolicyClient other = false ∧
          n.blocked r other = true then false
      else n.present other := by
  have hBlocked : (n.applyWgClientRuntime name c.isBlocked).blocked r other = n.blocked r other :=
    blocked_congr rfl r other
  have hApply : (n.applyWgClientRuntime name c.isBlocked).present other =
      if other = name then !c.isBlocked else n.present other := by
    simp only [applyWgClientRuntime, Function.update_apply]
  simp only [runtimeCall]
  split
  · next hReapply =>
    simp only [reapply_present, mem_blockedClients, hBlocked, hApply]
    by_cases hName : other = name
    · simp [hName]
    · simp [hName, hReapply, BatchReply.removes]
  · next hReapply =>
    rw [hApply]
    simp [hReapply]

end

/-- **One operation and the coupling.** If the operation couples its own client,
the node stays coupled exactly when the re-block pass, if it runs, meets no
blocked client without a reason. -/
theorem commitOp_coupled_iff (h : n.Coupled) (r : NodeReading) (name : String) (result : PeerResult)
    (hOwn : match result.2 with
      | some c => result.1.blockReason.isNone = !c.isBlocked
      | none => result.1.blockReason.isNone = (n.reason name).isNone) :
    (n.commitOp r name result).Coupled ↔
      ((result.2.any (·.reapply)) = true → n.OthersHaveReasons r name) := by
  obtain ⟨row, call⟩ := result
  have hReason : ∀ other, (n.commitOp r name (row, call)).reason other =
      if other = name then row.blockReason else n.reason other := by
    intro other
    rw [← reason_set n name row other]
    simp only [reason, commitOp, runtimeCall_policies]
  cases call with
  | none =>
    have hCoupled : (n.commitOp r name (row, none)).Coupled := by
      intro other
      rw [hReason]
      have hPresent : (n.commitOp r name (row, none)).present other = n.present other := rfl
      rw [hPresent, h other]
      split
      · next hName => rw [hName]; exact hOwn.symm
      · rfl
    simp [hCoupled]
  | some c =>
    have hPresent : ∀ other, (n.commitOp r name (row, some c)).present other =
        if other = name then !c.isBlocked
        else if c.reapply = true ∧ isNodeDefaultPolicyClient other = false ∧
            n.blocked r other = true then false
        else n.present other := by
      intro other
      simp only [commitOp, runtimeCall_present]
      split
      · rfl
      · next hName => rw [blocked_set_of_ne n row r hName]
    -- only the pass over the other clients can part the row from the peer
    constructor
    · intro hCoupled hReapply other hName hDefault hBlocked hNone
      have hOther := hCoupled other
      rw [hReason, hPresent, if_neg hName, if_neg hName,
        if_pos ⟨by simpa using hReapply, hDefault, hBlocked⟩, hNone] at hOther
      exact absurd hOther (by decide)
    · intro hOthers other
      rw [hReason, hPresent]
      split
      · exact hOwn.symm
      · next hName =>
        split
        · next hPass =>
          have hSome := hOthers (by simpa using hPass.1) other hName hPass.2.1 hPass.2.2
          cases hR : n.reason other with
          | none => exact absurd hR hSome
          | some reason => rfl
        · exact h other

/-- What a reconcile returns couples its own client. -/
theorem reconcilePeer_couples (row : PolicyRow) (r : Reading) (forceRuntime changed : Bool)
    (hForce : forceRuntime = true ∨ changed = false) (stored : Option BlockReason)
    (hStored : forceRuntime = true ∨ stored = row.blockReason) :
    (match (reconcilePeer row r true forceRuntime changed).2 with
      | some c => (reconcilePeer row r true forceRuntime changed).1.blockReason.isNone =
          !c.isBlocked
      | none => (reconcilePeer row r true forceRuntime changed).1.blockReason.isNone =
          stored.isNone) ∧
      ((reconcilePeer row r true forceRuntime changed).2.any (·.reapply)) =
        (reconcileFrees row r changed && (forceRuntime || stored.isSome)) := by
  have hReason := reconciledPeer_reason_isNone row r changed
  have hFrees := isBlocked_reconciledPeer_eq row r changed
  rw [reconcilePeer_row, reconcilePeer_call, hReason, hFrees]
  cases forceRuntime with
  | true => simp
  | false =>
    obtain rfl : changed = false := by simpa using hForce
    obtain rfl : stored = row.blockReason := by simpa using hStored
    rw [hFrees, Bool.not_not] at hReason
    have hState : isBlocked row r = !reconcileFrees row r false := by
      rw [← hFrees, isBlocked_reconciledPeer]
    rw [hState, bne_self_eq_false, Bool.false_or, Bool.or_false, Bool.true_and, Bool.not_not,
      Bool.false_or]
    by_cases hSame : row.blockReason = (reconciledPeer row r false).blockReason
    · have hCall : (row.blockReason != (reconciledPeer row r false).blockReason) = false := by
        rw [hSame, bne_self_eq_false]
      rw [hCall, hSame, hReason, ← Option.not_isNone, hReason]
      simp
    · have hCall : (row.blockReason != (reconciledPeer row r false).blockReason) = true := by
        rw [bne_iff_ne]
        exact hSame
      rw [hCall]
      cases hF : reconcileFrees row r false with
      | false => simp
      | true =>
        rw [hF, Option.isNone_iff_eq_none] at hReason
        rw [hReason] at hSame
        simp [Option.isSome_iff_ne_none.mpr hSame]

section

variable {n : WgNode} {r : NodeReading} {name : String} {op : PolicyOp} {actor : Option String}

theorem runOp_of_ok (hBusy : ¬(n.policies.row? name = none ∧ op = .reconcile)) {result : PeerResult}
    (h : wgOp op actor (r.client name) ((n.policies.row? name).getD {}) = .ok result) :
    n.runOp r name op actor = n.commitOp r name result := by
  unfold runOp
  split
  · next hRow => exact absurd ⟨hRow, rfl⟩ hBusy
  · rw [h]

theorem runOp_of_error (hBusy : ¬(n.policies.row? name = none ∧ op = .reconcile)) {e : PolicyError}
    (h : wgOp op actor (r.client name) ((n.policies.row? name).getD {}) = .error e) :
    n.runOp r name op actor = n := by
  unfold runOp
  split
  · rfl
  · rw [h]

theorem runsReblock_of_ok (hBusy : ¬(n.policies.row? name = none ∧ op = .reconcile)) {e : Entered}
    (h : enter op actor (r.client name) ((n.policies.row? name).getD {}) = .ok e) :
    n.runsReblock r name op actor =
      (e.reconciles && reconcileFrees e.row (r.client name) e.limitChanged &&
        (op.forcesRuntime || (n.reason name).isSome)) := by
  unfold runsReblock
  split
  · next hRow => exact absurd ⟨hRow, rfl⟩ hBusy
  · rw [h]

theorem runsReblock_of_error {e : PolicyError}
    (h : enter op actor (r.client name) ((n.policies.row? name).getD {}) = .error e) :
    n.runsReblock r name op actor = false := by
  unfold runsReblock
  split
  · rfl
  · rw [h]

end

/-- The step lemma for an operation on a client. -/
theorem runOp_coupled_iff (h : n.Coupled) (r : NodeReading) (name : String)
    (op : PolicyOp) (actor : Option String) :
    (n.runOp r name op actor).Coupled ↔
      (n.runsReblock r name op actor = true → n.OthersHaveReasons r name) := by
  by_cases hIdle : n.policies.row? name = none ∧ op = .reconcile
  · obtain ⟨hRow, rfl⟩ := hIdle
    simp [runOp, runsReblock, hRow, h]
  · cases hEnter : enter op actor (r.client name) ((n.policies.row? name).getD {}) with
    | error e =>
      have hOp : wgOp op actor (r.client name) ((n.policies.row? name).getD {}) = .error e := by
        rw [wgOp_eq, hEnter]
        rfl
      rw [runOp_of_error hIdle hOp, runsReblock_of_error hEnter]
      simp [h]
    | ok e =>
      have hOp : wgOp op actor (r.client name) ((n.policies.row? name).getD {}) =
          .ok (e.peerResult (r.client name) op.forcesRuntime) := by
        rw [wgOp_eq, hEnter]
        rfl
      rw [runOp_of_ok hIdle hOp, runsReblock_of_ok hIdle hEnter]
      simp only [Entered.peerResult]
      cases hRec : e.reconciles with
      | false =>
        have hNone := enter_reason_of_not_reconciles hEnter hRec
        simp only [Bool.false_eq_true, if_false, Bool.false_and]
        rw [commitOp_coupled_iff h r name (e.row, some ⟨false, false⟩) (by simp [hNone])]
        simp
      | true =>
        have hBare : op.forcesRuntime = true ∨
            e.limitChanged = false ∧ n.reason name = e.row.blockReason := by
          cases op with
          | reconcile =>
            obtain ⟨row, hRow⟩ := Option.ne_none_iff_exists'.mp fun hNone => hIdle ⟨hNone, rfl⟩
            have hE : e = ⟨(n.policies.row? name).getD {}, true, false⟩ :=
              (Except.ok.inj hEnter).symm
            refine .inr ⟨by rw [hE], ?_⟩
            rw [hE, reason, hRow]
            rfl
          | _ => exact .inl rfl
        obtain ⟨hOwn, hReapply⟩ := reconcilePeer_couples e.row (r.client name) op.forcesRuntime
          e.limitChanged (hBare.imp_right And.left) (n.reason name) (hBare.imp_right And.right)
        simp only [if_true, Bool.true_and]
        rw [commitOp_coupled_iff h r name _ hOwn, hReapply]

theorem runSetExpiry_coupled_iff (h : n.Coupled) (r : NodeReading) (name : String)
    (days : Int) (extend : Bool) (actor : Option String) :
    (n.runSetExpiry r name days extend actor).Coupled ↔
      n.ReblockHasReasons ⟨.setExpiry name days extend actor, r⟩ := by
  obtain ⟨hOwn, hReapply⟩ := reconcilePeer_couples
    (accessUntilColumns ((n.policies.row? name).getD {})
      (some (wgExpiryFrom ((n.policies.row? name).getD {}).accessUntil days extend r.now)) actor)
    (r.client name) true false (.inl rfl) (n.reason name) (.inl rfl)
  rw [Bool.true_or, Bool.and_true] at hReapply
  have hOp := commitOp_coupled_iff h r name _ hOwn
  rw [hReapply] at hOp
  exact hOp

theorem reached_never (n : WgNode) (r : NodeReading) (name : String) :
    name ∈ n.reached r .never ↔
      isNodeDefaultPolicyClient name = false ∧
        ∃ row, n.policies.row? name = some row ∧
          row.blockReason ≠ (blockMode row (r.client name)).targetReason := by
  unfold reached RuntimeFaults.never
  rw [reachedTargets_never, List.mem_map]
  constructor
  · rintro ⟨⟨_, b⟩, hMem, rfl⟩
    obtain ⟨hDefault, -, hRow⟩ := mem_changedRuntimeClients.mp hMem
    exact ⟨hDefault, hRow⟩
  · rintro ⟨hDefault, hRow⟩
    exact ⟨(name, n.blocked r name), mem_changedRuntimeClients.mpr ⟨hDefault, rfl, hRow⟩, rfl⟩

/-- After a sync without failures the live peers are those of the clients that
are not blocked: a client whose reason does not move was right before. -/
theorem reconcileAll_follows (h : n.Coupled) (r : NodeReading) :
    (reconcileAllWgPolicies n r .never).Follows r := by
  intro name hDefault
  rw [reconcileAll_blocked, blocked_syncedPolicies, reconcileAll_present]
  split
  · next hPass => rw [(mem_blockedClients.mp hPass.2.1).2.2, Bool.not_true]
  split
  · rfl
  · next hReached =>
    rw [h name]
    cases hRow : n.policies.row? name with
    | none => simp [reason, blocked, hRow]
    | some row =>
      have hSame : row.blockReason = (blockMode row (r.client name)).targetReason := by
        by_contra hNe
        exact hReached ((reached_never n r name).mpr ⟨hDefault, row, hRow, hNe⟩)
      simp only [reason, blocked, hRow, Option.bind_some]
      rw [hSame, targetReason_isNone]
      rfl

/-- A sync without failing calls keeps peers and stored reasons together. -/
theorem reconcileAll_coupled (h : n.Coupled) (r : NodeReading) :
    (reconcileAllWgPolicies n r .never).Coupled := by
  intro name
  have hSkipped : (isNodeDefaultPolicyClient name = true ∨ n.policies.row? name = none) →
      (reconcileAllWgPolicies n r .never).present name = n.present name := by
    intro hSkip
    have hOut : name ∉ n.reached r .never := by
      rw [reached_never]
      rintro ⟨hDefault, row, hRow, -⟩
      rcases hSkip with hSkip | hSkip
      · rw [hSkip] at hDefault
        simp at hDefault
      · rw [hSkip] at hRow
        simp at hRow
    have hPass : name ∉ n.blockedClients r none := by
      rw [mem_blockedClients]
      rintro ⟨hDefault, -, hBlocked⟩
      rcases hSkip with hSkip | hSkip
      · rw [hSkip] at hDefault
        simp at hDefault
      · simp [blocked, hSkip] at hBlocked
    rw [reconcileAll_present, if_neg fun hAll => hPass hAll.2.1, if_neg hOut]
  by_cases hDefault : isNodeDefaultPolicyClient name = true
  · rw [hSkipped (.inl hDefault), reconcileAll_reason_of_skipped n r _ (.inl hDefault)]
    exact h name
  rw [Bool.not_eq_true] at hDefault
  cases hRow : n.policies.row? name with
  | none =>
    rw [hSkipped (.inr hRow), reconcileAll_reason_of_skipped n r _ (.inr hRow)]
    exact h name
  | some row =>
    rw [reconcileAll_follows h r name hDefault, reconcileAll_reason n r _ hDefault hRow,
      targetReason_isNone, reconcileAll_blocked, blocked_syncedPolicies]
    simp only [blocked, hRow]
    rfl

/-- **The step lemma.** From a coupled node a step leaves the runtime following
the policies exactly when its re-block pass meets no blocked client without a
reason. -/
theorem tracks_iff (h : n.Coupled) (s : NodeStep) : n.Tracks s ↔ n.ReblockHasReasons s := by
  obtain ⟨action, r⟩ := s
  cases action with
  | op name op actor =>
    have hOp := runOp_coupled_iff h r name op actor
    exact ⟨fun hTracks => hOp.mp hTracks.1, fun hHas => ⟨hOp.mpr hHas, nofun⟩⟩
  | setExpiry name days extend actor =>
    have hOp := runSetExpiry_coupled_iff h r name days extend actor
    exact ⟨fun hTracks => hOp.mp hTracks.1, fun hHas => ⟨hOp.mpr hHas, nofun⟩⟩
  | reconcileAll =>
    exact ⟨fun _ => trivial, fun _ => ⟨reconcileAll_coupled h r, fun _ => reconcileAll_follows h r⟩⟩

theorem coupled_step {n' : WgNode} {s : NodeStep} (hTracks : n.Tracks s)
    (hStep : wgNodeStep n s = some n') : n'.Coupled := by
  obtain rfl : wgNodeAfter n s = n' := Option.some.inj hStep
  exact hTracks.1

end WgNode

/-- **The node runtime follows the policies.** Along a run without runtime
failures every step leaves absent exactly the peers of the clients with a stored
reason, and every sync exactly those of the blocked clients, if and only if no
re-block pass meets a blocked client whose reason is still empty. -/
theorem runtime_follows_iff (n : WgNode) (h : n.Coupled) (steps : List NodeStep) :
    Along wgNodeStep WgNode.Tracks n steps ↔ Along wgNodeStep WgNode.ReblockHasReasons n steps :=
  along_congr (fun _ s hCoupled => WgNode.tracks_iff hCoupled s)
    (fun _ _ _ _ hTracks hStep => WgNode.coupled_step hTracks hStep) h steps

/-- A node without policies, all peers live. -/
def freshNode : WgNode := ⟨Table.empty, fun _ => true⟩

theorem freshNode_coupled : freshNode.Coupled := fun _ => rfl

theorem runtime_follows_block_then_sync :
    Along wgNodeStep WgNode.Tracks freshNode
      [⟨.op "alice" (.tempBlock 7) (some "admin"), ⟨0, fun _ _ => 0⟩⟩,
        ⟨.reconcileAll, ⟨1, fun _ _ => 0⟩⟩] := by
  refine (runtime_follows_iff freshNode freshNode_coupled _).mpr ⟨?_, ?_⟩
  · intro hRuns
    exact absurd hRuns (by decide)
  · intro n' _
    exact ⟨trivial, fun _ _ => trivial⟩

/-- A client over its limit that no reconcile has seen yet loses its peers when
another client is unblocked; its stored reason stays empty. -/
def limitThenUnblock : List NodeStep :=
  [⟨.op "bob" (.setTrafficLimit 10 none) (some "admin"), ⟨0, fun _ _ => 0⟩⟩,
    ⟨.op "alice" .unblock (some "admin"),
      ⟨1, fun name _ => if name = "bob" then 20 else 0⟩⟩]

theorem reblock_breaks_coupling : ¬ Along wgNodeStep WgNode.Tracks freshNode limitThenUnblock := by
  intro h
  have hCoupled := (h.2 _ rfl).1.1 "bob"
  exact absurd hCoupled (by decide)

end AdminPanel.Access
