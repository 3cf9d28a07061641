import AdminPanel.NodeSync.PolicyReplication

/-!
# A replicated policy is enforced

`replicate_policy_op` and `heal_policy_drift` over whole nodes. A heal copies the
rows together with their `block_reason` and reconciles without forcing: the stored
reason is the primary's already, nothing seems to change, and no runtime call is
made. The AmneziaWG 3 rows are not copied at all.

* `ClientReplicates` — the condition under which an operation arrives;
* `healedLive` — whose peers a heal leaves live (`healed_live_iff`);
* `policy_replicated_enforced` — replication and heal, for every client.
-/

namespace AdminPanel.NodeSync

open Lib (Table)
open List Access
open Panel (VpnType)

/-! ## One client -/

/-- The WireGuard or AmneziaWG2 part of a node. -/
def HaNode.peers (n : HaNode) : VpnType → WgNode
  | .amneziawg2 => n.amneziawg2
  | _ => n.wireguard

def HaNode.withPeers (n : HaNode) (vpnType : VpnType) (peers : WgNode) : HaNode :=
  match vpnType with
  | .amneziawg2 => { n with amneziawg2 := peers }
  | _ => { n with wireguard := peers }

/-- The protocols of the two services that block peers by a traffic limit. -/
def IsPeerType (vpnType : VpnType) : Prop := vpnType = .wireguard ∨ vpnType = .amneziawg2

/-- Every policy row of the primary is there on the replica, in all its fields. -/
def RowsAgree (primary replica : HaNode) : Prop :=
  ∀ vpnType name row, primary.row? vpnType name = some row → replica.row? vpnType name = some row

/-- The rows of all other clients. -/
def OtherRowsAgree (primary replica : HaNode) (vpnType : VpnType) (name : String) : Prop :=
  ∀ vpnType' name' row, (vpnType' ≠ vpnType ∨ name' ≠ name) →
    primary.row? vpnType' name' = some row → replica.row? vpnType' name' = some row

/-- When the operation on a client arrives, of the primary's row after it and the
replica's row before it. -/
def ClientReplicates (primary replica : HaNode) (tp tr : NodeTraffic) (vpnType : VpnType)
    (name : String) (op : SyncOp) : Prop :=
  match vpnType with
  | .openvpn => True
  | .amneziawg3 => op.copies = true ∨
      ((replica.amneziawg3.policies.row? name).getD {}).accessUntil =
        ((primary.amneziawg3.policies.row? name).getD {}).accessUntil
  | vpnType => PeerReplicates op (((primary.peers vpnType).policies.row? name).getD {})
      (((replica.peers vpnType).policies.row? name).getD {})
      ((tp.reading vpnType).client name) ((tr.reading vpnType).client name)

variable {vpnType : VpnType}

theorem rowsAgree_iff {primary replica replica' : HaNode} {name : String} {row row' : AccessRow}
    (hOthers : ∀ vpnType' name', (vpnType' ≠ vpnType ∨ name' ≠ name) →
      replica'.row? vpnType' name' = replica.row? vpnType' name')
    (hPrimary : primary.row? vpnType name = some row)
    (hReplica : replica'.row? vpnType name = some row') :
    RowsAgree primary replica' ↔ OtherRowsAgree primary replica vpnType name ∧ row' = row := by
  constructor
  · intro h
    refine ⟨fun vpnType' name' other hNe hOther => ?_, ?_⟩
    · rw [← hOthers vpnType' name' hNe]
      exact h vpnType' name' other hOther
    · exact Option.mem_unique hReplica (h vpnType name row hPrimary)
  · rintro ⟨h, rfl⟩ vpnType' name' other hOther
    by_cases hKey : vpnType' = vpnType ∧ name' = name
    · obtain ⟨rfl, rfl⟩ := hKey
      rw [hReplica, ← hPrimary, hOther]
    · have hNe : vpnType' ≠ vpnType ∨ name' ≠ name := by
        rw [← not_and_or]
        exact hKey
      rw [hOthers vpnType' name' hNe]
      exact h vpnType' name' other hNe hOther

/-! ## One operation on a node -/

@[simp] theorem commitPeer_policies (vpnType : VpnType) (n : WgNode) (r : NodeReading)
    (name : String) (result : PeerResult) :
    (commitPeer vpnType n r name result).policies = n.policies.set name result.1 := by
  unfold commitPeer
  cases result.2 with
  | none => rfl
  | some call =>
    simp only []
    split <;> rfl

/-- Whose peers an operation with a runtime call leaves live. -/
theorem commitPeer_present (vpnType : VpnType) (n : WgNode) (r : NodeReading) (name : String)
    (row : PolicyRow) (call : RuntimeCall) (other : String) :
    (commitPeer vpnType n r name (row, some call)).present other =
      if other = name then !call.isBlocked
      else if call.reapply = true ∧ reblockCovers vpnType other = true ∧
          n.blocked r other = true then false
      else n.present other := by
  have hBlocked : ∀ present : String → Bool, other ≠ name →
      WgNode.blocked ⟨n.policies.set name row, present⟩ r other = n.blocked r other := by
    intro present hNe
    unfold WgNode.blocked
    rw [Table.row?_set_of_ne _ _ hNe]
  have hListed : ∀ present : String → Bool, other ≠ name →
      n.blocked r other = true → other ∈ (n.policies.set name row).keys := by
    intro present hNe hB
    rw [Table.mem_keys, Table.row?_set_of_ne _ _ hNe]
    cases hRow : n.policies.row? other with
    | none => simp [WgNode.blocked, hRow] at hB
    | some found => rfl
  unfold commitPeer
  simp only [WgNode.applyWgClientRuntime]
  by_cases hName : other = name
  · subst hName
    split <;> simp [WgNode.blockAll]
  · cases hReapply : call.reapply with
    | false => simp [hName]
    | true =>
      simp only [if_true, WgNode.blockAll, mem_filter, Bool.and_eq_true, decide_eq_true_eq,
        hName, if_false, true_and, ne_eq, not_false_eq_true, and_true, hBlocked _ hName,
        Function.update_of_ne hName]
      by_cases hHit : reblockCovers vpnType other = true ∧ n.blocked r other = true
      · rw [if_pos ⟨hListed n.present hName hHit.2, hHit⟩, if_pos hHit]
      · rw [if_neg fun h => hHit h.2, if_neg hHit]

variable {row : PolicyRow}

section

variable {n n' : HaNode} {t : NodeTraffic} {vpnType : VpnType} {name : String} {op : SyncOp}
  {actor : Option String}

/-- An operation of a WireGuard or AmneziaWG2 client: its columns, then a forced reconcile. -/
theorem applyPolicyOp_peer (hType : IsPeerType vpnType)
    (h : applyPolicyOp n t vpnType name op actor = .ok n') :
    ∃ e, enterSync vpnType op actor ((t.reading vpnType).client name)
        (((n.peers vpnType).policies.row? name).getD {}) = .ok e ∧
      n' = n.withPeers vpnType (commitPeer vpnType (n.peers vpnType) (t.reading vpnType) name
        (e.peerResult ((t.reading vpnType).client name) true)) := by
  have hApply : applyPolicyOp n t vpnType name op actor =
      (peerSyncOp vpnType op actor ((t.reading vpnType).client name)
        (((n.peers vpnType).policies.row? name).getD {})).map fun result =>
        n.withPeers vpnType
          (commitPeer vpnType (n.peers vpnType) (t.reading vpnType) name result) := by
    rcases hType with rfl | rfl <;> rfl
  rw [hApply, peerSyncOp_eq] at h
  cases hEnter : enterSync vpnType op actor ((t.reading vpnType).client name)
      (((n.peers vpnType).policies.row? name).getD {}) with
  | error e =>
    rw [hEnter] at h
    simp [Except.map] at h
  | ok e =>
    rw [hEnter] at h
    exact ⟨e, rfl, (Except.ok.inj h).symm⟩

/-- An operation of an AmneziaWG 3 client. -/
theorem applyPolicyOp_awg3 (h : applyPolicyOp n t .amneziawg3 name op actor = .ok n') :
    ∃ o, op.toBlockOp? = some o ∧
      n' = { n with
        amneziawg3 :=
          let after := (Awg3.op o actor t.now ((n.amneziawg3.policies.row? name).getD {})).run false
            (n.amneziawg3.present name)
          ⟨n.amneziawg3.policies.set name after.row,
            Function.update n.amneziawg3.present name after.live⟩ } := by
  simp only [applyPolicyOp] at h
  cases hOp : op.toBlockOp? with
  | none => simp [hOp] at h
  | some o =>
    rw [hOp] at h
    exact ⟨o, rfl, (Except.ok.inj h).symm⟩

theorem row?_withPeers (n : HaNode) (hType : IsPeerType vpnType) (peers : WgNode) (name : String) :
    (n.withPeers vpnType peers).row? vpnType name = (peers.policies.row? name).map .policy := by
  rcases hType with rfl | rfl <;> rfl

theorem row?_peers (n : HaNode) (hType : IsPeerType vpnType) (name : String) :
    n.row? vpnType name = ((n.peers vpnType).policies.row? name).map .policy := by
  rcases hType with rfl | rfl <;> rfl

theorem row?_withPeers_of_ne (n : HaNode) (hType : IsPeerType vpnType) (peers : WgNode)
    {vpnType' : VpnType} (hNe : vpnType' ≠ vpnType) (name : String) :
    (n.withPeers vpnType peers).row? vpnType' name = n.row? vpnType' name := by
  rcases hType with rfl | rfl <;> cases vpnType' <;> first | rfl | exact absurd rfl hNe

theorem live_withPeers (n : HaNode) (hType : IsPeerType vpnType) (peers : WgNode)
    (name : String) : (n.withPeers vpnType peers).live vpnType name = peers.present name := by
  rcases hType with rfl | rfl <;> rfl

theorem live_peers (n : HaNode) (hType : IsPeerType vpnType) (name : String) :
    n.live vpnType name = (n.peers vpnType).present name := by
  rcases hType with rfl | rfl <;> rfl

/-- An operation leaves the rows of all other clients alone. -/
theorem applyPolicyOp_others (hType : vpnType ≠ .openvpn)
    (h : applyPolicyOp n t vpnType name op actor = .ok n') {vpnType' : VpnType} {name' : String}
    (hNe : vpnType' ≠ vpnType ∨ name' ≠ name) :
    n'.row? vpnType' name' = n.row? vpnType' name' := by
  have hPeer : IsPeerType vpnType → n'.row? vpnType' name' = n.row? vpnType' name' := by
    intro hPeerType
    obtain ⟨e, -, rfl⟩ := applyPolicyOp_peer hPeerType h
    by_cases hSame : vpnType' = vpnType
    · subst hSame
      have hName : name' ≠ name := hNe.resolve_left (· rfl)
      rw [row?_withPeers _ hPeerType, row?_peers _ hPeerType, commitPeer_policies,
        Table.row?_set_of_ne _ _ hName]
    · exact row?_withPeers_of_ne _ hPeerType _ hSame _
  cases vpnType with
  | openvpn => exact absurd rfl hType
  | wireguard => exact hPeer (.inl rfl)
  | amneziawg2 => exact hPeer (.inr rfl)
  | amneziawg3 =>
    obtain ⟨o, -, rfl⟩ := applyPolicyOp_awg3 h
    by_cases hSame : vpnType' = .amneziawg3
    · subst hSame
      have hName : name' ≠ name := hNe.resolve_left (· rfl)
      simp [HaNode.row?, hName]
    · cases vpnType' <;> first | rfl | exact absurd rfl hSame

/-- The copy of one client touches no other row and no peer. -/
theorem row?_copySingleClientPolicy (source target : HaNode) (vpnType' : VpnType) (name' : String) :
    (copySingleClientPolicy source target vpnType name).row? vpnType' name' =
      if vpnType' = vpnType ∧ name' = name then
        match source.row? vpnType name with
        | some row => some row
        | none => target.row? vpnType name
      else target.row? vpnType' name' := by
  have hCopy : ∀ {ρ : Type} (s u : Table String ρ) (f : ρ → AccessRow),
      ((copyRow s u name).row? name').map f =
        if name' = name then
          match (s.row? name).map f with
          | some row => some row
          | none => (u.row? name).map f
        else (u.row? name').map f := by
    intro ρ s u f
    unfold copyRow
    by_cases hName : name' = name
    · subst hName
      cases s.row? name' <;> simp
    · cases s.row? name <;> simp [hName]
  cases vpnType <;> cases vpnType' <;> first
    | exact (hCopy _ _ _).trans (by simp [HaNode.row?])
    | simp [copySingleClientPolicy, HaNode.row?]

/-- The row and the peers that an operation of a WireGuard or AmneziaWG2 client leaves. -/
theorem applyPolicyOp_peer_effect (hType : IsPeerType vpnType)
    (h : applyPolicyOp n t vpnType name op actor = .ok n') :
    ∃ e, enterSync vpnType op actor ((t.reading vpnType).client name)
        (((n.peers vpnType).policies.row? name).getD {}) = .ok e ∧
      (n'.peers vpnType).policies.row? name = some (e.peer ((t.reading vpnType).client name)) ∧
      n'.live vpnType name = !(e.reconciles && isBlocked
        (e.peer ((t.reading vpnType).client name)) ((t.reading vpnType).client name)) := by
  obtain ⟨e, hEnter, rfl⟩ := applyPolicyOp_peer hType h
  obtain ⟨call, hCall, hBlocked⟩ :=
    Option.map_eq_some_iff.mp (peerResult_live e ((t.reading vpnType).client name))
  have hResult : e.peerResult ((t.reading vpnType).client name) true =
      (e.peer ((t.reading vpnType).client name), some call) :=
    Prod.ext (e.peerResult_row _ true) hCall
  refine ⟨e, hEnter, ?_, ?_⟩
  · rw [hResult]
    rcases hType with rfl | rfl <;> simp [HaNode.withPeers, HaNode.peers]
  · rw [live_withPeers _ hType, hResult, commitPeer_present, if_pos rfl, hBlocked]

/-- The row and the peers that an operation of an AmneziaWG 3 client leaves. -/
theorem applyPolicyOp_awg3_effect
    (h : applyPolicyOp n t .amneziawg3 name op actor = .ok n') :
    ∃ o, op.toBlockOp? = some o ∧
      let after := (Awg3.op o actor t.now ((n.amneziawg3.policies.row? name).getD {})).run false
        (n.amneziawg3.present name)
      n'.amneziawg3.policies.row? name = some after.row ∧
        n'.live .amneziawg3 name = !(Awg3.stateOf after.row t.now).isBlocked := by
  obtain ⟨o, hOp, rfl⟩ := applyPolicyOp_awg3 h
  refine ⟨o, hOp, Table.row?_set_self _ _ _, ?_⟩
  rw [← (awg3_op_run hOp actor t.now _ _).2]
  exact Function.update_self _ _ _

theorem blocked_peers (n : HaNode) (t : NodeTraffic) (hType : IsPeerType vpnType)
    (h : (n.peers vpnType).policies.row? name = some row) :
    n.blocked t vpnType name = isBlocked row ((t.reading vpnType).client name) := by
  unfold HaNode.blocked
  rw [row?_peers n hType, h]
  rfl

theorem blocked_awg3 (n : HaNode) (t : NodeTraffic) {row : Awg3Row}
    (h : n.amneziawg3.policies.row? name = some row) :
    n.blocked t .amneziawg3 name = (Awg3.stateOf row t.now).isBlocked := by
  have hRow : n.row? .amneziawg3 name = some (.awg3 row) := congrArg (Option.map AccessRow.awg3) h
  unfold HaNode.blocked
  rw [hRow]

theorem row?_copyRow_self {ρ : Type} {s u : Table String ρ} {row : ρ}
    (h : s.row? name = some row) : (copyRow s u name).row? name = some row := by
  unfold copyRow
  rw [h]
  exact Table.row?_set_self _ _ _

/-- The row that a repeated operation meets on the replica. -/
theorem peers_copied (source target : HaNode) (hType : IsPeerType vpnType)
    (hRow : (source.peers vpnType).policies.row? name = some row) :
    (((if op.copies then copySingleClientPolicy source target vpnType name else target).peers
        vpnType).policies.row? name).getD {} =
      if op.copies then row else ((target.peers vpnType).policies.row? name).getD {} := by
  cases op.copies with
  | false => rfl
  | true =>
    have hCopied : ((copySingleClientPolicy source target vpnType name).peers
        vpnType).policies.row? name = some row := by
      rcases hType with rfl | rfl
      · exact row?_copyRow_self hRow
      · exact row?_copyRow_self hRow
    rw [if_pos rfl, if_pos rfl, hCopied]
    rfl

theorem awg3_copied (source target : HaNode) {row : Awg3Row}
    (hRow : source.amneziawg3.policies.row? name = some row) :
    ((if op.copies then copySingleClientPolicy source target .amneziawg3 name
        else target).amneziawg3.policies.row? name).getD {} =
      if op.copies then row else (target.amneziawg3.policies.row? name).getD {} := by
  cases op.copies with
  | false => rfl
  | true =>
    rw [if_pos rfl, if_pos rfl]
    exact congrArg (Option.getD · {}) (row?_copyRow_self hRow)

/-- **When an operation of a client arrives on a replica with all rows in agreement.** -/
theorem replicate_enforced_iff {primary₀ primary replica replica' : HaNode}
    {tp tr : NodeTraffic} {hasShadow : Bool} (hType : vpnType ≠ .openvpn) (hClock : tp.now = tr.now)
    (hPrimary : applyPolicyOp primary₀ tp vpnType name op actor = .ok primary)
    (hReplica : replicatePolicyOp primary replica hasShadow tr vpnType name op actor =
      .ok replica') :
    (replica'.live vpnType name = !primary.blocked tp vpnType name ∧
        RowsAgree primary replica') ↔
      OtherRowsAgree primary replica vpnType name ∧
        ClientReplicates primary replica tp tr vpnType name op := by
  -- without a shadow row the operation raises
  have hApplied : applyPolicyOp
      (if op.copies then copySingleClientPolicy primary replica vpnType name else replica) tr
      vpnType name op actor = .ok replica' := by
    unfold replicatePolicyOp at hReplica
    split at hReplica
    · simp at hReplica
    · exact hReplica
  have hOthers : ∀ vpnType' name', (vpnType' ≠ vpnType ∨ name' ≠ name) →
      replica'.row? vpnType' name' = replica.row? vpnType' name' := by
    intro vpnType' name' hNe
    rw [applyPolicyOp_others hType hApplied hNe]
    split
    · rw [row?_copySingleClientPolicy, if_neg (not_and_or.mpr hNe)]
    · rfl
  -- WireGuard and AmneziaWG2 share their row and their reconcile
  have hPeer : IsPeerType vpnType →
      ((replica'.live vpnType name = !primary.blocked tp vpnType name ∧
          RowsAgree primary replica') ↔
        OtherRowsAgree primary replica vpnType name ∧
          PeerReplicates op (((primary.peers vpnType).policies.row? name).getD {})
            (((replica.peers vpnType).policies.row? name).getD {})
            ((tp.reading vpnType).client name) ((tr.reading vpnType).client name)) := by
    intro hPeerType
    obtain ⟨e, hEnter, hRow, -⟩ := applyPolicyOp_peer_effect hPeerType hPrimary
    obtain ⟨e', hEnter', hRow', hLive⟩ := applyPolicyOp_peer_effect hPeerType hApplied
    rw [peers_copied primary replica hPeerType hRow] at hEnter'
    have hBefore := (row?_peers primary hPeerType name).trans
      (congrArg (Option.map AccessRow.policy) hRow)
    have hAfter := (row?_peers replica' hPeerType name).trans
      (congrArg (Option.map AccessRow.policy) hRow')
    rw [rowsAgree_iff hOthers hBefore hAfter, hLive, blocked_peers primary tp hPeerType hRow,
      Bool.not_inj_iff, AccessRow.policy.injEq, hRow, Option.getD_some,
      ← peer_replicates_iff hClock hEnter hEnter']
    exact ⟨fun h => ⟨h.2.1, h.2.2, h.1⟩, fun h => ⟨h.2.2, h.1, h.2.1⟩⟩
  cases vpnType with
  | openvpn => exact absurd rfl hType
  | wireguard => exact hPeer (.inl rfl)
  | amneziawg2 => exact hPeer (.inr rfl)
  | amneziawg3 =>
    obtain ⟨o, hOp, hRow, -⟩ := applyPolicyOp_awg3_effect hPrimary
    obtain ⟨o', hOp', hRow', hLive⟩ := applyPolicyOp_awg3_effect hApplied
    obtain rfl := Option.mem_unique hOp hOp'
    rw [awg3_copied primary replica hRow, ← hClock] at hRow' hLive
    have hBefore : primary.row? .amneziawg3 name = some (.awg3 _) :=
      congrArg (Option.map AccessRow.awg3) hRow
    have hAfter : replica'.row? .amneziawg3 name = some (.awg3 _) :=
      congrArg (Option.map AccessRow.awg3) hRow'
    have hArrives := awg3_replicates_iff hOp ((replica.amneziawg3.policies.row? name).getD {})
      ((if op.copies then copySingleClientPolicy primary replica .amneziawg3 name
        else replica).amneziawg3.present name)
      (awg3_op_run hOp actor tp.now ((primary₀.amneziawg3.policies.row? name).getD {})
        (primary₀.amneziawg3.present name)).1
    rw [rowsAgree_iff hOthers hBefore hAfter, hLive, blocked_awg3 primary tp hRow,
      AccessRow.awg3.injEq, ClientReplicates, hRow, Option.getD_some, ← hArrives]
    refine ⟨fun h => h.2, fun h => ⟨?_, h⟩⟩
    rw [h.2]

end

/-! ## A heal, client by client -/

/-- The stored reason is not the one the state calls for, so a reconcile makes a
runtime call. -/
def reasonMoves (n : WgNode) (r : NodeReading) (name : String) : Bool :=
  match n.policies.row? name with
  | some row => row.blockReason != (blockMode row (r.client name)).targetReason
  | none => false

/-- The reconcile of another client frees it, which starts a re-block pass. -/
def freesOther (n : WgNode) (r : NodeReading) (names : List String) (name : String) : Bool :=
  names.any fun other => other ≠ name && reasonMoves n r other && !n.blocked r other

/-- Whose peers are live once the clients of the list are reconciled. -/
def healedLive (vpnType : VpnType) (r : NodeReading) (n : WgNode) (names : List String)
    (name : String) : Bool :=
  if name ∈ names ∧ reasonMoves n r name = true then !n.blocked r name
  else if n.blocked r name && reblockCovers vpnType name && freesOther n r names name then false
  else n.present name

variable {names : List String}

section

variable {vpnType : VpnType} {r : NodeReading} {n : WgNode} {name : String}

/-- A reconcile commits the row and calls the node if the reason moves. -/
theorem reconcileClient_eq (h : n.policies.row? name = some row) :
    reconcileClient vpnType r n name =
      commitPeer vpnType n r name (reconciledPeer row (r.client name) false,
        if reasonMoves n r name then some ⟨n.blocked r name, !n.blocked r name⟩ else none) := by
  have hResult : reconcilePeer row (r.client name) true false false =
      (reconciledPeer row (r.client name) false,
        if reasonMoves n r name then some ⟨n.blocked r name, !n.blocked r name⟩ else none) := by
    refine Prod.ext (reconcilePeer_row _ _ _ _ _) ?_
    have hBlocked : n.blocked r name = isBlocked row (r.client name) := by
      simp only [WgNode.blocked, h]
      rfl
    rw [reconcilePeer_call, isBlocked_reconciledPeer, reconciledPeer_reason, bne_self_eq_false,
      Bool.false_or, Bool.or_false, Bool.true_and, hBlocked]
    simp only [reasonMoves, h]
  unfold reconcileClient
  rw [h]
  exact congrArg (commitPeer vpnType n r name) hResult

theorem reconcileClient_of_none (h : n.policies.row? name = none) :
    reconcileClient vpnType r n name = n := by
  unfold reconcileClient
  rw [h]

theorem row?_reconcileClient (other : String) :
    (reconcileClient vpnType r n name).policies.row? other =
      if other = name then
        (n.policies.row? name).map fun row => reconciledPeer row (r.client name) false
      else n.policies.row? other := by
  cases hRow : n.policies.row? name with
  | none =>
    rw [reconcileClient_of_none hRow]
    by_cases hName : other = name
    · rw [if_pos hName, hName, hRow]
      rfl
    · rw [if_neg hName]
  | some row =>
    rw [reconcileClient_eq hRow, commitPeer_policies, Table.row?_set]
    rfl

/-- A reconcile moves nobody's blocked state. -/
theorem blocked_reconcileClient (other : String) :
    (reconcileClient vpnType r n name).blocked r other = n.blocked r other := by
  unfold WgNode.blocked
  rw [row?_reconcileClient]
  by_cases hName : other = name
  · subst hName
    rw [if_pos rfl]
    cases n.policies.row? other with
    | none => rfl
    | some row => exact isBlocked_reconciledPeer row (r.client other)
  · rw [if_neg hName]

theorem reasonMoves_reconcileClient {other : String} (h : other ≠ name) :
    reasonMoves (reconcileClient vpnType r n name) r other = reasonMoves n r other := by
  unfold reasonMoves
  rw [row?_reconcileClient, if_neg h]

/-- Whose peers one reconcile leaves live. -/
theorem reconcileClient_present (other : String) :
    (reconcileClient vpnType r n name).present other =
      healedLive vpnType r n [name] other := by
  unfold healedLive freesOther
  cases hRow : n.policies.row? name with
  | none =>
    have hStill : reasonMoves n r name = false := by simp [reasonMoves, hRow]
    rw [reconcileClient_of_none hRow]
    by_cases hName : other = name
    · simp [hName, hStill]
    · simp [hName, hStill]
  | some row =>
    rw [reconcileClient_eq hRow]
    cases hMoves : reasonMoves n r name with
    | false =>
      by_cases hName : other = name
      · simp [hName, hMoves, commitPeer]
      · simp [hName, hMoves, commitPeer]
    | true =>
      rw [if_pos rfl, commitPeer_present]
      by_cases hName : other = name
      · simp [hName, hMoves]
      · have hNe : name ≠ other := fun h => hName h.symm
        cases hB : n.blocked r other <;> cases hC : reblockCovers vpnType other <;>
          simp [hName, hNe, hMoves]

/-- The step of a heal: the first client, then the others on what it leaves. -/
theorem healedLive_cons (hNew : name ∉ names) (other : String) :
    healedLive vpnType r (reconcileClient vpnType r n name) names other =
      healedLive vpnType r n (name :: names) other := by
  have hFrees : ∀ other, freesOther (reconcileClient vpnType r n name) r names other =
      freesOther n r names other := by
    intro other
    unfold freesOther
    rw [Bool.eq_iff_iff, any_eq_true, any_eq_true]
    refine exists_congr fun b => and_congr_right fun hMem => ?_
    rw [blocked_reconcileClient,
      reasonMoves_reconcileClient (fun h : b = name => hNew (h ▸ hMem))]
  have hCons : freesOther n r (name :: names) other =
      (freesOther n r [name] other || freesOther n r names other) := by
    simp [freesOther]
  have hStep : (reconcileClient vpnType r n name).present other = _ :=
    reconcileClient_present other
  unfold healedLive at hStep ⊢
  rw [blocked_reconcileClient, hFrees, hStep, hCons]
  by_cases hName : other = name
  · subst hName
    have hSelf : freesOther n r [other] other = false := by simp [freesOther]
    simp only [hNew, false_and, if_false, mem_cons, not_mem_nil, or_false, true_and,
      hSelf, Bool.false_or, Bool.and_false, Bool.false_eq_true]
    cases reasonMoves n r other <;> cases n.blocked r other <;>
      cases reblockCovers vpnType other <;> cases freesOther n r names other <;> rfl
  · rw [reasonMoves_reconcileClient hName]
    simp only [mem_cons, hName, false_or, not_mem_nil, or_false, false_and, if_false]
    by_cases hMem : other ∈ names ∧ reasonMoves n r other = true
    · rw [if_pos hMem, if_pos hMem]
    · rw [if_neg hMem, if_neg hMem]
      cases n.blocked r other <;> cases reblockCovers vpnType other <;>
        cases freesOther n r names other <;> cases freesOther n r [name] other <;> rfl

/-- **Whose peers a heal leaves live.** -/
theorem foldl_reconcileClient_present (hNodup : names.Nodup) (other : String) :
    (names.foldl (reconcileClient vpnType r) n).present other =
      healedLive vpnType r n names other := by
  induction names generalizing n with
  | nil => simp [healedLive, freesOther]
  | cons name names ih =>
    rw [nodup_cons] at hNodup
    rw [foldl_cons, ih hNodup.2, healedLive_cons hNodup.1]

theorem foldl_reconcileClient_row? (hNodup : names.Nodup) (other : String) :
    (names.foldl (reconcileClient vpnType r) n).policies.row? other =
      (n.policies.row? other).map fun row =>
        if other ∈ names then reconciledPeer row (r.client other) false else row := by
  induction names generalizing n with
  | nil => simp
  | cons name names ih =>
    rw [nodup_cons] at hNodup
    rw [foldl_cons, ih hNodup.2, row?_reconcileClient]
    by_cases hName : other = name
    · subst hName
      cases n.policies.row? other <;> simp [hNodup.1]
    · simp [hName]

end

/-! ## When a heal brings a client's policy -/

/-- The client's peers follow the primary's policy, and its row is the primary's. -/
def HealedRight (primary healed : HaNode) (tp : NodeTraffic) (vpnType : VpnType)
    (name : String) : Prop :=
  (vpnType ≠ .openvpn → healed.live vpnType name = !primary.blocked tp vpnType name) ∧
    ∀ row, primary.row? vpnType name = some row → healed.row? vpnType name = some row

/-- The primary's row is one that a reconcile under the replica's counters keeps. -/
def RowSettled (vpnType : VpnType) (row : PolicyRow) (r : Reading) : Prop :=
  if vpnType = .openvpn then reconciledOpenvpn row r false = row
  else tempBlockLapsed row r.now = false ∧
    (blockMode row r).targetReason = row.blockReason

/-- When the copied rows give a WireGuard or AmneziaWG2 client the right peers: its
reconcile makes a call, or the re-block pass of another client meets it, or its peers
were right before. -/
def PeersHealed (primary replica copied : HaNode) (tp tr : NodeTraffic) (vpnType : VpnType)
    (name : String) : Prop :=
  let n := copied.peers vpnType
  let r := tr.reading vpnType
  let names := n.policies.keys.filter (healReconciles vpnType)
  if name ∈ names ∧ reasonMoves n r name = true then
    n.blocked r name = primary.blocked tp vpnType name
  else if (n.blocked r name && reblockCovers vpnType name && freesOther n r names name) = true then
    primary.blocked tp vpnType name = true
  else replica.live vpnType name = !primary.blocked tp vpnType name

/-- When a heal brings the policy of a client. -/
def HealBrings (primary replica : HaNode) (tp tr : NodeTraffic) (vpnType : VpnType)
    (name : String) : Prop :=
  match vpnType with
  | .openvpn => ∀ row, primary.openvpn.row? name = some row → healReconciles .openvpn name = true →
      RowSettled .openvpn row ((tr.reading .openvpn).client name)
  | .amneziawg3 => HealedRight primary replica tp .amneziawg3 name
  | vpnType =>
    PeersHealed primary replica (copyAccessPoliciesFromNode primary replica) tp tr vpnType name ∧
      ∀ row, (primary.peers vpnType).policies.row? name = some row →
        healReconciles vpnType name = true →
          RowSettled vpnType row ((tr.reading vpnType).client name)

theorem row?_copyPoliciesForModel {ρ : Type} (source target : Table String ρ) (name : String)
    {row : ρ} (h : source.row? name = some row) :
    (copyPoliciesForModel source target).row? name = some row := by
  unfold copyPoliciesForModel
  rw [Table.row?_absorb, h]

theorem reconciledPeer_settled_iff (hType : IsPeerType vpnType) {r : Reading} :
    reconciledPeer row r false = row ↔ RowSettled vpnType row r := by
  have hNotOpenvpn : vpnType ≠ .openvpn := by
    rcases hType with rfl | rfl <;> simp
  rw [RowSettled, if_neg hNotOpenvpn]
  constructor
  · intro h
    refine ⟨?_, ?_⟩
    · rw [← h]
      exact tempBlockLapsed_reconciledPeer row r false
    · rw [← reconciledPeer_reason, h]
  · rintro ⟨hClean, hReason⟩
    rw [reconciledPeer_eq_self_iff hClean]
    exact ⟨by simp [limitChangeLifts], hReason⟩

/-- A row found by a reconciling pass is kept exactly when it is settled or passed over. -/
theorem kept_row_iff {α : Type} {primaryRow : Option α} {healed : Option α} {f : α → α}
    {reconciles : Prop} [Decidable reconciles]
    (h : ∀ row, primaryRow = some row → healed = some (if reconciles then f row else row)) :
    (∀ row, primaryRow = some row → healed = some row) ↔
      ∀ row, primaryRow = some row → reconciles → f row = row := by
  refine forall_congr' fun row => forall_congr' fun hRow => ?_
  rw [h row hRow, Option.some.injEq]
  by_cases hRec : reconciles
  · simp [hRec]
  · simp [hRec]

theorem map_eq_some_imp_iff {α β : Type} {f : α → β} (hInj : Function.Injective f)
    {a b : Option α} :
    (∀ y, a.map f = some y → b.map f = some y) ↔ ∀ x, a = some x → b = some x := by
  constructor
  · intro h x hx
    obtain ⟨x', hx', hEq⟩ := Option.map_eq_some_iff.mp (h (f x) (by rw [hx]; rfl))
    rw [hx', hInj hEq]
  · intro h y hy
    obtain ⟨x, hx, rfl⟩ := Option.map_eq_some_iff.mp hy
    rw [h x hx]
    rfl

theorem policy_injective : Function.Injective AccessRow.policy := fun _ _ h =>
  AccessRow.policy.inj h

/-- The peers of a healed client. -/
theorem healed_live_iff (primary replica : HaNode) (tp tr : NodeTraffic)
    (hType : IsPeerType vpnType) (name : String) :
    (healPolicyDrift primary replica tr).live vpnType name = (!primary.blocked tp vpnType name) ↔
      PeersHealed primary replica (copyAccessPoliciesFromNode primary replica) tp tr vpnType
        name := by
  have hHealed : (healPolicyDrift primary replica tr).peers vpnType =
      healPeers vpnType (tr.reading vpnType)
        ((copyAccessPoliciesFromNode primary replica).peers vpnType) := by
    rcases hType with rfl | rfl <;> rfl
  have hPresent : ((copyAccessPoliciesFromNode primary replica).peers vpnType).present name =
      replica.live vpnType name := by
    rcases hType with rfl | rfl <;> rfl
  have hNodup := ((copyAccessPoliciesFromNode primary replica).peers vpnType).policies.nodup.filter
    (healReconciles vpnType)
  rw [live_peers _ hType, hHealed, healPeers, foldl_reconcileClient_present hNodup]
  unfold healedLive PeersHealed
  rw [hPresent]
  simp only []
  split
  · exact Bool.not_inj_iff
  · split
    · rw [eq_comm, Bool.not_eq_false']
    · exact Iff.rfl

/-- The row of a healed client. -/
theorem healed_row_iff (primary replica : HaNode) (tr : NodeTraffic)
    (hType : IsPeerType vpnType) (name : String) :
    (∀ row, primary.row? vpnType name = some row →
        (healPolicyDrift primary replica tr).row? vpnType name = some row) ↔
      ∀ row, (primary.peers vpnType).policies.row? name = some row →
        healReconciles vpnType name = true →
          RowSettled vpnType row ((tr.reading vpnType).client name) := by
  have hHealed : (healPolicyDrift primary replica tr).peers vpnType =
      healPeers vpnType (tr.reading vpnType)
        ((copyAccessPoliciesFromNode primary replica).peers vpnType) := by
    rcases hType with rfl | rfl <;> rfl
  have hCopied : ∀ row, (primary.peers vpnType).policies.row? name = some row →
      ((copyAccessPoliciesFromNode primary replica).peers vpnType).policies.row? name =
        some row := by
    intro row hRow
    rcases hType with rfl | rfl
    · exact row?_copyPoliciesForModel _ _ _ hRow
    · exact row?_copyPoliciesForModel _ _ _ hRow
  have hNodup := ((copyAccessPoliciesFromNode primary replica).peers vpnType).policies.nodup.filter
    (healReconciles vpnType)
  simp only [row?_peers _ hType, hHealed]
  rw [map_eq_some_imp_iff policy_injective]
  refine (kept_row_iff fun row hRow => ?_).trans (forall_congr' fun row =>
    forall_congr' fun _ => forall_congr' fun _ => reconciledPeer_settled_iff hType)
  have hMem : name ∈ ((copyAccessPoliciesFromNode primary replica).peers
      vpnType).policies.keys.filter (healReconciles vpnType) ↔
      healReconciles vpnType name = true := by
    rw [mem_filter, and_iff_right (Table.mem_keys_of_row? (hCopied row hRow))]
  rw [healPeers, foldl_reconcileClient_row? hNodup, hCopied row hRow, Option.map_some]
  simp only [hMem]

/-- **When a heal brings the policy of a client.** -/
theorem heal_brings_iff (primary replica : HaNode) (tp tr : NodeTraffic) (vpnType : VpnType)
    (name : String) :
    HealedRight primary (healPolicyDrift primary replica tr) tp vpnType name ↔
      HealBrings primary replica tp tr vpnType name := by
  have hPeer : ∀ {vpnType : VpnType}, IsPeerType vpnType →
      (HealedRight primary (healPolicyDrift primary replica tr) tp vpnType name ↔
        PeersHealed primary replica (copyAccessPoliciesFromNode primary replica) tp tr vpnType
          name ∧
          ∀ row, (primary.peers vpnType).policies.row? name = some row →
            healReconciles vpnType name = true →
              RowSettled vpnType row ((tr.reading vpnType).client name)) := by
    intro vpnType hType
    have hNotOpenvpn : vpnType ≠ .openvpn := by
      rcases hType with rfl | rfl <;> simp
    rw [← healed_live_iff primary replica tp tr hType, ← healed_row_iff primary replica tr hType]
    exact ⟨fun h => ⟨h.1 hNotOpenvpn, h.2⟩, fun h => ⟨fun _ => h.1, h.2⟩⟩
  cases vpnType with
  | wireguard => exact hPeer (.inl rfl)
  | amneziawg2 => exact hPeer (.inr rfl)
  | amneziawg3 => exact Iff.rfl
  | openvpn =>
    have hRows : HealedRight primary (healPolicyDrift primary replica tr) tp .openvpn name ↔
        ∀ row, primary.row? .openvpn name = some row →
          (healPolicyDrift primary replica tr).row? .openvpn name = some row :=
      and_iff_right fun h => absurd rfl h
    rw [hRows]
    refine (map_eq_some_imp_iff policy_injective).trans (kept_row_iff fun row hRow => ?_)
    have hCopied : (copyAccessPoliciesFromNode primary replica).openvpn.row? name = some row :=
      row?_copyPoliciesForModel _ _ _ hRow
    simp only [healPolicyDrift, Table.row?_mapRows, hCopied, Option.map_some,
      reconcileOpenvpn_row]

/-! ## Replication and heal -/

/-- **A replicated policy is enforced**, exactly when the operation arrives, and a healed
one exactly when the heal brings it: for every pair of nodes, every client and every
reading of the two nodes' counters at one time. -/
theorem policy_replicated_enforced (primary replica : HaNode) (tp tr : NodeTraffic)
    (vpnType : VpnType) (name : String) :
    (∀ (primary₀ replica' : HaNode) (hasShadow : Bool) (op : SyncOp) (actor : Option String),
      vpnType ≠ .openvpn → tp.now = tr.now →
      applyPolicyOp primary₀ tp vpnType name op actor = .ok primary →
      replicatePolicyOp primary replica hasShadow tr vpnType name op actor = .ok replica' →
      ((replica'.live vpnType name = !primary.blocked tp vpnType name ∧
          RowsAgree primary replica') ↔
        OtherRowsAgree primary replica vpnType name ∧
          ClientReplicates primary replica tp tr vpnType name op)) ∧
    (HealedRight primary (healPolicyDrift primary replica tr) tp vpnType name ↔
      HealBrings primary replica tp tr vpnType name) := by
  constructor
  · intro primary₀ replica' hasShadow op actor hType hClock hPrimary hReplica
    exact replicate_enforced_iff hType hClock hPrimary hReplica
  · exact heal_brings_iff primary replica tp tr vpnType name

/-- A node without policies, where every client has its peers. -/
def openNode : HaNode :=
  ⟨Table.empty, ⟨Table.empty, fun _ => true⟩, ⟨Table.empty, fun _ => true⟩,
    ⟨Table.empty, fun _ => true⟩⟩

/-- Alice is banned for good on the primary. -/
def aliceBanned : HaNode :=
  { openNode with
    wireguard :=
      ⟨Table.empty.set "alice"
        { isPermanentBlocked := true
          blockReason := some .manualPermanent
          blockStartedAt := some 50
          updatedBy := some "admin" },
        fun name => name != "alice"⟩ }

def noTraffic (now : Time) : NodeTraffic := ⟨now, fun _ _ _ => 0⟩

/-- A heal gives the replica Alice's row, with its reason, and leaves her peers live. -/
theorem heal_leaves_peers_live : let healed := healPolicyDrift aliceBanned openNode (noTraffic 100)
    (∀ name, openNode.live .wireguard name = (openNode.wireguard.reason name).isNone) ∧
      aliceBanned.blocked (noTraffic 100) .wireguard "alice" = true ∧
      healed.row? .wireguard "alice" = aliceBanned.row? .wireguard "alice" ∧
      healed.live .wireguard "alice" = true ∧
      ¬ HealedRight aliceBanned healed (noTraffic 100) .wireguard "alice" := by
  have hBlocked : aliceBanned.blocked (noTraffic 100) .wireguard "alice" = true := by decide
  have hLive : (healPolicyDrift aliceBanned openNode (noTraffic 100)).live .wireguard "alice" =
      true := by decide
  refine ⟨fun _ => rfl, hBlocked, by decide, hLive, fun h => ?_⟩
  have hRight := h.1 (by decide)
  rw [hLive, hBlocked] at hRight
  simp at hRight

/-- A past deadline set on the primary blocks the client on the replica too. -/
theorem deadline_replicated :
    ∃ primary replica',
      applyPolicyOp openNode (noTraffic 100) .wireguard "bob" (.setAccessUntil (some 10))
        (some "admin") = .ok primary ∧
      replicatePolicyOp primary openNode true (noTraffic 100) .wireguard "bob"
        (.setAccessUntil (some 10)) (some "admin") = .ok replica' ∧
      replica'.live .wireguard "bob" = false ∧ RowsAgree primary replica' := by
  refine ⟨_, _, rfl, rfl, ?_⟩
  have hEnforced := ((policy_replicated_enforced _ openNode (noTraffic 100) (noTraffic 100)
    .wireguard "bob").1 openNode _ true (.setAccessUntil (some 10)) (some "admin") (by decide) rfl
    rfl rfl).mpr ⟨?_, ?_⟩
  · exact ⟨hEnforced.1.trans (by decide), hEnforced.2⟩
  · intro vpnType name row hOther hRow
    cases vpnType with
    | wireguard =>
      have hName : name ≠ "bob" := hOther.resolve_left (· rfl)
      simp [HaNode.row?, openNode, hName] at hRow
    | openvpn | amneziawg2 | amneziawg3 => simp [HaNode.row?, openNode] at hRow
  · exact ⟨trivial, by decide, by decide, by decide⟩

end AdminPanel.NodeSync
