import AdminPanel.Expiry.Worker

/-!
# Blocks that the worker loses

A row whose deadline is past is selected by the next run as long as its committed
reason is not `access_expired`. The worker changes the reason before it calls the
node, and what it does after an exception decides whether the change is kept.

* `Attempt.stores` — the claim ends with the new reason in the database, now or at
  the next commit;
* `Tracked` — the invariant of a run: ban flags as before the run, and the reason
  of a claimed row told by `stores` (`tracked_claim`, `tracked_runOnce`);
* `worker_keeps_blocks_iff` — no row whose enforcement raised is lost exactly when
  each is permanently banned or has no claim that stores.
-/

namespace AdminPanel.Expiry

open Lib (Table Session)
open Access Panel Unlock

def reasonOf (row : Option PolicyRow) : Option BlockReason := row.bind (·.blockReason)

def permanentOf (row : Option PolicyRow) : Bool := row.any (·.isPermanentBlocked)

/-- The row as the next commit would leave it. -/
def WorkerState.pending (st : WorkerState) (k : PolicyKey) : Option PolicyRow :=
  (st.session.commitInto changedColumns st.policies).row? k

/-- The claim leaves its new reason in the database, or in the session where the next
commit finds it: a reconcile that succeeds, one of OpenVPN that fails at the ban
file, and one that fails in the pass that does not roll back. -/
def Attempt.stores (a : Attempt) : Prop :=
  a.outcome = .succeeds ∨
    (a.outcome = .failsEnforcing ∧ (a.key.protocol = .openvpn ∨ a.pass = .access))

instance (a : Attempt) : Decidable a.stores := by unfold Attempt.stores; infer_instance

/-! ## What a reconcile makes of a claimed row -/

theorem workerActor_named : namedActor (some workerActor) = true := by decide

theorem reconciledRow_openvpn (row : PolicyRow) (r : Reading) :
    reconciledRow .openvpn row r = reconciledOpenvpn row r false := rfl

/-- A named updater keeps the permanent flag through an OpenVPN reconcile. -/
theorem reconcilePeer_eq {protocol : Protocol} (hProtocol : protocol ≠ .openvpn)
    (row : PolicyRow) (r : Reading) :
    (reconcilePeer row r true true false).1 = reconciledRow protocol row r := by
  rw [reconcilePeer_row]
  cases protocol with
  | openvpn => exact absurd rfl hProtocol
  | wireguard | amneziawg2 => rfl

variable {row : PolicyRow}

theorem ovpnLifts_named (hNamed : namedActor row.updatedBy = true) (r : Reading) :
    ovpnLifts row r false = false := by
  unfold ovpnLifts
  split <;> simp [hNamed]

variable {r : Reading}

/-- The reason that a past deadline leads to, in the words of OpenVPN and of the peer
protocols. -/
theorem word_of_expired (hExpired : policyAccessExpired row r.now = true) :
    ((blockMode row r).word = some .accessExpired ↔ row.isPermanentBlocked = false) ∧
      ((blockMode row r).targetReason = some .accessExpired ↔ row.isPermanentBlocked = false) := by
  cases hPerm : row.isPermanentBlocked with
  | true =>
    rw [blockMode_of_permanent hPerm]
    exact ⟨by decide, by decide⟩
  | false =>
    rw [blockMode_of_expired hPerm hExpired]
    exact ⟨by decide, by decide⟩

/-- **What a reconcile makes of a claimed row whose deadline is past**: the permanent
flag stays, and the reason is `access_expired` unless the flag is set. -/
theorem reconciledRow_claimed (protocol : Protocol) (hNamed : namedActor row.updatedBy = true)
    (hExpired : policyAccessExpired row r.now = true) :
    (reconciledRow protocol row r).isPermanentBlocked = row.isPermanentBlocked ∧
      ((reconciledRow protocol row r).blockReason = some .accessExpired ↔
        row.isPermanentBlocked = false) := by
  have hCleaned : (cleanupTempBlock row r.now).isPermanentBlocked = row.isPermanentBlocked :=
    isPermanentBlocked_cleanupTempBlock row r.now
  have hStill : policyAccessExpired (cleanupTempBlock row r.now) r.now = true := by
    rwa [policyAccessExpired_cleanupTempBlock]
  have hPeer : (reconciledPeer row r false).isPermanentBlocked = row.isPermanentBlocked ∧
      ((reconciledPeer row r false).blockReason = some .accessExpired ↔
        row.isPermanentBlocked = false) := by
    rw [reconciledPeer_reason, (word_of_expired hExpired).2]
    refine ⟨?_, Iff.rfl⟩
    rw [← hCleaned]
    show ((cleanupTempBlock row r.now).isPermanentBlocked && !false) = _
    rw [Bool.not_false, Bool.and_true]
  have hOpenvpn : (reconciledOpenvpn row r false).isPermanentBlocked = row.isPermanentBlocked ∧
      ((reconciledOpenvpn row r false).blockReason = some .accessExpired ↔
        row.isPermanentBlocked = false) := by
    have hLift : ovpnLifts (cleanupTempBlock row r.now) r false = false := by
      apply ovpnLifts_named
      rwa [(cleanupTempBlock_frame row r.now).updatedBy]
    unfold reconciledOpenvpn
    simp only [hLift]
    generalize hColumns : (if ovpnClears (cleanupTempBlock row r.now) r false = true then
      clearBlockColumns (cleanupTempBlock row r.now) else cleanupTempBlock row r.now) = columns
    have hPerm : columns.isPermanentBlocked = row.isPermanentBlocked := by
      rw [← hColumns, ← hCleaned]
      split <;> rfl
    have hPast : policyAccessExpired (settle columns false none) r.now = true := by
      rw [← hColumns, ← hStill]
      split <;> rfl
    have hWord := (word_of_expired hPast).1
    rw [settle_false] at hWord ⊢
    rw [settle_false]
    exact ⟨hPerm, hWord.trans (by rw [← hPerm])⟩
  cases protocol with
  | openvpn => exact hOpenvpn
  | wireguard | amneziawg2 => exact hPeer

theorem cleanupOvpnTrafficLimit_unchanged {exceeded limitChanged : Bool}
    (h : (cleanupOvpnTrafficLimit row exceeded limitChanged).2 = false) :
    (cleanupOvpnTrafficLimit row exceeded limitChanged).1 = row := by
  unfold cleanupOvpnTrafficLimit at h ⊢
  cases exceeded with
  | true =>
    simp only [if_true] at h ⊢
    split at h
    · simp at h
    · next hKeeps => rw [if_neg hKeeps]
  | false =>
    by_cases hReason : row.blockReason = some .trafficLimit
    · simp only [hReason, if_true, Bool.false_eq_true, if_false] at h
      split at h <;> cases h
    · simp only [hReason, if_false, Bool.false_eq_true] at h ⊢
      split at h
      · simp at h
      · next hKeeps => rw [if_neg hKeeps]

/-- An OpenVPN reconcile that reports no change has changed nothing. -/
theorem reconcileOpenvpn_unchanged {limitChanged : Bool}
    (h : (reconcileOpenvpn row r limitChanged).2 = false) :
    (reconcileOpenvpn row r limitChanged).1 = row := by
  simp only [reconcileOpenvpn, Bool.or_eq_false_iff] at h ⊢
  obtain ⟨⟨⟨hTemp, hReason⟩, hLimit⟩, hTarget⟩ := h
  have hCleaned : cleanupOvpnTempBlock row r.now = row := by
    unfold cleanupOvpnTempBlock cleanupTempBlock
    rw [hTemp]
    rfl
  rw [hCleaned] at hReason hLimit hTarget ⊢
  have hCurrent : dropExpiredReason row r.now = row := by
    unfold dropExpiredReason at hReason ⊢
    split at hReason
    · next hDrops =>
      simp only [Bool.and_eq_true, decide_eq_true_eq] at hDrops
      rw [hDrops.2] at hReason
      simp at hReason
    · next hKeeps => rw [if_neg hKeeps]
  rw [hCurrent] at hLimit hTarget ⊢
  have hLimited := cleanupOvpnTrafficLimit_unchanged hLimit
  rw [hLimited] at hTarget ⊢
  rw [bne_eq_false_iff_eq] at hTarget
  rw [← hTarget]

/-! ## What a claim and a reconcile do to the rows -/

theorem pending_of_empty {st : WorkerState} (h : st.session = .empty) (k : PolicyKey) :
    st.pending k = st.policies.row? k := by
  unfold WorkerState.pending
  rw [h, Session.row?_commitInto]
  rfl

theorem policies_commit (st : WorkerState) (k : PolicyKey) :
    st.commit.policies.row? k = st.pending k := rfl

theorem pending_commit (st : WorkerState) (k : PolicyKey) : st.commit.pending k = st.pending k :=
  pending_of_empty rfl k

theorem pending_write {st : WorkerState} (h : st.session = .empty) (key : PolicyKey)
    (row : PolicyRow) (k : PolicyKey) :
    (st.write key row).pending k = if k = key then some row else st.policies.row? k := by
  unfold WorkerState.pending WorkerState.write
  rw [Session.row?_commitInto_of_fresh changedColumns_fresh, h, Session.view_write,
    Session.view_empty]
  rw [h]
  exact Session.fresh_write _ _ (Session.fresh_empty _ _)

theorem changedColumns_claimed (loaded current stored : PolicyRow) :
    changedColumns (claimedRow loaded) (claimedRow current) (claimedRow stored) =
      claimedRow (changedColumns loaded current stored) := by
  simp only [changedColumns, claimedRow, if_true]
  rfl

variable {st' : WorkerState} {key : PolicyKey} {cutoff : Time}

/-- A claim that matches: the row was due, and is the worker's. -/
theorem claim_some {st : WorkerState} (h : st.claim key cutoff = some st') :
    ∃ row old, st.policies.row? key = some row ∧ dueBy row cutoff = true ∧
      st.pending key = some old ∧
      (∀ k, st'.pending k = if k = key then some (claimedRow old) else st.pending k) ∧
      st'.attempts = st.attempts ∧ st'.services = st.services := by
  unfold WorkerState.claim at h
  cases hRow : st.policies.row? key with
  | none =>
    rw [hRow] at h
    simp at h
  | some row =>
    simp only [hRow] at h
    split at h
    · next hDue =>
      cases h
      obtain ⟨old, hOld⟩ : ∃ old, st.pending key = some old := by
        unfold WorkerState.pending
        rw [Session.row?_commitInto]
        cases st.session.objects.row? key with
        | none => exact ⟨row, hRow⟩
        | some o => exact ⟨_, rfl⟩
      refine ⟨row, old, rfl, hDue, hOld, ?_, rfl, rfl⟩
      intro k
      unfold WorkerState.pending at hOld ⊢
      rw [Session.row?_commitInto] at hOld ⊢
      simp only [Session.row?_sync]
      by_cases hk : k = key
      · subst hk
        rw [if_pos rfl, if_pos rfl, Table.row?_set_self]
        cases hObj : st.session.objects.row? k with
        | none =>
          rw [hObj, hRow] at hOld
          rw [Option.map_none, ← Option.some.inj hOld]
        | some o =>
          rw [hObj, hRow] at hOld
          simp only at hOld
          rw [Option.map_some, ← Option.some.inj hOld]
          cases hLoaded : o.loaded with
          | none => simp only [Session.writeBack, hLoaded, Option.map_none]
          | some loaded =>
            simp only [Session.writeBack, hLoaded, Option.map_some, changedColumns_claimed]
      · rw [if_neg hk, if_neg hk, Table.row?_set_of_ne _ _ hk, Session.row?_commitInto]
    · simp at h

/-- The reconcile of a claimed row ends the claim `a` on `row`. -/
structure ReconcileEnds (a : Attempt) (st : WorkerState) (row : PolicyRow) (r : Reading)
    (result : WorkerState × Bool) : Prop where
  attempts : result.1.attempts = st.attempts ++ [a]
  raised : result.2 = decide (a.outcome ≠ .succeeds)
  pending : ∀ k, result.1.pending k =
    if k = a.key ∧ a.outcome ≠ .failsBefore then some (reconciledRow a.key.protocol row r)
    else st.policies.row? k
  policies : ∀ k, result.1.policies.row? k =
    if k = a.key ∧ (a.outcome = .succeeds ∨
        (a.outcome = .failsEnforcing ∧ a.key.protocol = .openvpn)) then
      some (reconciledRow a.key.protocol row r)
    else st.policies.row? k

/-- The rows after an OpenVPN reconcile are committed, also when it does not commit. -/
theorem openvpn_rows {st : WorkerState}
    (hEmpty : st.session = .empty) (hRow : st.policies.row? key = some row) (k : PolicyKey) :
    let result := reconcileOpenvpn row r false
    let st' := if result.2 then (st.write key result.1).commit else st.write key result.1
    st'.pending k = (if k = key then some (reconciledRow .openvpn row r) else st.policies.row? k) ∧
      st'.policies.row? k = st'.pending k := by
  simp only
  rw [reconciledRow_openvpn, ← reconcileOpenvpn_row]
  split
  · exact ⟨by rw [pending_commit, pending_write hEmpty], (pending_commit _ k).symm⟩
  · next hSame =>
    rw [pending_write hEmpty, reconcileOpenvpn_unchanged (by simpa using hSame)]
    refine ⟨rfl, ?_⟩
    show st.policies.row? k = _
    split
    · next hk => rw [hk, hRow]
    · rfl

/-- A peer row is committed after the runtime call only. -/
theorem peer_rows {st : WorkerState} (key : PolicyKey) (row : PolicyRow) (outcome : ServiceOutcome)
    (hEmpty : st.session = .empty) (k : PolicyKey) :
    let result := (st.write key row).endPeer outcome
    result.1.pending k = (if k = key then some row else st.policies.row? k) ∧
      result.1.policies.row? k =
        (if outcome = .failsEnforcing then st.policies.row? k else result.1.pending k) ∧
      result.1.attempts = st.attempts ∧ result.2 = decide (outcome = .failsEnforcing) := by
  simp only [WorkerState.endPeer]
  split
  · next hFails =>
    rw [pending_write hEmpty, hFails]
    exact ⟨rfl, rfl, rfl, rfl⟩
  · next hOk =>
    rw [pending_commit, pending_write hEmpty, policies_commit, pending_write hEmpty]
    exact ⟨rfl, rfl, rfl, by simp [hOk]⟩

section

variable {st st₁ : WorkerState} {a : Attempt} {row : PolicyRow} {r : Reading}

theorem peer_ends (hEmpty : st₁.session = .empty) (hPolicies : st₁.policies = st.policies)
    (hAttempts : st₁.attempts = st.attempts ++ [a]) (hBefore : a.outcome ≠ .failsBefore)
    (hProtocol : a.key.protocol ≠ .openvpn) :
    ReconcileEnds a st row r
      ((st₁.write a.key (reconciledRow a.key.protocol row r)).endPeer a.outcome) := by
  have hRows := peer_rows a.key (reconciledRow a.key.protocol row r) a.outcome hEmpty
  simp only at hRows
  refine ⟨(hRows a.key).2.2.1.trans hAttempts, ?_, fun k => ?_, fun k => ?_⟩
  · rw [(hRows a.key).2.2.2]
    cases hOutcome : a.outcome <;> first | rfl | contradiction
  · rw [(hRows k).1, hPolicies]
    simp [hBefore]
  · rw [(hRows k).2.1, (hRows k).1, hPolicies]
    cases hOutcome : a.outcome <;> first | contradiction | simp [hProtocol]

/-- The end of a reconcile of OpenVPN, which commits before the ban file. -/
theorem openvpn_ends (hEmpty : st₁.session = .empty) (hPolicies : st₁.policies = st.policies)
    (hAttempts : st₁.attempts = st.attempts ++ [a]) (hBefore : a.outcome ≠ .failsBefore)
    (hProtocol : a.key.protocol = .openvpn) (hRow : st₁.policies.row? a.key = some row) :
    let result := reconcileOpenvpn row r false
    ReconcileEnds a st row r
      (if result.2 then (st₁.write a.key result.1).commit else st₁.write a.key result.1,
        decide (a.outcome = .failsEnforcing)) := by
  have hRows := openvpn_rows (r := r) hEmpty hRow
  simp only at hRows ⊢
  refine ⟨?_, ?_, fun k => ?_, fun k => ?_⟩
  · simp only
    split <;> exact hAttempts
  · cases hOutcome : a.outcome <;> first | rfl | contradiction
  · rw [(hRows k).1, hPolicies, hProtocol]
    simp [hBefore]
  · rw [(hRows k).2, (hRows k).1, hPolicies, hProtocol]
    have hSettles : a.outcome = .succeeds ∨ a.outcome = .failsEnforcing := by
      cases hOutcome : a.outcome <;> first | contradiction | simp
    simp [hSettles]

end

/-- **One reconcile**, however it ends. -/
theorem reconcile_ends (env : WorkerEnv) (pass : Pass) {st : WorkerState}
    (hEmpty : st.session = .empty) (hRow : st.policies.row? key = some row) :
    ReconcileEnds ⟨key, pass, env.outcome st.services⟩ st row (env.reading pass st.services)
      (st.reconcile env pass key) := by
  have hView : st.session.view st.policies key = some row := by
    rw [hEmpty, Session.view_empty, hRow]
  unfold WorkerState.reconcile
  simp only [hView]
  generalize env.reading pass st.services = r
  generalize hSt : ({ st with
    services := st.services + 1
    attempts := st.attempts ++ [⟨key, pass, env.outcome st.services⟩] } : WorkerState) = st₁
  have hEmpty₁ : st₁.session = .empty := by rw [← hSt, hEmpty]
  have hPolicies : st₁.policies = st.policies := by rw [← hSt]
  have hAttempts : st₁.attempts = st.attempts ++ [⟨key, pass, env.outcome st.services⟩] := by
    rw [← hSt]
  have hRow₁ : st₁.policies.row? key = some row := by rw [hPolicies, hRow]
  generalize env.outcome st.services = outcome at hAttempts ⊢
  by_cases hBefore : outcome = .failsBefore
  · subst hBefore
    rw [if_pos rfl]
    refine ⟨hAttempts, rfl, fun k => ?_, fun k => ?_⟩
    · rw [pending_of_empty hEmpty₁, hPolicies]
      simp
    · rw [hPolicies]
      simp
  rw [if_neg hBefore]
  cases hProtocol : key.protocol with
  | openvpn => exact openvpn_ends hEmpty₁ hPolicies hAttempts hBefore hProtocol hRow₁
  | wireguard =>
    have hNot : key.protocol ≠ .openvpn := by simp [hProtocol]
    simp only [reconcileWg, reconcilePeer_eq hNot]
    exact peer_ends hEmpty₁ hPolicies hAttempts hBefore hNot
  | amneziawg2 =>
    have hNot : key.protocol ≠ .openvpn := by simp [hProtocol]
    simp only [reconcileAwg2, reconcilePeer_eq hNot]
    exact peer_ends hEmpty₁ hPolicies hAttempts hBefore hNot

/-! ## The invariant of a run -/

/-- No row has changes that are not committed. -/
def Settled (st : WorkerState) : Prop := ∀ k, st.policies.row? k = st.pending k

theorem settled_commit (st : WorkerState) : Settled st.commit := fun k =>
  (pending_commit st k).symm

theorem settled_rollback (st : WorkerState) : Settled st.rollback := fun k =>
  (pending_of_empty rfl k).symm

/-- What holds of the worker's rows against the rows `before` the run. A row it has
not claimed keeps its reason; a claimed one says `access_expired` when a claim has
stored and it is not permanently banned. -/
structure Tracked (before : Table PolicyKey PolicyRow) (st : WorkerState) : Prop where
  permanent : ∀ k, permanentOf (st.pending k) = permanentOf (before.row? k)
  deadline : ∀ k, accessUntilOf (st.pending k) = accessUntilOf (st.policies.row? k)
  unclaimed : ∀ k, (∀ b ∈ st.attempts, b.key ≠ k) →
    reasonOf (st.pending k) = reasonOf (st.policies.row? k)
  claimed : ∀ a ∈ st.attempts, reasonOf (st.pending a.key) = some .accessExpired ↔
    permanentOf (before.row? a.key) = false ∧ ∃ b ∈ st.attempts, b.key = a.key ∧ b.stores

theorem Tracked.start (before : Table PolicyKey PolicyRow) :
    Tracked before ⟨before, .empty, 0, []⟩ := by
  have hPending : ∀ k, WorkerState.pending ⟨before, .empty, 0, []⟩ k = before.row? k :=
    pending_of_empty rfl
  exact ⟨fun k => by rw [hPending], fun k => by rw [hPending], fun k _ => by rw [hPending],
    fun a ha => absurd ha List.not_mem_nil⟩

variable {before : Table PolicyKey PolicyRow} {st : WorkerState}

theorem Tracked.commit (h : Tracked before st) : Tracked before st.commit where
  permanent := fun k => by rw [pending_commit, h.permanent]
  deadline := fun k => by rw [settled_commit]
  unclaimed := fun k _ => by rw [settled_commit]
  claimed := fun a ha => by
    rw [pending_commit]
    exact h.claimed a ha

/-- Rolling back is tracked when nothing but deadlines was uncommitted. -/
theorem Tracked.congr (h : Tracked before st) (hSettled : Settled st')
    (hAttempts : st'.attempts = st.attempts)
    (hPermanent : ∀ k, permanentOf (st'.pending k) = permanentOf (st.pending k))
    (hReason : ∀ k, reasonOf (st'.pending k) = reasonOf (st.pending k)) : Tracked before st' where
  permanent := fun k => by rw [hPermanent, h.permanent]
  deadline := fun k => by rw [hSettled]
  unclaimed := fun k _ => by rw [hSettled]
  claimed := fun a ha => by
    rw [hReason, hAttempts]
    exact h.claimed a (hAttempts ▸ ha)

/-- A claim that goes through, with its reconcile. -/
structure Claims (env : WorkerEnv) (pass : Pass) (cutoff : Time) (st : WorkerState)
    (key : PolicyKey) (old : PolicyRow) (result : WorkerState × Bool) : Prop where
  pending : st.pending key = some old
  due : ∃ row, st.policies.row? key = some row ∧ dueBy row cutoff = true
  ends : ∃ st' : WorkerState, st'.attempts = st.attempts ∧
    (∀ k, st'.policies.row? k = if k = key then some (claimedRow old) else st.pending k) ∧
    ReconcileEnds ⟨key, pass, env.outcome st.services⟩ st' (claimedRow old)
      (env.reading pass st.services) result

/-- The conditional `UPDATE` misses, or the row is claimed and reconciled. -/
theorem claimAndReconcile_cases (env : WorkerEnv) (nodes : List Nat) (pass : Pass) (cutoff : Time)
    (st : WorkerState) (key : PolicyKey) :
    (claimAndReconcile env nodes pass cutoff st key).1 = st ∨
      ∃ old, Claims env pass cutoff st key old
        (claimAndReconcile env nodes pass cutoff st key) := by
  unfold claimAndReconcile
  split
  · cases hClaim : st.claim key cutoff with
    | none => exact .inl rfl
    | some st' =>
      right
      obtain ⟨row, old, hRow, hDue, hOld, hPending, hAttempts, hServices⟩ := claim_some hClaim
      refine ⟨old, hOld, ⟨row, hRow, hDue⟩, st'.commit, hAttempts, ?_, ?_⟩
      · intro k
        rw [policies_commit, hPending]
      · have hClaimed : st'.commit.policies.row? key = some (claimedRow old) := by
          rw [policies_commit, hPending, if_pos rfl]
        have hEmpty : st'.commit.session = .empty := rfl
        have hEnds := reconcile_ends env pass hEmpty hClaimed
        have hSame : st'.commit.services = st.services := hServices
        rwa [hSame] at hEnds
  · exact .inl rfl

theorem policyAccessExpired_mono {t t' : Time} (hLe : t ≤ t')
    (h : policyAccessExpired row t = true) : policyAccessExpired row t' = true := by
  unfold policyAccessExpired at h ⊢
  cases hUntil : row.accessUntil with
  | none => rw [hUntil] at h; cases h
  | some u =>
    simp only [hUntil, decide_eq_true_eq] at h ⊢
    exact Int.le_trans h hLe

theorem policyAccessExpired_congr {row' : PolicyRow} (h : row.accessUntil = row'.accessUntil)
    (t : Time) : policyAccessExpired row t = policyAccessExpired row' t := by
  unfold policyAccessExpired
  rw [h]

/-- What a claim finds and what its reconcile would leave. -/
structure ClaimFacts (before : Table PolicyKey PolicyRow) (st : WorkerState) (key : PolicyKey)
    (old reconciled : PolicyRow) : Prop where
  wasPermanent : old.isPermanentBlocked = permanentOf (before.row? key)
  permanent : reconciled.isPermanentBlocked = old.isPermanentBlocked
  reason : reconciled.blockReason = some .accessExpired ↔ old.isPermanentBlocked = false
  notYet : reasonOf (st.policies.row? key) ≠ some .accessExpired

variable {env : WorkerEnv}

/-- What is known of a row once it is claimed. -/
theorem claim_facts {pass : Pass}
    {old : PolicyRow} {result : WorkerState × Bool} (h : Tracked before st)
    (hClaims : Claims env pass cutoff st key old result) (hCutoff : cutoff ≤ env.startedAt pass) :
    ClaimFacts before st key old
      (reconciledRow key.protocol (claimedRow old) (env.reading pass st.services)) := by
  obtain ⟨row, hRow, hDue⟩ := hClaims.due
  simp only [dueBy, Bool.and_eq_true, decide_eq_true_eq] at hDue
  -- the pending row has the deadline that the claim saw
  have hUntil : (claimedRow old).accessUntil = row.accessUntil := by
    have hSame := h.deadline key
    rwa [hClaims.pending, hRow] at hSame
  have hExpired : policyAccessExpired (claimedRow old) (env.reading pass st.services).now =
      true := by
    rw [policyAccessExpired_congr hUntil]
    exact policyAccessExpired_mono (Int.le_trans hCutoff (env.clock pass st.services)) hDue.1
  have hNamed : namedActor (claimedRow old).updatedBy = true := workerActor_named
  obtain ⟨hPermanent, hReason⟩ := reconciledRow_claimed key.protocol hNamed hExpired
  refine ⟨?_, hPermanent, hReason, ?_⟩
  · rw [← h.permanent key, hClaims.pending]
    rfl
  · rw [hRow]
    exact hDue.2

/-- A claim of another row, or one that stores nothing, does not tell a row's reason. -/
theorem stored_append_of_ne {as : List Attempt} {a : Attempt} (h : a.key ≠ key ∨ ¬ a.stores) :
    (∃ b ∈ as ++ [a], b.key = key ∧ b.stores) ↔ ∃ b ∈ as, b.key = key ∧ b.stores := by
  have hNot : ¬ (a.key = key ∧ a.stores) := by
    rintro ⟨hKey, hStores⟩
    rcases h with hOther | hNone
    · exact hOther hKey
    · exact hNone hStores
  simp only [List.mem_append, List.mem_singleton, or_and_right, exists_or, exists_eq_left, hNot,
    or_false]

/-- **One claim.** A state that has the claimed row as its claim stores it, and the
other rows as they were, is tracked. -/
theorem tracked_claim {pass : Pass}
    {old : PolicyRow} {result : WorkerState × Bool} (h : Tracked before st)
    (hClaims : Claims env pass cutoff st key old result) (hCutoff : cutoff ≤ env.startedAt pass)
    (hAttempts : st'.attempts = st.attempts ++ [⟨key, pass, env.outcome st.services⟩])
    (hPending : ∀ k, st'.pending k =
      if k = key then
        some (if (⟨key, pass, env.outcome st.services⟩ : Attempt).stores then
          reconciledRow key.protocol (claimedRow old) (env.reading pass st.services)
          else claimedRow old)
      else st.pending k)
    (hDeadline : ∀ k, accessUntilOf (st'.pending k) = accessUntilOf (st'.policies.row? k))
    (hUnclaimed : ∀ k, k ≠ key → (∀ b ∈ st.attempts, b.key ≠ k) →
      reasonOf (st'.pending k) = reasonOf (st'.policies.row? k)) : Tracked before st' := by
  have hFacts := claim_facts h hClaims hCutoff
  generalize reconciledRow key.protocol (claimedRow old) (env.reading pass st.services) =
    reconciled at hFacts hPending
  generalize hAttempt : (⟨key, pass, env.outcome st.services⟩ : Attempt) = a at hAttempts hPending
  have hKey : a.key = key := by rw [← hAttempt]
  refine ⟨?_, hDeadline, ?_, ?_⟩
  · intro k
    rw [hPending]
    split
    · next hk =>
      rw [hk, ← hFacts.wasPermanent]
      split
      · exact hFacts.permanent
      · rfl
    · exact h.permanent k
  · intro k hNone
    rw [hAttempts] at hNone
    have hOther : k ≠ key := fun hk =>
      hNone a (List.mem_append_right _ (List.mem_singleton_self a)) (hKey.trans hk.symm)
    exact hUnclaimed k hOther fun b hb => hNone b (List.mem_append_left _ hb)
  · intro b hb
    rw [hAttempts] at hb
    rw [hPending, hAttempts]
    by_cases hbKey : b.key = key
    · rw [if_pos hbKey, hbKey, ← hFacts.wasPermanent]
      -- the reason of a claimed row is that of its reconcile, if this is stored
      by_cases hStores : a.stores
      · rw [if_pos hStores]
        have hSome : ∃ b ∈ st.attempts ++ [a], b.key = key ∧ b.stores :=
          ⟨a, List.mem_append_right _ (List.mem_singleton_self a), hKey, hStores⟩
        exact hFacts.reason.trans (and_iff_left hSome).symm
      · rw [if_neg hStores, stored_append_of_ne (.inr hStores)]
        show old.blockReason = some .accessExpired ↔ _
        by_cases hClaimed : ∃ c ∈ st.attempts, c.key = key
        · obtain ⟨c, hc, hcKey⟩ := hClaimed
          have hTold := h.claimed c hc
          rw [hcKey, hClaims.pending, ← hFacts.wasPermanent] at hTold
          exact hTold
        · -- never claimed before: the pending reason is the one the claim saw
          push Not at hClaimed
          have hTold := h.unclaimed key hClaimed
          rw [hClaims.pending] at hTold
          refine iff_of_false (fun hIs => hFacts.notYet (hTold.symm.trans hIs)) ?_
          rintro ⟨-, c, hc, hcKey, -⟩
          exact hClaimed c hc hcKey
    · have hOld : b ∈ st.attempts := by
        rcases List.mem_append.mp hb with hb | hb
        · exact hb
        · exact absurd ((List.mem_singleton.mp hb) ▸ hKey) hbKey
      have hOther : a.key ≠ b.key := fun hSame => hbKey (hSame.symm.trans hKey)
      rw [if_neg hbKey, stored_append_of_ne (.inl hOther)]
      exact h.claimed b hOld

/-- The first pass goes on after an exception. -/
theorem tracked_access {nodes : List Nat} (h : Tracked before st) (key : PolicyKey) : Tracked before
      (claimAndReconcile env nodes .access (env.startedAt .access) st key).1 := by
  obtain hSame | ⟨old, hClaims⟩ := claimAndReconcile_cases env nodes .access (env.startedAt .access)
    st key
  · rw [hSame]
    exact h
  obtain ⟨st', hAttempts, hPolicies, hEnds⟩ := hClaims.ends
  have hStores : (⟨key, .access, env.outcome st.services⟩ : Attempt).stores ↔
      env.outcome st.services ≠ .failsBefore := by
    unfold Attempt.stores
    cases env.outcome st.services <;> simp
  refine tracked_claim h hClaims (Int.le_refl _) (by rw [hEnds.attempts, hAttempts]) ?_ ?_ ?_
  · intro k
    rw [hEnds.pending, hPolicies]
    by_cases hk : k = key
    · simp only [hk, true_and, if_true]
      by_cases hBefore : env.outcome st.services = .failsBefore
      · rw [if_neg (not_not.mpr hBefore), if_neg fun hs => hStores.mp hs hBefore]
      · rw [if_pos hBefore, if_pos (hStores.mpr hBefore)]
    · simp [hk]
  · intro k
    have hFrame := (Entered.settled_frame key.protocol ⟨claimedRow old, true, false⟩
      (env.reading .access st.services)).accessUntil
    rw [hEnds.pending, hEnds.policies, hPolicies]
    by_cases hk : k = key
    · subst hk
      simp only [true_and, if_true]
      split <;> split <;> first | rfl | exact hFrame | exact hFrame.symm
    · simp [hk]
  · intro k hk _
    rw [hEnds.pending, hEnds.policies]
    simp [hk]

theorem tracked_rollback (h : Tracked before st) (hSettled : Settled st) :
    Tracked before st.rollback := by
  have hSame : ∀ k, st.rollback.pending k = st.pending k := fun k =>
    (settled_rollback st k).symm.trans (hSettled k)
  exact h.congr (settled_rollback st) rfl (fun k => by rw [hSame]) fun k => by rw [hSame]

/-- The second pass: a claim that raises is rolled back. -/
theorem tracked_subscription (nodes : List Nat)
    (hCutoff : cutoff ≤ env.startedAt .subscription) (h : Tracked before st)
    (hSettled : Settled st) (key : PolicyKey) :
    let result := claimAndReconcile env nodes .subscription cutoff st key
    Tracked before result.1.rollback ∧
      (result.2 = false → Tracked before result.1 ∧ Settled result.1) := by
  intro result
  obtain hSame | ⟨old, hClaims⟩ := claimAndReconcile_cases env nodes .subscription cutoff st key
  · rw [show result.1 = st from hSame]
    exact ⟨tracked_rollback h hSettled, fun _ => ⟨h, hSettled⟩⟩
  obtain ⟨st', hAttempts, hPolicies, hEnds⟩ := hClaims.ends
  have hStores : (⟨key, .subscription, env.outcome st.services⟩ : Attempt).stores ↔
      (env.outcome st.services = .succeeds ∨
        (env.outcome st.services = .failsEnforcing ∧ key.protocol = .openvpn)) := by
    simp [Attempt.stores]
  -- what is committed at the end of the attempt, however it ended
  have hCommitted : ∀ k, result.1.policies.row? k =
      if k = key then
        some (if (⟨key, .subscription, env.outcome st.services⟩ : Attempt).stores then
          reconciledRow key.protocol (claimedRow old) (env.reading .subscription st.services)
          else claimedRow old)
      else st.pending k := by
    intro k
    rw [hEnds.policies, hPolicies]
    by_cases hk : k = key
    · simp only [hk, true_and, if_true]
      by_cases hStored : (⟨key, .subscription, env.outcome st.services⟩ : Attempt).stores
      · rw [if_pos (hStores.mp hStored), if_pos hStored]
      · rw [if_neg fun hIs => hStored (hStores.mpr hIs), if_neg hStored]
    · simp [hk]
  have hAll : result.1.attempts =
      st.attempts ++ [⟨key, .subscription, env.outcome st.services⟩] := by
    rw [hEnds.attempts, hAttempts]
  constructor
  · have hRolled := settled_rollback result.1
    exact tracked_claim h hClaims hCutoff hAll
      (fun k => (hRolled k).symm.trans (hCommitted k)) (fun k => by rw [hRolled])
      fun k _ _ => by rw [hRolled]
  · intro hOk
    have hSucceeds : env.outcome st.services = .succeeds := by
      have hRaised : result.2 = decide (env.outcome st.services ≠ .succeeds) := hEnds.raised
      rw [hOk] at hRaised
      simpa using hRaised.symm
    have hDone : Settled result.1 := by
      intro k
      rw [hEnds.policies, hEnds.pending]
      simp [hSucceeds]
    exact ⟨tracked_claim h hClaims hCutoff hAll (fun k => (hDone k).symm.trans (hCommitted k))
      (fun k => by rw [hDone]) (fun k _ _ => by rw [hDone]), hDone⟩

theorem tracked_claimAll {nodes : List Nat}
    (hCutoff : cutoff ≤ env.startedAt .subscription) (keys : List PolicyKey)
    (h : Tracked before st) (hSettled : Settled st) :
    let result := claimAll env nodes cutoff keys st
    Tracked before result.1.rollback ∧
      (result.2 = false → Tracked before result.1 ∧ Settled result.1) := by
  induction keys generalizing st with
  | nil => exact ⟨tracked_rollback h hSettled, fun _ => ⟨h, hSettled⟩⟩
  | cons key keys ih =>
    have hOne := tracked_subscription nodes hCutoff h hSettled key
    simp only [claimAll] at hOne ⊢
    split
    · next hRaised => exact ⟨hOne.1, fun hOk => by rw [hRaised] at hOk; cases hOk⟩
    · next hOk =>
      obtain ⟨hNext, hDone⟩ := hOne.2 (by simpa using hOk)
      exact ih hNext hDone

/-- Writing a missing deadline touches neither flag nor reason. -/
theorem pending_setAccessUntil (st : WorkerState) (key : PolicyKey) (t : Time) (n : Nat)
    (k : PolicyKey) :
    let seeded : WorkerState := { st with
      session := setAccessUntil st.session st.policies key (some t) workerActor
      services := n }
    permanentOf (seeded.pending k) = permanentOf (st.pending k) ∧
      reasonOf (seeded.pending k) = reasonOf (st.pending k) := by
  simp only [WorkerState.pending, setAccessUntil, Session.row?_commitInto, Session.row?_write]
  by_cases hk : k = key
  · subst hk
    rw [if_pos rfl]
    unfold Session.view
    cases st.session.objects.row? k with
    | none =>
      cases st.policies.row? k with
      | none => exact ⟨rfl, rfl⟩
      | some row =>
        simp only [Session.writeBack, changedColumns_fresh]
        exact ⟨rfl, rfl⟩
    | some o =>
      simp only [Session.writeBack]
      cases o.loaded <;> cases st.policies.row? k <;> exact ⟨rfl, rfl⟩
  · rw [if_neg hk]
    exact ⟨rfl, rfl⟩

theorem seedMissing_keeps (env : WorkerEnv) (nodes : List Nat) (t : Time)
    (keys : List PolicyKey) (st : WorkerState) :
    let result := seedMissing env nodes t keys st
    result.1.attempts = st.attempts ∧ result.1.policies = st.policies ∧
      ∀ k, permanentOf (result.1.pending k) = permanentOf (st.pending k) ∧
        reasonOf (result.1.pending k) = reasonOf (st.pending k) := by
  induction keys generalizing st with
  | nil => exact ⟨rfl, rfl, fun k => ⟨rfl, rfl⟩⟩
  | cons key keys ih =>
    have hKeeps := pending_setAccessUntil st key t (st.services + 1)
    simp only [seedMissing] at hKeeps ⊢
    split
    · split
      · exact ⟨rfl, rfl, hKeeps⟩
      · obtain ⟨hAttempts, hPolicies, hRest⟩ := ih { st with
          session := setAccessUntil st.session st.policies key (some t) workerActor
          services := st.services + 1 }
        refine ⟨hAttempts, hPolicies, fun k => ?_⟩
        exact ⟨(hRest k).1.trans (hKeeps k).1, (hRest k).2.trans (hKeeps k).2⟩
    · exact ⟨rfl, rfl, fun k => ⟨rfl, rfl⟩⟩

/-! ## The run -/

/-- One user of the second pass. -/
theorem tracked_applyUser (db : Db) (userId : Nat) {t : Time}
    (hCutoff : t ≤ env.startedAt .subscription) (h : Tracked before st) (hSettled : Settled st) :
    let result := applyUserSubscriptionExpiry env db userId t st
    Tracked before result.1.rollback ∧
      (result.2 = false → Tracked before result.1 ∧ Settled result.1) := by
  simp only [applyUserSubscriptionExpiry]
  generalize ((cascadeTargets db userId st).filter (·.2)).map (·.1) = missing
  obtain ⟨hAttempts, hPolicies, hKeeps⟩ := seedMissing_keeps env db.nodes t missing st
  split
  · next hRaised =>
    refine ⟨?_, fun hOk => by rw [hRaised] at hOk; cases hOk⟩
    have hBack : ∀ k, (seedMissing env db.nodes t missing st).1.rollback.pending k =
        st.pending k := by
      intro k
      rw [← hSettled, ← settled_rollback]
      show (seedMissing env db.nodes t missing st).1.policies.row? k = _
      rw [hPolicies]
    exact h.congr (settled_rollback _) hAttempts (fun k => by rw [hBack]) fun k => by rw [hBack]
  · have hSeeded : Tracked before (seedMissing env db.nodes t missing st).1.commit := by
      refine h.congr (settled_commit _) hAttempts (fun k => ?_) fun k => ?_
      · rw [pending_commit]
        exact (hKeeps k).1
      · rw [pending_commit]
        exact (hKeeps k).2
    exact tracked_claimAll hCutoff _ hSeeded (settled_commit _)

theorem tracked_expireUser {db : Db} (userId : Nat) (h : Tracked before st)
    (hSettled : Settled st) :
    Tracked before (expireUser env db st userId) ∧ Settled (expireUser env db st userId) := by
  unfold expireUser
  split
  · exact ⟨h, hSettled⟩
  split
  · next t _ hDue =>
    have hUser := tracked_applyUser db userId hDue h hSettled
    simp only at hUser ⊢
    split
    · exact ⟨hUser.1, settled_rollback _⟩
    · next hOk => exact hUser.2 (by simpa using hOk)
  · exact ⟨h, hSettled⟩

theorem tracked_runOnce (env : WorkerEnv) (db : Db) :
    Tracked db.policies (runOnce env db) ∧ Settled (runOnce env db) := by
  have hFirst : Tracked db.policies
      (applyDueAccessBlocks env db.nodes ⟨db.policies, .empty, 0, []⟩) := by
    unfold applyDueAccessBlocks
    exact List.foldlRecOn _ _ (Tracked.start db.policies).commit
      fun _ h key _ => tracked_access h (normalizedKey key)
  unfold runOnce applyDueUserSubscriptionBlocks
  exact List.foldlRecOn (motive := fun st => Tracked db.policies st ∧ Settled st) _ _
    ⟨hFirst.commit, settled_commit _⟩ fun _ h userId _ => tracked_expireUser userId h.1 h.2

/-- Every row whose enforcement raised is selected by the next run. -/
def NeverLosesABlock (env : WorkerEnv) (db : Db) : Prop :=
  ∀ a ∈ (runOnce env db).attempts, a.outcome = .failsEnforcing →
    reasonOf ((runOnce env db).policies.row? a.key) ≠ some .accessExpired

/-- **When the worker loses no block.** Every row whose enforcement raised stays due
exactly when each is permanently banned, or no claim of it stored its reason: all
were of a peer protocol, in the second pass, and raised. -/
theorem worker_keeps_blocks_iff (env : WorkerEnv) (db : Db) :
    NeverLosesABlock env db ↔
      ∀ a ∈ (runOnce env db).attempts, a.outcome = .failsEnforcing →
        permanentOf (db.policies.row? a.key) = true ∨
          ∀ b ∈ (runOnce env db).attempts, b.key = a.key → ¬ b.stores := by
  obtain ⟨hTracked, hSettled⟩ := tracked_runOnce env db
  unfold NeverLosesABlock
  refine forall₂_congr fun a ha => forall_congr' fun _ => ?_
  rw [hSettled, Ne, hTracked.claimed a ha, not_and_or, Bool.not_eq_false]
  push Not
  rfl

/-- A WireGuard client whose deadline is past. -/
def dueDb : Db where
  nodes := [0]
  users := Table.empty
  configs := []
  policies := Table.empty.set ⟨.wireguard, 0, "client"⟩ { accessUntil := some 0 }
  codes := Table.empty
  redemptions := []

/-- The node cannot be reached. -/
def failingEnv : WorkerEnv where
  startedAt := fun _ => 1
  reading := fun _ _ => ⟨1, fun _ => 0⟩
  outcome := fun _ => .failsEnforcing
  clock := fun _ _ => Int.le_refl 1

/-- The failed block is committed as done by the second pass, and never tried again. -/
theorem failed_block_lost : ¬ NeverLosesABlock failingEnv dueDb := by
  intro hKeeps
  have hRaised : (⟨⟨.wireguard, 0, "client"⟩, .access, .failsEnforcing⟩ : Attempt) ∈
      (runOnce failingEnv dueDb).attempts := by decide
  have hReason : reasonOf ((runOnce failingEnv dueDb).policies.row? ⟨.wireguard, 0, "client"⟩) =
      some .accessExpired := by decide
  exact hKeeps _ hRaised rfl hReason

end AdminPanel.Expiry
