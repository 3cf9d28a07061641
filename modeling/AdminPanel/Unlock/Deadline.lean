import AdminPanel.Unlock.Concurrent

/-!
# Deadlines under redemptions

What the steps of a client-portal redemption do to the deadlines of policy rows,
whatever its session has loaded.

* `commit_deadline` — a redemption commits the deadline its session sees, moved by
  the days of the code;
* `deadlineAt_reconcileEnding` — a reconcile moves no deadline;
* `lookup_commit` — a redemption leaves config name and protocols of the client as
  they are, also where the policy rows tell them.
-/

namespace AdminPanel.Unlock

open Lib (Table Session)
open Access Panel

/-! ## What a commit writes -/

/-- The session's object of the row, if any, has the values it was loaded with. -/
def Untouched (s : PolicySession) (key : PolicyKey) : Prop :=
  ∀ o, s.objects.row? key = some o → o.loaded = some o.current

theorem grantedUntil_ne (deadline : Option Time) (now : Time) {days : Int} (hDays : 1 ≤ days) :
    some (grantedUntil deadline now days) ≠ deadline := by
  intro hEq
  obtain ⟨t, rfl⟩ : ∃ t, deadline = some t := ⟨_, hEq.symm⟩
  have hGrant : grantedUntil (some t) now days = t := Option.some.inj hEq
  have hLe : t ≤ max now t := le_max_right now t
  exact absurd hGrant (ne_of_gt (Int.lt_add_of_le_of_pos hLe (timedeltaDays_pos hDays)))

theorem changedColumns_accessUntil {loaded current : PolicyRow} (stored : PolicyRow)
    (h : current.accessUntil ≠ loaded.accessUntil) :
    (changedColumns loaded current stored).accessUntil = current.accessUntil := by
  simp only [changedColumns, if_neg h]

variable {db db' : Db} {req : RedeemRequest} {claim : Claim}

/-- **A redemption commits the deadline its session sees, moved by the days of the
code.** -/
theorem commit_deadline {p : Protocol}
    (hClient : req.userId = none) (hFree : claim.code.allowedClientNames = [])
    (hNodup : claim.applied.Nodup) (hMem : p ∈ claim.applied)
    (hUntouched : Untouched claim.session (profileKey req.nodeId claim.canonicalName p))
    (hCommit : grantAndCommit db req claim = .ok db') :
    deadlineAt db' (profileKey req.nodeId claim.canonicalName p) =
      some (grantedUntil
        (accessUntilOf (claim.session.view db.policies
          (profileKey req.nodeId claim.canonicalName p)))
        req.now claim.code.grantDays) := by
  rw [grantAndCommit_client db claim hClient] at hCommit
  obtain ⟨-, -, -, hPolicies, -, -⟩ := commitRedemption_ok hCommit
  have hObj := grantClient_applied db.policies req.nodeId req.now hNodup hMem
  have hUntil : (grantedRow db.policies req.nodeId req.now claim p).accessUntil =
      some (grantedUntil
        (accessUntilOf (claim.session.view db.policies
          (profileKey req.nodeId claim.canonicalName p)))
        req.now claim.code.grantDays) := by
    simp only [grantedRow, accessUntilColumns, clientGrant, hFree, ne_eq, not_true_eq_false,
      if_false]
  rw [deadlineAt, hPolicies, Session.row?_commitInto, hObj, ← hUntil]
  show (Session.writeBack changedColumns _ _).accessUntil = _
  unfold Session.writeBack
  cases hOld : claim.session.objects.row? (profileKey req.nodeId claim.canonicalName p) with
  | none =>
    -- the row is read under the lock: what was loaded is what is stored
    have hLoaded : loadedRow db.policies claim.session
        (profileKey req.nodeId claim.canonicalName p) =
        db.policies.row? (profileKey req.nodeId claim.canonicalName p) := by
      simp only [loadedRow, hOld]
    simp only [hLoaded]
    cases db.policies.row? (profileKey req.nodeId claim.canonicalName p) with
    | none => rfl
    | some stored => simp only [changedColumns_fresh]
  | some o =>
    have hLoaded : loadedRow db.policies claim.session
        (profileKey req.nodeId claim.canonicalName p) = some o.current := by
      simp only [loadedRow, hOld, hUntouched o hOld]
    have hView : claim.session.view db.policies (profileKey req.nodeId claim.canonicalName p) =
        some o.current := by
      simp only [Session.view, hOld]
    simp only [hLoaded]
    cases db.policies.row? (profileKey req.nodeId claim.canonicalName p) with
    | none => rfl
    | some stored =>
      apply changedColumns_accessUntil
      rw [hUntil, hView]
      exact grantedUntil_ne _ _ claim.code.grantDays_pos

/-- A reconcile leaves deadlines alone. -/
theorem deadlineAt_reconcileEnding (db : Db) (key k : PolicyKey) (r : Reading) (outcome : Outcome) :
    deadlineAt { db with policies := reconcileEnding db.policies key r outcome } k =
      deadlineAt db k := by
  have hKey := accessUntilOf_reconcileKey db.policies key r k
  cases outcome with
  | succeeds => exact hKey
  | fails afterCommit =>
    simp only [deadlineAt, reconcileEnding]
    split
    · exact hKey
    · rfl

/-! ## The lookup of the client -/

/-- New policy rows of protocols that the client has do not change its lookup. -/
theorem lookup_append {nodeId : Nat} {clientKey : String}
    {added : List PolicyKey} (hConfigs : db'.configs = db.configs)
    (hKeys : db'.policies.keys = db.policies.keys ++ added)
    (hAdded : ∀ k ∈ added, k.protocol ∈ (clientConfigNameAndProtocols db nodeId clientKey).2) :
    clientConfigNameAndProtocols db' nodeId clientKey =
      clientConfigNameAndProtocols db nodeId clientKey := by
  unfold clientConfigNameAndProtocols at hAdded ⊢
  simp only [hConfigs, hKeys, List.filter_append] at hAdded ⊢
  split at hAdded
  · rfl
  · next hNone =>
    have hEmpty : ∀ p : Protocol,
        db.policies.keys.filter (fun k => k.protocol = p && k.nodeId = nodeId &&
          lower k.clientName = normalizeClientName clientKey) = [] →
        added.filter (fun k => k.protocol = p && k.nodeId = nodeId &&
          lower k.clientName = normalizeClientName clientKey) = [] := by
      intro p hp
      rw [List.filter_eq_nil_iff]
      intro k hk hMatch
      simp only [Bool.and_eq_true, decide_eq_true_eq] at hMatch
      have hHas := (List.mem_filter.mp (hAdded k hk)).2
      rw [hMatch.1.1, hp] at hHas
      simp at hHas
    refine Prod.ext ?_ ?_
    · simp only
      cases hNamed : db.policies.keys.filter (fun k => k.protocol = .openvpn &&
          k.nodeId = nodeId && lower k.clientName = normalizeClientName clientKey) with
      | nil => rw [hEmpty _ hNamed, List.append_nil]
      | cons k ks => rfl
    · simp only
      apply List.filter_congr
      intro p _
      cases hNamed : db.policies.keys.filter (fun k => k.protocol = p &&
          k.nodeId = nodeId && lower k.clientName = normalizeClientName clientKey) with
      | nil => rw [hEmpty _ hNamed, List.append_nil]
      | cons k ks => rfl

theorem keys_reconcileEnding (policies : Table PolicyKey PolicyRow) (key : PolicyKey)
    (r : Reading) (outcome : Outcome) :
    (reconcileEnding policies key r outcome).keys = policies.keys := by
  have hKey : (reconcileKey policies key r).keys = policies.keys := by
    unfold reconcileKey
    cases hRow : policies.row? key with
    | none => rfl
    | some row => cases key.protocol <;> exact Table.keys_set_of_some hRow
  cases outcome with
  | succeeds => exact hKey
  | fails afterCommit =>
    simp only [reconcileEnding]
    split
    · exact hKey
    · rfl

/-- The rows that a redemption creates are those of protocols it applies to. -/
theorem commit_keys (hClient : req.userId = none)
    (hLoaded : ∀ k ∈ claim.session.objects.keys, k ∈ db.policies.keys)
    (hCommit : grantAndCommit db req claim = .ok db') :
    ∃ added, db'.policies.keys = db.policies.keys ++ added ∧
      ∀ k ∈ added, k.protocol ∈ claim.applied := by
  rw [grantAndCommit_client db claim hClient] at hCommit
  obtain ⟨-, -, -, hPolicies, -, -⟩ := commitRedemption_ok hCommit
  obtain ⟨added, hKeys, hAdded⟩ := Table.keys_absorb db.policies
    (grantClient db.policies req.nodeId req.now claim).objects (Session.writeBack changedColumns)
  refine ⟨added, by rw [hPolicies]; exact hKeys, ?_⟩
  intro k hk
  obtain ⟨hObj, hNew⟩ := hAdded k hk
  by_contra hNot
  have hOther : ∀ p ∈ claim.applied, k ≠ profileKey req.nodeId claim.canonicalName p := by
    rintro p hp rfl
    rw [profileKey_protocol] at hNot
    exact hNot hp
  rw [Table.mem_keys, grantClient_other db.policies req.nodeId req.now claim hOther,
    ← Table.mem_keys] at hObj
  exact hNew (hLoaded k hObj)

theorem lookup_commit {clientKey : String} (hClient : req.userId = none)
    (hLoaded : ∀ k ∈ claim.session.objects.keys, k ∈ db.policies.keys)
    (hApplied : ∀ p ∈ claim.applied,
      p ∈ (clientConfigNameAndProtocols db req.nodeId clientKey).2)
    (hCommit : grantAndCommit db req claim = .ok db') :
    clientConfigNameAndProtocols db' req.nodeId clientKey =
      clientConfigNameAndProtocols db req.nodeId clientKey := by
  obtain ⟨added, hKeys, hAdded⟩ := commit_keys hClient hLoaded hCommit
  rw [grantAndCommit_client db claim hClient] at hCommit
  obtain ⟨-, -, hConfigs, -, -, -⟩ := commitRedemption_ok hCommit
  exact lookup_append hConfigs hKeys fun k hk => hApplied _ (hAdded k hk)

end AdminPanel.Unlock
