import AdminPanel.Lib.Procedure
import AdminPanel.Unlock.Redeem

/-!
# What a redemption writes

The rows that a client-portal redemption leaves, step by step.

* `grantClient_applied`, `grantClient_other` — the session after the grants: an
  applied protocol has its granted row, no other row has changed;
* `commitRedemption_ok` — the committed tables;
* `redeemCommitted_ok` — the checks behind a redemption that committed;
* `grantClient_commit_other` — a redemption leaves the rows it does not apply to alone.
-/

namespace AdminPanel.Unlock

open Lib (Table Session bind_ok map_ok)
open Access Panel

/-! ## Loading and granting -/

@[simp] theorem view_loadPolicies (policies : Table PolicyKey PolicyRow) (nodeId : Nat)
    (name : String) (s : PolicySession) (k : PolicyKey) :
    (loadPolicies policies nodeId name s).view policies k = s.view policies k := by
  simp [loadPolicies, policyProtocols]

variable {policies : Table PolicyKey PolicyRow} {s : PolicySession} {k : PolicyKey}

theorem fresh_loadPolicies (nodeId : Nat) (name : String) (h : s.Fresh policies k) :
    (loadPolicies policies nodeId name s).Fresh policies k :=
  Session.fresh_load _ (Session.fresh_load _ (Session.fresh_load _ h))

section

variable (policies : Table PolicyKey PolicyRow)

/-- Each row of the profile is loaded as it is stored. -/
theorem row?_loadPolicies (nodeId : Nat) (name : String) (p : Protocol) :
    (loadPolicies policies nodeId name .empty).objects.row? (profileKey nodeId name p) =
      (policies.row? (profileKey nodeId name p)).map fun row => ⟨some row, row⟩ := by
  cases p <;> simp [loadPolicies, policyProtocols, Session.row?_load, profileKey, Session.empty]

/-- The row a redemption leaves for a protocol in its session. -/
def grantedRow (nodeId : Nat) (now : Time) (claim : Claim) (p : Protocol) : PolicyRow :=
  let key := profileKey nodeId claim.canonicalName p
  accessUntilColumns
    (match claim.policyRow nodeId p with
      | some row => clearPolicyBlock row "unlock_codes"
      | none => (policies.row? key).getD {})
    (some (clientGrant policies nodeId now claim p)) (some "unlock_codes")

/-- What the session's object of a row was loaded from, were the row accessed now. -/
def loadedRow (s : PolicySession) (k : PolicyKey) : Option PolicyRow :=
  match s.objects.row? k with
  | some o => o.loaded
  | none => policies.row? k

theorem grantProtocol_self (nodeId : Nat) (now : Time) (claim : Claim) (p : Protocol)
    (h : s.objects.row? (profileKey nodeId claim.canonicalName p) =
      claim.session.objects.row? (profileKey nodeId claim.canonicalName p)) :
    (grantProtocol policies nodeId now claim s p).objects.row?
        (profileKey nodeId claim.canonicalName p) =
      some ⟨loadedRow policies claim.session (profileKey nodeId claim.canonicalName p),
        grantedRow policies nodeId now claim p⟩ := by
  simp only [grantProtocol, setAccessUntil, grantedRow, loadedRow, Claim.policyRow]
  cases hObj : claim.session.objects.row? (profileKey nodeId claim.canonicalName p) with
  | none =>
    rw [hObj] at h
    simp [Session.row?_write, Session.view, h]
  | some o =>
    rw [hObj] at h
    simp [Session.row?_write, Session.view_write, h]

theorem grantProtocol_of_ne (nodeId : Nat) (now : Time)
    (claim : Claim) (s : PolicySession) (p : Protocol)
    (h : k ≠ profileKey nodeId claim.canonicalName p) :
    (grantProtocol policies nodeId now claim s p).objects.row? k = s.objects.row? k := by
  simp only [grantProtocol, setAccessUntil]
  cases claim.policyRow nodeId p <;> simp [Session.row?_write, h]

theorem foldl_grantProtocol_other (nodeId : Nat)
    (now : Time) (claim : Claim) (ps : List Protocol) (s : PolicySession)
    (h : ∀ p ∈ ps, k ≠ profileKey nodeId claim.canonicalName p) :
    (ps.foldl (grantProtocol policies nodeId now claim) s).objects.row? k =
      s.objects.row? k := by
  induction ps generalizing s with
  | nil => rfl
  | cons p ps ih =>
    rw [List.foldl_cons, ih _ fun q hq => h q (List.mem_cons_of_mem p hq),
      grantProtocol_of_ne _ _ _ _ _ _ (h p List.mem_cons_self)]

theorem grantClient_other (nodeId : Nat) (now : Time) (claim : Claim)
    (h : ∀ p ∈ claim.applied, k ≠ profileKey nodeId claim.canonicalName p) :
    (grantClient policies nodeId now claim).objects.row? k = claim.session.objects.row? k :=
  foldl_grantProtocol_other policies nodeId now claim claim.applied claim.session h

end

variable {p : Protocol}

/-- The loop grants each protocol once. -/
theorem foldl_grantProtocol_mem (policies : Table PolicyKey PolicyRow) (nodeId : Nat)
    (now : Time) (claim : Claim) {ps : List Protocol} (hNodup : ps.Nodup) (hMem : p ∈ ps)
    (h : s.objects.row? (profileKey nodeId claim.canonicalName p) =
      claim.session.objects.row? (profileKey nodeId claim.canonicalName p)) :
    (ps.foldl (grantProtocol policies nodeId now claim) s).objects.row?
        (profileKey nodeId claim.canonicalName p) =
      some ⟨loadedRow policies claim.session (profileKey nodeId claim.canonicalName p),
        grantedRow policies nodeId now claim p⟩ := by
  have hInj := profileKey_injective nodeId claim.canonicalName
  induction ps generalizing s with
  | nil => simp at hMem
  | cons q ps ih =>
    rw [List.nodup_cons] at hNodup
    rw [List.foldl_cons]
    by_cases hq : p = q
    · subst hq
      rw [foldl_grantProtocol_other]
      · exact grantProtocol_self policies nodeId now claim p h
      · intro r hr hKey
        exact hNodup.1 (hInj hKey ▸ hr)
    · have hRest := (List.mem_cons.mp hMem).resolve_left hq
      refine ih hNodup.2 hRest ?_
      rw [grantProtocol_of_ne _ _ _ _ _ _ fun hKey => hq (hInj hKey), h]

variable {claim : Claim}

theorem grantClient_applied (policies : Table PolicyKey PolicyRow) (nodeId : Nat) (now : Time)
    (hNodup : claim.applied.Nodup) (hMem : p ∈ claim.applied) :
    (grantClient policies nodeId now claim).objects.row?
        (profileKey nodeId claim.canonicalName p) =
      some ⟨loadedRow policies claim.session (profileKey nodeId claim.canonicalName p),
        grantedRow policies nodeId now claim p⟩ :=
  foldl_grantProtocol_mem policies nodeId now claim hNodup hMem rfl

theorem protocolsApplied_nodup (code : UnlockCode) (clientProtocols : List Protocol) :
    (protocolsApplied code clientProtocols).Nodup := by
  unfold protocolsApplied
  split
  · exact List.Nodup.filter _ (by decide)
  · exact List.Nodup.filter _ code.protocols_nodup

/-! ## Commit -/

variable {db db' : Db} {req : RedeemRequest}

theorem commitRedemption_ok {userUntil : Option Time}
    (h : commitRedemption db req userUntil s = .ok db') :
    alreadyRedeemed db req = false ∧
      db'.nodes = db.nodes ∧ db'.configs = db.configs ∧
      db'.policies = s.commitInto changedColumns db.policies ∧
      db'.codes = countRedemption db.codes req.codeText ∧
      db'.redemptions = db.redemptions ++ [req.redemption] := by
  unfold commitRedemption at h
  split at h
  · simp at h
  · next hNew =>
    cases h
    exact ⟨by simpa using hNew, rfl, rfl, rfl, rfl, rfl⟩

theorem row?_countRedemption (codes : Table String UnlockCode) (codeText c : String) :
    (countRedemption codes codeText).row? c =
      if c = codeText then
        (codes.row? c).map fun code => { code with redemptionCount := code.redemptionCount + 1 }
      else codes.row? c := by
  unfold countRedemption
  by_cases hc : c = codeText
  · subst hc
    rw [if_pos rfl]
    cases hRow : codes.row? c with
    | none => exact hRow
    | some code => exact Table.row?_set_self _ _ _
  · rw [if_neg hc]
    cases codes.row? codeText with
    | none => rfl
    | some code => exact Table.row?_set_of_ne _ _ hc

/-- A check that raises has let the call through. -/
theorem unless_ok {ε α : Type} {check : Bool} {e : ε} {x : Except ε α} {a : α}
    (h : (if check then .error e else x) = .ok a) : x = .ok a := by
  split at h
  · simp at h
  · exact h

/-- A redemption that commits, by a client or by a user. -/
theorem grantAndCommit_ok (h : grantAndCommit db req claim = .ok db') :
    alreadyRedeemed db req = false ∧ db'.codes = countRedemption db.codes req.codeText ∧
      db'.redemptions = db.redemptions ++ [req.redemption] := by
  have hCommit : ∃ userUntil s, commitRedemption db req userUntil s = .ok db' := by
    unfold grantAndCommit at h
    split at h
    · exact ⟨_, _, unless_ok h⟩
    · exact ⟨_, _, h⟩
  obtain ⟨userUntil, s, hCommit⟩ := hCommit
  obtain ⟨hNew, -, -, -, hCodes, hRedemptions⟩ := commitRedemption_ok hCommit
  exact ⟨hNew, hCodes, hRedemptions⟩

/-- A client-portal redemption after its reservation. -/
theorem grantAndCommit_client (db : Db) (claim : Claim) (hClient : req.userId = none) :
    grantAndCommit db req claim =
      commitRedemption db req none (grantClient db.policies req.nodeId req.now claim) := by
  unfold grantAndCommit
  rw [hClient]

/-- The claim of a redemption that has passed its checks. -/
structure Checked (db : Db) (req : RedeemRequest) (claim : Claim) : Prop where
  node : req.nodeId ∈ db.nodes
  code : checkCode req (db.codes.row? req.codeText) = .ok claim.code
  canonicalName : claim.canonicalName =
    (clientConfigNameAndProtocols db req.nodeId req.clientKey).1
  user : checkUser db req = .ok claim.user
  applied : checkDuplicate db req claim.code
    (clientConfigNameAndProtocols db req.nodeId req.clientKey).2 = .ok claim.applied
  session : claim.session = loadPolicies db.policies req.nodeId claim.canonicalName .empty
  notManual : manuallyBlocked req.nodeId claim = false
  slot : reservable claim.code req.now = true

theorem ensure_ok {check : Bool} {e : RedeemError} {u : Unit} (h : ensure check e = .ok u) :
    check = true := by
  unfold ensure at h
  split at h
  · assumption
  · simp at h

theorem redeemCommitted_ok (h : redeemCommitted db req = .ok (db', claim)) :
    Checked db req claim ∧ grantAndCommit db req claim = .ok db' := by
  unfold redeemCommitted at h
  obtain ⟨_, hNode, h⟩ := bind_ok h
  obtain ⟨code, hCode, h⟩ := bind_ok h
  obtain ⟨user, hUser, h⟩ := bind_ok h
  obtain ⟨applied, hApplied, h⟩ := bind_ok h
  obtain ⟨_, hManual, h⟩ := bind_ok h
  obtain ⟨_, hSlot, h⟩ := bind_ok h
  obtain ⟨db₁, hCommit, h⟩ := bind_ok h
  obtain ⟨rfl, rfl⟩ := Prod.mk.inj (Except.ok.inj h)
  refine ⟨⟨by simpa using ensure_ok hNode, hCode, rfl, hUser, hApplied, rfl, ?_, ensure_ok hSlot⟩,
    hCommit⟩
  have := ensure_ok hManual
  rwa [Bool.not_eq_true'] at this

/-- The checks, in the order of the call, are all a redemption needs. -/
theorem redeemCommitted_of_checked
    (h : Checked db req claim) (hCommit : grantAndCommit db req claim = .ok db') :
    redeemCommitted db req = .ok (db', claim) := by
  obtain ⟨code, canonicalName, applied, user, session⟩ := claim
  obtain ⟨hNode, hCode, hName, hUser, hApplied, hSession, hManual, hSlot⟩ := h
  simp only at hCode hName hUser hApplied hSession hSlot
  subst hName hSession
  unfold redeemCommitted ensure
  simp only [hNode, decide_true, if_true, hCode, hUser, hApplied, hManual, hSlot, hCommit,
    Bool.not_false, bind, Except.bind, pure, Except.pure]

theorem Checked.applied_eq (h : Checked db req claim) :
    alreadyRedeemed db req = false ∧ claim.applied ≠ [] ∧
      claim.applied = protocolsApplied claim.code
        (clientConfigNameAndProtocols db req.nodeId req.clientKey).2 := by
  have hApplied := h.applied
  unfold checkDuplicate at hApplied
  split at hApplied
  · simp at hApplied
  · next hNew =>
    split at hApplied
    · simp at hApplied
    · next hSome =>
      have hEq := Except.ok.inj hApplied
      exact ⟨by simpa using hNew, hEq ▸ hSome, hEq.symm⟩

theorem Checked.applied_nodup (h : Checked db req claim) : claim.applied.Nodup := by
  rw [h.applied_eq.2.2]
  exact protocolsApplied_nodup _ _

/-! ## Rows after the commit -/

theorem Checked.fresh
    (h : Checked db req claim) (k : PolicyKey) : claim.session.Fresh db.policies k := by
  rw [h.session]
  exact fresh_loadPolicies _ _ (Session.fresh_empty db.policies k)

theorem Checked.view (h : Checked db req claim) (k : PolicyKey) :
    claim.session.view db.policies k = db.policies.row? k := by
  rw [h.session, view_loadPolicies, Session.view_empty]

/-- A row that the session holds no object of, or an untouched one, is not written. -/
theorem commitInto_unchanged (hFresh : s.Fresh policies k)
    (hView : s.view policies k = policies.row? k) :
    (s.commitInto changedColumns policies).row? k = policies.row? k := by
  rw [Session.row?_commitInto_of_fresh changedColumns_fresh hFresh, hView]

/-- **Frame.** The rows a client-portal redemption does not apply to are not written. -/
theorem grantClient_commit_other (h : Checked db req claim)
    (hOther : ∀ p ∈ claim.applied, k ≠ profileKey req.nodeId claim.canonicalName p) :
    ((grantClient db.policies req.nodeId req.now claim).commitInto changedColumns
      db.policies).row? k = db.policies.row? k := by
  have hSame := grantClient_other db.policies req.nodeId req.now claim hOther
  apply commitInto_unchanged
  · intro o ho
    rw [hSame] at ho
    exact h.fresh k o ho
  · rw [← h.view k]
    unfold Session.view
    rw [hSame]

/-- The row that a client-portal redemption commits for an applied protocol. -/
theorem grantClient_commit_applied (h : Checked db req claim) (hMem : p ∈ claim.applied) :
    ((grantClient db.policies req.nodeId req.now claim).commitInto changedColumns
      db.policies).row? (profileKey req.nodeId claim.canonicalName p) =
      some (grantedRow db.policies req.nodeId req.now claim p) := by
  have hObj := grantClient_applied db.policies req.nodeId req.now h.applied_nodup hMem
  rw [Session.row?_commitInto_of_fresh changedColumns_fresh]
  · unfold Session.view
    rw [hObj]
  · intro o ho
    rw [hObj] at ho
    cases ho
    simp only [loadedRow]
    cases hOld : claim.session.objects.row? (profileKey req.nodeId claim.canonicalName p) with
    | none => rfl
    | some o => exact h.fresh _ o hOld

theorem Checked.policyRow_of_row (h : Checked db req claim) {row : PolicyRow}
    (hRow : db.policies.row? (profileKey req.nodeId claim.canonicalName p) = some row) :
    claim.policyRow req.nodeId p = some row := by
  rw [Claim.policyRow, h.session, row?_loadPolicies, hRow]
  rfl

/-- An applied protocol with a policy row has it cleared of its block. -/
theorem Checked.grantedRow_of_row (h : Checked db req claim) {row : PolicyRow}
    (hRow : db.policies.row? (profileKey req.nodeId claim.canonicalName p) = some row) :
    grantedRow db.policies req.nodeId req.now claim p =
      accessUntilColumns (clearPolicyBlock row "unlock_codes")
        (some (clientGrant db.policies req.nodeId req.now claim p)) (some "unlock_codes") := by
  simp only [grantedRow, h.policyRow_of_row hRow]

/-! ## Rows after the reconcile -/

/-- The row that a reconcile without a limit change leaves. -/
def reconciledRow (protocol : Protocol) (row : PolicyRow) (r : Reading) : PolicyRow :=
  (⟨row, true, false⟩ : Entered).settled protocol r

theorem row?_reconcileKey (policies : Table PolicyKey PolicyRow) (key : PolicyKey) (r : Reading)
    (k : PolicyKey) :
    (reconcileKey policies key r).row? k =
      if k = key then (policies.row? k).map fun row => reconciledRow key.protocol row r
      else policies.row? k := by
  unfold reconcileKey
  by_cases hk : k = key
  · subst hk
    rw [if_pos rfl]
    cases hRow : policies.row? k with
    | none => exact hRow
    | some row =>
      cases hp : k.protocol <;>
        simp [reconciledRow, Entered.settled, Entered.openvpn, Entered.peer, reconcileWg,
          reconcileAwg2, reconcilePeer_row, reconcileOpenvpn_row]
  · rw [if_neg hk]
    cases policies.row? key with
    | none => rfl
    | some row => cases key.protocol <;> simp [hk]

/-- A reconcile moves no deadline. -/
theorem accessUntilOf_reconcileKey (policies : Table PolicyKey PolicyRow) (key : PolicyKey)
    (r : Reading) (k : PolicyKey) :
    accessUntilOf ((reconcileKey policies key r).row? k) = accessUntilOf (policies.row? k) := by
  rw [row?_reconcileKey]
  split
  · cases policies.row? k with
    | none => rfl
    | some row => exact (Entered.settled_frame key.protocol ⟨row, true, false⟩ r).accessUntil
  · rfl

theorem foldl_reconcileKey_other (reading : PolicyKey → Reading) (keys : List PolicyKey)
    (policies : Table PolicyKey PolicyRow) (h : k ∉ keys) :
    (keys.foldl (fun policies key => reconcileKey policies key (reading key)) policies).row? k =
      policies.row? k := by
  induction keys generalizing policies with
  | nil => rfl
  | cons key keys ih =>
    rw [List.mem_cons, not_or] at h
    rw [List.foldl_cons, ih _ h.2, row?_reconcileKey, if_neg h.1]

/-- What every reconcile keeps of a row, a series of reconciles keeps. -/
theorem foldl_reconcileKey_keeps {P : PolicyRow → Prop}
    (hKeeps : ∀ row r, P row → P (reconciledRow k.protocol row r))
    (reading : PolicyKey → Reading) (keys : List PolicyKey)
    (h : ∃ row, policies.row? k = some row ∧ P row) :
    ∃ row, (keys.foldl (fun policies key => reconcileKey policies key (reading key))
      policies).row? k = some row ∧ P row := by
  induction keys generalizing policies with
  | nil => exact h
  | cons key keys ih =>
    rw [List.foldl_cons]
    apply ih
    obtain ⟨row, hRow, hP⟩ := h
    rw [row?_reconcileKey]
    by_cases hk : k = key
    · subst hk
      exact ⟨_, by rw [if_pos rfl, hRow]; rfl, hKeeps row _ hP⟩
    · exact ⟨row, by rw [if_neg hk]; exact hRow, hP⟩

end AdminPanel.Unlock
