import AdminPanel.Access.Agreement
import AdminPanel.Unlock.Effect

/-!
# Unlock codes and the administrator's bans

`_is_manual_admin_block` and `_clear_policy_block` tell a ban of the
administrator by the permanent flag or by the stored reason, `manual_temp` or
`manual_permanent`. The reason is not theirs to rely on: the OpenVPN reconcile
stores `temp` for a temporary ban, and every reconcile stores `access_expired`
for one whose client is also past its deadline.

* `redemption_keeps_ban_iff` — a redemption leaves an unlapsed ban alone, over
  all databases and codes, exactly when the row has the permanent flag or one of
  the two words.
-/

namespace AdminPanel.Unlock

open Lib (Table Session bind_ok)
open Access Panel

/-- The row of a fresh client after the administrator's calls. -/
def rowAfter (protocol : Protocol) (calls : List Call) : PolicyRow :=
  calls.foldl (fun row c => callRow protocol c row) {}

/-- An unlapsed ban: permanent, or temporary and not over. -/
def banActive (row : PolicyRow) (now : Time) : Bool :=
  row.isPermanentBlocked || tempActive row now

structure SameBanFlags (row row' : PolicyRow) : Prop where
  temp : row'.isTempBlocked = row.isTempBlocked
  perm : row'.isPermanentBlocked = row.isPermanentBlocked
  until_ : row'.blockUntil = row.blockUntil

/-- The redemption raises, or leaves the ban flags of the row as they were. -/
def KeepsBan (db : Db) (req : RedeemRequest) (consumed : PolicyKey → Option Int → Int)
    (key : PolicyKey) (row : PolicyRow) : Prop :=
  ∀ db', redeemUnlockCode db req consumed = .ok db' →
    ∃ row', db'.policies.row? key = some row' ∧ SameBanFlags row row'

/-- Every client-portal redemption at `now`, in every database that has the row,
keeps its ban. -/
def AlwaysKeepsBan (protocol : Protocol) (row : PolicyRow) (now : Time) : Prop :=
  ∀ db req consumed key, key.protocol = protocol → db.policies.row? key = some row →
    req.userId = none → req.now = now → KeepsBan db req consumed key row

/-! ## What the guard recognises is left alone -/

variable {db : Db} {req : RedeemRequest} {row : PolicyRow}

/-- A redemption that went through does not apply to a row the guard recognises. -/
theorem Checked.not_applied_of_manual {claim : Claim} (h : Checked db req claim) {key : PolicyKey}
    (hRow : db.policies.row? key = some row) (hManual : isManualAdminBlock (some row) = true) :
    ∀ p ∈ claim.applied, key ≠ profileKey req.nodeId claim.canonicalName p := by
  rintro p hMem rfl
  have hNot := h.notManual
  unfold manuallyBlocked at hNot
  rw [List.any_eq_false] at hNot
  refine hNot p hMem ?_
  rw [h.policyRow_of_row hRow]
  exact hManual

/-- A row that the word test finds is left alone. -/
theorem guarded_keeps_ban {consumed : PolicyKey → Option Int → Int} {key : PolicyKey}
    (hClient : req.userId = none) (hRow : db.policies.row? key = some row)
    (hManual : isManualAdminBlock (some row) = true) : KeepsBan db req consumed key row := by
  intro db' hRedeem
  unfold redeemUnlockCode at hRedeem
  obtain ⟨⟨db₁, claim⟩, hCommitted, hOk⟩ := bind_ok hRedeem
  cases hOk
  obtain ⟨hChecked, hCommit⟩ := redeemCommitted_ok hCommitted
  rw [grantAndCommit_client db claim hClient] at hCommit
  obtain ⟨-, -, -, hPolicies, -, -⟩ := commitRedemption_ok hCommit
  have hOther := hChecked.not_applied_of_manual hRow hManual
  have hKeys : key ∉ reconciledKeys db₁ req claim := by
    unfold reconciledKeys
    rw [hClient, List.mem_map]
    rintro ⟨p, hMem, rfl⟩
    exact hOther p hMem rfl
  refine ⟨row, ?_, ⟨rfl, rfl, rfl⟩⟩
  simp only
  rw [foldl_reconcileKey_other (fun key => ⟨req.now, consumed key⟩) _ _ hKeys, hPolicies,
    grantClient_commit_other hChecked hOther, hRow]

/-! ## What it does not recognise can be lifted -/

theorem reconciledRow_temp (h : row.isTempBlocked = false) (protocol : Protocol) (r : Reading) :
    (reconciledRow protocol row r).isTempBlocked = false := by
  have hClean : (cleanupTempBlock row r.now).isTempBlocked = false := by
    unfold cleanupTempBlock
    split <;> simp [h]
  have hColumns : (if ovpnClears (cleanupTempBlock row r.now) r false then
      clearBlockColumns (cleanupTempBlock row r.now)
      else cleanupTempBlock row r.now).isTempBlocked = false := by
    split <;> exact hClean
  cases protocol
  · exact hColumns
  · exact hClean
  · exact hClean

theorem clearPolicyBlock_temp (hPerm : row.isPermanentBlocked = false)
    (hReason : manualReason row.blockReason = false) (actor : String) :
    (clearPolicyBlock row actor).isTempBlocked = false := by
  unfold clearPolicyBlock
  rw [hPerm, hReason]
  rfl

/-- A redemption that applies to a row the guard does not recognise clears its
temporary block. -/
theorem redeemed_temp {db' : Db} {claim : Claim}
    {consumed : PolicyKey → Option Int → Int} (hClient : req.userId = none)
    (hChecked : Checked db req claim) (hRedeem : redeemUnlockCode db req consumed = .ok db')
    (hCommitted : ∃ db₁, redeemCommitted db req = .ok (db₁, claim))
    {p : Protocol} (hMem : p ∈ claim.applied)
    (hRow : db.policies.row? (profileKey req.nodeId claim.canonicalName p) = some row)
    (hPerm : row.isPermanentBlocked = false) (hReason : manualReason row.blockReason = false) :
    ∃ row', db'.policies.row? (profileKey req.nodeId claim.canonicalName p) = some row' ∧
      row'.isTempBlocked = false := by
  obtain ⟨db₁, hCommitted⟩ := hCommitted
  have hCommit := (redeemCommitted_ok hCommitted).2
  rw [grantAndCommit_client db claim hClient] at hCommit
  obtain ⟨-, -, -, hPolicies, -, -⟩ := commitRedemption_ok hCommit
  unfold redeemUnlockCode at hRedeem
  rw [hCommitted] at hRedeem
  cases hRedeem
  have hGranted := grantClient_commit_applied hChecked hMem
  rw [← hPolicies] at hGranted
  refine foldl_reconcileKey_keeps (fun row r h => reconciledRow_temp h _ r)
    (fun key => ⟨req.now, consumed key⟩) _ ⟨_, hGranted, ?_⟩
  rw [hChecked.grantedRow_of_row hRow]
  exact clearPolicyBlock_temp hPerm hReason "unlock_codes"

def vpnTypeOf : Protocol → VpnType
  | .openvpn => .openvpn
  | .wireguard => .wireguard
  | .amneziawg2 => .amneziawg2

section

variable (protocol : Protocol)

/-- The profile that `portalDb` holds. -/
def portalKey : PolicyKey := ⟨protocol, 0, "client"⟩

/-- A code for one day of one protocol, for anyone and once. -/
def portalCode : UnlockCode where
  grantDays := 1
  protocols := [protocol]
  maxRedemptions := 1
  redemptionCount := 0
  allowedClientNames := []
  codeExpiresAt := none
  revokedAt := none
  grantDays_pos := by decide
  protocols_nodup := List.nodup_singleton protocol

/-- One node, one client with one config and its policy row, one code. -/
def portalDb (row : PolicyRow) : Db where
  nodes := [0]
  users := Table.empty
  configs := [⟨0, "client", vpnTypeOf protocol, none, false⟩]
  policies := Table.empty.set (portalKey protocol) row
  codes := Table.empty.set "UNLOCK-1" (portalCode protocol)
  redemptions := []

def portalRequest (now : Time) : RedeemRequest := ⟨"UNLOCK-1", "client", 0, none, now⟩

def portalClaim (row : PolicyRow) : Claim where
  code := portalCode protocol
  canonicalName := "client"
  applied := [protocol]
  user := none
  session := loadPolicies (portalDb protocol row).policies 0 "client" .empty

theorem portalKey_eq : profileKey 0 "client" protocol = portalKey protocol := by
  cases protocol <;> decide

theorem portal_codeText (now : Time) : (portalRequest now).codeText = "UNLOCK-1" := by
  show upper (stripped "UNLOCK-1") = "UNLOCK-1"
  decide

theorem portal_clientKey (now : Time) : (portalRequest now).clientKey = "client" := by
  show normalizeClientName "client" = "client"
  decide

theorem portal_config (row : PolicyRow) :
    clientConfigNameAndProtocols (portalDb protocol row) 0 "client" = ("client", [protocol]) := by
  have hKey : normalizeClientName "client" = "client" := by decide
  have hLower : lower "client" = "client" := by decide
  have hStripped : stripped "client" = "client" := by decide
  have hProtocol : (vpnTypeOf protocol).protocol? = some protocol := by cases protocol <;> rfl
  simp [clientConfigNameAndProtocols, portalDb, hKey, hLower, hStripped, hProtocol]

theorem portal_checked (row : PolicyRow) (now : Time)
    (hManual : isManualAdminBlock (some row) = false) :
    Checked (portalDb protocol row) (portalRequest now) (portalClaim protocol row) where
  node := List.mem_singleton_self 0
  code := by
    have hFound : (portalDb protocol row).codes.row? "UNLOCK-1" = some (portalCode protocol) :=
      Table.row?_set_self _ _ _
    rw [portal_codeText, hFound]
    rfl
  canonicalName := by
    rw [portal_clientKey]
    exact (congrArg Prod.fst (portal_config protocol row)).symm
  user := rfl
  applied := by
    have hProtocols := congrArg Prod.snd (portal_config protocol row)
    rw [portal_clientKey]
    simp only [portalRequest, hProtocols]
    simp [checkDuplicate, alreadyRedeemed, portalDb, protocolsApplied, portalClaim, portalCode]
  session := rfl
  notManual := by
    have hRow : (portalDb protocol row).policies.row? (portalKey protocol) = some row :=
      Table.row?_set_self _ _ _
    have hLoaded := row?_loadPolicies (portalDb protocol row).policies 0 "client" protocol
    rw [portalKey_eq, hRow] at hLoaded
    unfold manuallyBlocked Claim.policyRow
    simp only [portalClaim, List.any_cons, List.any_nil, Bool.or_false]
    rw [show (portalRequest now).nodeId = 0 from rfl, portalKey_eq, hLoaded]
    exact hManual
  slot := rfl

end

/-- A ban that is temporary, or stored under another word, is lifted by a code. -/
theorem unguarded_ban_lifted {protocol : Protocol} {now : Time}
    (hBan : banActive row now = true) (hPerm : row.isPermanentBlocked = false)
    (hReason : manualReason row.blockReason = false) :
    ¬ KeepsBan (portalDb protocol row) (portalRequest now) (fun _ _ => 0) (portalKey protocol)
      row := by
  intro hKeeps
  have hManual : isManualAdminBlock (some row) = false := by
    rw [isManualAdminBlock_some, hPerm, hReason]
    rfl
  have hChecked := portal_checked protocol row now hManual
  have hNew : alreadyRedeemed (portalDb protocol row) (portalRequest now) = false := rfl
  obtain ⟨db₁, hCommit⟩ : ∃ db₁, grantAndCommit (portalDb protocol row) (portalRequest now)
      (portalClaim protocol row) = .ok db₁ := by
    rw [grantAndCommit_client _ _ rfl]
    unfold commitRedemption
    rw [hNew]
    exact ⟨_, rfl⟩
  have hCommitted := redeemCommitted_of_checked hChecked hCommit
  obtain ⟨db', hRedeem⟩ : ∃ db', redeemUnlockCode (portalDb protocol row) (portalRequest now)
      (fun _ _ => 0) = .ok db' := by
    unfold redeemUnlockCode
    rw [hCommitted]
    exact ⟨_, rfl⟩
  have hRow : (portalDb protocol row).policies.row? (profileKey 0 "client" protocol) =
      some row := by
    rw [portalKey_eq]
    exact Table.row?_set_self _ _ _
  obtain ⟨row₁, hAfter, hTemp⟩ := redeemed_temp rfl hChecked hRedeem ⟨db₁, hCommitted⟩
    (List.mem_singleton_self protocol) hRow hPerm hReason
  obtain ⟨row₂, hAfter', hSame⟩ := hKeeps db' hRedeem
  have hKey : profileKey (portalRequest now).nodeId (portalClaim protocol row).canonicalName
      protocol = portalKey protocol := portalKey_eq protocol
  rw [hKey, hAfter'] at hAfter
  cases hAfter
  rw [hSame.temp] at hTemp
  rw [banActive, hPerm, tempActive, hTemp] at hBan
  simp at hBan

/-- **When a redemption leaves the administrator's ban alone.** For every row that
calls of the service lead to and that carries an unlapsed ban, all redemptions
keep the ban exactly when the row has the permanent flag or stores one of the
words `manual_temp` and `manual_permanent`. -/
theorem redemption_keeps_ban_iff (protocol : Protocol) (calls : List Call) (now : Time)
    (hBan : banActive (rowAfter protocol calls) now = true) :
    AlwaysKeepsBan protocol (rowAfter protocol calls) now ↔
      (rowAfter protocol calls).isPermanentBlocked = true ∨
        manualReason (rowAfter protocol calls).blockReason = true := by
  generalize rowAfter protocol calls = row at hBan ⊢
  constructor
  · intro hAlways
    by_contra hNot
    rw [not_or, Bool.not_eq_true, Bool.not_eq_true] at hNot
    have hKeeps := hAlways (portalDb protocol row) (portalRequest now) (fun _ _ => 0)
      (portalKey protocol) rfl (Table.row?_set_self _ _ _) rfl rfl
    exact unguarded_ban_lifted hBan hNot.1 hNot.2 hKeeps
  · intro hGuard db req consumed key _ hRow hClient _
    refine guarded_keeps_ban hClient hRow ?_
    rw [isManualAdminBlock_some]
    rcases hGuard with h | h <;> simp [h]

def tempBan : List Call := [⟨.tempBlock 7, some "admin", ⟨0, fun _ => 0⟩⟩]

theorem peer_temp_ban_kept : AlwaysKeepsBan .wireguard (rowAfter .wireguard tempBan) 1 :=
  (redemption_keeps_ban_iff .wireguard tempBan 1 (by decide)).mpr (Or.inr (by decide))

/-- A temporary ban of an OpenVPN client, lifted with a code a moment later. -/
theorem openvpn_temp_ban_lifted : ¬ AlwaysKeepsBan .openvpn (rowAfter .openvpn tempBan) 1 := by
  intro hAlways
  have hKeeps := hAlways (portalDb .openvpn (rowAfter .openvpn tempBan)) (portalRequest 1)
    (fun _ _ => 0) (portalKey .openvpn) rfl (Table.row?_set_self _ _ _) rfl rfl
  exact unguarded_ban_lifted (by decide) (by decide) (by decide) hKeeps

end AdminPanel.Unlock
