import AdminPanel.Expiry.LostBlocks
import AdminPanel.Expiry.UserExtension
import AdminPanel.Unlock.ManualBan

/-!
# The permanent ban

Everything that touches the flag `is_permanent_blocked` of a policy row: calls of the
policy services, `wg_set_expiry`, runs of the access-expiry worker, redemptions.

* `panelStep` — one of these, on the database;
* `dropsFlag` — what a call other than an unblock or a temporary block does to the flag:
  the clean-ups of the three reconcile functions;
* `permanent_ban_kept_iff` — a ban survives a run exactly when no call of the run drops
  the flag;
* `limit_change_lifts_ban` — a limit that is taken away takes the ban along.
-/

namespace AdminPanel.Expiry

open Lib (Table Session exec Along map_ok)
open Access Panel Unlock

/-- `redeem` is a redemption up to its commit; its reconciles are calls of their own. -/
inductive PanelEvent where
  | call (key : PolicyKey) (c : Call)
  | wgSetExpiry (key : PolicyKey) (days : Int) (extend : Bool) (actor : Option String) (r : Reading)
  | worker (env : WorkerEnv)
  | redeem (req : RedeemRequest)

/-- The rows after a call of a policy service. All but a bare reconcile create a
missing row; a call that raises is rolled back. -/
def policyCall (policies : Table PolicyKey PolicyRow) (key : PolicyKey) (c : Call) :
    Table PolicyKey PolicyRow :=
  if (policies.row? key).isNone && decide (c.op = .reconcile) then policies
  else
    match policyOp key.protocol c.op c.actor c.reading ((policies.row? key).getD {}) with
    | .ok row => policies.set key row
    | .error _ => policies

def panelStep (db : Db) : PanelEvent → Option Db
  | .call key c => some { db with policies := policyCall db.policies key c }
  | .wgSetExpiry key days extend actor r =>
    if key.protocol = .wireguard then
      let row := (wgSetExpiry ((db.policies.row? key).getD {}) days extend actor r).1
      some { db with policies := db.policies.set key row }
    else none
  | .worker env => some { db with policies := (runOnce env db).policies }
  | .redeem req =>
    match redeemCommitted db req with
    | .ok (db', _) => some db'
    | .error _ => some db

/-- The flag is set, and the client is blocked whatever the clock and the traffic. -/
def Banned (db : Db) (key : PolicyKey) : Prop :=
  ∃ row, db.policies.row? key = some row ∧ row.isPermanentBlocked = true ∧
    ∀ r, isBlocked row r = true

/-- The database after `*_permanent_block`. -/
def permanentlyBlocked (db : Db) (key : PolicyKey) (actor : String) (r : Reading) : Db :=
  { db with policies := policyCall db.policies key ⟨.permanentBlock, some actor, r⟩ }

/-- `*_unblock` and `*_temp_block` of the row. -/
def endsBan (key : PolicyKey) : PanelEvent → Bool
  | .call k c =>
    decide (k = key) &&
      match c.op with
      | .unblock => true
      | .tempBlock _ => true
      | _ => false
  | _ => false

/-- The reconcile drops the flag, unless a temporary block is on. Over the limit OpenVPN
drops that of a row whose last writer has no name; within the limit every protocol drops
it when the call has changed the limit. -/
def cleanupDrops (protocol : Protocol) (e : Entered) (r : Reading) : Bool :=
  !(cleanupTempBlock e.row r.now).isTempBlocked &&
    if trafficExceeded e.row r then decide (protocol = .openvpn) && !namedActor e.row.updatedBy
    else e.limitChanged

/-- The call's own columns, then the clean-up. -/
def dropsFlag (protocol : Protocol) (row : PolicyRow) (c : Call) : Bool :=
  match enter c.op c.actor c.reading row with
  | .error _ => false
  | .ok e => cleanupDrops protocol e c.reading

def liftsBan (key : PolicyKey) (db : Db) : PanelEvent → Bool
  | .call k c =>
    decide (k = key) && (db.policies.row? key).any fun row => dropsFlag key.protocol row c
  | _ => false

/-! ## Calls -/

theorem banned_iff (db : Db) (key : PolicyKey) :
    Banned db key ↔ permanentOf (db.policies.row? key) = true := by
  constructor
  · rintro ⟨row, hRow, hPerm, -⟩
    rw [hRow]
    exact hPerm
  · intro h
    obtain ⟨row, hRow, hPerm⟩ := (Option.any_eq_true _ _).mp h
    exact ⟨row, hRow, hPerm, isBlocked_of_permanent hPerm⟩

variable {row : PolicyRow}

/-- A call that is neither an unblock nor a temporary block leaves the flag to its
reconcile. -/
theorem enter_keeps_permanent {op : PolicyOp} {actor : Option String} {r : Reading}
    {e : Entered} (h : enter op actor r row = .ok e) (hUnblock : op ≠ .unblock)
    (hTemp : ∀ days, op ≠ .tempBlock days) (hPerm : row.isPermanentBlocked = true) :
    e.row.isPermanentBlocked = true ∧ e.reconciles = true := by
  cases op with
  | unblock => exact absurd rfl hUnblock
  | tempBlock days => exact absurd rfl (hTemp days)
  | setTrafficLimit limitBytes periodDays =>
    simp only [enter] at h
    obtain ⟨columns, hColumns, rfl⟩ := map_ok h
    refine ⟨?_, rfl⟩
    unfold setTrafficLimitColumns at hColumns
    split at hColumns
    · simp at hColumns
    · split at hColumns
      · split at hColumns
        · simp at hColumns
        · cases hColumns
          exact hPerm
      · cases hColumns
        exact hPerm
  | permanentBlock =>
    cases h
    exact ⟨rfl, rfl⟩
  | clearTrafficLimit | setAccessUntil t | reconcile =>
    cases h
    exact ⟨hPerm, rfl⟩

/-- **What a reconcile does to the flag**, for the three protocols. -/
theorem settled_permanent (protocol : Protocol) {e : Entered} (hRec : e.reconciles = true)
    (r : Reading) :
    (e.settled protocol r).isPermanentBlocked =
      (e.row.isPermanentBlocked && !cleanupDrops protocol e r) := by
  have hExceeded := trafficExceeded_cleanupTempBlock e.row r.now r
  have hPerm := isPermanentBlocked_cleanupTempBlock e.row r.now
  have hNamed := (cleanupTempBlock_frame e.row r.now).updatedBy
  have hPeer : (reconciledPeer e.row r e.limitChanged).isPermanentBlocked =
      (e.row.isPermanentBlocked &&
        !limitChangeLifts (cleanupTempBlock e.row r.now) r e.limitChanged) := by
    rw [← hPerm]
    rfl
  have hOpenvpn : (reconciledOpenvpn e.row r e.limitChanged).isPermanentBlocked =
      (e.row.isPermanentBlocked &&
        !ovpnLifts (cleanupTempBlock e.row r.now) r e.limitChanged) := by
    rw [← hPerm]
    simp only [reconciledOpenvpn]
    split <;> rfl
  have hPeerDrops : ∀ p, p ≠ .openvpn →
      limitChangeLifts (cleanupTempBlock e.row r.now) r e.limitChanged = cleanupDrops p e r := by
    intro p hp
    rw [limitChangeLifts, hExceeded, cleanupDrops, decide_eq_false hp]
    cases trafficExceeded e.row r <;> cases e.limitChanged <;>
      cases (cleanupTempBlock e.row r.now).isTempBlocked <;> rfl
  cases protocol with
  | openvpn =>
    simp only [Entered.settled, Entered.openvpn, hRec, if_true, hOpenvpn, ovpnLifts, hExceeded,
      hNamed, cleanupDrops, decide_true, Bool.true_and]
  | wireguard =>
    simp only [Entered.settled, Entered.peer, hRec, if_true, hPeer]
    rw [hPeerDrops .wireguard (by decide)]
  | amneziawg2 =>
    simp only [Entered.settled, Entered.peer, hRec, if_true, hPeer]
    rw [hPeerDrops .amneziawg2 (by decide)]

variable {key : PolicyKey}

theorem policyCall_other (policies : Table PolicyKey PolicyRow) {k : PolicyKey} (c : Call)
    (h : k ≠ key) : (policyCall policies key c).row? k = policies.row? k := by
  unfold policyCall
  split
  · rfl
  · split
    · exact Table.row?_set_of_ne _ _ h
    · rfl

variable {policies : Table PolicyKey PolicyRow}

theorem policyCall_of_row (c : Call) (hRow : policies.row? key = some row) :
    (policyCall policies key c).row? key = some (callRow key.protocol c row) := by
  unfold policyCall callRow
  rw [hRow]
  simp only [Option.isNone_some, Bool.false_and, Bool.false_eq_true, if_false, Option.getD_some]
  cases policyOp key.protocol c.op c.actor c.reading row with
  | ok row' => exact Table.row?_set_self _ _ _
  | error e => exact hRow

/-- **One call.** A banned row keeps its flag unless the clean-up drops it. -/
theorem callRow_permanent {protocol : Protocol} {c : Call}
    (hUnblock : c.op ≠ .unblock) (hTemp : ∀ days, c.op ≠ .tempBlock days)
    (hPerm : row.isPermanentBlocked = true) :
    (callRow protocol c row).isPermanentBlocked = !dropsFlag protocol row c := by
  unfold callRow dropsFlag
  rw [policyOp_eq]
  cases hEnter : enter c.op c.actor c.reading row with
  | error e => exact hPerm
  | ok e =>
    obtain ⟨hFlag, hRec⟩ := enter_keeps_permanent hEnter hUnblock hTemp hPerm
    show (e.settled protocol c.reading).isPermanentBlocked = _
    rw [settled_permanent protocol hRec, hFlag, Bool.true_and]

theorem cleanupDrops_permanentBlock (protocol : Protocol) (row : PolicyRow) {actor : String}
    (hNamed : namedActor (some actor) = true) (r : Reading) :
    cleanupDrops protocol ⟨permanentBlockColumns row (some actor) r.now, true, false⟩ r =
      false := by
  show (_ && if _ then decide _ && !namedActor (some actor) else false) = false
  rw [hNamed]
  simp

/-- A ban by a named actor sets the flag, over the limit or not. -/
theorem permanentlyBlocked_banned (db : Db) (key : PolicyKey) {actor : String}
    (hNamed : namedActor (some actor) = true) (r : Reading) :
    Banned (permanentlyBlocked db key actor r) key := by
  rw [banned_iff]
  generalize hOld : (db.policies.row? key).getD {} = old
  let e : Entered := ⟨permanentBlockColumns old (some actor) r.now, true, false⟩
  have hOp : policyOp key.protocol .permanentBlock (some actor) r old =
      .ok (e.settled key.protocol r) := policyOp_eq _ _ _ _ _
  have hRow : (permanentlyBlocked db key actor r).policies.row? key =
      some (e.settled key.protocol r) := by
    have hNew : decide ((PolicyOp.permanentBlock) = .reconcile) = false := rfl
    simp only [permanentlyBlocked, policyCall, hOld, hOp, hNew, Bool.and_false, Bool.false_eq_true,
      if_false]
    exact Table.row?_set_self _ _ _
  have hFlag : (e.settled key.protocol r).isPermanentBlocked = true := by
    rw [settled_permanent key.protocol rfl, cleanupDrops_permanentBlock key.protocol old hNamed r]
    rfl
  rw [hRow]
  exact hFlag

/-- A new deadline leaves the flag alone. -/
theorem wgSetExpiry_permanent (row : Option PolicyRow) (days : Int) (extend : Bool)
    (actor : Option String) (r : Reading) :
    permanentOf (some (wgSetExpiry (row.getD {}) days extend actor r).1) = permanentOf row := by
  have hFlag : ∀ row : PolicyRow,
      (wgSetExpiry row days extend actor r).1.isPermanentBlocked = row.isPermanentBlocked := by
    intro row
    show (reconcilePeer _ r true true false).1.isPermanentBlocked = _
    rw [reconcilePeer_row]
    simp only [reconciledPeer, settle, limitChangeLifts, Bool.false_and, Bool.not_false,
      Bool.and_true]
    exact isPermanentBlocked_cleanupTempBlock _ _
  cases row with
  | none => exact hFlag {}
  | some row => exact hFlag row

/-! ## Redemptions -/

theorem permanentOf_accessUntilColumns (row : Option PolicyRow) (t : Option Time)
    (actor : Option String) :
    permanentOf (some (accessUntilColumns (row.getD {}) t actor)) = permanentOf row := by
  cases row <;> rfl

theorem extendConfig_permanent {now : Time} {days : Int}
    {protocols : List Protocol} {clientNames : Option (List String)} {userUntil : Option Time}
    (hDays : 0 ≤ timedeltaDays days) (acc : PolicySession × List PolicyKey) (config : VpnConfig)
    (k : PolicyKey) :
    permanentOf ((extendConfig policies now days protocols clientNames userUntil acc
      config).1.view policies k) = permanentOf (acc.1.view policies k) := by
  obtain hSame | ⟨key, _, newUntil, -, -, hSet⟩ := extendConfig_cases hDays acc config
  · rw [hSame]
  · rw [hSet, setAccessUntil, Session.view_write]
    split
    · next hk => rw [hk, permanentOf_accessUntilColumns]
    · rfl

theorem foldl_extendConfig_permanent {now : Time}
    {days : Int} {protocols : List Protocol} {clientNames : Option (List String)}
    {userUntil : Option Time} (hDays : 0 ≤ timedeltaDays days) (configs : List VpnConfig)
    (acc : PolicySession × List PolicyKey) (k : PolicyKey) :
    permanentOf ((configs.foldl (extendConfig policies now days protocols clientNames userUntil)
      acc).1.view policies k) = permanentOf (acc.1.view policies k) := by
  induction configs generalizing acc with
  | nil => rfl
  | cons config configs ih =>
    rw [List.foldl_cons, ih, extendConfig_permanent hDays]

variable {db : Db}

/-- A redemption in the client portal refuses a banned client, one in the user portal
writes deadlines only. -/
theorem redeemCommitted_permanent {db' : Db} {req : RedeemRequest} {claim : Claim}
    (h : redeemCommitted db req = .ok (db', claim))
    (hPerm : permanentOf (db.policies.row? key) = true) :
    permanentOf (db'.policies.row? key) = true := by
  obtain ⟨hChecked, hGrant⟩ := redeemCommitted_ok h
  cases hUser : req.userId with
  | none =>
    obtain ⟨row, hRow, hFlag⟩ := (Option.any_eq_true _ _).mp hPerm
    rw [grantAndCommit_client db claim hUser] at hGrant
    obtain ⟨-, -, -, hPolicies, -, -⟩ := commitRedemption_ok hGrant
    have hManual : isManualAdminBlock (some row) = true := by
      rw [isManualAdminBlock_some, hFlag, Bool.true_or]
    have hOther := hChecked.not_applied_of_manual hRow hManual
    rw [hPolicies, grantClient_commit_other hChecked hOther]
    exact hPerm
  | some userId =>
    obtain ⟨user, hClaim, hRow⟩ := checkUser_some hUser hChecked.user
    obtain ⟨protocols, clientNames, hCommit⟩ := grantAndCommit_user hUser hClaim hGrant
    simp only at hCommit
    obtain ⟨-, -, -, hPolicies, -, -⟩ := commitRedemption_ok hCommit
    have hDays := Int.le_of_lt (timedeltaDays_pos claim.code.grantDays_pos)
    rw [hPolicies, Session.row?_commitInto_of_fresh changedColumns_fresh]
    · rw [← hChecked.view key] at hPerm
      exact (foldl_extendConfig_permanent hDays _ (claim.session, []) key).trans hPerm
    · exact (foldl_extendConfig hDays _ (claim.session, []) key).1 (hChecked.fresh key)

/-! ## Runs -/

/-- The step leaves the client banned. -/
def KeepsBanned (key : PolicyKey) (db : Db) (e : PanelEvent) : Prop :=
  ∀ db', panelStep db e = some db' → Banned db' key

/-- One call of the panel, off the calls that end the ban. -/
theorem call_keeps_iff {c : Call} (hEnds : endsBan key (.call key c) = false) (h : Banned db key) :
    KeepsBanned key db (.call key c) ↔ liftsBan key db (.call key c) = false := by
  obtain ⟨row, hRow, hPerm, -⟩ := h
  have hOps : c.op ≠ .unblock ∧ ∀ days, c.op ≠ .tempBlock days := by
    unfold endsBan at hEnds
    cases hOp : c.op <;> simp_all
  have hAfter : permanentOf ((policyCall db.policies key c).row? key) =
      !dropsFlag key.protocol row c := by
    rw [policyCall_of_row c hRow]
    exact callRow_permanent hOps.1 hOps.2 hPerm
  have hLifts : liftsBan key db (.call key c) = dropsFlag key.protocol row c := by
    simp only [liftsBan, decide_true, Bool.true_and, hRow]
    rfl
  have hStep : KeepsBanned key db (.call key c) ↔
      Banned { db with policies := policyCall db.policies key c } key :=
    ⟨fun hKeeps => hKeeps _ rfl, fun hBanned db' hdb' => Option.some.inj hdb' ▸ hBanned⟩
  rw [hStep, banned_iff, hAfter, hLifts, Bool.not_eq_true']

/-- No other event drops the flag of the row. -/
theorem other_keeps {e : PanelEvent} (hOther : ∀ c, e ≠ .call key c)
    (h : Banned db key) : KeepsBanned key db e := by
  rw [banned_iff] at h
  intro db' hStep
  rw [banned_iff]
  cases e with
  | call k c =>
    cases hStep
    have hNe : key ≠ k := fun hk => hOther c (by rw [hk])
    rw [policyCall_other db.policies c hNe]
    exact h
  | wgSetExpiry k days extend actor r =>
    simp only [panelStep] at hStep
    split at hStep
    · cases hStep
      rw [Table.row?_set]
      split
      · next hk =>
        rw [hk] at h
        exact (wgSetExpiry_permanent (db.policies.row? k) days extend actor r).trans h
      · exact h
    · simp at hStep
  | worker env =>
    cases hStep
    obtain ⟨hTracked, hSettled⟩ := tracked_runOnce env db
    rw [hSettled, hTracked.permanent]
    exact h
  | redeem req =>
    simp only [panelStep] at hStep
    split at hStep
    · next db₁ claim hRedeem =>
      cases hStep
      exact redeemCommitted_permanent hRedeem h
    · cases hStep
      exact h

theorem keepsBanned_iff {e : PanelEvent} (hEnds : endsBan key e = false)
    (h : Banned db key) : KeepsBanned key db e ↔ liftsBan key db e = false := by
  by_cases hCall : ∃ c, e = .call key c
  · obtain ⟨c, rfl⟩ := hCall
    exact call_keeps_iff hEnds h
  have hOther : ∀ c, e ≠ .call key c := fun c hc => hCall ⟨c, hc⟩
  have hNot : liftsBan key db e = false := by
    cases e with
    | call k c =>
      have hNe : k ≠ key := fun hk => hOther c (by rw [hk])
      simp only [liftsBan, decide_eq_false hNe, Bool.false_and]
    | wgSetExpiry k days extend actor r | worker env | redeem req => rfl
  exact iff_of_true (other_keeps hOther h) hNot

/-- **When a permanent ban survives.** After `*_permanent_block` by a named actor, and in
a run without an unblock or a temporary block of the row, the client stays banned at
every step exactly when no call of the run drops the flag. -/
theorem permanent_ban_kept_iff (db : Db) (key : PolicyKey) {actor : String}
    (hNamed : namedActor (some actor) = true) (r : Reading) {as : List PanelEvent}
    (hEnds : ∀ e ∈ as, endsBan key e = false) :
    Banned (permanentlyBlocked db key actor r) key ∧
      (Along panelStep (KeepsBanned key) (permanentlyBlocked db key actor r) as ↔
        Along panelStep (fun db e => liftsBan key db e = false)
          (permanentlyBlocked db key actor r) as) := by
  have hStart := permanentlyBlocked_banned db key hNamed r
  have hIff : ∀ e ∈ as, ∀ db, Banned db key → (KeepsBanned key db e ↔ liftsBan key db e = false) :=
    fun e he _ hBanned => keepsBanned_iff (hEnds e he) hBanned
  have hStep : ∀ e ∈ as, ∀ db db', Banned db key → KeepsBanned key db e →
      panelStep db e = some db' → Banned db' key := fun _ _ _ db' _ hKeeps hs => hKeeps db' hs
  exact ⟨hStart, Lib.along_congr_on hIff hStep hStart⟩

/-- The administrator bans the client of `portalDb` at time 0. -/
def bannedClient (protocol : Protocol) : Db :=
  permanentlyBlocked (portalDb protocol {}) (portalKey protocol) "admin" ⟨0, fun _ => 0⟩

def call (protocol : Protocol) (op : PolicyOp) (r : Reading) : PanelEvent :=
  .call (portalKey protocol) ⟨op, some "admin", r⟩

/-- A deadline, a limit that is already used up, a reconcile, a new expiry, a run of the
worker and a redemption. -/
def busyRun : List PanelEvent :=
  [call .wireguard (.setAccessUntil (some 5)) ⟨1, fun _ => 0⟩,
    call .wireguard (.setTrafficLimit 100 none) ⟨2, fun _ => 200⟩,
    call .wireguard .reconcile ⟨3, fun _ => 0⟩,
    .wgSetExpiry (portalKey .wireguard) 1 false none ⟨4, fun _ => 0⟩,
    .worker failingEnv, .redeem (portalRequest 6)]

theorem busy_run_keeps_ban :
    Along panelStep (KeepsBanned (portalKey .wireguard)) (bannedClient .wireguard) busyRun :=
  (permanent_ban_kept_iff (portalDb .wireguard {}) (portalKey .wireguard) (by decide)
    ⟨0, fun _ => 0⟩ (by decide)).2.mpr (by decide)

/-- The administrator takes the traffic limit away, which the client never had. -/
def unlimited (protocol : Protocol) : PanelEvent :=
  call protocol .clearTrafficLimit ⟨1, fun _ => 0⟩

theorem unlimited_lifts (protocol : Protocol) :
    ¬ KeepsBanned (portalKey protocol) (bannedClient protocol) (unlimited protocol) := by
  intro hKeeps
  have hBanned := (banned_iff _ _).mp (hKeeps _ rfl)
  have hFree : permanentOf ((policyCall (bannedClient protocol).policies (portalKey protocol)
      ⟨.clearTrafficLimit, some "admin", ⟨1, fun _ => 0⟩⟩).row? (portalKey protocol)) = false := by
    cases protocol <;> decide
  rw [hFree] at hBanned
  simp at hBanned

/-- **A limit that is taken away takes the ban along**, in all three services. -/
theorem limit_change_lifts_ban :
    ¬ Along panelStep (KeepsBanned (portalKey .openvpn)) (bannedClient .openvpn)
        [unlimited .openvpn] ∧
      ¬ Along panelStep (KeepsBanned (portalKey .wireguard)) (bannedClient .wireguard)
        [unlimited .wireguard] ∧
      ¬ Along panelStep (KeepsBanned (portalKey .amneziawg2)) (bannedClient .amneziawg2)
        [unlimited .amneziawg2] :=
  ⟨fun h => unlimited_lifts .openvpn h.1, fun h => unlimited_lifts .wireguard h.1,
    fun h => unlimited_lifts .amneziawg2 h.1⟩

end AdminPanel.Expiry
