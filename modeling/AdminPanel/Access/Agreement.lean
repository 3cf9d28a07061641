import AdminPanel.Access.Operations
import AdminPanel.Lib.Runs

/-!
# Agreement of the three policy services

The OpenVPN, WireGuard and AmneziaWG2 services are three copies of one state
machine. Started from equal rows and fed the same calls they stay equal, except
where OpenVPN has its own words and its own clean-up:

* a client left under an unlapsed ban — OpenVPN stores the block mode
  (`temp`, `permanent`), the other two `manual_temp` and `manual_permanent`;
* `_cleanup_ovpn_traffic_limit` clears a `block_until` the other two keep.

Main results:

* `reconciled_agree_iff` — the two reconcile functions agree on a row exactly
  when it does not `reconcileParts`;
* `implementations_agree_iff` — a run keeps the three services in agreement
  exactly when none of its calls `callParts`.

`block_started_at` and `block_days` are not compared: OpenVPN clears them where
the other two do not, and no decision reads them.
-/

namespace AdminPanel.Access

open Lib (Along along_congr)

/-! ## Calls and what a service reports after one -/

/-- An operation with its actor, at a clock and a traffic counter. -/
structure Call where
  op : PolicyOp
  actor : Option String
  reading : Reading

/-- The committed row after a call; a call that raises is rolled back. -/
def callRow (protocol : Protocol) (c : Call) (row : PolicyRow) : PolicyRow :=
  match policyOp protocol c.op c.actor c.reading row with
  | .ok row' => row'
  | .error _ => row

/-- What the services are compared by. -/
structure Report where
  raised : Option PolicyError
  isBlocked : Bool
  blockMode : BlockMode
  isTempBlocked : Bool
  isPermanentBlocked : Bool
  blockUntil : Option Time
  blockReason : Option BlockReason
  deriving DecidableEq, Repr

def reportOf (raised : Option PolicyError) (row : PolicyRow) (r : Reading) : Report where
  raised := raised
  isBlocked := (policyState row r).isBlocked
  blockMode := (policyState row r).blockMode
  isTempBlocked := row.isTempBlocked
  isPermanentBlocked := row.isPermanentBlocked
  blockUntil := row.blockUntil
  blockReason := row.blockReason

def raisedBy (protocol : Protocol) (c : Call) (row : PolicyRow) : Option PolicyError :=
  match policyOp protocol c.op c.actor c.reading row with
  | .ok _ => none
  | .error e => some e

/-- The report of a service after a call. -/
def report (protocol : Protocol) (c : Call) (row : PolicyRow) : Report :=
  reportOf (raisedBy protocol c row) (callRow protocol c row) c.reading

/-- The three rows, one of each service. -/
abbrev Rows := Protocol → PolicyRow

def callStep (rows : Rows) (c : Call) : Option Rows :=
  some fun protocol => callRow protocol c (rows protocol)

/-- The call leaves the three services reporting the same. -/
def Agree (rows : Rows) (c : Call) : Prop :=
  ∀ p q, report p c (rows p) = report q c (rows q)

/-! ## Where OpenVPN parts from the other two -/

/-- A reconcile of this row parts OpenVPN from the peer protocols: once a lapsed
temporary block is cleaned up the client is permanently banned and no limit
change lifts that, or is under a temporary block that leads, or has a leftover
`block_until` that OpenVPN's traffic clean-up clears. -/
def reconcileParts (row : PolicyRow) (r : Reading) (trafficLimitChanged : Bool) : Bool :=
  let cleaned := cleanupTempBlock row r.now
  (cleaned.isPermanentBlocked && !limitChangeLifts cleaned r trafficLimitChanged) ||
    (!policyAccessExpired cleaned r.now && tempActive cleaned r.now) ||
    (!trafficExceeded cleaned r && cleaned.blockUntil.isSome &&
      (cleaned.blockReason = some .trafficLimit ||
        (cleaned.isPermanentBlocked && !cleaned.isTempBlocked && trafficLimitChanged)))

/-- A call whose reconcile parts the services. -/
def callParts (c : Call) (row : PolicyRow) : Bool :=
  match enter c.op c.actor c.reading row with
  | .ok e => e.reconciles && reconcileParts e.row c.reading e.limitChanged
  | .error _ => false

theorem word_ne_manual (mode : BlockMode) :
    mode.word ≠ some .manualTemp ∧ mode.word ≠ some .manualPermanent := by
  cases mode <;> decide

theorem word_eq_targetReason {mode : BlockMode} (hPerm : mode ≠ .permanent)
    (hTemp : mode ≠ .temp) : mode.word = mode.targetReason := by
  cases mode <;> first | rfl | contradiction

/-- The mode of a row, from the four causes. -/
theorem blockMode_settle_eq (row : PolicyRow) (lift : Bool) (r : Reading) :
    blockMode (settle row lift none) r =
      if row.isPermanentBlocked && !lift then .permanent
      else if policyAccessExpired row r.now then .accessExpired
      else if tempActive row r.now then .temp
      else if trafficExceeded row r then .trafficLimit
      else .none := rfl

variable {row : PolicyRow} {r : Reading} {changed : Bool}

/-- Outside `reconcileParts` no clean-up of OpenVPN clears a block column that
the report shows. -/
theorem blockUntil_kept (hParts : reconcileParts row r changed = false) :
    (if ovpnClears (cleanupTempBlock row r.now) r changed then
        clearBlockColumns (cleanupTempBlock row r.now)
      else cleanupTempBlock row r.now).blockUntil = (cleanupTempBlock row r.now).blockUntil := by
  unfold reconcileParts at hParts
  generalize cleanupTempBlock row r.now = cleaned at hParts ⊢
  split
  · next hClears =>
    simp only [Bool.or_eq_false_iff, Bool.and_eq_false_iff] at hParts
    obtain ⟨⟨hPerm, -⟩, hLeft⟩ := hParts
    cases hUntil : cleaned.blockUntil with
    | none => rfl
    | some t =>
      exfalso
      simp only [hUntil, Option.isSome_some, Bool.true_eq_false, or_false] at hLeft
      simp only [ovpnClears, ovpnLifts] at hClears
      simp only [limitChangeLifts] at hPerm
      cases hEx : trafficExceeded cleaned r <;> simp_all
  · rfl

/-- Outside `reconcileParts` neither service leaves the permanent flag. -/
theorem permanent_gone (hParts : reconcileParts row r changed = false) :
    (reconciledOpenvpn row r changed).isPermanentBlocked = false ∧
      (reconciledPeer row r changed).isPermanentBlocked = false := by
  simp only [reconcileParts, Bool.or_eq_false_iff, Bool.and_eq_false_iff] at hParts
  obtain ⟨⟨hPerm, -⟩, -⟩ := hParts
  simp only [reconciledOpenvpn, reconciledPeer, settle]
  generalize cleanupTempBlock row r.now = cleaned at hPerm ⊢
  have hColumns : (if ovpnClears cleaned r changed then clearBlockColumns cleaned
      else cleaned).isPermanentBlocked = cleaned.isPermanentBlocked := by
    split <;> rfl
  rw [hColumns]
  rcases hPerm with hPerm | hLift
  · simp [hPerm]
  · rw [Bool.not_eq_false'] at hLift
    have hOvpn : ovpnLifts cleaned r changed = true := by
      simp only [limitChangeLifts, Bool.and_eq_true, Bool.not_eq_true'] at hLift
      simp [ovpnLifts, hLift]
    simp [hLift, hOvpn]

variable {row' : PolicyRow}

/-- Modes of rows without a permanent flag agree when deadline, temporary block
and traffic do. -/
theorem blockMode_congr
    (hPerm : row.isPermanentBlocked = false) (hPerm' : row'.isPermanentBlocked = false)
    (hExp : policyAccessExpired row r.now = policyAccessExpired row' r.now)
    (hTemp : tempActive row r.now = tempActive row' r.now)
    (hEx : trafficExceeded row r = trafficExceeded row' r) :
    blockMode row r = blockMode row' r := by
  simp only [blockMode, hPerm, hPerm', hExp, hTemp, hEx]

theorem blockMode_ne_ban (hPerm : row.isPermanentBlocked = false)
    (hTemp : policyAccessExpired row r.now = true ∨ tempActive row r.now = false) :
    blockMode row r ≠ .permanent ∧ blockMode row r ≠ .temp := by
  rcases hTemp with h | h
  · rw [blockMode_of_expired hPerm h]
    decide
  · unfold blockMode
    rw [hPerm, h]
    cases policyAccessExpired row r.now <;> cases trafficExceeded row r <;> decide

/-- What a report shows of a row, without the error. -/
def rowReport (row : PolicyRow) (r : Reading) : Report := reportOf none row r

theorem rowReport_congr (hMode : blockMode row r = blockMode row' r)
    (hTemp : row.isTempBlocked = row'.isTempBlocked)
    (hPerm : row.isPermanentBlocked = row'.isPermanentBlocked)
    (hUntil : row.blockUntil = row'.blockUntil) (hReason : row.blockReason = row'.blockReason) :
    rowReport row r = rowReport row' r := by
  simp only [rowReport, reportOf, policyState, isBlocked_eq_mode, hMode, hTemp, hPerm, hUntil,
    hReason]

/-- **The two reconciles agree off `reconcileParts`.** -/
theorem reconciled_agree (hParts : reconcileParts row r changed = false) :
    rowReport (reconciledOpenvpn row r changed) r = rowReport (reconciledPeer row r changed) r := by
  have hUntil := blockUntil_kept hParts
  obtain ⟨hOvpn, hPeer⟩ := permanent_gone hParts
  simp only [reconcileParts, Bool.or_eq_false_iff, Bool.and_eq_false_iff,
    Bool.not_eq_false'] at hParts
  obtain ⟨⟨-, hTemp⟩, -⟩ := hParts
  simp only [reconciledOpenvpn, reconciledPeer] at hOvpn hPeer ⊢
  generalize cleanupTempBlock row r.now = cleaned at hUntil hTemp hOvpn hPeer ⊢
  set columns := if ovpnClears cleaned r changed then clearBlockColumns cleaned else cleaned
    with hColumns
  have hFlag : columns.isTempBlocked = cleaned.isTempBlocked := by
    rw [hColumns]; split <;> rfl
  have hExp : columns.accessUntil = cleaned.accessUntil := by
    rw [hColumns]; split <;> rfl
  have hEx : trafficExceeded columns r = trafficExceeded cleaned r := by
    rw [hColumns]; split <;> rfl
  have hActive : tempActive columns r.now = tempActive cleaned r.now := by
    simp only [tempActive, hUntil, hFlag]
  have hMode : blockMode (settle columns (ovpnLifts cleaned r changed) none) r =
      blockMode (settle cleaned (limitChangeLifts cleaned r changed) none) r :=
    blockMode_congr hOvpn hPeer (by simp only [policyAccessExpired, settle, hExp]) hActive hEx
  have hWord : (blockMode (settle columns (ovpnLifts cleaned r changed) none) r).word =
      (blockMode (settle cleaned (limitChangeLifts cleaned r changed) none) r).targetReason := by
    have hNe := @blockMode_ne_ban (settle cleaned (limitChangeLifts cleaned r changed) none) r
      hPeer hTemp
    rw [hMode, word_eq_targetReason hNe.1 hNe.2]
  apply rowReport_congr
  · exact hMode
  · exact hFlag
  · rw [hOvpn, hPeer]
  · exact hUntil
  · exact hWord

/-- OpenVPN's word for a ban is never the one the peer protocols store. -/
theorem reason_differs_of_ban {r' : Reading}
    (hBan : row'.blockReason = some .manualTemp ∨ row'.blockReason = some .manualPermanent)
    (hWord : row.blockReason = (blockMode row r).word) :
    rowReport row r' ≠ rowReport row' r' := by
  intro h
  have hReason : row.blockReason = row'.blockReason := congrArg Report.blockReason h
  rw [hWord] at hReason
  rcases hBan with hBan | hBan
  · exact (word_ne_manual _).1 (hReason.trans hBan)
  · exact (word_ne_manual _).2 (hReason.trans hBan)

/-- **A row that `reconcileParts` tells the two reconciles apart.** -/
theorem reconciled_differ (hParts : reconcileParts row r changed = true) :
    rowReport (reconciledOpenvpn row r changed) r ≠ rowReport (reconciledPeer row r changed) r := by
  simp only [reconcileParts, Bool.or_eq_true, Bool.and_eq_true, Bool.not_eq_true',
    decide_eq_true_eq] at hParts
  have hWord : (reconciledOpenvpn row r changed).blockReason =
      (blockMode (reconciledOpenvpn row r changed) r).word := rfl
  rcases hParts with (⟨hPerm, hLift⟩ | ⟨hExp, hActive⟩) | ⟨⟨hEx, hUntil⟩, hClears⟩
  · refine reason_differs_of_ban (Or.inr ?_) hWord
    simp [reconciledPeer, settle, blockMode, hPerm, hLift, BlockMode.targetReason]
  · refine reason_differs_of_ban ?_ hWord
    simp only [reconciledPeer, blockMode_settle_eq, hExp, hActive]
    split
    · exact Or.inr rfl
    · exact Or.inl rfl
  · intro h
    have hBoth : (reconciledOpenvpn row r changed).blockUntil =
        (reconciledPeer row r changed).blockUntil := congrArg Report.blockUntil h
    have hOn : ovpnClears (cleanupTempBlock row r.now) r changed = true := by
      simp only [ovpnClears, ovpnLifts, hEx]
      rcases hClears with hReason | ⟨⟨hPerm, hTemp⟩, hChanged⟩
      · simp [hReason]
      · simp [hPerm, hTemp, hChanged]
    have hNone : (reconciledOpenvpn row r changed).blockUntil = none := by
      simp only [reconciledOpenvpn, hOn]
      rfl
    have hKept : (reconciledPeer row r changed).blockUntil =
        (cleanupTempBlock row r.now).blockUntil := rfl
    rw [← hKept, ← hBoth, hNone] at hUntil
    exact absurd hUntil (by decide)

/-- **The two reconciles agree exactly off `reconcileParts`.** -/
theorem reconciled_agree_iff (row : PolicyRow) (r : Reading) (changed : Bool) :
    rowReport (reconciledOpenvpn row r changed) r = rowReport (reconciledPeer row r changed) r ↔
      reconcileParts row r changed = false := by
  constructor
  · intro h
    rw [← Bool.not_eq_true]
    exact fun hParts => reconciled_differ hParts h
  · exact reconciled_agree

/-! ## The columns that decide -/

/-- The row without the two columns that no decision reads. -/
def core (row : PolicyRow) : PolicyRow :=
  { row with blockStartedAt := none, blockDays := none }

def Entered.core (e : Entered) : Entered :=
  { e with row := Access.core e.row }

theorem core_cleanupTempBlock (row : PolicyRow) (now : Time) :
    core (cleanupTempBlock (core row) now) = core (cleanupTempBlock row now) := by
  have hLapsed : tempBlockLapsed (core row) now = tempBlockLapsed row now := rfl
  unfold cleanupTempBlock
  rw [hLapsed]
  split <;> rfl

theorem core_reconciledPeer (row : PolicyRow) (r : Reading) (changed : Bool) :
    core (reconciledPeer (core row) r changed) = core (reconciledPeer row r changed) := by
  have h := core_cleanupTempBlock row r.now
  have hCore : ∀ c, core (settle c (limitChangeLifts c r changed)
      (blockMode (settle c (limitChangeLifts c r changed) none) r).targetReason) =
      settle (core c) (limitChangeLifts (core c) r changed)
        (blockMode (settle (core c) (limitChangeLifts (core c) r changed) none) r).targetReason :=
    fun c => rfl
  simp only [reconciledPeer]
  rw [hCore, hCore, h]

/-- A reconcile of OpenVPN does not read the stored reason. -/
theorem core_reconciledOpenvpn (row : PolicyRow) (r : Reading) (changed : Bool) :
    core (reconciledOpenvpn (core row) r changed) = core (reconciledOpenvpn row r changed) := by
  have h := core_cleanupTempBlock row r.now
  have hClear : ∀ c, ovpnClears (core c) r changed = ovpnClears c r changed := fun c => rfl
  have hCore : ∀ c, core (settle
      (if ovpnClears c r changed then clearBlockColumns c else c) (ovpnLifts c r changed)
      (blockMode (settle (if ovpnClears c r changed then clearBlockColumns c else c)
        (ovpnLifts c r changed) none) r).word) =
      settle (if ovpnClears (core c) r changed then clearBlockColumns (core c) else core c)
        (ovpnLifts (core c) r changed)
        (blockMode (settle
          (if ovpnClears (core c) r changed then clearBlockColumns (core c) else core c)
          (ovpnLifts (core c) r changed) none) r).word := by
    intro c
    rw [hClear]
    split <;> rfl
  simp only [reconciledOpenvpn]
  rw [hCore, hCore, h]

theorem core_enter (op : PolicyOp) (actor : Option String) (r : Reading) (row : PolicyRow) :
    (enter op actor r (core row)).map Entered.core = (enter op actor r row).map Entered.core := by
  cases op with
  | unblock =>
    have hEx : trafficExceeded (core row) r = trafficExceeded row r := rfl
    simp only [enter, hEx]
    split <;> rfl
  | setTrafficLimit limitBytes periodDays =>
    simp only [enter, setTrafficLimitColumns]
    split
    · rfl
    · cases periodDays with
      | none => rfl
      | some p => dsimp only; split <;> rfl
  | _ => rfl

theorem core_settled (protocol : Protocol) (e : Entered) (r : Reading) :
    core (e.core.settled protocol r) = core (e.settled protocol r) := by
  have hRec : e.core.reconciles = e.reconciles := rfl
  cases protocol <;> simp only [Entered.settled, Entered.openvpn, Entered.peer, hRec] <;>
    split <;> first
      | exact core_reconciledOpenvpn e.row r e.limitChanged
      | exact core_reconciledPeer e.row r e.limitChanged
      | rfl

/-- The operations commute with forgetting the columns that no decision reads. -/
theorem core_policyOp (protocol : Protocol) (op : PolicyOp) (actor : Option String) (r : Reading)
    (row : PolicyRow) :
    (policyOp protocol op actor r (core row)).map core =
      (policyOp protocol op actor r row).map core := by
  have h := core_enter op actor r row
  rw [policyOp_eq, policyOp_eq]
  cases hLeft : enter op actor r (core row) <;> cases hRight : enter op actor r row <;>
    rw [hLeft, hRight] at h <;> simp only [Except.map, Except.ok.injEq, Except.error.injEq,
      reduceCtorEq] at h ⊢
  · exact h
  · rw [← core_settled, h, core_settled]

theorem core_callRow (protocol : Protocol) (c : Call) (row : PolicyRow) :
    core (callRow protocol c (core row)) = core (callRow protocol c row) := by
  have h := core_policyOp protocol c.op c.actor c.reading row
  unfold callRow
  cases hLeft : policyOp protocol c.op c.actor c.reading (core row) <;>
    cases hRight : policyOp protocol c.op c.actor c.reading row <;>
    rw [hLeft, hRight] at h <;> simp only [Except.map, Except.ok.injEq, reduceCtorEq] at h ⊢
  · rfl
  · exact h

theorem report_core (protocol : Protocol) (c : Call) (row : PolicyRow) :
    report protocol c (core row) = report protocol c row := by
  have hRow := core_callRow protocol c row
  have hRaised : raisedBy protocol c (core row) = raisedBy protocol c row := by
    have h := core_policyOp protocol c.op c.actor c.reading row
    unfold raisedBy
    cases hLeft : policyOp protocol c.op c.actor c.reading (core row) <;>
      cases hRight : policyOp protocol c.op c.actor c.reading row <;>
      rw [hLeft, hRight] at h <;> simp only [Except.map, Except.error.injEq, reduceCtorEq] at h ⊢
    · rw [h]
  have hReport : ∀ e row', reportOf e (core row') c.reading = reportOf e row' c.reading :=
    fun e row' => rfl
  unfold report
  rw [← hReport _ (callRow protocol c (core row)), hRow, hReport, hRaised]

/-! ## Agreement along a run -/

theorem reportOf_eq_iff (raised : Option PolicyError) (row row' : PolicyRow) (r : Reading) :
    reportOf raised row r = reportOf raised row' r ↔ rowReport row r = rowReport row' r := by
  simp only [rowReport, reportOf, Report.mk.injEq, true_and]

/-- From one row, a call leaves the three services in agreement exactly when it
does not part them. -/
theorem agree_iff (c : Call) (row : PolicyRow) :
    Agree (fun _ => row) c ↔ callParts c row = false := by
  have hEither : Agree (fun _ => row) c ↔ report .openvpn c row = report .wireguard c row := by
    have hAwg : report .amneziawg2 c row = report .wireguard c row := by
      simp only [report, raisedBy, callRow, policyOp, awg2Op_eq_wgOp]
    constructor
    · exact fun h => h .openvpn .wireguard
    · intro h p q
      cases p <;> cases q <;> simp only [h, hAwg]
  rw [hEither]
  simp only [report, raisedBy, callRow, policyOp_eq, callParts]
  cases hEnter : enter c.op c.actor c.reading row with
  | error e => simp [Except.map]
  | ok e =>
    simp only [Except.map, reportOf_eq_iff, Entered.settled, Entered.openvpn, Entered.peer]
    cases e.reconciles with
    | false => simp
    | true =>
      simp only [if_true, Bool.true_and]
      exact reconciled_agree_iff e.row c.reading e.limitChanged

theorem core_eq_of_report
    (hReport : rowReport row r = rowReport row' r) (hFrame : SameFrame row row') :
    core row = core row' := by
  simp only [rowReport, reportOf, Report.mk.injEq] at hReport
  obtain ⟨-, -, -, hTemp, hPerm, hUntil, hReason⟩ := hReport
  obtain ⟨hAccess, hBytes, hPeriod, hBy⟩ := hFrame
  simp only [core, hAccess, hBytes, hPeriod, hBy, hTemp, hPerm, hUntil, hReason]

/-- A call that leaves the services in agreement leaves them the same row. -/
theorem core_callRow_of_agree {c : Call} (h : Agree (fun _ => row) c)
    (p : Protocol) : core (callRow p c row) = core (callRow .openvpn c row) := by
  have hp := h p .openvpn
  simp only [report, raisedBy, callRow, policyOp_eq] at hp ⊢
  cases hEnter : enter c.op c.actor c.reading row with
  | error e => rfl
  | ok e =>
    rw [hEnter] at hp
    simp only [Except.map, reportOf_eq_iff] at hp ⊢
    have hLeft := e.settled_frame p c.reading
    have hRight := e.settled_frame .openvpn c.reading
    refine core_eq_of_report hp ⟨?_, ?_, ?_, ?_⟩
    · rw [hLeft.accessUntil, hRight.accessUntil]
    · rw [hLeft.trafficLimitBytes, hRight.trafficLimitBytes]
    · rw [hLeft.trafficLimitPeriodDays, hRight.trafficLimitPeriodDays]
    · rw [hLeft.updatedBy, hRight.updatedBy]

/-- The three rows differ at most in the columns that no decision reads. -/
def SameRows (rows : Rows) : Prop :=
  ∀ p, core (rows p) = core (rows .openvpn)

variable {rows : Rows}

theorem report_of_sameRows (h : SameRows rows) (c : Call) (p : Protocol) :
    report p c (rows p) = report p c (rows .openvpn) := by
  rw [← report_core, h p, report_core]

theorem agree_of_sameRows (h : SameRows rows) (c : Call) :
    Agree rows c ↔ Agree (fun _ => rows .openvpn) c := by
  simp only [Agree, report_of_sameRows h]

theorem sameRows_step {rows' : Rows} {c : Call} (h : SameRows rows)
    (hAgree : Agree rows c) (hStep : callStep rows c = some rows') : SameRows rows' := by
  have hRows : rows' = fun p => callRow p c (rows p) := (Option.some.inj hStep).symm
  intro p
  rw [hRows]
  have hAll := core_callRow_of_agree ((agree_of_sameRows h c).mp hAgree) p
  calc core (callRow p c (rows p))
      = core (callRow p c (core (rows p))) := (core_callRow p c (rows p)).symm
    _ = core (callRow p c (core (rows .openvpn))) := by rw [h p]
    _ = core (callRow p c (rows .openvpn)) := core_callRow p c (rows .openvpn)
    _ = core (callRow .openvpn c (rows .openvpn)) := hAll

/-- **Agreement of the three services.** Started from equal rows and fed the
same calls, they report the same after every call exactly when no call parts
them. -/
theorem implementations_agree_iff (start : PolicyRow) (calls : List Call) :
    Along callStep Agree (fun _ => start) calls ↔
      Along callStep (fun rows c => callParts c (rows .openvpn) = false) (fun _ => start) calls :=
  along_congr
    (fun _ c h => (agree_of_sameRows h c).trans (agree_iff c _))
    (fun _ _ _ h hAgree hStep => sameRows_step h hAgree hStep)
    (fun _ => rfl) calls

/-- One temporary block of a fresh client: OpenVPN stores `temp`, the other two
`manual_temp`. -/
theorem temp_block_words_differ :
    ¬ Along callStep Agree (fun _ => ({} : PolicyRow))
      [⟨.tempBlock 7, some "admin", ⟨0, fun _ => 0⟩⟩] := by
  intro h
  have hReason := congrArg Report.blockReason (h.1 .openvpn .wireguard)
  exact absurd hReason (by decide)

end AdminPanel.Access
