import AdminPanel.Access.Awg3
import AdminPanel.Lib.Runs

/-!
# AmneziaWG 3 against AmneziaWG 2

The docstring of `awg3_access.py` promises the same states and block reasons as
AmneziaWG 2. Both services refine the ban of `BanColumns`, so they can part at
two points only:

* an unblock under a past deadline — AmneziaWG2 lets the client in until the
  next expiry tick, AmneziaWG 3 reconciles and blocks it again;
* a block or an unblock whose runtime call raises — AmneziaWG2 has committed
  it, AmneziaWG 3 loses it.

Main results:

* `awg2Attempt_ban`, `awg3_op_ban` — each operation of either service, in terms
  of the ban;
* `awg3_same_policy` — runs without failures agree exactly when no unblock meets
  a past deadline; runs whose failures hit only deadlines and reconciles agree
  throughout, and a later reconcile makes up for each failure.
-/

namespace AdminPanel.Access

open Lib (Along along_congr along_congr_on)

/-! ## Operations on the ban -/

def BlockOp.forcesRuntime : BlockOp → Bool
  | .reconcile => false
  | _ => true

/-- The operations that write the flags. -/
def BlockOp.writesFlags : BlockOp → Bool
  | .tempBlock _ => true
  | .permanentBlock => true
  | .unblock => true
  | _ => false

/-- The ban with the columns an operation writes. -/
def BanColumns.enter (b : BanColumns) (o : BlockOp) (now : Time) : BanColumns :=
  match o with
  | .tempBlock days =>
    { b with
      isTempBlocked := true
      isPermanentBlocked := false
      blockUntil := some (now + timedeltaDays days)
      blockReason := some .manualTemp }
  | .permanentBlock =>
    { b with
      isTempBlocked := false
      isPermanentBlocked := true
      blockUntil := none
      blockReason := some .manualPermanent }
  | .unblock =>
    { b with
      isTempBlocked := false
      isPermanentBlocked := false
      blockUntil := none
      blockReason := none }
  | .setAccessUntil t => { b with accessUntil := t }
  | .reconcile => b

def Attempt.map {ρ σ : Type} (f : ρ → σ) (a : Attempt ρ) : Attempt σ :=
  ⟨f a.before, a.call, f a.after⟩

/-- An operation of a service that reconciles, over `before` and the entered ban. -/
def BanColumns.attempt (before entered : BanColumns) (now : Time) (force : Bool) :
    Attempt BanColumns :=
  ⟨before, entered.call now force, entered.reconciled now⟩

/-- An unblock that meets a past deadline. -/
def unblocksExpired (o : BlockOp) (b : BanColumns) (now : Time) : Bool :=
  o = .unblock && b.expired now

/-- What an operation of AmneziaWG 3 does is known from the ban columns alone. -/
theorem awg3_op_ban (o : BlockOp) (actor : Option String) (now : Time) (row : Awg3Row) :
    (Awg3.op o actor now row).map Awg3Row.ban =
      BanColumns.attempt (if o.writesFlags then row.ban else row.ban.enter o now)
        (row.ban.enter o now) now o.forcesRuntime := by
  have hReconcile : ∀ (entered before : Awg3Row) (force : Bool),
      (Attempt.mk before (Awg3.reconcile entered now force).2
        (Awg3.reconcile entered now force).1).map Awg3Row.ban =
      BanColumns.attempt before.ban entered.ban now force := by
    intro entered before force
    obtain ⟨hRow, hCall⟩ := awg3_reconcile_ban entered now force
    simp only [Attempt.map, hRow, hCall, BanColumns.attempt]
  cases o with
  | tempBlock days | permanentBlock | unblock | setAccessUntil t => exact hReconcile _ _ true
  | reconcile => exact hReconcile _ _ false

/-- The ban of the row an AmneziaWG2 operation enters, without a limit on the row. -/
theorem enter_ban (o : BlockOp) (actor : Option String) (r : Reading) {row : PolicyRow}
    (h : row.trafficLimitBytes = none) :
    ∃ e, enter o.toPolicyOp actor r row = .ok e ∧ e.row.trafficLimitBytes = none ∧
      e.row.ban = row.ban.enter o r.now ∧ e.limitChanged = false ∧
      e.reconciles = !unblocksExpired o row.ban r.now := by
  cases o with
  | unblock =>
    refine ⟨⟨unblockColumns row actor, !policyAccessExpired row r.now, false⟩, ?_, h, rfl, rfl, ?_⟩
    · simp [BlockOp.toPolicyOp, enter, trafficExceeded_of_no_limit h]
    · simp only [unblocksExpired, decide_true, Bool.true_and]
      rfl
  | tempBlock days | permanentBlock | setAccessUntil t | reconcile =>
    exact ⟨_, rfl, h, rfl, rfl, by simp [unblocksExpired]⟩

theorem BlockOp.forcesRuntime_toPolicyOp (o : BlockOp) :
    o.toPolicyOp.forcesRuntime = o.forcesRuntime := by
  cases o <;> rfl

/-- **Without a traffic limit no AmneziaWG2 operation fails by itself**, the limit
stays unset, and the ban moves as its own machine says. -/
theorem awg2Attempt_ban (o : BlockOp) (actor : Option String) (r : Reading) {row : PolicyRow}
    (h : row.trafficLimitBytes = none) :
    ∃ a, awg2Attempt o actor r row = .ok a ∧ a.before.trafficLimitBytes = none ∧
      a.after.trafficLimitBytes = none ∧
      a.map PolicyRow.ban =
        if unblocksExpired o row.ban r.now then
          ⟨row.ban.enter o r.now, some false, row.ban.enter o r.now⟩
        else BanColumns.attempt (row.ban.enter o r.now) (row.ban.enter o r.now) r.now
          o.forcesRuntime := by
  obtain ⟨e, hEnter, hLimit, hBan, hChanged, hReconciles⟩ := enter_ban o actor r h
  have hOp : awg2Op o.toPolicyOp actor r row = .ok (e.peerResult r o.forcesRuntime) := by
    rw [awg2Op_eq_wgOp, wgOp_eq, hEnter, o.forcesRuntime_toPolicyOp]
    rfl
  refine ⟨⟨e.row, (e.peerResult r o.forcesRuntime).2.map (·.isBlocked),
    (e.peerResult r o.forcesRuntime).1⟩, ?_, hLimit, ?_, ?_⟩
  · simp [awg2Attempt, hEnter, hOp, bind, Except.bind, pure, Except.pure]
  · rw [e.peerResult_row]
    unfold Entered.peer
    split
    · rw [(reconciledPeer_frame e.row r e.limitChanged).trafficLimitBytes, hLimit]
    · exact hLimit
  · unfold Entered.peerResult
    rw [hReconciles, hChanged, ← hBan]
    cases unblocksExpired o row.ban r.now with
    | true => rfl
    | false =>
      obtain ⟨hRow, hCall⟩ := reconcilePeer_ban hLimit r o.forcesRuntime
      simp only [Bool.not_false, if_true, Attempt.map, hRow, hCall]
      rfl

/-! ## The two services side by side -/

structure Twins where
  awg2 : Client PolicyRow
  awg3 : Client Awg3Row

/-- One operation given to both services, with a runtime call that may raise. -/
structure TwinCall where
  op : BlockOp
  actor : String
  reading : Reading
  raises : Bool

def TwinCall.now (c : TwinCall) : Time := c.reading.now

/-- The services after a call; an error of its own leaves the AmneziaWG2 client alone. -/
def twinAwg2 (client : Client PolicyRow) (c : TwinCall) : Client PolicyRow :=
  match awg2Attempt c.op (some c.actor) c.reading client.row with
  | .ok a => a.run c.raises client.live
  | .error _ => client

def twinAwg3 (client : Client Awg3Row) (c : TwinCall) : Client Awg3Row :=
  (Awg3.op c.op (some c.actor) c.now client.row).run c.raises client.live

def Twins.after (s : Twins) (c : TwinCall) : Twins := ⟨twinAwg2 s.awg2 c, twinAwg3 s.awg3 c⟩

def twinStep (s : Twins) (c : TwinCall) : Option Twins := some (s.after c)

/-- What a service reports of a client after a call. -/
structure BlockReport where
  raised : Bool
  isBlocked : Bool
  blockMode : BlockMode
  ban : BanColumns
  live : Bool
  deriving DecidableEq, Repr

def awg2Report (client : Client PolicyRow) (c : TwinCall) : BlockReport where
  raised :=
    match awg2Attempt c.op (some c.actor) c.reading client.row with
    | .ok a => a.raised c.raises
    | .error _ => true
  isBlocked := (awg2State (twinAwg2 client c).row c.reading).isBlocked
  blockMode := (awg2State (twinAwg2 client c).row c.reading).blockMode
  ban := (twinAwg2 client c).row.ban
  live := (twinAwg2 client c).live

def awg3Report (client : Client Awg3Row) (c : TwinCall) : BlockReport where
  raised := (Awg3.op c.op (some c.actor) c.now client.row).raised c.raises
  isBlocked := (Awg3.stateOf (twinAwg3 client c).row c.now).isBlocked
  blockMode := (Awg3.stateOf (twinAwg3 client c).row c.now).blockMode
  ban := (twinAwg3 client c).row.ban
  live := (twinAwg3 client c).live

def SameReport (s : Twins) (c : TwinCall) : Prop := awg2Report s.awg2 c = awg3Report s.awg3 c

/-- Equal deciding columns, equal peers, and no traffic limit. -/
structure Twins.Agree (s : Twins) : Prop where
  ban : s.awg2.row.ban = s.awg3.row.ban
  live : s.awg2.live = s.awg3.live
  noLimit : s.awg2.row.trafficLimitBytes = none

/-- Nothing that decides the block tells two pairs of clients apart. -/
def Twins.Same (s t : Twins) : Prop :=
  (s.awg2.row.ban = t.awg2.row.ban ∧ s.awg2.live = t.awg2.live) ∧
    (s.awg3.row.ban = t.awg3.row.ban ∧ s.awg3.live = t.awg3.live)

/-- The peer is live exactly when no reason is stored. -/
def Twins.Coupled (s : Twins) : Prop := s.awg3.live = s.awg3.row.ban.blockReason.isNone

/-! ## One call -/

theorem Attempt.run_map {ρ σ : Type} (f : ρ → σ) (a : Attempt ρ) (raises live : Bool) :
    f (a.run raises live).row = ((a.map f).run raises live).row ∧
      (a.run raises live).live = ((a.map f).run raises live).live := by
  unfold Attempt.run Attempt.map
  cases a.call with
  | none => exact ⟨rfl, rfl⟩
  | some b => cases raises <;> exact ⟨rfl, rfl⟩

/-- A failed call that takes a change of the block with it. -/
def TwinCall.loses (c : TwinCall) (b : BanColumns) : Bool :=
  c.raises && c.op.writesFlags && b.enter c.op c.now != b

/-- A call that the services take alike: no unblock under a past deadline, and no
lost block. -/
def TwinCall.alike (c : TwinCall) (b : BanColumns) : Bool :=
  !unblocksExpired c.op b c.now && !c.loses b

variable {c : TwinCall}

/-- A failed call that loses nothing commits what it entered, with the old reason. -/
theorem TwinCall.kept_of_raises {b : BanColumns} (h : c.loses b = false)
    (hRaises : c.raises = true) :
    (if c.op.writesFlags then b else b.enter c.op c.now) = b.enter c.op c.now ∧
      (b.enter c.op c.now).blockReason = b.blockReason := by
  cases hFlags : c.op.writesFlags with
  | true =>
    have hEnter : b.enter c.op c.now = b := by simpa [loses, hRaises, hFlags] using h
    rw [hEnter]
    exact ⟨rfl, rfl⟩
  | false =>
    refine ⟨rfl, ?_⟩
    cases hOp : c.op <;> rw [hOp] at hFlags <;> simp [BlockOp.writesFlags] at hFlags <;> rfl

theorem stateOf_mode (row : Awg3Row) (now : Time) :
    (Awg3.stateOf row now).blockMode = row.ban.mode now := rfl

/-- The report of AmneziaWG 3 in terms of the ban. -/
theorem awg3Report_eq (client : Client Awg3Row) (c : TwinCall) :
    awg3Report client c =
      let a := BanColumns.attempt
        (if c.op.writesFlags then client.row.ban else client.row.ban.enter c.op c.now)
        (client.row.ban.enter c.op c.now) c.now c.op.forcesRuntime
      let after := a.run c.raises client.live
      ⟨a.raised c.raises, after.row.blocked c.now, after.row.mode c.now, after.row,
        after.live⟩ := by
  have hMap := awg3_op_ban c.op (some c.actor) c.now client.row
  have hRun := Attempt.run_map Awg3Row.ban (Awg3.op c.op (some c.actor) c.now client.row) c.raises
    client.live
  rw [hMap] at hRun
  have hRaised : (Awg3.op c.op (some c.actor) c.now client.row).raised c.raises =
      ((Awg3.op c.op (some c.actor) c.now client.row).map Awg3Row.ban).raised c.raises := rfl
  simp only [awg3Report, twinAwg3, awg3_stateOf_isBlocked, stateOf_mode, hRun.1, hRun.2, hRaised,
    hMap]

/-- The report of AmneziaWG2 in terms of the ban. -/
theorem awg2Report_eq {client : Client PolicyRow} (c : TwinCall)
    (h : client.row.trafficLimitBytes = none) :
    awg2Report client c =
      let entered := client.row.ban.enter c.op c.now
      let a := if unblocksExpired c.op client.row.ban c.now then ⟨entered, some false, entered⟩
        else BanColumns.attempt entered entered c.now c.op.forcesRuntime
      let after := a.run c.raises client.live
      ⟨a.raised c.raises, after.row.blocked c.now, after.row.mode c.now, after.row,
        after.live⟩ := by
  obtain ⟨a, hOk, hBefore, hAfter, hMap⟩ := awg2Attempt_ban c.op (some c.actor) c.reading h
  have hRun := Attempt.run_map PolicyRow.ban a c.raises client.live
  have hLimit : (a.run c.raises client.live).row.trafficLimitBytes = none := by
    unfold Attempt.run
    cases a.call with
    | none => exact hAfter
    | some b => cases c.raises <;> assumption
  have hState : ∀ row : PolicyRow, row.trafficLimitBytes = none →
      (awg2State row c.reading).isBlocked = row.ban.blocked c.now ∧
        (awg2State row c.reading).blockMode = row.ban.mode c.now :=
    fun row hRow => ⟨isBlocked_ban hRow c.reading, blockMode_ban hRow c.reading⟩
  rw [hMap] at hRun
  have hRaised : a.raised c.raises = (a.map PolicyRow.ban).raised c.raises := rfl
  simp only [awg2Report, twinAwg2, hOk, hState _ hLimit, hRun.1, hRun.2, hRaised, hMap]
  rfl

theorem twinAwg2_noLimit {client : Client PolicyRow} (c : TwinCall)
    (h : client.row.trafficLimitBytes = none) :
    (twinAwg2 client c).row.trafficLimitBytes = none := by
  obtain ⟨a, hOk, hBefore, hAfter, -⟩ := awg2Attempt_ban c.op (some c.actor) c.reading h
  simp only [twinAwg2, hOk, Attempt.run]
  cases a.call with
  | none => exact hAfter
  | some b => cases c.raises <;> assumption

variable {s : Twins}

/-- Clients that report the same agree. -/
theorem agree_of_sameReport (h : s.Agree) (hSame : SameReport s c) : (s.after c).Agree where
  ban := congrArg BlockReport.ban hSame
  live := congrArg BlockReport.live hSame
  noLimit := twinAwg2_noLimit c h.noLimit

/-- **Calls that the services take alike leave them reporting the same.** -/
theorem sameReport_of_alike (h : s.Agree)
    (hAlike : c.alike s.awg3.row.ban = true) : SameReport s c := by
  simp only [TwinCall.alike, Bool.and_eq_true, Bool.not_eq_true'] at hAlike
  obtain ⟨hOpen, hKept⟩ := hAlike
  rw [SameReport, awg2Report_eq c h.noLimit, awg3Report_eq, h.ban, h.live]
  simp only [hOpen, Bool.false_eq_true, if_false]
  cases hRaises : c.raises with
  | true => rw [(c.kept_of_raises hKept hRaises).1]
  | false =>
    -- what would be committed otherwise plays no part
    simp only [BanColumns.attempt, Attempt.run, Attempt.raised]
    cases (s.awg3.row.ban.enter c.op c.now).call c.now c.op.forcesRuntime <;> rfl

/-- An unblock under a past deadline parts the services. -/
theorem not_sameReport_of_unblocksExpired (h : s.Agree)
    (hRaises : c.raises = false) (hOpen : unblocksExpired c.op s.awg3.row.ban c.now = true) :
    ¬ SameReport s c := by
  intro hSame
  have hReason := congrArg (fun report => report.ban.blockReason) hSame
  simp only [unblocksExpired, Bool.and_eq_true, decide_eq_true_eq] at hOpen
  obtain ⟨hOp, hExpired⟩ := hOpen
  simp only [awg2Report_eq c h.noLimit, awg3Report_eq, h.ban, hOp, hRaises, unblocksExpired,
    hExpired, BlockOp.forcesRuntime, BanColumns.attempt, BanColumns.call, Attempt.run,
    BanColumns.enter, BanColumns.reconciled, decide_true, Bool.true_and, Bool.true_or, if_true,
    Bool.false_eq_true, if_false] at hReason
  have hMode : ({ s.awg3.row.ban with
      isTempBlocked := false
      isPermanentBlocked := false
      blockUntil := none
      blockReason := none } : BanColumns).reason c.now = some .accessExpired := by
    have hStill : ({ s.awg3.row.ban with
        isTempBlocked := false
        isPermanentBlocked := false
        blockUntil := none
        blockReason := none } : BanColumns).expired c.now = true := hExpired
    simp only [BanColumns.reason, BanColumns.mode, hStill]
    rfl
  rw [hMode] at hReason
  simp at hReason

/-! ## A reconcile makes up for a failure -/

/-- A bare reconcile of both services that succeeds. -/
def recoverCall (actor : String) (later : Reading) : TwinCall := ⟨.reconcile, actor, later, false⟩

/-- Whatever is reconciled later ends where a success followed by that reconcile does. -/
def Recovers (s : Twins) (c : TwinCall) : Prop :=
  ∀ actor later, c.now ≤ later.now →
    ((s.after c).after (recoverCall actor later)).Same
      ((s.after { c with raises := false }).after (recoverCall actor later))

namespace BanColumns

/-- Reconciling at two moments is reconciling at the later one. -/
theorem reconciled_reconciled (b : BanColumns) {now later : Time} (h : now ≤ later) :
    (b.reconciled now).reconciled later = b.reconciled later := by
  have hMonotone : b.lapsed now = true → b.lapsed later = true := by
    simp only [lapsed, Bool.and_eq_true]
    rintro ⟨hTemp, hUntil⟩
    refine ⟨hTemp, ?_⟩
    cases hBu : b.blockUntil with
    | none => simp [hBu] at hUntil
    | some t =>
      simp only [hBu, decide_eq_true_eq] at hUntil
      simpa using Int.le_trans hUntil h
  cases hLapsed : b.lapsed now with
  | false =>
    have hSame : b.reconciled now = { b with blockReason := b.reason now } := by
      simp [reconciled, hLapsed]
    rw [hSame]
    rfl
  | true =>
    have hLater := hMonotone hLapsed
    have hActive := lapsed_not_active hLater
    have hSame : b.reconciled now =
        { b with isTempBlocked := false, blockUntil := none, blockReason := b.reason now } := by
      simp [reconciled, hLapsed]
    have hReason : ({ b with
        isTempBlocked := false
        blockUntil := none
        blockReason := b.reason now } : BanColumns).reason later = b.reason later := by
      simp only [reason, mode, hActive]
      rfl
    rw [hSame]
    simp only [reconciled, hReason, hLater]
    simp [lapsed]

/-- A reconcile from a peer that follows the stored reason leaves one that does. -/
theorem attempt_coupled (before : BanColumns) {entered : BanColumns} {live : Bool} (now : Time)
    (force : Bool) (h : live = entered.blockReason.isNone) :
    ((attempt before entered now force).run false live).live =
      (entered.reason now).isNone := by
  unfold attempt call Attempt.run
  simp only []
  by_cases hForce : (force || entered.blockReason != entered.reason now) = true
  · rw [if_pos hForce]
    show (!(entered.reason now).isSome) = (entered.reason now).isNone
    cases entered.reason now <;> rfl
  · rw [if_neg hForce]
    simp only [Bool.or_eq_true, bne_iff_ne, ne_eq, not_or, not_not] at hForce
    rw [← hForce.2]
    exact h

end BanColumns

/-- The AmneziaWG 3 client after a call, in terms of the ban. -/
theorem twinAwg3_eq (client : Client Awg3Row) (c : TwinCall) : let after := (BanColumns.attempt
      (if c.op.writesFlags then client.row.ban else client.row.ban.enter c.op c.now)
      (client.row.ban.enter c.op c.now) c.now c.op.forcesRuntime).run c.raises client.live
    (twinAwg3 client c).row.ban = after.row ∧ (twinAwg3 client c).live = after.live := by
  have hReport := awg3Report_eq client c
  exact ⟨congrArg BlockReport.ban hReport, congrArg BlockReport.live hReport⟩

theorem attempt_run_row (before entered : BanColumns) (now : Time) (force live : Bool) :
    ((BanColumns.attempt before entered now force).run false live).row =
      entered.reconciled now := by
  unfold BanColumns.attempt Attempt.run
  cases entered.call now force <;> rfl

/-- A bare reconcile that succeeds: the ban reconciled, the peer as it calls for. -/
theorem twinAwg3_recover {client : Client Awg3Row} (actor : String) (later : Reading)
    (h : client.live = client.row.ban.blockReason.isNone) :
    (twinAwg3 client (recoverCall actor later)).row.ban = client.row.ban.reconciled later.now ∧
      (twinAwg3 client (recoverCall actor later)).live =
        (client.row.ban.reason later.now).isNone := by
  obtain ⟨hBan, hLive⟩ := twinAwg3_eq client (recoverCall actor later)
  refine ⟨hBan.trans (attempt_run_row _ _ _ _ _), ?_⟩
  exact hLive.trans (BanColumns.attempt_coupled _ later.now false h)

/-- A forced call that succeeds leaves the peer as the ban calls for. -/
theorem attempt_run_forced (before entered : BanColumns) (now : Time) (live : Bool) :
    ((BanColumns.attempt before entered now true).run false live).live =
      (entered.reason now).isNone := by
  show (!(entered.reason now).isSome) = (entered.reason now).isNone
  cases entered.reason now <;> rfl

/-- Calls that lose nothing leave the peer following the stored reason, whether they
raise or not. -/
theorem coupled_after (h : s.Coupled)
    (hKept : c.loses s.awg3.row.ban = false) : (s.after c).Coupled := by
  obtain ⟨hBan, hLive⟩ := twinAwg3_eq s.awg3 c
  show (twinAwg3 s.awg3 c).live = (twinAwg3 s.awg3 c).row.ban.blockReason.isNone
  rw [hBan, hLive]
  cases hRaises : c.raises with
  | false =>
    rw [attempt_run_row]
    cases hOp : c.op with
    | reconcile => exact BanColumns.attempt_coupled _ c.now false h
    | tempBlock days | permanentBlock | unblock | setAccessUntil t =>
      exact attempt_run_forced _ _ _ _
  | true =>
    obtain ⟨hBefore, hReason⟩ := c.kept_of_raises hKept hRaises
    have hEntered : s.awg3.live = (s.awg3.row.ban.enter c.op c.now).blockReason.isNone := by
      rw [hReason]
      exact h
    rw [hBefore]
    unfold BanColumns.attempt Attempt.run
    cases hCall : (s.awg3.row.ban.enter c.op c.now).call c.now c.op.forcesRuntime with
    | some b => exact hEntered
    | none =>
      have hNoCall := BanColumns.attempt_coupled (s.awg3.row.ban.enter c.op c.now) c.now
        c.op.forcesRuntime hEntered
      unfold BanColumns.attempt Attempt.run at hNoCall
      rw [hCall] at hNoCall
      exact hNoCall

/-- Where nothing is lost only the reconciled ban matters for a later reconcile. -/
theorem after_ban_reconciled {later : Time} (hLater : c.now ≤ later)
    (hKept : c.loses s.awg3.row.ban = false) :
    (s.after c).awg3.row.ban.reconciled later =
      (s.awg3.row.ban.enter c.op c.now).reconciled later := by
  show (twinAwg3 s.awg3 c).row.ban.reconciled later = _
  rw [(twinAwg3_eq s.awg3 c).1]
  cases hRaises : c.raises with
  | false => rw [attempt_run_row, BanColumns.reconciled_reconciled _ hLater]
  | true =>
    rw [(c.kept_of_raises hKept hRaises).1]
    unfold BanColumns.attempt Attempt.run
    cases (s.awg3.row.ban.enter c.op c.now).call c.now c.op.forcesRuntime with
    | some b => rfl
    | none => exact BanColumns.reconciled_reconciled _ hLater

/-- **A later reconcile makes up for a failed deadline or reconcile.** -/
theorem recovers_of_alike (h : s.Agree) (hCoupled : s.Coupled)
    (hAlike : c.alike s.awg3.row.ban = true) : Recovers s c := by
  intro actor later hLater
  simp only [TwinCall.alike, Bool.and_eq_true, Bool.not_eq_true'] at hAlike
  obtain ⟨hOpen, hKept⟩ := hAlike
  have hEnds : ∀ d : TwinCall, d.op = c.op → d.reading = c.reading →
      d.loses s.awg3.row.ban = false →
      ((s.after d).after (recoverCall actor later)).Agree ∧
      ((s.after d).after (recoverCall actor later)).awg3.row.ban =
        (s.awg3.row.ban.enter c.op c.now).reconciled later.now ∧
      ((s.after d).after (recoverCall actor later)).awg3.live =
        ((s.awg3.row.ban.enter c.op c.now).reason later.now).isNone := by
    intro d hOp hReading hDKept
    have hNow : d.now = c.now := congrArg Reading.now hReading
    have hDAlike : d.alike s.awg3.row.ban = true := by
      simp only [TwinCall.alike, hOp, hNow, hOpen, hDKept, Bool.not_false, Bool.and_self]
    have hAgree := agree_of_sameReport h (sameReport_of_alike h hDAlike)
    have hRecoverAlike : (recoverCall actor later).alike (s.after d).awg3.row.ban = true := by
      simp [TwinCall.alike, TwinCall.loses, recoverCall, unblocksExpired]
    have hDCoupled := coupled_after hCoupled hDKept
    obtain ⟨hBan, hLive⟩ := twinAwg3_recover actor later hDCoupled
    have hLaterD : d.now ≤ later.now := hNow ▸ hLater
    have hReconciled := after_ban_reconciled hLaterD hDKept
    rw [hOp, hNow] at hReconciled
    refine ⟨agree_of_sameReport hAgree (sameReport_of_alike hAgree hRecoverAlike),
      hBan.trans hReconciled, hLive.trans ?_⟩
    exact congrArg (fun b => b.blockReason.isNone) hReconciled
  obtain ⟨hAgree, hBan, hLive⟩ := hEnds c rfl rfl hKept
  obtain ⟨hAgree', hBan', hLive'⟩ := hEnds { c with raises := false } rfl rfl
    (by simp [TwinCall.loses])
  refine ⟨⟨?_, ?_⟩, hBan.trans hBan'.symm, hLive.trans hLive'.symm⟩
  · rw [hAgree.ban, hAgree'.ban, hBan, hBan']
  · rw [hAgree.live, hAgree'.live, hLive, hLive']

/-- A call that the services take alike keeps agreeing, coupled twins so. -/
theorem kept_of_alike (h : s.Agree ∧ s.Coupled)
    (hAlike : c.alike s.awg3.row.ban = true) : (s.after c).Agree ∧ (s.after c).Coupled := by
  refine ⟨agree_of_sameReport h.1 (sameReport_of_alike h.1 hAlike), coupled_after h.2 ?_⟩
  simp only [TwinCall.alike, Bool.and_eq_true, Bool.not_eq_true'] at hAlike
  exact hAlike.2

/-! ## Whole runs -/

/-- **AmneziaWG 3 clients under the policy of AmneziaWG2 clients.** From agreeing rows
and peers, a run without failures has both services report the same at every step
exactly when no unblock meets a past deadline. With failures too, as long as none of
them takes a change of the block with it, and a later reconcile then ends where it
would have ended had the call succeeded. -/
theorem awg3_same_policy {s : Twins} (h : s.Agree) (calls : List TwinCall) :
    ((∀ c ∈ calls, c.raises = false) →
      (Along twinStep SameReport s calls ↔
        Along twinStep (fun s c => unblocksExpired c.op s.awg3.row.ban c.now = false) s calls)) ∧
    (s.Coupled → Along twinStep (fun s c => c.alike s.awg3.row.ban = true) s calls →
      Along twinStep (fun s c => SameReport s c ∧ Recovers s c) s calls) := by
  have hAfter : ∀ {s s' : Twins} {c : TwinCall}, twinStep s c = some s' → s' = s.after c :=
    fun hStep => (Option.some.inj hStep).symm
  constructor
  · intro hSucceeds
    refine along_congr_on ?_ ?_ h
    · intro c hMem s hAgree
      constructor
      · intro hSame
        by_contra hOpen
        exact not_sameReport_of_unblocksExpired hAgree (hSucceeds c hMem)
          (Bool.of_not_eq_false hOpen) hSame
      · intro hOpen
        refine sameReport_of_alike hAgree ?_
        simp [TwinCall.alike, TwinCall.loses, hOpen, hSucceeds c hMem]
    · intro c _ s s' hAgree hSame hStep
      exact hAfter hStep ▸ agree_of_sameReport hAgree hSame
  · intro hCoupled hAlike
    have hBoth : ∀ (s : Twins) (c : TwinCall), s.Agree ∧ s.Coupled →
        (c.alike s.awg3.row.ban = true ↔
          (s.Agree ∧ s.Coupled) ∧ c.alike s.awg3.row.ban = true) :=
      fun _ _ hInv => ⟨fun hC => ⟨hInv, hC⟩, And.right⟩
    have hAlong := (along_congr hBoth
      (fun _ _ _ hInv hC hStep => hAfter hStep ▸ kept_of_alike hInv hC)
      ⟨h, hCoupled⟩ calls).mp hAlike
    exact hAlong.mono fun s c hC =>
      ⟨sameReport_of_alike hC.1.1 hC.2, recovers_of_alike hC.1.1 hC.1.2 hC.2⟩

/-- A client of both services without bans, with the deadline given. -/
def freshTwins (accessUntil : Option Time) : Twins :=
  ⟨⟨{ accessUntil }, true⟩, ⟨{ accessUntil }, true⟩⟩

/-- Deadline 10, unblocked by the administrator at 20: AmneziaWG2 lets the client in,
AmneziaWG 3 blocks it. -/
theorem unblock_after_deadline_parts :
    let unblock : TwinCall := ⟨.unblock, "admin", ⟨20, fun _ => 0⟩, false⟩
    let s := freshTwins (some 10)
    ¬ Along twinStep SameReport s [unblock] ∧
      (s.after unblock).awg2.live = true ∧ (s.after unblock).awg2.row.blockReason = none ∧
      (s.after unblock).awg3.live = false ∧
      (s.after unblock).awg3.row.blockReason = some .accessExpired := by
  refine ⟨fun h => ?_, by decide, by decide, by decide, by decide⟩
  have hLive := congrArg BlockReport.live h.1
  revert hLive
  decide

/-- The same policy for a deadline whose runtime call fails and a temporary block that
succeeds. -/
theorem deadline_then_temp_block_same : let calls : List TwinCall :=
      [⟨.setAccessUntil (some 10), "admin", ⟨20, fun _ => 0⟩, true⟩,
        ⟨.tempBlock 1, "admin", ⟨30, fun _ => 0⟩, false⟩]
    Along twinStep (fun s c => SameReport s c ∧ Recovers s c) (freshTwins none) calls := by
  intro calls
  have hAgree : (freshTwins none).Agree := ⟨rfl, rfl, rfl⟩
  exact (awg3_same_policy hAgree calls).2 rfl (by decide)

end AdminPanel.Access
