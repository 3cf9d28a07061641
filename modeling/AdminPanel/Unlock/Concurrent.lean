import AdminPanel.Lib.Runs
import AdminPanel.Unlock.Effect

/-!
# Concurrent calls on unlock codes

Any number of `redeem_unlock_code` and `revoke_unlock_code` calls, interleaved
at their database steps. A read sees the committed database. Writes are
serialised: the reserving `UPDATE` takes the write lock and its call keeps it
until it commits or rolls back; other writes wait.

* `Phase` — where a call is, with what it has read;
* `Move` — what a call does next, as a function of the committed database and its
  own phase (`takeLock_inv`, `release_inv`, `write_inv`, `read_inv`);
* `sysStep` — one move of one call, if the lock allows it;
* `sysStep_cases` — what a step can do.

A step may fail. Up to the commit the failure rolls back and leaves the call. A
reconcile after the commit is different: in the client portal its failure leaves
`redeem_unlock_code`, in the user portal `_reconcile_owned_client_queue` logs it
and goes on. Behind the reconciles both portals read the database once more,
outside any `try`, and what fails there leaves the call.
-/

namespace AdminPanel.Unlock

open Lib (Table Session bind_ok map_ok)
open Access Panel

inductive CodeCall where
  | redeem (req : RedeemRequest)
  | revoke (code : String) (now : Time)

inductive CallError where
  | refused (e : RedeemError)
  | codeNotFound
  | aborted
  | reconcileFailed
  deriving DecidableEq

inductive Phase where
  | start
  | codeRead (code : UnlockCode)
  | configsRead (code : UnlockCode) (canonicalName : String) (clientProtocols : List Protocol)
  | userRead (code : UnlockCode) (canonicalName : String) (clientProtocols : List Protocol)
      (user : Option User)
  | loading (claim : Claim) (rest : List Protocol)
  | reserved (claim : Claim)
  | reconciling (keys : List PolicyKey)
  | revoking
  | returned
  | raised (e : CallError)

/-- A call that has nothing left to undo: it is past its commit. -/
def Phase.committed : Phase → Bool
  | .reconciling _ => true
  | .returned => true
  | .raised .reconcileFailed => true
  | _ => false

/-- How a step ends. A reconcile that fails may have committed its row before: the
OpenVPN reconcile commits, then writes the ban file. -/
inductive Outcome where
  | succeeds
  | fails (afterCommit : Bool)
  deriving DecidableEq

/-- A step of the call `proc`; a reconcile reads the clock and the traffic. -/
structure Act (ι : Type) where
  proc : ι
  reading : Reading
  outcome : Outcome

/-- A step that succeeds, at time 0 and without traffic. -/
def turn {ι : Type} (i : ι) : Act ι := ⟨i, ⟨0, fun _ => 0⟩, .succeeds⟩

/-- What a call does next. `takeLock` keeps the write lock, `release` gives it
back, `write` is a transaction of its own. -/
inductive Move where
  | read (next : Phase)
  | takeLock (next : Phase)
  | release (db : Db) (next : Phase)
  | write (db : Db) (next : Phase)
  | finished

def orRaise (result : Except RedeemError Phase) : Phase :=
  match result with
  | .ok phase => phase
  | .error e => .raised (.refused e)

/-- The policy rows after a reconcile that ends in `outcome`. -/
def reconcileEnding (policies : Table PolicyKey PolicyRow) (key : PolicyKey) (r : Reading) :
    Outcome → Table PolicyKey PolicyRow
  | .succeeds => reconcileKey policies key r
  | .fails afterCommit =>
    if afterCommit && decide (key.protocol = .openvpn) then reconcileKey policies key r
    else policies

def redeemMove (req : RedeemRequest) (db : Db) (r : Reading) (outcome : Outcome) :
    Phase → Move
  | .start =>
    .read <| orRaise <| do
      ensure (decide (req.nodeId ∈ db.nodes)) .nodeNotFound
      let code ← checkCode req (db.codes.row? req.codeText)
      return .codeRead code
  | .codeRead code =>
    .read (.configsRead code (clientConfigNameAndProtocols db req.nodeId req.clientKey).1
      (clientConfigNameAndProtocols db req.nodeId req.clientKey).2)
  | .configsRead code canonicalName clientProtocols =>
    .read <| orRaise <| (checkUser db req).map (.userRead code canonicalName clientProtocols)
  | .userRead code canonicalName clientProtocols user =>
    .read <| orRaise <| (checkDuplicate db req code clientProtocols).map fun applied =>
      .loading ⟨code, canonicalName, applied, user, .empty⟩ policyProtocols
  | .loading claim (p :: rest) =>
    .read (.loading
      { claim with session :=
          claim.session.load db.policies (profileKey req.nodeId claim.canonicalName p) } rest)
  | .loading claim [] =>
    if manuallyBlocked req.nodeId claim then .read (.raised (.refused .manualBlock))
    else
      match db.codes.row? req.codeText with
      | none => .write db (.raised (.refused .invalid))
      | some stored =>
        if reservable stored req.now then .takeLock (.reserved claim)
        else .write db (.raised (.refused (missedReason stored req.now)))
  | .reserved claim =>
    match grantAndCommit db req claim with
    | .ok db' => .release db' (.reconciling (reconciledKeys db' req claim))
    | .error e => .release db (.raised (.refused e))
  | .reconciling (key :: keys) =>
    .write { db with policies := reconcileEnding db.policies key r outcome }
      (match outcome with
        | .succeeds => .reconciling keys
        | .fails _ =>
          if req.userId.isNone then .raised .reconcileFailed else .reconciling keys)
  -- `list_owned_client_targets` or `_vpn_config_client_name_for_protocol`
  | .reconciling [] =>
    .read (match outcome with
      | .succeeds => .returned
      | .fails _ => .raised .reconcileFailed)
  | .revoking => .finished
  | .returned => .finished
  | .raised _ => .finished

/-- `revoke_unlock_code`: read the row, then set `revoked_at` and commit. -/
def revokeMove (codeText : String) (now : Time) (db : Db) : Phase → Move
  | .start =>
    match db.codes.row? codeText with
    | none => .read (.raised .codeNotFound)
    | some code => if code.revokedAt.isSome then .read .returned else .read .revoking
  | .revoking =>
    match db.codes.row? codeText with
    | none => .write db .returned
    | some code =>
      let codes := db.codes.set codeText { code with revokedAt := some now }
      .write { db with codes := codes } .returned
  | _ => .finished

/-- A failure before the commit: what the call has written is rolled back. -/
def abortMove (db : Db) : Phase → Move
  | .reserved _ => .release db (.raised .aborted)
  | .returned => .finished
  | .raised _ => .finished
  | _ => .read (.raised .aborted)

def callMove (call : CodeCall) (db : Db) (r : Reading) (outcome : Outcome) (phase : Phase) : Move :=
  if outcome ≠ .succeeds ∧ phase.committed = false then abortMove db phase
  else
    match call with
    | .redeem req => redeemMove req db r outcome phase
    | .revoke codeText now => revokeMove codeText now db phase

/-! ## Moves, by kind -/

variable {call : CodeCall} {db db' : Db} {r : Reading} {outcome : Outcome}
  {phase next : Phase}

/-- Only a redemption past its checks takes the lock, and finds a free slot. -/
theorem takeLock_inv (h : callMove call db r outcome phase = .takeLock next) :
    ∃ req claim stored, call = .redeem req ∧ phase = .loading claim [] ∧
      next = .reserved claim ∧ db.codes.row? req.codeText = some stored ∧
      reservable stored req.now = true := by
  unfold callMove at h
  split at h
  · cases phase <;> cases h
  cases call with
  | revoke codeText now =>
    cases phase <;> simp only [revokeMove] at h <;> (try split at h) <;> (try split at h) <;>
      simp at h
  | redeem req =>
    cases phase with
    | loading claim rest =>
      cases rest with
      | cons p rest => cases h
      | nil =>
        simp only [redeemMove] at h
        split at h
        · simp at h
        split at h
        · simp at h
        · next stored hStored =>
          split at h
          · next hFree =>
            cases h
            exact ⟨req, claim, stored, rfl, rfl, rfl, hStored, hFree⟩
          · simp at h
    | reserved claim =>
      simp only [redeemMove] at h
      split at h <;> cases h
    | reconciling keys => cases keys <;> cases h
    | _ => cases h

/-- The lock is given back by a commit or by a rollback. -/
theorem release_inv (h : callMove call db r outcome phase = .release db' next) :
    ∃ claim, phase = .reserved claim ∧
      ((∃ req, call = .redeem req ∧ grantAndCommit db req claim = .ok db' ∧
          next = .reconciling (reconciledKeys db' req claim)) ∨
        (∃ e, e ≠ .reconcileFailed ∧ db' = db ∧ next = .raised e)) := by
  unfold callMove at h
  split at h
  · cases phase with
    | reserved claim =>
      cases h
      exact ⟨claim, rfl, .inr ⟨.aborted, by decide, rfl, rfl⟩⟩
    | _ => cases h
  cases call with
  | revoke codeText now =>
    cases phase <;> simp only [revokeMove] at h <;> (try split at h) <;> (try split at h) <;>
      simp at h
  | redeem req =>
    cases phase with
    | reserved claim =>
      refine ⟨claim, rfl, ?_⟩
      simp only [redeemMove] at h
      split at h
      · next db₁ hOk =>
        cases h
        exact .inl ⟨req, rfl, hOk, rfl⟩
      · next e hError =>
        cases h
        exact .inr ⟨.refused e, by simp, rfl, rfl⟩
    | loading claim rest =>
      cases rest with
      | cons p rest => cases h
      | nil =>
        simp only [redeemMove] at h
        split at h
        · simp at h
        · split at h
          · simp at h
          · split at h <;> cases h
    | reconciling keys => cases keys <;> cases h
    | _ => cases h

/-- A transaction of its own: a missed reservation, a reconcile, a revocation. -/
theorem write_inv (h : callMove call db r outcome phase = .write db' next) :
    (∃ req claim e, call = .redeem req ∧ phase = .loading claim [] ∧ db' = db ∧
      next = .raised (.refused e)) ∨
    (∃ req key keys, call = .redeem req ∧ phase = .reconciling (key :: keys) ∧
      db' = { db with policies := reconcileEnding db.policies key r outcome } ∧
      (next = .reconciling keys ∨
        (outcome ≠ .succeeds ∧ req.userId = none ∧ next = .raised .reconcileFailed))) ∨
    (∃ codeText now, call = .revoke codeText now ∧ phase = .revoking ∧ next = .returned ∧
      (db' = db ∨ ∃ code, db.codes.row? codeText = some code ∧
        db' = { db with codes := db.codes.set codeText { code with revokedAt := some now } })) := by
  unfold callMove at h
  split at h
  · cases phase <;> cases h
  cases call with
  | revoke codeText now =>
    refine .inr (.inr ?_)
    cases phase with
    | start =>
      simp only [revokeMove] at h
      split at h
      · simp at h
      · split at h <;> cases h
    -- a code that is gone meanwhile is left alone
    | revoking =>
      simp only [revokeMove] at h
      split at h
      · cases h
        exact ⟨codeText, now, rfl, rfl, rfl, .inl rfl⟩
      · next code hCode =>
        cases h
        exact ⟨codeText, now, rfl, rfl, rfl, .inr ⟨code, hCode, rfl⟩⟩
    | _ => cases h
  | redeem req =>
    cases phase with
    | loading claim rest =>
      cases rest with
      | cons p rest => cases h
      | nil =>
        refine .inl ?_
        simp only [redeemMove] at h
        split at h
        · simp at h
        · split at h
          · cases h
            exact ⟨req, claim, _, rfl, rfl, rfl, rfl⟩
          · split at h
            · simp at h
            · cases h
              exact ⟨req, claim, _, rfl, rfl, rfl, rfl⟩
    | reconciling keys =>
      cases keys with
      | nil => cases h
      | cons key keys =>
        refine .inr (.inl ⟨req, key, keys, rfl, rfl, ?_⟩)
        simp only [redeemMove, Move.write.injEq] at h
        obtain ⟨rfl, rfl⟩ := h
        refine ⟨rfl, ?_⟩
        cases outcome with
        | succeeds => exact .inl rfl
        | fails afterCommit =>
          cases hUser : req.userId with
          | none => exact .inr ⟨by simp, rfl, by simp⟩
          | some id => exact .inl (by simp)
    | reserved claim =>
      simp only [redeemMove] at h
      split at h <;> cases h
    | _ => cases h

/-- The steps that only read. -/
inductive ReadStep (call : CodeCall) (db : Db) : Phase → Phase → Prop where
  | raise {phase : Phase} (e : CallError) (hUndone : e ≠ .reconcileFailed)
      (hPhase : phase.committed = false) : ReadStep call db phase (.raised e)
  | code (req : RedeemRequest) (code : UnlockCode) (hCall : call = .redeem req)
      (hCode : checkCode req (db.codes.row? req.codeText) = .ok code) :
      ReadStep call db .start (.codeRead code)
  | configs (req : RedeemRequest) (code : UnlockCode) (hCall : call = .redeem req) :
      ReadStep call db (.codeRead code)
        (.configsRead code (clientConfigNameAndProtocols db req.nodeId req.clientKey).1
          (clientConfigNameAndProtocols db req.nodeId req.clientKey).2)
  | user (req : RedeemRequest) (code : UnlockCode) (canonicalName : String)
      (clientProtocols : List Protocol) (user : Option User) (hCall : call = .redeem req)
      (hUser : checkUser db req = .ok user) :
      ReadStep call db (.configsRead code canonicalName clientProtocols)
        (.userRead code canonicalName clientProtocols user)
  | duplicate (req : RedeemRequest) (code : UnlockCode) (canonicalName : String)
      (clientProtocols applied : List Protocol) (user : Option User) (hCall : call = .redeem req)
      (hApplied : checkDuplicate db req code clientProtocols = .ok applied) :
      ReadStep call db (.userRead code canonicalName clientProtocols user)
        (.loading ⟨code, canonicalName, applied, user, .empty⟩ policyProtocols)
  | load (req : RedeemRequest) (claim : Claim) (p : Protocol) (rest : List Protocol)
      (hCall : call = .redeem req) :
      ReadStep call db (.loading claim (p :: rest))
        (.loading
          { claim with session :=
              claim.session.load db.policies (profileKey req.nodeId claim.canonicalName p) } rest)
  | reconciled (req : RedeemRequest) (hCall : call = .redeem req) :
      ReadStep call db (.reconciling []) .returned
  | readFailed (req : RedeemRequest) (hCall : call = .redeem req) :
      ReadStep call db (.reconciling []) (.raised .reconcileFailed)
  | revoked (codeText : String) (now : Time) (hCall : call = .revoke codeText now) :
      ReadStep call db .start .returned
  | unrevoked (codeText : String) (now : Time) (hCall : call = .revoke codeText now) :
      ReadStep call db .start .revoking

theorem orRaise_inv {result : Except RedeemError Phase} (h : orRaise result = next) :
    result = .ok next ∨ ∃ e, next = .raised (.refused e) := by
  cases result with
  | ok phase => exact .inl (congrArg Except.ok h)
  | error e => exact .inr ⟨e, h.symm⟩

/-- A step that only reads. -/
theorem redeemMove_read {req : RedeemRequest} (h : redeemMove req db r outcome phase = .read next) :
    ReadStep (.redeem req) db phase next := by
  cases phase with
  | start =>
    obtain hOk | ⟨e, rfl⟩ := orRaise_inv (Move.read.inj h)
    · obtain ⟨_, -, hOk⟩ := bind_ok hOk
      obtain ⟨code, hCode, hOk⟩ := bind_ok hOk
      cases hOk
      exact .code req code rfl hCode
    · exact .raise _ (by simp) rfl
  | codeRead code =>
    cases h
    exact .configs req code rfl
  | configsRead code canonicalName clientProtocols =>
    obtain hOk | ⟨e, rfl⟩ := orRaise_inv (Move.read.inj h)
    · obtain ⟨user, hUser, rfl⟩ := map_ok hOk
      exact .user req code canonicalName clientProtocols user rfl hUser
    · exact .raise _ (by simp) rfl
  | userRead code canonicalName clientProtocols user =>
    obtain hOk | ⟨e, rfl⟩ := orRaise_inv (Move.read.inj h)
    · obtain ⟨applied, hApplied, rfl⟩ := map_ok hOk
      exact .duplicate req code canonicalName clientProtocols applied user rfl hApplied
    · exact .raise _ (by simp) rfl
  | loading claim rest =>
    -- with the last policy loaded the claim is written, which is no read
    cases rest with
    | cons p rest =>
      cases h
      exact .load req claim p rest rfl
    | nil =>
      simp only [redeemMove] at h
      split at h
      · cases h
        exact .raise _ (by simp) rfl
      · split at h
        · simp at h
        · split at h <;> cases h
  | reserved claim =>
    simp only [redeemMove] at h
    split at h <;> cases h
  | reconciling keys =>
    cases keys with
    | cons key keys => cases h
    | nil =>
      obtain rfl := Move.read.inj h
      cases outcome with
      | succeeds => exact .reconciled req rfl
      | fails afterCommit => exact .readFailed req rfl
  | _ => cases h

theorem read_inv (h : callMove call db r outcome phase = .read next) :
    ReadStep call db phase next := by
  unfold callMove at h
  split at h
  · next hAbort =>
    have hNext : next = .raised .aborted := by cases phase <;> cases h <;> rfl
    subst hNext
    exact .raise _ (by decide) hAbort.2
  cases call with
  | redeem req => exact redeemMove_read h
  | revoke codeText now =>
    cases phase with
    | start =>
      simp only [revokeMove] at h
      split at h
      · cases h
        exact .raise _ (by decide) rfl
      · split at h
        · cases h
          exact .revoked codeText now rfl
        · cases h
          exact .unrevoked codeText now rfl
    | revoking =>
      simp only [revokeMove] at h
      split at h <;> cases h
    | _ => cases h

/-! ## The system -/

structure System (ι : Type) where
  db : Db
  lock : Option ι
  phase : ι → Phase

def System.start (ι : Type) (db : Db) : System ι := ⟨db, none, fun _ => .start⟩

variable {ι : Type} [DecidableEq ι]

def System.goto (s : System ι) (i : ι) (next : Phase) (db : Db) (lock : Option ι) : System ι :=
  ⟨db, lock, Function.update s.phase i next⟩

@[simp] theorem System.goto_db (s : System ι) (i : ι) (next : Phase) (db : Db)
    (lock : Option ι) : (s.goto i next db lock).db = db := rfl

@[simp] theorem System.goto_lock (s : System ι) (i : ι) (next : Phase) (db : Db)
    (lock : Option ι) : (s.goto i next db lock).lock = lock := rfl

@[simp] theorem System.goto_phase_self (s : System ι) (i : ι) (next : Phase) (db : Db)
    (lock : Option ι) : (s.goto i next db lock).phase i = next := by
  simp [System.goto]

variable {i : ι}

@[simp] theorem System.goto_phase_of_ne (s : System ι) {j : ι} (next : Phase) (db : Db)
    (lock : Option ι) (h : j ≠ i) : (s.goto i next db lock).phase j = s.phase j := by
  simp [System.goto, h]

theorem System.forall_phase_goto {s : System ι} {next : Phase} {db : Db} {lock : Option ι}
    {P : ι → Phase → Prop} (hNext : P i next) (hOld : ∀ j, j ≠ i → P j (s.phase j)) (j : ι) :
    P j ((s.goto i next db lock).phase j) := by
  by_cases hj : j = i
  · subst hj
    rwa [System.goto_phase_self]
  · rw [System.goto_phase_of_ne _ _ _ _ hj]
    exact hOld j hj

/-- The move of the call that the step names. -/
def System.move (calls : ι → CodeCall) (s : System ι) (a : Act ι) : Move :=
  callMove (calls a.proc) s.db a.reading a.outcome (s.phase a.proc)

def sysStep (calls : ι → CodeCall) (s : System ι) (a : Act ι) : Option (System ι) :=
  match s.move calls a with
  | .read next => some (s.goto a.proc next s.db s.lock)
  | .takeLock next =>
    if s.lock = none then some (s.goto a.proc next s.db (some a.proc)) else none
  | .release db next =>
    if s.lock = some a.proc then some (s.goto a.proc next db none) else none
  | .write db next => if s.lock = none then some (s.goto a.proc next db none) else none
  | .finished => none

variable {calls : ι → CodeCall} {s s' : System ι} {a : Act ι}

/-- **What a step can do**: read, take the lock, end the transaction that holds it,
or write while nobody holds it. -/
theorem sysStep_cases (h : sysStep calls s a = some s') :
    (∃ next, s.move calls a = .read next ∧ s' = s.goto a.proc next s.db s.lock) ∨
    (∃ next, s.move calls a = .takeLock next ∧ s.lock = none ∧
      s' = s.goto a.proc next s.db (some a.proc)) ∨
    (∃ db next, s.move calls a = .release db next ∧ s.lock = some a.proc ∧
      s' = s.goto a.proc next db none) ∨
    (∃ db next, s.move calls a = .write db next ∧ s.lock = none ∧
      s' = s.goto a.proc next db none) := by
  unfold sysStep at h
  cases hMove : s.move calls a with
  | read next =>
    rw [hMove] at h
    exact .inl ⟨next, rfl, (Option.some.inj h).symm⟩
  | takeLock next =>
    rw [hMove] at h
    by_cases hLock : s.lock = none
    · simp only [hLock, if_true] at h
      exact .inr (.inl ⟨next, rfl, hLock, (Option.some.inj h).symm⟩)
    · simp [hLock] at h
  | release db next =>
    rw [hMove] at h
    by_cases hLock : s.lock = some a.proc
    · simp only [hLock, if_true] at h
      exact .inr (.inr (.inl ⟨db, next, rfl, hLock, (Option.some.inj h).symm⟩))
    · simp [hLock] at h
  | write db next =>
    rw [hMove] at h
    by_cases hLock : s.lock = none
    · simp only [hLock, if_true] at h
      exact .inr (.inr (.inr ⟨db, next, rfl, hLock, (Option.some.inj h).symm⟩))
    · simp [hLock] at h
  | finished =>
    rw [hMove] at h
    simp at h

/-! ## The lock -/

/-- A call between its reservation and its commit holds the lock. -/
def HoldsLock (s : System ι) : Prop :=
  ∀ i claim, s.phase i = .reserved claim → s.lock = some i

omit [DecidableEq ι] in
theorem holdsLock_start (db : Db) : HoldsLock (System.start ι db) := by
  intro i claim h
  cases h

omit [DecidableEq ι] in
theorem HoldsLock.not_reserved (hHolds : HoldsLock s)
    (hLock : s.lock = none ∨ s.lock = some i) {j : ι} (hj : j ≠ i) (claim : Claim) :
    s.phase j ≠ .reserved claim := by
  intro hPhase
  have hHeld := hHolds j claim hPhase
  rcases hLock with h | h
  · rw [h] at hHeld
    simp at hHeld
  · rw [h] at hHeld
    exact hj (Option.some.inj hHeld).symm

theorem ReadStep.not_reserved {call : CodeCall} {db : Db} {phase next : Phase}
    (h : ReadStep call db phase next) (claim : Claim) : next ≠ .reserved claim := by
  rintro rfl
  cases h

/-- Only `takeLock` leads to the reserved phase. -/
theorem reserved_step (hHolds : HoldsLock s) (h : sysStep calls s a = some s')
    {claim : Claim} (hi : s'.phase i = .reserved claim) :
    (s.phase i = .reserved claim ∧ s'.lock = s.lock ∧ s'.db = s.db) ∨
      (i = a.proc ∧ s.move calls a = .takeLock (.reserved claim) ∧ s'.lock = some i ∧
        s'.db = s.db) := by
  obtain ⟨next, hMove, rfl⟩ | ⟨next, hMove, hLock, rfl⟩ | ⟨db, next, hMove, hLock, rfl⟩ |
    ⟨db, next, hMove, hLock, rfl⟩ := sysStep_cases h <;>
    by_cases hia : i = a.proc
  · subst hia
    rw [System.goto_phase_self] at hi
    exact absurd hi ((read_inv hMove).not_reserved claim)
  · rw [System.goto_phase_of_ne _ _ _ _ hia] at hi
    exact .inl ⟨hi, rfl, rfl⟩
  · subst hia
    rw [System.goto_phase_self] at hi
    exact .inr ⟨rfl, hi ▸ hMove, rfl, rfl⟩
  · rw [System.goto_phase_of_ne _ _ _ _ hia] at hi
    exact absurd hi (hHolds.not_reserved (.inl hLock) hia claim)
  · subst hia
    rw [System.goto_phase_self] at hi
    obtain ⟨_, -, ⟨_, -, -, rfl⟩ | ⟨e, -, -, rfl⟩⟩ := release_inv hMove <;> cases hi
  · rw [System.goto_phase_of_ne _ _ _ _ hia] at hi
    exact absurd hi (hHolds.not_reserved (.inr hLock) hia claim)
  · subst hia
    rw [System.goto_phase_self] at hi
    obtain ⟨-, -, e, -, -, -, rfl⟩ | ⟨-, -, keys, -, -, -, rfl | ⟨-, -, rfl⟩⟩ |
      ⟨-, -, -, -, rfl, -⟩ := write_inv hMove <;> cases hi
  · rw [System.goto_phase_of_ne _ _ _ _ hia] at hi
    exact absurd hi (hHolds.not_reserved (.inl hLock) hia claim)

theorem holdsLock_step (hHolds : HoldsLock s) (h : sysStep calls s a = some s') : HoldsLock s' := by
  intro i claim hi
  obtain ⟨hOld, hLock, -⟩ | ⟨-, -, hLock, -⟩ := reserved_step hHolds h hi
  · rw [hLock]
    exact hHolds i claim hOld
  · exact hLock

end AdminPanel.Unlock
