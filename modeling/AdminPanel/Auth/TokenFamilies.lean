import AdminPanel.Auth.PasswordChange

/-!
# Token families

A login starts a family of refresh tokens, and every rotation adds a successor to it. Any number
of rotations, revocations and logins of the user run at the same time, each a database step at a
time.

* `RotateCall`, `FamilyState`, `familyStep` — the calls of `rotate_refresh_token`, the tokens, and
  the steps of the functions of the module;
* `Change`, `change_step` — a step revokes what it covers, or puts a successor in the place of a
  live row of its family;
* `Moved` — what that means for the live rows of one family.

Main result: `family_one_live_until_ended`.
-/

namespace AdminPanel.Auth

open List

open Lib (exec exec_append_iff exec_cons_iff invariant_of_exec)
open Access (Time)

/-! ## State -/

/-- A call of `rotate_refresh_token` for the token that it read as `row`. A successor is
committed before `db.refresh` reads it again. -/
inductive RotateCall
  | running (phase : RefreshPhase)
  | refreshing (row : RefreshToken) (token : Nat)
  | returned (row : RefreshToken) (token : Option Nat)
  | raised
  deriving DecidableEq, Repr

/-- A phase of a refresh request, as far as `rotate_refresh_token` is concerned. -/
def RotateCall.ofPhase : RefreshPhase → RotateCall
  | .minting row (some token) _ => .refreshing row token
  | .minting row none _ => .returned row none
  | .refused => .raised
  | phase => .running phase

def rotateNext (db : TokenDb) : RotateCall → Option (TokenDb × RotateCall)
  | .running phase => (refreshNext db phase).map fun (db, next) => (db, .ofPhase next)
  | .refreshing row token => some (db, .returned row (some token))
  | .returned _ _ | .raised => none

structure FamilyState where
  db : TokenDb
  calls : List RotateCall := []

inductive FamilyAction
  | wait (now : Time)
  | setActive (isActive : Bool)
  /-- `create_refresh_token` for another session. -/
  | login
  | rotate (token : Nat)
  | rotateNext (i : Nat)
  | revokeTokenFamily (familyId : Nat) (reason : RevokeReason)
  | revokeAllUserTokens (reason : RevokeReason)
  | invalidateUserSessions (reason : RevokeReason)

def FamilyState.setRows (s : FamilyState) (rows : List RefreshToken) : FamilyState :=
  { s with db := { s.db with rows := rows } }

def familyStep (s : FamilyState) : FamilyAction → Option FamilyState
  | .wait now => some { s with db := { s.db with now := now } }
  | .setActive isActive => some { s with db := { s.db with isActive := isActive } }
  | .login => some { s with db := createRefreshToken s.db s.db.rows none }
  | .rotate token => some { s with calls := s.calls ++ [.ofPhase (refreshBegin s.db token)] }
  | .rotateNext i =>
    s.calls[i]?.bind fun call => (rotateNext s.db call).map fun (db, next) =>
      { s with db := db, calls := s.calls.set i next }
  | .revokeTokenFamily familyId reason =>
    some (s.setRows (revokeTokenFamily familyId reason s.db.now s.db.rows))
  | .revokeAllUserTokens reason =>
    some (s.setRows (revokeAllUserTokens s.db.user reason s.db.now s.db.rows))
  | .invalidateUserSessions reason =>
    some { s with
      db := { s.db with
        tokenVersion := s.db.tokenVersion + 1
        rows := revokeAllUserTokens s.db.user reason s.db.now s.db.rows } }

/-- The row that the call presented. -/
def RotateCall.row? : RotateCall → Option RefreshToken
  | .running phase => phase.row?
  | .refreshing row _ | .returned row _ => some row
  | .raised => none

/-! ## What a family is for -/

/-- The unrevoked rows of a family. -/
def TokenDb.live (db : TokenDb) (familyId : Nat) : List RefreshToken :=
  db.rows.filter fun row => row.familyId == some familyId && !row.revoked

/-- The step is a revocation of the family, other than a rotation. -/
def Ends (familyId : Nat) (s : FamilyState) : FamilyAction → Prop
  | .revokeTokenFamily other reason => other = familyId ∧ reason ≠ .rotated
  | .revokeAllUserTokens reason | .invalidateUserSessions reason => reason ≠ .rotated
  | .rotateNext i => ∃ row, s.calls[i]? = some (.running (.reuse row)) ∧
      (row.familyId = some familyId ∨ row.familyId = none)
  | _ => False

/-- Only a row of a family is superseded. -/
def RotateCall.InFamily (call : RotateCall) : Prop :=
  ∀ row now, call = .running (.superseding row now) → row.familyId ≠ none

/-- Calls under way have read what is in the rows. -/
structure CallsSeen (s : FamilyState) : Prop where
  db : DbOk s.db
  seen : ∀ call ∈ s.calls, ∀ row ∈ call.row?, Seen s.db row
  inFamily : ∀ call ∈ s.calls, call.InFamily

/-- `create_refresh_token` has just started the family. -/
def FamilyStart (familyId : Nat) (s : FamilyState) : Prop :=
  ∃ before : FamilyState, CallsSeen before ∧ familyId = before.db.fresh + 1 ∧
    s = { before with db := createRefreshToken before.db before.db.rows none }

/-! ## What a step does to the rows -/

/-- The rows that the step of a call revokes as a reuse. -/
def RotateCall.target? : RotateCall → Option (RefreshToken → Bool)
  | .running (.reuse row) => some row.sameFamily
  | _ => none

/-- The rows that a revocation covers. -/
def FamilyState.target? (s : FamilyState) : FamilyAction → Option (RefreshToken → Bool)
  | .revokeTokenFamily familyId _ => some fun row => row.familyId == some familyId
  | .revokeAllUserTokens _ | .invalidateUserSessions _ => some fun row => row.userId == s.db.user
  | .rotateNext i => s.calls[i]?.bind RotateCall.target?
  | _ => none

/-- A step revokes what it covers, or a successor of the family `familyId?` takes the place of a
live row of that family. -/
inductive Change (db : TokenDb) : Option (RefreshToken → Bool) → TokenDb → Prop
  | same {db' : TokenDb} (hRows : db'.rows = db.rows) (hFresh : db'.fresh = db.fresh)
    (hUser : db'.user = db.user) : Change db none db'
  | revoke {db' : TokenDb} (p : RefreshToken → Bool) (reason : RevokeReason) (now : Time)
    (hRows : db'.rows = revokeWhere p reason now db.rows) (hFresh : db'.fresh = db.fresh)
    (hUser : db'.user = db.user) : Change db (some p) db'
  | begin : Change db none (createRefreshToken db db.rows none)
  | succeed (p : RefreshToken → Bool) (now : Time) {familyId? : Option Nat}
    {other : RefreshToken} (hOther : other ∈ db.rows) (hLive : other.revoked = false)
    (hHit : p other = true) (hFamily : ∀ hit ∈ db.rows, p hit = true → hit.familyId = familyId?)
    (hBound : ∀ f, familyId? = some f → f < db.fresh) :
    Change db none (createRefreshToken db (revokeWhere p .rotated now db.rows) familyId?)

variable {p : RefreshToken → Bool} {phase : RefreshPhase} {call next : RotateCall}
  {row : RefreshToken}

section

variable {db db' : TokenDb} {familyId : Nat}

theorem exists_live_of_any (h : (db.rows.any fun other => !other.revoked && p other) = true) :
    ∃ other ∈ db.rows, other.revoked = false ∧ p other = true := by
  obtain ⟨other, hOther, hBoth⟩ := any_eq_true.mp h
  rw [Bool.and_eq_true, Bool.not_eq_true'] at hBoth
  exact ⟨other, hOther, hBoth.1, hBoth.2⟩

/-- A step of a refresh changes the rows as `Change` says. -/
theorem change_refreshNext {next : RefreshPhase} (hSeen : ∀ row ∈ phase.row?, Seen db row)
    (hInFamily : (RotateCall.running phase).InFamily)
    (h : refreshNext db phase = some (db', next)) :
    Change db (RotateCall.running phase).target? db' := by
  cases phase with
  | reuse row =>
    cases h
    exact .revoke _ _ _ rfl rfl rfl
  | superseding row now =>
    simp only [refreshNext] at h
    split at h <;> cases h
    · next hAny =>
      obtain ⟨other, hOther, hLive, hHit⟩ := exists_live_of_any hAny
      refine .succeed _ now hOther hLive hHit ?_ (hSeen row rfl).placed.family
      intro hit _ hHit
      cases hOwn : row.familyId with
      | none => exact absurd hOwn (hInFamily row now rfl)
      | some f =>
        rw [liveInFamily, Bool.and_eq_true, RefreshToken.sameFamily, hOwn] at hHit
        exact beq_iff_eq.mp hHit.1
    · exact .same rfl rfl rfl
  | claiming row now =>
    simp only [refreshNext] at h
    split at h <;> cases h
    · next hAny =>
      obtain ⟨other, hOther, hLive, hHit⟩ := exists_live_of_any hAny
      refine .succeed _ now hOther hLive hHit ?_ (hSeen row rfl).placed.family
      exact fun hit hMem hHit => (hSeen row rfl).same hit hMem (beq_iff_eq.mp hHit)
    · exact .same rfl rfl rfl
  | checking row now | graceUser row now | liveUser row now | minting row refresh loaded =>
    cases h; exact .same rfl rfl rfl
  | refused | issued row refresh access => cases h

theorem change_rotateNext (hSeen : ∀ row ∈ call.row?, Seen db row)
    (hInFamily : call.InFamily) (h : rotateNext db call = some (db', next)) :
    Change db call.target? db' := by
  cases call with
  | running phase =>
    obtain ⟨⟨dbNext, phaseNext⟩, hNext, hEq⟩ := Option.map_eq_some_iff.mp h
    cases hEq
    exact change_refreshNext hSeen hInFamily hNext
  | refreshing row token => cases h; exact .same rfl rfl rfl
  | returned row token | raised => cases h

variable {target? : Option (RefreshToken → Bool)}

theorem Change.write (h : Change db target? db') : Write db db' := by
  cases h with
  | same hRows hFresh hUser => exact write_same hRows hUser (Nat.le_of_eq hFresh.symm)
  | revoke p reason now hRows hFresh hUser =>
    have hMap : Write db { db with rows := db.rows.map _ } :=
      write_map (revokes_revokeWhere p reason now)
    constructor
    · exact Nat.le_of_eq hFresh.symm
    · exact hUser
    · rw [hRows]
      exact hMap.ids
    · intro row' hMem
      rw [hRows] at hMem
      rcases hMap.mem row' hMem with hOld | ⟨hNew, hPlaced⟩
      · exact .inl hOld
      · exact .inr ⟨hNew, hFresh ▸ hPlaced.id, hPlaced.user.trans hUser.symm,
          fun f hf => hFresh ▸ hPlaced.family f hf⟩
  | begin => exact write_create_only (by simp)
  | succeed p now hOther hLive hHit hFamily hBound =>
    exact write_create (revokes_revokeWhere _ _ _) hBound

/-! ## The live rows of one family -/

theorem mem_live : row ∈ db.live familyId ↔
      row ∈ db.rows ∧ row.familyId = some familyId ∧ row.revoked = false := by
  simp [TokenDb.live]

/-- The live rows of a family stay or go, or one new row is in the place of them all. -/
inductive Moved (familyId : Nat) (db db' : TokenDb) : Prop
  | kept (h : ∀ row ∈ db'.live familyId, row ∈ db.live familyId)
  | replaced {old new : RefreshToken} (hOld : old ∈ db.live familyId)
    (h : ∀ row ∈ db'.live familyId, row = new)

/-- What an `UPDATE` leaves unrevoked it has not hit. -/
theorem live_of_mem_revokeWhere {reason : RevokeReason} {now : Time}
    {rows : List RefreshToken} (hMem : row ∈ revokeWhere p reason now rows)
    (hLive : row.revoked = false) : row ∈ rows ∧ p row = false := by
  obtain ⟨old, hOld, rfl⟩ := mem_map.mp hMem
  split at hLive
  · cases hLive
  · next hKept =>
    rw [if_neg hKept]
    rw [hLive, Bool.not_false, Bool.true_and, Bool.not_eq_true] at hKept
    exact ⟨hOld, hKept⟩

/-- A family with one live token has one or none after a change. -/
theorem Change.moved (h : Change db target? db') (hFamily : familyId < db.fresh)
    (hOne : ∀ row ∈ db.live familyId, ∀ other ∈ db.live familyId, row = other) :
    Moved familyId db db' := by
  cases h with
  | same hRows hFresh hUser =>
    refine .kept fun row hRow => ?_
    rwa [TokenDb.live, hRows] at hRow
  | revoke p reason now hRows hFresh hUser =>
    refine .kept fun row hRow => ?_
    rw [mem_live, hRows] at hRow
    exact mem_live.mpr ⟨(live_of_mem_revokeWhere hRow.1 hRow.2.2).1, hRow.2⟩
  | begin =>
    refine .kept fun row hRow => ?_
    obtain ⟨hMem, hOwn, hLive⟩ := mem_live.mp hRow
    rcases mem_append.mp hMem with hOld | hNew
    · exact mem_live.mpr ⟨hOld, hOwn, hLive⟩
    · rw [mem_singleton.mp hNew] at hOwn
      have : db.fresh + 1 = familyId := Option.some.inj hOwn
      omega
  | @succeed p now familyId? other hOther hLive hHit hSame hBound =>
    by_cases hTarget : familyId? = some familyId
    · have hOld : other ∈ db.live familyId := mem_live.mpr ⟨hOther, (hSame other hOther hHit).trans hTarget, hLive⟩
      refine @Moved.replaced _ _ _ _ (newToken db familyId?) hOld fun row hRow => ?_
      obtain ⟨hMem, hOwn, hAlive⟩ := mem_live.mp hRow
      rcases mem_append.mp hMem with hKept | hNew
      · -- the live row was the one that has been replaced
        obtain ⟨hRow, hMissed⟩ := live_of_mem_revokeWhere hKept hAlive
        obtain rfl := hOne row (mem_live.mpr ⟨hRow, hOwn, hAlive⟩) other hOld
        rw [hHit] at hMissed
        cases hMissed
      · exact mem_singleton.mp hNew
    · refine .kept fun row hRow => ?_
      obtain ⟨hMem, hOwn, hAlive⟩ := mem_live.mp hRow
      rcases mem_append.mp hMem with hKept | hNew
      · exact mem_live.mpr ⟨(live_of_mem_revokeWhere hKept hAlive).1, hOwn, hAlive⟩
      rw [mem_singleton.mp hNew] at hOwn
      have hNewFamily : familyId?.getD (db.fresh + 1) = familyId := Option.some.inj hOwn
      cases hGiven : familyId? with
      | none =>
        rw [hGiven, Option.getD_none] at hNewFamily
        omega
      | some given =>
        rw [hGiven, Option.getD_some] at hNewFamily
        exact absurd (hGiven.trans (congrArg some hNewFamily)) hTarget

theorem Moved.one (h : Moved familyId db db')
    (hOne : ∀ row ∈ db.live familyId, ∀ other ∈ db.live familyId, row = other) :
    ∀ row ∈ db'.live familyId, ∀ other ∈ db'.live familyId, row = other := by
  cases h with
  | kept h => exact fun row hRow other hOther => hOne row (h row hRow) other (h other hOther)
  | replaced hOld h => exact fun row hRow other hOther => (h row hRow).trans (h other hOther).symm

/-- A family without a live row stays so. -/
theorem Moved.ended (h : Moved familyId db db') (hEnded : db.live familyId = []) :
    db'.live familyId = [] := by
  cases h with
  | kept h =>
    rw [eq_nil_iff_forall_not_mem] at hEnded ⊢
    exact fun row hRow => hEnded row (h row hRow)
  | replaced hOld h =>
    rw [hEnded] at hOld
    exact absurd hOld not_mem_nil

end

/-! ## Steps -/

variable {familyId : Nat} {s t : FamilyState} {a : FamilyAction}

variable {db : TokenDb}

theorem row_of_begin {token : Nat}
    (h : row ∈ (RotateCall.ofPhase (refreshBegin db token)).row?) : row ∈ db.rows := by
  have hStart := refreshStart_of_begin db token
  generalize refreshBegin db token = phase at h hStart
  cases hStart with
  | refuse => cases h
  | live own hRow hLive | inGrace own hRow hReason hExpires | late own hRow hReason hExpires =>
    cases h; exact TokenDb.mem_of_row? hRow

theorem row?_ofPhase (h : row ∈ (RotateCall.ofPhase phase).row?) : row ∈ phase.row? := by
  cases phase with
  | minting own refresh loaded => cases refresh <;> exact h
  | refused => cases h
  | _ => exact h

variable {db' : TokenDb}

/-- A refresh goes on with the row that it presented. -/
theorem row?_refreshNext {next : RefreshPhase}
    (h : refreshNext db phase = some (db', next)) (hRow : row ∈ next.row?) : row ∈ phase.row? := by
  cases refreshStep_of_next h with
  | refuse | reuse own => cases hRow
  | _ => exact hRow

theorem row?_rotateNext
    (h : rotateNext db call = some (db', next)) (hRow : row ∈ next.row?) : row ∈ call.row? := by
  cases call with
  | running phase =>
    obtain ⟨⟨dbNext, phaseNext⟩, hNext, hEq⟩ := Option.map_eq_some_iff.mp h
    cases hEq
    exact row?_refreshNext hNext (row?_ofPhase hRow)
  | refreshing own token => cases h; exact hRow
  | returned own token | raised => cases h

/-- **What a step does to the rows.** -/
theorem change_step (hSeen : CallsSeen s) (h : familyStep s a = some t) :
    Change s.db (s.target? a) t.db := by
  cases a with
  | wait now | setActive isActive => cases h; exact .same rfl rfl rfl
  | login => cases h; exact .begin
  | rotate token => cases h; exact .same rfl rfl rfl
  | rotateNext i =>
    obtain ⟨call, hCall, hMap⟩ := Option.bind_eq_some_iff.mp h
    obtain ⟨⟨db, next⟩, hNext, rfl⟩ := Option.map_eq_some_iff.mp hMap
    have hMem := mem_of_getElem? hCall
    show Change s.db (s.calls[i]?.bind RotateCall.target?) db
    rw [hCall]
    exact change_rotateNext (hSeen.seen call hMem) (hSeen.inFamily call hMem) hNext
  | revokeTokenFamily other reason | revokeAllUserTokens reason
  | invalidateUserSessions reason => cases h; exact .revoke _ _ _ rfl rfl rfl

/-- A call after a step is one from before, one that has gone on, or a new one. -/
theorem call_step (h : familyStep s a = some t) (hCall : call ∈ t.calls) : call ∈ s.calls ∨
      (∃ i old, a = .rotateNext i ∧ s.calls[i]? = some old ∧
        rotateNext s.db old = some (t.db, call)) ∨
      ∃ token, a = .rotate token ∧ call = .ofPhase (refreshBegin s.db token) := by
  cases a with
  | rotate token =>
    cases h
    rcases mem_append.mp hCall with hOld | hNew
    · exact .inl hOld
    · exact .inr (.inr ⟨token, rfl, mem_singleton.mp hNew⟩)
  | rotateNext i =>
    obtain ⟨old, hOld, hMap⟩ := Option.bind_eq_some_iff.mp h
    obtain ⟨⟨db, next⟩, hNext, rfl⟩ := Option.map_eq_some_iff.mp hMap
    rcases mem_or_eq_of_mem_set hCall with hKept | rfl
    · exact .inl hKept
    · exact .inr (.inl ⟨i, old, rfl, hOld, hNext⟩)
  | _ => cases h; exact .inl hCall

/-- The grace path goes on to supersede for a row with a family only. -/
theorem inFamily_rotateNext (h : rotateNext db call = some (db', next)) : next.InFamily := by
  rintro row now rfl
  cases call with
  | running phase =>
    obtain ⟨⟨dbNext, phaseNext⟩, hNext, hEq⟩ := Option.map_eq_some_iff.mp h
    have hPhase : phaseNext = .superseding row now := by
      cases phaseNext with
      | minting own refresh loaded => cases refresh <;> cases hEq
      | superseding own begun => cases hEq; rfl
      | _ => cases hEq
    subst hPhase
    cases refreshStep_of_next hNext
    simp only [refreshNext, Option.some.injEq, Prod.mk.injEq] at hNext
    obtain ⟨-, hNext⟩ := hNext
    split at hNext
    · cases hNext
    · split at hNext
      · cases hNext
      · next hFamily => exact hFamily
  | refreshing own token | returned own token | raised => cases h

theorem inFamily_begin (db : TokenDb) (token : Nat) :
    (RotateCall.ofPhase (refreshBegin db token)).InFamily := by
  have hStart := refreshStart_of_begin db token
  generalize refreshBegin db token = phase at hStart
  rintro row now hCall
  cases hStart <;> cases hCall

theorem callsSeen_step (hSeen : CallsSeen s) (h : familyStep s a = some t) : CallsSeen t := by
  have hWrite := (change_step hSeen h).write
  refine ⟨hSeen.db.write hWrite, ?_, ?_⟩
  · intro call hCall row hRow
    rcases call_step h hCall with hOld | ⟨i, old, -, hOld, hNext⟩ | ⟨token, rfl, rfl⟩
    · exact (hSeen.seen call hOld row hRow).write hWrite
    · exact (hSeen.seen old (mem_of_getElem? hOld) row
        (row?_rotateNext hNext hRow)).write hWrite
    · exact (hSeen.db.seen (row_of_begin hRow)).write hWrite
  · intro call hCall
    rcases call_step h hCall with hOld | ⟨i, old, -, -, hNext⟩ | ⟨token, -, rfl⟩
    · exact hSeen.inFamily call hOld
    · exact inFamily_rotateNext hNext
    · exact inFamily_begin s.db token

/-! ## Runs -/

structure FamilyInv (familyId : Nat) (s : FamilyState) : Prop where
  calls : CallsSeen s
  started : familyId < s.db.fresh
  one : ∀ row ∈ s.db.live familyId, ∀ other ∈ s.db.live familyId, row = other

theorem moved_step (hInv : FamilyInv familyId s) (h : familyStep s a = some t) :
    Moved familyId s.db t.db :=
  (change_step hInv.calls h).moved hInv.started hInv.one

theorem familyInv_step (hInv : FamilyInv familyId s) (h : familyStep s a = some t) :
    FamilyInv familyId t where
  calls := callsSeen_step hInv.calls h
  started := Nat.lt_of_lt_of_le hInv.started (change_step hInv.calls h).write.fresh
  one := (moved_step hInv h).one hInv.one

theorem familyInv_start (h : FamilyStart familyId s) : FamilyInv familyId s := by
  obtain ⟨before, hSeen, rfl, rfl⟩ := h
  have hLogin : familyStep before .login =
      some { before with db := createRefreshToken before.db before.db.rows none } := rfl
  refine ⟨callsSeen_step hSeen hLogin, Nat.lt_succ_self _, ?_⟩
  have hNew : ∀ row ∈ (createRefreshToken before.db before.db.rows none).live
      (before.db.fresh + 1), row = newToken before.db none := by
    intro row hRow
    obtain ⟨hMem, hOwn, -⟩ := mem_live.mp hRow
    rcases mem_append.mp hMem with hOld | hNew
    · have := (hSeen.db.placed row hOld).family _ hOwn
      omega
    · exact mem_singleton.mp hNew
  exact fun row hRow other hOther => (hNew row hRow).trans (hNew other hOther).symm

/-- An `UPDATE` that covers the family leaves no live row of it. -/
theorem ended_of_revokeWhere {reason : RevokeReason}
    {now : Time} (hCover : ∀ row ∈ db.rows, row.familyId = some familyId → p row = true) :
    ({ db with rows := revokeWhere p reason now db.rows } : TokenDb).live familyId = [] := by
  rw [eq_nil_iff_forall_not_mem]
  intro row hRow
  obtain ⟨hMem, hOwn, hLive⟩ := mem_live.mp hRow
  obtain ⟨hOld, hMissed⟩ := live_of_mem_revokeWhere hMem hLive
  rw [hCover row hOld hOwn] at hMissed
  cases hMissed

/-- A logout, a reuse or a revocation leaves no live token of the family. -/
theorem ended_step (hInv : FamilyInv familyId s) (hEnds : Ends familyId s a)
    (h : familyStep s a = some t) : t.db.live familyId = [] := by
  have hUser : ∀ row ∈ s.db.rows, row.familyId = some familyId →
      (row.userId == s.db.user) = true := fun row hRow _ =>
    beq_iff_eq.mpr (hInv.calls.db.placed row hRow).user
  cases a with
  | revokeTokenFamily other reason =>
    cases h
    refine ended_of_revokeWhere fun row _ hOwn => ?_
    rw [hOwn, hEnds.1]
    exact beq_self_eq_true _
  | revokeAllUserTokens reason | invalidateUserSessions reason =>
    cases h; exact ended_of_revokeWhere hUser
  | rotateNext i =>
    obtain ⟨row, hCall, hOwn⟩ := hEnds
    have hSeen := hInv.calls.seen _ (mem_of_getElem? hCall) row rfl
    simp only [familyStep, hCall] at h
    cases h
    refine ended_of_revokeWhere fun other hOther hFamily => ?_
    unfold RefreshToken.sameFamily
    rcases hOwn with hOwn | hOwn
    · rw [hOwn, hFamily]
      exact beq_self_eq_true _
    · rw [hOwn]
      show (other.userId == row.userId) = true
      rw [hSeen.placed.user]
      exact hUser other hOther hFamily
  | wait now | setActive isActive | login | rotate token => exact hEnds.elim

theorem ended_run (hInv : FamilyInv familyId s) (hEnded : s.db.live familyId = [])
    {actions : List FamilyAction} (hRun : exec familyStep s actions = some t) :
    t.db.live familyId = [] := by
  have hStep : ∀ s a s', FamilyInv familyId s ∧ s.db.live familyId = [] →
      familyStep s a = some s' → FamilyInv familyId s' ∧ s'.db.live familyId = [] :=
    fun s a s' hBoth h => ⟨familyInv_step hBoth.1 h, (moved_step hBoth.1 h).ended hBoth.2⟩
  exact (invariant_of_exec hStep ⟨hInv, hEnded⟩ hRun).2

theorem length_live_le_one (hInv : FamilyInv familyId s) : (s.db.live familyId).length ≤ 1 := by
  have hNodup : (s.db.live familyId).Nodup := (List.Nodup.of_map _ hInv.calls.db.ids).filter _
  have hOne := hInv.one
  match hLive : s.db.live familyId with
  | [] => exact Nat.zero_le _
  | [row] => exact Nat.le_refl _
  | row :: other :: rest =>
    rw [hLive] at hOne hNodup
    obtain rfl := hOne row mem_cons_self other (mem_cons_of_mem _ mem_cons_self)
    exact absurd mem_cons_self (nodup_cons.mp hNodup).1

/-- **A family has at most one live token, and none once it was ended.** -/
theorem family_one_live_until_ended (hStart : FamilyStart familyId s)
    {actions : List FamilyAction} (hRun : exec familyStep s actions = some t) :
    (t.db.live familyId).length ≤ 1 ∧
      ∀ before a after u, actions = before ++ a :: after →
        exec familyStep s before = some u → Ends familyId u a → t.db.live familyId = [] := by
  have hInv : ∀ {bs : List FamilyAction} {u : FamilyState}, exec familyStep s bs = some u →
      FamilyInv familyId u := fun hExec =>
    invariant_of_exec (fun _ _ _ h hNext => familyInv_step h hNext) (familyInv_start hStart) hExec
  refine ⟨length_live_le_one (hInv hRun), ?_⟩
  rintro before a after u rfl hBefore hEnds
  obtain ⟨u', hBefore', hRest⟩ := exec_append_iff.mp hRun
  obtain rfl := Option.mem_unique hBefore hBefore'
  obtain ⟨v, hStep, hAfter⟩ := exec_cons_iff.mp hRest
  exact ended_run (familyInv_step (hInv hBefore) hStep) (ended_step (hInv hBefore) hEnds hStep)
    hAfter

/-- A panel with one user and no tokens, and its first login. -/
def firstLogin : FamilyState :=
  ⟨createRefreshToken { user := 1, expireDelta := 1000, fresh := 0 } [] none, []⟩

theorem familyStart_firstLogin : FamilyStart 1 firstLogin := by
  refine ⟨⟨{ user := 1, expireDelta := 1000, fresh := 0 }, []⟩, ?_, rfl, rfl⟩
  exact ⟨⟨nodup_nil, by simp⟩, by simp, by simp⟩

/-- Two tabs refresh with the first token, one of them after the other one. -/
def twoTabs : List FamilyAction :=
  [.rotate 0, .rotate 0, .rotateNext 0, .rotateNext 1, .rotateNext 0, .rotateNext 1, .rotateNext 0]

theorem family_twoTabs : ∃ t,
    exec familyStep firstLogin (twoTabs ++ [.invalidateUserSessions .password]) = some t ∧
      (t.db.live 1).length ≤ 1 ∧ t.db.live 1 = [] := by
  obtain ⟨t, hRun⟩ : ∃ t,
      exec familyStep firstLogin (twoTabs ++ [.invalidateUserSessions .password]) = some t :=
    ⟨_, rfl⟩
  have h := family_one_live_until_ended familyStart_firstLogin hRun
  refine ⟨t, hRun, h.1, h.2 twoTabs _ [] _ rfl rfl ?_⟩
  exact RevokeReason.noConfusion

end AdminPanel.Auth
