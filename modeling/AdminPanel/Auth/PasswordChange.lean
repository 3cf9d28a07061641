import AdminPanel.Auth.RefreshTokens
import AdminPanel.Lib.Runs
import Mathlib.Data.List.Dedup
import Mathlib.Data.List.ReduceOption

/-!
# Changing the password

`change_password` revokes every refresh token of the user and, in a second transaction, creates
one in the family of the session that asked for the change. Refreshes, logouts and logins of
the same user run at the same time, each a database step at a time.

* `AuthState`, `authStep` — the tokens of the user and every request;
* `Exchanges` — the steps that give something for a refresh token;
* `EndsOlderLogins` — older tokens are worth nothing, and the session of the change is one of
  its own;
* `Clear` — the steps that do not bring an older login back;
* `older_logins_ended` — the runs in which a change ends every older login;
* `older_logins_survive` — three runs in which it does not.
-/

namespace AdminPanel.Auth

open List

open Lib (exec Along)
open Access (Time)

/-! ## State -/

/-- `change_password`. Tokens below `bound` are older than the change, `familyId` is the family
of the token that it returns. -/
inductive ChangePhase
  | ready
  | committed (bound : Nat)
  | done (bound familyId : Nat)
  deriving DecidableEq, Repr

def ChangePhase.bound? : ChangePhase → Option Nat
  | .ready => none
  | .committed bound | .done bound _ => some bound

/-- The family of the returned token. -/
def ChangePhase.familyId? : ChangePhase → Option Nat
  | .done _ familyId => some familyId
  | _ => none

/-- `logout`, with its cookie and its access token and the sessions that it has yet to revoke. -/
inductive LogoutPhase
  | leaving (cookie : Option Nat) (bearer : Option AccessToken) (sessions : List Nat)
  /-- `revoke_refresh_token` has read the row as live. -/
  | revoking (token : Nat)
  | done
  deriving DecidableEq, Repr

/-- `sessionId` is that of the access token which comes with the change. -/
structure AuthState where
  db : TokenDb
  sessionId : Option Nat
  refreshes : List RefreshPhase := []
  logouts : List LogoutPhase := []
  change : ChangePhase := .ready

inductive AuthAction
  | wait (now : Time)
  /-- `_issue_token_pair` -/
  | login
  | refresh (token : Nat)
  | refreshNext (i : Nat)
  | logout (cookie : Option Nat) (bearer : Option AccessToken) (swapped : Bool)
  /-- `tracked` says that `active_web_session` has the session. -/
  | logoutNext (i : Nat) (tracked : Bool)
  | commitChange
  | issueChange

namespace AuthState

/-- The sessions that a logout holds a token for. -/
def proven (s : AuthState) (cookie : Option Nat) (bearer : Option AccessToken) : List Nat :=
  [cookie.bind fun token => (s.db.row? token).bind RefreshToken.familyId,
    bearer.bind AccessToken.sessionId].reduceOption.dedup

def setRows (s : AuthState) (rows : List RefreshToken) : AuthState :=
  { s with db := { s.db with rows := rows } }

def setLogout (s : AuthState) (i : Nat) (phase : LogoutPhase) : AuthState :=
  { s with logouts := s.logouts.set i phase }

end AuthState

/-- One session that a logout revokes, unless nobody tracks it. -/
def revokeSession (s : AuthState) (sessionId : Nat) (tracked : Bool) : AuthState :=
  if tracked then s.setRows (revokeTokenFamily sessionId .session s.db.now s.db.rows) else s

def logoutNext (s : AuthState) (i : Nat) (tracked : Bool) : LogoutPhase → Option AuthState
  | .leaving cookie bearer (sessionId :: rest) =>
    some ((revokeSession s sessionId tracked).setLogout i (.leaving cookie bearer rest))
  | .leaving (some token) _ [] =>
    some (s.setLogout i (if (s.db.row? token).any fun row => !row.revoked then .revoking token
      else .done))
  | .leaving none _ [] => some (s.setLogout i .done)
  | .revoking token =>
    some ((s.setRows (s.db.rows.map fun row =>
      if row.id == token then row.revokedAs .logout s.db.now else row)).setLogout i .done)
  | .done => none

def authStep (s : AuthState) : AuthAction → Option AuthState
  | .wait now => some { s with db := { s.db with now := now } }
  | .login => some { s with db := createRefreshToken s.db s.db.rows none }
  | .refresh token => some { s with refreshes := s.refreshes ++ [refreshBegin s.db token] }
  | .refreshNext i =>
    s.refreshes[i]?.bind fun phase => (refreshNext s.db phase).map fun (db, next) =>
      { s with db := db, refreshes := s.refreshes.set i next }
  | .logout cookie bearer swapped =>
    let proven := s.proven cookie bearer
    some { s with
      logouts := s.logouts ++
        [.leaving cookie bearer (if swapped then proven.reverse else proven)] }
  | .logoutNext i tracked => s.logouts[i]?.bind (logoutNext s i tracked)
  | .commitChange =>
    if s.change = .ready then
      -- `invalidate_user_sessions`
      some { s with
        db := { s.db with
          tokenVersion := s.db.tokenVersion + 1
          rows := revokeAllUserTokens s.db.user .password s.db.now s.db.rows }
        change := .committed s.db.fresh }
    else none
  | .issueChange =>
    match s.change with
    | .committed bound =>
      some { s with
        db := createRefreshToken s.db s.db.rows s.sessionId
        change := .done bound (s.sessionId.getD (s.db.fresh + 1)) }
    | _ => none

/-! ## What a change is for -/

namespace AuthState

/-- The token was created before the change committed. -/
def older (s : AuthState) (token : Nat) : Bool :=
  s.change.bound?.any fun bound => decide (token < bound)

/-- The row belongs to the token that the change returned or to its rotations. -/
def isNew (s : AuthState) (row : RefreshToken) : Bool :=
  match s.change with
  | .done bound familyId => decide (bound ≤ row.id) && row.familyId == some familyId
  | _ => false

def newRows (s : AuthState) : List RefreshToken := s.db.rows.filter s.isNew

/-- The database as it would be with the session of the change alone in it. -/
def alone (s : AuthState) (db : TokenDb) : TokenDb := { db with rows := db.rows.filter s.isNew }

end AuthState

/-- What the request hands out when it comes to the phase: something for this token. -/
def RefreshPhase.exchanged? : RefreshPhase → Option Nat
  | .minting row (some _) _ | .issued row _ _ => some row.id
  | _ => none

section

variable (s : AuthState)

/-- The step gives a refresh token or an access token for the token. -/
def Exchanges (a : AuthAction) (token : Nat) : Prop :=
  ∃ i phase db next, a = .refreshNext i ∧ s.refreshes[i]? = some phase ∧
    refreshNext s.db phase = some (db, next) ∧ next.exchanged? = some token

/-- The access token was issued for the new session, since the change. -/
def AuthState.isNewAccess (access : AccessToken) : Bool :=
  access.tokenVersion == s.db.tokenVersion && access.sessionId.isSome &&
    access.sessionId == s.change.familyId?

/-- The logout holds a token of the session that the change started. -/
def LogoutPhase.own : LogoutPhase → Bool
  | .leaving cookie bearer _ =>
    cookie.any (fun token => s.newRows.any fun row => row.id == token) ||
      bearer.any s.isNewAccess
  | .revoking token => s.newRows.any fun row => row.id == token
  | .done => false

/-- The step belongs to a request of the session that the change started. -/
def Own : AuthAction → Prop
  | .refreshNext i => ∃ phase ∈ s.refreshes[i]?, ∃ row ∈ phase.row?, s.isNew row = true
  | .logoutNext i _ => ∃ phase ∈ s.logouts[i]?, phase.own s = true
  | _ => False

/-- Older tokens are worth nothing. The token of the change is live when it is returned, its
session changes by its own requests only, and these find it as if no other token existed. -/
structure EndsOlderLogins (s : AuthState) (a : AuthAction) : Prop where
  refused : ∀ token, s.older token = true → ¬ Exchanges s a token
  returned : ∀ t, a = .issueChange → authStep s a = some t →
    t.newRows = [newToken s.db (s.sessionId)]
  kept : ∀ t, a ≠ .issueChange → authStep s a = some t → ¬ Own s a → t.newRows = s.newRows
  begins : ∀ token row, s.db.row? token = some row → s.isNew row = true →
    refreshBegin (s.alone s.db) token = refreshBegin s.db token
  goesOn : ∀ phase ∈ s.refreshes, ∀ row ∈ phase.row?, s.isNew row = true →
    refreshNext (s.alone s.db) phase =
      (refreshNext s.db phase).map fun (db, next) => (s.alone db, next)

/-! ## Clear steps -/

/-- The row is in a family, and not in the one that the change goes on with. -/
def AuthState.familyApart (row : RefreshToken) : Bool :=
  row.familyId.isSome && row.familyId != s.sessionId

/-- A refresh under way that the change can cut off: it has not found its token live, and if it
found it rotated, the token is of another session. -/
def RefreshPhase.canEnd : RefreshPhase → Bool
  | .reuse row | .checking row _ | .graceUser row _ | .superseding row _ => s.familyApart row
  | .liveUser _ _ | .claiming _ _ | .minting _ _ _ => false
  | .refused | .issued _ _ _ => true

/-- The next step of the logout ends the session of the change. -/
def LogoutPhase.endsNew (tracked : Bool) : LogoutPhase → Bool
  | .leaving _ _ (sessionId :: _) => tracked && s.change.familyId? == some sessionId
  | _ => false

/-- The change commits while every refresh can be cut off; later nobody presents an older token
that had been rotated, unless it is of another session; and nobody logs the session of the change
out by older tokens. -/
def Clear : AuthAction → Prop
  | .commitChange => ∀ phase ∈ s.refreshes, phase.canEnd s = true
  | .refresh token => s.older token = true → ∀ row ∈ s.db.row? token,
      row.revokeReason = some .rotated → ¬ row.expiresAt < s.db.now → s.familyApart row = true
  | .logoutNext i tracked => ∀ phase ∈ s.logouts[i]?,
      phase.endsNew s tracked = true → phase.own s = true
  | _ => True

instance (s : AuthState) : (a : AuthAction) → Decidable (Clear s a)
  | .commitChange => inferInstanceAs (Decidable (∀ phase ∈ s.refreshes, _))
  | .refresh token => inferInstanceAs (Decidable (s.older token = true → _))
  | .logoutNext i _ => inferInstanceAs (Decidable (∀ phase ∈ s.logouts[i]?, _))
  | .wait _ | .login | .refreshNext _ | .logout _ _ _ | .issueChange =>
    inferInstanceAs (Decidable True)

/-! ## The invariant -/

/-- What a request has read of a row stays true of it. -/
structure Seen (db : TokenDb) (row : RefreshToken) : Prop where
  placed : Placed db row
  same : ∀ other ∈ db.rows, other.id = row.id → other.familyId = row.familyId

/-- A row that is newer than the change: in its session, or in one begun since. -/
def Newer (sessionId : Option Nat) (bound : Nat) (row : RefreshToken) : Prop :=
  bound ≤ row.id ∧ ∃ familyId, row.familyId = some familyId ∧
    (sessionId = some familyId ∨ bound ≤ familyId)

/-- A row of an older session other than the one of the change. -/
def Apart (sessionId : Option Nat) (bound : Nat) (row : RefreshToken) : Prop :=
  row.id < bound ∧ ∃ familyId, row.familyId = some familyId ∧ sessionId ≠ some familyId ∧
    familyId < bound

/-- What the rows are once the change has committed. -/
structure RowsAfter (sessionId : Option Nat) (bound : Nat) (db : TokenDb) : Prop where
  older : ∀ row ∈ db.rows, row.id < bound → row.revoked = true
  family : ∀ row ∈ db.rows, row.id < bound → ∀ familyId, row.familyId = some familyId →
    familyId < bound
  newer : ∀ row ∈ db.rows, bound ≤ row.id → Newer sessionId bound row

/-- What a refresh may be up to once the change has committed. -/
def PhaseAfter (sessionId : Option Nat) (bound : Nat) : RefreshPhase → Prop
  | .reuse row | .checking row _ | .graceUser row _ | .superseding row _ =>
    Apart sessionId bound row ∨ Newer sessionId bound row
  | .liveUser row _ | .claiming row _ => Newer sessionId bound row
  | .minting row refresh _ => Newer sessionId bound row ∧ ∀ token ∈ refresh, bound ≤ token
  | .refused | .issued _ _ _ => True

/-- What a refresh has read and made. -/
def PhaseSeen (db : TokenDb) (phase : RefreshPhase) : Prop :=
  (∀ row ∈ phase.row?, Seen db row) ∧
    ∀ row refresh loaded, phase = .minting row (some refresh) loaded → refresh < db.fresh ∧
      ∀ other ∈ db.rows, other.id = refresh → row.familyId.isSome = true →
        other.familyId = row.familyId

/-- The session that newer tokens may belong to: none of the older ones until the change has
created its token. -/
def AuthState.Grants (bound : Nat) (sessionId : Option Nat) : Prop :=
  sessionId = s.sessionId ∨ sessionId = none ∧ s.change = .committed bound

end

structure AuthInv (s : AuthState) : Prop where
  db : DbOk s.db
  session : ∀ familyId ∈ s.sessionId, familyId < s.db.fresh
  seen : ∀ phase ∈ s.refreshes, PhaseSeen s.db phase
  bound : ∀ bound ∈ s.change.bound?, bound ≤ s.db.fresh
  sessionOlder : ∀ bound ∈ s.change.bound?, ∀ familyId ∈ s.sessionId, familyId < bound
  rows : ∀ bound ∈ s.change.bound?, ∀ sessionId, s.Grants bound sessionId →
    RowsAfter sessionId bound s.db
  phases : ∀ bound ∈ s.change.bound?, ∀ sessionId, s.Grants bound sessionId →
    ∀ phase ∈ s.refreshes, PhaseAfter sessionId bound phase
  done : ∀ bound familyId, s.change = .done bound familyId → familyId < s.db.fresh ∧
    (s.sessionId = some familyId ∨ s.sessionId = none ∧ bound ≤ familyId)

variable {phase : RefreshPhase} {other : RefreshToken} {g : RefreshToken → RefreshToken}

section

variable {db db' : TokenDb} {row : RefreshToken} {sessionId : Option Nat} {bound : Nat}

/-- What was read of a row outlives a write. -/
theorem Seen.write (h : Seen db row) (hWrite : Write db db') : Seen db' row where
  placed := h.placed.write hWrite
  same := by
    intro other hOther hId
    rcases hWrite.mem other hOther with ⟨old, hOld, hRevokes⟩ | ⟨hFresh, -⟩
    · rw [hRevokes.family]
      exact h.same old hOld (hRevokes.id.symm.trans hId)
    · have := h.placed.id
      omega

theorem DbOk.seen (h : DbOk db) (hRow : row ∈ db.rows) : Seen db row where
  placed := h.placed row hRow
  same := by
    intro other hOther hId
    rw [inj_on_of_nodup_map h.ids hOther hRow hId]

theorem PhaseSeen.write (h : PhaseSeen db phase) (hWrite : Write db db') : PhaseSeen db' phase := by
  refine ⟨fun row hRow => (h.1 row hRow).write hWrite, ?_⟩
  intro row refresh loaded hPhase
  obtain ⟨hFresh, hSame⟩ := h.2 row refresh loaded hPhase
  refine ⟨Nat.lt_of_lt_of_le hFresh hWrite.fresh, ?_⟩
  intro other hOther hId hFamily
  rcases hWrite.mem other hOther with ⟨old, hOld, hRevokes⟩ | ⟨hNew, -⟩
  · rw [hRevokes.family]
    exact hSame old hOld (hRevokes.id.symm.trans hId) hFamily
  · omega

/-- Rows that are revoked stay so, and a row that is added is newer. -/
theorem RowsAfter.write (h : RowsAfter sessionId bound db) (hWrite : Write db db')
    (hBound : bound ≤ db.fresh)
    (hNew : ∀ row ∈ db'.rows, db.fresh ≤ row.id → Newer sessionId bound row) :
    RowsAfter sessionId bound db' where
  older := by
    intro row hRow hLt
    rcases hWrite.mem row hRow with ⟨old, hOld, hRevokes⟩ | ⟨hFresh, -⟩
    · exact hRevokes.revoked (h.older old hOld (hRevokes.id ▸ hLt))
    · omega
  family := by
    intro row hRow hLt f hf
    rcases hWrite.mem row hRow with ⟨old, hOld, hRevokes⟩ | ⟨hFresh, -⟩
    · exact h.family old hOld (hRevokes.id ▸ hLt) f (hRevokes.family ▸ hf)
    · omega
  newer := by
    intro row hRow hLe
    rcases hWrite.mem row hRow with ⟨old, hOld, hRevokes⟩ | ⟨hFresh, -⟩
    · obtain ⟨-, f, hf, hPlace⟩ := h.newer old hOld (hRevokes.id ▸ hLe)
      exact ⟨hLe, f, hRevokes.family.trans hf, hPlace⟩
    · exact hNew row hRow hFresh

/-- No session that is apart has a live token. -/
theorem RowsAfter.no_live (h : RowsAfter sessionId bound db) (hApart : Apart sessionId bound row)
    (hOther : other ∈ db.rows) (hFamily : row.sameFamily other = true) :
    other.revoked = true := by
  obtain ⟨-, f, hf, hNot, hLt⟩ := hApart
  rw [RefreshToken.sameFamily, hf] at hFamily
  have hSame : other.familyId = some f := beq_iff_eq.1 hFamily
  rcases Nat.lt_or_ge other.id bound with hOld | hNew
  · exact h.older other hOther hOld
  · obtain ⟨-, f', hf', hPlace⟩ := h.newer other hOther hNew
    rw [hSame] at hf'
    rw [← Option.some.inj hf'] at hPlace
    rcases hPlace with hSession | hLe
    · exact absurd hSession hNot
    · omega

theorem RowsAfter.not_any_live (h : RowsAfter sessionId bound db)
    (hApart : Apart sessionId bound row) (now : Time) :
    (db.rows.any fun other => !other.revoked && liveInFamily row now other) = false := by
  rw [any_eq_false]
  intro other hOther hLive
  rw [Bool.and_eq_true, Bool.not_eq_true', liveInFamily, Bool.and_eq_true] at hLive
  rw [h.no_live hApart hOther hLive.2.1] at hLive
  cases hLive.1

/-- A family that a token may be added to. -/
def NewerFamily (sessionId : Option Nat) (bound : Nat) (familyId : Option Nat) : Prop :=
  ∀ f, familyId = some f → sessionId = some f ∨ bound ≤ f

theorem Newer.family (h : Newer sessionId bound row) :
    NewerFamily sessionId bound row.familyId := by
  obtain ⟨-, f, hf, hPlace⟩ := h
  intro f' hf'
  rw [hf] at hf'
  exact Option.some.inj hf' ▸ hPlace

theorem newer_newToken {familyId : Option Nat} (hBound : bound ≤ db.fresh)
    (h : NewerFamily sessionId bound familyId) :
    Newer sessionId bound (newToken db familyId) := by
  refine ⟨hBound, familyId.getD (db.fresh + 1), rfl, ?_⟩
  cases familyId with
  | none => exact .inr (Nat.le_succ_of_le hBound)
  | some f => exact h f rfl

/-- A transaction that adds a token to such a family. -/
theorem RowsAfter.create (h : RowsAfter sessionId bound db)
    (hOk : DbOk db) (hg : ∀ row, Revokes row (g row)) {familyId : Option Nat}
    (hFamily : ∀ f, familyId = some f → f < db.fresh) (hBound : bound ≤ db.fresh)
    (hNewer : NewerFamily sessionId bound familyId) :
    RowsAfter sessionId bound (createRefreshToken db (db.rows.map g) familyId) := by
  refine h.write (write_create hg hFamily) hBound ?_
  intro row hRow hFresh
  rcases mem_append.1 hRow with hOld | hNew
  · obtain ⟨old, hMem, rfl⟩ := mem_map.1 hOld
    have hId := (hOk.placed old hMem).id
    rw [(hg old).id] at hFresh
    omega
  · rw [mem_singleton.1 hNew]
    exact newer_newToken hBound hNewer

/-- Revoking rows keeps what holds after the change. -/
theorem RowsAfter.map (h : RowsAfter sessionId bound db)
    (hOk : DbOk db) (hg : ∀ row, Revokes row (g row)) (hBound : bound ≤ db.fresh) :
    RowsAfter sessionId bound { db with rows := db.rows.map g } := by
  refine h.write (write_map hg) hBound ?_
  intro row hRow hFresh
  obtain ⟨old, hMem, rfl⟩ := mem_map.1 hRow
  have hId := (hOk.placed old hMem).id
  rw [(hg old).id] at hFresh
  omega

end

/-! ## A step of a refresh -/

variable {row : RefreshToken} {token : Nat}

section

variable {db db' : TokenDb} {phase next : RefreshPhase} {sessionId : Option Nat} {bound : Nat}

theorem seen_newToken (hOk : DbOk db) (hg : ∀ row, Revokes row (g row)) :
    ∀ other ∈ (createRefreshToken db (db.rows.map g) row.familyId).rows, other.id = db.fresh →
      row.familyId.isSome = true → other.familyId = row.familyId := by
  intro other hOther hId hSome
  rcases mem_append.1 hOther with hOld | hNew
  · obtain ⟨old, hMem, rfl⟩ := mem_map.1 hOld
    have hLt := (hOk.placed old hMem).id
    rw [(hg old).id] at hId
    omega
  · rw [mem_singleton.1 hNew]
    obtain ⟨f, hf⟩ := Option.isSome_iff_exists.1 hSome
    show some (row.familyId.getD _) = row.familyId
    rw [hf, Option.getD_some]

/-- What a refresh has read stays true of the rows it writes itself. -/
theorem refreshStep_seen (hOk : DbOk db) (hSeen : PhaseSeen db phase)
    (h : RefreshStep db phase db' next) : PhaseSeen db' next := by
  have hWrite := refreshStep_write (fun row hRow => (hSeen.1 row hRow).placed) h
  have hRow := (hSeen.write hWrite).1
  have hMade : ∀ row familyId g, (∀ row, Revokes row (g row)) → familyId = row.familyId →
      (∀ other ∈ (RefreshPhase.minting row (some db.fresh) none).row?,
        Seen (createRefreshToken db (db.rows.map g) familyId) other) →
      PhaseSeen (createRefreshToken db (db.rows.map g) familyId)
        (.minting row (some db.fresh) none) := by
    rintro row familyId g hg rfl hSeen
    refine ⟨hSeen, ?_⟩
    intro row' refresh loaded hEq
    obtain ⟨rfl, hRefresh, -⟩ := RefreshPhase.minting.inj hEq
    rw [← Option.some.inj hRefresh]
    exact ⟨Nat.lt_add_of_pos_right (by decide), seen_newToken hOk hg⟩
  cases h with
  | refuse | reuse => exact ⟨nofun, nofun⟩
  | supersede row now hLive | claim row now =>
    exact hMade row _ _ (revokes_revokeWhere _ _ _) rfl hRow
  | _ => exact ⟨hRow, nofun⟩

/-- Once the change has committed, a refresh goes on with a newer token or finds its session
dead. -/
theorem refreshStep_after (hOk : DbOk db) (hSeen : PhaseSeen db phase)
    (hBound : bound ≤ db.fresh) (hRows : RowsAfter sessionId bound db)
    (hPhase : PhaseAfter sessionId bound phase) (h : RefreshStep db phase db' next) :
    RowsAfter sessionId bound db' ∧ PhaseAfter sessionId bound next := by
  have hCreate : ∀ row g, (∀ row, Revokes row (g row)) → Seen db row →
      Newer sessionId bound row →
      RowsAfter sessionId bound (createRefreshToken db (db.rows.map g) row.familyId) ∧
        PhaseAfter sessionId bound (.minting row (some db.fresh) none) := by
    intro row g hg hSeen hNewer
    refine ⟨hRows.create hOk hg hSeen.placed.family hBound hNewer.family, hNewer, ?_⟩
    intro token hToken
    exact Option.some.inj hToken ▸ hBound
  cases h with
  | refuse => exact ⟨hRows, trivial⟩
  | reuse row => exact ⟨hRows.map hOk (revokes_revokeWhere _ _ _) hBound, trivial⟩
  | inGrace row now => exact ⟨hRows, hPhase⟩
  | graceAccess row now hFamily =>
    rcases hPhase with ⟨-, f, hf, -⟩ | ⟨-, f, hf, -⟩
    · rw [hFamily] at hf
      cases hf
    · rw [hFamily] at hf
      cases hf
  | graceFamily row now => exact ⟨hRows, hPhase⟩
  | supersede row now hLive =>
    rcases hPhase with hApart | hNewer
    · rw [hRows.not_any_live hApart now] at hLive
      cases hLive
    · exact hCreate row _ (revokes_revokeWhere _ _ _) (hSeen.1 row rfl) hNewer
  | active row now => exact ⟨hRows, hPhase⟩
  | claim row now => exact hCreate row _ (revokes_revokeWhere _ _ _) (hSeen.1 row rfl) hPhase
  | lose row now => exact ⟨hRows, hPhase, nofun⟩
  | mint row refresh loaded access => exact ⟨hRows, trivial⟩

/-- What a step hands out it hands out for a newer token. -/
theorem exchanged_newer (hRows : RowsAfter sessionId bound db)
    (hPhase : PhaseAfter sessionId bound phase) (h : RefreshStep db phase db' next)
    (hExchanged : next.exchanged? = some token) : bound ≤ token := by
  cases h with
  | supersede row now hLive =>
    rcases hPhase with hApart | hNewer
    · rw [hRows.not_any_live hApart now] at hLive
      cases hLive
    · exact Option.some.inj hExchanged ▸ hNewer.1
  | claim row now => exact Option.some.inj hExchanged ▸ hPhase.1
  | mint row refresh loaded access => exact Option.some.inj hExchanged ▸ hPhase.1.1
  | _ => cases hExchanged

theorem phaseSeen_of_row (hSeen : Seen db row) (hRow : phase.row? = some row)
    (hNot : ∀ row refresh loaded, phase ≠ .minting row refresh loaded) :
    PhaseSeen db phase := by
  refine ⟨?_, fun row refresh loaded hEq => absurd hEq (hNot row _ loaded)⟩
  intro other hOther
  rw [hRow] at hOther
  exact Option.some.inj hOther ▸ hSeen

theorem refreshStart_seen (hOk : DbOk db) (h : RefreshStart db token phase) : PhaseSeen db phase := by
  have hSeen : ∀ row, db.row? token = some row → Seen db row := fun row hRow =>
    hOk.seen (TokenDb.mem_of_row? hRow)
  cases h with
  | refuse => exact ⟨nofun, nofun⟩
  | live row hRow hLive | inGrace row hRow hReason hExpires | late row hRow hReason hExpires =>
    exact phaseSeen_of_row (hSeen row hRow) rfl (by simp)

/-- A refresh that begins once the change has committed. -/
theorem refreshStart_after (hRows : RowsAfter sessionId bound db)
    (hApart : token < bound → ∀ row, db.row? token = some row → row.revokeReason = some .rotated →
      ¬ row.expiresAt < db.now → Apart sessionId bound row)
    (h : RefreshStart db token phase) : PhaseAfter sessionId bound phase := by
  have hPlace : ∀ row, db.row? token = some row → row.revokeReason = some .rotated →
      ¬ row.expiresAt < db.now → Apart sessionId bound row ∨ Newer sessionId bound row := by
    intro row hRow hReason hExpires
    have hId : row.id = token := TokenDb.id_of_row? hRow
    rcases Nat.lt_or_ge token bound with hOld | hNew
    · exact .inl (hApart hOld row hRow hReason hExpires)
    · exact .inr (hRows.newer row (TokenDb.mem_of_row? hRow) (hId ▸ hNew))
  cases h with
  | refuse => trivial
  | live row hRow hLive =>
    have hMem := TokenDb.mem_of_row? hRow
    rcases Nat.lt_or_ge row.id bound with hOld | hNew
    · rw [hRows.older row hMem hOld] at hLive
      cases hLive
    · exact hRows.newer row hMem hNew
  | inGrace row hRow hReason hExpires | late row hRow hReason hExpires =>
    exact hPlace row hRow hReason hExpires

end

/-! ## Steps -/

variable {db' : TokenDb} {i : Nat} {tracked : Bool} {a : AuthAction}

section

variable {s t : AuthState}

/-- A step that writes rows and no phase. -/
theorem AuthInv.write (h : AuthInv s) (hWrite : Write s.db db')
    (hRows : ∀ bound ∈ s.change.bound?, ∀ sessionId, s.Grants bound sessionId →
      RowsAfter sessionId bound db') :
    AuthInv { s with db := db' } where
  db := h.db.write hWrite
  session := fun f hf => Nat.lt_of_lt_of_le (h.session f hf) hWrite.fresh
  seen := fun phase hPhase => (h.seen phase hPhase).write hWrite
  bound := fun bound hBound => Nat.le_trans (h.bound bound hBound) hWrite.fresh
  sessionOlder := h.sessionOlder
  rows := hRows
  phases := h.phases
  done := fun bound f hDone =>
    ⟨Nat.lt_of_lt_of_le (h.done bound f hDone).1 hWrite.fresh, (h.done bound f hDone).2⟩

theorem AuthInv.refreshes (h : AuthInv s) {refreshes : List RefreshPhase}
    (hAll : ∀ phase ∈ refreshes, PhaseSeen s.db phase ∧
      ∀ bound ∈ s.change.bound?, ∀ sessionId, s.Grants bound sessionId →
        PhaseAfter sessionId bound phase) :
    AuthInv { s with refreshes := refreshes } where
  db := h.db
  session := h.session
  seen := fun phase hPhase => (hAll phase hPhase).1
  bound := h.bound
  sessionOlder := h.sessionOlder
  rows := h.rows
  phases := fun bound hBound sessionId hGrants phase hPhase =>
    (hAll phase hPhase).2 bound hBound sessionId hGrants
  done := h.done

theorem AuthInv.logouts (h : AuthInv s) (logouts : List LogoutPhase) :
    AuthInv { s with logouts := logouts } :=
  ⟨h.db, h.session, h.seen, h.bound, h.sessionOlder, h.rows, h.phases, h.done⟩

/-- A statement that revokes rows. -/
theorem AuthInv.setRows (h : AuthInv s)
    (hg : ∀ row, Revokes row (g row)) : AuthInv (s.setRows (s.db.rows.map g)) :=
  h.write (write_map hg) fun bound hBound sessionId hGrants =>
    (h.rows bound hBound sessionId hGrants).map h.db hg (h.bound bound hBound)

theorem apart_of_familyApart {bound : Nat} {sessionId : Option Nat}
    (hGrants : s.Grants bound sessionId) (hApart : s.familyApart row = true)
    (hId : row.id < bound) (hFamily : ∀ f, row.familyId = some f → f < bound) :
    Apart sessionId bound row := by
  rw [AuthState.familyApart, Bool.and_eq_true, bne_iff_ne] at hApart
  obtain ⟨f, hf⟩ := Option.isSome_iff_exists.1 hApart.1
  refine ⟨hId, f, hf, fun hSame => ?_, hFamily f hf⟩
  rcases hGrants with hOwn | ⟨hNone, -⟩
  · exact hApart.2 (hf.trans (hOwn ▸ hSame).symm)
  · rw [hNone] at hSame
    cases hSame

theorem inv_login (h : AuthInv s) :
    AuthInv { s with db := createRefreshToken s.db s.db.rows none } := by
  have hNone : ∀ f, (none : Option Nat) = some f → f < s.db.fresh := nofun
  refine h.write (write_create_only hNone) fun bound hBound sessionId hGrants => ?_
  have hRows := (h.rows bound hBound sessionId hGrants).create h.db Revokes.refl hNone
    (h.bound bound hBound) nofun
  rwa [map_id'] at hRows

/-- One step of a refresh keeps the invariant. -/
theorem inv_refreshNext {next : RefreshPhase} (h : AuthInv s)
    (hPhase : s.refreshes[i]? = some phase) (hNext : RefreshStep s.db phase db' next) :
    AuthInv { s with db := db', refreshes := s.refreshes.set i next } := by
  have hMem := mem_of_getElem? hPhase
  have hSeen := h.seen phase hMem
  have hWrite := refreshStep_write (fun row hRow => (hSeen.1 row hRow).placed) hNext
  have hAfter : ∀ bound ∈ s.change.bound?, ∀ sessionId, s.Grants bound sessionId →
      RowsAfter sessionId bound db' ∧ PhaseAfter sessionId bound next :=
    fun bound hBound sessionId hGrants =>
      refreshStep_after h.db hSeen (h.bound bound hBound) (h.rows bound hBound sessionId hGrants)
        (h.phases bound hBound sessionId hGrants phase hMem) hNext
  refine (h.write hWrite fun bound hBound sessionId hGrants =>
    (hAfter bound hBound sessionId hGrants).1).refreshes ?_
  intro other hOther
  rcases mem_or_eq_of_mem_set hOther with hOld | rfl
  · exact ⟨(h.seen other hOld).write hWrite, fun bound hBound sessionId hGrants =>
      h.phases bound hBound sessionId hGrants other hOld⟩
  · exact ⟨refreshStep_seen h.db hSeen hNext, fun bound hBound sessionId hGrants =>
      (hAfter bound hBound sessionId hGrants).2⟩

/-- A refresh begins with a token that `Clear` lets in. -/
theorem inv_refresh (h : AuthInv s) (hClear : Clear s (.refresh token)) :
    AuthInv { s with refreshes := s.refreshes ++ [refreshBegin s.db token] } := by
  have hStart := refreshStart_of_begin s.db token
  refine h.refreshes ?_
  intro phase hPhase
  rcases mem_append.1 hPhase with hOld | hNew
  · exact ⟨h.seen phase hOld, fun bound hBound sessionId hGrants =>
      h.phases bound hBound sessionId hGrants phase hOld⟩
  rw [mem_singleton.1 hNew]
  refine ⟨refreshStart_seen h.db hStart, fun bound hBound sessionId hGrants => ?_⟩
  have hRows := h.rows bound hBound sessionId hGrants
  refine refreshStart_after hRows (fun hOld row hRow hReason hExpires => ?_) hStart
  have hOlder : s.older token = true := by
    rw [AuthState.older, Option.mem_def.1 hBound]
    exact decide_eq_true hOld
  have hApart := hClear hOlder row hRow hReason hExpires
  have hId : row.id < bound := by rwa [TokenDb.id_of_row? hRow]
  exact apart_of_familyApart hGrants hApart hId
    (hRows.family row (TokenDb.mem_of_row? hRow) hId)

theorem commitChange_ready (h : authStep s .commitChange = some t) : s.change = .ready := by
  by_contra hNot
  rw [authStep, if_neg hNot] at h
  cases h

/-- The change commits: every token is revoked, and no refresh under way can go on with one. -/
theorem inv_commitChange (h : AuthInv s) (hReady : s.change = .ready)
    (hClear : Clear s .commitChange) (hStep : authStep s .commitChange = some t) : AuthInv t := by
  simp only [authStep, hReady, if_true] at hStep
  rw [← Option.some.inj hStep]
  -- the version goes up and every token of the user is revoked, in one commit
  have hBump : Write s.db { s.db with tokenVersion := s.db.tokenVersion + 1 } :=
    write_same rfl rfl (Nat.le_refl _)
  have hRevoke : Write { s.db with tokenVersion := s.db.tokenVersion + 1 }
      { s.db with
        tokenVersion := s.db.tokenVersion + 1
        rows := revokeAllUserTokens s.db.user .password s.db.now s.db.rows } :=
    write_map (revokes_revokeWhere (fun row => row.userId == s.db.user) .password s.db.now)
  have hDb := (h.db.write hBump).write hRevoke
  refine ⟨hDb, h.session, ?_, ?_, ?_, ?_, ?_, nofun⟩
  · exact fun phase hPhase => ((h.seen phase hPhase).write hBump).write hRevoke
  · exact fun bound hBound => Nat.le_of_eq (Option.some.inj hBound).symm
  · intro bound hBound f hf
    exact Option.some.inj hBound ▸ h.session f hf
  · intro bound hBound sessionId _
    cases hBound
    refine ⟨?_, fun row hRow _ f hf => (hDb.placed row hRow).family f hf, ?_⟩
    · intro row hRow _
      obtain ⟨old, hOld, rfl⟩ := mem_map.1 hRow
      have hUser : (old.userId == s.db.user) = true := beq_iff_eq.2 (h.db.placed old hOld).user
      cases hLive : old.revoked with
      | true => simp [hLive]
      | false => simp [hUser]
    · intro row hRow hLe
      have hLt := (hDb.placed row hRow).id
      exact absurd hLt (Nat.not_lt.2 hLe)
  · intro bound hBound sessionId hGrants phase hPhase
    cases hBound
    -- a refresh under way can still be cut off
    have hEnd := hClear phase hPhase
    have hApart : ∀ row ∈ phase.row?, s.familyApart row = true →
        Apart sessionId s.db.fresh row := by
      intro row hRow hFamily
      have hPlaced := ((h.seen phase hPhase).1 row hRow).placed
      exact apart_of_familyApart hGrants hFamily hPlaced.id hPlaced.family
    cases phase with
    | reuse row | checking row now | graceUser row now | superseding row now =>
      exact .inl (hApart row rfl hEnd)
    | refused | issued row refresh access => trivial
    | liveUser row now | claiming row now | minting row refresh loaded => cases hEnd

/-- The token that the change returns starts a family of its own. -/
theorem inv_issueChange (h : AuthInv s) (hStep : authStep s .issueChange = some t) : AuthInv t := by
  simp only [authStep] at hStep
  split at hStep
  · next bound hChange =>
    rw [← Option.some.inj hStep]
    have hBound : ∀ b ∈ (ChangePhase.committed bound).bound?, b ∈ s.change.bound? := by
      intro b hb
      rwa [hChange]
    have hMem : bound ∈ s.change.bound? := hBound bound rfl
    have hWrite : Write s.db (createRefreshToken s.db s.db.rows s.sessionId) :=
      write_create_only h.session
    have hRows := (h.rows bound hMem s.sessionId (.inl rfl)).create h.db Revokes.refl h.session
      (h.bound bound hMem) (fun f hf => .inl hf)
    rw [map_id'] at hRows
    refine ⟨h.db.write hWrite, fun f hf => Nat.lt_of_lt_of_le (h.session f hf) hWrite.fresh,
      fun phase hPhase => (h.seen phase hPhase).write hWrite,
      fun b hb => Nat.le_trans (h.bound b (hBound b hb)) hWrite.fresh,
      fun b hb => h.sessionOlder b (hBound b hb), ?_, ?_, ?_⟩
    · rintro b hb sessionId (rfl | ⟨-, hCommitted⟩)
      · exact Option.some.inj hb ▸ hRows
      · cases hCommitted
    · rintro b hb sessionId (rfl | ⟨-, hCommitted⟩)
      · exact h.phases b (hBound b hb) s.sessionId (.inl rfl)
      · cases hCommitted
    · intro b f hDone
      obtain ⟨rfl, rfl⟩ := ChangePhase.done.inj hDone
      cases hSession : s.sessionId with
      | none =>
        refine ⟨Nat.lt_succ_self _, .inr ⟨rfl, ?_⟩⟩
        exact Nat.le_succ_of_le (h.bound _ hMem)
      | some f =>
        exact ⟨Nat.lt_of_lt_of_le (h.session f hSession) hWrite.fresh, .inl rfl⟩
  · cases hStep

/-- One step of a logout keeps the invariant. -/
theorem inv_logoutNext {phase : LogoutPhase} (h : AuthInv s)
    (hStep : logoutNext s i tracked phase = some t) : AuthInv t := by
  unfold logoutNext at hStep
  split at hStep
  · next cookie bearer sessionId rest =>
    rw [← Option.some.inj hStep]
    refine AuthInv.logouts ?_ _
    unfold revokeSession
    split
    · exact h.setRows (revokes_revokeWhere _ _ _)
    · exact h
  · rw [← Option.some.inj hStep]
    exact h.logouts _
  · rw [← Option.some.inj hStep]
    exact h.logouts _
  · next token =>
    rw [← Option.some.inj hStep]
    refine AuthInv.logouts (h.setRows fun row => ?_) _
    split
    · exact revokes_revokedAs row _ _
    · exact Revokes.refl row
  · cases hStep

/-- **One step**, whoever makes it. -/
theorem inv_authStep (h : AuthInv s) (hClear : Clear s a)
    (hStep : authStep s a = some t) : AuthInv t := by
  cases a with
  | wait now =>
    rw [← Option.some.inj hStep]
    have hWrite : Write s.db { s.db with now := now } := write_same rfl rfl (Nat.le_refl _)
    refine h.write hWrite fun bound hBound sessionId hGrants =>
      (h.rows bound hBound sessionId hGrants).write hWrite (h.bound bound hBound)
        fun row hRow hLe => ?_
    have hLt := (h.db.placed row hRow).id
    exact absurd hLt (Nat.not_lt.2 hLe)
  | login =>
    rw [← Option.some.inj hStep]
    exact inv_login h
  | refresh token =>
    rw [← Option.some.inj hStep]
    exact inv_refresh h hClear
  | refreshNext i =>
    obtain ⟨phase, hPhase, hMap⟩ := Option.bind_eq_some_iff.1 hStep
    obtain ⟨⟨db', next⟩, hNext, rfl⟩ := Option.map_eq_some_iff.1 hMap
    exact inv_refreshNext h hPhase (refreshStep_of_next hNext)
  | logout cookie bearer swapped =>
    rw [← Option.some.inj hStep]
    exact h.logouts _
  | logoutNext i tracked =>
    obtain ⟨phase, hPhase, hNext⟩ := Option.bind_eq_some_iff.1 hStep
    exact inv_logoutNext h hNext
  | commitChange => exact inv_commitChange h (commitChange_ready hStep) hClear hStep
  | issueChange => exact inv_issueChange h hStep

end

/-! ## The session of the change -/

variable {rows : List RefreshToken} {p : RefreshToken → Bool}

theorem filter_map_fixed (hp : ∀ row, p (g row) = p row)
    (hg : ∀ row ∈ rows, p row = true → g row = row) :
    (rows.map g).filter p = rows.filter p := by
  rw [filter_map, show p ∘ g = p from funext hp]
  calc (rows.filter p).map g = (rows.filter p).map id :=
        map_congr_left fun row hRow => by
          rw [mem_filter] at hRow
          exact hg row hRow.1 hRow.2
    _ = rows.filter p := map_id _

theorem filter_map_commutes (hp : ∀ row, p (g row) = p row) :
    (rows.map g).filter p = (rows.filter p).map g := by
  rw [filter_map, show p ∘ g = p from funext hp]

theorem any_filter_of_imp {q : RefreshToken → Bool}
    (h : ∀ row ∈ rows, q row = true → p row = true) : (rows.filter p).any q = rows.any q := by
  rw [Bool.eq_iff_iff, any_eq_true, any_eq_true]
  constructor
  · rintro ⟨row, hRow, hq⟩
    exact ⟨row, (mem_filter.1 hRow).1, hq⟩
  · rintro ⟨row, hRow, hq⟩
    exact ⟨row, mem_filter.2 ⟨hRow, h row hRow hq⟩, hq⟩

theorem find?_filter_of_imp {q : RefreshToken → Bool}
    (h : ∀ row ∈ rows, q row = true → p row = true) :
    (rows.filter p).find? q = rows.find? q := by
  induction rows with
  | nil => rfl
  | cons row rest ih =>
    rw [forall_mem_cons] at h
    cases hq : q row with
    | true => rw [filter_cons_of_pos (h.1 hq), List.find?_cons_of_pos hq,
        List.find?_cons_of_pos hq]
    | false =>
      have hNot : ¬ q row = true := by simp [hq]
      rw [List.find?_cons_of_neg hNot, ← ih h.2]
      cases hp : p row with
      | true => rw [filter_cons_of_pos hp, List.find?_cons_of_neg hNot]
      | false => rw [filter_cons_of_neg (by simp [hp])]

variable {t : AuthState}

section

variable {s : AuthState} {bound familyId : Nat} {row : RefreshToken}

/-- The rows of the session that the change has started. -/
theorem isNew_iff (hDone : s.change = .done bound familyId) (row : RefreshToken) :
    s.isNew row = true ↔ bound ≤ row.id ∧ row.familyId = some familyId := by
  simp [AuthState.isNew, hDone]

theorem isNew_revokes {row' : RefreshToken} (h : Revokes row row') :
    s.isNew row' = s.isNew row := by
  unfold AuthState.isNew
  rw [h.id, h.family]

/-- A row that no step of the new session has read is of another family. -/
theorem AuthInv.family_ne (h : AuthInv s) (hDone : s.change = .done bound familyId)
    (hRow : Apart s.sessionId bound row ∨ Newer s.sessionId bound row)
    (hNot : ¬ s.isNew row = true) :
    ∃ f, row.familyId = some f ∧ f ≠ familyId := by
  rcases hRow with ⟨-, f, hf, hSession, hLt⟩ | ⟨hLe, f, hf, -⟩
  · refine ⟨f, hf, ?_⟩
    rintro rfl
    rcases (h.done bound f hDone).2 with hOwn | ⟨-, hLe⟩
    · exact hSession hOwn
    · omega
  · refine ⟨f, hf, ?_⟩
    rintro rfl
    exact hNot ((isNew_iff hDone row).2 ⟨hLe, hf⟩)

theorem isNew_newToken (h : AuthInv s) (hDone : s.change = .done bound familyId)
    {own : Option Nat} (hOwn : own ≠ some familyId) : ¬ s.isNew (newToken s.db own) = true := by
  rw [isNew_iff hDone]
  rintro ⟨-, hFamily⟩
  have hFamily : own.getD (s.db.fresh + 1) = familyId := Option.some.inj hFamily
  cases own with
  | none =>
    rw [Option.getD_none] at hFamily
    have := (h.done bound familyId hDone).1
    omega
  | some f => exact hOwn (congrArg some hFamily)

theorem sameFamily_eq_false {f : Nat} (hRow : row.familyId = some f)
    (hOther : other.familyId = some familyId) (hNe : f ≠ familyId) :
    row.sameFamily other = false := by
  rw [RefreshToken.sameFamily, hRow]
  show (other.familyId == some f) = false
  rw [hOther]
  simpa using Ne.symm hNe

/-- A statement that leaves the new session alone. -/
theorem newRows_revokeWhere (hDone : s.change = .done bound familyId)
    {reason : RevokeReason} {now : Time}
    (hp : ∀ row ∈ s.db.rows, bound ≤ row.id → row.familyId = some familyId → p row = false) :
    (revokeWhere p reason now s.db.rows).filter s.isNew = s.db.rows.filter s.isNew := by
  refine filter_map_fixed (fun row => isNew_revokes (revokes_revokeWhere p reason now row)) ?_
  intro row hRow hNew
  obtain ⟨hLe, hFamily⟩ := (isNew_iff hDone row).1 hNew
  rw [hp row hRow hLe hFamily, Bool.and_false]
  rfl

/-- A transaction that leaves the new session alone. -/
theorem newRows_create (h : AuthInv s) (hDone : s.change = .done bound familyId)
    {reason : RevokeReason} {now : Time} {own : Option Nat}
    (hp : ∀ row ∈ s.db.rows, bound ≤ row.id → row.familyId = some familyId → p row = false)
    (hOwn : own ≠ some familyId) :
    (revokeWhere p reason now s.db.rows ++ [newToken s.db own]).filter s.isNew =
      s.db.rows.filter s.isNew := by
  rw [filter_append, newRows_revokeWhere hDone hp,
    filter_cons_of_neg (isNew_newToken h hDone hOwn), filter_nil, append_nil]

/-- A refresh of another session leaves the new one alone. -/
theorem kept_refresh {next : RefreshPhase} (h : AuthInv s)
    (hDone : s.change = .done bound familyId) (hPhase : phase ∈ s.refreshes)
    (hNext : RefreshStep s.db phase db' next) (hNot : ∀ row ∈ phase.row?, ¬ s.isNew row = true) :
    db'.rows.filter s.isNew = s.db.rows.filter s.isNew := by
  have hBound : bound ∈ s.change.bound? := by
    rw [hDone]
    rfl
  have hAfter := h.phases bound hBound s.sessionId (.inl rfl) phase hPhase
  cases hNext with
  | reuse row =>
    obtain ⟨f, hf, hNe⟩ := h.family_ne hDone hAfter (hNot row rfl)
    exact newRows_revokeWhere hDone fun other _ _ hOther => sameFamily_eq_false hf hOther hNe
  | supersede row now hLive =>
    obtain ⟨f, hf, hNe⟩ := h.family_ne hDone hAfter (hNot row rfl)
    refine newRows_create h hDone (fun other _ _ hOther => ?_) (by rw [hf]; simpa using hNe)
    rw [liveInFamily, sameFamily_eq_false hf hOther hNe, Bool.false_and]
  | claim row now =>
    obtain ⟨f, hf, hNe⟩ := h.family_ne hDone (.inr hAfter) (hNot row rfl)
    refine newRows_create h hDone (fun other hMem _ hOther => ?_) (by rw [hf]; simpa using hNe)
    rw [beq_eq_false_iff_ne]
    intro hId
    have hSame := ((h.seen _ hPhase).1 row rfl).same other hMem hId
    rw [hOther, hf] at hSame
    exact hNe (Option.some.inj hSame).symm
  | _ => rfl

/-- A logout of another session leaves the new one alone. -/
theorem kept_logout {phase : LogoutPhase}
    (hDone : s.change = .done bound familyId) (hNext : logoutNext s i tracked phase = some t)
    (hNot : ¬ phase.own s = true) (hEnds : ¬ phase.endsNew s tracked = true) :
    t.newRows = s.newRows := by
  unfold logoutNext at hNext
  split at hNext
  · next cookie bearer sessionId rest =>
    rw [← Option.some.inj hNext]
    unfold revokeSession
    split
    · next hTracked =>
      have hNe : familyId ≠ sessionId := by
        rintro rfl
        apply hEnds
        simp [LogoutPhase.endsNew, hTracked, hDone, ChangePhase.familyId?]
      refine newRows_revokeWhere hDone fun row _ _ hFamily => ?_
      rw [hFamily]
      simpa using hNe
    · rfl
  · rw [← Option.some.inj hNext]
    rfl
  · rw [← Option.some.inj hNext]
    rfl
  · next token =>
    rw [← Option.some.inj hNext]
    refine filter_map_fixed (fun row => isNew_revokes ?_) fun row hRow hNew => ?_
    · split
      · exact revokes_revokedAs row _ _
      · exact Revokes.refl row
    · rw [if_neg]
      intro hId
      apply hNot
      rw [LogoutPhase.own, any_eq_true]
      exact ⟨row, mem_filter.2 ⟨hRow, hNew⟩, hId⟩
  · cases hNext

end

variable {s : AuthState}

theorem newRows_eq_nil (hChange : s.change.familyId? = none) : s.newRows = [] := by
  rw [AuthState.newRows, filter_eq_nil_iff]
  intro row _
  unfold AuthState.isNew
  split
  · next bound familyId hDone =>
    rw [hDone] at hChange
    cases hChange
  · simp

theorem logoutNext_change {phase : LogoutPhase}
    (h : logoutNext s i tracked phase = some t) : t.change = s.change := by
  unfold logoutNext at h
  split at h
  · rw [← Option.some.inj h]
    unfold revokeSession
    split <;> rfl
  · rw [← Option.some.inj h]
    rfl
  · rw [← Option.some.inj h]
    rfl
  · rw [← Option.some.inj h]
    rfl
  · cases h

/-- Nobody but the new session's own requests changes it. -/
theorem newRows_kept (h : AuthInv s) (hClear : Clear s a)
    (hStep : authStep s a = some t) (hIssue : a ≠ .issueChange) (hNot : ¬ Own s a) :
    t.newRows = s.newRows := by
  -- without a new session there are no new rows on either side
  have hNone : t.change = s.change → s.change.familyId? = none → t.newRows = s.newRows := by
    intro hSame hFamily
    rw [newRows_eq_nil hFamily, newRows_eq_nil (hSame ▸ hFamily)]
  have hDone : ∀ f, s.change.familyId? = some f → ∃ bound, s.change = .done bound f := by
    intro f hFamily
    cases hChange : s.change with
    | done bound familyId =>
      rw [hChange] at hFamily
      exact ⟨bound, congrArg _ (Option.some.inj hFamily)⟩
    | ready | committed bound =>
      rw [hChange] at hFamily
      cases hFamily
  cases a with
  | wait now | refresh token | logout cookie bearer swapped =>
    rw [← Option.some.inj hStep]
    rfl
  | login =>
    rw [← Option.some.inj hStep] at hNone ⊢
    cases hFamily : s.change.familyId? with
    | none => exact hNone rfl hFamily
    | some f =>
      obtain ⟨bound, hChange⟩ := hDone f hFamily
      show (s.db.rows ++ [newToken s.db none]).filter s.isNew = s.db.rows.filter s.isNew
      rw [filter_append,
        filter_cons_of_neg (isNew_newToken h hChange (fun hNil => by cases hNil)),
        filter_nil, append_nil]
  | refreshNext i =>
    obtain ⟨phase, hPhase, hMap⟩ := Option.bind_eq_some_iff.1 hStep
    obtain ⟨⟨db', next⟩, hNext, rfl⟩ := Option.map_eq_some_iff.1 hMap
    cases hFamily : s.change.familyId? with
    | none => exact hNone rfl hFamily
    | some f =>
      obtain ⟨bound, hChange⟩ := hDone f hFamily
      exact kept_refresh h hChange (mem_of_getElem? hPhase) (refreshStep_of_next hNext)
        fun row hRow hNew => hNot ⟨phase, hPhase, row, hRow, hNew⟩
  | logoutNext i tracked =>
    obtain ⟨phase, hPhase, hNext⟩ := Option.bind_eq_some_iff.1 hStep
    cases hFamily : s.change.familyId? with
    | none => exact hNone (logoutNext_change hNext) hFamily
    | some f =>
      obtain ⟨bound, hChange⟩ := hDone f hFamily
      have hOwn : ¬ phase.own s = true := fun hOwn => hNot ⟨phase, hPhase, hOwn⟩
      exact kept_logout hChange hNext hOwn fun hEnds => hOwn (hClear phase hPhase hEnds)
  | commitChange =>
    have hReady := commitChange_ready hStep
    simp only [authStep, hReady, if_true] at hStep
    rw [← Option.some.inj hStep, newRows_eq_nil (s := s) (by rw [hReady]; rfl)]
    exact newRows_eq_nil rfl
  | issueChange => exact absurd rfl hIssue

/-- The token that the change returns is all there is of its session. -/
theorem newRows_issueChange (h : AuthInv s)
    (hStep : authStep s .issueChange = some t) : t.newRows = [newToken s.db s.sessionId] := by
  simp only [authStep] at hStep
  split at hStep
  · next bound hChange =>
    rw [← Option.some.inj hStep]
    have hMem : bound ∈ s.change.bound? := by
      rw [hChange]
      rfl
    have hRows := h.rows bound hMem none (.inr ⟨rfl, hChange⟩)
    have hBound := h.bound bound hMem
    simp only [AuthState.newRows, createRefreshToken, filter_append]
    rw [filter_eq_nil_iff.2, nil_append, filter_cons_of_pos, filter_nil]
    · rw [isNew_iff rfl]
      exact ⟨hBound, rfl⟩
    intro row hRow hNew
    rw [isNew_iff rfl] at hNew
    obtain ⟨-, f, hf, hPlace⟩ := hRows.newer row hRow hNew.1
    have hPlaced := (h.db.placed row hRow).family f hf
    have hSame : f = s.sessionId.getD (s.db.fresh + 1) :=
      Option.mem_unique hf hNew.2
    rcases hPlace with hSession | hLe
    · cases hSession
    · cases hOwn : s.sessionId with
      | none =>
        rw [hOwn, Option.getD_none] at hSame
        omega
      | some own =>
        have hOlder := h.sessionOlder bound hMem own hOwn
        rw [hOwn, Option.getD_some] at hSame
        omega
  · cases hStep

/-- An older token is refused. -/
theorem older_refused (h : AuthInv s) (hOlder : s.older token = true) : ¬ Exchanges s a token := by
  rintro ⟨i, phase, db', next, -, hPhase, hNext, hExchanged⟩
  obtain ⟨bound, hBound, hLt⟩ := (Option.any_eq_true ..).1 hOlder
  have hRows := h.rows bound hBound s.sessionId (.inl rfl)
  have hAfter := h.phases bound hBound s.sessionId (.inl rfl) phase
    (mem_of_getElem? hPhase)
  have hNewer := exchanged_newer hRows hAfter (refreshStep_of_next hNext) hExchanged
  have := of_decide_eq_true hLt
  omega

section

variable {s : AuthState} {bound familyId : Nat} {row : RefreshToken}

theorem row?_alone (hNew : ∀ other ∈ s.db.rows, other.id = token → s.isNew other = true) :
    (s.alone s.db).row? token = s.db.row? token :=
  find?_filter_of_imp fun other hOther hId => hNew other hOther (beq_iff_eq.1 hId)

/-- A refresh of the new session begins as if no other token existed. -/
theorem begins_alone (h : AuthInv s) (hRow : s.db.row? token = some row)
    (hNew : s.isNew row = true) :
    refreshBegin (s.alone s.db) token = refreshBegin s.db token := by
  have hRows : (s.alone s.db).row? token = s.db.row? token := by
    refine row?_alone fun other hOther hId => ?_
    have hSame := inj_on_of_nodup_map h.db.ids hOther (TokenDb.mem_of_row? hRow)
      (hId.trans (TokenDb.id_of_row? hRow).symm)
    rwa [hSame]
  simp only [refreshBegin, hRows]
  rfl

/-- The live rows of the new session's family are new. -/
theorem isNew_of_live (h : AuthInv s) (hDone : s.change = .done bound familyId)
    (hNew : s.isNew row = true) (hOther : other ∈ s.db.rows)
    (hLive : other.revoked = false) (hFamily : row.sameFamily other = true) :
    s.isNew other = true := by
  have hRow := (isNew_iff hDone row).1 hNew
  have hRows := h.rows bound (by rw [hDone]; rfl) s.sessionId (.inl rfl)
  rw [isNew_iff hDone]
  rw [RefreshToken.sameFamily, hRow.2] at hFamily
  refine ⟨?_, beq_iff_eq.1 hFamily⟩
  by_contra hOld
  rw [hRows.older other hOther (Nat.lt_of_not_le hOld)] at hLive
  cases hLive

theorem any_live_alone (h : AuthInv s) (hDone : s.change = .done bound familyId)
    (hNew : s.isNew row = true) (now : Time) :
    ((s.alone s.db).rows.any fun other => !other.revoked && liveInFamily row now other) =
      s.db.rows.any fun other => !other.revoked && liveInFamily row now other := by
  refine any_filter_of_imp fun other hOther hLive => ?_
  rw [Bool.and_eq_true, Bool.not_eq_true', liveInFamily, Bool.and_eq_true] at hLive
  exact isNew_of_live h hDone hNew hOther hLive.1 hLive.2.1

/-- A row that has been read as one of the new session still is. -/
theorem isNew_of_seen (hDone : s.change = .done bound familyId) (hSeen : Seen s.db row)
    (hNew : s.isNew row = true) (hOther : other ∈ s.db.rows)
    (hId : other.id = row.id) : s.isNew other = true := by
  obtain ⟨hLe, hFamily⟩ := (isNew_iff hDone row).1 hNew
  rw [isNew_iff hDone]
  exact ⟨hId ▸ hLe, (hSeen.same other hOther hId).trans hFamily⟩

theorem any_claim_alone (hDone : s.change = .done bound familyId) (hSeen : Seen s.db row)
    (hNew : s.isNew row = true) :
    ((s.alone s.db).rows.any fun other => !other.revoked && other.id == row.id) =
      s.db.rows.any fun other => !other.revoked && other.id == row.id := by
  refine any_filter_of_imp fun other hOther hLive => ?_
  rw [Bool.and_eq_true] at hLive
  exact isNew_of_seen hDone hSeen hNew hOther (beq_iff_eq.1 hLive.2)

theorem revokeWhere_alone (p : RefreshToken → Bool) (reason : RevokeReason) (now : Time) :
    revokeWhere p reason now (s.alone s.db).rows =
      (revokeWhere p reason now s.db.rows).filter s.isNew :=
  (filter_map_commutes fun other => isNew_revokes (revokes_revokeWhere p reason now other)).symm

/-- A rotation within the new session adds a token to it. -/
theorem create_alone (h : AuthInv s) (hDone : s.change = .done bound familyId)
    (hNew : s.isNew row = true) (p : RefreshToken → Bool) (reason : RevokeReason) (now : Time) :
    createRefreshToken (s.alone s.db) (revokeWhere p reason now (s.alone s.db).rows)
        row.familyId =
      s.alone (createRefreshToken s.db (revokeWhere p reason now s.db.rows) row.familyId) := by
  have hToken : s.isNew (newToken s.db row.familyId) = true := by
    rw [isNew_iff hDone, ((isNew_iff hDone row).1 hNew).2]
    exact ⟨h.bound bound (by rw [hDone]; rfl), rfl⟩
  simp only [AuthState.alone, createRefreshToken, filter_append,
    filter_cons_of_pos hToken, filter_nil]
  exact congrArg (fun rows => { s.db with
    rows := rows ++ [newToken s.db row.familyId], fresh := s.db.fresh + 2 })
    (revokeWhere_alone p reason now)

/-- What a request of the new session does it does as if no other token existed. -/
theorem goesOn_alone (h : AuthInv s) (hDone : s.change = .done bound familyId)
    (hPhase : phase ∈ s.refreshes) (hRow : row ∈ phase.row?) (hNew : s.isNew row = true) :
    refreshNext (s.alone s.db) phase =
      (refreshNext s.db phase).map fun (db, next) => (s.alone db, next) := by
  have hSeen := (h.seen phase hPhase).1 row hRow
  cases phase with
  | reuse read =>
    simp only [refreshNext, revokeWhere_alone, Option.map_some]
    rfl
  | checking read now =>
    obtain rfl := Option.some.inj hRow
    simp only [refreshNext, any_live_alone h hDone hNew, Option.map_some]
  | graceUser read now => rfl
  | superseding read now =>
    obtain rfl := Option.some.inj hRow
    simp only [refreshNext, any_live_alone h hDone hNew, create_alone h hDone hNew]
    split <;> rfl
  | liveUser read now => rfl
  | claiming read now =>
    obtain rfl := Option.some.inj hRow
    simp only [refreshNext, any_claim_alone hDone hSeen hNew, create_alone h hDone hNew]
    split <;> rfl
  | minting read refresh loaded =>
    obtain rfl := Option.some.inj hRow
    have hToken : (s.alone s.db).row? (refresh.getD read.id) =
        s.db.row? (refresh.getD read.id) := by
      refine row?_alone fun other hOther hId => ?_
      cases refresh with
      | none => exact isNew_of_seen hDone hSeen hNew hOther hId
      | some token =>
        obtain ⟨-, hFamily⟩ := (isNew_iff hDone read).1 hNew
        have hAfter := h.phases bound (by rw [hDone]; rfl) s.sessionId (.inl rfl) _ hPhase
        obtain ⟨-, hMade⟩ := (h.seen _ hPhase).2 read token loaded rfl
        rw [isNew_iff hDone, hMade other hOther hId (by rw [hFamily]; rfl)]
        exact ⟨hId ▸ hAfter.2 token rfl, hFamily⟩
    simp only [refreshNext, hToken, Option.map_some]
    rfl
  | refused => cases hRow
  | issued read refresh access => rfl

theorem isNew_done (hNew : s.isNew row = true) :
    ∃ bound familyId, s.change = .done bound familyId := by
  unfold AuthState.isNew at hNew
  split at hNew
  · next bound familyId hDone => exact ⟨bound, familyId, hDone⟩
  · cases hNew

end

/-! ## Runs -/

/-- **One step** from the invariant ends what it must. -/
theorem endsOlderLogins (h : AuthInv s) (hClear : Clear s a) : EndsOlderLogins s a where
  refused := fun token hOlder => older_refused h hOlder
  returned := by
    rintro t rfl hStep
    exact newRows_issueChange h hStep
  kept := fun t hIssue hStep hNot => newRows_kept h hClear hStep hIssue hNot
  begins := fun token row hRow hNew => begins_alone h hRow hNew
  goesOn := by
    intro phase hPhase row hRow hNew
    obtain ⟨bound, familyId, hDone⟩ := isNew_done hNew
    exact goesOn_alone h hDone hPhase hRow hNew

/-- Before the change: any rows of the user, any number of sessions, no request under way. -/
structure AuthStart (s : AuthState) : Prop where
  db : DbOk s.db
  session : ∀ familyId ∈ s.sessionId, familyId < s.db.fresh
  refreshes : s.refreshes = []
  logouts : s.logouts = []
  change : s.change = .ready

theorem inv_authStart (h : AuthStart s) : AuthInv s where
  db := h.db
  session := h.session
  seen := by
    rw [h.refreshes]
    simp
  bound := by
    rw [h.change]
    simp [ChangePhase.bound?]
  sessionOlder := by
    rw [h.change]
    simp [ChangePhase.bound?]
  rows := by
    rw [h.change]
    simp [ChangePhase.bound?]
  phases := by
    rw [h.change]
    simp [ChangePhase.bound?]
  done := by
    rw [h.change]
    simp

/-- In a run whose steps are clear the change ends every older login. -/
theorem older_logins_ended {s : AuthState} {run : List AuthAction} (hStart : AuthStart s)
    (hClear : Along authStep Clear s run) : Along authStep EndsOlderLogins s run :=
  Lib.along_of_guard (fun _ _ _ hInv hClear hStep => inv_authStep hInv hClear hStep)
    (fun _ _ hInv hClear => endsOlderLogins hInv hClear) (inv_authStart hStart) hClear

/-- Session 2, where token 1 has been rotated to token 3, and session 5. -/
def twoSessions : AuthState where
  db :=
    { user := 1, now := timedeltaSeconds 10, expireDelta := timedeltaSeconds 3600, fresh := 6
      rows :=
        [{ id := 1, userId := 1, expiresAt := timedeltaSeconds 900, familyId := some 2,
           revoked := true, revokedAt := some (timedeltaSeconds 5), revokeReason := some .rotated },
         { id := 3, userId := 1, expiresAt := timedeltaSeconds 910, familyId := some 2 },
         { id := 4, userId := 1, expiresAt := timedeltaSeconds 910, familyId := some 5 }] }
  sessionId := some 2

theorem twoSessions_start : AuthStart twoSessions where
  db :=
    { ids := by decide
      placed := by
        intro row hRow
        simp only [twoSessions, mem_cons, not_mem_nil, or_false] at hRow
        rcases hRow with rfl | rfl | rfl
        · exact ⟨by decide, rfl, fun f hf => Option.some.inj hf ▸ (by decide)⟩
        · exact ⟨by decide, rfl, fun f hf => Option.some.inj hf ▸ (by decide)⟩
        · exact ⟨by decide, rfl, fun f hf => Option.some.inj hf ▸ (by decide)⟩ }
  session := by decide
  refreshes := rfl
  logouts := rfl
  change := rfl

/-- Session 2 changes the password while session 5 refreshes and leaves; then the token of the
change is rotated. -/
def otherSession : List AuthAction :=
  [.refresh 4, .refreshNext 0, .refreshNext 0, .refreshNext 0, .logout (some 6) none false,
    .commitChange, .issueChange, .refresh 6, .logoutNext 0 true, .refresh 8, .refreshNext 2,
    .refreshNext 2, .refreshNext 2]

theorem other_session_ended : Along authStep EndsOlderLogins twoSessions otherSession := by
  have hClear : Along authStep Clear twoSessions otherSession := by decide
  exact older_logins_ended twoSessions_start hClear

theorem exchanged_along {run rest : List AuthAction}
    (h : ∃ t, exec authStep s run = some t ∧ t.older token = true ∧
      Exchanges t a token) :
    ¬ Along authStep EndsOlderLogins s (run ++ a :: rest) := by
  obtain ⟨t, hExec, hOlder, hExchanges⟩ := h
  exact fun hAlong => (hAlong.at hExec).refused token hOlder hExchanges

theorem changed_along {run rest : List AuthAction}
    (h : ∃ t t', exec authStep s run = some t ∧ authStep t a = some t' ∧ a ≠ .issueChange ∧
      ¬ Own t a ∧ t'.newRows ≠ t.newRows) :
    ¬ Along authStep EndsOlderLogins s (run ++ a :: rest) := by
  obtain ⟨t, t', hExec, hStep, hIssue, hOwn, hRows⟩ := h
  exact fun hAlong => hRows ((hAlong.at hExec).kept t' hIssue hStep hOwn)

/-- After the change token 1, which was rotated five seconds ago, gets a successor and ends the
token that the change returned. -/
def rotatedComesBack : List AuthAction :=
  [.commitChange, .issueChange, .refresh 1, .refreshNext 0, .refreshNext 0, .refreshNext 0]

/-- A refresh has read token 4 as live when the change commits; it loses the claim and is given
an access token. -/
def lostClaim : List AuthAction :=
  [.refresh 4, .commitChange, .refreshNext 0, .refreshNext 0, .refreshNext 0]

/-- Token 1 comes back when it is too late for its grace: the token of the change is revoked. -/
def theftSuspected : List AuthAction :=
  [.commitChange, .issueChange, .wait (timedeltaSeconds 100), .refresh 1, .refreshNext 0]

/-- Three runs that break it. -/
theorem older_logins_survive :
    AuthStart twoSessions ∧
    ¬ Along authStep EndsOlderLogins twoSessions rotatedComesBack ∧
    ¬ Along authStep EndsOlderLogins twoSessions lostClaim ∧
    ¬ Along authStep EndsOlderLogins twoSessions theftSuspected := by
  refine ⟨twoSessions_start, ?_, ?_, ?_⟩
  · show ¬ Along authStep EndsOlderLogins twoSessions
      (rotatedComesBack.dropLast ++ [.refreshNext 0])
    exact exchanged_along ⟨_, rfl, by decide, 0, _, _, _, rfl, rfl, rfl, rfl⟩
  · show ¬ Along authStep EndsOlderLogins twoSessions (lostClaim.dropLast ++ [.refreshNext 0])
    exact exchanged_along ⟨_, rfl, by decide, 0, _, _, _, rfl, rfl, rfl, rfl⟩
  · show ¬ Along authStep EndsOlderLogins twoSessions
      (theftSuspected.dropLast ++ [.refreshNext 0])
    refine changed_along ⟨_, _, rfl, rfl, nofun, ?_, by decide⟩
    rintro ⟨phase, hPhase, row, hRow, hNew⟩
    cases hPhase
    cases hRow
    exact absurd hNew (by decide)

end AdminPanel.Auth
