import AdminPanel.Access.Policy

/-!
# Refresh tokens

The rows of `refresh_tokens`, the statements on them and `rotate_refresh_token`, one database
step at a time. A raw token stands for the id of its row, since hashes are unique, and
`secrets` never returns a value twice. A statement that changes rows holds the write lock to
its commit, so statement and commit are one step.

* `RefreshToken.revokedAs`, `revokeWhere` — an `UPDATE` over the rows that are not revoked;
* `TokenDb` — the rows, what the requests read of the user, and the clock;
* `createRefreshToken`, `refreshBegin`, `refreshNext` — the code;
* `RefreshStep`, `Write` — what one step of a refresh does, and what any step does to the rows.
-/

namespace AdminPanel.Auth

open List

open Access (Time)

/-! ## Rows -/

/-- `revoke_reason`; rows revoked before the column was added have none. -/
inductive RevokeReason
  | rotated
  | reuse
  | logout
  | session
  | password
  | secretKeyRotation
  | disabled
  | revoked
  deriving DecidableEq, Repr

structure RefreshToken where
  id : Nat
  userId : Nat
  expiresAt : Time
  revoked : Bool := false
  familyId : Option Nat
  revokedAt : Option Time := none
  revokeReason : Option RevokeReason := none
  deriving DecidableEq, Repr

namespace RefreshToken

/-- `{"revoked": True, "revoked_at": now, "revoke_reason": reason}` -/
def revokedAs (row : RefreshToken) (reason : RevokeReason) (now : Time) : RefreshToken :=
  { row with revoked := true, revokedAt := some now, revokeReason := some reason }

@[simp] theorem userId_revokedAs (row : RefreshToken) (reason : RevokeReason) (now : Time) :
    (row.revokedAs reason now).userId = row.userId := rfl

@[simp] theorem revoked_revokedAs (row : RefreshToken) (reason : RevokeReason) (now : Time) :
    (row.revokedAs reason now).revoked = true := rfl

/-- The filter of `_revoke_family_on_reuse` and `_family_has_live_token`. -/
def sameFamily (row other : RefreshToken) : Bool :=
  match row.familyId with
  | some _ => other.familyId == row.familyId
  | none => other.userId == row.userId

end RefreshToken

/-- `UPDATE refresh_tokens SET revoked = 1, ... WHERE revoked IS 0 AND p` -/
def revokeWhere (p : RefreshToken → Bool) (reason : RevokeReason) (now : Time)
    (rows : List RefreshToken) : List RefreshToken :=
  rows.map fun row => if !row.revoked && p row then row.revokedAs reason now else row

def revokeAllUserTokens (userId : Nat) (reason : RevokeReason) (now : Time)
    (rows : List RefreshToken) : List RefreshToken :=
  revokeWhere (fun row => row.userId == userId) reason now rows

def revokeTokenFamily (familyId : Nat) (reason : RevokeReason) (now : Time)
    (rows : List RefreshToken) : List RefreshToken :=
  revokeWhere (fun row => row.familyId == some familyId) reason now rows

/-- A row that changes as updates of `refresh_tokens` change it. -/
structure Revokes (row row' : RefreshToken) : Prop where
  id : row'.id = row.id
  family : row'.familyId = row.familyId
  user : row'.userId = row.userId
  revoked : row.revoked = true → row'.revoked = true

theorem Revokes.refl (row : RefreshToken) : Revokes row row := ⟨rfl, rfl, rfl, fun h => h⟩

theorem revokes_revokedAs (row : RefreshToken) (reason : RevokeReason) (now : Time) :
    Revokes row (row.revokedAs reason now) := ⟨rfl, rfl, rfl, fun _ => rfl⟩

theorem revokes_revokeWhere (p : RefreshToken → Bool) (reason : RevokeReason) (now : Time)
    (row : RefreshToken) :
    Revokes row (if !row.revoked && p row then row.revokedAs reason now else row) := by
  split
  · exact revokes_revokedAs row reason now
  · exact Revokes.refl row

/-! ## The database -/

/-- The rows of the tokens of one user, its row in `users` as far as the requests read it, and
`datetime.utcnow()`. Ids of rows and families come from `fresh`. -/
structure TokenDb where
  user : Nat
  isActive : Bool := true
  tokenVersion : Nat := 0
  rows : List RefreshToken := []
  now : Time := 0
  expireDelta : Time
  fresh : Nat

variable {db : TokenDb}

namespace TokenDb

/-- The row of a raw token. -/
def row? (db : TokenDb) (token : Nat) : Option RefreshToken :=
  db.rows.find? fun row => row.id == token

theorem mem_of_row? {token : Nat} {row : RefreshToken}
    (h : db.row? token = some row) : row ∈ db.rows :=
  mem_of_find?_eq_some h

theorem id_of_row? {token : Nat} {row : RefreshToken}
    (h : db.row? token = some row) : row.id = token := by
  have hId := List.find?_some h
  exact beq_iff_eq.1 hId

end TokenDb

/-- The row that `create_refresh_token` adds. -/
def newToken (db : TokenDb) (familyId : Option Nat) : RefreshToken where
  id := db.fresh
  userId := db.user
  expiresAt := db.now + db.expireDelta
  familyId := some (familyId.getD (db.fresh + 1))

/-- `create_refresh_token`, on rows that the same transaction may have changed. -/
def createRefreshToken (db : TokenDb) (rows : List RefreshToken) (familyId : Option Nat) :
    TokenDb :=
  { db with rows := rows ++ [newToken db familyId], fresh := db.fresh + 2 }

/-! ## Refresh requests -/

def rotationGraceSeconds : Int := 30

/-- `timedelta(seconds=n)` in microseconds. -/
def timedeltaSeconds (n : Int) : Time := n * 1000000

def withinRotationGrace (row : RefreshToken) (now : Time) : Bool :=
  row.revokedAt.any fun revokedAt =>
    decide (now - revokedAt ≤ timedeltaSeconds rotationGraceSeconds)

/-- An access token, with what it says of its session. -/
structure AccessToken where
  tokenVersion : Nat
  sessionId : Option Nat
  deriving DecidableEq, Repr

/-- Where a refresh request stands: the row as it was read and the next database step. `now` is
the request's own. -/
inductive RefreshPhase
  /-- `_revoke_family_on_reuse` -/
  | reuse (row : RefreshToken)
  /-- `_family_has_live_token` -/
  | checking (row : RefreshToken) (now : Time)
  /-- `_active_user`, for a row in its grace period. -/
  | graceUser (row : RefreshToken) (now : Time)
  | superseding (row : RefreshToken) (now : Time)
  /-- `_active_user`, for a live row. -/
  | liveUser (row : RefreshToken) (now : Time)
  | claiming (row : RefreshToken) (now : Time)
  /-- `rotate_refresh_token` has returned `refresh`; the access token is next, for the version
  that the session has loaded or else reads. -/
  | minting (row : RefreshToken) (refresh : Option Nat) (loaded : Option Nat)
  | refused
  | issued (row : RefreshToken) (refresh : Option Nat) (access : AccessToken)
  deriving DecidableEq, Repr

/-- The first statement of `rotate_refresh_token` and what it decides. -/
def refreshBegin (db : TokenDb) (token : Nat) : RefreshPhase :=
  match db.row? token with
  | none => .refused
  | some row =>
    if row.expiresAt < db.now then .refused
    else if row.revoked then
      if row.revokeReason = some .rotated then
        if withinRotationGrace row db.now then .checking row db.now else .reuse row
      else .refused
    else .liveUser row db.now

/-- The live rows that `_family_has_live_token` looks for, which the grace path supersedes. -/
def liveInFamily (row : RefreshToken) (now : Time) (other : RefreshToken) : Bool :=
  row.sameFamily other && decide (now < other.expiresAt)

def refreshNext (db : TokenDb) : RefreshPhase → Option (TokenDb × RefreshPhase)
  | .reuse row =>
    some ({ db with rows := revokeWhere row.sameFamily .reuse db.now db.rows }, .refused)
  | .checking row now =>
    some (db, if db.rows.any fun other => !other.revoked && liveInFamily row now other
      then .graceUser row now else .refused)
  | .graceUser row now =>
    some (db, if !db.isActive then .refused
      else if row.familyId = none then .minting row none (some db.tokenVersion)
      else .superseding row now)
  | .superseding row now =>
    -- the `UPDATE` has found rows, so a successor is added in its transaction
    if db.rows.any fun other => !other.revoked && liveInFamily row now other then
      some (createRefreshToken db (revokeWhere (liveInFamily row now) .rotated now db.rows)
        row.familyId, .minting row (some db.fresh) none)
    else some (db, .refused)
  | .liveUser row now => some (db, if !db.isActive then .refused else .claiming row now)
  | .claiming row now =>
    if db.rows.any fun other => !other.revoked && other.id == row.id then
      some (createRefreshToken db (revokeWhere (fun other => other.id == row.id) .rotated now db.rows)
        row.familyId, .minting row (some db.fresh) none)
    else some (db, .minting row none none)
  | .minting row refresh loaded =>
    some (db, .issued row refresh {
      tokenVersion := loaded.getD db.tokenVersion
      sessionId := (db.row? (refresh.getD row.id)).bind RefreshToken.familyId })
  | .refused | .issued _ _ _ => none

/-- The row that the request presented. -/
def RefreshPhase.row? : RefreshPhase → Option RefreshToken
  | .reuse row | .checking row _ | .graceUser row _ | .superseding row _ | .liveUser row _
  | .claiming row _ | .minting row _ _ | .issued row _ _ => some row
  | .refused => none

/-- What a refresh may find when it begins. -/
inductive RefreshStart (db : TokenDb) (token : Nat) : RefreshPhase → Prop
  | refuse : RefreshStart db token .refused
  | live (row : RefreshToken) (hRow : db.row? token = some row) (hLive : row.revoked = false) :
    RefreshStart db token (.liveUser row db.now)
  | inGrace (row : RefreshToken) (hRow : db.row? token = some row)
    (hReason : row.revokeReason = some .rotated) (hExpires : ¬ row.expiresAt < db.now) :
    RefreshStart db token (.checking row db.now)
  | late (row : RefreshToken) (hRow : db.row? token = some row)
    (hReason : row.revokeReason = some .rotated) (hExpires : ¬ row.expiresAt < db.now) :
    RefreshStart db token (.reuse row)

theorem refreshStart_of_begin (db : TokenDb) (token : Nat) :
    RefreshStart db token (refreshBegin db token) := by
  unfold refreshBegin
  cases hRow : db.row? token with
  | none => exact .refuse
  | some row =>
    dsimp only
    split
    · exact .refuse
    · next hExpires =>
      split
      · split
        · next hReason =>
          split
          · exact .inGrace row hRow hReason hExpires
          · exact .late row hRow hReason hExpires
        · exact .refuse
      · next hLive => exact .live row hRow (Bool.eq_false_iff.2 hLive)

/-- What one step of a refresh does. -/
inductive RefreshStep (db : TokenDb) : RefreshPhase → TokenDb → RefreshPhase → Prop
  | refuse (phase : RefreshPhase) : RefreshStep db phase db .refused
  | reuse (row : RefreshToken) : RefreshStep db (.reuse row)
      { db with rows := revokeWhere row.sameFamily .reuse db.now db.rows } .refused
  | inGrace (row : RefreshToken) (now : Time) :
    RefreshStep db (.checking row now) db (.graceUser row now)
  | graceAccess (row : RefreshToken) (now : Time) (hFamily : row.familyId = none) :
    RefreshStep db (.graceUser row now) db (.minting row none (some db.tokenVersion))
  | graceFamily (row : RefreshToken) (now : Time) :
    RefreshStep db (.graceUser row now) db (.superseding row now)
  | supersede (row : RefreshToken) (now : Time)
    (hLive : (db.rows.any fun other => !other.revoked && liveInFamily row now other) = true) :
    RefreshStep db (.superseding row now)
      (createRefreshToken db (revokeWhere (liveInFamily row now) .rotated now db.rows)
        row.familyId) (.minting row (some db.fresh) none)
  | active (row : RefreshToken) (now : Time) :
    RefreshStep db (.liveUser row now) db (.claiming row now)
  | claim (row : RefreshToken) (now : Time) :
    RefreshStep db (.claiming row now)
      (createRefreshToken db (revokeWhere (fun other => other.id == row.id) .rotated now db.rows)
        row.familyId) (.minting row (some db.fresh) none)
  | lose (row : RefreshToken) (now : Time) :
    RefreshStep db (.claiming row now) db (.minting row none none)
  | mint (row : RefreshToken) (refresh loaded : Option Nat) (access : AccessToken) :
    RefreshStep db (.minting row refresh loaded) db (.issued row refresh access)

/-- A step of a refresh is one of `RefreshStep`. -/
theorem refreshStep_of_next {db' : TokenDb} {phase next : RefreshPhase}
    (h : refreshNext db phase = some (db', next)) : RefreshStep db phase db' next := by
  cases phase with
  | reuse row =>
    cases h
    exact .reuse row
  | checking row now =>
    simp only [refreshNext] at h
    split at h <;> cases h
    · exact .inGrace row now
    · exact .refuse _
  | graceUser row now =>
    simp only [refreshNext] at h
    split at h
    · cases h
      exact .refuse _
    · split at h <;> cases h
      · next hFamily => exact .graceAccess row now hFamily
      · exact .graceFamily row now
  | superseding row now =>
    simp only [refreshNext] at h
    split at h <;> cases h
    · next hLive => exact .supersede row now hLive
    · exact .refuse _
  | liveUser row now =>
    simp only [refreshNext] at h
    split at h <;> cases h
    · exact .refuse _
    · exact .active row now
  | claiming row now =>
    simp only [refreshNext] at h
    split at h <;> cases h
    · exact .claim row now
    · exact .lose row now
  | minting row refresh loaded =>
    cases h
    exact .mint row refresh loaded _
  | refused | issued row refresh access => cases h

/-! ## Writes -/

/-- The row is of the user, and has its id and family from `fresh`. -/
structure Placed (db : TokenDb) (row : RefreshToken) : Prop where
  id : row.id < db.fresh
  user : row.userId = db.user
  family : ∀ familyId, row.familyId = some familyId → familyId < db.fresh

structure DbOk (db : TokenDb) : Prop where
  ids : (db.rows.map RefreshToken.id).Nodup
  placed : ∀ row ∈ db.rows, Placed db row

/-- What every step does to the rows: it revokes some and may add new ones. -/
structure Write (db db' : TokenDb) : Prop where
  fresh : db.fresh ≤ db'.fresh
  user : db'.user = db.user
  ids : ∃ new : List Nat, db'.rows.map RefreshToken.id = db.rows.map RefreshToken.id ++ new ∧
    new.Nodup ∧ ∀ id ∈ new, db.fresh ≤ id
  mem : ∀ row' ∈ db'.rows, (∃ row ∈ db.rows, Revokes row row') ∨
    db.fresh ≤ row'.id ∧ Placed db' row'

section

variable {db db' : TokenDb} {row : RefreshToken}

/-- A step that leaves the rows as they are. -/
theorem write_same (hRows : db'.rows = db.rows) (hUser : db'.user = db.user)
    (hFresh : db.fresh ≤ db'.fresh) : Write db db' where
  fresh := hFresh
  user := hUser
  ids := ⟨[], by rw [hRows, append_nil], nodup_nil, by simp⟩
  mem := fun row hRow => .inl ⟨row, hRows ▸ hRow, Revokes.refl row⟩

theorem Write.refl (db : TokenDb) : Write db db := write_same rfl rfl (Nat.le_refl _)

/-- A statement that revokes rows. -/
theorem write_map {g : RefreshToken → RefreshToken} (hg : ∀ row, Revokes row (g row)) :
    Write db { db with rows := db.rows.map g } where
  fresh := Nat.le_refl _
  user := rfl
  ids := by
    refine ⟨[], ?_, nodup_nil, by simp⟩
    rw [append_nil]
    show (db.rows.map g).map RefreshToken.id = _
    rw [map_map]
    exact map_congr_left fun row _ => (hg row).id
  mem := by
    intro row' hMem
    obtain ⟨row, hRow, rfl⟩ := mem_map.1 hMem
    exact .inl ⟨row, hRow, hg row⟩

/-- A transaction that revokes rows and adds one. -/
theorem write_create {g : RefreshToken → RefreshToken} (hg : ∀ row, Revokes row (g row))
    {familyId : Option Nat} (hFamily : ∀ f, familyId = some f → f < db.fresh) :
    Write db (createRefreshToken db (db.rows.map g) familyId) where
  fresh := Nat.le_add_right _ _
  user := rfl
  ids := by
    refine ⟨[db.fresh], ?_, by simp, by simp⟩
    show (db.rows.map g ++ [newToken db familyId]).map RefreshToken.id = _
    rw [map_append, map_map]
    exact congrArg (· ++ [db.fresh]) (map_congr_left fun row _ => (hg row).id)
  mem := by
    intro row' hMem
    rcases mem_append.1 hMem with hOld | hNew
    · obtain ⟨row, hRow, rfl⟩ := mem_map.1 hOld
      exact .inl ⟨row, hRow, hg row⟩
    rw [mem_singleton.1 hNew]
    refine .inr ⟨Nat.le_refl _, Nat.lt_add_of_pos_right (by decide), rfl, ?_⟩
    intro f hf
    have hf : familyId.getD (db.fresh + 1) = f := Option.some.inj hf
    show f < db.fresh + 2
    cases familyId with
    | none =>
      rw [Option.getD_none] at hf
      omega
    | some own =>
      rw [Option.getD_some] at hf
      have := hFamily own rfl
      omega

theorem write_create_only {familyId : Option Nat} (hFamily : ∀ f, familyId = some f → f < db.fresh) :
    Write db (createRefreshToken db db.rows familyId) := by
  have h : Write db (createRefreshToken db (db.rows.map fun row => row) familyId) :=
    write_create Revokes.refl hFamily
  rwa [map_id'] at h

theorem Placed.write (h : Placed db row) (hWrite : Write db db') : Placed db' row where
  id := Nat.lt_of_lt_of_le h.id hWrite.fresh
  user := h.user.trans hWrite.user.symm
  family := fun f hf => Nat.lt_of_lt_of_le (h.family f hf) hWrite.fresh

theorem Placed.revokes {row' : RefreshToken} (h : Placed db row) (hRow : Revokes row row') :
    Placed db row' where
  id := hRow.id ▸ h.id
  user := hRow.user.trans h.user
  family := fun f hf => h.family f (hRow.family ▸ hf)

theorem DbOk.write (h : DbOk db) (hWrite : Write db db') : DbOk db' where
  ids := by
    obtain ⟨new, hIds, hNodup, hFresh⟩ := hWrite.ids
    rw [hIds, nodup_append]
    refine ⟨h.ids, hNodup, ?_⟩
    intro a ha b hb hEq
    obtain ⟨row, hRow, rfl⟩ := mem_map.1 ha
    have hOld := (h.placed row hRow).id
    have hNew := hFresh b hb
    omega
  placed := by
    intro row' hMem
    rcases hWrite.mem row' hMem with ⟨row, hRow, hRevokes⟩ | ⟨-, hPlaced⟩
    · exact ((h.placed row hRow).revokes hRevokes).write hWrite
    · exact hPlaced

/-- A step of a refresh is a write. -/
theorem refreshStep_write {phase next : RefreshPhase} (hPlaced : ∀ row ∈ phase.row?, Placed db row)
    (h : RefreshStep db phase db' next) : Write db db' := by
  cases h with
  | reuse row => exact write_map (revokes_revokeWhere _ _ _)
  | supersede row now hLive =>
    exact write_create (revokes_revokeWhere _ _ _) (hPlaced row rfl).family
  | claim row now => exact write_create (revokes_revokeWhere _ _ _) (hPlaced row rfl).family
  | _ => exact Write.refl db

end

end AdminPanel.Auth
