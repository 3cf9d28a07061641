import AdminPanel.Unlock.Effect

/-!
# Extensions of a user's subscription

`set_user_access_until` with its cascade, and a redemption in the user portal, each
up to its commit.

* `setUserAccessUntil_deadline` — the cascade gives every owned client the new
  deadline;
* `redeemCommitted_user` — a redemption only raises deadlines, to the new subscription
  date where that moves, and leaves a client without a deadline without one.
-/

namespace AdminPanel.Expiry

open Lib (Table Session)
open Access Panel Unlock

/-- The policy rows of a user's clients. -/
def ownedKeys (db : Db) (userId : Nat) : List PolicyKey :=
  (ownedConfigs db userId).filterMap fun c => c.vpnType.protocol?.map (configKey c)

/-- The session after `set_access_until(..., commit=False)` of each key. -/
def setAll (policies : Table PolicyKey PolicyRow) (accessUntil : Option Time) (actor : String)
    (keys : List PolicyKey) (s : PolicySession) : PolicySession :=
  keys.foldl (fun s key => setAccessUntil s policies key accessUntil actor) s

/-- `set_user_access_until` with `sync_clients`. -/
def setUserAccessUntil (db : Db) (userId : Nat) (accessUntil : Option Time) (actor : String) : Db :=
  { db with
    users := db.users.set userId { accessUntil := accessUntil }
    policies := (setAll db.policies accessUntil actor (ownedKeys db userId) .empty).commitInto
      changedColumns db.policies }

/-! ## The cascade -/

theorem view_setAccessUntil (s : PolicySession) (policies : Table PolicyKey PolicyRow)
    (key k : PolicyKey) (t : Option Time) (actor : String) :
    accessUntilOf ((setAccessUntil s policies key t actor).view policies k) =
      if k = key then t else accessUntilOf (s.view policies k) := by
  unfold setAccessUntil
  rw [Session.view_write]
  split <;> rfl

variable {s : PolicySession} {k : PolicyKey}

theorem fresh_setAccessUntil {policies : Table PolicyKey PolicyRow}
    (key : PolicyKey) (t : Option Time) (actor : String)
    (h : s.Fresh policies k) : (setAccessUntil s policies key t actor).Fresh policies k :=
  Session.fresh_write _ _ h

theorem fresh_setAll {policies : Table PolicyKey PolicyRow} (t : Option Time)
    (actor : String) (keys : List PolicyKey) (h : s.Fresh policies k) :
    (setAll policies t actor keys s).Fresh policies k := by
  induction keys generalizing s with
  | nil => exact h
  | cons key keys ih => exact ih (fresh_setAccessUntil key t actor h)

theorem view_setAll (policies : Table PolicyKey PolicyRow) (t : Option Time) (actor : String)
    (keys : List PolicyKey) (s : PolicySession) (k : PolicyKey) :
    accessUntilOf ((setAll policies t actor keys s).view policies k) =
      if k ∈ keys then t else accessUntilOf (s.view policies k) := by
  induction keys generalizing s with
  | nil => rfl
  | cons key keys ih =>
    have hStep := ih (setAccessUntil s policies key t actor)
    rw [view_setAccessUntil] at hStep
    refine hStep.trans ?_
    by_cases hk : k = key
    · simp [hk]
    · simp [hk]

/-- A commit of `setAll` gives its rows the deadline and leaves that of the others. -/
theorem accessUntilOf_setAll (policies : Table PolicyKey PolicyRow) (t : Option Time)
    (actor : String) (keys : List PolicyKey) (k : PolicyKey) :
    accessUntilOf (((setAll policies t actor keys .empty).commitInto changedColumns policies).row?
      k) = if k ∈ keys then t else accessUntilOf (policies.row? k) := by
  rw [Session.row?_commitInto_of_fresh changedColumns_fresh
    (fresh_setAll t actor keys (Session.fresh_empty policies k)), view_setAll]
  rfl

/-- Every owned client gets the new deadline, no other row changes its own. -/
theorem setUserAccessUntil_deadline (db : Db) (userId : Nat) (t : Option Time) (actor : String)
    (k : PolicyKey) :
    deadlineAt (setUserAccessUntil db userId t actor) k =
      if k ∈ ownedKeys db userId then t else deadlineAt db k :=
  accessUntilOf_setAll db.policies t actor (ownedKeys db userId) k

/-! ## A redemption in the user portal -/

/-- Deadlines only grow: none where there was none, none earlier elsewhere. -/
def Grows (before after : Option Time) : Prop :=
  match before, after with
  | none, none => True
  | some t, some t' => t ≤ t'
  | _, _ => False

theorem Grows.refl (d : Option Time) : Grows d d := by
  cases d with
  | none => trivial
  | some t => exact Int.le_refl t

theorem Grows.trans {a b c : Option Time} (hab : Grows a b) (hbc : Grows b c) : Grows a c := by
  cases a <;> cases b <;> cases c <;> first | trivial | contradiction | exact Int.le_trans hab hbc

/-- No deadline, or one not before `t`. -/
def NotBefore (t : Time) (deadline : Option Time) : Prop := ∀ d, deadline = some d → t ≤ d

variable {t : Time}

theorem NotBefore.grows {before after : Option Time} (h : NotBefore t before)
    (hGrows : Grows before after) : NotBefore t after := by
  rintro d rfl
  cases before with
  | none => cases hGrows
  | some b => exact Int.le_trans (h b rfl) hGrows

variable {policies : Table PolicyKey PolicyRow} {now : Time} {days : Int}
  {protocols : List Protocol} {clientNames : Option (List String)} {userUntil : Option Time}

/-- The loop body leaves the session, or moves one deadline that is there. -/
theorem extendConfig_cases (hDays : 0 ≤ timedeltaDays days)
    (acc : PolicySession × List PolicyKey) (config : VpnConfig) :
    (extendConfig policies now days protocols clientNames userUntil acc config).1 = acc.1 ∨
      ∃ key deadline newUntil, accessUntilOf (acc.1.view policies key) = some deadline ∧
        deadline ≤ newUntil ∧
        (extendConfig policies now days protocols clientNames userUntil acc config).1 =
          setAccessUntil acc.1 policies key (some newUntil) "unlock_codes" := by
  unfold extendConfig
  cases config.vpnType.protocol? with
  | none => exact .inl rfl
  | some p =>
    simp only
    split
    · exact .inl rfl
    split
    · exact .inl rfl
    · cases hDeadline : accessUntilOf (acc.1.view policies (configKey config p)) with
      | none => exact .inl rfl
      | some deadline =>
        cases userUntil with
        | some t =>
          simp only
          split
          · exact .inl rfl
          · exact .inr ⟨configKey config p, deadline, max deadline t, hDeadline,
              le_max_left deadline t, rfl⟩
        | none =>
          have hGe : deadline ≤ max now deadline + timedeltaDays days :=
            Int.le_trans (le_max_right now deadline) (Int.le_add_of_nonneg_right hDays)
          simp only
          split
          · exact .inl rfl
          · exact .inr ⟨configKey config p, deadline, _, hDeadline, hGe, rfl⟩

theorem extendConfig_fresh (hDays : 0 ≤ timedeltaDays days)
    (acc : PolicySession × List PolicyKey) (config : VpnConfig) (h : acc.1.Fresh policies k) :
    (extendConfig policies now days protocols clientNames userUntil acc config).1.Fresh
      policies k := by
  obtain hSame | ⟨key, _, newUntil, -, -, hSet⟩ := extendConfig_cases hDays acc config
  · rwa [hSame]
  · rw [hSet]
    exact fresh_setAccessUntil key (some newUntil) _ h

theorem extendConfig_grows (hDays : 0 ≤ timedeltaDays days)
    (acc : PolicySession × List PolicyKey) (config : VpnConfig) (k : PolicyKey) :
    Grows (accessUntilOf (acc.1.view policies k))
      (accessUntilOf ((extendConfig policies now days protocols clientNames userUntil acc
        config).1.view policies k)) := by
  obtain hSame | ⟨key, deadline, newUntil, hDeadline, hGe, hSet⟩ :=
    extendConfig_cases hDays acc config
  · rw [hSame]
    exact Grows.refl _
  · rw [hSet, view_setAccessUntil]
    split
    · next hk =>
      rw [hk, hDeadline]
      exact hGe
    · exact Grows.refl _

/-- A subscription that moves takes every limited client along. -/
theorem extendConfig_reaches (acc : PolicySession × List PolicyKey)
    {config : VpnConfig} {p : Protocol} (hProtocol : config.vpnType.protocol? = some p) :
    NotBefore t (accessUntilOf ((extendConfig policies now days protocols none (some t) acc
      config).1.view policies (configKey config p))) := by
  unfold extendConfig
  rw [hProtocol]
  simp only [Option.isNone_some, Bool.false_and, Bool.false_eq_true, if_false, Option.any_none]
  split
  · next hNone =>
    intro d hd
    rw [hNone] at hd
    simp at hd
  · next deadline hDeadline =>
    split
    · next hSame =>
      intro d hd
      rw [hDeadline] at hd
      rw [← Option.some.inj hd]
      exact hSame ▸ le_max_right deadline t
    · intro d hd
      rw [view_setAccessUntil, if_pos rfl] at hd
      rw [← Option.some.inj hd]
      exact le_max_right deadline t

theorem foldl_extendConfig (hDays : 0 ≤ timedeltaDays days) (configs : List VpnConfig)
    (acc : PolicySession × List PolicyKey) (k : PolicyKey) :
    let result := configs.foldl
      (extendConfig policies now days protocols clientNames userUntil) acc
    (acc.1.Fresh policies k → result.1.Fresh policies k) ∧
      Grows (accessUntilOf (acc.1.view policies k)) (accessUntilOf (result.1.view policies k)) := by
  induction configs generalizing acc with
  | nil => exact ⟨id, Grows.refl _⟩
  | cons config configs ih =>
    obtain ⟨hFresh, hGrows⟩ := ih (extendConfig policies now days protocols clientNames userUntil
      acc config)
    exact ⟨fun h => hFresh (extendConfig_fresh hDays acc config h),
      (extendConfig_grows hDays acc config k).trans hGrows⟩

theorem foldl_extendConfig_reaches (hDays : 0 ≤ timedeltaDays days)
    {configs : List VpnConfig} (acc : PolicySession × List PolicyKey) {config : VpnConfig}
    (hMem : config ∈ configs) {p : Protocol} (hProtocol : config.vpnType.protocol? = some p) :
    NotBefore t (accessUntilOf ((configs.foldl
      (extendConfig policies now days protocols none (some t)) acc).1.view policies
        (configKey config p))) := by
  induction configs generalizing acc with
  | nil => simp at hMem
  | cons c configs ih =>
    rcases List.mem_cons.mp hMem with rfl | hMem
    · exact (extendConfig_reaches acc hProtocol).grows
        (foldl_extendConfig hDays configs _ _).2
    · exact ih _ hMem

/-- What a redemption in the user portal commits of deadlines: they grow, and a
subscription that moves takes the clients along. -/
structure UserRedeemed (db db' : Db) (userId : Nat) (now : Time) : Prop where
  configs : db'.configs = db.configs
  grows : ∀ k, Grows (deadlineAt db k) (deadlineAt db' k)
  others : ∀ v, v ≠ userId → db'.users.row? v = db.users.row? v
  user : db'.users.row? userId = db.users.row? userId ∨
    ∃ current t, db.users.row? userId = some ⟨some current⟩ ∧
      db'.users.row? userId = some ⟨some t⟩ ∧ now < t ∧ current < t ∧
      ∀ k ∈ ownedKeys db userId, NotBefore t (deadlineAt db' k)

variable {db : Db} {req : RedeemRequest} {userId : Nat}

theorem checkUser_some {found : Option User}
    (hUser : req.userId = some userId) (h : checkUser db req = .ok found) :
    ∃ user, found = some user ∧ db.users.row? userId = some user := by
  unfold checkUser at h
  rw [hUser] at h
  simp only at h
  cases hRow : db.users.row? userId with
  | none =>
    rw [hRow] at h
    simp at h
  | some user =>
    rw [hRow] at h
    exact ⟨user, (Except.ok.inj h).symm, rfl⟩

variable {db' : Db} {user : User}

/-- The session and the subscription deadline that a redemption in the user portal
commits. -/
theorem grantAndCommit_user {claim : Claim}
    (hUser : req.userId = some userId) (hClaim : claim.user = some user)
    (h : grantAndCommit db req claim = .ok db') :
    ∃ protocols clientNames,
      let extended := extendOwnedClients db userId user req.now claim.code.grantDays protocols
        clientNames claim.session
      commitRedemption db req extended.1 extended.2.1 = .ok db' := by
  unfold grantAndCommit at h
  rw [hUser, hClaim] at h
  exact ⟨_, _, unless_ok h⟩

/-- The subscription moves for a user who has one, with a code for all clients. -/
theorem extendOwnedClients_moves {now : Time} {days : Int}
    {protocols : List Protocol} {clientNames : Option (List String)}
    (h : (extendOwnedClients db userId user now days protocols clientNames s).1 = some t) :
    clientNames = none ∧ ∃ current, user = ⟨some current⟩ ∧
      max now current + timedeltaDays days = t := by
  obtain ⟨accessUntil⟩ := user
  unfold extendOwnedClients at h
  cases accessUntil with
  | none => simp at h
  | some current =>
    cases clientNames with
    | some names => simp at h
    | none => exact ⟨rfl, current, rfl, Option.some.inj h⟩

theorem commitRedemption_users {userUntil : Option Time} (hUser : req.userId = some userId)
    (h : commitRedemption db req userUntil s = .ok db') :
    db'.users = userUntil.elim db.users fun t => db.users.set userId ⟨some t⟩ := by
  unfold commitRedemption at h
  obtain rfl := Except.ok.inj (unless_ok h)
  rw [hUser]
  cases userUntil <;> rfl

/-- A subscription that moves takes every limited client of the user along. -/
theorem extendOwnedClients_reaches {now : Time}
    {days : Int} (hDays : 0 < timedeltaDays days) {protocols : List Protocol}
    (hUntil : (extendOwnedClients db userId user now days protocols none s).1 = some t)
    (hKey : k ∈ ownedKeys db userId) :
    NotBefore t (accessUntilOf ((extendOwnedClients db userId user now days protocols none
      s).2.1.view db.policies k)) := by
  obtain ⟨config, hMem, hConfig⟩ := List.mem_filterMap.mp hKey
  obtain ⟨p, hProtocol, rfl⟩ := Option.map_eq_some_iff.mp hConfig
  unfold extendOwnedClients at hUntil ⊢
  simp only at hUntil ⊢
  rw [hUntil]
  exact foldl_extendConfig_reaches (Int.le_of_lt hDays) _ hMem hProtocol

/-- What a redemption of a user does to the user's rows. -/
theorem redeemCommitted_user {claim : Claim}
    (hUser : req.userId = some userId) (h : redeemCommitted db req = .ok (db', claim)) :
    UserRedeemed db db' userId req.now := by
  obtain ⟨hChecked, hGrant⟩ := redeemCommitted_ok h
  obtain ⟨user, hClaim, hRow⟩ := checkUser_some hUser hChecked.user
  obtain ⟨protocols, clientNames, hCommit⟩ := grantAndCommit_user hUser hClaim hGrant
  simp only at hCommit
  obtain ⟨-, -, hConfigs, hPolicies, -, -⟩ := commitRedemption_ok hCommit
  have hUsers := commitRedemption_users hUser hCommit
  have hDays := timedeltaDays_pos claim.code.grantDays_pos
  have hAfter : ∀ k, deadlineAt db' k = accessUntilOf ((extendOwnedClients db userId user req.now
      claim.code.grantDays protocols clientNames claim.session).2.1.view db.policies k) := by
    intro k
    unfold deadlineAt
    rw [hPolicies, Session.row?_commitInto_of_fresh changedColumns_fresh]
    exact (foldl_extendConfig (Int.le_of_lt hDays) _ (claim.session, []) k).1 (hChecked.fresh k)
  have hGrows : ∀ k, Grows (deadlineAt db k) (deadlineAt db' k) := by
    intro k
    rw [hAfter, deadlineAt, ← hChecked.view k]
    exact (foldl_extendConfig (Int.le_of_lt hDays) _ (claim.session, []) k).2
  cases hUntil : (extendOwnedClients db userId user req.now claim.code.grantDays protocols
      clientNames claim.session).1 with
  | none =>
    rw [hUntil, Option.elim_none] at hUsers
    exact ⟨hConfigs, hGrows, fun v _ => by rw [hUsers], .inl (by rw [hUsers])⟩
  | some t =>
    rw [hUntil, Option.elim_some] at hUsers
    obtain ⟨rfl, current, hCurrent, hMoved⟩ := extendOwnedClients_moves hUntil
    refine ⟨hConfigs, hGrows, fun v hv => ?_, .inr ⟨current, t, ?_, ?_, ?_, ?_, ?_⟩⟩
    · rw [hUsers]
      exact Table.row?_set_of_ne _ _ hv
    · rw [hRow, hCurrent]
    · rw [hUsers]
      exact Table.row?_set_self _ _ _
    · exact hMoved ▸ Int.lt_add_of_le_of_pos (le_max_left _ _) hDays
    · exact hMoved ▸ Int.lt_add_of_le_of_pos (le_max_right _ _) hDays
    · intro k hKey
      rw [hAfter]
      exact extendOwnedClients_reaches hDays hUntil hKey

end AdminPanel.Expiry
