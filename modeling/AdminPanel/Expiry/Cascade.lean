import AdminPanel.Expiry.UserExtension
import AdminPanel.Expiry.Worker
import AdminPanel.Unlock.ManualBan

/-!
# The subscription cascade and concurrent extensions

`apply_due_user_subscription_blocks`, interleaved with whatever extends a user's
subscription. The worker refreshes the user, looks at the policy rows of its clients
one by one, writes the missing deadlines and commits, then claims row after row; the
others commit at any moment in between.

* `Stage` — where the worker is, with what it has read;
* `cascadeStep` — one step of the worker, or one commit of another;
* `seedsWhileOver` — missing deadlines are committed while the user's subscription is
  still over;
* `cascade_spares_active` — under it no claim meets a client of a user whose
  subscription is active;
* `stale_seed_blocks_active` — without it a client is blocked whose subscription has
  been extended before.

The flush of the first missing deadline takes the write lock that the commit gives
back, so the deadlines and their commit are one step. Every other query sees what is
committed: reads open no transaction here.
-/

namespace AdminPanel.Expiry

open Lib (Table Session exec Along)
open Access Panel Unlock

def userSubscriptionExpired (user : User) (now : Time) : Bool :=
  match user.accessUntil with
  | some t => decide (t ≤ now)
  | none => false

/-- The worker inside a user's cascade, with the old subscription date it read. -/
inductive Stage where
  | idle
  | userRead (userId : Nat) (old : Time)
  | scanning (userId : Nat) (old : Time) (configs : List VpnConfig)
      (queued : List (PolicyKey × Bool))
  | claiming (userId : Nat) (old : Time) (keys : List PolicyKey)
  | claimed (userId : Nat) (old : Time) (key : PolicyKey) (keys : List PolicyKey)
  | reconciled (userId : Nat) (old : Time) (key : PolicyKey) (loaded current : PolicyRow)
      (keys : List PolicyKey)
  deriving DecidableEq

/-- `due` are the users left of the pass that began at `startedAt`. -/
structure CascadeState where
  db : Db
  clock : Time
  startedAt : Time
  due : List Nat
  stage : Stage

def CascadeState.start (db : Db) (clock : Time) : CascadeState := ⟨db, clock, clock, [], .idle⟩

/-- `work` is the worker's next step. `fail` is an exception in it: the session is
rolled back and the user given up. -/
inductive CascadeEvent where
  | startPass
  | work (consumed : Option Int → Int)
  | fail
  | setUserAccessUntil (userId : Nat) (accessUntil : Option Time) (actor : String)
  | redeem (req : RedeemRequest)
  | reconcile (key : PolicyKey) (consumed : Option Int → Int)

structure CascadeAct where
  now : Time
  event : CascadeEvent

/-! ## The worker -/

def missingKeys (queued : List (PolicyKey × Bool)) : List PolicyKey :=
  (queued.filter (·.2)).map (·.1)

/-- The missing deadlines, written and committed. -/
def seedDeadlines (policies : Table PolicyKey PolicyRow) (old : Time)
    (queued : List (PolicyKey × Bool)) : Table PolicyKey PolicyRow :=
  (setAll policies (some old) workerActor (missingKeys queued) .empty).commitInto changedColumns
    policies

/-- The users whose subscription is over. -/
def dueUserIds (db : Db) (now : Time) : List Nat :=
  db.users.keys.filter fun id => (db.users.row? id).any fun user => userSubscriptionExpired user now

namespace CascadeState

/-- Refresh the user; a subscription that has been extended is skipped. -/
def refreshUser (s : CascadeState) (userId : Nat) : Stage :=
  match s.db.users.row? userId with
  | none => .idle
  | some user =>
    if userSubscriptionExpired user s.startedAt then
      match user.accessUntil with
      | some old => .userRead userId old
      | none => .idle
    else .idle

/-- The conditional `UPDATE` and its commit. -/
def claimKey (s : CascadeState) (userId : Nat) (old : Time) (key : PolicyKey)
    (keys : List PolicyKey) : CascadeState :=
  match s.db.policies.row? key with
  | none => { s with stage := .claiming userId old keys }
  | some row =>
    if dueBy row old then
      { s with
        db := { s.db with policies := s.db.policies.set key (claimedRow row) }
        stage := .claimed userId old key keys }
    else { s with stage := .claiming userId old keys }

/-- The reconcile of a claimed row, up to its commit. -/
def loadClaimed (s : CascadeState) (r : Reading) (userId : Nat) (old : Time) (key : PolicyKey)
    (keys : List PolicyKey) : Stage :=
  match s.db.policies.row? key, (reconcileKey s.db.policies key r).row? key with
  | some loaded, some current => .reconciled userId old key loaded current keys
  | _, _ => .claiming userId old keys

/-- The worker's next step. A node that is gone raises, so there is none but `fail`. -/
def work (s : CascadeState) (r : Reading) : Option CascadeState :=
  match s.stage with
  | .idle =>
    match s.due with
    | [] => none
    | userId :: due => some { s with due := due, stage := s.refreshUser userId }
  | .userRead userId old =>
    some { s with stage := .scanning userId old (ownedConfigs s.db userId) [] }
  | .scanning userId old (config :: configs) queued =>
    let target := cascadeTarget s.db.policies.row? config
    some { s with stage := .scanning userId old configs (queued ++ target.toList) }
  | .scanning userId old [] queued =>
    if (missingKeys queued).all (·.nodeId ∈ s.db.nodes) then
      let policies := seedDeadlines s.db.policies old queued
      some { s with
        db := { s.db with policies := policies }
        stage := .claiming userId old (queued.map (·.1)) }
    else none
  | .claiming _ _ [] => some { s with stage := .idle }
  | .claiming userId old (key :: keys) =>
    if key.nodeId ∈ s.db.nodes then some (s.claimKey userId old key keys) else none
  | .claimed userId old key keys => some { s with stage := s.loadClaimed r userId old key keys }
  | .reconciled userId old key loaded current keys =>
    match s.db.policies.row? key with
    | none => none
    | some stored =>
      let policies := s.db.policies.set key (changedColumns loaded current stored)
      some { s with db := { s.db with policies := policies }, stage := .claiming userId old keys }

end CascadeState

/-! ## The others -/

/-- What an event of another call commits at `now`. -/
def commitOther (db : Db) (now : Time) : CascadeEvent → Option Db
  | .setUserAccessUntil userId accessUntil actor =>
    if (db.users.row? userId).isSome && accessUntil.all (now < ·) then
      some (setUserAccessUntil db userId accessUntil actor)
    else none
  | .redeem req =>
    if req.userId.isSome && req.now ≤ now then
      match redeemCommitted db req with
      | .ok (db', _) => some db'
      | .error _ => none
    else none
  | .reconcile key consumed =>
    some { db with policies := reconcileKey db.policies key ⟨now, consumed⟩ }
  | _ => none

def CascadeState.event (s : CascadeState) (now : Time) : CascadeEvent → Option CascadeState
  | .startPass =>
    match s.stage, s.due with
    | .idle, [] => some { s with startedAt := now, due := dueUserIds s.db now }
    | _, _ => none
  | .work consumed => s.work ⟨now, consumed⟩
  | .fail =>
    match s.stage, s.due with
    | .idle, [] => none
    | .idle, _ :: due => some { s with due := due }
    | _, _ => some { s with stage := .idle }
  | e => (commitOther s.db now e).map fun db => { s with db := db }

/-- One step, at a time that is not before the last one. -/
def cascadeStep (s : CascadeState) (a : CascadeAct) : Option CascadeState :=
  if s.clock ≤ a.now then ({ s with clock := a.now } : CascadeState).event a.now a.event else none

/-! ## What the cascade is for, and its condition -/

/-- The subscription date that is committed. -/
def subscriptionOf (db : Db) (userId : Nat) : Option Time :=
  (db.users.row? userId).bind (·.accessUntil)

/-- The user is there, and its committed subscription is not over. -/
def SubscriptionActive (db : Db) (userId : Nat) (now : Time) : Prop :=
  ∃ user, db.users.row? userId = some user ∧ userSubscriptionExpired user now = false

/-- No deadline, or one past `t`. -/
def Later (t : Time) (deadline : Option Time) : Prop := ∀ d, deadline = some d → t < d

/-- A claim that commits while the subscription is active finds the client with no
deadline or one past the old date, and leaves the client as it is. -/
def SparesActive (s : CascadeState) (a : CascadeAct) : Prop :=
  ∀ userId old key keys consumed s', s.stage = .claiming userId old (key :: keys) →
    a.event = .work consumed → cascadeStep s a = some s' →
    SubscriptionActive s'.db userId a.now →
    Later old (deadlineAt s'.db key) ∧ s'.db = s.db ∧ s'.stage = .claiming userId old keys

/-- The user's committed subscription is over. -/
def subscriptionOver (db : Db) (userId : Nat) (now : Time) : Bool :=
  (db.users.row? userId).any (userSubscriptionExpired · now)

/-- Missing deadlines are committed only while the subscription is over. -/
def seedsWhileOver (s : CascadeState) (a : CascadeAct) : Bool :=
  match s.stage, a.event with
  | .scanning userId _ [] queued, .work _ =>
    (missingKeys queued).isEmpty || subscriptionOver s.db userId a.now
  | _, _ => true

/-! ## Deadlines -/

theorem Later.grows {t : Time} {before after : Option Time} (h : Later t before)
    (hGrows : Grows before after) : Later t after := by
  rintro d rfl
  cases before with
  | none => cases hGrows
  | some b => exact Int.lt_of_lt_of_le (h b rfl) hGrows

variable {old : Time}

theorem NotBefore.later {t : Time} {deadline : Option Time} (h : NotBefore t deadline)
    (hOld : old < t) : Later old deadline :=
  fun d hd => Int.lt_of_lt_of_le hOld (h d hd)

variable {row : PolicyRow}

/-- A claim misses a row whose deadline is not due. -/
theorem Later.not_dueBy (h : Later old row.accessUntil) : dueBy row old = false := by
  unfold dueBy policyAccessExpired
  cases hUntil : row.accessUntil with
  | none => rfl
  | some d =>
    have hNot : ¬ d ≤ old := Int.not_le.mpr (h d hUntil)
    simp [hNot]

variable {db : Db} {key : PolicyKey}

theorem deadlineAt_of_row
    (h : db.policies.row? key = some row) : deadlineAt db key = row.accessUntil := by
  rw [deadlineAt, h]
  rfl

variable {db' : Db}

theorem ownedKeys_congr (h : db'.configs = db.configs) (userId : Nat) :
    ownedKeys db' userId = ownedKeys db userId := by
  unfold ownedKeys ownedConfigs
  rw [h]

variable {userId : Nat} {now : Time}

theorem SubscriptionActive.later
    (h : SubscriptionActive db userId now) : Later now (subscriptionOf db userId) := by
  obtain ⟨user, hUser, hNot⟩ := h
  intro d hd
  rw [subscriptionOf, hUser] at hd
  have hUntil : user.accessUntil = some d := hd
  rw [userSubscriptionExpired, hUntil, decide_eq_false_iff_not] at hNot
  exact Int.not_le.mp hNot

theorem subscriptionOver_some (h : subscriptionOver db userId now = true) :
    ∃ t, subscriptionOf db userId = some t ∧ t ≤ now := by
  obtain ⟨user, hUser, hExpired⟩ := (Option.any_eq_true _ _).mp h
  unfold userSubscriptionExpired at hExpired
  cases hUntil : user.accessUntil with
  | none =>
    rw [hUntil] at hExpired
    simp at hExpired
  | some t =>
    rw [hUntil] at hExpired
    refine ⟨t, ?_, of_decide_eq_true hExpired⟩
    rw [subscriptionOf, hUser]
    exact hUntil

/-- The stored subscription is over, at the old date or later, or it and the deadlines
of all clients of the user are past the old date. -/
def Spared (db : Db) (userId : Nat) (old now : Time) : Prop :=
  (∃ t, subscriptionOf db userId = some t ∧ old ≤ t ∧ t ≤ now) ∨
    (Later old (subscriptionOf db userId) ∧
      ∀ key ∈ ownedKeys db userId, Later old (deadlineAt db key))

theorem Spared.mono {clock : Time}
    (h : Spared db userId old clock) (hClock : clock ≤ now) : Spared db userId old now := by
  rcases h with ⟨t, hUntil, hOld, hOver⟩ | hLater
  · exact .inl ⟨t, hUntil, hOld, Int.le_trans hOver hClock⟩
  · exact .inr hLater

/-- What does not touch the subscription and only moves deadlines on keeps clients
spared. -/
theorem Spared.of_policies (h : Spared db userId old now) (hConfigs : db'.configs = db.configs)
    (hUser : db'.users.row? userId = db.users.row? userId)
    (hDeadlines : ∀ key, Later old (deadlineAt db key) → Later old (deadlineAt db' key)) :
    Spared db' userId old now := by
  unfold Spared at h ⊢
  rw [ownedKeys_congr hConfigs, subscriptionOf, hUser]
  rcases h with hOver | ⟨hUntil, hKeys⟩
  · exact .inl hOver
  · exact .inr ⟨hUntil, fun key hKey => hDeadlines key (hKeys key hKey)⟩

/-! ## What the others commit -/

theorem spared_setUserAccessUntil {v : Nat} {t : Option Time}
    (actor : String) (hLater : Later old t) (h : Spared db userId old now) :
    Spared (setUserAccessUntil db v t actor) userId old now := by
  by_cases hUser : userId = v
  · subst hUser
    refine .inr ⟨?_, fun key hKey => ?_⟩
    · unfold subscriptionOf setUserAccessUntil
      simp only
      rw [Table.row?_set_self]
      exact hLater
    · have hOwned : key ∈ ownedKeys db userId := by rwa [ownedKeys_congr rfl] at hKey
      rw [setUserAccessUntil_deadline, if_pos hOwned]
      exact hLater
  · refine h.of_policies rfl (Table.row?_set_of_ne _ _ hUser) fun key hKey => ?_
    rw [setUserAccessUntil_deadline]
    split
    · exact hLater
    · exact hKey

/-- A redemption only moves deadlines on. -/
theorem spared_redeem {v : Nat} {redeemedAt : Time}
    (hRedeem : UserRedeemed db db' v redeemedAt) (h : Spared db userId old now) :
    Spared db' userId old now := by
  have hGrows : ∀ key, Later old (deadlineAt db key) → Later old (deadlineAt db' key) :=
    fun key hKey => hKey.grows (hRedeem.grows key)
  by_cases hUser : userId = v
  · subst hUser
    obtain hSame | ⟨current, t, hCurrent, hMoved, -, hGreater, hReached⟩ := hRedeem.user
    · exact h.of_policies hRedeem.configs hSame hGrows
    -- the subscription moves on from a date that is not before the old one
    have hOld : old < t := by
      rw [Spared, subscriptionOf, hCurrent] at h
      rcases h with ⟨s, hSame, hOld, -⟩ | ⟨hUntil, -⟩
      · obtain rfl : current = s := Option.some.inj hSame
        exact Int.lt_of_le_of_lt hOld hGreater
      · exact Int.lt_trans (hUntil current rfl) hGreater
    refine .inr ⟨?_, fun key hKey => ?_⟩
    · rw [subscriptionOf, hMoved]
      intro d hd
      exact Option.some.inj hd ▸ hOld
    · rw [ownedKeys_congr hRedeem.configs] at hKey
      exact (hReached key hKey).later hOld
  · exact h.of_policies hRedeem.configs (hRedeem.others userId hUser) hGrows

variable {e : CascadeEvent}

/-- What another call commits: a date for the subscription and its clients, a
redemption, or a reconciled row. -/
theorem commitOther_cases (h : commitOther db now e = some db') :
    (∃ userId t actor, Later now t ∧ db' = setUserAccessUntil db userId t actor) ∨
      (∃ userId redeemedAt, UserRedeemed db db' userId redeemedAt) ∨
      (∃ key r, db' = { db with policies := reconcileKey db.policies key r }) := by
  cases e with
  | setUserAccessUntil userId t actor =>
    simp only [commitOther] at h
    split at h
    · next hGuard =>
      rw [Bool.and_eq_true, Option.all_eq_true] at hGuard
      refine .inl ⟨userId, t, actor, ?_, (Option.some.inj h).symm⟩
      exact fun d hd => of_decide_eq_true (hGuard.2 d hd)
    · simp at h
  | redeem req =>
    simp only [commitOther] at h
    split at h
    · next hGuard =>
      rw [Bool.and_eq_true] at hGuard
      obtain ⟨userId, hUser⟩ := Option.isSome_iff_exists.mp hGuard.1
      cases hRedeem : redeemCommitted db req with
      | error e =>
        rw [hRedeem] at h
        simp at h
      | ok result =>
        rw [hRedeem] at h
        cases h
        exact .inr (.inl ⟨userId, req.now, redeemCommitted_user hUser hRedeem⟩)
    · simp at h
  | reconcile key consumed =>
    exact .inr (.inr ⟨key, ⟨now, consumed⟩, (Option.some.inj h).symm⟩)
  | startPass | work consumed | fail => cases h

theorem commitOther_configs (h : commitOther db now e = some db') : db'.configs = db.configs := by
  obtain ⟨userId, t, actor, -, rfl⟩ | ⟨userId, redeemedAt, hRedeem⟩ | ⟨key, r, rfl⟩ :=
    commitOther_cases h
  · rfl
  · exact hRedeem.configs
  · rfl

/-- **No commit of another call spoils an extension.** -/
theorem spared_commitOther (hOld : old ≤ now) (hCommit : commitOther db now e = some db')
    (h : Spared db userId old now) : Spared db' userId old now := by
  obtain ⟨v, t, actor, hLater, rfl⟩ | ⟨v, redeemedAt, hRedeem⟩ | ⟨key, r, rfl⟩ :=
    commitOther_cases hCommit
  · have hLater : Later old t := fun d hd => Int.lt_of_le_of_lt hOld (hLater d hd)
    exact spared_setUserAccessUntil actor hLater h
  · exact spared_redeem hRedeem h
  · refine h.of_policies rfl rfl fun k hKey => ?_
    rwa [deadlineAt, accessUntilOf_reconcileKey]

/-! ## The invariant -/

/-- What the worker works through are clients of the user, who is spared. -/
def StageInv (db : Db) (clock : Time) : Stage → Prop
  | .idle => True
  | .userRead userId old => old ≤ clock ∧ Spared db userId old clock
  | .scanning userId old configs queued =>
    old ≤ clock ∧ Spared db userId old clock ∧ (∀ c ∈ configs, c ∈ ownedConfigs db userId) ∧
      ∀ target ∈ queued, target.1 ∈ ownedKeys db userId
  | .claiming userId old keys =>
    old ≤ clock ∧ Spared db userId old clock ∧ ∀ key ∈ keys, key ∈ ownedKeys db userId
  | .claimed userId old _ keys =>
    old ≤ clock ∧ Spared db userId old clock ∧ ∀ key ∈ keys, key ∈ ownedKeys db userId
  | .reconciled userId old _ loaded current keys =>
    old ≤ clock ∧ Spared db userId old clock ∧ (∀ key ∈ keys, key ∈ ownedKeys db userId) ∧
      current.accessUntil = loaded.accessUntil

structure CascadeInv (s : CascadeState) : Prop where
  pass : s.startedAt ≤ s.clock
  stage : StageInv s.db s.clock s.stage

/-- The worker's knowledge survives what keeps users spared. -/
theorem StageInv.mono {clock : Time} {stage : Stage}
    (h : StageInv db clock stage) (hClock : clock ≤ now) (hConfigs : db'.configs = db.configs)
    (hSpared : ∀ userId old, old ≤ now → Spared db userId old now → Spared db' userId old now) :
    StageInv db' now stage := by
  have hKeys := ownedKeys_congr hConfigs
  have hOwned : ∀ userId, ownedConfigs db' userId = ownedConfigs db userId := by
    intro userId
    unfold ownedConfigs
    rw [hConfigs]
  have hUser : ∀ {userId old}, old ≤ clock → Spared db userId old clock →
      old ≤ now ∧ Spared db' userId old now := by
    intro userId old hOld hUser
    have hOld := Int.le_trans hOld hClock
    exact ⟨hOld, hSpared userId old hOld (hUser.mono hClock)⟩
  cases stage with
  | idle => trivial
  | userRead userId old => exact hUser h.1 h.2
  | scanning userId old configs queued =>
    obtain ⟨hOld, hHere, hRest⟩ := h
    rw [← hOwned, ← hKeys] at hRest
    exact ⟨(hUser hOld hHere).1, (hUser hOld hHere).2, hRest⟩
  | claiming userId old keys | claimed userId old key keys
  | reconciled userId old key loaded current keys =>
    obtain ⟨hOld, hHere, hRest⟩ := h
    rw [← hKeys] at hRest
    exact ⟨(hUser hOld hHere).1, (hUser hOld hHere).2, hRest⟩

/-- A row written with its deadline unchanged spares whom it spared. -/
theorem Spared.set_policy
    {row' : PolicyRow} (h : Spared db userId old now) (hRow : db.policies.row? key = some row)
    (hUntil : row'.accessUntil = row.accessUntil) :
    Spared { db with policies := db.policies.set key row' } userId old now := by
  refine h.of_policies rfl rfl fun k hKey => ?_
  unfold deadlineAt at hKey ⊢
  simp only
  rw [Table.row?_set]
  split
  · next hk =>
    rw [hk, hRow] at hKey
    show Later old row'.accessUntil
    rw [hUntil]
    exact hKey
  · exact hKey

theorem cascadeTarget_owned {view : PolicyKey → Option PolicyRow}
    {config : VpnConfig} {target : PolicyKey × Bool} (hConfig : config ∈ ownedConfigs db userId)
    (h : cascadeTarget view config = some target) : target.1 ∈ ownedKeys db userId := by
  unfold cascadeTarget at h
  obtain ⟨protocol, hProtocol, hTarget⟩ := Option.bind_eq_some_iff.mp h
  simp only at hTarget
  split at hTarget
  · simp at hTarget
  · cases hTarget
    exact List.mem_filterMap.mpr ⟨config, hConfig, by rw [hProtocol]; rfl⟩

/-! ## The worker's steps -/

/-- The worker's next step keeps the invariant, and the clocks. -/
structure WorkKeeps (s s' : CascadeState) : Prop where
  startedAt : s'.startedAt = s.startedAt
  clock : s'.clock = s.clock
  stage : StageInv s'.db s'.clock s'.stage

variable {s : CascadeState}

theorem refreshUser_inv (hPass : s.startedAt ≤ s.clock) (userId : Nat) :
    StageInv s.db s.clock (s.refreshUser userId) := by
  unfold CascadeState.refreshUser
  split
  · trivial
  · next user hUser =>
    split
    · next hExpired =>
      split
      · next old hUntil =>
        have hOld : old ≤ s.startedAt := by
          rw [userSubscriptionExpired, hUntil] at hExpired
          exact of_decide_eq_true hExpired
        have hOver := Int.le_trans hOld hPass
        refine ⟨hOver, .inl ⟨old, ?_, Int.le_refl old, hOver⟩⟩
        rw [subscriptionOf, hUser]
        exact hUntil
      · trivial
    · trivial

theorem claimKey_inv
    {keys : List PolicyKey} (h : StageInv s.db s.clock (.claiming userId old (key :: keys))) :
    WorkKeeps s (s.claimKey userId old key keys) := by
  obtain ⟨hOld, hSpared, hKeys⟩ := h
  have hRest : ∀ k ∈ keys, k ∈ ownedKeys s.db userId := fun k hk =>
    hKeys k (List.mem_cons_of_mem key hk)
  unfold CascadeState.claimKey
  split
  · exact ⟨rfl, rfl, hOld, hSpared, hRest⟩
  · next row hRow =>
    split
    · exact ⟨rfl, rfl, hOld, hSpared.set_policy hRow rfl, hRest⟩
    · exact ⟨rfl, rfl, hOld, hSpared, hRest⟩

theorem loadClaimed_inv
    {keys : List PolicyKey} (h : StageInv s.db s.clock (.claimed userId old key keys))
    (r : Reading) : StageInv s.db s.clock (s.loadClaimed r userId old key keys) := by
  obtain ⟨hOld, hSpared, hKeys⟩ := h
  unfold CascadeState.loadClaimed
  split
  · next loaded current hLoaded hCurrent =>
    refine ⟨hOld, hSpared, hKeys, ?_⟩
    rw [row?_reconcileKey, if_pos rfl, hLoaded] at hCurrent
    rw [← Option.some.inj hCurrent]
    exact (Entered.settled_frame key.protocol ⟨loaded, true, false⟩ r).accessUntil
  · exact ⟨hOld, hSpared, hKeys⟩

/-- Only here can an extension be lost: the deadlines are written whatever the user's
subscription is by now. -/
theorem seed_inv
    {queued : List (PolicyKey × Bool)} (h : StageInv s.db s.clock (.scanning userId old [] queued))
    (hOver : missingKeys queued = [] ∨ subscriptionOver s.db userId s.clock = true) :
    StageInv { s.db with policies := seedDeadlines s.db.policies old queued } s.clock
      (.claiming userId old (queued.map (·.1))) := by
  obtain ⟨hOld, hSpared, -, hQueued⟩ := h
  refine ⟨hOld, ?_, ?_⟩
  · rcases hOver with hNone | hOver
    · refine hSpared.of_policies rfl rfl fun k hKey => ?_
      unfold deadlineAt seedDeadlines
      rw [hNone]
      exact hKey
    · obtain ⟨t, hUntil, hOver⟩ := subscriptionOver_some hOver
      refine .inl ⟨t, hUntil, ?_, hOver⟩
      rcases hSpared with ⟨u, hSame, hOldU, -⟩ | ⟨hLater, -⟩
      · rw [hUntil] at hSame
        exact Option.some.inj hSame ▸ hOldU
      · exact Int.le_of_lt (hLater t hUntil)
  · intro key hKey
    obtain ⟨target, hTarget, rfl⟩ := List.mem_map.mp hKey
    exact hQueued target hTarget

variable {s' : CascadeState}

/-- **One step of the worker.** -/
theorem work_inv (consumed : Option Int → Int) (hInv : CascadeInv s)
    (hSeeds : seedsWhileOver s ⟨s.clock, .work consumed⟩ = true) {r : Reading}
    (hWork : s.work r = some s') : WorkKeeps s s' := by
  have hStage := hInv.stage
  unfold CascadeState.work at hWork
  unfold seedsWhileOver at hSeeds
  cases hAt : s.stage with
  | idle =>
    rw [hAt] at hWork
    simp only at hWork
    split at hWork
    · simp at hWork
    · next userId due hDue =>
      cases hWork
      exact ⟨rfl, rfl, refreshUser_inv hInv.pass userId⟩
  -- the scan begins with the date that was read
  | userRead userId old =>
    rw [hAt] at hWork hStage
    cases hWork
    exact ⟨rfl, rfl, hStage.1, hStage.2, fun c hc => hc, nofun⟩
  | scanning userId old configs queued =>
    rw [hAt] at hWork hStage hSeeds
    cases configs with
    | nil =>
      simp only at hWork
      split at hWork
      · cases hWork
        -- nothing to seed, or the subscription is still over
        rw [Bool.or_eq_true, List.isEmpty_iff] at hSeeds
        exact ⟨rfl, rfl, seed_inv hStage hSeeds⟩
      · simp at hWork
    | cons config configs =>
      cases hWork
      obtain ⟨hOld, hSpared, hConfigs, hQueued⟩ := hStage
      refine ⟨rfl, rfl, hOld, hSpared, fun c hc => hConfigs c (List.mem_cons_of_mem config hc), ?_⟩
      intro target hTarget
      rcases List.mem_append.mp hTarget with hTarget | hTarget
      · exact hQueued target hTarget
      · exact cascadeTarget_owned (hConfigs config List.mem_cons_self)
          (Option.mem_toList.mp hTarget)
  | claiming userId old keys =>
    rw [hAt] at hWork hStage
    cases keys with
    | nil =>
      cases hWork
      exact ⟨rfl, rfl, trivial⟩
    | cons key keys =>
      simp only at hWork
      split at hWork
      · cases hWork
        exact claimKey_inv hStage
      · simp at hWork
  | claimed userId old key keys =>
    rw [hAt] at hWork hStage
    cases hWork
    exact ⟨rfl, rfl, loadClaimed_inv hStage r⟩
  | reconciled userId old key loaded current keys =>
    rw [hAt] at hWork hStage
    simp only at hWork
    split at hWork
    · simp at hWork
    · next stored hStored =>
      cases hWork
      obtain ⟨hOld, hSpared, hKeys, hUntil⟩ := hStage
      refine ⟨rfl, rfl, hOld, hSpared.set_policy hStored ?_, hKeys⟩
      exact if_pos hUntil

/-! ## Runs -/

/-- The event that happens when the step does. -/
theorem cascadeStep_some {a : CascadeAct} (h : cascadeStep s a = some s') :
    s.clock ≤ a.now ∧ ({ s with clock := a.now } : CascadeState).event a.now a.event = some s' := by
  unfold cascadeStep at h
  split at h
  · next hClock => exact ⟨hClock, h⟩
  · simp at h

theorem CascadeInv.other (hInv : CascadeInv s) (hClock : s.clock ≤ now)
    (h : (commitOther s.db now e).map (fun db => ({ s with db := db, clock := now } : CascadeState))
      = some s') : CascadeInv s' := by
  obtain ⟨db, hCommit, rfl⟩ := Option.map_eq_some_iff.mp h
  refine ⟨Int.le_trans hInv.pass hClock, ?_⟩
  exact hInv.stage.mono hClock (commitOther_configs hCommit) fun _ _ hOld h =>
    spared_commitOther hOld hCommit h

theorem CascadeInv.tick (hInv : CascadeInv s)
    (hClock : s.clock ≤ now) : CascadeInv { s with clock := now } :=
  ⟨Int.le_trans hInv.pass hClock, hInv.stage.mono hClock rfl fun _ _ _ h => h⟩

/-- **One step**, of the worker or of another. -/
theorem CascadeInv.step {a : CascadeAct} (hInv : CascadeInv s)
    (hSeeds : seedsWhileOver s a = true) (hStep : cascadeStep s a = some s') : CascadeInv s' := by
  obtain ⟨hClock, hEvent⟩ := cascadeStep_some hStep
  obtain ⟨now, e⟩ := a
  cases e with
  | startPass =>
    simp only [CascadeState.event] at hEvent
    split at hEvent
    · next hIdle _ =>
      cases hEvent
      exact ⟨Int.le_refl _, by rw [hIdle]; trivial⟩
    · simp at hEvent
  | work consumed =>
    have hKeeps := work_inv consumed (hInv.tick hClock) hSeeds hEvent
    refine ⟨?_, hKeeps.stage⟩
    rw [hKeeps.startedAt, hKeeps.clock]
    exact Int.le_trans hInv.pass hClock
  | fail =>
    simp only [CascadeState.event] at hEvent
    split at hEvent
    · simp at hEvent
    · next hIdle _ =>
      cases hEvent
      exact ⟨Int.le_trans hInv.pass hClock, by rw [hIdle]; trivial⟩
    · cases hEvent
      exact ⟨Int.le_trans hInv.pass hClock, trivial⟩
  | setUserAccessUntil userId t actor | redeem req => exact hInv.other hClock hEvent
  | reconcile key consumed =>
    have hOther : (commitOther s.db now (.reconcile key consumed)).map
        (fun db => ({ s with db := db, clock := now } : CascadeState)) = some s' := hEvent
    exact hInv.other hClock hOther

theorem CascadeInv.start (db : Db) (clock : Time) : CascadeInv (.start db clock) :=
  ⟨Int.le_refl _, trivial⟩

/-- **A claim.** A user that is spared and whose subscription is active loses no client. -/
theorem CascadeInv.spares (hInv : CascadeInv s) (a : CascadeAct) : SparesActive s a := by
  intro userId old key keys consumed s' hAt hWork hStep hActive
  obtain ⟨hClock, hEvent⟩ := cascadeStep_some hStep
  have hStage := hInv.stage
  rw [hAt] at hStage
  obtain ⟨hOld, hSpared, hKeys⟩ := hStage
  rw [hWork] at hEvent
  simp only [CascadeState.event, CascadeState.work, hAt] at hEvent
  split at hEvent
  · cases hEvent
    unfold CascadeState.claimKey at hActive ⊢
    -- the claim writes no user, so the subscription was active before it
    have hUsers : SubscriptionActive s.db userId a.now := by
      simp only at hActive
      split at hActive
      · exact hActive
      · split at hActive <;> exact hActive
    have hLater : Later old (deadlineAt s.db key) := by
      rcases hSpared with ⟨t, hUntil, -, hOver⟩ | ⟨-, hDeadlines⟩
      · have hActive := hUsers.later t hUntil
        have hOver : t ≤ a.now := Int.le_trans hOver hClock
        exact absurd hActive (Int.not_lt.mpr hOver)
      · exact hDeadlines key (hKeys key List.mem_cons_self)
    simp only
    split
    · exact ⟨hLater, rfl, rfl⟩
    · next row hRow =>
      have hMiss : dueBy row old = false := by
        rw [deadlineAt_of_row hRow] at hLater
        exact hLater.not_dueBy
      rw [hMiss]
      exact ⟨hLater, rfl, rfl⟩
  · simp at hEvent

/-- **The cascade and an extension.** In every interleaving of the worker with dates
set for a user, redemptions in the user portal and reconciles, in which missing
deadlines are committed only while the user's subscription is over, every claim that
commits while it is active finds the client with no deadline or one past the old date,
and leaves it alone. -/
theorem cascade_spares_active (db : Db) (clock : Time) (as : List CascadeAct)
    (hSeeds : Along cascadeStep (fun s a => seedsWhileOver s a = true) (.start db clock) as) :
    Along cascadeStep SparesActive (.start db clock) as :=
  Lib.along_of_guarded (fun _ _ _ hInv hSeed hStep => hInv.step hSeed hStep)
    (fun _ a hInv => hInv.spares a) (CascadeInv.start db clock) hSeeds

/-! ## The extension that is lost -/

def cascadeKey : PolicyKey := ⟨.wireguard, 0, "client"⟩

/-- A user whose subscription ended at 10, with one WireGuard client without a
deadline of its own. -/
def cascadeDb : Db :=
  { portalDb .wireguard {} with
    users := Table.empty.set 7 ⟨some 10⟩
    configs := [⟨0, "client", .wireguard, some 7, false⟩] }

def worker (now : Time) : CascadeAct := ⟨now, .work fun _ => 0⟩

def extension (now : Time) : CascadeAct := ⟨now, .setUserAccessUntil 7 (some 100) "admin"⟩

def promo (now : Time) : CascadeAct := ⟨now, .redeem { portalRequest now with userId := some 7 }⟩

/-- The missing deadline is committed before a promo code moves the subscription. -/
def seedsEarly : List CascadeAct :=
  [⟨20, .startPass⟩, worker 20, worker 20, worker 20, worker 20, promo 21, worker 22, worker 22]

theorem promo_spares : Along cascadeStep SparesActive (.start cascadeDb 20) seedsEarly :=
  cascade_spares_active cascadeDb 20 seedsEarly (by decide)

/-- The worker has looked at the policy rows when the subscription is extended, and
writes the old date over the client's new one. -/
def seedsLate : List CascadeAct :=
  [⟨20, .startPass⟩, worker 20, worker 20, worker 20, extension 21, worker 22]

/-- The stage before the claim that follows, and the rows after it. -/
def lateClaim : Option (Stage × Option User × Option Time) :=
  (exec cascadeStep (.start cascadeDb 20) seedsLate).bind fun s =>
    (cascadeStep s (worker 23)).map fun s' =>
      (s.stage, s'.db.users.row? 7, deadlineAt s'.db cascadeKey)

/-- Date, deadline and reason at the end of a run. -/
def cascadeEnd (as : List CascadeAct) : Option (Option Time × Option Time × Option BlockReason) :=
  (exec cascadeStep (.start cascadeDb 20) as).map fun s =>
    (subscriptionOf s.db 7, deadlineAt s.db cascadeKey,
      (s.db.policies.row? cascadeKey).bind (·.blockReason))

/-- A client of a user whose subscription runs to 100 is blocked at 24. -/
theorem stale_seed_blocks_active :
    ¬ Along cascadeStep SparesActive (.start cascadeDb 20) (seedsLate ++ [worker 23]) ∧
      cascadeEnd (seedsLate ++ [worker 23, worker 24, worker 24]) =
        some (some 100, some 10, some .accessExpired) := by
  refine ⟨?_, by decide⟩
  intro hSpares
  have hClaim : lateClaim = some (.claiming 7 10 [cascadeKey], some ⟨some 100⟩, some 10) := by
    decide
  obtain ⟨s, hExec, hClaim⟩ := Option.bind_eq_some_iff.mp hClaim
  obtain ⟨s', hStep, hEnd⟩ := Option.map_eq_some_iff.mp hClaim
  obtain ⟨hStage, hUser, hDeadline⟩ : _ ∧ _ ∧ _ := by simpa only [Prod.mk.injEq] using hEnd
  have hActive : SubscriptionActive s'.db 7 23 := ⟨⟨some 100⟩, hUser, by decide⟩
  have hLater := (hSpares.at hExec 7 10 cascadeKey [] _ s' hStage rfl hStep hActive).1
  exact Int.lt_irrefl 10 (hLater 10 hDeadline)

end AdminPanel.Expiry
