import AdminPanel.Expiry.UserExtension
import Mathlib.Data.List.Count

/-!
# Deadlines extended once

`extend_owned_clients_for_redeem` goes through a user's configs and moves the policy row of each.
Policy rows of WireGuard and AmneziaWG 2 are kept under the lower-cased client name, so that configs
whose names differ in case share one.

* `selectedKeys` — the policy rows of the selected configs, once for each config;
* `deadline_extendAll` — a row is moved as many times as it is there;
* `ExtendsOnce` — what the redeem promises;
* `Unshared` — no limited row that moves is shared.

Main result: `extendsOnce_iff`.
-/

namespace AdminPanel.Unlock

open Lib (Table Session)
open Function Access Panel Expiry

/-! ## The rows of the configs -/

/-- The new subscription deadline, for a user who has a subscription and a redeem of all clients. -/
def newSubscription (user : User) (now : Time) (days : Int) (clientNames : Option (List String)) :
    Option Time :=
  if clientNames.isNone then
    user.accessUntil.map fun current => max now current + timedeltaDays days
  else none

/-- The deadline that a limited client gets. -/
def newDeadline (now : Time) (days : Int) (userUntil : Option Time) (deadline : Time) : Time :=
  match userUntil with
  | some t => max deadline t
  | none => max now deadline + timedeltaDays days

/-- The policy row of a config that the redeem selects. -/
def selectedKey (protocols : List Protocol) (clientNames : Option (List String))
    (userUntil : Option Time) (config : VpnConfig) : Option PolicyKey :=
  config.vpnType.protocol?.bind fun protocol =>
    if userUntil.isNone && protocol ∉ protocols then none
    else if clientNames.any fun names => lower (stripped config.clientName) ∉ names then none
    else some (configKey config protocol)

def selectedKeys (protocols : List Protocol) (clientNames : Option (List String))
    (userUntil : Option Time) (configs : List VpnConfig) : List PolicyKey :=
  configs.filterMap (selectedKey protocols clientNames userUntil)

/-- The deadline of a policy row as a session sees it. -/
def deadlineIn (policies : Table PolicyKey PolicyRow) (s : PolicySession) (key : PolicyKey) :
    Option Time := accessUntilOf (s.view policies key)

variable {policies : Table PolicyKey PolicyRow} {now : Time} {days : Int}
  {protocols : List Protocol} {clientNames : Option (List String)} {userUntil : Option Time}

/-! ## One config -/

theorem extendConfig_none {config : VpnConfig}
    (h : selectedKey protocols clientNames userUntil config = none)
    (acc : PolicySession × List PolicyKey) :
    extendConfig policies now days protocols clientNames userUntil acc config = acc := by
  unfold selectedKey at h
  unfold extendConfig
  cases hProtocol : config.vpnType.protocol? with
  | none => rfl
  | some protocol =>
    rw [hProtocol, Option.bind_some] at h
    dsimp only
    split_ifs at h ⊢ with hSkip hName
    · rfl
    · rfl

/-- One config of the loop: the deadline is moved if it changes. -/
theorem extendConfig_some {config : VpnConfig} {key : PolicyKey}
    (h : selectedKey protocols clientNames userUntil config = some key)
    (acc : PolicySession × List PolicyKey) :
    (extendConfig policies now days protocols clientNames userUntil acc config).1 =
      match deadlineIn policies acc.1 key with
      | none => acc.1
      | some deadline =>
        if newDeadline now days userUntil deadline = deadline then acc.1
        else setAccessUntil acc.1 policies key (some (newDeadline now days userUntil deadline))
          "unlock_codes" := by
  unfold selectedKey at h
  unfold extendConfig
  cases hProtocol : config.vpnType.protocol? with
  | none =>
    rw [hProtocol] at h
    cases h
  | some protocol =>
    rw [hProtocol, Option.bind_some] at h
    dsimp only
    split_ifs at h ⊢ with hSkip hName
    cases h
    unfold deadlineIn
    cases accessUntilOf (acc.1.view policies (configKey config protocol)) with
    | none => rfl
    | some deadline =>
      cases userUntil with
      | none =>
        dsimp only [newDeadline]
        by_cases hSame : max now deadline + timedeltaDays days = deadline
        · exact (congrArg Prod.fst (if_pos hSame)).trans (if_pos hSame).symm
        · exact (congrArg Prod.fst (if_neg hSame)).trans (if_neg hSame).symm
      | some t =>
        dsimp only [newDeadline]
        by_cases hSame : max deadline t = deadline
        · exact (congrArg Prod.fst (if_pos hSame)).trans (if_pos hSame).symm
        · exact (congrArg Prod.fst (if_neg hSame)).trans (if_neg hSame).symm

/-- **What a config's turn does to the deadlines.** -/
theorem deadline_extendConfig (acc : PolicySession × List PolicyKey) (config : VpnConfig)
    (k : PolicyKey) :
    deadlineIn policies
        (extendConfig policies now days protocols clientNames userUntil acc config).1 k =
      if selectedKey protocols clientNames userUntil config = some k then
        (deadlineIn policies acc.1 k).map (newDeadline now days userUntil)
      else deadlineIn policies acc.1 k := by
  cases hSelected : selectedKey protocols clientNames userUntil config with
  | none => rw [extendConfig_none hSelected, if_neg (by exact fun h => by cases h)]
  | some key =>
    rw [extendConfig_some hSelected]
    by_cases hKey : key = k
    · subst hKey
      rw [if_pos rfl]
      cases hBefore : deadlineIn policies acc.1 key with
      | none =>
        dsimp only
        rw [hBefore]
        rfl
      | some deadline =>
        dsimp only
        split_ifs with hSame
        · rw [hBefore, Option.map_some, hSame]
        · rw [deadlineIn, view_setAccessUntil, if_pos rfl, Option.map_some]
    · rw [if_neg (fun h => hKey (Option.some.inj h))]
      cases deadlineIn policies acc.1 key with
      | none => rfl
      | some deadline =>
        dsimp only
        split_ifs with hSame
        · rfl
        · rw [deadlineIn, view_setAccessUntil, if_neg (Ne.symm hKey)]
          rfl

/-! ## All configs -/

/-- The loop of `extend_owned_clients_for_redeem`, over the configs in any order. -/
def extendAll (policies : Table PolicyKey PolicyRow) (now : Time) (days : Int)
    (protocols : List Protocol) (clientNames : Option (List String)) (userUntil : Option Time)
    (s : PolicySession) (configs : List VpnConfig) : PolicySession :=
  (configs.foldl (extendConfig policies now days protocols clientNames userUntil) (s, [])).1

/-- **A row is moved once for each of its configs.** -/
theorem deadline_extendAll (configs : List VpnConfig) (s : PolicySession) (k : PolicyKey) :
    deadlineIn policies (extendAll policies now days protocols clientNames userUntil s configs) k =
      (Option.map (newDeadline now days userUntil))^[
        (selectedKeys protocols clientNames userUntil configs).count k]
          (deadlineIn policies s k) := by
  have hFold : ∀ acc : PolicySession × List PolicyKey, deadlineIn policies (configs.foldl
      (extendConfig policies now days protocols clientNames userUntil) acc).1 k =
      (Option.map (newDeadline now days userUntil))^[
        (selectedKeys protocols clientNames userUntil configs).count k]
          (deadlineIn policies acc.1 k) := by
    induction configs with
    | nil => exact fun _ => rfl
    | cons config configs ih =>
      intro acc
      rw [List.foldl_cons, ih, deadline_extendConfig]
      unfold selectedKeys
      cases hSelected : selectedKey protocols clientNames userUntil config with
      | none => rw [List.filterMap_cons_none hSelected, if_neg nofun]
      | some key =>
        rw [List.filterMap_cons_some hSelected]
        by_cases hKey : key = k
        · subst hKey
          rw [if_pos rfl, List.count_cons_self, iterate_succ_apply]
        · rw [if_neg (fun h => hKey (Option.some.inj h)), List.count_cons_of_ne hKey]
  exact hFold (s, [])

/-- The order of the configs does not matter. -/
theorem deadline_extendAll_perm {configs others : List VpnConfig} (h : configs.Perm others)
    (s : PolicySession) (k : PolicyKey) :
    deadlineIn policies (extendAll policies now days protocols clientNames userUntil s configs) k =
      deadlineIn policies (extendAll policies now days protocols clientNames userUntil s others)
        k := by
  have hKeys : (selectedKeys protocols clientNames userUntil configs).Perm
      (selectedKeys protocols clientNames userUntil others) := h.filterMap _
  rw [deadline_extendAll, deadline_extendAll, hKeys.count_eq]

/-- A subscription takes a row along once, however often its turn comes. -/
theorem iterate_subscription (t : Time) (before : Option Time) (n : ℕ) :
    (Option.map (newDeadline now days (some t)))^[n + 1] before =
      before.map (newDeadline now days (some t)) := by
  induction n with
  | zero => rfl
  | succ n ih =>
    rw [iterate_succ_apply', ih, Option.map_map]
    refine congrFun (congrArg Option.map (funext fun d => ?_)) before
    show max (max d t) t = max d t
    rw [max_assoc, max_self]

/-- Without a subscription every further turn moves it on. -/
theorem iterate_days (hDays : 0 < timedeltaDays days) (d : Time) (n : ℕ) :
    (Option.map (newDeadline now days none))^[n + 1] (some d) =
      some (max now d + (n + 1) * timedeltaDays days) := by
  induction n with
  | zero =>
    show some (max now d + timedeltaDays days) = _
    rw [Int.natCast_zero, Int.zero_add, Int.one_mul]
  | succ n ih =>
    rw [iterate_succ_apply', ih, Option.map_some]
    have hLater : now ≤ max now d + (n + 1) * timedeltaDays days := by
      have hPos : 0 ≤ ((n : Int) + 1) * timedeltaDays days :=
        Int.mul_nonneg (by omega) (Int.le_of_lt hDays)
      exact Int.le_trans (le_max_left now d) (Int.le_add_of_nonneg_right hPos)
    show some (max now _ + timedeltaDays days) = _
    rw [max_eq_right hLater, Int.natCast_add, Int.natCast_one, Int.add_mul (↑n + 1) 1,
      Int.one_mul, Int.add_assoc]

theorem newDeadline_ne (hDays : 0 < timedeltaDays days) (d : Time) :
    newDeadline now days none d ≠ d := by
  have hLe : d ≤ max now d := le_max_right now d
  exact ne_of_gt (Int.lt_add_of_le_of_pos hLe hDays)

/-! ## What the redeem promises -/

/-- `extend_owned_clients_for_redeem` moves every limited policy of a selected config once, and no
other one. -/
structure ExtendsOnce (db : Db) (userId : Nat) (user : User) (now : Time) (days : Int)
    (protocols : List Protocol) (clientNames : Option (List String)) (s : PolicySession) :
    Prop where
  subscription : (extendOwnedClients db userId user now days protocols clientNames s).1 =
    newSubscription user now days clientNames
  selected : ∀ k ∈ selectedKeys protocols clientNames (newSubscription user now days clientNames)
      (ownedConfigs db userId),
    deadlineIn db.policies
        (extendOwnedClients db userId user now days protocols clientNames s).2.1 k =
      (deadlineIn db.policies s k).map
        (newDeadline now days (newSubscription user now days clientNames))
  others : ∀ config ∈ db.configs, config.ownerId ≠ some userId → ∀ protocol,
    config.vpnType.protocol? = some protocol →
      deadlineIn db.policies
          (extendOwnedClients db userId user now days protocols clientNames s).2.1
          (configKey config protocol) =
        deadlineIn db.policies s (configKey config protocol)
  rest : ∀ k, k ∉ selectedKeys protocols clientNames (newSubscription user now days clientNames)
      (ownedConfigs db userId) →
    deadlineIn db.policies
        (extendOwnedClients db userId user now days protocols clientNames s).2.1 k =
      deadlineIn db.policies s k
  anyOrder : ∀ configs, configs.Perm (ownedConfigs db userId) → ∀ k,
    deadlineIn db.policies (extendAll db.policies now days protocols clientNames
        (newSubscription user now days clientNames) s configs) k =
      deadlineIn db.policies
        (extendOwnedClients db userId user now days protocols clientNames s).2.1 k

/-- No limited row that moves is shared: without a subscription by two selected configs, and in no
case by another user's config. -/
structure Unshared (db : Db) (userId : Nat) (user : User) (now : Time) (days : Int)
    (protocols : List Protocol) (clientNames : Option (List String)) (s : PolicySession) :
    Prop where
  own : newSubscription user now days clientNames = none → ∀ k,
    deadlineIn db.policies s k ≠ none →
      (selectedKeys protocols clientNames none (ownedConfigs db userId)).count k ≤ 1
  others : ∀ config ∈ db.configs, config.ownerId ≠ some userId → ∀ protocol,
    config.vpnType.protocol? = some protocol →
      configKey config protocol ∈ selectedKeys protocols clientNames
        (newSubscription user now days clientNames) (ownedConfigs db userId) →
      ∀ d, deadlineIn db.policies s (configKey config protocol) = some d →
        ∃ t, newSubscription user now days clientNames = some t ∧ t ≤ d

section

variable {db : Db} {userId : Nat} {user : User} {s : PolicySession}

theorem extendOwnedClients_eq :
    (extendOwnedClients db userId user now days protocols clientNames s).1 =
        newSubscription user now days clientNames ∧
      (extendOwnedClients db userId user now days protocols clientNames s).2.1 =
        extendAll db.policies now days protocols clientNames
          (newSubscription user now days clientNames) s (ownedConfigs db userId) := by
  unfold extendOwnedClients newSubscription extendAll
  cases user.accessUntil with
  | none | some current =>
    cases clientNames with
    | none => exact ⟨rfl, rfl⟩
    | some names => exact ⟨rfl, rfl⟩

/-- The deadline after the redeem. -/
theorem deadline_after (k : PolicyKey) :
    deadlineIn db.policies
        (extendOwnedClients db userId user now days protocols clientNames s).2.1 k =
      (Option.map (newDeadline now days (newSubscription user now days clientNames)))^[
        (selectedKeys protocols clientNames (newSubscription user now days clientNames)
          (ownedConfigs db userId)).count k] (deadlineIn db.policies s k) := by
  rw [extendOwnedClients_eq.2, deadline_extendAll]

theorem map_none_iterate {f : Time → Time} (n : ℕ) : (Option.map f)^[n] none = none := by
  induction n with
  | zero => rfl
  | succ n ih => rw [iterate_succ_apply', ih, Option.map_none]

/-- **A row is extended once** exactly if it is not shared, or if a subscription takes it along. -/
theorem iterate_eq_once_iff (hDays : 0 < timedeltaDays days) (before : Option Time) (n : ℕ) :
    (Option.map (newDeadline now days userUntil))^[n + 1] before =
        before.map (newDeadline now days userUntil) ↔
      (userUntil = none → before ≠ none → n + 1 ≤ 1) := by
  cases userUntil with
  | some t => exact iff_of_true (iterate_subscription t before n) nofun
  | none =>
    cases before with
    | none => exact iff_of_true (map_none_iterate (n + 1)) fun _ hNone => absurd rfl hNone
    | some d =>
      have hOnce : (some d).map (newDeadline now days none) =
          some (max now d + timedeltaDays days) := rfl
      rw [iterate_days hDays, hOnce, Option.some.injEq]
      constructor
      · intro hEq _ _
        by_contra hMany
        have hMore : 0 < (n : Int) * timedeltaDays days := Int.mul_pos (by omega) hDays
        rw [Int.add_mul, Int.one_mul] at hEq
        exact absurd (Int.add_left_cancel hEq) (ne_of_gt (Int.lt_add_of_pos_left _ hMore))
      · intro hOne
        obtain rfl : n = 0 := Nat.le_zero.mp (Nat.le_of_succ_le_succ (hOne rfl (by simp)))
        rw [Int.natCast_zero, Int.zero_add, Int.one_mul]

/-- A moved row keeps its deadline exactly if it is unlimited or a subscription does not reach
it. -/
theorem map_newDeadline_eq_iff (hDays : 0 < timedeltaDays days) (before : Option Time) :
    before.map (newDeadline now days userUntil) = before ↔
      ∀ d, before = some d → ∃ t, userUntil = some t ∧ t ≤ d := by
  cases before with
  | none => exact iff_of_true rfl nofun
  | some d =>
    rw [Option.map_some, Option.some.injEq]
    cases userUntil with
    | none =>
      refine iff_of_false (newDeadline_ne hDays d) fun h => ?_
      obtain ⟨t, hNone, -⟩ := h d rfl
      cases hNone
    | some t =>
      have hMax : newDeadline now days (some t) d = d ↔ t ≤ d := sup_eq_left
      rw [hMax]
      constructor
      · intro hLe other hOther
        exact ⟨t, rfl, Option.some.inj hOther ▸ hLe⟩
      · intro h
        obtain ⟨other, hOther, hLe⟩ := h d rfl
        exact Option.some.inj hOther ▸ hLe

/-- **Every deadline is extended exactly once** exactly if no limited row that moves is shared. -/
theorem extendsOnce_iff (db : Db) (userId : Nat) (user : User) (now : Time) (days : Int)
    (protocols : List Protocol) (clientNames : Option (List String)) (s : PolicySession)
    (hDays : 1 ≤ days) :
    ExtendsOnce db userId user now days protocols clientNames s ↔
      Unshared db userId user now days protocols clientNames s := by
  have hPos : 0 < timedeltaDays days := timedeltaDays_pos hDays
  -- a key is moved once for each config that selects it
  have hSelected : ∀ k ∈ selectedKeys protocols clientNames (newSubscription user now days
      clientNames) (ownedConfigs db userId), ∃ n, (selectedKeys protocols clientNames
        (newSubscription user now days clientNames) (ownedConfigs db userId)).count k = n + 1 :=
    fun k hk => Nat.exists_eq_add_one_of_ne_zero (List.count_pos_iff.mpr hk).ne'
  constructor
  · intro h
    refine ⟨fun hNone k hLimited => ?_, fun config hConfig hOwner protocol hProtocol hMem => ?_⟩
    · by_cases hMem : k ∈ selectedKeys protocols clientNames none (ownedConfigs db userId)
      · obtain ⟨n, hCount⟩ := hSelected k (hNone.symm ▸ hMem)
        have hMoved := h.selected k (hNone.symm ▸ hMem)
        rw [deadline_after, hCount, iterate_eq_once_iff hPos] at hMoved
        rw [hNone] at hCount
        rw [hCount]
        exact hMoved hNone hLimited
      · rw [List.count_eq_zero.mpr hMem]
        exact Nat.zero_le 1
    · have hMoved := h.selected _ hMem
      rw [h.others config hConfig hOwner protocol hProtocol] at hMoved
      exact (map_newDeadline_eq_iff hPos _).mp hMoved.symm
  · intro h
    -- and only once, where a second move would show
    have hOnce : ∀ k ∈ selectedKeys protocols clientNames (newSubscription user now days
        clientNames) (ownedConfigs db userId), deadlineIn db.policies
          (extendOwnedClients db userId user now days protocols clientNames s).2.1 k =
        (deadlineIn db.policies s k).map
          (newDeadline now days (newSubscription user now days clientNames)) := by
      intro k hk
      obtain ⟨n, hCount⟩ := hSelected k hk
      rw [deadline_after, hCount, iterate_eq_once_iff hPos]
      intro hNone hLimited
      rw [← hCount, hNone]
      exact h.own hNone k hLimited
    have hRest : ∀ k, k ∉ selectedKeys protocols clientNames (newSubscription user now days
        clientNames) (ownedConfigs db userId) → deadlineIn db.policies
          (extendOwnedClients db userId user now days protocols clientNames s).2.1 k =
        deadlineIn db.policies s k := by
      intro k hk
      rw [deadline_after, List.count_eq_zero.mpr hk]
      rfl
    refine ⟨extendOwnedClients_eq.1, hOnce, fun config hConfig hOwner protocol hProtocol => ?_,
      hRest, fun configs hPerm k => ?_⟩
    · by_cases hMem : configKey config protocol ∈ selectedKeys protocols clientNames
          (newSubscription user now days clientNames) (ownedConfigs db userId)
      · rw [hOnce _ hMem, map_newDeadline_eq_iff hPos]
        exact h.others config hConfig hOwner protocol hProtocol hMem
      · exact hRest _ hMem
    · rw [extendOwnedClients_eq.2]
      exact deadline_extendAll_perm hPerm s k

end

/-- Clients of one user on one node, with one limited policy row. -/
def oneRowDb (names : List String) : Db where
  nodes := [1]
  users := Table.empty.set 7 ⟨none⟩
  configs := names.map fun name => ⟨1, name, .wireguard, some 7, false⟩
  policies := Table.empty.set ⟨.wireguard, 1, "alice"⟩ { accessUntil := some 0 }
  codes := Table.empty
  redemptions := []

theorem extendsOnce_iff_alice : ExtendsOnce (oneRowDb ["alice"]) 7 ⟨none⟩ 0 1 [.wireguard] none
    .empty ↔ Unshared (oneRowDb ["alice"]) 7 ⟨none⟩ 0 1 [.wireguard] none .empty :=
  extendsOnce_iff _ _ _ _ _ _ _ _ (Int.le_refl 1)

/-- Two clients whose names differ in case share a row: it gets two days instead of one. -/
theorem not_always_extendsOnce : ¬ ∀ db userId user now days protocols clientNames s, 1 ≤ days →
    ExtendsOnce db userId user now days protocols clientNames s := by
  intro hAll
  have hMoved := (hAll (oneRowDb ["Alice", "alice"]) 7 ⟨none⟩ 0 1 [.wireguard] none .empty
    (Int.le_refl 1)).selected ⟨.wireguard, 1, "alice"⟩ (by decide +kernel)
  revert hMoved
  decide +kernel

end AdminPanel.Unlock
