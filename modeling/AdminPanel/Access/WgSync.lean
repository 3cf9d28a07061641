import AdminPanel.Access.WgNode

/-!
# Retrying a WireGuard policy sync

`reconcile_all_wg_policies` commits the new reasons of all rows before its first
runtime call, and derives the calls from the reasons that move. When a call
raises, the worker gives the node up until the next run, and the next run finds
the reasons where they belong: it calls the runtime for nobody the first run
missed.

* `Recovers` — what puts a client's peers right by the end of the second run;
* `sync_retried_iff` — after the second run every client has the peers its
  state calls for exactly when every client `Recovers`;
* `missed_client_stays_live` — the first call raises, and a blocked client that
  the loop did not reach is never blocked.
-/

namespace AdminPanel.Access

open Lib (Table)

variable {name : String}

namespace WgNode

section

variable (n : WgNode) (r : NodeReading) (r₁ r₂ : NodeReading)

/-- The reason that a sync at `r` stores. -/
def target (name : String) : Option BlockReason :=
  (n.policies.row? name).bind fun row => (blockMode row (r.client name)).targetReason

/-- The reason that a second sync at `r₂` stores: a temporary block that had
lapsed at `r₁` is gone. -/
def laterTarget (name : String) : Option BlockReason :=
  (n.policies.row? name).bind fun row =>
    (blockMode (cleanupWgTempBlock row r₁.now) (r₂.client name)).targetReason

/-- The clients whose stored reason is not the one their state calls for. -/
def movedClients : List String :=
  n.policies.keys.filter fun name =>
    !isNodeDefaultPolicyClient name && n.reason name != n.target r name

/-- The first sync runs its re-block pass: no call raises and a client is freed. -/
def FirstReblocks (faults : RuntimeFaults) : Prop :=
  (∀ i, i < (n.movedClients r).length → faults.raises i = false) ∧
    ∃ name ∈ n.movedClients r, n.target r name = none

/-- What leaves a client's peers as its state calls for after the second sync:
its reason moves once more; or it is blocked and the second sync re-blocks after
freeing another client; or the first sync called the runtime for it before the
call that raised; or the first sync re-blocked it; or its peers were right to
begin with. -/
def Recovers (faults : RuntimeFaults) (name : String) : Prop :=
  n.laterTarget r₁ r₂ name ≠ n.target r₁ name ∨
  (n.laterTarget r₁ r₂ name ≠ none ∧ ∃ other, isNodeDefaultPolicyClient other = false ∧
    n.target r₁ other ≠ none ∧ n.laterTarget r₁ r₂ other = none) ∨
  name ∈ reachedTargets (n.movedClients r₁) faults.raises ∨
  (n.target r₁ name ≠ none ∧ n.FirstReblocks r₁ faults ∧ faults.batch.removes name = true) ∨
  n.present name = (n.target r₁ name).isNone

/-- The node after a sync with runtime faults and a later one without. -/
def afterRetry (faults : RuntimeFaults) : WgNode :=
  reconcileAllWgPolicies (reconcileAllWgPolicies n r₁ faults) r₂ .never

/-- Blocked clients have no peers and unblocked clients have theirs, for every row. -/
def Applied : Prop :=
  ∀ name, isNodeDefaultPolicyClient name = false → (n.policies.row? name).isSome = true →
    n.present name = !n.blocked r name

theorem target_isNone (name : String) : (n.target r name).isNone = !n.blocked r name := by
  unfold target blocked
  cases n.policies.row? name with
  | none => rfl
  | some row => exact targetReason_isNone row (r.client name)

theorem target_eq_none_iff (name : String) : n.target r name = none ↔ n.blocked r name = false := by
  rw [← Option.isNone_iff_eq_none, target_isNone, Bool.not_eq_true']

theorem mem_movedClients {n : WgNode} {r : NodeReading} : name ∈ n.movedClients r ↔
      isNodeDefaultPolicyClient name = false ∧ n.reason name ≠ n.target r name := by
  unfold movedClients
  rw [List.mem_filter, Bool.and_eq_true, Bool.not_eq_true', bne_iff_ne]
  constructor
  · exact fun h => h.2
  · intro h
    refine ⟨?_, h⟩
    rw [n.policies.mem_keys]
    cases hRow : n.policies.row? name with
    | none => exact absurd (by simp [reason, target, hRow]) h.2
    | some row => rfl

theorem map_changedRuntimeClients :
    (n.changedRuntimeClients r).map Prod.fst = n.movedClients r := by
  unfold changedRuntimeClients movedClients
  rw [List.map_filterMap, ← List.filterMap_eq_filter]
  refine List.filterMap_congr ?_
  intro name hMem
  rw [n.policies.mem_keys, Option.isSome_iff_exists] at hMem
  obtain ⟨row, hRow⟩ := hMem
  cases hDefault : isNodeDefaultPolicyClient name with
  | true => simp [Option.guard, hDefault]
  | false =>
    simp only [hRow, reason, target, Option.bind_some, reconcileAllRow_call, reconciledPeer_reason,
      Option.guard, hDefault]
    by_cases hSame : row.blockReason = (blockMode row (r.client name)).targetReason
    · simp [hSame]
    · simp [hSame]

/-- The re-block pass of the first sync, in terms of the rows it found. -/
theorem startsReblock_iff (faults : RuntimeFaults) :
    n.startsReblock r faults = true ↔ n.FirstReblocks r faults := by
  have hMap := map_changedRuntimeClients n r
  have hLength : (n.changedRuntimeClients r).length = (n.movedClients r).length := by
    rw [← hMap, List.length_map]
  unfold startsReblock FirstReblocks
  rw [Bool.and_eq_true, decide_eq_true_eq, reachedTargets_eq_self_iff, hLength, List.any_eq_true]
  refine and_congr_right fun _ => ?_
  constructor
  · rintro ⟨⟨name, isBlocked⟩, hMem, hFreed⟩
    have hBlocked := (mem_changedRuntimeClients.mp hMem).2.1
    refine ⟨name, hMap ▸ List.mem_map_of_mem hMem, ?_⟩
    rw [target_eq_none_iff, ← hBlocked]
    simpa using hFreed
  · rintro ⟨name, hMem, hNone⟩
    rw [← hMap] at hMem
    obtain ⟨⟨_, isBlocked⟩, hChanged, rfl⟩ := List.mem_map.mp hMem
    refine ⟨_, hChanged, ?_⟩
    rw [target_eq_none_iff] at hNone
    have hBlocked := (mem_changedRuntimeClients.mp hChanged).2.1
    simp [hBlocked, hNone]

/-- Whose peers the first sync leaves as the reason it stores says. -/
theorem first_present_iff (faults : RuntimeFaults)
    (hDefault : isNodeDefaultPolicyClient name = false) :
    (reconcileAllWgPolicies n r faults).present name = (n.target r name).isNone ↔
      name ∈ reachedTargets (n.movedClients r) faults.raises ∨
      (n.target r name ≠ none ∧ n.FirstReblocks r faults ∧ faults.batch.removes name = true) ∨
      n.present name = (n.target r name).isNone := by
  have hReached : n.reached r faults = reachedTargets (n.movedClients r) faults.raises := by
    rw [reached, map_reachedTargets, map_changedRuntimeClients]
  have hBlocked : n.target r name ≠ none ↔ n.blocked r name = true := by
    rw [Ne, target_eq_none_iff, Bool.not_eq_false]
  rw [reconcileAll_present, hReached]
  split
  · next hPass =>
    obtain ⟨hStarts, hMem, hRemoves⟩ := hPass
    have hOn := (mem_blockedClients.mp hMem).2.2
    have hFirst := (startsReblock_iff n r faults).mp hStarts
    refine ⟨fun _ => .inr (.inl ⟨hBlocked.mpr hOn, hFirst, hRemoves⟩), fun _ => ?_⟩
    rw [target_isNone, hOn, Bool.not_true]
  · next hPass =>
    split
    · next hMem => exact ⟨fun _ => .inl hMem, fun _ => (target_isNone n r name).symm⟩
    · next hMem =>
      constructor
      · exact fun h => .inr (.inr h)
      · rintro (h | ⟨hTarget, hFirst, hRemoves⟩ | h)
        · exact absurd h hMem
        · have hOn : name ∈ n.blockedClients r none :=
            mem_blockedClients.mpr ⟨hDefault, by simp, hBlocked.mp hTarget⟩
          exact absurd ⟨(startsReblock_iff n r faults).mpr hFirst, hOn, hRemoves⟩ hPass
        · exact h

/-- What the second sync stores, in terms of the rows the first one found. -/
theorem target_afterFirst (faults : RuntimeFaults)
    (hDefault : isNodeDefaultPolicyClient name = false) :
    (reconcileAllWgPolicies n r₁ faults).target r₂ name = n.laterTarget r₁ r₂ name := by
  simp only [target, laterTarget, reconcileAll_policies, syncedPolicies, Table.row?_mapRows]
  cases hRow : n.policies.row? name with
  | none => rfl
  | some row =>
    simp only [Option.map_some, Option.bind_some, hDefault, Bool.false_eq_true, if_false,
      reconcileAllRow_row, reconciledPeer, limitChangeLifts, Bool.false_and,
      blockMode_settle_false]
    rfl

theorem reason_afterFirst (faults : RuntimeFaults)
    (hDefault : isNodeDefaultPolicyClient name = false)
    (hRow : (n.policies.row? name).isSome = true) :
    (reconcileAllWgPolicies n r faults).reason name = n.target r name := by
  obtain ⟨row, hRow⟩ := Option.isSome_iff_exists.mp hRow
  rw [reconcileAll_reason n r faults hDefault hRow, target, hRow]
  rfl

/-- The second sync frees a client exactly when its reason is then no longer stored. -/
theorem secondReblocks_iff (faults : RuntimeFaults) :
    (reconcileAllWgPolicies n r₁ faults).startsReblock r₂ .never = true ↔
      ∃ other, isNodeDefaultPolicyClient other = false ∧ n.target r₁ other ≠ none ∧
        n.laterTarget r₁ r₂ other = none := by
  have hRowOf : ∀ {other : String}, n.target r₁ other ≠ none →
      (n.policies.row? other).isSome = true := by
    intro other h
    cases hRow : n.policies.row? other with
    | none => exact absurd (by rw [target, hRow]; rfl) h
    | some row => rfl
  rw [startsReblock_iff]
  unfold FirstReblocks
  constructor
  · rintro ⟨-, other, hMem, hNone⟩
    obtain ⟨hDefault, hMoved⟩ := mem_movedClients.mp hMem
    rw [target_afterFirst n r₁ r₂ faults hDefault] at hMoved hNone
    refine ⟨other, hDefault, ?_, hNone⟩
    rw [hNone] at hMoved
    cases hRow : n.policies.row? other with
    | none =>
      rw [reconcileAll_reason_of_skipped n r₁ faults (.inr hRow)] at hMoved
      exact absurd (by rw [reason, hRow]; rfl) hMoved
    | some row =>
      rwa [reason_afterFirst n r₁ faults hDefault (by rw [hRow]; rfl)] at hMoved
  · rintro ⟨other, hDefault, hTarget, hNone⟩
    refine ⟨fun _ _ => rfl, other, mem_movedClients.mpr ⟨hDefault, ?_⟩, ?_⟩
    · rw [target_afterFirst n r₁ r₂ faults hDefault, hNone,
        reason_afterFirst n r₁ faults hDefault (hRowOf hTarget)]
      exact hTarget
    · rw [target_afterFirst n r₁ r₂ faults hDefault, hNone]

/-- One client after the second sync. -/
theorem retry_present_iff (faults : RuntimeFaults)
    (hDefault : isNodeDefaultPolicyClient name = false)
    (hRow : (n.policies.row? name).isSome = true) :
    (n.afterRetry r₁ r₂ faults).present name = !(n.afterRetry r₁ r₂ faults).blocked r₂ name ↔
      n.Recovers r₁ r₂ faults name := by
  have hBlocked : (!(n.afterRetry r₁ r₂ faults).blocked r₂ name) =
      (n.laterTarget r₁ r₂ name).isNone := by
    rw [afterRetry, reconcileAll_blocked, blocked_syncedPolicies, ← target_isNone,
      target_afterFirst n r₁ r₂ faults hDefault]
  have hPresent := first_present_iff (reconcileAllWgPolicies n r₁ faults) r₂ .never hDefault
  have hFirst := first_present_iff n r₁ faults hDefault
  have hStarts := secondReblocks_iff n r₁ r₂ faults
  rw [startsReblock_iff] at hStarts
  have hSecond : (reconcileAllWgPolicies n r₁ faults).present name =
      (n.laterTarget r₁ r₂ name).isNone ∨ n.laterTarget r₁ r₂ name ≠ n.target r₁ name ↔
      n.laterTarget r₁ r₂ name ≠ n.target r₁ name ∨
        name ∈ reachedTargets (n.movedClients r₁) faults.raises ∨
        (n.target r₁ name ≠ none ∧ n.FirstReblocks r₁ faults ∧
          faults.batch.removes name = true) ∨
        n.present name = (n.target r₁ name).isNone := by
    by_cases hSame : n.laterTarget r₁ r₂ name = n.target r₁ name
    · rw [hSame, ← hFirst]
      simp
    · simp [hSame]
  -- the second sync moves the clients whose reason has changed since
  have hMoved : name ∈ reachedTargets ((reconcileAllWgPolicies n r₁ faults).movedClients r₂)
      RuntimeFaults.never.raises ↔ n.laterTarget r₁ r₂ name ≠ n.target r₁ name := by
    rw [RuntimeFaults.never, reachedTargets_never, mem_movedClients,
      target_afterFirst n r₁ r₂ faults hDefault, reason_afterFirst n r₁ faults hDefault hRow]
    exact ⟨fun h => h.2.symm, fun h => ⟨hDefault, h.symm⟩⟩
  rw [hBlocked, afterRetry, ← target_afterFirst n r₁ r₂ faults hDefault, hPresent, hMoved, hStarts,
    target_afterFirst n r₁ r₂ faults hDefault]
  have hRemoves : RuntimeFaults.never.batch.removes name = true := rfl
  unfold Recovers
  constructor
  · rintro (h | ⟨hBlocked', hPass, -⟩ | h)
    · exact .inl h
    · exact .inr (.inl ⟨hBlocked', hPass⟩)
    · exact (hSecond.mp (.inl h)).imp_right .inr
  · rintro (h | ⟨hBlocked', hPass⟩ | h)
    · exact .inl h
    · exact .inr (.inl ⟨hBlocked', hPass, hRemoves⟩)
    · rcases hSecond.mpr (.inr h) with hRight | hNe
      · exact .inr (.inr hRight)
      · exact .inl hNe

end

end WgNode

/-- **A later sync applies what an earlier one missed exactly when every client
`Recovers`.** -/
theorem sync_retried_iff (n : WgNode) (r₁ r₂ : NodeReading) (faults : RuntimeFaults) :
    (n.afterRetry r₁ r₂ faults).Applied r₂ ↔
      ∀ name, isNodeDefaultPolicyClient name = false → (n.policies.row? name).isSome = true →
        n.Recovers r₁ r₂ faults name := by
  have hRows : ∀ name, ((n.afterRetry r₁ r₂ faults).policies.row? name).isSome =
      (n.policies.row? name).isSome := by
    intro name
    simp only [WgNode.afterRetry, reconcileAll_policies, WgNode.syncedPolicies,
      Table.row?_mapRows, Option.isSome_map]
  constructor
  · intro h name hDefault hRow
    exact (WgNode.retry_present_iff n r₁ r₂ faults hDefault hRow).mp
      (h name hDefault (by rw [hRows]; exact hRow))
  · intro h name hDefault hRow
    rw [hRows] at hRow
    exact (WgNode.retry_present_iff n r₁ r₂ faults hDefault hRow).mpr (h name hDefault hRow)

/-- Two clients before a sync: the temporary block of `alice` has lapsed, `bob`
has gone over his limit. -/
def missedClientNode : WgNode where
  policies := (Table.empty.set "alice"
      ({ isTempBlocked := true, blockReason := some .manualTemp, blockUntil := some 5 } :
        PolicyRow)).set "bob" { trafficLimitBytes := some 10 }
  present := fun name => name != "alice"

/-- The call that would free `alice` raises, `bob` is not reached, and the next
sync does not call for him: he stays live although he is blocked. -/
theorem missed_client_stays_live :
    ¬ (missedClientNode.afterRetry ⟨10, fun name _ => if name = "bob" then 20 else 0⟩
        ⟨11, fun name _ => if name = "bob" then 20 else 0⟩
        ⟨fun i => i == 0, .applied⟩).Applied
      ⟨11, fun name _ => if name = "bob" then 20 else 0⟩ := by
  intro h
  exact absurd (h "bob" (by decide) (by decide)) (by decide)

end AdminPanel.Access
