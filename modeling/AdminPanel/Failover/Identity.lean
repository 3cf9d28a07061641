import AdminPanel.Failover.Pool
import AdminPanel.Lib.Runs

/-!
# Server identities in a pool

A front may only be pointed at servers with one identity, since clients complete no handshake with
another. The panel goes by the time stamp of a past cloning, or by a member being the first one by
priority.

* `IdentityPool`, `IdentityAction`, `perform` — the rows of a pool and the identities of the nodes;
* `Handshakes` — members that may take over have one identity, and no switch leaves it;
* `Kept` — the first member by priority is not replaced by one with another identity;
* `agreed_rows` — what an edit of the rows does to the agreement of the identities.

Main result: `handshakes_iff_kept` — a run of requests that keep it leads from one pool with one
identity to another, and the first request that does not keep it breaks it.
-/

namespace AdminPanel.Failover.Identity

open List Function

open Lib (Along)

/-! ## The pool and its requests -/

/-- A pool, and the server identity of every node. -/
structure IdentityPool (ι : Type) where
  members : List Member
  activeMemberId : Option Nat
  identity : Nat → ι

/-- How a cloning ends: the identity may have been copied when the runtime refuses it. -/
inductive MirrorOutcome
  | done
  | notCopied
  | notApplied
  deriving DecidableEq, Repr

/-- A request; `moved` says whether `_apply_switch_to_target` returns without errors. -/
inductive IdentityAction
  | addMember (id nodeId priority : Nat)
  | updateMember (id : Nat) (priority : Option Nat)
  | removeMember (id : Nat)
  | mirrorIdentity (id : Nat) (outcome : MirrorOutcome)
  | evaluate (healthy : Nat → Bool) (moved : Bool)
  | forceSwitch (id : Nat) (moved : Bool)

variable {ι : Type}

section

variable (s : IdentityPool ι)

/-- The rows after `add_member`, `update_member` and `remove_member`. The foreign key of
`active_member_id` keeps the active member from being removed. -/
def IdentityPool.rowsAfter : IdentityAction → List Member
  | .addMember id nodeId priority =>
    if s.members.any fun m => m.nodeId = nodeId then s.members
    else s.members ++ [⟨id, nodeId, priority, false⟩]
  | .updateMember id (some priority) =>
    s.members.map fun m => if m.id = id then { m with priority := priority } else m
  | .removeMember id =>
    if s.activeMemberId = some id then s.members else s.members.filter fun m => m.id ≠ id
  | _ => s.members

def mirrorMemberIdentity (member : Member) (outcome : MirrorOutcome) : IdentityPool ι :=
  match primaryMember s.members with
  | none => s
  | some primary =>
    if member.id = primary.id then s
    else
      let identity := update s.identity member.nodeId (s.identity primary.nodeId)
      match outcome with
      | .notCopied => s
      | .notApplied => { s with identity := identity }
      | .done =>
        { s with
          identity := identity
          members := s.members.map fun m =>
            if m.id = member.id then { m with mirrored := true } else m }

/-- What `_apply_switch_to_target` writes. -/
def switchTo (moved : Bool) (target : Member) : IdentityPool ι :=
  if moved then { s with activeMemberId := some target.id } else s

def evaluateAndSwitch (healthy : Nat → Bool) (moved : Bool) : IdentityPool ι :=
  match (eligibleCandidates s.members).filter fun m => healthy m.nodeId with
  | [] => s
  | target :: _ => switchTo s moved target

def forceSwitchMember (member : Member) (moved : Bool) : IdentityPool ι :=
  if member.id ∈ (eligibleCandidates s.members).map Member.id then switchTo s moved member else s

def perform : IdentityAction → IdentityPool ι
  | .mirrorIdentity id outcome =>
    match s.members.find? fun m => m.id = id with
    | none => s
    | some member => mirrorMemberIdentity s member outcome
  | .evaluate healthy moved => evaluateAndSwitch s healthy moved
  | .forceSwitch id moved =>
    match s.members.find? fun m => m.id = id with
    | none => s
    | some member => forceSwitchMember s member moved
  | action => { s with members := s.rowsAfter action }

/-- The id of a new row is one that no row has. -/
def step (action : IdentityAction) : Option (IdentityPool ι) :=
  match action with
  | .addMember id _ _ => if id ∈ s.members.map Member.id then none else some (perform s action)
  | _ => some (perform s action)

/-! ## One identity -/

def IdentityAction.isSwitch : IdentityAction → Bool
  | .evaluate _ _ => true
  | .forceSwitch _ _ => true
  | _ => false

/-- Members that may take over have the same identity, and a switch goes to a member with the
identity of the one that was active. -/
structure Handshakes (s : IdentityPool ι) : Prop where
  eligible : ∀ m ∈ eligibleCandidates s.members, ∀ m' ∈ eligibleCandidates s.members,
    s.identity m.nodeId = s.identity m'.nodeId
  switches : ∀ action : IdentityAction, action.isSwitch = true →
    ∀ m ∈ s.members, s.activeMemberId = some m.id →
    ∀ target ∈ s.members, (perform s action).activeMemberId = some target.id →
      s.identity m.nodeId = s.identity target.nodeId

/-- While another member has been cloned or one is active, the first one by priority is not
replaced by one with another identity. -/
def KeptRows (rows : List Member) : Prop :=
  ∀ first first', primaryMember s.members = some first → primaryMember rows = some first' →
    (∃ m ∈ rows, m.mirrored = true ∧ m.id ≠ first'.id) ∨ s.activeMemberId.isSome = true →
    s.identity first'.nodeId = s.identity first.nodeId

def Kept : IdentityAction → Prop
  | .mirrorIdentity _ _ => True
  | .evaluate _ _ => True
  | .forceSwitch _ _ => True
  | action => KeptRows s (s.rowsAfter action)

/-- Every cloned member, and the active one, has the identity of the first. -/
def Agreed : Prop :=
  ∀ first, primaryMember s.members = some first →
    ∀ m ∈ s.members, m.mirrored = true ∨ s.activeMemberId = some m.id →
      s.identity m.nodeId = s.identity first.nodeId

end

/-- What the keys of the tables give. -/
structure Keyed (s : IdentityPool ι) : Prop where
  ids : (s.members.map Member.id).Nodup
  nodes : (s.members.map Member.nodeId).Nodup
  active : ∀ id, s.activeMemberId = some id → ∃ m ∈ s.members, m.id = id

variable {s : IdentityPool ι} {m : Member}

theorem Keyed.ext (h : Keyed s) {m' : Member} (hM : m ∈ s.members)
    (hM' : m' ∈ s.members) (hId : m.id = m'.id) : m = m' :=
  inj_on_of_nodup_map h.ids hM hM' hId

theorem Keyed.node_ext (h : Keyed s) {m' : Member} (hM : m ∈ s.members)
    (hM' : m' ∈ s.members) (hNode : m.nodeId = m'.nodeId) : m = m' :=
  inj_on_of_nodup_map h.nodes hM hM' hNode

theorem Keyed.eligible (h : Keyed s) (hM : m ∈ eligibleCandidates s.members) :
    m ∈ s.members ∧ (primaryMember s.members = some m ∨ m.mirrored = true) := by
  obtain ⟨hMem, first, hFirst, hId | hMirrored⟩ := mem_eligible.mp hM
  · rw [h.ext hMem (mem_of_primary hFirst) hId]
    exact ⟨mem_of_primary hFirst, .inl hFirst⟩
  · exact ⟨hMem, .inr hMirrored⟩

/-- A member that may take over has the identity of the first one. -/
theorem Agreed.eligible (hKeyed : Keyed s) (hAgreed : Agreed s)
    {first : Member} (hFirst : primaryMember s.members = some first)
    (hM : m ∈ eligibleCandidates s.members) :
    s.identity m.nodeId = s.identity first.nodeId := by
  obtain ⟨hMem, hPrimary | hMirrored⟩ := hKeyed.eligible hM
  · rw [Option.mem_unique hPrimary hFirst]
  · exact hAgreed first hFirst m hMem (.inl hMirrored)

theorem forceSwitch_cases (s : IdentityPool ι) (member : Member) (moved : Bool) :
    forceSwitchMember s member moved = s ∨ ∃ target ∈ eligibleCandidates s.members,
      forceSwitchMember s member moved = { s with activeMemberId := some target.id } := by
  rw [forceSwitchMember]
  split_ifs with hEligible
  · obtain ⟨target, hTarget, hId⟩ := mem_map.mp hEligible
    cases moved with
    | false => exact .inl rfl
    | true => exact .inr ⟨target, hTarget, by rw [hId]; rfl⟩
  · exact .inl rfl

variable {action : IdentityAction}

/-- **What a switch does**: nothing, or it makes a member active that may take over. -/
theorem perform_switch (hSwitch : action.isSwitch = true) : perform s action = s ∨
      ∃ target ∈ eligibleCandidates s.members,
        perform s action = { s with activeMemberId := some target.id } := by
  cases action with
  | addMember _ _ _ | updateMember _ _ | removeMember _ | mirrorIdentity _ _ => cases hSwitch
  | evaluate healthy moved =>
    rw [perform, evaluateAndSwitch]
    split
    · exact .inl rfl
    · rename_i target rest hCandidates
      have hTarget : target ∈ eligibleCandidates s.members :=
        mem_of_mem_filter (hCandidates ▸ mem_cons_self)
      cases moved with
      | false => exact .inl rfl
      | true => exact .inr ⟨target, hTarget, rfl⟩
  | forceSwitch id moved =>
    rw [perform]
    split
    · exact .inl rfl
    · exact forceSwitch_cases s _ moved

/-- The agreement of the identities is what the front needs. -/
theorem agreed_iff_handshakes (hKeyed : Keyed s) : Agreed s ↔ Handshakes s := by
  constructor
  · intro hAgreed
    have hSame : ∀ m ∈ s.members, ∀ target ∈ eligibleCandidates s.members,
        m.mirrored = true ∨ s.activeMemberId = some m.id →
        s.identity m.nodeId = s.identity target.nodeId := by
      intro m hM target hTarget hHolds
      obtain ⟨_, first, hFirst, _⟩ := mem_eligible.mp hTarget
      rw [hAgreed first hFirst m hM hHolds, hAgreed.eligible hKeyed hFirst hTarget]
    refine ⟨fun m hM m' hM' => ?_, fun action hSwitch m hM hActive target hTarget hAfter => ?_⟩
    · obtain ⟨_, first, hFirst, _⟩ := mem_eligible.mp hM
      rw [hAgreed.eligible hKeyed hFirst hM, hAgreed.eligible hKeyed hFirst hM']
    · rcases perform_switch (s := s) hSwitch with hStill | ⟨next, hNext, hMoved⟩
      · rw [hStill, hActive] at hAfter
        rw [hKeyed.ext hM hTarget (Option.some.inj hAfter)]
      · rw [hMoved] at hAfter
        rw [← hKeyed.ext (hKeyed.eligible hNext).1 hTarget (Option.some.inj hAfter)]
        exact hSame m hM next hNext (.inr hActive)
  · intro hHandshakes first hFirst m hM hHolds
    have hFirstMem := mem_of_primary hFirst
    rcases hHolds with hMirrored | hActive
    · exact hHandshakes.eligible m (mem_eligible.mpr ⟨hM, first, hFirst, .inr hMirrored⟩)
        first (primary_eligible hFirst)
    have hFind : ∃ member, s.members.find? (fun m => m.id = first.id) = some member ∧
        member.id = first.id := by
      cases hMember : s.members.find? (fun m => m.id = first.id) with
      | none => simpa using List.find?_eq_none.mp hMember first hFirstMem
      | some member => exact ⟨member, rfl, by simpa using List.find?_some hMember⟩
    obtain ⟨member, hMember, hId⟩ := hFind
    refine hHandshakes.switches (.forceSwitch first.id true) rfl m hM hActive first hFirstMem ?_
    have hEligible : member.id ∈ (eligibleCandidates s.members).map Member.id :=
      hId ▸ mem_map_of_mem (primary_eligible hFirst)
    simp only [perform, hMember, forceSwitchMember, if_pos hEligible, switchTo]
    exact congrArg some hId

/-! ## Edits of the rows -/

/-- What every edit of the rows keeps: the keys, the rows that count, and the active member. -/
structure EditedRows (s : IdentityPool ι) (rows : List Member) : Prop where
  ids : (rows.map Member.id).Nodup
  nodes : (rows.map Member.nodeId).Nodup
  old : ∀ m ∈ rows, m.mirrored = true ∨ s.activeMemberId = some m.id →
    ∃ old ∈ s.members, old.id = m.id ∧ old.nodeId = m.nodeId ∧ old.mirrored = m.mirrored
  stays : ∀ id, s.activeMemberId = some id → ∃ m ∈ rows, m.id = id

variable {rows : List Member}

/-- **What an edit of the rows does**: the identities agree after it exactly when it keeps the
first member, or its identity. -/
theorem agreed_rows (hAgreed : Agreed s) (hEdited : EditedRows s rows) : Agreed { s with members := rows } ↔ KeptRows s rows := by
  -- a row that counts has the identity of the old first member
  have hCounts : ∀ first, primaryMember s.members = some first → ∀ m ∈ rows,
      m.mirrored = true ∨ s.activeMemberId = some m.id →
      s.identity m.nodeId = s.identity first.nodeId := by
    intro first hFirst m hM hHolds
    obtain ⟨old, hOldMem, hId, hNode, hMirrored⟩ := hEdited.old m hM hHolds
    rw [← hNode]
    exact hAgreed first hFirst old hOldMem (by rwa [hMirrored, hId])
  constructor
  · intro hAfter first first' hFirst hFirst' hHolds
    obtain ⟨m, hM, hCount⟩ : ∃ m ∈ rows, m.mirrored = true ∨ s.activeMemberId = some m.id := by
      rcases hHolds with ⟨m, hM, hMirrored, -⟩ | hActive
      · exact ⟨m, hM, .inl hMirrored⟩
      · obtain ⟨id, hId⟩ := Option.isSome_iff_exists.mp hActive
        obtain ⟨m, hM, rfl⟩ := hEdited.stays id hId
        exact ⟨m, hM, .inr hId⟩
    rw [← hAfter first' hFirst' m hM hCount]
    exact hCounts first hFirst m hM hCount
  · intro hKept first' hFirst' m hM hCount
    show s.identity m.nodeId = s.identity first'.nodeId
    by_cases hSame : m.id = first'.id
    · rw [inj_on_of_nodup_map hEdited.ids hM (mem_of_primary hFirst') hSame]
    · obtain ⟨old, hOldMem, -⟩ := hEdited.old m hM hCount
      obtain ⟨first, hFirst⟩ := exists_primary (ne_nil_of_mem hOldMem)
      rw [hCounts first hFirst m hM hCount, hKept first first' hFirst hFirst']
      rcases hCount with hMirrored | hActive
      · exact .inl ⟨m, hM, hMirrored, hSame⟩
      · exact .inr (by rw [hActive]; rfl)

theorem EditedRows.same (hKeyed : Keyed s) : EditedRows s s.members :=
  ⟨hKeyed.ids, hKeyed.nodes, fun m hM _ => ⟨m, hM, rfl, rfl, rfl⟩, hKeyed.active⟩

theorem EditedRows.keyed (h : EditedRows s rows) : Keyed { s with members := rows } := ⟨h.ids, h.nodes, h.stays⟩

/-- A change of priorities keeps the keys. -/
theorem EditedRows.reprioritized (hKeyed : Keyed s) (id priority : Nat) :
    EditedRows s (s.members.map fun m => if m.id = id then { m with priority := priority } else m)
    where
  ids := by
    rw [map_map_key fun m => by split_ifs <;> rfl]
    exact hKeyed.ids
  nodes := by
    rw [map_map_key fun m => by split_ifs <;> rfl]
    exact hKeyed.nodes
  old := by
    intro m hM _
    obtain ⟨old, hOld, rfl⟩ := mem_map.mp hM
    refine ⟨old, hOld, ?_⟩
    split_ifs <;> exact ⟨rfl, rfl, rfl⟩
  stays := by
    intro activeId hActive
    obtain ⟨m, hM, hId⟩ := hKeyed.active activeId hActive
    refine ⟨_, mem_map_of_mem hM, ?_⟩
    split_ifs <;> exact hId

/-- A new member. -/
theorem EditedRows.added (hKeyed : Keyed s) {id nodeId : Nat} (priority : Nat)
    (hFresh : id ∉ s.members.map Member.id)
    (hNode : ¬s.members.any (fun m => m.nodeId = nodeId) = true) :
    EditedRows s (s.members ++ [⟨id, nodeId, priority, false⟩]) where
  ids := by
    rw [map_append]
    refine nodup_append.mpr ⟨hKeyed.ids, nodup_singleton _, ?_⟩
    rintro a hA b hB rfl
    rw [mem_singleton.mp hB] at hA
    exact hFresh hA
  nodes := by
    rw [map_append]
    refine nodup_append.mpr ⟨hKeyed.nodes, nodup_singleton _, ?_⟩
    rintro a hA b hB rfl
    obtain ⟨m, hM, hMNode⟩ := mem_map.mp hA
    rw [mem_singleton.mp hB] at hMNode
    exact hNode (any_eq_true.mpr ⟨m, hM, decide_eq_true hMNode⟩)
  old := by
    intro m hM hCount
    rcases mem_append.mp hM with hM | hM
    · exact ⟨m, hM, rfl, rfl, rfl⟩
    · obtain rfl := mem_singleton.mp hM
      rcases hCount with hMirrored | hActive
      · cases hMirrored
      · obtain ⟨old, hOld, hId⟩ := hKeyed.active id hActive
        exact absurd (hId ▸ mem_map_of_mem hOld) hFresh
  stays := by
    intro activeId hActive
    obtain ⟨m, hM, hId⟩ := hKeyed.active activeId hActive
    exact ⟨m, mem_append_left _ hM, hId⟩

theorem EditedRows.removed (hKeyed : Keyed s) {id : Nat} (hActive : ¬s.activeMemberId = some id) :
    EditedRows s (s.members.filter fun m => m.id ≠ id) where
  ids := (filter_sublist.map Member.id).nodup hKeyed.ids
  nodes := (filter_sublist.map Member.nodeId).nodup hKeyed.nodes
  old := fun m hM _ => ⟨m, mem_of_mem_filter hM, rfl, rfl, rfl⟩
  stays := by
    intro activeId hId
    obtain ⟨m, hM, rfl⟩ := hKeyed.active activeId hId
    refine ⟨m, mem_filter.mpr ⟨hM, decide_eq_true ?_⟩, rfl⟩
    rintro rfl
    exact hActive hId

/-- The three edits as `perform` makes them. -/
theorem editedRows_rowsAfter {s' : IdentityPool ι} (hKeyed : Keyed s)
    (hStep : step s action = some s') : EditedRows s (s.rowsAfter action) := by
  cases action with
  | addMember id nodeId priority =>
    rw [step] at hStep
    split_ifs at hStep with hFresh
    rw [IdentityPool.rowsAfter]
    split_ifs with hNode
    · exact EditedRows.same hKeyed
    · exact EditedRows.added hKeyed priority hFresh hNode
  | updateMember id priority =>
    cases priority with
    | none => exact EditedRows.same hKeyed
    | some priority => exact EditedRows.reprioritized hKeyed id priority
  | removeMember id =>
    rw [IdentityPool.rowsAfter]
    split_ifs with hActive
    · exact EditedRows.same hKeyed
    · exact EditedRows.removed hKeyed hActive
  | mirrorIdentity _ _ | evaluate _ _ | forceSwitch _ _ => exact EditedRows.same hKeyed

/-! ## Cloning and switches -/

/-- **A clone gets the identity of the first member.** -/
theorem agreed_cloned (hKeyed : Keyed s) (hAgreed : Agreed s)
    {primary member : Member} (hPrimary : primaryMember s.members = some primary)
    (hMember : member ∈ s.members) (hOther : member.id ≠ primary.id) {stamp : Member → Member}
    (hStamp : ∀ m, (stamp m).id = m.id ∧ (stamp m).nodeId = m.nodeId ∧
      (stamp m).priority = m.priority ∧ (m.id ≠ member.id → (stamp m).mirrored = m.mirrored)) :
    Agreed { s with
      identity := update s.identity member.nodeId (s.identity primary.nodeId)
      members := s.members.map stamp } := by
  have hNode : primary.nodeId ≠ member.nodeId := fun hSame =>
    hOther (congrArg Member.id (hKeyed.node_ext hMember (mem_of_primary hPrimary) hSame.symm))
  intro first hFirst m hM hCount
  have hFirstEq : first = stamp primary := by
    rw [primaryMember] at hPrimary hFirst
    rw [byPriority_map stamp s.members fun m => (hStamp m).2.2.1, List.head?_map, hPrimary] at hFirst
    exact (Option.some.inj hFirst).symm
  obtain ⟨old, hOld, rfl⟩ := mem_map.mp hM
  show update s.identity _ _ (stamp old).nodeId = update s.identity _ _ first.nodeId
  rw [hFirstEq, (hStamp old).2.1, (hStamp primary).2.1, update_of_ne hNode]
  by_cases hSame : old.id = member.id
  · rw [hKeyed.ext hOld hMember hSame, update_self]
  · have hOldNode : old.nodeId ≠ member.nodeId := fun hNodes =>
      hSame (congrArg Member.id (hKeyed.node_ext hOld hMember hNodes))
    rw [update_of_ne hOldNode]
    refine hAgreed primary hPrimary old hOld ?_
    rwa [(hStamp old).2.2.2 hSame, (hStamp old).1] at hCount

theorem Keyed.stamped (hKeyed : Keyed s) {stamp : Member → Member}
    (hStamp : ∀ m, (stamp m).id = m.id ∧ (stamp m).nodeId = m.nodeId) (identity : Nat → ι) :
    Keyed { s with identity := identity, members := s.members.map stamp } where
  ids := by
    rw [map_map_key fun m => (hStamp m).1]
    exact hKeyed.ids
  nodes := by
    rw [map_map_key fun m => (hStamp m).2]
    exact hKeyed.nodes
  active := by
    intro id hActive
    obtain ⟨m, hM, hId⟩ := hKeyed.active id hActive
    exact ⟨stamp m, mem_map_of_mem hM, (hStamp m).1.trans hId⟩

/-- A mirror leaves the marked members with the identity of the first. -/
theorem sound_mirror (hKeyed : Keyed s) (hAgreed : Agreed s)
    {member : Member} (hMember : member ∈ s.members) (outcome : MirrorOutcome) :
    Keyed (mirrorMemberIdentity s member outcome) ∧
      Agreed (mirrorMemberIdentity s member outcome) := by
  rw [mirrorMemberIdentity]
  cases hPrimary : primaryMember s.members with
  | none => exact ⟨hKeyed, hAgreed⟩
  | some primary =>
    dsimp only
    split_ifs with hSelf
    · exact ⟨hKeyed, hAgreed⟩
    · cases outcome with
      | notCopied => exact ⟨hKeyed, hAgreed⟩
      | notApplied =>
        have hCloned := @agreed_cloned _ _ hKeyed hAgreed _ _ hPrimary hMember hSelf id
          fun m => ⟨rfl, rfl, rfl, fun _ => rfl⟩
        rw [map_id] at hCloned
        exact ⟨⟨hKeyed.ids, hKeyed.nodes, hKeyed.active⟩, hCloned⟩
      | done =>
        constructor
        · exact hKeyed.stamped (fun m => by split_ifs <;> exact ⟨rfl, rfl⟩) _
        · refine agreed_cloned hKeyed hAgreed hPrimary hMember hSelf fun m => ?_
          split_ifs with hId
          · exact ⟨rfl, rfl, rfl, fun hNe => absurd hId hNe⟩
          · exact ⟨rfl, rfl, rfl, fun _ => rfl⟩

theorem sound_switch (hKeyed : Keyed s) (hAgreed : Agreed s) (hSwitch : action.isSwitch = true) :
    Keyed (perform s action) ∧ Agreed (perform s action) := by
  rcases perform_switch (s := s) hSwitch with hSame | ⟨target, hTarget, hMoved⟩
  · rw [hSame]
    exact ⟨hKeyed, hAgreed⟩
  have hTargetMem := (hKeyed.eligible hTarget).1
  rw [hMoved]
  refine ⟨⟨hKeyed.ids, hKeyed.nodes, ?_⟩, ?_⟩
  · intro id hId
    exact ⟨target, hTargetMem, Option.some.inj hId⟩
  · intro first hFirst m hM hCount
    rcases hCount with hMirrored | hActive
    · exact hAgreed first hFirst m hM (.inl hMirrored)
    · rw [← hKeyed.ext hTargetMem hM (Option.some.inj hActive)]
      exact hAgreed.eligible hKeyed hFirst hTarget

/-- **The step lemma**: the identities agree after a request exactly when it keeps the first
member, or its identity. -/
theorem agreed_step {s' : IdentityPool ι} (hKeyed : Keyed s)
    (hAgreed : Agreed s) (hStep : step s action = some s') :
    Keyed s' ∧ (Agreed s' ↔ Kept s action) := by
  have hEdited := editedRows_rowsAfter hKeyed hStep
  have hRows : Keyed { s with members := s.rowsAfter action } ∧
      (Agreed { s with members := s.rowsAfter action } ↔ KeptRows s (s.rowsAfter action)) :=
    ⟨hEdited.keyed, agreed_rows hAgreed hEdited⟩
  have hSwitched : action.isSwitch = true → some (perform s action) = some s' →
      Keyed s' ∧ (Agreed s' ↔ True) := by
    intro hSwitch hPerform
    cases hPerform
    obtain ⟨hKeyed', hAgreed'⟩ := sound_switch hKeyed hAgreed hSwitch
    exact ⟨hKeyed', iff_of_true hAgreed' trivial⟩
  cases action with
  | addMember id nodeId priority =>
    rw [step] at hStep
    split_ifs at hStep
    cases hStep
    exact hRows
  | updateMember id priority | removeMember id =>
    cases hStep
    exact hRows
  | mirrorIdentity id outcome =>
    cases hStep
    rw [perform]
    cases hFind : s.members.find? fun m => m.id = id with
    | none => exact ⟨hKeyed, iff_of_true hAgreed trivial⟩
    | some member =>
      obtain ⟨hKeyed', hAgreed'⟩ :=
        sound_mirror hKeyed hAgreed (mem_of_find?_eq_some hFind) outcome
      exact ⟨hKeyed', iff_of_true hAgreed' trivial⟩
  | evaluate healthy moved | forceSwitch id moved => exact hSwitched rfl hStep

/-! ## Runs -/

/-- A pool without members, as it is created. -/
def emptyPool (identity : Nat → ι) : IdentityPool ι := ⟨[], none, identity⟩

theorem agreed_run {identity : Nat → ι} {actions : List IdentityAction}
    (hKept : Along step Kept (emptyPool identity) actions)
    (hRun : Lib.exec step (emptyPool identity) actions = some s) : Keyed s ∧ Agreed s := by
  refine @Lib.invariant_exec _ _ step (fun s => Keyed s ∧ Agreed s) Kept ?_ _ _ _ ?_ hKept hRun
  · intro s action s' hSound hKeeps hStep
    obtain ⟨hKeyed, hAgreed⟩ := agreed_step hSound.1 hSound.2 hStep
    exact ⟨hKeyed, hAgreed.mpr hKeeps⟩
  · refine ⟨⟨nodup_nil, nodup_nil, nofun⟩, fun _ _ m hM => ?_⟩
    cases hM

/-- **The front stays at one identity** in every run whose requests keep the first member, or its
identity; and the first request that does not lets it go to a server that the clients cannot
handshake with. -/
theorem handshakes_iff_kept {identity : Nat → ι} {s s' : IdentityPool ι}
    {actions : List IdentityAction} {action : IdentityAction}
    (hKept : Along step Kept (emptyPool identity) actions)
    (hRun : Lib.exec step (emptyPool identity) actions = some s)
    (hStep : step s action = some s') : Handshakes s' ↔ Kept s action := by
  obtain ⟨hKeyed, hAgreed⟩ := agreed_run hKept hRun
  obtain ⟨hKeyed', hAgreed'⟩ := agreed_step hKeyed hAgreed hStep
  rw [← agreed_iff_handshakes hKeyed', hAgreed']

/-- An edit that leaves the first member in its place keeps it. -/
theorem KeptRows.of_primary
    (h : ∀ first ∈ primaryMember s.members, primaryMember rows = some first) :
    KeptRows s rows := by
  intro first first' hFirst hFirst' _
  obtain rfl := Option.mem_unique (h first hFirst) hFirst'
  rfl

/-- Two members, of which the second one is cloned. -/
def cloneSecond : List IdentityAction :=
  [.addMember 1 11 100, .addMember 2 12 100, .mirrorIdentity 2 .done]

/-- The pool that these requests make, on nodes with identities of their own. -/
def clonedPool : IdentityPool Nat where
  members := [⟨1, 11, 100, false⟩, ⟨2, 12, 100, true⟩]
  activeMemberId := none
  identity := update id 12 11

theorem kept_cloneSecond : Along step Kept (emptyPool (id : Nat → Nat)) cloneSecond := by
  refine ⟨?_, fun s hS => ⟨?_, fun _ _ => ⟨trivial, fun _ _ => trivial⟩⟩⟩
  · intro first first' hFirst
    cases hFirst
  · cases hS
    exact KeptRows.of_primary (by decide)

theorem run_cloneSecond :
    Lib.exec step (emptyPool (id : Nat → Nat)) cloneSecond = some clonedPool := rfl

/-- The clone may become the first member. -/
theorem handshakes_clone_first :
    Handshakes (perform clonedPool (.updateMember 2 (some 0))) ↔
      Kept clonedPool (.updateMember 2 (some 0)) :=
  handshakes_iff_kept kept_cloneSecond run_cloneSecond rfl

/-- A third member, added before the two, is taken for the source of the identity. -/
theorem not_always_handshakes : ¬∀ (identity : Nat → Nat) (actions : List IdentityAction)
    (s : IdentityPool Nat), Function.Injective identity →
    Lib.exec step (emptyPool identity) actions = some s → Handshakes s := by
  intro h
  have hHandshakes := h id (cloneSecond ++ [.addMember 3 13 0]) _ injective_id rfl
  have hSame := hHandshakes.eligible ⟨3, 13, 0, false⟩ (by decide) ⟨2, 12, 100, true⟩ (by decide)
  exact absurd hSame (by decide)

end AdminPanel.Failover.Identity
