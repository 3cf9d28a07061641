import Mathlib.Data.List.Sort

/-!
# Failover pools

The rows of a pool and of its members, and which members may take over.

* `primaryMember` — the member of the least priority, the first one in the order of the rows;
* `eligibleCandidates` — the primary member and every one that has been cloned.
-/

namespace AdminPanel.Failover

/-- A member of a pool; `mirrored` says that `identity_mirrored_at` is set. -/
structure Member where
  id : Nat
  nodeId : Nat
  priority : Nat
  mirrored : Bool
  deriving DecidableEq, Repr

/-- `sorted(pool.members, key=lambda m: m.priority)` -/
def byPriority (members : List Member) : List Member :=
  members.insertionSort fun a b => a.priority ≤ b.priority

def primaryMember (members : List Member) : Option Member := (byPriority members).head?

def eligibleCandidates (members : List Member) : List Member :=
  match primaryMember members with
  | none => []
  | some primary => (byPriority members).filter fun m => m.id = primary.id || m.mirrored

variable {members : List Member} {m : Member}

theorem mem_byPriority : m ∈ byPriority members ↔ m ∈ members :=
  (List.perm_insertionSort _ members).mem_iff

theorem mem_of_primary (h : primaryMember members = some m) : m ∈ members :=
  mem_byPriority.mp (List.mem_of_head? h)

theorem exists_primary (h : members ≠ []) : ∃ m, primaryMember members = some m := by
  cases hSorted : byPriority members with
  | nil =>
    have hPerm := List.perm_insertionSort (fun a b : Member => a.priority ≤ b.priority) members
    exact absurd (List.Perm.nil_eq (hSorted ▸ hPerm)).symm h
  | cons m _ => exact ⟨m, by rw [primaryMember, hSorted]; rfl⟩

theorem mem_eligible : m ∈ eligibleCandidates members ↔ m ∈ members ∧
      ∃ primary, primaryMember members = some primary ∧ (m.id = primary.id ∨ m.mirrored = true) := by
  rw [eligibleCandidates]
  cases primaryMember members with
  | none => simp
  | some primary => simp [mem_byPriority]

theorem primary_eligible (h : primaryMember members = some m) : m ∈ eligibleCandidates members :=
  mem_eligible.mpr ⟨mem_of_primary h, m, h, Or.inl rfl⟩

/-- A change of the rows keeps a column that it does not touch. -/
theorem map_map_key {f : Member → Member} {key : Member → Nat}
    (h : ∀ m, key (f m) = key m) : (members.map f).map key = members.map key := by
  rw [List.map_map]
  exact List.map_congr_left fun m _ => h m

theorem byPriority_map (f : Member → Member) (members : List Member)
    (hPriority : ∀ m, (f m).priority = m.priority) :
    byPriority (members.map f) = (byPriority members).map f := by
  refine (List.map_insertionSort _ _ f members fun a _ b _ => ?_).symm
  rw [hPriority, hPriority]

end AdminPanel.Failover
