import AdminPanel.Cidr.RouteLimit
import AdminPanel.Lib.Shares
import Mathlib.Data.List.Sigma

/-!
# The limit over all files

`_apply_total_route_limit` gives each file a budget and cuts its list down to it: one CIDR each for
the first files, or what is reserved for mandatory and priority files and a share of the rest.

* `prioritized`, `reservations`, `shared` — how the budgets come about;
* `applyTotalRouteLimit` — the entries with their lists cut down;
* `Fits` — what holds of the budgets;
* `WithinLimit` — what holds of the entries.

Main result: `applyTotalRouteLimit_withinLimit`.
-/

namespace AdminPanel.Cidr

open List

open Lib.PyText (strip)
open Lib.Ipv4 (Network)
open Lib.Shares (total topUp)

/-- An entry of a generation, as far as the limit goes. -/
structure Entry where
  file : Text
  cidrs : List Text
  globalRouteOptimization : Option CompressionMeta
  deriving DecidableEq, Repr

def Entry.count (entry : Entry) : ℕ := entry.cidrs.length

structure DpiOptions where
  /-- the keys of `IP_FILES` -/
  ipFiles : List Text
  priorityFiles : List Text
  mandatoryFiles : List Text
  /-- `0` for one that is no number or not positive -/
  priorityMinBudget : ℕ

/-- `_normalize_dpi_priority_files`, as a set -/
def normalizeDpiPriorityFiles (ipFiles values : List Text) : List Text :=
  ((values.map strip).filter fun fileName => fileName ∈ ipFiles && fileName ≠ []).dedup

/-- An entry and its index. -/
abbrev Slot := Entry × ℕ

namespace DpiOptions

variable (o : DpiOptions)

def mandatoryNames : List Text := normalizeDpiPriorityFiles o.ipFiles o.mandatoryFiles

def priorityNames : List Text :=
  normalizeDpiPriorityFiles o.ipFiles o.priorityFiles ++ o.mandatoryNames

def mandatory (entry : Entry) : Bool := entry.file ∈ o.mandatoryNames

def priority (entry : Entry) : Bool := entry.file ∈ o.priorityNames

end DpiOptions

/-! ## Fewer CIDRs than files -/

/-- `non_empty_indices` -/
def nonEmptySlots (entries : List Entry) : List Slot :=
  entries.zipIdx.filter fun s => s.1.cidrs ≠ []

/-- The longest lists first. -/
def byCount (slots : List Slot) : List Slot :=
  slots.insertionSort fun s t => t.1.count ≤ s.1.count

def inFront (first slots : List Slot) : List Slot :=
  first ++ (byCount slots).filter (· ∉ first)

section

variable (o : DpiOptions)

/-- `prioritized_indices` -/
def prioritized (slots : List Slot) : List Slot :=
  if o.mandatoryNames ≠ [] then inFront (byCount (slots.filter (o.mandatory ·.1))) slots
  else if o.priorityNames ≠ [] ∧ 0 < o.priorityMinBudget then
    inFront (slots.filter (o.priority ·.1)) slots
  else byCount slots

/-! ## Reservations and shares -/

structure Reserved where
  budgets : Slot → ℕ
  total : ℕ

def reserveMandatory (slots : List Slot) : Reserved where
  budgets s := if o.mandatory s.1 then 1 else 0
  total := (slots.filter (o.mandatory ·.1)).length

def reservePriority (slots : List Slot) (r : Reserved) : Reserved :=
  if o.priorityNames ≠ [] ∧ 0 < o.priorityMinBudget then
    let budgets s :=
      if o.priority s.1 then max (r.budgets s) (min s.1.count o.priorityMinBudget) else r.budgets s
    ⟨budgets, r.total + total slots fun s => budgets s - r.budgets s⟩
  else r

/-- One for each of the files with the longest lists, if the reservations exceed the limit. -/
def oneEach (limit : ℕ) (slots : List Slot) (r : Reserved) : Reserved :=
  if limit < r.total then
    let first := (byCount slots).take limit
    ⟨fun s => if s ∈ first then 1 else 0, first.length⟩
  else r

def reservations (limit : ℕ) (slots : List Slot) : Reserved :=
  oneEach limit (slots.filter (o.priority ·.1))
    (reservePriority o slots
      (oneEach limit (slots.filter (o.mandatory ·.1)) (reserveMandatory o slots)))

/-- The loop that takes back what is over the limit. -/
def takeBack (limit : ℕ) : List Slot → (Slot → ℕ) → ℕ → (Slot → ℕ) × ℕ
  | [], b, allocated => (b, allocated)
  | s :: slots, b, allocated =>
    let excess := min (b s) (allocated - limit)
    takeBack limit slots (Function.update b s (b s - excess)) (allocated - excess)

/-- `remaining_capacity` -/
def capacity (r : Reserved) (s : Slot) : ℕ := s.1.count - r.budgets s

/-- The reservations and the shares, rounded down. -/
def floorShares (limit : ℕ) (slots : List Slot) (r : Reserved) (s : Slot) : ℕ :=
  r.budgets s + min (capacity r s) (capacity r s * (limit - r.total) / total slots (capacity r))

/-- What rounding down took off a share. -/
def remainder (limit : ℕ) (slots : List Slot) (r : Reserved) (s : Slot) : ℕ :=
  capacity r s * (limit - r.total) % total slots (capacity r)

/-- The budgets, from what is reserved. The two tests of the last loop of the source on a budget
are the same one, so each file is filled up to its list. -/
def shared (limit : ℕ) (slots : List Slot) (r : Reserved) : Slot → ℕ :=
  if limit - r.total = 0 ∨ total slots (capacity r) = 0 then r.budgets
  else
    let shares := floorShares limit slots r
    let (budgets, allocated) :=
      if limit < total slots shares then
        takeBack limit (slots.insertionSort fun s t => shares t ≤ shares s) shares
          (total slots shares)
      else (shares, total slots shares)
    if allocated < limit then
      topUp limit (·.1.count)
        (slots.insertionSort fun s t => remainder limit slots r t ≤ remainder limit slots r s)
        budgets allocated
    else budgets

/-- The budget of every file that has CIDRs. -/
def budgetOf (limit : ℕ) (slots : List Slot) : Slot → ℕ :=
  if limit < slots.length then fun s => if s ∈ (prioritized o slots).take limit then 1 else 0
  else shared limit slots (reservations o limit slots)

/-! ## The entries -/

structure FileReport where
  file : Text
  originalCidrCount : ℕ
  compressedCidrCount : ℕ
  targetBudget : ℕ
  dpiPriority : Bool
  dpiMandatory : Bool
  deriving DecidableEq, Repr

structure LimitMeta where
  limit : ℕ
  originalTotalCidrCount : ℕ
  compressedTotalCidrCount : ℕ
  files : List FileReport
  droppedMandatoryFiles : List Text
  deriving DecidableEq, Repr

def limitEntry (budget : ℕ) (entry : Entry) : Entry :=
  let (cidrs, report) := compressCidrsToLimit entry.cidrs budget
  { entry with
    cidrs
    globalRouteOptimization :=
      if report.any fun r => r.compressedCidrCount < r.originalCidrCount then report
      else entry.globalRouteOptimization }

/-- `_apply_total_route_limit`; a limit of `0` stands for one that is missing or not positive -/
def applyTotalRouteLimit (entries : List Entry) (totalLimit : ℕ) : List Entry × Option LimitMeta :=
  let slots := nonEmptySlots entries
  if totalLimit = 0 ∨ total entries Entry.count ≤ totalLimit ∨ slots = [] then (entries, none)
  else
    let budget := fun s : Slot =>
      if s ∈ slots then budgetOf o totalLimit slots s else s.1.count
    let adjusted := entries.zipIdx.map fun s => limitEntry (budget s) s.1
    let kept := (adjusted.filter (·.cidrs ≠ [])).map Entry.file
    (adjusted, some
      { limit := totalLimit
        originalTotalCidrCount := total entries Entry.count
        compressedTotalCidrCount := total adjusted Entry.count
        files := entries.zipIdx.map fun s =>
          ⟨s.1.file, s.1.count, (limitEntry (budget s) s.1).count, budget s, o.priority s.1,
            o.mandatory s.1⟩
        droppedMandatoryFiles := sortedSet (o.mandatoryNames.filter (· ∉ kept)) })

/-- What is reserved for a priority file. -/
def reservation (entry : Entry) : ℕ :=
  min entry.count (max o.priorityMinBudget (if o.mandatory entry then 1 else 0))

end

/-- A list of networks that have no address in common. -/
def DisjointCidrs (cidrs : List Text) : Prop :=
  ∃ networks : List Network, cidrs.map networkOf = networks.map some ∧
    networks.Pairwise fun m n => ∀ a : ℕ, a ∈ m → a ∉ n

/-- What the limit leaves of the entries. -/
structure WithinLimit (o : DpiOptions) (entries : List Entry) (limit : ℕ) (result : List Entry) :
    Prop where
  files : result.map Entry.file = entries.map Entry.file
  networks : List.Forall₂ (fun old new => ∀ raw ∈ new.cidrs, ∃ raw' ∈ old.cidrs,
    networkOf raw = networkOf raw') entries result
  met : total result Entry.count ≤ limit
  full : limit < total entries Entry.count → (∀ entry ∈ entries, DisjointCidrs entry.cidrs) →
    total result Entry.count = limit
  mandatory :
    (entries.filter fun entry => entry.cidrs ≠ [] ∧ o.mandatory entry).length ≤ limit →
      List.Forall₂ (fun old new => o.mandatory old = true →
        (∃ raw ∈ old.cidrs, networkOf raw ≠ none) → 1 ≤ new.count) entries result
  priority : (entries.filter fun entry => entry.cidrs ≠ []).length ≤ limit →
    total (entries.filter o.priority) (reservation o) ≤ limit →
      List.Forall₂ (fun old new => o.priority old = true →
        min (reservation o old) {n | IsTop old.cidrs n}.ncard ≤ new.count) entries result

/-! ## Budgets -/

variable {o : DpiOptions} {slots first : List Slot} {limit : ℕ} {b : Slot → ℕ} {s : Slot}

/-- The budgets use up the limit, and leave what is reserved. -/
structure Fits (o : DpiOptions) (slots : List Slot) (limit : ℕ) (b : Slot → ℕ) : Prop where
  le : ∀ s ∈ slots, b s ≤ s.1.count
  total : total slots b = limit
  mandatory : (slots.filter (o.mandatory ·.1)).length ≤ limit →
    ∀ s ∈ slots, o.mandatory s.1 = true → 1 ≤ b s
  priority : slots.length ≤ limit →
    Lib.Shares.total (slots.filter (o.priority ·.1)) (fun s => reservation o s.1) ≤ limit →
      ∀ s ∈ slots, o.priority s.1 = true → reservation o s.1 ≤ b s

theorem byCount_perm (slots : List Slot) : (byCount slots).Perm slots := perm_insertionSort _ _

theorem inFront_perm (hNodup : slots.Nodup) (hFirst : first.Nodup) (hSub : first ⊆ slots) :
    (inFront first slots).Perm slots := by
  have hRest := ((byCount_perm slots).nodup_iff.mpr hNodup).filter (· ∉ first)
  refine (perm_ext_iff_of_nodup (hFirst.append hRest fun s hMem hOut => ?_) hNodup).mpr
    fun s => ?_
  · exact of_decide_eq_true (mem_filter.mp hOut).2 hMem
  · rw [mem_append, mem_filter, (byCount_perm slots).mem_iff, decide_eq_true_eq]
    constructor
    · rintro (hMem | hMem)
      · exact hSub hMem
      · exact hMem.1
    · exact fun hMem => (Decidable.em (s ∈ first)).imp_right fun hNot => ⟨hMem, hNot⟩

theorem prioritized_perm (hNodup : slots.Nodup) : (prioritized o slots).Perm slots := by
  unfold prioritized
  split_ifs
  · have hPerm := byCount_perm (slots.filter (o.mandatory ·.1))
    exact inFront_perm hNodup (hPerm.nodup_iff.mpr (hNodup.filter _))
      fun s hMem => (mem_filter.mp (hPerm.mem_iff.mp hMem)).1
  · exact inFront_perm hNodup (hNodup.filter _) (filter_subset_self _)
  · exact byCount_perm slots

/-- One for each of some of the slots. -/
theorem total_members (hNodup : slots.Nodup) (hFirst : first.Nodup) (hSub : first ⊆ slots) :
    total slots (fun s => if s ∈ first then 1 else 0) = first.length := by
  rw [Lib.Shares.total_indicator]
  refine List.Perm.length_eq ((perm_ext_iff_of_nodup (hNodup.filter _) hFirst).mpr fun s => ?_)
  rw [mem_filter, decide_eq_true_eq]
  exact and_iff_right_of_imp fun hMem => hSub hMem

/-- Fewer CIDRs than files: one for each of the first files by priority. -/
theorem fits_few (hNodup : slots.Nodup) (hSome : ∀ s ∈ slots, 1 ≤ s.1.count)
    (hFew : limit < slots.length) :
    Fits o slots limit fun s => if s ∈ (prioritized o slots).take limit then 1 else 0 where
  le s hMem := by
    have hCount := hSome s hMem
    split_ifs <;> omega
  total := by
    have hPerm := prioritized_perm (o := o) hNodup
    rw [total_members hNodup ((hPerm.nodup_iff.mpr hNodup).sublist (take_sublist _ _))
      fun s hMem => hPerm.mem_iff.mp (mem_of_mem_take hMem), length_take,
      hPerm.length_eq, Nat.min_eq_left (Nat.le_of_lt hFew)]
  mandatory hRoom s hMem hMandatory := by
    have hNames : o.mandatoryNames ≠ [] := ne_nil_of_mem (of_decide_eq_true hMandatory)
    have hPerm := byCount_perm (slots.filter (o.mandatory ·.1))
    have hIn : s ∈ (prioritized o slots).take limit := by
      rw [prioritized, if_pos hNames, inFront, take_append,
        take_of_length_le (hPerm.length_eq.trans_le hRoom)]
      exact mem_append_left _ (hPerm.mem_iff.mpr (mem_filter.mpr ⟨hMem, hMandatory⟩))
    rw [if_pos hIn]
  priority hMany := absurd hMany (Nat.not_le_of_lt hFew)

variable {r : Reserved}

/-- What the reservations come to. -/
structure Reserves (o : DpiOptions) (slots : List Slot) (limit : ℕ) (r : Reserved) : Prop where
  le : ∀ s ∈ slots, r.budgets s ≤ s.1.count
  total : total slots r.budgets = r.total
  room : r.total ≤ limit
  mandatory : ∀ s ∈ slots, o.mandatory s.1 = true → 1 ≤ r.budgets s
  priority : Lib.Shares.total (slots.filter (o.priority ·.1)) (fun s => reservation o s.1) ≤ limit →
    ∀ s ∈ slots, o.priority s.1 = true → reservation o s.1 ≤ r.budgets s

theorem oneEach_of_le (h : r.total ≤ limit) : oneEach limit slots r = r :=
  if_neg (Nat.not_lt_of_le h)

theorem priority_of_mandatory {entry : Entry} (h : o.mandatory entry = true) :
    o.priority entry = true :=
  decide_eq_true (mem_append_right _ (of_decide_eq_true h))

/-- Both rounds of reservations together. -/
theorem reservePriority_budgets (hSome : 1 ≤ s.1.count) :
    (reservePriority o slots (reserveMandatory o slots)).budgets s =
      if o.priority s.1 then reservation o s.1 else 0 := by
  have hMandatory : (reserveMandatory o slots).budgets s = if o.mandatory s.1 then 1 else 0 := rfl
  unfold reservePriority reservation
  by_cases hPriority : o.priority s.1 = true
  · have hNames : o.priorityNames ≠ [] := ne_nil_of_mem (of_decide_eq_true hPriority)
    split_ifs with hGuard hOne hOne <;> simp only [hPriority, hMandatory, hOne, if_true] <;> grind
  · have hNot : o.mandatory s.1 ≠ true := fun hTrue => hPriority (priority_of_mandatory hTrue)
    split_ifs <;> simp [hPriority, hMandatory, hNot]

theorem reserveMandatory_total (o : DpiOptions) (slots : List Slot) :
    total slots (reserveMandatory o slots).budgets = (reserveMandatory o slots).total :=
  (Lib.Shares.total_indicator _).trans (by simp [reserveMandatory])

theorem reservePriority_total (h : total slots r.budgets = r.total) :
    total slots (reservePriority o slots r).budgets = (reservePriority o slots r).total := by
  unfold reservePriority
  split_ifs
  · dsimp only
    rw [← h, Nat.add_comm, Lib.Shares.total_sub]
    intro s _
    split_ifs
    · exact Nat.le_max_left _ _
    · exact le_rfl
  · exact h

/-- What the reservations come to if there is room for a CIDR of each file. -/
theorem reserves_reservations (hNodup : slots.Nodup) (hSome : ∀ s ∈ slots, 1 ≤ s.1.count)
    (hMany : slots.length ≤ limit) : Reserves o slots limit (reservations o limit slots) := by
  set reserved := reservePriority o slots (reserveMandatory o slots) with hReserved
  have hFirst : (reserveMandatory o slots).total ≤ limit :=
    (length_filter_le _ _).trans hMany
  have hBudgets : ∀ s ∈ slots,
      reserved.budgets s = if o.priority s.1 then reservation o s.1 else 0 :=
    fun s hMem => reservePriority_budgets (hSome s hMem)
  have hTotal : total slots reserved.budgets = reserved.total :=
    reservePriority_total (reserveMandatory_total o slots)
  unfold reservations
  rw [oneEach_of_le hFirst, ← hReserved]
  rcases Nat.lt_or_ge limit reserved.total with hOver | hRoom
  · -- The limit leaves one for each of the priority files.
    set chosen := slots.filter (o.priority ·.1) with hChosen
    have hLength : chosen.length ≤ limit := (length_filter_le _ _).trans hMany
    have hPerm := byCount_perm chosen
    have hTake : (byCount chosen).take limit = byCount chosen :=
      take_of_length_le (hPerm.length_eq.trans_le hLength)
    have hMember : ∀ s, s ∈ byCount chosen ↔ s ∈ slots ∧ o.priority s.1 = true := fun s =>
      hPerm.mem_iff.trans mem_filter
    rw [oneEach, if_pos hOver, hTake]
    refine ⟨fun s hMem => ?_, ?_, hPerm.length_eq.trans_le hLength, fun s hMem hMandatory => ?_,
      fun hFits => ?_⟩
    · have hCount := hSome s hMem
      dsimp only
      split_ifs <;> omega
    · exact total_members hNodup (hPerm.nodup_iff.mpr (hNodup.filter _))
        fun s hMem => ((hMember s).mp hMem).1
    · exact (if_pos ((hMember s).mpr ⟨hMem, priority_of_mandatory hMandatory⟩)).ge
    · have hSum : total slots reserved.budgets = total chosen fun s => reservation o s.1 := by
        rw [← Lib.Shares.total_filter (o.priority ·.1)]
        · refine Lib.Shares.total_congr fun s hMem => ?_
          obtain ⟨hMem, hPriority⟩ := mem_filter.mp hMem
          rw [hBudgets s hMem, if_pos hPriority]
        · intro s hMem hNot
          rw [hBudgets s hMem, if_neg (by rw [hNot]; exact Bool.false_ne_true)]
      exact absurd hFits (Nat.not_le_of_lt ((hTotal.symm.trans hSum) ▸ hOver))
  · rw [oneEach_of_le hRoom]
    refine ⟨fun s hMem => ?_, hTotal, hRoom, fun s hMem hMandatory => ?_,
      fun _ s hMem hPriority => ?_⟩
    · rw [hBudgets s hMem]
      split_ifs
      · exact Nat.min_le_left _ _
      · exact Nat.zero_le _
    · have hCount := hSome s hMem
      rw [hBudgets s hMem, if_pos (priority_of_mandatory hMandatory), reservation,
        if_pos hMandatory]
      omega
    · rw [hBudgets s hMem, if_pos hPriority]

theorem floorShares_bounds (limit : ℕ) (slots : List Slot) (hLe : r.budgets s ≤ s.1.count) :
    r.budgets s ≤ floorShares limit slots r s ∧ floorShares limit slots r s ≤ s.1.count := by
  refine ⟨Nat.le_add_right _ _, ?_⟩
  calc floorShares limit slots r s
    _ ≤ r.budgets s + capacity r s := Nat.add_le_add_left (Nat.min_le_left _ _) _
    _ = s.1.count := Nat.add_sub_cancel' hLe

/-- Shares that are rounded down stay below the limit. -/
theorem total_floorShares_le (hTotal : total slots r.budgets = r.total) (hRoom : r.total ≤ limit)
    (hSome : total slots (capacity r) ≠ 0) : total slots (floorShares limit slots r) ≤ limit := by
  have hShares : (total slots fun s => min (capacity r s)
      (capacity r s * (limit - r.total) / total slots (capacity r))) ≤ limit - r.total := calc
    _ ≤ total slots fun s => capacity r s * (limit - r.total) / total slots (capacity r) :=
      Lib.Shares.total_mono fun s _ => Nat.min_le_right _ _
    _ ≤ total slots (capacity r) * (limit - r.total) / total slots (capacity r) :=
      Lib.Shares.total_floor_le ..
    _ = limit - r.total := Nat.mul_div_cancel_left _ (Nat.pos_of_ne_zero hSome)
  have hSum : total slots (floorShares limit slots r) = r.total + total slots fun s =>
      min (capacity r s) (capacity r s * (limit - r.total) / total slots (capacity r)) :=
    (Lib.Shares.total_add ..).trans (congrArg (· + _) hTotal)
  omega

/-- The shares fill the limit up. -/
theorem total_shared (hNodup : slots.Nodup) (hLe : ∀ s ∈ slots, r.budgets s ≤ s.1.count)
    (hTotal : total slots r.budgets = r.total) (hRoom : r.total ≤ limit)
    (hOver : limit < total slots (·.1.count)) :
    total slots (shared limit slots r) = limit ∧
      ∀ s ∈ slots, r.budgets s ≤ shared limit slots r s ∧ shared limit slots r s ≤ s.1.count := by
  have hRest : total slots (capacity r) + r.total = total slots (·.1.count) := by
    rw [← hTotal]
    exact Lib.Shares.total_sub hLe
  unfold shared
  by_cases hNone : limit - r.total = 0 ∨ total slots (capacity r) = 0
  · rw [if_pos hNone]
    exact ⟨by omega, fun s hMem => ⟨le_rfl, hLe s hMem⟩⟩
  have hFloor := total_floorShares_le hTotal hRoom fun hZero => hNone (.inr hZero)
  have hBounds := fun s hMem => floorShares_bounds limit slots (hLe s hMem)
  rw [if_neg hNone]
  dsimp only
  rw [if_neg (Nat.not_lt_of_le hFloor)]
  dsimp only
  split_ifs with hLess
  · have hLeft := Lib.Shares.total_sub fun s hMem => (hBounds s hMem).2
    have hPerm := perm_insertionSort
      (fun s t => remainder limit slots r t ≤ remainder limit slots r s) slots
    refine ⟨?_, fun s hMem => ⟨(hBounds s hMem).1.trans Lib.Shares.le_topUp,
      Lib.Shares.topUp_le (hBounds s hMem).2⟩⟩
    rw [← Lib.Shares.total_perm hPerm, Lib.Shares.total_topUp (hPerm.nodup_iff.mpr hNodup),
      Lib.Shares.total_perm hPerm, Lib.Shares.total_perm hPerm]
    omega
  · exact ⟨by omega, hBounds⟩

theorem fits_budgetOf (hNodup : slots.Nodup) (hSome : ∀ s ∈ slots, 1 ≤ s.1.count)
    (hOver : limit < total slots (·.1.count)) :
    Fits o slots limit (budgetOf o limit slots) := by
  unfold budgetOf
  split_ifs with hFew
  · exact fits_few hNodup hSome hFew
  · have hMany := Nat.le_of_not_lt hFew
    have h := reserves_reservations (o := o) hNodup hSome hMany
    obtain ⟨hTotal, hBound⟩ := total_shared hNodup h.le h.total h.room hOver
    exact ⟨fun s hMem => (hBound s hMem).2, hTotal,
      fun _ s hMem hMandatory => (h.mandatory s hMem hMandatory).trans (hBound s hMem).1,
      fun _ hFits s hMem hPriority => (h.priority hFits s hMem hPriority).trans (hBound s hMem).1⟩

/-! ## Entries -/

variable {entries : List Entry} {entry : Entry} {cidrs : List Text}

theorem total_fst (l : List Slot) (f : Entry → ℕ) : total l (f ·.1) = total (l.map Prod.fst) f :=
  congrArg List.sum (map_map ..).symm

theorem fst_zipIdx (entries : List Entry) : entries.zipIdx.map Prod.fst = entries :=
  zipIdx_map_fst ..

theorem fst_nonEmptySlots (entries : List Entry) :
    (nonEmptySlots entries).map Prod.fst = entries.filter fun entry => entry.cidrs ≠ [] := by
  conv_rhs => rw [← fst_zipIdx entries, filter_map]
  rfl

theorem nodup_nonEmptySlots (entries : List Entry) : (nonEmptySlots entries).Nodup :=
  (List.Nodup.of_map _ (nodup_zipIdx_map_snd entries)).filter _

/-- Files without CIDRs add nothing. -/
theorem total_nonEmptySlots {f : Slot → ℕ} (h : ∀ s ∈ entries.zipIdx, s.1.cidrs = [] → f s = 0) :
    total (nonEmptySlots entries) f = total entries.zipIdx f :=
  Lib.Shares.total_filter _ fun s hMem hEmpty => h s hMem (by simpa using hEmpty)

theorem forall₂_adjusted {R : Entry → Entry → Prop} {g : Slot → Entry}
    (h : ∀ s ∈ entries.zipIdx, R s.1 (g s)) : List.Forall₂ R entries (entries.zipIdx.map g) := by
  conv_lhs => rw [← fst_zipIdx entries]
  rw [List.forall₂_map_left_iff, List.forall₂_map_right_iff, List.forall₂_same]
  exact h

theorem limitEntry_count (budget : ℕ) (entry : Entry) :
    (limitEntry budget entry).count = min budget {n | IsTop entry.cidrs n}.ncard := by
  rw [← (compressedNetworks_compacted entry.cidrs budget).length_eq]
  exact length_map _

theorem limitEntry_networks (budget : ℕ) (entry : Entry) :
    ∀ raw ∈ (limitEntry budget entry).cidrs, ∃ raw' ∈ entry.cidrs,
      networkOf raw = networkOf raw' := by
  intro raw hRaw
  obtain ⟨n, hMem, rfl⟩ := mem_map.mp hRaw
  obtain ⟨old, hOld, hRead⟩ := ((compressedNetworks_compacted entry.cidrs budget).tops n hMem).1
  have hPositive : n.prefixLen ≠ 0 := of_decide_eq_true (Option.filter_eq_some_iff.mp hRead).2
  exact ⟨old, hOld, (networkOf_networkText hPositive).trans hRead.symm⟩

theorem isTop_pos (h : ∃ raw ∈ cidrs, networkOf raw ≠ none) : 1 ≤ {n | IsTop cidrs n}.ncard := by
  obtain ⟨raw, hRaw, hSome⟩ := h
  obtain ⟨n, hRead⟩ := Option.ne_none_iff_exists'.mp hSome
  obtain ⟨m, hTop, -⟩ := covered_iff.mpr ⟨raw, hRaw, n, hRead, n.base_mem⟩
  rw [ncard_isTop]
  exact length_pos_of_mem (mem_nonRedundant.mpr hTop)

/-- Disjoint networks all lie in no other one. -/
theorem ncard_of_disjoint (h : DisjointCidrs cidrs) : {n | IsTop cidrs n}.ncard = cidrs.length := by
  obtain ⟨networks, hNetworks, hApart⟩ := h
  have hMem : ∀ n, (∃ raw ∈ cidrs, networkOf raw = some n) ↔ n ∈ networks := fun n => by
    rw [← mem_map, hNetworks, mem_map_of_injective (Option.some_injective _)]
  have : Std.Symm fun m n : Network => ∀ a : ℕ, a ∈ m → a ∉ n :=
    ⟨fun _ _ h a hIn hIn' => h a hIn' hIn⟩
  have hNe : ∀ m n : Network, (∀ a : ℕ, a ∈ m → a ∉ n) → m ≠ n := fun m n h hSame =>
    h m.base m.base_mem (hSame ▸ m.base_mem)
  have hNodup : networks.Nodup := List.Pairwise.imp (hNe _ _) hApart
  have hSet : {n | IsTop cidrs n} = networks.toFinset := by
    ext n
    rw [coe_toFinset, Set.mem_ofPred_eq, Set.mem_ofPred_eq, IsTop]
    simp only [hMem]
    refine ⟨fun hTop => hTop.1, fun hIn => ⟨hIn, fun m hM hLe => ?_⟩⟩
    by_contra hNot
    exact hApart.forall hIn hM (fun hSame => hNot hSame.ge) n.base n.base_mem (hLe _ n.base_mem)
  have hLength := congrArg List.length hNetworks
  rw [length_map, length_map] at hLength
  rw [hSet, Set.ncard_coe_finset, toFinset_card_of_nodup hNodup, hLength]

theorem mem_nonEmptySlots : s ∈ nonEmptySlots entries ↔ s ∈ entries.zipIdx ∧ s.1.cidrs ≠ [] :=
  mem_filter.trans (and_congr_right fun _ => decide_eq_true_iff)

theorem filter_nonEmptySlots (entries : List Entry) (p : Entry → Bool) :
    ((nonEmptySlots entries).filter (p ·.1)).map Prod.fst =
      (entries.filter p).filter fun entry => entry.cidrs ≠ [] := by
  rw [filter_comm, ← fst_nonEmptySlots, filter_map]
  rfl

/-- Entries within the limit stay. -/
theorem withinLimit_self (h : total entries Entry.count ≤ limit) :
    WithinLimit o entries limit entries where
  files := rfl
  networks := List.forall₂_same.mpr fun _ _ raw hRaw => ⟨raw, hRaw, rfl⟩
  met := h
  full hOver := absurd h (Nat.not_le_of_lt hOver)
  mandatory _ := List.forall₂_same.mpr fun _ _ _ ⟨_, hRaw, _⟩ => length_pos_of_mem hRaw
  priority _ _ := List.forall₂_same.mpr fun _ _ _ =>
    (Nat.min_le_left _ _).trans (Nat.min_le_left _ _)

/-- Budgets that fit, applied to the files that have CIDRs. -/
theorem withinLimit_adjusted (h : Fits o (nonEmptySlots entries) limit b) :
    WithinLimit o entries limit (entries.zipIdx.map fun s =>
      limitEntry (if s ∈ nonEmptySlots entries then b s else s.1.count) s.1) := by
  set g : Slot → Entry := fun s =>
    limitEntry (if s ∈ nonEmptySlots entries then b s else s.1.count) s.1
  -- redundant networks go first, so a list can stay below its budget
  have hCount : ∀ s ∈ nonEmptySlots entries,
      (g s).count = min (b s) {n | IsTop s.1.cidrs n}.ncard := fun s hMem =>
    (limitEntry_count _ _).trans (by rw [if_pos hMem])
  have hEmpty : ∀ s ∈ entries.zipIdx, s.1.cidrs = [] → (g s).count = 0 := fun s _ hNone => by
    have hOut : s ∉ nonEmptySlots entries := fun hMem => (mem_nonEmptySlots.mp hMem).2 hNone
    have hZero : s.1.count = 0 := congrArg List.length hNone
    exact (limitEntry_count _ _).trans (by rw [if_neg hOut, hZero, Nat.zero_min])
  -- files without CIDRs do not count
  have hTotal : total (entries.zipIdx.map g) Entry.count =
      total (nonEmptySlots entries) fun s => min (b s) {n | IsTop s.1.cidrs n}.ncard := calc
    total (entries.zipIdx.map g) Entry.count = total entries.zipIdx fun s => (g s).count :=
      congrArg List.sum map_map
    _ = total (nonEmptySlots entries) fun s => (g s).count := (total_nonEmptySlots hEmpty).symm
    _ = _ := Lib.Shares.total_congr hCount
  refine ⟨?_, forall₂_adjusted fun s _ => limitEntry_networks _ _, ?_, fun _ hDisjoint => ?_,
    fun hRoom => forall₂_adjusted fun s hMem hMandatory hSome => ?_,
    fun hMany hFits => forall₂_adjusted fun s hMem hPriority => ?_⟩
  · conv_rhs => rw [← fst_zipIdx entries]
    rw [map_map, map_map]
    rfl
  · rw [hTotal]
    exact (Lib.Shares.total_mono fun s _ => Nat.min_le_left _ _).trans h.total.le
  · rw [hTotal, ← h.total]
    refine Lib.Shares.total_congr fun s hMem => ?_
    have hEntry : s.1 ∈ entries := fst_mem_of_mem_zipIdx (mem_nonEmptySlots.mp hMem).1
    rw [ncard_of_disjoint (hDisjoint s.1 hEntry)]
    exact Nat.min_eq_left (h.le s hMem)
  · have hSlot := mem_nonEmptySlots.mpr ⟨hMem, ne_nil_of_mem hSome.choose_spec.1⟩
    rw [hCount s hSlot]
    refine le_min (h.mandatory ?_ s hSlot hMandatory) (isTop_pos hSome)
    rw [← length_map, filter_nonEmptySlots, filter_filter]
    simpa using hRoom
  · by_cases hNone : s.1.cidrs = []
    · have hZero : s.1.count = 0 := congrArg List.length hNone
      rw [reservation, hZero, Nat.zero_min, Nat.zero_min]
      exact Nat.zero_le _
    have hSlot := mem_nonEmptySlots.mpr ⟨hMem, hNone⟩
    rw [hCount s hSlot]
    refine min_le_min_right _ (h.priority ?_ ?_ s hSlot hPriority)
    · rw [← length_map, fst_nonEmptySlots]
      exact hMany
    · rw [total_fst, filter_nonEmptySlots, Lib.Shares.total_filter]
      · exact hFits
      · intro entry _ hFalse
        have hZero : entry.count = 0 :=
          congrArg List.length (not_not.mp (of_decide_eq_false hFalse))
        rw [reservation, hZero, Nat.zero_min]

/-- **The limit is met and used up, and the priorities are kept.** -/
theorem applyTotalRouteLimit_withinLimit (o : DpiOptions) (entries : List Entry) (limit : ℕ)
    (hLimit : 0 < limit) :
    WithinLimit o entries limit (applyTotalRouteLimit o entries limit).1 := by
  have hSum : total (nonEmptySlots entries) (·.1.count) = total entries Entry.count := calc
    _ = total entries.zipIdx (·.1.count) :=
      total_nonEmptySlots fun s _ hNone => congrArg List.length hNone
    _ = total entries Entry.count := (total_fst _ _).trans (by rw [fst_zipIdx])
  unfold applyTotalRouteLimit
  dsimp only
  split_ifs with hUnchanged
  · refine withinLimit_self ?_
    rcases hUnchanged with hZero | hUnder | hNone
    · exact absurd hZero hLimit.ne'
    · exact hUnder
    · rw [← hSum, hNone]
      exact Nat.zero_le _
  · rw [not_or, not_or, Nat.not_le] at hUnchanged
    refine withinLimit_adjusted (fits_budgetOf (nodup_nonEmptySlots entries) (fun s hMem => ?_) ?_)
    · exact length_pos_iff.mpr (mem_nonEmptySlots.mp hMem).2
    · rw [hSum]
      exact hUnchanged.2.1

/-- `akamai` has a network inside another one. -/
def nestedOptions : DpiOptions where
  ipFiles := ["akamai".toList, "aws".toList]
  priorityFiles := ["akamai".toList]
  mandatoryFiles := []
  priorityMinBudget := 2

def nestedEntries : List Entry :=
  [⟨"akamai".toList, ["10.0.0.0/8".toList, "10.1.0.0/16".toList], none⟩,
    ⟨"aws".toList, ["3.0.0.0/16".toList, "5.0.0.0/16".toList], none⟩]

theorem applyTotalRouteLimit_withinLimit_three : 0 < 3 ∧ WithinLimit nestedOptions nestedEntries 3
    (applyTotalRouteLimit nestedOptions nestedEntries 3).1 :=
  ⟨by decide, applyTotalRouteLimit_withinLimit nestedOptions nestedEntries 3 (by decide)⟩

/-- A priority file may keep fewer than are reserved for it. -/
theorem not_always_reserved : ¬ ∀ (o : DpiOptions) (entries : List Entry) (limit : ℕ), 0 < limit →
    (∀ entry ∈ entries, ∀ raw ∈ entry.cidrs, networkOf raw ≠ none) →
    (entries.filter fun entry => entry.cidrs ≠ []).length ≤ limit →
    total (entries.filter o.priority) (reservation o) ≤ limit →
      List.Forall₂ (fun old new => o.priority old = true → reservation o old ≤ new.count) entries
        (applyTotalRouteLimit o entries limit).1 := by
  intro h
  have hKept := h nestedOptions nestedEntries 3 (by decide) (by decide) (by decide)
    (by decide)
  have hFirst := (List.forall₂_cons.mp hKept).1 (by decide)
  exact absurd hFirst (by decide)

end AdminPanel.Cidr
