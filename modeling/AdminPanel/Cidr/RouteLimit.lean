import AdminPanel.Cidr.NetworkTexts
import AdminPanel.Lib.Ipv4Order
import AdminPanel.Lib.Maximal
import Mathlib.Data.Set.Card

/-!
# A list of CIDRs cut down to a limit

`_compress_cidrs_to_limit` leaves out the networks that lie in others, and the smallest of the rest
if these are still too many.

* `compressCidrsToLimit` — the list and its report;
* `IsTop` — the networks that lie in no other one;
* `Compacted` — what is left of a list.

Main result: `compressCidrsToLimit_compacted`.
-/

namespace AdminPanel.Cidr

open List

open Lib (keepMaximal)
open Lib.Ipv4 (Network)

inductive Strategy
  | supernetCompaction
  | netaddrDeduplicateOverlaps
  | netaddrTrimToLimit
  deriving DecidableEq, Repr

/-- What is reported of a list that was changed. -/
structure CompressionMeta where
  strategy : Strategy
  originalCidrCount : ℕ
  compressedCidrCount : ℕ
  targetLimit : ℕ
  deriving DecidableEq, Repr

/-- `key=lambda n: (int(n.ip), -n.prefixlen)` -/
def byAddressSmallFirst (m n : Network) : Prop :=
  m.base < n.base ∨ (m.base = n.base ∧ n.prefixLen ≤ m.prefixLen)

/-- `key=lambda n: (int(n.ip), n.prefixlen)` -/
def byAddress (m n : Network) : Prop :=
  m.base < n.base ∨ (m.base = n.base ∧ m.prefixLen ≤ n.prefixLen)

/-- `key=lambda n: (n.prefixlen, int(n.ip))` -/
def bySize (m n : Network) : Prop :=
  m.prefixLen < n.prefixLen ∨ (m.prefixLen = n.prefixLen ∧ m.base ≤ n.base)

instance : DecidableRel byAddressSmallFirst := fun _ _ => inferInstanceAs (Decidable (_ ∨ _))
instance : DecidableRel byAddress := fun _ _ => inferInstanceAs (Decidable (_ ∨ _))
instance : DecidableRel bySize := fun _ _ => inferInstanceAs (Decidable (_ ∨ _))

def nonRedundant (cidrs : List Text) : List Network :=
  keepMaximal ((normalizeCidrs cidrs).insertionSort byAddressSmallFirst)

/-- The networks that `_compress_cidrs_to_limit` returns; a limit of `0` stands for one that is
missing or not positive. -/
def compressedNetworks (cidrs : List Text) (limit : ℕ) : List Network × Option CompressionMeta :=
  let normalized := normalizeCidrs cidrs
  let kept := nonRedundant cidrs
  let trimmed := (kept.insertionSort bySize).take limit
  if normalized = [] then ([], none)
  else if limit = 0 then ([], some ⟨.supernetCompaction, normalized.length, 0, 0⟩)
  else if kept.length < normalized.length ∧ kept.length ≤ limit then
    (kept.insertionSort byAddress,
      some ⟨.netaddrDeduplicateOverlaps, normalized.length, kept.length, limit⟩)
  else if ¬ kept.length < normalized.length ∧ normalized.length ≤ limit then (normalized, none)
  else (trimmed, some ⟨.netaddrTrimToLimit, normalized.length, trimmed.length, limit⟩)

def compressCidrsToLimit (cidrs : List Text) (limit : ℕ) : List Text × Option CompressionMeta :=
  ((compressedNetworks cidrs limit).1.map networkText, (compressedNetworks cidrs limit).2)

/-- A network of the list that lies in no other one. -/
def IsTop (cidrs : List Text) (n : Network) : Prop :=
  Maximal (fun n => ∃ raw ∈ cidrs, networkOf raw = some n) n

/-- What is left of a list with a limit. -/
structure Compacted (cidrs : List Text) (limit : ℕ) (networks : List Network) : Prop where
  nodup : networks.Nodup
  tops : ∀ n ∈ networks, IsTop cidrs n
  disjoint : ∀ m ∈ networks, ∀ n ∈ networks, ∀ a : ℕ, a ∈ m → a ∈ n → m = n
  all : {n | IsTop cidrs n}.ncard ≤ limit → ∀ n, IsTop cidrs n → n ∈ networks
  covered : {n | IsTop cidrs n}.ncard ≤ limit → ∀ a : ℕ, (∃ n ∈ networks, a ∈ n) ↔
    ∃ raw ∈ cidrs, ∃ n, networkOf raw = some n ∧ a ∈ n
  full : limit < {n | IsTop cidrs n}.ncard → networks.length = limit
  largest : ∀ n ∈ networks, ∀ left, IsTop cidrs left → left ∉ networks → left.size ≤ n.size

/-! ## The networks that lie in no other one -/

variable {cidrs : List Text} {limit : ℕ} {m n : Network}

theorem isTop_iff : IsTop cidrs n ↔ Maximal (· ∈ normalizeCidrs cidrs) n := by
  simp only [IsTop, mem_normalizeCidrs]

theorem mem_nonRedundant : n ∈ nonRedundant cidrs ↔ IsTop cidrs n := by
  rw [nonRedundant, Lib.mem_keepMaximal, isTop_iff]
  simp only [mem_insertionSort]

theorem nonRedundant_nodup (cidrs : List Text) : (nonRedundant cidrs).Nodup :=
  (Lib.tops_keepMaximal _).nodup

theorem normalizeCidrs_nodup (cidrs : List Text) : (normalizeCidrs cidrs).Nodup :=
  (perm_insertionSort _ _).nodup_iff.mpr (nodup_dedup _)

theorem ncard_isTop (cidrs : List Text) :
    {n | IsTop cidrs n}.ncard = (nonRedundant cidrs).length := by
  have hSet : {n | IsTop cidrs n} = (nonRedundant cidrs).toFinset := by
    ext n
    simp [mem_nonRedundant]
  rw [hSet, Set.ncard_coe_finset, toFinset_card_of_nodup (nonRedundant_nodup cidrs)]

/-- Networks that lie in no other one have no address in common. -/
theorem eq_of_isTop (hM : IsTop cidrs m) (hN : IsTop cidrs n) {a : ℕ} (hInM : a ∈ m)
    (hInN : a ∈ n) : m = n := by
  rcases Network.nested hInM hInN with hLe | hLe
  · exact le_antisymm hLe (hM.2 hN.1 hLe)
  · exact le_antisymm (hN.2 hM.1 hLe) hLe

/-- Every address of the list is in a network that lies in no other one. -/
theorem covered_iff {a : ℕ} : (∃ n, IsTop cidrs n ∧ a ∈ n) ↔
    ∃ raw ∈ cidrs, ∃ n, networkOf raw = some n ∧ a ∈ n := by
  constructor
  · rintro ⟨n, ⟨⟨raw, hRaw, hRead⟩, -⟩, hIn⟩
    exact ⟨raw, hRaw, n, hRead, hIn⟩
  · rintro ⟨raw, hRaw, n, hRead, hIn⟩
    have hMem : n ∈ (normalizeCidrs cidrs).insertionSort byAddressSmallFirst :=
      (mem_insertionSort _).mpr (mem_normalizeCidrs.mpr ⟨raw, hRaw, hRead⟩)
    obtain ⟨m, hTop, hLe⟩ := (Lib.tops_keepMaximal _).above n hMem
    exact ⟨m, mem_nonRedundant.mp hTop, hLe a hIn⟩

/-- A list without nested networks is the list of those that lie in no other one. -/
theorem isTop_of_length (h : ¬ (nonRedundant cidrs).length < (normalizeCidrs cidrs).length) :
    n ∈ normalizeCidrs cidrs ↔ IsTop cidrs n := by
  have hSub : nonRedundant cidrs ⊆ normalizeCidrs cidrs := fun m hM =>
    (isTop_iff.mp (mem_nonRedundant.mp hM)).1
  have hPerm := (subperm_of_subset (nonRedundant_nodup cidrs) hSub).perm_of_length_le
    (Nat.le_of_not_lt h)
  rw [← hPerm.mem_iff, mem_nonRedundant]

/-! ## What is left -/

instance : Std.Total bySize := ⟨fun m n => by unfold bySize; omega⟩

instance : IsTrans Network bySize := ⟨fun l m n hLm hMn => by unfold bySize at *; omega⟩

theorem size_le_of_bySize (h : bySize m n) : n.size ≤ m.size := by
  have hLen : m.prefixLen ≤ n.prefixLen := by
    unfold bySize at h
    omega
  exact Nat.pow_le_pow_right (Nat.zero_lt_succ 1) (Nat.sub_le_sub_left hLen 32)

/-- What a cut through a sorted list leaves out is not larger than what it keeps. -/
theorem size_le_of_cut {kept : List Network} (hN : n ∈ (kept.insertionSort bySize).take limit)
    (hMem : m ∈ kept) (hOut : m ∉ (kept.insertionSort bySize).take limit) : m.size ≤ n.size := by
  have hSorted := pairwise_insertionSort bySize kept
  have hM : m ∈ kept.insertionSort bySize := (mem_insertionSort bySize).mpr hMem
  rw [← take_append_drop limit (kept.insertionSort bySize)] at hSorted hM
  have hDropped := (mem_append.mp hM).resolve_left hOut
  exact size_le_of_bySize ((pairwise_append.mp hSorted).2.2 n hN m hDropped)

/-- A list of all networks that lie in no other one. -/
theorem compacted_of_all {networks : List Network} (hNodup : networks.Nodup)
    (hAll : ∀ n, n ∈ networks ↔ IsTop cidrs n) (hLength : networks.length ≤ limit) :
    Compacted cidrs limit networks where
  nodup := hNodup
  tops n hN := (hAll n).mp hN
  disjoint m hM n hN _ hInM hInN := eq_of_isTop ((hAll m).mp hM) ((hAll n).mp hN) hInM hInN
  all _ n hN := (hAll n).mpr hN
  covered _ a := by
    rw [← covered_iff]
    exact exists_congr fun n => and_congr_left fun _ => hAll n
  full hOver := by
    have hPerm := (perm_ext_iff_of_nodup hNodup (nonRedundant_nodup cidrs)).mpr fun n =>
      (hAll n).trans mem_nonRedundant.symm
    rw [ncard_isTop, ← hPerm.length_eq] at hOver
    exact absurd hLength (Nat.not_le_of_lt hOver)
  largest _ _ left hLeft hOut := absurd ((hAll left).mpr hLeft) hOut

theorem compacted_trimmed (hOver : limit < (nonRedundant cidrs).length) :
    Compacted cidrs limit (((nonRedundant cidrs).insertionSort bySize).take limit) := by
  have hPerm := perm_insertionSort bySize (nonRedundant cidrs)
  have hSub : ∀ n ∈ ((nonRedundant cidrs).insertionSort bySize).take limit, IsTop cidrs n :=
    fun n hN => mem_nonRedundant.mp (hPerm.mem_iff.mp (mem_of_mem_take hN))
  have hNotAll : ¬ {n | IsTop cidrs n}.ncard ≤ limit := by
    rw [ncard_isTop]
    exact Nat.not_le_of_lt hOver
  refine ⟨?_, hSub, ?_, fun hLe => absurd hLe hNotAll, fun hLe => absurd hLe hNotAll, fun _ => ?_,
    ?_⟩
  · exact (hPerm.nodup_iff.mpr (nonRedundant_nodup cidrs)).sublist (take_sublist _ _)
  · exact fun m hM n hN _ hInM hInN => eq_of_isTop (hSub m hM) (hSub n hN) hInM hInN
  · rw [length_take, hPerm.length_eq]
    exact Nat.min_eq_left (Nat.le_of_lt hOver)
  · exact fun n hN left hLeft hOut => size_le_of_cut hN (mem_nonRedundant.mpr hLeft) hOut

/-- **What is left of a list** with a limit. -/
theorem compressedNetworks_compacted (cidrs : List Text) (limit : ℕ) :
    Compacted cidrs limit (compressedNetworks cidrs limit).1 := by
  have hLe : (nonRedundant cidrs).length ≤ (normalizeCidrs cidrs).length :=
    (subperm_of_subset (nonRedundant_nodup cidrs) fun n hN =>
      (isTop_iff.mp (mem_nonRedundant.mp hN)).1).length_le
  unfold compressedNetworks
  dsimp only
  split_ifs with hEmpty hZero hOverlaps hFits
  · refine compacted_of_all nodup_nil (fun n => ?_) (Nat.zero_le _)
    refine iff_of_false not_mem_nil fun hTop => ?_
    have hMem := (isTop_iff.mp hTop).1
    rw [hEmpty] at hMem
    cases hMem
  · subst hZero
    rcases Nat.eq_zero_or_pos (nonRedundant cidrs).length with hNone | hSome
    · refine compacted_of_all nodup_nil (fun n => ?_) (Nat.zero_le _)
      rw [← mem_nonRedundant, length_eq_zero_iff.mp hNone]
    · exact compacted_trimmed hSome
  · have hPerm := perm_insertionSort byAddress (nonRedundant cidrs)
    refine compacted_of_all (hPerm.nodup_iff.mpr (nonRedundant_nodup cidrs)) (fun n => ?_) ?_
    · rw [hPerm.mem_iff, mem_nonRedundant]
    · rw [hPerm.length_eq]
      exact hOverlaps.2
  · exact compacted_of_all (normalizeCidrs_nodup cidrs) (fun n => isTop_of_length hFits.1) hFits.2
  · refine compacted_trimmed ?_
    by_contra hUnder
    have hUnder := Nat.le_of_not_lt hUnder
    by_cases hLess : (nonRedundant cidrs).length < (normalizeCidrs cidrs).length
    · exact hOverlaps ⟨hLess, hUnder⟩
    · exact hFits ⟨hLess, (Nat.le_of_not_lt hLess).trans hUnder⟩

theorem Compacted.length_eq {networks : List Network} (h : Compacted cidrs limit networks) :
    networks.length = min limit {n | IsTop cidrs n}.ncard := by
  rcases Nat.lt_or_ge limit {n | IsTop cidrs n}.ncard with hOver | hFits
  · rw [h.full hOver, Nat.min_eq_left (Nat.le_of_lt hOver)]
  · rw [Nat.min_eq_right hFits, ncard_isTop]
    refine ((perm_ext_iff_of_nodup h.nodup (nonRedundant_nodup cidrs)).mpr fun n => ?_).length_eq
    rw [mem_nonRedundant]
    exact ⟨h.tops n, h.all hFits n⟩

/-- **A list is cut down to networks that lie in no other one**: to all of them, or to as many of
the largest as the limit allows. -/
theorem compressCidrsToLimit_compacted (cidrs : List Text) (limit : ℕ) :
    ∃ networks, (compressCidrsToLimit cidrs limit).1 = networks.map networkText ∧
      Compacted cidrs limit networks :=
  ⟨_, rfl, compressedNetworks_compacted cidrs limit⟩

end AdminPanel.Cidr
