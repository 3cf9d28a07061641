import AdminPanel.Cidr.NetworkTexts
import AdminPanel.Lib.IntervalIndex
import AdminPanel.Lib.Ipv4Order
import AdminPanel.Lib.Ipv6
import Mathlib.Data.Prod.Lex
import Mathlib.Algebra.Order.Group.Int

/-!
# The index behind the antifilter and the RU exclusion

`antifilter.py` and `geo.py`: the networks of a list as ranges of numbers, sorted by their start.

* `cidrOverlapsIndex`, `cidrContainedInIndex` — what the index answers;
* `excludeRuCountryCidrs` — the CIDRs without those that lie in a Russian network;
* `index_answers` — the index answers as the networks themselves;
* `Undivided` — no two networks of a list are the halves of one.

Main results: `index_is_plain`, `excludes_russian`.
-/

namespace AdminPanel.Cidr

open List

open Lib.Ipv4 (Network)
open Lib.IntervalIndex (reaches scanMax)

/-! ## The index -/

/-- The networks of either family that go into the index. -/
def indexed (cidrStrs : List Text) : List Lib.Ip.Network :=
  (cidrStrs.filterMap Lib.Ip.parseNetwork).filter fun net => 0 < net.prefixLen

structure OverlapIndex where
  ranges : List (ℤ × ℤ)
  starts : List ℤ
  maxEnds : List ℤ
  deriving DecidableEq

/-- `ranges.sort()` -/
def sortRanges (ranges : List (ℤ × ℤ)) : List (ℤ × ℤ) :=
  ((ranges.map toLex).insertionSort (· ≤ ·)).map ofLex

def buildAntifilterOverlapIndex (cidrStrs : List Text) : OverlapIndex :=
  let ranges := sortRanges ((indexed cidrStrs).map fun net => ((net.first : ℤ), (net.last : ℤ)))
  ⟨ranges, ranges.map Prod.fst, scanMax (-1) (ranges.map Prod.snd)⟩

def cidrOverlapsIndex (cidr : Text) (index : OverlapIndex) : Bool :=
  if index.ranges = [] then false
  else
    (Lib.Ip.parseNetwork cidr).any fun net =>
      reaches index.starts index.maxEnds net.last net.first

def cidrContainedInIndex (cidr : Text) (index : OverlapIndex) : Bool :=
  if index.ranges = [] then false
  else
    (Lib.Ip.parseNetwork cidr).any fun net =>
      reaches index.starts index.maxEnds net.first net.last

/-- The CIDRs that a generation with the antifilter keeps. -/
def antifilterStep (index : OverlapIndex) (cidrs : List Text) : List Text :=
  cidrs.filter (cidrOverlapsIndex · index)

/-! ## The RU exclusion -/

/-- The index of a list of RU networks, as `_get_ru_cidr_index` builds it. -/
def ruCidrIndex (networks : List Network) : OverlapIndex :=
  buildAntifilterOverlapIndex (networks.map networkText)

/-- What the exclusion reports. -/
inductive RuExclusion
  | sourceUnavailable (error : Text)
  | applied (removedCidrCount resultCidrCount : ℕ)
  deriving DecidableEq, Repr

def excludeRuCountryCidrs (ruIndex : Except Text OverlapIndex) (cidrs : List Text) :
    List Text × Option RuExclusion :=
  if cidrs = [] then (cidrs, none)
  else
    match ruIndex with
    | .error error => (cidrs, if error = [] then none else some (.sourceUnavailable error))
    | .ok index =>
      let filtered := sortedSet (cidrs.filter fun value => !cidrContainedInIndex value index)
      let removedCount := (cidrs.filter (cidrContainedInIndex · index)).length
      (filtered, if removedCount = 0 then none else some (.applied removedCount filtered.length))

/-! ## What the index answers -/

variable {cidrStrs cidrs : List Text} {cidr : Text} {x y : ℤ}

theorem mem_sortRanges {ranges : List (ℤ × ℤ)} {r : ℤ × ℤ} :
    r ∈ sortRanges ranges ↔ r ∈ ranges := by
  have hPerm := (perm_insertionSort (· ≤ ·) (ranges.map toLex)).map ofLex
  rw [map_map] at hPerm
  exact (hPerm.trans (List.Perm.of_eq (map_id ranges))).mem_iff

theorem sortRanges_sorted (ranges : List (ℤ × ℤ)) : (sortRanges ranges).Pairwise (·.1 ≤ ·.1) := by
  refine pairwise_map.mpr ?_
  refine (pairwise_insertionSort (· ≤ ·) _).imp fun hLe => ?_
  exact Prod.Lex.monotone_fst _ _ hLe

theorem build_reaches (hY : 0 ≤ y) :
    reaches (buildAntifilterOverlapIndex cidrStrs).starts
        (buildAntifilterOverlapIndex cidrStrs).maxEnds x y = true ↔
      ∃ n ∈ indexed cidrStrs, (n.first : ℤ) ≤ x ∧ y ≤ n.last := by
  have hLeast : ¬ y ≤ -1 := by omega
  refine (Lib.IntervalIndex.reaches_iff (sortRanges_sorted _) hLeast).trans ?_
  constructor
  · rintro ⟨r, hMem, hStart, hEnd⟩
    obtain ⟨n, hN, rfl⟩ := mem_map.mp (mem_sortRanges.mp hMem)
    exact ⟨n, hN, hStart, hEnd⟩
  · rintro ⟨n, hN, hStart, hEnd⟩
    exact ⟨_, mem_sortRanges.mpr (mem_map_of_mem hN), hStart, hEnd⟩

theorem ranges_eq_nil (h : (buildAntifilterOverlapIndex cidrStrs).ranges = []) :
    indexed cidrStrs = [] := by
  refine eq_nil_iff_forall_not_mem.mpr fun n hN => ?_
  have hMem := mem_sortRanges.mpr
    (mem_map_of_mem (f := fun net : Lib.Ip.Network => ((net.first : ℤ), (net.last : ℤ))) hN)
  rw [show sortRanges _ = [] from h] at hMem
  cases hMem

theorem answer_iff {p : Lib.Ip.Network → Bool} {P : Lib.Ip.Network → Lib.Ip.Network → Prop}
    (hAnswer : ∀ q, p q = true ↔ ∃ n ∈ indexed cidrStrs, P n q) :
    (if (buildAntifilterOverlapIndex cidrStrs).ranges = [] then false
      else (Lib.Ip.parseNetwork cidr).any p) = true ↔
      ∃ q, Lib.Ip.parseNetwork cidr = some q ∧ ∃ n ∈ indexed cidrStrs, P n q := by
  split_ifs with hNone
  · refine iff_of_false (fun hFalse => hFalse) ?_
    rintro ⟨q, -, n, hN, -⟩
    rw [ranges_eq_nil hNone] at hN
    cases hN
  · simp only [Option.any_eq_true, hAnswer]

/-- **The index answers as the networks of the list, taken as sets of numbers.** -/
theorem index_answers (cidrStrs : List Text) (cidr : Text) :
    (cidrOverlapsIndex cidr (buildAntifilterOverlapIndex cidrStrs) = true ↔
      ∃ q, Lib.Ip.parseNetwork cidr = some q ∧
        ∃ n ∈ indexed cidrStrs, ∃ a : ℕ, a ∈ n ∧ a ∈ q) ∧
    (cidrContainedInIndex cidr (buildAntifilterOverlapIndex cidrStrs) = true ↔
      ∃ q, Lib.Ip.parseNetwork cidr = some q ∧
        ∃ n ∈ indexed cidrStrs, ∀ a : ℕ, a ∈ q → a ∈ n) := by
  constructor
  · refine answer_iff (P := fun n q => ∃ a : ℕ, a ∈ n ∧ a ∈ q) fun q => ?_
    simp only [build_reaches (Int.natCast_nonneg _), Lib.Ip.Network.meets_iff, Int.ofNat_le]
  · refine answer_iff (P := fun n q => ∀ a : ℕ, a ∈ q → a ∈ n) fun q => ?_
    simp only [build_reaches (Int.natCast_nonneg _), Lib.Ip.Network.within_iff, Int.ofNat_le]

/-! ## Addresses -/

/-- The addresses of a network, those of the two families apart. -/
def addresses : Lib.Ip.Network → Set Lib.Ip.Address
  | .v4 n => {address | ∃ a ∈ n, address = .v4 a}
  | n => {address | ∃ a : ℕ, a ∈ n ∧ address = .v6 a none}

/-- The index answers as the plain definitions. -/
def AnswersPlainly (cidrStrs : List Text) : Prop :=
  ∀ cidr q, Lib.Ip.parseNetwork cidr = some (.v4 q) →
    (cidrOverlapsIndex cidr (buildAntifilterOverlapIndex cidrStrs) = true ↔
      ∃ n ∈ indexed cidrStrs, ∃ address ∈ addresses n, address ∈ addresses (.v4 q)) ∧
    (cidrContainedInIndex cidr (buildAntifilterOverlapIndex cidrStrs) = true ↔
      ∃ n ∈ indexed cidrStrs, addresses (.v4 q) ⊆ addresses n)

/-- Without IPv6 networks the index answers as the definitions do. -/
theorem answersPlainly_of_v4 (h : ∀ n ∈ indexed cidrStrs, ∃ m, n = .v4 m) :
    AnswersPlainly cidrStrs := by
  intro cidr q hCidr
  obtain ⟨hOverlaps, hContained⟩ := index_answers cidrStrs cidr
  rw [hOverlaps, hContained, hCidr]
  simp only [Option.some.injEq, exists_eq_left']
  constructor
  · refine exists_congr fun n => and_congr_right fun hN => ?_
    obtain ⟨m, rfl⟩ := h n hN
    simp only [Lib.Ip.mem_v4]
    constructor
    · rintro ⟨a, hM, hQ⟩
      exact ⟨.v4 a, ⟨a, hM, rfl⟩, a, hQ, rfl⟩
    · rintro ⟨_, ⟨a, hM, rfl⟩, b, hQ, hSame⟩
      obtain rfl := Lib.Ip.Address.v4.inj hSame
      exact ⟨a, hM, hQ⟩
  · refine exists_congr fun n => and_congr_right fun hN => ?_
    obtain ⟨m, rfl⟩ := h n hN
    simp only [Lib.Ip.mem_v4]
    constructor
    · rintro hSub _ ⟨a, hQ, rfl⟩
      exact ⟨a, hSub a hQ, rfl⟩
    · intro hSub a hQ
      obtain ⟨b, hM, hSame⟩ := hSub ⟨a, hQ, rfl⟩
      obtain rfl := Lib.Ip.Address.v4.inj hSame
      exact hM

theorem parseNetwork_text (n : Network) : Lib.Ip.parseNetwork (networkText n) = some (.v4 n) := by
  rw [Lib.Ip.parseNetwork, parseNetwork_networkText]
  rfl

variable {networks : List Network}

theorem mem_indexed_networks {n : Lib.Ip.Network} : n ∈ indexed (networks.map networkText) ↔
      ∃ m ∈ networks, m.prefixLen ≠ 0 ∧ n = .v4 m := by
  simp only [indexed, mem_filter, mem_filterMap, mem_map, decide_eq_true_eq]
  constructor
  · rintro ⟨⟨_, ⟨m, hMem, rfl⟩, hParsed⟩, hPositive⟩
    rw [parseNetwork_text] at hParsed
    cases hParsed
    exact ⟨m, hMem, Nat.pos_iff_ne_zero.mp hPositive, rfl⟩
  · rintro ⟨m, hMem, hPositive, rfl⟩
    exact ⟨⟨_, ⟨m, hMem, rfl⟩, parseNetwork_text m⟩, Nat.pos_iff_ne_zero.mpr hPositive⟩

/-- The CIDRs that are left when the networks are excluded. -/
def keptOutside (networks : List Network) (cidrs : List Text) : List Text :=
  (excludeRuCountryCidrs (.ok (ruCidrIndex networks)) cidrs).1

/-- A CIDR is kept unless one network of the list covers it. -/
theorem mem_keptOutside : cidr ∈ keptOutside networks cidrs ↔
    cidr ∈ cidrs ∧ ¬ ∃ q, Lib.Ip.parseNetwork cidr = some q ∧
      ∃ m ∈ networks, m.prefixLen ≠ 0 ∧ ∀ a : ℕ, a ∈ q → a ∈ m := by
  have hContained : cidrContainedInIndex cidr (ruCidrIndex networks) = true ↔
      ∃ q, Lib.Ip.parseNetwork cidr = some q ∧
        ∃ m ∈ networks, m.prefixLen ≠ 0 ∧ ∀ a : ℕ, a ∈ q → a ∈ m := by
    refine (index_answers _ cidr).2.trans (exists_congr fun q => and_congr_right fun _ => ?_)
    constructor
    · rintro ⟨n, hN, hSub⟩
      obtain ⟨m, hMem, hPositive, rfl⟩ := mem_indexed_networks.mp hN
      exact ⟨m, hMem, hPositive, fun a hQ => Lib.Ip.mem_v4.mp (hSub a hQ)⟩
    · rintro ⟨m, hMem, hPositive, hSub⟩
      exact ⟨.v4 m, mem_indexed_networks.mpr ⟨m, hMem, hPositive, rfl⟩,
        fun a hQ => Lib.Ip.mem_v4.mpr (hSub a hQ)⟩
  rw [← hContained]
  unfold keptOutside excludeRuCountryCidrs
  split_ifs with hNil
  · rw [hNil]
    simp
  · show cidr ∈ sortedSet _ ↔ _
    rw [sortedSet, mem_insertionSort, mem_dedup, mem_filter, Bool.not_eq_true',
      Bool.not_eq_true]

/-- **The index is the plain definition over numbers, and over addresses if its list is IPv4; the
antifilter keeps what overlaps, and the RU exclusion what no network contains.** -/
theorem index_is_plain (cidrStrs : List Text) :
    (∀ cidr,
      (cidrOverlapsIndex cidr (buildAntifilterOverlapIndex cidrStrs) = true ↔
        ∃ q, Lib.Ip.parseNetwork cidr = some q ∧
          ∃ n ∈ indexed cidrStrs, ∃ a : ℕ, a ∈ n ∧ a ∈ q) ∧
      (cidrContainedInIndex cidr (buildAntifilterOverlapIndex cidrStrs) = true ↔
        ∃ q, Lib.Ip.parseNetwork cidr = some q ∧
          ∃ n ∈ indexed cidrStrs, ∀ a : ℕ, a ∈ q → a ∈ n)) ∧
    ((∀ n ∈ indexed cidrStrs, ∃ m, n = .v4 m) → AnswersPlainly cidrStrs) ∧
    (∀ cidrs cidr, cidr ∈ antifilterStep (buildAntifilterOverlapIndex cidrStrs) cidrs ↔
      cidr ∈ cidrs ∧ ∃ q, Lib.Ip.parseNetwork cidr = some q ∧
        ∃ n ∈ indexed cidrStrs, ∃ a : ℕ, a ∈ n ∧ a ∈ q) ∧
    ∀ networks cidrs cidr, cidr ∈ keptOutside networks cidrs ↔
      cidr ∈ cidrs ∧ ¬ ∃ q, Lib.Ip.parseNetwork cidr = some q ∧
        ∃ m ∈ networks, m.prefixLen ≠ 0 ∧ ∀ a : ℕ, a ∈ q → a ∈ m := by
  refine ⟨index_answers cidrStrs, answersPlainly_of_v4, fun cidrs cidr => ?_, fun _ _ _ =>
    mem_keptOutside⟩
  rw [antifilterStep, mem_filter, (index_answers cidrStrs cidr).1]

/-- The numbers of an IPv6 network may be those of IPv4 addresses. -/
theorem not_always_plain : ¬ ∀ cidrStrs, AnswersPlainly cidrStrs := by
  intro h
  have hParsed : Lib.Ip.parseNetwork "10.0.0.0/8".toList =
      some (.v4 ⟨10 * 2 ^ 24, 8, by decide, by decide, by decide⟩) := by decide
  have hIndexed : indexed ["::/96".toList] = [.v6 0 96] := by decide
  have hAnswer := (h ["::/96".toList] "10.0.0.0/8".toList _ hParsed).1
  rw [hIndexed] at hAnswer
  have hTrue : cidrOverlapsIndex "10.0.0.0/8".toList
      (buildAntifilterOverlapIndex ["::/96".toList]) = true := by decide
  obtain ⟨n, hN, address, hIn, a, -, hSame⟩ := hAnswer.mp hTrue
  obtain rfl := mem_singleton.mp hN
  obtain ⟨b, -, rfl⟩ := hIn
  cases hSame

/-! ## Which addresses are Russian -/

/-- The addresses of the networks of a list. -/
def russian (networks : List Network) : Set ℕ := {a | ∃ n ∈ networks, a ∈ n}

/-- No two networks of the list are the halves of one. -/
def Undivided (networks : List Network) : Prop :=
  ∀ n : Network, ∀ h : n.prefixLen < 32, ¬ (n.half h false ∈ networks ∧ n.half h true ∈ networks)

/-- Every network of the one list lies in one of the other. -/
def LiesIn (networks other : List Network) : Prop := ∀ n ∈ networks, ∃ m ∈ other, n ≤ m

/-- CIDRs as generation has them. -/
def Ipv4Cidrs (cidrs : List Text) : Prop :=
  ∀ cidr ∈ cidrs, ∃ q, Lib.Ip.parseNetwork cidr = some (.v4 q)

/-- The list decides by its addresses which of the CIDRs go. -/
def RemovesRussian (networks : List Network) (cidrs : List Text) : Prop :=
  ∀ cidr ∈ cidrs, ∀ q, Lib.Ip.parseNetwork cidr = some (.v4 q) →
    (cidr ∉ keptOutside networks cidrs ↔ ∀ a ∈ q, a ∈ russian networks)

theorem positive_of_mem {candidates : List Text} {n : Network} (h : n ∈ normalizeCidrs candidates) :
    n.prefixLen ≠ 0 := by
  obtain ⟨raw, -, hRaw⟩ := mem_normalizeCidrs.mp h
  exact of_decide_eq_true (Option.filter_eq_some_iff.mp hRaw).2

theorem removed_iff {q : Network} (hMem : cidr ∈ cidrs)
    (hPositive : ∀ n ∈ networks, n.prefixLen ≠ 0)
    (hCidr : Lib.Ip.parseNetwork cidr = some (.v4 q)) :
    cidr ∉ keptOutside networks cidrs ↔ ∃ n ∈ networks, q ≤ n := by
  rw [mem_keptOutside, and_iff_right hMem, not_not, hCidr]
  simp only [Option.some.injEq, exists_eq_left', Lib.Ip.mem_v4]
  exact exists_congr fun n => and_congr_right fun hN => and_iff_right (hPositive n hN)

/-- Lists of networks that cover each other keep the same CIDRs. -/
theorem keptOutside_of_liesIn {other : List Network} (hCidrs : Ipv4Cidrs cidrs)
    (hPositive : ∀ n ∈ networks, n.prefixLen ≠ 0) (hOther : ∀ n ∈ other, n.prefixLen ≠ 0)
    (hIn : LiesIn networks other) (hBack : LiesIn other networks) :
    keptOutside networks cidrs = keptOutside other cidrs := by
  have hStep : ∀ {list list' : List Network}, LiesIn list list' → ∀ {q : Network},
      (∃ n ∈ list, q ≤ n) → ∃ n ∈ list', q ≤ n := by
    rintro list list' hLies q ⟨n, hN, hLe⟩
    obtain ⟨m, hM, hAround⟩ := hLies n hN
    exact ⟨m, hM, le_trans hLe hAround⟩
  have hFilter : cidrs.filter (fun value => !cidrContainedInIndex value (ruCidrIndex networks)) =
      cidrs.filter fun value => !cidrContainedInIndex value (ruCidrIndex other) := by
    refine filter_congr fun cidr hMem => congrArg not (Bool.eq_iff_iff.mpr ?_)
    obtain ⟨q, hCidr⟩ := hCidrs cidr hMem
    have hKept : ∀ list : List Network, cidr ∉ keptOutside list cidrs ↔
        cidrContainedInIndex cidr (ruCidrIndex list) = true := by
      intro list
      unfold keptOutside excludeRuCountryCidrs
      rw [if_neg (ne_nil_of_mem hMem)]
      show cidr ∉ sortedSet _ ↔ _
      rw [sortedSet, mem_insertionSort, mem_dedup, mem_filter, and_iff_right hMem,
        Bool.not_eq_true', Bool.not_eq_false]
    rw [← hKept, ← hKept, removed_iff hMem hPositive hCidr, removed_iff hMem hOther hCidr]
    exact ⟨hStep hIn, hStep hBack⟩
  unfold keptOutside excludeRuCountryCidrs
  split_ifs
  · rfl
  · exact congrArg sortedSet hFilter

theorem liesIn_of_russian {other : List Network} (h : Undivided other)
    (hSame : russian networks = russian other) : LiesIn networks other := by
  intro n hN
  refine Network.single_of_covered h fun a hMem => ?_
  have hRussian : a ∈ russian networks := ⟨n, hN, hMem⟩
  rw [hSame] at hRussian
  exact hRussian

/-- What decides whether a list of RU networks excludes a CIDR. -/
structure Excludes (candidates cidrs : List Text) : Prop where
  single : ∀ cidr ∈ cidrs, ∀ q, Lib.Ip.parseNetwork cidr = some (.v4 q) →
    (cidr ∉ keptOutside (normalizeCidrs candidates) cidrs ↔
      ∃ n ∈ normalizeCidrs candidates, q ≤ n)
  undivided : Undivided (normalizeCidrs candidates) →
    RemovesRussian (normalizeCidrs candidates) cidrs
  nested : ∀ other, LiesIn (normalizeCidrs candidates) (normalizeCidrs other) →
    LiesIn (normalizeCidrs other) (normalizeCidrs candidates) →
      keptOutside (normalizeCidrs candidates) cidrs = keptOutside (normalizeCidrs other) cidrs
  same : ∀ other, Undivided (normalizeCidrs candidates) → Undivided (normalizeCidrs other) →
    russian (normalizeCidrs candidates) = russian (normalizeCidrs other) →
      keptOutside (normalizeCidrs candidates) cidrs = keptOutside (normalizeCidrs other) cidrs

/-- **A CIDR is excluded exactly if one network of the list contains it.** If no two networks are
the halves of one, these are the CIDRs with only Russian addresses. -/
theorem excludes_russian (candidates cidrs : List Text) (hCidrs : Ipv4Cidrs cidrs) :
    Excludes candidates cidrs := by
  have hSingle : ∀ cidr ∈ cidrs, ∀ q, Lib.Ip.parseNetwork cidr = some (.v4 q) →
      (cidr ∉ keptOutside (normalizeCidrs candidates) cidrs ↔
        ∃ n ∈ normalizeCidrs candidates, q ≤ n) :=
    fun cidr hMem q hCidr => removed_iff hMem (fun n => positive_of_mem) hCidr
  refine ⟨hSingle, fun hUndivided cidr hMem q hCidr => ?_, fun other hIn hBack => ?_,
    fun other hHere hThere hSame => ?_⟩
  · refine (hSingle cidr hMem q hCidr).trans ⟨?_, fun hAll => ?_⟩
    · rintro ⟨n, hN, hLe⟩ a hA
      exact ⟨n, hN, hLe a hA⟩
    · exact Network.single_of_covered hUndivided hAll
  · exact keptOutside_of_liesIn hCidrs (fun n => positive_of_mem) (fun n => positive_of_mem)
      hIn hBack
  · exact keptOutside_of_liesIn hCidrs (fun n => positive_of_mem) (fun n => positive_of_mem)
      (liesIn_of_russian hThere hSame) (liesIn_of_russian hHere hSame.symm)

theorem eight_le_width : 8 ≤ 32 := by decide

def tenSlashEight : Network := ⟨10 * 2 ^ 24, 8, eight_le_width, by decide, by decide⟩

theorem ipv4Cidrs_ten : Ipv4Cidrs ["10.0.0.0/8".toList] := by
  intro cidr hMem
  obtain rfl := mem_singleton.mp hMem
  exact ⟨tenSlashEight, by decide⟩

/-- Of two CIDRs one lies in the Russian network and goes, the other stays. -/
theorem excludes_russian_ten :
    Excludes ["10.0.0.0/8".toList] ["10.0.0.0/8".toList, "11.0.0.0/8".toList] ∧
    keptOutside (normalizeCidrs ["10.0.0.0/8".toList])
      ["10.0.0.0/8".toList, "11.0.0.0/8".toList] = ["11.0.0.0/8".toList] := by
  refine ⟨excludes_russian _ _ ?_, by decide⟩
  intro cidr hMem
  rcases mem_pair.mp hMem with rfl | rfl
  · exact ⟨tenSlashEight, by decide⟩
  · exact ⟨⟨11 * 2 ^ 24, 8, eight_le_width, by decide, by decide⟩, by decide⟩

/-- Split into halves, a network excludes itself no longer. -/
theorem not_always_russian : ¬ ∀ candidates other cidrs, Ipv4Cidrs cidrs →
    russian (normalizeCidrs candidates) = russian (normalizeCidrs other) →
      keptOutside (normalizeCidrs candidates) cidrs = keptOutside (normalizeCidrs other) cidrs ∧
      RemovesRussian (normalizeCidrs candidates) cidrs := by
  intro h
  have hHalves : normalizeCidrs ["10.0.0.0/9".toList, "10.128.0.0/9".toList] =
      [tenSlashEight.half (by decide) false, tenSlashEight.half (by decide) true] := by
    decide
  have hWhole : normalizeCidrs ["10.0.0.0/8".toList] = [tenSlashEight] := by decide
  have hSame : russian [tenSlashEight.half (by decide) false, tenSlashEight.half (by decide) true] =
      russian [tenSlashEight] := by
    ext a
    simp only [russian, Set.mem_ofPred_eq, mem_cons, not_mem_nil, or_false,
      exists_eq_or_imp, exists_eq_left, Network.mem_iff]
    show (10 * 2 ^ 24 + 0 ≤ a ∧ a < 10 * 2 ^ 24 + 0 + 2 ^ 23) ∨
      (10 * 2 ^ 24 + 2 ^ 23 ≤ a ∧ a < 10 * 2 ^ 24 + 2 ^ 23 + 2 ^ 23) ↔
      10 * 2 ^ 24 ≤ a ∧ a < 10 * 2 ^ 24 + 2 ^ 24
    omega
  have hKept := (h ["10.0.0.0/9".toList, "10.128.0.0/9".toList] ["10.0.0.0/8".toList]
    ["10.0.0.0/8".toList] ipv4Cidrs_ten (by rw [hHalves, hWhole, hSame])).1
  have hDiffer : keptOutside (normalizeCidrs ["10.0.0.0/9".toList, "10.128.0.0/9".toList])
      ["10.0.0.0/8".toList] ≠
        keptOutside (normalizeCidrs ["10.0.0.0/8".toList]) ["10.0.0.0/8".toList] := by
    decide
  exact hDiffer hKept

end AdminPanel.Cidr
