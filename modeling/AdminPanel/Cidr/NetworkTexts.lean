import AdminPanel.Cidr.Providers
import AdminPanel.Lib.PyInt

/-!
# Texts of networks

A network is read back from its text (`networkOf_networkText`), so distinct networks have distinct
texts.

* `NormalRows` — rows whose texts are those of distinct networks;
* `newRows_of_normal` — items with such texts are stored as they are;
* `normalTexts_toStore` — what a refresh stores has such texts.
-/

namespace AdminPanel.Cidr

open List

open Lib.PyText (strip isSpace)
open Lib.Ipv4 (Network parseNetwork parseAddress parseOctet parsePrefixLen)

/-! ## Read back -/

theorem parseOctet_toDigits : ∀ k < 256, parseOctet (Nat.toDigits 10 k) = some k := by
  decide +kernel

theorem parsePrefixLen_toDigits : ∀ k < 33, parsePrefixLen (Nat.toDigits 10 k) = some k := by
  decide

variable {n : Network}

/-- The digits, dots and the slash of a network's text. -/
theorem mem_networkText {c : Char} (h : c ∈ networkText n) : c.isDigit = true ∨ c = '.' ∨ c = '/' := by
  rcases mem_append.mp h with hAddress | hMask
  · rcases Lib.Ipv4.mem_of_mem_intercalate hAddress with hDot | ⟨part, hPart, hMem⟩
    · exact .inr (.inl hDot)
    · obtain ⟨k, -, rfl⟩ := mem_map.mp hPart
      exact .inl (Lib.PyText.isDigit_toDigits hMem)
  · rcases mem_cons.mp hMask with rfl | hMem
    · exact .inr (.inr rfl)
    · exact .inl (Lib.PyText.isDigit_toDigits hMem)

theorem not_mem_toDigits {c : Char} (h : c.isDigit = false) (k : ℕ) : c ∉ Nat.toDigits 10 k := by
  intro hMem
  rw [Lib.PyText.isDigit_toDigits hMem] at h
  cases h

theorem parseAddress_octets {a b c d : ℕ} (hA : a < 256) (hB : b < 256) (hC : c < 256)
    (hD : d < 256) : parseAddress (['.'].intercalate
      [Nat.toDigits 10 a, Nat.toDigits 10 b, Nat.toDigits 10 c, Nat.toDigits 10 d]) =
        some (((a * 256 + b) * 256 + c) * 256 + d) := by
  have hParts : (['.'].intercalate [Nat.toDigits 10 a, Nat.toDigits 10 b, Nat.toDigits 10 c,
      Nat.toDigits 10 d]).splitOn '.' =
        [Nat.toDigits 10 a, Nat.toDigits 10 b, Nat.toDigits 10 c, Nat.toDigits 10 d] := by
    refine splitOn_intercalate '.' (fun part hPart => ?_) (cons_ne_nil _ _)
    simp only [mem_cons, not_mem_nil, or_false] at hPart
    rcases hPart with rfl | rfl | rfl | rfl
    all_goals exact not_mem_toDigits rfl _
  rw [parseAddress, hParts]
  simp only [map_cons, map_nil, parseOctet_toDigits a hA, parseOctet_toDigits b hB,
    parseOctet_toDigits c hC, parseOctet_toDigits d hD]

/-- **A network is read back from its text.** -/
theorem parseNetwork_networkText (n : Network) : parseNetwork (networkText n) = some n := by
  set address : Text := ['.'].intercalate
    [Nat.toDigits 10 (n.base / 256 ^ 3 % 256), Nat.toDigits 10 (n.base / 256 ^ 2 % 256),
      Nat.toDigits 10 (n.base / 256 ^ 1 % 256), Nat.toDigits 10 (n.base / 256 ^ 0 % 256)]
    with hAddress
  have hText : networkText n = ['/'].intercalate [address, Nat.toDigits 10 n.prefixLen] := by
    simp [networkText, List.range, List.range.loop, hAddress, List.intercalate]
  have hSplit : (networkText n).splitOn '/' = [address, Nat.toDigits 10 n.prefixLen] := by
    rw [hText]
    refine splitOn_intercalate '/' (fun piece hPiece => ?_) (cons_ne_nil _ _)
    rcases mem_cons.mp hPiece with rfl | hPiece
    · intro hSlash
      rcases Lib.Ipv4.mem_of_mem_intercalate hSlash with hDot | ⟨part, hPart, hMem⟩
      · exact absurd hDot (by decide)
      · simp only [mem_cons, not_mem_nil, or_false] at hPart
        rcases hPart with rfl | rfl | rfl | rfl
        all_goals exact not_mem_toDigits rfl _ hMem
    · rw [mem_singleton.mp hPiece]
      exact not_mem_toDigits rfl _
  have hOctet : ∀ k, n.base / 256 ^ k % 256 < 256 := fun k => Nat.mod_lt _ (by decide)
  have hRead : parseAddress address = some n.base := by
    have hBase := n.base_lt
    rw [hAddress, parseAddress_octets (hOctet 3) (hOctet 2) (hOctet 1) (hOctet 0)]
    refine congrArg some ?_
    omega
  have hMask : parsePrefixLen (Nat.toDigits 10 n.prefixLen) = some n.prefixLen :=
    parsePrefixLen_toDigits _ (Nat.lt_succ_of_le n.prefixLen_le)
  rw [parseNetwork, hSplit]
  simp only [hRead, hMask]
  rw [dif_pos ⟨n.base_lt, n.prefixLen_le⟩]
  obtain ⟨base, len, hLen, hLt, hAligned⟩ := n
  simp only [Lib.Ipv4.Network.ofAddress, Option.some.injEq, Lib.Ipv4.Network.mk.injEq, and_true]
  exact Nat.div_mul_cancel hAligned

theorem networkText_inj {m : Network} (h : networkText m = networkText n) : m = n :=
  Option.mem_unique (parseNetwork_networkText m) (h ▸ parseNetwork_networkText n)

theorem strip_networkText (n : Network) : strip (networkText n) = networkText n := by
  refine Lib.PyText.strip_of_not_space fun c hMem => ?_
  rcases mem_networkText hMem with hDigit | rfl | rfl
  · exact Lib.PyText.isSpace_of_isDigit hDigit
  · decide
  · decide

theorem networkText_ne_nil (n : Network) : networkText n ≠ [] := by
  intro hNil
  have hMem : '/' ∈ networkText n := mem_append_right _ mem_cons_self
  rw [hNil] at hMem
  cases hMem

theorem networkOf_networkText (h : n.prefixLen ≠ 0) : networkOf (networkText n) = some n := by
  rw [networkOf, strip_networkText, parseNetwork_networkText]
  exact Option.filter_some_pos (decide_eq_true h)

/-! ## Texts of distinct networks -/

/-- The texts are those of distinct networks, none of which is everything. -/
def NormalTexts (texts : List Text) : Prop :=
  ∃ networks : List Network, texts = networks.map networkText ∧ networks.Nodup ∧
    ∀ n ∈ networks, n.prefixLen ≠ 0

/-- A text that generation takes as it is. -/
def IsNormal (text : Text) : Prop := ∃ n : Network, text = networkText n ∧ n.prefixLen ≠ 0

theorem normalTexts_iff {texts : List Text} :
    NormalTexts texts ↔ texts.Nodup ∧ ∀ text ∈ texts, IsNormal text := by
  constructor
  · rintro ⟨networks, rfl, hNodup, hPositive⟩
    refine ⟨hNodup.map fun m n hSame => networkText_inj hSame, fun text hMem => ?_⟩
    obtain ⟨n, hNetwork, rfl⟩ := mem_map.mp hMem
    exact ⟨n, rfl, hPositive n hNetwork⟩
  · rintro ⟨hNodup, hNormal⟩
    induction texts with
    | nil => exact ⟨[], rfl, nodup_nil, fun n hMem => absurd hMem not_mem_nil⟩
    | cons text texts ih =>
      rw [nodup_cons] at hNodup
      rw [forall_mem_cons] at hNormal
      obtain ⟨networks, rfl, hDistinct, hPositive⟩ := ih hNodup.2 hNormal.2
      obtain ⟨n, rfl, hN⟩ := hNormal.1
      refine ⟨n :: networks, rfl, nodup_cons.mpr ⟨fun hMem => ?_, hDistinct⟩, ?_⟩
      · exact hNodup.1 (mem_map_of_mem hMem)
      · exact forall_mem_cons.mpr ⟨hN, hPositive⟩

variable {items : List Item}

theorem validItems_of_normal (h : NormalTexts (items.map Item.cidr)) : ValidItems items := by
  obtain ⟨networks, hTexts, hNodup, hPositive⟩ := h
  have hRead : items.map (fun item => networkOf item.cidr) = networks.map some := by
    have hMap := congrArg (List.map networkOf) hTexts
    rw [map_map, map_map] at hMap
    exact hMap.trans (map_congr_left fun n hMem => networkOf_networkText (hPositive n hMem))
  refine ⟨fun item hMem => ?_, pairwise_map.mp ?_⟩
  · have hSome : networkOf item.cidr ∈ networks.map some :=
      hRead ▸ mem_map_of_mem (f := fun item => networkOf item.cidr) hMem
    obtain ⟨n, -, hEq⟩ := mem_map.mp hSome
    rw [← hEq]
    rfl
  · rw [hRead]
    exact hNodup.map (Option.some_injective Network)

/-- Rows with prefixes as generation takes them. -/
def NormalRows (rows : List ProviderCidr) : Prop := NormalTexts (rows.map ProviderCidr.cidr)

/-- Items with the texts of distinct networks are stored as they are. -/
theorem newRows_of_normal {providerKey : Text} (h : NormalTexts (items.map Item.cidr)) :
    newRows providerKey items = items.map (storedRow providerKey) ∧
      NormalRows (newRows providerKey items) := by
  have hRows : newRows providerKey items = items.map (storedRow providerKey) := by
    rw [newRows, writeProviderCidrCsv,
      dedupeCidrItems_of_apart (validItems_of_normal h) fun _ _ => not_mem_nil,
      filterMap_map, filterMap_eq_map_iff_forall_eq_some.mpr]
    exact fun item _ => insertedRow_csvRow item
  refine ⟨hRows, ?_⟩
  rw [NormalRows, hRows, map_map]
  exact h

/-! ## Downloaded items -/

theorem cidr_mergeItem (existing item : Item) : (mergeItem existing item).cidr = existing.cidr := by
  unfold mergeItem
  dsimp only
  split_ifs
  all_goals rfl

/-- An item adds its text, unless it is there. -/
theorem cidrs_mergeInto {merged : List Item} {item : Item} (h : IsNormal item.cidr) :
    (mergeInto merged item).map Item.cidr =
      if item.cidr ∈ merged.map Item.cidr then merged.map Item.cidr
      else merged.map Item.cidr ++ [item.cidr] := by
  obtain ⟨n, hText, -⟩ := h
  have hStrip : strip item.cidr = item.cidr := by rw [hText, strip_networkText]
  have hNe : item.cidr ≠ [] := by rw [hText]; exact networkText_ne_nil n
  have hAny : merged.any (fun other => other.cidr = item.cidr) = true ↔
      item.cidr ∈ merged.map Item.cidr := by
    simp [mem_map]
  unfold mergeInto
  dsimp only
  rw [hStrip, if_neg hNe]
  by_cases hMem : item.cidr ∈ merged.map Item.cidr
  · rw [if_pos (hAny.mpr hMem), if_pos hMem, map_map]
    refine map_congr_left fun existing _ => ?_
    show (if existing.cidr = item.cidr then mergeItem existing item else existing).cidr = _
    split_ifs
    · exact cidr_mergeItem existing item
    · rfl
  · rw [if_neg fun h => hMem (hAny.mp h), if_neg hMem, map_append]
    rfl

/-- What the merge gives is taken as it is. -/
theorem normalTexts_mergeCidrItems (h : ∀ item ∈ items, IsNormal item.cidr) :
    NormalTexts ((mergeCidrItems items).map Item.cidr) := by
  have hFold : ∀ (items merged : List Item), (∀ item ∈ items, IsNormal item.cidr) →
      NormalTexts (merged.map Item.cidr) →
      NormalTexts ((items.foldl mergeInto merged).map Item.cidr) := by
    intro items
    induction items with
    | nil => exact fun merged _ hMerged => hMerged
    | cons item items ih =>
      intro merged hItems hMerged
      rw [forall_mem_cons] at hItems
      refine ih (mergeInto merged item) hItems.2 ?_
      rw [cidrs_mergeInto hItems.1]
      split_ifs with hMem
      · exact hMerged
      · rw [normalTexts_iff] at hMerged ⊢
        refine ⟨List.Nodup.append hMerged.1 (nodup_singleton _) ?_, fun text hText => ?_⟩
        · exact disjoint_singleton.mpr hMem
        · rcases mem_append.mp hText with hOld | hNew
          · exact hMerged.2 text hOld
          · exact mem_singleton.mp hNew ▸ hItems.1
  exact hFold items [] h ⟨[], rfl, nodup_nil, fun n hMem => absurd hMem not_mem_nil⟩

/-- What a refresh goes to store has the texts of distinct networks. -/
theorem normalTexts_toStore {config : Config} {previous : ℕ} {env : TurnEnv}
    (h : env.toStore config previous = some items) : NormalTexts (items.map Item.cidr) := by
  obtain ⟨-, hMerged, -⟩ := toStore_eq_some.mp h
  obtain ⟨fetched, -, hItems⟩ := Option.bind_eq_some_iff.mp hMerged
  unfold nonEmpty at hItems
  split_ifs at hItems
  rw [← Option.some.inj hItems]
  refine normalTexts_mergeCidrItems fun item hMem => ?_
  obtain ⟨raw, -, rfl⟩ := mem_map.mp hMem
  exact ⟨raw.network, rfl, raw.positive⟩

end AdminPanel.Cidr
