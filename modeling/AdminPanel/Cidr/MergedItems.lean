import AdminPanel.Cidr.NetworkTexts

/-!
# Items of several sources

`_merge_cidr_items` folds the items of all sources of a provider into one item for each prefix.

* `Merges` — every prefix once, with the tags of all its items;
* `Settled` — an item that has been merged: merging leaves it as it is;
* `countrySets` — the prefixes with their sets of countries.

Main result: `mergeCidrItems_merges`.
-/

namespace AdminPanel.Cidr

open List

open Lib.PyText (strip)

def Item.codes (item : Item) : List Text := item.countries.getD []

/-- Every prefix once, with the tags of all its items. -/
structure Merges (items merged : List Item) : Prop where
  once : (merged.map Item.cidr).Nodup
  prefixes : ∀ cidr, cidr ∈ merged.map Item.cidr ↔
    cidr ≠ [] ∧ ∃ item ∈ items, strip item.cidr = cidr
  countries : ∀ m ∈ merged, ∀ code, code ∈ m.codes ↔
    ∃ item ∈ items, strip item.cidr = m.cidr ∧ code ∈ item.codes
  tagged : ∀ m ∈ merged, m.region.isSome = true ↔
    ∃ item ∈ items, strip item.cidr = m.cidr ∧ item.regionField ≠ []
  given : ∀ m ∈ merged, ∀ region, m.region = some region →
    ∃ item ∈ items, strip item.cidr = m.cidr ∧ item.regionField = region ∧ region ≠ []

/-- An item without blanks around its prefix, and without empty tags. -/
structure Settled (item : Item) : Prop where
  stripped : strip item.cidr = item.cidr
  cidr_ne : item.cidr ≠ []
  region : nonEmpty item.regionField = item.region
  countries : nonEmpty item.codes = item.countries

def countrySets (merged : List Item) : Set (Text × Set Text) :=
  {p | ∃ m ∈ merged, p = (m.cidr, {code | code ∈ m.codes})}

/-! ## One item -/

variable {items merged : List Item} {item existing : Item} {code : Text}

variable {α : Type}

theorem getD_nonEmpty (l : List α) : (nonEmpty l).getD [] = l := by
  cases l with
  | nil | cons a l => rfl

theorem isSome_nonEmpty {l : List α} : (nonEmpty l).isSome = true ↔ l ≠ [] := by
  cases l with
  | nil | cons a l => simp [nonEmpty]

theorem eq_of_nonEmpty {l kept : List α} (h : nonEmpty l = some kept) : l = kept ∧ kept ≠ [] := by
  have hList : l = kept := by rw [← getD_nonEmpty l, h]; rfl
  refine ⟨hList, ?_⟩
  rw [← hList]
  exact isSome_nonEmpty.mp (by rw [h]; rfl)

theorem mem_sortedSet {codes : List Text} : code ∈ sortedSet codes ↔ code ∈ codes := by
  rw [sortedSet, mem_insertionSort, mem_dedup]

/-- The item that a prefix starts with. -/
def firstItem (item : Item) : Item :=
  ⟨strip item.cidr, nonEmpty item.regionField, nonEmpty item.codes⟩

theorem settled_firstItem (h : strip item.cidr ≠ []) : Settled (firstItem item) where
  stripped := Lib.PyText.strip_strip _
  cidr_ne := h
  region := congrArg nonEmpty (getD_nonEmpty _)
  countries := congrArg nonEmpty (getD_nonEmpty _)

theorem firstItem_of_settled (h : Settled item) : firstItem item = item := by
  obtain ⟨cidr, region, countries⟩ := item
  exact congr (congr (congrArg Item.mk h.stripped) h.region) h.countries

theorem codes_mergeItem : code ∈ (mergeItem existing item).codes ↔
    code ∈ existing.codes ∨ code ∈ item.codes := by
  have hUnion : code ∈ sortedSet (existing.codes ++ item.codes) ↔
      code ∈ existing.codes ∨ code ∈ item.codes := by
    rw [mem_sortedSet, mem_append]
  rw [← hUnion]
  unfold mergeItem
  dsimp only
  split_ifs with hGained hSome
  · exact iff_of_eq (congrArg (code ∈ ·) (getD_nonEmpty _))
  · exact Iff.rfl
  · -- Without countries on either side the item is as it was.
    rw [not_not] at hSome
    have hNone : sortedSet (existing.codes ++ item.codes) = [] := hSome
    rw [hNone]
    refine iff_of_false (fun hMem => ?_) not_mem_nil
    have hUnited := mem_sortedSet.mpr (mem_append_left item.codes hMem)
    rw [hNone] at hUnited
    cases hUnited

theorem region_mergeItem (h : Settled existing) : (mergeItem existing item).region =
    existing.region.or (nonEmpty item.regionField) := by
  have hKept : ¬ (existing.regionField = [] ∧ item.regionField ≠ []) →
      existing.region = existing.region.or (nonEmpty item.regionField) := by
    intro hNot
    rw [← h.region]
    by_cases hOld : existing.regionField = []
    · have hNew : item.regionField = [] := not_not.mp fun hNe => hNot ⟨hOld, hNe⟩
      rw [hOld, hNew]
      rfl
    · obtain ⟨region, hRegion⟩ := Option.isSome_iff_exists.mp (isSome_nonEmpty.mpr hOld)
      rw [hRegion]
      rfl
  unfold mergeItem
  dsimp only
  split_ifs with hGained hSome
  · rw [h.region]
  · exact hKept fun hRegion => hGained (.inl hRegion)
  · exact hKept fun hRegion => hGained (.inl hRegion)

/-- An item that is met again stays without empty tags. -/
theorem settled_mergeItem (h : Settled existing) : Settled (mergeItem existing item) where
  stripped := by rw [cidr_mergeItem, h.stripped]
  cidr_ne := by rw [cidr_mergeItem]; exact h.cidr_ne
  region := by
    rw [Item.regionField, region_mergeItem h, ← h.region]
    by_cases hOld : existing.regionField = []
    · rw [hOld]
      exact congrArg nonEmpty (getD_nonEmpty item.regionField)
    · obtain ⟨region, hRegion⟩ := Option.isSome_iff_exists.mp (isSome_nonEmpty.mpr hOld)
      obtain ⟨rfl, -⟩ := eq_of_nonEmpty hRegion
      rw [hRegion]
      exact hRegion
  countries := by
    unfold mergeItem Item.codes
    dsimp only
    split_ifs with hGained hSome
    · exact congrArg nonEmpty (getD_nonEmpty _)
    · obtain ⟨countries, hCountries⟩ := Option.isSome_iff_exists.mp (isSome_nonEmpty.mpr hSome)
      obtain ⟨hSame, -⟩ := eq_of_nonEmpty hCountries
      exact hCountries.trans (congrArg some hSame.symm)
    · exact h.countries

/-! ## The items so far -/

theorem mergeInto_nil (h : strip item.cidr = []) : mergeInto merged item = merged := if_pos h

theorem mergeInto_new (hCidr : strip item.cidr ≠ [])
    (hNew : strip item.cidr ∉ merged.map Item.cidr) :
    mergeInto merged item = merged ++ [firstItem item] := by
  refine (if_neg hCidr).trans (if_neg fun hAny => hNew ?_)
  obtain ⟨m, hMem, hSame⟩ := any_eq_true.mp hAny
  exact mem_map.mpr ⟨m, hMem, of_decide_eq_true hSame⟩

theorem mergeInto_again (hCidr : strip item.cidr ≠ [])
    (hOld : strip item.cidr ∈ merged.map Item.cidr) :
    mergeInto merged item = merged.map fun existing =>
      if existing.cidr = strip item.cidr then mergeItem existing item else existing := by
  refine (if_neg hCidr).trans (if_pos ?_)
  obtain ⟨m, hMem, hSame⟩ := mem_map.mp hOld
  exact any_eq_true.mpr ⟨m, hMem, decide_eq_true hSame⟩

theorem cidrs_mergeInto_again (hCidr : strip item.cidr ≠ [])
    (hOld : strip item.cidr ∈ merged.map Item.cidr) :
    (mergeInto merged item).map Item.cidr = merged.map Item.cidr := by
  rw [mergeInto_again hCidr hOld, map_map]
  refine map_congr_left fun existing _ => ?_
  show (if existing.cidr = strip item.cidr then mergeItem existing item else existing).cidr = _
  split_ifs
  · exact cidr_mergeItem existing item
  · rfl

/-- **Where an item of the result comes from.** -/
theorem mem_mergeInto (hSettled : ∀ m ∈ merged, Settled m) {m : Item}
    (hMem : m ∈ mergeInto merged item) : (m ∈ merged ∧ strip item.cidr ≠ m.cidr) ∨
      (m = firstItem item ∧ strip item.cidr ≠ [] ∧ strip item.cidr ∉ merged.map Item.cidr) ∨
      ∃ existing ∈ merged, existing.cidr = strip item.cidr ∧ m = mergeItem existing item := by
  by_cases hCidr : strip item.cidr = []
  · rw [mergeInto_nil hCidr] at hMem
    exact .inl ⟨hMem, fun hSame => (hSettled m hMem).cidr_ne (hSame.symm.trans hCidr)⟩
  by_cases hOld : strip item.cidr ∈ merged.map Item.cidr
  · rw [mergeInto_again hCidr hOld] at hMem
    obtain ⟨existing, hExisting, rfl⟩ := mem_map.mp hMem
    split_ifs with hSame
    · exact .inr (.inr ⟨existing, hExisting, hSame, rfl⟩)
    · exact .inl ⟨hExisting, Ne.symm hSame⟩
  · rw [mergeInto_new hCidr hOld] at hMem
    rcases mem_append.mp hMem with hMem | hMem
    · exact .inl ⟨hMem, fun hSame => hOld (hSame ▸ mem_map_of_mem hMem)⟩
    · exact .inr (.inl ⟨mem_singleton.mp hMem, hCidr, hOld⟩)

theorem settled_mergeInto (h : ∀ m ∈ merged, Settled m) :
    ∀ m ∈ mergeInto merged item, Settled m := by
  intro m hMem
  rcases mem_mergeInto h hMem with ⟨hOld, -⟩ | ⟨rfl, hCidr, -⟩ | ⟨existing, hOld, -, rfl⟩
  · exact h m hOld
  · exact settled_firstItem hCidr
  · exact settled_mergeItem (h existing hOld)

section

variable {cidr : Text} {p : Item → Prop}

theorem exists_concat : (∃ other ∈ items ++ [item], strip other.cidr = cidr ∧ p other) ↔
    (∃ other ∈ items, strip other.cidr = cidr ∧ p other) ∨ strip item.cidr = cidr ∧ p item := by
  constructor
  · rintro ⟨other, hMem, hOther⟩
    rcases mem_append.mp hMem with hMem | hMem
    · exact .inl ⟨other, hMem, hOther⟩
    · exact .inr (mem_singleton.mp hMem ▸ hOther)
  · rintro (⟨other, hMem, hOther⟩ | hItem)
    · exact ⟨other, mem_append_left _ hMem, hOther⟩
    · exact ⟨item, mem_append_right _ (mem_singleton_self _), hItem⟩

theorem exists_kept (h : strip item.cidr ≠ cidr) :
    (∃ other ∈ items ++ [item], strip other.cidr = cidr ∧ p other) ↔
      ∃ other ∈ items, strip other.cidr = cidr ∧ p other :=
  exists_concat.trans (or_iff_left fun hItem => h hItem.1)

/-- No item before has the prefix. -/
theorem exists_first (h : ∀ other ∈ items, strip other.cidr ≠ strip item.cidr) :
    (∃ other ∈ items ++ [item], strip other.cidr = strip item.cidr ∧ p other) ↔ p item := by
  rw [exists_concat, or_iff_right, and_iff_right rfl]
  rintro ⟨other, hMem, hSame, -⟩
  exact h other hMem hSame

theorem exists_again : (∃ other ∈ items ++ [item], strip other.cidr = strip item.cidr ∧ p other) ↔
    (∃ other ∈ items, strip other.cidr = strip item.cidr ∧ p other) ∨ p item := by
  rw [exists_concat, and_iff_right rfl]

end

theorem Merges.absent (h : Merges items merged) (hCidr : strip item.cidr ≠ [])
    (hNew : strip item.cidr ∉ merged.map Item.cidr) :
    ∀ other ∈ items, strip other.cidr ≠ strip item.cidr :=
  fun other hMem hSame => hNew ((h.prefixes _).mpr ⟨hCidr, other, hMem, hSame⟩)

theorem Merges.once_mergeInto (h : Merges items merged) :
    ((mergeInto merged item).map Item.cidr).Nodup := by
  by_cases hCidr : strip item.cidr = []
  · rw [mergeInto_nil hCidr]
    exact h.once
  by_cases hOld : strip item.cidr ∈ merged.map Item.cidr
  · rw [cidrs_mergeInto_again hCidr hOld]
    exact h.once
  · rw [mergeInto_new hCidr hOld, map_append]
    exact h.once.append (nodup_singleton _) (disjoint_singleton.mpr hOld)

/-- The prefixes after one more item. -/
theorem Merges.prefixes_mergeInto (h : Merges items merged) (cidr : Text) :
    cidr ∈ (mergeInto merged item).map Item.cidr ↔
      cidr ≠ [] ∧ ∃ other ∈ items ++ [item], strip other.cidr = cidr := by
  have hConcat : (∃ other ∈ items ++ [item], strip other.cidr = cidr) ↔
      (∃ other ∈ items, strip other.cidr = cidr) ∨ strip item.cidr = cidr := by
    have hAll := @exists_concat items item cidr fun _ => True
    simpa only [and_true] using hAll
  rw [hConcat]
  by_cases hCidr : strip item.cidr = []
  · rw [mergeInto_nil hCidr, h.prefixes, hCidr]
    grind
  by_cases hOld : strip item.cidr ∈ merged.map Item.cidr
  · rw [cidrs_mergeInto_again hCidr hOld, h.prefixes]
    have hSome := ((h.prefixes _).mp hOld).2
    grind
  · rw [mergeInto_new hCidr hOld, map_append, mem_append, h.prefixes]
    simp only [map_cons, map_nil, mem_singleton]
    show _ ∨ cidr = strip item.cidr ↔ _
    grind

/-- **One more item** is merged into the list. -/
theorem Merges.concat (h : Merges items merged) (hSettled : ∀ m ∈ merged, Settled m) :
    Merges (items ++ [item]) (mergeInto merged item) where
  once := h.once_mergeInto
  prefixes := h.prefixes_mergeInto
  countries := by
    intro m hMem code
    rcases mem_mergeInto hSettled hMem with ⟨hOld, hOther⟩ | ⟨rfl, hCidr, hNew⟩ |
      ⟨existing, hOld, hSame, rfl⟩
    · rw [exists_kept hOther]
      exact h.countries m hOld code
    · refine Iff.trans ?_ (exists_first (h.absent hCidr hNew)).symm
      exact iff_of_eq (congrArg (code ∈ ·) (getD_nonEmpty _))
    · rw [cidr_mergeItem, hSame, exists_again, codes_mergeItem, h.countries existing hOld, hSame]
  tagged := by
    intro m hMem
    rcases mem_mergeInto hSettled hMem with ⟨hOld, hOther⟩ | ⟨rfl, hCidr, hNew⟩ |
      ⟨existing, hOld, hSame, rfl⟩
    · rw [exists_kept hOther]
      exact h.tagged m hOld
    · refine Iff.trans ?_ (exists_first (h.absent hCidr hNew)).symm
      exact isSome_nonEmpty
    · rw [cidr_mergeItem, hSame, exists_again, region_mergeItem (hSettled existing hOld),
        Option.isSome_or, Bool.or_eq_true, isSome_nonEmpty, h.tagged existing hOld, hSame]
  given := by
    intro m hMem region hRegion
    rcases mem_mergeInto hSettled hMem with ⟨hOld, hOther⟩ | ⟨rfl, hCidr, hNew⟩ |
      ⟨existing, hOld, hSame, rfl⟩
    · rw [exists_kept hOther]
      exact h.given m hOld region hRegion
    · exact (exists_first (h.absent hCidr hNew)).mpr (eq_of_nonEmpty hRegion)
    · rw [cidr_mergeItem, hSame, exists_again]
      rw [region_mergeItem (hSettled existing hOld)] at hRegion
      rcases Option.or_eq_some_iff.mp hRegion with hRegion | ⟨-, hRegion⟩
      · exact .inl (hSame ▸ h.given existing hOld region hRegion)
      · exact .inr (eq_of_nonEmpty hRegion)

theorem merges_nil : Merges [] [] where
  once := nodup_nil
  prefixes _ := iff_of_false not_mem_nil fun ⟨_, _, hMem, _⟩ => not_mem_nil hMem
  countries _ hMem := absurd hMem not_mem_nil
  tagged _ hMem := absurd hMem not_mem_nil
  given _ hMem := absurd hMem not_mem_nil

theorem mergeCidrItems_concat (items : List Item) (item : Item) :
    mergeCidrItems (items ++ [item]) = mergeInto (mergeCidrItems items) item :=
  foldl_append

theorem merges_settled (items : List Item) :
    Merges items (mergeCidrItems items) ∧ ∀ m ∈ mergeCidrItems items, Settled m := by
  induction items using List.reverseRecOn with
  | nil => exact ⟨merges_nil, fun m hMem => absurd hMem not_mem_nil⟩
  | append_singleton items item ih =>
    obtain ⟨hMerges, hSettled⟩ := ih
    rw [mergeCidrItems_concat]
    exact ⟨hMerges.concat hSettled, settled_mergeInto hSettled⟩

/-! ## Merged again, and in another order -/

theorem mergeCidrItems_of_settled (hOnce : (merged.map Item.cidr).Nodup)
    (hSettled : ∀ m ∈ merged, Settled m) : mergeCidrItems merged = merged := by
  induction merged using List.reverseRecOn with
  | nil => rfl
  | append_singleton merged item ih =>
    rw [map_append, nodup_append'] at hOnce
    have hItem := hSettled item (mem_append_right _ (mem_singleton_self _))
    have hNew : strip item.cidr ∉ merged.map Item.cidr := by
      rw [hItem.stripped]
      exact disjoint_singleton.mp hOnce.2.2
    rw [mergeCidrItems_concat, ih hOnce.1 fun m hMem => hSettled m (mem_append_left _ hMem),
      mergeInto_new (hItem.stripped.symm ▸ hItem.cidr_ne) hNew, firstItem_of_settled hItem]

/-- The result is determined by which items there are, up to order and chosen regions. -/
theorem Merges.countrySets_subset {other mergedOther : List Item} (h : Merges items merged)
    (hOther : Merges other mergedOther) (hSame : ∀ item, item ∈ items ↔ item ∈ other) :
    countrySets merged ⊆ countrySets mergedOther := by
  rintro _ ⟨m, hMem, rfl⟩
  obtain ⟨hNe, item, hItem, hCidr⟩ := (h.prefixes m.cidr).mp (mem_map_of_mem hMem)
  have hPrefix := (hOther.prefixes m.cidr).mpr ⟨hNe, item, (hSame item).mp hItem, hCidr⟩
  obtain ⟨m', hMem', hCidr'⟩ := mem_map.mp hPrefix
  refine ⟨m', hMem', Prod.ext hCidr'.symm (Set.ext fun code => ?_)⟩
  show code ∈ m.codes ↔ code ∈ m'.codes
  rw [h.countries m hMem, hOther.countries m' hMem', hCidr']
  simp only [hSame]

/-- **The merged items carry all tags of the items, once for each prefix; merging them again
changes nothing, and the order of the items does not matter for prefixes and countries.** -/
theorem mergeCidrItems_merges (items : List Item) :
    Merges items (mergeCidrItems items) ∧
      mergeCidrItems (mergeCidrItems items) = mergeCidrItems items ∧
      ∀ other : List Item, other.Perm items →
        countrySets (mergeCidrItems other) = countrySets (mergeCidrItems items) := by
  obtain ⟨hMerges, hSettled⟩ := merges_settled items
  refine ⟨hMerges, mergeCidrItems_of_settled hMerges.once hSettled, fun other hPerm => ?_⟩
  have hOther := (merges_settled other).1
  exact Set.Subset.antisymm
    (hOther.countrySets_subset hMerges fun item => hPerm.mem_iff)
    (hMerges.countrySets_subset hOther fun item => hPerm.symm.mem_iff)

end AdminPanel.Cidr
