import AdminPanel.Cidr.Geo
import AdminPanel.Lib.Ipv4
import AdminPanel.Lib.PyWords
import Mathlib.Data.Char
import Mathlib.Data.List.Dedup
import Mathlib.Data.List.Lex
import Mathlib.Data.List.Pairwise
import Mathlib.Data.List.Sort

/-!
# Tags of stored CIDRs

A provider's items go through a staging CSV into the table `provider_cidr`
(`cidr_csv_import.py`); the generation of route files reads the rows and filters them by their
tags (`db_pipeline.py`).

* `writeProviderCidrCsv`, `importProviderCidrCsv` — the way into the table;
* `scopeFilter` — the rows that the generation takes;
* `readBack` — the rows as items again, for an addition;
* `selects_iff`, `restoresTags_iff` — when the tags have their meaning, and when they are kept.

Main result: `tags_survive_iff`.
-/

namespace AdminPanel.Cidr

open List

open Lib.PyText (strip)
open Lib.Ipv4 (Network parseNetwork)

/-! ## Networks -/

/-- The network that `_normalize_cidrs` makes of a text. -/
def networkOf (raw : Text) : Option Network :=
  (parseNetwork (strip raw)).filter fun n => n.prefixLen ≠ 0

/-- `str(network)` -/
def networkText (n : Network) : Text :=
  ['.'].intercalate ((List.range 4).map fun k => Nat.toDigits 10 (n.base / 256 ^ (3 - k) % 256)) ++
    '/' :: Nat.toDigits 10 n.prefixLen

/-- `_normalize_cidrs`; a normalised text stands as its network. -/
def normalizeCidrs (values : List Text) : List Network :=
  (values.filterMap networkOf).dedup.insertionSort fun m n => networkText m ≤ networkText n

theorem mem_normalizeCidrs {values : List Text} {n : Network} :
    n ∈ normalizeCidrs values ↔ ∃ raw ∈ values, networkOf raw = some n := by
  rw [normalizeCidrs, mem_insertionSort, mem_dedup, mem_filterMap]

/-! ## Into the table -/

/-- An ingested prefix with its tags. -/
structure Item where
  cidr : Text
  region : Option Text
  countries : Option (List Text)
  deriving DecidableEq, Repr

/-- A row of `provider_cidr`. -/
structure ProviderCidr where
  providerKey : Text
  cidr : Text
  regionScope : Option Text
  countryCodes : Option Text
  deriving DecidableEq, Repr

/-- `_dedupe_cidr_items`: the first item of each prefix -/
def dedupeCidrItems (seen : List Text) : List Item → List Item
  | [] => []
  | item :: items =>
    if strip item.cidr = [] ∨ strip item.cidr ∈ seen then dedupeCidrItems seen items
    else item :: dedupeCidrItems (strip item.cidr :: seen) items

def joinCodes (countries : List Text) : Text := [','].intercalate countries

/-- The text of the tags in a CSV row: what is absent is empty. -/
def Item.regionField (item : Item) : Text := item.region.getD []

def Item.countriesField (item : Item) : Text := joinCodes (item.countries.getD [])

/-- A row of the staging CSV. -/
def csvRow (providerKey refreshedAt : Text) (item : Item) : List Text :=
  [providerKey, item.cidr, item.regionField, item.countriesField, refreshedAt]

def writeProviderCidrCsv (providerKey refreshedAt : Text) (items : List Item) : List (List Text) :=
  (dedupeCidrItems [] items).map (csvRow providerKey refreshedAt)

/-- What `INSERT_SQL` makes of a CSV row; a row with fewer than five fields is left out. -/
def insertedRow : List Text → Option ProviderCidr
  | providerKey :: cidr :: regionScope :: countryCodes :: _refreshedAt :: _ =>
    some ⟨providerKey, cidr, some regionScope, some countryCodes⟩
  | _ => none

/-- The inserts, under `uq_provider_cidr_key_cidr`. -/
def insertRows (table : List ProviderCidr) : List ProviderCidr → Option (List ProviderCidr)
  | [] => some table
  | row :: rows =>
    if table.any fun r => r.providerKey = row.providerKey ∧ r.cidr = row.cidr then none
    else insertRows (table ++ [row]) rows

/-- `import_provider_cidr_csv`, with the rows that `csv.reader` gives -/
def importProviderCidrCsv (table : List ProviderCidr) (providerKey : Text)
    (csv : List (List Text)) : Option (List ProviderCidr) :=
  insertRows (table.filter (·.providerKey ≠ providerKey)) (csv.filterMap insertedRow)

def upsertProviderCidrs (table : List ProviderCidr) (providerKey refreshedAt : Text)
    (items : List Item) : Option (List ProviderCidr) :=
  importProviderCidrCsv table providerKey (writeProviderCidrCsv providerKey refreshedAt items)

/-- The rows of a provider. -/
def rowsOf (table : List ProviderCidr) (providerKey : Text) : List ProviderCidr :=
  table.filter (·.providerKey = providerKey)

def readCodes (codes : Text) : List Text := ((codes.splitOn ',').map strip).filter (· ≠ [])

/-- The item that `add_custom_provider_entries` makes of a row. -/
def readBack (row : ProviderCidr) : Item where
  cidr := row.cidr
  region := row.regionScope
  countries :=
    match row.countryCodes with
    | none => none
    | some [] => none
    | some codes => some (readCodes codes)

/-! ## The scope filter -/

/-- The options of a generation that look at the tags. -/
structure GeoOptions where
  scopes : List Scope
  strictGeoFilter : Bool
  includeNonGeoFallback : Bool
  deriving DecidableEq, Repr

def GeoOptions.takesRegion (casing : Casing) (options : GeoOptions) (region : Text) : Bool :=
  matchesRegionScope casing region options.scopes &&
    !(options.strictGeoFilter && !matchesStrictScopeValue casing region options.scopes)

def GeoOptions.takesCountries (casing : Casing) (options : GeoOptions) (countries : List Text) :
    Bool :=
  countries.any (matchesCountryScope casing · options.scopes) &&
    !(options.strictGeoFilter && !isStrictGeoCountrySet casing countries)

/-- Whether `_update_cidr_files_from_db_impl` takes a row. -/
def rowPasses (casing : Casing) (options : GeoOptions) (row : ProviderCidr) : Bool :=
  if .all ∈ options.scopes then true
  else
    match row.regionScope, row.countryCodes with
    | some region, _ => options.takesRegion casing region
    | none, some codes => options.takesCountries casing (codes.splitOn ',')
    | none, none => options.includeNonGeoFallback

/-- The CIDRs of a provider after the scope filter. -/
def scopeFilter (casing : Casing) (options : GeoOptions) (rows : List ProviderCidr) :
    List Network :=
  normalizeCidrs ((rows.filter (rowPasses casing options)).map (·.cidr))

/-- Whether the filter is to take an item: one with a region by its region, one with only countries
by its countries, one with neither by the fallback. -/
def Item.passes (casing : Casing) (options : GeoOptions) (item : Item) : Bool :=
  if .all ∈ options.scopes then true
  else if item.regionField ≠ [] then options.takesRegion casing item.regionField
  else if item.countries.getD [] ≠ [] then
    options.takesCountries casing (item.countries.getD [])
  else options.includeNonGeoFallback

/-! ## What is stored -/

/-- Items with valid prefixes, no two of one network. -/
structure ValidItems (items : List Item) : Prop where
  valid : ∀ item ∈ items, (networkOf item.cidr).isSome = true
  apart : items.Pairwise fun a b => networkOf a.cidr ≠ networkOf b.cidr

/-- The row of an item: an absent tag is stored as an empty text. -/
def storedRow (providerKey : Text) (item : Item) : ProviderCidr :=
  ⟨providerKey, item.cidr, some item.regionField, some item.countriesField⟩

variable {items : List Item} {item : Item} {table stored : List ProviderCidr}
  {providerKey refreshedAt : Text}

theorem strip_ne_nil (h : (networkOf item.cidr).isSome = true) : strip item.cidr ≠ [] := by
  intro hEmpty
  rw [networkOf, hEmpty] at h
  revert h
  decide

theorem dedupeCidrItems_of_apart {seen : List Text} (h : ValidItems items)
    (hSeen : ∀ item ∈ items, strip item.cidr ∉ seen) : dedupeCidrItems seen items = items := by
  induction items generalizing seen with
  | nil => rfl
  | cons item items ih =>
    obtain ⟨hValid, hApart⟩ := h
    rw [forall_mem_cons] at hValid hSeen
    obtain ⟨hFirst, hApart⟩ := pairwise_cons.mp hApart
    have hNew : ¬(strip item.cidr = [] ∨ strip item.cidr ∈ seen) := by
      rintro (hEmpty | hMem)
      · exact strip_ne_nil hValid.1 hEmpty
      · exact hSeen.1 hMem
    rw [dedupeCidrItems, if_neg hNew, ih ⟨hValid.2, hApart⟩]
    intro other hMem hIn
    rcases mem_cons.mp hIn with hSame | hIn
    · exact hFirst other hMem (by rw [networkOf, networkOf, hSame])
    · exact hSeen.2 other hMem hIn

theorem insertedRow_csvRow (item : Item) :
    insertedRow (csvRow providerKey refreshedAt item) = some (storedRow providerKey item) := rfl

theorem insertRows_of_apart {rows : List ProviderCidr}
    (h : (table ++ rows).Pairwise fun a b => ¬(a.providerKey = b.providerKey ∧ a.cidr = b.cidr)) :
    insertRows table rows = some (table ++ rows) := by
  induction rows generalizing table with
  | nil => rw [append_nil, insertRows]
  | cons row rows ih =>
    have hFree : ¬(table.any fun r => r.providerKey = row.providerKey ∧ r.cidr = row.cidr) := by
      rw [any_eq_true]
      rintro ⟨r, hMem, hSame⟩
      exact (pairwise_append.mp h).2.2 r hMem row mem_cons_self (of_decide_eq_true hSame)
    rw [insertRows, if_neg hFree]
    rw [append_cons] at h
    rw [ih h, ← append_cons]

/-- The rows of valid items stand apart, also from those of the other providers. -/
theorem apart_upserted (h : ValidItems items)
    (hTable : table.Pairwise fun a b => ¬(a.providerKey = b.providerKey ∧ a.cidr = b.cidr)) :
    (table.filter (·.providerKey ≠ providerKey) ++ items.map (storedRow providerKey)).Pairwise
      fun a b => ¬(a.providerKey = b.providerKey ∧ a.cidr = b.cidr) := by
  refine pairwise_append.mpr ⟨hTable.filter _, ?_, ?_⟩
  · rw [pairwise_map]
    exact h.apart.imp fun hNe hSame => hNe (congrArg networkOf hSame.2)
  · intro r hMem row hRow hSame
    obtain ⟨item, -, rfl⟩ := mem_map.mp hRow
    exact of_decide_eq_true (mem_filter.mp hMem).2 hSame.1

/-- **Valid items are stored, each in its row.** -/
theorem upsertProviderCidrs_valid (h : ValidItems items)
    (hTable : table.Pairwise fun a b => ¬(a.providerKey = b.providerKey ∧ a.cidr = b.cidr)) :
    upsertProviderCidrs table providerKey refreshedAt items =
      some (table.filter (·.providerKey ≠ providerKey) ++ items.map (storedRow providerKey)) := by
  have hCsv : (writeProviderCidrCsv providerKey refreshedAt items).filterMap insertedRow =
      items.map (storedRow providerKey) := by
    rw [writeProviderCidrCsv, dedupeCidrItems_of_apart h fun _ _ => not_mem_nil,
      filterMap_map, filterMap_eq_map_iff_forall_eq_some.mpr]
    exact fun item _ => insertedRow_csvRow item
  rw [upsertProviderCidrs, importProviderCidrCsv, hCsv]
  exact insertRows_of_apart (apart_upserted h hTable)

theorem rowsOf_upserted :
    rowsOf (table.filter (·.providerKey ≠ providerKey) ++ items.map (storedRow providerKey))
      providerKey = items.map (storedRow providerKey) := by
  have hOld : (table.filter (·.providerKey ≠ providerKey)).filter (·.providerKey = providerKey) =
      [] := by
    rw [filter_filter, filter_eq_nil_iff]
    intro row _ hRow
    rw [Bool.and_eq_true, decide_eq_true_eq, decide_eq_true_eq] at hRow
    exact hRow.2 hRow.1
  rw [rowsOf, filter_append, hOld, nil_append, filter_eq_self]
  intro row hRow
  obtain ⟨item, -, rfl⟩ := mem_map.mp hRow
  exact decide_eq_true rfl

/-! ## What the filter takes -/

variable {casing : Casing} {options : GeoOptions}

theorem takesRegion_nil (hScopes : .all ∉ options.scopes) :
    options.takesRegion casing [] = false := by
  have hEmpty : matchesRegionScope casing [] options.scopes = false := by
    rw [matchesRegionScope, if_neg hScopes]
    simp [show strip ([] : Text) = [] from rfl, casing.lower_nil]
  rw [GeoOptions.takesRegion, hEmpty, Bool.false_and]

/-- A stored item is taken if it has a region that the filter takes. -/
theorem rowPasses_storedRow : rowPasses casing options (storedRow providerKey item) =
    (item.passes casing options &&
      (decide (.all ∈ options.scopes) || decide (item.regionField ≠ []))) := by
  unfold rowPasses Item.passes
  by_cases hScopes : .all ∈ options.scopes
  · simp [hScopes]
  · rw [if_neg hScopes, if_neg hScopes, decide_eq_false hScopes, Bool.false_or]
    show options.takesRegion casing item.regionField = _
    by_cases hRegion : item.regionField = []
    · rw [hRegion, takesRegion_nil hScopes]
      simp
    · rw [if_pos hRegion, decide_eq_true hRegion, Bool.and_true]

/-- Items without a region are taken only where everything is. -/
def RegionsOnly (casing : Casing) (options : GeoOptions) (items : List Item) : Prop :=
  .all ∈ options.scopes ∨
    ∀ item ∈ items, item.regionField = [] → item.passes casing options = false

/-- The filter takes the networks of the items that it is to take. -/
def Selects (casing : Casing) (options : GeoOptions) (items : List Item)
    (rows : List ProviderCidr) : Prop :=
  ∀ n, n ∈ scopeFilter casing options rows ↔
    ∃ item ∈ items, networkOf item.cidr = some n ∧ item.passes casing options = true

/-- What the scope filter selects from freshly stored rows. -/
theorem mem_scopeFilter {n : Network} :
    n ∈ scopeFilter casing options (items.map (storedRow providerKey)) ↔
      ∃ item ∈ items, networkOf item.cidr = some n ∧ item.passes casing options = true ∧
        (.all ∈ options.scopes ∨ item.regionField ≠ []) := by
  rw [scopeFilter, mem_normalizeCidrs]
  constructor
  · rintro ⟨raw, hRaw, hNetwork⟩
    obtain ⟨row, hRow, rfl⟩ := mem_map.mp hRaw
    obtain ⟨hMem, hPasses⟩ := mem_filter.mp hRow
    obtain ⟨item, hItem, rfl⟩ := mem_map.mp hMem
    rw [rowPasses_storedRow, Bool.and_eq_true, Bool.or_eq_true, decide_eq_true_eq,
      decide_eq_true_eq] at hPasses
    exact ⟨item, hItem, hNetwork, hPasses⟩
  · rintro ⟨item, hItem, hNetwork, hPasses⟩
    refine ⟨item.cidr, mem_map.mpr ⟨storedRow providerKey item, ?_, rfl⟩, hNetwork⟩
    refine mem_filter.mpr ⟨mem_map_of_mem hItem, ?_⟩
    rw [rowPasses_storedRow, Bool.and_eq_true, Bool.or_eq_true, decide_eq_true_eq,
      decide_eq_true_eq]
    exact hPasses

theorem eq_of_networkOf (h : ValidItems items) {a b : Item} (hA : a ∈ items) (hB : b ∈ items)
    (hSame : networkOf a.cidr = networkOf b.cidr) : a = b := by
  have hSymm : Std.Symm fun a b : Item => networkOf a.cidr ≠ networkOf b.cidr :=
    ⟨fun _ _ hApart => hApart.symm⟩
  by_contra hNe
  exact h.apart.forall hA hB hNe hSame

/-- The filter takes what it is to take exactly if items without a region do not matter. -/
theorem selects_iff (h : ValidItems items) :
    Selects casing options items (items.map (storedRow providerKey)) ↔
      RegionsOnly casing options items := by
  unfold Selects
  simp only [mem_scopeFilter]
  constructor
  · intro hSelects
    refine or_iff_not_imp_left.mpr fun hScopes item hItem hRegion => ?_
    by_contra hPasses
    rw [Bool.not_eq_false] at hPasses
    obtain ⟨n, hNetwork⟩ := Option.isSome_iff_exists.mp (h.valid item hItem)
    obtain ⟨other, hOther, hSame, -, hTaken⟩ := (hSelects n).mpr ⟨item, hItem, hNetwork, hPasses⟩
    obtain rfl := eq_of_networkOf h hOther hItem (hSame.trans hNetwork.symm)
    exact hTaken.elim hScopes (· hRegion)
  · intro hRegions n
    constructor
    · rintro ⟨item, hItem, hNetwork, hPasses, -⟩
      exact ⟨item, hItem, hNetwork, hPasses⟩
    · rintro ⟨item, hItem, hNetwork, hPasses⟩
      refine ⟨item, hItem, hNetwork, hPasses, hRegions.imp_right fun hAll hRegion => ?_⟩
      rw [hAll item hItem hRegion] at hPasses
      cases hPasses

/-! ## Stored again -/

/-- Between commas there are codes, none of them empty or padded. -/
def CleanCodes (codes : Text) : Prop :=
  codes = [] ∨ ∀ code ∈ codes.splitOn ',', code ≠ [] ∧ strip code = code

/-- A field is read back as stored exactly if its codes are clean. -/
theorem joinCodes_readCodes {codes : Text} (hCodes : codes ≠ []) :
    joinCodes (readCodes codes) = codes ↔ CleanCodes codes := by
  have hJoin : joinCodes (codes.splitOn ',') = codes := intercalate_splitOn ','
  constructor
  · intro hSame
    have hPieces : readCodes codes = codes.splitOn ',' := by
      have hNe : readCodes codes ≠ [] := fun hNil => hCodes (by rw [← hSame, hNil]; rfl)
      have hComma : ∀ code ∈ readCodes codes, ',' ∉ code := by
        intro code hMem
        obtain ⟨piece, hPiece, rfl⟩ := mem_map.mp (mem_of_mem_filter hMem)
        exact fun hIn => Lib.PyText.not_mem_of_mem_splitOn hPiece (Lib.PyText.mem_of_mem_strip hIn)
      have hSplit := splitOn_intercalate ',' hComma hNe
      rw [← hSplit]
      exact congrArg (List.splitOn ',') hSame
    have hAll := length_filter_eq_length_iff.mp
      ((congrArg List.length hPieces).trans (length_map strip).symm)
    rw [readCodes, filter_eq_self.mpr hAll] at hPieces
    refine Or.inr fun code hMem => ?_
    have hStrip : strip code = code := by
      refine map_inj_left.mp (hPieces.trans (map_id _).symm) code hMem
    refine ⟨?_, hStrip⟩
    have hFull := hAll (strip code) (mem_map_of_mem hMem)
    rw [hStrip] at hFull
    exact of_decide_eq_true hFull
  · rintro (rfl | hClean)
    · exact absurd rfl hCodes
    · have hStripped : (codes.splitOn ',').map strip = codes.splitOn ',' := by
        conv_rhs => rw [← map_id (codes.splitOn ',')]
        exact map_congr_left fun code hMem => (hClean code hMem).2
      have hKept : readCodes codes = codes.splitOn ',' := by
        rw [readCodes, hStripped, filter_eq_self]
        exact fun code hMem => decide_eq_true (hClean code hMem).1
      rw [hKept, hJoin]

/-- Storing the rows again, as an addition does, gives the same rows. -/
def RestoresTags (table : List ProviderCidr) (providerKey refreshedAt : Text) : Prop :=
  (upsertProviderCidrs table providerKey refreshedAt ((rowsOf table providerKey).map readBack)).map
    (rowsOf · providerKey) = some (rowsOf table providerKey)

/-- The tags of the items have their meaning in the generation, and keep it. -/
def TagsSurvive (casing : Casing) (options : GeoOptions) (table : List ProviderCidr)
    (providerKey refreshedAt restoredAt : Text) (items : List Item) : Prop :=
  ∃ stored, upsertProviderCidrs table providerKey refreshedAt items = some stored ∧
    Selects casing options items (rowsOf stored providerKey) ∧
    RestoresTags stored providerKey restoredAt

theorem countriesField_readBack (item : Item) :
    (readBack (storedRow providerKey item)).countriesField = item.countriesField ↔
      CleanCodes item.countriesField := by
  show joinCodes ((readBack (storedRow providerKey item)).countries.getD []) = _ ↔ _
  unfold readBack storedRow
  rcases hCodes : item.countriesField with _ | ⟨c, codes⟩
  · exact iff_of_true rfl (Or.inl rfl)
  · exact joinCodes_readCodes (cons_ne_nil c codes)

theorem ValidItems.readBack (h : ValidItems items) :
    ValidItems ((items.map (storedRow providerKey)).map Cidr.readBack) where
  valid := by
    intro item hMem
    rw [map_map] at hMem
    obtain ⟨old, hOld, rfl⟩ := mem_map.mp hMem
    exact h.valid old hOld
  apart := by
    rw [map_map, pairwise_map]
    exact h.apart

/-- The tags are kept if the country codes are clean. -/
theorem restoresTags_iff (h : ValidItems items)
    (hTable : table.Pairwise fun a b => ¬(a.providerKey = b.providerKey ∧ a.cidr = b.cidr))
    (hStored : upsertProviderCidrs table providerKey refreshedAt items = some stored)
    (restoredAt : Text) : RestoresTags stored providerKey restoredAt ↔
      ∀ item ∈ items, CleanCodes item.countriesField := by
  rw [upsertProviderCidrs_valid h hTable] at hStored
  cases hStored
  rw [RestoresTags, rowsOf_upserted,
    upsertProviderCidrs_valid h.readBack (apart_upserted h hTable), Option.map_some, rowsOf_upserted, Option.some.injEq, map_map, map_map, map_inj_left]
  refine forall_congr' fun item => forall_congr' fun _ => ?_
  rw [← @countriesField_readBack providerKey item]
  constructor
  · intro hRow
    exact Option.some.inj (congrArg ProviderCidr.countryCodes hRow)
  · intro hCodes
    show storedRow providerKey (Cidr.readBack (storedRow providerKey item)) = _
    rw [storedRow, hCodes]
    rfl

/-- **The tags survive exactly if items without a region are none that the filter is to take,**
and their country codes are clean. -/
theorem tags_survive_iff (casing : Casing) (options : GeoOptions) (table : List ProviderCidr)
    (providerKey refreshedAt restoredAt : Text) (items : List Item) (h : ValidItems items)
    (hTable : table.Pairwise fun a b => ¬(a.providerKey = b.providerKey ∧ a.cidr = b.cidr)) :
    TagsSurvive casing options table providerKey refreshedAt restoredAt items ↔
      RegionsOnly casing options items ∧ ∀ item ∈ items, CleanCodes item.countriesField := by
  obtain ⟨stored, hStored⟩ : ∃ stored,
      upsertProviderCidrs table providerKey refreshedAt items = some stored :=
    ⟨_, upsertProviderCidrs_valid h hTable⟩
  have hRows : rowsOf stored providerKey = items.map (storedRow providerKey) := by
    rw [upsertProviderCidrs_valid h hTable] at hStored
    rw [← Option.some.inj hStored, rowsOf_upserted]
  have hRestores := restoresTags_iff h hTable hStored restoredAt
  have hSelects := @selects_iff items providerKey casing options h
  constructor
  · rintro ⟨stored', hStored', hTaken, hKept⟩
    obtain rfl := Option.mem_unique hStored hStored'
    rw [hRows] at hTaken
    exact ⟨hSelects.mp hTaken, hRestores.mp hKept⟩
  · rintro ⟨hRegions, hClean⟩
    refine ⟨stored, hStored, ?_, hRestores.mpr hClean⟩
    rw [hRows]
    exact hSelects.mpr hRegions

/-! ## An untagged prefix -/

/-- ASCII letters, as `str.lower` and `str.upper` have them. -/
def asciiCasing : Casing where
  lower := List.map Char.toLower
  upper := List.map Char.toUpper
  lower_nil := rfl

def europeOptions : GeoOptions := ⟨[.europe], false, true⟩

def frankfurt : Item := ⟨"3.64.0.0/12".toList, some "eu-central-1".toList, none⟩

def untagged : Item := ⟨"10.9.0.0/24".toList, none, none⟩

theorem validItems_singleton {item : Item} (h : (networkOf item.cidr).isSome = true) :
    ValidItems [item] :=
  ⟨fun _ hMem => mem_singleton.mp hMem ▸ h, pairwise_singleton _ _⟩

theorem tags_survive_frankfurt :
    TagsSurvive asciiCasing europeOptions [] "amazon-ips.txt".toList [] [] [frankfurt] ↔
      RegionsOnly asciiCasing europeOptions [frankfurt] ∧
        ∀ item ∈ [frankfurt], CleanCodes item.countriesField :=
  tags_survive_iff asciiCasing europeOptions [] _ [] [] [frankfurt]
    (validItems_singleton (by decide)) List.Pairwise.nil

/-- A prefix without tags is not taken by the fallback: its empty region is no absent one. -/
theorem not_always_survive :
    ¬∀ casing options table providerKey refreshedAt restoredAt items, ValidItems items →
      (table.Pairwise fun a b => ¬(a.providerKey = b.providerKey ∧ a.cidr = b.cidr)) →
      TagsSurvive casing options table providerKey refreshedAt restoredAt items := by
  intro hAll
  obtain ⟨stored, hStored, hSelects, -⟩ := hAll asciiCasing europeOptions []
    "amazon-ips.txt".toList [] [] [untagged] (validItems_singleton (by decide))
    List.Pairwise.nil
  have hRows : (upsertProviderCidrs [] "amazon-ips.txt".toList [] [untagged]).map (fun stored =>
      scopeFilter asciiCasing europeOptions (rowsOf stored "amazon-ips.txt".toList)) =
      some [] := by decide
  rw [hStored, Option.map_some, Option.some.injEq] at hRows
  obtain ⟨n, hNetwork⟩ := Option.isSome_iff_exists.mp
    (show (networkOf untagged.cidr).isSome = true by decide)
  have hTaken := (hSelects n).mpr
    ⟨untagged, mem_singleton_self _, hNetwork, by decide⟩
  rw [hRows] at hTaken
  cases hTaken

end AdminPanel.Cidr
