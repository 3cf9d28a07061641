import AdminPanel.Cidr.Staging

/-!
# The two geo classifiers

`_matches_region_scope` and `_scope_strict_geo_buckets` are two chains of prefix tests with many
overlapping prefixes.

* `Scope.texts`, `Specific` — the macro region with the longest prefix of a value;
* `buckets_of_specific` — where the strict chain ends for such a value;
* `Agrees` — what the classifiers have in common.

Main result: `classifiers_agree`.
-/

namespace AdminPanel.Cidr

open List

open Lib.PyText (strip)

/-! ## The longest prefix -/

/-- The prefixes of a macro region; `eu` and `eur` are whole values. -/
def Scope.texts : Scope → List Text
  | .europe => ["eu-", "europe", "eusc-", "eu", "eur"].map String.toList
  | .northAmerica => ["us-", "ca-", "na-", "northamerica-"].map String.toList
  | .centralAmerica =>
    ["mx-", "centralamerica", "central-america", "northamerica-south"].map String.toList
  | .southAmerica => ["sa-", "southamerica", "south-america"].map String.toList
  | .asiaEast => ["asia-east", "ap-east", "asia-northeast", "ap-northeast"].map String.toList
  | .asiaSouth => ["asia-south", "ap-south"].map String.toList
  | .asiaSoutheast => ["asia-southeast", "ap-southeast"].map String.toList
  | .oceania => ["australia", "oceania"].map String.toList
  | .middleEast => ["me-", "middleeast", "middle-east"].map String.toList
  | .africa => ["af-", "africa"].map String.toList
  | _ => []

def HasPrefix (value p : Text) (s : Scope) : Prop :=
  p ∈ s.texts ∧ p <+: value ∧ (p = "eu".toList ∨ p = "eur".toList → p = value)

/-- A macro region with a prefix that is longer than those of all others. -/
def Specific (value : Text) (s : Scope) : Prop :=
  ∃ p, HasPrefix value p s ∧
    ∀ t ∈ strictGeoBucketScopes, t ≠ s → ∀ q, HasPrefix value q t → q.length < p.length

/-- The `asia` and `ap` values of no macro region. -/
def IsBroad (value : Text) : Prop :=
  startsWithAny value ["asia", "ap-"] = true ∧
    ∀ s ∈ strictGeoBucketScopes, ∀ p, ¬ HasPrefix value p s

/-- The values whose test stands behind one that takes them all. -/
def IsSoutheast (value : Text) : Prop :=
  startsWithAny value ["asia-southeast", "ap-southeast"] = true

/-- What the two classifiers have in common. -/
structure Agrees (casing : Casing) : Prop where
  strict : ∀ region, ¬ IsSoutheast (casing.lower (strip region)) → ∀ s ∈ strictGeoBucketScopes,
    ∀ (fallback : Bool) (row : ProviderCidr), row.regionScope = some region →
      (rowPasses casing ⟨[s], true, fallback⟩ row = true ↔
        Specific (casing.lower (strip region)) s ∧ ¬ IsBroad (casing.lower (strip region)))
  subset : ∀ (scopes : List Scope) (fallback : Bool) (row : ProviderCidr),
    rowPasses casing ⟨scopes, true, fallback⟩ row = true →
      rowPasses casing ⟨scopes, false, fallback⟩ row = true
  grows : ∀ raw raw' : List Text, raw ⊆ raw' →
    (∃ value ∈ raw, Scope.ofToken (casing.lower (strip value)) ≠ none) →
      ∀ (strict fallback : Bool) (row : ProviderCidr),
        rowPasses casing ⟨normalizeRegionScopes casing (some raw), strict, fallback⟩ row = true →
          rowPasses casing ⟨normalizeRegionScopes casing (some raw'), strict, fallback⟩ row = true

variable {value p q : Text} {s t : Scope}

/-- No two macro regions have prefixes of one value, but for two pairs. -/
theorem texts_apart : ∀ s ∈ strictGeoBucketScopes, ∀ t ∈ strictGeoBucketScopes, ∀ p ∈ s.texts,
    ∀ q ∈ t.texts, p <+: q → s = t ∨ (s = .northAmerica ∧ t = .centralAmerica ∧
      q = "northamerica-south".toList) ∨ q ∈ Scope.asiaSoutheast.texts := by
  decide

theorem takesRegion_iff (hS : s ∈ strictGeoBucketScopes) :
    s.takesRegion value = true ↔ ∃ p, HasPrefix value p s := by
  have hWhole : ∀ p, p <+: value ∧ p = value ↔ value = p := fun p =>
    ⟨fun h => h.2.symm, fun h => ⟨h ▸ prefix_rfl, h.symm⟩⟩
  cases s <;> first
    | exact absurd hS (by decide)
    | simp [Scope.takesRegion, Scope.texts, HasPrefix, startsWithAny, isEurope, hWhole, or_assoc]

theorem isSoutheast_of_mem (hQ : q ∈ Scope.asiaSoutheast.texts) (h : q <+: value) :
    IsSoutheast value := by
  obtain ⟨raw, hRaw, rfl⟩ := mem_map.mp hQ
  exact any_eq_true.mpr ⟨raw, hRaw, isPrefixOf_iff_prefix.mpr h⟩

/-- What besides its specific region takes a value. -/
theorem takes_of_specific (hNot : ¬ IsSoutheast value) (hS : s ∈ strictGeoBucketScopes)
    (h : Specific value s) (hT : t ∈ strictGeoBucketScopes) (hTakes : t.takesRegion value = true) :
    t = s ∨ t = .northAmerica ∧ s = .centralAmerica := by
  obtain ⟨p, hP, hLong⟩ := h
  obtain ⟨q, hQ⟩ := (takesRegion_iff hT).mp hTakes
  by_cases hSame : t = s
  · exact .inl hSame
  · have hShort := hLong t hT hSame q hQ
    have hPrefix := prefix_of_prefix_length_le hQ.2.1 hP.2.1 hShort.le
    rcases texts_apart t hT s hS q hQ.1 p hP.1 hPrefix with hEq | ⟨hNorth, hCentral, -⟩ | hEast
    · exact .inl hEq
    · exact .inr ⟨hNorth, hCentral⟩
    · exact absurd (isSoutheast_of_mem hEast hP.2.1) hNot

/-- The macro region of a value, by the scope that takes it. -/
theorem specific_iff (hNot : ¬ IsSoutheast value) (hS : s ∈ strictGeoBucketScopes) :
    Specific value s ↔ s.takesRegion value = true ∧
      (s = .northAmerica → ¬ "northamerica-south".toList <+: value) := by
  constructor
  · intro h
    obtain ⟨p, hP, hLong⟩ := h
    refine ⟨(takesRegion_iff hS).mpr ⟨p, hP⟩, ?_⟩
    rintro rfl hSouth
    have hShort := hLong .centralAmerica (by decide) (by decide) _
      ⟨by decide, hSouth, fun hWhole => absurd hWhole (by decide)⟩
    have hBound : ∀ p ∈ Scope.northAmerica.texts, p.length ≤ 13 := by decide
    exact absurd ((hBound p hP.1).trans_lt (by decide)) hShort.asymm
  · rintro ⟨hTakes, hSouth⟩
    obtain ⟨p, hP⟩ := (takesRegion_iff hS).mp hTakes
    refine ⟨p, hP, fun t hT hNe q hQ => ?_⟩
    by_contra hLong
    have hPrefix := prefix_of_prefix_length_le hP.2.1 hQ.2.1 (Nat.le_of_not_lt hLong)
    rcases texts_apart s hS t hT p hP.1 q hQ.1 hPrefix with hEq | ⟨hNorth, -, rfl⟩ | hEast
    · exact hNe hEq.symm
    · exact hSouth hNorth hQ.2.1
    · exact hNot (isSoutheast_of_mem hEast hQ.2.1)

/-! ## The strict chain -/

theorem startsWithAny_of {l l' : List String} (h : ∀ p ∈ l, ∃ q ∈ l', q.toList <+: p.toList)
    (hStarts : startsWithAny value l = true) : startsWithAny value l' = true := by
  obtain ⟨p, hP, hStart⟩ := any_eq_true.mp hStarts
  obtain ⟨q, hQ, hPrefix⟩ := h p hP
  exact any_eq_true.mpr ⟨q, hQ, isPrefixOf_iff_prefix.mpr
    (hPrefix.trans (List.isPrefixOf_iff_prefix.mp hStart))⟩

theorem startsWithAny_congr (value : Text) (l l' : List String)
    (h : ∀ p ∈ l, ∃ q ∈ l', q.toList <+: p.toList) (h' : ∀ p ∈ l', ∃ q ∈ l, q.toList <+: p.toList) :
    startsWithAny value l = startsWithAny value l' :=
  Bool.eq_iff_iff.mpr ⟨startsWithAny_of h, startsWithAny_of h'⟩

/-- The tests of the strict chain, by the regions they stand for. -/
theorem scopeStrictGeoBuckets_eq (value : Text) : scopeStrictGeoBuckets value =
    if value = [] then []
    else if Scope.centralAmerica.takesRegion value then [.centralAmerica]
    else if Scope.government.takesRegion value then [.northAmerica]
    else if Scope.china.takesRegion value then [.asiaEast]
    else if Scope.europe.takesRegion value then [.europe]
    else if Scope.northAmerica.takesRegion value then [.northAmerica]
    else if Scope.southAmerica.takesRegion value then [.southAmerica]
    else if Scope.asiaEast.takesRegion value then [.asiaEast]
    else if Scope.asiaSouth.takesRegion value then [.asiaSouth]
    else if Scope.asiaSoutheast.takesRegion value then [.asiaSoutheast]
    else if Scope.oceania.takesRegion value then [.oceania]
    else if Scope.middleEast.takesRegion value then [.middleEast]
    else if Scope.africa.takesRegion value then [.africa]
    else if startsWithAny value ["asia", "ap-", "asia-pacific"] then strictAsiaPacificBuckets
    else [] := by
  have hCentral := startsWithAny_congr value
    ["northamerica-south", "centralamerica", "central-america", "mx-"]
    ["mx-", "centralamerica", "central-america", "northamerica-south"] (by decide) (by decide)
  have hEast := startsWithAny_congr value
    ["ap-east", "asia-east", "asia-northeast", "ap-northeast"]
    ["asia-east", "ap-east", "asia-northeast", "ap-northeast"] (by decide) (by decide)
  have hSouth := startsWithAny_congr value ["ap-south", "asia-south"]
    ["asia-south", "ap-south"] (by decide) (by decide)
  have hSoutheast := startsWithAny_congr value ["ap-southeast", "asia-southeast"]
    ["asia-southeast", "ap-southeast"] (by decide) (by decide)
  unfold scopeStrictGeoBuckets
  rw [hCentral, hEast, hSouth, hSoutheast]
  rfl

theorem not_takes_nil : ∀ s ∈ strictGeoBucketScopes, s.takesRegion [] = false := by decide

/-- No macro region takes a value of `china`. -/
theorem not_takes_china (hS : s ∈ strictGeoBucketScopes) (hTakes : s.takesRegion value = true)
    (hChina : Scope.china.takesRegion value = true) : False := by
  have hApart : ∀ s ∈ strictGeoBucketScopes, ∀ p ∈ s.texts, ∀ q ∈ ["cn-", "china"],
      ¬ p <+: q.toList ∧ ¬ q.toList <+: p := by decide
  obtain ⟨p, hP⟩ := (takesRegion_iff hS).mp hTakes
  obtain ⟨q, hQ, hStarts⟩ := any_eq_true.mp hChina
  have hPrefix := isPrefixOf_iff_prefix.mp hStarts
  obtain ⟨hLong, hShort⟩ := hApart s hS p hP.1 q hQ
  rcases Nat.le_total p.length q.toList.length with hLe | hLe
  · exact hLong (prefix_of_prefix_length_le hP.2.1 hPrefix hLe)
  · exact hShort (prefix_of_prefix_length_le hPrefix hP.2.1 hLe)

/-- The strict chain ends at the specific region. -/
theorem buckets_of_specific (hNot : ¬ IsSoutheast value) (hS : s ∈ strictGeoBucketScopes)
    (h : Specific value s) : scopeStrictGeoBuckets value = [s] := by
  have hTakes := ((specific_iff hNot hS).mp h).1
  have hNil : value ≠ [] := by
    rintro rfl
    rw [not_takes_nil s hS] at hTakes
    cases hTakes
  rw [scopeStrictGeoBuckets_eq, if_neg hNil]
  by_cases hCentral : Scope.centralAmerica.takesRegion value = true
  · rcases takes_of_specific hNot hS h (by decide) hCentral with rfl | ⟨hNorth, -⟩
    · rw [if_pos hCentral]
    · cases hNorth
  have hSame : ∀ t ∈ strictGeoBucketScopes, t.takesRegion value = true → [t] = [s] := by
    intro t hT hOther
    rcases takes_of_specific hNot hS h hT hOther with rfl | ⟨-, rfl⟩
    · rfl
    · exact absurd hTakes hCentral
  rw [if_neg hCentral]
  refine ite_eq_iff'.mpr ⟨fun hGov => ?_, fun _ => ite_eq_iff'.mpr ⟨fun hChina => ?_, fun _ => ?_⟩⟩
  · exact hSame .northAmerica (by decide) (startsWithAny_of (by decide) hGov)
  · exact (not_takes_china hS hTakes hChina).elim
  refine ite_eq_iff'.mpr ⟨hSame .europe (by decide), fun hEurope =>
    ite_eq_iff'.mpr ⟨hSame .northAmerica (by decide), fun hNorth =>
    ite_eq_iff'.mpr ⟨hSame .southAmerica (by decide), fun hSouth =>
    ite_eq_iff'.mpr ⟨hSame .asiaEast (by decide), fun hEast =>
    ite_eq_iff'.mpr ⟨hSame .asiaSouth (by decide), fun hSouthAsia =>
    ite_eq_iff'.mpr ⟨hSame .asiaSoutheast (by decide), fun hSoutheast =>
    ite_eq_iff'.mpr ⟨hSame .oceania (by decide), fun hOceania =>
    ite_eq_iff'.mpr ⟨hSame .middleEast (by decide), fun hMiddle =>
    ite_eq_iff'.mpr ⟨hSame .africa (by decide), fun hAfrica => ?_⟩⟩⟩⟩⟩⟩⟩⟩⟩
  simp only [strictGeoBucketScopes, mem_cons, not_mem_nil, or_false] at hS
  rcases hS with rfl | rfl | rfl | rfl | rfl | rfl | rfl | rfl | rfl | rfl
  exacts [absurd hTakes hEurope, absurd hTakes hNorth, absurd hTakes hCentral,
    absurd hTakes hSouth, absurd hTakes hEast, absurd hTakes hSouthAsia, absurd hTakes hSoutheast,
    absurd hTakes hOceania, absurd hTakes hMiddle, absurd hTakes hAfrica]

/-! ## Rows -/

variable {casing : Casing} {scopes scopes' : List Scope} {strict fallback : Bool}
  {row : ProviderCidr}

theorem rowPasses_of_all (h : .all ∈ scopes) :
    rowPasses casing ⟨scopes, strict, fallback⟩ row = true :=
  if_pos h

variable {region : Text}

/-- With one macro region, both chains must end at it. -/
theorem rowPasses_single (hS : s ∈ strictGeoBucketScopes)
    (hRegion : row.regionScope = some region) :
    rowPasses casing ⟨[s], true, fallback⟩ row = true ↔
      s.takesRegion (casing.lower (strip region)) = true ∧
        scopeStrictGeoBuckets (casing.lower (strip region)) = [s] := by
  have hPlain : ∀ s ∈ strictGeoBucketScopes, .all ≠ s ∧ .global ≠ s ∧ s.allowedBuckets = [s] := by
    decide
  obtain ⟨hAll, hGlobal, hAllowed⟩ := hPlain s hS
  unfold rowPasses GeoOptions.takesRegion matchesRegionScope matchesStrictScopeValue
  rw [hRegion]
  simp only [mem_singleton, hAll, hGlobal, if_false, false_and, any_cons, any_nil,
    Bool.or_false, Bool.true_and, Bool.not_not, Bool.and_eq_true]
  by_cases hNil : casing.lower (strip region) = []
  · simp [hNil, not_takes_nil s hS]
  · rw [if_neg hNil]
    simp only [hNil, ne_eq, not_false_eq_true, decide_true, true_and]
    refine and_congr_right fun _ => ?_
    split
    · next bucket hBuckets => simp [hBuckets, hAllowed]
    · next hOther => exact iff_of_false (fun hFalse => Bool.false_ne_true hFalse) (hOther s)

/-- **Strict selection takes the rows of the specific region.** -/
theorem strict_iff (hNot : ¬ IsSoutheast (casing.lower (strip region)))
    (hS : s ∈ strictGeoBucketScopes) (hRegion : row.regionScope = some region) :
    rowPasses casing ⟨[s], true, fallback⟩ row = true ↔
      Specific (casing.lower (strip region)) s := by
  rw [rowPasses_single hS hRegion]
  constructor
  · rintro ⟨hTakes, hBuckets⟩
    refine (specific_iff hNot hS).mpr ⟨hTakes, ?_⟩
    rintro rfl hSouth
    have hCentral : Scope.centralAmerica.takesRegion (casing.lower (strip region)) = true :=
      any_eq_true.mpr ⟨_, by decide, isPrefixOf_iff_prefix.mpr hSouth⟩
    have hNil : casing.lower (strip region) ≠ [] := fun hNil => by
      rw [hNil, not_takes_nil _ hS] at hTakes
      cases hTakes
    rw [scopeStrictGeoBuckets_eq, if_neg hNil, if_pos hCentral] at hBuckets
    cases hBuckets
  · exact fun h => ⟨((specific_iff hNot hS).mp h).1, buckets_of_specific hNot hS h⟩

theorem rowPasses_subset (h : rowPasses casing ⟨scopes, true, fallback⟩ row = true) :
    rowPasses casing ⟨scopes, false, fallback⟩ row = true := by
  unfold rowPasses at *
  split_ifs at h ⊢
  · rfl
  · split at h
    · exact Bool.and_eq_true_iff.mpr ⟨(Bool.and_eq_true_iff.mp h).1, rfl⟩
    · exact Bool.and_eq_true_iff.mpr ⟨(Bool.and_eq_true_iff.mp h).1, rfl⟩
    · exact h

/-! ## More scopes -/

theorem any_grows {α : Type} {l l' : List α} {f : α → Bool} (hSub : l ⊆ l') (h : l.any f = true) :
    l'.any f = true := by
  obtain ⟨a, hMem, hTrue⟩ := any_eq_true.mp h
  exact any_eq_true.mpr ⟨a, hSub hMem, hTrue⟩

theorem matchesRegionScope_grows (hSub : scopes ⊆ scopes')
    (h : matchesRegionScope casing region scopes = true) :
    matchesRegionScope casing region scopes' = true := by
  unfold matchesRegionScope at *
  split_ifs with hAll'
  · rfl
  · rw [if_neg fun hAll => hAll' (hSub hAll)] at h
    obtain ⟨hNe, hTakes⟩ := Bool.and_eq_true_iff.mp h
    exact Bool.and_eq_true_iff.mpr ⟨hNe, any_grows hSub hTakes⟩

theorem matchesStrictScopeValue_grows (hSub : scopes ⊆ scopes')
    (h : matchesStrictScopeValue casing region scopes = true) :
    matchesStrictScopeValue casing region scopes' = true := by
  unfold matchesStrictScopeValue at *
  dsimp only at *
  split_ifs with hAll' hNil hGlobal'
  · rfl
  · rw [if_neg fun hAll => hAll' (hSub hAll), if_pos hNil] at h
    cases h
  · rfl
  · rw [if_neg fun hAll => hAll' (hSub hAll), if_neg hNil,
      if_neg fun hGlobal => hGlobal' ⟨hSub hGlobal.1, hGlobal.2⟩] at h
    split at h
    · exact any_grows hSub h
    · cases h

theorem matchesCountryScope_grows {country : Text} (hSub : scopes ⊆ scopes')
    (h : matchesCountryScope casing country scopes = true) :
    matchesCountryScope casing country scopes' = true := by
  unfold matchesCountryScope at *
  split_ifs with hFree
  · rfl
  · rw [if_neg fun hAll => hFree (hAll.imp (hSub ·) (hSub ·))] at h
    obtain ⟨hNe, hTakes⟩ := Bool.and_eq_true_iff.mp h
    exact Bool.and_eq_true_iff.mpr ⟨hNe, any_grows hSub hTakes⟩

/-- More scopes select more rows. -/
theorem rowPasses_grows (hSub : scopes ⊆ scopes')
    (h : rowPasses casing ⟨scopes, strict, fallback⟩ row = true) :
    rowPasses casing ⟨scopes', strict, fallback⟩ row = true := by
  by_cases hAll' : .all ∈ scopes'
  · exact rowPasses_of_all hAll'
  unfold rowPasses at *
  rw [if_neg fun hAll => hAll' (hSub hAll)] at h
  rw [if_neg hAll']
  split at h
  · next region _ =>
    obtain ⟨hRegion, hStrict⟩ := Bool.and_eq_true_iff.mp h
    refine Bool.and_eq_true_iff.mpr ⟨matchesRegionScope_grows hSub hRegion, ?_⟩
    cases hMatches : matchesStrictScopeValue casing region scopes with
    | true => simp [matchesStrictScopeValue_grows hSub hMatches]
    | false => simp_all
  · obtain ⟨hCountries, hStrict⟩ := Bool.and_eq_true_iff.mp h
    refine Bool.and_eq_true_iff.mpr ⟨?_, hStrict⟩
    obtain ⟨country, hMem, hMatches⟩ := any_eq_true.mp hCountries
    exact any_eq_true.mpr ⟨country, hMem, matchesCountryScope_grows hSub hMatches⟩
  · exact h

/-- More values give more scopes, unless none was known and all are meant. -/
theorem normalizeRegionScopes_grows {raw raw' : List Text} (hSub : raw ⊆ raw')
    (hKnown : ∃ value ∈ raw, Scope.ofToken (casing.lower (strip value)) ≠ none) :
    normalizeRegionScopes casing (some raw) ⊆ normalizeRegionScopes casing (some raw') ∨
      .all ∈ normalizeRegionScopes casing (some raw') := by
  have hScopes := filterMap_subset (fun value => Scope.ofToken (casing.lower (strip value)))
    hSub
  obtain ⟨value, hMem, hSome⟩ := hKnown
  obtain ⟨scope, hScope⟩ := Option.ne_none_iff_exists'.mp hSome
  have hNe : (raw.filterMap fun value => Scope.ofToken (casing.lower (strip value))) ≠ [] :=
    ne_nil_of_mem (mem_filterMap.mpr ⟨value, hMem, hScope⟩)
  unfold normalizeRegionScopes
  dsimp only
  split_ifs with hAll hAll' hAll'
  · exact .inr (mem_singleton_self _)
  · exact absurd (.inr (hScopes (hAll.resolve_left hNe))) hAll'
  · exact .inr (mem_singleton_self _)
  · refine .inl fun scope hMem => ?_
    obtain ⟨hSorted, hIn⟩ := mem_filter.mp hMem
    exact mem_filter.mpr ⟨hSorted, decide_eq_true (hScopes (of_decide_eq_true hIn))⟩

/-- **The two classifiers agree**, but for the values of `asia-southeast`. -/
theorem classifiers_agree (casing : Casing) : Agrees casing where
  strict region hNot s hS fallback row hRegion := by
    rw [strict_iff hNot hS hRegion]
    refine ⟨fun h => ⟨h, fun hBroad => ?_⟩, And.left⟩
    obtain ⟨p, hP, -⟩ := h
    exact hBroad.2 s hS p hP
  subset _ _ _ h := rowPasses_subset h
  grows raw raw' hSub hKnown strict fallback row h := by
    rcases normalizeRegionScopes_grows hSub hKnown with hScopes | hAll
    · exact rowPasses_grows hScopes h
    · exact rowPasses_of_all hAll

/-- A first scope drops the rows of the others, and a value of `asia-southeast` is selected for
`asia-south`. -/
theorem not_always_agree :
    (¬ ∀ casing (raw raw' : List Text), raw ⊆ raw' → ∀ (strict fallback : Bool) row,
      rowPasses casing ⟨normalizeRegionScopes casing (some raw), strict, fallback⟩ row = true →
        rowPasses casing ⟨normalizeRegionScopes casing (some raw'), strict, fallback⟩ row = true) ∧
    ¬ ∀ casing region, ∀ s ∈ strictGeoBucketScopes, ∀ (fallback : Bool) (row : ProviderCidr),
      row.regionScope = some region →
        (rowPasses casing ⟨[s], true, fallback⟩ row = true ↔
          Specific (casing.lower (strip region)) s ∧ ¬ IsBroad (casing.lower (strip region))) := by
  constructor
  · intro h
    have hPasses := h asciiCasing [] ["europe".toList] (nil_subset _) false false
      ⟨[], [], some "us-east-1".toList, none⟩ (by decide)
    exact absurd hPasses (by decide)
  · intro h
    obtain ⟨⟨p, hP, hLong⟩, -⟩ := (h asciiCasing "asia-southeast1".toList .asiaSouth (by decide)
      false ⟨[], [], some "asia-southeast1".toList, none⟩ rfl).mp (by decide)
    have hShort := hLong .asiaSoutheast (by decide) (by decide) "asia-southeast".toList
      ⟨by decide, by decide, by decide⟩
    have hBound : ∀ p ∈ Scope.asiaSouth.texts, p.length ≤ 10 := by decide
    exact absurd ((hBound p hP.1).trans_lt (by decide)) hShort.asymm

end AdminPanel.Cidr
