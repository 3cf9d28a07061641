import AdminPanel.Lib.PyText

/-!
# Geo filters of CIDR lists

`geo.py`: which regions and which countries a choice of scopes takes.

* `normalizeRegionScopes` — the chosen scopes;
* `matchesRegionScope`, `matchesCountryScope` — the filters;
* `matchesStrictScopeValue`, `isStrictGeoCountrySet` — the stricter ones.
-/

namespace AdminPanel.Cidr

open Lib.PyText (strip)

abbrev Text := List Char

/-- `str.lower` and `str.upper` -/
structure Casing where
  lower : Text → Text
  upper : Text → Text
  lower_nil : lower [] = []

/-- `REGION_SCOPES` -/
inductive Scope
  | all
  | africa
  | asiaEast
  | asiaPacific
  | asiaSouth
  | asiaSoutheast
  | centralAmerica
  | china
  | europe
  | global
  | government
  | middleEast
  | northAmerica
  | oceania
  | southAmerica
  deriving DecidableEq, Repr

def Scope.name : Scope → String
  | .all => "all"
  | .africa => "africa"
  | .asiaEast => "asia-east"
  | .asiaPacific => "asia-pacific"
  | .asiaSouth => "asia-south"
  | .asiaSoutheast => "asia-southeast"
  | .centralAmerica => "central-america"
  | .china => "china"
  | .europe => "europe"
  | .global => "global"
  | .government => "government"
  | .middleEast => "middle-east"
  | .northAmerica => "north-america"
  | .oceania => "oceania"
  | .southAmerica => "south-america"

/-- The scopes but `all`, sorted by name. -/
def sortedScopes : List Scope :=
  [.africa, .asiaEast, .asiaPacific, .asiaSouth, .asiaSoutheast, .centralAmerica, .china, .europe,
    .global, .government, .middleEast, .northAmerica, .oceania, .southAmerica]

def Scope.ofToken (token : Text) : Option Scope :=
  (.all :: sortedScopes).find? fun scope => scope.name.toList = token

def normalizeRegionScopes (casing : Casing) : Option (List Text) → List Scope
  | none => [.all]
  | some raw =>
    let normalized := raw.filterMap fun value => Scope.ofToken (casing.lower (strip value))
    if normalized = [] ∨ .all ∈ normalized then [.all]
    else sortedScopes.filter (· ∈ normalized)

/-! ## Regions -/

def startsWithAny (value : Text) (prefixes : List String) : Bool :=
  prefixes.any fun p => p.toList.isPrefixOf value

/-- `value in {"eu", "eur"}` -/
def isEurope (value : Text) : Bool :=
  startsWithAny value ["eu-", "europe", "eusc-"] || value = "eu".toList || value = "eur".toList

/-- The regions of one scope. -/
def Scope.takesRegion (value : Text) : Scope → Bool
  | .all => true
  | .global => value = "global".toList
  | .government => startsWithAny value ["us-gov"]
  | .china => startsWithAny value ["cn-", "china"]
  | .europe => isEurope value
  | .northAmerica => startsWithAny value ["us-", "ca-", "na-", "northamerica-"]
  | .centralAmerica =>
    startsWithAny value ["mx-", "centralamerica", "central-america", "northamerica-south"]
  | .southAmerica => startsWithAny value ["sa-", "southamerica", "south-america"]
  | .asiaEast => startsWithAny value ["asia-east", "ap-east", "asia-northeast", "ap-northeast"]
  | .asiaSouth => startsWithAny value ["asia-south", "ap-south"]
  | .asiaSoutheast => startsWithAny value ["asia-southeast", "ap-southeast"]
  | .oceania => startsWithAny value ["australia", "oceania"]
  | .asiaPacific => startsWithAny value ["ap-", "asia", "australia", "oceania"]
  | .middleEast => startsWithAny value ["me-", "middleeast", "middle-east"]
  | .africa => startsWithAny value ["af-", "africa"]

/-- `_matches_region_scope`, for normalised scopes -/
def matchesRegionScope (casing : Casing) (region : Text) (scopes : List Scope) : Bool :=
  if .all ∈ scopes then true
  else
    let value := casing.lower (strip region)
    value ≠ [] && scopes.any (·.takesRegion value)

def strictGeoBucketScopes : List Scope :=
  [.europe, .northAmerica, .centralAmerica, .southAmerica, .asiaEast, .asiaSouth, .asiaSoutheast,
    .oceania, .middleEast, .africa]

def strictAsiaPacificBuckets : List Scope := [.asiaEast, .asiaSouth, .asiaSoutheast, .oceania]

/-- `_scope_strict_geo_buckets`, for a stripped lower-case value -/
def scopeStrictGeoBuckets (value : Text) : List Scope :=
  if value = [] then []
  else if startsWithAny value
    ["northamerica-south", "centralamerica", "central-america", "mx-"] then [.centralAmerica]
  else if startsWithAny value ["us-gov"] then [.northAmerica]
  else if startsWithAny value ["cn-", "china"] then [.asiaEast]
  else if isEurope value then [.europe]
  else if startsWithAny value ["us-", "ca-", "na-", "northamerica-"] then [.northAmerica]
  else if startsWithAny value ["sa-", "southamerica", "south-america"] then [.southAmerica]
  else if startsWithAny value ["ap-east", "asia-east", "asia-northeast", "ap-northeast"] then
    [.asiaEast]
  else if startsWithAny value ["ap-south", "asia-south"] then [.asiaSouth]
  else if startsWithAny value ["ap-southeast", "asia-southeast"] then [.asiaSoutheast]
  else if startsWithAny value ["australia", "oceania"] then [.oceania]
  else if startsWithAny value ["me-", "middleeast", "middle-east"] then [.middleEast]
  else if startsWithAny value ["af-", "africa"] then [.africa]
  else if startsWithAny value ["asia", "ap-", "asia-pacific"] then strictAsiaPacificBuckets
  else []

/-- The buckets that a scope allows in strict mode. -/
def Scope.allowedBuckets (scope : Scope) : List Scope :=
  if scope ∈ strictGeoBucketScopes then [scope]
  else
    match scope with
    | .asiaPacific => strictAsiaPacificBuckets
    | .china => [.asiaEast]
    | .government => [.northAmerica]
    | _ => []

/-- `_matches_strict_scope_value`, for normalised scopes -/
def matchesStrictScopeValue (casing : Casing) (region : Text) (scopes : List Scope) : Bool :=
  if .all ∈ scopes then true
  else
    let value := casing.lower (strip region)
    if value = [] then false
    else if .global ∈ scopes ∧ value = "global".toList then true
    else
      match scopeStrictGeoBuckets value with
      | [bucket] => scopes.any (bucket ∈ ·.allowedBuckets)
      | _ => false

/-! ## Countries -/

/-- `COUNTRY_CODES_BY_SCOPE`, but for `asia-pacific` -/
def Scope.ownCountryCodes : Scope → List String
  | .europe =>
    ["AD", "AL", "AM", "AT", "AZ", "BA", "BE", "BG", "BY", "CH", "CY", "CZ", "DE", "DK",
      "EE", "ES", "FI", "FO", "FR", "GB", "GE", "GG", "GI", "GR", "HR", "HU", "IE", "IM",
      "IS", "IT", "JE", "KZ", "LI", "LT", "LU", "LV", "MC", "MD", "ME", "MK", "MT", "NL",
      "NO", "PL", "PT", "RO", "RS", "RU", "SE", "SI", "SK", "SM", "TR", "UA", "VA", "XK"]
  | .northAmerica => ["BM", "CA", "GL", "PM", "US"]
  | .centralAmerica => ["BZ", "CR", "GT", "HN", "MX", "NI", "PA", "SV"]
  | .southAmerica =>
    ["AR", "BO", "BR", "CL", "CO", "EC", "FK", "GF", "GY", "PE", "PY", "SR", "UY", "VE"]
  | .asiaEast => ["CN", "HK", "JP", "KP", "KR", "MN", "MO", "TW"]
  | .asiaSouth => ["AF", "BD", "BT", "IN", "IR", "LK", "MV", "NP", "PK"]
  | .asiaSoutheast => ["BN", "ID", "KH", "LA", "MM", "MY", "PH", "SG", "TH", "TL", "VN"]
  | .oceania =>
    ["AS", "AU", "CK", "FJ", "FM", "GU", "KI", "MH", "MP", "NC", "NF", "NR", "NU", "NZ",
      "PF", "PG", "PN", "PW", "SB", "TK", "TO", "TV", "VU", "WF", "WS"]
  | .middleEast =>
    ["AE", "BH", "CY", "EG", "IL", "IQ", "IR", "JO", "KW", "LB", "OM", "PS", "QA", "SA",
      "SY", "TR", "YE"]
  | .africa =>
    ["AO", "BF", "BI", "BJ", "BW", "CD", "CF", "CG", "CI", "CM", "CV", "DJ", "DZ", "EG",
      "EH", "ER", "ET", "GA", "GH", "GM", "GN", "GQ", "GW", "KE", "KM", "LR", "LS", "LY",
      "MA", "MG", "ML", "MR", "MU", "MW", "MZ", "NA", "NE", "NG", "RE", "RW", "SC", "SD",
      "SH", "SL", "SN", "SO", "SS", "ST", "SZ", "TD", "TG", "TN", "TZ", "UG", "YT", "ZA",
      "ZM", "ZW"]
  | .china => ["CN", "HK", "MO"]
  | _ => []

/-- `COUNTRY_CODES_BY_SCOPE` -/
def Scope.countryCodes : Scope → List String
  | .asiaPacific => strictAsiaPacificBuckets.flatMap ownCountryCodes
  | scope => scope.ownCountryCodes

/-- `_matches_country_scope`, for normalised scopes -/
def matchesCountryScope (casing : Casing) (country : Text) (scopes : List Scope) : Bool :=
  if .all ∈ scopes ∨ .global ∈ scopes then true
  else
    let code := casing.upper (strip country)
    code ≠ [] && scopes.any fun scope => scope.countryCodes.any (·.toList = code)

/-- `_country_strict_geo_buckets`, for a normalised code -/
def countryStrictGeoBuckets (code : Text) : List Scope :=
  strictGeoBucketScopes.filter fun scope => scope.countryCodes.any (·.toList = code)

def isStrictGeoCountrySet (casing : Casing) (countries : List Text) : Bool :=
  let clean := (countries.map fun country => casing.upper (strip country)).filter (· ≠ [])
  clean ≠ [] && clean.all (fun code => (countryStrictGeoBuckets code).length = 1) &&
    (clean.flatMap countryStrictGeoBuckets).dedup.length = 1

end AdminPanel.Cidr
