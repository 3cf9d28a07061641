import AdminPanel.Access.Awg3
import AdminPanel.Panel.ConfigTable
import Mathlib.Algebra.Ring.Int.Defs

/-!
# The status that the portal reports

`build_portal_status` reads the policy rows of a client and decides by itself whether the client is
blocked, expired or active, and what traffic it has used. The access policy service and the
AmneziaWG 3 service, which enforce access, decide from the same rows.

* `saysBlocked`, `saysBlockedOtherwise` — what the enforcing services say of a protocol;
* `consumedBytes` — `get_client_consumed_traffic_bytes`, by which limits are held;
* `buildPortalStatus` — as `client_portal.py` has it;
* `TellsTruth`, `PortalAgrees` — the report is true, and the state of the rows in which it is.
-/

namespace AdminPanel.Portal

open List Panel
open Access

/-! ## The rows of a node -/

/-- A row of `user_traffic_stat_protocol`. -/
structure TrafficStat where
  commonName : String
  protocolType : String
  totalReceived : Int
  totalSent : Int
  deriving DecidableEq, Repr

/-- A row of `user_traffic_sample`. -/
structure TrafficSample where
  commonName : String
  protocolType : String
  deltaReceived : Int
  deltaSent : Int
  createdAt : Time
  deriving DecidableEq, Repr

/-- What a node's rows and files say about access; policy rows are found by their names. -/
structure NodeAccess where
  openvpn : String → Option PolicyRow := fun _ => none
  wireguard : String → Option PolicyRow := fun _ => none
  amneziawg2 : String → Option PolicyRow := fun _ => none
  amneziawg3 : String → Option Awg3Row := fun _ => none
  bannedClients : List String := []
  stats : List TrafficStat := []
  samples : List TrafficSample := []
  /-- The first day of the month and of the next one. -/
  monthBounds : Time → Time × Time := fun now => (now, now)

/-! ## Traffic -/

def dayStart (now : Time) : Time := now - now % timedeltaDays 1

/-- `now.weekday()`: day 0 was a Thursday. -/
def weekday (now : Time) : Int := (now / timedeltaDays 1 + 3) % 7

section

variable (db : NodeAccess) (clientName : String)

/-- `get_traffic_limit_period_bounds` -/
def trafficLimitPeriodBounds (periodDays : Int) (now : Time) : Time × Time :=
  if periodDays = 1 then (dayStart now, dayStart now + timedeltaDays 1)
  else if periodDays = 7 then
    let weekStart := dayStart now - timedeltaDays (weekday now)
    (weekStart, weekStart + timedeltaDays 7)
  else db.monthBounds now

def openvpnProtocolAll : List String := ["openvpn", "openvpn-udp", "openvpn-tcp"]

def wireguardProtocol : List String := ["wireguard"]

def amneziawg2Protocol : List String := ["amneziawg2"]

/-- `get_client_consumed_traffic_bytes` -/
def consumedBytes (periodDays : Option Int) (protocolTypes : List String) (now : Time) : Int :=
  let target := normalizeClientName clientName
  let matched := (db.stats.map (·.commonName)).filter fun stored =>
    stripped stored ≠ "" && normalizeClientName stored = target
  if target = "" then 0
  else if matched = [] then 0
  else
    match periodDays.filter (· ∈ trafficLimitPeriodDaysAllowed) with
    | some days =>
      let bounds := trafficLimitPeriodBounds db days now
      ((db.samples.filter fun s => s.commonName ∈ matched && bounds.1 ≤ s.createdAt &&
        s.createdAt < bounds.2 && s.protocolType ∈ protocolTypes).map
          fun s => s.deltaReceived + s.deltaSent).sum
    | none =>
      ((db.stats.filter fun s => s.commonName ∈ matched && s.protocolType ∈ protocolTypes).map
        fun s => s.totalReceived + s.totalSent).sum

/-- All totals stored under exactly this name. -/
def storedBytes : Int :=
  ((db.stats.filter (·.commonName = clientName)).map fun s => s.totalReceived + s.totalSent).sum

/-! ## The enforcing services -/

/-- The policy row that the access policy service finds; AmneziaWG 3 has a table of its own. -/
def policyRow? : VpnType → Option PolicyRow
  | .openvpn => db.openvpn clientName
  | .wireguard => db.wireguard (normalizeClientName clientName)
  | .amneziawg2 => db.amneziawg2 (normalizeClientName clientName)
  | .amneziawg3 => none

/-- The protocols whose traffic a limit counts, and the name it counts under. -/
def trafficKey : VpnType → String × List String
  | .openvpn => (clientName, openvpnProtocolAll)
  | .wireguard => (normalizeClientName clientName, wireguardProtocol)
  | .amneziawg2 => (normalizeClientName clientName, amneziawg2Protocol)
  | .amneziawg3 => (clientName, [])

def reading (now : Time) (vpnType : VpnType) : Reading where
  now := now
  consumed := fun periodDays =>
    consumedBytes db (trafficKey clientName vpnType).1 periodDays (trafficKey clientName vpnType).2
      now

/-- `is_blocked` of `get_openvpn_policy`, `get_wg_policy`, `get_awg2_policy` and `policy_view`. -/
def saysBlocked (now : Time) (vpnType : VpnType) : Bool :=
  match vpnType with
  | .amneziawg3 =>
    (db.amneziawg3 (stripped clientName)).any fun row => (Awg3.stateOf row now).isBlocked
  | _ =>
    match policyRow? db clientName vpnType with
    | some row => (policyState row (reading db clientName now vpnType)).isBlocked
    | none => vpnType = .openvpn && clientName ∈ db.bannedClients

/-- The same rows without their deadlines. -/
def NodeAccess.withoutDeadlines : NodeAccess :=
  { db with
    openvpn := fun name => (db.openvpn name).map fun row => { row with accessUntil := none }
    wireguard := fun name => (db.wireguard name).map fun row => { row with accessUntil := none }
    amneziawg2 := fun name => (db.amneziawg2 name).map fun row => { row with accessUntil := none }
    amneziawg3 := fun name => (db.amneziawg3 name).map fun row =>
      { row with accessUntil := none } }

/-- The service says that the client is blocked for another reason than a deadline. -/
def saysBlockedOtherwise : String → Time → VpnType → Bool :=
  saysBlocked db.withoutDeadlines

/-! ## The portal -/

inductive PortalStatusKey where
  | active
  | expired
  | blocked
  deriving DecidableEq, Repr

def PortalStatusKey.label : PortalStatusKey → String
  | .active => "Активна"
  | .expired => "Истекла"
  | .blocked => "Заблокирована"

structure PortalStatus where
  status : PortalStatusKey
  expiresAt : Option Time
  trafficUsedBytes : Int
  trafficLimitBytes : Option Int
  deriving DecidableEq, Repr

/-- `_policy_blocked`, for a row that is there. -/
def policyBlocked (row : PolicyRow) (now : Time) : Bool :=
  if row.isPermanentBlocked then true
  else if row.isTempBlocked then true
  else
    match row.blockUntil with
    | none => false
    | some t => now < t

def collectAccessPolicies (protocols : List VpnType) : List PolicyRow :=
  ((if .openvpn ∈ protocols then [db.openvpn clientName] else []) ++
    (if .wireguard ∈ protocols then [db.wireguard (lower clientName)] else []) ++
    (if .amneziawg2 ∈ protocols then [db.amneziawg2 (lower clientName)] else [])).filterMap id

def earliestDatetime (values : List (Option Time)) : Option Time := (values.filterMap id).min?

/-- `value and value <= now` -/
def isPast (value : Option Time) (now : Time) : Bool := value.any (· ≤ now)

/-- `access_until`: the first deadline of the rows. -/
def portalAccessUntil (configs : List ConfigRow) : Option Time :=
  earliestDatetime
    ((collectAccessPolicies db clientName (configs.map (·.vpnType))).map (·.accessUntil))

/-- `expires_at`: without a deadline, the first date of a config or its certificate. -/
def portalExpiresAt (configs : List ConfigRow) : Option Time :=
  (portalAccessUntil db clientName configs).or
    (earliestDatetime (configs.flatMap fun c => [c.expiresAt, c.certExpiresAt]))

def buildPortalStatus (configs : List ConfigRow) (now : Time) : PortalStatus :=
  let policies := collectAccessPolicies db clientName (configs.map (·.vpnType))
  { status :=
      if policies.any (policyBlocked · now) then .blocked
      else if isPast (portalAccessUntil db clientName configs) now ||
          isPast (portalExpiresAt db clientName configs) now then .expired
      else .active
    expiresAt := portalExpiresAt db clientName configs
    trafficUsedBytes := storedBytes db clientName
    trafficLimitBytes := ((policies.filterMap (·.trafficLimitBytes)).filter (0 < ·)).min? }

end

/-! ## A true report -/

section

variable (db : NodeAccess) (client : Panel.ClientName) (configs : List ConfigRow) (now : Time)

/-- The client has a config of the protocol. -/
def HasType (vpnType : VpnType) : Prop := ∃ c ∈ configs, c.vpnType = vpnType

/-- The report says of the client what the enforcing services say. -/
structure TellsTruth : Prop where
  active : (buildPortalStatus db client.text configs now).status = .active ↔
    ∀ vpnType, HasType configs vpnType → saysBlocked db client.text now vpnType = false
  blocked : (buildPortalStatus db client.text configs now).status = .blocked ↔
    ∃ vpnType, HasType configs vpnType ∧ saysBlockedOtherwise db client.text now vpnType = true
  /-- Used traffic and limit are those that the service holds against each other. -/
  traffic : match (buildPortalStatus db client.text configs now).trafficLimitBytes with
    | none => ∀ vpnType row, HasType configs vpnType →
      policyRow? db client.text vpnType = some row →
      (trafficState row (reading db client.text now vpnType)).trafficLimitBytes = none
    | some limit => ∃ vpnType row, HasType configs vpnType ∧
      policyRow? db client.text vpnType = some row ∧
      (trafficState row (reading db client.text now vpnType)).trafficLimitBytes = some limit ∧
      (trafficState row (reading db client.text now vpnType)).trafficConsumedBytes =
        (buildPortalStatus db client.text configs now).trafficUsedBytes

/-- A policy row of the client outside AmneziaWG 3. -/
def HasPolicy (vpnType : VpnType) (row : PolicyRow) : Prop :=
  HasType configs vpnType ∧ policyRow? db client.text vpnType = some row

/-- An AmneziaWG 3 row of the client. -/
def HasAwg3 (row : Awg3Row) : Prop :=
  HasType configs .amneziawg3 ∧ db.amneziawg3 client.text = some row

/-- A block that both see: permanent, or temporary and running, outside AmneziaWG 3. -/
def SeenBlock : Prop :=
  ∃ vpnType row, HasPolicy db client configs vpnType row ∧
    (row.isPermanentBlocked = true ∨ tempActive row now = true)

/-- What only the portal takes for a block: a temporary block that has lapsed or has no end, or
the end of one that has been lifted. -/
def StaleBlock : Prop :=
  ∃ vpnType row, HasPolicy db client configs vpnType row ∧
    (row.isTempBlocked = true ∨ row.blockUntil.any (now < ·) = true) ∧ tempActive row now = false

/-- What only the services take for a block: a limit that is used up, a block of AmneziaWG 3, a ban
of OpenVPN without a policy row. -/
def UnseenBlock : Prop :=
  (∃ vpnType row, HasPolicy db client configs vpnType row ∧
    trafficExceeded row (reading db client.text now vpnType) = true) ∨
  (∃ row, HasAwg3 db client configs row ∧
    (row.isPermanentBlocked = true ∨ Awg3.tempActive row now = true)) ∨
  (HasType configs .openvpn ∧ db.openvpn client.text = none ∧ client.text ∈ db.bannedClients)

/-- A past deadline outside AmneziaWG 3. -/
def SeenDeadline : Prop :=
  ∃ vpnType row, HasPolicy db client configs vpnType row ∧ policyAccessExpired row now = true

/-- A past deadline of AmneziaWG 3. -/
def UnseenDeadline : Prop :=
  ∃ row, HasAwg3 db client configs row ∧ Awg3.accessExpired row now = true

/-- No policy row has a deadline, and a config or its certificate is past its date. -/
def PastConfig : Prop :=
  (∀ vpnType row, HasPolicy db client configs vpnType row → row.accessUntil = none) ∧
    ∃ c ∈ configs, isPast c.expiresAt now = true ∨ isPast c.certExpiresAt now = true

/-- The row's limit, if it is one. -/
def PolicyRow.limit (row : PolicyRow) : Option Int := row.trafficLimitBytes.filter (0 < ·)

/-- The rows in which the portal decides as the services do. -/
structure PortalAgrees : Prop where
  blocks : SeenBlock db client configs now ∨
    (StaleBlock db client configs now ↔ UnseenBlock db client configs now)
  deadlines : SeenBlock db client configs now ∨ UnseenBlock db client configs now ∨
    SeenDeadline db client configs now ∨
    (PastConfig db client configs now ↔ UnseenDeadline db client configs now)
  /-- All traffic under the client's exact name is what the service counts for its least limit. -/
  traffic : (∀ vpnType row, HasPolicy db client configs vpnType row → PolicyRow.limit row = none) ∨
    ∃ vpnType row limit, HasPolicy db client configs vpnType row ∧
      PolicyRow.limit row = some limit ∧
      (∀ vpnType' row' limit', HasPolicy db client configs vpnType' row' →
        PolicyRow.limit row' = some limit' → limit ≤ limit') ∧
      max ((reading db client.text now vpnType).consumed row.trafficLimitPeriodDays) 0 =
        storedBytes db client.text

end

/-! ## What the services say -/

section

variable {db : NodeAccess} {client : Panel.ClientName} {configs : List ConfigRow} {now : Time}

/-- What the portal says, by the rows it reads. -/
theorem saysBlocked_iff :
    (∃ vpnType, HasType configs vpnType ∧ saysBlocked db client.text now vpnType = true) ↔
      (∃ vpnType row, HasPolicy db client configs vpnType row ∧
        isBlocked row (reading db client.text now vpnType) = true) ∨
      (∃ row, HasAwg3 db client configs row ∧ (Awg3.stateOf row now).isBlocked = true) ∨
      (HasType configs .openvpn ∧ db.openvpn client.text = none ∧
        client.text ∈ db.bannedClients) := by
  constructor
  · rintro ⟨vpnType, hType, hSays⟩
    by_cases hAwg3 : vpnType = .amneziawg3
    · subst hAwg3
      rw [saysBlocked, client.stripped_text, Option.any_eq_true] at hSays
      obtain ⟨row, hRow, hBlocked⟩ := hSays
      exact .inr (.inl ⟨row, ⟨hType, hRow⟩, hBlocked⟩)
    · have hPolicy : (match policyRow? db client.text vpnType with
          | some row => (policyState row (reading db client.text now vpnType)).isBlocked
          | none => decide (vpnType = .openvpn) && decide (client.text ∈ db.bannedClients)) =
          true := by
        cases vpnType with
        | amneziawg3 => exact absurd rfl hAwg3
        | _ => exact hSays
      cases hRow : policyRow? db client.text vpnType with
      | some row =>
        rw [hRow] at hPolicy
        exact .inl ⟨vpnType, row, ⟨hType, hRow⟩, hPolicy⟩
      | none =>
        rw [hRow] at hPolicy
        simp only [Bool.and_eq_true, decide_eq_true_eq] at hPolicy
        obtain ⟨rfl, hBanned⟩ := hPolicy
        exact .inr (.inr ⟨hType, hRow, hBanned⟩)
  · rintro (⟨vpnType, row, ⟨hType, hRow⟩, hBlocked⟩ | ⟨row, ⟨hType, hRow⟩, hBlocked⟩ |
      ⟨hType, hRow, hBanned⟩)
    · refine ⟨vpnType, hType, ?_⟩
      cases vpnType with
      | amneziawg3 => cases hRow
      | _ =>
        unfold saysBlocked
        dsimp only
        rw [hRow]
        exact hBlocked
    · refine ⟨.amneziawg3, hType, ?_⟩
      rw [saysBlocked, client.stripped_text, hRow]
      exact hBlocked
    · refine ⟨.openvpn, hType, ?_⟩
      have hNone : policyRow? db client.text .openvpn = none := hRow
      unfold saysBlocked
      dsimp only
      rw [hNone]
      simpa using hBanned

theorem policyRow?_withoutDeadlines (clientName : String) (vpnType : VpnType) :
    policyRow? db.withoutDeadlines clientName vpnType =
      (policyRow? db clientName vpnType).map fun row => { row with accessUntil := none } := by
  cases vpnType <;> rfl

theorem hasPolicy_withoutDeadlines {vpnType : VpnType} {row : PolicyRow} :
    HasPolicy db.withoutDeadlines client configs vpnType row ↔
      ∃ old, HasPolicy db client configs vpnType old ∧ { old with accessUntil := none } = row := by
  unfold HasPolicy
  rw [policyRow?_withoutDeadlines, Option.map_eq_some_iff]
  constructor
  · rintro ⟨hType, old, hOld, hEq⟩
    exact ⟨old, ⟨hType, hOld⟩, hEq⟩
  · rintro ⟨old, ⟨hType, hOld⟩, hEq⟩
    exact ⟨hType, old, hOld, hEq⟩

theorem isBlocked_withoutDeadline (row : PolicyRow) (vpnType : VpnType) :
    isBlocked { row with accessUntil := none }
        (reading db.withoutDeadlines client.text now vpnType) = true ↔
      (row.isPermanentBlocked = true ∨ tempActive row now = true) ∨
        trafficExceeded row (reading db client.text now vpnType) = true := by
  have hEq : isBlocked { row with accessUntil := none }
      (reading db.withoutDeadlines client.text now vpnType) =
      (tempActive row now || row.isPermanentBlocked ||
        trafficExceeded row (reading db client.text now vpnType)) := rfl
  rw [hEq, Bool.or_eq_true, Bool.or_eq_true]
  tauto

theorem saysBlockedOtherwise_iff :
    (∃ vpnType, HasType configs vpnType ∧ saysBlockedOtherwise db client.text now vpnType = true) ↔
      SeenBlock db client configs now ∨ UnseenBlock db client configs now := by
  unfold saysBlockedOtherwise
  rw [saysBlocked_iff]
  constructor
  · rintro (⟨vpnType, row, hPolicy, hBlocked⟩ | ⟨row, ⟨hType, hRow⟩, hBlocked⟩ |
      ⟨hType, hRow, hBanned⟩)
    · obtain ⟨old, hOld, rfl⟩ := hasPolicy_withoutDeadlines.mp hPolicy
      rcases (isBlocked_withoutDeadline old vpnType).mp hBlocked with hSeen | hExceeded
      · exact .inl ⟨vpnType, old, hOld, hSeen⟩
      · exact .inr (.inl ⟨vpnType, old, hOld, hExceeded⟩)
    · obtain ⟨old, hOld, rfl⟩ := Option.map_eq_some_iff.mp hRow
      have hEq : (Awg3.stateOf { old with accessUntil := none } now).isBlocked =
          (Awg3.tempActive old now || old.isPermanentBlocked) := rfl
      rw [hEq, Bool.or_eq_true] at hBlocked
      exact .inr (.inr (.inl ⟨old, ⟨hType, hOld⟩, hBlocked.symm⟩))
    · exact .inr (.inr (.inr ⟨hType, Option.map_eq_none_iff.mp hRow, hBanned⟩))
  · rintro (⟨vpnType, row, hPolicy, hSeen⟩ | ⟨vpnType, row, hPolicy, hExceeded⟩ |
      ⟨row, ⟨hType, hRow⟩, hBlocked⟩ | ⟨hType, hRow, hBanned⟩)
    · exact .inl ⟨vpnType, _, hasPolicy_withoutDeadlines.mpr ⟨row, hPolicy, rfl⟩,
        (isBlocked_withoutDeadline row vpnType).mpr (.inl hSeen)⟩
    · exact .inl ⟨vpnType, _, hasPolicy_withoutDeadlines.mpr ⟨row, hPolicy, rfl⟩,
        (isBlocked_withoutDeadline row vpnType).mpr (.inr hExceeded)⟩
    · refine .inr (.inl ⟨{ row with accessUntil := none }, ⟨hType, ?_⟩, ?_⟩)
      · exact Option.map_eq_some_iff.mpr ⟨row, hRow, rfl⟩
      · show (Awg3.tempActive row now || row.isPermanentBlocked) = true
        rw [Bool.or_eq_true]
        exact hBlocked.symm
    · exact .inr (.inr ⟨hType, Option.map_eq_none_iff.mpr hRow, hBanned⟩)

theorem saysBlocked_iff_reason :
    (∃ vpnType, HasType configs vpnType ∧ saysBlocked db client.text now vpnType = true) ↔
      (SeenBlock db client configs now ∨ UnseenBlock db client configs now) ∨
        SeenDeadline db client configs now ∨ UnseenDeadline db client configs now := by
  rw [saysBlocked_iff]
  have hPolicy (row : PolicyRow) (vpnType : VpnType) :
      isBlocked row (reading db client.text now vpnType) = true ↔
        ((row.isPermanentBlocked = true ∨ tempActive row now = true) ∨
          trafficExceeded row (reading db client.text now vpnType) = true) ∨
          policyAccessExpired row now = true := by
    show (policyAccessExpired row now || tempActive row now || row.isPermanentBlocked ||
      trafficExceeded row (reading db client.text now vpnType)) = true ↔ _
    simp only [Bool.or_eq_true]
    tauto
  have hAwg3 (row : Awg3Row) : (Awg3.stateOf row now).isBlocked = true ↔
      (row.isPermanentBlocked = true ∨ Awg3.tempActive row now = true) ∨
        Awg3.accessExpired row now = true := by
    show (Awg3.accessExpired row now || Awg3.tempActive row now || row.isPermanentBlocked) =
      true ↔ _
    simp only [Bool.or_eq_true]
    tauto
  simp only [hPolicy, hAwg3, SeenBlock, UnseenBlock, SeenDeadline, UnseenDeadline, and_or_left,
    exists_or, or_assoc, or_comm, or_left_comm]

/-! ## What the portal says -/

/-- The portal finds the rows that the service finds. -/
theorem mem_collectAccessPolicies {row : PolicyRow} :
    row ∈ collectAccessPolicies db client.text (configs.map (·.vpnType)) ↔
      ∃ vpnType, HasPolicy db client configs vpnType row := by
  have hLower : lower client.text = normalizeClientName client.text := by
    rw [normalizeClientName, client.stripped_text]
  have hPart (vpnType : VpnType) (found : Option PolicyRow) :
      some row ∈ (if vpnType ∈ configs.map (·.vpnType) then [found] else []) ↔
        HasType configs vpnType ∧ found = some row := by
    split_ifs with hType
    · rw [mem_singleton]
      exact ⟨fun h => ⟨mem_map.mp hType, h.symm⟩, fun h => h.2.symm⟩
    · exact ⟨fun h => absurd h not_mem_nil, fun h => absurd (mem_map.mpr h.1) hType⟩
  unfold collectAccessPolicies HasPolicy
  simp only [mem_filterMap, id, exists_eq_right, mem_append, hPart, hLower]
  constructor
  · rintro ((h | h) | h)
    · exact ⟨.openvpn, h⟩
    · exact ⟨.wireguard, h⟩
    · exact ⟨.amneziawg2, h⟩
  · rintro ⟨vpnType, hType, hRow⟩
    cases vpnType with
    | openvpn => exact .inl (.inl ⟨hType, hRow⟩)
    | wireguard => exact .inl (.inr ⟨hType, hRow⟩)
    | amneziawg2 => exact .inr ⟨hType, hRow⟩
    | amneziawg3 => cases hRow

theorem policyBlocked_iff (row : PolicyRow) : policyBlocked row now = true ↔
    (row.isPermanentBlocked = true ∨ tempActive row now = true) ∨
      (row.isTempBlocked = true ∨ row.blockUntil.any (now < ·) = true) ∧
        tempActive row now = false := by
  unfold policyBlocked tempActive
  cases row.isPermanentBlocked <;> cases row.isTempBlocked <;> cases row.blockUntil <;>
    simp [lt_or_ge]

/-- **Blocked**, by row-level causes. -/
theorem portal_blocked_iff :
    (buildPortalStatus db client.text configs now).status = .blocked ↔
      SeenBlock db client configs now ∨ StaleBlock db client configs now := by
  have hAny : (collectAccessPolicies db client.text (configs.map (·.vpnType))).any
      (policyBlocked · now) = true ↔
      SeenBlock db client configs now ∨ StaleBlock db client configs now := by
    rw [any_eq_true]
    constructor
    · rintro ⟨row, hMem, hBlocked⟩
      obtain ⟨vpnType, hPolicy⟩ := mem_collectAccessPolicies.mp hMem
      rcases (policyBlocked_iff row).mp hBlocked with hSeen | hStale
      · exact .inl ⟨vpnType, row, hPolicy, hSeen⟩
      · exact .inr ⟨vpnType, row, hPolicy, hStale⟩
    · rintro (⟨vpnType, row, hPolicy, hSeen⟩ | ⟨vpnType, row, hPolicy, hStale⟩)
      · exact ⟨row, mem_collectAccessPolicies.mpr ⟨vpnType, hPolicy⟩,
          (policyBlocked_iff row).mpr (.inl hSeen)⟩
      · exact ⟨row, mem_collectAccessPolicies.mpr ⟨vpnType, hPolicy⟩,
          (policyBlocked_iff row).mpr (.inr hStale)⟩
  rw [← hAny]
  unfold buildPortalStatus
  dsimp only
  split_ifs with hBlocked hExpired
  · exact iff_of_true rfl hBlocked
  · exact iff_of_false nofun hBlocked
  · exact iff_of_false nofun hBlocked

/-- The least of some dates is past if one of them is. -/
theorem isPast_earliestDatetime (values : List (Option Time)) :
    isPast (earliestDatetime values) now = true ↔ ∃ value ∈ values, isPast value now = true := by
  unfold isPast earliestDatetime
  simp only [Option.any_eq_true, decide_eq_true_eq]
  constructor
  · rintro ⟨t, hMin, hLe⟩
    have hMem := (List.min?_eq_some_iff.mp hMin).1
    obtain ⟨value, hValue, hSome⟩ := mem_filterMap.mp hMem
    exact ⟨value, hValue, t, hSome, hLe⟩
  · rintro ⟨value, hValue, t, hSome, hLe⟩
    have hMem : t ∈ values.filterMap id := mem_filterMap.mpr ⟨value, hValue, hSome⟩
    obtain ⟨least, hMin⟩ := Option.isSome_iff_exists.mp (isSome_min?_of_mem hMem)
    exact ⟨least, hMin, le_trans ((List.min?_eq_some_iff.mp hMin).2 t hMem) hLe⟩

theorem earliestDatetime_none (values : List (Option Time)) :
    earliestDatetime values = none ↔ ∀ value ∈ values, value = none := by
  unfold earliestDatetime
  rw [List.min?_eq_none_iff, filterMap_eq_nil_iff]
  exact Iff.rfl

theorem policyAccessExpired_eq (row : PolicyRow) :
    policyAccessExpired row now = isPast row.accessUntil now := by
  unfold policyAccessExpired isPast
  cases row.accessUntil <;> rfl

theorem isPast_portalAccessUntil :
    isPast (portalAccessUntil db client.text configs) now = true ↔
      SeenDeadline db client configs now := by
  rw [portalAccessUntil, isPast_earliestDatetime]
  constructor
  · rintro ⟨value, hValue, hPast⟩
    obtain ⟨row, hRow, rfl⟩ := mem_map.mp hValue
    obtain ⟨vpnType, hPolicy⟩ := mem_collectAccessPolicies.mp hRow
    exact ⟨vpnType, row, hPolicy, (policyAccessExpired_eq row).trans hPast⟩
  · rintro ⟨vpnType, row, hPolicy, hPast⟩
    exact ⟨row.accessUntil, mem_map.mpr
      ⟨row, mem_collectAccessPolicies.mpr ⟨vpnType, hPolicy⟩, rfl⟩,
      (policyAccessExpired_eq row).symm.trans hPast⟩

theorem portalAccessUntil_none : portalAccessUntil db client.text configs = none ↔
    ∀ vpnType row, HasPolicy db client configs vpnType row → row.accessUntil = none := by
  rw [portalAccessUntil, earliestDatetime_none]
  constructor
  · intro h vpnType row hPolicy
    exact h _ (mem_map.mpr ⟨row, mem_collectAccessPolicies.mpr ⟨vpnType, hPolicy⟩, rfl⟩)
  · intro h value hValue
    obtain ⟨row, hRow, rfl⟩ := mem_map.mp hValue
    obtain ⟨vpnType, hPolicy⟩ := mem_collectAccessPolicies.mp hRow
    exact h vpnType row hPolicy

theorem isPast_configDates :
    isPast (earliestDatetime (configs.flatMap fun c => [c.expiresAt, c.certExpiresAt])) now =
        true ↔
      ∃ c ∈ configs, isPast c.expiresAt now = true ∨ isPast c.certExpiresAt now = true := by
  rw [isPast_earliestDatetime]
  simp only [mem_flatMap, mem_cons, not_mem_nil, or_false]
  constructor
  · rintro ⟨value, ⟨c, hC, rfl | rfl⟩, hPast⟩
    · exact ⟨c, hC, .inl hPast⟩
    · exact ⟨c, hC, .inr hPast⟩
  · rintro ⟨c, hC, hPast | hPast⟩
    · exact ⟨_, ⟨c, hC, .inl rfl⟩, hPast⟩
    · exact ⟨_, ⟨c, hC, .inr rfl⟩, hPast⟩

/-- The date that is reported is past with a deadline, or without any with a config. -/
theorem isPast_portalExpiresAt :
    (isPast (portalAccessUntil db client.text configs) now ||
      isPast (portalExpiresAt db client.text configs) now) = true ↔
      SeenDeadline db client configs now ∨ PastConfig db client configs now := by
  rw [Bool.or_eq_true, ← isPast_portalAccessUntil, PastConfig, ← portalAccessUntil_none,
    ← isPast_configDates, portalExpiresAt]
  cases portalAccessUntil db client.text configs with
  | some t => simp
  | none => simp [isPast]

/-- **Active**, by row-level causes. -/
theorem portal_active_iff :
    (buildPortalStatus db client.text configs now).status = .active ↔
      (buildPortalStatus db client.text configs now).status ≠ .blocked ∧
        ¬ SeenDeadline db client configs now ∧ ¬ PastConfig db client configs now := by
  have hExpired : (isPast (portalAccessUntil db client.text configs) now ||
      isPast (portalExpiresAt db client.text configs) now) = true ↔
      SeenDeadline db client configs now ∨ PastConfig db client configs now :=
    isPast_portalExpiresAt
  unfold buildPortalStatus
  dsimp only
  split_ifs with hBlocked hPast
  · exact iff_of_false nofun fun h => h.1 rfl
  · refine iff_of_false nofun fun h => ?_
    rcases hExpired.mp hPast with hDeadline | hDate
    · exact h.2.1 hDeadline
    · exact h.2.2 hDate
  · refine iff_of_true rfl ⟨nofun, fun h => hPast ?_, fun h => hPast ?_⟩
    · exact hExpired.mpr (.inl h)
    · exact hExpired.mpr (.inr h)

/-- The reported limit is the least one. -/
theorem portal_limit_eq_some {limit : Int} :
    (buildPortalStatus db client.text configs now).trafficLimitBytes = some limit ↔
      (∃ vpnType row, HasPolicy db client configs vpnType row ∧
        PolicyRow.limit row = some limit) ∧
      ∀ vpnType row limit', HasPolicy db client configs vpnType row →
        PolicyRow.limit row = some limit' → limit ≤ limit' := by
  have hMem (l : Int) : l ∈ ((collectAccessPolicies db client.text (configs.map
      (·.vpnType))).filterMap (·.trafficLimitBytes)).filter (0 < ·) ↔
      ∃ vpnType row, HasPolicy db client configs vpnType row ∧ PolicyRow.limit row = some l := by
    simp only [mem_filter, mem_filterMap, decide_eq_true_eq, PolicyRow.limit,
      Option.filter_eq_some_iff, mem_collectAccessPolicies]
    constructor
    · rintro ⟨⟨row, ⟨vpnType, hPolicy⟩, hLimit⟩, hPos⟩
      exact ⟨vpnType, row, hPolicy, hLimit, hPos⟩
    · rintro ⟨vpnType, row, hPolicy, hLimit, hPos⟩
      exact ⟨⟨row, ⟨vpnType, hPolicy⟩, hLimit⟩, hPos⟩
  unfold buildPortalStatus
  dsimp only
  rw [List.min?_eq_some_iff, hMem]
  simp only [hMem]
  constructor
  · rintro ⟨hIn, hLeast⟩
    exact ⟨hIn, fun vpnType row l hPolicy hLimit => hLeast l ⟨vpnType, row, hPolicy, hLimit⟩⟩
  · rintro ⟨hIn, hLeast⟩
    exact ⟨hIn, fun l ⟨vpnType, row, hPolicy, hLimit⟩ => hLeast vpnType row l hPolicy hLimit⟩

theorem portal_limit_eq_none :
    (buildPortalStatus db client.text configs now).trafficLimitBytes = none ↔
      ∀ vpnType row, HasPolicy db client configs vpnType row → PolicyRow.limit row = none := by
  unfold buildPortalStatus
  dsimp only
  rw [List.min?_eq_none_iff, filter_eq_nil_iff]
  simp only [mem_filterMap, decide_eq_true_eq, mem_collectAccessPolicies, PolicyRow.limit,
    Option.filter_eq_none_iff]
  constructor
  · intro h vpnType row hPolicy limit hLimit
    exact h limit ⟨row, ⟨vpnType, hPolicy⟩, hLimit⟩
  · rintro h limit ⟨row, ⟨vpnType, hPolicy⟩, hLimit⟩
    exact h vpnType row hPolicy limit hLimit

/-- The limit that the service holds is the one of the row. -/
theorem trafficState_limit (row : PolicyRow) (r : Reading) :
    (trafficState row r).trafficLimitBytes = PolicyRow.limit row ∧
      (trafficState row r).trafficConsumedBytes =
        max (r.consumed row.trafficLimitPeriodDays) 0 := by
  unfold trafficState resolveTrafficLimitState PolicyRow.limit
  dsimp only
  cases row.trafficLimitBytes with
  | none => exact ⟨rfl, rfl⟩
  | some limit =>
    dsimp only
    have hFilter : (some limit).filter (fun l => decide (0 < l)) =
        if limit < 1 then none else some limit := by
      by_cases hSmall : limit < 1
      · rw [if_pos hSmall, Option.filter_eq_none_iff]
        rintro l ⟨⟩
        rw [decide_eq_true_eq]
        omega
      · rw [if_neg hSmall, Option.filter_eq_some_iff, decide_eq_true_eq]
        exact ⟨rfl, by omega⟩
    rw [hFilter]
    by_cases hSmall : limit < 1
    · rw [if_pos hSmall, if_pos hSmall]
      exact ⟨rfl, rfl⟩
    · rw [if_neg hSmall, if_neg hSmall]
      exact ⟨rfl, rfl⟩

/-- A row of totals that a limit without a period counts. -/
def countsTotal (clientName : String) (protocolTypes : List String) (s : TrafficStat) : Bool :=
  normalizeClientName clientName ≠ "" && stripped s.commonName ≠ "" &&
    normalizeClientName s.commonName = normalizeClientName clientName &&
    s.protocolType ∈ protocolTypes

theorem consumedBytes_total (clientName : String) (protocolTypes : List String) :
    consumedBytes db clientName none protocolTypes now =
      ((db.stats.filter (countsTotal clientName protocolTypes)).map
        fun s => s.totalReceived + s.totalSent).sum := by
  have hMatched : ∀ s ∈ db.stats, countsTotal clientName protocolTypes s = true →
      s.commonName ∈ (db.stats.map (·.commonName)).filter fun stored =>
        stripped stored ≠ "" && normalizeClientName stored = normalizeClientName clientName := by
    intro s hMem hCounts
    simp only [countsTotal, Bool.and_eq_true, decide_eq_true_eq] at hCounts
    refine mem_filter.mpr ⟨mem_map_of_mem hMem, ?_⟩
    simp [hCounts.1.1.2, hCounts.1.2]
  have hNothing : (∀ s ∈ db.stats, countsTotal clientName protocolTypes s ≠ true) →
      0 = ((db.stats.filter (countsTotal clientName protocolTypes)).map
        fun s => s.totalReceived + s.totalSent).sum := by
    intro hNone
    rw [filter_eq_nil_iff.mpr hNone]
    rfl
  unfold consumedBytes
  dsimp only [Option.filter_none]
  split_ifs with hTarget hNone
  · exact hNothing fun s _ hCounts => by simp [countsTotal, hTarget] at hCounts
  · refine hNothing fun s hMem hCounts => ?_
    rw [hNone] at hMatched
    exact not_mem_nil (hMatched s hMem hCounts)
  · refine congrArg (fun rows : List TrafficStat =>
      (rows.map fun s => s.totalReceived + s.totalSent).sum) (filter_congr fun s hMem => ?_)
    rw [Bool.eq_iff_iff, Bool.and_eq_true, decide_eq_true_eq, decide_eq_true_eq]
    refine ⟨fun ⟨hName, hType⟩ => ?_, fun hCounts => ⟨hMatched s hMem hCounts, ?_⟩⟩
    · obtain ⟨-, hName⟩ := mem_filter.mp hName
      simp only [Bool.and_eq_true, decide_eq_true_eq] at hName
      simp [countsTotal, hTarget, hName.1, hName.2, hType]
    · simp only [countsTotal, Bool.and_eq_true, decide_eq_true_eq] at hCounts
      exact hCounts.2

/-- Two sums over parts of a list agree if what is in only one of the parts weighs the same. -/
theorem sum_filter_eq_iff {α : Type} (l : List α) (p q : α → Bool) (f : α → Int) :
    ((l.filter p).map f).sum = ((l.filter q).map f).sum ↔
      ((l.filter fun a => p a && !q a).map f).sum =
        ((l.filter fun a => q a && !p a).map f).sum := by
  have hDiff : ((l.filter p).map f).sum + ((l.filter fun a => q a && !p a).map f).sum =
      ((l.filter q).map f).sum + ((l.filter fun a => p a && !q a).map f).sum := by
    induction l with
    | nil => rfl
    | cons a l ih =>
      cases hP : p a <;> cases hQ : q a <;> simp [hP, hQ] <;> omega
  omega

/-- **Which rows make the difference.** Without a period the service counts what the portal
reports exactly if the rows that only one of them counts weigh the same: those of other spellings
of the name on its side, those of other protocols on the portal's. -/
theorem consumed_eq_stored_iff (clientName : String) (protocolTypes : List String) :
    consumedBytes db clientName none protocolTypes now = storedBytes db client.text ↔
      ((db.stats.filter fun s => countsTotal clientName protocolTypes s &&
          !decide (s.commonName = client.text)).map fun s => s.totalReceived + s.totalSent).sum =
        ((db.stats.filter fun s => decide (s.commonName = client.text) &&
          !countsTotal clientName protocolTypes s).map
            fun s => s.totalReceived + s.totalSent).sum := by
  rw [consumedBytes_total, storedBytes]
  exact sum_filter_eq_iff db.stats _ _ _

/-! ## The report is true -/

theorem says_active_iff :
    (∀ vpnType, HasType configs vpnType → saysBlocked db client.text now vpnType = false) ↔
      ¬ ((SeenBlock db client configs now ∨ UnseenBlock db client configs now) ∨
        SeenDeadline db client configs now ∨ UnseenDeadline db client configs now) := by
  rw [← saysBlocked_iff_reason]
  constructor
  · rintro h ⟨vpnType, hType, hSays⟩
    rw [h vpnType hType] at hSays
    cases hSays
  · intro h vpnType hType
    exact Bool.eq_false_iff.mpr fun hSays => h ⟨vpnType, hType, hSays⟩

/-- **The traffic**, by the stored rows. -/
theorem traffic_iff :
    (match (buildPortalStatus db client.text configs now).trafficLimitBytes with
    | none => ∀ vpnType row, HasType configs vpnType →
      policyRow? db client.text vpnType = some row →
      (trafficState row (reading db client.text now vpnType)).trafficLimitBytes = none
    | some limit => ∃ vpnType row, HasType configs vpnType ∧
      policyRow? db client.text vpnType = some row ∧
      (trafficState row (reading db client.text now vpnType)).trafficLimitBytes = some limit ∧
      (trafficState row (reading db client.text now vpnType)).trafficConsumedBytes =
        (buildPortalStatus db client.text configs now).trafficUsedBytes) ↔
    ((∀ vpnType row, HasPolicy db client configs vpnType row → PolicyRow.limit row = none) ∨
      ∃ vpnType row limit, HasPolicy db client configs vpnType row ∧
        PolicyRow.limit row = some limit ∧
        (∀ vpnType' row' limit', HasPolicy db client configs vpnType' row' →
          PolicyRow.limit row' = some limit' → limit ≤ limit') ∧
        max ((reading db client.text now vpnType).consumed row.trafficLimitPeriodDays) 0 =
          storedBytes db client.text) := by
  cases hLimit : (buildPortalStatus db client.text configs now).trafficLimitBytes with
  | none =>
    have hNone := portal_limit_eq_none.mp hLimit
    refine iff_of_true (fun vpnType row hType hRow => ?_) (.inl hNone)
    rw [(trafficState_limit row _).1]
    exact hNone vpnType row ⟨hType, hRow⟩
  | some limit =>
    obtain ⟨⟨vpnType₀, row₀, hPolicy₀, hLimit₀⟩, hLeast⟩ := portal_limit_eq_some.mp hLimit
    dsimp only
    constructor
    · rintro ⟨vpnType, row, hType, hRow, hRowLimit, hUsed⟩
      rw [(trafficState_limit row _).1] at hRowLimit
      rw [(trafficState_limit row _).2] at hUsed
      exact .inr ⟨vpnType, row, limit, ⟨hType, hRow⟩, hRowLimit, hLeast, hUsed⟩
    · rintro (hNone | ⟨vpnType, row, least, hPolicy, hRowLimit, hRowLeast, hUsed⟩)
      · rw [hNone vpnType₀ row₀ hPolicy₀] at hLimit₀
        cases hLimit₀
      · -- the limit that is shown is the least one
        have hEq : least = limit := le_antisymm (hRowLeast vpnType₀ row₀ limit hPolicy₀ hLimit₀)
          (hLeast vpnType row least hPolicy hRowLimit)
        refine ⟨vpnType, row, hPolicy.1, hPolicy.2, ?_, ?_⟩
        · rw [(trafficState_limit row _).1, hRowLimit, hEq]
        · rw [(trafficState_limit row _).2]
          exact hUsed

/-- Blocks and deadlines as the portal sees them and as the services do: `t` and `c` are seen by
the portal only, `u` and `a` by the services only. -/
theorem agree_iff {s t u d c a : Prop} :
    (s ∨ t ↔ s ∨ u) ∧ (¬ (s ∨ t) ∧ ¬ d ∧ ¬ c ↔ ¬ ((s ∨ u) ∨ d ∨ a)) ↔
      (s ∨ (t ↔ u)) ∧ (s ∨ u ∨ d ∨ (c ↔ a)) := by
  by_cases hS : s
  · simp [hS]
  · by_cases hD : d
    · simp [hS, hD]
    · simp only [hS, hD, false_or, not_false_eq_true, true_and, not_or]
      tauto

/-- **The portal tells the truth about access** exactly where no block or deadline is seen by one
side only, and its traffic is what a limit counts. -/
theorem tellsTruth_iff (db : NodeAccess) (client : Panel.ClientName) (configs : List ConfigRow)
    (now : Time) : TellsTruth db client configs now ↔ PortalAgrees db client configs now := by
  constructor
  · rintro ⟨hActive, hBlocked, hTraffic⟩
    rw [portal_blocked_iff, saysBlockedOtherwise_iff] at hBlocked
    rw [portal_active_iff, Ne, portal_blocked_iff, says_active_iff] at hActive
    obtain ⟨hBlocks, hDeadlines⟩ := agree_iff.mp ⟨hBlocked, hActive⟩
    exact ⟨hBlocks, hDeadlines, traffic_iff.mp hTraffic⟩
  · rintro ⟨hBlocks, hDeadlines, hTraffic⟩
    obtain ⟨hBlocked, hActive⟩ := agree_iff.mpr ⟨hBlocks, hDeadlines⟩
    refine ⟨?_, ?_, traffic_iff.mpr hTraffic⟩
    · rw [portal_active_iff, Ne, portal_blocked_iff, says_active_iff]
      exact hActive
    · rw [portal_blocked_iff, saysBlockedOtherwise_iff]
      exact hBlocked

end

/-! ## A block that the portal does not see -/

def ivanConfig : ConfigRow :=
  { nodeId := 1, clientName := ⟨"ivan", by decide, by decide⟩, vpnType := .amneziawg3,
    haPrimaryConfigId := none, ownerId := 1 }

/-- The only protocol of ivan is AmneziaWG 3, and it is blocked for good. -/
def ivanBlocked : NodeAccess where
  amneziawg3 := fun name => if name = "ivan" then some { isPermanentBlocked := true } else none

/-- **The portal calls a banned client active.** -/
theorem banned_ivan_active :
    (buildPortalStatus ivanBlocked "ivan" [ivanConfig] 0).status = .active ∧
      saysBlocked ivanBlocked "ivan" 0 .amneziawg3 = true ∧
      ¬ TellsTruth ivanBlocked ivanConfig.clientName [ivanConfig] 0 := by
  have hStatus : (buildPortalStatus ivanBlocked "ivan" [ivanConfig] 0).status = .active := by
    decide
  have hSays : saysBlocked ivanBlocked "ivan" 0 .amneziawg3 = true := by
    decide
  refine ⟨hStatus, hSays, fun hTruth => ?_⟩
  have hNot := hTruth.active.mp hStatus .amneziawg3 ⟨ivanConfig, mem_cons_self, rfl⟩
  exact Bool.false_ne_true (hNot.symm.trans hSays)

end AdminPanel.Portal
