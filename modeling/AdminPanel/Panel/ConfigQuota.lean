import AdminPanel.Lib.PyInt
import AdminPanel.Panel.Database
import AdminPanel.RateLimit.SlidingWindow
import Mathlib.Data.List.Dedup

/-!
# Quotas of configs

A request to create a config counts the user's configs at its start and inserts its row at its end.
Between the two are the rate limit, other checks and the commands on the node.

* `countUserConfigs`, `quotaLimit`, `enforceUserCanCreateConfig` — what a request is checked for;
* `QuotaState`, `step` — the requests of a user, and the deletions of configs;
* `KeepsQuota` — after a commit the user is within the quota, and what was rejected has created
  nothing;
* `LeavesRoom` — a check counts the requests that are on their way, too;
* `keepsQuota_of_room` — runs of such checks keep the quota.
-/

namespace AdminPanel.Panel.ConfigQuota

open List

open Lib (exec Along along_of_guard)
open Lib.PyText (pyInt?)

abbrev Text := List Char

/-! ## Settings -/

/-- The texts of the settings, where they are set. -/
structure Settings where
  quotaDefault : Option Text
  createRateMax : Option Text
  createRateWindow : Option Text
  deriving DecidableEq, Repr

def getSettingInt (raw : Option Text) (default : ℤ) : ℤ :=
  match raw with
  | none => default
  | some text => (pyInt? text).getD default

def clampInt (value low high : ℤ) : ℤ := max low (min high value)

/-- `_quota_default` -/
def Settings.quota (settings : Settings) : ℤ :=
  clampInt (getSettingInt settings.quotaDefault 5) 0 1000

/-- `_create_rate_max` -/
def Settings.rateMax (settings : Settings) : ℤ :=
  clampInt (getSettingInt settings.createRateMax 3) 0 100

/-- `_create_rate_window`, in seconds. -/
def Settings.rateWindow (settings : Settings) : ℤ :=
  clampInt (getSettingInt settings.createRateWindow 3600) 60 86400

/-! ## Users and configs -/

structure QuotaUser where
  id : ℕ
  isAdmin : Bool
  configQuota : Option ℤ
  canCreateConfigs : Bool
  deriving DecidableEq, Repr

/-- A row of `vpn_configs`. -/
structure ConfigRow where
  id : ℕ
  nodeId : ℕ
  clientName : String
  vpnType : VpnType
  ownerId : ℕ
  haPrimaryConfigId : Option ℕ
  deriving DecidableEq, Repr

/-- `get_user_config_quota_limit`; `none` is no limit. -/
def quotaLimit (settings : Settings) (user : QuotaUser) : Option ℤ :=
  if user.isAdmin then none
  else
    match user.configQuota with
    | some quota => if quota ≤ 0 then none else some quota
    | none => if settings.quota ≤ 0 then none else some settings.quota

/-- The pairs of name and protocol that a user owns, outside of replicas. -/
def ownedPairs (rows : List ConfigRow) (userId : ℕ) : List (String × VpnType) :=
  (rows.filter fun row => row.ownerId = userId && row.haPrimaryConfigId = none).map fun row =>
    (row.clientName, row.vpnType)

def countUserConfigs (rows : List ConfigRow) (userId : ℕ) : ℕ :=
  (ownedPairs rows userId).dedup.length

inductive Rejection
  | subscriptionExpired
  | creationDisabled
  | quotaReached (limit : ℤ)
  | rateLimited (window : ℤ)
  deriving DecidableEq, Repr

def Rejection.statusCode : Rejection → ℕ
  | .subscriptionExpired | .creationDisabled => 403
  | .quotaReached _ => 400
  | .rateLimited _ => 429

def Rejection.detail : Rejection → Text
  | .subscriptionExpired => "subscription_expired: Срок подписки истёк".toList
  | .creationDisabled => "Создание конфигураций отключено администратором".toList
  | .quotaReached limit =>
    "Достигнут лимит конфигураций (".toList ++ Lib.PyText.intText limit ++ ")".toList
  | .rateLimited window =>
    "Превышен лимит создания конфигов: повторите через ".toList ++ Lib.PyText.intText window ++
      " с".toList

/-! ## Requests -/

/-- How far a request is, with the limit that its check has read. -/
inductive Phase
  | started
  | rejected (why : Rejection)
  | quotaChecked (limit : Option ℤ)
  | rateChecked (limit : Option ℤ)
  | admitted (limit : Option ℤ)
  | validated (limit : Option ℤ)
  | created (limit : Option ℤ)
  | committed (limit : Option ℤ)
  | failed
  deriving DecidableEq, Repr

structure CreateRequest where
  nodeId : ℕ
  clientName : String
  vpnType : VpnType
  phase : Phase := .started
  createdOnNode : Bool := false
  deriving DecidableEq, Repr

/-- `enforce_user_can_create_config` up to the rate limit. -/
def enforceUserCanCreateConfig (settings : Settings) (user : QuotaUser) (rows : List ConfigRow)
    (expired : Bool) : Phase :=
  if user.isAdmin then .admitted none
  else if expired then .rejected .subscriptionExpired
  else if user.canCreateConfigs = false then .rejected .creationDisabled
  else
    match quotaLimit settings user with
    | none => .quotaChecked none
    | some limit =>
      if limit ≤ countUserConfigs rows user.id then .rejected (.quotaReached limit)
      else .quotaChecked (some limit)

/-- The rows, the events of the rate limit and the requests of a user. -/
structure QuotaState where
  rows : List ConfigRow
  nextId : ℕ
  events : List ℤ
  requests : List CreateRequest

/-- The unique constraint of the table. -/
def taken (rows : List ConfigRow) (nodeId : ℕ) (clientName : String) (vpnType : VpnType) : Bool :=
  rows.any fun row =>
    row.nodeId = nodeId && row.clientName = clientName && row.vpnType = vpnType

inductive Action
  | request (nodeId : ℕ) (clientName : String) (vpnType : VpnType)
  | check (i : ℕ) (expired : Bool)
  | rateCheck (i : ℕ) (now : ℤ)
  | rateAdd (i : ℕ) (now : ℤ)
  | validate (i : ℕ) (passes : Bool)
  | create (i : ℕ) (succeeds : Bool)
  | commit (i : ℕ)
  | delete (id : ℕ)
  | replicate (id nodeId : ℕ)

/-- The settings and the user; the clock has microseconds. -/
structure Context where
  settings : Settings
  user : QuotaUser

section

variable (context : Context) (s : QuotaState)

def Context.limit : Option ℤ := quotaLimit context.settings context.user

def Context.window : ℕ := (1000000 * context.settings.rateWindow).toNat

def QuotaState.setPhase (i : ℕ) (request : CreateRequest) (phase : Phase) : QuotaState :=
  { s with requests := s.requests.set i { request with phase := phase } }

/-- The next step of a request. -/
def advance (i : ℕ) (request : CreateRequest) : Action → Option QuotaState
  | .check _ expired =>
    match request.phase with
    | .started =>
      some (s.setPhase i request
        (enforceUserCanCreateConfig context.settings context.user s.rows expired))
    | _ => none
  | .rateCheck _ now =>
    match request.phase with
    | .quotaChecked limit =>
      if context.settings.rateMax ≤ 0 then some (s.setPhase i request (.admitted limit))
      else
        let (count, events) := RateLimit.memory.count context.window now s.events
        if context.settings.rateMax ≤ count then
          some ({ s with events := events }.setPhase i request
            (.rejected (.rateLimited context.settings.rateWindow)))
        else some ({ s with events := events }.setPhase i request (.rateChecked limit))
    | _ => none
  | .rateAdd _ now =>
    match request.phase with
    | .rateChecked limit =>
      some ({ s with events := RateLimit.memory.add context.window now s.events }.setPhase i request
        (.admitted limit))
    | _ => none
  | .validate _ passes =>
    match request.phase with
    | .admitted limit =>
      some (s.setPhase i request
        (if passes && !taken s.rows request.nodeId request.clientName request.vpnType then
          .validated limit
        else .failed))
    | _ => none
  | .create _ succeeds =>
    match request.phase with
    | .validated limit =>
      if succeeds then some (s.setPhase i { request with createdOnNode := true } (.created limit))
      else some (s.setPhase i request .failed)
    | _ => none
  | .commit _ =>
    match request.phase with
    | .created limit =>
      if taken s.rows request.nodeId request.clientName request.vpnType then
        some (s.setPhase i request .failed)
      else
        let row : ConfigRow :=
          { id := s.nextId, nodeId := request.nodeId, clientName := request.clientName,
            vpnType := request.vpnType, ownerId := context.user.id, haPrimaryConfigId := none }
        some ({ s with rows := s.rows ++ [row], nextId := s.nextId + 1 }.setPhase i request
          (.committed limit))
    | _ => none
  | _ => none

def step (a : Action) : Option QuotaState :=
  match a with
  | .request nodeId clientName vpnType =>
    some { s with requests := s.requests ++
      [{ nodeId := nodeId, clientName := clientName, vpnType := vpnType }] }
  | .check i _ | .rateCheck i _ | .rateAdd i _ | .validate i _ | .create i _ | .commit i =>
    s.requests[i]?.bind fun request => advance context s i request a
  | .delete id =>
    -- the row goes with its replicas
    some { s with rows := s.rows.filter fun row =>
      !(row.id = id) && !(row.haPrimaryConfigId = some id) }
  | .replicate id nodeId =>
    (s.rows.find? fun row => row.id = id).bind fun row =>
      if taken s.rows nodeId row.clientName row.vpnType then none
      else
        some { s with
          rows := s.rows ++
            [{ row with id := s.nextId, nodeId := nodeId, haPrimaryConfigId := some row.id }]
          nextId := s.nextId + 1 }

/-! ## What is promised -/

/-- A request that has passed its check and has not ended. -/
def Phase.onTheWay : Phase → Bool
  | .quotaChecked _ | .rateChecked _ | .admitted _ | .validated _ | .created _ => true
  | .started | .rejected _ | .committed _ | .failed => false

def QuotaState.used : ℕ :=
  countUserConfigs s.rows context.user.id

/-- The number of requests on their way. -/
def QuotaState.held : ℕ := s.requests.countP fun request => request.phase.onTheWay

/-- After a commit the user is within the limit that its request has read, and no rejected request
has created anything. -/
def KeepsQuota (a : Action) : Prop :=
  ∀ s', step context s a = some s' →
    (∀ i request limit, a = .commit i → s'.requests[i]? = some request →
      request.phase = .committed (some limit) → s'.used context ≤ limit) ∧
    ∀ request ∈ s'.requests, ∀ why, request.phase = .rejected why → request.createdOnNode = false

/-- A check that passes leaves room for the requests that are on their way. -/
def LeavesRoom : Action → Prop
  | .check _ _ => ∀ limit ∈ context.limit,
      (s.used context : ℤ) < limit → (s.used context + s.held : ℤ) < limit
  | _ => True

instance decidableLeavesRoom : ∀ a, Decidable (LeavesRoom context s a)
  | .check _ _ => inferInstanceAs (Decidable (∀ limit ∈ context.limit,
      (s.used context : ℤ) < limit → (s.used context + s.held : ℤ) < limit))
  | .request _ _ _ | .rateCheck _ _ | .rateAdd _ _ | .validate _ _ | .create _ _ | .commit _
  | .delete _ | .replicate _ _ => inferInstanceAs (Decidable True)

end

def start (rows : List ConfigRow) (nextId : ℕ) (events : List ℤ) : QuotaState where
  rows := rows
  nextId := nextId
  events := events
  requests := []

/-! ## Counts -/

section

variable {rows : List ConfigRow} {userId : ℕ} {row : ConfigRow}

theorem dedup_length_le {α : Type} [DecidableEq α] {l m : List α} (h : l ⊆ m) :
    l.dedup.length ≤ m.dedup.length := by
  refine (List.Nodup.subperm (nodup_dedup l) fun a hA => ?_).length_le
  exact mem_dedup.mpr (h (mem_dedup.mp hA))

theorem count_filter_le (p : ConfigRow → Bool) :
    countUserConfigs (rows.filter p) userId ≤ countUserConfigs rows userId := by
  refine dedup_length_le fun pair hPair => ?_
  obtain ⟨row, hRow, rfl⟩ := mem_map.mp hPair
  obtain ⟨hMem, hOwned⟩ := mem_filter.mp hRow
  exact mem_map_of_mem (mem_filter.mpr ⟨(mem_filter.mp hMem).1, hOwned⟩)

/-- A row is one pair more, at most. -/
theorem count_append_le (row : ConfigRow) :
    countUserConfigs (rows ++ [row]) userId ≤ countUserConfigs rows userId + 1 := by
  have hPairs : ownedPairs (rows ++ [row]) userId ⊆
      (row.clientName, row.vpnType) :: (ownedPairs rows userId).dedup := by
    intro pair hPair
    obtain ⟨other, hOther, rfl⟩ := mem_map.mp hPair
    obtain ⟨hMem, hOwned⟩ := mem_filter.mp hOther
    rcases mem_append.mp hMem with hOld | hNew
    · exact mem_cons_of_mem _ (mem_dedup.mpr
        (mem_map_of_mem (mem_filter.mpr ⟨hOld, hOwned⟩)))
    · rw [mem_singleton.mp hNew]
      exact mem_cons_self
  have hLength := (List.Nodup.subperm (nodup_dedup (ownedPairs (rows ++ [row]) userId))
    fun pair hPair => hPairs (mem_dedup.mp hPair)).length_le
  exact hLength

/-- Replicas are not counted. -/
theorem count_append_replica (h : row.haPrimaryConfigId ≠ none) :
    countUserConfigs (rows ++ [row]) userId = countUserConfigs rows userId := by
  rw [countUserConfigs, ownedPairs, filter_append, filter_singleton]
  simp [h, countUserConfigs, ownedPairs]

end

/-! ## Steps -/

variable {context : Context} {s s' : QuotaState} {a : Action}

/-- The requests on their way fit in the limit beside the configs there are. -/
def Fits (context : Context) (s : QuotaState) : Prop :=
  0 < s.held → ∀ limit ∈ context.limit, (s.used context + s.held : ℤ) ≤ limit

/-- The limit that the check of a request has read. -/
def Phase.limitRead? : Phase → Option (Option ℤ)
  | .quotaChecked limit | .rateChecked limit | .admitted limit | .validated limit
  | .created limit | .committed limit => some limit
  | .started | .rejected _ | .failed => none

/-- Phases behind the commands on the node. -/
def Phase.behindNode : Phase → Bool
  | .created _ | .committed _ | .failed => true
  | _ => false

structure Sound (context : Context) (request : CreateRequest) : Prop where
  limit : ∀ limit ∈ request.phase.limitRead?, limit = context.limit
  created : request.createdOnNode = true → request.phase.behindNode = true

structure Inv (context : Context) (s : QuotaState) : Prop where
  fits : Fits context s
  sound : ∀ request ∈ s.requests, Sound context request

def weight (request : CreateRequest) : ℕ := if request.phase.onTheWay then 1 else 0

/-- What a step of a request does: it takes no more room than it has had, or it is a check that
has found some. -/
structure Advanced (context : Context) (s s' : QuotaState) (i : ℕ) (request : CreateRequest)
    (a : Action) (request' : CreateRequest) : Prop where
  requests : s'.requests = s.requests.set i request'
  sound : Sound context request'
  room : (s'.used context + weight request' ≤ s.used context + weight request ∧
      weight request' ≤ weight request) ∨
    (∃ j expired, a = .check j expired) ∧ s'.used context = s.used context ∧
      weight request = 0 ∧ weight request' = 1 ∧
        ∀ limit ∈ context.limit, (s.used context : ℤ) < limit

variable {i : ℕ} {request : CreateRequest} {phase : Phase}

theorem Sound.notCreated (h : Sound context request) (hPhase : request.phase.behindNode = false) :
    request.createdOnNode = false := by
  rw [Bool.eq_false_iff]
  intro hCreated
  rw [h.created hCreated] at hPhase
  cases hPhase

/-- A step that changes the phase and no row: the new phase knows the limit that the old one has
read, or none. -/
theorem advanced_of_phase (hSound : Sound context request)
    (hRequests : s'.requests = s.requests.set i { request with phase := phase })
    (hRows : s'.rows = s.rows)
    (hLimit : phase.limitRead? = none ∨ phase.limitRead? = request.phase.limitRead?)
    (hNode : request.phase.behindNode = false ∨ phase.behindNode = true)
    (hWay : phase.onTheWay = true → request.phase.onTheWay = true) :
    ∃ request', Advanced context s s' i request a request' := by
  have hWeight : weight { request with phase := phase } ≤ weight request := by
    rw [weight, weight]
    split_ifs with hNew hOld
    · exact le_rfl
    · exact absurd (hWay hNew) hOld
    · exact Nat.zero_le 1
    · exact le_rfl
  refine ⟨_, hRequests, ⟨fun limit hRead => ?_, fun hCreated => ?_⟩, .inl ⟨?_, hWeight⟩⟩
  · rcases hLimit with hNone | hSame
    · exact absurd (hNone.symm.trans hRead) nofun
    · exact hSound.limit limit (hSame.symm.trans hRead)
  · rcases hNode with hBefore | hBehind
    · exact absurd ((hSound.notCreated hBefore).symm.trans hCreated) nofun
    · exact hBehind
  · rw [QuotaState.used, QuotaState.used, hRows]
    omega

/-- A check rejects the request, or passes it with the limit of the user, which is not reached. -/
theorem enforce_cases (context : Context) (rows : List ConfigRow) (expired : Bool)
    (h : enforceUserCanCreateConfig context.settings context.user rows expired = phase) :
    (∃ why, phase = .rejected why) ∨
    phase.onTheWay = true ∧ phase.limitRead? = some context.limit ∧
      ∀ limit ∈ context.limit, (countUserConfigs rows context.user.id : ℤ) < limit := by
  subst h
  rw [enforceUserCanCreateConfig]
  split_ifs with hAdmin hExpired hCan
  · have hNone : context.limit = none := if_pos hAdmin
    exact .inr ⟨rfl, congrArg some hNone.symm, by simp [hNone]⟩
  · exact .inl ⟨_, rfl⟩
  · exact .inl ⟨_, rfl⟩
  · cases hLimit : quotaLimit context.settings context.user with
    | none => exact .inr ⟨rfl, congrArg some hLimit.symm, by simp [Context.limit, hLimit]⟩
    | some limit =>
      dsimp only
      split_ifs with hFull
      · exact .inl ⟨_, rfl⟩
      · refine .inr ⟨rfl, congrArg some hLimit.symm, fun l hL => ?_⟩
        obtain rfl := Option.mem_unique hLimit hL
        exact not_le.mp hFull

/-- One case for each step that a request can take next; a check and a commit change more than
the phase. -/
theorem advance_cases (hSound : Sound context request)
    (h : advance context s i request a = some s') :
    ∃ request', Advanced context s s' i request a request' := by
  cases a with
  | check j expired =>
    cases hPhase : request.phase with
    | started =>
      rw [advance, hPhase] at h
      cases h
      rcases enforce_cases context s.rows expired rfl with ⟨why, hWhy⟩ | ⟨hWay, hLimit, hRoom⟩
      · rw [hWhy]
        exact advanced_of_phase hSound rfl rfl (.inl rfl) (by simp [hPhase, Phase.behindNode]) nofun
      · refine ⟨_, rfl, ⟨fun limit hL => Option.mem_unique hL hLimit, fun hC => ?_⟩,
          .inr ⟨⟨j, expired, rfl⟩, rfl, by rw [weight, hPhase]; rfl, if_pos hWay, hRoom⟩⟩
        exact absurd ((hSound.notCreated (by rw [hPhase]; rfl)).symm.trans hC) nofun
    | _ => simp [advance, hPhase] at h
  | rateCheck j now =>
    cases hPhase : request.phase with
    | quotaChecked limit =>
      rw [advance, hPhase] at h
      dsimp only at h
      split_ifs at h <;> obtain rfl := Option.some.inj h <;>
        exact advanced_of_phase hSound rfl rfl (by simp [hPhase, Phase.limitRead?])
          (by simp [hPhase, Phase.behindNode]) (by simp [hPhase, Phase.onTheWay])
    | _ => simp [advance, hPhase] at h
  | rateAdd j now =>
    cases hPhase : request.phase with
    | rateChecked limit =>
      rw [advance, hPhase] at h
      cases h
      exact advanced_of_phase hSound rfl rfl (by simp [hPhase, Phase.limitRead?])
        (by simp [hPhase, Phase.behindNode]) (by simp [hPhase, Phase.onTheWay])
    | _ => simp [advance, hPhase] at h
  | validate j passes =>
    cases hPhase : request.phase with
    | admitted limit =>
      rw [advance, hPhase] at h
      cases h
      split_ifs <;>
        exact advanced_of_phase hSound rfl rfl (by simp [hPhase, Phase.limitRead?])
          (by simp [hPhase, Phase.behindNode]) (by simp [hPhase, Phase.onTheWay])
    | _ => simp [advance, hPhase] at h
  | create j succeeds =>
    cases hPhase : request.phase with
    | validated limit =>
      have hLimit : limit = context.limit := hSound.limit limit (by rw [hPhase]; rfl)
      rw [advance, hPhase] at h
      dsimp only at h
      split_ifs at h
      · cases h
        refine ⟨_, rfl, ⟨fun l hL => (Option.some.inj hL).symm.trans hLimit, fun _ => rfl⟩,
          .inl ⟨?_, ?_⟩⟩ <;> simp [weight, hPhase, Phase.onTheWay, QuotaState.used,
            QuotaState.setPhase]
      · cases h
        exact advanced_of_phase hSound rfl rfl (.inl rfl) (.inr rfl) nofun
    | _ => simp [advance, hPhase] at h
  | commit j =>
    cases hPhase : request.phase with
    | created limit =>
      have hLimit : limit = context.limit := hSound.limit limit (by rw [hPhase]; rfl)
      rw [advance, hPhase] at h
      dsimp only at h
      split_ifs at h
      · cases h
        exact advanced_of_phase hSound rfl rfl (.inl rfl) (.inr rfl) nofun
      · cases h
        refine ⟨_, rfl, ⟨fun l hL => (Option.some.inj hL).symm.trans hLimit, fun _ => rfl⟩,
          .inl ⟨?_, Nat.zero_le _⟩⟩
        -- the row takes the room that its request has held
        have hHeld : weight request = 1 := by rw [weight, hPhase]; rfl
        rw [hHeld]
        exact count_append_le _
    | _ => simp [advance, hPhase] at h
  | request nodeId clientName vpnType | delete id | replicate id nodeId => cases h

theorem weight_le_held (hGet : s.requests[i]? = some request) : weight request ≤ s.held := by
  obtain ⟨hLt, rfl⟩ := List.getElem?_eq_some_iff.mp hGet
  exact boole_getElem_le_countP (p := fun request => request.phase.onTheWay) hLt

theorem held_set {request' : CreateRequest} (hGet : s.requests[i]? = some request)
    (hRequests : s'.requests = s.requests.set i request') :
    s'.held + weight request = s.held + weight request' := by
  have hOne := weight_le_held hGet
  obtain ⟨hLt, rfl⟩ := List.getElem?_eq_some_iff.mp hGet
  rw [QuotaState.held, hRequests, countP_set hLt, ← QuotaState.held]
  change s.held - weight s.requests[i] + weight request' + weight s.requests[i] = _
  omega

/-- A request that passes a check needs room, and no other step takes any. -/
theorem Inv.advance {request' : CreateRequest} (hInv : Inv context s)
    (hRoom : LeavesRoom context s a) (hGet : s.requests[i]? = some request)
    (h : Advanced context s s' i request a request') : Inv context s' := by
  have hHeld := held_set hGet h.requests
  constructor
  · intro hSome limit hLimit
    rcases h.room with ⟨hUsed, hLess⟩ | ⟨⟨j, expired, rfl⟩, hUsed, hOld, hNew, hChecked⟩
    · have hFits := hInv.fits (by omega) limit hLimit
      omega
    · have hLeft := hRoom limit hLimit (hChecked limit hLimit)
      omega
  · intro other hOther
    rw [h.requests] at hOther
    rcases mem_or_eq_of_mem_set hOther with hMem | rfl
    · exact hInv.sound other hMem
    · exact h.sound

/-- Steps of no request: the requests are as they were, and there are no more configs. -/
theorem Inv.of_used_le (hInv : Inv context s) (hRequests : s'.requests = s.requests)
    (hUsed : s'.used context ≤ s.used context) : Inv context s' := by
  constructor
  · intro hSome limit hLimit
    rw [QuotaState.held, hRequests] at hSome ⊢
    have hFits := hInv.fits hSome limit hLimit
    rw [QuotaState.held] at hFits
    omega
  · rw [hRequests]
    exact hInv.sound

theorem Inv.received (hInv : Inv context s) (nodeId : ℕ) (clientName : String) (vpnType : VpnType) :
    Inv context { s with requests := s.requests ++
      [{ nodeId := nodeId, clientName := clientName, vpnType := vpnType }] } := by
  constructor
  · have hHeld : QuotaState.held { s with requests := s.requests ++
        [{ nodeId := nodeId, clientName := clientName, vpnType := vpnType }] } = s.held := by
      simp [QuotaState.held, Phase.onTheWay]
    intro hSome limit hLimit
    rw [hHeld] at hSome ⊢
    exact hInv.fits hSome limit hLimit
  · intro request hRequest
    rcases mem_append.mp hRequest with hOld | hNew
    · exact hInv.sound request hOld
    · rw [mem_singleton.mp hNew]
      exact ⟨nofun, nofun⟩

/-- What a step of a request is. -/
theorem step_of_request {advances : Action} (hStep : (s.requests[i]?.bind fun request =>
      advance context s i request advances) = some s') (hInv : Inv context s) :
    ∃ request request', s.requests[i]? = some request ∧
      advance context s i request advances = some s' ∧
        Advanced context s s' i request advances request' := by
  obtain ⟨request, hGet, hAdvance⟩ := Option.bind_eq_some_iff.mp hStep
  obtain ⟨request', hAdvanced⟩ :=
    advance_cases (hInv.sound request (mem_of_getElem? hGet)) hAdvance
  exact ⟨request, request', hGet, hAdvance, hAdvanced⟩

theorem inv_step (hInv : Inv context s) (hRoom : LeavesRoom context s a)
    (h : step context s a = some s') : Inv context s' := by
  cases a with
  | request nodeId clientName vpnType =>
    cases h
    exact hInv.received nodeId clientName vpnType
  | delete id =>
    cases h
    exact hInv.of_used_le rfl (count_filter_le _)
  | replicate id nodeId =>
    obtain ⟨row, -, hTaken⟩ := Option.bind_eq_some_iff.mp h
    split_ifs at hTaken
    cases hTaken
    exact hInv.of_used_le rfl (count_append_replica (by simp)).le
  | check i expired | rateCheck i now | rateAdd i now | validate i passes | create i succeeds
  | commit i =>
    obtain ⟨request, request', hGet, -, hAdvanced⟩ := step_of_request h hInv
    exact hInv.advance hRoom hGet hAdvanced

/-- A commit is of a request that is on its way. -/
theorem onTheWay_of_commit {j : ℕ} (h : advance context s i request (.commit j) = some s') :
    request.phase.onTheWay = true := by
  cases hPhase : request.phase with
  | created limit => rfl
  | _ => simp [advance, hPhase] at h

/-- The room that a request has held is enough for its row. -/
theorem used_le_of_commit (hInv : Inv context s) (h : step context s (.commit i) = some s') :
    ∀ limit ∈ context.limit, (s'.used context : ℤ) ≤ limit := by
  obtain ⟨request, request', hGet, hCommit, hAdvanced⟩ := step_of_request h hInv
  have hWeight : weight request = 1 := if_pos (onTheWay_of_commit hCommit)
  intro limit hLimit
  rcases hAdvanced.room with ⟨hUsed, -⟩ | ⟨⟨j, expired, hOther⟩, -⟩
  · have hOne := weight_le_held hGet
    have hFits := hInv.fits (by omega) limit hLimit
    omega
  · cases hOther

theorem keepsQuota_step (hInv : Inv context s) (hRoom : LeavesRoom context s a) :
    KeepsQuota context s a := by
  intro s' hStep
  have hNext := inv_step hInv hRoom hStep
  constructor
  · rintro i request limit rfl hGet hPhase
    have hRead := (hNext.sound request (mem_of_getElem? hGet)).limit (some limit)
      (by rw [hPhase]; rfl)
    exact used_le_of_commit hInv hStep limit hRead.symm
  · intro request hMem why hPhase
    exact (hNext.sound request hMem).notCreated (by rw [hPhase]; rfl)

theorem inv_start (context : Context) (rows : List ConfigRow) (nextId : ℕ) (events : List ℤ) :
    Inv context (start rows nextId events) where
  fits hSome := absurd hSome (Nat.lt_irrefl 0)
  sound request hMem := by cases hMem

/-- **Where a check counts the requests that are on their way, too, no commit exceeds the quota and
nothing that is rejected creates anything.** -/
theorem keepsQuota_of_room (context : Context) (rows : List ConfigRow) (nextId : ℕ)
    (events : List ℤ) (run : List Action)
    (hRoom : Along (step context) (LeavesRoom context) (start rows nextId events) run) :
    Along (step context) (KeepsQuota context) (start rows nextId events) run :=
  along_of_guard (fun _ _ _ hInv hR h => inv_step hInv hR h) (fun _ _ => keepsQuota_step)
    (inv_start context rows nextId events) hRoom

/-! ## Two requests -/

/-- A user with a quota of one config. -/
def single : Context where
  settings := { quotaDefault := none, createRateMax := none, createRateWindow := none }
  user := { id := 7, isAdmin := false, configQuota := some 1, canCreateConfigs := true }

/-- Two requests; the second check comes before the first commit. -/
def overtaking : List Action :=
  [.request 1 "phone" .openvpn, .request 1 "laptop" .openvpn, .check 0 false, .rateCheck 0 0,
    .rateAdd 0 0, .check 1 false, .rateCheck 1 1, .rateAdd 1 1, .validate 0 true, .create 0 true,
    .validate 1 true, .create 1 true, .commit 0]

/-- One request, and another one after its end. -/
def inTurn : List Action :=
  [.request 1 "phone" .openvpn, .check 0 false, .rateCheck 0 0, .rateAdd 0 0, .validate 0 true,
    .create 0 true, .commit 0, .request 1 "laptop" .openvpn, .check 1 false]

theorem keepsQuota_of_room_inTurn :
    Along (step single) (KeepsQuota single) (start [] 1 []) inTurn := by
  refine keepsQuota_of_room single [] 1 [] inTurn ?_
  decide

/-- Two requests that are checked before either of them has a row exceed a quota of one. -/
theorem not_always_keepsQuota : ¬∀ (context : Context) (rows : List ConfigRow) (nextId : ℕ)
    (events : List ℤ) (run : List Action),
    Along (step context) (KeepsQuota context) (start rows nextId events) run := by
  intro hAll
  obtain ⟨s, hExec⟩ : ∃ s, exec (step single) (start [] 1 []) overtaking = some s := ⟨_, rfl⟩
  have hKeeps := (hAll single [] 1 [] (overtaking ++ [.commit 1])).at hExec
  cases hExec
  have hUsed := (hKeeps _ rfl).1 1 _ 1 rfl rfl rfl
  revert hUsed
  decide

end AdminPanel.Panel.ConfigQuota
