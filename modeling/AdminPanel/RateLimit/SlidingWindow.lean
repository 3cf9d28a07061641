import AdminPanel.Lib.Runs
import AdminPanel.Lib.Window
import Mathlib.Data.List.Nodup
import Mathlib.Data.List.Perm.Subperm

/-!
# Sliding-window rate limits

`SlidingWindowLimiter.consume` asks the backend how many events of a key lie within the window, and
adds one if there are less than the limit. The two are separate calls of the backend, and calls of
`consume` interleave between them.

* `memory`, `redis` — the backends, on the events of one key;
* `Limiter`, `turn` — the calls of `consume`, and the next backend step of one of them;
* `KeepsLimit` — no interval of a window's length holds more accepted calls than the limit, and a
  call is refused only if that many lie within the window before it;
* `Passes` — a call that adds would still pass its check;
* `Counts` — what the two backends have in common;
* `passes_of_oneAtATime` — so it does if no call begins between the count and the add of another.

Main result: `keepsLimit_iff`. Times are ticks of a clock that never goes back.
-/

namespace AdminPanel.RateLimit

open List Function

open Lib (exec Along)
open Lib.Window (within Limited)

abbrev Text := List Char

/-! ## Backends -/

/-- A backend, as far as one key goes. -/
structure Backend where
  Store : Type
  empty : Store
  count (window : ℕ) (now : ℤ) (store : Store) : ℕ × Store
  add (window : ℕ) (now : ℤ) (store : Store) : Store

/-- `MemoryRateLimitBackend._prune` -/
def prune (window : ℕ) (now : ℤ) (events : List ℤ) : List ℤ :=
  events.filter fun time => now - time ≤ window

def memory : Backend where
  Store := List ℤ
  empty := []
  count window now events :=
    let fresh := prune window now events
    (fresh.length, fresh)
  add window now events := prune window now events ++ [now]

/-- The ticks of a second. -/
structure Ticks where
  perSecond : ℕ
  pos : 0 < perSecond

/-- A sorted set of Redis whose members are their own scores, and when it expires. -/
structure SortedSet where
  members : List ℤ
  expires : Option ℤ

def SortedSet.live (set : SortedSet) (now : ℤ) : List ℤ :=
  if set.expires.any (· ≤ now) then [] else set.members

/-- `zadd`: a member that is there stays a single one. -/
def zadd (time : ℤ) (members : List ℤ) : List ℤ :=
  if time ∈ members then members else members ++ [time]

def zremrangebyscore (low high : ℤ) (members : List ℤ) : List ℤ :=
  members.filter fun time => ¬ (low ≤ time ∧ time ≤ high)

def redis (ticks : Ticks) : Backend where
  Store := SortedSet
  empty := ⟨[], none⟩
  count window now set := (((set.live now).filter fun time => now - window ≤ time).length, set)
  add window now set :=
    { members := zremrangebyscore 0 (now - window) (zadd now (set.live now))
      expires := some (now + (window / ticks.perSecond + 1 : ℕ) * ticks.perSecond) }

/-- The `backend` argument of `create_rate_limit_backend`. -/
inductive Kind
  | memory
  | redis
  deriving DecidableEq, Repr

def Kind.backend (ticks : Ticks) : Kind → Backend
  | .memory => RateLimit.memory
  | .redis => RateLimit.redis ticks

/-! ## Calls -/

/-- How far a call of `consume` is. -/
inductive Phase
  | starting
  /-- `check` did not raise -/
  | checked
  | finished
  deriving DecidableEq, Repr

/-- How a call ended. -/
inductive Answer
  | returned (now : ℤ)
  /-- `RateLimitExceeded` -/
  | raised (now : ℤ)
  deriving DecidableEq, Repr

/-- A key's entry in the backend, its calls and how they ended, the last one at the end. -/
structure Entry (B : Backend) where
  store : B.Store
  phase : ℕ → Phase
  log : List Answer

structure Limiter (B : Backend) where
  clock : ℤ
  entries : Text → Entry B

/-- A backend step of a call on a key. -/
structure Turn where
  key : Text
  call : ℕ
  now : ℤ

/-- Every key has its own limit and window. -/
structure Setting where
  limit : Text → ℕ
  window : Text → ℕ

/-- `SlidingWindowLimiter.consume`, from one call of the backend to the next. -/
def consume {B : Backend} (limit window call : ℕ) (now : ℤ) (entry : Entry B) : Entry B :=
  match entry.phase call with
  | .starting =>
    let (count, store) := B.count window now entry.store
    if limit ≤ count then
      ⟨store, update entry.phase call .finished, entry.log ++ [.raised now]⟩
    else ⟨store, update entry.phase call .checked, entry.log⟩
  | .checked =>
    ⟨B.add window now entry.store, update entry.phase call .finished,
      entry.log ++ [.returned now]⟩
  | .finished => entry

def turn {B : Backend} (setting : Setting) (limiter : Limiter B) (t : Turn) : Option (Limiter B) :=
  if limiter.clock ≤ t.now then
    some ⟨t.now, update limiter.entries t.key
      (consume (setting.limit t.key) (setting.window t.key) t.call t.now (limiter.entries t.key))⟩
  else none

def start (B : Backend) (clock : ℤ) : Limiter B where
  clock := clock
  entries _ := ⟨B.empty, fun _ => .starting, []⟩

/-! ## The limit -/

/-- When calls returned. -/
def accepted (log : List Answer) : List ℤ :=
  log.filterMap fun answer => match answer with | .returned now => some now | .raised _ => none

structure KeepsLimit (limit window : ℕ) (log : List Answer) : Prop where
  limited : Limited limit window (accepted log)
  justified : ∀ before now after, log = before ++ .raised now :: after →
    limit ≤ (within window now (accepted before)).length

/-- A call that adds would still pass its check. -/
def Passes {B : Backend} (setting : Setting) (key : Text) (limiter : Limiter B) (t : Turn) : Prop :=
  t.key = key → (limiter.entries key).phase t.call = .checked →
    (B.count (setting.window key) t.now (limiter.entries key).store).1 < setting.limit key

/-- No call has added at the same time. -/
def NewTime {B : Backend} (key : Text) (limiter : Limiter B) (t : Turn) : Prop :=
  t.key = key → (limiter.entries key).phase t.call = .checked →
    t.now ∉ accepted (limiter.entries key).log

instance {B : Backend} (key : Text) (limiter : Limiter B) (t : Turn) :
    Decidable (NewTime key limiter t) := inferInstanceAs (Decidable (_ → _ → _))

/-! ## What a backend counts -/

variable {limit window : ℕ} {now later clock : ℤ} {times : List ℤ} {log : List Answer}

/-- A backend counts the calls that returned, as long as no two of them add at the same time if
`apart` asks for that. `Tracks` ties its store to the times of these calls. -/
structure Counts (B : Backend) (window : ℕ) (apart : Prop)
    (Tracks : B.Store → List ℤ → ℤ → Prop) : Prop where
  empty (clock : ℤ) : Tracks B.empty [] clock
  later {store : B.Store} {times : List ℤ} {clock now : ℤ} :
    Tracks store times clock → clock ≤ now → Tracks store times now
  count {store : B.Store} {times : List ℤ} {now : ℤ} :
    Tracks store times now → Tracks (B.count window now store).2 times now
  add {store : B.Store} {times : List ℤ} {now : ℤ} :
    Tracks store times now → (apart → now ∉ times) →
      Tracks (B.add window now store) (times ++ [now]) now
  le {store : B.Store} {times : List ℤ} {now : ℤ} :
    Tracks store times now → (B.count window now store).1 ≤ (within window now times).length
  eq {store : B.Store} {times : List ℤ} {now : ℤ} : Tracks store times now →
    (apart → now ∉ times) → (B.count window now store).1 = (within window now times).length

/-- The list agrees with the calls on every window from now on. -/
def MemoryTracks (window : ℕ) (events times : List ℤ) (clock : ℤ) : Prop :=
  ∀ now, clock ≤ now → within window now events = within window now times

theorem MemoryTracks.add {events : List ℤ} (h : MemoryTracks window events times now) :
    MemoryTracks window (prune window now events ++ [now]) (times ++ [now]) now := by
  intro later hLater
  have hPrune : prune window now events = within window now events := rfl
  rw [hPrune, Lib.Window.within_append, Lib.Window.within_within hLater, h later hLater,
    Lib.Window.within_append]

theorem memory_counts (window : ℕ) : Counts memory window False (MemoryTracks window) where
  empty _ _ _ := rfl
  later h hLe now hNow := h now (hLe.trans hNow)
  count h later hLater := (Lib.Window.within_within hLater).trans (h later hLater)
  add h _ := h.add
  le h := (congrArg List.length (h _ le_rfl)).le
  eq h _ := congrArg List.length (h _ le_rfl)

/-- The members are times of calls, and none is missing that a later window still needs. -/
structure RedisTracks (window : ℕ) (set : SortedSet) (times : List ℤ) (clock : ℤ) : Prop where
  nodup : set.members.Nodup
  subset : set.members ⊆ times
  apart : times.Nodup
  past : ∀ time ∈ times, time ≤ clock
  kept : ∀ now, clock ≤ now → now ∉ times → ∀ time ∈ times, now - time ≤ window →
    time ∈ set.live now

theorem live_sublist (set : SortedSet) (now : ℤ) : (set.live now).Sublist set.members := by
  unfold SortedSet.live
  split_ifs
  · exact nil_sublist _
  · exact List.Sublist.refl _

theorem mem_zadd {time now : ℤ} {members : List ℤ} :
    time ∈ zadd now members ↔ time ∈ members ∨ time = now := by
  unfold zadd
  split_ifs with hMem
  · exact (or_iff_left_of_imp fun hEq => hEq ▸ hMem).symm
  · rw [mem_append, mem_singleton]

theorem nodup_zadd {members : List ℤ} (h : members.Nodup) : (zadd now members).Nodup := by
  unfold zadd
  split_ifs with hMem
  · exact h
  · exact h.append (nodup_singleton now) (disjoint_singleton.mpr hMem)

theorem RedisTracks.add {ticks : Ticks} {set : SortedSet} (h : RedisTracks window set times now)
    (hNew : now ∉ times) : RedisTracks window ((redis ticks).add window now set)
      (times ++ [now]) now where
  nodup := (nodup_zadd ((live_sublist set now).nodup h.nodup)).filter _
  subset := by
    intro time hTime
    obtain hLive | rfl := mem_zadd.mp (mem_filter.mp hTime).1
    · exact mem_append_left _ (h.subset ((live_sublist set now).subset hLive))
    · exact mem_append_right _ (mem_singleton_self _)
  apart := h.apart.append (nodup_singleton now) (disjoint_singleton.mpr hNew)
  past := by
    intro time hTime
    obtain hTime | hTime := mem_append.mp hTime
    · exact h.past time hTime
    · exact (mem_singleton.mp hTime).le
  kept := by
    intro later hLater hLaterNew time hTime hWindow
    have hBefore : time ≤ now := by
      obtain hTime | hTime := mem_append.mp hTime
      · exact h.past time hTime
      · exact (mem_singleton.mp hTime).le
    have hLess : now < later := by
      refine lt_of_le_of_ne hLater fun hEq => hLaterNew (hEq ▸ ?_)
      exact mem_append_right _ (mem_singleton_self _)
    -- The set lives longer than a window.
    have hLong : (window : ℤ) < ((window / ticks.perSecond + 1 : ℕ) * ticks.perSecond : ℤ) := by
      have hNat := Nat.lt_mul_of_div_lt (Nat.lt_succ_self (window / ticks.perSecond)) ticks.pos
      exact_mod_cast hNat
    have hLive : ((redis ticks).add window now set).live later =
        zremrangebyscore 0 (now - window) (zadd now (set.live now)) := by
      refine if_neg fun hExpired => ?_
      have hLe := of_decide_eq_true hExpired
      omega
    rw [hLive]
    refine mem_filter.mpr ⟨mem_zadd.mpr ?_, decide_eq_true (by omega)⟩
    obtain hTime | hTime := mem_append.mp hTime
    · exact .inl (h.kept now le_rfl hNew time hTime (by omega))
    · exact .inr (mem_singleton.mp hTime)

/-- The sorted set counts while no two times are equal. -/
theorem redis_counts (ticks : Ticks) (window : ℕ) :
    Counts (redis ticks) window True (RedisTracks window) where
  empty clock := ⟨nodup_nil, List.Subset.refl _, nodup_nil,
    fun _ hTime => absurd hTime not_mem_nil,
    fun _ _ _ _ hTime => absurd hTime not_mem_nil⟩
  later h hLe := { h with
    past := fun time hTime => (h.past time hTime).trans hLe
    kept := fun now hNow => h.kept now (hLe.trans hNow) }
  count h := h
  add h hNew := h.add (hNew trivial)
  le {set times now} h := by
    refine (subperm_of_subset (((live_sublist set now).nodup h.nodup).filter _) ?_).length_le
    intro time hTime
    obtain ⟨hLive, hWindow⟩ := mem_filter.mp hTime
    have hScore := of_decide_eq_true hWindow
    exact Lib.Window.mem_within.mpr
      ⟨h.subset ((live_sublist set now).subset hLive), by omega⟩
  eq {set times now} h hNew := by
    refine List.Perm.length_eq ((perm_ext_iff_of_nodup
      (((live_sublist set now).nodup h.nodup).filter _) (h.apart.filter _)).mpr fun time => ?_)
    rw [mem_filter, mem_filter, decide_eq_true_eq, decide_eq_true_eq]
    constructor
    · rintro ⟨hLive, hScore⟩
      exact ⟨h.subset ((live_sublist set now).subset hLive), by omega⟩
    · rintro ⟨hTime, hWindow⟩
      exact ⟨h.kept now le_rfl (hNew trivial) time hTime hWindow, by omega⟩

theorem Kind.counts (kind : Kind) (ticks : Ticks) (window : ℕ) :
    ∃ Tracks, Counts (kind.backend ticks) window (kind = .redis) Tracks := by
  cases kind with
  | memory =>
    have h := memory_counts window
    refine ⟨MemoryTracks window, ?_⟩
    exact { h with
      add := fun hTracks _ => h.add hTracks False.elim
      eq := fun hTracks _ => h.eq hTracks False.elim }
  | redis =>
    have h := redis_counts ticks window
    refine ⟨RedisTracks window, ?_⟩
    exact { h with
      add := fun hTracks hNew => h.add hTracks fun _ => hNew rfl
      eq := fun hTracks hNew => h.eq hTracks fun _ => hNew rfl }

/-! ## One step -/

theorem accepted_append (log more : List Answer) :
    accepted (log ++ more) = accepted log ++ accepted more :=
  filterMap_append ..

theorem keepsLimit_raised (hPast : limit ≤ (within window now (accepted log)).length) :
    KeepsLimit limit window (log ++ [.raised now]) ↔ KeepsLimit limit window log := by
  have hSame : accepted (log ++ [.raised now]) = accepted log := by
    rw [accepted_append]
    exact append_nil _
  constructor
  · intro h
    refine ⟨hSame ▸ h.limited, fun before time after hLog => ?_⟩
    exact h.justified before time (after ++ [.raised now]) (by rw [hLog]; simp)
  intro h
  refine ⟨hSame.symm ▸ h.limited, fun before time after hLog => ?_⟩
  rcases eq_nil_or_concat' after with rfl | ⟨rest, last, rfl⟩
  · obtain ⟨rfl, hLast⟩ := append_inj' hLog rfl
    obtain rfl := Answer.raised.inj (List.cons.inj hLast).1
    exact hPast
  · rw [← cons_append, ← append_assoc] at hLog
    exact h.justified before time rest (append_inj' hLog rfl).1

theorem keepsLimit_returned (hLast : ∀ time ∈ accepted log, time ≤ now) :
    KeepsLimit limit window (log ++ [.returned now]) ↔
      KeepsLimit limit window log ∧ (within window now (accepted log)).length < limit := by
  have hMore : accepted (log ++ [.returned now]) = accepted log ++ [now] := accepted_append _ _
  constructor
  · intro h
    have hLimited := h.limited
    rw [hMore, Lib.Window.limited_concat hLast] at hLimited
    refine ⟨⟨hLimited.1, fun before time after hLog => ?_⟩, hLimited.2⟩
    exact h.justified before time (after ++ [.returned now]) (by rw [hLog]; simp)
  · rintro ⟨h, hRoom⟩
    refine ⟨hMore.symm ▸ (Lib.Window.limited_concat hLast).mpr ⟨h.limited, hRoom⟩,
      fun before time after hLog => ?_⟩
    rcases eq_nil_or_concat' after with rfl | ⟨rest, last, rfl⟩
    · cases (List.cons.inj (append_inj' hLog rfl).2).1
    · rw [← cons_append, ← append_assoc] at hLog
      exact h.justified before time rest (append_inj' hLog rfl).1

section

variable {B : Backend} {apart : Prop} {Tracks : B.Store → List ℤ → ℤ → Prop} {setting : Setting}
  {key : Text} {limiter after : Limiter B} {t : Turn}

/-- The key's store is that of the calls that returned. -/
structure Inv (Tracks : B.Store → List ℤ → ℤ → Prop) (key : Text) (limiter : Limiter B) :
    Prop where
  tracks : Tracks (limiter.entries key).store (accepted (limiter.entries key).log) limiter.clock
  past : ∀ time ∈ accepted (limiter.entries key).log, time ≤ limiter.clock

/-- **What a turn does to a key.** -/
theorem turn_cases (key : Text) (hTurn : turn setting limiter t = some after) :
    limiter.clock ≤ t.now ∧ after.clock = t.now ∧
      ((t.key ≠ key ∧ after.entries key = limiter.entries key) ∨
        (t.key = key ∧ after.entries key = consume (setting.limit key) (setting.window key)
          t.call t.now (limiter.entries key))) := by
  unfold turn at hTurn
  split_ifs at hTurn with hClock
  cases hTurn
  refine ⟨hClock, rfl, ?_⟩
  by_cases hKey : t.key = key
  · subst hKey
    exact .inr ⟨rfl, update_self ..⟩
  · exact .inl ⟨hKey, update_of_ne (Ne.symm hKey) ..⟩

theorem consume_starting (limit window : ℕ) (now : ℤ) {entry : Entry B} {call : ℕ}
    (hPhase : entry.phase call = .starting) :
    (consume limit window call now entry).store = (B.count window now entry.store).2 ∧
      (consume limit window call now entry).log =
        if limit ≤ (B.count window now entry.store).1 then entry.log ++ [.raised now]
        else entry.log := by
  simp only [consume, hPhase]
  split_ifs
  · exact ⟨rfl, rfl⟩
  · exact ⟨rfl, rfl⟩

/-- **One step** of a call on its own key. -/
theorem step_here (limit call : ℕ) (hCounts : Counts B window apart Tracks) {entry : Entry B}
    (hTracks : Tracks entry.store (accepted entry.log) now)
    (hPast : ∀ time ∈ accepted entry.log, time ≤ now)
    (hNew : apart → entry.phase call = .checked → now ∉ accepted entry.log) :
    (Tracks (consume limit window call now entry).store
        (accepted (consume limit window call now entry).log) now ∧
      ∀ time ∈ accepted (consume limit window call now entry).log, time ≤ now) ∧
      (KeepsLimit limit window (consume limit window call now entry).log ↔
        KeepsLimit limit window entry.log ∧
          (entry.phase call = .checked → (B.count window now entry.store).1 < limit)) := by
  cases hPhase : entry.phase call with
  | starting =>
    obtain ⟨hStore, hLog⟩ := consume_starting limit window now hPhase
    -- a refusal is no accepted call
    have hRefused : accepted (entry.log ++ [.raised now]) = accepted entry.log := by
      rw [accepted_append]
      exact append_nil _
    have hAccepted : accepted (consume limit window call now entry).log = accepted entry.log := by
      rw [hLog]
      split_ifs
      · exact hRefused
      · rfl
    rw [hAccepted, hStore]
    refine ⟨⟨hCounts.count hTracks, hPast⟩, ?_⟩
    have hNever : Phase.starting = .checked → (B.count window now entry.store).1 < limit :=
      nofun
    rw [hLog, and_iff_left hNever]
    split_ifs with hFull
    · exact keepsLimit_raised (hFull.trans (hCounts.le hTracks))
    · rfl
  | checked =>
    have hNow := fun hApart => hNew hApart hPhase
    have hConsume : consume limit window call now entry =
        ⟨B.add window now entry.store, update entry.phase call .finished,
          entry.log ++ [.returned now]⟩ := by
      simp only [consume, hPhase]
    have hMore : accepted (entry.log ++ [.returned now]) = accepted entry.log ++ [now] :=
      accepted_append _ _
    rw [hConsume]
    refine ⟨⟨hMore ▸ hCounts.add hTracks hNow, ?_⟩, ?_⟩
    · intro time hTime
      rw [hMore, mem_append, mem_singleton] at hTime
      exact hTime.elim (hPast time) le_of_eq
    · rw [keepsLimit_returned hPast, hCounts.eq hTracks hNow, forall_prop_of_true rfl]
  | finished =>
    have hConsume : consume limit window call now entry = entry := by
      simp only [consume, hPhase]
    have hNever : Phase.finished = .checked → (B.count window now entry.store).1 < limit :=
      nofun
    rw [hConsume, and_iff_left hNever]
    exact ⟨⟨hTracks, hPast⟩, Iff.rfl⟩

/-- **Step lemma.** -/
theorem step (hCounts : Counts B (setting.window key) apart Tracks) (hInv : Inv Tracks key limiter)
    (hNew : apart → NewTime key limiter t) (hTurn : turn setting limiter t = some after) :
    Inv Tracks key after ∧
      (KeepsLimit (setting.limit key) (setting.window key) (after.entries key).log ↔
        KeepsLimit (setting.limit key) (setting.window key) (limiter.entries key).log ∧
          Passes setting key limiter t) := by
  obtain ⟨hClock, hAfter, ⟨hKey, hEntry⟩ | ⟨hKey, hEntry⟩⟩ := turn_cases key hTurn
  · have hPasses : Passes setting key limiter t := fun hSame => absurd hSame hKey
    rw [hEntry, and_iff_left hPasses]
    refine ⟨⟨?_, fun time hTime => ?_⟩, Iff.rfl⟩
    · rw [hEntry, hAfter]
      exact hCounts.later hInv.tracks hClock
    · rw [hEntry] at hTime
      exact hAfter ▸ (hInv.past time hTime).trans hClock
  · obtain ⟨⟨hTracks, hPast⟩, hKeeps⟩ := step_here (setting.limit key) t.call hCounts
      (hCounts.later hInv.tracks hClock)
      (fun time hTime => (hInv.past time hTime).trans hClock) fun hApart => hNew hApart hKey
    rw [hEntry, hKeeps]
    refine ⟨⟨?_, ?_⟩, and_congr_right fun _ => ⟨fun h _ => h, fun h => h hKey⟩⟩
    · rw [hEntry, hAfter]
      exact hTracks
    · rw [hEntry, hAfter]
      exact hPast

end

/-! ## Runs -/

variable {B : Backend}

theorem inv_start {apart : Prop} {Tracks : B.Store → List ℤ → ℤ → Prop}
    (hCounts : Counts B window apart Tracks) (key : Text) (clock : ℤ) :
    Inv Tracks key (start B clock) :=
  ⟨hCounts.empty clock, fun _ hTime => absurd hTime not_mem_nil⟩

theorem keepsLimit_start (setting : Setting) (key : Text) (clock : ℤ) :
    KeepsLimit (setting.limit key) (setting.window key) ((start B clock).entries key).log := by
  refine ⟨Lib.Window.limited_nil, fun before now after hLog => ?_⟩
  exact absurd hLog.symm (append_ne_nil_of_right_ne_nil _ (cons_ne_nil _ _))

theorem guard_of_times {kind : Kind} {setting : Setting} {key : Text}
    {turns : List Turn} {limiter : Limiter B}
    (hTimes : kind = .redis → Along (turn setting) (NewTime key) limiter turns) :
    Along (turn setting) (fun limiter t => kind = .redis → NewTime key limiter t) limiter
      turns := by
  by_cases hKind : kind = .redis
  · exact (hTimes hKind).mono fun _ _ hNew _ => hNew
  · exact Lib.along_of_forall (fun _ _ _ hRedis => absurd hRedis hKind) _

/-- **The limit is kept** exactly if every call that adds would still pass its check. With Redis,
no two calls add at the same time. -/
theorem keepsLimit_iff {kind : Kind} {ticks : Ticks} {setting : Setting} {clock : ℤ} {key : Text}
    {turns : List Turn} {limiter : Limiter (kind.backend ticks)}
    (hRun : exec (turn setting) (start _ clock) turns = some limiter)
    (hTimes : kind = .redis → Along (turn setting) (NewTime key) (start (kind.backend ticks) clock)
      turns) :
    KeepsLimit (setting.limit key) (setting.window key) (limiter.entries key).log ↔
      Along (turn setting) (Passes setting key) (start (kind.backend ticks) clock) turns := by
  obtain ⟨Tracks, hCounts⟩ := kind.counts ticks (setting.window key)
  rw [Lib.along_iff_of_step (fun _ _ _ hInv hNew hTurn => step hCounts hInv hNew hTurn)
    (inv_start hCounts key clock) (guard_of_times hTimes) hRun,
    and_iff_right (keepsLimit_start setting key clock)]

/-! ## Calls one after the other -/

/-- No call on the key begins between another one's count and its add. -/
def OneAtATime (key : Text) (limiter : Limiter B) (t : Turn) : Prop :=
  t.key = key → (limiter.entries key).phase t.call = .starting →
    ∀ call, (limiter.entries key).phase call ≠ .checked

/-- Only one call has passed its check and not added yet, and it would still pass it. -/
structure Room (setting : Setting) (key : Text) (limiter : Limiter B) : Prop where
  alone : ∀ call other, (limiter.entries key).phase call = .checked →
    (limiter.entries key).phase other = .checked → call = other
  passes : ∀ call, (limiter.entries key).phase call = .checked → ∀ now, limiter.clock ≤ now →
    (B.count (setting.window key) now (limiter.entries key).store).1 < setting.limit key

theorem live_later {set : SortedSet} (h : now ≤ later) :
    (set.live later).Sublist (set.live now) := by
  by_cases hNow : set.expires.any (· ≤ now) = true
  · have hLater : set.expires.any (· ≤ later) = true := by
      cases hExpires : set.expires with
      | none => simp [hExpires] at hNow
      | some expires =>
        simp only [hExpires, Option.any_some, decide_eq_true_eq] at hNow ⊢
        exact hNow.trans h
    rw [SortedSet.live, if_pos hLater]
    exact nil_sublist _
  · rw [SortedSet.live, SortedSet.live, if_neg hNow]
    split_ifs
    · exact nil_sublist _
    · exact List.Sublist.refl _

/-- As long as nothing is added, a later count finds no more. -/
theorem count_later (kind : Kind) (ticks : Ticks) (window : ℕ) {store : (kind.backend ticks).Store}
    (h : now ≤ later) :
    ((kind.backend ticks).count window later ((kind.backend ticks).count window now store).2).1 ≤
      ((kind.backend ticks).count window now store).1 := by
  cases kind with
  | memory => exact length_filter_le _ _
  | redis =>
    refine (List.Sublist.trans ((live_later h).filter _) ?_).length_le
    refine monotone_filter_right _ fun time hTime => ?_
    rw [decide_eq_true_eq] at hTime ⊢
    omega

/-- **Step lemma.** A call that begins finds nobody between check and add, so nothing is added
before it adds itself. -/
theorem room_step {kind : Kind} {ticks : Ticks} {setting : Setting} {key : Text}
    {limiter after : Limiter (kind.backend ticks)} {t : Turn} (h : Room setting key limiter)
    (hOne : OneAtATime key limiter t) (hTurn : turn setting limiter t = some after) :
    Room setting key after := by
  obtain ⟨hClock, hAfter, ⟨-, hEntry⟩ | ⟨hKey, hEntry⟩⟩ := turn_cases key hTurn
  · refine ⟨by rw [hEntry]; exact h.alone, fun call hCall now hNow => ?_⟩
    rw [hEntry] at hCall ⊢
    exact h.passes call hCall now (hClock.trans (hAfter ▸ hNow))
  -- a call that is checked after the step, and is not this one, was so before
  have hOther : ∀ {phase call}, update (limiter.entries key).phase t.call phase call =
      .checked → phase ≠ .checked → call ≠ t.call ∧ (limiter.entries key).phase call = .checked := by
    intro phase call hCall hPhase
    by_cases hSame : call = t.call
    · rw [hSame, update_self] at hCall
      exact absurd hCall hPhase
    · rw [update_of_ne hSame] at hCall
      exact ⟨hSame, hCall⟩
  cases hPhase : (limiter.entries key).phase t.call with
  | starting =>
    have hNobody := hOne hKey hPhase
    -- a full window refuses the call; else it is the only one between check and add
    by_cases hFull : setting.limit key ≤ ((kind.backend ticks).count (setting.window key) t.now
        (limiter.entries key).store).1
    · have hNone : ∀ call, (after.entries key).phase call ≠ .checked := by
        intro call hCall
        simp only [hEntry, consume, hPhase, if_pos hFull] at hCall
        exact hNobody call (hOther hCall (by simp)).2
      exact ⟨fun call _ hCall => absurd hCall (hNone call),
        fun call hCall => absurd hCall (hNone call)⟩
    · have hOnly : ∀ call, (after.entries key).phase call = .checked → call = t.call := by
        intro call hCall
        simp only [hEntry, consume, hPhase, if_neg hFull] at hCall
        by_contra hNe
        rw [update_of_ne hNe] at hCall
        exact hNobody call hCall
      refine ⟨fun call other hCall hOther => (hOnly call hCall).trans (hOnly other hOther).symm,
        fun call hCall now hNow => ?_⟩
      simp only [hEntry, consume, hPhase, if_neg hFull]
      exact (count_later kind ticks _ (hAfter ▸ hNow)).trans_lt (not_le.mp hFull)
  | checked =>
    have hNone : ∀ call, (after.entries key).phase call ≠ .checked := by
      intro call hCall
      simp only [hEntry, consume, hPhase] at hCall
      obtain ⟨hNe, hOld⟩ := hOther hCall (by simp)
      exact hNe (h.alone call t.call hOld hPhase)
    exact ⟨fun call _ hCall => absurd hCall (hNone call),
      fun call hCall => absurd hCall (hNone call)⟩
  | finished =>
    have hSame : after.entries key = limiter.entries key := by
      rw [hEntry]
      simp only [consume, hPhase]
    refine ⟨by rw [hSame]; exact h.alone, fun call hCall now hNow => ?_⟩
    rw [hSame] at hCall ⊢
    exact h.passes call hCall now (hClock.trans (hAfter ▸ hNow))

theorem along_clock {setting : Setting} {turns : List Turn} {limiter after : Limiter B}
    (hRun : exec (turn setting) limiter turns = some after) :
    Along (turn setting) (fun limiter t => limiter.clock ≤ t.now) limiter turns := by
  induction turns generalizing limiter with
  | nil => trivial
  | cons t turns ih =>
    obtain ⟨next, hTurn, hRest⟩ := Lib.exec_cons_iff.mp hRun
    refine ⟨(turn_cases [] hTurn).1, fun s hs => ?_⟩
    obtain rfl := Option.mem_unique hTurn hs
    exact ih hRest

/-- **Calls that do not overlap pass.** -/
theorem passes_of_oneAtATime {kind : Kind} {ticks : Ticks} {setting : Setting} {clock : ℤ}
    {key : Text} {turns : List Turn} {limiter : Limiter (kind.backend ticks)}
    (hRun : exec (turn setting) (start _ clock) turns = some limiter)
    (hOne : Along (turn setting) (OneAtATime key) (start (kind.backend ticks) clock) turns) :
    Along (turn setting) (Passes setting key) (start (kind.backend ticks) clock) turns := by
  have hStart : Room setting key (start (kind.backend ticks) clock) := by
    constructor <;> simp [start]
  refine Lib.along_of_guard (fun s t s' hRoom hG hTurn => room_step hRoom hG.1 hTurn) ?_ hStart
    (hOne.and (along_clock hRun))
  rintro s t hRoom ⟨-, hClock⟩ hKey hChecked
  exact hRoom.passes t.call hChecked t.now hClock

/-- Every key has the same limit, in a window of 60 ticks. -/
def within60 (limit : ℕ) : Setting := ⟨fun _ => limit, fun _ => 60⟩

def atTime (now : ℤ) (call : ℕ) : Turn := ⟨[], call, now⟩

theorem keepsLimit_iff_two_calls : ∃ limiter, exec (turn (within60 1))
    (start (Kind.redis.backend ⟨1, Nat.one_pos⟩) 0) [atTime 5 0, atTime 5 0, atTime 8 1] =
      some limiter ∧
    (KeepsLimit ((within60 1).limit []) ((within60 1).window []) (limiter.entries []).log ↔
      Along (turn (within60 1)) (Passes (within60 1) [])
        (start (Kind.redis.backend ⟨1, Nat.one_pos⟩) 0) [atTime 5 0, atTime 5 0, atTime 8 1]) := by
  have hTimes : Along (turn (within60 1)) (NewTime [])
      (start (Kind.redis.backend ⟨1, Nat.one_pos⟩) 0) [atTime 5 0, atTime 5 0, atTime 8 1] := by
    decide
  exact ⟨_, rfl, keepsLimit_iff rfl fun _ => hTimes⟩

/-- Two calls are both checked before the first one adds its event. -/
theorem not_always_keepsLimit : ¬ ∀ (kind : Kind) (ticks : Ticks) (setting : Setting) (clock : ℤ)
    (key : Text) (turns : List Turn) (limiter : Limiter (kind.backend ticks)),
    exec (turn setting) (start _ clock) turns = some limiter →
      KeepsLimit (setting.limit key) (setting.window key) (limiter.entries key).log := by
  intro hAll
  have hLimited := (hAll .memory ⟨1, Nat.one_pos⟩ (within60 1) 0 []
    [atTime 0 0, atTime 0 1, atTime 0 0, atTime 0 1] _ rfl).limited 0
  revert hLimited
  decide

/-- With Redis, three calls at the same time are one event, although they do not overlap. -/
example : (exec (turn (within60 2)) (start (redis ⟨1, Nat.one_pos⟩) 0) [atTime 5 0, atTime 5 0,
    atTime 5 1, atTime 5 1, atTime 5 2, atTime 5 2]).map (fun limiter => (limiter.entries []).log) =
      some [.returned 5, .returned 5, .returned 5] := by decide

end AdminPanel.RateLimit
