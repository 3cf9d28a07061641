import AdminPanel.RateLimit.SlidingWindow

/-!
# The rate-limit backends compared

The same sequence of `count`, `add` and `clear` calls on the memory and on the Redis backend.

* `answers` — what the counts of a sequence answer;
* `added` — the events of a key since it was last cleared;
* `CountsAlike` — no two events within the window have the same time, and none lies on both ends
  of the window at once;
* `RedisHolds` — which events the sorted set still has.

Main result: `interchangeable_iff`.
-/

namespace AdminPanel.RateLimit

open List Function

open Lib.Window (within)

/-! ## Calls -/

inductive Op
  | count
  | add
  | clear
  deriving DecidableEq, Repr

/-- A call on a key; the time is in ticks since the epoch. -/
structure BackendCall where
  key : Text
  now : ℕ
  op : Op
  deriving DecidableEq

/-- A key without events is a key that is not there. -/
def Backend.clear (B : Backend) (_store : B.Store) : B.Store := B.empty

/-- What a call answers, if it counts, and what it leaves of its key. -/
def Op.perform {B : Backend} (window : ℕ) (now : ℕ) (store : B.Store) : Op → Option ℕ × B.Store
  | .count =>
    let (found, store) := B.count window now store
    (some found, store)
  | .add => (none, B.add window now store)
  | .clear => (none, B.clear store)

def answers (B : Backend) (window : Text → ℕ) (stores : Text → B.Store) :
    List BackendCall → List (Option ℕ)
  | [] => []
  | call :: calls =>
    let (answer, store) := call.op.perform (window call.key) call.now (stores call.key)
    answer :: answers B window (update stores call.key store) calls

/-- Both backends, each from its start, answer the same. -/
def Interchangeable (ticks : Ticks) (window : Text → ℕ) (calls : List BackendCall) : Prop :=
  answers memory window (fun _ => memory.empty) calls =
    answers (redis ticks) window (fun _ => (redis ticks).empty) calls

/-- The events of a key after one more call. -/
def Op.note (now : ℕ) (times : List ℤ) : Op → List ℤ
  | .count => times
  | .add => times ++ [(now : ℤ)]
  | .clear => []

/-- The events of a key since it was last cleared. -/
def added (key : Text) (calls : List BackendCall) : List ℤ :=
  calls.foldl (fun times call => if call.key = key then call.op.note call.now times else times) []

/-- What the count of these events at a time needs. -/
structure CountsAlike (window : ℕ) (now : ℤ) (times : List ℤ) : Prop where
  apart : (within window now times).Nodup
  /-- an event at the very end drops the one at the start -/
  ends : ¬ (now ∈ times ∧ now - window ∈ times)

instance (window : ℕ) (now : ℤ) (times : List ℤ) : Decidable (CountsAlike window now times) :=
  decidable_of_iff ((within window now times).Nodup ∧ ¬ (now ∈ times ∧ now - window ∈ times))
    ⟨fun h => ⟨h.1, h.2⟩, fun h => ⟨h.apart, h.ends⟩⟩

/-! ## What the sorted set has -/

variable {window : ℕ} {now later clock : ℤ} {times : List ℤ} {set : SortedSet} {ticks : Ticks}

/-- Of the events, those that a count from now on finds. -/
structure RedisHolds (window : ℕ) (set : SortedSet) (times : List ℤ) (clock : ℤ) : Prop where
  nodup : set.members.Nodup
  past : ∀ time ∈ times, 0 ≤ time ∧ time ≤ clock
  found : ∀ now, clock ≤ now → ∀ time, now - window ≤ time →
    (time ∈ set.live now ↔ time ∈ times ∧ ¬ (now ∈ times ∧ time = now - window))

theorem redisHolds_empty (clock : ℤ) : RedisHolds window ⟨[], none⟩ [] clock where
  nodup := nodup_nil
  past _ hTime := absurd hTime not_mem_nil
  found _ _ _ _ := iff_of_false not_mem_nil fun h => not_mem_nil h.1

theorem RedisHolds.onwards (h : RedisHolds window set times clock) (hLe : clock ≤ now) :
    RedisHolds window set times now where
  nodup := h.nodup
  past time hTime := ⟨(h.past time hTime).1, (h.past time hTime).2.trans hLe⟩
  found later hLater := h.found later (hLe.trans hLater)

theorem mem_live_add {time : ℤ} : time ∈ ((redis ticks).add window now set).live later ↔
    later < now + (window / ticks.perSecond + 1 : ℕ) * ticks.perSecond ∧
      (time ∈ set.live now ∨ time = now) ∧ ¬ (0 ≤ time ∧ time ≤ now - window) := by
  show time ∈ (if decide _ = true then [] else zremrangebyscore 0 _ _) ↔ _
  split_ifs with hExpired
  · have hLe := of_decide_eq_true hExpired
    exact iff_of_false not_mem_nil fun h => absurd h.1 (not_lt.mpr hLe)
  · have hAlive := not_le.mp fun hLe => hExpired (decide_eq_true hLe)
    refine Iff.trans ?_ (and_iff_right hAlive).symm
    rw [zremrangebyscore, mem_filter, decide_eq_true_eq, mem_zadd]

/-- The set lives longer than a window. -/
theorem window_lt_expiry (ticks : Ticks) (window : ℕ) :
    (window : ℤ) < ((window / ticks.perSecond + 1 : ℕ) * ticks.perSecond : ℤ) := by
  have hNat := Nat.lt_mul_of_div_lt (Nat.lt_succ_self (window / ticks.perSecond)) ticks.pos
  exact_mod_cast hNat

theorem RedisHolds.add (h : RedisHolds window set times now) (hNow : 0 ≤ now) :
    RedisHolds window ((redis ticks).add window now set) (times ++ [now]) now where
  nodup := (nodup_zadd ((live_sublist set now).nodup h.nodup)).filter _
  past := by
    intro time hTime
    rcases mem_append.mp hTime with hTime | hTime
    · exact h.past time hTime
    · rw [mem_singleton.mp hTime]
      exact ⟨hNow, le_rfl⟩
  found := by
    intro later hLater time hTime
    have hLong := window_lt_expiry ticks window
    have hHere := h.found now le_rfl time
    have hPast := h.past time
    rw [mem_live_add, mem_append, mem_append, mem_singleton, mem_singleton]
    rcases hLater.eq_or_lt with rfl | hLess
    · have hAlive : now < now + ((window / ticks.perSecond + 1 : ℕ) * ticks.perSecond : ℤ) := by
        omega
      rw [and_iff_right hAlive, hHere hTime]
      grind
    · -- Nothing has been added since, and what a count finds now lies behind the start.
      have hNew : ¬ (later ∈ times ∨ later = now) := by
        rintro (hMem | rfl)
        · exact absurd (h.past later hMem).2 (not_le.mpr hLess)
        · exact absurd hLess (lt_irrefl _)
      have hStart : ¬ (0 ≤ time ∧ time ≤ now - window) := fun hBoth => by omega
      have hAlive : (time ∈ times ∨ time = now) →
          later < now + ((window / ticks.perSecond + 1 : ℕ) * ticks.perSecond : ℤ) := by
        rintro (hMem | rfl)
        · have hBefore := (hPast hMem).2
          omega
        · omega
      rw [hHere (by omega), and_iff_left (show ¬ (now ∈ times ∧ time = now - window) by omega),
        and_iff_left hStart, and_iff_left (fun hBoth => hNew hBoth.1)]
      exact ⟨fun hMem => hMem.2, fun hMem => ⟨hAlive hMem, hMem⟩⟩

variable {events : List ℤ}

/-- **The sorted set counts what the list counts exactly if no event is lost.** -/
theorem RedisHolds.count_iff (ticks : Ticks) (h : RedisHolds window set times now)
    (hEvents : MemoryTracks window events times now) :
    (memory.count window now events).1 = ((redis ticks).count window now set).1 ↔
      CountsAlike window now times := by
  have hMemory : (memory.count window now events).1 = (within window now times).length :=
    congrArg List.length (hEvents now le_rfl)
  set found := (set.live now).filter fun time => now - window ≤ time with hFound
  have hNodup : found.Nodup := ((live_sublist set now).nodup h.nodup).filter _
  have hMem : ∀ time, time ∈ found ↔
      time ∈ within window now times ∧ ¬ (now ∈ times ∧ time = now - window) := by
    intro time
    rw [hFound, mem_filter, decide_eq_true_eq, Lib.Window.mem_within]
    constructor
    · rintro ⟨hLive, hTime⟩
      obtain ⟨hTimes, hEnds⟩ := (h.found now le_rfl time hTime).mp hLive
      exact ⟨⟨hTimes, by omega⟩, hEnds⟩
    · rintro ⟨⟨hTimes, hTime⟩, hEnds⟩
      have hStart : now - window ≤ time := by omega
      exact ⟨(h.found now le_rfl time hStart).mpr ⟨hTimes, hEnds⟩, hStart⟩
  have hSub : found.Subperm (within window now times) :=
    subperm_of_subset hNodup fun time hTime => ((hMem time).mp hTime).1
  rw [hMemory]
  show _ = found.length ↔ _
  constructor
  · intro hSame
    have hPerm := hSub.perm_of_length_le hSame.le
    refine ⟨hPerm.nodup hNodup, fun ⟨hNow, hStart⟩ => ?_⟩
    have hWithin : now - window ∈ within window now times :=
      Lib.Window.mem_within.mpr ⟨hStart, by omega⟩
    exact ((hMem _).mp (hPerm.mem_iff.mpr hWithin)).2 ⟨hNow, rfl⟩
  · intro hAlike
    refine List.Perm.length_eq ((perm_ext_iff_of_nodup hAlike.apart hNodup).mpr fun time => ?_)
    rw [hMem, and_iff_left_of_imp]
    rintro hTime ⟨hNow, rfl⟩
    exact hAlike.ends ⟨hNow, (Lib.Window.mem_within.mp hTime).1⟩

/-! ## Sequences of calls -/

/-- Both backends hold the events of every key. -/
structure BothHold (ticks : Ticks) (window : Text → ℕ) (events : Text → memory.Store)
    (sets : Text → (redis ticks).Store) (past : List BackendCall) (clock : ℤ) : Prop where
  inMemory : ∀ key, MemoryTracks (window key) (events key) (added key past) clock
  inRedis : ∀ key, RedisHolds (window key) (sets key) (added key past) clock

theorem added_concat (key : Text) (past : List BackendCall) (call : BackendCall) :
    added key (past ++ [call]) =
      if call.key = key then call.op.note call.now (added key past) else added key past :=
  foldl_append

theorem memory_perform (op : Op) {now : ℕ} (h : MemoryTracks window events times now) :
    MemoryTracks window (op.perform (B := memory) window now events).2 (op.note now times) now := by
  cases op with
  | count => exact (memory_counts window).count h
  | add => exact h.add
  | clear => exact (memory_counts window).empty now

theorem redis_perform (op : Op) {now : ℕ} (h : RedisHolds window set times now) :
    RedisHolds window (op.perform (B := redis ticks) window now set).2 (op.note now times) now := by
  cases op with
  | count => exact h
  | add => exact h.add (Int.natCast_nonneg now)
  | clear => exact redisHolds_empty now

theorem perform_iff (ticks : Ticks) (op : Op) {now : ℕ}
    (hMemory : MemoryTracks window events times now) (hRedis : RedisHolds window set times now) :
    (op.perform (B := memory) window now events).1 =
        (op.perform (B := redis ticks) window now set).1 ↔
      (op = .count → CountsAlike window now times) := by
  cases op with
  | count =>
    refine (Option.some_inj.trans (hRedis.count_iff ticks hMemory)).trans ?_
    exact ⟨fun h _ => h, fun h => h rfl⟩
  | add | clear => exact iff_of_true rfl nofun

section

variable {window : Text → ℕ} {events : Text → memory.Store} {sets : Text → (redis ticks).Store}
  {past calls : List BackendCall} {call : BackendCall}

/-- **One call** on both backends. -/
theorem BothHold.step (h : BothHold ticks window events sets past clock) (hLe : clock ≤ call.now) :
    BothHold ticks window
      (update events call.key
        (call.op.perform (window call.key) call.now (events call.key)).2)
      (update sets call.key
        (call.op.perform (window call.key) call.now (sets call.key)).2)
      (past ++ [call]) call.now where
  inMemory := by
    intro key
    have hKey : MemoryTracks (window key) (events key) (added key past) call.now :=
      (memory_counts (window key)).later (h.inMemory key) hLe
    rw [added_concat]
    by_cases hSame : call.key = key
    · subst hSame
      rw [if_pos rfl, update_self]
      exact memory_perform call.op hKey
    · rw [if_neg hSame, update_of_ne (Ne.symm hSame)]
      exact hKey
  inRedis := by
    intro key
    have hKey := (h.inRedis key).onwards hLe
    rw [added_concat]
    by_cases hSame : call.key = key
    · subst hSame
      rw [if_pos rfl, update_self]
      exact redis_perform call.op hKey
    · rw [if_neg hSame, update_of_ne (Ne.symm hSame)]
      exact hKey

/-- What holds at every place of a list holds at its head and at every place behind. -/
theorem forall_split_cons {α : Type} {a : α} {l : List α} {P : List α → α → Prop} :
    (∀ before b after, a :: l = before ++ b :: after → P before b) ↔
      P [] a ∧ ∀ before b after, l = before ++ b :: after → P (a :: before) b := by
  constructor
  · intro h
    refine ⟨h [] a l rfl, fun before b after hList => h (a :: before) b after ?_⟩
    rw [hList, cons_append]
  rintro ⟨hHead, hTail⟩ before b after hList
  cases before with
  | nil =>
    obtain ⟨rfl, -⟩ := List.cons.inj hList
    exact hHead
  | cons c before =>
    obtain ⟨rfl, hRest⟩ := List.cons.inj hList
    exact hTail before b after hRest

theorem BothHold.answers_iff (h : BothHold ticks window events sets past clock)
    (hClock : ∀ call ∈ calls, clock ≤ call.now) (hTimes : calls.Pairwise (·.now ≤ ·.now)) :
    answers memory window events calls = answers (redis ticks) window sets calls ↔
      ∀ before call after, calls = before ++ call :: after → call.op = .count →
        CountsAlike (window call.key) call.now (added call.key (past ++ before)) := by
  induction calls generalizing events sets past clock with
  | nil =>
    refine iff_of_true rfl fun before call after hNil => ?_
    exact absurd hNil.symm (append_ne_nil_of_right_ne_nil _ (cons_ne_nil _ _))
  | cons call calls ih =>
    obtain ⟨hLater, hTimes⟩ := pairwise_cons.mp hTimes
    have hNow := hClock call mem_cons_self
    have hRest := ih (h.step hNow) (fun later hMem => by exact_mod_cast hLater later hMem) hTimes
    have hMemory : MemoryTracks (window call.key) (events call.key) (added call.key past)
        call.now := (memory_counts (window call.key)).later (h.inMemory call.key) hNow
    have hAnswer := perform_iff ticks call.op hMemory ((h.inRedis call.key).onwards hNow)
    rw [forall_split_cons, append_nil]
    simp only [answers, List.cons.injEq]
    rw [hAnswer, hRest]
    simp only [append_assoc, singleton_append]

end

/-- **Both backends answer all counts of a sequence alike exactly if, at each count, no two events
within the window have the same time and none lies on both of its ends at once.** -/
theorem interchangeable_iff (ticks : Ticks) (window : Text → ℕ) (calls : List BackendCall)
    (hTimes : calls.Pairwise (·.now ≤ ·.now)) :
    Interchangeable ticks window calls ↔
      ∀ before call after, calls = before ++ call :: after → call.op = .count →
        CountsAlike (window call.key) call.now (added call.key before) := by
  have hStart : BothHold ticks window (fun _ => memory.empty) (fun _ => (redis ticks).empty) [] 0 :=
    ⟨fun _ => (memory_counts _).empty 0, fun _ => redisHolds_empty 0⟩
  exact hStart.answers_iff (fun call _ => Int.natCast_nonneg call.now) hTimes

def aMinute : Text → ℕ := fun _ => 60

/-- Two events, a second apart, and their count. -/
theorem interchangeable_iff_apart :
    Interchangeable ⟨1, Nat.one_pos⟩ aMinute
      [⟨['k'], 1000, .add⟩, ⟨['k'], 1001, .add⟩, ⟨['k'], 1001, .count⟩] ↔
    ∀ before call after, [⟨['k'], 1000, .add⟩, ⟨['k'], 1001, .add⟩, ⟨['k'], 1001, .count⟩] =
      before ++ call :: after → call.op = .count →
        CountsAlike (aMinute call.key) call.now (added call.key before) :=
  interchangeable_iff ⟨1, Nat.one_pos⟩ aMinute
    [⟨['k'], 1000, .add⟩, ⟨['k'], 1001, .add⟩, ⟨['k'], 1001, .count⟩] (by decide)

/-- Redis counts two events at the same time once. -/
theorem not_always_interchangeable : ¬ ∀ (ticks : Ticks) (window : Text → ℕ)
    (calls : List BackendCall), (∀ key, ticks.perSecond ≤ window key) →
      calls.Pairwise (·.now ≤ ·.now) → Interchangeable ticks window calls := by
  intro h
  have hSame := h ⟨1, Nat.one_pos⟩ aMinute
    [⟨['k'], 1000, .add⟩, ⟨['k'], 1000, .add⟩, ⟨['k'], 1000, .count⟩]
    (fun _ => (by decide : 1 ≤ 60)) (by decide)
  have hDiffer : ¬ ([none, none, some 2] : List (Option ℕ)) = [none, none, some 1] := by decide
  exact hDiffer hSame

end AdminPanel.RateLimit
