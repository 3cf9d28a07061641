import AdminPanel.Lib.Ipv6
import AdminPanel.Lib.PyText
import Mathlib.Data.List.Induction
import Mathlib.Logic.Function.Basic

/-!
# Scanner bans and their lifting

`IpRestrictionService` bans an address that scans, or that stays on the page for blocked addresses.
The store keeps its record under the normalized address; `unban_ip` takes the text as it comes.
Times are in ticks of the clock, lengths in seconds.

* `handle` — one call, and the addresses that its answer reports banned;
* `Effect` — what a call does to the record of one address;
* `Since` — the record against the calls since the ban was lifted;
* `Lifted` — what lifting a ban promises.

Main result: `lifted_of_normal`.
-/

namespace AdminPanel.Firewall.Scanner

open Function List

open Lib.PyText (strip)

abbrev Text := List Char

structure ScannerSettings where
  ipRestrictionEnabled : Bool
  blockScanners : Bool
  scannerMaxAttempts : ℤ
  scannerBanSeconds : ℤ
  scannerWindowSeconds : ℤ
  blockIpBlockedDwell : Bool
  ipBlockedDwellSeconds : ℤ

/-- `value or default` -/
def orDefault (value default : ℤ) : ℤ := if value = 0 then default else value

namespace ScannerSettings

variable (settings : ScannerSettings)

def maxAttempts : ℤ := orDefault settings.scannerMaxAttempts 5

def banSeconds : ℤ := orDefault settings.scannerBanSeconds 3600

def window : ℕ := (max 10 (min 3600 (orDefault settings.scannerWindowSeconds 60))).toNat

def dwell : ℕ := (max 30 (min 3600 (orDefault settings.ipBlockedDwellSeconds 120))).toNat

end ScannerSettings

/-- Attributes of the store, and how Python prints IPv4-mapped addresses. -/
structure Env where
  strikesForYear : ℕ
  yearBanSeconds : ℕ
  unbanGraceSeconds : ℕ
  dotsMapped : Bool
  ticksPerSecond : ℕ
  pos : 0 < ticksPerSecond

section

variable (env : Env) (record : Record)

/-- A length in seconds, as the clock counts it. -/
def Env.ticks (seconds : ℕ) : ℕ := seconds * env.ticksPerSecond

structure Record where
  strikes : ℕ := 0
  banUntil : ℕ := 0
  longTerm : Bool := false
  recentAttempts : List ℕ := []
  ipBlockedSince : Option ℕ := none
  unbanGraceUntil : ℕ := 0
  deriving DecidableEq

/-- The records by address; one that is not stored reads as a fresh one. -/
abbrev Store := Text → Record

def normalizeIp (ip : Text) : Option Text :=
  if strip ip = [] then none
  else (Lib.Ip.parseAddress (strip ip)).map (·.text env.dotsMapped)

/-! ## The record of an address -/

def isInUnbanGrace (now : ℕ) : Bool := now < record.unbanGraceUntil

/-- A ban that is over is taken out. -/
def lapse (now : ℕ) : Record :=
  if record.banUntil ≤ now ∧ 0 < record.banUntil then { record with banUntil := 0 } else record

def isBanned (now : ℕ) : Record × Bool :=
  (lapse record now, now < record.banUntil)

def recordAttempt (window now : ℕ) : Record × ℕ :=
  let attempts := record.recentAttempts.filter (now ≤ · + window) ++ [now]
  ({ record with recentAttempts := attempts }, attempts.length)

def touchIpBlocked (now : ℕ) : Record × ℕ :=
  let since := record.ipBlockedSince.getD now
  ({ record with ipBlockedSince := some since }, since)

def registerBan (shortBanSeconds : ℤ) (now : ℕ) : Record × Bool :=
  if isInUnbanGrace record now then (record, false)
  else
    let strikes := record.strikes + 1
    let longTerm := decide (env.strikesForYear ≤ strikes)
    let banSeconds := if longTerm then env.yearBanSeconds else (max 60 shortBanSeconds).toNat
    ({ record with strikes, longTerm, banUntil := now + env.ticks banSeconds, recentAttempts := [],
                   ipBlockedSince := none }, true)

/-- The answer tells whether the address is banned. -/
def recordDeniedAccess (settings : ScannerSettings) (record : Record) (now : ℕ) : Record × Bool :=
  if !settings.blockScanners || isInUnbanGrace record now then (record, false)
  else
    let (record, banned) := isBanned record now
    if banned then (record, true)
    else
      let (record, count) := recordAttempt record (env.ticks settings.window) now
      if settings.maxAttempts ≤ count then registerBan env record settings.banSeconds now
      else (record, false)

def touchIpBlockedPresence (settings : ScannerSettings) (record : Record) (now : ℕ) :
    Record × Bool :=
  if !settings.ipRestrictionEnabled || !settings.blockIpBlockedDwell then (record, false)
  else
    let (record, banned) := isBanned record now
    if banned then (record, true)
    else
      let (record, firstSeen) := touchIpBlocked record now
      if isInUnbanGrace record now then (record, false)
      else if firstSeen + env.ticks settings.dwell ≤ now then
        ((registerBan env record settings.banSeconds now).1, true)
      else (record, false)

/-! ## Calls -/

inductive Call
  | recordDeniedAccess (settings : ScannerSettings) (clientIp : Text)
  | touchIpBlockedPresence (settings : ScannerSettings) (clientIp : Text)
  | getActiveBans
  | unbanIp (ip : Text)

def graceUntil (now : ℕ) : ℕ := now + env.ticks (max 60 env.unbanGraceSeconds)

def unbanIp (store : Store) (ip : Text) (now : ℕ) : Store :=
  if strip ip = [] then store
  else update store (strip ip) { unbanGraceUntil := graceUntil env now }

/-- A call about a client does nothing for a text that is no address. -/
def forClient (store : Store) (clientIp : Text) (act : Record → Record × Bool) :
    Store × (Text → Bool) :=
  match normalizeIp env clientIp with
  | none => (store, fun _ => false)
  | some ip =>
    (update store ip (act (store ip)).1, fun a => a = ip && (act (store ip)).2)

/-- The store after a call, and the addresses that the answer reports banned. -/
def handle (store : Store) (now : ℕ) : Call → Store × (Text → Bool)
  | .recordDeniedAccess settings clientIp =>
    forClient env store clientIp (recordDeniedAccess env settings · now)
  | .touchIpBlockedPresence settings clientIp =>
    forClient env store clientIp (touchIpBlockedPresence env settings · now)
  | .getActiveBans => (fun ip => lapse (store ip) now, fun ip => now < (store ip).banUntil)
  | .unbanIp ip => (unbanIp env store ip now, fun _ => false)

def run (store : Store) (calls : List (ℕ × Call)) : Store :=
  calls.foldl (fun store call => (handle env store call.1 call.2).1) store

def Call.attempts (ip : Text) : Call → Bool
  | .recordDeniedAccess _ clientIp => normalizeIp env clientIp = some ip
  | _ => false

def Call.touches (ip : Text) : Call → Bool
  | .touchIpBlockedPresence _ clientIp => normalizeIp env clientIp = some ip
  | _ => false

def times (which : Call → Bool) (calls : List (ℕ × Call)) : List ℕ :=
  (calls.filter (which ·.2)).map (·.1)

/-- The call has what it takes for a ban, after these attempts and these begins of a stay. -/
def Earned (ip : Text) (now : ℕ) (attempts : List ℕ) (Seen : ℕ → Prop) : Call → Prop
  | .recordDeniedAccess settings clientIp => normalizeIp env clientIp = some ip ∧
      settings.maxAttempts ≤
        ((attempts.filter (now ≤ · + env.ticks settings.window)).length + 1 : ℕ)
  | .touchIpBlockedPresence settings clientIp => normalizeIp env clientIp = some ip ∧
      ∃ u, Seen u ∧ u + env.ticks settings.dwell ≤ now
  | _ => False

/-- What the lifted ban promises of a later call. -/
structure Promised (env : Env) (ip : Text) (ends : ℕ) (past : List (ℕ × Call)) (store : Store)
    (now : ℕ) (call : Call) : Prop where
  quiet : now < ends → (handle env store now call).2 ip = false ∧
    ¬ now < ((handle env store now call).1 ip).banUntil
  earned : ¬ now < (store ip).banUntil → now < ((handle env store now call).1 ip).banUntil →
    Earned env ip now (times (·.attempts env ip) past) (· ∈ times (·.touches env ip) past) call

/-- Lifting the ban of `ip` under the spelling `s` works, and holds in the calls that follow. -/
def Lifted (store : Store) (t₀ : ℕ) (s ip : Text) (later : List (ℕ × Call)) : Prop :=
  (∀ now, ¬ now < (unbanIp env store s t₀ ip).banUntil) ∧
    ∀ past now call rest, later = past ++ (now, call) :: rest →
      Promised env ip (graceUntil env t₀) past (run env (unbanIp env store s t₀) past) now call

end

/-! ## One call -/

/-- What a call can do to the record of an address. -/
structure Effect (env : Env) (ip : Text) (now : ℕ) (call : Call) (record : Record)
    (after : Record × Bool) : Prop where
  grace : after.1.unbanGraceUntil = record.unbanGraceUntil ∨
    after.1.unbanGraceUntil = graceUntil env now
  ban : after.1.banUntil = record.banUntil ∨ after.1.banUntil = 0 ∨
    record.unbanGraceUntil ≤ now ∧
      Earned env ip now record.recentAttempts (· ∈ record.ipBlockedSince) call
  reported : after.2 = true → now < record.banUntil ∨ record.unbanGraceUntil ≤ now
  attempts : after.1.recentAttempts.Sublist
    (record.recentAttempts ++ if call.attempts env ip then [now] else [])
  since : ∀ u ∈ after.1.ipBlockedSince,
    u ∈ record.ipBlockedSince ∨ call.touches env ip = true ∧ u = now

variable {env : Env} {store : Store} {ip clientIp : Text} {now t₀ : ℕ} {call : Call}
  {record : Record} {settings : ScannerSettings}

theorem effect_refl {reported : Bool} (h : reported = true → now < record.banUntil) :
    Effect env ip now call record (record, reported) :=
  ⟨.inl rfl, .inl rfl, fun hReported => .inl (h hReported), sublist_append_left _ _,
    fun _ => .inl⟩

theorem effect_kept : Effect env ip now call record (record, false) := effect_refl nofun

theorem lapse_eq (record : Record) (now : ℕ) : ∃ banUntil,
    lapse record now = { record with banUntil } ∧ (banUntil = record.banUntil ∨ banUntil = 0) := by
  unfold lapse
  split
  · exact ⟨0, rfl, .inr rfl⟩
  · exact ⟨_, rfl, .inl rfl⟩

theorem effect_lapse {reported : Bool} (h : reported = true → now < record.banUntil) :
    Effect env ip now call record (lapse record now, reported) := by
  obtain ⟨banUntil, hLapse, hBan⟩ := lapse_eq record now
  rw [hLapse]
  exact { effect_refl h with ban := hBan.imp_right .inl }

theorem effect_registerBan {attempted : Record} {shortBanSeconds : ℤ}
    (h : Effect env ip now call record (attempted, false))
    (hGrace : attempted.unbanGraceUntil = record.unbanGraceUntil)
    (hEarned : Earned env ip now record.recentAttempts (· ∈ record.ipBlockedSince) call) :
    Effect env ip now call record (registerBan env attempted shortBanSeconds now) := by
  unfold registerBan
  split
  · exact h
  · next hOver =>
    have hOver : record.unbanGraceUntil ≤ now :=
      hGrace ▸ not_lt.mp fun h => hOver (decide_eq_true h)
    exact ⟨.inl hGrace, .inr (.inr ⟨hOver, hEarned⟩), fun _ => .inr hOver, nil_sublist _,
      nofun⟩

/-- A denied access, as an effect on one record. -/
theorem effect_recordDeniedAccess (hIp : normalizeIp env clientIp = some ip) :
    Effect env ip now (.recordDeniedAccess settings clientIp) record
      (recordDeniedAccess env settings record now) := by
  have hCall : (Call.recordDeniedAccess settings clientIp).attempts env ip = true :=
    decide_eq_true hIp
  obtain ⟨banUntil, hLapse, hBan⟩ := lapse_eq record now
  have hCounted : Effect env ip now (.recordDeniedAccess settings clientIp) record
      ((recordAttempt (lapse record now) (env.ticks settings.window) now).1, false) := by
    rw [hLapse]
    refine ⟨.inl rfl, hBan.imp_right .inl, nofun, ?_, fun _ => .inl⟩
    rw [if_pos hCall]
    exact filter_sublist.append_right _
  unfold recordDeniedAccess isBanned
  split_ifs with hOff
  · exact effect_kept
  dsimp only
  split_ifs with hBanned hCount
  · exact effect_lapse fun _ => of_decide_eq_true hBanned
  · refine effect_registerBan hCounted (by rw [hLapse]; rfl) ⟨hIp, ?_⟩
    simpa [recordAttempt, hLapse] using hCount
  · exact hCounted

/-- A visit of a blocked address, as an effect on one record. -/
theorem effect_touchIpBlockedPresence (hIp : normalizeIp env clientIp = some ip) :
    Effect env ip now (.touchIpBlockedPresence settings clientIp) record
      (touchIpBlockedPresence env settings record now) := by
  have hCall : (Call.touchIpBlockedPresence settings clientIp).touches env ip = true :=
    decide_eq_true hIp
  obtain ⟨banUntil, hLapse, hBan⟩ := lapse_eq record now
  have hTouched : Effect env ip now (.touchIpBlockedPresence settings clientIp) record
      ((touchIpBlocked (lapse record now) now).1, false) := by
    rw [hLapse]
    refine ⟨.inl rfl, hBan.imp_right .inl, nofun, sublist_append_left _ _, fun u hU => ?_⟩
    cases hU
    dsimp only
    cases record.ipBlockedSince with
    | none => exact .inr ⟨hCall, rfl⟩
    | some since => exact .inl rfl
  have hGrace : (touchIpBlocked (lapse record now) now).1.unbanGraceUntil =
      record.unbanGraceUntil := by
    rw [hLapse]
    rfl
  unfold touchIpBlockedPresence isBanned
  split_ifs with hOff
  · exact effect_kept
  dsimp only
  split_ifs with hBanned hQuiet hDwell
  · exact effect_lapse fun _ => of_decide_eq_true hBanned
  · exact hTouched
  · have hOver : record.unbanGraceUntil ≤ now :=
      hGrace ▸ not_lt.mp fun h => hQuiet (decide_eq_true h)
    refine { effect_registerBan hTouched hGrace ⟨hIp, ?_⟩ with reported := fun _ => .inr hOver }
    have hLong : 0 < env.ticks settings.dwell :=
      Nat.mul_pos (by unfold ScannerSettings.dwell; omega) env.pos
    unfold touchIpBlocked at hDwell
    rw [hLapse] at hDwell
    dsimp only at hDwell
    cases hSince : record.ipBlockedSince with
    | none =>
      rw [hSince, Option.getD_none] at hDwell
      omega
    | some since => exact ⟨since, rfl, by rwa [hSince] at hDwell⟩
  · exact hTouched

/-- Every call has such an effect on every record. -/
theorem effect_handle : Effect env ip now call (store ip)
    ((handle env store now call).1 ip, (handle env store now call).2 ip) := by
  have hClient : ∀ clientIp act, (normalizeIp env clientIp = some ip →
      Effect env ip now call (store ip) (act (store ip))) → Effect env ip now call (store ip)
        ((forClient env store clientIp act).1 ip, (forClient env store clientIp act).2 ip) := by
    intro clientIp act hAct
    unfold forClient
    cases hIp : normalizeIp env clientIp with
    | none => exact effect_kept
    | some key =>
      by_cases hKey : ip = key
      · subst hKey
        simpa using hAct hIp
      · simpa [hKey] using effect_kept
  cases call with
  | recordDeniedAccess settings clientIp => exact hClient _ _ effect_recordDeniedAccess
  | touchIpBlockedPresence settings clientIp => exact hClient _ _ effect_touchIpBlockedPresence
  | getActiveBans => exact effect_lapse of_decide_eq_true
  | unbanIp s =>
    show Effect env ip now _ (store ip) (unbanIp env store s now ip, false)
    unfold unbanIp
    split
    · exact effect_kept
    · by_cases hKey : ip = strip s
      · subst hKey
        rw [update_self]
        exact ⟨.inr rfl, .inr (.inl rfl), nofun, nil_sublist _, nofun⟩
      · rw [update_of_ne hKey]
        exact effect_kept

/-! ## Later calls -/

/-- The record against the calls since the ban was lifted. -/
structure Since (env : Env) (ip : Text) (ends : ℕ) (past : List (ℕ × Call)) (record : Record) :
    Prop where
  grace : ends ≤ record.unbanGraceUntil
  unbanned : record.banUntil = 0 ∨ ∃ call ∈ past, ends ≤ call.1
  attempts : record.recentAttempts.Sublist (times (·.attempts env ip) past)
  since : ∀ u ∈ record.ipBlockedSince, u ∈ times (·.touches env ip) past

variable {past : List (ℕ × Call)}

theorem times_append {which : Call → Bool} :
    times which (past ++ [(now, call)]) = times which past ++ if which call then [now] else [] := by
  unfold times
  cases h : which call <;> simp [h]

/-- What is known since a ban, one call later. -/
theorem since_handle (h : Since env ip (graceUntil env t₀) past (store ip)) (hTime : t₀ ≤ now) :
    Since env ip (graceUntil env t₀) (past ++ [(now, call)])
      ((handle env store now call).1 ip) := by
  have hEffect : Effect env ip now call (store ip) _ := effect_handle
  refine ⟨?_, ?_, ?_, ?_⟩
  · obtain hSame | hNew := hEffect.grace
    · exact hSame ▸ h.grace
    · rw [hNew]
      exact Nat.add_le_add_right hTime _
  · obtain hSame | hNone | ⟨hOver, -⟩ := hEffect.ban
    · rw [hSame]
      exact h.unbanned.imp_right fun ⟨call, hMem, hEnds⟩ =>
        ⟨call, mem_append_left _ hMem, hEnds⟩
    · exact .inl hNone
    · exact .inr ⟨_, mem_concat_self, h.grace.trans hOver⟩
  · rw [times_append]
    exact hEffect.attempts.trans (h.attempts.append_right _)
  · intro u hU
    rw [times_append]
    obtain hOld | ⟨hCall, rfl⟩ := hEffect.since u hU
    · exact mem_append_left _ (h.since u hOld)
    · exact mem_append_right _ (by rw [if_pos hCall]; exact mem_singleton_self _)

theorem earned_mono {attempts attempts' : List ℕ} {Seen Seen' : ℕ → Prop}
    (hSub : attempts.Sublist attempts') (hSeen : ∀ u, Seen u → Seen' u)
    (h : Earned env ip now attempts Seen call) : Earned env ip now attempts' Seen' call := by
  cases call with
  | recordDeniedAccess settings clientIp =>
    have hLe := (hSub.filter (now ≤ · + env.ticks settings.window)).length_le
    exact ⟨h.1, Int.le_trans h.2 (Int.ofNat_le.mpr (Nat.succ_le_succ hLe))⟩
  | touchIpBlockedPresence settings clientIp =>
    obtain ⟨hIp, u, hU, hDwell⟩ := h
    exact ⟨hIp, u, hSeen u hU, hDwell⟩
  | getActiveBans | unbanIp s => exact h

variable {s : Text}

theorem unbanIp_self (hSpelled : normalizeIp env s = some ip) (hNormal : strip s = ip) :
    unbanIp env store s t₀ ip = { unbanGraceUntil := graceUntil env t₀ } := by
  unfold normalizeIp at hSpelled
  split at hSpelled
  · cases hSpelled
  · next hSome => rw [unbanIp, if_neg hSome, hNormal, update_self]

theorem since_run (hSpelled : normalizeIp env s = some ip) (hNormal : strip s = ip) (hTimes : ∀ call ∈ past, t₀ ≤ call.1) :
    Since env ip (graceUntil env t₀) past (run env (unbanIp env store s t₀) past ip) := by
  induction past using List.reverseRecOn with
  | nil =>
    show Since env ip _ [] (unbanIp env store s t₀ ip)
    rw [unbanIp_self hSpelled hNormal]
    exact ⟨le_rfl, .inl rfl, nil_sublist _, nofun⟩
  | append_singleton past call ih =>
    rw [run, foldl_append]
    have hPast := ih fun call hMem => hTimes call (mem_append_left _ hMem)
    exact since_handle hPast (hTimes call mem_concat_self)

/-- **A lifted ban stays lifted** if it is lifted under the normalized spelling. -/
theorem lifted_of_normal (env : Env) (store : Store) (t₀ : ℕ) (s ip : Text)
    (later : List (ℕ × Call)) (hSpelled : normalizeIp env s = some ip) (hNormal : strip s = ip)
    (hTimes : (t₀ :: later.map Prod.fst).Pairwise (· ≤ ·)) : Lifted env store t₀ s ip later := by
  refine ⟨fun now => ?_, ?_⟩
  · rw [unbanIp_self hSpelled hNormal]
    exact Nat.not_lt_zero now
  rintro past now call rest rfl
  rw [map_append, map_cons, ← cons_append, pairwise_append] at hTimes
  obtain ⟨hPast, -, hNow⟩ := hTimes
  have hSince : Since env ip _ past (run env (unbanIp env store s t₀) past ip) :=
    since_run hSpelled hNormal fun call hMem =>
      (pairwise_cons.mp hPast).1 _ (mem_map_of_mem hMem)
  have hEffect : Effect env ip now call (run env (unbanIp env store s t₀) past ip) _ :=
    effect_handle
  obtain ⟨-, hBan, hReported, -, -⟩ := hEffect
  dsimp only at hBan hReported
  refine ⟨fun hEarly => ?_, fun hFree hBanned => ?_⟩
  · have hGrace := hSince.grace
    have hNone : (run env (unbanIp env store s t₀) past ip).banUntil = 0 := by
      refine hSince.unbanned.resolve_right fun ⟨call, hMem, hEnds⟩ => ?_
      have hLe := hNow _ (mem_cons_of_mem _ (mem_map_of_mem hMem)) now
        mem_cons_self
      omega
    refine ⟨Bool.eq_false_iff.mpr fun h => ?_, ?_⟩
    · have hOver := hReported h
      omega
    · omega
  · obtain hSame | hZero | ⟨-, hEarned⟩ := hBan
    · omega
    · omega
    · exact earned_mono hSince.attempts hSince.since hEarned

def plainEnv : Env := ⟨5, 31536000, 1800, true, 1000, by decide⟩

def plainSettings : ScannerSettings := ⟨true, true, 5, 3600, 60, true, 120⟩

/-- Denied accesses at these times. -/
def denials (clientIp : String) (instants : List ℕ) : List (ℕ × Call) :=
  instants.map (·, .recordDeniedAccess plainSettings clientIp.toList)

theorem lifted_of_normal_v4 : Lifted plainEnv (fun _ => { banUntil := 4000 }) 7
    " 198.51.100.7".toList "198.51.100.7".toList (denials "198.51.100.7" [8, 9]) :=
  lifted_of_normal _ _ _ _ _ _ (by decide) (by decide) (by decide)

/-- Under another spelling of the address, its ban stays. -/
theorem not_always_lifted : ¬ ∀ env before t₀ s ip later, normalizeIp env s = some ip →
    (before.map Prod.fst ++ t₀ :: later.map Prod.fst).Pairwise (· ≤ ·) →
      Lifted env (run env (fun _ => {}) before) t₀ s ip later := by
  intro h
  have hLifted := (h plainEnv (denials "2001:db8::1" [1, 2, 3, 4, 5]) 6 "2001:DB8::1".toList
    "2001:db8::1".toList [] (by decide) (by decide)).1 7
  revert hLifted
  decide

end AdminPanel.Firewall.Scanner
