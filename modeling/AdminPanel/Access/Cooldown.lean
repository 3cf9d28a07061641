import AdminPanel.Access.BannedClients

/-!
# The cooldown after a disconnect

A disconnect bans its client in memory for some seconds and starts a thread that lifts the
ban when they are over. All disconnects of a client on a node share one entry: whoever
registers last sets its end, and whoever clears it clears it for all.

* `CooldownState`, `cooldownStep` — the entries, the policy rows, the ban files, and every
  thread that disconnects, wakes up, reconciles or deletes, one read, decision, write and
  commit at a time;
* `CooldownKept` — the client is out until the end of every disconnect that took place;
* `BanWritten` — a reconcile writes the name of a client in its cooldown;
* `Released` — with no thread left and no policy against it, a client is in no ban file;
* `Tidy` — why a name is in a file, kept by every step of edits in turn;
* `disconnect_keeps_out` — the steps of a run that keep all this.
-/

namespace AdminPanel.Access.Cooldown

open Function Lib
open Lib.PyText

deriving instance DecidableEq for ClientName

/-! ## Entries -/

/-- A node and a client on it. -/
abbrev Key := Nat × ClientName

/-- `_cooldown_bans`; clock and lengths in one unit of time. -/
abbrev CooldownBans := Key → Option Nat

section

variable (bans : CooldownBans) (now : Nat) (key : Key)

def registerCooldownBan (seconds : Nat) : CooldownBans :=
  update bans key (some (now + seconds))

def clearCooldownBan : CooldownBans := update bans key none

/-- The answer, and the entries without an expired one. -/
def isCooldownBanActive : Bool × CooldownBans :=
  match bans key with
  | none => (false, bans)
  | some expiry => if expiry ≤ now then (false, clearCooldownBan bans key) else (true, bans)

end

/-! ## Threads -/

/-- What a reconcile reads besides the cooldown and the client's policy row: the wall clock, the
traffic counted so far and the running bans of the Buffer Guard. -/
structure World where
  clock : Time := 0
  consumed : Key → Option Int → Int := fun _ _ => 0
  guardBan : Key → Bool := fun _ => false

/-- The part of a disconnect on one node; only the parts on replicas keep the cooldown of a
client that was not connected. -/
structure Disconnect where
  cooldown : Nat
  keepCooldownIfNotConnected : Bool := false
  deriving DecidableEq

/-- Which edit of the ban file a thread is at. -/
inductive Stage
  /-- The reconcile of a disconnect before it kills the session. -/
  | ban (d : Disconnect) (ends : Nat)
  /-- A reconcile after which the thread ends. -/
  | last (trafficLimitChanged : Bool)
  | unblockExpired
  /-- `forget_deleted_openvpn_client` -/
  | forget
  deriving DecidableEq

inductive Phase
  | todo
  /-- The policy row has been read, and the file has not. -/
  | loaded (row : Option PolicyRow)
  | holding (row : Option PolicyRow) (content : List Char)
  | writing (content : List Char)
  deriving DecidableEq

inductive Thread
  | none
  | editing (key : Key) (stage : Stage) (phase : Phase)
  | killing (key : Key) (d : Disconnect) (ends : Nat)
  | sleeping (key : Key) (wakes : Nat)
  /-- A deletion that is done with the file and has the policy row to remove. -/
  | dropping (key : Key)
  deriving DecidableEq

/-- A disconnect that took place, or is under way. -/
structure Promise where
  key : Key
  ends : Nat
  deriving DecidableEq

structure CooldownState where
  now : Nat
  bans : CooldownBans := fun _ => none
  files : Nat → List Char := fun _ => []
  world : World := {}
  rows : Key → Option PolicyRow := fun _ => none
  threads : Nat → Thread := fun _ => .none
  promises : List Promise := []

def CooldownState.setThread (s : CooldownState) (i : Nat) (thread : Thread) : CooldownState :=
  { s with threads := update s.threads i thread }

def CooldownState.reading (s : CooldownState) (key : Key) : Reading :=
  ⟨s.world.clock, s.world.consumed key⟩

def CooldownState.rowBlocks (s : CooldownState) (key : Key) : Bool :=
  (s.rows key).any fun row => (ovpnState row (s.reading key)).isBlocked

/-- A policy blocks the client: its row, or the Buffer Guard. -/
def CooldownState.blocks (s : CooldownState) (key : Key) : Bool :=
  s.rowBlocks key || s.world.guardBan key

/-- How `disconnect_openvpn_client` ends. -/
inductive KillEnd
  | raises
  | done (success : Bool) (message : List Char)
  deriving DecidableEq, Repr

/-- `str.lower()`, for Latin and Cyrillic letters. -/
def lowerChar (c : Char) : Char :=
  if 0x410 ≤ c.toNat ∧ c.toNat ≤ 0x42f then Char.ofNat (c.toNat + 0x20)
  else if 0x400 ≤ c.toNat ∧ c.toNat ≤ 0x40f then Char.ofNat (c.toNat + 0x50)
  else c.toLower

def notConnectedMarkers : List (List Char) :=
  ["не найден".toList, "not connected".toList, "not found".toList]

def isDisconnectSkipNotConnected : KillEnd → Bool
  | .raises => false
  | .done true _ => false
  | .done false message => notConnectedMarkers.any fun marker => marker <:+: message.map lowerChar

/-- The cooldown stays after the kill. -/
def KillEnd.keeps (outcome : KillEnd) (d : Disconnect) : Bool :=
  match outcome with
  | .raises => false
  | .done true _ => true
  | .done false _ => d.keepCooldownIfNotConnected && isDisconnectSkipNotConnected outcome

inductive CooldownAction
  /-- Time passes, and with it traffic and guard bans come and go. -/
  | wait (time : Nat) (world : World)
  | disconnect (i : Nat) (key : Key) (d : Disconnect)
  /-- A policy operation commits the row and goes on to the ban file. -/
  | policy (i : Nat) (key : Key) (row : PolicyRow) (unblockExpired trafficLimitChanged : Bool)
  /-- A client is deleted: first its entry, then its name in the file, at last its row. -/
  | forget (i : Nat) (key : Key)
  | row (i : Nat)
  | read (i : Nat)
  | decide (i : Nat)
  | write (i : Nat)
  /-- The database or the node fails in the middle of an edit, or of a deletion behind it. -/
  | raise (i : Nat)
  /-- `delete_client_access_policies`; a row that another config uses stays. -/
  | drop (i : Nat) (stillUsed : Bool)
  | kill (i : Nat) (outcome : KillEnd)
  | wake (i : Nat)

section

variable (s : CooldownState)

section

variable (i : Nat) (key : Key)

/-- Where a thread goes after its edit. -/
def Stage.next : Stage → Thread
  | .ban d ends => .killing key d ends
  | .forget => .dropping key
  | _ => .none

/-- Where a thread goes when its edit raises; a deletion logs the error and goes on. -/
def Stage.raised : Stage → Thread
  | .forget => .dropping key
  | _ => .none

def Stage.trafficLimitChanged : Stage → Bool
  | .last limitChanged => limitChanged
  | _ => false

def disconnectStep (d : Disconnect) : Option CooldownState :=
  match s.threads i with
  | .none =>
    some (if d.cooldown = 0 then s else
      { s.setThread i (.editing key (.ban d (s.now + d.cooldown)) .todo) with
        bans := registerCooldownBan s.bans s.now key d.cooldown
        promises := ⟨key, s.now + d.cooldown⟩ :: s.promises })
  | _ => none

def policyStep (row : PolicyRow) (unblockExpired trafficLimitChanged : Bool) :
    Option CooldownState :=
  match s.threads i with
  | .none =>
    let stage : Stage := if unblockExpired then .unblockExpired else .last trafficLimitChanged
    some { s.setThread i (.editing key stage .todo) with
      rows := update s.rows key (some row) }
  | _ => none

def forgetStep : Option CooldownState :=
  match s.threads i with
  | .none =>
    some { s.setThread i (.editing key .forget .todo) with
      bans := clearCooldownBan s.bans key
      promises := s.promises.filter (·.key ≠ key) }
  | _ => none

/-- A reconcile asks for the row first; the other edits have no use for it. -/
def rowStep : Option CooldownState :=
  match s.threads i with
  | .editing key stage .todo => some (s.setThread i (.editing key stage (.loaded (s.rows key))))
  | _ => none

def readStep : Option CooldownState :=
  match s.threads i with
  | .editing key stage (.loaded row) =>
    some (s.setThread i (.editing key stage (.holding row (s.files key.1))))
  | _ => none

/-- The edit that a thread decides on, and the entries after its look at them. -/
def decideOp (row : Option PolicyRow) (stage : Stage) : BanOp × CooldownBans :=
  match stage with
  | .unblockExpired => (.unblockExpired, s.bans)
  | .forget => (.forgetDeleted, s.bans)
  | _ =>
    let active := isCooldownBanActive s.bans s.now key
    (.reconcile row (s.reading key) stage.trafficLimitChanged
      (active.1 || s.world.guardBan key), active.2)

/-- The committed row after the decision; the UPDATE of a row that is gone raises. -/
def commitRow (row : Option PolicyRow) (stage : Stage) : Option (Option PolicyRow) :=
  match stage, row with
  | .unblockExpired, _ => some (s.rows key)
  | .forget, _ => some (s.rows key)
  | _, none => some (s.rows key)
  | _, some loaded =>
    let (changed, dirty) := reconcileOpenvpn loaded (s.reading key) stage.trafficLimitChanged
    if dirty then (s.rows key).map fun stored => some (updateColumns loaded changed stored)
    else some (s.rows key)

/-- The thread after its decision. -/
def afterDecision (stage : Stage) (edit : Option (List Char)) : Thread :=
  match edit with
  | none => stage.next key
  | some edited => .editing key stage (.writing edited)

def decideStep : Option CooldownState :=
  match s.threads i with
  | .editing key stage (.holding row content) =>
    let decided := decideOp s key row stage
    match commitRow s key row stage with
    | none => some { s.setThread i (stage.raised key) with bans := decided.2 }
    | some committed =>
      let edit := decided.1.editContent key.2.chars content
      some { s.setThread i (afterDecision key stage edit) with
        bans := decided.2
        rows := update s.rows key committed }
  | _ => none

def writeStep : Option CooldownState :=
  match s.threads i with
  | .editing key stage (.writing content) =>
    some { s.setThread i (stage.next key) with files := update s.files key.1 content }
  | _ => none

def raiseStep : Option CooldownState :=
  match s.threads i with
  | .editing key stage _ => some (s.setThread i (stage.raised key))
  | .dropping _ => some (s.setThread i .none)
  | _ => none

def dropStep (stillUsed : Bool) : Option CooldownState :=
  match s.threads i with
  | .dropping key =>
    some { s.setThread i .none with
      rows := if stillUsed then s.rows else update s.rows key none }
  | _ => none

def killStep (outcome : KillEnd) : Option CooldownState :=
  match s.threads i with
  | .killing key d ends =>
    some (if outcome.keeps d then s.setThread i (.sleeping key (s.now + d.cooldown)) else
      { s.setThread i (.editing key (.last false) .todo) with
        bans := clearCooldownBan s.bans key
        promises := s.promises.erase ⟨key, ends⟩ })
  | _ => none

/-- `_worker` -/
def wakeStep : Option CooldownState :=
  match s.threads i with
  | .sleeping key wakes =>
    if wakes ≤ s.now then
      some { s.setThread i (.editing key (.last false) .todo) with
        bans := clearCooldownBan s.bans key }
    else none
  | _ => none

end

def cooldownStep : CooldownAction → Option CooldownState
  | .wait time world => some { s with now := s.now + time, world := world }
  | .disconnect i key d => disconnectStep s i key d
  | .policy i key row unblockExpired limitChanged =>
    policyStep s i key row unblockExpired limitChanged
  | .forget i key => forgetStep s i key
  | .row i => rowStep s i
  | .read i => readStep s i
  | .decide i => decideStep s i
  | .write i => writeStep s i
  | .raise i => raiseStep s i
  | .drop i stillUsed => dropStep s i stillUsed
  | .kill i outcome => killStep s i outcome
  | .wake i => wakeStep s i

end

/-! ## The law -/

section

variable (s : CooldownState)

/-- Until the end of every disconnect that took place, its client is out, if nothing more
happens. -/
def CooldownKept : Prop :=
  ∀ p ∈ s.promises, ∀ time, s.now ≤ time → time < p.ends →
    (isCooldownBanActive s.bans time p.key).1 = true

/-- The set that a reconcile in the cooldown of its client decides on has the name. -/
def BanWritten : CooldownAction → Prop
  | .decide i => ∀ key stage row content,
      s.threads i = .editing key stage (.holding row content) →
      stage ≠ .unblockExpired → stage ≠ .forget →
      (∃ p ∈ s.promises, p.key = key ∧ s.now < p.ends) →
      key.2.chars ∈ readBannedClients
        (((decideOp s key row stage).1.editContent key.2.chars content).getD content)
  | _ => True

/-- The thread works for the key. -/
def Thread.On (key : Key) : Thread → Prop
  | .none => False
  | .editing own _ _ => own = key
  | .killing own _ _ => own = key
  | .sleeping own _ => own = key
  | .dropping own => own = key

/-- A client that no thread works for and no policy blocks is in no ban file. -/
def Released : Prop :=
  ∀ key : Key, (∀ i, ¬ (s.threads i).On key) → s.blocks key = false →
    key.2.chars ∉ readBannedClients (s.files key.1)

/-- The step ends no cooldown but its own: a disconnect is not over before another one of
the client, and who clears the entry finds no other disconnect in its cooldown. -/
def CutsNothing : CooldownAction → Prop
  | .disconnect _ key d => d.cooldown ≠ 0 → ∀ p ∈ s.promises, p.key = key →
      s.now < p.ends → p.ends ≤ s.now + d.cooldown
  | .kill i outcome => ∀ key d ends, s.threads i = .killing key d ends → outcome.keeps d = false →
      ∀ p ∈ s.promises.erase ⟨key, ends⟩, p.key = key → p.ends ≤ s.now
  | .wake i => ∀ key wakes, s.threads i = .sleeping key wakes →
      ∀ p ∈ s.promises, p.key = key → p.ends ≤ s.now
  | _ => True

/-- The thread is between its first read and the end of its write of the node's file. -/
def Thread.Edits (node : Nat) : Thread → Prop
  | .editing _ _ .todo => False
  | .editing key _ _ => key.1 = node
  | _ => False

/-- The thread will decide on the name of the key in the file. -/
def Thread.Tends (key : Key) : Thread → Prop
  | .editing own (.ban _ _) _ => own = key
  | .editing _ _ (.writing _) => False
  | .editing own _ _ => own = key
  | .killing own _ _ => own = key
  | .sleeping own _ => own = key
  | _ => False

/-- A guard ban runs, or the row blocks and no deletion is about to remove it. -/
def CooldownState.KeepsOut (key : Key) : Prop :=
  s.world.guardBan key = true ∨ s.rowBlocks key = true ∧ ∀ i, s.threads i ≠ .dropping key

/-- The edits of a node's file come one after the other, and none fails. No reconcile that is
its thread's last reads a row that a deletion, done with the file, is about to remove. And what
keeps a client out comes to no end by itself, unless a thread has yet to decide on the name. -/
def InTurn : CooldownAction → Prop
  | .wait _ world => ∀ key, s.KeepsOut key →
      { s with world := world }.KeepsOut key ∨ ∃ i, (s.threads i).Tends key
  | .row i => ∀ key stage, s.threads i = .editing key stage .todo →
      (∀ j, ¬ (s.threads j).Edits key.1) ∧
      ∀ limitChanged, stage = .last limitChanged → ∀ j, s.threads j ≠ .dropping key
  | .decide i => ∀ key stage row content,
      s.threads i = .editing key stage (.holding row content) → commitRow s key row stage ≠ none
  | .raise _ => False
  | _ => True

end

/-! ## Entries and disconnects -/

/-- The entry of each disconnect that is not over lasts to its end. -/
def Covered (bans : CooldownBans) (now : Nat) (promises : List Promise) : Prop :=
  ∀ p ∈ promises, now < p.ends → ∃ expiry, bans p.key = some expiry ∧ p.ends ≤ expiry

variable {other : Key}

section

variable {bans : CooldownBans} {now : Nat} {key : Key} {promises rest : List Promise}

/-- The answer is yes until the entry's end. -/
theorem active_iff :
    (isCooldownBanActive bans now key).1 = true ↔
      ∃ expiry, bans key = some expiry ∧ now < expiry := by
  unfold isCooldownBanActive
  cases hEntry : bans key with
  | none => simp
  | some expiry =>
    by_cases hOver : expiry ≤ now
    · simp [hOver]
    · simp only [if_neg hOver, Option.some.injEq, exists_eq_left', true_iff]
      omega

/-- The entries after a look: an expired one may be gone. -/
theorem entry_after_look {expiry : Nat} (hEntry : bans other = some expiry)
    (hOpen : now < expiry) : (isCooldownBanActive bans now key).2 other = some expiry := by
  unfold isCooldownBanActive
  cases hOwn : bans key with
  | none => exact hEntry
  | some own =>
    by_cases hOver : own ≤ now
    · have hNe : other ≠ key := by
        rintro rfl
        have hSame : own = expiry := Option.mem_unique hOwn hEntry
        omega
      simp only [if_pos hOver, clearCooldownBan]
      rw [update_of_ne hNe]
      exact hEntry
    · simp only [if_neg hOver]
      exact hEntry

/-- A look deletes entries that are over. -/
theorem Covered.look (h : Covered bans now promises) :
    Covered (isCooldownBanActive bans now key).2 now promises := by
  intro p hp hOpen
  obtain ⟨expiry, hEntry, hEnds⟩ := h p hp hOpen
  exact ⟨expiry, entry_after_look hEntry (by omega), hEnds⟩

/-- Time only ends promises. -/
theorem Covered.wait (h : Covered bans now promises) (time : Nat) :
    Covered bans (now + time) promises := by
  intro p hp hOpen
  exact h p hp (by omega)

/-- A new disconnect keeps the others out if it ends last. -/
theorem Covered.register_iff (h : Covered bans now promises) (seconds : Nat) :
    Covered (registerCooldownBan bans now key seconds) now (⟨key, now + seconds⟩ :: promises) ↔
      ∀ p ∈ promises, p.key = key → now < p.ends → p.ends ≤ now + seconds := by
  constructor
  · intro hAfter p hp hKey hOpen
    obtain ⟨expiry, hEntry, hEnds⟩ := hAfter p (List.mem_cons_of_mem _ hp) hOpen
    rw [hKey, registerCooldownBan, update_self, Option.some.injEq] at hEntry
    omega
  · intro hLast p hp hOpen
    by_cases hKey : p.key = key
    · refine ⟨now + seconds, by rw [hKey, registerCooldownBan, update_self], ?_⟩
      rcases List.mem_cons.mp hp with rfl | hp
      · exact Nat.le_refl _
      · exact hLast p hp hKey hOpen
    · have hOld : p ∈ promises := by
        rcases List.mem_cons.mp hp with rfl | hp
        · exact absurd rfl hKey
        · exact hp
      rw [registerCooldownBan, update_of_ne hKey]
      exact h p hOld hOpen

/-- Who clears an entry cuts nothing if no disconnect of the client is left. -/
theorem Covered.clear_iff (h : Covered bans now promises) (hRest : ∀ p ∈ rest, p ∈ promises) :
    Covered (clearCooldownBan bans key) now rest ↔ ∀ p ∈ rest, p.key = key → p.ends ≤ now := by
  constructor
  · intro hAfter p hp hKey
    by_contra hOpen
    obtain ⟨expiry, hEntry, -⟩ := hAfter p hp (by omega)
    rw [hKey, clearCooldownBan, update_self] at hEntry
    simp at hEntry
  · intro hOver p hp hOpen
    have hKey : p.key ≠ key := fun hKey => by
      have hEnds := hOver p hp hKey
      omega
    rw [clearCooldownBan, update_of_ne hKey]
    exact h p (hRest p hp) hOpen

end

variable {key : Key} {row : Option PolicyRow} {stage : Stage} {i : Nat}

section

variable {s s' : CooldownState} {a : CooldownAction}

theorem cooldownKept_iff : CooldownKept s ↔ Covered s.bans s.now s.promises := by
  constructor
  · intro h p hp hOpen
    obtain ⟨expiry, hEntry, hLater⟩ := active_iff.mp (h p hp (p.ends - 1) (by omega) (by omega))
    exact ⟨expiry, hEntry, by omega⟩
  · intro h p hp time hNow hOpen
    obtain ⟨expiry, hEntry, hEnds⟩ := h p hp (by omega)
    exact active_iff.mpr ⟨expiry, hEntry, by omega⟩

/-- A decision looks at the entries and changes no other. -/
theorem decideOp_covered (h : Covered s.bans s.now s.promises) :
    Covered (decideOp s key row stage).2 s.now s.promises := by
  cases stage with
  | unblockExpired | forget => exact h
  | last limitChanged | ban d ends => exact h.look

/-- A new disconnect may end a longer cooldown. -/
theorem covered_disconnectStep {d : Disconnect}
    (h : Covered s.bans s.now s.promises) (hStep : disconnectStep s i key d = some s') :
    Covered s'.bans s'.now s'.promises ↔ CutsNothing s (.disconnect i key d) := by
  unfold disconnectStep at hStep
  split at hStep
  · cases hStep
    by_cases hZero : d.cooldown = 0
    · rw [if_pos hZero]
      exact iff_of_true h fun hNe => absurd hZero hNe
    · rw [if_neg hZero]
      refine (h.register_iff d.cooldown).trans ?_
      exact ⟨fun hLast _ => hLast, fun hLast => hLast hZero⟩
  · simp at hStep

theorem covered_forgetStep (h : Covered s.bans s.now s.promises)
    (hStep : forgetStep s i key = some s') : Covered s'.bans s'.now s'.promises := by
  unfold forgetStep at hStep
  split at hStep
  · cases hStep
    refine (h.clear_iff fun p hp => (List.mem_filter.mp hp).1).mpr ?_
    intro p hp hKey
    have hNe := (List.mem_filter.mp hp).2
    simp [hKey] at hNe
  · simp at hStep

/-- A kill that fails takes its entry and its promise back. -/
theorem covered_killStep {outcome : KillEnd} (h : Covered s.bans s.now s.promises)
    (hStep : killStep s i outcome = some s') :
    Covered s'.bans s'.now s'.promises ↔ CutsNothing s (.kill i outcome) := by
  unfold killStep at hStep
  split at hStep
  · next key d ends hThread =>
    cases hStep
    have hOnly : CutsNothing s (.kill i outcome) ↔ (outcome.keeps d = false →
        ∀ p ∈ s.promises.erase ⟨key, ends⟩, p.key = key → p.ends ≤ s.now) := by
      simp [CutsNothing, hThread]
    rw [hOnly]
    by_cases hKeeps : outcome.keeps d = true
    · rw [if_pos hKeeps]
      exact iff_of_true h fun hLifts => by simp [hKeeps] at hLifts
    · rw [if_neg hKeeps]
      refine (h.clear_iff fun p hp => List.mem_of_mem_erase hp).trans ?_
      exact ⟨fun hOver _ => hOver, fun hOver => hOver (by simpa using hKeeps)⟩
  · simp at hStep

/-- A worker clears the entry it was started for. -/
theorem covered_wakeStep (h : Covered s.bans s.now s.promises) (hStep : wakeStep s i = some s') :
    Covered s'.bans s'.now s'.promises ↔ CutsNothing s (.wake i) := by
  unfold wakeStep at hStep
  split at hStep
  · next key wakes hThread =>
    split at hStep
    · cases hStep
      have hOnly : CutsNothing s (.wake i) ↔ ∀ p ∈ s.promises, p.key = key → p.ends ≤ s.now := by
        simp [CutsNothing, hThread]
      rw [hOnly]
      exact h.clear_iff fun p hp => hp
    · simp at hStep
  · simp at hStep

theorem covered_decideStep (h : Covered s.bans s.now s.promises)
    (hStep : decideStep s i = some s') : Covered s'.bans s'.now s'.promises := by
  unfold decideStep at hStep
  split at hStep
  · simp only at hStep
    split at hStep
    · cases hStep
      exact decideOp_covered h
    · cases hStep
      exact decideOp_covered h
  · simp at hStep

/-- **One step.** It keeps every client in its cooldown out exactly when it cuts nothing. -/
theorem cooldownKept_step (hKept : CooldownKept s) (hStep : cooldownStep s a = some s') :
    CooldownKept s' ↔ CutsNothing s a := by
  rw [cooldownKept_iff] at hKept ⊢
  cases a with
  | wait time world =>
    cases hStep
    exact iff_of_true (hKept.wait time) trivial
  | disconnect i key d => exact covered_disconnectStep hKept hStep
  | forget i key => exact iff_of_true (covered_forgetStep hKept hStep) trivial
  | decide i => exact iff_of_true (covered_decideStep hKept hStep) trivial
  | kill i outcome => exact covered_killStep hKept hStep
  | wake i => exact covered_wakeStep hKept hStep
  | policy i key row unblockExpired limitChanged =>
    simp only [cooldownStep, policyStep] at hStep
    split at hStep
    · exact iff_of_true (Option.some.inj hStep ▸ hKept) trivial
    · simp at hStep
  | row i =>
    simp only [cooldownStep, rowStep] at hStep
    split at hStep
    · exact iff_of_true (Option.some.inj hStep ▸ hKept) trivial
    · simp at hStep
  | drop i stillUsed =>
    simp only [cooldownStep, dropStep] at hStep
    split at hStep
    · exact iff_of_true (Option.some.inj hStep ▸ hKept) trivial
    · simp at hStep
  | read i =>
    simp only [cooldownStep, readStep] at hStep
    split at hStep
    · exact iff_of_true (Option.some.inj hStep ▸ hKept) trivial
    · simp at hStep
  | write i =>
    simp only [cooldownStep, writeStep] at hStep
    split at hStep
    · exact iff_of_true (Option.some.inj hStep ▸ hKept) trivial
    · simp at hStep
  | raise i =>
    simp only [cooldownStep, raiseStep] at hStep
    split at hStep
    · exact iff_of_true (Option.some.inj hStep ▸ hKept) trivial
    · exact iff_of_true (Option.some.inj hStep ▸ hKept) trivial
    · simp at hStep

end

/-! ## What a reconcile decides -/

/-- An edit leaves its client listed exactly when it wants it blocked. -/
theorem listed_after_edit (op : BanOp) (name : ClientName) (content : List Char) :
    name.chars ∈ readBannedClients ((op.editContent name.chars content).getD content) ↔
      op.want = true := by
  cases hEdit : op.editContent name.chars content with
  | none => exact BanOp.mem_of_edit_none (Option.map_eq_none_iff.mp hEdit)
  | some edited =>
    have hMem := BanOp.mem_editContent hEdit name.chars
    rwa [if_pos rfl] at hMem

variable {s : CooldownState}

theorem banWritten_of_kept (hKept : CooldownKept s) (a : CooldownAction) : BanWritten s a := by
  cases a with
  | decide i =>
    rintro key stage row content - hUnblock hForget ⟨p, hp, rfl, hOpen⟩
    have hActive := hKept p hp s.now (Nat.le_refl _) hOpen
    rw [listed_after_edit]
    cases stage with
    | unblockExpired => exact absurd rfl hUnblock
    | forget => exact absurd rfl hForget
    | last limitChanged | ban d ends => cases row <;> simp [decideOp, BanOp.want, hActive]
  | _ => trivial

/-! ## The ban file -/

/-- The thread will clear the entry of the key. -/
def Thread.Guards (key : Key) : Thread → Prop
  | .editing own (.ban _ _) _ => own = key
  | .killing own _ _ => own = key
  | .sleeping own _ => own = key
  | _ => False

/-- The thread works for the key and has not done with the file. -/
def Thread.AtFile (key : Key) : Thread → Prop
  | .dropping _ => False
  | thread => thread.On key

/-- The last reconcile of the thread has read this row of the key and not decided yet. -/
def Thread.Knows (key : Key) (row : Option PolicyRow) : Thread → Prop
  | .editing own (.last _) (.loaded loaded) => own = key ∧ loaded = row
  | .editing own (.last _) (.holding loaded _) => own = key ∧ loaded = row
  | _ => False

/-- The row that thread `i` has read is the committed one, or somebody reads it after `i`; and
nobody is about to remove it. -/
def CooldownState.Current (s : CooldownState) (i : Nat) (key : Key) (row : Option PolicyRow) :
    Prop :=
  (row = s.rows key ∨ ∃ j, j ≠ i ∧ (s.threads j).Tends key) ∧ ∀ j, s.threads j ≠ .dropping key

/-- Somebody or something speaks for the name of the key. -/
def CooldownState.Excused (s : CooldownState) (key : Key) : Prop :=
  s.KeepsOut key ∨ ∃ j, (s.threads j).Tends key

variable {thread : Thread}

/-- Who will clear an entry will decide on the name. -/
theorem Thread.Guards.tends (h : thread.Guards key) : thread.Tends key := by
  cases thread with
  | editing own stage phase => cases stage <;> first | exact h | exact h.elim
  | _ => exact h

theorem Thread.Tends.atFile (h : thread.Tends key) : thread.AtFile key := by
  cases thread with
  | editing own stage phase => cases stage <;> cases phase <;> first | exact h | exact h.elim
  | _ => exact h

theorem Thread.AtFile.on (h : thread.AtFile key) : thread.On key := by
  cases thread with
  | dropping own => exact h.elim
  | _ => exact h

/-- Only a thread about to write has nothing left to decide. -/
theorem Thread.AtFile.tends (h : thread.AtFile key) (hEdits : ¬ thread.Edits key.1) :
    thread.Tends key := by
  cases thread with
  | editing own stage phase =>
    obtain rfl : own = key := h
    cases phase with
    | todo => cases stage <;> rfl
    | _ => exact absurd rfl hEdits
  | _ => exact h

variable {loaded : Option PolicyRow}

theorem Thread.Knows.edits (h : thread.Knows key loaded) : thread.Edits key.1 := by
  cases thread with
  | editing own stage phase =>
    cases stage <;> cases phase <;> first | exact h.elim | exact congrArg Prod.fst h.1
  | _ => exact h.elim

/-- Who is kept out is blocked at the next reconcile. -/
theorem CooldownState.KeepsOut.blocks (h : s.KeepsOut key) : s.blocks key = true := by
  rcases h with hGuard | ⟨hRow, -⟩
  · rw [CooldownState.blocks, hGuard, Bool.or_true]
  · rw [CooldownState.blocks, hRow, Bool.true_or]

/-- Whoever is in a file is kept out by a policy or has a thread at work; so has whoever a
thread is about to write. -/
structure Tidy (s : CooldownState) : Prop where
  entry : ∀ key, s.bans key ≠ none → ∃ i, (s.threads i).Guards key
  alone : ∀ node i j, (s.threads i).Edits node → (s.threads j).Edits node → i = j
  fresh : ∀ i key stage row content, s.threads i = .editing key stage (.holding row content) →
    content = s.files key.1
  current : ∀ i key row, (s.threads i).Knows key row → s.Current i key row
  listed : ∀ key : Key, key.2.chars ∈ readBannedClients (s.files key.1) →
    s.KeepsOut key ∨ ∃ i, (s.threads i).AtFile key
  pending : ∀ i own stage content, s.threads i = .editing own stage (.writing content) →
    ∀ key : Key, key.1 = own.1 → key.2.chars ∈ readBannedClients content → s.Excused key
  gone : ∀ i own content, s.threads i = .editing own .forget (.writing content) →
    own.2.chars ∉ readBannedClients content

variable {phase : Phase}

section

variable {s s' : CooldownState} {i : Nat} {new : Thread}

/-- At rest the invariant is what the claim promises. -/
theorem Tidy.released (h : Tidy s) : Released s := by
  intro key hNobody hBlocks hListed
  rcases h.listed key hListed with hKeeps | ⟨i, hAt⟩
  · have hBlocked := hKeeps.blocks
    rw [hBlocks] at hBlocked
    simp at hBlocked
  · exact hNobody i hAt.on

variable {threads : Nat → Thread}

/-- What some thread is, some thread still is when `i` goes on. -/
theorem exists_update {P : Nat → Thread → Prop}
    (h : ∃ j, P j (threads j)) (hOwn : P i (threads i) → P i new) :
    ∃ j, P j (update threads i new j) := by
  obtain ⟨j, hj⟩ := h
  by_cases hEq : j = i
  · subst hEq
    exact ⟨j, by rw [update_self]; exact hOwn hj⟩
  · exact ⟨j, by rw [update_of_ne hEq]; exact hj⟩

theorem not_dropping_update (h : ∀ j, threads j ≠ .dropping key)
    (hNew : new ≠ .dropping key) (j : Nat) : update threads i new j ≠ .dropping key := by
  by_cases hji : j = i
  · rw [hji, update_self]
    exact hNew
  · rw [update_of_ne hji]
    exact h j

/-- A step that leaves the row alone and drops nothing. -/
theorem keepsOut_update (hThreads : s'.threads = update s.threads i new)
    (hWorld : s'.world = s.world) (hRow : s'.rows key = s.rows key) (hNew : new ≠ .dropping key)
    (h : s.KeepsOut key) : s'.KeepsOut key := by
  rcases h with hGuard | ⟨hBlocks, hNobody⟩
  · exact .inl (hWorld ▸ hGuard)
  · refine .inr ⟨?_, ?_⟩
    · rw [CooldownState.rowBlocks, CooldownState.reading, hRow, hWorld]
      exact hBlocks
    · rw [hThreads]
      exact not_dropping_update hNobody hNew

/-- What keeps a name out outlives a step that leaves its row alone. -/
theorem kept_update {P : Thread → Prop} (hThreads : s'.threads = update s.threads i new)
    (hWorld : s'.world = s.world) (hRow : s'.rows key = s.rows key) (hNew : new ≠ .dropping key)
    (hOwn : P (s.threads i) → P new) (h : s.KeepsOut key ∨ ∃ j, P (s.threads j)) :
    s'.KeepsOut key ∨ ∃ j, P (s'.threads j) := by
  refine h.imp (keepsOut_update hThreads hWorld hRow hNew) fun hSome => ?_
  rw [hThreads]
  exact exists_update hSome hOwn

/-- A thread that edits after a step edited before, or nobody did. -/
theorem alone_update
    (h : ∀ node i j, (threads i).Edits node → (threads j).Edits node → i = j)
    (hNew : ∀ node, new.Edits node →
      (threads i).Edits node ∨ ∀ j, ¬ (threads j).Edits node) :
    ∀ node j k, (update threads i new j).Edits node →
      (update threads i new k).Edits node → j = k := by
  have hOther : ∀ node j, j ≠ i → new.Edits node → ¬ (threads j).Edits node := by
    intro node j hNe hEdits hj
    rcases hNew node hEdits with hOwn | hNobody
    · exact hNe (h node j i hj hOwn)
    · exact hNobody j hj
  intro node j k hj hk
  by_cases hji : j = i
  · by_cases hki : k = i
    · rw [hji, hki]
    · rw [hji, update_self] at hj
      rw [update_of_ne hki] at hk
      exact absurd hk (hOther node k hki hj)
  · rw [update_of_ne hji] at hj
    by_cases hki : k = i
    · rw [hki, update_self] at hk
      exact absurd hj (hOther node j hji hk)
    · rw [update_of_ne hki] at hk
      exact h node j k hj hk

/-- A step that leaves the files alone, takes up no write and reads no row but the current one.
Whoever changes a row goes on to the file, or is done with it. -/
theorem Tidy.move (h : Tidy s) (hThreads : s'.threads = update s.threads i new)
    (hWorld : s'.world = s.world) (hFiles : s'.files = s.files)
    (hRows : ∀ key, s'.rows key = s.rows key ∨ new.Tends key ∨ s.threads i = .dropping key)
    (hEntry : ∀ key, s'.bans key ≠ none →
      new.Guards key ∨ s.bans key ≠ none ∧ ¬ (s.threads i).Guards key)
    (hTends : ∀ key, (s.threads i).AtFile key → new.Tends key) (hDrops : ∀ key, new ≠ .dropping key)
    (hEdits : ∀ node, new.Edits node → (s.threads i).Edits node ∨ ∀ j, ¬ (s.threads j).Edits node)
    (hFresh : ∀ key stage row content, new = .editing key stage (.holding row content) →
      content = s.files key.1)
    (hKnows : ∀ key row, new.Knows key row → s'.rows key = s.rows key ∧ s.Current i key row)
    (hWrites : ∀ key stage content, new ≠ .editing key stage (.writing content)) : Tidy s' := by
  have hOld : ∀ {j thread}, s'.threads j = thread → j ≠ i → s.threads j = thread := by
    intro j thread hj hji
    rwa [hThreads, update_of_ne hji] at hj
  have hOwn : ∀ {thread}, s'.threads i = thread → new = thread := by
    intro thread hi
    rwa [hThreads, update_self] at hi
  -- who is kept out stays out, or the thread that moved will see to it
  have hKeeps : ∀ {P : Key → Thread → Prop},
      (∀ key thread, Thread.Tends key thread → P key thread) →
      (∀ key thread, P key thread → Thread.AtFile key thread) → ∀ key,
      s.KeepsOut key ∨ (∃ j, P key (s.threads j)) →
      s'.KeepsOut key ∨ ∃ j, P key (s'.threads j) := by
    intro P hTo hFrom key hBefore
    rcases hBefore with hKept | hSome
    · rcases hRows key with hSame | hNew | hDropping
      · exact .inl (keepsOut_update hThreads hWorld hSame (hDrops key) hKept)
      · exact .inr ⟨i, by rw [hThreads, update_self]; exact hTo key new hNew⟩
      · rcases hKept with hGuard | ⟨-, hNobody⟩
        · exact .inl (.inl (hWorld ▸ hGuard))
        · exact absurd hDropping (hNobody i)
    · rw [hThreads]
      exact .inr (exists_update hSome fun hi => hTo key new (hTends key (hFrom key _ hi)))
  constructor
  · intro key hSome
    rw [hThreads]
    rcases hEntry key hSome with hNew | ⟨hOld, hNot⟩
    · exact ⟨i, by rw [update_self]; exact hNew⟩
    · exact exists_update (h.entry key hOld) fun hi => absurd hi hNot
  · rw [hThreads]
    exact alone_update h.alone hEdits
  · intro j key stage row content hj
    rw [hFiles]
    by_cases hji : j = i
    · exact hFresh key stage row content (hOwn (hji ▸ hj))
    · exact h.fresh j key stage row content (hOld hj hji)
  · intro j key row hj
    have hOthers : (∃ k, k ≠ j ∧ (s.threads k).Tends key) →
        ∃ k, k ≠ j ∧ (s'.threads k).Tends key := by
      intro hSome
      rw [hThreads]
      exact exists_update (P := fun k thread => k ≠ j ∧ thread.Tends key) hSome
        fun ⟨hNe, hi⟩ => ⟨hNe, hTends key hi.atFile⟩
    rw [hThreads] at hj
    by_cases hji : j = i
    · rw [hji, update_self] at hj
      obtain ⟨hSame, hRow, hNobody⟩ := hKnows key row hj
      refine ⟨?_, by rw [hThreads]; exact not_dropping_update hNobody (hDrops key)⟩
      rw [hSame]
      exact hRow.imp id (hji ▸ hOthers)
    · rw [update_of_ne hji] at hj
      obtain ⟨hRow, hNobody⟩ := h.current j key row hj
      refine ⟨?_, by rw [hThreads]; exact not_dropping_update hNobody (hDrops key)⟩
      rcases hRow with hRow | hSome
      · rcases hRows key with hSame | hNew | hDropping
        · exact .inl (hRow.trans hSame.symm)
        · refine .inr ⟨i, Ne.symm hji, ?_⟩
          rw [hThreads, update_self]
          exact hNew
        · exact absurd hDropping (hNobody i)
      · exact .inr (hOthers hSome)
  · intro key hListed
    rw [hFiles] at hListed
    exact hKeeps (fun _ _ hT => hT.atFile) (fun _ _ hAt => hAt) key (h.listed key hListed)
  · intro j own stage content hj key hNode hListed
    by_cases hji : j = i
    · exact absurd (hOwn (hji ▸ hj)) (hWrites own stage content)
    · exact hKeeps (fun _ _ hT => hT) (fun _ _ hT => hT.atFile) key
        (h.pending j own stage content (hOld hj hji) key hNode hListed)
  · intro j own content hj
    by_cases hji : j = i
    · exact absurd (hOwn (hji ▸ hj)) (hWrites own .forget content)
    · exact h.gone j own content (hOld hj hji)

/-- A disconnect sets the entry and goes on to the file. -/
theorem Tidy.disconnectStep {d : Disconnect} (h : Tidy s)
    (hStep : disconnectStep s i key d = some s') : Tidy s' := by
  unfold Cooldown.disconnectStep at hStep
  split at hStep
  · next hThread =>
    cases hStep
    by_cases hZero : d.cooldown = 0
    · rwa [if_pos hZero]
    rw [if_neg hZero]
    refine h.move rfl rfl rfl (fun _ => .inl rfl) ?_ ?_ (by simp)
      (fun node hEdits => hEdits.elim) (by simp) (fun _ _ hKnows => hKnows.elim) (by simp)
    · intro other hSome
      have hUpdated : update s.bans key (some (s.now + d.cooldown)) other ≠ none := hSome
      by_cases hKey : other = key
      · exact .inl hKey.symm
      · rw [update_of_ne hKey] at hUpdated
        exact .inr ⟨hUpdated, by simp [hThread, Thread.Guards]⟩
    · simp [hThread, Thread.AtFile, Thread.On]
  · simp at hStep

/-- Clearing one entry leaves the others. -/
theorem clear_ne_none {bans : CooldownBans}
    (h : clearCooldownBan bans key other ≠ none) : other ≠ key ∧ bans other ≠ none := by
  by_cases hKey : other = key
  · rw [hKey, clearCooldownBan, update_self] at h
    exact absurd rfl h
  · rw [clearCooldownBan, update_of_ne hKey] at h
    exact ⟨hKey, h⟩

/-- A policy operation commits its row and goes on to the file. -/
theorem Tidy.policyStep {row : PolicyRow} {unblockExpired limitChanged : Bool} (h : Tidy s)
    (hStep : policyStep s i key row unblockExpired limitChanged = some s') : Tidy s' := by
  unfold Cooldown.policyStep at hStep
  split at hStep
  · next hThread =>
    cases hStep
    refine h.move rfl rfl rfl ?_ ?_ (by simp [hThread, Thread.AtFile, Thread.On]) (by simp)
      (fun node hEdits => hEdits.elim) (by simp) ?_ (by simp)
    · intro other
      by_cases hKey : other = key
      · refine .inr (.inl ?_)
        cases unblockExpired <;> exact hKey.symm
      · exact .inl (update_of_ne hKey _ _)
    · intro other hSome
      exact .inr ⟨hSome, by simp [hThread, Thread.Guards]⟩
    · intro other loaded hKnows
      cases unblockExpired <;> exact hKnows.elim
  · simp at hStep

/-- A deletion clears the entry first, and goes on to the file. -/
theorem Tidy.forgetStep (h : Tidy s) (hStep : forgetStep s i key = some s') : Tidy s' := by
  unfold Cooldown.forgetStep at hStep
  split at hStep
  · next hThread =>
    cases hStep
    refine h.move rfl rfl rfl (fun _ => .inl rfl) ?_ (by simp [hThread, Thread.AtFile, Thread.On])
      (by simp) (fun node hEdits => hEdits.elim) (by simp) (fun _ _ hKnows => hKnows.elim) (by simp)
    intro other hSome
    exact .inr ⟨(clear_ne_none hSome).2, by simp [hThread, Thread.Guards]⟩
  · simp at hStep

/-- The first read of an edit begins its turn. -/
theorem Tidy.rowStep (h : Tidy s) (hStep : rowStep s i = some s') (hTurn : InTurn s (.row i)) :
    Tidy s' := by
  unfold Cooldown.rowStep at hStep
  split at hStep
  · next key stage hThread =>
    obtain ⟨hAlone, hUndropped⟩ := hTurn key stage hThread
    cases hStep
    refine h.move rfl rfl rfl (fun _ => .inl rfl) ?_ ?_ (by simp) ?_ (by simp) ?_ (by simp)
    · intro other hSome
      rw [hThread]
      by_cases hGuards : (Thread.editing key stage .todo).Guards other
      · refine .inl ?_
        cases stage <;> exact hGuards
      · exact .inr ⟨hSome, hGuards⟩
    · intro other hAt
      rw [hThread] at hAt
      cases stage <;> exact hAt
    · intro node hNode
      obtain rfl : key.1 = node := hNode
      exact .inr hAlone
    · intro other loaded hKnows
      cases stage with
      | last limitChanged =>
        obtain ⟨rfl, rfl⟩ := hKnows
        exact ⟨rfl, .inl rfl, hUndropped limitChanged rfl⟩
      | _ => exact hKnows.elim
  · simp at hStep

/-- A reconcile queries the row before it reads the file. -/
theorem Tidy.readStep (h : Tidy s) (hStep : readStep s i = some s') : Tidy s' := by
  unfold Cooldown.readStep at hStep
  split at hStep
  · next key stage row hThread =>
    cases hStep
    refine h.move rfl rfl rfl (fun _ => .inl rfl) ?_ ?_ (by simp) ?_ ?_ ?_ (by simp)
    · intro other hSome
      rw [hThread]
      by_cases hGuards : (Thread.editing key stage (.loaded row)).Guards other
      · refine .inl ?_
        cases stage <;> exact hGuards
      · exact .inr ⟨hSome, hGuards⟩
    · intro other hAt
      rw [hThread] at hAt
      cases stage <;> exact hAt
    · intro node hNode
      rw [hThread]
      exact .inl hNode
    · intro other stage' row' content hEq
      cases hEq
      rfl
    · intro other loaded hKnows
      refine ⟨rfl, h.current i other loaded ?_⟩
      rw [hThread]
      cases stage <;> exact hKnows
  · simp at hStep

/-- The row goes; what still blocked by it has left the file before. -/
theorem Tidy.dropStep {stillUsed : Bool} (h : Tidy s)
    (hStep : dropStep s i stillUsed = some s') : Tidy s' := by
  unfold Cooldown.dropStep at hStep
  split at hStep
  · next own hThread =>
    cases hStep
    refine h.move rfl rfl rfl ?_ ?_ ?_ (by simp) (fun node hEdits => hEdits.elim) (by simp)
      (fun _ _ hKnows => hKnows.elim) (by simp)
    · intro key
      cases stillUsed with
      | true => exact .inl rfl
      | false =>
        by_cases hKey : key = own
        · exact .inr (.inr (hKey ▸ hThread))
        · exact .inl (update_of_ne hKey _ _)
    · intro key hSome
      exact .inr ⟨hSome, by simp [hThread, Thread.Guards]⟩
    · intro key hAt
      rw [hThread] at hAt
      exact hAt.elim
  · simp at hStep

/-- After a kill the thread sleeps, or clears its entry and goes on to the file. -/
theorem Tidy.killStep {outcome : KillEnd} (h : Tidy s) (hStep : killStep s i outcome = some s') :
    Tidy s' := by
  unfold Cooldown.killStep at hStep
  split at hStep
  · next own d ends hThread =>
    cases hStep
    by_cases hKeeps : outcome.keeps d = true
    · rw [if_pos hKeeps]
      refine h.move rfl rfl rfl (fun _ => .inl rfl) ?_ ?_ (by simp)
        (fun node hEdits => hEdits.elim) (by simp) (fun _ _ hKnows => hKnows.elim) (by simp)
      · intro key hSome
        rw [hThread]
        by_cases hKey : own = key
        · exact .inl hKey
        · exact .inr ⟨hSome, hKey⟩
      · intro key hAt
        rwa [hThread] at hAt
    · rw [if_neg hKeeps]
      refine h.move rfl rfl rfl (fun _ => .inl rfl) ?_ ?_ (by simp)
        (fun node hEdits => hEdits.elim) (by simp) (fun _ _ hKnows => hKnows.elim) (by simp)
      · intro key hSome
        rw [hThread]
        exact .inr ⟨(clear_ne_none hSome).2, fun hKey => (clear_ne_none hSome).1 hKey.symm⟩
      · intro key hAt
        rwa [hThread] at hAt
  · simp at hStep

/-- A worker clears the entry and goes on to the file. -/
theorem Tidy.wakeStep (h : Tidy s) (hStep : wakeStep s i = some s') : Tidy s' := by
  unfold Cooldown.wakeStep at hStep
  split at hStep
  · next own wakes hThread =>
    split at hStep
    · cases hStep
      refine h.move rfl rfl rfl (fun _ => .inl rfl) ?_ ?_ (by simp)
        (fun node hEdits => hEdits.elim) (by simp) (fun _ _ hKnows => hKnows.elim) (by simp)
      · intro key hSome
        rw [hThread]
        exact .inr ⟨(clear_ne_none hSome).2, fun hKey => (clear_ne_none hSome).1 hKey.symm⟩
      · intro key hAt
        rwa [hThread] at hAt
    · simp at hStep
  · simp at hStep

theorem look_ne_none {bans : CooldownBans} {now : Nat}
    (h : (isCooldownBanActive bans now key).2 other ≠ none) : bans other ≠ none := by
  unfold isCooldownBanActive at h
  cases hEntry : bans key with
  | none => simpa [hEntry] using h
  | some expiry =>
    simp only [hEntry] at h
    split at h
    · exact (clear_ne_none h).2
    · exact h

theorem decideOp_ne_none (h : (decideOp s key row stage).2 other ≠ none) : s.bans other ≠ none := by
  cases stage with
  | unblockExpired | forget => exact h
  | last limitChanged | ban d ends => exact look_ne_none h

variable {own : Key} {content : List Char} {edit : Option (List Char)}
  {committed : Option PolicyRow} {limitChanged : Bool}

/-- A reconcile of the committed row leaves it blocked exactly when it decides on a ban for it. -/
theorem blocked_of_commit (hRow : row = s.rows own)
    (hCommit : commitRow s own row (.last limitChanged) = some committed)
    (hBans : row.any (fun loaded => reconcileBans loaded (s.reading own) limitChanged) = true) :
    committed.any (fun stored => (ovpnState stored (s.reading own)).isBlocked) = true := by
  cases row with
  | none => simp at hBans
  | some loaded =>
    have hCommitted :
        committed = some (reconcileOpenvpn loaded (s.reading own) limitChanged).1 := by
      simp only [commitRow, Stage.trafficLimitChanged, ← hRow] at hCommit
      split at hCommit
      · rw [Option.map_some, updateColumns_self] at hCommit
        exact (Option.some.inj hCommit).symm
      · next hClean =>
        rw [reconcileOpenvpn_unchanged (by simpa using hClean)]
        exact (Option.some.inj hCommit).symm
    rw [hCommitted]
    exact hBans

/-- A last reconcile leaves a name in the file for the row, for a guard ban or for an entry. -/
theorem last_want (hWant : (decideOp s own row (.last limitChanged)).1.want = true) :
    row.any (fun loaded => reconcileBans loaded (s.reading own) limitChanged) = true ∨
      s.world.guardBan own = true ∨ (isCooldownBanActive s.bans s.now own).1 = true := by
  cases row with
  | none =>
    simp only [decideOp, BanOp.want, Bool.or_eq_true] at hWant
    exact .inr hWant.symm
  | some loaded =>
    simp only [decideOp, BanOp.want, Bool.or_eq_true] at hWant
    exact hWant.imp id Or.symm

/-- A disconnect still guards its entry after the decision. -/
theorem guards_afterDecision (h : (Thread.editing key stage phase).Guards other) :
    (afterDecision key stage edit).Guards other := by
  cases stage with
  | ban d ends => cases edit <;> exact h
  | _ => exact h.elim

theorem edits_afterDecision {node : Nat} (h : (afterDecision key stage edit).Edits node) :
    key.1 = node := by
  cases edit with
  | none => cases stage <;> exact h.elim
  | some edited => exact h

/-- A decided thread holds no copy, and writes its edit if it has one. -/
theorem afterDecision_editing {stage' : Stage}
    (h : afterDecision key stage edit = .editing other stage' phase) :
    key = other ∧ stage = stage' ∧ ∃ edited, edit = some edited ∧ phase = .writing edited := by
  cases edit with
  | none => cases stage <;> simp [afterDecision, Stage.next] at h
  | some edited =>
    obtain ⟨hKey, hStage, hPhase⟩ := Thread.editing.inj h
    exact ⟨hKey, hStage, edited, rfl, hPhase.symm⟩

theorem afterDecision_ne_dropping (hKey : other ≠ key) :
    afterDecision key stage edit ≠ .dropping other := by
  have hKey' : key ≠ other := Ne.symm hKey
  cases edit <;> cases stage <;> simp [afterDecision, Stage.next, hKey']

theorem afterDecision_knows : ¬ (afterDecision key stage edit).Knows other loaded := by
  cases edit <;> cases stage <;> exact fun h => h

theorem key_ext (hNode : key.1 = other.1) (hName : key.2.chars = other.2.chars) : key = other := by
  obtain ⟨node, ⟨chars, hPlain⟩⟩ := key
  obtain ⟨node', ⟨chars', hPlain'⟩⟩ := other
  obtain rfl : node = node' := hNode
  obtain rfl : chars = chars' := hName
  rfl

/-- A client in the file of a node that another thread edits has a policy or a tending thread. -/
theorem Tidy.tended (h : Tidy s) (hEdits : (s.threads i).Edits own.1)
    (hNotAt : ¬ (s.threads i).AtFile key) (hNode : key.1 = own.1)
    (hListed : key.2.chars ∈ readBannedClients (s.files key.1)) : s.Excused key := by
  rcases h.listed key hListed with hKeeps | ⟨j, hAt⟩
  · exact .inl hKeeps
  · refine .inr ⟨j, hAt.tends ?_⟩
    intro hBoth
    rw [hNode] at hBoth
    rw [h.alone own.1 i j hEdits hBoth] at hNotAt
    exact hNotAt hAt

/-- A thread at one name is not at another one. -/
theorem not_at_other (hThread : s.threads i = .editing own stage phase) (hKey : key ≠ own) :
    ¬ (s.threads i).AtFile key := by
  intro hAt
  rw [hThread] at hAt
  exact hKey (Eq.symm hAt)

/-- A thread at the file of `own` goes on and takes up no copy: the other clients and the other
files are left alone, so three things are to show, of the file, of a write to come and of the
entries. -/
theorem Tidy.edited (h : Tidy s) (hThread : s.threads i = .editing own stage phase)
    (hTurn : phase ≠ .todo) (hThreads : s'.threads = update s.threads i new)
    (hWorld : s'.world = s.world) (hRows : ∀ key, key ≠ own → s'.rows key = s.rows key)
    (hFiles : ∀ node, node ≠ own.1 → s'.files node = s.files node)
    (hEntry : ∀ key, s'.bans key ≠ none → ∃ j, (s'.threads j).Guards key)
    (hEdits : ∀ node, new.Edits node → own.1 = node)
    (hCopies : ∀ key stage row content, new ≠ .editing key stage (.holding row content))
    (hKnows : ∀ key row, ¬ new.Knows key row) (hDrops : ∀ key, key ≠ own → new ≠ .dropping key)
    (hListed : ∀ key : Key, key.1 = own.1 → key.2.chars ∈ readBannedClients (s'.files own.1) →
      s'.KeepsOut key ∨ ∃ j, (s'.threads j).AtFile key)
    (hWrites : ∀ key stage content, new = .editing key stage (.writing content) → ∀ other : Key,
      other.1 = key.1 → other.2.chars ∈ readBannedClients content → s'.Excused other)
    (hGone : ∀ key content, new = .editing key .forget (.writing content) →
      key.2.chars ∉ readBannedClients content) : Tidy s' := by
  have hOwnEdits : (s.threads i).Edits own.1 := by
    rw [hThread]
    cases phase with
    | todo => exact absurd rfl hTurn
    | _ => rfl
  have hOld : ∀ {j thread}, s'.threads j = thread → j ≠ i → s.threads j = thread := by
    intro j thread hj hji
    rwa [hThreads, update_of_ne hji] at hj
  have hNew : ∀ {thread}, s'.threads i = thread → new = thread := by
    intro thread hi
    rwa [hThreads, update_self] at hi
  -- whoever else is at a file is at another one
  have hApart : ∀ {j key}, j ≠ i → (s.threads j).Edits (Prod.fst key) → key ≠ own :=
    fun hji hj hKey => hji (h.alone own.1 _ i (hKey ▸ hj) hOwnEdits)
  have hOther : ∀ {P : Thread → Prop} {key}, key ≠ own →
      (P (s.threads i) → (s.threads i).AtFile key) → s.KeepsOut key ∨ (∃ j, P (s.threads j)) →
      s'.KeepsOut key ∨ ∃ j, P (s'.threads j) := fun hKey hAt =>
    kept_update hThreads hWorld (hRows _ hKey) (hDrops _ hKey)
      fun hP => absurd (hAt hP) (not_at_other hThread hKey)
  constructor
  · exact hEntry
  · rw [hThreads]
    exact alone_update h.alone fun node hNode => .inl (hEdits node hNode ▸ hOwnEdits)
  · intro j key stage' row content hj
    by_cases hji : j = i
    · exact absurd (hNew (hji ▸ hj)) (hCopies key stage' row content)
    · have hThen := hOld hj hji
      have hNode : key.1 ≠ own.1 := fun hNode =>
        @hApart j (key.1, own.2) hji (by rw [hThen]; rfl) (Prod.ext hNode rfl)
      rw [hFiles key.1 hNode]
      exact h.fresh j key stage' row content hThen
  · intro j key row hj
    by_cases hji : j = i
    · rw [hThreads, hji, update_self] at hj
      exact absurd hj (hKnows key row)
    · rw [← hOld rfl hji] at hj
      obtain ⟨hRead, hNobody⟩ := h.current j key row hj
      have hKey := hApart hji hj.edits
      rw [CooldownState.Current, hRows key hKey, hThreads]
      refine ⟨hRead.imp id fun hSome => ?_, not_dropping_update hNobody (hDrops key hKey)⟩
      exact exists_update (P := fun k thread => k ≠ j ∧ thread.Tends key) hSome
        fun hi => absurd hi.2.atFile (not_at_other hThread hKey)
  · intro key hMem
    by_cases hNode : key.1 = own.1
    · exact hListed key hNode (hNode ▸ hMem)
    · rw [hFiles key.1 hNode] at hMem
      exact hOther (fun hKey => hNode (congrArg Prod.fst hKey)) id (h.listed key hMem)
  · intro j own' stage' content hj key hNode hMem
    by_cases hji : j = i
    · exact hWrites own' stage' content (hNew (hji ▸ hj)) key hNode hMem
    · have hThen := hOld hj hji
      have hKey : key ≠ own := hApart hji (by rw [hThen, hNode]; rfl)
      exact hOther hKey (fun hTends => hTends.atFile)
        (h.pending j own' stage' content hThen key hNode hMem)
  · intro j own' content hj
    by_cases hji : j = i
    · exact hGone own' content (hNew (hji ▸ hj))
    · exact h.gone j own' content (hOld hj hji)

/-- Whoever guards a key still does after a decision. -/
theorem guards_decided
    (hThread : s.threads i = .editing own stage phase) (h : ∃ j, (s.threads j).Guards key) :
    ∃ j, (update s.threads i (afterDecision own stage edit) j).Guards key := by
  refine exists_update h ?_
  rw [hThread]
  exact guards_afterDecision

/-- A decision that leaves its own client listed does so for the row it commits, for a guard ban,
or with somebody left to decide. -/
theorem Tidy.own_decided (h : Tidy s)
    (hThread : s.threads i = .editing own stage (.holding row content))
    (hCommit : commitRow s own row stage = some committed)
    (hThreads : s'.threads = update s.threads i (afterDecision own stage edit))
    (hWorld : s'.world = s.world) (hRow : s'.rows own = committed)
    (hListed : own.2.chars ∈ readBannedClients
      (((decideOp s own row stage).1.editContent own.2.chars content).getD content)) :
    s'.Excused own := by
  rw [listed_after_edit] at hListed
  cases stage with
  | unblockExpired | forget => simp [decideOp, BanOp.want] at hListed
  | ban d ends =>
    refine .inr ⟨i, ?_⟩
    rw [hThreads, update_self]
    cases edit <;> rfl
  | last limitChanged =>
    obtain ⟨hRead, hNobody⟩ := h.current i own row (by rw [hThread]; exact ⟨rfl, rfl⟩)
    have hStill : ∀ j, s'.threads j ≠ .dropping own := by
      rw [hThreads]
      exact not_dropping_update hNobody (by cases edit <;> simp [afterDecision, Stage.next])
    rcases hRead with hRead | ⟨j, hji, hTends⟩
    · rcases last_want hListed with hBans | hGuard | hActive
      · refine .inl (.inr ⟨?_, hStill⟩)
        rw [CooldownState.rowBlocks, CooldownState.reading, hRow, hWorld]
        exact blocked_of_commit hRead hCommit hBans
      · exact .inl (.inl (hWorld ▸ hGuard))
      · obtain ⟨expiry, hEntry, -⟩ := active_iff.mp hActive
        refine .inr ?_
        rw [hThreads]
        exact (guards_decided hThread (h.entry own (by simp [hEntry]))).imp fun j hj => hj.tends
    · refine .inr ⟨j, ?_⟩
      rw [hThreads, update_of_ne hji]
      exact hTends

/-- The other clients that a decided edit lists are those of the file. -/
theorem Tidy.others_decided {edited : List Char} (h : Tidy s)
    (hThread : s.threads i = .editing own stage (.holding row content)) (hKey : key ≠ own)
    (hNode : key.1 = own.1)
    (hEdit : (decideOp s own row stage).1.editContent own.2.chars content = some edited)
    (hListed : key.2.chars ∈ readBannedClients edited) : s.Excused key := by
  have hName : key.2.chars ≠ own.2.chars := fun hName => hKey (key_ext hNode hName)
  have hEdits : (s.threads i).Edits own.1 := by
    rw [hThread]
    rfl
  rw [BanOp.mem_editContent hEdit key.2.chars, if_neg hName,
    h.fresh i own stage row content hThread, ← hNode] at hListed
  exact h.tended hEdits (not_at_other hThread hKey) hNode hListed

/-- The decision: what it leaves listed is excused, and nobody else's row has changed. -/
theorem Tidy.decideStep (h : Tidy s) (hStep : decideStep s i = some s')
    (hTurn : InTurn s (.decide i)) : Tidy s' := by
  unfold Cooldown.decideStep at hStep
  split at hStep
  case h_2 => simp at hStep
  next own stage row content hThread =>
  simp only at hStep
  split at hStep
  case h_1 hNone => exact absurd hNone (hTurn own stage row content hThread)
  next committed hCommit =>
  set edit := (decideOp s own row stage).1.editContent own.2.chars content with hEdit
  have hThreads : s'.threads = update s.threads i (afterDecision own stage edit) :=
    (Option.some.inj hStep) ▸ rfl
  have hWorld : s'.world = s.world := (Option.some.inj hStep) ▸ rfl
  have hFiles : s'.files = s.files := (Option.some.inj hStep) ▸ rfl
  have hBans : s'.bans = (decideOp s own row stage).2 := (Option.some.inj hStep) ▸ rfl
  have hRows : s'.rows = update s.rows own committed := (Option.some.inj hStep) ▸ rfl
  clear hStep
  have hSame : ∀ key, key ≠ own → s'.rows key = s.rows key := fun key hKey => by
    rw [hRows, update_of_ne hKey]
  have hOther : ∀ {P : Thread → Prop} {key}, key ≠ own →
      (P (s.threads i) → (s.threads i).AtFile key) → s.KeepsOut key ∨ (∃ j, P (s.threads j)) →
      s'.KeepsOut key ∨ ∃ j, P (s'.threads j) := fun hKey hAt =>
    kept_update hThreads hWorld (hSame _ hKey) (afterDecision_ne_dropping hKey)
      fun hP => absurd (hAt hP) (not_at_other hThread hKey)
  have hOwn : own.2.chars ∈ readBannedClients (edit.getD content) → s'.Excused own :=
    h.own_decided hThread hCommit hThreads hWorld (by rw [hRows, update_self])
  refine h.edited hThread nofun hThreads hWorld hSame (fun node _ => by rw [hFiles]) ?_
    (fun node => edits_afterDecision) ?_ (fun key row => afterDecision_knows)
    (fun key => afterDecision_ne_dropping) ?_ ?_ ?_
  · intro key hSome
    rw [hBans] at hSome
    rw [hThreads]
    exact guards_decided hThread (h.entry key (decideOp_ne_none hSome))
  · intro key stage' row' content' hEq
    obtain ⟨-, -, edited, -, hPhase⟩ := afterDecision_editing hEq
    simp at hPhase
  · intro key hNode hMem
    rw [hFiles, ← hNode] at hMem
    by_cases hKey : key = own
    · subst hKey
      cases hCase : edit with
      | none =>
        rw [← h.fresh i key stage row content hThread] at hMem
        rw [hCase] at hOwn
        exact (hOwn hMem).imp id fun ⟨j, hj⟩ => ⟨j, hj.atFile⟩
      | some edited =>
        -- the write is still to come
        refine .inr ⟨i, ?_⟩
        rw [hThreads, update_self, hCase]
        rfl
    · exact hOther hKey id (h.listed key hMem)
  · intro own' stage' content' hEq key hNode hMem
    obtain ⟨rfl, -, edited, hCase, hPhase⟩ := afterDecision_editing hEq
    obtain rfl := Phase.writing.inj hPhase
    by_cases hKey : key = own
    · subst hKey
      rw [hCase] at hOwn
      exact hOwn hMem
    · exact hOther hKey (fun hTends => hTends.atFile)
        (h.others_decided hThread hKey hNode hCase hMem)
  · intro own' content' hEq
    obtain ⟨rfl, rfl, edited, hCase, hPhase⟩ := afterDecision_editing hEq
    obtain rfl := Phase.writing.inj hPhase
    have hWant := listed_after_edit (decideOp s own row .forget).1 own.2 content
    rw [← hEdit, hCase] at hWant
    exact fun hMem => by simpa [decideOp, BanOp.want] using hWant.mp hMem

theorem next_not_editing {stage' : Stage} : stage.next key ≠ .editing other stage' phase := by
  cases stage <;> simp [Stage.next]

theorem next_knows : ¬ (stage.next key).Knows other loaded := by
  cases stage <;> exact fun h => h

/-- A disconnect still tends to its name after the write. -/
theorem tends_next {content : List Char}
    (h : (Thread.editing key stage (.writing content)).Tends other) :
    (stage.next key).Tends other := by
  cases stage with
  | ban d ends => exact h
  | _ => exact h.elim

theorem next_ne_dropping (h : other ≠ key ∨ stage ≠ .forget) :
    stage.next key ≠ .dropping other := by
  cases stage with
  | forget =>
    rcases h with hKey | hStage
    · exact fun hNext => hKey (Thread.dropping.inj hNext).symm
    · exact absurd rfl hStage
  | _ => simp [Stage.next]

/-- The write: the file holds what the thread has decided on. -/
theorem Tidy.writeStep (h : Tidy s) (hStep : writeStep s i = some s') : Tidy s' := by
  unfold Cooldown.writeStep at hStep
  split at hStep
  case h_2 => simp at hStep
  next own stage content hThread =>
  have hThreads : s'.threads = update s.threads i (stage.next own) :=
    (Option.some.inj hStep) ▸ rfl
  have hWorld : s'.world = s.world := (Option.some.inj hStep) ▸ rfl
  have hRows : s'.rows = s.rows := (Option.some.inj hStep) ▸ rfl
  have hFiles : s'.files = update s.files own.1 content := (Option.some.inj hStep) ▸ rfl
  have hBans : s'.bans = s.bans := (Option.some.inj hStep) ▸ rfl
  clear hStep
  refine h.edited hThread nofun hThreads hWorld (fun _ _ => by rw [hRows])
    (fun node hNode => by rw [hFiles, update_of_ne hNode]) ?_ ?_
    (fun _ _ _ _ => next_not_editing) (fun _ _ => next_knows)
    (fun _ hKey => next_ne_dropping (.inl hKey)) ?_ (fun _ _ _ hEq => absurd hEq next_not_editing)
    fun _ _ hEq => absurd hEq next_not_editing
  · intro key hSome
    rw [hThreads]
    refine exists_update (h.entry key (hBans ▸ hSome)) ?_
    rw [hThread]
    intro hGuards
    cases stage with
    | ban d ends => exact hGuards
    | _ => exact hGuards.elim
  · intro node hNode
    cases stage <;> exact hNode.elim
  · intro key hNode hMem
    rw [hFiles, update_self] at hMem
    -- only the client of a deletion loses its row's word, and its name is not in the content
    have hGone : key ≠ own ∨ stage ≠ .forget := by
      by_contra hBoth
      obtain ⟨rfl, rfl⟩ : key = own ∧ stage = .forget := by
        simpa only [ne_eq, not_or, not_not] using hBoth
      exact h.gone i key content hThread hMem
    have hKept := kept_update (P := Thread.Tends key) hThreads hWorld (by rw [hRows])
      (next_ne_dropping hGone) (fun hTends => tends_next (hThread ▸ hTends))
      (h.pending i own stage content hThread key hNode hMem)
    exact hKept.imp id fun hSome => hSome.imp fun j hj => hj.atFile

/-- Time passes; what runs out has somebody left to decide on it. -/
theorem Tidy.wait {time : Nat} {world : World} (h : Tidy s) (hTurn : InTurn s (.wait time world)) :
    Tidy { s with now := s.now + time, world := world } where
  entry := h.entry
  alone := h.alone
  fresh := h.fresh
  current := h.current
  gone := h.gone
  listed key hListed := by
    rcases h.listed key hListed with hKept | hAt
    · exact (hTurn key hKept).imp id fun ⟨j, hj⟩ => ⟨j, hj.atFile⟩
    · exact .inr hAt
  pending i own stage content hThread key hNode hListed := by
    rcases h.pending i own stage content hThread key hNode hListed with hKept | hTends
    · exact hTurn key hKept
    · exact .inr hTends

/-- **One step.** -/
theorem Tidy.step {a : CooldownAction} (h : Tidy s) (hTurn : InTurn s a)
    (hStep : cooldownStep s a = some s') : Tidy s' := by
  cases a with
  | wait time world =>
    cases hStep
    exact h.wait hTurn
  | disconnect i key d => exact h.disconnectStep hStep
  | policy i key row unblockExpired limitChanged => exact h.policyStep hStep
  | forget i key => exact h.forgetStep hStep
  | row i => exact h.rowStep hStep hTurn
  | read i => exact h.readStep hStep
  | decide i => exact h.decideStep hStep hTurn
  | write i => exact h.writeStep hStep
  | raise i => exact hTurn.elim
  | drop i stillUsed => exact h.dropStep hStep
  | kill i outcome => exact h.killStep hStep
  | wake i => exact h.wakeStep hStep

end

/-! ## Runs -/

/-- No disconnect so far, no thread at work; whoever is in a file has a policy against it. -/
structure Calm (s : CooldownState) : Prop where
  noPromise : s.promises = []
  noEntry : ∀ key, s.bans key = none
  noThread : ∀ i, s.threads i = .none
  listed : ∀ key : Key, key.2.chars ∈ readBannedClients (s.files key.1) → s.blocks key = true

theorem Calm.kept (h : Calm s) : CooldownKept s := by
  simp [CooldownKept, h.noPromise]

/-- Nodes that nobody works on. -/
theorem Calm.tidy (h : Calm s) : Tidy s where
  entry key hSome := absurd (h.noEntry key) hSome
  alone node i j hEdits := by simp [h.noThread i, Thread.Edits] at hEdits
  fresh i key stage row content hThread := by simp [h.noThread i] at hThread
  current i key row hKnows := by simp [h.noThread i, Thread.Knows] at hKnows
  listed key hListed := by
    have hBlocks := h.listed key hListed
    rw [CooldownState.blocks, Bool.or_eq_true] at hBlocks
    exact .inl (hBlocks.symm.imp id fun hRow => ⟨hRow, by simp [h.noThread]⟩)
  pending i own stage content hThread := by simp [h.noThread i] at hThread
  gone i own content hThread := by simp [h.noThread i] at hThread

def quietNodes : CooldownState := { now := 0 }

theorem quietNodes_calm : Calm quietNodes where
  noPromise := rfl
  noEntry _ := rfl
  noThread _ := rfl
  listed key hListed := by simp [quietNodes, readBannedClients, splitLines,
    splitLinesFrom] at hListed

/-- Thread `i` reads the row and the file, decides and writes. -/
def edit (i : Nat) : List CooldownAction := [.row i, .read i, .decide i, .write i]

/-- Two disconnects of a client, the second 10 into the 15 of the first, until the thread of
the first has done its work. -/
def secondDisconnect : List CooldownAction :=
  [.disconnect 0 (1, alice) ⟨15, false⟩] ++ edit 0 ++ [.kill 0 (.done true []),
    .wait 10 {}, .disconnect 1 (1, alice) ⟨15, false⟩, .row 1, .read 1, .decide 1,
    .kill 1 (.done true []), .wait 5 {}, .wake 0] ++ edit 0

/-- A disconnect whose thread fails at its reconcile. -/
def failedWorker : List CooldownAction :=
  [.disconnect 0 (1, alice) ⟨15, false⟩] ++ edit 0 ++
    [.kill 0 (.done true []), .wait 15 {}, .wake 0, .raise 0]

/-- A client is blocked, disconnected and deleted, and the thread of the disconnect does its work
before the deletion comes to the row. -/
def deletedBlocked : List CooldownAction :=
  [.policy 0 (1, alice) { isPermanentBlocked := true, updatedBy := some "admin" } false false] ++
    edit 0 ++ [.disconnect 1 (1, alice) ⟨15, false⟩] ++ edit 1 ++ [.kill 1 (.done true []),
    .wait 15 {}, .forget 0 (1, alice)] ++ edit 0 ++ [.wake 1] ++ edit 1 ++ [.drop 0 false]

end AdminPanel.Access.Cooldown
