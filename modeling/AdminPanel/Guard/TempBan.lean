import AdminPanel.Access.BannedClients
import AdminPanel.Access.Operations

/-!
# Temporary bans of the Buffer Guard

A guard pass writes the name of a client into the ban file and then commits the event that
says how long the ban holds. Whoever reconciles the client goes by the committed events; the
expiry pass reconciles it once more and then clears the events that are over.

* `GuardState`, `guardStep` — one client: its row, the events and the ban file, and every
  thread, one read, decision, write and commit at a time;
* `HoldsItsTime` — the client of a running ban is in the file when nobody works on it;
* `Serial` — guard passes and operations take turns, and nobody is about to take out the client
  of a ban;
* `kept_step` — the writes that keep it in the file;
* `LiftedRight` — what an expiry pass leaves;
* `temp_ban_holds` — the runs in which a ban holds for its time and no longer.
-/

namespace AdminPanel.Guard

open Lib (exec Along along_preserved along_of_guard)
open List Function Access

/-! ## State -/

/-- A committed event of the client. `released` says that `openvpn_unblock` was called since. -/
structure GuardEvent where
  id : Nat
  banExpiresAt : Option Time
  released : Bool := false
  deriving DecidableEq

/-- What an operation does with the ban file once its own columns are committed. -/
inductive Job
  | reconcile
  /-- The reconcile of an expiry pass, which then clears these events. -/
  | expiry (ids : List Nat)
  /-- The name goes without a reconcile: `openvpn_unblock` under a past deadline. -/
  | drop
  deriving DecidableEq

inductive Thread
  | idle
  /-- A guard pass that read the file and is about to write it. -/
  | banning (minutes : Int) (content : List Char)
  /-- A guard pass about to commit its event. -/
  | committing (banExpiresAt : Option Time)
  | starting (job : Job)
  /-- The policy row has been read, and the file has not. -/
  | reading (job : Job) (row : Option PolicyRow)
  | holding (job : Job) (row : Option PolicyRow) (content : List Char)
  | writing (job : Job) (content : List Char)
  | clearing (ids : List Nat)
  deriving DecidableEq

structure GuardState where
  now : Time
  consumed : Option Int → Int := fun _ => 0
  cooldownUntil : Option Time := none
  file : List Char := []
  row : Option PolicyRow := none
  events : List GuardEvent := []
  threads : Nat → Thread := fun _ => .idle

/-- How a write of the file ends. It may raise behind the write, at `ensure_openvpn_ban_check`. -/
inductive WriteEnd
  | done
  | raisesBefore
  | raisesAfter
  deriving DecidableEq

inductive GuardAction
  | wait (now : Time) (consumed : Option Int → Int)
  /-- A guard pass reads the file for its ban. -/
  | ban (i : Nat) (minutes : Int)
  /-- An operation commits its columns. -/
  | policy (i : Nat) (op : PolicyOp) (actor : Option String)
  | reconcile (i : Nat)
  /-- `process_temp_ban_expiries` looks for bans that are over. -/
  | expiry (i : Nat)
  | row (i : Nat)
  | read (i : Nat)
  | decide (i : Nat)
  | write (i : Nat) (outcome : WriteEnd)
  | commit (i : Nat)
  | clear (i : Nat)

namespace GuardState

section

variable (s : GuardState)

def reading : Reading := ⟨s.now, s.consumed⟩

def setThread (i : Nat) (thread : Thread) : GuardState :=
  { s with threads := update s.threads i thread }

def cooldownActive : Bool :=
  s.cooldownUntil.any fun ends => decide (s.now < ends)

def guardBanActive : Bool :=
  s.events.any fun e => e.banExpiresAt.any fun t => decide (s.now < t)

def openvpnRuntimeBanActive : Bool :=
  s.cooldownActive || s.guardBanActive

/-- The policy row is blocked. -/
def rowBlocked : Bool :=
  s.row.any fun row => (ovpnState row s.reading).isBlocked

/-- The events that `process_temp_ban_expiries` selects. -/
def expiredIds : List Nat :=
  (s.events.filter fun e => e.banExpiresAt.any fun t => decide (t ≤ s.now)).map (·.id)

end

end GuardState

/-- Where a thread goes when its file work is over. -/
def Job.next : Job → Thread
  | .expiry ids => .clearing ids
  | _ => .idle

/-- `_now_utc() + timedelta(minutes=max(1, int(minutes)))` -/
def banEnd (now : Time) (minutes : Int) : Time := now + max 1 minutes * 60000000

/-! ## Steps -/

section

variable (client : ClientName) (s : GuardState)

/-- The client is in the ban file. -/
def GuardState.listed : Bool := Access.listed s.file client.chars

section

variable (i : Nat)

/-- `_apply_temp_ban` up to its write; a client that is in the file needs none. -/
def banStep (minutes : Int) : Option GuardState :=
  match s.threads i with
  | .idle =>
    let banned := readBannedClients s.file
    some (s.setThread i
      (if client.chars ∉ banned then
        .banning minutes (writeBannedClients (addName banned client.chars))
      else .committing (some (banEnd s.now minutes))))
  | _ => none

/-- The operation commits its columns; an unblock under a past deadline goes on without a
reconcile. -/
def policyStep (op : PolicyOp) (actor : Option String) : Option GuardState :=
  match s.threads i, op with
  | .idle, .reconcile => none
  | .idle, op =>
    match enter op actor s.reading (s.row.getD {}) with
    | .error _ => some s
    | .ok e =>
      some { s.setThread i (.starting (if e.reconciles then .reconcile else .drop)) with
        row := some e.row
        events :=
          if op = .unblock then s.events.map fun event => { event with released := true }
          else s.events }
  | _, _ => none

def reconcileStep : Option GuardState :=
  match s.threads i with
  | .idle => some (s.setThread i (.starting .reconcile))
  | _ => none

def expiryStep : Option GuardState :=
  match s.threads i with
  | .idle =>
    some (if s.expiredIds = [] then s else s.setThread i (.starting (.expiry s.expiredIds)))
  | _ => none

/-- A reconcile asks for the row first; a drop has none to ask for. -/
def rowStep : Option GuardState :=
  match s.threads i with
  | .starting job => some (s.setThread i (.reading job s.row))
  | _ => none

/-- `read_banned_clients` -/
def readStep : Option GuardState :=
  match s.threads i with
  | .reading job row => some (s.setThread i (.holding job row s.file))
  | _ => none

/-- The edit that a thread decides on, and the committed row after it. -/
def decideOp (row : Option PolicyRow) : Job → BanOp × Option PolicyRow
  | .drop => (.unblockExpired, s.row)
  | _ =>
    (.reconcile row s.reading false s.openvpnRuntimeBanActive,
      match row with
      | none => s.row
      | some loaded =>
        let (changed, dirty) := reconcileOpenvpn loaded s.reading false
        if dirty then s.row.map (updateColumns loaded changed) else s.row)

def decideStep : Option GuardState :=
  match s.threads i with
  | .holding job row content =>
    let (op, committed) := decideOp s row job
    let thread : Thread :=
      match op.editContent client.chars content with
      | none => job.next
      | some edited => .writing job edited
    some { s.setThread i thread with row := committed }
  | _ => none

/-- A guard pass whose write raises has no ban to commit. -/
def writeStep (outcome : WriteEnd) : Option GuardState :=
  match s.threads i with
  | .banning minutes content =>
    match outcome with
    | .done => some { s.setThread i (.committing (some (banEnd s.now minutes))) with
        file := content }
    | .raisesBefore => some (s.setThread i (.committing none))
    | .raisesAfter => some { s.setThread i (.committing none) with file := content }
  | .writing job content =>
    match outcome with
    | .done => some { s.setThread i job.next with file := content }
    | .raisesBefore => some (s.setThread i .idle)
    | .raisesAfter => some { s.setThread i .idle with file := content }
  | _ => none

def commitStep : Option GuardState :=
  match s.threads i with
  | .committing banExpiresAt =>
    some { s.setThread i .idle with
      events := s.events ++ [{ id := s.events.length, banExpiresAt := banExpiresAt }] }
  | _ => none

def clearEvents (ids : List Nat) (events : List GuardEvent) : List GuardEvent :=
  events.map fun e => if e.id ∈ ids then { e with banExpiresAt := none } else e

def clearStep : Option GuardState :=
  match s.threads i with
  | .clearing ids => some { s.setThread i .idle with events := clearEvents ids s.events }
  | _ => none

end

def guardStep : GuardAction → Option GuardState
  | .wait now consumed =>
    if now < s.now then none else some { s with now := now, consumed := consumed }
  | .ban i minutes => banStep client s i minutes
  | .policy i op actor => policyStep s i op actor
  | .reconcile i => reconcileStep s i
  | .expiry i => expiryStep s i
  | .row i => rowStep s i
  | .read i => readStep s i
  | .decide i => decideStep client s i
  | .write i outcome => writeStep s i outcome
  | .commit i => commitStep s i
  | .clear i => clearStep s i

end

/-! ## What a step does -/

/-- The branches of a step. -/
inductive Does (client : ClientName) (s : GuardState) : GuardAction → GuardState → Prop
  | wait {now consumed} (hClock : s.now ≤ now) :
      Does client s (.wait now consumed) { s with now := now, consumed := consumed }
  | ban {i minutes} (hThread : s.threads i = .idle)
      (hListed : client.chars ∉ readBannedClients s.file) :
      Does client s (.ban i minutes) (s.setThread i
        (.banning minutes (writeBannedClients (addName (readBannedClients s.file) client.chars))))
  | banned {i minutes} (hThread : s.threads i = .idle)
      (hListed : client.chars ∈ readBannedClients s.file) :
      Does client s (.ban i minutes) (s.setThread i (.committing (some (banEnd s.now minutes))))
  | refused {i op actor} (hThread : s.threads i = .idle) : Does client s (.policy i op actor) s
  | policy {i op actor e} (hThread : s.threads i = .idle)
      (hEnter : enter op actor s.reading (s.row.getD {}) = .ok e) :
      Does client s (.policy i op actor)
        { s.setThread i (.starting (if e.reconciles then .reconcile else .drop)) with
          row := some e.row
          events :=
            if op = .unblock then s.events.map fun event => { event with released := true }
            else s.events }
  | reconcile {i} (hThread : s.threads i = .idle) :
      Does client s (.reconcile i) (s.setThread i (.starting .reconcile))
  | nothingOver {i} (hThread : s.threads i = .idle) (hIds : s.expiredIds = []) :
      Does client s (.expiry i) s
  | expiry {i} (hThread : s.threads i = .idle) (hIds : s.expiredIds ≠ []) :
      Does client s (.expiry i) (s.setThread i (.starting (.expiry s.expiredIds)))
  | row {i job} (hThread : s.threads i = .starting job) :
      Does client s (.row i) (s.setThread i (.reading job s.row))
  | read {i job row} (hThread : s.threads i = .reading job row) :
      Does client s (.read i) (s.setThread i (.holding job row s.file))
  | skip {i job row content} (hThread : s.threads i = .holding job row content)
      (hEdit : (decideOp s row job).1.editContent client.chars content = none) :
      Does client s (.decide i) { s.setThread i job.next with row := (decideOp s row job).2 }
  | decide {i job row content edited} (hThread : s.threads i = .holding job row content)
      (hEdit : (decideOp s row job).1.editContent client.chars content = some edited) :
      Does client s (.decide i)
        { s.setThread i (.writing job edited) with row := (decideOp s row job).2 }
  | banWritten {i minutes content} (hThread : s.threads i = .banning minutes content) :
      Does client s (.write i .done)
        { s.setThread i (.committing (some (banEnd s.now minutes))) with file := content }
  | banRaises {i minutes content} (hThread : s.threads i = .banning minutes content) :
      Does client s (.write i .raisesBefore) (s.setThread i (.committing none))
  | banRaisesAfter {i minutes content} (hThread : s.threads i = .banning minutes content) :
      Does client s (.write i .raisesAfter)
        { s.setThread i (.committing none) with file := content }
  | written {i job content} (hThread : s.threads i = .writing job content) :
      Does client s (.write i .done) { s.setThread i job.next with file := content }
  | raises {i job content} (hThread : s.threads i = .writing job content) :
      Does client s (.write i .raisesBefore) (s.setThread i .idle)
  | raisesAfter {i job content} (hThread : s.threads i = .writing job content) :
      Does client s (.write i .raisesAfter) { s.setThread i .idle with file := content }
  | commit {i banExpiresAt} (hThread : s.threads i = .committing banExpiresAt) :
      Does client s (.commit i)
        { s.setThread i .idle with
          events := s.events ++ [{ id := s.events.length, banExpiresAt := banExpiresAt }] }
  | clear {i ids} (hThread : s.threads i = .clearing ids) :
      Does client s (.clear i) { s.setThread i .idle with events := clearEvents ids s.events }

/-- Every step is one of `Does`. -/
theorem does_of_step {client : ClientName} {s s' : GuardState} {a : GuardAction}
    (hStep : guardStep client s a = some s') : Does client s a s' := by
  cases a with
  | wait now consumed =>
    simp only [guardStep] at hStep
    split at hStep
    · cases hStep
    · next hClock =>
      cases hStep
      exact .wait (Int.not_lt.mp hClock)
  | ban i minutes =>
    simp only [guardStep, banStep] at hStep
    split at hStep
    · next hThread =>
      cases hStep
      split
      · next hListed => exact .ban hThread hListed
      · next hListed => exact .banned hThread (not_not.mp hListed)
    · cases hStep
  | policy i op actor =>
    simp only [guardStep, policyStep] at hStep
    split at hStep
    · cases hStep
    · next hThread _ =>
      split at hStep
      · cases hStep
        exact .refused hThread
      · next e hEnter =>
        cases hStep
        exact .policy hThread hEnter
    · cases hStep
  | reconcile i =>
    simp only [guardStep, reconcileStep] at hStep
    split at hStep
    · next hThread =>
      cases hStep
      exact .reconcile hThread
    · cases hStep
  | expiry i =>
    simp only [guardStep, expiryStep] at hStep
    split at hStep
    · next hThread =>
      cases hStep
      split
      · next hIds => exact .nothingOver hThread hIds
      · next hIds => exact .expiry hThread hIds
    · cases hStep
  | row i =>
    simp only [guardStep, rowStep] at hStep
    split at hStep
    · next job hThread =>
      cases hStep
      exact .row hThread
    · cases hStep
  | read i =>
    simp only [guardStep, readStep] at hStep
    split at hStep
    · next job row hThread =>
      cases hStep
      exact .read hThread
    · cases hStep
  | decide i =>
    simp only [guardStep, decideStep] at hStep
    split at hStep
    · next job row content hThread =>
      cases hStep
      split
      · next hEdit => exact .skip hThread hEdit
      · next edited hEdit => exact .decide hThread hEdit
    · cases hStep
  | write i outcome =>
    simp only [guardStep, writeStep] at hStep
    split at hStep
    · next minutes content hThread =>
      cases outcome with
      | done => exact Option.some.inj hStep ▸ .banWritten hThread
      | raisesBefore => exact Option.some.inj hStep ▸ .banRaises hThread
      | raisesAfter => exact Option.some.inj hStep ▸ .banRaisesAfter hThread
    · next job content hThread =>
      cases outcome with
      | done => exact Option.some.inj hStep ▸ .written hThread
      | raisesBefore => exact Option.some.inj hStep ▸ .raises hThread
      | raisesAfter => exact Option.some.inj hStep ▸ .raisesAfter hThread
    · cases hStep
  | commit i =>
    simp only [guardStep, commitStep] at hStep
    split at hStep
    · next banExpiresAt hThread =>
      cases hStep
      exact .commit hThread
    · cases hStep
  | clear i =>
    simp only [guardStep, clearStep] at hStep
    split at hStep
    · next ids hThread =>
      cases hStep
      exact .clear hThread
    · cases hStep

/-! ## The law -/

/-- A committed ban has not ended, and the client was not unblocked since. -/
def Standing (s : GuardState) : Prop :=
  ∃ e ∈ s.events, ∃ t, e.banExpiresAt = some t ∧ s.now < t ∧ e.released = false

/-- A guard pass is about to commit a ban. -/
def AboutToStand (s : GuardState) : Prop :=
  ∃ i t, s.threads i = .committing (some t) ∧ s.now < t

def Idle (s : GuardState) : Prop := ∀ i, s.threads i = .idle

/-- While a ban stands the client is in the file whenever nobody works on it. -/
def HoldsItsTime (client : ClientName) (s : GuardState) : Prop :=
  Idle s → Standing s → s.listed client = true

/-- A step that ends an expiry pass. -/
def EndsExpiry (s : GuardState) : GuardAction → Prop
  | .expiry i => s.threads i = .idle ∧ s.expiredIds = []
  | .clear _ => True
  | _ => False

/-- With every ban over and nobody else at work, the client is in the file exactly when its
row or a cooldown blocks it. -/
def LiftedRight (client : ClientName) (s : GuardState) : Prop :=
  Idle s → s.guardBanActive = false →
    (s.listed client = true ↔ s.rowBlocked = true ∨ s.cooldownActive = true)

def UnderBan (s : GuardState) : Prop := Standing s ∨ AboutToStand s

/-- The client of a ban that stands, or is about to, is in the file. -/
def Kept (client : ClientName) (s : GuardState) : Prop :=
  UnderBan s → s.listed client = true

/-- A thread that is to write the file without the client, or is to take its name out whatever the
row and the bans say. -/
def Thread.Drops (client : ClientName) : Thread → Prop
  | .starting job | .reading job _ | .holding job _ _ => job = .drop
  | .writing _ content => client.chars ∉ readBannedClients content
  | _ => False

/-! ## A ban that stands -/

variable {new : Thread}

section

variable {client : ClientName} {s s' : GuardState} {a : GuardAction}

theorem listed_iff : s.listed client = true ↔ client.chars ∈ readBannedClients s.file := by
  unfold GuardState.listed Access.listed
  rw [decide_eq_true_iff]

/-- A thread of a new state is the one that the step set, or an old one. -/
theorem thread_cases {i j : Nat} {thread : Thread}
    (h : update s.threads i new j = thread) : (j = i ∧ new = thread) ∨
      (j ≠ i ∧ s.threads j = thread) := by
  by_cases hji : j = i
  · rw [hji, update_self] at h
    exact .inl ⟨hji, h⟩
  · rw [update_of_ne hji] at h
    exact .inr ⟨hji, h⟩

/-- After its edit a job is over, or has events to clear. -/
theorem next_cases (job : Job) : job.next = .idle ∨ ∃ ids, job.next = .clearing ids := by
  cases job with
  | expiry ids => exact .inr ⟨ids, rfl⟩
  | _ => exact .inl rfl

/-- A guard pass is about to write a file that names the client. -/
def BanNamed (client : ClientName) (s : GuardState) : Prop :=
  ∀ i minutes content, s.threads i = .banning minutes content →
    client.chars ∈ readBannedClients content

/-- What a ban writes names the client. -/
theorem mem_banContent (client : ClientName) (content : List Char) :
    client.chars ∈ readBannedClients
      (writeBannedClients (addName (readBannedClients content) client.chars)) := by
  have hPlain : ∀ name ∈ addName (readBannedClients content) client.chars, Plain name := by
    intro name hName
    rcases mem_addName.mp hName with hOld | rfl
    · exact plain_of_mem_read hOld
    · exact client.plain
  rw [mem_read_write hPlain, mem_addName]
  exact .inr rfl

/-- A pass that is about to write names the client it bans. -/
theorem banNamed_step (h : BanNamed client s) (hDoes : Does client s a s') :
    BanNamed client s' := by
  intro j minutes content hj
  cases hDoes with
  | wait | refused | nothingOver => exact h j minutes content hj
  | ban hThread hListed =>
    rcases thread_cases hj with ⟨-, hNew⟩ | ⟨-, hOld⟩
    · obtain ⟨-, rfl⟩ := Thread.banning.inj hNew
      exact mem_banContent client s.file
    · exact h j minutes content hOld
  | @skip i job row _ _ _ | @written i job _ _ =>
    rcases thread_cases hj with ⟨-, hNew⟩ | ⟨-, hOld⟩
    · rcases next_cases job with hNext | ⟨ids, hNext⟩ <;> rw [hNext] at hNew <;> cases hNew
    · exact h j minutes content hOld
  | _ =>
    rcases thread_cases hj with ⟨-, hNew⟩ | ⟨-, hOld⟩
    · cases hNew
    · exact h j minutes content hOld

/-- A step that sets a thread to something else than a guard pass at its commit adds none. -/
theorem aboutToStand_of_update {i : Nat} {t : GuardState}
    (hThreads : t.threads = update s.threads i new) (hNow : t.now = s.now)
    (hNew : ∀ ends, new ≠ .committing (some ends)) (h : AboutToStand t) : AboutToStand s := by
  obtain ⟨j, ends, hj, hLater⟩ := h
  rw [hThreads] at hj
  rcases thread_cases hj with ⟨-, hEq⟩ | ⟨-, hOld⟩
  · exact absurd hEq (hNew ends)
  · exact ⟨j, ends, hOld, hNow ▸ hLater⟩

theorem next_ne_committing (job : Job) (ends : Time) : job.next ≠ .committing (some ends) := by
  rcases next_cases job with hNext | ⟨ids, hNext⟩ <;> rw [hNext] <;> simp

/-- Who is in the file is kept. -/
theorem kept_of_listed (h : s.listed client = true) : Kept client s := fun _ => h

/-- A step that moves neither the file nor the bans. -/
theorem kept_of_same (hKept : Kept client s) (hFile : s'.file = s.file)
    (hUnder : UnderBan s' → UnderBan s) : Kept client s' := by
  intro hBan
  rw [listed_iff, hFile, ← listed_iff]
  exact hKept (hUnder hBan)

/-- Nobody is about to write the file without the client of a ban. -/
def DropsNone (client : ClientName) (s : GuardState) : Prop :=
  ∀ i job content, s.threads i = .writing job content →
    client.chars ∉ readBannedClients content → ¬ UnderBan s

/-- A write under a ban names the client. -/
theorem kept_write (h : DropsNone client s) {i : Nat} {job : Job} {content : List Char}
    (hThread : s.threads i = .writing job content) (hNew : ∀ ends, new ≠ .committing (some ends)) :
    Kept client { s.setThread i new with file := content } := by
  intro hUnder
  have hAbout : AboutToStand { s.setThread i new with file := content } → AboutToStand s :=
    aboutToStand_of_update rfl rfl hNew
  have hBefore : UnderBan s := hUnder.imp id hAbout
  rw [listed_iff]
  by_contra hNot
  exact h i job content hThread hNot hBefore

/-- **One step.** Only a write that leaves the client out can break a ban. -/
theorem kept_step (hNamed : BanNamed client s) (hKept : Kept client s)
    (hDrops : DropsNone client s) (hDoes : Does client s a s') : Kept client s' := by
  cases hDoes with
  | wait hClock =>
    refine kept_of_same hKept rfl ?_
    rintro (⟨e, he, t, ht, hLater, hReleased⟩ | ⟨j, t, hj, hLater⟩)
    · exact .inl ⟨e, he, t, ht, Int.lt_of_le_of_lt hClock hLater, hReleased⟩
    · exact .inr ⟨j, t, hj, Int.lt_of_le_of_lt hClock hLater⟩
  | banned hThread hListed => exact kept_of_listed (listed_iff.mpr hListed)
  | refused | nothingOver => exact hKept
  | @policy i op actor e hThread hEnter =>
    refine kept_of_same hKept rfl (Or.imp ?_ (aboutToStand_of_update rfl rfl (by simp)))
    rintro ⟨event, he, t, ht, hLater, hReleased⟩
    dsimp only at he
    split at he
    · -- an unblock releases every ban
      obtain ⟨old, -, rfl⟩ := mem_map.mp he
      cases hReleased
    · exact ⟨event, he, t, ht, hLater, hReleased⟩
  | ban | reconcile | expiry | row | read | decide | banRaises | raises =>
    exact kept_of_same hKept rfl (Or.imp_right (aboutToStand_of_update rfl rfl (by simp)))
  | @skip i job _ _ _ _ =>
    exact kept_of_same hKept rfl (Or.imp_right
      (aboutToStand_of_update rfl rfl (next_ne_committing job)))
  | @banWritten i minutes content hThread | @banRaisesAfter i minutes content hThread =>
    exact kept_of_listed (listed_iff.mpr (hNamed i minutes content hThread))
  | @written i job content hThread => exact kept_write hDrops hThread (next_ne_committing job)
  | @raisesAfter i job content hThread => exact kept_write hDrops hThread (by simp)
  | @commit i banExpiresAt hThread =>
    -- the ban that is committed was about to be
    refine kept_of_same hKept rfl ?_
    rintro (⟨e, he, t, ht, hLater, hReleased⟩ | hAbout)
    · rcases mem_append.mp he with he | he
      · exact .inl ⟨e, he, t, ht, hLater, hReleased⟩
      · obtain rfl := mem_singleton.mp he
        exact .inr ⟨i, t, by rw [hThread]; exact congrArg _ ht, hLater⟩
    · obtain ⟨j, ends, hj, hLater⟩ := hAbout
      rcases thread_cases hj with ⟨-, hNew⟩ | ⟨-, hOld⟩
      · cases hNew
      · exact .inr ⟨j, ends, hOld, hLater⟩
  | @clear i ids hThread =>
    refine kept_of_same hKept rfl (Or.imp ?_ (aboutToStand_of_update rfl rfl (by simp)))
    rintro ⟨e, he, t, ht, hLater, hReleased⟩
    obtain ⟨old, hOld, rfl⟩ := mem_map.mp he
    split at ht
    · cases ht
    · next hNot =>
      rw [if_neg hNot] at hReleased
      exact ⟨old, hOld, t, ht, hLater, hReleased⟩

/-- What is kept holds for its time. -/
theorem Kept.holds (h : Kept client s) : HoldsItsTime client s := fun _ hStanding =>
  h (.inl hStanding)

/-! ## Guard passes and operations in turn -/

/-- A guard pass between its read of the file and the commit of its event. -/
def Thread.Guarding : Thread → Prop
  | .banning _ _ => True
  | .committing _ => True
  | _ => False

/-- An operation between its call and the end of its write. -/
def Thread.Working : Thread → Prop
  | .starting _ => True
  | .reading _ _ => True
  | .holding _ _ _ => True
  | .writing _ _ => True
  | _ => False

/-- No operation begins within a ban of a guard pass, and no ban within an operation. -/
def InTurn (s : GuardState) : GuardAction → Prop
  | .ban _ _ => ∀ j, ¬ (s.threads j).Working
  | .policy _ _ _ => ∀ j, ¬ (s.threads j).Guarding
  | .reconcile _ => ∀ j, ¬ (s.threads j).Guarding
  | .expiry _ => ∀ j, ¬ (s.threads j).Guarding
  | _ => True

/-- Whoever is about to write the file without the client does so under no ban. -/
structure Serial (client : ClientName) (s : GuardState) : Prop where
  apart : ∀ i j, (s.threads i).Guarding → ¬ (s.threads j).Working
  dropping : ∀ i, (s.threads i).Drops client → ¬ Standing s

theorem guardBanActive_of_standing (h : Standing s) : s.guardBanActive = true := by
  obtain ⟨e, he, t, ht, hLater, -⟩ := h
  unfold GuardState.guardBanActive
  rw [any_eq_true]
  refine ⟨e, he, ?_⟩
  rw [ht]
  exact decide_eq_true hLater

/-- Under a ban a reconcile decides on a set with the client's name. -/
theorem decideOp_want (row : Option PolicyRow) {job : Job} (hJob : job ≠ .drop)
    (h : Standing s) : (decideOp s row job).1.want = true := by
  have hActive : s.openvpnRuntimeBanActive = true := by
    simp [GuardState.openvpnRuntimeBanActive, guardBanActive_of_standing h]
  cases job with
  | drop => exact absurd rfl hJob
  | reconcile | expiry =>
    cases row with
    | none => exact hActive
    | some loaded =>
      show (_ || s.openvpnRuntimeBanActive) = true
      rw [hActive, Bool.or_true]

def Apart (s : GuardState) : Prop := ∀ i j, (s.threads i).Guarding → ¬ (s.threads j).Working

/-- A thread that changes does not meet the others at the file. -/
theorem apart_of_update {i : Nat} {t : GuardState} (h : Apart s)
    (hThreads : t.threads = update s.threads i new) (hNot : ¬ (new.Guarding ∧ new.Working))
    (hGuarding : new.Guarding → ∀ j, ¬ (s.threads j).Working)
    (hWorking : new.Working → ∀ j, ¬ (s.threads j).Guarding) : Apart t := by
  intro j k hj hk
  rw [hThreads] at hj hk
  by_cases hji : j = i
  · rw [hji, update_self] at hj
    by_cases hki : k = i
    · rw [hki, update_self] at hk
      exact hNot ⟨hj, hk⟩
    · rw [update_of_ne hki] at hk
      exact hGuarding hj k hk
  · rw [update_of_ne hji] at hj
    by_cases hki : k = i
    · rw [hki, update_self] at hk
      exact hWorking hk j hj
    · rw [update_of_ne hki] at hk
      exact h j k hj hk

theorem not_working_next (job : Job) : ¬ job.next.Working ∧ ¬ job.next.Guarding := by
  cases job <;> exact ⟨id, id⟩

/-- Edits in turn: guard passes and other edits stay apart. -/
theorem apart_step (h : Apart s) (hTurn : InTurn s a) (hDoes : Does client s a s') : Apart s' := by
  have hWorks : ∀ i, (s.threads i).Working → ∀ j, ¬ (s.threads j).Guarding :=
    fun i hi j hj => h j i hj hi
  cases hDoes with
  | wait | refused | nothingOver => exact h
  | ban hThread hListed | banned hThread hListed =>
    exact apart_of_update h rfl (fun hBoth => hBoth.2) (fun _ => hTurn) fun hNew => hNew.elim
  | policy | reconcile | expiry =>
    exact apart_of_update h rfl (fun hBoth => hBoth.1) (fun hNew => hNew.elim) fun _ => hTurn
  | @row i job hThread | @read i job row hThread =>
    refine apart_of_update h rfl (fun hBoth => hBoth.1) (fun hNew => hNew.elim) fun _ =>
      hWorks i ?_
    rw [hThread]
    trivial
  | @skip i job row content hThread hEdit =>
    exact apart_of_update h rfl (fun hBoth => (not_working_next job).1 hBoth.2)
      (fun hNew => absurd hNew (not_working_next job).2)
      fun hNew => absurd hNew (not_working_next job).1
  | @decide i job row content edited hThread hEdit =>
    refine apart_of_update h rfl (fun hBoth => hBoth.1) (fun hNew => hNew.elim) fun _ =>
      hWorks i ?_
    rw [hThread]
    trivial
  | @banWritten i _ _ hThread | @banRaises i _ _ hThread | @banRaisesAfter i _ _ hThread =>
    refine apart_of_update h rfl (fun hBoth => hBoth.2) (fun _ j => h i j ?_) fun hNew => hNew.elim
    rw [hThread]
    trivial
  | @written i job content hThread =>
    exact apart_of_update h rfl (fun hBoth => (not_working_next job).1 hBoth.2)
      (fun hNew => absurd hNew (not_working_next job).2)
      fun hNew => absurd hNew (not_working_next job).1
  | raises | raisesAfter | commit | clear =>
    exact apart_of_update h rfl (fun hBoth => hBoth.1) (fun hNew => hNew.elim)
      fun hNew => hNew.elim

/-- Only the commit of a guard pass adds a ban. -/
theorem standing_of_does (hDoes : Does client s a s') (h : Standing s') :
    Standing s ∨ ∃ i, a = .commit i ∧ (s.threads i).Guarding := by
  obtain ⟨e, he, t, ht, hLater, hReleased⟩ := h
  cases hDoes with
  | wait hClock => exact .inl ⟨e, he, t, ht, Int.lt_of_le_of_lt hClock hLater, hReleased⟩
  | policy hThread hEnter =>
    dsimp only at he
    split at he
    · obtain ⟨old, -, rfl⟩ := mem_map.mp he
      cases hReleased
    · exact .inl ⟨e, he, t, ht, hLater, hReleased⟩
  | @commit i banExpiresAt hThread =>
    refine .inr ⟨i, rfl, ?_⟩
    rw [hThread]
    trivial
  | clear hThread =>
    obtain ⟨old, hOld, rfl⟩ := mem_map.mp he
    split at ht
    · cases ht
    · next hNot =>
      rw [if_neg hNot] at hReleased
      exact .inl ⟨old, hOld, t, ht, hLater, hReleased⟩
  | _ => exact .inl ⟨e, he, t, ht, hLater, hReleased⟩

theorem Thread.Drops.working {thread : Thread} (h : thread.Drops client) : thread.Working := by
  cases thread with
  | idle | banning | committing | clearing => exact h.elim
  | _ => trivial

theorem not_drops_next (job : Job) : ¬ job.next.Drops client := by
  cases job <;> exact id

/-- **One step in turn.** -/
theorem serial_step (h : Serial client s) (hTurn : InTurn s a) (hDoes : Does client s a s') :
    Serial client s' := by
  refine ⟨apart_step h.apart hTurn hDoes, fun j hj => ?_⟩
  -- a thread that was about to drop the name works, so that no guard pass commits
  have hOld : ∀ k, (s.threads k).Drops client → ¬ Standing s' := by
    intro k hDrops hStanding
    rcases standing_of_does hDoes hStanding with hBefore | ⟨i, -, hGuarding⟩
    · exact h.dropping k hDrops hBefore
    · exact h.apart i k hGuarding hDrops.working
  have hUpdate : ∀ {i : Nat} {new : Thread}, (update s.threads i new j).Drops client →
      (new.Drops client → ¬ Standing s') → ¬ Standing s' := by
    intro i new hDrops hNew
    by_cases hji : j = i
    · rw [hji, update_self] at hDrops
      exact hNew hDrops
    · rw [update_of_ne hji] at hDrops
      exact hOld j hDrops
  cases hDoes with
  | wait | refused | nothingOver => exact hOld j hj
  | @policy i op actor e hThread hEnter =>
    refine hUpdate hj fun hDrop => ?_
    cases hReconciles : e.reconciles with
    | true =>
      rw [hReconciles] at hDrop
      cases hDrop
    | false =>
      -- only an unblock drops the name, and it releases every ban
      rw [enter_unblock_of_drop hEnter hReconciles]
      rintro ⟨event, he, t, -, -, hReleased⟩
      obtain ⟨old, -, rfl⟩ := mem_map.mp he
      cases hReleased
  | @row i job hThread | @read i job row hThread =>
    refine hUpdate hj fun hDrop => hOld i ?_
    rw [hThread]
    exact hDrop
  | @decide i job row content edited hThread hEdit =>
    refine hUpdate hj fun hNot => ?_
    by_cases hJob : job = .drop
    · exact hOld i (by rw [hThread]; exact hJob)
    · -- a reconcile that sees the ban keeps the name
      intro hStanding
      have hBefore : Standing s := hStanding
      have hWant := decideOp_want row hJob hBefore
      have hMem := BanOp.mem_editContent hEdit client.chars
      rw [if_pos rfl] at hMem
      exact hNot (hMem.mpr hWant)
  | @skip i job _ _ _ _ | @written i job _ _ =>
    exact hUpdate hj fun hDrop => absurd hDrop (not_drops_next job)
  | reconcile | expiry => exact hUpdate hj nofun
  | _ => exact hUpdate hj fun hDrop => hDrop.elim

/-- In turn, no write takes a banned client out. -/
theorem Serial.dropsNone (h : Serial client s) : DropsNone client s := by
  intro i job content hThread hNot hUnder
  have hDrops : (s.threads i).Drops client := by
    rw [hThread]
    exact hNot
  rcases hUnder with hStanding | ⟨j, t, hj, -⟩
  · exact h.dropping i hDrops hStanding
  · refine h.apart j i ?_ hDrops.working
    rw [hj]
    trivial

end

/-! ## An expiry pass -/

/-- What a reconcile of the client would decide now. -/
def GuardState.wanted (s : GuardState) : Bool := s.rowBlocked || s.openvpnRuntimeBanActive

/-- The thread of an action. -/
def GuardAction.thread : GuardAction → Option Nat
  | .wait _ _ => none
  | .ban i _ => some i
  | .policy i _ _ => some i
  | .reconcile i => some i
  | .expiry i => some i
  | .row i => some i
  | .read i => some i
  | .decide i => some i
  | .write i _ => some i
  | .commit i => some i
  | .clear i => some i

/-- An expiry pass between its read of the row and its last commit. -/
def Thread.Lifting : Thread → Prop
  | .reading (.expiry _) _ => True
  | .holding (.expiry _) _ _ => True
  | .writing (.expiry _) _ => True
  | .clearing _ => True
  | _ => False

/-- While an expiry pass lifts a ban, nobody else changes the client's place in the file or its
row, and the clock changes nothing about them; a pass that finds no ban to lift finds the file
as it should be. -/
def Undisturbed (client : ClientName) (s : GuardState) (a : GuardAction) : Prop :=
  (∀ i, (s.threads i).Lifting → a.thread ≠ some i → ∀ s', guardStep client s a = some s' →
    s'.listed client = s.listed client ∧ s'.row = s.row ∧ s'.wanted = s.wanted) ∧
  ∀ i, a = .expiry i → s.threads i = .idle → s.expiredIds = [] →
    s.listed client = s.wanted

/-- The events that a thread is to clear. -/
def Thread.ids : Thread → List Nat
  | .starting (.expiry ids) => ids
  | .reading (.expiry ids) _ => ids
  | .holding (.expiry ids) _ _ => ids
  | .writing (.expiry ids) _ => ids
  | .clearing ids => ids
  | _ => []

/-- What an expiry pass relies on at each of its stages. -/
def Thread.Relies (client : ClientName) (s : GuardState) : Thread → Prop
  | .reading (.expiry _) row => row = s.row
  | .holding (.expiry _) row content =>
    row = s.row ∧ (client.chars ∈ readBannedClients content ↔ s.listed client = true)
  | .writing (.expiry _) content => client.chars ∈ readBannedClients content ↔ s.wanted = true
  | .clearing _ => s.listed client = s.wanted
  | _ => True

/-- The events to be cleared are over, and an event's number is its place. -/
structure Numbered (s : GuardState) : Prop where
  numbers : ∀ (k : Nat) (e : GuardEvent), s.events[k]? = some e → e.id = k
  known : ∀ i, ∀ id ∈ (s.threads i).ids, id < s.events.length
  ended : ∀ i, ∀ e ∈ s.events, e.id ∈ (s.threads i).ids → ∀ t, e.banExpiresAt = some t → t ≤ s.now

section

variable {client : ClientName} {s s' : GuardState} {a : GuardAction}

/-- With the row read still current, an expiry pass commits the row it decided on, and wants of
the file what that row and the bans call for. -/
theorem decideOp_wanted (ids : List Nat) :
    (decideOp s s.row (.expiry ids)).1.want =
      { s with row := (decideOp s s.row (.expiry ids)).2 }.wanted := by
  cases hRow : s.row with
  | none =>
    show s.openvpnRuntimeBanActive = _
    simp only [decideOp, hRow]
    rfl
  | some row =>
    have hCommitted : (decideOp s (some row) (.expiry ids)).2 =
        some (reconcileOpenvpn row s.reading false).1 := by
      show (if (reconcileOpenvpn row s.reading false).2 = true then
        s.row.map (updateColumns row (reconcileOpenvpn row s.reading false).1) else s.row) = _
      rw [hRow]
      split
      · rw [Option.map_some, updateColumns_self]
      · next hClean => rw [reconcileOpenvpn_unchanged (by simpa using hClean)]
    rw [hCommitted]
    rfl

/-- A step moves one thread. -/
theorem threads_of_step {i : Nat} (hDoes : Does client s a s') (h : a.thread ≠ some i) :
    s'.threads i = s.threads i := by
  cases hDoes with
  | wait | refused | nothingOver => rfl
  | _ =>
    refine update_of_ne ?_ _ _
    rintro rfl
    exact h rfl

/-- A step gives a thread no other events to clear than it had, or the expired ones. -/
theorem ids_of_step (hDoes : Does client s a s') {i id : Nat} (h : id ∈ (s'.threads i).ids) :
    id ∈ (s.threads i).ids ∨ id ∈ s.expiredIds := by
  have hUpdate : ∀ {j : Nat} {new : Thread}, id ∈ (update s.threads j new i).ids →
      (id ∈ new.ids → id ∈ (s.threads j).ids ∨ id ∈ s.expiredIds) →
      id ∈ (s.threads i).ids ∨ id ∈ s.expiredIds := by
    intro j new hMem hNew
    by_cases hij : i = j
    · subst hij
      rw [update_self] at hMem
      exact hNew hMem
    · rw [update_of_ne hij] at hMem
      exact .inl hMem
  cases hDoes with
  | wait | refused | nothingOver => exact .inl h
  | policy =>
    refine hUpdate h fun hMem => ?_
    split at hMem <;> cases hMem
  | expiry => exact hUpdate h .inr
  | @row j job hThread | @read j job _ hThread =>
    refine hUpdate h fun hMem => .inl ?_
    rw [hThread]
    cases job <;> exact hMem
  | @decide j job _ _ _ hThread _ =>
    refine hUpdate h fun hMem => .inl ?_
    rw [hThread]
    cases job <;> exact hMem
  | @skip j job _ _ hThread _ | @written j job _ hThread =>
    refine hUpdate h fun hMem => .inl ?_
    rw [hThread]
    cases job <;> exact hMem
  | _ => exact hUpdate h nofun

/-- The events after a step: the old ones, some without their end, and those of a commit. -/
theorem events_of_step (hDoes : Does client s a s') (k : Nat) (e : GuardEvent)
    (h : s'.events[k]? = some e) :
    (∃ old, s.events[k]? = some old ∧ e.id = old.id ∧
      (e.banExpiresAt = old.banExpiresAt ∨ e.banExpiresAt = none)) ∨
    (k = s.events.length ∧ e.id = k) := by
  have hSame : s.events[k]? = some e → (∃ old, s.events[k]? = some old ∧ e.id = old.id ∧
      (e.banExpiresAt = old.banExpiresAt ∨ e.banExpiresAt = none)) ∨
      (k = s.events.length ∧ e.id = k) := fun hOld => .inl ⟨e, hOld, rfl, .inl rfl⟩
  cases hDoes with
  | policy =>
    dsimp only at h
    split at h
    · rw [List.getElem?_map, Option.map_eq_some_iff] at h
      obtain ⟨old, hOld, rfl⟩ := h
      exact .inl ⟨old, hOld, rfl, .inl rfl⟩
    · exact hSame h
  | commit =>
    rw [List.getElem?_append] at h
    split at h
    · exact hSame h
    · next hLength =>
      rw [List.getElem?_singleton] at h
      split at h
      · next hZero =>
        cases h
        exact .inr ⟨by omega, by show s.events.length = k; omega⟩
      · cases h
  | clear =>
    rw [clearEvents, List.getElem?_map, Option.map_eq_some_iff] at h
    obtain ⟨old, hOld, rfl⟩ := h
    refine .inl ⟨old, hOld, ?_, ?_⟩ <;> split
    · rfl
    · rfl
    · exact .inr rfl
    · exact .inl rfl
  | _ => exact hSame h

theorem now_le_of_step (hDoes : Does client s a s') : s.now ≤ s'.now := by
  cases hDoes with
  | wait hClock => exact hClock
  | _ => exact Int.le_refl _

theorem length_le_of_step (hDoes : Does client s a s') : s.events.length ≤ s'.events.length := by
  cases hDoes with
  | policy =>
    dsimp only
    split
    · rw [length_map]
    · exact Nat.le_refl _
  | commit =>
    rw [length_append]
    exact Nat.le_add_right _ _
  | clear =>
    rw [clearEvents, length_map]
  | _ => exact Nat.le_refl _

/-- What is looked for as expired is over. -/
theorem expired_of_mem (h : Numbered s) {e : GuardEvent} (he : e ∈ s.events)
    (hId : e.id ∈ s.expiredIds) : ∀ t, e.banExpiresAt = some t → t ≤ s.now := by
  intro t ht
  obtain ⟨other, hOther, hSame⟩ := mem_map.mp hId
  rw [mem_filter] at hOther
  obtain ⟨k, hk⟩ := mem_iff_getElem?.mp he
  obtain ⟨k', hk'⟩ := mem_iff_getElem?.mp hOther.1
  have hPlace : k = k' := by
    rw [← h.numbers k e hk, ← h.numbers k' other hk', hSame]
  rw [hPlace, hk'] at hk
  cases hk
  rw [ht] at hOther
  exact of_decide_eq_true hOther.2

theorem expiredIds_lt (h : Numbered s) {id : Nat} (hId : id ∈ s.expiredIds) :
    id < s.events.length := by
  obtain ⟨e, he, rfl⟩ := mem_map.mp hId
  obtain ⟨k, hk⟩ := mem_iff_getElem?.mp (mem_filter.mp he).1
  rw [h.numbers k e hk]
  exact (List.getElem?_eq_some_iff.mp hk).1

/-- Events keep their places, and what is to be cleared is over. -/
theorem numbered_step (h : Numbered s) (hDoes : Does client s a s') : Numbered s' := by
  have hKnown : ∀ i, ∀ id ∈ (s'.threads i).ids, id < s.events.length := by
    intro i id hId
    rcases ids_of_step hDoes hId with hOld | hExpired
    · exact h.known i id hOld
    · exact expiredIds_lt h hExpired
  refine ⟨?_, fun i id hId => Nat.lt_of_lt_of_le (hKnown i id hId) (length_le_of_step hDoes), ?_⟩
  · intro k e hk
    rcases events_of_step hDoes k e hk with ⟨old, hOld, hId, -⟩ | ⟨-, hId⟩
    · rw [hId, h.numbers k old hOld]
    · exact hId
  · intro i e he hId t ht
    obtain ⟨k, hk⟩ := mem_iff_getElem?.mp he
    rcases events_of_step hDoes k e hk with ⟨old, hOld, hSame, hEnds⟩ | ⟨hPlace, hNew⟩
    · have hEnd : old.banExpiresAt = some t := by
        rcases hEnds with hEnds | hEnds
        · rw [← hEnds, ht]
        · rw [hEnds] at ht
          cases ht
      have hMem : old ∈ s.events := mem_iff_getElem?.mpr ⟨k, hOld⟩
      refine Int.le_trans ?_ (now_le_of_step hDoes)
      rw [hSame] at hId
      rcases ids_of_step hDoes hId with hBefore | hExpired
      · exact h.ended i old hMem hBefore t hEnd
      · exact expired_of_mem h hMem hExpired t hEnd
    · have hLt := hKnown i e.id hId
      omega

/-- A thread that lifts no ban relies on nothing. -/
theorem relies_of_not_lifting {thread : Thread} (h : ¬ thread.Lifting) :
    thread.Relies client s := by
  cases thread with
  | reading job row | holding job row content | writing job content =>
    cases job with
    | expiry ids => exact absurd trivial h
    | _ => trivial
  | clearing ids => exact absurd trivial h
  | _ => trivial

/-- A step that leaves row and file alone leaves what a pass relies on. -/
theorem relies_of_same {thread : Thread} (h : thread.Relies client s)
    (hListed : s'.listed client = s.listed client) (hRow : s'.row = s.row)
    (hWanted : s'.wanted = s.wanted) : thread.Relies client s' := by
  cases thread with
  | reading job row =>
    cases job with
    | expiry ids =>
      show row = s'.row
      rw [hRow]
      exact h
    | _ => trivial
  | holding job row content =>
    cases job with
    | expiry ids =>
      show row = s'.row ∧ (_ ↔ s'.listed client = true)
      rw [hListed, hRow]
      exact h
    | _ => trivial
  | writing job content =>
    cases job with
    | expiry ids =>
      show _ ↔ s'.wanted = true
      rw [hWanted]
      exact h
    | _ => trivial
  | clearing ids =>
    show s'.listed client = s'.wanted
    rw [hListed, hWanted]
    exact h
  | _ => trivial

/-- What a thread relies on after its own step. -/
theorem relies_own {i : Nat} (h : (s.threads i).Relies client s) (hDoes : Does client s a s')
    (hThread : a.thread = some i) : (s'.threads i).Relies client s' := by
  have hUpdate : ∀ {t : GuardState} {new : Thread}, t.threads = update s.threads i new →
      new.Relies client t → (t.threads i).Relies client t := by
    intro t new hThreads hNew
    rw [hThreads, update_self]
    exact hNew
  cases hDoes with
  | wait => cases hThread
  | refused | nothingOver => exact (Option.some.inj hThread) ▸ h
  | policy =>
    cases hThread
    refine hUpdate rfl ?_
    split <;> trivial
  | @row j job hStarting =>
    cases hThread
    refine hUpdate rfl ?_
    cases job with
    | expiry ids => exact (rfl : s.row = s.row)
    | _ => trivial
  | @read j job row hReading =>
    cases hThread
    refine hUpdate rfl ?_
    cases job with
    | expiry ids =>
      rw [hReading] at h
      exact ⟨h, listed_iff.symm⟩
    | _ => trivial
  | @skip j job row content hHolding hEdit =>
    -- nothing to edit: the file as read is already as the row asks
    cases hThread
    refine hUpdate rfl ?_
    cases job with
    | expiry ids =>
      rw [hHolding] at h
      obtain ⟨rfl, hListed⟩ := h
      rw [BanOp.editContent, Option.map_eq_none_iff] at hEdit
      have hMem := BanOp.mem_of_edit_none hEdit
      rw [hListed, decideOp_wanted ids, ← Bool.eq_iff_iff] at hMem
      exact hMem
    | _ => trivial
  | @decide j job row content edited hHolding hEdit =>
    -- the edited text names the client as the decision asks
    cases hThread
    refine hUpdate rfl ?_
    cases job with
    | expiry ids =>
      rw [hHolding] at h
      obtain ⟨rfl, -⟩ := h
      have hMem := BanOp.mem_editContent hEdit client.chars
      rw [if_pos rfl, decideOp_wanted ids] at hMem
      exact hMem
    | _ => trivial
  | @written j job content hWriting =>
    cases hThread
    refine hUpdate rfl ?_
    cases job with
    | expiry ids =>
      rw [hWriting] at h
      rw [Job.next]
      show GuardState.listed client _ = _
      rw [Bool.eq_iff_iff, listed_iff]
      exact h
    | _ => trivial
  | _ =>
    cases hThread
    exact hUpdate rfl trivial

/-- **One step of an expiry pass, or beside it.** -/
theorem relies_step (h : ∀ i, (s.threads i).Relies client s)
    (hUndisturbed : Undisturbed client s a) (hStep : guardStep client s a = some s') (i : Nat) :
    (s'.threads i).Relies client s' := by
  have hDoes := does_of_step hStep
  by_cases hThread : a.thread = some i
  · exact relies_own (h i) hDoes hThread
  · rw [threads_of_step hDoes hThread]
    by_cases hLifting : (s.threads i).Lifting
    · obtain ⟨hListed, hRow, hWanted⟩ := hUndisturbed.1 i hLifting hThread s' hStep
      exact relies_of_same (h i) hListed hRow hWanted
    · exact relies_of_not_lifting hLifting

/-- **The end of an expiry pass.** -/
theorem lifted_of_relies (hNumbered : Numbered s) (h : ∀ i, (s.threads i).Relies client s)
    (hUndisturbed : Undisturbed client s a) (hEnds : EndsExpiry s a)
    (hStep : guardStep client s a = some s') : LiftedRight client s' := by
  intro _ hOver
  have hDoes := does_of_step hStep
  have hIff : ∀ t : GuardState, t.guardBanActive = false → t.listed client = t.wanted →
      (t.listed client = true ↔ t.rowBlocked = true ∨ t.cooldownActive = true) := by
    intro t hNone hListed
    rw [hListed]
    simp [GuardState.wanted, GuardState.openvpnRuntimeBanActive, hNone]
  cases hDoes with
  | nothingOver hThread hIds => exact hIff _ hOver (hUndisturbed.2 _ rfl hThread hIds)
  | @clear i ids hThread =>
    have hListed := h i
    rw [hThread] at hListed
    have hNone : s.guardBanActive = false := by
      rw [← Bool.not_eq_true]
      intro hActive
      obtain ⟨e, he, hLater⟩ := any_eq_true.mp hActive
      rw [Option.any_eq_true] at hLater
      obtain ⟨t, ht, hLater⟩ := hLater
      have hLater := of_decide_eq_true hLater
      have hKept : e.id ∉ ids := by
        intro hId
        have hLe := hNumbered.ended i e he (by rw [hThread]; exact hId) t ht
        exact Int.not_lt.mpr hLe hLater
      refine Bool.eq_false_iff.mp hOver (any_eq_true.mpr ⟨e, ?_, ?_⟩)
      · exact mem_map.mpr ⟨e, he, if_neg hKept⟩
      · rw [ht]
        exact decide_eq_true hLater
    exact hIff s hNone hListed
  | expiry hThread hIds => exact absurd hEnds.2 hIds
  | _ => cases hEnds

end

/-! ## Runs -/

/-- Nobody works on the client, and a ban that stands has its name in the file. -/
structure Start (client : ClientName) (s : GuardState) : Prop where
  idle : Idle s
  numbers : ∀ (k : Nat) (e : GuardEvent), s.events[k]? = some e → e.id = k
  listed : Standing s → s.listed client = true

section

variable {client : ClientName} {s : GuardState}

theorem Start.kept (h : Start client s) : Kept client s := by
  rintro (hStanding | ⟨i, t, hi, -⟩)
  · exact h.listed hStanding
  · rw [h.idle i] at hi
    cases hi

theorem Start.banNamed (h : Start client s) : BanNamed client s := by
  intro i minutes content hi
  rw [h.idle i] at hi
  cases hi

theorem Start.serial (h : Start client s) : Serial client s where
  apart i j hi := by
    rw [h.idle i] at hi
    exact hi.elim
  dropping i hi := by
    rw [h.idle i] at hi
    exact hi.elim

theorem Start.numbered (h : Start client s) : Numbered s where
  numbers := h.numbers
  known i id hId := by
    rw [h.idle i] at hId
    cases hId
  ended i e _ hId := by
    rw [h.idle i] at hId
    cases hId

theorem Start.relies (h : Start client s) (i : Nat) : (s.threads i).Relies client s := by
  rw [h.idle i]
  trivial

end

/-- What a run in turn keeps. -/
structure Sealed (client : ClientName) (s : GuardState) : Prop where
  named : BanNamed client s
  kept : Kept client s
  serial : Serial client s

def Lifts (client : ClientName) (s : GuardState) : Prop :=
  Numbered s ∧ ∀ i, (s.threads i).Relies client s

def quietClient : GuardState := { now := 0 }

theorem quietClient_start : Start alice quietClient where
  idle _ := rfl
  numbers k e h := by simp [quietClient] at h
  listed := by
    rintro ⟨e, he, -⟩
    simp [quietClient] at he

/-- A reconcile between the write of a guard pass and its commit. -/
def reconciledTooEarly : List GuardAction :=
  [.ban 0 60, .write 0 .done, .reconcile 1, .row 1, .read 1, .decide 1, .write 1 .done, .commit 0]

/-- A guard pass whose write raises once the file is written, and an expiry pass an hour on. -/
def banWithoutEvent : List GuardAction :=
  [.ban 0 60, .write 0 .raisesAfter, .commit 0, .wait 3600000000 fun _ => 0, .expiry 1]

end AdminPanel.Guard
