import AdminPanel.NodeSync.SyncStatus

/-!
# Tasks of a sync group

A setup or shared-domain request reads the status of the group, creates and submits its
task, and commits `pending` only then; a task commits its final status before its own row
says that it ended. Other writers ask `group_is_pending` and commit in a second step.

* `TasksState`, `taskStep` — the group row, the tasks, the requests and the writers, each
  database read and commit a step of its own;
* `OneTask` — at most one task, `pending` while there is one, not `pending` without;
* `Situation` — the five phases that a group goes through when the steps of different
  threads do not interleave at their weak points;
* `one_task_at_a_time` — a run meets `OneTask` in every state only if it creates no task;
  with `Serial` steps it does in every state outside the two windows.
-/

namespace AdminPanel.NodeSync.Tasks

open Function Lib
open Status (SyncStatus)

/-! ## State -/

inductive TaskKind
  | setup
  | sharedDomain
  deriving DecidableEq, Repr

/-- Where a task is; `loaded` and `failing` carry the status in its session. -/
inductive TaskPhase
  | absent
  | queued
  | started
  | loaded (status : SyncStatus)
  | pushing
  | failing (status : SyncStatus)
  /-- The final status is committed, the row still says running. -/
  | settled
  /-- The process died; the row stays as it was. -/
  | dead
  | ended
  deriving DecidableEq, Repr

/-- The status of the row is one of `ACTIVE_TASK_STATUSES`. -/
def TaskPhase.active : TaskPhase → Bool
  | .absent => false
  | .ended => false
  | _ => true

structure Task where
  kind : TaskKind := .setup
  phase : TaskPhase := .absent
  deriving DecidableEq, Repr

/-- A request past its guard, and past the commit of its task. -/
inductive Request
  | none
  | passed (kind : TaskKind)
  | enqueued (task : Nat)
  deriving DecidableEq, Repr

/-- A thread that writes the status: `finalize_replicate_outcome`, the crypto copy, the
check of a group and the reconcile ask `group_is_pending` first; `recover_stuck_pending_groups`
asks for the task. The status in the session is `none` once it has expired. -/
inductive Writer
  | none
  | loaded (status : Option SyncStatus)
  | checked (status : Option SyncStatus)
  | foundStuck (task : Option Nat)
  | taskGone
  deriving DecidableEq, Repr

structure TasksState where
  syncStatus : SyncStatus
  lastSyncTaskId : Option Nat := none
  tasks : Nat → Task := fun _ => {}
  nextTask : Nat := 0
  requests : Nat → Request := fun _ => .none
  writers : Nat → Writer := fun _ => .none

/-- What a writer commits. -/
inductive Verdict
  | synced
  | failed
  | drift
  deriving DecidableEq, Repr

def Verdict.status : Verdict → SyncStatus
  | .synced => .synced
  | .failed => .failed
  | .drift => .drift

def TasksState.setTask (s : TasksState) (t : Nat) (task : Task) : TasksState :=
  { s with tasks := update s.tasks t task }

def TasksState.setRequest (s : TasksState) (r : Nat) (request : Request) : TasksState :=
  { s with requests := update s.requests r request }

def TasksState.setWriter (s : TasksState) (w : Nat) (writer : Writer) : TasksState :=
  { s with writers := update s.writers w writer }

/-- The `UPDATE` of a session: a column that has its loaded value is not written. -/
def TasksState.write (s : TasksState) (loaded : Option SyncStatus) (status : SyncStatus) :
    TasksState :=
  if loaded = some status then s else { s with syncStatus := status }

/-! ## Steps -/

inductive TaskAction
  /-- `setup_sync_group` or `apply_shared_domain_endpoint` up to its guard. -/
  | read (r : Nat) (kind : TaskKind)
  /-- `enqueue_background_task`: the row is committed, the task submitted. -/
  | enqueue (r : Nat)
  | commit (r : Nat)
  /-- A failed preflight, an exception or the death of the request. -/
  | giveUp (r : Nat)
  | start (t : Nat)
  /-- The group is loaded, or reloaded after a commit of the task. -/
  | load (t : Nat)
  /-- The `pending` of `run_push_full`. -/
  | push (t : Nat)
  | settle (t : Nat) (success : Bool)
  /-- An exception, and `mark_group_sync_failed` up to its read. -/
  | raise (t : Nat)
  | markFailed (t : Nat)
  /-- The last commit of the task fails. -/
  | dropWrite (t : Nat)
  | finish (t : Nat)
  | die (t : Nat)
  /-- `recover_stale_running_tasks` -/
  | recoverStale (t : Nat)
  | writerLoad (w : Nat) (expired : Bool)
  | writerCheck (w : Nat)
  | writerCommit (w : Nat) (verdict : Verdict)
  | findStuck (w : Nat)
  | checkStuck (w : Nat)
  | commitStuck (w : Nat)
  | writerStop (w : Nat)
  deriving DecidableEq, Repr

section

variable (s : TasksState)

/-- The steps of a request. -/
def readStep (r : Nat) (kind : TaskKind) : Option TasksState :=
  match s.requests r with
  | .none => some (if s.syncStatus = .pending then s else s.setRequest r (.passed kind))
  | _ => none

def enqueueStep (r : Nat) : Option TasksState :=
  match s.requests r with
  | .passed kind =>
    some { (s.setTask s.nextTask ⟨kind, .queued⟩).setRequest r (.enqueued s.nextTask) with
      nextTask := s.nextTask + 1 }
  | _ => none

def commitStep (r : Nat) : Option TasksState :=
  match s.requests r with
  | .enqueued t =>
    some { s.setRequest r .none with syncStatus := .pending, lastSyncTaskId := some t }
  | _ => none

def giveUpStep (r : Nat) : Option TasksState :=
  match s.requests r with
  | .none => none
  | _ => some (s.setRequest r .none)

section

variable (t : Nat)

/-- What a task does before its last commit. -/
def workStep (before after : TaskPhase) : Option TasksState :=
  if (s.tasks t).phase = before then some (s.setTask t { s.tasks t with phase := after }) else none

def startStep : Option TasksState := workStep s t .queued .started

def loadStep : Option TasksState :=
  match (s.tasks t).phase with
  | .started => some (s.setTask t { s.tasks t with phase := .loaded s.syncStatus })
  | .loaded _ => some (s.setTask t { s.tasks t with phase := .loaded s.syncStatus })
  | _ => none

def pushStep : Option TasksState :=
  match s.tasks t with
  | ⟨.setup, .loaded status⟩ =>
    some ((s.write (some status) .pending).setTask t ⟨.setup, .pushing⟩)
  | _ => none

/-- The last commit. A setup writes an expired column; a shared-domain task that succeeds
lifts the `pending` that it sees. -/
def settleStep (success : Bool) : Option TasksState :=
  match s.tasks t with
  | ⟨.setup, .pushing⟩ =>
    some ((s.write none (if success then .synced else .failed)).setTask t ⟨.setup, .settled⟩)
  | ⟨.sharedDomain, .loaded status⟩ =>
    let written :=
      if success then if status = .pending then s.write (some status) .synced else s
      else s.write (some status) .failed
    some (written.setTask t ⟨.sharedDomain, .settled⟩)
  | _ => none

def raiseStep : Option TasksState :=
  match (s.tasks t).phase with
  | .loaded _ => some (s.setTask t { s.tasks t with phase := .failing s.syncStatus })
  | .pushing => some (s.setTask t { s.tasks t with phase := .failing s.syncStatus })
  | _ => none

def markFailedStep : Option TasksState :=
  match (s.tasks t).phase with
  | .failing status =>
    some ((s.write (some status) .failed).setTask t { s.tasks t with phase := .settled })
  | _ => none

def dropWriteStep : Option TasksState :=
  match (s.tasks t).phase with
  | .started => some (s.setTask t { s.tasks t with phase := .settled })
  | .loaded _ => some (s.setTask t { s.tasks t with phase := .settled })
  | .pushing => some (s.setTask t { s.tasks t with phase := .settled })
  | .failing _ => some (s.setTask t { s.tasks t with phase := .settled })
  | _ => none

def finishStep : Option TasksState := workStep s t .settled .ended

def dieStep : Option TasksState :=
  if (s.tasks t).phase.active then some (s.setTask t { s.tasks t with phase := .dead }) else none

def recoverStaleStep : Option TasksState := workStep s t .dead .ended

end

/-- A writer that finds the group pending leaves it. -/
def writerCheckStep (w : Nat) : Option TasksState :=
  match s.writers w with
  | .loaded status =>
    some (s.setWriter w (if s.syncStatus = .pending then .none else .checked status))
  | _ => none

def writerCommitStep (w : Nat) (verdict : Verdict) : Option TasksState :=
  match s.writers w with
  | .checked status => some ((s.write status verdict.status).setWriter w .none)
  | _ => none

def checkStuckStep (w : Nat) : Option TasksState :=
  match s.writers w with
  | .foundStuck task =>
    some (s.setWriter w (if task.any fun t => (s.tasks t).phase.active then .none else .taskGone))
  | _ => none

def commitStuckStep (w : Nat) : Option TasksState :=
  match s.writers w with
  | .taskGone => some ((s.write (some .pending) .failed).setWriter w .none)
  | _ => none

def taskStep : TaskAction → Option TasksState
  | .read r kind => readStep s r kind
  | .enqueue r => enqueueStep s r
  | .commit r => commitStep s r
  | .giveUp r => giveUpStep s r
  | .start t => startStep s t
  | .load t => loadStep s t
  | .push t => pushStep s t
  | .settle t success => settleStep s t success
  | .raise t => raiseStep s t
  | .markFailed t => markFailedStep s t
  | .dropWrite t => dropWriteStep s t
  | .finish t => finishStep s t
  | .die t => dieStep s t
  | .recoverStale t => recoverStaleStep s t
  | .writerLoad w expired =>
    if s.writers w = .none then
      some (s.setWriter w (.loaded (if expired then none else some s.syncStatus)))
    else none
  | .writerCheck w => writerCheckStep s w
  | .writerCommit w verdict => writerCommitStep s w verdict
  | .findStuck w =>
    if s.writers w = .none ∧ s.syncStatus = .pending then
      some (s.setWriter w (.foundStuck s.lastSyncTaskId))
    else none
  | .checkStuck w => checkStuckStep s w
  | .commitStuck w => commitStuckStep s w
  | .writerStop w => some (s.setWriter w .none)

end

/-! ## The law -/

/-- The row of the task says queued or running. -/
def TasksState.Active (s : TasksState) (t : Nat) : Prop := (s.tasks t).phase.active = true

structure OneTask (s : TasksState) : Prop where
  one : ∀ t u, s.Active t → s.Active u → t = u
  pending : ∀ t, s.Active t → s.syncStatus = .pending
  ended : (∀ t, ¬ s.Active t) → s.syncStatus ≠ .pending

/-- A request between its two commits, or a task between its last two. -/
def TasksState.InWindow (s : TasksState) : Prop :=
  (∃ r t, s.requests r = .enqueued t) ∨ ∃ t, (s.tasks t).phase = .settled

/-- The law but for the windows. -/
structure OneTaskOutside (s : TasksState) : Prop where
  one : ∀ t u, s.Active t → s.Active u → t = u
  outside : ¬ s.InWindow → ((∃ t, s.Active t) ↔ s.syncStatus = .pending)

/-- No thread is at work on the group. -/
structure AtRest (s : TasksState) : Prop where
  noTask : ∀ t, ¬ s.Active t
  noRequest : ∀ r, s.requests r = .none
  noWriter : ∀ w, s.writers w = .none
  notPending : s.syncStatus ≠ .pending

def TaskAction.Creates : TaskAction → Prop
  | .enqueue _ => True
  | _ => False

/-- A writer between its check and its commit, or with a group that it found stuck. -/
def Writer.busy : Writer → Bool
  | .none => false
  | .loaded _ => false
  | _ => true

/-- The step does not come at a weak point of another thread: a request reads alone, and
only when the last task has ended; its task waits for its commit; no writer is about to
write then; no process dies and no commit fails. -/
def Serial (s : TasksState) : TaskAction → Prop
  | .read _ _ => s.syncStatus = .pending ∨ (∀ r, s.requests r = .none) ∧ ∀ t, ¬ s.Active t
  | .commit _ => ∀ w, (s.writers w).busy = false
  | .giveUp r => ∀ t, s.requests r ≠ .enqueued t
  | .start t => ∀ r, s.requests r ≠ .enqueued t
  | .dropWrite _ => False
  | .die _ => False
  | _ => True

/-! ## Runs that create no task -/

/-- The task that an action is a step of. -/
def TaskAction.task : TaskAction → Option Nat
  | .start t => some t
  | .load t => some t
  | .push t => some t
  | .settle t _ => some t
  | .raise t => some t
  | .markFailed t => some t
  | .dropWrite t => some t
  | .finish t => some t
  | .die t => some t
  | .recoverStale t => some t
  | _ => none

variable {phase : TaskPhase} {a : TaskAction}

section

variable {s s' : TasksState} {t : Nat}

theorem workStep_some {before after : TaskPhase} (h : workStep s t before after = some s') :
    (s.tasks t).phase = before ∧ s' = s.setTask t { s.tasks t with phase := after } := by
  unfold workStep at h
  split at h
  · next hPhase => exact ⟨hPhase, (Option.some.inj h).symm⟩
  · simp at h

theorem active_of_phase (h : (s.tasks t).phase = phase)
    (hActive : phase.active = true) : s.Active t := by
  show (s.tasks t).phase.active = true
  rw [h, hActive]

/-- Only an active task takes a step. -/
theorem task_active (h : taskStep s a = some s') (hTask : a.task = some t) : s.Active t := by
  cases a <;> simp only [TaskAction.task, Option.some.injEq, reduceCtorEq] at hTask <;> subst hTask
  case start => exact active_of_phase (workStep_some h).1 rfl
  case finish => exact active_of_phase (workStep_some h).1 rfl
  case recoverStale => exact active_of_phase (workStep_some h).1 rfl
  case load =>
    simp only [taskStep, loadStep] at h
    split at h
    · next hPhase => exact active_of_phase hPhase rfl
    · next hPhase => exact active_of_phase hPhase rfl
    · simp at h
  case push =>
    simp only [taskStep, pushStep] at h
    split at h
    · next hRow => exact active_of_phase (congrArg Task.phase hRow) rfl
    · simp at h
  case settle =>
    simp only [taskStep, settleStep] at h
    split at h
    · next hRow => exact active_of_phase (congrArg Task.phase hRow) rfl
    · next hRow => exact active_of_phase (congrArg Task.phase hRow) rfl
    · simp at h
  case raise =>
    simp only [taskStep, raiseStep] at h
    split at h
    · next hPhase => exact active_of_phase hPhase rfl
    · next hPhase => exact active_of_phase hPhase rfl
    · simp at h
  case markFailed =>
    simp only [taskStep, markFailedStep] at h
    split at h
    · next hPhase => exact active_of_phase hPhase rfl
    · simp at h
  case dropWrite =>
    simp only [taskStep, dropWriteStep] at h
    split at h
    · next hPhase => exact active_of_phase hPhase rfl
    · next hPhase => exact active_of_phase hPhase rfl
    · next hPhase => exact active_of_phase hPhase rfl
    · next hPhase => exact active_of_phase hPhase rfl
    · simp at h
  case die =>
    simp only [taskStep, dieStep] at h
    split at h
    · next hPhase => exact hPhase
    · simp at h

/-- The writer that an action is a step of. -/
def TaskAction.writer : TaskAction → Option Nat
  | .writerLoad w _ => some w
  | .writerCheck w => some w
  | .writerCommit w _ => some w
  | .findStuck w => some w
  | .checkStuck w => some w
  | .commitStuck w => some w
  | .writerStop w => some w
  | _ => none

/-- The writer is not about to write a group whose task is `last`. -/
def Writer.Waits (last : Option Nat) : Writer → Prop
  | .none => True
  | .loaded _ => True
  | .checked _ => False
  | .foundStuck task => task = last
  | .taskGone => False

theorem write_cases (s : TasksState) (loaded : Option SyncStatus) (status : SyncStatus) :
    s.write loaded status = s ∨ s.write loaded status = { s with syncStatus := status } := by
  unfold TasksState.write
  split
  · exact .inl rfl
  · exact .inr rfl

theorem verdict_not_pending (verdict : Verdict) : verdict.status ≠ .pending := by
  cases verdict <;> simp [Verdict.status]

/-- A writer that goes on waiting, or one that writes a status other than `pending`. -/
theorem writer_cases {w : Nat} (h : taskStep s a = some s') (hWriter : a.writer = some w) :
    (∃ x, s' = s.setWriter w x ∧
      (s.syncStatus = .pending → (s.writers w).Waits s.lastSyncTaskId →
        (∃ t, s.lastSyncTaskId = some t ∧ s.Active t) → x.Waits s.lastSyncTaskId)) ∨
    (¬ (s.writers w).Waits s.lastSyncTaskId ∧ ∃ status, status ≠ .pending ∧
      s' = TasksState.setWriter { s with syncStatus := status } w .none) := by
  cases a <;> simp only [TaskAction.writer, Option.some.injEq, reduceCtorEq] at hWriter <;>
    subst hWriter
  case writerLoad w expired =>
    simp only [taskStep] at h
    split at h
    · exact .inl ⟨_, (Option.some.inj h).symm, fun _ _ _ => trivial⟩
    · simp at h
  case writerCheck w =>
    -- a group that is pending is left alone
    simp only [taskStep, writerCheckStep] at h
    split at h
    · refine .inl ⟨_, (Option.some.inj h).symm, ?_⟩
      intro hPending _ _
      rw [if_pos hPending]
      trivial
    · simp at h
  case writerCommit w verdict =>
    simp only [taskStep, writerCommitStep] at h
    split at h
    · next status hChecked =>
      cases h
      -- the write reaches the row only if the status it read is not the verdict
      rcases write_cases s status verdict.status with hWrite | hWrite
      · exact .inl ⟨.none, by rw [hWrite], fun _ _ _ => trivial⟩
      · refine .inr ⟨?_, verdict.status, verdict_not_pending verdict, by rw [hWrite]⟩
        rw [hChecked]
        exact id
    · simp at h
  case findStuck w =>
    simp only [taskStep] at h
    split at h
    · exact .inl ⟨_, (Option.some.inj h).symm, fun _ _ _ => rfl⟩
    · simp at h
  case checkStuck w =>
    simp only [taskStep, checkStuckStep] at h
    split at h
    · next task hFound =>
      refine .inl ⟨_, (Option.some.inj h).symm, ?_⟩
      -- the task found is the last one, which still runs, so the check stops
      rintro - hWaits ⟨t, hLast, hActive⟩
      rw [hFound] at hWaits
      have hTask : task = some t := hWaits.trans hLast
      have hAny : (task.any fun t => (s.tasks t).phase.active) = true := by
        rw [hTask]
        exact hActive
      rw [if_pos hAny]
      trivial
    · simp at h
  case commitStuck w =>
    simp only [taskStep, commitStuckStep] at h
    split at h
    · next hGone =>
      cases h
      rcases write_cases s (some .pending) .failed with hWrite | hWrite
      · exact .inl ⟨.none, by rw [hWrite], fun _ _ _ => trivial⟩
      · refine .inr ⟨?_, .failed, by simp, by rw [hWrite]⟩
        rw [hGone]
        exact id
    · simp at h
  case writerStop w =>
    exact .inl ⟨.none, (Option.some.inj h).symm, fun _ _ _ => trivial⟩

/-- What holds as long as no request gets to its task. -/
structure NoTask (s : TasksState) : Prop where
  noTask : ∀ t, ¬ s.Active t
  noEnqueued : ∀ r t, s.requests r ≠ .enqueued t
  notPending : s.syncStatus ≠ .pending

theorem AtRest.noTask_of (h : AtRest s) : NoTask s :=
  ⟨h.noTask, fun r t => by simp [h.noRequest r], h.notPending⟩

theorem NoTask.oneTask (h : NoTask s) : OneTask s :=
  ⟨fun t _ hT _ => absurd hT (h.noTask t), fun t hT => absurd hT (h.noTask t),
    fun _ => h.notPending⟩

theorem NoTask.setRequest (h : NoTask s) (r : Nat) {request : Request}
    (hRequest : ∀ t, request ≠ .enqueued t) : NoTask (s.setRequest r request) := by
  refine ⟨h.noTask, ?_, h.notPending⟩
  intro r' t
  show update s.requests r request r' ≠ .enqueued t
  by_cases hr : r' = r
  · rw [hr, update_self]
    exact hRequest t
  · rw [update_of_ne hr]
    exact h.noEnqueued r' t

theorem NoTask.setWriter (h : NoTask s) (w : Nat) (writer : Writer) :
    NoTask (s.setWriter w writer) := ⟨h.noTask, h.noEnqueued, h.notPending⟩

theorem NoTask.status (h : NoTask s) {status : SyncStatus} (hStatus : status ≠ .pending) :
    NoTask { s with syncStatus := status } := ⟨h.noTask, h.noEnqueued, hStatus⟩

/-- No task comes into being but by a step that creates one. -/
theorem NoTask.step {a : TaskAction} (hNo : NoTask s) (h : taskStep s a = some s')
    (hCreates : ¬ a.Creates) : NoTask s' := by
  cases hTask : a.task with
  | some t => exact absurd (task_active h hTask) (hNo.noTask t)
  | none =>
    cases hWriter : a.writer with
    | some w =>
      rcases writer_cases h hWriter with ⟨x, rfl, -⟩ | ⟨-, status, hStatus, rfl⟩
      · exact hNo.setWriter w x
      · exact (hNo.status hStatus).setWriter w .none
    | none =>
      cases a <;> simp only [TaskAction.task, TaskAction.writer, reduceCtorEq] at hTask hWriter
      case read r kind =>
        simp only [taskStep, readStep, if_neg hNo.notPending] at h
        split at h
        · exact Option.some.inj h ▸ hNo.setRequest r (by simp)
        · simp at h
      case enqueue r => exact absurd trivial hCreates
      case commit r =>
        simp only [taskStep, commitStep] at h
        split at h
        · next t hRequest => exact absurd hRequest (hNo.noEnqueued r t)
        · simp at h
      case giveUp r =>
        simp only [taskStep, giveUpStep] at h
        split at h
        · simp at h
        · exact Option.some.inj h ▸ hNo.setRequest r (by simp)

/-- The row of the task is there before the group says `pending`. -/
theorem NoTask.enqueue_breaks (hNo : NoTask s) (h : taskStep s a = some s')
    (hCreates : a.Creates) : ¬ OneTask s' := by
  cases a <;> simp only [TaskAction.Creates] at hCreates
  case enqueue r =>
    simp only [taskStep, enqueueStep] at h
    split at h
    · cases h
      intro hOne
      refine hNo.notPending (hOne.pending s.nextTask ?_)
      show (update s.tasks s.nextTask _ s.nextTask).phase.active = true
      rw [update_self]
      rfl
    · simp at h

theorem oneTask_iff (hNo : NoTask s) :
    (∀ s', taskStep s a = some s' → OneTask s') ↔ ∀ s', taskStep s a = some s' → ¬ a.Creates := by
  constructor
  · intro hOne s' h hCreates
    exact hNo.enqueue_breaks h hCreates (hOne s' h)
  · intro hCreates s' h
    exact (hNo.step h (hCreates s' h)).oneTask

/-- The law holds in every state of a run only if the run creates no task. -/
theorem oneTask_along (hNo : NoTask s) (as : List TaskAction) :
    Along taskStep (fun s a => ∀ s', taskStep s a = some s' → OneTask s') s as ↔
      Along taskStep (fun s a => ∀ s', taskStep s a = some s' → ¬ a.Creates) s as := by
  refine along_congr (fun s a (h : NoTask s) => oneTask_iff h) ?_ hNo as
  intro s a s' h hOne hStep
  exact h.step hStep ((oneTask_iff h).mp hOne s' hStep)

end

/-! ## Serial runs -/

/-- Where the group is. -/
inductive Situation
  | idle
  | passing (r : Nat) (kind : TaskKind)
  | handing (r t : Nat)
  | working (t : Nat)
  | ending (t : Nat)
  deriving DecidableEq, Repr

def Situation.requests : Situation → Nat → Request
  | .passing r kind => update (fun _ => .none) r (.passed kind)
  | .handing r t => update (fun _ => .none) r (.enqueued t)
  | _ => fun _ => .none

/-- The phases of a task whose request has committed. -/
def TaskPhase.Working : TaskPhase → Prop
  | .queued => True
  | .started => True
  | .loaded status => status = .pending
  | .pushing => True
  | .failing status => status = .pending
  | _ => False

/-- The phase that task `u` may have. -/
def Situation.Fits (u : Nat) (phase : TaskPhase) : Situation → Prop
  | .idle => phase.active = false
  | .passing _ _ => phase.active = false
  | .handing _ t => if u = t then phase = .queued else phase.active = false
  | .working t => if u = t then phase.Working else phase.active = false
  | .ending t => if u = t then phase = .settled else phase.active = false

/-- The group and its threads are in the situation. -/
structure At (s : TasksState) (q : Situation) : Prop where
  requests : s.requests = q.requests
  tasks : ∀ u, q.Fits u (s.tasks u).phase
  pending : s.syncStatus = .pending ↔ ∃ t, q = .working t
  lastTask : ∀ t, q = .working t → s.lastSyncTaskId = some t
  writers : s.syncStatus = .pending → ∀ w, (s.writers w).Waits s.lastSyncTaskId

variable {task : Task} {r : Nat}

section

variable {s s' : TasksState} {q : Situation} {t : Nat}

theorem working_active (h : phase.Working) : phase.active = true := by
  cases phase <;> simp_all [TaskPhase.Working, TaskPhase.active]

theorem AtRest.idle (h : AtRest s) : At s .idle := by
  refine ⟨funext h.noRequest, ?_, ?_, ?_, ?_⟩
  · intro u
    exact Bool.eq_false_iff.mpr (h.noTask u)
  · simp [h.notPending]
  · simp
  · intro hPending
    exact absurd hPending h.notPending

/-- The active task of a situation. -/
theorem At.owner (h : At s q) (hActive : s.Active t) :
    (∃ r, q = .handing r t ∧ (s.tasks t).phase = .queued) ∨
    (q = .working t ∧ (s.tasks t).phase.Working) ∨
    (q = .ending t ∧ (s.tasks t).phase = .settled) := by
  have hFits := h.tasks t
  have hPhase : (s.tasks t).phase.active = true := hActive
  cases q <;> simp only [Situation.Fits, hPhase, Bool.true_eq_false, if_false_right] at hFits
  case handing r u => exact .inl ⟨r, by rw [hFits.1], hFits.2⟩
  case working u => exact .inr (.inl ⟨by rw [hFits.1], hFits.2⟩)
  case ending u => exact .inr (.inr ⟨by rw [hFits.1], hFits.2⟩)

/-- **The law in each situation.** -/
theorem At.oneTaskOutside (h : At s q) : OneTaskOutside s := by
  constructor
  · intro t u hT hU
    rcases h.owner hT with ⟨r, rfl, -⟩ | ⟨rfl, -⟩ | ⟨rfl, -⟩ <;>
      rcases h.owner hU with ⟨r', hq, -⟩ | ⟨hq, -⟩ | ⟨hq, -⟩ <;> cases hq <;> rfl
  intro hOutside
  rw [h.pending]
  constructor
  · rintro ⟨t, hActive⟩
    rcases h.owner hActive with ⟨r, rfl, -⟩ | ⟨rfl, -⟩ | ⟨rfl, hSettled⟩
    · refine absurd (.inl ⟨r, t, ?_⟩) hOutside
      simp [h.requests, Situation.requests]
    · exact ⟨t, rfl⟩
    · exact absurd (.inr ⟨t, hSettled⟩) hOutside
  · rintro ⟨t, rfl⟩
    have hFits := h.tasks t
    simp only [Situation.Fits, if_true] at hFits
    exact ⟨t, working_active hFits⟩

theorem At.setWriter (h : At s q) (w : Nat) {writer : Writer}
    (hWaits : s.syncStatus = .pending → writer.Waits s.lastSyncTaskId) :
    At (s.setWriter w writer) q := by
  refine ⟨h.requests, h.tasks, h.pending, h.lastTask, ?_⟩
  intro hPending w'
  show (update s.writers w writer w').Waits s.lastSyncTaskId
  by_cases hw : w' = w
  · rw [hw, update_self]
    exact hWaits hPending
  · rw [update_of_ne hw]
    exact h.writers hPending w'

theorem At.status (h : At s q) {status : SyncStatus} (hBefore : s.syncStatus ≠ .pending)
    (hStatus : status ≠ .pending) : At { s with syncStatus := status } q := by
  refine ⟨h.requests, h.tasks, ?_, h.lastTask, fun hPending => absurd hPending hStatus⟩
  rw [← h.pending]
  exact iff_of_false hStatus hBefore

/-- The task of a pending group is active. -/
theorem At.lastActive (h : At s q) (hPending : s.syncStatus = .pending) :
    ∃ t, s.lastSyncTaskId = some t ∧ s.Active t := by
  obtain ⟨t, rfl⟩ := h.pending.mp hPending
  have hFits := h.tasks t
  simp only [Situation.Fits, if_true] at hFits
  exact ⟨t, h.lastTask t rfl, working_active hFits⟩

theorem At.writerStep {a : TaskAction} {w : Nat} (h : At s q) (hStep : taskStep s a = some s')
    (hWriter : a.writer = some w) : At s' q := by
  rcases writer_cases hStep hWriter with ⟨x, rfl, hWaits⟩ | ⟨hBusy, status, hStatus, rfl⟩
  · refine h.setWriter w ?_
    intro hPending
    exact hWaits hPending (h.writers hPending w) (h.lastActive hPending)
  · have hNot : s.syncStatus ≠ .pending := fun hPending => hBusy (h.writers hPending w)
    exact (h.status hNot hStatus).setWriter w fun hPending => absurd hPending hStatus

/-- A task takes a step and stays at work. -/
theorem At.stays (h : At s (.working t)) (hWorking : task.phase.Working) :
    At (s.setTask t task) (.working t) := by
  refine ⟨h.requests, ?_, h.pending, h.lastTask, h.writers⟩
  intro u
  show (Situation.working t).Fits u (update s.tasks t task u).phase
  by_cases hu : u = t
  · rw [hu, update_self]
    simpa only [Situation.Fits, if_true] using hWorking
  · rw [update_of_ne hu]
    exact h.tasks u

/-- The last commit of a task. -/
theorem At.settles (h : At s (.working t)) {status : SyncStatus}
    (hSettled : task.phase = .settled) (hStatus : status ≠ .pending) :
    At (TasksState.setTask { s with syncStatus := status } t task) (.ending t) := by
  refine ⟨h.requests, ?_, ?_, fun u hu => (by simp at hu), fun hPending => absurd hPending hStatus⟩
  · intro u
    show (Situation.ending t).Fits u (update s.tasks t task u).phase
    by_cases hu : u = t
    · rw [hu, update_self]
      simpa only [Situation.Fits, if_true] using hSettled
    · rw [update_of_ne hu]
      have hFits := h.tasks u
      simp only [Situation.Fits, if_neg hu] at hFits ⊢
      exact hFits
  · exact iff_of_false hStatus (by simp)

theorem At.ends (h : At s (.ending t)) (hEnded : task.phase = .ended) :
    At (s.setTask t task) .idle := by
  have hNot : s.syncStatus ≠ .pending := fun hPending => by
    obtain ⟨u, hu⟩ := h.pending.mp hPending
    simp at hu
  refine ⟨h.requests, ?_, iff_of_false hNot (by simp), fun u hu => (by simp at hu),
    fun hPending => absurd hPending hNot⟩
  intro u
  show (update s.tasks t task u).phase.active = false
  by_cases hu : u = t
  · rw [hu, update_self, hEnded]
    rfl
  · rw [update_of_ne hu]
    have hFits := h.tasks u
    simpa only [Situation.Fits, if_neg hu] using hFits

/-- A task past its start is at work on a group that says so. -/
theorem At.atWork (h : At s q) (hPhase : (s.tasks t).phase = phase)
    (hActive : phase.active = true) (hQueued : phase ≠ .queued) (hSettled : phase ≠ .settled) :
    q = .working t ∧ phase.Working ∧ s.syncStatus = .pending := by
  rcases h.owner (active_of_phase hPhase hActive) with ⟨r, -, hIs⟩ | ⟨rfl, hIs⟩ | ⟨-, hIs⟩
  · exact absurd (hPhase.symm.trans hIs) hQueued
  · exact ⟨rfl, hPhase ▸ hIs, h.pending.mpr ⟨t, rfl⟩⟩
  · exact absurd (hPhase.symm.trans hIs) hSettled

theorem write_pending_of_ne {status : SyncStatus} (hStatus : status ≠ .pending) :
    s.write (some .pending) status = { s with syncStatus := status } := by
  unfold TasksState.write
  rw [if_neg]
  intro hEq
  exact hStatus (Option.some.inj hEq).symm

theorem At.startStep (h : At s q) (hStep : startStep s t = some s')
    (hCommitted : ∀ r, s.requests r ≠ .enqueued t) : At s' q := by
  obtain ⟨hPhase, rfl⟩ := workStep_some hStep
  rcases h.owner (active_of_phase hPhase rfl) with ⟨r, rfl, -⟩ | ⟨rfl, -⟩ | ⟨-, hIs⟩
  · refine absurd ?_ (hCommitted r)
    simp [h.requests, Situation.requests]
  · exact h.stays trivial
  · rw [hPhase] at hIs
    simp at hIs

/-- A task past its start goes on at work. -/
theorem At.goesOn (h : At s q) {before after : TaskPhase} (hPhase : (s.tasks t).phase = before)
    (hActive : before.active = true) (hQueued : before ≠ .queued) (hSettled : before ≠ .settled)
    (hAfter : s.syncStatus = .pending → after.Working) :
    At (s.setTask t { s.tasks t with phase := after }) q := by
  obtain ⟨rfl, -, hPending⟩ := h.atWork hPhase hActive hQueued hSettled
  exact h.stays (hAfter hPending)

theorem At.loadStep (h : At s q) (hStep : loadStep s t = some s') : At s' q := by
  unfold Tasks.loadStep at hStep
  split at hStep
  · next hPhase =>
    exact Option.some.inj hStep ▸ h.goesOn hPhase rfl (by simp) (by simp) id
  · next hPhase =>
    exact Option.some.inj hStep ▸ h.goesOn hPhase rfl (by simp) (by simp) id
  · simp at hStep

/-- The group is pending already. -/
theorem At.pushStep (h : At s q) (hStep : pushStep s t = some s') : At s' q := by
  unfold Tasks.pushStep at hStep
  split at hStep
  · next status hRow =>
    cases hStep
    obtain ⟨rfl, hSeen, -⟩ :=
      h.atWork (congrArg Task.phase hRow) rfl (by simp) (by simp)
    have hSame : s.write (some status) .pending = s := if_pos (congrArg some hSeen)
    rw [hSame]
    exact h.stays trivial
  · simp at hStep

theorem At.settleStep (h : At s q) {success : Bool} (hStep : settleStep s t success = some s') :
    At s' (.ending t) := by
  unfold Tasks.settleStep at hStep
  split at hStep
  · next hRow =>
    cases hStep
    obtain ⟨rfl, -, -⟩ := h.atWork (congrArg Task.phase hRow) rfl (by simp) (by simp)
    have hStatus : (if success then SyncStatus.synced else .failed) ≠ .pending := by
      cases success <;> simp
    exact h.settles rfl hStatus
  · next status hRow =>
    obtain ⟨rfl, hSeen, -⟩ := h.atWork (congrArg Task.phase hRow) rfl (by simp) (by simp)
    obtain rfl : status = .pending := hSeen
    cases hStep
    have hSynced : SyncStatus.synced ≠ .pending := by simp
    have hFailed : SyncStatus.failed ≠ .pending := by simp
    cases success
    · rw [if_neg (by simp), write_pending_of_ne hFailed]
      exact h.settles rfl hFailed
    · rw [if_pos rfl, if_pos rfl, write_pending_of_ne hSynced]
      exact h.settles rfl hSynced
  · simp at hStep

theorem At.raiseStep (h : At s q) (hStep : raiseStep s t = some s') : At s' q := by
  unfold Tasks.raiseStep at hStep
  split at hStep
  · next hPhase =>
    exact Option.some.inj hStep ▸ h.goesOn hPhase rfl (by simp) (by simp) id
  · next hPhase =>
    exact Option.some.inj hStep ▸ h.goesOn hPhase rfl (by simp) (by simp) id
  · simp at hStep

theorem At.markFailedStep (h : At s q) (hStep : markFailedStep s t = some s') :
    At s' (.ending t) := by
  unfold Tasks.markFailedStep at hStep
  split at hStep
  · next status hPhase =>
    obtain ⟨rfl, hSeen, -⟩ := h.atWork hPhase rfl (by simp) (by simp)
    obtain rfl : status = .pending := hSeen
    cases hStep
    have hFailed : SyncStatus.failed ≠ .pending := by simp
    rw [write_pending_of_ne hFailed]
    exact h.settles rfl hFailed
  · simp at hStep

theorem At.finishStep (h : At s q) (hStep : finishStep s t = some s') : At s' .idle := by
  obtain ⟨hPhase, rfl⟩ := workStep_some hStep
  rcases h.owner (active_of_phase hPhase rfl) with ⟨r, -, hIs⟩ | ⟨-, hIs⟩ | ⟨rfl, -⟩
  · rw [hPhase] at hIs
    simp at hIs
  · rw [hPhase] at hIs
    exact hIs.elim
  · exact h.ends rfl

theorem At.taskStep (h : At s q) (hSerial : Serial s a)
    (hStep : taskStep s a = some s') (hTask : a.task = some t) : ∃ q', At s' q' := by
  cases a <;> simp only [TaskAction.task, Option.some.injEq, reduceCtorEq] at hTask <;> subst hTask
  case start => exact ⟨q, h.startStep hStep hSerial⟩
  case load => exact ⟨q, h.loadStep hStep⟩
  case push => exact ⟨q, h.pushStep hStep⟩
  case settle => exact ⟨_, h.settleStep hStep⟩
  case raise => exact ⟨q, h.raiseStep hStep⟩
  case markFailed => exact ⟨_, h.markFailedStep hStep⟩
  case dropWrite => exact hSerial.elim
  case finish => exact ⟨_, h.finishStep hStep⟩
  case die => exact hSerial.elim
  case recoverStale t =>
    -- no process has died
    have hPhase := (workStep_some hStep).1
    obtain ⟨-, hWorking, -⟩ := h.atWork hPhase rfl (by simp) (by simp)
    exact hWorking.elim

/-- The request of a situation. -/
theorem At.passing_of (h : At s q) {kind : TaskKind}
    (hRequest : s.requests r = .passed kind) : q = .passing r kind := by
  rw [h.requests] at hRequest
  cases q <;> simp only [Situation.requests, reduceCtorEq] at hRequest
  case passing r' kind' =>
    by_cases hr : r = r'
    · subst hr
      rw [update_self] at hRequest
      cases hRequest
      rfl
    · simp [update_of_ne hr] at hRequest
  case handing r' u =>
    by_cases hr : r = r'
    · simp [hr] at hRequest
    · simp [update_of_ne hr] at hRequest

theorem At.handing_of (h : At s q) (hRequest : s.requests r = .enqueued t) : q = .handing r t := by
  rw [h.requests] at hRequest
  cases q <;> simp only [Situation.requests, reduceCtorEq] at hRequest
  case passing r' kind' =>
    by_cases hr : r = r'
    · simp [hr] at hRequest
    · simp [update_of_ne hr] at hRequest
  case handing r' u =>
    by_cases hr : r = r'
    · subst hr
      rw [update_self] at hRequest
      cases hRequest
      rfl
    · simp [update_of_ne hr] at hRequest

theorem At.notPending (h : At s q) (hq : ∀ t, q ≠ .working t) : s.syncStatus ≠ .pending := by
  intro hPending
  obtain ⟨t, ht⟩ := h.pending.mp hPending
  exact hq t ht

/-- Alone, a request passes its guard only on an idle group. -/
theorem At.readStep {kind : TaskKind} (h : At s q) (hStep : readStep s r kind = some s')
    (hAlone : s.syncStatus = .pending ∨ (∀ r, s.requests r = .none) ∧ ∀ t, ¬ s.Active t) :
    ∃ q', At s' q' := by
  unfold Tasks.readStep at hStep
  split at hStep
  · cases hStep
    by_cases hPending : s.syncStatus = .pending
    · rw [if_pos hPending]
      exact ⟨q, h⟩
    rw [if_neg hPending]
    obtain ⟨hRequests, hTasks⟩ := hAlone.resolve_left hPending
    refine ⟨.passing r kind, ?_, ?_, iff_of_false hPending (by simp), fun t ht => (by simp at ht),
      fun h => absurd h hPending⟩
    · show update s.requests r (.passed kind) = _
      rw [funext hRequests]
      rfl
    · intro u
      exact Bool.eq_false_iff.mpr (hTasks u)
  · simp at hStep

theorem At.enqueueStep (h : At s q) (hStep : enqueueStep s r = some s') : ∃ q', At s' q' := by
  unfold Tasks.enqueueStep at hStep
  split at hStep
  · next kind hRequest =>
    cases hStep
    obtain rfl := h.passing_of hRequest
    have hNot := h.notPending (by simp)
    refine ⟨.handing r s.nextTask, ?_, ?_, iff_of_false hNot (by simp), fun t ht => (by simp at ht),
      fun h => absurd h hNot⟩
    · show update s.requests r (.enqueued s.nextTask) = _
      rw [h.requests]
      exact update_idem ..
    · intro u
      show (Situation.handing r s.nextTask).Fits u
        (update s.tasks s.nextTask ⟨kind, .queued⟩ u).phase
      by_cases hu : u = s.nextTask
      · simp [hu, Situation.Fits]
      · rw [update_of_ne hu]
        simpa only [Situation.Fits, if_neg hu] using h.tasks u
  · simp at hStep

theorem At.commitStep (h : At s q) (hStep : commitStep s r = some s')
    (hBusy : ∀ w, (s.writers w).busy = false) : ∃ q', At s' q' := by
  unfold Tasks.commitStep at hStep
  split at hStep
  · next t hRequest =>
    cases hStep
    obtain rfl := h.handing_of hRequest
    refine ⟨.working t, ?_, ?_, iff_of_true rfl ⟨t, rfl⟩, ?_, ?_⟩
    · show update s.requests r .none = _
      rw [h.requests]
      simp [Situation.requests]
    · intro u
      have hFits := h.tasks u
      by_cases hu : u = t
      · simp only [Situation.Fits, if_pos hu] at hFits ⊢
        show (s.tasks u).phase.Working
        rw [hFits]
        trivial
      · simp only [Situation.Fits, if_neg hu] at hFits ⊢
        exact hFits
    · intro u hu
      cases hu
      rfl
    · intro _ w
      show (s.writers w).Waits (some t)
      have hIdle := hBusy w
      cases hWriter : s.writers w <;> simp_all [Writer.busy, Writer.Waits]
  · simp at hStep

theorem At.giveUpStep (h : At s q) (hStep : giveUpStep s r = some s')
    (hEnqueued : ∀ t, s.requests r ≠ .enqueued t) : ∃ q', At s' q' := by
  unfold Tasks.giveUpStep at hStep
  cases hRequest : s.requests r with
  | none => simp [hRequest] at hStep
  | enqueued t => exact absurd hRequest (hEnqueued t)
  | passed kind =>
    rw [hRequest] at hStep
    cases hStep
    obtain rfl := h.passing_of hRequest
    have hNot := h.notPending (by simp)
    refine ⟨.idle, ?_, h.tasks, iff_of_false hNot (by simp), fun t ht => (by simp at ht),
      fun h => absurd h hNot⟩
    show update s.requests r .none = _
    rw [h.requests]
    simp [Situation.requests]

/-- **One step.** -/
theorem At.step (h : At s q) (hSerial : Serial s a)
    (hStep : Tasks.taskStep s a = some s') : ∃ q', At s' q' := by
  cases hTask : a.task with
  | some t => exact h.taskStep hSerial hStep hTask
  | none =>
    cases hWriter : a.writer with
    | some w => exact ⟨q, h.writerStep hStep hWriter⟩
    | none =>
      cases a <;> simp only [TaskAction.task, TaskAction.writer, reduceCtorEq] at hTask hWriter
      case read r kind => exact h.readStep hStep hSerial
      case enqueue r => exact h.enqueueStep hStep
      case commit r => exact h.commitStep hStep hSerial
      case giveUp r => exact h.giveUpStep hStep hSerial

end

/-! ## One task at a time -/

/-- A group that nobody works on. -/
def quietGroup : TasksState := { syncStatus := .synced }

theorem quietGroup_atRest : AtRest quietGroup where
  noTask t := by simp [quietGroup, TasksState.Active, TaskPhase.active]
  noRequest _ := rfl
  noWriter _ := rfl
  notPending := by simp [quietGroup]

/-- **One task at a time, where it holds.** From a group at rest, the law holds after every
step only in a run that creates no task: a task is there before `pending` is, and until
after its verdict is. When no step comes at a weak point of another thread, at most one
task is ever active, and outside the two windows the group is pending exactly while one is. -/
theorem one_task_at_a_time (s : TasksState) (h : AtRest s) (as : List TaskAction) :
    (Along taskStep (fun s a => ∀ s', taskStep s a = some s' → OneTask s') s as ↔
      Along taskStep (fun s a => ∀ s', taskStep s a = some s' → ¬ a.Creates) s as) ∧
    (Along taskStep Serial s as →
      Along taskStep (fun s a => ∀ s', taskStep s a = some s' → OneTaskOutside s') s as) := by
  refine ⟨oneTask_along h.noTask_of as, ?_⟩
  intro hSerial
  have hAt : ∃ q, At s q := ⟨.idle, h.idle⟩
  have hStep : ∀ s a s', (∃ q, At s q) → Serial s a → taskStep s a = some s' → ∃ q, At s' q := by
    rintro s a s' ⟨q, hq⟩ hGuard hs'
    exact hq.step hGuard hs'
  refine (along_preserved hStep hAt hSerial).mono ?_
  intro s a hNext s' hs'
  obtain ⟨q, hq⟩ := hNext s' hs'
  exact hq.oneTaskOutside

/-- A setup that nothing disturbs. -/
theorem setup_alone :
    Along taskStep (fun s a => ∀ s', taskStep s a = some s' → OneTaskOutside s') quietGroup
      [.read 0 .setup, .enqueue 0, .commit 0, .start 0, .load 0, .push 0, .settle 0 true,
        .finish 0] := by
  refine (one_task_at_a_time quietGroup quietGroup_atRest _).2 ?_
  simp [Along, Serial, quietGroup, taskStep, readStep, enqueueStep, commitStep, startStep, loadStep,
    pushStep, settleStep, finishStep, workStep, TasksState.Active, TaskPhase.active,
    TasksState.setTask, TasksState.setRequest, TasksState.write, Writer.busy]

/-- Two requests read the group before either commits: both tasks run. -/
theorem two_setups_run :
    AtRest quietGroup ∧ ∃ s, exec taskStep quietGroup
        [.read 0 .setup, .read 1 .sharedDomain, .enqueue 0, .enqueue 1, .commit 0, .commit 1,
          .start 0, .start 1] = some s ∧ s.Active 0 ∧ s.Active 1 ∧ ¬ OneTask s := by
  refine ⟨quietGroup_atRest, _, rfl, rfl, rfl, ?_⟩
  intro hOne
  exact absurd (hOne.one 0 1 rfl rfl) (by decide)

end AdminPanel.NodeSync.Tasks
