import AdminPanel.Access.Policy
import AdminPanel.Lib.Runs

/-!
# Background tasks

The row of a task is written by its runner, by progress callbacks and by the recovery that a
starting process makes. Each reads the row and commits an `UPDATE` of the columns that it has
changed against what it read; a commit that fails for a locked database reads again.

* `TaskFields.changed` — the columns of an `UPDATE`;
* `TaskState`, `taskStep` — processes, tasks with their runners, progress writes, recoveries;
* `Timely` — the commits that do not touch what a runner has finished;
* `finished_tasks_stay` — runs of such commits keep it, and in every run recovery marks the
  tasks of dead owners and of no others;
* `finished_task_changes` — two runs that change a finished task.
-/

namespace AdminPanel.Tasks

open Option List Function

open Access (Time)
open Lib (exec Along)

/-! ## Rows -/

inductive TaskStatus
  | queued
  | running
  | completed
  | failed
  deriving DecidableEq, Repr

/-- `status IN ('queued', 'running')` -/
def TaskStatus.unfinished (status : TaskStatus) : Bool := status == .queued || status == .running

/-- The token of a process: a PID is used again, but not with the same start time. -/
structure Owner where
  pid : Nat
  startTicks : Nat
  deriving DecidableEq, Repr

/-- A row of `background_task`. -/
structure TaskRow where
  status : TaskStatus := .queued
  message : Option String
  output : Option String := none
  error : Option String := none
  progressPercent : Int := 0
  progressStage : Option String
  startedAt : Option Time := none
  finishedAt : Option Time := none
  owner : Option Owner
  deriving DecidableEq, Repr

/-- Values for some columns. -/
structure TaskFields where
  status : Option TaskStatus := none
  message : Option (Option String) := none
  output : Option (Option String) := none
  error : Option (Option String) := none
  progressPercent : Option Int := none
  progressStage : Option (Option String) := none
  startedAt : Option (Option Time) := none
  finishedAt : Option (Option Time) := none
  deriving DecidableEq, Repr

/-- A column is in the `UPDATE` if its value is not the one that was read. -/
def unlessSame {α : Type} [DecidableEq α] (value : Option α) (read : α) : Option α :=
  value.filter (· ≠ read)

def TaskFields.changed (fields : TaskFields) (read : TaskRow) : TaskFields where
  status := unlessSame fields.status read.status
  message := unlessSame fields.message read.message
  output := unlessSame fields.output read.output
  error := unlessSame fields.error read.error
  progressPercent := unlessSame fields.progressPercent read.progressPercent
  progressStage := unlessSame fields.progressStage read.progressStage
  startedAt := unlessSame fields.startedAt read.startedAt
  finishedAt := unlessSame fields.finishedAt read.finishedAt

def TaskFields.apply (fields : TaskFields) (row : TaskRow) : TaskRow where
  status := fields.status.getD row.status
  message := fields.message.getD row.message
  output := fields.output.getD row.output
  error := fields.error.getD row.error
  progressPercent := fields.progressPercent.getD row.progressPercent
  progressStage := fields.progressStage.getD row.progressStage
  startedAt := fields.startedAt.getD row.startedAt
  finishedAt := fields.finishedAt.getD row.finishedAt
  owner := row.owner

/-- `text[:255]` -/
def cut (text : String) : String := String.ofList (text.toList.take 255)

/-- A commit of `update_background_task` that has read `read`. -/
def updateBackgroundTask (fields : TaskFields) (read row : TaskRow) : TaskRow :=
  ({ fields with
      message := fields.message.map (Option.map cut)
      progressStage := fields.progressStage.map (Option.map cut) }.changed read).apply row

/-! ## What is written -/

/-- `create_queued_task` -/
def queuedRow (owner : Owner) (message : String) : TaskRow where
  message := some (cut message)
  progressStage := some "Ожидание запуска задачи…"
  owner := some owner

/-- The writes by which a runner starts: one in `run_background_task`, one before and one in the
worker of `start_cidr_runner`. -/
inductive RunnerKind
  | background (runningMessage startingStage : String) (startingPercent : Int)
  | cidr
  deriving DecidableEq, Repr

def RunnerKind.startFields (now : Time) : RunnerKind → List TaskFields
  | .background runningMessage startingStage startingPercent =>
    [{ status := some .running, startedAt := some (some now), message := some (some runningMessage)
       progressPercent := some startingPercent, progressStage := some (some startingStage) }]
  | .cidr =>
    [{ status := some .running, startedAt := some (some now), progressPercent := some 1
       progressStage := some (some "Запуск фоновой задачи…") },
     { status := some .running, startedAt := some (some now), progressPercent := some 1
       progressStage := some (some "Подготовка к выполнению…") }]

/-- How a runner ends: `completed` and `raised` in `run_background_task`, the others in the worker
of `start_cidr_runner`. -/
inductive TaskEnd
  | completed (message output doneStage : String)
  | raised (error : String)
  | runnerCompleted (message output : String)
  | runnerFailed (message output : String)
  | runnerRaised (error : String)
  deriving DecidableEq, Repr

/-- The end that is left when the row could not be written. -/
def TaskEnd.isRaised : TaskEnd → Bool
  | .raised _ | .runnerRaised _ => true
  | .completed _ _ _ | .runnerCompleted _ _ | .runnerFailed _ _ => false

def TaskEnd.status : TaskEnd → TaskStatus
  | .completed _ _ _ | .runnerCompleted _ _ => .completed
  | .raised _ | .runnerFailed _ _ | .runnerRaised _ => .failed

def TaskEnd.fields (now : Time) : TaskEnd → TaskFields
  | .completed message output doneStage =>
    { status := some .completed, finishedAt := some (some now), message := some (some message)
      output := some (some output), error := some none, progressPercent := some 100
      progressStage := some (some doneStage) }
  | .raised error =>
    { status := some .failed, finishedAt := some (some now)
      message := some (some "Задача завершилась с ошибкой"), error := some (some error)
      progressPercent := some 100, progressStage := some (some "Ошибка выполнения") }
  | .runnerCompleted message output =>
    { status := some .completed, finishedAt := some (some now), message := some (some message)
      output := some (some output), error := some none, progressPercent := some 100
      progressStage := some (some "Операция успешно завершена") }
  | .runnerFailed message output =>
    { status := some .failed, finishedAt := some (some now), message := some (some message)
      output := some (some output), error := some (some message), progressPercent := some 100
      progressStage := some (some "Операция завершилась с ошибкой") }
  | .runnerRaised error =>
    { status := some .failed, finishedAt := some (some now)
      message := some (some "Операция завершилась с ошибкой"), error := some (some error)
      progressPercent := some 100
      progressStage := some (some "Операция завершилась с ошибкой") }

/-- The fields of `_make_progress_updater` and of `_progress_callback`, which leaves out a percent
that comes too soon after another. -/
def progressFields (percent : Option Int) (stage message : Option String) : TaskFields where
  status := some .running
  progressPercent := percent.map fun percent => max 0 (min 99 percent)
  progressStage := some stage
  message := message.map some

/-- What `recover_stale_running_tasks` sets. -/
def recoveryFields (now : Time) : TaskFields where
  status := some .failed
  finishedAt := some (some now)
  progressPercent := some 100
  progressStage := some (some "Прервано перезапуском панели")
  message := some (some "Задача прервана перезапуском панели")
  error := some (some "Задача прервана перезапуском панели")

/-! ## The system -/

/-- Where a runner stands. A write has its row as it was read. -/
inductive RunnerPhase
  | starting (pending : List TaskFields)
  | startWrite (fields : TaskFields) (read : TaskRow) (pending : List TaskFields)
  | working
  | endWrite (ending : TaskEnd) (now : Time) (read : TaskRow)
  /-- The write of an end has raised. -/
  | interrupted
  /-- An end is committed. -/
  | finished
  /-- No end could be written. -/
  | lost
  /-- The runner is none of this system, or could not start. -/
  | gone
  deriving DecidableEq, Repr

structure TaskEntry where
  row : TaskRow
  runner : RunnerPhase
  deriving DecidableEq, Repr

def TaskEntry.finished (task : TaskEntry) : Bool := decide (task.runner = .finished)

structure ProgressWrite where
  task : Nat
  fields : TaskFields
  read : TaskRow
  deriving DecidableEq, Repr

/-- A recovery asks for the owners of the rows that it has read, one by one, and then commits. -/
inductive RecoveryPhase
  | judging (rows stale : List (Nat × TaskRow))
  | committed
  | dropped
  deriving DecidableEq, Repr

/-- `procs` is what `/proc` says of a PID, `seen` are the processes that there have been. -/
structure TaskState where
  tasks : List TaskEntry := []
  writes : List (Option ProgressWrite) := []
  recoveries : List RecoveryPhase := []
  procs : Nat → Option Nat
  seen : List Owner

def isOwnerAlive (procs : Nat → Option Nat) (owner : Option Owner) : Bool :=
  owner.any fun owner => procs owner.pid == some owner.startTicks

/-- A step of a runner. `start` and `finish` read the row for a write, `retry` reads it again after
a commit that has failed, and `giveUp` follows the last one of these. -/
inductive RunnerMove
  | start
  | finish (ending : TaskEnd) (now : Time)
  | commit
  | retry
  | giveUp

inductive TaskAction
  | boot (owner : Owner)
  | die (pid : Nat)
  | create (owner : Owner) (message : String) (kind : RunnerKind) (now : Time)
  | runner (i : Nat) (move : RunnerMove)
  | progress (i : Nat) (percent : Option Int) (stage message : Option String)
  | progressCommit (j : Nat)
  | progressRetry (j : Nat)
  | progressGiveUp (j : Nat)
  | recover
  | judge (k : Nat)
  | recoverCommit (k : Nat) (now : Time)
  | recoverRetry (k : Nat)
  | recoverGiveUp (k : Nat)

namespace TaskState

def setTask (s : TaskState) (i : Nat) (task : TaskEntry) : TaskState :=
  { s with tasks := s.tasks.set i task }

def setWrite (s : TaskState) (j : Nat) (write : Option ProgressWrite) : TaskState :=
  { s with writes := s.writes.set j write }

def setRecovery (s : TaskState) (k : Nat) (phase : RecoveryPhase) : TaskState :=
  { s with recoveries := s.recoveries.set k phase }

/-- The task, while the process that runs it lives. -/
def liveTask? (s : TaskState) (i : Nat) : Option TaskEntry :=
  s.tasks[i]?.filter fun task => isOwnerAlive s.procs task.row.owner

/-- The rows that a recovery reads. -/
def unfinishedRows (s : TaskState) : List (Nat × TaskRow) :=
  (s.tasks.zipIdx.filter fun (task, _) => task.row.status.unfinished).map fun (task, i) =>
    (i, task.row)

end TaskState

def runnerMove (task : TaskEntry) : RunnerMove → Option TaskEntry
  | .start =>
    match task.runner with
    | .starting (fields :: pending) =>
      some { task with runner := .startWrite fields task.row pending }
    | _ => none
  | .finish ending now =>
    match task.runner with
    | .working => some { task with runner := .endWrite ending now task.row }
    | .interrupted =>
      if ending.isRaised then some { task with runner := .endWrite ending now task.row } else none
    | _ => none
  | .commit =>
    match task.runner with
    | .startWrite fields read pending =>
      some { row := updateBackgroundTask fields read task.row
             runner := if pending = [] then .working else .starting pending }
    | .endWrite ending now read =>
      some { row := updateBackgroundTask (ending.fields now) read task.row, runner := .finished }
    | _ => none
  | .retry =>
    match task.runner with
    | .startWrite fields _ pending =>
      some { task with runner := .startWrite fields task.row pending }
    | .endWrite ending now _ => some { task with runner := .endWrite ending now task.row }
    | _ => none
  | .giveUp =>
    match task.runner with
    | .startWrite _ _ _ => some { task with runner := .gone }
    | .endWrite ending _ _ =>
      some { task with runner := if ending.isRaised then .lost else .interrupted }
    | _ => none

/-- Progress callbacks exist once the runner has started its work. -/
def TaskEntry.reports (task : TaskEntry) : Bool :=
  match task.runner with
  | .working | .endWrite _ _ _ | .interrupted | .finished | .lost => true
  | .starting _ | .startWrite _ _ _ | .gone => false

def judgeStep (procs : Nat → Option Nat) : RecoveryPhase → Option RecoveryPhase
  | .judging ((i, row) :: rows) stale =>
    some (.judging rows (if isOwnerAlive procs row.owner then stale else stale ++ [(i, row)]))
  | _ => none

/-- The tasks after the commit of a recovery. -/
def recoverTasks (tasks : List TaskEntry) (stale : List (Nat × TaskRow)) (now : Time) : List TaskEntry :=
  tasks.mapIdx fun i task =>
    match stale.lookup i with
    | some read => { task with row := ((recoveryFields now).changed read).apply task.row }
    | none => task

def taskStep (s : TaskState) : TaskAction → Option TaskState
  | .boot owner =>
    if s.procs owner.pid = none ∧ owner ∉ s.seen then
      some { s with
        procs := update s.procs owner.pid (some owner.startTicks)
        seen := owner :: s.seen }
    else none
  | .die pid => some { s with procs := update s.procs pid none }
  | .create owner message kind now =>
    if isOwnerAlive s.procs (some owner) then
      some { s with tasks := s.tasks ++
        [{ row := queuedRow owner message, runner := .starting (kind.startFields now) }] }
    else none
  | .runner i move =>
    (s.liveTask? i).bind fun task => (runnerMove task move).map (s.setTask i)
  | .progress i percent stage message =>
    (s.liveTask? i).bind fun task =>
      if task.reports then
        some { s with writes := s.writes ++
          [some { task := i, fields := progressFields percent stage message, read := task.row }] }
      else none
  | .progressCommit j =>
    s.writes[j]?.join.bind fun write =>
      (s.liveTask? write.task).map fun task =>
        (s.setTask write.task { task with
          row := updateBackgroundTask write.fields write.read task.row }).setWrite j none
  | .progressRetry j =>
    s.writes[j]?.join.bind fun write =>
      (s.liveTask? write.task).map fun task => s.setWrite j (some { write with read := task.row })
  | .progressGiveUp j => some (s.setWrite j none)
  | .recover =>
    some { s with recoveries := s.recoveries ++ [.judging s.unfinishedRows []] }
  | .judge k =>
    s.recoveries[k]?.bind fun phase => (judgeStep s.procs phase).map (s.setRecovery k)
  | .recoverCommit k now =>
    match s.recoveries[k]? with
    | some (.judging [] stale) =>
      some { s.setRecovery k .committed with tasks := recoverTasks s.tasks stale now }
    | _ => none
  | .recoverRetry k =>
    match s.recoveries[k]? with
    | some (.judging [] _) => some (s.setRecovery k (.judging s.unfinishedRows []))
    | _ => none
  | .recoverGiveUp k =>
    match s.recoveries[k]? with
    | some (.judging _ _) => some (s.setRecovery k .dropped)
    | _ => none

/-! ## What is expected of it -/

/-- The columns that tell how a task has ended. -/
structure SameEnd (row row' : TaskRow) : Prop where
  status : row'.status = row.status
  output : row'.output = row.output
  error : row'.error = row.error
  finishedAt : row'.finishedAt = row.finishedAt

/-- What a runner has finished is finished, and stays as it is. -/
def FinishedStay (s : TaskState) (run : List TaskAction) (t : TaskState) : Prop :=
  ∀ past rest u (i : Nat) (task : TaskEntry), run = past ++ rest → exec taskStep s past = some u →
    u.tasks[i]? = some task → task.finished = true → task.row.status.unfinished = false ∧
    ∃ task' : TaskEntry, t.tasks[i]? = some task' ∧ SameEnd task.row task'.row

/-- Recovery leaves the tasks of living owners alone. -/
def SparesLiving (s : TaskState) (run : List TaskAction) : Prop :=
  ∀ past k now rest u u' (i : Nat) (task : TaskEntry), run = past ++ .recoverCommit k now :: rest →
    exec taskStep s past = some u → taskStep u (.recoverCommit k now) = some u' →
    u.tasks[i]? = some task → isOwnerAlive u.procs task.row.owner = true →
    u'.tasks[i]? = some task

/-- A recovery that has committed has marked every task that was queued or running, with a dead
owner, when it began. -/
def MarksDead (s : TaskState) (run : List TaskAction) (t : TaskState) : Prop :=
  ∀ past rest u (i : Nat) (task : TaskEntry), run = past ++ .recover :: rest →
    exec taskStep s past = some u →
    u.tasks[i]? = some task → task.row.status.unfinished = true →
    isOwnerAlive u.procs task.row.owner = false →
    t.recoveries[u.recoveries.length]? = some .committed →
    ∃ task' : TaskEntry, t.tasks[i]? = some task' ∧ task'.row.status = .failed

/-- The rows that the recovery will mark. -/
def RecoveryPhase.stale : RecoveryPhase → List (Nat × TaskRow)
  | .judging _ stale => stale
  | .committed | .dropped => []

/-- A progress write that commits after its runner has finished had read the row before that; and
a recovery marks no row whose runner has finished meanwhile. -/
def Timely (s : TaskState) : TaskAction → Prop
  | .progressCommit j => ∀ write ∈ s.writes[j]?.join, ∀ task ∈ s.tasks[write.task]?,
      task.finished = true → write.read.status = .running
  | .recoverCommit k _ => ∀ phase ∈ s.recoveries[k]?, ∀ read ∈ phase.stale,
      ∀ task ∈ s.tasks[read.1]?, task.finished = false
  | _ => True

instance (s : TaskState) : (a : TaskAction) → Decidable (Timely s a)
  | .progressCommit j => inferInstanceAs (Decidable (∀ write ∈ s.writes[j]?.join, _))
  | .recoverCommit k _ => inferInstanceAs (Decidable (∀ phase ∈ s.recoveries[k]?, _))
  | .boot _ | .die _ | .create _ _ _ _ | .runner _ _ | .progress _ _ _ _ | .progressRetry _
  | .progressGiveUp _ | .recover | .judge _ | .recoverRetry _ | .recoverGiveUp _ =>
    inferInstanceAs (Decidable True)

/-! ## Steps -/

/-- What a step of the system may be. -/
inductive TaskDoes (s : TaskState) : TaskAction → TaskState → Prop
  | boot (owner : Owner) (hFree : s.procs owner.pid = none) (hNew : owner ∉ s.seen) :
    TaskDoes s (.boot owner) { s with
      procs := update s.procs owner.pid (some owner.startTicks)
      seen := owner :: s.seen }
  | die (pid : Nat) : TaskDoes s (.die pid) { s with procs := update s.procs pid none }
  | create (owner : Owner) (message : String) (kind : RunnerKind) (now : Time)
    (hAlive : isOwnerAlive s.procs (some owner) = true) :
    TaskDoes s (.create owner message kind now) { s with tasks := s.tasks ++
      [{ row := queuedRow owner message, runner := .starting (kind.startFields now) }] }
  | runner (i : Nat) (move : RunnerMove) (task task' : TaskEntry) (hTask : s.tasks[i]? = some task)
    (hAlive : isOwnerAlive s.procs task.row.owner = true)
    (hMove : runnerMove task move = some task') : TaskDoes s (.runner i move) (s.setTask i task')
  | progress (i : Nat) (percent : Option Int) (stage message : Option String) (task : TaskEntry)
    (hTask : s.tasks[i]? = some task) (hAlive : isOwnerAlive s.procs task.row.owner = true)
    (hReports : task.reports = true) :
    TaskDoes s (.progress i percent stage message) { s with writes := s.writes ++
      [some { task := i, fields := progressFields percent stage message, read := task.row }] }
  | progressCommit (j : Nat) (write : ProgressWrite) (task : TaskEntry)
    (hWrite : s.writes[j]? = some (some write)) (hTask : s.tasks[write.task]? = some task)
    (hAlive : isOwnerAlive s.procs task.row.owner = true) :
    TaskDoes s (.progressCommit j) ((s.setTask write.task { task with
      row := updateBackgroundTask write.fields write.read task.row }).setWrite j none)
  | progressRetry (j : Nat) (write : ProgressWrite) (task : TaskEntry)
    (hWrite : s.writes[j]? = some (some write)) (hTask : s.tasks[write.task]? = some task)
    (hAlive : isOwnerAlive s.procs task.row.owner = true) :
    TaskDoes s (.progressRetry j) (s.setWrite j (some { write with read := task.row }))
  | progressGiveUp (j : Nat) : TaskDoes s (.progressGiveUp j) (s.setWrite j none)
  | recover : TaskDoes s .recover
      { s with recoveries := s.recoveries ++ [.judging s.unfinishedRows []] }
  | judge (k i : Nat) (row : TaskRow) (rows stale : List (Nat × TaskRow))
    (hPhase : s.recoveries[k]? = some (.judging ((i, row) :: rows) stale)) :
    TaskDoes s (.judge k) (s.setRecovery k (.judging rows
      (if isOwnerAlive s.procs row.owner then stale else stale ++ [(i, row)])))
  | recoverCommit (k : Nat) (now : Time) (stale : List (Nat × TaskRow))
    (hPhase : s.recoveries[k]? = some (.judging [] stale)) :
    TaskDoes s (.recoverCommit k now)
      { s.setRecovery k .committed with tasks := recoverTasks s.tasks stale now }
  | recoverRetry (k : Nat) (stale : List (Nat × TaskRow))
    (hPhase : s.recoveries[k]? = some (.judging [] stale)) :
    TaskDoes s (.recoverRetry k) (s.setRecovery k (.judging s.unfinishedRows []))
  | recoverGiveUp (k : Nat) (rows stale : List (Nat × TaskRow))
    (hPhase : s.recoveries[k]? = some (.judging rows stale)) :
    TaskDoes s (.recoverGiveUp k) (s.setRecovery k .dropped)

section

variable {s t : TaskState} {a : TaskAction} {i : Nat} {task task' : TaskEntry}

theorem liveTask?_eq_some (h : s.liveTask? i = some task) :
    s.tasks[i]? = some task ∧ isOwnerAlive s.procs task.row.owner = true := by
  obtain ⟨hTask, hAlive⟩ := filter_eq_some_iff.mp h
  exact ⟨hTask, hAlive⟩

/-- Every step is one of `TaskDoes`. -/
theorem taskDoes_of_step (h : taskStep s a = some t) : TaskDoes s a t := by
  cases a with
  | boot owner =>
    simp only [taskStep] at h
    split at h <;> cases h
    next hBoot => exact .boot owner hBoot.1 hBoot.2
  | die pid =>
    cases h
    exact .die pid
  | create owner message kind now =>
    simp only [taskStep] at h
    split at h <;> cases h
    next hAlive => exact .create owner message kind now hAlive
  | runner i move =>
    obtain ⟨task, hLive, hMap⟩ := bind_eq_some_iff.mp h
    obtain ⟨task', hMove, rfl⟩ := map_eq_some_iff.mp hMap
    obtain ⟨hTask, hAlive⟩ := liveTask?_eq_some hLive
    exact .runner i move task task' hTask hAlive hMove
  | progress i percent stage message =>
    obtain ⟨task, hLive, hNew⟩ := bind_eq_some_iff.mp h
    obtain ⟨hTask, hAlive⟩ := liveTask?_eq_some hLive
    split at hNew <;> cases hNew
    next hReports => exact .progress i percent stage message task hTask hAlive hReports
  | progressCommit j =>
    obtain ⟨write, hWrite, hMap⟩ := bind_eq_some_iff.mp h
    obtain ⟨task, hLive, rfl⟩ := map_eq_some_iff.mp hMap
    obtain ⟨hTask, hAlive⟩ := liveTask?_eq_some hLive
    exact .progressCommit j write task (join_eq_some_iff.mp hWrite) hTask hAlive
  | progressRetry j =>
    obtain ⟨write, hWrite, hMap⟩ := bind_eq_some_iff.mp h
    obtain ⟨task, hLive, rfl⟩ := map_eq_some_iff.mp hMap
    obtain ⟨hTask, hAlive⟩ := liveTask?_eq_some hLive
    exact .progressRetry j write task (join_eq_some_iff.mp hWrite) hTask hAlive
  | progressGiveUp j =>
    cases h
    exact .progressGiveUp j
  | recover =>
    cases h
    exact .recover
  | judge k =>
    obtain ⟨phase, hPhase, hMap⟩ := bind_eq_some_iff.mp h
    obtain ⟨phase', hJudge, rfl⟩ := map_eq_some_iff.mp hMap
    unfold judgeStep at hJudge
    split at hJudge <;> cases hJudge
    next i row rows stale => exact .judge k i row rows stale hPhase
  | recoverCommit k now =>
    simp only [taskStep] at h
    split at h <;> cases h
    next stale hPhase => exact .recoverCommit k now stale hPhase
  | recoverRetry k =>
    simp only [taskStep] at h
    split at h <;> cases h
    next stale hPhase => exact .recoverRetry k stale hPhase
  | recoverGiveUp k =>
    simp only [taskStep] at h
    split at h <;> cases h
    next rows stale hPhase => exact .recoverGiveUp k rows stale hPhase

end

/-! ## What a step does to one task -/

/-- A step leaves a task alone, moves its runner, or commits to its row a progress write or a
recovery. -/
inductive EntryStep (s : TaskState) (i : Nat) (task : TaskEntry) : TaskAction → TaskEntry → Prop
  | same (a : TaskAction) : EntryStep s i task a task
  | move (move : RunnerMove) (task' : TaskEntry)
    (hAlive : isOwnerAlive s.procs task.row.owner = true)
    (hMove : runnerMove task move = some task') : EntryStep s i task (.runner i move) task'
  | progress (j : Nat) (write : ProgressWrite) (hWrite : s.writes[j]? = some (some write))
    (hOn : write.task = i) (hAlive : isOwnerAlive s.procs task.row.owner = true) :
    EntryStep s i task (.progressCommit j)
      { task with row := updateBackgroundTask write.fields write.read task.row }
  | recover (k : Nat) (now : Time) (stale : List (Nat × TaskRow)) (read : TaskRow)
    (hPhase : s.recoveries[k]? = some (.judging [] stale)) (hRead : stale.lookup i = some read) :
    EntryStep s i task (.recoverCommit k now)
      { task with row := ((recoveryFields now).changed read).apply task.row }

variable {stale : List (Nat × TaskRow)}

section

variable {s t : TaskState} {a : TaskAction} {i : Nat} {task task' : TaskEntry}

theorem getElem?_recoverTasks {tasks : List TaskEntry} {now : Time}
    (hTask : tasks[i]? = some task) :
    (recoverTasks tasks stale now)[i]? = some (match stale.lookup i with
      | some read => { task with row := ((recoveryFields now).changed read).apply task.row }
      | none => task) := by
  rw [recoverTasks, List.getElem?_mapIdx, hTask]
  rfl

theorem entry_step (h : TaskDoes s a t) (hTask : s.tasks[i]? = some task) :
    ∃ task', t.tasks[i]? = some task' ∧ EntryStep s i task a task' := by
  have hLt := (List.getElem?_eq_some_iff.mp hTask).1
  cases h with
  | create owner message kind now hAlive =>
    exact ⟨task, (List.getElem?_append_left hLt).trans hTask, .same _⟩
  | runner j move other other' hOther hAlive hMove =>
    by_cases hEq : j = i
    · subst hEq
      obtain rfl := Option.mem_unique hOther hTask
      exact ⟨other', List.getElem?_set_self hLt, .move move other' hAlive hMove⟩
    · exact ⟨task, (List.getElem?_set_ne hEq).trans hTask, .same _⟩
  | progressCommit j write other hWrite hOther hAlive =>
    by_cases hEq : write.task = i
    · subst hEq
      obtain rfl := Option.mem_unique hOther hTask
      exact ⟨_, List.getElem?_set_self hLt, .progress j write hWrite rfl hAlive⟩
    · exact ⟨task, (List.getElem?_set_ne hEq).trans hTask, .same _⟩
  | recoverCommit k now stale hPhase =>
    refine ⟨_, getElem?_recoverTasks hTask, ?_⟩
    cases hRead : stale.lookup i with
    | none => exact .same _
    | some read => exact .recover k now stale read hPhase hRead
  | _ => exact ⟨task, hTask, .same _⟩

/-- A task after the step is one of before or a new one. -/
theorem entry_of_step (h : TaskDoes s a t) (hTask : t.tasks[i]? = some task') :
    (∃ task, s.tasks[i]? = some task ∧ EntryStep s i task a task') ∨
    ∃ (owner : Owner) (message : String) (kind : RunnerKind) (now : Time), isOwnerAlive s.procs (some owner) = true ∧
      task' = { row := queuedRow owner message, runner := .starting (kind.startFields now) } := by
  cases hOld : s.tasks[i]? with
  | some task =>
    obtain ⟨other, hOther, hStep⟩ := entry_step h hOld
    obtain rfl := Option.mem_unique hOther hTask
    exact .inl ⟨task, rfl, hStep⟩
  | none =>
    have hGe := List.getElem?_eq_none_iff.mp hOld
    have hLt := (List.getElem?_eq_some_iff.mp hTask).1
    cases h with
    | create owner message kind now hAlive =>
      rw [List.getElem?_append_right hGe] at hTask
      have hNew := mem_singleton.mp (mem_of_getElem? hTask)
      exact .inr ⟨owner, message, kind, now, hAlive, hNew⟩
    | runner j move other other' hOther hAlive hMove =>
      have hLt : i < (s.tasks.set j other').length := hLt
      rw [length_set] at hLt
      omega
    | progressCommit j write other hWrite hOther hAlive =>
      have hLt : i < (s.tasks.set write.task _).length := hLt
      rw [length_set] at hLt
      omega
    | recoverCommit k now stale hPhase =>
      have hLt : i < (recoverTasks s.tasks stale now).length := hLt
      rw [recoverTasks, length_mapIdx] at hLt
      omega
    | _ => exact absurd hLt (Nat.not_lt.mpr hGe)

/-- The writes of a runner keep the owner and, until it starts, say that it runs. -/
theorem owner_of_move {move : RunnerMove} (h : runnerMove task move = some task') :
    task'.row.owner = task.row.owner := by
  cases move with
  | commit =>
    simp only [runnerMove] at h
    split at h <;> cases h <;> rfl
  | start =>
    simp only [runnerMove] at h
    split at h <;> cases h
    rfl
  | finish ending now =>
    simp only [runnerMove] at h
    split at h
    · cases h
      rfl
    · split at h <;> cases h
      rfl
    · cases h
  | retry | giveUp =>
    simp only [runnerMove] at h
    split at h <;> cases h <;> rfl

theorem owner_of_entry (h : EntryStep s i task a task') : task'.row.owner = task.row.owner := by
  cases h with
  | move move task' hAlive hMove => exact owner_of_move hMove
  | _ => rfl

/-! ## Processes -/

/-- A process that has died does not come back. -/
theorem alive_before (h : TaskDoes s a t) {owner : Option Owner}
    (hSeen : ∀ o ∈ owner, o ∈ s.seen) (hAlive : isOwnerAlive t.procs owner = true) :
    isOwnerAlive s.procs owner = true := by
  cases owner with
  | none => cases hAlive
  | some o =>
    cases h with
    | boot owner hFree hNew =>
      have hAlive : update s.procs owner.pid (some owner.startTicks) o.pid ==
          some o.startTicks := hAlive
      by_cases hPid : o.pid = owner.pid
      · rw [hPid, update_self] at hAlive
        have hTicks := Option.some.inj (beq_iff_eq.mp hAlive)
        have hSame : o = owner := by
          cases o
          cases owner
          simp_all
        exact absurd (hSeen o rfl) (hSame ▸ hNew)
      · rwa [update_of_ne hPid] at hAlive
    | die pid =>
      have hAlive : update s.procs pid none o.pid == some o.startTicks := hAlive
      by_cases hPid : o.pid = pid
      · rw [hPid, update_self] at hAlive
        cases hAlive
      · rwa [update_of_ne hPid] at hAlive
    | _ => exact hAlive

end

/-! ## The invariant -/

/-- The start writes that are left. -/
def TaskEntry.pending (task : TaskEntry) : List TaskFields :=
  match task.runner with
  | .starting pending => pending
  | .startWrite fields _ pending => fields :: pending
  | _ => []

/-- As long as its process lives, a task has the status that its runner has given it. -/
structure EntryOk (procs : Nat → Option Nat) (task : TaskEntry) : Prop where
  pending : ∀ fields ∈ task.pending, fields.status = some .running
  startRead : isOwnerAlive procs task.row.owner = true → ∀ fields read pending,
    task.runner = .startWrite fields read pending → read.status = task.row.status
  running : isOwnerAlive procs task.row.owner = true → task.reports = true →
    task.finished = false → task.row.status = .running
  endRead : isOwnerAlive procs task.row.owner = true → ∀ ending now read,
    task.runner = .endWrite ending now read → read.status = .running
  finished : task.finished = true → task.row.status.unfinished = false

/-- A progress write has read the row while its runner worked, or after it had finished. -/
def WriteOk (tasks : List TaskEntry) (write : ProgressWrite) : Prop :=
  (∃ percent stage message, write.fields = progressFields percent stage message) ∧
  ∃ task, tasks[write.task]? = some task ∧ task.reports = true ∧
    (write.read.status = .running ∨ task.finished = true)

/-- A recovery has read rows of tasks that were not finished, and marks those of dead owners. -/
def RecoveryOk (s : TaskState) : RecoveryPhase → Prop
  | .judging rows stale =>
    (∀ read ∈ rows ++ stale, read.2.status.unfinished = true ∧
      ∃ task, s.tasks[read.1]? = some task ∧ task.row.owner = read.2.owner) ∧
    ∀ read ∈ stale, isOwnerAlive s.procs read.2.owner = false
  | .committed | .dropped => True

structure TaskInv (s : TaskState) : Prop where
  owners : ∀ task ∈ s.tasks, ∀ owner ∈ task.row.owner, owner ∈ s.seen
  procs : ∀ owner, isOwnerAlive s.procs (some owner) = true → owner ∈ s.seen
  entries : ∀ task ∈ s.tasks, EntryOk s.procs task
  writes : ∀ write, some write ∈ s.writes → WriteOk s.tasks write
  recoveries : ∀ phase ∈ s.recoveries, RecoveryOk s phase

variable {write : ProgressWrite} {k : Nat} {run : List TaskAction}

section

variable {s t : TaskState} {a : TaskAction} {i : Nat} {task task' : TaskEntry}
  {fields : TaskFields} {read row : TaskRow}

theorem status_update (status : TaskStatus) (hStatus : fields.status = some status) :
    (updateBackgroundTask fields read row).status =
      if read.status = status then row.status else status := by
  simp only [updateBackgroundTask, TaskFields.changed, TaskFields.apply, hStatus, unlessSame]
  by_cases hSame : read.status = status
  · rw [if_pos hSame, filter_some, if_neg (by simp [hSame])]
    rfl
  · rw [if_neg hSame, filter_some, if_pos (by simpa using Ne.symm hSame)]
    rfl

/-- A timely progress write changes nothing of what tells how a task has ended. -/
theorem sameEnd_progress {percent : Option Int} {stage message : Option String}
    (hRead : read.status = .running) :
    SameEnd row (updateBackgroundTask (progressFields percent stage message) read row) where
  status := by rw [status_update .running rfl, if_pos hRead]
  output := rfl
  error := rfl
  finishedAt := rfl

theorem status_end (ending : TaskEnd) (now : Time) :
    (ending.fields now).status = some ending.status := by
  cases ending <;> rfl

theorem unfinished_end (ending : TaskEnd) : ending.status.unfinished = false := by
  cases ending <;> rfl

theorem status_recover (now : Time) (hRead : read.status.unfinished = true) :
    (((recoveryFields now).changed read).apply row).status = .failed := by
  have hNe : read.status ≠ .failed := by
    rintro hFailed
    rw [hFailed] at hRead
    cases hRead
  simp only [TaskFields.apply, TaskFields.changed, recoveryFields, unlessSame]
  rw [filter_some, if_pos (by simpa using Ne.symm hNe)]
  rfl

theorem status_startFields {kind : RunnerKind} {now : Time} :
    ∀ fields ∈ kind.startFields now, fields.status = some .running := by
  intro fields hFields
  cases kind with
  | background runningMessage startingStage startingPercent =>
    rw [mem_singleton.mp hFields]
  | cidr =>
    rcases mem_pair.mp hFields with rfl | rfl
    · rfl
    · rfl

theorem EntryOk.procs {procs procs' : Nat → Option Nat} (h : EntryOk procs task)
    (hAlive : isOwnerAlive procs' task.row.owner = true →
      isOwnerAlive procs task.row.owner = true) : EntryOk procs' task where
  pending := h.pending
  startRead := fun hLive => h.startRead (hAlive hLive)
  running := fun hLive => h.running (hAlive hLive)
  endRead := fun hLive => h.endRead (hAlive hLive)
  finished := h.finished

variable {procs : Nat → Option Nat}

/-- A commit that leaves the status alone. -/
theorem EntryOk.setRow (h : EntryOk procs task)
    (hStatus : row.status = task.row.status) (hOwner : row.owner = task.row.owner) :
    EntryOk procs { task with row := row } where
  pending := h.pending
  startRead := by
    intro hLive fields read pending hRunner
    show read.status = row.status
    rw [hStatus]
    exact h.startRead (hOwner ▸ hLive) fields read pending hRunner
  running := by
    intro hLive hReports hFinished
    exact hStatus.trans (h.running (hOwner ▸ hLive) hReports hFinished)
  endRead := fun hLive => h.endRead (hOwner ▸ hLive)
  finished := by
    intro hFinished
    show row.status.unfinished = false
    rw [hStatus]
    exact h.finished hFinished

/-- A task whose runner is at work. -/
theorem entryOk_working {runner : RunnerPhase}
    (hPending : TaskEntry.pending ⟨row, runner⟩ = [])
    (hNot : ∀ fields read pending, runner ≠ .startWrite fields read pending)
    (hFinished : runner ≠ .finished) (hStatus : row.status = .running)
    (hRead : ∀ ending now read, runner = .endWrite ending now read → read.status = .running) :
    EntryOk procs ⟨row, runner⟩ where
  pending := by
    rw [hPending]
    exact fun fields hFields => absurd hFields not_mem_nil
  startRead := fun _ fields read pending hRunner => absurd hRunner (hNot fields read pending)
  running := fun _ _ _ => hStatus
  endRead := fun _ => hRead
  finished := fun hDone => absurd (of_decide_eq_true hDone) hFinished

theorem entryOk_starting {pending : List TaskFields}
    (hPending : ∀ fields ∈ pending, fields.status = some .running) :
    EntryOk procs ⟨row, .starting pending⟩ where
  pending := hPending
  startRead := fun _ fields read pending hRunner => by cases hRunner
  running := nofun
  endRead := fun _ ending now read hRunner => by cases hRunner
  finished := fun hDone => by cases of_decide_eq_true hDone

theorem entryOk_startWrite {pending : List TaskFields}
    (hPending : ∀ other ∈ fields :: pending, other.status = some .running) :
    EntryOk procs ⟨row, .startWrite fields row pending⟩ where
  pending := hPending
  startRead := by
    intro _ fields' read pending' hRunner
    obtain ⟨-, rfl, -⟩ := RunnerPhase.startWrite.inj hRunner
    rfl
  running := nofun
  endRead := fun _ ending now read hRunner => by cases hRunner
  finished := fun hDone => by cases of_decide_eq_true hDone

theorem entryOk_gone : EntryOk procs ⟨row, .gone⟩ where
  pending := fun fields hFields => absurd hFields not_mem_nil
  startRead := fun _ fields read pending hRunner => by cases hRunner
  running := nofun
  endRead := fun _ ending now read hRunner => by cases hRunner
  finished := fun hDone => by cases of_decide_eq_true hDone

theorem entryOk_finished (hStatus : row.status.unfinished = false) :
    EntryOk procs ⟨row, .finished⟩ where
  pending := fun fields hFields => absurd hFields not_mem_nil
  startRead := fun _ fields read pending hRunner => by cases hRunner
  running := fun _ _ hFinished => by cases of_decide_eq_false hFinished rfl
  endRead := fun _ ending now read hRunner => by cases hRunner
  finished := fun _ => hStatus

theorem entryOk_endWrite (hStatus : row.status = .running) (ending : TaskEnd) (now : Time) :
    EntryOk procs ⟨row, .endWrite ending now row⟩ := by
  refine entryOk_working rfl (fun fields read pending hEq => by cases hEq)
    nofun hStatus ?_
  intro ending' now' read hRunner
  obtain ⟨-, -, rfl⟩ := RunnerPhase.endWrite.inj hRunner
  exact hStatus

/-- The runner of a task moves on. -/
theorem entryOk_move {move : RunnerMove} (h : EntryOk procs task)
    (hAlive : isOwnerAlive procs task.row.owner = true)
    (hMove : runnerMove task move = some task') : EntryOk procs task' := by
  obtain ⟨row, runner⟩ := task
  cases move with
  | start =>
    simp only [runnerMove] at hMove
    split at hMove <;> cases hMove
    exact entryOk_startWrite h.pending
  | finish ending now =>
    simp only [runnerMove] at hMove
    split at hMove
    · cases hMove
      exact entryOk_endWrite (h.running hAlive rfl rfl) ending now
    · split at hMove <;> cases hMove
      exact entryOk_endWrite (h.running hAlive rfl rfl) ending now
    · cases hMove
  | commit =>
    simp only [runnerMove] at hMove
    split at hMove
    · next fields read pending =>
      cases hMove
      -- nobody has moved the row since the runner read it, so the update writes running
      have hRead : read.status = row.status := h.startRead hAlive fields read pending rfl
      have hFields : fields.status = some .running := h.pending fields mem_cons_self
      have hStatus : (updateBackgroundTask fields read row).status = .running := by
        rw [status_update .running hFields]
        split
        · next hSame => exact hRead.symm.trans hSame
        · rfl
      split
      · exact entryOk_working rfl (fun fields read pending hEq => by cases hEq)
          nofun hStatus fun ending now read hEq => by cases hEq
      · exact entryOk_starting fun other hOther =>
          h.pending other (mem_cons_of_mem _ hOther)
    · next ending now read =>
      cases hMove
      -- the end is written over a row that is still running
      have hRead : read.status = .running := h.endRead hAlive ending now read rfl
      refine entryOk_finished ?_
      rw [status_update ending.status (status_end ending now), hRead]
      split
      · next hSame =>
        have hEnd := unfinished_end ending
        rw [← hSame] at hEnd
        cases hEnd
      · exact unfinished_end ending
    · cases hMove
  | retry =>
    simp only [runnerMove] at hMove
    split at hMove <;> cases hMove
    · exact entryOk_startWrite h.pending
    · next ending now read => exact entryOk_endWrite (h.running hAlive rfl rfl) ending now
  | giveUp =>
    simp only [runnerMove] at hMove
    split at hMove <;> cases hMove
    · exact entryOk_gone
    · split <;>
        exact entryOk_working rfl (fun fields read pending hEq => by cases hEq)
          nofun (h.running hAlive rfl rfl) fun ending now read hEq => by
            cases hEq

theorem mem_unfinishedRows {read : Nat × TaskRow} :
    read ∈ s.unfinishedRows ↔
      ∃ task, s.tasks[read.1]? = some task ∧ task.row = read.2 ∧
        read.2.status.unfinished = true := by
  obtain ⟨i, row⟩ := read
  simp only [TaskState.unfinishedRows, List.mem_map, mem_filter, Prod.exists, Prod.mk.injEq,
    mk_mem_zipIdx_iff_getElem?]
  constructor
  · rintro ⟨task, j, ⟨hTask, hStatus⟩, rfl, rfl⟩
    exact ⟨task, hTask, rfl, hStatus⟩
  · rintro ⟨task, hTask, rfl, hStatus⟩
    exact ⟨task, i, ⟨hTask, hStatus⟩, rfl, rfl⟩

theorem mem_of_lookup (h : stale.lookup i = some read) : (i, read) ∈ stale := by
  obtain ⟨before, after, rfl, -⟩ := lookup_eq_some_iff.mp h
  exact mem_append_right _ mem_cons_self

/-- No step takes up a finished task. -/
theorem finished_of_entry (h : EntryStep s i task a task') (hFinished : task.finished = true) :
    task'.finished = true := by
  cases h with
  | move move task' hAlive hMove =>
    have hRunner : task.runner = .finished := of_decide_eq_true hFinished
    cases move <;> simp [runnerMove, hRunner] at hMove
  | _ => exact hFinished

theorem reports_of_entry (h : EntryStep s i task a task') (hReports : task.reports = true) :
    task'.reports = true := by
  cases h with
  | move move task' hAlive hMove =>
    obtain ⟨row, runner⟩ := task
    cases runner with
    | starting pending | startWrite fields read pending | gone => cases hReports
    | working =>
      cases move <;> cases hMove
      rfl
    | interrupted =>
      cases move with
      | finish ending now =>
        simp only [runnerMove] at hMove
        split at hMove <;> cases hMove
        rfl
      | _ => cases hMove
    | endWrite ending now read =>
      cases move <;> cases hMove
      · rfl
      · rfl
      · show TaskEntry.reports ⟨row, if ending.isRaised then .lost else .interrupted⟩ = true
        split <;> rfl
    | finished | lost => cases move <;> cases hMove
  | _ => exact hReports

/-- A write that a timely step commits had found the task running. -/
theorem read_running (h : TaskInv s) {j : Nat}
    (hTimely : Timely s (.progressCommit j)) (hWrite : s.writes[j]? = some (some write)) :
    write.read.status = .running := by
  obtain ⟨-, task, hTask, -, hRead | hFinished⟩ := h.writes write (mem_of_getElem? hWrite)
  · exact hRead
  · exact hTimely write (by rw [hWrite]; rfl) task hTask hFinished

theorem sameEnd_write (h : TaskInv s) {j : Nat}
    (hTimely : Timely s (.progressCommit j)) (hWrite : s.writes[j]? = some (some write)) :
    SameEnd row (updateBackgroundTask write.fields write.read row) := by
  have hRead := read_running h hTimely hWrite
  obtain ⟨⟨percent, stage, message, hFields⟩, -⟩ := h.writes write (mem_of_getElem? hWrite)
  rw [hFields]
  exact sameEnd_progress hRead

/-- What a recovery marks has a dead owner. -/
theorem dead_of_stale (h : TaskInv s)
    (hPhase : s.recoveries[k]? = some (.judging [] stale)) (hRead : stale.lookup i = some read)
    (hTask : s.tasks[i]? = some task) :
    read.status.unfinished = true ∧ isOwnerAlive s.procs task.row.owner = false := by
  obtain ⟨hRows, hDead⟩ := h.recoveries _ (mem_of_getElem? hPhase)
  have hMem := mem_of_lookup hRead
  obtain ⟨hStatus, other, hOther, hOwner⟩ := hRows (i, read) hMem
  obtain rfl := Option.mem_unique hOther hTask
  refine ⟨hStatus, ?_⟩
  rw [hOwner]
  exact hDead (i, read) hMem

/-- **One step**, for one task. -/
theorem entryOk_step (h : TaskInv s) (hTimely : Timely s a) (hDoes : TaskDoes s a t)
    (hTask : s.tasks[i]? = some task) (hStep : EntryStep s i task a task') :
    EntryOk t.procs task' := by
  have hMem := mem_of_getElem? hTask
  have hOk := h.entries task hMem
  have hBefore : isOwnerAlive t.procs task'.row.owner = true →
      isOwnerAlive s.procs task'.row.owner = true := by
    refine alive_before hDoes ?_
    rw [owner_of_entry hStep]
    exact h.owners task hMem
  refine EntryOk.procs ?_ hBefore
  cases hStep with
  | same => exact hOk
  | move move task' hAlive hMove => exact entryOk_move hOk hAlive hMove
  | progress j write hWrite hOn hAlive =>
    exact hOk.setRow (sameEnd_write h hTimely hWrite).status rfl
  | recover k now stale read hPhase hRead =>
    obtain ⟨-, hDead⟩ := dead_of_stale h hPhase hRead hTask
    have hFinished := hTimely _ hPhase (i, read) (mem_of_lookup hRead) task hTask
    have hNot : ¬ isOwnerAlive s.procs task.row.owner = true := Bool.eq_false_iff.mp hDead
    exact
      { pending := hOk.pending
        startRead := fun hAlive => absurd hAlive hNot
        running := fun hAlive => absurd hAlive hNot
        endRead := fun hAlive => absurd hAlive hNot
        finished := fun hDone => absurd hDone (Bool.eq_false_iff.mp hFinished) }

theorem WriteOk.step (h : WriteOk s.tasks write) (hDoes : TaskDoes s a t) : WriteOk t.tasks write := by
  obtain ⟨hFields, task, hTask, hReports, hRead⟩ := h
  obtain ⟨task', hTask', hStep⟩ := entry_step hDoes hTask
  refine ⟨hFields, task', hTask', reports_of_entry hStep hReports, ?_⟩
  exact hRead.imp_right (finished_of_entry hStep)

/-- A process that has died stays dead. -/
theorem dead_after (h : TaskInv s) (hDoes : TaskDoes s a t) (hTask : s.tasks[i]? = some task)
    (hDead : isOwnerAlive s.procs task.row.owner = false) :
    isOwnerAlive t.procs task.row.owner = false := by
  rw [Bool.eq_false_iff] at hDead ⊢
  exact fun hAlive => hDead
    (alive_before hDoes (h.owners task (mem_of_getElem? hTask)) hAlive)

/-- What a recovery has read and judged stays true. -/
theorem RecoveryOk.step {phase : RecoveryPhase} (h : TaskInv s) (hPhase : RecoveryOk s phase)
    (hDoes : TaskDoes s a t) : RecoveryOk t phase := by
  cases phase with
  | judging rows stale =>
    obtain ⟨hRows, hDead⟩ := hPhase
    refine ⟨?_, ?_⟩
    · intro read hRead
      obtain ⟨hStatus, task, hTask, hOwner⟩ := hRows read hRead
      obtain ⟨task', hTask', hStep⟩ := entry_step hDoes hTask
      exact ⟨hStatus, task', hTask', (owner_of_entry hStep).trans hOwner⟩
    · intro read hRead
      obtain ⟨-, task, hTask, hOwner⟩ := hRows read (mem_append_right _ hRead)
      have hBefore := hDead read hRead
      rw [← hOwner] at hBefore ⊢
      exact dead_after h hDoes hTask hBefore
  | committed | dropped => trivial

theorem recoveryOk_unfinishedRows : RecoveryOk s (.judging s.unfinishedRows []) := by
  refine ⟨?_, fun read hRead => absurd hRead not_mem_nil⟩
  intro read hRead
  rw [append_nil] at hRead
  obtain ⟨task, hTask, hRow, hStatus⟩ := mem_unfinishedRows.mp hRead
  exact ⟨hStatus, task, hTask, by rw [hRow]⟩

theorem seen_step (hDoes : TaskDoes s a t) : ∀ owner ∈ s.seen, owner ∈ t.seen := by
  intro owner hOwner
  cases hDoes with
  | boot other hFree hNew => exact mem_cons_of_mem _ hOwner
  | _ => exact hOwner

theorem alive_seen (h : TaskInv s) (hDoes : TaskDoes s a t) (owner : Owner)
    (hAlive : isOwnerAlive t.procs (some owner) = true) : owner ∈ t.seen := by
  cases hDoes with
  | boot other hFree hNew =>
    by_cases hSame : owner = other
    · exact hSame ▸ mem_cons_self
    refine mem_cons_of_mem _ (h.procs owner ?_)
    have hAlive : update s.procs other.pid (some other.startTicks) owner.pid ==
        some owner.startTicks := hAlive
    by_cases hPid : owner.pid = other.pid
    · rw [hPid, update_self] at hAlive
      have hTicks := Option.some.inj (beq_iff_eq.mp hAlive)
      refine absurd ?_ hSame
      cases owner
      cases other
      simp_all
    · rwa [update_of_ne hPid] at hAlive
  | die pid =>
    refine h.procs owner ?_
    have hAlive : update s.procs pid none owner.pid == some owner.startTicks := hAlive
    by_cases hPid : owner.pid = pid
    · rw [hPid, update_self] at hAlive
      cases hAlive
    · rwa [update_of_ne hPid] at hAlive
  | _ => exact h.procs owner hAlive

/-- A write on its way has read its row while the runner worked, or after it. -/
theorem writes_step (h : TaskInv s) (hDoes : TaskDoes s a t) (write : ProgressWrite)
    (hWrite : some write ∈ t.writes) : WriteOk t.tasks write := by
  have hOld : ∀ write, some write ∈ s.writes → WriteOk t.tasks write := fun write hWrite =>
    (h.writes write hWrite).step hDoes
  -- a row that is read now is that of a task that runs or is finished
  have hRead : ∀ {i : Nat} {task : TaskEntry}, s.tasks[i]? = some task →
      isOwnerAlive s.procs task.row.owner = true → task.reports = true →
      task.row.status = .running ∨ task.finished = true := by
    intro i task hTask hAlive hReports
    cases hFinished : task.finished with
    | true => exact .inr rfl
    | false =>
      have hOk := h.entries task (mem_of_getElem? hTask)
      exact .inl (hOk.running hAlive hReports hFinished)
  cases hDoes with
  | progress i percent stage message task hTask hAlive hReports =>
    rcases mem_append.mp hWrite with hMem | hNew
    · exact hOld write hMem
    · rw [Option.some.inj (mem_singleton.mp hNew)]
      exact ⟨⟨percent, stage, message, rfl⟩, task, hTask, hReports, hRead hTask hAlive hReports⟩
  | progressCommit j other task hOther hTask hAlive =>
    rcases mem_or_eq_of_mem_set hWrite with hMem | hNew
    · exact hOld write hMem
    · cases hNew
  | progressRetry j other task hOther hTask hAlive =>
    rcases mem_or_eq_of_mem_set hWrite with hMem | hNew
    · exact hOld write hMem
    · rw [Option.some.inj hNew]
      obtain ⟨hFields, task', hTask', hReports, -⟩ := h.writes other (mem_of_getElem? hOther)
      obtain rfl := Option.mem_unique hTask' hTask
      exact ⟨hFields, task', hTask, hReports, hRead hTask hAlive hReports⟩
  | progressGiveUp j =>
    rcases mem_or_eq_of_mem_set hWrite with hMem | hNew
    · exact hOld write hMem
    · cases hNew
  | _ => exact hOld write hWrite

theorem recoveries_step (h : TaskInv s) (hDoes : TaskDoes s a t) (phase : RecoveryPhase)
    (hPhase : phase ∈ t.recoveries) : RecoveryOk t phase := by
  have hOld : ∀ phase ∈ s.recoveries, RecoveryOk t phase := fun phase hPhase =>
    (h.recoveries phase hPhase).step h hDoes
  have hSet : ∀ (k : Nat) (next : RecoveryPhase), phase ∈ s.recoveries.set k next →
      RecoveryOk t next → RecoveryOk t phase := by
    intro k next hMem hNext
    rcases mem_or_eq_of_mem_set hMem with hMem | rfl
    · exact hOld phase hMem
    · exact hNext
  cases hDoes with
  | recover =>
    rcases mem_append.mp hPhase with hMem | hNew
    · exact hOld phase hMem
    · rw [mem_singleton.mp hNew]
      exact recoveryOk_unfinishedRows (s := s)
  | judge k i row rows stale hJudging =>
    refine hSet k _ hPhase ?_
    obtain ⟨hRows, hDead⟩ := h.recoveries _ (mem_of_getElem? hJudging)
    split
    · refine ⟨fun read hRead => hRows read ?_, hDead⟩
      rw [cons_append]
      exact mem_cons_of_mem _ hRead
    · next hOwner =>
      refine ⟨fun read hRead => hRows read ?_, ?_⟩
      · simp only [mem_append, mem_cons, not_mem_nil, or_false] at hRead ⊢
        tauto
      intro read hRead
      rcases mem_append.mp hRead with hStale | hNew
      · exact hDead read hStale
      · rw [mem_singleton.mp hNew]
        exact Bool.eq_false_iff.mpr hOwner
  | recoverCommit k now stale hJudging => exact hSet k _ hPhase trivial
  | recoverRetry k stale hJudging =>
    exact hSet k _ hPhase (recoveryOk_unfinishedRows (s := s))
  | recoverGiveUp k rows stale hJudging => exact hSet k _ hPhase trivial
  | _ => exact hOld phase hPhase

/-- **One step**, for all tasks. -/
theorem inv_step (h : TaskInv s) (hTimely : Timely s a) (hStep : taskStep s a = some t) :
    TaskInv t := by
  have hDoes := taskDoes_of_step hStep
  refine ⟨?_, alive_seen h hDoes, ?_, writes_step h hDoes, recoveries_step h hDoes⟩
  · intro task' hMem owner hOwner
    obtain ⟨i, hTask'⟩ := mem_iff_getElem?.mp hMem
    rcases entry_of_step hDoes hTask' with ⟨task, hTask, hEntry⟩ | ⟨o, message, kind, now, hAlive, rfl⟩
    · rw [owner_of_entry hEntry] at hOwner
      exact seen_step hDoes owner (h.owners task (mem_of_getElem? hTask) owner hOwner)
    · obtain rfl := Option.some.inj hOwner
      exact seen_step hDoes o (h.procs o hAlive)
  · intro task' hMem
    obtain ⟨i, hTask'⟩ := mem_iff_getElem?.mp hMem
    rcases entry_of_step hDoes hTask' with ⟨task, hTask, hEntry⟩ | ⟨o, message, kind, now, -, rfl⟩
    · exact entryOk_step h hTimely hDoes hTask hEntry
    · exact entryOk_starting status_startFields

/-! ## Runs -/

theorem SameEnd.trans {a b c : TaskRow} (h : SameEnd a b) (h' : SameEnd b c) : SameEnd a c :=
  ⟨h'.status.trans h.status, h'.output.trans h.output, h'.error.trans h.error,
    h'.finishedAt.trans h.finishedAt⟩

/-- A finished task keeps its end in a timely step. -/
theorem sameEnd_entry (h : TaskInv s) (hTimely : Timely s a) (hTask : s.tasks[i]? = some task)
    (hFinished : task.finished = true) (hEntry : EntryStep s i task a task') :
    SameEnd task.row task'.row := by
  cases hEntry with
  | same => exact ⟨rfl, rfl, rfl, rfl⟩
  | move move task' hAlive hMove =>
    have hRunner : task.runner = .finished := of_decide_eq_true hFinished
    cases move <;> simp [runnerMove, hRunner] at hMove
  | progress j write hWrite hOn hAlive => exact sameEnd_write h hTimely hWrite
  | recover k now stale read hPhase hRead =>
    have hOpen := hTimely _ hPhase (i, read) (mem_of_lookup hRead) task hTask
    rw [hFinished] at hOpen
    cases hOpen

/-- Finished tasks stay as they are. -/
theorem finishedStay (hInv : TaskInv s)
    (hTimely : Along taskStep Timely s run) (hRun : exec taskStep s run = some t) :
    FinishedStay s run t := by
  rintro past rest u i task rfl hPast hTask hFinished
  have hInvU : TaskInv u :=
    Lib.invariant_exec (fun _ _ _ h hTimely hStep => inv_step h hTimely hStep) hInv hTimely.past
      hPast
  refine ⟨(hInvU.entries task (mem_of_getElem? hTask)).finished hFinished, ?_⟩
  obtain ⟨u', hPast', hRest⟩ := Lib.exec_append_iff.mp hRun
  obtain rfl := Option.mem_unique hPast hPast'
  have hEnd : TaskInv t ∧ ∃ task' : TaskEntry, t.tasks[i]? = some task' ∧
      task'.finished = true ∧ SameEnd task.row task'.row := by
    refine @Lib.invariant_exec _ _ _ (fun s => TaskInv s ∧ ∃ task' : TaskEntry,
      s.tasks[i]? = some task' ∧ task'.finished = true ∧ SameEnd task.row task'.row) Timely
      ?_ u t rest ⟨hInvU, task, hTask, hFinished, rfl, rfl, rfl, rfl⟩ (hTimely.rest hPast) hRest
    rintro s a s' ⟨h, other, hOther, hDone, hSame⟩ hTimely hStep
    obtain ⟨other', hOther', hEntry⟩ := entry_step (taskDoes_of_step hStep) hOther
    exact ⟨inv_step h hTimely hStep, other', hOther', finished_of_entry hEntry hDone,
      hSame.trans (sameEnd_entry h hTimely hOther hDone hEntry)⟩
  obtain ⟨-, task', hTask', -, hSame⟩ := hEnd
  exact ⟨task', hTask', hSame⟩

/-- Tasks of living processes are spared. -/
theorem sparesLiving (hInv : TaskInv s)
    (hTimely : Along taskStep Timely s run) : SparesLiving s run := by
  rintro past k now rest u u' i task rfl hPast hStep hTask hAlive
  have hInvU : TaskInv u :=
    Lib.invariant_exec (fun _ _ _ h hTimely hStep => inv_step h hTimely hStep) hInv hTimely.past
      hPast
  obtain ⟨task', hTask', hEntry⟩ := entry_step (taskDoes_of_step hStep) hTask
  cases hEntry with
  | same => exact hTask'
  | recover k now stale read hPhase hRead =>
    obtain ⟨-, hDead⟩ := dead_of_stale hInvU hPhase hRead hTask
    rw [hAlive] at hDead
    cases hDead

/-- The recovery has the task on its lists, or has been given up. -/
def OnLists (i k : Nat) (s : TaskState) : Prop :=
  (∃ rows stale, s.recoveries[k]? = some (.judging rows stale) ∧
    ∃ row, (i, row) ∈ rows ++ stale) ∨ s.recoveries[k]? = some .dropped

/-- A task whose owner is dead is marked, or the recovery will mark it. -/
def Awaits (i k : Nat) (s : TaskState) : Prop :=
  ∃ task : TaskEntry, s.tasks[i]? = some task ∧
    isOwnerAlive s.procs task.row.owner = false ∧
    (task.row.status = .failed ∨ task.row.status.unfinished = true ∧ OnLists i k s)

/-- Only a recovery changes the task of a dead owner. -/
theorem entry_of_dead (h : TaskInv s) (hTask : s.tasks[i]? = some task)
    (hDead : isOwnerAlive s.procs task.row.owner = false) (hEntry : EntryStep s i task a task') :
    task' = task ∨ task'.row.status = .failed := by
  cases hEntry with
  | same => exact .inl rfl
  | move move task' hAlive hMove | progress j write hWrite hOn hAlive =>
    rw [hDead] at hAlive
    cases hAlive
  | recover k now stale read hPhase hRead =>
    obtain ⟨hStatus, -⟩ := dead_of_stale h hPhase hRead hTask
    exact .inr (status_recover now hStatus)

/-- A step keeps the task on the lists, or it is the commit that marks it. -/
theorem onLists_step (h : TaskInv s) (hDoes : TaskDoes s a t)
    (hTask : s.tasks[i]? = some task) (hDead : isOwnerAlive s.procs task.row.owner = false)
    (hStatus : task.row.status.unfinished = true) (hLists : OnLists i k s) :
    OnLists i k t ∨ ∃ task', t.tasks[i]? = some task' ∧ task'.row.status = .failed := by
  have hSame : t.recoveries[k]? = s.recoveries[k]? → OnLists i k t := by
    intro hEq
    rw [OnLists, hEq]
    exact hLists
  have hLt : ∀ {phase : RecoveryPhase}, s.recoveries[k]? = some phase → k < s.recoveries.length :=
    fun hPhase => (List.getElem?_eq_some_iff.mp hPhase).1
  cases hDoes with
  | recover =>
    refine .inl (hSame (List.getElem?_append_left ?_))
    rcases hLists with ⟨rows, stale, hPhase, -⟩ | hPhase
    · exact hLt hPhase
    · exact hLt hPhase
  | judge j m row rows stale hPhase =>
    by_cases hEq : j = k
    · subst hEq
      refine .inl (.inl ⟨_, _, List.getElem?_set_self (hLt hPhase), ?_⟩)
      rcases hLists with ⟨rows', stale', hPhase', row', hMem⟩ | hDropped
      · obtain ⟨rfl, rfl⟩ := RecoveryPhase.judging.inj (Option.mem_unique hPhase hPhase')
        refine ⟨row', ?_⟩
        rcases mem_cons.mp hMem with hHead | hRest
        · cases hHead
          -- its owner is dead, so it is stale
          obtain ⟨hRows, -⟩ := h.recoveries _ (mem_of_getElem? hPhase)
          obtain ⟨-, other, hOther, hOwner⟩ := hRows _ hMem
          obtain rfl := Option.mem_unique hOther hTask
          rw [hOwner] at hDead
          rw [hDead]
          exact mem_append_right _ (mem_append_right _ mem_cons_self)
        · rcases mem_append.mp hRest with hRow | hStale
          · exact mem_append_left _ hRow
          · refine mem_append_right _ ?_
            split
            · exact hStale
            · exact mem_append_left _ hStale
      · rw [hPhase] at hDropped
        cases hDropped
    · exact .inl (hSame (List.getElem?_set_ne hEq))
  | recoverCommit j now stale hPhase =>
    by_cases hEq : j = k
    · subst hEq
      rcases hLists with ⟨rows', stale', hPhase', row', hMem⟩ | hDropped
      · obtain ⟨rfl, rfl⟩ := RecoveryPhase.judging.inj (Option.mem_unique hPhase hPhase')
        have hSome : (stale.lookup i).isSome = true :=
          lookup_isSome_iff.mpr ⟨(i, row'), hMem, beq_self_eq_true i⟩
        obtain ⟨read, hRead⟩ := isSome_iff_exists.mp hSome
        obtain ⟨hUnfinished, -⟩ := dead_of_stale h hPhase hRead hTask
        refine .inr ⟨_, getElem?_recoverTasks hTask, ?_⟩
        rw [hRead]
        exact status_recover now hUnfinished
      · rw [hPhase] at hDropped
        cases hDropped
    · exact .inl (hSame (List.getElem?_set_ne hEq))
  | recoverRetry j stale hPhase =>
    by_cases hEq : j = k
    · subst hEq
      refine .inl (.inl ⟨_, _, List.getElem?_set_self (hLt hPhase), task.row, ?_⟩)
      rw [append_nil]
      exact mem_unfinishedRows.mpr ⟨task, hTask, rfl, hStatus⟩
    · exact .inl (hSame (List.getElem?_set_ne hEq))
  | recoverGiveUp j rows stale hPhase =>
    by_cases hEq : j = k
    · subst hEq
      exact .inl (.inr (List.getElem?_set_self (hLt hPhase)))
    · exact .inl (hSame (List.getElem?_set_ne hEq))
  | _ => exact .inl (hSame rfl)

theorem awaits_step (h : TaskInv s) (hDoes : TaskDoes s a t) (hAwaits : Awaits i k s) :
    Awaits i k t := by
  obtain ⟨task, hTask, hDead, hFuture⟩ := hAwaits
  obtain ⟨task', hTask', hEntry⟩ := entry_step hDoes hTask
  have hDead' : isOwnerAlive t.procs task'.row.owner = false := by
    rw [owner_of_entry hEntry]
    exact dead_after h hDoes hTask hDead
  refine ⟨task', hTask', hDead', ?_⟩
  rcases entry_of_dead h hTask hDead hEntry with rfl | hFailed
  · rcases hFuture with hFailed | ⟨hStatus, hLists⟩
    · exact .inl hFailed
    · rcases onLists_step h hDoes hTask hDead hStatus hLists with hOn | ⟨other, hOther, hFailed⟩
      · exact .inr ⟨hStatus, hOn⟩
      · obtain rfl := Option.mem_unique hOther hTask'
        exact .inl hFailed
  · exact .inl hFailed

/-- Tasks of dead ones are marked. -/
theorem marksDead (hInv : TaskInv s)
    (hTimely : Along taskStep Timely s run) (hRun : exec taskStep s run = some t) :
    MarksDead s run t := by
  rintro past rest u i task rfl hPast hTask hStatus hDead hCommitted
  have hInvU : TaskInv u :=
    Lib.invariant_exec (fun _ _ _ h hTimely hStep => inv_step h hTimely hStep) hInv hTimely.past
      hPast
  obtain ⟨u', hPast', hRest⟩ := Lib.exec_append_iff.mp hRun
  obtain rfl := Option.mem_unique hPast hPast'
  obtain ⟨v, hStep, hRest⟩ := Lib.exec_cons_iff.mp hRest
  have hTimelyU := hTimely.rest hPast
  cases hStep
  have hStart : Awaits i u.recoveries.length
      { u with recoveries := u.recoveries ++ [.judging u.unfinishedRows []] } := by
    refine ⟨task, hTask, hDead, .inr ⟨hStatus, .inl ⟨_, _, List.getElem?_concat_length, ?_⟩⟩⟩
    refine ⟨task.row, ?_⟩
    rw [append_nil]
    exact mem_unfinishedRows.mpr ⟨task, hTask, rfl, hStatus⟩
  have hEnd := Lib.invariant_exec
    (fun s a s' (h : TaskInv s ∧ Awaits i u.recoveries.length s) hTimely hStep =>
      ⟨inv_step h.1 hTimely hStep, awaits_step h.1 (taskDoes_of_step hStep) h.2⟩)
    ⟨inv_step hInvU hTimelyU.1 rfl, hStart⟩ (hTimelyU.2 _ rfl) hRest
  obtain ⟨-, task', hTask', -, hFailed | ⟨-, hLists⟩⟩ := hEnd
  · exact ⟨task', hTask', hFailed⟩
  · rcases hLists with ⟨rows, stale, hPhase, -⟩ | hDropped
    · rw [hCommitted] at hPhase
      cases hPhase
    · rw [hCommitted] at hDropped
      cases hDropped

/-- Any rows whose runners are none of this system, no write under way. -/
structure TaskStart (s : TaskState) : Prop where
  gone : ∀ task ∈ s.tasks, task.runner = .gone
  owners : ∀ task ∈ s.tasks, ∀ owner ∈ task.row.owner, owner ∈ s.seen
  procs : ∀ owner, isOwnerAlive s.procs (some owner) = true → owner ∈ s.seen
  writes : s.writes = []
  recoveries : s.recoveries = []

theorem inv_taskStart (h : TaskStart s) : TaskInv s where
  owners := h.owners
  procs := h.procs
  entries := by
    intro task hMem
    obtain ⟨row, runner⟩ := task
    obtain rfl : runner = .gone := h.gone _ hMem
    exact entryOk_gone
  writes := by
    rw [h.writes]
    exact fun write hWrite => absurd hWrite not_mem_nil
  recoveries := by
    rw [h.recoveries]
    exact fun phase hPhase => absurd hPhase not_mem_nil

/-- In a run of timely commits finished tasks stay as they are, and recovery marks the tasks of dead
owners and of nobody else. -/
theorem finished_tasks_stay {run : List TaskAction} (hStart : TaskStart s)
    (hTimely : Along taskStep Timely s run) (hRun : exec taskStep s run = some t) :
    FinishedStay s run t ∧ SparesLiving s run ∧ MarksDead s run t :=
  ⟨finishedStay (inv_taskStart hStart) hTimely hRun, sparesLiving (inv_taskStart hStart) hTimely,
    marksDead (inv_taskStart hStart) hTimely hRun⟩

end

def emptyQueue : TaskState where
  procs := fun _ => none
  seen := []

theorem emptyQueue_start : TaskStart emptyQueue where
  gone := fun task hTask => by cases hTask
  owners := fun task hTask => by cases hTask
  procs := nofun
  writes := rfl
  recoveries := rfl

def oldWorker : Owner := ⟨10, 1⟩

/-- A process with the PID of the old worker. -/
def newWorker : Owner := ⟨10, 7⟩

/-- The old worker has started a task. -/
def started : List TaskAction :=
  [.boot oldWorker, .create oldWorker "Обновление" .cidr 0, .runner 0 .start, .runner 0 .commit,
    .runner 0 .start, .runner 0 .commit]

/-- A heartbeat reads the row, the task ends, the heartbeat commits; then the worker dies with
another task running, and a new one recovers it. -/
def orderlyRestart : List TaskAction :=
  started ++
    [.progress 0 (some 40) (some "Провайдер 1/2 (3с)") none,
      .runner 0 (.finish (.runnerCompleted "Готово" "log") 5), .runner 0 .commit,
      .progressCommit 0, .create oldWorker "Развёртывание" .cidr 6, .runner 1 .start,
      .runner 1 .commit, .die 10, .boot newWorker, .recover, .judge 0, .recoverCommit 0 9]

theorem orderly_restart_stays :
    ∃ t, exec taskStep emptyQueue orderlyRestart = some t ∧
      FinishedStay emptyQueue orderlyRestart t ∧ SparesLiving emptyQueue orderlyRestart ∧
      MarksDead emptyQueue orderlyRestart t := by
  have hTimely : Along taskStep Timely emptyQueue orderlyRestart := by decide
  exact ⟨_, rfl, finished_tasks_stay emptyQueue_start hTimely rfl⟩

/-- The task has ended. -/
def ended : List TaskAction :=
  started ++ [.runner 0 (.finish (.runnerCompleted "Готово" "log") 5), .runner 0 .commit]

/-- A tick of the heartbeat reads the row after that. -/
def lateHeartbeat : List TaskAction :=
  [.progress 0 (some 40) (some "Провайдер 2/2 (9с)") none, .progressCommit 0]

/-- A recovery has read the row before the task ended. -/
def endedUnderRecovery : List TaskAction :=
  started ++ [.recover, .runner 0 (.finish (.runnerCompleted "Готово" "log") 5), .runner 0 .commit]

/-- It asks for the owner when the owner has stopped. -/
def lateRecovery : List TaskAction := [.die 10, .judge 0, .recoverCommit 0 9]

theorem finished_task_changes :
    TaskStart emptyQueue ∧
    (∃ t, exec taskStep emptyQueue (ended ++ lateHeartbeat) = some t ∧
      ¬ FinishedStay emptyQueue (ended ++ lateHeartbeat) t) ∧
    ∃ t, exec taskStep emptyQueue (endedUnderRecovery ++ lateRecovery) = some t ∧
      ¬ FinishedStay emptyQueue (endedUnderRecovery ++ lateRecovery) t := by
  refine ⟨emptyQueue_start, ⟨_, rfl, ?_⟩, ⟨_, rfl, ?_⟩⟩
  · intro h
    obtain ⟨-, task', hTask', hSame⟩ := h ended lateHeartbeat _ 0 _ rfl rfl rfl rfl
    cases hTask'
    exact absurd hSame.status (by decide)
  · intro h
    obtain ⟨-, task', hTask', hSame⟩ := h endedUnderRecovery lateRecovery _ 0 _ rfl rfl rfl rfl
    cases hTask'
    exact absurd hSame.status (by decide)

end AdminPanel.Tasks
