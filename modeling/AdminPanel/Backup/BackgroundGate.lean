import AdminPanel.Lib.Flock
import AdminPanel.Lib.Runs

/-!
# Background work during a restore

`background_gate.py` and the restores of `routers/backups.py`. A background step takes the intent
lock and then the gate shared, gives the intent lock back and runs; a restore takes both for
itself, and keeps them until it resumes or its process is gone.

* `GateState`, `step` — the open files, the calls of all processes and the lists `_pause_fds`;
* `GateSafe` — what holds in every state, and of the next step of every call;
* `Sound`, `sound_step` — each lock is in the hands of the call that has taken it;
* `gate_safe` — every run.
-/

namespace AdminPanel.Backup.Gate

open Lib (exec exec_cons_iff invariant_of_exec)
open List Function Lib.Flock

/-! ## State -/

/-- `_lock_paths` -/
inductive LockPath
  | intent
  | gate
  deriving DecidableEq, Repr

/-- The call that has opened a file, and its process. -/
structure Owner where
  call : ℕ
  process : ℕ
  deriving DecidableEq, Repr

abbrev File := OpenFile Owner LockPath

inductive Outcome
  /-- A step that has not been run. -/
  | skipped
  /-- A step that has run or raised, or a query. -/
  | done
  /-- A pause that has raised. -/
  | raised
  | resumed
  deriving DecidableEq, Repr

/-- Where a call stands, with the files in its hands. -/
inductive Phase
  /-- `_run_gated` before its first lock. -/
  | starting
  | entered (intent : ℕ)
  | admitted (intent gate : ℕ)
  /-- The step's function runs. -/
  | running (gate : ℕ)
  /-- `background_pause_requested` -/
  | asking
  /-- `pause_background_work` before its first lock. -/
  | pausing
  | draining (intent : ℕ)
  | acquired (intent gate : ℕ)
  /-- The pause has returned; the files are in `_pause_fds`. -/
  | restoring
  /-- The restore has succeeded, and the restart is to come. -/
  | restarting
  /-- The files are unlocked one by one. -/
  | releasing (files : List ℕ) (outcome : Outcome)
  | ended (outcome : Outcome)
  deriving DecidableEq, Repr

structure Call where
  process : ℕ
  phase : Phase
  deriving DecidableEq, Repr

structure GateState where
  files : Files Owner LockPath
  calls : List Call
  /-- `_pause_fds`, by process -/
  pauseFds : ℕ → List ℕ
  /-- The processes that have died. Their locks go one after the other. -/
  dead : List ℕ

def start : GateState := ⟨[], [], fun _ => [], []⟩

/-! ## Steps -/

/-- How the next thing that a call does turns out. -/
inductive Turn
  | go
  /-- A lock is not to be had, and the deadline has passed. -/
  | late
  /-- It raises. -/
  | fail
  deriving DecidableEq, Repr

variable (s : GateState) (i : ℕ) (call : Call)

/-- The call goes on with other files. -/
def GateState.move (files : Files Owner LockPath) (phase : Phase) : GateState :=
  { s with files := files, calls := s.calls.set i { call with phase := phase } }

/-- `_try_flock`: the file is locked, or the call goes on without. -/
def GateState.tryFlock (path : LockPath) (mode : LockMode) (taken : ℕ → Phase)
    (refused : Option Phase) : Option GateState :=
  if free s.files path mode then
    some (s.move i call (lock s.files ⟨i, call.process⟩ path mode) (taken s.files.length))
  else refused.map (s.move i call s.files)

/-- `resume_background_work` takes all files of the process. -/
def GateState.resume : GateState :=
  { s.move i call s.files (.releasing (s.pauseFds call.process) .resumed) with
    pauseFds := update s.pauseFds call.process [] }

def turn (t : Turn) : Option GateState :=
  match call.phase, t with
  | .starting, .go => s.tryFlock i call .intent .shared .entered (some (.ended .skipped))
  | .starting, .fail => some (s.move i call s.files (.ended .done))
  -- waits for the gate
  | .entered intent, .go => s.tryFlock i call .gate .shared (.admitted intent) none
  | .entered intent, .fail => some (s.move i call s.files (.releasing [intent] .done))
  | .admitted intent gate, .go => some (s.move i call (unlock s.files intent) (.running gate))
  | .running gate, .go => some (s.move i call s.files (.releasing [gate] .done))
  | .asking, .go =>
    s.tryFlock i call .intent .shared (fun intent => .releasing [intent] .done)
      (some (.ended .done))
  | .pausing, .go => s.tryFlock i call .intent .exclusive .draining (some .pausing)
  | .pausing, .late => s.tryFlock i call .intent .exclusive .draining (some (.ended .raised))
  | .pausing, .fail => some (s.move i call s.files (.ended .raised))
  | .draining intent, .go =>
    s.tryFlock i call .gate .exclusive (.acquired intent) (some (.draining intent))
  | .draining intent, .late =>
    s.tryFlock i call .gate .exclusive (.acquired intent) (some (.releasing [intent] .raised))
  | .draining intent, .fail => some (s.move i call s.files (.releasing [intent] .raised))
  | .acquired intent gate, .go =>
    some { s.move i call s.files .restoring with
      pauseFds := update s.pauseFds call.process
        (s.pauseFds call.process ++ [gate, intent]) }
  | .restoring, .go => some (s.move i call s.files .restarting)
  | .restoring, .fail => some (s.resume i call)
  -- the restart has failed
  | .restarting, .fail => some (s.resume i call)
  | .releasing [] outcome, .go => some (s.move i call s.files (.ended outcome))
  | .releasing (fd :: rest) outcome, .go =>
    some (s.move i call (unlock s.files fd) (.releasing rest outcome))
  | _, _ => none

/-- A new call. -/
inductive Kind
  | runGated
  | pauseRequested
  | restore
  deriving DecidableEq, Repr

def Kind.phase : Kind → Phase
  | .runGated => .starting
  | .pauseRequested => .asking
  | .restore => .pausing

inductive Action
  | begin (process : ℕ) (kind : Kind)
  | turn (i : ℕ) (t : Turn)
  | die (process : ℕ)
  /-- The kernel closes a file of a dead process. -/
  | close (fd : ℕ)
  deriving DecidableEq, Repr

def GateState.alive (process : ℕ) : Bool := process ∉ s.dead

def step (s : GateState) : Action → Option GateState
  | .begin process kind =>
    if s.alive process then some { s with calls := s.calls ++ [⟨process, kind.phase⟩] } else none
  | .turn i t =>
    (s.calls[i]?).bind fun call => if s.alive call.process then turn s i call t else none
  | .die process => some { s with dead := process :: s.dead }
  | .close fd =>
    (s.files[fd]?).bind fun file =>
      if s.alive file.owner.process then none else some { s with files := unlock s.files fd }

/-! ## What is promised -/

/-- The call is at that phase, in a process that has not died. -/
def GateState.At (i : ℕ) (phase : Phase) : Prop :=
  ∃ call, s.calls[i]? = some call ∧ call.phase = phase ∧ s.alive call.process = true

/-- Between the return of its pause and its resume. -/
def Phase.isPaused : Phase → Bool
  | .restoring | .restarting => true
  | _ => false

/-- A restore that waits for the running steps, is paused, or gives its locks back. -/
def Phase.pauses : Phase → Bool
  | .draining _ | .acquired .. | .restoring | .restarting | .releasing _ .raised
  | .releasing _ .resumed => true
  | _ => false

/-- All locks of dead processes are gone. -/
def GateState.isSettled : Prop :=
  ∀ (fd : ℕ) (file : File), s.files[fd]? = some file → file.lock ≠ none →
    s.alive file.owner.process = true

structure GateSafe (s : GateState) : Prop where
  /-- During a restore no function runs, and there is no other restore. -/
  alone : ∀ i phase, s.At i phase → phase.isPaused = true →
    (∀ j gate, ¬ s.At j (.running gate)) ∧
      ∀ j other, s.At j other → other.isPaused = true → j = i
  /-- What has ended has no lock. -/
  clean : ∀ i (call : Call) outcome, s.calls[i]? = some call → call.phase = .ended outcome →
    ∀ (fd : ℕ) (file : File), s.files[fd]? = some file → file.owner.call = i → file.lock = none
  /-- A call takes no lock away from another. -/
  apart : ∀ i t s', step s (.turn i t) = some s' → ∀ (fd : ℕ) (file : File),
    s.files[fd]? = some file → file.owner.call ≠ i → s'.files[fd]? = some file
  /-- A step with the intent lock waits only for locks of dead processes. -/
  waits : ∀ i intent, s.At i (.entered intent) → step s (.turn i .go) = none →
    ∃ (fd : ℕ) (file : File), s.files[fd]? = some file ∧ file.path = .gate ∧
      file.lock = some .exclusive ∧ s.alive file.owner.process = false
  /-- A step that starts without a pause runs. -/
  runs : ∀ i, s.At i .starting → (∀ j phase, s.At j phase → phase.pauses = false) → s.isSettled →
    ∃ s' gate, exec step s [.turn i .go, .turn i .go, .turn i .go] = some s' ∧
      s'.At i (.running gate)

/-! ## The invariant -/

/-- The files in the hands of a call; `pauseFds` are those of its process. -/
def Phase.hands (pauseFds : List ℕ) : Phase → List ℕ
  | .entered intent | .draining intent => [intent]
  | .admitted intent gate | .acquired intent gate => [intent, gate]
  | .running gate => [gate]
  | .restoring | .restarting => pauseFds
  | .releasing files _ => files
  | _ => []

/-- The file is the call's, with that lock. -/
def Holds (files : Files Owner LockPath) (owner : Owner) (fd : ℕ) (path : LockPath)
    (mode : LockMode) : Prop :=
  files[fd]? = some ⟨owner, path, some mode⟩

/-- The call has the locks that its phase is about. -/
def Phase.Fits (files : Files Owner LockPath) (pauseFds : List ℕ) (owner : Owner) : Phase → Prop
  | .entered intent => Holds files owner intent .intent .shared
  | .admitted intent gate =>
    Holds files owner intent .intent .shared ∧ Holds files owner gate .gate .shared
  | .running gate => Holds files owner gate .gate .shared
  | .draining intent => Holds files owner intent .intent .exclusive
  | .acquired intent gate =>
    Holds files owner intent .intent .exclusive ∧ Holds files owner gate .gate .exclusive
  | .restoring | .restarting => ∃ intent gate, pauseFds = [gate, intent] ∧
    Holds files owner intent .intent .exclusive ∧ Holds files owner gate .gate .exclusive
  | .releasing fds outcome => fds = [] ∨
    (∃ intent gate, fds = [gate, intent] ∧ outcome = .resumed ∧
      Holds files owner intent .intent .exclusive ∧ Holds files owner gate .gate .exclusive) ∨
    (∃ intent, fds = [intent] ∧ (outcome = .raised ∨ outcome = .resumed) ∧
      Holds files owner intent .intent .exclusive) ∨
    ∃ fd path, fds = [fd] ∧ outcome = .done ∧ Holds files owner fd path .shared
  | _ => True

structure Sound (s : GateState) : Prop where
  exclusion : Exclusion s.files
  owned : ∀ (fd : ℕ) (file : File), s.files[fd]? = some file → file.lock ≠ none →
    ∃ call : Call, s.calls[file.owner.call]? = some call ∧ call.process = file.owner.process ∧
      fd ∈ call.phase.hands (s.pauseFds call.process)
  fits : ∀ (i : ℕ) (call : Call), s.calls[i]? = some call → s.alive call.process = true →
    call.phase.Fits s.files (s.pauseFds call.process) ⟨i, call.process⟩
  lists : ∀ process, s.alive process = true → s.pauseFds process ≠ [] →
    ∃ (i : ℕ) (call : Call), s.calls[i]? = some call ∧ call.process = process ∧
      call.phase.isPaused = true

variable {s : GateState} {i j : ℕ} {call other : Call} {phase : Phase} {fd : ℕ} {file : File}
  {files files' : Files Owner LockPath} {pauseFds pauseFds' : List ℕ} {owner : Owner}

/-- Files of the call that are left alone keep its phase fitting. -/
theorem Phase.Fits.mono (h : phase.Fits files pauseFds owner)
    (hFiles : ∀ (fd : ℕ) (file : File), file.owner = owner → files[fd]? = some file →
      files'[fd]? = some file)
    (hList : phase.isPaused = true → pauseFds' = pauseFds) :
    phase.Fits files' pauseFds' owner := by
  have hHolds : ∀ {fd path mode}, Holds files owner fd path mode →
      Holds files' owner fd path mode := fun hAt => hFiles _ _ rfl hAt
  cases phase with
  | entered => exact hHolds h
  | admitted => exact ⟨hHolds h.1, hHolds h.2⟩
  | running | draining => exact hHolds h
  | acquired => exact ⟨hHolds h.1, hHolds h.2⟩
  | restoring | restarting =>
    obtain ⟨intent, gate, hFds, hIntent, hGate⟩ := h
    exact ⟨intent, gate, (hList rfl).trans hFds, hHolds hIntent, hHolds hGate⟩
  | releasing =>
    rcases h with hNone | ⟨intent, gate, hFds, hOutcome, hIntent, hGate⟩ |
      ⟨intent, hFds, hOutcome, hIntent⟩ | ⟨fd, path, hFds, hOutcome, hHeld⟩
    · exact .inl hNone
    · exact .inr (.inl ⟨intent, gate, hFds, hOutcome, hHolds hIntent, hHolds hGate⟩)
    · exact .inr (.inr (.inl ⟨intent, hFds, hOutcome, hHolds hIntent⟩))
    · exact .inr (.inr (.inr ⟨fd, path, hFds, hOutcome, hHolds hHeld⟩))
  | _ => trivial

theorem Phase.hands_of_not_paused (h : phase.isPaused = false) :
    phase.hands pauseFds = phase.hands pauseFds' := by
  cases phase <;> first | rfl | cases h

variable {a b : Owner} {fd' : ℕ} {path : LockPath} {mode : LockMode}

theorem Sound.same_file (hSound : Sound s) {fd : ℕ} (hA : Holds s.files a fd path .exclusive)
    (hB : Holds s.files b fd' path mode) : fd = fd' := by
  by_contra hNe
  have hNone := hSound.exclusion fd fd' _ _ hA hB hNe rfl rfl
  cases hNone

/-- Two calls do not have exclusive locks of one path. -/
theorem Sound.same_call (hSound : Sound s) {fd : ℕ}
    (hA : Holds s.files a fd path .exclusive) (hB : Holds s.files b fd' path .exclusive) :
    a = b := by
  obtain rfl := hSound.same_file hA hB
  exact congrArg OpenFile.owner (Option.mem_unique hA hB)

theorem Sound.not_shared (hSound : Sound s) {fd : ℕ}
    (hA : Holds s.files a fd path .exclusive) : ¬ Holds s.files b fd' path .shared := by
  intro hB
  obtain rfl := hSound.same_file hA hB
  cases hA.symm.trans hB

theorem Sound.paused (hSound : Sound s) (hAt : s.calls[i]? = some call)
    (hAlive : s.alive call.process = true) (hPaused : call.phase.isPaused = true) :
    ∃ intent gate, s.pauseFds call.process = [gate, intent] ∧
      Holds s.files ⟨i, call.process⟩ intent .intent .exclusive ∧
      Holds s.files ⟨i, call.process⟩ gate .gate .exclusive := by
  have hFits := hSound.fits i call hAt hAlive
  generalize call.phase = phase at hPaused hFits
  cases phase with
  | restoring | restarting => exact hFits
  | _ => cases hPaused

/-- What a turn of one call does to the rest. -/
structure Moves (s : GateState) (i : ℕ) (call : Call) (files : Files Owner LockPath)
    (pauseFds : List ℕ) (phase : Phase) : Prop where
  exclusion : Exclusion files
  others : ∀ (fd : ℕ) (file : File), file.owner.call ≠ i →
    (files[fd]? = some file ↔ s.files[fd]? = some file)
  owned : ∀ (fd : ℕ) (file : File), files[fd]? = some file → file.lock ≠ none →
    file.owner.call = i → file.owner.process = call.process ∧ fd ∈ phase.hands pauseFds
  fits : phase.Fits files pauseFds ⟨i, call.process⟩
  alone : pauseFds = s.pauseFds call.process ∨ ∀ (j : ℕ) (other : Call), j ≠ i →
    s.calls[j]? = some other → other.process = call.process → other.phase.isPaused = false
  lists : pauseFds = [] ∨ phase.isPaused = true ∨
    pauseFds = s.pauseFds call.process ∧ call.phase.isPaused = false

/-- The state after a turn. -/
def GateState.moved (s : GateState) (i : ℕ) (call : Call) (files : Files Owner LockPath)
    (pauseFds : List ℕ) (phase : Phase) : GateState :=
  { s.move i call files phase with
    pauseFds := update s.pauseFds call.process pauseFds }

/-- **A turn keeps the invariant**, whichever turn it is. -/
theorem sound_moved (hSound : Sound s) (hAt : s.calls[i]? = some call)
    (hAlive : s.alive call.process = true) (hMoves : Moves s i call files pauseFds phase) :
    Sound (s.moved i call files pauseFds phase) := by
  have hBound := (List.getElem?_eq_some_iff.mp hAt).1
  have hSelf : (s.moved i call files pauseFds phase).calls[i]? = some { call with phase } :=
    List.getElem?_set_self hBound
  have hOther : ∀ j, j ≠ i → (s.moved i call files pauseFds phase).calls[j]? = s.calls[j]? :=
    fun j hNe => List.getElem?_set_ne hNe.symm
  -- another call sees the list of its process as before, if it is paused
  have hList : ∀ (j : ℕ) (other : Call), j ≠ i → s.calls[j]? = some other →
      other.phase.isPaused = true →
      (s.moved i call files pauseFds phase).pauseFds other.process = s.pauseFds other.process := by
    intro j other hNe hAtJ hPaused
    show update s.pauseFds call.process pauseFds other.process = _
    by_cases hProcess : other.process = call.process
    · rw [hProcess, update_self]
      exact hMoves.alone.resolve_right fun hNone =>
        absurd (hPaused.symm.trans (hNone j other hNe hAtJ hProcess)) Bool.noConfusion
    · exact update_of_ne hProcess _ _
  refine ⟨hMoves.exclusion, ?_, ?_, ?_⟩
  · intro fd file hFile hLock
    -- a lock is in the hands of the call that owns its file
    by_cases hMine : file.owner.call = i
    · obtain ⟨hProcess, hIn⟩ := hMoves.owned fd file hFile hLock hMine
      refine ⟨{ call with phase }, hMine ▸ hSelf, hProcess.symm, ?_⟩
      show fd ∈ phase.hands (update s.pauseFds call.process pauseFds call.process)
      rwa [update_self]
    · obtain ⟨other, hAtJ, hProcess, hIn⟩ :=
        hSound.owned fd file ((hMoves.others fd file hMine).mp hFile) hLock
      refine ⟨other, (hOther _ hMine).trans hAtJ, hProcess, ?_⟩
      cases hPaused : other.phase.isPaused with
      | true => rwa [hList _ other hMine hAtJ hPaused]
      | false => rwa [Phase.hands_of_not_paused hPaused]
  · intro j other hAtJ hAliveJ
    by_cases hMine : j = i
    · subst hMine
      obtain rfl := Option.mem_unique hSelf hAtJ
      show phase.Fits files (update s.pauseFds call.process pauseFds call.process) _
      rw [update_self]
      exact hMoves.fits
    · rw [hOther j hMine] at hAtJ
      refine (hSound.fits j other hAtJ hAliveJ).mono ?_ (hList j other hMine hAtJ)
      intro fd file hOwner hFile
      exact (hMoves.others fd file (by rw [hOwner]; exact hMine)).mpr hFile
  · intro process hAliveP hNonempty
    -- a list that is not empty belongs to a call between pause and resume
    have hOld : ∀ (k : ℕ) (holder : Call), s.calls[k]? = some holder → k ≠ i →
        holder.process = process → holder.phase.isPaused = true →
        ∃ (i' : ℕ) (call' : Call), (s.moved i call files pauseFds phase).calls[i']? = some call' ∧
          call'.process = process ∧ call'.phase.isPaused = true :=
      fun k holder hAtK hNe hProcess hPaused =>
        ⟨k, holder, (hOther k hNe).trans hAtK, hProcess, hPaused⟩
    change update s.pauseFds call.process pauseFds process ≠ [] at hNonempty
    by_cases hProcess : process = call.process
    · subst hProcess
      rw [update_self] at hNonempty
      rcases hMoves.lists with hNil | hPaused | ⟨hSame, hNot⟩
      · exact absurd hNil hNonempty
      · exact ⟨i, { call with phase }, hSelf, rfl, hPaused⟩
      · obtain ⟨k, holder, hAtK, hOf, hPaused⟩ :=
          hSound.lists call.process hAlive (hSame ▸ hNonempty)
        refine hOld k holder hAtK ?_ hOf hPaused
        rintro rfl
        rw [Option.mem_unique hAt hAtK, hPaused] at hNot
        cases hNot
    · rw [update_of_ne hProcess] at hNonempty
      obtain ⟨k, holder, hAtK, hOf, hPaused⟩ := hSound.lists process hAliveP hNonempty
      refine hOld k holder hAtK ?_ hOf hPaused
      rintro rfl
      rw [Option.mem_unique hAt hAtK, hOf] at hProcess
      exact hProcess rfl

/-! ## Turns -/

/-- A call has only its own locks in its hands. -/
theorem Sound.hand (hSound : Sound s) (hAt : s.calls[i]? = some call)
    (hFile : s.files[fd]? = some file) (hLock : file.lock ≠ none) (hMine : file.owner.call = i) :
    file.owner.process = call.process ∧ fd ∈ call.phase.hands (s.pauseFds call.process) := by
  obtain ⟨owner, hOwner, hProcess, hIn⟩ := hSound.owned fd file hFile hLock
  rw [hMine] at hOwner
  obtain rfl := Option.mem_unique hOwner hAt
  exact ⟨hProcess.symm, hIn⟩

/-- A turn without a lock. -/
theorem moves_same (hSound : Sound s) (hAt : s.calls[i]? = some call)
    (hHands : call.phase.hands (s.pauseFds call.process) ⊆ phase.hands (s.pauseFds call.process))
    (hFits : phase.Fits s.files (s.pauseFds call.process) ⟨i, call.process⟩)
    (hPaused : phase.isPaused = true ∨ call.phase.isPaused = false) :
    Moves s i call s.files (s.pauseFds call.process) phase where
  exclusion := hSound.exclusion
  others := fun _ _ _ => Iff.rfl
  owned := by
    intro fd file hFile hLock hMine
    obtain ⟨hProcess, hIn⟩ := hSound.hand hAt hFile hLock hMine
    exact ⟨hProcess, hHands hIn⟩
  fits := hFits
  alone := .inl rfl
  lists := .inr (hPaused.imp id fun hNot => ⟨rfl, hNot⟩)

/-- A turn that gets a lock. -/
theorem moves_lock (hSound : Sound s) (hAt : s.calls[i]? = some call)
    (hFree : free s.files path mode = true)
    (hHands : s.files.length :: call.phase.hands (s.pauseFds call.process) ⊆
      phase.hands (s.pauseFds call.process))
    (hFits : phase.Fits (lock s.files ⟨i, call.process⟩ path mode) (s.pauseFds call.process)
      ⟨i, call.process⟩)
    (hPaused : call.phase.isPaused = false) :
    Moves s i call (lock s.files ⟨i, call.process⟩ path mode) (s.pauseFds call.process) phase where
  exclusion := hSound.exclusion.lock hFree
  others := by
    intro fd file hOther
    constructor
    · intro hFile
      refine (of_getElem?_lock hFile).resolve_right ?_
      rintro ⟨-, rfl⟩
      exact hOther rfl
    · exact getElem?_lock_old
  owned := by
    intro fd file hFile hLock hMine
    rcases of_getElem?_lock hFile with hOld | ⟨rfl, rfl⟩
    · obtain ⟨hProcess, hIn⟩ := hSound.hand hAt hOld hLock hMine
      exact ⟨hProcess, hHands (mem_cons_of_mem _ hIn)⟩
    · exact ⟨rfl, hHands mem_cons_self⟩
  fits := hFits
  alone := .inl rfl
  lists := .inr (.inr ⟨rfl, hPaused⟩)

/-- A turn that gives one up. -/
theorem moves_unlock (hSound : Sound s) (hAt : s.calls[i]? = some call)
    (hHeld : Holds s.files ⟨i, call.process⟩ fd path mode)
    (hHands : ∀ x ∈ call.phase.hands (s.pauseFds call.process), x ≠ fd →
      x ∈ phase.hands (s.pauseFds call.process))
    (hFits : phase.Fits (unlock s.files fd) (s.pauseFds call.process) ⟨i, call.process⟩)
    (hPaused : call.phase.isPaused = false) :
    Moves s i call (unlock s.files fd) (s.pauseFds call.process) phase where
  exclusion := hSound.exclusion.unlock fd
  others := by
    intro x file hOther
    by_cases hSame : x = fd
    · subst hSame
      rw [getElem?_unlock_self hHeld, hHeld]
      constructor
      · intro hFile
        cases hFile
        exact absurd rfl hOther
      · intro hFile
        cases hFile
        exact absurd rfl hOther
    · rw [getElem?_unlock_ne hSame]
  owned := by
    intro x file hFile hLock hMine
    obtain ⟨old, hOld, -, -, ⟨rfl, hNe⟩ | ⟨hNone, -⟩⟩ := of_getElem?_unlock hFile
    · obtain ⟨hProcess, hIn⟩ := hSound.hand hAt hOld hLock hMine
      exact ⟨hProcess, hHands x hIn hNe⟩
    · exact absurd hNone hLock
  fits := hFits
  alone := .inl rfl
  lists := .inr (.inr ⟨rfl, hPaused⟩)

theorem moved_same (s : GateState) (i : ℕ) (call : Call) (files : Files Owner LockPath)
    (phase : Phase) : s.move i call files phase =
      s.moved i call files (s.pauseFds call.process) phase := by
  rw [GateState.moved, update_eq_self]
  rfl

variable {s' : GateState}

/-- What an attempt to take a lock leads to. -/
theorem tryFlock_moves (hSound : Sound s) (hAt : s.calls[i]? = some call)
    {taken : ℕ → Phase} {refused : Option Phase}
    (hTurn : s.tryFlock i call path mode taken refused = some s')
    (hPaused : call.phase.isPaused = false)
    (hHands : s.files.length :: call.phase.hands (s.pauseFds call.process) ⊆
      (taken s.files.length).hands (s.pauseFds call.process))
    (hTaken : (taken s.files.length).Fits (lock s.files ⟨i, call.process⟩ path mode)
      (s.pauseFds call.process) ⟨i, call.process⟩)
    (hRefused : ∀ phase, refused = some phase →
      call.phase.hands (s.pauseFds call.process) ⊆ phase.hands (s.pauseFds call.process) ∧
        phase.Fits s.files (s.pauseFds call.process) ⟨i, call.process⟩) :
    ∃ files pauseFds phase, s' = s.moved i call files pauseFds phase ∧
      Moves s i call files pauseFds phase := by
  unfold GateState.tryFlock at hTurn
  split_ifs at hTurn with hFree
  · cases hTurn
    exact ⟨_, _, _, moved_same _ _ _ _ _, moves_lock hSound hAt hFree hHands hTaken hPaused⟩
  · obtain ⟨phase, hPhase, rfl⟩ := Option.map_eq_some_iff.mp hTurn
    obtain ⟨hKept, hFits⟩ := hRefused phase hPhase
    exact ⟨_, _, _, moved_same _ _ _ _ _, moves_same hSound hAt hKept hFits (.inr hPaused)⟩

/-- A paused call and its process's list before a resume. -/
theorem resume_moves (hSound : Sound s) (hAt : s.calls[i]? = some call)
    (hAlive : s.alive call.process = true) (hPaused : call.phase.isPaused = true) :
    Moves s i call s.files [] (.releasing (s.pauseFds call.process) .resumed) := by
  obtain ⟨intent, gate, hList, hIntent, hGate⟩ := hSound.paused hAt hAlive hPaused
  refine ⟨hSound.exclusion, fun _ _ _ => Iff.rfl, ?_, ?_, ?_, .inl rfl⟩
  · intro fd file hFile hLock hMine
    obtain ⟨hProcess, hIn⟩ := hSound.hand hAt hFile hLock hMine
    refine ⟨hProcess, ?_⟩
    generalize call.phase = phase at hPaused hIn
    cases phase with
    | restoring | restarting => exact hIn
    | _ => cases hPaused
  · exact .inr (.inl ⟨intent, gate, hList, rfl, hIntent, hGate⟩)
  · -- another paused call would have the intent lock too
    refine .inr fun j other hNe hAtJ hProcess => Bool.eq_false_iff.mpr fun hPausedJ => ?_
    obtain ⟨intent', gate', -, hIntent', -⟩ :=
      hSound.paused hAtJ (by rw [hProcess]; exact hAlive) hPausedJ
    exact hNe (congrArg Owner.call (hSound.same_call hIntent hIntent')).symm

variable {intent : ℕ}

/-- A pause returns: its files become the list of the process. -/
theorem acquired_moves (hSound : Sound s) (hAt : s.calls[i]? = some call)
    (hAlive : s.alive call.process = true) {gate : ℕ}
    (hPhase : call.phase = .acquired intent gate) :
    Moves s i call s.files (s.pauseFds call.process ++ [gate, intent]) .restoring := by
  have hFits := hSound.fits i call hAt hAlive
  rw [hPhase] at hFits
  have hOthers : ∀ (j : ℕ) (other : Call), s.calls[j]? = some other →
      other.process = call.process → other.phase.isPaused = false := by
    intro j other hAtJ hProcess
    refine Bool.eq_false_iff.mpr fun hPausedJ => ?_
    obtain ⟨intent', gate', -, hIntent', -⟩ :=
      hSound.paused hAtJ (by rw [hProcess]; exact hAlive) hPausedJ
    obtain rfl : i = j := congrArg Owner.call (hSound.same_call hFits.1 hIntent')
    rw [Option.mem_unique hAtJ hAt, hPhase] at hPausedJ
    cases hPausedJ
  have hNil : s.pauseFds call.process = [] := by
    by_contra hNe
    obtain ⟨j, other, hAtJ, hProcess, hPausedJ⟩ := hSound.lists call.process hAlive hNe
    rw [hOthers j other hAtJ hProcess] at hPausedJ
    cases hPausedJ
  rw [hNil, nil_append]
  refine ⟨hSound.exclusion, fun _ _ _ => Iff.rfl, ?_, ⟨intent, gate, rfl, hFits⟩,
    .inr fun j other _ => hOthers j other, .inr (.inl rfl)⟩
  intro fd file hFile hLock hMine
  obtain ⟨hProcess, hIn⟩ := hSound.hand hAt hFile hLock hMine
  rw [hPhase] at hIn
  refine ⟨hProcess, ?_⟩
  simp only [Phase.hands, mem_cons, not_mem_nil, or_false] at hIn ⊢
  exact hIn.symm

/-- The next file of those to release. -/
theorem releasing_moves (hSound : Sound s) (hAt : s.calls[i]? = some call)
    (hAlive : s.alive call.process = true) {rest : List ℕ} {outcome : Outcome}
    (hPhase : call.phase = .releasing (fd :: rest) outcome) :
    Moves s i call (unlock s.files fd) (s.pauseFds call.process) (.releasing rest outcome) := by
  have hFits := hSound.fits i call hAt hAlive
  rw [hPhase] at hFits
  have hHands : ∀ x ∈ call.phase.hands (s.pauseFds call.process), x ≠ fd → x ∈ rest := by
    intro x hIn hNe
    rw [hPhase] at hIn
    exact (mem_cons.mp hIn).resolve_left hNe
  have hPaused : call.phase.isPaused = false := by rw [hPhase]; rfl
  rcases hFits with hNone | ⟨intent, gate, hFds, rfl, hIntent, hGate⟩ |
    ⟨intent, hFds, hOutcome, hIntent⟩ | ⟨held, path, hFds, rfl, hHeld⟩
  · cases hNone
  · obtain ⟨rfl, rfl⟩ := List.cons.inj hFds
    refine moves_unlock hSound hAt hGate hHands ?_ hPaused
    refine .inr (.inr (.inl ⟨intent, rfl, .inr rfl, ?_⟩))
    have hNe : intent ≠ fd := by
      rintro rfl
      cases hIntent.symm.trans hGate
    exact (getElem?_unlock_ne hNe).trans hIntent
  · obtain ⟨rfl, rfl⟩ := List.cons.inj hFds
    exact moves_unlock hSound hAt hIntent hHands (.inl rfl) hPaused
  · obtain ⟨rfl, rfl⟩ := List.cons.inj hFds
    exact moves_unlock hSound hAt hHeld hHands (.inl rfl) hPaused

/-- A call goes on with the files that it has. -/
theorem phase_moves (hSound : Sound s) (hAt : s.calls[i]? = some call)
    (hTurn : some (s.move i call s.files phase) = some s')
    (hHands : call.phase.hands (s.pauseFds call.process) ⊆ phase.hands (s.pauseFds call.process))
    (hFits : phase.Fits s.files (s.pauseFds call.process) ⟨i, call.process⟩)
    (hPaused : phase.isPaused = true ∨ call.phase.isPaused = false) :
    ∃ files pauseFds phase, s' = s.moved i call files pauseFds phase ∧
      Moves s i call files pauseFds phase := by
  cases hTurn
  exact ⟨_, _, _, moved_same _ _ _ _ _, moves_same hSound hAt hHands hFits hPaused⟩

/-- What one call can do. -/
theorem turn_moves (hSound : Sound s) (hAt : s.calls[i]? = some call)
    (hAlive : s.alive call.process = true) {t : Turn} (hTurn : turn s i call t = some s') :
    ∃ files pauseFds phase, s' = s.moved i call files pauseFds phase ∧
      Moves s i call files pauseFds phase := by
  have hFits := hSound.fits i call hAt hAlive
  have hSubset := List.Subset.refl (call.phase.hands (s.pauseFds call.process))
  have hFresh := List.Subset.refl [s.files.length]
  obtain ⟨process, phase⟩ := call
  cases phase with
  | starting =>
    cases t with
    | go =>
      refine tryFlock_moves hSound hAt hTurn rfl hFresh getElem?_lock_new ?_
      rintro _ ⟨⟩
      exact ⟨hSubset, trivial⟩
    | late => cases hTurn
    | fail => exact phase_moves hSound hAt hTurn hSubset trivial (.inr rfl)
  | entered intent =>
    cases t with
    | go =>
      refine tryFlock_moves hSound hAt hTurn rfl ?_
        ⟨getElem?_lock_old hFits, getElem?_lock_new⟩ nofun
      exact (List.Perm.swap _ _ _).subset
    | late => cases hTurn
    | fail =>
      exact phase_moves hSound hAt hTurn hSubset
        (.inr (.inr (.inr ⟨intent, _, rfl, rfl, hFits⟩))) (.inr rfl)
  | admitted intent gate =>
    cases t with
    | go =>
      cases hTurn
      refine ⟨_, _, _, moved_same _ _ _ _ _, moves_unlock hSound hAt hFits.1 ?_ ?_ rfl⟩
      · intro x hIn hNe
        exact (mem_cons.mp hIn).resolve_left hNe
      · have hNe : gate ≠ intent := by
          rintro rfl
          cases hFits.1.symm.trans hFits.2
        exact (getElem?_unlock_ne hNe).trans hFits.2
    | late | fail => cases hTurn
  | running gate =>
    cases t with
    | go =>
      exact phase_moves hSound hAt hTurn hSubset
        (.inr (.inr (.inr ⟨gate, _, rfl, rfl, hFits⟩))) (.inr rfl)
    | late | fail => cases hTurn
  -- `background_pause_requested` takes the lock only to give it back
  | asking =>
    cases t with
    | go =>
      change s.tryFlock i _ .intent .shared (fun intent => .releasing [intent] .done)
        (some (.ended .done)) = some s' at hTurn
      refine tryFlock_moves hSound hAt hTurn rfl hFresh
        (.inr (.inr (.inr ⟨_, _, rfl, rfl, getElem?_lock_new⟩))) ?_
      rintro _ ⟨⟩
      exact ⟨hSubset, trivial⟩
    | late | fail => cases hTurn
  | pausing =>
    cases t with
    | go | late =>
      refine tryFlock_moves hSound hAt hTurn rfl hFresh getElem?_lock_new ?_
      rintro _ ⟨⟩
      exact ⟨hSubset, trivial⟩
    | fail => exact phase_moves hSound hAt hTurn hSubset trivial (.inr rfl)
  | draining intent =>
    have hRaised : (Phase.releasing [intent] .raised).Fits s.files (s.pauseFds process)
        ⟨i, process⟩ := .inr (.inr (.inl ⟨intent, rfl, .inl rfl, hFits⟩))
    cases t with
    | go | late =>
      refine tryFlock_moves hSound hAt hTurn rfl (List.Perm.swap _ _ _).subset
        ⟨getElem?_lock_old hFits, getElem?_lock_new⟩ ?_
      rintro _ ⟨⟩
      exact ⟨hSubset, by first | exact hFits | exact hRaised⟩
    | fail => exact phase_moves hSound hAt hTurn hSubset hRaised (.inr rfl)
  -- the pause has both locks and puts them into the list of its process
  | acquired intent gate =>
    cases t with
    | go =>
      cases hTurn
      exact ⟨_, _, _, rfl, acquired_moves hSound hAt hAlive rfl⟩
    | late | fail => cases hTurn
  -- a failed restore resumes
  | restoring =>
    cases t with
    | go => exact phase_moves hSound hAt hTurn hSubset hFits (.inl rfl)
    | late => cases hTurn
    | fail =>
      cases hTurn
      exact ⟨_, _, _, rfl, resume_moves hSound hAt hAlive rfl⟩
  | restarting =>
    cases t with
    | go | late => cases hTurn
    | fail =>
      cases hTurn
      exact ⟨_, _, _, rfl, resume_moves hSound hAt hAlive rfl⟩
  | releasing files outcome =>
    cases t with
    | go =>
      cases files with
      | nil => exact phase_moves hSound hAt hTurn hSubset trivial (.inr rfl)
      | cons fd rest =>
        cases hTurn
        exact ⟨_, _, _, moved_same _ _ _ _ _, releasing_moves hSound hAt hAlive rfl⟩
    | late | fail => cases files <;> cases hTurn
  | ended outcome => cases t <;> cases hTurn

/-! ## Runs -/

theorem sound_start : Sound start where
  exclusion := nofun
  owned := nofun
  fits := nofun
  lists := fun _ _ hNonempty => absurd rfl hNonempty

/-- A new call holds nothing. -/
theorem sound_begin (hSound : Sound s) (process : ℕ) (kind : Kind) :
    Sound { s with calls := s.calls ++ [⟨process, kind.phase⟩] } := by
  have hOld : ∀ {i : ℕ} {call : Call}, s.calls[i]? = some call →
      (s.calls ++ [⟨process, kind.phase⟩])[i]? = some call := by
    intro i call hAt
    rw [List.getElem?_append_left (List.getElem?_eq_some_iff.mp hAt).1, hAt]
  refine ⟨hSound.exclusion, ?_, ?_, ?_⟩
  · intro fd file hFile hLock
    obtain ⟨call, hAt, hProcess, hIn⟩ := hSound.owned fd file hFile hLock
    exact ⟨call, hOld hAt, hProcess, hIn⟩
  · intro i call hAt hAlive
    rcases Nat.lt_or_ge i s.calls.length with hBound | hBound
    · rw [List.getElem?_append_left hBound] at hAt
      exact hSound.fits i call hAt hAlive
    · rw [List.getElem?_append_right hBound] at hAt
      obtain rfl := mem_singleton.mp (mem_of_getElem? hAt)
      cases kind <;> trivial
  · intro p hAlive hNonempty
    obtain ⟨i, call, hAt, hProcess, hPaused⟩ := hSound.lists p hAlive hNonempty
    exact ⟨i, call, hOld hAt, hProcess, hPaused⟩

theorem sound_die (hSound : Sound s) (process : ℕ) :
    Sound { s with dead := process :: s.dead } := by
  have hBefore : ∀ p, GateState.alive { s with dead := process :: s.dead } p = true →
      s.alive p = true := by
    intro p hAlive
    simp only [GateState.alive, decide_eq_true_eq] at hAlive ⊢
    exact fun hMem => hAlive (mem_cons_of_mem _ hMem)
  exact ⟨hSound.exclusion, hSound.owned,
    fun i call hAt hAlive => hSound.fits i call hAt (hBefore _ hAlive),
    fun p hAlive => hSound.lists p (hBefore p hAlive)⟩

theorem sound_close (hSound : Sound s) (hFile : s.files[fd]? = some file)
    (hDead : s.alive file.owner.process = false) :
    Sound { s with files := unlock s.files fd } := by
  refine ⟨hSound.exclusion.unlock fd, ?_, ?_, hSound.lists⟩
  · intro x other hOther hLock
    obtain ⟨old, hOld, hOwner, -, ⟨rfl, -⟩ | ⟨hNone, -⟩⟩ := of_getElem?_unlock hOther
    · exact hSound.owned x other hOld hLock
    · exact absurd hNone hLock
  · intro i call hAt hAlive
    refine (hSound.fits i call hAt hAlive).mono ?_ fun _ => rfl
    intro x other hOwner hOther
    have hNe : x ≠ fd := by
      rintro rfl
      obtain rfl := Option.mem_unique hOther hFile
      rw [hOwner] at hDead
      exact absurd (hAlive.symm.trans hDead) Bool.noConfusion
    exact (getElem?_unlock_ne hNe).trans hOther

/-- **One step**: a turn, a new call, a death, or the kernel closing a file. -/
theorem sound_step {a : Action} (hSound : Sound s) (hStep : step s a = some s') : Sound s' := by
  cases a with
  | begin process kind =>
    simp only [step, Option.ite_none_right_eq_some, Option.some.injEq] at hStep
    obtain ⟨-, rfl⟩ := hStep
    exact sound_begin hSound process kind
  | turn i t =>
    obtain ⟨call, hAt, hTurn⟩ := Option.bind_eq_some_iff.mp hStep
    obtain ⟨hAlive, hTurn⟩ := Option.ite_none_right_eq_some.mp hTurn
    obtain ⟨files, pauseFds, phase, rfl, hMoves⟩ := turn_moves hSound hAt hAlive hTurn
    exact sound_moved hSound hAt hAlive hMoves
  | die process =>
    cases hStep
    exact sound_die hSound process
  | close fd =>
    obtain ⟨file, hFile, hClose⟩ := Option.bind_eq_some_iff.mp hStep
    obtain ⟨hDead, hClose⟩ := Option.ite_none_left_eq_some.mp hClose
    cases hClose
    exact sound_close hSound hFile (Bool.eq_false_iff.mpr hDead)

/-! ## What the invariant promises -/

theorem Sound.alone (hSound : Sound s) (hAt : s.At i phase) (hPaused : phase.isPaused = true) :
    (∀ j gate, ¬ s.At j (.running gate)) ∧
      ∀ j other, s.At j other → other.isPaused = true → j = i := by
  obtain ⟨call, hCall, rfl, hAlive⟩ := hAt
  obtain ⟨intent, gate, -, hIntent, hGate⟩ := hSound.paused hCall hAlive hPaused
  constructor
  · rintro j run ⟨other, hOther, hPhase, hAliveJ⟩
    have hFits := hSound.fits j other hOther hAliveJ
    rw [hPhase] at hFits
    exact hSound.not_shared hGate hFits
  · rintro j _ ⟨other, hOther, rfl, hAliveJ⟩ hPausedJ
    obtain ⟨intent', gate', -, hIntent', -⟩ := hSound.paused hOther hAliveJ hPausedJ
    exact (congrArg Owner.call (hSound.same_call hIntent hIntent')).symm

theorem Sound.clean (hSound : Sound s) (hAt : s.calls[i]? = some call) {outcome : Outcome}
    (hPhase : call.phase = .ended outcome) (hFile : s.files[fd]? = some file)
    (hMine : file.owner.call = i) : file.lock = none := by
  by_contra hLock
  obtain ⟨-, hIn⟩ := hSound.hand hAt hFile hLock hMine
  rw [hPhase] at hIn
  cases hIn

theorem Sound.apart (hSound : Sound s) {t : Turn}
    (hStep : step s (.turn i t) = some s') (hFile : s.files[fd]? = some file)
    (hOther : file.owner.call ≠ i) : s'.files[fd]? = some file := by
  obtain ⟨call, hAt, hTurn⟩ := Option.bind_eq_some_iff.mp hStep
  obtain ⟨hAlive, hTurn⟩ := Option.ite_none_right_eq_some.mp hTurn
  obtain ⟨files, pauseFds, phase, rfl, hMoves⟩ := turn_moves hSound hAt hAlive hTurn
  exact (hMoves.others fd file hOther).mpr hFile

/-- An exclusive lock of a living process is a restore's that pauses, and with one of the gate
it has the intent lock too. -/
theorem Sound.holder (hSound : Sound s) (hFile : s.files[fd]? = some file)
    (hLock : file.lock = some .exclusive) (hAlive : s.alive file.owner.process = true) :
    (∃ phase, s.At file.owner.call phase ∧ phase.pauses = true) ∧
      ∃ intent, Holds s.files file.owner intent .intent .exclusive := by
  obtain ⟨call, hAt, hProcess, hIn⟩ :=
    hSound.owned fd file hFile (by rw [hLock]; exact Option.some_ne_none _)
  have hAliveC : s.alive call.process = true := by rw [hProcess]; exact hAlive
  have hOwner : (⟨file.owner.call, call.process⟩ : Owner) = file.owner := by rw [hProcess]
  have hFits := hSound.fits _ call hAt hAliveC
  rw [hOwner] at hFits
  -- a file held exclusively is not the shared one of a worker
  have hShared : ∀ {path}, ¬ Holds s.files file.owner fd path .shared := by
    intro path hHeld
    rw [Option.mem_unique hFile hHeld] at hLock
    cases hLock
  suffices h : call.phase.pauses = true ∧
      ∃ intent, Holds s.files file.owner intent .intent .exclusive from
    ⟨⟨call.phase, ⟨call, hAt, rfl, hAliveC⟩, h.1⟩, h.2⟩
  -- what each phase holds
  generalize call.phase = phase at hIn hFits
  cases phase with
  | entered intent =>
    obtain rfl := mem_singleton.mp hIn
    exact absurd hFits hShared
  | admitted intent gate =>
    rcases mem_cons.mp hIn with rfl | hIn
    · exact absurd hFits.1 hShared
    · obtain rfl := mem_singleton.mp hIn
      exact absurd hFits.2 hShared
  | running gate =>
    obtain rfl := mem_singleton.mp hIn
    exact absurd hFits hShared
  | draining intent => exact ⟨rfl, intent, hFits⟩
  | acquired intent gate => exact ⟨rfl, intent, hFits.1⟩
  | restoring | restarting =>
    obtain ⟨intent, gate, -, hIntent, -⟩ := hFits
    exact ⟨rfl, intent, hIntent⟩
  | releasing files outcome =>
    change fd ∈ files at hIn
    rcases hFits with rfl | ⟨intent, gate, -, rfl, hIntent, -⟩ |
      ⟨intent, -, rfl | rfl, hIntent⟩ | ⟨held, path, rfl, -, hHeld⟩
    · cases hIn
    · exact ⟨rfl, intent, hIntent⟩
    · exact ⟨rfl, intent, hIntent⟩
    · exact ⟨rfl, intent, hIntent⟩
    · obtain rfl := mem_singleton.mp hIn
      exact absurd hHeld hShared
  | starting | asking | pausing | ended => cases hIn

theorem step_turn (hAt : s.calls[i]? = some call) (hAlive : s.alive call.process = true)
    (t : Turn) : step s (.turn i t) = turn s i call t := by
  rw [step, hAt, Option.bind_some, if_pos hAlive]

/-- A step waits at the gate only for a pause whose process has died. -/
theorem Sound.waits (hSound : Sound s) (hAt : s.At i (.entered intent))
    (hWait : step s (.turn i .go) = none) :
    ∃ (fd : ℕ) (file : File), s.files[fd]? = some file ∧ file.path = .gate ∧
      file.lock = some .exclusive ∧ s.alive file.owner.process = false := by
  obtain ⟨⟨process, phase⟩, hCall, hPhase, hAlive⟩ := hAt
  obtain rfl : phase = .entered intent := hPhase
  have hIntent : Holds s.files ⟨i, process⟩ intent .intent .shared := hSound.fits i _ hCall hAlive
  rw [step_turn hCall hAlive] at hWait
  change s.tryFlock i _ .gate .shared (.admitted intent) none = none at hWait
  have hTaken : ¬ free s.files .gate .shared = true := by
    intro hFree
    rw [GateState.tryFlock, if_pos hFree] at hWait
    cases hWait
  rw [free_iff] at hTaken
  push Not at hTaken
  obtain ⟨fd, file, held, hFile, hPath, hHeld, hKeeps⟩ := hTaken
  have hLock : file.lock = some .exclusive := by
    cases held with
    | shared => exact absurd rfl hKeeps
    | exclusive => exact hHeld
  refine ⟨fd, file, hFile, hPath, hLock, Bool.eq_false_iff.mpr fun hAliveO => ?_⟩
  -- a living process with the gate has the intent lock, which the step shares
  obtain ⟨-, other, hOther⟩ := hSound.holder hFile hLock hAliveO
  exact hSound.not_shared hOther hIntent

/-- No lock is exclusive. -/
def AllShared (files : Files Owner LockPath) : Prop :=
  ∀ (fd : ℕ) (file : File), files[fd]? = some file → file.lock ≠ some .exclusive

theorem AllShared.free (h : AllShared files) (path : LockPath) :
    free files path .shared = true := by
  rw [free_iff]
  intro fd file held hFile _ hHeld
  cases held with
  | shared => rfl
  | exclusive => exact absurd hHeld (h fd file hFile)

theorem AllShared.lock (h : AllShared files) (owner : Owner) (path : LockPath) :
    AllShared (lock files owner path .shared) := by
  intro fd file hFile
  rcases of_getElem?_lock hFile with hOld | ⟨-, rfl⟩
  · exact h fd file hOld
  · exact nofun

theorem at_move (hAt : s.calls[i]? = some call) (hAlive : s.alive call.process = true)
    (files : Files Owner LockPath) (phase : Phase) : (s.move i call files phase).At i phase :=
  ⟨{ call with phase := phase }, List.getElem?_set_self (List.getElem?_eq_some_iff.mp hAt).1, rfl,
    hAlive⟩

theorem enters (hAt : s.At i .starting) (hShared : AllShared s.files) :
    ∃ s' intent, step s (.turn i .go) = some s' ∧ s'.At i (.entered intent) ∧
      AllShared s'.files := by
  obtain ⟨⟨process, phase⟩, hCall, hPhase, hAlive⟩ := hAt
  obtain rfl : phase = .starting := hPhase
  refine ⟨_, s.files.length, ?_, at_move hCall hAlive _ _, hShared.lock ⟨i, process⟩ .intent⟩
  rw [step_turn hCall hAlive]
  exact if_pos (hShared.free .intent)

theorem admits (hAt : s.At i (.entered intent)) (hShared : AllShared s.files) :
    ∃ s' gate, step s (.turn i .go) = some s' ∧ s'.At i (.admitted intent gate) := by
  obtain ⟨⟨process, phase⟩, hCall, hPhase, hAlive⟩ := hAt
  obtain rfl : phase = .entered intent := hPhase
  refine ⟨s.move i _ (lock s.files ⟨i, process⟩ .gate .shared) _, s.files.length, ?_,
    at_move hCall hAlive _ _⟩
  rw [step_turn hCall hAlive]
  exact if_pos (hShared.free .gate)

theorem calls_function {gate : ℕ} (hAt : s.At i (.admitted intent gate)) :
    ∃ s', step s (.turn i .go) = some s' ∧ s'.At i (.running gate) := by
  obtain ⟨⟨process, phase⟩, hCall, hPhase, hAlive⟩ := hAt
  obtain rfl : phase = .admitted intent gate := hPhase
  exact ⟨_, step_turn hCall hAlive .go, at_move hCall hAlive _ _⟩

/-- Without a pause three turns bring a step to its function. -/
theorem Sound.runs (hSound : Sound s) (hAt : s.At i .starting)
    (hNone : ∀ j phase, s.At j phase → phase.pauses = false) (hSettled : s.isSettled) :
    ∃ s' gate, exec step s [.turn i .go, .turn i .go, .turn i .go] = some s' ∧
      s'.At i (.running gate) := by
  have hShared : AllShared s.files := by
    intro fd file hFile hLock
    have hAliveO := hSettled fd file hFile (by rw [hLock]; exact Option.some_ne_none _)
    obtain ⟨⟨phase, hAtJ, hPauses⟩, -⟩ := hSound.holder hFile hLock hAliveO
    rw [hNone _ phase hAtJ] at hPauses
    cases hPauses
  obtain ⟨s₁, intent, hEnter, hAt₁, hShared₁⟩ := enters hAt hShared
  obtain ⟨s₂, gate, hAdmit, hAt₂⟩ := admits hAt₁ hShared₁
  obtain ⟨s₃, hCall, hAt₃⟩ := calls_function hAt₂
  refine ⟨s₃, gate, ?_, hAt₃⟩
  exact exec_cons_iff.mpr ⟨s₁, hEnter, exec_cons_iff.mpr ⟨s₂, hAdmit,
    exec_cons_iff.mpr ⟨s₃, hCall, rfl⟩⟩⟩

theorem Sound.safe (hSound : Sound s) : GateSafe s where
  alone := fun _ _ => hSound.alone
  clean := fun _ _ _ hAt hPhase _ _ => hSound.clean hAt hPhase
  apart := fun _ _ _ hStep _ _ => hSound.apart hStep
  waits := fun _ _ => hSound.waits
  runs := fun _ => hSound.runs

/-- **No background work during a restore.** -/
theorem gate_safe {actions : List Action} {s : GateState}
    (hExec : exec step start actions = some s) : GateSafe s :=
  Sound.safe (invariant_of_exec (fun _ _ _ => sound_step) sound_start hExec)

/-- A restore waits for the step of another process, pauses, fails and resumes. Then a process
dies while it restores. -/
def busyRestore : List Action :=
  [.begin 0 .runGated, .turn 0 .go, .turn 0 .go, .turn 0 .go, .begin 1 .restore, .turn 1 .go,
    .turn 1 .go, .begin 0 .runGated, .turn 2 .go, .turn 0 .go, .turn 0 .go, .turn 1 .go,
    .turn 1 .go, .turn 1 .fail, .turn 1 .go, .turn 1 .go, .turn 1 .go, .begin 2 .restore,
    .turn 3 .go, .turn 3 .go, .turn 3 .go, .die 2]

theorem gate_safe_busy : ∃ s, exec step start busyRestore = some s ∧
    s.calls.map Call.phase = [.releasing [] .done, .ended .resumed, .ended .skipped, .restoring] ∧
    GateSafe s := by
  have hRun : (exec step start busyRestore).map (·.calls.map Call.phase) =
      some [.releasing [] .done, .ended .resumed, .ended .skipped, .restoring] := by decide
  obtain ⟨s, hExec, hPhases⟩ := Option.map_eq_some_iff.mp hRun
  exact ⟨s, hExec, hPhases, gate_safe hExec⟩

end AdminPanel.Backup.Gate
