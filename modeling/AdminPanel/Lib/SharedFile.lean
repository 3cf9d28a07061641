import AdminPanel.Lib.Runs

/-!
# Read, modify, write

Processes that edit one shared value without a lock. Each reads the whole value,
and later writes a whole value computed from what it read; reads and writes of
different processes interleave freely. A process owns one key of the value and
its edit leaves the other keys alone.

* `Edits` — the processes, with the laws of their edits;
* `editStep` — one read or one write;
* `WriteKeeps` — the writer's copy agrees with the value on every process that
  has finished, so that its write undoes nobody;
* `finished_right` — along a run of such writes, what a finished process wanted
  is so.
-/

namespace Lib

/-- Processes `ι` that edit a value `ν`, of which `shows` tells what it says
about a key `κ`. An edit of `none` leaves the value unwritten. -/
structure Edits (ι κ ν : Type) where
  key : ι → κ
  want : ι → Bool
  shows : ν → κ → Bool
  edit : ι → ν → Option ν
  key_injective : Function.Injective key
  own : ∀ {i v v'}, edit i v = some v' → shows v' (key i) = want i
  frame : ∀ {i v v' k}, edit i v = some v' → k ≠ key i → shows v' k = shows v k
  skip : ∀ {i v}, edit i v = none → shows v (key i) = want i

/-- A process before its read, between read and write with what it read, and
after. -/
inductive EditPhase (ν : Type) where
  | ready
  | holding (read : ν)
  | finished

structure Shared (ι ν : Type) where
  value : ν
  phase : ι → EditPhase ν

variable {ι κ ν : Type} [DecidableEq ι]

/-- The process `i` moves to `phase`, leaving the value `value`. -/
def Shared.move (s : Shared ι ν) (i : ι) (phase : EditPhase ν) (value : ν) : Shared ι ν :=
  ⟨value, Function.update s.phase i phase⟩

@[simp] theorem Shared.move_value (s : Shared ι ν) (i : ι) (phase : EditPhase ν) (value : ν) :
    (s.move i phase value).value = value := rfl

@[simp] theorem Shared.move_phase_self (s : Shared ι ν) (i : ι) (phase : EditPhase ν)
    (value : ν) : (s.move i phase value).phase i = phase := by
  simp [Shared.move]

@[simp] theorem Shared.move_phase_of_ne (s : Shared ι ν) {i j : ι} (phase : EditPhase ν)
    (value : ν) (h : j ≠ i) : (s.move i phase value).phase j = s.phase j := by
  simp [Shared.move, h]

/-- The next read or write of a process. -/
def editStep (edits : Edits ι κ ν) (s : Shared ι ν) (i : ι) : Option (Shared ι ν) :=
  match s.phase i with
  | .ready =>
    match edits.edit i s.value with
    | some _ => some (s.move i (.holding s.value) s.value)
    | none => some (s.move i .finished s.value)
  | .holding read => some (s.move i .finished ((edits.edit i read).getD s.value))
  | .finished => none

/-- What every finished process wanted is so. -/
def FinishedRight (edits : Edits ι κ ν) (s : Shared ι ν) : Prop :=
  ∀ j, s.phase j = .finished → edits.shows s.value (edits.key j) = edits.want j

/-- If the step is a write, the writer's copy agrees with the value on the keys of
the finished processes. -/
def WriteKeeps (edits : Edits ι κ ν) (s : Shared ι ν) (i : ι) : Prop :=
  ∀ read, s.phase i = .holding read → ∀ j, s.phase j = .finished →
    edits.shows read (edits.key j) = edits.shows s.value (edits.key j)

/-- What a process holds is something it decided to edit. -/
def HoldsEdit (edits : Edits ι κ ν) (s : Shared ι ν) : Prop :=
  ∀ j read, s.phase j = .holding read → ∃ v, edits.edit j read = some v

variable {edits : Edits ι κ ν} {s s' : Shared ι ν} {i : ι}

/-- What a step can do: read and go on, read and stop, write. -/
theorem editStep_cases (hStep : editStep edits s i = some s') :
    (s.phase i = .ready ∧ (∃ v, edits.edit i s.value = some v) ∧
      s' = s.move i (.holding s.value) s.value) ∨
    (s.phase i = .ready ∧ edits.edit i s.value = none ∧ s' = s.move i .finished s.value) ∨
    (∃ read, s.phase i = .holding read ∧
      s' = s.move i .finished ((edits.edit i read).getD s.value)) := by
  unfold editStep at hStep
  cases hPhase : s.phase i with
  | ready =>
    rw [hPhase] at hStep
    cases hEdit : edits.edit i s.value with
    | some v => exact .inl ⟨rfl, ⟨v, rfl⟩, by simpa [hEdit] using hStep.symm⟩
    | none => exact .inr (.inl ⟨rfl, rfl, by simpa [hEdit] using hStep.symm⟩)
  | holding read =>
    rw [hPhase] at hStep
    exact .inr (.inr ⟨read, rfl, (Option.some.inj hStep).symm⟩)
  | finished =>
    rw [hPhase] at hStep
    simp at hStep

theorem holdsEdit_step (h : HoldsEdit edits s) (hStep : editStep edits s i = some s') :
    HoldsEdit edits s' := by
  intro j read hj
  by_cases hij : j = i
  · subst hij
    obtain ⟨-, ⟨v, hEdit⟩, rfl⟩ | ⟨-, -, rfl⟩ | ⟨_, -, rfl⟩ := editStep_cases hStep
    · rw [Shared.move_phase_self, EditPhase.holding.injEq] at hj
      exact ⟨v, hj ▸ hEdit⟩
    · rw [Shared.move_phase_self] at hj
      simp at hj
    · rw [Shared.move_phase_self] at hj
      simp at hj
  · obtain ⟨-, -, rfl⟩ | ⟨-, -, rfl⟩ | ⟨_, -, rfl⟩ := editStep_cases hStep
    all_goals
      rw [Shared.move_phase_of_ne _ _ _ hij] at hj
      exact h j read hj

/-- A step without a write leaves the finished processes right. -/
theorem finishedRight_of_same_value {phase : EditPhase ν} (hRight : FinishedRight edits s)
    (hOwn : phase = .finished → edits.shows s.value (edits.key i) = edits.want i) :
    FinishedRight edits (s.move i phase s.value) := by
  intro j hj
  by_cases hij : j = i
  · subst hij
    rw [Shared.move_phase_self] at hj
    exact hOwn hj
  · rw [Shared.move_phase_of_ne _ _ _ hij] at hj
    exact hRight j hj

/-- **The step lemma.** With the finished processes right before it, a step
leaves them right exactly when its write keeps them. -/
theorem finishedRight_step_iff (hHolds : HoldsEdit edits s) (hRight : FinishedRight edits s)
    (hStep : editStep edits s i = some s') :
    FinishedRight edits s' ↔ WriteKeeps edits s i := by
  have hNoWrite : s.phase i = .ready → WriteKeeps edits s i := by
    intro hReady read hHolding
    rw [hReady] at hHolding
    simp at hHolding
  obtain ⟨hReady, -, rfl⟩ | ⟨hReady, hSkip, rfl⟩ | ⟨read, hHolding, rfl⟩ := editStep_cases hStep
  · exact ⟨fun _ => hNoWrite hReady,
      fun _ => finishedRight_of_same_value hRight nofun⟩
  · exact ⟨fun _ => hNoWrite hReady,
      fun _ => finishedRight_of_same_value hRight fun _ => edits.skip hSkip⟩
  · obtain ⟨v, hEdit⟩ := hHolds i read hHolding
    have hKey : ∀ {j}, j ≠ i → edits.key j ≠ edits.key i :=
      fun hij h => hij (edits.key_injective h)
    rw [hEdit, Option.getD_some]
    constructor
    · intro hAfter read' hRead' j hj
      obtain rfl : read = read' := by
        rw [hHolding] at hRead'
        exact EditPhase.holding.inj hRead'
      have hij : j ≠ i := by
        rintro rfl
        rw [hHolding] at hj
        simp at hj
      have hNow := hAfter j (by rw [Shared.move_phase_of_ne _ _ _ hij]; exact hj)
      rw [← edits.frame hEdit (hKey hij), hRight j hj]
      exact hNow
    · intro hKeeps j hj
      by_cases hij : j = i
      · subst hij
        exact edits.own hEdit
      · rw [Shared.move_phase_of_ne _ _ _ hij] at hj
        rw [Shared.move_value, edits.frame hEdit (hKey hij), hKeeps read hHolding j hj,
          hRight j hj]

/-- Every process before its read. -/
def Shared.start (ι : Type) {ν : Type} (value : ν) : Shared ι ν := ⟨value, fun _ => .ready⟩

/-- The invariant of every run that keeps its finished processes. -/
def EditInv (edits : Edits ι κ ν) (s : Shared ι ν) : Prop :=
  HoldsEdit edits s ∧ FinishedRight edits s

omit [DecidableEq ι] in
theorem start_editInv (edits : Edits ι κ ν) (value : ν) : EditInv edits (Shared.start ι value) := by
  constructor
  · intro j read hj
    cases hj
  · intro j hj
    cases hj

/-- **No lost update.** Along a run whose writes keep the finished processes, the
value says of every finished process what it wanted. -/
theorem finished_right {value : ν} {run : List ι} {t : Shared ι ν}
    (hKeeps : Along (editStep edits) (WriteKeeps edits) (Shared.start ι value) run)
    (hExec : exec (editStep edits) (Shared.start ι value) run = some t) :
    FinishedRight edits t := by
  have hInv : EditInv edits t :=
    invariant_exec
      (fun s i s' h hKeep hStep =>
        ⟨holdsEdit_step h.1 hStep, (finishedRight_step_iff h.1 h.2 hStep).mpr hKeep⟩)
      (start_editInv edits value) hKeeps hExec
  exact hInv.2

end Lib
