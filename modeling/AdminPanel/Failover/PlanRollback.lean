import AdminPanel.Failover.Rules
import Mathlib.Data.List.Count

/-!
# Plans that fail midway

`apply_iptables_plan` carries out a plan of `-D` and `-A` commands, and takes back what it has done
when a command fails.

* `Tables`, `Command.exec` — the chains and what a command does to them;
* `Reply` — what the runner makes of a command;
* `applyIptablesPlan`, `rollbackApplied` — the plan and its rollback, on the words of the commands;
* `Balanced` — commands that leave every chain with the rules it had.

Main result: `leavesNoTrace_iff`.
-/

namespace AdminPanel.Failover.Iptables

open List Function

/-! ## Commands -/

/-- The rules of each chain of the nat table, as words. -/
abbrev Tables := Text → List Argv

structure Command where
  action : Action
  chain : Text
  rule : Argv
  deriving DecidableEq

def Command.argv (command : Command) : Argv :=
  words ["iptables", "-w", "-t", "nat"] ++ command.action.flag :: command.chain :: command.rule

/-- `-A` appends, `-D` removes the first equal rule and fails if there is none. -/
def Command.exec (command : Command) (tables : Tables) : Option Tables :=
  match command.action with
  | .append =>
    some (update tables command.chain (tables command.chain ++ [command.rule]))
  | .delete =>
    if command.rule ∈ tables command.chain then
      some (update tables command.chain ((tables command.chain).erase command.rule))
    else none

def readFlag (word : Text) : Option Action :=
  if word = "-D".toList then some .delete
  else if word = "-A".toList then some .append
  else none

/-- The command that the words give. -/
def readCommand : Argv → Option Command
  | program :: wait :: option :: table :: flag :: chain :: rule =>
    if [program, wait, option, table] = words ["iptables", "-w", "-t", "nat"] then
      (readFlag flag).map (⟨·, chain, rule⟩)
    else none
  | _ => none

/-- The kernel, given the words of a command. -/
def iptables (argv : Argv) (tables : Tables) : Option Tables :=
  (readCommand argv).bind (·.exec tables)

def invertIptablesArgv : Argv → Option Argv
  | [] => none
  | word :: argv =>
    match readFlag word with
    | some .delete => some ("-A".toList :: argv)
    | some .append => some ("-D".toList :: argv)
    | none => (invertIptablesArgv argv).map (word :: ·)

/-! ## The plan -/

/-- What the runner makes of a command. A command that fails or raises has done nothing. -/
inductive Reply
  /-- the command is carried out, if the kernel can -/
  | run
  | fails
  /-- `FileNotFoundError`, `TimeoutExpired` -/
  | unavailable
  /-- any other exception -/
  | raises
  deriving DecidableEq, Repr

inductive Result
  | ok
  /-- `IptablesApplyError`, with what it reports of the rollback -/
  | applyError (rollbackErrors : List Argv)
  | raised
  deriving DecidableEq

/-- `_rollback_applied`, given the applied commands with the last one first. -/
def rollbackApplied (fails : ℕ → Bool) : ℕ → List Argv → Tables → List Argv × Tables
  | _, [], tables => ([], tables)
  | index, argv :: applied, tables =>
    match invertIptablesArgv argv with
    | none =>
      let rest := rollbackApplied fails (index + 1) applied tables
      (argv :: rest.1, rest.2)
    | some inverse =>
      match (if fails index then none else iptables inverse tables) with
      | some tables => rollbackApplied fails (index + 1) applied tables
      | none =>
        let rest := rollbackApplied fails (index + 1) applied tables
        (inverse :: rest.1, rest.2)

/-- The loop of `apply_iptables_plan`. -/
def applyFrom (reply : ℕ → Reply) (rollbackFails : ℕ → Bool) :
    ℕ → List Argv → List Argv → Tables → Result × Tables
  | _, _, [], tables => (.ok, tables)
  | index, applied, argv :: plan, tables =>
    match reply index with
    | .run =>
      match iptables argv tables with
      | some tables => applyFrom reply rollbackFails (index + 1) (argv :: applied) plan tables
      | none =>
        let (errors, tables) := rollbackApplied rollbackFails 0 applied tables
        (.applyError errors, tables)
    | .fails =>
      let (errors, tables) := rollbackApplied rollbackFails 0 applied tables
      (.applyError errors, tables)
    | .unavailable => (.applyError [], (rollbackApplied rollbackFails 0 applied tables).2)
    | .raises => (.raised, tables)

def applyIptablesPlan (reply : ℕ → Reply) (rollbackFails : ℕ → Bool) (plan : List Argv)
    (tables : Tables) : Result × Tables := applyFrom reply rollbackFails 0 [] plan tables

/-! ## What the words say -/

variable {command : Command} {done plan rest : List Command} {tables middle after : Tables}
  {reply : ℕ → Reply}

def Command.inverse (command : Command) : Command :=
  { command with action := match command.action with | .delete => .append | .append => .delete }

@[simp] theorem readFlag_flag (action : Action) : readFlag action.flag = some action := by
  cases action
  all_goals decide

@[simp] theorem iptables_argv : iptables command.argv tables = command.exec tables := by
  have hRead : readCommand command.argv = some command := by
    show (readFlag command.action.flag).map (Command.mk · command.chain command.rule) = _
    rw [readFlag_flag]
    rfl
  rw [iptables, hRead, Option.bind_some]

theorem invert_argv : invertIptablesArgv command.argv = some command.inverse.argv := by
  obtain ⟨action, chain, rule⟩ := command
  cases action with
  | delete | append => rfl

/-! ## Multiplicities -/

/-- Every chain holds the same rules, each as often. -/
def Same (tables after : Tables) : Prop := ∀ chain, (after chain).Perm (tables chain)

/-- The commands one after the other. -/
def execAll : List Command → Tables → Option Tables
  | [], tables => some tables
  | command :: plan, tables => (command.exec tables).bind (execAll plan)

/-- As many appends as deletions of every rule. -/
def Balanced (done : List Command) : Prop :=
  ∀ chain rule, done.count ⟨.append, chain, rule⟩ = done.count ⟨.delete, chain, rule⟩

/-- **What a command does to the multiplicities.** -/
theorem count_exec (hExec : command.exec tables = some after) (chain : Text) (rule : Argv) :
    (after chain).count rule + [command].count ⟨.delete, chain, rule⟩ =
      (tables chain).count rule + [command].count ⟨.append, chain, rule⟩ := by
  obtain ⟨action, own, ownRule⟩ := command
  cases action with
  | append =>
    cases hExec
    by_cases hChain : chain = own
    · subst hChain
      simp [update_self, count_append, count_singleton]
    · have hOwn : own ≠ chain := Ne.symm hChain
      simp [update_of_ne hChain, hOwn]
  | delete =>
    unfold Command.exec at hExec
    dsimp only at hExec
    split_ifs at hExec with hMem
    cases hExec
    by_cases hChain : chain = own
    · subst hChain
      by_cases hRule : ownRule = rule
      · subst hRule
        have hPos := count_pos_iff.mpr hMem
        simp only [update_self, count_erase_self, count_singleton, beq_iff_eq,
          Command.mk.injEq, reduceCtorEq, and_self, and_true, if_true, if_false]
        omega
      · simp [update_self, count_erase_of_ne (Ne.symm hRule), hRule]
    · have hOwn : own ≠ chain := Ne.symm hChain
      simp [update_of_ne hChain, hOwn]

theorem count_execAll (hExec : execAll done tables = some after) (chain : Text) (rule : Argv) :
    (after chain).count rule + done.count ⟨.delete, chain, rule⟩ =
      (tables chain).count rule + done.count ⟨.append, chain, rule⟩ := by
  induction done generalizing tables with
  | nil =>
    cases hExec
    rfl
  | cons command done ih =>
    obtain ⟨middle, hFirst, hRest⟩ := Option.bind_eq_some_iff.mp hExec
    have hOne := count_exec hFirst chain rule
    have hMany := ih hRest
    have hSplit : ∀ c : Command, (command :: done).count c = [command].count c + done.count c := by
      intro c
      rw [← count_append, singleton_append]
    rw [hSplit, hSplit]
    omega

theorem same_iff_count : Same tables after ↔
    ∀ chain rule, (after chain).count rule = (tables chain).count rule :=
  forall_congr' fun _ => perm_iff_count

/-- Commands leave the chains as they were exactly if they are balanced. -/
theorem same_iff_balanced (hExec : execAll done tables = some after) :
    Same tables after ↔ Balanced done := by
  rw [same_iff_count]
  refine forall_congr' fun chain => forall_congr' fun rule => ?_
  have hCount := count_execAll hExec chain rule
  omega

/-! ## The rollback -/

/-- A command undone, in tables that have changed in order only. -/
theorem exec_inverse (hExec : command.exec tables = some middle) (hSame : Same middle after) :
    ∃ undone, command.inverse.exec after = some undone ∧ Same tables undone := by
  have hUndone : ∃ undone, command.inverse.exec after = some undone := by
    obtain ⟨action, chain, rule⟩ := command
    cases action with
    | delete => exact ⟨_, rfl⟩
    | append =>
      have hMem : rule ∈ after chain := by
        cases hExec
        rw [(hSame chain).mem_iff]
        show rule ∈ update tables chain (tables chain ++ [rule]) chain
        rw [update_self]
        exact mem_append_right _ (mem_singleton_self rule)
      exact ⟨_, if_pos hMem⟩
  obtain ⟨undone, hUndone⟩ := hUndone
  refine ⟨undone, hUndone, same_iff_count.mpr fun chain rule => ?_⟩
  have hForth := count_exec hExec chain rule
  have hBack := count_exec hUndone chain rule
  have hBetween := same_iff_count.mp hSame chain rule
  obtain ⟨action, own, ownRule⟩ := command
  cases action with
  | append | delete =>
    simp only [Command.inverse, count_singleton, beq_iff_eq, Command.mk.injEq, reduceCtorEq,
      false_and, if_false, true_and] at hForth hBack
    omega

theorem execAll_append (first second : List Command) :
    execAll (first ++ second) tables = (execAll first tables).bind (execAll second) := by
  induction first generalizing tables with
  | nil => rfl
  | cons command first ih =>
    show (command.exec tables).bind (execAll (first ++ second)) =
      ((command.exec tables).bind (execAll first)).bind (execAll second)
    rw [Option.bind_assoc]
    exact congrArg _ (funext fun _ => ih)

/-- **The rollback restores the multiplicities**, and none of its commands is refused. -/
theorem rollback_restores (hExec : execAll done tables = some middle) (hSame : Same middle after)
    (index : ℕ) : ∃ undone, rollbackApplied (fun _ => false) index
      (done.reverse.map Command.argv) after = ([], undone) ∧ Same tables undone := by
  induction done using List.reverseRecOn generalizing middle after index with
  | nil =>
    cases hExec
    exact ⟨after, rfl, hSame⟩
  | append_singleton done command ih =>
    rw [execAll_append] at hExec
    obtain ⟨before, hDone, hLast⟩ := Option.bind_eq_some_iff.mp hExec
    obtain ⟨last, hCommand, hLast⟩ := Option.bind_eq_some_iff.mp hLast
    cases hLast
    obtain ⟨undone, hUndone, hBefore⟩ := exec_inverse hCommand hSame
    obtain ⟨start, hStart, hTables⟩ := ih hDone hBefore (index + 1)
    refine ⟨start, ?_, hTables⟩
    rw [reverse_append, reverse_singleton, singleton_append, map_cons]
    simp only [rollbackApplied, invert_argv, iptables_argv, Bool.false_eq_true, if_false, hUndone]
    exact hStart

/-! ## Where a plan stops -/

/-- The commands `done` are carried out, and `command` is the next one of the plan. -/
structure Reaches (reply : ℕ → Reply) (plan : List Command) (tables : Tables)
    (done : List Command) (command : Command) (middle : Tables) : Prop where
  splits : ∃ rest, plan = done ++ command :: rest
  answered : ∀ index < done.length, reply index = .run
  carried : execAll done tables = some middle

/-- The loop goes on behind the commands that have run. -/
theorem applyFrom_carried (hExec : execAll done tables = some middle) (plan : List Argv)
    (rollbackFails : ℕ → Bool) (applied : List Argv) {start : ℕ}
    (hRun : ∀ index < done.length, reply (start + index) = .run) :
    applyFrom reply rollbackFails start applied (done.map Command.argv ++ plan) tables =
      applyFrom reply rollbackFails (start + done.length)
        (done.reverse.map Command.argv ++ applied) plan middle := by
  induction done generalizing tables start applied with
  | nil =>
    cases hExec
    rfl
  | cons command done ih =>
    obtain ⟨next, hCommand, hRest⟩ := Option.bind_eq_some_iff.mp hExec
    have hFirst : reply start = .run := hRun 0 (Nat.succ_pos _)
    have hOthers : ∀ index < done.length, reply (start + 1 + index) = .run := by
      intro index hIndex
      rw [Nat.add_right_comm]
      exact hRun (index + 1) (Nat.succ_lt_succ hIndex)
    have hApplied : (command :: done).reverse.map Command.argv ++ applied =
        done.reverse.map Command.argv ++ command.argv :: applied := by
      simp
    have hLength : start + (command :: done).length = start + 1 + done.length := by
      rw [length_cons]
      omega
    rw [hApplied, hLength, ← ih hRest _ hOthers, map_cons, cons_append]
    simp only [applyFrom, hFirst, iptables_argv, hCommand]

/-- A plan is carried out, or there is a command at which it stops. -/
theorem carried_or_stops (reply : ℕ → Reply) (plan : List Command) (tables : Tables) :
    (∃ after, execAll plan tables = some after ∧ ∀ index < plan.length, reply index = .run) ∨
      ∃ done command middle, Reaches reply plan tables done command middle ∧
        (reply done.length = .run → command.exec middle = none) := by
  induction plan using List.reverseRecOn with
  | nil => exact .inl ⟨tables, rfl, fun _ hIndex => absurd hIndex (Nat.not_lt_zero _)⟩
  | append_singleton plan command ih =>
    obtain ⟨middle, hExec, hRun⟩ | ⟨done, at', middle, ⟨⟨rest, rfl⟩, hRun, hExec⟩, hStops⟩ := ih
    · by_cases hGoes : reply plan.length = .run ∧ (command.exec middle).isSome
      · obtain ⟨after, hAfter⟩ := Option.isSome_iff_exists.mp hGoes.2
        refine .inl ⟨after, ?_, fun index hIndex => ?_⟩
        · rw [execAll_append, hExec, Option.bind_some, execAll, hAfter]
          rfl
        · rw [length_append, length_singleton] at hIndex
          obtain hLess | rfl := Nat.lt_succ_iff_lt_or_eq.mp hIndex
          · exact hRun index hLess
          · exact hGoes.1
      · refine .inr ⟨plan, command, middle, ⟨⟨[], rfl⟩, hRun, hExec⟩, fun hReply => ?_⟩
        rw [← Option.not_isSome_iff_eq_none]
        exact fun hSome => hGoes ⟨hReply, hSome⟩
    · refine .inr ⟨done, at', middle, ⟨⟨rest ++ [command], ?_⟩, hRun, hExec⟩, hStops⟩
      rw [append_assoc, cons_append]

/-! ## No trace -/

/-- The plan's outcome, if the runner carries out the rollback. -/
def outcome (reply : ℕ → Reply) (plan : List Command) (tables : Tables) : Result × Tables :=
  applyIptablesPlan reply (fun _ => false) (plan.map Command.argv) tables

theorem outcome_carried (hExec : execAll plan tables = some after)
    (hRun : ∀ index < plan.length, reply index = .run) :
    outcome reply plan tables = (.ok, after) := by
  have hAll := applyFrom_carried hExec [] (fun _ => false) []
    (fun index hIndex => (congrArg reply (Nat.zero_add index)).trans (hRun index hIndex))
  rw [append_nil] at hAll
  rw [outcome, applyIptablesPlan, hAll]
  rfl

theorem outcome_reaches (hReaches : Reaches reply plan tables done command middle) : ∃ rest,
    outcome reply plan tables = applyFrom reply (fun _ => false) done.length
      (done.reverse.map Command.argv) (command.argv :: rest) middle := by
  obtain ⟨⟨rest, rfl⟩, hRun, hExec⟩ := hReaches
  refine ⟨rest.map Command.argv, ?_⟩
  have hAll := applyFrom_carried hExec (command.argv :: rest.map Command.argv) (fun _ => false) []
    (fun index hIndex => (congrArg reply (Nat.zero_add index)).trans (hRun index hIndex))
  rw [Nat.zero_add, append_nil] at hAll
  rw [outcome, applyIptablesPlan, map_append, map_cons, hAll]

/-- Another exception leaves the chains as they are at that point. -/
theorem outcome_raises (hReaches : Reaches reply plan tables done command middle)
    (hRaises : reply done.length = .raises) : outcome reply plan tables = (.raised, middle) := by
  obtain ⟨rest, hOutcome⟩ := outcome_reaches hReaches
  simp only [hOutcome, applyFrom, hRaises]

/-- A command that fails, or that cannot be run, is followed by a rollback that succeeds. -/
theorem outcome_fails (hReaches : Reaches reply plan tables done command middle)
    (hStops : reply done.length = .run → command.exec middle = none)
    (hReply : reply done.length ≠ .raises) : ∃ after,
      outcome reply plan tables = (.applyError [], after) ∧ Same tables after := by
  obtain ⟨rest, hOutcome⟩ := outcome_reaches hReaches
  obtain ⟨undone, hUndone, hSame⟩ :=
    rollback_restores hReaches.carried (fun _ => List.Perm.refl _) 0
  refine ⟨undone, ?_, hSame⟩
  rw [hOutcome]
  cases hCase : reply done.length with
  | run => simp only [applyFrom, hCase, iptables_argv, hStops hCase, hUndone]
  | fails | unavailable => simp only [applyFrom, hCase, hUndone]
  | raises => exact absurd hCase hReply

/-- A plan that succeeds has been executed in order, and a plan that does not leaves every chain
with the rules it had. -/
def LeavesNoTrace (reply : ℕ → Reply) (plan : List Command) (tables : Tables) : Prop :=
  let result := outcome reply plan tables
  if result.1 = .ok then execAll plan tables = some result.2 else Same tables result.2

/-- **A failed plan leaves no trace** exactly if the commands carried out before another exception
cancel each other out. -/
theorem leavesNoTrace_iff (reply : ℕ → Reply) (plan : List Command) (tables : Tables) :
    LeavesNoTrace reply plan tables ↔
      ∀ done command middle, Reaches reply plan tables done command middle →
        reply done.length = .raises → Balanced done := by
  constructor
  · intro hTrace done command middle hReaches hRaises
    rw [LeavesNoTrace, outcome_raises hReaches hRaises] at hTrace
    exact (same_iff_balanced hReaches.carried).mp hTrace
  intro hBalanced
  obtain ⟨after, hExec, hRun⟩ | ⟨done, command, middle, hReaches, hStops⟩ :=
    carried_or_stops reply plan tables
  · rw [LeavesNoTrace, outcome_carried hExec hRun]
    exact hExec
  · by_cases hRaises : reply done.length = .raises
    · rw [LeavesNoTrace, outcome_raises hReaches hRaises]
      exact (same_iff_balanced hReaches.carried).mpr
        (hBalanced done command middle hReaches hRaises)
    · obtain ⟨after, hOutcome, hSame⟩ := outcome_fails hReaches hStops hRaises
      rw [LeavesNoTrace, hOutcome]
      exact hSame

/-- The runner cannot start the second command of a plan that moves a rule. -/
theorem not_always_noTrace : ¬ ∀ reply plan tables, LeavesNoTrace reply plan tables := by
  intro hAll
  have hTrace := hAll (fun index => if index = 0 then .run else .raises)
    [⟨.delete, "POSTROUTING".toList, words ["-j", "MASQUERADE"]⟩,
      ⟨.append, "POSTROUTING".toList, words ["-j", "ACCEPT"]⟩]
    (fun _ => [words ["-j", "MASQUERADE"]])
  have hSame : Same (fun _ => [words ["-j", "MASQUERADE"]]) _ := hTrace
  have hNil := hSame "POSTROUTING".toList
  revert hNil
  decide

end AdminPanel.Failover.Iptables
