import AdminPanel.Failover.PrintedRules

/-!
# The nat table of a front

The agent of a front carries out plans on its nat table, of which it reads what `iptables-save`
prints.

* `Entry`, `NatTable` — the table: rules of the pool among the lines of everyone else;
* `exec`, `applyPlan` — the commands, and a plan of which what was done is undone when one fails;
* `failoverStatus`, `failoverSetDestination`, `failoverTeardown` — the routes of the agent;
* `planSwitch_argv`, `planTeardown_argv` — its commands are those that the source plans;
* `detected_save` — what is detected in the printed table is the address of the first rule that
  sends packets on.

Main results: one lemma for each state in which a route finds the rules of the pool
(`setDestination_fresh`, `setDestination_moved`, `setDestination_stale`, `teardown_empty`,
`teardown_forwarding`, `teardown_stale`).
-/

namespace AdminPanel.Failover

open List Lib.PyText

/-! ## The table and its commands -/

/-- An entry of the nat table: a rule of the pool, or any other line. -/
inductive Entry (label : Label)
  | own (rule : PoolRule) (hIp : IsAddress rule.ip)
  | other (line : Line) (hLine : line.isOf label = false)

variable {label : Label}

def Entry.line : Entry label → Line
  | .own rule hIp => .tagged (rule.line label hIp)
  | .other line _ => line

def Entry.rule? : Entry label → Option PoolRule
  | .own rule _ => some rule
  | .other _ _ => none

def Entry.other? : Entry label → Option Line
  | .own _ _ => none
  | .other line _ => some line

abbrev NatTable (label : Label) := List (Entry label)

/-- `iptables-save -t nat` -/
def NatTable.save (table : NatTable label) : Text := savedRules (table.map Entry.line)

/-- The rules of the pool. -/
def NatTable.rules (table : NatTable label) : List PoolRule := table.filterMap Entry.rule?

/-- The lines of everyone else. -/
def NatTable.others (table : NatTable label) : List Line := table.filterMap Entry.other?

section

variable (table : NatTable label)

@[simp] theorem rules_own (rule : PoolRule) (hIp : IsAddress rule.ip) :
    NatTable.rules (.own rule hIp :: table) = rule :: table.rules := rfl

@[simp] theorem rules_other (line : Line) (hLine : line.isOf label = false) :
    NatTable.rules (.other line hLine :: table) = table.rules := rfl

@[simp] theorem others_own (rule : PoolRule) (hIp : IsAddress rule.ip) :
    NatTable.others (.own rule hIp :: table) = table.others := rfl

@[simp] theorem others_other (line : Line) (hLine : line.isOf label = false) :
    NatTable.others (.other line hLine :: table) = line :: table.others := rfl

end

abbrev Command := Action × PoolRule

def Command.argv (label : Text) : Command → Argv
  | (action, .dnat port ip backendPort) => failoverDnatArgv action label port ip backendPort
  | (action, .masq ip backendPort) => failoverMasqArgv action label ip backendPort

def commandPair (_ : Text) (port backendPort : Int) (action : Action) (ip : Text) : List Command :=
  [(action, .dnat port ip backendPort), (action, .masq ip backendPort)]

/-- `iptables` with one command: an address that is none is refused, a rule that is not there
cannot be deleted. -/
def exec (command : Command) (table : NatTable label) : Option (NatTable label) :=
  match command with
  | (.append, rule) => if hIp : IsAddress rule.ip then some (table ++ [.own rule hIp]) else none
  | (.delete, rule) =>
    if rule ∈ table.rules then some (table.eraseP fun entry => entry.rule? = some rule) else none

/-- `invert_iptables_argv` -/
def invert : Command → Command
  | (.append, rule) => (.delete, rule)
  | (.delete, rule) => (.append, rule)

/-- `_rollback_applied`, of the last command first. -/
def rollbackApplied (applied : List Command) (table : NatTable label) : NatTable label :=
  applied.foldl (fun table command => (exec (invert command) table).getD table) table

/-- The loop of `apply_iptables_plan`. -/
def applyFrom (applied : List Command) : List Command → NatTable label → Bool × NatTable label
  | [], table => (true, table)
  | command :: plan, table =>
    match exec command table with
    | some table => applyFrom (command :: applied) plan table
    | none => (false, rollbackApplied applied table)

/-- `apply_iptables_plan`, and whether it raises no error. -/
def applyPlan (plan : List Command) (table : NatTable label) : Bool × NatTable label :=
  applyFrom [] plan table

/-! ## Routes of the agent -/

def failoverStatus (port : Int) (table : NatTable label) : Except PlanError (Option Text) := do
  let label ← validateFailoverLabel label.text
  let _ ← validateFailoverPort port
  return detectFailoverDestination table.save label

def applyPlanned (plan : Except PlanError (List Command)) (table : NatTable label) :
    Bool × NatTable label :=
  match plan with
  | .ok plan => applyPlan plan table
  | .error _ => (false, table)

def failoverSetDestination (port : Int) (ip : Text) (backendPort : Option Int)
    (table : NatTable label) : Bool × NatTable label :=
  applyPlanned (planSwitch commandPair table.save label.text port ip backendPort) table

def failoverTeardown (port : Int) (backendPort : Option Int) (table : NatTable label) :
    Bool × NatTable label :=
  applyPlanned (planTeardown commandPair table.save label.text port backendPort) table

theorem map_argv_switchPair (label : Text) (port backendPort : Int) (old : Option Text)
    (new : Text) :
    (switchPair (commandPair label port backendPort) old new).map (Command.argv label) =
      switchPair (failoverPair label port backendPort) old new := by
  cases old <;> simp only [switchPair] <;> split_ifs <;> rfl

/-- The commands of a plan are those that the source plans. -/
theorem planSwitch_argv (rulesText : Text) (label : Label) (port : Int) (newIp : Text)
    (backendPort : Option Int) :
    (planSwitch commandPair rulesText label.text port newIp backendPort).map
        (List.map (Command.argv label.text)) =
      planFailoverSwitch rulesText label.text port newIp backendPort := by
  simp only [planFailoverSwitch, planSwitch, validateFailoverLabel_valid, bind, Except.bind]
  cases validateFailoverPort port with
  | error _ => rfl
  | ok port =>
    dsimp only
    cases validateBackendPort port backendPort with
    | error _ => rfl
    | ok backendPort =>
      dsimp only
      cases parseIpv4 newIp with
      | error _ => rfl
      | ok new => exact congrArg Except.ok (map_argv_switchPair label.text port backendPort _ new)

theorem planTeardown_argv (rulesText : Text) (label : Label) (port : Int)
    (backendPort : Option Int) :
    (planTeardown commandPair rulesText label.text port backendPort).map
        (List.map (Command.argv label.text)) =
      planFailoverTeardown rulesText label.text port backendPort := by
  simp only [planFailoverTeardown, planTeardown, validateFailoverLabel_valid, bind, Except.bind]
  cases validateFailoverPort port with
  | error _ => rfl
  | ok port =>
    dsimp only
    cases validateBackendPort port backendPort with
    | error _ => rfl
    | ok backendPort =>
      refine congrArg Except.ok ?_
      cases detectFailoverDestination rulesText label.text <;> rfl

/-! ## What the commands do to the rules of the pool -/

/-- No line of anyone else is taken for a rule of the pool that sends packets on. -/
def Quiet (table : NatTable label) : Prop :=
  ∀ line ∈ table.others, line.destination? .failover label.begins = none

def PoolRule.destination? : PoolRule → Option Text
  | .dnat _ ip _ => some ip
  | .masq _ _ => none

theorem Entry.destination? (entry : Entry label) :
    entry.line.destination? .failover label.begins =
      match entry with
      | .own rule _ => rule.destination?
      | .other line _ => line.destination? .failover label.begins := by
  cases entry with
  | other line hLine => rfl
  | own rule hIp =>
    have hBegins : label.begins label = true := isPrefixOf_iff_prefix.mpr (prefix_refl _)
    rw [Entry.line, Line.destination?, if_pos ⟨rfl, hBegins⟩]
    cases rule with
    | dnat port ip backendPort => exact lineDestination_dnat label port backendPort hIp
    | masq ip backendPort => exact lineDestination_masq label backendPort hIp

/-- **What is detected in the printed table** is the address of the first rule of the pool that
sends packets on. -/
theorem detected_save {table : NatTable label} (hQuiet : Quiet table) :
    detectFailoverDestination table.save label.text =
      table.rules.findSome? PoolRule.destination? := by
  rw [detectFailoverDestination, NatTable.save, detectDestination_savedRules, List.findSome?_map]
  induction table with
  | nil => rfl
  | cons entry table ih =>
    rw [List.findSome?_cons, Function.comp, Entry.destination?]
    cases entry with
    | own rule hIp =>
      rw [rules_own, List.findSome?_cons, ih hQuiet]
    | other line hLine =>
      rw [Quiet, others_other, forall_mem_cons] at hQuiet
      rw [rules_other, ← ih hQuiet.2]
      simp only [hQuiet.1]

theorem exec_append {table : NatTable label} {rule : PoolRule} (hIp : IsAddress rule.ip) :
    ∃ table', exec (.append, rule) table = some table' ∧ table'.rules = table.rules ++ [rule] ∧
      table'.others = table.others := by
  refine ⟨table ++ [.own rule hIp], by rw [exec, dif_pos hIp], ?_, ?_⟩
  · rw [NatTable.rules, filterMap_append]
    rfl
  · rw [NatTable.others, filterMap_append]
    exact append_nil _

/-- Taking out a rule of the pool leaves the other entries. -/
theorem erase_rule (table : NatTable label) (rule : PoolRule) :
    NatTable.rules (table.eraseP fun entry => entry.rule? = some rule) = table.rules.erase rule ∧
      NatTable.others (table.eraseP fun entry => entry.rule? = some rule) = table.others := by
  induction table with
  | nil => exact ⟨rfl, rfl⟩
  | cons entry table ih =>
    cases entry with
    | own first hIp =>
      by_cases hSame : first = rule
      · rw [eraseP_cons_of_pos (by simpa [Entry.rule?] using hSame), rules_own, others_own,
          hSame, erase_cons_head]
        exact ⟨rfl, rfl⟩
      · rw [eraseP_cons_of_neg (by simpa [Entry.rule?] using hSame), rules_own, rules_own,
          others_own, others_own, erase_cons_tail (by simpa using hSame)]
        exact ⟨congrArg _ ih.1, ih.2⟩
    | other line hLine =>
      rw [eraseP_cons_of_neg (by simp [Entry.rule?]), rules_other, rules_other, others_other,
        others_other]
      exact ⟨ih.1, congrArg _ ih.2⟩

theorem exec_delete {table : NatTable label} {rule : PoolRule} (h : rule ∈ table.rules) :
    ∃ table', exec (.delete, rule) table = some table' ∧ table'.rules = table.rules.erase rule ∧
      table'.others = table.others :=
  ⟨_, by rw [exec, if_pos h], erase_rule table rule⟩

/-- The two rules that forward to an address. -/
def forwarding (port backendPort : Int) (ip : Text) : List PoolRule :=
  [.dnat port ip backendPort, .masq ip backendPort]

/-- The pair is appended. -/
theorem applyFrom_append {applied : List Command} {port backendPort : Int} {ip : Text}
    {table : NatTable label} (hIp : IsAddress ip) :
    ∃ table', applyFrom applied (commandPair label.text port backendPort .append ip) table =
        (true, table') ∧
      table'.rules = table.rules ++ forwarding port backendPort ip ∧
      table'.others = table.others := by
  obtain ⟨t1, hT1, hRules1, hOthers1⟩ :=
    @exec_append label table (.dnat port ip backendPort) hIp
  obtain ⟨t2, hT2, hRules2, hOthers2⟩ :=
    @exec_append label t1 (.masq ip backendPort) hIp
  refine ⟨t2, ?_, by rw [hRules2, hRules1]; simp [forwarding], hOthers2.trans hOthers1⟩
  simp only [commandPair, applyFrom, hT1, hT2]

/-- The pair that is there is deleted, and the plan goes on. -/
theorem applyFrom_delete {applied plan : List Command} {port backendPort : Int} {ip : Text}
    {table : NatTable label} (h : table.rules = forwarding port backendPort ip) :
    ∃ table' applied', applyFrom applied
        (commandPair label.text port backendPort .delete ip ++ plan) table =
          applyFrom applied' plan table' ∧
      table'.rules = [] ∧ table'.others = table.others := by
  obtain ⟨t1, hT1, hRules1, hOthers1⟩ :=
    @exec_delete label table (.dnat port ip backendPort) (by rw [h]; exact mem_cons_self)
  rw [h, forwarding, erase_cons_head] at hRules1
  obtain ⟨t2, hT2, hRules2, hOthers2⟩ :=
    @exec_delete label t1 (.masq ip backendPort) (by rw [hRules1]; exact mem_cons_self)
  rw [hRules1, erase_cons_head] at hRules2
  refine ⟨t2, (.delete, .masq ip backendPort) :: (.delete, .dnat port ip backendPort) :: applied,
    ?_, hRules2, hOthers2.trans hOthers1⟩
  simp only [commandPair, cons_append, nil_append, applyFrom, hT1, hT2]

/-- A pair for other ports is not found. -/
theorem applyPlan_stale {plan : List Command} {port backendPort port' backendPort' : Int}
    {ip : Text} {table : NatTable label} (h : table.rules = forwarding port' backendPort' ip)
    (hPorts : ¬(port' = port ∧ backendPort' = backendPort)) :
    applyPlan (commandPair label.text port backendPort .delete ip ++ plan) table =
      (false, table) := by
  have hMissing : PoolRule.dnat port ip backendPort ∉ table.rules := by
    rw [h, forwarding]
    intro hMem
    rcases mem_cons.mp hMem with hSame | hMem
    · injection hSame with hPort _ hBackend
      exact hPorts ⟨hPort.symm, hBackend.symm⟩
    · cases mem_singleton.mp hMem
  have hExec : exec (.delete, .dnat port ip backendPort) table = none := by
    rw [exec, if_neg hMissing]
  simp only [applyPlan, commandPair, cons_append, applyFrom, hExec]
  rfl

theorem detected_forwarding (port backendPort : Int) (ip : Text) :
    (forwarding port backendPort ip).findSome? PoolRule.destination? = some ip := rfl

/-! ## What the routes do -/

section

variable {table : NatTable label} {port backendPort : Int} {ip : Text} {backend : Option Int}
  (hQuiet : Quiet table) (hPort : validateFailoverPort port = .ok port)
  (hBackend : validateBackendPort port backend = .ok backendPort)

include hPort in
theorem failoverStatus_eq : failoverStatus port table =
    .ok (detectFailoverDestination table.save label.text) := by
  simp only [failoverStatus, validateFailoverLabel_valid, hPort, bind, Except.bind]
  rfl

include hPort hBackend in
theorem planSwitch_eq (hIp : parseIpv4 ip = .ok ip) :
    planSwitch commandPair table.save label.text port ip backend =
      .ok (switchPair (commandPair label.text port backendPort)
        (detectFailoverDestination table.save label.text) ip) := by
  simp only [planSwitch, validateFailoverLabel_valid, hPort, hBackend, hIp, bind, Except.bind]
  rfl

include hPort hBackend in
theorem planTeardown_eq :
    planTeardown commandPair table.save label.text port backend =
      .ok (teardownPair (commandPair label.text port backendPort)
        (detectFailoverDestination table.save label.text)) := by
  simp only [planTeardown, validateFailoverLabel_valid, hPort, hBackend, bind, Except.bind]
  rfl

include hPort hBackend in
/-- An address that is none to send packets on to is refused. -/
theorem setDestination_refused {e : PlanError} (hIp : parseIpv4 ip = .error e) :
    failoverSetDestination port ip backend table = (false, table) := by
  simp only [failoverSetDestination, planSwitch, validateFailoverLabel_valid, hPort, hBackend, hIp,
    bind, Except.bind, applyPlanned]

include hQuiet hPort hBackend

/-- A first rule is appended. -/
theorem setDestination_fresh (hIp : parseIpv4 ip = .ok ip) (hAddress : IsAddress ip)
    (hNone : table.rules = []) :
    ∃ table', failoverSetDestination port ip backend table = (true, table') ∧
      table'.rules = forwarding port backendPort ip ∧ table'.others = table.others := by
  obtain ⟨table', hApply, hRules, hOthers⟩ :=
    @applyFrom_append label [] port backendPort ip table hAddress
  rw [hNone, nil_append] at hRules
  refine ⟨table', ?_, hRules, hOthers⟩
  rw [failoverSetDestination, planSwitch_eq hPort hBackend hIp, detected_save hQuiet, hNone]
  exact hApply

/-- The rules of another address are replaced. -/
theorem setDestination_moved {old : Text} (hIp : parseIpv4 ip = .ok ip) (hAddress : IsAddress ip)
    (hRules : table.rules = forwarding port backendPort old) (hOld : old ≠ ip) :
    ∃ table', failoverSetDestination port ip backend table = (true, table') ∧
      table'.rules = forwarding port backendPort ip ∧ table'.others = table.others := by
  obtain ⟨t1, applied, hDelete, hRules1, hOthers1⟩ :=
    @applyFrom_delete label [] (commandPair label.text port backendPort .append ip) _ _ _ _ hRules
  obtain ⟨t2, hAppend, hRules2, hOthers2⟩ :=
    @applyFrom_append label applied port backendPort ip t1 hAddress
  rw [hRules1, nil_append] at hRules2
  refine ⟨t2, ?_, hRules2, hOthers2.trans hOthers1⟩
  rw [failoverSetDestination, planSwitch_eq hPort hBackend hIp, detected_save hQuiet, hRules,
    detected_forwarding, switchPair, if_neg fun hSame => hOld (Option.some.inj hSame)]
  exact hDelete.trans hAppend

/-- Rules for other ports stay in the way. -/
theorem setDestination_stale {old : Text} {port' backendPort' : Int} (hIp : parseIpv4 ip = .ok ip)
    (hRules : table.rules = forwarding port' backendPort' old) (hOld : old ≠ ip)
    (hPorts : ¬(port' = port ∧ backendPort' = backendPort)) :
    failoverSetDestination port ip backend table = (false, table) := by
  rw [failoverSetDestination, planSwitch_eq hPort hBackend hIp, detected_save hQuiet, hRules,
    detected_forwarding, switchPair, if_neg fun hSame => hOld (Option.some.inj hSame)]
  exact applyPlan_stale hRules hPorts

theorem teardown_empty (hNone : table.rules = []) :
    failoverTeardown port backend table = (true, table) := by
  rw [failoverTeardown, planTeardown_eq hPort hBackend, detected_save hQuiet, hNone]
  rfl

theorem teardown_forwarding {old : Text} (hRules : table.rules = forwarding port backendPort old) :
    ∃ table', failoverTeardown port backend table = (true, table') ∧ table'.rules = [] ∧
      table'.others = table.others := by
  obtain ⟨table', applied, hDelete, hRules', hOthers⟩ :=
    @applyFrom_delete label [] [] _ _ _ _ hRules
  refine ⟨table', ?_, hRules', hOthers⟩
  rw [failoverTeardown, planTeardown_eq hPort hBackend, detected_save hQuiet, hRules,
    detected_forwarding]
  exact hDelete

theorem teardown_stale {old : Text} {port' backendPort' : Int}
    (hRules : table.rules = forwarding port' backendPort' old)
    (hPorts : ¬(port' = port ∧ backendPort' = backendPort)) :
    failoverTeardown port backend table = (false, table) := by
  rw [failoverTeardown, planTeardown_eq hPort hBackend, detected_save hQuiet, hRules,
    detected_forwarding]
  exact @applyPlan_stale label [] _ _ _ _ _ _ hRules hPorts

end

end AdminPanel.Failover
