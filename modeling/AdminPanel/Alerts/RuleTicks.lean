import AdminPanel.Lib.Runs
import Mathlib.Data.List.Forall2
import Mathlib.Data.List.Nodup
import Mathlib.Data.Rat.Defs
import Mathlib.Algebra.Order.Ring.Rat

/-!
# Ticks of the alert rules

`run_alert_rules_tick` goes through all rules in one loop, notifies the rules that trigger, and
commits the trigger times once at the end; an exception in one rule rolls all of them back.

* `evaluateRule`, `evaluateEach`, `runAlertRulesTick` — as the source has them;
* `Undisturbed` — the notifications of a rule are its cooldown apart, and every rule that is due
  is notified, whatever happens to others;
* `CleanTick` — a tick in which a rule raises has no other rule to notify;
* `undisturbed_of_clean` — a run of such ticks is undisturbed;
* `disturbed_of_not_clean` — any other tick is not, if it is repeated.
-/

namespace AdminPanel.Alerts

open List

open Lib (exec Along outputs outputs_cons)

/-! ## Rules -/

inductive AlertRuleMetric where
  | ovpnOnlineTotal
  | wgOnlineTotal
  | nodesOnline
  | nodesOffline
  | nodeOfflineSeconds
  | trafficCollectorLagSeconds
  | mtproxyDown
  | mtproxyAvailabilityPct
  | mtproxyQuotaPct
  deriving DecidableEq, Repr

inductive AlertRuleOperator where
  | gt
  | gte
  | lt
  | lte
  | eq
  deriving DecidableEq, Repr

/-- A row of `alert_rules`; times are in microseconds. -/
structure AlertRule where
  id : Nat
  name : String
  metric : AlertRuleMetric
  operator : AlertRuleOperator := .gt
  threshold : Rat
  nodeId : Option Nat := none
  cooldownMinutes : Int := 30
  enabled : Bool := true
  lastTriggeredAt : Option Int := none
  deriving DecidableEq, Repr

def compare (operator : AlertRuleOperator) (value threshold : Rat) : Bool :=
  match operator with
  | .gt => threshold < value
  | .gte => threshold ≤ value
  | .lt => value < threshold
  | .lte => value ≤ threshold
  | .eq => value = threshold

/-- `timedelta(minutes=max(1, rule.cooldown_minutes))` -/
def AlertRule.cooldown (rule : AlertRule) : Int := 60000000 * max 1 rule.cooldownMinutes

def cooldownActive (rule : AlertRule) (now : Int) : Bool :=
  match rule.lastTriggeredAt with
  | none => false
  | some last => now - last < rule.cooldown

/-- The dictionary that `evaluate_rule` returns. -/
structure RuleResult where
  ruleId : Nat
  name : String
  metric : AlertRuleMetric
  value : Option Rat
  threshold : Rat
  operator : AlertRuleOperator
  triggered : Bool := false
  skippedReason : Option String := none
  deriving DecidableEq, Repr

/-- `evaluate_rule`, for the value that it has read. -/
def evaluateRule (rule : AlertRule) (now : Int) (value : Option Rat) : RuleResult :=
  let result : RuleResult :=
    { ruleId := rule.id, name := rule.name, metric := rule.metric, value := value,
      threshold := rule.threshold, operator := rule.operator }
  if rule.enabled = false then { result with skippedReason := some "disabled" }
  else
    match value with
    | none => { result with skippedReason := some "metric_unavailable" }
    | some v =>
      if compare rule.operator v rule.threshold = false then
        { result with skippedReason := some "threshold_not_met" }
      else if cooldownActive rule now then { result with skippedReason := some "cooldown" }
      else { result with triggered := true }

/-! ## A tick -/

/-- The time of a tick, and what comes of reading the metric of a rule and of
`notify_rule_trigger` for it; both can raise. -/
structure Tick where
  now : Int
  alertRulesEnabled : Bool := true
  read : Nat → Except String (Option Rat)
  send : Nat → Except String Unit

/-- What the loop leaves in the session, what it has sent, and its results if it does not raise. -/
structure Pass where
  rules : List AlertRule
  sent : List Nat
  outcome : Except String (List RuleResult)

/-- A rule, its notification and its result come before those of the rest. -/
def Pass.after (pass : Pass) (rule : AlertRule) (sent : List Nat) (result : RuleResult) : Pass :=
  ⟨rule :: pass.rules, sent ++ pass.sent, pass.outcome.map fun results => result :: results⟩

/-- The loop of `evaluate_alert_rules`. -/
def evaluateEach (tick : Tick) : List AlertRule → Pass
  | [] => ⟨[], [], .ok []⟩
  | rule :: rest =>
    match tick.read rule.id with
    | .error exc => ⟨rule :: rest, [], .error exc⟩
    | .ok value =>
      let result := evaluateRule rule tick.now value
      if result.triggered then
        match tick.send rule.id with
        | .error exc => ⟨rule :: rest, [], .error exc⟩
        | .ok () => (evaluateEach tick rest).after { rule with lastTriggeredAt := some tick.now }
            [rule.id] result
      else (evaluateEach tick rest).after rule [] result

/-- The dictionary of a tick. -/
inductive TickResult where
  | disabled
  | ok (evaluated triggered : Nat) (results : List RuleResult)
  | error (error : String)
  deriving DecidableEq, Repr

/-- `run_alert_rules_tick`: the rules that are committed, the notifications that were sent, and
the result. -/
def runAlertRulesTick (tick : Tick) (rules : List AlertRule) :
    List AlertRule × List Nat × TickResult :=
  if tick.alertRulesEnabled = false then (rules, [], .disabled)
  else
    let pass := evaluateEach tick rules
    match pass.outcome with
    | .ok results => (pass.rules, pass.sent,
        .ok results.length (results.filter RuleResult.triggered).length results)
    | .error exc => (rules, pass.sent, .error exc)

/-! ## Runs -/

/-- The table in the order of its primary key. -/
structure RuleTable where
  rules : List AlertRule
  sorted : rules.Pairwise fun a b => a.id < b.id

/-- Only the time of the last trigger has changed. -/
def SameRule (a b : AlertRule) : Prop := { a with lastTriggeredAt := b.lastTriggeredAt } = b

variable {tick : Tick} {rules : List AlertRule} {rule : AlertRule}

theorem evaluateEach_sameRules (tick : Tick) (rules : List AlertRule) :
    List.Forall₂ SameRule rules (evaluateEach tick rules).rules := by
  have hSelf : ∀ rules : List AlertRule, List.Forall₂ SameRule rules rules := fun rules =>
    List.forall₂_same.mpr fun _ _ => rfl
  induction rules with
  | nil => exact List.Forall₂.nil
  | cons rule rest ih =>
    rw [evaluateEach]
    split
    · exact hSelf _
    · dsimp only
      split_ifs
      · split
        · exact hSelf _
        · exact List.Forall₂.cons rfl ih
      · exact List.Forall₂.cons rfl ih

theorem runAlertRulesTick_sameRules (tick : Tick) (rules : List AlertRule) :
    List.Forall₂ SameRule rules (runAlertRulesTick tick rules).1 := by
  have hSelf : List.Forall₂ SameRule rules rules := List.forall₂_same.mpr fun _ _ => rfl
  rw [runAlertRulesTick]
  split_ifs
  · exact hSelf
  · dsimp only
    split
    · exact evaluateEach_sameRules tick rules
    · exact hSelf

theorem ids_eq {rules' : List AlertRule} (h : List.Forall₂ SameRule rules rules') :
    rules'.map AlertRule.id = rules.map AlertRule.id := by
  induction h with
  | nil => rfl
  | cons hSame _ ih =>
    rw [map_cons, map_cons, ih, ← hSame]

/-- A tick, on the table. -/
def RuleTable.afterTick (table : RuleTable) (tick : Tick) : RuleTable where
  rules := (runAlertRulesTick tick table.rules).1
  sorted := by
    have hIds := ids_eq (runAlertRulesTick_sameRules tick table.rules)
    rw [← pairwise_map (R := (· < ·)) (f := AlertRule.id), hIds, pairwise_map]
    exact table.sorted

def step (table : RuleTable) (tick : Tick) : Option RuleTable := some (table.afterTick tick)

structure Notification where
  time : Int
  ruleId : Nat
  deriving DecidableEq, Repr

/-- The notifications of a tick. -/
def sentIn (table : RuleTable) (tick : Tick) : List Notification :=
  (runAlertRulesTick tick table.rules).2.1.map fun id => ⟨tick.now, id⟩

/-- The notifications of a run. -/
def notifications : RuleTable → List Tick → List Notification := outputs step sentIn

/-! ## What is asked of a run -/

/-- The rule is enabled, and its metric can be read and meets the threshold outside its
cooldown. -/
def Due (tick : Tick) (rule : AlertRule) : Prop :=
  rule.enabled = true ∧
    (∃ value, tick.read rule.id = .ok (some value) ∧
      compare rule.operator value rule.threshold = true) ∧
    cooldownActive rule tick.now = false

/-- Notifications of one rule are its cooldown apart. -/
def Spaced (rules : List AlertRule) (log : List Notification) : Prop :=
  log.Pairwise fun a b =>
    ∀ rule ∈ rules, rule.id = a.ruleId → rule.id = b.ruleId → a.time + rule.cooldown ≤ b.time

/-- Each rule that is due is notified, if its own notification does not raise. -/
def AllNotified (table : RuleTable) (tick : Tick) : Prop :=
  tick.alertRulesEnabled = true → ∀ rule ∈ table.rules, Due tick rule →
    tick.send rule.id = .ok () → ⟨tick.now, rule.id⟩ ∈ sentIn table tick

/-- **Alert rules neither spam nor block each other.** -/
structure Undisturbed (table : RuleTable) (ticks : List Tick) : Prop where
  spaced : Spaced table.rules (notifications table ticks)
  notified : Along step AllNotified table ticks

/-- Reading the metric of the rule raises, or the rule is due and its notification raises. -/
def Raises (tick : Tick) (rule : AlertRule) : Prop :=
  (∃ exc, tick.read rule.id = .error exc) ∨ (Due tick rule ∧ ∃ exc, tick.send rule.id = .error exc)

/-- Where a rule raises, no rule is due whose notification can be sent. -/
def CleanTick (table : RuleTable) (tick : Tick) : Prop :=
  tick.alertRulesEnabled = true → (∃ rule ∈ table.rules, Raises tick rule) →
    ∀ rule ∈ table.rules, Due tick rule → tick.send rule.id ≠ .ok ()

/-! ## What a pass does -/

/-- `Due`, computed. -/
def dueNow (tick : Tick) (rule : AlertRule) : Bool :=
  match tick.read rule.id with
  | .error _ => false
  | .ok value => (evaluateRule rule tick.now value).triggered

theorem triggered_iff {now : Int} {value : Option Rat} :
    (evaluateRule rule now value).triggered = true ↔ rule.enabled = true ∧
      (∃ v, value = some v ∧ compare rule.operator v rule.threshold = true) ∧
        cooldownActive rule now = false := by
  unfold evaluateRule
  cases hEnabled : rule.enabled <;> cases value with
  | none => simp
  | some v =>
    cases hCompare : compare rule.operator v rule.threshold <;>
      cases cooldownActive rule now <;> simp [hCompare]

theorem dueNow_iff : dueNow tick rule = true ↔ Due tick rule := by
  rw [dueNow, Due]
  cases hRead : tick.read rule.id with
  | error exc => simp
  | ok value =>
    rw [triggered_iff]
    simp only [Except.ok.injEq]

/-- What a tick that is committed makes of a rule. -/
def touched (tick : Tick) (rule : AlertRule) : AlertRule :=
  if dueNow tick rule then { rule with lastTriggeredAt := some tick.now } else rule

theorem evaluateEach_raises (h : Raises tick rule) (rest : List AlertRule) :
    ∃ exc, evaluateEach tick (rule :: rest) = ⟨rule :: rest, [], .error exc⟩ := by
  rcases h with ⟨exc, hRead⟩ | ⟨hDue, exc, hSend⟩
  · refine ⟨exc, ?_⟩
    rw [evaluateEach, hRead]
  · obtain ⟨value, hRead, -⟩ := hDue.2.1
    refine ⟨exc, ?_⟩
    have hTriggered := dueNow_iff.mpr hDue
    rw [dueNow, hRead] at hTriggered
    rw [evaluateEach, hRead]
    dsimp only at hTriggered ⊢
    rw [if_pos hTriggered, hSend]

theorem evaluateEach_quiet (h : ¬Raises tick rule) (rest : List AlertRule) :
    ∃ result, evaluateEach tick (rule :: rest) = (evaluateEach tick rest).after (touched tick rule)
      (if dueNow tick rule then [rule.id] else []) result := by
  cases hRead : tick.read rule.id with
  | error exc => exact absurd (.inl ⟨exc, hRead⟩) h
  | ok value =>
    refine ⟨evaluateRule rule tick.now value, ?_⟩
    have hDue : dueNow tick rule = (evaluateRule rule tick.now value).triggered := by
      rw [dueNow, hRead]
    rw [evaluateEach, hRead, touched, hDue]
    dsimp only
    split_ifs with hTriggered
    · cases hSend : tick.send rule.id with
      | error exc =>
        rw [hTriggered] at hDue
        exact absurd (.inr ⟨dueNow_iff.mp hDue, exc, hSend⟩) h
      | ok _ => rfl
    · rfl

/-- A pass in which nothing raises notifies the rules that are due, and records it. -/
theorem evaluateEach_of_quiet (h : ∀ rule ∈ rules, ¬Raises tick rule) :
    (evaluateEach tick rules).rules = rules.map (touched tick) ∧
      (evaluateEach tick rules).sent = (rules.filter (dueNow tick)).map AlertRule.id ∧
      ∃ results, (evaluateEach tick rules).outcome = .ok results := by
  induction rules with
  | nil => exact ⟨rfl, rfl, [], rfl⟩
  | cons rule rest ih =>
    rw [forall_mem_cons] at h
    obtain ⟨result, hEach⟩ := evaluateEach_quiet h.1 rest
    obtain ⟨hRules, hSent, results, hOutcome⟩ := ih h.2
    rw [hEach]
    refine ⟨?_, ?_, result :: results, ?_⟩
    · show touched tick rule :: _ = _
      rw [hRules, map_cons]
    · show _ ++ (evaluateEach tick rest).sent = _
      rw [hSent, filter_cons]
      split_ifs <;> rfl
    · show (evaluateEach tick rest).outcome.map _ = _
      rw [hOutcome]
      rfl

/-- A pass in which a rule raises ends with its error. -/
theorem evaluateEach_of_raises (h : ∃ rule ∈ rules, Raises tick rule) :
    ∃ exc, (evaluateEach tick rules).outcome = .error exc := by
  induction rules with
  | nil =>
    obtain ⟨rule, hMem, -⟩ := h
    cases hMem
  | cons rule rest ih =>
    by_cases hFirst : Raises tick rule
    · obtain ⟨exc, hEach⟩ := evaluateEach_raises hFirst rest
      exact ⟨exc, by rw [hEach]⟩
    obtain ⟨other, hMem, hRaises⟩ := h
    have hRest : other ∈ rest := by
      rcases mem_cons.mp hMem with rfl | hRest
      · exact absurd hRaises hFirst
      · exact hRest
    obtain ⟨exc, hOutcome⟩ := ih ⟨other, hRest, hRaises⟩
    obtain ⟨result, hEach⟩ := evaluateEach_quiet hFirst rest
    refine ⟨exc, ?_⟩
    rw [hEach]
    show (evaluateEach tick rest).outcome.map _ = _
    rw [hOutcome]
    rfl

/-- Only rules that are due are notified. -/
theorem mem_sent {id : Nat} (h : id ∈ (evaluateEach tick rules).sent) :
    ∃ rule ∈ rules, rule.id = id ∧ Due tick rule ∧ tick.send rule.id = .ok () := by
  induction rules with
  | nil => cases h
  | cons rule rest ih =>
    by_cases hRaises : Raises tick rule
    · obtain ⟨exc, hEach⟩ := evaluateEach_raises hRaises rest
      rw [hEach] at h
      cases h
    obtain ⟨result, hEach⟩ := evaluateEach_quiet hRaises rest
    rw [hEach] at h
    rcases mem_append.mp h with hNow | hLater
    · split_ifs at hNow with hDue
      · rw [mem_singleton] at hNow
        refine ⟨rule, mem_cons_self, hNow.symm, dueNow_iff.mp hDue, ?_⟩
        cases hSend : tick.send rule.id with
        | error exc => exact absurd (.inr ⟨dueNow_iff.mp hDue, exc, hSend⟩) hRaises
        | ok _ => rfl
      · cases hNow
    · obtain ⟨other, hMem, hOther⟩ := ih hLater
      exact ⟨other, mem_cons_of_mem _ hMem, hOther⟩

/-! ## What a tick does -/

variable {table : RuleTable}

theorem runAlertRulesTick_of_error (hEnabled : tick.alertRulesEnabled = true) {exc : String}
    (h : (evaluateEach tick rules).outcome = .error exc) :
    runAlertRulesTick tick rules = (rules, (evaluateEach tick rules).sent, .error exc) := by
  rw [runAlertRulesTick, if_neg (by rw [hEnabled]; decide)]
  dsimp only
  rw [h]

theorem runAlertRulesTick_of_ok (hEnabled : tick.alertRulesEnabled = true)
    {results : List RuleResult} (h : (evaluateEach tick rules).outcome = .ok results) :
    runAlertRulesTick tick rules = ((evaluateEach tick rules).rules, (evaluateEach tick rules).sent,
      .ok results.length (results.filter RuleResult.triggered).length results) := by
  rw [runAlertRulesTick, if_neg (by rw [hEnabled]; decide)]
  dsimp only
  rw [h]

theorem afterTick_rules :
    (table.afterTick tick).rules = (runAlertRulesTick tick table.rules).1 := rfl

/-- **A clean tick** notifies nobody and changes nothing, or it notifies the rules that are due
and records it. -/
theorem cleanTick_cases (h : CleanTick table tick) :
    (sentIn table tick = [] ∧ (table.afterTick tick).rules = table.rules) ∨
      ((∀ rule ∈ table.rules, Due tick rule → tick.send rule.id = .ok ()) ∧
        sentIn table tick = (table.rules.filter (dueNow tick)).map (fun rule =>
          ⟨tick.now, rule.id⟩) ∧
        (table.afterTick tick).rules = table.rules.map (touched tick)) := by
  by_cases hEnabled : tick.alertRulesEnabled = false
  · refine .inl ⟨?_, ?_⟩
    · rw [sentIn, runAlertRulesTick, if_pos hEnabled]
      rfl
    · rw [afterTick_rules, runAlertRulesTick, if_pos hEnabled]
  · rw [Bool.not_eq_false] at hEnabled
    by_cases hRaises : ∃ rule ∈ table.rules, Raises tick rule
    · obtain ⟨exc, hOutcome⟩ := evaluateEach_of_raises hRaises
      have hSent : (evaluateEach tick table.rules).sent = [] := by
        refine eq_nil_iff_forall_not_mem.mpr fun id hMem => ?_
        obtain ⟨rule, hRule, -, hDue, hSend⟩ := mem_sent hMem
        exact h hEnabled hRaises rule hRule hDue hSend
      have hTick := runAlertRulesTick_of_error hEnabled hOutcome
      rw [hSent] at hTick
      refine .inl ⟨?_, ?_⟩
      · rw [sentIn, hTick]
        rfl
      · rw [afterTick_rules, hTick]
    · have hQuiet : ∀ rule ∈ table.rules, ¬Raises tick rule := fun rule hMem hRule =>
        hRaises ⟨rule, hMem, hRule⟩
      obtain ⟨hRules, hSent, results, hOutcome⟩ := evaluateEach_of_quiet hQuiet
      have hTick := runAlertRulesTick_of_ok hEnabled hOutcome
      rw [hRules, hSent] at hTick
      refine .inr ⟨fun rule hMem hDue => ?_, ?_, ?_⟩
      · cases hSend : tick.send rule.id with
        | error exc => exact absurd (.inr ⟨hDue, exc, hSend⟩) (hQuiet rule hMem)
        | ok _ => rfl
      · rw [sentIn, hTick, map_map]
        rfl
      · rw [afterTick_rules, hTick]

/-! ## Runs of clean ticks -/

variable {ticks : List Tick}

theorem cooldown_pos (rule : AlertRule) : 0 < rule.cooldown := by
  unfold AlertRule.cooldown
  have hMax := le_max_left 1 rule.cooldownMinutes
  omega

theorem notifications_cons :
    notifications table (tick :: ticks) =
      sentIn table tick ++ notifications (table.afterTick tick) ticks := outputs_cons rfl

/-- A rule of the table, after a tick. -/
theorem exists_sameRule (hMem : rule ∈ table.rules) (tick : Tick) :
    ∃ rule' ∈ (table.afterTick tick).rules, SameRule rule rule' := by
  have hForall := runAlertRulesTick_sameRules tick table.rules
  rw [← afterTick_rules] at hForall
  obtain ⟨i, hI, rfl⟩ := getElem_of_mem hMem
  have hLength := hForall.length_eq
  exact ⟨(table.afterTick tick).rules[i], getElem_mem _, hForall.get hI (by omega)⟩

theorem SameRule.id_eq {a b : AlertRule} (h : SameRule a b) : b.id = a.id := by rw [← h]

theorem SameRule.cooldown_eq {a b : AlertRule} (h : SameRule a b) : b.cooldown = a.cooldown := by
  rw [← h]
  rfl

theorem eq_of_id {a b : AlertRule} (hA : a ∈ table.rules) (hB : b ∈ table.rules)
    (h : a.id = b.id) : a = b := by
  have hNodup : (table.rules.map AlertRule.id).Nodup :=
    (pairwise_map.mpr table.sorted).imp fun hLt => ne_of_lt hLt
  exact inj_on_of_nodup_map hNodup hA hB h

/-- A rule that is due is outside its cooldown. -/
theorem Due.outside (h : Due tick rule) {last : Int} (hLast : rule.lastTriggeredAt = some last) :
    last + rule.cooldown ≤ tick.now := by
  have hActive := h.2.2
  rw [cooldownActive, hLast] at hActive
  have hNot := of_decide_eq_false hActive
  omega

theorem mem_due {n : Notification}
    (h : n ∈ (table.rules.filter (dueNow tick)).map fun rule => ⟨tick.now, rule.id⟩) :
    ∃ rule ∈ table.rules, Due tick rule ∧ n = ⟨tick.now, rule.id⟩ := by
  obtain ⟨rule, hMem, rfl⟩ := mem_map.mp h
  obtain ⟨hRule, hDue⟩ := mem_filter.mp hMem
  exact ⟨rule, hRule, dueNow_iff.mp hDue, rfl⟩

/-- What is recorded of a rule keeps its notifications away for its cooldown. -/
theorem outside_of_recorded (hClean : Along step CleanTick table ticks) {n : Notification}
    (hN : n ∈ notifications table ticks) (hRule : rule ∈ table.rules) (hId : rule.id = n.ruleId)
    {last : Int} (hLast : rule.lastTriggeredAt = some last) :
    last + rule.cooldown ≤ n.time := by
  induction ticks generalizing table rule last with
  | nil => cases hN
  | cons tick ticks ih =>
    rw [notifications_cons] at hN
    have hRest := hClean.2 _ rfl
    rcases cleanTick_cases hClean.1 with ⟨hSent, hRules⟩ | ⟨-, hSent, hRules⟩
    · rw [hSent, nil_append] at hN
      exact ih hRest hN (by rw [hRules]; exact hRule) hId hLast
    rcases mem_append.mp hN with hNow | hLater
    · rw [hSent] at hNow
      obtain ⟨other, hOther, hDue, rfl⟩ := mem_due hNow
      obtain rfl := eq_of_id hRule hOther hId
      exact hDue.outside hLast
    · have hTouched : touched tick rule ∈ (table.afterTick tick).rules := by
        rw [hRules]
        exact mem_map_of_mem hRule
      rw [touched] at hTouched
      split_ifs at hTouched with hDue
      · -- the rule is notified now, and what comes later keeps away from now
        have hAfter := ih hRest hLater hTouched hId rfl
        have hNow := (dueNow_iff.mp hDue).outside hLast
        have hPos := cooldown_pos rule
        change tick.now + rule.cooldown ≤ n.time at hAfter
        omega
      · exact ih hRest hLater hTouched hId hLast

/-- The first half: no rule notifies again before its cooldown is over. -/
theorem spaced_of_clean (hClean : Along step CleanTick table ticks) :
    Spaced table.rules (notifications table ticks) := by
  induction ticks generalizing table with
  | nil => exact List.Pairwise.nil
  | cons tick ticks ih =>
    have hRest := hClean.2 _ rfl
    have hLater : Spaced table.rules (notifications (table.afterTick tick) ticks) := by
      refine (ih hRest).imp fun {a b} hApart rule hRule hA hB => ?_
      obtain ⟨rule', hRule', hSame⟩ := exists_sameRule hRule tick
      rw [← hSame.cooldown_eq]
      exact hApart rule' hRule' (hSame.id_eq.trans hA) (hSame.id_eq.trans hB)
    rw [notifications_cons]
    rcases cleanTick_cases hClean.1 with ⟨hSent, -⟩ | ⟨-, hSent, hRules⟩
    · rw [hSent]
      exact hLater
    rw [hSent]
    refine pairwise_append.mpr ⟨?_, hLater, fun a hA b hB rule hRule hIdA hIdB => ?_⟩
    · rw [pairwise_map]
      refine (table.sorted.filter _).imp fun {a b} hLt rule hRule hIdA hIdB => ?_
      change rule.id = a.id at hIdA
      change rule.id = b.id at hIdB
      omega
    · obtain ⟨other, hOther, hDue, rfl⟩ := mem_due hA
      obtain rfl := eq_of_id hRule hOther hIdA
      have hTouched : { rule with lastTriggeredAt := some tick.now } ∈
          (table.afterTick tick).rules := by
        rw [hRules]
        exact mem_map.mpr ⟨rule, hRule, if_pos (dueNow_iff.mpr hDue)⟩
      exact outside_of_recorded hRest hB hTouched hIdB rfl

theorem allNotified_of_clean (h : CleanTick table tick) : AllNotified table tick := by
  intro hEnabled rule hRule hDue hSend
  by_cases hRaises : ∃ rule ∈ table.rules, Raises tick rule
  · exact absurd hSend (h hEnabled hRaises rule hRule hDue)
  have hQuiet : ∀ rule ∈ table.rules, ¬Raises tick rule := fun rule hMem hRule =>
    hRaises ⟨rule, hMem, hRule⟩
  obtain ⟨-, hSent, results, hOutcome⟩ := evaluateEach_of_quiet hQuiet
  rw [sentIn, runAlertRulesTick_of_ok hEnabled hOutcome]
  refine mem_map_of_mem ?_
  show rule.id ∈ (evaluateEach tick table.rules).sent
  rw [hSent]
  exact mem_map_of_mem (mem_filter.mpr ⟨hRule, dueNow_iff.mpr hDue⟩)

/-- **Alert rules are undisturbed in every run of clean ticks.** -/
theorem undisturbed_of_clean (table : RuleTable) (ticks : List Tick)
    (hClean : Along step CleanTick table ticks) : Undisturbed table ticks :=
  ⟨spaced_of_clean hClean, hClean.mono fun _ _ => allNotified_of_clean⟩

/-! ## Other ticks -/

theorem cleanTick_of_ok (hRead : ∀ id, ∃ value, tick.read id = .ok value)
    (hSend : ∀ id, tick.send id = .ok ()) : CleanTick table tick := by
  rintro - ⟨rule, -, ⟨exc, hError⟩ | ⟨-, exc, hError⟩⟩
  · obtain ⟨value, hOk⟩ := hRead rule.id
    rw [hOk] at hError
    cases hError
  · rw [hSend] at hError
    cases hError

/-- The tick again, with nothing that raises. -/
def Tick.calm (tick : Tick) : Tick where
  now := tick.now
  read id :=
    match tick.read id with
    | .ok value => .ok value
    | .error _ => .ok none
  send _ := .ok ()

/-- **A tick that is not clean disturbs**: a rule that is due is not notified, or it is notified
again when the tick is repeated. -/
theorem disturbed_of_not_clean (h : ¬CleanTick table tick) :
    ¬Undisturbed table [tick, tick.calm] := by
  intro hUndisturbed
  simp only [CleanTick, Classical.not_imp, not_forall, ne_eq, not_not] at h
  obtain ⟨hEnabled, hRaises, rule, hRule, hDue, hSend⟩ := h
  have hNow := hUndisturbed.notified.1 hEnabled rule hRule hDue hSend
  have hSame : table.afterTick tick = table := by
    obtain ⟨exc, hOutcome⟩ := evaluateEach_of_raises hRaises
    have hRules : (table.afterTick tick).rules = table.rules := by
      rw [afterTick_rules, runAlertRulesTick_of_error hEnabled hOutcome]
    cases table
    exact RuleTable.mk.injEq .. |>.mpr hRules
  have hCalm : CleanTick table tick.calm := by
    refine cleanTick_of_ok (fun id => ?_) fun id => rfl
    rw [Tick.calm]
    dsimp only
    cases tick.read id with
    | ok value => exact ⟨value, rfl⟩
    | error _ => exact ⟨none, rfl⟩
  have hDueAgain : Due tick.calm rule := by
    obtain ⟨hRuleEnabled, ⟨value, hRead, hMeets⟩, hOutside⟩ := hDue
    refine ⟨hRuleEnabled, ⟨value, ?_, hMeets⟩, hOutside⟩
    rw [Tick.calm]
    dsimp only
    rw [hRead]
  have hAgain := allNotified_of_clean hCalm rfl rule hRule hDueAgain rfl
  have hSpaced := hUndisturbed.spaced
  rw [notifications_cons, hSame, notifications_cons] at hSpaced
  have hApart := (pairwise_append.mp hSpaced).2.2 _ hNow _
    (mem_append_left _ hAgain) rule hRule rfl rfl
  have hPos := cooldown_pos rule
  change tick.now + rule.cooldown ≤ tick.now at hApart
  omega

/-! ## Two rules -/

/-- Nodes that are offline, and MTProxy. -/
def twoRules : RuleTable where
  rules := [
    { id := 1, name := "offline", metric := .nodesOffline, threshold := 0 },
    { id := 2, name := "mtproxy", metric := .mtproxyDown, threshold := 0 }]
  sorted := by decide

/-- A tick at which MTProxy cannot be read. -/
def mtproxyTick : Tick where
  now := 0
  read id := if id = 1 then .ok (some 1) else .error "timed out"
  send _ := .ok ()

theorem not_always_undisturbed : ¬∀ (table : RuleTable) (ticks : List Tick),
    ticks.Pairwise (fun a b => a.now ≤ b.now) → Undisturbed table ticks := by
  intro h
  have hUnclean : ¬CleanTick twoRules mtproxyTick := by
    intro hClean
    refine hClean rfl ⟨_, mem_cons_of_mem _ mem_cons_self, .inl ⟨"timed out", rfl⟩⟩ _
      mem_cons_self ?_ rfl
    exact ⟨rfl, ⟨1, rfl, by decide⟩, rfl⟩
  exact disturbed_of_not_clean hUnclean
    (h twoRules [mtproxyTick, mtproxyTick.calm] (by simp [Tick.calm]))

/-- A tick a minute after another: the first rule is in its cooldown. -/
theorem twoRules_undisturbed :
    Undisturbed twoRules [mtproxyTick.calm, { mtproxyTick.calm with now := 60000000 }] := by
  have hRead : ∀ id, ∃ value, mtproxyTick.calm.read id = .ok value := by
    intro id
    by_cases hId : id = 1
    · exact ⟨some 1, by simp [Tick.calm, mtproxyTick, hId]⟩
    · exact ⟨none, by simp [Tick.calm, mtproxyTick, hId]⟩
  refine undisturbed_of_clean twoRules _ ⟨cleanTick_of_ok hRead fun _ => rfl, fun table _ => ?_⟩
  exact ⟨cleanTick_of_ok hRead fun _ => rfl, fun _ _ => trivial⟩

end AdminPanel.Alerts
