import AdminPanel.Access.Policy
import AdminPanel.Guard.Enobufs
import AdminPanel.Lib.Runs

/-!
# Interventions of the Buffer Guard

`run_guard_pass` looks at the journals of a node and kills a session, restarts a server or bans
a client. The clock goes on inside a pass: every call takes time before and after it takes
effect, and the pass waits before it looks whether a kill has helped.

* `runUnit`, `runGuardPass` — a pass, with what every call answers;
* `runUnits_sound` — what a pass may leave behind, whatever raises in it;
* `recordsActs_step` — an automatic pass that intervened can be told from the journal;
* `interventions_spaced_and_recorded` — the runs whose automatic interventions are a cooldown
  apart, and those whose interventions are all recorded.
-/

namespace AdminPanel.Guard.Interventions

open List

open Lib (exec Along along_of_guard along_of_invariant along_of_forall)
open Access (Time)

/-! ## Settings -/

/-- `ALLOWED_UNITS` -/
inductive WatchUnit
  | antizapretUdp
  | antizapretTcp
  | vpnUdp
  | vpnTcp
  deriving DecidableEq

def WatchUnit.name : WatchUnit → List Char
  | .antizapretUdp => "antizapret-udp".toList
  | .antizapretTcp => "antizapret-tcp".toList
  | .vpnUdp => "vpn-udp".toList
  | .vpnTcp => "vpn-tcp".toList

def WatchUnit.allowed : List WatchUnit := [.antizapretUdp, .antizapretTcp, .vpnUdp, .vpnTcp]

def normalizeWatchUnit (unit : List Char) : Option WatchUnit :=
  let u := Lib.PyText.strip unit
  let u := (u.dropPrefix? "openvpn-server@".toList).getD u
  let u := (u.dropSuffix? ".service".toList).getD u
  WatchUnit.allowed.find? fun w => w.name = u

inductive Mode
  | notify
  | kill
  | killRestart
  | killRestartTempBan
  deriving DecidableEq

/-- `OpenVpnBufferGuardMode(value)`; a value that is no mode means `notify`. -/
def Mode.ofValue (value : String) : Mode :=
  if value = "kill" then .kill
  else if value = "kill_restart" then .killRestart
  else if value = "kill_restart_temp_ban" then .killRestartTempBan
  else .notify

/-- The settings row. `watchUnits` is the list in its JSON column, if there is one. -/
structure Settings where
  enabled : Bool := false
  modeValue : String := "notify"
  thresholdCount : Int := 40
  escalateAfterSeconds : Int := 30
  cooldownMinutes : Int := 15
  tempBanMinutes : Int := 60
  watchUnits : Option (List (List Char)) := some ["antizapret-udp".toList, "vpn-udp".toList]
  /-- `_node_for_id` finds the node. -/
  nodeKnown : Bool := true

namespace Settings

variable (cfg : Settings)

def mode : Mode := .ofValue cfg.modeValue

def threshold : Int := max 1 cfg.thresholdCount

def seconds (n : Int) : Int := n * 1000000

def cooldown : Int := seconds (max 0 cfg.cooldownMinutes * 60)

def delay : Int := seconds (max 0 cfg.escalateAfterSeconds)

def parseWatchUnits : List WatchUnit :=
  let units := ((cfg.watchUnits.getD []).filterMap normalizeWatchUnit).foldl
    (fun units unit => if unit ∈ units then units else units ++ [unit]) []
  if units = [] then [.antizapretUdp, .vpnUdp] else units

end Settings

/-! ## Journal of the guard -/

inductive Action
  | kill (unit : WatchUnit) (clientName : List Char) (success : Bool) (result : String)
  | escalationCheck (unit : WatchUnit) (result : String)
  | restart (unit : WatchUnit) (success : Bool) (result : String)
  | tempBan (clientName : List Char) (banExpiresAt : Time)
  deriving DecidableEq

/-- `a.get("success", True)` -/
def Action.success : Action → Bool
  | .kill _ _ success _ => success
  | .escalationCheck _ _ => false
  | .restart _ success _ => success
  | .tempBan _ _ => true

inductive Label
  | failed
  | banned
  | restarted
  | killed
  | notified
  deriving DecidableEq

/-- `event_result_label` -/
def resultLabel (actions : List Action) : Label :=
  let done := actions.filter Action.success
  if done.any (fun a => match a with | .tempBan .. => true | _ => false) then .banned
  else if done.any (fun a => match a with | .restart .. => true | _ => false) then .restarted
  else if done.any (fun a => match a with | .kill .. => true | _ => false) then .killed
  else if actions ≠ [] then .failed
  else .notified

/-- `OpenVpnBufferGuardEvent` of the node -/
structure Event where
  createdAt : Time
  unit : WatchUnit
  commonName : Option (List Char) := none
  realAddress : Option (List Char) := none
  errorCount : Nat
  actions : List Action := []
  result : Label := .failed
  manual : Bool := false
  banExpiresAt : Option Time := none
  deriving DecidableEq

/-- `order_by(created_at.desc()).first()` -/
def lastEvent (events : List Event) : Option Event :=
  @List.argmax Event Int Int.instLinearOrder.toPreorder Int.decLt (·.createdAt) events

def recentAutoEvent (events : List Event) (since : Time) (criteria : Event → Bool) : Bool :=
  match lastEvent (events.filter fun e => !e.manual && criteria e) with
  | none => false
  | some last => since < last.createdAt

/-! ## What the calls of a pass answer -/

/-- What `sample_openvpn_journal` returns. -/
structure Sample where
  ok : Option Bool := none
  text : Option (List Char) := none
  error : Option String := none

namespace Sample

def isOk (s : Sample) : Bool := s.ok.getD true

def summary (s : Sample) : Summary := summarizeEnobufs (s.text.getD [])

end Sample

inductive Sampled
  | answered (sample : Sample)
  | httpError (status : Nat) (text : String)
  | raises (text : String)

def Sampled.isAnswer : Sampled → Bool
  | .answered _ => true
  | _ => false

/-- A sample whose exception is caught. -/
def Sampled.caught : Sampled → Sample
  | .answered sample => sample
  | .httpError _ text => { ok := some false, error := some text }
  | .raises text => { ok := some false, error := some text }

/-- A call that may take effect, `before` after it begins and `after` before it ends, whatever
it answers. -/
structure Call where
  before : Nat := 0
  after : Nat := 0
  effect : Bool := true
  /-- `success` and text of the answer, or the text of what the call raises. -/
  answer : Except String (Bool × String) := .ok (true, "")

inductive BanCall
  /-- Nothing is written. -/
  | raises (took : Nat)
  /-- The client is in the ban file. -/
  | listed (took : Nat)
  /-- The name is written; the call may raise behind it, at `ensure_openvpn_ban_check`. -/
  | written (before after : Nat) (raises : Bool)

/-- Whether the wait ran to its end, and for how long more than it asked for; or when a restore
ended it. -/
inductive Sleep
  | slept (extra : Nat)
  | paused (after : Nat)

/-- The calls that a pass makes for one unit. -/
structure Replies where
  sampled : Sampled := .answered {}
  sampleTime : Nat := 0
  kill : Call := {}
  sleep : Sleep := .slept 0
  second : Sampled := .answered {}
  secondTime : Nat := 0
  restart : Call := {}
  ban : BanCall := .written 0 0 false
  notifyTime : Nat := 0

/-! ## A pass -/

inductive Intervention
  | kill (unit : WatchUnit) (clientName : List Char)
  | restart (unit : WatchUnit)
  | tempBan (clientName : List Char)
  deriving DecidableEq

/-- What was carried out, and when. -/
abbrev Deed := Time × Intervention

/-- The intervention that an action reports. -/
def Action.reports : Action → Option Intervention
  | .kill unit clientName _ _ => some (.kill unit clientName)
  | .escalationCheck _ _ => none
  | .restart unit _ _ => some (.restart unit)
  | .tempBan clientName _ => some (.tempBan clientName)

/-- The actions of a unit so far. -/
structure Stage where
  now : Time
  actions : List Action := []
  deeds : List Deed := []
  banExpiresAt : Option Time := none

/-- A call, and the action that reports it in either case. -/
def Stage.call (st : Stage) (c : Call) (what : Intervention) (action : Bool → String → Action) :
    Stage :=
  { st with
    now := st.now + c.before + c.after
    actions := st.actions ++
      [match c.answer with
        | .ok (success, result) => action success result
        | .error text => action false text]
    deeds := st.deeds ++ if c.effect then [(st.now + c.before, what)] else [] }

section

variable (cfg : Settings) (applyActions : Bool) (unit : WatchUnit)

def killStage (topCn : Option (List Char)) (r : Replies) (st : Stage) : Stage :=
  match topCn with
  | none => st
  | some cn =>
    if cfg.mode ≠ .notify ∧ applyActions then st.call r.kill (.kill unit cn) (.kill unit cn)
    else st

/-- The second look, after the wait. -/
def secondSample (r : Replies) (now : Time) : Time × Sample :=
  if cfg.delay = 0 then (now + r.secondTime, r.second.caught)
  else match r.sleep with
    | .slept extra => (now + cfg.delay + extra + r.secondTime, r.second.caught)
    | .paused after =>
      (now + after,
        { ok := some false, error := some "идёт восстановление бэкапа, эскалация отменена" })

/-- The action that reports a failed second look. -/
def escalationChecks (second : Sample) : List Action :=
  if second.isOk then []
  else [.escalationCheck unit (second.error.getD "journal sample failed")]

def restartStage (r : Replies) (st : Stage) : Stage :=
  if (cfg.mode = .killRestart ∨ cfg.mode = .killRestartTempBan) ∧ applyActions then
    let (now, second) := secondSample cfg r st.now
    let st := { st with now := now, actions := st.actions ++ escalationChecks unit second }
    if (second.summary.total : Int) ≥ max 1 (cfg.threshold / 2) then
      st.call r.restart (.restart unit) (.restart unit)
    else st
  else st

/-- `_apply_temp_ban`: with an error there is no ban to record. -/
def banStage (topCn : Option (List Char)) (r : Replies) (st : Stage) : Stage :=
  match topCn with
  | none => st
  | some cn =>
    if cfg.mode = .killRestartTempBan ∧ applyActions ∧ cfg.nodeKnown then
      let banned (st : Stage) : Stage :=
        let expires := st.now + Settings.seconds (max 1 cfg.tempBanMinutes * 60)
        { st with actions := st.actions ++ [.tempBan cn expires], banExpiresAt := some expires }
      match r.ban with
      | .raises took => { st with now := st.now + took }
      | .listed took => banned { st with now := st.now + took }
      | .written before after raises =>
        let written : Stage :=
          { st with
            now := st.now + before + after
            deeds := st.deeds ++ [(st.now + before, .tempBan cn)] }
        if raises then written else banned written
    else st

def actStages (topCn : Option (List Char)) (r : Replies) (st : Stage) : Stage :=
  banStage cfg applyActions topCn r
    (restartStage cfg applyActions unit r (killStage cfg applyActions unit topCn r st))

end

inductive PassError
  | agentOutdated
  | raised
  deriving DecidableEq

/-- A pass so far. -/
structure Pass where
  now : Time
  committed : List Event := []
  deeds : List Deed := []
  error : Option PassError := none

section

variable (cfg : Settings) (manual : Bool) (stamp : Time) (events : List Event)

/-- `settings_row.enabled and not manual` -/
def applyActions : Bool := cfg.enabled && !manual

/-- The journal of the unit could not be read. -/
def sampleFailed (unit : WatchUnit) (r : Replies) (p : Pass) : Pass :=
  if !manual && recentAutoEvent (events ++ p.committed) (stamp - cfg.cooldown)
      (fun e => e.unit = unit && e.errorCount = 0) then p
  else
    { p with
      now := p.now + r.notifyTime
      committed := p.committed ++
        [{ createdAt := stamp, unit := unit, errorCount := 0, manual := manual }] }

/-- The unit was sampled. -/
def sampleRead (unit : WatchUnit) (sample : Sample) (r : Replies) (p : Pass) : Pass :=
  let summary := sample.summary
  if (summary.total : Int) ≥ cfg.threshold then
    let st := actStages cfg (applyActions cfg manual) unit summary.topCn r { now := p.now }
    { p with
      now := st.now + r.notifyTime
      deeds := p.deeds ++ st.deeds
      committed := p.committed ++
        [{ createdAt := stamp, unit := unit, commonName := summary.topCn,
           realAddress := summary.topRealAddress, errorCount := summary.total,
           actions := st.actions, result := resultLabel st.actions, manual := manual,
           banExpiresAt := st.banExpiresAt }] }
  else p

/-- One unit of the loop. -/
def runUnit (unit : WatchUnit) (r : Replies) (p : Pass) : Pass :=
  let p := { p with now := p.now + r.sampleTime }
  match r.sampled with
  | .httpError status _ =>
    { p with error := some (if status = 404 ∨ status = 405 then .agentOutdated else .raised) }
  | .raises _ => { p with error := some .raised }
  | .answered sample =>
    if sample.isOk then sampleRead cfg manual stamp unit sample r p
    else sampleFailed cfg manual stamp events unit r p

/-- What raises ends the loop. -/
def runUnits (replies : WatchUnit → Replies) : List WatchUnit → Pass → Pass
  | [], p => p
  | unit :: units, p =>
    let p := runUnit cfg manual stamp events unit (replies unit) p
    if p.error.isSome then p else runUnits replies units p

end

section

variable (cfg : Settings) (s : GuardRun)

/-- The cooldown of an automatic pass is not over. -/
def coolingDown (events : List Event) (now : Time) : Bool :=
  recentAutoEvent events (now - cfg.cooldown) fun e => 0 < e.errorCount

def runGuardPass (manual : Bool) (replies : WatchUnit → Replies) (now : Time)
    (events : List Event) : Pass :=
  if !manual && coolingDown cfg events now then { now := now }
  else runUnits cfg manual now events replies cfg.parseWatchUnits { now := now }

/-! ## Runs -/

/-- An automatic pass that intervened. -/
structure ActingPass where
  stamp : Time
  deeds : List Deed

/-- A node under the guard. `acted` is the last automatic pass that intervened. -/
structure GuardRun where
  now : Time
  events : List Event := []
  acted : Option ActingPass := none

inductive Turn
  | wait (time : Nat)
  | pass (manual : Bool) (replies : WatchUnit → Replies)

/-- The pass of a turn. -/
def passAt (manual : Bool) (replies : WatchUnit → Replies) : Pass :=
  runGuardPass cfg manual replies s.now s.events

def guardTurn : Turn → Option GuardRun
  | .wait time => some { s with now := s.now + time }
  | .pass manual replies =>
    let p := passAt cfg s manual replies
    some
      { now := p.now
        events := s.events ++ p.committed
        acted := if !manual && p.deeds ≠ [] then some ⟨s.now, p.deeds⟩ else s.acted }

/-- An automatic pass intervenes a cooldown after the last intervention of the one before. -/
def Spaced : Turn → Prop
  | .wait _ => True
  | .pass manual replies => manual = false → ∀ q, s.acted = some q →
      ∀ before ∈ q.deeds, ∀ after ∈ (passAt cfg s manual replies).deeds,
        before.1 + cfg.cooldown ≤ after.1

/-- What the pass carried out is in the actions of an event that it committed. -/
def Recorded : Turn → Prop
  | .wait _ => True
  | .pass manual replies => ∀ deed ∈ (passAt cfg s manual replies).deeds,
      ∃ e ∈ (passAt cfg s manual replies).committed, ∃ action ∈ e.actions,
        action.reports = some deed.2

/-- A manual pass intervenes nowhere, and no automatic pass is put off by its events. -/
def Harmless : Turn → Prop
  | .wait _ => True
  | .pass manual replies => manual = true →
      (passAt cfg s manual replies).deeds = [] ∧
      ∀ now, coolingDown cfg (s.events ++ (passAt cfg s manual replies).committed) now =
        coolingDown cfg s.events now

/-- The stamp of the last acting pass and its last intervention agree about the cooldown: an
automatic pass starts before both cooldowns are over or after both. -/
def StampTells : Turn → Prop
  | .wait _ => True
  | .pass manual _ => manual = false → ∀ q, s.acted = some q →
      s.now < q.stamp + cfg.cooldown ∨ ∀ deed ∈ q.deeds, deed.1 + cfg.cooldown ≤ s.now

/-- The sample blames a client for an exceeded threshold. -/
def Blames : Sampled → Prop
  | .answered sample =>
    sample.isOk ∧ cfg.threshold ≤ (sample.summary.total : Int) ∧ sample.summary.topCn ≠ none
  | _ => False

/-- The ban of the unit raises with its name in the file. -/
def BanLost (r : Replies) : Prop :=
  cfg.mode = .killRestartTempBan ∧ cfg.nodeKnown ∧ Blames cfg r.sampled ∧
    ∃ before after, r.ban = .written before after true

/-- No ban that the pass comes to is lost. -/
def BansEnd : Turn → Prop
  | .wait _ => True
  | .pass manual replies => applyActions cfg manual → coolingDown cfg s.events s.now = false →
      ∀ unit ∈ cfg.parseWatchUnits.takeWhile fun unit => (replies unit).sampled.isAnswer,
        ¬ BanLost cfg (replies unit)

end

/-! ## Stages -/

/-- Nothing was carried out before `start`. -/
def Stage.Since (start : Time) (st : Stage) : Prop :=
  start ≤ st.now ∧ ∀ deed ∈ st.deeds, start ≤ deed.1

/-- An action reports each deed. -/
def Stage.Told (st : Stage) : Prop :=
  ∀ deed ∈ st.deeds, ∃ action ∈ st.actions, action.reports = some deed.2

variable {start now : Time}

theorem le_add_nat (h : start ≤ now) (time : Nat) : start ≤ now + time :=
  Int.le_trans h (Int.le_add_of_nonneg_right (Int.natCast_nonneg time))

variable {st : Stage}

theorem Stage.Since.wait (h : st.Since start)
    (hNow : st.now ≤ now) : Stage.Since start { st with now := now } :=
  ⟨Int.le_trans h.1 hNow, h.2⟩

theorem Stage.Since.call (h : st.Since start) (c : Call)
    (what : Intervention) (action : Bool → String → Action) :
    (st.call c what action).Since start := by
  refine ⟨le_add_nat (le_add_nat h.1 c.before) c.after, ?_⟩
  intro deed hDeed
  rcases mem_append.mp hDeed with hOld | hNew
  · exact h.2 deed hOld
  · split at hNew
    · obtain rfl := mem_singleton.mp hNew
      exact le_add_nat h.1 c.before
    · cases hNew

theorem Stage.Told.mono {st' : Stage} (h : st.Told) (hDeeds : st'.deeds = st.deeds)
    (hActions : ∀ action ∈ st.actions, action ∈ st'.actions) : st'.Told := by
  intro deed hDeed
  obtain ⟨action, hAction, hReports⟩ := h deed (hDeeds ▸ hDeed)
  exact ⟨action, hActions action hAction, hReports⟩

theorem Stage.Told.add {st' : Stage} (h : st.Told) (deeds : List Deed) {action : Action}
    (hDeeds : st'.deeds = st.deeds ++ deeds) (hActions : st'.actions = st.actions ++ [action])
    (hReports : ∀ deed ∈ deeds, action.reports = some deed.2) : st'.Told := by
  intro deed hDeed
  rw [hDeeds] at hDeed
  rw [hActions]
  rcases mem_append.mp hDeed with hOld | hNew
  · obtain ⟨a, ha, hTells⟩ := h deed hOld
    exact ⟨a, mem_append_left _ ha, hTells⟩
  · exact ⟨action, mem_append_right _ (mem_singleton.mpr rfl), hReports deed hNew⟩

theorem Stage.Told.call (h : st.Told) (c : Call) {what : Intervention}
    {action : Bool → String → Action}
    (hReports : ∀ success result, (action success result).reports = some what) :
    (st.call c what action).Told := by
  refine h.add (if c.effect then [(st.now + c.before, what)] else []) rfl rfl ?_
  intro deed hDeed
  split at hDeed
  · obtain rfl := mem_singleton.mp hDeed
    split
    · exact hReports _ _
    · exact hReports _ _
  · cases hDeed

section

variable {cfg : Settings} {apply : Bool} {unit : WatchUnit} {topCn : Option (List Char)}
  {r : Replies} {st : Stage} {start : Time}

theorem since_killStage (h : st.Since start) :
    (killStage cfg apply unit topCn r st).Since start := by
  unfold killStage
  split
  · exact h
  · split
    · exact h.call _ _ _
    · exact h

theorem told_killStage (h : st.Told) : (killStage cfg apply unit topCn r st).Told := by
  unfold killStage
  split
  · exact h
  · split
    · exact h.call _ fun _ _ => rfl
    · exact h

theorem le_secondSample (now : Time) : now ≤ (secondSample cfg r now).1 := by
  have hDelay : 0 ≤ cfg.delay := Int.mul_nonneg (Int.le_max_left _ _) (by decide)
  unfold secondSample
  split
  · exact le_add_nat (Int.le_refl now) _
  · split
    · exact le_add_nat (le_add_nat (Int.le_add_of_nonneg_right hDelay) _) _
    · exact le_add_nat (Int.le_refl now) _

theorem since_restartStage (h : st.Since start) :
    (restartStage cfg apply unit r st).Since start := by
  have hLook : Stage.Since start
      { st with
        now := (secondSample cfg r st.now).1
        actions := st.actions ++ escalationChecks unit (secondSample cfg r st.now).2 } :=
    ⟨Int.le_trans h.1 (le_secondSample st.now), h.2⟩
  unfold restartStage
  split
  · dsimp only
    split
    · exact hLook.call _ _ _
    · exact hLook
  · exact h

theorem told_restartStage (h : st.Told) : (restartStage cfg apply unit r st).Told := by
  have hLook : Stage.Told
      { st with
        now := (secondSample cfg r st.now).1
        actions := st.actions ++ escalationChecks unit (secondSample cfg r st.now).2 } :=
    h.mono rfl fun action hAction => mem_append_left _ hAction
  unfold restartStage
  split
  · dsimp only
    split
    · exact hLook.call _ fun _ _ => rfl
    · exact hLook
  · exact h

theorem since_banStage (h : st.Since start) : (banStage cfg apply topCn r st).Since start := by
  unfold banStage
  split
  · exact h
  · next cn =>
    split
    · split
      · exact h.wait (le_add_nat (Int.le_refl _) _)
      · exact h.wait (le_add_nat (Int.le_refl _) _)
      · next before after _ _ =>
        have hWritten : ∀ deed ∈ st.deeds ++ [(st.now + before, Intervention.tempBan cn)],
            start ≤ deed.1 := by
          intro deed hDeed
          rcases mem_append.mp hDeed with hOld | hNew
          · exact h.2 deed hOld
          · obtain rfl := mem_singleton.mp hNew
            exact le_add_nat h.1 before
        split
        · exact ⟨le_add_nat (le_add_nat h.1 before) after, hWritten⟩
        · exact ⟨le_add_nat (le_add_nat h.1 before) after, hWritten⟩
    · exact h

theorem told_banStage (h : st.Told)
    (hEnd : cfg.mode = .killRestartTempBan → cfg.nodeKnown → topCn ≠ none →
      ∀ before after, r.ban ≠ .written before after true) :
    (banStage cfg apply topCn r st).Told := by
  unfold banStage
  split
  · exact h
  · next cn =>
    split
    · next hMode =>
      split
      · exact h.mono rfl fun action hAction => hAction
      · exact h.mono rfl fun action hAction => mem_append_left _ hAction
      · next before after raises hBan =>
        split
        · next hRaises =>
          exact absurd (hRaises ▸ hBan) (hEnd hMode.1 hMode.2.2 (by simp) before after)
        · refine h.add [(st.now + before, .tempBan cn)] rfl rfl ?_
          intro deed hDeed
          rw [mem_singleton.mp hDeed]
          rfl
    · exact h

theorem since_actStages (h : st.Since start) : (actStages cfg apply unit topCn r st).Since start :=
  since_banStage (since_restartStage (since_killStage h))

/-- What the stages have done is among their actions. -/
theorem told_actStages (h : st.Told)
    (hEnd : cfg.mode = .killRestartTempBan → cfg.nodeKnown → topCn ≠ none →
      ∀ before after, r.ban ≠ .written before after true) :
    (actStages cfg apply unit topCn r st).Told :=
  told_banStage (told_restartStage (told_killStage h)) hEnd

theorem actStages_of_not_apply : actStages cfg false unit topCn r st = st := by
  cases topCn <;> simp [actStages, killStage, restartStage, banStage]

end

/-! ## Passes -/

/-- What a pass has left behind, up to any of its units. -/
structure Pass.Sound (manual : Bool) (stamp : Time) (p : Pass) : Prop where
  now : stamp ≤ p.now
  since : ∀ deed ∈ p.deeds, stamp ≤ deed.1
  events : ∀ e ∈ p.committed, e.manual = manual ∧ e.createdAt = stamp
  marked : p.deeds ≠ [] → ∃ e ∈ p.committed, 0 < e.errorCount
  idle : manual = true → p.deeds = []

/-- The deeds of a pass are in its events. -/
def Pass.Told (p : Pass) : Prop :=
  ∀ deed ∈ p.deeds, ∃ e ∈ p.committed, ∃ action ∈ e.actions, action.reports = some deed.2

section

variable {cfg : Settings} {manual : Bool} {stamp : Time} {events : List Event}
  {unit : WatchUnit} {r : Replies} {p : Pass}

theorem Pass.Sound.wait (h : p.Sound manual stamp) (hNow : p.now ≤ now) :
    Pass.Sound manual stamp { p with now := now } where
  now := Int.le_trans h.now hNow
  since := h.since
  events := h.events
  marked := h.marked
  idle := h.idle

/-- A unit adds one event, and deeds only under an error count. -/
theorem Pass.Sound.add {q : Pass} (h : p.Sound manual stamp) {deeds : List Deed} {e : Event}
    (hNow : p.now ≤ q.now) (hDeeds : q.deeds = p.deeds ++ deeds)
    (hCommitted : q.committed = p.committed ++ [e])
    (hSince : ∀ deed ∈ deeds, p.now ≤ deed.1) (hManual : e.manual = manual)
    (hStamp : e.createdAt = stamp) (hMarked : deeds ≠ [] → 0 < e.errorCount)
    (hIdle : manual = true → deeds = []) : q.Sound manual stamp where
  now := Int.le_trans h.now hNow
  since deed hDeed := by
    rw [hDeeds] at hDeed
    rcases mem_append.mp hDeed with hOld | hNew
    · exact h.since deed hOld
    · exact Int.le_trans h.now (hSince deed hNew)
  events f hf := by
    rw [hCommitted] at hf
    rcases mem_append.mp hf with hOld | hNew
    · exact h.events f hOld
    · rw [mem_singleton.mp hNew]
      exact ⟨hManual, hStamp⟩
  marked hSome := by
    rw [hDeeds] at hSome
    rw [hCommitted]
    by_cases hNew : deeds = []
    · rw [hNew, append_nil] at hSome
      obtain ⟨f, hf, hCount⟩ := h.marked hSome
      exact ⟨f, mem_append_left _ hf, hCount⟩
    · exact ⟨e, mem_append_right _ (mem_singleton.mpr rfl), hMarked hNew⟩
  idle hManual' := by rw [hDeeds, h.idle hManual', hIdle hManual', append_nil]

theorem sound_sampleFailed (h : p.Sound manual stamp) :
    (sampleFailed cfg manual stamp events unit r p).Sound manual stamp := by
  have hAdd (e : Event) (hManual : e.manual = manual) (hStamp : e.createdAt = stamp) :
      Pass.Sound manual stamp
        { p with now := p.now + r.notifyTime, committed := p.committed ++ [e] } := by
    refine h.add (le_add_nat (Int.le_refl _) _) (append_nil _).symm rfl ?_ hManual hStamp ?_ ?_
    · exact fun deed hDeed => absurd hDeed not_mem_nil
    · exact fun hNe => absurd rfl hNe
    · exact fun _ => rfl
  unfold sampleFailed
  split
  · exact h
  · exact hAdd _ rfl rfl

theorem threshold_pos (cfg : Settings) : 0 < cfg.threshold :=
  Int.lt_of_lt_of_le (by decide) (Int.le_max_left 1 _)

theorem sound_sampleRead (h : p.Sound manual stamp) {sample : Sample} :
    (sampleRead cfg manual stamp unit sample r p).Sound manual stamp := by
  unfold sampleRead
  dsimp only
  split
  · next hTotal =>
    have hSince : Stage.Since p.now (actStages cfg (applyActions cfg manual) unit
        sample.summary.topCn r { now := p.now }) :=
      since_actStages ⟨Int.le_refl _, by simp⟩
    refine h.add (le_add_nat hSince.1 _) rfl rfl hSince.2 rfl rfl ?_ ?_
    · intro _
      exact Int.natCast_pos.mp (Int.lt_of_lt_of_le (threshold_pos cfg) hTotal)
    · rintro rfl
      have hApply : applyActions cfg true = false := Bool.and_false _
      rw [hApply, actStages_of_not_apply]
  · exact h

/-- One unit of a pass. -/
theorem sound_runUnit (h : p.Sound manual stamp) :
    (runUnit cfg manual stamp events unit r p).Sound manual stamp := by
  have hSampled := h.wait (le_add_nat (Int.le_refl p.now) r.sampleTime)
  unfold runUnit
  dsimp only
  split
  · exact ⟨hSampled.now, h.since, h.events, h.marked, h.idle⟩
  · exact ⟨hSampled.now, h.since, h.events, h.marked, h.idle⟩
  · split
    · exact sound_sampleRead hSampled
    · exact sound_sampleFailed hSampled

end

variable {cfg : Settings} {events : List Event} {p : Pass}

/-- Whatever raises, what is left behind is sound. -/
theorem runUnits_sound {manual : Bool} {stamp : Time}
    {replies : WatchUnit → Replies} (units : List WatchUnit) (h : p.Sound manual stamp) :
    (runUnits cfg manual stamp events replies units p).Sound manual stamp := by
  induction units generalizing p with
  | nil => exact h
  | cons unit units ih =>
    unfold runUnits
    dsimp only
    split
    · exact sound_runUnit h
    · exact ih (sound_runUnit h)

theorem Pass.Told.add {q : Pass} (h : p.Told) {deeds : List Deed}
    (hDeeds : q.deeds = p.deeds ++ deeds) (hCommitted : q.committed = p.committed ++ events)
    (hTold : ∀ deed ∈ deeds, ∃ e ∈ events, ∃ action ∈ e.actions, action.reports = some deed.2) :
    q.Told := by
  intro deed hDeed
  rw [hDeeds] at hDeed
  rw [hCommitted]
  rcases mem_append.mp hDeed with hOld | hNew
  · obtain ⟨e, he, hReports⟩ := h deed hOld
    exact ⟨e, mem_append_left _ he, hReports⟩
  · obtain ⟨e, he, hReports⟩ := hTold deed hNew
    exact ⟨e, mem_append_right _ he, hReports⟩

section

variable {cfg : Settings} {manual : Bool} {stamp : Time} {events : List Event}
  {unit : WatchUnit} {r : Replies} {p : Pass}

theorem told_sampleFailed (h : p.Told) : (sampleFailed cfg manual stamp events unit r p).Told := by
  unfold sampleFailed
  split
  · exact h
  · exact h.add (append_nil _).symm rfl fun deed hDeed => absurd hDeed not_mem_nil

/-- What has been recorded, after the sample of a unit. -/
theorem told_sampleRead (h : p.Told) {sample : Sample} (hOk : sample.isOk)
    (hSampled : r.sampled = .answered sample) (hEnd : applyActions cfg manual → ¬ BanLost cfg r) :
    (sampleRead cfg manual stamp unit sample r p).Told := by
  unfold sampleRead
  dsimp only
  split
  · next hTotal =>
    have hTold : Stage.Told (actStages cfg (applyActions cfg manual) unit
        sample.summary.topCn r { now := p.now }) := by
      cases hApply : applyActions cfg manual with
      | false =>
        rw [actStages_of_not_apply]
        exact fun deed hDeed => absurd hDeed not_mem_nil
      | true =>
        refine told_actStages (fun deed hDeed => absurd hDeed not_mem_nil) ?_
        intro hMode hNode hTop before after hBan
        exact hEnd hApply ⟨hMode, hNode, hSampled ▸ ⟨hOk, hTotal, hTop⟩, before, after, hBan⟩
    exact h.add rfl rfl fun deed hDeed => ⟨_, mem_singleton.mpr rfl, hTold deed hDeed⟩
  · exact h

/-- One unit: what was done is recorded. -/
theorem told_runUnit (h : p.Told)
    (hEnd : applyActions cfg manual → r.sampled.isAnswer → ¬ BanLost cfg r) :
    (runUnit cfg manual stamp events unit r p).Told := by
  have hSampled : Pass.Told { p with now := p.now + r.sampleTime } := h
  unfold runUnit
  dsimp only
  split
  · exact h
  · exact h
  · next sample hAnswer =>
    split
    · next hOk =>
      exact told_sampleRead hSampled hOk hAnswer fun hApply => hEnd hApply (by rw [hAnswer]; rfl)
    · exact told_sampleFailed hSampled

theorem isAnswer_of_goesOn
    (hGoesOn : (runUnit cfg manual stamp events unit r p).error.isSome = false) :
    r.sampled.isAnswer = true := by
  unfold runUnit at hGoesOn
  dsimp only at hGoesOn
  split at hGoesOn
  · cases hGoesOn
  · cases hGoesOn
  · next hAnswer => rw [hAnswer]; rfl

end

/-- A pass is recorded whose bans do not raise with the name in the file. -/
theorem runUnits_told {manual : Bool} {stamp : Time}
    {replies : WatchUnit → Replies} (units : List WatchUnit) (h : p.Told)
    (hEnd : applyActions cfg manual →
      ∀ unit ∈ units.takeWhile fun unit => (replies unit).sampled.isAnswer,
        ¬ BanLost cfg (replies unit)) :
    (runUnits cfg manual stamp events replies units p).Told := by
  induction units generalizing p with
  | nil => exact h
  | cons unit units ih =>
    have hCons : (replies unit).sampled.isAnswer = true →
        (unit :: units).takeWhile (fun unit => (replies unit).sampled.isAnswer) =
          unit :: units.takeWhile fun unit => (replies unit).sampled.isAnswer := by
      intro hAnswer
      rw [takeWhile_cons, if_pos hAnswer]
    have hFirst : (runUnit cfg manual stamp events unit (replies unit) p).Told := by
      refine told_runUnit h fun hApply hAnswer => hEnd hApply unit ?_
      rw [hCons hAnswer]
      exact mem_cons_self
    unfold runUnits
    dsimp only
    split
    · exact hFirst
    · next hGoesOn =>
      refine ih hFirst fun hApply other hOther => hEnd hApply other ?_
      rw [hCons (isAnswer_of_goesOn (Bool.eq_false_iff.mpr hGoesOn))]
      exact mem_cons_of_mem unit hOther

/-! ## The gate -/

theorem lastEvent_eq_none : lastEvent events = none ↔ events = [] :=
  argmax_eq_none

theorem mem_of_lastEvent {last : Event} (h : lastEvent events = some last) : last ∈ events :=
  argmax_mem h

theorem le_of_lastEvent {e last : Event} (hMem : e ∈ events)
    (h : lastEvent events = some last) : e.createdAt ≤ last.createdAt :=
  @le_of_mem_argmax Event Int Int.instLinearOrder (·.createdAt) events e last hMem h

/-- The query for an earlier intervention. -/
theorem recentAutoEvent_iff {since : Time} {criteria : Event → Bool} :
    recentAutoEvent events since criteria = true ↔
      ∃ e ∈ events, e.manual = false ∧ criteria e = true ∧ since < e.createdAt := by
  have hMem : ∀ e, (e ∈ events.filter fun e => !e.manual && criteria e) ↔
      e ∈ events ∧ e.manual = false ∧ criteria e = true := fun e => by
    rw [mem_filter, Bool.and_eq_true, Bool.not_eq_true']
  unfold recentAutoEvent
  split
  · next hNone =>
    have hNone := lastEvent_eq_none.mp hNone
    refine ⟨fun h => absurd h Bool.false_ne_true, ?_⟩
    rintro ⟨e, he, hManual, hCriteria, -⟩
    exact absurd ((hMem e).mpr ⟨he, hManual, hCriteria⟩) (hNone ▸ not_mem_nil)
  · next last hLast =>
    rw [decide_eq_true_eq]
    constructor
    · intro hSince
      obtain ⟨he, hManual, hCriteria⟩ := (hMem last).mp (mem_of_lastEvent hLast)
      exact ⟨last, he, hManual, hCriteria, hSince⟩
    · rintro ⟨e, he, hManual, hCriteria, hSince⟩
      have hLe := le_of_lastEvent ((hMem e).mpr ⟨he, hManual, hCriteria⟩) hLast
      exact Int.lt_of_lt_of_le hSince hLe

/-- Manual events are not looked at. -/
theorem coolingDown_append_manual {more : List Event} (hManual : ∀ e ∈ more, e.manual = true) :
    coolingDown cfg (events ++ more) now = coolingDown cfg events now := by
  rw [Bool.eq_iff_iff, coolingDown, coolingDown, recentAutoEvent_iff, recentAutoEvent_iff]
  constructor
  · rintro ⟨e, he, hAuto, hRest⟩
    rcases mem_append.mp he with hOld | hNew
    · exact ⟨e, hOld, hAuto, hRest⟩
    · exact absurd (hManual e hNew) (by rw [hAuto]; exact Bool.false_ne_true)
  · rintro ⟨e, he, hRest⟩
    exact ⟨e, mem_append_left _ he, hRest⟩

section

variable {cfg : Settings} {s : GuardRun} {manual : Bool} {replies : WatchUnit → Replies}

theorem sound_passAt : (passAt cfg s manual replies).Sound manual s.now := by
  have hStart : Pass.Sound manual s.now { now := s.now } :=
    { now := Int.le_refl _
      since := fun deed hDeed => absurd hDeed not_mem_nil
      events := fun e he => absurd he not_mem_nil
      marked := fun hNe => absurd rfl hNe
      idle := fun _ => rfl }
  unfold passAt runGuardPass
  split
  · exact hStart
  · exact runUnits_sound _ hStart

/-- In the cooldown a pass does nothing. -/
theorem deeds_of_coolingDown (hManual : manual = false)
    (hCooling : coolingDown cfg s.events s.now = true) :
    (passAt cfg s manual replies).deeds = [] := by
  unfold passAt runGuardPass
  rw [if_pos (by rw [hManual, hCooling]; rfl)]

end

/-! ## Runs -/

/-- The journal has an automatic event of the last acting pass. -/
def RecordsActs (s : GuardRun) : Prop :=
  ∀ q, s.acted = some q → ∃ e ∈ s.events, e.manual = false ∧ 0 < e.errorCount ∧
    e.createdAt = q.stamp

variable {s : GuardRun} {turn : Turn}

/-- The events that a turn leaves record its acts. -/
theorem recordsActs_step {s' : GuardRun} (h : RecordsActs s)
    (hStep : guardTurn cfg s turn = some s') : RecordsActs s' := by
  cases turn with
  | wait time =>
    cases hStep
    exact h
  | pass manual replies =>
    cases hStep
    have hSound : (passAt cfg s manual replies).Sound manual s.now := sound_passAt
    intro q hq
    dsimp only at hq ⊢
    split at hq
    · next hActs =>
      rw [Bool.and_eq_true, Bool.not_eq_true', decide_eq_true_eq] at hActs
      obtain ⟨e, he, hCount⟩ := hSound.marked hActs.2
      obtain ⟨hManual, hStamp⟩ := hSound.events e he
      cases hq
      exact ⟨e, mem_append_right _ he, hManual.trans hActs.1, hCount, hStamp⟩
    · obtain ⟨e, he, hRest⟩ := h q hq
      exact ⟨e, mem_append_left _ he, hRest⟩

/-- The first half: interventions are spaced. -/
theorem spaced_of_stampTells (h : RecordsActs s)
    (hTells : StampTells cfg s turn) : Spaced cfg s turn := by
  cases turn with
  | wait time => trivial
  | pass manual replies =>
    intro hManual q hq before hBefore after hAfter
    rcases hTells hManual q hq with hEarly | hLate
    · -- the event of the last acting pass keeps the gate shut
      obtain ⟨e, he, hAuto, hCount, hStamp⟩ := h q hq
      have hCooling : coolingDown cfg s.events s.now = true := by
        refine recentAutoEvent_iff.mpr ⟨e, he, hAuto, decide_eq_true hCount, ?_⟩
        rw [hStamp]
        exact Int.sub_lt_iff.mpr (Int.add_comm q.stamp _ ▸ hEarly)
      rw [deeds_of_coolingDown hManual hCooling] at hAfter
      cases hAfter
    · exact Int.le_trans (hLate before hBefore) (sound_passAt.since after hAfter)

/-- The second half: interventions are recorded. -/
theorem recorded_of_bansEnd (hEnd : BansEnd cfg s turn) : Recorded cfg s turn := by
  cases turn with
  | wait time => trivial
  | pass manual replies =>
    show (passAt cfg s manual replies).Told
    have hStart : Pass.Told { now := s.now } := fun deed hDeed => absurd hDeed not_mem_nil
    unfold passAt runGuardPass
    split
    · exact hStart
    · next hOpen =>
      refine runUnits_told _ hStart fun hApply => hEnd hApply ?_
      rw [applyActions, Bool.and_eq_true, Bool.not_eq_true'] at hApply
      rw [hApply.2] at hOpen
      exact Bool.eq_false_iff.mpr hOpen

/-- The third: a manual pass does nothing and puts nothing off. -/
theorem harmless_turn (cfg : Settings) (s : GuardRun) (turn : Turn) : Harmless cfg s turn := by
  cases turn with
  | wait time => trivial
  | pass manual replies =>
    intro hManual
    have hSound : (passAt cfg s manual replies).Sound manual s.now := sound_passAt
    exact ⟨hSound.idle hManual, fun now =>
      coolingDown_append_manual fun e he => (hSound.events e he).1.trans hManual⟩

/-- **A cooldown apart, and recorded.** Automatic interventions are a cooldown apart in every run
in which the stamp of an acting pass and its last intervention agree about the cooldown; every
intervention is in a committed event in every run whose bans do not raise with the name in the
file; and manual passes are harmless in every run. -/
theorem interventions_spaced_and_recorded (cfg : Settings) (s : GuardRun) (h : s.acted = none)
    (turns : List Turn) :
    (Along (guardTurn cfg) (StampTells cfg) s turns → Along (guardTurn cfg) (Spaced cfg) s turns) ∧
    (Along (guardTurn cfg) (BansEnd cfg) s turns → Along (guardTurn cfg) (Recorded cfg) s turns) ∧
    Along (guardTurn cfg) (Harmless cfg) s turns := by
  have hRecords : RecordsActs s := fun q hq => by
    rw [h] at hq
    cases hq
  refine ⟨?_, ?_, ?_⟩
  · exact along_of_guard (fun s turn s' hInv _ => recordsActs_step hInv)
      (fun s turn => spaced_of_stampTells) hRecords
  · exact fun hEnd => hEnd.mono fun s turn => recorded_of_bansEnd
  · exact along_of_forall (fun turn _ s => harmless_turn cfg s turn) s

def floodSample : Sampled :=
  .answered { text := some (Lib.PyText.unlines
    (List.replicate 2 "bob/udp4:10.0.0.2:5 write: No buffer space available".toList)) }

def quickSettings (modeValue : String) : Settings where
  enabled := true
  modeValue := modeValue
  thresholdCount := 2
  watchUnits := some ["vpn-udp".toList]

/-- A pass that kills, waits for 30 seconds, restarts and bans. -/
def floodedPass (ban : BanCall) : Turn :=
  .pass false fun _ => { sampled := floodSample, second := floodSample, ban := ban }

/-- A second pass 15 minutes after the end of the first. -/
theorem two_passes_spaced :
    Along (guardTurn (quickSettings "kill_restart")) (Spaced (quickSettings "kill_restart"))
      { now := 0 } [floodedPass (.listed 0), .wait 900000000, floodedPass (.listed 0)] := by
  refine (interventions_spaced_and_recorded _ { now := 0 } rfl _).1 ⟨?_, ?_⟩
  · rintro - q hNone
    cases hNone
  · rintro s' hFirst
    cases hFirst
    refine ⟨trivial, fun s'' hWait => ⟨?_, fun _ _ => trivial⟩⟩
    cases hWait
    rintro - q hq
    cases hq
    exact Or.inr (by decide)

/-- A restart 30 seconds into a pass and a kill 15 minutes after its start; and a ban that raises
with the name in the file. -/
theorem kill_too_early_and_ban_unrecorded :
    (∃ t, exec (guardTurn (quickSettings "kill_restart")) { now := 0 }
        [floodedPass (.listed 0), .wait 870000000] = some t ∧
      ¬ Spaced (quickSettings "kill_restart") t (floodedPass (.listed 0))) ∧
    ¬ Recorded (quickSettings "kill_restart_temp_ban") { now := 0 }
      (floodedPass (.written 0 0 true)) := by
  refine ⟨⟨_, rfl, ?_⟩, ?_⟩
  · intro hSpaced
    have hTooLong : (30000000 : Time) + (quickSettings "kill_restart").cooldown ≤ 900000000 :=
      hSpaced rfl _ rfl (30000000, .restart .vpnUdp) (by decide)
        (900000000, .kill .vpnUdp "bob".toList) (by decide)
    exact absurd hTooLong (by decide)
  · intro hRecorded
    have hBan := hRecorded (30000000, .tempBan "bob".toList) (by decide)
    revert hBan
    decide

end AdminPanel.Guard.Interventions
