import AdminPanel.Failover.NatTable
import AdminPanel.Failover.Pool
import AdminPanel.Lib.Runs

/-!
# The front of a pool over whole runs

What the panel does to the front of a pool of AmneziaWG 2, with the agents of the fronts. A switch
is decided by the address in the table of the front alone, while rules are deleted by their whole
text, with the ports that the pool has now.

* `FrontWorld`, `FrontAction`, `perform` — the pool and the tables, and one request;
* `Forwards`, `Cleared` — what the front is to do, with and without a front;
* `Kept` — the ports of rules that are there are not changed;
* `Sound` — what holds after every request that keeps them.

Main result: `promise_iff_kept` — a request without errors leaves the rules that the pool says,
exactly when it keeps the ports.
-/

namespace AdminPanel.Failover

open Lib (Along)
open Lib.PyText (strip strip_of_not_space)

/-! ## State and surroundings -/

/-- An address as `str(IPv4Address)` gives it. -/
structure Address where
  text : Text
  valid : IsAddress text
  deriving DecidableEq

structure FrontPool where
  members : List Member
  frontNodeId : Option Nat
  frontPort : Option Int
  backendPort : Option Int
  activeMemberId : Option Nat

/-- The body of `set_front`. -/
structure FrontUpdate where
  nodeId : Nat
  port : Int
  backendPort : Option Int
  port_valid : 1 ≤ port ∧ port ≤ 65535
  backend_valid : ∀ backend ∈ backendPort, 1 ≤ backend ∧ backend ≤ 65535

/-- What a request finds around it: the kinds of the nodes, their health, and the addresses that
`_resolve_destination_ip` gives. -/
structure Surroundings where
  isProxy : Nat → Bool
  healthy : Nat → Bool
  resolve : Nat → Option Address

inductive FrontAction
  | setFront (update : FrontUpdate)
  | forceSwitch (memberId : Nat)
  | evaluate
  | unsetFront

variable (label : Label)

/-- The pool, and the nat table of every node. -/
structure FrontWorld where
  pool : FrontPool
  tables : Nat → NatTable label

variable {label}

section

variable (around : Surroundings) (w : FrontWorld label)

def FrontWorld.setTable (node : Nat) (table : NatTable label) : FrontWorld label :=
  { w with tables := Function.update w.tables node table }

def FrontWorld.setActive (memberId : Nat) : FrontWorld label :=
  { w with pool := { w.pool with activeMemberId := some memberId } }

/-! ## Functions of the panel -/

/-- `a or b` for ports. -/
def orPort (a b : Option Int) : Option Int := if a = none ∨ a = some 0 then b else a

def backendPort (pool : FrontPool) : Option Int := orPort pool.backendPort pool.frontPort

def requireFront (pool : FrontPool) : Option (Nat × Int) :=
  match pool.frontNodeId, pool.frontPort with
  | some front, some port => some (front, if port = 0 then 51821 else port)
  | _, _ => none

/-- The keyword argument `backend_port` of both requests to the agent. -/
def backendArgument (realPort : Option Int) (port : Int) : Option Int :=
  if realPort = some port then none else realPort

/-- `_apply_switch_to_target`, and whether it returns no errors. -/
def applySwitchToTarget (target : Member) : FrontWorld label × Bool :=
  match requireFront w.pool with
  | none => (w, false)
  | some (front, port) =>
    let realPort := orPort (backendPort w.pool) (some port)
    match around.resolve target.nodeId with
    | none => (w, false)
    | some ip =>
      match failoverStatus port (w.tables front) with
      | .error _ => (w, false)
      | .ok current =>
        if current = some ip.text then (w.setActive target.id, true)
        else
          match failoverSetDestination port ip.text (backendArgument realPort port)
              (w.tables front) with
          | (true, table) => ((w.setTable front table).setActive target.id, true)
          | (false, table) => (w.setTable front table, false)

def evaluateAndSwitch : FrontWorld label × Bool :=
  match (eligibleCandidates w.pool.members).filter fun m => around.healthy m.nodeId with
  | [] => (w, false)
  | target :: _ => applySwitchToTarget around w target

def forceSwitchMember (member : Member) : FrontWorld label × Bool :=
  if member.id ∈ (eligibleCandidates w.pool.members).map Member.id then
    applySwitchToTarget around w member
  else (w, false)

/-- `teardown_front_node`, which swallows errors. -/
def teardownFrontNode (node : Nat) (port : Int) : FrontWorld label :=
  w.setTable node
    (failoverTeardown port (backendArgument (orPort (backendPort w.pool) none) port)
      (w.tables node)).2

def reconcileFront (oldNode : Option Nat) (oldPort : Option Int) : FrontWorld label × Bool :=
  let w :=
    match oldNode, oldPort, w.pool.frontNodeId with
    | some node, some port, some front => if node ≠ front then teardownFrontNode w node port else w
    | _, _, _ => w
  match w.pool.members.find? (fun m => some m.id = w.pool.activeMemberId) <|>
      primaryMember w.pool.members with
  | none => (w, true)
  | some target => forceSwitchMember around w target

def setFront (update : FrontUpdate) : FrontWorld label × Bool :=
  if around.isProxy update.nodeId then
    reconcileFront around
      { w with pool := { w.pool with
          frontNodeId := some update.nodeId
          frontPort := some update.port
          backendPort := update.backendPort } }
      w.pool.frontNodeId w.pool.frontPort
  else (w, false)

/-- The end of `teardown_front`. -/
def teardownFront : FrontWorld label :=
  match w.pool.frontNodeId, w.pool.frontPort with
  | some front, some port => teardownFrontNode w front port
  | _, _ => w

def unsetFront : FrontWorld label :=
  let w := teardownFront w
  { w with pool := { w.pool with
      frontNodeId := none
      frontPort := none
      activeMemberId := none } }

/-- One request, and whether it returns without errors. -/
def perform : FrontAction → FrontWorld label × Bool
  | .setFront update => setFront around w update
  | .forceSwitch memberId =>
    match w.pool.members.find? fun m => m.id = memberId with
    | none => (w, false)
    | some member => forceSwitchMember around w member
  | .evaluate => evaluateAndSwitch around w
  | .unsetFront => (unsetFront w, true)

/-- A request as a step of a run. -/
def step (request : Surroundings × FrontAction) : Option (FrontWorld label) :=
  some (perform request.1 w request.2).1

/-! ## What the front is to do -/

/-- The front has one pair of rules, for the ports of the pool and the address of the active
member, and no other node has a rule of the pool. -/
def Forwards : Prop :=
  ∃ front port backend member ip, w.pool.frontNodeId = some front ∧
    w.pool.frontPort = some port ∧ backendPort w.pool = some backend ∧
    member ∈ w.pool.members ∧ w.pool.activeMemberId = some member.id ∧
    around.resolve member.nodeId = some ip ∧
    (w.tables front).rules.Perm (forwarding port backend ip.text) ∧
    ∀ node, node ≠ front → (w.tables node).rules = []

/-- No node has a rule of the pool. -/
def Cleared : Prop := ∀ node, (w.tables node).rules = []

/-- What a request without errors is to leave. -/
def Promise (action : FrontAction) (w : FrontWorld label) : Prop :=
  match action with
  | .unsetFront => Cleared w
  | _ => Forwards around w

/-- The port of the members that an update sets. -/
def FrontUpdate.backend (update : FrontUpdate) : Int := update.backendPort.getD update.port

/-- While a front has rules of the pool, a new front keeps the port of the members, and the same
front both ports. -/
def Kept : FrontAction → Prop
  | .setFront update => ∀ front port backend, w.pool.frontNodeId = some front →
      w.pool.frontPort = some port → backendPort w.pool = some backend →
      (w.tables front).rules ≠ [] →
      update.backend = backend ∧ (update.nodeId = front → update.port = port)
  | _ => True

end

def IsPort (n : Int) : Prop := 1 ≤ n ∧ n ≤ 65535

/-- A front with its ports, on which the pool has no rules or the pair for these ports. -/
structure HasFront (w : FrontWorld label) (front : Nat) (port backend : Int) : Prop where
  front_eq : w.pool.frontNodeId = some front
  port_eq : w.pool.frontPort = some port
  backend_eq : backendPort w.pool = some backend
  isPort : IsPort port
  isBackend : IsPort backend
  elsewhere : ∀ node, node ≠ front → (w.tables node).rules = []
  here : (w.tables front).rules = [] ∨ ∃ ip, (w.tables front).rules = forwarding port backend ip

structure Sound (w : FrontWorld label) : Prop where
  quiet : ∀ node, Quiet (w.tables node)
  members : w.pool.members ≠ []
  front : (w.pool.frontNodeId = none ∧ Cleared w) ∨
    ∃ front port backend, HasFront w front port backend

/-! ## Ports -/

theorem IsPort.validate {n : Int} (h : IsPort n) : validateFailoverPort n = .ok n := by
  rw [validateFailoverPort]
  exact if_pos h

theorem IsPort.orPort {n : Int} (h : IsPort n) (other : Option Int) :
    orPort (some n) other = some n := by
  rw [Failover.orPort, if_neg]
  rintro (hNone | hZero)
  · cases hNone
  · have := Option.some.inj hZero
    have := h.1
    omega

variable {backend : Int}

/-- The agent learns the port of the members. -/
theorem IsPort.validateBackend (h : IsPort backend) (port : Int) :
    validateBackendPort port (backendArgument (some backend) port) = .ok backend := by
  rw [backendArgument]
  split_ifs with hSame
  · rw [validateBackendPort, Option.some.inj hSame]
  · have hNe : backend ≠ 0 := by
      have := h.1
      omega
    rw [validateBackendPort]
    simp only [hNe, if_false, h.validate]

theorem FrontUpdate.isBackend (update : FrontUpdate) : IsPort update.backend := by
  rw [FrontUpdate.backend]
  cases hBackend : update.backendPort with
  | none => exact update.port_valid
  | some backend => exact update.backend_valid backend hBackend

theorem parseIpv4_address (ip : Address) :
    parseIpv4 ip.text = .ok ip.text ∨ ∃ e, parseIpv4 ip.text = .error e := by
  have hStrip : strip ip.text = ip.text :=
    strip_of_not_space fun c hC => (numeral_of_mem_address ip.valid hC).notSpace
  rw [parseIpv4, hStrip]
  split
  · split_ifs
    · exact .inr ⟨_, rfl⟩
    · exact .inl rfl
  · exact .inr ⟨_, rfl⟩

/-! ## One switch -/

@[simp] theorem setTable_same (w : FrontWorld label) (node : Nat) (table : NatTable label) :
    (w.setTable node table).tables node = table := Function.update_self ..

theorem setTable_other (w : FrontWorld label) {node other : Nat} (table : NatTable label)
    (h : other ≠ node) : (w.setTable node table).tables other = w.tables other :=
  Function.update_of_ne h ..

@[simp] theorem setTable_self (w : FrontWorld label) (node : Nat) :
    w.setTable node (w.tables node) = w := by
  rw [FrontWorld.setTable, Function.update_eq_self]

@[simp] theorem setActive_tables (w : FrontWorld label) (memberId : Nat) :
    (w.setActive memberId).tables = w.tables := rfl

variable {w : FrontWorld label} {front : Nat} {port : Int}

theorem requireFront_eq
    (h : HasFront w front port backend) : requireFront w.pool = some (front, port) := by
  have hNe : port ≠ 0 := by
    have := h.isPort.1
    omega
  rw [requireFront, h.front_eq, h.port_eq]
  simp only [hNe, if_false]

variable {around : Surroundings} {target : Member}

section

variable {w : FrontWorld label} {front : Nat} {port backend : Int}

theorem HasFront.setActive (h : HasFront w front port backend) (memberId : Nat) :
    HasFront (w.setActive memberId) front port backend :=
  ⟨h.front_eq, h.port_eq, h.backend_eq, h.isPort, h.isBackend, h.elsewhere, h.here⟩

theorem HasFront.setTable (h : HasFront w front port backend) {table : NatTable label} {ip : Text}
    (hRules : table.rules = forwarding port backend ip) :
    HasFront (w.setTable front table) front port backend where
  front_eq := h.front_eq
  port_eq := h.port_eq
  backend_eq := h.backend_eq
  isPort := h.isPort
  isBackend := h.isBackend
  elsewhere := by
    intro node hNode
    rw [setTable_other w table hNode]
    exact h.elsewhere node hNode
  here := .inr ⟨ip, by rw [setTable_same, hRules]⟩

theorem HasFront.forwards (h : HasFront w front port backend)
    {member : Member} {ip : Address} (hMember : member ∈ w.pool.members)
    (hResolve : around.resolve member.nodeId = some ip)
    (hRules : (w.tables front).rules = forwarding port backend ip.text) :
    Forwards around (w.setActive member.id) :=
  ⟨front, port, backend, member, ip, h.front_eq, h.port_eq, h.backend_eq, hMember, rfl, hResolve,
    List.Perm.of_eq hRules, h.elsewhere⟩

theorem quiet_setTable (hQuiet : ∀ node, Quiet (w.tables node)) {table : NatTable label}
    (hOthers : table.others = (w.tables front).others) :
    ∀ node, Quiet ((w.setTable front table).tables node) := by
  intro node
  by_cases hNode : node = front
  · rw [hNode, setTable_same, Quiet, hOthers]
    exact hQuiet front
  · rw [setTable_other w table hNode]
    exact hQuiet node

/-- What is left of the front after a switch. -/
structure Switched (around : Surroundings) (w : FrontWorld label) (front : Nat)
    (port backend : Int) (result : FrontWorld label × Bool) : Prop where
  quiet : ∀ node, Quiet (result.1.tables node)
  members : result.1.pool.members = w.pool.members
  front : HasFront result.1 front port backend
  forwards : result.2 = true → Forwards around result.1

theorem Switched.refused (around : Surroundings) (hQuiet : ∀ node, Quiet (w.tables node))
    (h : HasFront w front port backend) : Switched around w front port backend (w, false) :=
  ⟨hQuiet, rfl, h, fun hOk => Bool.noConfusion hOk⟩

/-- **A switch** points the front at its target, or leaves it as it was. -/
theorem switched (around : Surroundings) (hQuiet : ∀ node, Quiet (w.tables node))
    (h : HasFront w front port backend) (hTarget : target ∈ w.pool.members) :
    Switched around w front port backend (applySwitchToTarget around w target) := by
  have hRefused := Switched.refused around hQuiet h
  have hBackend := h.isBackend.validateBackend port
  simp only [applySwitchToTarget, requireFront_eq h, failoverStatus_eq h.isPort.validate,
    detected_save (hQuiet front), h.backend_eq, h.isBackend.orPort]
  cases hResolve : around.resolve target.nodeId with
  | none => exact hRefused
  | some ip =>
    dsimp only
    -- the pair for the address is put there
    have hPlaced : ∀ table', table'.others = (w.tables front).others →
        table'.rules = forwarding port backend ip.text →
        Switched around w front port backend ((w.setTable front table').setActive target.id, true) := by
      intro table' hOthers hRules
      have hSet := h.setTable hRules
      exact ⟨quiet_setTable hQuiet hOthers, rfl, hSet.setActive _,
        fun _ => hSet.forwards hTarget hResolve (by rw [setTable_same, hRules])⟩
    rcases h.here with hNone | ⟨old, hOld⟩
    · rw [hNone, List.findSome?_nil, if_neg nofun]
      rcases parseIpv4_address ip with hIp | ⟨e, hIp⟩
      · obtain ⟨table', hSet, hRules, hOthers⟩ := setDestination_fresh (hQuiet front)
          h.isPort.validate hBackend hIp ip.valid hNone
        rw [hSet]
        exact hPlaced table' hOthers hRules
      · rw [setDestination_refused h.isPort.validate hBackend hIp]
        simpa using hRefused
    · rw [hOld, detected_forwarding]
      split_ifs with hSame
      · exact ⟨hQuiet, rfl, h.setActive _, fun _ => h.forwards hTarget hResolve
          (by rw [hOld, Option.some.inj hSame])⟩
      · rcases parseIpv4_address ip with hIp | ⟨e, hIp⟩
        · obtain ⟨table', hSet, hRules, hOthers⟩ := setDestination_moved (hQuiet front)
            h.isPort.validate hBackend hIp ip.valid hOld fun hEq => hSame (congrArg some hEq)
          rw [hSet]
          exact hPlaced table' hOthers hRules
        · rw [setDestination_refused h.isPort.validate hBackend hIp]
          simpa using hRefused

/-- A switch works on its front alone. -/
theorem applySwitch_frame (around : Surroundings) (w : FrontWorld label) (target : Member)
    (hFront : w.pool.frontNodeId = some front) :
    (applySwitchToTarget around w target).1.pool.frontNodeId = some front ∧
      ∀ node, node ≠ front →
        (applySwitchToTarget around w target).1.tables node = w.tables node := by
  rw [applySwitchToTarget]
  split
  · exact ⟨hFront, fun _ _ => rfl⟩
  rename_i front' port hRequire
  have hSame : front' = front := by
    rw [requireFront, hFront] at hRequire
    split at hRequire
    · rename_i hNode _
      obtain ⟨rfl, -⟩ := Prod.mk.inj (Option.some.inj hRequire)
      exact (Option.some.inj hNode).symm
    · cases hRequire
  subst hSame
  dsimp only
  repeat' split
  all_goals first
    | exact ⟨hFront, fun _ _ => rfl⟩
    | exact ⟨hFront, fun node hNode => setTable_other w _ hNode⟩

/-- **Rules for other ports** are not put right by a switch. -/
theorem switch_stale (around : Surroundings) (hQuiet : Quiet (w.tables front))
    (hFront : w.pool.frontNodeId = some front) (hPort : w.pool.frontPort = some port)
    (hBackend : Failover.backendPort w.pool = some backend) (hIsPort : IsPort port)
    (hIsBackend : IsPort backend) {port' backend' : Int} {old : Text}
    (hRules : (w.tables front).rules = forwarding port' backend' old)
    (hPorts : ¬(port' = port ∧ backend' = backend))
    (hOk : (applySwitchToTarget around w target).2 = true) :
    ¬Forwards around (applySwitchToTarget around w target).1 := by
  have hNe : port ≠ 0 := by
    have := hIsPort.1
    omega
  have hRequire : requireFront w.pool = some (front, port) := by
    rw [requireFront, hFront, hPort]
    simp only [hNe, if_false]
  have hArgument := hIsBackend.validateBackend port
  revert hOk
  simp only [applySwitchToTarget, hRequire, failoverStatus_eq hIsPort.validate,
    detected_save hQuiet, hBackend, hIsBackend.orPort, hRules, detected_forwarding]
  cases around.resolve target.nodeId with
  | none => exact fun hOk => Bool.noConfusion hOk
  | some ip =>
    dsimp only
    split_ifs with hSame
    · -- the address is right, and nothing is done
      rintro - ⟨front', port₁, backend₁, member, ip', hFront', hPort', hBackend', -, -, -, hPerm, -⟩
      have hFront₁ : w.pool.frontNodeId = some front' := hFront'
      have hPort₁ : w.pool.frontPort = some port₁ := hPort'
      have hBackend₁ : Failover.backendPort w.pool = some backend₁ := hBackend'
      rw [hFront] at hFront₁
      rw [hPort] at hPort₁
      rw [hBackend] at hBackend₁
      cases hFront₁
      cases hPort₁
      cases hBackend₁
      rw [setActive_tables, hRules] at hPerm
      have hMem := hPerm.mem_iff.mp (List.mem_cons_self (a := PoolRule.dnat port' old backend'))
      rcases List.mem_cons.mp hMem with hDnat | hMasq
      · injection hDnat with hPorts' _ hBackends
        exact hPorts ⟨hPorts', hBackends⟩
      · cases List.mem_singleton.mp hMasq
    · -- the address differs, and the rewrite finds no rule with these ports
      rcases parseIpv4_address ip with hIp | ⟨e, hIp⟩
      · rw [setDestination_stale hQuiet hIsPort.validate hArgument hIp hRules
          (fun hEq => hSame (congrArg some hEq)) hPorts]
        exact fun hOk => Bool.noConfusion hOk
      · rw [setDestination_refused hIsPort.validate hArgument hIp]
        exact fun hOk => Bool.noConfusion hOk

end

/-! ## Setting and unsetting the front -/

/-- The pool with a new front. -/
def FrontWorld.withFront (w : FrontWorld label) (update : FrontUpdate) : FrontWorld label :=
  { w with pool := { w.pool with
      frontNodeId := some update.nodeId
      frontPort := some update.port
      backendPort := update.backendPort } }

theorem backendPort_withFront (w : FrontWorld label) (update : FrontUpdate) :
    backendPort (w.withFront update).pool = some update.backend := by
  have hBackend := update.isBackend
  rw [backendPort, FrontUpdate.backend] at *
  show orPort update.backendPort (some update.port) = _
  cases hUpdate : update.backendPort with
  | none => rfl
  | some backend =>
    rw [hUpdate] at hBackend
    exact hBackend.orPort _

variable {update : FrontUpdate}

/-- What the tables are when the new front is switched. -/
theorem hasFront_withFront {tables : Nat → NatTable label}
    (hElsewhere : ∀ node, node ≠ update.nodeId → (tables node).rules = [])
    (hHere : (tables update.nodeId).rules = [] ∨
      ∃ ip, (tables update.nodeId).rules = forwarding update.port update.backend ip) :
    HasFront { w.withFront update with tables := tables } update.nodeId update.port
      update.backend :=
  ⟨rfl, rfl, backendPort_withFront w update, update.port_valid, update.isBackend, hElsewhere, hHere⟩

/-- The tables after the teardown of the previous front. -/
def tablesAfterTeardown (w : FrontWorld label) (update : FrontUpdate) : Nat → NatTable label :=
  match w.pool.frontNodeId, w.pool.frontPort with
  | some node, some port =>
    if node ≠ update.nodeId then (teardownFrontNode (w.withFront update) node port).tables
    else w.tables
  | _, _ => w.tables

/-- The world in which the new front is switched. -/
def beforeSwitch (w : FrontWorld label) (update : FrontUpdate) : FrontWorld label :=
  { w.withFront update with tables := tablesAfterTeardown w update }

theorem setFront_eq (around : Surroundings) (w : FrontWorld label) (update : FrontUpdate)
    (hProxy : around.isProxy update.nodeId = true) :
    setFront around w update =
      match w.pool.members.find? (fun m => some m.id = w.pool.activeMemberId) <|>
          primaryMember w.pool.members with
      | none => (beforeSwitch w update, true)
      | some target => forceSwitchMember around (beforeSwitch w update) target := by
  unfold setFront reconcileFront beforeSwitch tablesAfterTeardown
  rw [if_pos hProxy]
  cases w.pool.frontNodeId with
  | none => rfl
  | some node =>
    cases w.pool.frontPort with
    | none => rfl
    | some port =>
      by_cases hNode : node = update.nodeId
      · simp only [ne_eq, hNode, not_true_eq_false, if_false]
        rfl
      · simp only [ne_eq, hNode, not_false_eq_true, if_true]
        rfl

section

variable {w : FrontWorld label} (hSound : Sound w)

include hSound

/-- With members, a new front is switched to one of them. -/
theorem setFront_target (around : Surroundings)
    (hProxy : around.isProxy update.nodeId = true) : ∃ target ∈ w.pool.members,
      setFront around w update = forceSwitchMember around (beforeSwitch w update) target := by
  rw [setFront_eq around w update hProxy]
  cases hActive : w.pool.members.find? (fun m => some m.id = w.pool.activeMemberId) with
  | some target => exact ⟨target, List.mem_of_find?_eq_some hActive, rfl⟩
  | none =>
    obtain ⟨primary, hPrimary⟩ := exists_primary hSound.members
    rw [hPrimary]
    exact ⟨primary, mem_of_primary hPrimary, rfl⟩

/-- What the teardown leaves: no rules of the previous front when the new one keeps the port of
the members, and all of them otherwise. -/
theorem teardown_previous (hFront : HasFront w front port backend) (hNode : update.nodeId ≠ front) :
    (∀ node, Quiet (tablesAfterTeardown w update node)) ∧
      (∀ node, node ≠ front → tablesAfterTeardown w update node = w.tables node) ∧
      ((tablesAfterTeardown w update front).rules = [] ↔
        (w.tables front).rules = [] ∨ update.backend = backend) := by
  have hArgument := update.isBackend.validateBackend port
  have hTables : tablesAfterTeardown w update = Function.update w.tables front
      (failoverTeardown port (backendArgument (some update.backend) port) (w.tables front)).2 := by
    rw [tablesAfterTeardown, hFront.front_eq, hFront.port_eq]
    dsimp only
    rw [if_pos hNode.symm, teardownFrontNode, backendPort_withFront, update.isBackend.orPort]
    rfl
  have hOthers : ∀ node, node ≠ front → tablesAfterTeardown w update node = w.tables node := by
    intro node hOther
    rw [hTables, Function.update_of_ne hOther]
  have hHere : tablesAfterTeardown w update front =
      (failoverTeardown port (backendArgument (some update.backend) port) (w.tables front)).2 := by
    rw [hTables, Function.update_self]
  suffices hSuffices : (tablesAfterTeardown w update front).others = (w.tables front).others ∧
      ((tablesAfterTeardown w update front).rules = [] ↔
        (w.tables front).rules = [] ∨ update.backend = backend) by
    refine ⟨fun node => ?_, hOthers, hSuffices.2⟩
    by_cases hSame : node = front
    · rw [hSame, Quiet, hSuffices.1]
      exact hSound.quiet front
    · rw [hOthers node hSame]
      exact hSound.quiet node
  rw [hHere]
  rcases hFront.here with hNone | ⟨ip, hRules⟩
  · rw [teardown_empty (hSound.quiet front) hFront.isPort.validate hArgument hNone]
    exact ⟨rfl, by simp [hNone]⟩
  by_cases hKept : update.backend = backend
  · rw [← hKept] at hRules
    obtain ⟨table', hTeardown, hGone, hLines⟩ := teardown_forwarding (hSound.quiet front)
      hFront.isPort.validate hArgument hRules
    rw [hTeardown]
    exact ⟨hLines, by simp [hGone, hKept]⟩
  · rw [teardown_stale (hSound.quiet front) hFront.isPort.validate hArgument hRules
      fun hBoth => hKept hBoth.2.symm]
    refine ⟨rfl, ?_⟩
    rw [hRules]
    simp [forwarding, hKept]

theorem quiet_beforeSwitch (update : FrontUpdate) :
    ∀ node, Quiet ((beforeSwitch w update).tables node) := by
  show ∀ node, Quiet (tablesAfterTeardown w update node)
  rcases hSound.front with ⟨hNone, -⟩ | ⟨front, port, backend, hFront⟩
  · rw [tablesAfterTeardown, hNone]
    exact hSound.quiet
  · by_cases hNode : update.nodeId = front
    · rw [tablesAfterTeardown, hFront.front_eq, hFront.port_eq]
      dsimp only
      rw [if_neg (not_not.mpr hNode.symm)]
      exact hSound.quiet
    · exact (teardown_previous hSound hFront hNode).1

/-- An update that keeps the ports finds the new front without rules or with the right ones. -/
theorem hasFront_beforeSwitch (hKept : Kept w (.setFront update)) :
    HasFront (beforeSwitch w update) update.nodeId update.port update.backend := by
  rcases hSound.front with ⟨hNone, hCleared⟩ | ⟨front, port, backend, hFront⟩
  · refine hasFront_withFront ?_ ?_
    · rw [tablesAfterTeardown, hNone]
      exact fun node _ => hCleared node
    · rw [tablesAfterTeardown, hNone]
      exact .inl (hCleared _)
  · have hPorts : (w.tables front).rules ≠ [] →
        update.backend = backend ∧ (update.nodeId = front → update.port = port) :=
      hKept front port backend hFront.front_eq hFront.port_eq hFront.backend_eq
    by_cases hNode : update.nodeId = front
    · have hTables : tablesAfterTeardown w update = w.tables := by
        rw [tablesAfterTeardown, hFront.front_eq, hFront.port_eq]
        exact if_neg (not_not.mpr hNode.symm)
      refine hasFront_withFront ?_ ?_
      · rw [hTables, hNode]
        exact hFront.elsewhere
      · rw [hTables, hNode]
        rcases hFront.here with hNone | ⟨ip, hRules⟩
        · exact .inl hNone
        · have hSame := hPorts (by rw [hRules]; exact List.cons_ne_nil _ _)
          exact .inr ⟨ip, by rw [hRules, hSame.1, hSame.2 hNode]⟩
    · obtain ⟨-, hOthers, hPrevious⟩ := teardown_previous hSound hFront hNode
      have hGone : (tablesAfterTeardown w update front).rules = [] := by
        refine hPrevious.mpr ?_
        by_cases hNone : (w.tables front).rules = []
        · exact .inl hNone
        · exact .inr (hPorts hNone).1
      have hAll : ∀ node, (tablesAfterTeardown w update node).rules = [] := by
        intro node
        by_cases hSame : node = front
        · rw [hSame]
          exact hGone
        · rw [hOthers node hSame]
          exact hFront.elsewhere node hSame
      exact hasFront_withFront (fun node _ => hAll node) (.inl (hAll _))

end

/-- What a switch of a sound pool leaves. -/
theorem sound_of_switched {w' : FrontWorld label}
    {result : FrontWorld label × Bool} (hMembers : w'.pool.members ≠ [])
    (h : Switched around w' front port backend result) : Sound result.1 :=
  ⟨h.quiet, by rw [h.members]; exact hMembers, .inr ⟨front, port, backend, h.front⟩⟩

/-- `force_switch_member` for any member. -/
theorem switched_force (around : Surroundings) (hQuiet : ∀ node, Quiet (w.tables node))
    (h : HasFront w front port backend) (hTarget : target ∈ w.pool.members) :
    Switched around w front port backend (forceSwitchMember around w target) := by
  rw [forceSwitchMember]
  split_ifs
  · exact switched around hQuiet h hTarget
  · exact Switched.refused around hQuiet h

theorem applySwitch_without (around : Surroundings) (target : Member)
    (hNone : w.pool.frontNodeId = none) : applySwitchToTarget around w target = (w, false) := by
  rw [applySwitchToTarget, requireFront, hNone]

/-- Taking the front away leaves no rule of the pool. -/
theorem sound_unsetFront (hSound : Sound w) : Sound (unsetFront w) ∧ Cleared (unsetFront w) := by
  suffices hSuffices : (∀ node, Quiet ((unsetFront w).tables node)) ∧ Cleared (unsetFront w) ∧
      (unsetFront w).pool.members = w.pool.members from
    ⟨⟨hSuffices.1, by rw [hSuffices.2.2]; exact hSound.members, .inl ⟨rfl, hSuffices.2.1⟩⟩,
      hSuffices.2.1⟩
  rcases hSound.front with ⟨hNone, hCleared⟩ | ⟨front, port, backend, hFront⟩
  · rw [unsetFront, teardownFront, hNone]
    exact ⟨hSound.quiet, hCleared, rfl⟩
  obtain ⟨table', hTeardown, hGone, hOthers⟩ : ∃ table' : NatTable label,
      failoverTeardown port (backendArgument (some backend) port) (w.tables front) =
        (true, table') ∧ table'.rules = [] ∧ table'.others = (w.tables front).others := by
    have hArgument := hFront.isBackend.validateBackend port
    rcases hFront.here with hNone | ⟨ip, hRules⟩
    · exact ⟨_, teardown_empty (hSound.quiet front) hFront.isPort.validate hArgument hNone,
        hNone, rfl⟩
    · exact teardown_forwarding (hSound.quiet front) hFront.isPort.validate hArgument hRules
  rw [unsetFront, teardownFront, hFront.front_eq, hFront.port_eq]
  dsimp only
  rw [teardownFrontNode, hFront.backend_eq, hFront.isBackend.orPort, hTeardown]
  refine ⟨quiet_setTable hSound.quiet hOthers, fun node => ?_, rfl⟩
  show ((w.setTable front table').tables node).rules = []
  by_cases hNode : node = front
  · rw [hNode, setTable_same, hGone]
  · rw [setTable_other w table' hNode]
    exact hFront.elsewhere node hNode

/-- **The step lemma**: a request that keeps the ports leaves a sound pool, and what it promises. -/
theorem sound_perform {action : FrontAction} (hSound : Sound w) (hKept : Kept w action) :
    Sound (perform around w action).1 ∧
      ((perform around w action).2 = true → Promise around action (perform around w action).1) := by
  have hSame : Sound w ∧ (false = true → Promise around action w) :=
    ⟨hSound, fun hOk => Bool.noConfusion hOk⟩
  cases action with
  | setFront update =>
    rw [perform]
    cases hProxy : around.isProxy update.nodeId with
    | false =>
      rw [setFront, if_neg (by rw [hProxy]; decide)]
      exact hSame
    | true =>
      obtain ⟨target, hTarget, hSet⟩ := setFront_target hSound around hProxy
      have hSwitched := switched_force around (quiet_beforeSwitch hSound update)
        (hasFront_beforeSwitch hSound hKept) hTarget
      have hMembers : (beforeSwitch w update).pool.members ≠ [] := hSound.members
      rw [hSet]
      exact ⟨sound_of_switched hMembers hSwitched, hSwitched.forwards⟩
  | forceSwitch memberId =>
    rw [perform]
    cases hFind : w.pool.members.find? fun m => m.id = memberId with
    | none => exact hSame
    | some member =>
      have hMember := List.mem_of_find?_eq_some hFind
      rcases hSound.front with ⟨hNone, -⟩ | ⟨front, port, backend, hFront⟩
      · simp only [forceSwitchMember, applySwitch_without around member hNone, ite_self]
        exact hSame
      · have hSwitched := switched_force around hSound.quiet hFront hMember
        exact ⟨sound_of_switched hSound.members hSwitched, hSwitched.forwards⟩
  | evaluate =>
    rw [perform, evaluateAndSwitch]
    cases hHealthy : (eligibleCandidates w.pool.members).filter
        (fun m => around.healthy m.nodeId) with
    | nil => exact hSame
    | cons target rest =>
      have hTarget : target ∈ w.pool.members :=
        (mem_eligible.mp (List.mem_of_mem_filter (hHealthy ▸ List.mem_cons_self))).1
      rcases hSound.front with ⟨hNone, -⟩ | ⟨front, port, backend, hFront⟩
      · simp only [applySwitch_without around target hNone]
        exact hSame
      · have hSwitched := switched around hSound.quiet hFront hTarget
        exact ⟨sound_of_switched hSound.members hSwitched, hSwitched.forwards⟩
  | unsetFront =>
    obtain ⟨hAfter, hCleared⟩ := sound_unsetFront hSound
    exact ⟨hAfter, fun _ => hCleared⟩

/-- An update that does not keep the ports, and returns without errors, breaks what it promises. -/
theorem kept_of_promise (hSound : Sound w) (hOk : (setFront around w update).2 = true)
    (hForwards : Forwards around (setFront around w update).1) : Kept w (.setFront update) := by
  intro front port backend hFrontEq hPortEq hBackendEq hRules
  have hProxy : around.isProxy update.nodeId = true := by
    cases hProxy : around.isProxy update.nodeId with
    | true => rfl
    | false =>
      rw [setFront, if_neg (by rw [hProxy]; decide)] at hOk
      cases hOk
  obtain ⟨target, -, hSet⟩ := setFront_target hSound around hProxy
  have hApply : setFront around w update = applySwitchToTarget around (beforeSwitch w update) target
      := by
    rw [hSet, forceSwitchMember] at hOk ⊢
    split_ifs at hOk ⊢
    rfl
  rw [hApply] at hOk hForwards
  obtain ⟨old, hFront, hOld⟩ : ∃ old, HasFront w front port backend ∧
      (w.tables front).rules = forwarding port backend old := by
    rcases hSound.front with ⟨hNone, -⟩ | ⟨front', port', backend', hFront⟩
    · rw [hNone] at hFrontEq
      cases hFrontEq
    · obtain rfl := Option.mem_unique hFront.front_eq hFrontEq
      obtain rfl := Option.mem_unique hFront.port_eq hPortEq
      obtain rfl := Option.mem_unique hFront.backend_eq hBackendEq
      obtain ⟨old, hOld⟩ := hFront.here.resolve_left hRules
      exact ⟨old, hFront, hOld⟩
  -- the same front: its old rules stay unless the ports do
  by_cases hNode : update.nodeId = front
  · by_contra hChanged
    have hTables : tablesAfterTeardown w update = w.tables := by
      rw [tablesAfterTeardown, hFrontEq, hPortEq]
      exact if_neg (not_not.mpr hNode.symm)
    have hStays : ((beforeSwitch w update).tables update.nodeId).rules =
        forwarding port backend old := by
      show (tablesAfterTeardown w update update.nodeId).rules = _
      rw [hTables, hNode, hOld]
    exact switch_stale around (quiet_beforeSwitch hSound update update.nodeId) rfl rfl
      (backendPort_withFront w update) update.port_valid update.isBackend hStays
      (fun hBoth => hChanged ⟨hBoth.2.symm, fun _ => hBoth.1.symm⟩) hOk hForwards
  · refine ⟨?_, fun hSame => absurd hSame hNode⟩
    -- another front: the previous one was torn down by its own ports
    obtain ⟨-, -, hPrevious⟩ := teardown_previous hSound hFront hNode
    have hFrontEq' : (beforeSwitch w update).pool.frontNodeId = some update.nodeId := rfl
    obtain ⟨hFrontAfter, hFrame⟩ :=
      applySwitch_frame around (beforeSwitch w update) target hFrontEq'
    obtain ⟨front', _, _, _, _, hFront', -, -, -, -, -, -, hElsewhere⟩ := hForwards
    rw [hFrontAfter] at hFront'
    cases hFront'
    have hGone := hElsewhere front fun hSame => hNode hSame.symm
    rw [hFrame front fun hSame => hNode hSame.symm] at hGone
    exact (hPrevious.mp hGone).resolve_left hRules

/-- A pool that has just been made: it has members and no front, no node has a rule of it, and no
rule of another pool there begins with its label. -/
structure Fresh (w : FrontWorld label) : Prop where
  members : w.pool.members ≠ []
  noFront : w.pool.frontNodeId = none
  cleared : Cleared w
  quiet : ∀ node, Quiet (w.tables node)

/-- Every request of a run keeps the ports of rules that are there. -/
def AllKept (w : FrontWorld label) (requests : List (Surroundings × FrontAction)) : Prop :=
  Along step (fun w request => Kept w request.2) w requests

theorem sound_run {w' : FrontWorld label} {requests : List (Surroundings × FrontAction)}
    (hFresh : Fresh w) (hKept : AllKept w requests) (hRun : Lib.exec step w requests = some w') :
    Sound w' := by
  refine Lib.invariant_exec ?_ ?_ hKept hRun
  · intro w request w' hSound hKept hStep
    cases hStep
    exact (sound_perform hSound hKept).1
  · exact ⟨hFresh.quiet, hFresh.members, .inl ⟨hFresh.noFront, hFresh.cleared⟩⟩

/-- **The front forwards what the pool says** after every request without errors, in every run
whose requests keep the ports of the rules that are there; and the first one that does not keep
them leaves something else. -/
theorem promise_iff_kept {w w' : FrontWorld label} {requests : List (Surroundings × FrontAction)}
    (hFresh : Fresh w) (hKept : AllKept w requests) (hRun : Lib.exec step w requests = some w')
    {around : Surroundings} {action : FrontAction} (hOk : (perform around w' action).2 = true) :
    Promise around action (perform around w' action).1 ↔ Kept w' action := by
  have hSound := sound_run hFresh hKept hRun
  constructor
  · intro hPromise
    cases action with
    | setFront update => exact kept_of_promise hSound hOk hPromise
    | forceSwitch memberId | evaluate | unsetFront => trivial
  · exact fun hKeeps => (sound_perform hSound hKeeps).2 hOk

/-! ## A pool of two members -/

def pool3 : Label := ⟨"pool3".toList, by decide⟩

/-- Two members, the second one cloned from the first, and no front. -/
def newPool : FrontWorld pool3 where
  pool :=
    { members := [⟨1, 11, 0, false⟩, ⟨2, 12, 1, true⟩]
      frontNodeId := none
      frontPort := none
      backendPort := none
      activeMemberId := none }
  tables := fun _ => []

def twoNodes : Surroundings where
  isProxy := fun node => node = 5
  healthy := fun _ => true
  resolve := fun node =>
    if node = 11 then some ⟨"203.0.113.11".toList, by decide⟩
    else some ⟨"203.0.113.12".toList, by decide⟩

def frontOn (port : Int) (hPort : 1 ≤ port ∧ port ≤ 65535) : FrontAction :=
  .setFront ⟨5, port, none, hPort, by simp⟩

def firstFront : FrontAction := frontOn 39001 (by decide)

theorem fresh_newPool : Fresh newPool where
  members := List.cons_ne_nil _ _
  noFront := rfl
  cleared := fun _ => rfl
  quiet := by
    intro node line hLine
    cases hLine

theorem run_firstFront : Lib.exec step newPool [(twoNodes, firstFront)] =
    some (perform twoNodes newPool firstFront).1 := rfl

theorem kept_firstFront : AllKept newPool [(twoNodes, firstFront)] := by
  refine ⟨?_, fun _ _ => trivial⟩
  intro front port backend hFront
  cases hFront

/-- After the first front is set, a switch to the second member is forwarded. -/
theorem promise_newPool :
    Promise twoNodes (.forceSwitch 2)
        (perform twoNodes (perform twoNodes newPool firstFront).1 (.forceSwitch 2)).1 ↔
      Kept (perform twoNodes newPool firstFront).1 (.forceSwitch 2) :=
  promise_iff_kept fresh_newPool kept_firstFront run_firstFront (by decide +kernel)

/-- The port of the front is changed, and the front keeps the rules for the old one. -/
theorem not_always_promised : ¬∀ (label : Label) (w w' : FrontWorld label)
    (requests : List (Surroundings × FrontAction)) (around : Surroundings) (action : FrontAction),
    Fresh w → Lib.exec step w requests = some w' → (perform around w' action).2 = true →
    Promise around action (perform around w' action).1 := by
  intro h
  have hOk : (perform twoNodes (perform twoNodes newPool firstFront).1
      (frontOn 39002 (by decide))).2 = true := by decide +kernel
  have hPromise : Forwards twoNodes _ :=
    h _ _ _ _ _ (frontOn 39002 (by decide)) fresh_newPool run_firstFront hOk
  have hSound := sound_run fresh_newPool kept_firstFront run_firstFront
  have hKept := kept_of_promise hSound hOk hPromise
  have hPorts := hKept 5 39001 39001 (by decide) (by decide) (by decide)
    (by decide)
  exact absurd hPorts.1 (by decide)

end AdminPanel.Failover
