import AdminPanel.Lib.Runs

/-!
# Rotating a node's API key

The panel keeps two keys of a node, the current one and a pending one; the agent accepts one.
A rotation stores a pending key, asks the agent to switch to it and promotes it. When the answer
is lost, it asks the agent for its health with the pending key and goes by that.

* `RotationState`, `rotationStep` — the row of the node, the agent, the requests on their way and
  any number of calls of `rotate_node_api_key` and `complete_pending_key_rotation`;
* `Known` — the agent's key is the current or the pending one;
* `Undisturbed` — the row still has the key with which a call goes on;
* `inv_step`, `key_known` — undisturbed runs keep the agent's key known;
* `agent_locked_out` — two rotations that are not.
-/

namespace AdminPanel.Nodes

open Function

open Lib (exec Along)

/-! ## State -/

/-- Where a call stands. A key is the call's `new_key` or `pending_key`; a current key beside it
is the one that its session has loaded. Keys are numbers. -/
inductive Phase
  | ready
  /-- `rotate_node_api_key` with the row loaded. -/
  | rotating (pending : Option Nat)
  /-- `complete_pending_key_rotation` before its probe. -/
  | completing (current key : Nat)
  /-- The pending key is committed, which expires the row. -/
  | stored (key : Nat)
  | delivering (current key : Nat)
  | waiting (key : Nat)
  /-- The request raised; `_agent_accepts_key` is next. -/
  | checking (key : Nat)
  | promoting (key : Nat)
  | done
  deriving DecidableEq, Repr

/-- A rotate request on its way to the agent. -/
structure Request where
  caller : Nat
  auth : Nat
  new : Nat
  deriving DecidableEq, Repr

structure RotationState where
  current : Nat
  pending : Option Nat := none
  agent : Nat
  requests : List Request := []
  calls : Nat → Phase := fun _ => .ready
  /-- What `generate_api_key` returns next: a key that nobody has seen. -/
  fresh : Nat

namespace RotationState

section

variable (s : RotationState)

def setCall (i : Nat) (phase : Phase) : RotationState :=
  { s with calls := update s.calls i phase }

@[simp] theorem calls_setCall (i : Nat) (phase : Phase) :
    (s.setCall i phase).calls = update s.calls i phase := rfl

/-- `store_pending_api_key` and the commit. -/
def storePending (key : Nat) : RotationState :=
  { s with pending := some key }

def promotePendingKey (key : Nat) : RotationState :=
  { s with current := key, pending := none }

def sendRequest (r : Request) : RotationState :=
  { s with requests := r :: s.requests }

/-- The agent handles a request: it switches when the request comes with its key. -/
def agentHandles (r : Request) : RotationState :=
  { s with agent := if r.auth = s.agent then r.new else s.agent }

end

end RotationState

/-! ## Steps -/

/-- A request that is never handled is lost; one that is handled after its timeout came late. -/
inductive RotationAction
  | rotate (i : Nat)
  | complete (i : Nat)
  | store (i : Nat)
  | send (i : Nat)
  | handle (n : Nat) (answered : Bool)
  /-- The call sees an exception instead of an answer. -/
  | timeout (i : Nat)
  /-- `_agent_accepts_key`; through an SSH tunnel it may reload the row. -/
  | probe (i : Nat) (answered reloads : Bool)
  | promote (i : Nat)
  /-- The call ends with an exception of its own, or with the process. -/
  | abandon (i : Nat)

/-- What a call that asked the agent with its key does next. -/
def afterProbe (s : RotationState) (answered reloads : Bool) : Phase → Option Phase
  | .completing current key =>
    some (if answered && s.agent == key then .promoting key
      else .delivering (if reloads then s.current else current) key)
  | .checking key => some (if answered && s.agent == key then .promoting key else .done)
  | _ => none

/-- The answer to a request reaches a call that waits for it. -/
def answer (s : RotationState) (r : Request) (accepted : Bool) : RotationState :=
  if s.calls r.caller = .waiting r.new then
    s.setCall r.caller (if accepted then .promoting r.new else .checking r.new)
  else s

def rotationStep (s : RotationState) : RotationAction → Option RotationState
  | .rotate i =>
    match s.calls i with
    | .ready => some (s.setCall i (.rotating s.pending))
    | _ => none
  | .complete i =>
    match s.calls i, s.pending with
    | .ready, some key => some (s.setCall i (.completing s.current key))
    | .ready, none => some (s.setCall i .done)
    | _, _ => none
  | .store i =>
    match s.calls i with
    | .rotating (some key) => some ((s.storePending key).setCall i (.stored key))
    | .rotating none =>
      some (({ s with fresh := s.fresh + 1 }.storePending s.fresh).setCall i (.stored s.fresh))
    | _ => none
  | .send i =>
    match s.calls i with
    | .stored key => some ((s.sendRequest ⟨i, s.current, key⟩).setCall i (.waiting key))
    | .delivering current key => some ((s.sendRequest ⟨i, current, key⟩).setCall i (.waiting key))
    | _ => none
  | .handle n answered =>
    match s.requests[n]? with
    | some r =>
      let rest := { s with requests := s.requests.eraseIdx n }
      some (if answered then answer (rest.agentHandles r) r (r.auth == s.agent)
        else rest.agentHandles r)
    | none => none
  | .timeout i =>
    match s.calls i with
    | .stored key | .delivering _ key | .waiting key => some (s.setCall i (.checking key))
    | _ => none
  | .probe i answered reloads => (afterProbe s answered reloads (s.calls i)).map (s.setCall i)
  | .promote i =>
    match s.calls i with
    | .promoting key => some ((s.promotePendingKey key).setCall i .done)
    | _ => none
  | .abandon i => some (s.setCall i .done)

/-! ## The invariant -/

/-- The panel knows the agent's key. -/
def Known (s : RotationState) : Prop :=
  s.agent = s.current ∨ s.pending = some s.agent

/-- A request that the agent would obey asks for a key that the panel knows, and a key that
requests come with is pending only while it is also the current one. -/
structure RequestOk (s : RotationState) (r : Request) : Prop where
  known : r.auth = s.agent → s.pending = some r.new ∨ r.new = s.agent
  auth : s.pending = some r.auth → r.auth = s.current
  old : r.auth < s.fresh

def PhaseOk (s : RotationState) : Phase → Prop
  | .ready | .done => True
  | .rotating pending => ∀ key, pending = some key → key < s.fresh
  | .completing current key | .delivering current key =>
    current < s.fresh ∧ (s.pending = some current → current = s.current) ∧ key < s.fresh
  | .stored key | .waiting key | .checking key => key < s.fresh
  | .promoting key => key < s.fresh ∧ (s.pending = some key → s.agent = key)

structure Inv (s : RotationState) : Prop where
  known : Known s
  current : s.current < s.fresh
  pending : ∀ key, s.pending = some key → key < s.fresh
  requests : ∀ r ∈ s.requests, RequestOk s r
  calls : ∀ i, PhaseOk s (s.calls i)

variable {key : Nat}

section

variable {s t : RotationState}

theorem Inv.setCall (h : Inv s) {i : Nat} {phase : Phase} (hPhase : PhaseOk s phase) :
    Inv (s.setCall i phase) where
  known := h.known
  current := h.current
  pending := h.pending
  requests := fun r hr => ⟨(h.requests r hr).known, (h.requests r hr).auth, (h.requests r hr).old⟩
  calls := by
    intro j
    show PhaseOk s ((s.setCall i phase).calls j)
    rw [RotationState.calls_setCall]
    by_cases hj : j = i
    · rw [hj, update_self]
      exact hPhase
    · rw [update_of_ne hj]
      exact h.calls j

theorem Inv.sendRequest (h : Inv s) {r : Request} (hRequest : RequestOk s r) :
    Inv (s.sendRequest r) where
  known := h.known
  current := h.current
  pending := h.pending
  requests := by
    intro r' hr'
    rcases List.mem_cons.1 hr' with rfl | hr'
    · exact ⟨hRequest.known, hRequest.auth, hRequest.old⟩
    · exact ⟨(h.requests r' hr').known, (h.requests r' hr').auth, (h.requests r' hr').old⟩
  calls := h.calls

/-- Requests may be lost. -/
theorem Inv.dropRequests (h : Inv s) {requests : List Request} (hSub : requests ⊆ s.requests) :
    Inv { s with requests := requests } where
  known := h.known
  current := h.current
  pending := h.pending
  requests := fun r hr =>
    ⟨(h.requests r (hSub hr)).known, (h.requests r (hSub hr)).auth, (h.requests r (hSub hr)).old⟩
  calls := h.calls

/-- The key that is pending anyway is stored once more. -/
theorem Inv.storeSame (h : Inv s) (hSame : s.pending = some key) : Inv (s.storePending key) := by
  have hState : s.storePending key = s := by
    rw [RotationState.storePending, ← hSame]
  rw [hState]
  exact h

/-- With nothing pending the agent has the current key. -/
theorem Known.agent_eq (h : Known s) (hNone : s.pending = none) : s.agent = s.current := by
  rcases h with h | h
  · exact h
  · rw [hNone] at h
    cases h

/-- What a phase says of the keys, carried over to a later state. -/
theorem PhaseOk.mono {phase : Phase} (h : PhaseOk s phase) (hFresh : s.fresh ≤ t.fresh)
    (hCurrent : ∀ key, key < s.fresh → (s.pending = some key → key = s.current) →
      t.pending = some key → key = t.current)
    (hPromoting : ∀ key, key < s.fresh → (s.pending = some key → s.agent = key) →
      t.pending = some key → t.agent = key) :
    PhaseOk t phase := by
  cases phase with
  | ready | done => trivial
  | rotating pending => exact fun key hEq => Nat.lt_of_lt_of_le (h key hEq) hFresh
  | completing current key | delivering current key =>
    exact ⟨Nat.lt_of_lt_of_le h.1 hFresh, hCurrent current h.1 h.2.1,
      Nat.lt_of_lt_of_le h.2.2 hFresh⟩
  | stored key | waiting key | checking key => exact Nat.lt_of_lt_of_le h hFresh
  | promoting key => exact ⟨Nat.lt_of_lt_of_le h.1 hFresh, hPromoting key h.1 h.2⟩

/-- A key is stored over an empty pending key: the current one, or one that nobody has. -/
theorem Inv.storeOverNone (h : Inv s) (hNone : s.pending = none) {fresh : Nat}
    (hFresh : s.fresh ≤ fresh) (hKey : key < fresh) (hOther : key = s.current ∨ s.fresh ≤ key) :
    Inv ({ s with fresh := fresh }.storePending key) := by
  have hAgent : s.agent = s.current := h.known.agent_eq hNone
  have hOld : ∀ other, other < s.fresh → some key = some other → other = s.current := by
    intro other hLt hEq
    have hSame : key = other := Option.some.inj hEq
    omega
  refine ⟨.inl hAgent, Nat.lt_of_lt_of_le h.current hFresh, ?_, ?_, ?_⟩
  · intro other hEq
    rw [← Option.some.inj hEq]
    exact hKey
  · intro r hr
    obtain ⟨hKnown, -, hLt⟩ := h.requests r hr
    refine ⟨fun hAuth => .inr ?_, hOld r.auth hLt, Nat.lt_of_lt_of_le hLt hFresh⟩
    rcases hKnown hAuth with hPending | hNew
    · rw [hNone] at hPending
      cases hPending
    · exact hNew
  · intro i
    refine (h.calls i).mono hFresh (fun other hLt _ => hOld other hLt) fun other hLt _ hEq => ?_
    rw [hOld other hLt hEq]
    exact hAgent

/-- The agent switches to the pending key. -/
theorem Inv.setAgent (h : Inv s) (hPending : s.pending = some key)
    (hNew : key ≠ s.agent) : Inv { s with agent := key } := by
  have hCurrent : s.current ≠ key := by
    intro hEq
    rcases h.known with hAgent | hAgent
    · exact hNew (hEq.symm.trans hAgent.symm)
    · exact hNew (Option.mem_unique hPending hAgent)
  refine ⟨.inr hPending, h.current, h.pending, ?_, ?_⟩
  · intro r hr
    obtain ⟨-, hAuth, hOld⟩ := h.requests r hr
    refine ⟨fun hKey => ?_, hAuth, hOld⟩
    have hKey : r.auth = key := hKey
    exact absurd (hAuth (by rw [hKey, hPending])) (by rw [hKey]; exact hCurrent.symm)
  · intro i
    refine (h.calls i).mono (Nat.le_refl _) (fun _ _ hSame => hSame) fun other _ _ hEq => ?_
    exact Option.mem_unique hPending hEq

/-- The agent obeys requests for keys that the panel knows. -/
theorem Inv.agentHandles (h : Inv s) {r : Request} (hr : RequestOk s r) :
    Inv (s.agentHandles r) := by
  unfold RotationState.agentHandles
  by_cases hAuth : r.auth = s.agent
  · rw [if_pos hAuth]
    by_cases hSame : r.new = s.agent
    · rw [hSame]
      exact h
    · exact h.setAgent ((hr.known hAuth).resolve_right hSame) hSame
  · rw [if_neg hAuth]
    exact h

/-- The key that is promoted is the agent's. -/
theorem Inv.promotePendingKey (h : Inv s) (hLt : key < s.fresh)
    (hAgent : s.agent = key) (hPending : s.pending = some key ∨ s.pending = none) :
    Inv (s.promotePendingKey key) := by
  refine ⟨.inl hAgent, hLt, nofun, ?_, ?_⟩
  · intro r hr
    obtain ⟨hKnown, -, hOld⟩ := h.requests r hr
    refine ⟨fun hAuth => .inr ?_, nofun, hOld⟩
    show r.new = s.agent
    rcases hKnown hAuth with hNew | hNew
    · rcases hPending with hPending | hPending
      · rw [hPending] at hNew
        rw [hAgent]
        exact (Option.some.inj hNew).symm
      · rw [hPending] at hNew
        cases hNew
    · exact hNew
  · intro i
    exact (h.calls i).mono (Nat.le_refl _) nofun
      nofun

end

/-! ## Undisturbed steps -/

/-- The pending key that a rotation has read and is about to store over. -/
def Phase.toStore? : Phase → Option (Option Nat)
  | .rotating pending => some pending
  | _ => none

/-- The key that a call is about to send. -/
def Phase.toSend? : Phase → Option Nat
  | .stored key | .delivering _ key => some key
  | _ => none

/-- The key that a call is about to promote. -/
def Phase.toPromote? : Phase → Option Nat
  | .promoting key => some key
  | _ => none

/-- No other call has taken the call's key out of the row meanwhile. A rotation that stores its
key finds the pending key that it read, or nothing pending and that key promoted; a key is sent
while it is pending or current, and promoted while it is pending, or current with nothing
pending. -/
def Undisturbed (s : RotationState) : RotationAction → Prop
  | .store i => ∀ pending ∈ (s.calls i).toStore?,
      s.pending = pending ∨ s.pending = none ∧ pending = some s.current
  | .send i => ∀ key ∈ (s.calls i).toSend?, s.pending = some key ∨ s.current = key
  | .promote i => ∀ key ∈ (s.calls i).toPromote?,
      s.pending = some key ∨ s.pending = none ∧ s.current = key
  | _ => True

instance (s : RotationState) : (a : RotationAction) → Decidable (Undisturbed s a)
  | .store i => inferInstanceAs (Decidable (∀ pending ∈ (s.calls i).toStore?, _))
  | .send i => inferInstanceAs (Decidable (∀ key ∈ (s.calls i).toSend?, _))
  | .promote i => inferInstanceAs (Decidable (∀ key ∈ (s.calls i).toPromote?, _))
  | .rotate _ | .complete _ | .handle _ _ | .timeout _ | .probe _ _ _ | .abandon _ =>
    inferInstanceAs (Decidable True)

section

variable {s t : RotationState} {i : Nat}

theorem inv_store (h : Inv s) (hOwn : Undisturbed s (.store i))
    (hStep : rotationStep s (.store i) = some t) : Inv t := by
  simp only [rotationStep] at hStep
  have hCall := h.calls i
  split at hStep
  · next key hPhase =>
    rw [hPhase] at hCall
    rw [← Option.some.inj hStep]
    have hKey : key < s.fresh := hCall key rfl
    rcases hOwn (some key) (by rw [hPhase]; rfl) with hPending | ⟨hNone, hCurrent⟩
    · exact (h.storeSame hPending).setCall hKey
    · exact (h.storeOverNone hNone (Nat.le_refl _) hKey
        (.inl (Option.some.inj hCurrent))).setCall hKey
  · next hPhase =>
    rw [← Option.some.inj hStep]
    rcases hOwn none (by rw [hPhase]; rfl) with hPending | ⟨-, hCurrent⟩
    · exact (h.storeOverNone hPending (Nat.le_succ _) (Nat.lt_succ_self _)
        (.inr (Nat.le_refl _))).setCall (Nat.lt_succ_self _)
    · cases hCurrent
  · cases hStep

/-- A request goes out to the agent. -/
theorem inv_send (h : Inv s) (hOwn : Undisturbed s (.send i))
    (hStep : rotationStep s (.send i) = some t) : Inv t := by
  simp only [rotationStep] at hStep
  have hCall := h.calls i
  split at hStep
  · next key hPhase =>
    rw [hPhase] at hCall
    rw [← Option.some.inj hStep]
    have hKey : key < s.fresh := hCall
    refine (h.sendRequest ⟨fun hAuth => ?_, fun _ => rfl, h.current⟩).setCall hKey
    have hAuth : s.current = s.agent := hAuth
    rcases hOwn key (by rw [hPhase]; rfl) with hPending | hCurrent
    · exact .inl hPending
    · exact .inr (hCurrent.symm.trans hAuth)
  · next current key hPhase =>
    rw [hPhase] at hCall
    rw [← Option.some.inj hStep]
    have hCall : current < s.fresh ∧ (s.pending = some current → current = s.current) ∧
        key < s.fresh := hCall
    refine (h.sendRequest ⟨fun hAuth => ?_, hCall.2.1, hCall.1⟩).setCall hCall.2.2
    have hAuth : current = s.agent := hAuth
    rcases hOwn key (by rw [hPhase]; rfl) with hPending | hCurrent
    · exact .inl hPending
    · rcases h.known with hKnown | hKnown
      · exact .inr (hCurrent.symm.trans hKnown.symm)
      · have hSame : current = s.current := hCall.2.1 (by rw [hAuth]; exact hKnown)
        exact .inr (hCurrent.symm.trans (hSame.symm.trans hAuth))
  · cases hStep

/-- The agent answers, or the answer is lost. -/
theorem inv_handle {n : Nat} {answered : Bool} (h : Inv s)
    (hStep : rotationStep s (.handle n answered) = some t) : Inv t := by
  simp only [rotationStep] at hStep
  split at hStep
  · next r hr =>
    have hMem := h.requests r (List.mem_of_getElem? hr)
    have hRest := h.dropRequests (List.eraseIdx_subset (l := s.requests) (k := n))
    have hHandled : Inv (({ s with requests := s.requests.eraseIdx n }).agentHandles r) :=
      hRest.agentHandles ⟨hMem.known, hMem.auth, hMem.old⟩
    rw [← Option.some.inj hStep]
    cases answered with
    | false => exact hHandled
    | true =>
      show Inv (answer _ r _)
      unfold answer
      split
      · next hWaiting =>
        have hKey : r.new < s.fresh := by
          have hCall := hHandled.calls r.caller
          rw [hWaiting] at hCall
          exact hCall
        refine hHandled.setCall ?_
        cases hAuth : r.auth == s.agent with
        | false => exact hKey
        | true =>
          refine ⟨hKey, fun _ => ?_⟩
          exact if_pos (beq_iff_eq.1 hAuth)
      · exact hHandled
  · cases hStep

/-- The probe tells which key the agent has. -/
theorem inv_probe {answered reloads : Bool} (h : Inv s)
    (hStep : rotationStep s (.probe i answered reloads) = some t) : Inv t := by
  obtain ⟨phase, hProbe, rfl⟩ := Option.map_eq_some_iff.1 hStep
  refine h.setCall ?_
  have hCall := h.calls i
  unfold afterProbe at hProbe
  split at hProbe
  · next current key hPhase =>
    rw [hPhase] at hCall
    have hCall : current < s.fresh ∧ (s.pending = some current → current = s.current) ∧
        key < s.fresh := hCall
    rw [← Option.some.inj hProbe]
    split
    · next hOnline =>
      rw [Bool.and_eq_true, beq_iff_eq] at hOnline
      exact ⟨hCall.2.2, fun _ => hOnline.2⟩
    · cases reloads with
      | false => exact hCall
      | true => exact ⟨h.current, fun _ => rfl, hCall.2.2⟩
  · next key hPhase =>
    rw [hPhase] at hCall
    rw [← Option.some.inj hProbe]
    split
    · next hOnline =>
      rw [Bool.and_eq_true, beq_iff_eq] at hOnline
      exact ⟨hCall, fun _ => hOnline.2⟩
    · trivial
  · cases hProbe

theorem inv_promote (h : Inv s) (hOwn : Undisturbed s (.promote i))
    (hStep : rotationStep s (.promote i) = some t) : Inv t := by
  simp only [rotationStep] at hStep
  have hCall := h.calls i
  split at hStep
  · next key hPhase =>
    rw [hPhase] at hCall
    have hCall : key < s.fresh ∧ (s.pending = some key → s.agent = key) := hCall
    rw [← Option.some.inj hStep]
    rcases hOwn key (by rw [hPhase]; rfl) with hPending | ⟨hNone, hCurrent⟩
    · exact (h.promotePendingKey hCall.1 (hCall.2 hPending) (.inl hPending)).setCall trivial
    · have hAgent : s.agent = key := (h.known.agent_eq hNone).trans hCurrent
      exact (h.promotePendingKey hCall.1 hAgent (.inr hNone)).setCall trivial
  · cases hStep

/-- One undisturbed step. -/
theorem inv_step {a : RotationAction} (h : Inv s) (hOwn : Undisturbed s a)
    (hStep : rotationStep s a = some t) : Inv t := by
  cases a with
  | rotate i =>
    simp only [rotationStep] at hStep
    split at hStep
    · rw [← Option.some.inj hStep]
      exact h.setCall h.pending
    · cases hStep
  | complete i =>
    -- a rotation that was left pending goes on with its own key
    simp only [rotationStep] at hStep
    split at hStep
    · next key _ hPending =>
      rw [← Option.some.inj hStep]
      exact h.setCall ⟨h.current, fun _ => rfl, h.pending key hPending⟩
    · rw [← Option.some.inj hStep]
      exact h.setCall trivial
    · cases hStep
  | store i => exact inv_store h hOwn hStep
  | send i => exact inv_send h hOwn hStep
  | handle n answered => exact inv_handle h hStep
  | timeout i =>
    simp only [rotationStep] at hStep
    have hCall := h.calls i
    split at hStep
    · next key hPhase =>
      rw [hPhase] at hCall
      rw [← Option.some.inj hStep]
      exact h.setCall hCall
    · next current key hPhase =>
      rw [hPhase] at hCall
      rw [← Option.some.inj hStep]
      exact h.setCall hCall.2.2
    · next key hPhase =>
      rw [hPhase] at hCall
      rw [← Option.some.inj hStep]
      exact h.setCall hCall
    · cases hStep
  | probe i answered reloads => exact inv_probe h hStep
  | promote i => exact inv_promote h hOwn hStep
  | abandon i =>
    rw [← Option.some.inj hStep]
    exact h.setCall trivial

end

/-! ## Runs -/

def Phase.inProgress : Phase → Bool
  | .ready | .done => false
  | _ => true

/-- No call has begun and the panel knows the agent's key. -/
structure Calm (s : RotationState) : Prop where
  calls : ∀ i, s.calls i = .ready
  requests : s.requests = []
  known : Known s
  current : s.current < s.fresh
  pending : ∀ key, s.pending = some key → key < s.fresh

theorem Calm.inv {s : RotationState} (h : Calm s) : Inv s where
  known := h.known
  current := h.current
  pending := h.pending
  requests := by
    intro r hr
    rw [h.requests] at hr
    cases hr
  calls := by
    intro i
    rw [h.calls i]
    trivial

/-- In undisturbed runs the panel never loses the agent's key, and when nothing is left to do it
is the current one. -/
theorem key_known {s t : RotationState} {run : List RotationAction} (hStart : Calm s)
    (hOwn : Along rotationStep Undisturbed s run) (hRun : exec rotationStep s run = some t) :
    Known t ∧ ((∀ i, (t.calls i).inProgress = false) → t.pending = none →
      t.agent = t.current) := by
  have hInv : Inv t :=
    Lib.invariant_exec (fun _ _ _ h hOwn hStep => inv_step h hOwn hStep) hStart.inv hOwn hRun
  exact ⟨hInv.known, fun _ hNone => hInv.known.agent_eq hNone⟩

/-- A node with key 0 and nothing pending. -/
def keyZero : RotationState := { current := 0, agent := 0, fresh := 1 }

theorem keyZero_calm : Calm keyZero where
  calls := fun _ => rfl
  requests := rfl
  known := .inl rfl
  current := Nat.zero_lt_one
  pending := nofun

/-- A rotation whose answer is lost; the probe finds the agent switched. -/
def lostAnswer : List RotationAction :=
  [.rotate 0, .store 0, .send 0, .handle 0 false, .timeout 0, .probe 0 true false, .promote 0]

theorem lost_answer_known :
    ∃ t, exec rotationStep keyZero lostAnswer = some t ∧
      Known t ∧ ((∀ i, (t.calls i).inProgress = false) → t.pending = none →
        t.agent = t.current) := by
  have hOwn : Along rotationStep Undisturbed keyZero lostAnswer := by decide
  exact ⟨_, rfl, key_known keyZero_calm hOwn rfl⟩

/-- Two rotations store a key of their own each. The agent takes the first, its answer and the
probe are lost, and the second is refused. -/
def overwrittenPending : List RotationAction :=
  [.rotate 0, .rotate 1, .store 0, .store 1, .send 0, .handle 0 false, .timeout 0,
    .probe 0 false false, .send 1, .handle 0 true, .probe 1 true false]

/-- A call that shares its pending key with another one is late to promote it: a third call has
moved the node to the next key. -/
def latePromotion : List RotationAction :=
  [.rotate 0, .store 0, .send 0, .handle 0 true, .rotate 1, .store 1, .send 1, .handle 0 true,
    .probe 1 true false, .promote 0, .rotate 2, .store 2, .send 2, .handle 0 true, .promote 2,
    .promote 1]

theorem agent_locked_out :
    (∃ t, exec rotationStep keyZero overwrittenPending = some t ∧ ¬ Known t) ∧
    ∃ t, exec rotationStep keyZero latePromotion = some t ∧
      (∀ i, (t.calls i).inProgress = false) ∧ t.pending = none ∧ t.agent ≠ t.current := by
  constructor
  · refine ⟨_, rfl, ?_⟩
    rintro (hCurrent | hPending)
    · revert hCurrent
      decide
    · revert hPending
      decide
  · refine ⟨_, rfl, ?_, rfl, by decide⟩
    intro i
    rcases i with _ | _ | _ | i <;> rfl

end AdminPanel.Nodes
