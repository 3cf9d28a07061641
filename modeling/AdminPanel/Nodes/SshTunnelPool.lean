import AdminPanel.Lib.PyText
import AdminPanel.Lib.Runs
import AdminPanel.Lib.Table

/-!
# The pool of SSH tunnels

`SshTunnelPool` keeps one SSH connection for each node. `_lock` guards the dictionary of sessions,
and `ensure` holds the lock of its node from the lookup to the end of the opening; the other calls
do not take that lock. Connections are opened and closed by a loop of its own, for which a call
waits a limited time.

* `Pool`, `step` — the pool, the calls in progress and the connections, by lock sections and by
  openings and closings;
* `PoolSafe` — no call leaves a connection behind, and none gives out a tunnel of others;
* `Pool.inTime` — an opening ends before its call gives up, and a closing reaches the connection;
* `Sound`, `sound_step` — every open connection is a session's or still in the hands of a call;
* `pool_safe` — runs that are in time;
* `late_opening_leaks` — an opening that outlives its call.
-/

namespace AdminPanel.SshTunnel

open List

open Lib (Table Along exec invariant_exec)
open Lib.PyText (strip)

/-! ## Nodes -/

structure SshNode where
  id : ℕ
  port : ℕ
  sshHost : Option String
  sshPort : ℕ
  sshUsername : Option String
  sshPrivateKeyEncrypted : String
  sshPassphraseEncrypted : String
  sshRemoteAgentHost : String
  sshRemoteAgentPort : Option ℕ
  deriving DecidableEq, Repr

structure Signature where
  host : List Char
  port : ℕ
  username : List Char
  keyEncrypted : String
  passphraseEncrypted : String
  remoteHost : List Char
  remotePort : ℕ
  deriving DecidableEq, Repr

def nodeSignature (node : SshNode) : Signature where
  host := strip (node.sshHost.getD "").toList
  port := node.sshPort
  username := strip (node.sshUsername.getD "").toList
  keyEncrypted := node.sshPrivateKeyEncrypted
  passphraseEncrypted := node.sshPassphraseEncrypted
  remoteHost :=
    strip (if node.sshRemoteAgentHost = "" then "127.0.0.1" else node.sshRemoteAgentHost).toList
  remotePort := (node.sshRemoteAgentPort.filter (· ≠ 0)).getD node.port

/-! ## The pool -/

/-- A connection with its listener, and for whom it has been opened. -/
structure Connection where
  node : ℕ
  signature : Signature
  localPort : ℕ
  closed : Bool := false
  deriving DecidableEq, Repr

/-- `_TunnelSession`. The connection is one by its number. -/
structure TunnelSession where
  signature : Signature
  connection : ℕ
  localPort : ℕ
  lastUsed : ℤ
  deriving DecidableEq, Repr

structure EnsureResult where
  localPort : ℕ
  discoveredHostKeyText : Option String
  deriving DecidableEq, Repr

/-- What the calls share, and all connections ever opened. -/
structure Tunnels where
  connections : List Connection
  sessions : Table ℕ TunnelSession
  closed : Bool
  /-- The loop runs. -/
  looping : Bool

section

variable (t : Tunnels)

def Tunnels.isOpen (c : ℕ) : Bool :=
  (t.connections[c]?).any fun connection => !connection.closed

def Tunnels.isAlive (session : TunnelSession) : Bool := t.isOpen session.connection

/-- The connection is gone, by `close` or by the other side. -/
def Tunnels.lose (c : ℕ) : Tunnels :=
  { t with connections := t.connections.modify c ({ · with closed := true }) }

/-- The arguments of `ensure`. -/
structure EnsureRequest where
  node : ℕ
  signature : Signature
  deriving DecidableEq, Repr

/-- Where a call stands. -/
inductive Phase
  /-- `ensure` before its node's lock. -/
  | waiting (request : EnsureRequest)
  | locked (request : EnsureRequest) (now : ℤ)
  /-- The session found has been taken out and is being closed. -/
  | replacing (request : EnsureRequest) (now : ℤ) (current : TunnelSession)
  | connecting (request : EnsureRequest) (now : ℤ)
  /-- The opening has ended, and its result is to be stored. -/
  | connected (request : EnsureRequest) (session : TunnelSession) (hostKey : Option String)
  /-- The pool has been closed meanwhile. -/
  | refused (request : EnsureRequest) (session : TunnelSession)
  | returned (request : EnsureRequest) (session : TunnelSession) (result : EnsureResult)
  /-- `ensure` has raised on its timeout, and the opening has not been cancelled yet. -/
  | givenUp (request : EnsureRequest)
  | raised
  | drop (nodeId : ℕ)
  | dropAll (final : Bool)
  | expireIdle (cutoff : Option ℤ)
  | closing (sessions : List TunnelSession) (final : Bool)
  | shutdown
  | stopping
  | ended
  deriving DecidableEq, Repr

/-- The call has come back to its caller. -/
def Phase.over : Phase → Bool
  | .returned .. | .givenUp .. | .raised | .ended => true
  | _ => false

def Phase.isGivenUp : Phase → Bool
  | .givenUp _ => true
  | _ => false

/-- The node whose lock the call holds. -/
def Phase.nodeLock : Phase → Option ℕ
  | .locked request _ | .replacing request .. | .connecting request _ | .connected request ..
  | .refused request _ => some request.node
  | _ => none

structure Pool where
  tunnels : Tunnels
  calls : List Phase

/-- `SshTunnelPool()` -/
def newPool : Pool := ⟨⟨[], .empty, false, true⟩, []⟩

/-! ## Lock sections -/

/-- The first section of `ensure`. -/
def lookUp (request : EnsureRequest) (now : ℤ) : Tunnels × Phase :=
  if t.closed then (t, .raised)
  else
    match t.sessions.row? request.node with
    | none => (t, .connecting request now)
    | some current =>
      if current.signature = request.signature && t.isAlive current then
        ({ t with sessions := t.sessions.set request.node { current with lastUsed := now } },
          .returned request current ⟨current.localPort, none⟩)
      else ({ t with sessions := t.sessions.erase request.node }, .replacing request now current)

/-- The second section of `ensure`. -/
def store (request : EnsureRequest) (session : TunnelSession) (hostKey : Option String) :
    Tunnels × Phase :=
  if t.closed then (t, .refused request session)
  else
    ({ t with sessions := t.sessions.set request.node session },
      .returned request session ⟨session.localPort, hostKey⟩)

/-- Sessions are taken out to be closed, for a `final` time by a shutdown. -/
def takeOut (doomed : ℕ → TunnelSession → Bool) (final : Bool) : Tunnels × Phase :=
  ({ t with sessions := t.sessions.filter fun nodeId session => !doomed nodeId session },
    .closing ((t.sessions.filter doomed).keys.filterMap t.sessions.row?) final)

/-- `expire_idle` -/
def isExpired (cutoff : Option ℤ) (session : TunnelSession) : Bool :=
  cutoff.any (fun cutoff => session.lastUsed ≤ cutoff) || !t.isAlive session

/-- The next lock section of a call. -/
def lockSection : Phase → Option (Tunnels × Phase)
  | .locked request now => some (lookUp t request now)
  | .connected request session hostKey => some (store t request session hostKey)
  | .drop nodeId => some (takeOut t (fun node _ => node = nodeId) false)
  | .dropAll final => some (takeOut t (fun _ _ => true) final)
  | .expireIdle cutoff => some (takeOut t (fun _ session => isExpired t cutoff session) false)
  | .shutdown =>
    if t.closed then some (t, .ended) else some ({ t with closed := true }, .dropAll true)
  | .closing [] final => some (t, if final then .stopping else .ended)
  | .stopping => some ({ t with looping := false }, .ended)
  | _ => none

/-! ## Openings and closings -/

def Tunnels.connect (request : EnsureRequest) (localPort : ℕ) : Tunnels :=
  { t with connections := t.connections ++ [{ request with localPort }] }

/-- `_open_session` on its result -/
def opened (localPort : ℕ) (hostKey : Option String) : Phase → Option (Tunnels × Phase)
  | .connecting request now =>
    some (t.connect request localPort,
      .connected request ⟨request.signature, t.connections.length, localPort, now⟩ hostKey)
  -- nobody takes the result
  | .givenUp request => some (t.connect request localPort, .raised)
  | _ => none

/-- The session that the call closes next, and where it goes on. -/
def Phase.closes : Phase → Option (TunnelSession × Phase)
  | .replacing request now current => some (current, .connecting request now)
  | .refused _ session => some (session, .raised)
  | .closing (session :: rest) final => some (session, .closing rest final)
  | _ => none

/-- `_close_session_async` closes the listener, waits for it and closes the connection. It runs on
the loop, and `hangs` when that wait outlasts the timeout or raises. -/
def closeSession (session : TunnelSession) (hangs : Bool) : Tunnels :=
  if t.looping && !hangs then t.lose session.connection else t

/-! ## Steps -/

/-- What a call does next, or what becomes of it. -/
inductive Event
  /-- It gets its node's lock, at a time. -/
  | lock (now : ℤ)
  | section
  | close (hangs : Bool)
  | opened (localPort : ℕ) (hostKey : Option String)
  /-- The opening raised or was cancelled, and has closed what it had opened. -/
  | openFails
  | timeOut
  deriving DecidableEq, Repr

def isFree (calls : List Phase) (nodeId : ℕ) : Bool :=
  calls.all fun phase => phase.nodeLock ≠ some nodeId

def turn (calls : List Phase) (phase : Phase) : Event → Option (Tunnels × Phase)
  | .lock now =>
    match phase with
    | .waiting request => if isFree calls request.node then some (t, .locked request now) else none
    | _ => none
  | .section => lockSection t phase
  | .close hangs => phase.closes.map fun (session, next) => (closeSession t session hangs, next)
  | .opened localPort hostKey => if t.looping then opened t localPort hostKey phase else none
  | .openFails =>
    match phase with
    | .connecting .. | .givenUp .. => some (t, .raised)
    | _ => none
  | .timeOut =>
    match phase with
    | .connecting request _ => some (t, .givenUp request)
    | _ => none

inductive Action
  | ensure (node : SshNode)
  | drop (nodeId : ℕ)
  | dropAll
  | expireIdle (cutoff : Option ℤ)
  | shutdown
  | turn (i : ℕ) (event : Event)
  /-- A connection is lost. -/
  | lose (c : ℕ)
  deriving DecidableEq, Repr

def Pool.begin (s : Pool) (phase : Phase) : Pool := { s with calls := s.calls ++ [phase] }

def step (s : Pool) : Action → Option Pool
  | .ensure node => some (s.begin (.waiting ⟨node.id, nodeSignature node⟩))
  | .drop nodeId => some (s.begin (.drop nodeId))
  | .dropAll => some (s.begin (.dropAll false))
  | .expireIdle cutoff => some (s.begin (.expireIdle cutoff))
  | .shutdown => some (s.begin .shutdown)
  | .turn i event =>
    (s.calls[i]?).bind fun phase =>
      (turn s.tunnels s.calls phase event).map fun (t, next) => ⟨t, s.calls.set i next⟩
  | .lose c => some { s with tunnels := s.tunnels.lose c }

/-! ## What is promised -/

/-- The connections that the call has opened or taken out, and has not closed yet. -/
def Phase.held : Phase → List ℕ
  | .replacing _ _ session | .connected _ session _ | .refused _ session => [session.connection]
  | .closing sessions _ => sessions.map (·.connection)
  | _ => []

def Pool.isQuiet (s : Pool) : Bool := s.calls.all Phase.over

/-- The connection is the stored session of the node. -/
def Tunnels.Stores (nodeId c : ℕ) : Prop :=
  ∃ session, t.sessions.row? nodeId = some session ∧ session.connection = c

/-- The session is one of a connection that was opened for the request. -/
def Tunnels.Serves (request : EnsureRequest) (session : TunnelSession) : Prop :=
  ∃ connection, t.connections[session.connection]? = some connection ∧
    connection.node = request.node ∧ connection.signature = request.signature ∧
    connection.localPort = session.localPort ∧ session.signature = request.signature

end

structure PoolSafe (s : Pool) : Prop where
  /-- With no call in progress an open connection is the session of one node. -/
  kept : s.isQuiet → ∀ c, s.tunnels.isOpen c → ∃! nodeId, s.tunnels.Stores nodeId c
  /-- `ensure` returns the port of a connection opened with its node's signature. -/
  own : ∀ request session result, .returned request session result ∈ s.calls →
    s.tunnels.Serves request session ∧ result.localPort = session.localPort
  /-- No two open connections of a node are left behind. -/
  single : ∀ c c' a b, s.tunnels.connections[c]? = some a → s.tunnels.connections[c']? = some b →
    a.closed = false → b.closed = false → a.node = b.node →
    (∀ phase ∈ s.calls, c ∉ phase.held ∧ c' ∉ phase.held) → c = c'
  /-- After a shutdown no connection is open. -/
  shut : s.tunnels.closed → s.isQuiet → ∀ c, ¬ s.tunnels.isOpen c

/-- An opening does not outlive its call, and what closes an open connection gets to it. -/
def Pool.inTime (s : Pool) : Action → Bool
  | .turn i (.opened ..) => !(s.calls[i]?).any Phase.isGivenUp
  | .turn i (.close hangs) => ((s.calls[i]?).bind Phase.closes).all fun (session, _) =>
    !s.tunnels.isAlive session || s.tunnels.looping && !hangs
  | _ => true

/-! ## Connections -/

/-- The connections of `t` are those of `t'`, closed or not. -/
def Tunnels.Grows (t t' : Tunnels) : Prop :=
  ∀ (c : ℕ) (a : Connection), t.connections[c]? = some a →
    ∃ closed : Bool, t'.connections[c]? = some { a with closed := closed }

variable {t t' : Tunnels} {s : Pool} {phase next : Phase} {c i : ℕ}

theorem Tunnels.grows_of_eq (h : t'.connections = t.connections) : t.Grows t' :=
  fun _ connection hAt => ⟨connection.closed, h ▸ hAt⟩

theorem Tunnels.Serves.mono {request : EnsureRequest} {session : TunnelSession}
    (h : t.Serves request session) (hGrows : t.Grows t') : t'.Serves request session := by
  obtain ⟨connection, hAt, hFields⟩ := h
  obtain ⟨closed, hAt'⟩ := hGrows _ _ hAt
  exact ⟨_, hAt', hFields⟩

theorem Tunnels.isOpen_iff :
    t.isOpen c = true ↔ ∃ a, t.connections[c]? = some a ∧ a.closed = false := by
  unfold Tunnels.isOpen
  cases t.connections[c]? <;> simp

theorem Tunnels.isOpen_of_eq (h : t'.connections = t.connections) : t'.isOpen c = t.isOpen c := by
  rw [Tunnels.isOpen, Tunnels.isOpen, h]

theorem Tunnels.grows_lose (t : Tunnels) (c : ℕ) : t.Grows (t.lose c) := by
  intro x connection hAt
  rw [Tunnels.lose, List.getElem?_modify, hAt]
  by_cases hSame : c = x
  · exact ⟨true, by simp [hSame]⟩
  · exact ⟨connection.closed, by simp [hSame]⟩

theorem Tunnels.isOpen_lose {x : ℕ} : (t.lose c).isOpen x = true ↔ t.isOpen x = true ∧ x ≠ c := by
  rw [Tunnels.isOpen_iff, Tunnels.isOpen_iff, Tunnels.lose, List.getElem?_modify]
  by_cases hSame : c = x
  · cases t.connections[x]? <;> simp [hSame]
  · have hOther : x ≠ c := fun h => hSame h.symm
    cases t.connections[x]? <;> simp [hSame, hOther]

theorem Tunnels.grows_connect (t : Tunnels) (request : EnsureRequest) (localPort : ℕ) :
    t.Grows (t.connect request localPort) :=
  fun _ connection hAt => ⟨connection.closed, List.getElem?_append_left
    (List.getElem?_eq_some_iff.mp hAt).1 |>.trans hAt⟩

theorem Tunnels.isOpen_connect {request : EnsureRequest} {localPort : ℕ}
    (h : (t.connect request localPort).isOpen c = true) :
    t.isOpen c = true ∨ c = t.connections.length := by
  obtain ⟨a, hAt, hOpen⟩ := Tunnels.isOpen_iff.mp h
  rw [Tunnels.connect, List.getElem?_append] at hAt
  split_ifs at hAt with hOld
  · exact .inl (Tunnels.isOpen_iff.mpr ⟨a, hAt, hOpen⟩)
  · have hNew : c - t.connections.length = 0 := by
      have hBound := (List.getElem?_eq_some_iff.mp hAt).1
      rw [length_singleton] at hBound
      omega
    exact .inr (by omega)

/-! ## The invariant -/

/-- The node for which the call is about to store a session. -/
def Phase.fills : Phase → Option ℕ
  | .replacing request .. | .connecting request _ | .connected request .. => some request.node
  | _ => none

/-- The session in the hands of `ensure` is one of its request. -/
def Phase.Fits (t : Tunnels) : Phase → Prop
  | .connected request session _ | .refused request session => t.Serves request session
  | .returned request session result =>
    t.Serves request session ∧ result.localPort = session.localPort
  | _ => True

structure Sound (s : Pool) : Prop where
  stored : ∀ nodeId session, s.tunnels.sessions.row? nodeId = some session →
    s.tunnels.Serves ⟨nodeId, session.signature⟩ session
  owned : ∀ c, s.tunnels.isOpen c →
    (∃ nodeId, s.tunnels.Stores nodeId c) ∨ ∃ phase ∈ s.calls, c ∈ phase.held
  fits : ∀ phase ∈ s.calls, phase.Fits s.tunnels
  vacant : ∀ phase ∈ s.calls, ∀ nodeId, phase.fills = some nodeId →
    s.tunnels.sessions.row? nodeId = none
  exclusive : ∀ (i j : ℕ) (p q : Phase) (nodeId : ℕ), s.calls[i]? = some p → s.calls[j]? = some q →
    p.nodeLock = some nodeId → q.nodeLock = some nodeId → i = j
  shut : s.tunnels.closed → (∀ nodeId, s.tunnels.sessions.row? nodeId = none) ∨
    .dropAll true ∈ s.calls

/-- What a turn of one call does to the rest. -/
structure Moves (s : Pool) (phase : Phase) (t : Tunnels) (next : Phase) : Prop where
  grows : s.tunnels.Grows t
  stored : ∀ nodeId session, t.sessions.row? nodeId = some session →
    t.Serves ⟨nodeId, session.signature⟩ session
  fresh : ∀ c, t.isOpen c → s.tunnels.isOpen c ∨ c ∈ next.held
  keeps : ∀ nodeId c, s.tunnels.Stores nodeId c → t.Stores nodeId c ∨ c ∈ next.held
  hands : ∀ c ∈ phase.held, t.isOpen c → (∃ nodeId, t.Stores nodeId c) ∨ c ∈ next.held
  fits : next.Fits t
  vacant : ∀ nodeId, next.fills = some nodeId → t.sessions.row? nodeId = none
  filled : ∀ nodeId, s.tunnels.sessions.row? nodeId = none →
    t.sessions.row? nodeId = none ∨ phase.fills = some nodeId ∧ s.tunnels.closed = false
  locks : ∀ nodeId, next.nodeLock = some nodeId →
    phase.nodeLock = some nodeId ∨ isFree s.calls nodeId
  shut : t.closed → next = .dropAll true ∨ (∀ nodeId, t.sessions.row? nodeId = none) ∨
    s.tunnels.closed ∧ phase ≠ .dropAll true

theorem Phase.nodeLock_of_fills {nodeId : ℕ} (h : phase.fills = some nodeId) :
    phase.nodeLock = some nodeId := by
  cases phase <;> simp_all [Phase.fills, Phase.nodeLock]

variable {calls : List Phase}

theorem of_mem_set {q : Phase} (h : q ∈ calls.set i next) :
    q = next ∨ ∃ j, j ≠ i ∧ calls[j]? = some q := by
  obtain ⟨j, hAt⟩ := mem_iff_getElem?.mp h
  rw [List.getElem?_set] at hAt
  split_ifs at hAt with hSame hBound
  · exact .inl (Option.some.inj hAt).symm
  · exact .inr ⟨j, Ne.symm hSame, hAt⟩

theorem mem_set_of_ne {q : Phase} {j : ℕ} (hAt : calls[j]? = some q)
    (hOther : j ≠ i) : q ∈ calls.set i next := by
  rw [mem_iff_getElem?]
  exact ⟨j, by rw [List.getElem?_set_ne hOther.symm, hAt]⟩

theorem mem_set_self (hAt : calls[i]? = some phase) : next ∈ calls.set i next :=
  mem_set (List.getElem?_eq_some_iff.mp hAt).1 next

/-- A turn that moves so keeps the pool sound. -/
theorem sound_of_moves (hSound : Sound s) (hAt : s.calls[i]? = some phase)
    (hMoves : Moves s phase t next) : Sound ⟨t, s.calls.set i next⟩ where
  stored := hMoves.stored
  owned := by
    intro c hOpen
    have hNext : c ∈ next.held → ∃ q ∈ s.calls.set i next, c ∈ q.held := fun hHeld =>
      ⟨next, mem_set_self hAt, hHeld⟩
    rcases hMoves.fresh c hOpen with hOld | hNew
    · rcases hSound.owned c hOld with ⟨nodeId, hStores⟩ | ⟨q, hMem, hHeld⟩
      · exact (hMoves.keeps nodeId c hStores).imp (fun hStill => ⟨nodeId, hStill⟩) hNext
      · obtain ⟨j, hAtJ⟩ := mem_iff_getElem?.mp hMem
        by_cases hSame : j = i
        · obtain rfl : q = phase := Option.mem_unique hAtJ (hSame ▸ hAt)
          exact (hMoves.hands c hHeld hOpen).imp id hNext
        · exact .inr ⟨q, mem_set_of_ne hAtJ hSame, hHeld⟩
    · exact .inr (hNext hNew)
  fits := by
    intro q hMem
    rcases of_mem_set hMem with rfl | ⟨j, -, hAtJ⟩
    · exact hMoves.fits
    · have hFits := hSound.fits q (mem_of_getElem? hAtJ)
      cases q with
      | connected | refused => exact hFits.mono hMoves.grows
      | returned => exact ⟨hFits.1.mono hMoves.grows, hFits.2⟩
      | _ => trivial
  vacant := by
    intro q hMem nodeId hFills
    rcases of_mem_set hMem with rfl | ⟨j, hOther, hAtJ⟩
    · exact hMoves.vacant nodeId hFills
    · have hNone := hSound.vacant q (mem_of_getElem? hAtJ) nodeId hFills
      refine (hMoves.filled nodeId hNone).resolve_right fun hFilled => hOther ?_
      exact hSound.exclusive j i q phase nodeId hAtJ hAt (Phase.nodeLock_of_fills hFills)
        (Phase.nodeLock_of_fills hFilled.1)
  exclusive := by
    -- a lock that the turn takes is free, and one that it keeps was the call's
    have hMine : ∀ (j : ℕ) (q : Phase) (nodeId : ℕ), j ≠ i → s.calls[j]? = some q →
        next.nodeLock = some nodeId → q.nodeLock ≠ some nodeId := by
      intro j q nodeId hOther hAtJ hNext hLock
      rcases hMoves.locks nodeId hNext with hOld | hFree
      · exact hOther (hSound.exclusive j i q phase nodeId hAtJ hAt hLock hOld)
      · have hAll := all_eq_true.mp hFree q (mem_of_getElem? hAtJ)
        exact of_decide_eq_true hAll hLock
    intro j k p q nodeId hJ hK hP hQ
    rw [List.getElem?_set] at hJ hK
    split_ifs at hJ hK with hIJ hBound hIK _ hIK
    · exact hIJ.symm.trans hIK
    · exact absurd hQ (hMine k q nodeId (Ne.symm hIK) hK (Option.some.inj hJ ▸ hP))
    · exact absurd hP (hMine j p nodeId (Ne.symm hIJ) hJ (Option.some.inj hK ▸ hQ))
    · exact hSound.exclusive j k p q nodeId hJ hK hP hQ
  shut := by
    intro hClosed
    rcases hMoves.shut hClosed with rfl | hNone | ⟨hBefore, hOther⟩
    · exact .inr (mem_set_self hAt)
    · exact .inl hNone
    · rcases hSound.shut hBefore with hNone | hMem
      · refine .inl fun nodeId => (hMoves.filled nodeId (hNone nodeId)).resolve_right ?_
        rintro ⟨-, hOpen⟩
        exact absurd (hBefore.symm.trans hOpen) Bool.noConfusion
      · obtain ⟨j, hAtJ⟩ := mem_iff_getElem?.mp hMem
        refine .inr (mem_set_of_ne hAtJ ?_)
        rintro rfl
        exact hOther (Option.mem_unique hAt hAtJ)

/-! ## Turns -/

section

variable {request : EnsureRequest} {session : TunnelSession} {now : ℤ} {hostKey : Option String}

/-- A turn that leaves the connections and the sessions as they are. -/
theorem moves_same (hSound : Sound s) (hConnections : t.connections = s.tunnels.connections)
    (hSessions : t.sessions = s.tunnels.sessions) (hHeld : phase.held ⊆ next.held)
    (hFits : next.Fits t)
    (hVacant : ∀ nodeId, next.fills = some nodeId → t.sessions.row? nodeId = none)
    (hLocks : ∀ nodeId, next.nodeLock = some nodeId →
      phase.nodeLock = some nodeId ∨ isFree s.calls nodeId)
    (hShut : t.closed → next = .dropAll true ∨ s.tunnels.closed ∧ phase ≠ .dropAll true) :
    Moves s phase t next where
  grows := Tunnels.grows_of_eq hConnections
  stored := fun nodeId session hRow =>
    (hSound.stored nodeId session (hSessions ▸ hRow)).mono (Tunnels.grows_of_eq hConnections)
  fresh := fun c hOpen => .inl (Tunnels.isOpen_of_eq hConnections ▸ hOpen)
  keeps := fun _ _ hStores => .inl (by rwa [Tunnels.Stores, hSessions])
  hands := fun _ hMem _ => .inr (hHeld hMem)
  fits := hFits
  vacant := hVacant
  filled := fun _ hNone => .inl (hSessions ▸ hNone)
  locks := hLocks
  shut := fun hClosed => (hShut hClosed).imp id .inr

/-- A turn that takes sessions out and keeps their connections in hand. -/
theorem moves_out (hSound : Sound s) {sessions : Table ℕ TunnelSession}
    (hSub : ∀ nodeId session, sessions.row? nodeId = some session →
      s.tunnels.sessions.row? nodeId = some session)
    (hOut : ∀ nodeId session, s.tunnels.sessions.row? nodeId = some session →
      sessions.row? nodeId = some session ∨ session.connection ∈ next.held)
    (hHeld : phase.held = []) (hFits : next.Fits { s.tunnels with sessions := sessions })
    (hVacant : ∀ nodeId, next.fills = some nodeId → sessions.row? nodeId = none)
    (hLocks : ∀ nodeId, next.nodeLock = some nodeId → phase.nodeLock = some nodeId)
    (hShut : s.tunnels.closed → (∀ nodeId, sessions.row? nodeId = none) ∨
      phase ≠ .dropAll true) :
    Moves s phase { s.tunnels with sessions := sessions } next where
  grows := Tunnels.grows_of_eq rfl
  stored := fun nodeId session hRow => hSound.stored nodeId session (hSub _ _ hRow)
  fresh := fun _ hOpen => .inl hOpen
  keeps := by
    rintro nodeId _ ⟨session, hRow, rfl⟩
    exact (hOut nodeId session hRow).imp (fun hStays => ⟨session, hStays, rfl⟩) id
  hands := fun _ hMem => absurd (hHeld ▸ hMem) not_mem_nil
  fits := hFits
  vacant := hVacant
  filled := by
    intro nodeId hNone
    refine .inl (Option.eq_none_iff_forall_ne_some.mpr fun session hRow => ?_)
    exact absurd (hNone.symm.trans (hSub nodeId session hRow)) nofun
  locks := fun nodeId hLock => .inl (hLocks nodeId hLock)
  shut := fun hClosed => .inr ((hShut hClosed).imp id fun hOther => ⟨hClosed, hOther⟩)

/-- A turn that stores a session, the one that is there or the first. -/
theorem moves_in (hSound : Sound s) {result : EnsureResult}
    (hServes : s.tunnels.Serves request session) (hPort : result.localPort = session.localPort)
    (hOld : ∀ old, s.tunnels.sessions.row? request.node = some old →
      old.connection = session.connection)
    (hFills : s.tunnels.sessions.row? request.node = none → phase.fills = some request.node)
    (hHeld : ∀ c ∈ phase.held, c = session.connection) (hOpen : s.tunnels.closed = false)
    {returned : TunnelSession} (hSame : returned.connection = session.connection ∧
      returned.localPort = session.localPort ∧ returned.signature = session.signature) :
    Moves s phase { s.tunnels with sessions := s.tunnels.sessions.set request.node session }
      (.returned request returned result) where
  grows := Tunnels.grows_of_eq rfl
  stored := by
    intro nodeId other hRow
    rw [Table.row?_set] at hRow
    split_ifs at hRow with hNode
    · cases hRow
      obtain ⟨connection, hAt, hOf, hSignature, hFields, hBoth⟩ := hServes
      exact ⟨connection, hAt, hOf.trans hNode.symm, hSignature.trans hBoth.symm, hFields, rfl⟩
    · exact hSound.stored nodeId other hRow
  fresh := fun _ hOpen => .inl hOpen
  keeps := by
    rintro nodeId _ ⟨old, hRow, rfl⟩
    refine .inl ?_
    by_cases hNode : nodeId = request.node
    · subst hNode
      exact ⟨session, Table.row?_set_self _ _ _, (hOld old hRow).symm⟩
    · exact ⟨old, (Table.row?_set_of_ne _ _ hNode).trans hRow, rfl⟩
  hands := fun c hMem _ => .inl ⟨request.node, session, Table.row?_set_self _ _ _,
    (hHeld c hMem).symm⟩
  fits := by
    obtain ⟨connection, hAt, hOf, hSignature, hFields, hBoth⟩ := hServes
    obtain ⟨hConnection, hLocal, hSigned⟩ := hSame
    exact ⟨⟨connection, hConnection ▸ hAt, hOf, hSignature, hFields.trans hLocal.symm,
      hSigned.trans hBoth⟩, hPort.trans hLocal.symm⟩
  vacant := nofun
  filled := by
    intro nodeId hNone
    by_cases hNode : nodeId = request.node
    · subst hNode
      exact .inr ⟨hFills hNone, hOpen⟩
    · exact .inl ((Table.row?_set_of_ne _ _ hNode).trans hNone)
  locks := nofun
  shut := fun hClosed => absurd (hOpen.symm.trans hClosed) Bool.noConfusion

/-- The first section of `ensure`. -/
theorem lookUp_moves (hSound : Sound s) :
    Moves s (.locked request now) (lookUp s.tunnels request now).1
      (lookUp s.tunnels request now).2 := by
  unfold lookUp
  by_cases hClosed : s.tunnels.closed = true
  · rw [if_pos hClosed]
    exact moves_same hSound rfl rfl (nil_subset _) trivial nofun nofun
      fun _ => .inr ⟨hClosed, nofun⟩
  rw [if_neg hClosed]
  cases hRow : s.tunnels.sessions.row? request.node with
  | none =>
    refine moves_same hSound rfl rfl (nil_subset _) trivial ?_ (fun _ h => .inl h)
      (absurd · hClosed)
    rintro nodeId ⟨⟩
    exact hRow
  | some current =>
    dsimp only
    split_ifs with hReuse
    · rw [Bool.and_eq_true, decide_eq_true_eq] at hReuse
      have hServes : s.tunnels.Serves request { current with lastUsed := now } := by
        have hStored := hSound.stored request.node current hRow
        rw [hReuse.1] at hStored
        exact hStored
      refine moves_in hSound hServes rfl ?_ ?_ ?_ (Bool.eq_false_iff.mpr hClosed) ⟨rfl, rfl, rfl⟩
      · intro old hOld
        rw [Option.mem_unique hOld hRow]
      · exact fun hNone => absurd (hRow.symm.trans hNone) nofun
      · exact nofun
    · refine moves_out hSound ?_ ?_ rfl trivial ?_ (fun _ h => h) (fun _ => .inr nofun)
      · intro nodeId session hStays
        rw [Table.row?_erase] at hStays
        split_ifs at hStays
        exact hStays
      · intro nodeId session hOld
        by_cases hNode : nodeId = request.node
        · subst hNode
          rw [Option.mem_unique hOld hRow]
          exact .inr (mem_singleton_self _)
        · exact .inl (by rw [Table.row?_erase, if_neg hNode, hOld])
      · rintro nodeId ⟨⟩
        rw [Table.row?_erase, if_pos rfl]

theorem store_moves (hSound : Sound s) (hMem : .connected request session hostKey ∈ s.calls) :
    Moves s (.connected request session hostKey) (store s.tunnels request session hostKey).1
      (store s.tunnels request session hostKey).2 := by
  have hServes : s.tunnels.Serves request session := hSound.fits _ hMem
  have hVacant := hSound.vacant _ hMem request.node rfl
  unfold store
  by_cases hClosed : s.tunnels.closed = true
  · rw [if_pos hClosed]
    exact moves_same hSound rfl rfl (List.Subset.refl _) hServes nofun (fun _ h => .inl h)
      fun _ => .inr ⟨hClosed, nofun⟩
  · rw [if_neg hClosed]
    refine moves_in hSound hServes rfl ?_ (fun _ => rfl) ?_ (Bool.eq_false_iff.mpr hClosed)
      ⟨rfl, rfl, rfl⟩
    · exact fun old hOld => absurd (hVacant.symm.trans hOld) nofun
    · exact fun c hMem => mem_singleton.mp hMem

/-- Sessions are taken out under the lock and closed after it. -/
theorem takeOut_moves (hSound : Sound s) {doomed : ℕ → TunnelSession → Bool} {final : Bool}
    (hHeld : phase.held = []) (hShut : phase ≠ .dropAll true ∨ ∀ nodeId session,
      doomed nodeId session = true) :
    Moves s phase (takeOut s.tunnels doomed final).1 (takeOut s.tunnels doomed final).2 := by
  refine moves_out hSound ?_ ?_ hHeld trivial nofun nofun ?_
  · intro nodeId session hStays
    exact (Option.filter_eq_some_iff.mp hStays).1
  · intro nodeId session hRow
    cases hDoomed : doomed nodeId session with
    | false => exact .inl (Option.filter_eq_some_iff.mpr ⟨hRow, by simp [hDoomed]⟩)
    | true =>
      have hTaken : (s.tunnels.sessions.filter doomed).row? nodeId = some session :=
        Option.filter_eq_some_iff.mpr ⟨hRow, hDoomed⟩
      refine .inr (mem_map_of_mem (mem_filterMap.mpr ⟨nodeId, ?_, hRow⟩))
      exact Table.mem_keys_of_row? hTaken
  · intro _
    rcases hShut with hOther | hAll
    · exact .inr hOther
    · refine .inl fun nodeId => Option.filter_eq_none_iff.mpr fun session _ => ?_
      simp [hAll]

/-- A section under the lock is one move. -/
theorem lockSection_moves (hSound : Sound s) (hMem : phase ∈ s.calls)
    {out : Tunnels × Phase} (hTurn : lockSection s.tunnels phase = some out) :
    Moves s phase out.1 out.2 := by
  cases phase with
  | locked request now =>
    cases hTurn
    exact lookUp_moves hSound
  | connected request session hostKey =>
    cases hTurn
    exact store_moves hSound hMem
  | drop nodeId =>
    cases hTurn
    exact takeOut_moves hSound rfl (.inl nofun)
  | dropAll final =>
    cases hTurn
    exact takeOut_moves hSound rfl (.inr fun _ _ => rfl)
  | expireIdle cutoff =>
    cases hTurn
    exact takeOut_moves hSound rfl (.inl nofun)
  | shutdown =>
    unfold lockSection at hTurn
    split_ifs at hTurn with hClosed <;> cases hTurn
    · exact moves_same hSound rfl rfl (nil_subset _) trivial nofun nofun
        fun _ => .inr ⟨hClosed, nofun⟩
    · exact moves_same hSound rfl rfl (nil_subset _) trivial nofun nofun
        fun _ => .inl rfl
  | closing sessions final =>
    cases sessions with
    | cons session rest => cases hTurn
    | nil =>
      cases hTurn
      cases final <;>
      exact moves_same hSound rfl rfl (nil_subset _) trivial nofun nofun
        fun hClosed => .inr ⟨hClosed, nofun⟩
  | stopping =>
    cases hTurn
    exact moves_same hSound rfl rfl (nil_subset _) trivial nofun nofun
      fun hClosed => .inr ⟨hClosed, nofun⟩
  | _ => cases hTurn

theorem opened_moves (hSound : Sound s) {localPort : ℕ}
    (hMem : .connecting request now ∈ s.calls) :
    Moves s (.connecting request now) (s.tunnels.connect request localPort)
      (.connected request ⟨request.signature, s.tunnels.connections.length, localPort, now⟩
        hostKey) where
  grows := Tunnels.grows_connect _ _ _
  stored := fun nodeId session hRow =>
    (hSound.stored nodeId session hRow).mono (Tunnels.grows_connect _ _ _)
  fresh := fun _ hOpen => (Tunnels.isOpen_connect hOpen).imp id mem_singleton.mpr
  keeps := fun _ _ hStores => .inl hStores
  hands := fun _ hMem => absurd hMem not_mem_nil
  fits := ⟨_, List.getElem?_concat_length, rfl, rfl, rfl, rfl⟩
  vacant := fun nodeId hFills => hSound.vacant _ hMem nodeId hFills
  filled := fun _ hNone => .inl hNone
  locks := fun _ hLock => .inl hLock
  shut := fun hClosed => .inr (.inr ⟨hClosed, nofun⟩)

variable {hangs : Bool}

theorem closeSession_eq (t : Tunnels) (session : TunnelSession) (hangs : Bool) :
    closeSession t session hangs = t ∨
      closeSession t session hangs = t.lose session.connection := by
  unfold closeSession
  split_ifs
  · exact .inr rfl
  · exact .inl rfl

theorem grows_closeSession : t.Grows (closeSession t session hangs) := by
  rcases closeSession_eq t session hangs with hSame | hLost
  · exact Tunnels.grows_of_eq (congrArg _ hSame)
  · exact hLost ▸ Tunnels.grows_lose t _

theorem isOpen_closeSession (hInTime : t.isAlive session → t.looping ∧ hangs = false)
    (hOpen : (closeSession t session hangs).isOpen c = true) :
    t.isOpen c = true ∧ c ≠ session.connection := by
  unfold closeSession at hOpen
  split_ifs at hOpen with hReaches
  · exact Tunnels.isOpen_lose.mp hOpen
  · refine ⟨hOpen, ?_⟩
    rintro rfl
    obtain ⟨hLooping, rfl⟩ := hInTime hOpen
    exact hReaches (by rw [hLooping]; rfl)

/-- A connection is closed in time, or its loop is gone. -/
theorem moves_close (hSound : Sound s)
    (hInTime : s.tunnels.isAlive session → s.tunnels.looping ∧ hangs = false)
    (hHeld : phase.held = session.connection :: next.held) (hFits : ∀ t, next.Fits t)
    (hFills : ∀ nodeId, next.fills = some nodeId → s.tunnels.sessions.row? nodeId = none)
    (hLocks : ∀ nodeId, next.nodeLock = some nodeId → phase.nodeLock = some nodeId) :
    Moves s phase (closeSession s.tunnels session hangs) next := by
  have hRest : (closeSession s.tunnels session hangs).sessions = s.tunnels.sessions ∧
      (closeSession s.tunnels session hangs).closed = s.tunnels.closed := by
    rcases closeSession_eq s.tunnels session hangs with hSame | hLost
    · rw [hSame]
      exact ⟨rfl, rfl⟩
    · rw [hLost]
      exact ⟨rfl, rfl⟩
  refine ⟨grows_closeSession, ?_, ?_, ?_, ?_, hFits _, ?_, ?_, ?_, ?_⟩
  · intro nodeId other hRow
    exact (hSound.stored nodeId other (hRest.1 ▸ hRow)).mono grows_closeSession
  · exact fun c hOpen => .inl (isOpen_closeSession hInTime hOpen).1
  · exact fun nodeId c hStores => .inl (by rwa [Tunnels.Stores, hRest.1])
  · intro c hMem hOpen
    rw [hHeld] at hMem
    exact .inr ((mem_cons.mp hMem).resolve_left (isOpen_closeSession hInTime hOpen).2)
  · rwa [hRest.1]
  · exact fun nodeId hNone => .inl (hRest.1 ▸ hNone)
  · exact fun nodeId hLock => .inl (hLocks nodeId hLock)
  · refine fun hClosed => .inr (.inr ⟨hRest.2 ▸ hClosed, ?_⟩)
    rintro rfl
    cases hHeld

theorem close_moves (hSound : Sound s) (hMem : phase ∈ s.calls)
    (hCloses : phase.closes = some (session, next))
    (hInTime : s.tunnels.isAlive session → s.tunnels.looping ∧ hangs = false) :
    Moves s phase (closeSession s.tunnels session hangs) next := by
  cases phase with
  | replacing request now current =>
    obtain ⟨⟩ := hCloses
    exact moves_close hSound hInTime rfl (fun _ => trivial)
      (fun nodeId hFills => hSound.vacant _ hMem nodeId hFills) (fun _ hLock => hLock)
  | refused request current =>
    obtain ⟨⟩ := hCloses
    exact moves_close hSound hInTime rfl (fun _ => trivial) nofun nofun
  | closing sessions final =>
    cases sessions with
    | nil => cases hCloses
    | cons first rest =>
      obtain ⟨⟩ := hCloses
      exact moves_close hSound hInTime rfl (fun _ => trivial) nofun nofun
  | _ => cases hCloses

end

/-! ## Runs -/

/-- **One turn of a call.** -/
theorem turn_moves (hSound : Sound s) (hAt : s.calls[i]? = some phase) {event : Event}
    {out : Tunnels × Phase} (hTurn : turn s.tunnels s.calls phase event = some out)
    (hInTime : s.inTime (.turn i event)) : Moves s phase out.1 out.2 := by
  have hMem := mem_of_getElem? hAt
  cases event with
  | lock now =>
    cases phase with
    | waiting request =>
      unfold turn at hTurn
      dsimp only at hTurn
      split_ifs at hTurn with hFree
      cases hTurn
      refine moves_same hSound rfl rfl (nil_subset _) trivial nofun ?_
        fun hClosed => .inr ⟨hClosed, nofun⟩
      rintro nodeId ⟨⟩
      exact .inr hFree
    | _ => cases hTurn
  | «section» => exact lockSection_moves hSound hMem hTurn
  | close hangs =>
    obtain ⟨⟨session, next⟩, hCloses, rfl⟩ := Option.map_eq_some_iff.mp hTurn
    refine close_moves hSound hMem hCloses fun hAlive => ?_
    have hCloses' : (s.calls[i]?).bind Phase.closes = some (session, next) := by
      rw [hAt]
      exact hCloses
    simpa [Pool.inTime, hCloses', hAlive] using hInTime
  | opened localPort hostKey =>
    unfold turn at hTurn
    dsimp only at hTurn
    split_ifs at hTurn
    cases phase with
    | connecting request now =>
      cases hTurn
      exact opened_moves hSound hMem
    -- an opening that ends after its call has given up is not in time
    | givenUp request => simp [Pool.inTime, hAt, Phase.isGivenUp] at hInTime
    | _ => cases hTurn
  | openFails =>
    cases phase with
    | connecting request now | givenUp request =>
      cases hTurn
      exact moves_same hSound rfl rfl (nil_subset _) trivial nofun nofun
        fun hClosed => .inr ⟨hClosed, nofun⟩
    | _ => cases hTurn
  | timeOut =>
    cases phase with
    | connecting request now =>
      cases hTurn
      exact moves_same hSound rfl rfl (nil_subset _) trivial nofun nofun
        fun hClosed => .inr ⟨hClosed, nofun⟩
    | _ => cases hTurn

/-- A new call has nothing in its hands. -/
theorem sound_begin (hSound : Sound s) (hLock : phase.nodeLock = none)
    (hFits : phase.Fits s.tunnels) : Sound (s.begin phase) where
  stored := hSound.stored
  owned := fun c hOpen => (hSound.owned c hOpen).imp id fun ⟨q, hMem, hIn⟩ =>
    ⟨q, mem_append_left _ hMem, hIn⟩
  fits := by
    intro q hMem
    rcases mem_append.mp hMem with hOld | hNew
    · exact hSound.fits q hOld
    · exact mem_singleton.mp hNew ▸ hFits
  vacant := by
    intro q hMem nodeId hFills
    rcases mem_append.mp hMem with hOld | hNew
    · exact hSound.vacant q hOld nodeId hFills
    · rw [mem_singleton.mp hNew] at hFills
      exact absurd (hLock.symm.trans (Phase.nodeLock_of_fills hFills)) nofun
  exclusive := by
    -- the new call holds no lock
    have hOld : ∀ (j : ℕ) (q : Phase) (nodeId : ℕ), (s.begin phase).calls[j]? = some q →
        q.nodeLock = some nodeId → s.calls[j]? = some q := by
      intro j q nodeId hAt hNode
      rw [Pool.begin, List.getElem?_append] at hAt
      split_ifs at hAt
      · exact hAt
      · have hNew := mem_singleton.mp (mem_of_getElem? hAt)
        rw [hNew, hLock] at hNode
        cases hNode
    intro j k p q nodeId hJ hK hP hQ
    exact hSound.exclusive j k p q nodeId (hOld j p nodeId hJ hP) (hOld k q nodeId hK hQ) hP hQ
  shut := fun hClosed => (hSound.shut hClosed).imp id (mem_append_left _)

theorem sound_lose (hSound : Sound s) (c : ℕ) :
    Sound { s with tunnels := s.tunnels.lose c } where
  stored := fun nodeId session hRow =>
    (hSound.stored nodeId session hRow).mono (Tunnels.grows_lose _ c)
  owned := fun x hOpen => hSound.owned x (Tunnels.isOpen_lose.mp hOpen).1
  fits := by
    intro q hMem
    have hFits := hSound.fits q hMem
    cases q with
    | connected | refused => exact hFits.mono (Tunnels.grows_lose _ c)
    | returned => exact ⟨hFits.1.mono (Tunnels.grows_lose _ c), hFits.2⟩
    | _ => trivial
  vacant := hSound.vacant
  exclusive := hSound.exclusive
  shut := hSound.shut

theorem sound_step (s : Pool) (action : Action) (s' : Pool) (hSound : Sound s)
    (hInTime : s.inTime action) (hStep : step s action = some s') : Sound s' := by
  cases action with
  | turn i event =>
    obtain ⟨phase, hAt, hTurns⟩ := Option.bind_eq_some_iff.mp hStep
    obtain ⟨out, hTurn, rfl⟩ := Option.map_eq_some_iff.mp hTurns
    exact sound_of_moves hSound hAt (turn_moves hSound hAt hTurn hInTime)
  | lose c =>
    cases hStep
    exact sound_lose hSound c
  | _ =>
    cases hStep
    exact sound_begin hSound rfl trivial

theorem sound_new : Sound newPool where
  stored := nofun
  owned := nofun
  fits := nofun
  vacant := nofun
  exclusive := nofun
  shut := nofun

/-- In a sound pool nothing is lost. -/
theorem Sound.safe (hSound : Sound s) : PoolSafe s := by
  have hQuiet : s.isQuiet → ∀ phase ∈ s.calls, phase.held = [] ∧ phase ≠ .dropAll true := by
    intro hAll phase hMem
    have hOver := all_eq_true.mp hAll phase hMem
    cases phase with
    | returned | givenUp | raised | ended => exact ⟨rfl, nofun⟩
    | _ => cases hOver
  -- a stored connection is one of its node
  have hNode : ∀ nodeId c connection, s.tunnels.Stores nodeId c →
      s.tunnels.connections[c]? = some connection → nodeId = connection.node := by
    rintro nodeId _ connection ⟨session, hRow, rfl⟩ hAt
    obtain ⟨other, hOther, hOf, -⟩ := hSound.stored nodeId session hRow
    rw [Option.mem_unique hAt hOther, hOf]
  refine ⟨?_, fun request session result hMem => hSound.fits _ hMem, ?_, ?_⟩
  · intro hAll c hOpen
    obtain ⟨connection, hAt, -⟩ := Tunnels.isOpen_iff.mp hOpen
    rcases hSound.owned c hOpen with ⟨nodeId, hStores⟩ | ⟨phase, hMem, hHeld⟩
    · refine ⟨nodeId, hStores, fun other hOther => ?_⟩
      exact (hNode other c connection hOther hAt).trans (hNode nodeId c connection hStores hAt).symm
    · rw [(hQuiet hAll phase hMem).1] at hHeld
      exact absurd hHeld not_mem_nil
  · intro c c' a b hA hB hOpenA hOpenB hSame hFree
    have hStored : ∀ x connection, s.tunnels.connections[x]? = some connection →
        connection.closed = false → (∀ phase ∈ s.calls, x ∉ phase.held) →
        ∃ nodeId, s.tunnels.Stores nodeId x := by
      intro x connection hAt hOpen hNot
      refine (hSound.owned x (Tunnels.isOpen_iff.mpr ⟨connection, hAt, hOpen⟩)).resolve_right ?_
      rintro ⟨phase, hMem, hHeld⟩
      exact hNot phase hMem hHeld
    obtain ⟨n, hN⟩ := hStored c a hA hOpenA fun phase hMem => (hFree phase hMem).1
    obtain ⟨m, hM⟩ := hStored c' b hB hOpenB fun phase hMem => (hFree phase hMem).2
    obtain rfl : n = m := by rw [hNode n c a hN hA, hNode m c' b hM hB, hSame]
    obtain ⟨session, hRow, rfl⟩ := hN
    obtain ⟨session', hRow', rfl⟩ := hM
    rw [Option.mem_unique hRow hRow']
  · intro hClosed hAll c hOpen
    rcases hSound.shut hClosed with hNone | hMem
    · rcases hSound.owned c hOpen with ⟨nodeId, session, hRow, -⟩ | ⟨phase, hMem, hHeld⟩
      · exact absurd ((hNone nodeId).symm.trans hRow) nofun
      · rw [(hQuiet hAll phase hMem).1] at hHeld
        exact not_mem_nil hHeld
    · exact (hQuiet hAll _ hMem).2 rfl

/-- Runs in time leave no connection behind. -/
theorem pool_safe (actions : List Action) (s : Pool)
    (hInTime : Along step (fun s action => s.inTime action) newPool actions)
    (hExec : exec step newPool actions = some s) : PoolSafe s :=
  (invariant_exec sound_step sound_new hInTime hExec).safe

def exampleNode : SshNode where
  id := 1
  port := 9100
  sshHost := some "198.51.100.1"
  sshPort := 22
  sshUsername := some "root"
  sshPrivateKeyEncrypted := "gAAA"
  sshPassphraseEncrypted := ""
  sshRemoteAgentHost := ""
  sshRemoteAgentPort := none

/-- Two calls at once and a shutdown: the second takes the tunnel of the first. -/
def calmRun : List Action :=
  [.ensure exampleNode, .ensure exampleNode, .turn 0 (.lock 5), .turn 0 .section,
    .turn 0 (.opened 40001 (some "ssh-ed25519 AAAA")), .turn 0 .section, .turn 1 (.lock 6),
    .turn 1 .section, .shutdown, .turn 2 .section, .turn 2 .section, .turn 2 (.close false),
    .turn 2 .section, .turn 2 .section]

theorem pool_safe_calm : ∃ s, exec step newPool calmRun = some s ∧ s.isQuiet ∧ PoolSafe s := by
  obtain ⟨s, hExec⟩ := Option.isSome_iff_exists.mp
    (show (exec step newPool calmRun).isSome = true by decide)
  have hQuiet : (exec step newPool calmRun).all Pool.isQuiet = true := by decide
  rw [hExec] at hQuiet
  exact ⟨s, hExec, hQuiet, pool_safe calmRun s (by decide) hExec⟩

/-- The call times out just before its opening ends. -/
def lateRun : List Action :=
  [.ensure exampleNode, .turn 0 (.lock 5), .turn 0 .section, .turn 0 .timeOut,
    .turn 0 (.opened 40001 (some "ssh-ed25519 AAAA"))]

/-- The result of an opening that outlives its call has no owner, and stays open. -/
theorem late_opening_leaks : ¬ ∀ actions s, exec step newPool actions = some s → PoolSafe s := by
  intro hAll
  obtain ⟨s, hExec⟩ := Option.isSome_iff_exists.mp
    (show (exec step newPool lateRun).isSome = true by decide)
  have hEnd : (exec step newPool lateRun).all (fun s => s.isQuiet && s.tunnels.isOpen 0 &&
      (s.tunnels.sessions.keys = [])) = true := by decide
  rw [hExec] at hEnd
  simp only [Option.all_some, Bool.and_eq_true, decide_eq_true_eq] at hEnd
  obtain ⟨nodeId, ⟨session, hRow, -⟩, -⟩ := (hAll lateRun s hExec).kept hEnd.1.1 0 hEnd.1.2
  exact absurd (hEnd.2 ▸ Table.mem_keys_of_row? hRow) not_mem_nil

end AdminPanel.SshTunnel
