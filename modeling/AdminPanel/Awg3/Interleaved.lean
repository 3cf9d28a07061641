import AdminPanel.Awg3.Suspension
import AdminPanel.Lib.Exclusive

/-!
# AmneziaWG 3 calls at the same time

`create_client`, `delete_client`, `suspend_client` and `unsuspend_client` in the turns that other
threads and workers can come between: reading `clients.json`, a command of `awg`, reading, appending
to and rewriting `awg1.conf`, writing `clients.json`.

* `createTurn`, `deleteTurn`, `heldTurn` — the next turn of a call;
* `CreateMid`, `DeleteMid`, `HeldMid` — where a call is that nobody has interrupted;
* `performed_of_lone` — such a call does what it does on its own;
* `lossless_of_exclusive` — nothing is lost when no two calls are under way at once.
-/

namespace AdminPanel.Awg3Clients

open List

open Lib (Table Calls CallState callStep Exclusive Lone Serially exec Along)

/-! ## The turns of a call -/

inductive ClientCall
  | create (name : String) (mode : Mode) (draw : Draw)
  | delete (name : String)
  | suspend (name : String)
  | unsuspend (name : String)
  deriving DecidableEq, Repr

/-- A record that a call works on, the registry it has read, and the records still to come. -/
structure Held where
  clients : Table String Record
  name : String
  record : Record
  rest : List String

inductive CallPhase
  | ready
  /-- The registry of a creation is read. -/
  | checked (clients : Table String Record)
  | prepared (clients : Table String Record) (new : NewClient)
  /-- `awg set` has added the peer. -/
  | peered (clients : Table String Record) (new : NewClient)
  | appended (clients : Table String Record) (new : NewClient)
  | saved (new : NewClient)
  /-- `records_for` is next. -/
  | choosing (name : String) (rest : List String)
  /-- The registry is read next, for this record. -/
  | loading (name : String) (rest : List String)
  | holding (held : Held)
  /-- `awg set` has removed the peer, or added it. -/
  | called (held : Held)
  | read (held : Held) (conf : Conf)
  | rewritten (held : Held)
  | unlinked (held : Held)
  | returned
  | raised (refusal : Refusal)

def CallPhase.ended : CallPhase → Bool
  | .returned => true
  | .raised _ => true
  | _ => false

def CallPhase.isReady : CallPhase → Bool
  | .ready => true
  | _ => false

def nextRecord : List String → CallPhase
  | [] => .returned
  | name :: rest => .loading name rest

/-- `create_client` -/
def createTurn (env : Env) (name : String) (mode : Mode) (draw : Draw) :
    CallPhase → Node → Option (CallPhase × Node)
  | .ready, s =>
    if !validName name then some (.raised .badName, s)
    else if (s.registry.row? name).isSome then some (.raised .exists, s)
    else if mode = .split ∧ env.splitAllowedIps = [] then some (.raised .emptySplitList, s)
    else some (.checked s.registry, s)
  | .checked clients, s =>
    match prepareClient env { s with registry := clients } name mode draw with
    | .error refusal => some (.raised refusal, s)
    | .ok new => some (.prepared clients new, s)
  | .prepared clients new, s =>
    some (.peered clients new, { s with live := s.live.set new.record.publicKey new.peer })
  | .peered clients new, s =>
    some (.appended clients new, { s with conf.peers := s.conf.peers ++ [new.block] })
  | .appended clients new, s =>
    some (.saved new, { s with registry := clients.set new.name new.record })
  | .saved new, s =>
    some (.returned,
      { s with profiles := s.profiles.set (new.record.modeOf, new.name) new.profile })
  | _, _ => none

/-- What `delete_client` makes of the registry it reads. -/
def deleteLoad (s : Node) (name : String) (rest : List String) : CallPhase :=
  match s.registry.row? name with
  | some record => .holding ⟨s.registry, name, record, rest⟩
  | none =>
    if s.registry.keys.any (baseName · = name) then .choosing name rest else .raised .notFound

/-- `delete_client`, and the deletions it calls for each record of a pair -/
def deleteTurn (name : String) : CallPhase → Node → Option (CallPhase × Node)
  | .ready, s => some (deleteLoad s name [], s)
  | .choosing name rest, s => some (nextRecord (recordsFor s name ++ rest), s)
  | .loading name rest, s => some (deleteLoad s name rest, s)
  | .holding held, s =>
    some (.called held, { s with live := s.live.erase held.record.publicKey })
  | .called held, s => some (.read held s.conf, s)
  | .read held conf, s =>
    some (.rewritten held, { s with conf := conf.drop held.record.publicKey })
  | .rewritten held, s =>
    some (.unlinked held, { s with profiles := s.profiles.erase (held.record.modeOf, held.name) })
  | .unlinked held, s =>
    some (nextRecord held.rest, { s with registry := held.clients.erase held.name })
  | _, _ => none

/-- `suspend_client` and `unsuspend_client`, with `_suspend_record` and `_unsuspend_record` for each
record -/
def heldTurn (suspended : Bool) (name : String) : CallPhase → Node → Option (CallPhase × Node)
  | .ready, s =>
    some (if (s.registry.row? name).isNone then .choosing name [] else .loading name [], s)
  | .choosing name rest, s => some (nextRecord (recordsFor s name ++ rest), s)
  | .loading name rest, s =>
    match s.registry.row? name with
    | none => some (.raised .notFound, s)
    | some record =>
      if record.suspended = suspended then some (nextRecord rest, s)
      else some (.holding ⟨s.registry, name, record, rest⟩, s)
  | .holding held, s =>
    some (.called held,
      { s with
        live :=
          if suspended then s.live.erase held.record.publicKey
          else s.live.set held.record.publicKey held.record.peer })
  | .called held, s =>
    if suspended then some (.read held s.conf, s)
    else some (.rewritten held, { s with conf := s.conf.append (held.record.block held.name) })
  | .read held conf, s =>
    some (.rewritten held, { s with conf := conf.drop held.record.publicKey })
  | .rewritten held, s =>
    some (nextRecord held.rest,
      { s with
        registry := held.clients.set held.name { held.record with suspended := suspended } })
  | _, _ => none

def ClientCall.turn (env : Env) : ClientCall → CallPhase → Node → Option (CallPhase × Node)
  | .create name mode draw => createTurn env name mode draw
  | .delete name => deleteTurn name
  | .suspend name => heldTurn true name
  | .unsuspend name => heldTurn false name

/-! ## One call after the other -/

/-- A call on its own. -/
def ClientCall.perform (env : Env) (s : Node) : ClientCall → Node × Option Refusal
  | .create name mode draw => createClient env s name mode draw none
  | .delete name => deleteClient s name none
  | .suspend name => ((suspendClient s name).1, raised (suspendClient s name).2)
  | .unsuspend name => ((unsuspendClient s name).1, raised (unsuspendClient s name).2)

/-- A call that returns. -/
def ClientCall.performed (env : Env) (s : Node) (call : ClientCall) : Option Node :=
  match call.perform env s with
  | (t, none) => some t
  | (_, some _) => none

/-- The records that a call can change. -/
def ClientCall.records : ClientCall → List String
  | .create name _ _ => [name]
  | .delete name => [name, profileRecord name .split, profileRecord name .full]
  | .suspend name => [name, profileRecord name .split, profileRecord name .full]
  | .unsuspend name => [name, profileRecord name .split, profileRecord name .full]

/-- The client is there, with an address and a port of its own. -/
def Created (s : Node) (name : String) (mode : Mode) : Prop :=
  ∃ record, s.registry.row? name = some record ∧ record.modeOf = mode ∧ record.ip ∈ mode.hosts ∧
    ∀ r other, s.registry.row? r = some other → r ≠ name →
      other.portOf ≠ record.portOf ∧
      (other.modeOf = mode ∨ other.ip ∈ other.modeOf.hosts → other.ip ≠ record.ip)

variable {ι : Type}

/-- No two calls are about one record. -/
def DifferentClients (calls : ι → ClientCall) : Prop :=
  ∀ i j, i ≠ j → ∀ r ∈ (calls i).records, r ∉ (calls j).records

/-- The stores are as after the calls one after the other, and every created client is there, with
an address and a port of its own. -/
structure Lossless (env : Env) (calls : ι → ClientCall) (s t : Node) : Prop where
  serial : ∃ order : List ι, order.Nodup ∧ (∀ i, i ∈ order) ∧
    exec (ClientCall.performed env) s (order.map calls) = some t
  created : ∀ i name mode draw, calls i = .create name mode draw → Created t name mode

/-! ## The system -/

theorem ended_iff {p : CallPhase} :
    p.ended = true ↔ p = .returned ∨ ∃ refusal, p = .raised refusal := by
  cases p <;> simp [CallPhase.ended]

theorem isReady_iff {p : CallPhase} : p.isReady = true ↔ p = .ready := by
  cases p <;> simp [CallPhase.isReady]

theorem nextRecord_ne_ready (records : List String) : nextRecord records ≠ .ready := by
  cases records <;> exact CallPhase.noConfusion

theorem deleteLoad_ne_ready (s : Node) (name : String) (rest : List String) :
    deleteLoad s name rest ≠ .ready := by
  unfold deleteLoad
  split
  · exact CallPhase.noConfusion
  · split_ifs <;> exact CallPhase.noConfusion

theorem turn_ended {env : Env} {call : ClientCall} {p : CallPhase} {s : Node}
    (h : p.ended = true) : call.turn env p s = none := by
  rcases ended_iff.mp h with rfl | ⟨refusal, rfl⟩ <;> cases call <;> rfl

theorem turn_ne_ready {env : Env} {call : ClientCall} {p p' : CallPhase} {s s' : Node}
    (h : call.turn env p s = some (p', s')) : p' ≠ .ready := by
  rintro rfl
  cases call <;> cases p <;>
    simp [ClientCall.turn, createTurn, deleteTurn, heldTurn, nextRecord_ne_ready,
      deleteLoad_ne_ready] at h
  all_goals grind [nextRecord_ne_ready]

/-- The calls on one node. -/
def clientCalls (env : Env) (calls : ι → ClientCall) : Calls ι CallPhase Node where
  ready := .ready
  isReady := CallPhase.isReady
  ended := CallPhase.ended
  turn := fun i => (calls i).turn env
  isReady_iff := isReady_iff
  turn_ended := turn_ended
  turn_ready := turn_ne_ready

/-! ## A call that nobody interrupts -/

/-- Where a creation is that began at `s₀`. -/
def CreateMid (env : Env) (name : String) (mode : Mode) (draw : Draw) (s₀ : Node) :
    CallPhase → Node → Prop
  | .ready, s => s = s₀
  | .checked clients, s => clients = s₀.registry ∧ s = s₀
  | .prepared clients new, s =>
    clients = s₀.registry ∧ prepareClient env s₀ name mode draw = .ok new ∧ s = s₀
  | .peered clients new, s =>
    clients = s₀.registry ∧ prepareClient env s₀ name mode draw = .ok new ∧
      s = s₀.created new (some .block)
  | .appended clients new, s =>
    clients = s₀.registry ∧ prepareClient env s₀ name mode draw = .ok new ∧
      s = s₀.created new (some .save)
  | .saved new, s =>
    prepareClient env s₀ name mode draw = .ok new ∧ s = s₀.created new (some .profile)
  | .returned, s => createClient env s₀ name mode draw none = (s, none)
  | _, _ => True

section

variable {env : Env} {name : String} {mode : Mode} {draw : Draw} {s₀ s s' u : Node}
  {p p' : CallPhase} {suspended : Bool} {held : Held} {records : List String}

/-- One turn of a creation, from where `CreateMid` has it. -/
theorem createMid_turn (h : CreateMid env name mode draw s₀ p s)
    (hTurn : createTurn env name mode draw p s = some (p', s')) :
    CreateMid env name mode draw s₀ p' s' := by
  cases p with
  | ready =>
    obtain rfl : s = s₀ := h
    rw [createTurn] at hTurn
    split_ifs at hTurn <;> cases hTurn
    · trivial
    · trivial
    · trivial
    · exact ⟨rfl, rfl⟩
  | checked clients =>
    obtain ⟨rfl, rfl⟩ := h
    rw [createTurn] at hTurn
    cases hPrepare : prepareClient env s name mode draw with
    | error refusal =>
      rw [hPrepare] at hTurn
      cases hTurn
      trivial
    | ok new =>
      rw [hPrepare] at hTurn
      cases hTurn
      exact ⟨rfl, hPrepare, rfl⟩
  | prepared clients new | peered clients new =>
    obtain ⟨rfl, hPrepare, rfl⟩ := h
    cases hTurn
    exact ⟨rfl, hPrepare, rfl⟩
  | appended clients new =>
    obtain ⟨rfl, hPrepare, rfl⟩ := h
    cases hTurn
    exact ⟨hPrepare, rfl⟩
  | saved new =>
    obtain ⟨hPrepare, rfl⟩ := h
    cases hTurn
    show createClient env s₀ name mode draw none = _
    rw [createClient, hPrepare]
    rfl
  | _ => cases hTurn

/-- The deletions that are left lead to the end of the whole. -/
def DeletesLeft (s₀ : Node) (name : String) (s : Node) (records : List String) : Prop :=
  deleteRecords s records none = deleteClient s₀ name none ∧ records.Nodup ∧
    ∀ r ∈ records, (s.registry.row? r).isSome = true

/-- The registry was read at `u`. -/
def Held.ReadAt (held : Held) (u : Node) : Prop :=
  held.clients = u.registry ∧ u.registry.row? held.name = some held.record

/-- Where a deletion is that began at `s₀`. -/
def DeleteMid (s₀ : Node) (name : String) : CallPhase → Node → Prop
  | .ready, s => s = s₀
  | .choosing record rest, s =>
    record = name ∧ rest = [] ∧ s = s₀ ∧ s.registry.row? name = none ∧
      s.registry.keys.any (baseName · = name) = true
  | .loading record rest, s => DeletesLeft s₀ name s (record :: rest)
  | .holding held, s => held.ReadAt s ∧ DeletesLeft s₀ name s (held.name :: held.rest)
  | .called held, s => ∃ u, held.ReadAt u ∧ DeletesLeft s₀ name u (held.name :: held.rest) ∧
    s = u.removed held.name held.record (some (.peer true))
  | .read held conf, s => ∃ u, held.ReadAt u ∧ DeletesLeft s₀ name u (held.name :: held.rest) ∧
    s = u.removed held.name held.record (some (.peer true)) ∧ conf = s.conf
  | .rewritten held, s => ∃ u, held.ReadAt u ∧ DeletesLeft s₀ name u (held.name :: held.rest) ∧
    s = u.removed held.name held.record (some .unlink)
  | .unlinked held, s => ∃ u, held.ReadAt u ∧ DeletesLeft s₀ name u (held.name :: held.rest) ∧
    s = u.removed held.name held.record (some .save)
  | .returned, s => deleteClient s₀ name none = (s, none)
  | _, _ => True

theorem deleteMid_nextRecord (h : DeletesLeft s₀ name s records) :
    DeleteMid s₀ name (nextRecord records) s := by
  cases records with
  | nil => exact h.1.symm
  | cons record rest => exact h

/-- One record less. -/
theorem DeletesLeft.removed (h : DeletesLeft s₀ name u (held.name :: held.rest))
    (hRead : held.ReadAt u) :
    DeletesLeft s₀ name (u.removed held.name held.record none) held.rest := by
  obtain ⟨hDeletes, hNodup, hRows⟩ := h
  obtain ⟨hNew, hNodup⟩ := nodup_cons.mp hNodup
  rw [forall_mem_cons] at hRows
  refine ⟨?_, hNodup, isSome_removed hRows.2 hNew⟩
  rw [← hDeletes, deleteRecords, deleteRecord_of_row hRead.2]
  rfl

theorem deleteMid_deleteLoad {r : String} (h : DeletesLeft s₀ name s (r :: records)) :
    DeleteMid s₀ name (deleteLoad s r records) s := by
  obtain ⟨record, hRow⟩ := Option.isSome_iff_exists.mp (h.2.2 r mem_cons_self)
  rw [deleteLoad, hRow]
  exact ⟨⟨rfl, hRow⟩, h⟩

theorem append_of_withoutSuffix {suffix key : String} (h : withoutSuffix suffix key = some name) :
    key = name ++ suffix := by
  unfold withoutSuffix at h
  split_ifs at h with hHas
  obtain ⟨front, hKey⟩ := hHas.1
  have hLength : key.length - suffix.length = front.length := by
    rw [← String.length_toList, ← hKey, length_append, String.length_toList]
    omega
  rw [hLength, ← hKey, take_left] at h
  rw [← Option.some.inj h, ← String.toList_inj, String.toList_append, String.toList_ofList, hKey]

theorem baseName_cases {key : String} (h : baseName key = name) :
    key = name ∨ key = profileRecord name .split ∨ key = profileRecord name .full := by
  unfold baseName at h
  cases hAz : withoutSuffix "_az" key with
  | some base =>
    rw [hAz] at h
    exact .inr (.inl (append_of_withoutSuffix (hAz.trans (congrArg some h))))
  | none =>
    cases hVpn : withoutSuffix "_vpn" key with
    | some base =>
      rw [hAz, hVpn] at h
      exact .inr (.inr (append_of_withoutSuffix (hVpn.trans (congrArg some h))))
    | none =>
      rw [hAz, hVpn] at h
      exact .inl h

/-- A client that has no record of its name has one of a pair. -/
theorem isSome_recordsFor (hNone : s.registry.row? name = none)
    (hAny : s.registry.keys.any (baseName · = name) = true) :
    ∀ r ∈ recordsFor s name, (s.registry.row? r).isSome = true := by
  obtain ⟨key, hKey, hBase⟩ := any_eq_true.mp hAny
  have hSome := (s.registry.mem_keys key).mp hKey
  have hPair : key ∈ [profileRecord name .split, profileRecord name .full] := by
    rcases baseName_cases (of_decide_eq_true hBase) with rfl | rfl | rfl
    · rw [hNone] at hSome
      cases hSome
    · exact mem_cons_self
    · exact mem_cons_of_mem _ mem_cons_self
  have hHeld : key ∈ [profileRecord name .split, profileRecord name .full].filter fun record =>
      (s.registry.row? record).isSome := mem_filter.mpr ⟨hPair, hSome⟩
  unfold recordsFor
  dsimp only
  rw [if_neg (ne_nil_of_mem hHeld)]
  exact fun r hMem => (mem_filter.mp hMem).2

theorem deletesLeft_recordsFor (hNone : s.registry.row? name = none)
    (hAny : s.registry.keys.any (baseName · = name) = true) :
    DeletesLeft s name s (recordsFor s name) := by
  have hTargets : targets s name = recordsFor s name := by
    rw [targets, hNone, hAny]
    rfl
  exact ⟨by rw [deleteClient, hTargets], recordsFor_nodup s name, isSome_recordsFor hNone hAny⟩

/-- One turn of a deletion. -/
theorem deleteMid_turn (h : DeleteMid s₀ name p s)
    (hTurn : deleteTurn name p s = some (p', s')) : DeleteMid s₀ name p' s' := by
  cases p with
  | ready =>
    obtain rfl : s = s₀ := h
    cases hTurn
    unfold deleteLoad
    cases hRow : s.registry.row? name with
    | some record =>
      have hSome : (s.registry.row? name).isSome = true := Option.isSome_iff_exists.mpr ⟨_, hRow⟩
      refine ⟨⟨rfl, hRow⟩, ?_, nodup_singleton name, ?_⟩
      · rw [deleteClient, targets_of_isSome hSome]
      · exact fun r hMem => mem_singleton.mp hMem ▸ hSome
    | none =>
      dsimp only
      split_ifs with hAny
      · exact ⟨rfl, rfl, rfl, hRow, hAny⟩
      · trivial
  | choosing record rest =>
    obtain ⟨rfl, rfl, rfl, hNone, hAny⟩ := h
    cases hTurn
    rw [append_nil]
    exact deleteMid_nextRecord (deletesLeft_recordsFor hNone hAny)
  | loading record rest =>
    cases hTurn
    exact deleteMid_deleteLoad h
  | holding held =>
    cases hTurn
    exact ⟨s, h.1, h.2, rfl⟩
  | called held =>
    obtain ⟨u, hRead, hLeft, rfl⟩ := h
    cases hTurn
    exact ⟨u, hRead, hLeft, rfl, rfl⟩
  | read held conf =>
    obtain ⟨u, hRead, hLeft, rfl, rfl⟩ := h
    cases hTurn
    exact ⟨u, hRead, hLeft, rfl⟩
  | rewritten held =>
    obtain ⟨u, hRead, hLeft, rfl⟩ := h
    cases hTurn
    exact ⟨u, hRead, hLeft, rfl⟩
  | unlinked held =>
    obtain ⟨u, hRead, hLeft, rfl⟩ := h
    cases hTurn
    rw [hRead.1]
    exact deleteMid_nextRecord (hLeft.removed hRead)
  | _ => cases hTurn

/-- What `_suspend_record` or `_unsuspend_record` does to a record. -/
def heldRecord : Bool → Node → String → Node × Except Refusal Bool
  | true => suspendRecord
  | false => unsuspendRecord

/-- The record, suspended or not. -/
def Node.turned (s : Node) : Bool → String → Record → Node
  | true => s.suspended
  | false => s.restored

theorem heldRecord_of_row {record : Record} (hRow : s.registry.row? name = some record) :
    heldRecord suspended s name =
      if record.suspended = suspended then (s, .ok false)
      else (s.turned suspended name record, .ok true) := by
  cases suspended <;> cases hState : record.suspended <;>
    simp [heldRecord, suspendRecord, unsuspendRecord, hRow, hState, Node.turned]

/-- `suspend_client` or `unsuspend_client` -/
def heldClient (suspended : Bool) (s : Node) (name : String) : Node × Except Refusal Bool :=
  applyToRecords (heldRecord suspended) s false (heldRecords s name)

/-- The records that are left lead to the end of the whole. -/
def HoldsLeft (suspended : Bool) (s₀ : Node) (name : String) (s : Node) (records : List String) :
    Prop :=
  ∃ changed, applyToRecords (heldRecord suspended) s changed records =
    heldClient suspended s₀ name

/-- Where a suspension, or the end of one, is that began at `s₀`. -/
def HeldMid (suspended : Bool) (s₀ : Node) (name : String) : CallPhase → Node → Prop
  | .ready, s => s = s₀
  | .choosing record rest, s =>
    record = name ∧ rest = [] ∧ s = s₀ ∧ s.registry.row? name = none
  | .loading record rest, s => HoldsLeft suspended s₀ name s (record :: rest)
  | .holding held, s => held.ReadAt s ∧ held.record.suspended ≠ suspended ∧
    HoldsLeft suspended s₀ name s (held.name :: held.rest)
  | .called held, s => ∃ u, held.ReadAt u ∧ held.record.suspended ≠ suspended ∧
    HoldsLeft suspended s₀ name u (held.name :: held.rest) ∧
    s = { u with
      live :=
        if suspended then u.live.erase held.record.publicKey
        else u.live.set held.record.publicKey held.record.peer }
  | .read held conf, s => ∃ u, held.ReadAt u ∧ held.record.suspended ≠ suspended ∧
    HoldsLeft suspended s₀ name u (held.name :: held.rest) ∧ suspended = true ∧ conf = u.conf ∧
    s = { u with live := u.live.erase held.record.publicKey }
  | .rewritten held, s => ∃ u, held.ReadAt u ∧ held.record.suspended ≠ suspended ∧
    HoldsLeft suspended s₀ name u (held.name :: held.rest) ∧
    s = { u.turned suspended held.name held.record with registry := u.registry }
  | .returned, s => ∃ changed, heldClient suspended s₀ name = (s, .ok changed)
  | _, _ => True

theorem heldMid_nextRecord (h : HoldsLeft suspended s₀ name s records) :
    HeldMid suspended s₀ name (nextRecord records) s := by
  cases records with
  | nil =>
    obtain ⟨changed, hHeld⟩ := h
    exact ⟨changed, hHeld.symm⟩
  | cons record rest => exact h

theorem HoldsLeft.next {r : String} {changed : Bool}
    (h : HoldsLeft suspended s₀ name u (r :: records))
    (hRecord : heldRecord suspended u r = (s, .ok changed)) :
    HoldsLeft suspended s₀ name s records := by
  obtain ⟨before, hHeld⟩ := h
  rw [applyToRecords, hRecord] at hHeld
  exact ⟨changed || before, hHeld⟩

/-- One turn of a suspension or its end. -/
theorem heldMid_turn (h : HeldMid suspended s₀ name p s)
    (hTurn : heldTurn suspended name p s = some (p', s')) : HeldMid suspended s₀ name p' s' := by
  cases p with
  | ready =>
    obtain rfl : s = s₀ := h
    cases hTurn
    cases hRow : s.registry.row? name with
    | none =>
      rw [Option.isNone_none, if_pos rfl]
      exact ⟨rfl, rfl, rfl, hRow⟩
    | some record =>
      rw [Option.isNone_some, if_neg Bool.false_ne_true]
      refine ⟨false, ?_⟩
      rw [heldClient, heldRecords, hRow, Option.isNone_some, if_neg Bool.false_ne_true]
  -- a name that is no record stands for its two records
  | choosing record rest =>
    obtain ⟨rfl, rfl, rfl, hNone⟩ := h
    cases hTurn
    rw [append_nil]
    refine heldMid_nextRecord ⟨false, ?_⟩
    rw [heldClient, heldRecords, hNone, Option.isNone_none, if_pos rfl]
  | loading record rest =>
    rw [heldTurn] at hTurn
    cases hRow : s.registry.row? record with
    | none =>
      rw [hRow] at hTurn
      cases hTurn
      trivial
    | some row =>
      have hDone := @heldRecord_of_row record s suspended row hRow
      rw [hRow] at hTurn
      dsimp only at hTurn
      -- a record that is in the state already is passed over
      split_ifs at hTurn hDone with hState <;>
        cases hTurn
      · exact heldMid_nextRecord (h.next hDone)
      · exact ⟨⟨rfl, hRow⟩, hState, h⟩
  | holding held =>
    cases hTurn
    exact ⟨s, h.1, h.2.1, h.2.2, rfl⟩
  | called held =>
    obtain ⟨u, hRead, hState, hLeft, rfl⟩ := h
    rw [heldTurn] at hTurn
    cases suspended with
    | true =>
      cases hTurn
      exact ⟨u, hRead, hState, hLeft, rfl, rfl, rfl⟩
    | false =>
      cases hTurn
      exact ⟨u, hRead, hState, hLeft, rfl⟩
  | read held conf =>
    obtain ⟨u, hRead, hState, hLeft, rfl, rfl, rfl⟩ := h
    cases hTurn
    exact ⟨u, hRead, hState, hLeft, rfl⟩
  | rewritten held =>
    obtain ⟨u, hRead, hState, hLeft, rfl⟩ := h
    cases hTurn
    have hDone := @heldRecord_of_row held.name u suspended held.record hRead.2
    rw [if_neg hState] at hDone
    rw [hRead.1]
    have hNode : { u.turned suspended held.name held.record with
        registry := u.registry.set held.name { held.record with suspended := suspended } } =
        u.turned suspended held.name held.record := by
      cases suspended <;> rfl
    rw [hNode]
    exact heldMid_nextRecord (hLeft.next hDone)
  | _ => cases hTurn

end

/-! ## Calls on their own -/

/-- Where a call is that began at `s₀`. -/
def ClientCall.Mid (env : Env) (s₀ : Node) : ClientCall → CallPhase → Node → Prop
  | .create name mode draw => CreateMid env name mode draw s₀
  | .delete name => DeleteMid s₀ name
  | .suspend name => HeldMid true s₀ name
  | .unsuspend name => HeldMid false s₀ name

section

variable {env : Env} {call : ClientCall} {calls : ι → ClientCall} {i : ι} {s s' t u : Node}
  {p p' : CallPhase}

theorem mid_ready (env : Env) (call : ClientCall) (s : Node) : call.Mid env s .ready s := by
  cases call <;> rfl

theorem mid_turn (h : call.Mid env u p s) (hTurn : call.turn env p s = some (p', s')) :
    call.Mid env u p' s' := by
  cases call with
  | create name mode draw => exact createMid_turn h hTurn
  | delete name => exact deleteMid_turn h hTurn
  | suspend name | unsuspend name => exact heldMid_turn h hTurn

theorem performed_of_mid (h : call.Mid env s .returned t) : call.performed env s = some t := by
  cases call with
  | create name mode draw =>
    have hCreate : createClient env s name mode draw none = (t, none) := h
    rw [ClientCall.performed, ClientCall.perform, hCreate]
  | delete name =>
    have hDelete : deleteClient s name none = (t, none) := h
    rw [ClientCall.performed, ClientCall.perform, hDelete]
  | suspend name =>
    obtain ⟨changed, hHeld⟩ : ∃ changed, suspendClient s name = (t, .ok changed) := h
    rw [ClientCall.performed, ClientCall.perform, hHeld]
    rfl
  | unsuspend name =>
    obtain ⟨changed, hHeld⟩ : ∃ changed, unsuspendClient s name = (t, .ok changed) := h
    rw [ClientCall.performed, ClientCall.perform, hHeld]
    rfl

/-- **A call that nobody interrupts does what it does on its own.** -/
theorem performed_of_lone
    (h : Lone (clientCalls env calls) i (.ready, s) (.returned, t)) :
    (calls i).performed env s = some t := by
  have hMid : ∀ x, Lone (clientCalls env calls) i (.ready, s) x →
      (calls i).Mid env s x.1 x.2 := by
    intro x hLone
    induction hLone with
    | refl => exact mid_ready env (calls i) s
    | tail _ hTurn ih => exact mid_turn ih hTurn
  exact performed_of_mid (hMid _ h)

theorem exec_of_serially {last : ι → CallPhase} {order : List ι}
    (h : Serially (clientCalls env calls) last order s t)
    (hReturned : ∀ i ∈ order, last i = .returned) :
    exec (ClientCall.performed env) s (order.map calls) = some t := by
  induction h with
  | nil s => rfl
  | @snoc order s t i u _ hLone ih =>
    rw [forall_mem_append, forall_mem_singleton] at hReturned
    rw [hReturned.2] at hLone
    rw [map_append, Lib.exec_append_iff]
    refine ⟨t, ih hReturned.1, ?_⟩
    rw [map_singleton, Lib.exec_cons_iff]
    exact ⟨u, performed_of_lone hLone, rfl⟩

/-! ## Addresses -/

/-- The records `own` may be gone or suspended; every record that is left has the address and the
port that it had. -/
structure Addressed (own : List String) (s t : Node) : Prop where
  other : ∀ r ∉ own, t.registry.row? r = s.registry.row? r
  same : ∀ r record', t.registry.row? r = some record' → ∃ record,
    s.registry.row? r = some record ∧ record.ip = record'.ip ∧
      record.portOf = record'.portOf ∧ record.modeOf = record'.modeOf

variable {own : List String} {name : String} {record : Record} {mode : Mode} {draw : Draw}

theorem Addressed.refl (own : List String) (s : Node) : Addressed own s s :=
  ⟨fun _ _ => rfl, fun _ record hRow => ⟨record, hRow, rfl, rfl, rfl⟩⟩

theorem Addressed.trans (h : Addressed own s t) (h' : Addressed own t u) : Addressed own s u where
  other := fun r hr => (h'.other r hr).trans (h.other r hr)
  same := by
    intro r record'' hRow
    obtain ⟨record', hRow', hIp', hPort', hMode'⟩ := h'.same r record'' hRow
    obtain ⟨record, hRow, hIp, hPort, hMode⟩ := h.same r record' hRow'
    exact ⟨record, hRow, hIp.trans hIp', hPort.trans hPort', hMode.trans hMode'⟩

theorem addressed_removed (hOwn : name ∈ own) (s : Node) (record : Record) :
    Addressed own s (s.removed name record none) where
  other := fun r hr => registry_removed s record (ne_of_mem_of_not_mem hOwn hr).symm
  same := by
    intro r record' hRow
    have hErased : (s.registry.erase name).row? r = some record' := hRow
    rw [Table.row?_erase] at hErased
    split_ifs at hErased
    exact ⟨record', hErased, rfl, rfl, rfl⟩

theorem addressed_set {suspended : Bool} (hOwn : name ∈ own)
    (hRow : s.registry.row? name = some record)
    (hSet : t.registry = s.registry.set name { record with suspended := suspended }) :
    Addressed own s t where
  other := by
    intro r hr
    rw [hSet, Table.row?_set_of_ne _ _ (ne_of_mem_of_not_mem hOwn hr).symm]
  same := by
    intro r record' hRow'
    rw [hSet, Table.row?_set] at hRow'
    split_ifs at hRow' with hSame
    · cases hRow'
      exact ⟨record, hSame ▸ hRow, rfl, rfl, rfl⟩
    · exact ⟨record', hRow', rfl, rfl, rfl⟩

theorem addressed_deleteRecords {records : List String} (hOwn : ∀ r ∈ records, r ∈ own)
    (h : deleteRecords s records none = (t, none)) : Addressed own s t := by
  induction records generalizing s with
  | nil =>
    obtain rfl := (Prod.mk.inj h).1
    exact .refl own s
  | cons name records ih =>
    rw [forall_mem_cons] at hOwn
    rw [deleteRecords] at h
    cases hRow : s.registry.row? name with
    | none =>
      rw [deleteRecord, hRow] at h
      cases h
    | some record =>
      rw [deleteRecord_of_row hRow] at h
      exact (addressed_removed hOwn.1 s record).trans (ih hOwn.2 h)

theorem addressed_heldRecord {suspended changed : Bool} (hOwn : name ∈ own)
    (h : heldRecord suspended s name = (t, .ok changed)) : Addressed own s t := by
  cases hRow : s.registry.row? name with
  | none =>
    cases suspended <;> simp [heldRecord, suspendRecord, unsuspendRecord, hRow] at h
  | some record =>
    rw [heldRecord_of_row hRow] at h
    split_ifs at h
    · cases h
      exact .refl own s
    · cases h
      have hSet : (s.turned suspended name record).registry =
          s.registry.set name { record with suspended := suspended } := by
        cases suspended <;> rfl
      exact addressed_set hOwn hRow hSet

theorem addressed_applyToRecords {suspended before changed : Bool} {records : List String}
    (hOwn : ∀ r ∈ records, r ∈ own)
    (h : applyToRecords (heldRecord suspended) s before records = (t, .ok changed)) :
    Addressed own s t := by
  induction records generalizing s before with
  | nil =>
    obtain rfl := (Prod.mk.inj h).1
    exact .refl own s
  | cons name records ih =>
    rw [forall_mem_cons] at hOwn
    rw [applyToRecords] at h
    cases hRecord : heldRecord suspended s name with
    | mk u answer =>
      rw [hRecord] at h
      cases answer with
      | error refusal => cases h
      | ok now => exact (addressed_heldRecord hOwn.1 hRecord).trans (ih hOwn.2 h)

theorem recordsFor_subset (s : Node) (name : String) : ∀ r ∈ recordsFor s name,
    r ∈ [name, profileRecord name .split, profileRecord name .full] := by
  unfold recordsFor
  dsimp only
  split_ifs
  · exact fun r hMem => mem_singleton.mp hMem ▸ mem_cons_self
  · exact fun r hMem => mem_cons_of_mem _ (mem_of_mem_filter hMem)

theorem addressed_heldClient {suspended changed : Bool}
    (h : heldClient suspended s name = (t, .ok changed)) :
    Addressed [name, profileRecord name .split, profileRecord name .full] s t := by
  refine addressed_applyToRecords (fun r hMem => ?_) h
  unfold heldRecords at hMem
  split_ifs at hMem
  · exact recordsFor_subset s name r hMem
  · exact mem_singleton.mp hMem ▸ mem_cons_self

theorem addressed_deleteClient (h : deleteClient s name none = (t, none)) :
    Addressed [name, profileRecord name .split, profileRecord name .full] s t := by
  refine addressed_deleteRecords (fun r hMem => ?_) h
  unfold targets at hMem
  split_ifs at hMem
  · exact recordsFor_subset s name r hMem
  · exact mem_singleton.mp hMem ▸ mem_cons_self

/-- Addresses of the two modes differ. -/
theorem mode_of_mem_hosts {mode' : Mode} {ip : String} (h : ip ∈ mode.hosts)
    (h' : ip ∈ mode'.hosts) : mode = mode' := by
  have hFront : ∀ m : Mode, ip ∈ m.hosts → ip.toList.take 7 = m.subnet.toList := by
    intro m hMem
    obtain ⟨k, -, rfl⟩ := mem_map.mp hMem
    rw [String.toList_append]
    cases m <;> exact take_left' (by decide)
  have hSame := (hFront mode h).symm.trans (hFront mode' h')
  cases mode <;> cases mode'
  · rfl
  · exact absurd hSame (by decide)
  · exact absurd hSame (by decide)
  · rfl

/-- What a new record is like. -/
theorem prepareClient_address {new : NewClient} (h : prepareClient env s name mode draw = .ok new) :
    new.name = name ∧ new.record.modeOf = mode ∧ new.record.ip ∈ mode.hosts ∧
      new.record.ip ∉ s.usedIps mode ∧ new.record.portOf ∈ s.freePorts := by
  unfold prepareClient at h
  split_ifs at h
  split at h
  · cases h
  · cases h
  · cases h
  · next hKey hIp hPort =>
    cases h
    have hFree := List.find?_some hIp
    rw [Bool.and_eq_true, Bool.not_eq_true', contains_eq_mem, decide_eq_false_iff_not] at hFree
    exact ⟨rfl, rfl, mem_of_find?_eq_some hIp, hFree.2, mem_of_getElem? hPort⟩

theorem createClient_ok (h : createClient env s name mode draw none = (t, none)) :
    ∃ new, prepareClient env s name mode draw = .ok new ∧
      t.registry = s.registry.set name new.record := by
  rw [createClient] at h
  cases hPrepare : prepareClient env s name mode draw with
  | error refusal =>
    rw [hPrepare] at h
    cases h
  | ok new =>
    rw [hPrepare] at h
    cases h
    exact ⟨new, rfl, by rw [← (prepareClient_address hPrepare).1]; rfl⟩

theorem created_createClient (h : createClient env s name mode draw none = (t, none)) :
    Created t name mode := by
  obtain ⟨new, hPrepare, hRegistry⟩ := createClient_ok h
  obtain ⟨-, hMode, hHosts, hUsed, hFree⟩ := prepareClient_address hPrepare
  refine ⟨new.record, by rw [hRegistry, Table.row?_set_self], hMode, hHosts, ?_⟩
  intro r other hRow hOther
  rw [hRegistry, Table.row?_set_of_ne _ _ hOther] at hRow
  refine ⟨(mem_freePorts.mp hFree).2 r other hRow, fun hNear hSame => ?_⟩
  have hOtherMode : other.modeOf = mode := by
    rcases hNear with hMode | hIn
    · exact hMode
    · exact mode_of_mem_hosts hIn (hSame ▸ hHosts)
  exact hUsed (mem_usedIps.mpr ⟨r, other, hRow, hOtherMode, hSame⟩)

/-- A created client stays, whatever is created next to it. -/
theorem Created.createClient {name' : String} {mode' : Mode} (h : Created s name mode)
    (hOther : name ≠ name') (hDone : createClient env s name' mode' draw none = (t, none)) :
    Created t name mode := by
  obtain ⟨record, hRow, hMode, hHosts, hApart⟩ := h
  obtain ⟨new, hPrepare, hRegistry⟩ := createClient_ok hDone
  obtain ⟨-, hNewMode, hNewHosts, hUsed, hFree⟩ := prepareClient_address hPrepare
  refine ⟨record, by rw [hRegistry, Table.row?_set_of_ne _ _ hOther, hRow], hMode, hHosts, ?_⟩
  intro r other hRow' hNe
  rw [hRegistry, Table.row?_set] at hRow'
  split_ifs at hRow'
  · cases hRow'
    refine ⟨fun hPort => (mem_freePorts.mp hFree).2 name record hRow hPort.symm, fun _ hSame => ?_⟩
    have hModes : mode = mode' := mode_of_mem_hosts hHosts (hSame ▸ hNewHosts)
    exact hUsed (mem_usedIps.mpr ⟨name, record, hRow, hMode.trans hModes, hSame.symm⟩)
  · exact hApart r other hRow' hNe

theorem Created.addressed (h : Created s name mode) (hOther : name ∉ own)
    (hDone : Addressed own s t) : Created t name mode := by
  obtain ⟨record, hRow, hMode, hHosts, hApart⟩ := h
  refine ⟨record, by rw [hDone.other name hOther, hRow], hMode, hHosts, ?_⟩
  intro r other' hRow' hNe
  obtain ⟨other, hOld, hIp, hPort, hOtherMode⟩ := hDone.same r other' hRow'
  rw [← hIp, ← hPort, ← hOtherMode]
  exact hApart r other hOld hNe

theorem perform_of_performed (h : call.performed env s = some t) :
    call.perform env s = (t, none) := by
  unfold ClientCall.performed at h
  split at h
  · next hPerform => rw [hPerform, Option.some.inj h]
  · cases h

theorem answer_of_raised {outcome : Node × Except Refusal Bool}
    (h : (outcome.1, raised outcome.2) = (t, none)) : ∃ changed, outcome = (t, .ok changed) := by
  obtain ⟨u, answer⟩ := outcome
  obtain ⟨rfl, hAnswer⟩ := Prod.mk.inj h
  cases answer with
  | error refusal => cases hAnswer
  | ok changed => exact ⟨changed, rfl⟩

/-- A created client stays through a call about other records. -/
theorem Created.performed (h : Created s name mode) (hOther : name ∉ call.records)
    (hDone : call.performed env s = some t) : Created t name mode := by
  have hPerform := perform_of_performed hDone
  cases call with
  | create name' mode' draw' =>
    exact h.createClient (fun hSame => hOther (mem_singleton.mpr hSame)) hPerform
  | delete name' => exact h.addressed hOther (addressed_deleteClient hPerform)
  | suspend name' =>
    obtain ⟨changed, hHeld⟩ := answer_of_raised hPerform
    exact h.addressed hOther (@addressed_heldClient _ _ _ true changed hHeld)
  | unsuspend name' =>
    obtain ⟨changed, hHeld⟩ := answer_of_raised hPerform
    exact h.addressed hOther (@addressed_heldClient _ _ _ false changed hHeld)

theorem Created.exec {done : List ClientCall} (h : Created s name mode)
    (hOther : ∀ c ∈ done, name ∉ c.records)
    (hDone : Lib.exec (ClientCall.performed env) s done = some t) : Created t name mode := by
  have hKept : ∀ u (c : ClientCall) u', Created u name mode → name ∉ c.records →
      c.performed env u = some u' → Created u' name mode :=
    fun u c u' hCreated hRecords hStep => hCreated.performed hRecords hStep
  exact Lib.invariant_exec hKept h (Lib.along_of_forall (fun c hMem _ => hOther c hMem) s) hDone

/-- Whatever was created on the way is there at the end. -/
theorem created_of_exec {order : List ι} (hNodup : order.Nodup)
    (hDifferent : DifferentClients calls)
    (hDone : exec (ClientCall.performed env) s (order.map calls) = some t) (hMem : i ∈ order)
    (hCall : calls i = .create name mode draw) : Created t name mode := by
  obtain ⟨before, after, rfl⟩ := append_of_mem hMem
  rw [map_append, Lib.exec_append_iff] at hDone
  obtain ⟨u, -, hDone⟩ := hDone
  rw [map_cons, Lib.exec_cons_iff] at hDone
  obtain ⟨v, hCreate, hAfter⟩ := hDone
  rw [hCall] at hCreate
  have hCreated : Created v name mode := created_createClient (perform_of_performed hCreate)
  refine hCreated.exec (fun c hC => ?_) hAfter
  obtain ⟨j, hJ, rfl⟩ := mem_map.mp hC
  have hNe : i ≠ j := by
    rintro rfl
    exact (nodup_cons.mp (nodup_append.mp hNodup).2.1).1 hJ
  refine hDifferent i j hNe name ?_
  rw [hCall]
  exact mem_singleton_self name

/-- **Nothing is lost when no two calls are under way at once.** -/
theorem lossless_of_exclusive [DecidableEq ι] (hDifferent : DifferentClients calls)
    {turns : List ι} {last : CallState ι CallPhase Node}
    (hExec : exec (callStep (clientCalls env calls)) ((clientCalls env calls).start s) turns =
      some last)
    (hExclusive : Along (callStep (clientCalls env calls)) (Exclusive (clientCalls env calls))
      ((clientCalls env calls).start s) turns)
    (hReturned : ∀ i, last.phase i = .returned) : Lossless env calls s last.state := by
  obtain ⟨order, hNodup, hAll, hSerial⟩ := Lib.serial_of_exclusive rfl hExec hExclusive
    fun i => by rw [hReturned i]; rfl
  have hDone := exec_of_serially hSerial fun i _ => hReturned i
  exact ⟨⟨order, hNodup, hAll, hDone⟩, fun i name mode draw hCall =>
    created_of_exec hNodup hDifferent hDone (hAll i) hCall⟩

end

/-! ## Two creations -/

def officeEnv : Env where
  publicOf := fun key => key ++ "-public"
  endpointHost := "vpn.example"
  splitAllowedIps := []
  mtu := 1280

/-- A node without clients. -/
def emptyNode : Node := ⟨.empty, .empty, ⟨[("PrivateKey", "server")], []⟩, .empty⟩

def twoCreations : Fin 2 → ClientCall
  | 0 => .create "alice" .full ⟨"key-a", "psk-a", 0⟩
  | 1 => .create "bob" .full ⟨"key-b", "psk-b", 0⟩

theorem different_twoCreations : DifferentClients twoCreations := by
  unfold DifferentClients
  decide

/-- The run of the two creations. -/
def creationRun (turns : List (Fin 2)) : Option (CallState (Fin 2) CallPhase Node) :=
  exec (callStep (clientCalls officeEnv twoCreations))
    ((clientCalls officeEnv twoCreations).start emptyNode) turns

def CallPhase.isReturned : CallPhase → Bool
  | .returned => true
  | _ => false

theorem eq_returned {p : CallPhase} (h : p.isReturned = true) : p = .returned := by
  cases p <;> first | rfl | cases h

/-- What is there when both have returned. -/
theorem creationRun_returned {turns : List (Fin 2)}
    (h : ((creationRun turns).map fun s => (s.phase 0).isReturned && (s.phase 1).isReturned) =
      some true) :
    ∃ last, creationRun turns = some last ∧ ∀ i, last.phase i = .returned := by
  obtain ⟨last, hRun, hBoth⟩ := Option.map_eq_some_iff.mp h
  rw [Bool.and_eq_true] at hBoth
  refine ⟨last, hRun, fun i => ?_⟩
  rcases Fin.exists_fin_two.mp ⟨i, rfl⟩ with rfl | rfl
  · exact eq_returned hBoth.1
  · exact eq_returned hBoth.2

theorem lossless_oneByOne : ∃ last,
    creationRun [0, 0, 0, 0, 0, 0, 1, 1, 1, 1, 1, 1] = some last ∧
      Lossless officeEnv twoCreations emptyNode last.state := by
  obtain ⟨last, hRun, hReturned⟩ := @creationRun_returned [0, 0, 0, 0, 0, 0, 1, 1, 1, 1, 1, 1]
    (by decide)
  refine ⟨last, hRun, lossless_of_exclusive different_twoCreations hRun ?_ hReturned⟩
  unfold Exclusive
  decide

/-- Both have read the registry before one of them writes it: the first client is lost. -/
theorem not_always_lossless :
    ¬∀ env (calls : Fin 2 → ClientCall) s turns last, DifferentClients calls →
      exec (callStep (clientCalls env calls)) ((clientCalls env calls).start s) turns =
        some last →
      (∀ i, last.phase i = .returned) → Lossless env calls s last.state := by
  intro hAll
  obtain ⟨last, hRun, hReturned⟩ := @creationRun_returned [0, 1, 0, 0, 0, 0, 0, 1, 1, 1, 1, 1]
    (by decide)
  have hLost : ((creationRun [0, 1, 0, 0, 0, 0, 0, 1, 1, 1, 1, 1]).map fun s =>
      (s.state.registry.row? "alice").isNone) = some true := by decide
  rw [hRun, Option.map_some, Option.some.injEq, Option.isNone_iff_eq_none] at hLost
  obtain ⟨record, hRow, -⟩ :=
    (hAll officeEnv twoCreations emptyNode _ last different_twoCreations hRun hReturned).created 0
      "alice" .full ⟨"key-a", "psk-a", 0⟩ rfl
  rw [hLost] at hRow
  cases hRow

end AdminPanel.Awg3Clients
