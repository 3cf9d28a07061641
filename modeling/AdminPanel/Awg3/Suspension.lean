import AdminPanel.Awg3.Clients

/-!
# Suspending AmneziaWG 3 clients

Suspending takes the peers of a client away and keeps its records, so that they can be restored
with the same keys and addresses. A profile is written again from its record.

* `suspendClient`, `unsuspendClient`, `getClientConfig` — the operations, when no command fails;
* `Node.view` — a record with its live peer and its blocks;
* `Frame` — what an operation on some records does not touch;
* `holds_suspendRecord`, `holds_unsuspendRecord`, `applyToRecords_spec` — what becomes of the
  records, one after the other;
* `frame_of_without`, `frame_getClientConfig` — the frames of the other operations.
-/

namespace AdminPanel.Awg3Clients

open List

open Lib (Table)

/-! ## The operations -/

/-- The peer of a record. -/
def Record.peer (record : Record) : Peer := ⟨record.psk, record.ip⟩

def Record.block (record : Record) (name : String) : PeerBlock :=
  ⟨name, record.publicKey, record.psk, record.ip⟩

def Conf.append (conf : Conf) (block : PeerBlock) : Conf :=
  { conf with peers := conf.peers ++ [block] }

/-- The peer is removed, and the record keeps its keys. -/
def Node.suspended (s : Node) (name : String) (record : Record) : Node :=
  { s with
    live := s.live.erase record.publicKey
    conf := s.conf.drop record.publicKey
    registry := s.registry.set name { record with suspended := true } }

/-- The peer is back, with the same key, PSK and address. -/
def Node.restored (s : Node) (name : String) (record : Record) : Node :=
  { s with
    live := s.live.set record.publicKey record.peer
    conf := s.conf.append (record.block name)
    registry := s.registry.set name { record with suspended := false } }

/-- `_suspend_record`; the answer says whether the peer was active. -/
def suspendRecord (s : Node) (name : String) : Node × Except Refusal Bool :=
  match s.registry.row? name with
  | none => (s, .error .notFound)
  | some record =>
    if record.suspended then (s, .ok false) else (s.suspended name record, .ok true)

def unsuspendRecord (s : Node) (name : String) : Node × Except Refusal Bool :=
  match s.registry.row? name with
  | none => (s, .error .notFound)
  | some record =>
    if !record.suspended then (s, .ok false) else (s.restored name record, .ok true)

def applyToRecords (fn : Node → String → Node × Except Refusal Bool) (s : Node)
    (changed : Bool) : List String → Node × Except Refusal Bool
  | [] => (s, .ok changed)
  | record :: records =>
    match fn s record with
    | (s', .error refusal) => (s', .error refusal)
    | (s', .ok now) => applyToRecords fn s' (now || changed) records

/-- The records that `suspend_client` and `unsuspend_client` go on to. -/
def heldRecords (s : Node) (name : String) : List String :=
  if (s.registry.row? name).isNone then recordsFor s name else [name]

def suspendClient (s : Node) (name : String) : Node × Except Refusal Bool :=
  applyToRecords suspendRecord s false (heldRecords s name)

def unsuspendClient (s : Node) (name : String) : Node × Except Refusal Bool :=
  applyToRecords unsuspendRecord s false (heldRecords s name)

def raised : Except Refusal Bool → Option Refusal
  | .error refusal => some refusal
  | .ok _ => none

/-- The profile that `build_config` makes of a record. -/
def profileOf (env : Env) (conf : Conf) (serverPrivate : String) (record : Record) : Profile where
  mode := record.modeOf
  privateKey := record.privateKey
  ip := record.ip
  mtu := env.mtu
  obfuscation := conf.obfuscation
  serverPublic := env.publicOf serverPrivate
  psk := record.psk
  endpointHost := env.endpointHost
  port := record.portOf
  allowedIps := allowedIpsFor record.modeOf env.splitAllowedIps

/-- `get_client_config`, which writes the profile file again. -/
def getClientConfig (env : Env) (s : Node) (name : String) : Node × Except Refusal Profile :=
  match s.registry.row? name, s.conf.value? "PrivateKey" with
  | none, _ => (s, .error .notFound)
  | _, none => (s, .error .noServerKey)
  | some record, some serverPrivate =>
    let profile := profileOf env s.conf serverPrivate record
    ({ s with profiles := s.profiles.set (record.modeOf, name) profile }, .ok profile)

/-! ## Frames -/

/-- The blocks of `awg1.conf` with the key. -/
def Conf.blocksOf (conf : Conf) (publicKey : String) : List PeerBlock :=
  conf.peers.filter (·.publicKey = publicKey)

/-- `t` is `s` but for the records `own`, their peers and their profile files. -/
structure Frame (own : List String) (s t : Node) : Prop where
  registry : ∀ r ∉ own, t.registry.row? r = s.registry.row? r
  live : ∀ key ∉ s.ownKeys own, t.live.row? key = s.live.row? key
  blocks : ∀ key ∉ s.ownKeys own, t.conf.blocksOf key = s.conf.blocksOf key
  profiles : ∀ mode, ∀ r ∉ own, t.profiles.row? (mode, r) = s.profiles.row? (mode, r)

/-- The records have the keys that they had. -/
def SameKeys (s t : Node) : Prop :=
  ∀ r, (t.registry.row? r).map (·.publicKey) = (s.registry.row? r).map (·.publicKey)

variable {s t u : Node} {own : List String} {name : String} {record : Record}

theorem Frame.refl (own : List String) (s : Node) : Frame own s s :=
  ⟨fun _ _ => rfl, fun _ _ => rfl, fun _ _ => rfl, fun _ _ _ => rfl⟩

variable {key : String}

theorem mem_ownKeys : key ∈ s.ownKeys own ↔
    ∃ r ∈ own, ∃ record, s.registry.row? r = some record ∧ record.publicKey = key := by
  simp [Node.ownKeys, mem_filterMap]

theorem SameKeys.ownKeys (h : SameKeys s t) (own : List String) : t.ownKeys own = s.ownKeys own :=
  filterMap_congr fun r _ => h r

theorem SameKeys.trans (h : SameKeys s t) (h' : SameKeys t u) : SameKeys s u :=
  fun r => (h' r).trans (h r)

theorem Frame.trans (h : Frame own s t) (hKeys : SameKeys s t) (h' : Frame own t u) :
    Frame own s u where
  registry := fun r hr => (h'.registry r hr).trans (h.registry r hr)
  live := fun key hk =>
    (h'.live key (hKeys.ownKeys own ▸ hk)).trans (h.live key hk)
  blocks := fun key hk =>
    (h'.blocks key (hKeys.ownKeys own ▸ hk)).trans (h.blocks key hk)
  profiles := fun mode r hr => (h'.profiles mode r hr).trans (h.profiles mode r hr)

theorem Frame.mono {own' : List String} (h : Frame own s t) (hSub : ∀ r ∈ own, r ∈ own') :
    Frame own' s t := by
  have hKeys : ∀ key, key ∈ s.ownKeys own → key ∈ s.ownKeys own' := by
    intro key hKey
    obtain ⟨r, hMem, hRow⟩ := mem_ownKeys.mp hKey
    exact mem_ownKeys.mpr ⟨r, hSub r hMem, hRow⟩
  exact ⟨fun r hr => h.registry r fun hMem => hr (hSub r hMem),
    fun key hk => h.live key fun hMem => hk (hKeys key hMem),
    fun key hk => h.blocks key fun hMem => hk (hKeys key hMem),
    fun mode r hr => h.profiles mode r fun hMem => hr (hSub r hMem)⟩

theorem blocksOf_drop (conf : Conf) {other : String} (h : other ≠ key) :
    (conf.drop key).blocksOf other = conf.blocksOf other := by
  simp only [Conf.blocksOf, Conf.drop, filter_filter]
  refine filter_congr fun block _ => ?_
  by_cases hOther : block.publicKey = other <;> simp [hOther, h]

theorem blocksOf_drop_self (conf : Conf) (key : String) : (conf.drop key).blocksOf key = [] := by
  simp [Conf.blocksOf, Conf.drop, filter_filter]

theorem blocksOf_append (conf : Conf) (block : PeerBlock) (key : String) :
    (conf.append block).blocksOf key =
      conf.blocksOf key ++ if block.publicKey = key then [block] else [] := by
  simp only [Conf.blocksOf, Conf.append, filter_append]
  congr 1
  by_cases h : block.publicKey = key <;> simp [h]

theorem ne_of_notMem_ownKeys (hRow : s.registry.row? name = some record)
    (h : key ∉ s.ownKeys [name]) : key ≠ record.publicKey := by
  rintro rfl
  exact h (mem_ownKeys.mpr ⟨name, mem_singleton_self name, record, hRow, rfl⟩)

/-! ## Views -/

/-- A record, the live peer of its key and the blocks with its key. -/
structure View where
  record : Record
  live : Option Peer
  blocks : List PeerBlock
  deriving DecidableEq, Repr

def Node.view (s : Node) (name : String) : Option View :=
  (s.registry.row? name).map fun record =>
    ⟨record, s.live.row? record.publicKey, s.conf.blocksOf record.publicKey⟩

/-- No two records have one key. -/
def KeysApart (s : Node) : Prop :=
  ∀ r r' record record', s.registry.row? r = some record → s.registry.row? r' = some record' →
    record.publicKey = record'.publicKey → r = r'

theorem KeysApart.sameKeys (h : KeysApart s) (hKeys : SameKeys s t) : KeysApart t := by
  have hOld : ∀ r record, t.registry.row? r = some record →
      ∃ old, s.registry.row? r = some old ∧ old.publicKey = record.publicKey := by
    intro r record hRow
    have hKey := hKeys r
    rw [hRow, Option.map_some] at hKey
    exact Option.map_eq_some_iff.mp hKey.symm
  intro r r' record record' hRow hRow' hSame
  obtain ⟨old, hOldRow, hKey⟩ := hOld r record hRow
  obtain ⟨old', hOldRow', hKey'⟩ := hOld r' record' hRow'
  exact h r r' old old' hOldRow hOldRow' (by rw [hKey, hKey', hSame])

/-- Other records are seen as before. -/
theorem Frame.view (h : Frame own s t) (hKeys : KeysApart s) {r : String} (hOther : r ∉ own) :
    t.view r = s.view r := by
  unfold Node.view
  rw [h.registry r hOther]
  cases hRow : s.registry.row? r with
  | none => rfl
  | some record =>
    have hKey : record.publicKey ∉ s.ownKeys own := by
      intro hMem
      obtain ⟨r', hOwn, record', hRow', hSame⟩ := mem_ownKeys.mp hMem
      exact hOther (hKeys r' r record' record hRow' hRow hSame ▸ hOwn)
    rw [Option.map_some, Option.map_some, h.live _ hKey, h.blocks _ hKey]

/-- What a record is seen as once it is suspended, or not any more. -/
def View.held (suspended : Bool) (name : String) (view : View) : View :=
  if view.record.suspended = suspended then view
  else
    { record := { view.record with suspended := suspended }
      live := if suspended then none else some view.record.peer
      blocks := if suspended then [] else view.blocks ++ [view.record.block name] }

/-- The operation on a record holds it suspended, or not, and touches nothing else. -/
def Holds (fn : Node → String → Node × Except Refusal Bool) (suspended : Bool) : Prop :=
  ∀ s name, (s.registry.row? name).isSome = true → ∃ t changed, fn s name = (t, .ok changed) ∧
    Frame [name] s t ∧ SameKeys s t ∧ t.view name = (s.view name).map (View.held suspended name)

theorem sameKeys_set {record' : Record} (hRow : s.registry.row? name = some record)
    (hKey : record'.publicKey = record.publicKey)
    (hRegistry : t.registry = s.registry.set name record') : SameKeys s t := by
  intro r
  rw [hRegistry, Table.row?_set]
  by_cases hSame : r = name
  · rw [if_pos hSame, hSame, hRow, Option.map_some, Option.map_some, hKey]
  · rw [if_neg hSame]

theorem sameKeys_suspended (hRow : s.registry.row? name = some record) :
    SameKeys s (s.suspended name record) :=
  sameKeys_set hRow (show ({ record with suspended := true } : Record).publicKey = _ from rfl) rfl

theorem sameKeys_restored (hRow : s.registry.row? name = some record) :
    SameKeys s (s.restored name record) :=
  sameKeys_set hRow (show ({ record with suspended := false } : Record).publicKey = _ from rfl) rfl

/-- A suspension holds its record and touches no other. -/
theorem holds_suspendRecord : Holds suspendRecord true := by
  intro s name hSome
  obtain ⟨record, hRow⟩ := Option.isSome_iff_exists.mp hSome
  rw [suspendRecord, hRow]
  cases hState : record.suspended with
  | true =>
    refine ⟨s, false, by simp [hState], .refl _ s, fun r => rfl, ?_⟩
    simp [Node.view, hRow, View.held, hState]
  | false =>
    refine ⟨s.suspended name record, true, by simp [hState], ⟨?_, ?_, ?_, fun _ _ _ => rfl⟩,
      sameKeys_suspended hRow, ?_⟩
    · intro r hr
      exact Table.row?_set_of_ne _ _ fun hSame => hr (hSame ▸ mem_singleton_self _)
    · intro key hk
      show (s.live.erase record.publicKey).row? key = _
      rw [Table.row?_erase, if_neg (ne_of_notMem_ownKeys hRow hk)]
    · exact fun key hk => blocksOf_drop _ (ne_of_notMem_ownKeys hRow hk)
    · simp [Node.view, Node.suspended, hRow, View.held, hState, Table.row?_erase,
        blocksOf_drop_self]

/-- So does its end. -/
theorem holds_unsuspendRecord : Holds unsuspendRecord false := by
  intro s name hSome
  obtain ⟨record, hRow⟩ := Option.isSome_iff_exists.mp hSome
  rw [unsuspendRecord, hRow]
  cases hState : record.suspended with
  | false =>
    refine ⟨s, false, by simp [hState], .refl _ s, fun r => rfl, ?_⟩
    simp [Node.view, hRow, View.held, hState]
  | true =>
    refine ⟨s.restored name record, true, by simp [hState], ⟨?_, ?_, ?_, fun _ _ _ => rfl⟩,
      sameKeys_restored hRow, ?_⟩
    · intro r hr
      exact Table.row?_set_of_ne _ _ fun hSame => hr (hSame ▸ mem_singleton_self _)
    · exact fun key hk => Table.row?_set_of_ne _ _ (ne_of_notMem_ownKeys hRow hk)
    · intro key hk
      show (s.conf.append (record.block name)).blocksOf key = _
      have hNe : ¬ (record.block name).publicKey = key := Ne.symm (ne_of_notMem_ownKeys hRow hk)
      rw [blocksOf_append, if_neg hNe, append_nil]
    · simp [Node.view, Node.restored, hRow, View.held, hState, blocksOf_append, Record.block,
        Record.peer]

/-- **The records one after the other.** -/
theorem applyToRecords_spec {fn : Node → String → Node × Except Refusal Bool} {suspended : Bool}
    (hFn : Holds fn suspended) {names : List String} (hNodup : names.Nodup)
    (hIn : ∀ r ∈ names, (s.registry.row? r).isSome = true) (hApart : KeysApart s) (changed : Bool) :
    ∃ t answer, applyToRecords fn s changed names = (t, .ok answer) ∧ Frame names s t ∧
      SameKeys s t ∧ ∀ r ∈ names, t.view r = (s.view r).map (View.held suspended r) := by
  induction names generalizing s changed with
  | nil => exact ⟨s, changed, rfl, .refl _ s, fun r => rfl, by simp⟩
  | cons name names ih =>
    rw [forall_mem_cons] at hIn
    obtain ⟨hNew, hNodup⟩ := nodup_cons.mp hNodup
    obtain ⟨u, now, hFirst, hFrame, hKeys, hView⟩ := hFn s name hIn.1
    have hStill : ∀ r ∈ names, (u.registry.row? r).isSome = true := by
      intro r hMem
      rw [hFrame.registry r (by simpa using ne_of_mem_of_not_mem hMem hNew)]
      exact hIn.2 r hMem
    obtain ⟨t, answer, hRest, hFrame', hKeys', hViews⟩ :=
      ih hNodup hStill (hApart.sameKeys hKeys) (now || changed)
    refine ⟨t, answer, ?_, ?_, hKeys.trans hKeys', ?_⟩
    · rw [applyToRecords, hFirst]
      exact hRest
    · have hHead : Frame (name :: names) s u :=
        hFrame.mono fun r hMem => mem_singleton.mp hMem ▸ mem_cons_self
      exact hHead.trans hKeys (hFrame'.mono fun r hMem => mem_cons_of_mem _ hMem)
    · rw [forall_mem_cons]
      constructor
      · rw [hFrame'.view (hApart.sameKeys hKeys) hNew, hView]
      · intro r hMem
        rw [hViews r hMem, hFrame.view hApart
          (by simpa using ne_of_mem_of_not_mem hMem hNew)]

/-! ## The other operations -/

theorem frame_of_without (h : Without s own t) : Frame own s t where
  registry := fun r hr => by rw [h.registry, if_neg hr]
  live := fun key hk => by rw [h.live, if_neg hk]
  blocks := by
    intro key hk
    rw [h.conf]
    simp only [Conf.blocksOf, Conf.dropAll, filter_filter]
    refine filter_congr fun block _ => ?_
    by_cases hKey : block.publicKey = key <;> simp [hKey, hk]
  profiles := fun mode r hr => (h.profiles (mode, r)).2 fun hOwns => hr hOwns.1

/-- Nothing is left of records that were deleted. -/
structure Gone (s t : Node) (name : String) : Prop where
  registry : t.registry.row? name = none
  peers : ∀ record, s.registry.row? name = some record →
    t.live.row? record.publicKey = none ∧ t.conf.blocksOf record.publicKey = [] ∧
      t.profiles.row? (record.modeOf, name) = none

theorem gone_of_without (h : Without s own t) (hOwn : name ∈ own) : Gone s t name where
  registry := by rw [h.registry, if_pos hOwn]
  peers := by
    intro record hRow
    have hKey : record.publicKey ∈ s.ownKeys own := mem_ownKeys.mpr ⟨name, hOwn, record, hRow, rfl⟩
    refine ⟨by rw [h.live, if_pos hKey], ?_, ?_⟩
    · rw [h.conf]
      simp only [Conf.blocksOf, Conf.dropAll, filter_filter, filter_eq_nil_iff]
      intro block _
      by_cases hSame : block.publicKey = record.publicKey <;> simp [hSame, hKey]
    · exact (h.profiles (record.modeOf, name)).1 ⟨hOwn, by rw [hRow]; rfl⟩

/-- A profile is written again, and nothing else. -/
theorem frame_getClientConfig (env : Env) (s : Node) (name : String) :
    Frame [name] s (getClientConfig env s name).1 ∧
      (getClientConfig env s name).1.view name = s.view name := by
  unfold getClientConfig
  cases s.registry.row? name with
  | none => exact ⟨.refl _ s, rfl⟩
  | some record =>
    cases s.conf.value? "PrivateKey" with
    | none => exact ⟨.refl _ s, rfl⟩
    | some serverPrivate =>
      refine ⟨⟨fun _ _ => rfl, fun _ _ => rfl, fun _ _ => rfl, fun mode r hr => ?_⟩, rfl⟩
      refine Table.row?_set_of_ne _ _ fun hSame => ?_
      exact hr (by rw [(Prod.mk.inj hSame).2]; exact mem_singleton_self name)

end AdminPanel.Awg3Clients
