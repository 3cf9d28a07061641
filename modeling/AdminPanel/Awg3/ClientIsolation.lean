import AdminPanel.Awg3.Requests
import AdminPanel.Awg3.Suspension
import AdminPanel.Lib.Runs

/-!
# One AmneziaWG 3 client at a time

The operations take the name of a client or of a record, and go by whether the registry has a
record of that name. So they are about one client only as long as no client is called like a record
of another one.

* `World`, `worldStep` — the clients of a node, each a pair of records or a single one;
* `Isolated` — each operation on a client acts on all of its records and on no other client's;
* `NamesApart` — no client is created that is called like a record, or whose record is called
  like a client;
* `not_always_isolated` — a pair that is called like a record is not deleted.

Main result: `isolated_of_apart`.
-/

namespace AdminPanel.Awg3Clients

open Option List

open Lib (Table exec Along along_of_guard invariant_exec)

/-! ## Clients -/

/-- A client of the panel has two records, an older one the single record of its name. -/
inductive Kind
  | pair
  | single
  deriving DecidableEq, Repr

def Kind.records (name : String) : Kind → List String
  | .pair => [profileRecord name .split, profileRecord name .full]
  | .single => [name]

structure World where
  node : Node
  clients : Table String Kind

inductive WorldAction
  | create (name : String) (draws : Draws)
  | createSingle (name : String) (mode : Mode) (draw : Draw)
  | delete (name : String)
  | suspend (name : String)
  | unsuspend (name : String)
  | getConfig (record : String)

/-- The name rule, and no client has the name. -/
def World.admits (w : World) (name : String) : Bool :=
  validName name && name.length ≤ baseNameMax && (w.clients.row? name).isNone

def worldStep (env : Env) (w : World) : WorldAction → Option World
  | .create name draws =>
    some (if w.admits name then
      match createRecords env w.node name draws {} with
      | (node, none) => ⟨node, w.clients.set name .pair⟩
      | (node, some _) => { w with node }
    else w)
  | .createSingle name mode draw =>
    some (if w.admits name then
      match createClient env w.node name mode draw none with
      | (node, none) => ⟨node, w.clients.set name .single⟩
      | (node, some _) => { w with node }
    else w)
  | .delete name =>
    some (if (w.clients.row? name).isSome then
      match deleteClient w.node name none with
      | (node, none) => ⟨node, w.clients.erase name⟩
      | (node, some _) => { w with node }
    else w)
  | .suspend name =>
    some (if (w.clients.row? name).isSome then { w with node := (suspendClient w.node name).1 }
      else w)
  | .unsuspend name =>
    some (if (w.clients.row? name).isSome then { w with node := (unsuspendClient w.node name).1 }
      else w)
  | .getConfig record => some { w with node := (getClientConfig env w.node record).1 }

/-! ## Isolation -/

/-- The records of other clients, with their peers, blocks and profile files, are as they were. -/
def OthersKept (w : World) (name : String) (t : Node) : Prop :=
  ∀ other kind, w.clients.row? other = some kind → other ≠ name → ∀ r ∈ kind.records other,
    t.view r = w.node.view r ∧ ∀ mode, t.profiles.row? (mode, r) = w.node.profiles.row? (mode, r)

/-- What an operation is to do for a client with these records. -/
structure ActsOn (env : Env) (w : World) (name : String) (records : List String) : Prop where
  delete : ∀ r ∈ records, Gone w.node (deleteClient w.node name none).1 r
  suspend : ∀ r ∈ records,
    (suspendClient w.node name).1.view r = (w.node.view r).map (View.held true r)
  unsuspend : ∀ r ∈ records,
    (unsuspendClient w.node name).1.view r = (w.node.view r).map (View.held false r)
  getConfig : ∀ r ∈ records, ∀ record serverPrivate, w.node.registry.row? r = some record →
    w.node.conf.value? "PrivateKey" = some serverPrivate →
    (getClientConfig env w.node r).1.profiles.row? (record.modeOf, r) =
      some (profileOf env w.node.conf serverPrivate record)

/-- The operations on a client act on all of its records, and touch no other client. -/
structure Isolated (env : Env) (w : World) (name : String) (kind : Kind) : Prop where
  acts : ActsOn env w name (kind.records name)
  delete : OthersKept w name (deleteClient w.node name none).1
  suspend : OthersKept w name (suspendClient w.node name).1
  unsuspend : OthersKept w name (unsuspendClient w.node name).1
  getConfig : ∀ r ∈ kind.records name, OthersKept w name (getClientConfig env w.node r).1

/-- The keys that `awg genkey` draws are new. -/
def FreshKeys (env : Env) (w : World) : WorldAction → Prop
  | .create _ draws => env.publicOf draws.split.privateKey ≠ env.publicOf draws.full.privateKey ∧
      ∀ draw ∈ [draws.split, draws.full], ∀ r record, w.node.registry.row? r = some record →
        record.publicKey ≠ env.publicOf draw.privateKey
  | .createSingle _ _ draw => ∀ r record, w.node.registry.row? r = some record →
      record.publicKey ≠ env.publicOf draw.privateKey
  | _ => True

/-- No pair is created that is called like a record, or like the client of whose name one of its
records is. -/
def NamesApart (w : World) : WorldAction → Prop
  | .create name _ => w.node.registry.row? name = none ∧
      ∀ r ∈ Kind.pair.records name, w.clients.row? r = none
  | _ => True

/-! ## The invariant -/

/-- Every record is of one client, and no pair is called like a record. -/
structure WorldInv (w : World) : Prop where
  named : ∀ name kind, w.clients.row? name = some kind → name ≠ ""
  owned : ∀ name kind, w.clients.row? name = some kind → ∀ r ∈ kind.records name,
    (w.node.registry.row? r).isSome = true
  single : ∀ name kind name' kind' r, w.clients.row? name = some kind →
    w.clients.row? name' = some kind' → r ∈ kind.records name → r ∈ kind'.records name' →
    name = name'
  apart : ∀ name, w.clients.row? name = some .pair → w.node.registry.row? name = none
  keys : KeysApart w.node

variable {env : Env} {w v : World} {name : String} {kind : Kind} {a : WorldAction}

theorem nodup_records (name : String) (kind : Kind) : (kind.records name).Nodup := by
  cases kind with
  | pair => exact nodup_cons.mpr ⟨by simpa using profileRecord_ne name, nodup_singleton _⟩
  | single => exact nodup_singleton name

theorem notMem_records (hInv : WorldInv w) {other : String} {kind' : Kind}
    (hClient : w.clients.row? name = some kind) (hOther : w.clients.row? other = some kind')
    (hNe : other ≠ name) {r : String} (hMem : r ∈ kind'.records other) : r ∉ kind.records name :=
  fun hOwn => hNe (hInv.single other kind' name kind r hOther hClient hMem hOwn)

variable {t : Node}

theorem othersKept_of_frame (hInv : WorldInv w) (hClient : w.clients.row? name = some kind)
    (hFrame : Frame (kind.records name) w.node t) : OthersKept w name t := by
  intro other kind' hOther hNe r hMem
  have hApart := notMem_records hInv hClient hOther hNe hMem
  exact ⟨hFrame.view hInv.keys hApart, fun mode => hFrame.profiles mode r hApart⟩

/-- The records that the operations go on to are those of the client. -/
theorem recordsFor_pair (h : ∀ r ∈ Kind.pair.records name, (w.node.registry.row? r).isSome = true) :
    recordsFor w.node name = Kind.pair.records name := by
  have hFilter : ([profileRecord name .split, profileRecord name .full].filter fun record =>
      (w.node.registry.row? record).isSome) = Kind.pair.records name :=
    filter_eq_self.mpr fun r hMem => h r hMem
  rw [recordsFor, hFilter]
  exact if_neg (cons_ne_nil _ _)

theorem heldRecords_eq (hInv : WorldInv w) (hClient : w.clients.row? name = some kind) :
    heldRecords w.node name = kind.records name := by
  have hOwned := hInv.owned name kind hClient
  unfold heldRecords
  cases kind with
  | pair => rw [hInv.apart name hClient, isNone_none, if_pos rfl, recordsFor_pair hOwned]
  | single =>
    have hSome := hOwned name (mem_singleton_self name)
    rw [if_neg (by rw [isNone_iff_eq_none]; exact isSome_iff_ne_none.mp hSome)]
    rfl

theorem targets_eq (hInv : WorldInv w) (hClient : w.clients.row? name = some kind) :
    targets w.node name = kind.records name := by
  have hOwned := hInv.owned name kind hClient
  cases kind with
  | single => exact targets_of_isSome (hOwned name (mem_singleton_self name))
  | pair =>
    have hAz := hOwned (profileRecord name .split) mem_cons_self
    have hAny : w.node.registry.keys.any (baseName · = name) = true :=
      any_eq_true.mpr ⟨_, (w.node.registry.mem_keys _).mpr hAz,
        decide_eq_true (baseName_profileRecord (hInv.named name _ hClient) .split)⟩
    rw [targets, hInv.apart name hClient, hAny, isNone_none, Bool.and_self, if_pos rfl,
      recordsFor_pair hOwned]

/-- **Every operation on a client is about its records.** -/
theorem isolated_of_inv (env : Env) (hInv : WorldInv w) (hClient : w.clients.row? name = some kind) :
    Isolated env w name kind := by
  have hOwned := hInv.owned name kind hClient
  have hNodup := nodup_records name kind
  obtain ⟨deleted, hDelete, hWithout⟩ := deleteRecords_none hOwned hNodup
  obtain ⟨suspended, changed, hSuspend, hSuspendFrame, -, hSuspendViews⟩ :=
    applyToRecords_spec holds_suspendRecord hNodup hOwned hInv.keys false
  obtain ⟨restored, changed', hRestore, hRestoreFrame, -, hRestoreViews⟩ :=
    applyToRecords_spec holds_unsuspendRecord hNodup hOwned hInv.keys false
  have hDeleted : (deleteClient w.node name none).1 = deleted := by
    rw [deleteClient, targets_eq hInv hClient, hDelete]
  have hSuspended : (suspendClient w.node name).1 = suspended := by
    rw [suspendClient, heldRecords_eq hInv hClient, hSuspend]
  have hRestored : (unsuspendClient w.node name).1 = restored := by
    rw [unsuspendClient, heldRecords_eq hInv hClient, hRestore]
  refine ⟨⟨?_, ?_, ?_, ?_⟩, ?_, ?_, ?_, ?_⟩
  · exact fun r hMem => hDeleted ▸ gone_of_without hWithout hMem
  · exact fun r hMem => hSuspended ▸ hSuspendViews r hMem
  · exact fun r hMem => hRestored ▸ hRestoreViews r hMem
  · intro r _ record serverPrivate hRow hKey
    rw [getClientConfig, hRow, hKey]
    exact Table.row?_set_self _ _ _
  · exact hDeleted ▸ othersKept_of_frame hInv hClient (frame_of_without hWithout)
  · exact hSuspended ▸ othersKept_of_frame hInv hClient hSuspendFrame
  · exact hRestored ▸ othersKept_of_frame hInv hClient hRestoreFrame
  · intro r hMem
    refine othersKept_of_frame hInv hClient ((frame_getClientConfig env w.node r).1.mono ?_)
    exact fun r' hSame => mem_singleton.mp hSame ▸ hMem

/-! ## Steps -/

variable {s : Node}

theorem SameKeys.isSome (h : SameKeys s t) (r : String) :
    (t.registry.row? r).isSome = (s.registry.row? r).isSome := by
  rw [← isSome_map, h r, isSome_map]

theorem sameKeys_of_rows (h : ∀ r, t.registry.row? r = s.registry.row? r) : SameKeys s t := fun r => by rw [h r]

/-- Records that keep their keys are of the clients that they were of. -/
theorem WorldInv.sameKeys (hInv : WorldInv w) (h : SameKeys w.node t) : WorldInv { w with node := t } where
  named := hInv.named
  owned := fun name kind hClient r hMem => by
    show (t.registry.row? r).isSome = true
    rw [h.isSome]
    exact hInv.owned name kind hClient r hMem
  single := hInv.single
  apart := fun name hClient => by
    have hNone := hInv.apart name hClient
    rw [← not_isSome_iff_eq_none] at hNone ⊢
    rwa [h.isSome]
  keys := hInv.keys.sameKeys h

/-- A deletion takes the records of its client and of no other. -/
theorem worldInv_delete (hInv : WorldInv w) (hClient : w.clients.row? name = some kind)
    (hWithout : Without w.node (kind.records name) t) :
    WorldInv ⟨t, w.clients.erase name⟩ := by
  have hOld : ∀ {other : String} {kind' : Kind},
      (w.clients.erase name).row? other = some kind' →
        other ≠ name ∧ w.clients.row? other = some kind' := by
    intro other kind' hRow
    rw [Table.row?_erase] at hRow
    split at hRow
    · cases hRow
    · next hNe => exact ⟨hNe, hRow⟩
  have hRow : ∀ {r : String} {record : Record}, t.registry.row? r = some record →
      w.node.registry.row? r = some record := by
    intro r record hRow
    rw [hWithout.registry] at hRow
    split at hRow
    · cases hRow
    · exact hRow
  refine ⟨fun other kind' h => hInv.named other kind' (hOld h).2, ?_, ?_, ?_, ?_⟩
  · intro other kind' hOther r hMem
    obtain ⟨hNe, hOther⟩ := hOld hOther
    show (t.registry.row? r).isSome = true
    rw [hWithout.registry, if_neg (notMem_records hInv hClient hOther hNe hMem)]
    exact hInv.owned other kind' hOther r hMem
  · exact fun n k n' k' r h h' => hInv.single n k n' k' r (hOld h).2 (hOld h').2
  · intro other hOther
    show t.registry.row? other = none
    rw [hWithout.registry, hInv.apart other (hOld hOther).2, ite_self]
  · exact fun r r' record record' h h' => hInv.keys r r' record record' (hRow h) (hRow h')

/-- New records, under new keys, for a new client. -/
theorem worldInv_create (hInv : WorldInv w) (hNamed : name ≠ "") (hNew : w.clients.row? name = none)
    (hVacant : ∀ r ∈ kind.records name, w.node.registry.row? r = none)
    (hMade : ∀ r ∈ kind.records name, (t.registry.row? r).isSome = true)
    (hKept : ∀ r ∉ kind.records name, t.registry.row? r = w.node.registry.row? r)
    (hKeys : KeysApart t)
    (hApart : ∀ other, w.clients.row? other = some .pair → other ∉ kind.records name)
    (hOwn : kind = .pair → w.node.registry.row? name = none ∧ name ∉ kind.records name) :
    WorldInv ⟨t, w.clients.set name kind⟩ := by
  have hCases : ∀ {other : String} {kind' : Kind},
      (w.clients.set name kind).row? other = some kind' →
        other = name ∧ kind' = kind ∨ w.clients.row? other = some kind' := by
    intro other kind' hRow
    rw [Table.row?_set] at hRow
    split at hRow
    · next hSame => exact .inl ⟨hSame, (Option.some.inj hRow).symm⟩
    · exact .inr hRow
  have hTaken : ∀ {other : String} {kind' : Kind} {r : String},
      w.clients.row? other = some kind' → r ∈ kind'.records other → r ∉ kind.records name := by
    intro other kind' r hOther hMem hNewMem
    have hSome := hInv.owned other kind' hOther r hMem
    rw [hVacant r hNewMem] at hSome
    cases hSome
  refine ⟨?_, ?_, ?_, ?_, hKeys⟩
  · intro other kind' h
    rcases hCases h with ⟨rfl, -⟩ | h
    · exact hNamed
    · exact hInv.named other kind' h
  · intro other kind' h r hMem
    rcases hCases h with ⟨rfl, rfl⟩ | h
    · exact hMade r hMem
    · show (t.registry.row? r).isSome = true
      rw [hKept r (hTaken h hMem)]
      exact hInv.owned other kind' h r hMem
  · intro n k n' k' r hRow hRow' hMem hMem'
    rcases hCases hRow with ⟨hName, hKind⟩ | hOld <;>
      rcases hCases hRow' with ⟨hName', hKind'⟩ | hOld'
    · rw [hName, hName']
    · exact absurd (hName ▸ hKind ▸ hMem) (hTaken hOld' hMem')
    · exact absurd (hName' ▸ hKind' ▸ hMem') (hTaken hOld hMem)
    · exact hInv.single n k n' k' r hOld hOld' hMem hMem'
  · intro other h
    show t.registry.row? other = none
    rcases hCases h with ⟨rfl, rfl⟩ | h
    · obtain ⟨hNone, hNot⟩ := hOwn rfl
      rw [hKept _ hNot, hNone]
    · rw [hKept _ (hApart other h), hInv.apart other h]

/-- A creation that is refused leaves the records as they were. -/
theorem createRecords_refused {draws : Draws} {refusal : Refusal}
    (h : createRecords env s name draws {} = (t, some refusal)) (r : String) :
    t.registry.row? r = s.registry.row? r := by
  unfold createRecords at h
  cases hSplit : prepareClient env s (profileRecord name .split) .split draws.split with
  | error refused =>
    simp only [createClient, hSplit] at h
    obtain ⟨rfl, -⟩ := Prod.mk.inj h
    rfl
  | ok new =>
    cases hFull : prepareClient env (s.created new none) (profileRecord name .full) .full
        draws.full with
    | error refused =>
      simp only [createClient, hSplit, map_none, hFull] at h
      obtain ⟨rfl, -⟩ := Prod.mk.inj h
      obtain ⟨hReady, serverPrivate, ip, port, -, -, hNew⟩ := prepareClient_ok hSplit
      have hName : new.name = profileRecord name .split := by rw [hNew]; rfl
      have hVacant := hReady.vacant
      rw [← hName] at hVacant ⊢
      have hRow : (s.created new none).registry.row? new.name = some new.record :=
        Table.row?_set_self _ _ _
      rw [adapterDelete_fst]
      rcases deleteClient_own hRow none with ⟨step, hNone, -⟩ | ⟨-, hDone⟩
      · cases hNone
      · rw [hDone]
        show ((s.registry.set new.name new.record).erase new.name).row? r = _
        rw [Table.row?_erase, Table.row?_set]
        by_cases hSame : r = new.name
        · rw [if_pos hSame, hSame, hVacant]
        · rw [if_neg hSame, if_neg hSame]
    | ok new' =>
      simp only [createClient, hSplit, map_none, hFull] at h
      cases h

theorem profileRecord_ne_self (name : String) (mode : Mode) : profileRecord name mode ≠ name := by
  intro hSame
  have hLength := congrArg String.length hSame
  cases mode <;> rw [profileRecord, String.length_append] at hLength
  · have : "_az".length = 3 := rfl
    omega
  · have : "_vpn".length = 4 := rfl
    omega

theorem named_of_admits (h : w.admits name = true) : name ≠ "" ∧ w.clients.row? name = none := by
  unfold World.admits at h
  rw [Bool.and_eq_true, Bool.and_eq_true, isNone_iff_eq_none] at h
  refine ⟨?_, h.2⟩
  rintro rfl
  exact absurd h.1.1 (by decide)

/-- Records with keys of their own. -/
theorem keysApart_of_new (hApart : KeysApart s) {new : List String}
    (hKept : ∀ r ∉ new, t.registry.row? r = s.registry.row? r)
    (hFresh : ∀ r ∈ new, ∀ record, t.registry.row? r = some record →
      ∀ r' old, s.registry.row? r' = some old → old.publicKey ≠ record.publicKey)
    (hNew : ∀ r ∈ new, ∀ r' ∈ new, ∀ record record', t.registry.row? r = some record →
      t.registry.row? r' = some record' → record.publicKey = record'.publicKey → r = r') :
    KeysApart t := by
  intro r r' record record' hRow hRow' hSame
  by_cases hMem : r ∈ new
  · by_cases hMem' : r' ∈ new
    · exact hNew r hMem r' hMem' record record' hRow hRow' hSame
    · exact absurd hSame.symm (hFresh r hMem record hRow r' record' (hKept r' hMem' ▸ hRow'))
  · by_cases hMem' : r' ∈ new
    · exact absurd hSame (hFresh r' hMem' record' hRow' r record (hKept r hMem ▸ hRow))
    · exact hApart r r' record record' (hKept r hMem ▸ hRow) (hKept r' hMem' ▸ hRow') hSame

/-- A new pair has names, keys and addresses that no record has. -/
theorem worldInv_pair (hInv : WorldInv w) {draws : Draws} (hAdmits : w.admits name = true)
    (hNames : NamesApart w (.create name draws)) (hFresh : FreshKeys env w (.create name draws))
    {new₁ new₂ : NewClient} (hMade : Made env w.node name draws new₁ new₂) :
    WorldInv ⟨(w.node.created new₁ none).created new₂ none, w.clients.set name .pair⟩ := by
  -- the name is valid and new
  obtain ⟨hNamed, hNew⟩ := named_of_admits hAdmits
  obtain ⟨⟨-, -, hKey₁, -, -⟩, ⟨-, -, hKey₂, -, -⟩⟩ := hMade.facts
  have hCreatable := (creatable_iff draws).mpr ⟨new₁, new₂, hMade⟩
  obtain ⟨hRegistry, -⟩ := hMade.node rfl
  -- the two new records
  have hAz := hRegistry (profileRecord name .split)
  rw [if_neg (profileRecord_ne name), if_pos rfl] at hAz
  have hVpn := hRegistry (profileRecord name .full)
  rw [if_pos rfl] at hVpn
  have hKept : ∀ r ∉ Kind.pair.records name,
      ((w.node.created new₁ none).created new₂ none).registry.row? r =
        w.node.registry.row? r := by
    intro r hNot
    rw [Kind.records, mem_pair, not_or] at hNot
    rw [hRegistry, if_neg hNot.2, if_neg hNot.1]
  have hSplitFresh := hFresh.2 draws.split mem_cons_self
  have hFullFresh := hFresh.2 draws.full (mem_cons_of_mem _ mem_cons_self)
  refine worldInv_create hInv hNamed hNew ?_ ?_ hKept ?_ ?_ ?_
  · exact forall_mem_cons.mpr ⟨hCreatable.split.vacant,
      forall_mem_singleton.mpr hCreatable.full.vacant⟩
  · exact forall_mem_cons.mpr ⟨by rw [hAz]; rfl,
      forall_mem_singleton.mpr (by rw [hVpn]; rfl)⟩
  · refine keysApart_of_new hInv.keys hKept ?_ ?_
    · refine forall_mem_cons.mpr ⟨?_, forall_mem_singleton.mpr ?_⟩
      · intro record hRow r' old hOld
        rw [← Option.mem_unique hAz hRow, hKey₁]
        exact hSplitFresh r' old hOld
      · intro record hRow r' old hOld
        rw [← Option.mem_unique hVpn hRow, hKey₂]
        exact hFullFresh r' old hOld
    · intro r hMem r' hMem' record record' hRow hRow' hSame
      rcases mem_pair.mp hMem with rfl | rfl <;> rcases mem_pair.mp hMem' with rfl | rfl
      · rfl
      · rw [← Option.mem_unique hAz hRow, ← Option.mem_unique hVpn hRow',
          hKey₁, hKey₂] at hSame
        exact absurd hSame hFresh.1
      · rw [← Option.mem_unique hVpn hRow, ← Option.mem_unique hAz hRow',
          hKey₁, hKey₂] at hSame
        exact absurd hSame.symm hFresh.1
      · rfl
  · intro other hOther hMem
    rw [hNames.2 other hMem] at hOther
    cases hOther
  · refine fun _ => ⟨hNames.1, ?_⟩
    rw [Kind.records, mem_pair, not_or]
    exact ⟨(profileRecord_ne_self name .split).symm, (profileRecord_ne_self name .full).symm⟩

/-- The same for a client with one record. -/
theorem worldInv_single (hInv : WorldInv w) {mode : Mode} {draw : Draw}
    (hAdmits : w.admits name = true) (hFresh : FreshKeys env w (.createSingle name mode draw))
    {new : NewClient} (hMade : prepareClient env w.node name mode draw = .ok new) :
    WorldInv ⟨w.node.created new none, w.clients.set name .single⟩ := by
  obtain ⟨hNamed, hNew⟩ := named_of_admits hAdmits
  obtain ⟨hReady, serverPrivate, ip, port, -, -, rfl⟩ := prepareClient_ok hMade
  have hRow := Table.row?_set_self w.node.registry name
    (newClient env w.node.conf name mode draw serverPrivate ip port).record
  have hKept : ∀ r ∉ Kind.single.records name, (w.node.created
      (newClient env w.node.conf name mode draw serverPrivate ip port) none).registry.row? r =
        w.node.registry.row? r :=
    fun r hNot => Table.row?_set_of_ne _ _ fun hSame => hNot (mem_singleton.mpr hSame)
  refine worldInv_create hInv hNamed hNew ?_ ?_ hKept ?_ ?_ ?_
  · exact forall_mem_singleton.mpr hReady.vacant
  · exact forall_mem_singleton.mpr (isSome_iff_exists.mpr ⟨_, hRow⟩)
  · refine keysApart_of_new hInv.keys hKept ?_ ?_
    · refine forall_mem_singleton.mpr ?_
      intro record hRow' r' old hOld
      rw [← Option.mem_unique hRow hRow']
      exact hFresh r' old hOld
    · intro r hMem r' hMem' _ _ _ _ _
      rw [mem_singleton.mp hMem, mem_singleton.mp hMem']
  · intro other hOther hMem
    rw [mem_singleton.mp hMem, hNew] at hOther
    cases hOther
  · exact fun hPair => Kind.noConfusion hPair

/-- Suspending and unsuspending keep the keys of every record. -/
theorem worldInv_held (hInv : WorldInv w) {fn : Node → String → Node × Except Refusal Bool}
    {suspended : Bool} (hFn : Holds fn suspended) (hSome : (w.clients.row? name).isSome = true) :
    WorldInv { w with node := (applyToRecords fn w.node false (heldRecords w.node name)).1 } := by
  obtain ⟨kind, hClient⟩ := isSome_iff_exists.mp hSome
  obtain ⟨t, changed, hDone, -, hKeys, -⟩ := applyToRecords_spec hFn (nodup_records name kind)
    (hInv.owned name kind hClient) hInv.keys false
  rw [heldRecords_eq hInv hClient, hDone]
  exact hInv.sameKeys hKeys

theorem sameKeys_getClientConfig (env : Env) (s : Node) (name : String) :
    SameKeys s (getClientConfig env s name).1 := by
  unfold getClientConfig
  split <;> exact fun r => rfl

/-- **A step keeps every record with its client.** -/
theorem worldInv_step (hInv : WorldInv w) (hFresh : FreshKeys env w a) (hNames : NamesApart w a)
    (hStep : worldStep env w a = some v) : WorldInv v := by
  cases a with
  | create name draws =>
    cases hStep
    split_ifs with hAdmits
    · cases hCreated : createRecords env w.node name draws {} with
      | mk t refusal =>
        cases refusal with
        | some refusal => exact hInv.sameKeys (sameKeys_of_rows (createRecords_refused hCreated))
        | none =>
          obtain ⟨new₁, new₂, hMade⟩ := createRecords_ok (by rw [hCreated])
          rw [createRecords_made hMade rfl rfl] at hCreated
          obtain ⟨rfl, -⟩ := Prod.mk.inj hCreated
          exact worldInv_pair hInv hAdmits hNames hFresh hMade
    · exact hInv
  | createSingle name mode draw =>
    cases hStep
    split_ifs with hAdmits
    · cases hMade : prepareClient env w.node name mode draw with
      | error refusal =>
        rw [createClient, hMade]
        exact hInv
      | ok new =>
        rw [createClient_of_ok hMade]
        exact worldInv_single hInv hAdmits hFresh hMade
    · exact hInv
  | delete name =>
    cases hStep
    split_ifs with hSome
    · obtain ⟨kind, hClient⟩ := isSome_iff_exists.mp hSome
      obtain ⟨t, hDone, hWithout⟩ :=
        deleteRecords_none (hInv.owned name kind hClient) (nodup_records name kind)
      rw [deleteClient, targets_eq hInv hClient, hDone]
      exact worldInv_delete hInv hClient hWithout
    · exact hInv
  | suspend name =>
    cases hStep
    split_ifs with hSome
    · exact worldInv_held hInv holds_suspendRecord hSome
    · exact hInv
  | unsuspend name =>
    cases hStep
    split_ifs with hSome
    · exact worldInv_held hInv holds_unsuspendRecord hSome
    · exact hInv
  | getConfig record =>
    cases hStep
    exact hInv.sameKeys (sameKeys_getClientConfig env w.node record)

/-! ## Runs -/

/-- A node without AmneziaWG 3 clients; leftovers of profile files do not matter. -/
structure World.Vacant (w : World) : Prop where
  clients : ∀ name, w.clients.row? name = none
  registry : ∀ r, w.node.registry.row? r = none

theorem World.Vacant.inv (h : w.Vacant) : WorldInv w where
  named := fun name kind hClient => by cases (h.clients name).symm.trans hClient
  owned := fun name kind hClient => by cases (h.clients name).symm.trans hClient
  single := fun name kind _ _ _ hClient => by cases (h.clients name).symm.trans hClient
  apart := fun name _ => h.registry name
  keys := fun r _ record _ hRow => by cases (h.registry r).symm.trans hRow

/-- **One client at a time.** As long as no client is called like a record of another one, each
operation on a client acts on all of its records, and on nothing of the others. -/
theorem isolated_of_apart (env : Env) (w : World) (hVacant : w.Vacant)
    (actions : List WorldAction) (hFresh : Along (worldStep env) (FreshKeys env) w actions)
    (hNames : Along (worldStep env) NamesApart w actions) {v : World}
    (hExec : exec (worldStep env) w actions = some v) (name : String) (kind : Kind)
    (hClient : v.clients.row? name = some kind) : Isolated env v name kind :=
  isolated_of_inv env (invariant_exec
    (fun _ _ _ hInv hGuard hStep => worldInv_step hInv hGuard.1 hGuard.2 hStep)
    hVacant.inv (hFresh.and hNames) hExec) hClient

instance (env : Env) (w : World) : DecidablePred (FreshKeys env w)
  | .create _ draws => decidable_of_iff
      (env.publicOf draws.split.privateKey ≠ env.publicOf draws.full.privateKey ∧
        ∀ draw ∈ [draws.split, draws.full], ∀ r ∈ w.node.registry.keys,
          ∀ record ∈ w.node.registry.row? r, record.publicKey ≠ env.publicOf draw.privateKey)
      (and_congr_right fun _ => forall₂_congr fun _ _ => (Table.forall_row_iff _ _).symm)
  | .createSingle _ _ _ => decidable_of_iff _ (Table.forall_row_iff _ _).symm
  | .delete _ | .suspend _ | .unsuspend _ | .getConfig _ => isTrue trivial

instance (w : World) : DecidablePred (NamesApart w)
  | .create name _ => inferInstanceAs (Decidable (_ ∧ ∀ r ∈ Kind.pair.records name, _))
  | .createSingle _ _ _ | .delete _ | .suspend _ | .unsuspend _ | .getConfig _ => isTrue trivial

def exampleWorld : World := ⟨emptyPanel.node, .empty⟩

theorem vacant_exampleWorld : exampleWorld.Vacant := ⟨fun _ => rfl, fun _ => rfl⟩

/-- Of two clients one is suspended, and then read. -/
theorem isolated_twoClients : ∃ v, exec (worldStep exampleEnv) exampleWorld
      [.create "ivan" firstDraws, .create "ivan_x" laterDraws, .suspend "ivan"] = some v ∧
    Isolated exampleEnv v "ivan" .pair := by
  refine ⟨_, rfl, isolated_of_apart exampleEnv exampleWorld vacant_exampleWorld
    [.create "ivan" firstDraws, .create "ivan_x" laterDraws, .suspend "ivan"] ?_ ?_ rfl "ivan"
    .pair ?_⟩
  · decide
  · decide
  · decide

/-- A client that is called like a record of another one: the record of the other is suspended
instead of its own. -/
theorem not_always_isolated :
    ¬ ∀ env w, World.Vacant w → ∀ actions, Along (worldStep env) (FreshKeys env) w actions →
      ∀ v, exec (worldStep env) w actions = some v →
      ∀ name kind, v.clients.row? name = some kind → Isolated env v name kind := by
  intro hAll
  have hIsolated := hAll exampleEnv exampleWorld vacant_exampleWorld
    [.create "a" firstDraws, .create "a_az" laterDraws] (by decide) _ rfl "a_az" .pair
    (by decide)
  have hKept := (hIsolated.suspend "a" .pair (by decide) (by decide) "a_az"
    (by decide)).1
  revert hKept
  decide

end AdminPanel.Awg3Clients
