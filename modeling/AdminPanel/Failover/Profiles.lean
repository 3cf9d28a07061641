import AdminPanel.Failover.Pool
import AdminPanel.Lib.Runs

/-!
# Client profiles of the members of a pool

The profiles on the node of a member dial the node, or the front of the pool. They are rewritten
when a front is set or a member is cloned, and restored when the front is unset, each time for the
members that have priority 0 or a time stamp of cloning.

* `ProfilePool`, `ProfileAction`, `perform` — the pool with the endpoints on every node;
* `Follows`, `DialsNoFront` — what the profiles are to dial, with and without a front;
* `Kept` — the first member is rewritten, and no member escapes the restoring;
* `redirect_apply` — what a loop over nodes leaves on each of them.

Main result: `follows_iff_kept` — a run of requests that keep this leaves the profiles that the
pool says, and the first request that does not keep it does not, then or when the front is unset.
-/

namespace AdminPanel.Failover.Profiles

open Function List

open Lib (Along)

/-! ## The pool and its requests -/

/-- What a profile dials: its node, or a front, with a port for AmneziaWG 2. -/
inductive Endpoint
  | own (nodeId : Nat)
  | front (nodeId : Nat) (port : Option Int)
  deriving DecidableEq, Repr

inductive PoolVpn
  | amneziawg2
  | amneziawg3
  deriving DecidableEq, Repr

/-- A pool, and the endpoints of the client profiles on every node. -/
structure ProfilePool where
  vpnType : PoolVpn
  members : List Member
  frontNodeId : Option Nat
  frontPort : Option Int
  endpoints : Nat → List Endpoint

inductive ProfileAction
  | setFront (nodeId : Nat) (port : Int)
  | mirrorIdentity (id : Nat)
  | updateMember (id : Nat) (priority : Option Nat)
  | unsetFront

section

variable (s : ProfilePool)

/-- `front_endpoint`, and `awg3_front_host` for AmneziaWG 3. -/
def frontEndpoint : Option Endpoint :=
  match s.vpnType, s.frontNodeId, s.frontPort with
  | .amneziawg3, some node, _ => some (.front node none)
  | .amneziawg2, some node, some port => some (.front node (some port))
  | _, _, _ => none

/-- The profiles on every node of a list are written anew. -/
def redirect (target : Nat → Endpoint) (nodes : List Nat) (endpoints : Nat → List Endpoint) :
    Nat → List Endpoint :=
  nodes.foldl (fun endpoints node =>
    update endpoints node ((endpoints node).map fun _ => target node)) endpoints

/-- `rewrite_member_client_endpoints` for members on these nodes. -/
def rewriteEndpoints (nodes : List Nat) : Nat → List Endpoint :=
  match frontEndpoint s with
  | none => s.endpoints
  | some endpoint => redirect (fun _ => endpoint) nodes s.endpoints

/-- The test of both loops, `member.priority == 0 or member.identity_mirrored_at is not None`. -/
def isTouched (m : Member) : Bool := m.priority = 0 || m.mirrored

def touchedNodes (members : List Member) : List Nat := (members.filter isTouched).map Member.nodeId

def setFront (nodeId : Nat) (port : Int) : ProfilePool :=
  let s := { s with frontNodeId := some nodeId, frontPort := some port }
  { s with endpoints := rewriteEndpoints s (touchedNodes s.members) }

/-- `teardown_front` and the rest of `unset_front`. -/
def unsetFront : ProfilePool :=
  { s with
    endpoints := redirect .own (touchedNodes s.members) s.endpoints
    frontNodeId := none
    frontPort := none }

/-- `mirror_member_identity`: the profiles of AmneziaWG 2 are copied with their endpoints. -/
def mirrorMemberIdentity (member : Member) : ProfilePool :=
  match primaryMember s.members with
  | none => s
  | some primary =>
    if member.id = primary.id then s
    else
      let copied :=
        match s.vpnType with
        | .amneziawg2 => update s.endpoints member.nodeId (s.endpoints primary.nodeId)
        | .amneziawg3 => s.endpoints
      let s := { s with endpoints := copied }
      { s with
        endpoints := rewriteEndpoints s [member.nodeId]
        members := s.members.map fun m =>
          if m.id = member.id then { m with mirrored := true } else m }

def perform : ProfileAction → ProfilePool
  | .setFront nodeId port => setFront s nodeId port
  | .mirrorIdentity id =>
    match s.members.find? fun m => m.id = id with
    | none => s
    | some member => mirrorMemberIdentity s member
  | .updateMember id priority =>
    match priority with
    | none => s
    | some priority =>
      { s with members := s.members.map fun m =>
          if m.id = id then { m with priority := priority } else m }
  | .unsetFront => unsetFront s

def step (action : ProfileAction) : Option ProfilePool := some (perform s action)

/-! ## What the profiles are to dial -/

def Endpoint.isFront : Endpoint → Bool
  | .own _ => false
  | .front _ _ => true

/-- The profiles of the first member and of the cloned ones dial the front. -/
def Follows : Prop :=
  ∃ endpoint, frontEndpoint s = some endpoint ∧
    ∀ m ∈ s.members, primaryMember s.members = some m ∨ m.mirrored = true →
      ∀ e ∈ s.endpoints m.nodeId, e = endpoint

def DialsNoFront : Prop :=
  ∀ m ∈ s.members, ∀ e ∈ s.endpoints m.nodeId, e.isFront = false

/-- What a request is to leave. -/
def Promise : ProfileAction → Prop
  | .setFront _ _ => Follows s
  | .unsetFront => DialsNoFront s
  | _ => True

/-- A front is set when the first member has priority 0, is cloned, or has no profiles; and no
member that was not cloned loses priority 0 while its profiles dial a front. -/
def Kept : ProfileAction → Prop
  | .setFront _ _ => ∀ first, primaryMember s.members = some first →
      isTouched first = true ∨ s.endpoints first.nodeId = []
  | .updateMember id (some priority) => ∀ m ∈ s.members, m.id = id →
      (∃ e ∈ s.endpoints m.nodeId, e.isFront = true) → priority = 0 ∨ m.mirrored = true
  | _ => True

/-- Every member whose profiles dial a front is found when they are restored. -/
def Restorable : Prop :=
  ∀ m ∈ s.members, (∃ e ∈ s.endpoints m.nodeId, e.isFront = true) → isTouched m = true

end

/-! ## Loops over nodes -/

theorem redirect_apply (target : Nat → Endpoint) (nodes : List Nat)
    (endpoints : Nat → List Endpoint) (node : Nat) :
    redirect target nodes endpoints node =
      if node ∈ nodes then (endpoints node).map fun _ => target node else endpoints node := by
  induction nodes generalizing endpoints with
  | nil => rfl
  | cons first nodes ih =>
    show redirect target nodes (update endpoints first _) node = _
    rw [ih]
    by_cases hFirst : node = first
    · subst hFirst
      simp
    · simp [hFirst]

variable {node : Nat}

theorem mem_touchedNodes {members : List Member} :
    node ∈ touchedNodes members ↔ ∃ m ∈ members, m.nodeId = node ∧ isTouched m = true := by
  simp only [touchedNodes, mem_map, mem_filter]
  constructor
  · rintro ⟨m, ⟨hM, hTouched⟩, hNode⟩
    exact ⟨m, hM, hNode, hTouched⟩
  · rintro ⟨m, hM, hNode, hTouched⟩
    exact ⟨m, ⟨hM, hTouched⟩, hNode⟩

theorem mem_redirect {target : Nat → Endpoint} {nodes : List Nat}
    {endpoints : Nat → List Endpoint} {e : Endpoint}
    (h : e ∈ redirect target nodes endpoints node) :
    (node ∈ nodes ∧ e = target node) ∨ (node ∉ nodes ∧ e ∈ endpoints node) := by
  rw [redirect_apply] at h
  split_ifs at h with hNode
  · obtain ⟨_, -, rfl⟩ := mem_map.mp h
    exact .inl ⟨hNode, rfl⟩
  · exact .inr ⟨hNode, h⟩

/-- What the keys of the table of members give. -/
structure Keyed (s : ProfilePool) : Prop where
  ids : (s.members.map Member.id).Nodup
  nodes : (s.members.map Member.nodeId).Nodup

variable {s : ProfilePool}

theorem Keyed.touched (h : Keyed s) {m : Member} (hM : m ∈ s.members) :
    m.nodeId ∈ touchedNodes s.members ↔ isTouched m = true := by
  constructor
  · intro hNode
    obtain ⟨other, hOther, hSame, hTouched⟩ := mem_touchedNodes.mp hNode
    rwa [inj_on_of_nodup_map h.nodes hM hOther hSame.symm]
  · exact fun hTouched => mem_touchedNodes.mpr ⟨m, hM, rfl, hTouched⟩

/-- Restoring reaches every front exactly when no member escapes it. -/
theorem dialsNoFront_unsetFront (hKeyed : Keyed s) : DialsNoFront (unsetFront s) ↔ Restorable s := by
  constructor
  · rintro hNone m hM ⟨e, hE, hFront⟩
    by_contra hTouched
    have hStays : e ∈ redirect .own (touchedNodes s.members) s.endpoints m.nodeId := by
      rw [redirect_apply, if_neg (mt (hKeyed.touched hM).mp hTouched)]
      exact hE
    exact Bool.noConfusion (hFront.symm.trans (hNone m hM e hStays))
  · intro hRestorable m hM e hE
    rcases mem_redirect hE with ⟨-, rfl⟩ | ⟨hNode, hStays⟩
    · rfl
    · cases hFront : e.isFront with
      | false => rfl
      | true =>
        exact absurd ((hKeyed.touched hM).mpr (hRestorable m hM ⟨e, hStays, hFront⟩)) hNode

/-! ## One request -/

theorem frontEndpoint_setFront (s : ProfilePool) (nodeId : Nat) (port : Int) :
    ∃ endpoint, endpoint.isFront = true ∧ frontEndpoint (setFront s nodeId port) = some endpoint ∧
      (setFront s nodeId port).endpoints =
        redirect (fun _ => endpoint) (touchedNodes s.members) s.endpoints := by
  cases hVpn : s.vpnType with
  | amneziawg2 =>
    refine ⟨.front nodeId (some port), rfl, ?_, ?_⟩ <;>
      simp only [setFront, rewriteEndpoints, frontEndpoint, hVpn]
  | amneziawg3 =>
    refine ⟨.front nodeId none, rfl, ?_, ?_⟩ <;>
      simp only [setFront, rewriteEndpoints, frontEndpoint, hVpn]

/-- **Setting a front**: the profiles follow it exactly when the first member is rewritten. -/
theorem follows_setFront (hKeyed : Keyed s) (hRestorable : Restorable s)
    (nodeId : Nat) (port : Int) :
    Restorable (setFront s nodeId port) ∧
      (Follows (setFront s nodeId port) ↔ Kept s (.setFront nodeId port)) := by
  obtain ⟨endpoint, hIsFront, hEndpoint, hRedirect⟩ := frontEndpoint_setFront s nodeId port
  constructor
  · rintro m hM ⟨e, hE, hFront⟩
    rw [hRedirect] at hE
    rcases mem_redirect hE with ⟨hNode, -⟩ | ⟨-, hStays⟩
    · exact (hKeyed.touched hM).mp hNode
    · exact hRestorable m hM ⟨e, hStays, hFront⟩
  · constructor
    · rintro ⟨endpoint', hEndpoint', hDial⟩ first hFirst
      obtain rfl := Option.mem_unique hEndpoint hEndpoint'
      have hMem := mem_of_primary hFirst
      by_cases hTouched : isTouched first = true
      · exact .inl hTouched
      · -- untouched profiles dial no front
        refine .inr (eq_nil_iff_forall_not_mem.mpr fun e hE => ?_)
        have hStays : e ∈ (setFront s nodeId port).endpoints first.nodeId := by
          rw [hRedirect, redirect_apply, if_neg (mt (hKeyed.touched hMem).mp hTouched)]
          exact hE
        have hSame := hDial first hMem (.inl hFirst) e hStays
        exact hTouched (hRestorable first hMem ⟨e, hE, hSame ▸ hIsFront⟩)
    · intro hKept
      refine ⟨endpoint, hEndpoint, fun m hM hCounts e hE => ?_⟩
      rw [hRedirect] at hE
      rcases mem_redirect hE with ⟨-, hE⟩ | ⟨hNode, hStays⟩
      · exact hE
      have hUntouched : ¬isTouched m = true := fun hTouched =>
        hNode ((hKeyed.touched hM).mpr hTouched)
      rcases hCounts with hFirst | hMirrored
      · rcases hKept m hFirst with hTouched | hNone
        · exact absurd hTouched hUntouched
        · rw [hNone] at hStays
          cases hStays
      · exact absurd (by rw [isTouched, hMirrored, Bool.or_true]) hUntouched

/-- **A new priority**: the profiles can be restored exactly when it keeps them found. -/
theorem restorable_reprioritized (hRestorable : Restorable s) (id priority : Nat) :
    Restorable (perform s (.updateMember id (some priority))) ↔
      Kept s (.updateMember id (some priority)) := by
  constructor
  · intro hAfter m hM hId hFront
    have hTouched := hAfter _ (mem_map_of_mem hM) (by rw [if_pos hId]; exact hFront)
    rw [if_pos hId] at hTouched
    simpa [isTouched] using hTouched
  · intro hKept m' hM' hFront
    obtain ⟨m, hM, rfl⟩ := mem_map.mp hM'
    by_cases hId : m.id = id
    · rw [if_pos hId] at hFront ⊢
      simpa [isTouched] using hKept m hM hId hFront
    · rw [if_neg hId] at hFront ⊢
      exact hRestorable m hM hFront

theorem rewriteEndpoints_other (s : ProfilePool) {other : Nat} (h : other ≠ node) :
    rewriteEndpoints s [node] other = s.endpoints other := by
  rw [rewriteEndpoints]
  cases frontEndpoint s with
  | none => rfl
  | some endpoint => exact (redirect_apply ..).trans (if_neg (mt mem_singleton.mp h))

/-- **A clone** is found by its time stamp. -/
theorem sound_mirror (hKeyed : Keyed s) (hRestorable : Restorable s)
    {member : Member} (hMember : member ∈ s.members) :
    Keyed (mirrorMemberIdentity s member) ∧ Restorable (mirrorMemberIdentity s member) := by
  rw [mirrorMemberIdentity]
  split
  · exact ⟨hKeyed, hRestorable⟩
  rename_i primary _
  split_ifs with hSelf
  · exact ⟨hKeyed, hRestorable⟩
  refine ⟨⟨?_, ?_⟩, ?_⟩
  · rw [map_map_key fun m => by split_ifs <;> rfl]
    exact hKeyed.ids
  · rw [map_map_key fun m => by split_ifs <;> rfl]
    exact hKeyed.nodes
  · rintro m' hM' ⟨e, hE, hFront⟩
    obtain ⟨m, hM, rfl⟩ := mem_map.mp hM'
    by_cases hId : m.id = member.id
    · rw [if_pos hId, isTouched, Bool.or_true]
    rw [if_neg hId] at hE ⊢
    have hNode : m.nodeId ≠ member.nodeId := fun hSame =>
      hId (congrArg Member.id (inj_on_of_nodup_map hKeyed.nodes hM hMember hSame))
    refine hRestorable m hM ⟨e, ?_, hFront⟩
    have hCopied := (congrArg (e ∈ ·) (rewriteEndpoints_other _ hNode)).mp hE
    revert hCopied
    cases s.vpnType with
    | amneziawg2 =>
      intro hCopied
      exact (congrArg (e ∈ ·) (update_of_ne hNode _ s.endpoints)).mp hCopied
    | amneziawg3 => exact id

/-- **The step lemma**: a request leaves the profiles that the pool says, and such that they can be
restored, exactly when it keeps the touched members. -/
theorem perform_iff (hKeyed : Keyed s) (hRestorable : Restorable s)
    (action : ProfileAction) : Keyed (perform s action) ∧
      (Promise (perform s action) action ∧ Restorable (perform s action) ↔ Kept s action) := by
  cases action with
  | setFront nodeId port =>
    obtain ⟨hAfter, hFollows⟩ := follows_setFront hKeyed hRestorable nodeId port
    exact ⟨⟨hKeyed.ids, hKeyed.nodes⟩, (and_iff_left hAfter).trans hFollows⟩
  | mirrorIdentity id =>
    rw [perform]
    split
    · exact ⟨hKeyed, iff_of_true ⟨trivial, hRestorable⟩ trivial⟩
    · rename_i member hFind
      obtain ⟨hKeyed', hRestorable'⟩ :=
        sound_mirror hKeyed hRestorable (mem_of_find?_eq_some hFind)
      exact ⟨hKeyed', iff_of_true ⟨trivial, hRestorable'⟩ trivial⟩
  | updateMember id priority =>
    cases priority with
    | none => exact ⟨hKeyed, iff_of_true ⟨trivial, hRestorable⟩ trivial⟩
    | some priority =>
      refine ⟨⟨?_, ?_⟩, (and_iff_right trivial).trans (restorable_reprioritized hRestorable id _)⟩
      · rw [perform, map_map_key fun m => by split_ifs <;> rfl]
        exact hKeyed.ids
      · rw [perform, map_map_key fun m => by split_ifs <;> rfl]
        exact hKeyed.nodes
  | unsetFront =>
    have hNone := (dialsNoFront_unsetFront hKeyed).mpr hRestorable
    refine ⟨⟨hKeyed.ids, hKeyed.nodes⟩, iff_of_true ⟨hNone, ?_⟩ trivial⟩
    rintro m hM ⟨e, hE, hFront⟩
    exact Bool.noConfusion (hFront.symm.trans (hNone m hM e hE))

/-! ## Runs -/

/-- A pool whose members' profiles dial no front. -/
structure Fresh (s : ProfilePool) : Prop where
  keyed : Keyed s
  dialsNoFront : DialsNoFront s

theorem sound_run {s' : ProfilePool} {actions : List ProfileAction} (hFresh : Fresh s)
    (hKept : Along step Kept s actions) (hRun : Lib.exec step s actions = some s') :
    Keyed s' ∧ Restorable s' := by
  refine @Lib.invariant_exec _ _ step (fun s => Keyed s ∧ Restorable s) Kept ?_ _ _ _ ?_ hKept hRun
  · intro s action s' hSound hKeeps hStep
    cases hStep
    obtain ⟨hKeyed, hIff⟩ := perform_iff hSound.1 hSound.2 action
    exact ⟨hKeyed, (hIff.mpr hKeeps).2⟩
  · refine ⟨hFresh.keyed, ?_⟩
    rintro m hM ⟨e, hE, hFront⟩
    exact Bool.noConfusion (hFront.symm.trans (hFresh.dialsNoFront m hM e hE))

/-- **The profiles follow the front** after every request of a run whose requests keep the touched
members; and the first one that does not leaves other profiles, at once or when the front is
unset next. -/
theorem follows_iff_kept {s s' : ProfilePool} {actions : List ProfileAction} (hFresh : Fresh s)
    (hKept : Along step Kept s actions) (hRun : Lib.exec step s actions = some s')
    (action : ProfileAction) :
    Promise (perform s' action) action ∧ DialsNoFront (unsetFront (perform s' action)) ↔
      Kept s' action := by
  obtain ⟨hKeyed, hRestorable⟩ := sound_run hFresh hKept hRun
  obtain ⟨hKeyed', hIff⟩ := perform_iff hKeyed hRestorable action
  rw [dialsNoFront_unsetFront hKeyed', hIff]

/-- One member of the default priority, with one profile. -/
def onePool (priority : Nat) : ProfilePool where
  vpnType := .amneziawg2
  members := [⟨1, 11, priority, false⟩]
  frontNodeId := none
  frontPort := none
  endpoints := fun node => if node = 11 then [.own 11] else []

theorem fresh_onePool (priority : Nat) : Fresh (onePool priority) where
  keyed := ⟨nodup_singleton _, nodup_singleton _⟩
  dialsNoFront := by
    intro m hM e hE
    obtain rfl := mem_singleton.mp hM
    rw [mem_singleton.mp hE]
    rfl

/-- With priority 0 the profiles of the member follow the front. -/
theorem follows_onePool :
    Promise (perform (onePool 0) (.setFront 5 39001)) (.setFront 5 39001) ∧
        DialsNoFront (unsetFront (perform (onePool 0) (.setFront 5 39001))) ↔
      Kept (onePool 0) (.setFront 5 39001) :=
  @follows_iff_kept _ _ [] (fresh_onePool 0) trivial rfl _

/-- With the default priority they do not. -/
theorem not_always_follows : ¬∀ (s s' : ProfilePool) (actions : List ProfileAction)
    (action : ProfileAction), Fresh s → Lib.exec step s actions = some s' →
    Promise (perform s' action) action := by
  intro h
  obtain ⟨endpoint, hEndpoint, hDial⟩ :=
    h (onePool 100) _ [] (.setFront 5 39001) (fresh_onePool 100) rfl
  cases hEndpoint
  have hOwn := hDial ⟨1, 11, 100, false⟩ (by decide) (.inl (by decide)) (.own 11) (by decide)
  cases hOwn

end AdminPanel.Failover.Profiles
