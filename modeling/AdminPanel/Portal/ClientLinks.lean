import AdminPanel.Panel.ConfigTable
import AdminPanel.Portal.QrDownload

/-!
# Portal links of clients

`get_or_create_portal_token`, `rotate_portal_token` and `revoke_portal_token` look for configs of
the client, read its active links and commit; a unique index allows one active link for each
client. The deletion of a client's last config revokes its links in its own transaction. Any number
of these run at once, a query or a commit at a time.

* `linkNext`, `linkStep` — the steps of one call, and of all calls with the creation of clients;
* `LinksSafe` — an old link never opens a new client;
* `inTime` — the step does not outlive the configs that its call has seen;
* `links_safe` — runs of such steps are safe.
-/

namespace AdminPanel.Portal

open List Panel
open Access (Time)
open Lib (exec Along exec_cons_iff exec_append_iff invariant_exec invariant_of_exec)

/-! ## The tables -/

/-- The client has a config that is not a shadow. -/
def hasConfig (t : ConfigTable) (nodeId : Nat) (clientName : String) : Bool :=
  (t.ids fun row => row.nodeId = nodeId && row.clientName.text = clientName &&
    row.haPrimaryConfigId.isNone) ≠ []

/-- `INSERT` of a link; a token or an active link that is there already raises. -/
def insertLink (links : List ClientPortalToken) (link : ClientPortalToken) :
    Option (List ClientPortalToken) :=
  if links.any fun other => other.token = link.token || other.activeOf link.nodeId link.clientName
  then none
  else some (links ++ [link])

/-- `UPDATE` of the rows that a session has changed. -/
def revokeRows (rows links : List ClientPortalToken) (now : Time) : List ClientPortalToken :=
  links.map fun link =>
    if link.token ∈ rows.map (·.token) then { link with revokedAt := some now } else link

/-! ## One call -/

inductive LinkOp where
  | getOrCreate
  | rotate
  | revoke
  deriving DecidableEq, Repr

/-- A call, with the node that `_portal_node_id` has found and the fresh token. -/
structure LinkRequest where
  op : LinkOp
  nodeId : Nat
  clientName : String
  token : String := ""
  createdByUserId : Option Nat := none
  now : Time := 0
  deriving DecidableEq, Repr

def LinkRequest.name (req : LinkRequest) : String := stripped req.clientName

/-- The links that are active for the client of the call. -/
def LinkRequest.activeLinks (req : LinkRequest) (links : List ClientPortalToken) :
    List ClientPortalToken :=
  links.filter (·.activeOf req.nodeId req.name)

def LinkRequest.newLink (req : LinkRequest) : ClientPortalToken :=
  ⟨req.token, req.nodeId, req.name, req.createdByUserId, none⟩

def clientNotGiven : HttpError := ⟨400, "Не указан клиент"⟩

def clientNotFound : HttpError := ⟨404, "Клиент не найден"⟩

def linkNotFound : HttpError := ⟨404, "Ссылка портала не найдена"⟩

def rotateConflict : HttpError := ⟨409, "Не удалось сменить ссылку портала — повторите попытку"⟩

/-- An exception that no handler names. -/
def unhandled : HttpError := ⟨500, ""⟩

/-- Where a call stands. -/
inductive LinkPhase where
  | started (req : LinkRequest)
  /-- `ensure_client_configs` has returned. -/
  | checked (req : LinkRequest)
  /-- The active links have been read; the commit is next. -/
  | loaded (req : LinkRequest) (active : List ClientPortalToken)
  /-- The commit of a new link has failed. -/
  | raced (req : LinkRequest)
  | returned (req : LinkRequest) (link : Option ClientPortalToken)
  | deleting (id : Nat) (now : Time)
  /-- `delete_config` has the config. -/
  | deleteRead (id : Nat) (row : ConfigRow) (now : Time)
  | deleted (id : Nat) (row : ConfigRow)
  | failed (error : HttpError)
  deriving DecidableEq

def LinkPhase.ended : LinkPhase → Bool
  | .returned _ _ | .deleted _ _ | .failed _ => true
  | _ => false

variable {ρ : Type}

/-- `_active_token`, and what `get_or_create_portal_token` makes of it. -/
def returnActive (links : List ClientPortalToken) (req : LinkRequest) (otherwise : LinkPhase) :
    LinkPhase :=
  match (req.activeLinks links).getLast? with
  | some link => .returned req (some link)
  | none => otherwise

/-- The rows that the call has changed, and its new link. -/
def commitLink (db : ConfigDb ρ) (req : LinkRequest) (active : List ClientPortalToken) :
    ConfigDb ρ × LinkPhase :=
  match insertLink (revokeRows active db.links req.now) req.newLink with
  | some links => ({ db with links := links }, .returned req (some req.newLink))
  | none => (db, if req.op = .getOrCreate then .raced req else .failed rotateConflict)

/-- The transaction of a deletion. Its first `DELETE` takes the write lock, so that nothing else is
written before its commit and others read the rows from before it. -/
def deleteConfigRow (db : ConfigDb ρ) (id : Nat) (row : ConfigRow) (now : Time) :
    Option (ConfigDb ρ) := do
  let purged ← purgeHaShadowConfigs db.configs id
  let configs ← purged.delete fun other _ => other = id
  return cleanupDeletedClientRecords { db with configs := configs } id row now

/-- The next query or commit of a call. -/
def linkNext (db : ConfigDb ρ) : LinkPhase → Option (ConfigDb ρ × LinkPhase)
  | .started req =>
    some (db,
      if req.name = "" then .failed clientNotGiven
      else if hasConfig db.configs req.nodeId req.name then .checked req
      else .failed clientNotFound)
  | .checked req =>
    let active := req.activeLinks db.links
    some (db,
      match req.op with
      | .getOrCreate => returnActive db.links req (.loaded req [])
      | .rotate => .loaded req active
      | .revoke => if active = [] then .failed linkNotFound else .loaded req active)
  | .loaded req active =>
    match req.op with
    | .revoke => some ({ db with links := revokeRows active db.links req.now }, .returned req none)
    | _ => some (commitLink db req active)
  | .raced req => some (db, returnActive db.links req (.failed unhandled))
  | .deleting id now =>
    some (db,
      match db.configs.row? id with
      | some row => .deleteRead id row now
      | none => .failed clientNotFound)
  | .deleteRead id row now =>
    match deleteConfigRow db id row now with
    | some db' => some (db', .deleted id row)
    | none => some (db, .failed unhandled)
  | .returned _ _ | .deleted _ _ | .failed _ => none

/-! ## All calls -/

structure LinkState (ρ : Type) where
  db : ConfigDb ρ
  calls : List LinkPhase := []

inductive LinkAction where
  | call (req : LinkRequest)
  | delete (id : Nat) (now : Time)
  /-- A config is created and committed. -/
  | create (row : ConfigRow)
  | next (i : Nat)
  /-- A call in progress raises or dies; its transaction is rolled back. -/
  | abort (i : Nat)
  deriving DecidableEq

def linkStep (s : LinkState ρ) : LinkAction → Option (LinkState ρ)
  | .call req => some { s with calls := s.calls ++ [.started req] }
  | .delete id now => some { s with calls := s.calls ++ [.deleting id now] }
  | .create row =>
    (s.db.configs.insert row).map fun configs => { s with db := { s.db with configs := configs } }
  | .next i =>
    s.calls[i]?.bind fun phase =>
      (linkNext s.db phase).map fun (db, next) => { db := db, calls := s.calls.set i next }
  | .abort i =>
    s.calls[i]?.bind fun phase =>
      if phase.ended then none else some { s with calls := s.calls.set i (.failed unhandled) }

/-- No configs and no links yet. -/
def LinkState.start (policies : Lib.Table AccessKey ρ) : LinkState ρ :=
  { db := ⟨ConfigTable.empty, policies, []⟩ }

/-! ## What is promised -/

def ClientPortalToken.sameClient (a b : ClientPortalToken) : Prop :=
  a.nodeId = b.nodeId ∧ a.clientName = b.clientName

/-- No link with the token is valid. -/
def Revoked (links : List ClientPortalToken) (token : String) : Prop :=
  ∀ link ∈ links, link.token = token → link.revokedAt ≠ none

/-- A link is valid for no client but the one it was made for, and only until the next one, or a
revocation, or the deletion of the client. -/
structure LinksSafe (start : LinkState ρ) (as : List LinkAction) (t : LinkState ρ) : Prop where
  one : ∀ nodeId clientName, (t.db.links.filter (·.activeOf nodeId clientName)).length ≤ 1
  /-- Links stand in the order of their creation. -/
  last : t.db.links.Pairwise fun a b => ClientPortalToken.sameClient a b → a.revokedAt ≠ none
  ended : ∀ bs cs s i req link, as = bs ++ cs → exec linkStep start bs = some s →
    s.calls.length ≤ i → t.calls[i]? = some (.returned req link) → req.op ≠ .getOrCreate →
    ∀ old ∈ s.db.links, old.nodeId = req.nodeId → old.clientName = req.name →
      Revoked t.db.links old.token
  live : (∀ phase ∈ t.calls, phase.ended = true) → ∀ link ∈ t.db.links, link.revokedAt = none →
    hasConfig t.db.configs link.nodeId link.clientName = true
  /-- A link from before the client was gone. -/
  reborn : ∀ bs cs s, as = bs ++ cs → exec linkStep start bs = some s → ∀ old ∈ s.db.links,
    hasConfig s.db.configs old.nodeId old.clientName = false → Revoked t.db.links old.token

/-- A new link is committed while the client has a config, and a deletion finds no other client
under the id of its config. -/
def inTime (s : LinkState ρ) : LinkAction → Bool
  | .next i =>
    match s.calls[i]? with
    | some (.loaded req _) => req.op = .revoke || hasConfig s.db.configs req.nodeId req.name
    | some (.deleteRead id row _) => (s.db.configs.row? id).all fun found =>
        found.nodeId = row.nodeId && found.clientName = row.clientName
    | _ => true
  | _ => true

/-! ## What a step writes -/

/-- A change of links that revokes some of them. -/
structure Marks (f : ClientPortalToken → ClientPortalToken) : Prop where
  token : ∀ link, (f link).token = link.token
  nodeId : ∀ link, (f link).nodeId = link.nodeId
  clientName : ∀ link, (f link).clientName = link.clientName
  revoked : ∀ link, link.revokedAt ≠ none → (f link).revokedAt ≠ none

/-- Links are marked, and one may be added that nothing stands against. -/
def LinkWrite (links links' : List ClientPortalToken) : Prop :=
  ∃ f, Marks f ∧ (links' = links.map f ∨
    ∃ link, insertLink (links.map f) link = some links' ∧ link.revokedAt = none)

theorem marks_id : Marks id := ⟨fun _ => rfl, fun _ => rfl, fun _ => rfl, fun _ h => h⟩

theorem marks_if (p : ClientPortalToken → Bool) (now : Time) :
    Marks fun link => if p link then { link with revokedAt := some now } else link := by
  constructor <;> intro link
  · split_ifs <;> rfl
  · split_ifs <;> rfl
  · split_ifs <;> rfl
  · intro hRevoked
    split_ifs
    · exact Option.some_ne_none now
    · exact hRevoked

variable {links : List ClientPortalToken}

theorem insertLink_eq {links' : List ClientPortalToken} {link : ClientPortalToken}
    (h : insertLink links link = some links') : links' = links ++ [link] ∧
      ∀ other ∈ links, other.token ≠ link.token ∧
        other.activeOf link.nodeId link.clientName = false := by
  unfold insertLink at h
  split_ifs at h with hAny
  refine ⟨(Option.some.inj h).symm, fun other hMem => ?_⟩
  have hNot : ¬ (decide (other.token = link.token) ||
      other.activeOf link.nodeId link.clientName) = true :=
    fun hBoth => hAny (any_eq_true.mpr ⟨other, hMem, hBoth⟩)
  simpa using hNot

theorem linkWrite_refl (links : List ClientPortalToken) : LinkWrite links links :=
  ⟨id, marks_id, .inl (map_id links).symm⟩

theorem marks_revokeRows (rows : List ClientPortalToken) (now : Time) :
    Marks fun link =>
      if link.token ∈ rows.map (·.token) then { link with revokedAt := some now } else link := by
  have hMarks := marks_if (fun link => decide (link.token ∈ rows.map (·.token))) now
  simpa only [decide_eq_true_eq] using hMarks

theorem linkWrite_revokeRows (rows links : List ClientPortalToken) (now : Time) :
    LinkWrite links (revokeRows rows links now) :=
  ⟨_, marks_revokeRows rows now, .inl rfl⟩

variable {db db' : ConfigDb ρ} {phase next : LinkPhase} {s s' t : LinkState ρ}

variable {now : Time}

theorem links_deleteConfigRow {id : Nat} {row : ConfigRow}
    (h : deleteConfigRow db id row now = some db') :
    ∃ configs, (∀ other, configs.row? other = (db.configs.row? other).filter fun r =>
        r.haPrimaryConfigId ≠ some id && other ≠ id) ∧ db'.configs = configs ∧
      db'.links = if portalClientRemains configs id row then db.links
        else revokeClientPortalLinks db.links row.nodeId row.clientName.text now := by
  obtain ⟨purged, hPurged, h⟩ := Option.bind_eq_some_iff.mp h
  obtain ⟨configs, hConfigs, h⟩ := Option.bind_eq_some_iff.mp h
  cases h
  refine ⟨configs, fun other => ?_, rfl, rfl⟩
  rw [ConfigTable.row?_delete hConfigs, ConfigTable.row?_delete hPurged, Option.filter_filter]
  congr 1
  funext r
  by_cases hId : other = id <;> by_cases hPrimary : r.haPrimaryConfigId = some id <;>
    simp [hId, hPrimary]

/-- What one step of a call does. -/
inductive LinkDoes (db : ConfigDb ρ) : LinkPhase → ConfigDb ρ → LinkPhase → Prop
  | fail (phase : LinkPhase) (error : HttpError) : LinkDoes db phase db (.failed error)
  | check (req : LinkRequest) : LinkDoes db (.started req) db (.checked req)
  | found (req : LinkRequest) (link : ClientPortalToken) (hOp : req.op = .getOrCreate) :
    LinkDoes db (.checked req) db (.returned req (some link))
  | load (req : LinkRequest) (active : List ClientPortalToken)
    (hActive : req.op = .getOrCreate ∨ active = req.activeLinks db.links) :
    LinkDoes db (.checked req) db (.loaded req active)
  | revoke (req : LinkRequest) (active : List ClientPortalToken) (hOp : req.op = .revoke) :
    LinkDoes db (.loaded req active) { db with links := revokeRows active db.links req.now }
      (.returned req none)
  | issue (req : LinkRequest) (active links : List ClientPortalToken) (hOp : req.op ≠ .revoke)
    (hInsert : insertLink (revokeRows active db.links req.now) req.newLink = some links) :
    LinkDoes db (.loaded req active) { db with links := links } (.returned req (some req.newLink))
  | race (req : LinkRequest) (active : List ClientPortalToken) (hOp : req.op = .getOrCreate) :
    LinkDoes db (.loaded req active) db (.raced req)
  | recover (req : LinkRequest) (link : ClientPortalToken) :
    LinkDoes db (.raced req) db (.returned req (some link))
  | readRow (id : Nat) (row : ConfigRow) (now : Time) (hRow : db.configs.row? id = some row) :
    LinkDoes db (.deleting id now) db (.deleteRead id row now)
  | delete (id : Nat) (row : ConfigRow) (now : Time) (db' : ConfigDb ρ)
    (hDelete : deleteConfigRow db id row now = some db') :
    LinkDoes db (.deleteRead id row now) db' (.deleted id row)

theorem returnActive_cases (links : List ClientPortalToken) (req : LinkRequest)
    (otherwise : LinkPhase) :
    (∃ link, returnActive links req otherwise = .returned req (some link)) ∨
      returnActive links req otherwise = otherwise := by
  unfold returnActive
  cases (req.activeLinks links).getLast? with
  | some link => exact .inl ⟨link, rfl⟩
  | none => exact .inr rfl

theorem linkDoes_commit {req : LinkRequest} {active : List ClientPortalToken}
    (hOp : req.op ≠ .revoke) (h : commitLink db req active = (db', next)) :
    LinkDoes db (.loaded req active) db' next := by
  unfold commitLink at h
  cases hInsert : insertLink (revokeRows active db.links req.now) req.newLink with
  | some links =>
    rw [hInsert] at h
    cases h
    exact .issue req active links hOp hInsert
  | none =>
    rw [hInsert] at h
    cases h
    split_ifs with hGet
    · exact .race req active hGet
    · exact .fail _ _

/-- Every step is one of `LinkDoes`. -/
theorem linkDoes_of_next (h : linkNext db phase = some (db', next)) :
    LinkDoes db phase db' next := by
  cases phase with
  | started req =>
    cases h
    split_ifs
    · exact .fail _ _
    · exact .check req
    · exact .fail _ _
  | checked req =>
    cases h
    rcases hOp : req.op
    · rcases returnActive_cases db.links req (.loaded req []) with ⟨link, hEq⟩ | hEq
      · dsimp only
        rw [hEq]
        exact .found req link hOp
      · dsimp only
        rw [hEq]
        exact .load req [] (.inl hOp)
    · exact .load req _ (.inr rfl)
    · dsimp only
      split_ifs
      · exact .fail _ _
      · exact .load req _ (.inr rfl)
  | loaded req active =>
    dsimp only [linkNext] at h
    split at h
    · next hOp =>
      cases h
      exact .revoke req active hOp
    · next hOp => exact linkDoes_commit hOp (Option.some.inj h)
  | raced req =>
    -- the unique index refused the insert: the active link of the other call, if any
    cases h
    rcases returnActive_cases db.links req (.failed unhandled) with ⟨link, hEq⟩ | hEq
    · rw [hEq]
      exact .recover req link
    · rw [hEq]
      exact .fail _ _
  | deleting id now =>
    cases h
    split
    · next hRow => exact .readRow id _ now hRow
    · exact .fail _ _
  | deleteRead id row now =>
    dsimp only [linkNext] at h
    split at h
    · next hDelete =>
      cases h
      exact .delete id row now _ hDelete
    · cases h
      exact .fail _ _
  | returned req link | deleted id row | failed error => cases h

theorem LinkDoes.write (h : LinkDoes db phase db' next) : LinkWrite db.links db'.links := by
  cases h with
  | revoke req active hOp => exact linkWrite_revokeRows _ _ _
  | issue req active links hOp hInsert =>
    exact ⟨_, marks_revokeRows active req.now, .inr ⟨_, hInsert, rfl⟩⟩
  | delete id row now db' hDelete =>
    obtain ⟨configs, -, -, hLinks⟩ := links_deleteConfigRow hDelete
    rw [hLinks]
    split_ifs
    · exact linkWrite_refl _
    · exact ⟨_, marks_if _ now, .inl rfl⟩
  | _ => exact linkWrite_refl _

variable {a : LinkAction}

theorem linkWrite_step (h : linkStep s a = some s') : LinkWrite s.db.links s'.db.links := by
  cases a with
  | call req | delete id now =>
    cases h
    exact linkWrite_refl _
  | create row =>
    obtain ⟨configs, -, rfl⟩ := Option.map_eq_some_iff.mp h
    exact linkWrite_refl _
  | next i =>
    obtain ⟨phase, -, h⟩ := Option.bind_eq_some_iff.mp h
    obtain ⟨⟨db', next⟩, hNext, rfl⟩ := Option.map_eq_some_iff.mp h
    exact (linkDoes_of_next hNext).write
  | abort i =>
    obtain ⟨phase, -, h⟩ := Option.bind_eq_some_iff.mp h
    split_ifs at h
    cases h
    exact linkWrite_refl _

/-! ## Revoked links stay revoked -/

variable {token : String}

section

variable {links links' : List ClientPortalToken}

theorem LinkWrite.tokens (h : LinkWrite links links')
    (hMem : token ∈ links.map (·.token)) : token ∈ links'.map (·.token) := by
  obtain ⟨f, hMarks, hLinks⟩ := h
  have hIn : token ∈ (links.map f).map (·.token) := by
    rw [map_map]
    obtain ⟨link, hLink, rfl⟩ := mem_map.mp hMem
    exact mem_map.mpr ⟨link, hLink, hMarks.token link⟩
  rcases hLinks with rfl | ⟨link, hInsert, -⟩
  · exact hIn
  · rw [(insertLink_eq hInsert).1, map_append]
    exact mem_append_left _ hIn

/-- A link of an old token is an old link, perhaps with a mark. -/
theorem LinkWrite.old (h : LinkWrite links links')
    (hMem : token ∈ links.map (·.token)) {link' : ClientPortalToken} (hLink' : link' ∈ links')
    (hToken : link'.token = token) : ∃ link ∈ links, link.token = token ∧
      (link.revokedAt ≠ none → link'.revokedAt ≠ none) ∧
      ClientPortalToken.sameClient link' link := by
  obtain ⟨f, hMarks, hLinks⟩ := h
  have hMarked : link' ∈ links.map f → ∃ link ∈ links, link.token = token ∧
      (link.revokedAt ≠ none → link'.revokedAt ≠ none) ∧
      ClientPortalToken.sameClient link' link := by
    intro hIn
    obtain ⟨link, hLink, rfl⟩ := mem_map.mp hIn
    exact ⟨link, hLink, (hMarks.token link).symm.trans hToken, hMarks.revoked link,
      hMarks.nodeId link, hMarks.clientName link⟩
  rcases hLinks with rfl | ⟨new, hInsert, -⟩
  · exact hMarked hLink'
  obtain ⟨rfl, hFree⟩ := insertLink_eq hInsert
  rcases mem_append.mp hLink' with hIn | hNew
  · exact hMarked hIn
  · obtain rfl := mem_singleton.mp hNew
    obtain ⟨link, hLink, hEq⟩ := mem_map.mp hMem
    have hNe := (hFree (f link) (mem_map_of_mem hLink)).1
    rw [hMarks.token, hEq] at hNe
    exact absurd hToken.symm hNe

theorem LinkWrite.revoked (h : LinkWrite links links')
    (hMem : token ∈ links.map (·.token)) (hRevoked : Revoked links token) :
    Revoked links' token := by
  intro link' hLink' hToken
  obtain ⟨link, hLink, hEq, hKept, -⟩ := h.old hMem hLink' hToken
  exact hKept (hRevoked link hLink hEq)

/-- Tokens differ, and each link but the last of its client is revoked. -/
def InOrder (links : List ClientPortalToken) : Prop :=
  links.Pairwise fun a b => a.token ≠ b.token ∧
    (ClientPortalToken.sameClient a b → a.revokedAt ≠ none)

/-- A write keeps each link but the last of its client revoked. -/
theorem LinkWrite.inOrder (h : LinkWrite links links') (hOrder : InOrder links) :
    InOrder links' := by
  obtain ⟨f, hMarks, hLinks⟩ := h
  have hMarked : InOrder (links.map f) := by
    unfold InOrder
    rw [pairwise_map]
    refine hOrder.imp fun {a b} hOld => ⟨?_, fun hSame => hMarks.revoked _ (hOld.2 ?_)⟩
    · rw [hMarks.token, hMarks.token]
      exact hOld.1
    · unfold ClientPortalToken.sameClient at hSame
      rwa [hMarks.nodeId, hMarks.nodeId, hMarks.clientName, hMarks.clientName] at hSame
  rcases hLinks with rfl | ⟨new, hInsert, -⟩
  · exact hMarked
  · obtain ⟨rfl, hFree⟩ := insertLink_eq hInsert
    refine pairwise_append.mpr ⟨hMarked, pairwise_singleton _ _, ?_⟩
    intro a hA b hB
    obtain rfl := mem_singleton.mp hB
    obtain ⟨hToken, hActive⟩ := hFree a hA
    refine ⟨hToken, fun hSame hNone => ?_⟩
    simp [ClientPortalToken.activeOf, hSame.1, hSame.2, hNone] at hActive

theorem length_activeOf (hOrder : InOrder links) (nodeId : Nat) (clientName : String) :
    (links.filter (·.activeOf nodeId clientName)).length ≤ 1 := by
  have hFiltered := List.Pairwise.filter (·.activeOf nodeId clientName) hOrder
  have hActive : ∀ link ∈ links.filter (·.activeOf nodeId clientName),
      link.nodeId = nodeId ∧ link.clientName = clientName ∧ link.revokedAt = none := by
    intro link hLink
    simpa [ClientPortalToken.activeOf, and_assoc] using (mem_filter.mp hLink).2
  generalize links.filter (·.activeOf nodeId clientName) = active at hFiltered hActive
  rcases active with _ | ⟨a, _ | ⟨b, rest⟩⟩
  · exact Nat.zero_le 1
  · exact Nat.le_refl 1
  · obtain ⟨hNodeA, hNameA, hNoneA⟩ := hActive a mem_cons_self
    obtain ⟨hNodeB, hNameB, -⟩ := hActive b (mem_cons_of_mem _ mem_cons_self)
    exact absurd hNoneA (((pairwise_cons.mp hFiltered).1 b mem_cons_self).2
      ⟨hNodeA.trans hNodeB.symm, hNameA.trans hNameB.symm⟩)

theorem InOrder.eq_of_token (hOrder : InOrder links) {a b : ClientPortalToken} (hA : a ∈ links)
    (hB : b ∈ links) (hToken : a.token = b.token) : a = b := by
  have hNodup : (links.map (·.token)).Nodup :=
    pairwise_map.mpr (hOrder.imp fun hOld => hOld.1)
  exact inj_on_of_nodup_map hNodup hA hB hToken

end

/-! ## A revocation settles the links from before its call -/

/-- The link is for the client of the call. -/
def LinkRequest.isFor (req : LinkRequest) (link : ClientPortalToken) : Prop :=
  link.nodeId = req.nodeId ∧ link.clientName = req.name

/-- What the phase of a call means for a link that was there when the call began. -/
def Settled (links : List ClientPortalToken) (old : ClientPortalToken) : LinkPhase → Prop
  | .loaded req active => req.op ≠ .getOrCreate → req.isFor old →
    ∀ link ∈ links, link.token = old.token → link.revokedAt = none →
      old.token ∈ active.map (·.token)
  | .raced req => req.op = .getOrCreate
  | .returned req _ => req.op ≠ .getOrCreate → req.isFor old → Revoked links old.token
  | _ => True

structure Tracked (old : ClientPortalToken) (i : Nat) (s : LinkState ρ) : Prop where
  known : old.token ∈ s.db.links.map (·.token)
  client : ∀ link ∈ s.db.links, link.token = old.token → ClientPortalToken.sameClient link old
  settled : ∀ phase, s.calls[i]? = some phase → Settled s.db.links old phase

variable {old : ClientPortalToken}

theorem Settled.write {links' : List ClientPortalToken}
    (h : Settled links old phase) (hWrite : LinkWrite links links')
    (hKnown : old.token ∈ links.map (·.token)) : Settled links' old phase := by
  cases phase with
  | loaded req active =>
    intro hOp hFor link' hLink' hToken hNone
    obtain ⟨link, hLink, hEq, hKept, -⟩ := hWrite.old hKnown hLink' hToken
    exact h hOp hFor link hLink hEq (by_contra fun hRevoked => hKept hRevoked hNone)
  | returned req link => exact fun hOp hFor => hWrite.revoked hKnown (h hOp hFor)
  | raced req => exact h
  | _ => trivial

theorem revoked_revokeRows {active : List ClientPortalToken}
    (h : ∀ link ∈ links, link.token = old.token → link.revokedAt = none →
      old.token ∈ active.map (·.token)) : Revoked (revokeRows active links now) old.token := by
  intro link' hLink' hToken
  obtain ⟨link, hLink, rfl⟩ := mem_map.mp hLink'
  rw [(marks_revokeRows active now).token] at hToken
  split_ifs with hIn
  · exact Option.some_ne_none now
  · exact fun hNone => hIn (hToken ▸ h link hLink hToken hNone)

theorem LinkDoes.settled (h : LinkDoes db phase db' next)
    (hKnown : old.token ∈ db.links.map (·.token))
    (hClient : ∀ link ∈ db.links, link.token = old.token → ClientPortalToken.sameClient link old)
    (hSettled : Settled db.links old phase) : Settled db'.links old next := by
  cases h with
  | found req link hOp => exact fun hNot => absurd hOp hNot
  | load req active hActive =>
    intro hOp hFor link hLink hToken hNone
    obtain rfl := hActive.resolve_left hOp
    obtain ⟨hNode, hName⟩ := hClient link hLink hToken
    have hIn : link ∈ req.activeLinks db.links := by
      refine mem_filter.mpr ⟨hLink, ?_⟩
      simp [ClientPortalToken.activeOf, hNode.trans hFor.1, hName.trans hFor.2, hNone]
    exact mem_map.mpr ⟨link, hIn, hToken⟩
  | revoke req active hOp =>
    exact fun hNot hFor => revoked_revokeRows (hSettled hNot hFor)
  | issue req active links hOp hInsert =>
    intro hNot hFor link hLink hToken
    obtain ⟨rfl, hFree⟩ := insertLink_eq hInsert
    rcases mem_append.mp hLink with hOld | hNew
    · exact revoked_revokeRows (hSettled hNot hFor) link hOld hToken
    · obtain ⟨known, hMem, hEq⟩ := mem_map.mp hKnown
      have hNe := (hFree _ (mem_map_of_mem hMem)).1
      rw [(marks_revokeRows active req.now).token, hEq, ← hToken, mem_singleton.mp hNew] at hNe
      exact absurd rfl hNe
  | race req active hOp => exact hOp
  | recover req link => exact fun hNot => absurd hSettled hNot
  | _ => trivial

/-- A link that has been there stays known and settled. -/
theorem tracked_step {i : Nat} (h : Tracked old i s)
    (hStep : linkStep s a = some s') : Tracked old i s' := by
  have hWrite := linkWrite_step hStep
  have hClient : ∀ link ∈ s'.db.links, link.token = old.token →
      ClientPortalToken.sameClient link old := by
    intro link' hLink' hToken
    obtain ⟨link, hLink, hEq, -, hSame⟩ := hWrite.old h.known hLink' hToken
    obtain ⟨hNode, hName⟩ := h.client link hLink hEq
    exact ⟨hSame.1.trans hNode, hSame.2.trans hName⟩
  refine ⟨hWrite.tokens h.known, hClient, fun phase hPhase => ?_⟩
  -- a call that the step does not move
  have hKept : s.calls[i]? = some phase → Settled s'.db.links old phase :=
    fun hOld => (h.settled phase hOld).write hWrite h.known
  -- a call that begins with it
  have hBegun : ∀ first, Settled s'.db.links old first →
      (s.calls ++ [first])[i]? = some phase → Settled s'.db.links old phase := by
    intro first hFirst hAt
    rw [List.getElem?_append] at hAt
    split_ifs at hAt
    · exact hKept hAt
    · obtain rfl := mem_singleton.mp (mem_of_getElem? hAt)
      exact hFirst
  -- the call that it moves
  have hSet : ∀ j now, (∀ was, s.calls[j]? = some was → j = i → Settled s'.db.links old now) →
      s'.calls = s.calls.set j now → (s.calls[j]?).isSome = true →
      Settled s'.db.links old phase := by
    intro j now hNow hCalls hSome
    rw [hCalls] at hPhase
    by_cases hAt : j = i
    · obtain ⟨was, hWas⟩ := Option.isSome_iff_exists.mp hSome
      rw [hAt, List.getElem?_set_self (hAt ▸ (List.getElem?_eq_some_iff.mp hWas).1)] at hPhase
      exact Option.some.inj hPhase ▸ hNow was hWas hAt
    · rw [List.getElem?_set_ne hAt] at hPhase
      exact hKept hPhase
  cases a with
  | call req =>
    cases hStep
    exact hBegun (.started req) trivial hPhase
  | delete id now =>
    cases hStep
    exact hBegun (.deleting id now) trivial hPhase
  | create row =>
    obtain ⟨configs, -, rfl⟩ := Option.map_eq_some_iff.mp hStep
    exact hKept hPhase
  | next j =>
    obtain ⟨was, hWas, hStep⟩ := Option.bind_eq_some_iff.mp hStep
    obtain ⟨⟨db', now⟩, hNext, rfl⟩ := Option.map_eq_some_iff.mp hStep
    refine hSet j now (fun was' hWas' hAt => ?_) rfl (by rw [hWas]; rfl)
    obtain rfl := Option.mem_unique hWas hWas'
    exact (linkDoes_of_next hNext).settled h.known h.client (h.settled was (hAt ▸ hWas))
  | abort j =>
    obtain ⟨was, hWas, hStep⟩ := Option.bind_eq_some_iff.mp hStep
    split_ifs at hStep
    cases hStep
    exact hSet j (.failed unhandled) (fun _ _ _ => trivial) rfl (by rw [hWas]; rfl)

/-! ## A valid link has a client -/

theorem hasConfig_iff {t : ConfigTable} {nodeId : Nat} {clientName : String} :
    hasConfig t nodeId clientName = true ↔ ∃ id row, t.row? id = some row ∧ row.nodeId = nodeId ∧
      row.clientName.text = clientName ∧ row.haPrimaryConfigId = none := by
  rw [hasConfig, decide_eq_true_eq, ne_nil_iff_exists_cons]
  constructor
  · rintro ⟨id, rest, hIds⟩
    obtain ⟨row, hRow, hP⟩ := ConfigTable.mem_ids.mp (hIds ▸ mem_cons_self : id ∈ _)
    simp only [Bool.and_eq_true, decide_eq_true_eq, Option.isNone_iff_eq_none, and_assoc] at hP
    exact ⟨id, row, hRow, hP⟩
  · rintro ⟨id, row, hRow, hNode, hName, hShadow⟩
    refine exists_cons_of_ne_nil (ne_nil_of_mem (a := id) ?_)
    exact ConfigTable.mem_ids.mpr ⟨row, hRow, by simp [hNode, hName, hShadow]⟩

/-- Every valid link is of a client with a config. -/
def Live (db : ConfigDb ρ) : Prop :=
  ∀ link ∈ db.links, link.revokedAt = none →
    hasConfig db.configs link.nodeId link.clientName = true

theorem Live.marked (h : Live db) {f : ClientPortalToken → ClientPortalToken} (hMarks : Marks f) :
    ∀ link ∈ db.links.map f, link.revokedAt = none →
      hasConfig db.configs link.nodeId link.clientName = true := by
  intro link' hLink' hNone
  obtain ⟨link, hLink, rfl⟩ := mem_map.mp hLink'
  rw [hMarks.nodeId, hMarks.clientName]
  exact h link hLink (by_contra fun hRevoked => hMarks.revoked link hRevoked hNone)

theorem live_delete {id : Nat} {row : ConfigRow} (h : Live db)
    (hSame : ∀ found, db.configs.row? id = some found →
      found.nodeId = row.nodeId ∧ found.clientName = row.clientName)
    (hDelete : deleteConfigRow db id row now = some db') : Live db' := by
  obtain ⟨configs, hRows, hConfigs, hLinks⟩ := links_deleteConfigRow hDelete
  intro link' hLink' hNone
  -- the config of another client is not the one that goes
  have hOther : ∀ link ∈ db.links, link.revokedAt = none →
      ¬ (link.nodeId = row.nodeId ∧ link.clientName = row.clientName.text) →
      hasConfig db'.configs link.nodeId link.clientName = true := by
    intro link hLink hActive hApart
    obtain ⟨other, r, hRow, hNode, hName, hShadow⟩ := hasConfig_iff.mp (h link hLink hActive)
    refine hasConfig_iff.mpr ⟨other, r, ?_, hNode, hName, hShadow⟩
    rw [hConfigs, hRows, hRow, Option.filter_some_pos]
    have hNe : other ≠ id := by
      rintro rfl
      obtain ⟨hFoundNode, hFoundName⟩ := hSame r hRow
      exact hApart ⟨hNode.symm.trans hFoundNode, hName.symm.trans (congrArg _ hFoundName)⟩
    simp [hNe, hShadow]
  rw [hLinks] at hLink'
  by_cases hRemains : portalClientRemains configs id row = true
  · rw [if_pos hRemains] at hLink'
    by_cases hOwn : link'.nodeId = row.nodeId ∧ link'.clientName = row.clientName.text
    · obtain ⟨other, r, -, hRow, hP⟩ := ConfigTable.anyOther_iff.mp hRemains
      simp only [Bool.and_eq_true, decide_eq_true_eq, Option.isNone_iff_eq_none] at hP
      refine hasConfig_iff.mpr ⟨other, r, hConfigs ▸ hRow, hP.1.1.trans hOwn.1.symm, ?_, hP.2⟩
      rw [hP.1.2]
      exact hOwn.2.symm
    · exact hOther link' hLink' hNone hOwn
  · rw [if_neg hRemains] at hLink'
    obtain ⟨link, hLink, rfl⟩ := mem_map.mp hLink'
    split_ifs at hNone ⊢ with hActive
    refine hOther link hLink hNone fun hOwn => hActive ?_
    simp [ClientPortalToken.activeOf, hOwn.1, hOwn.2, hNone]

/-- A step in time keeps every active link one of a client with a config. -/
theorem live_step (h : Live s.db) (hIn : inTime s a = true)
    (hStep : linkStep s a = some s') : Live s'.db := by
  cases a with
  | call req | delete id now =>
    cases hStep
    exact h
  | create row =>
    obtain ⟨configs, hInsert, rfl⟩ := Option.map_eq_some_iff.mp hStep
    intro link hLink hNone
    obtain ⟨id, r, hRow, hClient⟩ := hasConfig_iff.mp (h link hLink hNone)
    refine hasConfig_iff.mpr ⟨id, r, ?_, hClient⟩
    rw [ConfigTable.row?_insert hInsert, if_neg]
    · exact hRow
    · rintro rfl
      rw [ConfigTable.row?_nextId] at hRow
      cases hRow
  | next i =>
    obtain ⟨phase, hPhase, hStep⟩ := Option.bind_eq_some_iff.mp hStep
    obtain ⟨⟨db', next⟩, hNext, rfl⟩ := Option.map_eq_some_iff.mp hStep
    unfold inTime at hIn
    dsimp only at hIn
    rw [hPhase] at hIn
    cases linkDoes_of_next hNext with
    | revoke req active hOp => exact h.marked (marks_revokeRows active req.now)
    | issue req active links hOp hInsert =>
      obtain ⟨rfl, -⟩ := insertLink_eq hInsert
      intro link hLink hNone
      rcases mem_append.mp hLink with hOld | hNew
      · exact h.marked (marks_revokeRows active req.now) link hOld hNone
      · rw [mem_singleton.mp hNew]
        exact (Bool.or_eq_true _ _ |>.mp hIn).resolve_left (by simpa using hOp)
    | delete id row now db' hDelete =>
      refine live_delete h (fun found hFound => ?_) hDelete
      dsimp only at hIn
      rw [hFound] at hIn
      simpa using hIn
    | _ => exact h
  | abort i =>
    obtain ⟨phase, -, hStep⟩ := Option.bind_eq_some_iff.mp hStep
    split_ifs at hStep
    cases hStep
    exact h

/-! ## Runs -/

variable {as : List LinkAction}

/-- In every run an old link gives way to the next one, and ends with a revocation. -/
theorem inOrder_run {policies : Lib.Table AccessKey ρ}
    (hRun : exec linkStep (LinkState.start policies) as = some t) : InOrder t.db.links := by
  have hStep : ∀ (s : LinkState ρ) a s', InOrder s.db.links → linkStep s a = some s' →
      InOrder s'.db.links :=
    fun _ _ _ hInv hStep => (linkWrite_step hStep).inOrder hInv
  have hStart : InOrder (LinkState.start policies).db.links := List.Pairwise.nil
  exact invariant_of_exec hStep hStart hRun

/-- In every run a token that is no longer valid stays so. -/
theorem revoked_run
    (hKnown : token ∈ s.db.links.map (·.token)) (hRevoked : Revoked s.db.links token)
    (hRun : exec linkStep s as = some t) : Revoked t.db.links token := by
  have hStep : ∀ (s : LinkState ρ) a s',
      (token ∈ s.db.links.map (·.token) ∧ Revoked s.db.links token) → linkStep s a = some s' →
      token ∈ s'.db.links.map (·.token) ∧ Revoked s'.db.links token := by
    intro s a s' hInv hStep
    have hWrite := linkWrite_step hStep
    exact ⟨hWrite.tokens hInv.1, hWrite.revoked hInv.1 hInv.2⟩
  exact (invariant_of_exec hStep ⟨hKnown, hRevoked⟩ hRun).2

/-- In every run a rotation or revocation that returns has ended the links from before it. -/
theorem settled_run {i : Nat}
    (hOrder : InOrder s.db.links) (hOld : old ∈ s.db.links) (hNew : s.calls.length ≤ i)
    (hRun : exec linkStep s as = some t) : Tracked old i t := by
  have hStart : Tracked old i s := by
    refine ⟨mem_map_of_mem hOld, fun link hLink hToken => ?_, fun phase hPhase => ?_⟩
    · rw [hOrder.eq_of_token hLink hOld hToken]
      exact ⟨rfl, rfl⟩
    · rw [List.getElem?_eq_none hNew] at hPhase
      cases hPhase
  exact invariant_of_exec (fun _ _ _ hInv hStep => tracked_step hInv hStep) hStart hRun

/-- **An old portal link never opens a new client** in a run where every new link is committed
while its client has a config and every deletion finds its own client under the id. -/
theorem links_safe {policies : Lib.Table AccessKey ρ} {as : List LinkAction}
    (hRun : exec linkStep (LinkState.start policies) as = some t)
    (hIn : Along linkStep (fun s a => inTime s a = true) (LinkState.start policies) as) :
    LinksSafe (LinkState.start policies) as t := by
  have hLive : ∀ bs cs s, as = bs ++ cs →
      exec linkStep (LinkState.start policies) bs = some s → Live s.db := by
    rintro bs cs s rfl hBefore
    have hStart : Live (LinkState.start policies).db := fun _ hLink => absurd hLink not_mem_nil
    have hStep : ∀ (s : LinkState ρ) a s', Live s.db → inTime s a = true →
        linkStep s a = some s' → Live s'.db :=
      fun _ _ _ hInv hIn hStep => live_step hInv hIn hStep
    exact invariant_exec hStep hStart hIn.past hBefore
  have hRest : ∀ bs cs s, as = bs ++ cs →
      exec linkStep (LinkState.start policies) bs = some s → exec linkStep s cs = some t := by
    rintro bs cs s rfl hBefore
    obtain ⟨u, hMid, hAfter⟩ := exec_append_iff.mp hRun
    rwa [Option.mem_unique hMid hBefore] at hAfter
  constructor
  · exact length_activeOf (inOrder_run hRun)
  · exact (inOrder_run hRun).imp fun hOld => hOld.2
  · intro bs cs s i req link hSplit hBefore hBegun hCall hOp old hOld hNode hName
    have hTracked := settled_run (inOrder_run hBefore) hOld hBegun (hRest bs cs s hSplit hBefore)
    exact hTracked.settled _ hCall hOp ⟨hNode, hName⟩
  · exact fun _ => hLive as [] t (append_nil as).symm hRun
  · intro bs cs s hSplit hBefore old hOld hGone
    refine revoked_run (mem_map_of_mem hOld) (fun link hLink hToken hNone => ?_)
      (hRest bs cs s hSplit hBefore)
    obtain rfl := (inOrder_run hBefore).eq_of_token hLink hOld hToken
    rw [hLive bs cs s hSplit hBefore link hLink hNone] at hGone
    cases hGone

/-! ## A link that outlives its client -/

def veraConfig : ConfigRow :=
  { nodeId := 1, clientName := ⟨"vera", by decide, by decide⟩, vpnType := .openvpn,
    haPrimaryConfigId := none, ownerId := 1 }

def veraLink (op : LinkOp) (token : String) : LinkAction := .call ⟨op, 1, "vera", token, none, 5⟩

/-- Links of vera are made, replaced and revoked, and the client is deleted. -/
def veraDeleted : List LinkAction :=
  [.create veraConfig,
    veraLink .getOrCreate "c_1", .next 0, .next 0, .next 0,
    veraLink .rotate "c_2", .next 1, .next 1, .next 1,
    veraLink .revoke "", .next 2, .next 2, .next 2,
    .delete 1 6, .next 3, .next 3]

theorem links_safe_vera : ∃ t : LinkState Unit,
    exec linkStep (LinkState.start Lib.Table.empty) veraDeleted = some t ∧
      LinksSafe (LinkState.start Lib.Table.empty) veraDeleted t := by
  have hSome : (exec linkStep (LinkState.start (ρ := Unit) Lib.Table.empty) veraDeleted).isSome =
      true := by
    decide
  obtain ⟨t, hRun⟩ := Option.isSome_iff_exists.mp hSome
  exact ⟨t, hRun, links_safe hRun (by decide)⟩

/-- The only config of vera is deleted between the look at the configs and the commit of the link;
then vera is created again. -/
def veraReborn : List LinkAction :=
  [.create veraConfig, veraLink .getOrCreate "c_1", .next 0, .next 0, .delete 1 6, .next 1, .next 1,
    .next 0, .create veraConfig]

/-- **The link opens the new client**: it is made for the deleted one and stays valid. -/
theorem link_outlives_client : ∃ s t : LinkState Unit,
    exec linkStep (LinkState.start Lib.Table.empty) (veraReborn.take 8) = some s ∧
      exec linkStep (LinkState.start Lib.Table.empty) veraReborn = some t ∧
      s.calls.all LinkPhase.ended = true ∧ s.db.links = [⟨"c_1", 1, "vera", none, none⟩] ∧
      hasConfig s.db.configs 1 "vera" = false ∧ t.db.links = s.db.links ∧
      hasConfig t.db.configs 1 "vera" = true ∧
      ¬ LinksSafe (LinkState.start Lib.Table.empty) veraReborn t := by
  have hRun : ((exec linkStep (LinkState.start (ρ := Unit) Lib.Table.empty)
      (veraReborn.take 8)).bind fun s => (linkStep s (.create veraConfig)).map fun t =>
        (s.calls.all LinkPhase.ended, s.db.links, hasConfig s.db.configs 1 "vera", t.db.links,
          hasConfig t.db.configs 1 "vera")) =
      some (true, [⟨"c_1", 1, "vera", none, none⟩], false, [⟨"c_1", 1, "vera", none, none⟩],
        true) := by
    decide
  obtain ⟨s, hBefore, hRest⟩ := Option.bind_eq_some_iff.mp hRun
  obtain ⟨t, hCreate, hFacts⟩ := Option.map_eq_some_iff.mp hRest
  simp only [Prod.mk.injEq] at hFacts
  obtain ⟨hEnded, hLinks, hGone, hLinks', hThere⟩ := hFacts
  have hAll : exec linkStep (LinkState.start Lib.Table.empty) veraReborn = some t :=
    exec_append_iff.mpr ⟨s, hBefore, by rw [exec, hCreate]; rfl⟩
  refine ⟨s, t, hBefore, hAll, hEnded, hLinks, hGone, hLinks'.trans hLinks.symm, hThere,
    fun hSafe => ?_⟩
  have hMem : (⟨"c_1", 1, "vera", none, none⟩ : ClientPortalToken) ∈ s.db.links := by
    rw [hLinks]
    exact mem_cons_self
  refine hSafe.reborn (veraReborn.take 8) [.create veraConfig] s rfl hBefore _ hMem hGone
    ⟨"c_1", 1, "vera", none, none⟩ ?_ rfl rfl
  rw [hLinks']
  exact mem_cons_self

end AdminPanel.Portal
