import AdminPanel.Unlock.Deadline
import AdminPanel.Unlock.ManualBan

/-!
# Two extensions at once

Two client-portal redemptions of different unrestricted codes for one client of
one node. The policy row is loaded before the reservation takes the lock, and the
session keeps what it loaded: after the lock is taken the deadline is read again
through the same session.

* `Extending` — what holds of both calls on their way, with the deadline as a
  function of who has committed (`extending_step`);
* `AddsUp` — the verdict that a step turns from true to false when a call reserves
  on an old deadline (`addsUp_step_iff`);
* `extensions_add_up_iff` — two redemptions that return add up exactly when each
  had the committed deadline in its session when it reserved.
-/

namespace AdminPanel.Unlock

open Lib (Table Session exec Along)
open Access Panel

/-! ## The two calls -/

/-- Two client-portal calls for one client of one node, at one time, with different
unrestricted codes. -/
structure TwoExtensions (db : Db) (nodeId : Nat) (clientKey : String) (now : Time)
    (reqs : Bool → RedeemRequest) (codes : Bool → UnlockCode) : Prop where
  user : ∀ i, (reqs i).userId = none
  node : ∀ i, (reqs i).nodeId = nodeId
  client : ∀ i, (reqs i).clientKey = clientKey
  time : ∀ i, (reqs i).now = now
  stored : ∀ i, db.codes.row? (reqs i).codeText = some (codes i)
  unrestricted : ∀ i, (codes i).allowedClientNames = []
  different : (reqs false).codeText ≠ (reqs true).codeText

def redeemBoth (reqs : Bool → RedeemRequest) : Bool → CodeCall := fun i => .redeem (reqs i)

/-- The claim of a call that has read what it needs. -/
def Phase.claim? : Phase → Option Claim
  | .loading claim _ => some claim
  | .reserved claim => some claim
  | _ => none

/-- The deadline that the session has loaded, if any, is the committed one. -/
def UpToDate (key : PolicyKey) (db : Db) (claim : Claim) : Prop :=
  ∀ o, claim.session.objects.row? key = some o → o.current.accessUntil = deadlineAt db key

/-- A call that reserves has the committed deadline in its session. -/
def ReservesUpToDate (reqs : Bool → RedeemRequest) (key : PolicyKey) (s : System Bool)
    (a : Act Bool) : Prop :=
  ∀ claim, s.move (redeemBoth reqs) a = .takeLock (.reserved claim) → UpToDate key s.db claim

/-- Codes that differ in what they count only. -/
structure SameTerms (code code' : UnlockCode) : Prop where
  grantDays : code.grantDays = code'.grantDays
  protocols : code.protocols = code'.protocols
  allowedClientNames : code.allowedClientNames = code'.allowedClientNames

variable {code : UnlockCode}

theorem SameTerms.protocolsApplied {code' : UnlockCode} (h : SameTerms code code')
    (ps : List Protocol) : protocolsApplied code ps = protocolsApplied code' ps := by
  unfold AdminPanel.Unlock.protocolsApplied
  rw [h.protocols, h.allowedClientNames]

variable {req : RedeemRequest}

theorem checkCode_ok {found : Option UnlockCode}
    (h : checkCode req found = .ok code) : found = some code := by
  cases found with
  | none => cases h
  | some stored =>
    unfold checkCode at h
    simp only at h
    split at h
    · simp at h
    · split at h
      · simp at h
      · split at h
        · simp at h
        · exact congrArg some (Except.ok.inj h)

variable {db : Db}

theorem checkDuplicate_ok
    {ps applied : List Protocol} (h : checkDuplicate db req code ps = .ok applied) :
    applied = protocolsApplied code ps := by
  unfold checkDuplicate at h
  split at h
  · simp at h
  · split at h
    · simp at h
    · exact (Except.ok.inj h).symm

variable {key : PolicyKey} {before : Option Time} {claim : Claim} {i : Bool} {next : Phase}
  {keys : List PolicyKey}

section

variable {db₀ : Db} {nodeId : Nat} {clientKey : String} {now : Time}
  {reqs : Bool → RedeemRequest} {codes : Bool → UnlockCode} {p : Protocol}
  {s s' : System Bool} {a : Act Bool}

/-- The steps of calls none of which raises. -/
theorem redeemBoth_cases (hNone : ∀ i e, s'.phase i ≠ .raised e)
    (h : sysStep (redeemBoth reqs) s a = some s') :
    (∃ next, s.move (redeemBoth reqs) a = .read next ∧
      ReadStep (.redeem (reqs a.proc)) s.db (s.phase a.proc) next ∧
      s' = s.goto a.proc next s.db s.lock) ∨
    (∃ claim, s.move (redeemBoth reqs) a = .takeLock (.reserved claim) ∧
      s.phase a.proc = .loading claim [] ∧ s.lock = none ∧
      s' = s.goto a.proc (.reserved claim) s.db (some a.proc)) ∨
    (∃ claim db next, s.move (redeemBoth reqs) a = .release db next ∧
      s.phase a.proc = .reserved claim ∧ s.lock = some a.proc ∧
      grantAndCommit s.db (reqs a.proc) claim = .ok db ∧
      next = .reconciling (reconciledKeys db (reqs a.proc) claim) ∧
      s' = s.goto a.proc next db none) ∨
    (∃ key keys db, s.move (redeemBoth reqs) a = .write db (.reconciling keys) ∧
      s.phase a.proc = .reconciling (key :: keys) ∧
      db = { s.db with policies := reconcileEnding s.db.policies key a.reading a.outcome } ∧
      s' = s.goto a.proc (.reconciling keys) db none) := by
  obtain ⟨next, hMove, rfl⟩ | ⟨next, hMove, hLock, rfl⟩ | ⟨db, next, hMove, hLock, rfl⟩ |
    ⟨db, next, hMove, hLock, rfl⟩ := sysStep_cases h
  · exact .inl ⟨next, hMove, read_inv hMove, rfl⟩
  · obtain ⟨req, claim, stored, hCall, hPhase, rfl, -, -⟩ := takeLock_inv hMove
    exact .inr (.inl ⟨claim, hMove, hPhase, hLock, rfl⟩)
  · obtain ⟨claim, hPhase, ⟨req, hCall, hCommit, hNext⟩ | ⟨e, -, -, rfl⟩⟩ := release_inv hMove
    · obtain rfl := CodeCall.redeem.inj hCall
      exact .inr (.inr (.inl ⟨claim, db, next, hMove, hPhase, hLock, hCommit, hNext, rfl⟩))
    · exact absurd (System.goto_phase_self s a.proc _ _ _) (hNone a.proc e)
  · obtain ⟨-, -, e, -, -, -, rfl⟩ | ⟨-, key, keys, -, hPhase, hDb, rfl | ⟨-, -, rfl⟩⟩ |
      ⟨_, _, hCall, -⟩ := write_inv hMove
    · exact absurd (System.goto_phase_self s a.proc _ _ _) (hNone a.proc _)
    · exact .inr (.inr (.inr ⟨key, keys, db, hMove, hPhase, hDb, rfl⟩))
    · exact absurd (System.goto_phase_self s a.proc _ _ _) (hNone a.proc _)
    · cases hCall

/-! ## The invariant -/

/-- What a call carries on its way: the terms of its code and the client's lookup. -/
structure ClaimOnCourse (lookup : String × List Protocol) (code : UnlockCode) (claim : Claim) :
    Prop where
  terms : SameTerms claim.code code
  canonicalName : claim.canonicalName = lookup.1
  applied : claim.applied = protocolsApplied code lookup.2

def OnCourse (lookup : String × List Protocol) (code : UnlockCode) : Phase → Prop
  | .codeRead read => SameTerms read code
  | .configsRead read canonicalName ps => SameTerms read code ∧ (canonicalName, ps) = lookup
  | .userRead read canonicalName ps _ => SameTerms read code ∧ (canonicalName, ps) = lookup
  | .loading claim _ => ClaimOnCourse lookup code claim
  | .reserved claim => ClaimOnCourse lookup code claim
  | _ => True

/-- The session of a call holds rows of the table, and of the policy row the
deadline from before both calls or the committed one. -/
structure SessionOk (db : Db) (key : PolicyKey) (before : Option Time) (claim : Claim) :
    Prop where
  rows : ∀ k ∈ claim.session.objects.keys, k ∈ db.policies.keys
  untouched : Untouched claim.session key
  sees : ∀ o, claim.session.objects.row? key = some o →
    o.current.accessUntil = before ∨ o.current.accessUntil = deadlineAt db key

theorem SessionOk.mono {db' : Db} (h : SessionOk db key before claim)
    (hKeys : ∀ k ∈ db.policies.keys, k ∈ db'.policies.keys)
    (hDeadline : deadlineAt db key = deadlineAt db' key ∨ deadlineAt db key = before) :
    SessionOk db' key before claim := by
  refine ⟨fun k hk => hKeys k (h.rows k hk), h.untouched, ?_⟩
  intro o ho
  rcases h.sees o ho with hSees | hSees
  · exact .inl hSees
  · exact hDeadline.elim (fun hSame => .inr (hSees.trans hSame))
      fun hBefore => .inl (hSees.trans hBefore)

theorem SessionOk.empty (db : Db) (key : PolicyKey) (before : Option Time)
    (h : claim.session = .empty) : SessionOk db key before claim := by
  refine ⟨?_, ?_, ?_⟩
  · intro k hk
    rw [h] at hk
    cases hk
  · intro o ho
    rw [h] at ho
    cases ho
  · intro o ho
    rw [h] at ho
    cases ho

/-- The session after one more row is loaded. -/
theorem SessionOk.load (h : SessionOk db key before claim) (k : PolicyKey) :
    SessionOk db key before { claim with session := claim.session.load db.policies k } := by
  refine ⟨?_, ?_, ?_⟩
  · intro k' hk'
    rw [Table.mem_keys, Session.row?_load] at hk'
    split at hk'
    · next hLoads =>
      obtain ⟨rfl, -⟩ := hLoads
      rw [Option.isSome_map] at hk'
      exact (Table.mem_keys _ _).mpr hk'
    · exact h.rows k' ((Table.mem_keys _ _).mpr hk')
  · intro o ho
    rw [Session.row?_load] at ho
    split at ho
    · obtain ⟨row, -, rfl⟩ := Option.map_eq_some_iff.mp ho
      rfl
    · exact h.untouched o ho
  · intro o ho
    rw [Session.row?_load] at ho
    split at ho
    · next hLoads =>
      obtain ⟨rfl, -⟩ := hLoads
      obtain ⟨row, hRow, rfl⟩ := Option.map_eq_some_iff.mp ho
      right
      rw [deadlineAt, hRow]
      rfl
    · exact h.sees o ho

/-- What holds of two redemptions on their way, for the row of one protocol. -/
structure Extending (db₀ : Db) (nodeId : Nat) (clientKey : String) (now : Time)
    (reqs : Bool → RedeemRequest) (codes : Bool → UnlockCode) (key : PolicyKey)
    (s : System Bool) : Prop where
  holdsLock : HoldsLock s
  lookup : clientConfigNameAndProtocols s.db nodeId clientKey =
    clientConfigNameAndProtocols db₀ nodeId clientKey
  stored : ∀ i, ∃ code, s.db.codes.row? (reqs i).codeText = some code ∧ SameTerms code (codes i)
  course : ∀ i, OnCourse (clientConfigNameAndProtocols db₀ nodeId clientKey) (codes i) (s.phase i)
  session : ∀ i claim, (s.phase i).claim? = some claim →
    SessionOk s.db key (deadlineAt db₀ key) claim
  -- the deadline, until both have committed
  deadline : ∀ i, (s.phase (!i)).committed = false →
    deadlineAt s.db key =
      if (s.phase i).committed then
        some (grantedUntil (deadlineAt db₀ key) now (codes i).grantDays)
      else deadlineAt db₀ key

theorem Extending.start (hTwo : TwoExtensions db₀ nodeId clientKey now reqs codes)
    (key : PolicyKey) :
    Extending db₀ nodeId clientKey now reqs codes key (System.start Bool db₀) where
  holdsLock := holdsLock_start db₀
  lookup := rfl
  stored := fun i => ⟨codes i, hTwo.stored i, rfl, rfl, rfl⟩
  course := fun _ => trivial
  session := nofun
  deadline := fun _ _ => rfl

theorem committed_goto {lock : Option Bool} (h : next.committed = (s.phase i).committed)
    (j : Bool) :
    ((s.goto i next db lock).phase j).committed = (s.phase j).committed :=
  System.forall_phase_goto (P := fun j phase => phase.committed = (s.phase j).committed) h
    (fun _ _ => rfl) j

/-- A step that moves no deadline and commits no redemption. -/
theorem Extending.goto (hs : Extending db₀ nodeId clientKey now reqs codes key s)
    {lock : Option Bool} (hHolds : HoldsLock (s.goto i next db lock))
    (hConfigs : db.configs = s.db.configs) (hCodes : db.codes = s.db.codes)
    (hKeys : db.policies.keys = s.db.policies.keys)
    (hDeadline : deadlineAt db key = deadlineAt s.db key)
    (hCommitted : next.committed = (s.phase i).committed)
    (hCourse : OnCourse (clientConfigNameAndProtocols db₀ nodeId clientKey) (codes i) next)
    (hSession : ∀ claim, next.claim? = some claim →
      SessionOk s.db key (deadlineAt db₀ key) claim) :
    Extending db₀ nodeId clientKey now reqs codes key (s.goto i next db lock) where
  holdsLock := hHolds
  lookup := by
    rw [← hs.lookup]
    exact lookup_append hConfigs (by rw [System.goto_db, hKeys, List.append_nil]) (by simp)
  stored := by
    rw [System.goto_db, hCodes]
    exact hs.stored
  course := System.forall_phase_goto (P := fun j => OnCourse _ (codes j)) hCourse
    fun j _ => hs.course j
  session := by
    intro j claim hClaim
    have hOld : SessionOk s.db key (deadlineAt db₀ key) claim :=
      System.forall_phase_goto (P := fun _ phase => ∀ claim, phase.claim? = some claim →
        SessionOk s.db key (deadlineAt db₀ key) claim) hSession (fun j _ => hs.session j)
        j claim hClaim
    exact hOld.mono (fun k hk => hKeys ▸ hk) (.inl hDeadline.symm)
  deadline := by
    intro j hj
    rw [committed_goto hCommitted] at hj ⊢
    rw [System.goto_db, hDeadline]
    exact hs.deadline j hj

theorem ReadStep.committed_eq {phase : Phase}
    (h : ReadStep (.redeem req) db phase next) : next.committed = phase.committed := by
  cases h with
  | raise e hUndone hPhase =>
    rw [hPhase]
    cases e <;> first | rfl | contradiction
  | revoked codeText now hCall | unrevoked codeText now hCall => simp at hCall
  | _ => rfl

/-- What a call reads keeps it on course. -/
theorem Extending.read (hTwo : TwoExtensions db₀ nodeId clientKey now reqs codes)
    (hs : Extending db₀ nodeId clientKey now reqs codes key s)
    (h : ReadStep (.redeem (reqs i)) s.db (s.phase i) next) :
    OnCourse (clientConfigNameAndProtocols db₀ nodeId clientKey) (codes i) next ∧
      ∀ claim, next.claim? = some claim → SessionOk s.db key (deadlineAt db₀ key) claim := by
  have hCourse := hs.course i
  have hSession := hs.session i
  generalize s.phase i = phase at h hCourse hSession
  cases h with
  | raise e hUndone hPhase => exact ⟨trivial, nofun⟩
  | code req code hCall hCode =>
    obtain rfl := CodeCall.redeem.inj hCall
    obtain ⟨stored, hStored, hTerms⟩ := hs.stored i
    obtain rfl := Option.mem_unique hStored (checkCode_ok hCode)
    exact ⟨hTerms, nofun⟩
  | configs req code hCall =>
    obtain rfl := CodeCall.redeem.inj hCall
    refine ⟨⟨hCourse, ?_⟩, nofun⟩
    rw [hTwo.node, hTwo.client]
    exact hs.lookup
  | user req code canonicalName ps user hCall hUser => exact ⟨hCourse, nofun⟩
  | duplicate req code canonicalName ps applied user hCall hApplied =>
    obtain ⟨hTerms, hLookup⟩ := hCourse
    refine ⟨⟨hTerms, congrArg Prod.fst hLookup, ?_⟩, ?_⟩
    · rw [checkDuplicate_ok hApplied, hTerms.protocolsApplied, ← hLookup]
    · intro claim hClaim
      cases hClaim
      exact SessionOk.empty _ _ _ rfl
  | load req claim p rest hCall =>
    refine ⟨⟨hCourse.terms, hCourse.canonicalName, hCourse.applied⟩, ?_⟩
    intro claim' hClaim
    cases hClaim
    exact (hSession claim rfl).load _
  | reconciled req hCall | readFailed req hCall => exact ⟨trivial, nofun⟩
  | revoked codeText now hCall | unrevoked codeText now hCall => simp at hCall

/-- What the session sees of the deadline: the one from before both calls or the
committed one. -/
theorem SessionOk.view (h : SessionOk db key before claim) :
    accessUntilOf (claim.session.view db.policies key) = before ∨
      accessUntilOf (claim.session.view db.policies key) = deadlineAt db key := by
  unfold Session.view
  cases hObj : claim.session.objects.row? key with
  | none => exact .inr rfl
  | some o => exact h.sees o hObj

theorem upToDate_iff : UpToDate key db claim ↔
      accessUntilOf (claim.session.view db.policies key) = deadlineAt db key := by
  unfold UpToDate Session.view
  cases hObj : claim.session.objects.row? key with
  | none => simp [deadlineAt]
  | some o =>
    constructor
    · exact fun h => h o rfl
    · rintro h _ ⟨⟩
      exact h

theorem protocolsApplied_subset (code : UnlockCode) (ps : List Protocol) :
    ∀ p ∈ protocolsApplied code ps, p ∈ ps := by
  intro p hp
  unfold protocolsApplied at hp
  split at hp
  · simpa using (List.mem_filter.mp hp).2
  · simpa using (List.mem_filter.mp hp).2

/-! ## Adding up -/

/-- Both extensions, from the deadline `before` both calls. -/
def bothGrants (before : Option Time) (now : Time) (codes : Bool → UnlockCode) : Time :=
  max now (before.getD now) + timedeltaDays (codes false).grantDays +
    timedeltaDays (codes true).grantDays

theorem bothGrants_eq (before : Option Time) (now : Time) (codes : Bool → UnlockCode) (i : Bool) :
    bothGrants before now codes =
      grantedUntil before now (codes (!i)).grantDays + timedeltaDays (codes i).grantDays := by
  cases i with
  | false => exact Int.add_right_comm _ _ _
  | true => rfl

/-- The second extension on top of the first. -/
theorem grantedUntil_grantedUntil (before : Option Time) (now : Time) (codes : Bool → UnlockCode)
    (i : Bool) :
    grantedUntil (some (grantedUntil before now (codes (!i)).grantDays)) now (codes i).grantDays =
      bothGrants before now codes := by
  have hPos := timedeltaDays_pos (codes (!i)).grantDays_pos
  have hLater : now ≤ grantedUntil before now (codes (!i)).grantDays :=
    Int.le_of_lt (Int.lt_add_of_le_of_pos (le_max_left now _) hPos)
  rw [bothGrants_eq before now codes i]
  show max now _ + _ = _
  rw [Option.getD_some, max_eq_right hLater]

/-- An extension of the old deadline loses the other one. -/
theorem grantedUntil_ne_bothGrants (before : Option Time) (now : Time) (codes : Bool → UnlockCode)
    (i : Bool) : grantedUntil before now (codes i).grantDays ≠ bothGrants before now codes := by
  rw [bothGrants_eq before now codes (!i), Bool.not_not]
  have hPos := timedeltaDays_pos (codes (!i)).grantDays_pos
  exact ne_of_lt (Int.lt_add_of_le_of_pos (Int.le_refl _) hPos)

/-- The calls that hold the lock are up to date, and the deadline of two committed
calls is both extensions. -/
structure AddsUp (before : Option Time) (now : Time) (codes : Bool → UnlockCode)
    (key : PolicyKey) (s : System Bool) : Prop where
  reserved : ∀ i claim, s.phase i = .reserved claim → UpToDate key s.db claim
  total : (∀ i, (s.phase i).committed = true) →
    deadlineAt s.db key = some (bothGrants before now codes)

/-- A step between other phases, to the same deadline. -/
theorem addsUp_goto_iff {lock : Option Bool} (hBefore : ∀ claim, s.phase i ≠ .reserved claim)
    (hAfter : ∀ claim, next ≠ .reserved claim) (hCommitted : next.committed = (s.phase i).committed)
    (hDeadline : deadlineAt db key = deadlineAt s.db key) :
    AddsUp before now codes key (s.goto i next db lock) ↔ AddsUp before now codes key s := by
  have hPhase : ∀ j claim, (s.goto i next db lock).phase j = .reserved claim ↔
      s.phase j = .reserved claim := by
    intro j claim
    by_cases hj : j = i
    · subst hj
      rw [System.goto_phase_self]
      exact iff_of_false (hAfter claim) (hBefore claim)
    · rw [System.goto_phase_of_ne _ _ _ _ hj]
  have hUp : ∀ claim, UpToDate key db claim ↔ UpToDate key s.db claim := by
    intro claim
    unfold UpToDate
    rw [hDeadline]
  constructor
  · intro h
    refine ⟨fun j claim hj => (hUp claim).mp (h.reserved j claim ((hPhase j claim).mpr hj)), ?_⟩
    intro hAll
    rw [← hDeadline]
    exact h.total fun j => by rw [committed_goto hCommitted, hAll]
  · intro h
    refine ⟨fun j claim hj => (hUp claim).mpr (h.reserved j claim ((hPhase j claim).mp hj)), ?_⟩
    intro hAll
    rw [System.goto_db, hDeadline]
    exact h.total fun j => by rw [← committed_goto hCommitted, hAll]

theorem not_all_committed (h : (s.phase i).committed = false) {P : Prop} :
    (∀ j, (s.phase j).committed = true) → P := by
  intro hAll
  rw [hAll i] at h
  simp at h

/-- While one call runs and no other has the lock, its session alone decides. -/
theorem addsUp_iff_of_only (hRun : (s.phase i).committed = false)
    (hOnly : ∀ j claim, j ≠ i → s.phase j ≠ .reserved claim) :
    AddsUp before now codes key s ↔
      ∀ claim, s.phase i = .reserved claim → UpToDate key s.db claim := by
  constructor
  · exact fun h claim hPhase => h.reserved i claim hPhase
  · intro h
    refine ⟨?_, not_all_committed hRun⟩
    intro j claim hj
    by_cases hji : j = i
    · subst hji
      exact h claim hj
    · exact absurd hj (hOnly j claim hji)

/-- After its commit the lock is free, and the deadline counts once the other call has
committed too. -/
theorem addsUp_released_iff (hOnly : ∀ j claim, j ≠ i → s.phase j ≠ .reserved claim) :
    AddsUp before now codes key (s.goto i (.reconciling keys) db none) ↔
      ((s.phase (!i)).committed = true →
        deadlineAt db key = some (bothGrants before now codes)) := by
  have hOther : (s.goto i (.reconciling keys) db none).phase (!i) = s.phase (!i) :=
    System.goto_phase_of_ne _ _ _ _ (by simp)
  constructor
  · intro h hCommitted
    refine h.total fun j => ?_
    by_cases hj : j = i
    · subst hj
      rw [System.goto_phase_self]
      rfl
    · rw [Bool.eq_not_of_ne hj, hOther, hCommitted]
  · intro h
    refine ⟨?_, fun hAll => h (by rw [← hOther, hAll])⟩
    intro j claim hj
    by_cases hji : j = i
    · subst hji
      rw [System.goto_phase_self] at hj
      simp at hj
    · rw [System.goto_phase_of_ne _ _ _ _ hji] at hj
      exact absurd hj (hOnly j claim hji)

/-! ## Steps -/

section

variable (hTwo : TwoExtensions db₀ nodeId clientKey now reqs codes)
  (hs : Extending db₀ nodeId clientKey now reqs codes key s)
  (hKey : key = profileKey nodeId (clientConfigNameAndProtocols db₀ nodeId clientKey).1 p)
  (hCovered : ∀ i, p ∈ protocolsApplied (codes i)
    (clientConfigNameAndProtocols db₀ nodeId clientKey).2)

include hTwo hs hKey hCovered

/-- The deadline that a commit leaves: what the session sees, moved. -/
theorem Extending.commit (hPhase : s.phase i = .reserved claim)
    (hCommit : grantAndCommit s.db (reqs i) claim = .ok db) :
    deadlineAt db key = some (grantedUntil (accessUntilOf (claim.session.view s.db.policies key))
      now (codes i).grantDays) := by
  have hCourse := hs.course i
  rw [hPhase] at hCourse
  have hSession := hs.session i claim (by rw [hPhase]; rfl)
  have hName : profileKey (reqs i).nodeId claim.canonicalName p = key := by
    rw [hKey, hCourse.canonicalName, hTwo.node]
  have hFree : claim.code.allowedClientNames = [] := by
    rw [hCourse.terms.allowedClientNames, hTwo.unrestricted]
  have hNodup : claim.applied.Nodup := by
    rw [hCourse.applied]
    exact protocolsApplied_nodup _ _
  have hDeadline := commit_deadline (hTwo.user i) hFree hNodup (hCourse.applied ▸ hCovered i)
    (by rw [hName]; exact hSession.untouched) hCommit
  rwa [hName, hTwo.time, hCourse.terms.grantDays] at hDeadline

/-- The step that commits a redemption. -/
theorem Extending.committed (hPhase : s.phase i = .reserved claim)
    (hCommit : grantAndCommit s.db (reqs i) claim = .ok db)
    (hHolds : HoldsLock (s.goto i (.reconciling keys) db none)) :
    Extending db₀ nodeId clientKey now reqs codes key (s.goto i (.reconciling keys) db none) := by
  have hCourse := hs.course i
  have hDeadline := hs.commit hTwo hKey hCovered hPhase hCommit
  have hSession := hs.session i claim (by rw [hPhase]; rfl)
  have hRun : (s.phase i).committed = false := by rw [hPhase]; rfl
  rw [hPhase] at hCourse
  have hApplied : ∀ q ∈ claim.applied,
      q ∈ (clientConfigNameAndProtocols s.db (reqs i).nodeId clientKey).2 := by
    rw [hCourse.applied, hTwo.node, hs.lookup]
    exact protocolsApplied_subset _ _
  -- the commit adds rows and takes none away
  obtain ⟨added, hKeys, -⟩ := commit_keys (hTwo.user i) hSession.rows hCommit
  obtain ⟨-, hCodes, -⟩ := grantAndCommit_ok hCommit
  refine ⟨hHolds, ?_, ?_, ?_, ?_, ?_⟩
  · have hLookup := lookup_commit (hTwo.user i) hSession.rows hApplied hCommit
    rw [hTwo.node] at hLookup
    exact hLookup.trans hs.lookup
  · intro j
    obtain ⟨code, hStored, hTerms⟩ := hs.stored j
    rw [System.goto_db, hCodes, row?_countRedemption, hStored]
    split
    · exact ⟨_, rfl, hTerms.grantDays, hTerms.protocols, hTerms.allowedClientNames⟩
    · exact ⟨code, rfl, hTerms⟩
  · exact System.forall_phase_goto (P := fun j => OnCourse _ (codes j)) trivial
      fun j _ => hs.course j
  · intro j claim' hClaim
    by_cases hj : j = i
    · subst hj
      rw [System.goto_phase_self] at hClaim
      cases hClaim
    rw [System.goto_phase_of_ne _ _ _ _ hj] at hClaim
    refine (hs.session j claim' hClaim).mono ?_ (.inr ?_)
    · intro k hk
      rw [System.goto_db, hKeys]
      exact List.mem_append_left added hk
    · -- neither call had committed
      have hOther : (s.phase j).committed = false := by
        cases hPhaseJ : s.phase j <;> rw [hPhaseJ] at hClaim <;> first | rfl | cases hClaim
      obtain rfl : i = !j := Bool.eq_not_of_ne (Ne.symm hj)
      rw [hs.deadline j hRun, hOther]
      rfl
  · intro j hj
    -- this call, of which the deadline is now its own
    obtain rfl : j = i := by
      by_contra hne
      obtain rfl : i = !j := Bool.eq_not_of_ne (Ne.symm hne)
      rw [System.goto_phase_self] at hj
      cases hj
    rw [System.goto_phase_of_ne _ _ _ _ (by simp)] at hj
    rw [System.goto_phase_self, System.goto_db, hDeadline]
    have hBefore : deadlineAt s.db key = deadlineAt db₀ key := by
      rw [hs.deadline j hj, hRun]
      rfl
    have hView := hSession.view
    rw [hBefore, or_self] at hView
    rw [hView]
    rfl

/-- **One step** of two redemptions on the way. -/
theorem extending_step (hNone : ∀ i e, s'.phase i ≠ .raised e)
    (h : sysStep (redeemBoth reqs) s a = some s') :
    Extending db₀ nodeId clientKey now reqs codes key s' := by
  have hHolds := holdsLock_step hs.holdsLock h
  obtain ⟨next, -, hRead, rfl⟩ | ⟨claim, -, hPhase, -, rfl⟩ |
    ⟨claim, db, next, -, hPhase, -, hCommit, rfl, rfl⟩ |
    ⟨k, keys, db, -, hPhase, rfl, rfl⟩ := redeemBoth_cases hNone h
  · obtain ⟨hCourse, hSession⟩ := hs.read hTwo hRead
    exact hs.goto hHolds rfl rfl rfl rfl hRead.committed_eq hCourse hSession
  · have hCourse := hs.course a.proc
    rw [hPhase] at hCourse
    refine hs.goto hHolds rfl rfl rfl rfl (by rw [hPhase]; rfl) hCourse ?_
    intro claim' hClaim
    exact hs.session a.proc claim' (by rw [hPhase]; exact hClaim)
  · exact hs.committed hTwo hKey hCovered hPhase hCommit hHolds
  · refine hs.goto hHolds rfl rfl (keys_reconcileEnding _ _ _ _)
      (deadlineAt_reconcileEnding _ _ _ _ _) (by rw [hPhase]; rfl) trivial ?_
    intro claim hClaim
    cases hClaim

/-- The second commit adds up exactly when its call was up to date. -/
theorem addsUp_committed_iff (hPhase : s.phase i = .reserved claim)
    (hCommit : grantAndCommit s.db (reqs i) claim = .ok db) :
    AddsUp (deadlineAt db₀ key) now codes key (s.goto i (.reconciling keys) db none) ↔
      AddsUp (deadlineAt db₀ key) now codes key s := by
  have hRun : (s.phase i).committed = false := by rw [hPhase]; rfl
  have hOnly : ∀ j claim', j ≠ i → s.phase j ≠ .reserved claim' := fun j claim' hj =>
    hs.holdsLock.not_reserved (.inr (hs.holdsLock i claim hPhase)) hj claim'
  have hBefore : AddsUp (deadlineAt db₀ key) now codes key s ↔ UpToDate key s.db claim := by
    rw [addsUp_iff_of_only hRun hOnly, hPhase]
    constructor
    · exact fun h => h claim rfl
    · rintro h _ ⟨⟩
      exact h
  have hNew := hs.commit hTwo hKey hCovered hPhase hCommit
  have hSession := hs.session i claim (by rw [hPhase]; rfl)
  rw [addsUp_released_iff hOnly, hBefore, upToDate_iff]
  cases hOther : (s.phase (!i)).committed with
  | false =>
    have hStored : deadlineAt s.db key = deadlineAt db₀ key := by
      rw [hs.deadline i hOther, hRun]
      rfl
    have hView := hSession.view
    rw [hStored, or_self] at hView
    rw [hStored]
    exact iff_of_true nofun hView
  | true =>
    have hStored : deadlineAt s.db key =
        some (grantedUntil (deadlineAt db₀ key) now (codes (!i)).grantDays) := by
      rw [hs.deadline (!i) (by rwa [Bool.not_not]), hOther]
      rfl
    rw [hNew]
    constructor
    · intro hTotal
      rcases hSession.view with hOld | hCurrent
      · rw [hOld] at hTotal
        exact absurd (Option.some.inj (hTotal rfl)) (grantedUntil_ne_bothGrants _ _ _ _)
      · exact hCurrent
    · intro hCurrent _
      rw [hCurrent, hStored, grantedUntil_grantedUntil]

/-- **One step** adds up if its reservation reads what is committed. -/
theorem addsUp_step_iff (hNone : ∀ i e, s'.phase i ≠ .raised e)
    (h : sysStep (redeemBoth reqs) s a = some s') :
    AddsUp (deadlineAt db₀ key) now codes key s' ↔
      AddsUp (deadlineAt db₀ key) now codes key s ∧ ReservesUpToDate reqs key s a := by
  obtain ⟨next, hMove, hRead, rfl⟩ | ⟨claim, hMove, hPhase, hLock, rfl⟩ |
    ⟨claim, db, next, hMove, hPhase, -, hCommit, rfl, rfl⟩ |
    ⟨k, keys, db, hMove, hPhase, rfl, rfl⟩ := redeemBoth_cases hNone h
  · -- a step that only reads reserves nothing
    have hOther : ReservesUpToDate reqs key s a := fun claim hTake => by
      rw [hMove] at hTake
      simp at hTake
    have hNext : ∀ e, next ≠ .raised e := by
      intro e
      have hRaised := hNone a.proc e
      rwa [System.goto_phase_self] at hRaised
    rw [and_iff_left hOther]
    refine addsUp_goto_iff ?_ hRead.not_reserved hRead.committed_eq rfl
    intro claim hPhase
    rw [hPhase] at hRead
    cases hRead with
    | raise e => exact hNext e rfl
  · have hStep : ReservesUpToDate reqs key s a ↔ UpToDate key s.db claim := by
      constructor
      · exact fun hAll => hAll claim hMove
      · intro hUp claim' hTake
        rw [hMove] at hTake
        cases hTake
        exact hUp
    -- who holds the lock is alone behind it
    have hOnly : ∀ j claim', j ≠ a.proc → s.phase j ≠ .reserved claim' := fun j claim' hj =>
      hs.holdsLock.not_reserved (.inl hLock) hj claim'
    have hBefore : AddsUp (deadlineAt db₀ key) now codes key s := by
      rw [addsUp_iff_of_only (by rw [hPhase]; rfl) hOnly, hPhase]
      rintro _ ⟨⟩
    have hAfter : ∀ j claim', j ≠ a.proc →
        (s.goto a.proc (.reserved claim) s.db (some a.proc)).phase j ≠ .reserved claim' := by
      intro j claim' hj
      rw [System.goto_phase_of_ne _ _ _ _ hj]
      exact hOnly j claim' hj
    rw [hStep, and_iff_right hBefore,
      addsUp_iff_of_only (by rw [System.goto_phase_self]; rfl) hAfter, System.goto_phase_self]
    constructor
    · exact fun hAll => hAll claim rfl
    · rintro hUp _ ⟨⟩
      exact hUp
  · have hOther : ReservesUpToDate reqs key s a := fun claim hTake => by
      rw [hMove] at hTake
      simp at hTake
    rw [and_iff_left hOther]
    exact addsUp_committed_iff hTwo hs hKey hCovered hPhase hCommit
  · have hOther : ReservesUpToDate reqs key s a := fun claim hTake => by
      rw [hMove] at hTake
      simp at hTake
    rw [and_iff_left hOther]
    exact addsUp_goto_iff (by simp [hPhase]) (by simp) (by rw [hPhase]; rfl)
      (deadlineAt_reconcileEnding _ _ _ _ _)

end

/-! ## Both calls return -/

theorem callMove_raised (call : CodeCall) (db : Db) (r : Reading) (outcome : Outcome)
    (e : CallError) : callMove call db r outcome (.raised e) = .finished := by
  unfold callMove
  split
  · rfl
  · cases call <;> rfl

theorem raised_stays {e : CallError} (hRaised : s.phase i = .raised e)
    (h : sysStep (redeemBoth reqs) s a = some s') : s'.phase i = .raised e := by
  have hOther : i ≠ a.proc := by
    rintro rfl
    unfold sysStep System.move at h
    rw [hRaised, callMove_raised] at h
    simp at h
  obtain ⟨next, -, rfl⟩ | ⟨next, -, -, rfl⟩ | ⟨db, next, -, -, rfl⟩ | ⟨db, next, -, -, rfl⟩ :=
    sysStep_cases h <;> rwa [System.goto_phase_of_ne _ _ _ _ hOther]

/-- **When two extensions add up.** Two client-portal redemptions at once, of
different unrestricted codes, for one client: once both have returned, a protocol
that both codes cover has the days of both exactly when each call, as it reserved,
had the committed deadline of that protocol in its session. -/
theorem extensions_add_up_iff (hTwo : TwoExtensions db₀ nodeId clientKey now reqs codes)
    (hCovered : ∀ i, p ∈ protocolsApplied (codes i)
      (clientConfigNameAndProtocols db₀ nodeId clientKey).2)
    {as : List (Act Bool)}
    (hExec : exec (sysStep (redeemBoth reqs)) (System.start Bool db₀) as = some s)
    (hReturned : ∀ i, s.phase i = .returned) :
    deadlineAt s.db (profileKey nodeId (clientConfigNameAndProtocols db₀ nodeId clientKey).1 p) =
        some (bothGrants (deadlineAt db₀
          (profileKey nodeId (clientConfigNameAndProtocols db₀ nodeId clientKey).1 p)) now codes) ↔
      Along (sysStep (redeemBoth reqs)) (ReservesUpToDate reqs
          (profileKey nodeId (clientConfigNameAndProtocols db₀ nodeId clientKey).1 p))
        (System.start Bool db₀) as := by
  generalize hKey :
    profileKey nodeId (clientConfigNameAndProtocols db₀ nodeId clientKey).1 p = key
  have hBack : ∀ (s : System Bool) a s', sysStep (redeemBoth reqs) s a = some s' →
      (fun s : System Bool => ∀ i e, s.phase i ≠ .raised e) s' →
      (fun s : System Bool => ∀ i e, s.phase i ≠ .raised e) s :=
    fun _ _ _ hStep hAfter i e hRaised => hAfter i e (raised_stays hRaised hStep)
  -- both calls return, so neither raised on the way
  have hNone := (Lib.along_of_final hBack hExec fun i e hRaised => by
    rw [hReturned i] at hRaised
    cases hRaised).2
  have hStep : ∀ (s : System Bool) a s',
      Extending db₀ nodeId clientKey now reqs codes key s →
      (∀ s', sysStep (redeemBoth reqs) s a = some s' → ∀ i e, s'.phase i ≠ .raised e) →
      sysStep (redeemBoth reqs) s a = some s' →
      Extending db₀ nodeId clientKey now reqs codes key s' ∧
        (AddsUp (deadlineAt db₀ key) now codes key s' ↔
          AddsUp (deadlineAt db₀ key) now codes key s ∧ ReservesUpToDate reqs key s a) :=
    fun s a s' hs hNone hStep =>
      ⟨extending_step hTwo hs hKey.symm hCovered (hNone s' hStep) hStep,
        addsUp_step_iff hTwo hs hKey.symm hCovered (hNone s' hStep) hStep⟩
  have hStart : AddsUp (deadlineAt db₀ key) now codes key (System.start Bool db₀) :=
    ⟨fun _ _ hReserved => Phase.noConfusion hReserved, not_all_committed (i := true) rfl⟩
  rw [← and_iff_right hStart (b := Along _ _ _ as), ← Lib.along_iff_of_step hStep
    (Extending.start hTwo key) hNone hExec]
  constructor
  · intro hTotal
    refine ⟨?_, fun _ => hTotal⟩
    intro i claim hReserved
    rw [hReturned i] at hReserved
    simp at hReserved
  · intro hAddsUp
    exact hAddsUp.total fun i => by rw [hReturned i]; rfl

end

/-- A code for two days of WireGuard. -/
def secondCode : UnlockCode :=
  { portalCode .wireguard with grantDays := 2, grantDays_pos := by decide }

def extensionDb : Db :=
  { portalDb .wireguard {} with
    codes := (portalDb .wireguard {}).codes.set "UNLOCK-2" secondCode }

def extensionCodes : Bool → UnlockCode
  | false => portalCode .wireguard
  | true => secondCode

def extensionReqs : Bool → RedeemRequest
  | false => portalRequest 0
  | true => { portalRequest 0 with code := "UNLOCK-2" }

theorem extensionDb_two : TwoExtensions extensionDb 0 "client" 0 extensionReqs extensionCodes where
  user := fun i => by cases i <;> rfl
  node := fun i => by cases i <;> rfl
  client := by decide
  time := fun i => by cases i <;> rfl
  stored := by
    have hFirst : (extensionReqs false).codeText = "UNLOCK-1" := by decide
    have hSecond : (extensionReqs true).codeText = "UNLOCK-2" := by decide
    intro i
    cases i with
    | false => rw [hFirst]; rfl
    | true => rw [hSecond]; rfl
  unrestricted := fun i => by cases i <;> rfl
  different := by decide

/-- The second call starts with the first, and loads its rows when the first has
committed. -/
def loadsAfter : List (Act Bool) :=
  List.replicate 4 (turn true) ++ List.replicate 9 (turn false) ++ List.replicate 7 (turn true) ++
    List.replicate 2 (turn false)

/-- Both calls load their rows before either reserves. -/
def loadsBefore : List (Act Bool) :=
  List.replicate 7 (turn true) ++ List.replicate 11 (turn false) ++ List.replicate 4 (turn true)

def Phase.isReturned : Phase → Bool
  | .returned => true
  | _ => false

theorem isReturned_eq {phase : Phase} (h : phase.isReturned = true) : phase = .returned := by
  cases phase <;> first | rfl | cases h

/-- The deadline after a run in which both calls return. -/
def finalDeadline (as : List (Act Bool)) : Option (Bool × Bool × Option Time) :=
  (exec (sysStep (redeemBoth extensionReqs)) (System.start Bool extensionDb) as).map fun s =>
    ((s.phase false).isReturned, (s.phase true).isReturned,
      deadlineAt s.db (profileKey 0
        (clientConfigNameAndProtocols extensionDb 0 "client").1 .wireguard))

theorem finalDeadline_some {as : List (Act Bool)} {deadline : Option Time}
    (h : finalDeadline as = some (true, true, deadline)) :
    ∃ s, exec (sysStep (redeemBoth extensionReqs)) (System.start Bool extensionDb) as = some s ∧
      (∀ i, s.phase i = .returned) ∧
      deadlineAt s.db (profileKey 0
        (clientConfigNameAndProtocols extensionDb 0 "client").1 .wireguard) = deadline := by
  obtain ⟨s, hExec, hEnd⟩ := Option.map_eq_some_iff.mp h
  obtain ⟨hFirst, hSecond, hDeadline⟩ : _ ∧ _ ∧ _ := by simpa only [Prod.mk.injEq] using hEnd
  refine ⟨s, hExec, fun i => ?_, hDeadline⟩
  cases i with
  | false => exact isReturned_eq hFirst
  | true => exact isReturned_eq hSecond

theorem loads_after_add_up :
    Along (sysStep (redeemBoth extensionReqs)) (ReservesUpToDate extensionReqs (profileKey 0
        (clientConfigNameAndProtocols extensionDb 0 "client").1 .wireguard))
      (System.start Bool extensionDb) loadsAfter := by
  have hEnd : finalDeadline loadsAfter = some (true, true, some (timedeltaDays 3)) := by
    decide
  obtain ⟨s, hExec, hReturned, hDeadline⟩ := finalDeadline_some hEnd
  refine (extensions_add_up_iff extensionDb_two (by decide) hExec hReturned).mp ?_
  rw [hDeadline]
  decide

/-- A paid day is lost: the second call extends the deadline it loaded. -/
theorem loads_before_lose :
    ∃ s, exec (sysStep (redeemBoth extensionReqs)) (System.start Bool extensionDb) loadsBefore =
        some s ∧
      (∀ i, s.phase i = .returned) ∧
      deadlineAt s.db (profileKey 0
        (clientConfigNameAndProtocols extensionDb 0 "client").1 .wireguard) ≠
        some (bothGrants (deadlineAt extensionDb (profileKey 0
          (clientConfigNameAndProtocols extensionDb 0 "client").1 .wireguard)) 0
          extensionCodes) := by
  have hEnd : finalDeadline loadsBefore = some (true, true, some (timedeltaDays 2)) := by
    decide
  obtain ⟨s, hExec, hReturned, hDeadline⟩ := finalDeadline_some hEnd
  refine ⟨s, hExec, hReturned, ?_⟩
  rw [hDeadline]
  decide

end AdminPanel.Unlock
