import AdminPanel.Unlock.Concurrent
import AdminPanel.Unlock.ManualBan

/-!
# Accounting of unlock codes under concurrency

Any number of redemptions and revocations, interleaved at their database steps.

* `Accounted` — every code counts its redemptions, within its limit, and nobody
  has redeemed a code twice;
* `sound_step` — every step keeps it: a reserving call holds the lock, and with
  it a free slot of an unrevoked code;
* `undone_erased` — a call that raised before its commit can be left out of the
  run: the database is the same without it;
* `accounting_exact` — the accounting of a run in which no client-portal
  redemption fails at its reconcile. Such a redemption is committed and raises
  (`reconcile_failure_counted`).
-/

namespace AdminPanel.Unlock

open Lib (Table Session exec Along)
open List Access Panel

def redemptionsOf (db : Db) (codeText : String) : List UnlockCodeRedemption :=
  db.redemptions.filter fun r => r.code = codeText

structure Accounted (db : Db) : Prop where
  count : ∀ c code, db.codes.row? c = some code →
    code.redemptionCount = (redemptionsOf db c).length
  limit : ∀ c code, db.codes.row? c = some code → code.redemptionCount ≤ code.maxRedemptions
  once : db.redemptions.Pairwise fun a b => sameRedeemer a b = false

def Revoked (db : Db) (codeText : String) : Prop :=
  ∃ code, db.codes.row? codeText = some code ∧ code.revokedAt.isSome = true

theorem sameRedeemer_comm (a b : UnlockCodeRedemption) : sameRedeemer a b = sameRedeemer b a := by
  rw [Bool.eq_iff_iff]
  simp only [sameRedeemer, Bool.and_eq_true, Bool.or_eq_true, decide_eq_true_eq]
  constructor <;>
    rintro ⟨⟨hCode, hUser⟩, hName⟩ <;>
    exact ⟨⟨hCode.symm, hUser.symm⟩, hName.imp (fun h => hUser ▸ h) fun h => ⟨h.1.symm, h.2.symm⟩⟩

variable {db : Db} {req : RedeemRequest}

theorem alreadyRedeemed_false (h : alreadyRedeemed db req = false) :
    ∀ r ∈ db.redemptions, sameRedeemer r req.redemption = false := by
  intro r hr
  unfold alreadyRedeemed at h
  rw [any_eq_false] at h
  rw [sameRedeemer_comm]
  exact Bool.not_eq_true _ ▸ h r hr

/-! ## What commits do to the accounts -/

/-- A commit counts the code once, below its limit. -/
theorem Accounted.commit {db' : Db} {claim : Claim}
    {stored : UnlockCode} (hDb : Accounted db) (hStored : db.codes.row? req.codeText = some stored)
    (hFree : reservable stored req.now = true) (h : grantAndCommit db req claim = .ok db') :
    Accounted db' := by
  obtain ⟨hNew, hCodes, hRedemptions⟩ := grantAndCommit_ok h
  have hRow : ∀ c code, db'.codes.row? c = some code → c = req.codeText →
      code = { stored with redemptionCount := stored.redemptionCount + 1 } := by
    rintro c code hCode rfl
    rw [hCodes, row?_countRedemption, if_pos rfl, hStored] at hCode
    exact (Option.some.inj hCode).symm
  have hOther : ∀ c code, db'.codes.row? c = some code → c ≠ req.codeText →
      db.codes.row? c = some code := by
    intro c code hCode hc
    rwa [hCodes, row?_countRedemption, if_neg hc] at hCode
  refine ⟨?_, ?_, ?_⟩
  · intro c code hCode
    by_cases hc : c = req.codeText
    · rw [hRow c code hCode hc, redemptionsOf, hRedemptions, filter_append,
        length_append]
      have hCount := hDb.count req.codeText stored hStored
      simp only [hc, hCount, redemptionsOf, RedeemRequest.redemption, decide_true,
        filter_cons_of_pos, filter_nil, length_singleton]
    · have hCount := hDb.count c code (hOther c code hCode hc)
      rw [hCount, redemptionsOf, redemptionsOf, hRedemptions, filter_append,
        length_append]
      have hNone : ([req.redemption].filter fun r => r.code = c) = [] := by
        simp [RedeemRequest.redemption, Ne.symm hc]
      rw [hNone, length_nil, Nat.add_zero]
  · intro c code hCode
    by_cases hc : c = req.codeText
    · have hSlot : stored.redemptionCount < stored.maxRedemptions := by
        simp only [reservable, Bool.and_eq_true, decide_eq_true_eq] at hFree
        exact hFree.1.2
      rw [hRow c code hCode hc]
      exact hSlot
    · exact hDb.limit c code (hOther c code hCode hc)
  · rw [hRedemptions, pairwise_append]
    refine ⟨hDb.once, pairwise_singleton _ _, ?_⟩
    intro a ha b hb
    rw [mem_singleton.mp hb]
    exact alreadyRedeemed_false hNew a ha

theorem Accounted.policies (hDb : Accounted db) (policies : Table PolicyKey PolicyRow) :
    Accounted { db with policies := policies } :=
  ⟨hDb.count, hDb.limit, hDb.once⟩

theorem Accounted.revoke (hDb : Accounted db) {codeText : String} {code : UnlockCode}
    (hCode : db.codes.row? codeText = some code) (now : Time) :
    Accounted { db with codes := db.codes.set codeText { code with revokedAt := some now } } := by
  refine ⟨?_, ?_, hDb.once⟩
  · intro c code' hCode'
    simp only [Table.row?_set] at hCode'
    split at hCode'
    · next hc =>
      subst hc
      cases hCode'
      exact hDb.count c code hCode
    · exact hDb.count c code' hCode'
  · intro c code' hCode'
    simp only [Table.row?_set] at hCode'
    split at hCode'
    · next hc =>
      subst hc
      cases hCode'
      exact hDb.limit c code hCode
    · exact hDb.limit c code' hCode'

variable {c : String}

theorem Revoked.commit {db' : Db} {claim : Claim}
    (hRevoked : Revoked db c) (h : grantAndCommit db req claim = .ok db') : Revoked db' c := by
  obtain ⟨code, hCode, hAt⟩ := hRevoked
  obtain ⟨-, hCodes, -⟩ := grantAndCommit_ok h
  unfold Revoked
  rw [hCodes, row?_countRedemption, hCode]
  split
  · exact ⟨_, rfl, hAt⟩
  · exact ⟨code, rfl, hAt⟩

theorem Revoked.revoke (hRevoked : Revoked db c) (codeText : String)
    (code : UnlockCode) (now : Time) :
    Revoked { db with codes := db.codes.set codeText { code with revokedAt := some now } } c := by
  obtain ⟨old, hOld, hAt⟩ := hRevoked
  unfold Revoked
  simp only [Table.row?_set]
  split
  · exact ⟨_, rfl, rfl⟩
  · exact ⟨old, hOld, hAt⟩

/-- The `UPDATE` that reserves does not match a revoked code. -/
theorem Revoked.not_reservable (hRevoked : Revoked db c)
    {stored : UnlockCode} (hStored : db.codes.row? c = some stored) (now : Time) :
    reservable stored now = false := by
  obtain ⟨code, hCode, hAt⟩ := hRevoked
  obtain rfl := Option.mem_unique hCode hStored
  simp [reservable, Option.isSome_iff_ne_none.mp hAt]

/-! ## The invariant of the system -/

variable {ι : Type} [DecidableEq ι] {calls : ι → CodeCall} {s s' t : System ι} {a : Act ι}

/-- The accounts are right, and a call between its reservation and its commit
holds the lock and a free slot. -/
structure Sound (calls : ι → CodeCall) (s : System ι) : Prop where
  accounted : Accounted s.db
  holdsLock : HoldsLock s
  slot : ∀ i claim, s.phase i = .reserved claim → ∃ req stored, calls i = .redeem req ∧
    s.db.codes.row? req.codeText = some stored ∧ reservable stored req.now = true

omit [DecidableEq ι] in
theorem Sound.start (hDb : Accounted db) : Sound calls (System.start ι db) :=
  ⟨hDb, holdsLock_start db, nofun⟩

theorem accounted_step (hSound : Sound calls s) (h : sysStep calls s a = some s') :
    Accounted s'.db := by
  have hDb := hSound.accounted
  obtain ⟨next, -, rfl⟩ | ⟨next, -, -, rfl⟩ | ⟨db, next, hMove, -, rfl⟩ |
    ⟨db, next, hMove, -, rfl⟩ := sysStep_cases h
  · exact hDb
  · exact hDb
  · obtain ⟨claim, hPhase, ⟨req, hCall, hCommit, -⟩ | ⟨e, -, rfl, -⟩⟩ := release_inv hMove
    · obtain ⟨req', stored, hCall', hStored, hFree⟩ := hSound.slot _ claim hPhase
      obtain rfl := CodeCall.redeem.inj (hCall.symm.trans hCall')
      exact hDb.commit hStored hFree hCommit
    · exact hDb
  · obtain ⟨-, -, e, -, -, rfl, -⟩ | ⟨-, -, keys, -, -, rfl, -⟩ |
      ⟨codeText, now, -, -, -, rfl | ⟨code, hCode, rfl⟩⟩ := write_inv hMove
    · exact hDb
    · exact hDb.policies _
    · exact hDb
    · exact hDb.revoke hCode now

theorem sound_step (hSound : Sound calls s) (h : sysStep calls s a = some s') : Sound calls s' := by
  refine ⟨accounted_step hSound h, holdsLock_step hSound.holdsLock h, ?_⟩
  intro i claim hi
  obtain ⟨hOld, -, hDb⟩ | ⟨rfl, hMove, -, hDb⟩ := reserved_step hSound.holdsLock h hi <;> rw [hDb]
  · exact hSound.slot i claim hOld
  · obtain ⟨req, _, stored, hCall, -, -, hStored, hFree⟩ := takeLock_inv hMove
    exact ⟨req, stored, hCall, hStored, hFree⟩

theorem revoked_step (hRevoked : Revoked s.db c) (h : sysStep calls s a = some s') :
    Revoked s'.db c := by
  obtain ⟨next, -, rfl⟩ | ⟨next, -, -, rfl⟩ | ⟨db, next, hMove, -, rfl⟩ |
    ⟨db, next, hMove, -, rfl⟩ := sysStep_cases h
  · exact hRevoked
  · exact hRevoked
  · obtain ⟨claim, -, ⟨req, -, hCommit, -⟩ | ⟨e, -, rfl, -⟩⟩ := release_inv hMove
    · exact hRevoked.commit hCommit
    · exact hRevoked
  · obtain ⟨-, -, e, -, -, rfl, -⟩ | ⟨-, -, keys, -, -, rfl, -⟩ |
      ⟨codeText, now, -, -, -, rfl | ⟨code, -, rfl⟩⟩ := write_inv hMove
    · exact hRevoked
    · exact hRevoked
    · exact hRevoked
    · exact hRevoked.revoke codeText code now

/-- The step reserves a slot of the code. -/
def Reserves (calls : ι → CodeCall) (s : System ι) (a : Act ι) (codeText : String) : Prop :=
  ∃ req next, calls a.proc = .redeem req ∧ req.codeText = codeText ∧
    s.move calls a = .takeLock next

omit [DecidableEq ι] in
theorem Revoked.not_reserves (hRevoked : Revoked s.db c) : ¬ Reserves calls s a c := by
  rintro ⟨req, next, hCall, rfl, hMove⟩
  obtain ⟨req', claim, stored, hCall', -, -, hStored, hFree⟩ := takeLock_inv hMove
  obtain rfl := CodeCall.redeem.inj (hCall.symm.trans hCall')
  rw [hRevoked.not_reservable hStored] at hFree
  simp at hFree

/-! ## A call that raised before its commit -/

variable {i : ι}

/-- No call goes back behind its commit. -/
theorem committed_back (h : sysStep calls s a = some s')
    (hAfter : (s'.phase i).committed = false) : (s.phase i).committed = false := by
  by_cases hi : i = a.proc
  · subst hi
    obtain ⟨next, hMove, rfl⟩ | ⟨next, hMove, -, rfl⟩ | ⟨db, next, hMove, -, rfl⟩ |
      ⟨db, next, hMove, -, rfl⟩ := sysStep_cases h <;> rw [System.goto_phase_self] at hAfter
    · have hRead := read_inv hMove
      cases hPhase : s.phase a.proc <;> rw [hPhase] at hRead <;> cases hRead <;>
        first | rfl | assumption
    · obtain ⟨-, claim, -, -, hPhase, -⟩ := takeLock_inv hMove
      rw [hPhase]
      rfl
    · obtain ⟨claim, hPhase, -⟩ := release_inv hMove
      rw [hPhase]
      rfl
    · obtain ⟨-, claim, e, -, hPhase, -⟩ | ⟨-, -, keys, -, -, -, rfl | ⟨-, -, rfl⟩⟩ |
        ⟨-, -, -, hPhase, -⟩ := write_inv hMove
      · rw [hPhase]
        rfl
      · cases hAfter
      · cases hAfter
      · rw [hPhase]
        rfl
  · obtain ⟨next, -, rfl⟩ | ⟨next, -, -, rfl⟩ | ⟨db, next, -, -, rfl⟩ |
      ⟨db, next, -, -, rfl⟩ := sysStep_cases h <;>
      rwa [System.goto_phase_of_ne _ _ _ _ hi] at hAfter

/-- `t` is `s` without the call `i`: its lock is free, the others are where they are. -/
structure Without (i : ι) (s t : System ι) : Prop where
  db : t.db = s.db
  lock : t.lock = if s.lock = some i then none else s.lock
  phase : ∀ j, j ≠ i → t.phase j = s.phase j

/-- A step of a call that has not committed after it leaves the database alone. -/
theorem without_erase (hR : Without i s t)
    (hOpen : ∀ s', sysStep calls s a = some s' → (s'.phase i).committed = false)
    (hProc : a.proc = i) (h : sysStep calls s a = some s') : Without i s' t := by
  subst hProc
  have hAfter := hOpen s' h
  have hPhases : ∀ (next : Phase) (db : Db) (lock : Option ι), ∀ j, j ≠ a.proc →
      t.phase j = (s.goto a.proc next db lock).phase j := by
    intro next db lock j hj
    rw [System.goto_phase_of_ne _ _ _ _ hj, hR.phase j hj]
  obtain ⟨next, -, rfl⟩ | ⟨next, -, hLock, rfl⟩ | ⟨db, next, hMove, hLock, rfl⟩ |
    ⟨db, next, hMove, hLock, rfl⟩ := sysStep_cases h
  · exact ⟨hR.db, hR.lock, hPhases _ _ _⟩
  · refine ⟨hR.db, ?_, hPhases _ _ _⟩
    rw [hR.lock, hLock]
    simp
  · rw [System.goto_phase_self] at hAfter
    obtain ⟨claim, -, ⟨req, -, -, rfl⟩ | ⟨e, -, rfl, -⟩⟩ := release_inv hMove
    · cases hAfter
    · refine ⟨hR.db, ?_, hPhases _ _ _⟩
      rw [hR.lock, hLock]
      simp
  · rw [System.goto_phase_self] at hAfter
    obtain ⟨-, -, e, -, -, rfl, -⟩ | ⟨-, -, keys, -, -, -, rfl | ⟨-, -, rfl⟩⟩ |
      ⟨-, -, -, -, rfl, -⟩ := write_inv hMove
    · refine ⟨hR.db, ?_, hPhases _ _ _⟩
      rw [hR.lock, hLock]
      simp
    · cases hAfter
    · cases hAfter
    · cases hAfter

/-- The other calls move as before. -/
theorem without_match (hR : Without i s t) (hProc : a.proc ≠ i) (h : sysStep calls s a = some s') :
    ∃ t', sysStep calls t a = some t' ∧ Without i s' t' := by
  have hMoves : t.move calls a = s.move calls a := by
    unfold System.move
    rw [hR.db, hR.phase a.proc hProc]
  have hPhases : ∀ (next : Phase) (db db' : Db) (lock lock' : Option ι), ∀ j, j ≠ i →
      (t.goto a.proc next db' lock').phase j = (s.goto a.proc next db lock).phase j := by
    intro next db db' lock lock' j hj
    by_cases hja : j = a.proc
    · subst hja
      rw [System.goto_phase_self, System.goto_phase_self]
    · rw [System.goto_phase_of_ne _ _ _ _ hja, System.goto_phase_of_ne _ _ _ _ hja,
        hR.phase j hj]
  have hOther : some a.proc ≠ some i := fun hEq => hProc (Option.some.inj hEq)
  obtain ⟨next, hMove, rfl⟩ | ⟨next, hMove, hLock, rfl⟩ | ⟨db, next, hMove, hLock, rfl⟩ |
    ⟨db, next, hMove, hLock, rfl⟩ := sysStep_cases h
  · refine ⟨t.goto a.proc next t.db t.lock, ?_, hR.db, hR.lock, hPhases _ _ _ _ _⟩
    rw [sysStep, hMoves, hMove]
  · have hFree : t.lock = none := by rw [hR.lock, hLock]; simp
    refine ⟨t.goto a.proc next t.db (some a.proc), ?_, hR.db, ?_, hPhases _ _ _ _ _⟩
    · simp only [sysStep, hMoves, hMove, hFree, if_true]
    · rw [System.goto_lock, System.goto_lock, if_neg hOther]
  · have hHeld : t.lock = some a.proc := by rw [hR.lock, hLock, if_neg hOther]
    refine ⟨t.goto a.proc next db none, ?_, rfl, ?_, hPhases _ _ _ _ _⟩
    · simp only [sysStep, hMoves, hMove, hHeld, if_true]
    · rw [System.goto_lock, System.goto_lock, if_neg (by simp)]
  · have hFree : t.lock = none := by rw [hR.lock, hLock]; simp
    refine ⟨t.goto a.proc next db none, ?_, rfl, ?_, hPhases _ _ _ _ _⟩
    · simp only [sysStep, hMoves, hMove, hFree, if_true]
    · rw [System.goto_lock, System.goto_lock, if_neg (by simp)]

/-- **A call that raised before its commit leaves nothing behind.** The run without
its steps is a run, and ends with the same database. -/
theorem undone_erased {as : List (Act ι)}
    (hExec : exec (sysStep calls) (System.start ι db) as = some s)
    (hUndone : (s.phase i).committed = false) :
    ∃ s', exec (sysStep calls) (System.start ι db) (as.filter fun a => decide (a.proc ≠ i)) =
      some s' ∧ s'.db = s.db := by
  have hBack : ∀ (s : System ι) a s', sysStep calls s a = some s' →
      (fun s : System ι => (s.phase i).committed = false) s' →
      (fun s : System ι => (s.phase i).committed = false) s :=
    fun _ _ _ hStep hAfter => committed_back hStep hAfter
  have hErase : ∀ (s : System ι) (a : Act ι) s' t, Without i s t →
      (∀ s', sysStep calls s a = some s' → (s'.phase i).committed = false) →
      decide (a.proc ≠ i) = false → sysStep calls s a = some s' → Without i s' t :=
    fun _ _ _ _ hR hOpen hKeep hStep => without_erase hR hOpen (by simpa using hKeep) hStep
  have hMatch : ∀ (s : System ι) (a : Act ι) s' t, Without i s t →
      decide (a.proc ≠ i) = true → sysStep calls s a = some s' →
      ∃ t', sysStep calls t a = some t' ∧ Without i s' t' :=
    fun _ _ _ _ hR hKeep hStep => without_match hR (by simpa using hKeep) hStep
  have hStart : Without i (System.start ι db) (System.start ι db) := ⟨rfl, rfl, fun _ _ => rfl⟩
  have hOpen := (Lib.along_of_final hBack hExec hUndone).2
  obtain ⟨s', hRun, hWithout⟩ := Lib.exec_filter hErase hMatch hStart hOpen hExec
  exact ⟨s', hRun, hWithout.db⟩

/-! ## The accounting of a run -/

/-- A redemption gets through what follows its commit and is caught by nobody: the last read,
and in the client portal the reconciles. -/
def ReconcilesThrough (calls : ι → CodeCall) (s : System ι) (a : Act ι) : Prop :=
  ∀ req keys, calls a.proc = .redeem req → s.phase a.proc = .reconciling keys →
    keys = [] ∨ req.userId = none → a.outcome = .succeeds

theorem not_reconcileFailed_step (hNone : ∀ i, s.phase i ≠ .raised .reconcileFailed)
    (hThrough : ReconcilesThrough calls s a) (h : sysStep calls s a = some s') :
    ∀ i, s'.phase i ≠ .raised .reconcileFailed := by
  have hGoto : ∀ (next : Phase) (db : Db) (lock : Option ι), next ≠ .raised .reconcileFailed →
      ∀ i, (s.goto a.proc next db lock).phase i ≠ .raised .reconcileFailed := by
    exact fun next db lock hNext => System.forall_phase_goto
      (P := fun _ phase => phase ≠ .raised .reconcileFailed) hNext fun i _ => hNone i
  obtain ⟨next, hMove, rfl⟩ | ⟨next, hMove, -, rfl⟩ | ⟨db, next, hMove, -, rfl⟩ |
    ⟨db, next, hMove, -, rfl⟩ := sysStep_cases h <;> apply hGoto
  · rintro rfl
    have hRead := read_inv hMove
    cases hPhase : s.phase a.proc <;> rw [hPhase] at hRead <;> cases hRead <;> try contradiction
    next req hCall =>
      have hSucceeds := hThrough req [] hCall hPhase (.inl rfl)
      simp [System.move, callMove, hCall, hPhase, hSucceeds, redeemMove] at hMove
  · obtain ⟨-, claim, -, -, -, rfl, -⟩ := takeLock_inv hMove
    simp
  · obtain ⟨claim, -, ⟨req, -, -, rfl⟩ | ⟨e, hUndone, -, rfl⟩⟩ := release_inv hMove
    · simp
    · simpa using hUndone
  · obtain ⟨-, -, e, -, -, -, rfl⟩ |
      ⟨req, key, keys, hCall, hPhase, -, rfl | ⟨hFails, hClient, -⟩⟩ |
      ⟨-, -, -, -, rfl, -⟩ := write_inv hMove
    · simp
    · simp
    · exact absurd (hThrough req (key :: keys) hCall hPhase (.inr hClient)) hFails
    · simp

/-- What the accounting of codes promises of a run. -/
structure AccountsExactly (calls : ι → CodeCall) (db : Db) (as : List (Act ι))
    (s : System ι) : Prop where
  accounted : Accounted s.db
  revoked : ∀ before after u c, as = before ++ after →
    exec (sysStep calls) (System.start ι db) before = some u → Revoked u.db c →
    Along (sysStep calls) (fun v a => ¬ Reserves calls v a c) u after
  undone : ∀ i e, s.phase i = .raised e →
    ∃ s', exec (sysStep calls) (System.start ι db) (as.filter fun a => decide (a.proc ≠ i)) =
      some s' ∧ s'.db = s.db

/-- **The accounting of unlock codes is exact** in every state that calls reach
from right accounts, as long as no redemption fails behind its commit, where
nothing catches the failure. -/
theorem accounting_exact (calls : ι → CodeCall) {db : Db} (hDb : Accounted db)
    {as : List (Act ι)} {s : System ι}
    (hExec : exec (sysStep calls) (System.start ι db) as = some s)
    (hThrough : Along (sysStep calls) (ReconcilesThrough calls) (System.start ι db) as) :
    AccountsExactly calls db as s where
  accounted :=
    (Lib.invariant_of_exec (fun _ _ _ hSound hStep => sound_step hSound hStep)
      (Sound.start hDb) hExec).accounted
  revoked := by
    intro before after u c _ _ hRevoked
    have hStep : ∀ (v : System ι) (a : Act ι) v', Revoked v.db c → sysStep calls v a = some v' →
        Revoked v'.db c := fun _ _ _ h hStep => revoked_step h hStep
    exact Lib.along_of_invariant hStep (fun v a h => Revoked.not_reserves h) hRevoked after
  undone := by
    intro i e hRaised
    have hNone : ∀ j, s.phase j ≠ .raised .reconcileFailed :=
      Lib.invariant_exec (fun _ _ _ h hP hStep => not_reconcileFailed_step h hP hStep)
        (fun j h => by cases h) hThrough hExec
    refine undone_erased hExec ?_
    have hUndone : e ≠ .reconcileFailed := fun he => hNone i (he ▸ hRaised)
    rw [hRaised]
    cases e <;> first | rfl | contradiction

/-! ## Two runs -/

theorem portal_accounted (protocol : Protocol) (row : PolicyRow) :
    Accounted (portalDb protocol row) := by
  have hOnly : ∀ c code, (portalDb protocol row).codes.row? c = some code →
      code = portalCode protocol := by
    intro c code hCode
    simp only [portalDb, Table.row?_set] at hCode
    split at hCode
    · exact (Option.some.inj hCode).symm
    · simp at hCode
  refine ⟨?_, ?_, List.Pairwise.nil⟩
  · rintro c code hCode
    rw [hOnly c code hCode]
    rfl
  · rintro c code hCode
    rw [hOnly c code hCode]
    exact Nat.zero_le _

/-- A redemption, and the revocation of its code. -/
def redeemAndRevoke : Fin 2 → CodeCall
  | 0 => .redeem (portalRequest 0)
  | 1 => .revoke "UNLOCK-1" 0

/-- The revocation reads while the redemption holds its slot, and commits after it. -/
def redeemThenRevoke : List (Act (Fin 2)) :=
  List.replicate 8 (turn 0) ++ [turn 1, turn 0, turn 1, turn 0, turn 0]

theorem redeem_then_revoke_exact :
    ∃ s, exec (sysStep redeemAndRevoke) (System.start (Fin 2) (portalDb .wireguard {}))
      redeemThenRevoke = some s ∧
      AccountsExactly redeemAndRevoke (portalDb .wireguard {}) redeemThenRevoke s := by
  have hRuns : (exec (sysStep redeemAndRevoke) (System.start (Fin 2) (portalDb .wireguard {}))
      redeemThenRevoke).isSome = true := by decide
  obtain ⟨s, hExec⟩ := Option.isSome_iff_exists.mp hRuns
  refine ⟨s, hExec, accounting_exact redeemAndRevoke (portal_accounted _ _) hExec ?_⟩
  have hSucceeds : ∀ a ∈ redeemThenRevoke, a.outcome = .succeeds := by decide
  exact Lib.along_of_forall (fun a ha _ _ _ _ _ _ => hSucceeds a ha) _

def loneRedeem : Unit → CodeCall := fun _ => .redeem (portalRequest 0)

/-- A redemption whose reconcile fails after the commit. -/
def failingReconcile : List (Act Unit) :=
  List.replicate 9 (turn ()) ++ [⟨(), ⟨0, fun _ => 0⟩, .fails false⟩]

def Phase.reconcileFailed : Phase → Bool
  | .raised e => e = .reconcileFailed
  | _ => false

/-- The call raises, and its redemption is counted. -/
theorem reconcile_failure_counted :
    ∃ s, exec (sysStep loneRedeem) (System.start Unit (portalDb .wireguard {}))
        failingReconcile = some s ∧
      s.phase () = .raised .reconcileFailed ∧
      (s.db.codes.row? "UNLOCK-1").map (·.redemptionCount) = some 1 ∧
      ¬ AccountsExactly loneRedeem (portalDb .wireguard {}) failingReconcile s := by
  have hRuns : (exec (sysStep loneRedeem) (System.start Unit (portalDb .wireguard {}))
      failingReconcile).map (fun s =>
        ((s.phase ()).reconcileFailed,
          (s.db.codes.row? "UNLOCK-1").map (·.redemptionCount))) = some (true, some 1) := by
    decide
  obtain ⟨s, hExec, hEnd⟩ := Option.map_eq_some_iff.mp hRuns
  obtain ⟨hFailed, hCount⟩ := Prod.mk.inj hEnd
  have hRaised : s.phase () = .raised .reconcileFailed := by
    cases hPhase : s.phase () <;> rw [hPhase] at hFailed <;>
      simp_all [Phase.reconcileFailed]
  refine ⟨s, hExec, hRaised, hCount, fun hExact => ?_⟩
  obtain ⟨s', hErased, hDb⟩ := hExact.undone () _ hRaised
  have hNothing : failingReconcile.filter (fun a => decide (a.proc ≠ ())) = [] := by
    simp
  rw [hNothing, Lib.exec_nil] at hErased
  cases hErased
  rw [← hDb] at hCount
  revert hCount
  decide

end AdminPanel.Unlock
