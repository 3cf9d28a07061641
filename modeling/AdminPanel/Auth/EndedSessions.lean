import AdminPanel.Auth.TokenFamilies

/-!
# A session that is over

A refresh of a session that is over must raise. The grace path looks whether the session is still
alive, but a claim that finds its row revoked is taken for one that lost to a sibling tab, whoever
revoked it.

* `Alive`, `RefusedWhenOver` — a call returns only while its session is alive;
* `RotateCall.exposed?`, `Uncut` — no revocation ends the session of a call that will not look
  again;
* `alive_change` — what a step other than a revocation does to a session.

Main result: `refused_when_over`.
-/

namespace AdminPanel.Auth

open Lib (exec Along along_of_guard)
open Access (Time)

/-! ## Sessions -/

/-- An unrevoked token of the family of the row is left. -/
def Alive (db : TokenDb) (row : RefreshToken) : Prop :=
  ∃ other ∈ db.rows, other.revoked = false ∧ row.sameFamily other = true

instance (db : TokenDb) (row : RefreshToken) : Decidable (Alive db row) :=
  inferInstanceAs (Decidable (∃ other ∈ db.rows, _))

/-- A call that ends with the step does not return for a session that is over. -/
def RefusedWhenOver (s : FamilyState) (a : FamilyAction) : Prop :=
  ∀ i row token t, a = .rotateNext i → familyStep s a = some t →
    t.calls[i]? = some (.returned row token) → Alive t.db row

/-- The row of a call that goes on to return without looking whether its session is alive: it
has read the row as live, or found it in its grace period without a family, or committed a
successor that it has yet to read again. -/
def RotateCall.exposed? : RotateCall → Option RefreshToken
  | .running (.liveUser row _) | .running (.claiming row _) | .refreshing row _ => some row
  | .running (.graceUser row _) => if row.familyId = none then some row else none
  | _ => none

/-- A revocation leaves a live token to the session of each exposed call. -/
def Uncut (s : FamilyState) (a : FamilyAction) : Prop :=
  ∀ p ∈ s.target? a, ∀ call ∈ s.calls, ∀ row ∈ call.exposed?,
    ∃ other ∈ s.db.rows, other.revoked = false ∧ row.sameFamily other = true ∧ p other = false

instance (s : FamilyState) (a : FamilyAction) : Decidable (Uncut s a) :=
  inferInstanceAs (Decidable (∀ p ∈ s.target? a, ∀ call ∈ s.calls, ∀ row ∈ call.exposed?,
    ∃ other ∈ s.db.rows, other.revoked = false ∧ row.sameFamily other = true ∧ p other = false))

/-! ## What keeps a session alive -/

variable {call : RotateCall}

section

variable {db db' : TokenDb} {row : RefreshToken}

theorem sameFamily_self (row : RefreshToken) : row.sameFamily row = true := by
  unfold RefreshToken.sameFamily
  cases row.familyId <;> exact beq_self_eq_true _

theorem mem_revokeWhere_of_missed {p : RefreshToken → Bool} {reason : RevokeReason} {now : Time}
    {rows : List RefreshToken} (hMem : row ∈ rows) (hMissed : p row = false) :
    row ∈ revokeWhere p reason now rows := by
  refine List.mem_map.mpr ⟨row, hMem, ?_⟩
  rw [hMissed, Bool.and_false]
  rfl

/-- The successor of a row of the family is in the family. -/
theorem sameFamily_newToken {familyId? : Option Nat} {other : RefreshToken}
    (hSeen : Placed db row) (hSame : row.sameFamily other = true)
    (hFamily : other.familyId = familyId?) : row.sameFamily (newToken db familyId?) = true := by
  unfold RefreshToken.sameFamily at hSame ⊢
  cases hOwn : row.familyId with
  | none => exact beq_iff_eq.mpr hSeen.user.symm
  | some f =>
    rw [hOwn] at hSame
    rw [← hFamily, beq_iff_eq.mp hSame]
    exact beq_self_eq_true _

/-- **A step keeps a session alive**, unless it revokes its tokens. -/
theorem alive_change {target? : Option (RefreshToken → Bool)} (hChange : Change db target? db')
    (hPlaced : Placed db row) (hAlive : Alive db row)
    (hLeft : ∀ p ∈ target?, ∃ other ∈ db.rows, other.revoked = false ∧
      row.sameFamily other = true ∧ p other = false) : Alive db' row := by
  cases hChange with
  | same hRows hFresh hUser => rwa [Alive, hRows]
  | revoke p reason now hRows hFresh hUser =>
    obtain ⟨other, hOther, hLive, hSame, hMissed⟩ := hLeft p rfl
    refine ⟨other, ?_, hLive, hSame⟩
    rw [hRows]
    exact mem_revokeWhere_of_missed hOther hMissed
  | begin =>
    obtain ⟨other, hOther, hLive, hSame⟩ := hAlive
    exact ⟨other, List.mem_append_left _ hOther, hLive, hSame⟩
  | @succeed p now familyId? hit hHit hHitLive hIsHit hFamily hBound =>
    obtain ⟨other, hOther, hLive, hSame⟩ := hAlive
    cases hMissed : p other with
    | false =>
      exact ⟨other, List.mem_append_left _ (mem_revokeWhere_of_missed hOther hMissed), hLive, hSame⟩
    | true =>
      exact ⟨newToken db familyId?, List.mem_append_right _ (List.mem_singleton_self _), rfl,
        sameFamily_newToken hPlaced hSame (hFamily other hOther hMissed)⟩

theorem alive_createRefreshToken {rows : List RefreshToken} (hPlaced : Placed db row) :
    Alive (createRefreshToken db rows row.familyId) row :=
  ⟨newToken db row.familyId, List.mem_append_right _ (List.mem_singleton_self _), rfl,
    sameFamily_newToken hPlaced (sameFamily_self row) rfl⟩

theorem alive_of_any {now : Time}
    (h : (db.rows.any fun other => !other.revoked && liveInFamily row now other) = true) :
    Alive db row := by
  obtain ⟨other, hOther, hLive, hHit⟩ := exists_live_of_any h
  rw [liveInFamily, Bool.and_eq_true] at hHit
  exact ⟨other, hOther, hLive, hHit.1⟩

/-! ## Exposed calls -/

theorem exposed_begin {token : Nat}
    (h : row ∈ (RotateCall.ofPhase (refreshBegin db token)).exposed?) : Alive db row := by
  have hStart := refreshStart_of_begin db token
  generalize refreshBegin db token = phase at h hStart
  cases hStart with
  | live own hRow hLive =>
    cases h
    exact ⟨row, TokenDb.mem_of_row? hRow, hLive, sameFamily_self row⟩
  | _ => cases h

/-- A call becomes exposed when it finds its session alive. -/
theorem exposed_rotateNext {next : RotateCall} (h : rotateNext db call = some (db', next))
    (hPlaced : ∀ row ∈ call.row?, Placed db row) (hExposed : row ∈ next.exposed?) :
    row ∈ call.exposed? ∨ Alive db' row := by
  cases call with
  | running phase =>
    obtain ⟨⟨dbNext, phaseNext⟩, hNext, hEq⟩ := Option.map_eq_some_iff.mp h
    cases hEq
    cases phase with
    | checking own now =>
      simp only [refreshNext, Option.some.injEq, Prod.mk.injEq] at hNext
      obtain ⟨rfl, rfl⟩ := hNext
      split at hExposed
      · next hAny =>
        simp only [RotateCall.ofPhase, RotateCall.exposed?] at hExposed
        split at hExposed
        · cases hExposed
          exact .inr (alive_of_any hAny)
        · cases hExposed
      · cases hExposed
    | superseding own now =>
      simp only [refreshNext] at hNext
      split at hNext <;> cases hNext <;> cases hExposed
      exact .inr (alive_createRefreshToken (hPlaced row rfl))
    | claiming own now =>
      simp only [refreshNext] at hNext
      split at hNext <;> cases hNext <;> cases hExposed
      exact .inl rfl
    | liveUser own now =>
      simp only [refreshNext, Option.some.injEq, Prod.mk.injEq] at hNext
      obtain ⟨rfl, rfl⟩ := hNext
      split at hExposed
      · cases hExposed
      · exact .inl hExposed
    | graceUser own now =>
      simp only [refreshNext, Option.some.injEq, Prod.mk.injEq] at hNext
      obtain ⟨rfl, rfl⟩ := hNext
      split at hExposed
      · cases hExposed
      · split at hExposed <;> cases hExposed
    | minting own refresh loaded | reuse own => cases hNext; cases hExposed
    | refused | issued own refresh access => cases hNext
  | refreshing own token => cases h; cases hExposed
  | returned own token | raised => cases h

/-- A call that returns was exposed, and its last step writes nothing. -/
theorem returned_rotateNext {token : Option Nat}
    (h : rotateNext db call = some (db', .returned row token)) :
    db' = db ∧ row ∈ call.exposed? := by
  cases call with
  | running phase =>
    obtain ⟨⟨dbNext, phaseNext⟩, hNext, hEq⟩ := Option.map_eq_some_iff.mp h
    obtain ⟨rfl, hPhase⟩ := Prod.mk.inj hEq
    have hMinting : ∃ loaded, phaseNext = .minting row none loaded := by
      cases phaseNext with
      | minting own refresh loaded => cases refresh <;> cases hPhase; exact ⟨loaded, rfl⟩
      | _ => cases hPhase
    obtain ⟨loaded, rfl⟩ := hMinting
    cases refreshStep_of_next hNext with
    | graceAccess own now hFamily => exact ⟨rfl, by simp [RotateCall.exposed?, hFamily]⟩
    | lose own now => exact ⟨rfl, rfl⟩
  | refreshing own token => cases h; exact ⟨rfl, rfl⟩
  | returned own token | raised => cases h

/-- The row of an exposed call is the one that it presented. -/
theorem row?_of_exposed (h : row ∈ call.exposed?) : row ∈ call.row? := by
  cases call with
  | running phase =>
    cases phase with
    | graceUser own now =>
      simp only [RotateCall.exposed?] at h
      split at h
      · exact h
      · cases h
    | liveUser own now | claiming own now => exact h
    | _ => cases h
  | refreshing own token => exact h
  | returned own token | raised => cases h

end

/-! ## Runs -/

variable {s t : FamilyState} {a : FamilyAction}

/-- The session of every exposed call is alive. -/
structure ExposedAlive (s : FamilyState) : Prop where
  calls : CallsSeen s
  alive : ∀ call ∈ s.calls, ∀ row ∈ call.exposed?, Alive s.db row

theorem placed_of_exposed (hInv : ExposedAlive s) (hCall : call ∈ s.calls)
    {row : RefreshToken} (h : row ∈ call.exposed?) : Placed s.db row :=
  (hInv.calls.seen call hCall row (row?_of_exposed h)).placed

theorem exposedAlive_step (hInv : ExposedAlive s) (hUncut : Uncut s a)
    (h : familyStep s a = some t) : ExposedAlive t := by
  refine ⟨callsSeen_step hInv.calls h, ?_⟩
  have hKept : ∀ call ∈ s.calls, ∀ row ∈ call.exposed?, Alive t.db row :=
    fun call hCall row hRow => alive_change (change_step hInv.calls h)
      (placed_of_exposed hInv hCall hRow) (hInv.alive call hCall row hRow)
      fun p hp => hUncut p hp call hCall row hRow
  intro call hCall row hRow
  rcases call_step h hCall with hOld | ⟨i, old, -, hOld, hNext⟩ | ⟨token, rfl, rfl⟩
  · exact hKept call hOld row hRow
  · have hMem := List.mem_of_getElem? hOld
    rcases exposed_rotateNext hNext (fun row hRow => (hInv.calls.seen old hMem row hRow).placed)
      hRow with hBefore | hAlive
    · exact hKept old hMem row hBefore
    · exact hAlive
  · cases h
    exact exposed_begin hRow

theorem returned_alive (hInv : ExposedAlive s) : RefusedWhenOver s a := by
  rintro i row token t rfl h hReturned
  obtain ⟨call, hCall, hMap⟩ := Option.bind_eq_some_iff.mp h
  obtain ⟨⟨db, next⟩, hNext, rfl⟩ := Option.map_eq_some_iff.mp hMap
  have hIndex : i < s.calls.length := (List.getElem?_eq_some_iff.mp hCall).1
  rw [List.getElem?_set_self hIndex] at hReturned
  cases hReturned
  obtain ⟨rfl, hExposed⟩ := returned_rotateNext hNext
  exact hInv.alive call (List.mem_of_getElem? hCall) row hExposed

theorem exposedAlive_start (hDb : DbOk s.db) (hCalls : s.calls = []) : ExposedAlive s := by
  refine ⟨⟨hDb, ?_, ?_⟩, ?_⟩ <;> rw [hCalls] <;> exact fun call hCall => absurd hCall List.not_mem_nil

/-- **A refresh never succeeds for a session that is over**, when no revocation ends the session
of a call between its last look at it and its return. -/
theorem refused_when_over (hDb : DbOk s.db) (hCalls : s.calls = []) {actions : List FamilyAction}
    (hAlong : Along familyStep Uncut s actions) : Along familyStep RefusedWhenOver s actions :=
  along_of_guard (fun _ _ _ hInv hUncut h => exposedAlive_step hInv hUncut h)
    (fun _ _ hInv _ => returned_alive hInv) (exposedAlive_start hDb hCalls) hAlong

/-! ## A logout in between -/

/-- The first login refreshes and is logged out before the claim. -/
def loggedOut : List FamilyAction := [.rotate 0, .rotateNext 0, .revokeTokenFamily 1 .logout]

/-- A refresh, and a logout of the session after it. -/
def refreshedFirst : List FamilyAction :=
  [.rotate 0, .rotateNext 0, .rotateNext 0, .rotateNext 0, .revokeTokenFamily 1 .logout, .rotate 2]

theorem refused_refreshedFirst : Along familyStep RefusedWhenOver firstLogin refreshedFirst := by
  have hUncut : Along familyStep Uncut firstLogin refreshedFirst := by decide
  have hDb : DbOk firstLogin.db := (familyInv_start familyStart_firstLogin).calls.db
  exact refused_when_over hDb rfl hUncut

/-- The claim of a session that was logged out returns. -/
theorem not_always_refused :
    ¬ ∀ (s : FamilyState) (actions : List FamilyAction), DbOk s.db → s.calls = [] →
      Along familyStep RefusedWhenOver s actions := by
  intro h
  have hDb : DbOk firstLogin.db := (familyInv_start familyStart_firstLogin).calls.db
  obtain ⟨t, hRun⟩ : ∃ t, exec familyStep firstLogin loggedOut = some t := ⟨_, rfl⟩
  have hLast := (h firstLogin (loggedOut ++ [.rotateNext 0]) hDb rfl).at hRun
  cases hRun
  exact absurd (hLast 0 _ none _ rfl rfl rfl) (by decide)

end AdminPanel.Auth
