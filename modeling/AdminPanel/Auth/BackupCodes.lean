import AdminPanel.Lib.PyText
import AdminPanel.Lib.Tickets

/-!
# Backup codes

The codes that stand in for TOTP are one encrypted field of `users`. A login reads the row,
removes the code from the list that it has read and writes the list back as a whole; the
endpoints under `/2fa` replace it.

* `verifyTotpCode` — what a request does to the row in its session;
* `CodesState`, `codesStep` — the stored row and any number of requests, each read, check, write
  and commit by itself;
* `codeEvents` — what a commit means for the list: a code is used, a list is issued;
* `Timely` — a request that has accepted a backup code finds the field as it read it when it
  commits, and no list is drawn with a code twice;
* `UpdateOk` — what `verifyBackupCode` has made of the field that was read;
* `backup_codes_once` — in a run of timely steps every code is good once;
* `backup_codes_again` — four runs in which one is not.
-/

namespace AdminPanel.Auth

open List

open Lib (exec Along outputs TicketEvent ticketStep UsedOnce accountOf)
open Lib.PyText (strip)

/-! ## Verification -/

/-- `totp_backup_codes_encrypted`; one that cannot be decrypted is `unreadable`. -/
inductive CodesField
  | unset
  | unreadable
  | codes (l : List (List Char))
  deriving DecidableEq, Repr

def CodesField.list : CodesField → List (List Char)
  | .codes l => l
  | .unset | .unreadable => []

/-- The 2FA columns of a row of `users`. -/
structure TotpUser where
  enabled : Bool
  secret : Option Nat
  codes : CodesField
  deriving DecidableEq, Repr

/-- `upper` is `str.upper`. -/
def verifyBackupCode (upper : List Char → List Char) (user : TotpUser) (code : List Char) :
    Bool × TotpUser :=
  match user.codes with
  | .codes l =>
    if upper code ∈ l then (true, { user with codes := .codes (l.erase (upper code)) })
    else (false, user)
  | .unset | .unreadable => (false, user)

def normalizeCode (code : List Char) : List Char := (strip code).filter (· ≠ ' ')

/-- `totp` is what `pyotp` says of a code at the moment. -/
def verifyTotpCode (upper : List Char → List Char) (totp : List Char → Bool) (user : TotpUser)
    (code : List Char) : Bool × TotpUser :=
  if user.secret = none then (false, user)
  else if totp (normalizeCode code) then (true, user)
  else verifyBackupCode upper user (normalizeCode code)

/-! ## Requests -/

inductive Endpoint
  | login
  | setup (secret : Nat)
  | enable
  | disable
  | regenerate
  deriving DecidableEq, Repr

/-- What the endpoint asks of the row before it looks at the code. -/
def Endpoint.admits (user : TotpUser) : Endpoint → Bool
  | .login | .disable | .regenerate => user.enabled
  | .setup _ => !user.enabled
  | .enable => !user.enabled && user.secret.isSome

/-- The columns of an `UPDATE`: those that the session has changed. -/
structure TotpUpdate where
  enabled : Option Bool := none
  secret : Option (Option Nat) := none
  codes : Option CodesField := none
  deriving DecidableEq, Repr

def TotpUpdate.apply (update : TotpUpdate) (user : TotpUser) : TotpUser where
  enabled := update.enabled.getD user.enabled
  secret := update.secret.getD user.secret
  codes := update.codes.getD user.codes

/-- The changes of an endpoint whose code has been accepted: `used` if it was a backup code, and
`left` is the field then. -/
def Endpoint.update (user : TotpUser) (used : Option (List Char)) (left : CodesField)
    (generated : List (List Char)) : Endpoint → TotpUpdate
  | .login => { codes := used.map fun _ => left }
  | .setup secret => { secret := some (some secret) }
  | .enable => { enabled := some true, codes := some (.codes generated) }
  | .disable =>
    { enabled := some false, secret := some none
      -- a field that was empty when it was read has not changed
      codes := if user.codes = .unset then none else some .unset }
  | .regenerate => { codes := some (.codes generated) }

/-- Where a request stands, with the row as it was read, or the field as it was read, the backup
code that was accepted and the `UPDATE`. -/
inductive CodesPhase
  | loaded (endpoint : Endpoint) (code : List Char) (user : TotpUser)
  | checked (endpoint : Endpoint) (read : CodesField) (used : Option (List Char))
    (update : TotpUpdate)
  | written (endpoint : Endpoint) (read : CodesField) (used : Option (List Char))
    (update : TotpUpdate)
  | done
  deriving DecidableEq, Repr

/-- The request has its `UPDATE` in an open transaction. -/
def CodesPhase.locks : CodesPhase → Bool
  | .written _ _ _ update => decide (update ≠ {})
  | _ => false

def checkCode (upper : List Char → List Char) (totp : List Char → Bool)
    (generated : List (List Char)) (endpoint : Endpoint) (code : List Char) (user : TotpUser) :
    CodesPhase :=
  let accepted (used : Option (List Char)) (left : TotpUser) : CodesPhase :=
    .checked endpoint user.codes used (endpoint.update user used left.codes generated)
  match endpoint with
  | .setup _ => accepted none user
  | _ =>
    match verifyTotpCode upper totp user code with
    | (false, _) => .done
    | (true, left) =>
      accepted (if totp (normalizeCode code) then none else some (upper (normalizeCode code))) left

structure CodesState where
  user : TotpUser
  requests : List CodesPhase := []
  deriving DecidableEq, Repr

inductive CodesAction
  | request (endpoint : Endpoint) (code : List Char)
  | check (i : Nat) (totp : List Char → Bool) (generated : List (List Char))
  | write (i : Nat)
  | commit (i : Nat)
  /-- The request ends here, and its transaction is rolled back. -/
  | fail (i : Nat)

def CodesState.setRequest (s : CodesState) (i : Nat) (phase : CodesPhase) : CodesState :=
  { s with requests := s.requests.set i phase }

def codesStep (upper : List Char → List Char) (s : CodesState) : CodesAction → Option CodesState
  | .request endpoint code =>
    some { s with
      requests := s.requests ++
        [if endpoint.admits s.user then .loaded endpoint code s.user else .done] }
  | .check i totp generated =>
    match s.requests[i]? with
    | some (.loaded endpoint code user) =>
      some (s.setRequest i (checkCode upper totp generated endpoint code user))
    | _ => none
  | .write i =>
    match s.requests[i]? with
    | some (.checked endpoint read used update) =>
      if update ≠ {} ∧ s.requests.any CodesPhase.locks then none
      else some (s.setRequest i (.written endpoint read used update))
    | _ => none
  | .commit i =>
    match s.requests[i]? with
    | some (.written _ _ _ update) =>
      some { s.setRequest i .done with user := update.apply s.user }
    | _ => none
  | .fail i => s.requests[i]?.map fun _ => s.setRequest i .done

/-! ## What commits mean for the list -/

/-- The endpoint writes a list of its own. -/
def Endpoint.issues : Endpoint → Bool
  | .login | .setup _ => false
  | .enable | .disable | .regenerate => true

def CodesPhase.events : CodesPhase → List (TicketEvent (List Char))
  | .written endpoint _ used update =>
    used.toList.map .use ++
      if endpoint.issues then update.codes.toList.map fun field => .issue field.list else []
  | _ => []

def codeEvents (s : CodesState) : CodesAction → List (TicketEvent (List Char))
  | .commit i => (s.requests[i]?.map CodesPhase.events).getD []
  | _ => []

/-- The field is still the one that a request which has accepted a backup code has read. -/
def CodesPhase.timely (stored : CodesField) : CodesPhase → Prop
  | .written _ read used _ => used.isSome = true → stored = read
  | _ => True

/-- A commit after an accepted backup code is timely, and no list is drawn with a code twice. -/
def Timely (s : CodesState) : CodesAction → Prop
  | .check _ _ generated => generated.Nodup
  | .commit i => ∀ phase ∈ s.requests[i]?, phase.timely s.user.codes
  | _ => True

instance (stored : CodesField) : (phase : CodesPhase) → Decidable (phase.timely stored)
  | .written _ _ _ _ => inferInstanceAs (Decidable (_ → _))
  | .loaded _ _ _ | .checked _ _ _ _ | .done => inferInstanceAs (Decidable True)

instance (s : CodesState) : (a : CodesAction) → Decidable (Timely s a)
  | .check _ _ generated => inferInstanceAs (Decidable generated.Nodup)
  | .commit i => inferInstanceAs (Decidable (∀ phase ∈ s.requests[i]?, _))
  | .request _ _ | .write _ | .fail _ => inferInstanceAs (Decidable True)

/-! ## The invariant -/

/-- What an `UPDATE` does to the codes, said of the field that was read: an accepted code was in
it, a login writes it back without that code, and a list that is issued has no code twice. -/
structure UpdateOk (endpoint : Endpoint) (read : CodesField) (used : Option (List Char))
    (update : TotpUpdate) : Prop where
  idle : endpoint.issues = false → used = none → update.codes = none
  writes : used.isSome = true → update.codes.isSome = true
  accepted : ∀ code ∈ used, code ∈ read.list
  spends : endpoint.issues = false → ∀ code ∈ used,
    update.codes = some (.codes (read.list.erase code))
  nodup : endpoint.issues = true → ∀ field ∈ update.codes, field.list.Nodup

def CodesPhase.Ok : CodesPhase → Prop
  | .checked endpoint read used update | .written endpoint read used update =>
    UpdateOk endpoint read used update
  | .loaded _ _ _ | .done => True

section

variable {upper : List Char → List Char} {totp : List Char → Bool} {user : TotpUser}
  {code : List Char}

theorem verifyBackupCode_iff :
    (verifyBackupCode upper user code).1 = true ↔ upper code ∈ user.codes.list := by
  unfold verifyBackupCode
  split
  · next l hCodes =>
    rw [hCodes]
    show _ ↔ upper code ∈ l
    split <;> simpa
  · next hCodes => simp [hCodes, CodesField.list]
  · next hCodes => simp [hCodes, CodesField.list]

/-- A code that is accepted is taken out of the list. -/
theorem verifyBackupCode_codes (h : (verifyBackupCode upper user code).1 = true) :
    (verifyBackupCode upper user code).2.codes = .codes (user.codes.list.erase (upper code)) := by
  have hMem := verifyBackupCode_iff.mp h
  unfold verifyBackupCode
  split
  · next l hCodes =>
    rw [hCodes] at hMem ⊢
    have hIn : upper code ∈ l := hMem
    rw [if_pos hIn]
    rfl
  · next hCodes => simp [hCodes, CodesField.list] at hMem
  · next hCodes => simp [hCodes, CodesField.list] at hMem

/-- What the app does not accept is looked for among the backup codes. -/
theorem verifyTotpCode_backup {left : TotpUser} (hTotp : ¬ totp (normalizeCode code) = true)
    (h : verifyTotpCode upper totp user code = (true, left)) :
    upper (normalizeCode code) ∈ user.codes.list ∧
      left.codes = .codes (user.codes.list.erase (upper (normalizeCode code))) := by
  rw [verifyTotpCode, if_neg hTotp] at h
  split at h
  · cases h
  · have hTrue : (verifyBackupCode upper user (normalizeCode code)).1 = true := by rw [h]
    have hLeft := verifyBackupCode_codes hTrue
    rw [h] at hLeft
    exact ⟨verifyBackupCode_iff.mp hTrue, hLeft⟩

/-- What an endpoint writes is a list of its own or the list it has read, less the code used. -/
theorem updateOk_update {endpoint : Endpoint} {used : Option (List Char)} {left : CodesField}
    {generated : List (List Char)} (hNodup : generated.Nodup)
    (hUsed : ∀ c ∈ used, c ∈ user.codes.list ∧ left = .codes (user.codes.list.erase c))
    (hSetup : ∀ secret, endpoint = .setup secret → used = none) :
    UpdateOk endpoint user.codes used (endpoint.update user used left generated) where
  idle := by
    intro hIssues hNone
    cases endpoint with
    | login => rw [Endpoint.update, hNone, Option.map_none]
    | setup secret => rfl
    | enable | disable | regenerate => cases hIssues
  writes := by
    intro hSome
    cases endpoint with
    | login => simpa [Endpoint.update] using hSome
    | setup secret =>
      rw [hSetup secret rfl] at hSome
      cases hSome
    | enable | regenerate => rfl
    | disable =>
      -- a code was accepted, so the field that was read was not empty
      obtain ⟨c, hc⟩ := Option.isSome_iff_exists.mp hSome
      have hSet : user.codes ≠ .unset := by
        intro hUnset
        have hIn := (hUsed c hc).1
        rw [hUnset] at hIn
        cases hIn
      simp [Endpoint.update, hSet]
  accepted := fun c hc => (hUsed c hc).1
  spends := by
    intro hIssues c hc
    cases endpoint with
    | login =>
      obtain rfl : used = some c := hc
      rw [← (hUsed c rfl).2]
      rfl
    | setup secret =>
      rw [hSetup secret rfl] at hc
      cases hc
    | enable | disable | regenerate => cases hIssues
  nodup := by
    intro hIssues field hField
    cases endpoint with
    | login | setup secret => cases hIssues
    | enable | regenerate =>
      cases hField
      exact hNodup
    | disable =>
      have hEmpty : field.list = [] := by
        dsimp only [Endpoint.update] at hField
        split at hField
        · cases hField
        · cases hField
          rfl
      rw [hEmpty]
      exact nodup_nil

theorem ok_checkCode (endpoint : Endpoint) {generated : List (List Char)}
    (hNodup : generated.Nodup) : (checkCode upper totp generated endpoint code user).Ok := by
  unfold checkCode
  cases endpoint with
  | setup secret => exact updateOk_update hNodup nofun fun _ _ => rfl
  | login | enable | disable | regenerate =>
    dsimp only
    split
    · trivial
    · next left hVerify =>
      refine updateOk_update hNodup ?_ nofun
      intro c hc
      split at hc
      · cases hc
      · next hTotp =>
        cases hc
        exact verifyTotpCode_backup hTotp hVerify

end

section

variable {upper : List Char → List Char} {s t : CodesState} {a : CodesAction}

theorem ok_set {requests : List CodesPhase} (h : ∀ phase ∈ requests, phase.Ok) (i : Nat)
    {phase : CodesPhase} (hPhase : phase.Ok) : ∀ other ∈ requests.set i phase, other.Ok := by
  intro other hOther
  rcases mem_or_eq_of_mem_set hOther with hOld | rfl
  · exact h other hOld
  · exact hPhase

/-- What a step of the system may be. -/
inductive CodesDoes (upper : List Char → List Char) (s : CodesState) :
    CodesAction → CodesState → Prop
  | request (endpoint : Endpoint) (code : List Char) :
    CodesDoes upper s (.request endpoint code) { s with
      requests := s.requests ++
        [if endpoint.admits s.user then .loaded endpoint code s.user else .done] }
  | check (i : Nat) (totp : List Char → Bool) (generated : List (List Char)) (endpoint : Endpoint)
    (code : List Char) (user : TotpUser) :
    CodesDoes upper s (.check i totp generated)
      (s.setRequest i (checkCode upper totp generated endpoint code user))
  | write (i : Nat) (endpoint : Endpoint) (read : CodesField) (used : Option (List Char))
    (update : TotpUpdate)
    (hPhase : s.requests[i]? = some (.checked endpoint read used update)) :
    CodesDoes upper s (.write i) (s.setRequest i (.written endpoint read used update))
  | commit (i : Nat) (endpoint : Endpoint) (read : CodesField) (used : Option (List Char))
    (update : TotpUpdate)
    (hPhase : s.requests[i]? = some (.written endpoint read used update)) :
    CodesDoes upper s (.commit i) { s.setRequest i .done with user := update.apply s.user }
  | fail (i : Nat) : CodesDoes upper s (.fail i) (s.setRequest i .done)

/-- Every step is one of `CodesDoes`. -/
theorem codesDoes_of_step (h : codesStep upper s a = some t) : CodesDoes upper s a t := by
  cases a with
  | request endpoint code => exact Option.some.inj h ▸ .request endpoint code
  | check i totp generated =>
    simp only [codesStep] at h
    split at h
    · next endpoint code user hPhase =>
      exact Option.some.inj h ▸ .check i totp generated endpoint code user
    · cases h
  | write i =>
    simp only [codesStep] at h
    split at h
    · next endpoint read used update hPhase =>
      split at h
      · cases h
      · exact Option.some.inj h ▸ .write i endpoint read used update hPhase
    · cases h
  | commit i =>
    simp only [codesStep] at h
    split at h
    · next endpoint read used update hPhase =>
      exact Option.some.inj h ▸ .commit i endpoint read used update hPhase
    · cases h
  | fail i =>
    obtain ⟨phase, -, rfl⟩ := Option.map_eq_some_iff.mp h
    exact .fail i

theorem ok_step (h : ∀ phase ∈ s.requests, phase.Ok) (hTimely : Timely s a)
    (hDoes : CodesDoes upper s a t) : ∀ phase ∈ t.requests, phase.Ok := by
  cases hDoes with
  | request endpoint code =>
    intro phase hMem
    rcases mem_append.mp hMem with hOld | hNew
    · exact h phase hOld
    · rw [mem_singleton.mp hNew]
      split <;> trivial
  | check i totp generated endpoint code user =>
    exact ok_set h i (ok_checkCode endpoint hTimely)
  | write i endpoint read used update hPhase =>
    have hOk := h _ (mem_of_getElem? hPhase)
    exact ok_set h i hOk
  | commit i endpoint read used update hPhase | fail i => exact ok_set h i trivial

/-- A timely commit spends its code and issues its list. -/
theorem exec_events {endpoint : Endpoint} {read : CodesField} {used : Option (List Char)}
    {update : TotpUpdate} {user : TotpUser} (hOk : UpdateOk endpoint read used update)
    (hTimely : CodesPhase.timely user.codes (.written endpoint read used update)) :
    exec ticketStep user.codes.list (CodesPhase.events (.written endpoint read used update)) =
      some (update.apply user).codes.list := by
  -- what was read is what is stored, so the accepted code is in the stored list
  have hRead : ∀ code, used = some code → user.codes = read := by
    rintro code rfl
    exact hTimely rfl
  have hSpent : ∀ code, used = some code → code ∈ user.codes.list := by
    intro code hUsed
    rw [hRead code hUsed]
    exact hOk.accepted code hUsed
  cases hIssues : endpoint.issues with
  | false =>
    simp only [CodesPhase.events, hIssues]
    cases hUsed : used with
    | none =>
      rw [TotpUpdate.apply, hOk.idle hIssues hUsed]
      rfl
    | some code =>
      rw [TotpUpdate.apply, hOk.spends hIssues code hUsed, ← hRead code hUsed]
      show exec ticketStep user.codes.list [.use code] = some (user.codes.list.erase code)
      rw [Lib.exec_use (hSpent code hUsed), Lib.exec_nil]
  | true =>
    simp only [CodesPhase.events, hIssues, if_true]
    -- the codes that are left are replaced if the field is written at all
    have hIssue : ∀ l, (update.codes = none → l = user.codes.list) →
        exec ticketStep l (update.codes.toList.map fun field => .issue field.list) =
          some (update.apply user).codes.list := by
      intro l hl
      rw [TotpUpdate.apply]
      cases hField : update.codes with
      | none => rw [hl hField]; rfl
      | some field => exact Lib.exec_issue field.list []
    cases hUsed : used with
    | none => exact hIssue _ fun _ => rfl
    | some code =>
      show exec ticketStep user.codes.list (.use code :: _) = _
      rw [Lib.exec_use (hSpent code hUsed)]
      refine hIssue _ fun hNone => ?_
      have hSome := hOk.writes (by rw [hUsed]; rfl)
      rw [hNone] at hSome
      cases hSome

/-- A step does to the list what its events say. -/
theorem refines_step (hOk : ∀ phase ∈ s.requests, phase.Ok) (hTimely : Timely s a)
    (hStep : codesStep upper s a = some t) :
    (∀ phase ∈ t.requests, phase.Ok) ∧
      exec ticketStep s.user.codes.list (codeEvents s a) = some t.user.codes.list := by
  have hDoes := codesDoes_of_step hStep
  refine ⟨ok_step hOk hTimely hDoes, ?_⟩
  cases hDoes with
  | commit i endpoint read used update hPhase =>
    rw [codeEvents, hPhase, Option.map_some, Option.getD_some]
    exact exec_events (hOk _ (mem_of_getElem? hPhase)) (hTimely _ hPhase)
  | _ => rfl

/-- No commit issues a code twice. -/
theorem nodup_of_issue (hOk : ∀ phase ∈ s.requests, phase.Ok) :
    ∀ event ∈ codeEvents s a, ∀ new, event = .issue new → new.Nodup := by
  rintro event hEvent new rfl
  cases a with
  | commit i =>
    cases hPhase : s.requests[i]? with
    | none =>
      rw [codeEvents, hPhase] at hEvent
      exact absurd hEvent not_mem_nil
    | some phase =>
      rw [codeEvents, hPhase, Option.map_some, Option.getD_some] at hEvent
      have hFits := hOk phase (mem_of_getElem? hPhase)
      cases phase with
      | written endpoint read used update =>
        rcases mem_append.mp hEvent with hUse | hIssue
        · obtain ⟨code, -, hEq⟩ := mem_map.mp hUse
          cases hEq
        · split at hIssue
          · next hIssues =>
            obtain ⟨field, hField, hEq⟩ := mem_map.mp hIssue
            rw [← TicketEvent.issue.inj hEq]
            exact hFits.nodup hIssues field (Option.mem_toList.mp hField)
          · exact absurd hIssue not_mem_nil
      | loaded endpoint code user | checked endpoint read used update | done =>
        exact absurd hEvent not_mem_nil
  | request endpoint code | check i totp generated | write i | fail i =>
    exact absurd hEvent not_mem_nil

/-- The history of the list in a run. -/
def codeHistory (upper : List Char → List Char) (s : CodesState) (run : List CodesAction) :
    List (TicketEvent (List Char)) :=
  outputs (codesStep upper) codeEvents s run

/-- In a run of timely steps each code is accepted at most once and only from the list that was
issued last; what a request that reads the row in the end would accept are the codes of that
list which nobody has used. -/
theorem backup_codes_once {run : List CodesAction} (hStart : s.requests = [])
    (hNodup : s.user.codes.list.Nodup) (hTimely : Along (codesStep upper) Timely s run)
    (hRun : exec (codesStep upper) s run = some t) :
    UsedOnce s.user.codes.list (codeHistory upper s run) t.user.codes.list ∧
    ∀ code, (verifyBackupCode upper t.user code).1 = true ↔
      upper code ∈ (accountOf s.user.codes.list (codeHistory upper s run)).issued ∧
      upper code ∉ (accountOf s.user.codes.list (codeHistory upper s run)).used := by
  have hOk : ∀ phase ∈ s.requests, phase.Ok := by
    rw [hStart]
    exact fun phase hPhase => absurd hPhase not_mem_nil
  have hExec := Lib.exec_outputs (fun s a s' h hTimely hStep => refines_step h hTimely hStep)
    hOk hTimely hRun
  have hOks := Lib.along_of_guarded
    (fun s a s' h hTimely hStep => (refines_step (t := s') h hTimely hStep).1)
    (fun s a h => h) hOk hTimely
  have hIssue := Lib.forall_mem_outputs (fun s a h => nodup_of_issue (s := s) (a := a) h) hOks
  have hOnce := Lib.usedOnce_of_exec hNodup (fun new hNew => hIssue _ hNew new rfl) hExec
  exact ⟨hOnce, fun code => verifyBackupCode_iff.trans (hOnce.left (upper code))⟩

end

/-- An admin with two codes left. -/
def twoCodes : CodesState where
  user :=
    { enabled := true, secret := some 0
      codes := .codes ["0A1B2C3D".toList, "4E5F6A7B".toList] }

def asciiUpper : List Char → List Char := List.map Char.toUpper

/-- The app shows 123456. -/
def appCode (code : List Char) : Bool := code == "123456".toList

/-- A login with the first code, new codes, and a login with one of these. -/
def inTurn : List CodesAction :=
  [.request .login "0a1b 2c3d".toList, .check 0 appCode [], .write 0, .commit 0,
    .request .regenerate "4e5f6a7b".toList, .check 1 appCode ["89ABCDEF".toList], .write 1,
    .commit 1, .request .login "89abcdef".toList, .check 2 appCode [], .write 2, .commit 2]

theorem codes_once_in_turn :
    ∃ t, exec (codesStep asciiUpper) twoCodes inTurn = some t ∧
      UsedOnce twoCodes.user.codes.list (codeHistory asciiUpper twoCodes inTurn)
        t.user.codes.list ∧
      ∀ code, (verifyBackupCode asciiUpper t.user code).1 = true ↔
        asciiUpper code ∈
          (accountOf twoCodes.user.codes.list (codeHistory asciiUpper twoCodes inTurn)).issued ∧
        asciiUpper code ∉
          (accountOf twoCodes.user.codes.list (codeHistory asciiUpper twoCodes inTurn)).used := by
  have hNodup : twoCodes.user.codes.list.Nodup := by decide
  have hTimely : Along (codesStep asciiUpper) Timely twoCodes inTurn := by decide
  exact ⟨_, rfl, backup_codes_once rfl hNodup hTimely rfl⟩

/-- Two logins with one code. -/
def sameCode : List CodesAction :=
  [.request .login "0a1b2c3d".toList, .request .login "0a1b2c3d".toList, .check 0 appCode [],
    .check 1 appCode [], .write 0, .commit 0, .write 1, .commit 1]

/-- The login that commits last writes the other one's code back. -/
def codeBack : List CodesAction :=
  [.request .login "0a1b2c3d".toList, .request .login "4e5f6a7b".toList, .check 0 appCode [],
    .check 1 appCode [], .write 0, .commit 0, .write 1, .commit 1]

/-- A login that has read the old list commits after new codes are issued. -/
def oldList : List CodesAction :=
  [.request .login "0a1b2c3d".toList, .check 0 appCode [], .request .regenerate "123456".toList,
    .check 1 appCode ["89ABCDEF".toList], .write 1, .commit 1, .write 0, .commit 0]

/-- A code is drawn twice. -/
def drawnTwice : List CodesAction :=
  [.request .regenerate "123456".toList,
    .check 0 appCode ["89ABCDEF".toList, "89ABCDEF".toList], .write 0, .commit 0,
    .request .login "89abcdef".toList, .check 1 appCode [], .write 1, .commit 1,
    .request .login "89abcdef".toList, .check 2 appCode [], .write 2, .commit 2]

theorem backup_codes_again :
    twoCodes.requests = [] ∧ twoCodes.user.codes.list.Nodup ∧
    ∀ run ∈ [sameCode, codeBack, oldList, drawnTwice],
      ∃ t, exec (codesStep asciiUpper) twoCodes run = some t ∧
        ¬ UsedOnce twoCodes.user.codes.list (codeHistory asciiUpper twoCodes run)
          t.user.codes.list := by
  refine ⟨rfl, by decide, ?_⟩
  simp only [forall_mem_cons]
  refine ⟨⟨_, rfl, ?_⟩, ⟨_, rfl, ?_⟩, ⟨_, rfl, ?_⟩, ⟨_, rfl, ?_⟩, nofun⟩
  · intro h
    exact absurd (h.once _ prefix_rfl) (by decide)
  · intro h
    exact absurd ((h.left "0A1B2C3D".toList).mp (by decide)).2 (by decide)
  · intro h
    exact absurd (h.issued _ prefix_rfl) (by decide)
  · intro h
    exact absurd (h.once _ prefix_rfl) (by decide)

end AdminPanel.Auth
