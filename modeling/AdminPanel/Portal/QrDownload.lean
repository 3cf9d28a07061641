import AdminPanel.Access.Policy
import AdminPanel.Lib.Runs

/-!
# One-time download links

`redeem_token` reads the row of a link, checks it without a lock and then claims a download by
one conditional `UPDATE`, or counts a wrong PIN. Any number of calls run at once, each a
database step at a time; a transaction that has written keeps the write lock to its end.

* `redeemChecks`, `redeemNext` — the steps of one call;
* `QrState`, `qrStep` — the row, its audit log and all calls;
* `GivesNoMore` — what the calls of a run may get out of the link;
* `link_gives_no_more` — it holds of every run.
-/

namespace AdminPanel.Portal

open List

open Access (Time)
open Lib (exec)

/-! ## One call -/

structure HttpError where
  statusCode : Nat
  detail : String
  deriving DecidableEq, Repr

def maxPinFailures : Nat := 5

def linkUnknown : HttpError := ⟨404, "Ссылка недействительна"⟩

def linkExpired : HttpError := ⟨410, "Ссылка истекла"⟩

def pinLocked : HttpError := ⟨410, "Ссылка заблокирована после 5 неверных PIN — запросите новую"⟩

def downloadsExhausted : HttpError := ⟨410, "Лимит скачиваний исчерпан"⟩

def pinWrong : HttpError := ⟨403, "Неверный PIN"⟩

/-- A row of `qr_download_tokens`, as far as `redeem_token` reads it. -/
structure QrToken where
  expiresAt : Time
  maxDownloads : Nat
  downloadCount : Nat := 0
  pinHash : Option String := none
  pinFailures : Nat := 0
  usedAt : Option Time := none
  deriving DecidableEq, Repr

/-- A row of `qr_download_audit_logs` for the link. -/
structure QrAudit where
  eventType : String
  remoteAddr : Option String
  details : String
  deriving DecidableEq, Repr

structure QrDb where
  row : QrToken
  audit : List QrAudit := []
  deriving DecidableEq, Repr

/-- `SET pin_failures = pin_failures + 1` -/
def QrDb.raisePinFailures (db : QrDb) : QrDb :=
  { db with row := { db.row with pinFailures := db.row.pinFailures + 1 } }

/-- `SET download_count = download_count + 1` -/
def QrDb.raiseDownloadCount (db : QrDb) : QrDb :=
  { db with row := { db.row with downloadCount := db.row.downloadCount + 1 } }

/-- A call of `redeem_token`: its clock, and the global PIN when the service was made for it. -/
structure RedeemCall where
  pin : Option String
  globalPin : String
  now : Time
  remoteAddr : Option String := none
  deriving DecidableEq, Repr

section

variable (sha256 : String → String)

/-- `_pins_match`, for a PIN that is required. -/
def pinsMatch (provided : Option String) (expectedHash : String) : Bool :=
  provided.any fun pin => pin ≠ "" && sha256 pin == expectedHash

/-- `row.pin_hash or self.pin_hash`, if it is a hash at all. -/
def requiredHash (row : QrToken) (call : RedeemCall) : Option String :=
  ((row.pinHash.filter (· ≠ "")).or
    (if call.globalPin = "" then none else some (sha256 call.globalPin))).filter (· ≠ "")

/-- The call comes with another PIN than the one that the link requires, or with none. -/
def givesWrongPin (row : QrToken) (call : RedeemCall) : Bool :=
  (requiredHash sha256 row call).any fun hash => !pinsMatch sha256 call.pin hash

/-- Where a call stands, with the row as it was read. A phase that has the write lock comes with
what its transaction has written. -/
inductive RedeemPhase
  | started (call : RedeemCall)
  | wrongPin (call : RedeemCall) (read : QrToken)
  /-- `pin_failures` has been raised. -/
  | pinUpdated (call : RedeemCall) (read : QrToken) (work : QrDb)
  | pinCommitted (call : RedeemCall) (read : QrToken)
  | pinRefused (call : RedeemCall) (read : QrToken) (error : HttpError)
  | claiming (call : RedeemCall) (read : QrToken)
  /-- The claim has found the row. -/
  | claimed (call : RedeemCall) (read : QrToken) (work : QrDb)
  /-- The claim has found no row; the rollback is next. -/
  | unclaimed (call : RedeemCall) (read : QrToken)
  | refused (call : RedeemCall) (read : Option QrToken) (error : HttpError)
  /-- The call has returned the row. -/
  | served (call : RedeemCall) (read : QrToken) (row : QrToken)
  deriving DecidableEq, Repr

def RedeemPhase.locks : RedeemPhase → Bool
  | .pinUpdated _ _ _ | .claimed _ _ _ | .unclaimed _ _ => true
  | _ => false

/-- What the transaction of a claim commits. -/
def countDownload (call : RedeemCall) (work : QrDb) : QrDb where
  row :=
    if work.row.maxDownloads ≤ work.row.downloadCount then { work.row with usedAt := some call.now }
    else work.row
  audit := work.audit ++ [⟨"downloaded", call.remoteAddr,
    "count=" ++ toString work.row.downloadCount ++ "/" ++ toString work.row.maxDownloads⟩]

/-- What a call makes of the row that it has read. -/
def redeemChecks (call : RedeemCall) : Option QrToken → RedeemPhase
  | none => .refused call none linkUnknown
  | some row =>
    if row.expiresAt < call.now then .refused call (some row) linkExpired
    else if maxPinFailures ≤ row.pinFailures then .refused call (some row) pinLocked
    else if row.maxDownloads ≤ row.downloadCount then .refused call (some row) downloadsExhausted
    else if givesWrongPin sha256 row call then .wrongPin call row
    else .claiming call row

/-- The next database step of a call; `locked` says that another one has the write lock. -/
def redeemNext (db : QrDb) (locked : Bool) : RedeemPhase → Option (QrDb × RedeemPhase)
  | .started call => some (db, redeemChecks sha256 call (some db.row))
  | .wrongPin call read =>
    if locked then none
    else some (db, .pinUpdated call read db.raisePinFailures)
  | .pinUpdated call read work =>
    some ({ work with audit := work.audit ++ [⟨"pin_failed", call.remoteAddr, "bad_pin"⟩] },
      .pinCommitted call read)
  | .pinCommitted call read =>
    some (db, .pinRefused call read
      (if maxPinFailures ≤ db.row.pinFailures then pinLocked else pinWrong))
  | .claiming call read =>
    if locked then none
    else if db.row.downloadCount < db.row.maxDownloads ∧ db.row.pinFailures < maxPinFailures then
      some (db, .claimed call read db.raiseDownloadCount)
    else some (db, .unclaimed call read)
  | .claimed call read work =>
    some (countDownload call work, .served call read (countDownload call work).row)
  | .unclaimed call read => some (db, .refused call (some read) downloadsExhausted)
  | .pinRefused _ _ _ | .refused _ _ _ | .served _ _ _ => none

/-! ## All calls -/

structure QrState where
  db : QrDb
  calls : List RedeemPhase := []
  deriving DecidableEq, Repr

inductive QrAction
  | call (call : RedeemCall)
  | next (i : Nat)
  deriving DecidableEq, Repr

def qrStep (s : QrState) : QrAction → Option QrState
  | .call call => some { s with calls := s.calls ++ [.started call] }
  | .next i =>
    s.calls[i]?.bind fun phase =>
      (redeemNext sha256 s.db (s.calls.any RedeemPhase.locks) phase).map fun (db, next) =>
        { db := db, calls := s.calls.set i next }

end

/-- What one step of a call does. -/
inductive RedeemStep (sha256 : String → String) (db : QrDb) :
    RedeemPhase → QrDb → RedeemPhase → Prop
  | read (call : RedeemCall) :
    RedeemStep sha256 db (.started call) db (redeemChecks sha256 call (some db.row))
  | pinUpdate (call : RedeemCall) (read : QrToken) :
    RedeemStep sha256 db (.wrongPin call read) db (.pinUpdated call read db.raisePinFailures)
  | pinCommit (call : RedeemCall) (read : QrToken) (work : QrDb) :
    RedeemStep sha256 db (.pinUpdated call read work)
      { work with audit := work.audit ++ [⟨"pin_failed", call.remoteAddr, "bad_pin"⟩] }
      (.pinCommitted call read)
  | pinRefuse (call : RedeemCall) (read : QrToken) (error : HttpError) :
    RedeemStep sha256 db (.pinCommitted call read) db (.pinRefused call read error)
  | claim (call : RedeemCall) (read : QrToken)
    (hCount : db.row.downloadCount < db.row.maxDownloads)
    (hFailures : db.row.pinFailures < maxPinFailures) :
    RedeemStep sha256 db (.claiming call read) db (.claimed call read db.raiseDownloadCount)
  | miss (call : RedeemCall) (read : QrToken) :
    RedeemStep sha256 db (.claiming call read) db (.unclaimed call read)
  | serve (call : RedeemCall) (read : QrToken) (work : QrDb) :
    RedeemStep sha256 db (.claimed call read work) (countDownload call work)
      (.served call read (countDownload call work).row)
  | rollback (call : RedeemCall) (read : QrToken) :
    RedeemStep sha256 db (.unclaimed call read) db
      (.refused call (some read) downloadsExhausted)

section

variable {sha256 : String → String} {db db' : QrDb} {locked : Bool} {phase next : RedeemPhase}

theorem redeemChecks_cases (call : RedeemCall) (row : QrToken) :
    (∃ error, redeemChecks sha256 call (some row) = .refused call (some row) error) ∨
      redeemChecks sha256 call (some row) = .wrongPin call row ∨
      redeemChecks sha256 call (some row) = .claiming call row := by
  unfold redeemChecks
  dsimp only
  split
  · exact .inl ⟨_, rfl⟩
  · split
    · exact .inl ⟨_, rfl⟩
    · split
      · exact .inl ⟨_, rfl⟩
      · split
        · exact .inr (.inl rfl)
        · exact .inr (.inr rfl)

/-- Every step is one of `RedeemStep`. -/
theorem redeemStep_of_next (h : redeemNext sha256 db locked phase = some (db', next)) :
    RedeemStep sha256 db phase db' next ∧ (next.locks = true → locked = false) := by
  cases phase with
  | started call =>
    cases h
    refine ⟨.read call, fun hLocks => ?_⟩
    rcases redeemChecks_cases  call db.row with ⟨error, hEq⟩ | hEq | hEq
    all_goals
      rw [hEq] at hLocks
      cases hLocks
  | wrongPin call read =>
    simp only [redeemNext] at h
    split at h <;> cases h
    next hFree => exact ⟨.pinUpdate call read, fun _ => Bool.eq_false_iff.mpr hFree⟩
  | pinUpdated call read work =>
    cases h
    exact ⟨.pinCommit call read work, nofun⟩
  | pinCommitted call read =>
    cases h
    exact ⟨.pinRefuse call read _, nofun⟩
  | claiming call read =>
    simp only [redeemNext] at h
    split at h
    · cases h
    · next hFree =>
      split at h <;> cases h
      · next hFound =>
        exact ⟨.claim call read hFound.1 hFound.2, fun _ => Bool.eq_false_iff.mpr hFree⟩
      · exact ⟨.miss call read, fun _ => Bool.eq_false_iff.mpr hFree⟩
  | claimed call read work =>
    cases h
    exact ⟨.serve call read work, nofun⟩
  | unclaimed call read =>
    cases h
    exact ⟨.rollback call read, nofun⟩
  | pinRefused call read error | refused call read error | served call read row => cases h

end

/-! ## What the link promises -/

namespace RedeemPhase

def call : RedeemPhase → RedeemCall
  | .started call | .wrongPin call _ | .pinUpdated call _ _ | .pinCommitted call _
  | .pinRefused call _ _ | .claiming call _ | .claimed call _ _ | .unclaimed call _
  | .refused call _ _ | .served call _ _ => call

/-- The row that the call has read. -/
def read? : RedeemPhase → Option QrToken
  | .started _ => none
  | .wrongPin _ read | .pinUpdated _ read _ | .pinCommitted _ read | .pinRefused _ read _
  | .claiming _ read | .claimed _ read _ | .unclaimed _ read | .served _ read _ => some read
  | .refused _ read _ => read

def isServed : RedeemPhase → Bool
  | .served _ _ _ => true
  | _ => false

/-- The call has committed a wrong PIN. -/
def isCounted : RedeemPhase → Bool
  | .pinCommitted _ _ | .pinRefused _ _ _ => true
  | _ => false

def ended : RedeemPhase → Bool
  | .pinRefused _ _ _ | .refused _ _ _ | .served _ _ _ => true
  | _ => false

end RedeemPhase

/-- The row is neither expired nor locked nor exhausted. -/
structure OpenAt (row : QrToken) (now : Time) : Prop where
  unexpired : ¬ row.expiresAt < now
  unlocked : row.pinFailures < maxPinFailures
  unexhausted : row.downloadCount < row.maxDownloads

/-- `redeem_token` does not change what the link is. -/
structure SameLink (row row' : QrToken) : Prop where
  expiresAt : row'.expiresAt = row.expiresAt
  maxDownloads : row'.maxDownloads = row.maxDownloads
  pinHash : row'.pinHash = row.pinHash

/-- What the calls have got out of the link since `s`. -/
structure GivesNoMore (sha256 : String → String) (s t : QrState) : Prop where
  link : SameLink s.db.row t.db.row
  limit : t.calls.countP RedeemPhase.isServed ≤ t.db.row.maxDownloads
  counted : t.db.row.downloadCount =
    s.db.row.downloadCount + t.calls.countP RedeemPhase.isServed
  failures : t.db.row.pinFailures = s.db.row.pinFailures + t.calls.countP RedeemPhase.isCounted
  served : ∀ phase ∈ t.calls, phase.isServed = true →
    (∃ read ∈ phase.read?, ¬ read.expiresAt < phase.call.now) ∧
    ∀ hash ∈ requiredHash sha256 t.db.row phase.call,
      ∃ pin ∈ phase.call.pin, pin ≠ "" ∧ sha256 pin = hash
  wrong : ∀ phase ∈ t.calls, ∀ read ∈ phase.read?, OpenAt read phase.call.now →
    givesWrongPin sha256 read phase.call = true → phase.ended = true → phase.isCounted = true

/-- A claim after the fifth wrong PIN does not succeed. -/
def LateClaimsFail (sha256 : String → String) (s : QrState) (run : List QrAction) (t : QrState) :
    Prop :=
  ∀ past i rest u call read, run = past ++ .next i :: rest → exec (qrStep sha256) s past = some u →
    u.calls[i]? = some (.claiming call read) → maxPinFailures ≤ u.db.row.pinFailures →
    ∀ phase ∈ t.calls[i]?, phase.isServed = false

/-- A call that fails without a wrong PIN changes nothing at any of its steps. -/
def RefusalsChangeNothing (sha256 : String → String) (s : QrState) (run : List QrAction)
    (t : QrState) : Prop :=
  ∀ past i rest u u', run = past ++ .next i :: rest → exec (qrStep sha256) s past = some u →
    qrStep sha256 u (.next i) = some u' →
    (∃ call read error, t.calls[i]? = some (.refused call read error)) → u'.db = u.db

/-! ## The invariant -/

/-- What a call has found out about the row that it has read. -/
def RedeemPhase.ReadOk (sha256 : String → String) (start : QrToken) : RedeemPhase → Prop
  | .started _ => True
  | .wrongPin call read | .pinUpdated call read _ | .pinCommitted call read
  | .pinRefused call read _ =>
    SameLink start read ∧ OpenAt read call.now ∧ givesWrongPin sha256 read call = true
  | .claiming call read | .claimed call read _ | .unclaimed call read | .served call read _ =>
    SameLink start read ∧ OpenAt read call.now ∧ givesWrongPin sha256 read call = false
  | .refused call read _ => ∀ row ∈ read, SameLink start row ∧
    (OpenAt row call.now → givesWrongPin sha256 row call = false)

/-- What a transaction has written is one change of what is stored. -/
def RedeemPhase.WorkOk (db : QrDb) : RedeemPhase → Prop
  | .pinUpdated _ _ work => work = db.raisePinFailures
  | .claimed _ _ work =>
    work = db.raiseDownloadCount ∧ db.row.downloadCount < db.row.maxDownloads
  | _ => True

structure QrInv (sha256 : String → String) (start : QrToken) (s : QrState) : Prop where
  link : SameLink start s.db.row
  counted : s.db.row.downloadCount = start.downloadCount + s.calls.countP RedeemPhase.isServed
  failures : s.db.row.pinFailures = start.pinFailures + s.calls.countP RedeemPhase.isCounted
  limit : s.calls.countP RedeemPhase.isServed ≠ 0 → s.db.row.downloadCount ≤ s.db.row.maxDownloads
  alone : ∀ (i j : Nat) p q, s.calls[i]? = some p → s.calls[j]? = some q → p.locks = true →
    q.locks = true → i = j
  read : ∀ phase ∈ s.calls, phase.ReadOk sha256 start
  work : ∀ phase ∈ s.calls, phase.WorkOk s.db

variable {calls : List RedeemPhase} {i : Nat}

section

variable {sha256 : String → String} {start : QrToken} {db db' : QrDb} {phase next : RedeemPhase}

theorem SameLink.refl (row : QrToken) : SameLink row row := ⟨rfl, rfl, rfl⟩

theorem SameLink.trans {a b c : QrToken} (h : SameLink a b) (h' : SameLink b c) : SameLink a c :=
  ⟨h'.expiresAt.trans h.expiresAt, h'.maxDownloads.trans h.maxDownloads,
    h'.pinHash.trans h.pinHash⟩

theorem requiredHash_congr {row row' : QrToken} (h : row'.pinHash = row.pinHash)
    (call : RedeemCall) : requiredHash sha256 row' call = requiredHash sha256 row call := by
  unfold requiredHash
  rw [h]

theorem givesWrongPin_eq_false {row : QrToken} {call : RedeemCall} :
    givesWrongPin sha256 row call = false ↔
      ∀ hash ∈ requiredHash sha256 row call, ∃ pin ∈ call.pin, pin ≠ "" ∧ sha256 pin = hash := by
  unfold givesWrongPin
  cases requiredHash sha256 row call with
  | none => simp
  | some hash => simp [pinsMatch, Option.any_eq_true, and_comm]

theorem readOk_checks (hLink : SameLink start db.row) (call : RedeemCall) :
    (redeemChecks sha256 call (some db.row)).ReadOk sha256 start := by
  have hRefused : ¬ OpenAt db.row call.now → ∀ error,
      (RedeemPhase.refused call (some db.row) error).ReadOk sha256 start := by
    intro hClosed error row hRow
    cases hRow
    exact ⟨hLink, fun hOpen => absurd hOpen hClosed⟩
  unfold redeemChecks
  dsimp only
  split
  · next hExpired => exact hRefused (fun hOpen => hOpen.unexpired hExpired) _
  · next hExpires =>
    split
    · next hLocked => exact hRefused (fun hOpen => Nat.not_le.mpr hOpen.unlocked hLocked) _
    · next hUnlocked =>
      split
      · next hFull => exact hRefused (fun hOpen => Nat.not_le.mpr hOpen.unexhausted hFull) _
      · next hLeft =>
        have hOpen : OpenAt db.row call.now :=
          ⟨hExpires, Nat.not_le.mp hUnlocked, Nat.not_le.mp hLeft⟩
        split
        · next hWrong => exact ⟨hLink, hOpen, hWrong⟩
        · next hRight => exact ⟨hLink, hOpen, Bool.eq_false_iff.mpr hRight⟩

theorem readOk_step (hLink : SameLink start db.row) (h : phase.ReadOk sha256 start)
    (hStep : RedeemStep sha256 db phase db' next) : next.ReadOk sha256 start := by
  cases hStep with
  | read call => exact readOk_checks hLink call
  | rollback call read =>
    intro row hRow
    cases hRow
    exact ⟨h.1, fun _ => h.2.2⟩
  | _ => exact h

/-- The counters change with the phases that they count. -/
structure Counts (db db' : QrDb) (phase next : RedeemPhase) : Prop where
  link : SameLink db.row db'.row
  counted : db'.row.downloadCount + phase.isServed.toNat =
    db.row.downloadCount + next.isServed.toNat
  failures : db'.row.pinFailures + phase.isCounted.toNat =
    db.row.pinFailures + next.isCounted.toNat
  limit : phase.isServed ≠ next.isServed → db'.row.downloadCount ≤ db'.row.maxDownloads
  work : next.WorkOk db'
  db : phase.locks = false → db' = db

theorem row_countDownload (call : RedeemCall) (work : QrDb) :
    SameLink work.row (countDownload call work).row ∧
      (countDownload call work).row.downloadCount = work.row.downloadCount ∧
      (countDownload call work).row.pinFailures = work.row.pinFailures := by
  unfold countDownload
  dsimp only
  split
  · exact ⟨⟨rfl, rfl, rfl⟩, rfl, rfl⟩
  · exact ⟨SameLink.refl _, rfl, rfl⟩

/-- A step counts a download when it serves one. -/
theorem counts_step (h : phase.WorkOk db) (hStep : RedeemStep sha256 db phase db' next) :
    Counts db db' phase next := by
  cases hStep with
  | read call =>
    have hPlain : (redeemChecks sha256 call (some db.row)).isServed = false ∧
        (redeemChecks sha256 call (some db.row)).isCounted = false ∧
        (redeemChecks sha256 call (some db.row)).WorkOk db := by
      rcases redeemChecks_cases  call db.row with ⟨error, hEq⟩ | hEq | hEq
      all_goals
        rw [hEq]
        exact ⟨rfl, rfl, trivial⟩
    obtain ⟨hServed, hCounted, hWork⟩ := hPlain
    refine ⟨SameLink.refl _, ?_, ?_, ?_, hWork, fun _ => rfl⟩
    · rw [hServed]
      rfl
    · rw [hCounted]
      rfl
    · exact fun hNe => absurd hServed.symm hNe
  | pinCommit call read work =>
    obtain rfl := h
    exact ⟨⟨rfl, rfl, rfl⟩, rfl, rfl, fun hNe => absurd rfl hNe, trivial, nofun⟩
  | serve call read work =>
    obtain ⟨rfl, hCount⟩ := h
    obtain ⟨hLink, hDownloads, hFailures⟩ := row_countDownload call db.raiseDownloadCount
    refine ⟨⟨hLink.expiresAt, hLink.maxDownloads, hLink.pinHash⟩, ?_, hFailures, fun _ => ?_, trivial, nofun⟩
    · rw [hDownloads]
      rfl
    · rw [hDownloads, hLink.maxDownloads]
      exact hCount
  | claim call read hCount hFailures =>
    exact ⟨SameLink.refl _, rfl, rfl, fun hNe => absurd rfl hNe, ⟨rfl, hCount⟩, fun _ => rfl⟩
  | pinUpdate call read =>
    exact ⟨SameLink.refl _, rfl, rfl, fun hNe => absurd rfl hNe, rfl, fun _ => rfl⟩
  | pinRefuse call read error | miss call read | rollback call read =>
    exact ⟨SameLink.refl _, rfl, rfl, fun hNe => absurd rfl hNe, trivial, fun _ => rfl⟩

theorem countP_set_getElem? (next : RedeemPhase) (p : RedeemPhase → Bool)
    (hPhase : calls[i]? = some phase) :
    (calls.set i next).countP p + (p phase).toNat = calls.countP p + (p next).toNat := by
  obtain ⟨hLt, hGet⟩ := List.getElem?_eq_some_iff.mp hPhase
  have hPos : p phase = true → 0 < calls.countP p := fun hp =>
    countP_pos_iff.mpr ⟨phase, mem_of_getElem? hPhase, hp⟩
  rw [countP_set hLt, hGet]
  cases hOld : p phase with
  | false => cases p next <;> simp
  | true =>
    have := hPos hOld
    cases p next <;> simp <;> omega

/-- A phase without the lock does not depend on what is stored. -/
theorem workOk_of_free (hFree : phase.locks = false) : phase.WorkOk db' := by
  cases phase with
  | pinUpdated call read work | claimed call read work => cases hFree
  | _ => trivial

end

/-! ## Runs -/

variable {next phase : RedeemPhase} {a : QrAction} {run : List QrAction}

section

variable {sha256 : String → String} {start : QrToken} {s t : QrState}

theorem getElem?_set_cases {j : Nat} {p : RedeemPhase}
    (h : (calls.set i next)[j]? = some p) : j = i ∧ p = next ∨ j ≠ i ∧ calls[j]? = some p := by
  by_cases hEq : j = i
  · subst hEq
    obtain ⟨hLt, hGet⟩ := List.getElem?_eq_some_iff.mp h
    rw [getElem_set_self] at hGet
    exact .inl ⟨rfl, hGet.symm⟩
  · rw [List.getElem?_set_ne (Ne.symm hEq)] at h
    exact .inr ⟨hEq, h⟩

/-- A call takes the lock when nobody has it. -/
theorem alone_set (h : ∀ (i j : Nat) p q, calls[i]? = some p → calls[j]? = some q → p.locks = true →
      q.locks = true → i = j)
    (hLocks : next.locks = true → calls.any RedeemPhase.locks = false) (j k : Nat)
    (p q : RedeemPhase) (hp : (calls.set i next)[j]? = some p)
    (hq : (calls.set i next)[k]? = some q) (hpLocks : p.locks = true) (hqLocks : q.locks = true) :
    j = k := by
  have hOther : ∀ (k : Nat) q, calls[k]? = some q → q.locks = true → ¬ next.locks = true := by
    intro k q hq hqLocks hNext
    exact any_eq_false.mp (hLocks hNext) q (mem_of_getElem? hq) hqLocks
  rcases getElem?_set_cases hp with ⟨hj, rfl⟩ | ⟨-, hOldp⟩
  · rcases getElem?_set_cases hq with ⟨hk, -⟩ | ⟨-, hOldq⟩
    · exact hj.trans hk.symm
    · exact absurd hpLocks (hOther k q hOldq hqLocks)
  · rcases getElem?_set_cases hq with ⟨-, rfl⟩ | ⟨-, hOldq⟩
    · exact absurd hqLocks (hOther j p hOldp hpLocks)
    · exact h j k p q hOldp hOldq hpLocks hqLocks

/-- **One step of a call.** -/
theorem inv_next {db' : QrDb} (h : QrInv sha256 start s)
    (hPhase : s.calls[i]? = some phase) (hStep : RedeemStep sha256 s.db phase db' next)
    (hLocks : next.locks = true → s.calls.any RedeemPhase.locks = false) :
    QrInv sha256 start { db := db', calls := s.calls.set i next } := by
  have hMem := mem_of_getElem? hPhase
  have hCounts := counts_step (h.work phase hMem) hStep
  have hServed := countP_set_getElem? next RedeemPhase.isServed hPhase
  have hCounted := countP_set_getElem? next RedeemPhase.isCounted hPhase
  refine ⟨h.link.trans hCounts.link, ?_, ?_, ?_, ?_, ?_, ?_⟩
  · have := hCounts.counted
    have := h.counted
    show db'.row.downloadCount = start.downloadCount + (s.calls.set i next).countP _
    omega
  · have := hCounts.failures
    have := h.failures
    show db'.row.pinFailures = start.pinFailures + (s.calls.set i next).countP _
    omega
  · show (s.calls.set i next).countP _ ≠ 0 → db'.row.downloadCount ≤ db'.row.maxDownloads
    intro hSome
    by_cases hSame : phase.isServed = next.isServed
    · rw [hSame] at hServed
      have hCount := hCounts.counted
      rw [hSame] at hCount
      have hLimit := h.limit (by omega)
      rw [hCounts.link.maxDownloads]
      omega
    · exact hCounts.limit hSame
  · exact alone_set h.alone hLocks
  · intro p hp
    rcases mem_or_eq_of_mem_set hp with hOld | rfl
    · exact h.read p hOld
    · exact readOk_step h.link (h.read phase hMem) hStep
  · intro p hp
    obtain ⟨j, hj⟩ := mem_iff_getElem?.mp hp
    rcases getElem?_set_cases hj with ⟨-, rfl⟩ | ⟨hNe, hOld⟩
    · exact hCounts.work
    · cases hFree : phase.locks with
      | false =>
        rw [show db' = s.db from hCounts.db hFree]
        exact h.work p (mem_of_getElem? hOld)
      | true =>
        -- the one that had the lock was the only one
        refine workOk_of_free (Bool.eq_false_iff.mpr fun hLocked => ?_)
        exact hNe (h.alone j i p phase hOld hPhase hLocked hFree)

/-- A new call has read nothing. -/
theorem inv_call (h : QrInv sha256 start s) (call : RedeemCall) :
    QrInv sha256 start { s with calls := s.calls ++ [.started call] } := by
  have hNew : ∀ (j : Nat) p, (s.calls ++ [RedeemPhase.started call])[j]? = some p →
      p.locks = true → s.calls[j]? = some p := by
    intro j p hp hLocks
    rcases Nat.lt_or_ge j s.calls.length with hLt | hGe
    · rwa [List.getElem?_append_left hLt] at hp
    · rw [List.getElem?_append_right hGe] at hp
      rw [mem_singleton.mp (mem_of_getElem? hp)] at hLocks
      cases hLocks
  refine ⟨h.link, ?_, ?_, ?_, ?_, ?_, ?_⟩
  · rw [h.counted]
    simp [RedeemPhase.isServed]
  · rw [h.failures]
    simp [RedeemPhase.isCounted]
  · intro hSome
    refine h.limit fun hNone => hSome ?_
    simpa [RedeemPhase.isServed] using hNone
  · intro j k p q hp hq hpLocks hqLocks
    exact h.alone j k p q (hNew j p hp hpLocks) (hNew k q hq hqLocks) hpLocks hqLocks
  · intro p hp
    rcases mem_append.mp hp with hOld | hLast
    · exact h.read p hOld
    · rw [mem_singleton.mp hLast]
      trivial
  · intro p hp
    rcases mem_append.mp hp with hOld | hLast
    · exact h.work p hOld
    · rw [mem_singleton.mp hLast]
      trivial

/-- A step of the system is a new call or a step of one. -/
theorem qrStep_cases (h : qrStep sha256 s a = some t) :
    (∃ call, a = .call call ∧ t = { s with calls := s.calls ++ [.started call] }) ∨
    ∃ i phase db' next, a = .next i ∧ s.calls[i]? = some phase ∧
      redeemNext sha256 s.db (s.calls.any RedeemPhase.locks) phase = some (db', next) ∧
      t = { db := db', calls := s.calls.set i next } := by
  cases a with
  | call call => exact .inl ⟨call, rfl, (Option.some.inj h).symm⟩
  | next i =>
    obtain ⟨phase, hPhase, hMap⟩ := Option.bind_eq_some_iff.mp h
    obtain ⟨⟨db', next⟩, hNext, rfl⟩ := Option.map_eq_some_iff.mp hMap
    exact .inr ⟨i, phase, db', next, rfl, hPhase, hNext, rfl⟩

theorem inv_qrStep (h : QrInv sha256 start s) (hStep : qrStep sha256 s a = some t) :
    QrInv sha256 start t := by
  obtain ⟨call, -, rfl⟩ | ⟨i, phase, db', next, -, hPhase, hNext, rfl⟩ := qrStep_cases hStep
  · exact inv_call h call
  · obtain ⟨hDoes, hLocks⟩ := redeemStep_of_next hNext
    exact inv_next h hPhase hDoes hLocks

theorem inv_start (hStart : s.calls = []) : QrInv sha256 s.db.row s := by
  refine ⟨SameLink.refl _, ?_, ?_, ?_, ?_, ?_, ?_⟩ <;> simp [hStart]

/-- A kind of phase that a call does not leave. -/
theorem stays {K : RedeemPhase → Prop}
    (hK : ∀ db db' phase next, K phase → RedeemStep sha256 db phase db' next → K next)
    (hPhase : s.calls[i]? = some phase) (h : K phase) (hRun : exec (qrStep sha256) s run = some t) :
    ∃ last, t.calls[i]? = some last ∧ K last := by
  refine @Lib.invariant_of_exec _ _ _ (fun s => ∃ last, s.calls[i]? = some last ∧ K last)
    ?_ s t run ⟨phase, hPhase, h⟩ hRun
  rintro s a s' ⟨phase, hPhase, h⟩ hStep
  obtain ⟨call, -, rfl⟩ | ⟨j, other, db', next, -, hOther, hNext, rfl⟩ := qrStep_cases hStep
  · obtain ⟨hLt, -⟩ := List.getElem?_eq_some_iff.mp hPhase
    exact ⟨phase, (List.getElem?_append_left hLt).trans hPhase, h⟩
  · by_cases hEq : j = i
    · subst hEq
      obtain rfl := Option.mem_unique hOther hPhase
      refine ⟨next, ?_, hK _ _ _ _ h (redeemStep_of_next hNext).1⟩
      exact List.getElem?_set_self (List.getElem?_eq_some_iff.mp hPhase).1
    · exact ⟨phase, (List.getElem?_set_ne hEq).trans hPhase, h⟩

theorem givesNoMore_of_inv (h : QrInv sha256 s.db.row t) : GivesNoMore sha256 s t where
  link := h.link
  limit := by
    have hCounted := h.counted
    by_cases hNone : t.calls.countP RedeemPhase.isServed = 0
    · omega
    · have := h.limit hNone
      omega
  counted := h.counted
  failures := h.failures
  served := by
    intro phase hMem hServed
    have hRead := h.read phase hMem
    cases phase with
    | served call read row =>
      obtain ⟨hLink, hOpen, hRight⟩ := hRead
      refine ⟨⟨read, rfl, hOpen.unexpired⟩, ?_⟩
      have hHash : t.db.row.pinHash = read.pinHash := h.link.pinHash.trans hLink.pinHash.symm
      rw [requiredHash_congr hHash]
      exact givesWrongPin_eq_false.mp hRight
    | _ => cases hServed
  wrong := by
    intro phase hMem read hRead hOpen hWrong hEnded
    have hOk := h.read phase hMem
    cases phase with
    | pinRefused call row error => rfl
    | refused call row error =>
      have hRight := (hOk read hRead).2 hOpen
      exact absurd hWrong (Bool.eq_false_iff.mp hRight)
    | served call row final =>
      cases hRead
      exact absurd hWrong (Bool.eq_false_iff.mp hOk.2.2)
    | _ => cases hEnded

/-- The state before a step of the run, and the step. -/
theorem exec_at {past rest : List QrAction} {u : QrState}
    (hSplit : run = past ++ a :: rest) (hPast : exec (qrStep sha256) s past = some u)
    (hRun : exec (qrStep sha256) s run = some t) :
    ∃ v, qrStep sha256 u a = some v ∧ exec (qrStep sha256) v rest = some t := by
  rw [hSplit] at hRun
  obtain ⟨u', hPast', hRest⟩ := Lib.exec_append_iff.mp hRun
  obtain rfl := Option.mem_unique hPast hPast'
  exact Lib.exec_cons_iff.mp hRest

/-- A call that has missed its claim. -/
def Missed (phase : RedeemPhase) : Prop :=
  (∃ call read, phase = .unclaimed call read) ∨ ∃ call read error, phase = .refused call read error

theorem missed_step (db db' : QrDb) (phase next : RedeemPhase) (h : Missed phase)
    (hStep : RedeemStep sha256 db phase db' next) : Missed next := by
  cases hStep with
  | rollback call read => exact .inr ⟨call, some read, _, rfl⟩
  | _ => rcases h with ⟨_, _, hEq⟩ | ⟨_, _, _, hEq⟩ <;> cases hEq

theorem lateClaimsFail (hRun : exec (qrStep sha256) s run = some t) :
    LateClaimsFail sha256 s run t := by
  intro past i rest u call read hSplit hPast hPhase hLate phase hLast
  obtain ⟨v, hStep, hRest⟩ := exec_at hSplit hPast hRun
  obtain ⟨_, hEq, -⟩ | ⟨j, other, db', next, hEq, hOther, hNext, rfl⟩ := qrStep_cases hStep
  · cases hEq
  · cases hEq
    obtain rfl := Option.mem_unique hPhase hOther
    have hMissed : next = .unclaimed call read := by
      simp only [redeemNext] at hNext
      split at hNext
      · cases hNext
      · rw [if_neg fun hFound => Nat.not_le.mpr hFound.2 hLate] at hNext
        exact (congrArg Prod.snd (Option.some.inj hNext)).symm
    have hAt : (u.calls.set i next)[i]? = some next :=
      List.getElem?_set_self (List.getElem?_eq_some_iff.mp hOther).1
    obtain ⟨last, hSome, hKind⟩ := stays (fun db db' => missed_step db db') hAt
      (.inl ⟨call, read, hMissed⟩) hRest
    obtain rfl := Option.mem_unique hSome hLast
    rcases hKind with ⟨_, _, rfl⟩ | ⟨_, _, _, rfl⟩ <;> rfl

/-- A call that has committed something. -/
def Committed (phase : RedeemPhase) : Prop := phase.isCounted = true ∨ phase.isServed = true

theorem committed_step (db db' : QrDb) (phase next : RedeemPhase) (h : Committed phase)
    (hStep : RedeemStep sha256 db phase db' next) : Committed next := by
  cases hStep with
  | pinCommit call read work | pinRefuse call read error => exact .inl rfl
  | serve call read work => exact .inr rfl
  | _ => rcases h with hCounted | hServed <;> contradiction

theorem committed_of_change {db db' : QrDb}
    (hStep : RedeemStep sha256 db phase db' next) (hNe : db' ≠ db) : Committed next := by
  cases hStep with
  | pinCommit call read work => exact .inl rfl
  | serve call read work => exact .inr rfl
  | _ => exact absurd rfl hNe

theorem refusalsChangeNothing
    (hRun : exec (qrStep sha256) s run = some t) : RefusalsChangeNothing sha256 s run t := by
  rintro past i rest u u' hSplit hPast hStep ⟨call, read, error, hLast⟩
  by_contra hNe
  obtain ⟨v, hStep', hRest⟩ := exec_at hSplit hPast hRun
  obtain rfl := Option.mem_unique hStep hStep'
  obtain ⟨_, hEq, -⟩ | ⟨j, phase, db', next, hEq, hPhase, hNext, rfl⟩ := qrStep_cases hStep
  · cases hEq
  · cases hEq
    have hAt : (u.calls.set i next)[i]? = some next :=
      List.getElem?_set_self (List.getElem?_eq_some_iff.mp hPhase).1
    have hCommitted := committed_of_change (redeemStep_of_next hNext).1 hNe
    obtain ⟨last, hSome, hKind⟩ := stays (fun db db' => committed_step db db') hAt hCommitted hRest
    obtain rfl := Option.mem_unique hSome hLast
    rcases hKind with hCounted | hServed
    · cases hCounted
    · cases hServed

/-- Whatever the calls are and however their steps interleave, the link gives no more than it
promises. -/
theorem link_gives_no_more {run : List QrAction} (hStart : s.calls = [])
    (hRun : exec (qrStep sha256) s run = some t) :
    GivesNoMore sha256 s t ∧ LateClaimsFail sha256 s run t ∧
      RefusalsChangeNothing sha256 s run t := by
  have hInv : QrInv sha256 s.db.row t :=
    Lib.invariant_of_exec (fun _ _ _ h hStep => inv_qrStep h hStep) (inv_start hStart) hRun
  exact ⟨givesNoMore_of_inv hInv, lateClaimsFail hRun, refusalsChangeNothing hRun⟩

/-- A link for one download behind a PIN. `sha256` of the example only marks its text. -/
def pinnedLink : QrState where
  db := { row := { expiresAt := 600, maxDownloads := 1, pinHash := some "#4321" } }

/-- Two calls with the PIN and one without it, all of which read the row before any claim. -/
def threeCalls : List QrAction :=
  [.call ⟨some "4321", "", 10, none⟩, .call ⟨some "4321", "", 10, none⟩,
    .call ⟨some "0000", "", 10, none⟩, .next 0, .next 1, .next 2, .next 0, .next 0, .next 2,
    .next 2, .next 1, .next 1, .next 2]

theorem three_calls_one_download :
    ∃ t, exec (qrStep ("#" ++ ·)) pinnedLink threeCalls = some t ∧
      GivesNoMore ("#" ++ ·) pinnedLink t ∧ LateClaimsFail ("#" ++ ·) pinnedLink threeCalls t ∧
      RefusalsChangeNothing ("#" ++ ·) pinnedLink threeCalls t :=
  ⟨_, rfl, link_gives_no_more rfl rfl⟩

end

end AdminPanel.Portal
