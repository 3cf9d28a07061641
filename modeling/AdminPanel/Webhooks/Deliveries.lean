import Mathlib.Data.List.Sort
import AdminPanel.Auth.RefreshTokens
import AdminPanel.Lib.Runs

/-!
# Webhook deliveries

`process_pending_deliveries` takes the deliveries that are due, oldest first, sends them one by
one and commits what it has recorded once for the whole batch; an exception in one of them rolls
the batch back. A message that cannot be built raises, a message that cannot be sent does not.

* `formatMessage`, `deliverRow` — the message of a delivery and what came of it;
* `sendRows`, `WebhookState.processPending` — one turn of the worker;
* `Stage` — how far a delivery is, given its recorded sends;
* `Settled` — what the recorded turns do with every delivery, and `deliveries_settled`: it holds
  of every run;
* `deliveries_not_alone` — a receiver's 404 counts as delivered, and a delivery that raises makes
  the worker send another one again.
-/

namespace AdminPanel.Webhooks

open List

open Access (Time timedeltaDays)
open Auth (timedeltaSeconds)
open Lib (exec outputs)

/-! ## Messages -/

/-- A value of `json`, without fractions: the panel stores none. -/
inductive Json
  | null
  | bool (b : Bool)
  | num (n : Int)
  | str (s : String)
  | arr (items : List Json)
  | obj (fields : List (String × Json))

/-- What the messages are built with: `json`, `str` and HMAC-SHA256 in hex. -/
structure Codec where
  loads : String → Except String Json
  dumps : Json → String
  str : Json → String
  hmac : String → String → String

/-- `if value`. -/
def Json.truthy : Json → Bool
  | .null => false
  | .bool b => b
  | .num n => n != 0
  | .str s => s != ""
  | .arr items => !items.isEmpty
  | .obj fields => !fields.isEmpty

/-- `fields.get(key)`, if it is true. -/
def getTruthy (fields : List (String × Json)) (key : String) : Option Json :=
  (fields.lookup key).filter Json.truthy

/-- `.replace("|", "\\|")` -/
def escapeBars (s : String) : String :=
  String.ofList (s.toList.flatMap fun c => if c = '|' then ['\\', '|'] else [c])

def cefMessage (codec : Codec) (fields : List (String × Json)) : String :=
  let action :=
    (((getTruthy fields "event.action").or (getTruthy fields "event")).map codec.str).getD "audit"
  let src := ((getTruthy fields "source.ip").map codec.str).getD "unknown"
  let user := ((getTruthy fields "user.name").map codec.str).getD "unknown"
  let msg := escapeBars (((getTruthy fields "message").map codec.str).getD action)
  "CEF:0|AdminPanelAZ|AdminPanel|1.0|" ++ action ++ "|" ++ msg ++ "|5|src=" ++ src ++
    " suser=" ++ user ++ " msg=" ++ msg

def formatMessage (codec : Codec) (payload : Json) (fmt : String) : Except String String :=
  if fmt = "cef" then
    match payload with
    | .obj fields => .ok (cefMessage codec fields)
    | _ => .error "AttributeError"
  else .ok (codec.dumps payload)

inductive DeliveryStatus
  | pending
  | delivered
  | failed
  deriving DecidableEq, Repr

/-- A row of `webhook_delivery`. -/
structure WebhookDelivery where
  id : Nat
  payloadJson : String := "{}"
  url : String
  destinationType : String := "http"
  status : DeliveryStatus := .pending
  attempts : Nat := 0
  lastStatusCode : Option Nat := none
  lastError : Option String := none
  nextRetryAt : Option Time := none
  createdAt : Time
  deliveredAt : Option Time := none
  deriving DecidableEq, Repr

structure Secrets where
  webhook : String := ""
  auditStream : String := ""
  deriving DecidableEq, Repr

inductive HttpReply
  | response (statusCode : Nat) (text : String)
  /-- Any exception of the HTTP client. -/
  | error (text : String)
  deriving DecidableEq, Repr

/-- What came of sending a message. -/
inductive Reply
  | http (reply : HttpReply)
  /-- The error of `send_syslog`, if there is one. -/
  | syslog (error : Option String)
  deriving DecidableEq, Repr

inductive Message
  | post (url body : String) (signature : Option String)
  | syslog (destination message : String)
  deriving DecidableEq, Repr

/-- One call of `process_pending_deliveries` with its readings of the clock. By a delivery's number
it has what reading the secrets gave for it and what its receiver did. -/
structure Turn where
  now : Time
  limit : Int := 20
  secret : String := ""
  secrets : Nat → Except String Secrets := fun _ => .ok {}
  http : Nat → HttpReply := fun _ => .response 200 ""
  syslog : Nat → Option String := fun _ => none
  clock : Nat → Time
  purgeClock : Time

/-- `row.payload_json or "{}"` -/
def WebhookDelivery.payload (row : WebhookDelivery) : String :=
  if row.payloadJson = "" then "{}" else row.payloadJson

/-- The payload and the format of an envelope. -/
def envelope? : Json → Option (Json × Json)
  | .obj fields => (fields.lookup "payload").bind fun payload =>
      (fields.lookup "format").map fun fmt => (payload, fmt)
  | _ => none

def deliveryBodyAndSecret (codec : Codec) (secrets : Except String Secrets)
    (row : WebhookDelivery) : Except String (String × String) := do
  let raw ← codec.loads row.payload
  match envelope? raw with
  | some (payload, fmt) =>
    let message ← formatMessage codec payload (codec.str fmt)
    let secrets ← secrets
    return (message, secrets.auditStream)
  | none =>
    let secrets ← secrets
    return (row.payload, secrets.webhook)

def syslogMessage (codec : Codec) (row : WebhookDelivery) : Except String String := do
  let raw ← codec.loads row.payload
  match raw with
  | .obj fields =>
    match fields.lookup "payload" with
    | some payload => formatMessage codec payload (((fields.lookup "format").map codec.str).getD "json")
    | none => return row.payload
  | _ => return row.payload

def signPayload (codec : Codec) (secret body : String) : Option String :=
  if secret = "" then none else some ("sha256=" ++ codec.hmac secret body)

/-- `_deliver_row` up to its result: the message that was sent and what came of it. -/
def deliverRow (codec : Codec) (turn : Turn) (row : WebhookDelivery) :
    Except String (Message × Reply) :=
  if (if row.destinationType = "" then "http" else row.destinationType) = "syslog" then do
    let message ← syslogMessage codec row
    return (.syslog row.url message, .syslog (turn.syslog row.id))
  else do
    let (body, rowSecret) ← deliveryBodyAndSecret codec (turn.secrets row.id) row
    let secret := if rowSecret = "" then turn.secret else rowSecret
    return (.post row.url body (signPayload codec secret body), .http (turn.http row.id))

/-- What `_deliver_row` returns. -/
structure Outcome where
  ok : Bool
  statusCode : Option Nat := none
  error : Option String := none
  deriving DecidableEq, Repr

def postOnce : HttpReply → Outcome
  | .response statusCode text =>
    if 200 ≤ statusCode ∧ statusCode < 300 then ⟨true, some statusCode, none⟩
    else if 500 ≤ statusCode then
      ⟨false, some statusCode, some (String.ofList (text.toList.take 500))⟩
    else ⟨true, some statusCode, none⟩
  | .error text => ⟨false, none, some text⟩

def Reply.outcome : Reply → Outcome
  | .http reply => postOnce reply
  | .syslog error => ⟨error.isNone, if error.isNone then some 200 else none, error⟩

/-- The receiver answered with 2xx, or syslog took the message. -/
def Reply.accepted : Reply → Bool
  | .http (.response statusCode _) => decide (200 ≤ statusCode ∧ statusCode < 300)
  | .http (.error _) => false
  | .syslog error => error.isNone

/-- The receiver answered with a status below 500, or syslog took the message. -/
def Reply.taken : Reply → Bool
  | .http (.response statusCode _) => decide (statusCode < 500)
  | .http (.error _) => false
  | .syslog error => error.isNone

/-- What counts as a success for the worker. -/
theorem Reply.ok_outcome (reply : Reply) : reply.outcome.ok = reply.taken := by
  rcases reply with (⟨statusCode, text⟩ | text) | error
  · show (postOnce (.response statusCode text)).ok = decide (statusCode < 500)
    by_cases hOk : 200 ≤ statusCode ∧ statusCode < 300
    · rw [postOnce, if_pos hOk, decide_eq_true (by omega)]
    · rw [postOnce, if_neg hOk]
      by_cases hError : 500 ≤ statusCode
      · rw [if_pos hError, decide_eq_false (by omega)]
      · rw [if_neg hError, decide_eq_true (by omega)]
  · rfl
  · rfl

/-! ## A turn of the worker -/

structure WebhookConfig where
  eventWebhookMaxAttempts : Int := 5
  eventWebhookRetryIntervalSeconds : Int := 60
  deriving DecidableEq, Repr

def WebhookConfig.maxAttempts (config : WebhookConfig) : Nat :=
  (max 1 config.eventWebhookMaxAttempts).toNat

def WebhookConfig.retryInterval (config : WebhookConfig) : Int :=
  max 5 config.eventWebhookRetryIntervalSeconds

theorem WebhookConfig.maxAttempts_pos (config : WebhookConfig) : 0 < config.maxAttempts := by
  have hLe : (1 : Int) ≤ max 1 config.eventWebhookMaxAttempts := le_max_left _ _
  rw [WebhookConfig.maxAttempts]
  omega

/-- What the loop writes into a row. -/
def recordOutcome (config : WebhookConfig) (now : Time) (row : WebhookDelivery)
    (outcome : Outcome) : WebhookDelivery :=
  let row := { row with
    attempts := row.attempts + 1
    lastStatusCode := outcome.statusCode
    lastError := outcome.error }
  if outcome.ok then { row with status := .delivered, deliveredAt := some now }
  else if config.maxAttempts ≤ row.attempts then { row with status := .failed }
  else { row with nextRetryAt := some (now + timedeltaSeconds config.retryInterval) }

/-- A message on the wire; `recorded` says that the turn that sent it was committed. -/
structure Sent where
  id : Nat
  message : Message
  reply : Reply
  recorded : Bool := false
  deriving DecidableEq, Repr

/-- The loop over the rows: what it has sent, and the rows as it leaves them unless one of them
has raised. -/
def sendRows (codec : Codec) (config : WebhookConfig) (turn : Turn) :
    List WebhookDelivery → List Sent × Option (List WebhookDelivery)
  | [] => ([], some [])
  | row :: rest =>
    match deliverRow codec turn row with
    | .error _ => ([], none)
    | .ok (message, reply) =>
      let (sent, done) := sendRows codec config turn rest
      (⟨row.id, message, reply, false⟩ :: sent,
        done.map (recordOutcome config (turn.clock row.id) row reply.outcome :: ·))

def WebhookDelivery.due (now : Time) (row : WebhookDelivery) : Bool :=
  row.status = .pending && row.nextRetryAt.any (· ≤ now)

/-- `ORDER BY created_at LIMIT limit`; a negative limit is none. -/
def dueRows (turn : Turn) (table : List WebhookDelivery) : List WebhookDelivery :=
  let rows := (table.filter (·.due turn.now)).insertionSort fun a b => a.createdAt ≤ b.createdAt
  if turn.limit < 0 then rows else rows.take turn.limit.toNat

/-- The `UPDATE`s of a commit. -/
def commitRows (done table : List WebhookDelivery) : List WebhookDelivery :=
  table.map fun row => (done.find? (·.id == row.id)).getD row

def purgeDelivered (now : Time) (table : List WebhookDelivery) : List WebhookDelivery :=
  table.filter fun row =>
    !(row.status = .delivered && row.deliveredAt.any (· < now - timedeltaDays 7))

/-- The table, the number for the next delivery, and all that was sent. -/
structure WebhookState where
  table : List WebhookDelivery := []
  queued : Nat := 0
  log : List Sent := []
  deriving DecidableEq, Repr

def WebhookState.processPending (codec : Codec) (config : WebhookConfig) (turn : Turn)
    (s : WebhookState) : WebhookState :=
  match sendRows codec config turn (dueRows turn s.table) with
  | (sent, none) => { s with log := s.log ++ sent }
  | (sent, some done) => { s with
      table := purgeDelivered turn.purgeClock (commitRows done s.table)
      log := s.log ++ sent.map fun sent => { sent with recorded := true } }

inductive WebhookAction
  /-- The panel queues a payload. -/
  | enqueue (payload : Json) (url destinationType : String) (now createdAt : Time)
  | turn (turn : Turn)

def webhookStep (codec : Codec) (config : WebhookConfig) (s : WebhookState) :
    WebhookAction → Option WebhookState
  | .enqueue payload url destinationType now createdAt => some { s with
      table := s.table ++ [{
        id := s.queued
        payloadJson := codec.dumps payload
        url := url
        destinationType := destinationType
        nextRetryAt := some now
        createdAt := createdAt }]
      queued := s.queued + 1 }
  | .turn turn => some (s.processPending codec config turn)

/-! ## What a run must keep -/

/-- A delivery as the start of a run has it; one that is queued later starts as pending. -/
structure Entry where
  status : DeliveryStatus := .pending
  attempts : Nat := 0
  deriving DecidableEq, Repr

def entry (s : WebhookState) (id : Nat) : Entry :=
  ((s.table.find? (·.id == id)).map fun row => ⟨row.status, row.attempts⟩).getD {}

/-- The sends that a delivery has left. -/
def budget (config : WebhookConfig) (s : WebhookState) (id : Nat) : Nat :=
  if (entry s id).status = .pending then config.maxAttempts - (entry s id).attempts else 0

def Sent.recordedFor (id : Nat) (sent : Sent) : Bool := sent.id == id && sent.recorded

/-- The recorded sends of a delivery. -/
def recordedSends (log : List Sent) (id : Nat) : List Sent := log.filter (·.recordedFor id)

/-- The numbers of the deliveries that a step takes up. -/
def takenUp (s : WebhookState) : WebhookAction → List Nat
  | .enqueue _ _ _ _ _ => []
  | .turn turn => (dueRows turn s.table).map (·.id)

section

variable (codec : Codec) (config : WebhookConfig)

/-- Every delivery of a run is handled on its own. -/
structure HandledAlone (s : WebhookState) (run : List WebhookAction) (t : WebhookState) :
    Prop where
  bounded : ∀ id, (t.log.filter (·.id == id)).length ≤ budget config s id
  once : t.log.Pairwise fun sent later => sent.reply.accepted = true → later.id ≠ sent.id
  marked : ∀ row ∈ t.table, row.status = .delivered →
    (entry s row.id).status = .delivered ∨
      ∃ sent ∈ t.log, sent.id = row.id ∧ sent.reply.accepted = true
  /-- After its turns a delivery that was never accepted has failed. -/
  givesUp : ∀ row ∈ t.table, (entry s row.id).status = .pending →
    budget config s row.id ≤
      (outputs (webhookStep codec config) takenUp s run).count row.id →
    (∀ sent ∈ t.log, sent.id = row.id → sent.reply.accepted = false) → row.status = .failed
  /-- In its turn a delivery whose message can be built is sent and recorded. -/
  isolated : ∀ past turn rest u u', run = past ++ .turn turn :: rest →
    exec (webhookStep codec config) s past = some u →
    webhookStep codec config u (.turn turn) = some u' →
    ∀ row ∈ dueRows turn u.table, ∀ message reply,
      deliverRow codec turn row = .ok (message, reply) →
      ⟨row.id, message, reply, true⟩ ∈ u'.log ∧
        ∀ row' ∈ u'.table, row'.id = row.id →
          row' = recordOutcome config (turn.clock row.id) row reply.outcome

/-- What the turns that are recorded do with every delivery of a run. -/
structure Settled (s : WebhookState) (run : List WebhookAction) (t : WebhookState) : Prop where
  bounded : ∀ id, (recordedSends t.log id).length ≤ budget config s id
  /-- Once it was taken it is not sent again, in no turn. -/
  once : t.log.Pairwise fun sent later =>
    sent.recorded = true → sent.reply.taken = true → later.id ≠ sent.id
  marked : ∀ row ∈ t.table, row.status = .delivered →
    (entry s row.id).status = .delivered ∨
      ∃ sent ∈ recordedSends t.log row.id, sent.reply.taken = true
  /-- It has failed when it has no send left and none was taken. -/
  failed : ∀ row ∈ t.table, (entry s row.id).status = .pending →
    (row.status = .failed ↔ budget config s row.id ≤ (recordedSends t.log row.id).length ∧
      ∀ sent ∈ recordedSends t.log row.id, sent.reply.taken = false)
  /-- A turn in which every message can be built sends and records every delivery it takes up. -/
  recorded : ∀ past turn rest u u', run = past ++ .turn turn :: rest →
    exec (webhookStep codec config) s past = some u →
    webhookStep codec config u (.turn turn) = some u' →
    (∀ row ∈ dueRows turn u.table, (deliverRow codec turn row).isOk = true) →
    ∀ row ∈ dueRows turn u.table, ∃ message reply,
      deliverRow codec turn row = .ok (message, reply) ∧
        recordedSends u'.log row.id =
          recordedSends u.log row.id ++ [⟨row.id, message, reply, true⟩] ∧
        ∀ row' ∈ u'.table, row'.id = row.id →
          row' = recordOutcome config (turn.clock row.id) row reply.outcome

end

/-- A table as the panel leaves it: numbers are given once, a delivery that has used its attempts
is not pending. -/
structure WebhookStart (config : WebhookConfig) (s : WebhookState) : Prop where
  nodup : (s.table.map (·.id)).Nodup
  queued : ∀ row ∈ s.table, row.id < s.queued
  attempts : ∀ row ∈ s.table, row.status = .pending → row.attempts < config.maxAttempts
  log : s.log = []

/-! ## How far a delivery is -/

/-- Status and attempts of a delivery with the given recorded sends, oldest first. -/
inductive Stage (config : WebhookConfig) (start : Entry) : List Sent → DeliveryStatus → Nat → Prop
  /-- It was finished at the start. -/
  | kept (hStatus : start.status ≠ .pending) : Stage config start [] start.status start.attempts
  | pending (sends : List Sent) (hStatus : start.status = .pending)
      (hTaken : ∀ sent ∈ sends, sent.reply.taken = false)
      (hLeft : start.attempts + sends.length < config.maxAttempts) :
      Stage config start sends .pending (start.attempts + sends.length)
  | failed (sends : List Sent) (hStatus : start.status = .pending)
      (hTaken : ∀ sent ∈ sends, sent.reply.taken = false)
      (hLeft : start.attempts + sends.length = config.maxAttempts) :
      Stage config start sends .failed (start.attempts + sends.length)
  | delivered (sends : List Sent) (last : Sent) (hStatus : start.status = .pending)
      (hTaken : last.reply.taken = true)
      (hLeft : start.attempts + sends.length < config.maxAttempts) :
      Stage config start (sends ++ [last]) .delivered (start.attempts + (sends.length + 1))

variable {row : WebhookDelivery} {turn : Turn} {table rows done : List WebhookDelivery}
  {sent : List Sent}

section

variable {codec : Codec} {config : WebhookConfig} {start : Entry} {sends : List Sent}
  {status : DeliveryStatus} {attempts : Nat} {s u u' t : WebhookState}

theorem Stage.length_le (h : Stage config start sends status attempts) :
    sends.length ≤ if start.status = .pending then config.maxAttempts - start.attempts else 0 := by
  cases h with
  | kept hStatus => exact Nat.zero_le _
  | pending _ hStatus hTaken hLeft | failed _ hStatus hTaken hLeft =>
    rw [if_pos hStatus]
    omega
  | delivered sends last hStatus hTaken hLeft =>
    rw [if_pos hStatus, length_append, length_singleton]
    omega

/-- A delivery that was taken is delivered. -/
theorem Stage.delivered_of_taken (h : Stage config start sends status attempts) {sent : Sent}
    (hMem : sent ∈ sends) (hTaken : sent.reply.taken = true) : status = .delivered := by
  have hNone : (∀ sent ∈ sends, sent.reply.taken = false) → status = .delivered := by
    intro hFalse
    rw [hFalse sent hMem] at hTaken
    cases hTaken
  cases h with
  | kept hStatus => exact absurd hMem not_mem_nil
  | pending _ hStatus hFalse hLeft | failed _ hStatus hFalse hLeft => exact hNone hFalse
  | delivered => rfl

theorem Stage.taken_of_delivered (h : Stage config start sends .delivered attempts) :
    start.status = .delivered ∨ ∃ sent ∈ sends, sent.reply.taken = true := by
  generalize hEq : DeliveryStatus.delivered = status at h
  cases h with
  | kept hStatus => exact Or.inl rfl
  | pending | failed => cases hEq
  | delivered sends last hStatus hTaken hLeft =>
    exact Or.inr ⟨last, mem_append_right _ mem_cons_self, hTaken⟩

theorem Stage.failed_iff (h : Stage config start sends status attempts)
    (hStart : start.status = .pending) :
    status = .failed ↔ config.maxAttempts - start.attempts ≤ sends.length ∧
      ∀ sent ∈ sends, sent.reply.taken = false := by
  cases h with
  | kept hStatus => exact absurd hStart hStatus
  | pending _ hStatus hTaken hLeft =>
    refine iff_of_false nofun ?_
    rintro ⟨hLe, -⟩
    omega
  | failed _ hStatus hTaken hLeft => exact iff_of_true rfl ⟨by omega, hTaken⟩
  | delivered sends last hStatus hTaken hLeft =>
    refine iff_of_false nofun ?_
    rintro ⟨-, hFalse⟩
    rw [hFalse last (mem_append_right _ mem_cons_self)] at hTaken
    cases hTaken

/-- What the loop makes of a pending delivery. -/
theorem Stage.record (now : Time) (sent : Sent)
    (h : Stage config start sends row.status row.attempts) (hPending : row.status = .pending) :
    Stage config start (sends ++ [sent]) (recordOutcome config now row sent.reply.outcome).status
      (recordOutcome config now row sent.reply.outcome).attempts := by
  have hOk := sent.reply.ok_outcome
  obtain ⟨hStatus, hNone, hAttempts, hLeft⟩ : start.status = .pending ∧
      (∀ sent ∈ sends, sent.reply.taken = false) ∧
      row.attempts = start.attempts + sends.length ∧
      start.attempts + sends.length < config.maxAttempts := by
    generalize row.status = status, row.attempts = attempts at h hPending
    subst hPending
    generalize hEq : DeliveryStatus.pending = status at h
    cases h with
    | kept hStatus => exact absurd hEq.symm hStatus
    | pending _ hStatus hTaken hLeft => exact ⟨hStatus, hTaken, rfl, hLeft⟩
    | failed | delivered => cases hEq
  cases hTaken : sent.reply.taken with
  | true =>
    rw [recordOutcome, if_pos (hOk.trans hTaken)]
    show Stage config start _ .delivered (row.attempts + 1)
    rw [hAttempts]
    exact Stage.delivered sends sent hStatus hTaken hLeft
  | false =>
    have hFalse : ¬sent.reply.outcome.ok = true := by
      rw [hOk, hTaken]
      exact Bool.false_ne_true
    have hAll : ∀ other ∈ sends ++ [sent], other.reply.taken = false := by
      intro other hMem
      rcases mem_append.mp hMem with hOld | hNew
      · exact hNone other hOld
      · rwa [mem_singleton.mp hNew]
    have hLength : (sends ++ [sent]).length = sends.length + 1 := length_append
    rw [recordOutcome, if_neg hFalse]
    by_cases hLast : config.maxAttempts ≤ row.attempts + 1
    · rw [if_pos hLast]
      show Stage config start _ .failed (row.attempts + 1)
      rw [hAttempts, Nat.add_assoc, ← hLength]
      exact Stage.failed _ hStatus hAll (by omega)
    · rw [if_neg hLast]
      show Stage config start _ row.status (row.attempts + 1)
      rw [hPending, hAttempts, Nat.add_assoc, ← hLength]
      exact Stage.pending _ hStatus hAll (by omega)

/-! ## The loop over the rows -/

@[simp] theorem recordOutcome_id {now : Time} {outcome : Outcome} :
    (recordOutcome config now row outcome).id = row.id := by
  rw [recordOutcome]
  split_ifs <;> rfl

theorem mem_dueRows (h : row ∈ dueRows turn table) : row ∈ table ∧ row.status = .pending := by
  have hSorted : row ∈ (table.filter (·.due turn.now)).insertionSort
      fun a b => a.createdAt ≤ b.createdAt := by
    rw [dueRows] at h
    split_ifs at h
    · exact h
    · exact mem_of_mem_take h
  obtain ⟨hMem, hDue⟩ := mem_filter.mp ((perm_insertionSort _ _).mem_iff.mp hSorted)
  rw [WebhookDelivery.due, Bool.and_eq_true, decide_eq_true_eq] at hDue
  exact ⟨hMem, hDue.1⟩

theorem nodup_dueRows (turn : Turn)
    (h : (table.map (·.id)).Nodup) : ((dueRows turn table).map (·.id)).Nodup := by
  have hSorted : (((table.filter (·.due turn.now)).insertionSort
      fun a b => a.createdAt ≤ b.createdAt).map (·.id)).Nodup :=
    ((perm_insertionSort _ _).map _).nodup_iff.mpr (h.sublist (filter_sublist.map _))
  rw [dueRows]
  split_ifs
  · exact hSorted
  · exact hSorted.sublist ((take_sublist _ _).map _)

theorem sendRows_sublist (codec : Codec) (config : WebhookConfig) (turn : Turn) (rows : List WebhookDelivery) :
    ((sendRows codec config turn rows).1.map (·.id)).Sublist (rows.map (·.id)) := by
  induction rows with
  | nil => exact List.Sublist.refl _
  | cons row rest ih =>
    cases hDeliver : deliverRow codec turn row with
    | error e => simp [sendRows, hDeliver]
    | ok result => simpa [sendRows, hDeliver] using ih

theorem sendRows_unrecorded (codec : Codec) (config : WebhookConfig) (turn : Turn) (rows : List WebhookDelivery) :
    ∀ sent ∈ (sendRows codec config turn rows).1, sent.recorded = false := by
  induction rows with
  | nil => exact fun sent hMem => absurd hMem not_mem_nil
  | cons row rest ih =>
    cases hDeliver : deliverRow codec turn row with
    | error e => simp [sendRows, hDeliver]
    | ok result => simpa [sendRows, hDeliver] using ih

theorem sendRows_ids (h : sendRows codec config turn rows = (sent, some done)) :
    sent.map (·.id) = rows.map (·.id) ∧ done.map (·.id) = rows.map (·.id) := by
  induction rows generalizing sent done with
  | nil =>
    obtain ⟨rfl, hDone⟩ := Prod.mk.inj h
    cases hDone
    exact ⟨rfl, rfl⟩
  | cons row rest ih =>
    cases hDeliver : deliverRow codec turn row with
    | error e => simp [sendRows, hDeliver] at h
    | ok result =>
      obtain ⟨more, hMore⟩ : ∃ more, sendRows codec config turn rest = more := ⟨_, rfl⟩
      obtain ⟨others, _ | rows'⟩ := more
      · simp [sendRows, hDeliver, hMore] at h
      · simp only [sendRows, hDeliver, hMore, Option.map_some, Prod.mk.injEq,
          Option.some.injEq] at h
        obtain ⟨rfl, rfl⟩ := h
        obtain ⟨hSent, hDone⟩ := ih hMore
        exact ⟨by rw [map_cons, map_cons, hSent],
          by rw [map_cons, map_cons, hDone, recordOutcome_id]⟩

/-- A batch that comes through has sent and recorded each of its rows. -/
theorem sendRows_of_mem (h : sendRows codec config turn rows = (sent, some done))
    (hNodup : (rows.map (·.id)).Nodup) (hRow : row ∈ rows) :
    ∃ message reply, deliverRow codec turn row = .ok (message, reply) ∧
      sent.filter (·.id == row.id) = [⟨row.id, message, reply, false⟩] ∧
      done.find? (·.id == row.id) =
        some (recordOutcome config (turn.clock row.id) row reply.outcome) := by
  induction rows generalizing sent done with
  | nil => exact absurd hRow not_mem_nil
  | cons head rest ih =>
    cases hDeliver : deliverRow codec turn head with
    | error e => simp [sendRows, hDeliver] at h
    | ok result =>
      obtain ⟨more, hMore⟩ : ∃ more, sendRows codec config turn rest = more := ⟨_, rfl⟩
      obtain ⟨others, _ | rows'⟩ := more
      · simp [sendRows, hDeliver, hMore] at h
      simp only [sendRows, hDeliver, hMore, Option.map_some, Prod.mk.injEq,
        Option.some.injEq] at h
      obtain ⟨rfl, rfl⟩ := h
      obtain ⟨hHead, hRest⟩ := nodup_cons.mp hNodup
      obtain ⟨hSentIds, -⟩ := sendRows_ids hMore
      rcases mem_cons.mp hRow with rfl | hMem
      · have hOthers : others.filter (·.id == row.id) = [] := by
          rw [filter_eq_nil_iff]
          intro sent hSent hEq
          rw [← hSentIds] at hHead
          exact hHead (mem_map.mpr ⟨sent, hSent, eq_of_beq hEq⟩)
        refine ⟨result.1, result.2, hDeliver, ?_, ?_⟩
        · rw [filter_cons, if_pos (beq_self_eq_true row.id), hOthers]
        · rw [List.find?_cons_of_pos (by rw [recordOutcome_id]; exact beq_self_eq_true row.id)]
      · obtain ⟨message, reply, hOk, hFilter, hFind⟩ := ih hMore hRest hMem
        have hNe : (head.id == row.id) = false := by
          refine beq_eq_false_iff_ne.mpr fun hEq => hHead ?_
          exact mem_map.mpr ⟨row, hMem, hEq.symm⟩
        refine ⟨message, reply, hOk, ?_, ?_⟩
        · rwa [filter_cons_of_neg (by rw [hNe]; exact Bool.false_ne_true)]
        · rwa [List.find?_cons_of_neg
            (by rw [recordOutcome_id, hNe]; exact Bool.false_ne_true)]

/-- It comes through when each of the messages can be built. -/
theorem sendRows_isSome (config : WebhookConfig)
    (h : ∀ row ∈ rows, (deliverRow codec turn row).isOk = true) :
    ∃ sent done, sendRows codec config turn rows = (sent, some done) := by
  induction rows with
  | nil => exact ⟨[], [], rfl⟩
  | cons row rest ih =>
    obtain ⟨sent, done, hMore⟩ := ih fun other hMem => h other (mem_cons_of_mem _ hMem)
    have hHead := h row mem_cons_self
    cases hDeliver : deliverRow codec turn row with
    | error e =>
      rw [hDeliver] at hHead
      cases hHead
    | ok result =>
      simp only [sendRows, hDeliver, hMore, Option.map_some]
      exact ⟨_, _, rfl⟩

/-! ## The table and the log after a turn -/

theorem id_of_find {id : Nat} {found : WebhookDelivery}
    (h : rows.find? (·.id == id) = some found) : found.id = id := by
  have hEq := List.find?_some h
  exact eq_of_beq hEq

theorem id_getD_find (done : List WebhookDelivery) (row : WebhookDelivery) :
    ((done.find? (·.id == row.id)).getD row).id = row.id := by
  cases hFind : done.find? (·.id == row.id) with
  | none => rfl
  | some found => exact id_of_find hFind

theorem map_id_commitRows (done table : List WebhookDelivery) :
    (commitRows done table).map (·.id) = table.map (·.id) := by
  rw [commitRows, map_map]
  exact map_congr_left fun row _ => id_getD_find done row

/-- A row after a commit is the one of the batch with its number, or as it was. -/
theorem mem_commitRows {row' : WebhookDelivery} (h : row' ∈ commitRows done table) :
    ∃ row ∈ table, row.id = row'.id ∧ row' = (done.find? (·.id == row'.id)).getD row := by
  obtain ⟨row, hRow, rfl⟩ := mem_map.mp h
  have hId := id_getD_find done row
  exact ⟨row, hRow, hId.symm, by rw [hId]⟩

theorem sublist_purge (now : Time) (table : List WebhookDelivery) :
    (purgeDelivered now table).Sublist table :=
  filter_sublist

theorem recordedSends_append (log sent : List Sent) (id : Nat) :
    recordedSends (log ++ sent) id = recordedSends log id ++ recordedSends sent id :=
  filter_append _ _

theorem recordedSends_unrecorded (h : ∀ x ∈ sent, x.recorded = false)
    (id : Nat) : recordedSends sent id = [] := by
  refine filter_eq_nil_iff.mpr fun x hMem hFor => ?_
  rw [Sent.recordedFor, h x hMem, Bool.and_false] at hFor
  cases hFor

/-- The sends of a turn that is committed. -/
def markRecorded (sent : List Sent) : List Sent := sent.map fun x => { x with recorded := true }

theorem recordedSends_mark (sent : List Sent) (id : Nat) :
    recordedSends (markRecorded sent) id = markRecorded (sent.filter (·.id == id)) := by
  rw [recordedSends, markRecorded, filter_map, markRecorded]
  refine congrArg _ (filter_congr fun x _ => ?_)
  show (x.id == id && true) = (x.id == id)
  rw [Bool.and_true]

theorem map_id_mark (sent : List Sent) : (markRecorded sent).map (·.id) = sent.map (·.id) := by
  rw [markRecorded, map_map]
  rfl

/-- What a turn does. -/
inductive TurnDoes (codec : Codec) (config : WebhookConfig) (turn : Turn) (s : WebhookState) :
    WebhookState → Prop
  | raised (sent : List Sent)
      (hSend : sendRows codec config turn (dueRows turn s.table) = (sent, none)) :
      TurnDoes codec config turn s { s with log := s.log ++ sent }
  | committed (sent : List Sent) (done : List WebhookDelivery)
      (hSend : sendRows codec config turn (dueRows turn s.table) = (sent, some done)) :
      TurnDoes codec config turn s { s with
        table := purgeDelivered turn.purgeClock (commitRows done s.table)
        log := s.log ++ markRecorded sent }

theorem turnDoes (codec : Codec) (config : WebhookConfig) (turn : Turn) (s : WebhookState) :
    TurnDoes codec config turn s (s.processPending codec config turn) := by
  obtain ⟨result, hSend⟩ : ∃ result,
    sendRows codec config turn (dueRows turn s.table) = result := ⟨_, rfl⟩
  rw [WebhookState.processPending, hSend]
  obtain ⟨sent, _ | done⟩ := result
  · exact TurnDoes.raised sent hSend
  · exact TurnDoes.committed sent done hSend

/-! ## The invariant -/

/-- `u` is reached from `s`. -/
structure WebhookInv (config : WebhookConfig) (s u : WebhookState) : Prop where
  nodup : (u.table.map (·.id)).Nodup
  fresh : s.queued ≤ u.queued
  queued : ∀ row ∈ u.table, row.id < u.queued
  logged : ∀ sent ∈ u.log, sent.id < u.queued
  once : u.log.Pairwise fun sent later =>
    sent.recorded = true → sent.reply.taken = true → later.id ≠ sent.id
  stages : ∀ id, ∃ status attempts,
    Stage config (entry s id) (recordedSends u.log id) status attempts ∧
      ∀ row ∈ u.table, row.id = id → row.status = status ∧ row.attempts = attempts

theorem WebhookInv.stage (h : WebhookInv config s u) (hRow : row ∈ u.table) :
    Stage config (entry s row.id) (recordedSends u.log row.id) row.status row.attempts := by
  obtain ⟨status, attempts, hStage, hRows⟩ := h.stages row.id
  obtain ⟨rfl, rfl⟩ := hRows row hRow rfl
  exact hStage

theorem entry_of_queued (h : WebhookStart config s) {id : Nat} (hNew : s.queued ≤ id) :
    entry s id = {} := by
  have hNone : s.table.find? (·.id == id) = none := by
    refine List.find?_eq_none.mpr fun row hMem hEq => ?_
    have := h.queued row hMem
    have := eq_of_beq hEq
    omega
  rw [entry, hNone]
  rfl

theorem entry_of_mem (h : WebhookStart config s) (hRow : row ∈ s.table) :
    entry s row.id = ⟨row.status, row.attempts⟩ := by
  have hFind : s.table.find? (·.id == row.id) = some row := by
    cases hFind : s.table.find? (·.id == row.id) with
    | none => exact absurd (beq_self_eq_true row.id) (List.find?_eq_none.mp hFind row hRow)
    | some found =>
      exact congrArg some
        (inj_on_of_nodup_map h.nodup (mem_of_find?_eq_some hFind) hRow
          (id_of_find hFind))
  rw [entry, hFind]
  rfl

/-- A delivery that was taken in a recorded turn is not taken up. -/
theorem taken_not_due (h : WebhookInv config s u) {sent : Sent}
    (hSent : sent ∈ u.log) (hRecorded : sent.recorded = true) (hTaken : sent.reply.taken = true)
    (hRow : row ∈ dueRows turn u.table) : row.id ≠ sent.id := by
  intro hEq
  obtain ⟨hMem, hPending⟩ := mem_dueRows hRow
  have hFor : sent ∈ recordedSends u.log row.id := by
    refine mem_filter.mpr ⟨hSent, ?_⟩
    rw [Sent.recordedFor, hRecorded, hEq, beq_self_eq_true]
    rfl
  have hDelivered := (h.stage hMem).delivered_of_taken hFor hTaken
  rw [hPending] at hDelivered
  cases hDelivered

theorem once_append (h : WebhookInv config s u)
    (hIds : (sent.map (·.id)).Sublist ((dueRows turn u.table).map (·.id))) :
    (u.log ++ sent).Pairwise fun sent later =>
      sent.recorded = true → sent.reply.taken = true → later.id ≠ sent.id := by
  refine pairwise_append.mpr ⟨h.once, ?_, ?_⟩
  · have hNodup := (nodup_dueRows turn h.nodup).sublist hIds
    exact (pairwise_map.mp hNodup).imp fun hNe _ _ hEq => hNe hEq.symm
  · intro old hOld new hNew hRecorded hTaken
    obtain ⟨row, hRow, hEq⟩ := mem_map.mp (hIds.subset (mem_map_of_mem hNew))
    rw [← hEq]
    exact taken_not_due h hOld hRecorded hTaken hRow

theorem logged_append (h : WebhookInv config s u)
    (hIds : (sent.map (·.id)).Sublist ((dueRows turn u.table).map (·.id))) :
    ∀ x ∈ u.log ++ sent, x.id < u.queued := by
  intro x hMem
  rcases mem_append.mp hMem with hOld | hNew
  · exact h.logged x hOld
  · obtain ⟨row, hRow, hEq⟩ := mem_map.mp (hIds.subset (mem_map_of_mem hNew))
    rw [← hEq]
    exact h.queued row (mem_dueRows hRow).1

/-- What a committed turn leaves of one delivery. -/
theorem stage_committed (h : WebhookInv config s u)
    (hSend : sendRows codec config turn (dueRows turn u.table) = (sent, some done)) (id : Nat) :
    ∃ status attempts,
      Stage config (entry s id) (recordedSends (u.log ++ markRecorded sent) id) status attempts ∧
        ∀ row ∈ commitRows done u.table, row.id = id →
          row.status = status ∧ row.attempts = attempts := by
  obtain ⟨hSentIds, hDoneIds⟩ := sendRows_ids hSend
  rw [recordedSends_append, recordedSends_mark]
  by_cases hDue : id ∈ (dueRows turn u.table).map (·.id)
  · obtain ⟨row, hRow, rfl⟩ := mem_map.mp hDue
    obtain ⟨hMem, hPending⟩ := mem_dueRows hRow
    obtain ⟨message, reply, -, hFilter, hFind⟩ :=
      sendRows_of_mem hSend (nodup_dueRows turn h.nodup) hRow
    rw [hFilter]
    refine ⟨_, _, Stage.record (turn.clock row.id) ⟨row.id, message, reply, true⟩
      (h.stage hMem) hPending, ?_⟩
    intro row' hRow' hEq
    obtain ⟨old, -, -, hRow'Eq⟩ := mem_commitRows hRow'
    rw [hEq, hFind] at hRow'Eq
    rw [hRow'Eq]
    exact ⟨rfl, rfl⟩
  · have hNoSent : sent.filter (·.id == id) = [] := by
      refine filter_eq_nil_iff.mpr fun x hMem hEq => hDue ?_
      rw [← hSentIds]
      exact mem_map.mpr ⟨x, hMem, eq_of_beq hEq⟩
    obtain ⟨status, attempts, hStage, hRows⟩ := h.stages id
    rw [hNoSent]
    refine ⟨status, attempts, by rwa [markRecorded, map_nil, append_nil], ?_⟩
    intro row' hRow' hEq
    obtain ⟨old, hOld, hId, hRow'Eq⟩ := mem_commitRows hRow'
    have hNone : done.find? (·.id == row'.id) = none := by
      refine List.find?_eq_none.mpr fun found hFound hFoundEq => hDue ?_
      rw [← hDoneIds]
      exact mem_map.mpr ⟨found, hFound, (eq_of_beq hFoundEq).trans hEq⟩
    rw [hNone] at hRow'Eq
    rw [hRow'Eq]
    exact hRows old hOld (hId.trans hEq)

/-- **One turn of the sender.** -/
theorem turn_inv (h : WebhookInv config s u) (turn : Turn) :
    WebhookInv config s (u.processPending codec config turn) := by
  have hDoes := turnDoes codec config turn u
  generalize u.processPending codec config turn = v at hDoes
  cases hDoes with
  | raised sent hSend =>
    have hIds := sendRows_sublist codec config turn (dueRows turn u.table)
    have hUnrecorded := sendRows_unrecorded codec config turn (dueRows turn u.table)
    rw [hSend] at hIds hUnrecorded
    refine ⟨h.nodup, h.fresh, h.queued, logged_append h hIds, once_append h hIds, ?_⟩
    intro id
    rw [recordedSends_append, recordedSends_unrecorded hUnrecorded, append_nil]
    exact h.stages id
  | committed sent done hSend =>
    have hIds : ((markRecorded sent).map (·.id)).Sublist ((dueRows turn u.table).map (·.id)) := by
      rw [map_id_mark, (sendRows_ids hSend).1]
    have hTable : ∀ row ∈ purgeDelivered turn.purgeClock (commitRows done u.table),
        row ∈ commitRows done u.table :=
      fun row hRow => (sublist_purge _ _).subset hRow
    refine ⟨?_, h.fresh, ?_, logged_append h hIds, once_append h hIds, ?_⟩
    · refine List.Nodup.sublist ((sublist_purge _ _).map _) ?_
      rw [map_id_commitRows]
      exact h.nodup
    · intro row hRow
      obtain ⟨old, hOld, hId, -⟩ := mem_commitRows (hTable row hRow)
      rw [← hId]
      exact h.queued old hOld
    · intro id
      obtain ⟨status, attempts, hStage, hRows⟩ := stage_committed h hSend id
      exact ⟨status, attempts, hStage, fun row hRow => hRows row (hTable row hRow)⟩

/-- A new row is pending and has not been sent. -/
theorem enqueue_inv (hStart : WebhookStart config s) (h : WebhookInv config s u)
    (hId : row.id = u.queued) (hStatus : row.status = .pending) (hAttempts : row.attempts = 0) :
    WebhookInv config s { u with table := u.table ++ [row], queued := u.queued + 1 } := by
  refine ⟨?_, ?_, ?_, ?_, h.once, ?_⟩
  · rw [map_append]
    refine h.nodup.append (nodup_singleton _) ?_
    intro id hOld hNew
    obtain ⟨old, hMem, rfl⟩ := mem_map.mp hOld
    have hLt := h.queued old hMem
    have hEq : old.id = row.id := mem_singleton.mp hNew
    omega
  · show s.queued ≤ u.queued + 1
    have := h.fresh
    omega
  · intro row' hMem
    show row'.id < u.queued + 1
    rcases mem_append.mp hMem with hOld | hNew
    · have := h.queued row' hOld
      omega
    · rw [mem_singleton.mp hNew]
      omega
  · intro sent hSent
    show sent.id < u.queued + 1
    have := h.logged sent hSent
    omega
  · intro id
    by_cases hNew : id = u.queued
    · subst hNew
      have hNone : recordedSends u.log u.queued = [] := by
        refine filter_eq_nil_iff.mpr fun sent hSent hFor => ?_
        have hLt := h.logged sent hSent
        rw [Sent.recordedFor, Bool.and_eq_true, beq_iff_eq] at hFor
        omega
      refine ⟨.pending, 0, ?_, ?_⟩
      · show Stage config (entry s u.queued) (recordedSends u.log u.queued) .pending 0
        rw [entry_of_queued hStart h.fresh, hNone]
        exact Stage.pending [] rfl (fun _ hMem => absurd hMem not_mem_nil)
          config.maxAttempts_pos
      · intro row' hMem hEq
        rcases mem_append.mp hMem with hOld | hLast
        · have := h.queued row' hOld
          omega
        · rw [mem_singleton.mp hLast]
          exact ⟨hStatus, hAttempts⟩
    · obtain ⟨status, attempts, hStage, hRows⟩ := h.stages id
      refine ⟨status, attempts, hStage, fun row' hMem hEq => ?_⟩
      rcases mem_append.mp hMem with hOld | hLast
      · exact hRows row' hOld hEq
      · rw [mem_singleton.mp hLast] at hEq
        exact absurd (hEq.symm.trans hId) hNew

theorem webhookInv_step (hStart : WebhookStart config s) (h : WebhookInv config s u)
    {a : WebhookAction} (hStep : webhookStep codec config u a = some u') :
    WebhookInv config s u' := by
  cases a with
  | enqueue payload url destinationType now createdAt =>
    cases hStep
    exact enqueue_inv hStart h rfl rfl rfl
  | turn turn =>
    cases hStep
    exact turn_inv h turn

theorem webhookInv_start (hStart : WebhookStart config s) : WebhookInv config s s where
  nodup := hStart.nodup
  fresh := Nat.le_refl _
  queued := hStart.queued
  logged := by
    rw [hStart.log]
    exact fun sent hMem => absurd hMem not_mem_nil
  once := by
    rw [hStart.log]
    exact List.Pairwise.nil
  stages := by
    intro id
    rw [hStart.log]
    cases hFind : s.table.find? (·.id == id) with
    | none =>
      have hEntry : entry s id = {} := by
        rw [entry, hFind]
        rfl
      refine ⟨.pending, 0, ?_, fun row hRow hEq => ?_⟩
      · rw [hEntry]
        exact Stage.pending [] rfl (fun _ hMem => absurd hMem not_mem_nil)
          config.maxAttempts_pos
      · exact absurd (beq_iff_eq.mpr hEq) (List.find?_eq_none.mp hFind row hRow)
    | some found =>
      have hMem := mem_of_find?_eq_some hFind
      obtain rfl := id_of_find hFind
      refine ⟨found.status, found.attempts, ?_, fun row hRow hEq => ?_⟩
      · rw [entry_of_mem hStart hMem]
        by_cases hPending : found.status = .pending
        · rw [hPending]
          exact Stage.pending [] rfl (fun _ hNil => absurd hNil not_mem_nil)
            (hStart.attempts found hMem hPending)
        · exact Stage.kept hPending
      · obtain rfl := inj_on_of_nodup_map hStart.nodup hRow hMem hEq
        exact ⟨rfl, rfl⟩

/-! ## Runs -/

/-- A turn in which no delivery raises. -/
theorem turn_records (h : WebhookInv config s u)
    (hBuilt : ∀ row ∈ dueRows turn u.table, (deliverRow codec turn row).isOk = true)
    (hRow : row ∈ dueRows turn u.table) :
    ∃ message reply, deliverRow codec turn row = .ok (message, reply) ∧
      recordedSends (u.processPending codec config turn).log row.id =
        recordedSends u.log row.id ++ [⟨row.id, message, reply, true⟩] ∧
      ∀ row' ∈ (u.processPending codec config turn).table, row'.id = row.id →
        row' = recordOutcome config (turn.clock row.id) row reply.outcome := by
  obtain ⟨sent, done, hSend⟩ := sendRows_isSome config hBuilt
  obtain ⟨message, reply, hOk, hFilter, hFind⟩ :=
    sendRows_of_mem hSend (nodup_dueRows turn h.nodup) hRow
  rw [WebhookState.processPending, hSend]
  refine ⟨message, reply, hOk, ?_, ?_⟩
  · show recordedSends (u.log ++ markRecorded sent) row.id = _
    rw [recordedSends_append, recordedSends_mark, hFilter]
    rfl
  · intro row' hMem hEq
    obtain ⟨old, -, -, hRow'Eq⟩ := mem_commitRows ((sublist_purge _ _).subset hMem)
    rw [hEq, hFind] at hRow'Eq
    exact hRow'Eq

/-- Every run leaves every delivery settled as the recorded turns have it. -/
theorem deliveries_settled {run : List WebhookAction} (hStart : WebhookStart config s)
    (hRun : exec (webhookStep codec config) s run = some t) :
    Settled codec config s run t := by
  have hReach : ∀ {past u}, exec (webhookStep codec config) s past = some u →
      WebhookInv config s u := fun hPast =>
    Lib.invariant_of_exec (fun _ _ _ h hStep => webhookInv_step hStart h hStep)
      (webhookInv_start hStart) hPast
  have hInv := hReach hRun
  refine ⟨?_, hInv.once, ?_, ?_, ?_⟩
  · intro id
    obtain ⟨status, attempts, hStage, -⟩ := hInv.stages id
    exact hStage.length_le
  · intro row hRow hStatus
    have hStage := hInv.stage hRow
    rw [hStatus] at hStage
    exact hStage.taken_of_delivered
  · intro row hRow hPending
    rw [budget, if_pos hPending]
    exact (hInv.stage hRow).failed_iff hPending
  · rintro past turn rest u u' rfl hPast hStep hBuilt row hRow
    cases hStep
    exact turn_records (hReach hPast) hBuilt hRow

end

def loginPayload : Json := .obj [("event", .str "login_success")]

/-- A codec for the payload of a login. -/
def loginCodec : Codec where
  loads := fun _ => .ok loginPayload
  dumps := fun _ => "\x7b\"event\": \"login_success\"\x7d"
  str := fun value => match value with
    | .str s => s
    | _ => ""
  hmac := fun _ _ => "00"

def twoAttempts : WebhookConfig := { eventWebhookMaxAttempts := 2 }

def queueLogin (url : String) (now : Time) : WebhookAction :=
  .enqueue loginPayload url "http" now now

/-- A turn at the given time, with the answer to each delivery. -/
def turnAt (now : Time) (http : Nat → HttpReply) : Turn where
  now := now
  http := http
  clock := fun _ => now
  purgeClock := now

/-- One receiver answers, the other one does not. -/
def oneUnreachable (id : Nat) : HttpReply :=
  if id = 0 then .response 200 "" else .error "Connection refused"

def twoTurns : List WebhookAction :=
  [queueLogin "https://a.example/hook" 0, queueLogin "https://b.example/hook" 1,
    .turn (turnAt 2 oneUnreachable), .turn (turnAt (timedeltaSeconds 61) oneUnreachable)]

theorem two_turns_settled :
    ∃ t, exec (webhookStep loginCodec twoAttempts) {} twoTurns = some t ∧
      t.table.map (·.status) = [.delivered, .failed] ∧
      Settled loginCodec twoAttempts {} twoTurns t := by
  have hStart : WebhookStart twoAttempts {} :=
    ⟨nodup_nil, by decide, by decide, rfl⟩
  exact ⟨_, rfl, by decide, deliveries_settled hStart rfl⟩

/-- The receiver does not know the address. -/
def notFound : List WebhookAction :=
  [queueLogin "https://a.example/old" 0, .turn (turnAt 1 fun _ => .response 404 "Not Found")]

/-- Reading the secret for the second delivery raises. -/
def lockedTurn (now : Time) : Turn :=
  { turnAt now fun _ => .response 200 "" with
    secrets := fun id => if id = 1 then .error "database is locked" else .ok {} }

def raisingBatch : List WebhookAction :=
  [queueLogin "https://a.example/hook" 0, queueLogin "https://b.example/hook" 1,
    .turn (lockedTurn 2), .turn (lockedTurn 3)]

theorem deliveries_not_alone :
    WebhookStart twoAttempts {} ∧
    (∃ t, exec (webhookStep loginCodec twoAttempts) {} notFound = some t ∧
      ¬HandledAlone loginCodec twoAttempts {} notFound t) ∧
    ∃ t, exec (webhookStep loginCodec twoAttempts) {} raisingBatch = some t ∧
      ¬HandledAlone loginCodec twoAttempts {} raisingBatch t := by
  refine ⟨⟨nodup_nil, by decide, by decide, rfl⟩, ⟨_, rfl, ?_⟩, ⟨_, rfl, ?_⟩⟩
  · intro h
    have hMarked := h.marked
    revert hMarked
    decide
  · intro h
    have hOnce := h.once
    revert hOnce
    decide

end AdminPanel.Webhooks
