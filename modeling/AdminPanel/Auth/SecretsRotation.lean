import AdminPanel.Auth.RefreshTokens
import AdminPanel.Lib.Procedure
import AdminPanel.Panel.Database
import AdminPanel.Panel.EnvFile

/-!
# Rotating `SECRET_KEY`

`SecretsRotationService.apply` writes the new key into the env file, re-encrypts the secrets of
every node and user in one session, ends all web sessions and commits. Each of these may raise;
an exception at a field ends the loop over its row and the next row follows.

* `Cipher` — `encrypt_secret` and `decrypt_secret`;
* `Panel.secretKey` — the key that the settings find in the env file;
* `applySecretKey` — the call, with `Failures` for what may go wrong in it;
* `reencryptFields_apply` — what is left of a row when its loop ends;
* `apply_cases` — the three ways the call leaves the panel;
* `RotationSafe` — which fields are re-encrypted, and which key the file is read as then;
* `rotation_keeps_readable_iff` — the calls that keep every readable field readable;
* `rotation_loses_secrets` — three calls that do not.
-/

namespace AdminPanel.Auth

open List Function

open Lib (Procedure)
open Lib.Procedure (perform perform_map raiseIf)
open Lib.PyText (strip strip_strip isLineBreak isSpace_of_strip_eq_nil)
open Access (Time)
open Panel (stripped)
open Panel.EnvFile (EnvKey File NotIndented setEnvText fileValue?
  fileValue?_setEnvText_iff)

/-! ## Encryption -/

/-- Text encryption under a key. A text is readable under one key at most. -/
structure Cipher where
  encryptSecret : String → String → String
  decryptSecret : String → String → Option String
  decrypt_encrypt : ∀ plain key, decryptSecret (encryptSecret plain key) key = some plain
  key_unique : ∀ {text key key' plain plain'}, decryptSecret text key = some plain →
    decryptSecret text key' = some plain' → key = key'
  blank_damaged : ∀ {text} key, stripped text = "" → decryptSecret text key = none

namespace Cipher

/-- What a column holds, read under the key. -/
def plain? (cipher : Cipher) (key : String) (column : Option String) : Option String :=
  column.bind fun encrypted => cipher.decryptSecret encrypted key

end Cipher

/-! ## Rows -/

/-- `_NODE_ENCRYPTED_FIELDS` -/
inductive NodeField
  | apiKeyEncrypted
  | apiKeyPendingEncrypted
  | sshPrivateKeyEncrypted
  | sshPassphraseEncrypted
  deriving DecidableEq, Repr

def nodeEncryptedFields : List NodeField :=
  [.apiKeyEncrypted, .apiKeyPendingEncrypted, .sshPrivateKeyEncrypted, .sshPassphraseEncrypted]

inductive TotpField
  | totpSecretEncrypted
  | totpBackupCodesEncrypted
  deriving DecidableEq, Repr

structure Node where
  id : Nat
  secret : NodeField → Option String

structure User where
  id : Nat
  tokenVersion : Option Nat
  totp : TotpField → Option String

structure Db where
  nodes : List Node
  users : List User
  refreshTokens : List RefreshToken

/-- The env file and the committed rows. -/
structure Panel where
  envFile : File
  db : Db

def secretKeyName : EnvKey := ⟨"SECRET_KEY".toList, by decide, by decide⟩

/-- The key in the env file: `settingsKey` is what `get_settings` makes of a file. -/
def Panel.secretKey (settingsKey : File → String) (panel : Panel) : String :=
  settingsKey panel.envFile

/-- `set_env_value("SECRET_KEY", newKey)` -/
def Panel.writtenFile (panel : Panel) (newKey : String) : File :=
  setEnvText secretKeyName newKey.toList panel.envFile

/-! ## Re-encryption -/

/-- What goes wrong at one field although its text is in order. -/
structure FieldFailure where
  decrypt : Bool := false
  encrypt : Bool := false

/-- One turn of the loop over the fields of a row: `none` when it raises. -/
def reencrypt? (cipher : Cipher) (oldKey newKey : String) (fails : FieldFailure)
    (encrypted : String) : Option String :=
  if fails.decrypt then none
  else (cipher.decryptSecret encrypted oldKey).bind fun plain =>
    if fails.encrypt then none else some (cipher.encryptSecret plain newKey)

section

variable {F : Type} [DecidableEq F]

/-- The loop over the fields: whether it came to its end, and the row. -/
def reencryptFields (turn : F → String → Option String) :
    List F → (F → Option String) → Bool × (F → Option String)
  | [], row => (true, row)
  | field :: rest, row =>
    match turn field ((row field).getD "") with
    | some encrypted => reencryptFields turn rest (update row field (some encrypted))
    | none => (false, row)

end

/-- The fields of a node that the loop works on. -/
def Node.fields (node : Node) : List NodeField :=
  nodeEncryptedFields.filter fun field => stripped ((node.secret field).getD "") ≠ ""

def User.fields (user : User) : List TotpField :=
  [.totpSecretEncrypted, .totpBackupCodesEncrypted].filter fun field =>
    (user.totp field).getD "" ≠ ""

structure RotationStats where
  nodes : Nat
  totpUsers : Nat
  errors : Nat
  deriving DecidableEq, Repr

/-- Everything that can raise in one call; fields by the id of their row. -/
structure Failures where
  envWrite : Bool := false
  nodesQuery : Bool := false
  nodeField : Nat → NodeField → FieldFailure := fun _ _ => {}
  usersQuery : Bool := false
  totpField : Nat → TotpField → FieldFailure := fun _ _ => {}
  invalidate : Bool := false
  commit : Bool := false

section

variable (cipher : Cipher) (fails : Failures) (oldKey newKey : String)

def nodeTurn (node : Node) (field : NodeField) : String → Option String :=
  reencrypt? cipher oldKey newKey (fails.nodeField node.id field)

def totpTurn (user : User) (field : TotpField) : String → Option String :=
  reencrypt? cipher oldKey newKey (fails.totpField user.id field)

def reencryptNode (node : Node) : Bool × (NodeField → Option String) :=
  reencryptFields (nodeTurn cipher fails oldKey newKey node) node.fields node.secret

def reencryptUser (user : User) : Bool × (TotpField → Option String) :=
  reencryptFields (totpTurn cipher fails oldKey newKey user) user.fields user.totp

/-- The rows as the session has them behind the two loops; a row whose loop raised keeps what
was assigned before. -/
def reencryptedDb (db : Db) : Db :=
  { db with
    nodes := db.nodes.map fun node =>
      { node with secret := (reencryptNode cipher fails oldKey newKey node).2 }
    users := db.users.map fun user =>
      { user with totp := (reencryptUser cipher fails oldKey newKey user).2 } }

/-- The stats of the two loops, which pass over a row without fields. -/
def reencryptStats (db : Db) : RotationStats :=
  let nodes := db.nodes.filter fun node => node.fields ≠ []
  let users := db.users.filter fun user => user.fields ≠ []
  { nodes := nodes.countP fun node => (reencryptNode cipher fails oldKey newKey node).1
    totpUsers := users.countP fun user => (reencryptUser cipher fails oldKey newKey user).1
    errors := nodes.countP (fun node => !(reencryptNode cipher fails oldKey newKey node).1) +
      users.countP (fun user => !(reencryptUser cipher fails oldKey newKey user).1) }

end

/-- `invalidate_user_sessions` for every user, uncommitted. -/
def invalidateAllSessions (now : Time) (db : Db) : Db :=
  { db with
    users := db.users.map fun user =>
      { user with tokenVersion := some (user.tokenVersion.getD 0 + 1) }
    refreshTokens := db.users.foldl
      (fun rows user => revokeAllUserTokens user.id .secretKeyRotation now rows)
      db.refreshTokens }

/-! ## The call -/

def confirmPhrase : String := "ROTATE"

def defaultSecretKey : String := "change-me-in-production-use-long-random-string"

inductive Raised
  | valueError (text : String)
  | typeError
  | osError
  | databaseError
  deriving DecidableEq, Repr

/-- `_validate_value`: what it raises. -/
def validateValue (production : Bool) (value : String) : Option Raised :=
  let value := stripped value
  if value = "" then some (.valueError "Значение не может быть пустым")
  else if production = true ∧ (value = defaultSecretKey ∨ value.length < 32) then
    some (.valueError "SECRET_KEY: минимум 32 символа в production")
  else if production = false ∧ value.length < 16 then
    some (.valueError "SECRET_KEY: минимум 16 символов")
  else none

def isAscii (s : String) : Bool := s.toList.all fun c => c.toNat < 128

/-- A request and what it meets. `previewError?` is `_verify_preview_token` on the token, the
new value and the signing key. -/
structure RotationCall where
  newValue : String
  previewToken : String
  confirm : String
  isProduction : Bool
  previewError? : String → String → String → Option String
  now : Time
  fails : Failures

/-- `current and hmac.compare_digest(current, new_value)`, which takes ASCII text only. -/
def sameValue (current newValue : String) : Option Raised :=
  if current = "" then none
  else if !(isAscii current && isAscii newValue) then some .typeError
  else if current = newValue then some (.valueError "Новое значение совпадает с текущим")
  else none

/-- `new_value` behind its first assignment. -/
def RotationCall.newKey (call : RotationCall) : String := stripped call.newValue

/-- What the checks of `apply` raise. -/
def RotationCall.rejection? (call : RotationCall) (current : String) : Option Raised :=
  if stripped call.confirm ≠ confirmPhrase then
    some (.valueError "Для подтверждения введите \"ROTATE\"")
  else match validateValue call.isProduction call.newKey with
    | some e => some e
    | none =>
      match call.previewError? call.previewToken call.newKey current with
      | some text => some (.valueError text)
      | none => sameValue current call.newKey

/-- `os.environ` does not take the key. -/
def environRejects (newKey : String) : Bool := newKey.toList.contains '\x00'

structure RotationResult where
  message : String
  requiresRelogin : Bool
  nextSteps : List String
  reencryptStats : RotationStats

/-- `apply(db, "secret_key", ...)` -/
def applySecretKey (settingsKey : File → String) (cipher : Cipher) (call : RotationCall) :
    Procedure Raised Panel RotationResult := do
  let panel ← get
  let oldKey := panel.secretKey settingsKey
  match call.rejection? oldKey with
  | some e => throw e
  | none => do
    raiseIf call.fails.envWrite .osError
    modify fun panel => { panel with envFile := panel.writtenFile call.newKey }
    -- `os.environ["SECRET_KEY"] = new_value`
    raiseIf (environRejects call.newKey) (.valueError "embedded null byte")
    -- the loops change the session only, so they have no effect when something raises below
    raiseIf call.fails.nodesQuery .databaseError
    raiseIf call.fails.usersQuery .databaseError
    raiseIf call.fails.invalidate .databaseError
    raiseIf call.fails.commit .databaseError
    modify fun panel =>
      { panel with
        db := invalidateAllSessions call.now
          (reencryptedDb cipher call.fails oldKey call.newKey panel.db) }
    return {
      message := "SECRET_KEY (JWT) успешно обновлён"
      requiresRelogin := true
      nextSteps := ["Все пользователи должны войти заново.",
        "Перезапустите панель (sudo systemctl restart adminpanelaz)."]
      reencryptStats := reencryptStats cipher call.fails oldKey call.newKey panel.db }

/-! ## One row -/

/-- What was readable under the old key reads the same under the new one. -/
def RowKeeps {F : Type} (cipher : Cipher) (oldKey newKey : String)
    (before after : F → Option String) : Prop :=
  ∀ field plain, cipher.plain? oldKey (before field) = some plain →
    cipher.plain? newKey (after field) = some plain

section

variable {F : Type} {turn : F → String → Option String} {row : F → Option String}
  {fields : List F}

/-- The turn at the field does not raise. -/
def turnEnds (turn : F → String → Option String) (row : F → Option String) (field : F) : Bool :=
  (turn field ((row field).getD "")).isSome

/-- The fields before the first one at which the loop raises. -/
def reencrypted (turn : F → String → Option String) (row : F → Option String)
    (fields : List F) : List F :=
  fields.takeWhile (turnEnds turn row)

/-- The fields from the first on at which the loop raises. -/
def leftBehind (turn : F → String → Option String) (row : F → Option String)
    (fields : List F) : List F :=
  fields.dropWhile (turnEnds turn row)

/-- A field that is re-encrypted could not be read, or the env file is read as the new key; one
that is left behind could not be read, or the env file is still read as the old key. -/
def FieldsSafe (cipher : Cipher) (turn : F → String → Option String)
    (oldKey newKey nextKey : String) (row : F → Option String) (fields : List F) : Prop :=
  (∀ field ∈ reencrypted turn row fields,
    cipher.plain? oldKey (row field) = none ∨ nextKey = newKey) ∧
  ∀ field ∈ leftBehind turn row fields,
    cipher.plain? oldKey (row field) = none ∨ nextKey = oldKey

variable [DecidableEq F]

theorem takeWhile_turnEnds_update {field : F} (value : Option String) (h : field ∉ fields) :
    fields.takeWhile (turnEnds turn (update row field value)) =
      fields.takeWhile (turnEnds turn row) := by
  induction fields with
  | nil => rfl
  | cons other rest ih =>
    rw [mem_cons, not_or] at h
    have hSame : turnEnds turn (update row field value) other =
        turnEnds turn row other := by
      rw [turnEnds, turnEnds, update_of_ne (Ne.symm h.1)]
    rw [takeWhile_cons, takeWhile_cons, hSame, ih h.2]

/-- The loop replaces the fields before the first one at which it raises. -/
theorem reencryptFields_apply (hNodup : fields.Nodup) (field : F) :
    (reencryptFields turn fields row).2 field =
      if field ∈ reencrypted turn row fields then turn field ((row field).getD "")
      else row field := by
  unfold reencrypted
  induction fields generalizing row with
  | nil => rfl
  | cons first rest ih =>
    rw [nodup_cons] at hNodup
    cases hTurn : turn first ((row first).getD "") with
    | none =>
      have hStop : ¬ turnEnds turn row first = true := by simp [turnEnds, hTurn]
      rw [takeWhile_cons_of_neg hStop, if_neg not_mem_nil]
      simp only [reencryptFields, hTurn]
    | some encrypted =>
      have hGoOn : turnEnds turn row first = true := by simp [turnEnds, hTurn]
      rw [takeWhile_cons_of_pos hGoOn]
      simp only [reencryptFields, hTurn]
      rw [ih hNodup.2, takeWhile_turnEnds_update _ hNodup.1]
      by_cases hFirst : field = first
      · subst hFirst
        have hNot : field ∉ rest.takeWhile (turnEnds turn row) := fun hMem =>
          hNodup.1 ((takeWhile_sublist _).subset hMem)
        rw [if_neg hNot, if_pos mem_cons_self, update_self, hTurn]
      · rw [update_of_ne hFirst]
        simp only [mem_cons, hFirst, false_or]

end

variable {plain : String} {column : Option String}

section

variable {cipher : Cipher} {oldKey newKey : String}

theorem plain?_eq_some {key : String} (h : cipher.plain? key column = some plain) :
    ∃ encrypted, column = some encrypted ∧ cipher.decryptSecret encrypted key = some plain :=
  Option.bind_eq_some_iff.1 h

/-- A column that is readable is not blank. -/
theorem not_blank_of_readable {key : String}
    (h : cipher.plain? key column = some plain) : stripped (column.getD "") ≠ "" := by
  intro hBlank
  obtain ⟨encrypted, rfl, hPlain⟩ := plain?_eq_some h
  rw [Option.getD_some] at hBlank
  rw [cipher.blank_damaged key hBlank] at hPlain
  cases hPlain

/-- A column that is readable under one key is readable under no other. -/
theorem plain?_key_iff {key : String} (h : cipher.plain? oldKey column = some plain) :
    cipher.plain? key column = some plain ↔ key = oldKey := by
  constructor
  · intro h'
    obtain ⟨encrypted, rfl, hPlain⟩ := plain?_eq_some h
    exact cipher.key_unique h' hPlain
  · rintro rfl
    exact h

/-- A turn that does not raise keeps the plain text. -/
theorem plain?_reencrypt {fails : FieldFailure} (h : cipher.plain? oldKey column = some plain)
    (hEnds : (reencrypt? cipher oldKey newKey fails (column.getD "")).isSome = true) :
    cipher.plain? newKey (reencrypt? cipher oldKey newKey fails (column.getD "")) =
      some plain := by
  obtain ⟨encrypted, rfl, hPlain⟩ := plain?_eq_some h
  rw [Option.getD_some] at hEnds ⊢
  unfold reencrypt? at hEnds ⊢
  rw [hPlain] at hEnds ⊢
  split at hEnds
  · cases hEnds
  · next hDecrypt =>
    rw [Option.bind_some] at hEnds ⊢
    split at hEnds
    · cases hEnds
    · next hEncrypt =>
      rw [if_neg hDecrypt, if_neg hEncrypt]
      exact cipher.decrypt_encrypt plain newKey

/-- A row that stays as it is keeps its secrets when it has none that can be read, or the key
stays too. -/
theorem rowKeeps_self_iff {F : Type} {nextKey : String} (row : F → Option String) :
    RowKeeps cipher oldKey nextKey row row ↔
      ∀ field, cipher.plain? oldKey (row field) = none ∨ nextKey = oldKey := by
  constructor
  · intro h field
    cases hPlain : cipher.plain? oldKey (row field) with
    | none => exact .inl rfl
    | some plain => exact .inr ((plain?_key_iff hPlain).mp (h field plain hPlain))
  · intro h field plain hPlain
    rcases h field with hNone | rfl
    · rw [hPlain] at hNone
      cases hNone
    · exact hPlain

/-- What the two parts of a row ask of the key that the env file is read as. -/
theorem rowKeeps_reencrypt_iff {F : Type} [DecidableEq F] {nextKey : String}
    {fails : F → FieldFailure} {row : F → Option String} {fields : List F} (hNodup : fields.Nodup)
    (hFields : ∀ field plain, cipher.plain? oldKey (row field) = some plain → field ∈ fields) :
    RowKeeps cipher oldKey nextKey row
        (reencryptFields (fun field => reencrypt? cipher oldKey newKey (fails field)) fields
          row).2 ↔
      FieldsSafe cipher (fun field => reencrypt? cipher oldKey newKey (fails field)) oldKey newKey
        nextKey row fields := by
  generalize hTurn : (fun field => reencrypt? cipher oldKey newKey (fails field)) = turn
  -- the loop ends at the first field that raises
  have hSplit := takeWhile_append_dropWhile (p := turnEnds turn row) (l := fields)
  -- the fields before it are under the new key
  have hDone : ∀ field plain, cipher.plain? oldKey (row field) = some plain →
      field ∈ reencrypted turn row fields →
      cipher.plain? newKey ((reencryptFields turn fields row).2 field) = some plain := by
    intro field plain hPlain hMem
    have hEnds : turnEnds turn row field = true := mem_takeWhile_imp hMem
    rw [reencryptFields_apply hNodup, if_pos hMem]
    subst hTurn
    exact plain?_reencrypt hPlain hEnds
  -- those behind it are as they were
  have hLeft : ∀ field, field ∈ leftBehind turn row fields →
      (reencryptFields turn fields row).2 field = row field := by
    intro field hLeft
    rw [reencryptFields_apply hNodup, if_neg]
    intro hMem
    rw [← hSplit, nodup_append] at hNodup
    exact hNodup.2.2 field hMem field hLeft rfl
  constructor
  · intro h
    constructor
    · intro field hMem
      cases hPlain : cipher.plain? oldKey (row field) with
      | none => exact .inl rfl
      | some plain =>
        exact .inr ((plain?_key_iff (hDone field plain hPlain hMem)).mp (h field plain hPlain))
    · intro field hMem
      cases hPlain : cipher.plain? oldKey (row field) with
      | none => exact .inl rfl
      | some plain =>
        have hNew := h field plain hPlain
        rw [hLeft field hMem] at hNew
        exact .inr ((plain?_key_iff hPlain).mp hNew)
  · intro h field plain hPlain
    have hMem := hFields field plain hPlain
    rw [← hSplit, mem_append] at hMem
    rcases hMem with hMem | hMem
    · rcases h.1 field hMem with hNone | rfl
      · rw [hPlain] at hNone
        cases hNone
      · exact hDone field plain hPlain hMem
    · rcases h.2 field hMem with hNone | rfl
      · rw [hPlain] at hNone
        cases hNone
      · rw [hLeft field hMem]
        exact hPlain

end

/-! ## The rows of the database -/

section

variable {cipher : Cipher} {fails : Failures} {oldKey newKey : String}

theorem node_fields_nodup (node : Node) : node.fields.Nodup :=
  List.Nodup.filter _ (by decide)

theorem user_fields_nodup (user : User) : user.fields.Nodup :=
  List.Nodup.filter _ (by decide)

theorem mem_node_fields {node : Node} {field : NodeField}
    (h : cipher.plain? oldKey (node.secret field) = some plain) : field ∈ node.fields := by
  rw [Node.fields, mem_filter, decide_eq_true_eq]
  exact ⟨by cases field <;> decide, not_blank_of_readable h⟩

theorem mem_user_fields {user : User} {field : TotpField}
    (h : cipher.plain? oldKey (user.totp field) = some plain) : field ∈ user.fields := by
  rw [User.fields, mem_filter, decide_eq_true_eq]
  refine ⟨by cases field <;> decide, fun hEmpty => not_blank_of_readable h ?_⟩
  rw [hEmpty]
  decide

def NodeSafe (cipher : Cipher) (fails : Failures) (oldKey newKey nextKey : String)
    (node : Node) : Prop :=
  FieldsSafe cipher (nodeTurn cipher fails oldKey newKey node) oldKey newKey nextKey node.secret
    node.fields

def UserSafe (cipher : Cipher) (fails : Failures) (oldKey newKey nextKey : String)
    (user : User) : Prop :=
  FieldsSafe cipher (totpTurn cipher fails oldKey newKey user) oldKey newKey nextKey user.totp
    user.fields

theorem node_keeps_iff {nextKey : String} (node : Node) :
    RowKeeps cipher oldKey nextKey node.secret
        (reencryptNode cipher fails oldKey newKey node).2 ↔
      NodeSafe cipher fails oldKey newKey nextKey node :=
  rowKeeps_reencrypt_iff (node_fields_nodup node) fun _ _ h => mem_node_fields h

theorem user_keeps_iff {nextKey : String} (user : User) :
    RowKeeps cipher oldKey nextKey user.totp
        (reencryptUser cipher fails oldKey newKey user).2 ↔
      UserSafe cipher fails oldKey newKey nextKey user :=
  rowKeeps_reencrypt_iff (user_fields_nodup user) fun _ _ h => mem_user_fields h

end

/-- Every secret of `before` that could be read with the one key reads the same in `after` with
the other. -/
def DbKeeps (cipher : Cipher) (key key' : String) (before after : Db) : Prop :=
  List.Forall₂ (fun (node node' : Node) => node'.id = node.id ∧
      RowKeeps cipher key key' node.secret node'.secret) before.nodes after.nodes ∧
  List.Forall₂ (fun (user user' : User) => user'.id = user.id ∧
      RowKeeps cipher key key' user.totp user'.totp) before.users after.users

/-- Every secret of `before` that could be read with the key of its env file reads the same in
`after` with the key of that env file. -/
def KeepsReadable (settingsKey : File → String) (cipher : Cipher) (before after : Panel) : Prop :=
  DbKeeps cipher (before.secretKey settingsKey) (after.secretKey settingsKey) before.db after.db

/-- No secret can be read with the key. -/
def NothingReadable (cipher : Cipher) (key : String) (db : Db) : Prop :=
  (∀ node ∈ db.nodes, ∀ field, cipher.plain? key (node.secret field) = none) ∧
  ∀ user ∈ db.users, ∀ field, cipher.plain? key (user.totp field) = none

theorem forall₂_map_right_self {α : Type} {R : α → α → Prop} (f : α → α) (l : List α) :
    List.Forall₂ R l (l.map f) ↔ ∀ a ∈ l, R a (f a) := by
  rw [List.forall₂_map_right_iff, List.forall₂_same]

variable {settingsKey : File → String} {cipher : Cipher} {panel : Panel}
  {oldKey newKey nextKey : String}

/-- Rows that stay as they are. -/
theorem dbKeeps_self_iff {db : Db} :
    DbKeeps cipher oldKey nextKey db db ↔ NothingReadable cipher oldKey db ∨ nextKey = oldKey := by
  unfold DbKeeps NothingReadable
  simp only [List.forall₂_same, true_and, rowKeeps_self_iff]
  by_cases hKey : nextKey = oldKey
  · simp only [hKey, or_true, implies_true, and_self]
  · simp only [hKey, or_false]

/-- Rows behind the two loops and the end of the sessions. -/
theorem dbKeeps_reencrypted_iff {fails : Failures} (now : Time) {db : Db} :
    DbKeeps cipher oldKey nextKey db
        (invalidateAllSessions now (reencryptedDb cipher fails oldKey newKey db)) ↔
      (∀ node ∈ db.nodes, NodeSafe cipher fails oldKey newKey nextKey node) ∧
      ∀ user ∈ db.users, UserSafe cipher fails oldKey newKey nextKey user := by
  unfold DbKeeps invalidateAllSessions reencryptedDb
  simp only [map_map, forall₂_map_right_self, comp_apply, true_and,
    node_keeps_iff, user_keeps_iff]

/-! ## The call -/

/-- Something between the write of the env file and the end of the commit raises. -/
def Failures.abort (fails : Failures) : Bool :=
  fails.nodesQuery || fails.usersQuery || fails.invalidate || fails.commit

/-- The call comes to write the new key into the env file, and does. -/
def RotationCall.writes (call : RotationCall) (current : String) : Bool :=
  (call.rejection? current).isNone && !call.fails.envWrite

/-- A call leaves the panel as it was, or with the new line in the env file and the old rows, or
with that line and the rows re-encrypted. -/
theorem apply_cases (settingsKey : File → String) (cipher : Cipher) (call : RotationCall)
    (panel : Panel) :
    (perform (applySecretKey settingsKey cipher call) panel).2 =
      if call.writes (panel.secretKey settingsKey) then
        ⟨panel.writtenFile call.newKey,
          if environRejects call.newKey || call.fails.abort then panel.db
          else invalidateAllSessions call.now (reencryptedDb cipher call.fails
            (panel.secretKey settingsKey) call.newKey panel.db)⟩
      else panel := by
  unfold applySecretKey RotationCall.writes Failures.abort
  cases hRejection : call.rejection? (panel.secretKey settingsKey) with
  | some e => simp [hRejection]
  | none =>
    cases call.fails.envWrite <;> cases environRejects call.newKey <;>
      cases call.fails.nodesQuery <;> cases call.fails.usersQuery <;>
      cases call.fails.invalidate <;> cases call.fails.commit <;>
      simp [hRejection, perform_map]

/-- The file is not written; or the call raises behind the write, and nothing could be read or
the file is still read as the old key; or it comes through, and the rows fit the key that the
file is read as. -/
def RotationSafe (settingsKey : File → String) (cipher : Cipher) (call : RotationCall)
    (panel : Panel) : Prop :=
  let oldKey := panel.secretKey settingsKey
  let nextKey := settingsKey (panel.writtenFile call.newKey)
  call.writes oldKey = false ∨
    if environRejects call.newKey || call.fails.abort then
      NothingReadable cipher oldKey panel.db ∨ nextKey = oldKey
    else
      (∀ node ∈ panel.db.nodes, NodeSafe cipher call.fails oldKey call.newKey nextKey node) ∧
      ∀ user ∈ panel.db.users, UserSafe cipher call.fails oldKey call.newKey nextKey user

/-- A rotation of the secret key keeps every readable secret readable exactly when it is safe,
whatever reads the env file. -/
theorem rotation_keeps_readable_iff (settingsKey : File → String) (cipher : Cipher)
    (call : RotationCall) (panel : Panel) :
    KeepsReadable settingsKey cipher panel
        (perform (applySecretKey settingsKey cipher call) panel).2 ↔
      RotationSafe settingsKey cipher call panel := by
  rw [apply_cases]
  unfold RotationSafe KeepsReadable
  dsimp only
  cases call.writes (panel.secretKey settingsKey) with
  | false => exact iff_of_true (dbKeeps_self_iff.mpr (.inr rfl)) (.inl rfl)
  | true =>
    simp only [if_true, Bool.true_eq_false, false_or]
    split
    · exact dbKeeps_self_iff
    · exact dbKeeps_reencrypted_iff call.now

/-! ## The panel's own reader -/

/-- The key as `get_env_value` reads it. -/
def envFileKey (file : File) : String :=
  String.ofList ((fileValue? secretKeyName file).getD defaultSecretKey.toList)

/-- The file is read as the new key exactly when that is one line; `fileValue?` is asked, since
the default is a text too. -/
theorem newKey_read_iff (call : RotationCall) (h : NotIndented secretKeyName panel.envFile) :
    fileValue? secretKeyName (panel.writtenFile call.newKey) = some call.newKey.toList ↔
      ∀ c ∈ call.newKey.toList, isLineBreak c = false := by
  refine fileValue?_setEnvText_iff h ?_
  rw [RotationCall.newKey, stripped, String.toList_ofList]
  exact strip_strip _

/-! ## Calls that lose secrets -/

/-- A prefix code for keys. -/
def tag : List Char → List Char
  | [] => ['|']
  | c :: key => '-' :: c :: tag key

theorem tag_inj {key key' text : List Char} (h : tag key <+: text) (h' : tag key' <+: text) :
    key = key' := by
  induction key generalizing key' text with
  | nil =>
    cases key' with
    | nil => rfl
    | cons c key' =>
      obtain ⟨rest, rfl⟩ := h
      simp [tag] at h'
  | cons c key ih =>
    obtain ⟨rest, rfl⟩ := h
    cases key' with
    | nil => simp [tag] at h'
    | cons c' key' =>
      simp only [tag, cons_append, cons_prefix_cons, true_and] at h'
      rw [h'.1, ih (prefix_append _ rest) h'.2]

theorem mark_mem_tag (key : List Char) : '|' ∈ tag key := by
  induction key with
  | nil => exact mem_cons_self
  | cons c key ih => exact mem_cons_of_mem _ (mem_cons_of_mem _ ih)

/-- A cipher that puts the key in front of the plain text. -/
def tagCipher : Cipher where
  encryptSecret plain key := String.ofList (tag key.toList ++ plain.toList)
  decryptSecret text key :=
    if tag key.toList <+: text.toList then
      some (String.ofList (text.toList.drop (tag key.toList).length))
    else none
  decrypt_encrypt plain key := by
    rw [String.toList_ofList, if_pos (prefix_append _ _), drop_left,
      String.ofList_toList]
  key_unique := by
    intro text key key' plain plain' h h'
    split at h
    · next hTag =>
      split at h'
      · next hTag' => exact String.toList_inj.1 (tag_inj hTag hTag')
      · cases h'
    · cases h
  blank_damaged := by
    intro text key hBlank
    rw [if_neg]
    intro hTag
    have hStrip : strip text.toList = [] := by
      rw [stripped, ← String.toList_inj, String.toList_ofList] at hBlank
      exact hBlank
    have hSpace := isSpace_of_strip_eq_nil hStrip (hTag.subset (mark_mem_tag key.toList))
    revert hSpace
    decide

/-- What the field of each node reads as. -/
def readNodes (cipher : Cipher) (panel : Panel) (field : NodeField) : List (Option String) :=
  panel.db.nodes.map fun node => cipher.plain? (panel.secretKey envFileKey) (node.secret field)

theorem readNodes_kept {before after : Panel}
    (h : KeepsReadable envFileKey cipher before after) {field : NodeField}
    (hBefore : readNodes cipher before field = [some plain]) :
    readNodes cipher after field = [some plain] := by
  obtain ⟨hNodes, -⟩ := h
  unfold readNodes at hBefore ⊢
  obtain ⟨node, hOne, hPlain⟩ := map_eq_singleton_iff.1 hBefore
  rw [hOne, List.forall₂_cons_left_iff] at hNodes
  obtain ⟨node', rest, ⟨-, hKeeps⟩, hRest, hAfter⟩ := hNodes
  rw [List.forall₂_nil_left_iff] at hRest
  rw [hAfter, hRest, map_singleton, hKeeps field plain hPlain]

/-- A panel with one node, whose API key and SSH key are as given. -/
def panelWithNode (apiKey sshKey : String) : Panel where
  envFile := some "SECRET_KEY=0123456789abcdef\n".toList
  db := {
    nodes := [{
      id := 1
      secret := fun
        | .apiKeyEncrypted => some apiKey
        | .sshPrivateKeyEncrypted => some sshKey
        | _ => some "" }]
    users := []
    refreshTokens := [] }

def rotationCall (newValue : String) (fails : Failures) : RotationCall where
  newValue := newValue
  previewToken := "token"
  confirm := "ROTATE"
  isProduction := false
  previewError? _ _ _ := none
  now := 0
  fails := fails

def damagedNodePanel : Panel :=
  panelWithNode "damaged" (tagCipher.encryptSecret "ssh" "0123456789abcdef")

def soundNodePanel : Panel :=
  panelWithNode (tagCipher.encryptSecret "api" "0123456789abcdef")
    (tagCipher.encryptSecret "ssh" "0123456789abcdef")

/-- A damaged API key costs the node its SSH key; a failing commit costs every secret; and so does
a new key with a line break, of which only the first line is the key of the env file. -/
theorem rotation_loses_secrets :
    ¬ KeepsReadable envFileKey tagCipher damagedNodePanel
      (perform (applySecretKey envFileKey tagCipher (rotationCall "fedcba9876543210" {}))
        damagedNodePanel).2 ∧
    ¬ KeepsReadable envFileKey tagCipher soundNodePanel
      (perform (applySecretKey envFileKey tagCipher
        (rotationCall "fedcba9876543210" { commit := true })) soundNodePanel).2 ∧
    ¬ KeepsReadable envFileKey tagCipher soundNodePanel
      (perform (applySecretKey envFileKey tagCipher (rotationCall "fedcba98\n76543210" {}))
        soundNodePanel).2 := by
  refine ⟨?_, ?_, ?_⟩
  · intro hKeeps
    have hRead : readNodes tagCipher damagedNodePanel .sshPrivateKeyEncrypted = [some "ssh"] := by
      decide
    have hAfter := readNodes_kept hKeeps hRead
    revert hAfter
    decide
  all_goals
    intro hKeeps
    have hRead : readNodes tagCipher soundNodePanel .apiKeyEncrypted = [some "api"] := by
      decide
    have hAfter := readNodes_kept hKeeps hRead
    revert hAfter
    decide

end AdminPanel.Auth
