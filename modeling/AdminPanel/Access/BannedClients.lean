import AdminPanel.Access.Reconcile
import AdminPanel.Lib.SharedFile
import Mathlib.Data.List.Sort
import Mathlib.Data.Fintype.Basic
import Mathlib.Data.Char
import Mathlib.Data.List.Lex

/-!
# The OpenVPN ban file

`banned_clients` of a node: one client name a line, read whole and written whole
by `reconcile_openvpn`, `openvpn_unblock` and `forget_deleted_openvpn_client`,
without a lock. Between the read and the write of a reconcile lie database work
and a commit.

* `mem_read_write` — the names written are the names read back;
* `BanBatch.edits` — operations on different clients as edits of the file;
* `finished_ops_applied` — along a run in which no write is based on a copy that
  misses a finished operation, the file says of every finished operation's
  client what the operation decided;
* `lost_ban` — two blocks that both read before either writes: one is lost.
-/

namespace AdminPanel.Access

open Lib
open Lib.PyText

/-! ## The file -/

/-- A Python set of names, listed without repeats in some order. -/
abbrev NameSet := List (List Char)

/-- `read_banned_clients` on the content of the file (a missing file is empty). -/
def readBannedClients (content : List Char) : NameSet :=
  (((splitLines content).map strip).filter fun line =>
    decide (line ≠ []) && decide (line.head? ≠ some '#')).dedup

def lowerName (name : List Char) : List Char := name.map Char.toLower

/-- The content that `write_banned_clients` writes: `sorted(clients, key=str.lower)`,
joined by newlines and closed by one. -/
def writeBannedClients (clients : NameSet) : List Char :=
  let ordered := clients.insertionSort fun a b => lowerName a ≤ lowerName b
  List.intercalate ['\n'] ordered ++ (if ordered = [] then [] else ['\n'])

/-- `banned.add(name)` -/
def addName (banned : NameSet) (name : List Char) : NameSet :=
  if name ∈ banned then banned else banned ++ [name]

/-- `banned.discard(name)` -/
def discardName (banned : NameSet) (name : List Char) : NameSet :=
  banned.filter fun other => decide (other ≠ name)

variable {banned : NameSet} {name : List Char}

@[simp] theorem mem_addName {other : List Char} :
    other ∈ addName banned name ↔ other ∈ banned ∨ other = name := by
  unfold addName
  split
  · next h =>
    constructor
    · exact Or.inl
    · rintro (hOther | rfl)
      · exact hOther
      · exact h
  · simp

@[simp] theorem mem_discardName {other : List Char} :
    other ∈ discardName banned name ↔ other ∈ banned ∧ other ≠ name := by
  simp [discardName]

/-- A name that a line of the file can hold: stripped, not empty, no comment, one
line. -/
structure Plain (name : List Char) : Prop where
  stripped : strip name = name
  nonempty : name ≠ []
  noComment : name.head? ≠ some '#'
  oneLine : ∀ c ∈ name, isLineBreak c = false

theorem plain_of_mem_read {content : List Char} (h : name ∈ readBannedClients content) :
    Plain name := by
  rw [readBannedClients, List.mem_dedup, List.mem_filter, List.mem_map] at h
  obtain ⟨⟨line, hLine, rfl⟩, hKeep⟩ := h
  simp only [Bool.and_eq_true, decide_eq_true_eq] at hKeep
  refine ⟨strip_strip line, hKeep.1, hKeep.2, ?_⟩
  intro c hc
  exact not_break_of_mem_splitLines hLine c (mem_of_mem_strip hc)

theorem intercalate_newline (lines : List (List Char)) :
    List.intercalate ['\n'] lines ++ (if lines = [] then [] else ['\n']) = unlines lines := by
  induction lines with
  | nil => rfl
  | cons line rest ih =>
    cases rest with
    | nil => simp [unlines]
    | cons next rest =>
      rw [if_neg (List.cons_ne_nil _ _)] at ih ⊢
      have hJoin : List.intercalate ['\n'] (line :: next :: rest) =
          line ++ '\n' :: List.intercalate ['\n'] (next :: rest) := by
        simp [List.intercalate, List.intersperse]
      rw [hJoin, List.append_assoc, List.cons_append, ih]
      simp [unlines]

/-- **Round trip.** Plain names that are written are the names read back. -/
theorem mem_read_write {clients : NameSet} (h : ∀ name ∈ clients, Plain name) (name : List Char) :
    name ∈ readBannedClients (writeBannedClients clients) ↔ name ∈ clients := by
  set ordered := clients.insertionSort fun a b => lowerName a ≤ lowerName b with hOrdered
  have hMem : ∀ line, line ∈ ordered ↔ line ∈ clients := by
    intro line
    rw [hOrdered]
    exact (List.perm_insertionSort _ clients).mem_iff
  have hPlain : ∀ line ∈ ordered, Plain line := fun line hl => h line ((hMem line).mp hl)
  have hLines : splitLines (writeBannedClients clients) = ordered := by
    rw [writeBannedClients, ← hOrdered, intercalate_newline]
    exact splitLines_unlines ordered fun line hl => (hPlain line hl).oneLine
  have hStrip : ordered.map strip = ordered :=
    List.map_congr_left (fun line hl => (hPlain line hl).stripped) |>.trans (List.map_id _)
  rw [readBannedClients, hLines, hStrip, List.mem_dedup, List.mem_filter, hMem]
  constructor
  · exact And.left
  · intro hName
    have hp := h name hName
    simp [hName, hp.nonempty, hp.noComment]

/-! ## Operations -/

/-- A client name, which fits on a line of the file. -/
structure ClientName where
  chars : List Char
  plain : Plain chars

/-- The operations that edit the file. A reconcile carries what it reads beside
the file: the row, clock and traffic, and whether a ban outside the row is
active (`_openvpn_runtime_ban_active`). -/
inductive BanOp where
  | reconcile (row : Option PolicyRow) (reading : Reading) (trafficLimitChanged runtimeBan : Bool)
  | unblockExpired
  | forgetDeleted

/-- `state["is_blocked"]` of `reconcile_openvpn`. -/
def reconcileBans (row : PolicyRow) (r : Reading) (trafficLimitChanged : Bool) : Bool :=
  (ovpnState (reconcileOpenvpn row r trafficLimitChanged).1 r).isBlocked

/-- The set an operation writes after reading `banned`; `none` if it does not write. -/
def BanOp.edit (op : BanOp) (name : List Char) (banned : NameSet) : Option NameSet :=
  match op with
  | .reconcile none _ _ wantBan =>
    let hasBan := decide (name ∈ banned)
    if wantBan && !hasBan then some (addName banned name)
    else if !wantBan && hasBan then some (discardName banned name)
    else none
  | .reconcile (some row) r trafficLimitChanged runtimeBan =>
    let banned :=
      if reconcileBans row r trafficLimitChanged then addName banned name
      else discardName banned name
    some (if runtimeBan then addName banned name else banned)
  | .unblockExpired => some (discardName banned name)
  | .forgetDeleted => if name ∉ banned then none else some (discardName banned name)

/-- The operation leaves its client blocked. -/
def BanOp.want : BanOp → Bool
  | .reconcile none _ _ runtimeBan => runtimeBan
  | .reconcile (some row) r trafficLimitChanged runtimeBan =>
    reconcileBans row r trafficLimitChanged || runtimeBan
  | .unblockExpired => false
  | .forgetDeleted => false

variable {op : BanOp}

/-- An edit moves its own name and no other. -/
theorem BanOp.mem_edit {banned' : NameSet}
    (h : op.edit name banned = some banned') (other : List Char) :
    other ∈ banned' ↔ if other = name then op.want = true else other ∈ banned := by
  cases op with
  | reconcile row r changed runtimeBan =>
    cases row with
    | none =>
      simp only [BanOp.edit] at h
      split at h
      · next hWant =>
        simp only [Bool.and_eq_true] at hWant
        cases h
        by_cases hOther : other = name <;> simp [hOther, BanOp.want, hWant.1]
      · split at h
        · next hWant =>
          simp only [Bool.and_eq_true, Bool.not_eq_true'] at hWant
          cases h
          by_cases hOther : other = name <;> simp [hOther, BanOp.want, hWant.1]
        · cases h
    | some row =>
      cases h
      simp only [BanOp.want]
      cases reconcileBans row r changed <;> cases runtimeBan <;>
        by_cases hOther : other = name <;> simp [hOther]
  | unblockExpired =>
    cases h
    by_cases hOther : other = name <;> simp [hOther, BanOp.want]
  | forgetDeleted =>
    simp only [BanOp.edit] at h
    split at h
    · cases h
    · cases h
      by_cases hOther : other = name <;> simp [hOther, BanOp.want]

/-- An operation that does not write found the file as it wants it. -/
theorem BanOp.mem_of_edit_none (h : op.edit name banned = none) : name ∈ banned ↔ op.want = true := by
  cases op with
  | reconcile row r changed runtimeBan =>
    cases row with
    | none =>
      simp only [BanOp.edit] at h
      by_cases hMem : name ∈ banned <;> cases runtimeBan <;> simp_all [BanOp.want]
    | some row => cases h
  | unblockExpired => cases h
  | forgetDeleted =>
    simp only [BanOp.edit] at h
    split at h
    · next hMem => simp [BanOp.want, hMem]
    · cases h

/-- The content an operation writes after reading `content`. -/
def BanOp.editContent (op : BanOp) (name : List Char) (content : List Char) : Option (List Char) :=
  (op.edit name (readBannedClients content)).map writeBannedClients

theorem BanOp.mem_editContent {name : ClientName} {content content' : List Char}
    (h : op.editContent name.chars content = some content') (other : List Char) :
    other ∈ readBannedClients content' ↔
      if other = name.chars then op.want = true else other ∈ readBannedClients content := by
  rw [BanOp.editContent, Option.map_eq_some_iff] at h
  obtain ⟨banned, hEdit, rfl⟩ := h
  have hPlain : ∀ n ∈ banned, Plain n := by
    intro n hn
    rw [BanOp.mem_edit hEdit] at hn
    split at hn
    · next hName => exact hName ▸ name.plain
    · exact plain_of_mem_read hn
  rw [mem_read_write hPlain, BanOp.mem_edit hEdit]

/-! ## The commit of a reconcile -/

/-- An UPDATE writes the columns that the session changed. -/
def updateColumns (loaded changed committed : PolicyRow) : PolicyRow where
  accessUntil := if changed.accessUntil = loaded.accessUntil then committed.accessUntil
    else changed.accessUntil
  isTempBlocked := if changed.isTempBlocked = loaded.isTempBlocked then committed.isTempBlocked
    else changed.isTempBlocked
  isPermanentBlocked := if changed.isPermanentBlocked = loaded.isPermanentBlocked
    then committed.isPermanentBlocked else changed.isPermanentBlocked
  blockReason := if changed.blockReason = loaded.blockReason then committed.blockReason
    else changed.blockReason
  blockStartedAt := if changed.blockStartedAt = loaded.blockStartedAt
    then committed.blockStartedAt else changed.blockStartedAt
  blockDays := if changed.blockDays = loaded.blockDays then committed.blockDays
    else changed.blockDays
  blockUntil := if changed.blockUntil = loaded.blockUntil then committed.blockUntil
    else changed.blockUntil
  trafficLimitBytes := if changed.trafficLimitBytes = loaded.trafficLimitBytes
    then committed.trafficLimitBytes else changed.trafficLimitBytes
  trafficLimitPeriodDays := if changed.trafficLimitPeriodDays = loaded.trafficLimitPeriodDays
    then committed.trafficLimitPeriodDays else changed.trafficLimitPeriodDays
  updatedBy := if changed.updatedBy = loaded.updatedBy then committed.updatedBy
    else changed.updatedBy

theorem updateColumns_self (loaded changed : PolicyRow) :
    updateColumns loaded changed loaded = changed := by
  obtain ⟨u, t, p, reason, st, d, bu, l, pd, by_⟩ := loaded
  obtain ⟨u', t', p', reason', st', d', bu', l', pd', by_'⟩ := changed
  simp only [updateColumns, PolicyRow.mk.injEq]
  refine ⟨?_, ?_, ?_, ?_, ?_, ?_, ?_, ?_, ?_, ?_⟩ <;> split <;> simp_all

/-- A reconcile that reports no change made none. -/
theorem reconcileOpenvpn_unchanged {row : PolicyRow} {r : Reading} {limitChanged : Bool}
    (h : (reconcileOpenvpn row r limitChanged).2 = false) :
    (reconcileOpenvpn row r limitChanged).1 = row := by
  simp only [reconcileOpenvpn, Bool.or_eq_false_iff, bne_eq_false_iff_eq] at h ⊢
  obtain ⟨⟨⟨hLapsed, hExpired⟩, hLimit⟩, hReason⟩ := h
  have hCleaned : cleanupOvpnTempBlock row r.now = row := by
    simp [cleanupOvpnTempBlock, cleanupTempBlock, hLapsed]
  rw [hCleaned] at hExpired hLimit hReason ⊢
  have hCurrent : dropExpiredReason row r.now = row := by
    unfold dropExpiredReason at hExpired ⊢
    split
    · next hDrop =>
      rw [if_pos hDrop] at hExpired
      simp only [Bool.and_eq_true, decide_eq_true_eq] at hDrop
      rw [hDrop.2] at hExpired
      cases hExpired
    · rfl
  rw [hCurrent] at hLimit hReason ⊢
  have hLimited : (cleanupOvpnTrafficLimit row (trafficExceeded row r) limitChanged).1 = row := by
    unfold cleanupOvpnTrafficLimit at hLimit ⊢
    generalize trafficExceeded row r = exceeded at hLimit ⊢
    by_cases hStored : row.blockReason = some .trafficLimit
    · grind
    · grind
  rw [hLimited] at hReason ⊢
  rw [← hReason]

/-! ## Concurrent operations -/

/-- Operations on different clients of one node. -/
structure BanBatch (ι : Type) where
  name : ι → ClientName
  op : ι → BanOp
  distinct : Function.Injective fun i => (name i).chars

/-- The name is in the file. -/
def listed (content name : List Char) : Bool := decide (name ∈ readBannedClients content)

/-- The operations as edits of the file, each of its own client's name. -/
def BanBatch.edits {ι : Type} (batch : BanBatch ι) : Edits ι (List Char) (List Char) where
  key := fun i => (batch.name i).chars
  want := fun i => (batch.op i).want
  shows := listed
  edit := fun i => (batch.op i).editContent (batch.name i).chars
  key_injective := batch.distinct
  own := by
    intro i content content' h
    have hMem := BanOp.mem_editContent h (batch.name i).chars
    rw [if_pos rfl] at hMem
    simp [listed, hMem]
  frame := by
    intro i content content' name h hName
    have hMem := BanOp.mem_editContent h name
    rw [if_neg hName] at hMem
    simp [listed, hMem]
  skip := by
    intro i content h
    have hMem := BanOp.mem_of_edit_none (Option.map_eq_none_iff.mp h)
    simp [listed, hMem]

/-- **No lost update under the condition.** Along a run in which every write is
based on a copy that agrees with the file on the operations finished by then, a
finished operation's client is in the file exactly when the operation left it
blocked. -/
theorem finished_ops_applied {ι : Type} [DecidableEq ι] (batch : BanBatch ι)
    (content : List Char) (run : List ι) (t : Shared ι (List Char))
    (hKeeps : Along (editStep batch.edits) (WriteKeeps batch.edits) (Shared.start ι content) run)
    (hExec : exec (editStep batch.edits) (Shared.start ι content) run = some t)
    (i : ι) (hDone : t.phase i = .finished) :
    (batch.name i).chars ∈ readBannedClients t.value ↔ (batch.op i).want = true := by
  have hRight : listed t.value (batch.name i).chars = (batch.op i).want :=
    finished_right hKeeps hExec i hDone
  rw [← hRight, listed, decide_eq_true_iff]

theorem oneLine_of_all (h : name.all (fun c => !isLineBreak c) = true) :
    ∀ c ∈ name, isLineBreak c = false := by
  simpa using h

def alice : ClientName :=
  ⟨"alice".toList, ⟨by decide, by decide, by decide, oneLine_of_all (by decide)⟩⟩

def bob : ClientName :=
  ⟨"bob".toList, ⟨by decide, by decide, by decide, oneLine_of_all (by decide)⟩⟩

/-- Two permanently banned clients, reconciled at the same time. -/
def twoBans : BanBatch (Fin 2) where
  name := fun i => if i = 0 then alice else bob
  op := fun _ => .reconcile (some { isPermanentBlocked := true, updatedBy := some "admin" })
    ⟨0, fun _ => 0⟩ false false
  distinct := by decide

/-- The file after one operation, then the other. -/
def afterBoth : Shared (Fin 2) (List Char) :=
  (exec (editStep twoBans.edits) (Shared.start (Fin 2) []) [0, 0, 1, 1]).getD (.start (Fin 2) [])

theorem serial_ban_applied :
    alice.chars ∈ readBannedClients afterBoth.value ↔ (twoBans.op 0).want = true := by
  refine finished_ops_applied twoBans [] [0, 0, 1, 1] afterBoth ?_ rfl 0 rfl
  refine ⟨fun read h => ?_, fun s₁ h₁ => ⟨fun read h j hj => ?_, fun s₂ h₂ =>
    ⟨fun read h => ?_, fun s₃ h₃ => ⟨fun read h j hj => ?_, fun _ _ => trivial⟩⟩⟩⟩
  · cases h
  · cases h₁
    cases h
    rfl
  · cases h₁
    cases h₂
    cases h
  · cases h₁
    cases h₂
    cases h₃
    cases h
    rfl

/-- Both read before either writes: `alice` is not in the file. -/
theorem lost_ban :
    ∃ t, exec (editStep twoBans.edits) (Shared.start (Fin 2) []) [0, 1, 0, 1] = some t ∧
      (∀ i, t.phase i = .finished) ∧ (twoBans.op 0).want = true ∧
      alice.chars ∉ readBannedClients t.value := by
  refine ⟨_, rfl, fun | 0 => rfl | 1 => rfl, by decide, ?_⟩
  decide

end AdminPanel.Access
