import AdminPanel.Cidr.Providers
import AdminPanel.Lib.Runs

/-!
# The antifilter list

`refresh_antifilter` downloads the blocked prefixes and replaces the stored ones in several commits,
then writes the metadata; `_load_antifilter_index` reads them for the generation and keeps what it
read for five minutes.

* `step` — the steps of a refresh, each of which may raise, and of the loads between them;
* `Sound` — what the metadata call usable is one downloaded list;
* `KeepsUsable` — a failed refresh leaves a usable list usable;
* `Quiet`, `Complete` — the runs in which both hold in every state, and between refreshes.

Main result: `index_is_one_download`.
-/

namespace AdminPanel.Cidr.Antifilter

open Lib (exec Along invariant_exec along_of_guard)
open Lib.PyText (strip splitLines)
open Lib.Ipv4 (Network parseNetwork)

/-! ## The tables and the cache -/

/-- The prefix that a line of the download gives. -/
def prefixOf (line : Text) : Option Network :=
  let line := strip line
  if line = [] ∨ line.head? = some '#' then none
  else (parseNetwork line).filter fun n => n.prefixLen ≠ 0

/-- `cidrs` of `refresh_antifilter` -/
def cidrsOf (text : Text) : List Network := (splitLines text).filterMap prefixOf

/-- The row of `antifilter_meta`. -/
structure Metadata where
  cidrCount : ℕ
  refreshStatus : RefreshStatus
  deriving DecidableEq, Repr

/-- The metadata say `ok` or `partial`. -/
def saysOk (metadata : Option Metadata) : Bool :=
  metadata.any fun m => m.refreshStatus = .ok ∨ m.refreshStatus = .partly

/-- The rows, if `_load_antifilter_index` takes them. -/
def usable (metadata : Option Metadata) (rows : List Network) : Option (List Network) :=
  if saysOk metadata && metadata.any fun m => m.cidrCount ≠ 0 then some rows else none

/-- `_ANTIFILTER_INDEX_CACHE`; the index stands as the rows it is built from. -/
structure Cached where
  rows : List Network
  expiresAt : ℕ
  deriving DecidableEq

/-- How far a refresh has come. -/
inductive Stage
  | parsed (cidrs : List Network)
  | inserting (cidrs remaining : List Network)
  /-- the cache is reset -/
  | inserted (cidrs : List Network)
  deriving DecidableEq

/-- What is still to be inserted. -/
def Stage.remaining : Stage → List Network
  | .inserting _ remaining => remaining
  | _ => []

/-- A refresh under way, with the rows and the usable list that it found. -/
structure Refresh where
  stage : Stage
  found : List Network
  foundUsable : Option (List Network)
  deriving DecidableEq

structure State where
  /-- `antifilter_cidr`, with its unique column -/
  rows : List Network
  metadata : Option Metadata
  cache : Option Cached
  refresh : Option Refresh
  /-- the loads that are past their check of the metadata, by their `now_ts` -/
  loading : List ℕ
  /-- every text downloaded so far -/
  downloads : List Text
  deriving DecidableEq

/-! ## Steps -/

inductive Action
  | download (text : Text)
  /-- the download raises; noting it may raise as well -/
  | downloadFails (noted : Bool)
  | clear
  | insertBatch
  | resetCache
  | finish
  /-- the refresh raises at its next step -/
  | raises
  | load (now : ℕ)
  | readRows (now : ℕ)
  deriving DecidableEq, Repr

def batchSize : ℕ := 1000

section

variable (s : State)

/-- The rows and the metadata of a load: the cache, or a check of the metadata. -/
def State.startLoad (now : ℕ) : State :=
  if s.cache.any fun c => now < c.expiresAt then s
  else if (usable s.metadata s.rows).isSome then { s with loading := now :: s.loading }
  else s

def step : Action → Option State
  | .download text =>
    match s.refresh with
    | some _ => none
    | none =>
      some { s with
        downloads := s.downloads ++ [text]
        refresh := some ⟨.parsed (cidrsOf text), s.rows, usable s.metadata s.rows⟩ }
  | .downloadFails noted =>
    match s.refresh with
    | some _ => none
    | none =>
      if noted then
        some { s with metadata := some ⟨(s.metadata.map Metadata.cidrCount).getD 0, .error⟩ }
      else some s
  | .clear =>
    match s.refresh with
    | some ⟨.parsed cidrs, found, foundUsable⟩ =>
      some { s with rows := [], refresh := some ⟨.inserting cidrs cidrs, found, foundUsable⟩ }
    | _ => none
  | .insertBatch =>
    match s.refresh with
    | some ⟨.inserting cidrs remaining, found, foundUsable⟩ =>
      if remaining = [] then none
      else if (s.rows ++ remaining.take batchSize).Nodup then
        some { s with
          rows := s.rows ++ remaining.take batchSize
          refresh := some ⟨.inserting cidrs (remaining.drop batchSize), found, foundUsable⟩ }
      else some { s with refresh := none }
    | _ => none
  | .resetCache =>
    match s.refresh with
    | some ⟨.inserting cidrs [], found, foundUsable⟩ =>
      some { s with cache := none, refresh := some ⟨.inserted cidrs, found, foundUsable⟩ }
    | _ => none
  | .finish =>
    match s.refresh with
    | some ⟨.inserted cidrs, _, _⟩ =>
      some { s with metadata := some ⟨cidrs.length, .ok⟩, refresh := none }
    | _ => none
  | .raises => if s.refresh.isSome then some { s with refresh := none } else none
  | .load now => some (s.startLoad now)
  | .readRows now =>
    if now ∈ s.loading then
      some { s with cache := some ⟨s.rows, now + 300⟩, loading := s.loading.erase now }
    else none

/-! ## What is claimed of a run -/

/-- The rows are the prefixes of one of the downloads, each of them once. -/
def OneOf (downloads : List Text) (rows : List Network) : Prop :=
  ∃ text ∈ downloads, rows.Perm (cidrsOf text).dedup

/-- What the metadata call usable is one downloaded list, and is counted. -/
def SoundWith (downloads : List Text) (metadata : Option Metadata) (rows : List Network) : Prop :=
  saysOk metadata = true →
    OneOf downloads rows ∧ ∀ m ∈ metadata, m.cidrCount = rows.length

def Sound : Prop := SoundWith s.downloads s.metadata s.rows

/-- What a load has read is one downloaded list. -/
def CacheSound : Prop := ∀ c ∈ s.cache, OneOf s.downloads c.rows

/-- The list that was usable when the refresh began. -/
def State.usableBefore : Option (List Network) :=
  match s.refresh with
  | some r => r.foundUsable
  | none => usable s.metadata s.rows

/-- A step after which no refresh is under way, and that does not complete one, leaves the list
usable that was usable before. -/
def KeepsUsable (a : Action) : Prop :=
  ∀ s', step s a = some s' → a ≠ .finish → s'.refresh = none →
    ∀ rows, s.usableBefore = some rows → usable s'.metadata s'.rows = some rows

/-- The next batch can be inserted. -/
def State.inserts : Prop :=
  ∀ r ∈ s.refresh, (s.rows ++ r.stage.remaining.take batchSize).Nodup

/-- Rows are changed only while the metadata do not say `ok`, and a failed download is noted only
where nothing is usable. -/
def Quiet : Action → Prop
  | .downloadFails noted => noted = true → usable s.metadata s.rows = none
  | .clear => s.rows ≠ [] → saysOk s.metadata = false
  | .insertBatch => s.inserts → saysOk s.metadata = false
  | _ => True

/-- What a refresh has committed is what it found, or the metadata do not say `ok`. -/
def State.unharmed : Prop :=
  ∀ r ∈ s.refresh, saysOk s.metadata = true → s.rows = r.found

/-- A refresh does not raise after its first commit unless the metadata do not say `ok`, and a
failed download is noted only where nothing is usable. -/
def Complete : Action → Prop
  | .downloadFails noted => noted = true → usable s.metadata s.rows = none
  | .insertBatch => s.inserts ∨ s.unharmed
  | .raises => s.unharmed
  | _ => True

end

/-! ## What a step does -/

variable {s s' : State} {downloads : List Text} {metadata : Option Metadata}
  {rows : List Network}

/-- Each step that goes through has a lemma that says what it does. -/
theorem download_cases {text : Text} (h : step s (.download text) = some s') :
    s.refresh = none ∧ s' = { s with
      downloads := s.downloads ++ [text]
      refresh := some ⟨.parsed (cidrsOf text), s.rows, usable s.metadata s.rows⟩ } := by
  unfold step at h
  dsimp only at h
  split at h
  · cases h
  · next hNone => exact ⟨hNone, (Option.some.inj h).symm⟩

theorem downloadFails_cases {noted : Bool} (h : step s (.downloadFails noted) = some s') :
    s.refresh = none ∧ (s' = s ∨ noted = true ∧
      s' = { s with metadata := some ⟨(s.metadata.map Metadata.cidrCount).getD 0, .error⟩ }) := by
  unfold step at h
  dsimp only at h
  split at h
  · cases h
  · next hNone =>
    refine ⟨hNone, ?_⟩
    split_ifs at h with hNoted
    · exact .inr ⟨hNoted, (Option.some.inj h).symm⟩
    · exact .inl (Option.some.inj h).symm

theorem clear_cases (h : step s .clear = some s') : ∃ cidrs found foundUsable,
    s.refresh = some ⟨.parsed cidrs, found, foundUsable⟩ ∧
      s' = { s with rows := [], refresh := some ⟨.inserting cidrs cidrs, found, foundUsable⟩ } := by
  unfold step at h
  dsimp only at h
  split at h
  · next cidrs found foundUsable hRefresh =>
    exact ⟨cidrs, found, foundUsable, hRefresh, (Option.some.inj h).symm⟩
  · cases h

/-- A batch is stored, or the unique column refuses it. -/
theorem insertBatch_cases (h : step s .insertBatch = some s') :
    ∃ cidrs remaining found foundUsable,
      s.refresh = some ⟨.inserting cidrs remaining, found, foundUsable⟩ ∧
        ((s.inserts ∧ (s.rows ++ remaining.take batchSize).Nodup ∧
            s' = { s with
              rows := s.rows ++ remaining.take batchSize
              refresh := some ⟨.inserting cidrs (remaining.drop batchSize), found, foundUsable⟩ }) ∨
          (¬s.inserts ∧ s' = { s with refresh := none })) := by
  unfold step at h
  dsimp only at h
  split at h
  · next cidrs remaining found foundUsable hRefresh =>
    refine ⟨cidrs, remaining, found, foundUsable, hRefresh, ?_⟩
    split_ifs at h with hDone hNodup
    · refine .inl ⟨?_, hNodup, (Option.some.inj h).symm⟩
      intro r hSame
      rw [hRefresh] at hSame
      cases hSame
      exact hNodup
    · exact .inr ⟨fun hInserts => hNodup (hInserts _ hRefresh), (Option.some.inj h).symm⟩
  · cases h

theorem resetCache_cases (h : step s .resetCache = some s') : ∃ cidrs found foundUsable,
    s.refresh = some ⟨.inserting cidrs [], found, foundUsable⟩ ∧
      s' = { s with cache := none, refresh := some ⟨.inserted cidrs, found, foundUsable⟩ } := by
  unfold step at h
  dsimp only at h
  split at h
  · next cidrs found foundUsable hRefresh =>
    exact ⟨cidrs, found, foundUsable, hRefresh, (Option.some.inj h).symm⟩
  · cases h

theorem finish_cases (h : step s .finish = some s') : ∃ cidrs found foundUsable,
    s.refresh = some ⟨.inserted cidrs, found, foundUsable⟩ ∧
      s' = { s with metadata := some ⟨cidrs.length, .ok⟩, refresh := none } := by
  unfold step at h
  dsimp only at h
  split at h
  · next cidrs found foundUsable hRefresh =>
    exact ⟨cidrs, found, foundUsable, hRefresh, (Option.some.inj h).symm⟩
  · cases h

theorem raises_cases (h : step s .raises = some s') :
    ∃ r, s.refresh = some r ∧ s' = { s with refresh := none } := by
  unfold step at h
  dsimp only at h
  split_ifs at h with hSome
  obtain ⟨r, hRefresh⟩ := Option.isSome_iff_exists.mp hSome
  exact ⟨r, hRefresh, (Option.some.inj h).symm⟩

/-- A load touches only the cache and the loads. -/
theorem load_cases {now : ℕ} (h : step s (.load now) = some s') :
    s' = s ∨ ((usable s.metadata s.rows).isSome = true ∧
      s' = { s with loading := now :: s.loading }) := by
  unfold step State.startLoad at h
  dsimp only at h
  split_ifs at h with hCache hUsable
  · exact .inl (Option.some.inj h).symm
  · exact .inr ⟨hUsable, (Option.some.inj h).symm⟩
  · exact .inl (Option.some.inj h).symm

theorem readRows_cases {now : ℕ} (h : step s (.readRows now) = some s') :
    now ∈ s.loading ∧ s' = { s with
      cache := some ⟨s.rows, now + 300⟩, loading := s.loading.erase now } := by
  unfold step at h
  dsimp only at h
  split_ifs at h with hMem
  exact ⟨hMem, (Option.some.inj h).symm⟩

/-! ## Facts about a refresh under way -/

def Stage.cidrs : Stage → List Network
  | .parsed cidrs => cidrs
  | .inserting cidrs _ => cidrs
  | .inserted cidrs => cidrs

/-- The rows at a stage of a refresh, which found the rows `found`. -/
def RowsAt (rows found : List Network) : Stage → Prop
  | .parsed _ => rows = found
  | .inserting cidrs remaining => rows ++ remaining = cidrs ∧ rows.Nodup
  | .inserted cidrs => rows = cidrs ∧ rows.Nodup

/-- A refresh has downloaded what it is to insert, and has inserted what it should have by now. -/
structure Staged (downloads : List Text) (rows : List Network) (r : Refresh) : Prop where
  downloaded : ∃ text ∈ downloads, r.stage.cidrs = cidrsOf text
  rows : RowsAt rows r.found r.stage

theorem OneOf.more (h : OneOf downloads rows) (text : Text) : OneOf (downloads ++ [text]) rows := by
  obtain ⟨text', hMem, hRows⟩ := h
  exact ⟨text', List.mem_append_left _ hMem, hRows⟩

theorem SoundWith.more (h : SoundWith downloads metadata rows) (text : Text) :
    SoundWith (downloads ++ [text]) metadata rows :=
  fun hOk => ⟨(h hOk).1.more text, (h hOk).2⟩

section

variable {cidrs remaining found : List Network} {foundUsable : Option (List Network)}

/-- The deletion, and everything still to be inserted. -/
theorem staged_clear (h : Staged downloads rows ⟨.parsed cidrs, found, foundUsable⟩) :
    Staged downloads [] ⟨.inserting cidrs cidrs, found, foundUsable⟩ :=
  ⟨h.downloaded, rfl, List.nodup_nil⟩

/-- A batch moves from what remains to the rows. -/
theorem staged_insert
    (h : Staged downloads rows ⟨.inserting cidrs remaining, found, foundUsable⟩)
    (hNodup : (rows ++ remaining.take batchSize).Nodup) :
    Staged downloads (rows ++ remaining.take batchSize)
      ⟨.inserting cidrs (remaining.drop batchSize), found, foundUsable⟩ := by
  refine ⟨h.downloaded, ?_, hNodup⟩
  rw [List.append_assoc, List.take_append_drop]
  exact h.rows.1

/-- All batches are in. -/
theorem staged_reset (h : Staged downloads rows ⟨.inserting cidrs [], found, foundUsable⟩) :
    Staged downloads rows ⟨.inserted cidrs, found, foundUsable⟩ :=
  ⟨h.downloaded, (List.append_nil rows).symm.trans h.rows.1, h.rows.2⟩

/-- What a refresh completes is one download. -/
theorem soundWith_finish (h : Staged downloads rows ⟨.inserted cidrs, found, foundUsable⟩) :
    SoundWith downloads (some ⟨cidrs.length, .ok⟩) rows := by
  obtain ⟨⟨text, hMem, hCidrs⟩, hRows, hNodup⟩ := h
  refine fun _ => ⟨⟨text, hMem, ?_⟩, fun m hSome => ?_⟩
  · rw [← hCidrs]
    show rows.Perm cidrs.dedup
    rw [← hRows, hNodup.dedup]
  · rw [← Option.some.inj hSome, hRows]

end

/-- A usable list is the rows, under metadata that say so. -/
theorem usable_eq_some {list : List Network} (h : usable metadata rows = some list) :
    saysOk metadata = true ∧ (∃ m ∈ metadata, m.cidrCount ≠ 0) ∧ rows = list := by
  unfold usable at h
  split_ifs at h with hUsable
  obtain ⟨hOk, hCount⟩ := Bool.and_eq_true _ _ ▸ hUsable
  refine ⟨hOk, ?_, Option.some.inj h⟩
  cases metadata with
  | none => cases hCount
  | some m => exact ⟨m, rfl, of_decide_eq_true hCount⟩

theorem usable_of_not_ok (h : saysOk metadata = false) : usable metadata rows = none := by
  unfold usable
  rw [h, Bool.false_and, if_neg Bool.false_ne_true]

theorem soundWith_of_not_ok (h : saysOk metadata = false) : SoundWith downloads metadata rows := by
  intro hOk
  rw [h] at hOk
  cases hOk

/-- No row is usable. -/
theorem usable_nil (h : SoundWith downloads metadata []) : usable metadata [] = none := by
  by_contra hNe
  obtain ⟨list, hUsable⟩ := Option.ne_none_iff_exists'.mp hNe
  obtain ⟨hOk, ⟨m, hMem, hCount⟩, -⟩ := usable_eq_some hUsable
  exact hCount ((h hOk).2 m hMem)

variable {a : Action}

/-- A usable list stays usable if a refresh that fails has left what it found, and a failed download
is not noted. -/
theorem keepsUsable_of (hNoted : a = .downloadFails true → usable s.metadata s.rows = none)
    (hLeft : a = .raises ∨ (a = .insertBatch ∧ ¬s.inserts) → ∀ r ∈ s.refresh,
      ∀ list, r.foundUsable = some list → usable s.metadata s.rows = some list) :
    KeepsUsable s a := by
  intro s' hStep hNot hEnded list hBefore
  have hIdle : s.refresh = none → usable s.metadata s.rows = some list := by
    intro hNone
    rw [State.usableBefore, hNone] at hBefore
    exact hBefore
  have hFound : ∀ r, s.refresh = some r → r.foundUsable = some list := by
    intro r hSome
    rw [State.usableBefore, hSome] at hBefore
    exact hBefore
  cases a with
  | download text =>
    obtain ⟨-, rfl⟩ := download_cases hStep
    cases hEnded
  | downloadFails noted =>
    obtain ⟨hNone, rfl | ⟨rfl, rfl⟩⟩ := downloadFails_cases hStep
    · exact hIdle hNone
    · cases (hNoted rfl).symm.trans (hIdle hNone)
  | clear =>
    obtain ⟨_, _, _, -, rfl⟩ := clear_cases hStep
    cases hEnded
  | insertBatch =>
    obtain ⟨_, _, _, _, hRefresh, ⟨-, -, rfl⟩ | ⟨hRefused, rfl⟩⟩ := insertBatch_cases hStep
    · cases hEnded
    · exact hLeft (.inr ⟨rfl, hRefused⟩) _ hRefresh list (hFound _ hRefresh)
  | resetCache =>
    obtain ⟨_, _, _, -, rfl⟩ := resetCache_cases hStep
    cases hEnded
  | finish => exact absurd rfl hNot
  | raises =>
    obtain ⟨r, hRefresh, rfl⟩ := raises_cases hStep
    exact hLeft (.inl rfl) r hRefresh list (hFound r hRefresh)
  | load now =>
    obtain rfl | ⟨-, rfl⟩ := load_cases hStep
    · exact hIdle hEnded
    · exact hIdle hEnded
  | readRows now =>
    obtain ⟨-, rfl⟩ := readRows_cases hStep
    exact hIdle hEnded

/-! ## Quiet runs -/

/-- In a quiet run a usable list is never touched. -/
structure QuietInv (s : State) : Prop where
  sound : Sound s
  cache : CacheSound s
  staged : ∀ r ∈ s.refresh, Staged s.downloads s.rows r
  kept : ∀ r ∈ s.refresh, ∀ list, r.foundUsable = some list →
    usable s.metadata s.rows = some list
  begun : ∀ r ∈ s.refresh, (∀ cidrs, r.stage ≠ .parsed cidrs) → usable s.metadata s.rows = none
  loading : s.loading ≠ [] → usable s.metadata s.rows ≠ none

/-- Without a refresh under way there is nothing more to say. -/
theorem QuietInv.idle (hNone : s.refresh = none) (hSound : Sound s) (hCache : CacheSound s)
    (hLoading : s.loading ≠ [] → usable s.metadata s.rows ≠ none) : QuietInv s := by
  have hIdle : ∀ r, s.refresh ≠ some r := fun r hSome => by cases hNone.symm.trans hSome
  exact ⟨hSound, hCache, fun r hSome => absurd hSome (hIdle r),
    fun r hSome => absurd hSome (hIdle r), fun r hSome => absurd hSome (hIdle r), hLoading⟩

/-- **One step of a quiet run.** A refresh comes to the rows only while they are unusable. -/
theorem quietInv_step (h : QuietInv s) (hQuiet : Quiet s a)
    (hStep : step s a = some s') : QuietInv s' := by
  obtain ⟨hSound, hCache, hStaged, hKept, hBegun, hLoading⟩ := h
  cases a with
  | download text =>
    obtain ⟨hNone, rfl⟩ := download_cases hStep
    refine ⟨hSound.more text, fun c hMem => (hCache c hMem).more text, fun r hSome => ?_,
      fun r hSome list hList => ?_, fun r hSome hNot => ?_, hLoading⟩
    · cases hSome
      exact ⟨⟨text, List.mem_append_right _ (List.mem_singleton_self _), rfl⟩, rfl⟩
    · cases hSome
      exact hList
    · cases hSome
      exact absurd rfl (hNot _)
  | downloadFails noted =>
    obtain ⟨hNone, rfl | ⟨hNoted, rfl⟩⟩ := downloadFails_cases hStep
    · exact ⟨hSound, hCache, hStaged, hKept, hBegun, hLoading⟩
    · exact .idle hNone (soundWith_of_not_ok rfl) hCache
        fun hNe => absurd (hQuiet hNoted) (hLoading hNe)
  -- quiet: rows that are deleted were unusable, so no list is lost
  | clear =>
    obtain ⟨cidrs, found, foundUsable, hRefresh, rfl⟩ := clear_cases hStep
    have hEmptied : SoundWith s.downloads s.metadata [] := by
      by_cases hRows : s.rows = []
      · exact hRows ▸ hSound
      · exact soundWith_of_not_ok (hQuiet hRows)
    have hUnused : usable s.metadata s.rows = none := by
      by_cases hRows : s.rows = []
      · rw [hRows]
        exact usable_nil hEmptied
      · exact usable_of_not_ok (hQuiet hRows)
    refine ⟨hEmptied, hCache, fun r hSome => ?_, fun r hSome list hList => ?_,
      fun _ _ _ => usable_nil hEmptied, fun hNe => absurd hUnused (hLoading hNe)⟩
    · cases hSome
      exact staged_clear (hStaged _ hRefresh)
    · cases hSome
      cases hUnused.symm.trans (hKept _ hRefresh list hList)
  -- the metadata do not say `ok` while rows are missing
  | insertBatch =>
    obtain ⟨cidrs, remaining, found, foundUsable, hRefresh, ⟨hInserts, hNodup, rfl⟩ | ⟨-, rfl⟩⟩ :=
      insertBatch_cases hStep
    · have hNotOk : saysOk s.metadata = false := hQuiet hInserts
      refine ⟨soundWith_of_not_ok hNotOk, hCache, fun r hSome => ?_, fun r hSome list hList => ?_,
        fun _ _ _ => usable_of_not_ok hNotOk,
        fun hNe => absurd (usable_of_not_ok hNotOk) (hLoading hNe)⟩
      · cases hSome
        exact staged_insert (hStaged _ hRefresh) hNodup
      · cases hSome
        cases (usable_of_not_ok hNotOk).symm.trans (hKept _ hRefresh list hList)
    · exact .idle rfl hSound hCache hLoading
  | resetCache =>
    obtain ⟨cidrs, found, foundUsable, hRefresh, rfl⟩ := resetCache_cases hStep
    have hUnused := hBegun _ hRefresh nofun
    refine ⟨hSound, nofun, fun r hSome => ?_, fun r hSome list hList => ?_,
      fun _ _ _ => hUnused, hLoading⟩
    · cases hSome
      exact staged_reset (hStaged _ hRefresh)
    · cases hSome
      exact hKept _ hRefresh list hList
  | finish =>
    obtain ⟨cidrs, found, foundUsable, hRefresh, rfl⟩ := finish_cases hStep
    have hUnused := hBegun _ hRefresh nofun
    exact .idle rfl (soundWith_finish (hStaged _ hRefresh)) hCache
      fun hNe => absurd hUnused (hLoading hNe)
  | raises =>
    obtain ⟨r, hRefresh, rfl⟩ := raises_cases hStep
    exact .idle rfl hSound hCache hLoading
  | load now =>
    obtain rfl | ⟨hUsable, rfl⟩ := load_cases hStep
    · exact ⟨hSound, hCache, hStaged, hKept, hBegun, hLoading⟩
    · exact ⟨hSound, hCache, hStaged, hKept, hBegun, fun _ => Option.isSome_iff_ne_none.mp hUsable⟩
  -- the cache takes what is usable, and nothing else
  | readRows now =>
    obtain ⟨hMem, rfl⟩ := readRows_cases hStep
    obtain ⟨list, hUsable⟩ := Option.ne_none_iff_exists'.mp (hLoading (List.ne_nil_of_mem hMem))
    refine ⟨hSound, fun c hSome => ?_, hStaged, hKept, hBegun, fun _ => ?_⟩
    · cases hSome
      exact (hSound (usable_eq_some hUsable).1).1
    · exact hLoading (List.ne_nil_of_mem hMem)

/-- A quiet step takes no usable list away. -/
theorem keepsUsable_of_quiet (h : QuietInv s) (hQuiet : Quiet s a) : KeepsUsable s a := by
  refine keepsUsable_of (fun hNoted => ?_) fun _ => h.kept
  subst hNoted
  exact hQuiet rfl

/-! ## Complete runs -/

/-- Between refreshes the list is sound, and a refresh under way has found a sound one. -/
structure CompleteInv (s : State) : Prop where
  sound : s.refresh = none → Sound s
  staged : ∀ r ∈ s.refresh, Staged s.downloads s.rows r
  found : ∀ r ∈ s.refresh, SoundWith s.downloads s.metadata r.found
  foundUsable : ∀ r ∈ s.refresh, r.foundUsable = usable s.metadata r.found

/-- A refresh that has left what it found leaves a sound list. -/
theorem sound_of_unharmed (h : CompleteInv s) (hLeft : s.unharmed) {r : Refresh}
    (hRefresh : s.refresh = some r) : SoundWith s.downloads s.metadata s.rows := by
  intro hOk
  rw [hLeft r hRefresh hOk]
  exact h.found r hRefresh hOk

theorem CompleteInv.idle (hNone : s.refresh = none) (hSound : Sound s) : CompleteInv s := by
  have hIdle : ∀ r, s.refresh ≠ some r := fun r hSome => by cases hNone.symm.trans hSome
  exact ⟨fun _ => hSound, fun r hSome => absurd hSome (hIdle r),
    fun r hSome => absurd hSome (hIdle r), fun r hSome => absurd hSome (hIdle r)⟩

/-- A refresh that goes on keeps what it found. -/
theorem CompleteInv.goesOn {r : Refresh} {stage : Stage} {cache : Option Cached}
    (h : CompleteInv s) (hRefresh : s.refresh = some r)
    (hStaged : Staged s.downloads rows { r with stage }) :
    CompleteInv { s with rows, cache, refresh := some { r with stage } } := by
  refine ⟨nofun, fun _ hSome => ?_, fun _ hSome => ?_, fun _ hSome => ?_⟩
  · exact Option.some.inj hSome ▸ hStaged
  · exact Option.some.inj hSome ▸ h.found r hRefresh
  · exact Option.some.inj hSome ▸ h.foundUsable r hRefresh

/-- **One step of a run whose refreshes are complete.** -/
theorem completeInv_step (h : CompleteInv s) (hComplete : Complete s a)
    (hStep : step s a = some s') : CompleteInv s' := by
  cases a with
  | download text =>
    obtain ⟨hNone, rfl⟩ := download_cases hStep
    refine ⟨nofun, fun r hSome => ?_, fun r hSome => ?_,
      fun r hSome => ?_⟩
    · cases hSome
      exact ⟨⟨text, List.mem_append_right _ (List.mem_singleton_self _), rfl⟩, rfl⟩
    · cases hSome
      exact (h.sound hNone).more text
    · cases hSome
      rfl
  | downloadFails noted =>
    obtain ⟨hNone, rfl | ⟨hNoted, rfl⟩⟩ := downloadFails_cases hStep
    · exact ⟨h.sound, h.staged, h.found, h.foundUsable⟩
    · exact .idle hNone (soundWith_of_not_ok rfl)
  | clear =>
    obtain ⟨cidrs, found, foundUsable, hRefresh, rfl⟩ := clear_cases hStep
    exact h.goesOn hRefresh (staged_clear (h.staged _ hRefresh))
  | insertBatch =>
    obtain ⟨cidrs, remaining, found, foundUsable, hRefresh, ⟨-, hNodup, rfl⟩ | ⟨hRefused, rfl⟩⟩ :=
      insertBatch_cases hStep
    · exact h.goesOn hRefresh (staged_insert (h.staged _ hRefresh) hNodup)
    · have hLeft : s.unharmed := hComplete.resolve_left hRefused
      have hSound := sound_of_unharmed h hLeft hRefresh
      exact .idle rfl hSound
  | resetCache =>
    obtain ⟨cidrs, found, foundUsable, hRefresh, rfl⟩ := resetCache_cases hStep
    exact h.goesOn hRefresh (staged_reset (h.staged _ hRefresh))
  | finish =>
    obtain ⟨cidrs, found, foundUsable, hRefresh, rfl⟩ := finish_cases hStep
    exact .idle rfl (soundWith_finish (h.staged _ hRefresh))
  | raises =>
    obtain ⟨r, hRefresh, rfl⟩ := raises_cases hStep
    have hSound := sound_of_unharmed h hComplete hRefresh
    exact .idle rfl hSound
  | load now =>
    obtain rfl | ⟨-, rfl⟩ := load_cases hStep
    · exact ⟨h.sound, h.staged, h.found, h.foundUsable⟩
    · exact ⟨h.sound, h.staged, h.found, h.foundUsable⟩
  | readRows now =>
    obtain ⟨-, rfl⟩ := readRows_cases hStep
    exact ⟨h.sound, h.staged, h.found, h.foundUsable⟩

/-- Nor does a step of a complete refresh. -/
theorem keepsUsable_of_complete (h : CompleteInv s) (hComplete : Complete s a) : KeepsUsable s a := by
  refine keepsUsable_of (fun hNoted => ?_) fun hFails r hRefresh list hList => ?_
  · subst hNoted
    exact hComplete rfl
  · have hLeft : s.unharmed := by
      rcases hFails with rfl | ⟨rfl, hRefused⟩
      · exact hComplete
      · exact hComplete.resolve_left hRefused
    rw [h.foundUsable r hRefresh] at hList
    rw [hLeft r hRefresh (usable_eq_some hList).1]
    exact hList

/-! ## Runs -/

/-- Nothing is under way, and what is stored and cached is sound. -/
structure Resting (s : State) : Prop where
  refresh : s.refresh = none
  loading : s.loading = []
  sound : Sound s
  cache : CacheSound s

/-- A cache at rest starts both kinds of run. -/
theorem Resting.quietInv (h : Resting s) : QuietInv s where
  sound := h.sound
  cache := h.cache
  staged := fun r hSome => by cases h.refresh.symm.trans hSome
  kept := fun r hSome => by cases h.refresh.symm.trans hSome
  begun := fun r hSome => by cases h.refresh.symm.trans hSome
  loading := fun hNe => absurd h.loading hNe

theorem Resting.completeInv (h : Resting s) : CompleteInv s where
  sound := fun _ => h.sound
  staged := fun r hSome => by cases h.refresh.symm.trans hSome
  found := fun r hSome => by cases h.refresh.symm.trans hSome
  foundUsable := fun r hSome => by cases h.refresh.symm.trans hSome

/-- **The index is one downloaded list:** in every state of a quiet run, and between the refreshes
of a complete one; in both a failed refresh leaves a usable list usable. -/
theorem index_is_one_download {s t : State} (hStart : Resting s) (actions : List Action)
    (hExec : exec step s actions = some t) :
    (Along step Quiet s actions →
      Sound t ∧ CacheSound t ∧ Along step KeepsUsable s actions) ∧
    (Along step Complete s actions →
      (t.refresh = none → Sound t) ∧ Along step KeepsUsable s actions) := by
  constructor
  · intro hQuiet
    have hInv := invariant_exec (fun s a s' => quietInv_step) hStart.quietInv hQuiet hExec
    refine ⟨hInv.sound, hInv.cache, ?_⟩
    exact along_of_guard (fun s a s' => quietInv_step) (fun s a => keepsUsable_of_quiet)
      hStart.quietInv hQuiet
  · intro hComplete
    have hInv := invariant_exec (fun s a s' => completeInv_step) hStart.completeInv hComplete hExec
    refine ⟨hInv.sound, ?_⟩
    exact along_of_guard (fun s a s' => completeInv_step) (fun s a => keepsUsable_of_complete)
      hStart.completeInv hComplete

/-! ## Two refreshes -/

instance decidableInserts (s : State) : Decidable s.inserts :=
  inferInstanceAs (Decidable (∀ r ∈ s.refresh, _))

instance decidableQuiet (s : State) : (a : Action) → Decidable (Quiet s a)
  | .downloadFails noted => inferInstanceAs (Decidable (noted = true → _ = none))
  | .clear => inferInstanceAs (Decidable (s.rows ≠ [] → _ = false))
  | .insertBatch => inferInstanceAs (Decidable (s.inserts → _ = false))
  | .download _ => isTrue trivial
  | .resetCache => isTrue trivial
  | .finish => isTrue trivial
  | .raises => isTrue trivial
  | .load _ => isTrue trivial
  | .readRows _ => isTrue trivial

def unfilled : State := ⟨[], none, none, none, [], []⟩

theorem resting_unfilled : Resting unfilled where
  refresh := rfl
  loading := rfl
  sound := nofun
  cache := nofun

def firstRefresh : List Action :=
  [.download "# blocked\n3.0.0.0/8\n3.1.0.0/16\nnone".toList, .clear, .insertBatch, .resetCache,
    .finish, .load 5, .readRows 5]

theorem index_is_first_download : ∃ t, exec step unfilled firstRefresh = some t ∧
    Sound t ∧ CacheSound t ∧ Along step KeepsUsable unfilled firstRefresh := by
  obtain ⟨t, hExec⟩ := Option.isSome_iff_exists.mp
    (show (exec step unfilled firstRefresh).isSome = true by decide)
  exact ⟨t, hExec, (index_is_one_download resting_unfilled firstRefresh hExec).1
    (by decide)⟩

/-- A list with a line twice: the old rows are gone, and the metadata still say `ok`. -/
def repeatedLine : List Action :=
  [.download "5.0.0.0/8\n5.0.0.0/8".toList, .clear, .insertBatch]

theorem not_always_one_download : ¬∀ s t actions, Resting s → exec step s actions = some t →
    Sound t ∧ Along step KeepsUsable s actions := by
  intro hAll
  obtain ⟨t, hExec⟩ := Option.isSome_iff_exists.mp
    (show (exec step unfilled (firstRefresh ++ repeatedLine)).isSome = true by decide)
  have hEnd : (exec step unfilled (firstRefresh ++ repeatedLine)).map
      (fun t => (t.rows, t.metadata)) = some ([], some ⟨2, .ok⟩) := by decide
  rw [hExec, Option.map_some, Option.some.injEq, Prod.mk.injEq] at hEnd
  have hSound := (hAll unfilled t _ resting_unfilled hExec).1
  rw [Sound, hEnd.1, hEnd.2] at hSound
  cases (hSound rfl).2 _ rfl

end AdminPanel.Cidr.Antifilter
