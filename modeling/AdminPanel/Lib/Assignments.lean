import Mathlib.Data.List.Nodup

/-!
# Lines of assignments

A text is a list of lines, and a reader takes assignments from each line; of several for one key
the last one counts. A writer that knows lines by a key of its own gives the first line of each
key its new value and appends what is left.

* `lastValue` — the value of a key;
* `rewriteLines`, `writtenLines` — the writer;
* `lastValue_written_other` — a key that is not written keeps its value for every reader that
  takes no assignment of it from a line that is replaced;
* `lastValue_written` — a written key has its new value if nothing assigns it behind its first
  line.
-/

namespace Lib

open List

variable {ℓ κ ν : Type} [BEq κ] [LawfulBEq κ]

/-- Of several assignments the last one counts. -/
def lastValue (entries : List (κ × ν)) (key : κ) : Option ν := entries.reverse.lookup key

omit [LawfulBEq κ] in
theorem lastValue_append (as bs : List (κ × ν)) (key : κ) :
    lastValue (as ++ bs) key = (lastValue bs key).or (lastValue as key) := by
  rw [lastValue, reverse_append, List.lookup_append]
  rfl

theorem lastValue_eq_none {entries : List (κ × ν)} {key : κ} :
    lastValue entries key = none ↔ ∀ entry ∈ entries, entry.1 ≠ key := by
  rw [lastValue, lookup_eq_none_iff]
  constructor
  · intro h entry hMem hSame
    exact bne_iff_ne.mp (h entry (mem_reverse.mpr hMem)) hSame.symm
  · intro h entry hMem
    exact bne_iff_ne.mpr fun hSame => h entry (mem_reverse.mp hMem) hSame.symm

theorem lastValue_singleton (key : κ) (value : ν) : lastValue [(key, value)] key = some value :=
  lookup_cons_self

/-- The first line of each key in `updates` gets its new value; with the updates that are left. -/
def rewriteLines (keyOf : ℓ → Option κ) (write : κ → ν → ℓ) :
    List ℓ → List (κ × ν) → List ℓ × List (κ × ν)
  | [], updates => ([], updates)
  | line :: lines, updates =>
    match (keyOf line).bind fun key => (updates.lookup key).map (key, ·) with
    | some (key, value) =>
      let rest := rewriteLines keyOf write lines (updates.filter (·.1 != key))
      (write key value :: rest.1, rest.2)
    | none =>
      let rest := rewriteLines keyOf write lines updates
      (line :: rest.1, rest.2)

/-- What is left is appended. -/
def writtenLines (keyOf : ℓ → Option κ) (write : κ → ν → ℓ) (lines : List ℓ)
    (updates : List (κ × ν)) : List ℓ :=
  (rewriteLines keyOf write lines updates).1 ++
    (rewriteLines keyOf write lines updates).2.map fun (key, value) => write key value

variable {value : ν} {line : ℓ}

section

variable {keyOf : ℓ → Option κ} {write : κ → ν → ℓ} {lines : List ℓ} {updates : List (κ × ν)}

omit [LawfulBEq κ] in
/-- A line stays, or it is the first one of an update. -/
theorem rewriteLines_cons (keyOf : ℓ → Option κ) (write : κ → ν → ℓ) (line : ℓ) (lines : List ℓ)
    (updates : List (κ × ν)) :
    ((∀ key, keyOf line = some key → updates.lookup key = none) ∧
      rewriteLines keyOf write (line :: lines) updates =
        (line :: (rewriteLines keyOf write lines updates).1,
          (rewriteLines keyOf write lines updates).2)) ∨
      ∃ key value, keyOf line = some key ∧ updates.lookup key = some value ∧
        rewriteLines keyOf write (line :: lines) updates =
          (write key value :: (rewriteLines keyOf write lines (updates.filter (·.1 != key))).1,
            (rewriteLines keyOf write lines (updates.filter (·.1 != key))).2) := by
  rw [rewriteLines]
  cases hKey : keyOf line with
  | none => exact .inl ⟨nofun, rfl⟩
  | some key =>
    cases hValue : updates.lookup key with
    | none =>
      refine .inl ⟨fun other hOther => Option.some.inj hOther ▸ hValue, ?_⟩
      simp only [Option.bind_some, hValue, Option.map_none]
    | some value =>
      refine .inr ⟨key, value, rfl, hValue, ?_⟩
      simp only [Option.bind_some, hValue, Option.map_some]

theorem mem_of_lookup_eq {key : κ} (h : updates.lookup key = some value) : (key, value) ∈ updates := by
  obtain ⟨before, after, rfl, -⟩ := lookup_eq_some_iff.mp h
  exact mem_append_right _ mem_cons_self

omit [LawfulBEq κ] in
theorem rewriteLines_left (keyOf : ℓ → Option κ) (write : κ → ν → ℓ) (lines : List ℓ)
    (updates : List (κ × ν)) :
    (rewriteLines keyOf write lines updates).2.Sublist updates := by
  induction lines generalizing updates with
  | nil => exact List.Sublist.refl _
  | cons line lines ih =>
    rcases rewriteLines_cons keyOf write line lines updates with ⟨-, hEq⟩ | ⟨key, value, -, -, hEq⟩
    · rw [hEq]
      exact ih updates
    · rw [hEq]
      exact (ih _).trans filter_sublist

/-- A line of the result is one of the text, or a written one. -/
theorem mem_rewriteLines (h : line ∈ (rewriteLines keyOf write lines updates).1) :
    line ∈ lines ∨ ∃ entry ∈ updates, line = write entry.1 entry.2 := by
  induction lines generalizing updates with
  | nil => exact absurd h not_mem_nil
  | cons first lines ih =>
    rcases rewriteLines_cons keyOf write first lines updates with
      ⟨-, hEq⟩ | ⟨key, value, -, hValue, hEq⟩
    · rw [hEq] at h
      rcases mem_cons.mp h with rfl | hRest
      · exact .inl mem_cons_self
      · exact (ih hRest).imp_left (mem_cons_of_mem _)
    · rw [hEq] at h
      rcases mem_cons.mp h with rfl | hRest
      · exact .inr ⟨(key, value), mem_of_lookup_eq hValue, rfl⟩
      · rcases ih hRest with hIn | ⟨entry, hEntry, hLine⟩
        · exact .inl (mem_cons_of_mem _ hIn)
        · exact .inr ⟨entry, mem_of_mem_filter hEntry, hLine⟩

theorem mem_writtenLines (h : line ∈ writtenLines keyOf write lines updates) :
    line ∈ lines ∨ ∃ entry ∈ updates, line = write entry.1 entry.2 := by
  rcases mem_append.mp h with hRewritten | hAppended
  · exact mem_rewriteLines hRewritten
  · obtain ⟨entry, hEntry, rfl⟩ := mem_map.mp hAppended
    exact .inr ⟨entry, (rewriteLines_left keyOf write lines updates).subset hEntry, rfl⟩

omit [LawfulBEq κ] in
theorem writtenLines_ne_nil (h : updates ≠ []) : writtenLines keyOf write lines updates ≠ [] := by
  intro hNil
  obtain ⟨hRewritten, hAppended⟩ := append_eq_nil_iff.mp hNil
  cases lines with
  | nil => exact h (map_eq_nil_iff.mp hAppended)
  | cons line lines =>
    rcases rewriteLines_cons keyOf write line lines updates with ⟨-, hEq⟩ | ⟨key, value, -, -, hEq⟩
    · rw [hEq] at hRewritten
      cases hRewritten
    · rw [hEq] at hRewritten
      cases hRewritten

/-! ## Readers -/

variable {assigns : ℓ → List (κ × ν)} {key : κ}

/-- Another key keeps its value. -/
theorem lastValue_rewriteLines_other (hKey : ∀ entry ∈ updates, entry.1 ≠ key)
    (hWrite : ∀ entry ∈ updates, assigns (write entry.1 entry.2) = [entry])
    (hOther : ∀ line ∈ lines, ∀ k, keyOf line = some k → (updates.lookup k).isSome = true →
      ∀ entry ∈ assigns line, entry.1 ≠ key) :
    lastValue ((rewriteLines keyOf write lines updates).1.flatMap assigns) key =
      lastValue (lines.flatMap assigns) key := by
  induction lines generalizing updates with
  | nil => rfl
  | cons line lines ih =>
    have hHead := hOther line mem_cons_self
    have hTail : ∀ l ∈ lines, ∀ k, keyOf l = some k → (updates.lookup k).isSome = true →
        ∀ entry ∈ assigns l, entry.1 ≠ key := fun l hMem => hOther l (mem_cons_of_mem _ hMem)
    rcases rewriteLines_cons keyOf write line lines updates with
      ⟨-, hEq⟩ | ⟨k, value, hLine, hValue, hEq⟩
    · rw [hEq, flatMap_cons, flatMap_cons, lastValue_append, lastValue_append,
        ih hKey hWrite hTail]
    have hEntry := mem_of_lookup_eq hValue
    have hNone : lastValue (assigns line) key = none :=
      lastValue_eq_none.mpr (hHead k hLine (by rw [hValue]; rfl))
    have hNew : lastValue (assigns (write k value)) key = none := by
      rw [hWrite _ hEntry, lastValue_eq_none]
      intro entry hMem
      rw [mem_singleton.mp hMem]
      exact hKey _ hEntry
    have hKey' : ∀ entry ∈ updates.filter (·.1 != k), entry.1 ≠ key := fun entry hMem =>
      hKey entry (mem_of_mem_filter hMem)
    have hRest := ih hKey' (fun entry hMem => hWrite entry (mem_of_mem_filter hMem))
      (fun l hMem k' hLine' hSome => hTail l hMem k' hLine'
        (filter_sublist.lookup_isSome hSome))
    rw [hEq, flatMap_cons, flatMap_cons, lastValue_append, lastValue_append, hRest,
      hNone, hNew]

omit [BEq κ] [LawfulBEq κ] in
theorem flatMap_write (hWrite : ∀ entry ∈ updates, assigns (write entry.1 entry.2) = [entry]) :
    (updates.map fun entry => write entry.1 entry.2).flatMap assigns = updates := by
  induction updates with
  | nil => rfl
  | cons entry updates ih =>
    rw [forall_mem_cons] at hWrite
    rw [map_cons, flatMap_cons, hWrite.1, ih hWrite.2]
    rfl

theorem lastValue_of_mem (hNodup : (updates.map (·.1)).Nodup)
    (hMem : (key, value) ∈ updates) : lastValue updates key = some value := by
  obtain ⟨before, after, rfl⟩ := append_of_mem hMem
  rw [map_append, map_cons, nodup_append'] at hNodup
  have hAfter : lastValue after key = none := by
    refine lastValue_eq_none.mpr fun entry hEntry hSame => ?_
    exact (nodup_cons.mp hNodup.2.1).1 (mem_map.mpr ⟨entry, hEntry, hSame⟩)
  rw [lastValue_append, ← singleton_append, lastValue_append, hAfter, lastValue_singleton]
  rfl

/-- **A key that is not written keeps its value.** -/
theorem lastValue_written_other (hKey : ∀ entry ∈ updates, entry.1 ≠ key)
    (hWrite : ∀ entry ∈ updates, assigns (write entry.1 entry.2) = [entry])
    (hOther : ∀ line ∈ lines, ∀ k, keyOf line = some k → (updates.lookup k).isSome = true →
      ∀ entry ∈ assigns line, entry.1 ≠ key) :
    lastValue ((writtenLines keyOf write lines updates).flatMap assigns) key =
      lastValue (lines.flatMap assigns) key := by
  have hLeft := rewriteLines_left keyOf write lines updates
  rw [writtenLines, flatMap_append, lastValue_append,
    lastValue_rewriteLines_other hKey hWrite hOther]
  have hLines := flatMap_write fun entry hMem => hWrite entry (hLeft.subset hMem)
  have hNone := lastValue_eq_none.mpr fun entry hMem => hKey entry (hLeft.subset hMem)
  exact (congrArg (Option.or · _) ((congrArg (lastValue · key) hLines).trans hNone)).trans
    Option.none_or

/-- Behind its first line nothing assigns the key. -/
def LastAt (keyOf : ℓ → Option κ) (assigns : ℓ → List (κ × ν)) (lines : List ℓ) (key : κ) : Prop :=
  ∀ before line after, lines = before ++ line :: after → keyOf line = some key →
    ∀ later ∈ after, ∀ entry ∈ assigns later, entry.1 ≠ key

omit [BEq κ] [LawfulBEq κ] in
theorem LastAt.tail (h : LastAt keyOf assigns (line :: lines) key) :
    LastAt keyOf assigns lines key := fun before l after hLines =>
  h (line :: before) l after (by rw [hLines, cons_append])

/-- A key is written to its first line, or left over. -/
theorem lastValue_rewriteLines (hNodup : (updates.map (·.1)).Nodup) (hMem : (key, value) ∈ updates)
    (hWrite : ∀ entry ∈ updates, assigns (write entry.1 entry.2) = [entry])
    (hLast : LastAt keyOf assigns lines key) :
    (lastValue ((rewriteLines keyOf write lines updates).1.flatMap assigns) key = some value ∧
        ∀ entry ∈ (rewriteLines keyOf write lines updates).2, entry.1 ≠ key) ∨
      (key, value) ∈ (rewriteLines keyOf write lines updates).2 := by
  -- a key that has been written is taken off the updates
  induction lines generalizing updates with
  | nil => exact .inr hMem
  | cons line lines ih =>
    rcases rewriteLines_cons keyOf write line lines updates with
      ⟨-, hEq⟩ | ⟨k, v, hLine, hValue, hEq⟩
    · rw [hEq]
      refine (ih hNodup hMem hWrite hLast.tail).imp_left fun ⟨hNew, hLeft⟩ => ⟨?_, hLeft⟩
      rw [flatMap_cons, lastValue_append, hNew]
      rfl
    · have hRest : ∀ entry ∈ updates.filter (·.1 != k), assigns (write entry.1 entry.2) = [entry] :=
        fun entry hEntry => hWrite entry (mem_of_mem_filter hEntry)
      rw [hEq]
      by_cases hSame : k = key
      · -- the first line of the key: what follows does not assign it
        subst hSame
        have hV : v = value := by
          have hIn := mem_of_lookup_eq hValue
          exact congrArg Prod.snd (inj_on_of_nodup_map hNodup hIn hMem rfl)
        have hGone : ∀ entry ∈ updates.filter (·.1 != k), entry.1 ≠ k := fun entry hEntry =>
          bne_iff_ne.mp (mem_filter.mp hEntry).2
        refine .inl ⟨?_, fun entry hEntry =>
          hGone entry ((rewriteLines_left keyOf write lines _).subset hEntry)⟩
        have hAfter := hLast [] line lines rfl hLine
        have hNone : lastValue (lines.flatMap assigns) k = none := by
          refine lastValue_eq_none.mpr fun entry hEntry => ?_
          obtain ⟨later, hLater, hIn⟩ := mem_flatMap.mp hEntry
          exact hAfter later hLater entry hIn
        rw [flatMap_cons, lastValue_append, lastValue_rewriteLines_other hGone hRest
          (fun later hLater _ _ _ => hAfter later hLater), hNone,
          hWrite _ (mem_of_lookup_eq hValue), lastValue_singleton, hV]
        rfl
      · have hKeep : (key, value) ∈ updates.filter (·.1 != k) :=
          mem_filter.mpr ⟨hMem, bne_iff_ne.mpr fun hEq => hSame hEq.symm⟩
        have hSub : ((updates.filter (·.1 != k)).map (·.1)).Nodup :=
          hNodup.sublist (filter_sublist.map _)
        refine (ih hSub hKeep hRest hLast.tail).imp_left fun ⟨hNew, hLeft⟩ => ⟨?_, hLeft⟩
        rw [flatMap_cons, lastValue_append, hNew]
        rfl

/-- **A written key has its new value**, if it is the last one. -/
theorem lastValue_written (hNodup : (updates.map (·.1)).Nodup) (hMem : (key, value) ∈ updates)
    (hWrite : ∀ entry ∈ updates, assigns (write entry.1 entry.2) = [entry])
    (hLast : LastAt keyOf assigns lines key) :
    lastValue ((writtenLines keyOf write lines updates).flatMap assigns) key = some value := by
  have hLeft := rewriteLines_left keyOf write lines updates
  have hLines := flatMap_write fun entry hEntry => hWrite entry (hLeft.subset hEntry)
  rw [writtenLines, flatMap_append, lastValue_append]
  refine (congrArg (Option.or · _) (congrArg (lastValue · key) hLines)).trans ?_
  rcases lastValue_rewriteLines hNodup hMem hWrite hLast with ⟨hNew, hGone⟩ | hIn
  · rw [hNew, lastValue_eq_none.mpr hGone]
    rfl
  · rw [lastValue_of_mem (hNodup.sublist (hLeft.map _)) hIn]
    rfl

end

end Lib
