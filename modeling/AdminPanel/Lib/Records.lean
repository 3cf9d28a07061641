import Mathlib.Data.List.Sort

/-!
# Records run together

Names and contents that are written one after another, with nothing between them, and a hash of
the text.

* `spelled` — the text of a list of records;
* `layout` — the names, with the sizes of the contents;
* `eq_of_spelled` — the layout says where to cut: records of one layout are read back;
* `fingerprint` — the hash of the text, if there are records;
* `told_iff` — when the hash tells two lists of records apart;
* `sortedRecords` — the records under some keys, in the order of the keys.
-/

namespace Lib

open List

variable {κ α : Type}

def spelled (enc : κ → List α) (es : List (κ × List α)) : List α :=
  es.flatMap fun e => enc e.1 ++ e.2

def layout (es : List (κ × List α)) : List (κ × ℕ) := es.map fun e => (e.1, e.2.length)

variable {enc : κ → List α} {es es' : List (κ × List α)}

/-- **Records of one layout that spell the same text are the same.** -/
theorem eq_of_spelled (hLayout : layout es = layout es') (h : spelled enc es = spelled enc es') :
    es = es' := by
  induction es generalizing es' with
  | nil => exact (map_eq_nil_iff.mp hLayout.symm).symm
  | cons e es ih =>
    cases es' with
    | nil => cases hLayout
    | cons e' es' =>
      obtain ⟨hHead, hTail⟩ := List.cons.inj hLayout
      obtain ⟨hName, hSize⟩ := Prod.mk.inj hHead
      rw [spelled, spelled, flatMap_cons, flatMap_cons, hName] at h
      obtain ⟨hFirst, hRest⟩ := append_inj h (by
        rw [length_append, length_append]
        omega)
      rw [Prod.ext hName (append_cancel_left hFirst), ih hTail hRest]

theorem spelled_eq_nil (hEnc : ∀ e ∈ es, enc e.1 ≠ []) : spelled enc es = [] ↔ es = [] := by
  constructor
  · intro h
    cases es with
    | nil => rfl
    | cons e es =>
      rw [spelled, flatMap_cons, append_eq_nil_iff, append_eq_nil_iff] at h
      exact absurd h.1.1 (hEnc e mem_cons_self)
  · rintro rfl
    rfl

/-- A text that is fed record by record. -/
theorem foldl_spelled (text : List α) :
    es.foldl (fun text e => text ++ enc e.1 ++ e.2) text = text ++ spelled enc es := by
  induction es generalizing text with
  | nil => exact (append_nil text).symm
  | cons e es ih =>
    rw [foldl_cons, ih, spelled, spelled, flatMap_cons]
    simp only [append_assoc]

/-! ## The hash of the text -/

section

variable {δ : Type} {sha : List α → δ}

def fingerprint (sha : List α → δ) (enc : κ → List α) (es : List (κ × List α)) : Option δ :=
  if es = [] then none else some (sha (spelled enc es))

/-- The lists do not spell one text in two layouts. -/
def SpelledApart (enc : κ → List α) (es es' : List (κ × List α)) : Prop :=
  layout es = layout es' ∨ spelled enc es ≠ spelled enc es'

instance [DecidableEq κ] [DecidableEq α] : Decidable (SpelledApart enc es es') :=
  inferInstanceAs (Decidable (_ ∨ _))

theorem fingerprint_eq_none : fingerprint sha enc es = none ↔ es = [] := by
  rw [fingerprint]
  by_cases h : es = []
  · rw [if_pos h]
    exact iff_of_true rfl h
  · rw [if_neg h]
    exact iff_of_false (Option.some_ne_none _) h

theorem fingerprint_eq_iff (hSha : Function.Injective sha) (hEnc : ∀ e ∈ es, enc e.1 ≠ [])
    (hEnc' : ∀ e ∈ es', enc e.1 ≠ []) :
    fingerprint sha enc es = fingerprint sha enc es' ↔ spelled enc es = spelled enc es' := by
  have hNil : spelled enc ([] : List (κ × List α)) = [] := rfl
  by_cases h : es = []
  · subst h
    rw [hNil, eq_comm, eq_comm (a := []), spelled_eq_nil hEnc']
    exact fingerprint_eq_none
  · by_cases h' : es' = []
    · subst h'
      rw [hNil, spelled_eq_nil hEnc]
      exact fingerprint_eq_none
    · rw [fingerprint, fingerprint, if_neg h, if_neg h', Option.some.injEq]
      exact hSha.eq_iff

/-- **Equal fingerprints mean equal records** exactly when the lists are spelled apart. -/
theorem told_iff (hSha : Function.Injective sha) (hEnc : ∀ e ∈ es, enc e.1 ≠ [])
    (hEnc' : ∀ e ∈ es', enc e.1 ≠ []) :
    (fingerprint sha enc es = fingerprint sha enc es' ↔ es = es') ↔ SpelledApart enc es es' := by
  rw [fingerprint_eq_iff hSha hEnc hEnc', SpelledApart]
  constructor
  · intro h
    by_cases hSpelled : spelled enc es = spelled enc es'
    · exact Or.inl (by rw [h.mp hSpelled])
    · exact Or.inr hSpelled
  · rintro (hLayout | hNe)
    · exact ⟨eq_of_spelled hLayout, fun h => by rw [h]⟩
    · exact iff_of_false hNe fun h => hNe (by rw [h])

end

/-! ## Records under sorted keys -/

section

variable {β : Type} [LinearOrder κ] {keys keys' : List κ} {read read' : κ → Option β}

/-- The records under those of the keys that have one. -/
def sortedRecords (keys : List κ) (read : κ → Option β) : List (κ × β) :=
  (keys.insertionSort (· ≤ ·)).filterMap fun k => (read k).map (k, ·)

theorem mem_sortedRecords {e : κ × β} :
    e ∈ sortedRecords keys read ↔ e.1 ∈ keys ∧ read e.1 = some e.2 := by
  rw [sortedRecords, mem_filterMap]
  constructor
  · rintro ⟨k, hMem, hSome⟩
    obtain ⟨c, hRead, rfl⟩ := Option.map_eq_some_iff.mp hSome
    exact ⟨(mem_insertionSort _).mp hMem, hRead⟩
  · rintro ⟨hMem, hRead⟩
    exact ⟨e.1, (mem_insertionSort _).mpr hMem, by rw [hRead]; rfl⟩

theorem pairwise_sortedRecords (h : keys.Nodup) :
    (sortedRecords keys read).Pairwise fun e e' => e.1 < e'.1 := by
  have hKeys : (keys.insertionSort (· ≤ ·)).Pairwise (· < ·) := by
    have hSorted := pairwise_insertionSort (· ≤ ·) keys
    have hNodup : (keys.insertionSort (· ≤ ·)).Nodup := (perm_insertionSort _ _).nodup_iff.mpr h
    exact (hSorted.and hNodup).imp fun hBoth => lt_of_le_of_ne hBoth.1 hBoth.2
  refine hKeys.filterMap _ ?_
  intro k k' hLt e hE e' hE'
  obtain ⟨c, -, rfl⟩ := Option.map_eq_some_iff.mp hE
  obtain ⟨c', -, rfl⟩ := Option.map_eq_some_iff.mp hE'
  exact hLt

/-- Sorted records are told by what stands under the keys. -/
theorem sortedRecords_eq_iff (h : keys.Nodup) (h' : keys'.Nodup) :
    sortedRecords keys read = sortedRecords keys' read' ↔
      ∀ k c, (k ∈ keys ∧ read k = some c) ↔ k ∈ keys' ∧ read' k = some c := by
  constructor
  · intro hEq k c
    rw [← mem_sortedRecords (e := (k, c)), hEq, mem_sortedRecords]
  intro hSame
  have hSorted : (sortedRecords keys read).Pairwise fun e e' => e.1 < e'.1 :=
    pairwise_sortedRecords h
  have hSorted' : (sortedRecords keys' read').Pairwise fun e e' => e.1 < e'.1 :=
    pairwise_sortedRecords h'
  have hPerm : (sortedRecords keys read).Perm (sortedRecords keys' read') := by
    refine (perm_ext_iff_of_nodup (hSorted.imp ?_) (hSorted'.imp ?_)).mpr ?_
    · exact fun hLt hEq => hLt.ne (congrArg Prod.fst hEq)
    · exact fun hLt hEq => hLt.ne (congrArg Prod.fst hEq)
    · exact fun e => by rw [mem_sortedRecords, mem_sortedRecords, hSame]
  refine hPerm.eq_of_pairwise ?_ hSorted hSorted'
  exact fun a b _ _ hLt hGt => absurd (hLt.trans hGt) (lt_irrefl _)

theorem sortedRecords_eq_nil : sortedRecords keys read = [] ↔ ∀ k ∈ keys, read k = none := by
  rw [eq_nil_iff_forall_not_mem]
  constructor
  · intro h k hKey
    rw [Option.eq_none_iff_forall_ne_some]
    exact fun c hRead => h (k, c) (mem_sortedRecords.mpr ⟨hKey, hRead⟩)
  · intro h e hMem
    obtain ⟨hKey, hRead⟩ := mem_sortedRecords.mp hMem
    rw [h e.1 hKey] at hRead
    cases hRead

end

end Lib
