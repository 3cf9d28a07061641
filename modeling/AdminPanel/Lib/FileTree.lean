import AdminPanel.Lib.Table
import Mathlib.Data.List.Infix
import Mathlib.Data.List.Pairwise

/-!
# Trees of files

A directory by the files in it, each under the names on the way to it.

* `FileTree` — no file lies below another one;
* `FileTree.keep`, `put`, `below` — some of the files, one file written over, a subdirectory;
* `FileTree.entries`, `FileTree.ofEntries` — the files as a list and back
  (`file?_ofEntries`).
-/

namespace Lib

open List

variable {α β : Type}

/-- Neither of the two lies below the other. -/
def Apart (p q : List α) : Prop := ¬ p <+: q ∧ ¬ q <+: p

instance [DecidableEq α] : DecidableRel (@Apart α) := fun _ _ => instDecidableAnd

instance : Std.Symm (@Apart α) := ⟨fun _ _ => And.symm⟩

variable {p : List α}

theorem Apart.ne {q : List α} (h : Apart p q) : p ≠ q := by
  rintro rfl
  exact h.1 prefix_rfl

theorem Apart.cons {q : List α} (h : Apart p q) (a : α) : Apart (a :: p) (a :: q) :=
  ⟨fun hPrefix => h.1 (cons_prefix_cons.mp hPrefix).2,
    fun hPrefix => h.2 (cons_prefix_cons.mp hPrefix).2⟩

theorem apart_of_head_ne {a b : α} (h : a ≠ b) (p q : List α) : Apart (a :: p) (b :: q) :=
  ⟨fun hPrefix => h (cons_prefix_cons.mp hPrefix).1,
    fun hPrefix => h (cons_prefix_cons.mp hPrefix).1.symm⟩

/-- The files of a directory under their paths. -/
structure FileTree (α β : Type) where
  files : Table (List α) β
  apart : ∀ p ∈ files.keys, ∀ q ∈ files.keys, p <+: q → p = q

namespace FileTree

variable (t : FileTree α β)

def file? (p : List α) : Option β := t.files.row? p

def hasFiles : Bool := !t.files.keys.isEmpty

def empty : FileTree α β := ⟨Table.empty, nofun⟩

/-- The files whose paths are as `f` says. -/
def keep (f : List α → Bool) : FileTree α β where
  files := t.files.filter fun p _ => f p
  apart := fun p hP q hQ =>
    t.apart p (mem_of_mem_filter hP) q (mem_of_mem_filter hQ)

@[simp] theorem file?_keep (f : List α → Bool) (p : List α) :
    (t.keep f).file? p = if f p then t.file? p else none := by
  show (t.files.row? p).filter (fun _ => f p) = _
  cases h : f p
  · cases t.files.row? p <;> rfl
  · cases hFile : t.files.row? p <;> exact hFile.symm

theorem mem_keys : p ∈ t.files.keys ↔ ∃ c, t.file? p = some c := by
  rw [t.files.mem_keys, Option.isSome_iff_exists]
  rfl

theorem hasFiles_iff : t.hasFiles = true ↔ ∃ p c, t.file? p = some c := by
  rw [hasFiles, Bool.not_eq_true', isEmpty_eq_false_iff_exists_mem]
  exact exists_congr fun p => t.mem_keys

section

variable [DecidableEq α]

/-- A file that is there is written over, or is gone. -/
def put (p : List α) : Option β → FileTree α β
  | none => t.keep (· ≠ p)
  | some c => ⟨t.files.mapRows fun q old => if q = p then c else old, t.apart⟩

theorem file?_put (p q : List α) (left : Option β) :
    (t.put p left).file? q = if q = p then (t.file? q).bind fun _ => left else t.file? q := by
  cases left with
  | none =>
    rw [put, file?_keep]
    by_cases h : q = p
    · rw [if_neg (by simp [h]), if_pos h, Option.bind_fun_none]
    · rw [if_pos (by simp [h]), if_neg h]
  | some c =>
    show (t.files.row? q).map (fun old => if q = p then c else old) = _
    by_cases h : q = p
    · simp only [if_pos h]
      exact Option.map_eq_bind
    · simp only [if_neg h]
      exact Option.map_id'

/-- The rest of the paths that begin with `a`. -/
def pathsBelow (a : α) (paths : List (List α)) : List (List α) :=
  paths.filterMap fun
    | [] => none
    | b :: rest => if b = a then some rest else none

theorem mem_pathsBelow {a : α} {paths : List (List α)} : p ∈ pathsBelow a paths ↔ a :: p ∈ paths := by
  rw [pathsBelow, mem_filterMap]
  constructor
  · rintro ⟨q, hMem, hSome⟩
    match q with
    | [] => cases hSome
    | b :: q =>
      simp only [Option.ite_none_right_eq_some, Option.some.injEq] at hSome
      obtain ⟨rfl, rfl⟩ := hSome
      exact hMem
  · exact fun hMem => ⟨a :: p, hMem, if_pos rfl⟩

theorem nodup_pathsBelow (a : α) {paths : List (List α)} (h : paths.Nodup) :
    (pathsBelow a paths).Nodup := by
  refine h.filterMap ?_
  intro p q rest hP hQ
  match p, q with
  | [], _ => cases hP
  | _ :: _, [] => cases hQ
  | b :: p, c :: q =>
    simp only [Option.mem_def, Option.ite_none_right_eq_some, Option.some.injEq] at hP hQ
    rw [hP.1, hP.2, hQ.1, hQ.2]

/-- The directory of that name. -/
def below (a : α) : FileTree α β where
  files :=
    { keys := pathsBelow a t.files.keys
      row? := fun p => t.files.row? (a :: p)
      nodup := nodup_pathsBelow a t.files.nodup
      mem_keys := by
        intro p
        rw [mem_pathsBelow, t.files.mem_keys] }
  apart := by
    intro p hP q hQ hPrefix
    have hEq := t.apart _ (mem_pathsBelow.mp hP) _ (mem_pathsBelow.mp hQ)
      (cons_prefix_cons.mpr ⟨rfl, hPrefix⟩)
    exact (List.cons.inj hEq).2

@[simp] theorem file?_below (a : α) (p : List α) : (t.below a).file? p = t.file? (a :: p) := rfl

end

/-- The files with their paths. -/
def entries : List (List α × β) :=
  t.files.keys.filterMap fun p => (t.file? p).map (p, ·)

theorem mem_entries {c : β} : (p, c) ∈ t.entries ↔ t.file? p = some c := by
  rw [entries, mem_filterMap]
  constructor
  · rintro ⟨q, -, hSome⟩
    obtain ⟨c', hFile, hPair⟩ := Option.map_eq_some_iff.mp hSome
    cases hPair
    exact hFile
  · exact fun hFile => ⟨p, t.mem_keys.mpr ⟨c, hFile⟩, by rw [hFile]; rfl⟩

theorem keys_apart : t.files.keys.Pairwise Apart := by
  refine t.files.nodup.imp_of_mem ?_
  intro p q hP hQ hNe
  exact ⟨fun hPrefix => hNe (t.apart p hP q hQ hPrefix),
    fun hPrefix => hNe (t.apart q hQ p hP hPrefix).symm⟩

theorem entries_apart : t.entries.Pairwise fun e e' => Apart e.1 e'.1 := by
  refine List.Pairwise.filterMap _ ?_ t.keys_apart
  intro p q hApart e hE e' hE'
  obtain ⟨c, -, rfl⟩ := Option.map_eq_some_iff.mp hE
  obtain ⟨c', -, rfl⟩ := Option.map_eq_some_iff.mp hE'
  exact hApart

section

variable [DecidableEq α] (es : List (List α × β))
  (hApart : es.Pairwise fun e e' => Apart e.1 e'.1)

/-- The tree with these files. -/
def ofEntries : FileTree α β where
  files :=
    { keys := es.map Prod.fst
      row? := fun p => (es.find? fun e => e.1 = p).map Prod.snd
      nodup := pairwise_map.mpr (hApart.imp Apart.ne)
      mem_keys := by
        intro p
        rw [Option.isSome_map, List.find?_isSome, mem_map]
        simp only [decide_eq_true_eq] }
  apart := by
    intro p hP q hQ hPrefix
    by_contra hNe
    have hAll := (pairwise_map.mpr hApart : (es.map Prod.fst).Pairwise Apart)
    exact (hAll.forall hP hQ hNe).1 hPrefix

theorem file?_ofEntries {c : β} : (ofEntries es hApart).file? p = some c ↔ (p, c) ∈ es := by
  show (es.find? fun e => e.1 = p).map Prod.snd = some c ↔ _
  rw [Option.map_eq_some_iff]
  constructor
  · rintro ⟨e, hFind, rfl⟩
    have hPath := List.find?_some hFind
    rw [decide_eq_true_eq] at hPath
    exact hPath ▸ mem_of_find?_eq_some hFind
  · intro hMem
    induction es with
    | nil => cases hMem
    | cons e es ih =>
      rw [pairwise_cons] at hApart
      rw [List.find?_cons]
      rcases mem_cons.mp hMem with rfl | hMem
      · exact ⟨(p, c), by simp, rfl⟩
      · have hNe : e.1 ≠ p := (hApart.1 _ hMem).ne
        simpa [hNe] using ih hApart.2 hMem

end

end FileTree

end Lib
