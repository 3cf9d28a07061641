import Mathlib.Data.List.Basic

/-!
# Locks of open files

`flock(2)`: a lock belongs to an open file, not to a thread or a process. Many open files of one
path may have a shared lock, or one of them an exclusive one.

* `Files` — all files ever opened, by their numbers, with an owner and a lock;
* `free`, `lock`, `unlock` — whether an attempt succeeds, and its effect;
* `Exclusion` — an exclusive lock is alone (`Exclusion.lock`, `Exclusion.unlock`).
-/

namespace Lib.Flock

inductive LockMode
  | shared
  | exclusive
  deriving DecidableEq, Repr

def compatible : LockMode → LockMode → Bool
  | .shared, .shared => true
  | _, _ => false

variable {ο ρ : Type}

/-- An open file of `ρ` that `ο` has opened; a file without a lock is as good as closed. -/
structure OpenFile (ο ρ : Type) where
  owner : ο
  path : ρ
  lock : Option LockMode
  deriving DecidableEq, Repr

abbrev Files (ο ρ : Type) := List (OpenFile ο ρ)

/-- No open file has a lock that keeps this one out. -/
def free [DecidableEq ρ] (files : Files ο ρ) (path : ρ) (mode : LockMode) : Bool :=
  files.all fun file => file.path ≠ path || file.lock.all (compatible mode)

/-- A file is opened and locked; its number is the number of files before. -/
def lock (files : Files ο ρ) (owner : ο) (path : ρ) (mode : LockMode) : Files ο ρ :=
  files ++ [⟨owner, path, some mode⟩]

def unlock (files : Files ο ρ) (fd : ℕ) : Files ο ρ := files.modify fd ({ · with lock := none })

def Exclusion (files : Files ο ρ) : Prop :=
  ∀ (a b : ℕ) (f g : OpenFile ο ρ), files[a]? = some f → files[b]? = some g → a ≠ b →
    f.path = g.path → f.lock = some .exclusive → g.lock = none

section

variable {files : Files ο ρ} {owner : ο} {path : ρ} {mode : LockMode} {fd : ℕ}
  {file : OpenFile ο ρ}

theorem getElem?_lock_new : (lock files owner path mode)[files.length]? =
    some ⟨owner, path, some mode⟩ := List.getElem?_concat_length

theorem getElem?_lock_old (h : files[fd]? = some file) :
    (lock files owner path mode)[fd]? = some file := by
  rw [lock, List.getElem?_append_left (List.getElem?_eq_some_iff.mp h).1, h]

/-- A file after an attempt is one from before or the new one. -/
theorem of_getElem?_lock (h : (lock files owner path mode)[fd]? = some file) :
    files[fd]? = some file ∨ fd = files.length ∧ file = ⟨owner, path, some mode⟩ := by
  rw [lock, List.getElem?_append] at h
  split_ifs at h with hOld
  · exact .inl h
  · have hZero := (List.getElem?_eq_some_iff.mp h).1
    rw [List.length_singleton] at hZero
    have hNew : fd = files.length := by omega
    refine .inr ⟨hNew, ?_⟩
    rw [hNew, Nat.sub_self] at h
    exact (Option.some.inj h).symm

theorem getElem?_unlock_self (h : files[fd]? = some file) :
    (unlock files fd)[fd]? = some { file with lock := none } := by
  rw [unlock, List.getElem?_modify, h]
  simp

theorem getElem?_unlock_ne {other : ℕ} (h : other ≠ fd) :
    (unlock files fd)[other]? = files[other]? := by
  rw [unlock, List.getElem?_modify]
  cases files[other]? <;> simp [h.symm]

/-- Unlocking only takes a lock away. -/
theorem of_getElem?_unlock {other : ℕ} (h : (unlock files fd)[other]? = some file) :
    ∃ old, files[other]? = some old ∧ file.owner = old.owner ∧ file.path = old.path ∧
      (file = old ∧ other ≠ fd ∨ file.lock = none ∧ other = fd) := by
  by_cases hSame : other = fd
  · subst hSame
    cases hOld : files[other]? with
    | none =>
      rw [unlock, List.getElem?_modify, hOld] at h
      cases h
    | some old =>
      rw [getElem?_unlock_self hOld] at h
      cases h
      exact ⟨old, rfl, rfl, rfl, .inr ⟨rfl, rfl⟩⟩
  · rw [getElem?_unlock_ne hSame] at h
    exact ⟨file, h, rfl, rfl, .inl ⟨rfl, hSame⟩⟩

theorem free_iff [DecidableEq ρ] : free files path mode = true ↔
    ∀ (fd : ℕ) (file : OpenFile ο ρ) (held : LockMode), files[fd]? = some file →
      file.path = path → file.lock = some held →
      compatible mode held = true := by
  simp only [free, List.all_eq_true, Bool.or_eq_true, decide_eq_true_eq, List.mem_iff_getElem?,
    forall_exists_index]
  constructor
  · intro h fd file held hAt hPath hHeld
    have hAll := (h file fd hAt).resolve_left (not_not_intro hPath)
    rw [hHeld] at hAll
    exact hAll
  · intro h file fd hAt
    by_cases hPath : file.path = path
    · refine .inr ?_
      cases hHeld : file.lock with
      | none => rfl
      | some held => exact h fd file held hAt hPath hHeld
    · exact .inl hPath

theorem compatible_exclusive : compatible mode .exclusive = false := by
  cases mode <;> rfl

theorem exclusive_compatible : compatible .exclusive mode = false := rfl

theorem Exclusion.lock [DecidableEq ρ] (h : Exclusion files) (hFree : free files path mode = true) :
    Exclusion (lock files owner path mode) := by
  rw [free_iff] at hFree
  intro a b f g hA hB hNe hPath hExclusive
  rcases of_getElem?_lock hA with hA | ⟨rfl, rfl⟩
  · rcases of_getElem?_lock hB with hB | ⟨rfl, rfl⟩
    · exact h a b f g hA hB hNe hPath hExclusive
    · have hHeld := hFree a f .exclusive hA hPath hExclusive
      rw [compatible_exclusive] at hHeld
      cases hHeld
  · rcases of_getElem?_lock hB with hOld | ⟨rfl, rfl⟩
    · obtain rfl : mode = .exclusive := Option.some.inj hExclusive
      refine Option.eq_none_iff_forall_ne_some.mpr fun held hHeld => ?_
      have hBoth := hFree b g held hOld hPath.symm hHeld
      rw [exclusive_compatible] at hBoth
      cases hBoth
    · exact absurd rfl hNe

theorem Exclusion.unlock (h : Exclusion files) (fd : ℕ) : Exclusion (unlock files fd) := by
  intro a b f g hA hB hNe hPath hExclusive
  obtain ⟨f', hA', -, hPathF, hF⟩ := of_getElem?_unlock hA
  obtain ⟨g', hB', -, hPathG, hG⟩ := of_getElem?_unlock hB
  rcases hF with ⟨rfl, -⟩ | ⟨hNone, -⟩
  · rcases hG with ⟨rfl, -⟩ | ⟨hNone, -⟩
    · exact h a b f g hA' hB' hNe hPath hExclusive
    · exact hNone
  · rw [hNone] at hExclusive
    cases hExclusive

end

end Lib.Flock
