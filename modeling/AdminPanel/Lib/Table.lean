import Mathlib.Data.List.Nodup

/-!
# Keyed tables

A finite table whose rows are addressed by a unique key: the shape of a
database table with a unique constraint. The invariants (every listed key has
a row, no key is listed twice) are fields, so a table that breaks the
constraint cannot be built.

* `Table.set` — insert or overwrite one row (`row?_set_self`, `row?_set_of_ne`);
* `Table.mapRows` — rewrite every row in place (`row?_mapRows`);
* `Table.map` — the rows seen through a function;
* `Table.filter`, `Table.erase` — drop rows (`row?_filter`, `row?_erase`);
* `Table.absorb` — overwrite a table from another one (`row?_absorb`, `keys_absorb`).
-/

namespace Lib

open List

/-- Rows of type `ρ` under distinct keys, listed in insertion order. -/
structure Table (κ ρ : Type) where
  keys : List κ
  row? : κ → Option ρ
  nodup : keys.Nodup
  mem_keys : ∀ k, k ∈ keys ↔ (row? k).isSome = true

namespace Table

variable {κ ρ : Type}

def empty : Table κ ρ where
  keys := []
  row? := fun _ => none
  nodup := nodup_nil
  mem_keys := by simp

section

variable (t : Table κ ρ)

/-- Rewrite every row in place. -/
def mapRows (f : κ → ρ → ρ) : Table κ ρ where
  keys := t.keys
  row? := fun k => (t.row? k).map (f k)
  nodup := t.nodup
  mem_keys := by
    intro k
    rw [t.mem_keys, Option.isSome_map]

/-- The rows seen through `f`. -/
def map {τ : Type} (f : ρ → τ) : Table κ τ where
  keys := t.keys
  row? := fun k => (t.row? k).map f
  nodup := t.nodup
  mem_keys := by
    intro k
    rw [t.mem_keys, Option.isSome_map]

/-- Keep the rows with `p`. -/
def filter (p : κ → ρ → Bool) : Table κ ρ where
  keys := t.keys.filter fun k => ((t.row? k).filter (p k)).isSome
  row? := fun k => (t.row? k).filter (p k)
  nodup := t.nodup.filter _
  mem_keys := by
    intro k
    rw [mem_filter, t.mem_keys, and_iff_right_iff_imp]
    intro h
    obtain ⟨r, hr⟩ := Option.isSome_iff_exists.mp h
    rw [(Option.filter_eq_some_iff.mp hr).1]
    rfl

@[simp] theorem row?_filter (p : κ → ρ → Bool) (k : κ) :
    (t.filter p).row? k = (t.row? k).filter (p k) := rfl

theorem mem_keys_of_row? {t : Table κ ρ} {k : κ} {r : ρ} (h : t.row? k = some r) : k ∈ t.keys := by
  rw [t.mem_keys, h]
  rfl

/-- What holds of every row is looked for at the keys. -/
theorem forall_row_iff (P : ρ → Prop) :
    (∀ k r, t.row? k = some r → P r) ↔ ∀ k ∈ t.keys, ∀ r ∈ t.row? k, P r :=
  ⟨fun h k _ r hRow => h k r hRow, fun h k r hRow => h k (mem_keys_of_row? hRow) r hRow⟩

@[simp] theorem row?_empty (k : κ) : (empty : Table κ ρ).row? k = none := rfl

@[simp] theorem row?_mapRows (f : κ → ρ → ρ) (k : κ) :
    (t.mapRows f).row? k = (t.row? k).map (f k) := rfl

end

variable [DecidableEq κ]

section

variable (t : Table κ ρ)

/-- Insert or overwrite the row of `k`; an existing row keeps its place. -/
def set (k : κ) (r : ρ) : Table κ ρ where
  keys := if k ∈ t.keys then t.keys else t.keys ++ [k]
  row? := Function.update t.row? k (some r)
  nodup := by
    split
    · exact t.nodup
    · next h =>
      rw [nodup_append]
      refine ⟨t.nodup, nodup_singleton k, ?_⟩
      intro a ha b hb hab
      rw [mem_singleton] at hb
      exact h (hb ▸ hab ▸ ha)
  mem_keys := by
    intro a
    by_cases hak : a = k
    · subst hak
      split <;> simp_all
    · rw [Function.update_of_ne hak]
      split <;> simp [hak, t.mem_keys]

def erase (k : κ) : Table κ ρ := t.filter fun a _ => a ≠ k

theorem row?_erase (k a : κ) : (t.erase k).row? a = if a = k then none else t.row? a := by
  unfold erase
  rw [row?_filter]
  by_cases h : a = k
  · rw [if_pos h]
    cases t.row? a <;> simp [h]
  · rw [if_neg h]
    cases t.row? a <;> simp [h]

@[simp] theorem row?_set_self (k : κ) (r : ρ) : (t.set k r).row? k = some r := by
  simp [set]

@[simp] theorem row?_set_of_ne {k a : κ} (r : ρ) (h : a ≠ k) : (t.set k r).row? a = t.row? a := by
  simp [set, h]

theorem row?_set (k a : κ) (r : ρ) : (t.set k r).row? a = if a = k then some r else t.row? a := by
  split
  · next h => rw [h, row?_set_self]
  · next h => rw [row?_set_of_ne t r h]

theorem keys_set_of_some {t : Table κ ρ} {k : κ} {r r' : ρ} (h : t.row? k = some r') :
    (t.set k r).keys = t.keys := by
  have hk : k ∈ t.keys := by rw [t.mem_keys, h]; rfl
  simp [set, hk]

/-- Write every row of `s` into `t`, combined by `f` with the row it meets there. -/
def absorb {τ : Type} (s : Table κ τ) (f : τ → Option ρ → ρ) : Table κ ρ :=
  s.keys.foldl
    (fun t k =>
      match s.row? k with
      | some r => t.set k (f r (t.row? k))
      | none => t) t

/-- Absorbing a table touches the keys it has. -/
theorem row?_absorb {τ : Type} (s : Table κ τ) (f : τ → Option ρ → ρ) (k : κ) :
    (t.absorb s f).row? k =
      match s.row? k with
      | some r => some (f r (t.row? k))
      | none => t.row? k := by
  have hFold : ∀ (ks : List κ), ks.Nodup → ∀ t : Table κ ρ,
      (ks.foldl (fun t k =>
        match s.row? k with
        | some r => t.set k (f r (t.row? k))
        | none => t) t).row? k =
      if k ∈ ks then
        match s.row? k with
        | some r => some (f r (t.row? k))
        | none => t.row? k
      else t.row? k := by
    intro ks hNodup
    induction ks with
    | nil => intro t; simp
    | cons a ks ih =>
      intro t
      rw [nodup_cons] at hNodup
      rw [foldl_cons, ih hNodup.2]
      by_cases hka : k = a
      · subst hka
        rw [if_neg hNodup.1, if_pos mem_cons_self]
        cases s.row? k with
        | none => rfl
        | some r => exact row?_set_self _ _ _
      · have hKept : (match s.row? a with
            | some r => t.set a (f r (t.row? a))
            | none => t).row? k = t.row? k := by
          cases s.row? a with
          | none => rfl
          | some r => exact row?_set_of_ne _ _ hka
        rw [hKept]
        simp only [mem_cons, hka, false_or]
  rw [absorb, hFold s.keys s.nodup t]
  split
  · rfl
  · next hMem =>
    rw [s.mem_keys, Option.isSome_iff_ne_none, not_not] at hMem
    rw [hMem]

/-- Absorbing a table only adds keys, behind those that are there. -/
theorem keys_absorb {τ : Type} (s : Table κ τ) (f : τ → Option ρ → ρ) :
    ∃ added, (t.absorb s f).keys = t.keys ++ added ∧
      ∀ k ∈ added, k ∈ s.keys ∧ k ∉ t.keys := by
  have hFold : ∀ (ks : List κ) (t : Table κ ρ), ∃ added,
      (ks.foldl (fun t k =>
        match s.row? k with
        | some r => t.set k (f r (t.row? k))
        | none => t) t).keys = t.keys ++ added ∧ ∀ k ∈ added, k ∈ ks ∧ k ∉ t.keys := by
    intro ks
    induction ks with
    | nil => exact fun t => ⟨[], (append_nil _).symm, by simp⟩
    | cons a ks ih =>
      intro t
      rw [foldl_cons]
      have hOne : ∃ one, (match s.row? a with
          | some r => t.set a (f r (t.row? a))
          | none => t).keys = t.keys ++ one ∧ ∀ k ∈ one, k = a ∧ k ∉ t.keys := by
        cases s.row? a with
        | none => exact ⟨[], (append_nil _).symm, by simp⟩
        | some r =>
          by_cases ha : a ∈ t.keys
          · exact ⟨[], by simp [set, ha], by simp⟩
          · exact ⟨[a], by simp [set, ha], by simpa using ha⟩
      obtain ⟨one, hOneKeys, hOne⟩ := hOne
      obtain ⟨rest, hRestKeys, hRest⟩ := ih _
      refine ⟨one ++ rest, by rw [hRestKeys, hOneKeys, append_assoc], ?_⟩
      intro k hk
      rcases mem_append.mp hk with hk | hk
      · exact ⟨(hOne k hk).1 ▸ mem_cons_self, (hOne k hk).2⟩
      · obtain ⟨hMem, hNew⟩ := hRest k hk
        rw [hOneKeys, mem_append, not_or] at hNew
        exact ⟨mem_cons_of_mem a hMem, hNew.1⟩
  exact hFold s.keys t

end

end Table

end Lib
