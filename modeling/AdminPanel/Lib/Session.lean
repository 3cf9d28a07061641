import AdminPanel.Lib.Table

/-!
# Sessions with an identity map

A unit of work over a keyed table, as an object-relational mapper keeps it. The
first access to a row loads it; later accesses see the loaded object, with the
changes made to it, and not the table. A commit writes the changed columns back
and forgets the objects; a rollback forgets them unwritten.

Which columns a row has is left to `merge loaded changed stored`: the stored row
with the columns in which `changed` differs from `loaded` taken from `changed`.

* `view` — what an access sees;
* `write` — change the object of a row, or create a row;
* `sync` — what an `UPDATE` statement does to the object of its row;
* `commitInto` — the table after a commit (`row?_commitInto`);
* `Fresh` — the session has loaded the row as it is stored, or not at all.
-/

namespace Lib

/-- An object: the row it was loaded from, if any, and its values now. -/
structure SessionRow (ρ : Type) where
  loaded : Option ρ
  current : ρ

structure Session (κ ρ : Type) where
  objects : Table κ (SessionRow ρ)

namespace Session

variable {κ ρ : Type}

def empty : Session κ ρ := ⟨Table.empty⟩

/-- What an access to the row sees. -/
def view (s : Session κ ρ) (t : Table κ ρ) (k : κ) : Option ρ :=
  match s.objects.row? k with
  | some o => some o.current
  | none => t.row? k

@[simp] theorem view_empty (t : Table κ ρ) (k : κ) : (empty : Session κ ρ).view t k = t.row? k :=
  rfl

variable [DecidableEq κ]

section

variable (s : Session κ ρ) (t : Table κ ρ) (k a : κ)

/-- Access the row: load it unless it is loaded. -/
def load (k : κ) : Session κ ρ :=
  match s.objects.row? k with
  | some _ => s
  | none =>
    match t.row? k with
    | some r => ⟨s.objects.set k ⟨some r, r⟩⟩
    | none => s

/-- Give the row's object new values; a row that does not exist is created. -/
def write (k : κ) (r : ρ) : Session κ ρ :=
  match s.objects.row? k with
  | some o => ⟨s.objects.set k ⟨o.loaded, r⟩⟩
  | none => ⟨s.objects.set k ⟨t.row? k, r⟩⟩

/-- An `UPDATE` statement that changes the stored row by `f`: the row's object, if
there is one, follows. -/
def sync (k : κ) (f : ρ → ρ) : Session κ ρ :=
  match s.objects.row? k with
  | some o => ⟨s.objects.set k ⟨o.loaded.map f, f o.current⟩⟩
  | none => s

/-- What a commit leaves in a row that the session has an object of. -/
def writeBack (merge : ρ → ρ → ρ → ρ) (o : SessionRow ρ) (stored : Option ρ) : ρ :=
  match o.loaded, stored with
  | some loaded, some stored => merge loaded o.current stored
  | _, _ => o.current

def commitInto (merge : ρ → ρ → ρ → ρ) (t : Table κ ρ) : Table κ ρ :=
  t.absorb s.objects (writeBack merge)

theorem row?_commitInto (merge : ρ → ρ → ρ → ρ) (t : Table κ ρ) (k : κ) :
    (s.commitInto merge t).row? k =
      match s.objects.row? k with
      | some o => some (writeBack merge o (t.row? k))
      | none => t.row? k := by
  rw [commitInto, Table.row?_absorb]
  cases s.objects.row? k <;> rfl

theorem row?_load :
    (s.load t k).objects.row? a =
      if a = k ∧ s.objects.row? k = none then (t.row? k).map fun r => ⟨some r, r⟩
      else s.objects.row? a := by
  unfold load
  cases hObj : s.objects.row? k with
  | some o => simp
  | none =>
    by_cases ha : a = k
    · subst ha
      cases t.row? a <;> simp [hObj]
    · cases t.row? k <;> simp [ha]

theorem row?_write (r : ρ) :
    (s.write t k r).objects.row? a =
      if a = k then
        some ⟨(match s.objects.row? k with | some o => o.loaded | none => t.row? k), r⟩
      else s.objects.row? a := by
  unfold write
  by_cases ha : a = k
  · subst ha
    cases s.objects.row? a <;> simp
  · cases s.objects.row? k <;> simp [ha]

theorem row?_sync (f : ρ → ρ) :
    (s.sync k f).objects.row? a =
      if a = k then (s.objects.row? a).map fun o => ⟨o.loaded.map f, f o.current⟩
      else s.objects.row? a := by
  unfold sync
  by_cases ha : a = k
  · subst ha
    cases hObj : s.objects.row? a <;> simp [hObj]
  · cases s.objects.row? k <;> simp [ha]

@[simp] theorem view_load : (s.load t k).view t a = s.view t a := by
  unfold view
  rw [row?_load]
  by_cases h : a = k ∧ s.objects.row? k = none
  · rw [if_pos h]
    obtain ⟨rfl, hObj⟩ := h
    rw [hObj]
    cases t.row? a <;> rfl
  · rw [if_neg h]

theorem view_write (r : ρ) : (s.write t k r).view t a = if a = k then some r else s.view t a := by
  unfold view
  rw [row?_write]
  by_cases ha : a = k
  · rw [if_pos ha, if_pos ha]
  · rw [if_neg ha, if_neg ha]

/-- What the session has loaded of the row, if anything, is what is stored. -/
def Fresh (k : κ) : Prop :=
  ∀ o, s.objects.row? k = some o → o.loaded = t.row? k

/-- A commit of a fresh row stores what the session sees. -/
theorem row?_commitInto_of_fresh {s : Session κ ρ} {merge : ρ → ρ → ρ → ρ} {t : Table κ ρ}
    {k : κ} (hMerge : ∀ loaded r, merge loaded r loaded = r) (h : s.Fresh t k) :
    (s.commitInto merge t).row? k = s.view t k := by
  rw [row?_commitInto]
  unfold view
  cases hObj : s.objects.row? k with
  | none => rfl
  | some o =>
    have hLoaded := h o hObj
    simp only [writeBack, ← hLoaded]
    cases o.loaded with
    | none => rfl
    | some l => simp only [hMerge]

omit [DecidableEq κ] in
theorem fresh_empty (k : κ) : (empty : Session κ ρ).Fresh t k := by
  intro o h
  cases h

end

theorem fresh_load {s : Session κ ρ} {t : Table κ ρ} {k : κ} (a : κ) (h : s.Fresh t k) :
    (s.load t a).Fresh t k := by
  intro o hObj
  rw [row?_load] at hObj
  split at hObj
  · next hk =>
    obtain ⟨rfl, -⟩ := hk
    rw [Option.map_eq_some_iff] at hObj
    obtain ⟨r, hr, rfl⟩ := hObj
    exact hr.symm
  · exact h o hObj

theorem fresh_write {s : Session κ ρ} {t : Table κ ρ} {k : κ} (a : κ) (r : ρ)
    (h : s.Fresh t k) : (s.write t a r).Fresh t k := by
  intro o hObj
  rw [row?_write] at hObj
  split at hObj
  · next hk =>
    subst hk
    cases hObj
    cases hOld : s.objects.row? k with
    | none => rfl
    | some o => exact h o hOld
  · exact h o hObj

end Session

end Lib
