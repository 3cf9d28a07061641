import Mathlib.Algebra.BigOperators.Group.Finset.Basic
import Mathlib.Algebra.Order.Group.Defs
import Mathlib.Tactic.Abel

/-!
# Accounts charged from meters

A meter shows a counter that only ever grows, unless it starts anew. Each reading of a meter
charges an account with what the counter gained since the last reading of that meter.

* `Meters.record` — one reading: the first one of a meter charges its whole counter or nothing,
  and a counter that went down has started anew;
* `keysOf`, `lastSeen`, `start` — the meters of an account, and where their counters stand and
  began;
* `total_readAll` — **telescoping**: over meters that belong to one account each and never go
  down, an account holds the sum of the last counters less the starting ones.
-/

namespace Lib

/-- The counter of the meter `key`; `fromZero` charges a new meter with its whole counter. -/
structure Reading (κ α R : Type) where
  key : κ
  account : α
  fromZero : Bool
  value : R

structure Meters (κ α R : Type) where
  last : κ → Option R
  total : α → R

variable {κ α R : Type} [DecidableEq κ] [DecidableEq α] [AddCommGroup R] [LinearOrder R]

namespace Meters

def empty : Meters κ α R := ⟨fun _ => none, fun _ => 0⟩

/-- What a reading charges when the last counter of the meter was `last`. -/
def charge (last : Option R) (r : Reading κ α R) : R :=
  match last with
  | none => if r.fromZero then r.value else 0
  | some v => if r.value < v then r.value else r.value - v

def record (m : Meters κ α R) (r : Reading κ α R) : Meters κ α R where
  last := Function.update m.last r.key (some r.value)
  total := Function.update m.total r.account (m.total r.account + charge (m.last r.key) r)

theorem total_record (m : Meters κ α R) (r : Reading κ α R) (a : α) :
    (m.record r).total a =
      if r.account = a then m.total a + charge (m.last r.key) r else m.total a := by
  by_cases h : r.account = a
  · subst h
    simp [record]
  · simp [record, h, Function.update_of_ne (Ne.symm h)]

def readAll (rs : List (Reading κ α R)) : Meters κ α R := rs.foldl record empty

end Meters

open List Meters

/-- The meters whose readings charged an account. -/
def keysOf (rs : List (Reading κ α R)) (a : α) : Finset κ :=
  ((rs.filter fun r => r.account = a).map Reading.key).toFinset

def lastSeen (rs : List (Reading κ α R)) (k : κ) : R :=
  ((rs.reverse.find? fun r => r.key = k).map Reading.value).getD 0

/-- Where the counter of a meter began: its first reading, or zero. -/
def start (rs : List (Reading κ α R)) (k : κ) : R :=
  ((rs.find? fun r => r.key = k).map fun r => if r.fromZero then 0 else r.value).getD 0

/-- A meter belongs to one account. -/
def KeysDetermine (rs : List (Reading κ α R)) : Prop :=
  ∀ r ∈ rs, ∀ r' ∈ rs, r.key = r'.key → r.account = r'.account

/-- No counter goes down. -/
def Grows (rs : List (Reading κ α R)) : Prop :=
  rs.Pairwise fun r r' => r.key = r'.key → r.value ≤ r'.value

omit [AddCommGroup R] [LinearOrder R] in
instance (rs : List (Reading κ α R)) : Decidable (KeysDetermine rs) :=
  inferInstanceAs (Decidable (∀ r ∈ rs, ∀ r' ∈ rs, r.key = r'.key → r.account = r'.account))

omit [DecidableEq α] [AddCommGroup R] in
instance (rs : List (Reading κ α R)) : Decidable (Grows rs) :=
  inferInstanceAs (Decidable (rs.Pairwise fun r r' => r.key = r'.key → r.value ≤ r'.value))

/-! ## One more reading -/

variable {rs : List (Reading κ α R)} {k : κ}

omit [AddCommGroup R] [LinearOrder R] in
theorem mem_keysOf {a : α} : k ∈ keysOf rs a ↔ ∃ r ∈ rs, r.account = a ∧ r.key = k := by
  simp [keysOf, and_assoc]

omit [AddCommGroup R] [LinearOrder R] in
theorem keysOf_append (rs : List (Reading κ α R)) (r : Reading κ α R) (a : α) :
    keysOf (rs ++ [r]) a = if r.account = a then insert r.key (keysOf rs a) else keysOf rs a := by
  ext k
  split
  · rename_i h
    simp only [mem_keysOf, Finset.mem_insert, mem_append, mem_singleton]
    constructor
    · rintro ⟨r', hMem | rfl, hAccount, rfl⟩
      · exact .inr ⟨r', hMem, hAccount, rfl⟩
      · exact .inl rfl
    · rintro (rfl | ⟨r', hMem, hAccount, hKey⟩)
      · exact ⟨r, .inr rfl, h, rfl⟩
      · exact ⟨r', .inl hMem, hAccount, hKey⟩
  · rename_i h
    simp only [mem_keysOf, mem_append, mem_singleton]
    constructor
    · rintro ⟨r', hMem | rfl, hAccount, hKey⟩
      · exact ⟨r', hMem, hAccount, hKey⟩
      · exact absurd hAccount h
    · rintro ⟨r', hMem, hAccount, hKey⟩
      exact ⟨r', .inl hMem, hAccount, hKey⟩

omit [DecidableEq α] [LinearOrder R] in
theorem lastSeen_append (rs : List (Reading κ α R)) (r : Reading κ α R) (k : κ) :
    lastSeen (rs ++ [r]) k = if r.key = k then r.value else lastSeen rs k := by
  unfold lastSeen
  rw [reverse_append, reverse_singleton, singleton_append, List.find?_cons]
  by_cases h : r.key = k <;> simp [h]

omit [DecidableEq α] [LinearOrder R] in
theorem start_append_of_mem (r : Reading κ α R)
    (hMem : ∃ r' ∈ rs, r'.key = k) : start (rs ++ [r]) k = start rs k := by
  obtain ⟨r', hMem, hKey⟩ := hMem
  have hSome : (rs.find? fun r => r.key = k).isSome = true := by
    rw [List.find?_isSome]
    exact ⟨r', hMem, by simpa using hKey⟩
  unfold start
  rw [List.find?_append, Option.or_of_isSome hSome]

omit [DecidableEq α] [LinearOrder R] in
theorem start_append_self {r : Reading κ α R} (hNew : ∀ r' ∈ rs, r'.key ≠ r.key) :
    start (rs ++ [r]) r.key = if r.fromZero then 0 else r.value := by
  have hNone : (rs.find? fun r' => r'.key = r.key) = none := by
    rw [List.find?_eq_none]
    intro r' hMem
    simpa using hNew r' hMem
  unfold start
  rw [List.find?_append, hNone]
  simp

theorem readAll_append (rs : List (Reading κ α R)) (r : Reading κ α R) :
    readAll (rs ++ [r]) = (readAll rs).record r := by
  rw [readAll, readAll, foldl_append]
  rfl

theorem last_readAll (rs : List (Reading κ α R)) (k : κ) :
    (readAll rs).last k = (rs.reverse.find? fun r => r.key = k).map Reading.value := by
  induction rs using List.reverseRecOn with
  | nil => rfl
  | append_singleton rs r ih =>
    rw [readAll_append, reverse_append, reverse_singleton, singleton_append,
      List.find?_cons]
    by_cases h : r.key = k
    · subst h
      simp [record]
    · simp [record, Function.update_of_ne (Ne.symm h), h, ih]

theorem last_readAll_of_new (hNew : ∀ r ∈ rs, r.key ≠ k) : (readAll rs).last k = none := by
  rw [last_readAll, Option.map_eq_none_iff, List.find?_eq_none]
  intro r hMem
  simpa using hNew r (mem_reverse.mp hMem)

/-- The last counter of a meter that was read, and one of its readings had it. -/
theorem last_readAll_of_mem (hMem : ∃ r ∈ rs, r.key = k) :
    (readAll rs).last k = some (lastSeen rs k) ∧
      ∃ r ∈ rs, r.key = k ∧ r.value = lastSeen rs k := by
  obtain ⟨r, hMem, hKey⟩ := hMem
  have hSome : (rs.reverse.find? fun r => r.key = k).isSome = true := by
    rw [List.find?_isSome]
    exact ⟨r, mem_reverse.mpr hMem, by simpa using hKey⟩
  obtain ⟨found, hFound⟩ := Option.isSome_iff_exists.mp hSome
  have hLast : lastSeen rs k = found.value := by
    rw [lastSeen, hFound]
    rfl
  refine ⟨?_, found, ?_, ?_, hLast.symm⟩
  · rw [last_readAll, hFound, hLast]
    rfl
  · exact mem_reverse.mp (mem_of_find?_eq_some hFound)
  · simpa using List.find?_some hFound

/-! ## Telescoping -/

section

variable {rs : List (Reading κ α R)} {r : Reading κ α R} {a : α}

omit [LinearOrder R] in
theorem gain_append_of_ne (hMem : k ∈ keysOf rs a) (hNe : k ≠ r.key) :
    lastSeen (rs ++ [r]) k - start (rs ++ [r]) k = lastSeen rs k - start rs k := by
  obtain ⟨r', hRead, -, hKey⟩ := mem_keysOf.mp hMem
  rw [lastSeen_append, if_neg (Ne.symm hNe), start_append_of_mem r ⟨r', hRead, hKey⟩]

/-- A reading of a known meter adds what its counter gained. -/
theorem gain_known (hMem : r.key ∈ keysOf rs a) (hLe : lastSeen rs r.key ≤ r.value) :
    ∑ k ∈ keysOf rs a, (lastSeen (rs ++ [r]) k - start (rs ++ [r]) k) =
      ∑ k ∈ keysOf rs a, (lastSeen rs k - start rs k) + charge (some (lastSeen rs r.key)) r := by
  obtain ⟨r', hRead, -, hKey⟩ := mem_keysOf.mp hMem
  have hRest : ∑ k ∈ (keysOf rs a).erase r.key,
        (lastSeen (rs ++ [r]) k - start (rs ++ [r]) k) =
      ∑ k ∈ (keysOf rs a).erase r.key, (lastSeen rs k - start rs k) :=
    Finset.sum_congr rfl fun k hk =>
      gain_append_of_ne (Finset.mem_of_mem_erase hk) (Finset.ne_of_mem_erase hk)
  rw [← Finset.add_sum_erase _ _ hMem, ← Finset.add_sum_erase _ _ hMem, hRest, lastSeen_append,
    if_pos rfl, start_append_of_mem r ⟨r', hRead, hKey⟩]
  simp only [charge, if_neg (not_lt.mpr hLe)]
  abel

/-- The first reading of a meter adds what its counter gained since its start. -/
theorem gain_new (hNew : ∀ r' ∈ rs, r'.key ≠ r.key) :
    ∑ k ∈ insert r.key (keysOf rs a), (lastSeen (rs ++ [r]) k - start (rs ++ [r]) k) =
      ∑ k ∈ keysOf rs a, (lastSeen rs k - start rs k) + charge none r := by
  have hUnknown : r.key ∉ keysOf rs a := by
    intro hk
    obtain ⟨r', hMem, -, hKey⟩ := mem_keysOf.mp hk
    exact hNew r' hMem hKey
  have hRest : ∑ k ∈ keysOf rs a, (lastSeen (rs ++ [r]) k - start (rs ++ [r]) k) =
      ∑ k ∈ keysOf rs a, (lastSeen rs k - start rs k) :=
    Finset.sum_congr rfl fun k hk => gain_append_of_ne hk fun hEq => hUnknown (hEq ▸ hk)
  rw [Finset.sum_insert hUnknown, hRest, lastSeen_append, if_pos rfl, start_append_self hNew]
  cases hZero : r.fromZero <;> simp [charge, hZero, add_comm]

end

/-- **What the accounts hold after all readings.** -/
theorem total_readAll (hKeys : KeysDetermine rs) (hGrows : Grows rs)
    (a : α) : (readAll rs).total a = ∑ k ∈ keysOf rs a, (lastSeen rs k - start rs k) := by
  induction rs using List.reverseRecOn with
  | nil => rfl
  | append_singleton rs r ih =>
    have hOld : KeysDetermine rs := fun r₁ h₁ r₂ h₂ =>
      hKeys r₁ (mem_append_left _ h₁) r₂ (mem_append_left _ h₂)
    have hOwner : ∀ r' ∈ rs, r'.key = r.key → r'.account = r.account := fun r' hMem =>
      hKeys r' (mem_append_left _ hMem) r
        (mem_append_right _ (mem_singleton_self r))
    have hPair := pairwise_append.mp hGrows
    specialize ih hOld hPair.1
    rw [readAll_append, keysOf_append, total_record]
    by_cases hAccount : r.account = a
    · subst hAccount
      rw [if_pos rfl, if_pos rfl, ih]
      by_cases hRead : ∃ r' ∈ rs, r'.key = r.key
      · obtain ⟨hLast, r', hMem, hKey, hValue⟩ := last_readAll_of_mem hRead
        have hLe : lastSeen rs r.key ≤ r.value :=
          hValue ▸ hPair.2.2 r' hMem r (mem_singleton_self r) hKey
        have hKnown : r.key ∈ keysOf rs r.account :=
          mem_keysOf.mpr ⟨r', hMem, hOwner r' hMem hKey, hKey⟩
        rw [Finset.insert_eq_of_mem hKnown, hLast, gain_known hKnown hLe]
      · have hNew : ∀ r' ∈ rs, r'.key ≠ r.key := fun r' hMem hKey => hRead ⟨r', hMem, hKey⟩
        rw [last_readAll_of_new hNew, gain_new hNew]
    · rw [if_neg hAccount, if_neg hAccount, ih]
      refine (Finset.sum_congr rfl fun k hk => gain_append_of_ne hk ?_).symm
      rintro rfl
      obtain ⟨r', hMem, hOwned, hKey⟩ := mem_keysOf.mp hk
      exact hAccount ((hOwner r' hMem hKey).symm.trans hOwned)

end Lib
