import AdminPanel.Lib.Ipv4
import Mathlib.Algebra.Order.Group.Nat
import Mathlib.Algebra.Order.Monoid.NatCast

/-!
# IPv4 networks by inclusion

* `Network.nested` — of two networks with a common address, one lies in the other;
* `Network.single_of_covered` — a network that is covered lies in one of the covering ones, unless
  two of these are the halves of a network.
-/

namespace Lib.Ipv4.Network

variable {m n : Network} {a b : Nat}

/-- A network lies in another one. -/
instance : PartialOrder Network where
  le n m := ∀ a ∈ n, a ∈ m
  le_refl _ _ h := h
  le_trans _ _ _ h h' a hMem := h' a (h a hMem)
  le_antisymm n m h h' := by
    have hBase : n.base = m.base :=
      Nat.le_antisymm (h' _ m.base_mem).1 (h _ n.base_mem).1
    have hSize : ∀ {n m : Network}, n.base = m.base → (∀ a ∈ n, a ∈ m) → n.size ≤ m.size := by
      intro n m hSame hSub
      have hPos := n.size_pos
      have hTop := (hSub (n.base + n.size - 1) ⟨by omega, by omega⟩).2
      omega
    have hEq : n.size = m.size := Nat.le_antisymm (hSize hBase h) (hSize hBase.symm h')
    have hLen := Nat.pow_right_injective (Nat.le_refl 2) hEq
    obtain ⟨base, len, hLe, hLt, hAligned⟩ := n
    obtain ⟨base', len', hLe', hLt', hAligned'⟩ := m
    dsimp only at hBase hLen
    obtain rfl : len = len' := by omega
    subst hBase
    rfl

/-- The addresses of a network are those that agree on its prefix. -/
theorem mem_iff_div : a ∈ n ↔ a / n.size = n.base / n.size := by
  obtain ⟨k, hBase⟩ := n.aligned
  have hPos := n.size_pos
  change n.base = n.size * k at hBase
  rw [mem_iff, hBase, Nat.mul_div_cancel_left _ hPos, Nat.div_eq_iff hPos, Nat.mul_comm n.size k]
  omega

theorem le_of_mem (hLen : m.prefixLen ≤ n.prefixLen) (hN : a ∈ n) (hM : a ∈ m) : n ≤ m := by
  intro b hB
  have hLe := n.prefixLen_le
  have hSize : m.size = n.size * 2 ^ (n.prefixLen - m.prefixLen) := by
    rw [size, size, ← Nat.pow_add]
    congr 1
    omega
  rw [mem_iff_div] at hN hM hB ⊢
  rw [← hM, hSize, ← Nat.div_div_eq_div_mul, ← Nat.div_div_eq_div_mul, hB, hN]

/-- **Two networks are nested or have no common address.** -/
theorem nested (hN : a ∈ n) (hM : a ∈ m) : n ≤ m ∨ m ≤ n :=
  (Nat.le_total m.prefixLen n.prefixLen).imp (fun h => le_of_mem h hN hM) fun h => le_of_mem h hM hN

theorem prefixLen_le_of_le (h : n ≤ m) : m.prefixLen ≤ n.prefixLen := by
  by_contra hLess
  have hLess := Nat.lt_of_not_le hLess
  have hEq : n = m := le_antisymm h (le_of_mem (Nat.le_of_lt hLess) (h _ n.base_mem) n.base_mem)
  rw [hEq] at hLess
  exact absurd hLess (Nat.lt_irrefl _)

instance : DecidableLE Network := fun n m =>
  decidable_of_iff (m.prefixLen ≤ n.prefixLen ∧ n.base ∈ m)
    ⟨fun h => le_of_mem h.1 n.base_mem h.2, fun h => ⟨prefixLen_le_of_le h, h _ n.base_mem⟩⟩

/-! ## Halves -/

theorem top_le (n : Network) : n.base + n.size ≤ 2 ^ 32 := by
  obtain ⟨k, hBase⟩ := n.aligned
  have hLt := n.base_lt
  have hAll : n.size * 2 ^ n.prefixLen = 2 ^ 32 := by
    rw [size, ← Nat.pow_add, Nat.sub_add_cancel n.prefixLen_le]
  change n.base = n.size * k at hBase
  rw [hBase, ← hAll] at hLt ⊢
  have hNext : k + 1 ≤ 2 ^ n.prefixLen := Nat.lt_of_mul_lt_mul_left hLt
  calc n.size * k + n.size = n.size * (k + 1) := (Nat.mul_succ _ _).symm
    _ ≤ n.size * 2 ^ n.prefixLen := Nat.mul_le_mul_left _ hNext

/-- The lower or the upper half of a network. -/
def half (n : Network) (h : n.prefixLen < 32) (upper : Bool) : Network where
  base := n.base + if upper then 2 ^ (32 - (n.prefixLen + 1)) else 0
  prefixLen := n.prefixLen + 1
  prefixLen_le := h
  base_lt := by
    have hTop := n.top_le
    have hPos : 0 < n.size := n.size_pos
    have hHalf : 2 ^ (32 - (n.prefixLen + 1)) < n.size :=
      Nat.pow_lt_pow_right (Nat.lt_succ_self 1) (by omega)
    split_ifs <;> omega
  aligned := by
    have hPow : 2 ^ (32 - (n.prefixLen + 1)) ∣ 2 ^ (32 - n.prefixLen) := Nat.pow_dvd_pow 2 (by omega)
    refine Nat.dvd_add (Nat.dvd_trans hPow n.aligned) ?_
    split_ifs
    · exact Nat.dvd_refl _
    · exact Nat.dvd_zero _

theorem size_eq_add {h : n.prefixLen < 32} {upper : Bool} :
    n.size = (n.half h upper).size + (n.half h upper).size := by
  have hExp : 32 - n.prefixLen = 32 - (n.prefixLen + 1) + 1 := by omega
  change 2 ^ (32 - n.prefixLen) = 2 ^ (32 - (n.prefixLen + 1)) + 2 ^ (32 - (n.prefixLen + 1))
  rw [hExp, Nat.pow_succ, Nat.mul_two]

theorem half_le (h : n.prefixLen < 32) (upper : Bool) : n.half h upper ≤ n := by
  have hSize : n.size = 2 ^ (32 - (n.prefixLen + 1)) + 2 ^ (32 - (n.prefixLen + 1)) :=
    @size_eq_add n h upper
  rintro a ⟨hLow, hHigh⟩
  change n.base + (if upper then 2 ^ (32 - (n.prefixLen + 1)) else 0) ≤ a at hLow
  change a < n.base + (if upper then 2 ^ (32 - (n.prefixLen + 1)) else 0) +
    2 ^ (32 - (n.prefixLen + 1)) at hHigh
  refine ⟨by omega, ?_⟩
  rw [hSize]
  split_ifs at hHigh <;> omega

/-- A network that is covered piece by piece lies in one of the pieces, if no two of them are
halves of one network. -/
theorem single_of_covered {pieces : List Network} (hWhole : ∀ n : Network, ∀ h : n.prefixLen < 32,
      ¬ (n.half h false ∈ pieces ∧ n.half h true ∈ pieces))
    (hCovered : ∀ a ∈ n, ∃ m ∈ pieces, a ∈ m) : ∃ m ∈ pieces, n ≤ m := by
  induction hRest : 32 - n.prefixLen generalizing n with
  | zero =>
    obtain ⟨m, hMem, hBase⟩ := hCovered _ n.base_mem
    have hLe := m.prefixLen_le
    exact ⟨m, hMem, le_of_mem (by omega) n.base_mem hBase⟩
  | succ rest ih =>
    have hLess : n.prefixLen < 32 := by omega
    have hHalf : ∀ upper, ∃ m ∈ pieces, n.half hLess upper ≤ m := fun upper =>
      ih (fun a hMem => hCovered a (half_le hLess upper a hMem)) (by
        show 32 - (n.prefixLen + 1) = rest
        omega)
    -- A piece around a half lies around the network, or is the half.
    have hEither : ∀ upper, (∃ m ∈ pieces, n ≤ m) ∨ n.half hLess upper ∈ pieces := by
      intro upper
      obtain ⟨m, hMem, hLe⟩ := hHalf upper
      have hBase := hLe _ (n.half hLess upper).base_mem
      rcases Nat.lt_or_ge n.prefixLen m.prefixLen with hLen | hLen
      · have hSame : m = n.half hLess upper := le_antisymm
          (le_of_mem hLen hBase (n.half hLess upper).base_mem) hLe
        exact Or.inr (hSame ▸ hMem)
      · exact Or.inl ⟨m, hMem, le_of_mem hLen (half_le hLess upper _
          (n.half hLess upper).base_mem) hBase⟩
    rcases hEither false with hAround | hLower
    · exact hAround
    · rcases hEither true with hAround | hUpper
      · exact hAround
      · exact absurd ⟨hLower, hUpper⟩ (hWhole n hLess)

end Lib.Ipv4.Network
