import AdminPanel.Lib.PyText

/-!
# Python integers as text

`str(n)` and `int(text)` over lists of characters, with the digits `0` to `9`.

* `intText` — `str(n)`;
* `pyInt?` — `int(text)`: white space at the ends, a sign, single underscores between digits;
* `pyNat?_toDigits` — digits that were written are read back.
-/

namespace Lib.PyText

def intText : ℤ → List Char
  | .ofNat n => Nat.toDigits 10 n
  | .negSucc n => '-' :: Nat.toDigits 10 (n + 1)

/-- Digits, and underscores between them; `afterDigit` says what the last character was. -/
def isDigits (afterDigit : Bool) : List Char → Bool
  | [] => afterDigit
  | c :: cs => if c = '_' then afterDigit && isDigits false cs else c.isDigit && isDigits true cs

def pyNat? (s : List Char) : Option ℕ :=
  if isDigits false s then some (Nat.ofDigitChars 10 (s.filter (· ≠ '_')) 0) else none

/-- `int(text)`; `none` if it raises. -/
def pyInt? (s : List Char) : Option ℤ :=
  match strip s with
  | '-' :: digits => (pyNat? digits).map fun n => -(n : ℤ)
  | '+' :: digits => (pyNat? digits).map fun n => (n : ℤ)
  | digits => (pyNat? digits).map fun n => (n : ℤ)

variable {c : Char}

theorem isDigit_toDigits {n : ℕ} (h : c ∈ Nat.toDigits 10 n) : c.isDigit = true :=
  Nat.isDigit_of_mem_toDigits (by decide) (by decide) h

theorem ne_underscore_of_isDigit (h : c.isDigit = true) : c ≠ '_' := by
  rintro rfl
  cases h

theorem isDigits_of_forall {s : List Char} (h : ∀ c ∈ s, c.isDigit = true) (afterDigit : Bool) :
    isDigits afterDigit s = (afterDigit || !s.isEmpty) := by
  induction s generalizing afterDigit with
  | nil => simp [isDigits]
  | cons c s ih =>
    rw [List.forall_mem_cons] at h
    rw [isDigits, if_neg (ne_underscore_of_isDigit h.1), h.1, ih h.2]
    simp

theorem pyNat?_toDigits (n : ℕ) : pyNat? (Nat.toDigits 10 n) = some n := by
  have hDigits : isDigits false (Nat.toDigits 10 n) = true := by
    rw [isDigits_of_forall fun c => isDigit_toDigits]
    simp [Nat.toDigits_ne_nil]
  have hFilter : (Nat.toDigits 10 n).filter (· ≠ '_') = Nat.toDigits 10 n := by
    refine List.filter_eq_self.mpr fun c hMem => ?_
    simpa using ne_underscore_of_isDigit (isDigit_toDigits hMem)
  rw [pyNat?, if_pos hDigits, hFilter, Nat.ofDigitChars_ten_toDigits]

theorem isSpace_of_isDigit (h : c.isDigit = true) : isSpace c = false := by
  rw [isDigit_iff] at h
  simp only [isSpace, Bool.or_eq_false_iff, Bool.and_eq_false_iff, decide_eq_false_iff_not]
  omega

theorem toLower_of_isDigit (h : c.isDigit = true) : c.toLower = c := by
  rw [isDigit_iff] at h
  apply toLower_of_not_isUpper
  rw [Bool.eq_false_iff, ne_eq, isUpper_iff]
  omega

theorem isSpace_intText {n : ℤ} (h : c ∈ intText n) : isSpace c = false := by
  cases n with
  | ofNat n => exact isSpace_of_isDigit (isDigit_toDigits h)
  | negSucc n =>
    rcases List.mem_cons.mp h with rfl | h
    · decide
    · exact isSpace_of_isDigit (isDigit_toDigits h)

theorem intText_ne_nil (n : ℤ) : intText n ≠ [] := by
  cases n with
  | ofNat n => exact Nat.toDigits_ne_nil
  | negSucc n => exact List.cons_ne_nil _ _

end Lib.PyText
