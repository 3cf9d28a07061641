import Mathlib.Data.List.Basic
import Mathlib.Algebra.GroupWithZero.Nat

/-!
# IPv4 addresses and networks

Addresses are numbers below `2 ^ 32`; a network is an aligned range of them. The
readers take the texts that Python's `ipaddress` takes, and no others.

* `parseAddress` — four decimal octets without leading zeros;
* `parseNetwork` — an address with a prefix length, a netmask or a hostmask; host
  bits are cut off (`strict=False`);
* `Network.base_mem` — a network has an address.
-/

namespace Lib.Ipv4

structure Network where
  base : Nat
  prefixLen : Nat
  prefixLen_le : prefixLen ≤ 32
  base_lt : base < 2 ^ 32
  aligned : 2 ^ (32 - prefixLen) ∣ base
  deriving DecidableEq

namespace Network

def size (n : Network) : Nat := 2 ^ (32 - n.prefixLen)

instance : Membership Nat Network := ⟨fun n a => n.base ≤ a ∧ a < n.base + n.size⟩

theorem mem_iff {n : Network} {a : Nat} : a ∈ n ↔ n.base ≤ a ∧ a < n.base + n.size := Iff.rfl

instance (n : Network) (a : Nat) : Decidable (a ∈ n) :=
  inferInstanceAs (Decidable (n.base ≤ a ∧ a < n.base + n.size))

theorem size_pos (n : Network) : 0 < n.size := Nat.two_pow_pos _

theorem base_mem (n : Network) : n.base ∈ n := by
  have := n.size_pos
  exact ⟨Nat.le_refl _, by omega⟩

/-- The network of an address: its host bits are cut off. -/
def ofAddress (a len : Nat) (hAddress : a < 2 ^ 32) (hLen : len ≤ 32) : Network where
  base := a / 2 ^ (32 - len) * 2 ^ (32 - len)
  prefixLen := len
  prefixLen_le := hLen
  base_lt := Nat.lt_of_le_of_lt (Nat.div_mul_le_self _ _) hAddress
  aligned := Nat.dvd_mul_left _ _

end Network

/-! ## Texts -/

/-- The number that decimal digits spell. -/
def decimal (digits : List Char) : Nat :=
  digits.foldl (fun n c => 10 * n + (c.toNat - '0'.toNat)) 0

/-- `isascii()` and `isdigit()` -/
def isDigits (text : List Char) : Bool := text ≠ [] && text.all Char.isDigit

/-- One octet: at most three digits, no leading zero, at most 255. -/
def parseOctet (text : List Char) : Option Nat :=
  if isDigits text ∧ text.length ≤ 3 ∧ (text.length = 1 ∨ text.head? ≠ some '0') ∧
      decimal text ≤ 255 then some (decimal text)
  else none

/-- `int(IPv4Address(text))` -/
def parseAddress (text : List Char) : Option Nat :=
  match (text.splitOn '.').map parseOctet with
  | [some a, some b, some c, some d] => some (((a * 256 + b) * 256 + c) * 256 + d)
  | _ => none

/-- The length of a prefix: digits, a netmask, or else a hostmask. -/
def parsePrefixLen (text : List Char) : Option Nat :=
  if isDigits text ∧ decimal text ≤ 32 then some (decimal text)
  else (parseAddress text).bind fun mask =>
    (List.range 33).find? (fun len => mask = 2 ^ 32 - 2 ^ (32 - len)) <|>
      (List.range 33).find? (fun len => mask = 2 ^ (32 - len) - 1)

/-- `IPv4Network(text, strict=False)` -/
def parseNetwork (text : List Char) : Option Network :=
  let parts : Option Nat × Option Nat :=
    match text.splitOn '/' with
    | [address] => (parseAddress address, some 32)
    | [address, mask] => (parseAddress address, parsePrefixLen mask)
    | _ => (none, none)
  match parts with
  | (some a, some len) =>
    if h : a < 2 ^ 32 ∧ len ≤ 32 then some (.ofAddress a len h.1 h.2) else none
  | _ => none

theorem mem_of_mem_intercalate {α : Type} {sep c : α} {parts : List (List α)}
    (h : c ∈ [sep].intercalate parts) : c = sep ∨ ∃ part ∈ parts, c ∈ part := by
  induction parts with
  | nil => cases h
  | cons part parts ih =>
    cases parts with
    | nil =>
      rw [List.intercalate_singleton] at h
      exact .inr ⟨part, List.mem_cons_self, h⟩
    | cons next parts =>
      rw [List.intercalate_cons_cons, List.mem_append, List.mem_append, List.mem_singleton] at h
      rcases h with (hPart | hSep) | hRest
      · exact .inr ⟨part, List.mem_cons_self, hPart⟩
      · exact .inl hSep
      · rcases ih hRest with hSep | ⟨other, hOther, hC⟩
        · exact .inl hSep
        · exact .inr ⟨other, List.mem_cons_of_mem _ hOther, hC⟩

/-- An address is spelled with digits and dots. -/
theorem isDigit_of_parseAddress {text : List Char} {a : Nat} (h : parseAddress text = some a)
    {c : Char} (hMem : c ∈ text) : c = '.' ∨ c.isDigit = true := by
  have hText : ['.'].intercalate (text.splitOn '.') = text := List.intercalate_splitOn '.'
  rw [← hText] at hMem
  rcases mem_of_mem_intercalate hMem with hDot | ⟨octet, hOctet, hC⟩
  · exact .inl hDot
  refine .inr ?_
  have hSome : (parseOctet octet).isSome = true := by
    have hParsed := List.mem_map_of_mem (f := parseOctet) hOctet
    rw [parseAddress] at h
    split at h
    · rename_i hParts
      rw [hParts] at hParsed
      grind
    · cases h
  rw [parseOctet] at hSome
  split_ifs at hSome with hDigits
  · exact List.all_eq_true.mp (Bool.and_eq_true_iff.mp hDigits.1).2 c hC
  · cases hSome

example : (parseNetwork "10.1.2.3/255.255.0.0".toList).map (fun n => (n.base, n.prefixLen)) =
    some (10 * 256 ^ 3 + 256 ^ 2, 16) := by decide

end Lib.Ipv4
