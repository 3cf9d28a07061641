import AdminPanel.Lib.Ipv4

/-!
# IPv6 addresses, and addresses of either family

The readers take the texts that Python's `ipaddress` takes, and no others.

* `Ipv6.parseValue` — hextets, one `::`, an IPv4 suffix;
* `Ip.parseAddress`, `Ip.text` — `ip_address` and `str`;
* `Ip.parseNetwork` — `ip_network(strict=False)`.
-/

namespace Lib.Ipv6

def hexDigit (c : Char) : Option Nat :=
  if c.isDigit then some (c.toNat - '0'.toNat)
  else if 'a' ≤ c ∧ c ≤ 'f' then some (c.toNat - 'a'.toNat + 10)
  else if 'A' ≤ c ∧ c ≤ 'F' then some (c.toNat - 'A'.toNat + 10)
  else none

def parseHextet (text : List Char) : Option Nat :=
  if text ≠ [] ∧ text.length ≤ 4 then
    text.foldlM (fun n c => (hexDigit c).map (16 * n + ·)) 0
  else none

def parseHextets (parts : List (List Char)) : Option Nat :=
  parts.foldlM (fun n part => (parseHextet part).map (2 ^ 16 * n + ·)) 0

/-- The parts between the colons; an IPv4 suffix counts as two. -/
def hexParts (text : List Char) : Option (List (List Char)) :=
  let parts := text.splitOn ':'
  let last := parts.getLastD []
  if parts.length < 3 then none
  else if '.' ∈ last then
    (Ipv4.parseAddress last).map fun v =>
      parts.dropLast ++ [Nat.toDigits 16 (v / 2 ^ 16), Nat.toDigits 16 (v % 2 ^ 16)]
  else some parts

/-- The parts on one side of `::`; an empty one at the outer end stands alone. -/
def side (parts : List (List Char)) (outer : List Char) : Option (List (List Char)) :=
  if outer ≠ [] then some parts else if parts.length = 1 then some [] else none

/-- `_ip_int_from_string` -/
def parseValue (text : List Char) : Option Nat :=
  (hexParts text).bind fun parts =>
    let inner := parts.tail.dropLast
    if 9 < parts.length then none
    else if inner.count [] = 0 then if parts.length = 8 then parseHextets parts else none
    else if inner.count [] = 1 then
      let skip := inner.idxOf [] + 1
      let above := parts.take skip
      let below := parts.drop (skip + 1)
      (side above (above.headD [])).bind fun hi =>
        (side below (below.getLastD [])).bind fun lo =>
          if hi.length + lo.length < 8 then
            (parseHextets hi).bind fun h =>
              (parseHextets lo).map fun l => h * 2 ^ (16 * (8 - hi.length)) + l
          else none
    else none

/-- The address and its scope id. -/
def parseScoped (text : List Char) : Option (Nat × Option (List Char)) :=
  let address := text.takeWhile (· ≠ '%')
  match text.drop address.length with
  | [] => (parseValue address).map fun v => (v, none)
  | _ :: scope =>
    if scope = [] ∨ '%' ∈ scope then none else (parseValue address).map fun v => (v, some scope)

/-- Where the longest run of zeros starts, the first of several, and how long it is. -/
def longestZeros : List Nat → Nat → Nat → Nat × Nat → Nat × Nat
  | [], _, _, best => best
  | h :: hextets, index, run, best =>
    if h = 0 then
      longestZeros hextets (index + 1) (run + 1)
        (if best.2 < run + 1 then (index - run, run + 1) else best)
    else longestZeros hextets (index + 1) 0 best

def compressHextets (hextets : List Nat) : List (List Char) :=
  let texts := hextets.map (Nat.toDigits 16)
  let (start, length) := longestZeros hextets 0 0 (0, 0)
  if 1 < length then
    (if start = 0 then [[]] else []) ++ texts.take start ++ [[]] ++ texts.drop (start + length) ++
      (if start + length = texts.length then [[]] else [])
  else texts

def hextetText (value : Nat) : List Char :=
  [':'].intercalate
    (compressHextets ((List.range 8).map fun k => value / 2 ^ (16 * (7 - k)) % 2 ^ 16))

end Lib.Ipv6

namespace Lib.Ip

inductive Address
  | v4 (value : Nat)
  | v6 (value : Nat) (scope : Option (List Char))
  deriving DecidableEq

/-- `ip_address(text)` -/
def parseAddress (text : List Char) : Option Address :=
  ((Ipv4.parseAddress text).map Address.v4).or
    (if '/' ∈ text then none else (Ipv6.parseScoped text).map fun a => .v6 a.1 a.2)

def dottedText (value : Nat) : List Char :=
  ['.'].intercalate ((List.range 4).map fun k => Nat.toDigits 10 (value / 256 ^ (3 - k) % 256))

/-- `str(address)`; from Python 3.13 on, an IPv4-mapped address ends with the IPv4 address. -/
def Address.text (dotsMapped : Bool) : Address → List Char
  | .v4 value => dottedText value
  | .v6 value scope =>
    (if dotsMapped && decide (value / 2 ^ 32 = 2 ^ 16 - 1) then
      "::ffff:".toList ++ dottedText (value % 2 ^ 32)
    else Ipv6.hextetText value) ++ (scope.map ('%' :: ·)).getD []

/-- A network of either family, as far as its range of numbers goes. -/
inductive Network
  | v4 (n : Ipv4.Network)
  | v6 (base prefixLen : Nat)
  deriving DecidableEq

def Network.prefixLen : Network → Nat
  | .v4 n => n.prefixLen
  | .v6 _ prefixLen => prefixLen

/-- `int(network_address)` -/
def Network.first : Network → Nat
  | .v4 n => n.base
  | .v6 base _ => base

/-- `int(broadcast_address)` -/
def Network.last : Network → Nat
  | .v4 n => n.base + n.size - 1
  | .v6 base prefixLen => base + 2 ^ (128 - prefixLen) - 1

/-- An IPv6 network; host bits are cut off. -/
def parseNetwork6 (text : List Char) : Option Network :=
  let parts : Option (Nat × Option (List Char)) × Option Nat :=
    match text.splitOn '/' with
    | [address] => (Ipv6.parseScoped address, some 128)
    | [address, len] =>
      (Ipv6.parseScoped address,
        if Ipv4.isDigits len ∧ Ipv4.decimal len ≤ 128 then some (Ipv4.decimal len) else none)
    | _ => (none, none)
  match parts with
  | (some a, some len) => some (.v6 (a.1 / 2 ^ (128 - len) * 2 ^ (128 - len)) len)
  | _ => none

/-- `ip_network(text, strict=False)` -/
def parseNetwork (text : List Char) : Option Network :=
  ((Ipv4.parseNetwork text).map Network.v4).or (parseNetwork6 text)

/-- The numbers of a network. -/
instance : Membership Nat Network := ⟨fun n a => n.first ≤ a ∧ a ≤ n.last⟩

theorem mem_v4 {n : Ipv4.Network} {a : Nat} : a ∈ Network.v4 n ↔ a ∈ n := by
  have hSize := n.size_pos
  show n.base ≤ a ∧ a ≤ n.base + n.size - 1 ↔ n.base ≤ a ∧ a < n.base + n.size
  omega

theorem Network.first_le_last (n : Network) : n.first ≤ n.last := by
  cases n with
  | v4 n =>
    have hSize := n.size_pos
    exact Nat.le_sub_one_of_lt (Nat.lt_add_of_pos_right hSize)
  | v6 base prefixLen =>
    exact Nat.le_sub_one_of_lt (Nat.lt_add_of_pos_right (Nat.two_pow_pos _))

theorem Network.meets_iff (m n : Network) :
    (∃ a, a ∈ m ∧ a ∈ n) ↔ m.first ≤ n.last ∧ n.first ≤ m.last := by
  have hM := m.first_le_last
  have hN := n.first_le_last
  constructor
  · rintro ⟨a, hInM, hInN⟩
    exact ⟨Nat.le_trans hInM.1 hInN.2, Nat.le_trans hInN.1 hInM.2⟩
  · rintro ⟨hLeft, hRight⟩
    rcases Nat.le_total m.first n.first with hLe | hLe
    · exact ⟨n.first, ⟨hLe, hRight⟩, Nat.le_refl _, hN⟩
    · exact ⟨m.first, ⟨Nat.le_refl _, hM⟩, hLe, hLeft⟩

theorem Network.within_iff (m n : Network) :
    (∀ a ∈ n, a ∈ m) ↔ m.first ≤ n.first ∧ n.last ≤ m.last := by
  have hN := n.first_le_last
  constructor
  · intro h
    exact ⟨(h n.first ⟨Nat.le_refl _, hN⟩).1, (h n.last ⟨hN, Nat.le_refl _⟩).2⟩
  · rintro ⟨hLow, hHigh⟩ a hMem
    exact ⟨Nat.le_trans hLow hMem.1, Nat.le_trans hMem.2 hHigh⟩

example : (parseAddress "2001:DB8::0:1".toList).map (Address.text true) =
    some "2001:db8::1".toList := by decide

end Lib.Ip
