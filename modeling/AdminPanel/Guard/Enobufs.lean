import AdminPanel.Lib.PyText
import Mathlib.Algebra.GroupWithZero.Nat
import Mathlib.Data.List.MinMax

/-!
# ENOBUFS lines of an OpenVPN journal

`openvpn_buffer_guard_parse.py`: which client a journal blames for full socket buffers.

* `parseEnobufsLine` — one line;
* `summarizeEnobufs` — the hits of a text, counted by client, and the client that has most.
-/

namespace AdminPanel.Guard

open Lib

def enobufsNeedle : List Char := "No buffer space available".toList

/-- The zero of every run of ten decimal digits in Unicode 14. -/
def decimalZeros : List Nat :=
  [0x30, 0x660, 0x6f0, 0x7c0, 0x966, 0x9e6, 0xa66, 0xae6, 0xb66, 0xbe6, 0xc66, 0xce6, 0xd66,
    0xde6, 0xe50, 0xed0, 0xf20, 0x1040, 0x1090, 0x17e0, 0x1810, 0x1946, 0x19d0, 0x1a80, 0x1a90,
    0x1b50, 0x1bb0, 0x1c40, 0x1c50, 0xa620, 0xa8d0, 0xa900, 0xa9d0, 0xa9f0, 0xaa50, 0xabf0,
    0xff10, 0x104a0, 0x10d30, 0x11066, 0x110f0, 0x11136, 0x111d0, 0x112f0, 0x11450, 0x114d0,
    0x11650, 0x116c0, 0x11730, 0x118e0, 0x11950, 0x11c50, 0x11d50, 0x11da0, 0x16a60, 0x16ac0,
    0x16b50, 0x1d7ce, 0x1d7d8, 0x1d7e2, 0x1d7ec, 0x1d7f6, 0x1e140, 0x1e2f0, 0x1e950, 0x1fbf0]

/-- `\d` of a Python pattern. -/
def isDecimal (c : Char) : Bool :=
  decimalZeros.any fun first => first ≤ c.toNat && c.toNat < first + 10

/-- `[0-9a-fA-F.:]` -/
def isAddressChar (c : Char) : Bool :=
  ('0' ≤ c && c ≤ '9') || ('a' ≤ c && c ≤ 'f') || ('A' ≤ c && c ≤ 'F') || c = '.' || c = ':'

def transports : List (List Char) :=
  ["/udp4:", "/udp6:", "/tcp4:", "/tcp6:"].map String.toList

/-- What `_CLIENT_RE` matches: `common_name` and `address:port`. The port ends at white space,
so it begins behind the last colon before it. -/
def matchClient (line : List Char) : Option (List Char × List Char) :=
  let cn := line.takeWhile fun c => !(c = '/' || PyText.isSpace c)
  match transports.findSome? fun t => (line.drop cn.length).dropPrefix? t with
  | none => none
  | some rest =>
    let endpoint := rest.takeWhile fun c => !PyText.isSpace c
    let port := endpoint.rtakeWhile (· ≠ ':')
    let addr := endpoint.take (endpoint.length - port.length - 1)
    if cn ≠ [] ∧ addr ≠ [] ∧ addr.all isAddressChar ∧ port ≠ [] ∧ port.all isDecimal ∧
        enobufsNeedle <:+: rest.drop endpoint.length then
      some (cn, endpoint)
    else none

structure EnobufsHit where
  commonName : Option (List Char)
  realAddress : Option (List Char)
  deriving DecidableEq

def parseEnobufsLine (line : List Char) : Option EnobufsHit :=
  if enobufsNeedle <:+: line then
    match matchClient (PyText.strip line) with
    | some (cn, address) => some ⟨some cn, some address⟩
    | none => some ⟨none, none⟩
  else none

/-- The result of `summarize_enobufs`; `byCn` is in the order of the first hits. -/
structure Summary where
  total : Nat := 0
  byCn : List (List Char × Nat) := []
  addrForCn : List (List Char × List Char) := []
  orphanCount : Nat := 0
  deriving DecidableEq

/-- `by_cn[name] = by_cn.get(name, 0) + 1` -/
def addHit (name : List Char) : List (List Char × Nat) → List (List Char × Nat)
  | [] => [(name, 1)]
  | (cn, n) :: counts => if cn = name then (cn, n + 1) :: counts else (cn, n) :: addHit name counts

namespace Summary

def add (s : Summary) (hit : EnobufsHit) : Summary :=
  match hit.commonName with
  | some cn =>
    { s with
      total := s.total + 1
      byCn := addHit cn s.byCn
      addrForCn :=
        match hit.realAddress with
        | some address => (cn, address) :: s.addrForCn
        | none => s.addrForCn }
  | none => { s with total := s.total + 1, orphanCount := s.orphanCount + 1 }

/-- `max(by_cn, key=by_cn.get)`: the first client with the most hits. -/
def topCn (s : Summary) : Option (List Char) := (s.byCn.argmax (·.2)).map (·.1)

/-- The address of the client's last hit. -/
def topRealAddress (s : Summary) : Option (List Char) :=
  s.topCn.bind fun cn => s.addrForCn.lookup cn

end Summary

def summarizeEnobufs (text : List Char) : Summary :=
  ((PyText.splitLines text).filterMap parseEnobufsLine).foldl Summary.add {}

/-- The client that two lines blame, before the one that a single line does. -/
example : (summarizeEnobufs (PyText.unlines (["bob/udp4:10.0.0.2:5 No buffer space available",
    "alice/udp6:fe80::1:7 write: No buffer space available", "No buffer space available",
    "alice/udp4:10.0.0.1:9 write: No buffer space available"].map String.toList))).topCn =
    some "alice".toList := by decide +kernel

end AdminPanel.Guard
