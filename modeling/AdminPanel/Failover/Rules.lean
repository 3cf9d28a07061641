import AdminPanel.Lib.Ipv4
import AdminPanel.Lib.PyInt

/-!
# NAT rules of failover fronts

The part of `iptables_dest.py` that points the rules of a pool at one of its members. A pool knows
its rules by a comment, `az-failover:<label>` or `az-failover-awg3:<label>`, and looks for it as a
substring of the line.

* `detectFailoverDestination`, `planFailoverSwitch`, `planFailoverTeardown` — pools of AmneziaWG 2;
* `detectAwg3Destination`, `planAwg3Switch`, `planAwg3Teardown` — pools of AmneziaWG 3.

Labels are lower-cased as ASCII, and a line with a tag is ASCII: `str.lower`, `str.upper`, `\d` and
the ignored case of the patterns are those of ASCII.
-/

namespace AdminPanel.Failover

open Lib.PyText (isSpace strip splitLines intText)
open Lib.Ipv4 (parseAddress)

abbrev Text := List Char

/-! ## Patterns -/

/-- A literal of a pattern; `fold` is what the pattern compares. -/
def literal (fold : Char → Char) (word text : Text) : Option Text :=
  if word.map fold = (text.take word.length).map fold then some (text.drop word.length) else none

/-- `\s+` -/
def spaces (text : Text) : Option Text :=
  if (text.head?.any isSpace) then some (text.dropWhile isSpace) else none

/-- `\d{1,3}`: the digits and what follows. -/
def octet (text : Text) : Option (Text × Text) :=
  let digits := (text.take 3).takeWhile Char.isDigit
  if digits = [] then none else some (digits, text.drop digits.length)

/-- `\d{1,3}(?:\.\d{1,3}){n}` -/
def octets : Nat → Text → Option (Text × Text)
  | 0, text => octet text
  | n + 1, text =>
    (octet text).bind fun (first, rest) =>
      match rest with
      | '.' :: rest => (octets n rest).map fun (others, rest) => (first ++ '.' :: others, rest)
      | _ => none

/-- `re.search`: the leftmost match. -/
def search (pattern : Text → Option Text) (line : Text) : Option Text :=
  line.tails.findSome? pattern

/-- `_DNAT_TO_RE`, with its group. -/
def dnatToRe (text : Text) : Option Text := do
  let text ← literal Char.toLower "-j".toList text
  let text ← spaces text
  let text ← literal Char.toLower "DNAT".toList text
  let text ← spaces text
  let text ← literal Char.toLower "--to-destination".toList text
  let text ← spaces text
  let (ip, _) ← octets 3 text
  return ip

/-- `_AWG3_DNAT_TO_RE`, with its group. -/
def awg3DnatToRe (text : Text) : Option Text := do
  let text ← literal id "--to-destination".toList text
  let text ← spaces text
  let (ip, text) ← octets 3 text
  let _ ← literal id ":51900-51999".toList text
  return ip

/-! ## Labels, ports and addresses -/

inductive PlanError
  | label
  | port
  | address
  deriving DecidableEq, Repr

def isLabelStart (c : Char) : Bool := ('a' ≤ c && c ≤ 'z') || c.isDigit

def isLabelChar (c : Char) : Bool := isLabelStart c || c = '_' || c = '-'

/-- `_FAILOVER_LABEL_RE` -/
def isFailoverLabel (text : Text) : Bool :=
  text.head?.any isLabelStart && text.all isLabelChar && text.length ≤ 64

def validateFailoverLabel (label : Text) : Except PlanError Text :=
  let normalized := (strip label).map Char.toLower
  if isFailoverLabel normalized then .ok normalized else .error .label

def validateFailoverPort (port : Int) : Except PlanError Int :=
  if 1 ≤ port ∧ port ≤ 65535 then .ok port else .error .port

/-- `validate_failover_port(backend_port) if backend_port else port` -/
def validateBackendPort (port : Int) (backendPort : Option Int) : Except PlanError Int :=
  match backendPort with
  | some backend => if backend = 0 then .ok port else validateFailoverPort backend
  | none => .ok port

/-- `_parse_ipv4`: an unspecified, multicast or loopback address is refused. -/
def parseIpv4 (value : Text) : Except PlanError Text :=
  match parseAddress (strip value) with
  | some address =>
    if address = 0 ∨ address / 2 ^ 28 = 14 ∨ address / 2 ^ 24 = 127 then .error .address
    else .ok (strip value)
  | none => .error .address

/-! ## Rules of a text -/

/-- `_iter_rule_lines` -/
def ruleLines (rulesText : Text) : List Text :=
  ((splitLines rulesText).map strip).filter fun line => "-A ".toList <+: line

/-- The two kinds of rules, for pools of AmneziaWG 2 and of AmneziaWG 3. -/
inductive Kind
  | failover
  | awg3
  deriving DecidableEq, Repr

def Kind.word : Kind → Text
  | .failover => "az-failover".toList
  | .awg3 => "az-failover-awg3".toList

/-- `_failover_comment`, `_awg3_comment` -/
def comment (kind : Kind) (label : Text) : Text := kind.word ++ ':' :: label

def Kind.pattern : Kind → Text → Option Text
  | .failover => dnatToRe
  | .awg3 => awg3DnatToRe

/-- The address of a line that sends packets on. -/
def lineDestination (kind : Kind) (line : Text) : Option Text :=
  if ¬ "PREROUTING".toList <:+: line ∨ ¬ "DNAT".toList <:+: line.map Char.toUpper then none
  else search kind.pattern line

/-- The common body of `detect_failover_destination` and `detect_awg3_destination`. -/
def detectDestination (kind : Kind) (rulesText label : Text) : Option Text :=
  let comment := comment kind label
  let quoted := '"' :: comment ++ ['"']
  (ruleLines rulesText).findSome? fun line =>
    if ¬ quoted <:+: line ∧ ¬ comment <:+: line then none else lineDestination kind line

def detectFailoverDestination := detectDestination .failover

def detectAwg3Destination := detectDestination .awg3

/-! ## Plans -/

abbrev Argv := List Text

inductive Action
  | delete
  | append
  deriving DecidableEq, Repr

def Action.flag : Action → Text
  | .delete => "-D".toList
  | .append => "-A".toList

def words (text : List String) : Argv := text.map String.toList

def failoverDnatArgv (action : Action) (label : Text) (port : Int) (ip : Text)
    (backendPort : Int) : Argv :=
  words ["iptables", "-w", "-t", "nat"] ++ action.flag :: words ["PREROUTING", "-p", "udp",
    "--dport"] ++ intText port :: words ["-m", "comment", "--comment"] ++
    comment .failover label :: words ["-j", "DNAT", "--to-destination"] ++
    [ip ++ ':' :: intText backendPort]

def failoverMasqArgv (action : Action) (label ip : Text) (backendPort : Int) : Argv :=
  words ["iptables", "-w", "-t", "nat"] ++ action.flag :: words ["POSTROUTING", "-p", "udp",
    "-d"] ++ ip :: words ["--dport"] ++ intText backendPort ::
    words ["-m", "comment", "--comment"] ++ comment .failover label :: words ["-j", "MASQUERADE"]

def awg3DnatArgv (action : Action) (label ip : Text) : Argv :=
  words ["iptables", "-w", "-t", "nat"] ++ action.flag :: words ["PREROUTING", "-p", "udp",
    "--dport", "51900:51999", "-m", "comment", "--comment"] ++ comment .awg3 label ::
    words ["-j", "DNAT", "--to-destination"] ++ [ip ++ ":51900-51999".toList]

def awg3MasqArgv (action : Action) (label ip : Text) : Argv :=
  words ["iptables", "-w", "-t", "nat"] ++ action.flag :: words ["POSTROUTING", "-p", "udp",
    "-d"] ++ ip :: words ["--dport", "51900:51999", "-m", "comment", "--comment"] ++
    comment .awg3 label :: words ["-j", "MASQUERADE"]

/-- The end of both switch plans: the pair of the old address is deleted, the new one appended. -/
def switchPair {α : Type} (pair : Action → Text → List α) (old : Option Text) (new : Text) :
    List α :=
  if old = some new then []
  else (old.map (pair .delete)).getD [] ++ pair .append new

/-- The end of both teardown plans. -/
def teardownPair {α : Type} (pair : Action → Text → List α) (old : Option Text) : List α :=
  (old.map (pair .delete)).getD []

def failoverPair (label : Text) (port backendPort : Int) (action : Action) (ip : Text) :
    List Argv :=
  [failoverDnatArgv action label port ip backendPort,
    failoverMasqArgv action label ip backendPort]

def awg3Pair (label : Text) (action : Action) (ip : Text) : List Argv :=
  [awg3DnatArgv action label ip, awg3MasqArgv action label ip]

/-- `plan_failover_switch`, for what the pair is made of. -/
def planSwitch {α : Type} (pair : Text → Int → Int → Action → Text → List α)
    (rulesText label : Text) (port : Int) (newIp : Text) (backendPort : Option Int) :
    Except PlanError (List α) := do
  let label ← validateFailoverLabel label
  let port ← validateFailoverPort port
  let backendPort ← validateBackendPort port backendPort
  let new ← parseIpv4 newIp
  return switchPair (pair label port backendPort) (detectFailoverDestination rulesText label) new

def planFailoverSwitch := planSwitch failoverPair

/-- `plan_failover_teardown`, for what the pair is made of. -/
def planTeardown {α : Type} (pair : Text → Int → Int → Action → Text → List α)
    (rulesText label : Text) (port : Int) (backendPort : Option Int) :
    Except PlanError (List α) := do
  let label ← validateFailoverLabel label
  let port ← validateFailoverPort port
  let backendPort ← validateBackendPort port backendPort
  return teardownPair (pair label port backendPort) (detectFailoverDestination rulesText label)

def planFailoverTeardown := planTeardown failoverPair

def planAwg3Switch (rulesText label newIp : Text) : Except PlanError (List Argv) := do
  let label ← validateFailoverLabel label
  let new ← parseIpv4 newIp
  return switchPair (awg3Pair label) (detectAwg3Destination rulesText label) new

def planAwg3Teardown (rulesText label : Text) : Except PlanError (List Argv) := do
  let label ← validateFailoverLabel label
  return teardownPair (awg3Pair label) (detectAwg3Destination rulesText label)

example : detectFailoverDestination
    ("*nat\n-A PREROUTING -p udp --dport 39001 -m comment --comment \"az-failover:pool3\" -j DNAT" ++
      " --to-destination 10.10.10.11:39001\nCOMMIT\n").toList "pool3".toList =
    some "10.10.10.11".toList := by decide +kernel

end AdminPanel.Failover
