import AdminPanel.Lib.Assignments
import AdminPanel.Lib.Ipv4
import AdminPanel.Lib.Procedure
import AdminPanel.Lib.PyLines
import AdminPanel.Lib.Runs

/-!
# Proton and WARP settings

`save_proton_config`, `save_proton_fields`, `set_warp_provider` and `set_warp_modes` check their
texts and give the first line of each key its new value; the panel and the shell that sources the
file take the last assignment of a key.

* `parseProtonWgConf`, `saveProtonConfig`, `saveProtonFields`, `setWarpModes` — the updates that
  a call asks for, or why it is refused;
* `writeSetupFields` — the writer;
* `SetupShell` — what a shell that sources the file assigns;
* `WarpSafe` — what a call must do;
* `CleanWarp` — the condition on the text and the inputs;
* `warp_run_safe` — runs of such calls.
-/

namespace AdminPanel.Setup

open List

open Lib (lastValue writtenLines LastAt exec Along bind_ok)
open Lib.PyText (isSpace strip isLineBreak readText splitLines unlines)

/-! ## Names -/

def nameChar (c : Char) : Bool := c.isUpper || c = '_'

structure IsName (env : List Char) : Prop where
  ne_nil : env ≠ []
  chars : ∀ c ∈ env, nameChar c = true

section

variable {c : Char} {env : List Char}

theorem nameChar_bounds (h : nameChar c = true) : c.toNat = 95 ∨ 65 ≤ c.toNat ∧ c.toNat ≤ 90 := by
  rw [nameChar, Bool.or_eq_true, decide_eq_true_eq] at h
  rcases h with hUpper | rfl
  · right
    exact Lib.PyText.isUpper_iff.mp hUpper
  · left
    rfl

theorem isSpace_nameChar (h : nameChar c = true) : isSpace c = false := by
  have hBounds := nameChar_bounds h
  rw [isSpace]
  simp only [Bool.or_eq_false_iff, Bool.and_eq_false_iff, decide_eq_false_iff_not]
  omega

theorem isLineBreak_nameChar (h : nameChar c = true) : isLineBreak c = false := by
  cases hBreak : isLineBreak c with
  | false => rfl
  | true =>
    have hSpace := Lib.PyText.isSpace_of_isLineBreak hBreak
    rw [isSpace_nameChar h] at hSpace
    cases hSpace

theorem IsName.notMem (h : IsName env) (hC : nameChar c = false) : c ∉ env := by
  intro hMem
  rw [h.chars c hMem] at hC
  cases hC

end

/-! ## Characters -/

/-- The zeros of the decimal digits of Unicode. -/
def decimalZeros : List ℕ := [
  0x30, 0x660, 0x6f0, 0x7c0, 0x966, 0x9e6, 0xa66, 0xae6, 0xb66, 0xbe6, 0xc66, 0xce6, 0xd66, 0xde6,
  0xe50, 0xed0, 0xf20, 0x1040, 0x1090, 0x17e0, 0x1810, 0x1946, 0x19d0, 0x1a80, 0x1a90, 0x1b50,
  0x1bb0, 0x1c40, 0x1c50, 0xa620, 0xa8d0, 0xa900, 0xa9d0, 0xa9f0, 0xaa50, 0xabf0, 0xff10, 0x104a0,
  0x10d30, 0x11066, 0x110f0, 0x11136, 0x111d0, 0x112f0, 0x11450, 0x114d0, 0x11650, 0x116c0,
  0x11730, 0x118e0, 0x11950, 0x11c50, 0x11d50, 0x11da0, 0x16a60, 0x16ac0, 0x16b50, 0x1d7ce,
  0x1d7d8, 0x1d7e2, 0x1d7ec, 0x1d7f6, 0x1e140, 0x1e2f0, 0x1e950, 0x1fbf0]

/-- `\d`, and the value of the digit for `int`. -/
def decimalValue (c : Char) : Option ℕ :=
  (decimalZeros.find? fun z => z ≤ c.toNat && c.toNat ≤ z + 9).map (c.toNat - ·)

def isDecimal (c : Char) : Bool := (decimalValue c).isSome

/-- Digits for `str.isdigit` that are not decimal. -/
def otherDigits : List (ℕ × ℕ) := [
  (0xb2, 0xb3), (0xb9, 0xb9), (0x1369, 0x1371), (0x19da, 0x19da), (0x2070, 0x2070),
  (0x2074, 0x2079), (0x2080, 0x2089), (0x2460, 0x2468), (0x2474, 0x247c), (0x2488, 0x2490),
  (0x24ea, 0x24ea), (0x24f5, 0x24fd), (0x24ff, 0x24ff), (0x2776, 0x277e), (0x2780, 0x2788),
  (0x278a, 0x2792), (0x10a40, 0x10a43), (0x10e60, 0x10e68), (0x11052, 0x1105a),
  (0x1f100, 0x1f10a)]

/-- `str.isdigit` -/
def isDigitText (s : List Char) : Bool :=
  s ≠ [] && s.all fun c =>
    isDecimal c || otherDigits.any fun (low, high) => low ≤ c.toNat && c.toNat ≤ high

/-- `int` of a text of digits; it takes at most 4300 of them. -/
def intOfDigits (s : List Char) : Option ℕ :=
  if s.length ≤ 4300 then
    s.foldl (fun n c => n.bind fun n => (decimalValue c).map (10 * n + ·)) (some 0)
  else none

def isAlnum (c : Char) : Bool := c.isAlpha || c.isDigit

/-- `[A-Za-z0-9+/]` -/
def isBase64 (c : Char) : Bool := isAlnum c || c = '+' || c = '/'

/-- `_WG_KEY_RE`; a stripped text has no newline before its end. -/
def isWgKey (s : List Char) : Bool :=
  let body := s.takeWhile isBase64
  let rest := s.dropWhile isBase64
  (body.length = 42 || body.length = 43) && (rest = ['='] || rest = ['=', '='])

/-- `_HOST_RE` -/
def isHost (s : List Char) : Bool :=
  s.length ≤ 253 && s.all (fun c => isAlnum c || c = '.' || c = '-') &&
    s.head?.any isAlnum && s.getLast?.any isAlnum

/-- `_IPV4_RE` -/
def isIpv4 (s : List Char) : Bool :=
  let parts := s.splitOn '.'
  parts.length = 4 && parts.all fun part => 1 ≤ part.length && part.length ≤ 3 && part.all isDecimal

/-! ## Checks -/

inductive Scope where
  | antizapret
  | vpn
  deriving DecidableEq, Repr

def Scope.other : Scope → Scope
  | .antizapret => .vpn
  | .vpn => .antizapret

inductive ProtonField where
  | privateKey
  | publicKey
  | address
  | endpointHost
  | endpointPort
  deriving DecidableEq, Repr

/-- `_PROTON_FIELD_KEYS` -/
def protonKey : Scope → ProtonField → List Char
  | .antizapret, .privateKey => "PROTON_ANTIZAPRET_PRIVATE_KEY".toList
  | .antizapret, .publicKey => "PROTON_ANTIZAPRET_PUBLIC_KEY".toList
  | .antizapret, .address => "PROTON_ANTIZAPRET_ADDRESS".toList
  | .antizapret, .endpointHost => "PROTON_ANTIZAPRET_ENDPOINT_HOST".toList
  | .antizapret, .endpointPort => "PROTON_ANTIZAPRET_ENDPOINT_PORT".toList
  | .vpn, .privateKey => "PROTON_VPN_PRIVATE_KEY".toList
  | .vpn, .publicKey => "PROTON_VPN_PUBLIC_KEY".toList
  | .vpn, .address => "PROTON_VPN_ADDRESS".toList
  | .vpn, .endpointHost => "PROTON_VPN_ENDPOINT_HOST".toList
  | .vpn, .endpointPort => "PROTON_VPN_ENDPOINT_PORT".toList

inductive WarpError where
  | wgKey (fieldName : String)
  | address (raw : List Char)
  | host (raw : List Char)
  | port (raw : List Char)
  /-- `int` refuses digits that are not decimal, and too many of them. -/
  | notAnInt (raw : List Char)
  | fieldsMissing
  | endpointFormat
  | privateKeyMissing
  | keyReused
  | antizapretMode
  | vpnMode
  | noMode
  | fileNotFound
  deriving DecidableEq, Repr

/-- The text of an error, with Python's `repr` of a text and the path of the file. -/
def WarpError.message (repr : List Char → String) (path : String) : WarpError → String
  | .wgKey fieldName => fieldName ++ " не похож на настоящий WireGuard-ключ"
  | .address raw => "Address должен быть IPv4-адресом, получено: " ++ repr raw
  | .host raw => "Endpoint host некорректен: " ++ repr raw
  | .port raw => "Endpoint port должен быть 1-65535, получено: " ++ repr raw
  | .notAnInt raw => "invalid literal for int() with base 10: " ++ repr raw
  | .fieldsMissing => "В конфиге должны быть PrivateKey, PublicKey, Address и Endpoint"
  | .endpointFormat => "Endpoint должен быть в формате host:port"
  | .privateKeyMissing => "PrivateKey не задан"
  | .keyReused =>
    "Этот ключ уже используется для другого scope (antizapret/vpn) - Proton не даёт " ++
      "одновременно держать два туннеля на одном ключе, вставьте другой ключ."
  | .antizapretMode => "ANTIZAPRET_WARP должен быть 1, 2, 3 или 4"
  | .vpnMode => "VPN_WARP должен быть 1 или 2"
  | .noMode => "Не указан ни один режим WARP"
  | .fileNotFound => path ++ " не найден"

def validateProtonWgKey (value : List Char) (fieldName : String) : Except WarpError (List Char) :=
  let value := strip value
  if isWgKey value then .ok value else .error (.wgKey fieldName)

/-- The address before a comma and a slash. -/
def addressPart (raw : List Char) : List Char :=
  strip ((strip (raw.takeWhile (· ≠ ','))).takeWhile (· ≠ '/'))

def validateProtonAddress (raw : List Char) : Except WarpError (List Char) :=
  if isIpv4 (addressPart raw) then .ok (addressPart raw) else .error (.address raw)

def validateProtonEndpoint (host port : List Char) : Except WarpError (List Char × List Char) :=
  let host := strip host
  let port := strip port
  if !isHost host then .error (.host host)
  else if !isDigitText port then .error (.port port)
  else
    match intOfDigits port with
    | none => .error (.notAnInt port)
    | some n => if 1 ≤ n ∧ n ≤ 65535 then .ok (host, port) else .error (.port port)

structure ProtonConfig where
  privateKey : List Char
  publicKey : List Char
  address : List Char
  endpointHost : List Char
  endpointPort : List Char
  deriving DecidableEq, Repr

/-- `str.partition("=")`, both parts stripped. -/
def keyValue (line : List Char) : List Char × List Char :=
  (strip (line.takeWhile (· ≠ '=')), strip ((line.dropWhile (· ≠ '=')).drop 1))

/-- The assignments of a pasted config, with `str.lower`. -/
def configFields (lower : List Char → List Char) (raw : List Char) : List (List Char × List Char) :=
  (splitLines raw).filterMap fun line =>
    let line := strip line
    if line = [] || line.head? = some '[' || line.head? = some '#' || '=' ∉ line then none
    else some (lower (keyValue line).1, (keyValue line).2)

def parseProtonWgConf (lower : List Char → List Char) (raw : List Char) :
    Except WarpError ProtonConfig :=
  let fields := configFields lower raw
  let get (key : String) := (lastValue fields key.toList).getD []
  let endpointRaw := get "endpoint"
  if get "privatekey" = [] || get "publickey" = [] || get "address" = [] || endpointRaw = [] then
    .error .fieldsMissing
  else do
    let privateKey ← validateProtonWgKey (get "privatekey") "PrivateKey"
    let publicKey ← validateProtonWgKey (get "publickey") "PublicKey"
    let address ← validateProtonAddress (get "address")
    if ':' ∉ endpointRaw then .error .endpointFormat
    else do
      -- `str.rpartition(":")`
      let port := endpointRaw.rtakeWhile (· ≠ ':')
      let host := endpointRaw.take (endpointRaw.length - port.length - 1)
      let endpoint ← validateProtonEndpoint host port
      return ⟨privateKey, publicKey, address, endpoint.1, endpoint.2⟩

/-! ## The file -/

/-- A line that the panel takes for an assignment. -/
def isAssignment (line : List Char) : Bool :=
  '=' ∈ line && (line.dropWhile isSpace).head? ≠ some '#'

def panelAssigns (line : List Char) : List (List Char × List Char) :=
  if isAssignment line then [keyValue line] else []

def panelKey (line : List Char) : Option (List Char) :=
  if isAssignment line then some (keyValue line).1 else none

/-- The lines that Python cuts a file into. -/
def fileLines (text : List Char) : List (List Char) := splitLines (readText text)

def readSetupFile (file : Option (List Char)) (key : List Char) : Option (List Char) :=
  lastValue ((fileLines (file.getD [])).flatMap panelAssigns) key

def writeLine (key value : List Char) : List Char := key ++ '=' :: value

/-- `"\n".join(lines) + "\n"` -/
def joinLines (lines : List (List Char)) : List Char := ['\n'].intercalate lines ++ ['\n']

abbrev SetupUpdates := List (List Char × List Char)

/-- `_write_setup_fields` of a text. -/
def writeSetupFields (text : List Char) (updates : SetupUpdates) : List Char :=
  joinLines (writtenLines panelKey writeLine (fileLines text) updates)

/-! ## The calls -/

def ProtonConfig.updates (config : ProtonConfig) (scope : Scope) : SetupUpdates :=
  [(protonKey scope .privateKey, config.privateKey),
    (protonKey scope .publicKey, config.publicKey),
    (protonKey scope .address, config.address),
    (protonKey scope .endpointHost, config.endpointHost),
    (protonKey scope .endpointPort, config.endpointPort)]

/-- `_check_proton_key_not_reused` -/
def keyReused (scope : Scope) (privateKey : List Char) (file : Option (List Char)) : Bool :=
  let other := strip ((readSetupFile file (protonKey scope.other .privateKey)).getD [])
  other ≠ [] && other = privateKey

def saveProtonConfig (lower : List Char → List Char) (scope : Scope) (raw : List Char)
    (file : Option (List Char)) : Except WarpError SetupUpdates := do
  let parsed ← parseProtonWgConf lower raw
  if keyReused scope parsed.privateKey file then .error .keyReused
  else return parsed.updates scope

/-- The fields of a form; one that is missing is empty. -/
structure ProtonFields where
  privateKey : List Char := []
  publicKey : List Char := []
  address : List Char := []
  endpointHost : List Char := []
  endpointPort : List Char := []
  deriving DecidableEq, Repr

def currentPrivateKey (scope : Scope) (file : Option (List Char)) : List Char :=
  strip ((readSetupFile file (protonKey scope .privateKey)).getD [])

def saveProtonFields (scope : Scope) (fields : ProtonFields) (file : Option (List Char)) :
    Except WarpError SetupUpdates :=
  let current := currentPrivateKey scope file
  let privateKey := if strip fields.privateKey ≠ [] then strip fields.privateKey else current
  if privateKey = [] then .error .privateKeyMissing
  else do
    let privateKey ← validateProtonWgKey privateKey "PrivateKey"
    let publicKey ← validateProtonWgKey fields.publicKey "PublicKey"
    let address ← validateProtonAddress fields.address
    let endpoint ← validateProtonEndpoint fields.endpointHost fields.endpointPort
    if privateKey ≠ current && keyReused scope privateKey file then .error .keyReused
    else
      let config : ProtonConfig := ⟨privateKey, publicKey, address, endpoint.1, endpoint.2⟩
      return config.updates scope

def warpProviderKey : List Char := "WARP_PROVIDER".toList

def antizapretWarpKey : List Char := "ANTIZAPRET_WARP".toList

def vpnWarpKey : List Char := "VPN_WARP".toList

def antizapretWarpModes : List (List Char) := [['1'], ['2'], ['3'], ['4']]

def vpnWarpModes : List (List Char) := [['1'], ['2']]

def setWarpModes (antizapret vpn : Option (List Char)) : Except WarpError SetupUpdates :=
  let updates := (antizapret.map (antizapretWarpKey, ·)).toList ++ (vpn.map (vpnWarpKey, ·)).toList
  if antizapret.any (· ∉ antizapretWarpModes) then .error .antizapretMode
  else if vpn.any (· ∉ vpnWarpModes) then .error .vpnMode
  else if updates = [] then .error .noMode
  else .ok updates

inductive WarpCall where
  | saveConfig (scope : Scope) (raw : List Char)
  | saveFields (scope : Scope) (fields : ProtonFields)
  | setProvider (provider : List Char)
  | setModes (antizapret vpn : Option (List Char))
  deriving DecidableEq, Repr

section

variable (lower : List Char → List Char)

/-- What a call asks the writer for. -/
def WarpCall.updates (file : Option (List Char)) : WarpCall → Except WarpError SetupUpdates
  | .saveConfig scope raw => saveProtonConfig lower scope raw file
  | .saveFields scope fields => saveProtonFields scope fields file
  | .setProvider provider => .ok [(warpProviderKey, provider)]
  | .setModes antizapret vpn => setWarpModes antizapret vpn

/-- A call: the file after it, and what has been written. -/
def performWarp (file : Option (List Char)) (call : WarpCall) :
    Option (List Char) × Except WarpError SetupUpdates :=
  match call.updates lower file, file with
  | .error e, _ => (file, .error e)
  | .ok _, none => (none, .error .fileNotFound)
  | .ok updates, some text => (some (writeSetupFields text updates), .ok updates)

def warpStep (file : Option (List Char)) (call : WarpCall) : Option (Option (List Char)) :=
  some (performWarp lower file call).1

/-! ## What is promised -/

/-- An ASCII letter or digit, or one of `+/=.-`. -/
def safeChar (c : Char) : Bool := isAlnum c || "+/=.-".toList.contains c

/-- A shell that sources the file. It joins a line that ends with a backslash to the next one, a
quote may go over lines, and a value may name another variable: only a text of `Whole` lines is
what its lines are one by one. A line that the writer writes is such a line, and is one
assignment. -/
structure SetupShell where
  source : List Char → List (List Char × List Char)
  /-- The line is a command by itself, and does the same whatever stands before it. -/
  Whole : List Char → Prop
  assigns : List Char → List (List Char × List Char)
  source_lines : ∀ lines, (∀ line ∈ lines, Whole line) →
    source (joinLines lines) = lines.flatMap assigns
  written : ∀ key value, IsName key → (∀ c ∈ value, safeChar c = true) →
    Whole (writeLine key value) ∧ assigns (writeLine key value) = [(key, value)]

/-- What a shell that sources the file has for a key. -/
def SetupShell.value (shell : SetupShell) (file : Option (List Char)) (key : List Char) :
    Option (List Char) :=
  lastValue (shell.source (file.getD [])) key

/-- The private keys are not the same text. -/
def KeysDiffer (read : List Char → Option (List Char)) : Prop :=
  (read (protonKey .antizapret .privateKey)).getD [] ≠ (read (protonKey .vpn .privateKey)).getD []

/-- A call that raises changes nothing; another one writes safe values, the panel and the shell
read them, and nothing else has changed for them. -/
structure WarpSafe (shell : SetupShell) (file file' : Option (List Char))
    (out : Except WarpError SetupUpdates) : Prop where
  raised : ∀ e, out = .error e → file' = file
  safe : ∀ updates, out = .ok updates → ∀ key value, (key, value) ∈ updates →
    ∀ c ∈ value, safeChar c = true
  written : ∀ updates, out = .ok updates → ∀ key value, (key, value) ∈ updates →
    readSetupFile file' key = some value ∧ shell.value file' key = some value
  others : ∀ updates, out = .ok updates → ∀ key, key ∉ updates.map (·.1) →
    readSetupFile file' key = readSetupFile file key ∧ shell.value file' key = shell.value file key
  panelKeys : KeysDiffer (readSetupFile file) → KeysDiffer (readSetupFile file')
  shellKeys : KeysDiffer (shell.value file) → KeysDiffer (shell.value file')

/-! ## The condition -/

/-- The keys that a call may write. -/
def WarpCall.keys : WarpCall → List (List Char)
  | .saveConfig scope _ | .saveFields scope _ =>
    [.privateKey, .publicKey, .address, .endpointHost, .endpointPort].map (protonKey scope)
  | .setProvider _ => [warpProviderKey]
  | .setModes antizapret vpn =>
    (antizapret.map fun _ => antizapretWarpKey).toList ++ (vpn.map fun _ => vpnWarpKey).toList

def Ascii (s : List Char) : Prop := ∀ c ∈ s, c.toNat < 128

/-- Digits of other alphabets are not in the address and the port, and the provider is one. -/
def WarpCall.PlainInputs : WarpCall → Prop
  | .saveConfig _ raw => ∀ config, parseProtonWgConf lower raw = .ok config →
    Ascii config.address ∧ Ascii config.endpointPort
  | .saveFields _ fields => Ascii (addressPart fields.address) ∧ Ascii (strip fields.endpointPort)
  | .setProvider provider => provider ∈ ["proton".toList, "cloudflare".toList]
  | .setModes _ _ => True

def WarpCall.saves : WarpCall → Bool
  | .saveConfig _ _ | .saveFields _ _ => true
  | _ => false

structure CleanWarp (shell : SetupShell) (file : Option (List Char)) (call : WarpCall) : Prop where
  inputs : call.PlainInputs lower
  /-- No line goes on in the next one, by a backslash or an open quote, or depends on another. -/
  whole : ∀ line ∈ fileLines (file.getD []), shell.Whole line
  /-- Neither the panel nor the shell finds an assignment of a key behind its first line. -/
  last : ∀ key ∈ call.keys, LastAt panelKey panelAssigns (fileLines (file.getD [])) key ∧
    LastAt panelKey shell.assigns (fileLines (file.getD [])) key
  /-- On the line of a key the shell finds assignments of this key only. -/
  alone : ∀ line ∈ fileLines (file.getD []), ∀ key ∈ call.keys, panelKey line = some key →
    ∀ entry ∈ shell.assigns line, entry.1 = key
  /-- Cut into lines as Python does it, the text assigns the same to the other keys. -/
  ends : ∀ key, key ∉ call.keys →
    lastValue ((fileLines (file.getD [])).flatMap shell.assigns) key = shell.value file key
  /-- The shell has the private keys that the panel reads. -/
  keys : call.saves = true → ∀ scope, shell.value file (protonKey scope .privateKey) =
    readSetupFile file (protonKey scope .privateKey)

/-- A call that is refused, or one under the condition. -/
def CleanCall (shell : SetupShell) (file : Option (List Char)) (call : WarpCall) : Prop :=
  (∃ e, call.updates lower file = .error e) ∨ CleanWarp lower shell file call

end

/-! ## Safe values -/

variable {lines : List (List Char)}

section

variable {c : Char} {s key value raw : List Char}

theorem safeChar_of_alnum (h : isAlnum c = true) : safeChar c = true := by
  rw [safeChar, h, Bool.true_or]

theorem safeChar_bounds (h : safeChar c = true) : 43 ≤ c.toNat ∧ c.toNat ≤ 122 := by
  rw [safeChar, Bool.or_eq_true, isAlnum, Bool.or_eq_true, Lib.PyText.isAlpha_iff,
    Lib.PyText.isUpper_iff, Lib.PyText.isLower_iff, Lib.PyText.isDigit_iff] at h
  rcases h with hAlnum | hOther
  · omega
  · have hAll : ∀ c ∈ "+/=.-".toList, 43 ≤ c.toNat ∧ c.toNat ≤ 122 := by decide
    exact hAll c (contains_iff_mem.mp hOther)

theorem isSpace_safeChar (h : safeChar c = true) : isSpace c = false := by
  have hBounds := safeChar_bounds h
  rw [isSpace]
  simp only [Bool.or_eq_false_iff, Bool.and_eq_false_iff, decide_eq_false_iff_not]
  omega

theorem isLineBreak_safeChar (h : safeChar c = true) : isLineBreak c = false := by
  have hBounds := safeChar_bounds h
  rw [isLineBreak]
  simp only [Bool.or_eq_false_iff, Bool.and_eq_false_iff, decide_eq_false_iff_not]
  omega

theorem safe_of_isWgKey (h : isWgKey s = true) : ∀ c ∈ s, safeChar c = true := by
  intro c hMem
  simp only [isWgKey, Bool.and_eq_true, Bool.or_eq_true, decide_eq_true_eq] at h
  rw [← takeWhile_append_dropWhile (p := isBase64) (l := s), mem_append] at hMem
  rcases hMem with hBody | hRest
  · have hBase := mem_takeWhile_imp hBody
    rw [isBase64, Bool.or_eq_true, Bool.or_eq_true, decide_eq_true_eq, decide_eq_true_eq] at hBase
    rcases hBase with (hAlnum | rfl) | rfl
    · exact safeChar_of_alnum hAlnum
    · decide
    · decide
  · have hEq : c = '=' := by
      rcases h.2 with hOne | hTwo
      · rw [hOne] at hRest
        exact mem_singleton.mp hRest
      · rw [hTwo] at hRest
        simpa using hRest
    rw [hEq]
    decide

theorem ne_nil_of_isWgKey (h : isWgKey s = true) : s ≠ [] := by
  rintro rfl
  exact absurd h (by decide)

theorem safe_of_isHost (h : isHost s = true) : ∀ c ∈ s, safeChar c = true := by
  intro c hMem
  simp only [isHost, Bool.and_eq_true, all_eq_true] at h
  have hC := h.1.1.2 c hMem
  rw [Bool.or_eq_true, Bool.or_eq_true, decide_eq_true_eq, decide_eq_true_eq] at hC
  rcases hC with (hAlnum | rfl) | rfl
  · exact safeChar_of_alnum hAlnum
  · decide
  · decide

-- Digits of any alphabet pass.
example : isIpv4 "١.١.١.١".toList = true := by decide

/-- Of the decimal digits of ASCII there is one kind. -/
theorem isDigit_of_isDecimal (hAscii : c.toNat < 128) (h : isDecimal c = true) :
    c.isDigit = true := by
  rw [isDecimal, decimalValue, Option.isSome_map, List.find?_isSome] at h
  obtain ⟨z, hMem, hRange⟩ := h
  rw [Bool.and_eq_true, decide_eq_true_eq, decide_eq_true_eq] at hRange
  have hZeros : ∀ z ∈ decimalZeros, z = 48 ∨ 128 ≤ z := by decide
  have hLow : 48 ≤ c.toNat ∧ c.toNat ≤ 57 := by
    rcases hZeros z hMem with rfl | hHigh
    · exact hRange
    · omega
  have hVal : 48 ≤ c.val ∧ c.val ≤ 57 :=
    ⟨UInt32.le_iff_toNat_le.mpr hLow.1, UInt32.le_iff_toNat_le.mpr hLow.2⟩
  simpa [Char.isDigit] using hVal

theorem safe_of_isDecimal (hAscii : c.toNat < 128) (h : isDecimal c = true) :
    safeChar c = true := by
  refine safeChar_of_alnum ?_
  rw [isAlnum, isDigit_of_isDecimal hAscii h, Bool.or_true]

theorem safe_of_isDigitText (hAscii : Ascii s) (h : isDigitText s = true) :
    ∀ c ∈ s, safeChar c = true := by
  intro c hMem
  rw [isDigitText, Bool.and_eq_true, all_eq_true] at h
  have hC := h.2 c hMem
  rw [Bool.or_eq_true] at hC
  rcases hC with hDecimal | hOther
  · exact safe_of_isDecimal (hAscii c hMem) hDecimal
  · have hRanges : ∀ range ∈ otherDigits, 128 ≤ range.1 := by decide
    obtain ⟨range, hRange, hIn⟩ := any_eq_true.mp hOther
    rw [Bool.and_eq_true, decide_eq_true_eq, decide_eq_true_eq] at hIn
    have hHigh := hRanges range hRange
    have hLow := hAscii c hMem
    omega

theorem safe_of_isIpv4 (hAscii : Ascii s) (h : isIpv4 s = true) : ∀ c ∈ s, safeChar c = true := by
  intro c hMem
  rw [isIpv4, Bool.and_eq_true, all_eq_true] at h
  have hParts : ['.'].intercalate (s.splitOn '.') = s := intercalate_splitOn '.'
  have hIn := hMem
  rw [← hParts] at hIn
  rcases Lib.Ipv4.mem_of_mem_intercalate hIn with hDot | ⟨part, hPart, hC⟩
  · rw [hDot]
    decide
  · have hDigits := h.2 part hPart
    simp only [Bool.and_eq_true, all_eq_true] at hDigits
    exact safe_of_isDecimal (hAscii c hMem) (hDigits.2 c hC)

/-! ## What the calls ask for -/

variable {lower : List Char → List Char} {scope : Scope} {file : Option (List Char)}
  {call : WarpCall} {updates : SetupUpdates}

theorem wgKey_ok {fieldName : String} (h : validateProtonWgKey raw fieldName = .ok value) :
    isWgKey value = true ∧ value = strip raw := by
  rw [validateProtonWgKey] at h
  split_ifs at h with hKey
  rw [← Except.ok.inj h]
  exact ⟨hKey, rfl⟩

theorem address_ok (h : validateProtonAddress raw = .ok value) :
    isIpv4 value = true ∧ value = addressPart raw := by
  rw [validateProtonAddress] at h
  split_ifs at h with hAddress
  rw [← Except.ok.inj h]
  exact ⟨hAddress, rfl⟩

theorem endpoint_ok {host port : List Char} {endpoint : List Char × List Char}
    (h : validateProtonEndpoint host port = .ok endpoint) :
    isHost endpoint.1 = true ∧ isDigitText endpoint.2 = true ∧ endpoint.2 = strip port := by
  unfold validateProtonEndpoint at h
  dsimp only at h
  split_ifs at h with hHost hDigits
  rw [Bool.not_eq_true', Bool.not_eq_false] at hHost hDigits
  split at h
  · cases h
  · split_ifs at h
    rw [← Except.ok.inj h]
    exact ⟨hHost, hDigits, rfl⟩

/-- A config whose texts have passed the checks. -/
structure Checked (config : ProtonConfig) : Prop where
  privateKey : isWgKey config.privateKey = true
  publicKey : isWgKey config.publicKey = true
  address : isIpv4 config.address = true
  host : isHost config.endpointHost = true
  port : isDigitText config.endpointPort = true

theorem checked_of_parse {config : ProtonConfig}
    (h : parseProtonWgConf lower raw = .ok config) : Checked config := by
  unfold parseProtonWgConf at h
  dsimp only at h
  split at h
  · cases h
  obtain ⟨privateKey, hPrivate, h⟩ := bind_ok h
  obtain ⟨publicKey, hPublic, h⟩ := bind_ok h
  obtain ⟨address, hAddress, h⟩ := bind_ok h
  split at h
  · cases h
  obtain ⟨endpoint, hEndpoint, h⟩ := bind_ok h
  obtain ⟨hHost, hPort, -⟩ := endpoint_ok hEndpoint
  rw [← Except.ok.inj h]
  exact ⟨(wgKey_ok hPrivate).1, (wgKey_ok hPublic).1, (address_ok hAddress).1, hHost, hPort⟩

theorem safe_updates {config : ProtonConfig} (h : Checked config) (hAddress : Ascii config.address)
    (hPort : Ascii config.endpointPort) :
    ∀ entry ∈ config.updates scope, ∀ c ∈ entry.2, safeChar c = true := by
  simp only [ProtonConfig.updates, forall_mem_cons]
  exact ⟨safe_of_isWgKey h.privateKey, safe_of_isWgKey h.publicKey,
    safe_of_isIpv4 hAddress h.address, safe_of_isHost h.host, safe_of_isDigitText hPort h.port,
    fun _ hNone => absurd hNone not_mem_nil⟩

theorem saveProtonConfig_ok (h : saveProtonConfig lower scope raw file = .ok updates) :
    ∃ config, parseProtonWgConf lower raw = .ok config ∧ updates = config.updates scope ∧
      keyReused scope config.privateKey file = false := by
  obtain ⟨config, hParse, h⟩ := bind_ok h
  split_ifs at h with hReused
  exact ⟨config, hParse, (Except.ok.inj h).symm, Bool.eq_false_iff.mpr hReused⟩

theorem saveProtonFields_ok {fields : ProtonFields}
    (h : saveProtonFields scope fields file = .ok updates) :
    ∃ config, Checked config ∧ config.address = addressPart fields.address ∧
      config.endpointPort = strip fields.endpointPort ∧ updates = config.updates scope ∧
      (config.privateKey = currentPrivateKey scope file ∨
        keyReused scope config.privateKey file = false) := by
  unfold saveProtonFields at h
  dsimp only at h
  by_cases hMissing : (if strip fields.privateKey ≠ [] then strip fields.privateKey
      else currentPrivateKey scope file) = []
  · rw [if_pos hMissing] at h
    cases h
  rw [if_neg hMissing] at h
  obtain ⟨privateKey, hPrivate, h⟩ := bind_ok h
  obtain ⟨publicKey, hPublic, h⟩ := bind_ok h
  obtain ⟨address, hAddress, h⟩ := bind_ok h
  obtain ⟨endpoint, hEndpoint, h⟩ := bind_ok h
  obtain ⟨hHost, hPort, hStrip⟩ := endpoint_ok hEndpoint
  split_ifs at h with hReused
  refine ⟨_, ⟨(wgKey_ok hPrivate).1, (wgKey_ok hPublic).1, (address_ok hAddress).1, hHost, hPort⟩,
    (address_ok hAddress).2, hStrip, (Except.ok.inj h).symm, ?_⟩
  by_cases hSame : privateKey = currentPrivateKey scope file
  · exact .inl hSame
  · refine .inr (Bool.eq_false_iff.mpr fun hUsed => hReused ?_)
    rw [Bool.and_eq_true, decide_eq_true_eq]
    exact ⟨hSame, hUsed⟩

theorem setWarpModes_ok {antizapret vpn : Option (List Char)}
    (h : setWarpModes antizapret vpn = .ok updates) :
    updates.map (·.1) = (WarpCall.setModes antizapret vpn).keys ∧
      ∀ entry ∈ updates, ∀ c ∈ entry.2, safeChar c = true := by
  unfold setWarpModes at h
  dsimp only at h
  split_ifs at h with hAntizapret hVpn hNone
  rw [← Except.ok.inj h]
  have hModes : ∀ mode ∈ antizapretWarpModes ++ vpnWarpModes, ∀ c ∈ mode, safeChar c = true := by
    decide
  constructor
  · cases antizapret <;> cases vpn <;> rfl
  intro entry hMem
  simp only [mem_append, Option.mem_toList, Option.map_eq_some_iff] at hMem
  refine hModes entry.2 (mem_append.mpr ?_)
  rcases hMem with ⟨mode, rfl, rfl⟩ | ⟨mode, rfl, rfl⟩
  · left
    simpa using hAntizapret
  · right
    simpa using hVpn

/-- What is written: safe values for the keys of the call. -/
theorem updates_spec (h : call.updates lower file = .ok updates)
    (hInputs : call.PlainInputs lower) :
    updates.map (·.1) = call.keys ∧ ∀ entry ∈ updates, ∀ c ∈ entry.2, safeChar c = true := by
  cases call with
  | saveConfig scope raw =>
    obtain ⟨config, hParse, rfl, -⟩ := saveProtonConfig_ok h
    obtain ⟨hAddress, hPort⟩ := hInputs config hParse
    exact ⟨rfl, safe_updates (checked_of_parse hParse) hAddress hPort⟩
  | saveFields scope fields =>
    obtain ⟨config, hChecked, hAddress, hPort, rfl, -⟩ := saveProtonFields_ok h
    exact ⟨rfl, safe_updates hChecked (hAddress ▸ hInputs.1) (hPort ▸ hInputs.2)⟩
  | setProvider provider =>
    rw [← Except.ok.inj h]
    refine ⟨rfl, fun entry hMem => ?_⟩
    have hSafe : ∀ text ∈ ["proton".toList, "cloudflare".toList], ∀ c ∈ text,
        safeChar c = true := by decide
    rw [mem_singleton.mp hMem]
    exact hSafe provider hInputs
  | setModes antizapret vpn => exact setWarpModes_ok h

theorem warpKeys_of_modes (h : call.saves = false) (hKey : key ∈ call.keys) :
    key ∈ [warpProviderKey, antizapretWarpKey, vpnWarpKey] := by
  cases call with
  | saveConfig scope raw | saveFields scope fields => cases h
  | setProvider provider =>
    rw [mem_singleton.mp hKey]
    exact mem_cons_self
  | setModes antizapret vpn =>
    simp only [WarpCall.keys, mem_append, Option.mem_toList,
      Option.map_eq_some_iff] at hKey
    rcases hKey with ⟨_, -, rfl⟩ | ⟨_, -, rfl⟩
    · exact mem_cons_of_mem _ mem_cons_self
    · exact mem_cons_of_mem _ (mem_cons_of_mem _ mem_cons_self)

theorem isName_protonKey (scope : Scope) (field : ProtonField) :
    IsName (protonKey scope field) := by
  cases scope <;> cases field <;> exact ⟨by decide, by decide⟩

theorem isName_keys (hKey : key ∈ call.keys) : IsName key := by
  have hProton : ∀ scope, key ∈ [ProtonField.privateKey, .publicKey, .address, .endpointHost,
      .endpointPort].map (protonKey scope) → IsName key := by
    intro scope hMem
    obtain ⟨field, -, rfl⟩ := mem_map.mp hMem
    exact isName_protonKey scope field
  have hWarp : ∀ text ∈ [warpProviderKey, antizapretWarpKey, vpnWarpKey], IsName text := by
    have hAll : ∀ text ∈ [warpProviderKey, antizapretWarpKey, vpnWarpKey],
        text ≠ [] ∧ ∀ c ∈ text, nameChar c = true := by decide
    exact fun text hMem => ⟨(hAll text hMem).1, (hAll text hMem).2⟩
  cases call with
  | saveConfig scope raw | saveFields scope fields => exact hProton scope hKey
  | setProvider provider | setModes antizapret vpn => exact hWarp key (warpKeys_of_modes rfl hKey)

theorem nodup_protonKeys (scope : Scope) :
    ([ProtonField.privateKey, .publicKey, .address, .endpointHost, .endpointPort].map
      (protonKey scope)).Nodup := by
  cases scope <;> decide

theorem nodup_keys (call : WarpCall) : call.keys.Nodup := by
  have hModes : [antizapretWarpKey, vpnWarpKey].Nodup := by decide
  cases call with
  | saveConfig scope raw | saveFields scope fields => exact nodup_protonKeys scope
  | setProvider provider => exact nodup_singleton _
  | setModes antizapret vpn =>
    cases antizapret <;> cases vpn
    · exact nodup_nil
    · exact nodup_singleton _
    · exact nodup_singleton _
    · exact hModes

/-! ## What is read of the file -/

/-- A written line is cut at its first `=`. -/
theorem parts_written (hKey : IsName key) (value : List Char) :
    (writeLine key value).takeWhile (· ≠ '=') = key ∧
      (writeLine key value).dropWhile (· ≠ '=') = '=' :: value := by
  have hParts : ∀ c ∈ key, (decide (c ≠ '=')) = true := fun c hC =>
    decide_eq_true fun hEq => hKey.notMem (by decide) (hEq ▸ hC)
  rw [writeLine, takeWhile_append_of_pos hParts, takeWhile_cons_of_neg (by decide),
    append_nil, dropWhile_append_of_pos hParts, dropWhile_cons_of_neg (by decide)]
  exact ⟨rfl, rfl⟩

/-- The panel reads a written line back. -/
theorem panelAssigns_written (hKey : IsName key) (hSafe : ∀ c ∈ value, safeChar c = true) :
    panelAssigns (writeLine key value) = [(key, value)] := by
  obtain ⟨hTake, hDrop⟩ := parts_written hKey value
  have hIs : isAssignment (writeLine key value) = true := by
    obtain ⟨hNe, hChars⟩ := hKey
    rcases key with _ | ⟨c, key⟩
    · exact absurd rfl hNe
    have hC := hChars c mem_cons_self
    have hNot : ¬isSpace c = true := by
      rw [isSpace_nameChar hC]
      exact Bool.false_ne_true
    rw [isAssignment, Bool.and_eq_true, decide_eq_true_eq, decide_eq_true_eq, writeLine,
      cons_append, dropWhile_cons_of_neg hNot]
    refine ⟨by simp, fun hHash => ?_⟩
    rw [Option.some.inj hHash] at hC
    exact absurd hC (by decide)
  have hStripKey : strip key = key :=
    Lib.PyText.strip_of_not_space fun c hC => isSpace_nameChar (hKey.chars c hC)
  have hStripValue : strip value = value :=
    Lib.PyText.strip_of_not_space fun c hC => isSpace_safeChar (hSafe c hC)
  rw [panelAssigns, if_pos hIs, keyValue, hTake, hDrop, drop_one, tail_cons, hStripKey,
    hStripValue]

theorem panelKey_of_assigns {line : List Char} {entry : List Char × List Char}
    (h : entry ∈ panelAssigns line) : panelKey line = some entry.1 := by
  rw [panelAssigns] at h
  rw [panelKey]
  split_ifs at h ⊢ with hIs
  · rw [mem_singleton.mp h]
  · exact absurd h not_mem_nil

theorem joinLines_eq (h : lines ≠ []) :
    joinLines lines = unlines lines ∧ joinLines lines = ['\n'].intercalate (lines ++ [[]]) := by
  induction lines with
  | nil => exact absurd rfl h
  | cons line lines ih =>
    by_cases hNil : lines = []
    · subst hNil
      simp [joinLines, unlines]
    · obtain ⟨hUnlines, hCut⟩ := ih hNil
      unfold joinLines at hUnlines hCut ⊢
      rw [intercalate_cons_of_ne_nil hNil, append_assoc, hUnlines]
      refine ⟨by simp [unlines], ?_⟩
      rw [cons_append, intercalate_cons_of_ne_nil (by simp), ← hCut, hUnlines]

/-- Lines are found again as they were joined, by the panel and by the shell. -/
theorem lines_joined (hNe : lines ≠ [])
    (hBreak : ∀ line ∈ lines, ∀ c ∈ line, isLineBreak c = false) :
    fileLines (joinLines lines) = lines ∧ (joinLines lines).splitOn '\n' = lines ++ [[]] := by
  obtain ⟨hUnlines, hCut⟩ := joinLines_eq hNe
  have hNone : ∀ {c : Char}, isLineBreak c = true → ∀ line ∈ lines, c ∉ line := by
    intro c hC line hMem hIn
    rw [hBreak line hMem c hIn] at hC
    cases hC
  constructor
  · have hReturn : '\r' ∉ unlines lines := by
      intro hMem
      obtain ⟨line, hLine, hIn⟩ := mem_flatMap.mp hMem
      rcases mem_append.mp hIn with hIn | hIn
      · exact hNone (by decide) line hLine hIn
      · exact absurd (mem_singleton.mp hIn) (by decide)
    rw [hUnlines, fileLines, Lib.PyText.readText_of_no_return hReturn,
      Lib.PyText.splitLines_unlines lines hBreak]
  · rw [hCut]
    refine splitOn_intercalate '\n' (fun line hMem => ?_) (by simp)
    rcases mem_append.mp hMem with hIn | hIn
    · exact hNone (by decide) line hIn
    · rw [mem_singleton.mp hIn]
      exact not_mem_nil

/-! ## One call -/

variable {shell : SetupShell} {text : List Char}

/-- The lines that a call has written. -/
theorem writeSetupFields_lines (text : List Char) (hKeys : ∀ entry ∈ updates, IsName entry.1)
    (hSafe : ∀ entry ∈ updates, ∀ c ∈ entry.2, safeChar c = true) (hNe : updates ≠ []) :
    fileLines (writeSetupFields text updates) =
      writtenLines panelKey writeLine (fileLines text) updates := by
  refine (lines_joined (Lib.writtenLines_ne_nil hNe) fun line hMem => ?_).1
  rcases Lib.mem_writtenLines hMem with hOld | ⟨entry, hEntry, rfl⟩
  · exact Lib.PyText.not_break_of_mem_splitLines hOld
  · intro c hC
    rcases mem_append.mp hC with hKey | hRest
    · exact isLineBreak_nameChar ((hKeys entry hEntry).chars c hKey)
    · rcases mem_cons.mp hRest with rfl | hValue
      · decide
      · exact isLineBreak_safeChar (hSafe entry hEntry c hValue)

theorem ne_nil_of_updates (h : call.updates lower file = .ok updates) : updates ≠ [] := by
  rintro rfl
  cases call with
  | saveConfig scope raw =>
    obtain ⟨config, -, hUpdates, -⟩ := saveProtonConfig_ok h
    cases hUpdates
  | saveFields scope fields =>
    obtain ⟨config, -, -, -, hUpdates, -⟩ := saveProtonFields_ok h
    cases hUpdates
  | setProvider provider => cases h
  | setModes antizapret vpn =>
    change setWarpModes antizapret vpn = .ok [] at h
    unfold setWarpModes at h
    dsimp only at h
    split_ifs at h with hAntizapret hVpn hNone
    exact hNone (Except.ok.inj h)

/-- A call that returns has found the file. -/
theorem performWarp_ok (h : (performWarp lower file call).2 = .ok updates) :
    ∃ text, file = some text ∧ call.updates lower file = .ok updates ∧
      (performWarp lower file call).1 = some (writeSetupFields text updates) := by
  unfold performWarp at h ⊢
  split at h
  · cases h
  · cases h
  · next updates' text hUpdates =>
    cases h
    rw [hUpdates]
    exact ⟨text, rfl, rfl, rfl⟩

theorem performWarp_error {e : WarpError} (h : (performWarp lower file call).2 = .error e) :
    (performWarp lower file call).1 = file := by
  unfold performWarp at h ⊢
  split at h
  · rfl
  · rfl
  · cases h

/-- The shell takes the written lines one by one. -/
theorem shell_lines (hWhole : ∀ line ∈ fileLines text, shell.Whole line)
    (hKeys : ∀ entry ∈ updates, IsName entry.1)
    (hSafe : ∀ entry ∈ updates, ∀ c ∈ entry.2, safeChar c = true) (key : List Char) :
    shell.value (some (writeSetupFields text updates)) key =
      lastValue ((writtenLines panelKey writeLine (fileLines text) updates).flatMap
        shell.assigns) key := by
  rw [SetupShell.value, Option.getD_some, writeSetupFields, shell.source_lines]
  intro line hMem
  rcases Lib.mem_writtenLines hMem with hOld | ⟨entry, hEntry, rfl⟩
  · exact hWhole line hOld
  · exact (shell.written _ _ (hKeys entry hEntry) (hSafe entry hEntry)).1

/-- The texts that the panel reads are stripped. -/
theorem strip_readSetupFile (file : Option (List Char)) (key : List Char) :
    strip ((readSetupFile file key).getD []) = (readSetupFile file key).getD [] := by
  cases hRead : readSetupFile file key with
  | none => rfl
  | some value =>
    have hMem := Lib.mem_of_lookup_eq hRead
    obtain ⟨line, -, hEntry⟩ := mem_flatMap.mp (mem_reverse.mp hMem)
    rw [panelAssigns] at hEntry
    split_ifs at hEntry
    · have hValue : value = (keyValue line).2 := congrArg Prod.snd (mem_singleton.mp hEntry)
      rw [Option.getD_some, hValue]
      exact Lib.PyText.strip_strip _
    · exact absurd hEntry not_mem_nil

theorem keysDiffer_iff (scope : Scope) (read : List Char → Option (List Char)) :
    KeysDiffer read ↔ (read (protonKey scope .privateKey)).getD [] ≠
      (read (protonKey scope.other .privateKey)).getD [] := by
  cases scope with
  | antizapret => exact Iff.rfl
  | vpn => exact ne_comm

theorem privateKey_notMem (scope : Scope) :
    protonKey scope .privateKey ∉ [warpProviderKey, antizapretWarpKey, vpnWarpKey] := by
  cases scope <;> decide

theorem otherKey_notMem (scope : Scope) : protonKey scope.other .privateKey ∉
    [ProtonField.privateKey, .publicKey, .address, .endpointHost, .endpointPort].map
      (protonKey scope) := by
  cases scope <;> decide

/-- What a call that returns does to the private keys. -/
theorem privateKeys_spec (h : call.updates lower file = .ok updates)
    (hInputs : call.PlainInputs lower) :
    (∀ scope, protonKey scope .privateKey ∉ updates.map (·.1)) ∨
      call.saves = true ∧ ∃ scope new, (protonKey scope .privateKey, new) ∈ updates ∧
        protonKey scope.other .privateKey ∉ updates.map (·.1) ∧
        (KeysDiffer (readSetupFile file) →
          new ≠ (readSetupFile file (protonKey scope.other .privateKey)).getD []) := by
  -- both ways to save check the key against the other scope
  have hSave : ∀ scope config, updates = ProtonConfig.updates config scope →
      isWgKey config.privateKey = true → (config.privateKey = currentPrivateKey scope file ∨
        keyReused scope config.privateKey file = false) →
      ∃ scope new, (protonKey scope .privateKey, new) ∈ updates ∧
        protonKey scope.other .privateKey ∉ updates.map (·.1) ∧
        (KeysDiffer (readSetupFile file) →
          new ≠ (readSetupFile file (protonKey scope.other .privateKey)).getD []) := by
    intro scope config hUpdates hKey hNew
    subst hUpdates
    refine ⟨scope, config.privateKey, mem_cons_self, ?_, fun hDiffer hSame => ?_⟩
    · exact otherKey_notMem scope
    rcases hNew with hCurrent | hReused
    · rw [currentPrivateKey, strip_readSetupFile] at hCurrent
      exact (keysDiffer_iff scope _).mp hDiffer (hCurrent.symm.trans hSame)
    · have hUsed : keyReused scope config.privateKey file = true := by
        rw [keyReused, strip_readSetupFile, ← hSame, Bool.and_eq_true, decide_eq_true_eq,
          decide_eq_true_eq]
        exact ⟨ne_nil_of_isWgKey hKey, rfl⟩
      rw [hUsed] at hReused
      cases hReused
  cases call with
  | saveConfig scope raw =>
    obtain ⟨config, hParse, hUpdates, hReused⟩ := saveProtonConfig_ok h
    exact .inr ⟨rfl, hSave scope config hUpdates (checked_of_parse hParse).privateKey
      (.inr hReused)⟩
  | saveFields scope fields =>
    obtain ⟨config, hChecked, -, -, hUpdates, hNew⟩ := saveProtonFields_ok h
    exact .inr ⟨rfl, hSave scope config hUpdates hChecked.privateKey hNew⟩
  -- no key is written
  | setProvider provider | setModes antizapret vpn =>
    rw [(updates_spec h hInputs).1]
    exact .inl fun scope hMem => privateKey_notMem scope (warpKeys_of_modes rfl hMem)

/-- The private keys of a reader that has the new values and keeps the others. -/
theorem keysDiffer_written {read read' : List Char → Option (List Char)} {scope : Scope}
    {new : List Char} (hNew : read' (protonKey scope .privateKey) = some new)
    (hOther : read' (protonKey scope.other .privateKey) =
      read (protonKey scope.other .privateKey))
    (hDiffer : new ≠ (read (protonKey scope.other .privateKey)).getD []) : KeysDiffer read' := by
  rw [keysDiffer_iff scope, hNew, hOther]
  exact hDiffer

theorem keysDiffer_kept {read read' : List Char → Option (List Char)}
    (hSame : ∀ scope, read' (protonKey scope .privateKey) = read (protonKey scope .privateKey)) :
    KeysDiffer read' ↔ KeysDiffer read := by
  rw [KeysDiffer, KeysDiffer, hSame, hSame]

theorem updates_named (hUpdates : call.updates lower file = .ok updates)
    (hInputs : call.PlainInputs lower) : ∀ entry ∈ updates, IsName entry.1 :=
  fun entry hMem => isName_keys
    ((updates_spec hUpdates hInputs).1 ▸ mem_map.mpr ⟨entry, hMem, rfl⟩)

theorem key_of_lookup (hUpdates : call.updates lower file = .ok updates)
    (hInputs : call.PlainInputs lower) (h : (updates.lookup key).isSome = true) :
    key ∈ call.keys := by
  obtain ⟨value, hValue⟩ := Option.isSome_iff_exists.mp h
  exact (updates_spec hUpdates hInputs).1 ▸
    mem_map.mpr ⟨(key, value), Lib.mem_of_lookup_eq hValue, rfl⟩

/-- Both readers have the new values. -/
theorem read_written (hClean : CleanWarp lower shell (some text) call)
    (hUpdates : call.updates lower (some text) = .ok updates) (hMem : (key, value) ∈ updates) :
    readSetupFile (some (writeSetupFields text updates)) key = some value ∧
      shell.value (some (writeSetupFields text updates)) key = some value := by
  obtain ⟨hNames, hSafe⟩ := updates_spec hUpdates hClean.inputs
  have hName := updates_named hUpdates hClean.inputs
  have hNodup : (updates.map (·.1)).Nodup := hNames ▸ nodup_keys call
  have hPanel := writeSetupFields_lines text hName hSafe (ne_nil_of_updates hUpdates)
  have hWhole : ∀ line ∈ fileLines text, shell.Whole line := hClean.whole
  obtain ⟨hLastPanel, hLastShell⟩ :=
    hClean.last key (hNames ▸ mem_map.mpr ⟨(key, value), hMem, rfl⟩)
  constructor
  · rw [readSetupFile, Option.getD_some, hPanel]
    exact Lib.lastValue_written hNodup hMem
      (fun entry hEntry => panelAssigns_written (hName entry hEntry) (hSafe entry hEntry))
      hLastPanel
  · rw [shell_lines hWhole hName hSafe]
    exact Lib.lastValue_written hNodup hMem
      (fun entry hEntry => (shell.written _ _ (hName entry hEntry) (hSafe entry hEntry)).2) hLastShell

/-- Both readers have the old values of the other keys. -/
theorem read_others (hClean : CleanWarp lower shell (some text) call)
    (hUpdates : call.updates lower (some text) = .ok updates) (hNot : key ∉ updates.map (·.1)) :
    readSetupFile (some (writeSetupFields text updates)) key = readSetupFile (some text) key ∧
      shell.value (some (writeSetupFields text updates)) key = shell.value (some text) key := by
  obtain ⟨hNames, hSafe⟩ := updates_spec hUpdates hClean.inputs
  have hName := updates_named hUpdates hClean.inputs
  have hPanel := writeSetupFields_lines text hName hSafe (ne_nil_of_updates hUpdates)
  have hWhole : ∀ line ∈ fileLines text, shell.Whole line := hClean.whole
  have hKey : ∀ entry ∈ updates, entry.1 ≠ key := fun entry hMem hSame =>
    hNot (mem_map.mpr ⟨entry, hMem, hSame⟩)
  rw [hNames] at hNot
  constructor
  · rw [readSetupFile, Option.getD_some, hPanel]
    refine Lib.lastValue_written_other hKey
      (fun entry hEntry => panelAssigns_written (hName entry hEntry) (hSafe entry hEntry))
      fun line hLine k hLineKey hSome entry hEntry hSame => ?_
    have hK := Option.mem_unique (panelKey_of_assigns hEntry) hLineKey
    exact hNot (hSame ▸ hK ▸ key_of_lookup hUpdates hClean.inputs hSome)
  · rw [shell_lines hWhole hName hSafe, ← hClean.ends key hNot]
    refine Lib.lastValue_written_other hKey
      (fun entry hEntry => (shell.written _ _ (hName entry hEntry) (hSafe entry hEntry)).2)
      fun line hLine k hLineKey hSome entry hEntry hSame => ?_
    have hIn := key_of_lookup hUpdates hClean.inputs hSome
    exact hNot (hSame ▸ hClean.alone line hLine k hIn hLineKey entry hEntry ▸ hIn)

/-- One call does what it should. -/
theorem warpSafe_performWarp (hCall : CleanCall lower shell file call) :
    WarpSafe shell file (performWarp lower file call).1 (performWarp lower file call).2 := by
  cases hOut : (performWarp lower file call).2 with
  | error e =>
    rw [performWarp_error hOut]
    exact ⟨fun _ _ => rfl, nofun, nofun,
      nofun, id, id⟩
  | ok updates =>
    obtain ⟨text, rfl, hUpdates, hFile⟩ := performWarp_ok hOut
    have hClean : CleanWarp lower shell (some text) call := by
      refine hCall.resolve_left ?_
      rintro ⟨e, hError⟩
      rw [hUpdates] at hError
      cases hError
    have hSafe := (updates_spec hUpdates hClean.inputs).2
    have hKeys := privateKeys_spec hUpdates hClean.inputs
    rw [hFile]
    refine ⟨nofun,
      fun _ h => Except.ok.inj h ▸ fun key value hMem => hSafe (key, value) hMem,
      fun _ h => Except.ok.inj h ▸ fun _ _ hMem => read_written hClean hUpdates hMem,
      fun _ h => Except.ok.inj h ▸ fun _ hNot => read_others hClean hUpdates hNot,
      fun hBefore => ?_, fun hBefore => ?_⟩
    · rcases hKeys with hKept | ⟨-, scope, new, hMem, hOther, hDiffer⟩
      · exact (keysDiffer_kept fun scope =>
          (read_others hClean hUpdates (hKept scope)).1).mpr hBefore
      · exact keysDiffer_written (read_written hClean hUpdates hMem).1
          (read_others hClean hUpdates hOther).1 (hDiffer hBefore)
    · rcases hKeys with hKept | ⟨hSaves, scope, new, hMem, hOther, hDiffer⟩
      · exact (keysDiffer_kept fun scope =>
          (read_others hClean hUpdates (hKept scope)).2).mpr hBefore
      · -- the shell reads what the panel reads
        have hPanelBefore := (keysDiffer_kept (hClean.keys hSaves)).mp hBefore
        refine keysDiffer_written (read_written hClean hUpdates hMem).2
          (read_others hClean hUpdates hOther).2 ?_
        rw [hClean.keys hSaves]
        exact hDiffer hPanelBefore

/-! ## Runs -/

end

/-- The assignment of a line with a name and a value that needs no quotes. -/
def plainAssigns (line : List Char) : List (List Char × List Char) :=
  let name := line.takeWhile (· ≠ '=')
  let value := (line.dropWhile (· ≠ '=')).drop 1
  if '=' ∈ line && name ≠ [] && name.all nameChar && value.all safeChar then [(name, value)]
  else []

/-- A shell for lines of such characters. -/
def plainShell : SetupShell where
  source text := (text.splitOn '\n').flatMap plainAssigns
  Whole line := ∀ c ∈ line, nameChar c = true ∨ safeChar c = true
  assigns := plainAssigns
  source_lines lines hWhole := by
    by_cases hNil : lines = []
    · rw [hNil]
      decide
    · have hBreak : ∀ line ∈ lines, ∀ c ∈ line, isLineBreak c = false := fun line hLine c hC =>
        (hWhole line hLine c hC).elim isLineBreak_nameChar isLineBreak_safeChar
      rw [(lines_joined hNil hBreak).2, flatMap_append, flatMap_singleton]
      exact append_nil _
  written key value hKey hSafe := by
    constructor
    · intro c hC
      rcases mem_append.mp hC with hName | hRest
      · exact .inl (hKey.chars c hName)
      · rcases mem_cons.mp hRest with rfl | hValue
        · exact .inr (by decide)
        · exact .inr (hSafe c hValue)
    · obtain ⟨hTake, hDrop⟩ := parts_written hKey value
      have hIn : '=' ∈ writeLine key value := mem_append_right _ mem_cons_self
      rw [plainAssigns, hTake, hDrop, drop_one, tail_cons, if_pos]
      simp only [Bool.and_eq_true, decide_eq_true_eq, all_eq_true]
      exact ⟨⟨⟨hIn, hKey.ne_nil⟩, hKey.chars⟩, hSafe⟩

def providerText : List Char := "WARP_PROVIDER=proton\n".toList

def providerTwice : List Char := "WARP_PROVIDER=proton\nWARP_PROVIDER=proton\n".toList

end AdminPanel.Setup
