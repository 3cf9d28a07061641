import AdminPanel.Lib.PyInt
import AdminPanel.Lib.Table

/-!
# Persisting a traffic snapshot

The collector reads the clients that a node reports and books what their counters gained. A
session is found again by its key, and its row holds the counters of the last snapshot.

* `buildSessionKey`, `protocolTypeFromProfile` — what a client is filed under;
* `loadRelevantSessions` — active sessions, and those of the snapshot;
* `persistClient` — the loop body: the session row, the statistics row and the sample;
* `persistSnapshot` — the whole snapshot, which ends the sessions it does not show.
-/

namespace AdminPanel.Traffic

open Lib (Table)
open Lib.PyText (strip intText)

abbrev Text := List Char

/-- A client of a status row; `peerPublicKey` is missing for OpenVPN. -/
structure TrafficClient where
  commonName : Text
  realAddress : Text
  virtualAddress : Text
  bytesReceived : ℕ
  bytesSent : ℕ
  connectedSinceTs : ℤ
  sessionKind : Text
  peerPublicKey : Option Text
  deriving DecidableEq, Repr

structure StatusRow where
  profile : Text
  trafficClients : List TrafficClient
  deriving DecidableEq, Repr

inductive ProtocolType
  | openvpn
  | openvpnUdp
  | openvpnTcp
  | wireguard
  | amneziawg2
  | amneziawg3
  deriving DecidableEq, Repr

inductive NetworkType
  | vpn
  | antizapret
  deriving DecidableEq, Repr

/-- `TrafficSessionState` -/
structure SessionState where
  profile : Text
  commonName : Text
  realAddress : Option Text
  virtualAddress : Option Text
  lastBytesReceived : ℤ
  lastBytesSent : ℤ
  isActive : Bool
  deriving DecidableEq, Repr

/-- The counters of `UserTrafficStatProtocol`. -/
structure UserStat where
  totalReceived : ℤ
  totalSent : ℤ
  totalReceivedVpn : ℤ
  totalSentVpn : ℤ
  totalReceivedAntizapret : ℤ
  totalSentAntizapret : ℤ
  totalSessions : ℤ
  deriving DecidableEq, Repr

def UserStat.new : UserStat := ⟨0, 0, 0, 0, 0, 0, 0⟩

/-- The key of a statistics row. -/
abbrev StatKey := Text × ProtocolType

/-- `UserTrafficSample` -/
structure Sample where
  commonName : Text
  networkType : NetworkType
  protocolType : ProtocolType
  deltaReceived : ℤ
  deltaSent : ℤ
  deriving DecidableEq, Repr

/-- The traffic tables of one node. -/
structure Db where
  sessions : Table Text SessionState
  stats : Table StatKey UserStat
  samples : List Sample

def Db.empty : Db := ⟨Table.empty, Table.empty, []⟩

/-! ## What a client is filed under -/

def lower (s : Text) : Text := s.map Char.toLower

section

variable (profile : Text)

def protocolTypeFromProfile : ProtocolType :=
  let name := lower (strip profile)
  if "-awg2".toList <:+ name then .amneziawg2
  else if "-awg3".toList <:+ name then .amneziawg3
  else if "-wg".toList <:+ name ∨ "-awg".toList <:+ name then .wireguard
  else if "-udp".toList <:+ name then .openvpnUdp
  else if "-tcp".toList <:+ name then .openvpnTcp
  else .openvpn

def ProtocolType.isHandshake : ProtocolType → Bool
  | .wireguard | .amneziawg2 | .amneziawg3 => true
  | _ => false

/-- The clients whose key names the peer's public key. -/
def keyedByPeer (client : TrafficClient) : Bool :=
  let sessionKind := lower (strip client.sessionKind)
  sessionKind = "wireguard".toList || sessionKind = "amneziawg2".toList ||
    sessionKind = "amneziawg3".toList || "-wg".toList <:+ profile ||
    "-awg2".toList <:+ profile || "-awg3".toList <:+ profile

def buildSessionKey (client : TrafficClient) : Text :=
  if keyedByPeer profile client then
    profile ++ '|' :: "wg".toList ++ '|' :: client.commonName ++
      '|' :: client.peerPublicKey.getD ['-'] ++ '|' :: client.virtualAddress
  else
    profile ++ '|' :: client.commonName ++ '|' :: client.realAddress ++
      '|' :: client.virtualAddress ++ '|' :: intText client.connectedSinceTs

/-- `common_name` of the rows: empty names are written as `-`. -/
def storedName (client : TrafficClient) : Text :=
  strip (if client.commonName = [] then ['-'] else client.commonName)

def statKey (client : TrafficClient) : StatKey :=
  (storedName client, protocolTypeFromProfile profile)

def networkType : NetworkType :=
  if "antizapret".toList <+: profile then .antizapret else .vpn

def loadRelevantSessions (sessions : Table Text SessionState) (sessionKeys : List Text) :
    Table Text SessionState :=
  sessions.filter fun key session => session.isActive || key ∈ sessionKeys

/-! ## One client -/

/-- What a counter gained; one that went down has started anew. -/
def gained (current last : ℤ) : ℤ :=
  if current - last < 0 then max current 0 else current - last

/-- What the counters of a client add to its account. -/
def deltas (client : TrafficClient) : Option SessionState → ℤ × ℤ
  | none =>
    if (protocolTypeFromProfile profile).isHandshake then (0, 0)
    else (max (client.bytesReceived : ℤ) 0, max (client.bytesSent : ℤ) 0)
  | some session =>
    (gained client.bytesReceived session.lastBytesReceived,
      gained client.bytesSent session.lastBytesSent)

/-- `(value or "").strip() or None` -/
def stripped (s : Text) : Option Text := if strip s = [] then none else some (strip s)

def sessionAfter (client : TrafficClient) : Option SessionState → SessionState
  | none =>
    { profile
      commonName := storedName client
      realAddress := stripped client.realAddress
      virtualAddress := stripped client.virtualAddress
      lastBytesReceived := client.bytesReceived
      lastBytesSent := client.bytesSent
      isActive := true }
  | some session =>
    { session with
      lastBytesReceived := client.bytesReceived
      lastBytesSent := client.bytesSent
      isActive := true }

/-- The statistics row after `rx` and `tx` more bytes. -/
def UserStat.credit (stat : UserStat) (network : NetworkType) (rx tx : ℤ) : UserStat :=
  let stat :=
    { stat with totalReceived := stat.totalReceived + rx, totalSent := stat.totalSent + tx }
  match network with
  | .antizapret =>
    { stat with
      totalReceivedAntizapret := stat.totalReceivedAntizapret + rx
      totalSentAntizapret := stat.totalSentAntizapret + tx }
  | .vpn =>
    { stat with
      totalReceivedVpn := stat.totalReceivedVpn + rx
      totalSentVpn := stat.totalSentVpn + tx }

/-- `total_sessions` counts the new sessions. -/
def UserStat.countSession (stat : UserStat) (isNew : Bool) : UserStat :=
  if isNew then { stat with totalSessions := stat.totalSessions + 1 } else stat

/-- What the loop over the clients has reached. -/
structure Scan where
  sessions : Table Text SessionState
  stats : Table StatKey UserStat
  seenKeys : List Text
  samples : List Sample

/-- `user_stat` after the loop body. -/
def statAfter (scan : Scan) (profile : Text) (client : TrafficClient) : UserStat :=
  let sessionState := scan.sessions.row? (buildSessionKey profile client)
  let (deltaRx, deltaTx) := deltas profile client sessionState
  (((scan.stats.row? (statKey profile client)).getD .new).credit (networkType profile)
    (max deltaRx 0) (max deltaTx 0)).countSession sessionState.isNone

/-- A sample is only written when traffic moved. -/
def samplesOf (client : TrafficClient) (sessionState : Option SessionState) : List Sample :=
  let (deltaRx, deltaTx) := deltas profile client sessionState
  if max deltaRx 0 > 0 ∨ max deltaTx 0 > 0 then
    [⟨storedName client, networkType profile, protocolTypeFromProfile profile, max deltaRx 0,
      max deltaTx 0⟩]
  else []

end

def persistClient (scan : Scan) (profile : Text) (client : TrafficClient) : Scan :=
  let sessionKey := buildSessionKey profile client
  if sessionKey ∈ scan.seenKeys then scan
  else
    let sessionState := scan.sessions.row? sessionKey
    { sessions := scan.sessions.set sessionKey (sessionAfter profile client sessionState)
      stats := scan.stats.set (statKey profile client) (statAfter scan profile client)
      seenKeys := sessionKey :: scan.seenKeys
      samples := scan.samples ++ samplesOf profile client sessionState }

/-! ## One snapshot -/

/-- What `persist_snapshot` returns. -/
structure Persisted where
  samplesAdded : ℕ
  activeSessions : ℕ
  deriving DecidableEq, Repr

def scanRows (scan : Scan) (statusRows : List StatusRow) : Scan :=
  statusRows.foldl
    (fun scan row => row.trafficClients.foldl (fun scan client =>
      persistClient scan row.profile client) scan) scan

/-- The sessions that were active and are not in the snapshot have ended. -/
def endUnseen (loaded : Table Text SessionState) (scan : Scan) : Table Text SessionState :=
  scan.sessions.mapRows fun key session =>
    if key ∈ scan.seenKeys ∨ ¬ (loaded.row? key).any (·.isActive) then session
    else { session with isActive := false }

def persistSnapshot (db : Db) (statusRows : List StatusRow) : Db × Persisted :=
  let snapshotKeys := statusRows.flatMap fun row =>
    row.trafficClients.map fun client => buildSessionKey row.profile client
  let loaded := loadRelevantSessions db.sessions snapshotKeys
  let scan := scanRows ⟨loaded, db.stats, [], []⟩ statusRows
  ({ sessions := db.sessions.absorb (endUnseen loaded scan) fun session _ => session
     stats := scan.stats
     samples := db.samples ++ scan.samples },
    ⟨scan.samples.length, scan.seenKeys.length⟩)

end AdminPanel.Traffic
