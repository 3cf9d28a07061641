import AdminPanel.Lib.Meters
import AdminPanel.Traffic.Collector

/-!
# Traffic is counted once

The sessions of a node are meters that charge the statistics rows.

* `readings` — the counters that a run of snapshots shows, a session once in each snapshot;
* `meters_persistClient`, `meters_persistSnapshot` — the loop refines the meters: the rows that it
  does not load are not the snapshot's;
* `Balanced`, `total_persistSnapshot` — the parts of a total, and the samples of a snapshot.

Main result: `traffic_exact`.
-/

namespace AdminPanel.Traffic

open List

open Lib (Table Meters Reading KeysDetermine Grows keysOf lastSeen start)

inductive Direction
  | received
  | sent
  deriving DecidableEq, Repr

def TrafficClient.bytes (client : TrafficClient) : Direction → ℕ
  | .received => client.bytesReceived
  | .sent => client.bytesSent

def SessionState.last (session : SessionState) : Direction → ℤ
  | .received => session.lastBytesReceived
  | .sent => session.lastBytesSent

def UserStat.total (stat : UserStat) : Direction → ℤ
  | .received => stat.totalReceived
  | .sent => stat.totalSent

def UserStat.vpn (stat : UserStat) : Direction → ℤ
  | .received => stat.totalReceivedVpn
  | .sent => stat.totalSentVpn

def UserStat.antizapret (stat : UserStat) : Direction → ℤ
  | .received => stat.totalReceivedAntizapret
  | .sent => stat.totalSentAntizapret

def Sample.delta (sample : Sample) : Direction → ℤ
  | .received => sample.deltaReceived
  | .sent => sample.deltaSent

/-- The stored total of an account. -/
def storedTotal (stats : Table StatKey UserStat) (d : Direction) (key : StatKey) : ℤ :=
  ((stats.row? key).map (·.total d)).getD 0

/-- The sum of the samples of an account. -/
def sampled (samples : List Sample) (d : Direction) (key : StatKey) : ℤ :=
  ((samples.filter fun s => (s.commonName, s.protocolType) = key).map (·.delta d)).sum

/-! ## Readings -/

/-- The clients of a snapshot, each with its profile. -/
def entries (statusRows : List StatusRow) : List (Text × TrafficClient) :=
  statusRows.flatMap fun row => row.trafficClients.map fun client => (row.profile, client)

def entryKey (entry : Text × TrafficClient) : Text := buildSessionKey entry.1 entry.2

/-- The clients whose session is not among `seen` or further ahead. -/
def firstShown (seen : List Text) : List (Text × TrafficClient) → List (Text × TrafficClient)
  | [] => []
  | entry :: rest =>
    if entryKey entry ∈ seen then firstShown seen rest
    else entry :: firstShown (entryKey entry :: seen) rest

/-- The counter of a client; the sessions of handshake protocols start where they are first
seen. -/
def reading (d : Direction) (entry : Text × TrafficClient) : Reading Text StatKey ℤ where
  key := entryKey entry
  account := statKey entry.1 entry.2
  fromZero := !(protocolTypeFromProfile entry.1).isHandshake
  value := entry.2.bytes d

/-- The counters in a snapshot: that of a session is the one shown first. -/
def snapshotReadings (d : Direction) (statusRows : List StatusRow) :
    List (Reading Text StatKey ℤ) :=
  (firstShown [] (entries statusRows)).map (reading d)

def readings (d : Direction) (snapshots : List (List StatusRow)) : List (Reading Text StatKey ℤ) :=
  snapshots.flatMap (snapshotReadings d)

/-! ## The loop reads meters -/

/-- The meters of a loop that has left the sessions in `rest` out. -/
def Scan.meters (scan : Scan) (rest : Table Text SessionState) (d : Direction) :
    Meters Text StatKey ℤ where
  last key := ((scan.sessions.row? key).or (rest.row? key)).map (·.last d)
  total := storedTotal scan.stats d

def Db.meters (db : Db) (d : Direction) : Meters Text StatKey ℤ where
  last key := (db.sessions.row? key).map (·.last d)
  total := storedTotal db.stats d

theorem max_gained (current : ℕ) (last : ℤ) :
    max (gained current last) 0 =
      if (current : ℤ) < last then (current : ℤ) else current - last := by
  unfold gained
  split <;> split <;> omega

/-- What the loop books is what the meter charges. -/
theorem charge_reading (d : Direction) (profile : Text) (client : TrafficClient)
    (session : Option SessionState) :
    Meters.charge (session.map (·.last d)) (reading d (profile, client)) =
      match d with
      | .received => max (deltas profile client session).1 0
      | .sent => max (deltas profile client session).2 0 := by
  cases session with
  | none =>
    cases hKind : (protocolTypeFromProfile profile).isHandshake <;> cases d <;>
      simp [Meters.charge, reading, deltas, hKind, TrafficClient.bytes]
  | some session =>
    cases d <;> simp only [deltas, max_gained] <;> rfl

theorem total_credit (stat : UserStat) (network : NetworkType) (rx tx : ℤ) (d : Direction) :
    (stat.credit network rx tx).total d =
      stat.total d + match d with
        | .received => rx
        | .sent => tx := by
  cases network <;> cases d <;> rfl

theorem total_countSession (stat : UserStat) (isNew : Bool) (d : Direction) :
    (stat.countSession isNew).total d = stat.total d := by
  cases isNew <;> cases d <;> rfl

theorem last_sessionAfter (profile : Text) (client : TrafficClient)
    (session : Option SessionState) (d : Direction) :
    (sessionAfter profile client session).last d = client.bytes d := by
  cases session <;> cases d <;> rfl

theorem storedTotal_set (stats : Table StatKey UserStat) (key : StatKey) (stat : UserStat)
    (d : Direction) (key' : StatKey) :
    storedTotal (stats.set key stat) d key' =
      if key = key' then stat.total d else storedTotal stats d key' := by
  unfold storedTotal
  by_cases h : key = key'
  · subst h
    simp
  · rw [Table.row?_set_of_ne _ _ (Ne.symm h), if_neg h]

theorem storedTotal_getD (stats : Table StatKey UserStat) (key : StatKey) (d : Direction) :
    ((stats.row? key).getD .new).total d = storedTotal stats d key := by
  unfold storedTotal
  cases stats.row? key with
  | none => cases d <;> rfl
  | some stat => rfl

section

variable {scan : Scan} {profile : Text} {client : TrafficClient}

theorem persistClient_seen (hSeen : buildSessionKey profile client ∈ scan.seenKeys) :
    persistClient scan profile client = scan := by
  rw [persistClient, if_pos hSeen]

theorem persistClient_fresh (hFresh : buildSessionKey profile client ∉ scan.seenKeys) :
    persistClient scan profile client =
      let sessionState := scan.sessions.row? (buildSessionKey profile client)
      { sessions := scan.sessions.set (buildSessionKey profile client)
          (sessionAfter profile client sessionState)
        stats := scan.stats.set (statKey profile client) (statAfter scan profile client)
        seenKeys := buildSessionKey profile client :: scan.seenKeys
        samples := scan.samples ++ samplesOf profile client sessionState } := by
  rw [persistClient, if_neg hFresh]

theorem total_statAfter (scan : Scan) (profile : Text) (client : TrafficClient) (d : Direction) :
    (statAfter scan profile client).total d =
      storedTotal scan.stats d (statKey profile client) +
        Meters.charge ((scan.sessions.row? (buildSessionKey profile client)).map (·.last d))
          (reading d (profile, client)) := by
  rw [charge_reading, ← storedTotal_getD, statAfter, total_countSession, total_credit]

/-- **The loop body is one reading**, when the session is loaded or new. -/
theorem meters_persistClient {rest : Table Text SessionState}
    (hFresh : buildSessionKey profile client ∉ scan.seenKeys)
    (hLoaded : scan.sessions.row? (buildSessionKey profile client) = none →
      rest.row? (buildSessionKey profile client) = none) (d : Direction) :
    (persistClient scan profile client).meters rest d =
      (scan.meters rest d).record (reading d (profile, client)) := by
  have hLast : (scan.meters rest d).last (buildSessionKey profile client) =
      (scan.sessions.row? (buildSessionKey profile client)).map (·.last d) := by
    simp only [Scan.meters]
    cases hRow : scan.sessions.row? (buildSessionKey profile client) with
    | none => rw [hLoaded hRow]; rfl
    | some session => rfl
  rw [persistClient_fresh hFresh]
  simp only [Scan.meters, Meters.record, Meters.mk.injEq]
  constructor
  · funext key
    by_cases hKey : key = buildSessionKey profile client
    · subst hKey
      simp only [Table.row?_set_self, Option.some_or, Option.map_some, last_sessionAfter]
      simp [reading, entryKey]
    · rw [Table.row?_set_of_ne _ _ hKey]
      simp [reading, entryKey, hKey]
  · funext key
    rw [storedTotal_set, total_statAfter]
    by_cases hKey : statKey profile client = key
    · subst hKey
      simp only [if_true]
      exact (congrArg (fun last => storedTotal scan.stats d (statKey profile client) +
        Meters.charge last (reading d (profile, client))) hLast.symm).trans (by
          simp [reading, Scan.meters, entryKey])
    · rw [if_neg hKey]
      simp [reading, Function.update_of_ne (Ne.symm hKey)]

end

/-! ## The snapshot reads meters -/

def scanEntries (scan : Scan) (es : List (Text × TrafficClient)) : Scan :=
  es.foldl (fun scan entry => persistClient scan entry.1 entry.2) scan

theorem scanRows_eq (scan : Scan) (statusRows : List StatusRow) :
    scanRows scan statusRows = scanEntries scan (entries statusRows) := by
  simp only [scanRows, scanEntries, entries, foldl_flatMap, foldl_map]

variable {scan : Scan}

/-- What the loop preserves is preserved by its body for every session, the first time. -/
theorem scanEntries_induction {P : Scan → Prop}
    (hStep : ∀ scan profile client, buildSessionKey profile client ∉ scan.seenKeys → P scan →
      P (persistClient scan profile client))
    (es : List (Text × TrafficClient)) (h : P scan) : P (scanEntries scan es) := by
  induction es generalizing scan with
  | nil => exact h
  | cons entry es ih =>
    show P (scanEntries (persistClient scan entry.1 entry.2) es)
    by_cases hSeen : buildSessionKey entry.1 entry.2 ∈ scan.seenKeys
    · rw [persistClient_seen hSeen]
      exact ih h
    · exact ih (hStep scan entry.1 entry.2 hSeen h)

/-- The loop records each key at its first appearance. -/
theorem meters_scanEntries {rest : Table Text SessionState} (d : Direction)
    {es : List (Text × TrafficClient)}
    (hLoaded : ∀ entry ∈ es, scan.sessions.row? (entryKey entry) = none →
      rest.row? (entryKey entry) = none) :
    (scanEntries scan es).meters rest d =
      ((firstShown scan.seenKeys es).map (reading d)).foldl Meters.record (scan.meters rest d) := by
  induction es generalizing scan with
  | nil => rfl
  | cons entry es ih =>
    rw [forall_mem_cons] at hLoaded
    show (scanEntries (persistClient scan entry.1 entry.2) es).meters rest d = _
    by_cases hSeen : entryKey entry ∈ scan.seenKeys
    · rw [persistClient_seen hSeen, firstShown, if_pos hSeen]
      exact ih hLoaded.2
    have hBody := meters_persistClient hSeen hLoaded.1 d
    rw [firstShown, if_neg hSeen, map_cons, foldl_cons, ← hBody, ih]
    · rw [persistClient_fresh hSeen]
      rfl
    · intro other hMem hNone
      refine hLoaded.2 other hMem ?_
      rw [persistClient_fresh hSeen] at hNone
      by_cases hKey : entryKey other = entryKey entry
      · rw [hKey] at hNone
        exact absurd hNone (by simp [entryKey])
      · exact (Table.row?_set_of_ne _ _ hKey).symm.trans hNone

theorem mem_snapshotKeys {statusRows : List StatusRow} {entry : Text × TrafficClient}
    (hMem : entry ∈ entries statusRows) :
    entryKey entry ∈ statusRows.flatMap fun row =>
      row.trafficClients.map fun client => buildSessionKey row.profile client := by
  obtain ⟨row, hRow, hMem⟩ := mem_flatMap.mp hMem
  obtain ⟨client, hClient, rfl⟩ := mem_map.mp hMem
  exact mem_flatMap.mpr ⟨row, hRow, mem_map_of_mem hClient⟩

/-- **A snapshot is read as a whole**: the finished sessions that are not loaded are not in
it. -/
theorem meters_persistSnapshot (db : Db) (statusRows : List StatusRow) (d : Direction) :
    (persistSnapshot db statusRows).1.meters d =
      (snapshotReadings d statusRows).foldl Meters.record (db.meters d) := by
  let snapshotKeys := statusRows.flatMap fun row =>
    row.trafficClients.map fun client => buildSessionKey row.profile client
  let loaded := loadRelevantSessions db.sessions snapshotKeys
  let before : Scan := ⟨loaded, db.stats, [], []⟩
  have hLoaded : ∀ entry ∈ entries statusRows, loaded.row? (entryKey entry) = none →
      db.sessions.row? (entryKey entry) = none := by
    intro entry hMem hNone
    simp only [loaded, loadRelevantSessions, Table.row?_filter] at hNone
    cases hRow : db.sessions.row? (entryKey entry) with
    | none => rfl
    | some session =>
      have hKey : entryKey entry ∈ snapshotKeys := mem_snapshotKeys hMem
      rw [hRow, Option.filter_some, if_pos (by simp [hKey])] at hNone
      exact hNone
  have hBefore : before.meters db.sessions d = db.meters d := by
    simp only [Scan.meters, Db.meters, Meters.mk.injEq, and_true, before]
    funext key
    simp only [loaded, loadRelevantSessions, Table.row?_filter]
    cases db.sessions.row? key with
    | none => rfl
    | some session =>
      rw [Option.filter_some]
      split <;> rfl
  have hScan : (scanEntries before (entries statusRows)).meters db.sessions d = _ :=
    meters_scanEntries d hLoaded
  rw [← scanRows_eq, hBefore] at hScan
  rw [snapshotReadings, ← hScan]
  simp only [Db.meters, Scan.meters, persistSnapshot, Meters.mk.injEq]
  refine ⟨?_, rfl⟩
  funext key
  rw [Table.row?_absorb, endUnseen, Table.row?_mapRows]
  show _ = Option.map (·.last d) (((scanRows before statusRows).sessions.row? key).or _)
  cases (scanRows before statusRows).sessions.row? key with
  | none => rfl
  | some session =>
    simp only [Option.map_some, Option.some_or]
    split <;> cases d <;> rfl

/-! ## Parts and samples -/

/-- A total is its vpn part and its antizapret part. -/
def UserStat.Balanced (stat : UserStat) : Prop :=
  ∀ d, stat.total d = stat.vpn d + stat.antizapret d

def Balanced (stats : Table StatKey UserStat) : Prop :=
  ∀ key stat, stats.row? key = some stat → stat.Balanced

theorem UserStat.Balanced.credit {stat : UserStat} (h : stat.Balanced) (network : NetworkType)
    (rx tx : ℤ) : (stat.credit network rx tx).Balanced := by
  intro d
  have hOld := h d
  cases network <;> cases d <;>
    simp only [UserStat.credit, UserStat.total, UserStat.vpn, UserStat.antizapret] at hOld ⊢ <;>
    omega

theorem UserStat.Balanced.countSession {stat : UserStat} (h : stat.Balanced) (isNew : Bool) :
    (stat.countSession isNew).Balanced := by
  cases isNew
  · exact h
  · intro d
    have hOld := h d
    cases d <;> exact hOld

theorem balanced_new : UserStat.new.Balanced := by
  intro d
  cases d <;> rfl

theorem balanced_persistClient {profile : Text} {client : TrafficClient}
    (hFresh : buildSessionKey profile client ∉ scan.seenKeys) (h : Balanced scan.stats) :
    Balanced (persistClient scan profile client).stats := by
  rw [persistClient_fresh hFresh]
  intro key stat hRow
  rw [Table.row?_set] at hRow
  split at hRow
  · cases hRow
    have hBefore : ((scan.stats.row? (statKey profile client)).getD .new).Balanced := by
      cases hOld : scan.stats.row? (statKey profile client) with
      | none => exact balanced_new
      | some stat => exact h _ stat hOld
    exact (hBefore.credit _ _ _).countSession _
  · exact h key stat hRow

theorem balanced_persistSnapshot {db : Db} (h : Balanced db.stats) (statusRows : List StatusRow) :
    Balanced (persistSnapshot db statusRows).1.stats := by
  show Balanced (scanRows _ statusRows).stats
  rw [scanRows_eq]
  exact scanEntries_induction (P := fun scan => Balanced scan.stats)
    (fun _ _ _ hFresh => balanced_persistClient hFresh) _ h

theorem sampled_append (before after : List Sample) (d : Direction) (key : StatKey) :
    sampled (before ++ after) d key = sampled before d key + sampled after d key := by
  simp [sampled]

/-- The sample of a client holds what its meter charges, also when none is written. -/
theorem sampled_samplesOf (profile : Text) (client : TrafficClient)
    (session : Option SessionState) (d : Direction) (key : StatKey) :
    sampled (samplesOf profile client session) d key =
      if statKey profile client = key then
        Meters.charge (session.map (·.last d)) (reading d (profile, client)) else 0 := by
  rw [charge_reading]
  unfold samplesOf
  obtain ⟨rx, tx⟩ := deltas profile client session
  by_cases hMoved : max rx 0 > 0 ∨ max tx 0 > 0
  · simp only [if_pos hMoved]
    by_cases hKey : statKey profile client = key
    · have hFields : (storedName client, protocolTypeFromProfile profile) = key := hKey
      cases d <;> simp [sampled, Sample.delta, hKey, hFields]
    · have hFields : (storedName client, protocolTypeFromProfile profile) ≠ key := hKey
      simp [sampled, hKey, hFields]
  · simp only [if_neg hMoved]
    have hZero : max rx 0 = 0 ∧ max tx 0 = 0 := by omega
    cases d <;> simp [sampled, hZero.1, hZero.2]

/-- What a total has grown by is in the samples. -/
def Booked (stats : Table StatKey UserStat) (scan : Scan) : Prop :=
  ∀ d key, storedTotal scan.stats d key =
    storedTotal stats d key + sampled scan.samples d key

theorem booked_persistClient {stats : Table StatKey UserStat} {profile : Text}
    {client : TrafficClient} (hFresh : buildSessionKey profile client ∉ scan.seenKeys)
    (h : Booked stats scan) : Booked stats (persistClient scan profile client) := by
  intro d key
  rw [persistClient_fresh hFresh]
  simp only [storedTotal_set, total_statAfter, sampled_append, sampled_samplesOf]
  have hOld := h d key
  by_cases hKey : statKey profile client = key
  · subst hKey
    simp only [if_true]
    omega
  · simp only [if_neg hKey]
    omega

/-- **The samples of a snapshot** are what it adds to the totals. -/
theorem total_persistSnapshot (db : Db) (statusRows : List StatusRow) :
    ∃ written, (persistSnapshot db statusRows).1.samples = db.samples ++ written ∧
      (persistSnapshot db statusRows).2.samplesAdded = written.length ∧
      ∀ d key, storedTotal (persistSnapshot db statusRows).1.stats d key =
        storedTotal db.stats d key + sampled written d key := by
  refine ⟨_, rfl, rfl, ?_⟩
  show Booked db.stats (scanRows _ statusRows)
  rw [scanRows_eq]
  exact scanEntries_induction (P := Booked db.stats)
    (fun _ _ _ hFresh => booked_persistClient hFresh) _ fun d key => (add_zero _).symm

/-! ## Runs -/

/-- A snapshot is persisted, or the maintenance deletes rows and keeps those with `keep`. -/
inductive Action
  | persist (statusRows : List StatusRow)
  | purgeSessions (keep : Text → SessionState → Bool)
  | deleteSamples (keep : Sample → Bool)

def perform (db : Db) : Action → Db
  | .persist statusRows => (persistSnapshot db statusRows).1
  | .purgeSessions keep => { db with sessions := db.sessions.filter keep }
  | .deleteSamples keep => { db with samples := db.samples.filter keep }

def run (actions : List Action) : Db := actions.foldl perform Db.empty

def Action.purges : Action → Bool
  | .purgeSessions _ => true
  | _ => false

def snapshots (actions : List Action) : List (List StatusRow) :=
  actions.filterMap fun action =>
    match action with
    | .persist statusRows => some statusRows
    | _ => none

theorem run_append (actions : List Action) (action : Action) :
    run (actions ++ [action]) = perform (run actions) action := by
  rw [run, foldl_append]
  rfl

theorem readings_append (d : Direction) (actions : List Action) (action : Action) :
    readings d (snapshots (actions ++ [action])) =
      readings d (snapshots actions) ++ readings d (snapshots [action]) := by
  simp only [readings, snapshots, filterMap_append, flatMap_append]

/-- **The stored counters are those of the meters** while no session is purged. -/
theorem meters_run {actions : List Action} (hKept : ∀ action ∈ actions, action.purges = false)
    (d : Direction) : (run actions).meters d = Meters.readAll (readings d (snapshots actions)) := by
  induction actions using List.reverseRecOn with
  | nil => rfl
  | append_singleton actions action ih =>
    rw [forall_mem_append, forall_mem_singleton] at hKept
    specialize ih hKept.1
    rw [run_append, readings_append, Meters.readAll, foldl_append, ← Meters.readAll, ← ih]
    cases action with
    | persist statusRows =>
      rw [perform, meters_persistSnapshot]
      simp [readings, snapshots]
    | purgeSessions keep => exact absurd hKept.2 (by simp [Action.purges])
    | deleteSamples keep => rfl

theorem balanced_run (actions : List Action) : Balanced (run actions).stats := by
  induction actions using List.reverseRecOn with
  | nil => exact fun key stat hRow => absurd hRow (by simp [run, Db.empty])
  | append_singleton actions action ih =>
    rw [run_append]
    cases action with
    | persist statusRows => exact balanced_persistSnapshot ih statusRows
    | purgeSessions keep | deleteSamples keep => exact ih

/-! ## Main result -/

/-- **Traffic is neither lost nor counted twice.** Sessions that belong to one account each and
whose counters never go down add up; in every run a total is the sum of its parts and grows by
the samples written. -/
theorem traffic_exact (actions : List Action) :
    (∀ d, (∀ action ∈ actions, action.purges = false) →
      KeysDetermine (readings d (snapshots actions)) → Grows (readings d (snapshots actions)) →
      ∀ key, storedTotal (run actions).stats d key =
        ∑ k ∈ keysOf (readings d (snapshots actions)) key,
          (lastSeen (readings d (snapshots actions)) k -
            start (readings d (snapshots actions)) k)) ∧
      Balanced (run actions).stats ∧
      ∀ statusRows, ∃ written,
        (persistSnapshot (run actions) statusRows).1.samples = (run actions).samples ++ written ∧
        (persistSnapshot (run actions) statusRows).2.samplesAdded = written.length ∧
        ∀ d key, storedTotal (persistSnapshot (run actions) statusRows).1.stats d key =
          storedTotal (run actions).stats d key + sampled written d key := by
  refine ⟨?_, balanced_run actions, total_persistSnapshot (run actions)⟩
  intro d hKept hKeys hGrows key
  rw [← Lib.total_readAll hKeys hGrows key, ← meters_run hKept d]
  rfl

/-- An OpenVPN client. -/
def openvpnClient (commonName realAddress : String) (bytesReceived bytesSent : ℕ) : TrafficClient :=
  ⟨commonName.toList, realAddress.toList, "10.29.0.6".toList, bytesReceived, bytesSent, 1700000000,
    "openvpn".toList, none⟩

def wireguardPeer (commonName : String) (bytesReceived bytesSent : ℕ) : TrafficClient :=
  ⟨commonName.toList, "198.51.100.7:51443".toList, "10.28.0.2/32".toList, bytesReceived, bytesSent,
    0, "wireguard".toList, some "pk".toList⟩

/-- Two sessions of one client, and a peer of the same name. -/
def twoSnapshots : List Action :=
  [.persist [⟨"vpn-udp".toList, [openvpnClient "ann" "198.51.100.7:1000" 10 20]⟩,
      ⟨"vpn-wg".toList, [wireguardPeer "ann" 100 200]⟩],
    .persist [⟨"vpn-udp".toList, [openvpnClient "ann" "198.51.100.7:2000" 5 5,
        openvpnClient "ann" "198.51.100.7:1000" 15 30]⟩,
      ⟨"vpn-wg".toList, [wireguardPeer "ann" 130 260]⟩]]

theorem traffic_twoSnapshots :
    storedTotal (run twoSnapshots).stats .received ("ann".toList, .openvpnUdp) = 20 ∧
      storedTotal (run twoSnapshots).stats .received ("ann".toList, .wireguard) = 30 := by
  have hKeys : KeysDetermine (readings .received (snapshots twoSnapshots)) := by decide
  have hGrows : Grows (readings .received (snapshots twoSnapshots)) := by decide
  have hTotal := (traffic_exact twoSnapshots).1 .received (by decide) hKeys hGrows
  rw [hTotal, hTotal]
  decide

/-- A name with a `|`, and an address with one. -/
def sharedKey : List Action :=
  [.persist [⟨"vpn-udp".toList, [openvpnClient "ann|bob" "carl" 10 0]⟩],
    .persist [⟨"vpn-udp".toList, [openvpnClient "ann" "bob|carl" 15 0]⟩]]

/-- Two clients with one session key: the second one starts where the first one was. -/
theorem sharedKey_not_exact :
    ¬ ∀ actions : List Action, ∀ d, (∀ action ∈ actions, action.purges = false) →
      (∀ d, Grows (readings d (snapshots actions))) →
      ∀ key, storedTotal (run actions).stats d key =
        ∑ k ∈ keysOf (readings d (snapshots actions)) key,
          (lastSeen (readings d (snapshots actions)) k -
            start (readings d (snapshots actions)) k) := by
  intro h
  have hGrows : ∀ d, Grows (readings d (snapshots sharedKey)) := by
    intro d
    cases d <;> decide
  have hTotal := h sharedKey .received (by decide) hGrows ("ann".toList, .openvpnUdp)
  revert hTotal
  decide

end AdminPanel.Traffic
