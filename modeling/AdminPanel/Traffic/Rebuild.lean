import AdminPanel.Panel.Database
import AdminPanel.Traffic.Accounting
import Mathlib.Algebra.Order.BigOperators.Group.List
import Mathlib.Algebra.Order.Group.Int

/-!
# The statistics, rebuilt from the samples

`rebuild_user_traffic_stats_from_samples` books the stored samples anew, under the protocols that
it knows.

* `rebuildUserTrafficStats` — the rebuilt rows;
* `Agrees` — their totals are those of the collector.

Main result: `agrees_iff`.
-/

namespace AdminPanel.Traffic

open List

open Lib (Table)
open Lib.PyText (strip)
open Panel (VpnType)

structure VpnConfig where
  clientName : Text
  vpnType : VpnType
  deriving DecidableEq, Repr

def normalizeIdentity (name : Text) : Text := lower (strip name)

def VpnConfig.isFor (config : VpnConfig) (identity : Text) : Bool :=
  config.clientName ≠ [] && strip config.clientName ≠ [] &&
    normalizeIdentity config.clientName = identity

section

variable (configs : List VpnConfig)

/-- `collect_wireguard_only_client_names_lower`, as a test -/
def wireguardOnly (identity : Text) : Bool :=
  configs.any (·.isFor identity) &&
    configs.all fun config => !config.isFor identity || config.vpnType = .wireguard

def ProtocolType.isOpenvpn : ProtocolType → Bool
  | .openvpn | .openvpnUdp | .openvpnTcp => true
  | _ => false

/-- The protocol under which a sample is booked. -/
def rebuiltProtocol (sample : Sample) : ProtocolType :=
  let protocol :=
    if sample.protocolType.isOpenvpn then sample.protocolType
    else if sample.protocolType = .wireguard ∨ sample.protocolType = .amneziawg2 then
      sample.protocolType
    else .openvpn
  if protocol.isOpenvpn ∧ wireguardOnly configs (normalizeIdentity sample.commonName) then
    .wireguard
  else protocol

def rebuildStep (stats : Table StatKey UserStat) (sample : Sample) : Table StatKey UserStat :=
  let commonName := strip sample.commonName
  if commonName = [] then stats
  else
    let key := (commonName, rebuiltProtocol configs sample)
    stats.set key (((stats.row? key).getD .new).credit sample.networkType
      (max sample.deltaReceived 0) (max sample.deltaSent 0))

/-- `rebuild_user_traffic_stats_from_samples`, without `seed_users` -/
def rebuildUserTrafficStats (samples : List Sample) : Table StatKey UserStat :=
  samples.foldl (rebuildStep configs) Table.empty

/-! ## The six totals -/

/-- A total: of both networks, or of one. -/
def UserStat.part (stat : UserStat) (d : Direction) : Option NetworkType → ℤ
  | none => stat.total d
  | some .vpn => stat.vpn d
  | some .antizapret => stat.antizapret d

/-- The stored total; a row that is not there has none. -/
def storedPart (stats : Table StatKey UserStat) (d : Direction) (part : Option NetworkType)
    (key : StatKey) : ℤ :=
  ((stats.row? key).map (·.part d part)).getD 0

/-- What a sample adds to a total. -/
def Sample.share (sample : Sample) (d : Direction) (part : Option NetworkType) (key : StatKey) :
    ℤ :=
  if (sample.commonName, sample.protocolType) = key ∧ (part = none ∨ part = some sample.networkType)
  then sample.delta d else 0

/-- The rebuilt rows have the totals of the rows that they replace. -/
def Agrees (db : Db) : Prop :=
  ∀ d part key,
    storedPart (rebuildUserTrafficStats configs db.samples) d part key =
      storedPart db.stats d part key

def history (snapshots : List (List StatusRow)) : Db := run (snapshots.map .persist)

/-- Each client with OpenVPN samples has an OpenVPN config. -/
def Configured (samples : List Sample) : Prop :=
  ∀ sample ∈ samples, sample.protocolType.isOpenvpn = true → ∃ config ∈ configs,
    config.isFor (normalizeIdentity sample.commonName) = true ∧ config.vpnType = .openvpn

end

variable {stats : Table StatKey UserStat} {d : Direction} {part : Option NetworkType}
  {key key' : StatKey} {configs : List VpnConfig} {sample : Sample} {samples : List Sample}

theorem storedPart_set (stat : UserStat) : storedPart (stats.set key stat) d part key' =
    if key = key' then stat.part d part else storedPart stats d part key' := by
  unfold storedPart
  by_cases h : key = key'
  · subst h
    simp
  · rw [Table.row?_set_of_ne _ _ (Ne.symm h), if_neg h]

theorem storedPart_getD :
    ((stats.row? key).getD .new).part d part = storedPart stats d part key := by
  unfold storedPart
  cases stats.row? key with
  | none => cases d <;> rcases part with _ | (_ | _) <;> rfl
  | some stat => rfl

theorem Sample.share_nonneg (sample : Sample) (h : 0 ≤ sample.delta d) :
    0 ≤ sample.share d part key := by
  unfold Sample.share
  split_ifs
  · exact h
  · exact le_rfl

/-- A row that is credited with a sample. -/
theorem storedPart_credit (sample : Sample) (isNew : Bool) :
    storedPart (stats.set (sample.commonName, sample.protocolType)
      ((((stats.row? (sample.commonName, sample.protocolType)).getD .new).credit sample.networkType
        sample.deltaReceived sample.deltaSent).countSession isNew)) d part key =
      storedPart stats d part key + sample.share d part key := by
  rw [storedPart_set, Sample.share]
  by_cases hKey : (sample.commonName, sample.protocolType) = key
  · rw [if_pos hKey, hKey, ← storedPart_getD]
    generalize (stats.row? key).getD .new = stat
    cases isNew <;> cases hNet : sample.networkType <;> rcases part with _ | (_ | _) <;> cases d <;>
      simp [UserStat.credit, UserStat.countSession, UserStat.part, UserStat.total, UserStat.vpn,
        UserStat.antizapret, Sample.delta]
  · rw [if_neg hKey, if_neg fun h => hKey h.1, add_zero]

/-! ## The collector -/

/-- The samples make up the totals, and each one moved bytes. -/
structure Journaled (stats : Table StatKey UserStat) (samples : List Sample) : Prop where
  parts : ∀ d part key, storedPart stats d part key = (samples.map (·.share d part key)).sum
  nonneg : ∀ sample ∈ samples, ∀ d, 0 ≤ sample.delta d
  moved : ∀ sample ∈ samples, ∃ d, 0 < sample.delta d
  stripped : ∀ sample ∈ samples, strip sample.commonName = sample.commonName

/-- One client of a snapshot: the samples still make up the totals. -/
theorem journaled_persistClient {before : List Sample} {scan : Scan} {profile : Text}
    {client : TrafficClient} (hFresh : buildSessionKey profile client ∉ scan.seenKeys)
    (h : Journaled scan.stats (before ++ scan.samples)) :
    Journaled (persistClient scan profile client).stats
      (before ++ (persistClient scan profile client).samples) := by
  rw [persistClient_fresh hFresh]
  dsimp only
  set session := scan.sessions.row? (buildSessionKey profile client)
  set sample : Sample := ⟨storedName client, networkType profile, protocolTypeFromProfile profile,
    max (deltas profile client session).1 0, max (deltas profile client session).2 0⟩
  have hParts : ∀ d part key,
      storedPart (scan.stats.set (statKey profile client) (statAfter scan profile client)) d part
        key = ((before ++ scan.samples).map (·.share d part key)).sum + sample.share d part key :=
    fun d part key => (storedPart_credit sample session.isNone).trans (by rw [h.parts])
  have hWritten : samplesOf profile client session =
      if sample.deltaReceived > 0 ∨ sample.deltaSent > 0 then [sample] else [] := rfl
  rw [hWritten, ← append_assoc]
  split_ifs with hMoved
  · refine ⟨fun d part key => ?_, ?_, ?_, ?_⟩
    · exact (hParts d part key).trans (by simp [add_assoc])
    · refine forall_mem_append.mpr ⟨h.nonneg, forall_mem_singleton.mpr fun d => ?_⟩
      cases d <;> exact le_max_right _ _
    · refine forall_mem_append.mpr ⟨h.moved, forall_mem_singleton.mpr ?_⟩
      exact hMoved.elim (fun h => ⟨.received, h⟩) fun h => ⟨.sent, h⟩
    · refine forall_mem_append.mpr ⟨h.stripped, forall_mem_singleton.mpr ?_⟩
      exact Lib.PyText.strip_strip _
  · rw [append_nil]
    refine { h with parts := fun d part key => ?_ }
    have hShare : sample.share d part key = 0 := by
      have hNone : ∀ d, sample.delta d = 0 := by
        rw [not_or, not_lt, not_lt] at hMoved
        intro d
        cases d
        · exact le_antisymm hMoved.1 (le_max_right _ _)
        · exact le_antisymm hMoved.2 (le_max_right _ _)
      rw [Sample.share, hNone, ite_self]
    rw [hParts, hShare, add_zero]

theorem journaled_history (snapshots : List (List StatusRow)) :
    Journaled (history snapshots).stats (history snapshots).samples := by
  induction snapshots using List.reverseRecOn with
  | nil => exact ⟨fun _ _ _ => rfl, nofun, nofun, nofun⟩
  | append_singleton snapshots statusRows ih =>
    rw [history, map_append, map_singleton, run_append]
    show Journaled (scanRows _ statusRows).stats (_ ++ (scanRows _ statusRows).samples)
    rw [scanRows_eq]
    refine scanEntries_induction (P := fun scan => Journaled scan.stats (_ ++ scan.samples))
      (fun _ _ _ hFresh => journaled_persistClient hFresh) _ ?_
    rw [append_nil]
    exact ih

/-! ## The rebuilt rows -/

/-- The sample as it is booked. -/
def booked (configs : List VpnConfig) (sample : Sample) : Option Sample :=
  if strip sample.commonName = [] then none
  else some ⟨strip sample.commonName, sample.networkType, rebuiltProtocol configs sample,
    max sample.deltaReceived 0, max sample.deltaSent 0⟩

theorem parts_rebuild : storedPart (rebuildUserTrafficStats configs samples) d part key =
    ((samples.filterMap (booked configs)).map (·.share d part key)).sum := by
  induction samples using List.reverseRecOn with
  | nil => rfl
  | append_singleton samples sample ih =>
    rw [rebuildUserTrafficStats, foldl_append, ← rebuildUserTrafficStats,
      filterMap_append, map_append, sum_append, ← ih]
    show storedPart (rebuildStep configs _ sample) d part key = _
    unfold rebuildStep booked
    dsimp only
    split_ifs with hName
    · simp [hName]
    · simp only [filterMap_cons, filterMap_nil, if_neg hName, map_singleton,
        sum_singleton]
      exact storedPart_credit ⟨strip sample.commonName, sample.networkType, _, _, _⟩ false

/-- A sample that the rebuild books as the collector did. -/
def Sample.Known (sample : Sample) : Prop :=
  sample.commonName ≠ [] ∧ sample.protocolType ≠ .amneziawg3

theorem rebuiltProtocol_ne : rebuiltProtocol configs sample ≠ .amneziawg3 := by
  unfold rebuiltProtocol
  cases sample.protocolType <;> dsimp only <;> split_ifs <;> simp_all [ProtocolType.isOpenvpn]

theorem not_wireguardOnly {identity : Text}
    (h : ∃ config ∈ configs, config.isFor identity = true ∧ config.vpnType = .openvpn) :
    wireguardOnly configs identity = false := by
  obtain ⟨config, hMem, hFor, hType⟩ := h
  refine Bool.and_eq_false_imp.mpr fun _ => all_eq_false.mpr ⟨config, hMem, ?_⟩
  simp [hFor, hType]

theorem booked_of_known (hKnown : sample.Known)
    (hStripped : strip sample.commonName = sample.commonName) (hNonneg : ∀ d, 0 ≤ sample.delta d)
    (hConfig : sample.protocolType.isOpenvpn = true →
      wireguardOnly configs (normalizeIdentity sample.commonName) = false) :
    booked configs sample = some sample := by
  have hProtocol : rebuiltProtocol configs sample = sample.protocolType := by
    have hOther := hKnown.2
    unfold rebuiltProtocol
    cases hType : sample.protocolType <;> simp_all [ProtocolType.isOpenvpn]
  have hReceived : max sample.deltaReceived 0 = sample.deltaReceived :=
    max_eq_left (hNonneg .received)
  have hSent : max sample.deltaSent 0 = sample.deltaSent := max_eq_left (hNonneg .sent)
  rw [booked, hStripped, if_neg hKnown.1, hProtocol, hReceived, hSent]

/-- Nothing is booked for the accounts of the other samples. -/
theorem rebuilt_of_unknown (hUnknown : ¬ sample.Known) :
    storedPart (rebuildUserTrafficStats configs samples) d part
      (sample.commonName, sample.protocolType) = 0 := by
  rw [parts_rebuild]
  refine sum_eq_zero fun share hShare => ?_
  obtain ⟨other, hOther, rfl⟩ := mem_map.mp hShare
  obtain ⟨raw, -, hBooked⟩ := mem_filterMap.mp hOther
  unfold booked at hBooked
  split_ifs at hBooked with hName
  cases hBooked
  refine if_neg fun hSame => hUnknown ?_
  obtain ⟨hSameName, hSameProtocol⟩ := Prod.mk.inj hSame.1
  exact ⟨hSameName ▸ hName, hSameProtocol ▸ rebuiltProtocol_ne⟩

/-- **The rebuilt totals are those of the collector** exactly if no sample has an empty name and
none is of AmneziaWG 3. -/
theorem agrees_iff (configs : List VpnConfig) (snapshots : List (List StatusRow))
    (hConfigured : Configured configs (history snapshots).samples) :
    Agrees configs (history snapshots) ↔ ∀ sample ∈ (history snapshots).samples, sample.Known := by
  have h := journaled_history snapshots
  constructor
  · intro hAgrees sample hMem
    by_contra hUnknown
    obtain ⟨d, hMoved⟩ := h.moved sample hMem
    have hShare : sample.share d none (sample.commonName, sample.protocolType) = sample.delta d :=
      if_pos ⟨rfl, .inl rfl⟩
    have hNonneg : ∀ share ∈ (history snapshots).samples.map
        (·.share d none (sample.commonName, sample.protocolType)), 0 ≤ share := by
      rintro share hShare
      obtain ⟨other, hOther, rfl⟩ := mem_map.mp hShare
      exact other.share_nonneg (h.nonneg other hOther d)
    have hLe := single_le_sum hNonneg _ (mem_map_of_mem hMem)
    rw [← h.parts, ← hAgrees, rebuilt_of_unknown hUnknown, hShare] at hLe
    exact absurd hLe (not_le_of_gt hMoved)
  · intro hKnown d part key
    have hBooked : (history snapshots).samples.filterMap (booked configs) =
        (history snapshots).samples := by
      rw [filterMap_congr fun sample hMem => booked_of_known (hKnown sample hMem)
        (h.stripped sample hMem) (h.nonneg sample hMem)
        fun hOpenvpn => not_wireguardOnly (hConfigured sample hMem hOpenvpn), filterMap_some]
    rw [parts_rebuild, hBooked, h.parts]

def annConfig : VpnConfig := ⟨"ann".toList, .openvpn⟩

def openvpnSnapshot : List StatusRow :=
  [⟨"vpn-udp".toList, [openvpnClient "ann" "198.51.100.7:1000" 10 20]⟩]

theorem agrees_iff_ann : Agrees [annConfig] (history [openvpnSnapshot]) ↔
    ∀ sample ∈ (history [openvpnSnapshot]).samples, sample.Known :=
  agrees_iff [annConfig] [openvpnSnapshot] fun sample hMem _ =>
    ⟨annConfig, mem_cons_self, by revert sample; decide, rfl⟩

def awg3Snapshot (bytes : ℕ) : List StatusRow :=
  [⟨"vpn-awg3".toList, [wireguardPeer "ann" bytes 0]⟩]

/-- The traffic of AmneziaWG 3 is booked as OpenVPN's. -/
theorem not_always_agrees : ¬ ∀ configs snapshots,
    Configured configs (history snapshots).samples → Agrees configs (history snapshots) := by
  intro h
  have hNone : ∀ sample ∈ (history [awg3Snapshot 1, awg3Snapshot 6]).samples,
      sample.protocolType.isOpenvpn ≠ true := by decide
  have hAgrees := h [] [awg3Snapshot 1, awg3Snapshot 6]
    (fun sample hMem hOpenvpn => absurd hOpenvpn (hNone sample hMem)) .received none
    ("ann".toList, .amneziawg3)
  revert hAgrees
  decide

end AdminPanel.Traffic
