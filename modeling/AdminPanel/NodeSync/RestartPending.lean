import AdminPanel.Lib.Runs
import AdminPanel.NodeSync.OpenvpnRestart

/-!
# The owed OpenVPN restart

Three operations work on the OpenVPN servers of a replica: the PKI sync, the full
push and the shared-domain apply. The PKI sync commits `openvpn_restart_pending`
before it imports; a full push writes the identity of the backup and marks nothing,
so that a push which fails before its restart forgets it. Every clear believes the
restart, which passes units over without reporting a failure.

* `NothingForgotten` — a stale unit means a pending restart, and no clear came early;
* `RestartOp.Keeps` — the condition, of the replica before the operation;
* `restart_pending_kept` — both, over every run.
-/

namespace AdminPanel.NodeSync

open Lib Lib.Procedure

/-- What else an import writes: the other members of easyrsa3 and the client profiles. -/
structure OpenvpnFiles where
  members : String := ""
  profiles : String := ""
  deriving DecidableEq, Repr

/-- The replica, what it was at each clear of the flag, and its files. -/
structure RestartState where
  replica : Replica
  clears : List Replica := []
  files : OpenvpnFiles := {}

def Replica.AllCurrent (r : Replica) : Prop := ∀ u, ¬ r.Stale u

structure NothingForgotten (s : RestartState) : Prop where
  owed : s.replica.pending = true ∨ s.replica.AllCurrent
  settled : ∀ r ∈ s.clears, r.AllCurrent

variable {s : RestartState}

/-- Only the replica and its clears count. -/
theorem nothingForgotten_congr {t : RestartState} (hReplica : s.replica = t.replica)
    (hClears : s.clears = t.clears) : NothingForgotten s ↔ NothingForgotten t := by
  constructor
  · exact fun h => ⟨hReplica ▸ h.owed, hClears ▸ h.settled⟩
  · exact fun h => ⟨hReplica ▸ h.owed, hClears ▸ h.settled⟩

def Replica.withDisk (r : Replica) (identity : ServerIdentity) : Replica :=
  { r with disk := identity }

/-! ## The steps of the operations -/

/-- The tree `easyrsa3`, as digests. -/
structure Easyrsa3 where
  identity : ServerIdentity
  members : String := ""
  deriving DecidableEq, Repr

/-- An `export_easyrsa3_archive` payload. -/
structure Archive where
  pki : Easyrsa3
  readable : Bool := true

def readPkiState (archive : Archive) : Option ServerIdentity :=
  if archive.readable then some archive.pki.identity else none

/-- All of `SERVER_IDENTITY_MEMBERS` are there. -/
def ServerIdentity.complete (identity : ServerIdentity) : Bool :=
  identity.caCrt.isSome && identity.serverCrt.isSome && identity.serverKey.isSome

def serverIdentityChanged (before after : Option ServerIdentity) : Bool :=
  match before, after with
  | some before, some after => !after.complete || decide (before ≠ after)
  | _, _ => true

abbrev RestartProc := Procedure Unit RestartState

def modifyReplica (f : Replica → Replica) : RestartProc Unit :=
  modify fun s => { s with replica := f s.replica }

def installPki (pki : Easyrsa3) (s : RestartState) : RestartState :=
  { s with
    replica := s.replica.withDisk pki.identity
    files := { s.files with members := pki.members } }

/-- The profiles archive of the primary and how its copy goes; `checkRaises` is the
validation that follows. -/
structure ProfileCopy where
  archive : String := "profiles"
  importEnd : CallEnd := .ok
  checkRaises : Bool := false

def installProfiles (archive : String) (s : RestartState) : RestartState :=
  { s with files := { s.files with profiles := archive } }

/-- `copy_openvpn_profiles_from_primary` and `validate_all_openvpn_profiles` -/
def copyOpenvpnProfilesFromPrimary (c : ProfileCopy) : RestartProc Unit := do
  raiseIf (c.archive == "") ()
  call c.importEnd () (installProfiles c.archive)
  raiseIf c.checkRaises ()

/-- `_set_openvpn_restart_pending(db, replica_node, True)` -/
def markOpenvpnRestartPending (commitRaises : Bool) : RestartProc Unit := do
  raiseIf commitRaises ()
  modifyReplica fun r => { r with pending := true }

def clearOpenvpnRestartPending (commitRaises : Bool) : RestartProc Unit := do
  raiseIf commitRaises ()
  modify fun s =>
    { s with replica := { s.replica with pending := false }, clears := s.replica :: s.clears }

def restartServers (call : RestartCall) : RestartProc RestartResult := do
  let s ← get
  modifyReplica fun r => (call.run r).1
  match (call.run s.replica).2 with
  | none => throw ()
  | some result => pure result

/-! ## The operations -/

/-- What one `sync_openvpn_pki_from_primary` meets. -/
structure PkiSyncEnv where
  replicaReadable : Bool := true
  exportRaises : Bool := false
  archive : Archive
  markRaises : Bool := false
  importEnd : CallEnd := .ok
  profiles : ProfileCopy := {}
  disconnectRaises : Bool := false
  restart : RestartCall
  clearRaises : Bool := false

def PkiSyncEnv.changed (e : PkiSyncEnv) (r : Replica) : Bool :=
  serverIdentityChanged (if e.replicaReadable then some r.disk else none) (readPkiState e.archive)

/-- `sync_openvpn_pki_from_primary` from the import on. -/
def importOpenvpnPki (e : PkiSyncEnv) (restartNeeded : Bool) : RestartProc Unit := do
  call e.importEnd () (installPki e.archive.pki)
  copyOpenvpnProfilesFromPrimary e.profiles
  if restartNeeded then
    let result ← restartServers e.restart
    raiseIf (!result.success) ()
    clearOpenvpnRestartPending e.clearRaises
  else
    raiseIf e.disconnectRaises ()

/-- `sync_openvpn_pki_from_primary`, with `db` and `replica_node` given -/
def syncOpenvpnPkiFromPrimary (e : PkiSyncEnv) : RestartProc Unit := do
  let s ← get
  raiseIf e.exportRaises ()
  if e.changed s.replica then
    markOpenvpnRestartPending e.markRaises
    importOpenvpnPki e true
  else
    importOpenvpnPki e s.replica.pending

/-- What one `run_push_full` meets on the replica, up to its OpenVPN restart. -/
structure PushFullEnv where
  backup : Easyrsa3
  restoreEnd : CallEnd := .ok
  profiles : ProfileCopy := {}
  pruneRaises : Bool := false
  restart : RestartCall
  clearRaises : Bool := false

/-- The step `restart_openvpn` of `run_push_full`. -/
def pushRestartOpenvpn (e : PushFullEnv) : RestartProc Unit := do
  let s ← get
  let restartOwed := s.replica.pending
  let result ← restartServers e.restart
  raiseIf (!result.success) ()
  if restartOwed then clearOpenvpnRestartPending e.clearRaises

/-- The part of `run_push_full` that works on the OpenVPN servers. -/
def runPushFull (e : PushFullEnv) : RestartProc Unit := do
  call e.restoreEnd () (installPki e.backup)
  copyOpenvpnProfilesFromPrimary e.profiles
  raiseIf e.pruneRaises ()
  pushRestartOpenvpn e

/-- What one shared-domain apply meets on the replica: `doall.sh` and `client.sh 7`, then
the profiles of the primary, which are left out when its own apply did not run. -/
structure SharedDomainEnv where
  prepareRaises : Bool := false
  profiles : Option ProfileCopy := some {}
  restart : RestartCall
  clearRaises : Bool := false

def sharedDomainRestart (e : SharedDomainEnv) : RestartProc Unit := do
  let s ← get
  let restartOwed := s.replica.pending
  let result ← restartServers e.restart
  if restartOwed && result.success && result.failed.isEmpty then
    clearOpenvpnRestartPending e.clearRaises

/-- The replica's part of `apply_shared_domain_to_members`. -/
def applySharedDomain (e : SharedDomainEnv) : RestartProc Unit := do
  raiseIf e.prepareRaises ()
  match e.profiles with
  | none => sharedDomainRestart e
  | some copy => do
    copyOpenvpnProfilesFromPrimary copy
    sharedDomainRestart e

inductive RestartOp
  | pkiSync (e : PkiSyncEnv)
  | pushFull (e : PushFullEnv)
  | sharedDomain (e : SharedDomainEnv)

def RestartOp.run : RestartOp → RestartProc Unit
  | .pkiSync e => syncOpenvpnPkiFromPrimary e
  | .pushFull e => runPushFull e
  | .sharedDomain e => applySharedDomain e

/-- One operation, ending normally or with an exception. -/
def restartStep (s : RestartState) (op : RestartOp) : Option RestartState :=
  some (perform op.run s).2

/-! ## The condition -/

/-- The call leaves no unit on another identity than the one on disk. -/
def RestartCall.ReachesAll (call : RestartCall) (r : Replica) : Prop :=
  ∀ u, r.Stale u → call.leaves u = false

/-- The flag is cleared after the call. -/
def RestartCall.settles (call : RestartCall) (clearRaises : Bool) (r : Replica) : Bool :=
  !call.reportsFailure r && !clearRaises

/-- The copy of the profiles does not raise. -/
def ProfileCopy.succeeds (c : ProfileCopy) : Bool :=
  c.archive != "" && c.importEnd == .ok && !c.checkRaises

/-- The sync gets as far as its restart. -/
def PkiSyncEnv.restarts (e : PkiSyncEnv) (r : Replica) : Bool :=
  !e.exportRaises && !(e.changed r && e.markRaises) && e.importEnd == .ok && e.profiles.succeeds &&
    (e.changed r || r.pending)

def PkiSyncEnv.Keeps (e : PkiSyncEnv) (r : Replica) : Prop :=
  e.restarts r = true → e.restart.settles e.clearRaises r = true →
    e.restart.ReachesAll (r.withDisk e.archive.pki.identity)

/-- The push gets as far as its restart. -/
def PushFullEnv.restarts (e : PushFullEnv) : Bool :=
  e.restoreEnd == .ok && e.profiles.succeeds && !e.pruneRaises

def PushFullEnv.Keeps (e : PushFullEnv) (r : Replica) : Prop :=
  if r.pending then
    e.restarts = true → e.restart.settles e.clearRaises r = true →
      e.restart.ReachesAll (r.withDisk e.backup.identity)
  else if e.restarts then e.restart.ReachesAll (r.withDisk e.backup.identity)
  else e.restoreEnd = .raisedBefore ∨ (r.withDisk e.backup.identity).AllCurrent

def SharedDomainEnv.Keeps (e : SharedDomainEnv) (r : Replica) : Prop :=
  e.prepareRaises = false → e.profiles.all ProfileCopy.succeeds = true → r.pending = true →
    e.restart.settles e.clearRaises r = true → e.restart.ReachesAll r

def RestartOp.Keeps (s : RestartState) : RestartOp → Prop
  | .pkiSync e => e.Keeps s.replica
  | .pushFull e => e.Keeps s.replica
  | .sharedDomain e => e.Keeps s.replica

/-! ## The restart step -/

theorem allCurrent_run_iff (call : RestartCall) (r : Replica) :
    (call.run r).1.AllCurrent ↔ call.ReachesAll r := by
  unfold Replica.AllCurrent RestartCall.ReachesAll
  simp only [stale_run_iff, not_and, Bool.not_eq_true]

/-- What a restart reports does not depend on the files. -/
@[simp] theorem settles_withDisk (call : RestartCall) (clearRaises : Bool) (r : Replica)
    (identity : ServerIdentity) :
    call.settles clearRaises (r.withDisk identity) = call.settles clearRaises r := rfl

/-- The state after a restart whose result is believed. -/
def settle (call : RestartCall) (owed clearRaises : Bool) (s : RestartState) : RestartState :=
  let r := (call.run s.replica).1
  if owed && call.settles clearRaises s.replica then
    { s with replica := { r with pending := false }, clears := r :: s.clears }
  else { s with replica := r }

theorem settle_iff (call : RestartCall) (owed clearRaises : Bool)
    (hClears : ∀ r ∈ s.clears, r.AllCurrent) :
    NothingForgotten (settle call owed clearRaises s) ↔
      if owed && call.settles clearRaises s.replica then call.ReachesAll s.replica
      else s.replica.pending = true ∨ call.ReachesAll s.replica := by
  unfold settle
  rw [← allCurrent_run_iff]
  cases owed && call.settles clearRaises s.replica with
  | true =>
    simp only [if_true]
    constructor
    · exact fun h => h.settled _ List.mem_cons_self
    · exact fun h => ⟨.inr h, List.forall_mem_cons.mpr ⟨h, hClears⟩⟩
  | false =>
    simp only [Bool.false_eq_true, if_false]
    constructor
    · exact fun h => run_pending call s.replica ▸ h.owed
    · exact fun h => ⟨run_pending call s.replica ▸ h, hClears⟩

theorem perform_restartServers (call : RestartCall) (s : RestartState) :
    perform (restartServers call) s =
      (match (call.run s.replica).2 with
        | none => .error ()
        | some result => .ok result,
        { s with replica := (call.run s.replica).1 }) := by
  simp only [restartServers, modifyReplica, perform_bind, perform_get, perform_modify]
  cases (call.run s.replica).2 <;> rfl

/-- Restart, then `finish` with what it owes: nothing is cleared unless the restart
reports success. -/
theorem perform_restart {call : RestartCall} {owed clearRaises : Bool}
    {finish : RestartResult → RestartProc Unit}
    (hFailed : ∀ result t, result.success = false → (perform (finish result) t).2 = t)
    (hOk : ∀ result t, result.success = true → (perform (finish result) t).2 =
      (perform (if owed then clearOpenvpnRestartPending clearRaises else pure ()) t).2)
    (s : RestartState) :
    (perform (restartServers call >>= finish) s).2 = settle call owed clearRaises s := by
  have hSuccess := run_success_iff call s.replica
  simp only [perform_bind, perform_restartServers, settle, RestartCall.settles]
  cases hResult : (call.run s.replica).2 with
  | none =>
    have hFails : call.reportsFailure s.replica = true := by
      simpa [hResult] using hSuccess
    simp [hFails]
  | some result =>
    rw [hResult, Option.any_some] at hSuccess
    cases hSucceeds : result.success with
    | false =>
      have hFails : call.reportsFailure s.replica = true := by
        simpa [hSucceeds] using hSuccess
      simp [hFails, hFailed result _ hSucceeds]
    | true =>
      have hFails : call.reportsFailure s.replica = false := hSuccess.mp hSucceeds
      rw [hOk result _ hSucceeds]
      cases owed <;> cases clearRaises <;> simp [hFails, clearOpenvpnRestartPending]

/-! ## The profiles -/

/-- The profiles on the replica after the copy. -/
def ProfileCopy.leaves (c : ProfileCopy) (s : RestartState) : RestartState :=
  if c.archive = "" ∨ c.importEnd = .raisedBefore then s else installProfiles c.archive s

@[simp] theorem leaves_replica (c : ProfileCopy) (s : RestartState) :
    (c.leaves s).replica = s.replica := by
  unfold ProfileCopy.leaves
  split <;> rfl

@[simp] theorem leaves_clears (c : ProfileCopy) (s : RestartState) :
    (c.leaves s).clears = s.clears := by
  unfold ProfileCopy.leaves
  split <;> rfl

theorem perform_copyProfiles (c : ProfileCopy) (s : RestartState) :
    perform (copyOpenvpnProfilesFromPrimary c) s =
      (if c.succeeds then .ok () else .error (), c.leaves s) := by
  unfold copyOpenvpnProfilesFromPrimary ProfileCopy.succeeds ProfileCopy.leaves
  by_cases hEmpty : c.archive = ""
  · simp [hEmpty]
  · cases c.importEnd with
    | ok => cases c.checkRaises <;> simp [hEmpty]
    | raisedBefore | raisedAfter => simp [hEmpty]

theorem nothingForgotten_leaves (c : ProfileCopy) (s : RestartState) :
    NothingForgotten (c.leaves s) ↔ NothingForgotten s :=
  nothingForgotten_congr (leaves_replica c s) (leaves_clears c s)

/-! ## The PKI sync -/

/-- A sync that sees no change imports the identity that is on disk already. -/
theorem withDisk_of_not_changed {e : PkiSyncEnv} {r : Replica} (h : e.changed r = false) :
    r.withDisk e.archive.pki.identity = r := by
  unfold PkiSyncEnv.changed readPkiState at h
  cases hReplica : e.replicaReadable <;> cases hArchive : e.archive.readable <;>
    simp [hReplica, hArchive, serverIdentityChanged] at h
  rw [Replica.withDisk, ← h.2]

/-- The state after the import and what follows it. -/
theorem perform_importOpenvpnPki (e : PkiSyncEnv) (restartNeeded : Bool) (s : RestartState) :
    (perform (importOpenvpnPki e restartNeeded) s).2 =
      match e.importEnd with
      | .raisedBefore => s
      | .raisedAfter => installPki e.archive.pki s
      | .ok =>
        let copied := e.profiles.leaves (installPki e.archive.pki s)
        if !e.profiles.succeeds || !restartNeeded then copied
        else settle e.restart true e.clearRaises copied := by
  unfold importOpenvpnPki
  cases hImport : e.importEnd with
  | raisedBefore | raisedAfter => simp
  | ok =>
    simp only [perform_bind, perform_call, perform_copyProfiles]
    cases e.profiles.succeeds with
    | false => simp
    | true =>
      cases restartNeeded with
      | false => simp
      | true =>
        simp only [if_true, Bool.not_true, Bool.or_self, Bool.false_eq_true, if_false]
        refine perform_restart (fun result t hFailed => ?_) (fun result t hOk => ?_) _
        · simp [hFailed]
        · simp [hOk]

/-- With the flag up only the clear can forget. -/
theorem importOpenvpnPki_iff (e : PkiSyncEnv)
    (hPending : s.replica.pending = true) (hClears : ∀ r ∈ s.clears, r.AllCurrent) :
    NothingForgotten (perform (importOpenvpnPki e true) s).2 ↔
      (e.importEnd = .ok → e.profiles.succeeds = true →
        e.restart.settles e.clearRaises s.replica = true →
          e.restart.ReachesAll (s.replica.withDisk e.archive.pki.identity)) := by
  rw [perform_importOpenvpnPki]
  have hWritten : NothingForgotten (installPki e.archive.pki s) := ⟨.inl hPending, hClears⟩
  cases e.importEnd with
  | raisedBefore => exact iff_of_true ⟨.inl hPending, hClears⟩ (by simp)
  | raisedAfter => exact iff_of_true hWritten (by simp)
  | ok =>
    cases e.profiles.succeeds with
    | false => exact iff_of_true ((nothingForgotten_leaves _ _).mpr hWritten) (by simp)
    | true =>
      have hSettle := settle_iff e.restart true e.clearRaises
        (s := e.profiles.leaves (installPki e.archive.pki s)) (by simpa [installPki] using hClears)
      have hDisk : (installPki e.archive.pki s).replica =
          s.replica.withDisk e.archive.pki.identity := rfl
      have hWritten' : (s.replica.withDisk e.archive.pki.identity).pending = true := hPending
      refine hSettle.trans ?_
      cases hSettles : e.restart.settles e.clearRaises s.replica <;>
        simp [hDisk, hWritten', hSettles]

/-- **A copy of the PKI** forgets no restart exactly if `Keeps` holds of it. -/
theorem pkiSync_iff (e : PkiSyncEnv) (h : NothingForgotten s) :
    NothingForgotten (perform (syncOpenvpnPkiFromPrimary e) s).2 ↔ e.Keeps s.replica := by
  unfold syncOpenvpnPkiFromPrimary PkiSyncEnv.Keeps PkiSyncEnv.restarts
  cases hExport : e.exportRaises with
  | true => exact iff_of_true (by simpa using h) (by simp)
  | false =>
    cases hChanged : e.changed s.replica with
    | true =>
      cases hMark : e.markRaises with
      | true => exact iff_of_true (by simpa [hChanged, markOpenvpnRestartPending] using h) (by simp)
      | false =>
        -- the flag is no part of what a restart reaches
        have hImport : NothingForgotten (perform (importOpenvpnPki e true)
            { s with replica := { s.replica with pending := true } }).2 ↔
            (e.importEnd = .ok → e.profiles.succeeds = true →
              e.restart.settles e.clearRaises s.replica = true →
                e.restart.ReachesAll (s.replica.withDisk e.archive.pki.identity)) :=
          importOpenvpnPki_iff e rfl h.settled
        simpa [hChanged, hMark, markOpenvpnRestartPending, modifyReplica, and_imp] using hImport
    | false =>
      cases hPending : s.replica.pending with
      | true =>
        have hImport := importOpenvpnPki_iff e hPending h.settled
        simpa [hChanged, hPending, and_imp] using hImport
      | false =>
        have hSame : (installPki e.archive.pki s).replica = s.replica :=
          withDisk_of_not_changed hChanged
        have hWritten := (nothingForgotten_congr hSame rfl).mpr h
        have hState : NothingForgotten (perform (importOpenvpnPki e false) s).2 := by
          rw [perform_importOpenvpnPki]
          cases e.importEnd with
          | raisedBefore => exact h
          | raisedAfter => exact hWritten
          | ok => simpa [nothingForgotten_leaves] using hWritten
        exact iff_of_true (by simpa [hChanged, hPending] using hState) (by simp)

/-! ## The other two -/

/-- The restart of a push or of a shared-domain apply clears what was owed before it. -/
theorem settleOwed_iff (call : RestartCall) (clearRaises : Bool)
    (hClears : ∀ r ∈ s.clears, r.AllCurrent) :
    NothingForgotten (settle call s.replica.pending clearRaises s) ↔
      if s.replica.pending then
        call.settles clearRaises s.replica = true → call.ReachesAll s.replica
      else call.ReachesAll s.replica := by
  rw [settle_iff call _ clearRaises hClears]
  cases s.replica.pending <;> cases call.settles clearRaises s.replica <;> simp

theorem perform_pushRestartOpenvpn (e : PushFullEnv) (s : RestartState) :
    (perform (pushRestartOpenvpn e) s).2 =
      settle e.restart s.replica.pending e.clearRaises s := by
  unfold pushRestartOpenvpn
  rw [perform_bind, perform_get]
  refine perform_restart (fun result t hFailed => ?_) (fun result t hOk => ?_) s
  · simp [hFailed]
  · simp [hOk]

/-- **A full push**, likewise. -/
theorem pushFull_iff (e : PushFullEnv) (h : NothingForgotten s) :
    NothingForgotten (perform (runPushFull e) s).2 ↔ e.Keeps s.replica := by
  -- a push that stops before its restart leaves the units as they are
  have hStops : NothingForgotten (installPki e.backup s) ↔
      s.replica.pending = true ∨ (s.replica.withDisk e.backup.identity).AllCurrent :=
    ⟨fun hKept => hKept.owed, fun hOwed => ⟨hOwed, h.settled⟩⟩
  have hRestarts := settleOwed_iff e.restart e.clearRaises
    (s := e.profiles.leaves (installPki e.backup s)) (by simpa [installPki] using h.settled)
  rw [← perform_pushRestartOpenvpn e] at hRestarts
  have hDisk : (installPki e.backup s).replica = s.replica.withDisk e.backup.identity := rfl
  have hPendingDisk : (s.replica.withDisk e.backup.identity).pending = s.replica.pending := rfl
  unfold runPushFull PushFullEnv.Keeps PushFullEnv.restarts
  cases hRestore : e.restoreEnd with
  | raisedBefore => exact iff_of_true (by simpa using h) (by simp)
  | raisedAfter => cases hPending : s.replica.pending <;> simp [hStops, hPending]
  | ok =>
    cases hProfiles : e.profiles.succeeds with
    | false =>
      cases hPending : s.replica.pending <;>
        simp [perform_copyProfiles, nothingForgotten_leaves, hProfiles, hStops, hPending]
    | true =>
      cases hPrune : e.pruneRaises with
      | true =>
        cases hPending : s.replica.pending <;>
          simp [perform_copyProfiles, nothingForgotten_leaves, hProfiles, hStops, hPending]
      | false =>
        cases hPending : s.replica.pending <;>
          simpa [perform_copyProfiles, hProfiles, hDisk, hPendingDisk, hPending] using hRestarts

theorem perform_sharedDomainRestart (e : SharedDomainEnv) (s : RestartState) :
    (perform (sharedDomainRestart e) s).2 =
      settle e.restart s.replica.pending e.clearRaises s := by
  unfold sharedDomainRestart
  rw [perform_bind, perform_get]
  refine perform_restart (fun result t hFailed => ?_) (fun result t hOk => ?_) s
  · simp [hFailed]
  · have hNone : result.failed.isEmpty = true := hOk
    simp [hOk, hNone]

theorem sharedDomainRestart_iff (e : SharedDomainEnv) (h : NothingForgotten s) :
    NothingForgotten (perform (sharedDomainRestart e) s).2 ↔
      (s.replica.pending = true → e.restart.settles e.clearRaises s.replica = true →
        e.restart.ReachesAll s.replica) := by
  rw [perform_sharedDomainRestart, settleOwed_iff e.restart e.clearRaises h.settled]
  cases hPending : s.replica.pending with
  | true => simp
  | false =>
    have hCurrent := h.owed.resolve_left (by simp [hPending])
    exact iff_of_true (fun u hStale => absurd hStale (hCurrent u)) (by simp)

theorem sharedDomain_iff (e : SharedDomainEnv) (h : NothingForgotten s) :
    NothingForgotten (perform (applySharedDomain e) s).2 ↔ e.Keeps s.replica := by
  unfold applySharedDomain SharedDomainEnv.Keeps
  cases hPrepare : e.prepareRaises with
  | true => exact iff_of_true (by simpa using h) (by simp)
  | false =>
    cases hProfiles : e.profiles with
    | none => simpa using sharedDomainRestart_iff e h
    | some copy =>
      have hCopied : NothingForgotten (copy.leaves s) := (nothingForgotten_leaves copy s).mpr h
      cases hSucceeds : copy.succeeds with
      | false =>
        exact iff_of_true (by simpa [perform_copyProfiles, hSucceeds] using hCopied)
          (by simp [hSucceeds])
      | true =>
        simpa [perform_copyProfiles, hSucceeds] using sharedDomainRestart_iff e hCopied

/-! ## Over a run -/

/-- One operation, whatever it meets. -/
theorem restartOp_iff (op : RestartOp) (h : NothingForgotten s) :
    NothingForgotten (perform op.run s).2 ↔ op.Keeps s := by
  cases op with
  | pkiSync e => exact pkiSync_iff e h
  | pushFull e => exact pushFull_iff e h
  | sharedDomain e => exact sharedDomain_iff e h

/-- **The owed restart.** From a replica that owes nothing silently, every state that
a run of the three operations reaches keeps stale units marked and every clear found
all active units current, if and only if each operation meets its condition. -/
theorem restart_pending_kept (s : RestartState) (h : NothingForgotten s) (ops : List RestartOp) :
    Along restartStep (fun s op => ∀ s', restartStep s op = some s' → NothingForgotten s') s ops ↔
      Along restartStep (fun s op => op.Keeps s) s ops := by
  have hIff : ∀ t op, NothingForgotten t →
      ((∀ t', restartStep t op = some t' → NothingForgotten t') ↔ op.Keeps t) := by
    intro t op hKept
    rw [← restartOp_iff op hKept]
    constructor
    · exact fun hNext => hNext _ rfl
    · rintro hNext t' hStep
      exact Option.some.inj hStep ▸ hNext
  exact along_congr hIff (fun t op t' _ hNext hStep => hNext t' hStep) h ops

def identityA : ServerIdentity := ⟨some "ca-1", some "crt-1", some "key-1"⟩

def pkiB : Easyrsa3 := { identity := ⟨some "ca-2", some "crt-2", some "key-2"⟩ }

/-- A profile copy that raises before it has written. -/
def failingCopy : ProfileCopy := { importEnd := .raisedBefore }

/-- Every unit answers a restart and setup disables none. -/
def answering : RestartEnv := ⟨none, true, fun _ => .ok⟩

/-- The TCP servers run, but setup says `n`. -/
def tcpDisabled : RestartEnv := ⟨some ⟨"y", "n"⟩, true, fun _ => .ok⟩

def upToDate : RestartState where
  replica := { disk := identityA, loaded := fun _ => some identityA }

theorem upToDate_kept : NothingForgotten upToDate := by
  refine ⟨.inr ?_, by simp [upToDate]⟩
  rintro u ⟨identity, hLoaded, hNe⟩
  exact hNe (Option.some.inj hLoaded).symm

/-- A push that fails after the restore. -/
def failingPush : RestartOp :=
  .pushFull { backup := pkiB, profiles := failingCopy, restart := .servers answering }

/-- A sync on a replica whose TCP servers setup disables. -/
def tcpSync : RestartOp := .pkiSync { archive := { pki := pkiB }, restart := .servers tcpDisabled }

/-- The push forgets its restart; the sync clears the flag while the TCP servers run the
old certificate. -/
theorem push_forgets_restart :
    ¬ (∀ s ops s', NothingForgotten s → exec restartStep s ops = some s' → NothingForgotten s') ∧
      (∃ s', exec restartStep upToDate [failingPush] = some s' ∧
        s'.replica.pending = false ∧ s'.replica.Stale .antizapretUdp) ∧
      ∃ s', exec restartStep upToDate [tcpSync] = some s' ∧
        s'.replica.pending = false ∧ s'.replica.Stale .antizapretTcp := by
  have hPush : ∃ s', exec restartStep upToDate [failingPush] = some s' ∧
      s'.replica.pending = false ∧ s'.replica.Stale .antizapretUdp :=
    ⟨_, rfl, by decide, by decide⟩
  refine ⟨?_, hPush, _, rfl, by decide, by decide⟩
  intro hAll
  obtain ⟨s', hExec, hPending, hStale⟩ := hPush
  rcases (hAll _ _ s' upToDate_kept hExec).owed with hOwed | hCurrent
  · rw [hPending] at hOwed
    cases hOwed
  · exact hCurrent .antizapretUdp hStale

/-- A sync that fails after the import, and the retry that sees no change. -/
def syncAndRetry : List RestartOp :=
  [.pkiSync { archive := { pki := pkiB }, profiles := failingCopy, restart := .servers answering },
    .pkiSync { archive := { pki := pkiB }, restart := .servers answering }]

theorem retry_restarts :
    NothingForgotten upToDate ∧ Along restartStep
      (fun s op => ∀ s', restartStep s op = some s' → NothingForgotten s') upToDate
      syncAndRetry := by
  refine ⟨upToDate_kept, (restart_pending_kept upToDate upToDate_kept syncAndRetry).mpr ?_⟩
  refine along_of_forall (fun op hMem s => ?_) upToDate
  simp only [syncAndRetry, List.mem_cons, List.not_mem_nil, or_false] at hMem
  rcases hMem with rfl | rfl <;> exact fun _ _ u _ => rfl

end AdminPanel.NodeSync
