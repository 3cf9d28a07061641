import AdminPanel.Lib.Procedure
import AdminPanel.Panel.Database

/-!
# Restarting the OpenVPN servers of a node

OpenVPN loads CA, certificate and key only at start, so a unit keeps the identity it
loaded when the files under it change. `restart_all_openvpn_servers` passes over
the units that setup disables, the inactive ones and those whose error text reads
like a missing unit; the multihome patch may answer without a restart.

* `Replica` — the identity on disk and what every unit loaded;
* `restartAllOpenvpnServers`, `RestartCall.run` — the restart step;
* `RestartCall.leaves`, `RestartCall.reportsFailure` — what it leaves running, and
  whether it says so (`stale_run_iff`, `run_success_iff`).
-/

namespace AdminPanel.NodeSync

open Lib
open Panel (lower stripped)

/-- The identity members of an easyrsa3 archive, as digests. -/
structure ServerIdentity where
  caCrt : Option String
  serverCrt : Option String
  serverKey : Option String
  deriving DecidableEq, Repr

/-- `OPENVPN_SERVER_UNITS` -/
inductive OpenvpnUnit
  | antizapretUdp
  | antizapretTcp
  | vpnUdp
  | vpnTcp
  deriving DecidableEq, Repr

def openvpnServerUnits : List OpenvpnUnit := [.antizapretUdp, .antizapretTcp, .vpnUdp, .vpnTcp]

theorem mem_openvpnServerUnits (u : OpenvpnUnit) : u ∈ openvpnServerUnits := by
  cases u <;> decide

/-- A replica's OpenVPN servers; `none` is an inactive unit. `pending` is
`openvpn_restart_pending` of the node as committed. -/
structure Replica where
  disk : ServerIdentity
  loaded : OpenvpnUnit → Option ServerIdentity
  pending : Bool := false

section

variable (env : RestartEnv) (r : Replica)

/-- An active unit runs another identity than the one on disk. -/
def Replica.Stale (u : OpenvpnUnit) : Prop :=
  ∃ identity, r.loaded u = some identity ∧ identity ≠ r.disk

instance (r : Replica) (u : OpenvpnUnit) : Decidable (r.Stale u) :=
  match h : r.loaded u with
  | none => isFalse (by rintro ⟨i, hi, -⟩; simp [h] at hi)
  | some i => decidable_of_iff (i ≠ r.disk)
      ⟨fun hNe => ⟨i, h, hNe⟩, by rintro ⟨j, hj, hNe⟩; rwa [Option.mem_unique h hj]⟩

/-! ## restart_all_openvpn_servers -/

/-- The setup flags that decide which units are expected. -/
structure ProtocolFlags where
  openvpnUdpEnable : String
  openvpnTcpEnable : String
  deriving DecidableEq, Repr

/-- `VPN_MONITOR_SERVICE_FLAGS` -/
def ProtocolFlags.flag (flags : ProtocolFlags) : OpenvpnUnit → String
  | .antizapretUdp => flags.openvpnUdpEnable
  | .antizapretTcp => flags.openvpnTcpEnable
  | .vpnUdp => flags.openvpnUdpEnable
  | .vpnTcp => flags.openvpnTcpEnable

def isSetupFlagEnabled (raw : String) : Bool :=
  let s := lower (stripped raw)
  if s = "" then true else s ∈ ["y", "yes", "true", "1", "on"]

/-- `openvpn_units_allowed_by_setup`, as membership -/
def allowedBySetup (flags : Option ProtocolFlags) (u : OpenvpnUnit) : Bool :=
  match flags with
  | none => true
  | some flags => isSetupFlagEnabled (flags.flag u)

def skipMarkers : List String :=
  ["not found", "not loaded", "does not exist", "could not be found", "unit not found",
    "invalid argument"]

def shouldSkipUnit (errorText : String) : Bool :=
  skipMarkers.any fun marker => decide (marker.toList <:+: (lower errorText).toList)

/-- What a restart did to the unit, whatever it answered. -/
inductive RestartEffect
  | untouched
  | stopped
  | started
  deriving DecidableEq, Repr

/-- The answer of `restart_service`; one that failed can have had any effect. -/
inductive RestartReply
  | ok
  | error (text : String) (effect : RestartEffect)
  deriving DecidableEq, Repr

def RestartReply.effect : RestartReply → RestartEffect
  | .ok => .started
  | .error _ effect => effect

/-- What the node answers to the calls of one restart. -/
structure RestartEnv where
  flags : Option ProtocolFlags
  statusKnown : Bool
  reply : OpenvpnUnit → RestartReply

structure RestartResult where
  restarted : List OpenvpnUnit := []
  skipped : List OpenvpnUnit := []
  failed : List (OpenvpnUnit × String) := []
  deriving DecidableEq, Repr

def RestartResult.success (result : RestartResult) : Bool := result.failed.isEmpty

def RestartEffect.apply (effect : RestartEffect) (u : OpenvpnUnit) (r : Replica) : Replica :=
  match effect with
  | .untouched => r
  | .stopped => { r with loaded := Function.update r.loaded u none }
  | .started => { r with loaded := Function.update r.loaded u (some r.disk) }

/-- The loop body of `restart_all_openvpn_servers`. -/
def restartUnit (activeUnits : Option (OpenvpnUnit → Bool))
    (acc : Replica × RestartResult) (u : OpenvpnUnit) : Replica × RestartResult :=
  let (r, result) := acc
  if !allowedBySetup env.flags u then (r, { result with skipped := result.skipped ++ [u] })
  else if activeUnits.any fun active => !active u then
    (r, { result with skipped := result.skipped ++ [u] })
  else
    let r := (env.reply u).effect.apply u r
    match env.reply u with
    | .ok => (r, { result with restarted := result.restarted ++ [u] })
    | .error text _ =>
      if shouldSkipUnit text then (r, { result with skipped := result.skipped ++ [u] })
      else (r, { result with failed := result.failed ++ [(u, text)] })

def openvpnActiveUnits : Option (OpenvpnUnit → Bool) :=
  if env.statusKnown then some fun u => (r.loaded u).isSome else none

def restartAllOpenvpnServers : Replica × RestartResult :=
  openvpnServerUnits.foldl (restartUnit env (openvpnActiveUnits env r)) (r, {})

/-! ## What a restart does to one unit -/

def RestartEnv.seenInactive (u : OpenvpnUnit) : Bool :=
  env.statusKnown && !(r.loaded u).isSome

/-- The loop reaches the call for the unit. -/
def RestartEnv.tries (u : OpenvpnUnit) : Bool :=
  allowedBySetup env.flags u && !env.seenInactive r u

/-- The unit ends up in the failed list. -/
def RestartEnv.fails (u : OpenvpnUnit) : Bool :=
  env.tries r u && match env.reply u with
    | .ok => false
    | .error text _ => !shouldSkipUnit text

theorem apply_loaded (effect : RestartEffect) (u v : OpenvpnUnit) (r : Replica) :
    (effect.apply u r).loaded v =
      if v = u then
        match effect with
        | .untouched => r.loaded v
        | .stopped => none
        | .started => some r.disk
      else r.loaded v := by
  cases effect <;> simp [RestartEffect.apply, Function.update_apply]

@[simp] theorem apply_disk (effect : RestartEffect) (u : OpenvpnUnit) (r : Replica) :
    (effect.apply u r).disk = r.disk := by
  cases effect <;> rfl

@[simp] theorem apply_pending (effect : RestartEffect) (u : OpenvpnUnit) (r : Replica) :
    (effect.apply u r).pending = r.pending := by
  cases effect <;> rfl

/-- **One round of the loop.** -/
theorem restartUnit_eq (r₀ : Replica) (acc : Replica × RestartResult) (u : OpenvpnUnit) :
    (restartUnit env (openvpnActiveUnits env r₀) acc u).1 =
        (if env.tries r₀ u then (env.reply u).effect.apply u acc.1 else acc.1) ∧
      ((restartUnit env (openvpnActiveUnits env r₀) acc u).2.failed = [] ↔
        acc.2.failed = [] ∧ env.fails r₀ u = false) := by
  obtain ⟨r, result⟩ := acc
  have hActive : (openvpnActiveUnits env r₀).any (fun active => !active u) =
      env.seenInactive r₀ u := by
    unfold openvpnActiveUnits RestartEnv.seenInactive
    cases env.statusKnown <;> rfl
  cases hAllowed : allowedBySetup env.flags u with
  | false => simp [restartUnit, RestartEnv.fails, RestartEnv.tries, hAllowed]
  | true =>
    cases hSeen : env.seenInactive r₀ u with
    | true => simp [restartUnit, RestartEnv.fails, RestartEnv.tries, hAllowed, hActive, hSeen]
    | false =>
      cases hReply : env.reply u with
      | ok =>
        simp [restartUnit, RestartEnv.fails, RestartEnv.tries, hAllowed, hActive, hSeen, hReply]
      | error text effect =>
        cases hText : shouldSkipUnit text <;>
          simp [restartUnit, RestartEnv.fails, RestartEnv.tries, hAllowed, hActive, hSeen, hReply,
            hText]

/-! ## The whole loop -/

theorem restartUnits_failed (r₀ : Replica) (units : List OpenvpnUnit)
    (acc : Replica × RestartResult) :
    (units.foldl (restartUnit env (openvpnActiveUnits env r₀)) acc).2.failed = [] ↔
      acc.2.failed = [] ∧ ∀ u ∈ units, env.fails r₀ u = false := by
  induction units generalizing acc with
  | nil => simp
  | cons u units ih =>
    rw [List.foldl_cons, ih, (restartUnit_eq env r₀ acc u).2, List.forall_mem_cons, and_assoc]

/-- The loop leaves disk and flag alone. -/
theorem restartUnits_frame (r₀ : Replica) (units : List OpenvpnUnit)
    (acc : Replica × RestartResult) :
    (units.foldl (restartUnit env (openvpnActiveUnits env r₀)) acc).1.disk = acc.1.disk ∧
      (units.foldl (restartUnit env (openvpnActiveUnits env r₀)) acc).1.pending =
        acc.1.pending := by
  induction units generalizing acc with
  | nil => exact ⟨rfl, rfl⟩
  | cons u units ih =>
    rw [List.foldl_cons, (ih _).1, (ih _).2, (restartUnit_eq env r₀ acc u).1]
    constructor <;> split <;> simp

/-- What one unit runs after the loop: each is restarted in its own round only. -/
theorem restartUnits_loaded (r₀ : Replica) {units : List OpenvpnUnit}
    (hNodup : units.Nodup) (acc : Replica × RestartResult) (v : OpenvpnUnit) :
    (units.foldl (restartUnit env (openvpnActiveUnits env r₀)) acc).1.loaded v =
      if v ∈ units ∧ env.tries r₀ v = true then
        ((env.reply v).effect.apply v acc.1).loaded v
      else acc.1.loaded v := by
  induction units generalizing acc with
  | nil => simp
  | cons u units ih =>
    obtain ⟨hNot, hRest⟩ := List.nodup_cons.mp hNodup
    rw [List.foldl_cons, ih hRest]
    by_cases hv : v = u
    · subst hv
      rw [if_neg fun h => hNot h.1, (restartUnit_eq env r₀ acc v).1]
      cases env.tries r₀ v <;> simp
    have hOther : (restartUnit env (openvpnActiveUnits env r₀) acc u).1.loaded v =
        acc.1.loaded v := by
      rw [(restartUnit_eq env r₀ acc u).1]
      split
      · rw [apply_loaded, if_neg hv]
      · rfl
    have hDisk := (restartUnits_frame env r₀ [u] acc).1
    rw [List.foldl_cons, List.foldl_nil] at hDisk
    simp only [apply_loaded, hOther, hDisk, List.mem_cons, hv, false_or]

theorem restartAllOpenvpnServers_success :
    (restartAllOpenvpnServers env r).2.success = true ↔ ∀ u, env.fails r u = false := by
  unfold RestartResult.success restartAllOpenvpnServers
  rw [List.isEmpty_iff, restartUnits_failed]
  constructor
  · exact fun h u => h.2 u (mem_openvpnServerUnits u)
  · exact fun h => ⟨rfl, fun u _ => h u⟩

@[simp] theorem restartAllOpenvpnServers_disk : (restartAllOpenvpnServers env r).1.disk = r.disk :=
  (restartUnits_frame env r openvpnServerUnits (r, {})).1

@[simp] theorem restartAllOpenvpnServers_pending :
    (restartAllOpenvpnServers env r).1.pending = r.pending :=
  (restartUnits_frame env r openvpnServerUnits (r, {})).2

theorem restartAllOpenvpnServers_loaded (u : OpenvpnUnit) :
    (restartAllOpenvpnServers env r).1.loaded u =
      if env.tries r u then ((env.reply u).effect.apply u r).loaded u else r.loaded u := by
  unfold restartAllOpenvpnServers
  rw [restartUnits_loaded env r (by decide) (r, {}) u]
  simp only [mem_openvpnServerUnits, true_and]

/-! ## The restart step of an operation -/

/-- How an operation restarts the servers: itself, or through
`maybe_ensure_openvpn_multihome`, which may raise or answer without a restart. -/
inductive RestartCall
  | servers (env : RestartEnv)
  | multihome (restart : Option RestartEnv)
  | multihomeRaises (effect : OpenvpnUnit → RestartEffect)

/-- The node after the call and its result; `none` when the call raises. -/
def RestartCall.run (call : RestartCall) (r : Replica) : Replica × Option RestartResult :=
  match call with
  | .servers env => ((restartAllOpenvpnServers env r).1, some (restartAllOpenvpnServers env r).2)
  | .multihome (some env) =>
    ((restartAllOpenvpnServers env r).1, some (restartAllOpenvpnServers env r).2)
  | .multihome none => (r, some {})
  | .multihomeRaises effect =>
    ({ r with loaded := fun u => ((effect u).apply u r).loaded u }, none)

/-- An active unit on an old identity keeps it through the call. -/
def RestartCall.leaves (call : RestartCall) (u : OpenvpnUnit) : Bool :=
  match call with
  | .servers env => !allowedBySetup env.flags u || (env.reply u).effect == .untouched
  | .multihome (some env) => !allowedBySetup env.flags u || (env.reply u).effect == .untouched
  | .multihome none => true
  | .multihomeRaises effect => effect u == .untouched

/-- The call raises or lists a failed unit. -/
def RestartCall.reportsFailure (call : RestartCall) (r : Replica) : Bool :=
  match call with
  | .servers env => openvpnServerUnits.any (env.fails r)
  | .multihome (some env) => openvpnServerUnits.any (env.fails r)
  | .multihome none => false
  | .multihomeRaises _ => true

@[simp] theorem run_disk (call : RestartCall) (r : Replica) : (call.run r).1.disk = r.disk := by
  rcases call with env | (_ | env) | effect <;> simp [RestartCall.run]

@[simp] theorem run_pending (call : RestartCall) (r : Replica) :
    (call.run r).1.pending = r.pending := by
  rcases call with env | (_ | env) | effect <;> simp [RestartCall.run]

/-- A unit stays stale unless it was restarted. -/
theorem stale_restart_iff (u : OpenvpnUnit) :
    (restartAllOpenvpnServers env r).1.Stale u ↔
      r.Stale u ∧ (!allowedBySetup env.flags u || (env.reply u).effect == .untouched) = true := by
  unfold Replica.Stale
  rw [restartAllOpenvpnServers_loaded, restartAllOpenvpnServers_disk]
  cases hTries : env.tries r u with
  | false =>
    rw [if_neg (by simp)]
    -- an active unit is passed over only by the setup flags
    have hAllowed : (r.loaded u).isSome = true → allowedBySetup env.flags u = false := by
      intro hActive
      simpa [RestartEnv.tries, RestartEnv.seenInactive, hActive] using hTries
    constructor
    · rintro ⟨identity, hLoaded, hNe⟩
      exact ⟨⟨identity, hLoaded, hNe⟩, by simp [hAllowed (by simp [hLoaded])]⟩
    · exact And.left
  | true =>
    have hAllowed : allowedBySetup env.flags u = true := by
      simp only [RestartEnv.tries, Bool.and_eq_true] at hTries
      exact hTries.1
    rw [if_pos rfl, apply_loaded, if_pos rfl, hAllowed]
    cases (env.reply u).effect <;> simp

/-- **What a restart leaves stale.** -/
theorem stale_run_iff (call : RestartCall) (r : Replica) (u : OpenvpnUnit) :
    (call.run r).1.Stale u ↔ r.Stale u ∧ call.leaves u = true := by
  rcases call with env | (_ | env) | effect
  · exact stale_restart_iff env r u
  · simp [RestartCall.run, RestartCall.leaves]
  · exact stale_restart_iff env r u
  · simp only [RestartCall.run, RestartCall.leaves, Replica.Stale, apply_loaded, if_true]
    cases effect u <;> simp

theorem any_fails_eq_false :
    openvpnServerUnits.any (env.fails r) = false ↔ ∀ u, env.fails r u = false := by
  rw [List.any_eq_false]
  constructor
  · exact fun h u => by simpa using h u (mem_openvpnServerUnits u)
  · exact fun h u _ => by simp [h u]

end

/-- **What a restart reports.** -/
theorem run_success_iff (call : RestartCall) (r : Replica) :
    (call.run r).2.any RestartResult.success = true ↔ call.reportsFailure r = false := by
  rcases call with env | (_ | env) | effect
  · exact (restartAllOpenvpnServers_success env r).trans (any_fails_eq_false env r).symm
  · simp [RestartCall.run, RestartCall.reportsFailure, RestartResult.success]
  · exact (restartAllOpenvpnServers_success env r).trans (any_fails_eq_false env r).symm
  · simp [RestartCall.run, RestartCall.reportsFailure]

end AdminPanel.NodeSync
