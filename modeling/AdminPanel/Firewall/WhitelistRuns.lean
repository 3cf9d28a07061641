import AdminPanel.Firewall.PanelPort

/-!
# Runs of the whitelist firewall

Calls of `sync` and `disable` one after the other, each with its own pattern of failing commands,
from any rules that earlier versions or runs have left.

* `Unharmed`, `NeverLockedOut`, `GoesAway`, `OneJump` — what is asked of a call;
* `unharmed_iff`, `neverLockedOut_iff`, `goesAway_iff`, `oneJump_iff` — the calls that do it, by
  the state that they find;
* `whitelist_holds_iff` — the runs all of whose calls do it.
-/

namespace AdminPanel.Firewall

open Lib (exec Along along_congr)
open Lib.Ipv4 (Network)

/-! ## Calls -/

inductive Call
  | sync (allowedIps : List (List Char)) (port : Nat)
  | disable

/-- The rules, and the whitelist of the last sync that returned True, unless a command has
failed since that sync began. -/
structure FirewallState where
  world : World
  trusted : Option (List Network) := none

/-- A call, and which of its commands fail. -/
abbrev Turn := Call × Failures

def Call.entries : Call → List Network
  | .sync allowedIps _ => ipv4Entries allowedIps
  | .disable => []

/-- The port of a sync. -/
def Call.port : Call → Nat
  | .sync _ port => port
  | .disable => 0

section

variable (s : FirewallState) (a : Turn)

/-- The call: what it returns, and the rules and moments it leaves. -/
def perform : Turn → Bool × Host
  | (.sync allowedIps port, f) => sync f allowedIps port { world := s.world }
  | (.disable, f) => disable f { world := s.world }

def turnStep : Option FirewallState :=
  some
    { world := (perform s a).2.world
      trusted :=
        if (perform s a).2.failed then none
        else match a.1 with
          | .sync allowedIps _ => if (perform s a).1 then some (ipv4Entries allowedIps) else s.trusted
          | .disable => s.trusted }

/-! ## What is asked of a call -/

/-- An address of the last whitelist, and of the one of a sync in progress. -/
def Protected (c : Call) (src : Nat) : Prop :=
  (∃ nets, s.trusted = some nets ∧ ∃ n ∈ nets, src ∈ n) ∧
  match c with
  | .sync allowedIps _ => ∃ n ∈ ipv4Entries allowedIps, src ∈ n
  | .disable => True

/-- Until a command fails, the chain drops no packet from a protected address. -/
def Unharmed : Prop :=
  ∀ m ∈ (perform s a).2.moments, m.failed = false →
    ∀ port src, Protected s a.1 src → m.world.drops port src = false

/-- No command leaves a jump to a chain that ends in DROP while the set is empty. -/
def NeverLockedOut : Prop :=
  ∀ m ∈ (perform s a).2.moments, ¬ m.world.LockedOut

/-- After a disable that returns True no jump is left. -/
def GoesAway : Prop :=
  match a.1 with
  | .sync _ _ => True
  | .disable => (perform s a).1 = true → (perform s a).2.world.jumps = []

/-- After a sync that returns True there is one jump, for its port. -/
def OneJump : Prop :=
  match a.1 with
  | .sync _ port => (perform s a).1 = true → (perform s a).2.world.jumps = [.jump port]
  | .disable => True

/-- The whitelist firewall does what it is for. -/
def Holds : Prop :=
  Unharmed s a ∧ NeverLockedOut s a ∧ GoesAway s a ∧ OneJump s a

/-! ## Which calls do it -/

/-- The command of the call before its flush fails: it ends the call. -/
def stopsEarly : Bool :=
  if a.1.entries = [] then a.2.listInput .iptables else a.2.createSet

/-- The call flushes the set of no address that it should protect. -/
def FlushSpares : Prop :=
  stopsEarly a = true ∨ a.2.flushSet = true ∨ ∀ src, ¬ Protected s a.1 src

/-- Every add fails, on a set that is empty. -/
def StaysEmpty : Prop :=
  (a.2.flushSet = true → s.world.allow = []) ∧ ∀ i < a.1.entries.length, a.2.addEntry i = true

/-- No flush under a live jump, and no jump to a chain over an empty set. -/
def FlushesUnused : Prop :=
  ¬ s.world.LockedOut ∧
  (stopsEarly a = true ∨
    (a.2.flushSet = true ∨ ¬ s.world.Live) ∧
    (a.1.entries ≠ [] → ¬ StaysEmpty s a ∨ chainFails a.2 s.world = true ∨
      s.world.jumps = [] ∧ a.2.insertJump = true))

/-- A disable finds no jump. -/
def NothingToRemove : Prop :=
  match a.1 with
  | .sync _ _ => True
  | .disable => stopsEarly a = true ∨ s.world.jumps = []

/-- A sync finds no jump, or its own alone. -/
def NoOtherJump : Prop :=
  match a.1 with
  | .sync _ port =>
    stopsEarly a = true ∨
    if a.1.entries = [] then s.world.jumps = [.jump port]
    else chainFails a.2 s.world = true ∨
      if a.2.checkJump = false ∧ .jump port ∈ s.world.input then s.world.jumps = [.jump port]
      else a.2.insertJump = true ∨ s.world.jumps = []
  | .disable => True

/-- The call finds the rules so that it does what it is for. -/
def Fits : Prop :=
  FlushSpares s a ∧ FlushesUnused s a ∧ NothingToRemove s a ∧ NoOtherJump s a

/-! ## A call in parts -/

/-- The command before the flush, which ends the call if it fails. -/
def opening : Command :=
  if a.1.entries = [] then .listInput .iptables else .createSet

/-- The rules behind the flush. -/
def flushedWorld (f : Failures) (w : World) : World :=
  if f.flushSet then w else { w with allow := [] }

/-- The call behind its flush. -/
def flushed (w : World) : Host :=
  ((Host.run { world := w } false (opening a)).2.run a.2.flushSet .flushSet).2

/-- A sync with addresses, from its flush on. -/
def install (f : Failures) (entries : List Network) (port : Nat) (h : Host) : Bool × Host :=
  let (ok, h) := ensureChain f (addEntries f 0 entries h)
  if !ok then (false, h) else
  let (ok, h) := ensureJump f port h
  if !ok then (false, h) else
  (true, cleanupLegacyIpv6 f h)

/-- A call from its flush on. -/
def finish (h : Host) : Bool × Host :=
  if a.1.entries = [] then (true, cleanupLegacyIpv6 a.2 h)
  else install a.2 a.1.entries a.1.port h

theorem disable_eq (f : Failures) (w : World) :
    disable f { world := w } =
      if f.listInput .iptables then
        (false, (Host.run { world := w } true (.listInput .iptables)).2)
      else
        (true, cleanupLegacyIpv6 f
          ((Host.run { world := w } false (.listInput .iptables)).2.run f.flushSet .flushSet).2) := by
  unfold disable
  rw [removeJumpRules_eq]
  cases f.listInput .iptables with
  | true => simp only [Bool.not_true, Bool.not_false, if_true]
  | false => simp only [Bool.not_false, Bool.not_true, Bool.false_eq_true, if_false]

theorem sync_eq {f : Failures} {allowedIps : List (List Char)} {port : Nat}
    (hEntries : ipv4Entries allowedIps ≠ []) (w : World) :
    sync f allowedIps port { world := w } =
      if f.createSet then (false, (Host.run { world := w } true .createSet).2)
      else install f (ipv4Entries allowedIps) port
        ((Host.run { world := w } false .createSet).2.run f.flushSet .flushSet).2 := by
  unfold sync ensureIpset
  rw [if_neg hEntries]
  unfold install populateIpset
  cases f.createSet with
  | true =>
    have hOk : (Host.run { world := w } true .createSet).1 = (false, []) := rfl
    generalize Host.run { world := w } true .createSet = result at hOk ⊢
    obtain ⟨⟨ok, out⟩, h⟩ := result
    cases hOk
    simp only [Bool.not_false, if_true]
  | false =>
    have hOk : (Host.run { world := w } false .createSet).1 = (true, []) := rfl
    generalize Host.run { world := w } false .createSet = result at hOk ⊢
    obtain ⟨⟨ok, out⟩, h⟩ := result
    cases hOk
    simp only [Bool.not_true, Bool.false_eq_true, if_false]

/-- Both calls have one shape. -/
theorem perform_eq :
    perform s a =
      if stopsEarly a then (false, (Host.run { world := s.world } true (opening a)).2)
      else finish a (flushed a s.world) := by
  obtain ⟨c, f⟩ := a
  unfold finish flushed stopsEarly opening
  cases c with
  | disable => exact disable_eq f s.world
  | sync allowedIps port =>
    by_cases hEntries : ipv4Entries allowedIps = []
    · simp only [Call.entries, hEntries, if_true]
      refine Eq.trans ?_ (disable_eq f s.world)
      show sync f allowedIps port _ = _
      unfold sync
      rw [if_pos hEntries]
    · simp only [Call.entries, hEntries, if_false]
      exact sync_eq hEntries s.world

end

section

variable {a : Turn} {w : World} {f : Failures} {entries : List Network} {port : Nat} {h : Host}

theorem execute_opening (a : Turn) (w : World) : ∃ out, w.execute (opening a) = some (w, out) := by
  unfold opening
  split
  · exact ⟨_, rfl⟩
  · exact ⟨_, rfl⟩

theorem run_opening (a : Turn) (w : World) (fails : Bool) :
    (Host.run { world := w } fails (opening a)).2 =
      { world := w, failed := fails, moments := [⟨fails, w⟩] } := by
  obtain ⟨out, hExec⟩ := execute_opening a w
  unfold Host.run
  cases fails with
  | true => rfl
  | false =>
    rw [hExec]
    rfl

theorem flushed_eq (a : Turn) (w : World) :
    flushed a w =
      { world := flushedWorld a.2 w
        failed := a.2.flushSet
        moments := [⟨false, w⟩, ⟨a.2.flushSet, flushedWorld a.2 w⟩] } := by
  unfold flushed flushedWorld
  rw [run_opening]
  cases a.2.flushSet <;> rfl

theorem grows_install_chain (f : Failures) (entries : List Network) (port : Nat) (h : Host) :
    Grows (ensureChain f (addEntries f 0 entries h)).2 (install f entries port h).2 := by
  unfold install
  dsimp only
  split
  · exact .refl _
  · split
    · exact grows_ensureJump _ _
    · exact (grows_ensureJump _ _).trans (grows_cleanupLegacyIpv6 _)

theorem grows_finish (a : Turn) (h : Host) : Grows h (finish a h).2 := by
  unfold finish
  split
  · exact grows_cleanupLegacyIpv6 _
  · exact ((grows_addEntries _ _ _).trans (grows_ensureChain _)).trans
      (grows_install_chain _ _ _ _)

end

/-! ## The chain and the jump of a sync -/

variable {w : World}

theorem World.jumps_congr {w' : World} (h : w.input = w'.input) : w.jumps = w'.jumps := by
  rw [World.jumps, h, World.jumps]

/-- The chain is rebuilt over the set that the adds have left. -/
def chained (f : Failures) (entries : List Network) (h : Host) : Bool × Host :=
  ensureChain f (addEntries f 0 entries h)

section

variable {f : Failures} {entries : List Network} {port : Nat} {h : Host}

theorem chained_spec (f : Failures) (entries : List Network) (h : Host) :
    (chained f entries h).1 = !chainFails f h.world ∧
    (chained f entries h).2.world.input = h.world.input ∧
    (chained f entries h).2.world.allow = added f 0 entries h.world.allow ∧
    (chainFails f h.world = false →
      (chained f entries h).2.world.chain = some [.returnAllowed, .drop]) := by
  have hSpec := ensureChain_spec (f := f) (addEntries f 0 entries h)
  rw [addEntries_world] at hSpec
  exact hSpec

theorem install_of_chainFails (hFails : chainFails f h.world = true) :
    install f entries port h = (false, (chained f entries h).2) := by
  have hOk := (chained_spec f entries h).1
  rw [hFails] at hOk
  show (if !(chained f entries h).1 then _ else _) = _
  rw [hOk]
  rfl

theorem install_eq_of_chain (hChain : chainFails f h.world = false) :
    install f entries port h =
      if !(ensureJump f port (chained f entries h).2).1
      then (false, (ensureJump f port (chained f entries h).2).2)
      else (true, cleanupLegacyIpv6 f (ensureJump f port (chained f entries h).2).2) := by
  have hOk := (chained_spec f entries h).1
  rw [hChain] at hOk
  show (if !(chained f entries h).1 then _ else _) = _
  rw [hOk]
  rfl

/-- A sync whose chain is made ends as its jump does. -/
theorem install_of_chain (entries : List Network) (port : Nat)
    (hChain : chainFails f h.world = false) :
    (install f entries port h).1 = (ensureJump f port (chained f entries h).2).1 ∧
    (install f entries port h).2.world = (ensureJump f port (chained f entries h).2).2.world ∧
    Grows (ensureJump f port (chained f entries h).2).2 (install f entries port h).2 := by
  rw [install_eq_of_chain hChain]
  cases hJump : (ensureJump f port (chained f entries h).2).1 with
  | true => exact ⟨rfl, cleanupLegacyIpv6_world, grows_cleanupLegacyIpv6 _⟩
  | false => exact ⟨rfl, rfl, .refl _⟩

/-- What INPUT is after the jump, over a chain that is made. -/
theorem jump_of_chain (entries : List Network) (port : Nat)
    (hChain : chainFails f h.world = false) :
    ((ensureJump f port (chained f entries h).2).1 = true ∧
        (ensureJump f port (chained f entries h).2).2.world.input = h.world.input ∧
        f.checkJump = false ∧ .jump port ∈ h.world.input) ∨
      (¬ (f.checkJump = false ∧ .jump port ∈ h.world.input) ∧
        (ensureJump f port (chained f entries h).2).1 = !f.insertJump ∧
        (ensureJump f port (chained f entries h).2).2.world.input =
          if f.insertJump then h.world.input else .jump port :: h.world.input) := by
  obtain ⟨-, hInput, -, hMade⟩ := chained_spec f entries h
  have hSome : (chained f entries h).2.world.chain.isSome := by rw [hMade hChain]; rfl
  obtain ⟨-, -, hJump⟩ := ensureJump_spec (f := f) port (chained f entries h).2 hSome
  rw [hInput] at hJump
  rcases hJump with hFound | ⟨hNot, hRest⟩
  · exact .inl hFound
  · refine .inr ⟨?_, hRest⟩
    rintro ⟨hCheck, hMem⟩
    rcases hNot with hFails | hNotMem
    · exact Bool.false_ne_true (hCheck.symm.trans hFails)
    · exact hNotMem hMem

/-- A sync that comes to its flush leaves one jump in these cases only. -/
theorem install_jumps_iff :
    ((install f entries port h).1 = true →
        (install f entries port h).2.world.jumps = [.jump port]) ↔
      (chainFails f h.world = true ∨
        if f.checkJump = false ∧ .jump port ∈ h.world.input then h.world.jumps = [.jump port]
        else f.insertJump = true ∨ h.world.jumps = []) := by
  cases hChain : chainFails f h.world with
  | true => simp [install_of_chainFails hChain]
  | false =>
    obtain ⟨hOk, hWorld, -⟩ := install_of_chain entries port hChain
    rw [hOk, hWorld]
    rcases jump_of_chain entries port hChain with
      ⟨hTrue, hInput, hFound⟩ | ⟨hNot, hTrue, hInput⟩
    · rw [hTrue, if_pos hFound, World.jumps_congr hInput]
      simp
    rw [hTrue, if_neg hNot]
    cases hInsert : f.insertJump with
    | true => simp
    | false =>
      rw [hInsert] at hInput
      have hJumps : (ensureJump f port (chained f entries h).2).2.world.jumps =
          .jump port :: h.world.jumps := by
        rw [World.jumps, hInput]
        rfl
      rw [hJumps]
      simp

end

/-! ## Jumps -/

section

variable {s : FirewallState} {a : Turn}

theorem flushedWorld_input (f : Failures) (w : World) : (flushedWorld f w).input = w.input := by
  unfold flushedWorld
  split <;> rfl

theorem flushedWorld_chain (f : Failures) (w : World) : (flushedWorld f w).chain = w.chain := by
  unfold flushedWorld
  split <;> rfl

theorem chainFails_flushed (f : Failures) (w : World) :
    chainFails f (flushedWorld f w) = chainFails f w := by
  rw [chainFails, chainFails, flushedWorld_chain]

/-- A call that takes the firewall down leaves every jump. -/
theorem perform_teardown (hEntries : a.1.entries = []) :
    (perform s a).1 = !stopsEarly a ∧ (perform s a).2.world.jumps = s.world.jumps := by
  rw [perform_eq]
  cases stopsEarly a with
  | true =>
    refine ⟨rfl, ?_⟩
    rw [if_pos rfl, run_opening]
  | false =>
    unfold finish
    simp only [Bool.false_eq_true, if_false, hEntries, if_true]
    refine ⟨rfl, World.jumps_congr ?_⟩
    rw [cleanupLegacyIpv6_world, flushed_eq, flushedWorld_input]

theorem goesAway_iff (s : FirewallState) (a : Turn) : GoesAway s a ↔ NothingToRemove s a := by
  obtain ⟨c, f⟩ := a
  cases c with
  | sync allowedIps port => exact Iff.rfl
  | disable =>
    obtain ⟨hOk, hJumps⟩ := perform_teardown (s := s) (a := (.disable, f)) rfl
    unfold GoesAway NothingToRemove
    dsimp only
    rw [hOk, hJumps]
    cases stopsEarly (.disable, f) <;> simp

theorem oneJump_iff (s : FirewallState) (a : Turn) : OneJump s a ↔ NoOtherJump s a := by
  obtain ⟨c, f⟩ := a
  cases c with
  | disable => exact Iff.rfl
  | sync allowedIps port =>
    unfold OneJump NoOtherJump
    dsimp only
    split
    · next hEntries =>
      obtain ⟨hOk, hJumps⟩ := perform_teardown (s := s) (a := (.sync allowedIps port, f)) hEntries
      rw [hOk, hJumps]
      cases stopsEarly (.sync allowedIps port, f) <;> simp
    · next hEntries =>
      rw [perform_eq]
      cases stopsEarly (.sync allowedIps port, f) with
      | true => simp
      | false =>
        unfold finish
        simp only [Bool.false_eq_true, if_false, false_or, hEntries]
        refine install_jumps_iff.trans ?_
        rw [flushed_eq, chainFails_flushed, World.jumps_congr (flushedWorld_input f s.world),
          flushedWorld_input]
        rfl

end

/-! ## Lockouts -/

theorem lockedOut_flushedWorld {f : Failures} (hSafe : ¬ w.LockedOut) :
    ¬ (flushedWorld f w).LockedOut ↔ f.flushSet = true ∨ ¬ w.Live := by
  unfold flushedWorld
  cases f.flushSet with
  | true => exact iff_of_true hSafe (.inl rfl)
  | false =>
    refine Iff.trans ?_ (or_iff_right Bool.false_ne_true).symm
    exact not_congr (and_iff_left rfl)

variable {s : FirewallState}

theorem staysEmpty_iff {a : Turn} :
    StaysEmpty s a ↔ added a.2 0 a.1.entries (flushedWorld a.2 s.world).allow = [] := by
  rw [added_eq_nil, StaysEmpty, flushedWorld]
  simp only [Nat.zero_add]
  refine and_congr_left fun _ => ?_
  cases a.2.flushSet <;> simp

section

variable {f : Failures} {entries : List Network} {port : Nat} {h : Host}

/-- Over an empty set, a sync that makes its chain and its jump locks everybody out. -/
theorem install_locks (port : Nat) (hChain : chainFails f h.world = false)
    (hEmpty : added f 0 entries h.world.allow = [])
    (hJump : h.world.jumps ≠ [] ∨ f.insertJump = false) :
    ∃ m ∈ (install f entries port h).2.moments, m.world.LockedOut := by
  obtain ⟨-, hInput, hAllow, hMade⟩ := chained_spec f entries h
  have hRules := hMade hChain
  have hNil : (chained f entries h).2.world.allow = [] := hAllow.trans hEmpty
  by_cases hSome : h.world.jumps = []
  · -- the jump itself
    have hInsert : f.insertJump = false := hJump.resolve_left (not_not.mpr hSome)
    obtain ⟨hKeepAllow, hKeepChain, -⟩ := ensureJump_spec (f := f) port (chained f entries h).2
      (by rw [hRules]; rfl)
    obtain ⟨-, -, hGrows⟩ := install_of_chain entries port hChain
    refine ⟨_, hGrows.mem seen_ensureJump, ⟨?_, [.returnAllowed], hKeepChain.trans hRules⟩,
      hKeepAllow.trans hNil⟩
    rcases jump_of_chain entries port hChain with
      ⟨-, -, -, hMem⟩ | ⟨-, -, hNew⟩
    · rw [World.jumps, List.filter_eq_nil_iff] at hSome
      exact absurd rfl (hSome _ hMem)
    · rw [World.jumps, hNew, hInsert]
      exact List.cons_ne_nil _ _
  · -- the rule behind the jump that is there
    refine ⟨_, (grows_install_chain f entries port h).mem seen_ensureChain,
      ⟨?_, [.returnAllowed], hRules⟩, hNil⟩
    show (chained f entries h).2.world.jumps ≠ []
    rw [World.jumps_congr hInput]
    exact hSome

/-- An installation is safe over a set with entries, or before the first jump. -/
theorem safe_install (hSafe : h.Safe)
    (hFilled : added f 0 entries h.world.allow ≠ [] ∨ chainFails f h.world = true ∨
      h.world.jumps = [] ∧ f.insertJump = true) :
    (install f entries port h).2.Safe := by
  obtain ⟨-, -, hAllow, -⟩ := chained_spec f entries h
  have hChained : (chained f entries h).2.Safe := by
    refine (hSafe.addEntries 0 entries).ensureChain ?_
    rw [addEntries_world]
    exact hFilled.imp_right (Or.imp_right And.left)
  cases hChain : chainFails f h.world with
  | true =>
    rw [install_of_chainFails hChain]
    exact hChained
  | false =>
    have hJump : (ensureJump f port (chained f entries h).2).2.Safe := by
      refine hChained.ensureJump ?_
      rw [hAllow]
      rcases hFilled with hSome | hFails | ⟨-, hInsert⟩
      · exact .inl hSome
      · exact absurd (hChain.symm.trans hFails) Bool.false_ne_true
      · exact .inr hInsert
    rw [install_eq_of_chain hChain]
    split
    · exact hJump
    · exact hJump.cleanupLegacyIpv6

end

/-- **One turn**: no set is flushed while a chain is live over it. -/
theorem neverLockedOut_iff (s : FirewallState) (a : Turn) :
    NeverLockedOut s a ↔ FlushesUnused s a := by
  unfold NeverLockedOut FlushesUnused
  rw [perform_eq]
  cases stopsEarly a with
  | true =>
    rw [if_pos rfl, run_opening]
    simp
  | false =>
    rw [if_neg Bool.false_ne_true]
    simp only [Bool.false_eq_true, false_or]
    have hAllow : (flushed a s.world).world.allow = (flushedWorld a.2 s.world).allow := by
      rw [flushed_eq]
    have hChainEq : chainFails a.2 (flushed a s.world).world = chainFails a.2 s.world := by
      rw [flushed_eq, chainFails_flushed]
    have hJumps : (flushed a s.world).world.jumps = s.world.jumps := by
      rw [flushed_eq]
      exact World.jumps_congr (flushedWorld_input _ _)
    rw [staysEmpty_iff, ← hAllow, ← hChainEq, ← hJumps]
    constructor
    · intro hSafe
      have hBefore : ∀ m ∈ (flushed a s.world).moments, ¬ m.world.LockedOut :=
        fun m hm => hSafe m ((grows_finish a _).mem hm)
      rw [flushed_eq] at hBefore
      have hStart : ¬ s.world.LockedOut := hBefore ⟨false, s.world⟩ List.mem_cons_self
      have hFlush := hBefore ⟨a.2.flushSet, flushedWorld a.2 s.world⟩ (by simp)
      refine ⟨hStart, (lockedOut_flushedWorld hStart).mp hFlush, fun hEntries => ?_⟩
      by_contra hNot
      rw [not_or, not_or, not_not, not_and_or, Bool.not_eq_true, Bool.not_eq_true] at hNot
      obtain ⟨m, hm, hLocked⟩ :=
        install_locks a.1.port hNot.2.1 hNot.1 hNot.2.2
      refine hSafe m ?_ hLocked
      unfold finish
      rw [if_neg hEntries]
      exact hm
    · rintro ⟨hStart, hFlush, hInstall⟩
      have hFlushed : (flushed a s.world).Safe := by
        have hSafe := (lockedOut_flushedWorld hStart).mpr hFlush
        rw [flushed_eq]
        refine ⟨hSafe, fun m hm => ?_⟩
        rcases List.mem_pair.mp hm with rfl | rfl
        · exact hStart
        · exact hSafe
      unfold finish
      split
      · exact hFlushed.cleanupLegacyIpv6.2
      · next hEntries => exact (safe_install hFlushed (hInstall hEntries)).2

/-! ## Whitelisted addresses -/

/-- The addresses of the last whitelist get through, and its jump leads to its chain. -/
def Tracked (s : FirewallState) : Prop :=
  ∀ nets, s.trusted = some nets →
    (∀ src, (∃ n ∈ nets, src ∈ n) → ∀ port, s.world.drops port src = false) ∧
    (nets ≠ [] → (∃ port, .jump port ∈ s.world.input) ∧
      s.world.chain = some [.returnAllowed, .drop])

theorem Protected.drops_flushed {c : Call} {src : Nat}
    (hProtected : Protected s c src) (hTracked : Tracked s) :
    ∃ port, World.drops { s.world with allow := [] } port src = true := by
  obtain ⟨⟨nets, hNets, n, hn, -⟩, -⟩ := hProtected
  obtain ⟨⟨port, hJump⟩, hChain⟩ := (hTracked nets hNets).2 (List.ne_nil_of_mem hn)
  refine ⟨port, ?_⟩
  unfold World.drops
  rw [hChain, decide_eq_true hJump]
  simp [World.dropsFrom]

/-- A call does no harm exactly when it flushes nothing under a protected address. -/
theorem unharmed_iff (hTracked : Tracked s) (a : Turn) : Unharmed s a ↔ FlushSpares s a := by
  unfold Unharmed FlushSpares
  rw [perform_eq]
  cases stopsEarly a with
  | true =>
    rw [if_pos rfl, run_opening]
    simp
  | false =>
    rw [if_neg Bool.false_ne_true, or_iff_right Bool.false_ne_true]
    have hGrows := grows_finish a (flushed a s.world)
    constructor
    · intro hUnharmed
      by_contra hNot
      rw [not_or, Bool.not_eq_true, not_forall_not] at hNot
      obtain ⟨hFlush, src, hProtected⟩ := hNot
      obtain ⟨port, hDrops⟩ := hProtected.drops_flushed hTracked
      have hMoment : (⟨false, { s.world with allow := [] }⟩ : Moment) ∈
          (flushed a s.world).moments := by
        rw [flushed_eq, flushedWorld, hFlush]
        simp
      have hSpared := hUnharmed _ (hGrows.mem hMoment) rfl port src hProtected
      rw [hDrops] at hSpared
      cases hSpared
    · rintro (hFlush | hNone)
      · refine hGrows.forall ?_ ?_ ?_
        · rw [flushed_eq]
          exact hFlush
        · rw [flushed_eq, hFlush]
          intro m hm
          rcases List.mem_pair.mp hm with rfl | rfl
          · rintro - port src ⟨⟨nets, hNets, hIn⟩, -⟩
            exact (hTracked nets hNets).1 src hIn port
          · intro hFailed
            cases hFailed
        · intro m hFailed hNot
          rw [hFailed] at hNot
          cases hNot
      · intro m _ _ port src hProtected
        exact absurd hProtected (hNone src)

section

variable {f : Failures} {entries : List Network} {port : Nat} {h : Host}

theorem Grows.failed_eq_false {h h' : Host} (hGrows : Grows h h') (hFailed : h'.failed = false) :
    h.failed = false := by
  obtain ⟨more, -, hSticky⟩ := hGrows
  cases hBefore : h.failed with
  | false => rfl
  | true => exact (hSticky hBefore).1.symm.trans hFailed

theorem ensureChain_failed (hFailed : (ensureChain f h).2.failed = false) :
    chainFails f h.world = false := by
  unfold ensureChain at hFailed
  unfold chainFails
  cases hNew : f.newChain <;> cases hFlush : f.flushChain <;> cases hReturn : f.appendReturn <;>
    cases hDrop : f.appendDrop <;> cases hChain : h.world.chain <;>
    simp_all [World.execute]

theorem ensureJump_failed (hFailed : (ensureJump f port h).2.failed = false)
    (hChain : h.world.chain.isSome) : (ensureJump f port h).1 = true := by
  unfold ensureJump at hFailed ⊢
  simp only [removeJumpRules_eq] at hFailed ⊢
  by_cases hFound : InputRule.jump port ∈ h.world.input <;> cases hCheck : f.checkJump <;>
    cases hInsert : f.insertJump <;> cases hList : f.listInput .iptables <;>
    simp_all [World.execute]

/-- A sync without a failing command returns True, with its whitelist in the set. -/
theorem install_unfailed (hFailed : (install f entries port h).2.failed = false) :
    (install f entries port h).1 = true ∧
    (∀ n ∈ entries, n ∈ (install f entries port h).2.world.allow) ∧
    .jump port ∈ (install f entries port h).2.world.input ∧
    (install f entries port h).2.world.chain = some [.returnAllowed, .drop] := by
  have hChained := (grows_install_chain f entries port h).failed_eq_false hFailed
  have hChain : chainFails f h.world = false := by
    have hFails := ensureChain_failed hChained
    rw [addEntries_world] at hFails
    exact hFails
  have hAdds := (addEntries_failed ((grows_ensureChain _).failed_eq_false hChained)).2
  obtain ⟨-, hInput, hAllow, hMade⟩ := chained_spec f entries h
  have hRules := hMade hChain
  have hSome : (chained f entries h).2.world.chain.isSome := by rw [hRules]; rfl
  obtain ⟨hOk, hWorld, hGrows⟩ := install_of_chain entries port hChain
  have hJumpOk := ensureJump_failed (hGrows.failed_eq_false hFailed) hSome
  obtain ⟨hKeepAllow, hKeepChain, -⟩ := ensureJump_spec (f := f) port (chained f entries h).2 hSome
  refine ⟨hOk.trans hJumpOk, ?_, ?_, ?_⟩
  · intro n hn
    rw [hWorld, hKeepAllow, hAllow]
    exact mem_added hn hAdds
  · rw [hWorld]
    rcases jump_of_chain entries port hChain with
      ⟨-, hSame, -, hMem⟩ | ⟨-, hInsert, hNew⟩
    · rw [hSame]
      exact hMem
    · rw [hJumpOk] at hInsert
      have hInserted : f.insertJump = false := by rwa [eq_comm, Bool.not_eq_true'] at hInsert
      rw [hNew, hInserted]
      exact List.mem_cons_self
  · rw [hWorld, hKeepChain, hRules]

end

/-! ## Runs -/

theorem World.drops_of_allowed {nets : List Network} {src : Nat}
    (hIn : ∃ n ∈ nets, src ∈ n) (hAllow : ∀ n ∈ nets, n ∈ w.allow)
    (hChain : w.chain = some [.returnAllowed, .drop]) (port : Nat) : w.drops port src = false := by
  obtain ⟨n, hn, hSrc⟩ := hIn
  have hAllowed : ∃ n ∈ w.allow, src ∈ n := ⟨n, hAllow n hn, hSrc⟩
  unfold World.drops
  rw [hChain, Option.any_some, World.dropsFrom, if_pos hAllowed, Bool.and_false]

/-- The rules that a call without failing command and without harm leaves are as tracked. -/
theorem tracked_step {s' : FirewallState} {a : Turn} (hTracked : Tracked s)
    (hUnharmed : Unharmed s a) (hStep : turnStep s a = some s') : Tracked s' := by
  cases hStep
  intro nets hNets
  dsimp only at hNets ⊢
  cases hFailed : (perform s a).2.failed with
  | true =>
    rw [hFailed] at hNets
    cases hNets
  | false =>
    rw [hFailed, if_neg Bool.false_ne_true] at hNets
    -- a turn that stops early fails
    have hEarly : stopsEarly a = false := by
      by_contra hStops
      rw [perform_eq, if_pos (Bool.not_eq_false _ ▸ hStops), run_opening] at hFailed
      cases hFailed
    have hPerform : perform s a = finish a (flushed a s.world) := by
      rw [perform_eq, hEarly]
      rfl
    obtain ⟨c, f⟩ := a
    by_cases hEntries : c.entries = []
    · -- what takes the firewall down leaves the rules, and its last moment does no harm
      have hFinish : perform s (c, f) = (true, cleanupLegacyIpv6 f (flushed (c, f) s.world)) := by
        rw [hPerform, finish, if_pos hEntries]
      have hWorld : (perform s (c, f)).2.world = flushedWorld f s.world := by
        rw [hFinish, cleanupLegacyIpv6_world, flushed_eq]
      cases c with
      | sync allowedIps port =>
        rw [hFinish] at hNets
        cases hNets
        have hNil : ipv4Entries allowedIps = [] := hEntries
        rw [hNil]
        refine ⟨?_, fun hNe => absurd rfl hNe⟩
        rintro src ⟨n, hn, -⟩
        cases hn
      | disable =>
        have hSeen : (⟨false, (perform s (.disable, f)).2.world⟩ : Moment) ∈
            (perform s (.disable, f)).2.moments := by
          have hLast : (perform s (.disable, f)).2.Seen := by
            rw [hFinish]
            exact Host.seen_run _ _ _
          rwa [Host.Seen, hFailed] at hLast
        refine ⟨fun src hIn port => ?_, fun hNe => ?_⟩
        · exact hUnharmed _ hSeen rfl port src ⟨⟨nets, hNets, hIn⟩, trivial⟩
        · rw [hWorld, flushedWorld_input, flushedWorld_chain]
          exact (hTracked nets hNets).2 hNe
    · cases c with
      | disable => exact absurd rfl hEntries
      | sync allowedIps port =>
        have hFinish : perform s (.sync allowedIps port, f) =
            install f (ipv4Entries allowedIps) port (flushed (.sync allowedIps port, f) s.world) := by
          rw [hPerform, finish, if_neg hEntries]
          rfl
        rw [hFinish] at hFailed
        obtain ⟨hOk, hAllow, hJump, hChain⟩ := install_unfailed hFailed
        rw [hFinish, hOk] at hNets
        cases hNets
        rw [hFinish]
        exact ⟨fun src hIn => World.drops_of_allowed hIn hAllow hChain, fun _ => ⟨⟨port, hJump⟩, hChain⟩⟩

/-- **When the whitelist firewall holds.** From any rules, with no whitelist trusted yet, the
calls of a run all do what they are for exactly when each finds the rules fit for it: nothing
that it flushes is in use, a disable finds no jump, and a sync no other jump than its own. -/
theorem whitelist_holds_iff (w : World) (turns : List Turn) :
    Along turnStep Holds { world := w } turns ↔ Along turnStep Fits { world := w } turns := by
  have hStart : Tracked { world := w } := nofun
  refine along_congr ?_ ?_ hStart turns
  · intro s a hTracked
    exact and_congr (unharmed_iff hTracked a) (and_congr (neverLockedOut_iff s a)
      (and_congr (goesAway_iff s a) (oneJump_iff s a)))
  · intro s a s' hTracked hHolds hStep
    exact tracked_step hTracked hHolds.1 hStep

def officeSync (port : Nat) : Turn := (.sync ["203.0.113.5".toList] port, {})

/-- The rules after a first sync, and its whitelist. -/
def synced : FirewallState where
  world := (perform { world := {} } (officeSync 8000)).2.world
  trusted := some (ipv4Entries ["203.0.113.5".toList])

/-- No command fails; the second call does harm if it is the same sync, locks everybody out and
leaves the jump if it is a disable, and leaves two jumps if it is a sync for another port. -/
theorem second_call_breaks :
    exec turnStep { world := {} } [officeSync 8000] = some synced ∧
    ¬ Unharmed synced (officeSync 8000) ∧
    ¬ NeverLockedOut synced (.disable, {}) ∧ ¬ GoesAway synced (.disable, {}) ∧
    ¬ OneJump synced (officeSync 9000) := by
  have hFlush : (⟨false, { synced.world with allow := [] }⟩ : Moment) ∈
      (perform synced (officeSync 8000)).2.moments := by decide
  have hDisabled : (⟨false, { synced.world with allow := [] }⟩ : Moment) ∈
      (perform synced (.disable, {})).2.moments := by decide
  have hChain : synced.world.chain = some [.returnAllowed, .drop] := by decide
  have hEnd : (perform { world := {} } (officeSync 8000)).2.failed = false ∧
      (perform { world := {} } (officeSync 8000)).1 = true := by decide
  have hStep : turnStep { world := {} } (officeSync 8000) = some synced := by
    unfold turnStep
    rw [hEnd.1, hEnd.2]
    rfl
  refine ⟨?_, fun hUnharmed => ?_, fun hSafe => ?_, fun hGone => ?_, fun hOne => ?_⟩
  · rw [exec, hStep]
    rfl
  · have hSpared := hUnharmed _ hFlush rfl 8000 3405803781
      ⟨⟨_, rfl, by decide⟩, by
        show ∃ n ∈ ipv4Entries ["203.0.113.5".toList], 3405803781 ∈ n
        decide⟩
    revert hSpared
    decide
  · exact hSafe _ hDisabled ⟨⟨by decide, [.returnAllowed], hChain⟩, rfl⟩
  · exact absurd (hGone (by decide)) (by decide)
  · exact absurd (hOne (by decide)) (by decide)

end AdminPanel.Firewall
