import AdminPanel.Lib.Ipv4
import AdminPanel.Lib.PyText
import AdminPanel.Lib.Runs

/-!
# The whitelist firewall of the panel port

`PanelPortFirewall` builds an ipset, a chain that drops what is not in it, and a jump to the
chain from INPUT, with one command after the other. Every command may fail, and packets come
in between any two of them.

* `World`, `execute` — the rules and the set, and what each command does to them;
* `sync`, `disable` — the two calls, with the moments that they pass through.
-/

namespace AdminPanel.Firewall

open List

open Lib (Along along_congr)
open Lib.Ipv4 (Network)

/-! ## Rules -/

def chainV4 : List Char := "AA_PANEL_WHITELIST".toList

def commentJumpV4 : List Char := "aa-panel-port-jump-v4".toList

def commentJumpV6Legacy : List Char := "aa-panel-port-jump-v6".toList

inductive Table
  | iptables
  | ip6tables
  deriving DecidableEq

/-- A rule of INPUT: the jump of the panel for a port, or another one. -/
inductive InputRule
  | jump (port : Nat)
  | other (words : List (List Char))
  deriving DecidableEq

/-- The words of a rule behind `-A INPUT`. -/
def InputRule.words : InputRule → List (List Char)
  | .jump port =>
    ["-p", "tcp", "-m", "tcp", "--dport", toString port, "-m", "comment", "--comment"].map
      String.toList ++ [commentJumpV4, "-j".toList, chainV4]
  | .other words => words

inductive ChainRule
  /-- `-m set --match-set aa_panel_allow_v4 src -j RETURN` -/
  | returnAllowed
  | drop
  deriving DecidableEq

/-- `input` of the second table is what an old version of the panel has left; `allow` is empty
also where there is no set. -/
structure World where
  input : List InputRule := []
  input6 : List InputRule := []
  chain : Option (List ChainRule) := none
  allow : List Network := []
  deriving DecidableEq

namespace World

def isJump : InputRule → Bool
  | .jump _ => true
  | .other _ => false

def jumps (w : World) : List InputRule := w.input.filter isJump

/-- The rules of the chain for a packet from `src`: dropped, or back to INPUT. -/
def dropsFrom (src : Nat) (allow : List Network) : List ChainRule → Bool
  | [] => false
  | .returnAllowed :: rules => if ∃ n ∈ allow, src ∈ n then false else dropsFrom src allow rules
  | .drop :: _ => true

/-- The chain drops a packet from `src` to `port`. -/
def drops (w : World) (port src : Nat) : Bool :=
  decide (.jump port ∈ w.input) && (w.chain.any (dropsFrom src w.allow))

/-- A jump to a chain that ends in DROP. -/
def Live (w : World) : Prop := w.jumps ≠ [] ∧ ∃ rules, w.chain = some (rules ++ [.drop])

/-- It would lock everybody out. -/
def LockedOut (w : World) : Prop := w.Live ∧ w.allow = []

end World

/-! ## Commands -/

inductive Command
  | createSet
  | flushSet
  | addEntry (net : Network)
  | newChain
  | flushChain
  | appendRule (rule : ChainRule)
  | listInput (table : Table)
  | deleteInput (table : Table) (words : List (List Char))
  | checkJump (port : Nat)
  | insertJump (port : Nat)
  | flushLegacySet
  deriving DecidableEq

/-- `iptables -S INPUT`, for one rule -/
def listed (rule : InputRule) : List Char :=
  "-A INPUT".toList ++ rule.words.flatMap fun word => ' ' :: word

namespace World

def inputOf (w : World) : Table → List InputRule
  | .iptables => w.input
  | .ip6tables => w.input6

def setInput (w : World) (rules : List InputRule) : Table → World
  | .iptables => { w with input := rules }
  | .ip6tables => { w with input6 := rules }

/-- The effect and the output of a command, or that it exits with another code than 0. -/
def execute (w : World) : Command → Option (World × List Char)
  | .createSet => some (w, [])
  | .flushSet => some ({ w with allow := [] }, [])
  | .addEntry net => some ({ w with allow := if net ∈ w.allow then w.allow else net :: w.allow }, [])
  | .newChain => if w.chain.isSome then none else some ({ w with chain := some [] }, [])
  | .flushChain => w.chain.map fun _ => ({ w with chain := some [] }, [])
  | .appendRule rule => w.chain.map fun rules => ({ w with chain := some (rules ++ [rule]) }, [])
  | .listInput table => some (w, Lib.PyText.unlines ((w.inputOf table).map listed))
  | .deleteInput table words =>
    match (w.inputOf table).find? fun rule => rule.words = words with
    | none => none
    | some rule => some (w.setInput ((w.inputOf table).erase rule) table, [])
  | .checkJump port => if .jump port ∈ w.input then some (w, []) else none
  | .insertJump port =>
    if w.chain.isSome then some ({ w with input := .jump port :: w.input }, []) else none
  | .flushLegacySet => some (w, [])

end World

/-- Which commands of a call fail without effect. -/
structure Failures where
  createSet : Bool := false
  flushSet : Bool := false
  addEntry : Nat → Bool := fun _ => false
  newChain : Bool := false
  flushChain : Bool := false
  appendReturn : Bool := false
  appendDrop : Bool := false
  listInput : Table → Bool := fun _ => false
  deleteInput : Table → Nat → Bool := fun _ _ => false
  checkJump : Bool := false
  insertJump : Bool := false
  flushLegacySet : Bool := false

/-- A moment behind a command, and whether a command of the call has failed by then. -/
structure Moment where
  failed : Bool
  world : World
  deriving DecidableEq

/-- A call under way. -/
structure Host where
  world : World
  failed : Bool := false
  moments : List Moment := []

/-- `_run_command`: a command that succeeds has no output, for what it printed is dropped. -/
def Host.run (h : Host) (fails : Bool) (c : Command) : (Bool × List Char) × Host :=
  if fails then
    ((false, []), { h with failed := true, moments := h.moments ++ [⟨true, h.world⟩] })
  else match h.world.execute c with
    | none => ((false, []), { h with moments := h.moments ++ [⟨h.failed, h.world⟩] })
    | some (w, _) =>
      ((true, []), { h with world := w, moments := h.moments ++ [⟨h.failed, w⟩] })

/-! ## Calls -/

/-- `_ipset_entry`; an address without a slash is a network of one. -/
def ipsetEntry (entry : List Char) : Option Network :=
  let value := Lib.PyText.strip entry
  if value = [] then none else Lib.Ipv4.parseNetwork value

def ipv4Entries (allowedIps : List (List Char)) : List Network := allowedIps.filterMap ipsetEntry

section

variable (f : Failures)

def ensureIpset (h : Host) : Bool × Host :=
  let ((ok, _), h) := h.run f.createSet .createSet
  (ok, h)

/-- The loop of `_populate_ipset`; a failed add is only logged. -/
def addEntries : Nat → List Network → Host → Host
  | _, [], h => h
  | i, net :: nets, h => addEntries (i + 1) nets (h.run (f.addEntry i) (.addEntry net)).2

def populateIpset (entries : List Network) (h : Host) : Host :=
  addEntries f 0 entries (h.run f.flushSet .flushSet).2

/-- `_ensure_chain`: DROP is appended behind a successful RETURN only. -/
def ensureChain (h : Host) : Bool × Host :=
  let (_, h) := h.run f.newChain .newChain
  let ((ok, _), h) := h.run f.flushChain .flushChain
  if !ok then (false, h) else
  let ((ok, _), h) := h.run f.appendReturn (.appendRule .returnAllowed)
  if !ok then (false, h) else
  let ((ok, _), h) := h.run f.appendDrop (.appendRule .drop)
  (ok, h)

/-- The loop of `_remove_jump_rules` over the lines of the listing. -/
def deleteListed (table : Table) (comment : List Char) :
    Nat → List (List Char) → Bool → Host → Bool × Host
  | _, [], ok, h => (ok, h)
  | i, line :: lines, ok, h =>
    let rule := Lib.PyText.strip (line.drop "-A INPUT".length)
    if ¬ comment <:+: line ∨ ¬ "-j".toList <:+: line ∨ ¬ "-A INPUT".toList <+: line ∨ rule = [] then
      deleteListed table comment (i + 1) lines ok h
    else
      let words := (rule.splitOnP Lib.PyText.isSpace).filter (· ≠ [])
      let ((deleted, _), h) := h.run (f.deleteInput table i) (.deleteInput table words)
      deleteListed table comment (i + 1) lines (ok && deleted) h

def removeJumpRules (table : Table) (comment : List Char) (h : Host) : Bool × Host :=
  let ((ok, out), h) := h.run (f.listInput table) (.listInput table)
  if !ok then (false, h)
  else deleteListed f table comment 0 (Lib.PyText.splitLines out) ok h

def ensureJump (port : Nat) (h : Host) : Bool × Host :=
  let ((found, _), h) := h.run f.checkJump (.checkJump port)
  if found then (true, h) else
  let (_, h) := removeJumpRules f .iptables commentJumpV4 h
  let ((ok, _), h) := h.run f.insertJump (.insertJump port)
  (ok, h)

def cleanupLegacyIpv6 (h : Host) : Host :=
  ((removeJumpRules f .ip6tables commentJumpV6Legacy h).2.run f.flushLegacySet .flushLegacySet).2

/-- `disable`, enabled and not a dry run -/
def disable (h : Host) : Bool × Host :=
  let (ok, h) := removeJumpRules f .iptables commentJumpV4 h
  if !ok then (false, h) else
  (true, cleanupLegacyIpv6 f (h.run f.flushSet .flushSet).2)

/-- `sync`, enabled and not a dry run -/
def sync (allowedIps : List (List Char)) (port : Nat) (h : Host) : Bool × Host :=
  let entries := ipv4Entries allowedIps
  if entries = [] then disable f h else
  let (ok, h) := ensureIpset f h
  if !ok then (false, h) else
  let (ok, h) := ensureChain f (populateIpset f entries h)
  if !ok then (false, h) else
  let (ok, h) := ensureJump f port h
  if !ok then (false, h) else
  (true, cleanupLegacyIpv6 f h)

end

/-! ## Single commands -/

section

variable (h : Host) (fails : Bool) (c : Command)

@[simp] theorem Host.run_failed : (h.run fails c).2.failed = (h.failed || fails) := by
  unfold Host.run
  cases fails with
  | true => simp
  | false => cases h.world.execute c <;> simp

@[simp] theorem Host.run_ok : (h.run fails c).1 = (!fails && (h.world.execute c).isSome, []) := by
  unfold Host.run
  cases fails with
  | true => rfl
  | false => cases h.world.execute c <;> rfl

@[simp] theorem Host.run_world :
    (h.run fails c).2.world =
      if fails then h.world else ((h.world.execute c).map (·.1)).getD h.world := by
  unfold Host.run
  cases fails with
  | true => rfl
  | false => cases h.world.execute c <;> rfl

@[simp] theorem Host.run_moments :
    (h.run fails c).2.moments =
      h.moments ++ [⟨h.failed || fails, (h.run fails c).2.world⟩] := by
  unfold Host.run
  cases fails with
  | true => simp
  | false => cases h.world.execute c <;> simp

end

/-- A later moment of the same call: what has failed stays failed. -/
def Grows (h h' : Host) : Prop :=
  ∃ more, h'.moments = h.moments ++ more ∧
    (h.failed = true → h'.failed = true ∧ ∀ m ∈ more, m.failed = true)

theorem Grows.refl (h : Host) : Grows h h :=
  ⟨[], (append_nil _).symm, fun hFailed => ⟨hFailed, by simp⟩⟩

variable {h h' : Host}

theorem Grows.trans {h'' : Host} (hFirst : Grows h h') (hThen : Grows h' h'') : Grows h h'' := by
  obtain ⟨more, hMoments, hSticky⟩ := hFirst
  obtain ⟨more', hMoments', hSticky'⟩ := hThen
  refine ⟨more ++ more', by rw [hMoments', hMoments, append_assoc], fun hFailed => ?_⟩
  obtain ⟨hFailed', hMore⟩ := hSticky hFailed
  obtain ⟨hFailed'', hMore'⟩ := hSticky' hFailed'
  exact ⟨hFailed'', forall_mem_append.mpr ⟨hMore, hMore'⟩⟩

theorem grows_run (h : Host) (fails : Bool) (c : Command) : Grows h (h.run fails c).2 := by
  refine ⟨_, Host.run_moments h fails c, fun hFailed => ?_⟩
  rw [Host.run_failed, hFailed]
  simp

theorem Grows.mem (hGrows : Grows h h') {m : Moment} (hm : m ∈ h.moments) : m ∈ h'.moments := by
  obtain ⟨more, hMoments, -⟩ := hGrows
  rw [hMoments]
  exact mem_append_left _ hm

/-- Once a command has failed, every later moment says so. -/
theorem Grows.forall (hGrows : Grows h h') (hFailed : h.failed = true)
    {P : Moment → Prop} (hBefore : ∀ m ∈ h.moments, P m) (hExcused : ∀ m, m.failed = true → P m) :
    ∀ m ∈ h'.moments, P m := by
  obtain ⟨more, hMoments, hSticky⟩ := hGrows
  rw [hMoments]
  exact forall_mem_append.mpr ⟨hBefore, fun m hm => hExcused m ((hSticky hFailed).2 m hm)⟩

section

variable {f : Failures}

theorem removeJumpRules_eq (table : Table) (comment : List Char) (h : Host) :
    removeJumpRules f table comment h =
      (!f.listInput table, (h.run (f.listInput table) (.listInput table)).2) := by
  have hOk := Host.run_ok h (f.listInput table) (.listInput table)
  unfold removeJumpRules
  generalize h.run (f.listInput table) (.listInput table) = result at hOk ⊢
  obtain ⟨⟨ok, out⟩, h'⟩ := result
  cases hOk
  cases f.listInput table <;> rfl

theorem grows_addEntries (i : Nat) (nets : List Network) (h : Host) :
    Grows h (addEntries f i nets h) := by
  induction nets generalizing i h with
  | nil => exact .refl h
  | cons net nets ih => exact (grows_run _ _ _).trans (ih _ _)

theorem grows_removeJumpRules (table : Table) (comment : List Char) (h : Host) :
    Grows h (removeJumpRules f table comment h).2 := by
  rw [removeJumpRules_eq]
  exact grows_run _ _ _

theorem grows_ensureChain (h : Host) : Grows h (ensureChain f h).2 := by
  have hFlush := (grows_run h f.newChain .newChain).trans (grows_run _ f.flushChain .flushChain)
  have hReturn := hFlush.trans (grows_run _ f.appendReturn (.appendRule .returnAllowed))
  unfold ensureChain
  dsimp only
  split
  · exact hFlush
  · split
    · exact hReturn
    · exact hReturn.trans (grows_run _ _ _)

theorem grows_ensureJump (port : Nat) (h : Host) : Grows h (ensureJump f port h).2 := by
  have hCheck := grows_run h f.checkJump (.checkJump port)
  unfold ensureJump
  dsimp only
  split
  · exact hCheck
  · exact hCheck.trans ((grows_removeJumpRules _ _ _).trans (grows_run _ _ _))

theorem grows_cleanupLegacyIpv6 (h : Host) : Grows h (cleanupLegacyIpv6 f h) :=
  (grows_removeJumpRules _ _ _).trans (grows_run _ _ _)

end

/-! ## What the calls leave -/

/-- One of the commands of `_ensure_chain` fails, or the chain cannot be made. -/
def chainFails (f : Failures) (w : World) : Bool :=
  (f.newChain && w.chain.isNone) || f.flushChain || f.appendReturn || f.appendDrop

/-- The set after the adds that do not fail. -/
def added (f : Failures) : Nat → List Network → List Network → List Network
  | _, [], allow => allow
  | i, net :: nets, allow =>
    added f (i + 1) nets
      (if f.addEntry i then allow else if net ∈ allow then allow else net :: allow)

variable {i : Nat}

theorem forall_lt_length_cons {α : Type} (P : Nat → Prop) {x : α} {xs : List α} :
    (∀ k < (x :: xs).length, P (i + k)) ↔ P i ∧ ∀ k < xs.length, P (i + 1 + k) := by
  constructor
  · intro hAll
    refine ⟨hAll 0 (Nat.succ_pos _), fun k hk => ?_⟩
    rw [Nat.add_right_comm]
    exact hAll (k + 1) (Nat.succ_lt_succ hk)
  · rintro ⟨hFirst, hRest⟩ k hk
    cases k with
    | zero => exact hFirst
    | succ k =>
      rw [← Nat.add_assoc, Nat.add_right_comm]
      exact hRest k (Nat.lt_of_succ_lt_succ hk)

variable {nets allow : List Network}

section

variable {f : Failures}

theorem addEntries_world (i : Nat) (nets : List Network) (h : Host) :
    (addEntries f i nets h).world =
      { h.world with allow := added f i nets h.world.allow } := by
  induction nets generalizing i h with
  | nil => rfl
  | cons net nets ih =>
    rw [addEntries, ih, added, Host.run_world]
    cases f.addEntry i <;> rfl

theorem added_eq_nil :
    added f i nets allow = [] ↔ allow = [] ∧ ∀ k < nets.length, f.addEntry (i + k) = true := by
  induction nets generalizing i allow with
  | nil => simp [added]
  | cons net nets ih =>
    rw [added, ih, forall_lt_length_cons (fun k => f.addEntry k = true)]
    cases f.addEntry i with
    | true => simp
    | false =>
      have hNe : (if net ∈ allow then allow else net :: allow) ≠ [] := by
        split
        · next hMem => exact ne_nil_of_mem hMem
        · exact cons_ne_nil _ _
      simp [hNe]

theorem mem_added_of_mem {net : Network} (hMem : net ∈ allow) : net ∈ added f i nets allow := by
  induction nets generalizing i allow with
  | nil => exact hMem
  | cons first nets ih =>
    refine ih ?_
    split
    · exact hMem
    · split
      · exact hMem
      · exact mem_cons_of_mem _ hMem

theorem mem_added {net : Network} (hMem : net ∈ nets)
    (hAdds : ∀ k < nets.length, f.addEntry (i + k) = false) : net ∈ added f i nets allow := by
  induction nets generalizing i allow with
  | nil => cases hMem
  | cons first nets ih =>
    rw [forall_lt_length_cons (fun k => f.addEntry k = false)] at hAdds
    rw [added]
    rcases mem_cons.mp hMem with rfl | hRest
    · refine mem_added_of_mem ?_
      rw [if_neg (by rw [hAdds.1]; exact Bool.false_ne_true)]
      split
      · assumption
      · exact mem_cons_self
    · exact ih hRest hAdds.2

theorem addEntries_failed (hFailed : (addEntries f i nets h).failed = false) :
    h.failed = false ∧ ∀ k < nets.length, f.addEntry (i + k) = false := by
  induction nets generalizing i h with
  | nil => exact ⟨hFailed, fun k hk => absurd hk (Nat.not_lt_zero k)⟩
  | cons net nets ih =>
    obtain ⟨hRun, hRest⟩ := ih hFailed
    rw [Host.run_failed, Bool.or_eq_false_iff] at hRun
    rw [forall_lt_length_cons (fun k => f.addEntry k = false)]
    exact ⟨hRun.1, hRun.2, hRest⟩

theorem ensureChain_spec (h : Host) :
    (ensureChain f h).1 = !chainFails f h.world ∧
    (ensureChain f h).2.world.input = h.world.input ∧
    (ensureChain f h).2.world.allow = h.world.allow ∧
    (chainFails f h.world = false →
      (ensureChain f h).2.world.chain = some [.returnAllowed, .drop]) := by
  unfold ensureChain chainFails
  cases hNew : f.newChain <;> cases hFlush : f.flushChain <;> cases hReturn : f.appendReturn <;>
    cases hDrop : f.appendDrop <;> cases hChain : h.world.chain <;>
    simp [World.execute, hChain]

theorem ensureJump_spec (port : Nat) (h : Host) (hChain : h.world.chain.isSome) :
    (ensureJump f port h).2.world.allow = h.world.allow ∧
    (ensureJump f port h).2.world.chain = h.world.chain ∧
    (((ensureJump f port h).1 = true ∧ (ensureJump f port h).2.world.input = h.world.input ∧
        f.checkJump = false ∧ .jump port ∈ h.world.input) ∨
      ((f.checkJump = true ∨ .jump port ∉ h.world.input) ∧
        (ensureJump f port h).1 = !f.insertJump ∧
        (ensureJump f port h).2.world.input =
          if f.insertJump then h.world.input else .jump port :: h.world.input)) := by
  unfold ensureJump
  simp only [removeJumpRules_eq]
  by_cases hFound : InputRule.jump port ∈ h.world.input
  all_goals
    cases hCheck : f.checkJump <;> cases hList : f.listInput .iptables <;>
      cases hInsert : f.insertJump <;> simp [World.execute, hFound, hChain]

end

/-! ## Nobody locked out -/

/-- A command that cannot lock anybody out by itself. -/
def Command.quiet : Command → Bool
  | .flushSet => false
  | .appendRule .drop => false
  | .insertJump _ => false
  | _ => true

theorem World.jumps_of_setInput {w : World} {rule : InputRule} {table : Table}
    (hJumps : (w.setInput ((w.inputOf table).erase rule) table).jumps ≠ []) : w.jumps ≠ [] := by
  cases table with
  | ip6tables => exact hJumps
  | iptables =>
    obtain ⟨jump, hJump⟩ := exists_mem_of_ne_nil _ hJumps
    obtain ⟨hMem, hIs⟩ := mem_filter.mp hJump
    exact ne_nil_of_mem (mem_filter.mpr ⟨mem_of_mem_erase hMem, hIs⟩)

variable {c : Command}

/-- A quiet command locks no one out. -/
theorem World.not_lockedOut_execute {w w' : World} {out : List Char}
    (hSafe : ¬ w.LockedOut) (hQuiet : c.quiet = true) (hExec : w.execute c = some (w', out)) :
    ¬ w'.LockedOut := by
  rintro ⟨⟨hJumps, rules, hRules⟩, hAllow⟩
  cases c with
  | createSet =>
    cases hExec
    exact hSafe ⟨⟨hJumps, rules, hRules⟩, hAllow⟩
  | flushSet => cases hQuiet
  | addEntry net =>
    cases hExec
    dsimp only at hAllow
    split at hAllow
    · next hMem => exact ne_nil_of_mem hMem hAllow
    · cases hAllow
  | newChain =>
    simp only [execute] at hExec
    split at hExec
    · cases hExec
    · cases hExec
      exact absurd (Option.some.inj hRules).symm (append_ne_nil_of_right_ne_nil _ (by simp))
  | flushChain =>
    obtain ⟨old, -, hEq⟩ := Option.map_eq_some_iff.mp hExec
    cases hEq
    exact absurd (Option.some.inj hRules).symm (append_ne_nil_of_right_ne_nil _ (by simp))
  | appendRule rule =>
    obtain ⟨old, -, hEq⟩ := Option.map_eq_some_iff.mp hExec
    cases hEq
    have hLast := (append_inj' (Option.some.inj hRules) rfl).2
    rw [singleton_inj.mp hLast] at hQuiet
    cases hQuiet
  | listInput table =>
    cases hExec
    exact hSafe ⟨⟨hJumps, rules, hRules⟩, hAllow⟩
  | deleteInput table words =>
    simp only [execute] at hExec
    split at hExec
    · cases hExec
    · cases hExec
      refine hSafe ⟨⟨jumps_of_setInput hJumps, rules, ?_⟩, ?_⟩
      · cases table <;> exact hRules
      · cases table <;> exact hAllow
  | checkJump port =>
    simp only [execute] at hExec
    split at hExec
    · cases hExec
      exact hSafe ⟨⟨hJumps, rules, hRules⟩, hAllow⟩
    · cases hExec
  | insertJump port => cases hQuiet
  | flushLegacySet =>
    cases hExec
    exact hSafe ⟨⟨hJumps, rules, hRules⟩, hAllow⟩

/-- Neither now nor at a moment of the call so far. -/
def Host.Safe (h : Host) : Prop :=
  ¬ h.world.LockedOut ∧ ∀ m ∈ h.moments, ¬ m.world.LockedOut

theorem Host.safe_run_iff {fails : Bool} : (h.run fails c).2.Safe ↔
      ¬ (h.run fails c).2.world.LockedOut ∧ ∀ m ∈ h.moments, ¬ m.world.LockedOut := by
  unfold Host.Safe
  rw [Host.run_moments, forall_mem_append, forall_mem_singleton]
  constructor
  · exact fun hSafe => ⟨hSafe.1, hSafe.2.1⟩
  · exact fun hSafe => ⟨hSafe.1, hSafe.2, hSafe.1⟩

theorem Host.Safe.run (hSafe : h.Safe) (fails : Bool)
    (hQuiet : c.quiet = true) : (h.run fails c).2.Safe := by
  refine safe_run_iff.mpr ⟨?_, hSafe.2⟩
  rw [Host.run_world]
  cases fails with
  | true => exact hSafe.1
  | false =>
    cases hExec : h.world.execute c with
    | none => exact hSafe.1
    | some result => exact World.not_lockedOut_execute hSafe.1 hQuiet hExec

section

variable {h : Host} {f : Failures}

/-- A command that fails changes nothing. -/
theorem Host.Safe.run_true (hSafe : h.Safe) (c : Command) : (h.run true c).2.Safe :=
  safe_run_iff.mpr ⟨by rw [Host.run_world]; exact hSafe.1, hSafe.2⟩

theorem Host.Safe.addEntries (hSafe : h.Safe) (i : Nat) (nets : List Network) :
    (addEntries f i nets h).Safe := by
  induction nets generalizing i h with
  | nil => exact hSafe
  | cons net nets ih => exact ih (hSafe.run _ rfl) _

theorem Host.Safe.removeJumpRules (hSafe : h.Safe) (table : Table) (comment : List Char) :
    (removeJumpRules f table comment h).2.Safe := by
  rw [removeJumpRules_eq]
  exact hSafe.run _ rfl

theorem Host.Safe.cleanupLegacyIpv6 (hSafe : h.Safe) : (cleanupLegacyIpv6 f h).Safe :=
  (hSafe.removeJumpRules _ _).run _ rfl

/-- The chain is filled under no jump, or over a set with entries. -/
theorem Host.Safe.ensureChain (hSafe : h.Safe)
    (hFilled : h.world.allow ≠ [] ∨ chainFails f h.world = true ∨ h.world.jumps = []) :
    (ensureChain f h).2.Safe := by
  have hFlush := (hSafe.run f.newChain (c := .newChain) rfl).run f.flushChain (c := .flushChain) rfl
  have hReturn := hFlush.run f.appendReturn (c := .appendRule .returnAllowed) rfl
  obtain ⟨-, hInput, hAllow, -⟩ := ensureChain_spec (f := f) h
  unfold Firewall.ensureChain at hInput hAllow ⊢
  dsimp only at hInput hAllow ⊢
  split at hInput
  · next hFlushFails =>
    rw [if_pos hFlushFails]
    exact hFlush
  · next hFlushOk =>
    rw [if_neg hFlushOk] at hAllow ⊢
    split at hInput
    · next hReturnFails =>
      rw [if_pos hReturnFails]
      exact hReturn
    · next hReturnOk =>
      rw [if_neg hReturnOk] at hAllow ⊢
      cases hDrop : f.appendDrop with
      | true => exact hReturn.run_true (.appendRule .drop)
      | false =>
        rw [hDrop] at hInput hAllow
        have hNoFail : chainFails f h.world = false := by
          have hFlush := Host.run_ok (h.run f.newChain .newChain).2 f.flushChain .flushChain
          have hReturn := Host.run_ok ((h.run f.newChain .newChain).2.run f.flushChain
            .flushChain).2 f.appendReturn (.appendRule .returnAllowed)
          rw [Prod.ext_iff] at hFlush hReturn
          rw [hFlush.1, Bool.not_eq_true, Bool.not_eq_false', Bool.and_eq_true,
            Bool.not_eq_true'] at hFlushOk
          rw [hReturn.1, Bool.not_eq_true, Bool.not_eq_false', Bool.and_eq_true,
            Bool.not_eq_true'] at hReturnOk
          rw [chainFails, hFlushOk.1, hReturnOk.1, hDrop, Bool.or_false, Bool.or_false,
            Bool.or_false]
          have hChain := hFlushOk.2
          rw [Host.run_world] at hChain
          cases hNew : f.newChain with
          | false => rfl
          | true =>
            rw [hNew, if_pos rfl, World.execute, Option.isSome_map] at hChain
            rw [Bool.true_and, ← Option.not_isSome, hChain]
            rfl
        refine safe_run_iff.mpr ⟨fun hLocked => ?_, hReturn.2⟩
        rcases hFilled with hSome | hFails | hNone
        · exact hSome (hAllow.symm.trans hLocked.2)
        · exact absurd hFails (by rw [hNoFail]; exact Bool.false_ne_true)
        · exact hLocked.1.1 (by rw [World.jumps, hInput]; exact hNone)

/-- A jump where the set is filled, or that is not inserted. -/
theorem Host.Safe.ensureJump (hSafe : h.Safe) {port : Nat}
    (hFilled : h.world.allow ≠ [] ∨ f.insertJump = true) : (ensureJump f port h).2.Safe := by
  have hCheck := hSafe.run f.checkJump (c := .checkJump port) rfl
  have hList := hCheck.run (f.listInput .iptables) (c := .listInput .iptables) rfl
  unfold Firewall.ensureJump
  simp only [removeJumpRules_eq]
  split
  · exact hCheck
  rcases hFilled with hSome | hFails
  · refine safe_run_iff.mpr ⟨fun hLocked => hSome ?_, hList.2⟩
    rw [← hLocked.2]
    cases f.checkJump <;> cases f.listInput .iptables <;> cases f.insertJump <;>
      by_cases hChain : h.world.chain.isSome <;>
      by_cases hFound : InputRule.jump port ∈ h.world.input <;>
      simp [World.execute, hChain, hFound]
  · rw [hFails]
    exact hList.run_true (.insertJump port)

end

/-! ## The last moment -/

/-- The state of a call is that of its last moment. -/
def Host.Seen (h : Host) : Prop := ⟨h.failed, h.world⟩ ∈ h.moments

theorem Host.seen_run (h : Host) (fails : Bool) (c : Command) : (h.run fails c).2.Seen := by
  unfold Host.Seen
  rw [Host.run_moments, Host.run_failed]
  exact mem_append_right _ (mem_singleton.mpr rfl)

section

variable {h : Host} {f : Failures}

theorem seen_ensureChain : (ensureChain f h).2.Seen := by
  unfold ensureChain
  dsimp only
  split
  · exact Host.seen_run _ _ _
  · split
    · exact Host.seen_run _ _ _
    · exact Host.seen_run _ _ _

theorem seen_ensureJump {port : Nat} : (ensureJump f port h).2.Seen := by
  unfold ensureJump
  dsimp only
  split
  · exact Host.seen_run _ _ _
  · exact Host.seen_run _ _ _

theorem cleanupLegacyIpv6_world : (cleanupLegacyIpv6 f h).world = h.world := by
  unfold cleanupLegacyIpv6
  rw [Host.run_world, removeJumpRules_eq, Host.run_world]
  cases f.flushLegacySet <;> cases f.listInput .ip6tables <;> rfl

end

end AdminPanel.Firewall
