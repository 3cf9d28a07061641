import AdminPanel.Lib.Runs
import Mathlib.Data.List.Nodup
import Mathlib.Logic.Relation

/-!
# Calls that do not overlap

Calls work on a shared state in turns, each from its own phase. Turns of different calls may
follow one another in any order.

* `Calls` — the calls, with what a turn does;
* `callStep` — a turn of one call;
* `Lone` — the turns of a call that nobody interrupts;
* `Exclusive` — no other call has begun and not ended;
* `serial_of_exclusive` — a run of exclusive turns is one call after the other.
-/

namespace Lib

open Function

/-- Calls `ι` in phases `φ` on a state `σ`. A call that has ended takes no more turns, and no
turn leads back to where it is ready. -/
structure Calls (ι φ σ : Type) where
  ready : φ
  isReady : φ → Bool
  ended : φ → Bool
  turn : ι → φ → σ → Option (φ × σ)
  isReady_iff : ∀ {p}, isReady p = true ↔ p = ready
  turn_ended : ∀ {i p s}, ended p = true → turn i p s = none
  turn_ready : ∀ {i p s p' s'}, turn i p s = some (p', s') → p' ≠ ready

structure CallState (ι φ σ : Type) where
  state : σ
  phase : ι → φ

variable {ι φ σ : Type}

section

variable (calls : Calls ι φ σ)

def Calls.start (state : σ) : CallState ι φ σ :=
  ⟨state, fun _ => calls.ready⟩

/-- The call is not under way. -/
def Calls.Idle (p : φ) : Prop := p = calls.ready ∨ calls.ended p = true

instance decidableIdle (p : φ) : Decidable (calls.Idle p) :=
  decidable_of_iff (calls.isReady p = true ∨ calls.ended p = true)
    (or_congr calls.isReady_iff Iff.rfl)

/-- Nobody else is under way. -/
def Exclusive (s : CallState ι φ σ) (i : ι) : Prop :=
  ∀ j, j ≠ i → calls.Idle (s.phase j)

/-- From one phase to another without a turn of anybody else. -/
def Lone (i : ι) : φ × σ → φ × σ → Prop :=
  Relation.ReflTransGen fun x y => calls.turn i x.1 x.2 = some y

end

/-- The calls one after the other, each from its beginning to the phase in which it ends. -/
inductive Serially (calls : Calls ι φ σ) (last : ι → φ) : List ι → σ → σ → Prop
  | nil (s) : Serially calls last [] s s
  | snoc {order s t i u} : Serially calls last order s t →
      Lone calls i (calls.ready, t) (last i, u) → Serially calls last (order ++ [i]) s u

variable {order : List ι} {t : σ}

theorem Serially.congr {calls : Calls ι φ σ} {last last' : ι → φ} {s : σ}
    (h : Serially calls last order s t) (hSame : ∀ i ∈ order, last' i = last i) :
    Serially calls last' order s t := by
  induction h with
  | nil s => exact .nil s
  | @snoc order s t i u _ hLone ih =>
    refine .snoc (ih fun j hj => hSame j (List.mem_append_left _ hj)) ?_
    rwa [hSame i (List.mem_append_right _ (List.mem_singleton_self i))]

def callStep [DecidableEq ι] (calls : Calls ι φ σ) (s : CallState ι φ σ) (i : ι) :
    Option (CallState ι φ σ) :=
  (calls.turn i (s.phase i) s.state).map fun next => ⟨next.2, update s.phase i next.1⟩

variable {calls : Calls ι φ σ} {s s' : CallState ι φ σ} {start : σ} {i : ι}

theorem callStep_cases [DecidableEq ι] (hStep : callStep calls s i = some s') : ∃ p u,
    calls.turn i (s.phase i) s.state = some (p, u) ∧ s' = ⟨u, update s.phase i p⟩ := by
  obtain ⟨⟨p, u⟩, hTurn, rfl⟩ := Option.map_eq_some_iff.mp hStep
  exact ⟨p, u, hTurn, rfl⟩

/-- The calls that have ended came one after the other, and at most one is under way. -/
structure SerialSoFar (calls : Calls ι φ σ) (start : σ) (s : CallState ι φ σ) (order : List ι)
    (t : σ) : Prop where
  serially : Serially calls s.phase order start t
  nodup : order.Nodup
  mem_order : ∀ i, i ∈ order ↔ calls.ended (s.phase i) = true
  underWay : (∀ i, calls.Idle (s.phase i)) ∧ s.state = t ∨
    ∃ i, ¬calls.Idle (s.phase i) ∧ Exclusive calls s i ∧
      Lone calls i (calls.ready, t) (s.phase i, s.state)

/-- Whoever takes an exclusive turn has had no one in between. -/
theorem SerialSoFar.lone (h : SerialSoFar calls start s order t)
    (hExclusive : Exclusive calls s i) (hGoes : calls.ended (s.phase i) = false) :
    Lone calls i (calls.ready, t) (s.phase i, s.state) := by
  rcases h.underWay with ⟨hIdle, hState⟩ | ⟨j, hBusy, -, hLone⟩
  · rcases hIdle i with hReady | hEnded
    · rw [hReady, hState]
      exact .refl
    · rw [hGoes] at hEnded
      cases hEnded
  · obtain rfl : j = i := by
      by_contra hOther
      exact hBusy (hExclusive j hOther)
    exact hLone

/-- One step of a call that excludes the others. -/
theorem serialSoFar_step [DecidableEq ι] (h : SerialSoFar calls start s order t)
    (hExclusive : Exclusive calls s i) (hStep : callStep calls s i = some s') :
    ∃ order' t', SerialSoFar calls start s' order' t' := by
  obtain ⟨p, u, hTurn, rfl⟩ := callStep_cases hStep
  have hGoes : calls.ended (s.phase i) = false := by
    by_contra hEnded
    rw [Bool.not_eq_false] at hEnded
    rw [calls.turn_ended hEnded] at hTurn
    cases hTurn
  -- one more turn of the call that is alone at work
  have hLone : Lone calls i (calls.ready, t) (p, u) := (h.lone hExclusive hGoes).tail hTurn
  have hOthers : ∀ j, j ≠ i → calls.Idle (update s.phase i p j) := by
    intro j hOther
    rw [update_of_ne hOther]
    exact hExclusive j hOther
  have hNew : i ∉ order := by
    rw [h.mem_order, hGoes]
    exact Bool.false_ne_true
  -- the calls that have ended are not touched by it
  have hBefore : Serially calls (update s.phase i p) order start t := by
    refine h.serially.congr fun j hj => update_of_ne ?_ _ _
    exact ne_of_mem_of_not_mem hj hNew
  -- the call joins the order when it ends
  cases hEnd : calls.ended p with
  | true =>
    refine ⟨order ++ [i], u, hBefore.snoc ?_, ?_, ?_, .inl ⟨?_, rfl⟩⟩
    · rw [update_self]
      exact hLone
    · exact List.nodup_append.mpr ⟨h.nodup, List.nodup_singleton i, fun a ha b hb hSame =>
        hNew (List.mem_singleton.mp hb ▸ hSame ▸ ha)⟩
    · intro j
      rw [List.mem_append, List.mem_singleton, h.mem_order]
      by_cases hSame : j = i
      · subst hSame
        simp [hEnd]
      · simp [hSame]
    · intro j
      by_cases hSame : j = i
      · subst hSame
        exact .inr (by simpa using hEnd)
      · exact hOthers j hSame
  | false =>
    refine ⟨order, t, hBefore, h.nodup, ?_, .inr ⟨i, ?_, hOthers, ?_⟩⟩
    · intro j
      rw [h.mem_order]
      by_cases hSame : j = i
      · subst hSame
        simp [hEnd, hGoes]
      · simp [hSame]
    · show ¬calls.Idle (update s.phase i p i)
      rw [update_self]
      rintro (hReady | hEnded)
      · exact calls.turn_ready hTurn hReady
      · rw [hEnd] at hEnded
        cases hEnded
    · show Lone calls i (calls.ready, t) (update s.phase i p i, u)
      rw [update_self]
      exact hLone

theorem serialSoFar_start (hReady : calls.ended calls.ready = false) (start : σ) :
    SerialSoFar calls start (calls.start start) [] start where
  serially := .nil start
  nodup := List.nodup_nil
  mem_order := by
    intro i
    show i ∈ [] ↔ calls.ended calls.ready = true
    simp [hReady]
  underWay := .inl ⟨fun _ => .inl rfl, rfl⟩

/-- **Calls that do not overlap have come one after the other.** -/
theorem serial_of_exclusive [DecidableEq ι] (hReady : calls.ended calls.ready = false) {turns : List ι}
    (hExec : exec (callStep calls) (calls.start start) turns = some s)
    (hExclusive : Along (callStep calls) (Exclusive calls) (calls.start start) turns)
    (hEnded : ∀ i, calls.ended (s.phase i) = true) :
    ∃ order, order.Nodup ∧ (∀ i, i ∈ order) ∧ Serially calls s.phase order start s.state := by
  have hKept : ∀ s i s', (∃ order t, SerialSoFar calls start s order t) → Exclusive calls s i →
      callStep calls s i = some s' → ∃ order t, SerialSoFar calls start s' order t := by
    rintro s i s' ⟨order, t, hSo⟩ hFree hStep
    exact serialSoFar_step hSo hFree hStep
  obtain ⟨order, t, hSo⟩ := invariant_exec hKept
    ⟨[], start, serialSoFar_start hReady start⟩ hExclusive hExec
  refine ⟨order, hSo.nodup, fun i => (hSo.mem_order i).mpr (hEnded i), ?_⟩
  rcases hSo.underWay with ⟨-, rfl⟩ | ⟨i, hBusy, -⟩
  · exact hSo.serially
  · exact absurd (.inr (hEnded i)) hBusy

end Lib
