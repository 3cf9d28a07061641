import Mathlib.Data.List.Basic

/-!
# Runs of a labelled transition system

A system is a partial step function `step : σ → α → Option σ`: `none` says that
the action is not enabled. All choice lies in the action, so a run is given by
its list of actions.

* `exec` — the state a run ends in;
* `Along` — a property of every step of a run;
* `invariant_exec` — the induction rule: what every step under a guard
  preserves holds at the end of a run that keeps the guard;
* `along_congr` — two properties of steps that an invariant identifies hold
  along the same runs;
* `along_iff_of_step` — a property of the last state that tells whether every step
  had a property;
* `exec_filter` — actions that a simulation does not see can be left out of a run;
* `outputs` — what the steps of a run give out, and `exec_outputs`: a run refines another
  system that takes these outputs for its actions.
-/

namespace Lib

/-- Two parties, or two operations. -/
instance neZeroTwo : @NeZero ℕ Zero.ofOfNat0 2 := ⟨Nat.succ_ne_zero 1⟩

variable {σ α : Type}

def exec (step : σ → α → Option σ) : σ → List α → Option σ
  | s, [] => some s
  | s, a :: as => (step s a).bind fun s' => exec step s' as

/-- `P` holds of every step that the run takes. -/
def Along (step : σ → α → Option σ) (P : σ → α → Prop) : σ → List α → Prop
  | _, [] => True
  | s, a :: as => P s a ∧ ∀ s', step s a = some s' → Along step P s' as

section

variable {step : σ → α → Option σ} {Inv : σ → Prop} {P Q G : σ → α → Prop} {s s' t : σ} {a : α}
  {as bs : List α}

@[simp] theorem exec_nil (s : σ) : exec step s [] = some s := rfl

theorem exec_cons_iff :
    exec step s (a :: as) = some t ↔ ∃ u, step s a = some u ∧ exec step u as = some t := by
  simp [exec, Option.bind_eq_some_iff]

theorem exec_append_iff :
    exec step s (as ++ bs) = some t ↔ ∃ u, exec step s as = some u ∧ exec step u bs = some t := by
  induction as generalizing s with
  | nil => simp
  | cons a as ih => simp only [List.cons_append, exec_cons_iff, ih]; grind

/-- **Induction along a guarded run.** -/
theorem invariant_exec (hStep : ∀ s a s', Inv s → P s a → step s a = some s' → Inv s')
    {s t : σ} {as : List α} (hInv : Inv s) (hAlong : Along step P s as)
    (hExec : exec step s as = some t) : Inv t := by
  induction as generalizing s with
  | nil =>
    rw [exec_nil] at hExec
    exact Option.some.inj hExec ▸ hInv
  | cons a as ih =>
    obtain ⟨u, hu, hut⟩ := exec_cons_iff.mp hExec
    exact ih (hStep s a u hInv hAlong.1 hu) (hAlong.2 u hu) hut

theorem along_of_forall (h : ∀ a ∈ as, ∀ s, P s a) (s : σ) : Along step P s as := by
  induction as generalizing s with
  | nil => trivial
  | cons a as ih =>
    rw [List.forall_mem_cons] at h
    exact ⟨h.1 s, fun s' _ => ih h.2 s'⟩

theorem Along.mono (hPQ : ∀ s a, P s a → Q s a) (h : Along step P s as) : Along step Q s as := by
  induction as generalizing s with
  | nil => trivial
  | cons a as ih => exact ⟨hPQ s a h.1, fun s' hs' => ih (h.2 s' hs')⟩

theorem Along.and (hP : Along step P s as) (hQ : Along step Q s as) :
    Along step (fun s a => P s a ∧ Q s a) s as := by
  induction as generalizing s with
  | nil => trivial
  | cons a as ih => exact ⟨⟨hP.1, hQ.1⟩, fun s' hs' => ih (hP.2 s' hs') (hQ.2 s' hs')⟩

/-- A property of every step is one of the step in the middle. -/
theorem Along.at (h : Along step P s (as ++ a :: bs)) (hExec : exec step s as = some t) :
    P t a := by
  induction as generalizing s with
  | nil =>
    rw [exec_nil] at hExec
    exact Option.some.inj hExec ▸ h.1
  | cons b as ih =>
    obtain ⟨u, hu, hut⟩ := exec_cons_iff.mp hExec
    exact ih (h.2 u hu) hut

/-- A property of every step is one of the steps of the rest. -/
theorem Along.rest (h : Along step P s (as ++ bs)) (hExec : exec step s as = some t) :
    Along step P t bs := by
  induction as generalizing s with
  | nil =>
    rw [exec_nil] at hExec
    exact Option.some.inj hExec ▸ h
  | cons b as ih =>
    obtain ⟨u, hu, hut⟩ := exec_cons_iff.mp hExec
    exact ih (h.2 u hu) hut

theorem Along.past (h : Along step P s (as ++ bs)) : Along step P s as := by
  induction as generalizing s with
  | nil => trivial
  | cons b as ih => exact ⟨h.1, fun s' hs' => ih (h.2 s' hs')⟩

instance decidableAlong {P : σ → α → Prop} [∀ s a, Decidable (P s a)] :
    ∀ (s : σ) (as : List α), Decidable (Along step P s as)
  | _, [] => inferInstanceAs (Decidable True)
  | s, a :: as =>
    match h : step s a with
    | none => decidable_of_iff (P s a) ⟨fun hP => ⟨hP, fun s' hs' => by simp [h] at hs'⟩, And.left⟩
    | some t =>
      have : Decidable (Along step P t as) := decidableAlong t as
      decidable_of_iff (P s a ∧ Along step P t as)
        ⟨fun hP => ⟨hP.1, fun s' hs' => Option.mem_unique h hs' ▸ hP.2⟩,
          fun hP => ⟨hP.1, hP.2 t h⟩⟩

theorem along_true (s : σ) (as : List α) : Along step (fun _ _ => True) s as :=
  along_of_forall (fun _ _ _ => trivial) s

/-- What holds of every guarded step from a state of the invariant holds along a run that
keeps the guard. -/
theorem along_of_guard (hStep : ∀ s a s', Inv s → G s a → step s a = some s' → Inv s')
    (hP : ∀ s a, Inv s → G s a → P s a) (hInv : Inv s) (hAlong : Along step G s as) :
    Along step P s as := by
  induction as generalizing s with
  | nil => trivial
  | cons a as ih =>
    refine ⟨hP s a hInv hAlong.1, ?_⟩
    intro s' hs'
    exact ih (hStep s a s' hInv hAlong.1 hs') (hAlong.2 s' hs')

theorem along_of_guarded (hStep : ∀ s a s', Inv s → G s a → step s a = some s' → Inv s')
    (hP : ∀ s a, Inv s → P s a) (hInv : Inv s) (hAlong : Along step G s as) : Along step P s as :=
  along_of_guard hStep (fun s a h _ => hP s a h) hInv hAlong

/-- What every step under a guard preserves holds after each step of a run that keeps
the guard. -/
theorem along_preserved (hStep : ∀ s a s', Inv s → G s a → step s a = some s' → Inv s')
    (hInv : Inv s) (hAlong : Along step G s as) :
    Along step (fun s a => ∀ s', step s a = some s' → Inv s') s as :=
  along_of_guard hStep (fun s a h hG s' => hStep s a s' h hG) hInv hAlong

theorem along_of_invariant (hStep : ∀ s a s', Inv s → step s a = some s' → Inv s')
    (hP : ∀ s a, Inv s → P s a) (hInv : Inv s) (as : List α) : Along step P s as :=
  along_of_guarded (fun s a s' h _ => hStep s a s' h) hP hInv (along_true s as)

/-- What a step cannot bring about held before each step if it holds at the end. -/
theorem along_of_final {Good : σ → Prop} (hBack : ∀ s a s', step s a = some s' → Good s' → Good s)
    (hExec : exec step s as = some t) (hGood : Good t) :
    Good s ∧ Along step (fun s a => ∀ s', step s a = some s' → Good s') s as := by
  induction as generalizing s with
  | nil =>
    rw [exec_nil] at hExec
    exact ⟨Option.some.inj hExec ▸ hGood, trivial⟩
  | cons a as ih =>
    obtain ⟨u, hu, hut⟩ := exec_cons_iff.mp hExec
    obtain ⟨hGoodU, hRest⟩ := ih hut
    have hOnly : ∀ s', step s a = some s' → s' = u := fun s' hs' =>
      Option.mem_unique hs' hu
    refine ⟨hBack s a u hu hGoodU, fun s' hs' => hOnly s' hs' ▸ hGoodU, ?_⟩
    intro s' hs'
    exact hOnly s' hs' ▸ hRest

/-- **A verdict read off the last state.** When each step turns `K` into `K` and `P`,
the last state has `K` exactly when the first had it and the run kept `P`. -/
theorem along_iff_of_step {K : σ → Prop}
    (hStep : ∀ s a s', Inv s → G s a → step s a = some s' → Inv s' ∧ (K s' ↔ K s ∧ P s a))
    (hInv : Inv s) (hGuard : Along step G s as) (hExec : exec step s as = some t) :
    K t ↔ K s ∧ Along step P s as := by
  induction as generalizing s with
  | nil =>
    rw [exec_nil] at hExec
    cases hExec
    exact (and_iff_left trivial).symm
  | cons a as ih =>
    obtain ⟨u, hu, hut⟩ := exec_cons_iff.mp hExec
    obtain ⟨hInvU, hIff⟩ := hStep s a u hInv hGuard.1 hu
    have hRest : (∀ s', step s a = some s' → Along step P s' as) ↔ Along step P u as := by
      constructor
      · exact fun h => h u hu
      · intro h s' hs'
        rwa [Option.mem_unique hs' hu]
    rw [ih hInvU (hGuard.2 u hu) hut, hIff, Along, hRest, and_assoc]

/-- **Erasure.** A run without the actions that a simulation does not see reaches a
related state. -/
theorem exec_filter {R : σ → σ → Prop} {keep : α → Bool}
    (hErase : ∀ s a s' t, R s t → P s a → keep a = false → step s a = some s' → R s' t)
    (hMatch : ∀ s a s' t, R s t → keep a = true → step s a = some s' → ∃ t', step t a = some t' ∧
      R s' t') (hR : R s t) (hAlong : Along step P s as) (hExec : exec step s as = some s') :
    ∃ t', exec step t (as.filter keep) = some t' ∧ R s' t' := by
  induction as generalizing s t with
  | nil =>
    rw [exec_nil] at hExec
    exact ⟨t, rfl, Option.some.inj hExec ▸ hR⟩
  | cons a as ih =>
    obtain ⟨u, hu, hus'⟩ := exec_cons_iff.mp hExec
    cases hKeep : keep a with
    | false =>
      rw [List.filter_cons_of_neg (by simp [hKeep])]
      exact ih (hErase s a u t hR hAlong.1 hKeep hu) (hAlong.2 u hu) hus'
    | true =>
      obtain ⟨v, hv, hRv⟩ := hMatch s a u t hR hKeep hu
      obtain ⟨t', ht', hR'⟩ := ih hRv (hAlong.2 u hu) hus'
      rw [List.filter_cons_of_pos hKeep]
      exact ⟨t', exec_cons_iff.mpr ⟨v, hv, ht'⟩, hR'⟩

/-- Induction along an unguarded run. -/
theorem invariant_of_exec (hStep : ∀ s a s', Inv s → step s a = some s' → Inv s')
    {s t : σ} {as : List α} (hInv : Inv s) (hExec : exec step s as = some t) : Inv t :=
  invariant_exec (fun s a s' h _ => hStep s a s' h) hInv (along_true s as) hExec

/-- Induction along a run over the elements of a list. -/
theorem invariant_exec_mem (hStep : ∀ s a s', a ∈ as → Inv s → step s a = some s' → Inv s')
    (hInv : Inv s) (hExec : exec step s as = some t) : Inv t :=
  invariant_exec (P := fun _ a => a ∈ as) (fun s a s' h hMem => hStep s a s' hMem h) hInv
    (along_of_forall (fun _ hMem _ => hMem) s) hExec

theorem foldlM_eq_exec (s : σ) (as : List α) : as.foldlM step s = exec step s as := by
  induction as generalizing s with
  | nil => rfl
  | cons a as ih =>
    rw [List.foldlM_cons, exec]
    exact congrArg _ (funext fun s' => ih s')

/-- Two properties of a step that `Inv` identifies hold along the same runs, when
steps with the property keep `Inv`. Only the actions of the run matter. -/
theorem along_congr_on (hIff : ∀ a ∈ as, ∀ s, Inv s → (P s a ↔ Q s a))
    (hStep : ∀ a ∈ as, ∀ s s', Inv s → P s a → step s a = some s' → Inv s') (hInv : Inv s) :
    Along step P s as ↔ Along step Q s as := by
  induction as generalizing s with
  | nil => exact Iff.rfl
  | cons a as ih =>
    rw [List.forall_mem_cons] at hIff hStep
    have hRest : ∀ s', P s a → step s a = some s' → (Along step P s' as ↔ Along step Q s' as) :=
      fun s' hP hs' => ih hIff.2 hStep.2 (hStep.1 s s' hInv hP hs')
    constructor
    · rintro ⟨hP, hAlong⟩
      exact ⟨(hIff.1 s hInv).mp hP, fun s' hs' => (hRest s' hP hs').mp (hAlong s' hs')⟩
    · rintro ⟨hQ, hAlong⟩
      have hP := (hIff.1 s hInv).mpr hQ
      exact ⟨hP, fun s' hs' => (hRest s' hP hs').mpr (hAlong s' hs')⟩

theorem along_congr (hIff : ∀ s a, Inv s → (P s a ↔ Q s a))
    (hStep : ∀ s a s', Inv s → P s a → step s a = some s' → Inv s') (hInv : Inv s) (as : List α) :
    Along step P s as ↔ Along step Q s as :=
  along_congr_on (fun a _ s => hIff s a) (fun a _ s => hStep s a) hInv

/-- What the steps of a run give out. -/
def outputs {β : Type} (step : σ → α → Option σ) (out : σ → α → List β) : σ → List α → List β
  | _, [] => []
  | s, a :: as => out s a ++ ((step s a).map fun s' => outputs step out s' as).getD []

section

variable {β τ : Type} {out : σ → α → List β}

theorem outputs_cons (hStep : step s a = some s') :
    outputs step out s (a :: as) = out s a ++ outputs step out s' as := by
  simp [outputs, hStep]

/-- **Refinement by outputs.** -/
theorem exec_outputs {spec : τ → β → Option τ} {abs : σ → τ}
    (hStep : ∀ s a s', Inv s → G s a → step s a = some s' → Inv s' ∧ exec spec (abs s) (out s a) =
      some (abs s')) (hInv : Inv s) (hAlong : Along step G s as) (hExec : exec step s as = some t) :
    exec spec (abs s) (outputs step out s as) = some (abs t) := by
  induction as generalizing s with
  | nil => exact congrArg (some <| abs ·) (Option.some.inj hExec)
  | cons a as ih =>
    obtain ⟨u, hu, hut⟩ := exec_cons_iff.mp hExec
    obtain ⟨hInvU, hSpec⟩ := hStep s a u hInv hAlong.1 hu
    rw [outputs_cons hu]
    exact exec_append_iff.mpr ⟨abs u, hSpec, ih hInvU (hAlong.2 u hu) hut⟩

theorem forall_mem_outputs {P : β → Prop} (hOut : ∀ s a, G s a → ∀ b ∈ out s a, P b)
    (hAlong : Along step G s as) : ∀ b ∈ outputs step out s as, P b := by
  induction as generalizing s with
  | nil => exact fun b hMem => absurd hMem List.not_mem_nil
  | cons a as ih =>
    intro b hMem
    rcases List.mem_append.mp hMem with hNow | hLater
    · exact hOut s a hAlong.1 b hNow
    · cases hStep : step s a with
      | none =>
        rw [hStep] at hLater
        exact absurd hLater List.not_mem_nil
      | some s' =>
        rw [hStep] at hLater
        exact ih (hAlong.2 s' hStep) b hLater

end

end

end Lib
