import Mathlib.Data.List.Basic

/-!
# Procedures that may raise

A procedure works on a state and ends with a value or with an exception; what it
did to the state before it raised stays.

* `perform` — the outcome and the state after it, with one equation per construct;
* `Ensures` — what a procedure guarantees when it returns and when it raises, with
  one rule per construct;
* `Keeps` — an invariant of both ends, with the same rules.
-/

namespace Lib

theorem bind_ok {ε α β : Type} {x : Except ε α} {f : α → Except ε β} {b : β}
    (h : (x >>= f) = .ok b) : ∃ a, x = .ok a ∧ f a = .ok b := by
  cases x with
  | error e => cases h
  | ok a => exact ⟨a, rfl, h⟩

theorem map_ok {ε α β : Type} {x : Except ε α} {f : α → β} {b : β} (h : x.map f = .ok b) :
    ∃ a, x = .ok a ∧ b = f a := by
  cases x with
  | error e => cases h
  | ok a => exact ⟨a, rfl, (Except.ok.inj h).symm⟩

abbrev Procedure (ε σ α : Type) := ExceptT ε (StateM σ) α

namespace Procedure

variable {ε σ α β : Type}

def perform (p : Procedure ε σ α) (s : σ) : Except ε α × σ := StateT.run (ExceptT.run p) s

/-- Raise when the environment says so. -/
def raiseIf (b : Bool) (e : ε) : Procedure ε σ Unit := if b then throw e else pure ()

/-- `if b: p` -/
def runIf (b : Bool) (p : Procedure ε σ Unit) : Procedure ε σ Unit := if b then p else pure ()

/-- How a call to another side ends: one that raises has had its effect or not. -/
inductive CallEnd
  | ok
  | raisedBefore
  | raisedAfter
  deriving DecidableEq, Repr

/-- A procedure on a part of the state, its exceptions under other names. -/
def zoom {τ ε' : Type} (part : τ → σ) (put : σ → τ → τ) (rename : ε → ε') (p : Procedure ε σ α) :
    Procedure ε' τ α :=
  fun t => (Except.mapError rename (perform p (part t)).1, put (perform p (part t)).2 t)

/-- A call with the effect `f`. -/
def call (outcome : CallEnd) (e : ε) (f : σ → σ) : Procedure ε σ Unit :=
  match outcome with
  | .ok => modify f
  | .raisedBefore => throw e
  | .raisedAfter => do
    modify f
    throw e

/-! ## Equations -/

@[simp] theorem perform_pure (a : α) (s : σ) :
    perform (pure a : Procedure ε σ α) s = (.ok a, s) := rfl

@[simp] theorem perform_throw (e : ε) (s : σ) :
    perform (throw e : Procedure ε σ α) s = (.error e, s) := rfl

@[simp] theorem perform_get (s : σ) : perform (get : Procedure ε σ σ) s = (.ok s, s) := rfl

@[simp] theorem perform_modify (f : σ → σ) (s : σ) :
    perform (modify f : Procedure ε σ PUnit) s = (.ok ⟨⟩, f s) := rfl

@[simp] theorem perform_bind (p : Procedure ε σ α) (f : α → Procedure ε σ β) (s : σ) :
    perform (p >>= f) s =
      match perform p s with
      | (.ok a, t) => perform (f a) t
      | (.error e, t) => (.error e, t) := by
  unfold perform
  rw [ExceptT.run_bind, StateT.run_bind]
  rcases StateT.run (ExceptT.run p) s with ⟨_ | a, t⟩ <;> rfl

theorem perform_map (f : α → β) (p : Procedure ε σ α) (s : σ) :
    perform (f <$> p) s =
      match perform p s with
      | (.ok a, t) => (.ok (f a), t)
      | (.error e, t) => (.error e, t) := by
  rw [map_eq_pure_bind, perform_bind]
  rfl

@[simp] theorem perform_tryCatch (p : Procedure ε σ α) (h : ε → Procedure ε σ α) (s : σ) :
    perform (tryCatch p h) s =
      match perform p s with
      | (.ok a, t) => (.ok a, t)
      | (.error e, t) => perform (h e) t := by
  unfold perform
  rw [ExceptT.run_tryCatch, StateT.run_bind]
  rcases StateT.run (ExceptT.run p) s with ⟨_ | a, t⟩ <;> rfl

@[simp] theorem perform_ite (c : Prop) [Decidable c] (p q : Procedure ε σ α) (s : σ) :
    perform (if c then p else q) s = if c then perform p s else perform q s := by
  split <;> rfl

@[simp] theorem perform_raiseIf (b : Bool) (e : ε) (s : σ) :
    perform (raiseIf b e : Procedure ε σ Unit) s = (if b then .error e else .ok (), s) := by
  cases b <;> rfl

@[simp] theorem perform_call (outcome : CallEnd) (e : ε) (f : σ → σ) (s : σ) :
    perform (call outcome e f : Procedure ε σ Unit) s =
      match outcome with
      | .ok => (.ok (), f s)
      | .raisedBefore => (.error e, s)
      | .raisedAfter => (.error e, f s) := by
  cases outcome <;> rfl

@[simp] theorem perform_zoom {τ ε' : Type} (part : τ → σ) (put : σ → τ → τ) (rename : ε → ε')
    (p : Procedure ε σ α) (t : τ) :
    perform (zoom part put rename p) t =
      (Except.mapError rename (perform p (part t)).1, put (perform p (part t)).2 t) := rfl

/-! ## Pre- and postconditions -/

/-- `Q` at a return, `E` at an exception. -/
def Ends (Q : α → σ → Prop) (E : ε → σ → Prop) : Except ε α × σ → Prop
  | (.ok a, t) => Q a t
  | (.error e, t) => E e t

/-- From a state with `P`, `p` returns into `Q` or raises into `E`. -/
def Ensures (P : σ → Prop) (p : Procedure ε σ α) (Q : α → σ → Prop) (E : ε → σ → Prop) : Prop :=
  ∀ s, P s → Ends Q E (perform p s)

section

variable {P P' : σ → Prop} {p : Procedure ε σ α} {Q Q' : α → σ → Prop} {E E' : ε → σ → Prop}

theorem Ensures.mono (h : Ensures P p Q E) (hPre : ∀ s, P' s → P s) (hPost : ∀ a s, Q a s → Q' a s)
    (hRaise : ∀ e s, E e s → E' e s) : Ensures P' p Q' E' := by
  intro s hs
  have hEnd := h s (hPre s hs)
  generalize perform p s = result at hEnd ⊢
  obtain ⟨e | a, t⟩ := result
  · exact hRaise e t hEnd
  · exact hPost a t hEnd

/-- From a state with `P`, `p` returns into `Q` unless it raises. -/
abbrev Returns (P : σ → Prop) (p : Procedure ε σ α) (Q : α → σ → Prop) : Prop :=
  Ensures P p Q fun _ _ => True

theorem Ensures.returns (h : Ensures P p Q E) : Returns P p Q :=
  h.mono (fun _ hs => hs) (fun _ _ hs => hs) fun _ _ _ => trivial

/-- What holds at both ends holds of the state that is left. -/
theorem Ensures.state {I : σ → Prop} (h : Ensures P p (fun _ => I) (fun _ => I)) {s : σ}
    (hs : P s) : I (perform p s).2 := by
  have hEnd := h s hs
  generalize perform p s = result at hEnd ⊢
  obtain ⟨_ | a, t⟩ := result <;> exact hEnd

theorem Ensures.of_pre (h : ∀ s, P s → Ensures (· = s) p Q E) : Ensures P p Q E :=
  fun s hs => h s hs s rfl

theorem ensures_trivial (p : Procedure ε σ α) :
    Ensures P p (fun _ _ => True) (fun _ _ => True) := by
  intro s _
  rcases perform p s with ⟨_ | a, t⟩ <;> trivial

theorem Ensures.and {P₁ : σ → Prop} {Q₁ : α → σ → Prop} {E₁ : ε → σ → Prop}
    (h : Ensures P p Q E) (h₁ : Ensures P₁ p Q₁ E₁) :
    Ensures (fun s => P s ∧ P₁ s) p (fun a s => Q a s ∧ Q₁ a s) (fun e s => E e s ∧ E₁ e s) := by
  rintro s ⟨hs, hs₁⟩
  have hEnd := h s hs
  have hEnd₁ := h₁ s hs₁
  generalize perform p s = result at hEnd hEnd₁ ⊢
  obtain ⟨e | a, t⟩ := result <;> exact ⟨hEnd, hEnd₁⟩

theorem ensures_pure {a : α} (h : ∀ s, P s → Q a s) : Ensures P (pure a : Procedure ε σ α) Q E :=
  fun s hs => h s hs

theorem ensures_throw {e : ε} (h : ∀ s, P s → E e s) : Ensures P (throw e : Procedure ε σ α) Q E :=
  fun s hs => h s hs

theorem ensures_modify {f : σ → σ} {Q : PUnit → σ → Prop} (h : ∀ s, P s → Q ⟨⟩ (f s)) :
    Ensures P (modify f : Procedure ε σ PUnit) Q E :=
  fun s hs => h s hs

theorem ensures_get {Q : σ → σ → Prop} (h : ∀ s, P s → Q s s) :
    Ensures P (get : Procedure ε σ σ) Q E :=
  fun s hs => h s hs

/-- Past a guard its condition is known. -/
theorem ensures_raiseIf {b : Bool} {e : ε} :
    Ensures P (raiseIf b e : Procedure ε σ Unit) (fun _ s => P s ∧ b = false)
      (fun _ s => P s ∧ b = true) := by
  intro s hs
  cases b <;> exact ⟨hs, rfl⟩

theorem ensures_runIf {b : Bool} {p : Procedure ε σ Unit} {Q : Unit → σ → Prop}
    (hp : b = true → Ensures P p Q E) (h : ∀ s, P s → b = false → Q () s) :
    Ensures P (runIf b p) Q E := by
  cases b
  · exact ensures_pure fun s hs => h s hs rfl
  · exact hp rfl

theorem Ensures.bind {R : α → σ → Prop} {f : α → Procedure ε σ β} {S : β → σ → Prop}
    (hp : Ensures P p R E) (hf : ∀ a, Ensures (R a) (f a) S E) : Ensures P (p >>= f) S E := by
  intro s hs
  have hFirst := hp s hs
  rw [perform_bind]
  generalize perform p s = result at hFirst ⊢
  obtain ⟨e | a, t⟩ := result
  · exact hFirst
  · exact hf a t hFirst

theorem ensures_call {f : σ → σ} {outcome : CallEnd} {e : ε} {Q : Unit → σ → Prop}
    (hOk : ∀ s, P s → Q () (f s)) (hBefore : ∀ s, P s → E e s) (hAfter : ∀ s, P s → E e (f s)) :
    Ensures P (call outcome e f : Procedure ε σ Unit) Q E := by
  intro s hs
  cases outcome
  · exact hOk s hs
  · exact hBefore s hs
  · exact hAfter s hs

/-- On a part of the state: `Q` and `E` speak of the part as it was and as it is. -/
theorem ensures_zoom {τ ε' : Type} {part : τ → σ} {put : σ → τ → τ} {rename : ε → ε'}
    {P : τ → Prop} {Q : α → τ → Prop} {E : ε' → τ → Prop}
    (h : ∀ t, P t → Ensures (· = part t) p (fun a s => Q a (put s t))
      (fun e s => E (rename e) (put s t))) :
    Ensures P (zoom part put rename p) Q E := by
  intro t ht
  have hEnd := h t ht (part t) rfl
  rw [perform_zoom]
  generalize perform p (part t) = result at hEnd ⊢
  obtain ⟨e | a, s⟩ := result <;> exact hEnd

/-- A loop: `R done` holds once the elements `done` have had their round. -/
theorem ensures_forM {xs : List β} {f : β → Procedure ε σ PUnit} {R : List β → σ → Prop}
    (h : ∀ done x, Ensures (R done) (f x) (fun _ => R (done ++ [x])) E) :
    Ensures (R []) (xs.forM f) (fun _ => R xs) E := by
  suffices hFrom : ∀ done, Ensures (R done) (xs.forM f) (fun _ => R (done ++ xs)) E from hFrom []
  induction xs with
  | nil =>
    intro done
    rw [List.append_nil]
    exact ensures_pure fun _ hs => hs
  | cons x xs ih =>
    intro done
    refine Ensures.bind (h done x) fun _ => ?_
    have hRest := ih (done ++ [x])
    rwa [← List.append_cons] at hRest

/-- `try: p except: h` -/
theorem Ensures.tryCatch {R : ε → σ → Prop} {h : ε → Procedure ε σ α} (hp : Ensures P p Q R)
    (hh : ∀ e, Ensures (R e) (h e) Q E) : Ensures P (tryCatch p h) Q E := by
  intro s hs
  have hFirst := hp s hs
  rw [perform_tryCatch]
  generalize perform p s = result at hFirst ⊢
  obtain ⟨e | a, t⟩ := result
  · exact hh e t hFirst
  · exact hFirst

end

/-! ## Invariants -/

/-- `p` keeps `I`, whether it returns or raises, and raises only exceptions of `K`. -/
def Keeps (I : σ → Prop) (K : ε → Prop) (p : Procedure ε σ α) : Prop :=
  Ensures I p (fun _ => I) (fun e s => I s ∧ K e)

section

variable {I : σ → Prop} {K K' : ε → Prop} {p : Procedure ε σ α}

theorem Keeps.ensures (h : Keeps I K p) : Ensures I p (fun _ => I) (fun _ => I) :=
  h.mono (fun _ hs => hs) (fun _ _ hs => hs) (fun _ _ hs => hs.1)

theorem keeps_pure (a : α) : Keeps I K (pure a : Procedure ε σ α) := ensures_pure fun _ hs => hs

theorem keeps_throw {e : ε} (he : K e) : Keeps I K (throw e : Procedure ε σ α) :=
  ensures_throw fun _ hs => ⟨hs, he⟩

theorem keeps_get : Keeps I K (get : Procedure ε σ σ) := fun _ hs => hs

theorem keeps_modify {f : σ → σ} (h : ∀ s, I s → I (f s)) :
    Keeps I K (modify f : Procedure ε σ PUnit) := ensures_modify h

theorem keeps_raiseIf {b : Bool} {e : ε} (he : K e) :
    Keeps I K (raiseIf b e : Procedure ε σ Unit) := by
  cases b
  · exact keeps_pure ()
  · exact keeps_throw he

theorem Keeps.bind {f : α → Procedure ε σ β} (hp : Keeps I K p) (hf : ∀ a, Keeps I K (f a)) :
    Keeps I K (p >>= f) := Ensures.bind hp hf

theorem keeps_call {f : σ → σ} {outcome : CallEnd} {e : ε} (he : K e) (h : ∀ s, I s → I (f s)) :
    Keeps I K (call outcome e f : Procedure ε σ Unit) := by
  cases outcome
  · exact keeps_modify h
  · exact keeps_throw he
  · exact Keeps.bind (keeps_modify h) fun _ => keeps_throw he

theorem Keeps.tryCatch {h : ε → Procedure ε σ α} (hp : Keeps I K p)
    (hh : ∀ e, K e → Keeps I K' (h e)) : Keeps I K' (tryCatch p h) :=
  Ensures.tryCatch hp fun e s hs => hh e hs.2 s hs.1

theorem keeps_runIf {q : Procedure ε σ Unit} {b : Bool} (hq : Keeps I K q) :
    Keeps I K (runIf b q) := by
  cases b
  · exact keeps_pure ()
  · exact hq

/-- A loop keeps what each round keeps. -/
theorem keeps_forM {xs : List β} {f : β → Procedure ε σ PUnit}
    (h : ∀ x ∈ xs, Keeps I K (f x)) : Keeps I K (xs.forM f) := by
  induction xs with
  | nil => exact keeps_pure PUnit.unit
  | cons x xs ih =>
    rw [List.forall_mem_cons] at h
    exact Keeps.bind h.1 fun _ => ih h.2

end

/-! ## Whether a procedure returns -/

/-- `p` keeps `I`, and it returns exactly when `b` is true. -/
def Checks (I : σ → Prop) (b : Bool) (p : Procedure ε σ α) : Prop :=
  Ensures I p (fun _ s => I s ∧ b = true) (fun _ s => I s ∧ b = false)

section

variable {I : σ → Prop} {b c : Bool} {p : Procedure ε σ α}

theorem Checks.congr (h : Checks I b p) (hb : b = c) : Checks I c p := hb ▸ h

theorem checks_pure (a : α) : Checks I true (pure a : Procedure ε σ α) :=
  ensures_pure fun _ hs => ⟨hs, rfl⟩

theorem checks_raiseIf {e : ε} : Checks I (!b) (raiseIf b e : Procedure ε σ Unit) := by
  intro s hs
  cases b <;> exact ⟨hs, rfl⟩

theorem checks_modify {f : σ → σ} (h : ∀ s, I s → I (f s)) :
    Checks I true (modify f : Procedure ε σ PUnit) :=
  ensures_modify fun s hs => ⟨h s hs, rfl⟩

/-- One step after the other: both have to return. -/
theorem Checks.bind {f : α → Procedure ε σ β} (hp : Checks I b p) (hf : ∀ a, Checks I c (f a)) :
    Checks I (b && c) (p >>= f) := by
  refine Ensures.bind (R := fun _ s => I s ∧ b = true) ?_ fun a => ?_
  · refine hp.mono (fun _ hs => hs) (fun _ _ hs => hs) fun _ s hs => ⟨hs.1, ?_⟩
    rw [hs.2, Bool.false_and]
  · refine Ensures.of_pre fun s hs => ?_
    refine (hf a).mono (fun t ht => ht ▸ hs.1) (fun _ t ht => ⟨ht.1, ?_⟩) fun _ t ht => ⟨ht.1, ?_⟩
    · rw [hs.2, ht.2, Bool.and_self]
    · rw [ht.2, Bool.and_false]

end

end Procedure

end Lib
