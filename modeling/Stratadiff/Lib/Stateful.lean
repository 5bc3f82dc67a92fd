import Stratadiff.Lib.Fallible

/-!
# Stateful computations that may fail

A computation reads and writes a state and may fail; a failure keeps the state
reached so far, so a caller can recover from it. `Triple P x Q E` is the usual
partial-correctness triple with a second postcondition for failures.
-/

/-- A computation over a state `σ` that may fail. -/
abbrev Run (σ α : Type) := ExceptT Failure (StateM σ) α

namespace Run

variable {σ α β : Type}

/-- The result of a run from a state, and the state it leaves behind. -/
def outcome (x : Run σ α) (s : σ) : Result α × σ := StateT.run (ExceptT.run x) s

/-- A computation that does not use the state. -/
def lift (result : Result α) : Run σ α := fun s => (result, s)

/-- Run on a part of the state. -/
def zoom {τ : Type} (read : τ → σ) (write : σ → τ → τ) (x : Run σ α) : Run τ α := fun t =>
  ((outcome x (read t)).1, write (outcome x (read t)).2 t)

/-- Observe a failure instead of passing it on. -/
def observe (x : Run σ α) : Run σ (Result α) := fun s =>
  (.ok (outcome x s).1, (outcome x s).2)

/-- `x` run from a state with `P` ends in a state with `Q`, or fails in one with `E`. -/
def Triple (P : σ → Prop) (x : Run σ α) (Q : α → σ → Prop) (E : Failure → σ → Prop) : Prop :=
  ∀ s, P s → match outcome x s with
    | (.ok a, s') => Q a s'
    | (.error failure, s') => E failure s'

/-- `x` keeps an invariant, however it ends, and its result has a property. -/
abbrev Keeps (I : σ → Prop) (x : Run σ α) (Q : α → Prop) : Prop :=
  Triple I x (fun a s => I s ∧ Q a) (fun _ s => I s)

variable {P R : σ → Prop} {Q : α → σ → Prop} {E : Failure → σ → Prop} {x : Run σ α}

theorem outcome_bind (x : Run σ α) (f : α → Run σ β) (s : σ) :
    outcome (x >>= f) s = match outcome x s with
      | (.ok a, s') => outcome (f a) s'
      | (.error failure, s') => (.error failure, s') := by
  change StateT.run (ExceptT.run (x >>= f)) s = _
  simp only [outcome, ExceptT.run_bind]
  rw [StateT.run_bind]
  cases h : StateT.run (ExceptT.run x) s with
  | mk result s' => cases result <;> rfl

theorem outcome_lift (result : Result α) (s : σ) : outcome (lift result) s = (result, s) := rfl

theorem outcome_observe (x : Run σ α) (s : σ) :
    outcome (observe x) s = (.ok (outcome x s).1, (outcome x s).2) := rfl

theorem outcome_zoom {τ : Type} (read : τ → σ) (write : σ → τ → τ) (x : Run σ α) (t : τ) :
    outcome (zoom read write x) t = ((outcome x (read t)).1, write (outcome x (read t)).2 t) := rfl

namespace Triple

theorem pure {a : α} (h : ∀ s, P s → Q a s) : Triple P (Pure.pure a) Q E := h

theorem bind {f : α → Run σ β} {M : α → σ → Prop} {Q : β → σ → Prop}
    (first : Triple P x M E) (rest : ∀ a, Triple (M a) (f a) Q E) : Triple P (x >>= f) Q E := by
  intro s holds
  have middle := first s holds
  rw [outcome_bind]
  rcases hx : outcome x s with ⟨result, s'⟩
  rw [hx] at middle
  cases result with
  | ok a => exact rest a s' middle
  | error failure => exact middle

theorem weaken {P' : σ → Prop} {Q' : α → σ → Prop} {E' : Failure → σ → Prop}
    (h : Triple P' x Q' E') (pre : ∀ s, P s → P' s) (post : ∀ a s, Q' a s → Q a s)
    (failed : ∀ failure s, E' failure s → E failure s) : Triple P x Q E := by
  intro s holds
  have := h s (pre s holds)
  rcases hx : outcome x s with ⟨result, s'⟩
  rw [hx] at this
  cases result with
  | ok a => exact post a s' this
  | error failure => exact failed failure s' this

theorem lift {result : Result α} (ok : ∀ a, result = .ok a → ∀ s, P s → Q a s)
    (failed : ∀ failure, result = .error failure → ∀ s, P s → E failure s) :
    Triple P (Run.lift result) Q E := by
  intro s holds
  rw [outcome_lift]
  cases h : result with
  | ok a => exact ok a h s holds
  | error failure => exact failed failure h s holds

theorem get {Q : σ → σ → Prop} (h : ∀ s, P s → Q s s) :
    Triple P (MonadState.get : Run σ σ) Q E := h

theorem modify {f : σ → σ} {Q : Unit → σ → Prop} (h : ∀ s, P s → Q () (f s)) :
    Triple P (MonadStateOf.modifyGet (fun s => ((), f s)) : Run σ Unit) Q E := h

theorem observe {Q : Result α → σ → Prop}
    (h : Triple P x (fun a => Q (.ok a)) (fun failure => Q (.error failure))) :
    Triple P (Run.observe x) Q E := by
  intro s holds
  have := h s holds
  rw [outcome_observe]
  rcases hx : outcome x s with ⟨result, s'⟩
  rw [hx] at this
  cases result with
  | ok a => exact this
  | error failure => exact this

theorem zoom {τ : Type} {read : τ → σ} {write : σ → τ → τ} {P : τ → Prop} {Q : α → τ → Prop}
    {E : Failure → τ → Prop}
    (h : ∀ t, P t → Triple (fun s => s = read t) x (fun a s => Q a (write s t))
      (fun failure s => E failure (write s t))) : Triple P (Run.zoom read write x) Q E := by
  intro t holds
  have := h t holds (read t) rfl
  rw [outcome_zoom]
  rcases hx : outcome x (read t) with ⟨result, s'⟩
  rw [hx] at this
  cases result with
  | ok a => exact this
  | error failure => exact this

/-- What a triple says about a run that is known to succeed. -/
theorem of_ok {s s' : σ} {a : α} (h : Triple P x Q E) (holds : P s)
    (run : outcome x s = (.ok a, s')) : Q a s' := by
  have := h s holds
  rwa [run] at this

end Triple

/-! ## Invariants -/

namespace Keeps

variable {I : σ → Prop} {Q : α → Prop}

theorem pure {a : α} (h : Q a) : Keeps I (Pure.pure a) Q := Triple.pure fun _ kept => ⟨kept, h⟩

theorem bind {f : α → Run σ β} {M : α → Prop} {Q : β → Prop} (first : Keeps I x M)
    (rest : ∀ a, M a → Keeps I (f a) Q) : Keeps I (x >>= f) Q :=
  Triple.bind first fun a s holds => rest a holds.2 s holds.1

theorem mono {M : α → Prop} (h : Keeps I x M) (imp : ∀ a, M a → Q a) : Keeps I x Q :=
  Triple.weaken h (fun _ kept => kept) (fun a _ holds => ⟨holds.1, imp a holds.2⟩)
    (fun _ _ kept => kept)

theorem lift {result : Result α} (h : ∀ a, result = .ok a → Q a) : Keeps I (Run.lift result) Q :=
  Triple.lift (fun a ok _ kept => ⟨kept, h a ok⟩) (fun _ _ _ kept => kept)

theorem lift_bind {result : Result α} {f : α → Run σ β} {Q : β → Prop}
    (rest : ∀ a, result = .ok a → Keeps I (f a) Q) : Keeps I (Run.lift result >>= f) Q :=
  bind (lift fun _ ok => ok) rest

theorem get : Keeps I (MonadState.get : Run σ σ) I := Triple.get fun _ kept => ⟨kept, kept⟩

theorem modify {f : σ → σ} (h : ∀ s, I s → I (f s)) :
    Keeps I (MonadStateOf.modifyGet (fun s => ((), f s)) : Run σ Unit) fun _ => True :=
  Triple.modify fun s kept => ⟨h s kept, trivial⟩

/-- A loop keeps what its body keeps. -/
theorem mapM {f : α → Run σ β} {R : α → β → Prop} (body : ∀ a, Keeps I (f a) (R a))
    (xs : List α) : Keeps I (xs.mapM f) (List.Forall₂ R xs) := by
  induction xs with
  | nil =>
      rw [List.mapM_nil]
      exact pure .nil
  | cons x xs ih =>
      rw [List.mapM_cons]
      exact bind (body x) fun y first => bind ih fun ys rest => pure (.cons first rest)

theorem observe {M : α → Prop} (h : Keeps I x M) :
    Keeps I (Run.observe x) fun result => ∀ a, result = .ok a → M a := by
  refine Triple.observe (Triple.weaken h (fun _ kept => kept) ?_ ?_)
  · intro a s holds
    refine ⟨holds.1, fun b same => ?_⟩
    cases same
    exact holds.2
  · exact fun failure s kept => ⟨kept, fun a impossible => by cases impossible⟩

theorem zoom {τ : Type} {read : τ → σ} {write : σ → τ → τ} {J : τ → Prop}
    (h : Keeps I x Q) (enter : ∀ t, J t → I (read t)) (leave : ∀ s t, J t → I s → J (write s t)) :
    Keeps J (Run.zoom read write x) Q := by
  refine Triple.zoom fun t kept => Triple.weaken h ?_ ?_ ?_
  · rintro s rfl
    exact enter t kept
  · exact fun a s holds => ⟨leave s t kept holds.1, holds.2⟩
  · exact fun failure s kept' => leave s t kept kept'

theorem of_ok {s s' : σ} {a : α} (h : Keeps I x Q) (holds : I s)
    (run : outcome x s = (.ok a, s')) : I s' ∧ Q a := by
  have := Triple.of_ok h holds run
  exact this

theorem result {s : σ} {a : α} (h : Keeps I x Q) (holds : I s) (run : (outcome x s).1 = .ok a) :
    Q a :=
  (h.of_ok holds (Prod.ext run rfl)).2

end Keeps

end Run
