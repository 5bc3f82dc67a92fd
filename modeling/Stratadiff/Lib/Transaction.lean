import Mathlib

/-!
# Transactions

A transaction reads and writes a state and ends with a result, or fails; what it wrote
before a failure is not kept. `Commits x s post` says that `x` does not fail from `s`
and ends with `post`.
-/

/-- A computation over `σ` whose failure leaves nothing behind. -/
abbrev Transaction (σ α : Type) := StateT σ (Except String) α

namespace Transaction

variable {σ α β : Type}

/-- `x` succeeds from `s`, and `post` holds of its result and of the new state. -/
def Commits (x : Transaction σ α) (s : σ) (post : α → σ → Prop) : Prop :=
  ∃ a s', x s = .ok (a, s') ∧ post a s'

variable {x : Transaction σ α} {f : α → Transaction σ β} {s s' : σ} {post post' : α → σ → Prop}

/-- A transaction whose first part is known to succeed. -/
theorem bind_of_ok {a : α} (h : x s = .ok (a, s')) : (x >>= f) s = f a s' := by
  change Except.bind (x s) _ = _
  rw [h]
  rfl

theorem get_bind {f : σ → Transaction σ β} : (MonadState.get >>= f) s = f s s := rfl

namespace Commits

theorem of_eq {a : α} (run : x s = .ok (a, s')) (h : post a s') : Commits x s post :=
  ⟨a, s', run, h⟩

theorem mono (h : Commits x s post) (imp : ∀ a s, post a s → post' a s) : Commits x s post' := by
  obtain ⟨a, s', run, holds⟩ := h
  exact ⟨a, s', run, imp a s' holds⟩

theorem of_ok {a : α} (h : Commits x s post) (run : x s = .ok (a, s')) : post a s' := by
  obtain ⟨b, s'', run', holds⟩ := h
  rw [run] at run'
  cases run'
  exact holds

theorem pure {a : α} (h : post a s) : Commits (Pure.pure a) s post := ⟨a, s, rfl, h⟩

theorem bind {post : β → σ → Prop} (h : Commits x s fun a s' => Commits (f a) s' post) :
    Commits (x >>= f) s post := by
  obtain ⟨a, s', run, b, s'', run', holds⟩ := h
  refine ⟨b, s'', ?_, holds⟩
  change Except.bind (x s) _ = _
  rw [run]
  exact run'

theorem get {post : σ → σ → Prop} (h : post s s) :
    Commits (MonadState.get : Transaction σ σ) s post := ⟨s, s, rfl, h⟩

/-- The rule for loops: an invariant of what is left, what is accumulated, and the state. -/
theorem foldlM {γ : Type} {step : β → γ → Transaction σ β} (I : List γ → β → σ → Prop)
    {xs : List γ} {init : β} (start : I xs init s)
    (body : ∀ x rest acc s, I (x :: rest) acc s → Commits (step acc x) s (I rest)) :
    Commits (xs.foldlM step init) s (I []) := by
  induction xs generalizing init s with
  | nil => exact pure start
  | cons x xs ih =>
      rw [List.foldlM_cons]
      exact bind ((body x xs init s start).mono fun acc s' kept => ih kept)

end Commits

end Transaction
