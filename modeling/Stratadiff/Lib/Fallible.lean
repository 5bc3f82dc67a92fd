import Mathlib

/-!
# Fallible computations and machine-sized counters

A failure is a resource limit, an analysis budget shared by several computations,
or a rejected input; a verdict that a computation can fail only on resources is a
statement about this distinction. Counters are natural numbers, and the checked
operations fail where a 64-bit counter would overflow.
-/

inductive Failure where
  | limit (message : String)
  | budget (message : String)
  | invalid (message : String)
  deriving DecidableEq, Repr

/-- The message of a failure. -/
def Failure.text : Failure → String
  | .limit message => message
  | .budget message => message
  | .invalid message => message

/-- Put a message in front of a failure's own. -/
def Failure.withContext (context : String) : Failure → Failure
  | .limit message => .limit (context ++ message)
  | .budget message => .budget (context ++ message)
  | .invalid message => .invalid (context ++ message)

abbrev Result (α : Type) := Except Failure α

namespace Result

section

variable {ε α β : Type} {x : Except ε α} {f : α → Except ε β}

theorem bind_eq_ok {b : β} : (x >>= f) = .ok b ↔ ∃ a, x = .ok a ∧ f a = .ok b := by
  cases x with
  | error failure => simp [bind, Except.bind]
  | ok a => simp [bind, Except.bind]

/-- After a check nothing is left but its success. -/
theorem check_bind_eq_ok {x : Except ε Unit} {f : Unit → Except ε β} {b : β} :
    (x >>= f) = .ok b ↔ x = .ok () ∧ f () = .ok b := by
  rw [bind_eq_ok]
  constructor
  · rintro ⟨⟨⟩, checked, rest⟩
    exact ⟨checked, rest⟩
  · rintro ⟨checked, rest⟩
    exact ⟨(), checked, rest⟩

@[simp] theorem ok_bind (a : α) : ((.ok a : Except ε α) >>= f) = f a := rfl

@[simp] theorem error_bind (failure : ε) :
    ((.error failure : Except ε α) >>= f) = .error failure := rfl

@[simp] theorem pure_eq_ok {a b : α} : (pure a : Except ε α) = .ok b ↔ a = b := by
  simp [pure, Except.pure]

end

variable {α β : Type} {x : Result α} {f : α → Result β}

/-- Continue when the condition holds. -/
def ensure (condition : Prop) [Decidable condition] (failure : Failure) : Result Unit :=
  if condition then .ok () else .error failure

@[simp] theorem ensure_eq_ok {condition : Prop} [Decidable condition] {failure : Failure} :
    ensure condition failure = .ok () ↔ condition := by
  by_cases h : condition <;> simp [ensure, h]

theorem ensure_of {condition : Prop} [Decidable condition] {failure : Failure}
    (h : condition) : ensure condition failure = .ok () := if_pos h

/-- Turn an absent value into a failure. -/
def ofOption (failure : Failure) : Option α → Result α
  | some a => .ok a
  | none => .error failure

@[simp] theorem ofOption_some (failure : Failure) (a : α) :
    ofOption failure (some a) = .ok a := rfl

@[simp] theorem ofOption_none (failure : Failure) :
    ofOption failure (none : Option α) = .error failure := rfl

@[simp] theorem ofOption_eq_ok {failure : Failure} {o : Option α} {a : α} :
    ofOption failure o = .ok a ↔ o = some a := by
  cases o <;> simp [ofOption]

theorem ofOption_bind_eq_ok {failure : Failure} {o : Option α} {b : β} :
    (ofOption failure o >>= f) = .ok b ↔ ∃ a, o = some a ∧ f a = .ok b := by
  rw [bind_eq_ok]
  simp only [ofOption_eq_ok]

@[simp] theorem mapError_eq_ok {g : Failure → Failure} {a : α} :
    Except.mapError g x = .ok a ↔ x = .ok a := by
  cases x <;> simp [Except.mapError]

theorem mapM_forall₂ {g : α → Result β} {xs : List α} {ys : List β} (h : xs.mapM g = .ok ys) :
    List.Forall₂ (fun x y => g x = .ok y) xs ys := by
  induction xs generalizing ys with
  | nil =>
      rw [List.mapM_nil, pure_eq_ok] at h
      rw [← h]
      exact .nil
  | cons x xs ih =>
      rw [List.mapM_cons] at h
      obtain ⟨y, head, h⟩ := bind_eq_ok.mp h
      obtain ⟨rest, mapped, h⟩ := bind_eq_ok.mp h
      rw [pure_eq_ok] at h
      rw [← h]
      exact .cons head (ih mapped)

/-- Every result comes from an element. -/
theorem exists_of_mem_mapM {g : α → Result β} {xs : List α} {ys : List β}
    (h : xs.mapM g = .ok ys) {y : β} (member : y ∈ ys) : ∃ x ∈ xs, g x = .ok y := by
  have pairs := mapM_forall₂ h
  clear h
  induction pairs with
  | nil => cases member
  | cons here _ ih =>
      cases member with
      | head => exact ⟨_, List.mem_cons_self, here⟩
      | tail _ member =>
          obtain ⟨x, inside, same⟩ := ih member
          exact ⟨x, List.mem_cons_of_mem _ inside, same⟩

theorem forM_eq_ok {ε : Type} {g : α → Except ε Unit} {xs : List α} :
    xs.forM g = .ok () ↔ ∀ x ∈ xs, g x = .ok () := by
  induction xs with
  | nil => exact iff_of_true rfl fun _ member => absurd member List.not_mem_nil
  | cons x xs ih =>
      show (g x >>= fun _ => xs.forM g) = .ok () ↔ _
      rw [check_bind_eq_ok, ih, List.forall_mem_cons]

theorem mapM_length {g : α → Result β} {xs : List α} {ys : List β} (h : xs.mapM g = .ok ys) :
    ys.length = xs.length :=
  (mapM_forall₂ h).length_eq.symm

end Result

/-- The largest value of a 64-bit counter. -/
def usizeMax : Nat := 2 ^ 64 - 1

/-- The largest number of bytes one buffer can hold. -/
def isizeMax : Nat := 2 ^ 63 - 1

def checkedAdd (a b : Nat) : Option Nat := if a + b ≤ usizeMax then some (a + b) else none

def checkedSub (a b : Nat) : Option Nat := if b ≤ a then some (a - b) else none

def checkedMul (a b : Nat) : Option Nat := if a * b ≤ usizeMax then some (a * b) else none

def saturatingAdd (a b : Nat) : Nat := min (a + b) usizeMax

theorem checkedAdd_of_le {a b : Nat} (h : a + b ≤ usizeMax) : checkedAdd a b = some (a + b) :=
  if_pos h

theorem checkedAdd_eq_some {a b c : Nat} :
    checkedAdd a b = some c ↔ a + b ≤ usizeMax ∧ a + b = c := by
  unfold checkedAdd
  split <;> simp_all

theorem checkedSub_of_le {a b : Nat} (h : b ≤ a) : checkedSub a b = some (a - b) := if_pos h
