import Mathlib

/-!
# Codes that say where they end

A code is self-delimiting on some values when no text starts with the codes of two of them.
Texts put together from such codes can be taken apart again in one way only.
-/

/-- Of the valid values, at most one has a code that a text starts with. -/
def SelfDelimiting {α β : Type} (code : α → List β) (valid : α → Prop) : Prop :=
  ∀ a b, valid a → valid b → ∀ x y, code a ++ x = code b ++ y → a = b ∧ x = y

namespace SelfDelimiting

variable {α β γ δ : Type} {code : α → List β} {valid valid' : α → Prop} {a b : α} {x y : List β}

theorem eq (h : SelfDelimiting code valid) (first : valid a) (second : valid b)
    (same : code a ++ x = code b ++ y) : a = b ∧ x = y := h a b first second x y same

theorem injective (h : SelfDelimiting code valid) (first : valid a) (second : valid b)
    (same : code a = code b) : a = b :=
  (h a b first second [] [] (by rw [same])).1

/-- Codes of one length that tell the values apart. -/
theorem of_length {length : Nat} (fixed : ∀ a, valid a → (code a).length = length)
    (distinct : ∀ a b, valid a → valid b → code a = code b → a = b) :
    SelfDelimiting code valid := by
  intro a b first second x y same
  have lengths : (code a).length = (code b).length := (fixed a first).trans (fixed b second).symm
  obtain ⟨codes, rest⟩ := List.append_inj same lengths
  exact ⟨distinct a b first second codes, rest⟩

/-- A length in front of the values it counts. -/
theorem counted {header : Nat → List β} {fits : Nat → Prop} (h : SelfDelimiting header fits) :
    SelfDelimiting (fun values : List β => header values.length ++ values)
      fun values => fits values.length := by
  intro xs ys first second x y same
  simp only [List.append_assoc] at same
  obtain ⟨lengths, rest⟩ := h.eq first second same
  exact List.append_inj rest lengths

/-- A tag that says whether a value follows. -/
theorem tagged {absent present : β} (different : absent ≠ present) (h : SelfDelimiting code valid) :
    SelfDelimiting (fun value : Option α => value.elim [absent] fun a => present :: code a)
      fun value => ∀ a ∈ value, valid a := by
  intro first second valid_first valid_second x y same
  cases first with
  | none =>
      cases second with
      | none => exact ⟨rfl, List.append_cancel_left same⟩
      | some b => exact absurd (List.cons.inj same).1 different
  | some a =>
      cases second with
      | none => exact absurd (List.cons.inj same).1.symm different
      | some b =>
          obtain ⟨rfl, rest⟩ := h.eq (valid_first a rfl) (valid_second b rfl)
            (List.cons.inj same).2
          exact ⟨rfl, rest⟩

/-- A row of nonempty codes up to the end of the text. -/
theorem flatMap (h : SelfDelimiting code valid) (nonempty : ∀ a, valid a → code a ≠ [])
    {values values' : List α} (first : ∀ a ∈ values, valid a) (second : ∀ a ∈ values', valid a)
    (same : values.flatMap code = values'.flatMap code) : values = values' := by
  induction values generalizing values' with
  | nil =>
      cases values' with
      | nil => rfl
      | cons b values' =>
          have empty : code b = [] := (List.append_eq_nil_iff.mp same.symm).1
          exact absurd empty (nonempty b (second b (by simp)))
  | cons a values ih =>
      cases values' with
      | nil =>
          have empty : code a = [] := (List.append_eq_nil_iff.mp same).1
          exact absurd empty (nonempty a (first a (by simp)))
      | cons b values' =>
          obtain ⟨rfl, rest⟩ := h.eq (first a (by simp)) (second b (by simp)) same
          rw [ih (fun c member => first c (List.mem_cons_of_mem _ member))
            (fun c member => second c (List.mem_cons_of_mem _ member)) rest]

end SelfDelimiting
