import Mathlib

/-!
# Texts of 16-bit units

A text is a list of 16-bit units of any kind, as in UTF-16 but with surrogates that need not
be paired. It is read in characters: a high surrogate and the low surrogate behind it are
one, and every other unit is a character for itself.
-/

namespace Utf16

/-- A text of 16-bit units. -/
abbrev Text := List UInt16

def IsHigh (unit : UInt16) : Prop := 0xd800 ≤ unit.toNat ∧ unit.toNat ≤ 0xdbff

def IsLow (unit : UInt16) : Prop := 0xdc00 ≤ unit.toNat ∧ unit.toNat ≤ 0xdfff

instance (unit : UInt16) : Decidable (IsHigh unit) := inferInstanceAs (Decidable (_ ∧ _))

instance (unit : UInt16) : Decidable (IsLow unit) := inferInstanceAs (Decidable (_ ∧ _))

/-- The characters of a text. -/
def characters : Text → List Text
  | [] => []
  | [unit] => [[unit]]
  | unit :: next :: rest =>
      if IsHigh unit ∧ IsLow next then [unit, next] :: characters rest
      else [unit] :: characters (next :: rest)

/-- The code point of a character. -/
def codePoint : Text → Option Nat
  | [] => none
  | [unit] => some unit.toNat
  | unit :: next :: _ =>
      if IsHigh unit ∧ IsLow next then
        some ((unit.toNat - 0xd800) * 0x400 + (next.toNat - 0xdc00) + 0x10000)
      else some unit.toNat

/-- The units of a code point. -/
def encode (codePoint : Nat) : Text :=
  if codePoint < 0x10000 then [.ofNat codePoint]
  else [.ofNat (0xd800 + (codePoint - 0x10000) / 0x400),
    .ofNat (0xdc00 + (codePoint - 0x10000) % 0x400)]

/-- The units of a string. -/
def ofString (text : String) : Text := text.toList.flatMap fun c => encode c.toNat

/-- The texts that are characters. -/
inductive IsCharacter : Text → Prop where
  | unit (unit : UInt16) : IsCharacter [unit]
  | pair {high low : UInt16} : IsHigh high → IsLow low → IsCharacter [high, low]

variable {text rest character : Text} {unit : UInt16}

@[simp] theorem characters_nil : characters [] = [] := by rw [characters]

/-- A unit is a character for itself when it and the next one are no pair. -/
theorem characters_cons (alone : ∀ next ∈ rest.head?, ¬ (IsHigh unit ∧ IsLow next)) :
    characters (unit :: rest) = [unit] :: characters rest := by
  cases rest with
  | nil => rw [characters, characters]
  | cons next rest => rw [characters, if_neg (alone next rfl)]

theorem characters_pair {high low : UInt16} (first : IsHigh high) (second : IsLow low) :
    characters (high :: low :: rest) = [high, low] :: characters rest := by
  rw [characters, if_pos ⟨first, second⟩]

/-- Plain units are characters, whatever follows. -/
theorem characters_append (plain : ∀ unit ∈ text, ¬ IsHigh unit) :
    characters (text ++ rest) = text.map (fun unit => [unit]) ++ characters rest := by
  induction text with
  | nil => rfl
  | cons unit text ih =>
      obtain ⟨first, others⟩ := List.forall_mem_cons.mp plain
      rw [List.cons_append, characters_cons fun next _ pair => first pair.1, ih others]
      rfl

/-- Induction along the characters of a text. -/
theorem characters_induction {motive : Text → Prop} (nil : motive [])
    (unit : ∀ unit, motive [unit])
    (pair : ∀ unit next rest, IsHigh unit ∧ IsLow next → motive rest →
      motive (unit :: next :: rest))
    (alone : ∀ unit next rest, ¬ (IsHigh unit ∧ IsLow next) → motive (next :: rest) →
      motive (unit :: next :: rest)) (text : Text) : motive text := by
  induction text using characters.induct with
  | case1 => exact nil
  | case2 single => exact unit single
  | case3 high low rest paired ih => exact pair high low rest paired ih
  | case4 first next rest unpaired ih => exact alone first next rest unpaired ih

/-- The characters of a text make up the text. -/
theorem flatten_characters : (characters text).flatten = text := by
  induction text using characters_induction with
  | nil => rfl
  | unit unit => rw [characters]; rfl
  | pair unit next rest pair ih =>
      rw [characters_pair pair.1 pair.2, List.flatten_cons, ih]
      rfl
  | alone unit next rest alone ih =>
      rw [characters, if_neg alone, List.flatten_cons, ih]
      rfl

theorem isCharacter_of_mem (member : character ∈ characters text) : IsCharacter character := by
  induction text using characters_induction with
  | nil => cases member
  | unit unit =>
      rw [characters, List.mem_singleton] at member
      exact member ▸ .unit unit
  | pair unit next rest pair ih =>
      rw [characters_pair pair.1 pair.2] at member
      obtain rfl | later := List.mem_cons.mp member
      · exact .pair pair.1 pair.2
      · exact ih later
  | alone unit next rest alone ih =>
      rw [characters, if_neg alone] at member
      obtain rfl | later := List.mem_cons.mp member
      · exact .unit unit
      · exact ih later

namespace IsCharacter

theorem length_le (h : IsCharacter character) : character.length ≤ 2 := by
  cases h <;> simp

/-- A character has a code point, which has the units of the character. -/
theorem codePoint (h : IsCharacter character) :
    ∃ point, Utf16.codePoint character = some point ∧ point < 0x110000 ∧
      encode point = character := by
  cases h with
  | unit unit =>
      refine ⟨unit.toNat, rfl, unit.toNat_lt.trans (by decide), ?_⟩
      rw [encode, if_pos unit.toNat_lt, UInt16.ofNat_toNat]
  | @pair high low first second =>
      refine ⟨_, if_pos ⟨first, second⟩, ?_, ?_⟩
      · obtain ⟨_, most⟩ := first
        obtain ⟨_, most'⟩ := second
        omega
      · obtain ⟨least, most⟩ := first
        obtain ⟨least', most'⟩ := second
        have quotient : ((high.toNat - 0xd800) * 0x400 + (low.toNat - 0xdc00) + 0x10000 -
            0x10000) / 0x400 = high.toNat - 0xd800 := by omega
        have remainder : ((high.toNat - 0xd800) * 0x400 + (low.toNat - 0xdc00) + 0x10000 -
            0x10000) % 0x400 = low.toNat - 0xdc00 := by omega
        rw [encode, if_neg (by omega), quotient, remainder, Nat.add_sub_cancel' least,
          Nat.add_sub_cancel' least', UInt16.ofNat_toNat, UInt16.ofNat_toNat]

end IsCharacter

end Utf16
