import Stratadiff.Lib.Json

/-!
# The size of a written value

How many bytes a JSON value takes when its texts need no escapes.
-/

/-- The bytes of a text in UTF-8. -/
def utf8Length (text : List Char) : Nat := (text.map Char.utf8Size).sum

@[simp] theorem utf8Length_nil : utf8Length [] = 0 := rfl

@[simp] theorem utf8Length_cons (c : Char) (text : List Char) :
    utf8Length (c :: text) = c.utf8Size + utf8Length text := rfl

@[simp] theorem utf8Length_append (left right : List Char) :
    utf8Length (left ++ right) = utf8Length left + utf8Length right := by
  rw [utf8Length, utf8Length, utf8Length, List.map_append, List.sum_append]

theorem size_utf8Encode (text : List Char) : text.utf8Encode.size = utf8Length text := by
  induction text with
  | nil => rfl
  | cons c text ih =>
      rw [List.utf8Encode_cons, ByteArray.size_append, ih, utf8Length_cons,
        List.utf8Encode_singleton, List.size_toByteArray, String.length_utf8EncodeChar]

theorem utf8ByteSize_ofList (text : List Char) :
    (String.ofList text).utf8ByteSize = utf8Length text := by
  rw [← size_utf8Encode, ← String.toByteArray_ofList]
  rfl

theorem utf8Length_toList (text : String) : utf8Length text.toList = text.utf8ByteSize := by
  rw [← utf8ByteSize_ofList, String.ofList_toList]

theorem length_le_utf8Length (text : List Char) : text.length ≤ utf8Length text := by
  induction text with
  | nil => exact Nat.le_refl 0
  | cons c text ih =>
      have positive := c.utf8Size_pos
      rw [List.length_cons, utf8Length_cons]
      omega

/-- Characters of one byte each take as many bytes as there are of them. -/
theorem utf8Length_eq_length {text : List Char} (ascii : ∀ c ∈ text, c.utf8Size = 1) :
    utf8Length text = text.length := by
  induction text with
  | nil => rfl
  | cons c text ih =>
      rw [List.forall_mem_cons] at ascii
      rw [utf8Length_cons, ascii.1, ih ascii.2, List.length_cons, Nat.add_comm]

theorem utf8Size_of_lt {c : Char} (ascii : c.toNat < 128) : c.utf8Size = 1 :=
  Char.utf8Size_eq_one_iff.mpr (UInt32.le_iff_toNat_le.mpr (Nat.le_of_lt_succ ascii))

namespace Json

/-! ## Texts without escapes -/

/-- A text that is written as it is. -/
def Plain (text : String) : Prop := ∀ c ∈ text.toList, escapeChar c = [c]

theorem escapeChar_eq_self {c : Char} (quote : c ≠ '"') (backslash : c ≠ '\\')
    (printed : 32 ≤ c.toNat) : escapeChar c = [c] := by
  have control {d : Char} (small : d.toNat < 32) : c ≠ d := by
    rintro rfl
    omega
  unfold escapeChar
  rw [if_neg quote, if_neg backslash, if_neg (control (by decide)), if_neg (control (by decide)),
    if_neg (control (by decide)), if_neg (control (by decide)), if_neg (control (by decide)),
    if_neg (Nat.not_lt.mpr printed)]

theorem flatMap_escapeChar {text : List Char} (plain : ∀ c ∈ text, escapeChar c = [c]) :
    text.flatMap escapeChar = text := by
  induction text with
  | nil => rfl
  | cons c text ih =>
      rw [List.forall_mem_cons] at plain
      rw [List.flatMap_cons, plain.1, ih plain.2, List.singleton_append]

theorem utf8Length_stringText {text : String} (plain : Plain text) :
    utf8Length (stringText text) = text.utf8ByteSize + 2 := by
  have quote : utf8Length ['"'] = 1 := rfl
  have first : '"'.utf8Size = 1 := rfl
  rw [stringText, List.cons_append, utf8Length_cons, utf8Length_append, flatMap_escapeChar plain,
    utf8Length_toList, quote, first]
  omega

/-- An escape takes six bytes at most. -/
theorem utf8Length_escapeChar_le (c : Char) : utf8Length (escapeChar c) ≤ 6 * c.utf8Size := by
  have positive := c.utf8Size_pos
  have hex (digit : Nat) (small : digit < 16) : (hexChar digit).utf8Size = 1 := by
    interval_cases digit <;> rfl
  have backslash : '\\'.utf8Size = 1 := rfl
  have zero : '0'.utf8Size = 1 := rfl
  unfold escapeChar
  split_ifs with _ _ _ _ _ _ _ control
  all_goals try exact Nat.mul_le_mul_left 6 positive |>.trans' (by decide)
  · simp only [utf8Length_cons, utf8Length_nil, hex _ (show c.toNat / 16 < 16 by omega),
      hex _ (show c.toNat % 16 < 16 by omega), backslash, zero, show 'u'.utf8Size = 1 from rfl]
    omega
  · rw [utf8Length_cons, utf8Length_nil]
    omega

theorem utf8Length_stringText_le (text : String) :
    utf8Length (stringText text) ≤ 6 * text.utf8ByteSize + 2 := by
  have quote : utf8Length ['"'] = 1 := rfl
  have first : '"'.utf8Size = 1 := rfl
  have escaped (text : List Char) : utf8Length (text.flatMap escapeChar) ≤ 6 * utf8Length text := by
    induction text with
    | nil => exact Nat.le_refl 0
    | cons c text ih =>
        have one := utf8Length_escapeChar_le c
        rw [List.flatMap_cons, utf8Length_append, utf8Length_cons]
        omega
  have bound := escaped text.toList
  rw [utf8Length_toList] at bound
  rw [stringText, List.cons_append, utf8Length_cons, utf8Length_append, quote, first]
  omega

/-! ## Sizes -/

def size (value : Json) : Nat := utf8Length value.written

@[simp] theorem size_null : null.size = 4 := rfl

theorem size_bool_le (value : Bool) : (bool value).size ≤ 5 := by
  cases value <;> decide

theorem size_string {text : String} (plain : Plain text) :
    (string text).size = text.utf8ByteSize + 2 := by
  rw [size, written, utf8Length_stringText plain]

theorem size_string_le (text : String) : (string text).size ≤ 6 * text.utf8ByteSize + 2 := by
  rw [size, written]
  exact utf8Length_stringText_le text

theorem size_ofNat (value : Nat) : (ofNat value).size = (Nat.toDigits 10 value).length := by
  refine utf8Length_eq_length fun c member => utf8Size_of_lt ?_
  have digit := Nat.isDigit_of_mem_toDigits (by decide) (by decide) member
  rw [Char.isDigit, Bool.and_eq_true, decide_eq_true_eq, decide_eq_true_eq] at digit
  exact lt_of_le_of_lt (UInt32.le_iff_toNat_le.mp digit.2) (by decide)

/-- A number below a power of ten has no more digits than the exponent. -/
theorem size_ofNat_le {value digits : Nat} (positive : 0 < digits) (small : value < 10 ^ digits) :
    (ofNat value).size ≤ digits := by
  rw [size_ofNat]
  exact (Nat.length_toDigits_le_iff (by decide) positive).mpr small

theorem utf8Length_separated (items : List (List Char)) :
    utf8Length (separated items) = (items.map utf8Length).sum + (items.length - 1) := by
  have comma : ','.utf8Size = 1 := rfl
  have others (items : List (List Char)) :
      utf8Length (items.flatMap fun item => ',' :: item) =
        (items.map utf8Length).sum + items.length := by
    induction items with
    | nil => rfl
    | cons item items ih =>
        rw [List.flatMap_cons, utf8Length_append, utf8Length_cons, ih, comma, List.map_cons,
          List.sum_cons, List.length_cons]
        omega
  cases items with
  | nil => rfl
  | cons item items =>
      rw [separated, utf8Length_append, others, List.map_cons, List.sum_cons, List.length_cons]
      omega

theorem size_array (values : List Json) :
    (array values).size = (values.map size).sum + (values.length - 1) + 2 := by
  have opening : '['.utf8Size = 1 := rfl
  have closing : utf8Length [']'] = 1 := rfl
  rw [size, written_array, List.cons_append, utf8Length_cons, utf8Length_append,
    utf8Length_separated, List.map_map, List.length_map, opening, closing]
  change 1 + ((values.map size).sum + (values.length - 1) + 1) = _
  omega

/-- The bytes of a member with its colon and the comma after it. -/
def memberSize (field : String × Json) : Nat :=
  utf8Length (stringText field.1) + field.2.size + 2

theorem memberSize_mk (key : String) (value : Json) :
    memberSize (key, value) = utf8Length (stringText key) + value.size + 2 := rfl

theorem size_object_le (fields : List (String × Json)) :
    (object fields).size ≤ (fields.map memberSize).sum + 2 := by
  have opening : '{'.utf8Size = 1 := rfl
  have closing : utf8Length ['}'] = 1 := rfl
  have colon : ':'.utf8Size = 1 := rfl
  have total (fields : List (String × Json)) :
      (fields.map fun field => utf8Length (stringText field.1 ++ ':' :: field.2.written)).sum +
        (fields.length - 1) ≤ (fields.map memberSize).sum := by
    induction fields with
    | nil => exact Nat.le_refl 0
    | cons field fields ih =>
        rw [List.map_cons, List.sum_cons, List.map_cons, List.sum_cons, List.length_cons,
          utf8Length_append, utf8Length_cons, colon, memberSize, size]
        omega
  have bound := total fields
  rw [size, written_object, List.cons_append, utf8Length_cons, utf8Length_append,
    utf8Length_separated, List.map_map, List.length_map, opening, closing]
  change 1 + ((fields.map fun field =>
    utf8Length (stringText field.1 ++ ':' :: field.2.written)).sum + (fields.length - 1) + 1) ≤ _
  omega

theorem size_object_le_of_forall {fields : List (String × Json)} {bound : Nat}
    (each : ∀ field ∈ fields, memberSize field ≤ bound) :
    (object fields).size ≤ fields.length * bound + 2 := by
  have total := List.sum_le_card_nsmul (fields.map memberSize) bound (List.forall_mem_map.mpr each)
  rw [List.length_map, smul_eq_mul] at total
  exact (size_object_le fields).trans (Nat.add_le_add_right total 2)

/-- The bytes of an object are those of its values, and for each a key that is not long. -/
theorem size_object_le_of_keys {fields : List (String × Json)} {bound : Nat}
    (short : ∀ field ∈ fields, utf8Length (stringText field.1) ≤ bound) :
    (object fields).size ≤ (fields.map fun field => field.2.size).sum +
      fields.length * (bound + 2) + 2 := by
  refine (size_object_le fields).trans (Nat.add_le_add_right ?_ 2)
  induction fields with
  | nil => exact Nat.zero_le _
  | cons field fields ih =>
      rw [List.forall_mem_cons] at short
      have others := ih short.2
      rw [List.map_cons, List.sum_cons, List.map_cons, List.sum_cons, List.length_cons, memberSize,
        Nat.succ_mul]
      omega

/-- A key that is spelled out, of characters that are written as they are. -/
theorem utf8Length_key {text : List Char}
    (plain : (text.all fun c => escapeChar c == [c] && c.utf8Size == 1) = true) :
    utf8Length (stringText (String.ofList text)) = text.length + 2 := by
  simp only [List.all_eq_true, Bool.and_eq_true, beq_iff_eq] at plain
  have written : Plain (String.ofList text) := by
    intro c member
    rw [String.toList_ofList] at member
    exact (plain c member).1
  rw [utf8Length_stringText written, utf8ByteSize_ofList,
    utf8Length_eq_length fun c member => (plain c member).2]

end Json
