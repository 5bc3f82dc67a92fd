import Mathlib

/-!
# JSON values and their canonical text

An object is the list of its members in the order of its map, that is by key; a
value is `Sorted` when this holds at every level. The canonical text writes members
by key, without white space; the written text keeps their order. Each determines the value:
`canonicalText_injective`, `written_injective`.
-/

/-- Characters of the texts of numbers. -/
def isNumberChar (c : Char) : Bool :=
  c.isDigit || c = '-' || c = '+' || c = '.' || c = 'e' || c = 'E'

/-- The text of a floating-point number. A fraction or an exponent tells it from an integer. -/
def IsFloatText (text : String) : Prop :=
  (∀ c ∈ text.toList, isNumberChar c = true) ∧ ∃ c ∈ text.toList, c = '.' ∨ c = 'e'

inductive JsonNumber where
  | unsigned (value : Nat)
  /-- The number `-(value + 1)`. -/
  | negative (value : Nat)
  /-- A floating-point number, held by the text it is written as. -/
  | float (text : { text : String // IsFloatText text })
  deriving DecidableEq

inductive Json where
  | null
  | bool (value : Bool)
  | number (value : JsonNumber)
  | string (value : String)
  | array (values : List Json)
  | object (fields : List (String × Json))

namespace Json

/-- Induction over a value and everything inside it. -/
@[elab_as_elim, induction_eliminator]
theorem induction {P : Json → Prop} (null : P .null) (bool : ∀ value, P (.bool value))
    (number : ∀ value, P (.number value)) (string : ∀ value, P (.string value))
    (array : ∀ values, (∀ value ∈ values, P value) → P (.array values))
    (object : ∀ fields : List (String × Json), (∀ field ∈ fields, P field.2) → P (.object fields))
    (value : Json) : P value := by
  refine @Json.rec P (fun values => ∀ value ∈ values, P value)
    (fun fields => ∀ field ∈ fields, P field.2) (fun field => P field.2)
    null bool number string array object ?_ ?_ ?_ ?_ ?_ value
  · exact fun _ member => absurd member List.not_mem_nil
  · exact fun head tail first rest => List.forall_mem_cons.mpr ⟨first, rest⟩
  · exact fun _ member => absurd member List.not_mem_nil
  · exact fun head tail first rest => List.forall_mem_cons.mpr ⟨first, rest⟩
  · exact fun key value holds => holds

def ofNat (value : Nat) : Json := .number (.unsigned value)

/-! ## Canonical text -/

/-- A digit of a `\u00` escape. -/
def hexChar (digit : Nat) : Char :=
  if digit < 10 then Char.ofNat (48 + digit) else Char.ofNat (87 + digit)

def escapeChar (c : Char) : List Char :=
  if c = '"' then ['\\', '"']
  else if c = '\\' then ['\\', '\\']
  else if c = '\x08' then ['\\', 'b']
  else if c = '\t' then ['\\', 't']
  else if c = '\n' then ['\\', 'n']
  else if c = '\x0c' then ['\\', 'f']
  else if c = '\r' then ['\\', 'r']
  else if c.toNat < 32 then
    ['\\', 'u', '0', '0', hexChar (c.toNat / 16), hexChar (c.toNat % 16)]
  else [c]

def stringText (text : String) : List Char := '"' :: text.toList.flatMap escapeChar ++ ['"']

end Json

def JsonNumber.text : JsonNumber → List Char
  | .unsigned value => Nat.toDigits 10 value
  | .negative value => '-' :: Nat.toDigits 10 (value + 1)
  | .float text => text.1.toList

namespace Json

/-- Items with a comma before every one but the first. -/
def separated : List (List Char) → List Char
  | [] => []
  | item :: items => item ++ items.flatMap fun item => ',' :: item

mutual

def canonicalText : Json → List Char
  | .null => ['n', 'u', 'l', 'l']
  | .bool true => ['t', 'r', 'u', 'e']
  | .bool false => ['f', 'a', 'l', 's', 'e']
  | .number value => value.text
  | .string value => stringText value
  | .array values => '[' :: separated (canonicalTexts values) ++ [']']
  | .object fields => '{' :: separated (((canonicalFields fields).insertionSort
      fun left right => left.1 ≤ right.1).map fun field => stringText field.1 ++ ':' :: field.2) ++
        ['}']

def canonicalTexts : List Json → List (List Char)
  | [] => []
  | value :: values => canonicalText value :: canonicalTexts values

def canonicalFields : List (String × Json) → List (String × List Char)
  | [] => []
  | (key, value) :: fields => (key, canonicalText value) :: canonicalFields fields

end

mutual

/-- Members stand in the order of their keys, at every level. -/
def Sorted : Json → Prop
  | .array values => SortedValues values
  | .object fields => (fields.map Prod.fst).Pairwise (· < ·) ∧ SortedFields fields
  | _ => True

def SortedValues : List Json → Prop
  | [] => True
  | value :: values => Sorted value ∧ SortedValues values

def SortedFields : List (String × Json) → Prop
  | [] => True
  | (_, value) :: fields => Sorted value ∧ SortedFields fields

end

theorem canonicalTexts_eq (values : List Json) :
    canonicalTexts values = values.map canonicalText := by
  induction values with
  | nil => rfl
  | cons value values ih => rw [canonicalTexts, ih, List.map_cons]

theorem canonicalFields_eq (fields : List (String × Json)) :
    canonicalFields fields = fields.map fun field => (field.1, canonicalText field.2) := by
  induction fields with
  | nil => rfl
  | cons field fields ih => rw [canonicalFields, ih, List.map_cons]

@[simp] theorem sorted_array {values : List Json} :
    (Json.array values).Sorted ↔ ∀ value ∈ values, value.Sorted := by
  rw [Sorted]
  induction values with
  | nil => simp [SortedValues]
  | cons value values ih => simp [SortedValues, ih]

@[simp] theorem sorted_object {fields : List (String × Json)} :
    (Json.object fields).Sorted ↔
      (fields.map Prod.fst).Pairwise (· < ·) ∧ ∀ field ∈ fields, field.2.Sorted := by
  have members : SortedFields fields ↔ ∀ field ∈ fields, field.2.Sorted := by
    induction fields with
    | nil => simp [SortedFields]
    | cons field fields ih => rw [SortedFields, ih, List.forall_mem_cons]
  rw [Sorted, members]

/-! ## Text in the order of the value -/

mutual

/-- A text without white space that keeps the order of the members, as a writer of records
makes it. -/
def written : Json → List Char
  | .null => ['n', 'u', 'l', 'l']
  | .bool true => ['t', 'r', 'u', 'e']
  | .bool false => ['f', 'a', 'l', 's', 'e']
  | .number value => value.text
  | .string value => stringText value
  | .array values => '[' :: separated (writtenValues values) ++ [']']
  | .object fields => '{' :: separated (writtenFields fields) ++ ['}']

def writtenValues : List Json → List (List Char)
  | [] => []
  | value :: values => written value :: writtenValues values

def writtenFields : List (String × Json) → List (List Char)
  | [] => []
  | (key, value) :: fields => (stringText key ++ ':' :: written value) :: writtenFields fields

end

theorem written_array (values : List Json) :
    (Json.array values).written = '[' :: separated (values.map written) ++ [']'] := by
  have texts : writtenValues values = values.map written := by
    induction values with
    | nil => rfl
    | cons value values ih => rw [writtenValues, ih, List.map_cons]
  rw [written, texts]

theorem written_object (fields : List (String × Json)) :
    (Json.object fields).written = '{' :: separated (fields.map fun field =>
      stringText field.1 ++ ':' :: field.2.written) ++ ['}'] := by
  have texts : writtenFields fields =
      fields.map fun field => stringText field.1 ++ ':' :: field.2.written := by
    induction fields with
    | nil => rfl
    | cons field fields ih => rw [writtenFields, ih, List.map_cons]
  rw [written, texts]

/-! ## The text determines the value -/

/-- Read one character of a string. -/
def unescape : List Char → Option (Char × List Char)
  | '\\' :: 'b' :: rest => some ('\x08', rest)
  | '\\' :: 't' :: rest => some ('\t', rest)
  | '\\' :: 'n' :: rest => some ('\n', rest)
  | '\\' :: 'f' :: rest => some ('\x0c', rest)
  | '\\' :: 'r' :: rest => some ('\r', rest)
  | '\\' :: 'u' :: _ :: _ :: high :: low :: rest =>
      let value (c : Char) : Nat := if c.toNat < 58 then c.toNat - 48 else c.toNat - 87
      some (Char.ofNat (16 * value high + value low), rest)
  | '\\' :: c :: rest => some (c, rest)
  | '"' :: _ => none
  | c :: rest => some (c, rest)
  | [] => none

theorem unescape_escapeChar (c : Char) (rest : List Char) :
    unescape (escapeChar c ++ rest) = some (c, rest) := by
  rw [escapeChar]
  split
  · next same => simp [same, unescape]
  split
  · next same => simp [same, unescape]
  split
  · next same => simp [same, unescape]
  split
  · next same => simp [same, unescape]
  split
  · next same => simp [same, unescape]
  split
  · next same => simp [same, unescape]
  split
  · next same => simp [same, unescape]
  next quote backslash _ _ _ _ _ =>
  split
  · next control =>
    have digits : ∀ n < 32,
        (if (hexChar (n / 16)).toNat < 58 then (hexChar (n / 16)).toNat - 48
          else (hexChar (n / 16)).toNat - 87) = n / 16 ∧
        (if (hexChar (n % 16)).toNat < 58 then (hexChar (n % 16)).toNat - 48
          else (hexChar (n % 16)).toNat - 87) = n % 16 := by decide
    obtain ⟨high, low⟩ := digits c.toNat control
    simp only [List.cons_append, List.nil_append, unescape, high, low, Nat.div_add_mod,
      Char.ofNat_toNat]
  · rw [List.singleton_append]
    unfold unescape
    split <;> simp_all

theorem escapeChar_append_ne (c : Char) (rest rest' : List Char) :
    escapeChar c ++ rest ≠ '"' :: rest' := by
  intro same
  have read := unescape_escapeChar c rest
  rw [same] at read
  simp [unescape] at read

/-- A quoted text ends where it ends. -/
theorem stringText_cancel {text text' : String} {rest rest' : List Char}
    (h : stringText text ++ rest = stringText text' ++ rest') : text = text' ∧ rest = rest' := by
  suffices escaped : ∀ cs cs' : List Char,
      cs.flatMap escapeChar ++ '"' :: rest = cs'.flatMap escapeChar ++ '"' :: rest' →
        cs = cs' ∧ rest = rest' by
    have := escaped text.toList text'.toList (by simpa [stringText] using h)
    exact ⟨String.toList_injective this.1, this.2⟩
  intro cs
  induction cs with
  | nil =>
      intro cs' same
      cases cs' with
      | nil => simpa using same
      | cons c' cs' =>
          rw [List.flatMap_cons, List.append_assoc, List.flatMap_nil, List.nil_append] at same
          exact absurd same.symm (escapeChar_append_ne _ _ _)
  | cons c cs ih =>
      intro cs' same
      cases cs' with
      | nil =>
          rw [List.flatMap_cons, List.append_assoc, List.flatMap_nil, List.nil_append] at same
          exact absurd same (escapeChar_append_ne _ _ _)
      | cons c' cs' =>
          rw [List.flatMap_cons, List.flatMap_cons, List.append_assoc, List.append_assoc] at same
          have read := congrArg unescape same
          rw [unescape_escapeChar, unescape_escapeChar, Option.some.injEq, Prod.mk.injEq] at read
          obtain ⟨tail, rests⟩ := ih cs' read.2
          exact ⟨by rw [read.1, tail], rests⟩

/-- A rest at which the text of a number ends. -/
def Delimited (rest : List Char) : Prop := ∀ c tail, rest = c :: tail → isNumberChar c = false

theorem delimited_cons {c : Char} {tail : List Char} (h : isNumberChar c = false) :
    Delimited (c :: tail) := by
  rintro c' tail' same
  cases same
  exact h

theorem isNumberChar_of_isDigit {c : Char} (h : c.isDigit = true) : isNumberChar c = true := by
  simp [isNumberChar, h]

theorem isNumberChar_of_mem_toDigits {value : Nat} {c : Char} (h : c ∈ Nat.toDigits 10 value) :
    isNumberChar c = true :=
  isNumberChar_of_isDigit (Nat.isDigit_of_mem_toDigits (by decide) (by decide) h)

theorem toDigits_injective {m n : Nat} (h : Nat.toDigits 10 m = Nat.toDigits 10 n) : m = n := by
  rw [← Nat.ofDigitChars_ten_toDigits (n := m), h, Nat.ofDigitChars_ten_toDigits]

theorem numberText_isNumberChar {value : JsonNumber} {c : Char} (h : c ∈ value.text) :
    isNumberChar c = true := by
  cases value with
  | unsigned value => exact isNumberChar_of_mem_toDigits h
  | negative value =>
      rcases List.mem_cons.mp h with rfl | digit
      · rfl
      · exact isNumberChar_of_mem_toDigits digit
  | float text => exact text.2.1 c h

theorem numberText_ne_nil (value : JsonNumber) : value.text ≠ [] := by
  cases value with
  | unsigned value => exact Nat.toDigits_ne_nil
  | negative value => simp [JsonNumber.text]
  | float text =>
      obtain ⟨c, member, _⟩ := text.2.2
      exact List.ne_nil_of_mem member

/-- An integer has no fraction and no exponent. -/
theorem not_isFloatText {text : { text : String // IsFloatText text }} {digits : List Char}
    (h : text.1.toList = digits) (integer : ∀ c ∈ digits, c.isDigit = true ∨ c = '-') : False := by
  obtain ⟨c, member, mark⟩ := text.2.2
  rw [h] at member
  rcases mark with rfl | rfl
  · exact absurd (integer _ member) (by decide)
  · exact absurd (integer _ member) (by decide)

theorem numberText_injective {left right : JsonNumber} (h : left.text = right.text) :
    left = right := by
  have digits (value : Nat) : ∀ c ∈ Nat.toDigits 10 value, c.isDigit = true := fun c member =>
    Nat.isDigit_of_mem_toDigits (by decide) (by decide) member
  have unsigned (value : Nat) : ∀ c ∈ Nat.toDigits 10 value, c.isDigit = true ∨ c = '-' :=
    fun c member => .inl (digits value c member)
  have negative (value : Nat) : ∀ c ∈ '-' :: Nat.toDigits 10 value, c.isDigit = true ∨ c = '-' := by
    intro c member
    rcases List.mem_cons.mp member with rfl | digit
    · exact .inr rfl
    · exact .inl (digits value c digit)
  have signs {m n : Nat} (same : Nat.toDigits 10 m = '-' :: Nat.toDigits 10 n) : False := by
    have first := digits m '-' (same ▸ List.mem_cons_self)
    exact absurd first (by decide)
  cases left with
  | unsigned m =>
      cases right with
      | unsigned n => rw [toDigits_injective h]
      | negative n => exact (signs h).elim
      | float text => exact (not_isFloatText h.symm (unsigned m)).elim
  | negative m =>
      cases right with
      | unsigned n => exact (signs h.symm).elim
      | negative n => rw [Nat.succ_injective (toDigits_injective (List.cons.inj h).2)]
      | float text => exact (not_isFloatText h.symm (negative _)).elim
  | float text =>
      cases right with
      | unsigned n => exact (not_isFloatText h (unsigned n)).elim
      | negative n => exact (not_isFloatText h (negative _)).elim
      | float text' => rw [Subtype.ext (String.toList_injective h)]

theorem numberText_cancel {left right : JsonNumber} {rest rest' : List Char}
    (delimited : Delimited rest) (delimited' : Delimited rest')
    (h : left.text ++ rest = right.text ++ rest') : left = right ∧ rest = rest' := by
  have stops {rest : List Char} (delimited : Delimited rest) :
      rest.takeWhile isNumberChar = [] := by
    cases rest with
    | nil => rfl
    | cons c tail => rw [List.takeWhile_cons_of_neg (by simp [delimited c tail rfl])]
  have takes (value : JsonNumber) {rest : List Char} (delimited : Delimited rest) :
      (value.text ++ rest).takeWhile isNumberChar = value.text := by
    rw [List.takeWhile_append_of_pos fun c member => numberText_isNumberChar member,
      stops delimited, List.append_nil]
  have same : left = right := by
    refine numberText_injective ?_
    rw [← takes left delimited, h, takes right delimited']
  rw [same] at h
  exact ⟨same, List.append_cancel_left h⟩

/-- No line of a text ends inside a value. -/
theorem newline_not_mem_stringText (text : String) : '\n' ∉ stringText text := by
  intro member
  rw [stringText, List.mem_append, List.mem_cons, List.mem_flatMap] at member
  rcases member with (quote | ⟨c, _, inside⟩) | quote
  · exact absurd quote (by decide)
  · have hex : ∀ digit : Fin 16, '\n' ≠ hexChar digit := by decide
    rw [escapeChar] at inside
    split_ifs at inside with isQuote slash back tab plain feed carriage control <;>
      try simp at inside
    · rcases inside with high | low
      · exact hex ⟨c.toNat / 16, by omega⟩ high
      · exact hex ⟨c.toNat % 16, by omega⟩ low
    · exact plain inside.symm
  · exact absurd quote (by decide)

theorem not_mem_separated {c : Char} {items : List (List Char)} (comma : c ≠ ',')
    (free : ∀ item ∈ items, c ∉ item) : c ∉ separated items := by
  cases items with
  | nil => exact List.not_mem_nil
  | cons item items =>
      rw [separated, List.mem_append, List.mem_flatMap]
      rintro (first | ⟨later, member, inside⟩)
      · exact free item List.mem_cons_self first
      · rcases List.mem_cons.mp inside with same | inside
        · exact comma same
        · exact free later (List.mem_cons_of_mem _ member) inside

theorem newline_not_mem_written (value : Json) : '\n' ∉ value.written := by
  induction value with
  | null => decide
  | bool value => cases value <;> decide
  | number value => exact fun member => absurd (numberText_isNumberChar member) (by decide)
  | string value => exact newline_not_mem_stringText value
  | array values ih =>
      rw [written_array]
      have inner : '\n' ∉ separated (values.map written) := by
        refine not_mem_separated (by decide) fun item member => ?_
        obtain ⟨value, there, rfl⟩ := List.mem_map.mp member
        exact ih value there
      simp [inner]
  | object fields ih =>
      rw [written_object]
      have inner : '\n' ∉ separated (fields.map fun field =>
          stringText field.1 ++ ':' :: field.2.written) := by
        refine not_mem_separated (by decide) fun item member => ?_
        obtain ⟨field, there, rfl⟩ := List.mem_map.mp member
        simp [newline_not_mem_stringText, ih field there]
      simp [inner]

/-- The kind of a value, as its first character shows it. -/
def kind : Json → Nat
  | .null => 0
  | .bool true => 1
  | .bool false => 2
  | .number _ => 3
  | .string _ => 4
  | .array _ => 5
  | .object _ => 6

def kindOfChar (c : Char) : Nat :=
  if isNumberChar c then 3
  else if c = 'n' then 0
  else if c = 't' then 1
  else if c = 'f' then 2
  else if c = '"' then 4
  else if c = '[' then 5
  else if c = '{' then 6
  else 7

theorem written_head (value : Json) :
    ∃ c tail, value.written = c :: tail ∧ kindOfChar c = value.kind := by
  cases value with
  | null => exact ⟨_, _, rfl, rfl⟩
  | bool value => cases value <;> exact ⟨_, _, rfl, rfl⟩
  | number value =>
      obtain ⟨c, tail, same⟩ := List.exists_cons_of_ne_nil (numberText_ne_nil value)
      refine ⟨c, tail, by rw [written, same], ?_⟩
      have number : isNumberChar c = true :=
        numberText_isNumberChar (same ▸ List.mem_cons_self)
      simp [kindOfChar, number, kind]
  | string value => exact ⟨_, _, rfl, rfl⟩
  | array values => exact ⟨_, _, rfl, rfl⟩
  | object fields => exact ⟨_, _, rfl, rfl⟩

theorem kind_ne_kindOfChar_close (value : Json) : value.kind ≠ kindOfChar ']' := by
  cases value with
  | bool value => cases value <;> decide
  | _ => simp [kind, kindOfChar, isNumberChar]

theorem kind_eq_of_text {left right : Json} {rest rest' : List Char}
    (h : left.written ++ rest = right.written ++ rest') : left.kind = right.kind := by
  obtain ⟨c, tail, text, kind⟩ := written_head left
  obtain ⟨c', tail', text', kind'⟩ := written_head right
  rw [text, text', List.cons_append, List.cons_append] at h
  rw [← kind, ← kind', (List.cons.inj h).1]

/-- Two texts of items that agree are texts of the same item. -/
def ItemsCancel {α : Type} (text : α → List Char) (xs ys : List α) : Prop :=
  ∀ x ∈ xs, ∀ y ∈ ys, ∀ rest rest', Delimited rest → Delimited rest' →
    text x ++ rest = text y ++ rest' → x = y ∧ rest = rest'

section

variable {α : Type} {text : α → List Char} {close : Char}

theorem tail_cancel (comma : close ≠ ',') (delimits : isNumberChar close = false) (xs ys : List α)
    (cancel : ItemsCancel text xs ys) {rest rest' : List Char}
    (h : (xs.flatMap fun x => ',' :: text x) ++ close :: rest =
      (ys.flatMap fun y => ',' :: text y) ++ close :: rest') : xs = ys ∧ rest = rest' := by
  have delimited (items : List α) (rest : List Char) :
      Delimited ((items.flatMap fun item => ',' :: text item) ++ close :: rest) := by
    cases items with
    | nil => exact delimited_cons delimits
    | cons item items => exact delimited_cons rfl
  induction xs generalizing ys with
  | nil =>
      cases ys with
      | nil => simpa using h
      | cons y ys =>
          simp only [List.flatMap_nil, List.nil_append, List.flatMap_cons, List.cons_append,
            List.cons.injEq] at h
          exact absurd h.1 comma
  | cons x xs ih =>
      cases ys with
      | nil =>
          simp only [List.flatMap_nil, List.nil_append, List.flatMap_cons, List.cons_append,
            List.cons.injEq] at h
          exact absurd h.1.symm comma
      | cons y ys =>
          simp only [List.flatMap_cons, List.cons_append, List.append_assoc, List.cons.injEq,
            true_and] at h
          obtain ⟨first, h⟩ := cancel x List.mem_cons_self y List.mem_cons_self _ _
            (delimited _ _) (delimited _ _) h
          obtain ⟨others, rests⟩ := ih ys (fun x' hx y' hy => cancel x'
            (List.mem_cons_of_mem _ hx) y' (List.mem_cons_of_mem _ hy)) h
          exact ⟨by rw [first, others], rests⟩

theorem separated_cancel (comma : close ≠ ',') (delimits : isNumberChar close = false)
    (opens : ∀ item rest rest', text item ++ rest ≠ close :: rest') (xs ys : List α)
    (cancel : ItemsCancel text xs ys) {rest rest' : List Char}
    (h : separated (xs.map text) ++ close :: rest = separated (ys.map text) ++ close :: rest') :
    xs = ys ∧ rest = rest' := by
  have delimited (items : List α) (rest : List Char) :
      Delimited ((items.flatMap fun item => ',' :: text item) ++ close :: rest) := by
    cases items with
    | nil => exact delimited_cons delimits
    | cons item items => exact delimited_cons rfl
  cases xs with
  | nil =>
      cases ys with
      | nil => simpa [separated] using h
      | cons y ys =>
          simp only [List.map_nil, List.map_cons, separated, List.nil_append,
            List.append_assoc] at h
          exact absurd h.symm (opens _ _ _)
  | cons x xs =>
      cases ys with
      | nil =>
          simp only [List.map_nil, List.map_cons, separated, List.nil_append,
            List.append_assoc] at h
          exact absurd h (opens _ _ _)
      | cons y ys =>
          simp only [List.map_cons, separated, List.flatMap_map, List.append_assoc] at h
          obtain ⟨first, h⟩ := cancel x List.mem_cons_self y List.mem_cons_self _ _
            (delimited _ _) (delimited _ _) h
          obtain ⟨others, rests⟩ := tail_cancel comma delimits xs ys (fun x' hx y' hy => cancel x'
            (List.mem_cons_of_mem _ hx) y' (List.mem_cons_of_mem _ hy)) h
          exact ⟨by rw [first, others], rests⟩

end

/-- A value can be read off the front of a text that starts with it. -/
theorem written_cancel {left right : Json} {rest rest' : List Char} (delimited : Delimited rest)
    (delimited' : Delimited rest') (h : left.written ++ rest = right.written ++ rest') :
    left = right ∧ rest = rest' := by
  have kinds := kind_eq_of_text h
  induction left generalizing right rest rest' with
  | null =>
      cases right with
      | null => exact ⟨rfl, List.append_cancel_left h⟩
      | bool value => cases value <;> simp [kind] at kinds
      | _ => simp [kind] at kinds
  | bool value =>
      cases right with
      | bool value' =>
          cases value <;> cases value' <;> simp [kind] at kinds
          · exact ⟨rfl, List.append_cancel_left h⟩
          · exact ⟨rfl, List.append_cancel_left h⟩
      | _ => cases value <;> simp [kind] at kinds
  | number value =>
      cases right with
      | number value' =>
          obtain ⟨same, rests⟩ := numberText_cancel delimited delimited' h
          exact ⟨by rw [same], rests⟩
      | bool value => cases value <;> simp [kind] at kinds
      | _ => simp [kind] at kinds
  | string value =>
      cases right with
      | string value' =>
          obtain ⟨same, rests⟩ := stringText_cancel h
          exact ⟨by rw [same], rests⟩
      | bool value => cases value <;> simp [kind] at kinds
      | _ => simp [kind] at kinds
  | array values ih =>
      cases right with
      | array values' =>
          rw [written_array, written_array] at h
          simp only [List.cons_append, List.append_assoc, List.nil_append, List.cons.injEq,
            true_and] at h
          have opens (item : Json) (rest rest' : List Char) :
              item.written ++ rest ≠ ']' :: rest' := by
            obtain ⟨c, tail, text, kind⟩ := written_head item
            rw [text, List.cons_append]
            rintro same
            rw [(List.cons.inj same).1] at kind
            exact absurd kind.symm (kind_ne_kindOfChar_close item)
          obtain ⟨same, rests⟩ := separated_cancel (by decide) (by decide) opens values values'
            (fun x hx y hy r r' dr dr' text => ih x hx dr dr' text (kind_eq_of_text text)) h
          exact ⟨by rw [same], rests⟩
      | bool value => cases value <;> simp [kind] at kinds
      | _ => simp [kind] at kinds
  | object fields ih =>
      cases right with
      | object fields' =>
          rw [written_object, written_object] at h
          simp only [List.cons_append, List.append_assoc, List.nil_append, List.cons.injEq,
            true_and] at h
          have opens (field : String × Json) (rest rest' : List Char) :
              stringText field.1 ++ ':' :: field.2.written ++ rest ≠ '}' :: rest' := by
            simp [stringText]
          obtain ⟨same, rests⟩ := separated_cancel (by decide) (by decide) opens fields fields'
            (fun x hx y hy r r' dr dr' text => by
              simp only [List.append_assoc, List.cons_append] at text
              obtain ⟨key, text⟩ := stringText_cancel text
              have text := (List.cons.inj text).2
              obtain ⟨value, rests⟩ := ih x hx dr dr' text (kind_eq_of_text text)
              exact ⟨Prod.ext key value, rests⟩) h
          exact ⟨by rw [same], rests⟩
      | bool value => cases value <;> simp [kind] at kinds
      | _ => simp [kind] at kinds

/-- The text of a value determines it. -/
theorem written_injective {left right : Json} (h : left.written = right.written) : left = right :=
  (written_cancel (show Delimited [] from nofun) (show Delimited [] from nofun)
    (by simpa using h)).1

end Json
