import Stratadiff.Lib.JsonMap

/-!
# What a JSON text spells

A text spells a value with blanks between its tokens, with characters of strings escaped or
not, and with the members of an object in any order, repeated ones kept. A text spells one
value at most, and what a value is written as spells it.

Numbers are spelled as a reader of numbers takes them.
-/

/-- A reader of the texts of numbers, which reads what it has read once more from the text that
is written for it. -/
structure NumberReader where
  read : List Char → Option JsonNumber
  chars : ∀ text value, read text = some value →
    text ≠ [] ∧ ∀ c ∈ text, isNumberChar c = true
  readBack : ∀ text value, read text = some value → read value.text = some value

namespace NumberReader

/-- Decimal digits without leading zeros. -/
def natural? (digits : List Char) : Option Nat :=
  let value := Nat.ofDigitChars 10 digits 0
  if Nat.toDigits 10 value = digits then some value else none

theorem natural?_eq_some {digits : List Char} {value : Nat} :
    natural? digits = some value ↔ digits = Nat.toDigits 10 value := by
  rw [natural?]
  constructor
  · intro h
    split at h
    · next same => exact Option.some.inj h ▸ same.symm
    · cases h
  · rintro rfl
    simp only [Nat.ofDigitChars_ten_toDigits, if_true]

/-- The integers of 64 bits. -/
def readInteger : List Char → Option JsonNumber
  | '-' :: digits => (natural? digits).bind fun value =>
      if 0 < value ∧ value ≤ 2 ^ 63 then some (.negative (value - 1)) else none
  | digits => (natural? digits).bind fun value =>
      if value < 2 ^ 64 then some (.unsigned value) else none

theorem readInteger_spec {text : List Char} {number : JsonNumber}
    (read : readInteger text = some number) : text = number.text := by
  rw [readInteger.eq_def] at read
  split at read
  · obtain ⟨value, digits, range⟩ := Option.bind_eq_some_iff.mp read
    rw [natural?_eq_some.mp digits]
    split at range
    · next positive =>
        cases range
        rw [JsonNumber.text, Nat.sub_add_cancel positive.1]
    · cases range
  · obtain ⟨value, digits, range⟩ := Option.bind_eq_some_iff.mp read
    rw [natural?_eq_some.mp digits]
    split at range
    · cases range
      rfl
    · cases range

/-- A reader of integers. -/
def integers : NumberReader where
  read := readInteger
  chars text number read := by
    rw [readInteger_spec read]
    exact ⟨Json.numberText_ne_nil number, fun c => Json.numberText_isNumberChar⟩
  readBack text number read := readInteger_spec read ▸ read

end NumberReader

namespace Json

def isBlank (c : Char) : Bool := c = ' ' || c = '\n' || c = '\t' || c = '\r'

def Blank (text : List Char) : Prop := ∀ c ∈ text, isBlank c = true

/-! ## Strings -/

/-- The escapes of one letter. -/
def shortEscapes : List (Char × Char) :=
  [('"', '"'), ('\\', '\\'), ('/', '/'), ('b', '\x08'), ('f', '\x0c'), ('n', '\n'), ('r', '\r'),
    ('t', '\t')]

def hexDigit? (c : Char) : Option Nat :=
  if '0' ≤ c ∧ c ≤ '9' then some (c.toNat - 48)
  else if 'a' ≤ c ∧ c ≤ 'f' then some (c.toNat - 87)
  else if 'A' ≤ c ∧ c ≤ 'F' then some (c.toNat - 55)
  else none

/-- The number of four hexadecimal digits. -/
def hex4? (a b c d : Char) : Option Nat := do
  return ((((← hexDigit? a) * 16 + (← hexDigit? b)) * 16 + (← hexDigit? c)) * 16 +
    (← hexDigit? d))

def IsHighSurrogate (unit : Nat) : Prop := 0xd800 ≤ unit ∧ unit < 0xdc00

def IsLowSurrogate (unit : Nat) : Prop := 0xdc00 ≤ unit ∧ unit < 0xe000

instance (unit : Nat) : Decidable (IsHighSurrogate unit) := inferInstanceAs (Decidable (_ ∧ _))

instance (unit : Nat) : Decidable (IsLowSurrogate unit) := inferInstanceAs (Decidable (_ ∧ _))

/-- The texts of a character inside a string. -/
inductive SpellsChar : Char → List Char → Prop where
  | plain {c : Char} : c ≠ '"' → c ≠ '\\' → 32 ≤ c.toNat → SpellsChar c [c]
  | short {code c : Char} : shortEscapes.lookup code = some c → SpellsChar c ['\\', code]
  | unicode {c w x y z : Char} : hex4? w x y z = some c.toNat →
      SpellsChar c ['\\', 'u', w, x, y, z]
  | pair {c w x y z w' x' y' z' : Char} {high low : Nat} : hex4? w x y z = some high →
      hex4? w' x' y' z' = some low → IsHighSurrogate high → IsLowSurrogate low →
      c.toNat = 0x10000 + (high - 0xd800) * 0x400 + (low - 0xdc00) →
      SpellsChar c ['\\', 'u', w, x, y, z, '\\', 'u', w', x', y', z']

def SpellsChars : List Char → List Char → Prop
  | [], text => text = []
  | c :: cs, text => ∃ first rest, text = first ++ rest ∧ SpellsChar c first ∧ SpellsChars cs rest

def SpellsString (value : String) (text : List Char) : Prop :=
  ∃ inside, text = '"' :: inside ++ ['"'] ∧ SpellsChars value.toList inside

/-! ## Values -/

/-- A text with blanks around it. -/
def Padded (P : List Char → Prop) (text : List Char) : Prop :=
  ∃ before inside after, text = before ++ inside ++ after ∧ Blank before ∧ P inside ∧ Blank after

/-- Texts of items, with a comma before every one but the first. -/
def Separated : List (List Char → Prop) → List Char → Prop
  | [], text => Blank text
  | [item], text => Padded item text
  | item :: items, text => ∃ first rest, text = first ++ ',' :: rest ∧ Padded item first ∧
      Separated items rest

/-- A key, a colon and a value. -/
def SpellsMember (key : String) (P : List Char → Prop) (text : List Char) : Prop :=
  ∃ name rest, text = name ++ ':' :: rest ∧
    (∃ spelled after, name = spelled ++ after ∧ SpellsString key spelled ∧ Blank after) ∧
    ∃ before value, rest = before ++ value ∧ Blank before ∧ P value

section

variable (numbers : NumberReader)

mutual

/-- A text spells a value, without blanks around it. -/
def Spells : Json → List Char → Prop
  | .null, text => text = ['n', 'u', 'l', 'l']
  | .bool true, text => text = ['t', 'r', 'u', 'e']
  | .bool false, text => text = ['f', 'a', 'l', 's', 'e']
  | .number value, text => numbers.read text = some value
  | .string value, text => SpellsString value text
  | .array values, text => ∃ inside, text = '[' :: inside ++ [']'] ∧
      Separated (spellings values) inside
  | .object fields, text => ∃ inside, text = '{' :: inside ++ ['}'] ∧
      Separated (memberSpellings fields) inside

def spellings : List Json → List (List Char → Prop)
  | [] => []
  | value :: values => Spells value :: spellings values

def memberSpellings : List (String × Json) → List (List Char → Prop)
  | [] => []
  | (key, value) :: fields => SpellsMember key (Spells value) :: memberSpellings fields

end

/-- A text spells a value, with blanks around it. -/
def SpellsText (value : Json) (text : List Char) : Prop := Padded (Spells numbers value) text

end

/-! ## A text spells one value -/

/-- Read one character of a string. -/
def readChar : List Char → Option (Char × List Char)
  | '\\' :: 'u' :: w :: x :: y :: z :: rest =>
      (hex4? w x y z).bind fun unit =>
        if IsHighSurrogate unit then
          match rest with
          | '\\' :: 'u' :: w' :: x' :: y' :: z' :: rest =>
              (hex4? w' x' y' z').map fun low =>
                (Char.ofNat (0x10000 + (unit - 0xd800) * 0x400 + (low - 0xdc00)), rest)
          | _ => none
        else some (Char.ofNat unit, rest)
  | '\\' :: code :: rest => (shortEscapes.lookup code).map fun c => (c, rest)
  | '"' :: _ => none
  | c :: rest => some (c, rest)
  | [] => none

theorem SpellsChar.read {c : Char} {text : List Char} (spells : SpellsChar c text)
    (rest : List Char) : readChar (text ++ rest) = some (c, rest) := by
  cases spells with
  | plain quote backslash _ =>
      rw [List.singleton_append]
      unfold readChar
      split <;> simp_all
  | @short code _ found =>
      have letter : code ≠ 'u' := by
        rintro rfl
        have none : shortEscapes.lookup 'u' = none := by decide
        rw [none] at found
        cases found
      rw [List.cons_append, List.singleton_append, readChar, found, Option.map_some]
      exact fun _ _ _ _ _ same _ => letter same
  | unicode number =>
      have plain : ¬ IsHighSurrogate c.toNat := by
        rintro ⟨least, most⟩
        obtain small | large := c.valid
        · exact absurd (show c.toNat < 0xd800 from small) (by omega)
        · exact absurd (show 0xdfff < c.toNat from large.1) (by omega)
      simp only [List.cons_append, List.nil_append, readChar, number, Option.bind_some,
        if_neg plain, Char.ofNat_toNat]
  | pair first second high low code =>
      simp only [List.cons_append, List.nil_append, readChar, first, second, Option.bind_some,
        if_pos high, Option.map_some, ← code, Char.ofNat_toNat]

theorem spellsChars_cancel {cs ds text text' rest rest' : List Char} (spells : SpellsChars cs text)
    (spells' : SpellsChars ds text') (same : text ++ '"' :: rest = text' ++ '"' :: rest') :
    cs = ds ∧ rest = rest' := by
  have ends : ∀ tail, readChar ('"' :: tail) = none := fun _ => rfl
  induction cs generalizing ds text text' with
  | nil =>
      obtain rfl := spells
      cases ds with
      | nil =>
          obtain rfl := spells'
          exact ⟨rfl, (List.cons.inj same).2⟩
      | cons d ds =>
          obtain ⟨first, others, rfl, char, -⟩ := spells'
          have read := char.read (others ++ '"' :: rest')
          rw [← List.append_assoc, ← same, List.nil_append, ends] at read
          cases read
  | cons c cs ih =>
      obtain ⟨first, others, rfl, char, chars⟩ := spells
      have read := char.read (others ++ '"' :: rest)
      rw [← List.append_assoc, same] at read
      cases ds with
      | nil =>
          obtain rfl := spells'
          rw [List.nil_append, ends] at read
          cases read
      | cons d ds =>
          obtain ⟨first', others', rfl, char', chars'⟩ := spells'
          rw [List.append_assoc, char'.read, Option.some.injEq, Prod.mk.injEq] at read
          obtain ⟨rfl, tails⟩ := read
          obtain ⟨rfl, rests⟩ := ih chars chars' tails.symm
          exact ⟨rfl, rests⟩

theorem spellsString_cancel {value value' : String} {text text' rest rest' : List Char}
    (spells : SpellsString value text) (spells' : SpellsString value' text')
    (same : text ++ rest = text' ++ rest') : value = value' ∧ rest = rest' := by
  obtain ⟨inside, rfl, chars⟩ := spells
  obtain ⟨inside', rfl, chars'⟩ := spells'
  simp only [List.cons_append, List.append_assoc, List.nil_append, List.cons.injEq,
    true_and] at same
  obtain ⟨lists, rests⟩ := spellsChars_cancel chars chars' same
  exact ⟨String.toList_injective lists, rests⟩

/-! ### Blanks -/

theorem dropWhile_blank {blank rest : List Char} (h : Blank blank) :
    (blank ++ rest).dropWhile isBlank = rest.dropWhile isBlank :=
  List.dropWhile_append_of_pos h

theorem dropWhile_solid {c : Char} {rest : List Char} (solid : isBlank c = false) :
    (c :: rest).dropWhile isBlank = c :: rest := List.dropWhile_cons_of_neg (by simp [solid])

/-- Blanks in front of solid texts cancel. -/
theorem blank_cancel {blank blank' : List Char} (h : Blank blank) (h' : Blank blank')
    {c c' : Char} {rest rest' : List Char} (solid : isBlank c = false)
    (solid' : isBlank c' = false) (same : blank ++ c :: rest = blank' ++ c' :: rest') :
    c :: rest = c' :: rest' := by
  have dropped := congrArg (List.dropWhile isBlank) same
  rwa [dropWhile_blank h, dropWhile_blank h', dropWhile_solid solid, dropWhile_solid solid']
    at dropped

theorem not_isNumberChar_of_isBlank {c : Char} (blank : isBlank c = true) :
    isNumberChar c = false := by
  simp only [isBlank, Bool.or_eq_true, decide_eq_true_eq] at blank
  obtain ((rfl | rfl) | rfl) | rfl := blank <;> rfl

/-- A number ends before blanks and before what ends an item. -/
theorem delimited_blank {blank rest : List Char} (h : Blank blank) (delimited : Delimited rest) :
    Delimited (blank ++ rest) := by
  cases blank with
  | nil => exact delimited
  | cons c blank => exact delimited_cons (not_isNumberChar_of_isBlank (h c List.mem_cons_self))

/-- The texts of an item begin with a character that is no blank and not this one. -/
def Opens (P : List Char → Prop) (close : Char) : Prop :=
  ∀ text, P text → ∃ c rest, text = c :: rest ∧ isBlank c = false ∧ c ≠ close

/-- Of two items, the texts of both are in front of a text only if they are the same item. -/
def Cancels {α : Type} (spell : α → List Char → Prop) (x y : α) : Prop :=
  ∀ text text' rest rest', spell x text → spell y text' → Delimited rest → Delimited rest' →
    text ++ rest = text' ++ rest' → x = y ∧ rest = rest'

section

variable {α : Type} {spell : α → List Char → Prop} {x y : α} {close : Char}
variable {text text' rest rest' : List Char}

theorem padded_cancel (opens : Opens (spell x) close) (opens' : Opens (spell y) close)
    (cancels : Cancels spell x y) (padded : Padded (spell x) text)
    (padded' : Padded (spell y) text') {c c' : Char} (solid : isBlank c = false)
    (solid' : isBlank c' = false) (ends : isNumberChar c = false)
    (ends' : isNumberChar c' = false) (same : text ++ c :: rest = text' ++ c' :: rest') :
    x = y ∧ c :: rest = c' :: rest' := by
  obtain ⟨before, inside, after, rfl, blank, spells, blankAfter⟩ := padded
  obtain ⟨before', inside', after', rfl, blank', spells', blankAfter'⟩ := padded'
  obtain ⟨first, tail, split, solidFirst, -⟩ := opens inside spells
  obtain ⟨first', tail', split', solidFirst', -⟩ := opens' inside' spells'
  simp only [List.append_assoc] at same
  rw [split, split', List.cons_append, List.cons_append] at same
  have front := blank_cancel blank blank' solidFirst solidFirst' same
  rw [← List.cons_append, ← List.cons_append, ← split, ← split'] at front
  obtain ⟨rfl, back⟩ := cancels _ _ _ _ spells spells'
    (delimited_blank blankAfter (delimited_cons ends))
    (delimited_blank blankAfter' (delimited_cons ends')) front
  exact ⟨rfl, blank_cancel blankAfter blankAfter' solid solid' back⟩

/-- A row of items in front of what closes it is one item in front of the rest of the row. -/
theorem separated_cons {items : List α} (h : Separated ((x :: items).map spell) text) :
    ∃ first c tail, text ++ close :: rest = first ++ c :: tail ∧ Padded (spell x) first ∧
      (items = [] ∧ c = close ∧ tail = rest ∨
        items ≠ [] ∧ c = ',' ∧ ∃ others, tail = others ++ close :: rest ∧
          Separated (items.map spell) others) := by
  cases items with
  | nil => exact ⟨text, close, rest, rfl, h, .inl ⟨rfl, rfl, rfl⟩⟩
  | cons next items =>
      obtain ⟨first, others, rfl, padded, separated⟩ := h
      refine ⟨first, ',', others ++ close :: rest, by simp, padded, .inr ⟨nofun, rfl, ?_⟩⟩
      exact ⟨others, rfl, separated⟩

/-- A row of items is over before it begins only if it has none. -/
theorem separated_open {items : List α} (opens : Opens (spell x) close)
    (solid : isBlank close = false) (blank : Blank text)
    (h : Separated ((x :: items).map spell) text')
    (same : text ++ close :: rest = text' ++ close :: rest') : False := by
  obtain ⟨first, c, tail, split, ⟨before, inside, after, rfl, blank', spells, -⟩, -⟩ :=
    @separated_cons α spell x close text' rest' items h
  obtain ⟨d, others, rfl, solid', different⟩ := opens inside spells
  rw [split] at same
  simp only [List.append_assoc, List.cons_append] at same
  exact different (List.cons.inj (blank_cancel blank blank' solid solid' same)).1.symm

/-- Rows of items cancel when the items do. -/
theorem items_cancel (comma : close ≠ ',') (solid : isBlank close = false)
    (ends : isNumberChar close = false) (opens : ∀ item, Opens (spell item) close) {xs ys : List α}
    (cancels : ∀ x ∈ xs, ∀ y ∈ ys, Cancels spell x y) (h : Separated (xs.map spell) text)
    (h' : Separated (ys.map spell) text')
    (same : text ++ close :: rest = text' ++ close :: rest') : xs = ys ∧ rest = rest' := by
  induction xs generalizing ys text text' with
  | nil =>
      cases ys with
      | nil => exact ⟨rfl, (List.cons.inj (blank_cancel h h' solid solid same)).2⟩
      | cons y ys => exact (separated_open (opens y) solid h h' same).elim
  | cons x xs ih =>
      cases ys with
      | nil => exact (separated_open (opens x) solid h' h same.symm).elim
      | cons y ys =>
          obtain ⟨first, c, tail, split, padded, next⟩ :=
            @separated_cons α spell x close text rest xs h
          obtain ⟨first', c', tail', split', padded', next'⟩ :=
            @separated_cons α spell y close text' rest' ys h'
          have kinds : ∀ {d : Char}, d = close ∨ d = ',' →
              isBlank d = false ∧ isNumberChar d = false := by
            rintro d (rfl | rfl)
            · exact ⟨solid, ends⟩
            · exact ⟨rfl, rfl⟩
          have kind := kinds (next.imp (·.2.1) (·.2.1))
          have kind' := kinds (next'.imp (·.2.1) (·.2.1))
          rw [split, split'] at same
          obtain ⟨rfl, tails⟩ := padded_cancel (opens x) (opens y)
            (cancels x List.mem_cons_self y List.mem_cons_self) padded padded' kind.1 kind'.1
            kind.2 kind'.2 same
          obtain ⟨rfl, rfl⟩ := List.cons.inj tails
          obtain ⟨rfl, rfl, rfl⟩ | ⟨-, rfl, others, rfl, separated⟩ := next
          · obtain ⟨rfl, -, rfl⟩ | ⟨-, wrong, -⟩ := next'
            · exact ⟨rfl, rfl⟩
            · exact absurd wrong comma
          · obtain ⟨-, wrong, -⟩ | ⟨-, -, others', more, separated'⟩ := next'
            · exact absurd wrong.symm comma
            · obtain ⟨rfl, rests⟩ := ih (fun x member y member' => cancels x
                (List.mem_cons_of_mem _ member) y (List.mem_cons_of_mem _ member'))
                separated separated' more
              exact ⟨rfl, rests⟩

end

/-! ### Values -/

section

variable {numbers : NumberReader} {values : List Json} {fields : List (String × Json)}
variable {value : Json} {text : List Char}

/-- The texts of a member. -/
def spellMember (numbers : NumberReader) (field : String × Json) : List Char → Prop :=
  SpellsMember field.1 (Spells numbers field.2)

@[simp] theorem spells_array : Spells numbers (.array values) text ↔
    ∃ inside, text = '[' :: inside ++ [']'] ∧
      Separated (values.map (Spells numbers)) inside := by
  have all : spellings numbers values = values.map (Spells numbers) := by
    induction values with
    | nil => rfl
    | cons value values ih => rw [spellings, ih, List.map_cons]
  rw [Spells, all]

@[simp] theorem spells_object : Spells numbers (.object fields) text ↔
    ∃ inside, text = '{' :: inside ++ ['}'] ∧
      Separated (fields.map (spellMember numbers)) inside := by
  have all : memberSpellings numbers fields = fields.map (spellMember numbers) := by
    induction fields with
    | nil => rfl
    | cons field fields ih => rw [memberSpellings, ih, List.map_cons]; rfl
  rw [Spells, all]

/-- The first character of a text shows the kind of the value that it spells. -/
theorem spells_head (spells : Spells numbers value text) :
    ∃ c rest, text = c :: rest ∧ kindOfChar c = value.kind := by
  cases value with
  | null => exact ⟨_, _, spells, rfl⟩
  | bool value =>
      cases value with
      | true => exact ⟨_, _, spells, rfl⟩
      | false => exact ⟨_, _, spells, rfl⟩
  | number value =>
      obtain ⟨nonempty, chars⟩ := numbers.chars text value spells
      obtain ⟨c, rest, rfl⟩ := List.exists_cons_of_ne_nil nonempty
      have number := chars c List.mem_cons_self
      exact ⟨c, rest, rfl, by simp [kindOfChar, number, kind]⟩
  | string value =>
      obtain ⟨inside, rfl, -⟩ := spells
      exact ⟨_, _, rfl, rfl⟩
  | array values =>
      obtain ⟨inside, rfl, -⟩ := spells_array.mp spells
      exact ⟨_, _, rfl, rfl⟩
  | object fields =>
      obtain ⟨inside, rfl, -⟩ := spells_object.mp spells
      exact ⟨_, _, rfl, rfl⟩

theorem kind_lt (value : Json) : value.kind < 7 := by
  cases value with
  | bool value => cases value <;> decide
  | _ => simp [kind]

theorem kindOfChar_of_isBlank {c : Char} (blank : isBlank c = true) : kindOfChar c = 7 := by
  simp only [isBlank, Bool.or_eq_true, decide_eq_true_eq] at blank
  obtain ((rfl | rfl) | rfl) | rfl := blank <;> rfl

/-- The text of a value begins with no blank and no closing bracket. -/
theorem opens_spells (value : Json) : Opens (Spells numbers value) ']' := by
  intro text spells
  obtain ⟨c, rest, rfl, shown⟩ := spells_head spells
  refine ⟨c, rest, rfl, Bool.eq_false_of_not_eq_true fun blank => ?_, ?_⟩
  · rw [kindOfChar_of_isBlank blank] at shown
    exact absurd (kind_lt value) (by omega)
  · rintro rfl
    exact kind_ne_kindOfChar_close value shown.symm

theorem opens_spellMember (field : String × Json) : Opens (spellMember numbers field) '}' := by
  rintro text ⟨name, rest, rfl, ⟨spelled, after, rfl, ⟨inside, rfl, -⟩, -⟩, -⟩
  exact ⟨'"', inside ++ '"' :: (after ++ ':' :: rest), by simp, rfl, by decide⟩

theorem spells_kind_eq {left right : Json} {text' rest rest' : List Char}
    (spells : Spells numbers left text) (spells' : Spells numbers right text')
    (same : text ++ rest = text' ++ rest') : left.kind = right.kind := by
  obtain ⟨c, tail, rfl, kind⟩ := spells_head spells
  obtain ⟨c', tail', rfl, kind'⟩ := spells_head spells'
  rw [← kind, ← kind', (List.cons.inj same).1]

/-- Members cancel when their values do. -/
theorem spellMember_cancel {left right : String × Json}
    (cancels : Cancels (Spells numbers) left.2 right.2) :
    Cancels (spellMember numbers) left right := by
  rintro _ _ rest rest'
    ⟨_, _, rfl, ⟨name, after, rfl, key, blank⟩, before, spelled, rfl, blankBefore, spells⟩
    ⟨_, _, rfl, ⟨name', after', rfl, key', blank'⟩, before', spelled', rfl, blankBefore',
      spells'⟩ delimited delimited' same
  simp only [List.append_assoc, List.cons_append] at same
  obtain ⟨keys, same⟩ := spellsString_cancel key key' same
  have colons := blank_cancel blank blank' (by decide) (by decide) same
  have same := (List.cons.inj colons).2
  obtain ⟨first, tail, split, solid, -⟩ := opens_spells left.2 spelled spells
  obtain ⟨first', tail', split', solid', -⟩ := opens_spells right.2 spelled' spells'
  rw [split, split', List.cons_append, List.cons_append] at same
  have front := blank_cancel blankBefore blankBefore' solid solid' same
  rw [← List.cons_append, ← List.cons_append, ← split, ← split'] at front
  obtain ⟨values, rests⟩ := cancels _ _ _ _ spells spells' delimited delimited' front
  exact ⟨Prod.ext keys values, rests⟩

/-- The text of a number is what there is of number characters. -/
theorem number_cancel {left right : JsonNumber} {text' rest rest' : List Char}
    (spells : numbers.read text = some left) (spells' : numbers.read text' = some right)
    (delimited : Delimited rest) (delimited' : Delimited rest')
    (same : text ++ rest = text' ++ rest') : left = right ∧ rest = rest' := by
  have takes : ∀ {number : JsonNumber} {text rest : List Char}, numbers.read text = some number →
      Delimited rest → (text ++ rest).takeWhile isNumberChar = text := by
    intro number text rest read delimited
    have stops : rest.takeWhile isNumberChar = [] := by
      cases rest with
      | nil => rfl
      | cons c tail => rw [List.takeWhile_cons_of_neg (by simp [delimited c tail rfl])]
    rw [List.takeWhile_append_of_pos (numbers.chars text number read).2, stops, List.append_nil]
  have texts : text = text' := by
    rw [← takes spells delimited, same, takes spells' delimited']
  subst texts
  rw [spells, Option.some.injEq] at spells'
  exact ⟨spells', List.append_cancel_left same⟩

/-- The values of two texts in front of a text are the same. -/
theorem spells_cancel (left right : Json) : Cancels (Spells numbers) left right := by
  induction left generalizing right with
  | null =>
      intro text text' rest rest' spells spells' _ _ same
      cases right with
      | null =>
          obtain rfl := spells
          obtain rfl := spells'
          exact ⟨rfl, List.append_cancel_left same⟩
      | bool value => cases value <;> cases spells_kind_eq spells spells' same
      | _ => cases spells_kind_eq spells spells' same
  | bool value =>
      intro text text' rest rest' spells spells' _ _ same
      cases right with
      | bool value' =>
          cases value <;> cases value' <;> try cases spells_kind_eq spells spells' same
          all_goals
            obtain rfl := spells
            obtain rfl := spells'
            exact ⟨rfl, List.append_cancel_left same⟩
      | _ => cases value <;> cases spells_kind_eq spells spells' same
  | number value =>
      intro text text' rest rest' spells spells' delimited delimited' same
      cases right with
      | number value' =>
          obtain ⟨rfl, rests⟩ := number_cancel spells spells' delimited delimited' same
          exact ⟨rfl, rests⟩
      | bool value => cases value <;> cases spells_kind_eq spells spells' same
      | _ => cases spells_kind_eq spells spells' same
  | string value =>
      intro text text' rest rest' spells spells' _ _ same
      cases right with
      | string value' =>
          obtain ⟨rfl, rests⟩ := spellsString_cancel spells spells' same
          exact ⟨rfl, rests⟩
      | bool value => cases value <;> cases spells_kind_eq spells spells' same
      | _ => cases spells_kind_eq spells spells' same
  | array values ih =>
      intro text text' rest rest' spells spells' _ _ same
      cases right with
      | array values' =>
          obtain ⟨inside, rfl, items⟩ := spells_array.mp spells
          obtain ⟨inside', rfl, items'⟩ := spells_array.mp spells'
          simp only [List.cons_append, List.append_assoc, List.nil_append, List.cons.injEq,
            true_and] at same
          obtain ⟨rfl, rests⟩ := items_cancel (by decide) (by decide) (by decide) opens_spells
            (fun x member y _ => ih x member y) items items' same
          exact ⟨rfl, rests⟩
      | bool value => cases value <;> cases spells_kind_eq spells spells' same
      | _ => cases spells_kind_eq spells spells' same
  | object fields ih =>
      intro text text' rest rest' spells spells' _ _ same
      cases right with
      | object fields' =>
          obtain ⟨inside, rfl, items⟩ := spells_object.mp spells
          obtain ⟨inside', rfl, items'⟩ := spells_object.mp spells'
          simp only [List.cons_append, List.append_assoc, List.nil_append, List.cons.injEq,
            true_and] at same
          obtain ⟨rfl, rests⟩ := items_cancel (by decide) (by decide) (by decide)
            opens_spellMember (fun x member y _ => spellMember_cancel (ih x member y.2))
            items items' same
          exact ⟨rfl, rests⟩
      | bool value => cases value <;> cases spells_kind_eq spells spells' same
      | _ => cases spells_kind_eq spells spells' same

/-- A text spells one value at most. -/
theorem SpellsText.unique {left right : Json} (spells : SpellsText numbers left text)
    (spells' : SpellsText numbers right text) : left = right := by
  have same : text ++ [']'] = text ++ [']'] := rfl
  exact (padded_cancel (opens_spells left) (opens_spells right) (spells_cancel left right) spells
    spells' rfl rfl rfl rfl same).1

/-! ## What is written spells the value -/

theorem spellsChar_escapeChar (c : Char) : SpellsChar c (escapeChar c) := by
  rw [escapeChar]
  split
  · next same => exact .short (by rw [same]; decide)
  split
  · next same => exact .short (by rw [same]; decide)
  split
  · next same => exact .short (by rw [same]; decide)
  split
  · next same => exact .short (by rw [same]; decide)
  split
  · next same => exact .short (by rw [same]; decide)
  split
  · next same => exact .short (by rw [same]; decide)
  split
  · next same => exact .short (by rw [same]; decide)
  next quote backslash _ _ _ _ _ =>
  split
  · next control =>
      have digits : ∀ n < 32, hex4? '0' '0' (hexChar (n / 16)) (hexChar (n % 16)) = some n := by
        decide
      exact .unicode (digits c.toNat control)
  · next printable => exact .plain quote backslash (by omega)

theorem spellsString_stringText (value : String) : SpellsString value (stringText value) := by
  have chars : ∀ cs : List Char, SpellsChars cs (cs.flatMap escapeChar) := by
    intro cs
    induction cs with
    | nil => rfl
    | cons c cs ih => exact ⟨escapeChar c, _, List.flatMap_cons, spellsChar_escapeChar c, ih⟩
  exact ⟨_, rfl, chars value.toList⟩

theorem padded_self {P : List Char → Prop} {text : List Char} (h : P text) : Padded P text :=
  ⟨[], text, [], by simp, nofun, h, nofun⟩

theorem separated_written {α : Type} {spell : α → List Char → Prop} {write : α → List Char}
    {items : List α} (each : ∀ item ∈ items, spell item (write item)) :
    Separated (items.map spell) (separated (items.map write)) := by
  induction items with
  | nil => exact fun c member => absurd member List.not_mem_nil
  | cons item items ih =>
      obtain ⟨first, others⟩ := List.forall_mem_cons.mp each
      have rest := ih others
      cases items with
      | nil =>
          have alone : separated ([item].map write) = write item := List.append_nil _
          rw [alone]
          exact padded_self first
      | cons next items =>
          exact ⟨write item, separated ((next :: items).map write), rfl, padded_self first, rest⟩

/-- What a value is written as spells it. -/
theorem spells_written (numbers : NumberReader)
    (readable : value.EveryNumber fun number => numbers.read number.text = some number) :
    Spells numbers value value.written := by
  induction value with
  | null => rfl
  | bool value => cases value <;> rfl
  | number value => exact readable
  | string value => exact spellsString_stringText value
  | array values ih =>
      rw [written_array, spells_array]
      refine ⟨_, rfl, separated_written fun value member => ?_⟩
      exact ih value member (everyNumber_array.mp readable value member)
  | object fields ih =>
      rw [written_object, spells_object]
      refine ⟨_, rfl, separated_written fun field member => ?_⟩
      have inside := ih field member (everyNumber_object.mp readable field member)
      exact ⟨stringText field.1, field.2.written, rfl,
        ⟨_, [], (List.append_nil _).symm, spellsString_stringText _, nofun⟩, [], _, rfl, nofun,
        inside⟩

/-- Every item of a row has a text. -/
theorem exists_of_separated {α : Type} {spell : α → List Char → Prop} {items : List α}
    {text : List Char} (h : Separated (items.map spell) text) :
    ∀ item ∈ items, ∃ inside, spell item inside := by
  induction items generalizing text with
  | nil => exact nofun
  | cons item items ih =>
      cases items with
      | nil =>
          obtain ⟨_, inside, _, -, -, spells, -⟩ := h
          intro other member
          exact List.mem_singleton.mp member ▸ ⟨inside, spells⟩
      | cons next items =>
          obtain ⟨_, others, -, ⟨_, inside, _, -, -, spells, -⟩, rest⟩ := h
          exact List.forall_mem_cons.mpr ⟨⟨inside, spells⟩, ih rest⟩

/-- Every number of a value that a text spells is read back from what is written for it. -/
theorem readable_of_spells (spells : Spells numbers value text) :
    value.EveryNumber fun number => numbers.read number.text = some number := by
  induction value generalizing text with
  | number value => exact numbers.readBack text value spells
  | array values ih =>
      obtain ⟨inside, -, items⟩ := spells_array.mp spells
      rw [everyNumber_array]
      intro value member
      obtain ⟨spelled, there⟩ := exists_of_separated items value member
      exact ih value member there
  | object fields ih =>
      obtain ⟨inside, -, items⟩ := spells_object.mp spells
      rw [everyNumber_object]
      intro field member
      obtain ⟨_, _, _, -, -, _, spelled, -, -, there⟩ := exists_of_separated items field member
      exact ih field member there
  | _ => trivial

end

end Json
