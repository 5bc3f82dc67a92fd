import Stratadiff.Lib.Escape
import Stratadiff.Lib.Fallible
import Stratadiff.Lib.SelfDelimiting
import Stratadiff.Lib.Utf16

/-!
# Visible text

What a browser shows of a source: a character that could hide or reorder text is replaced by
a label in brackets, and so are the brackets. A label says which code point it stands for,
and an opening bracket in the output begins a label, so the output can be read back.
-/

namespace Stratadiff.Web

open Utf16 (Text characters codePoint)

def controlNames : List (Nat × String) :=
  [(0x00, "NUL"), (0x01, "SOH"), (0x02, "STX"), (0x03, "ETX"), (0x04, "EOT"), (0x05, "ENQ"),
    (0x06, "ACK"), (0x07, "BEL"), (0x08, "BS"), (0x09, "TAB"), (0x0a, "LF"), (0x0b, "VT"),
    (0x0c, "FF"), (0x0d, "CR"), (0x0e, "SO"), (0x0f, "SI"), (0x10, "DLE"), (0x11, "DC1"),
    (0x12, "DC2"), (0x13, "DC3"), (0x14, "DC4"), (0x15, "NAK"), (0x16, "SYN"), (0x17, "ETB"),
    (0x18, "CAN"), (0x19, "EM"), (0x1a, "SUB"), (0x1b, "ESC"), (0x1c, "FS"), (0x1d, "GS"),
    (0x1e, "RS"), (0x1f, "US"), (0x7f, "DEL"), (0x85, "NEL"), (0xad, "SHY"), (0x61c, "ALM"),
    (0x200b, "ZWSP"), (0x200c, "ZWNJ"), (0x200d, "ZWJ"), (0x200e, "LRM"), (0x200f, "RLM"),
    (0x2028, "LS"), (0x2029, "PS"), (0x202a, "LRE"), (0x202b, "RLE"), (0x202c, "PDF"),
    (0x202d, "LRO"), (0x202e, "RLO"), (0x2060, "WJ"), (0x2061, "FA"), (0x2062, "IT"),
    (0x2063, "IS"), (0x2064, "IP"), (0x2066, "LRI"), (0x2067, "RLI"), (0x2068, "FSI"),
    (0x2069, "PDI"), (0x27e6, "TOKEN-OPEN"), (0x27e7, "TOKEN-CLOSE"), (0xfeff, "BOM")]

/-- The characters of labels. -/
def IsLabelChar (c : Char) : Prop :=
  c.isUpper = true ∨ c.isDigit = true ∨ c ∈ [' ', '+', '-', '⟦', '⟧']

instance (c : Char) : Decidable (IsLabelChar c) := inferInstanceAs (Decidable (_ ∨ _ ∨ _))

/-- The Unicode category `Cf`. It has no letters, digits, spaces, dashes or brackets. -/
structure FormatCharacters where
  test : Nat → Bool
  visible : ∀ c, IsLabelChar c → test c.toNat = false

/-- `toString(16)`, `toUpperCase` and `padStart`. -/
def hexadecimal (codePoint width : Nat) : List Char :=
  ((Nat.toDigits 16 codePoint).map Char.toUpper).leftpad width '0'

def controlName (codePoint : Nat) : String := (controlNames.lookup codePoint).getD "CONTROL"

/-- The template of a label. -/
def labelText (codePoint : Nat) : List Char :=
  let width := if codePoint ≤ 0xffff then 4 else 6
  '⟦' :: ((controlName codePoint).toList ++ " U".toList) ++
    '+' :: hexadecimal codePoint width ++ ['⟧']

def codePointLabel (codePoint : Nat) : Text := Utf16.ofString (String.ofList (labelText codePoint))

/-- The character of a code point; a regular expression with the flag `u` sees the code point. -/
def shouldVisualize (format : FormatCharacters) (codePoint : Nat) : Bool :=
  codePoint ≤ 0x1f || (0x7f ≤ codePoint && codePoint ≤ 0x9f) || codePoint = 0x2028 ||
    codePoint = 0x2029 || codePoint = 0x27e6 || codePoint = 0x27e7 || format.test codePoint

/-- Whether a code point is labelled when line feeds and tabs may be preserved. -/
def isLabelled (format : FormatCharacters) (preserveLineFeedAndTab : Bool) (codePoint : Nat) :
    Bool :=
  !(preserveLineFeedAndTab && (codePoint = 0x09 || codePoint = 0x0a)) &&
    shouldVisualize format codePoint

/-- What `visualize` returns. -/
structure Visualized where
  text : Option Text
  visualized : Bool
  deriving DecidableEq, Repr

/-- The loop over the characters. -/
def visualizeCharacters (format : FormatCharacters) (preserveLineFeedAndTab : Bool)
    (maxOutputLength : Nat) : List Text → Text → Bool → Except String Visualized
  | [], output, visualized => .ok ⟨some output, visualized⟩
  | character :: rest, output, visualized =>
      match codePoint character with
      | none => .error "A source character has no Unicode code point."
      | some point =>
          let labelled := isLabelled format preserveLineFeedAndTab point
          let rendered := if labelled then codePointLabel point else character
          if maxOutputLength < output.length + rendered.length then
            .ok ⟨none, visualized || labelled⟩
          else
            visualizeCharacters format preserveLineFeedAndTab maxOutputLength rest
              (output ++ rendered) (visualized || labelled)

def visualize (format : FormatCharacters) (value : Text) (preserveLineFeedAndTab : Bool)
    (maxOutputLength : Nat) : Except String Visualized :=
  visualizeCharacters format preserveLineFeedAndTab maxOutputLength (characters value) [] false

/-- `Number.MAX_SAFE_INTEGER`. -/
def maxSafeInteger : Nat := 2 ^ 53 - 1

def visibleSourceText (format : FormatCharacters) (value : Text) (maxOutputLength : Nat) :
    Except String Visualized :=
  visualize format value true maxOutputLength

def visibleInlineText (format : FormatCharacters) (value : Text) : Except String Text := do
  match (← visualize format value false maxSafeInteger).text with
  | none => .error "Inline display text exceeded the JavaScript string limit."
  | some result => .ok result

/-! ## Labels -/

theorem isLabelChar_controlName {codePoint : Nat} {c : Char}
    (member : c ∈ (controlName codePoint).toList) : IsLabelChar c ∧ c ≠ '+' ∧ c ≠ '⟧' := by
  have names : ("CONTROL" :: controlNames.map Prod.snd).all (fun name => name.toList.all
      fun c => decide (IsLabelChar c ∧ c ≠ '+' ∧ c ≠ '⟧')) = true := by decide +kernel
  rw [List.all_eq_true] at names
  refine of_decide_eq_true (List.all_eq_true.mp (names _ ?_) c member)
  rw [controlName]
  cases found : controlNames.lookup codePoint with
  | none => exact List.mem_cons_self
  | some name =>
      obtain ⟨before, after, split, _⟩ := List.lookup_eq_some_iff.mp found
      refine List.mem_cons_of_mem _ (List.mem_map.mpr ⟨(codePoint, name), ?_, rfl⟩)
      rw [split]
      exact List.mem_append_right _ List.mem_cons_self

/-- The value of a hexadecimal digit. -/
def hexValue (c : Char) : Nat := if c.isDigit then c.toNat - 48 else c.toNat - 55

def readHex (digits : List Char) : Nat :=
  digits.foldl (fun value digit => 16 * value + hexValue digit) 0

theorem upper_digitChar : ∀ digit < 16, hexValue (Nat.digitChar digit).toUpper = digit ∧
    ((Nat.digitChar digit).toUpper.isUpper = true ∨
      (Nat.digitChar digit).toUpper.isDigit = true) := by decide

/-- The digits of a number in upper case are read back, and are digits or capital letters. -/
theorem readHex_toDigits (n : Nat) : readHex ((Nat.toDigits 16 n).map Char.toUpper) = n ∧
    ∀ c ∈ (Nat.toDigits 16 n).map Char.toUpper, c.isUpper = true ∨ c.isDigit = true := by
  induction n using Nat.strong_induction_on with
  | h n ih =>
      by_cases small : n < 16
      · obtain ⟨value, shape⟩ := upper_digitChar n small
        rw [Nat.toDigits_of_lt_base small, List.map_singleton]
        refine ⟨by simpa [readHex] using value, ?_⟩
        intro c member
        exact List.mem_singleton.mp member ▸ shape
      · obtain ⟨value, shape⟩ := upper_digitChar (n % 16) (Nat.mod_lt _ (by decide))
        obtain ⟨front, shapes⟩ := ih (n / 16) (Nat.div_lt_self (by omega) (by decide))
        rw [Nat.toDigits_of_base_le (by decide) (by omega), List.map_append, List.map_singleton]
        constructor
        · rw [readHex, List.foldl_append, ← readHex, front, List.foldl_cons, List.foldl_nil, value]
          exact Nat.div_add_mod n 16
        · intro c member
          obtain earlier | last := List.mem_append.mp member
          · exact shapes c earlier
          · exact List.mem_singleton.mp last ▸ shape

theorem readHex_hexadecimal (codePoint width : Nat) :
    readHex (hexadecimal codePoint width) = codePoint := by
  have zeros : ∀ (count : Nat) (digits : List Char),
      readHex (List.replicate count '0' ++ digits) = readHex digits := by
    intro count digits
    induction count with
    | zero => rfl
    | succ count ih => rw [List.replicate_succ, List.cons_append, ← ih]; rfl
  rw [hexadecimal, List.leftpad, zeros]
  exact (readHex_toDigits codePoint).1

theorem isLabelChar_hexadecimal {codePoint width : Nat} {c : Char}
    (member : c ∈ hexadecimal codePoint width) : IsLabelChar c ∧ c ≠ '⟧' := by
  have either : c.isUpper = true ∨ c.isDigit = true := by
    rw [hexadecimal, List.leftpad] at member
    obtain zero | digit := List.mem_append.mp member
    · exact .inr (List.eq_of_mem_replicate zero ▸ by decide)
    · exact (readHex_toDigits codePoint).2 c digit
  refine ⟨either.imp_right .inl, ?_⟩
  rintro rfl
  revert either
  decide

/-- A label without its closing bracket. -/
def labelBody (codePoint : Nat) : List Char :=
  '⟦' :: ((controlName codePoint).toList ++ " U".toList) ++
    '+' :: hexadecimal codePoint (if codePoint ≤ 0xffff then 4 else 6)

theorem labelText_eq (codePoint : Nat) : labelText codePoint = labelBody codePoint ++ ['⟧'] := rfl

theorem isLabelChar_labelBody {codePoint : Nat} {c : Char} (member : c ∈ labelBody codePoint) :
    IsLabelChar c ∧ c ≠ '⟧' := by
  obtain front | hex := List.mem_append.mp member
  · obtain rfl | front := List.mem_cons.mp front
    · decide
    obtain name | space := List.mem_append.mp front
    · exact ⟨(isLabelChar_controlName name).1, (isLabelChar_controlName name).2.2⟩
    · have chars : ∀ c ∈ " U".toList, IsLabelChar c ∧ c ≠ '⟧' := by simp [IsLabelChar]
      exact chars c space
  · obtain rfl | hex := List.mem_cons.mp hex
    · decide
    · exact isLabelChar_hexadecimal hex

theorem isLabelChar_labelText {codePoint : Nat} {c : Char} (member : c ∈ labelText codePoint) :
    IsLabelChar c := by
  obtain body | closing := List.mem_append.mp (labelText_eq codePoint ▸ member)
  · exact (isLabelChar_labelBody body).1
  · exact List.mem_singleton.mp closing ▸ by decide

/-- A label says which code point it stands for. -/
theorem labelBody_injective {left right : Nat} (same : labelBody left = labelBody right) :
    left = right := by
  have free : ∀ codePoint : Nat,
      '+' ∉ '⟦' :: ((controlName codePoint).toList ++ " U".toList) := by
    intro codePoint member
    obtain opening | front := List.mem_cons.mp member
    · revert opening
      decide
    obtain name | space := List.mem_append.mp front
    · exact (isLabelChar_controlName name).2.1 rfl
    · revert space
      decide
  have cut := congrArg (List.cutAt '+') same
  rw [labelBody, labelBody, List.cutAt_append (free left), List.cutAt_append (free right)] at cut
  rw [← readHex_hexadecimal left, ← readHex_hexadecimal right, (Prod.mk.inj cut).2]

/-! ## Labels in units -/

/-- The unit of a character of a label. -/
def unitOf (c : Char) : UInt16 := .ofNat c.toNat

/-- The characters of labels are printable ASCII characters and the two brackets. -/
theorem IsLabelChar.toNat_cases {c : Char} (h : IsLabelChar c) :
    0x20 ≤ c.toNat ∧ c.toNat ≤ 0x5a ∨ c.toNat = 0x27e6 ∨ c.toNat = 0x27e7 := by
  obtain upper | digit | other := h
  · simp only [Char.isUpper, decide_eq_true_eq] at upper
    have least : 'A'.toNat ≤ c.toNat := upper.1
    have most : c.toNat ≤ 'Z'.toNat := upper.2
    exact .inl ⟨le_trans (by decide) least, most⟩
  · simp only [Char.isDigit, Bool.and_eq_true, decide_eq_true_eq] at digit
    have least : '0'.toNat ≤ c.toNat := digit.1
    have most : c.toNat ≤ '9'.toNat := digit.2
    exact .inl ⟨le_trans (by decide) least, most.trans (by decide)⟩
  · have codes : ∀ c ∈ [' ', '+', '-', '⟦', '⟧'],
        0x20 ≤ c.toNat ∧ c.toNat ≤ 0x5a ∨ c.toNat = 0x27e6 ∨ c.toNat = 0x27e7 := by simp
    exact codes c other

theorem IsLabelChar.toNat_lt {c : Char} (h : IsLabelChar c) : c.toNat < 0xd800 := by
  have codes := h.toNat_cases
  omega

theorem IsLabelChar.unitOf_toNat {c : Char} (h : IsLabelChar c) :
    (unitOf c).toNat = c.toNat :=
  UInt16.toNat_ofNat_of_lt' (h.toNat_lt.trans (by decide))

theorem IsLabelChar.unitOf_inj {c d : Char} (h : IsLabelChar c) (h' : IsLabelChar d)
    (same : unitOf c = unitOf d) : c = d := by
  have codes := congrArg UInt16.toNat same
  rw [h.unitOf_toNat, h'.unitOf_toNat] at codes
  exact Char.toNat_inj.mp codes

theorem map_unitOf_inj {left right : List Char} (first : ∀ c ∈ left, IsLabelChar c)
    (second : ∀ c ∈ right, IsLabelChar c) (same : left.map unitOf = right.map unitOf) :
    left = right := by
  induction left generalizing right with
  | nil => exact (List.map_eq_nil_iff.mp same.symm).symm
  | cons c left ih =>
      obtain ⟨d, right, rfl⟩ := List.exists_cons_of_ne_nil
        (fun empty : right = [] => by simp [empty] at same)
      obtain ⟨char, chars⟩ := List.forall_mem_cons.mp first
      obtain ⟨char', chars'⟩ := List.forall_mem_cons.mp second
      obtain ⟨head, tail⟩ := List.cons.inj same
      rw [char.unitOf_inj char' head, ih chars chars' tail]

theorem codePointLabel_eq (codePoint : Nat) :
    codePointLabel codePoint = (labelText codePoint).map unitOf := by
  have plain : ∀ text : List Char, (∀ c ∈ text, IsLabelChar c) →
      text.flatMap (fun c => Utf16.encode c.toNat) = text.map unitOf := by
    intro text
    induction text with
    | nil => exact fun _ => rfl
    | cons c text ih =>
        intro chars
        obtain ⟨first, others⟩ := List.forall_mem_cons.mp chars
        rw [List.flatMap_cons, ih others, Utf16.encode, if_pos (first.toNat_lt.trans (by decide))]
        rfl
  rw [codePointLabel, Utf16.ofString, String.toList_ofList]
  exact plain _ fun c => isLabelChar_labelText

/-- The units of a label are the ones of its characters, and no surrogates. -/
theorem unit_of_codePointLabel {codePoint : Nat} {unit : UInt16}
    (member : unit ∈ codePointLabel codePoint) :
    ∃ c, IsLabelChar c ∧ unit.toNat = c.toNat ∧ ¬ Utf16.IsHigh unit := by
  rw [codePointLabel_eq] at member
  obtain ⟨c, inside, rfl⟩ := List.mem_map.mp member
  have char := isLabelChar_labelText inside
  refine ⟨c, char, char.unitOf_toNat, fun high => ?_⟩
  have least := high.1
  rw [char.unitOf_toNat] at least
  exact absurd char.toNat_lt (not_lt.mpr least)

/-- A label and what stands behind it are told apart. -/
theorem selfDelimiting_codePointLabel : SelfDelimiting codePointLabel fun _ => True := by
  intro left right _ _ x y same
  have free : ∀ codePoint, unitOf '⟧' ∉ (labelBody codePoint).map unitOf := by
    intro codePoint member
    obtain ⟨c, inside, closing⟩ := List.mem_map.mp member
    obtain ⟨char, different⟩ := isLabelChar_labelBody inside
    exact different (char.unitOf_inj (by decide) closing)
  have parts : ∀ (codePoint : Nat) (rest : Text), codePointLabel codePoint ++ rest =
      (labelBody codePoint).map unitOf ++ unitOf '⟧' :: rest := by
    intro codePoint rest
    rw [codePointLabel_eq, labelText_eq, List.map_append, List.append_assoc]
    rfl
  have cut := congrArg (List.cutAt (unitOf '⟧')) same
  rw [parts, parts, List.cutAt_append (free left), List.cutAt_append (free right)] at cut
  obtain ⟨bodies, rest⟩ := Prod.mk.inj cut
  refine ⟨labelBody_injective (map_unitOf_inj ?_ ?_ bodies), rest⟩
  · exact fun c member => (isLabelChar_labelBody member).1
  · exact fun c member => (isLabelChar_labelBody member).1

/-! ## The output of a text -/

section

variable (format : FormatCharacters) (preserve : Bool)

/-- A character is labelled when its code point is. -/
def isLabelledCharacter (character : Text) : Bool :=
  (codePoint character).any (isLabelled format preserve)

/-- What the loop renders of a character. -/
def rendered (character : Text) : Text :=
  match codePoint character with
  | none => character
  | some point => if isLabelled format preserve point then codePointLabel point else character

/-- What a text is shown as when there is room for it. -/
def rendering (value : Text) : Text := (characters value).flatMap (rendered format preserve)

end

section

variable {format : FormatCharacters} {preserve : Bool} {value value' character : Text}

/-- Characters are rendered one after another until there is no more room. -/
theorem visualizeCharacters_eq {maxOutputLength : Nat} {all : List Text}
    (chars : ∀ character ∈ all, Utf16.IsCharacter character) (output : Text) (visualized : Bool) :
    if (output ++ all.flatMap (rendered format preserve)).length ≤ maxOutputLength then
      visualizeCharacters format preserve maxOutputLength all output visualized =
        .ok ⟨some (output ++ all.flatMap (rendered format preserve)),
          visualized || all.any (isLabelledCharacter format preserve)⟩
    else output.length ≤ maxOutputLength → ∃ flag,
      visualizeCharacters format preserve maxOutputLength all output visualized =
        .ok ⟨none, flag⟩ := by
  induction all generalizing output visualized with
  | nil =>
      rw [List.flatMap_nil, List.append_nil]
      split
      · rw [visualizeCharacters, List.any_nil, Bool.or_false]
      · next long => exact fun short => absurd short long
  | cons character all ih =>
      obtain ⟨first, others⟩ := List.forall_mem_cons.mp chars
      obtain ⟨point, here, -⟩ := first.codePoint
      have label : isLabelledCharacter format preserve character =
          isLabelled format preserve point := by
        rw [isLabelledCharacter, here, Option.any_some]
      have render : (if isLabelled format preserve point = true then codePointLabel point
          else character) = rendered format preserve character := by
        rw [rendered, here]
      have step := ih others (output ++ rendered format preserve character)
        (visualized || isLabelled format preserve point)
      have more : (output ++ rendered format preserve character).length ≤
          (output ++ rendered format preserve character ++
            all.flatMap (rendered format preserve)).length := by
        exact (List.prefix_append _ _).length_le
      rw [List.flatMap_cons, ← List.append_assoc]
      rw [visualizeCharacters, here]
      dsimp only
      rw [render, List.any_cons, label, ← Bool.or_assoc]
      split
      · next short =>
          rw [if_pos short] at step
          rw [← List.length_append, if_neg (not_lt.mpr (more.trans short))]
          exact step
      · next long =>
          rw [if_neg long] at step
          intro _
          rw [← List.length_append]
          split
          · exact ⟨_, rfl⟩
          · next room => exact step (not_lt.mp room)

/-- A text is shown whole or not at all, and no character of it is a fault. -/
theorem visualize_eq (maxOutputLength : Nat) :
    if (rendering format preserve value).length ≤ maxOutputLength then
      visualize format value preserve maxOutputLength =
        .ok ⟨some (rendering format preserve value),
          (characters value).any (isLabelledCharacter format preserve)⟩
    else ∃ flag, visualize format value preserve maxOutputLength = .ok ⟨none, flag⟩ := by
  have all := @visualizeCharacters_eq format preserve maxOutputLength (characters value)
    (fun _ => Utf16.isCharacter_of_mem) [] false
  rw [List.nil_append] at all
  rw [rendering]
  split
  · next short =>
      rw [if_pos short] at all
      exact all
  · next long =>
      rw [if_neg long] at all
      exact all (Nat.zero_le _)

/-! ## Reading the output back -/

/-- What the output is made of: units of the source, and labels. -/
inductive Token where
  | plain (unit : UInt16)
  | label (codePoint : Nat)

namespace Token

def code : Token → Text
  | .plain unit => [unit]
  | .label codePoint => codePointLabel codePoint

/-- What a token stands for. -/
def source : Token → Text
  | .plain unit => [unit]
  | .label codePoint => Utf16.encode codePoint

/-- An opening bracket is no unit of the source. -/
def Valid : Token → Prop
  | .plain unit => unit ≠ unitOf '⟦'
  | .label _ => True

end Token

theorem codePointLabel_head (codePoint : Nat) :
    ∃ rest, codePointLabel codePoint = unitOf '⟦' :: rest := by
  rw [codePointLabel_eq]
  exact ⟨_, rfl⟩

theorem selfDelimiting_code : SelfDelimiting Token.code Token.Valid := by
  rintro (unit | point) (unit' | point') valid valid' x y same
  · obtain ⟨rfl, rest⟩ := List.cons.inj same
    exact ⟨rfl, rest⟩
  · obtain ⟨rest, label⟩ := codePointLabel_head point'
    rw [Token.code, Token.code, label] at same
    exact absurd (List.cons.inj same).1 valid
  · obtain ⟨rest, label⟩ := codePointLabel_head point
    rw [Token.code, Token.code, label] at same
    exact absurd (List.cons.inj same).1.symm valid'
  · obtain ⟨rfl, rest⟩ := selfDelimiting_codePointLabel.eq trivial trivial same
    exact ⟨rfl, rest⟩

section

variable (format : FormatCharacters) (preserve : Bool)

/-- The tokens of a character. -/
def tokens (character : Text) : List Token :=
  match codePoint character with
  | none => character.map .plain
  | some point =>
      if isLabelled format preserve point then [.label point] else character.map .plain

end

/-- The brackets are labelled in every mode. -/
theorem isLabelled_opening : isLabelled format preserve (unitOf '⟦').toNat = true := by
  have char : IsLabelChar '⟦' := by decide
  have code : '⟦'.toNat = 0x27e6 := rfl
  rw [char.unitOf_toNat, code]
  simp [isLabelled, shouldVisualize]

theorem tokens_spec (h : Utf16.IsCharacter character) :
    (tokens format preserve character).flatMap Token.code =
        rendered format preserve character ∧
      (tokens format preserve character).flatMap Token.source = character ∧
      ∀ token ∈ tokens format preserve character, token.Valid := by
  have units : ∀ text : Text, (text.map Token.plain).flatMap Token.code = text ∧
      (text.map Token.plain).flatMap Token.source = text := by
    intro text
    induction text with
    | nil => exact ⟨rfl, rfl⟩
    | cons unit text ih =>
        rw [List.map_cons, List.flatMap_cons, List.flatMap_cons, ih.1, ih.2]
        exact ⟨rfl, rfl⟩
  obtain ⟨point, here, -, encoded⟩ := h.codePoint
  rw [tokens, rendered, here]
  dsimp only
  by_cases label : isLabelled format preserve point = true
  · rw [if_pos label, if_pos label]
    refine ⟨?_, ?_, ?_⟩
    · rw [List.flatMap_singleton, Token.code]
    · rw [List.flatMap_singleton, Token.source, encoded]
    · intro token member
      exact List.mem_singleton.mp member ▸ trivial
  · rw [if_neg label, if_neg label]
    refine ⟨(units character).1, (units character).2, ?_⟩
    intro token member
    obtain ⟨unit, inside, rfl⟩ := List.mem_map.mp member
    rintro rfl
    cases h with
    | unit unit =>
        obtain rfl := List.mem_singleton.mp inside
        cases here
        exact label isLabelled_opening
    | pair high low =>
        obtain rfl | inside := List.mem_cons.mp inside
        · exact absurd high.1 (by decide)
        · exact absurd (List.mem_singleton.mp inside ▸ low).1 (by decide)

/-- What is shown of a text, and the text, as codes and sources of the same tokens. -/
theorem rendering_eq : rendering format preserve value =
      ((characters value).flatMap (tokens format preserve)).flatMap Token.code ∧
    value = ((characters value).flatMap (tokens format preserve)).flatMap Token.source ∧
    ∀ token ∈ (characters value).flatMap (tokens format preserve), token.Valid := by
  have each : ∀ character ∈ characters value, Utf16.IsCharacter character :=
    fun _ => Utf16.isCharacter_of_mem
  refine ⟨?_, ?_, ?_⟩
  · rw [List.flatMap_assoc, rendering]
    exact List.flatMap_congr fun character member => (tokens_spec (each character member)).1.symm
  · rw [List.flatMap_assoc, List.flatMap_congr fun character member =>
      (@tokens_spec format preserve character (each character member)).2.1,
      List.flatMap_id', Utf16.flatten_characters]
  · intro token member
    obtain ⟨character, inside, member⟩ := List.mem_flatMap.mp member
    exact (tokens_spec (each character inside)).2.2 token member

/-- Texts that are shown alike are the same. -/
theorem rendering_injective
    (same : rendering format preserve value = rendering format preserve value') :
    value = value' := by
  obtain ⟨code, source, valid⟩ := @rendering_eq format preserve value
  obtain ⟨code', source', valid'⟩ := @rendering_eq format preserve value'
  have nonempty : ∀ token : Token, token.Valid → token.code ≠ [] := by
    rintro (unit | point) _
    · exact List.cons_ne_nil _ _
    · obtain ⟨rest, label⟩ := codePointLabel_head point
      exact fun empty => by simp [Token.code, label] at empty
  rw [code, code'] at same
  rw [source, source', selfDelimiting_code.flatMap nonempty valid valid' same]

/-! ## The characters of the output -/

/-- The characters that are shown for one. -/
def pieces (format : FormatCharacters) (preserve : Bool) (character : Text) : List Text :=
  if isLabelledCharacter format preserve character = true then
    (rendered format preserve character).map fun unit => [unit]
  else [character]

theorem rendered_of_isLabelled (label : isLabelledCharacter format preserve character = true) :
    ∃ point, rendered format preserve character = codePointLabel point := by
  rw [isLabelledCharacter, Option.any_eq_true] at label
  obtain ⟨point, here, label⟩ := label
  exact ⟨point, by rw [rendered, here]; exact if_pos label⟩

theorem rendered_of_not_isLabelled
    (plain : ¬ isLabelledCharacter format preserve character = true) :
    rendered format preserve character = character := by
  rw [rendered]
  cases here : codePoint character with
  | none => rfl
  | some point =>
      rw [isLabelledCharacter, here, Option.any_some] at plain
      exact if_neg plain

/-- A label in front of a text is read unit for unit. -/
theorem characters_of_isLabelled {rest : Text}
    (label : isLabelledCharacter format preserve character = true) :
    characters (rendered format preserve character ++ rest) =
      pieces format preserve character ++ characters rest := by
  obtain ⟨point, shown⟩ := rendered_of_isLabelled label
  rw [pieces, if_pos label, shown]
  refine Utf16.characters_append fun unit member => ?_
  obtain ⟨c, -, -, plain⟩ := unit_of_codePointLabel member
  exact plain

/-- The output begins with a unit of the text or with a label. -/
theorem rendering_head {unit : UInt16} {rest : Text} {first : UInt16}
    (head : first ∈ (rendering format preserve (unit :: rest)).head?) :
    first = unit ∨ first = unitOf '⟦' := by
  obtain ⟨character, others, split, starts⟩ : ∃ character others,
      characters (unit :: rest) = character :: others ∧ character.head? = some unit := by
    cases rest with
    | nil => exact ⟨[unit], [], by rw [characters], rfl⟩
    | cons next rest =>
        by_cases pair : Utf16.IsHigh unit ∧ Utf16.IsLow next
        · exact ⟨_, _, Utf16.characters_pair pair.1 pair.2, rfl⟩
        · exact ⟨[unit], characters (next :: rest), by rw [characters, if_neg pair], rfl⟩
  rw [rendering, split, List.flatMap_cons] at head
  by_cases label : isLabelledCharacter format preserve character = true
  · obtain ⟨point, shown⟩ := rendered_of_isLabelled label
    obtain ⟨tail, opening⟩ := codePointLabel_head point
    rw [shown, opening, List.cons_append, List.head?_cons] at head
    exact .inr (Option.some.inj head).symm
  · rw [rendered_of_not_isLabelled label, List.head?_append, starts] at head
    exact .inl (Option.some.inj head).symm

/-- The output is read in the characters that the loop put into it: no two of them join. -/
theorem characters_rendering : characters (rendering format preserve value) =
    (characters value).flatMap (pieces format preserve) := by
  have one : ∀ (character : Text) (others : List Text),
      (character :: others).flatMap (rendered format preserve) =
        rendered format preserve character ++ others.flatMap (rendered format preserve) :=
    fun _ _ => List.flatMap_cons
  induction value using Utf16.characters_induction with
  | nil => rfl
  | unit unit =>
      rw [rendering, characters, List.flatMap_singleton, List.flatMap_singleton]
      by_cases label : isLabelledCharacter format preserve [unit] = true
      · simpa using @characters_of_isLabelled format preserve [unit] [] label
      · rw [rendered_of_not_isLabelled label, characters, pieces, if_neg label]
  | pair unit next rest pair ih =>
      rw [rendering, Utf16.characters_pair pair.1 pair.2, one, List.flatMap_cons, ← ih]
      by_cases label : isLabelledCharacter format preserve [unit, next] = true
      · exact characters_of_isLabelled label
      · rw [rendered_of_not_isLabelled label, pieces, if_neg label]
        exact Utf16.characters_pair pair.1 pair.2
  | alone unit next rest alone ih =>
      have split : characters (unit :: next :: rest) = [unit] :: characters (next :: rest) := by
        rw [characters, if_neg alone]
      rw [rendering, split, one, List.flatMap_cons, ← ih]
      by_cases label : isLabelledCharacter format preserve [unit] = true
      · exact characters_of_isLabelled label
      · rw [rendered_of_not_isLabelled label, pieces, if_neg label]
        refine Utf16.characters_cons fun first head pair => ?_
        obtain rfl | rfl := rendering_head head
        · exact alone pair
        · exact absurd pair.2.1 (by decide)

/-- A character that is neither a control, nor a separator of lines, nor a format character. -/
def Harmless (format : FormatCharacters) (codePoint : Nat) : Prop :=
  ¬ codePoint ≤ 0x1f ∧ ¬ (0x7f ≤ codePoint ∧ codePoint ≤ 0x9f) ∧ codePoint ≠ 0x2028 ∧
    codePoint ≠ 0x2029 ∧ format.test codePoint = false

/-- What a text shows in a mode. -/
def Shows (format : FormatCharacters) (preserve : Bool) (text : Text) : Prop :=
  ∀ character ∈ characters text, ∀ point, codePoint character = some point →
    Harmless format point ∨ preserve = true ∧ (point = 0x09 ∨ point = 0x0a)

theorem harmless_of_isLabelChar {c : Char} (h : IsLabelChar c) : Harmless format c.toNat := by
  have codes := h.toNat_cases
  refine ⟨?_, ?_, ?_, ?_, format.visible c h⟩
  all_goals omega

/-- What is not labelled is harmless, or is preserved. -/
theorem harmless_of_not_isLabelled {point : Nat}
    (plain : ¬ isLabelled format preserve point = true) :
    Harmless format point ∨ preserve = true ∧ (point = 0x09 ∨ point = 0x0a) := by
  by_cases kept : preserve = true ∧ (point = 0x09 ∨ point = 0x0a)
  · exact .inr kept
  · left
    have shown : shouldVisualize format point = false := by
      cases preserve <;> simp_all [isLabelled]
    simp only [shouldVisualize, Bool.or_eq_false_iff, decide_eq_false_iff_not,
      Bool.and_eq_false_iff] at shown
    obtain ⟨⟨⟨⟨⟨⟨control, high⟩, line⟩, paragraph⟩, _⟩, _⟩, hidden⟩ := shown
    exact ⟨control, fun both => high.elim (· both.1) (· both.2), line, paragraph, hidden⟩

/-- The output shows nothing that could hide or reorder text. -/
theorem shows_rendering : Shows format preserve (rendering format preserve value) := by
  intro piece member point here
  rw [characters_rendering] at member
  obtain ⟨character, inside, member⟩ := List.mem_flatMap.mp member
  rw [pieces] at member
  split at member
  · next label =>
      obtain ⟨labelled, shown⟩ := rendered_of_isLabelled label
      rw [shown] at member
      obtain ⟨unit, unitMember, rfl⟩ := List.mem_map.mp member
      obtain ⟨c, char, code, -⟩ := unit_of_codePointLabel unitMember
      obtain rfl : unit.toNat = point := Option.some.inj here
      exact .inl (code ▸ harmless_of_isLabelChar char)
  · next plain =>
      obtain rfl := List.mem_singleton.mp member
      rw [isLabelledCharacter, here, Option.any_some] at plain
      exact harmless_of_not_isLabelled plain

/-! ## Whether anything is labelled -/

theorem length_codePointLabel (point : Nat) : 3 ≤ (codePointLabel point).length := by
  rw [codePointLabel_eq, List.length_map, labelText_eq, labelBody]
  simp only [List.length_append, List.length_cons]
  have suffix : " U".toList.length = 2 := rfl
  omega

/-- A label is longer than the character it stands for. -/
theorem length_flatMap_rendered {all : List Text}
    (chars : ∀ character ∈ all, Utf16.IsCharacter character) :
    all.flatten.length + (all.any (isLabelledCharacter format preserve)).toNat ≤
      (all.flatMap (rendered format preserve)).length := by
  induction all with
  | nil => exact Nat.le_refl _
  | cons character all ih =>
      obtain ⟨first, others⟩ := List.forall_mem_cons.mp chars
      have rest := ih others
      rw [List.flatten_cons, List.flatMap_cons, List.any_cons, List.length_append,
        List.length_append]
      by_cases label : isLabelledCharacter format preserve character = true
      · obtain ⟨point, shown⟩ := rendered_of_isLabelled label
        have long := length_codePointLabel point
        have short := first.length_le
        rw [shown, label, Bool.true_or, Bool.toNat_true]
        omega
      · rw [rendered_of_not_isLabelled label, Bool.eq_false_of_not_eq_true label, Bool.false_or]
        omega

/-- The output is the text exactly if nothing of it is labelled. -/
theorem rendering_eq_self : rendering format preserve value = value ↔
    (characters value).any (isLabelledCharacter format preserve) = false := by
  constructor
  · intro same
    have longer := @length_flatMap_rendered format preserve (characters value)
      fun _ => Utf16.isCharacter_of_mem
    rw [Utf16.flatten_characters, ← rendering, same] at longer
    exact Bool.toNat_eq_zero.mp (by omega)
  · intro none
    rw [List.any_eq_false] at none
    rw [rendering, List.flatMap_congr fun character member =>
      rendered_of_not_isLabelled (none character member), List.flatMap_id',
      Utf16.flatten_characters]

/-! ## What is shown -/

theorem visualize_eq_text {maxOutputLength : Nat} {text : Text} {visualized : Bool}
    (h : visualize format value preserve maxOutputLength = .ok ⟨some text, visualized⟩) :
    text = rendering format preserve value ∧
      visualized = (characters value).any (isLabelledCharacter format preserve) := by
  have all := @visualize_eq format preserve value maxOutputLength
  split at all
  · rw [h] at all
    cases all
    exact ⟨rfl, rfl⟩
  · obtain ⟨flag, none⟩ := all
    rw [h] at none
    cases none

theorem visibleInlineText_eq {text : Text} (h : visibleInlineText format value = .ok text) :
    text = rendering format false value := by
  obtain ⟨⟨shown, visualized⟩, visualizes, h⟩ := Result.bind_eq_ok.mp h
  cases shown with
  | none => cases h
  | some shown =>
      cases h
      exact (visualize_eq_text visualizes).1

end

/-- What is shown of a source cannot be spoofed. Two sources that are shown as the same text are
the same, the text has no control, line separator or format character except the ones that are
preserved, and the flag is down exactly if the text is the source. There is a text exactly if the
rendering of the source fits the limit. -/
theorem visible_text_faithful (format : FormatCharacters) :
    (∀ value value' text, visibleInlineText format value = .ok text →
      visibleInlineText format value' = .ok text → value = value') ∧
    (∀ value value' limit limit' text flag flag',
      visibleSourceText format value limit = .ok ⟨some text, flag⟩ →
      visibleSourceText format value' limit' = .ok ⟨some text, flag'⟩ → value = value') ∧
    (∀ value text, visibleInlineText format value = .ok text → Shows format false text) ∧
    (∀ value limit text flag, visibleSourceText format value limit = .ok ⟨some text, flag⟩ →
      Shows format true text) ∧
    (∀ value preserve limit text flag,
      visualize format value preserve limit = .ok ⟨some text, flag⟩ →
        (flag = false ↔ text = value)) ∧
    ∀ value preserve limit,
      (∃ text flag, visualize format value preserve limit = .ok ⟨some text, flag⟩) ↔
        (rendering format preserve value).length ≤ limit := by
  refine ⟨?_, ?_, ?_, ?_, ?_, ?_⟩
  · intro value value' text shown shown'
    exact rendering_injective
      ((visibleInlineText_eq shown).symm.trans (visibleInlineText_eq shown'))
  · intro value value' limit limit' text flag flag' shown shown'
    exact rendering_injective
      ((visualize_eq_text shown).1.symm.trans (visualize_eq_text shown').1)
  · intro value text shown
    rw [visibleInlineText_eq shown]
    exact shows_rendering
  · intro value limit text flag shown
    rw [(visualize_eq_text shown).1]
    exact shows_rendering
  · intro value preserve limit text flag shown
    obtain ⟨rfl, rfl⟩ := visualize_eq_text shown
    exact rendering_eq_self.symm
  · intro value preserve limit
    have shown := @visualize_eq format preserve value limit
    split at shown
    · next fits => exact iff_of_true ⟨_, _, shown⟩ fits
    · next long =>
      obtain ⟨flag, hidden⟩ := shown
      refine iff_of_false ?_ long
      rintro ⟨text, flag', shown'⟩
      rw [hidden] at shown'
      cases shown'

/-- The ranges of `Cf` in Unicode 16. -/
def formatRanges : List (Nat × Nat) :=
  [(0xad, 0xad), (0x600, 0x605), (0x61c, 0x61c), (0x6dd, 0x6dd), (0x70f, 0x70f), (0x890, 0x891),
    (0x8e2, 0x8e2), (0x180e, 0x180e), (0x200b, 0x200f), (0x202a, 0x202e), (0x2060, 0x2064),
    (0x2066, 0x206f), (0xfeff, 0xfeff), (0xfff9, 0xfffb), (0x110bd, 0x110bd), (0x110cd, 0x110cd),
    (0x13430, 0x1343f), (0x1bca0, 0x1bca3), (0x1d173, 0x1d17a), (0xe0001, 0xe0001),
    (0xe0020, 0xe007f)]

def FormatCharacters.unicode : FormatCharacters where
  test codePoint := formatRanges.any fun range => range.1 ≤ codePoint && codePoint ≤ range.2
  visible c h := by
    have codes := h.toNat_cases
    simp only [formatRanges, List.any_cons, List.any_nil, Bool.or_false, Bool.or_eq_false_iff,
      Bool.and_eq_false_iff, decide_eq_false_iff_not]
    omega

example : visibleInlineText .unicode (Utf16.ofString "dir\nname\t\x1b\x7f\u0085") =
    .ok (Utf16.ofString
      "dir⟦LF U+000A⟧name⟦TAB U+0009⟧⟦ESC U+001B⟧⟦DEL U+007F⟧⟦NEL U+0085⟧") := by
  decide +kernel

example : visibleSourceText .unicode (Utf16.ofString "⟦NUL U+0000⟧") maxSafeInteger =
    .ok ⟨some (Utf16.ofString
      "⟦TOKEN-OPEN U+27E6⟧NUL U+0000⟦TOKEN-CLOSE U+27E7⟧"), true⟩ := by
  decide +kernel

end Stratadiff.Web
