import Mathlib

/-!
# Escapes

A table of escapes replaces some characters by a mark and two more characters. The mark
is escaped itself and the two characters are not, so what was escaped can be read back,
and of the escaped characters only the mark is left.
-/

structure EscapeTable (α : Type) where
  mark : α
  /-- The escaped characters, each with the two that follow the mark. -/
  codes : List (α × α × α)
  marked : mark ∈ codes.map Prod.fst
  distinct : (codes.map Prod.snd).Nodup
  plain : ∀ entry ∈ codes, entry.2.1 ∉ codes.map Prod.fst ∧ entry.2.2 ∉ codes.map Prod.fst

namespace EscapeTable

variable {α : Type} [DecidableEq α] (table : EscapeTable α)

/-- The characters that are escaped. -/
def escaped : List α := table.codes.map Prod.fst

def code (c : α) : Option (α × α) := (table.codes.find? (·.1 = c)).map Prod.snd

/-- The character that two characters after the mark stand for. -/
def char (pair : α × α) : Option α := (table.codes.find? (·.2 = pair)).map Prod.fst

def escapeChar (c : α) : List α :=
  match table.code c with
  | some pair => [table.mark, pair.1, pair.2]
  | none => [c]

def escape (text : List α) : List α := text.flatMap table.escapeChar

/-- A mark without a code stands for itself. -/
def unescape : List α → List α
  | c :: first :: second :: text =>
      if c = table.mark then
        match table.char (first, second) with
        | some c => c :: unescape text
        | none => c :: unescape (first :: second :: text)
      else c :: unescape (first :: second :: text)
  | text => text

variable {table} {c : α} {text : List α}

@[simp] theorem escape_nil : table.escape [] = [] := rfl

@[simp] theorem escape_cons : table.escape (c :: text) = table.escapeChar c ++ table.escape text :=
  List.flatMap_cons

@[simp] theorem escape_append {rest : List α} :
    table.escape (text ++ rest) = table.escape text ++ table.escape rest := List.flatMap_append

theorem code_eq_none : table.code c = none ↔ c ∉ table.escaped := by
  rw [code, Option.map_eq_none_iff, List.find?_eq_none, escaped, List.mem_map]
  simp only [decide_eq_true_eq, not_exists, not_and]

theorem escapeChar_of_notMem (plain : c ∉ table.escaped) : table.escapeChar c = [c] := by
  rw [escapeChar, code_eq_none.mpr plain]

theorem escape_eq_self (plain : ∀ c ∈ text, c ∉ table.escaped) : table.escape text = text := by
  induction text with
  | nil => rfl
  | cons c text ih =>
      rw [escape_cons, escapeChar_of_notMem (plain c (by simp)),
        ih fun c member => plain c (List.mem_cons_of_mem _ member)]
      rfl

theorem mem_of_code {pair : α × α} (h : table.code c = some pair) : (c, pair) ∈ table.codes := by
  obtain ⟨entry, found, rfl⟩ := Option.map_eq_some_iff.mp h
  have same : decide (entry.1 = c) = true :=
    List.find?_some (p := fun entry : α × α × α => decide (entry.1 = c)) found
  rw [← of_decide_eq_true same]
  exact List.mem_of_find?_eq_some found

theorem char_of_code {pair : α × α} (h : table.code c = some pair) : table.char pair = some c := by
  have member := mem_of_code h
  cases found : table.codes.find? (·.2 = pair) with
  | none => simpa using List.find?_eq_none.mp found _ member
  | some entry =>
      have same : decide (entry.2 = pair) = true :=
        List.find?_some (p := fun entry : α × α × α => decide (entry.2 = pair)) found
      have there := List.mem_of_find?_eq_some found
      rw [char, found, List.inj_on_of_nodup_map table.distinct there member
        (of_decide_eq_true same)]
      rfl

/-- Of the escaped characters, only the mark is left. -/
theorem mem_escape (member : c ∈ table.escape text) : c ∉ table.escaped ∨ c = table.mark := by
  obtain ⟨d, _, member⟩ := List.mem_flatMap.mp member
  rw [escapeChar] at member
  cases h : table.code d with
  | none =>
      rw [h, List.mem_singleton] at member
      exact .inl (member ▸ code_eq_none.mp h)
  | some pair =>
      obtain ⟨first, second⟩ := table.plain _ (mem_of_code h)
      rw [h] at member
      rcases List.mem_cons.mp member with rfl | member
      · exact .inr rfl
      rcases List.mem_cons.mp member with rfl | member
      · exact .inl first
      · exact .inl (List.mem_singleton.mp member ▸ second)

theorem unescape_cons (plain : c ≠ table.mark) :
    table.unescape (c :: text) = c :: table.unescape text := by
  match text with
  | [] => rfl
  | [_] => rfl
  | _ :: _ :: _ => rw [unescape, if_neg plain]

/-- What was escaped is read back. -/
theorem unescape_escape : table.unescape (table.escape text) = text := by
  induction text with
  | nil => rfl
  | cons c text ih =>
      rw [escape_cons, escapeChar]
      cases h : table.code c with
      | none =>
          have plain : c ≠ table.mark := by
            rintro rfl
            exact code_eq_none.mp h table.marked
          exact (unescape_cons plain).trans (congrArg (c :: ·) ih)
      | some pair =>
          change table.unescape (table.mark :: pair.1 :: pair.2 :: table.escape text) = _
          rw [unescape, if_pos rfl, char_of_code h]
          exact congrArg (c :: ·) ih

end EscapeTable

/-! ## Separators -/

namespace List

variable {α : Type}

/-- The text before the first separator, and the text after it. -/
def cutAt [DecidableEq α] (separator : α) (text : List α) : List α × List α :=
  (text.takeWhile (· ≠ separator), (text.dropWhile (· ≠ separator)).drop 1)

theorem cutAt_append [DecidableEq α] {separator : α} {text rest : List α}
    (free : separator ∉ text) : (text ++ separator :: rest).cutAt separator = (text, rest) := by
  have before : ∀ c ∈ text, decide (c ≠ separator) = true := by
    rintro c member
    exact decide_eq_true fun same => free (same ▸ member)
  rw [cutAt, takeWhile_append_of_pos before, dropWhile_append_of_pos before]
  simp

theorem mem_intercalate {separator c : α} {texts : List (List α)}
    (member : c ∈ [separator].intercalate texts) : c = separator ∨ ∃ text ∈ texts, c ∈ text := by
  induction texts with
  | nil => exact absurd member not_mem_nil
  | cons text texts ih =>
      cases texts with
      | nil => exact .inr ⟨text, mem_cons_self, by simpa using member⟩
      | cons next texts =>
          rw [intercalate_cons_cons, mem_append, mem_append, mem_singleton] at member
          rcases member with (inside | rfl) | later
          · exact .inr ⟨text, mem_cons_self, inside⟩
          · exact .inl rfl
          · rcases ih later with same | ⟨other, there, inside⟩
            · exact .inl same
            · exact .inr ⟨other, mem_cons_of_mem _ there, inside⟩

end List
