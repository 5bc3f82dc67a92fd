import Mathlib
import Stratadiff.Lib.Fallible
import Stratadiff.Lib.Json
import Stratadiff.Lib.OrderedMap

/-!
# Documents and the readers derived for them

A document is what a streaming JSON reader meets in a text: members in the order of the text,
repeated ones kept, and a mark where the text stops being JSON. A value that is passed over is
looked at less closely than one that is read: a string that is no text and a number out of
range are then no error.
-/

inductive Document where
  | null
  | bool (value : Bool)
  | number (value : Option JsonNumber)
  | string (value : Option String)
  | array (elements : List Document)
  | object (members : List (Option String × Document))
  | malformed

/-- The members of a record by their names. -/
abbrev Fields := List (String × Document)

namespace Document

/-- Induction over a document and everything inside it. -/
@[elab_as_elim, induction_eliminator]
theorem induction {P : Document → Prop} (null : P .null) (bool : ∀ value, P (.bool value))
    (number : ∀ value, P (.number value)) (string : ∀ value, P (.string value))
    (array : ∀ elements, (∀ element ∈ elements, P element) → P (.array elements))
    (object : ∀ members : List (Option String × Document),
      (∀ member ∈ members, P member.2) → P (.object members))
    (malformed : P .malformed) (document : Document) : P document := by
  refine @Document.rec P (fun elements => ∀ element ∈ elements, P element)
    (fun members => ∀ member ∈ members, P member.2) (fun member => P member.2)
    null bool number string array object malformed ?_ ?_ ?_ ?_ ?_ document
  · exact fun _ member => absurd member List.not_mem_nil
  · exact fun head tail first rest => List.forall_mem_cons.mpr ⟨first, rest⟩
  · exact fun _ member => absurd member List.not_mem_nil
  · exact fun head tail first rest => List.forall_mem_cons.mpr ⟨first, rest⟩
  · exact fun name document holds => holds

def natural (value : Nat) : Document := .number (some (.unsigned value))

def text (value : String) : Document := .string (some value)

def unreadable : Failure := .invalid "invalid JSON text"

def unexpected (expected : String) : Failure := .invalid s!"invalid type, expected {expected}"

mutual

/-- Pass over a value. -/
def ignore : Document → Result Unit
  | .array elements => ignoreElements elements
  | .object members => ignoreMembers members
  | .malformed => .error unreadable
  | _ => .ok ()

def ignoreElements : List Document → Result Unit
  | [] => .ok ()
  | element :: elements => do
      element.ignore
      ignoreElements elements

def ignoreMembers : List (Option String × Document) → Result Unit
  | [] => .ok ()
  | (_, value) :: members => do
      value.ignore
      ignoreMembers members

end

/-! ## Values -/

section

variable {α : Type}

def readString : Document → Result String
  | .string (some text) => .ok text
  | .string none | .malformed => .error unreadable
  | _ => .error (unexpected "a string")

def readBool : Document → Result Bool
  | .bool value => .ok value
  | .malformed => .error unreadable
  | _ => .error (unexpected "a boolean")

def readUsize : Document → Result Nat
  | .number (some (.unsigned value)) => do
      Result.ensure (value ≤ usizeMax) (unexpected "usize")
      return value
  | .number none | .malformed => .error unreadable
  | _ => .error (unexpected "usize")

/-- An absent value is written as null. -/
def readOption (read : Document → Result α) : Document → Result (Option α)
  | .null => .ok none
  | document => do return some (← read document)

def readVec (read : Document → Result α) : Document → Result (List α)
  | .array elements => elements.mapM read
  | .malformed => .error unreadable
  | _ => .error (unexpected "a sequence")

/-- A variant without data is its name, or an object with the name as its one member. -/
def readVariant (variants : List (String × α)) : Document → Result α
  | .string (some name) | .object [(some name, .null)] =>
      Result.ofOption (.invalid s!"unknown variant {name}") (variants.lookup name)
  | .string none | .malformed => .error unreadable
  | _ => .error (unexpected "an enumeration")

/-! ## Records -/

/-- The members of a record that refuses unknown and repeated ones. -/
def readMembers (names : List String) : List (Option String × Document) → Fields → Result Fields
  | [], fields => .ok fields
  | (none, _) :: _, _ => .error unreadable
  | (some name, value) :: members, fields => do
      Result.ensure (name ∈ names) (.invalid s!"unknown field {name}")
      Result.ensure (name ∉ fields.map Prod.fst) (.invalid s!"duplicate field {name}")
      readMembers names members (fields ++ [(name, value)])

/-- A record is an object, or an array with a value for every field. -/
def readFields (names : List String) : Document → Result Fields
  | .object members => readMembers names members []
  | .array elements => do
      Result.ensure (elements.length = names.length) (.invalid "invalid length")
      return names.zip elements
  | .malformed => .error unreadable
  | _ => .error (unexpected "a record")

/-- The member that says which variant a record is of, and the others. -/
def readTag (tag : String) : Document → Result (Document × Document)
  | .object members =>
      match members.filter fun member => member.1 = some tag with
      | [] => .error (.invalid s!"missing field {tag}")
      | [(_, value)] => .ok (value, .object (members.filter fun member => member.1 ≠ some tag))
      | _ => .error (.invalid s!"duplicate field {tag}")
  | .array (first :: rest) => .ok (first, .array rest)
  | .array [] => .error (.invalid s!"missing field {tag}")
  | .malformed => .error unreadable
  | _ => .error (unexpected "a tagged record")

end

end Document

namespace Fields

variable {α : Type} (fields : Fields)

def required (name : String) (read : Document → Result α) : Result α := do
  let value ← Result.ofOption (.invalid s!"missing field {name}") (fields.lookup name)
  read value

def optional (name : String) (read : Document → Result α) : Result (Option α) :=
  match fields.lookup name with
  | none => .ok none
  | some value => value.readOption read

end Fields

/-! ## What a reader that succeeds has read -/

namespace Document

variable {α : Type} {document : Document} {names : List String} {fields found : Fields}

/-- Named members, as they stand in an object. -/
def members (fields : Fields) : List (Option String × Document) :=
  fields.map fun field => (some field.1, field.2)

@[simp] theorem members_nil : members [] = [] := rfl

@[simp] theorem members_cons (name : String) (value : Document) (fields : Fields) :
    members ((name, value) :: fields) = (some name, value) :: members fields := rfl

theorem readMembers_eq_ok {entries : List (Option String × Document)}
    (read : readMembers names entries fields = .ok found)
    (distinct : (fields.map Prod.fst).Nodup) :
    ∃ rest : Fields, entries = members rest ∧ found = fields ++ rest ∧
      (found.map Prod.fst).Nodup ∧ ∀ field ∈ rest, field.1 ∈ names := by
  induction entries generalizing fields with
  | nil =>
      cases read
      exact ⟨[], rfl, (List.append_nil found).symm, distinct, List.forall_mem_nil _⟩
  | cons entry entries ih =>
      obtain ⟨_ | name, value⟩ := entry
      · cases read
      · rw [readMembers] at read
        obtain ⟨known, read⟩ := Result.check_bind_eq_ok.mp read
        obtain ⟨fresh, read⟩ := Result.check_bind_eq_ok.mp read
        rw [Result.ensure_eq_ok] at known fresh
        have distinct : ((fields ++ [(name, value)]).map Prod.fst).Nodup := by
          rw [List.map_append, List.map_singleton]
          exact List.nodup_append.mpr ⟨distinct, List.nodup_singleton name, by
            rintro other member _ (_ | _) rfl
            · exact fresh member
            · contradiction⟩
        obtain ⟨rest, rfl, rfl, distinct, listed⟩ := ih read distinct
        exact ⟨(name, value) :: rest, rfl, (List.append_cons fields _ rest).symm, distinct,
          List.forall_mem_cons.mpr ⟨known, listed⟩⟩

/-- The fields read from an object are its members, each under a known name of its own. -/
theorem readFields_object {entries : List (Option String × Document)}
    (read : readFields names (.object entries) = .ok fields) :
    entries = members fields ∧ (fields.map Prod.fst).Nodup ∧
      ∀ field ∈ fields, field.1 ∈ names := by
  obtain ⟨rest, same, rfl, distinct, listed⟩ := readMembers_eq_ok read List.nodup_nil
  exact ⟨same, distinct, listed⟩

theorem readVec_eq_ok {read : Document → Result α} {values : List α}
    (done : readVec read document = .ok values) :
    ∃ elements, document = .array elements ∧
      List.Forall₂ (fun element value => read element = .ok value) elements values := by
  cases document with
  | array elements => exact ⟨elements, rfl, Result.mapM_forall₂ done⟩
  | _ => cases done

theorem readTag_object {tag : String} {entries : List (Option String × Document)}
    {value rest : Document} (read : readTag tag (.object entries) = .ok (value, rest)) :
    rest = .object (entries.filter fun member => member.1 ≠ some tag) := by
  rw [readTag] at read
  split at read
  · cases read
  · cases read
    rfl
  · cases read

end Document

theorem Fields.required_eq_ok {α : Type} {fields : Fields} {name : String}
    {read : Document → Result α} {value : α} :
    fields.required name read = .ok value ↔
      ∃ document, fields.lookup name = some document ∧ read document = .ok value :=
  Result.ofOption_bind_eq_ok
