import Stratadiff.Lib.Json
import Stratadiff.Lib.OrderedMap

/-!
# JSON objects as maps

A value whose objects have members in any order stands for a value of maps. Its normal form
has the members of every object in the order of their keys. The canonical text is the text of
the normal form, so it is the same for two values exactly if they are the same as maps.
-/

namespace Json

mutual

/-- A predicate holds of a value and of everything inside it. -/
def Every (P : Json → Prop) : Json → Prop
  | .array values => P (.array values) ∧ EveryValue P values
  | .object fields => P (.object fields) ∧ EveryField P fields
  | value => P value

def EveryValue (P : Json → Prop) : List Json → Prop
  | [] => True
  | value :: values => Every P value ∧ EveryValue P values

def EveryField (P : Json → Prop) : List (String × Json) → Prop
  | [] => True
  | (_, value) :: fields => Every P value ∧ EveryField P fields

end

mutual

/-- Arrays and objects are nested no deeper than a limit. -/
def Within : Json → Nat → Prop
  | .array values, limit => ∃ rest, limit = rest + 1 ∧ ValuesWithin values rest
  | .object fields, limit => ∃ rest, limit = rest + 1 ∧ FieldsWithin fields rest
  | _, _ => True

def ValuesWithin : List Json → Nat → Prop
  | [], _ => True
  | value :: values, limit => Within value limit ∧ ValuesWithin values limit

def FieldsWithin : List (String × Json) → Nat → Prop
  | [], _ => True
  | (_, value) :: fields, limit => Within value limit ∧ FieldsWithin fields limit

end

/-- The order of members by their keys. -/
def keyOrder (left right : String × Json) : Prop := left.1 ≤ right.1

instance : DecidableRel keyOrder := fun left right => inferInstanceAs (Decidable (left.1 ≤ right.1))

instance : Std.Total keyOrder := ⟨fun left right => le_total left.1 right.1⟩

instance : IsTrans (String × Json) keyOrder := ⟨fun _ _ _ => le_trans⟩

mutual

/-- The members of every object in the order of their keys. -/
def normal : Json → Json
  | .array values => .array (normalValues values)
  | .object fields => .object ((normalFields fields).insertionSort keyOrder)
  | value => value

def normalValues : List Json → List Json
  | [] => []
  | value :: values => normal value :: normalValues values

def normalFields : List (String × Json) → List (String × Json)
  | [] => []
  | (key, value) :: fields => (key, normal value) :: normalFields fields

end

/-- The same value when objects are compared as maps. -/
def Same (left right : Json) : Prop := left.normal = right.normal

/-- No object has two members of one key. -/
def Distinct : Json → Prop := Every fun
  | .object fields => (fields.map Prod.fst).Nodup
  | _ => True

/-- Every number has a property. -/
def EveryNumber (P : JsonNumber → Prop) : Json → Prop := Every fun
  | .number value => P value
  | _ => True

variable {P : Json → Prop} {values : List Json} {fields : List (String × Json)} {value : Json}
variable {limit : Nat}

@[simp] theorem every_array :
    (Json.array values).Every P ↔ P (.array values) ∧ ∀ value ∈ values, value.Every P := by
  have all : EveryValue P values ↔ ∀ value ∈ values, value.Every P := by
    induction values with
    | nil => simp [EveryValue]
    | cons value values ih => rw [EveryValue, ih, List.forall_mem_cons]
  rw [Every, all]

@[simp] theorem every_object :
    (Json.object fields).Every P ↔ P (.object fields) ∧ ∀ field ∈ fields, field.2.Every P := by
  have all : EveryField P fields ↔ ∀ field ∈ fields, field.2.Every P := by
    induction fields with
    | nil => simp [EveryField]
    | cons field fields ih => rw [EveryField, ih, List.forall_mem_cons]
  rw [Every, all]

@[simp] theorem within_array : (Json.array values).Within limit ↔
    ∃ rest, limit = rest + 1 ∧ ∀ value ∈ values, value.Within rest := by
  have all (rest : Nat) : ValuesWithin values rest ↔ ∀ value ∈ values, value.Within rest := by
    induction values with
    | nil => simp [ValuesWithin]
    | cons value values ih => rw [ValuesWithin, ih, List.forall_mem_cons]
  simp only [Within, all]

@[simp] theorem within_object : (Json.object fields).Within limit ↔
    ∃ rest, limit = rest + 1 ∧ ∀ field ∈ fields, field.2.Within rest := by
  have all (rest : Nat) : FieldsWithin fields rest ↔ ∀ field ∈ fields, field.2.Within rest := by
    induction fields with
    | nil => simp [FieldsWithin]
    | cons field fields ih => rw [FieldsWithin, ih, List.forall_mem_cons]
  simp only [Within, all]

@[simp] theorem distinct_array :
    (Json.array values).Distinct ↔ ∀ value ∈ values, value.Distinct := by
  simp [Distinct]

@[simp] theorem distinct_object : (Json.object fields).Distinct ↔
    (fields.map Prod.fst).Nodup ∧ ∀ field ∈ fields, field.2.Distinct := by
  simp [Distinct]

@[simp] theorem everyNumber_array {P : JsonNumber → Prop} :
    (Json.array values).EveryNumber P ↔ ∀ value ∈ values, value.EveryNumber P := by
  simp [EveryNumber]

@[simp] theorem everyNumber_object {P : JsonNumber → Prop} :
    (Json.object fields).EveryNumber P ↔ ∀ field ∈ fields, field.2.EveryNumber P := by
  simp [EveryNumber]

theorem normalFields_eq (fields : List (String × Json)) :
    normalFields fields = fields.map fun field => (field.1, field.2.normal) := by
  induction fields with
  | nil => rfl
  | cons field fields ih => rw [normalFields, ih, List.map_cons]

@[simp] theorem normal_array : (Json.array values).normal = .array (values.map normal) := by
  have all : normalValues values = values.map normal := by
    induction values with
    | nil => rfl
    | cons value values ih => rw [normalValues, ih, List.map_cons]
  rw [normal, all]

theorem normal_object : (Json.object fields).normal =
    .object ((fields.map fun field => (field.1, field.2.normal)).insertionSort keyOrder) := by
  rw [normal, normalFields_eq]

/-- The members of a normal form are the members of the value, in their normal forms. -/
theorem normal_object_perm (fields : List (String × Json)) :
    ((fields.map fun field => (field.1, field.2.normal)).insertionSort keyOrder).Perm
      (fields.map fun field => (field.1, field.2.normal)) :=
  List.perm_insertionSort keyOrder _

theorem keys_normal_perm (fields : List (String × Json)) :
    (((fields.map fun field => (field.1, field.2.normal)).insertionSort keyOrder).map
      Prod.fst).Perm (fields.map Prod.fst) := by
  have keys := (normal_object_perm fields).map Prod.fst
  rwa [List.map_map] at keys

theorem mem_normal_object {field : String × Json}
    (member : field ∈ (fields.map fun field => (field.1, field.2.normal)).insertionSort keyOrder) :
    ∃ original ∈ fields, field = (original.1, original.2.normal) := by
  obtain ⟨original, there, rfl⟩ := List.mem_map.mp ((normal_object_perm fields).mem_iff.mp member)
  exact ⟨original, there, rfl⟩

/-- The canonical text is the text of the normal form. -/
theorem canonicalText_eq_written_normal (value : Json) :
    value.canonicalText = value.normal.written := by
  induction value with
  | array values ih =>
      rw [canonicalText, canonicalTexts_eq, normal_array, written_array, List.map_map,
        List.map_congr_left ih]
      rfl
  | object fields ih =>
      have texts : canonicalFields fields =
          (fields.map fun field => (field.1, field.2.normal)).map
            fun field => (field.1, field.2.written) := by
        rw [canonicalFields_eq, List.map_map]
        exact List.map_congr_left fun field member => by rw [ih field member]; rfl
      rw [canonicalText, texts, normal_object, written_object]
      rw [← List.map_insertionSort keyOrder (fun left right => left.1 ≤ right.1)
        (fun field : String × Json => (field.1, field.2.written)) _ fun _ _ _ _ => Iff.rfl,
        List.map_map]
      rfl
  | bool value => cases value <;> rfl
  | _ => rfl

/-- The canonical text is the same exactly for the same value of maps. -/
theorem canonicalText_eq_iff {left right : Json} :
    left.canonicalText = right.canonicalText ↔ left.Same right := by
  rw [canonicalText_eq_written_normal, canonicalText_eq_written_normal]
  exact ⟨written_injective, fun same => by rw [same]⟩

theorem Sorted.distinct (sorted : value.Sorted) : value.Distinct := by
  induction value with
  | array values ih =>
      rw [distinct_array]
      exact fun value member => ih value member (sorted_array.mp sorted value member)
  | object fields ih =>
      obtain ⟨keys, inside⟩ := sorted_object.mp sorted
      rw [distinct_object]
      exact ⟨keys.imp fun less => ne_of_lt less, fun field member =>
        ih field member (inside field member)⟩
  | _ => trivial

theorem map_normal_eq (inside : ∀ value ∈ values, value.normal = value) :
    values.map normal = values := by
  rw [List.map_congr_left inside, List.map_id']

theorem Sorted.normal_eq (sorted : value.Sorted) : value.normal = value := by
  induction value with
  | array values ih =>
      rw [normal_array, map_normal_eq fun value member =>
        ih value member (sorted_array.mp sorted value member)]
  | object fields ih =>
      obtain ⟨keys, inside⟩ := sorted_object.mp sorted
      have same : (fields.map fun field => (field.1, field.2.normal)) = fields := by
        refine (List.map_congr_left fun field member => ?_).trans (List.map_id' fields)
        rw [ih field member (inside field member)]
      rw [normal_object, same]
      exact congrArg object (List.Pairwise.insertionSort_eq
        ((List.pairwise_map.mp keys).imp fun less => le_of_lt less))
  | _ => rfl

/-- The map of an object without repeated keys, with the normal forms of its values. -/
def mapOf (fields : List (String × Json)) (distinct : (fields.map Prod.fst).Nodup) :
    OrderedMap String Json where
  entries := (fields.map fun field => (field.1, field.2.normal)).insertionSort keyOrder
  sorted := by
    have ordered := List.pairwise_insertionSort keyOrder
      (fields.map fun field => (field.1, field.2.normal))
    have different := (keys_normal_perm fields).nodup_iff.mpr distinct
    rw [List.Nodup, List.pairwise_map] at different
    rw [List.pairwise_map]
    exact ordered.imp₂ (fun _ _ least other => lt_of_le_of_ne least other) different

/-- A value of maps has a sorted normal form. -/
theorem Distinct.sorted_normal (distinct : value.Distinct) : value.normal.Sorted := by
  induction value with
  | array values ih =>
      rw [normal_array, sorted_array]
      intro value member
      obtain ⟨original, there, rfl⟩ := List.mem_map.mp member
      exact ih original there (distinct_array.mp distinct original there)
  | object fields ih =>
      obtain ⟨keys, inside⟩ := distinct_object.mp distinct
      rw [normal_object, sorted_object]
      refine ⟨(mapOf fields keys).sorted, fun field member => ?_⟩
      obtain ⟨original, there, rfl⟩ := mem_normal_object member
      exact ih original there (inside original there)
  | bool value => cases value <;> trivial
  | _ => trivial

theorem Distinct.normal_normal (distinct : value.Distinct) : value.normal.normal = value.normal :=
  distinct.sorted_normal.normal_eq

theorem Distinct.same_normal (distinct : value.Distinct) : value.normal.Same value :=
  distinct.normal_normal

theorem EveryNumber.normal {P : JsonNumber → Prop} (every : value.EveryNumber P) :
    value.normal.EveryNumber P := by
  induction value with
  | array values ih =>
      rw [normal_array, everyNumber_array]
      intro value member
      obtain ⟨original, there, rfl⟩ := List.mem_map.mp member
      exact ih original there (everyNumber_array.mp every original there)
  | object fields ih =>
      rw [normal_object, everyNumber_object]
      intro field member
      obtain ⟨original, there, rfl⟩ := mem_normal_object member
      exact ih original there (everyNumber_object.mp every original there)
  | _ => exact every

theorem Within.normal {limit : Nat} (within : value.Within limit) :
    value.normal.Within limit := by
  induction value generalizing limit with
  | array values ih =>
      obtain ⟨rest, rfl, inside⟩ := within_array.mp within
      rw [normal_array, within_array]
      refine ⟨rest, rfl, fun value member => ?_⟩
      obtain ⟨original, there, rfl⟩ := List.mem_map.mp member
      exact ih original there (inside original there)
  | object fields ih =>
      obtain ⟨rest, rfl, inside⟩ := within_object.mp within
      rw [normal_object, within_object]
      refine ⟨rest, rfl, fun field member => ?_⟩
      obtain ⟨original, there, rfl⟩ := mem_normal_object member
      exact ih original there (inside original there)
  | _ => exact within

end Json
