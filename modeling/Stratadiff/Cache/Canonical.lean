import Stratadiff.Git.RawDiff
import Stratadiff.Lib.Spelling

/-!
# Canonical JSON

All digests of the review cache are digests of canonical bytes. The strict parser takes a
text apart as `serde_json` does and refuses repeated keys; the canonical bytes of what it
returns depend on the value of the text alone, and are read as the same value again.
-/

namespace Stratadiff

open Json

/-- What is relied on of `serde_json`: it takes the texts that spell a value nested no deeper than
its recursion limit, and gives the value that they spell. -/
structure CacheEngine.ReadsJson (engine : CacheEngine) (numbers : NumberReader) (limit : Nat) :
    Prop where
  reads : ∀ bytes raw, engine.deserialize bytes = .ok (raw, .ok ()) ↔
    ∃ text, bytes = utf8Bytes (String.ofList text) ∧ raw.SpellsText numbers text ∧
      raw.Within limit

/-- A number that is read back from what is written for it. -/
def Readable (numbers : NumberReader) : Json → Prop :=
  EveryNumber fun number => numbers.read number.text = some number

theorem canonicalJsonBytes_eq (value : Json) :
    canonicalJsonBytes value = utf8Bytes (String.ofList value.canonicalText) := by
  rw [canonicalJsonBytes, utf8Bytes_eq_flatMap, String.toList_ofList]

theorem utf8Bytes_ofList_injective {text text' : List Char}
    (same : utf8Bytes (String.ofList text) = utf8Bytes (String.ofList text')) : text = text' := by
  have texts := congrArg utf8? same
  rw [utf8?_utf8Bytes, utf8?_utf8Bytes, Option.some.injEq] at texts
  exact String.ofList_injective texts

/-- The canonical bytes are the same exactly for the same value of maps. -/
theorem canonicalJsonBytes_eq_iff {left right : Json} :
    canonicalJsonBytes left = canonicalJsonBytes right ↔ left.Same right := by
  rw [canonicalJsonBytes_eq, canonicalJsonBytes_eq, ← canonicalText_eq_iff]
  exact ⟨utf8Bytes_ofList_injective, fun same => by rw [same]⟩

/-! ## The strict visitor -/

theorem strictValues_eq_ok {values out : List Json}
    (each : ∀ value ∈ values, ∀ out, strictValue value = .ok out ↔
      value.Distinct ∧ out = value.normal) :
    strictValues values = .ok out ↔
      (∀ value ∈ values, value.Distinct) ∧ out = values.map normal := by
  induction values generalizing out with
  | nil => simp [strictValues, eq_comm]
  | cons value values ih =>
      obtain ⟨first, others⟩ := List.forall_mem_cons.mp each
      simp only [strictValues, Result.bind_eq_ok, Result.pure_eq_ok, first, ih others,
        List.forall_mem_cons, List.map_cons]
      constructor
      · rintro ⟨_, ⟨here, rfl⟩, _, ⟨rest, rfl⟩, rfl⟩
        exact ⟨⟨here, rest⟩, rfl⟩
      · rintro ⟨⟨here, rest⟩, rfl⟩
        exact ⟨_, ⟨here, rfl⟩, _, ⟨rest, rfl⟩, rfl⟩

/-- The members of an object go into a map when their keys are new. -/
theorem strictFields_eq_ok {fields : List (String × Json)} {values out : OrderedMap String Json}
    (each : ∀ field ∈ fields, ∀ out, strictValue field.2 = .ok out ↔
      field.2.Distinct ∧ out = field.2.normal) :
    strictFields fields values = .ok out ↔
      (∀ field ∈ fields, field.2.Distinct) ∧ (fields.map Prod.fst).Nodup ∧
        (∀ field ∈ fields, field.1 ∉ values.keys) ∧
        out.entries.Perm
          (values.entries ++ fields.map fun field => (field.1, field.2.normal)) := by
  induction fields generalizing values with
  | nil =>
      simp only [strictFields, Except.ok.injEq, List.map_nil, List.append_nil]
      constructor
      · rintro rfl
        exact ⟨nofun, List.nodup_nil, nofun, .refl _⟩
      · rintro ⟨-, -, -, perm⟩
        exact (OrderedMap.ext_perm perm).symm
  | cons field fields ih =>
      obtain ⟨key, value⟩ := field
      obtain ⟨first, others⟩ := List.forall_mem_cons.mp each
      rw [strictFields, Result.bind_eq_ok]
      simp only [first, List.forall_mem_cons, List.map_cons, List.nodup_cons]
      constructor
      · rintro ⟨_, ⟨here, rfl⟩, h⟩
        cases inserted : values.insertNew key value.normal with
        | none =>
            rw [inserted] at h
            cases h
        | some next =>
            rw [inserted] at h
            obtain ⟨fresh, entries⟩ := OrderedMap.insertNew_eq_some.mp inserted
            obtain ⟨rest, nodup, new, perm⟩ := (ih others).mp h
            have keys :
                ∀ {other : String}, other ∈ next.keys ↔ other = key ∨ other ∈ values.keys := by
              intro other
              rw [OrderedMap.keys, (entries.map Prod.fst).mem_iff, List.map_cons, List.mem_cons]
              rfl
            refine ⟨⟨here, rest⟩, ⟨?_, nodup⟩, ⟨fresh, ?_⟩, ?_⟩
            · intro member
              obtain ⟨field, there, rfl⟩ := List.mem_map.mp member
              exact new field there (keys.mpr (.inl rfl))
            · exact fun field there seen => new field there (keys.mpr (.inr seen))
            · refine perm.trans ((entries.append_right _).trans ?_)
              exact List.perm_middle.symm
      · rintro ⟨⟨here, rest⟩, ⟨distinct, nodup⟩, ⟨fresh, new⟩, perm⟩
        refine ⟨_, ⟨here, rfl⟩, ?_⟩
        obtain ⟨next, inserted⟩ : ∃ next, values.insertNew key value.normal = some next := by
          have absent : values.entries.lookup key = none := OrderedMap.get?_eq_none.mpr fresh
          exact ⟨_, dif_pos absent⟩
        rw [inserted]
        obtain ⟨-, entries⟩ := OrderedMap.insertNew_eq_some.mp inserted
        refine (ih others).mpr ⟨rest, nodup, ?_, ?_⟩
        · intro field there seen
          rw [OrderedMap.keys, (entries.map Prod.fst).mem_iff, List.map_cons] at seen
          obtain same | seen := List.mem_cons.mp seen
          · obtain rfl : field.1 = key := same
            exact distinct (List.mem_map_of_mem there)
          · exact new field there seen
        · exact perm.trans (List.perm_middle.trans (entries.append_right _).symm)

/-- The strict visitor refuses repeated keys at every depth, and makes maps of the objects. -/
theorem strictValue_eq_ok {raw value : Json} :
    strictValue raw = .ok value ↔ raw.Distinct ∧ value = raw.normal := by
  induction raw generalizing value with
  | array values ih =>
      simp only [strictValue, Result.bind_eq_ok, Result.pure_eq_ok, normal_array, distinct_array,
        strictValues_eq_ok fun value member _ => ih value member]
      constructor
      · rintro ⟨_, ⟨distinct, rfl⟩, rfl⟩
        exact ⟨distinct, rfl⟩
      · rintro ⟨distinct, rfl⟩
        exact ⟨_, ⟨distinct, rfl⟩, rfl⟩
  | object fields ih =>
      simp only [strictValue, Result.bind_eq_ok, Result.pure_eq_ok, distinct_object,
        strictFields_eq_ok fun field member _ => ih field member]
      constructor
      · rintro ⟨map, ⟨distinct, nodup, -, perm⟩, rfl⟩
        have same : map = mapOf fields nodup :=
          OrderedMap.ext_perm (perm.trans (normal_object_perm fields).symm)
        rw [same, normal_object]
        exact ⟨⟨nodup, distinct⟩, rfl⟩
      · rintro ⟨⟨nodup, distinct⟩, rfl⟩
        refine ⟨mapOf fields nodup, ⟨distinct, nodup, fun _ _ => List.not_mem_nil, ?_⟩, ?_⟩
        · exact normal_object_perm fields
        · rw [normal_object]
          rfl
  | _ =>
      rw [strictValue, Except.ok.injEq]
      exact ⟨fun same => ⟨trivial, same.symm⟩, fun same => same.2.symm⟩

/-! ## The strict parser -/

section

variable {engine : CacheEngine} {numbers : NumberReader} {limit : Nat}

/-- The strict parser takes the texts of values without repeated keys. -/
theorem parseStrictJson_eq_ok (serde : engine.ReadsJson numbers limit) {bytes : Bytes}
    {label : String} {value : Json} :
    parseStrictJson engine bytes label = .ok value ↔
      ∃ (text : List Char) (raw : Json), bytes = utf8Bytes (String.ofList text) ∧
        raw.SpellsText numbers text ∧ raw.Within limit ∧ raw.Distinct ∧ value = raw.normal := by
  have accepted : parseStrictJson engine bytes label = .ok value ↔
      ∃ raw, engine.deserialize bytes = .ok (raw, .ok ()) ∧ strictValue raw = .ok value := by
    rw [parseStrictJson]
    cases engine.deserialize bytes with
    | error error => simp
    | ok answer =>
        obtain ⟨raw, trailing⟩ := answer
        dsimp only
        cases strict : strictValue raw with
        | error error =>
            simp only [reduceCtorEq, Except.ok.injEq, Prod.mk.injEq, false_iff]
            rintro ⟨_, ⟨rfl, -⟩, h⟩
            rw [strict] at h
            cases h
        | ok found =>
            cases trailing with
            | error error => simp
            | ok _ => simp [strict]
  rw [accepted]
  constructor
  · rintro ⟨raw, read, strict⟩
    obtain ⟨text, rfl, spells, within⟩ := (serde.reads _ _).mp read
    obtain ⟨distinct, rfl⟩ := strictValue_eq_ok.mp strict
    exact ⟨text, raw, rfl, spells, within, distinct, rfl⟩
  · rintro ⟨text, raw, rfl, spells, within, distinct, rfl⟩
    exact ⟨raw, (serde.reads _ _).mpr ⟨text, rfl, spells, within⟩,
      strictValue_eq_ok.mpr ⟨distinct, rfl⟩⟩

/-- The canonical bytes of a value are read as its normal form. -/
theorem parseStrictJson_canonical (serde : engine.ReadsJson numbers limit) {label : String}
    {value : Json} (distinct : value.Distinct) (readable : Readable numbers value)
    (within : value.Within limit) :
    parseStrictJson engine (canonicalJsonBytes value) label = .ok value.normal := by
  refine (parseStrictJson_eq_ok serde).mpr
    ⟨value.canonicalText, value.normal, canonicalJsonBytes_eq value, ?_, within.normal,
      distinct.sorted_normal.distinct, distinct.normal_normal.symm⟩
  rw [canonicalText_eq_written_normal]
  exact padded_self (spells_written numbers (EveryNumber.normal readable))

/-- What the strict parser returns is in normal form, and can be written and read. -/
theorem parseStrictJson_spec (serde : engine.ReadsJson numbers limit) {bytes : Bytes}
    {label : String} {value : Json} (h : parseStrictJson engine bytes label = .ok value) :
    value.Sorted ∧ Readable numbers value ∧ value.Within limit := by
  obtain ⟨text, raw, rfl, ⟨_, inside, _, rfl, -, spells, -⟩, within, distinct, rfl⟩ :=
    (parseStrictJson_eq_ok serde).mp h
  exact ⟨distinct.sorted_normal, EveryNumber.normal (readable_of_spells spells), within.normal⟩

/-- Canonical JSON is canonical. The canonical bytes tell values apart exactly as maps, the
strict parser reads a value back from them and refuses every text in which an object repeats a
key, and what it reads from any text it reads again from the canonical bytes. So the canonical
bytes of what is read from two texts are the same exactly if the texts spell the same value.
Numbers are the same if they print the same, so that `-0.0` and `0.0` are different values. -/
theorem canonical_json_identifies (serde : engine.ReadsJson numbers limit) (label : String) :
    (∀ left right : Json, left.Distinct → right.Distinct →
      (canonicalJsonBytes left = canonicalJsonBytes right ↔ left.Same right)) ∧
    (∀ value : Json, value.Distinct → Readable numbers value → value.Within limit →
      ∃ read, parseStrictJson engine (canonicalJsonBytes value) label = .ok read ∧
        read.Same value) ∧
    (∀ (raw : Json) (text : List Char), raw.SpellsText numbers text → ¬ raw.Distinct →
      ∀ value, parseStrictJson engine (utf8Bytes (String.ofList text)) label ≠ .ok value) ∧
    (∀ bytes value, parseStrictJson engine bytes label = .ok value →
      parseStrictJson engine (canonicalJsonBytes value) label = .ok value) ∧
    ∀ (raw raw' : Json) (text text' : List Char) (value value' : Json),
      raw.SpellsText numbers text → raw'.SpellsText numbers text' →
      parseStrictJson engine (utf8Bytes (String.ofList text)) label = .ok value →
      parseStrictJson engine (utf8Bytes (String.ofList text')) label = .ok value' →
        (canonicalJsonBytes value = canonicalJsonBytes value' ↔ raw.Same raw') := by
  refine ⟨fun left right _ _ => canonicalJsonBytes_eq_iff, ?_, ?_, ?_, ?_⟩
  · intro value distinct readable within
    exact ⟨_, parseStrictJson_canonical serde distinct readable within, distinct.same_normal⟩
  · intro raw text spells repeated value h
    obtain ⟨text', raw', same, spells', -, distinct, -⟩ := (parseStrictJson_eq_ok serde).mp h
    obtain rfl := utf8Bytes_ofList_injective same
    exact repeated (spells.unique spells' ▸ distinct)
  · intro bytes value h
    obtain ⟨sorted, readable, within⟩ := parseStrictJson_spec serde h
    rw [parseStrictJson_canonical serde sorted.distinct readable within, sorted.normal_eq]
  · intro raw raw' text text' value value' spells spells' h h'
    have normals : ∀ {raw value : Json} {text : List Char}, raw.SpellsText numbers text →
        parseStrictJson engine (utf8Bytes (String.ofList text)) label = .ok value →
        raw.Distinct ∧ value = raw.normal := by
      intro raw value text spells h
      obtain ⟨text', raw', same, spells', -, distinct, rfl⟩ := (parseStrictJson_eq_ok serde).mp h
      obtain rfl := utf8Bytes_ofList_injective same
      obtain rfl := spells.unique spells'
      exact ⟨distinct, rfl⟩
    obtain ⟨distinct, rfl⟩ := normals spells h
    obtain ⟨distinct', rfl⟩ := normals spells' h'
    rw [canonicalJsonBytes_eq_iff, Same, distinct.normal_normal, distinct'.normal_normal, Same]

end

namespace CanonicalSample

/-- The values of texts. -/
def Reads (bytes : Bytes) (raw : Json) : Prop :=
  ∃ text, bytes = utf8Bytes (String.ofList text) ∧ raw.SpellsText .integers text ∧ raw.Within 127

theorem Reads.unique {bytes : Bytes} {raw raw' : Json} (h : Reads bytes raw)
    (h' : Reads bytes raw') : raw = raw' := by
  obtain ⟨text, rfl, spells, -⟩ := h
  obtain ⟨text', same, spells', -⟩ := h'
  obtain rfl := utf8Bytes_ofList_injective same
  exact spells.unique spells'

open Classical in
/-- A reader of integers, texts, arrays and objects with the recursion limit of `serde_json`. -/
noncomputable def engine : CacheEngine where
  deserialize bytes := if read : ∃ raw, Reads bytes raw then .ok (read.choose, .ok ())
    else .error "expected value"

theorem serde : engine.ReadsJson .integers 127 := by
  refine ⟨fun bytes raw => ?_⟩
  rw [engine]
  dsimp only
  change _ ↔ Reads bytes raw
  constructor
  · intro h
    split at h
    · next read =>
        cases h
        exact read.choose_spec
    · cases h
  · intro read
    have some : ∃ raw, Reads bytes raw := ⟨raw, read⟩
    rw [dif_pos some, some.choose_spec.unique read]

def value : Json := .object [("b", .ofNat 1), ("a", .array [.bool true])]

/-- The value with blanks, an escape, and its members in an order of their own. -/
def text : List Char :=
  ['{', ' ', '"', 'b', '"', ':', ' ', '1', ',', '"', '\\', 'u', '0', '0', '6', '1', '"', ':', '[',
    't', 'r', 'u', 'e', ' ', ']', '}', '\n']

theorem distinct : value.Distinct := by
  simp only [value, distinct_object, distinct_array, List.forall_mem_cons]
  exact ⟨by decide, trivial, ⟨trivial, List.forall_mem_nil _⟩, List.forall_mem_nil _⟩

theorem within : value.Within 127 := by
  simp only [value, within_object, within_array, List.forall_mem_cons]
  exact ⟨126, rfl, trivial, ⟨125, rfl, trivial, List.forall_mem_nil _⟩, List.forall_mem_nil _⟩

theorem spells : value.SpellsText .integers text := by
  have one : SpellsMember "b" (Spells .integers (ofNat 1)) ['"', 'b', '"', ':', ' ', '1'] := by
    refine ⟨['"', 'b', '"'], [' ', '1'], rfl, ⟨['"', 'b', '"'], [], rfl, ?_, nofun⟩,
      [' '], ['1'], rfl, by simp [Blank, isBlank], rfl⟩
    exact ⟨['b'], rfl, ['b'], [], rfl, .plain (by decide) (by decide) (by decide), rfl⟩
  have list : Spells .integers (.array [.bool true]) ['[', 't', 'r', 'u', 'e', ' ', ']'] := by
    refine spells_array.mpr ⟨['t', 'r', 'u', 'e', ' '], rfl, ?_⟩
    exact ⟨[], ['t', 'r', 'u', 'e'], [' '], rfl, nofun, rfl, by simp [Blank, isBlank]⟩
  have two : SpellsMember "a" (Spells .integers (.array [.bool true]))
      ['"', '\\', 'u', '0', '0', '6', '1', '"', ':', '[', 't', 'r', 'u', 'e', ' ', ']'] := by
    refine ⟨['"', '\\', 'u', '0', '0', '6', '1', '"'], ['[', 't', 'r', 'u', 'e', ' ', ']'], rfl,
      ⟨_, [], (List.append_nil _).symm, ?_, nofun⟩, [], _, rfl, nofun, list⟩
    exact ⟨['\\', 'u', '0', '0', '6', '1'], rfl, ['\\', 'u', '0', '0', '6', '1'], [], rfl,
      .unicode rfl, rfl⟩
  have members : Separated [SpellsMember "b" (Spells .integers (ofNat 1)),
      SpellsMember "a" (Spells .integers (.array [.bool true]))]
      ([' ', '"', 'b', '"', ':', ' ', '1'] ++ ',' :: ['"', '\\', 'u', '0', '0', '6', '1', '"', ':',
        '[', 't', 'r', 'u', 'e', ' ', ']']) :=
    ⟨_, _, rfl, ⟨[' '], _, [], rfl, by simp [Blank, isBlank], one, nofun⟩, padded_self two⟩
  have object : Spells .integers value _ := spells_object.mpr ⟨_, rfl, members⟩
  exact ⟨[], _, ['\n'], rfl, nofun, object, by simp [Blank, isBlank]⟩

theorem read : ∃ found, parseStrictJson engine (utf8Bytes (String.ofList text)) "sample" =
    .ok found :=
  ⟨_, (parseStrictJson_eq_ok serde).mpr ⟨text, value, rfl, spells, within, distinct, rfl⟩⟩

end CanonicalSample

theorem canonical_json_identifies_sample :
    ∃ found, parseStrictJson CanonicalSample.engine
        (utf8Bytes (String.ofList CanonicalSample.text)) "sample" = .ok found ∧
      parseStrictJson CanonicalSample.engine (canonicalJsonBytes found) "sample" = .ok found := by
  obtain ⟨found, read⟩ := CanonicalSample.read
  obtain ⟨_, _, _, again, _⟩ := canonical_json_identifies CanonicalSample.serde "sample"
  exact ⟨found, read, again _ _ read⟩

end Stratadiff
