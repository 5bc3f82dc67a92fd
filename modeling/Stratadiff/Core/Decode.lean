import Stratadiff.Core.Report
import Stratadiff.Lib.Document

/-!
# Reading a report

The readers that are derived for the types of a report. Unknown fields and repeated ones are
refused everywhere, and every record may also be written as an array of its fields.
-/

namespace Stratadiff

open Document

def readPosition (document : Document) : Result Position := do
  let fields ← readFields ["row", "column"] document
  return {
    row := ← fields.required "row" readUsize
    column := ← fields.required "column" readUsize }

def readSpan (document : Document) : Result Span := do
  let fields ← readFields ["start_byte", "end_byte", "start", "end"] document
  return {
    startByte := ← fields.required "start_byte" readUsize
    endByte := ← fields.required "end_byte" readUsize
    start := ← fields.required "start" readPosition
    stop := ← fields.required "end" readPosition }

def readNodeRef (document : Document) : Result NodeRef := do
  let fields ← readFields ["id", "kind", "named", "extra", "missing", "field", "span",
    "subtree_size", "syntax_hash", "shape_hash"] document
  return {
    id := ← fields.required "id" readUsize
    kind := ← fields.required "kind" readString
    named := ← fields.required "named" readBool
    extra := ← fields.required "extra" readBool
    missing := ← fields.required "missing" readBool
    field := ← fields.optional "field" readString
    span := ← fields.required "span" readSpan
    subtreeSize := ← fields.required "subtree_size" readUsize
    syntaxHash := ← fields.required "syntax_hash" readString
    shapeHash := ← fields.required "shape_hash" readString }

def readPredicate : Document → Result Predicate :=
  readVariant [("input_pair", .inputPair), ("byte_equal", .byteEqual),
    ("syntax_equal", .syntaxEqual), ("shape_equal", .shapeEqual)]

def readCorrespondence : Document → Result Correspondence :=
  readVariant [("input_pair", .inputPair), ("model_forced", .modelForced),
    ("suggested", .suggested)]

def readRelation (document : Document) : Result Relation := do
  let fields ← readFields ["before", "after", "predicate", "correspondence", "evidence"] document
  return {
    before := ← fields.required "before" readNodeRef
    after := ← fields.required "after" readNodeRef
    predicate := ← fields.required "predicate" readPredicate
    correspondence := ← fields.required "correspondence" readCorrespondence
    evidence := ← fields.required "evidence" (readVec readString) }

def readAmbiguityPair (document : Document) : Result AmbiguityPair := do
  let fields ← readFields ["before_id", "after_id"] document
  return {
    beforeId := ← fields.required "before_id" readUsize
    afterId := ← fields.required "after_id" readUsize }

def readAbstentionCause : Document → Result AmbiguityAbstentionCause :=
  readVariant [("duplicate_symmetry", .duplicateSymmetry), ("component_limit", .componentLimit),
    ("candidate_scan_limit", .candidateScanLimit)]

def readPairClaims : Document → Result PairClaims := readVariant [("none", .none)]

/-- The name of the variant is the member `kind` of the record itself. -/
def readAmbiguityConstraint (document : Document) : Result AmbiguityConstraint := do
  let (kind, record) ← readTag "kind" document
  let kind ← kind.readString
  if kind = "exact_ordered_alignment" then
    let fields ← readFields ["predicate", "required_matches", "possible_pairs"] record
    return .exactOrderedAlignment (← fields.required "predicate" readPredicate)
      (← fields.required "required_matches" readUsize)
      (← fields.required "possible_pairs" (readVec readAmbiguityPair))
  else if kind = "symbolic_abstention" then
    let fields ← readFields ["cause", "pair_claims"] record
    return .symbolicAbstention (← fields.required "cause" readAbstentionCause)
      (← fields.required "pair_claims" readPairClaims)
  else
    .error (.invalid s!"unknown variant {kind}")

def readAmbiguityGroup (document : Document) : Result AmbiguityGroup := do
  let fields ← readFields ["parent_before", "parent_after", "before", "after", "constraint",
    "reason"] document
  return {
    parentBefore := ← fields.required "parent_before" readUsize
    parentAfter := ← fields.required "parent_after" readUsize
    before := ← fields.required "before" (readVec readNodeRef)
    after := ← fields.required "after" (readVec readNodeRef)
    constraint := ← fields.required "constraint" readAmbiguityConstraint
    reason := ← fields.required "reason" readString }

def readChangeKind : Document → Result ChangeKind :=
  readVariant [("insert", .insert), ("delete", .delete),
    ("equivalent_relocation", .equivalentRelocation), ("child_order_changed", .childOrderChanged),
    ("model_forced_update", .modelForcedUpdate), ("suggested_update", .suggestedUpdate),
    ("formatting_only", .formattingOnly)]

def readStructuralChange (document : Document) : Result StructuralChange := do
  let fields ← readFields ["kind", "before", "after", "detail"] document
  return {
    kind := ← fields.required "kind" readChangeKind
    before := ← fields.optional "before" readNodeRef
    after := ← fields.optional "after" readNodeRef
    detail := ← fields.required "detail" readString }

def readArtifact (document : Document) : Result Artifact := do
  let fields ← readFields ["path", "byte_len", "blake3"] document
  return {
    path := ← fields.required "path" readString
    byteLen := ← fields.required "byte_len" readUsize
    blake3 := ← fields.required "blake3" readString }

def readLanguage : Document → Result Language :=
  readVariant [("universal", .universal), ("python", .python), ("javascript", .javascript),
    ("typescript", .typescript), ("tsx", .tsx), ("rust", .rust), ("java", .java),
    ("json", .json), ("c", .c), ("cpp", .cpp), ("c_sharp", .cSharp), ("go", .go),
    ("ruby", .ruby), ("bash", .bash), ("php", .php), ("html", .html), ("css", .css),
    ("yaml", .yaml), ("toml", .toml), ("markdown", .markdown), ("kotlin", .kotlin),
    ("swift", .swift), ("lua", .lua), ("scala", .scala), ("r", .r), ("elixir", .elixir),
    ("haskell", .haskell), ("ocaml", .ocaml), ("ocaml_interface", .ocamlInterface),
    ("zig", .zig)]

def readParserManifest (document : Document) : Result ParserManifest := do
  let fields ← readFields ["engine", "runtime_version", "language", "grammar_name",
    "grammar_version", "grammar_abi", "node_types_blake3", "coordinate_unit", "root_kind",
    "before_nodes", "after_nodes", "error_free"] document
  return {
    engine := ← fields.required "engine" readString
    runtimeVersion := ← fields.required "runtime_version" readString
    language := ← fields.required "language" readLanguage
    grammarName := ← fields.required "grammar_name" readString
    grammarVersion := ← fields.required "grammar_version" readString
    grammarAbi := ← fields.required "grammar_abi" readUsize
    nodeTypesBlake3 := ← fields.required "node_types_blake3" readString
    coordinateUnit := ← fields.required "coordinate_unit" readString
    rootKind := ← fields.required "root_kind" readString
    beforeNodes := ← fields.required "before_nodes" readUsize
    afterNodes := ← fields.required "after_nodes" readUsize
    errorFree := ← fields.required "error_free" readBool }

def readByteEdit (document : Document) : Result ByteEdit := do
  let fields ← readFields ["old_start", "old_end", "replacement_base64"] document
  return {
    oldStart := ← fields.required "old_start" readUsize
    oldEnd := ← fields.required "old_end" readUsize
    replacementBase64 := utf8Bytes (← fields.required "replacement_base64" readString) }

def readLosslessPatch (document : Document) : Result LosslessPatch := do
  let fields ← readFields ["algorithm", "edits"] document
  return {
    algorithm := ← fields.required "algorithm" readString
    edits := ← fields.required "edits" (readVec readByteEdit) }

def readReplayCertificate (document : Document) : Result ReplayCertificate := do
  let fields ← readFields ["before_blake3", "after_blake3", "reconstructed_blake3", "before_len",
    "after_len", "patch_verified"] document
  return {
    beforeBlake3 := ← fields.required "before_blake3" readString
    afterBlake3 := ← fields.required "after_blake3" readString
    reconstructedBlake3 := ← fields.required "reconstructed_blake3" readString
    beforeLen := ← fields.required "before_len" readUsize
    afterLen := ← fields.required "after_len" readUsize
    patchVerified := ← fields.required "patch_verified" readBool }

def readSummary (document : Document) : Result Summary := do
  let fields ← readFields ["model_forced_relations", "suggested_relations", "ambiguity_groups",
    "structural_changes"] document
  return {
    modelForcedRelations := ← fields.required "model_forced_relations" readUsize
    suggestedRelations := ← fields.required "suggested_relations" readUsize
    ambiguityGroups := ← fields.required "ambiguity_groups" readUsize
    structuralChanges := ← fields.required "structural_changes" readUsize }

def readDiffReport (document : Document) : Result DiffReport := do
  let fields ← readFields ["schema", "engine_version", "before", "after", "parser", "relations",
    "ambiguities", "changes", "patch", "certificate", "summary"] document
  return {
    schema := ← fields.required "schema" readString
    engineVersion := ← fields.required "engine_version" readString
    before := ← fields.required "before" readArtifact
    after := ← fields.required "after" readArtifact
    parser := ← fields.required "parser" readParserManifest
    relations := ← fields.required "relations" (readVec readRelation)
    ambiguities := ← fields.required "ambiguities" (readVec readAmbiguityGroup)
    changes := ← fields.required "changes" (readVec readStructuralChange)
    patch := ← fields.required "patch" readLosslessPatch
    certificate := ← fields.required "certificate" readReplayCertificate
    summary := ← fields.required "summary" readSummary }

end Stratadiff
