import Stratadiff.Core.Collect
import Stratadiff.Core.Report
import Stratadiff.Verifier.Patch

/-!
# Verifying a report

`verify_report_inner` checks a report against two snapshots. One way in is given the later
snapshot; the other replays the patch first and takes what it makes. Both accept the same
reports, with the same statistics.
-/

namespace Stratadiff

structure VerificationStats where
  reportBytes : Nat
  beforeSourceBytes : Nat
  afterSourceBytes : Nat
  relations : Nat
  ambiguityGroups : Nat
  ambiguityEndpoints : Nat
  ambiguityPairs : Nat
  changes : Nat
  patchEdits : Nat
  decodedReplacementBytes : Nat
  syntaxNodes : Nat
  verificationWork : Nat
  deriving DecidableEq, Repr

structure WorkBudget where
  limit : Nat
  used : Nat
  deriving DecidableEq, Repr

def WorkBudget.charge (work : WorkBudget) (amount : Nat) (context : String) :
    Result WorkBudget := do
  let next ← Result.ofOption (.budget s!"verification work exceeds usize capacity while {context}")
    (checkedAdd work.used amount)
  Result.ensure (next ≤ work.limit)
    (.budget
      s!"verification work limit exceeded: observed {next}, limit {work.limit}, while {context}")
  return { work with used := next }

/-- The endpoints and the listed pairs of some groups. -/
structure AmbiguityTotals where
  endpoints : Nat
  pairs : Nat

def countAmbiguity (totals : AmbiguityTotals) (ambiguity : AmbiguityGroup) :
    Result AmbiguityTotals := do
  let endpoints ← checkedAddNamed "ambiguity endpoint count" totals.endpoints
    ambiguity.before.length
  let endpoints ← checkedAddNamed "ambiguity endpoint count" endpoints ambiguity.after.length
  match ambiguity.constraint with
  | .exactOrderedAlignment _ _ possiblePairs =>
      let pairs ← checkedAddNamed "ambiguity possible-pair count" totals.pairs possiblePairs.length
      return ⟨endpoints, pairs⟩
  | .symbolicAbstention _ _ => return ⟨endpoints, totals.pairs⟩

def preflightReport (report : DiffReport) (reportBytes : Nat) (before after : Bytes)
    (limits : VerificationLimits) : Result VerificationStats := do
  checkLimit "report bytes" reportBytes limits.maxReportBytes
  checkLimit "before source bytes" before.length limits.maxSourceBytes
  checkLimit "after source bytes" after.length limits.maxSourceBytes
  checkLimit "relations" report.relations.length limits.maxRelations
  checkLimit "ambiguity groups" report.ambiguities.length limits.maxAmbiguityGroups
  checkLimit "changes" report.changes.length limits.maxChanges
  let totals ← report.ambiguities.foldlM countAmbiguity ⟨0, 0⟩
  checkLimit "ambiguity endpoints" totals.endpoints limits.maxAmbiguityEndpoints
  checkLimit "ambiguity possible pairs" totals.pairs limits.maxAmbiguityPairs
  let patch ← inspectPatch before report.patch limits
  let syntaxNodes ← checkedAddNamed "syntax node count" report.parser.beforeNodes
    report.parser.afterNodes
  checkLimit "syntax nodes" syntaxNodes limits.maxSyntaxNodes
  return {
    reportBytes := reportBytes
    beforeSourceBytes := before.length
    afterSourceBytes := after.length
    relations := report.relations.length
    ambiguityGroups := report.ambiguities.length
    ambiguityEndpoints := totals.endpoints
    ambiguityPairs := totals.pairs
    changes := report.changes.length
    patchEdits := report.patch.edits.length
    decodedReplacementBytes := patch.decodedReplacementBytes
    syntaxNodes := syntaxNodes
    verificationWork := 0 }

def verifyHeader (report : DiffReport) : Result Unit := do
  let schema := report.schema
  let engineVersion := report.engineVersion
  Result.ensure (schema = reportSchema) (.invalid s!"unsupported report schema {schema}")
  Result.ensure (engineVersion = reportEngineVersion)
    (.invalid
      s!"report engine version {engineVersion} is not supported by verifier {reportEngineVersion}")

section

variable (blake3 : Bytes → Digest) (treeSitter : Language → Bytes → Nat → Result TsNode)
variable (grammars : Grammars) (serialized : DiffReport → Bytes)

/-- `digest`. -/
def digestText (bytes : Bytes) : String := (blake3 bytes).hex

/-- `measure_report_bytes`; `serialized` is the JSON text that `serde_json` writes. -/
def measureReportBytes (report : DiffReport) (limits : VerificationLimits) : Result Nat :=
  let length := (serialized report).length
  if length ≤ limits.maxReportBytes then .ok length
  else .error (.limit "failed to measure serialized report")

def verifyArtifact (side : String) (artifact : Artifact) (bytes : Bytes) : Result Unit := do
  Result.ensure (artifact.byteLen = bytes.length)
    (.invalid s!"{side} byte length does not match the report")
  Result.ensure (artifact.blake3 = digestText blake3 bytes)
    (.invalid s!"{side} BLAKE3 digest does not match the report")

/-- `replayed` is the later snapshot when it was made by replaying the patch. -/
def verifyPatchAndCertificate (report : DiffReport) (before after : Bytes)
    (limits : VerificationLimits) (replayed : Option Bytes) : Result Unit := do
  let certificate := report.certificate
  Result.ensure (certificate.patchVerified = true)
    (.invalid "report does not carry a successful patch reconstruction certificate")
  Result.ensure (certificate.beforeLen = before.length ∧ certificate.afterLen = after.length)
    (.invalid "certificate lengths do not match the supplied snapshots")
  let beforeHash := digestText blake3 before
  let afterHash := digestText blake3 after
  Result.ensure (certificate.beforeBlake3 = beforeHash ∧ certificate.afterBlake3 = afterHash ∧
      certificate.beforeBlake3 = report.before.blake3 ∧
      certificate.afterBlake3 = report.after.blake3)
    (.invalid "certificate hashes do not match the supplied artifacts")
  let reconstructed ← match replayed with
    | some replayed => Except.ok replayed
    | none => replayPatchWithLimits before report.patch limits
  Result.ensure (reconstructed = after)
    (.invalid "patch replay differs from the supplied after snapshot")
  Result.ensure (certificate.reconstructedBlake3 = digestText blake3 reconstructed ∧
      certificate.reconstructedBlake3 = afterHash)
    (.invalid "reconstructed bytes do not match the certificate hashes")

def verifyParserManifest (report : DiffReport) (before after : ParsedSyntax) : Result Unit :=
  let parser := report.parser
  let language := parser.language
  Result.ensure (parser.engine = language.parserEngine ∧
      parser.runtimeVersion = language.parserRuntimeVersion ∧
      parser.grammarName = language.grammarName ∧
      parser.grammarVersion = language.grammarVersion ∧
      parser.grammarAbi = grammars.grammarAbi language ∧
      parser.nodeTypesBlake3 = digestText blake3 (utf8Bytes (grammars.nodeTypesOf language)) ∧
      parser.coordinateUnit = language.coordinateUnit ∧
      parser.rootKind = before.rootKind ∧ parser.rootKind = after.rootKind ∧
      parser.beforeNodes = before.nodes.length ∧ parser.afterNodes = after.nodes.length ∧
      parser.errorFree = true)
    (.invalid "parser manifest does not match independent fresh parses")

/-- The two trees, parsed within one limit on their nodes and charged to the budget. -/
def parseSnapshots (report : DiffReport) (before after : Bytes) (limits : VerificationLimits)
    (work : WorkBudget) : Result (ParsedSyntax × ParsedSyntax × WorkBudget) := do
  let language := report.parser.language
  let parsedBefore ← (parseWithLimits blake3 before language
    ⟨limits.maxSyntaxNodes, limits.maxSyntaxDepth, limits.maxParseCallbacks⟩ treeSitter).mapError
      (Failure.withContext "before source parse failed: ")
  let work ← work.charge parsedBefore.nodes.length "accounting for parsed before nodes"
  let remainingNodes ← Result.ofOption
    (.limit "before syntax nodes exceed the verification limit")
    (checkedSub limits.maxSyntaxNodes parsedBefore.nodes.length)
  let parsedAfter ← (parseWithLimits blake3 after language
    ⟨remainingNodes, limits.maxSyntaxDepth, limits.maxParseCallbacks⟩ treeSitter).mapError
      (Failure.withContext "after source parse failed: ")
  let work ← work.charge parsedAfter.nodes.length "accounting for parsed after nodes"
  return (parsedBefore, parsedAfter, work)

/-- The checks that compare the claims of the report with the two trees, and what they leave of
the budget. -/
abbrev StructuralCheck :=
  DiffReport → ParsedSyntax → ParsedSyntax → VerificationStats → WorkBudget → Result WorkBudget

variable (verifyStructure : StructuralCheck)

def verifyReportInner (report : DiffReport) (before after : Bytes) (limits : VerificationLimits)
    (reportBytes : Nat) (replayed : Option Bytes) : Result VerificationStats := do
  let stats ← preflightReport report reportBytes before after limits
  verifyHeader report
  verifyArtifact blake3 "before" report.before before
  verifyArtifact blake3 "after" report.after after
  verifyPatchAndCertificate blake3 report before after limits replayed
  let (parsedBefore, parsedAfter, work) ← parseSnapshots blake3 treeSitter report before after
    limits ⟨limits.maxVerificationWork, 0⟩
  let syntaxNodes ← checkedAddNamed "syntax node count" parsedBefore.nodes.length
    parsedAfter.nodes.length
  verifyParserManifest blake3 grammars report parsedBefore parsedAfter
  let work ← verifyStructure report parsedBefore parsedAfter stats work
  return { stats with syntaxNodes := syntaxNodes, verificationWork := work.used }

def verifyReportWithLimits (report : DiffReport) (before after : Bytes)
    (limits : VerificationLimits) : Result VerificationStats := do
  let reportBytes ← measureReportBytes serialized report limits
  verifyReportInner blake3 treeSitter grammars verifyStructure report before after limits
    reportBytes none

def verifyAndReplayReportInner (report : DiffReport) (before : Bytes) (limits : VerificationLimits)
    (reportBytes : Nat) : Result (Bytes × VerificationStats) := do
  let rebuilt ← replayPatchWithLimits before report.patch limits
  let stats ← verifyReportInner blake3 treeSitter grammars verifyStructure report before rebuilt
    limits reportBytes (some rebuilt)
  return (rebuilt, stats)

def verifyAndReplayReportWithLimits (report : DiffReport) (before : Bytes)
    (limits : VerificationLimits) : Result (Bytes × VerificationStats) := do
  let reportBytes ← measureReportBytes serialized report limits
  verifyAndReplayReportInner blake3 treeSitter grammars verifyStructure report before limits
    reportBytes

/-! ## The two ways in -/

variable {report : DiffReport} {before after rebuilt : Bytes} {limits : VerificationLimits}
variable {reportBytes : Nat} {stats : VerificationStats}

/-- A snapshot that the patch makes is checked in the same way, whoever made it. -/
theorem verifyPatchAndCertificate_replayed
    (replay : replayPatchWithLimits before report.patch limits = .ok rebuilt) :
    verifyPatchAndCertificate blake3 report before after limits (some rebuilt) =
      verifyPatchAndCertificate blake3 report before after limits none := by
  simp only [verifyPatchAndCertificate, replay]

theorem verifyReportInner_replayed
    (replay : replayPatchWithLimits before report.patch limits = .ok rebuilt) :
    verifyReportInner blake3 treeSitter grammars verifyStructure report before after limits
        reportBytes (some rebuilt) =
      verifyReportInner blake3 treeSitter grammars verifyStructure report before after limits
        reportBytes none := by
  simp only [verifyReportInner, verifyPatchAndCertificate_replayed blake3 replay]

/-- The check of the patch passes only for the snapshot that the patch makes. -/
theorem replay_of_certificate
    (checked : verifyPatchAndCertificate blake3 report before after limits none = .ok ()) :
    replayPatchWithLimits before report.patch limits = .ok after := by
  rw [verifyPatchAndCertificate] at checked
  obtain ⟨_, checked⟩ := Result.check_bind_eq_ok.mp checked
  obtain ⟨_, checked⟩ := Result.check_bind_eq_ok.mp checked
  obtain ⟨_, checked⟩ := Result.check_bind_eq_ok.mp checked
  obtain ⟨reconstructed, replay, checked⟩ := Result.bind_eq_ok.mp checked
  obtain ⟨same, _⟩ := Result.check_bind_eq_ok.mp checked
  rw [Result.ensure_eq_ok] at same
  rw [replay, same]

theorem replay_of_verifyReportInner
    (verified : verifyReportInner blake3 treeSitter grammars verifyStructure report before after
      limits reportBytes none = .ok stats) :
    replayPatchWithLimits before report.patch limits = .ok after := by
  rw [verifyReportInner] at verified
  obtain ⟨_, _, verified⟩ := Result.bind_eq_ok.mp verified
  obtain ⟨_, verified⟩ := Result.check_bind_eq_ok.mp verified
  obtain ⟨_, verified⟩ := Result.check_bind_eq_ok.mp verified
  obtain ⟨_, verified⟩ := Result.check_bind_eq_ok.mp verified
  exact replay_of_certificate blake3 (Result.check_bind_eq_ok.mp verified).1

/-- Replaying first succeeds exactly for the snapshot that the report verifies against. -/
theorem verifyAndReplayReportInner_eq_ok :
    verifyAndReplayReportInner blake3 treeSitter grammars verifyStructure report before limits
        reportBytes = .ok (after, stats) ↔
      verifyReportInner blake3 treeSitter grammars verifyStructure report before after limits
        reportBytes none = .ok stats := by
  constructor
  · intro run
    obtain ⟨rebuilt, replay, run⟩ := Result.bind_eq_ok.mp run
    obtain ⟨found, verified, run⟩ := Result.bind_eq_ok.mp run
    cases run
    rwa [verifyReportInner_replayed _ _ _ _ replay] at verified
  · intro verified
    have replay := replay_of_verifyReportInner _ _ _ _ verified
    rw [verifyAndReplayReportInner, replay, Result.ok_bind,
      verifyReportInner_replayed _ _ _ _ replay, verified]
    rfl

/-- Replaying a report gives bytes exactly when the report verifies against some bytes; these
are the only ones, and the statistics are the same. -/
theorem verify_and_replay_agrees (report : DiffReport) (before : Bytes)
    (limits : VerificationLimits) :
    (∀ rebuilt stats,
      verifyAndReplayReportWithLimits blake3 treeSitter grammars serialized verifyStructure report
          before limits = .ok (rebuilt, stats) →
        verifyReportWithLimits blake3 treeSitter grammars serialized verifyStructure report before
          rebuilt limits = .ok stats ∧
        ∀ after stats', verifyReportWithLimits blake3 treeSitter grammars serialized
          verifyStructure report before after limits = .ok stats' →
            after = rebuilt ∧ stats' = stats) ∧
    ∀ after stats,
      verifyReportWithLimits blake3 treeSitter grammars serialized verifyStructure report before
          after limits = .ok stats →
        verifyAndReplayReportWithLimits blake3 treeSitter grammars serialized verifyStructure
          report before limits = .ok (after, stats) := by
  have agree (after : Bytes) (stats : VerificationStats) :
      verifyAndReplayReportWithLimits blake3 treeSitter grammars serialized verifyStructure report
          before limits = .ok (after, stats) ↔
        verifyReportWithLimits blake3 treeSitter grammars serialized verifyStructure report before
          after limits = .ok stats := by
    rw [verifyAndReplayReportWithLimits, verifyReportWithLimits, Result.bind_eq_ok,
      Result.bind_eq_ok]
    simp only [verifyAndReplayReportInner_eq_ok]
  refine ⟨fun rebuilt stats run => ⟨(agree rebuilt stats).mp run, fun after stats' verified => ?_⟩,
    fun after stats verified => (agree after stats).mpr verified⟩
  have again := (agree after stats').mpr verified
  cases run.symm.trans again
  exact ⟨rfl, rfl⟩

end

end Stratadiff
