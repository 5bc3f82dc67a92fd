import Stratadiff.Verifier.Changes

/-!
# Verification under a work limit

The passes one after another are `verify_report_inner`. The limit on the work decides only
whether a verification is carried through: with a limit that covers what one run has charged
every run succeeds in the same way, and with less every run stops at a charge.
-/

namespace Stratadiff

open Verifier

def structuralChecks (iteration : Iteration) (report : DiffReport) (before after : ParsedSyntax)
    (stats : VerificationStats) : Check Unit := do
  let mappings ← verifyRelations report before after
  let index ← globalExactIndex before after
  verifyExactAnchorEvidence before after mappings report index
  verifyGlobalAnchorCompleteness before after mappings iteration index
  verifyLocalExactRelations before after mappings
  let ambiguities ← verifyStableCore before after mappings
  verifyAmbiguityNodeReferences before after report
  charge report.ambiguities.length "comparing verified ambiguity groups"
  charge stats.ambiguityEndpoints "comparing verified ambiguity endpoints"
  charge stats.ambiguityPairs "comparing verified ambiguity pairs"
  Result.ensure (report.ambiguities = ambiguities)
    (.invalid "ambiguity constraints do not match the independently derived choice spaces")
  let changes ← deriveChanges before after mappings ambiguities
  verifyChangeNodeReferences before after report
  charge report.changes.length "comparing verified structural changes"
  Result.ensure (report.changes = changes)
    (.invalid "structural changes do not match the independently derived events")
  charge report.relations.length "counting model-forced relation summary"
  charge report.relations.length "counting suggested relation summary"
  Result.ensure (report.summary = {
      modelForcedRelations :=
        report.relations.countP fun relation => relation.correspondence = .modelForced
      suggestedRelations :=
        report.relations.countP fun relation => relation.correspondence = .suggested
      ambiguityGroups := ambiguities.length
      structuralChanges := changes.length })
    (.invalid "summary does not match the verified structural claims")

/-- The passes that `verify_report_inner` runs once it has parsed the snapshots. -/
def verifyStructure (iteration : Iteration) : StructuralCheck :=
  fun report before after stats work =>
    (structuralChecks iteration report before after stats).run work >>= fun done => .ok done.2

/-! ## The order of the buckets -/

/-- In whatever order the buckets are visited, the same charges are made. -/
theorem structuralChecks_rearranges (iteration iteration' : Iteration) (report : DiffReport)
    (before after : ParsedSyntax) (stats : VerificationStats) :
    (structuralChecks iteration report before after stats).Rearranges
      (structuralChecks iteration' report before after stats) := by
  refine Metered.Rearranges.bind_right fun mappings => Metered.Rearranges.bind_right fun index =>
    Metered.Rearranges.bind_right fun _ => Metered.Rearranges.bind_left ?_
  apply Metered.Rearranges.forM
  exact (iteration.perm index.before).trans (iteration'.perm index.before).symm

/-! ## The verification as one pass -/

section

variable (blake3 : Bytes → Digest) (treeSitter : Language → Bytes → Nat → Result TsNode)
variable (grammars : Grammars) (serialized : DiffReport → Bytes)
variable (report : DiffReport) (before after : Bytes) (limits : VerificationLimits)

/-- `parse_snapshots` as a pass. -/
def snapshots : Check (ParsedSyntax × ParsedSyntax) := do
  let language := report.parser.language
  let parsedBefore ← (parseWithLimits blake3 before language
    ⟨limits.maxSyntaxNodes, limits.maxSyntaxDepth, limits.maxParseCallbacks⟩ treeSitter).mapError
      (Failure.withContext "before source parse failed: ")
  charge parsedBefore.nodes.length "accounting for parsed before nodes"
  let remainingNodes ← Result.ofOption
    (.limit "before syntax nodes exceed the verification limit")
    (checkedSub limits.maxSyntaxNodes parsedBefore.nodes.length)
  let parsedAfter ← (parseWithLimits blake3 after language
    ⟨remainingNodes, limits.maxSyntaxDepth, limits.maxParseCallbacks⟩ treeSitter).mapError
      (Failure.withContext "after source parse failed: ")
  charge parsedAfter.nodes.length "accounting for parsed after nodes"
  return (parsedBefore, parsedAfter)

theorem parseSnapshots_eq (work : WorkBudget) :
    parseSnapshots blake3 treeSitter report before after limits work =
      (snapshots blake3 treeSitter report before after limits).run work >>= fun done =>
        .ok (done.1.1, done.1.2, done.2) := by
  simp only [parseSnapshots, snapshots, charge, WorkBudget.pay, liftM, Metered.monadLift_eq,
    Metered.run_lift_bind, Metered.run_pay_bind, Metered.run_pure, bind_assoc, Result.ok_bind]
  rfl

variable (iteration : Iteration) (reportBytes : Nat) (replayed : Option Bytes)

/-- `verify_report_inner` as a pass, before the work is recorded. -/
def verification : Check VerificationStats := do
  let stats ← preflightReport report reportBytes before after limits
  verifyHeader report
  verifyArtifact blake3 "before" report.before before
  verifyArtifact blake3 "after" report.after after
  verifyPatchAndCertificate blake3 report before after limits replayed
  let trees ← snapshots blake3 treeSitter report before after limits
  let syntaxNodes ← checkedAddNamed "syntax node count" trees.1.nodes.length trees.2.nodes.length
  verifyParserManifest blake3 grammars report trees.1 trees.2
  structuralChecks iteration report trees.1 trees.2 stats
  return { stats with syntaxNodes := syntaxNodes }

theorem verifyReportInner_eq :
    verifyReportInner blake3 treeSitter grammars (verifyStructure iteration) report before after
        limits reportBytes replayed =
      (verification blake3 treeSitter grammars report before after limits iteration reportBytes
        replayed).run ⟨limits.maxVerificationWork, 0⟩ >>= fun done =>
          .ok { done.1 with verificationWork := done.2.used } := by
  simp only [verifyReportInner, verification, parseSnapshots_eq, verifyStructure, liftM,
    Metered.monadLift_eq, Metered.run_lift, Metered.run_bind, Metered.run_pure, bind_assoc,
    Result.ok_bind]
  rfl

theorem verification_rearranges (iteration' : Iteration) :
    (verification blake3 treeSitter grammars report before after limits iteration reportBytes
        replayed).Rearranges
      (verification blake3 treeSitter grammars report before after limits iteration' reportBytes
        replayed) := by
  refine Metered.Rearranges.bind_right fun stats => Metered.Rearranges.bind_right fun _ =>
    Metered.Rearranges.bind_right fun _ => Metered.Rearranges.bind_right fun _ =>
    Metered.Rearranges.bind_right fun _ => Metered.Rearranges.bind_right fun trees =>
    Metered.Rearranges.bind_right fun _ => Metered.Rearranges.bind_right fun _ => ?_
  exact (structuralChecks_rearranges iteration iteration' report trees.1 trees.2 stats).bind_left

end

/-! ## The work limit -/

/-- Limits that differ in the work they allow. -/
def VerificationLimits.withWork (limits : VerificationLimits) (work : Nat) : VerificationLimits :=
  { limits with maxVerificationWork := work }

section

variable {before after : Bytes} {limits : VerificationLimits} {work : Nat}

theorem inspectEdits_withWork {beforeLen index : Nat} {edits : List ByteEdit}
    {totals : PatchTotals} :
    inspectEdits beforeLen (limits.withWork work) index edits totals =
      inspectEdits beforeLen limits index edits totals := by
  induction edits generalizing index totals with
  | nil => rfl
  | cons edit edits ih =>
      rw [inspectEdits, inspectEdits]
      exact bind_congr fun _ => ih

theorem replayEdits_withWork {index cursor : Nat} {edits : List ByteEdit} {output : Bytes} :
    replayEdits before (limits.withWork work) index edits cursor output =
      replayEdits before limits index edits cursor output := by
  induction edits generalizing index cursor output with
  | nil => rfl
  | cons edit edits ih =>
      rw [replayEdits, replayEdits]
      refine bind_congr fun _ => bind_congr fun _ => ih

theorem inspectPatch_withWork {patch : LosslessPatch} :
    inspectPatch before patch (limits.withWork work) = inspectPatch before patch limits := by
  simp only [inspectPatch, inspectEdits_withWork]
  rfl

theorem replayPatchWithLimits_withWork {patch : LosslessPatch} :
    replayPatchWithLimits before patch (limits.withWork work) =
      replayPatchWithLimits before patch limits := by
  simp only [replayPatchWithLimits, inspectPatch_withWork, replayEdits_withWork]
  rfl

theorem preflightReport_withWork {report : DiffReport} {reportBytes : Nat} :
    preflightReport report reportBytes before after (limits.withWork work) =
      preflightReport report reportBytes before after limits := by
  simp only [preflightReport, inspectPatch_withWork]
  rfl

theorem verifyPatchAndCertificate_withWork {blake3 : Bytes → Digest} {report : DiffReport}
    {replayed : Option Bytes} :
    verifyPatchAndCertificate blake3 report before after (limits.withWork work) replayed =
      verifyPatchAndCertificate blake3 report before after limits replayed := by
  simp only [verifyPatchAndCertificate, replayPatchWithLimits_withWork]

end

section

variable (blake3 : Bytes → Digest) (treeSitter : Language → Bytes → Nat → Result TsNode)
variable (grammars : Grammars) (serialized : DiffReport → Bytes)
variable (report : DiffReport) (before after : Bytes) (limits : VerificationLimits)
variable (iteration : Iteration) (reportBytes : Nat) (replayed : Option Bytes)

/-- The passes do not look at the limit. -/
theorem verification_withWork (work : Nat) :
    verification blake3 treeSitter grammars report before after (limits.withWork work) iteration
        reportBytes replayed =
      verification blake3 treeSitter grammars report before after limits iteration reportBytes
        replayed := by
  simp only [verification, preflightReport_withWork, verifyPatchAndCertificate_withWork]
  rfl

/-- How the outcomes of a verification under all work limits belong together. The order in
which hash maps are visited may differ from run to run. -/
structure WorkMonotone {α : Type} (verify : Iteration → Nat → Result α) (work : α → Nat) :
    Prop where
  recorded : ∀ iteration limit a, verify iteration limit = .ok a →
    work a ≤ limit ∧ work a ≤ usizeMax
  enough : ∀ iteration limit a, verify iteration limit = .ok a →
    ∀ iteration' limit', work a ≤ limit' → verify iteration' limit' = .ok a
  short : ∀ iteration limit a, verify iteration limit = .ok a →
    ∀ iteration' limit', limit' < work a → ∃ next context, limit' < next ∧ next ≤ work a ∧
      verify iteration' limit' = .error (workLimitExceeded next limit' context)

theorem WorkMonotone.after_check {α β : Type} {verify : β → Iteration → Nat → Result α}
    {work : α → Nat} (x : Result β) (monotone : ∀ b, WorkMonotone (verify b) work) :
    WorkMonotone (fun iteration limit => x >>= fun b => verify b iteration limit) work := by
  cases x with
  | error failure =>
      refine ⟨fun _ _ _ run => ?_, fun _ _ _ run => ?_, fun _ _ _ run => ?_⟩ <;> cases run
  | ok b => exact monotone b

theorem WorkMonotone.map {α β : Type} {verify : Iteration → Nat → Result α} {work : α → Nat}
    {work' : β → Nat} {f : α → β} (monotone : WorkMonotone verify work)
    (same : ∀ a, work' (f a) = work a) :
    WorkMonotone (fun iteration limit => verify iteration limit >>= fun a => .ok (f a)) work' := by
  constructor
  · intro iteration limit b run
    obtain ⟨a, verified, result⟩ := Result.bind_eq_ok.mp run
    cases result
    rw [same]
    exact monotone.recorded iteration limit a verified
  · intro iteration limit b run iteration' limit' enough
    obtain ⟨a, verified, result⟩ := Result.bind_eq_ok.mp run
    cases result
    rw [same] at enough
    rw [monotone.enough iteration limit a verified iteration' limit' enough]
    rfl
  · intro iteration limit b run iteration' limit' short
    obtain ⟨a, verified, result⟩ := Result.bind_eq_ok.mp run
    cases result
    rw [same] at short ⊢
    obtain ⟨next, context, exceeds, upTo, refused⟩ :=
      monotone.short iteration limit a verified iteration' limit' short
    refine ⟨next, context, exceeds, upTo, ?_⟩
    rw [refused]
    rfl

/-- A pass whose work is recorded at its end. -/
theorem WorkMonotone.of_check {α β : Type} {check : Iteration → Check β} {record : β → Nat → α}
    {work : α → Nat} (rearranges : ∀ iteration iteration', (check iteration).Rearranges
      (check iteration')) (recorded : ∀ b used, work (record b used) = used) :
    WorkMonotone (fun iteration limit => (check iteration).run ⟨limit, 0⟩ >>= fun done =>
      .ok (record done.1 done.2.used)) work := by
  constructor
  · intro iteration limit a run
    obtain ⟨⟨b, budget⟩, charged, result⟩ := Result.bind_eq_ok.mp run
    cases result
    rw [recorded]
    exact Check.charged charged
  · intro iteration limit a run iteration' limit' enough
    obtain ⟨⟨b, budget⟩, charged, result⟩ := Result.bind_eq_ok.mp run
    cases result
    rw [recorded] at enough
    rw [Check.run_of_le (rearranges iteration iteration') charged enough]
    rfl
  · intro iteration limit a run iteration' limit' short
    obtain ⟨⟨b, budget⟩, charged, result⟩ := Result.bind_eq_ok.mp run
    cases result
    rw [recorded] at short ⊢
    obtain ⟨next, context, exceeds, upTo, refused⟩ :=
      Check.run_of_lt (rearranges iteration iteration') charged short
    refine ⟨next, context, exceeds, upTo, ?_⟩
    rw [refused]
    rfl

theorem verifyReportInner_monotone :
    WorkMonotone (fun iteration work => verifyReportInner blake3 treeSitter grammars
      (verifyStructure iteration) report before after (limits.withWork work) reportBytes replayed)
      VerificationStats.verificationWork := by
  let record (stats : VerificationStats) (used : Nat) : VerificationStats :=
    { stats with verificationWork := used }
  have whole (iteration : Iteration) (work : Nat) := verifyReportInner_eq blake3 treeSitter
    grammars report before after (limits.withWork work) iteration reportBytes replayed
  simp only [verification_withWork] at whole
  simp only [whole]
  have recorded (stats : VerificationStats) (used : Nat) :
      (record stats used).verificationWork = used := rfl
  exact WorkMonotone.of_check (fun iteration iteration' => verification_rearranges blake3
    treeSitter grammars report before after limits iteration reportBytes replayed iteration')
    recorded

/-- Whatever way in is taken, a verification that succeeds records the work that it needs:
every limit from there on gives the same result, and every smaller one is reported as too
small. -/
theorem verification_budget_monotone :
    (∀ reportBytes replayed, WorkMonotone (fun iteration work =>
      verifyReportInner blake3 treeSitter grammars (verifyStructure iteration) report before after
        (limits.withWork work) reportBytes replayed) VerificationStats.verificationWork) ∧
    WorkMonotone (fun iteration work =>
      verifyReportWithLimits blake3 treeSitter grammars serialized (verifyStructure iteration)
        report before after (limits.withWork work)) VerificationStats.verificationWork ∧
    WorkMonotone (fun iteration work =>
      verifyAndReplayReportWithLimits blake3 treeSitter grammars serialized
        (verifyStructure iteration) report before (limits.withWork work))
      (fun verified => verified.2.verificationWork) := by
  refine ⟨verifyReportInner_monotone blake3 treeSitter grammars report before after limits,
    ?_, ?_⟩
  · apply WorkMonotone.after_check (measureReportBytes serialized report limits)
    intro reportBytes
    exact verifyReportInner_monotone blake3 treeSitter grammars report before after limits
      reportBytes none
  · apply WorkMonotone.after_check (measureReportBytes serialized report limits)
    intro reportBytes
    simp only [verifyAndReplayReportInner, replayPatchWithLimits_withWork]
    apply WorkMonotone.after_check
    intro rebuilt
    have verified := verifyReportInner_monotone blake3 treeSitter grammars report before rebuilt
      limits reportBytes (some rebuilt)
    exact verified.map fun _ => rfl

end

/-! ## An empty file -/

def emptyFile : NodeRef where
  id := 0
  kind := "universal_file"
  named := true
  extra := false
  missing := false
  field := none
  span := ⟨0, 0, ⟨0, 0⟩, ⟨0, 0⟩⟩
  subtreeSize := 1
  syntaxHash := Digest.zero.hex
  shapeHash := Digest.zero.hex

/-- The report on an empty file that stays empty, where every digest is zero. -/
def emptyReport : DiffReport where
  schema := reportSchema
  engineVersion := reportEngineVersion
  before := ⟨"empty", 0, Digest.zero.hex⟩
  after := ⟨"empty", 0, Digest.zero.hex⟩
  parser := ⟨"stratadiff-universal", "1.0.0", .universal, "byte-lines-token-runs", "1.0.0", 1,
    Digest.zero.hex, "zero_based_row_byte_column", "universal_file", 1, 1, true⟩
  relations := [⟨emptyFile, emptyFile, .inputPair, .inputPair, inputPairEvidence⟩]
  ambiguities := []
  changes := []
  patch := ⟨patchAlgorithm, []⟩
  certificate := ⟨Digest.zero.hex, Digest.zero.hex, Digest.zero.hex, 0, 0, true⟩
  summary := ⟨0, 0, 0, 0⟩

def verifyEmpty (work : Nat) : Result VerificationStats :=
  verifyReportInner (fun _ => .zero) (fun _ _ _ => .error (.invalid "not a native language"))
    ⟨fun _ => 0, fun _ => ""⟩ (verifyStructure ⟨id, fun _ => .refl _⟩) emptyReport [] []
    (VerificationLimits.default.withWork work) 0 none

example : verifyEmpty 19 = .ok ⟨0, 0, 0, 1, 0, 0, 0, 0, 0, 0, 2, 19⟩ ∧
    verifyEmpty 18 =
      .error (workLimitExceeded 19 18 "counting suggested relation summary") := by
  decide +kernel

end Stratadiff
