import Stratadiff.Doctor.Filter
import Stratadiff.Lib.Fallible

/-!
# Why a required check did not run

The classification of `doctor_workflow.rs`. It goes through the reasons a workflow can have
for not reporting a required context and stops at the first that applies; the filters on
branches and paths come after everything that hides them.
-/

namespace Stratadiff.DoctorWorkflow

def maxItems : Nat := 10000

inductive WorkflowExpectedApp where
  | githubActions
  | thirdParty
  deriving DecidableEq, Repr

inductive WorkflowProviderCapability where
  | notApplicable
  | unknown
  | unsupportedMergeGroup
  deriving DecidableEq, Repr

inductive WorkflowTargetKind where
  | mergeGroup
  | pullRequestHead
  deriving DecidableEq, Repr

structure WorkflowTarget where
  kind : WorkflowTargetKind
  sha : String
  deriving DecidableEq, Repr

inductive WorkflowMergeableState where
  | conflicting
  | mergeable
  | unknown
  deriving DecidableEq, Repr

structure WorkflowPullRequest where
  baseRef : String
  baseSha : String
  headRef : String
  headRepositoryIsFork : Bool
  headSha : String
  mergeableState : WorkflowMergeableState
  number : Nat
  deriving DecidableEq, Repr

structure WorkflowChangedFiles where
  complete : Bool
  githubFilterFileLimitReached : Bool
  paths : List String
  total : Nat
  deriving DecidableEq, Repr

structure PullRequestWorkflowTrigger where
  branches : List String
  branchesIgnore : List String
  paths : List String
  pathsIgnore : List String
  types : List String
  deriving DecidableEq, Repr

structure MergeGroupWorkflowTrigger where
  types : List String
  deriving DecidableEq, Repr

structure WorkflowTriggers where
  mergeGroup : Option MergeGroupWorkflowTrigger
  pullRequest : Option PullRequestWorkflowTrigger
  deriving DecidableEq, Repr

structure WorkflowJob where
  condition : String
  id : String
  name : String
  nameStatic : Bool
  reusable : Bool
  deriving DecidableEq, Repr

inductive WorkflowState where
  | active
  | disabledInactivity
  | disabledManually
  deriving DecidableEq, Repr

inductive WorkflowSyntax where
  | invalid
  | valid
  deriving DecidableEq, Repr

structure WorkflowDefinition where
  jobs : List WorkflowJob
  path : String
  state : WorkflowState
  syntaxState : WorkflowSyntax
  triggers : WorkflowTriggers
  deriving DecidableEq, Repr

inductive WorkflowRunEvent where
  | mergeGroup
  | pullRequest
  deriving DecidableEq, Repr

inductive WorkflowRunStatus where
  | completed
  | inProgress
  | pending
  | queued
  | requested
  | waiting
  deriving DecidableEq, Repr

inductive WorkflowRunConclusion where
  | actionRequired
  | cancelled
  | failure
  | neutral
  | skipped
  | stale
  | startupFailure
  | success
  | timedOut
  deriving DecidableEq, Repr

structure WorkflowRunObservation where
  conclusion : Option WorkflowRunConclusion
  event : WorkflowRunEvent
  headSha : String
  status : WorkflowRunStatus
  workflowPath : String
  deriving DecidableEq, Repr

structure DoctorWorkflowTriggerInput where
  changedFiles : WorkflowChangedFiles
  collectionGaps : List String
  expectedApp : WorkflowExpectedApp
  historicalCheckNames : List String
  lastActivity : String
  providerCapability : WorkflowProviderCapability
  pullRequest : WorkflowPullRequest
  requiredContext : String
  runs : List WorkflowRunObservation
  target : WorkflowTarget
  workflows : List WorkflowDefinition
  deriving DecidableEq, Repr

inductive WorkflowTriggerCause where
  | duplicateJobNameAmbiguous
  | forkApprovalPossible
  | forkApprovalRequired
  | mergeGroupTriggerMissing
  | none
  | providerDidNotEmitMergeGroupStatus
  | providerRuntimeDeliveryGap
  | pullRequestMergeConflict
  | pullRequestTriggerMissing
  | requiredContextNotProduced
  | workflowActivityExcludesSynchronize
  | workflowBranchFilterExcluded
  | workflowDefinitionInvalid
  | workflowDisabled
  | workflowPathFilterExcluded
  | workflowTriggerUnknown
  deriving DecidableEq, Repr

inductive WorkflowTriggerConfidence where
  | certain
  | high
  | uncertain
  deriving DecidableEq, Repr

structure WorkflowTriggerFix where
  actionCode : String
  argv : List String
  requiresHumanEdit : Bool
  deriving DecidableEq, Repr

structure DoctorWorkflowTriggerDiagnosis where
  causeCode : WorkflowTriggerCause
  confidence : WorkflowTriggerConfidence
  evidence : List String
  fix : WorkflowTriggerFix
  targetSha : String
  deriving DecidableEq, Repr

/-! ## Valid inputs -/

def validateNonEmpty (label value : String) : Result Unit :=
  Result.ensure (value ≠ "") (.invalid s!"{label} must not be empty")

def validateUniqueNonEmpty (label : String) (values : List String) : Result Unit := do
  Result.ensure (values.length ≤ maxItems) (.invalid s!"{label} exceeds {maxItems} items")
  discard <| values.foldlM
    (fun unique value => do
      validateNonEmpty label value
      Result.ensure (value ∉ unique) (.invalid s!"{label} must not contain duplicates")
      return value :: unique)
    []

def isLowerHex (c : Char) : Bool := c.isDigit || ('a' ≤ c && c ≤ 'f')

def validateSha (label value : String) : Result Unit :=
  Result.ensure (value.utf8ByteSize = 40 ∧ value.toList.all isLowerHex)
    (.invalid s!"{label} must be a lowercase 40-character hex SHA")

def validateTarget (input : DoctorWorkflowTriggerInput) : Result Unit :=
  match input.target.kind with
  | .pullRequestHead =>
      Result.ensure (input.target.sha = input.pullRequest.headSha)
        (.invalid "pull-request target must equal pull_request.head_sha")
  | .mergeGroup =>
      Result.ensure (input.target.sha ≠ input.pullRequest.headSha)
        (.invalid "merge-group target must differ from pull_request.head_sha")

def validateChangedFiles (files : WorkflowChangedFiles) : Result Unit := do
  Result.ensure (files.paths.length ≤ maxItems)
    (.invalid s!"changed_files.paths exceeds {maxItems} items")
  Result.ensure (files.paths.length ≤ files.total)
    (.invalid "changed_files.total is smaller than paths")
  if files.githubFilterFileLimitReached then
    Result.ensure (300 < files.total)
      (.invalid "GitHub filter limit requires more than 300 changed files")
  else if files.complete then
    Result.ensure (files.total = files.paths.length)
      (.invalid "complete changed-file collection must include every path")

def validateJobs (workflow : WorkflowDefinition) : Result Unit := do
  Result.ensure (workflow.jobs.length ≤ maxItems)
    (.invalid s!"workflow jobs exceeds {maxItems} items")
  if workflow.syntaxState = .invalid then
    Result.ensure (workflow.jobs = []) (.invalid "invalid workflow cannot claim parsed jobs")
  discard <| workflow.jobs.foldlM
    (fun jobIds job => do
      validateNonEmpty "job.id" job.id
      validateNonEmpty "job.name" job.name
      validateNonEmpty "job.condition" job.condition
      Result.ensure (job.id ∉ jobIds) (.invalid "job ids must be unique per workflow")
      return job.id :: jobIds)
    []

def validateTriggers (triggers : WorkflowTriggers) : Result Unit := do
  if let some trigger := triggers.pullRequest then
    Result.ensure (trigger.branches = [] ∨ trigger.branchesIgnore = [])
      (.invalid "pull_request cannot combine branches and branches_ignore")
    Result.ensure (trigger.paths = [] ∨ trigger.pathsIgnore = [])
      (.invalid "pull_request cannot combine paths and paths_ignore")
    validateUniqueNonEmpty "pull_request.branches" trigger.branches
    validateUniqueNonEmpty "pull_request.branches_ignore" trigger.branchesIgnore
    validateUniqueNonEmpty "pull_request.paths" trigger.paths
    validateUniqueNonEmpty "pull_request.paths_ignore" trigger.pathsIgnore
    validateUniqueNonEmpty "pull_request.types" trigger.types
  if let some trigger := triggers.mergeGroup then
    validateUniqueNonEmpty "merge_group.types" trigger.types
    Result.ensure (trigger.types = [] ∨ ∀ value ∈ trigger.types, value = "checks_requested")
      (.invalid "merge_group only supports checks_requested")

def isWorkflowPath (path : String) : Bool :=
  ".github/workflows/".toList.isPrefixOf path.toList &&
    (".yml".toList.isSuffixOf path.toList || ".yaml".toList.isSuffixOf path.toList)

def validateWorkflow (workflowPaths : List String) (workflow : WorkflowDefinition) :
    Result (List String) := do
  validateNonEmpty "workflow.path" workflow.path
  Result.ensure (isWorkflowPath workflow.path)
    (.invalid "workflow path is not under .github/workflows")
  Result.ensure (workflow.path ∉ workflowPaths) (.invalid "workflow paths must be unique")
  validateJobs workflow
  validateTriggers workflow.triggers
  return workflow.path :: workflowPaths

def validateRun (target : WorkflowTarget) (run : WorkflowRunObservation) : Result Unit := do
  validateNonEmpty "run.workflow_path" run.workflowPath
  validateSha "run.head_sha" run.headSha
  Result.ensure (run.headSha = target.sha) (.invalid "run is not bound to exact target")
  Result.ensure ((run.status = .completed) ↔ run.conclusion.isSome)
    (.invalid "completed runs require a conclusion and incomplete runs forbid one")

def validateInput (input : DoctorWorkflowTriggerInput) : Result Unit := do
  validateNonEmpty "required_context" input.requiredContext
  validateNonEmpty "last_activity" input.lastActivity
  validateSha "target.sha" input.target.sha
  validateSha "pull_request.base_sha" input.pullRequest.baseSha
  validateSha "pull_request.head_sha" input.pullRequest.headSha
  validateNonEmpty "pull_request.base_ref" input.pullRequest.baseRef
  validateNonEmpty "pull_request.head_ref" input.pullRequest.headRef
  Result.ensure (0 < input.pullRequest.number) (.invalid "pull_request.number must be positive")
  validateTarget input
  validateChangedFiles input.changedFiles
  validateUniqueNonEmpty "changed_files.paths" input.changedFiles.paths
  validateUniqueNonEmpty "collection_gaps" input.collectionGaps
  validateUniqueNonEmpty "historical_check_names" input.historicalCheckNames
  Result.ensure (input.runs.length ≤ maxItems) (.invalid s!"runs exceeds {maxItems} items")
  Result.ensure (input.workflows.length ≤ maxItems)
    (.invalid s!"workflows exceeds {maxItems} items")
  Result.ensure
    (input.expectedApp ≠ .githubActions ∨ input.providerCapability = .notApplicable)
    (.invalid "GitHub Actions input cannot assert third-party provider capability")
  discard <| input.workflows.foldlM validateWorkflow []
  input.runs.forM (validateRun input.target)

/-! ## Diagnoses -/

def workflowFix (actionCode : String) (requiresHumanEdit : Bool) : WorkflowTriggerFix :=
  ⟨actionCode, [], requiresHumanEdit⟩

def diagnosis (input : DoctorWorkflowTriggerInput) (causeCode : WorkflowTriggerCause)
    (confidence : WorkflowTriggerConfidence) (evidence : List String) (fix : WorkflowTriggerFix) :
    DoctorWorkflowTriggerDiagnosis :=
  ⟨causeCode, confidence, evidence, fix, input.target.sha⟩

def unknown (input : DoctorWorkflowTriggerInput) (evidence actionCode : String) :
    DoctorWorkflowTriggerDiagnosis :=
  diagnosis input .workflowTriggerUnknown .uncertain [evidence] (workflowFix actionCode false)

def hasGap (input : DoctorWorkflowTriggerInput) (gap : String) : Bool :=
  input.collectionGaps.any (· == gap)

def workflowStateName : WorkflowState → String
  | .active => "active"
  | .disabledInactivity => "disabled_inactivity"
  | .disabledManually => "disabled_manually"

def matchingJobs (input : DoctorWorkflowTriggerInput) : List (WorkflowDefinition × WorkflowJob) :=
  input.workflows.flatMap fun workflow =>
    (workflow.jobs.filter fun job => job.nameStatic && job.name == input.requiredContext).map
      fun job => (workflow, job)

def activeMatching (input : DoctorWorkflowTriggerInput) : List (WorkflowDefinition × WorkflowJob) :=
  (matchingJobs input).filter fun producer => producer.1.state == .active

def hasObservedRun (input : DoctorWorkflowTriggerInput) (workflow : WorkflowDefinition)
    (event : WorkflowRunEvent) : Bool :=
  input.runs.any fun run =>
    run.headSha == input.target.sha && run.workflowPath == workflow.path && run.event == event

def classifyThirdParty (input : DoctorWorkflowTriggerInput) : DoctorWorkflowTriggerDiagnosis :=
  if input.providerCapability = .unsupportedMergeGroup ∧ input.target.kind = .mergeGroup then
    diagnosis input .providerDidNotEmitMergeGroupStatus .high
      ["target:merge_group", "expected_app:third-party",
        "provider_capability:unsupported_merge_group"]
      (workflowFix "replace_or_ungate_unsupported_provider" true)
  else if hasGap input "provider_webhook_delivery_unavailable" then
    diagnosis input .providerRuntimeDeliveryGap .uncertain
      ["expected_app:third-party", "exact_target_status:absent",
        "gap:provider_webhook_delivery_unavailable"]
      (workflowFix "inspect_provider_webhook_delivery" false)
  else
    unknown input "provider_capability:unknown" "inspect_provider_capability"

def invalidStartup (input : DoctorWorkflowTriggerInput) : Bool :=
  input.workflows.any fun workflow =>
    workflow.syntaxState == .invalid &&
      input.runs.any fun run =>
        run.workflowPath == workflow.path && run.status == .completed &&
          run.conclusion == some .startupFailure

def hasDynamicJob (input : DoctorWorkflowTriggerInput) : Bool :=
  (input.workflows.flatMap (·.jobs)).any fun job => !job.nameStatic

def hasReusableJob (input : DoctorWorkflowTriggerInput) : Bool :=
  (input.workflows.flatMap (·.jobs)).any (·.reusable)

def currentStatic (input : DoctorWorkflowTriggerInput) : List (WorkflowDefinition × WorkflowJob) :=
  (input.workflows.filter fun workflow =>
    workflow.state == .active && workflow.syntaxState == .valid).flatMap fun workflow =>
      (workflow.jobs.filter (·.nameStatic)).map fun job => (workflow, job)

def expectedEvent : WorkflowTargetKind → WorkflowRunEvent
  | .mergeGroup => .mergeGroup
  | .pullRequestHead => .pullRequest

/-- No workflow produces the required context. -/
def classifyUnmapped (input : DoctorWorkflowTriggerInput) : DoctorWorkflowTriggerDiagnosis :=
  match currentStatic input with
  | [(workflow, job)] =>
      if input.historicalCheckNames.any (· == input.requiredContext) &&
          hasObservedRun input workflow (expectedEvent input.target.kind) then
        diagnosis input .requiredContextNotProduced .high
          ["required:" ++ input.requiredContext, "historical:" ++ input.requiredContext,
            "current_job:" ++ job.name]
          (workflowFix "synchronize_required_context" true)
      else
        unknown input "required_context:unmapped" "collect_required_context_producer"
  | _ => unknown input "required_context:unmapped" "collect_required_context_producer"

def classifyDisabled (input : DoctorWorkflowTriggerInput) (workflow : WorkflowDefinition) :
    DoctorWorkflowTriggerDiagnosis :=
  diagnosis input .workflowDisabled .certain
    ["workflow:" ++ workflow.path, "workflow_state:" ++ workflowStateName workflow.state]
    ⟨"enable_workflow", ["gh", "workflow", "enable", workflow.path], false⟩

def observedPullRequestRun (input : DoctorWorkflowTriggerInput) (workflow : WorkflowDefinition) :
    Option WorkflowRunObservation :=
  if input.target.kind = .pullRequestHead then
    input.runs.find? fun run =>
      run.headSha == input.target.sha && run.workflowPath == workflow.path &&
        run.event == .pullRequest
  else
    none

def approvalRequired (input : DoctorWorkflowTriggerInput) (workflow : WorkflowDefinition) : Bool :=
  input.runs.any fun run =>
    run.headSha == input.target.sha && run.workflowPath == workflow.path &&
      run.conclusion == some .actionRequired

def classifyMergeGroup (input : DoctorWorkflowTriggerInput) (workflow : WorkflowDefinition) :
    DoctorWorkflowTriggerDiagnosis :=
  if workflow.triggers.mergeGroup.isNone then
    diagnosis input .mergeGroupTriggerMissing .certain
      ["target:merge_group", "workflow:" ++ workflow.path, "trigger:merge_group_absent"]
      (workflowFix "add_merge_group_trigger" true)
  else if hasObservedRun input workflow .mergeGroup then
    diagnosis input .none .certain
      ["target:merge_group", "trigger:merge_group_checks_requested", "run:queued"]
      (workflowFix "none" false)
  else
    unknown input "merge_group_run:absent" "collect_merge_group_run"

def defaultTypes : List String := ["opened", "reopened", "synchronize"]

/-- Whether the last activity is one of those that the trigger is for. -/
def activityMatches (input : DoctorWorkflowTriggerInput) (trigger : PullRequestWorkflowTrigger) :
    Bool :=
  if trigger.types.isEmpty then defaultTypes.contains input.lastActivity
  else trigger.types.any (· == input.lastActivity)

def branchExclusion (input : DoctorWorkflowTriggerInput) (workflow : WorkflowDefinition)
    (trigger : PullRequestWorkflowTrigger) : DoctorWorkflowTriggerDiagnosis :=
  let (filterName, patterns) :=
    if trigger.branches.isEmpty then ("branches_ignore", ",".intercalate trigger.branchesIgnore)
    else ("branches", ",".intercalate trigger.branches)
  diagnosis input .workflowBranchFilterExcluded .certain
    ["base:" ++ input.pullRequest.baseRef, filterName ++ ":" ++ patterns,
      "workflow:" ++ workflow.path]
    (workflowFix "align_required_base_branch_filter" true)

def pathExclusion (input : DoctorWorkflowTriggerInput) (workflow : WorkflowDefinition)
    (trigger : PullRequestWorkflowTrigger) : DoctorWorkflowTriggerDiagnosis :=
  let evidence :=
    if !trigger.paths.isEmpty then
      ["changed:" ++ input.changedFiles.paths.headD "", "paths:" ++ ",".intercalate trigger.paths,
        "workflow:" ++ workflow.path]
    else
      ["changed:" ++ input.changedFiles.paths.headD "",
        "paths_ignore:" ++ trigger.pathsIgnore.headD "", "workflow:" ++ workflow.path]
  diagnosis input .workflowPathFilterExcluded .certain evidence
    (workflowFix "move_required_filter_inside_workflow" true)

/-- No run was observed, and neither activity nor filters say why. -/
def classifyUnfiltered (input : DoctorWorkflowTriggerInput) : DoctorWorkflowTriggerDiagnosis :=
  if input.pullRequest.headRepositoryIsFork && hasGap input "fork_approval_policy_unavailable" then
    diagnosis input .forkApprovalPossible .uncertain
      ["head_repository:fork", "exact_head_run:absent", "gap:fork_approval_policy_unavailable"]
      ⟨"inspect_fork_approval_policy",
        ["gh", "api", "repos/\x7bowner\x7d/\x7brepo\x7d/actions/permissions/" ++
          "fork-pr-contributor-approval"],
        false⟩
  else
    unknown input "pull_request_run:absent" "collect_pull_request_run"

def hasPathFilters (trigger : PullRequestWorkflowTrigger) : Bool :=
  !trigger.paths.isEmpty || !trigger.pathsIgnore.isEmpty

def classifyPaths (input : DoctorWorkflowTriggerInput) (workflow : WorkflowDefinition)
    (trigger : PullRequestWorkflowTrigger) : DoctorWorkflowTriggerDiagnosis :=
  if input.changedFiles.githubFilterFileLimitReached then
    diagnosis input .workflowTriggerUnknown .uncertain
      ["changed_files:" ++ toString input.changedFiles.total, "github_filter_limit:reached",
        "gap:github_path_filter_evaluation_truncated"]
      (workflowFix "inspect_github_filter_evaluation" false)
  else if hasPathFilters trigger && !input.changedFiles.complete then
    unknown input "gap:changed_files_incomplete" "collect_changed_files"
  else
    match evaluatePathFilters trigger.paths trigger.pathsIgnore input.changedFiles.paths with
    | .excluded => pathExclusion input workflow trigger
    | .unknown => unknown input "path_filter:unsupported_pattern" "inspect_path_filter"
    | .included => classifyUnfiltered input

def classifyBranches (input : DoctorWorkflowTriggerInput) (workflow : WorkflowDefinition)
    (trigger : PullRequestWorkflowTrigger) : DoctorWorkflowTriggerDiagnosis :=
  match evaluateRefFilters trigger.branches trigger.branchesIgnore input.pullRequest.baseRef with
  | .excluded => branchExclusion input workflow trigger
  | .unknown => unknown input "branch_filter:unsupported_pattern" "inspect_branch_filter"
  | .included => classifyPaths input workflow trigger

/-- The workflow has a trigger, and no run of it was observed. -/
def classifyUntriggered (input : DoctorWorkflowTriggerInput) (workflow : WorkflowDefinition)
    (trigger : PullRequestWorkflowTrigger) : DoctorWorkflowTriggerDiagnosis :=
  if input.lastActivity = "not_applicable" ∧ trigger.types ≠ [] then
    unknown input "activity_filter:activity_unavailable" "collect_pull_request_activity"
  else if input.lastActivity ≠ "not_applicable" ∧ activityMatches input trigger = false then
    if input.lastActivity ≠ "synchronize" then
      unknown input "activity_filter:excluded_non_synchronize"
        "inspect_pull_request_activity_filter"
    else
      diagnosis input .workflowActivityExcludesSynchronize .certain
        ["last_activity:" ++ input.lastActivity, "types:" ++ ",".intercalate trigger.types,
          "exact_head_run:absent"]
        (workflowFix "add_pull_request_synchronize" true)
  else
    classifyBranches input workflow trigger

/-- What the trigger says about a run that was observed. -/
def triggerEvidence (input : DoctorWorkflowTriggerInput) (workflow : WorkflowDefinition) :
    List String :=
  let plain := ["workflow:" ++ workflow.path, "event:pull_request", "run_head:exact"]
  match workflow.triggers.pullRequest with
  | none => plain
  | some trigger =>
      match trigger.branches, input.changedFiles.paths with
      | pattern :: _, _ =>
          ["base:" ++ input.pullRequest.baseRef, "head:" ++ input.pullRequest.headRef,
            "branches:" ++ pattern, "run:queued"]
      | [], changedPath :: _ =>
          if trigger.paths.any fun pattern => (stripNegation pattern).isSome then
            ["changed:" ++ changedPath, "paths:ordered_reinclude", "run:queued"]
          else
            match trigger.paths with
            | pattern :: _ => ["changed:" ++ changedPath, "paths:" ++ pattern, "run:queued"]
            | [] => plain
      | [], [] => plain

def classifyObserved (input : DoctorWorkflowTriggerInput) (workflow : WorkflowDefinition)
    (job : WorkflowJob) (observedRun : WorkflowRunObservation) : DoctorWorkflowTriggerDiagnosis :=
  if job.condition ≠ "always" then
    if observedRun.conclusion ≠ some .skipped then
      unknown input "conditional_job:outcome_unproven" "inspect_conditional_job"
    else
      diagnosis input .none .certain
        ["workflow:triggered", "job:conditional", "run:skipped_success"]
        (workflowFix "none" false)
  else
    diagnosis input .none .certain (triggerEvidence input workflow) (workflowFix "none" false)

/-- A single active workflow produces the required context. -/
def classifyProducer (input : DoctorWorkflowTriggerInput) (workflow : WorkflowDefinition)
    (job : WorkflowJob) : DoctorWorkflowTriggerDiagnosis :=
  let observed := observedPullRequestRun input workflow
  if input.pullRequest.headRepositoryIsFork && approvalRequired input workflow then
    diagnosis input .forkApprovalRequired .certain
      ["head_repository:fork", "run_conclusion:action_required", "run_head:exact"]
      (workflowFix "approve_fork_workflow" false)
  else if input.target.kind = .pullRequestHead ∧
      input.pullRequest.mergeableState = .conflicting ∧
      workflow.triggers.pullRequest.isSome ∧ observed.isNone then
    diagnosis input .pullRequestMergeConflict .certain
      ["mergeable_state:conflicting", "trigger:pull_request", "exact_head_run:absent"]
      (workflowFix "resolve_merge_conflict" true)
  else if input.target.kind = .mergeGroup then
    classifyMergeGroup input workflow
  else
    match observed, workflow.triggers.pullRequest with
    | none, none =>
        diagnosis input .pullRequestTriggerMissing .certain
          ["target:pull_request_head", "workflow:" ++ workflow.path,
            "trigger:pull_request_absent"]
          (workflowFix "add_pull_request_trigger" true)
    | none, some trigger => classifyUntriggered input workflow trigger
    | some run, _ => classifyObserved input workflow job run

def classifyValid (input : DoctorWorkflowTriggerInput) : DoctorWorkflowTriggerDiagnosis :=
  if input.expectedApp = .thirdParty then
    classifyThirdParty input
  else if invalidStartup input then
    diagnosis input .workflowDefinitionInvalid .certain
      ["workflow_syntax:invalid", "run_conclusion:startup_failure"]
      (workflowFix "repair_workflow_syntax" true)
  else if hasDynamicJob input && hasGap input "dynamic_job_name" then
    diagnosis input .workflowTriggerUnknown .uncertain ["job_name:dynamic", "gap:dynamic_job_name"]
      (workflowFix "collect_expanded_job_names" false)
  else if hasReusableJob input && hasGap input "reusable_workflow_definition_unavailable" then
    diagnosis input .workflowTriggerUnknown .uncertain
      ["job:reusable", "gap:reusable_workflow_definition_unavailable"]
      (workflowFix "collect_reusable_workflow_definition" false)
  else
    match matchingJobs input with
    | [] => classifyUnmapped input
    | (disabled, _) :: _ =>
        match activeMatching input with
        | [] => classifyDisabled input disabled
        | [(workflow, job)] => classifyProducer input workflow job
        | several =>
            diagnosis input .duplicateJobNameAmbiguous .certain
              (several.map fun producer =>
                "job:" ++ input.requiredContext ++ "@" ++ producer.1.path)
              (workflowFix "make_required_job_names_unique" true)

def classifyWorkflowTrigger (input : DoctorWorkflowTriggerInput) :
    Result DoctorWorkflowTriggerDiagnosis := do
  validateInput input
  return classifyValid input

/-! ## Exclusions by a filter -/

/-- A diagnosis that names a cause for certain. -/
def DoctorWorkflowTriggerDiagnosis.Certainly (d : DoctorWorkflowTriggerDiagnosis)
    (cause : WorkflowTriggerCause) : Prop :=
  d.causeCode = cause ∧ d.confidence = .certain

inductive FilterCause : WorkflowTriggerCause → Prop where
  | branch : FilterCause .workflowBranchFilterExcluded
  | path : FilterCause .workflowPathFilterExcluded

/-- The branch filter decides: nothing that comes before it applies, and it can be read. -/
structure ReachesBranchFilter (input : DoctorWorkflowTriggerInput) (workflow : WorkflowDefinition)
    (job : WorkflowJob) (trigger : PullRequestWorkflowTrigger) : Prop where
  valid : validateInput input = .ok ()
  app : input.expectedApp ≠ .thirdParty
  started : invalidStartup input = false
  named : (hasDynamicJob input && hasGap input "dynamic_job_name") = false
  defined : (hasReusableJob input &&
    hasGap input "reusable_workflow_definition_unavailable") = false
  producer : activeMatching input = [(workflow, job)]
  approved : (input.pullRequest.headRepositoryIsFork && approvalRequired input workflow) = false
  target : input.target.kind = .pullRequestHead
  mergeable : input.pullRequest.mergeableState ≠ .conflicting
  triggered : workflow.triggers.pullRequest = some trigger
  unobserved : observedPullRequestRun input workflow = none
  activity : input.lastActivity = "not_applicable" → trigger.types = []
  active : input.lastActivity ≠ "not_applicable" → activityMatches input trigger = true
  readable : Readable trigger.branches trigger.branchesIgnore

/-- All changed paths are known, and the path filter can be read. -/
structure PathsKnown (input : DoctorWorkflowTriggerInput)
    (trigger : PullRequestWorkflowTrigger) : Prop where
  evaluated : input.changedFiles.githubFilterFileLimitReached = false
  complete : hasPathFilters trigger = true → input.changedFiles.complete = true
  changed : input.changedFiles.paths ≠ []
  readablePaths : Readable trigger.paths trigger.pathsIgnore

/-- The path filter decides: the branch filter lets the base branch pass. -/
structure ReachesPathFilter (input : DoctorWorkflowTriggerInput) (workflow : WorkflowDefinition)
    (job : WorkflowJob) (trigger : PullRequestWorkflowTrigger) : Prop
    extends ReachesBranchFilter input workflow job trigger, PathsKnown input trigger where
  selected : ¬ RefExcluded trigger.branches trigger.branchesIgnore input.pullRequest.baseRef

/-- The inputs that are excluded by a filter for certain are those that GitHub excludes. -/
structure AsDocumented (input : DoctorWorkflowTriggerInput) : Prop where
  branch : (∃ d, classifyWorkflowTrigger input = .ok d ∧
      d.Certainly .workflowBranchFilterExcluded) ↔
    ∃ workflow job trigger, ReachesBranchFilter input workflow job trigger ∧
      RefExcluded trigger.branches trigger.branchesIgnore input.pullRequest.baseRef
  path : (∃ d, classifyWorkflowTrigger input = .ok d ∧
      d.Certainly .workflowPathFilterExcluded) ↔
    ∃ workflow job trigger, ReachesPathFilter input workflow job trigger ∧
      PathsExcluded trigger.paths trigger.pathsIgnore input.changedFiles.paths

/-- No misreading decides in a filter that is reached. -/
structure WellRead (input : DoctorWorkflowTriggerInput) : Prop where
  branches : ∀ workflow job trigger, ReachesBranchFilter input workflow job trigger →
    Agreed trigger.branches input.pullRequest.baseRef ∧
      Agreed trigger.branchesIgnore input.pullRequest.baseRef
  paths : ∀ workflow job trigger, ReachesPathFilter input workflow job trigger →
    AgreedPaths trigger.paths trigger.pathsIgnore input.changedFiles.paths

/-- The filters that are reached have portable patterns. -/
structure PortableWhereReached (input : DoctorWorkflowTriggerInput) : Prop where
  branches : ∀ workflow job trigger, ReachesBranchFilter input workflow job trigger →
    PortableFilter trigger.branches trigger.branchesIgnore
  paths : ∀ workflow job trigger, ReachesPathFilter input workflow job trigger →
    PortableFilter trigger.paths trigger.pathsIgnore

section

variable {input : DoctorWorkflowTriggerInput} {workflow : WorkflowDefinition} {job : WorkflowJob}
variable {trigger : PullRequestWorkflowTrigger} {cause other : WorkflowTriggerCause}
variable {confidence : WorkflowTriggerConfidence} {evidence : List String}
variable {fix : WorkflowTriggerFix}

@[simp] theorem diagnosis_certainly :
    (diagnosis input other confidence evidence fix).Certainly cause ↔
      other = cause ∧ confidence = .certain := Iff.rfl

@[simp] theorem unknown_certainly {gap action : String} :
    ¬ (unknown input gap action).Certainly cause := nofun

@[simp] theorem branchExclusion_certainly :
    (branchExclusion input workflow trigger).Certainly cause ↔
      cause = .workflowBranchFilterExcluded :=
  ⟨fun h => h.1.symm, fun same => ⟨same.symm, rfl⟩⟩

@[simp] theorem pathExclusion_certainly :
    (pathExclusion input workflow trigger).Certainly cause ↔
      cause = .workflowPathFilterExcluded :=
  ⟨fun h => h.1.symm, fun same => ⟨same.symm, rfl⟩⟩

theorem classifyUnfiltered_not : ¬ (classifyUnfiltered input).Certainly cause := by
  unfold classifyUnfiltered
  split <;> simp

theorem classifyThirdParty_not : ¬ (classifyThirdParty input).Certainly cause := by
  unfold classifyThirdParty
  split
  · simp
  · split <;> simp

theorem classifyUnmapped_not : ¬ (classifyUnmapped input).Certainly cause := by
  unfold classifyUnmapped
  split
  · split <;> simp
  · simp

theorem classifyMergeGroup_not (filter : FilterCause cause) :
    ¬ (classifyMergeGroup input workflow).Certainly cause := by
  unfold classifyMergeGroup
  cases filter <;> split <;> (try split) <;> simp

theorem classifyObserved_not (filter : FilterCause cause) {run : WorkflowRunObservation} :
    ¬ (classifyObserved input workflow job run).Certainly cause := by
  unfold classifyObserved
  cases filter <;> split <;> (try split) <;> simp

theorem classifyPaths_iff :
    (classifyPaths input workflow trigger).Certainly cause ↔
      cause = .workflowPathFilterExcluded ∧
        input.changedFiles.githubFilterFileLimitReached = false ∧
        (hasPathFilters trigger = true → input.changedFiles.complete = true) ∧
        evaluatePathFilters trigger.paths trigger.pathsIgnore input.changedFiles.paths =
          .excluded := by
  unfold classifyPaths
  split
  · simp_all
  · split
    · simp_all
    · cases decision : evaluatePathFilters trigger.paths trigger.pathsIgnore
          input.changedFiles.paths with
      | excluded => simp_all
      | unknown => simp
      | included => simp [classifyUnfiltered_not]

theorem classifyBranches_iff :
    (classifyBranches input workflow trigger).Certainly cause ↔
      (cause = .workflowBranchFilterExcluded ∧
        evaluateRefFilters trigger.branches trigger.branchesIgnore input.pullRequest.baseRef =
          .excluded) ∨
      (evaluateRefFilters trigger.branches trigger.branchesIgnore input.pullRequest.baseRef =
        .included ∧ (classifyPaths input workflow trigger).Certainly cause) := by
  unfold classifyBranches
  cases decision : evaluateRefFilters trigger.branches trigger.branchesIgnore
      input.pullRequest.baseRef with
  | excluded => simp
  | unknown => simp
  | included => simp

theorem classifyUntriggered_iff (filter : FilterCause cause) :
    (classifyUntriggered input workflow trigger).Certainly cause ↔
      (input.lastActivity = "not_applicable" → trigger.types = []) ∧
        (input.lastActivity ≠ "not_applicable" → activityMatches input trigger = true) ∧
        (classifyBranches input workflow trigger).Certainly cause := by
  unfold classifyUntriggered
  split
  · simp_all
  · split
    · split
      · simp_all
      · cases filter <;> simp_all
    · simp_all

theorem classifyProducer_iff (filter : FilterCause cause) :
    (classifyProducer input workflow job).Certainly cause ↔
      ∃ trigger,
        (input.pullRequest.headRepositoryIsFork && approvalRequired input workflow) = false ∧
        input.target.kind = .pullRequestHead ∧
        input.pullRequest.mergeableState ≠ .conflicting ∧
        workflow.triggers.pullRequest = some trigger ∧
        observedPullRequestRun input workflow = none ∧
        (classifyUntriggered input workflow trigger).Certainly cause := by
  unfold classifyProducer
  simp only
  split
  · cases filter <;> simp_all
  · split
    · cases filter <;> simp_all
    · split
      · simp_all [classifyMergeGroup_not filter]
      · cases observed : observedPullRequestRun input workflow with
        | some run => simp [classifyObserved_not filter]
        | none =>
            cases trigger : workflow.triggers.pullRequest with
            | none => cases filter <;> simp
            | some trigger =>
                have target : input.target.kind = .pullRequestHead := by
                  cases kind : input.target.kind with
                  | mergeGroup => contradiction
                  | pullRequestHead => rfl
                simp_all

theorem classifyValid_iff (filter : FilterCause cause) :
    (classifyValid input).Certainly cause ↔
      ∃ workflow job, input.expectedApp ≠ .thirdParty ∧ invalidStartup input = false ∧
        (hasDynamicJob input && hasGap input "dynamic_job_name") = false ∧
        (hasReusableJob input &&
          hasGap input "reusable_workflow_definition_unavailable") = false ∧
        activeMatching input = [(workflow, job)] ∧
        (classifyProducer input workflow job).Certainly cause := by
  unfold classifyValid
  split
  · simp_all [classifyThirdParty_not]
  · split
    · cases filter <;> simp_all
    · split
      · cases filter <;> simp_all
      · split
        · cases filter <;> simp_all
        · cases jobs : matchingJobs input with
          | nil => simp_all [activeMatching, classifyUnmapped_not]
          | cons first rest =>
              cases producers : activeMatching input with
              | nil => cases filter <;> simp [classifyDisabled]
              | cons producer others =>
                  cases others with
                  | nil =>
                      obtain ⟨workflow, job⟩ := producer
                      simp_all
                  | cons second others => cases filter <;> simp

theorem classifyWorkflowTrigger_iff :
    (∃ d, classifyWorkflowTrigger input = .ok d ∧ d.Certainly cause) ↔
      validateInput input = .ok () ∧ (classifyValid input).Certainly cause := by
  constructor
  · rintro ⟨d, run, certain⟩
    obtain ⟨valid, rest⟩ := Result.check_bind_eq_ok.mp run
    exact ⟨valid, Except.ok.inj rest ▸ certain⟩
  · rintro ⟨valid, certain⟩
    exact ⟨_, by rw [classifyWorkflowTrigger, valid]; rfl, certain⟩

theorem mem_workflows_of_producer (producer : activeMatching input = [(workflow, job)]) :
    workflow ∈ input.workflows := by
  have member : (workflow, job) ∈ matchingJobs input :=
    List.mem_of_mem_filter (by rw [← activeMatching, producer]; exact List.mem_singleton_self _)
  obtain ⟨found, inside, mapped⟩ := List.mem_flatMap.mp member
  obtain ⟨_, _, same⟩ := List.mem_map.mp mapped
  exact (Prod.mk.inj same).1 ▸ inside

theorem validateWorkflows_spec {workflows : List WorkflowDefinition} {paths paths' : List String}
    (h : workflows.foldlM validateWorkflow paths = .ok paths') :
    ∀ workflow ∈ workflows, validateTriggers workflow.triggers = .ok () := by
  induction workflows generalizing paths with
  | nil => exact fun _ member => absurd member List.not_mem_nil
  | cons first rest ih =>
      rw [List.foldlM_cons] at h
      obtain ⟨next, validated, others⟩ := Result.bind_eq_ok.mp h
      simp only [validateWorkflow, Result.check_bind_eq_ok] at validated
      exact List.forall_mem_cons.mpr ⟨validated.2.2.2.2.1, ih others⟩

/-- A valid filter has patterns to include or patterns to ignore. -/
theorem single_of_valid (valid : validateInput input = .ok ()) (member : workflow ∈ input.workflows)
    (triggered : workflow.triggers.pullRequest = some trigger) :
    (trigger.branches = [] ∨ trigger.branchesIgnore = []) ∧
      (trigger.paths = [] ∨ trigger.pathsIgnore = []) := by
  have validated : ∃ paths, input.workflows.foldlM validateWorkflow [] = .ok paths := by
    cases run : input.workflows.foldlM validateWorkflow [] with
    | ok paths => exact ⟨paths, rfl⟩
    | error failure =>
        simp only [validateInput, run, Result.check_bind_eq_ok] at valid
        cases valid.2.2.2.2.2.2.2.2.2.2.2.2.2.2.2.2.1
  obtain ⟨paths, validated⟩ := validated
  have triggers := validateWorkflows_spec validated workflow member
  simp only [validateTriggers, triggered, Result.check_bind_eq_ok, Result.ensure_eq_ok] at triggers
  exact ⟨triggers.1, triggers.2.1⟩

theorem ReachesBranchFilter.member (reach : ReachesBranchFilter input workflow job trigger) :
    workflow ∈ input.workflows := mem_workflows_of_producer reach.producer

/-- There is one filter at most that is reached. -/
theorem ReachesBranchFilter.unique {workflow' : WorkflowDefinition} {job' : WorkflowJob}
    {trigger' : PullRequestWorkflowTrigger} (reach : ReachesBranchFilter input workflow job trigger)
    (reach' : ReachesBranchFilter input workflow' job' trigger') : trigger' = trigger := by
  have producers := reach.producer.symm.trans reach'.producer
  obtain ⟨rfl, rfl⟩ := Prod.mk.inj (List.singleton_inj.mp producers)
  exact Option.some.inj (reach'.triggered.symm.trans reach.triggered)

theorem classify_branch_iff :
    (∃ d, classifyWorkflowTrigger input = .ok d ∧ d.Certainly .workflowBranchFilterExcluded) ↔
      ∃ workflow job trigger, ReachesBranchFilter input workflow job trigger ∧
        ExcludesRef LooselyMatches trigger.branches trigger.branchesIgnore
          input.pullRequest.baseRef := by
  simp only [classifyWorkflowTrigger_iff, classifyValid_iff .branch, classifyProducer_iff .branch,
    classifyUntriggered_iff .branch, classifyBranches_iff, classifyPaths_iff]
  constructor
  · rintro ⟨valid, workflow, job, app, started, named, defined, producer, trigger, approved,
      target, mergeable, triggered, unobserved, activity, active, excluded⟩
    have excluded := excluded.resolve_right (by simp)
    obtain ⟨readable, excluded⟩ := evaluateRefFilters_excluded_iff.mp excluded.2
    exact ⟨workflow, job, trigger, ⟨valid, app, started, named, defined, producer, approved, target,
      mergeable, triggered, unobserved, activity, active, readable⟩, excluded⟩
  · rintro ⟨workflow, job, trigger, reach, excluded⟩
    exact ⟨reach.valid, workflow, job, reach.app, reach.started, reach.named, reach.defined,
      reach.producer, trigger, reach.approved, reach.target, reach.mergeable, reach.triggered,
      reach.unobserved, reach.activity, reach.active,
      .inl ⟨trivial, evaluateRefFilters_excluded_iff.mpr ⟨reach.readable, excluded⟩⟩⟩

theorem classify_path_iff :
    (∃ d, classifyWorkflowTrigger input = .ok d ∧ d.Certainly .workflowPathFilterExcluded) ↔
      ∃ workflow job trigger, ReachesBranchFilter input workflow job trigger ∧
        ¬ ExcludesRef LooselyMatches trigger.branches trigger.branchesIgnore
          input.pullRequest.baseRef ∧
        PathsKnown input trigger ∧
        ExcludesPaths LooselyMatches trigger.paths trigger.pathsIgnore
          input.changedFiles.paths := by
  simp only [classifyWorkflowTrigger_iff, classifyValid_iff .path, classifyProducer_iff .path,
    classifyUntriggered_iff .path, classifyBranches_iff, classifyPaths_iff]
  constructor
  · rintro ⟨valid, workflow, job, app, started, named, defined, producer, trigger, approved,
      target, mergeable, triggered, unobserved, activity, active, excluded⟩
    obtain ⟨included, -, evaluated, complete, excluded⟩ := excluded.resolve_left (by simp)
    obtain ⟨changed, readablePaths, excluded⟩ := evaluatePathFilters_excluded_iff.mp excluded
    obtain ⟨readable, selected⟩ := evaluateRefFilters_included_iff.mp included
    exact ⟨workflow, job, trigger, ⟨valid, app, started, named, defined, producer, approved, target,
      mergeable, triggered, unobserved, activity, active, readable⟩, selected, ⟨evaluated, complete,
      changed, readablePaths⟩, excluded⟩
  · rintro ⟨workflow, job, trigger, reach, selected, known, excluded⟩
    exact ⟨reach.valid, workflow, job, reach.app, reach.started, reach.named, reach.defined,
      reach.producer, trigger, reach.approved, reach.target, reach.mergeable, reach.triggered,
      reach.unobserved, reach.activity, reach.active,
      .inr ⟨evaluateRefFilters_included_iff.mpr ⟨reach.readable, selected⟩, trivial,
        known.evaluated, known.complete, evaluatePathFilters_excluded_iff.mpr
          ⟨known.changed, known.readablePaths, excluded⟩⟩⟩

theorem ReachesBranchFilter.agreed_iff (reach : ReachesBranchFilter input workflow job trigger) :
    (ExcludesRef LooselyMatches trigger.branches trigger.branchesIgnore
        input.pullRequest.baseRef ↔
      RefExcluded trigger.branches trigger.branchesIgnore input.pullRequest.baseRef) ↔
      Agreed trigger.branches input.pullRequest.baseRef ∧
        Agreed trigger.branchesIgnore input.pullRequest.baseRef :=
  excludesRef_iff reach.readable (single_of_valid reach.valid reach.member reach.triggered).1

theorem ReachesPathFilter.agreed_iff (reach : ReachesPathFilter input workflow job trigger) :
    (ExcludesPaths LooselyMatches trigger.paths trigger.pathsIgnore input.changedFiles.paths ↔
      PathsExcluded trigger.paths trigger.pathsIgnore input.changedFiles.paths) ↔
      AgreedPaths trigger.paths trigger.pathsIgnore input.changedFiles.paths :=
  excludesPaths_iff reach.readablePaths
    (single_of_valid reach.valid reach.member reach.triggered).2

/-- What is said of the filter that is reached is said of every filter that is. -/
theorem exists_reach_iff (reach : ReachesBranchFilter input workflow job trigger)
    {P : PullRequestWorkflowTrigger → Prop} :
    (∃ workflow job trigger, ReachesBranchFilter input workflow job trigger ∧ P trigger) ↔
      P trigger := by
  constructor
  · rintro ⟨_, _, other, reached, holds⟩
    exact reach.unique reached ▸ holds
  · exact fun holds => ⟨workflow, job, trigger, reach, holds⟩

theorem wellRead_of_asDocumented (documented : AsDocumented input) : WellRead input where
  branches workflow job trigger reach := by
    have same := documented.branch
    rw [classify_branch_iff, exists_reach_iff reach, exists_reach_iff reach] at same
    exact reach.agreed_iff.mp same
  paths workflow job trigger reach := by
    have branches := documented.branch
    rw [classify_branch_iff, exists_reach_iff reach.toReachesBranchFilter,
      exists_reach_iff reach.toReachesBranchFilter] at branches
    have selected : ¬ ExcludesRef LooselyMatches trigger.branches trigger.branchesIgnore
        input.pullRequest.baseRef := fun excluded => reach.selected (branches.mp excluded)
    have paths := documented.path
    rw [classify_path_iff, exists_reach_iff reach.toReachesBranchFilter] at paths
    refine reach.agreed_iff.mp ⟨fun excluded => ?_, fun excluded => ?_⟩
    · obtain ⟨_, _, other, reached, excludes⟩ :=
        paths.mp ⟨selected, reach.toPathsKnown, excluded⟩
      exact reach.unique reached.toReachesBranchFilter ▸ excludes
    · exact (paths.mpr ⟨workflow, job, trigger, reach, excluded⟩).2.2

theorem asDocumented_of_wellRead (read : WellRead input) : AsDocumented input where
  branch := by
    rw [classify_branch_iff]
    refine exists_congr fun workflow => exists_congr fun job => exists_congr fun trigger => ?_
    exact and_congr_right fun reach => reach.agreed_iff.mpr (read.branches _ _ _ reach)
  path := by
    rw [classify_path_iff]
    refine exists_congr fun workflow => exists_congr fun job => exists_congr fun trigger => ?_
    constructor
    · rintro ⟨reach, selected, known, excluded⟩
      have branches := reach.agreed_iff.mpr (read.branches _ _ _ reach)
      have reached : ReachesPathFilter input workflow job trigger :=
        ⟨reach, known, fun excluded => selected (branches.mpr excluded)⟩
      exact ⟨reached, (reached.agreed_iff.mpr (read.paths _ _ _ reached)).mp excluded⟩
    · rintro ⟨reached, excluded⟩
      have branches := reached.toReachesBranchFilter.agreed_iff.mpr
        (read.branches _ _ _ reached.toReachesBranchFilter)
      exact ⟨reached.toReachesBranchFilter, fun excluded => reached.selected (branches.mp excluded),
        reached.toPathsKnown, (reached.agreed_iff.mpr (read.paths _ _ _ reached)).mpr excluded⟩

theorem wellRead_of_portable (portable : PortableWhereReached input) : WellRead input where
  branches workflow job trigger reach := by
    have patterns := portable.branches workflow job trigger reach
    exact ⟨agreed_of_portable (fun pattern member => patterns pattern (by simp [member])) _,
      agreed_of_portable (fun pattern member => patterns pattern (by simp [member])) _⟩
  paths workflow job trigger reach := by
    have patterns := portable.paths workflow job trigger reach
    constructor
    · exact .inl fun _ _ =>
        agreed_of_portable (fun pattern member => patterns pattern (by simp [member])) _
    · exact .inl fun _ _ =>
        agreed_of_portable (fun pattern member => patterns pattern (by simp [member])) _

end

/-- Patterns are matched as documented exactly when they are portable. An input is excluded by a
filter for certain exactly when GitHub excludes it if and only if no misreading decides in a
filter that is reached; with portable patterns there none does. -/
theorem workflow_filters_as_documented (pattern : String) (input : DoctorWorkflowTriggerInput) :
    (supportedPattern pattern = true →
      ((∀ value, globMatches pattern value = true ↔ FilterMatches pattern value) ↔
        Portable pattern)) ∧
    (AsDocumented input ↔ WellRead input) ∧
    (PortableWhereReached input → WellRead input) :=
  ⟨fun _ => globMatches_eq_filter_iff, ⟨wellRead_of_asDocumented, asDocumented_of_wellRead⟩,
    wellRead_of_portable⟩

/-- A pull request against `main` for a workflow that is for release branches. The pattern
`**/foo` stands behind its branch filter, and in a workflow that does not have the check. -/
def releaseOnly : DoctorWorkflowTriggerInput where
  changedFiles := ⟨true, false, ["xfoo"], 1⟩
  collectionGaps := []
  expectedApp := .githubActions
  historicalCheckNames := []
  lastActivity := "opened"
  providerCapability := .notApplicable
  pullRequest := ⟨"main", "1111111111111111111111111111111111111111", "topic", false,
    "2222222222222222222222222222222222222222", .mergeable, 7⟩
  requiredContext := "CI"
  runs := []
  target := ⟨.pullRequestHead, "2222222222222222222222222222222222222222"⟩
  workflows := [
    ⟨[⟨"always", "ci", "CI", true, false⟩], ".github/workflows/ci.yml", .active, .valid,
      ⟨none, some ⟨["release/**", "!release/rc-*"], [], [], ["**/foo"], []⟩⟩⟩,
    ⟨[⟨"always", "docs", "Docs", true, false⟩], ".github/workflows/docs.yml", .active, .valid,
      ⟨none, some ⟨[], [], ["**/foo"], [], []⟩⟩⟩]

theorem workflow_filters_as_documented_sample :
    (∀ value, globMatches "release/**" value = true ↔ FilterMatches "release/**" value) ∧
      ∃ workflow job trigger, ReachesBranchFilter releaseOnly workflow job trigger ∧
        RefExcluded trigger.branches trigger.branchesIgnore "main" := by
  have matched := workflow_filters_as_documented "release/**" releaseOnly
  have only {workflow job trigger} (reach : ReachesBranchFilter releaseOnly workflow job trigger) :
      trigger = ⟨["release/**", "!release/rc-*"], [], [], ["**/foo"], []⟩ := by
    obtain ⟨rfl, rfl⟩ := Prod.mk.inj (List.singleton_inj.mp (reach.producer.symm.trans rfl))
    exact Option.some.inj (reach.triggered.symm.trans rfl)
  have patterns : PortableFilter ["release/**", "!release/rc-*"] [] := by decide +kernel
  have reached : PortableWhereReached releaseOnly := by
    refine ⟨fun workflow job trigger reach => only reach ▸ patterns,
      fun workflow job trigger reach => ?_⟩
    obtain rfl := only reach.toReachesBranchFilter
    obtain ⟨readable, excluded⟩ := evaluateRefFilters_excluded_iff.mp
      (show evaluateRefFilters ["release/**", "!release/rc-*"] [] "main" = .excluded by
        decide +kernel)
    have agreed := excludesRef_iff readable (.inr rfl) |>.mpr
      ⟨agreed_of_portable (fun pattern member => patterns pattern (by simpa using member)) "main",
        agreed_of_portable (fun pattern member => absurd member List.not_mem_nil) "main"⟩
    exact absurd (agreed.mp excluded) reach.selected
  have excluded : (classifyWorkflowTrigger releaseOnly).toOption.any (fun d =>
      d.causeCode = .workflowBranchFilterExcluded ∧ d.confidence = .certain) = true := by
    decide +kernel
  cases run : classifyWorkflowTrigger releaseOnly with
  | error failure =>
      rw [run] at excluded
      cases excluded
  | ok d =>
      rw [run] at excluded
      have certain : d.Certainly .workflowBranchFilterExcluded := by
        simpa [DoctorWorkflowTriggerDiagnosis.Certainly, Except.toOption] using excluded
      exact ⟨(matched.1 (by decide +kernel)).mpr (by decide +kernel),
        (matched.2.1.mpr (matched.2.2 reached)).branch.mp ⟨d, run, certain⟩⟩

/-- A workflow that ignores `**/foo`, and a change of `xfoo`. -/
def ignoresFoo : DoctorWorkflowTriggerInput where
  __ := releaseOnly
  workflows := [⟨[⟨"always", "ci", "CI", true, false⟩], ".github/workflows/ci.yml", .active, .valid,
    ⟨none, some ⟨[], [], [], ["**/foo"], []⟩⟩⟩]

/-- Documented, `**/foo` is `foo` behind whole segments; the matcher takes any name that ends in
`foo`, and the doctor reports an exclusion that GitHub does not make. -/
theorem globMatches_beyond_segments :
    supportedPattern "**/foo" = true ∧
      ¬ (globMatches "**/foo" "xfoo" = true ↔ FilterMatches "**/foo" "xfoo") ∧
      (classifyWorkflowTrigger ignoresFoo).toOption.map
        (fun d => (d.causeCode, d.confidence)) = some (.workflowPathFilterExcluded, .certain) ∧
      ¬ PathsExcluded [] ["**/foo"] ["xfoo"] := by
  have documented : ¬ FilterMatches "**/foo" "xfoo" := by
    intro member
    obtain ⟨u, whole, v, rest, same⟩ := Wildcard.mem_cons.mp
      (show "xfoo".toList ∈ Wildcard.language '/' [.segments, .char 'f', .char 'o', .char 'o']
        from member)
    obtain ⟨_, rfl, first⟩ := Wildcard.mem_char_cons.mp rest
    obtain ⟨_, rfl, second⟩ := Wildcard.mem_char_cons.mp first
    obtain ⟨_, rfl, third⟩ := Wildcard.mem_char_cons.mp second
    obtain rfl := Wildcard.mem_nil.mp third
    obtain rfl : u = ['x'] := List.append_cancel_right same
    exact absurd (Wildcard.Element.eq_sep whole) (by decide)
  refine ⟨by decide +kernel, fun same => documented (same.mp (by decide +kernel)),
    by decide +kernel, ?_⟩
  rintro (⟨included, _⟩ | ⟨_, all⟩)
  · exact included rfl
  · obtain ⟨pattern, ignored, found⟩ := all "xfoo" (by simp)
    exact documented (List.mem_singleton.mp ignored ▸ found)

end Stratadiff.DoctorWorkflow
