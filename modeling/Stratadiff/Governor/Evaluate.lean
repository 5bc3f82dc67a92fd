import Stratadiff.Governor.Model

/-!
# The decision about a pair

`evaluatePair` decides a gate from a snapshot of its pair. The parser of URLs is an
argument, as the platform has it.
-/

namespace Stratadiff.Governor

/-- The parts of a parsed URL. -/
structure Url where
  protocol : String
  hostname : String
  pathname : String
  username : String
  password : String
  deriving DecidableEq, Repr

/-- What the platform parses as a URL. -/
abbrev UrlParser := String → Option Url

def maxEvidenceSkew : Time := 5 * 60 * 1000

namespace Coderabbit

def appId : Nat := 347564
def botId : Nat := 136622811
def botLogin : String := "coderabbitai[bot]"
def appUrl : String := "https://github.com/apps/coderabbitai"

end Coderabbit

structure PairDecision where
  state : GateState
  summary : String
  needsDispatch : Bool
  deriving DecidableEq, Repr

def authenticated (record : EvidenceRecord) : Bool :=
  record.facts.author.id == Coderabbit.botId &&
    record.facts.author.login == Coderabbit.botLogin &&
    record.facts.author.kind == "Bot" &&
    record.facts.author.htmlUrl == Coderabbit.appUrl

/-- The newest authenticated record of a kind; of two at one time that with the larger id. -/
def latest (records : List EvidenceRecord) (kind : EvidenceKind) : Option EvidenceRecord :=
  ((records.filter fun record => record.facts.kind == kind && authenticated record).insertionSort
    fun left right => right.sourceUpdatedAt < left.sourceUpdatedAt ∨
      right.sourceUpdatedAt = left.sourceUpdatedAt ∧ right.sourceId ≤ left.sourceId).head?

def coderabbitAvatar (parseUrl : UrlParser) (value : Option String) : Bool :=
  match value.bind parseUrl with
  | none => false
  | some url =>
      url.protocol == "https:" && url.hostname == "avatars.githubusercontent.com" &&
        url.pathname == s!"/in/{Coderabbit.appId}" && url.username == "" && url.password == ""

def decided (state : GateState) (summary : String) : PairDecision := ⟨state, summary, false⟩

/-- The decision from the newest records of the three kinds. -/
def evaluateEvidence (parseUrl : UrlParser) (baseSha headSha : String) (dispatchTime : Time)
    (status review acknowledgement : EvidenceRecord) : PairDecision :=
  match status.facts, review.facts, acknowledgement.facts with
  | .status _ statusState context description avatarUrl statusTime,
    .review _ reviewState commitId reviewTime hasReviewMarker _,
    .issueComment _ acknowledgementCreated acknowledgementUpdated fullReviewFinished
      commandInvocationId _ =>
      if ¬ (dispatchTime < statusTime ∧ dispatchTime < reviewTime ∧
          dispatchTime < acknowledgementCreated) then
        decided .pending "Only evidence strictly newer than this App dispatch can satisfy the gate."
      else if reviewState = "CHANGES_REQUESTED" then
        decided .failure "The newest exact-head CodeRabbit review requested changes."
      else if statusState = "failure" ∨ statusState = "error" then
        decided .failure "The newest CodeRabbit status is negative."
      else
        let statusComplete := statusState = "success" ∧ description = some "Review completed" ∧
          context = "CodeRabbit" ∧ coderabbitAvatar parseUrl avatarUrl
        let reviewComplete := commitId = headSha ∧ hasReviewMarker ∧
          (reviewState = "APPROVED" ∨ reviewState = "COMMENTED")
        let acknowledgementComplete := fullReviewFinished ∧ commandInvocationId.isSome
        let completionTime := max statusTime reviewTime
        let correlated := |statusTime - reviewTime| ≤ maxEvidenceSkew ∧
          acknowledgementCreated ≤ completionTime ∧ completionTime ≤ acknowledgementUpdated ∧
          acknowledgementUpdated - completionTime ≤ maxEvidenceSkew
        if statusComplete ∧ reviewComplete ∧ acknowledgementComplete ∧ correlated then
          decided .success s!"Dedicated-App evidence covers base {baseSha} and head {headSha}."
        else decided .pending "The newest provider evidence is not complete and correlated yet."
  -- The records are of the kinds they were looked up by.
  | _, _, _ =>
      decided .pending
        "Waiting for post-dispatch status, exact-head review, and command acknowledgement."

def evaluatePair (parseUrl : UrlParser) (snapshot : PairSnapshot) (now : Time) : PairDecision :=
  if snapshot.quarantined then
    decided .failure
      "This review epoch is quarantined after an unscoped authenticated webhook."
  else if !snapshot.active || snapshot.state == .closed then
    decided .failure "The pull request became terminal without current final-head evidence."
  else if snapshot.draft then
    decided .pending "Draft pull requests remain fail-closed until they become ready for review."
  else
    match snapshot.dispatch with
    | some { state := .attempting, .. } =>
        decided .pending
          "The command POST outcome is uncertain; waiting for durable comment recovery."
    | some { state := .abandoned, .. } =>
        decided .failure
          "This review epoch was quarantined after malformed signed provider evidence."
    | some { state := .sent, dispatchedAt := some dispatchTime,
             evidenceDeadlineAt := some deadline, .. } =>
        if deadline ≤ now then
          decided .failure "The evidence deadline passed; later evidence cannot reopen this epoch."
        else
          match latest snapshot.evidence .status, latest snapshot.evidence .review,
              latest snapshot.evidence .issueComment with
          | some status, some review, some acknowledgement =>
              if !status.valid || !review.valid || !acknowledgement.valid then
                decided .failure
                  "The newest authenticated provider evidence was revoked or dismissed."
              else
                evaluateEvidence parseUrl snapshot.baseSha snapshot.headSha dispatchTime status
                  review acknowledgement
          | _, _, _ =>
              decided .pending
                "Waiting for post-dispatch status, exact-head review, and command acknowledgement."
    | _ =>
        ⟨.pending, "The dedicated App has not dispatched the final-head review command yet.", true⟩

end Stratadiff.Governor
