import Stratadiff.Inbox.Decision
import Stratadiff.Lib.Base64Url
import Stratadiff.Value.Append

/-!
# Events of the review inbox

`inbox_event.rs`: what makes a review actionable is bound in an envelope, named by a digest
of its fields, and handed on as a token, the base-64 text of its JSON. SHA-256 and the
reader of `serde_json` are parameters; what `serde_json` writes is written out.
-/

namespace Stratadiff.InboxEvent

open Inbox
open Value (jsonBytes jsonBytes_injective)

def inboxEventSchema : String := "stratadiff-review-inbox-event-v3"
def maxInboxEventTokenBytes : Nat := 4096
def eventIdDomain : String := "stratadiff-review-inbox-event-v3"

inductive InboxEventTrigger where
  | headChanged
  | baseDrift
  | reviewReRequested
  deriving DecidableEq, Repr

def InboxEventTrigger.name : InboxEventTrigger → String
  | .headChanged => "head_changed"
  | .baseDrift => "base_drift"
  | .reviewReRequested => "review_re_requested"

structure InboxEventBinding where
  providerHost : String
  repository : String
  repositoryNodeId : String
  pullRequestNumber : UInt64
  pullRequestNodeId : String
  reviewerLogin : String
  reviewerNodeId : String
  reviewDatabaseId : UInt64
  reviewState : String
  reviewNodeId : String
  checkpointOid : String
  checkpointBaseOid : Option String
  currentBaseOid : Option String
  headOid : String
  reviewRequestActive : Bool
  triggers : List InboxEventTrigger
  deriving DecidableEq, Repr

/-- The fields of an envelope besides its schema and its id are those of its binding. -/
structure InboxEventEnvelope extends InboxEventBinding where
  schema : String
  eventId : String
  deriving DecidableEq, Repr

/-! ## Checks -/

def validateHost (host : String) : Result Unit :=
  let text := host.toList
  Result.ensure
    ((1 ≤ host.utf8ByteSize ∧ host.utf8ByteSize ≤ 253) ∧ text.head?.any Char.isAlphanum ∧
      text.getLast?.any Char.isAlphanum ∧ (text.all fun c => c.isAlphanum || c ∈ ['.', '-']) ∧
      host = Ledger.toAsciiLowercase host)
    (.invalid "provider host is not canonical")

def validateRepository (repository : String) : Result Unit :=
  match splitOnce '/' repository.toList with
  | none => .error (.invalid "repository must be OWNER/REPO")
  | some (owner, name) =>
      Result.ensure
        (!owner.isEmpty && !name.isEmpty && !name.contains '/' && repository.utf8ByteSize ≤ 202 &&
          owner.all validRepositoryByte && name.all validRepositoryByte)
        (.invalid "repository must be a canonical OWNER/REPO name")

def validateLogin (login : String) : Result Unit :=
  let text := login.toList
  Result.ensure
    ((1 ≤ login.utf8ByteSize ∧ login.utf8ByteSize ≤ 255) ∧ text.head?.any Char.isAlphanum ∧
      text.getLast?.any Char.isAlphanum ∧ text.all fun c => c.isAlphanum || c ∈ ['_', '.', '-'])
    (.invalid "reviewer login is invalid")

def validNodeId (value : String) : Bool :=
  decide (1 ≤ value.utf8ByteSize ∧ value.utf8ByteSize ≤ 256) &&
    value.toList.all fun c => c.isAlphanum || c ∈ ['_', ':', '+', '/', '=', '-']

def validateNodeId (value label : String) : Result Unit :=
  Result.ensure (validNodeId value) (.invalid (label ++ " is invalid"))

def validateOid (value label : String) : Result Unit :=
  Result.ensure (validOid value) (.invalid (label ++ " must be a full lowercase SHA-1"))

def validSha256 (value : String) : Bool := value.utf8ByteSize = 64 && value.toList.all isLowerHex

def validateOptionalOid (value : Option String) (label : String) : Result Unit :=
  match value with
  | some value => validateOid value label
  | none => pure ()

namespace InboxEventBinding

def headChanged (binding : InboxEventBinding) : Bool := binding.checkpointOid != binding.headOid

/-- The triggers that the bound facts call for, in their order. -/
def expectedTriggers (binding : InboxEventBinding) : List InboxEventTrigger :=
  (if binding.headChanged then [.headChanged] else []) ++
    (if baseChanged binding.checkpointBaseOid binding.currentBaseOid then [.baseDrift] else []) ++
      if binding.reviewRequestActive then [.reviewReRequested] else []

end InboxEventBinding

namespace InboxEventEnvelope

def validateTriggers (envelope : InboxEventEnvelope) : Result Unit := do
  if !envelope.headChanged then
    Result.ensure envelope.checkpointBaseOid.isSome
      (.invalid "an unchanged head requires a checkpoint base OID")
    Result.ensure envelope.currentBaseOid.isSome
      (.invalid "an unchanged head requires a current base OID")
  Result.ensure (envelope.expectedTriggers ≠ [])
    (.invalid "Inbox event is not actionable because it has no trigger")
  Result.ensure (envelope.triggers = envelope.expectedTriggers)
    (.invalid "Inbox event triggers do not match the bound facts or canonical order")

def validateClaims (envelope : InboxEventEnvelope) : Result Unit := do
  Result.ensure (envelope.schema = inboxEventSchema)
    (.invalid s!"Inbox event schema must be {inboxEventSchema}")
  validateHost envelope.providerHost
  validateRepository envelope.repository
  validateNodeId envelope.repositoryNodeId "repository node ID"
  Result.ensure (0 < envelope.pullRequestNumber) (.invalid "pull request number must be positive")
  validateNodeId envelope.pullRequestNodeId "pull request node ID"
  validateLogin envelope.reviewerLogin
  validateNodeId envelope.reviewerNodeId "reviewer node ID"
  Result.ensure (0 < envelope.reviewDatabaseId) (.invalid "review database ID must be positive")
  Result.ensure (envelope.reviewState ∈ ["approved", "changes_requested"])
    (.invalid "review state must be approved or changes_requested")
  validateNodeId envelope.reviewNodeId "review node ID"
  validateOid envelope.checkpointOid "checkpoint OID"
  validateOptionalOid envelope.checkpointBaseOid "checkpoint base OID"
  validateOptionalOid envelope.currentBaseOid "current base OID"
  validateOid envelope.headOid "head OID"
  envelope.validateTriggers

/-! ## Identity -/

def optionalText : Option String → Json
  | some text => .string text
  | none => .null

/-- The members that an envelope and the input of its id share. -/
def boundMembers (binding : InboxEventBinding) : List (String × Json) :=
  [("provider_host", .string binding.providerHost),
    ("repository", .string binding.repository),
    ("repository_node_id", .string binding.repositoryNodeId),
    ("pull_request_number", .ofNat binding.pullRequestNumber.toNat),
    ("pull_request_node_id", .string binding.pullRequestNodeId),
    ("reviewer_login", .string binding.reviewerLogin),
    ("reviewer_node_id", .string binding.reviewerNodeId),
    ("review_database_id", .ofNat binding.reviewDatabaseId.toNat),
    ("review_state", .string binding.reviewState),
    ("review_node_id", .string binding.reviewNodeId),
    ("checkpoint_oid", .string binding.checkpointOid),
    ("checkpoint_base_oid", optionalText binding.checkpointBaseOid),
    ("current_base_oid", optionalText binding.currentBaseOid),
    ("head_oid", .string binding.headOid),
    ("review_request_active", .bool binding.reviewRequestActive),
    ("triggers", .array (binding.triggers.map fun trigger => .string trigger.name))]

/-- The envelope as `serde_json` writes it, field by field. -/
def toJson (envelope : InboxEventEnvelope) : Json :=
  .object (("schema", .string envelope.schema) :: ("event_id", .string envelope.eventId) ::
    boundMembers envelope.toInboxEventBinding)

def eventIdInput (envelope : InboxEventEnvelope) : Json :=
  .object (("schema", .string envelope.schema) :: boundMembers envelope.toInboxEventBinding)

/-- What the id is the digest of. -/
def eventIdMessage (envelope : InboxEventEnvelope) : Bytes :=
  utf8Bytes eventIdDomain ++ [0] ++ jsonBytes envelope.eventIdInput

end InboxEventEnvelope

/-- SHA-256, and the reader of `serde_json` for envelopes. -/
structure Codec where
  sha256 : Bytes → Bytes
  fromSlice : Bytes → Except String InboxEventEnvelope

/-- The reader reads what the writer writes. -/
structure Codec.Lawful (codec : Codec) : Prop where
  reads : ∀ envelope, codec.fromSlice (jsonBytes envelope.toJson) = .ok envelope

namespace InboxEventEnvelope

variable (codec : Codec)

def computeEventId (envelope : InboxEventEnvelope) : Result String := do
  envelope.validateClaims
  return encodeHex (codec.sha256 envelope.eventIdMessage)

def validate (envelope : InboxEventEnvelope) : Result Unit := do
  envelope.validateClaims
  Result.ensure (validSha256 envelope.eventId)
    (.invalid "Inbox event ID must be 64 lowercase hexadecimal characters")
  let eventId ← envelope.computeEventId codec
  Result.ensure (envelope.eventId = eventId)
    (.invalid "Inbox event ID does not match its immutable binding")

def new (binding : InboxEventBinding) : Result InboxEventEnvelope := do
  let envelope : InboxEventEnvelope :=
    { toInboxEventBinding := binding, schema := inboxEventSchema, eventId := "" }
  envelope.validateClaims
  let eventId ← envelope.computeEventId codec
  return { envelope with eventId := eventId }

/-! ## Tokens -/

def toToken (envelope : InboxEventEnvelope) : Result String := do
  envelope.validate codec
  let token := String.ofList (Base64Url.encode (jsonBytes envelope.toJson))
  Result.ensure (token.utf8ByteSize ≤ maxInboxEventTokenBytes)
    (.invalid s!"Inbox event token exceeds {maxInboxEventTokenBytes} bytes")
  return token

def fromToken (token : String) : Result InboxEventEnvelope := do
  Result.ensure (token ≠ "") (.invalid "Inbox event token is empty")
  Result.ensure (token.utf8ByteSize ≤ maxInboxEventTokenBytes)
    (.invalid s!"Inbox event token exceeds {maxInboxEventTokenBytes} bytes")
  let encoded ← Result.ofOption
    (.invalid "Inbox event token is not canonical base64url without padding")
    (Base64Url.decode token.toList)
  Result.ensure (String.ofList (Base64Url.encode encoded) = token)
    (.invalid "Inbox event token is not canonical base64url without padding")
  let envelope ← (codec.fromSlice encoded).mapError fun error =>
    .invalid ("Inbox event token is not a valid envelope: " ++ error)
  Result.ensure (jsonBytes envelope.toJson = encoded)
    (.invalid "Inbox event token JSON is not canonical")
  envelope.validate codec
  return envelope

end InboxEventEnvelope

/-! ## Binding a decision -/

def eventTriggers (trigger : String) : Result (List InboxEventTrigger) :=
  match trigger with
  | "head_changed" => .ok [.headChanged]
  | "base_drift" => .ok [.baseDrift]
  | "review_re_requested" => .ok [.reviewReRequested]
  | "head_changed+base_drift" => .ok [.headChanged, .baseDrift]
  | "head_changed+review_re_requested" => .ok [.headChanged, .reviewReRequested]
  | "base_drift+review_re_requested" => .ok [.baseDrift, .reviewReRequested]
  | "head_changed+base_drift+review_re_requested" =>
      .ok [.headChanged, .baseDrift, .reviewReRequested]
  | _ => .error (.invalid "shared Inbox decision returned an invalid actionable trigger")

/-- Every trigger text that a decision writes is read as the triggers it was written for. -/
theorem eventTriggers_intercalate (head base active : Bool)
    (some : (head || base || active) = true) :
    eventTriggers ("+".intercalate (triggerNames head base active)) =
      .ok ((if head then [.headChanged] else []) ++ (if base then [.baseDrift] else []) ++
        if active then [.reviewReRequested] else []) := by
  cases head <;> cases base <;> cases active <;> first | rfl | cases some

/-! ## What is checked -/

section

variable {envelope : InboxEventEnvelope} {codec : Codec}

/-- What an envelope claims, when its checks pass. -/
structure Claims (envelope : InboxEventEnvelope) : Prop where
  schema : envelope.schema = inboxEventSchema
  host : validateHost envelope.providerHost = .ok ()
  repository : validateRepository envelope.repository = .ok ()
  repositoryNodeId : validNodeId envelope.repositoryNodeId = true
  pullRequestNumber : 0 < envelope.pullRequestNumber
  pullRequestNodeId : validNodeId envelope.pullRequestNodeId = true
  login : validateLogin envelope.reviewerLogin = .ok ()
  reviewerNodeId : validNodeId envelope.reviewerNodeId = true
  reviewDatabaseId : 0 < envelope.reviewDatabaseId
  reviewState : envelope.reviewState ∈ ["approved", "changes_requested"]
  reviewNodeId : validNodeId envelope.reviewNodeId = true
  checkpointOid : validOid envelope.checkpointOid = true
  checkpointBaseOid : ∀ oid, envelope.checkpointBaseOid = some oid → validOid oid = true
  currentBaseOid : ∀ oid, envelope.currentBaseOid = some oid → validOid oid = true
  headOid : validOid envelope.headOid = true
  bases : envelope.headChanged = false →
    envelope.checkpointBaseOid.isSome ∧ envelope.currentBaseOid.isSome
  actionable : envelope.expectedTriggers ≠ []
  triggers : envelope.triggers = envelope.expectedTriggers

theorem validateOptionalOid_eq_ok {value : Option String} {label : String} :
    validateOptionalOid value label = .ok () ↔ ∀ oid, value = some oid → validOid oid = true := by
  cases value with
  | none => simp [validateOptionalOid, pure, Except.pure]
  | some oid => simp [validateOptionalOid, validateOid]

theorem validateTriggers_eq_ok :
    envelope.validateTriggers = .ok () ↔
      (envelope.headChanged = false →
        envelope.checkpointBaseOid.isSome ∧ envelope.currentBaseOid.isSome) ∧
      envelope.expectedTriggers ≠ [] ∧ envelope.triggers = envelope.expectedTriggers := by
  unfold InboxEventEnvelope.validateTriggers
  cases envelope.headChanged <;> simp [Result.check_bind_eq_ok, and_assoc]

theorem validateClaims_eq_ok : envelope.validateClaims = .ok () ↔ Claims envelope := by
  unfold InboxEventEnvelope.validateClaims
  simp only [Result.check_bind_eq_ok, Result.ensure_eq_ok, validateNodeId, validateOid,
    validateOptionalOid_eq_ok, validateTriggers_eq_ok]
  constructor
  · rintro ⟨h1, h2, h3, h4, h5, h6, h7, h8, h9, h10, h11, h12, h13, h14, h15, h16, h17, h18⟩
    exact ⟨h1, h2, h3, h4, h5, h6, h7, h8, h9, h10, h11, h12, h13, h14, h15, h16, h17, h18⟩
  · rintro ⟨h1, h2, h3, h4, h5, h6, h7, h8, h9, h10, h11, h12, h13, h14, h15, h16, h17, h18⟩
    exact ⟨h1, h2, h3, h4, h5, h6, h7, h8, h9, h10, h11, h12, h13, h14, h15, h16, h17, h18⟩

theorem computeEventId_eq_ok {eventId : String} :
    envelope.computeEventId codec = .ok eventId ↔
      Claims envelope ∧ eventId = encodeHex (codec.sha256 envelope.eventIdMessage) := by
  unfold InboxEventEnvelope.computeEventId
  rw [Result.check_bind_eq_ok, validateClaims_eq_ok, Result.pure_eq_ok, @eq_comm _ _ eventId]

theorem validate_eq_ok :
    envelope.validate codec = .ok () ↔
      Claims envelope ∧ validSha256 envelope.eventId = true ∧
      envelope.eventId = encodeHex (codec.sha256 envelope.eventIdMessage) := by
  unfold InboxEventEnvelope.validate
  rw [Result.check_bind_eq_ok, validateClaims_eq_ok, Result.check_bind_eq_ok, Result.ensure_eq_ok]
  refine and_congr_right fun claims => and_congr_right fun _ => ?_
  rw [Result.bind_eq_ok]
  simp only [computeEventId_eq_ok, Result.ensure_eq_ok]
  constructor
  · rintro ⟨_, ⟨_, rfl⟩, same⟩
    exact same
  · exact fun same => ⟨_, ⟨claims, rfl⟩, same⟩

theorem new_eq_ok {binding : InboxEventBinding} :
    InboxEventEnvelope.new codec binding = .ok envelope ↔
      Claims { toInboxEventBinding := binding, schema := inboxEventSchema, eventId := "" } ∧
      envelope = {
        toInboxEventBinding := binding
        schema := inboxEventSchema
        eventId := encodeHex (codec.sha256 (InboxEventEnvelope.eventIdMessage
          { toInboxEventBinding := binding, schema := inboxEventSchema, eventId := "" })) } := by
  unfold InboxEventEnvelope.new
  dsimp only
  rw [Result.check_bind_eq_ok, validateClaims_eq_ok]
  refine and_congr_right fun claims => ?_
  rw [Result.bind_eq_ok]
  simp only [computeEventId_eq_ok, Result.pure_eq_ok]
  constructor
  · rintro ⟨_, ⟨_, rfl⟩, rfl⟩
    rfl
  · rintro rfl
    exact ⟨_, ⟨claims, rfl⟩, rfl⟩

/-! ## One id for each binding -/

theorem encodeHex_injective {left right : Bytes} (same : encodeHex left = encodeHex right) :
    left = right := by
  have digits := congrArg utf8Bytes same
  rw [Ledger.utf8Bytes_encodeHex, Ledger.utf8Bytes_encodeHex] at digits
  have read := Ledger.decodeLowerHexPairs_hexDigits left
  rw [digits, Ledger.decodeLowerHexPairs_hexDigits] at read
  exact (Except.ok.inj read).symm

theorem optionalText_injective {left right : Option String}
    (same : InboxEventEnvelope.optionalText left = InboxEventEnvelope.optionalText right) :
    left = right := by
  cases left <;> cases right <;> simp_all [InboxEventEnvelope.optionalText]

theorem name_injective : Function.Injective InboxEventTrigger.name := by
  intro left right same
  cases left <;> cases right <;> simp_all [InboxEventTrigger.name]

theorem boundMembers_injective {left right : InboxEventBinding}
    (same : InboxEventEnvelope.boundMembers left = InboxEventEnvelope.boundMembers right) :
    left = right := by
  obtain ⟨host, repository, repositoryNode, number, pullRequestNode, login, reviewerNode,
    databaseId, state, reviewNode, checkpoint, checkpointBase, currentBase, head, active,
      triggers⟩ := left
  obtain ⟨host', repository', repositoryNode', number', pullRequestNode', login', reviewerNode',
    databaseId', state', reviewNode', checkpoint', checkpointBase', currentBase', head', active',
    triggers'⟩ := right
  simp only [InboxEventEnvelope.boundMembers, Json.ofNat, List.cons.injEq, Prod.mk.injEq,
    Json.string.injEq, Json.number.injEq, JsonNumber.unsigned.injEq, Json.bool.injEq,
    Json.array.injEq, true_and, and_true] at same
  obtain ⟨rfl, rfl, rfl, numbers, rfl, rfl, rfl, ids, rfl, rfl, rfl, bases, bases', rfl, rfl,
    names⟩ :=
    same
  obtain rfl := optionalText_injective bases
  obtain rfl := optionalText_injective bases'
  obtain rfl := UInt64.toNat_inj.mp numbers
  obtain rfl := UInt64.toNat_inj.mp ids
  have same : triggers = triggers' :=
    List.map_injective_iff.mpr (fun a b h => name_injective (Json.string.inj h)) names
  rw [same]

theorem eventIdMessage_injective {left right : InboxEventEnvelope}
    (same : left.eventIdMessage = right.eventIdMessage) :
    left.toInboxEventBinding = right.toInboxEventBinding := by
  have input := jsonBytes_injective (List.append_cancel_left same)
  have members := Json.object.inj input
  exact boundMembers_injective (List.cons.inj members).2

/-- Of valid envelopes the id is the same exactly when all the bound fields are. -/
theorem eventId_eq_iff {left right : InboxEventEnvelope} (valid : left.validate codec = .ok ())
    (valid' : right.validate codec = .ok ())
    (collisionFree : codec.sha256 left.eventIdMessage = codec.sha256 right.eventIdMessage →
      left.eventIdMessage = right.eventIdMessage) :
    left.eventId = right.eventId ↔ left.toInboxEventBinding = right.toInboxEventBinding := by
  obtain ⟨claims, _, id⟩ := validate_eq_ok.mp valid
  obtain ⟨claims', _, id'⟩ := validate_eq_ok.mp valid'
  constructor
  · intro same
    rw [id, id'] at same
    exact eventIdMessage_injective (collisionFree (encodeHex_injective same))
  · intro same
    have messages : left.eventIdMessage = right.eventIdMessage := by
      unfold InboxEventEnvelope.eventIdMessage InboxEventEnvelope.eventIdInput
      rw [same, claims.schema, claims'.schema]
    rw [id, id', messages]

end

end Stratadiff.InboxEvent
