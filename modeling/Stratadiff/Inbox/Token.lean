import Stratadiff.Inbox.Event
import Stratadiff.Lib.JsonSize

/-!
# Tokens of inbox events

What an envelope claims is short and needs no escapes, so the token of a valid envelope is
always within its bound. A token is read as the one envelope that it was written for.
-/

namespace Stratadiff.InboxEvent

open Inbox
open Value (jsonBytes)

/-! ## Texts without escapes -/

theorem escapeChar_of_isAlphanum {c : Char} (letter : c.isAlphanum = true) :
    Json.escapeChar c = [c] := by
  apply Json.escapeChar_eq_self
  · rintro rfl
    exact absurd letter (by decide)
  · rintro rfl
    exact absurd letter (by decide)
  · simp only [Char.isAlphanum, Char.isAlpha, Char.isUpper, Char.isLower, Char.isDigit, ge_iff_le,
      Bool.or_eq_true, Bool.and_eq_true, decide_eq_true_eq, UInt32.le_iff_toNat_le] at letter
    obtain (⟨low, _⟩ | ⟨low, _⟩) | ⟨low, _⟩ := letter
    · exact low.trans' (by decide)
    · exact low.trans' (by decide)
    · exact low.trans' (by decide)

/-- Letters and digits, and marks that are written as they are. -/
theorem plain_of_all {text : String} {marks : List Char}
    (written : (marks.all fun c => Json.escapeChar c == [c]) = true)
    (all : (text.toList.all fun c => c.isAlphanum || decide (c ∈ marks)) = true) :
    Json.Plain text := by
  intro c member
  have allowed := List.all_eq_true.mp all c member
  rw [Bool.or_eq_true, decide_eq_true_eq] at allowed
  exact allowed.elim escapeChar_of_isAlphanum fun mark =>
    beq_iff_eq.mp (List.all_eq_true.mp written c mark)

theorem plain_host {host : String} (valid : validateHost host = .ok ()) : Json.Plain host := by
  rw [validateHost, Result.ensure_eq_ok] at valid
  exact plain_of_all (by decide) valid.2.2.2.1

theorem plain_login {login : String} (valid : validateLogin login = .ok ()) :
    Json.Plain login := by
  rw [validateLogin, Result.ensure_eq_ok] at valid
  exact plain_of_all (by decide) valid.2.2.2

theorem plain_nodeId {value : String} (valid : validNodeId value = true) : Json.Plain value := by
  rw [validNodeId, Bool.and_eq_true] at valid
  exact plain_of_all (by decide) valid.2

theorem isAlphanum_of_isLowerHex {c : Char} (hex : isLowerHex c = true) : c.isAlphanum = true := by
  rw [isLowerHex, Bool.or_eq_true] at hex
  rw [Char.isAlphanum, Bool.or_eq_true, Char.isAlpha, Bool.or_eq_true]
  obtain digit | letter := hex
  · exact .inr digit
  · rw [Bool.and_eq_true, decide_eq_true_eq, decide_eq_true_eq] at letter
    have high : c ≤ 'z' := letter.2.trans (by decide)
    rw [Char.isLower, Bool.and_eq_true, decide_eq_true_eq, decide_eq_true_eq]
    exact .inl (.inr ⟨letter.1, high⟩)

theorem plain_of_lowerHex {text : String} (hex : text.toList.all isLowerHex = true) :
    Json.Plain text :=
  fun c member => escapeChar_of_isAlphanum
    (isAlphanum_of_isLowerHex (List.all_eq_true.mp hex c member))

theorem plain_oid {oid : String} (valid : validOid oid = true) : Json.Plain oid := by
  rw [validOid, Bool.and_eq_true] at valid
  exact plain_of_lowerHex valid.2

theorem plain_repository {repository : String} (valid : validateRepository repository = .ok ()) :
    Json.Plain repository ∧ repository.utf8ByteSize ≤ 202 := by
  unfold validateRepository at valid
  split at valid
  · cases valid
  · rename_i owner name split
    rw [Result.ensure_eq_ok] at valid
    simp only [Bool.and_eq_true, decide_eq_true_eq, List.all_eq_true] at valid
    obtain ⟨⟨⟨_, short⟩, ownerBytes⟩, nameBytes⟩ := valid
    have byte {c : Char} (valid : validRepositoryByte c = true) : Json.escapeChar c = [c] := by
      rw [validRepositoryByte, Bool.or_eq_true, decide_eq_true_eq] at valid
      have marks : (['_', '.', '-'].all fun c => Json.escapeChar c == [c]) = true := by decide
      exact valid.elim escapeChar_of_isAlphanum fun mark =>
        beq_iff_eq.mp (List.all_eq_true.mp marks c mark)
    refine ⟨fun c member => ?_, short⟩
    rw [splitOnce_eq_some split, List.mem_append, List.mem_cons] at member
    obtain inOwner | rfl | inName := member
    · exact byte (ownerBytes c inOwner)
    · rfl
    · exact byte (nameBytes c inName)

/-! ## The size of an envelope -/

section

variable {envelope : InboxEventEnvelope} {codec : Codec}

theorem size_text {text : String} {bound : Nat} (plain : Json.Plain text)
    (short : text.utf8ByteSize ≤ bound) : (Json.string text).size ≤ bound + 2 := by
  rw [Json.size_string plain]
  exact Nat.add_le_add_right short 2

theorem size_nodeId {value : String} (valid : validNodeId value = true) :
    (Json.string value).size ≤ 258 := by
  have plain := plain_nodeId valid
  rw [validNodeId, Bool.and_eq_true, decide_eq_true_eq] at valid
  exact size_text plain valid.1.2

theorem size_oid {oid : String} (valid : validOid oid = true) : (Json.string oid).size ≤ 42 := by
  have plain := plain_oid valid
  rw [validOid, Bool.and_eq_true, decide_eq_true_eq] at valid
  exact size_text plain valid.1.le

theorem size_optionalText {value : Option String}
    (valid : ∀ oid, value = some oid → validOid oid = true) :
    (InboxEventEnvelope.optionalText value).size ≤ 42 := by
  cases value with
  | none => exact (by decide : 4 ≤ 42)
  | some oid => exact size_oid (valid oid rfl)

theorem size_number (value : UInt64) : (Json.ofNat value.toNat).size ≤ 20 :=
  Json.size_ofNat_le (by decide) (value.toNat_lt.trans (by decide))

theorem size_triggers {triggers : List InboxEventTrigger} (few : triggers.length ≤ 3) :
    (Json.array (triggers.map fun trigger => .string trigger.name)).size ≤ 70 := by
  have one (trigger : InboxEventTrigger) : (Json.string trigger.name).size ≤ 21 := by
    cases trigger <;> decide
  have total : ((triggers.map fun trigger => Json.string trigger.name).map Json.size).sum ≤
      triggers.length * 21 := by
    rw [List.map_map]
    exact (List.sum_le_card_nsmul _ 21
      (List.forall_mem_map.mpr fun trigger _ => one trigger)).trans_eq
      (by rw [List.length_map, smul_eq_mul])
  rw [Json.size_array, List.length_map]
  omega

theorem length_expectedTriggers (binding : InboxEventBinding) :
    binding.expectedTriggers.length ≤ 3 := by
  unfold InboxEventBinding.expectedTriggers
  split_ifs <;> decide

/-- The keys of an envelope are short. -/
theorem key_short {text : List Char}
    (plain : (text.all fun c => Json.escapeChar c == [c] && c.utf8Size == 1) = true)
    (short : text.length ≤ 21) :
    utf8Length (Json.stringText (String.ofList text)) ≤ 23 := by
  rw [Json.utf8Length_key plain]
  exact Nat.add_le_add_right short 2

theorem keys_short : ∀ field ∈ ("schema", Json.string envelope.schema) ::
    ("event_id", Json.string envelope.eventId) ::
      InboxEventEnvelope.boundMembers envelope.toInboxEventBinding,
    utf8Length (Json.stringText field.1) ≤ 23 := by
  simp only [InboxEventEnvelope.boundMembers, List.forall_mem_cons, List.not_mem_nil,
    false_imp_iff, implies_true, and_true]
  refine ⟨?_, ?_, ?_, ?_, ?_, ?_, ?_, ?_, ?_, ?_, ?_, ?_, ?_, ?_, ?_, ?_, ?_, ?_⟩
  all_goals exact key_short rfl (by decide)

/-- A valid envelope takes less than three kilobytes. -/
theorem size_toJson (claims : Claims envelope) (eventId : validSha256 envelope.eventId = true) :
    envelope.toJson.size ≤ 2800 := by
  have hex := eventId
  rw [validSha256, Bool.and_eq_true, decide_eq_true_eq] at hex
  have host := claims.host
  rw [validateHost, Result.ensure_eq_ok] at host
  have login := claims.login
  rw [validateLogin, Result.ensure_eq_ok] at login
  have schemaSize : (Json.string envelope.schema).size ≤ 36 := by
    rw [claims.schema]
    decide
  have eventIdSize := size_text (plain_of_lowerHex hex.2) hex.1.le
  have hostSize := size_text (plain_host claims.host) host.1.2
  have repositorySize :=
    size_text (plain_repository claims.repository).1 (plain_repository claims.repository).2
  have loginSize := size_text (plain_login claims.login) login.1.2
  have stateSize : (Json.string envelope.reviewState).size ≤ 19 := by
    obtain same | same := List.mem_pair.mp claims.reviewState
    · rw [same]
      decide
    · rw [same]
      decide
  have repositoryNodeId := size_nodeId claims.repositoryNodeId
  have pullRequestNodeId := size_nodeId claims.pullRequestNodeId
  have reviewerNodeId := size_nodeId claims.reviewerNodeId
  have reviewNodeId := size_nodeId claims.reviewNodeId
  have number := size_number envelope.pullRequestNumber
  have databaseId := size_number envelope.reviewDatabaseId
  have checkpoint := size_oid claims.checkpointOid
  have head := size_oid claims.headOid
  have checkpointBase := size_optionalText claims.checkpointBaseOid
  have currentBase := size_optionalText claims.currentBaseOid
  have active := Json.size_bool_le envelope.reviewRequestActive
  have few := length_expectedTriggers envelope.toInboxEventBinding
  rw [← claims.triggers] at few
  have triggers := size_triggers few
  refine (Json.size_object_le_of_keys keys_short).trans ?_
  simp only [InboxEventEnvelope.boundMembers, List.map_cons, List.map_nil, List.sum_cons,
    List.sum_nil, List.length_cons, List.length_nil]
  linarith only [schemaSize, eventIdSize, hostSize, repositorySize, loginSize, stateSize,
    repositoryNodeId, pullRequestNodeId, reviewerNodeId, reviewNodeId, number, databaseId,
    checkpoint, head, checkpointBase, currentBase, active, triggers]

/-! ## Tokens -/

/-- The text of a token, before its size is looked at. -/
def tokenOf (envelope : InboxEventEnvelope) : String :=
  String.ofList (Base64Url.encode (jsonBytes envelope.toJson))

theorem utf8ByteSize_tokenOf :
    (tokenOf envelope).utf8ByteSize = (4 * envelope.toJson.size + 2) / 3 := by
  rw [tokenOf, utf8ByteSize_ofList, utf8Length_eq_length (Base64Url.utf8Size_encode _),
    Base64Url.length_encode, Value.length_jsonBytes]

theorem tokenOf_ne_empty : tokenOf envelope ≠ "" := by
  intro empty
  have text := congrArg String.toList empty
  rw [tokenOf, String.toList_ofList, String.toList_empty] at text
  have length := congrArg List.length text
  rw [Base64Url.length_encode, List.length_nil] at length
  have written := List.length_pos_iff.mpr (Value.jsonBytes_ne_nil envelope.toJson)
  omega

/-- The bound on tokens is never met by a valid envelope. -/
theorem toToken_eq_ok {token : String} :
    envelope.toToken codec = .ok token ↔
      envelope.validate codec = .ok () ∧ token = tokenOf envelope := by
  unfold InboxEventEnvelope.toToken
  rw [Result.check_bind_eq_ok]
  refine and_congr_right fun valid => ?_
  rw [Result.check_bind_eq_ok, Result.ensure_eq_ok, Result.pure_eq_ok, @eq_comm _ _ token]
  refine and_iff_right ?_
  obtain ⟨claims, eventId, _⟩ := validate_eq_ok.mp valid
  have size := size_toJson claims eventId
  show (tokenOf envelope).utf8ByteSize ≤ maxInboxEventTokenBytes
  rw [utf8ByteSize_tokenOf, maxInboxEventTokenBytes]
  omega

/-- A token that is read was written for what is read from it. -/
theorem tokenOf_of_fromToken {token : String}
    (read : InboxEventEnvelope.fromToken codec token = .ok envelope) :
    envelope.validate codec = .ok () ∧ token = tokenOf envelope := by
  unfold InboxEventEnvelope.fromToken at read
  obtain ⟨_, read⟩ := Result.check_bind_eq_ok.mp read
  obtain ⟨_, read⟩ := Result.check_bind_eq_ok.mp read
  obtain ⟨encoded, _, read⟩ := Result.ofOption_bind_eq_ok.mp read
  obtain ⟨canonical, read⟩ := Result.check_bind_eq_ok.mp read
  obtain ⟨parsed, _, read⟩ := Result.bind_eq_ok.mp read
  obtain ⟨written, read⟩ := Result.check_bind_eq_ok.mp read
  obtain ⟨valid, read⟩ := Result.check_bind_eq_ok.mp read
  obtain rfl := Except.ok.inj read
  rw [Result.ensure_eq_ok] at canonical written
  refine ⟨valid, ?_⟩
  rw [tokenOf, written]
  exact canonical.symm

theorem fromToken_tokenOf (lawful : codec.Lawful) (valid : envelope.validate codec = .ok ()) :
    InboxEventEnvelope.fromToken codec (tokenOf envelope) = .ok envelope := by
  obtain ⟨claims, eventId, _⟩ := validate_eq_ok.mp valid
  have size := size_toJson claims eventId
  have short : (tokenOf envelope).utf8ByteSize ≤ maxInboxEventTokenBytes := by
    rw [utf8ByteSize_tokenOf, maxInboxEventTokenBytes]
    omega
  have decoded : Base64Url.decode (tokenOf envelope).toList = some (jsonBytes envelope.toJson) := by
    rw [tokenOf, String.toList_ofList, Base64Url.decode_encode]
  have canonical :
      String.ofList (Base64Url.encode (jsonBytes envelope.toJson)) = tokenOf envelope :=
    rfl
  unfold InboxEventEnvelope.fromToken
  rw [Result.ensure_of tokenOf_ne_empty, Result.ok_bind, Result.ensure_of short, Result.ok_bind,
    decoded, Result.ofOption_some, Result.ok_bind, Result.ensure_of canonical, Result.ok_bind,
    lawful.reads, Except.mapError, Result.ok_bind, Result.ensure_of rfl, Result.ok_bind, valid]
  rfl

/-- Every valid envelope has a token, and a token is read as an envelope exactly when it is the
one that is written for it. -/
theorem tokens_round_trip (lawful : codec.Lawful) :
    (envelope.validate codec = .ok () → ∃ token, envelope.toToken codec = .ok token) ∧
      ∀ token, InboxEventEnvelope.fromToken codec token = .ok envelope ↔
        envelope.toToken codec = .ok token := by
  refine ⟨fun valid => ⟨_, toToken_eq_ok.mpr ⟨valid, rfl⟩⟩, fun token => ?_⟩
  rw [toToken_eq_ok]
  constructor
  · exact tokenOf_of_fromToken
  · rintro ⟨valid, rfl⟩
    exact fromToken_tokenOf lawful valid

end

theorem toJson_injective {left right : InboxEventEnvelope} (same : left.toJson = right.toJson) :
    left = right := by
  have members := Json.object.inj same
  simp only [List.cons.injEq, Prod.mk.injEq, Json.string.injEq, true_and] at members
  obtain ⟨schema, eventId, bound⟩ := members
  have binding := boundMembers_injective bound
  cases left
  cases right
  simp_all

open Classical in
/-- A reader of what `serde_json` writes. -/
noncomputable def Codec.serde (sha256 : Bytes → Bytes) : Codec where
  sha256 := sha256
  fromSlice bytes :=
    if read : ∃ envelope : InboxEventEnvelope, jsonBytes envelope.toJson = bytes then
      .ok read.choose
    else .error "expected value"

theorem lawful_serde (sha256 : Bytes → Bytes) : (Codec.serde sha256).Lawful where
  reads envelope := by
    have read : ∃ other : InboxEventEnvelope, jsonBytes other.toJson = jsonBytes envelope.toJson :=
      ⟨envelope, rfl⟩
    have same := toJson_injective (Value.jsonBytes_injective read.choose_spec)
    rw [Codec.serde]
    dsimp only
    rw [dif_pos read, same]

theorem sha256_serde (sha256 : Bytes → Bytes) : (Codec.serde sha256).sha256 = sha256 := by
  rw [Codec.serde]

/-- SHA-256 of what the sample is bound to. -/
def sampleSha256 : Bytes → Bytes :=
  Ledger.Sample.entry
    [(3246093153, "6242f901b8645ce859beb35997d157a8db51eb41ab0242e761d5bb88c06f7a17")] 32

/-- An event of a moved head. -/
def sampleEvent : InboxEventEnvelope where
  schema := inboxEventSchema
  eventId := "6242f901b8645ce859beb35997d157a8db51eb41ab0242e761d5bb88c06f7a17"
  providerHost := "h"
  repository := "o/r"
  repositoryNodeId := "N1"
  pullRequestNumber := 1
  pullRequestNodeId := "P1"
  reviewerLogin := "ann"
  reviewerNodeId := "U1"
  reviewDatabaseId := 7
  reviewState := "approved"
  reviewNodeId := "R7"
  checkpointOid := "1111111111111111111111111111111111111111"
  checkpointBaseOid := none
  currentBaseOid := none
  headOid := "2222222222222222222222222222222222222222"
  reviewRequestActive := false
  triggers := [.headChanged]

theorem tokens_round_trip_sample :
    ∃ token, sampleEvent.toToken (.serde sampleSha256) = .ok token ∧
      InboxEventEnvelope.fromToken (.serde sampleSha256) token = .ok sampleEvent := by
  have claims : Claims sampleEvent := by
    refine validateClaims_eq_ok.mp ?_
    decide +kernel
  have valid : sampleEvent.validate (.serde sampleSha256) = .ok () := by
    refine validate_eq_ok.mpr ⟨claims, ?_⟩
    rw [sha256_serde]
    decide +kernel
  obtain ⟨⟨token, written⟩, reads⟩ := (tokens_round_trip (lawful_serde _)).imp_left (· valid)
  exact ⟨token, written, (reads token).mpr written⟩

end Stratadiff.InboxEvent
