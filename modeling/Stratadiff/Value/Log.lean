import Stratadiff.Cache.Model
import Stratadiff.Value.Model

/-!
# Reading and extending the value log

A log is a sequence of lines, one stored event each, and a batch of requested events
extends it by the events it does not have yet. `serde_json` and SHA-256 are outside.

A log only ever grows at its end, so a recorded event stays where it is.
-/

namespace Stratadiff.Value

/-- What the log takes from outside. -/
structure Codec where
  /-- `serde_json::to_vec` of a stored event. -/
  toVec : StoredEvent → Bytes
  /-- `serde_json::to_vec` of an unsigned event. -/
  unsignedToVec : UnsignedEvent → Bytes
  /-- `serde_json::from_slice`. -/
  fromSlice : Bytes → Except String StoredEvent
  /-- The 32 bytes of a SHA-256 digest. -/
  sha256 : Bytes → Bytes

variable (codec : Codec)

def sha256Hex (bytes : Bytes) : String := encodeHex (codec.sha256 bytes)

/-- The id of an event, from its kind and its business key. -/
def eventId (event : FunnelEvent) : String :=
  sha256Hex codec (utf8Bytes (event.kind ++ "\x00" ++ event.businessKey))

structure VerifiedLog where
  events : List StoredEvent
  chainTip : String
  validation : FunnelValidationState
  deriving DecidableEq, Repr

def VerifiedLog.empty : VerifiedLog := ⟨[], zeroSha256, .default⟩

/-! ## Reading -/

def validateEvent (event : StoredEvent) (expectedIndex : Nat) (previous : String) :
    Result Unit := do
  Result.ensure (event.schema = eventSchema) (.invalid "unsupported value event schema")
  Result.ensure (isSemver event.toolVersion = true) (.invalid "value event tool version is invalid")
  Result.ensure (event.sequence = expectedIndex)
    (.invalid "value event sequence is not contiguous")
  Result.ensure (0 < event.observedAtUnixSeconds) (.invalid "value event timestamp is invalid")
  requireSha256 event.eventId "event ID"
  requireSha256 event.previousEventSha256 "previous event digest"
  requireSha256 event.eventSha256 "event digest"
  Result.ensure (event.previousEventSha256 = previous)
    (.invalid ("value event hash chain is broken at sequence " ++ toString event.sequence))
  validatePayload event.event
  Result.ensure (event.eventSha256 =
      sha256Hex codec (codec.unsignedToVec event.toUnsignedEvent))
    (.invalid ("value event digest mismatch at sequence " ++ toString event.sequence))
  Result.ensure (event.eventId = eventId codec event.event)
    (.invalid ("value event ID mismatch at sequence " ++ toString event.sequence))

/-- One line of a log, after the lines before it. -/
def verifyLine (log : VerifiedLog) (line : Bytes) : Result VerifiedLog := do
  let index := log.events.length
  Result.ensure (line ≠ []) (.invalid "value log contains an empty event line")
  Result.ensure (index < maxEvents) (.limit "value log exceeds its 100000-event limit")
  let event ← (codec.fromSlice line).mapError fun message =>
    .invalid ("failed to decode value event " ++ toString (index + 1) ++ ": " ++ message)
  validateEvent codec event (index + 1) log.chainTip
  Result.ensure (codec.toVec event = line)
    (.invalid ("value event " ++ toString (index + 1) ++ " is not canonical JSON"))
  Result.ensure (event.eventId ∉ log.events.map (·.eventId))
    (.invalid "value log contains a duplicate event ID")
  let validation ← log.validation.apply event.event
  return ⟨log.events ++ [event], event.eventSha256, validation⟩

def newline : UInt8 := 10

def verifyLogBytes (bytes : Bytes) : Result VerifiedLog :=
  if bytes = [] then .ok .empty
  else do
    Result.ensure (bytes.getLast? = some newline) (.invalid "value log ends with a partial event")
    (bytes.dropLast.splitOn newline).foldlM (verifyLine codec) .empty

/-- What `take` and `read_to_end` give of a file. -/
def readable (content : Bytes) : Bytes := content.take (maxLogBytes + 1)

def readLocked (bytes : Bytes) : Result VerifiedLog := do
  Result.ensure (bytes.length ≤ maxLogBytes) (.limit "value log exceeds its 16777216-byte limit")
  verifyLogBytes codec bytes

/-! ## Appending -/

/-- The variables of the loop over the requested events. -/
structure Batch where
  log : VerifiedLog
  byId : List (String × FunnelEvent)
  encoded : Bytes

/-- `by_id`, from the events of a log. -/
def indexEvents (events : List StoredEvent) : Result (List (String × FunnelEvent)) :=
  events.foldlM (fun byId event => do
    Result.ensure (byId.lookup event.eventId = none)
      (.invalid "value log contains a duplicate event ID")
    return (event.eventId, event.event) :: byId) []

/-- The stored event that continues a log. -/
def nextEvent (log : VerifiedLog) (event : FunnelEvent) (now : Nat) : StoredEvent :=
  let unsigned : UnsignedEvent :=
    ⟨eventSchema, packageVersion, log.events.length + 1, now, eventId codec event, log.chainTip,
      event⟩
  ⟨unsigned, sha256Hex codec (codec.unsignedToVec unsigned)⟩

/-- One requested event, when the clock shows `now`. -/
def appendEvent (now : Nat) (event : FunnelEvent) (batch : Batch) : Result Batch := do
  validatePayload event
  let id := eventId codec event
  match batch.byId.lookup id with
  | some existing =>
      Result.ensure (existing = event)
        (.invalid ("value log contains a conflicting retry for " ++ event.kind))
      return batch
  | none =>
      let stored := nextEvent codec batch.log event now
      let validation ← batch.log.validation.apply event
      let events := batch.log.events ++ [stored]
      Result.ensure (events.length ≤ maxEvents) (.limit "value log exceeds its 100000-event limit")
      return ⟨⟨events, stored.eventSha256, validation⟩, (id, event) :: batch.byId,
        batch.encoded ++ codec.toVec stored ++ [newline]⟩

/-- The loop; the clock is read once for each event. -/
def appendAll (clock : Nat → Nat) : Nat → List FunnelEvent → Batch → Result Batch
  | _, [], batch => .ok batch
  | index, event :: requested, batch => do
      appendAll clock (index + 1) requested (← appendEvent codec (clock index) event batch)

/-- `append_events_locked` up to the replacement of the log: the new content, or nothing
when there is nothing new. -/
def appendBatch (clock : Nat → Nat) (bytes : Bytes) (requested : List FunnelEvent) :
    Result (Option Bytes) := do
  Result.ensure (bytes.length ≤ maxLogBytes) (.limit "value log exceeds its 16777216-byte limit")
  let verified ← verifyLogBytes codec bytes
  let byId ← indexEvents verified.events
  let batch ← appendAll codec clock 0 requested ⟨verified, byId, []⟩
  if batch.encoded = [] then return none
  else
    let newSize ← Result.ofOption (.limit "value log byte count overflow")
      (checkedAdd bytes.length batch.encoded.length)
    Result.ensure (newSize ≤ maxLogBytes)
      (.limit "value log exceeds its 16777216-byte limit")
    return some (bytes ++ batch.encoded)

/-! ## What a log records -/

/-- A content that ends where a line ends. -/
def Whole (content : Bytes) : Prop := content = [] ∨ content.getLast? = some newline

/-- An event has a line of its own in a content. -/
def Recorded (event : FunnelEvent) (content : Bytes) : Prop :=
  ∃ (before after : Bytes) (stored : StoredEvent), stored.event = event ∧ Whole before ∧
    content = before ++ codec.toVec stored ++ newline :: after

variable {codec}

theorem Whole.line (content : Bytes) : Whole (content ++ [newline]) := by
  right
  simp

/-- What is appended later leaves the recorded events where they are. -/
theorem Recorded.append {event : FunnelEvent} {content : Bytes}
    (recorded : Recorded codec event content) (more : Bytes) :
    Recorded codec event (content ++ more) := by
  obtain ⟨before, after, stored, same, whole, rfl⟩ := recorded
  exact ⟨before, after ++ more, stored, same, whole, by simp⟩

/-- A line of a text, at its place. -/
theorem line_of_mem_splitOn {lines : List Bytes} {line : Bytes} (member : line ∈ lines) :
    ∃ before after, Whole before ∧
      [newline].intercalate lines ++ [newline] = before ++ line ++ newline :: after := by
  induction lines with
  | nil => cases member
  | cons first rest ih =>
      cases rest with
      | nil =>
          obtain rfl := List.mem_singleton.mp member
          exact ⟨[], [], .inl rfl, by simp [List.intercalate]⟩
      | cons second rest =>
          have unfolded : [newline].intercalate (first :: second :: rest) =
              first ++ [newline] ++ [newline].intercalate (second :: rest) := by
            simp [List.intercalate, List.intersperse]
          rw [unfolded]
          cases member with
          | head =>
              exact ⟨[], [newline].intercalate (second :: rest) ++ [newline], .inl rfl, by simp⟩
          | tail _ member =>
              obtain ⟨before, after, whole, split⟩ := ih member
              refine ⟨first ++ [newline] ++ before, after, ?_, ?_⟩
              · cases whole with
                | inl empty =>
                    rw [empty, List.append_nil]
                    exact .line first
                | inr last =>
                    right
                    rw [List.getLast?_append, last]
                    rfl
              · rw [List.append_assoc (first ++ [newline]), split]
                simp

/-- A line that was verified is a line of its event. -/
theorem verifyLine_spec {log log' : VerifiedLog} {line : Bytes}
    (h : verifyLine codec log line = .ok log') :
    ∃ stored, log'.events = log.events ++ [stored] ∧ codec.toVec stored = line := by
  simp only [verifyLine, Result.bind_eq_ok, Result.pure_eq_ok] at h
  obtain ⟨⟨⟩, _, ⟨⟩, _, stored, _, ⟨⟩, _, ⟨⟩, canonical, ⟨⟩, _, validation, _, rfl⟩ := h
  exact ⟨stored, rfl, Result.ensure_eq_ok.mp canonical⟩

theorem verifyLines_spec {lines : List Bytes} {log log' : VerifiedLog}
    (h : lines.foldlM (verifyLine codec) log = .ok log') :
    ∀ stored ∈ log'.events, stored ∈ log.events ∨ codec.toVec stored ∈ lines := by
  induction lines generalizing log with
  | nil =>
      rw [List.foldlM_nil, Result.pure_eq_ok] at h
      intro stored member
      exact .inl (h ▸ member)
  | cons line lines ih =>
      rw [List.foldlM_cons] at h
      obtain ⟨next, verified, rest⟩ := Result.bind_eq_ok.mp h
      obtain ⟨here, events, canonical⟩ := verifyLine_spec verified
      intro stored member
      obtain earlier | later := ih rest stored member
      · rw [events, List.mem_append, List.mem_singleton] at earlier
        obtain earlier | rfl := earlier
        · exact .inl earlier
        · exact .inr (canonical ▸ List.mem_cons_self)
      · exact .inr (List.mem_cons_of_mem _ later)

/-- The events of a verified log are recorded in it, and its last line is whole. -/
theorem verifyLogBytes_spec {bytes : Bytes} {log : VerifiedLog}
    (h : verifyLogBytes codec bytes = .ok log) :
    Whole bytes ∧ ∀ stored ∈ log.events, Recorded codec stored.event bytes := by
  rw [verifyLogBytes] at h
  split at h
  · rename_i empty
    obtain rfl := Except.ok.inj h
    exact ⟨.inl empty, fun stored member => absurd member List.not_mem_nil⟩
  · obtain ⟨last, lines⟩ := Result.check_bind_eq_ok.mp h
    rw [Result.ensure_eq_ok] at last
    have split : bytes.dropLast ++ [newline] = bytes := List.dropLast_append_getLast? _ last
    refine ⟨.inr last, ?_⟩
    intro stored member
    obtain none | line := verifyLines_spec lines stored member
    · exact absurd none List.not_mem_nil
    · obtain ⟨before, after, whole, place⟩ := line_of_mem_splitOn line
      rw [List.intercalate_splitOn, split] at place
      exact ⟨before, after, stored, rfl, whole, place⟩

theorem indexEvents_spec {events : List StoredEvent} {byId : List (String × FunnelEvent)}
    (h : indexEvents events = .ok byId) :
    ∀ entry ∈ byId, ∃ stored ∈ events, stored.event = entry.2 := by
  suffices general : ∀ (events : List StoredEvent) (start : List (String × FunnelEvent)),
      events.foldlM (fun byId event => do
        Result.ensure (byId.lookup event.eventId = none)
          (.invalid "value log contains a duplicate event ID")
        return (event.eventId, event.event) :: byId) start = .ok byId →
      ∀ entry ∈ byId, entry ∈ start ∨ ∃ stored ∈ events, stored.event = entry.2 by
    intro entry member
    exact (general events [] h entry member).resolve_left List.not_mem_nil
  intro events
  induction events with
  | nil =>
      intro start h entry member
      rw [List.foldlM_nil, Result.pure_eq_ok] at h
      exact .inl (h ▸ member)
  | cons event events ih =>
      intro start h entry member
      rw [List.foldlM_cons] at h
      obtain ⟨next, inserted, rest⟩ := Result.bind_eq_ok.mp h
      obtain ⟨_, inserted⟩ := Result.check_bind_eq_ok.mp inserted
      rw [Result.pure_eq_ok] at inserted
      subst inserted
      obtain earlier | ⟨stored, later, same⟩ := ih _ rest entry member
      · cases earlier with
        | head => exact .inr ⟨event, List.mem_cons_self, rfl⟩
        | tail _ earlier => exact .inl earlier
      · exact .inr ⟨stored, List.mem_cons_of_mem _ later, same⟩

/-- The events known by their ids are recorded in the log as it will be. -/
structure Batch.Kept (codec : Codec) (bytes : Bytes) (batch : Batch) : Prop where
  whole : Whole (bytes ++ batch.encoded)
  known : ∀ entry ∈ batch.byId, Recorded codec entry.2 (bytes ++ batch.encoded)

theorem appendEvent_spec {bytes : Bytes} {now : Nat} {event : FunnelEvent} {batch batch' : Batch}
    (kept : batch.Kept codec bytes) (h : appendEvent codec now event batch = .ok batch') :
    batch'.Kept codec bytes ∧ batch.encoded <+: batch'.encoded ∧
      Recorded codec event (bytes ++ batch'.encoded) := by
  obtain ⟨_, h⟩ := Result.check_bind_eq_ok.mp h
  dsimp only at h
  split at h
  · rename_i existing found
    obtain ⟨same, unchanged⟩ := Result.check_bind_eq_ok.mp h
    obtain rfl := Result.ensure_eq_ok.mp same
    obtain rfl := Result.pure_eq_ok.mp unchanged
    obtain ⟨older, newer, split, _⟩ := List.lookup_eq_some_iff.mp found
    exact ⟨kept, List.prefix_refl _,
      kept.known _ (split ▸ List.mem_append_right _ List.mem_cons_self)⟩
  · simp only [Result.bind_eq_ok, Result.pure_eq_ok] at h
    obtain ⟨validation, _, ⟨⟩, _, rfl⟩ := h
    have placed : Recorded codec event (bytes ++ (batch.encoded ++
        codec.toVec (nextEvent codec batch.log event now) ++ [newline])) :=
      ⟨bytes ++ batch.encoded, [], nextEvent codec batch.log event now, rfl, kept.whole, by simp⟩
    refine ⟨⟨?_, ?_⟩, ?_, placed⟩
    · rw [← List.append_assoc]
      exact .line _
    · intro entry member
      cases member with
      | head => exact placed
      | tail _ member =>
          have older := (kept.known entry member).append
            (codec.toVec (nextEvent codec batch.log event now) ++ [newline])
          simpa using older
    · rw [List.append_assoc]
      exact List.prefix_append _ _

theorem appendAll_spec {bytes : Bytes} {clock : Nat → Nat} {requested : List FunnelEvent}
    {index : Nat} {batch batch' : Batch} (kept : batch.Kept codec bytes)
    (h : appendAll codec clock index requested batch = .ok batch') :
    batch'.Kept codec bytes ∧ batch.encoded <+: batch'.encoded ∧
      ∀ event ∈ requested, Recorded codec event (bytes ++ batch'.encoded) := by
  induction requested generalizing index batch with
  | nil =>
      obtain rfl := Except.ok.inj h
      exact ⟨kept, List.prefix_refl _, fun event member => absurd member List.not_mem_nil⟩
  | cons first requested ih =>
      obtain ⟨next, appended, rest⟩ := Result.bind_eq_ok.mp h
      obtain ⟨kept, grown, here⟩ := appendEvent_spec kept appended
      obtain ⟨kept, grown', later⟩ := ih kept rest
      refine ⟨kept, grown.trans grown', ?_⟩
      intro event member
      cases member with
      | head =>
          obtain ⟨more, grown⟩ := grown'
          rw [← grown, ← List.append_assoc]
          exact here.append more
      | tail _ member => exact later event member

/-- The content that an append leaves: the old one where there is nothing new. -/
def Appends (codec : Codec) (clock : Nat → Nat) (content : Bytes) (requested : List FunnelEvent)
    (content' : Bytes) : Prop :=
  ∃ replacement, appendBatch codec clock (readable content) requested = .ok replacement ∧
    content' = replacement.getD content

/-- An append keeps what there is and records each requested event. -/
theorem Appends.spec {clock : Nat → Nat} {content content' : Bytes}
    {requested : List FunnelEvent} (h : Appends codec clock content requested content') :
    content <+: content' ∧ ∀ event ∈ requested, Recorded codec event content' := by
  obtain ⟨replacement, h, rfl⟩ := h
  simp only [appendBatch, Result.bind_eq_ok] at h
  obtain ⟨⟨⟩, small, verified, read, byId, indexed, batch, appended, h⟩ := h
  have all : readable content = content := by
    rw [Result.ensure_eq_ok, readable, List.length_take] at small
    exact List.take_of_length_le (by omega)
  rw [all] at read h
  obtain ⟨whole, recorded⟩ := verifyLogBytes_spec read
  have start : Batch.Kept codec content ⟨verified, byId, []⟩ := by
    refine ⟨by simpa using whole, ?_⟩
    intro entry member
    obtain ⟨stored, member, same⟩ := indexEvents_spec indexed entry member
    simpa [same] using recorded stored member
  obtain ⟨_, _, there⟩ := appendAll_spec start appended
  split at h
  · rename_i nothing
    obtain rfl := Except.ok.inj h
    rw [nothing, List.append_nil] at there
    exact ⟨List.prefix_refl _, there⟩
  · simp only [Result.bind_eq_ok, Result.pure_eq_ok] at h
    obtain ⟨_, _, ⟨⟩, _, rfl⟩ := h
    exact ⟨List.prefix_append _ _, there⟩

end Stratadiff.Value
