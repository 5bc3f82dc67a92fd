import Stratadiff.Git.RawDiff
import Stratadiff.Ledger.Model
import Stratadiff.Lib.JsonSize
import Stratadiff.Value.Protocol

/-!
# Appends to the value log

An append works on its own copy of the log, event by event, and replaces the content only
when all of them have been added. At each event the copy is what the strict reader would
accept, so the new content is accepted too, and the request finds all its events there
when it is made again.
-/

namespace Stratadiff.Value

/-- What an event must satisfy to be written: numbers of 64 bits and a valid payload. -/
structure StoredEvent.Fits (stored : StoredEvent) : Prop where
  sequence : stored.sequence < 2 ^ 64
  observed : stored.observedAtUnixSeconds < 2 ^ 64
  payload : validatePayload stored.event = .ok ()

/-- What is relied on of `serde_json` and SHA-256. -/
structure Codec.Lawful (codec : Codec) : Prop where
  /-- What is written is read back. -/
  roundTrip : ∀ stored : StoredEvent, stored.Fits →
    codec.fromSlice (codec.toVec stored) = .ok stored
  /-- Control characters of a text are escaped. -/
  oneLine : ∀ stored, newline ∉ codec.toVec stored
  nonempty : ∀ stored, codec.toVec stored ≠ []
  digest : ∀ bytes, (codec.sha256 bytes).length = 32

variable {codec : Codec} {log log' : VerifiedLog} {content : Bytes} {event : FunnelEvent}

/-! ## What the reader has checked -/

/-- What holds of the events of a log that was read. -/
structure VerifiedLog.Checked (codec : Codec) (log : VerifiedLog) : Prop where
  ids : (log.events.map (·.eventId)).Nodup
  named : ∀ stored ∈ log.events, stored.eventId = eventId codec stored.event
  tip : requireSha256 log.chainTip "previous event digest" = .ok ()

theorem requireSha256_congr {value label label' : String} (h : requireSha256 value label = .ok ()) :
    requireSha256 value label' = .ok () :=
  Result.ensure_eq_ok.mpr (Result.ensure_eq_ok.mp h)

theorem checked_empty : VerifiedLog.empty.Checked codec where
  ids := List.nodup_nil
  named _ member := absurd member List.not_mem_nil
  tip := by decide +kernel

/-- What the reader checks of an event. -/
structure StoredEvent.Continues (codec : Codec) (stored : StoredEvent) (index : Nat)
    (previous : String) : Prop where
  schema : stored.schema = eventSchema
  toolVersion : isSemver stored.toolVersion = true
  sequence : stored.sequence = index
  observed : 0 < stored.observedAtUnixSeconds
  eventId : requireSha256 stored.eventId "event ID" = .ok ()
  previousDigest : requireSha256 stored.previousEventSha256 "previous event digest" = .ok ()
  digest : requireSha256 stored.eventSha256 "event digest" = .ok ()
  chained : stored.previousEventSha256 = previous
  payload : validatePayload stored.event = .ok ()
  signed : stored.eventSha256 = sha256Hex codec (codec.unsignedToVec stored.toUnsignedEvent)
  named : stored.eventId = Value.eventId codec stored.event

theorem validateEvent_eq_ok {stored : StoredEvent} {index : Nat} {previous : String} :
    validateEvent codec stored index previous = .ok () ↔
      stored.Continues codec index previous := by
  simp only [validateEvent, Result.check_bind_eq_ok, Result.ensure_eq_ok]
  constructor
  · rintro ⟨schema, toolVersion, sequence, observed, eventId, previousDigest, digest, chained,
      payload, signed, named⟩
    exact ⟨schema, toolVersion, sequence, observed, eventId, previousDigest, digest, chained,
      payload, signed, named⟩
  · rintro ⟨schema, toolVersion, sequence, observed, eventId, previousDigest, digest, chained,
      payload, signed, named⟩
    exact ⟨schema, toolVersion, sequence, observed, eventId, previousDigest, digest, chained,
      payload, signed, named⟩

theorem verifyLine_eq_ok {line : Bytes} : verifyLine codec log line = .ok log' ↔
    ∃ stored validation, line ≠ [] ∧ log.events.length < maxEvents ∧
      codec.fromSlice line = .ok stored ∧
      stored.Continues codec (log.events.length + 1) log.chainTip ∧ codec.toVec stored = line ∧
      stored.eventId ∉ log.events.map (·.eventId) ∧
      log.validation.apply stored.event = .ok validation ∧
      log' = ⟨log.events ++ [stored], stored.eventSha256, validation⟩ := by
  have read : ∀ {stored : StoredEvent} {f : String → Failure},
      (codec.fromSlice line).mapError f = .ok stored ↔ codec.fromSlice line = .ok stored := by
    intro stored f
    cases codec.fromSlice line <;> simp [Except.mapError]
  constructor
  · intro h
    obtain ⟨nonempty, h⟩ := Result.check_bind_eq_ok.mp h
    obtain ⟨room, h⟩ := Result.check_bind_eq_ok.mp h
    obtain ⟨stored, decoded, h⟩ := Result.bind_eq_ok.mp h
    obtain ⟨continues, h⟩ := Result.check_bind_eq_ok.mp h
    obtain ⟨canonical, h⟩ := Result.check_bind_eq_ok.mp h
    obtain ⟨fresh, h⟩ := Result.check_bind_eq_ok.mp h
    obtain ⟨validation, applied, h⟩ := Result.bind_eq_ok.mp h
    simp only [Result.ensure_eq_ok] at nonempty room canonical fresh
    exact ⟨stored, validation, nonempty, room, read.mp decoded,
      validateEvent_eq_ok.mp continues, canonical, fresh, applied, (Result.pure_eq_ok.mp h).symm⟩
  · rintro ⟨stored, validation, nonempty, room, decoded, continues, canonical, fresh, applied, rfl⟩
    refine Result.check_bind_eq_ok.mpr ⟨Result.ensure_of nonempty, ?_⟩
    refine Result.check_bind_eq_ok.mpr ⟨Result.ensure_of room, ?_⟩
    refine Result.bind_eq_ok.mpr ⟨stored, read.mpr decoded, ?_⟩
    refine Result.check_bind_eq_ok.mpr ⟨validateEvent_eq_ok.mpr continues, ?_⟩
    refine Result.check_bind_eq_ok.mpr ⟨Result.ensure_of canonical, ?_⟩
    refine Result.check_bind_eq_ok.mpr ⟨Result.ensure_of fresh, ?_⟩
    exact Result.bind_eq_ok.mpr ⟨validation, applied, rfl⟩

theorem VerifiedLog.Checked.line {line : Bytes} (checked : log.Checked codec)
    (h : verifyLine codec log line = .ok log') : log'.Checked codec := by
  obtain ⟨stored, validation, _, _, _, continues, _, fresh, _, rfl⟩ := verifyLine_eq_ok.mp h
  refine ⟨?_, ?_, requireSha256_congr continues.digest⟩
  · rw [List.map_append, List.nodup_append]
    refine ⟨checked.ids, List.nodup_singleton _, ?_⟩
    rintro id member _ last rfl
    rw [List.map_singleton, List.mem_singleton] at last
    exact fresh (last ▸ member)
  · intro other member
    rcases List.mem_append.mp member with old | new
    · exact checked.named other old
    · exact List.mem_singleton.mp new ▸ continues.named

/-- What holds of the empty log and is kept by each line holds of every log that is read. -/
theorem verifyLogBytes_induction {motive : VerifiedLog → Prop} (empty : motive .empty)
    (line : ∀ {log log' : VerifiedLog} {line : Bytes}, motive log →
      verifyLine codec log line = .ok log' → motive log')
    (h : verifyLogBytes codec content = .ok log) : motive log := by
  have lines : ∀ (lines : List Bytes) (start : VerifiedLog), motive start →
      lines.foldlM (verifyLine codec) start = .ok log → motive log := by
    intro lines
    induction lines with
    | nil =>
        intro start holds h
        exact Result.pure_eq_ok.mp h ▸ holds
    | cons first lines ih =>
        intro start holds h
        rw [List.foldlM_cons] at h
        obtain ⟨next, verified, rest⟩ := Result.bind_eq_ok.mp h
        exact ih next (line holds verified) rest
  rw [verifyLogBytes] at h
  split at h
  · exact Except.ok.inj h ▸ empty
  · exact lines _ _ empty (Result.check_bind_eq_ok.mp h).2

theorem checked_of_verifyLogBytes (h : verifyLogBytes codec content = .ok log) :
    log.Checked codec :=
  verifyLogBytes_induction checked_empty VerifiedLog.Checked.line h

/-- The reader accepts a log with one more line that it accepts. -/
theorem verifyLogBytes_append {line : Bytes} (reads : verifyLogBytes codec content = .ok log)
    (oneLine : newline ∉ line) (next : verifyLine codec log line = .ok log') :
    verifyLogBytes codec (content ++ (line ++ [newline])) = .ok log' := by
  have last : (content ++ (line ++ [newline])).getLast? = some newline := by simp
  have front : (content ++ (line ++ [newline])).dropLast = content ++ line := by
    rw [← List.append_assoc, List.dropLast_concat]
  rw [verifyLogBytes, if_neg (by simp), front]
  refine Result.check_bind_eq_ok.mpr ⟨Result.ensure_eq_ok.mpr last, ?_⟩
  rw [verifyLogBytes] at reads
  split at reads
  · next empty =>
      cases Except.ok.inj reads
      rw [empty, List.nil_append, List.splitOn_eq_singleton oneLine, List.foldlM_cons, next]
      rfl
  · obtain ⟨ends, lines⟩ := Result.check_bind_eq_ok.mp reads
    rw [Result.ensure_eq_ok] at ends
    obtain ⟨body, rfl⟩ : ∃ body, content = body ++ [newline] :=
      ⟨_, (List.dropLast_append_getLast? _ ends).symm⟩
    rw [List.dropLast_concat] at lines
    rw [List.append_assoc, List.singleton_append, List.splitOn_append_cons_self,
      List.splitOn_eq_singleton oneLine, List.foldlM_append, lines, Result.ok_bind,
      List.foldlM_cons, next]
    rfl

/-! ## What the writer produces -/

theorem requireSha256_sha256Hex (lawful : codec.Lawful) (bytes : Bytes) (label : String) :
    requireSha256 (sha256Hex codec bytes) label = .ok () := by
  have digits := Ledger.isSha256_encodeHex (lawful.digest bytes)
  rw [Ledger.isSha256, Bool.and_eq_true, decide_eq_true_eq] at digits
  exact Result.ensure_of digits

theorem packageVersion_isSemver : isSemver packageVersion = true := by decide +kernel

/-- The reader accepts the line that the writer adds. -/
theorem verifyLine_nextEvent (lawful : codec.Lawful) (checked : log.Checked codec) {now : Nat}
    (running : 0 < now ∧ now < 2 ^ 64) (payload : validatePayload event = .ok ())
    (room : log.events.length < maxEvents)
    (fresh : eventId codec event ∉ log.events.map (·.eventId)) {validation : FunnelValidationState}
    (applied : log.validation.apply event = .ok validation) :
    verifyLine codec log (codec.toVec (nextEvent codec log event now)) =
      .ok ⟨log.events ++ [nextEvent codec log event now],
        (nextEvent codec log event now).eventSha256, validation⟩ := by
  have fits : (nextEvent codec log event now).Fits := by
    refine ⟨?_, running.2, payload⟩
    change log.events.length + 1 < 2 ^ 64
    unfold maxEvents at room
    omega
  refine verifyLine_eq_ok.mpr ⟨_, validation, lawful.nonempty _, room, lawful.roundTrip _ fits,
    ?_, rfl, fresh, applied, rfl⟩
  exact {
    schema := rfl
    toolVersion := packageVersion_isSemver
    sequence := rfl
    observed := running.1
    eventId := requireSha256_sha256Hex lawful _ _
    previousDigest := checked.tip
    digest := requireSha256_sha256Hex lawful _ _
    chained := rfl
    payload
    signed := rfl
    named := rfl }

/-! ## The loop -/

/-- An index of the events of a log by their ids. -/
def Indexes (byId : List (String × FunnelEvent)) (events : List StoredEvent) : Prop :=
  ∀ id event, byId.lookup id = some event ↔
    ∃ stored ∈ events, stored.eventId = id ∧ stored.event = event

/-- The copy of the log that the loop works on is what the reader makes of its bytes. -/
structure Batch.Verifies (codec : Codec) (content : Bytes) (batch : Batch) : Prop where
  reads : verifyLogBytes codec (content ++ batch.encoded) = .ok batch.log
  indexed : Indexes batch.byId batch.log.events

def VerifiedLog.known (log : VerifiedLog) : List FunnelEvent := log.events.map (·.event)

theorem Indexes.add {byId : List (String × FunnelEvent)} {events : List StoredEvent}
    {stored : StoredEvent} (indexed : Indexes byId events)
    (fresh : stored.eventId ∉ events.map (·.eventId)) :
    Indexes ((stored.eventId, stored.event) :: byId) (events ++ [stored]) := by
  intro id event
  rw [List.lookup_cons]
  by_cases same : id = stored.eventId
  · subst same
    simp only [beq_self_eq_true, Option.some.injEq]
    constructor
    · rintro rfl
      exact ⟨stored, by simp, rfl, rfl⟩
    · rintro ⟨other, member, id, rfl⟩
      rcases List.mem_append.mp member with old | new
      · exact absurd (List.mem_map.mpr ⟨other, old, id⟩) fresh
      · rw [List.mem_singleton.mp new]
  · rw [beq_eq_false_iff_ne.mpr same]
    refine (indexed id event).trans ⟨?_, ?_⟩
    · rintro ⟨other, member, both⟩
      exact ⟨other, List.mem_append_left _ member, both⟩
    · rintro ⟨other, member, both⟩
      rcases List.mem_append.mp member with old | new
      · exact ⟨other, old, both⟩
      · rw [List.mem_singleton.mp new] at both
        exact absurd both.1.symm same

/-- The index finds an event exactly if the log has it. -/
theorem Batch.Verifies.lookup {batch : Batch} (verifies : batch.Verifies codec content)
    (found : batch.byId.lookup (eventId codec event) = some event) : event ∈ batch.log.known := by
  obtain ⟨stored, member, _, rfl⟩ := (verifies.indexed _ _).mp found
  exact List.mem_map.mpr ⟨stored, member, rfl⟩

theorem Batch.Verifies.lookup_known {batch : Batch} (verifies : batch.Verifies codec content)
    (known : event ∈ batch.log.known) :
    batch.byId.lookup (eventId codec event) = some event := by
  obtain ⟨stored, member, rfl⟩ := List.mem_map.mp known
  have named := (checked_of_verifyLogBytes verifies.reads).named stored member
  exact (verifies.indexed _ _).mpr ⟨stored, member, named, rfl⟩

/-- The requested events that are not known, each at its first place. -/
def newEvents (known : List FunnelEvent) : List FunnelEvent → List FunnelEvent
  | [] => []
  | event :: requested =>
      if event ∈ known then newEvents known requested
      else event :: newEvents (known ++ [event]) requested

/-- One event: it is known already, or it is added. -/
theorem appendEvent_verifies (lawful : codec.Lawful) {now : Nat} (running : 0 < now ∧ now < 2 ^ 64)
    {batch batch' : Batch} (verifies : batch.Verifies codec content)
    (h : appendEvent codec now event batch = .ok batch') :
    batch'.Verifies codec content ∧ validatePayload event = .ok () ∧
      (event ∈ batch.log.known ∧ batch' = batch ∨
        event ∉ batch.log.known ∧ ∃ stored, stored.event = event ∧
          batch'.log.events = batch.log.events ++ [stored]) := by
  obtain ⟨payload, h⟩ := Result.check_bind_eq_ok.mp h
  dsimp only at h
  split at h
  · next existing found =>
      obtain ⟨same, unchanged⟩ := Result.check_bind_eq_ok.mp h
      obtain rfl := Result.ensure_eq_ok.mp same
      obtain rfl := Result.pure_eq_ok.mp unchanged
      exact ⟨verifies, payload, .inl ⟨verifies.lookup found, rfl⟩⟩
  · next missing =>
      obtain ⟨validation, applied, h⟩ := Result.bind_eq_ok.mp h
      obtain ⟨room, h⟩ := Result.check_bind_eq_ok.mp h
      obtain rfl := Result.pure_eq_ok.mp h
      rw [Result.ensure_eq_ok, List.length_append, List.length_singleton] at room
      have fresh : eventId codec event ∉ batch.log.events.map (·.eventId) := by
        intro member
        obtain ⟨stored, there, same⟩ := List.mem_map.mp member
        have found := (verifies.indexed _ _).mpr ⟨stored, there, same, rfl⟩
        rw [missing] at found
        cases found
      have unknown : event ∉ batch.log.known := by
        intro known
        have found := verifies.lookup_known known
        rw [missing] at found
        cases found
      have next := verifyLine_nextEvent lawful (checked_of_verifyLogBytes verifies.reads) running
        payload room fresh applied
      have indexed : Indexes ((eventId codec event, event) :: batch.byId)
          (batch.log.events ++ [nextEvent codec batch.log event now]) :=
        @Indexes.add _ _ (nextEvent codec batch.log event now) verifies.indexed fresh
      refine ⟨⟨?_, indexed⟩, payload, .inr ⟨unknown, _, rfl, rfl⟩⟩
      have reads := verifyLogBytes_append verifies.reads (lawful.oneLine _) next
      simpa [List.append_assoc] using reads

theorem known_append {stored : StoredEvent} {events : List StoredEvent} {batch : Batch}
    (appended : events = batch.log.events ++ [stored]) :
    events.map (·.event) = batch.log.known ++ [stored.event] := by
  rw [appended, List.map_append]
  rfl

/-- All of the events: what was unknown is added in order, once. -/
theorem appendAll_verifies (lawful : codec.Lawful) {clock : Nat → Nat}
    (running : ∀ i, 0 < clock i ∧ clock i < 2 ^ 64) {requested : List FunnelEvent} {index : Nat}
    {batch batch' : Batch} (verifies : batch.Verifies codec content)
    (h : appendAll codec clock index requested batch = .ok batch') :
    batch'.Verifies codec content ∧ batch.log.events <+: batch'.log.events ∧
      batch'.log.known = batch.log.known ++ newEvents batch.log.known requested ∧
      ∀ event ∈ requested, validatePayload event = .ok () ∧ event ∈ batch'.log.known := by
  induction requested generalizing index batch with
  | nil =>
      obtain rfl := Except.ok.inj h
      exact ⟨verifies, List.prefix_refl _, (List.append_nil _).symm,
        fun event member => absurd member List.not_mem_nil⟩
  | cons first requested ih =>
      obtain ⟨next, appended, rest⟩ := Result.bind_eq_ok.mp h
      obtain ⟨verifies', payload, one⟩ := appendEvent_verifies lawful (running index) verifies
        appended
      obtain ⟨verifies'', grown, events, all⟩ := ih verifies' rest
      have kept : ∀ {event}, event ∈ next.log.known → event ∈ batch'.log.known := fun known =>
        events ▸ List.mem_append_left _ known
      rcases one with ⟨known, rfl⟩ | ⟨unknown, stored, rfl, added⟩
      · refine ⟨verifies'', grown, ?_, List.forall_mem_cons.mpr ⟨⟨payload, kept known⟩, all⟩⟩
        rw [newEvents, if_pos known]
        exact events
      · have here : next.log.known = batch.log.known ++ [stored.event] := known_append added
        refine ⟨verifies'', ?_, ?_, List.forall_mem_cons.mpr ⟨⟨payload, kept ?_⟩, all⟩⟩
        · exact List.IsPrefix.trans ⟨[stored], added.symm⟩ grown
        · rw [events, here, newEvents, if_neg unknown, List.append_assoc]
          rfl
        · rw [here]
          exact List.mem_append_right _ List.mem_cons_self

/-- Events that are all there change nothing. -/
theorem appendAll_known {clock : Nat → Nat} {requested : List FunnelEvent} {index : Nat}
    {batch : Batch} (verifies : batch.Verifies codec content)
    (all : ∀ event ∈ requested, validatePayload event = .ok () ∧ event ∈ batch.log.known) :
    appendAll codec clock index requested batch = .ok batch := by
  induction requested generalizing index with
  | nil => rfl
  | cons first requested ih =>
      obtain ⟨⟨payload, known⟩, rest⟩ := List.forall_mem_cons.mp all
      have one : appendEvent codec (clock index) first batch = .ok batch := by
        refine Result.check_bind_eq_ok.mpr ⟨payload, ?_⟩
        dsimp only
        rw [verifies.lookup_known known]
        exact Result.check_bind_eq_ok.mpr ⟨Result.ensure_of rfl, rfl⟩
      rw [appendAll, one, Result.ok_bind]
      exact ih rest

theorem indexEvents_indexes {events : List StoredEvent}
    (ids : (events.map (·.eventId)).Nodup) :
    ∃ byId, indexEvents events = .ok byId ∧ Indexes byId events := by
  have general : ∀ (events before : List StoredEvent) (start : List (String × FunnelEvent)),
      ((before ++ events).map (·.eventId)).Nodup → Indexes start before →
      ∃ byId, events.foldlM (fun byId event => do
        Result.ensure (byId.lookup event.eventId = none)
          (.invalid "value log contains a duplicate event ID")
        return (event.eventId, event.event) :: byId) start = .ok byId ∧
          Indexes byId (before ++ events) := by
    intro events
    induction events with
    | nil =>
        intro before start _ indexed
        exact ⟨start, rfl, by rwa [List.append_nil]⟩
    | cons event events ih =>
        intro before start ids indexed
        rw [List.append_cons] at ids
        have fresh : event.eventId ∉ before.map (·.eventId) := by
          intro member
          rw [List.map_append, List.map_append, List.append_assoc] at ids
          exact (List.nodup_append.mp ids).2.2 _ member event.eventId (by simp) rfl
        have absent : start.lookup event.eventId = none := by
          refine Option.eq_none_iff_forall_ne_some.mpr fun found same => ?_
          obtain ⟨stored, member, id, _⟩ := (indexed _ _).mp same
          exact fresh (List.mem_map.mpr ⟨stored, member, id⟩)
        obtain ⟨byId, rest, all⟩ := ih (before ++ [event]) _ ids (indexed.add fresh)
        refine ⟨byId, ?_, List.append_cons before event events ▸ all⟩
        rw [List.foldlM_cons, Result.ensure_of absent]
        exact rest
  obtain ⟨byId, read, indexed⟩ := general events [] [] ids fun id event => by simp
  exact ⟨byId, read, indexed⟩

/-! ## Appends -/

/-- `append_events_locked`: its answer, and the content that it leaves. -/
def appendEventsLocked (codec : Codec) (clock : Nat → Nat) (content : Bytes)
    (requested : List FunnelEvent) : Result Unit × Bytes :=
  match appendBatch codec clock (readable content) requested with
  | .ok none => (.ok (), content)
  | .ok (some replacement) => (.ok (), replacement)
  | .error failure => (.error failure, content)

/-- What an append finds before it starts. -/
theorem start_verifies (reads : verifyLogBytes codec content = .ok log) :
    ∃ byId, indexEvents log.events = .ok byId ∧
      Batch.Verifies codec content ⟨log, byId, []⟩ := by
  obtain ⟨byId, read, indexed⟩ := indexEvents_indexes (checked_of_verifyLogBytes reads).ids
  exact ⟨byId, read, by rwa [List.append_nil], indexed⟩

theorem readable_eq_self (small : content.length ≤ maxLogBytes) : readable content = content :=
  List.take_of_length_le (Nat.le_succ_of_le small)

/-- A request all of whose events are there leaves the content as it is. -/
theorem appendEventsLocked_known {clock : Nat → Nat} {requested : List FunnelEvent}
    (small : content.length ≤ maxLogBytes) (reads : verifyLogBytes codec content = .ok log)
    (all : ∀ event ∈ requested, validatePayload event = .ok () ∧ event ∈ log.known) :
    appendEventsLocked codec clock content requested = (.ok (), content) := by
  obtain ⟨byId, indexed, verifies⟩ := start_verifies reads
  have nothing : appendBatch codec clock content requested = .ok none := by
    refine Result.check_bind_eq_ok.mpr ⟨Result.ensure_of small, ?_⟩
    refine Result.bind_eq_ok.mpr ⟨log, reads, Result.bind_eq_ok.mpr ⟨byId, indexed, ?_⟩⟩
    exact Result.bind_eq_ok.mpr ⟨_, appendAll_known verifies all, rfl⟩
  rw [appendEventsLocked, readable_eq_self small, nothing]

/-- A request has an event of a kind and a business key that the log or the request has with
another payload. -/
def Conflicts (known requested : List FunnelEvent) : Prop :=
  ∃ event ∈ requested, ∃ other ∈ known ++ requested,
    other.kind = event.kind ∧ other.businessKey = event.businessKey ∧ other ≠ event

/-- A content that an append has extended. -/
structure Extends (codec : Codec) (content : Bytes) (log : VerifiedLog)
    (requested : List FunnelEvent) (content' : Bytes) : Prop where
  kept : content <+: content'
  added : ∃ log', verifyLogBytes codec content' = .ok log' ∧ log.events <+: log'.events ∧
    log'.known = log.known ++ newEvents log.known requested
  repeated : ∀ clock : Nat → Nat,
    appendEventsLocked codec clock content' requested = (.ok (), content')

/-- Events of one kind and business key in one log are the same. -/
theorem eq_of_businessKey (checked : log.Checked codec) {other : FunnelEvent}
    (here : event ∈ log.known) (there : other ∈ log.known) (kind : other.kind = event.kind)
    (key : other.businessKey = event.businessKey) : other = event := by
  obtain ⟨stored, member, rfl⟩ := List.mem_map.mp here
  obtain ⟨stored', member', rfl⟩ := List.mem_map.mp there
  have ids : stored'.eventId = stored.eventId := by
    rw [checked.named stored member, checked.named stored' member', eventId, eventId, kind, key]
  rw [List.inj_on_of_nodup_map checked.ids member' member ids]

/-- Appends are transactional and idempotent. From a log that the reader accepts an append
either fails and leaves the content as it was, or it extends the content by exactly the
requested events that it did not have, each once and in order, to one that the reader
accepts and that the same request changes no more. It fails if a business key is used again
with another payload. -/
theorem appendEventsLocked_transactional (lawful : codec.Lawful) {clock : Nat → Nat}
    (running : ∀ i, 0 < clock i ∧ clock i < 2 ^ 64)
    (reads : verifyLogBytes codec content = .ok log) (requested : List FunnelEvent) :
    (∃ failure, appendEventsLocked codec clock content requested = (.error failure, content)) ∨
    ¬ Conflicts log.known requested ∧
      ∃ content', appendEventsLocked codec clock content requested = (.ok (), content') ∧
        Extends codec content log requested content' := by
  rw [appendEventsLocked]
  cases appended : appendBatch codec clock (readable content) requested with
  | error failure => exact .inl ⟨failure, rfl⟩
  | ok replacement =>
      obtain ⟨small, h⟩ := Result.check_bind_eq_ok.mp appended
      have small' : content.length ≤ maxLogBytes := by
        rw [Result.ensure_eq_ok, readable, List.length_take] at small
        omega
      rw [readable_eq_self small'] at h
      obtain ⟨read, reads', h⟩ := Result.bind_eq_ok.mp h
      cases reads.symm.trans reads'
      obtain ⟨byId, indexed, start⟩ := start_verifies reads
      obtain ⟨byId', indexed', h⟩ := Result.bind_eq_ok.mp h
      cases indexed.symm.trans indexed'
      obtain ⟨batch, all, h⟩ := Result.bind_eq_ok.mp h
      obtain ⟨verifies, grown, events, present⟩ := appendAll_verifies lawful running start all
      have free : ¬ Conflicts log.known requested := by
        rintro ⟨event, member, other, among, kind, key, different⟩
        refine different (eq_of_businessKey (checked_of_verifyLogBytes verifies.reads)
          (present event member).2 ?_ kind key)
        rcases List.mem_append.mp among with known | asked
        · exact events ▸ List.mem_append_left _ known
        · exact (present other asked).2
      refine .inr ⟨free, ?_⟩
      have extends' : content.length + batch.encoded.length ≤ maxLogBytes →
          Extends codec content log requested (content ++ batch.encoded) := fun bound => {
        kept := List.prefix_append _ _
        added := ⟨batch.log, verifies.reads, grown, events⟩
        repeated := fun _ => appendEventsLocked_known
          (by rw [List.length_append]; exact bound) verifies.reads present }
      split at h
      · next nothing =>
          cases Result.pure_eq_ok.mp h
          refine ⟨content, rfl, ?_⟩
          simpa [nothing] using extends' (by simpa [nothing] using small')
      · obtain ⟨size, counted, h⟩ := Result.ofOption_bind_eq_ok.mp h
        obtain ⟨bound, h⟩ := Result.check_bind_eq_ok.mp h
        cases Result.pure_eq_ok.mp h
        rw [Result.ensure_eq_ok] at bound
        obtain ⟨-, rfl⟩ := checkedAdd_eq_some.mp counted
        exact ⟨_, rfl, extends' bound⟩

/-! ## The writer of `serde_json` -/

def FailureStage.name : FailureStage → String
  | beforeTransitionBound => "before_transition_bound"
  | beforeCoverage => "before_coverage"
  | beforeWorkbenchReady => "before_workbench_ready"
  | afterWorkbenchReady => "after_workbench_ready"

def FunnelEvent.payload : FunnelEvent → List (String × Json)
  | baseline scanId inspectedCandidates completedReviewPrs collectionComplete =>
      [("scan_id", .string scanId), ("inspected_candidates", .ofNat inspectedCandidates),
        ("completed_review_prs", .ofNat completedReviewPrs),
        ("collection_complete", .bool collectionComplete)]
  | gapDiscovery scanId transitionId =>
      [("scan_id", .string scanId), ("transition_id", .string transitionId)]
  | inboxDelivery scanId => [("scan_id", .string scanId)]
  | coveredTransition transitionId attemptId
  | resumeInvoked transitionId attemptId
  | transitionBound transitionId attemptId
  | workbenchReady transitionId attemptId =>
      [("transition_id", .string transitionId), ("attempt_id", .string attemptId)]
  | attemptFailed transitionId attemptId stage =>
      [("transition_id", .string transitionId), ("attempt_id", .string attemptId),
        ("stage", .string stage.name)]

def UnsignedEvent.members (unsigned : UnsignedEvent) : List (String × Json) :=
  [("schema", .string unsigned.schema), ("tool_version", .string unsigned.toolVersion),
    ("sequence", .ofNat unsigned.sequence),
    ("observed_at_unix_seconds", .ofNat unsigned.observedAtUnixSeconds),
    ("event_id", .string unsigned.eventId),
    ("previous_event_sha256", .string unsigned.previousEventSha256),
    ("kind", .string unsigned.event.kind), ("payload", .object unsigned.event.payload)]

def StoredEvent.toJson (stored : StoredEvent) : Json :=
  .object (stored.members ++ [("event_sha256", .string stored.eventSha256)])

/-- `serde_json::to_vec`. -/
def jsonBytes (value : Json) : Bytes := utf8Bytes (String.ofList value.written)

theorem jsonBytes_injective {left right : Json} (same : jsonBytes left = jsonBytes right) :
    left = right := by
  have texts := congrArg utf8? same
  rw [jsonBytes, jsonBytes, utf8?_utf8Bytes, utf8?_utf8Bytes, Option.some.injEq] at texts
  exact Json.written_injective (String.ofList_injective texts)

theorem jsonBytes_ne_nil (value : Json) : jsonBytes value ≠ [] := by
  obtain ⟨c, tail, text, _⟩ := Json.written_head value
  rw [jsonBytes, utf8Bytes_eq_flatMap, String.toList_ofList, text, List.flatMap_cons]
  exact fun empty => String.utf8EncodeChar_ne_nil (List.append_eq_nil_iff.mp empty).1

theorem length_utf8Bytes (text : String) : (utf8Bytes text).length = text.utf8ByteSize := by
  rw [utf8Bytes_eq_flatMap, List.length_flatMap, ← utf8Length_toList, utf8Length]
  simp only [String.length_utf8EncodeChar]

theorem length_jsonBytes (value : Json) : (jsonBytes value).length = value.size := by
  rw [jsonBytes, length_utf8Bytes, utf8ByteSize_ofList, Json.size]

theorem utf8ByteSize_encodeHex (bytes : Bytes) :
    (encodeHex bytes).utf8ByteSize = 2 * bytes.length := by
  rw [← length_utf8Bytes, Ledger.utf8Bytes_encodeHex, Ledger.hexDigits_length]

theorem FunnelEvent.eq_of_payload {left right : FunnelEvent} (kind : left.kind = right.kind)
    (payload : left.payload = right.payload) : left = right := by
  cases left <;> cases right <;> simp_all [FunnelEvent.kind, FunnelEvent.payload, Json.ofNat]
  next stage _ _ stage' => cases stage <;> cases stage' <;> simp_all [FailureStage.name]

theorem StoredEvent.toJson_injective {left right : StoredEvent}
    (same : left.toJson = right.toJson) : left = right := by
  obtain ⟨⟨schema, toolVersion, sequence, observed, eventId, previous, event⟩, digest⟩ := left
  obtain ⟨⟨schema', toolVersion', sequence', observed', eventId', previous', event'⟩, digest'⟩ :=
    right
  simp only [toJson, UnsignedEvent.members, Json.ofNat, List.cons_append, List.nil_append,
    Json.object.injEq, List.cons.injEq, Prod.mk.injEq, Json.string.injEq, Json.number.injEq,
    JsonNumber.unsigned.injEq, true_and, and_true] at same
  obtain ⟨rfl, rfl, rfl, rfl, rfl, rfl, kind, payload, rfl⟩ := same
  rw [FunnelEvent.eq_of_payload kind payload]

open Classical in
/-- The writer of `serde_json`, and a reader of what it writes. -/
noncomputable def Codec.serde (sha256 : Bytes → Bytes) : Codec where
  toVec stored := jsonBytes stored.toJson
  unsignedToVec unsigned := jsonBytes (.object unsigned.members)
  fromSlice bytes := if read : ∃ stored : StoredEvent, jsonBytes stored.toJson = bytes then
    .ok read.choose else .error "expected value"
  sha256

section

variable {sha256 : Bytes → Bytes} {stored : StoredEvent}

theorem serde_toVec : (Codec.serde sha256).toVec stored = jsonBytes stored.toJson := by
  rw [Codec.serde]

theorem serde_fromSlice :
    (Codec.serde sha256).fromSlice (jsonBytes stored.toJson) = .ok stored := by
  have read : ∃ other : StoredEvent, jsonBytes other.toJson = jsonBytes stored.toJson :=
    ⟨stored, rfl⟩
  have same := StoredEvent.toJson_injective (jsonBytes_injective read.choose_spec)
  rw [Codec.serde]
  dsimp only
  rw [dif_pos read, same]

theorem newline_not_mem_jsonBytes (value : Json) : newline ∉ jsonBytes value := by
  intro member
  obtain ⟨c, inside, code⟩ := mem_utf8Bytes_ascii (by decide) member
  rw [String.toList_ofList] at inside
  have ends : c = '\n' := Char.toNat_inj.mp code
  exact Json.newline_not_mem_written _ (ends ▸ inside)

theorem lawful_serde (digest : ∀ bytes, (sha256 bytes).length = 32) :
    (Codec.serde sha256).Lawful where
  roundTrip stored _ := by rw [serde_toVec, serde_fromSlice]
  oneLine stored := by
    rw [serde_toVec]
    exact newline_not_mem_jsonBytes _
  nonempty stored := by
    rw [serde_toVec]
    exact jsonBytes_ne_nil _
  digest := digest

end

/-! ## The size of a line -/

theorem utf8ByteSize_of_requireSha256 {value label : String}
    (digits : requireSha256 value label = .ok ()) : value.utf8ByteSize = 64 := by
  obtain ⟨length, lower⟩ := Result.ensure_eq_ok.mp digits
  have ascii : ∀ c ∈ value.toList, c.utf8Size = 1 := by
    intro c member
    have digit := List.all_eq_true.mp lower c member
    simp only [Char.isDigit, Bool.or_eq_true, Bool.and_eq_true, decide_eq_true_eq, ge_iff_le,
      Char.le_def, UInt32.le_iff_toNat_le] at digit
    refine utf8Size_of_lt (lt_of_le_of_lt (b := 102) ?_ (by decide))
    rcases digit with ⟨_, digit⟩ | ⟨_, letter⟩
    · exact digit.trans (by decide)
    · exact letter
  rw [← utf8Length_toList, utf8Length_eq_length ascii, length]

open Json in
theorem memberSize_le {key : String} {value : Json} {size : Nat} (short : key.utf8ByteSize ≤ 24)
    (bound : value.size ≤ size) : memberSize (key, value) ≤ size + 200 := by
  have written := utf8Length_stringText_le key
  rw [memberSize_mk]
  omega

open Json in
theorem memberSize_string_le {key value : String} (short : key.utf8ByteSize ≤ 24)
    (held : value.utf8ByteSize ≤ 64) : memberSize (key, .string value) ≤ 1000 := by
  have written : (Json.string value).size ≤ 386 := (size_string_le value).trans (by omega)
  exact (memberSize_le short written).trans (by decide)

open Json in
theorem memberSize_ofNat_le {key : String} {value : Nat} (short : key.utf8ByteSize ≤ 24)
    (small : value < 10 ^ 20) : memberSize (key, .ofNat value) ≤ 1000 :=
  (memberSize_le short (size_ofNat_le (by decide) small)).trans (by decide)

open Json in
/-- The payload of a valid event is small. -/
theorem payload_size_le {event : FunnelEvent} (valid : validatePayload event = .ok ()) :
    (Json.object event.payload).size ≤ 4 * 1000 + 2 := by
  have text {key value label : String} (short : key.utf8ByteSize ≤ 24)
      (digits : requireSha256 value label = .ok ()) : memberSize (key, .string value) ≤ 1000 :=
    memberSize_string_le short (utf8ByteSize_of_requireSha256 digits).le
  have few : event.payload.length ≤ 4 := by
    cases event <;> simp [FunnelEvent.payload]
  suffices each : ∀ field ∈ event.payload, memberSize field ≤ 1000 from
    (size_object_le_of_forall each).trans (Nat.add_le_add_right (Nat.mul_le_mul_right _ few) 2)
  cases event with
  | baseline scanId inspectedCandidates completedReviewPrs complete =>
      simp only [validatePayload, Result.check_bind_eq_ok, Result.ensure_eq_ok] at valid
      obtain ⟨scan, inspected, completed⟩ := valid
      have small : inspectedCandidates < 10 ^ 20 := inspected.trans_lt (by decide)
      have flag : memberSize ("collection_complete", .bool complete) ≤ 1000 :=
        (memberSize_le (by decide) (size_bool_le complete)).trans (by decide)
      simp only [FunnelEvent.payload, List.forall_mem_cons]
      exact ⟨text (by decide) scan, memberSize_ofNat_le (by decide) small,
        memberSize_ofNat_le (by decide) (completed.trans_lt small), flag, List.forall_mem_nil _⟩
  | inboxDelivery scanId =>
      simp only [FunnelEvent.payload, List.forall_mem_cons]
      exact ⟨text (by decide) valid, List.forall_mem_nil _⟩
  | attemptFailed transitionId attemptId stage =>
      simp only [validatePayload, Result.check_bind_eq_ok] at valid
      have name : stage.name.utf8ByteSize ≤ 64 := by cases stage <;> decide
      simp only [FunnelEvent.payload, List.forall_mem_cons]
      exact ⟨text (by decide) valid.1, text (by decide) valid.2,
        memberSize_string_le (by decide) name, List.forall_mem_nil _⟩
  | gapDiscovery | coveredTransition | resumeInvoked | transitionBound | workbenchReady =>
      simp only [validatePayload, Result.check_bind_eq_ok] at valid
      simp only [FunnelEvent.payload, List.forall_mem_cons]
      exact ⟨text (by decide) valid.1, text (by decide) valid.2, List.forall_mem_nil _⟩

/-- A bound for the bytes of a line. -/
def lineBound : Nat := 9 * 5000 + 2

open Json in
theorem length_line_le {stored : StoredEvent} (fits : stored.Fits)
    (texts : ∀ text ∈ [stored.schema, stored.toolVersion, stored.eventId,
      stored.previousEventSha256, stored.eventSha256], text.utf8ByteSize ≤ 64) :
    (jsonBytes stored.toJson).length ≤ lineBound := by
  have text {key value : String} (short : key.utf8ByteSize ≤ 24)
      (held : value.utf8ByteSize ≤ 64) : memberSize (key, .string value) ≤ 5000 :=
    (memberSize_string_le short held).trans (by decide)
  have number {key : String} {value : Nat} (short : key.utf8ByteSize ≤ 24)
      (small : value < 2 ^ 64) : memberSize (key, .ofNat value) ≤ 5000 :=
    (memberSize_ofNat_le short (small.trans (by decide))).trans (by decide)
  have kind : stored.event.kind.utf8ByteSize ≤ 64 := by
    cases stored.event <;> simp only [FunnelEvent.kind] <;> decide
  have payload : memberSize ("payload", .object stored.event.payload) ≤ 5000 :=
    (memberSize_le (by decide) (payload_size_le fits.payload)).trans (by decide)
  simp only [List.forall_mem_cons] at texts
  obtain ⟨schema, version, id, previous, digest, -⟩ := texts
  rw [length_jsonBytes, StoredEvent.toJson, UnsignedEvent.members]
  refine size_object_le_of_forall ?_
  simp only [List.cons_append, List.nil_append, List.forall_mem_cons]
  exact ⟨text (by decide) schema, text (by decide) version, number (by decide) fits.sequence,
    number (by decide) fits.observed, text (by decide) id, text (by decide) previous,
    text (by decide) kind, payload, text (by decide) digest, List.forall_mem_nil _⟩

section

variable {sha256 : Bytes → Bytes} {batch batch' : Batch} {byId : List (String × FunnelEvent)}

theorem sha256Hex_size (digest : ∀ bytes, (sha256 bytes).length = 32) (bytes : Bytes) :
    (sha256Hex (.serde sha256) bytes).utf8ByteSize = 64 := by
  rw [sha256Hex, utf8ByteSize_encodeHex]
  change 2 * (sha256 bytes).length = 64
  rw [digest]

/-- An event adds one line at most. -/
theorem appendEvent_length (digest : ∀ bytes, (sha256 bytes).length = 32) {now : Nat}
    (running : now < 2 ^ 64) (tip : batch.log.chainTip.utf8ByteSize ≤ 64)
    (h : appendEvent (.serde sha256) now event batch = .ok batch') :
    batch'.log.chainTip.utf8ByteSize ≤ 64 ∧
      batch'.encoded.length ≤ batch.encoded.length + (lineBound + 1) := by
  obtain ⟨payload, h⟩ := Result.check_bind_eq_ok.mp h
  dsimp only at h
  split at h
  · obtain rfl := Result.pure_eq_ok.mp (Result.check_bind_eq_ok.mp h).2
    exact ⟨tip, Nat.le_add_right _ _⟩
  · obtain ⟨validation, _, h⟩ := Result.bind_eq_ok.mp h
    obtain ⟨room, h⟩ := Result.check_bind_eq_ok.mp h
    obtain rfl := Result.pure_eq_ok.mp h
    rw [Result.ensure_eq_ok, List.length_append, List.length_singleton] at room
    have fits : (nextEvent (.serde sha256) batch.log event now).Fits := by
      refine ⟨?_, running, payload⟩
      change batch.log.events.length + 1 < 2 ^ 64
      exact room.trans_lt (by decide)
    have line : (jsonBytes (nextEvent (.serde sha256) batch.log event now).toJson).length ≤
        lineBound := by
      refine length_line_le fits ?_
      simp only [List.forall_mem_cons]
      exact ⟨show eventSchema.utf8ByteSize ≤ 64 by decide,
        show packageVersion.utf8ByteSize ≤ 64 by decide, (sha256Hex_size digest _).le, tip,
        (sha256Hex_size digest _).le, List.forall_mem_nil _⟩
    refine ⟨(sha256Hex_size digest _).le, ?_⟩
    rw [serde_toVec, List.length_append, List.length_append, List.length_singleton]
    omega

theorem appendAll_length (digest : ∀ bytes, (sha256 bytes).length = 32) {clock : Nat → Nat}
    (running : ∀ i, clock i < 2 ^ 64) {requested : List FunnelEvent} {index : Nat}
    (tip : batch.log.chainTip.utf8ByteSize ≤ 64)
    (h : appendAll (.serde sha256) clock index requested batch = .ok batch') :
    batch'.encoded.length ≤ batch.encoded.length + requested.length * (lineBound + 1) := by
  induction requested generalizing index batch with
  | nil =>
      obtain rfl := Except.ok.inj h
      exact Nat.le_add_right _ _
  | cons first requested ih =>
      obtain ⟨next, appended, rest⟩ := Result.bind_eq_ok.mp h
      obtain ⟨tip', one⟩ := appendEvent_length digest (running index) tip appended
      have others := ih tip' rest
      rw [List.length_cons, Nat.succ_mul]
      omega

/-- A request that is not too long and whose events go through is appended. -/
theorem appendEventsLocked_ok {clock : Nat → Nat} {requested : List FunnelEvent}
    (reads : verifyLogBytes codec content = .ok log)
    (indexed : indexEvents log.events = .ok byId)
    (all : appendAll codec clock 0 requested ⟨log, byId, []⟩ = .ok batch)
    (bound : content.length + batch.encoded.length ≤ maxLogBytes) :
    (appendEventsLocked codec clock content requested).1 = .ok () := by
  have small : content.length ≤ maxLogBytes := (Nat.le_add_right _ _).trans bound
  have counted : checkedAdd content.length batch.encoded.length =
      some (content.length + batch.encoded.length) :=
    if_pos (bound.trans (by decide))
  have appended : ∃ replacement, appendBatch codec clock content requested = .ok replacement := by
    rw [appendBatch, Result.ensure_of small, Result.ok_bind, reads, Result.ok_bind, indexed,
      Result.ok_bind, all, Result.ok_bind]
    split
    · exact ⟨none, rfl⟩
    · rw [counted, Result.ofOption_some, Result.ok_bind, Result.ensure_of bound]
      exact ⟨_, rfl⟩
  obtain ⟨replacement, appended⟩ := appended
  rw [appendEventsLocked, readable_eq_self small, appended]
  cases replacement <;> rfl

end

namespace Sample

def scan : String := zeroSha256
def laterScan : String := String.ofList (List.replicate 64 '1')
def gap : String := String.ofList (List.replicate 64 'a')
def openGap : String := String.ofList (List.replicate 64 'b')
def attempt : String := String.ofList (List.replicate 64 'c')
def failing : String := String.ofList (List.replicate 64 'd')
def pending : String := String.ofList (List.replicate 64 'e')

/-- A scan with two gaps and a partial one without. One gap is resumed three times: to the end,
with a failure, and without an outcome. -/
def funnel : List FunnelEvent :=
  [.baseline scan 3 2 true, .gapDiscovery scan gap, .gapDiscovery scan openGap,
    .inboxDelivery scan, .baseline laterScan 1 0 false, .resumeInvoked gap attempt,
    .transitionBound gap attempt, .coveredTransition gap attempt, .workbenchReady gap attempt,
    .resumeInvoked gap failing, .attemptFailed gap failing .beforeTransitionBound,
    .resumeInvoked gap pending]

/-- The ids of the events. -/
def ids : List (Nat × String) :=
  [(1963351363, "37a4681fb67b7b9abe421c1981d06435ab4317674c39f950fa372700146bb4a2"),
   (1177360303, "0d9020fe545c0031aed8d454705d17bae352ed1bad2f921a1008830685903bf4"),
   (3639932911, "7840441bb16ee38123934026daaa3d0dcc4a868c041a6020b67ab2aa44bbdaff"),
   (422733283, "19bc78acbc3d5fa7544c6a0a3e4b2cebd93c0e161b9b9b4289f0dc274d712866"),
   (130956675, "b1ebbb6f215831c36b8c5829b21bd7d117530d38933363d39512ba4d91763643"),
   (2926655904, "93bb0836e13d7a2cddffe94c982559a3522c7ee6ef03c9e9970acde531ead562"),
   (19540610, "0fb8d73e4a858d3f6a068ec5800e5c51c7a022e9730567a9973f5a7a5d1dad47"),
   (1323019346, "79deba8cd40f26df1634cee7be88322c2ed0d928d62b7bff90009ed9a4179de0"),
   (3339631095, "3a12c94972643306b22604afd1187ac06964f1c410a7d905f2391514beb2c788"),
   (1094261216, "7f79f68fde0775b471228f1a4a24808777154231af0daa75cee7fad2b8c1522b"),
   (3670352323, "e9799f4db3d99520220f007053075b32eef4bc1b433f8b31257a37b34cd0fd6a"),
   (3556833824, "4e191eb505c1252c9c3df8fa474fc3bf8dbaeeaa036b3755154a4b275bf29c05")]

/-- The digests of the stored events. -/
def digests : List (Nat × String) :=
  [(2776475569, "a560896029febd7fa5056eae451b4291dd3f1da86b905e9da6eb81072ec6c803"),
   (1462010092, "35cc5fb12f15d257d1f790a00f80ec217f20354338414884fd765b2b5184b94c"),
   (1713939683, "91a045c026ae50e422ef901a574f9f19bc7198a9ede8df89321b6d5178eee41d"),
   (1784465879, "750c3dc77733681a42d801871dfd3fd5782655a84a27fee656b8f11fd7cb678e"),
   (1861697104, "f631927fe88666d207215b7150c2b37241127325ee2c8e7747929e4559fe8e64"),
   (1936205583, "fd27d92adaa4c2228769f61e267732db4253a9ab5928ae941e69775ec6c6957c"),
   (3271887481, "6c19d132560e502affb769b8c5a1bbd4ae7278df0b8a4a48cdb23eeb7e495e0a"),
   (656493668, "2c3b6a7098572d234ce921c47d71ceede610cf2245a566c363197715ad410884"),
   (973661700, "ca3a74f5f2761b91b5bbd2dbb3a5b74bc0e9802a489c663ac7d6d9dc3517bb16"),
   (1555565038, "1d00360fe7a408ae482303a791b9724e4449e4f2c9dfdcb495a62090ba07fcc0"),
   (4203925044, "5b2a2ecbc55d4a575be0617153c88959ca958e8892c4a5499327e46928fe9860"),
   (826030950, "05d36837795257d8f1ae7f040de7357c627c9352ff9517ab1a8e4a7bd27faf1f")]

def sha256 : Bytes → Bytes := Ledger.Sample.entry (ids ++ digests) 32

theorem digest (bytes : Bytes) : (sha256 bytes).length = 32 := Ledger.Sample.entry_length

theorem running (i : Nat) : 0 < clock i ∧ clock i < 2 ^ 64 := by simp [clock]

/-- The first scan with its gaps. -/
noncomputable def begun : Result Batch :=
  appendAll (.serde sha256) clock 0 (funnel.take 4) ⟨.empty, [], []⟩

/-- A gap that is there already, and the next scan. -/
def request : List FunnelEvent := [.gapDiscovery scan gap, .baseline laterScan 1 0 false]

/-- The request, on the index of the log so far. -/
noncomputable def continued : Result Batch := do
  let begun ← begun
  let byId ← indexEvents begun.log.events
  appendAll (.serde sha256) clock 0 request ⟨begun.log, byId, []⟩

/-- An empty log, as the loop starts with it. -/
theorem verifies_empty : Batch.Verifies (.serde sha256) [] ⟨.empty, [], []⟩ where
  reads := rfl
  indexed _ _ := by simp [VerifiedLog.empty]

theorem small {requested : List FunnelEvent} {log : VerifiedLog}
    {byId : List (String × FunnelEvent)} {batch : Batch} (few : requested.length ≤ 4)
    (tip : log.chainTip.utf8ByteSize ≤ 64)
    (all : appendAll (.serde sha256) clock 0 requested ⟨log, byId, []⟩ = .ok batch) :
    batch.encoded.length ≤ 200000 := by
  have length := appendAll_length digest (fun i => (running i).2) tip all
  refine length.trans (le_trans (b := 0 + 4 * (lineBound + 1)) ?_ (by decide))
  exact Nat.add_le_add_left (Nat.mul_le_mul_right _ few) 0

end Sample

/-- A request with an event that the log has and one that it has not. -/
theorem appendEventsLocked_transactional_sample : ∃ content log content',
    verifyLogBytes (.serde Sample.sha256) content = .ok log ∧ log.known = Sample.funnel.take 4 ∧
    appendEventsLocked (.serde Sample.sha256) Sample.clock content Sample.request =
      (.ok (), content') ∧
    Extends (.serde Sample.sha256) content log Sample.request content' := by
  have lawful := lawful_serde Sample.digest
  have succeeds : Sample.continued.isOk = true := by decide +kernel
  obtain ⟨batch, continued⟩ : ∃ batch, Sample.continued = .ok batch := by
    cases result : Sample.continued with
    | ok batch => exact ⟨batch, rfl⟩
    | error failure =>
        rw [result] at succeeds
        cases succeeds
  obtain ⟨begun, started, rest⟩ := Result.bind_eq_ok.mp continued
  obtain ⟨byId, indexed, all⟩ := Result.bind_eq_ok.mp rest
  obtain ⟨verifies, -, known, -⟩ :=
    appendAll_verifies lawful Sample.running Sample.verifies_empty started
  have reads : verifyLogBytes (.serde Sample.sha256) begun.encoded = .ok begun.log := verifies.reads
  have tip : begun.log.chainTip.utf8ByteSize ≤ 64 :=
    (utf8ByteSize_of_requireSha256 (checked_of_verifyLogBytes reads).tip).le
  have bound : begun.encoded.length + batch.encoded.length ≤ maxLogBytes :=
    (Nat.add_le_add (Sample.small (by decide) (by decide) started)
      (Sample.small (by decide) tip all)).trans (by decide)
  have succeeded := appendEventsLocked_ok reads indexed all bound
  rcases appendEventsLocked_transactional lawful Sample.running reads Sample.request with
    ⟨failure, failed⟩ | ⟨_, content', done⟩
  · rw [failed] at succeeded
    cases succeeded
  · exact ⟨begun.encoded, begun.log, content', reads, known.trans (by decide), done⟩

end Stratadiff.Value
