import Stratadiff.Governor.Evaluate
import Stratadiff.Governor.Ingest
import Stratadiff.Lib.Keyed
import Stratadiff.Lib.Newest

/-!
# Evidence in any order

An upsert keeps, of all evidence from one source, what is newest, and among equally new
evidence what is not valid. This is the greatest element of an order, so that the order in
which the evidence arrives does not matter.
-/

namespace Stratadiff.Governor

/-- What is unique in the table `evidence`. -/
structure EvidenceKey where
  pairId : PairId
  pairEpoch : Nat
  kind : EvidenceKind
  sourceId : Nat
  deriving DecidableEq, Repr

def EvidenceRecord.key (record : EvidenceRecord) : EvidenceKey :=
  ⟨record.pairId, record.pairEpoch, record.facts.kind, record.sourceId⟩

/-- Newer evidence stands above older, and at one time what is not valid above what is. -/
def EvidenceRecord.standing (record : EvidenceRecord) : Lex (Time × Bool) :=
  toLex (record.sourceUpdatedAt, !record.valid)

/-- Updates that arrive one after another. -/
def upsertAll (updates : List EvidenceRecord) : Tx Unit :=
  updates.forM fun update => upsertEvidence update.pairId update.pairEpoch update.toEvidenceInput

section

variable {rows : List EvidenceRecord} {row update : EvidenceRecord}

theorem sameSource_iff :
    row.sameSource update.pairId update.pairEpoch update.toEvidenceInput = true ↔
      row.key = update.key := by
  simp only [EvidenceRecord.sameSource, EvidenceRecord.key, Bool.and_eq_true, beq_iff_eq,
    EvidenceKey.mk.injEq, and_assoc]

theorem replaces_iff :
    update.toEvidenceInput.replaces row = true ↔ row.standing < update.standing := by
  simp only [EvidenceInput.replaces, EvidenceRecord.standing, Prod.Lex.lt_iff, ofLex_toLex,
    Bool.or_eq_true, Bool.and_eq_true, beq_iff_eq, decide_eq_true_eq, Bool.not_eq_true']
  cases row.valid <;> cases update.valid <;> simp [eq_comm]

/-- The rows under their keys. -/
def evidenceEntries (rows : List EvidenceRecord) : List (EvidenceKey × EvidenceRecord) :=
  rows.map fun row => (row.key, row)

theorem evidenceEntries_keys : (evidenceEntries rows).map Prod.fst = rows.map (·.key) := by
  rw [evidenceEntries, List.map_map]
  rfl

theorem mem_evidenceEntries {key : EvidenceKey} :
    (key, row) ∈ evidenceEntries rows ↔ row ∈ rows ∧ row.key = key := by
  rw [evidenceEntries, List.mem_map]
  constructor
  · rintro ⟨_, member, same⟩
    obtain ⟨rfl, rfl⟩ := Prod.mk.inj same
    exact ⟨member, rfl⟩
  · rintro ⟨member, rfl⟩
    exact ⟨row, member, rfl⟩

/-- Where no row has the key of an update, the update becomes the last row. -/
theorem insert_absent (absent : ∀ row ∈ rows, row.key ≠ update.key) :
    Newest.insert update.key update (evidenceEntries rows) =
      evidenceEntries (rows ++ [update]) := by
  induction rows with
  | nil => rfl
  | cons row rows ih =>
      rw [List.forall_mem_cons] at absent
      show Newest.insert _ _ ((row.key, row) :: evidenceEntries rows) = _
      rw [Newest.insert, if_neg absent.1, ih absent.2]
      rfl

/-- An update takes the place of the one row with its key. -/
theorem insert_present (unique : (rows.map (·.key)).Nodup) (member : row ∈ rows)
    (same : row.key = update.key) :
    Newest.insert update.key update (evidenceEntries rows) =
      evidenceEntries (rows.map fun row => if row.key = update.key then update else row) := by
  induction rows with
  | nil => cases member
  | cons first rows ih =>
      rw [List.map_cons, List.nodup_cons] at unique
      show Newest.insert _ _ ((first.key, first) :: evidenceEntries rows) = _
      rw [Newest.insert, List.map_cons]
      by_cases here : first.key = update.key
      · have others :
            (rows.map fun row => if row.key = update.key then update else row) = rows := by
          refine (List.map_congr_left fun other there => if_neg fun again => ?_).trans
            (List.map_id _)
          exact unique.1 (List.mem_map.mpr ⟨other, there, again.trans here.symm⟩)
        rw [if_pos here, if_pos here, others]
        rfl
      · have later : row ∈ rows := by
          obtain rfl | later := List.mem_cons.mp member
          · exact absurd same here
          · exact later
        rw [if_neg here, if_neg here, ih unique.2 later]
        rfl

/-- An upsert keeps what stands highest. -/
theorem evidenceEntries_upserted (unique : (rows.map (·.key)).Nodup) :
    evidenceEntries (upserted rows update.pairId update.pairEpoch update.toEvidenceInput) =
      Newest.advance EvidenceRecord.standing (evidenceEntries rows) update.key update := by
  have nodup : ((evidenceEntries rows).map Prod.fst).Nodup := by rwa [evidenceEntries_keys]
  rw [upserted, Newest.advance]
  by_cases present : ∃ row ∈ rows, row.key = update.key
  · obtain ⟨row, member, same⟩ := present
    have found : (evidenceEntries rows).lookup update.key = some row :=
      (OrderedMap.lookup_eq_some nodup).mpr (mem_evidenceEntries.mpr ⟨member, same⟩)
    have any :
        rows.any (·.sameSource update.pairId update.pairEpoch update.toEvidenceInput) = true :=
      List.any_eq_true.mpr ⟨row, member, sameSource_iff.mpr same⟩
    rw [if_pos any, found, Option.all_some]
    have only : ∀ other ∈ rows, other.key = update.key → other = row := fun other there again =>
      Keyed.eq_of_key unique there member (again.trans same.symm)
    by_cases newer : row.standing < update.standing
    · rw [if_pos (decide_eq_true newer), insert_present unique member same]
      refine congrArg evidenceEntries (List.map_congr_left fun other there => ?_)
      by_cases again : other.key = update.key
      · obtain rfl := only other there again
        have holds : (other.sameSource update.pairId update.pairEpoch update.toEvidenceInput &&
            update.toEvidenceInput.replaces other) = true := by
          rw [sameSource_iff.mpr again, replaces_iff.mpr newer, Bool.and_self]
        rw [if_pos holds, if_pos again]
        obtain ⟨pair, epoch, _⟩ := EvidenceKey.mk.inj again
        show ({ update with pairId := other.pairId, pairEpoch := other.pairEpoch } :
          EvidenceRecord) = _
        rw [pair, epoch]
      · rw [if_neg again]
        refine if_neg fun holds => again ?_
        exact sameSource_iff.mp (Bool.and_eq_true_iff.mp holds).1
    · rw [if_neg (by simpa using newer)]
      refine congrArg evidenceEntries ((List.map_congr_left fun other there => ?_).trans
        (List.map_id _))
      refine if_neg fun holds => newer ?_
      obtain ⟨again, replaces⟩ := Bool.and_eq_true_iff.mp holds
      rw [← only other there (sameSource_iff.mp again)]
      exact replaces_iff.mp replaces
  · have absent : ∀ row ∈ rows, row.key ≠ update.key := fun row member same =>
      present ⟨row, member, same⟩
    have unmatched :
        rows.any (·.sameSource update.pairId update.pairEpoch update.toEvidenceInput) = false :=
      List.any_eq_false.mpr fun row member holds => absent row member (sameSource_iff.mp holds)
    have missing : (evidenceEntries rows).lookup update.key = none := by
      cases found : (evidenceEntries rows).lookup update.key with
      | none => rfl
      | some row =>
          obtain ⟨member, same⟩ :=
            mem_evidenceEntries.mp ((OrderedMap.lookup_eq_some nodup).mp found)
          exact absurd same (absent row member)
    rw [unmatched, missing, if_neg Bool.false_ne_true, Option.all_none, if_pos rfl,
      insert_absent absent]

/-- What a run of upserts keeps. -/
theorem upsertAll_holds {db : Database} {entries : List (EvidenceKey × EvidenceRecord)}
    (holds : Newest.Holds EvidenceRecord.standing entries (evidenceEntries db.evidence))
    (updates : List EvidenceRecord) :
    ∃ kept, upsertAll updates db = .ok ((), { db with evidence := kept }) ∧
      Newest.Holds EvidenceRecord.standing (entries ++ evidenceEntries updates)
        (evidenceEntries kept) := by
  induction updates generalizing db entries with
  | nil => exact ⟨db.evidence, rfl, by simpa [evidenceEntries] using holds⟩
  | cons update updates ih =>
      have unique : (db.evidence.map (·.key)).Nodup := by
        rw [← evidenceEntries_keys]
        exact holds.groups
      let rows := upserted db.evidence update.pairId update.pairEpoch update.toEvidenceInput
      have next : Newest.Holds EvidenceRecord.standing (entries ++ [(update.key, update)])
          (evidenceEntries { db with evidence := rows }.evidence) := by
        show Newest.Holds _ _ (evidenceEntries rows)
        rw [evidenceEntries_upserted unique]
        exact holds.advance update.key update
      obtain ⟨kept, run, final⟩ := ih next
      refine ⟨kept, run, ?_⟩
      rwa [List.append_assoc, List.singleton_append] at final

/-! ## What is stored -/

/-- A row is what some updates of its key come to. -/
structure Merged (updates : List EvidenceRecord) (row : EvidenceRecord) : Prop where
  newest : ∀ update ∈ updates, update.sourceUpdatedAt ≤ row.sourceUpdatedAt
  reached : ∃ update ∈ updates, update.sourceUpdatedAt = row.sourceUpdatedAt
  valid : row.valid = true ↔
    ∀ update ∈ updates, update.sourceUpdatedAt = row.sourceUpdatedAt → update.valid = true

theorem standing_le_iff : update.standing ≤ row.standing ↔
    update.sourceUpdatedAt < row.sourceUpdatedAt ∨
      (update.sourceUpdatedAt = row.sourceUpdatedAt ∧
        (row.valid = true → update.valid = true)) := by
  simp only [EvidenceRecord.standing, Prod.Lex.le_iff, ofLex_toLex]
  cases row.valid <;> cases update.valid <;> simp

theorem Merged.of_greatest {updates : List EvidenceRecord} (member : row ∈ updates)
    (greatest : ∀ update ∈ updates, update.standing ≤ row.standing) : Merged updates row where
  newest update there := by
    obtain older | ⟨same, _⟩ := standing_le_iff.mp (greatest update there)
    · exact older.le
    · exact same.le
  reached := ⟨row, member, rfl⟩
  valid := by
    constructor
    · intro valid update there same
      obtain older | ⟨_, keeps⟩ := standing_le_iff.mp (greatest update there)
      · exact absurd same older.ne
      · exact keeps valid
    · exact fun all => all row member rfl

/-- Two rows that the same updates come to agree in time and validity. -/
theorem Merged.agree {updates order : List EvidenceRecord} {other : EvidenceRecord}
    (merged : Merged updates row) (merged' : Merged order other)
    (same : ∀ update, update ∈ order ↔ update ∈ updates) :
    other.sourceUpdatedAt = row.sourceUpdatedAt ∧ other.valid = row.valid := by
  obtain ⟨update, there, time⟩ := merged.reached
  obtain ⟨update', there', time'⟩ := merged'.reached
  have times : other.sourceUpdatedAt = row.sourceUpdatedAt := le_antisymm
    (time' ▸ merged.newest update' ((same _).mp there'))
    (time ▸ merged'.newest update ((same _).mpr there))
  refine ⟨times, Bool.eq_iff_iff.mpr ?_⟩
  rw [merged.valid, merged'.valid, times]
  simp only [same]

/-- An update that does not stand above the row of its key changes nothing. -/
theorem upserted_of_le (unique : (rows.map (·.key)).Nodup) (member : row ∈ rows)
    (same : row.key = update.key) (below : update.standing ≤ row.standing) :
    upserted rows update.pairId update.pairEpoch update.toEvidenceInput = rows := by
  have nodup : ((evidenceEntries rows).map Prod.fst).Nodup := by rwa [evidenceEntries_keys]
  have found : (evidenceEntries rows).lookup update.key = some row :=
    (OrderedMap.lookup_eq_some nodup).mpr (mem_evidenceEntries.mpr ⟨member, same⟩)
  have kept :
      evidenceEntries (upserted rows update.pairId update.pairEpoch update.toEvidenceInput) =
      Newest.advance EvidenceRecord.standing (evidenceEntries rows) update.key update :=
    evidenceEntries_upserted unique
  rw [Newest.advance, found, Option.all_some, if_neg (by simpa using below)] at kept
  have values : ∀ rows : List EvidenceRecord, (evidenceEntries rows).map Prod.snd = rows := by
    intro rows
    rw [evidenceEntries, List.map_map]
    exact List.map_id _
  rw [← values (upserted rows _ _ _), kept, values]

end

/-- The upserts of any updates, in any order, keep for each key one row: its time is the newest of
the updates with its key, and it is valid exactly when all of them with that time are. What is not
valid is not undone by what is valid and not newer. -/
theorem evidence_merge {db : Database} (unique : (db.evidence.map (·.key)).Nodup)
    (updates : List EvidenceRecord) :
    ∃ kept, upsertAll updates db = .ok ((), { db with evidence := kept }) ∧
      (kept.map (·.key)).Nodup ∧
      (∀ key, (∃ row ∈ kept, row.key = key) ↔ ∃ update ∈ db.evidence ++ updates, update.key = key) ∧
      (∀ row ∈ kept, Merged ((db.evidence ++ updates).filter (·.key = row.key)) row) ∧
      (∀ order : List EvidenceRecord, order.Perm updates →
        ∃ kept', upsertAll order db = .ok ((), { db with evidence := kept' }) ∧
          ∀ row ∈ kept, ∃ other ∈ kept', other.key = row.key ∧
            other.sourceUpdatedAt = row.sourceUpdatedAt ∧ other.valid = row.valid) ∧
      ∀ row ∈ kept, row.valid = false → ∀ update : EvidenceRecord, update.key = row.key →
        update.sourceUpdatedAt ≤ row.sourceUpdatedAt →
          upsertAll [update] { db with evidence := kept } =
            .ok ((), { db with evidence := kept }) := by
  have start : Newest.Holds EvidenceRecord.standing (evidenceEntries db.evidence)
      (evidenceEntries db.evidence) := by
    refine ⟨?_, fun _ => id, fun entry member => ⟨entry.2, member, le_refl _⟩⟩
    rwa [evidenceEntries_keys]
  -- what a run in any order keeps, in terms of rows
  have runs (order : List EvidenceRecord) : ∃ kept,
      upsertAll order db = .ok ((), { db with evidence := kept }) ∧ (kept.map (·.key)).Nodup ∧
      (∀ key, (∃ row ∈ kept, row.key = key) ↔ ∃ update ∈ db.evidence ++ order, update.key = key) ∧
      ∀ row ∈ kept, Merged ((db.evidence ++ order).filter (·.key = row.key)) row := by
    obtain ⟨kept, run, holds⟩ := upsertAll_holds start order
    have all : evidenceEntries db.evidence ++ evidenceEntries order =
        evidenceEntries (db.evidence ++ order) := List.map_append.symm
    rw [all] at holds
    refine ⟨kept, run, evidenceEntries_keys ▸ holds.groups, ?_, ?_⟩
    · intro key
      constructor
      · rintro ⟨row, member, rfl⟩
        obtain ⟨there, same⟩ := mem_evidenceEntries.mp
          (holds.among _ (mem_evidenceEntries.mpr ⟨member, rfl⟩))
        exact ⟨row, there, same⟩
      · rintro ⟨update, there, rfl⟩
        obtain ⟨row, member, _⟩ := holds.reached _ (mem_evidenceEntries.mpr ⟨there, rfl⟩)
        exact ⟨row, mem_evidenceEntries.mp member⟩
    · intro row member
      have stored := mem_evidenceEntries.mpr ⟨member, rfl⟩
      refine .of_greatest ?_ ?_
      · exact List.mem_filter.mpr
          ⟨(mem_evidenceEntries.mp (holds.among _ stored)).1, decide_eq_true rfl⟩
      · intro update there
        obtain ⟨there, same⟩ := List.mem_filter.mp there
        exact holds.greatest stored (mem_evidenceEntries.mpr ⟨there, of_decide_eq_true same⟩)
  obtain ⟨kept, run, nodup, keys, merged⟩ := runs updates
  refine ⟨kept, run, nodup, keys, merged, ?_, ?_⟩
  · intro order perm
    obtain ⟨kept', run', _, keys', merged'⟩ := runs order
    have same : (db.evidence ++ order).Perm (db.evidence ++ updates) := perm.append_left _
    refine ⟨kept', run', ?_⟩
    intro row member
    obtain ⟨update, there, key⟩ := (keys row.key).mp ⟨row, member, rfl⟩
    obtain ⟨other, member', key'⟩ := (keys' row.key).mpr ⟨update, same.mem_iff.mpr there, key⟩
    refine ⟨other, member', key', (merged row member).agree (merged' other member') ?_⟩
    intro update
    rw [key', List.mem_filter, List.mem_filter, same.mem_iff]
  · intro row member invalid update key older
    have below : update.standing ≤ row.standing := by
      rw [standing_le_iff, invalid]
      exact older.lt_or_eq.imp_right fun same => ⟨same, fun h => absurd h Bool.false_ne_true⟩
    have same := upserted_of_le nodup member key.symm below
    show Except.ok ((), { db with evidence := upserted kept _ _ _ }) = _
    rw [same]

/-- A review, and its dismissal in the same second. -/
theorem evidence_merge_sample :
    let review (valid : Bool) : EvidenceRecord :=
      ⟨⟨7, 60, valid, .review ⟨1, "coderabbitai", "Bot", "https://github.com/coderabbitai"⟩
        "APPROVED" "c1" 60 false none⟩, 0, 1⟩
    ∃ kept, upsertAll [review false, review true] .empty =
        .ok ((), { Database.empty with evidence := kept }) ∧
      ∀ row ∈ kept, Merged ((Database.empty.evidence ++ [review false, review true]).filter
        (·.key = row.key)) row := by
  intro review
  have start : (Database.empty.evidence.map (·.key)).Nodup := List.nodup_nil
  obtain ⟨kept, run, _, _, merged, _⟩ := evidence_merge start [review false, review true]
  exact ⟨kept, run, merged⟩

/-! ## The decision -/

section

variable {records others : List EvidenceRecord}

/-- The order in which `latest` puts the records of a kind. -/
abbrev NewestFirst (left right : EvidenceRecord) : Prop :=
  right.sourceUpdatedAt < left.sourceUpdatedAt ∨
    right.sourceUpdatedAt = left.sourceUpdatedAt ∧ right.sourceId ≤ left.sourceId

theorem newestFirst_iff {left right : EvidenceRecord} : NewestFirst left right ↔
    toLex (right.sourceUpdatedAt, right.sourceId) ≤
      toLex (left.sourceUpdatedAt, left.sourceId) := by
  rw [Prod.Lex.toLex_le_toLex]

theorem newestFirst_pairwise (xs : List EvidenceRecord) :
    (xs.insertionSort NewestFirst).Pairwise NewestFirst := by
  have trans : IsTrans EvidenceRecord NewestFirst := by
    refine ⟨fun x y z first second => ?_⟩
    rw [newestFirst_iff] at *
    exact second.trans first
  have total : Std.Total NewestFirst := by
    refine ⟨fun x y => ?_⟩
    rw [newestFirst_iff, newestFirst_iff]
    exact le_total _ _
  exact List.pairwise_insertionSort _ xs

/-- Records of one kind with different ids have one newest. -/
theorem latest_eq_of_perm (kind : EvidenceKind)
    (distinct : (records.map fun record => (record.facts.kind, record.sourceId)).Nodup)
    (same : (others.filter authenticated).Perm (records.filter authenticated)) :
    latest others kind = latest records kind := by
  have ofKind (xs : List EvidenceRecord) :
      xs.filter (fun record => record.facts.kind == kind && authenticated record) =
        (xs.filter authenticated).filter fun record => record.facts.kind == kind := by
    rw [List.filter_filter]
  have perm := same.filter fun record => record.facts.kind == kind
  rw [← ofKind, ← ofKind] at perm
  have sorted := (List.perm_insertionSort NewestFirst _).trans
    (perm.trans (List.perm_insertionSort NewestFirst _).symm)
  refine congrArg List.head?
    (sorted.eq_of_pairwise ?_ (newestFirst_pairwise _) (newestFirst_pairwise _))
  intro left right hl hr below above
  have hl := perm.mem_iff.mp ((List.perm_insertionSort _ _).mem_iff.mp hl)
  have hr := (List.perm_insertionSort _ _).mem_iff.mp hr
  simp only [List.mem_filter, Bool.and_eq_true, beq_iff_eq] at hl hr
  obtain ⟨hl, kindLeft, _⟩ := hl
  obtain ⟨hr, kindRight, _⟩ := hr
  have equal := le_antisymm (newestFirst_iff.mp above) (newestFirst_iff.mp below)
  have ids : left.sourceId = right.sourceId := congrArg Prod.snd (toLex.injective equal)
  exact Keyed.eq_of_key distinct hl hr (Prod.ext (kindLeft.trans kindRight.symm) ids)

/-- The decision about a pair depends only on the authenticated evidence, whatever its order:
unauthenticated records may be added, left out or altered. -/
theorem evaluatePair_authenticated (parseUrl : UrlParser) (snapshot : PairSnapshot) (now : Time)
    (evidence : List EvidenceRecord)
    (distinct : (snapshot.evidence.map fun record => (record.facts.kind, record.sourceId)).Nodup)
    (same : (evidence.filter authenticated).Perm (snapshot.evidence.filter authenticated)) :
    evaluatePair parseUrl { snapshot with evidence } now = evaluatePair parseUrl snapshot now := by
  have equal (kind : EvidenceKind) : latest evidence kind = latest snapshot.evidence kind :=
    latest_eq_of_perm kind distinct same
  unfold evaluatePair
  simp only [PairSnapshot.quarantined, equal]
  rfl

end

/-- The provider's status, review and acknowledgement of a sent command pass the gate. A stranger
who requests changes, fails the status and answers the command later does not alter that. -/
theorem evaluatePair_authenticated_sample :
    let avatar := "https://avatars.githubusercontent.com/in/347564"
    let parseUrl : UrlParser := fun text =>
      if text = avatar then some ⟨"https:", "avatars.githubusercontent.com", "/in/347564", "", ""⟩
      else none
    let status (author : Author) (sourceId : Nat) (state : String) (time : Time) : EvidenceRecord :=
      ⟨⟨sourceId, time, true,
        .status author state "CodeRabbit" (some "Review completed") (some avatar) time⟩, 0, 1⟩
    let review (author : Author) (sourceId : Nat) (state : String) (time : Time) : EvidenceRecord :=
      ⟨⟨sourceId, time, true, .review author state "h1" time true none⟩, 0, 1⟩
    let answer (author : Author) (sourceId : Nat) (time : Time) : EvidenceRecord :=
      ⟨⟨sourceId, time, true, .issueComment author time time true (some "c1") "s1"⟩, 0, 1⟩
    let provider : Author :=
      ⟨Coderabbit.botId, Coderabbit.botLogin, "Bot", Coderabbit.appUrl⟩
    let stranger : Author := ⟨1, Coderabbit.botLogin, "User", Coderabbit.appUrl⟩
    let genuine := [status provider 20 "success" 3000, review provider 21 "APPROVED" 3000,
      answer provider 22 3000]
    let mixed := [review stranger 31 "CHANGES_REQUESTED" 3500, answer provider 22 3000,
      status stranger 30 "failure" 3500, review provider 21 "APPROVED" 3000,
      status provider 20 "success" 3000, answer stranger 32 3500]
    let snapshot (evidence : List EvidenceRecord) : PairSnapshot :=
      ⟨0, 1, 7, "octo/app", 5, "b1", "h1", 1, true, none, false, .opened,
        some ⟨0, 1, .sent, some 50, some 2000, some 9000, 1000⟩, evidence⟩
    evaluatePair parseUrl (snapshot mixed) 4000 = evaluatePair parseUrl (snapshot genuine) 4000 ∧
      (evaluatePair parseUrl (snapshot genuine) 4000).state = .success := by
  intro avatar parseUrl status review answer provider stranger genuine mixed snapshot
  have passes :
      (evaluatePair parseUrl (snapshot genuine) 4000).state = .success := by decide +kernel
  have unaltered : evaluatePair parseUrl (snapshot mixed) 4000 =
      evaluatePair parseUrl (snapshot genuine) 4000 :=
    evaluatePair_authenticated parseUrl (snapshot genuine) 4000 mixed (by decide +kernel)
      (by decide +kernel)
  exact ⟨unaltered, passes⟩

end Stratadiff.Governor
