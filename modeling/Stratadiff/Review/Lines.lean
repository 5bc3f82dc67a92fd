import Stratadiff.Lib.Alignment
import Stratadiff.Review.Analyze

/-!
# The envelope of the changed lines

`line_changes` counts the lines of two texts outside their common front and their common
back. Its subtractions never go below zero, and it never counts fewer lines than a minimal
line diff changes.
-/

namespace Stratadiff

/-- The number of lines that two sequences start with in common. -/
def commonFront (before after : List Bytes) : Nat :=
  ((before.zip after).takeWhile fun pair => pair.1 = pair.2).length

/-- The room that the common front leaves for a common back. -/
def backLimit (before after : List Bytes) : Nat :=
  min before.length after.length - commonFront before after

/-- The number of lines that two sequences end with in common, behind their common front. -/
def commonBack (before after : List Bytes) : Nat :=
  (((before.reverse.zip after.reverse).take (backLimit before after)).takeWhile fun pair =>
    pair.1 = pair.2).length

theorem lineChanges_eq (before after : Bytes) :
    lineChanges before after = do
      let _ ← utf8? before
      let _ ← utf8? after
      let front := commonFront (splitLines before) (splitLines after)
      let back := commonBack (splitLines before) (splitLines after)
      return ⟨(splitLines after).length - front - back,
        (splitLines before).length - front - back⟩ := rfl

/-! ## The common front and the common back -/

section

variable (before after : List Bytes)

/-- Lines that are compared pair by pair until they differ are equal up to there. -/
theorem take_eq_of_takeWhile (limit : Nat) :
    ∃ count, (((before.zip after).take limit).takeWhile fun pair =>
        pair.1 = pair.2).length = count ∧
      count ≤ limit ∧ count ≤ before.length ∧ count ≤ after.length ∧
      before.take count = after.take count := by
  set compared := ((before.zip after).take limit).takeWhile fun pair => pair.1 = pair.2
    with isCompared
  have front : compared <+: (before.zip after).take limit := List.takeWhile_prefix _
  have short := front.length_le
  rw [List.length_take, List.length_zip] at short
  have pairs : (before.zip after).take compared.length = compared :=
    (List.prefix_iff_eq_take.mp (front.trans (List.take_prefix _ _))).symm
  have equal : compared.map Prod.fst = compared.map Prod.snd := by
    refine List.map_congr_left fun pair member => ?_
    simpa using List.mem_takeWhile_imp member
  refine ⟨compared.length, rfl, by omega, by omega, by omega, ?_⟩
  have lengths : (before.take compared.length).length = (after.take compared.length).length := by
    rw [List.length_take, List.length_take]
    omega
  have split : (before.zip after).take compared.length =
      (before.take compared.length).zip (after.take compared.length) := List.take_zipWith
  rwa [← pairs, split, List.map_fst_zip lengths.le, List.map_snd_zip lengths.ge] at equal

/-- Two sequences of lines are a common front, what differs, and a common back. -/
theorem exists_common_ends :
    ∃ front middle middle' back, before = front ++ middle ++ back ∧
      after = front ++ middle' ++ back ∧ front.length = commonFront before after ∧
      back.length = commonBack before after := by
  obtain ⟨front, isFront, -, frontBefore, frontAfter, fronts⟩ :=
    take_eq_of_takeWhile before after (before.zip after).length
  rw [List.take_length] at isFront
  obtain ⟨back, isBack, room, -, -, backs⟩ :=
    take_eq_of_takeWhile before.reverse after.reverse (backLimit before after)
  rw [backLimit, commonFront, isFront] at room
  have reversed : before.drop (before.length - back) = after.drop (after.length - back) := by
    rw [← List.reverse_inj, List.reverse_drop, List.reverse_drop]
    convert backs using 2
    · omega
    · omega
  have whole (lines : List Bytes) (room : front + back ≤ lines.length) :
      lines = lines.take front ++ (lines.drop front).take (lines.length - front - back) ++
        lines.drop (lines.length - back) := by
    have rest : (lines.drop front).drop (lines.length - front - back) =
        lines.drop (lines.length - back) := by
      rw [List.drop_drop]
      congr 1
      omega
    rw [List.append_assoc, ← rest, List.take_append_drop, List.take_append_drop]
  refine ⟨before.take front, (before.drop front).take (before.length - front - back),
    (after.drop front).take (after.length - front - back), before.drop (before.length - back),
    whole before (by omega), ?_, ?_, ?_⟩
  · rw [fronts, reversed]
    exact whole after (by omega)
  · rw [List.length_take, commonFront, isFront]
    omega
  · rw [List.length_drop, commonBack, isBack]
    omega

end

/-- What an envelope says of two sequences of lines. A line diff keeps the lines of an
alignment; a minimal one keeps as many as can be kept. -/
structure LineChangeEnvelope.Encloses (envelope : LineChangeEnvelope) (before after : List Bytes) :
    Prop where
  apart : commonFront before after + commonBack before after ≤
    min before.length after.length
  ends : ∃ front middle middle' back, before = front ++ middle ++ back ∧
    after = front ++ middle' ++ back ∧ front.length = commonFront before after ∧
    back.length = commonBack before after ∧
    middle.length = envelope.deletions ∧ middle'.length = envelope.additions
  unchanged : envelope.additions = 0 ∧ envelope.deletions = 0 ↔ before = after
  balance : (envelope.additions : Int) - envelope.deletions = after.length - before.length
  minimal : ∀ kept, IsMaximum (· = ·) before after kept →
    after.length - kept.length ≤ envelope.additions ∧
    before.length - kept.length ≤ envelope.deletions

/-- Equal sequences start with all their lines. -/
theorem commonFront_self (lines : List Bytes) : commonFront lines lines = lines.length := by
  have equal : ∀ pair ∈ lines.zip lines, decide (pair.1 = pair.2) = true := by
    intro pair member
    obtain ⟨index, _, rfl⟩ := List.mem_iff_getElem.mp member
    rw [List.getElem_zip]
    exact decide_eq_true rfl
  rw [commonFront, List.takeWhile_eq_self_iff.mpr equal, List.length_zip, Nat.min_self]

/-- The lines outside the common ends enclose every minimal diff. -/
theorem encloses_of_ends {before after front middle middle' back : List Bytes}
    (isBefore : before = front ++ middle ++ back) (isAfter : after = front ++ middle' ++ back)
    (isFront : front.length = commonFront before after)
    (isBack : back.length = commonBack before after) :
    LineChangeEnvelope.Encloses ⟨middle'.length, middle.length⟩ before after := by
  have beforeLength : before.length = front.length + middle.length + back.length := by
    simp [isBefore, Nat.add_assoc]
  have afterLength : after.length = front.length + middle'.length + back.length := by
    simp [isAfter, Nat.add_assoc]
  refine ⟨by omega, ⟨front, middle, middle', back, isBefore, isAfter, isFront, isBack, rfl, rfl⟩,
    ?_, by push_cast [beforeLength, afterLength]; ring, fun kept maximum => ?_⟩
  · constructor
    · rintro ⟨added, deleted⟩
      rw [isBefore, isAfter, List.length_eq_zero_iff.mp added, List.length_eq_zero_iff.mp deleted]
    · rintro rfl
      rw [commonFront_self] at isFront
      exact ⟨by simp only; omega, by simp only; omega⟩
  · have common := common_le_maximum front middle middle' back
    rw [← isBefore, ← isAfter, ← maximum.longest] at common
    exact ⟨by simp only; omega, by simp only; omega⟩

/-- `line_changes` counts the lines of texts only. What it takes off the lines is there, and
its counts enclose every minimal line diff. -/
theorem line_change_envelope (before after : Bytes) :
    (lineChanges before after = none ↔ utf8? before = none ∨ utf8? after = none) ∧
      ∀ envelope, lineChanges before after = some envelope →
        envelope.Encloses (splitLines before) (splitLines after) := by
  rw [lineChanges_eq]
  cases text : utf8? before with
  | none => exact ⟨by simp, by simp⟩
  | some _ =>
      cases text' : utf8? after with
      | none => exact ⟨by simp, by simp⟩
      | some _ =>
          refine ⟨by simp, ?_⟩
          rintro envelope ⟨⟩
          obtain ⟨front, middle, middle', back, isBefore, isAfter, isFront, isBack⟩ :=
            exists_common_ends (splitLines before) (splitLines after)
          have encloses := encloses_of_ends isBefore isAfter isFront isBack
          have beforeLength := congrArg List.length isBefore
          have afterLength := congrArg List.length isAfter
          simp only [List.length_append] at beforeLength afterLength
          rw [← isFront, ← isBack]
          convert encloses using 2
          · omega
          · omega

end Stratadiff
