import Stratadiff.Verifier.Patch

/-!
# Creating a patch

`patch.rs` of the analyzer. Lines anchor the comparison; every changed region is
trimmed and refined byte by byte within fixed budgets, and the whole file is
replaced when the edit budget runs out part way.

Line and byte comparisons are delegated to a diff engine. The engine is a
parameter: all that is used of it is that its operations tile both sequences in
order and that an `equal` operation covers equal items (`Tiles`).
-/

namespace Stratadiff

open EditScript

inductive Algorithm where
  | myers
  | patience
  deriving DecidableEq, Repr

inductive DiffTag where
  | equal
  | delete
  | insert
  | replace
  deriving DecidableEq, Repr

/-- `DiffOp::as_tag_tuple`: a tag with the ranges it covers on both sides. -/
structure DiffOp where
  tag : DiffTag
  oldStart : Nat
  oldEnd : Nat
  newStart : Nat
  newEnd : Nat
  deriving DecidableEq, Repr

/-- The type of `similar::capture_diff_slices`. -/
abbrev CaptureDiffSlices : Type 1 :=
  ∀ {α : Type} [DecidableEq α], Algorithm → List α → List α → List DiffOp

/-- From `i` and `j` on, the operations cover both sequences in order. -/
def Tiles {α : Type} (old new : List α) : Nat → Nat → List DiffOp → Prop
  | i, j, [] => i = old.length ∧ j = new.length
  | i, j, op :: ops =>
      op.oldStart = i ∧ op.newStart = j ∧ i ≤ op.oldEnd ∧ j ≤ op.newEnd ∧
        op.oldEnd ≤ old.length ∧ op.newEnd ≤ new.length ∧
        (op.tag = .equal → slice old i op.oldEnd = slice new j op.newEnd) ∧
        Tiles old new op.oldEnd op.newEnd ops

/-- What the code relies on: every comparison is an ordered tiling. -/
def CaptureDiffSlices.Tiling (captureDiffSlices : CaptureDiffSlices) : Prop :=
  ∀ (α : Type) [DecidableEq α] (algorithm : Algorithm) (old new : List α),
    Tiles old new 0 0 (captureDiffSlices algorithm old new)

def lineAnchorBudget : Nat := 64 * 1024
def byteMyersBudget : Nat := 64 * 1024
def largeRegionEditBudget : Nat := 4 * 1024
def patchEditBudget : Nat := 64 * 1024

/-- `split_inclusive`: every piece ends in the separator, except possibly the last. -/
def splitInclusive (isSeparator : UInt8 → Bool) : Bytes → List Bytes
  | [] => []
  | byte :: bytes =>
      if isSeparator byte then [byte] :: splitInclusive isSeparator bytes
      else
        match splitInclusive isSeparator bytes with
        | [] => [[byte]]
        | piece :: pieces => (byte :: piece) :: pieces

def splitLines (source : Bytes) : List Bytes := splitInclusive (fun byte => byte == 10) source

/-- The counting loop of `line_anchor_budget_exceeded`. -/
def lineAnchorsExceed : Nat → List Bytes → Bool
  | _, [] => false
  | lineAnchors, _ :: lines =>
      if lineAnchors = lineAnchorBudget then true else lineAnchorsExceed (lineAnchors + 1) lines

def lineAnchorBudgetExceeded (before after : Bytes) : Bool :=
  lineAnchorsExceed 0 (splitLines before ++ splitLines after)

/-- The offset of every line, and of the end. -/
def lineOffsets (lines : List Bytes) : List Nat :=
  lines.scanl (fun offset line => offset + line.length) 0

/-- Number of leading positions at which two sequences agree. -/
def commonLength : Bytes → Bytes → Nat
  | a :: as, b :: bs => if a = b then commonLength as bs + 1 else 0
  | _, _ => 0

/-- Advance a cursor while it is below `stop` and the condition holds. -/
def skipWhile (stop : Nat) (condition : Nat → Bool) (cursor : Nat) : Nat :=
  if cursor < stop ∧ condition cursor then skipWhile stop condition (cursor + 1) else cursor
termination_by stop - cursor

theorem skipWhile_spec {stop : Nat} (condition : Nat → Bool) {cursor : Nat}
    (h : cursor ≤ stop) :
    cursor ≤ skipWhile stop condition cursor ∧ skipWhile stop condition cursor ≤ stop ∧
      (∀ k, cursor ≤ k → k < skipWhile stop condition cursor → condition k = true) ∧
      (skipWhile stop condition cursor < stop →
        condition (skipWhile stop condition cursor) = false) := by
  induction cursor using skipWhile.induct stop condition with
  | case1 cursor holds ih =>
      obtain ⟨lower, upper, before, at_end⟩ := ih holds.1
      rw [skipWhile, if_pos holds]
      refine ⟨by omega, upper, ?_, at_end⟩
      intro k hk hlt
      by_cases first : k = cursor
      · rw [first]
        exact holds.2
      · exact before k (by omega) hlt
  | case2 cursor fails =>
      rw [skipWhile, if_neg fails]
      refine ⟨Nat.le_refl _, h, fun k hk hlt => absurd hlt (by omega), fun hlt => ?_⟩
      by_contra hne
      exact fails ⟨hlt, by simpa using hne⟩

/-- The first position behind a run of equal bytes. -/
def skipEqual (old new : Bytes) (cursor : Nat) : Nat :=
  skipWhile old.length (fun k => decide (old[k]? = new[k]?)) cursor

/-- The first position behind a run of different bytes. -/
def skipDifferent (old new : Bytes) (cursor : Nat) : Nat :=
  skipWhile old.length (fun k => decide (old[k]? ≠ new[k]?)) cursor

theorem skipEqual_spec {old : Bytes} (new : Bytes) {cursor : Nat} (h : cursor ≤ old.length) :
    cursor ≤ skipEqual old new cursor ∧ skipEqual old new cursor ≤ old.length ∧
      (∀ k, cursor ≤ k → k < skipEqual old new cursor → old[k]? = new[k]?) ∧
      (skipEqual old new cursor < old.length →
        old[skipEqual old new cursor]? ≠ new[skipEqual old new cursor]?) := by
  obtain ⟨lower, upper, before, stopped⟩ :=
    skipWhile_spec (fun k => decide (old[k]? = new[k]?)) h
  exact ⟨lower, upper, fun k hk hlt => of_decide_eq_true (before k hk hlt),
    fun hlt => of_decide_eq_false (stopped hlt)⟩

theorem skipDifferent_spec {old new : Bytes} {cursor : Nat} (h : cursor < old.length)
    (mismatch : old[cursor]? ≠ new[cursor]?) :
    cursor < skipDifferent old new cursor ∧ skipDifferent old new cursor ≤ old.length := by
  obtain ⟨_, upper, _, stopped⟩ :=
    skipWhile_spec (fun k => decide (old[k]? ≠ new[k]?)) (Nat.le_of_lt h)
  refine ⟨?_, upper⟩
  rw [skipDifferent, skipWhile, if_pos ⟨h, decide_eq_true mismatch⟩]
  exact (skipWhile_spec _ (Nat.succ_le_of_lt h)).1

/-- The main loop of `refine_large_equal_length_region`. -/
def refineRuns (old new : Bytes) (oldStart editBudget cursor emitted : Nat)
    (edits : List ByteEdit) : List ByteEdit :=
  if inside : cursor < old.length then
    let mismatchStart := skipEqual old new cursor
    if mismatchStart = old.length then edits
    else
      let next := skipDifferent old new mismatchStart
      if emitted + 1 = editBudget then
        edits ++ [⟨oldStart + mismatchStart, oldStart + old.length,
          Base64.encode (slice new mismatchStart new.length)⟩]
      else
        refineRuns old new oldStart editBudget next (emitted + 1)
          (edits ++ [⟨oldStart + mismatchStart, oldStart + next,
            Base64.encode (slice new mismatchStart next)⟩])
  else edits
termination_by old.length - cursor
decreasing_by
  rename_i unequal _
  obtain ⟨lower, upper, _, mismatch⟩ := skipEqual_spec new (Nat.le_of_lt inside)
  have found := Nat.lt_of_le_of_ne upper unequal
  have := skipDifferent_spec found (mismatch found)
  omega

def refineLargeEqualLengthRegion (old new : Bytes) (oldStart : Nat) (edits : List ByteEdit) :
    List ByteEdit :=
  let available := patchEditBudget - edits.length
  let editBudget := min available largeRegionEditBudget
  if editBudget = 0 then edits else refineRuns old new oldStart editBudget 0 0 edits

/-- The loop over the byte operations of one region. The flag is false when the edit
budget is used up. -/
def pushByteEdits (trimmedNew : Bytes) (trimmedOldStart : Nat) :
    List DiffOp → List ByteEdit → Bool × List ByteEdit
  | [], edits => (true, edits)
  | op :: ops, edits =>
      if op.tag = .equal then pushByteEdits trimmedNew trimmedOldStart ops edits
      else if edits.length = patchEditBudget then (false, edits)
      else pushByteEdits trimmedNew trimmedOldStart ops
        (edits ++ [⟨trimmedOldStart + op.oldStart, trimmedOldStart + op.oldEnd,
          Base64.encode (slice trimmedNew op.newStart op.newEnd)⟩])

section

variable (captureDiffSlices : CaptureDiffSlices)

def refineChangedRegion (before after : Bytes) (oldStart oldEnd newStart newEnd : Nat)
    (edits : List ByteEdit) : Bool × List ByteEdit :=
  let old := slice before oldStart oldEnd
  let new := slice after newStart newEnd
  let head := commonLength old new
  let tail := commonLength (old.drop head).reverse (new.drop head).reverse
  let trimmedOldStart := oldStart + head
  let trimmedOldEnd := oldEnd - tail
  let trimmedNewStart := newStart + head
  let trimmedNewEnd := newEnd - tail
  let trimmedOld := slice before trimmedOldStart trimmedOldEnd
  let trimmedNew := slice after trimmedNewStart trimmedNewEnd
  if saturatingAdd trimmedOld.length trimmedNew.length ≤ byteMyersBudget then
    pushByteEdits trimmedNew trimmedOldStart
      (captureDiffSlices .myers trimmedOld trimmedNew) edits
  else if trimmedOld.length = trimmedNew.length then
    if edits.length = patchEditBudget then (false, edits)
    else (true, refineLargeEqualLengthRegion trimmedOld trimmedNew trimmedOldStart edits)
  else
    if edits.length = patchEditBudget then (false, edits)
    else (true, edits ++ [⟨trimmedOldStart, trimmedOldEnd, Base64.encode trimmedNew⟩])

def patchWithEdits (edits : List ByteEdit) : LosslessPatch := ⟨patchAlgorithm, edits⟩

def replacementPatch (before after : Bytes) : LosslessPatch :=
  patchWithEdits (if before = after then [] else [⟨0, before.length, Base64.encode after⟩])

def createByteRefinedPatch (before after : Bytes) : LosslessPatch :=
  match refineChangedRegion captureDiffSlices before after 0 before.length 0 after.length [] with
  | (true, edits) => patchWithEdits edits
  | (false, _) => replacementPatch before after

/-- The loop of `create_patch` over the line operations. -/
def refineLineRegions (before after : Bytes) (beforeOffsets afterOffsets : List Nat) :
    List DiffOp → List ByteEdit → Bool × List ByteEdit
  | [], edits => (true, edits)
  | op :: ops, edits =>
      if op.tag = .equal then refineLineRegions before after beforeOffsets afterOffsets ops edits
      else
        match refineChangedRegion captureDiffSlices before after
            (beforeOffsets.getD op.oldStart 0) (beforeOffsets.getD op.oldEnd 0)
            (afterOffsets.getD op.newStart 0) (afterOffsets.getD op.newEnd 0) edits with
        | (true, edits) =>
            refineLineRegions before after beforeOffsets afterOffsets ops edits
        | (false, edits) => (false, edits)

def createPatch (before after : Bytes) : LosslessPatch :=
  if lineAnchorBudgetExceeded before after then
    createByteRefinedPatch captureDiffSlices before after
  else
    let beforeLines := splitLines before
    let afterLines := splitLines after
    match refineLineRegions captureDiffSlices before after (lineOffsets beforeLines)
        (lineOffsets afterLines) (captureDiffSlices .patience beforeLines afterLines) [] with
    | (true, edits) => patchWithEdits edits
    | (false, _) => replacementPatch before after

end

end Stratadiff
