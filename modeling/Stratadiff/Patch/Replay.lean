import Stratadiff.Patch.Create

/-!
# Created patches replay

Whatever path `create_patch` takes, the edits it has pushed when it reaches a
pair of positions rewrite the bytes before them into the bytes of the target
before them (`Progress`). Every construction step advances the positions and
keeps this; the fallback starts over with a single edit.
-/

namespace Stratadiff

open EditScript

/-- The edits pushed so far turn `before` up to `i` into `after` up to `j`, and they
are within the edit budget. -/
def Progress (before after : Bytes) (i j : Nat) (edits : List ByteEdit) : Prop :=
  edits.length ≤ patchEditBudget ∧
    ∃ script, Denotes edits script ∧ Rewrites before after 0 0 script i j

section

variable {before after : Bytes} {i j : Nat} {edits : List ByteEdit}

theorem Progress.start (before after : Bytes) : Progress before after 0 0 [] :=
  ⟨by decide, [], .nil, .refl (Nat.zero_le _) (Nat.zero_le _)⟩

/-- Equal stretches are passed over. -/
theorem Progress.skip (h : Progress before after i j edits) (i' j' : Nat) (hi : i ≤ i')
    (hj : j ≤ j')
    (hx : i' ≤ before.length) (hy : j' ≤ after.length)
    (equal : slice before i i' = slice after j j') : Progress before after i' j' edits := by
  obtain ⟨count, script, denotes, rewrites⟩ := h
  refine ⟨count, script, denotes, ?_⟩
  simpa using rewrites.trans (.copy hi hj hx hy equal)

/-- One more edit replaces a stretch as a whole. -/
theorem Progress.push (h : Progress before after i j edits) (i' j' : Nat)
    (room : edits.length < patchEditBudget) (hi : i ≤ i') (hj : j ≤ j') (hx : i' ≤ before.length)
    (hy : j' ≤ after.length) :
    Progress before after i' j' (edits ++ [⟨i, i', Base64.encode (slice after j j')⟩]) := by
  obtain ⟨_, script, denotes, rewrites⟩ := h
  refine ⟨by simpa using room, script ++ [⟨i, i', slice after j j'⟩], ?_,
    rewrites.trans (.replace hi hj hx hy)⟩
  refine List.rel_append denotes (.cons ?_ .nil)
  simp [ByteEdit.decode, Base64.decode_encode]

end

section

variable {before after : Bytes} {oldStart oldEnd newStart newEnd : Nat}

/-- The loop over the byte operations of a region reaches the region's end, unless
the edit budget runs out. -/
theorem pushByteEdits_progress {ops : List DiffOp} {edits edits' : List ByteEdit} {i j : Nat}
    (hx : oldEnd ≤ before.length) (hy : newEnd ≤ after.length)
    (tiles : Tiles (slice before oldStart oldEnd) (slice after newStart newEnd) i j ops)
    (source : oldStart ≤ oldEnd) (target : newStart ≤ newEnd)
    (h : Progress before after (oldStart + i) (newStart + j) edits)
    (done : pushByteEdits (slice after newStart newEnd) oldStart ops edits = (true, edits')) :
    Progress before after oldEnd newEnd edits' := by
  have oldLength := slice_length before oldStart hx
  have newLength := slice_length after newStart hy
  induction ops generalizing i j edits with
  | nil =>
      obtain ⟨rfl, rfl⟩ := tiles
      cases done
      rw [oldLength, newLength] at h
      have oldStop : oldStart + (oldEnd - oldStart) = oldEnd := by omega
      have newStop : newStart + (newEnd - newStart) = newEnd := by omega
      rwa [oldStop, newStop] at h
  | cons op ops ih =>
      obtain ⟨rfl, rfl, hi, hj, hi', hj', equal, rest⟩ := tiles
      rw [oldLength] at hi'
      rw [newLength] at hj'
      by_cases tag : op.tag = .equal
      · rw [pushByteEdits, if_pos tag] at done
        refine ih rest (h.skip _ _ (by omega) (by omega) (by omega) (by omega) ?_) done
        have := equal tag
        rwa [slice_slice (by omega), slice_slice (by omega)] at this
      · rw [pushByteEdits, if_neg tag] at done
        by_cases full : edits.length = patchEditBudget
        · rw [if_pos full] at done
          cases done
        · rw [if_neg full, slice_slice (by omega)] at done
          have room := Nat.lt_of_le_of_ne h.1 full
          exact ih rest (h.push _ _ room (by omega) (by omega) (by omega) (by omega)) done

theorem skipEqual_slice {old : Bytes} (new : Bytes) {cursor : Nat} (h : cursor ≤ old.length) :
    slice old cursor (skipEqual old new cursor) = slice new cursor (skipEqual old new cursor) := by
  obtain ⟨lower, _, agree, _⟩ := skipEqual_spec new h
  have stop : cursor + (skipEqual old new cursor - cursor) = skipEqual old new cursor := by omega
  have := slice_eq_getElem? old new (a := cursor)
    (b := skipEqual old new cursor) (c := cursor)
    (fun k hk => agree (cursor + k) (Nat.le_add_right _ _) (by omega))
  rwa [stop] at this

/-- The runs of an aligned region reach its end: each run of differing bytes becomes an
edit, and the last edit of the budget takes in everything left. -/
theorem refineRuns_progress {cursor emitted editBudget : Nat} {edits : List ByteEdit}
    (hx : oldEnd ≤ before.length) (hy : newEnd ≤ after.length) (source : oldStart ≤ oldEnd)
    (target : newStart ≤ newEnd) (aligned : oldEnd - oldStart = newEnd - newStart)
    (inside : cursor ≤ oldEnd - oldStart) (left : emitted < editBudget)
    (budget : edits.length + (editBudget - emitted) ≤ patchEditBudget)
    (h : Progress before after (oldStart + cursor) (newStart + cursor) edits) :
    Progress before after oldEnd newEnd
      (refineRuns (slice before oldStart oldEnd) (slice after newStart newEnd) oldStart
        editBudget cursor emitted edits) := by
  have oldLength := slice_length before oldStart hx
  have newLength := slice_length after newStart hy
  have oldStop : oldStart + (oldEnd - oldStart) = oldEnd := by omega
  have newStop : newStart + (oldEnd - oldStart) = newEnd := by omega
  generalize hold : slice before oldStart oldEnd = old at *
  generalize hnew : slice after newStart newEnd = new at *
  -- Reaching the next mismatch costs no edit.
  have reach : ∀ {cursor edits}, cursor < old.length →
      Progress before after (oldStart + cursor) (newStart + cursor) edits →
      Progress before after (oldStart + skipEqual old new cursor)
        (newStart + skipEqual old new cursor) edits := by
    intro cursor edits hc h
    obtain ⟨lower, upper, _, _⟩ := skipEqual_spec new (Nat.le_of_lt hc)
    refine h.skip _ _ (by omega) (by omega) (by omega) (by omega) ?_
    have equal := skipEqual_slice new (Nat.le_of_lt hc)
    generalize skipEqual old new cursor = stop at *
    rw [← hold, ← hnew] at equal
    rwa [slice_slice (by omega), slice_slice (by omega)] at equal
  fun_induction refineRuns old new oldStart editBudget cursor emitted edits with
  | case1 cursor emitted edits hc stop same =>
      have h := reach hc h
      simp only [stop] at same
      rwa [same, oldLength, oldStop, newStop] at h
  | case2 cursor emitted edits hc stop unequal last =>
      have upper : stop ≤ old.length := (skipEqual_spec new (Nat.le_of_lt hc)).2.1
      have arrived : Progress before after (oldStart + stop) (newStart + stop) edits := reach hc h
      clear_value stop
      have push := arrived.push oldEnd newEnd (by omega) (by omega) (by omega)
        hx hy
      rwa [newLength, ← hnew, slice_slice (by omega), oldLength, oldStop, ← aligned, newStop]
  | case3 cursor emitted edits hc stop unequal next more ih =>
      obtain ⟨_, upper, _, mismatch⟩ := skipEqual_spec new (Nat.le_of_lt hc)
      have found := Nat.lt_of_le_of_ne upper unequal
      obtain ⟨run, bound⟩ : stop < next ∧ next ≤ old.length :=
        skipDifferent_spec found (mismatch found)
      have arrived : Progress before after (oldStart + stop) (newStart + stop) edits := reach hc h
      clear_value stop next
      have push := arrived.push (oldStart + next) (newStart + next) (by omega)
        (by omega) (by omega) (by omega) (by omega)
      rw [← slice_slice (b := newEnd) (by omega), hnew] at push
      exact ih (by omega) (by omega)
        (by simp only [List.length_append, List.length_singleton]; omega) push
  | case4 cursor emitted edits out =>
      have stop : cursor = oldEnd - oldStart := by omega
      rwa [stop, oldStop, newStop] at h

theorem commonLength_spec (old new : Bytes) :
    commonLength old new ≤ old.length ∧ commonLength old new ≤ new.length ∧
      old.take (commonLength old new) = new.take (commonLength old new) := by
  fun_induction commonLength old new with
  | case1 a as bs ih =>
      obtain ⟨left, right, same⟩ := ih
      refine ⟨by simpa using left, by simpa using right, ?_⟩
      rw [List.take_succ_cons, List.take_succ_cons, same]
  | case2 => simp
  | case3 => simp

/-- The bytes a suffix comparison drops are equal on both sides. -/
theorem commonLength_reverse {old new : Bytes} {tail : Nat}
    (h : commonLength old.reverse new.reverse = tail) :
    tail ≤ old.length ∧ tail ≤ new.length ∧
      slice old (old.length - tail) old.length = slice new (new.length - tail) new.length := by
  obtain ⟨left, right, same⟩ := commonLength_spec old.reverse new.reverse
  rw [h] at left right same
  rw [List.length_reverse] at left right
  refine ⟨left, right, ?_⟩
  rw [slice_to_length, slice_to_length]
  rw [List.take_reverse, List.take_reverse] at same
  exact List.reverse_injective same

/-- A region is rewritten up to its end, whichever of the three strategies it takes. -/
theorem refineChangedRegion_progress {captureDiffSlices : CaptureDiffSlices}
    (tiling : captureDiffSlices.Tiling) {edits edits' : List ByteEdit}
    (hx : oldEnd ≤ before.length) (hy : newEnd ≤ after.length)
    (source : oldStart ≤ oldEnd) (target : newStart ≤ newEnd)
    (h : Progress before after oldStart newStart edits)
    (done : refineChangedRegion captureDiffSlices before after oldStart oldEnd newStart newEnd
      edits = (true, edits')) : Progress before after oldEnd newEnd edits' := by
  have oldLength := slice_length before oldStart hx
  have newLength := slice_length after newStart hy
  obtain ⟨headOld, headNew, headEqual⟩ :=
    commonLength_spec (slice before oldStart oldEnd) (slice after newStart newEnd)
  unfold refineChangedRegion at done
  simp only at done
  generalize commonLength (slice before oldStart oldEnd) (slice after newStart newEnd) =
    head at *
  rw [oldLength] at headOld
  rw [newLength] at headNew
  rw [drop_slice, drop_slice] at done
  rw [take_slice (by omega), take_slice (by omega)] at headEqual
  generalize htail : commonLength (slice before (oldStart + head) oldEnd).reverse
    (slice after (newStart + head) newEnd).reverse = tail at *
  obtain ⟨tailOld, tailNew, tailEqual⟩ := commonLength_reverse htail
  rw [slice_length before _ hx] at tailOld tailEqual
  rw [slice_length after _ hy] at tailNew tailEqual
  rw [slice_slice (by omega), slice_slice (by omega)] at tailEqual
  have arrived := h.skip (oldStart + head) (newStart + head) (by omega) (by omega)
    (by omega) (by omega) headEqual
  -- It is enough to reach the equal bytes at the end.
  suffices Progress before after (oldEnd - tail) (newEnd - tail) edits' by
    refine this.skip _ _ (by omega) (by omega) hx hy ?_
    convert tailEqual using 2 <;> omega
  generalize hoe : oldEnd - tail = trimmedOldEnd at *
  generalize hne : newEnd - tail = trimmedNewEnd at *
  have trimmedOld := slice_length before (oldStart + head)
    (show trimmedOldEnd ≤ before.length by omega)
  have trimmedNew := slice_length after (newStart + head)
    (show trimmedNewEnd ≤ after.length by omega)
  split at done
  · exact pushByteEdits_progress (by omega) (by omega) (tiling _ _ _ _) (by omega) (by omega)
      (by simpa using arrived) done
  · split at done
    · next aligned =>
      split at done
      · cases done
      · next room =>
        cases done
        rw [trimmedOld, trimmedNew] at aligned
        have budget := arrived.1
        have available : 0 < min (patchEditBudget - edits.length) largeRegionEditBudget := by
          simp only [largeRegionEditBudget]
          omega
        rw [refineLargeEqualLengthRegion, if_neg (Nat.ne_of_gt available)]
        exact refineRuns_progress (by omega) (by omega) (by omega) (by omega) aligned
          (Nat.zero_le _) available (by omega) (by simpa using arrived)
    · split at done
      · cases done
      · next room =>
        cases done
        exact arrived.push _ _ (Nat.lt_of_le_of_ne arrived.1 room) (by omega) (by omega) (by omega)
          (by omega)

end

/-! ## Lines -/

theorem splitInclusive_flatten (isSeparator : UInt8 → Bool) (bytes : Bytes) :
    (splitInclusive isSeparator bytes).flatten = bytes := by
  fun_induction splitInclusive isSeparator bytes with
  | case1 => rfl
  | case2 byte bytes _ ih => simp [ih]
  | case3 byte bytes _ none ih => simpa [none] using ih
  | case4 byte bytes _ piece pieces split ih =>
      rw [split] at ih
      simpa using ih

theorem lineOffsets_getD {lines : List Bytes} {k : Nat} (h : k ≤ lines.length) :
    (lineOffsets lines).getD k 0 = (lines.take k).flatten.length := by
  have shifted : ∀ start, (lines.scanl (fun offset line => offset + line.length) start).getD k 0 =
      start + (lines.take k).flatten.length := by
    induction lines generalizing k with
    | nil =>
        intro start
        obtain rfl : k = 0 := by simpa using h
        simp
    | cons line lines ih =>
        intro start
        cases k with
        | zero => simp
        | succ k =>
            have := ih (k := k) (by simpa using h) (start + line.length)
            simp only [List.scanl_cons, List.getD_cons_succ, this, List.take_succ_cons,
              List.flatten_cons, List.length_append]
            omega
  have := shifted 0
  rwa [Nat.zero_add] at this

section

variable {before after : Bytes}

/-- Bytes of a run of lines, from the offsets of its ends. -/
theorem slice_lines {lines : List Bytes} {a b : Nat} (hab : a ≤ b) (hb : b ≤ lines.length) :
    slice lines.flatten ((lineOffsets lines).getD a 0) ((lineOffsets lines).getD b 0) =
      (slice lines a b).flatten := by
  rw [lineOffsets_getD (hab.trans hb), lineOffsets_getD hb, slice_flatten hab hb]

theorem lineOffsets_mono {lines : List Bytes} {a b : Nat} (hab : a ≤ b) (hb : b ≤ lines.length) :
    (lineOffsets lines).getD a 0 ≤ (lineOffsets lines).getD b 0 ∧
      (lineOffsets lines).getD b 0 ≤ lines.flatten.length := by
  rw [lineOffsets_getD (hab.trans hb), lineOffsets_getD hb]
  exact ⟨flatten_take_length_mono lines hab, by
    simpa using flatten_take_length_mono lines hb⟩

/-- The loop over the line operations reaches the ends of both sources, unless the
edit budget runs out. -/
theorem refineLineRegions_progress {captureDiffSlices : CaptureDiffSlices}
    (tiling : captureDiffSlices.Tiling) {beforeLines afterLines : List Bytes}
    {ops : List DiffOp} {edits edits' : List ByteEdit} {i j : Nat}
    (hbefore : beforeLines.flatten = before) (hafter : afterLines.flatten = after)
    (tiles : Tiles beforeLines afterLines i j ops)
    (h : Progress before after ((lineOffsets beforeLines).getD i 0)
      ((lineOffsets afterLines).getD j 0) edits)
    (done : refineLineRegions captureDiffSlices before after (lineOffsets beforeLines)
      (lineOffsets afterLines) ops edits = (true, edits')) :
    Progress before after before.length after.length edits' := by
  induction ops generalizing i j edits with
  | nil =>
      obtain ⟨rfl, rfl⟩ := tiles
      cases done
      rw [lineOffsets_getD (Nat.le_refl _), lineOffsets_getD (Nat.le_refl _), List.take_length,
        List.take_length, hbefore, hafter] at h
      exact h
  | cons op ops ih =>
      obtain ⟨rfl, rfl, hi, hj, hi', hj', equal, rest⟩ := tiles
      obtain ⟨sourceLe, sourceEnd⟩ := lineOffsets_mono hi hi'
      obtain ⟨targetLe, targetEnd⟩ := lineOffsets_mono hj hj'
      rw [hbefore] at sourceEnd
      rw [hafter] at targetEnd
      rw [refineLineRegions] at done
      by_cases tag : op.tag = .equal
      · rw [if_pos tag] at done
        refine ih rest (h.skip _ _ sourceLe targetLe sourceEnd targetEnd ?_) done
        rw [← hbefore, ← hafter, slice_lines hi hi', slice_lines hj hj', equal tag]
      · rw [if_neg tag] at done
        split at done
        · next edits₁ region =>
          exact ih rest (refineChangedRegion_progress tiling sourceEnd targetEnd sourceLe targetLe
            h region) done
        · cases done

theorem replacementPatch_progress (before after : Bytes) :
    Progress before after before.length after.length (replacementPatch before after).edits := by
  simp only [replacementPatch, patchWithEdits]
  split
  · next same =>
    subst same
    exact (Progress.start _ _).skip _ _ (Nat.zero_le _) (Nat.zero_le _) (Nat.le_refl _)
      (Nat.le_refl _) rfl
  · have := (Progress.start before after).push _ _ (by decide)
      (Nat.zero_le _) (Nat.zero_le _) (Nat.le_refl before.length) (Nat.le_refl after.length)
    simpa using this

/-- Every path of `create_patch` ends with a progress to the ends of both sources. -/
theorem createPatch_progress {captureDiffSlices : CaptureDiffSlices}
    (tiling : captureDiffSlices.Tiling) (before after : Bytes) :
    ∃ edits, createPatch captureDiffSlices before after = patchWithEdits edits ∧
      Progress before after before.length after.length edits := by
  rw [createPatch]
  split
  · rw [createByteRefinedPatch]
    split
    · next edits region =>
      exact ⟨edits, rfl, refineChangedRegion_progress tiling (Nat.le_refl _) (Nat.le_refl _)
        (Nat.zero_le _) (Nat.zero_le _) (.start _ _) region⟩
    · exact ⟨_, rfl, replacementPatch_progress before after⟩
  · simp only
    split
    · next edits regions =>
      refine ⟨edits, rfl, refineLineRegions_progress tiling (splitInclusive_flatten _ _)
        (splitInclusive_flatten _ _) (tiling _ .patience _ _) ?_ regions⟩
      rw [lineOffsets_getD (Nat.zero_le _), lineOffsets_getD (Nat.zero_le _)]
      exact .start _ _
    · exact ⟨_, rfl, replacementPatch_progress before after⟩

/-- The edits of a progress to the end are ordered ranges of `before`. -/
theorem Progress.ranges {edits : List ByteEdit}
    (h : Progress before after before.length after.length edits) :
    edits.Pairwise (fun edit later => edit.oldEnd ≤ later.oldStart) ∧
      ∀ edit ∈ edits, edit.oldStart ≤ edit.oldEnd ∧ edit.oldEnd ≤ before.length := by
  obtain ⟨-, script, denotes, rewrites⟩ := h
  have pairwise := rewrites.within.pairwise
  have bounds : ∀ entry ∈ script, entry.start ≤ entry.stop ∧ entry.stop ≤ before.length :=
    fun entry member => (rewrites.within.mem member).2
  clear rewrites
  induction denotes with
  | nil => simp
  | @cons edit entry edits script head tail ih =>
      obtain ⟨_, start, stop⟩ := ByteEdit.decode_eq_some head
      obtain ⟨first, rest⟩ := List.pairwise_cons.mp pairwise
      obtain ⟨ordered, inBounds⟩ := ih rest fun entry member =>
        bounds entry (List.mem_cons_of_mem _ member)
      refine ⟨List.pairwise_cons.mpr ⟨?_, ordered⟩, ?_⟩
      · intro later member
        obtain ⟨laterEntry, laterMember, decoded⟩ := Denotes.mem tail member
        rw [stop, (ByteEdit.decode_eq_some decoded).2.1]
        exact first laterEntry laterMember
      · intro other member
        rcases List.mem_cons.mp member with rfl | member
        · rw [start, stop]
          exact bounds entry (by simp)
        · exact inBounds other member

/-- The sizes a replay of a created patch needs. -/
structure AdmitsSizes (limits : VerificationLimits) (before after : Bytes) : Prop where
  edits : patchEditBudget ≤ limits.maxPatchEdits
  source : before.length ≤ limits.maxSourceBytes
  result : after.length ≤ limits.maxSourceBytes
  decoded : after.length ≤ limits.maxDecodedReplacementBytes
  sourceBuffer : before.length ≤ isizeMax
  resultBuffer : after.length + 2 ≤ isizeMax

theorem Progress.replays {edits : List ByteEdit} {limits : VerificationLimits}
    (h : Progress before after before.length after.length edits)
    (admits : AdmitsSizes limits before after) :
    replayPatchWithLimits before (patchWithEdits edits) limits = .ok after := by
  obtain ⟨count, script, denotes, rewrites⟩ := h
  have valid : ValidOn before (patchWithEdits edits) script := ⟨rfl, denotes, rewrites.within⟩
  have added := added_le_apply rewrites.within
  rw [← rewrites.apply_eq] at admits ⊢
  exact replayPatchWithLimits_of_valid valid ⟨count.trans admits.edits, admits.source,
    admits.result, added.trans admits.decoded, admits.sourceBuffer, admits.resultBuffer⟩

/-- A created patch stands for a script from `before` to `after`. -/
theorem createPatch_valid {captureDiffSlices : CaptureDiffSlices}
    (tiling : captureDiffSlices.Tiling) (before after : Bytes) :
    ∃ script, ValidOn before (createPatch captureDiffSlices before after) script ∧
      apply before script = after := by
  obtain ⟨edits, created, _, script, denotes, rewrites⟩ :=
    createPatch_progress tiling before after
  rw [created]
  exact ⟨script, ⟨rfl, denotes, rewrites.within⟩, rewrites.apply_eq⟩

/-- Replay completeness: the edits of a created patch are ordered ranges of `before` that
do not overlap, their number is bounded, and replaying them gives back `after`. An edit
records the bytes it deletes as a range, so they are the bytes of `before` it covers. -/
theorem createPatch_replays (captureDiffSlices : CaptureDiffSlices)
    (tiling : captureDiffSlices.Tiling) (before after : Bytes) :
    (createPatch captureDiffSlices before after).edits.Pairwise
        (fun edit later => edit.oldEnd ≤ later.oldStart) ∧
      (∀ edit ∈ (createPatch captureDiffSlices before after).edits,
        edit.oldStart ≤ edit.oldEnd ∧ edit.oldEnd ≤ before.length ∧
          (slice before edit.oldStart edit.oldEnd).length = edit.oldEnd - edit.oldStart) ∧
      (createPatch captureDiffSlices before after).edits.length ≤ patchEditBudget ∧
      ∀ limits, AdmitsSizes limits before after →
        replayPatchWithLimits before (createPatch captureDiffSlices before after) limits =
          .ok after := by
  obtain ⟨edits, created, progress⟩ := createPatch_progress tiling before after
  rw [created]
  obtain ⟨ordered, bounds⟩ := progress.ranges
  refine ⟨ordered, fun edit member => ?_, progress.1, fun limits admits => progress.replays admits⟩
  obtain ⟨range, bound⟩ := bounds edit member
  exact ⟨range, bound, slice_length before _ bound⟩

/-- The coarsest comparison: one operation that covers both sequences. -/
def compareWhole : CaptureDiffSlices := fun _ old new =>
  if old = [] ∧ new = [] then []
  else
    let tag : DiffTag :=
      if old = new then .equal
      else if old = [] then .insert
      else if new = [] then .delete
      else .replace
    [⟨tag, 0, old.length, 0, new.length⟩]

theorem compareWhole_tiling : compareWhole.Tiling := by
  intro α _ algorithm old new
  simp only [compareWhole]
  split
  · next empty =>
    simp [Tiles, empty]
  · refine ⟨rfl, rfl, Nat.zero_le _, Nat.zero_le _, Nat.le_refl _, Nat.le_refl _, ?_, rfl, rfl⟩
    intro tag
    rw [slice_zero_length, slice_zero_length]
    by_contra different
    simp only [if_neg different] at tag
    split at tag
    · cases tag
    · split at tag <;> cases tag

theorem createPatch_replays_line :
    createPatch compareWhole [97, 10] [98, 10] =
        ⟨patchAlgorithm, [⟨0, 1, [89, 103, 61, 61]⟩]⟩ ∧
      replayPatchWithLimits [97, 10] (createPatch compareWhole [97, 10] [98, 10]) .default =
        .ok [98, 10] :=
  ⟨by decide +kernel, (createPatch_replays compareWhole compareWhole_tiling [97, 10] [98, 10]).2.2.2
    .default ⟨by decide, by decide, by decide, by decide, by decide, by decide⟩⟩

end

end Stratadiff
