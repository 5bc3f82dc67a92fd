import Stratadiff.Verifier.Limits

/-!
# Replaying a patch

`patch.rs` of the verifier. A replay copies the gaps between the edits and
decodes every replacement in place. For a patch that stands for an edit script
the result is that script's, provided the limits admit its sizes.
-/

namespace Stratadiff

open EditScript

/-- The loop of `replay_patch_with_limits`: `cursor` is the first byte of `before`
not yet handled. -/
def replayEdits (before : Bytes) (limits : VerificationLimits) :
    Nat → List ByteEdit → Nat → Bytes → Result (Nat × Bytes)
  | _, [], cursor, output => .ok (cursor, output)
  | index, edit :: edits, cursor, output => do
      let output := output ++ slice before cursor edit.oldStart
      let replacement ← Result.ofOption
        (.invalid s!"patch replacement at edit {index} is not valid base64")
        (Base64.decode edit.replacementBase64)
      Result.ensure (replacement.length ≤ limits.maxDecodedReplacementBytes)
        (.limit s!"decoded replacement bytes limit exceeded at patch edit {index}")
      replayEdits before limits (index + 1) edits edit.oldEnd (output ++ replacement)

def replayPatchWithLimits (before : Bytes) (patch : LosslessPatch)
    (limits : VerificationLimits) : Result Bytes := do
  checkLimit "before source bytes" before.length limits.maxSourceBytes
  let stats ← inspectPatch before patch limits
  let reserve ← Result.ofOption (.limit "patch replay allocation exceeds usize capacity")
    (checkedAdd stats.replayedBytes 2)
  Result.ensure (reserve ≤ isizeMax) (.limit "failed to reserve bounded patch replay output")
  let (cursor, output) ← replayEdits before limits 0 patch.edits 0 []
  let output := output ++ before.drop cursor
  Result.ensure (output.length = stats.replayedBytes)
    (.invalid "patch replay length differs from its checked preflight length")
  return output

def applyPatch (before : Bytes) (patch : LosslessPatch) : Result Bytes :=
  replayPatchWithLimits before patch VerificationLimits.default

/-- The loop appends the rewritten bytes up to the end of the last edit. -/
theorem replayEdits_of_denotes {before : Bytes} {limits : VerificationLimits}
    (index : Nat) {cursor : Nat} (output : Bytes) {edits : List ByteEdit}
    {script : List (Edit UInt8)}
    (denotes : Denotes edits script) (within : Within cursor before.length script)
    (limit : added script ≤ limits.maxDecodedReplacementBytes) :
    ∃ last written, replayEdits before limits index edits cursor output = .ok (last, written) ∧
      written ++ before.drop last = output ++ rewrite before cursor before.length script := by
  induction denotes generalizing index cursor output with
  | nil => exact ⟨cursor, output, rfl, by rw [rewrite, slice_to_length]⟩
  | @cons edit entry edits script head tail ih =>
      obtain ⟨decoded, start, stop⟩ := ByteEdit.decode_eq_some head
      simp only [added, List.map_cons, List.sum_cons] at limit
      obtain ⟨last, written, run, total⟩ := ih (index + 1)
        (output ++ slice before cursor entry.start ++ entry.replacement)
        within.2.2 (by simp only [added]; omega)
      have small : entry.replacement.length ≤ limits.maxDecodedReplacementBytes := by omega
      refine ⟨last, written, ?_, ?_⟩
      · simp only [replayEdits, decoded, Result.ofOption_some, Result.ok_bind,
          Result.ensure_of small, start, stop, run]
      · rw [total]
        simp only [rewrite, List.append_assoc]

/-- Replaying a valid patch gives the result of the script it stands for. -/
theorem replayPatchWithLimits_of_valid {before : Bytes} {patch : LosslessPatch}
    {script : List (Edit UInt8)} {limits : VerificationLimits}
    (valid : ValidOn before patch script) (admits : Admits limits before patch script) :
    replayPatchWithLimits before patch limits = .ok (apply before script) := by
  have buffer := admits.resultBuffer
  have capacity : isizeMax ≤ usizeMax := by decide
  obtain ⟨last, written, run, total⟩ := replayEdits_of_denotes 0 []
    valid.denotes valid.within admits.decoded
  rw [List.nil_append] at total
  have whole : written ++ before.drop last = apply before script := total
  simp only [replayPatchWithLimits, checkLimit_eq_ok.mpr admits.source,
    inspectPatch_of_valid valid admits, Result.ok_bind]
  rw [checkedAdd_of_le (by omega), Result.ofOption_some, Result.ok_bind,
    Result.ensure_of buffer, Result.ok_bind, run]
  simp only [Result.ok_bind, whole, Result.ensure_of]
  rfl

theorem replayEdits_ok {before output written : Bytes} {limits : VerificationLimits}
    {index cursor last : Nat} {edits : List ByteEdit} {script : List (Edit UInt8)}
    (denotes : Denotes edits script)
    (run : replayEdits before limits index edits cursor output = .ok (last, written)) :
    written ++ before.drop last = output ++ rewrite before cursor before.length script := by
  induction denotes generalizing index cursor output with
  | nil =>
      cases run
      rw [rewrite, slice_to_length]
  | @cons edit entry edits script head tail ih =>
      obtain ⟨decoded, start, stop⟩ := ByteEdit.decode_eq_some head
      simp only [replayEdits, decoded, start, stop, Result.ofOption_some, Result.ok_bind] at run
      obtain ⟨_, _, rest⟩ := Result.bind_eq_ok.mp run
      rw [ih rest]
      simp only [rewrite, List.append_assoc]

/-- A replay that succeeds gives the result of the script, whatever the limits. -/
theorem replayPatchWithLimits_ok {before result : Bytes} {patch : LosslessPatch}
    {script : List (Edit UInt8)} {limits : VerificationLimits} (valid : ValidOn before patch script)
    (run : replayPatchWithLimits before patch limits = .ok result) :
    result = apply before script := by
  unfold replayPatchWithLimits at run
  obtain ⟨_, _, run⟩ := Result.bind_eq_ok.mp run
  obtain ⟨stats, _, run⟩ := Result.bind_eq_ok.mp run
  obtain ⟨_, _, run⟩ := Result.bind_eq_ok.mp run
  obtain ⟨_, _, run⟩ := Result.bind_eq_ok.mp run
  obtain ⟨⟨last, written⟩, replayed, run⟩ := Result.bind_eq_ok.mp run
  obtain ⟨_, _, run⟩ := Result.bind_eq_ok.mp run
  rw [← Result.pure_eq_ok.mp run]
  simpa [apply] using replayEdits_ok valid.denotes replayed

/-! ## The preflight is exact -/

section

variable {before : Bytes} {patch : LosslessPatch} {limits : VerificationLimits} {stats : PatchStats}

/-- After the preflight only the source limit and the reserve of the output are left to fail. -/
theorem replayPatchWithLimits_of_inspectPatch (h : inspectPatch before patch limits = .ok stats)
    (source : before.length ≤ limits.maxSourceBytes)
    (reserve : stats.replayedBytes + 2 ≤ isizeMax) :
    ∃ output, replayPatchWithLimits before patch limits = .ok output ∧
      output.length = stats.replayedBytes := by
  obtain ⟨script, valid, decoded, rfl⟩ := inspectPatch_ok h
  have capacity : isizeMax ≤ usizeMax := by decide
  obtain ⟨last, written, run, total⟩ :=
    replayEdits_of_denotes 0 [] valid.denotes valid.within decoded
  have whole : written ++ before.drop last = apply before script := total
  refine ⟨apply before script, ?_, rfl⟩
  simp only [replayPatchWithLimits, checkLimit_eq_ok.mpr source, h, Result.ok_bind]
  rw [checkedAdd_of_le (le_trans reserve capacity), Result.ofOption_some, Result.ok_bind,
    Result.ensure_of reserve, Result.ok_bind, run]
  simp only [Result.ok_bind, whole, Result.ensure_of]
  rfl

theorem length_of_replayPatchWithLimits (h : inspectPatch before patch limits = .ok stats)
    {output : Bytes} (run : replayPatchWithLimits before patch limits = .ok output) :
    output.length = stats.replayedBytes := by
  obtain ⟨script, valid, _, rfl⟩ := inspectPatch_ok h
  rw [replayPatchWithLimits_ok valid run]

end

/-- Whether the preflight would be all that can fail: it is not, as it leaves the length of the
source to the replay. -/
theorem replay_refuses_long_source :
    ¬∀ (before : Bytes) (patch : LosslessPatch) (limits : VerificationLimits) (stats : PatchStats),
      inspectPatch before patch limits = .ok stats →
        ∃ output, replayPatchWithLimits before patch limits = .ok output ∧
          output.length = stats.replayedBytes := by
  intro claim
  have accepted : inspectPatch [97, 98] ⟨patchAlgorithm, [⟨0, 2, []⟩]⟩
      { VerificationLimits.default with maxSourceBytes := 1 } = .ok ⟨0, 0⟩ := by decide +kernel
  obtain ⟨output, run, _⟩ := claim _ _ _ _ accepted
  have refused : (replayPatchWithLimits [97, 98] ⟨patchAlgorithm, [⟨0, 2, []⟩]⟩
      { VerificationLimits.default with maxSourceBytes := 1 }).toOption = none := by decide +kernel
  rw [run] at refused
  cases refused

/-- A patch that the preflight accepts is replayed to the predicted length; what can still fail is
the limit of the source, and the reserve of the output. A text has a decoded length exactly when
it encodes bytes of that length. -/
theorem preflight_exact :
    (∀ (before : Bytes) (patch : LosslessPatch) (limits : VerificationLimits) (stats : PatchStats),
      inspectPatch before patch limits = .ok stats →
        (∀ output, replayPatchWithLimits before patch limits = .ok output →
          output.length = stats.replayedBytes) ∧
        ∀ failure, replayPatchWithLimits before patch limits = .error failure →
          checkLimit "before source bytes" before.length limits.maxSourceBytes = .error failure ∨
            before.length ≤ limits.maxSourceBytes ∧ isizeMax < stats.replayedBytes + 2) ∧
    ∀ text : Bytes, text.length ≤ usizeMax → ∀ size,
      canonicalBase64DecodedLen text = .ok size ↔
        ∃ bytes, text = Base64.encode bytes ∧ bytes.length = size := by
  constructor
  · intro before patch limits stats accepted
    refine ⟨fun output run => length_of_replayPatchWithLimits accepted run, ?_⟩
    intro failure failed
    by_cases source : before.length ≤ limits.maxSourceBytes
    · by_cases reserve : stats.replayedBytes + 2 ≤ isizeMax
      · obtain ⟨output, run, _⟩ := replayPatchWithLimits_of_inspectPatch accepted source reserve
        rw [run] at failed
        cases failed
      · exact .inr ⟨source, Nat.lt_of_not_le reserve⟩
    · refine .inl ?_
      rw [replayPatchWithLimits] at failed
      simp only [checkLimit, Result.ensure, if_neg source, Result.error_bind] at failed ⊢
      exact congrArg Except.error (Except.error.inj failed)
  · intro text fits size
    constructor
    · intro h
      obtain ⟨bytes, decoded, length⟩ := decode_of_canonicalBase64DecodedLen h
      exact ⟨bytes, (Base64.encode_of_decode decoded).symm, length⟩
    · rintro ⟨bytes, rfl, rfl⟩
      exact canonicalBase64DecodedLen_of_decode (Base64.decode_encode bytes) fits

/-- An insertion is replayed, and its text has one byte. -/
theorem preflight_exact_insertion :
    (∀ output, replayPatchWithLimits [97, 98] ⟨patchAlgorithm, [⟨1, 1, [89, 119, 61, 61]⟩]⟩
        VerificationLimits.default = .ok output → output.length = 3) ∧
      canonicalBase64DecodedLen [89, 119, 61, 61] = .ok 1 := by
  obtain ⟨replays, texts⟩ := preflight_exact
  have accepted : inspectPatch [97, 98] ⟨patchAlgorithm, [⟨1, 1, [89, 119, 61, 61]⟩]⟩
      VerificationLimits.default = .ok ⟨1, 3⟩ := by decide +kernel
  refine ⟨(replays _ _ _ _ accepted).1, ?_⟩
  exact (texts [89, 119, 61, 61] (by decide) 1).mpr ⟨[99], by decide, rfl⟩

end Stratadiff
