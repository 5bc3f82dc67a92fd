import Stratadiff.Core.Patch
import Stratadiff.Lib.Base64
import Stratadiff.Lib.EditScript
import Stratadiff.Lib.Fallible

/-!
# Verification limits and the patch preflight

`limits.rs` of the verifier: the configured limits, the checked counters, and
`inspect_patch`, which validates a patch and computes the length of its replay
before any byte is copied.
-/

namespace Stratadiff

open EditScript

structure VerificationLimits where
  maxReportBytes : Nat
  maxSourceBytes : Nat
  maxRelations : Nat
  maxAmbiguityGroups : Nat
  maxAmbiguityEndpoints : Nat
  maxAmbiguityPairs : Nat
  maxChanges : Nat
  maxPatchEdits : Nat
  maxDecodedReplacementBytes : Nat
  maxSyntaxNodes : Nat
  maxSyntaxDepth : Nat
  maxParseCallbacks : Nat
  maxVerificationWork : Nat
  deriving DecidableEq, Repr

/-- `VerificationLimits::default`. -/
def VerificationLimits.default : VerificationLimits where
  maxReportBytes := 64 * 1024 * 1024
  maxSourceBytes := 16 * 1024 * 1024
  maxRelations := 250000
  maxAmbiguityGroups := 50000
  maxAmbiguityEndpoints := 500000
  maxAmbiguityPairs := 1000000
  maxChanges := 250000
  maxPatchEdits := 250000
  maxDecodedReplacementBytes := 32 * 1024 * 1024
  maxSyntaxNodes := 1000000
  maxSyntaxDepth := 512
  maxParseCallbacks := 4000000
  maxVerificationWork := 128 * 1024 * 1024

structure PatchStats where
  decodedReplacementBytes : Nat
  replayedBytes : Nat
  deriving DecidableEq, Repr

def checkLimit (label : String) (observed limit : Nat) : Result Unit :=
  .ensure (observed ≤ limit)
    (.limit s!"{label} limit exceeded: observed {observed}, limit {limit}")

@[simp] theorem checkLimit_eq_ok {label : String} {observed limit : Nat} :
    checkLimit label observed limit = .ok () ↔ observed ≤ limit :=
  Result.ensure_eq_ok

/-- `limits::checked_add`: a counter that stays within a machine word. -/
def checkedAddNamed (label : String) (left right : Nat) : Result Nat :=
  .ofOption (.limit s!"{label} exceeds usize capacity") (checkedAdd left right)

theorem checkedAddNamed_of_le {label : String} {left right : Nat}
    (h : left + right ≤ usizeMax) : checkedAddNamed label left right = .ok (left + right) := by
  simp [checkedAddNamed, checkedAdd_of_le h]

theorem checkedAddNamed_eq_ok {label : String} {left right sum : Nat} :
    checkedAddNamed label left right = .ok sum ↔ left + right ≤ usizeMax ∧ left + right = sum := by
  simp [checkedAddNamed, checkedAdd_eq_some]

def base64Value (byte : UInt8) : Option UInt8 :=
  if 65 ≤ byte ∧ byte ≤ 90 then some (byte - 65)
  else if 97 ≤ byte ∧ byte ≤ 122 then some (byte - 97 + 26)
  else if 48 ≤ byte ∧ byte ≤ 57 then some (byte - 48 + 52)
  else if byte = 43 then some 62
  else if byte = 47 then some 63
  else none

def notCanonical : Failure := .invalid "patch replacement is not canonical RFC 4648 base64"

/-- The number of padding characters a text ends in, at most two. -/
def base64Padding (bytes : Bytes) : Nat :=
  if [61, 61] <:+ bytes then 2 else if [61] <:+ bytes then 1 else 0

def canonicalBase64DecodedLen (bytes : Bytes) : Result Nat := do
  Result.ensure (bytes.length % 4 = 0) notCanonical
  if bytes = [] then return 0
  let padding := base64Padding bytes
  let dataLen := bytes.length - padding
  Result.ensure (¬ ((bytes.take dataLen).any (fun byte => (base64Value byte).isNone) ∨
    (bytes.drop dataLen).any (fun byte => byte ≠ 61))) notCanonical
  let finalValue ← Result.ofOption notCanonical (bytes[dataLen - 1]?.bind base64Value)
  Result.ensure (¬ ((padding = 1 ∧ finalValue &&& 0b11 ≠ 0) ∨
    (padding = 2 ∧ finalValue &&& 0b1111 ≠ 0))) notCanonical
  let fullBytes ← Result.ofOption
    (.limit "decoded replacement byte count exceeds usize capacity")
    (checkedMul (bytes.length / 4) 3)
  Result.ofOption (.invalid "invalid RFC 4648 base64 padding") (checkedSub fullBytes padding)

theorem base64Value_eq (byte : UInt8) :
    base64Value byte = (Base64.value byte).map UInt8.ofNat := by
  have all : ∀ n : Fin 256,
      base64Value ⟨⟨n⟩⟩ = (Base64.value ⟨⟨n⟩⟩).map UInt8.ofNat := by decide +kernel
  exact all byte.toBitVec.toFin

private theorem unused_bits {digit : Nat} (h : digit < 64) :
    (UInt8.ofNat digit &&& 0b11 ≠ 0 ↔ digit % 4 ≠ 0) ∧
      (UInt8.ofNat digit &&& 0b1111 ≠ 0 ↔ digit % 16 ≠ 0) := by
  revert digit
  decide +kernel

theorem base64Padding_canonical {text body : Bytes} {last : UInt8} {size digit padding : Nat}
    (h : Base64.Canonical text size body last digit padding) : base64Padding text = padding := by
  have notPad : last ≠ 61 := by
    rintro rfl
    simpa [Base64.value_pad] using (Base64.value_pad.symm.trans h.last_digit)
  have reversed : text.reverse = List.replicate padding 61 ++ last :: body.reverse := by
    rw [h.text_eq]
    simp [Base64.pad]
  have := h.padding_le
  have suffix (tail : Bytes) : tail <:+ text ↔ tail.reverse <+: text.reverse :=
    List.reverse_prefix.symm
  simp only [base64Padding, suffix, reversed]
  interval_cases padding
  · simp [notPad.symm]
  · simp [List.replicate, notPad.symm]
  · simp [List.replicate]

/-- A text that strict decoding accepts passes the preflight with the decoded length. -/
theorem canonicalBase64DecodedLen_of_decode {text bytes : Bytes}
    (h : Base64.decode text = some bytes) (fits : text.length ≤ usizeMax) :
    canonicalBase64DecodedLen text = .ok bytes.length := by
  by_cases empty : text = []
  · subst empty
    cases h
    rfl
  obtain ⟨body, last, digit, padding, canonical⟩ := Base64.decode_canonical h empty
  have bound := canonical.padding_le
  have dataLen : text.length - padding = body.length + 1 := by
    rw [canonical.text_eq]
    simp only [List.length_append, List.length_cons, List.length_replicate]
    omega
  have data : text.take (body.length + 1) = body ++ [last] := by
    rw [canonical.text_eq, List.take_append]
    simp
  have tail : text.drop (body.length + 1) = List.replicate padding Base64.pad := by
    rw [canonical.text_eq, List.drop_append]
    simp
  have final : text[body.length + 1 - 1]? = some last := by
    rw [canonical.text_eq]
    simp
  have unused := unused_bits (Base64.value_lt canonical.last_digit)
  have capacity : text.length / 4 * 3 ≤ usizeMax := by
    simp only [usizeMax] at *
    omega
  have digits : ¬ ((body ++ [last]).any (fun byte => (base64Value byte).isNone) ∨
      (List.replicate padding Base64.pad).any (fun byte => byte ≠ 61)) := by
    rintro (absent | other)
    · simp only [List.any_eq_true, List.mem_append, List.mem_singleton, base64Value_eq,
        Option.isNone_map] at absent
      obtain ⟨byte, member | rfl, none⟩ := absent
      · have := canonical.body_digits byte member
        simp_all
      · simp [canonical.last_digit] at none
    · simp [Base64.pad] at other
  have value : base64Value last = some (UInt8.ofNat digit) := by
    rw [base64Value_eq, canonical.last_digit]
    rfl
  have zeroBits : ¬ ((padding = 1 ∧ UInt8.ofNat digit &&& 0b11 ≠ 0) ∨
      (padding = 2 ∧ UInt8.ofNat digit &&& 0b1111 ≠ 0)) := by
    rw [unused.1, unused.2]
    have := canonical.one
    have := canonical.two
    omega
  have size := canonical.size_eq
  rw [canonicalBase64DecodedLen]
  simp only [base64Padding_canonical canonical, dataLen, data, tail, final, if_neg empty,
    Result.ensure_of canonical.quanta, Result.ensure_of digits, Option.bind_some, value,
    Result.ofOption_some, Result.ensure_of zeroBits, Result.ok_bind]
  rw [checkedMul, if_pos capacity, Result.ofOption_some, Result.ok_bind,
    checkedSub_of_le (by omega), Result.ofOption_some]
  congr 1
  omega

/-- The preflight accepts only texts that strict decoding accepts. -/
theorem decode_of_canonicalBase64DecodedLen {text : Bytes} {size : Nat}
    (h : canonicalBase64DecodedLen text = .ok size) :
    ∃ bytes, Base64.decode text = some bytes ∧ bytes.length = size := by
  rw [canonicalBase64DecodedLen] at h
  obtain ⟨quanta, h⟩ := Result.check_bind_eq_ok.mp h
  rw [Result.ensure_eq_ok] at quanta
  split at h
  · next empty =>
    obtain rfl := Result.pure_eq_ok.mp h
    exact ⟨[], by rw [empty, Base64.decode], rfl⟩
  · next nonempty =>
    simp only [Result.check_bind_eq_ok, Result.ofOption_bind_eq_ok, Result.ensure_eq_ok,
      Result.ofOption_eq_ok, not_or] at h
    obtain ⟨⟨digits, pads⟩, final, finalDigit, ⟨one, two⟩, full, product, difference⟩ := h
    have positive : 4 ≤ text.length := by
      have := List.length_pos_iff.mpr nonempty
      omega
    have bound : base64Padding text ≤ 2 := by
      rw [base64Padding]
      split_ifs <;> omega
    obtain ⟨last, found, decodes⟩ := Option.bind_eq_some_iff.mp finalDigit
    rw [base64Value_eq, Option.map_eq_some_iff] at decodes
    obtain ⟨digit, value, rfl⟩ := decodes
    have unused := unused_bits (Base64.value_lt value)
    have tail : text.drop (text.length - base64Padding text) =
        List.replicate (base64Padding text) Base64.pad := by
      rw [List.eq_replicate_iff]
      refine ⟨by rw [List.length_drop]; omega, ?_⟩
      intro byte member
      by_contra other
      exact pads (List.any_eq_true.mpr ⟨byte, member, decide_eq_true other⟩)
    have data : text.take (text.length - base64Padding text) =
        text.take (text.length - base64Padding text - 1) ++ [last] := by
      have index : text.length - base64Padding text =
          text.length - base64Padding text - 1 + 1 := by omega
      obtain ⟨inside, get⟩ := List.getElem?_eq_some_iff.mp found
      rw [index, List.take_add_one, found]
      simp
    rw [checkedMul] at product
    rw [checkedSub] at difference
    split at product
    · obtain rfl := Option.some.inj product
      split at difference
      · have canonical :
            Base64.Canonical text size (text.take (text.length - base64Padding text - 1))
            last digit (base64Padding text) := by
          obtain rfl := Option.some.inj difference
          refine ⟨?_, ?_, value, bound, ?_, ?_, quanta, by omega⟩
          · rw [← tail, ← List.singleton_append, ← List.append_assoc, ← data, List.take_append_drop]
          · intro byte member
            rw [Option.isSome_iff_ne_none]
            intro absent
            refine digits (List.any_eq_true.mpr ⟨byte, ?_, ?_⟩)
            · rw [data]
              exact List.mem_append_left _ member
            · rw [base64Value_eq, absent]
              rfl
          · intro padded
            by_contra bits
            exact one ⟨padded, unused.1.mpr bits⟩
          · intro padded
            by_contra bits
            exact two ⟨padded, unused.2.mpr bits⟩
        exact canonical.decode
      · cases difference
    · cases product

/-- The counters `inspect_patch` carries over the edits. -/
structure PatchTotals where
  previousEnd : Nat
  removedBytes : Nat
  decodedReplacementBytes : Nat

def inspectEdit (beforeLen : Nat) (limits : VerificationLimits) (index : Nat) (edit : ByteEdit)
    (totals : PatchTotals) : Result PatchTotals := do
  let start := edit.oldStart
  let stop := edit.oldEnd
  Result.ensure (totals.previousEnd ≤ start ∧ start ≤ stop ∧ stop ≤ beforeLen)
    (.invalid s!"invalid or overlapping edit range {start}..{stop} at patch edit {index}")
  let removedBytes ← checkedAddNamed "removed patch byte count" totals.removedBytes (stop - start)
  let decoded ← (canonicalBase64DecodedLen edit.replacementBase64).mapError
    (Failure.withContext s!"invalid replacement at patch edit {index}: ")
  let decodedReplacementBytes ← checkedAddNamed "decoded replacement byte count"
    totals.decodedReplacementBytes decoded
  checkLimit "decoded replacement bytes" decodedReplacementBytes limits.maxDecodedReplacementBytes
  return ⟨stop, removedBytes, decodedReplacementBytes⟩

def inspectEdits (beforeLen : Nat) (limits : VerificationLimits) :
    Nat → List ByteEdit → PatchTotals → Result PatchTotals
  | _, [], totals => .ok totals
  | index, edit :: edits, totals => do
      let totals ← inspectEdit beforeLen limits index edit totals
      inspectEdits beforeLen limits (index + 1) edits totals

def inspectPatch (before : Bytes) (patch : LosslessPatch) (limits : VerificationLimits) :
    Result PatchStats := do
  let algorithm := patch.algorithm
  Result.ensure (algorithm = patchAlgorithm) (.invalid s!"unsupported patch algorithm {algorithm}")
  checkLimit "patch edits" patch.edits.length limits.maxPatchEdits
  let totals ← inspectEdits before.length limits 0 patch.edits ⟨0, 0, 0⟩
  let preservedBytes ← Result.ofOption
    (.invalid "removed patch byte count exceeds the before source length")
    (checkedSub before.length totals.removedBytes)
  let replayedBytes ← checkedAddNamed "replayed output byte count" preservedBytes
    totals.decodedReplacementBytes
  checkLimit "replayed output bytes" replayedBytes limits.maxSourceBytes
  return ⟨totals.decodedReplacementBytes, replayedBytes⟩

/-! ## Patches as edit scripts -/

/-- The edit that a recorded one stands for, once its replacement is decoded. -/
def ByteEdit.decode (edit : ByteEdit) : Option (Edit UInt8) :=
  (Base64.decode edit.replacementBase64).map fun replacement =>
    ⟨edit.oldStart, edit.oldEnd, replacement⟩

/-- The recorded edits are, one by one, the edits of the script. -/
def Denotes (edits : List ByteEdit) (script : List (Edit UInt8)) : Prop :=
  List.Forall₂ (fun edit entry => edit.decode = some entry) edits script

/-- A patch that stands for a script on `before`: ordered ranges inside `before`
that do not overlap, each with a canonical replacement. -/
structure ValidOn (before : Bytes) (patch : LosslessPatch) (script : List (Edit UInt8)) :
    Prop where
  algorithm : patch.algorithm = patchAlgorithm
  denotes : Denotes patch.edits script
  within : Within 0 before.length script

/-- The limits leave room for a replay, and its buffers fit the machine. -/
structure Admits (limits : VerificationLimits) (before : Bytes) (patch : LosslessPatch)
    (script : List (Edit UInt8)) : Prop where
  edits : patch.edits.length ≤ limits.maxPatchEdits
  source : before.length ≤ limits.maxSourceBytes
  result : (apply before script).length ≤ limits.maxSourceBytes
  decoded : added script ≤ limits.maxDecodedReplacementBytes
  sourceBuffer : before.length ≤ isizeMax
  resultBuffer : (apply before script).length + 2 ≤ isizeMax

theorem ByteEdit.decode_eq_some {edit : ByteEdit} {entry : Edit UInt8}
    (h : edit.decode = some entry) :
    Base64.decode edit.replacementBase64 = some entry.replacement ∧
      edit.oldStart = entry.start ∧ edit.oldEnd = entry.stop := by
  simp only [ByteEdit.decode, Option.map_eq_some_iff] at h
  obtain ⟨replacement, decoded, rfl⟩ := h
  exact ⟨decoded, rfl, rfl⟩

theorem Denotes.mem {edits : List ByteEdit} {script : List (Edit UInt8)}
    (denotes : Denotes edits script) {edit : ByteEdit} (member : edit ∈ edits) :
    ∃ entry ∈ script, edit.decode = some entry := by
  induction denotes with
  | nil => cases member
  | cons head tail ih =>
      rcases List.mem_cons.mp member with rfl | member
      · exact ⟨_, by simp, head⟩
      · obtain ⟨entry, entryMember, decoded⟩ := ih member
        exact ⟨entry, List.mem_cons_of_mem _ entryMember, decoded⟩

/-- The preflight loop accepts a script's edits and adds up their sizes. -/
theorem inspectEdits_of_denotes {beforeLen : Nat} {limits : VerificationLimits}
    {edits : List ByteEdit} {script : List (Edit UInt8)} (index : Nat) (totals : PatchTotals)
    (denotes : Denotes edits script) (within : Within totals.previousEnd beforeLen script)
    (texts : ∀ edit ∈ edits, edit.replacementBase64.length ≤ usizeMax)
    (removedFits : totals.removedBytes + removed script ≤ usizeMax)
    (decodedFits : totals.decodedReplacementBytes + added script ≤ usizeMax)
    (limit : totals.decodedReplacementBytes + added script ≤ limits.maxDecodedReplacementBytes) :
    ∃ last, inspectEdits beforeLen limits index edits totals =
      .ok ⟨last, totals.removedBytes + removed script,
        totals.decodedReplacementBytes + added script⟩ := by
  induction denotes generalizing index totals with
  | nil => exact ⟨totals.previousEnd, by simp [inspectEdits, removed, added]⟩
  | @cons edit entry edits script head tail ih =>
      obtain ⟨decoded, start, stop⟩ := ByteEdit.decode_eq_some head
      simp only [removed, added, List.map_cons, List.sum_cons] at removedFits decodedFits limit
      have text := canonicalBase64DecodedLen_of_decode decoded (texts edit (by simp))
      have range : totals.previousEnd ≤ edit.oldStart ∧ edit.oldStart ≤ edit.oldEnd ∧
          edit.oldEnd ≤ beforeLen := by
        rw [start, stop]
        exact ⟨within.1, within.2.1, within.2.2.le⟩
      have step : inspectEdit beforeLen limits index edit totals =
          .ok ⟨entry.stop, totals.removedBytes + (entry.stop - entry.start),
            totals.decodedReplacementBytes + entry.replacement.length⟩ := by
        have within : totals.decodedReplacementBytes + entry.replacement.length ≤
            limits.maxDecodedReplacementBytes := by omega
        simp only [inspectEdit, Result.ensure_of range, Result.ok_bind, text, Except.mapError]
        rw [start, stop, checkedAddNamed_of_le (by omega), Result.ok_bind,
          checkedAddNamed_of_le (by omega), Result.ok_bind, checkLimit_eq_ok.mpr within]
        rfl
      obtain ⟨last, rest⟩ := ih (index + 1)
        ⟨entry.stop, totals.removedBytes + (entry.stop - entry.start),
          totals.decodedReplacementBytes + entry.replacement.length⟩
        within.2.2 (fun e he => texts e (List.mem_cons_of_mem edit he))
        (by simp only [removed]; omega) (by simp only [added]; omega)
        (by simp only [added]; omega)
      refine ⟨last, ?_⟩
      simp only [inspectEdits, step, Result.ok_bind, rest]
      simp only [removed, added, List.map_cons, List.sum_cons, Nat.add_assoc]

/-- The preflight accepts only the edits of a script, and adds up its sizes. -/
theorem inspectEdits_ok {beforeLen : Nat} {limits : VerificationLimits} {edits : List ByteEdit}
    {index : Nat} {totals last : PatchTotals} (start : totals.previousEnd ≤ beforeLen)
    (admitted : totals.decodedReplacementBytes ≤ limits.maxDecodedReplacementBytes)
    (h : inspectEdits beforeLen limits index edits totals = .ok last) :
    ∃ script, Denotes edits script ∧ Within totals.previousEnd beforeLen script ∧
      last.removedBytes = totals.removedBytes + removed script ∧
      last.decodedReplacementBytes = totals.decodedReplacementBytes + added script ∧
      last.decodedReplacementBytes ≤ limits.maxDecodedReplacementBytes := by
  induction edits generalizing index totals with
  | nil =>
      obtain rfl := Except.ok.inj h
      exact ⟨[], .nil, start, by simp [removed], by simp [added], admitted⟩
  | cons edit edits ih =>
      obtain ⟨middle, step, rest⟩ := Result.bind_eq_ok.mp h
      rw [inspectEdit] at step
      obtain ⟨range, step⟩ := Result.check_bind_eq_ok.mp step
      obtain ⟨first, ordered, inside⟩ := Result.ensure_eq_ok.mp range
      obtain ⟨removedBytes, removes, step⟩ := Result.bind_eq_ok.mp step
      obtain ⟨decoded, measured, step⟩ := Result.bind_eq_ok.mp step
      obtain ⟨decodedBytes, adds, step⟩ := Result.bind_eq_ok.mp step
      obtain ⟨limit, step⟩ := Result.check_bind_eq_ok.mp step
      obtain rfl := Result.pure_eq_ok.mp step
      obtain ⟨-, rfl⟩ := checkedAddNamed_eq_ok.mp removes
      obtain ⟨-, rfl⟩ := checkedAddNamed_eq_ok.mp adds
      obtain ⟨bytes, decodes, rfl⟩ :=
        decode_of_canonicalBase64DecodedLen (Result.mapError_eq_ok.mp measured)
      obtain ⟨script, denotes, within, removedTotal, addedTotal, bound⟩ :=
        ih inside (checkLimit_eq_ok.mp limit) rest
      refine ⟨⟨edit.oldStart, edit.oldEnd, bytes⟩ :: script, .cons ?_ denotes,
        ⟨first, ordered, within⟩, ?_, ?_, bound⟩
      · rw [ByteEdit.decode, decodes]
        rfl
      · rw [removedTotal]
        simp only [removed, List.map_cons, List.sum_cons, Nat.add_assoc]
      · rw [addedTotal]
        simp only [added, List.map_cons, List.sum_cons, Nat.add_assoc]

/-- A patch that passes the preflight stands for a script, and the preflight predicts the length
of its replay. -/
theorem inspectPatch_ok {before : Bytes} {patch : LosslessPatch} {limits : VerificationLimits}
    {stats : PatchStats} (h : inspectPatch before patch limits = .ok stats) :
    ∃ script, ValidOn before patch script ∧ added script ≤ limits.maxDecodedReplacementBytes ∧
      stats = ⟨added script, (apply before script).length⟩ := by
  rw [inspectPatch] at h
  obtain ⟨algorithm, h⟩ := Result.check_bind_eq_ok.mp h
  obtain ⟨_, h⟩ := Result.check_bind_eq_ok.mp h
  obtain ⟨totals, inspected, h⟩ := Result.bind_eq_ok.mp h
  obtain ⟨preserved, remaining, h⟩ := Result.ofOption_bind_eq_ok.mp h
  obtain ⟨replayed, sum, h⟩ := Result.bind_eq_ok.mp h
  obtain ⟨_, h⟩ := Result.check_bind_eq_ok.mp h
  obtain rfl := Result.pure_eq_ok.mp h
  obtain ⟨script, denotes, within, removedTotal, addedTotal, bound⟩ :=
    inspectEdits_ok (Nat.zero_le _) (Nat.zero_le _) inspected
  have within : Within 0 before.length script := within
  obtain ⟨-, rfl⟩ := checkedAddNamed_eq_ok.mp sum
  simp only [Nat.zero_add] at removedTotal addedTotal
  have length := rewrite_length within (Nat.le_refl _)
  have fits := removed_le within
  rw [removedTotal, checkedSub_of_le (by omega)] at remaining
  obtain rfl := Option.some.inj remaining
  refine ⟨script, ⟨Result.ensure_eq_ok.mp algorithm, denotes, within⟩, addedTotal ▸ bound, ?_⟩
  rw [addedTotal]
  congr 1
  simp only [apply]
  omega

/-- The preflight of a valid patch predicts the length of its replay. -/
theorem inspectPatch_of_valid {before : Bytes} {patch : LosslessPatch}
    {script : List (Edit UInt8)} {limits : VerificationLimits}
    (valid : ValidOn before patch script) (admits : Admits limits before patch script) :
    inspectPatch before patch limits = .ok ⟨added script, (apply before script).length⟩ := by
  have length := rewrite_length valid.within (Nat.le_refl _)
  have bound := removed_le valid.within
  have result := admits.resultBuffer
  have source := admits.sourceBuffer
  have capacity : isizeMax ≤ usizeMax := by decide
  have texts : ∀ edit ∈ patch.edits, edit.replacementBase64.length ≤ usizeMax := by
    intro edit member
    obtain ⟨entry, entryMember, decoded⟩ := valid.denotes.mem member
    have text := Base64.decode_length (ByteEdit.decode_eq_some decoded).1
    have := replacement_length_le entryMember
    have := added_le_apply valid.within
    simp only [usizeMax, isizeMax] at *
    omega
  simp only [apply] at result
  obtain ⟨last, totals⟩ := inspectEdits_of_denotes 0 ⟨0, 0, 0⟩
    valid.denotes valid.within texts
    (by simp only [Nat.zero_add]; omega) (by simp only [Nat.zero_add]; omega)
    (by simpa using admits.decoded)
  simp only [Nat.zero_add] at totals
  have replayed : before.length - removed script + added script = (apply before script).length := by
    simp only [apply]
    omega
  simp only [inspectPatch, Result.ensure_of valid.algorithm, checkLimit_eq_ok.mpr admits.edits,
    totals, Result.ok_bind]
  rw [checkedSub_of_le (by omega), Result.ofOption_some, Result.ok_bind,
    checkedAddNamed_of_le (by simp only [apply] at replayed; omega), Result.ok_bind, replayed,
    checkLimit_eq_ok.mpr admits.result]
  rfl

end Stratadiff
