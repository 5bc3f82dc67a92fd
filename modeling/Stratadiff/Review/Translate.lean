import Stratadiff.Verifier.Patch

/-!
# Moving a patch past another one

`patches_interact` and `translate_patch` of `review.rs`. Two patches on one base
interact when some edit of one touches an edit of the other. Patches that do not
interact can be replayed in either order: the offsets of the later one are
shifted by the signed byte deltas of the earlier one.
-/

namespace Stratadiff

open EditScript

/-- The two cursors of `patches_interact`, as the edits not yet passed. -/
def editsInteract : List ByteEdit → List ByteEdit → Bool
  | [], _ => false
  | _ :: _, [] => false
  | left :: lefts, right :: rights =>
      if left.oldEnd < right.oldStart then editsInteract lefts (right :: rights)
      else if right.oldEnd < left.oldStart then editsInteract (left :: lefts) rights
      else true
termination_by lefts rights => lefts.length + rights.length

def patchesInteract (left right : LosslessPatch) : Bool := editsInteract left.edits right.edits

/-- A value that fits a signed 128-bit word. -/
def checkedI128 (value : Int) : Option Int :=
  if -(2 ^ 127) ≤ value ∧ value < 2 ^ 127 then some value else none

def editByteDelta (edit : ByteEdit) : Option Int := do
  let removedBytes ← checkedSub edit.oldEnd edit.oldStart
  let replacement ← Base64.decode edit.replacementBase64
  checkedI128 (replacement.length - removedBytes)

def translateOffset (offset : Nat) (delta : Int) : Option Nat := do
  let shifted ← checkedI128 (offset + delta)
  if 0 ≤ shifted ∧ shifted ≤ usizeMax then some shifted.toNat else none

/-- The inner loop of `translate_patch`: pass the preceding edits that end before `start`. -/
def passPreceding (start : Nat) : List ByteEdit → Int → Option (List ByteEdit × Int)
  | [], offsetDelta => some ([], offsetDelta)
  | edit :: preceding, offsetDelta =>
      if edit.oldEnd < start then do
        let delta ← editByteDelta edit
        let offsetDelta ← checkedI128 (offsetDelta + delta)
        passPreceding start preceding offsetDelta
      else some (edit :: preceding, offsetDelta)

def translateEdits : List ByteEdit → List ByteEdit → Int → Option (List ByteEdit)
  | [], _, _ => some []
  | edit :: edits, preceding, offsetDelta => do
      let (preceding, offsetDelta) ← passPreceding edit.oldStart preceding offsetDelta
      let oldStart ← translateOffset edit.oldStart offsetDelta
      let oldEnd ← translateOffset edit.oldEnd offsetDelta
      let rest ← translateEdits edits preceding offsetDelta
      return ⟨oldStart, oldEnd, edit.replacementBase64⟩ :: rest

def translatePatch (patch preceding : LosslessPatch) : Option LosslessPatch := do
  let edits ← translateEdits patch.edits preceding.edits 0
  return ⟨patch.algorithm, edits⟩

/-! ## The interaction test -/

/-- Edits that the test passes over stay strictly apart. -/
theorem editsInteract_apart {lefts rights : List ByteEdit} {ps qs : List (Edit UInt8)}
    {i k : Nat} (hp : Denotes lefts ps) (hq : Denotes rights qs) (withinLeft : Within i k ps)
    (withinRight : Within i k qs) (h : editsInteract lefts rights = false) : Apart ps qs := by
  induction lefts, rights using editsInteract.induct generalizing ps qs i with
  | case1 rights =>
      cases hp
      intro p member
      cases member
  | case2 left lefts =>
      cases hq
      intro p _ q member
      cases member
  | case3 left lefts right rights before ih =>
      rw [editsInteract, if_pos before] at h
      cases hp with | @cons _ p _ ps headLeft tailLeft =>
      cases hq with | @cons _ q _ qs headRight tailRight =>
      obtain ⟨_, _, leftEnd⟩ := ByteEdit.decode_eq_some headLeft
      obtain ⟨_, rightStart, _⟩ := ByteEdit.decode_eq_some headRight
      rw [leftEnd, rightStart] at before
      have later : Within p.stop k (q :: qs) := ⟨Nat.le_of_lt before, withinRight.2⟩
      have rest := ih tailLeft (.cons headRight tailRight) withinLeft.2.2 later h
      intro a ha b hb
      rcases List.mem_cons.mp ha with rfl | ha
      · have tail : Within q.start k (q :: qs) := ⟨Nat.le_refl _, withinRight.2⟩
        exact .inl (Nat.lt_of_lt_of_le before (tail.mem hb).1)
      · exact rest a ha b hb
  | case4 left lefts right rights notBefore before ih =>
      rw [editsInteract, if_neg notBefore, if_pos before] at h
      cases hp with | @cons _ p _ ps headLeft tailLeft =>
      cases hq with | @cons _ q _ qs headRight tailRight =>
      obtain ⟨_, leftStart, _⟩ := ByteEdit.decode_eq_some headLeft
      obtain ⟨_, _, rightEnd⟩ := ByteEdit.decode_eq_some headRight
      rw [leftStart, rightEnd] at before
      have later : Within q.stop k (p :: ps) := ⟨Nat.le_of_lt before, withinLeft.2⟩
      have rest := ih (.cons headLeft tailLeft) tailRight later withinRight.2.2 h
      intro a ha b hb
      rcases List.mem_cons.mp hb with rfl | hb
      · have tail : Within p.start k (p :: ps) := ⟨Nat.le_refl _, withinLeft.2⟩
        exact .inr (Nat.lt_of_lt_of_le before (tail.mem ha).1)
      · exact rest a ha b hb
  | case5 left lefts right rights notBefore notAfter =>
      rw [editsInteract, if_neg notBefore, if_neg notAfter] at h
      cases h

/-- The ranges of two edits overlap or share an end point. -/
def ByteEdit.Touches (left right : ByteEdit) : Prop :=
  left.oldStart ≤ right.oldEnd ∧ right.oldStart ≤ left.oldEnd

/-- Edits in order, none of which reaches into the next. -/
def Ordered (edits : List ByteEdit) : Prop :=
  (∀ edit ∈ edits, edit.oldStart ≤ edit.oldEnd) ∧
    edits.Pairwise fun earlier later => earlier.oldEnd ≤ later.oldStart

namespace Ordered

variable {edit first : ByteEdit} {edits : List ByteEdit}

theorem tail (h : Ordered (first :: edits)) : Ordered edits :=
  ⟨fun edit member => h.1 edit (List.mem_cons_of_mem _ member), (List.pairwise_cons.mp h.2).2⟩

theorem start_le (h : Ordered (first :: edits)) (member : edit ∈ first :: edits) :
    first.oldStart ≤ edit.oldStart := by
  rcases List.mem_cons.mp member with rfl | later
  · exact Nat.le_refl _
  · exact Nat.le_trans (h.1 first List.mem_cons_self) ((List.pairwise_cons.mp h.2).1 edit later)

end Ordered

/-- An edit that is passed over touches none of the edits that are left on the other side. -/
theorem editsInteract_iff {lefts rights : List ByteEdit} (hl : Ordered lefts)
    (hr : Ordered rights) :
    editsInteract lefts rights = true ↔ ∃ left ∈ lefts, ∃ right ∈ rights, left.Touches right := by
  induction lefts, rights using editsInteract.induct with
  | case1 rights => simp [editsInteract]
  | case2 left lefts => simp [editsInteract]
  | case3 left lefts right rights before ih =>
      have passed : ∀ other ∈ right :: rights, ¬left.Touches other := by
        intro other member touches
        have := hr.start_le member
        have := touches.2
        omega
      rw [editsInteract, if_pos before, ih hl.tail hr]
      constructor
      · rintro ⟨edit, member, rest⟩
        exact ⟨edit, List.mem_cons_of_mem _ member, rest⟩
      · rintro ⟨edit, member, other, there, touches⟩
        rcases List.mem_cons.mp member with rfl | later
        · exact absurd touches (passed other there)
        · exact ⟨edit, later, other, there, touches⟩
  | case4 left lefts right rights notBefore before ih =>
      have passed : ∀ other ∈ left :: lefts, ¬other.Touches right := by
        intro other member touches
        have := hl.start_le member
        have := touches.1
        omega
      rw [editsInteract, if_neg notBefore, if_pos before, ih hl hr.tail]
      constructor
      · rintro ⟨edit, member, other, there, touches⟩
        exact ⟨edit, member, other, List.mem_cons_of_mem _ there, touches⟩
      · rintro ⟨edit, member, other, there, touches⟩
        rcases List.mem_cons.mp there with rfl | later
        · exact absurd touches (passed edit member)
        · exact ⟨edit, member, other, later, touches⟩
  | case5 left lefts right rights notBefore notAfter =>
      rw [editsInteract, if_neg notBefore, if_neg notAfter]
      refine iff_of_true rfl ⟨left, List.mem_cons_self, right, List.mem_cons_self, ?_⟩
      exact ⟨Nat.le_of_not_lt notAfter, Nat.le_of_not_lt notBefore⟩

/-- The two-cursor test finds a touching pair exactly when there is one. -/
theorem patchesInteract_exact {left right : LosslessPatch} (hl : Ordered left.edits)
    (hr : Ordered right.edits) :
    (patchesInteract left right = true ↔
      ∃ edit ∈ left.edits, ∃ other ∈ right.edits, edit.Touches other) ∧
    patchesInteract left right = patchesInteract right left := by
  have exact_left := editsInteract_iff hl hr
  have exact_right := editsInteract_iff hr hl
  refine ⟨exact_left, ?_⟩
  rw [Bool.eq_iff_iff, patchesInteract, patchesInteract, exact_left, exact_right]
  constructor
  · rintro ⟨edit, member, other, there, touches⟩
    exact ⟨other, there, edit, member, touches.2, touches.1⟩
  · rintro ⟨edit, member, other, there, touches⟩
    exact ⟨other, there, edit, member, touches.2, touches.1⟩

/-- A deletion, and an insertion at its end. -/
def touchingDeletion : LosslessPatch := ⟨patchAlgorithm, [⟨2, 5, []⟩]⟩

def touchingInsertion : LosslessPatch :=
  ⟨patchAlgorithm, [⟨0, 1, []⟩, ⟨5, 5, [89, 81, 61, 61]⟩]⟩

theorem patchesInteract_exact_insertion :
    Ordered touchingDeletion.edits ∧ Ordered touchingInsertion.edits ∧
      patchesInteract touchingDeletion touchingInsertion = true := by
  have deletion : Ordered touchingDeletion.edits := by simp [touchingDeletion, Ordered]
  have insertion : Ordered touchingInsertion.edits := by simp [touchingInsertion, Ordered]
  refine ⟨deletion, insertion, (patchesInteract_exact deletion insertion).1.mpr ?_⟩
  exact ⟨⟨2, 5, []⟩, List.mem_cons_self, ⟨5, 5, [89, 81, 61, 61]⟩,
    List.mem_cons_of_mem _ List.mem_cons_self, by simp [ByteEdit.Touches]⟩

/-! ## Translation -/

theorem checkedI128_of_bounds {value : Int} (lower : -(2 ^ 64) ≤ value) (upper : value ≤ 2 ^ 64) :
    checkedI128 value = some value := if_pos (by omega)

theorem editByteDelta_of_decode {edit : ByteEdit} {entry : Edit UInt8}
    (h : edit.decode = some entry) (range : entry.start ≤ entry.stop)
    (stop : entry.stop ≤ usizeMax) (size : entry.replacement.length ≤ usizeMax) :
    editByteDelta edit = some entry.delta := by
  obtain ⟨decoded, hstart, hstop⟩ := ByteEdit.decode_eq_some h
  simp only [editByteDelta, hstart, hstop, checkedSub_of_le range, decoded,
    Option.bind_eq_bind, Option.bind_some]
  simp only [usizeMax] at stop size
  exact checkedI128_of_bounds (by omega) (by omega)

theorem translateOffset_of_bounds (offset : Nat) {delta : Int} (lower : 0 ≤ offset + delta)
    (upper : offset + delta ≤ usizeMax) :
    translateOffset offset delta = some (offset + delta).toNat := by
  have word : offset + delta ≤ 2 ^ 64 := by
    simp only [usizeMax] at upper
    omega
  rw [translateOffset, checkedI128_of_bounds (by omega) word]
  exact if_pos ⟨lower, upper⟩

/-- The translation has reached position `i` of the base, `offset` bytes away from the
same position in the other patch's result. -/
structure Reached (n i : Nat) (offset : Int) (ps qs : List (Edit UInt8)) : Prop where
  patch : Within i n ps
  preceding : Within i n qs
  apart : Apart ps qs
  produced : 0 ≤ i + offset
  room : offset + n + added qs ≤ usizeMax
  base : n ≤ usizeMax

theorem passPreceding_spec {n i : Nat} {offset : Int} {p : Edit UInt8} {ps qs : List (Edit UInt8)}
    {preceding : List ByteEdit} (reached : Reached n i offset (p :: ps) qs)
    (denotes : Denotes preceding qs) :
    ∃ preceding' qs' offset', passPreceding p.start preceding offset = some (preceding', offset') ∧
      Denotes preceding' qs' ∧
      translate offset (p :: ps) qs = p.shift offset' :: translate offset' ps qs' ∧
      0 ≤ p.start + offset' ∧ Reached n p.stop offset' ps qs' := by
  induction denotes generalizing i offset with
  | nil =>
      have first := reached.patch.1
      have range := reached.patch.2.1
      have produced := reached.produced
      refine ⟨[], [], offset, rfl, .nil, by simp [EditScript.translate], by omega, ?_⟩
      exact ⟨reached.patch.2.2, reached.patch.2.2.le, reached.apart.tail_left, by omega,
        reached.room, reached.base⟩
  | @cons edit q preceding qs head tail ih =>
      obtain ⟨_, hstart, hstop⟩ := ByteEdit.decode_eq_some head
      have range := reached.preceding.2.1
      have bound := reached.preceding.2.2.le
      have room := reached.room
      have produced := reached.produced
      have first := reached.preceding.1
      have base := reached.base
      simp only [added, List.map_cons, List.sum_cons] at room
      simp only [passPreceding, hstop]
      by_cases before : q.stop < p.start
      · have delta := editByteDelta_of_decode head range (by omega) (by omega)
        have next : checkedI128 (offset + q.delta) = some (offset + q.delta) := by
          simp only [Edit.delta]
          simp only [usizeMax] at room base
          exact checkedI128_of_bounds (by omega) (by omega)
        have moved : Reached n q.stop (offset + q.delta) (p :: ps) qs := by
          refine ⟨⟨Nat.le_of_lt before, reached.patch.2⟩, reached.preceding.2.2,
            reached.apart.tail_right, ?_, ?_, base⟩
          · simp only [Edit.delta]
            omega
          · simp only [Edit.delta, added]
            omega
        rw [if_pos before, delta, EditScript.translate, if_pos before]
        simp only [Option.bind_eq_bind, Option.bind_some, next]
        exact ih moved
      · have behind : p.stop < q.start :=
          (reached.apart p (by simp) q (by simp)).resolve_right before
        have patchFirst := reached.patch.1
        have patchRange := reached.patch.2.1
        rw [if_neg before, EditScript.translate, if_neg before]
        refine ⟨_, q :: qs, offset, rfl, .cons head tail, rfl, by omega, ?_⟩
        exact ⟨reached.patch.2.2, ⟨Nat.le_of_lt behind, reached.preceding.2⟩,
          reached.apart.tail_left, by omega, reached.room, base⟩

/-- Translating the recorded edits is translating the script they stand for. -/
theorem translateEdits_denotes {n i : Nat} {offset : Int} {ps qs : List (Edit UInt8)}
    {edits preceding : List ByteEdit} (reached : Reached n i offset ps qs)
    (denotes : Denotes edits ps) (passed : Denotes preceding qs) :
    ∃ translated, translateEdits edits preceding offset = some translated ∧
      Denotes translated (translate offset ps qs) := by
  induction denotes generalizing i offset qs preceding with
  | nil => exact ⟨[], rfl, by simp [Denotes]⟩
  | @cons edit p edits ps head tail ih =>
      obtain ⟨decoded, hstart, hstop⟩ := ByteEdit.decode_eq_some head
      obtain ⟨preceding', qs', offset', pass, denotes', step, lower, reached'⟩ :=
        passPreceding_spec reached passed
      obtain ⟨rest, translated, restDenotes⟩ := ih reached' denotes'
      have range := reached.patch.2.1
      have last := reached.patch.2.2.le
      have room := reached'.room
      have start := translateOffset_of_bounds p.start lower (by omega)
      have stop := translateOffset_of_bounds p.stop (show 0 ≤ p.stop + offset' by omega)
        (by omega)
      refine ⟨⟨(p.shift offset').start, (p.shift offset').stop, edit.replacementBase64⟩ :: rest,
        ?_, ?_⟩
      · simp only [translateEdits, hstart, hstop, pass, start, stop, translated,
          Option.bind_eq_bind, Option.bind_some]
        rfl
      · rw [step]
        refine .cons ?_ restDenotes
        simp [ByteEdit.decode, decoded, Edit.shift]

/-- A patch translated past one that stays apart from it is valid on that one's result. -/
theorem translatePatch_valid {base : Bytes} {patch preceding : LosslessPatch}
    {ps qs : List (Edit UInt8)} (hp : ValidOn base patch ps) (hq : ValidOn base preceding qs)
    (apart : Apart ps qs) (baseFits : base.length ≤ isizeMax)
    (resultFits : (apply base qs).length ≤ isizeMax) :
    ∃ translated, translatePatch patch preceding = some translated ∧
      ValidOn (apply base qs) translated (translate 0 ps qs) := by
  have replaced := added_le_apply hq.within
  have reached : Reached base.length 0 0 ps qs := by
    refine ⟨hp.within, hq.within, apart, by omega, ?_, ?_⟩
    · simp only [usizeMax, isizeMax] at *
      omega
    · simp only [usizeMax, isizeMax] at *
      omega
  obtain ⟨edits, translated, denotes⟩ := translateEdits_denotes reached hp.denotes hq.denotes
  refine ⟨⟨patch.algorithm, edits⟩, ?_, hp.algorithm, denotes,
    translate_within hp.within hq.within apart⟩
  simp only [translatePatch, translated, Option.bind_eq_bind, Option.bind_some]
  rfl

end Stratadiff
