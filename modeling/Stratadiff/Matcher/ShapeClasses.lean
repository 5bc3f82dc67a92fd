import Stratadiff.Core.Syntax
import Stratadiff.Lib.Buckets
import Stratadiff.Matcher.Groups

/-!
# Shape classes of a region

The nodes of a region are put into buckets by field, kind and shape hash, and each bucket is
split by comparing every node with the first node of each class so far. Hashes only decide
which nodes are compared: a class is what shape equality makes of its bucket.
-/

namespace Stratadiff

/-- A field, a kind and a hash, in the order of the code's maps. -/
abbrev NodeKey := WithBot String ×ₗ (String ×ₗ List Nat)

def nodeKey (tree : ParsedSyntax) (hash : SyntaxNode → Digest) (id : NodeId) : NodeKey :=
  toLex ((tree.field id : Option String), toLex ((tree.node id).kind,
    (hash (tree.node id)).bytes.map UInt8.toNat))

def shapeKey (tree : ParsedSyntax) (id : NodeId) : NodeKey := nodeKey tree SyntaxNode.shapeHash id

/-- `shape_class.before[0]`. -/
def ShapeClass.representative (shapeClass : ShapeClass) : NodeId := shapeClass.before.headD 0

section

variable (same cross : NodeId → NodeId → Bool)

/-- Put a node before into the first class whose representative has its shape. -/
def placeBefore (id : NodeId) : List ShapeClass → List ShapeClass
  | [] => [⟨[id], []⟩]
  | shapeClass :: classes =>
      if same id shapeClass.representative then
        { shapeClass with before := shapeClass.before ++ [id] } :: classes
      else shapeClass :: placeBefore id classes

/-- Put a node after into the first class whose representative has its shape, if any. -/
def placeAfter (id : NodeId) : List ShapeClass → List ShapeClass
  | [] => []
  | shapeClass :: classes =>
      if cross shapeClass.representative id then
        { shapeClass with after := shapeClass.after ++ [id] } :: classes
      else shapeClass :: placeAfter id classes

def partitionIndexBucket (beforeIds afterIds : List NodeId) : List ShapeClass :=
  (afterIds.foldl (fun classes id => placeAfter cross id classes)
    (beforeIds.foldl (fun classes id => placeBefore same id classes) [])).filter
      fun shapeClass => !shapeClass.after.isEmpty

end

def verifiedShapeClasses (before after : ParsedSyntax) (beforeIds afterIds : List NodeId) :
    List ShapeClass :=
  (Buckets.of (shapeKey before) beforeIds).flatMap fun entry =>
    ((Buckets.get (Buckets.of (shapeKey after) afterIds) entry.1).map fun afterBucket =>
      partitionIndexBucket (shapeEqual before before) (shapeEqual before after) entry.2
        afterBucket).getD []

/-! ## The classes of a bucket -/

/-- The tests compare nodes by an equivalence. -/
structure ShapeTests (same cross : NodeId → NodeId → Bool) (beforeIds afterIds : List NodeId) :
    Prop where
  refl : ∀ x ∈ beforeIds, same x x = true
  symm : ∀ x ∈ beforeIds, ∀ y ∈ beforeIds, same x y = true → same y x = true
  trans : ∀ x ∈ beforeIds, ∀ y ∈ beforeIds, ∀ z ∈ beforeIds,
    same x y = true → same y z = true → same x z = true
  across : ∀ x ∈ beforeIds, ∀ y ∈ beforeIds, ∀ z ∈ afterIds,
    same x y = true → cross y z = true → cross x z = true
  unique : ∀ x ∈ beforeIds, ∀ y ∈ beforeIds, ∀ z ∈ afterIds,
    cross x z = true → cross y z = true → same x y = true

/-- The classes of the nodes that have been placed. -/
structure Classified (same cross : NodeId → NodeId → Bool) (doneBefore doneAfter : List NodeId)
    (classes : List ShapeClass) : Prop where
  known : ∀ shapeClass ∈ classes, shapeClass.representative ∈ doneBefore
  before : ∀ shapeClass ∈ classes,
    shapeClass.before = doneBefore.filter fun x => same x shapeClass.representative
  after : ∀ shapeClass ∈ classes,
    shapeClass.after = doneAfter.filter fun y => cross shapeClass.representative y
  apart : classes.Pairwise fun first second =>
    same second.representative first.representative = false
  covers : ∀ x ∈ doneBefore, ∃ shapeClass ∈ classes, same x shapeClass.representative = true

section

variable {same cross : NodeId → NodeId → Bool}
    {beforeIds afterIds doneBefore doneAfter : List NodeId}
variable {classes : List ShapeClass} {id : NodeId}

theorem placeBefore_new
    (none : ∀ shapeClass ∈ classes, same id shapeClass.representative = false) :
    placeBefore same id classes = classes ++ [⟨[id], []⟩] := by
  induction classes with
  | nil => rfl
  | cons shapeClass classes ih =>
      have first := none shapeClass (by simp)
      rw [placeBefore, first, ih fun other member => none other (List.mem_cons_of_mem _ member)]
      simp

theorem placeBefore_found {first rest : List ShapeClass} {shapeClass : ShapeClass}
    (none : ∀ other ∈ first, same id other.representative = false)
    (found : same id shapeClass.representative = true) :
    placeBefore same id (first ++ shapeClass :: rest) =
      first ++ { shapeClass with before := shapeClass.before ++ [id] } :: rest := by
  induction first with
  | nil => simp [placeBefore, found]
  | cons other first ih =>
      rw [List.cons_append, placeBefore, none other (by simp),
        ih fun third member => none third (List.mem_cons_of_mem _ member)]
      simp

theorem placeAfter_none
    (none : ∀ shapeClass ∈ classes, cross shapeClass.representative id = false) :
    placeAfter cross id classes = classes := by
  induction classes with
  | nil => rfl
  | cons shapeClass classes ih =>
      rw [placeAfter, none shapeClass (by simp),
        ih fun other member => none other (List.mem_cons_of_mem _ member)]
      simp

theorem placeAfter_found {first rest : List ShapeClass} {shapeClass : ShapeClass}
    (none : ∀ other ∈ first, cross other.representative id = false)
    (found : cross shapeClass.representative id = true) :
    placeAfter cross id (first ++ shapeClass :: rest) =
      first ++ { shapeClass with after := shapeClass.after ++ [id] } :: rest := by
  induction first with
  | nil => simp [placeAfter, found]
  | cons other first ih =>
      rw [List.cons_append, placeAfter, none other (by simp),
        ih fun third member => none third (List.mem_cons_of_mem _ member)]
      simp

/-- The first element that passes a test, or none does. -/
theorem exists_first {α : Type} {p : α → Bool} (xs : List α) :
    (∀ x ∈ xs, p x = false) ∨
      ∃ first x rest, xs = first ++ x :: rest ∧ (∀ y ∈ first, p y = false) ∧ p x = true := by
  induction xs with
  | nil => exact .inl (by simp)
  | cons x xs ih =>
      cases here : p x with
      | true => exact .inr ⟨[], x, xs, rfl, by simp, here⟩
      | false =>
          rcases ih with none | ⟨first, y, rest, rfl, none, found⟩
          · exact .inl (List.forall_mem_cons.mpr ⟨here, none⟩)
          · exact .inr ⟨x :: first, y, rest, rfl, List.forall_mem_cons.mpr ⟨here, none⟩, found⟩

theorem Classified.start : Classified same cross [] doneAfter [] where
  known := by simp
  before := by simp
  after := by simp
  apart := .nil
  covers := by simp

theorem Classified.before_nonempty (tests : ShapeTests same cross beforeIds afterIds)
    (within : ∀ x ∈ doneBefore, x ∈ beforeIds)
    (h : Classified same cross doneBefore doneAfter classes) {shapeClass : ShapeClass}
    (member : shapeClass ∈ classes) : shapeClass.before ≠ [] := by
  have known := h.known shapeClass member
  refine List.ne_nil_of_mem (a := shapeClass.representative) ?_
  rw [h.before shapeClass member, List.mem_filter]
  exact ⟨known, tests.refl _ (within _ known)⟩

theorem representative_concat {shapeClass : ShapeClass} (some : shapeClass.before ≠ []) :
    ({ shapeClass with before := shapeClass.before ++ [id] } : ShapeClass).representative =
      shapeClass.representative := by
  obtain ⟨first, rest, cons⟩ := List.exists_cons_of_ne_nil some
  simp [ShapeClass.representative, cons]

/-- One class grows, the others stay, and no representative changes. -/
theorem Classified.grow {first rest : List ShapeClass} {old new : ShapeClass}
    {doneBefore' doneAfter' : List NodeId}
    (h : Classified same cross doneBefore doneAfter (first ++ old :: rest))
    (kept : new.representative = old.representative) (grown : doneBefore ⊆ doneBefore')
    (placed : ∀ x ∈ doneBefore', x ∈ doneBefore ∨ same x old.representative = true)
    (before : new.before = doneBefore'.filter fun x => same x old.representative)
    (after : new.after = doneAfter'.filter fun y => cross old.representative y)
    (others : ∀ other ∈ first ++ rest,
      other.before = doneBefore'.filter (fun x => same x other.representative) ∧
        other.after = doneAfter'.filter fun y => cross other.representative y) :
    Classified same cross doneBefore' doneAfter' (first ++ new :: rest) := by
  have either {other : ShapeClass} (there : other ∈ first ++ new :: rest) :
      other = new ∨ other ∈ first ++ rest := by
    simp only [List.mem_append, List.mem_cons] at there ⊢
    tauto
  have inOld {other : ShapeClass} (there : other ∈ first ++ rest) :
      other ∈ first ++ old :: rest := by
    simp only [List.mem_append, List.mem_cons] at there ⊢
    tauto
  have itself : old ∈ first ++ old :: rest := by simp
  constructor
  · intro other there
    rcases either there with rfl | same
    · rw [kept]
      exact grown (h.known old itself)
    · exact grown (h.known other (inOld same))
  · intro other there
    rcases either there with rfl | same
    · rw [kept, before]
    · exact (others other same).1
  · intro other there
    rcases either there with rfl | same
    · rw [kept, after]
    · exact (others other same).2
  · have apart := h.apart
    rw [List.pairwise_append, List.pairwise_cons] at apart ⊢
    refine ⟨apart.1, ⟨fun other late => ?_, apart.2.1.2⟩, fun other early next there => ?_⟩
    · rw [kept]
      exact apart.2.1.1 other late
    · rcases List.mem_cons.mp there with rfl | late
      · rw [kept]
        exact apart.2.2 other early old (by simp)
      · exact apart.2.2 other early next (by simp [late])
  · intro x there
    have covered :
        ∃ shapeClass ∈ first ++ old :: rest, same x shapeClass.representative = true := by
      rcases placed x there with done | here
      · exact h.covers x done
      · exact ⟨old, itself, here⟩
    obtain ⟨other, inClasses, shape⟩ := covered
    rw [List.mem_append, List.mem_cons] at inClasses
    rcases inClasses with early | rfl | late
    · exact ⟨other, List.mem_append_left _ early, shape⟩
    · exact ⟨new, List.mem_append_right _ List.mem_cons_self, by rw [kept]; exact shape⟩
    · exact ⟨other, List.mem_append_right _ (List.mem_cons_of_mem _ late), shape⟩

/-- Nodes with one shape have one class. -/
theorem Classified.same_class {first rest : List ShapeClass} {old other : ShapeClass}
    (tests : ShapeTests same cross beforeIds afterIds) (within : ∀ x ∈ doneBefore, x ∈ beforeIds)
    (h : Classified same cross doneBefore doneAfter (first ++ old :: rest))
    (there : other ∈ first ++ rest) : same other.representative old.representative = false := by
  have known := within _ (h.known old (by simp))
  have apart := h.apart
  rw [List.pairwise_append, List.pairwise_cons] at apart
  rcases List.mem_append.mp there with early | late
  · rw [Bool.eq_false_iff]
    intro alike
    have back := tests.symm _ (within _ (h.known other (by simp [early]))) _ known alike
    rw [apart.2.2 other early old (by simp)] at back
    cases back
  · exact apart.2.1.1 other late

theorem Classified.placeBefore (tests : ShapeTests same cross beforeIds afterIds)
    (within : ∀ x ∈ doneBefore, x ∈ beforeIds) (inside : id ∈ beforeIds)
    (h : Classified same cross doneBefore [] classes) :
    Classified same cross (doneBefore ++ [id]) [] (Stratadiff.placeBefore same id classes) := by
  have itself := tests.refl id inside
  rcases exists_first (p := fun shapeClass => same id shapeClass.representative) classes with
    none | ⟨first, shapeClass, rest, rfl, none, found⟩
  · rw [placeBefore_new none]
    constructor
    · intro other member
      rcases List.mem_append.mp member with old | new
      · exact List.mem_append_left _ (h.known other old)
      · obtain rfl := List.mem_singleton.mp new
        simp [ShapeClass.representative]
    · intro other member
      rcases List.mem_append.mp member with old | new
      · rw [List.filter_append, ← h.before other old]
        simp [none other old]
      · obtain rfl := List.mem_singleton.mp new
        -- A node placed before that has the shape of the new one would have shown its class.
        have fresh : doneBefore.filter (fun x => same x id) = [] := by
          rw [List.filter_eq_nil_iff]
          intro x placed alike
          obtain ⟨other, there, shape⟩ := h.covers x placed
          have known := within _ (h.known other there)
          have back := tests.symm x (within x placed) id inside alike
          have found := tests.trans id inside x (within x placed) _ known back shape
          rw [none other there] at found
          cases found
        simp [ShapeClass.representative, List.filter_append, fresh, itself]
    · intro other member
      rcases List.mem_append.mp member with old | new
      · exact h.after other old
      · obtain rfl := List.mem_singleton.mp new
        rfl
    · rw [List.pairwise_append]
      refine ⟨h.apart, List.pairwise_singleton _ _, ?_⟩
      intro other old new isNew
      obtain rfl := List.mem_singleton.mp isNew
      exact none other old
    · intro x member
      rcases List.mem_append.mp member with old | new
      · obtain ⟨other, there, shape⟩ := h.covers x old
        exact ⟨other, List.mem_append_left _ there, shape⟩
      · obtain rfl := List.mem_singleton.mp new
        exact ⟨⟨[x], []⟩, by simp, itself⟩
  · rw [placeBefore_found none found]
    have member : shapeClass ∈ first ++ shapeClass :: rest := by simp
    have known := within _ (h.known shapeClass member)
    refine h.grow (representative_concat (h.before_nonempty tests within member))
      (List.subset_append_left _ _) ?_ ?_ (h.after shapeClass member) ?_
    · intro x there
      rcases List.mem_append.mp there with old | new
      · exact .inl old
      · exact .inr (List.mem_singleton.mp new ▸ found)
    · rw [List.filter_append, ← h.before shapeClass member]
      simp [found]
    · intro other there
      have inClasses : other ∈ first ++ shapeClass :: rest := by
        simp only [List.mem_append, List.mem_cons] at there ⊢
        tauto
      have different : same id other.representative = false := by
        rw [Bool.eq_false_iff]
        intro alike
        have knownOther := within _ (h.known other inClasses)
        have clash := tests.trans _ knownOther id inside _ known
          (tests.symm id inside _ knownOther alike) found
        rw [h.same_class tests within there] at clash
        cases clash
      rw [List.filter_append, ← h.before other inClasses, h.after other inClasses]
      simp [different]

theorem Classified.placeAfter (tests : ShapeTests same cross beforeIds afterIds)
    (within : ∀ x ∈ doneBefore, x ∈ beforeIds) (inside : id ∈ afterIds)
    (h : Classified same cross doneBefore doneAfter classes) :
    Classified same cross doneBefore (doneAfter ++ [id])
      (Stratadiff.placeAfter cross id classes) := by
  rcases exists_first (p := fun shapeClass => cross shapeClass.representative id) classes with
    none | ⟨first, shapeClass, rest, rfl, none, found⟩
  · rw [placeAfter_none none]
    refine { h with after := fun other member => ?_ }
    rw [List.filter_append, ← h.after other member]
    simp [none other member]
  · rw [placeAfter_found none found]
    have member : shapeClass ∈ first ++ shapeClass :: rest := by simp
    have known := within _ (h.known shapeClass member)
    refine h.grow rfl (List.Subset.refl _) (fun x there => .inl there)
      (h.before shapeClass member) ?_ ?_
    · rw [List.filter_append, ← h.after shapeClass member]
      simp [found]
    · intro other there
      have inClasses : other ∈ first ++ shapeClass :: rest := by
        simp only [List.mem_append, List.mem_cons] at there ⊢
        tauto
      have different : cross other.representative id = false := by
        rw [Bool.eq_false_iff]
        intro alike
        have clash := tests.unique _ (within _ (h.known other inClasses)) _ known id inside alike
          found
        rw [h.same_class tests within there] at clash
        cases clash
      rw [List.filter_append, ← h.after other inClasses]
      simp [different, h.before other inClasses]

theorem classified_bucket (tests : ShapeTests same cross beforeIds afterIds) :
    Classified same cross beforeIds afterIds
      (afterIds.foldl (fun classes id => placeAfter cross id classes)
        (beforeIds.foldl (fun classes id => placeBefore same id classes) [])) := by
  have first : ∀ done rest, done ++ rest = beforeIds →
      Classified same cross done []
        (done.foldl (fun classes id => placeBefore same id classes) []) := by
    intro done
    induction done using List.reverseRecOn with
    | nil => exact fun _ _ => .start
    | append_singleton done id ih =>
        intro rest whole
        rw [List.foldl_append]
        refine (ih ([id] ++ rest) (by rw [← List.append_assoc]; exact whole)).placeBefore tests ?_
          ?_
        · intro x member
          rw [← whole]
          simp [member]
        · rw [← whole]
          simp
  have second : ∀ done rest, done ++ rest = afterIds →
      Classified same cross beforeIds done
        (done.foldl (fun classes id => placeAfter cross id classes)
        (beforeIds.foldl (fun classes id => placeBefore same id classes) [])) := by
    intro done
    induction done using List.reverseRecOn with
    | nil => exact fun _ _ => first beforeIds [] (List.append_nil _)
    | append_singleton done id ih =>
        intro rest whole
        rw [List.foldl_append]
        refine (ih ([id] ++ rest) (by rw [← List.append_assoc]; exact whole)).placeAfter tests
          (fun _ member => member) ?_
        rw [← whole]
        simp
  exact second afterIds [] (List.append_nil _)

end

/-! ## The classes of a region of two trees -/

/-- An ordered region whose nodes are nodes of two trees. -/
structure TreeRegion (left right : SyntaxTree) extends Region where
  beforeKnown : ∀ x ∈ before, x < left.nodes.length
  afterKnown : ∀ y ∈ after, y < right.nodes.length

/-- A node on either side of a region. -/
inductive Endpoint where
  | before (id : NodeId)
  | after (id : NodeId)
  deriving DecidableEq, Repr

namespace Endpoint

variable (left right : SyntaxTree)

def tree : Endpoint → SyntaxTree
  | .before _ => left
  | .after _ => right

def id : Endpoint → NodeId
  | .before id => id
  | .after id => id

def key (u : Endpoint) : NodeKey := shapeKey (u.tree left right).toParsedSyntax u.id

/-- Two nodes with one key and one shape. -/
def Alike (u v : Endpoint) : Prop := u.key left right = v.key left right ∧
  shapeEqual (u.tree left right).toParsedSyntax (v.tree left right).toParsedSyntax u.id v.id = true

def InRegion (region : Region) : Endpoint → Prop
  | .before x => x ∈ region.before
  | .after y => y ∈ region.after

def InClass (shapeClass : ShapeClass) : Endpoint → Prop
  | .before x => x ∈ shapeClass.before
  | .after y => y ∈ shapeClass.after

def InGroup (group : CandidateGroup) : Endpoint → Prop
  | .before x => x ∈ group.before
  | .after y => y ∈ group.after

/-- Nodes on different sides. -/
def Opposite : Endpoint → Endpoint → Prop
  | .before _, .after _ => True
  | .after _, .before _ => True
  | .before _, .before _ => False
  | .after _, .after _ => False

end Endpoint

section

variable {left right : SyntaxTree} {region : TreeRegion left right} {u v w : Endpoint}

theorem TreeRegion.known (inside : u.InRegion region.toRegion) :
    u.id < (u.tree left right).nodes.length := by
  cases u with
  | before x => exact region.beforeKnown x inside
  | after y => exact region.afterKnown y inside

namespace Endpoint.Alike

theorem refl (inside : u.InRegion region.toRegion) : u.Alike left right u :=
  ⟨rfl, (shapeEqual_iff (region.known inside)).mpr (.refl (region.known inside))⟩

theorem symm (inside : u.InRegion region.toRegion) (inside' : v.InRegion region.toRegion)
    (h : u.Alike left right v) : v.Alike left right u :=
  ⟨h.1.symm, (shapeEqual_iff (region.known inside')).mpr
    ((shapeEqual_iff (region.known inside)).mp h.2).symm⟩

theorem trans (inside : u.InRegion region.toRegion) (inside' : v.InRegion region.toRegion)
    (h : u.Alike left right v) (h' : v.Alike left right w) : u.Alike left right w :=
  ⟨h.1.trans h'.1, (shapeEqual_iff (region.known inside)).mpr
    (((shapeEqual_iff (region.known inside)).mp h.2).trans
      ((shapeEqual_iff (region.known inside')).mp h'.2))⟩

end Endpoint.Alike

variable (left right) in
theorem shapeTests (region : TreeRegion left right) : ShapeTests
    (shapeEqual left.toParsedSyntax left.toParsedSyntax)
    (shapeEqual left.toParsedSyntax right.toParsedSyntax) region.before region.after where
  refl x known := (shapeEqual_iff (region.beforeKnown x known)).mpr
    (.refl (region.beforeKnown x known))
  symm x known y known' h := by
    have below := region.beforeKnown x known
    have below' := region.beforeKnown y known'
    exact (shapeEqual_iff below').mpr ((shapeEqual_iff below).mp h).symm
  trans x known y known' z _ h h' := by
    have below := region.beforeKnown x known
    have below' := region.beforeKnown y known'
    exact (shapeEqual_iff below).mpr (((shapeEqual_iff below).mp h).trans
      ((shapeEqual_iff below').mp h'))
  across x known y known' z _ h h' := by
    have below := region.beforeKnown x known
    have below' := region.beforeKnown y known'
    exact (shapeEqual_iff below).mpr (((shapeEqual_iff below).mp h).trans
      ((shapeEqual_iff below').mp h'))
  unique x known y known' z _ h h' := by
    have below := region.beforeKnown x known
    have below' := region.beforeKnown y known'
    exact (shapeEqual_iff below).mpr (((shapeEqual_iff below).mp h).trans
      ((shapeEqual_iff below').mp h').symm)

theorem ShapeTests.mono {same cross : NodeId → NodeId → Bool}
    {beforeIds afterIds beforeIds' afterIds' : List NodeId}
    (h : ShapeTests same cross beforeIds afterIds) (sub : beforeIds' ⊆ beforeIds)
    (sub' : afterIds' ⊆ afterIds) : ShapeTests same cross beforeIds' afterIds' where
  refl x known := h.refl x (sub known)
  symm x known y known' := h.symm x (sub known) y (sub known')
  trans x known y known' z known'' := h.trans x (sub known) y (sub known') z (sub known'')
  across x known y known' z known'' := h.across x (sub known) y (sub known') z (sub' known'')
  unique x known y known' z known'' := h.unique x (sub known) y (sub known') z (sub' known'')

variable (region) in
theorem bucketTests (key : NodeKey) : ShapeTests
    (shapeEqual left.toParsedSyntax left.toParsedSyntax)
    (shapeEqual left.toParsedSyntax right.toParsedSyntax)
    (Buckets.bucket (shapeKey left.toParsedSyntax) key region.before)
    (Buckets.bucket (shapeKey right.toParsedSyntax) key region.after) :=
  (shapeTests left right region).mono Buckets.bucket_sublist.subset Buckets.bucket_sublist.subset

/-- A class comes from the buckets of one key. -/
theorem mem_verifiedShapeClasses {before after : ParsedSyntax} {beforeIds afterIds : List NodeId}
    {shapeClass : ShapeClass} : shapeClass ∈ verifiedShapeClasses before after beforeIds afterIds ↔
      ∃ key, Buckets.bucket (shapeKey before) key beforeIds ≠ [] ∧
        Buckets.bucket (shapeKey after) key afterIds ≠ [] ∧
        shapeClass ∈ partitionIndexBucket (shapeEqual before before) (shapeEqual before after)
          (Buckets.bucket (shapeKey before) key beforeIds)
          (Buckets.bucket (shapeKey after) key afterIds) := by
  rw [verifiedShapeClasses, List.mem_flatMap]
  constructor
  · rintro ⟨⟨key, bucket⟩, entry, member⟩
    obtain ⟨rfl, some⟩ := Buckets.mem_of.mp entry
    rw [Buckets.get_of] at member
    split at member
    · simp at member
    · next some' => exact ⟨key, some, some', member⟩
  · rintro ⟨key, some, some', member⟩
    refine ⟨(key, _), Buckets.mem_of.mpr ⟨rfl, some⟩, ?_⟩
    rw [Buckets.get_of, if_neg some']
    exact member

variable (left right) in
/-- The shape classes that the matcher finds in a region. -/
def regionClasses (region : TreeRegion left right) : List ShapeClass :=
  verifiedShapeClasses left.toParsedSyntax right.toParsedSyntax region.before region.after

/-- A class is the nodes of the region that are like its representative, with some after. -/
theorem inClass_iff {shapeClass : ShapeClass}
    (member : shapeClass ∈ regionClasses left right region) :
    (Endpoint.before shapeClass.representative).InRegion region.toRegion ∧
      shapeClass.after ≠ [] ∧ shapeClass.before.Sublist region.before ∧
      shapeClass.after.Sublist region.after ∧
      ∀ v : Endpoint, v.InClass shapeClass ↔ v.InRegion region.toRegion ∧
        v.Alike left right (.before shapeClass.representative) := by
  obtain ⟨key, _, _, inBucket⟩ := mem_verifiedShapeClasses.mp member
  obtain ⟨inAll, some⟩ := List.mem_filter.mp inBucket
  have classified := classified_bucket (bucketTests region key)
  have before := classified.before shapeClass inAll
  have after := classified.after shapeClass inAll
  obtain ⟨inRegion, sameKey⟩ := Buckets.mem_bucket.mp (classified.known shapeClass inAll)
  refine ⟨inRegion, by simpa using some, ?_, ?_, ?_⟩
  · rw [before]
    exact List.filter_sublist.trans Buckets.bucket_sublist
  · rw [after]
    exact List.filter_sublist.trans Buckets.bucket_sublist
  · rintro (x | y)
    · rw [Endpoint.InClass, before, List.mem_filter, Buckets.mem_bucket]
      constructor
      · rintro ⟨⟨there, keyed⟩, shape⟩
        exact ⟨there, keyed.trans sameKey.symm, shape⟩
      · rintro ⟨there, keyed, shape⟩
        exact ⟨⟨there, keyed.trans sameKey⟩, shape⟩
    · rw [Endpoint.InClass, after, List.mem_filter, Buckets.mem_bucket]
      have swap (there : y ∈ region.after) :
          shapeEqual left.toParsedSyntax right.toParsedSyntax shapeClass.representative y = true ↔
            shapeEqual right.toParsedSyntax left.toParsedSyntax y shapeClass.representative =
              true := by
        rw [shapeEqual_iff (region.beforeKnown _ inRegion),
          shapeEqual_iff (region.afterKnown y there)]
        exact ⟨.symm, .symm⟩
      constructor
      · rintro ⟨⟨there, keyed⟩, shape⟩
        exact ⟨there, keyed.trans sameKey.symm, (swap there).mp shape⟩
      · rintro ⟨there, keyed, shape⟩
        exact ⟨⟨there, keyed.trans sameKey⟩, (swap there).mpr shape⟩

/-- Nodes on both sides that are alike have a class. -/
theorem exists_class {x y : NodeId} (inside : x ∈ region.before) (inside' : y ∈ region.after)
    (alike : (Endpoint.before x).Alike left right (.after y)) :
    ∃ shapeClass ∈ regionClasses left right region,
      (Endpoint.before x).InClass shapeClass ∧ (Endpoint.after y).InClass shapeClass := by
  have tests := bucketTests region (shapeKey left.toParsedSyntax x)
  have classified := classified_bucket tests
  have inBucket : x ∈ Buckets.bucket (shapeKey left.toParsedSyntax)
      (shapeKey left.toParsedSyntax x) region.before := Buckets.mem_bucket.mpr ⟨inside, rfl⟩
  have inBucket' : y ∈ Buckets.bucket (shapeKey right.toParsedSyntax)
      (shapeKey left.toParsedSyntax x) region.after :=
    Buckets.mem_bucket.mpr ⟨inside', alike.1.symm⟩
  obtain ⟨shapeClass, member, shape⟩ := classified.covers x inBucket
  have cross : shapeEqual left.toParsedSyntax right.toParsedSyntax shapeClass.representative y =
      true := by
    have known := classified.known shapeClass member
    exact tests.across _ known x inBucket y inBucket' (tests.symm x inBucket _ known shape) alike.2
  have inClass : x ∈ shapeClass.before := by
    rw [classified.before shapeClass member, List.mem_filter]
    exact ⟨inBucket, shape⟩
  have inClass' : y ∈ shapeClass.after := by
    rw [classified.after shapeClass member, List.mem_filter]
    exact ⟨inBucket', cross⟩
  refine ⟨shapeClass, mem_verifiedShapeClasses.mpr ⟨_, List.ne_nil_of_mem inBucket,
    List.ne_nil_of_mem inBucket', List.mem_filter.mpr ⟨member, ?_⟩⟩, inClass, inClass'⟩
  simpa using List.ne_nil_of_mem inClass'

/-- Different classes have no node in common. -/
theorem classes_apart : (regionClasses left right region).Pairwise fun first second =>
    ∀ u : Endpoint, u.InClass first → ¬ u.InClass second := by
  have represent {key : NodeKey} {shapeClass : ShapeClass}
      (some : Buckets.bucket (shapeKey left.toParsedSyntax) key region.before ≠ [])
      (some' : Buckets.bucket (shapeKey right.toParsedSyntax) key region.after ≠ [])
      (member : shapeClass ∈ partitionIndexBucket
        (shapeEqual left.toParsedSyntax left.toParsedSyntax)
        (shapeEqual left.toParsedSyntax right.toParsedSyntax)
        (Buckets.bucket (shapeKey left.toParsedSyntax) key region.before)
        (Buckets.bucket (shapeKey right.toParsedSyntax) key region.after)) :
      shapeClass ∈ regionClasses left right region ∧
        shapeKey left.toParsedSyntax shapeClass.representative = key := by
    refine ⟨mem_verifiedShapeClasses.mpr ⟨key, some, some', member⟩, ?_⟩
    exact (Buckets.mem_bucket.mp ((classified_bucket (bucketTests region key)).known shapeClass
      (List.mem_filter.mp member).1)).2
  have opened {entry : NodeKey × List NodeId} {shapeClass : ShapeClass}
      (there : entry ∈ Buckets.of (shapeKey left.toParsedSyntax) region.before)
      (member : shapeClass ∈ ((Buckets.get (Buckets.of (shapeKey right.toParsedSyntax)
        region.after) entry.1).map fun afterBucket =>
          partitionIndexBucket (shapeEqual left.toParsedSyntax left.toParsedSyntax)
            (shapeEqual left.toParsedSyntax right.toParsedSyntax) entry.2 afterBucket).getD []) :
      shapeClass ∈ regionClasses left right region ∧
        shapeKey left.toParsedSyntax shapeClass.representative = entry.1 := by
    obtain ⟨key, bucket⟩ := entry
    obtain ⟨rfl, some⟩ := Buckets.mem_of.mp there
    rw [Buckets.get_of] at member
    split at member
    · simp at member
    · next some' => exact represent some some' member
  rw [regionClasses, verifiedShapeClasses, List.pairwise_flatMap]
  constructor
  · rintro ⟨key, bucket⟩ there
    obtain ⟨rfl, some⟩ := Buckets.mem_of.mp there
    rw [Buckets.get_of]
    split
    · exact .nil
    · next some' =>
        refine ((classified_bucket (bucketTests region key)).apart.filter _).imp_of_mem ?_
        intro first second member member' different u inFirst inSecond
        obtain ⟨inRegion, _, _, _, is_first⟩ := inClass_iff (represent some some' member).1
        obtain ⟨inRegion', _, _, _, is_second⟩ := inClass_iff (represent some some' member').1
        obtain ⟨inside, alike⟩ := (is_first u).mp inFirst
        obtain ⟨_, alike'⟩ := (is_second u).mp inSecond
        have both := (alike'.symm inside inRegion').trans inRegion' inside alike
        have clash : shapeEqual left.toParsedSyntax left.toParsedSyntax second.representative
            first.representative = true := both.2
        rw [different] at clash
        cases clash
  · have distinct : (Buckets.of (shapeKey left.toParsedSyntax) region.before).Pairwise
        fun first second => first.1 ≠ second.1 := Buckets.keys_pairwise
    refine distinct.imp_of_mem ?_
    intro entry entry' there there' different first member second member' u inFirst inSecond
    obtain ⟨isClass, key⟩ := opened there member
    obtain ⟨isClass', key'⟩ := opened there' member'
    obtain ⟨_, _, _, _, is_first⟩ := inClass_iff isClass
    obtain ⟨_, _, _, _, is_second⟩ := inClass_iff isClass'
    obtain ⟨_, alike⟩ := (is_first u).mp inFirst
    obtain ⟨_, alike'⟩ := (is_second u).mp inSecond
    have same : shapeKey left.toParsedSyntax first.representative =
        shapeKey left.toParsedSyntax second.representative := alike.1.symm.trans alike'.1
    exact different (key.symm.trans (same.trans key'))

/-- The shape classes of a region, as the groups need them. -/
def TreeRegion.shapes (region : TreeRegion left right) : ShapeClasses region.toRegion where
  classes := regionClasses left right region
  before shapeClass member := (inClass_iff member).2.2.1
  after shapeClass member := (inClass_iff member).2.2.2.1
  nonempty shapeClass member := by
    obtain ⟨inside, some, _, _, is_class⟩ := inClass_iff member
    exact ⟨List.ne_nil_of_mem ((is_class (.before _)).mpr ⟨inside, .refl inside⟩), some⟩
  apart := classes_apart.imp fun apart =>
    ⟨fun x first second => apart (.before x) first second,
      fun y first second => apart (.after y) first second⟩

/-- Shape classes are exact: two nodes of a region are in one class exactly when they are
alike and the region has a node like them on the other side. -/
theorem inClass_together (inside : u.InRegion region.toRegion)
    (inside' : v.InRegion region.toRegion) :
    (∃ shapeClass ∈ regionClasses left right region, u.InClass shapeClass ∧ v.InClass shapeClass) ↔
      u.Alike left right v ∧
        ∃ w : Endpoint, w.InRegion region.toRegion ∧ u.Opposite w ∧ u.Alike left right w := by
  have partner : (∃ shapeClass ∈ regionClasses left right region, u.InClass shapeClass) ↔
      ∃ w : Endpoint, w.InRegion region.toRegion ∧ u.Opposite w ∧ u.Alike left right w := by
    constructor
    · rintro ⟨shapeClass, member, inClass⟩
      obtain ⟨known, some, _, _, is_class⟩ := inClass_iff member
      obtain ⟨y, there⟩ := List.exists_mem_of_ne_nil _ some
      obtain ⟨inRegion, alike⟩ := (is_class (.after y)).mp there
      have likeRep := ((is_class u).mp inClass).2
      cases u with
      | before x =>
          exact ⟨.after y, inRegion, trivial,
            likeRep.trans inside known (alike.symm inRegion known)⟩
      | after x => exact ⟨.before _, known, trivial, likeRep⟩
    · rintro ⟨w, inRegion, opposite, alike⟩
      cases u with
      | before x =>
          cases w with
          | before => cases opposite
          | after y =>
              obtain ⟨shapeClass, member, here, _⟩ := exists_class inside inRegion alike
              exact ⟨shapeClass, member, here⟩
      | after y =>
          cases w with
          | before x =>
              obtain ⟨shapeClass, member, _, here⟩ := exists_class inRegion inside
                (alike.symm inside inRegion)
              exact ⟨shapeClass, member, here⟩
          | after => cases opposite
  rw [← partner]
  constructor
  · rintro ⟨shapeClass, member, first, second⟩
    obtain ⟨known, _, _, _, is_class⟩ := inClass_iff member
    have alike := ((is_class u).mp first).2
    have alike' := ((is_class v).mp second).2
    exact ⟨alike.trans inside known (alike'.symm inside' known), shapeClass, member, first⟩
  · rintro ⟨alike, shapeClass, member, first⟩
    obtain ⟨known, _, _, _, is_class⟩ := inClass_iff member
    have likeRep := ((is_class u).mp first).2
    exact ⟨shapeClass, member, first, (is_class v).mpr
      ⟨inside', (alike.symm inside inside').trans inside' inside likeRep⟩⟩

end

end Stratadiff
