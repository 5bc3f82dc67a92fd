import Stratadiff.Core.Syntax
import Stratadiff.Lib.Fallible
import Stratadiff.Lib.SelfDelimiting

/-!
# Structural hashes

Every node of a tree stores the digest of a text made of its kind, its flags and either its
own bytes or the fields and digests of its children. The text says where every part ends,
but not whether the bytes or the children follow: a long leaf can have the text of an inner
node. Everywhere else equal digests mean equal syntax.
-/

namespace Stratadiff

/-- `(value as u64).to_le_bytes()`. -/
def leBytes (value : Nat) : Bytes := (List.range 8).map fun i => UInt8.ofNat (value / 256 ^ i)

def put (bytes : Bytes) : Bytes := leBytes bytes.length ++ bytes

def putOptional (value : Option String) : Bytes :=
  value.elim [0] fun text => 1 :: put (utf8Bytes text)

def putFlags (named extra missing : Bool) : Bytes :=
  [named.toUInt8, extra.toUInt8, missing.toUInt8]

section

variable (tree : ParsedSyntax)

/-- What a parent's text says about one child. -/
def childInput (hash : SyntaxNode → Digest) (child : Nat) : Bytes :=
  putOptional (tree.field child) ++ put (hash (tree.node child)).bytes

/-- The end of the text of a node: its own bytes, or its children. -/
def bodyInput (hash : SyntaxNode → Digest) (id : Nat) : Bytes :=
  if (tree.children id).isEmpty then put (tree.text id)
  else (tree.children id).flatMap (childInput tree hash)

def headInput (domain : String) (kind : String) (id : Nat) : Bytes :=
  put (utf8Bytes domain) ++ put (utf8Bytes kind) ++
    putFlags (tree.node id).named (tree.node id).extra (tree.node id).missing

/-- What `syntax_hash`, or `universal_structural_hash` for the syntax, feeds to the hasher. -/
def syntaxInput (id : Nat) : Bytes :=
  headInput tree "stratadiff.syntax.v1" (tree.node id).kind id ++
    bodyInput tree SyntaxNode.syntaxHash id

/-- What `shape_hash` feeds to the hasher, or for a universal tree
`universal_structural_hash` for the shape. -/
def shapeInput (id : Nat) : Bytes :=
  if tree.language = .universal then
    headInput tree "stratadiff.shape.v1" (tree.node id).kind id ++
      bodyInput tree SyntaxNode.shapeHash id
  else
    headInput tree "stratadiff.shape.v1" (normalizedKind (tree.node id).kind) id ++
      (tree.children id).flatMap (childInput tree SyntaxNode.shapeHash)

def byteInput (id : Nat) : Bytes := put (utf8Bytes "stratadiff.byte.v1") ++ put (tree.text id)

/-- The digests that a tree stores are those of its nodes. -/
structure ParsedSyntax.Hashed (blake3 : Bytes → Digest) : Prop where
  byteHash : ∀ i < tree.nodes.length, (tree.node i).byteHash = blake3 (byteInput tree i)
  syntaxHash : ∀ i < tree.nodes.length, (tree.node i).syntaxHash = blake3 (syntaxInput tree i)
  shapeHash : ∀ i < tree.nodes.length, (tree.node i).shapeHash = blake3 (shapeInput tree i)

/-- The texts of a tree are in memory: their lengths are machine words. -/
structure ParsedSyntax.Addressable : Prop where
  source : tree.source.length ≤ usizeMax
  kind : ∀ i < tree.nodes.length, (utf8Bytes (tree.node i).kind).length ≤ usizeMax
  field : ∀ i < tree.nodes.length, ∀ name ∈ tree.field i, (utf8Bytes name).length ≤ usizeMax

/-- The texts that are hashed for the syntax of a tree. -/
def ParsedSyntax.syntaxInputs : Set Bytes :=
  { input | ∃ i < tree.nodes.length, syntaxInput tree i = input }

end

/-! ## The parts of a text -/

theorem leBytes_length (value : Nat) : (leBytes value).length = 8 := by simp [leBytes]

theorem leBytes_selfDelimiting : SelfDelimiting leBytes (· ≤ usizeMax) := by
  refine .of_length (fun value _ => leBytes_length value) fun a b first second same => ?_
  have digits : ∀ i ∈ List.range 8, UInt8.ofNat (a / 256 ^ i) = UInt8.ofNat (b / 256 ^ i) :=
    List.map_inj_left.mp same
  have digit (i : Nat) (below : i < 8) : a / 256 ^ i % 256 = b / 256 ^ i % 256 := by
    have values := congrArg UInt8.toNat (digits i (List.mem_range.mpr below))
    rwa [UInt8.toNat_ofNat', UInt8.toNat_ofNat'] at values
  have agree (n : Nat) (below : n ≤ 8) : a % 256 ^ n = b % 256 ^ n := by
    induction n with
    | zero => rw [pow_zero, Nat.mod_one, Nat.mod_one]
    | succ n ih =>
        rw [pow_succ, Nat.mod_mul, Nat.mod_mul, ih (Nat.le_of_succ_le below), digit n below]
  rw [← Nat.mod_eq_of_lt (Nat.lt_of_le_of_lt first (by decide : usizeMax < 256 ^ 8)),
    ← Nat.mod_eq_of_lt (Nat.lt_of_le_of_lt second (by decide : usizeMax < 256 ^ 8)),
    agree 8 (Nat.le_refl 8)]

theorem put_selfDelimiting : SelfDelimiting put fun bytes => bytes.length ≤ usizeMax :=
  leBytes_selfDelimiting.counted

theorem utf8Bytes_injective {left right : String} (same : utf8Bytes left = utf8Bytes right) :
    left = right :=
  String.toByteArray_inj.mp (ByteArray.ext (Array.toList_inj.mp same))

theorem putText_selfDelimiting :
    SelfDelimiting (fun text => put (utf8Bytes text)) fun text =>
      (utf8Bytes text).length ≤ usizeMax := by
  intro left right first second x y same
  obtain ⟨bytes, rest⟩ := put_selfDelimiting.eq first second same
  exact ⟨utf8Bytes_injective bytes, rest⟩

theorem putOptional_selfDelimiting :
    SelfDelimiting putOptional fun value => ∀ text ∈ value, (utf8Bytes text).length ≤ usizeMax :=
  putText_selfDelimiting.tagged (by decide)

theorem putFlags_inj {named extra missing named' extra' missing' : Bool}
    (same : putFlags named extra missing = putFlags named' extra' missing') :
    named = named' ∧ extra = extra' ∧ missing = missing' := by
  revert same
  revert named extra missing named' extra' missing'
  decide

theorem Digest.fits (digest : Digest) : digest.bytes.length ≤ usizeMax := by
  rw [digest.length]
  decide

theorem Digest.ext {left right : Digest} (same : left.bytes = right.bytes) : left = right := by
  cases left
  cases right
  cases same
  rfl

/-- What a text says about a child tells the field and the digest. -/
theorem child_selfDelimiting : SelfDelimiting
    (fun value : Option String × Digest => putOptional value.1 ++ put value.2.bytes)
    fun value => ∀ text ∈ value.1, (utf8Bytes text).length ≤ usizeMax := by
  rintro ⟨field, digest⟩ ⟨field', digest'⟩ first second x y same
  simp only [List.append_assoc] at same
  obtain ⟨rfl, rest⟩ := putOptional_selfDelimiting.eq first second same
  obtain ⟨bytes, rest'⟩ := put_selfDelimiting.eq digest.fits digest'.fits rest
  exact ⟨by rw [Digest.ext bytes], rest'⟩

/-! ## The text of a node -/

section

variable {left right : SyntaxTree} {l r : Nat} {blake3 : Bytes → Digest}

theorem slice_length_le (span : Span) (source : Bytes) :
    (span.slice source).length ≤ source.length := by
  rw [Span.slice, List.length_take, List.length_drop]
  omega

theorem text_fits {tree : ParsedSyntax} (addressable : tree.Addressable) (id : Nat) :
    (tree.text id).length ≤ usizeMax :=
  (slice_length_le _ _).trans addressable.source

/-- The text of a node tells its kind, its flags and its body. -/
theorem headInput_eq {left right : ParsedSyntax} {domain kind kind' : String} {x y : Bytes}
    (fits : (utf8Bytes kind).length ≤ usizeMax) (fits' : (utf8Bytes kind').length ≤ usizeMax) :
    headInput left domain kind l ++ x = headInput right domain kind' r ++ y ↔
      kind = kind' ∧ sameFlags left right l r = true ∧ x = y := by
  rw [sameFlags_iff]
  constructor
  · intro same
    simp only [headInput, List.append_assoc] at same
    have rest := List.append_cancel_left same
    obtain ⟨kinds, rest⟩ := putText_selfDelimiting.eq fits fits' rest
    obtain ⟨flags, rest⟩ := List.append_inj rest rfl
    exact ⟨kinds, putFlags_inj flags, rest⟩
  · rintro ⟨rfl, ⟨named, extra, missing⟩, rfl⟩
    rw [headInput, headInput, named, extra, missing]

/-- A leaf and an inner node that have one text. -/
structure Confusable (left right : ParsedSyntax) (l r : Nat) : Prop where
  kind : (left.node l).kind = (right.node r).kind
  flags : sameFlags left right l r = true
  leaf : left.children l = []
  inner : right.children r ≠ []
  body : put (left.text l) = (right.children r).flatMap (childInput right SyntaxNode.syntaxHash)

variable (addressable : left.toParsedSyntax.Addressable)
variable (addressable' : right.toParsedSyntax.Addressable)

include addressable addressable'

/-- The bodies of two nodes that are both leaves or both inner nodes. -/
theorem bodyInput_eq (hash : SyntaxNode → Digest) (below : l < left.nodes.length)
    (below' : r < right.nodes.length) (alike : left.children l = [] ↔ right.children r = []) :
    bodyInput left.toParsedSyntax hash l = bodyInput right.toParsedSyntax hash r ↔
      (left.children l = [] → left.text l = right.text r) ∧
      (left.children l).map (fun c => (left.field c, hash (left.node c))) =
        (right.children r).map fun c => (right.field c, hash (right.node c)) := by
  by_cases leaf : left.children l = []
  · have leaf' := alike.mp leaf
    rw [bodyInput, bodyInput, leaf, leaf']
    simp only [List.isEmpty_nil, if_true, List.map_nil, and_true, true_imp_iff]
    constructor
    · exact put_selfDelimiting.injective (text_fits addressable l) (text_fits addressable' r)
    · exact congrArg put
  · have inner : right.children r ≠ [] := fun leaf' => leaf (alike.mpr leaf')
    have codes (tree : ParsedSyntax) (cs : List Nat) : cs.flatMap (childInput tree hash) =
        (cs.map fun c => (tree.field c, hash (tree.node c))).flatMap fun value =>
          putOptional value.1 ++ put value.2.bytes := by
      rw [List.flatMap_map]
      rfl
    rw [bodyInput, bodyInput, if_neg (by simpa using leaf), if_neg (by simpa using inner),
      codes, codes]
    simp only [leaf, false_imp_iff, true_and]
    constructor
    · refine child_selfDelimiting.flatMap (fun value _ => ?_) ?_ ?_
      · cases value.1 with
        | none => simp [putOptional]
        | some => simp [putOptional]
      · rintro ⟨field, digest⟩ member
        obtain ⟨c, child, same⟩ := List.mem_map.mp member
        cases same
        exact addressable.field c (left.wellFormed.inside l below c child)
      · rintro ⟨field, digest⟩ member
        obtain ⟨c, child, same⟩ := List.mem_map.mp member
        cases same
        exact addressable'.field c (right.wellFormed.inside r below' c child)
    · exact fun same => by rw [same]

/-- The texts of two nodes that are both leaves or both inner nodes. -/
theorem syntaxInput_eq (below : l < left.nodes.length) (below' : r < right.nodes.length)
    (alike : left.children l = [] ↔ right.children r = []) :
    syntaxInput left.toParsedSyntax l = syntaxInput right.toParsedSyntax r ↔
      (left.node l).kind = (right.node r).kind ∧
      sameFlags left.toParsedSyntax right.toParsedSyntax l r = true ∧
      (left.children l = [] → left.text l = right.text r) ∧
      (left.children l).map (fun c => (left.field c, (left.node c).syntaxHash)) =
        (right.children r).map fun c => (right.field c, (right.node c).syntaxHash) := by
  rw [syntaxInput, syntaxInput,
    headInput_eq (addressable.kind l below) (addressable'.kind r below'),
    bodyInput_eq addressable addressable' SyntaxNode.syntaxHash below below' alike]

variable (language : left.language = right.language)
variable (hashed : left.toParsedSyntax.Hashed blake3) (hashed' : right.toParsedSyntax.Hashed blake3)

include language hashed hashed'

omit language in
/-- Syntax-equal nodes have equal digests. -/
theorem SyntaxEqual.hash_eq (equal : SyntaxEqual left right l r) (below : l < left.nodes.length)
    (below' : r < right.nodes.length) :
    (left.node l).syntaxHash = (right.node r).syntaxHash := by
  induction equal with
  | @node l r here length links _ ih =>
      obtain ⟨_, kind, flags, text⟩ := syntaxHere_iff.mp here
      rw [hashed.syntaxHash l below, hashed'.syntaxHash r below',
        (syntaxInput_eq addressable addressable' below below' (leaf_iff length)).mpr
          ⟨kind, flags, text, ?_⟩]
      refine List.ext_getElem (by simpa using length) fun n inside inside' => ?_
      rw [List.length_map] at inside inside'
      have member : ((left.children l)[n], (right.children r)[n]) ∈
          (left.children l).zip (right.children r) := List.mem_of_getElem? (i := n)
        (List.getElem?_zip_eq_some.mpr ⟨List.getElem?_eq_getElem inside,
          List.getElem?_eq_getElem inside'⟩)
      rw [List.getElem_map, List.getElem_map, sameField_iff.mp (links _ member),
        ih _ member (left.wellFormed.inside l below _ (List.getElem_mem inside))
          (right.wellFormed.inside r below' _ (List.getElem_mem inside'))]

/-- Below the two nodes no leaf has the text of an inner node of the other tree. -/
def Unmistakable (left right : SyntaxTree) (l r : Nat) : Prop :=
  ∀ i j, left.preorder.InSubtree l i → right.preorder.InSubtree r j →
    ¬ Confusable left.toParsedSyntax right.toParsedSyntax i j ∧
      ¬ Confusable right.toParsedSyntax left.toParsedSyntax j i

omit addressable addressable' language hashed hashed' in
theorem Unmistakable.child (h : Unmistakable left right l r) (below : l < left.nodes.length)
    (below' : r < right.nodes.length) {c d : Nat} (child : c ∈ left.children l)
    (child' : d ∈ right.children r) : Unmistakable left right c d := by
  intro i j inside inside'
  have first : left.preorder.InSubtree l c := PreorderTree.child_inSubtree below child
  have second : right.preorder.InSubtree r d := PreorderTree.child_inSubtree below' child'
  exact h i j (first.trans below inside) (second.trans below' inside')

/-- Nodes with equal digests are syntax-equal, unless a leaf is mistaken for an inner node. -/
theorem syntaxEqual_of_hash
    (distinct : Set.InjOn blake3 (left.syntaxInputs ∪ right.syntaxInputs)) :
    ∀ l < left.nodes.length, ∀ r < right.nodes.length, Unmistakable left right l r →
      (left.node l).syntaxHash = (right.node r).syntaxHash → SyntaxEqual left right l r := by
  refine PreorderTree.induction left.preorder fun l below ih r below' apart same => ?_
  replace below : l < left.nodes.length := below
  rw [hashed.syntaxHash l below, hashed'.syntaxHash r below'] at same
  have inputs := distinct (.inl ⟨l, below, rfl⟩) (.inr ⟨r, below', rfl⟩) same
  have confused := apart l r (.refl below) (.refl below')
  obtain ⟨kind, flags, body⟩ := (headInput_eq (addressable.kind l below)
    (addressable'.kind r below')).mp inputs
  have alike : left.children l = [] ↔ right.children r = [] := by
    constructor
    · intro leaf
      by_contra inner
      refine confused.1 ⟨kind, flags, leaf, inner, ?_⟩
      rw [bodyInput, bodyInput, if_pos (by simp [leaf]), if_neg (by simpa using inner)] at body
      exact body
    · intro leaf
      by_contra inner
      refine confused.2 ⟨kind.symm, sameFlags_symm flags, leaf, inner, ?_⟩
      rw [bodyInput, bodyInput, if_neg (by simpa using inner), if_pos (by simp [leaf])] at body
      exact body.symm
  obtain ⟨_, _, text, children⟩ := (syntaxInput_eq addressable addressable' below below' alike).mp
    inputs
  have length : (left.children l).length = (right.children r).length := by
    simpa using congrArg List.length children
  have agree : ∀ pair ∈ (left.children l).zip (right.children r),
      left.field pair.1 = right.field pair.2 ∧
        (left.node pair.1).syntaxHash = (right.node pair.2).syntaxHash := by
    rintro ⟨c, d⟩ member
    obtain ⟨n, found⟩ := List.getElem?_of_mem member
    obtain ⟨first, second⟩ := List.getElem?_zip_eq_some.mp found
    have there := congrArg (fun values => values[n]?) children
    rw [List.getElem?_map, List.getElem?_map, first, second] at there
    exact Prod.mk.inj (Option.some.inj there)
  refine .node (syntaxHere_iff.mpr ⟨language, kind, flags, text⟩) length ?_ ?_
  · intro pair member
    exact sameField_iff.mpr (agree pair member).1
  · intro pair member
    obtain ⟨child, child'⟩ := List.of_mem_zip member
    exact ih pair.1 child pair.2 (right.wellFormed.inside r below' _ child')
      (apart.child below below' child child') (agree pair member).2

omit addressable addressable' language hashed hashed' in
theorem leBytes_eq (value : Nat) : leBytes value = UInt8.ofNat value ::
    UInt8.ofNat (value / 256) :: (List.range' 2 6).map fun i => UInt8.ofNat (value / 256 ^ i) := by
  simp [leBytes, List.range_eq_range', List.range'_succ]

omit addressable' language hashed hashed' in
/-- A leaf that is mistaken for an inner node is more than 256 bytes long. -/
theorem Confusable.long
    (h : Confusable left.toParsedSyntax right.toParsedSyntax l r) : 256 < (left.text l).length := by
  by_contra short
  have body := h.body
  obtain ⟨c, rest, children⟩ := List.exists_cons_of_ne_nil h.inner
  have fits := text_fits addressable l
  rw [children, List.flatMap_cons, childInput, put, leBytes_eq] at body
  cases field : right.field c with
  | none =>
      -- The second byte is that of the length of a digest.
      rw [field, putOptional, Option.elim_none, put, leBytes_eq, (right.node c).syntaxHash.length]
        at body
      simp only [List.cons_append, List.nil_append, List.cons.injEq] at body
      have second := congrArg UInt8.toNat body.2.1
      rw [UInt8.toNat_ofNat', UInt8.toNat_ofNat'] at second
      omega
  | some name =>
      rw [field, putOptional, Option.elim_some] at body
      have first := congrArg UInt8.toNat (List.cons.inj body).1
      rw [UInt8.toNat_ofNat'] at first
      have total := congrArg List.length body
      simp only [List.length_cons, List.length_append, List.length_map, List.length_range', put,
        leBytes_length, (right.node c).syntaxHash.length] at total
      have one : (1 : UInt8).toNat = 1 := rfl
      omega

/-- Within one language, and where BLAKE3 has no collision among the texts that the two trees
hash, equal digests are syntax equality, but for a leaf of more than 256 bytes that is taken
for an inner node. -/
theorem syntax_hash_faithful (distinct : Set.InjOn blake3 (left.syntaxInputs ∪ right.syntaxInputs))
    (below : l < left.nodes.length) (below' : r < right.nodes.length) :
    (syntaxEqual left.toParsedSyntax right.toParsedSyntax l r = true →
      (left.node l).syntaxHash = (right.node r).syntaxHash) ∧
    (Unmistakable left right l r →
      (left.node l).syntaxHash = (right.node r).syntaxHash →
        syntaxEqual left.toParsedSyntax right.toParsedSyntax l r = true) ∧
    ((∀ i, left.preorder.InSubtree l i → (left.text i).length ≤ 256) →
      (∀ j, right.preorder.InSubtree r j → (right.text j).length ≤ 256) →
        Unmistakable left right l r) := by
  refine ⟨fun equal => ?_, fun apart same => ?_, fun short short' i j inside inside' => ⟨?_, ?_⟩⟩
  · exact SyntaxEqual.hash_eq addressable addressable' hashed hashed'
      ((syntaxEqual_iff below).mp equal) below below'
  · exact (syntaxEqual_iff below).mpr (syntaxEqual_of_hash addressable addressable' language hashed
      hashed' distinct l below r below' apart same)
  · exact fun confused => (short i inside).not_gt (confused.long addressable)
  · exact fun confused => (short' j inside').not_gt (confused.long addressable')

end

/-- The JSON text `1`. -/
def numberSyntax : ParsedSyntax where
  source := [49]
  nodes := [
    { id := 0, kind := "document", named := true, extra := false, missing := false, field := none
      span := ⟨0, 1, ⟨0, 0⟩, ⟨0, 1⟩⟩, parent := none, children := [1], subtreeSize := 2
      byteHash := .ofNat 0x4f555cf57058b5274b83a5d3afbfd02b8a29b21cc88c6dce8781bc9e8cd9f66c
      syntaxHash := .ofNat 0x0f1a2c834e57bd5d43c8ff44269384af7cd9f5c9359fc70af3b34ca80514035c
      shapeHash := .ofNat 0x525a3f9066c6214489e77bcfb170fa4fa7af557cfd09d49222d830e344db28c5 },
    { id := 1, kind := "number", named := true, extra := false, missing := false, field := none
      span := ⟨0, 1, ⟨0, 0⟩, ⟨0, 1⟩⟩, parent := some 0, children := [], subtreeSize := 1
      byteHash := .ofNat 0x4f555cf57058b5274b83a5d3afbfd02b8a29b21cc88c6dce8781bc9e8cd9f66c
      syntaxHash := .ofNat 0xacbad363c315f7eb468c95aad1ca144f22ae20cb966de5e47768a8c9c16b28d9
      shapeHash := .ofNat 0xa61b8c830f33d6c2704eb7f6bde71a73c1da88918d83dcf3d90ef74137cb4990 }]
  root := 0
  rootKind := "document"
  language := .json

def numberTree : SyntaxTree where
  toParsedSyntax := numberSyntax
  wellFormed := {
    root := rfl
    nonempty := by decide
    ids := by decide
    tiles := by decide
    inside := by decide
    within := by decide
    whole := by decide
    rootParent := rfl
    parent := by decide }

/-- The JSON text `true`. -/
def trueSyntax : ParsedSyntax where
  source := [116, 114, 117, 101]
  nodes := [
    { id := 0, kind := "document", named := true, extra := false, missing := false, field := none
      span := ⟨0, 4, ⟨0, 0⟩, ⟨0, 4⟩⟩, parent := none, children := [1], subtreeSize := 2
      byteHash := .ofNat 0x56ac8b386cf80a5983684c302765056a988ccca483b622ac1341f6f2befcaa3b
      syntaxHash := .ofNat 0xb1b9ee37f64ff62dd7900d822fa06afff17adc2707f3798a6d71db671742ccb6
      shapeHash := .ofNat 0x336f5688a85958b4dead7b6945c92ae1024e609392a2b7c432ce1e9d3fd2fb3a },
    { id := 1, kind := "true", named := true, extra := false, missing := false, field := none
      span := ⟨0, 4, ⟨0, 0⟩, ⟨0, 4⟩⟩, parent := some 0, children := [], subtreeSize := 1
      byteHash := .ofNat 0x56ac8b386cf80a5983684c302765056a988ccca483b622ac1341f6f2befcaa3b
      syntaxHash := .ofNat 0x8d360f1541a0f2dd6e031b10b96d726528201264624207db8efafd6bbf3ae980
      shapeHash := .ofNat 0x42d5ad13c688f882aa3ecfeb901103c97d721f418f84510c74ea4fa560c9d284 }]
  root := 0
  rootKind := "document"
  language := .json

def trueTree : SyntaxTree where
  toParsedSyntax := trueSyntax
  wellFormed := {
    root := rfl
    nonempty := by decide
    ids := by decide
    tiles := by decide
    inside := by decide
    within := by decide
    whole := by decide
    rootParent := rfl
    parent := by decide }

/-- BLAKE3 on the texts that the two trees hash. -/
def scalarBlake3 (input : Bytes) : Digest :=
  let texts := [numberSyntax, trueSyntax].flatMap fun tree => [0, 1].flatMap fun i =>
    [(byteInput tree i, (tree.node i).byteHash), (syntaxInput tree i, (tree.node i).syntaxHash),
      (shapeInput tree i, (tree.node i).shapeHash)]
  (texts.lookup input).getD .zero

theorem syntax_hash_faithful_scalars :
    (syntaxEqual numberSyntax trueSyntax 0 0 = true →
      (numberSyntax.node 0).syntaxHash = (trueSyntax.node 0).syntaxHash) ∧
    (Unmistakable numberTree trueTree 0 0 →
      (numberSyntax.node 0).syntaxHash = (trueSyntax.node 0).syntaxHash →
        syntaxEqual numberSyntax trueSyntax 0 0 = true) ∧
    ((∀ i, numberTree.preorder.InSubtree 0 i → (numberSyntax.text i).length ≤ 256) →
      (∀ j, trueTree.preorder.InSubtree 0 j → (trueSyntax.text j).length ≤ 256) →
        Unmistakable numberTree trueTree 0 0) := by
  have distinct : ∀ a ∈ [(numberSyntax, 0), (numberSyntax, 1), (trueSyntax, 0), (trueSyntax, 1)],
      ∀ b ∈ [(numberSyntax, 0), (numberSyntax, 1), (trueSyntax, 0), (trueSyntax, 1)],
        scalarBlake3 (syntaxInput a.1 a.2) = scalarBlake3 (syntaxInput b.1 b.2) →
          syntaxInput a.1 a.2 = syntaxInput b.1 b.2 := by decide +kernel
  have known {input : Bytes}
      (member : input ∈ numberSyntax.syntaxInputs ∪ trueSyntax.syntaxInputs) :
      ∃ a ∈ [(numberSyntax, 0), (numberSyntax, 1), (trueSyntax, 0), (trueSyntax, 1)],
        syntaxInput a.1 a.2 = input := by
    obtain ⟨i, below, rfl⟩ | ⟨i, below, rfl⟩ := member
    · obtain rfl | rfl : i = 0 ∨ i = 1 := by
        have : i < 2 := below
        omega
      · exact ⟨(numberSyntax, 0), by simp, rfl⟩
      · exact ⟨(numberSyntax, 1), by simp, rfl⟩
    · obtain rfl | rfl : i = 0 ∨ i = 1 := by
        have : i < 2 := below
        omega
      · exact ⟨(trueSyntax, 0), by simp, rfl⟩
      · exact ⟨(trueSyntax, 1), by simp, rfl⟩
  refine @syntax_hash_faithful numberTree trueTree 0 0 scalarBlake3
    ⟨by decide +kernel, by decide +kernel, by decide +kernel⟩
    ⟨by decide +kernel, by decide +kernel, by decide +kernel⟩ rfl
    ⟨by decide +kernel, by decide +kernel, by decide +kernel⟩
    ⟨by decide +kernel, by decide +kernel, by decide +kernel⟩ ?_ (by decide) (by decide)
  intro x inside y inside' same
  obtain ⟨a, isA, rfl⟩ := known inside
  obtain ⟨b, isB, rfl⟩ := known inside'
  exact distinct a isA b isB same

/-! ## A leaf that passes for an inner node -/

section

variable (blake3 : Bytes → Digest) (language : Language) (kind : String) (text : Bytes)
  (escapes : Nat)

/-- A Python escape `\n`, the child of number `i` of a string. -/
def escapeNode (i : Nat) : SyntaxNode where
  id := i + 1
  kind := "escape_sequence"
  named := true
  extra := false
  missing := false
  field := none
  span := ⟨2 * i, 2 * i + 2, ⟨0, 2 * i⟩, ⟨0, 2 * i + 2⟩⟩
  parent := some 0
  children := []
  subtreeSize := 1
  byteHash := blake3 (put (utf8Bytes "stratadiff.byte.v1") ++ put (utf8Bytes "\\n"))
  syntaxHash := blake3 (put (utf8Bytes "stratadiff.syntax.v1") ++
    put (utf8Bytes "escape_sequence") ++ putFlags true false false ++ put (utf8Bytes "\\n"))
  shapeHash := blake3 (put (utf8Bytes "stratadiff.shape.v1") ++
    put (utf8Bytes "escape_sequence") ++ putFlags true false false)

/-- A node whose children are escapes, or a leaf when there are none. -/
def escapesNode : SyntaxNode where
  id := 0
  kind := kind
  named := true
  extra := false
  missing := false
  field := none
  span := ⟨0, text.length, ⟨0, 0⟩, ⟨0, text.length⟩⟩
  parent := none
  children := List.range' 1 escapes
  subtreeSize := 1 + escapes
  byteHash := blake3 (put (utf8Bytes "stratadiff.byte.v1") ++ put text)
  syntaxHash := blake3 (put (utf8Bytes "stratadiff.syntax.v1") ++
    put (utf8Bytes kind) ++ putFlags true false false ++
      if escapes = 0 then put text
      else (List.replicate escapes (0 :: put (escapeNode blake3 0).syntaxHash.bytes)).flatten)
  shapeHash := blake3 (put (utf8Bytes "stratadiff.shape.v1") ++
    put (utf8Bytes (normalizedKind kind)) ++ putFlags true false false ++
      (List.replicate escapes (0 :: put (escapeNode blake3 0).shapeHash.bytes)).flatten)

def escapesSyntax : ParsedSyntax where
  source := text
  nodes := escapesNode blake3 kind text escapes :: (List.range escapes).map (escapeNode blake3)
  root := 0
  rootKind := kind
  language := language

theorem escapesSyntax_length :
    (escapesSyntax blake3 language kind text escapes).nodes.length = escapes + 1 := by
  simp [escapesSyntax]

theorem escapesSyntax_child {i : Nat} (below : i < escapes) :
    (escapesSyntax blake3 language kind text escapes).node (i + 1) = escapeNode blake3 i := by
  simp [ParsedSyntax.node, escapesSyntax, below]

theorem tiles_range' {size : Nat → Nat} {start count : Nat}
    (single : ∀ c ∈ List.range' start count, size c = 1) :
    Tiles size (List.range' start count) start (start + count) := by
  induction count generalizing start with
  | zero => exact rfl
  | succ count ih =>
      rw [List.range'_succ] at single ⊢
      refine ⟨rfl, ?_⟩
      rw [single start (by simp), ← Nat.add_assoc, Nat.add_right_comm]
      exact ih fun c member => single c (List.mem_cons_of_mem _ member)

theorem mem_escapes {c : Nat} (member : c ∈ List.range' 1 escapes) :
    ∃ i < escapes, c = i + 1 := by
  have := List.mem_range'_1.mp member
  exact ⟨c - 1, by omega, by omega⟩

/-- What holds of the root and of its children holds of every node. -/
theorem escapesSyntax_cases {P : Nat → Prop} (first : P 0) (later : ∀ i < escapes, P (i + 1)) :
    ∀ i < (escapesSyntax blake3 language kind text escapes).nodes.length, P i := by
  rw [escapesSyntax_length]
  intro i below
  cases i with
  | zero => exact first
  | succ i => exact later i (by omega)

theorem escapesSyntax_size {i : Nat} (below : i < escapes) :
    (escapesSyntax blake3 language kind text escapes).size (i + 1) = 1 := by
  rw [ParsedSyntax.size, escapesSyntax_child _ _ _ _ _ below]
  rfl

theorem escapesSyntax_leaf {i : Nat} (below : i < escapes) :
    (escapesSyntax blake3 language kind text escapes).children (i + 1) = [] := by
  rw [ParsedSyntax.children, escapesSyntax_child _ _ _ _ _ below]
  rfl

theorem escapesSyntax_whole :
    (escapesSyntax blake3 language kind text escapes).size 0 = 1 + escapes := rfl

def escapesTree : SyntaxTree where
  toParsedSyntax := escapesSyntax blake3 language kind text escapes
  wellFormed := {
    root := rfl
    nonempty := by simp [escapesSyntax_length]
    ids := escapesSyntax_cases _ _ _ _ _ rfl fun i below => by
      rw [escapesSyntax_child _ _ _ _ _ below]
      rfl
    tiles := by
      refine escapesSyntax_cases _ _ _ _ _ ?_ fun i below => ?_
      · rw [escapesSyntax_whole, Nat.zero_add, Nat.zero_add]
        refine tiles_range' fun c member => ?_
        obtain ⟨i, below, rfl⟩ := mem_escapes _ member
        exact escapesSyntax_size _ _ _ _ _ below
      · rw [escapesSyntax_leaf _ _ _ _ _ below, escapesSyntax_size _ _ _ _ _ below]
        exact rfl
    inside := by
      refine escapesSyntax_cases _ _ _ _ _ (fun c member => ?_) fun i below c member => ?_
      · obtain ⟨i, below, rfl⟩ := mem_escapes _ member
        rw [escapesSyntax_length]
        omega
      · rw [escapesSyntax_leaf _ _ _ _ _ below] at member
        cases member
    within := by
      refine escapesSyntax_cases _ _ _ _ _ ?_ fun i below => ?_
      · rw [escapesSyntax_whole, escapesSyntax_length]
        omega
      · rw [escapesSyntax_size _ _ _ _ _ below, escapesSyntax_length]
        omega
    whole := by
      rw [escapesSyntax_whole, escapesSyntax_length]
      omega
    rootParent := rfl
    parent := by
      refine escapesSyntax_cases _ _ _ _ _ (fun c member => ?_) fun i below c member => ?_
      · obtain ⟨i, below, rfl⟩ := mem_escapes _ member
        rw [escapesSyntax_child _ _ _ _ _ below]
        rfl
      · rw [escapesSyntax_leaf _ _ _ _ _ below] at member
        cases member }

/-- Every escape is `\n`. -/
def Escaped : Prop := ∀ i < escapes, (text.drop (2 * i)).take 2 = utf8Bytes "\\n"

variable {blake3 language kind text escapes}

theorem escapesSyntax_text {i : Nat} (escaped : Escaped text escapes) (below : i < escapes) :
    (escapesSyntax blake3 language kind text escapes).text (i + 1) = utf8Bytes "\\n" := by
  rw [ParsedSyntax.text, escapesSyntax_child _ _ _ _ _ below, Span.slice]
  have width : 2 * i + 2 - 2 * i = 2 := by omega
  exact (congrArg (fun n => (text.drop (2 * i)).take n) width).trans (escaped i below)

theorem escapesSyntax_childInput (hash : SyntaxNode → Digest)
    (same : ∀ i < escapes, hash (escapeNode blake3 i) = hash (escapeNode blake3 0)) :
    (List.range' 1 escapes).flatMap
        (childInput (escapesSyntax blake3 language kind text escapes) hash) =
      (List.replicate escapes (0 :: put (hash (escapeNode blake3 0)).bytes)).flatten := by
  rw [List.flatMap_def]
  refine congrArg List.flatten (List.eq_replicate_iff.mpr ⟨by simp, fun input member => ?_⟩)
  obtain ⟨c, isChild, rfl⟩ := List.mem_map.mp member
  obtain ⟨i, below, rfl⟩ := mem_escapes _ isChild
  rw [childInput, ParsedSyntax.field, escapesSyntax_child _ _ _ _ _ below, same i below]
  rfl

theorem escapesSyntax_hashed (escaped : Escaped text escapes) (other : language ≠ .universal) :
    (escapesSyntax blake3 language kind text escapes).Hashed blake3 := by
  have rootText : (escapesSyntax blake3 language kind text escapes).text 0 = text := by
    exact List.take_of_length_le (Nat.sub_zero _).ge
  have rootChildren : (escapesSyntax blake3 language kind text escapes).children 0 =
      List.range' 1 escapes := rfl
  refine ⟨escapesSyntax_cases _ _ _ _ _ ?_ fun i below => ?_,
    escapesSyntax_cases _ _ _ _ _ ?_ fun i below => ?_,
    escapesSyntax_cases _ _ _ _ _ ?_ fun i below => ?_⟩
  · rw [byteInput, rootText]
    rfl
  · rw [byteInput, escapesSyntax_text escaped below, escapesSyntax_child _ _ _ _ _ below]
    rfl
  · rw [syntaxInput, bodyInput, rootChildren, rootText, escapesSyntax_childInput _ fun _ _ => rfl]
    cases escapes with
    | zero => rfl
    | succ escapes => rfl
  · rw [syntaxInput, bodyInput, escapesSyntax_leaf _ _ _ _ _ below,
      escapesSyntax_text escaped below, headInput, escapesSyntax_child _ _ _ _ _ below]
    rfl
  · rw [shapeInput, if_neg (by exact other), rootChildren,
      escapesSyntax_childInput _ fun _ _ => rfl]
    rfl
  · rw [shapeInput, if_neg (by exact other), escapesSyntax_leaf _ _ _ _ _ below, headInput,
      escapesSyntax_child _ _ _ _ _ below, escapeNode]
    have kind : normalizedKind "escape_sequence" = "escape_sequence" := by decide +kernel
    rw [kind]
    simp

theorem escapesSyntax_addressable (small : text.length ≤ usizeMax)
    (short : (utf8Bytes kind).length ≤ usizeMax) :
    (escapesSyntax blake3 language kind text escapes).Addressable := by
  refine ⟨small, escapesSyntax_cases _ _ _ _ _ short fun i below => ?_,
    escapesSyntax_cases _ _ _ _ _ ?_ fun i below => ?_⟩
  · have known : (utf8Bytes "escape_sequence").length ≤ usizeMax := by decide
    rw [escapesSyntax_child _ _ _ _ _ below]
    exact known
  · intro name member
    cases member
  · intro name member
    rw [ParsedSyntax.field, escapesSyntax_child _ _ _ _ _ below] at member
    cases member

end

/-- A text that, with its length before it, says 200 times what is said about an escape. -/
def mistakenText (blake3 : Bytes → Digest) : Bytes :=
  0 :: (escapeNode blake3 0).syntaxHash.bytes ++
    (List.replicate 199 (0 :: put (escapeNode blake3 0).syntaxHash.bytes)).flatten

theorem mistakenText_length (blake3 : Bytes → Digest) : (mistakenText blake3).length = 8192 := by
  have one : (0 :: put (escapeNode blake3 0).syntaxHash.bytes).length = 41 := by
    rw [put, List.length_cons, List.length_append, leBytes_length, Digest.length]
  rw [mistakenText, List.length_append, List.length_cons, Digest.length,
    List.length_flatten, List.map_replicate, one, List.sum_replicate]
  rfl

theorem put_mistakenText (blake3 : Bytes → Digest) : put (mistakenText blake3) =
    (List.replicate 200 (0 :: put (escapeNode blake3 0).syntaxHash.bytes)).flatten := by
  have size : leBytes 8192 ++ [0] = 0 :: leBytes 32 := by decide
  rw [List.replicate_succ, List.flatten_cons, put, mistakenText_length, mistakenText]
  generalize (List.replicate 199 (0 :: put (escapeNode blake3 0).syntaxHash.bytes)).flatten = rest
  calc leBytes 8192 ++ (0 :: (escapeNode blake3 0).syntaxHash.bytes ++ rest)
      = leBytes 8192 ++ [0] ++ ((escapeNode blake3 0).syntaxHash.bytes ++ rest) := by simp
    _ = 0 :: put (escapeNode blake3 0).syntaxHash.bytes ++ rest := by
        rw [size, put, Digest.length]
        simp

theorem escaped_replicate (count : Nat) :
    Escaped (List.replicate count (utf8Bytes "\\n")).flatten count := by
  have width : (utf8Bytes "\\n").length = 2 := by decide
  induction count with
  | zero => exact fun i below => absurd below (Nat.not_lt_zero i)
  | succ count ih =>
      intro i below
      rw [List.replicate_succ, List.flatten_cons]
      cases i with
      | zero =>
          rw [Nat.mul_zero, List.drop_zero, List.take_append_of_le_length width.ge,
            List.take_of_length_le width.le]
      | succ i =>
          rw [Nat.mul_succ, Nat.add_comm, ← List.drop_drop, ← width, List.drop_left, width]
          exact ih i (by omega)

/-- Whatever the digest, a text can pass for an inner node, and a C file for a C++ file. -/
theorem syntax_hash_mistaken :
    (¬ ∃ blake3 : Bytes → Digest, ∀ left right : SyntaxTree, left.language = right.language →
      left.Hashed blake3 → right.Hashed blake3 → left.Addressable → right.Addressable →
        (left.node 0).syntaxHash = (right.node 0).syntaxHash →
          syntaxEqual left.toParsedSyntax right.toParsedSyntax 0 0 = true) ∧
    ¬ ∃ blake3 : Bytes → Digest, ∀ left right : SyntaxTree, Unmistakable left right 0 0 →
      left.Hashed blake3 → right.Hashed blake3 → left.Addressable → right.Addressable →
        (left.node 0).syntaxHash = (right.node 0).syntaxHash →
          syntaxEqual left.toParsedSyntax right.toParsedSyntax 0 0 = true := by
  have leaf (text : Bytes) : Escaped text 0 := fun i below => absurd below (Nat.not_lt_zero i)
  constructor
  · rintro ⟨blake3, faithful⟩
    have size : (List.replicate 200 (utf8Bytes "\\n")).flatten.length = 400 := by
      rw [List.length_flatten, List.map_replicate, List.sum_replicate]
      rfl
    have short : (utf8Bytes "string_content").length ≤ usizeMax := by decide
    have equal := faithful
      (escapesTree blake3 .python "string_content" (mistakenText blake3) 0)
      (escapesTree blake3 .python "string_content"
        (List.replicate 200 (utf8Bytes "\\n")).flatten 200)
      rfl
      (escapesSyntax_hashed (leaf _) (by decide))
      (escapesSyntax_hashed (escaped_replicate 200) (by decide))
      (escapesSyntax_addressable (by rw [mistakenText_length]; decide) short)
      (escapesSyntax_addressable (by rw [size]; decide) short)
      (congrArg (fun body => blake3 (put (utf8Bytes "stratadiff.syntax.v1") ++
        put (utf8Bytes "string_content") ++ putFlags true false false ++ body))
        (put_mistakenText blake3))
    have below :
        0 < (escapesTree blake3 .python "string_content" (mistakenText blake3) 0).nodes.length :=
      Nat.one_pos
    cases (syntaxEqual_iff below).mp equal with
    | node _ length _ _ =>
        have none : 0 = (List.range' 1 200).length := length
        rw [List.length_range'] at none
        cases none
  · rintro ⟨blake3, faithful⟩
    have short : (utf8Bytes "translation_unit").length ≤ usizeMax := by decide
    have equal := faithful (escapesTree blake3 .c "translation_unit" [] 0)
      (escapesTree blake3 .cpp "translation_unit" [] 0) ?_
      (escapesSyntax_hashed (leaf _) (by decide)) (escapesSyntax_hashed (leaf _) (by decide))
      (escapesSyntax_addressable (by decide) short) (escapesSyntax_addressable (by decide) short)
      rfl
    · have below : 0 < (escapesTree blake3 .c "translation_unit" [] 0).nodes.length := Nat.one_pos
      cases (syntaxEqual_iff below).mp equal with
      | node here _ _ _ => cases (syntaxHere_iff.mp here).1
    · intro i j inside inside'
      have onlyRoot {language : Language} {k : Nat} (inside :
          (escapesTree blake3 language "translation_unit" [] 0).preorder.InSubtree 0 k) :
          k = 0 := by
        have alone := inside.2
        rw [show (escapesTree blake3 language "translation_unit" [] 0).preorder.size 0 = 1
          from rfl] at alone
        omega
      obtain rfl := onlyRoot inside
      obtain rfl := onlyRoot inside'
      exact ⟨fun confused => confused.inner rfl, fun confused => confused.inner rfl⟩

end Stratadiff
