import Stratadiff.Core.Model
import Stratadiff.Lib.Preorder

/-!
# Syntax trees

The tree of a source as `syntax.rs` stores it: a table of nodes in preorder that refer to
each other by number. Two nodes are syntax-equal when their subtrees agree in everything
but trivia, and shape-equal when they agree up to the texts and the kinds of certain leaves.
-/

namespace Stratadiff

inductive Language where
  | universal
  | python
  | javascript
  | typescript
  | tsx
  | rust
  | java
  | json
  | c
  | cpp
  | cSharp
  | go
  | ruby
  | bash
  | php
  | html
  | css
  | yaml
  | toml
  | markdown
  | kotlin
  | swift
  | lua
  | scala
  | r
  | elixir
  | haskell
  | ocaml
  | ocamlInterface
  | zig
  deriving DecidableEq, Repr

/-- `[u8; 32]`. -/
structure Digest where
  bytes : Bytes
  length : bytes.length = 32
  deriving DecidableEq, Repr

def Digest.zero : Digest := ⟨List.replicate 32 0, rfl⟩

/-- The digest that a number spells, most significant byte first. -/
def Digest.ofNat (value : Nat) : Digest where
  bytes := (List.range 32).map fun i => UInt8.ofNat (value >>> (8 * (31 - i)))
  length := by simp

structure SyntaxNode where
  id : Nat
  kind : String
  named : Bool
  extra : Bool
  missing : Bool
  field : Option String
  span : Span
  parent : Option Nat
  children : List Nat
  subtreeSize : Nat
  byteHash : Digest
  syntaxHash : Digest
  shapeHash : Digest
  deriving DecidableEq, Repr

structure ParsedSyntax where
  source : Bytes
  nodes : List SyntaxNode
  root : Nat
  rootKind : String
  language : Language
  deriving DecidableEq, Repr

/-- What stands for an entry past the end of the table; the code panics there. -/
def SyntaxNode.absent : SyntaxNode where
  id := 0
  kind := ""
  named := false
  extra := false
  missing := false
  field := none
  span := ⟨0, 0, ⟨0, 0⟩, ⟨0, 0⟩⟩
  parent := none
  children := []
  subtreeSize := 1
  byteHash := .zero
  syntaxHash := .zero
  shapeHash := .zero

/-- `&source[span.start_byte..span.end_byte]`. -/
def Span.slice (span : Span) (source : Bytes) : Bytes :=
  (source.drop span.startByte).take (span.endByte - span.startByte)

namespace ParsedSyntax

variable (tree : ParsedSyntax)

def node (id : Nat) : SyntaxNode := tree.nodes[id]?.getD .absent

def children (id : Nat) : List Nat := (tree.node id).children

def size (id : Nat) : Nat := (tree.node id).subtreeSize

def field (id : Nat) : Option String := (tree.node id).field

def text (id : Nat) : Bytes := (tree.node id).span.slice tree.source

end ParsedSyntax

def containsText (text pattern : String) : Bool := decide (utf8Bytes pattern <:+: utf8Bytes text)

def normalizedKind (kind : String) : String :=
  if containsText kind "identifier" then "<identifier>"
  else if containsText kind "string" then "<string>"
  else if containsText kind "integer" || containsText kind "float" ||
      containsText kind "number" then
    "<number>"
  else if containsText kind "comment" then "<comment>"
  else kind

section

variable (left right : ParsedSyntax)

def sameFlags (l r : Nat) : Bool :=
  (left.node l).named == (right.node r).named && (left.node l).extra == (right.node r).extra &&
    (left.node l).missing == (right.node r).missing

/-- The recursion over two subtrees with a test of the nodes and one of their places under
their parents. -/
def pairedWith (here link : Nat → Nat → Bool) (l r : Nat) : Bool :=
  pairedTo left.children right.children here link left.nodes.length l r

def syntaxHere (l r : Nat) : Bool :=
  left.language == right.language && (left.node l).kind == (right.node r).kind &&
    sameFlags left right l r &&
    (!(left.children l).isEmpty || left.text l == right.text r)

def shapeHere (l r : Nat) : Bool :=
  left.language == right.language &&
    normalizedKind (left.node l).kind == normalizedKind (right.node r).kind &&
    sameFlags left right l r &&
    (!(left.language == .universal && (left.children l).isEmpty) || left.text l == right.text r)

def sameField (l r : Nat) : Bool := left.field l == right.field r

def syntaxEqual (l r : Nat) : Bool :=
  pairedWith left right (syntaxHere left right) (sameField left right) l r

def shapeEqual (l r : Nat) : Bool :=
  pairedWith left right (shapeHere left right) (sameField left right) l r

end

/-! ## Well-formed trees -/

/-- The table is a tree in preorder, with parents and children that agree. -/
structure ParsedSyntax.WellFormed (tree : ParsedSyntax) : Prop where
  root : tree.root = 0
  nonempty : 0 < tree.nodes.length
  ids : ∀ i < tree.nodes.length, (tree.node i).id = i
  tiles : ∀ i < tree.nodes.length, Tiles tree.size (tree.children i) (i + 1) (i + tree.size i)
  inside : ∀ i < tree.nodes.length, ∀ c ∈ tree.children i, c < tree.nodes.length
  within : ∀ i < tree.nodes.length, i + tree.size i ≤ tree.nodes.length
  whole : tree.size 0 = tree.nodes.length
  rootParent : (tree.node 0).parent = none
  parent : ∀ i < tree.nodes.length, ∀ c ∈ tree.children i, (tree.node c).parent = some i

/-- A well-formed tree. -/
structure SyntaxTree extends ParsedSyntax where
  wellFormed : toParsedSyntax.WellFormed

namespace SyntaxTree

variable (tree left right third : SyntaxTree)

/-- The numbers of the table as a tree. -/
def preorder : PreorderTree where
  count := tree.nodes.length
  children := tree.children
  size := tree.size
  nonempty := tree.wellFormed.nonempty
  tiles := tree.wellFormed.tiles
  inside := tree.wellFormed.inside
  within := tree.wellFormed.within
  whole := tree.wellFormed.whole

end SyntaxTree

section

variable {left right third : SyntaxTree} {here link : Nat → Nat → Bool} {l r m : Nat}

theorem pairedWith_iff (below : l < left.nodes.length) :
    pairedWith left.toParsedSyntax right.toParsedSyntax here link l r = true ↔
      Paired left.children right.children (fun l r => here l r = true)
        (fun l r => link l r = true) l r :=
  Paired.iff_pairedTo left.preorder below (Nat.sub_le _ _)

/-- Syntax equality of two nodes, as a relation. -/
def SyntaxEqual (left right : SyntaxTree) (l r : Nat) : Prop :=
  Paired left.children right.children
    (fun l r => syntaxHere left.toParsedSyntax right.toParsedSyntax l r = true)
    (fun l r => sameField left.toParsedSyntax right.toParsedSyntax l r = true) l r

def ShapeEqual (left right : SyntaxTree) (l r : Nat) : Prop :=
  Paired left.children right.children
    (fun l r => shapeHere left.toParsedSyntax right.toParsedSyntax l r = true)
    (fun l r => sameField left.toParsedSyntax right.toParsedSyntax l r = true) l r

theorem syntaxEqual_iff (below : l < left.nodes.length) :
    syntaxEqual left.toParsedSyntax right.toParsedSyntax l r = true ↔
      SyntaxEqual left right l r :=
  pairedWith_iff below

theorem shapeEqual_iff (below : l < left.nodes.length) :
    shapeEqual left.toParsedSyntax right.toParsedSyntax l r = true ↔ ShapeEqual left right l r :=
  pairedWith_iff below

theorem sameFlags_iff {left right : ParsedSyntax} : sameFlags left right l r = true ↔
    (left.node l).named = (right.node r).named ∧ (left.node l).extra = (right.node r).extra ∧
      (left.node l).missing = (right.node r).missing := by
  simp [sameFlags, and_assoc]

theorem syntaxHere_iff {left right : ParsedSyntax} : syntaxHere left right l r = true ↔
    left.language = right.language ∧ (left.node l).kind = (right.node r).kind ∧
      sameFlags left right l r = true ∧
      (left.children l = [] → left.text l = right.text r) := by
  simp only [syntaxHere, Bool.and_eq_true, Bool.or_eq_true, beq_iff_eq, Bool.not_eq_true',
    List.isEmpty_eq_false_iff, and_assoc]
  simp only [or_iff_not_imp_left, ne_eq, not_not]

theorem shapeHere_iff {left right : ParsedSyntax} : shapeHere left right l r = true ↔
    left.language = right.language ∧
      normalizedKind (left.node l).kind = normalizedKind (right.node r).kind ∧
      sameFlags left right l r = true ∧
      (left.language = .universal → left.children l = [] → left.text l = right.text r) := by
  simp only [shapeHere, Bool.and_eq_true, Bool.or_eq_true, beq_iff_eq, Bool.not_eq_true',
    and_assoc]
  simp only [or_iff_not_imp_left, Bool.and_eq_false_iff, beq_eq_false_iff_ne,
    List.isEmpty_eq_false_iff, ne_eq, Classical.not_imp, not_not, and_imp]

theorem sameFlags_trans {left middle right : ParsedSyntax}
    (first : sameFlags left middle l m = true) (second : sameFlags middle right m r = true) :
    sameFlags left right l r = true := by
  rw [sameFlags_iff] at *
  exact ⟨first.1.trans second.1, first.2.1.trans second.2.1, first.2.2.trans second.2.2⟩

theorem sameFlags_symm {left right : ParsedSyntax} (h : sameFlags left right l r = true) :
    sameFlags right left r l = true := by
  rw [sameFlags_iff] at *
  exact ⟨h.1.symm, h.2.1.symm, h.2.2.symm⟩

theorem sameField_iff {left right : ParsedSyntax} :
    sameField left right l r = true ↔ left.field l = right.field r := beq_iff_eq

theorem leaf_iff {left right : ParsedSyntax}
    (length : (left.children l).length = (right.children r).length) :
    left.children l = [] ↔ right.children r = [] := by
  rw [← List.length_eq_zero_iff, ← List.length_eq_zero_iff, length]

theorem ShapeEqual.refl (below : l < left.nodes.length) : ShapeEqual left left l l :=
  Paired.refl left.preorder
    (fun _ _ => shapeHere_iff.mpr ⟨rfl, rfl, sameFlags_iff.mpr ⟨rfl, rfl, rfl⟩, fun _ _ => rfl⟩)
    (fun _ _ => sameField_iff.mpr rfl) l below

theorem ShapeEqual.symm (h : ShapeEqual left right l r) : ShapeEqual right left r l := by
  refine (Paired.symm h).mono (fun r l length here => ?_) fun r l link => ?_
  · obtain ⟨language, kind, flags, text⟩ := shapeHere_iff.mp here
    exact shapeHere_iff.mpr ⟨language.symm, kind.symm, sameFlags_symm flags,
      fun universal leaf =>
        (text (language.trans universal) ((leaf_iff length.symm).mpr leaf)).symm⟩
  · exact sameField_iff.mpr (sameField_iff.mp link).symm

theorem ShapeEqual.trans (h : ShapeEqual left third l m) (h' : ShapeEqual third right m r) :
    ShapeEqual left right l r := by
  refine Paired.trans h h' (fun l m r length here here' => ?_) fun l m r link link' => ?_
  · obtain ⟨language, kind, flags, text⟩ := shapeHere_iff.mp here
    obtain ⟨language', kind', flags', text'⟩ := shapeHere_iff.mp here'
    exact shapeHere_iff.mpr ⟨language.trans language', kind.trans kind',
      sameFlags_trans flags flags', fun universal leaf =>
        (text universal leaf).trans (text' (language.symm.trans universal)
          ((leaf_iff length).mp leaf))⟩
  · exact sameField_iff.mpr ((sameField_iff.mp link).trans (sameField_iff.mp link'))

end

end Stratadiff
