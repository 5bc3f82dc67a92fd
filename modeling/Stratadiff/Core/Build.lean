import Stratadiff.Core.Hash

/-!
# Building a table of nodes

A parser appends an entry when it enters a node, and fills in the children, the size and the
digests when it leaves it. An entry is settled when its node has been left, and stays settled
while the parser changes other entries in front of it and appends more at the end.
-/

namespace Stratadiff

/-- The entries of a tree that is being built, with its source. -/
def table (source : Bytes) (language : Language) (nodes : List SyntaxNode) : ParsedSyntax where
  source := source
  nodes := nodes
  root := 0
  rootKind := ""
  language := language

/-- An entry as it is when its node is entered. -/
def enteredNode (id : Nat) (kind : String) (named extra missing : Bool) (field : Option String)
    (span : Span) (parent : Option Nat) : SyntaxNode where
  id := id
  kind := kind
  named := named
  extra := extra
  missing := missing
  field := field
  span := span
  parent := parent
  children := []
  subtreeSize := 1
  byteHash := .zero
  syntaxHash := .zero
  shapeHash := .zero

/-- An entry whose node has been left. -/
structure ParsedSyntax.Settled (tree : ParsedSyntax) (blake3 : Bytes → Digest) (i : Nat) :
    Prop where
  below : i < tree.nodes.length
  id : (tree.node i).id = i
  tiles : Tiles tree.size (tree.children i) (i + 1) (i + tree.size i)
  inside : ∀ c ∈ tree.children i, c < tree.nodes.length
  within : i + tree.size i ≤ tree.nodes.length
  parent : ∀ c ∈ tree.children i, (tree.node c).parent = some i
  byteHash : (tree.node i).byteHash = blake3 (byteInput tree i)
  syntaxHash : (tree.node i).syntaxHash = blake3 (syntaxInput tree i)
  shapeHash : (tree.node i).shapeHash = blake3 (shapeInput tree i)

section

variable {tree tree' : ParsedSyntax} {blake3 : Bytes → Digest} {i : Nat}

/-- The texts of a node depend on its own entry and on those of its children. -/
theorem bodyInput_congr (hash : SyntaxNode → Digest) (text : tree'.text i = tree.text i)
    (children : tree'.children i = tree.children i)
    (entries : ∀ c ∈ tree.children i, tree'.node c = tree.node c) :
    bodyInput tree' hash i = bodyInput tree hash i := by
  have codes : (tree.children i).flatMap (childInput tree' hash) =
      (tree.children i).flatMap (childInput tree hash) := by
    refine List.flatMap_congr fun c child => ?_
    rw [childInput, childInput, ParsedSyntax.field, ParsedSyntax.field, entries c child]
  rw [bodyInput, bodyInput, text, children, codes]

theorem shapeBody_congr (children : tree'.children i = tree.children i)
    (entries : ∀ c ∈ tree.children i, tree'.node c = tree.node c) :
    (tree'.children i).flatMap (childInput tree' SyntaxNode.shapeHash) =
      (tree.children i).flatMap (childInput tree SyntaxNode.shapeHash) := by
  rw [children]
  refine List.flatMap_congr fun c child => ?_
  rw [childInput, childInput, ParsedSyntax.field, ParsedSyntax.field, entries c child]

theorem ParsedSyntax.Settled.congr (h : tree.Settled blake3 i) (source : tree'.source = tree.source)
    (language : tree'.language = tree.language)
    (length : tree.nodes.length ≤ tree'.nodes.length)
    (same : ∀ j, i ≤ j → j < tree.nodes.length → tree'.node j = tree.node j) :
    tree'.Settled blake3 i := by
  have here : tree'.node i = tree.node i := same i le_rfl h.below
  have children : tree'.children i = tree.children i := congrArg SyntaxNode.children here
  have size : tree'.size i = tree.size i := congrArg SyntaxNode.subtreeSize here
  have text : tree'.text i = tree.text i := by
    rw [ParsedSyntax.text, ParsedSyntax.text, here, source]
  have entries : ∀ c ∈ tree.children i, tree'.node c = tree.node c := by
    intro c child
    have after := (h.tiles.mem child).1
    exact same c (by omega) (h.inside c child)
  refine ⟨h.below.trans_le length, ?_, ?_, ?_, ?_, ?_, ?_, ?_, ?_⟩
  · rw [here, h.id]
  · rw [children, size]
    exact h.tiles.congr fun c child => congrArg SyntaxNode.subtreeSize (entries c child)
  · rw [children]
    exact fun c child => (h.inside c child).trans_le length
  · rw [size]
    exact h.within.trans length
  · rw [children]
    intro c child
    rw [entries c child, h.parent c child]
  · rw [here, h.byteHash, byteInput, byteInput, text]
  · rw [here, h.syntaxHash, syntaxInput, syntaxInput, headInput, headInput, here,
      bodyInput_congr _ text children entries]
  · rw [here, h.shapeHash, shapeInput, shapeInput, headInput, headInput, headInput, headInput,
      here, language, bodyInput_congr _ text children entries,
      shapeBody_congr children entries]

/-- An entry is settled when the size and the digests that go with its children are filled in. -/
theorem ParsedSyntax.Settled.fill {stop : Nat} (source : tree'.source = tree.source)
    (language : tree'.language = tree.language)
    (length : tree'.nodes.length = tree.nodes.length)
    (others : ∀ j ≠ i, tree'.node j = tree.node j)
    (here : tree'.node i = { tree.node i with
      subtreeSize := 1 + ((tree.children i).map tree.size).sum
      byteHash := blake3 (byteInput tree i)
      syntaxHash := blake3 (syntaxInput tree i)
      shapeHash := blake3 (shapeInput tree i) })
    (below : i < tree.nodes.length) (id : (tree.node i).id = i)
    (tiles : Tiles tree.size (tree.children i) (i + 1) stop) (most : stop ≤ tree.nodes.length)
    (inside : ∀ c ∈ tree.children i, c < tree.nodes.length)
    (parent : ∀ c ∈ tree.children i, (tree.node c).parent = some i) :
    tree'.Settled blake3 i ∧ i + tree'.size i = stop := by
  have children : tree'.children i = tree.children i := by
    rw [ParsedSyntax.children, here]
    rfl
  have text : tree'.text i = tree.text i := by
    rw [ParsedSyntax.text, here, source]
    rfl
  have entries : ∀ c ∈ tree.children i, tree'.node c = tree.node c := by
    intro c child
    have after := (tiles.mem child).1
    exact others c (by omega)
  have size : i + tree'.size i = stop := by
    have total := tiles.length_eq
    rw [ParsedSyntax.size, here]
    dsimp only
    omega
  refine ⟨⟨by rwa [length], ?_, ?_, ?_, ?_, ?_, ?_, ?_, ?_⟩, size⟩
  · rw [here]
    exact id
  · rw [children, size]
    exact tiles.congr fun c child => congrArg SyntaxNode.subtreeSize (entries c child)
  · rw [children, length]
    exact inside
  · rwa [size, length]
  · rw [children]
    intro c child
    rw [entries c child, parent c child]
  · rw [byteInput, text, here]
    rfl
  · rw [syntaxInput, headInput, bodyInput_congr _ text children entries, here]
    rfl
  · rw [shapeInput, headInput, headInput, bodyInput_congr _ text children entries,
      shapeBody_congr children entries, language, here]
    rfl

/-- A table all of whose entries are settled is a well-formed tree with its digests. -/
theorem ParsedSyntax.wellFormed_of_settled (nonempty : 0 < tree.nodes.length)
    (settled : ∀ i < tree.nodes.length, tree.Settled blake3 i) (root : tree.root = 0)
    (whole : tree.size 0 = tree.nodes.length) (rootParent : (tree.node 0).parent = none) :
    tree.WellFormed ∧ tree.Hashed blake3 where
  left := {
    root := root
    nonempty := nonempty
    ids := fun i below => (settled i below).id
    tiles := fun i below => (settled i below).tiles
    inside := fun i below => (settled i below).inside
    within := fun i below => (settled i below).within
    whole := whole
    rootParent := rootParent
    parent := fun i below => (settled i below).parent }
  right := {
    byteHash := fun i below => (settled i below).byteHash
    syntaxHash := fun i below => (settled i below).syntaxHash
    shapeHash := fun i below => (settled i below).shapeHash }

end

/-! ## Appending and changing entries -/

section

variable {source : Bytes} {language : Language} {nodes block : List SyntaxNode} {i j : Nat}
variable {entry : SyntaxNode} {change : SyntaxNode → SyntaxNode}

theorem table_append (below : j < nodes.length) :
    (table source language (nodes ++ block)).node j = (table source language nodes).node j := by
  rw [ParsedSyntax.node, ParsedSyntax.node, table, table, List.getElem?_append_left below]

theorem table_node (below : j < nodes.length) :
    (table source language nodes).node j = nodes[j] := by
  rw [ParsedSyntax.node, table, List.getElem?_eq_getElem below, Option.getD_some]

theorem table_middle :
    (table source language (nodes ++ entry :: block)).node nodes.length = entry := by
  rw [table_node (by simp)]
  simp

theorem modify_middle : (nodes ++ entry :: block).modify nodes.length change =
    nodes ++ change entry :: block := by
  rw [List.modify_eq_set_getElem?]
  simp

/-- Only the changed entry differs. -/
theorem table_middle_ne {entry' : SyntaxNode} (different : j ≠ nodes.length) :
    (table source language (nodes ++ entry' :: block)).node j =
      (table source language (nodes ++ entry :: block)).node j := by
  have same : (nodes ++ entry' :: block)[j]? = (nodes ++ entry :: block)[j]? := by
    rcases Nat.lt_or_ge j nodes.length with before | after
    · rw [List.getElem?_append_left before, List.getElem?_append_left before]
    · obtain ⟨k, later⟩ : ∃ k, j - nodes.length = k + 1 := ⟨j - nodes.length - 1, by omega⟩
      rw [List.getElem?_append_right after, List.getElem?_append_right after, later,
        List.getElem?_cons_succ, List.getElem?_cons_succ]
  exact congrArg (fun found => found.getD .absent) same

end

/-! ## Leaving a node -/

/-- An entry between others with what finishing it fills in. -/
def finishedEntry (blake3 : Bytes → Digest) (source : Bytes) (language : Language)
    (nodes : List SyntaxNode)
    (entry : SyntaxNode) (block : List SyntaxNode) : SyntaxNode :=
  let tree := table source language (nodes ++ entry :: block)
  { entry with
    subtreeSize := 1 + (entry.children.map tree.size).sum
    byteHash := blake3 (byteInput tree nodes.length)
    syntaxHash := blake3 (syntaxInput tree nodes.length)
    shapeHash := blake3 (shapeInput tree nodes.length) }

/-- A finished entry is settled, with the segment of its children after it. -/
theorem settled_of_finish (blake3 : Bytes → Digest) (source : Bytes) (language : Language)
    (nodes : List SyntaxNode) (entry : SyntaxNode) (block : List SyntaxNode)
    (id : entry.id = nodes.length)
    (tiles : Tiles (table source language (nodes ++ entry :: block)).size entry.children
      (nodes.length + 1) (nodes.length + 1 + block.length))
    (inside : ∀ c ∈ entry.children, c < nodes.length + 1 + block.length)
    (parent : ∀ c ∈ entry.children,
      ((table source language (nodes ++ entry :: block)).node c).parent = some nodes.length) :
    (table source language (nodes ++ finishedEntry blake3 source language nodes entry block ::
      block)).Settled blake3 nodes.length ∧
    nodes.length + (table source language (nodes ++ finishedEntry blake3 source language nodes entry
      block :: block)).size nodes.length = nodes.length + 1 + block.length := by
  have here : (table source language (nodes ++ entry :: block)).node nodes.length = entry :=
    table_middle
  have children : (table source language (nodes ++ entry :: block)).children nodes.length =
      entry.children := congrArg SyntaxNode.children here
  have length : (table source language (nodes ++ entry :: block)).nodes.length =
      nodes.length + 1 + block.length := by
    simp [table]
    omega
  refine @ParsedSyntax.Settled.fill (table source language (nodes ++ entry :: block)) _ _ _ _
    rfl rfl ?_ ?_ ?_ ?_ ?_ ?_ ?_ ?_ ?_
  · simp [table]
  · exact fun j different => table_middle_ne different
  · rw [here, children]
    exact table_middle
  · omega
  · rw [here, id]
  · rw [children]
    exact tiles
  · rw [length]
  · rw [children, length]
    exact inside
  · rw [children]
    exact parent

/-! ## Segments of the table -/

/-- The entries from `first` to `last` are settled: they are the subtrees of some children of
one node. -/
structure Segment (tree : ParsedSyntax) (blake3 : Bytes → Digest) (parent : Nat) (ids : List Nat)
    (first last : Nat) : Prop where
  settled : ∀ i, first ≤ i → i < last → tree.Settled blake3 i
  tiles : Tiles tree.size ids first last
  parent : ∀ c ∈ ids, (tree.node c).parent = some parent
  inside : ∀ c ∈ ids, c < last
  below : last ≤ tree.nodes.length

namespace Segment

variable {tree tree' : ParsedSyntax} {blake3 : Bytes → Digest} {parent : Nat}
variable {ids ids' : List Nat} {first middle last : Nat}

theorem nil (below : first ≤ tree.nodes.length) : Segment tree blake3 parent [] first first where
  settled := fun i after before => absurd before (by omega)
  tiles := rfl
  parent := by simp
  inside := by simp
  below := below

/-- An entry of the segment is as it was when the later table agrees from there on. -/
theorem node_congr (h : Segment tree blake3 parent ids first last)
    (same : ∀ j, first ≤ j → j < tree.nodes.length → tree'.node j = tree.node j) :
    ∀ c ∈ ids, tree'.node c = tree.node c := by
  intro c member
  exact same c (h.tiles.mem member).1 ((h.inside c member).trans_le h.below)

theorem congr (h : Segment tree blake3 parent ids first last)
    (source : tree'.source = tree.source) (language : tree'.language = tree.language)
    (length : tree.nodes.length ≤ tree'.nodes.length)
    (same : ∀ j, first ≤ j → j < tree.nodes.length → tree'.node j = tree.node j) :
    Segment tree' blake3 parent ids first last := by
  have entries := h.node_congr same
  refine ⟨fun i after before => ?_, ?_, ?_, h.inside, h.below.trans length⟩
  · exact (h.settled i after before).congr source language length fun j later =>
      same j (after.trans later)
  · exact h.tiles.congr fun c member => congrArg SyntaxNode.subtreeSize (entries c member)
  · intro c member
    rw [entries c member, h.parent c member]

theorem append (h : Segment tree blake3 parent ids first middle)
    (h' : Segment tree blake3 parent ids' middle last) :
    Segment tree blake3 parent (ids ++ ids') first last := by
  refine ⟨fun i after before => ?_, h.tiles.append h'.tiles, ?_, ?_, h'.below⟩
  · rcases Nat.lt_or_ge i middle with early | late
    · exact h.settled i after early
    · exact h'.settled i late before
  · intro c member
    rcases List.mem_append.mp member with early | late
    · exact h.parent c early
    · exact h'.parent c late
  · intro c member
    rcases List.mem_append.mp member with early | late
    · exact (h.inside c early).trans_le h'.tiles.le
    · exact h'.inside c late

/-- A node that has been left is a segment with what is below it. -/
theorem single (settled : ∀ i, first ≤ i → i < last → tree.Settled blake3 i)
    (here : tree.Settled blake3 first) (size : first + tree.size first = last)
    (isParent : (tree.node first).parent = some parent) :
    Segment tree blake3 parent [first] first last := by
  have positive := here.tiles.le
  refine ⟨settled, ⟨rfl, size⟩, ?_, ?_, ?_⟩
  · simpa using isParent
  · simp
    omega
  · rw [← size]
    exact here.within

end Segment

/-! ## The texts of the leaves -/

/-- Entries whose texts fill a part of the source one after another, none of them empty. -/
def ParsedSyntax.Covers (tree : ParsedSyntax) : List Nat → Nat → Nat → Prop
  | [], start, stop => start = stop
  | c :: cs, start, stop =>
      (tree.node c).span.startByte = start ∧ start < (tree.node c).span.endByte ∧
        Covers tree cs (tree.node c).span.endByte stop

/-- The texts of the leaves among a number of entries, in preorder. -/
def ParsedSyntax.leafBytes (tree : ParsedSyntax) (first count : Nat) : Bytes :=
  (List.range' first count).flatMap fun i => if (tree.children i).isEmpty then tree.text i else []

/-- `&source[start..stop]`. -/
def sliceOf (source : Bytes) (start stop : Nat) : Bytes := (source.drop start).take (stop - start)

theorem sliceOf_append {source : Bytes} {start middle stop : Nat} (first : start ≤ middle)
    (second : middle ≤ stop) :
    sliceOf source start middle ++ sliceOf source middle stop = sliceOf source start stop := by
  rw [sliceOf, sliceOf, sliceOf]
  have total : stop - start = middle - start + (stop - middle) := by omega
  rw [total, List.take_add, List.drop_drop, Nat.add_sub_cancel' first]

section

variable {tree : ParsedSyntax} {cs : List Nat} {first last start stop : Nat}

theorem ParsedSyntax.Covers.le (covers : tree.Covers cs start stop) : start ≤ stop := by
  induction cs generalizing start with
  | nil => exact le_of_eq covers
  | cons c cs ih =>
      have rest := ih covers.2.2
      have := covers.2.1
      omega

theorem ParsedSyntax.Covers.congr {tree' : ParsedSyntax} (covers : tree.Covers cs start stop)
    (same : ∀ c ∈ cs, (tree'.node c).span = (tree.node c).span) : tree'.Covers cs start stop := by
  induction cs generalizing start with
  | nil => exact covers
  | cons c cs ih =>
      rw [ParsedSyntax.Covers, same c (by simp)]
      exact ⟨covers.1, covers.2.1, ih covers.2.2 fun d member =>
        same d (List.mem_cons_of_mem _ member)⟩

theorem leafBytes_append {count count' : Nat} : tree.leafBytes first (count + count') =
    tree.leafBytes first count ++ tree.leafBytes (first + count) count' := by
  rw [ParsedSyntax.leafBytes, ← List.range'_append_1, List.flatMap_append]
  rfl

/-- The leaves below entries that cover a part of the source spell that part. -/
theorem leafBytes_of_covers (tiles : Tiles tree.size cs first last)
    (covers : tree.Covers cs start stop)
    (each : ∀ c ∈ cs, tree.leafBytes c (tree.size c) = tree.text c) :
    tree.leafBytes first (last - first) = sliceOf tree.source start stop := by
  induction cs generalizing first start with
  | nil =>
      have none : first = last := tiles
      have empty : start = stop := covers
      rw [none, empty, Nat.sub_self, sliceOf, Nat.sub_self]
      rfl
  | cons c cs ih =>
      obtain ⟨rfl, tiles⟩ := tiles
      obtain ⟨rfl, nonempty, covers⟩ := covers
      have here := each c (by simp)
      have rest := ih tiles covers fun d member => each d (List.mem_cons_of_mem _ member)
      have count : last - c = tree.size c + (last - (c + tree.size c)) := by
        have := tiles.le
        omega
      rw [count, leafBytes_append, here, rest]
      exact sliceOf_append nonempty.le covers.le

/-- The leaves below a node spell its text, where the children of every node cover its text. -/
theorem leafBytes_subtree (tree : SyntaxTree)
    (covered : ∀ i < tree.nodes.length, tree.children i ≠ [] →
      tree.Covers (tree.children i) (tree.node i).span.startByte (tree.node i).span.endByte) :
    ∀ i < tree.nodes.length, tree.leafBytes i (tree.size i) = tree.text i := by
  refine PreorderTree.induction tree.preorder fun i below ih => ?_
  have tiles := tree.wellFormed.tiles i below
  have positive : 0 < tree.size i := @PreorderTree.size_pos tree.preorder i below
  have split : tree.leafBytes i (tree.size i) =
      tree.leafBytes i 1 ++ tree.leafBytes (i + 1) (i + tree.size i - (i + 1)) := by
    rw [← leafBytes_append]
    congr 1
    omega
  rw [split]
  by_cases leaf : tree.children i = []
  · rw [leaf] at tiles
    have alone : i + 1 = i + tree.size i := tiles
    rw [← alone, Nat.sub_self, ParsedSyntax.leafBytes, ParsedSyntax.leafBytes]
    simp [leaf]
  · rw [leafBytes_of_covers tiles (covered i below leaf) ih, ParsedSyntax.leafBytes]
    simp only [List.range'_one, List.flatMap_cons, List.flatMap_nil, List.append_nil]
    rw [if_neg (by simpa using leaf), List.nil_append]
    rfl

end

end Stratadiff
