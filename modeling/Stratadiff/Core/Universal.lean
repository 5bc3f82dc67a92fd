import Stratadiff.Core.Build

/-!
# The universal parser

A file of any bytes is a tree of lines, and a line a row of tokens: runs of bytes of one class.
A line ends after a line feed or with the file. The parser fails only when the tree has more
entries or levels than the limits allow; otherwise no byte is lost and every position is the
one that the line feeds before it determine.
-/

namespace Stratadiff

structure ParseLimits where
  maxNodes : Nat
  maxDepth : Nat
  maxParseCallbacks : Nat
  deriving DecidableEq, Repr

inductive UniversalTokenClass where
  | asciiWord
  | whitespace
  | lineFeed
  | asciiPunctuation
  | opaqueBytes
  deriving DecidableEq, Repr

namespace UniversalTokenClass

def of (byte : UInt8) : UniversalTokenClass :=
  if 97 ≤ byte ∧ byte ≤ 122 ∨ 65 ≤ byte ∧ byte ≤ 90 ∨ 48 ≤ byte ∧ byte ≤ 57 ∨ byte = 95 then
    .asciiWord
  else if byte = 32 ∨ byte = 9 ∨ byte = 13 ∨ byte = 0x0b ∨ byte = 0x0c then .whitespace
  else if byte = 10 then .lineFeed
  else if 0x21 ≤ byte ∧ byte ≤ 0x7e then .asciiPunctuation
  else .opaqueBytes

def kind : UniversalTokenClass → String
  | .asciiWord => "universal_ascii_word"
  | .whitespace => "universal_whitespace"
  | .lineFeed => "universal_line_feed"
  | .asciiPunctuation => "universal_ascii_punctuation"
  | .opaqueBytes => "universal_opaque_bytes"

theorem of_eq_lineFeed {byte : UInt8} : of byte = .lineFeed ↔ byte = 10 := by
  constructor
  · intro isFeed
    simp only [of] at isFeed
    split at isFeed
    · cases isFeed
    · split at isFeed
      · cases isFeed
      · split at isFeed
        · assumption
        · split at isFeed <;> cases isFeed
  · rintro rfl
    rfl

end UniversalTokenClass

/-- `source[index]`. -/
def byteAt (source : Bytes) (index : Nat) : UInt8 := source[index]?.getD 0

def universalEndPosition (source : Bytes) : Position :=
  source.foldl (fun position byte =>
    if byte = 10 then ⟨position.row + 1, 0⟩ else ⟨position.row, position.column + 1⟩) ⟨0, 0⟩

def universalTooDeep (limits : ParseLimits) : Failure :=
  .limit <| s!"universal syntax tree exceeds the supported depth of {limits.maxDepth}; refusing " ++
    "recursive analysis"

def universalTooMany (limits : ParseLimits) : Failure :=
  .limit <| s!"universal syntax tree exceeds the supported node count of {limits.maxNodes}; " ++
    "refusing analysis"

def pushUniversalNode (limits : ParseLimits) (nodes : List SyntaxNode) (depth : Nat)
    (kind : String) (parent : Option Nat) (field : Option String) (span : Span) :
    Result (List SyntaxNode × Nat) :=
  if limits.maxDepth < depth then .error (universalTooDeep limits)
  else if limits.maxNodes ≤ nodes.length then .error (universalTooMany limits)
  else
    .ok (nodes ++ [enteredNode nodes.length kind true false false field span parent], nodes.length)

/-- What `universal_structural_hash` feeds to the hasher. -/
def universalStructuralInput (tree : ParsedSyntax) (domain : String) (shape : Bool) (id : Nat) :
    Bytes :=
  headInput tree domain (tree.node id).kind id ++
    bodyInput tree (if shape then SyntaxNode.shapeHash else SyntaxNode.syntaxHash) id

def finishUniversalNode (blake3 : Bytes → Digest) (source : Bytes) (nodes : List SyntaxNode)
    (id : Nat) : List SyntaxNode :=
  let tree := table source .universal nodes
  nodes.modify id fun node => { node with
    subtreeSize := 1 + (node.children.map tree.size).sum
    byteHash := blake3 (byteInput tree id)
    syntaxHash := blake3 (universalStructuralInput tree "stratadiff.syntax.v1" false id)
    shapeHash := blake3 (universalStructuralInput tree "stratadiff.shape.v1" true id) }

section

variable (blake3 : Bytes → Digest) (source : Bytes) (limits : ParseLimits)

/-- The loop that lengthens a token. -/
def universalTokenEnd (lineEnd : Nat) (tokenClass : UniversalTokenClass) (tokenEnd : Nat) : Nat :=
  if tokenEnd < lineEnd ∧ UniversalTokenClass.of (byteAt source tokenEnd) = tokenClass then
    universalTokenEnd lineEnd tokenClass (tokenEnd + 1)
  else tokenEnd
termination_by lineEnd - tokenEnd

theorem le_universalTokenEnd (lineEnd : Nat) (tokenClass : UniversalTokenClass) (tokenEnd : Nat) :
    tokenEnd ≤ universalTokenEnd source lineEnd tokenClass tokenEnd := by
  fun_induction universalTokenEnd source lineEnd tokenClass tokenEnd with
  | case1 tokenEnd more ih => omega
  | case2 tokenEnd done => rfl

/-- The loop over the tokens of a line. -/
def universalTokens (row line lineStart lineEnd : Nat) (nodes : List SyntaxNode)
    (tokenChildren : List Nat) (tokenStart : Nat) : Result (List SyntaxNode × List Nat) :=
  if tokenStart < lineEnd then
    let tokenClass := UniversalTokenClass.of (byteAt source tokenStart)
    let tokenEnd := universalTokenEnd source lineEnd tokenClass (tokenStart + 1)
    let endPosition : Position :=
      if tokenClass = .lineFeed then ⟨row + 1, 0⟩ else ⟨row, tokenEnd - lineStart⟩
    pushUniversalNode limits nodes 2 tokenClass.kind (some line) (some "token")
        ⟨tokenStart, tokenEnd, ⟨row, tokenStart - lineStart⟩, endPosition⟩ >>= fun pushed =>
      universalTokens row line lineStart lineEnd
        (finishUniversalNode blake3 source pushed.1 pushed.2) (tokenChildren ++ [pushed.2]) tokenEnd
  else .ok (nodes, tokenChildren)
termination_by lineEnd - tokenStart
decreasing_by
  have := le_universalTokenEnd source lineEnd (UniversalTokenClass.of (byteAt source tokenStart))
    (tokenStart + 1)
  omega

/-- Where the line that starts at an offset ends. -/
def universalLineEnd (lineStart : Nat) : Nat :=
  ((source.drop lineStart).findIdx? (· == 10)).elim source.length (lineStart + · + 1)

variable {source} in
theorem byteAt_eq {index : Nat} (below : index < source.length) :
    byteAt source index = source[index] := by
  rw [byteAt, List.getElem?_eq_getElem below, Option.getD_some]

/-- A line ends after its only line feed, or with the file. -/
theorem universalLineEnd_spec {lineStart : Nat} (below : lineStart < source.length) :
    lineStart < universalLineEnd source lineStart ∧
    universalLineEnd source lineStart ≤ source.length ∧
    (∀ k, lineStart ≤ k → k + 1 < universalLineEnd source lineStart → byteAt source k ≠ 10) ∧
    (byteAt source (universalLineEnd source lineStart - 1) = 10 ∨
      universalLineEnd source lineStart = source.length) := by
  rw [universalLineEnd]
  cases found : (source.drop lineStart).findIdx? (· == 10) with
  | none =>
      have none := List.findIdx?_eq_none_iff.mp found
      refine ⟨below, le_rfl, fun k after before => ?_, .inr rfl⟩
      rw [Option.elim_none] at before
      rw [byteAt_eq (by omega)]
      have member : source[k] ∈ source.drop lineStart := by
        refine List.mem_of_getElem? (i := k - lineStart) ?_
        rw [List.getElem?_drop, Nat.add_sub_cancel' after, List.getElem?_eq_getElem]
      simpa using none _ member
  | some n =>
      obtain ⟨inside, isFeed, others⟩ := List.findIdx?_eq_some_iff_getElem.mp found
      rw [List.length_drop] at inside
      rw [Option.elim_some]
      refine ⟨by omega, by omega, fun k after before => ?_, .inl ?_⟩
      · have other := others (k - lineStart) (by omega)
        rw [List.getElem_drop] at other
        rw [byteAt_eq (by omega)]
        simpa [Nat.add_sub_cancel' after] using other
      · rw [byteAt_eq (by omega)]
        rw [List.getElem_drop] at isFeed
        simpa using isFeed

/-- The loop over the lines. -/
def universalLines (root : Nat) (nodes : List SyntaxNode) (rootChildren : List Nat)
    (lineStart row : Nat) : Result (List SyntaxNode × List Nat) :=
  if lineStart < source.length then
    let lineEnd := universalLineEnd source lineStart
    let hasLineFeed := byteAt source (lineEnd - 1) == 10
    let lineEndPosition : Position :=
      if hasLineFeed then ⟨row + 1, 0⟩ else ⟨row, lineEnd - lineStart⟩
    pushUniversalNode limits nodes 1 "universal_line" (some root) (some "line")
        ⟨lineStart, lineEnd, ⟨row, 0⟩, lineEndPosition⟩ >>= fun pushed =>
      universalTokens blake3 source limits row pushed.2 lineStart lineEnd pushed.1 [] lineStart >>=
        fun tokens =>
          let nodes := tokens.1.modify pushed.2 fun node => { node with children := tokens.2 }
          universalLines root (finishUniversalNode blake3 source nodes pushed.2)
            (rootChildren ++ [pushed.2]) lineEnd (if hasLineFeed then row + 1 else row)
  else .ok (nodes, rootChildren)
termination_by source.length - lineStart
decreasing_by
  have bounds := universalLineEnd_spec source (by assumption)
  omega

def parseUniversal : Result ParsedSyntax :=
  pushUniversalNode limits [] 0 "universal_file" none none
      ⟨0, source.length, ⟨0, 0⟩, universalEndPosition source⟩ >>= fun pushed =>
    universalLines blake3 source limits pushed.2 pushed.1 [] 0 0 >>= fun lines =>
      let nodes := lines.1.modify pushed.2 fun node => { node with children := lines.2 }
      .ok { table source .universal (finishUniversalNode blake3 source nodes pushed.2) with
        root := pushed.2
        rootKind := "universal_file" }

end

/-! ## Positions -/

/-- The position after some bytes: the line feeds among them, and the bytes since the last. -/
def positionAfter (bytes : Bytes) : Position where
  row := bytes.count 10
  column := (bytes.reverse.takeWhile (· != 10)).length

/-- The position of an offset into a source. -/
def positionAt (source : Bytes) (offset : Nat) : Position := positionAfter (source.take offset)

section

variable {source : Bytes} {row lineStart offset : Nat}

theorem positionAfter_push (bytes : Bytes) (byte : UInt8) : positionAfter (bytes ++ [byte]) =
    if byte = 10 then ⟨(positionAfter bytes).row + 1, 0⟩
    else ⟨(positionAfter bytes).row, (positionAfter bytes).column + 1⟩ := by
  by_cases feed : byte = 10
  · subst feed
    simp [positionAfter]
  · simp [positionAfter, feed]

theorem universalEndPosition_eq (bytes : Bytes) :
    universalEndPosition bytes = positionAfter bytes := by
  induction bytes using List.reverseRecOn with
  | nil => rfl
  | append_singleton bytes byte ih =>
      rw [positionAfter_push, ← ih, universalEndPosition, List.foldl_append]
      rfl

theorem positionAt_succ (below : offset < source.length) : positionAt source (offset + 1) =
    if byteAt source offset = 10 then ⟨(positionAt source offset).row + 1, 0⟩
    else ⟨(positionAt source offset).row, (positionAt source offset).column + 1⟩ := by
  rw [positionAt, List.take_succ_eq_append_getElem below, positionAfter_push, byteAt_eq below]
  rfl

/-- Within a line the row stays and the column counts the bytes. -/
theorem positionAt_line (start : positionAt source lineStart = ⟨row, 0⟩)
    (after : lineStart ≤ offset) (most : offset ≤ source.length)
    (noFeed : ∀ k, lineStart ≤ k → k < offset → byteAt source k ≠ 10) :
    positionAt source offset = ⟨row, offset - lineStart⟩ := by
  induction offset, after using Nat.le_induction with
  | base => rw [start, Nat.sub_self]
  | succ offset after ih =>
      rw [positionAt_succ most, ih (by omega) fun k first last => noFeed k first (by omega),
        if_neg (noFeed offset after (by omega)), Nat.sub_add_comm after]

end

/-! ## What the limits refuse -/

/-- A run that gives the value, or is refused for its depth or for its number of entries. -/
def Bounded {α : Type} (limits : ParseLimits) (depth count : Nat) (run : Result α) (value : α) :
    Prop :=
  (depth ≤ limits.maxDepth ∧ count ≤ limits.maxNodes ∧ run = .ok value) ∨
  (limits.maxDepth < depth ∧ run = .error (universalTooDeep limits)) ∨
  (limits.maxNodes < count ∧ run = .error (universalTooMany limits))

section

variable {α β : Type} {limits : ParseLimits} {depth depth' deepest count count' total : Nat}
variable {run : Result α} {next : α → Result β} {a : α} {b : β}

theorem Bounded.bind (depth' count' : Nat) (first : Bounded limits depth count run a)
    (second : count ≤ limits.maxNodes → Bounded limits depth' count' (next a) b)
    (isDeepest : max depth depth' = deepest) (isTotal : max count count' = total) :
    Bounded limits deepest total (run >>= next) b := by
  subst isDeepest isTotal
  obtain ⟨deep, many, rfl⟩ | ⟨deep, rfl⟩ | ⟨many, rfl⟩ := first
  · obtain ⟨deep', many', ok⟩ | ⟨deep', failed⟩ | ⟨many', failed⟩ := second many
    · exact .inl ⟨max_le deep deep', max_le many many', ok⟩
    · exact .inr (.inl ⟨lt_max_of_lt_right deep', failed⟩)
    · exact .inr (.inr ⟨lt_max_of_lt_right many', failed⟩)
  · exact .inr (.inl ⟨lt_max_of_lt_left deep, rfl⟩)
  · exact .inr (.inr ⟨lt_max_of_lt_left many, rfl⟩)

theorem Bounded.ok (within : count ≤ limits.maxNodes) : Bounded limits 0 count (.ok a) a :=
  .inl ⟨Nat.zero_le _, within, rfl⟩

theorem pushUniversalNode_bounded (nodes : List SyntaxNode) (kind : String) (parent : Option Nat)
    (field : Option String) (span : Span) :
    Bounded limits depth (nodes.length + 1)
      (pushUniversalNode limits nodes depth kind parent field span)
      (nodes ++ [enteredNode nodes.length kind true false false field span parent],
        nodes.length) := by
  rw [pushUniversalNode]
  split
  · exact .inr (.inl ⟨by assumption, rfl⟩)
  · split
    · exact .inr (.inr ⟨by omega, rfl⟩)
    · exact .inl ⟨by omega, by omega, rfl⟩

end

/-! ## Stretches of the table -/

/-- The positions of a node are those of its bytes. -/
structure ParsedSyntax.Placed (tree : ParsedSyntax) (i : Nat) : Prop where
  order : (tree.node i).span.startByte ≤ (tree.node i).span.endByte
  bound : (tree.node i).span.endByte ≤ tree.source.length
  start : (tree.node i).span.start = positionAt tree.source (tree.node i).span.startByte
  stop : (tree.node i).span.stop = positionAt tree.source (tree.node i).span.endByte

/-- A leaf all of whose bytes are of the class that its kind names. -/
structure ParsedSyntax.IsToken (tree : ParsedSyntax) (i : Nat) : Prop where
  field : tree.field i = some "token"
  leaf : tree.children i = []
  kind : ∃ tokenClass : UniversalTokenClass, (tree.node i).kind = tokenClass.kind ∧
    ∀ k, (tree.node i).span.startByte ≤ k → k < (tree.node i).span.endByte →
      UniversalTokenClass.of (byteAt tree.source k) = tokenClass

/-- A node whose children are tokens that cover it. -/
structure ParsedSyntax.IsLine (tree : ParsedSyntax) (i : Nat) : Prop where
  field : tree.field i = some "line"
  kind : (tree.node i).kind = "universal_line"
  covers : tree.Covers (tree.children i) (tree.node i).span.startByte (tree.node i).span.endByte
  tokens : ∀ c ∈ tree.children i, tree.IsToken c
  feed : ∀ k, (tree.node i).span.startByte ≤ k → k + 1 < (tree.node i).span.endByte →
    byteAt tree.source k ≠ 10
  last : byteAt tree.source ((tree.node i).span.endByte - 1) = 10 ∨
    (tree.node i).span.endByte = tree.source.length

/-- A segment whose texts cover the bytes from `start` to `stop`. -/
structure Stretch (tree : ParsedSyntax) (blake3 : Bytes → Digest) (parent : Nat)
    (form : ParsedSyntax → Nat → Prop) (ids : List Nat) (first last start stop : Nat) : Prop
    extends Segment tree blake3 parent ids first last where
  placed : ∀ i, first ≤ i → i < last → tree.Placed i
  covers : tree.Covers ids start stop
  form : ∀ c ∈ ids, form tree c

section

variable {tree tree' : ParsedSyntax} {blake3 : Bytes → Digest} {i parent : Nat}
variable {form : ParsedSyntax → Nat → Prop} {ids : List Nat} {first last start stop : Nat}

theorem ParsedSyntax.Placed.congr (h : tree.Placed i) (source : tree'.source = tree.source)
    (here : tree'.node i = tree.node i) : tree'.Placed i := by
  refine ⟨?_, ?_, ?_, ?_⟩
  · rw [here]
    exact h.order
  · rw [here, source]
    exact h.bound
  · rw [here, source]
    exact h.start
  · rw [here, source]
    exact h.stop

theorem ParsedSyntax.IsToken.congr (h : tree.IsToken i) (source : tree'.source = tree.source)
    (here : tree'.node i = tree.node i) : tree'.IsToken i := by
  refine ⟨?_, ?_, ?_⟩
  · rw [ParsedSyntax.field, here]
    exact h.field
  · rw [ParsedSyntax.children, here]
    exact h.leaf
  · rw [here, source]
    exact h.kind

theorem ParsedSyntax.IsLine.congr (h : tree.IsLine i) (source : tree'.source = tree.source)
    (here : tree'.node i = tree.node i)
    (entries : ∀ c ∈ tree.children i, tree'.node c = tree.node c) : tree'.IsLine i := by
  have children : tree'.children i = tree.children i := congrArg SyntaxNode.children here
  refine ⟨?_, ?_, ?_, ?_, ?_, ?_⟩
  · rw [ParsedSyntax.field, here]
    exact h.field
  · rw [here, h.kind]
  · rw [children, here]
    exact h.covers.congr fun c child => congrArg SyntaxNode.span (entries c child)
  · rw [children]
    exact fun c child => (h.tokens c child).congr source (entries c child)
  · rw [here, source]
    exact h.feed
  · rw [here, source]
    exact h.last

/-- A stretch stays while other entries are changed. -/
theorem Stretch.congr (h : Stretch tree blake3 parent form ids first last start stop)
    (source : tree'.source = tree.source) (language : tree'.language = tree.language)
    (length : tree.nodes.length ≤ tree'.nodes.length)
    (same : ∀ j, first ≤ j → j < tree.nodes.length → tree'.node j = tree.node j)
    (forms : ∀ c ∈ ids, form tree c → form tree' c) :
    Stretch tree' blake3 parent form ids first last start stop := by
  have entries := h.node_congr same
  refine ⟨h.toSegment.congr source language length same, fun i after before => ?_, ?_,
    fun c member => forms c member (h.form c member)⟩
  · exact (h.placed i after before).congr source
      (same i after (h.settled i after before).below)
  · exact h.covers.congr fun c member => congrArg SyntaxNode.span (entries c member)

end

section

variable {source : Bytes} {language : Language} {nodes : List SyntaxNode}
variable {blake3 : Bytes → Digest} {parent : Nat} {form : ParsedSyntax → Nat → Prop}
variable {ids ids' : List Nat} {first middle last start mid stop : Nat} {tree : ParsedSyntax}

theorem Stretch.append (h : Stretch tree blake3 parent form ids first middle start mid)
    (h' : Stretch tree blake3 parent form ids' middle last mid stop) :
    Stretch tree blake3 parent form (ids ++ ids') first last start stop := by
  refine ⟨h.toSegment.append h'.toSegment, fun i after before => ?_, ?_, ?_⟩
  · rcases Nat.lt_or_ge i middle with early | late
    · exact h.placed i after early
    · exact h'.placed i late before
  · have covers :
        ∀ ids start, tree.Covers ids start mid → tree.Covers (ids ++ ids') start stop := by
      intro ids
      induction ids with
      | nil =>
          intro start empty
          rw [show start = mid from empty]
          exact h'.covers
      | cons c cs ih => exact fun start covers => ⟨covers.1, covers.2.1, ih _ covers.2.2⟩
    exact covers ids start h.covers
  · intro c member
    rcases List.mem_append.mp member with early | late
    · exact h.form c early
    · exact h'.form c late

/-- A stretch stays while entries are appended. -/
theorem Stretch.extend (block : List SyntaxNode)
    (h : Stretch (table source language nodes) blake3 parent form ids first last start stop)
    (forms : ∀ c ∈ ids, form (table source language nodes) c →
      form (table source language (nodes ++ block)) c) :
    Stretch (table source language (nodes ++ block)) blake3 parent form ids first last start
      stop :=
  h.congr rfl rfl (by simp [table]) (fun _ _ below => table_append below) forms

theorem Stretch.nil (below : first ≤ tree.nodes.length) :
    Stretch tree blake3 parent form [] first first start start where
  toSegment := .nil below
  placed := fun i after before => absurd before (by omega)
  covers := rfl
  form := by simp

end

/-! ## The tokens of a line -/

/-- A line of the source, from the offset after a line feed up to its own. -/
structure LineAt (source : Bytes) (row lineStart lineEnd : Nat) : Prop where
  order : lineStart < lineEnd
  bound : lineEnd ≤ source.length
  start : positionAt source lineStart = ⟨row, 0⟩
  feed : ∀ k, lineStart ≤ k → k + 1 < lineEnd → byteAt source k ≠ 10

section

variable {source : Bytes} {row lineStart lineEnd tokenStart : Nat}

theorem LineAt.position (line : LineAt source row lineStart lineEnd) {offset : Nat}
    (after : lineStart ≤ offset) (before : offset < lineEnd) :
    positionAt source offset = ⟨row, offset - lineStart⟩ :=
  positionAt_line line.start after (by have := line.bound; omega) fun k first last =>
    line.feed k first (by omega)

/-- The end of a line that is a line feed, or is not. -/
theorem LineAt.position_end (line : LineAt source row lineStart lineEnd) :
    positionAt source lineEnd =
      if byteAt source (lineEnd - 1) = 10 then ⟨row + 1, 0⟩ else ⟨row, lineEnd - lineStart⟩ := by
  have order := line.order
  have bound := line.bound
  obtain ⟨last, rfl⟩ : ∃ last, lineEnd = last + 1 := ⟨lineEnd - 1, by omega⟩
  rw [positionAt_succ (by omega), line.position (by omega) (by omega), Nat.add_sub_cancel,
    Nat.sub_add_comm (by omega)]

/-- A token ends where the class changes. -/
theorem universalTokenEnd_spec (tokenClass : UniversalTokenClass) {tokenEnd : Nat}
    (most : tokenEnd ≤ lineEnd) :
    universalTokenEnd source lineEnd tokenClass tokenEnd ≤ lineEnd ∧
    ∀ k, tokenEnd ≤ k → k < universalTokenEnd source lineEnd tokenClass tokenEnd →
      UniversalTokenClass.of (byteAt source k) = tokenClass := by
  fun_induction universalTokenEnd source lineEnd tokenClass tokenEnd with
  | case1 tokenEnd more ih =>
      obtain ⟨bound, rest⟩ := ih (by omega)
      refine ⟨bound, fun k after before => ?_⟩
      by_cases here : tokenEnd = k
      · rw [← here]
        exact more.2
      · exact rest k (by omega) before
  | case2 tokenEnd done => exact ⟨most, fun k after before => absurd before (by omega)⟩

/-- The position that the code gives to the end of a token. -/
theorem LineAt.position_token (line : LineAt source row lineStart lineEnd) {tokenEnd : Nat}
    (tokenClass : UniversalTokenClass) (after : lineStart ≤ tokenStart)
    (nonempty : tokenStart < tokenEnd) (most : tokenEnd ≤ lineEnd)
    (class_eq : ∀ k, tokenStart ≤ k → k < tokenEnd →
      UniversalTokenClass.of (byteAt source k) = tokenClass) :
    positionAt source tokenEnd =
      if tokenClass = .lineFeed then ⟨row + 1, 0⟩ else ⟨row, tokenEnd - lineStart⟩ := by
  have last := class_eq (tokenEnd - 1) (by omega) (by omega)
  rcases Nat.lt_or_ge tokenEnd lineEnd with before | atEnd
  · rw [line.position (by omega) before, if_neg]
    intro isFeed
    rw [isFeed, UniversalTokenClass.of_eq_lineFeed] at last
    exact line.feed (tokenEnd - 1) (by omega) (by omega) last
  · obtain rfl : tokenEnd = lineEnd := by omega
    rw [line.position_end]
    refine if_congr ?_ rfl rfl
    rw [← last, UniversalTokenClass.of_eq_lineFeed]

end

section

variable {blake3 : Bytes → Digest} {source : Bytes} {row lineStart lineEnd line : Nat}

theorem finish_middle (blake3 : Bytes → Digest) (source : Bytes) (nodes : List SyntaxNode)
    (entry : SyntaxNode) (block : List SyntaxNode) :
    finishUniversalNode blake3 source (nodes ++ entry :: block) nodes.length =
      nodes ++ finishedEntry blake3 source .universal nodes entry block :: block := by
  have shape : shapeInput (table source .universal (nodes ++ entry :: block)) nodes.length =
      universalStructuralInput (table source .universal (nodes ++ entry :: block))
        "stratadiff.shape.v1" true nodes.length := if_pos rfl
  rw [finishUniversalNode, modify_middle, finishedEntry, shape]
  rfl

/-- The entry of a token as it is pushed. -/
def tokenEntry (source : Bytes) (row line lineStart lineEnd id tokenStart : Nat) : SyntaxNode :=
  let tokenClass := UniversalTokenClass.of (byteAt source tokenStart)
  let tokenEnd := universalTokenEnd source lineEnd tokenClass (tokenStart + 1)
  enteredNode id tokenClass.kind true false false (some "token")
    ⟨tokenStart, tokenEnd, ⟨row, tokenStart - lineStart⟩,
      if tokenClass = .lineFeed then ⟨row + 1, 0⟩ else ⟨row, tokenEnd - lineStart⟩⟩ (some line)

/-- A finished token is a stretch of one entry. -/
theorem token_stretch (blake3 : Bytes → Digest) (line : Nat)
    (isLine : LineAt source row lineStart lineEnd)
    {tokenStart tokenEnd : Nat} (after : lineStart ≤ tokenStart) (inside : tokenStart < lineEnd)
    (isEnd : tokenEnd = universalTokenEnd source lineEnd
      (UniversalTokenClass.of (byteAt source tokenStart)) (tokenStart + 1))
    (nodes : List SyntaxNode) :
    tokenStart < tokenEnd ∧ tokenEnd ≤ lineEnd ∧
    Stretch (table source .universal (nodes ++ [finishedEntry blake3 source .universal nodes
      (tokenEntry source row line lineStart lineEnd nodes.length tokenStart) []])) blake3 line
      ParsedSyntax.IsToken [nodes.length] nodes.length (nodes.length + 1) tokenStart tokenEnd := by
  have nonempty : tokenStart < tokenEnd := by
    rw [isEnd]
    exact le_universalTokenEnd source lineEnd _ (tokenStart + 1)
  obtain ⟨most, others⟩ : tokenEnd ≤ lineEnd ∧ ∀ k, tokenStart + 1 ≤ k → k < tokenEnd →
      UniversalTokenClass.of (byteAt source k) =
        UniversalTokenClass.of (byteAt source tokenStart) := by
    rw [isEnd]
    exact universalTokenEnd_spec _ inside
  have class_eq : ∀ k, tokenStart ≤ k → k < tokenEnd →
      UniversalTokenClass.of (byteAt source k) =
        UniversalTokenClass.of (byteAt source tokenStart) := by
    intro k first last
    rcases Nat.eq_or_lt_of_le first with rfl | later
    · rfl
    · exact others k later last
  refine ⟨nonempty, most, ?_⟩
  obtain ⟨settled, size⟩ := settled_of_finish blake3 source .universal nodes
    (tokenEntry source row line lineStart lineEnd nodes.length tokenStart) [] rfl rfl
    (by simp [tokenEntry, enteredNode]) (by simp [tokenEntry, enteredNode])
  have here : (table source .universal (nodes ++ [finishedEntry blake3 source .universal nodes
      (tokenEntry source row line lineStart lineEnd nodes.length tokenStart) []])).node
        nodes.length = finishedEntry blake3 source .universal nodes
          (tokenEntry source row line lineStart lineEnd nodes.length tokenStart) [] :=
    table_middle
  have span : (finishedEntry blake3 source .universal nodes
      (tokenEntry source row line lineStart lineEnd nodes.length tokenStart) []).span =
        ⟨tokenStart, tokenEnd, ⟨row, tokenStart - lineStart⟩,
          if UniversalTokenClass.of (byteAt source tokenStart) = .lineFeed then ⟨row + 1, 0⟩
          else ⟨row, tokenEnd - lineStart⟩⟩ := by
    rw [isEnd]
    rfl
  refine ⟨.single (fun i first last => ?_) settled size ?_, fun i first last => ?_, ?_, ?_⟩
  · obtain rfl : i = nodes.length := by omega
    exact settled
  · rw [here]
    rfl
  · obtain rfl : i = nodes.length := by omega
    refine ⟨?_, ?_, ?_, ?_⟩
    · rw [here, span]
      exact nonempty.le
    · rw [here, span]
      exact most.trans isLine.bound
    · rw [here, span]
      exact (isLine.position after inside).symm
    · rw [here, span]
      exact (isLine.position_token _ after nonempty most class_eq).symm
  · rw [ParsedSyntax.Covers, here, span]
    exact ⟨rfl, nonempty, rfl⟩
  · intro c member
    obtain rfl := List.mem_singleton.mp member
    refine ⟨?_, ?_, UniversalTokenClass.of (byteAt source tokenStart), ?_, ?_⟩
    · rw [ParsedSyntax.field, here]
      rfl
    · rw [ParsedSyntax.children, here]
      rfl
    · rw [here]
      rfl
    · rw [here, span]
      exact class_eq

theorem universalTokens_done (nodes : List SyntaxNode) (children : List Nat) : ∃ block ids,
    Stretch (table source .universal (nodes ++ block)) blake3 line ParsedSyntax.IsToken ids
      nodes.length (nodes.length + block.length) lineEnd lineEnd ∧
    ∀ limits : ParseLimits, nodes.length ≤ limits.maxNodes →
      Bounded limits (if lineEnd < lineEnd then 2 else 0) (nodes.length + block.length)
        (universalTokens blake3 source limits row line lineStart lineEnd nodes children lineEnd)
        (nodes ++ block, children ++ ids) := by
  refine ⟨[], [], .nil (by simp [table]), fun limits within => ?_⟩
  rw [universalTokens, if_neg (lt_irrefl _), if_neg (lt_irrefl _), List.append_nil,
    List.append_nil]
  exact .ok within

theorem universalTokens_spec (blake3 : Bytes → Digest) (line : Nat)
    (isLine : LineAt source row lineStart lineEnd) :
    ∀ n tokenStart, lineEnd - tokenStart ≤ n → lineStart ≤ tokenStart → tokenStart ≤ lineEnd →
      ∀ nodes children, ∃ block ids,
        Stretch (table source .universal (nodes ++ block)) blake3 line ParsedSyntax.IsToken ids
          nodes.length (nodes.length + block.length) tokenStart lineEnd ∧
        ∀ limits : ParseLimits, nodes.length ≤ limits.maxNodes →
          Bounded limits (if tokenStart < lineEnd then 2 else 0) (nodes.length + block.length)
            (universalTokens blake3 source limits row line lineStart lineEnd nodes children
              tokenStart)
            (nodes ++ block, children ++ ids) := by
  intro n
  induction n with
  | zero =>
      intro tokenStart few after before nodes children
      obtain rfl : tokenStart = lineEnd := by omega
      exact universalTokens_done nodes children
  | succ n ih =>
      intro tokenStart few after before nodes children
      rcases Nat.eq_or_lt_of_le before with rfl | inside
      · exact universalTokens_done nodes children
      obtain ⟨nonempty, most, token⟩ := token_stretch blake3 line isLine after inside rfl
        nodes
      set entry := tokenEntry source row line lineStart lineEnd nodes.length tokenStart with isEntry
      set tokenEnd := universalTokenEnd source lineEnd
        (UniversalTokenClass.of (byteAt source tokenStart)) (tokenStart + 1) with isEnd
      obtain ⟨block, ids, rest, run⟩ := ih tokenEnd (by omega) (by omega) most
        (nodes ++ [finishedEntry blake3 source .universal nodes entry []])
        (children ++ [nodes.length])
      have length : (nodes ++ [finishedEntry blake3 source .universal nodes entry []]).length =
          nodes.length + 1 := by simp
      have total : nodes.length + 1 + block.length = nodes.length +
          (finishedEntry blake3 source .universal nodes entry [] :: block).length := by
        rw [List.length_cons]
        omega
      have append : nodes ++ [finishedEntry blake3 source .universal nodes entry []] ++ block =
          nodes ++ finishedEntry blake3 source .universal nodes entry [] :: block := by simp
      rw [length] at rest run
      refine ⟨finishedEntry blake3 source .universal nodes entry [] :: block, nodes.length :: ids,
        ?_, fun limits within => ?_⟩
      · have extended := token.extend block fun c member isToken =>
          isToken.congr rfl (table_append (by rw [length, List.mem_singleton.mp member]; omega))
        rw [append] at extended
        rw [append, total] at rest
        exact extended.append rest
      · rw [universalTokens, if_pos inside, if_pos inside]
        have finished := finish_middle blake3 source nodes entry []
        refine Bounded.bind (if tokenEnd < lineEnd then 2 else 0) (nodes.length + 1 + block.length)
          (pushUniversalNode_bounded nodes _ (some line) (some "token") entry.span)
          (fun within => ?_) ?_ ?_
        · have later := run limits within
          rw [append, List.append_assoc, List.singleton_append, ← finished] at later
          exact later
        · split <;> rfl
        · rw [← total]
          omega

/-! ## The lines -/

/-- Changing an earlier entry leaves a stretch of tokens as it is. -/
theorem Stretch.behind {nodes block : List SyntaxNode} {entry entry' : SyntaxNode}
    {ids : List Nat} {start stop : Nat}
    (h : Stretch (table source .universal (nodes ++ entry :: block)) blake3 line
      ParsedSyntax.IsToken ids (nodes.length + 1) (nodes.length + 1 + block.length) start stop) :
    Stretch (table source .universal (nodes ++ entry' :: block)) blake3 line
      ParsedSyntax.IsToken ids (nodes.length + 1) (nodes.length + 1 + block.length) start stop := by
  refine h.congr rfl rfl (by simp [table]) (fun j after _ => table_middle_ne (by omega)) ?_
  intro c member isToken
  have after := (h.tiles.mem member).1
  exact isToken.congr rfl (table_middle_ne (by omega))

/-- The entry of a line with its tokens, before it is finished. -/
def lineEntry (source : Bytes) (row root id lineStart : Nat) (tokens : List Nat) : SyntaxNode :=
  let lineEnd := universalLineEnd source lineStart
  { enteredNode id "universal_line" true false false (some "line")
      ⟨lineStart, lineEnd, ⟨row, 0⟩,
        if byteAt source (lineEnd - 1) == 10 then ⟨row + 1, 0⟩ else ⟨row, lineEnd - lineStart⟩⟩
      (some root) with
    children := tokens }

/-- A finished line is a stretch together with its tokens. -/
theorem line_stretch (root : Nat) (isLine : LineAt source row lineStart lineEnd)
    (isEnd : lineEnd = universalLineEnd source lineStart)
    (last : byteAt source (lineEnd - 1) = 10 ∨ lineEnd = source.length)
    {nodes block : List SyntaxNode} {ids : List Nat} {entry : SyntaxNode}
    (tokens : Stretch (table source .universal (nodes ++ entry :: block)) blake3 nodes.length
      ParsedSyntax.IsToken ids (nodes.length + 1) (nodes.length + 1 + block.length)
        lineStart lineEnd) :
    Stretch (table source .universal (nodes ++ finishedEntry blake3 source .universal nodes
      (lineEntry source row root nodes.length lineStart ids) block :: block)) blake3 root
      ParsedSyntax.IsLine [nodes.length] nodes.length (nodes.length + 1 + block.length)
        lineStart lineEnd := by
  have before : Stretch (table source .universal (nodes ++
      lineEntry source row root nodes.length lineStart ids :: block)) blake3 nodes.length
      ParsedSyntax.IsToken ids (nodes.length + 1) (nodes.length + 1 + block.length)
        lineStart lineEnd := tokens.behind
  have after :
      Stretch (table source .universal (nodes ++ finishedEntry blake3 source .universal nodes
      (lineEntry source row root nodes.length lineStart ids) block :: block)) blake3 nodes.length
      ParsedSyntax.IsToken ids (nodes.length + 1) (nodes.length + 1 + block.length)
        lineStart lineEnd := tokens.behind
  obtain ⟨settled, size⟩ := settled_of_finish blake3 source .universal nodes
    (lineEntry source row root nodes.length lineStart ids) block rfl before.tiles before.inside
    before.parent
  have here : (table source .universal (nodes ++ finishedEntry blake3 source .universal nodes
      (lineEntry source row root nodes.length lineStart ids) block :: block)).node nodes.length =
        finishedEntry blake3 source .universal nodes
          (lineEntry source row root nodes.length lineStart ids) block :=
    table_middle
  have children : (table source .universal (nodes ++ finishedEntry blake3 source .universal nodes
      (lineEntry source row root nodes.length lineStart ids) block :: block)).children
        nodes.length = ids := congrArg SyntaxNode.children here
  have span : (finishedEntry blake3 source .universal nodes
      (lineEntry source row root nodes.length lineStart ids) block).span =
        ⟨lineStart, lineEnd, ⟨row, 0⟩, positionAt source lineEnd⟩ := by
    rw [isLine.position_end, isEnd]
    simp only [finishedEntry, lineEntry, enteredNode, beq_iff_eq]
  refine ⟨.single (fun i first last => ?_) settled size ?_, fun i first last => ?_, ?_, ?_⟩
  · rcases Nat.eq_or_lt_of_le first with rfl | later
    · exact settled
    · exact after.settled i later last
  · rw [here]
    rfl
  · rcases Nat.eq_or_lt_of_le first with rfl | later
    · refine ⟨?_, ?_, ?_, ?_⟩
      · rw [here, span]
        exact isLine.order.le
      · rw [here, span]
        exact isLine.bound
      · rw [here, span]
        exact isLine.start.symm
      · rw [here, span]
        rfl
    · exact after.placed i later last
  · rw [ParsedSyntax.Covers, here, span]
    exact ⟨rfl, isLine.order, rfl⟩
  · intro c member
    obtain rfl := List.mem_singleton.mp member
    refine ⟨?_, ?_, ?_, ?_, ?_, ?_⟩
    · rw [ParsedSyntax.field, here]
      rfl
    · rw [here]
      rfl
    · rw [children, here, span]
      exact after.covers
    · rw [children]
      exact after.form
    · rw [here, span]
      exact isLine.feed
    · rw [here, span]
      exact last

theorem universalLines_done {root row lineStart : Nat} (nodes : List SyntaxNode)
    (children : List Nat) (done : lineStart = source.length) : ∃ block ids,
    Stretch (table source .universal (nodes ++ block)) blake3 root ParsedSyntax.IsLine ids
      nodes.length (nodes.length + block.length) lineStart source.length ∧
    ∀ limits : ParseLimits, nodes.length ≤ limits.maxNodes →
      Bounded limits (if lineStart < source.length then 2 else 0) (nodes.length + block.length)
        (universalLines blake3 source limits root nodes children lineStart row)
        (nodes ++ block, children ++ ids) := by
  subst done
  refine ⟨[], [], .nil (by simp [table]), fun limits within => ?_⟩
  rw [universalLines, if_neg (lt_irrefl _), if_neg (lt_irrefl _), List.append_nil,
    List.append_nil]
  exact .ok within

theorem universalLines_spec (blake3 : Bytes → Digest) (source : Bytes) (root : Nat) :
    ∀ n lineStart row, source.length - lineStart ≤ n → lineStart ≤ source.length →
    (lineStart < source.length → positionAt source lineStart = ⟨row, 0⟩) → ∀ nodes children,
      ∃ block ids, Stretch (table source .universal (nodes ++ block)) blake3 root
        ParsedSyntax.IsLine ids nodes.length (nodes.length + block.length) lineStart source.length ∧
      ∀ limits : ParseLimits, nodes.length ≤ limits.maxNodes →
        Bounded limits (if lineStart < source.length then 2 else 0) (nodes.length + block.length)
          (universalLines blake3 source limits root nodes children lineStart row)
          (nodes ++ block, children ++ ids) := by
  intro n
  induction n with
  | zero =>
      intro lineStart row few most start nodes children
      exact universalLines_done nodes children (by omega)
  | succ n ih =>
      intro lineStart row few most start nodes children
      rcases Nat.eq_or_lt_of_le most with atEnd | inside
      · exact universalLines_done nodes children atEnd
      obtain ⟨nonempty, bound, feed, last⟩ := universalLineEnd_spec source inside
      set lineEnd := universalLineEnd source lineStart with isEnd
      have isLine : LineAt source row lineStart lineEnd := ⟨nonempty, bound, start inside, feed⟩
      set entry := lineEntry source row root nodes.length lineStart [] with isEntry
      obtain ⟨tokens, tokenIds, tokenStretch, tokenRun⟩ :=
        universalTokens_spec blake3 nodes.length isLine _ lineStart le_rfl le_rfl
          nonempty.le (nodes ++ [entry]) []
      have length : (nodes ++ [entry]).length = nodes.length + 1 := by simp
      have append : nodes ++ [entry] ++ tokens = nodes ++ entry :: tokens := by simp
      rw [length, append] at tokenStretch
      rw [length] at tokenRun
      have line := line_stretch root isLine isEnd last tokenStretch
      set finished := finishedEntry blake3 source .universal nodes
        (lineEntry source row root nodes.length lineStart tokenIds) tokens with isFinished
      set hasLineFeed := byteAt source (lineEnd - 1) == 10 with isFeed
      have nextStart : lineEnd < source.length → positionAt source lineEnd =
          ⟨if hasLineFeed then row + 1 else row, 0⟩ := by
        intro more
        rw [isLine.position_end, isFeed]
        rcases last with feedLast | atEnd
        · simp [feedLast]
        · omega
      have finish :
          finishUniversalNode blake3 source ((nodes ++ entry :: tokens).modify nodes.length
          fun node => { node with children := tokenIds }) nodes.length =
            nodes ++ finished :: tokens := by
        rw [modify_middle]
        exact finish_middle _ _ _ _ _
      obtain ⟨block, ids, rest, run⟩ := ih lineEnd (if hasLineFeed then row + 1 else row) (by omega)
        bound nextStart (nodes ++ finished :: tokens) (children ++ [nodes.length])
      have length' : (nodes ++ finished :: tokens).length = nodes.length + 1 + tokens.length := by
        rw [List.length_append, List.length_cons]
        omega
      have append' :
          nodes ++ finished :: tokens ++ block = nodes ++ (finished :: tokens ++ block) := by
        simp
      have total : nodes.length + 1 + tokens.length + block.length =
          nodes.length + (finished :: tokens ++ block).length := by
        rw [List.length_append, List.length_cons]
        omega
      rw [length', append', total] at rest
      rw [length', append', total] at run
      refine ⟨finished :: tokens ++ block, nodes.length :: ids, ?_, fun limits within => ?_⟩
      · have extended := line.extend block fun c member formed => by
          obtain rfl := List.mem_singleton.mp member
          refine formed.congr rfl (table_append (by omega)) fun d child => table_append ?_
          exact (line.settled nodes.length le_rfl (by omega)).inside d child
        rw [append'] at extended
        exact extended.append rest
      · rw [universalLines, if_pos inside, if_pos inside]
        refine Bounded.bind 2 (nodes.length + (finished :: tokens ++ block).length)
          (pushUniversalNode_bounded nodes _ (some root) (some "line") entry.span)
          (fun within => ?_) rfl (by rw [← total]; omega)
        refine Bounded.bind (if lineEnd < source.length then 2 else 0)
          (nodes.length + (finished :: tokens ++ block).length) (tokenRun limits within)
          (fun within' => ?_) ?_ ?_
        · have later := run limits within'
          rw [List.append_assoc, List.singleton_append, ← finish] at later
          rw [append]
          exact later
        · rw [if_pos nonempty]
          split <;> rfl
        · rw [← total]
          omega

end

/-! ## The whole file -/

/-- A tree of lines and tokens that holds every byte of a source, at its position. -/
structure ParsedSyntax.Lossless (tree : ParsedSyntax) (source : Bytes) : Prop where
  whole : tree.source = source
  language : tree.language = .universal
  wellFormed : tree.WellFormed
  sizes : ∀ i < tree.nodes.length, tree.size i =
    { j | Relation.ReflTransGen (fun p c => c ∈ tree.children p) i j }.ncard
  file : (tree.node 0).span.startByte = 0 ∧ (tree.node 0).span.endByte = source.length
  lines : tree.Covers (tree.children 0) 0 source.length
  line : ∀ i ∈ tree.children 0, tree.IsLine i
  nodes : ∀ i < tree.nodes.length, i = 0 ∨ i ∈ tree.children 0 ∨
    ∃ line ∈ tree.children 0, i ∈ tree.children line
  bytes : tree.leafBytes 0 tree.nodes.length = source
  positions : ∀ i < tree.nodes.length,
    (tree.node i).span.start = positionAt source (tree.node i).span.startByte ∧
    (tree.node i).span.stop = positionAt source (tree.node i).span.endByte

/-- The entry of a file with its lines, before it is finished. -/
def fileEntry (source : Bytes) (lines : List Nat) : SyntaxNode :=
  { enteredNode 0 "universal_file" true false false none
      ⟨0, source.length, ⟨0, 0⟩, universalEndPosition source⟩ none with
    children := lines }

section

variable {blake3 : Bytes → Digest} {source : Bytes}

/-- Below the root there are lines, and below these tokens. -/
theorem lines_and_tokens (tree : SyntaxTree) (line : ∀ i ∈ tree.children 0, tree.IsLine i) :
    ∀ i < tree.nodes.length, i = 0 ∨ i ∈ tree.children 0 ∨
      ∃ line ∈ tree.children 0, i ∈ tree.children line := by
  intro i below
  have root : 0 < tree.preorder.count := tree.wellFormed.nonempty
  have inside : tree.preorder.InSubtree 0 i := PreorderTree.inSubtree_zero below
  by_cases isRoot : 0 = i
  · exact .inl isRoot.symm
  obtain ⟨l, isChild, inLine⟩ := inside.child root isRoot
  have knownLine := PreorderTree.child_lt root isChild
  refine .inr ?_
  by_cases same : l = i
  · rw [← same]
    exact .inl isChild
  obtain ⟨t, isToken, inToken⟩ := inLine.child knownLine same
  refine .inr ⟨l, isChild, ?_⟩
  have leaf := ((line l isChild).tokens t isToken).leaf
  by_cases same' : t = i
  · rw [← same']
    exact isToken
  · obtain ⟨c, none, _⟩ := inToken.child (PreorderTree.child_lt knownLine isToken) same'
    have absurdity : c ∈ tree.children t := none
    rw [leaf] at absurdity
    cases absurdity

/-- The tree that the lines of a source and the file above them make. -/
def fileTree (blake3 : Bytes → Digest) (source : Bytes) (block : List SyntaxNode)
    (ids : List Nat) : ParsedSyntax :=
  { table source .universal
      (finishedEntry blake3 source .universal [] (fileEntry source ids) block :: block) with
    rootKind := "universal_file" }

/-- Every entry of the file and its lines is settled. -/
theorem fileTree_settled {block : List SyntaxNode} {ids : List Nat} {entry : SyntaxNode}
    (lines : Stretch (table source .universal (entry :: block)) blake3 0 ParsedSyntax.IsLine ids
      1 (1 + block.length) 0 source.length) :
    Stretch (fileTree blake3 source block ids) blake3 0 ParsedSyntax.IsLine ids
      1 (1 + block.length) 0 source.length ∧
    (fileTree blake3 source block ids).Settled blake3 0 ∧
    (fileTree blake3 source block ids).size 0 = 1 + block.length := by
  have others (entry' : SyntaxNode) {tree : ParsedSyntax} (source_eq : tree.source = source)
      (language : tree.language = .universal) (nodes : tree.nodes = entry' :: block) :
      Stretch tree blake3 0 ParsedSyntax.IsLine ids 1 (1 + block.length) 0 source.length := by
    have same : ∀ j, 1 ≤ j → tree.node j = (table source .universal (entry :: block)).node j := by
      intro j after
      obtain ⟨k, rfl⟩ : ∃ k, j = k + 1 := ⟨j - 1, by omega⟩
      rw [ParsedSyntax.node, nodes]
      rfl
    refine lines.congr source_eq language (by simp [nodes, table]) (fun j after _ => same j after)
      fun c member isLine => isLine.congr source_eq (same c (lines.tiles.mem member).1) ?_
    intro d child
    have first := (lines.tiles.mem member).1
    have later := ((lines.settled c first (lines.inside c member)).tiles.mem child).1
    exact same d (by omega)
  have before := @others (fileEntry source ids)
    (table source .universal (fileEntry source ids :: block)) rfl rfl rfl
  obtain ⟨settled, size⟩ := settled_of_finish blake3 source .universal []
    (fileEntry source ids) block rfl
    (by rw [List.length_nil, Nat.zero_add]; exact before.tiles)
    (by rw [List.length_nil, Nat.zero_add]; exact before.inside) before.parent
  refine ⟨others _ rfl rfl rfl, settled.congr rfl rfl le_rfl fun j _ _ => rfl, ?_⟩
  have total : 0 + (fileTree blake3 source block ids).size 0 = 0 + 1 + block.length := size
  omega

theorem fileTree_lossless {block : List SyntaxNode} {ids : List Nat} {entry : SyntaxNode}
    (lines : Stretch (table source .universal (entry :: block)) blake3 0 ParsedSyntax.IsLine ids
      1 (1 + block.length) 0 source.length) :
    (fileTree blake3 source block ids).Lossless source ∧
      (fileTree blake3 source block ids).Hashed blake3 := by
  obtain ⟨below, root, size⟩ := fileTree_settled lines
  have length : (fileTree blake3 source block ids).nodes.length = 1 + block.length := by
    simp [fileTree, table]
    omega
  have settled : ∀ i < (fileTree blake3 source block ids).nodes.length,
      (fileTree blake3 source block ids).Settled blake3 i := by
    intro i inside
    rcases Nat.eq_zero_or_pos i with rfl | later
    · exact root
    · exact below.settled i later (by omega)
  obtain ⟨wellFormed, hashed⟩ := ParsedSyntax.wellFormed_of_settled root.below settled rfl
    (by rw [size, length]) rfl
  have covered : ∀ i < (fileTree blake3 source block ids).nodes.length,
      (fileTree blake3 source block ids).children i ≠ [] →
        (fileTree blake3 source block ids).Covers ((fileTree blake3 source block ids).children i)
          ((fileTree blake3 source block ids).node i).span.startByte
          ((fileTree blake3 source block ids).node i).span.endByte := by
    intro i inside inner
    obtain rfl | isLine | ⟨line, isLine, isToken⟩ :=
      lines_and_tokens ⟨fileTree blake3 source block ids, wellFormed⟩ below.form i inside
    · exact below.covers
    · exact (below.form i isLine).covers
    · exact absurd ((below.form line isLine).tokens i isToken).leaf inner
  refine ⟨⟨rfl, rfl, wellFormed, ?_, ⟨rfl, rfl⟩, below.covers, below.form,
    lines_and_tokens ⟨fileTree blake3 source block ids, wellFormed⟩ below.form, ?_, ?_⟩,
    hashed⟩
  · exact fun i inside => @PreorderTree.size_eq_ncard
      (SyntaxTree.preorder ⟨fileTree blake3 source block ids, wellFormed⟩) i inside
  · have spelled := leafBytes_subtree ⟨fileTree blake3 source block ids, wellFormed⟩ covered 0
      root.below
    rw [wellFormed.whole] at spelled
    rw [spelled]
    exact List.take_of_length_le le_rfl
  · intro i inside
    rcases Nat.eq_zero_or_pos i with rfl | later
    · refine ⟨rfl, ?_⟩
      have whole : positionAt source source.length = positionAfter source := by
        rw [positionAt, List.take_length]
      exact (universalEndPosition_eq source).trans whole.symm
    · have placed := below.placed i later (by omega)
      exact ⟨placed.start, placed.stop⟩

/-- The parser gives a lossless tree, unless the limits are below its depth or its number of
entries. -/
theorem universal_lossless (blake3 : Bytes → Digest) (source : Bytes) : ∃ tree : ParsedSyntax,
    tree.Lossless source ∧ tree.Hashed blake3 ∧
    ∀ limits : ParseLimits, Bounded limits (if source = [] then 0 else 2) tree.nodes.length
      (parseUniversal blake3 source limits) tree := by
  have start : positionAt source 0 = ⟨0, 0⟩ := rfl
  obtain ⟨block, ids, lines, run⟩ := universalLines_spec blake3 source 0 _ 0 0 le_rfl
    (Nat.zero_le _) (fun _ => start) [fileEntry source []] []
  obtain ⟨lossless, hashed⟩ := fileTree_lossless lines
  refine ⟨fileTree blake3 source block ids, lossless, hashed, fun limits => ?_⟩
  have length : (fileTree blake3 source block ids).nodes.length = 1 + block.length :=
    Nat.add_comm _ _
  have depth : (if 0 < source.length then 2 else 0) = if source = [] then 0 else 2 := by
    cases source with
    | nil => rfl
    | cons => rfl
  rw [depth] at run
  refine Bounded.bind (if source = [] then 0 else 2) (1 + block.length)
    (pushUniversalNode_bounded [] _ none none _) (fun within => ?_) (by simp) ?_
  · refine Bounded.bind 0 (1 + block.length) (run limits within) (fun within' => ?_) (by simp)
      (by simp)
    have finish : finishUniversalNode blake3 source (fileEntry source ids :: block) 0 =
        finishedEntry blake3 source .universal [] (fileEntry source ids) block :: block :=
      finish_middle blake3 source [] (fileEntry source ids) block
    have value : ({ table source .universal
        (finishUniversalNode blake3 source (fileEntry source ids :: block) 0) with
          root := 0
          rootKind := "universal_file" } : ParsedSyntax) = fileTree blake3 source block ids := by
      rw [finish]
      rfl
    have result : Bounded limits 0 (1 + block.length) (.ok (fileTree blake3 source block ids))
        (fileTree blake3 source block ids) := .ok within'
    rw [← value] at result ⊢
    exact result
  · rw [length]
    simp

end

end Stratadiff
