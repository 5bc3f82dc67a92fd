import Stratadiff.Core.Universal

/-!
# Collecting a parser's tree

For every other language the tree comes from a parser outside the program, and `collect`
copies it into a table. What is copied without an error is a well-formed tree with its
digests, whatever tree the parser gave.
-/

namespace Stratadiff

/-- A node of the tree that the parser gives, with the field of its place under its parent. -/
inductive TsNode where
  | mk (kind : String) (named extra missing error : Bool) (span : Span) (field : Option String)
      (children : List TsNode)

def TsNode.kind : TsNode → String
  | .mk kind _ _ _ _ _ _ _ => kind

def TsNode.field : TsNode → Option String
  | .mk _ _ _ _ _ _ field _ => field

/-- `format!("{:?}", language).to_ascii_lowercase()`. -/
def Language.debugName : Language → String
  | .universal => "universal"
  | .python => "python"
  | .javascript => "javascript"
  | .typescript => "typescript"
  | .tsx => "tsx"
  | .rust => "rust"
  | .java => "java"
  | .json => "json"
  | .c => "c"
  | .cpp => "cpp"
  | .cSharp => "csharp"
  | .go => "go"
  | .ruby => "ruby"
  | .bash => "bash"
  | .php => "php"
  | .html => "html"
  | .css => "css"
  | .yaml => "yaml"
  | .toml => "toml"
  | .markdown => "markdown"
  | .kotlin => "kotlin"
  | .swift => "swift"
  | .lua => "lua"
  | .scala => "scala"
  | .r => "r"
  | .elixir => "elixir"
  | .haskell => "haskell"
  | .ocaml => "ocaml"
  | .ocamlInterface => "ocamlinterface"
  | .zig => "zig"

/-- The entry that is left: its children are filled in, then its size and its digests. -/
def leaveNode (blake3 : Bytes → Digest) (source : Bytes) (language : Language)
    (nodes : List SyntaxNode) (id : Nat) (children : List Nat) : List SyntaxNode :=
  let nodes := nodes.modify id fun node => { node with children := children }
  let tree := table source language nodes
  nodes.modify id fun node => { node with
    subtreeSize := 1 + (children.map tree.size).sum
    byteHash := blake3 (byteInput tree id)
    syntaxHash := blake3 (syntaxInput tree id)
    shapeHash := blake3 (shapeInput tree id) }

section

variable (blake3 : Bytes → Digest) (source : Bytes) (language : Language) (limits : ParseLimits)

def collectTooDeep : Failure :=
  .limit <| s!"syntax tree exceeds the supported depth of {limits.maxDepth}; refusing recursive " ++
    "analysis"

def collectTooMany : Failure :=
  .limit <| s!"syntax tree exceeds the supported node count of {limits.maxNodes}; refusing " ++
    "recursive analysis"

def collectPartial (missing : Bool) (span : Span) : Failure :=
  let produced := if missing then "a missing node" else "an ERROR node"
  .invalid <| s!"{language.debugName} parser produced {produced} bytes " ++
    s!"{span.startByte}-{span.endByte} at " ++
    s!"{span.start.row}:{span.start.column}-{span.stop.row}:{span.stop.column}; refusing to " ++
    "present a partial parse as an exact structural diff"

mutual

def collect (nodes : List SyntaxNode) (parent : Option Nat) (field : Option String) (depth : Nat) :
    TsNode → Result (List SyntaxNode × Nat)
  | .mk kind named extra missing error span _ children =>
      if limits.maxDepth < depth then .error (collectTooDeep limits)
      else if limits.maxNodes ≤ nodes.length then .error (collectTooMany limits)
      else if error ∨ missing then .error (collectPartial language missing span)
      else
        let id := nodes.length
        let nodes := nodes ++ [enteredNode id kind named extra missing field span parent]
        if limits.maxNodes - nodes.length < children.length then .error (collectTooMany limits)
        else
          collectChildren nodes id (depth + 1) [] children >>= fun collected =>
            .ok (leaveNode blake3 source language collected.1 id collected.2, id)

/-- The loop over the children of a node. -/
def collectChildren (nodes : List SyntaxNode) (id depth : Nat) (ids : List Nat) :
    List TsNode → Result (List SyntaxNode × List Nat)
  | [] => .ok (nodes, ids)
  | child :: children =>
      collect nodes (some id) child.field depth child >>= fun collected =>
        collectChildren collected.1 id depth (ids ++ [collected.2]) children

end

/-- `parse_with_limits`; `treeSitter` is the parser of a native language, stopped after so many
callbacks. -/
def parseWithLimits (treeSitter : Language → Bytes → Nat → Result TsNode) : Result ParsedSyntax :=
  if language = .universal then parseUniversal blake3 source limits
  else
    treeSitter language source limits.maxParseCallbacks >>= fun root =>
      collect blake3 source language limits [] none none 0 root >>= fun collected =>
        .ok { table source language collected.1 with
          root := collected.2
          rootKind := root.kind }

/-! ## What is collected is well formed -/

variable {blake3 source language limits}

theorem leave_middle (nodes : List SyntaxNode) (entry : SyntaxNode) (block : List SyntaxNode)
    (children : List Nat) :
    leaveNode blake3 source language (nodes ++ entry :: block) nodes.length children =
      nodes ++ finishedEntry blake3 source language nodes { entry with children := children }
        block :: block := by
  rw [leaveNode, modify_middle, modify_middle]
  rfl

/-- What `collect` appends: the subtree of the next entry. -/
structure Collected (blake3 : Bytes → Digest) (source : Bytes) (language : Language)
    (nodes : List SyntaxNode) (parent : Option Nat) (nodes' : List SyntaxNode) (id : Nat) :
    Prop where
  id : id = nodes.length
  suffix : ∃ block, nodes' = nodes ++ block
  settled : ∀ i, nodes.length ≤ i → i < nodes'.length →
    (table source language nodes').Settled blake3 i
  nonempty : nodes.length < nodes'.length
  size : nodes.length + (table source language nodes').size nodes.length = nodes'.length
  parent : ((table source language nodes').node nodes.length).parent = parent

/-- What the loop over the children appends. -/
structure CollectedChildren (blake3 : Bytes → Digest) (source : Bytes) (language : Language)
    (nodes : List SyntaxNode) (parent : Nat) (ids : List Nat) (nodes' : List SyntaxNode)
    (ids' : List Nat) : Prop where
  suffix : ∃ block, nodes' = nodes ++ block
  segment : ∃ more, ids' = ids ++ more ∧
    Segment (table source language nodes') blake3 parent more nodes.length nodes'.length

/-- A node is left when its children have been collected. -/
theorem CollectedChildren.leave {nodes nodes' : List SyntaxNode} {entry : SyntaxNode}
    {ids : List Nat} (id : entry.id = nodes.length)
    (below : CollectedChildren blake3 source language (nodes ++ [entry]) nodes.length [] nodes'
      ids) :
    Collected blake3 source language nodes entry.parent
      (leaveNode blake3 source language nodes' nodes.length ids) nodes.length := by
  obtain ⟨⟨block, rfl⟩, _, rfl, segment⟩ := below
  rw [List.append_assoc, List.singleton_append, leave_middle]
  set left := finishedEntry blake3 source language nodes { entry with children := ids } block
    with isLeft
  have start : (nodes ++ [entry]).length = nodes.length + 1 := by simp
  have stop : (nodes ++ [entry] ++ block).length = nodes.length + 1 + block.length := by simp; omega
  have same (entry' : SyntaxNode) : ∀ j, nodes.length + 1 ≤ j →
      (table source language (nodes ++ entry' :: block)).node j =
        (table source language (nodes ++ [entry] ++ block)).node j := by
    intro j after
    rw [List.append_assoc, List.singleton_append]
    exact table_middle_ne (by omega)
  rw [start, stop] at segment
  have moved (entry' : SyntaxNode) : Segment (table source language (nodes ++ entry' :: block))
      blake3 nodes.length ids (nodes.length + 1) (nodes.length + 1 + block.length) :=
    segment.congr rfl rfl (by simp [table]) fun j after _ => same entry' j after
  have before := moved { entry with children := ids }
  obtain ⟨settled, size⟩ := settled_of_finish blake3 source language nodes
    { entry with children := ids } block id before.tiles before.inside before.parent
  have length : (nodes ++ left :: block).length = nodes.length + 1 + block.length := by
    simp
    omega
  refine ⟨rfl, ⟨left :: block, rfl⟩, fun i after inside => ?_, by omega, ?_, ?_⟩
  · rcases Nat.eq_or_lt_of_le after with rfl | later
    · exact settled
    · exact (moved left).settled i later (by omega)
  · rw [length]
    exact size
  · rw [table_middle]
    rfl

/-- The children are collected one after another. -/
theorem Collected.cons {nodes pushed nodes' : List SyntaxNode} {ids ids' : List Nat}
    {parent first : Nat}
    (here : Collected blake3 source language nodes (some parent) pushed first)
    (rest : CollectedChildren blake3 source language pushed parent (ids ++ [first]) nodes' ids') :
    CollectedChildren blake3 source language nodes parent ids nodes' ids' := by
  obtain ⟨rfl, ⟨block, rfl⟩, settled, nonempty, size, isParent⟩ := here
  obtain ⟨⟨block', rfl⟩, more, rfl, segment⟩ := rest
  refine ⟨⟨block ++ block', List.append_assoc _ _ _⟩, nodes.length :: more, ?_, ?_⟩
  · rw [List.append_assoc, List.singleton_append]
  · have first : Segment (table source language (nodes ++ block)) blake3 parent [nodes.length]
        nodes.length (nodes ++ block).length :=
      .single settled (settled _ le_rfl nonempty) size isParent
    have kept : Segment (table source language (nodes ++ block ++ block')) blake3 parent
        [nodes.length] nodes.length (nodes ++ block).length :=
      first.congr rfl rfl (by simp [table]) fun j _ below => table_append below
    exact kept.append segment

mutual

theorem collect_spec (node : TsNode) (nodes : List SyntaxNode) (parent : Option Nat)
    (field : Option String) (depth : Nat) {nodes' : List SyntaxNode} {id : Nat}
    (run : collect blake3 source language limits nodes parent field depth node =
      .ok (nodes', id)) : Collected blake3 source language nodes parent nodes' id := by
  cases node with
  | mk kind named extra missing error span _ children =>
      rw [collect] at run
      split at run
      · cases run
      · split at run
        · cases run
        · split at run
          · cases run
          · dsimp only at run
            split at run
            · cases run
            · obtain ⟨⟨pushed, ids⟩, loop, run⟩ := Result.bind_eq_ok.mp run
              have below := collectChildren_spec children _ _ _ _ loop
              cases run
              exact below.leave rfl

theorem collectChildren_spec (children : List TsNode) (nodes : List SyntaxNode) (parent depth : Nat)
    (ids : List Nat) {nodes' : List SyntaxNode} {ids' : List Nat}
    (run : collectChildren blake3 source language limits nodes parent depth ids children =
      .ok (nodes', ids')) :
    CollectedChildren blake3 source language nodes parent ids nodes' ids' := by
  cases children with
  | nil =>
      cases run
      exact ⟨⟨[], (List.append_nil _).symm⟩, [], (List.append_nil _).symm, .nil le_rfl⟩
  | cons child children =>
      rw [collectChildren] at run
      obtain ⟨⟨pushed, first⟩, here, run⟩ := Result.bind_eq_ok.mp run
      have below := collect_spec child _ _ _ _ here
      exact below.cons (collectChildren_spec children _ _ _ _ run)

end

/-- Whatever the parser of a language gives, the tree is well formed and carries its digests. -/
theorem parseWithLimits_wellFormed {treeSitter : Language → Bytes → Nat → Result TsNode}
    {tree : ParsedSyntax}
    (parsed : parseWithLimits blake3 source language limits treeSitter = .ok tree) :
    tree.WellFormed ∧ tree.Hashed blake3 ∧ tree.source = source ∧ tree.language = language := by
  rw [parseWithLimits] at parsed
  split at parsed
  · next universal =>
    obtain ⟨tree', lossless, hashed, run⟩ := universal_lossless blake3 source
    obtain ⟨_, _, ok⟩ | ⟨_, failed⟩ | ⟨_, failed⟩ := run limits
    · cases ok.symm.trans parsed
      exact ⟨lossless.wellFormed, hashed, lossless.whole, lossless.language.trans universal.symm⟩
    · cases failed.symm.trans parsed
    · cases failed.symm.trans parsed
  · obtain ⟨root, _, parsed⟩ := Result.bind_eq_ok.mp parsed
    obtain ⟨⟨nodes, id⟩, run, parsed⟩ := Result.bind_eq_ok.mp parsed
    have collected := collect_spec root _ _ _ _ run
    cases parsed
    have settled : ∀ i < nodes.length, (table source language nodes).Settled blake3 i :=
      fun i below => collected.settled i (Nat.zero_le i) below
    obtain ⟨wellFormed, hashed⟩ := @ParsedSyntax.wellFormed_of_settled
      { table source language nodes with root := id, rootKind := root.kind } blake3
      collected.nonempty
      (fun i below => (settled i below).congr rfl rfl le_rfl fun _ _ _ => rfl) collected.id
      ((Nat.zero_add _).symm.trans collected.size) collected.parent
    exact ⟨wellFormed, hashed, rfl, rfl⟩

end

end Stratadiff
