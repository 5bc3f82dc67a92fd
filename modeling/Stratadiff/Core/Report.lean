import Stratadiff.Core.Syntax

/-!
# Reports

The report on two snapshots: what they are, which parser read them, what corresponds and what
changed, the patch and its certificate.
-/

namespace Stratadiff

def reportSchema : String :=
  "https://raw.githubusercontent.com/gcomfident-crypto/stratadiff/main/schema/report-v3.schema.json"

def reportEngineVersion : String := "0.5.0"

structure Artifact where
  path : String
  byteLen : Nat
  blake3 : String
  deriving DecidableEq, Repr

structure ParserManifest where
  engine : String
  runtimeVersion : String
  language : Language
  grammarName : String
  grammarVersion : String
  grammarAbi : Nat
  nodeTypesBlake3 : String
  coordinateUnit : String
  rootKind : String
  beforeNodes : Nat
  afterNodes : Nat
  errorFree : Bool
  deriving DecidableEq, Repr

structure ReplayCertificate where
  beforeBlake3 : String
  afterBlake3 : String
  reconstructedBlake3 : String
  beforeLen : Nat
  afterLen : Nat
  patchVerified : Bool
  deriving DecidableEq, Repr

structure Summary where
  modelForcedRelations : Nat
  suggestedRelations : Nat
  ambiguityGroups : Nat
  structuralChanges : Nat
  deriving DecidableEq, Repr

structure DiffReport where
  schema : String
  engineVersion : String
  before : Artifact
  after : Artifact
  parser : ParserManifest
  relations : List Relation
  ambiguities : List AmbiguityGroup
  changes : List StructuralChange
  patch : LosslessPatch
  certificate : ReplayCertificate
  summary : Summary
  deriving DecidableEq, Repr

/-! ## Digests in texts and node references -/

def lowerHexDigit (value : Nat) : Char := "0123456789abcdef".toList.getD value '0'

/-- `hash_hex`. -/
def Digest.hex (digest : Digest) : String :=
  String.ofList (digest.bytes.flatMap fun byte =>
    [lowerHexDigit (byte.toNat / 16), lowerHexDigit (byte.toNat % 16)])

def SyntaxNode.asRef (node : SyntaxNode) : NodeRef where
  id := node.id
  kind := node.kind
  named := node.named
  extra := node.extra
  missing := node.missing
  field := node.field
  span := node.span
  subtreeSize := node.subtreeSize
  syntaxHash := node.syntaxHash.hex
  shapeHash := node.shapeHash.hex

/-! ## What a manifest says about a language -/

namespace Language

def parserEngine : Language → String
  | .universal => "stratadiff-universal"
  | _ => "tree-sitter"

def parserRuntimeVersion : Language → String
  | .universal => "1.0.0"
  | _ => "0.27.0"

def grammarName : Language → String
  | .universal => "byte-lines-token-runs"
  | .python => "tree-sitter-python"
  | .javascript => "tree-sitter-javascript"
  | .typescript => "tree-sitter-typescript"
  | .tsx => "tree-sitter-tsx"
  | .rust => "tree-sitter-rust"
  | .java => "tree-sitter-java"
  | .json => "tree-sitter-json"
  | .c => "tree-sitter-c"
  | .cpp => "tree-sitter-cpp"
  | .cSharp => "tree-sitter-c-sharp"
  | .go => "tree-sitter-go"
  | .ruby => "tree-sitter-ruby"
  | .bash => "tree-sitter-bash"
  | .php => "tree-sitter-php"
  | .html => "tree-sitter-html"
  | .css => "tree-sitter-css"
  | .yaml => "tree-sitter-yaml"
  | .toml => "tree-sitter-toml-ng"
  | .markdown => "tree-sitter-markdown"
  | .kotlin => "tree-sitter-kotlin-ng"
  | .swift => "tree-sitter-swift"
  | .lua => "tree-sitter-lua"
  | .scala => "tree-sitter-scala"
  | .r => "tree-sitter-r"
  | .elixir => "tree-sitter-elixir"
  | .haskell => "tree-sitter-haskell"
  | .ocaml => "tree-sitter-ocaml"
  | .ocamlInterface => "tree-sitter-ocaml-interface"
  | .zig => "tree-sitter-zig"

def grammarVersion : Language → String
  | .universal => "1.0.0"
  | .python => "0.25.0"
  | .javascript => "0.25.0"
  | .typescript => "0.23.2"
  | .tsx => "0.23.2"
  | .rust => "0.24.2"
  | .java => "0.23.5"
  | .json => "0.24.8"
  | .c => "0.24.2"
  | .cpp => "0.23.4"
  | .cSharp => "0.23.5"
  | .go => "0.25.0"
  | .ruby => "0.23.1"
  | .bash => "0.25.1"
  | .php => "0.24.2"
  | .html => "0.23.2"
  | .css => "0.25.0"
  | .yaml => "0.7.2"
  | .toml => "0.7.0"
  | .markdown => "0.5.3"
  | .kotlin => "1.1.0"
  | .swift => "0.7.3"
  | .lua => "0.5.0"
  | .scala => "0.26.2"
  | .r => "1.3.0"
  | .elixir => "0.3.5"
  | .haskell => "0.23.1"
  | .ocaml => "0.25.0"
  | .ocamlInterface => "0.25.0"
  | .zig => "1.1.2"

def coordinateUnit : Language → String
  | .universal => "zero_based_row_byte_column"
  | _ => "zero_based_row_utf8_byte_column"

def universalNodeTypes : String :=
  "[\n  \x7b\"type\":\"universal_file\",\"named\":true\x7d,\n  " ++
    "\x7b\"type\":\"universal_line\",\"named\":true\x7d,\n  " ++
    "\x7b\"type\":\"universal_ascii_word\",\"named\":true\x7d,\n  " ++
    "\x7b\"type\":\"universal_whitespace\",\"named\":true\x7d,\n  " ++
    "\x7b\"type\":\"universal_line_feed\",\"named\":true\x7d,\n  " ++
    "\x7b\"type\":\"universal_ascii_punctuation\",\"named\":true\x7d,\n  " ++
    "\x7b\"type\":\"universal_opaque_bytes\",\"named\":true\x7d\n]"

end Language

/-- What the grammar packages of the native languages say. -/
structure Grammars where
  abiVersion : Language → Nat
  nodeTypes : Language → String

def Grammars.grammarAbi (grammars : Grammars) (language : Language) : Nat :=
  if language = .universal then 1 else grammars.abiVersion language

def Grammars.nodeTypesOf (grammars : Grammars) (language : Language) : String :=
  if language = .universal then Language.universalNodeTypes else grammars.nodeTypes language

end Stratadiff
