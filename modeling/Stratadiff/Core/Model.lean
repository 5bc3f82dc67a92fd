import Stratadiff.Core.Patch

/-!
# The relations of a report

The part of `model.rs` that describes what a comparison of two syntax trees says: which
nodes correspond, where a correspondence is left open, and what changed.
-/

namespace Stratadiff

structure Position where
  row : Nat
  column : Nat
  deriving DecidableEq, Repr

structure Span where
  startByte : Nat
  endByte : Nat
  start : Position
  stop : Position
  deriving DecidableEq, Repr

structure NodeRef where
  id : Nat
  kind : String
  named : Bool
  extra : Bool
  missing : Bool
  field : Option String
  span : Span
  subtreeSize : Nat
  syntaxHash : String
  shapeHash : String
  deriving DecidableEq, Repr

inductive Predicate where
  | inputPair
  | byteEqual
  | syntaxEqual
  | shapeEqual
  deriving DecidableEq, Repr

inductive Correspondence where
  | inputPair
  | modelForced
  | suggested
  deriving DecidableEq, Repr

structure Relation where
  before : NodeRef
  after : NodeRef
  predicate : Predicate
  correspondence : Correspondence
  evidence : List String
  deriving DecidableEq, Repr

structure AmbiguityPair where
  beforeId : Nat
  afterId : Nat
  deriving DecidableEq, Repr

inductive AmbiguityAbstentionCause where
  | duplicateSymmetry
  | componentLimit
  | candidateScanLimit
  deriving DecidableEq, Repr

inductive PairClaims where
  | none
  deriving DecidableEq, Repr

inductive AmbiguityConstraint where
  /-- A resolution selects exactly `requiredMatches` listed pairs, uses each endpoint at most
  once, and preserves the order of the enclosing endpoint arrays. -/
  | exactOrderedAlignment (predicate : Predicate) (requiredMatches : Nat)
      (possiblePairs : List AmbiguityPair)
  /-- The endpoint arrays define only the abstention scope and make no pairwise claims. -/
  | symbolicAbstention (cause : AmbiguityAbstentionCause) (pairClaims : PairClaims)
  deriving DecidableEq, Repr

structure AmbiguityGroup where
  parentBefore : Nat
  parentAfter : Nat
  before : List NodeRef
  after : List NodeRef
  constraint : AmbiguityConstraint
  reason : String
  deriving DecidableEq, Repr

inductive ChangeKind where
  | insert
  | delete
  | equivalentRelocation
  | childOrderChanged
  | modelForcedUpdate
  | suggestedUpdate
  | formattingOnly
  deriving DecidableEq, Repr

structure StructuralChange where
  kind : ChangeKind
  before : Option NodeRef
  after : Option NodeRef
  detail : String
  deriving DecidableEq, Repr

end Stratadiff
