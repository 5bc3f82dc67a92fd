import Mathlib

/-!
# The lossless patch of a report

The part of `model.rs` that describes a patch. A replacement is carried as the
bytes of its base-64 text.
-/

namespace Stratadiff

abbrev Bytes := List UInt8

def utf8Bytes (text : String) : Bytes := text.toByteArray.data.toList

def patchAlgorithm : String := "bounded-patience-lines+bounded-byte-refinement-v2"

structure ByteEdit where
  oldStart : Nat
  oldEnd : Nat
  replacementBase64 : Bytes
  deriving DecidableEq, Repr

structure LosslessPatch where
  algorithm : String
  edits : List ByteEdit
  deriving DecidableEq, Repr

end Stratadiff
