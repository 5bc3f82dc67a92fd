import Stratadiff.Git.Change
import Stratadiff.Lib.Base64
import Stratadiff.Lib.Json
import Stratadiff.Lib.OrderedMap

/-!
# The data of the review cache

Change identities, the texts of `review_cache.rs` (base 64, hexadecimal digits, object ids and
modes), and its strict reader and canonical writer of JSON. The parser of JSON text is outside.
-/

namespace Stratadiff

/-- An exact change identity: paths are the base-64 texts of their bytes. -/
abbrev ExactGitChangeIdentity := Change String

def maxIdentities : Nat := 10000

/-! ## Texts -/

/-- Text of bytes below 128. -/
def asciiText (bytes : Bytes) : String :=
  String.ofList (bytes.map fun byte => Char.ofNat byte.toNat)

theorem utf8Bytes_asciiText {bytes : Bytes} (ascii : ∀ byte ∈ bytes, byte < 128) :
    utf8Bytes (asciiText bytes) = bytes := by
  have single : ∀ byte : UInt8, byte < 128 →
      String.utf8EncodeChar (Char.ofNat byte.toNat) = [byte] := by decide +kernel
  have encoded : bytes.flatMap (fun byte => String.utf8EncodeChar (Char.ofNat byte.toNat)) =
      bytes := by
    induction bytes with
    | nil => rfl
    | cons byte bytes ih =>
        rw [List.flatMap_cons, single byte (ascii byte List.mem_cons_self),
          ih fun other member => ascii other (List.mem_cons_of_mem _ member)]
        rfl
  simp [utf8Bytes, asciiText, List.utf8Encode, List.flatMap_map, encoded]

/-- `STANDARD.encode`. -/
def encodeBase64 (bytes : Bytes) : String := asciiText (Base64.encode bytes)

/-- `STANDARD.decode`. -/
def decodeBase64 (text : String) : Option Bytes := Base64.decode (utf8Bytes text)

def encodeHexDigit (digit : Nat) : UInt8 :=
  if digit < 10 then UInt8.ofNat (48 + digit) else UInt8.ofNat (87 + digit)

def encodeHex (bytes : Bytes) : String :=
  asciiText (bytes.flatMap fun byte =>
    [encodeHexDigit (byte.toNat / 16), encodeHexDigit (byte.toNat % 16)])

def hexNibble (value : UInt8) : Result Nat :=
  if 48 ≤ value ∧ value ≤ 57 then .ok (value.toNat - 48)
  else if 97 ≤ value ∧ value ≤ 102 then .ok (value.toNat - 97 + 10)
  else .error (.invalid "hex value is not lowercase hexadecimal")

/-- `is_sha1`: 40 lowercase hexadecimal digits. -/
def isSha1 (value : String) : Bool :=
  value.toList.length = 40 && value.toList.all fun c => c.isDigit || ('a' ≤ c ∧ c ≤ 'f')

/-- `is_mode`: six octal digits. -/
def isMode (value : String) : Bool :=
  value.toList.length = 6 && value.toList.all fun c => '0' ≤ c ∧ c ≤ '7'

/-! ## Reading JSON -/

structure CacheEngine where
  /-- The value at the front of a JSON text, with members as they stand there, and whether
  only white space follows. -/
  deserialize : Bytes → Except String (Json × Except String Unit)

mutual

/-- The visitor of `StrictValue`: objects become maps, and a repeated key is an error. -/
def strictValue : Json → Except String Json
  | .null => .ok .null
  | .bool value => .ok (.bool value)
  | .number value => .ok (.number value)
  | .string value => .ok (.string value)
  | .array values => do return .array (← strictValues values)
  | .object fields => do return .object (← strictFields fields .empty).entries

def strictValues : List Json → Except String (List Json)
  | [] => .ok []
  | value :: values => do return (← strictValue value) :: (← strictValues values)

def strictFields : List (String × Json) → OrderedMap String Json →
    Except String (OrderedMap String Json)
  | [], values => .ok values
  | (key, value) :: fields, values => do
      let value ← strictValue value
      match values.insertNew key value with
      | none => .error s!"duplicate JSON object key {key}"
      | some values => strictFields fields values

end

/-! ## Writing JSON -/

def canonicalJsonBytes (value : Json) : Bytes :=
  value.canonicalText.flatMap String.utf8EncodeChar

def parseStrictJson (engine : CacheEngine) (bytes : Bytes) (label : String) : Result Json := do
  match engine.deserialize bytes with
  | .error error => .error (.invalid s!"failed to decode {label}: {error}")
  | .ok (raw, trailing) =>
      match strictValue raw with
      | .error error => .error (.invalid s!"failed to decode {label}: {error}")
      | .ok value =>
          match trailing with
          | .error error => .error (.invalid s!"{label} contains trailing data: {error}")
          | .ok () => .ok value

end Stratadiff
