import Stratadiff.Cache.Git
import Stratadiff.Review.Model

/-!
# The raw diff as a format

What `git diff --raw -z` writes for a list of changes, and that both parsers read exactly this:
they read back what is written, and whatever they accept is a row of records, each a header and
its paths.
-/

namespace Stratadiff

/-! ## Bytes of texts -/

theorem utf8Bytes_eq_flatMap (text : String) :
    utf8Bytes text = text.toList.flatMap String.utf8EncodeChar := by
  rw [utf8Bytes, ← String.utf8Encode_toList, List.utf8Encode, List.data_toByteArray]

theorem utf8Bytes_append (left right : String) :
    utf8Bytes (left ++ right) = utf8Bytes left ++ utf8Bytes right := by
  simp only [utf8Bytes_eq_flatMap, String.toList_append, List.flatMap_append]

theorem utf8?_utf8Bytes (text : String) : utf8? (utf8Bytes text) = some text := by
  have same : (⟨(utf8Bytes text).toArray⟩ : ByteArray) = text.toByteArray := rfl
  rw [utf8?, same, String.fromUTF8?, dif_pos text.isValidUTF8]
  rfl

theorem utf8Bytes_of_utf8? {bytes : Bytes} {text : String} (read : utf8? bytes = some text) :
    utf8Bytes text = bytes := by
  rw [utf8?, String.fromUTF8?] at read
  split at read
  · cases read
    rfl
  · cases read

/-- A text is without a byte when its characters are. -/
theorem not_mem_utf8Bytes_of_subset {byte : UInt8} {text whole : String}
    (subset : ∀ c ∈ text.toList, c ∈ whole.toList) (absent : byte ∉ utf8Bytes whole) :
    byte ∉ utf8Bytes text := by
  rw [utf8Bytes_eq_flatMap, List.mem_flatMap] at absent ⊢
  rintro ⟨c, member, inside⟩
  exact absent ⟨c, subset c member, inside⟩

/-- A byte below 128 is a character of its own. -/
theorem toNat_of_mem_utf8EncodeChar {c : Char} {byte : UInt8} (small : byte.toNat < 128)
    (inside : byte ∈ String.utf8EncodeChar c) : c.toNat = byte.toNat := by
  have code : c.val.toNat = c.toNat := rfl
  have large : ∀ n : Nat, 128 ≤ n → n < 256 → byte ≠ UInt8.ofNat n := by
    rintro n least most rfl
    rw [UInt8.toNat_ofNat', Nat.mod_eq_of_lt most] at small
    omega
  unfold String.utf8EncodeChar at inside
  dsimp only at inside
  split at inside
  · next ascii =>
      rw [List.mem_singleton.mp inside, UInt8.toNat_ofNat', Nat.mod_eq_of_lt (by omega), code]
  -- Every byte of a longer code is at least 128.
  · split at inside
    · simp only [List.mem_cons, List.not_mem_nil, or_false] at inside
      rcases inside with same | same <;> exact absurd same (large _ (by omega) (by omega))
    · split at inside
      · simp only [List.mem_cons, List.not_mem_nil, or_false] at inside
        rcases inside with same | same | same <;>
          exact absurd same (large _ (by omega) (by omega))
      · simp only [List.mem_cons, List.not_mem_nil, or_false] at inside
        rcases inside with same | same | same | same <;>
          exact absurd same (large _ (by omega) (by omega))

/-- A text has a byte below 128 only in a character that it is the code of. -/
theorem mem_utf8Bytes_ascii {text : String} {byte : UInt8} (small : byte.toNat < 128)
    (inside : byte ∈ utf8Bytes text) : ∃ c ∈ text.toList, c.toNat = byte.toNat := by
  rw [utf8Bytes_eq_flatMap, List.mem_flatMap] at inside
  obtain ⟨c, member, inside⟩ := inside
  exact ⟨c, member, toNat_of_mem_utf8EncodeChar small inside⟩

/-- A text without a NUL character has no NUL byte. -/
theorem not_mem_utf8Bytes_of_ascii {text : String}
    (ascii : ∀ c ∈ text.toList, 0 < c.toNat ∧ c.toNat < 128) : (0 : UInt8) ∉ utf8Bytes text := by
  intro inside
  obtain ⟨c, member, zero⟩ := mem_utf8Bytes_ascii (by decide) inside
  exact absurd zero (ascii c member).1.ne'

/-! ## Words -/

/-- A text without white space. -/
def IsWord (text : String) : Prop :=
  text.toList ≠ [] ∧ ∀ c ∈ text.toList, isAsciiWhitespace c = false

instance (text : String) : Decidable (IsWord text) := inferInstanceAs (Decidable (_ ∧ _))

theorem asciiWords_word {word : String} (isWord : IsWord word) : asciiWords word = [word] := by
  rw [asciiWords, List.splitOnP_eq_singleton isWord.2,
    List.filter_cons_of_pos (by simpa using isWord.1)]
  simp

theorem asciiWords_append {word : String} (isWord : IsWord word) (rest : String) :
    asciiWords (word ++ " " ++ rest) = word :: asciiWords rest := by
  have split : (word ++ " " ++ rest).toList = word.toList ++ ' ' :: rest.toList := by
    simp [String.toList_append]
  rw [asciiWords, split, List.splitOnP_append_cons _ _ (by decide),
    List.splitOnP_eq_singleton isWord.2, List.singleton_append,
    List.filter_cons_of_pos (by simpa using isWord.1), List.map_cons, String.ofList_toList]
  rfl

/-- The parts of a split are made of the items between the separators. -/
theorem of_mem_splitOnP {α : Type} {p : α → Bool} {xs part : List α}
    (member : part ∈ xs.splitOnP p) : ∀ x ∈ part, p x = false ∧ x ∈ xs := by
  induction xs generalizing part with
  | nil =>
      rw [List.splitOnP_nil, List.mem_singleton] at member
      rw [member]
      exact fun x absurd => nomatch absurd
  | cons head tail ih =>
      rw [List.splitOnP_cons_eq_if_modifyHead] at member
      split at member
      · next separates =>
        rcases List.mem_cons.mp member with rfl | member
        · exact fun x absurd => nomatch absurd
        · exact fun x inside =>
            ⟨(ih member x inside).1, List.mem_cons_of_mem _ (ih member x inside).2⟩
      · next keeps =>
        obtain ⟨first, rest, parts⟩ := List.exists_cons_of_ne_nil (List.splitOnP_ne_nil p tail)
        rw [parts, List.modifyHead_cons] at member
        have inner : ∀ part ∈ first :: rest, ∀ x ∈ part, p x = false ∧ x ∈ head :: tail := by
          intro part inside x found
          have below := ih (parts ▸ inside) x found
          exact ⟨below.1, List.mem_cons_of_mem _ below.2⟩
        rcases List.mem_cons.mp member with rfl | member
        · intro x found
          rcases List.mem_cons.mp found with rfl | found
          · exact ⟨eq_false_of_ne_true keeps, List.mem_cons_self⟩
          · exact inner first List.mem_cons_self x found
        · exact inner part (List.mem_cons_of_mem _ member)

/-- The words of a text are made of its characters and have no white space. -/
theorem of_mem_asciiWords {text word : String} (member : word ∈ asciiWords text) :
    IsWord word ∧ ∀ c ∈ word.toList, c ∈ text.toList := by
  obtain ⟨chars, inside, rfl⟩ := List.mem_map.mp member
  obtain ⟨part, filled⟩ := List.mem_filter.mp inside
  have made := of_mem_splitOnP part
  rw [IsWord, String.toList_ofList]
  exact ⟨⟨by simpa using filled, fun c found => (made c found).1⟩, fun c found => (made c found).2⟩

/-! ## What Git writes -/

/-- A change with the paths as the bytes that Git prints. -/
abbrev RawChange := Change Bytes

/-- Copies and renames have a similarity. -/
def FileStatus.Measures (status : FileStatus) (similarityPercent : Option Nat) : Prop :=
  match status with
  | .copied | .renamed => ∃ percent ≤ 100, similarityPercent = some percent
  | _ => similarityPercent = none

namespace Change

variable {ρ σ : Type}

def mapPath (path : ρ → σ) (change : Change ρ) : Change σ where
  status := change.status
  similarityPercent := change.similarityPercent
  beforePath := change.beforePath.map path
  afterPath := change.afterPath.map path
  beforeMode := change.beforeMode
  afterMode := change.afterMode
  beforeBlob := change.beforeBlob
  afterBlob := change.afterBlob

/-- The sides that a change of this status has. -/
def Sided (change : Change ρ) : Prop :=
  let before := change.beforePath ≠ none ∧ change.beforeMode ≠ none ∧ change.beforeBlob ≠ none
  let noBefore := change.beforePath = none ∧ change.beforeMode = none ∧ change.beforeBlob = none
  let after := change.afterPath ≠ none ∧ change.afterMode ≠ none ∧ change.afterBlob ≠ none
  let noAfter := change.afterPath = none ∧ change.afterMode = none ∧ change.afterBlob = none
  match change.status with
  | .added => noBefore ∧ after
  | .deleted => before ∧ noAfter
  | .modified | .typeChanged => before ∧ after ∧ change.beforePath = change.afterPath
  | .copied | .renamed => before ∧ after

def Measured (change : Change ρ) : Prop := change.status.Measures change.similarityPercent

/-- The modes and the objects of both sides. -/
def columns (change : Change ρ) : List String :=
  change.beforeMode.toList ++ change.afterMode.toList ++ change.beforeBlob.toList ++
    change.afterBlob.toList

def paths (change : Change ρ) : List ρ := change.beforePath.toList ++ change.afterPath.toList

end Change

/-- A mode or an object name: a word that is not all zeros. -/
def IsColumn (value : String) : Prop :=
  IsWord value ∧ (0 : UInt8) ∉ utf8Bytes value ∧ nonzero value = some value

def zeroMode : String := "000000"

def zeroObject : String := "0000000000000000000000000000000000000000"

/-- A percentage in three digits. -/
def similarityDigits (percent : Nat) : List Char :=
  [Nat.digitChar (percent / 100), Nat.digitChar (percent / 10 % 10), Nat.digitChar (percent % 10)]

def statusLetters (status : FileStatus) (similarityPercent : Option Nat) : List Char :=
  match status with
  | .added => ['A']
  | .copied => 'C' :: similarityDigits (similarityPercent.getD 0)
  | .deleted => ['D']
  | .modified => ['M']
  | .renamed => 'R' :: similarityDigits (similarityPercent.getD 0)
  | .typeChanged => ['T']

def statusText {ρ : Type} (change : Change ρ) : String :=
  String.ofList (statusLetters change.status change.similarityPercent)

section

variable {ρ : Type}

def headerText (change : Change ρ) : String :=
  ":" ++ change.beforeMode.getD zeroMode ++ " " ++ change.afterMode.getD zeroMode ++ " " ++
    change.beforeBlob.getD zeroObject ++ " " ++ change.afterBlob.getD zeroObject ++ " " ++
    statusText change

end

/-- The paths of a record: a modified file has one. -/
def recordPaths (change : RawChange) : List Bytes :=
  match change.status with
  | .added => change.afterPath.toList
  | .deleted | .modified | .typeChanged => change.beforePath.toList
  | .copied | .renamed => change.paths

def recordFields (change : RawChange) : List Bytes :=
  utf8Bytes (headerText change) :: recordPaths change

/-- The output of `git diff --raw -z`: every field ends with a NUL. -/
def serializeRawDiff (changes : List RawChange) : Bytes :=
  (changes.flatMap recordFields).flatMap fun field => field ++ [0]

/-! ## Readers

The two parsers differ in how they name a path and in what they refuse.
-/

structure RawDiffReader (ρ : Type) where
  format : RawDiffFormat ρ
  path : Bytes → ρ
  bytes : ρ → Bytes
  bytes_path : ∀ path', bytes (path path') = path'
  TakesPath : Bytes → Prop
  TakesColumns : Option String → Option String → Option String → Option String → Prop
  nextPath_eq_ok : ∀ bytes found, format.nextPath bytes = .ok found ↔
    bytes ≠ [] ∧ TakesPath bytes ∧ found = path bytes
  checkHeader_eq_ok : ∀ beforeMode afterMode beforeBlob afterBlob,
    format.checkHeader beforeMode afterMode beforeBlob afterBlob = .ok () ↔
      TakesColumns beforeMode afterMode beforeBlob afterBlob
  parseSimilarity_eq_ok : ∀ status percent, format.parseSimilarity status = .ok percent ↔
    parseU8 (status.drop 1) = some percent ∧ percent ≤ 100

/-- The value of an upper-case hexadecimal digit. -/
def hexDigitValue (c : Char) : Nat := if c.toNat < 58 then c.toNat - 48 else c.toNat - 55

def percentDecode : List Char → Bytes
  | '%' :: high :: low :: rest =>
      UInt8.ofNat (16 * hexDigitValue high + hexDigitValue low) :: percentDecode rest
  | _ => []

/-- The bytes that a path stands for. -/
def GitPath.bytes (path : GitPath) : Bytes :=
  match path.encoding with
  | .utf8 => utf8Bytes path.display
  | .gitBytesPercentEncoded => percentDecode (path.display.toList.drop "git-bytes:".toList.length)

theorem percentDecode_flatMap (bytes : Bytes) :
    percentDecode (bytes.flatMap fun byte =>
      ['%', hexDigit (byte.toNat / 16), hexDigit (byte.toNat % 16)]) = bytes := by
  have digit : ∀ value < 16, hexDigitValue (hexDigit value) = value := by decide
  induction bytes with
  | nil => rfl
  | cons byte bytes ih =>
      have bound := byte.toNat_lt
      have whole : 16 * (byte.toNat / 16) + byte.toNat % 16 = byte.toNat := Nat.div_add_mod _ _
      rw [List.flatMap_cons, List.cons_append, List.cons_append, List.cons_append,
        List.nil_append, percentDecode, ih, digit _ (by omega), digit _ (by omega), whole,
        UInt8.ofNat_toNat]

theorem percentDecode_label (label : List Char) (bytes : Bytes) :
    percentDecode ((String.ofList (label ++ bytes.flatMap fun byte =>
      ['%', hexDigit (byte.toNat / 16), hexDigit (byte.toNat % 16)])).toList.drop label.length) =
        bytes := by
  rw [String.toList_ofList, List.drop_left, percentDecode_flatMap]

theorem GitPath.bytes_encoded (display : String) :
    GitPath.bytes ⟨display, .gitBytesPercentEncoded⟩ =
      percentDecode (display.toList.drop "git-bytes:".toList.length) := by
  rw [GitPath.bytes]

theorem bytes_gitPath (bytes : Bytes) : (gitPath bytes).bytes = bytes := by
  rw [gitPath]
  split
  · next text valid =>
    rw [GitPath.bytes]
    exact utf8Bytes_of_utf8? valid
  · exact (GitPath.bytes_encoded _).trans (percentDecode_label "git-bytes:".toList bytes)

theorem symbol_ascii (digit : Nat) : Base64.symbol digit < 128 := by
  rw [Base64.symbol, UInt8.lt_iff_toNat_lt]
  split_ifs <;> simp <;> omega

theorem encode_ascii (bytes : Bytes) : ∀ byte ∈ Base64.encode bytes, byte < 128 := by
  induction bytes using Base64.encode.induct with
  | case1 => simp [Base64.encode]
  | case2 a => simp [Base64.encode, symbol_ascii, Base64.pad]
  | case3 a b => simp [Base64.encode, symbol_ascii, Base64.pad]
  | case4 a b c rest ih => simpa [Base64.encode, symbol_ascii] using ih

theorem decodeBase64_encodeBase64 (bytes : Bytes) :
    decodeBase64 (encodeBase64 bytes) = some bytes := by
  rw [decodeBase64, encodeBase64, utf8Bytes_asciiText (encode_ascii bytes), Base64.decode_encode]

theorem percentage_eq_ok {parsed : Option Nat} {percent : Nat} {invalid : Failure}
    {exceeded : Nat → Failure} :
    (do
      let value ← Result.ofOption invalid parsed
      Result.ensure (value ≤ 100) (exceeded value)
      return value) = Except.ok percent ↔ parsed = some percent ∧ percent ≤ 100 := by
  rw [Result.ofOption_bind_eq_ok]
  constructor
  · rintro ⟨value, found, done⟩
    obtain ⟨bounded, done⟩ := Result.check_bind_eq_ok.mp done
    cases done
    exact ⟨found, Result.ensure_eq_ok.mp bounded⟩
  · rintro ⟨found, bounded⟩
    exact ⟨percent, found, Result.check_bind_eq_ok.mpr ⟨Result.ensure_of bounded, rfl⟩⟩

def reviewDiffReader (maxFiles : Nat) : RawDiffReader GitPath where
  format := reviewDiffFormat maxFiles
  path := gitPath
  bytes := GitPath.bytes
  bytes_path := bytes_gitPath
  TakesPath _ := True
  TakesColumns _ _ _ _ := True
  nextPath_eq_ok bytes found := by
    show nextPath bytes = .ok found ↔ _
    rw [nextPath, Result.check_bind_eq_ok, Result.ensure_eq_ok, Result.pure_eq_ok, true_and,
      eq_comm]
  checkHeader_eq_ok _ _ _ _ := by simp [reviewDiffFormat]
  parseSimilarity_eq_ok status percent := by
    show parseSimilarity status = .ok percent ↔ _
    exact percentage_eq_ok

def cacheDiffReader : RawDiffReader String where
  format := cacheDiffFormat
  path := encodeBase64
  bytes text := (decodeBase64 text).getD []
  bytes_path path := by rw [decodeBase64_encodeBase64, Option.getD_some]
  TakesPath path := path.length ≤ 4096
  TakesColumns beforeMode afterMode beforeObjectId afterObjectId :=
    (∀ objectId ∈ beforeObjectId.toList ++ afterObjectId.toList, isSha1 objectId) ∧
      ∀ mode ∈ beforeMode.toList ++ afterMode.toList, isMode mode
  nextPath_eq_ok bytes found := by
    show cacheNextPath bytes = .ok found ↔ _
    rw [cacheNextPath, Result.check_bind_eq_ok, Result.check_bind_eq_ok, Result.ensure_eq_ok,
      Result.ensure_eq_ok, Result.pure_eq_ok, eq_comm (a := found)]
  checkHeader_eq_ok beforeMode afterMode beforeObjectId afterObjectId := by
    show checkCacheHeader beforeMode afterMode beforeObjectId afterObjectId = .ok () ↔ _
    rw [checkCacheHeader, Result.check_bind_eq_ok, Result.ensure_eq_ok, Result.ensure_eq_ok,
      List.all_eq_true, List.all_eq_true]
  parseSimilarity_eq_ok status percent := by
    show cacheParseSimilarity status = .ok percent ↔ _
    exact percentage_eq_ok

variable {ρ : Type} (reader : RawDiffReader ρ)

/-- A change that a raw diff can say and the reader takes. -/
structure Recordable (change : RawChange) : Prop where
  sided : change.Sided
  measured : change.Measured
  columns : ∀ value ∈ change.columns, IsColumn value
  taken : reader.TakesColumns change.beforeMode change.afterMode change.beforeBlob
    change.afterBlob
  paths : ∀ path ∈ change.paths, path ≠ [] ∧ (0 : UInt8) ∉ path ∧ reader.TakesPath path

def headerOf (change : Change ρ) : RawHeader where
  beforeMode := change.beforeMode
  afterMode := change.afterMode
  beforeBlob := change.beforeBlob
  afterBlob := change.afterBlob
  status := change.status
  similarityPercent := change.similarityPercent

/-- The header is one of this change. -/
def IsHeader (header : Bytes) (change : RawChange) : Prop :=
  parseHeader reader.format header = .ok (headerOf change)

/-! ## Headers -/

theorem parseU8_similarityDigits {percent : Nat} (bounded : percent ≤ 100) :
    parseU8 (similarityDigits percent) = some percent := by
  have all : ∀ percent : Fin 101, parseU8 (similarityDigits percent) = some percent.val := by
    decide +kernel
  exact all ⟨percent, by omega⟩

theorem parseStatus_statusText {change : RawChange} (measured : change.Measured) :
    parseStatus reader.format (statusText change) =
      .ok (change.status, change.similarityPercent) := by
  have similarity : ∀ (letter : Char) (percent : Nat), percent ≤ 100 →
      reader.format.parseSimilarity (letter :: similarityDigits percent) = .ok percent :=
    fun letter percent bounded =>
      (reader.parseSimilarity_eq_ok _ _).mpr ⟨parseU8_similarityDigits bounded, bounded⟩
  rw [parseStatus, statusText, String.toList_ofList]
  unfold Change.Measured FileStatus.Measures at measured
  cases status : change.status <;> rw [status] at measured
  case copied =>
    obtain ⟨percent, bounded, found⟩ := measured
    rw [found]
    exact congrArg (· >>= fun percent => .ok (FileStatus.copied, some percent))
      (similarity 'C' percent bounded)
  case renamed =>
    obtain ⟨percent, bounded, found⟩ := measured
    rw [found]
    exact congrArg (· >>= fun percent => .ok (FileStatus.renamed, some percent))
      (similarity 'R' percent bounded)
  all_goals
    rw [measured]
    rfl

/-- A character that a word of ASCII text may have. -/
def IsPlain (c : Char) : Prop := isAsciiWhitespace c = false ∧ 0 < c.toNat ∧ c.toNat < 128

instance : DecidablePred IsPlain := fun _ => inferInstanceAs (Decidable (_ ∧ _))

theorem statusLetters_plain {change : RawChange} (measured : change.Measured) :
    ∀ c ∈ statusLetters change.status change.similarityPercent, IsPlain c := by
  have digit : ∀ value < 10, IsPlain (Nat.digitChar value) := by decide
  have digits : ∀ percent ≤ 100, ∀ c ∈ similarityDigits percent, IsPlain c := by
    intro percent bounded
    exact List.forall_mem_cons.mpr ⟨digit _ (by omega), List.forall_mem_cons.mpr
      ⟨digit _ (by omega), List.forall_mem_singleton.mpr (digit _ (by omega))⟩⟩
  unfold Change.Measured FileStatus.Measures at measured
  cases status : change.status <;> rw [status] at measured
  case copied =>
    obtain ⟨percent, bounded, found⟩ := measured
    rw [found]
    exact List.forall_mem_cons.mpr ⟨by decide, digits percent bounded⟩
  case renamed =>
    obtain ⟨percent, bounded, found⟩ := measured
    rw [found]
    exact List.forall_mem_cons.mpr ⟨by decide, digits percent bounded⟩
  all_goals
    rw [measured]
    exact List.forall_mem_singleton.mpr (by decide)

variable {reader} {change : RawChange}

theorem zeroMode_plain : IsWord zeroMode ∧ (0 : UInt8) ∉ utf8Bytes zeroMode ∧
    nonzero zeroMode = none := by
  have zeros : zeroMode.toList = List.replicate 6 '0' := rfl
  refine ⟨?_, not_mem_utf8Bytes_of_ascii ?_, ?_⟩
  · rw [IsWord, zeros]
    exact ⟨by decide, fun c member => List.eq_of_mem_replicate member ▸ rfl⟩
  · rw [zeros]
    exact fun c member => List.eq_of_mem_replicate member ▸ by decide
  · rw [nonzero, zeros]
    rfl

theorem zeroObject_plain : IsWord zeroObject ∧ (0 : UInt8) ∉ utf8Bytes zeroObject ∧
    nonzero zeroObject = none := by
  have zeros : zeroObject.toList = List.replicate 40 '0' := rfl
  refine ⟨?_, not_mem_utf8Bytes_of_ascii ?_, ?_⟩
  · rw [IsWord, zeros]
    exact ⟨by decide, fun c member => List.eq_of_mem_replicate member ▸ rfl⟩
  · rw [zeros]
    exact fun c member => List.eq_of_mem_replicate member ▸ by decide
  · rw [nonzero, zeros]
    rfl

/-- What is written for a side of a record. -/
theorem column_plain {value : Option String} {zeros : String}
    (zero : IsWord zeros ∧ (0 : UInt8) ∉ utf8Bytes zeros ∧ nonzero zeros = none)
    (columns : ∀ text ∈ value, IsColumn text) :
    IsWord (value.getD zeros) ∧ (0 : UInt8) ∉ utf8Bytes (value.getD zeros) ∧
      nonzero (value.getD zeros) = value := by
  cases value with
  | none => exact zero
  | some text => exact columns text rfl

namespace Recordable

variable (recordable : Recordable reader change)

include recordable

theorem beforeMode_plain : IsWord (change.beforeMode.getD zeroMode) ∧
    (0 : UInt8) ∉ utf8Bytes (change.beforeMode.getD zeroMode) ∧
    nonzero (change.beforeMode.getD zeroMode) = change.beforeMode :=
  column_plain zeroMode_plain fun text member =>
    recordable.columns text (by simp [Change.columns, Option.mem_def.mp member])

theorem afterMode_plain : IsWord (change.afterMode.getD zeroMode) ∧
    (0 : UInt8) ∉ utf8Bytes (change.afterMode.getD zeroMode) ∧
    nonzero (change.afterMode.getD zeroMode) = change.afterMode :=
  column_plain zeroMode_plain fun text member =>
    recordable.columns text (by simp [Change.columns, Option.mem_def.mp member])

theorem beforeBlob_plain : IsWord (change.beforeBlob.getD zeroObject) ∧
    (0 : UInt8) ∉ utf8Bytes (change.beforeBlob.getD zeroObject) ∧
    nonzero (change.beforeBlob.getD zeroObject) = change.beforeBlob :=
  column_plain zeroObject_plain fun text member =>
    recordable.columns text (by simp [Change.columns, Option.mem_def.mp member])

theorem afterBlob_plain : IsWord (change.afterBlob.getD zeroObject) ∧
    (0 : UInt8) ∉ utf8Bytes (change.afterBlob.getD zeroObject) ∧
    nonzero (change.afterBlob.getD zeroObject) = change.afterBlob :=
  column_plain zeroObject_plain fun text member =>
    recordable.columns text (by simp [Change.columns, Option.mem_def.mp member])

theorem statusText_isWord : IsWord (statusText change) := by
  rw [IsWord, statusText, String.toList_ofList]
  refine ⟨?_, fun c member => (statusLetters_plain recordable.measured c member).1⟩
  cases status : change.status <;> simp [statusLetters]

theorem asciiWords_headerText :
    asciiWords (headerText change) =
      [":" ++ change.beforeMode.getD zeroMode, change.afterMode.getD zeroMode,
        change.beforeBlob.getD zeroObject, change.afterBlob.getD zeroObject,
        statusText change] := by
  have first : IsWord (":" ++ change.beforeMode.getD zeroMode) := by
    rw [IsWord, String.toList_append]
    exact ⟨by simp, List.forall_mem_cons.mpr ⟨rfl, recordable.beforeMode_plain.1.2⟩⟩
  have grouped : headerText change = (":" ++ change.beforeMode.getD zeroMode) ++ " " ++
      (change.afterMode.getD zeroMode ++ " " ++ (change.beforeBlob.getD zeroObject ++ " " ++
        (change.afterBlob.getD zeroObject ++ " " ++ statusText change))) := by
    simp only [headerText, String.append_assoc]
  rw [grouped, asciiWords_append first, asciiWords_append recordable.afterMode_plain.1,
    asciiWords_append recordable.beforeBlob_plain.1, asciiWords_append recordable.afterBlob_plain.1,
    asciiWords_word recordable.statusText_isWord]

/-- What is written as a header is read as one. -/
theorem isHeader : IsHeader reader (utf8Bytes (headerText change)) change := by
  have prefixed : (":" ++ change.beforeMode.getD zeroMode).toList =
      ':' :: (change.beforeMode.getD zeroMode).toList := String.toList_append
  have checked := (reader.checkHeader_eq_ok _ _ _ _).mpr recordable.taken
  rw [IsHeader, parseHeader, utf8?_utf8Bytes, Result.ofOption_some, Result.ok_bind,
    recordable.asciiWords_headerText]
  simp only [prefixed, Result.ok_bind, String.ofList_toList, recordable.beforeMode_plain.2.2,
    recordable.afterMode_plain.2.2, recordable.beforeBlob_plain.2.2,
    recordable.afterBlob_plain.2.2, checked, parseStatus_statusText reader recordable.measured]
  rfl

theorem headerText_without_nul : (0 : UInt8) ∉ utf8Bytes (headerText change) := by
  have colon : (0 : UInt8) ∉ utf8Bytes ":" :=
    not_mem_utf8Bytes_of_ascii (List.forall_mem_singleton.mpr (by decide))
  have space : (0 : UInt8) ∉ utf8Bytes " " :=
    not_mem_utf8Bytes_of_ascii (List.forall_mem_singleton.mpr (by decide))
  have status : (0 : UInt8) ∉ utf8Bytes (statusText change) :=
    not_mem_utf8Bytes_of_ascii fun c member => by
      rw [statusText, String.toList_ofList] at member
      exact (statusLetters_plain recordable.measured c member).2
  simp only [headerText, utf8Bytes_append, List.mem_append, not_or]
  exact ⟨⟨⟨⟨⟨⟨⟨⟨⟨colon, recordable.beforeMode_plain.2.1⟩, space⟩,
    recordable.afterMode_plain.2.1⟩, space⟩, recordable.beforeBlob_plain.2.1⟩, space⟩,
    recordable.afterBlob_plain.2.1⟩, space⟩, status⟩

end Recordable

/-- What a header without NUL says of a side is a column, unless the side is absent. -/
theorem isColumn_of_nonzero {header word : String} (absent : (0 : UInt8) ∉ utf8Bytes header)
    (made : ∀ c ∈ word.toList, isAsciiWhitespace c = false ∧ c ∈ header.toList) :
    ∀ text ∈ (nonzero word).toList, IsColumn text := by
  intro text found
  rw [Option.mem_toList] at found
  have same : word = text ∧ nonzero word = some word ∧ word.toList ≠ [] := by
    rw [nonzero] at found ⊢
    split at found
    · cases found
    · next different =>
      cases found
      exact ⟨rfl, if_neg different, fun empty => different (by rw [empty]; rfl)⟩
  obtain ⟨rfl, kept, filled⟩ := same
  exact ⟨⟨filled, fun c member => (made c member).1⟩,
    not_mem_utf8Bytes_of_subset (fun c member => (made c member).2) absent, kept⟩

theorem measured_of_parseStatus {text : String} {status : FileStatus} {percent : Option Nat}
    (parsed : parseStatus reader.format text = .ok (status, percent)) :
    status.Measures percent := by
  rw [parseStatus] at parsed
  split at parsed
  · cases parsed
  · cases parsed
    rfl
  · obtain ⟨value, found, parsed⟩ := Result.bind_eq_ok.mp parsed
    cases parsed
    exact ⟨value, ((reader.parseSimilarity_eq_ok _ _).mp found).2, rfl⟩
  · cases parsed
    rfl
  · cases parsed
    rfl
  · obtain ⟨value, found, parsed⟩ := Result.bind_eq_ok.mp parsed
    cases parsed
    exact ⟨value, ((reader.parseSimilarity_eq_ok _ _).mp found).2, rfl⟩
  · cases parsed
    rfl
  · cases parsed

/-- What a header without NUL says can be written again. -/
structure Plain (reader : RawDiffReader ρ) (header : RawHeader) : Prop where
  columns : ∀ value ∈ header.beforeMode.toList ++ header.afterMode.toList ++
    header.beforeBlob.toList ++ header.afterBlob.toList, IsColumn value
  taken : reader.TakesColumns header.beforeMode header.afterMode header.beforeBlob
    header.afterBlob
  measured : header.status.Measures header.similarityPercent

theorem plain_of_parseHeader {field : Bytes} {header : RawHeader}
    (parsed : parseHeader reader.format field = .ok header) (absent : (0 : UInt8) ∉ field) :
    Plain reader header := by
  obtain ⟨text, decoded, parsed⟩ := Result.ofOption_bind_eq_ok.mp parsed
  rw [← utf8Bytes_of_utf8? decoded] at absent
  split at parsed
  · next prefixed after beforeId afterId status words =>
    have word : ∀ word ∈ asciiWords text, ∀ c ∈ word.toList,
        isAsciiWhitespace c = false ∧ c ∈ text.toList := fun word member c inside =>
      ⟨(of_mem_asciiWords member).1.2 c inside, (of_mem_asciiWords member).2 c inside⟩
    rw [words] at word
    simp only [List.forall_mem_cons] at word
    obtain ⟨first, second, third, fourth, _⟩ := word
    split at parsed
    · next rest colon =>
      obtain ⟨checked, parsed⟩ := Result.check_bind_eq_ok.mp parsed
      obtain ⟨⟨kind, percent⟩, read, parsed⟩ := Result.bind_eq_ok.mp parsed
      cases parsed
      have inner : ∀ c ∈ (String.ofList rest).toList,
          isAsciiWhitespace c = false ∧ c ∈ text.toList := by
        intro c inside
        rw [String.toList_ofList] at inside
        exact first c (colon ▸ List.mem_cons_of_mem _ inside)
      refine ⟨?_, (reader.checkHeader_eq_ok _ _ _ _).mp checked, measured_of_parseStatus read⟩
      intro value member
      simp only [List.mem_append] at member
      obtain ((member | member) | member) | member := member
      · exact isColumn_of_nonzero absent inner value member
      · exact isColumn_of_nonzero absent second value member
      · exact isColumn_of_nonzero absent third value member
      · exact isColumn_of_nonzero absent fourth value member
    · cases parsed
  · cases parsed

/-! ## Records -/

theorem pushChange_eq_ok {header : RawHeader} {beforePath afterPath : Option ρ}
    {changes result : List (Change ρ)} :
    pushChange reader.format header beforePath afterPath changes = .ok result ↔
      consistentMetadata reader.format header = .ok () ∧
        changes.length < reader.format.maxChanges ∧
        result = changes ++ [⟨header.status, header.similarityPercent, beforePath, afterPath,
          header.beforeMode, header.afterMode, header.beforeBlob, header.afterBlob⟩] := by
  rw [pushChange, Result.check_bind_eq_ok, Result.check_bind_eq_ok, Result.ensure_eq_ok,
    Result.pure_eq_ok, List.length_append, List.length_singleton, Nat.succ_le_iff,
    eq_comm (a := result)]

/-- The metadata is that of a change with these sides. -/
theorem Change.Sided.consistent {σ : Type} {change : Change σ} {format : RawDiffFormat ρ}
    (sided : change.Sided) : consistentMetadata format (headerOf change) = .ok () := by
  unfold Change.Sided at sided
  unfold consistentMetadata headerOf
  cases status : change.status <;> rw [status] at sided <;> rw [Result.ensure_eq_ok]
  case added => exact ⟨sided.1.2.1, sided.1.2.2, sided.2.2.1, sided.2.2.2⟩
  case deleted => exact ⟨sided.1.2.1, sided.1.2.2, sided.2.2.1, sided.2.2.2⟩
  case copied => exact ⟨sided.1.2.1, sided.1.2.2, sided.2.2.1, sided.2.2.2⟩
  case renamed => exact ⟨sided.1.2.1, sided.1.2.2, sided.2.2.1, sided.2.2.2⟩
  case modified => exact ⟨sided.1.2.1, sided.1.2.2, sided.2.1.2.1, sided.2.1.2.2⟩
  case typeChanged => exact ⟨sided.1.2.1, sided.1.2.2, sided.2.1.2.1, sided.2.1.2.2⟩

/-- A record as it stands among the fields: a header and the paths of its change. -/
structure IsRecord (reader : RawDiffReader ρ) (header : Bytes) (change : RawChange) : Prop where
  isHeader : IsHeader reader header change
  recordable : Recordable reader change

theorem IsRecord.filled {header : Bytes} (isRecord : IsRecord reader header change) :
    header ≠ [] := by
  rintro rfl
  have parsed := isRecord.isHeader
  rw [IsHeader, parseHeader] at parsed
  cases parsed

theorem Recordable.nextPath (recordable : Recordable reader change) :
    ∀ path ∈ change.paths, reader.format.nextPath path = .ok (reader.path path) := by
  intro path member
  obtain ⟨filled, _, taken⟩ := recordable.paths path member
  exact (reader.nextPath_eq_ok path _).mpr ⟨filled, taken, rfl⟩

/-- The loop pushes the change with its paths as the reader names them. -/
theorem Recordable.push (recordable : Recordable reader change) {changes : List (Change ρ)}
    (room : changes.length < reader.format.maxChanges) :
    pushChange reader.format (headerOf change) (change.beforePath.map reader.path)
        (change.afterPath.map reader.path) changes =
      .ok (changes ++ [change.mapPath reader.path]) := by
  rw [pushChange_eq_ok]
  exact ⟨recordable.sided.consistent, room, rfl⟩

/-- One round of the loop reads one record. -/
theorem IsRecord.parse {header : Bytes} (isRecord : IsRecord reader header change)
    {changes : List (Change ρ)} (room : changes.length < reader.format.maxChanges)
    (fields : List Bytes) :
    parseRecords reader.format (header :: (recordPaths change ++ fields)) changes =
      parseRecords reader.format fields (changes ++ [change.mapPath reader.path]) := by
  obtain ⟨b, bs, rfl⟩ := List.exists_cons_of_ne_nil isRecord.filled
  have push := isRecord.recordable.push room
  have next := isRecord.recordable.nextPath
  have sided := isRecord.recordable.sided
  have parsed : parseHeader reader.format (b :: bs) = .ok (headerOf change) := isRecord.isHeader
  rw [parseRecords, parsed, Result.ok_bind]
  unfold Change.Sided at sided
  cases status : change.status <;> rw [status] at sided <;>
    have kind : (headerOf change).status = change.status := rfl <;> rw [status] at kind
  case added =>
    obtain ⟨⟨noPath, _⟩, hasPath, _⟩ := sided
    obtain ⟨path, found⟩ := Option.ne_none_iff_exists'.mp hasPath
    have read := next path (by simp [Change.paths, found])
    rw [noPath, found, Option.map_none, Option.map_some] at push
    simp only [recordPaths, status, found, Option.toList_some, List.singleton_append, read,
      Result.ok_bind, kind, push]
  case deleted =>
    obtain ⟨⟨hasPath, _⟩, noPath, _⟩ := sided
    obtain ⟨path, found⟩ := Option.ne_none_iff_exists'.mp hasPath
    have read := next path (by simp [Change.paths, found])
    rw [noPath, found, Option.map_none, Option.map_some] at push
    simp only [recordPaths, status, found, Option.toList_some, List.singleton_append, read,
      Result.ok_bind, kind, push]
  case modified | typeChanged =>
    obtain ⟨⟨hasPath, _⟩, _, same⟩ := sided
    obtain ⟨path, found⟩ := Option.ne_none_iff_exists'.mp hasPath
    have read := next path (by simp [Change.paths, found])
    rw [← same, found, Option.map_some] at push
    simp only [recordPaths, status, found, Option.toList_some, List.singleton_append, read,
      Result.ok_bind, kind, push]
  case copied | renamed =>
    obtain ⟨⟨hasBefore, _⟩, hasAfter, _⟩ := sided
    obtain ⟨first, found⟩ := Option.ne_none_iff_exists'.mp hasBefore
    obtain ⟨second, found'⟩ := Option.ne_none_iff_exists'.mp hasAfter
    have read := next first (by simp [Change.paths, found])
    have read' := next second (by simp [Change.paths, found'])
    rw [found, found', Option.map_some, Option.map_some] at push
    simp only [recordPaths, status, Change.paths, found, found', Option.toList_some,
      List.cons_append, List.nil_append, read, read', Result.ok_bind, kind, push]

/-- The change that a header and its paths say. -/
def changeOf (header : RawHeader) (beforePath afterPath : Option Bytes) : RawChange :=
  ⟨header.status, header.similarityPercent, beforePath, afterPath, header.beforeMode,
    header.afterMode, header.beforeBlob, header.afterBlob⟩

/-- What one round pushes is a record. -/
theorem isRecord_of_push {field : Bytes} {header : RawHeader} {beforePath afterPath : Option Bytes}
    {changes result : List (Change ρ)} (parsed : parseHeader reader.format field = .ok header)
    (absent : (0 : UInt8) ∉ field)
    (pushed : pushChange reader.format header (beforePath.map reader.path)
      (afterPath.map reader.path) changes = .ok result)
    (paths : ∀ path ∈ beforePath.toList ++ afterPath.toList,
      path ≠ [] ∧ (0 : UInt8) ∉ path ∧ reader.TakesPath path)
    (sided : consistentMetadata reader.format header = .ok () →
      (changeOf header beforePath afterPath).Sided) :
    IsRecord reader field (changeOf header beforePath afterPath) ∧
      changes.length < reader.format.maxChanges ∧
      result = changes ++ [(changeOf header beforePath afterPath).mapPath reader.path] := by
  rw [pushChange_eq_ok] at pushed
  obtain ⟨consistent, room, rfl⟩ := pushed
  obtain ⟨columns, taken, measured⟩ := plain_of_parseHeader parsed absent
  exact ⟨⟨parsed, sided consistent, measured, columns, taken, paths⟩, room, rfl⟩

theorem parseRecords_cons {field : Bytes} {fields : List Bytes} {changes result : List (Change ρ)}
    (filled : field ≠ []) (absent : ∀ other ∈ field :: fields, (0 : UInt8) ∉ other)
    (done : parseRecords reader.format (field :: fields) changes = .ok result) :
    ∃ change rest, fields = recordPaths change ++ rest ∧ IsRecord reader field change ∧
      changes.length < reader.format.maxChanges ∧
      parseRecords reader.format rest (changes ++ [change.mapPath reader.path]) = .ok result := by
  obtain ⟨b, bs, rfl⟩ := List.exists_cons_of_ne_nil filled
  rw [parseRecords] at done
  obtain ⟨header, parsed, done⟩ := Result.bind_eq_ok.mp done
  have here : (0 : UInt8) ∉ b :: bs := absent _ List.mem_cons_self
  cases fields with
  | nil => cases done
  | cons first fields =>
      obtain ⟨firstPath, read, done⟩ := Result.bind_eq_ok.mp done
      obtain ⟨filledFirst, takenFirst, rfl⟩ := (reader.nextPath_eq_ok _ _).mp read
      have absentFirst : (0 : UInt8) ∉ first := absent _ (by simp)
      cases status : header.status <;> rw [status] at done
      case added =>
        obtain ⟨middle, pushed, done⟩ := Result.bind_eq_ok.mp done
        have sided (consistent : consistentMetadata reader.format header = .ok ()) :
            (changeOf header none (some first)).Sided := by
          simp only [consistentMetadata, status, Result.ensure_eq_ok] at consistent
          simp [Change.Sided, changeOf, status, consistent]
        obtain ⟨isRecord, room, rfl⟩ := @isRecord_of_push ρ reader (b :: bs) header none
          (some first) changes middle parsed here pushed
          (List.forall_mem_singleton.mpr ⟨filledFirst, absentFirst, takenFirst⟩) sided
        exact ⟨_, fields, by simp [recordPaths, changeOf, status], isRecord, room, done⟩
      case deleted =>
        obtain ⟨middle, pushed, done⟩ := Result.bind_eq_ok.mp done
        have sided (consistent : consistentMetadata reader.format header = .ok ()) :
            (changeOf header (some first) none).Sided := by
          simp only [consistentMetadata, status, Result.ensure_eq_ok] at consistent
          simp [Change.Sided, changeOf, status, consistent]
        obtain ⟨isRecord, room, rfl⟩ := @isRecord_of_push ρ reader (b :: bs) header (some first)
          none changes middle parsed here pushed
          (List.forall_mem_singleton.mpr ⟨filledFirst, absentFirst, takenFirst⟩) sided
        exact ⟨_, fields, by simp [recordPaths, changeOf, status], isRecord, room, done⟩
      case modified | typeChanged =>
        obtain ⟨middle, pushed, done⟩ := Result.bind_eq_ok.mp done
        have sided (consistent : consistentMetadata reader.format header = .ok ()) :
            (changeOf header (some first) (some first)).Sided := by
          simp only [consistentMetadata, status, Result.ensure_eq_ok] at consistent
          simp [Change.Sided, changeOf, status, consistent]
        have taken := And.intro filledFirst (And.intro absentFirst takenFirst)
        obtain ⟨isRecord, room, rfl⟩ := @isRecord_of_push ρ reader (b :: bs) header (some first)
          (some first) changes middle parsed here pushed
          (List.forall_mem_cons.mpr ⟨taken, List.forall_mem_singleton.mpr taken⟩) sided
        exact ⟨_, fields, by simp [recordPaths, changeOf, status], isRecord, room, done⟩
      case copied | renamed =>
        cases fields with
        | nil => cases done
        | cons second fields =>
            obtain ⟨secondPath, read, done⟩ := Result.bind_eq_ok.mp done
            obtain ⟨filledSecond, takenSecond, rfl⟩ := (reader.nextPath_eq_ok _ _).mp read
            have absentSecond : (0 : UInt8) ∉ second := absent _ (by simp)
            obtain ⟨middle, pushed, done⟩ := Result.bind_eq_ok.mp done
            have sided (consistent : consistentMetadata reader.format header = .ok ()) :
                (changeOf header (some first) (some second)).Sided := by
              simp only [consistentMetadata, status, Result.ensure_eq_ok] at consistent
              simp [Change.Sided, changeOf, status, consistent]
            obtain ⟨isRecord, room, rfl⟩ := @isRecord_of_push ρ reader (b :: bs) header
              (some first) (some second) changes middle parsed here pushed
              (List.forall_mem_cons.mpr ⟨⟨filledFirst, absentFirst, takenFirst⟩,
                List.forall_mem_singleton.mpr ⟨filledSecond, absentSecond, takenSecond⟩⟩) sided
            exact ⟨_, fields, by simp [recordPaths, changeOf, status, Change.paths], isRecord, room,
              done⟩

/-- The fields of some records, each with its header. -/
def recordsFields (records : List (Bytes × RawChange)) : List Bytes :=
  records.flatMap fun record => record.1 :: recordPaths record.2

/-- The loop reads records, and they are all that it can read. -/
theorem parseRecords_records {records : List (Bytes × RawChange)} {changes : List (Change ρ)}
    (areRecords : ∀ record ∈ records, IsRecord reader record.1 record.2)
    (room : records = [] ∨ changes.length + records.length ≤ reader.format.maxChanges)
    (fields : List Bytes) :
    parseRecords reader.format (recordsFields records ++ fields) changes =
      parseRecords reader.format fields
        (changes ++ records.map fun record => record.2.mapPath reader.path) := by
  induction records generalizing changes with
  | nil => simp [recordsFields]
  | cons record records ih =>
      obtain ⟨header, change⟩ := record
      have bound : changes.length + (records.length + 1) ≤ reader.format.maxChanges := by
        simpa using room
      have first : IsRecord reader header change := areRecords _ List.mem_cons_self
      have unfolded : recordsFields ((header, change) :: records) ++ fields =
          header :: (recordPaths change ++ (recordsFields records ++ fields)) := by
        simp [recordsFields]
      rw [unfolded, first.parse (by omega), ih
        (fun record member => areRecords record (List.mem_cons_of_mem _ member))
        (.inr (by rw [List.length_append, List.length_singleton]; omega)),
        List.append_assoc]
      rfl

theorem records_of_parseRecords (fields : List Bytes) :
    ∀ (changes result : List (Change ρ)), (∀ field ∈ fields, (0 : UInt8) ∉ field) →
      parseRecords reader.format fields changes = .ok result →
      ∃ records : List (Bytes × RawChange),
        (∀ record ∈ records, IsRecord reader record.1 record.2) ∧
        (records = [] ∨ result.length ≤ reader.format.maxChanges) ∧
        (fields = recordsFields records ∨ fields = recordsFields records ++ [[]]) ∧
        result = changes ++ records.map fun record => record.2.mapPath reader.path := by
  induction size : fields.length using Nat.strong_induction_on generalizing fields with
  | _ length ih =>
  intro changes result absent done
  match fields with
  | [] =>
      cases done
      exact ⟨[], by simp, .inl rfl, .inl rfl, by simp⟩
  | [] :: rest =>
      obtain ⟨last, done⟩ := Result.check_bind_eq_ok.mp done
      rw [Result.ensure_eq_ok] at last
      cases done
      subst last
      exact ⟨[], by simp, .inl rfl, .inr rfl, by simp⟩
  | (b :: bs) :: rest =>
      obtain ⟨change, rest, rfl, isRecord, room, done⟩ :=
        parseRecords_cons (List.cons_ne_nil b bs) absent done
      have shorter : rest.length < length := by
        rw [← size]
        simp only [List.length_cons, List.length_append]
        omega
      obtain ⟨records, areRecords, bounded, split, rfl⟩ := ih rest.length shorter rest rfl _ _
        (fun field member => absent field (by simp [member])) done
      refine ⟨(b :: bs, change) :: records, List.forall_mem_cons.mpr ⟨isRecord, areRecords⟩,
        .inr ?_, ?_, by simp⟩
      · obtain rfl | bounded := bounded
        · simpa using room
        · exact bounded
      · obtain rfl | rfl := split
        · exact .inl (by simp [recordsFields])
        · exact .inr (by simp [recordsFields])

/-! ## The format and its readers -/

theorem splitOn_serialized {fields : List Bytes} (absent : ∀ field ∈ fields, (0 : UInt8) ∉ field) :
    (fields.flatMap fun field => field ++ [0]).splitOn 0 = fields ++ [[]] := by
  induction fields with
  | nil => rfl
  | cons field fields ih =>
      obtain ⟨first, rest⟩ := List.forall_mem_cons.mp absent
      rw [List.flatMap_cons, List.append_assoc, List.singleton_append,
        List.splitOn_append_cons_self_of_not_mem first, ih rest, List.cons_append]

theorem Recordable.fields_without_nul (recordable : Recordable reader change) :
    ∀ field ∈ recordFields change, (0 : UInt8) ∉ field := by
  refine List.forall_mem_cons.mpr ⟨recordable.headerText_without_nul, fun path member => ?_⟩
  have listed : path ∈ change.paths := by
    rw [recordPaths] at member
    rw [Change.paths, List.mem_append]
    split at member
    · exact .inr member
    · exact .inl member
    · exact .inl member
    · exact .inl member
    · exact List.mem_append.mp member
    · exact List.mem_append.mp member
  exact (recordable.paths path listed).2.1

/-- What is written is read back. -/
theorem parse_serialized {changes : List RawChange}
    (recordable : ∀ change ∈ changes, Recordable reader change)
    (room : changes = [] ∨ changes.length ≤ reader.format.maxChanges) :
    parseRawDiffWith reader.format (serializeRawDiff changes) =
      .ok (changes.map (Change.mapPath reader.path)) := by
  have absent : ∀ field ∈ changes.flatMap recordFields, (0 : UInt8) ∉ field := by
    intro field member
    obtain ⟨change, listed, inside⟩ := List.mem_flatMap.mp member
    exact (recordable change listed).fields_without_nul field inside
  let records := changes.map fun change => (utf8Bytes (headerText change), change)
  have fields : changes.flatMap recordFields = recordsFields records := by
    simp only [recordsFields, records, List.flatMap_map]
    rfl
  have areRecords : ∀ record ∈ records, IsRecord reader record.1 record.2 := by
    intro record member
    obtain ⟨change, listed, rfl⟩ := List.mem_map.mp member
    exact ⟨(recordable change listed).isHeader, recordable change listed⟩
  have bounded : records = [] ∨
      ([] : List (Change ρ)).length + records.length ≤ reader.format.maxChanges := by
    simpa [records] using room
  rw [parseRawDiffWith, serializeRawDiff, splitOn_serialized absent, fields,
    parseRecords_records areRecords bounded, parseRecords, Result.check_bind_eq_ok]
  refine ⟨Result.ensure_of rfl, ?_⟩
  simp only [records, List.nil_append, List.map_map]
  rfl

/-- The fields between the NULs of some bytes are one record after another; the last NUL may
be missing. -/
def SplitsInto (bytes : Bytes) (records : List (Bytes × RawChange)) : Prop :=
  bytes.splitOn 0 = recordsFields records ∨ bytes.splitOn 0 = recordsFields records ++ [[]]

/-- A reader that reads the format and nothing else. -/
structure RawDiffReader.Exact (reader : RawDiffReader ρ) : Prop where
  injective : Function.Injective reader.path
  reads : ∀ changes : List RawChange, (∀ change ∈ changes, Recordable reader change) →
    changes.length ≤ reader.format.maxChanges →
      parseRawDiffWith reader.format (serializeRawDiff changes) =
        .ok (changes.map (Change.mapPath reader.path))
  accepts : ∀ bytes changes, parseRawDiffWith reader.format bytes = .ok changes →
    ∃ records : List (Bytes × RawChange), SplitsInto bytes records ∧
      (∀ record ∈ records, IsRecord reader record.1 record.2) ∧
      changes = records.map (fun record => record.2.mapPath reader.path) ∧
      parseRawDiffWith reader.format
        (serializeRawDiff (changes.map (Change.mapPath reader.bytes))) = .ok changes

theorem RawDiffReader.exact (reader : RawDiffReader ρ) : reader.Exact where
  injective := Function.LeftInverse.injective reader.bytes_path
  reads changes recordable room := parse_serialized recordable (.inr room)
  accepts bytes changes parsed := by
    have absent : ∀ field ∈ bytes.splitOn 0, (0 : UInt8) ∉ field := by
      intro field member inside
      rw [List.splitOn_eq_splitOnP] at member
      have apart := (of_mem_splitOnP member 0 inside).1
      simp at apart
    obtain ⟨records, areRecords, bounded, split, rfl⟩ :=
      records_of_parseRecords _ _ _ absent parsed
    have raw : (records.map fun record => record.2.mapPath reader.path).map
        (Change.mapPath reader.bytes) = records.map Prod.snd := by
      rw [List.map_map]
      refine List.map_congr_left fun record _ => ?_
      simp [Change.mapPath, Function.comp_def, reader.bytes_path]
    refine ⟨records, split, areRecords, rfl, ?_⟩
    rw [List.nil_append, raw, parse_serialized, List.map_map]
    · rfl
    · intro change member
      obtain ⟨record, listed, rfl⟩ := List.mem_map.mp member
      exact (areRecords record listed).recordable
    · simpa using bounded

/-- Both parsers of the raw diff read what Git writes and accept nothing but records. -/
theorem raw_diff_exact :
    (∀ maxFiles, (reviewDiffReader maxFiles).Exact) ∧ cacheDiffReader.Exact :=
  ⟨fun maxFiles => (reviewDiffReader maxFiles).exact, cacheDiffReader.exact⟩

end Stratadiff
