import Stratadiff.Git.RawDiff
import Stratadiff.Review.Delta

/-!
# Looking up a tree entry

`load_tree_entry` gives a path to `git ls-tree` and reads the record that is listed. Git takes
the path as a pathspec: a colon at its front is magic and not part of the name. So a lookup
finds the entry of its path for the paths that do not begin with a colon, and for those alone.
-/

namespace Stratadiff

/-! ## What Git lists -/

/-- The record of an entry. -/
def treeRecord (mode objectType objectId : String) (path : Bytes) : Bytes :=
  utf8Bytes (mode ++ " " ++ (objectType ++ " " ++ objectId)) ++ 9 :: path ++ [0]

/-- A path is looked up as itself unless it begins with a colon. -/
def Literal (path : Bytes) : Prop := path.head? ≠ some 58

/-- A colon and a name that begins with a letter or a digit. -/
def ColonName (path : Bytes) : Prop :=
  ∃ c name, path = 58 :: c :: name ∧
    (48 ≤ c ∧ c ≤ 57 ∨ 65 ≤ c ∧ c ≤ 90 ∨ 97 ≤ c ∧ c ≤ 122)

/-- Some commit has a file of the path. -/
def Repository.Holds (repository : Repository) (path : Bytes) : Prop :=
  ∃ commit, (repository.tree commit).get path ≠ none

/-- What is listed for a path: the record of its file, that of a directory, or nothing. -/
def Lists (path stdout : Bytes) : Option GitTreeEntry → Prop
  | some entry => ∃ objectType, (objectType = "blob" ∨ objectType = "commit") ∧
      stdout = treeRecord entry.mode objectType entry.objectId path
  | none => stdout = [] ∨ ∃ objectId, IsWord objectId ∧
      stdout = treeRecord "040000" "tree" objectId path

/-- What Git documents of `git ls-tree` and of pathspecs. Before a letter or a digit the colon
is magic of no effect, so that the name behind it is looked up. -/
structure Repository.ListsTrees (repository : Repository) : Prop where
  words : ∀ {commit path entry}, (repository.tree commit).get path = some entry →
    IsWord entry.mode ∧ IsWord entry.objectId
  literal : ∀ {commit path stdout}, repository.Holds path → Literal path →
    repository.lsTree commit path = .ok stdout →
      Lists path stdout ((repository.tree commit).get path)
  colon : ∀ {commit name}, ColonName (58 :: name) →
    repository.lsTree commit (58 :: name) = repository.lsTree commit name

/-! ## Records -/

section

variable {mode objectType objectId : String} {path : Bytes}

theorem isWord_of_all {text : String} (nonempty : text.toList ≠ [])
    (solid : (text.toList.all fun c => !isAsciiWhitespace c) = true) : IsWord text :=
  ⟨nonempty, fun c member => by simpa using List.all_eq_true.mp solid c member⟩

theorem isWord_types :
    IsWord "blob" ∧ IsWord "commit" ∧ IsWord "tree" ∧ IsWord "040000" :=
  ⟨isWord_of_all (by decide) rfl, isWord_of_all (by decide) rfl, isWord_of_all (by decide) rfl,
    isWord_of_all (by decide) rfl⟩

theorem idxOf?_append_cons {b : UInt8} {xs : Bytes} (absent : b ∉ xs) (ys : Bytes) :
    (xs ++ b :: ys).idxOf? b = some xs.length := by
  induction xs with
  | nil => simp [List.idxOf?_cons]
  | cons x xs ih =>
      obtain ⟨other, absent⟩ := not_or.mp (List.mem_cons.not.mp absent)
      rw [List.cons_append, List.idxOf?_cons, if_neg (by simpa using Ne.symm other), ih absent]
      rfl

theorem tab_not_mem (isMode : IsWord mode) (isType : IsWord objectType)
    (isObject : IsWord objectId) :
    (9 : UInt8) ∉ utf8Bytes (mode ++ " " ++ (objectType ++ " " ++ objectId)) := by
  intro inside
  obtain ⟨c, member, tab⟩ := mem_utf8Bytes_ascii (by decide) inside
  obtain rfl : c = '\t' := Char.ext (UInt32.toNat_inj.mp tab)
  have space : '\t' ∉ " ".toList := by decide
  have absent {word : String} (isWord : IsWord word) : '\t' ∉ word.toList := fun inside =>
    absurd (isWord.2 _ inside) (by decide)
  simp [String.toList_append, absent isMode, absent isType, absent isObject] at member

/-- A record is read as the entry that it is the record of. -/
theorem parseTreeEntry_record {name : GitPath} {entry : Option GitTreeEntry}
    (isMode : IsWord mode) (isType : IsWord objectType) (isObject : IsWord objectId)
    (h : parseTreeEntry name (treeRecord mode objectType objectId path) = .ok entry) :
    entry = some ⟨mode, objectId⟩ ∧ (objectType = "blob" ∨ objectType = "commit") := by
  have last : (treeRecord mode objectType objectId path).getLast? = some 0 := by
    rw [treeRecord, List.getLast?_append, List.getLast?_singleton]
    rfl
  have body : (treeRecord mode objectType objectId path).dropLast =
      utf8Bytes (mode ++ " " ++ (objectType ++ " " ++ objectId)) ++ 9 :: path :=
    List.dropLast_concat
  have tab : (utf8Bytes (mode ++ " " ++ (objectType ++ " " ++ objectId)) ++ 9 :: path).idxOf? 9 =
      some (utf8Bytes (mode ++ " " ++ (objectType ++ " " ++ objectId))).length :=
    idxOf?_append_cons (tab_not_mem isMode isType isObject) path
  have columns : asciiWords (mode ++ " " ++ (objectType ++ " " ++ objectId)) =
      [mode, objectType, objectId] := by
    rw [asciiWords_append isMode, asciiWords_append isType, asciiWords_word isObject]
  rw [parseTreeEntry, if_neg (by intro empty; rw [empty] at last; cases last), last, body,
    if_pos rfl, Result.ofOption_some, Result.ok_bind] at h
  obtain ⟨_, _, h⟩ := Result.bind_eq_ok.mp h
  rw [tab, Result.ofOption_some, Result.ok_bind, List.take_left, utf8?_utf8Bytes,
    Result.ofOption_some, Result.ok_bind, columns] at h
  dsimp only at h
  obtain ⟨_, _, h⟩ := Result.bind_eq_ok.mp h
  obtain ⟨_, kind, h⟩ := Result.bind_eq_ok.mp h
  obtain ⟨_, _, h⟩ := Result.bind_eq_ok.mp h
  exact ⟨(Result.pure_eq_ok.mp h).symm, Result.ensure_eq_ok.mp kind⟩

end

/-! ## Lookups -/

/-- A path with one and the same entry in two commits. -/
def SameEntry (repository : Repository) (left right : String) (path : GitPath) : Prop :=
  path.encoding = .utf8 ∧ (repository.tree left).get (utf8Bytes path.display) =
    (repository.tree right).get (utf8Bytes path.display)

/-- A path whose lookups in two commits give the same. -/
def SameLookup (repository : Repository) (left right : String) (path : GitPath) : Prop :=
  path.encoding = .utf8 ∧ ∃ entry, loadTreeEntry repository left path = .ok entry ∧
    loadTreeEntry repository right path = .ok entry

section

variable {repository : Repository} {commit left right : String} {path : GitPath}

theorem loadTreeEntry_eq_ok {entry : Option GitTreeEntry} (utf8 : path.encoding = .utf8) :
    loadTreeEntry repository commit path = .ok entry ↔
      ∃ stdout, repository.lsTree commit (utf8Bytes path.display) = .ok stdout ∧
        stdout.length ≤ saturatingAdd (utf8Bytes path.display).length 512 ∧
        parseTreeEntry path stdout = .ok entry := by
  rw [loadTreeEntry, if_neg (not_not.mpr utf8), Result.bind_eq_ok]
  refine exists_congr fun stdout => ?_
  rw [← and_assoc]
  refine and_congr_left fun _ => ?_
  cases answered : repository.lsTree commit (utf8Bytes path.display) with
  | error failure => simp [gitOutputBounded]
  | ok listed =>
      simp only [gitOutputBounded, Result.check_bind_eq_ok, Result.ensure_eq_ok,
        Result.pure_eq_ok, Except.ok.injEq]
      constructor
      · rintro ⟨within, rfl⟩
        exact ⟨rfl, within⟩
      · rintro ⟨rfl, within⟩
        exact ⟨within, rfl⟩

/-- The lookup of a literal path gives its entry. -/
theorem loadTreeEntry_ok {entry : Option GitTreeEntry} (listed : repository.ListsTrees)
    (utf8 : path.encoding = .utf8) (holds : repository.Holds (utf8Bytes path.display))
    (literal : Literal (utf8Bytes path.display))
    (h : loadTreeEntry repository commit path = .ok entry) :
    (repository.tree commit).get (utf8Bytes path.display) = entry := by
  obtain ⟨stdout, answered, _, parsed⟩ := (loadTreeEntry_eq_ok utf8).mp h
  have lists := listed.literal holds literal answered
  cases found : (repository.tree commit).get (utf8Bytes path.display) with
  | some recorded =>
      rw [found] at lists
      obtain ⟨objectType, kind, rfl⟩ := lists
      obtain ⟨isMode, isObject⟩ := listed.words found
      have isType : IsWord objectType := by
        rcases kind with rfl | rfl
        · exact isWord_types.1
        · exact isWord_types.2.1
      exact (parseTreeEntry_record isMode isType isObject parsed).1.symm
  | none =>
      rw [found] at lists
      rcases lists with rfl | ⟨objectId, isObject, rfl⟩
      · exact Except.ok.inj parsed
      · have kind := (parseTreeEntry_record isWord_types.2.2.2 isWord_types.2.2.1 isObject parsed).2
        exact absurd kind (by decide)

theorem SameLookup.sameEntry (h : SameLookup repository left right path)
    (listed : repository.ListsTrees) (holds : repository.Holds (utf8Bytes path.display))
    (literal : Literal (utf8Bytes path.display)) : SameEntry repository left right path := by
  obtain ⟨utf8, entry, first, second⟩ := h
  refine ⟨utf8, ?_⟩
  rw [loadTreeEntry_ok listed utf8 holds literal first,
    loadTreeEntry_ok listed utf8 holds literal second]

end

/-! ## Repositories that list their trees -/

/-- The name that a pathspec of this form is looked up by. -/
def spelled : Bytes → Bytes
  | 58 :: name => name
  | name => name

/-- What is listed for a path that is no directory. -/
def Tree.print (tree : Tree) (path : Bytes) : Bytes :=
  match tree.get path with
  | some entry =>
      treeRecord entry.mode (if entry.mode = "160000" then "commit" else "blob") entry.objectId path
  | none => []

theorem spelled_of_literal {path : Bytes} (literal : Literal path) : spelled path = path := by
  unfold spelled
  split
  · exact absurd rfl literal
  · rfl

theorem listsTrees_of_print {repository : Repository}
    (words : ∀ {commit path entry}, (repository.tree commit).get path = some entry →
      IsWord entry.mode ∧ IsWord entry.objectId)
    (prints : ∀ commit pathspec,
      repository.lsTree commit pathspec = .ok ((repository.tree commit).print (spelled pathspec))) :
    repository.ListsTrees where
  words := words
  literal := by
    intro commit path stdout _ literal answered
    rw [prints, spelled_of_literal literal, Except.ok.injEq, Tree.print] at answered
    subst answered
    cases found : (repository.tree commit).get path with
    | some entry =>
        refine ⟨_, ?_, rfl⟩
        split
        · exact .inr rfl
        · exact .inl rfl
    | none => exact .inl rfl
  colon := by
    intro commit name colon
    obtain ⟨c, name, same, alphanumeric⟩ := colon
    obtain rfl := (List.cons.inj same).2
    have literal : Literal (c :: name) := by
      intro again
      obtain rfl := Option.some.inj again
      revert alphanumeric
      decide
    rw [prints, prints, spelled_of_literal literal]
    rfl

/-! ## Paths that can be looked up -/

/-- When two lookups of a path agree, so do its entries, whatever the repository. -/
def TrustsLookups (path : GitPath) : Prop :=
  ∀ repository : Repository, repository.ListsTrees →
    repository.Holds (utf8Bytes path.display) → ∀ left right,
      SameLookup repository left right path → SameEntry repository left right path

/-- A tree of one file. -/
def loneTree (path : Bytes) (objectId : String) : Tree :=
  Finmap.singleton path ⟨"100644", objectId⟩

section

variable {path name : Bytes} {objectId : String}

theorem loneTree_get : (loneTree path objectId).get path = some ⟨"100644", objectId⟩ :=
  Finmap.lookup_singleton_eq

theorem loneTree_get_of_ne (other : name ≠ path) : (loneTree path objectId).get name = none :=
  Finmap.lookup_eq_none.mpr (by simpa [loneTree] using other)

theorem loneTree_words {entry : GitTreeEntry} (isObject : IsWord objectId)
    (found : (loneTree path objectId).get name = some entry) :
    IsWord entry.mode ∧ IsWord entry.objectId := by
  have isMode : IsWord "100644" := isWord_of_all (by decide) rfl
  by_cases same : name = path
  · rw [same, loneTree_get, Option.some.injEq] at found
    rw [← found]
    exact ⟨isMode, isObject⟩
  · rw [loneTree_get_of_ne same] at found
    cases found

/-- A repository with one file, in one commit. -/
def loneRepository (path : Bytes) : Repository where
  tree commit := if commit = "0" then loneTree path "0" else ∅
  rawDiff _ _ := .error "not recorded"
  lsTree commit pathspec :=
    .ok ((if commit = "0" then loneTree path "0" else ∅ : Tree).print (spelled pathspec))
  objectSize _ := .error "missing"
  objectBytes _ := .error "missing"

theorem loneRepository_listsTrees : (loneRepository path).ListsTrees := by
  refine listsTrees_of_print ?_ fun commit pathspec => rfl
  intro commit name entry found
  rw [loneRepository] at found
  dsimp only at found
  split at found
  · exact loneTree_words (isWord_of_all (by decide) rfl) found
  · cases found

/-- Behind a colon another name is looked up, and there is no file of that name. -/
theorem loneRepository_lookup (path : GitPath) (utf8 : path.encoding = .utf8)
    (colon : ColonName (utf8Bytes path.display)) (commit : String) :
    loadTreeEntry (loneRepository (utf8Bytes path.display)) commit path = .ok none := by
  obtain ⟨c, name, behind, _⟩ := colon
  have other : c :: name ≠ utf8Bytes path.display := by
    rw [behind]
    exact fun same => absurd (congrArg List.length same) (by simp)
  refine (loadTreeEntry_eq_ok utf8).mpr ⟨[], ?_, Nat.zero_le _, rfl⟩
  have spelling : spelled (utf8Bytes path.display) = c :: name := by
    rw [behind]
    rfl
  rw [loneRepository]
  dsimp only
  rw [spelling]
  split
  · rw [Tree.print, loneTree_get_of_ne other]
  · rfl

/-- The lookups of a path can be trusted exactly when it does not begin with a colon. -/
theorem trustsLookups_iff {path : GitPath} (utf8 : path.encoding = .utf8)
    (spelling : Literal (utf8Bytes path.display) ∨ ColonName (utf8Bytes path.display)) :
    TrustsLookups path ↔ Literal (utf8Bytes path.display) := by
  constructor
  · intro trusts
    refine spelling.resolve_right fun colon => ?_
    have lookup := loneRepository_lookup path utf8 colon
    have held : ((loneRepository (utf8Bytes path.display)).tree "0").get
        (utf8Bytes path.display) = some ⟨"100644", "0"⟩ := loneTree_get
    have same := trusts _ loneRepository_listsTrees ⟨"0", by simp [held]⟩ "0" "1"
      ⟨utf8, none, lookup "0", lookup "1"⟩
    rw [SameEntry, held] at same
    cases same.2
  · intro literal repository listed holds left right same
    exact same.sameEntry listed holds literal

end

end Stratadiff
