import Stratadiff.Lib.Grid
import Stratadiff.Lib.Wildcard

/-!
# Filters of a workflow

A workflow names the branches and the paths it runs for by patterns. The doctor matches them
with a memo over the positions in pattern and value. GitHub documents what the patterns
mean; the two agree on a pattern exactly when it has no `?` and does not rest on `**/`
alone between two characters.
-/

namespace Stratadiff.DoctorWorkflow

open Wildcard

/-! ## Matching -/

abbrev Memo := List (List (Option Bool))

/-- Whether the star at a position is the first of two. -/
def isDouble (pattern : List Char) (patternIndex : Nat) : Bool :=
  pattern[patternIndex + 1]? = some '*'

def followedBySlash (pattern : List Char) (patternIndex : Nat) : Bool :=
  isDouble pattern patternIndex && pattern[patternIndex + 2]? = some '/'

def nextPattern (pattern : List Char) (patternIndex : Nat) : Nat :=
  patternIndex +
    if followedBySlash pattern patternIndex then 3
    else if isDouble pattern patternIndex then 2
    else 1

theorem lt_nextPattern (pattern : List Char) (patternIndex : Nat) :
    patternIndex < nextPattern pattern patternIndex := by
  unfold nextPattern
  split_ifs <;> omega

def globMatchesAt (pattern value : List Char) (patternIndex valueIndex : Nat) (memo : Memo) :
    Bool × Memo :=
  match Grid.entry memo patternIndex valueIndex with
  | some result => (result, memo)
  | none =>
      let (result, memo) :=
        if here : patternIndex < pattern.length then
          if pattern[patternIndex] = '*' then
            let (skipped, memo) :=
              globMatchesAt pattern value (nextPattern pattern patternIndex) valueIndex memo
            if skipped then
              (true, memo)
            else if there : valueIndex < value.length ∧
                (isDouble pattern patternIndex ∨ value[valueIndex]? ≠ some '/') then
              globMatchesAt pattern value patternIndex (valueIndex + 1) memo
            else
              (false, memo)
          else if there : valueIndex < value.length ∧
              (pattern[patternIndex] = '?' ∧ value[valueIndex]? ≠ some '/' ∨
                value[valueIndex]? = some pattern[patternIndex]) then
            globMatchesAt pattern value (patternIndex + 1) (valueIndex + 1) memo
          else
            (false, memo)
        else
          (decide (valueIndex = value.length), memo)
      (result, Grid.put memo patternIndex valueIndex (some result))
termination_by pattern.length - patternIndex + (value.length - valueIndex)
decreasing_by
  · have forward := lt_nextPattern pattern patternIndex
    omega
  · omega
  · omega

def globMatches (pattern value : String) : Bool :=
  let pattern := pattern.toList
  let value := value.toList
  let memo := Grid.fill (pattern.length + 1) (value.length + 1) none
  (globMatchesAt pattern value 0 0 memo).1

/-! ## What the matcher accepts -/

/-- How the matcher reads a pattern: `**/` is any run, as `**` is. -/
def elements : List Char → List (Element Char)
  | '*' :: '*' :: '/' :: rest => .anyRun :: elements rest
  | '*' :: '*' :: rest => .anyRun :: elements rest
  | '*' :: rest => .run :: elements rest
  | '?' :: rest => .one :: elements rest
  | c :: rest => .char c :: elements rest
  | [] => []

/-- The values from a position on that the rest of a pattern accepts. -/
def Accepts (pattern value : List Char) (patternIndex valueIndex : Nat) : Prop :=
  value.drop valueIndex ∈ language '/' (elements (pattern.drop patternIndex))

/-- A stored result is the right one. -/
def Memo.Sound (pattern value : List Char) (memo : Memo) : Prop :=
  ∀ i j result, Grid.entry memo i j = some result → (result = true ↔ Accepts pattern value i j)

section

variable {pattern value : List Char} {patternIndex valueIndex : Nat} {memo : Memo}

theorem Memo.sound_fill (rows columns : Nat) :
    Memo.Sound pattern value (Grid.fill rows columns none) := by
  intro i j result stored
  have empty : Grid.entry (Grid.fill rows columns (none : Option Bool)) i j = none :=
    Grid.entry_fill
  rw [empty] at stored
  cases stored

theorem Memo.Sound.put (sound : Memo.Sound pattern value memo) {result : Bool}
    (right : result = true ↔ Accepts pattern value patternIndex valueIndex) :
    Memo.Sound pattern value (Grid.put memo patternIndex valueIndex (some result)) := by
  intro i j stored found
  rcases Grid.entry_put_cases memo patternIndex valueIndex i j (some result) with
    old | ⟨place, new⟩
  · exact sound i j stored (old ▸ found)
  · obtain ⟨rfl, rfl⟩ := Prod.mk.inj place
    rw [new, Option.some.injEq] at found
    exact found ▸ right

theorem drop_of_getElem? {l : List Char} {i : Nat} {c : Char} (found : l[i]? = some c) :
    l.drop i = c :: l.drop (i + 1) := by
  obtain ⟨inside, rfl⟩ := List.getElem?_eq_some_iff.mp found
  exact List.drop_eq_getElem_cons inside

/-- The elements of a pattern from a star on. -/
theorem elements_star (star : pattern[patternIndex]? = some '*') :
    elements (pattern.drop patternIndex) =
      (if isDouble pattern patternIndex then .anyRun else .run) ::
        elements (pattern.drop (nextPattern pattern patternIndex)) := by
  rw [drop_of_getElem? star]
  cases second : pattern[patternIndex + 1]? with
  | none =>
      have nothing : pattern.drop (patternIndex + 1) = [] :=
        List.drop_eq_nil_of_le (List.getElem?_eq_none_iff.mp second)
      simp [nextPattern, followedBySlash, isDouble, second, nothing, elements]
  | some c =>
      by_cases double : c = '*'
      · subst double
        rw [drop_of_getElem? second]
        cases third : pattern[patternIndex + 2]? with
        | none =>
            have nothing : pattern.drop (patternIndex + 2) = [] :=
              List.drop_eq_nil_of_le (List.getElem?_eq_none_iff.mp third)
            simp [nextPattern, followedBySlash, isDouble, second, third, nothing, elements]
        | some d =>
            rw [drop_of_getElem? third]
            by_cases slash : d = '/'
            · subst slash
              simp [nextPattern, followedBySlash, isDouble, second, third, elements]
            · simp [nextPattern, followedBySlash, isDouble, second, third, slash, elements]
              exact congrArg elements (drop_of_getElem? third).symm
      · rw [drop_of_getElem? second]
        simp [nextPattern, followedBySlash, isDouble, second, double, elements]
        exact congrArg elements (drop_of_getElem? second).symm

/-- Where the pattern is over, the value has to be. -/
theorem accepts_end (ended : pattern.length ≤ patternIndex) :
    Accepts pattern value patternIndex valueIndex ↔ value.length ≤ valueIndex := by
  rw [Accepts, List.drop_eq_nil_of_le ended, elements, mem_nil, List.drop_eq_nil_iff]

theorem drop_eq_cons {l : List Char} {i : Nat} {c : Char} {rest : List Char} :
    l.drop i = c :: rest ↔ l[i]? = some c ∧ rest = l.drop (i + 1) := by
  constructor
  · intro split
    have found : l[i]? = some c := by
      rw [← Nat.add_zero i, ← List.getElem?_drop, split]
      rfl
    rw [drop_of_getElem? found, List.cons.injEq] at split
    exact ⟨found, split.2.symm⟩
  · rintro ⟨found, rfl⟩
    exact drop_of_getElem? found

theorem accepts_star (star : pattern[patternIndex]? = some '*') :
    Accepts pattern value patternIndex valueIndex ↔
      Accepts pattern value (nextPattern pattern patternIndex) valueIndex ∨
      (valueIndex < value.length ∧
        (isDouble pattern patternIndex ∨ value[valueIndex]? ≠ some '/')) ∧
        Accepts pattern value patternIndex (valueIndex + 1) := by
  simp only [Accepts, elements_star star]
  by_cases double : isDouble pattern patternIndex
  · rw [if_pos double, mem_anyRun_cons]
    refine or_congr Iff.rfl ⟨?_, ?_⟩
    · rintro ⟨c, rest, split, member⟩
      obtain ⟨found, rfl⟩ := drop_eq_cons.mp split
      exact ⟨⟨(List.getElem?_eq_some_iff.mp found).1, .inl double⟩, member⟩
    · rintro ⟨⟨inside, _⟩, member⟩
      exact ⟨_, _, List.drop_eq_getElem_cons inside, member⟩
  · rw [if_neg double, mem_run_cons]
    refine or_congr Iff.rfl ⟨?_, ?_⟩
    · rintro ⟨c, rest, split, plain, member⟩
      obtain ⟨found, rfl⟩ := drop_eq_cons.mp split
      refine ⟨⟨(List.getElem?_eq_some_iff.mp found).1, .inr fun slash => plain ?_⟩, member⟩
      exact Option.some.inj (found.symm.trans slash)
    · rintro ⟨⟨inside, plain⟩, member⟩
      refine ⟨_, _, List.drop_eq_getElem_cons inside, fun slash => ?_, member⟩
      rcases plain with double' | different
      · exact double double'
      · exact different (by rw [List.getElem?_eq_getElem inside, slash])

theorem accepts_char {c : Char} (found : pattern[patternIndex]? = some c) (plain : c ≠ '*') :
    Accepts pattern value patternIndex valueIndex ↔
      (valueIndex < value.length ∧
        (c = '?' ∧ value[valueIndex]? ≠ some '/' ∨ value[valueIndex]? = some c)) ∧
        Accepts pattern value (patternIndex + 1) (valueIndex + 1) := by
  simp only [Accepts, drop_of_getElem? found]
  by_cases mark : c = '?'
  · subst mark
    rw [elements, mem_one_cons]
    constructor
    · rintro ⟨v, rest, split, different, member⟩
      obtain ⟨there, rfl⟩ := drop_eq_cons.mp split
      refine ⟨⟨(List.getElem?_eq_some_iff.mp there).1, .inl ⟨rfl, fun slash => different ?_⟩⟩,
        member⟩
      exact Option.some.inj (there.symm.trans slash)
    · rintro ⟨⟨inside, accepted⟩, member⟩
      refine ⟨_, _, List.drop_eq_getElem_cons inside, fun slash => ?_, member⟩
      rcases accepted with ⟨_, different⟩ | same
      · exact different (by rw [List.getElem?_eq_getElem inside, slash])
      · rw [List.getElem?_eq_getElem inside, slash] at same
        cases same
  · have reading : elements (c :: pattern.drop (patternIndex + 1)) =
        .char c :: elements (pattern.drop (patternIndex + 1)) := by
      simp [elements, plain]
    rw [reading, mem_char_cons]
    constructor
    · rintro ⟨rest, split, member⟩
      obtain ⟨there, rfl⟩ := drop_eq_cons.mp split
      exact ⟨⟨(List.getElem?_eq_some_iff.mp there).1, .inr there⟩, member⟩
    · rintro ⟨⟨_, accepted⟩, member⟩
      rcases accepted with ⟨wrong, _⟩ | same
      · exact absurd wrong mark
      · exact ⟨_, drop_of_getElem? same, member⟩

/-- A run of the matcher gives the right result and leaves a sound memo. -/
theorem globMatchesAt_spec (within : valueIndex ≤ value.length)
    (sound : Memo.Sound pattern value memo) :
    ((globMatchesAt pattern value patternIndex valueIndex memo).1 = true ↔
        Accepts pattern value patternIndex valueIndex) ∧
      Memo.Sound pattern value (globMatchesAt pattern value patternIndex valueIndex memo).2 := by
  fun_induction globMatchesAt pattern value patternIndex valueIndex memo with
  | case1 i j memo result stored => exact ⟨sound i j result stored, sound⟩
  | case2 i j memo unknown result memo' step skip more next =>
      suffices h : (result = true ↔ Accepts pattern value i j) ∧ Memo.Sound pattern value memo' from
        ⟨h.1, h.2.put h.1⟩
      by_cases here : i < pattern.length
      · have found := List.getElem?_eq_getElem here
        rw [dif_pos here] at step
        by_cases star : pattern[i] = '*'
        · -- Skip the wildcard, or let it take one more character.
          obtain ⟨skipped, sound⟩ := skip here within sound
          have reading : Accepts pattern value i j ↔ _ := accepts_star (star ▸ found)
          rw [dif_pos star] at step
          split at step
          rename_i skips memo'' run
          rw [run] at skipped sound
          by_cases yes : skips = true
          · rw [dif_pos yes] at step
            obtain ⟨rfl, rfl⟩ := Prod.mk.inj step
            exact ⟨by simpa [reading] using .inl (skipped.mp yes), sound⟩
          · have no := mt skipped.mpr yes
            rw [dif_neg yes] at step
            by_cases there : j < value.length ∧ (isDouble pattern i ∨ value[j]? ≠ some '/')
            · rw [dif_pos there] at step
              have rest := more memo'' there there.1 sound
              rw [step] at rest
              exact ⟨rest.1.trans ⟨fun go => reading.mpr (.inr ⟨there, go⟩), fun all =>
                ((reading.mp all).resolve_left no).2⟩, rest.2⟩
            · rw [dif_neg there] at step
              obtain ⟨rfl, rfl⟩ := Prod.mk.inj step
              refine ⟨⟨nofun, fun all => ?_⟩, sound⟩
              exact absurd ((reading.mp all).resolve_left no).1 there
        · have reading : Accepts pattern value i j ↔ _ := accepts_char found star
          rw [dif_neg star] at step
          split at step
          · rename_i there
            have rest := next here there there.1 sound
            rw [step] at rest
            exact ⟨rest.1.trans ⟨fun go => reading.mpr ⟨there, go⟩, fun all => (reading.mp all).2⟩,
              rest.2⟩
          · rename_i elsewhere
            obtain ⟨rfl, rfl⟩ := Prod.mk.inj step
            exact ⟨⟨nofun, fun all => absurd (reading.mp all).1 elsewhere⟩, sound⟩
      · rw [dif_neg here] at step
        obtain ⟨rfl, rfl⟩ := Prod.mk.inj step
        refine ⟨?_, sound⟩
        rw [accepts_end (Nat.le_of_not_lt here), decide_eq_true_eq]
        omega

end

theorem globMatches_iff {pattern value : String} :
    globMatches pattern value = true ↔ value.toList ∈ language '/' (elements pattern.toList) :=
  (globMatchesAt_spec (Nat.zero_le _) (Memo.sound_fill _ _)).1

/-! ## What GitHub documents -/

/-- A pattern as documented: `*` is a run without `/`, `**` any run, `**/` whole segments, and
`?` makes the character before it optional. -/
def filterPattern : List Char → List (Element Char)
  | '*' :: '*' :: '/' :: rest => .segments :: filterPattern rest
  | '*' :: '*' :: rest => .anyRun :: filterPattern rest
  | '*' :: rest => .run :: filterPattern rest
  | '?' :: rest => .char '?' :: filterPattern rest
  | c :: '?' :: rest => .optional c :: filterPattern rest
  | c :: rest => .char c :: filterPattern rest
  | [] => []

def FilterMatches (pattern value : String) : Prop :=
  value.toList ∈ language '/' (filterPattern pattern.toList)

/-- No `?`, and no group of wildcards made of `**/` alone. -/
def Portable (pattern : String) : Prop :=
  '?' ∉ pattern.toList ∧ Settled (filterPattern pattern.toList)

instance : DecidablePred Portable := fun _ => inferInstanceAs (Decidable (_ ∧ _))

theorem elements_eq_loosen {pattern : List Char} (plain : '?' ∉ pattern) :
    elements pattern = (filterPattern pattern).map Element.loosen := by
  fun_induction filterPattern pattern with
  | case1 rest ih => simp_all [elements, Element.loosen]
  | case2 rest _ ih => simp_all [elements, Element.loosen]
  | case3 rest _ _ ih => simp_all [elements, Element.loosen]
  | case4 rest _ => simp at plain
  | case5 c rest => simp at plain
  | case6 c rest _ _ star mark _ ih =>
      have plainRest : '?' ∉ rest := fun there => plain (List.mem_cons_of_mem _ there)
      have reading : elements (c :: rest) = .char c :: elements rest := by
        simp [elements]
      rw [reading, ih plainRest]
      rfl
  | case7 => rfl

theorem isText_filterPattern {pattern : List Char} (plain : '?' ∉ pattern) :
    IsText (filterPattern pattern) := by
  fun_induction filterPattern pattern with
  | case1 rest ih | case2 rest _ ih | case3 rest _ _ ih =>
      intro e member
      rcases List.mem_cons.mp member with rfl | there
      · exact .inl rfl
      · exact ih (fun there => plain (by simp [there])) e there
  | case4 rest _ => simp at plain
  | case5 c rest => simp at plain
  | case6 c rest _ _ _ _ _ ih =>
      intro e member
      rcases List.mem_cons.mp member with rfl | there
      · exact .inr ⟨c, rfl⟩
      · exact ih (fun there => plain (List.mem_cons_of_mem _ there)) e there
  | case7 => exact nofun

/-- A wildcard comes from a star. -/
theorem exists_star {pattern : List Char} {e : Element Char} {p : List (Element Char)}
    (reading : filterPattern pattern = e :: p) (wild : e.isWild) :
    ∃ rest, pattern = '*' :: rest := by
  fun_induction filterPattern pattern with
  | case1 rest | case2 rest | case3 rest => exact ⟨_, rfl⟩
  | case4 rest | case5 c rest | case6 c rest =>
      rw [← (List.cons.inj reading).1] at wild
      cases wild
  | case7 => cases reading

theorem runsLast_filterPattern (pattern : List Char) : RunsLast (filterPattern pattern) := by
  fun_induction filterPattern pattern with
  | case1 rest ih | case2 rest _ ih | case4 rest ih | case5 c rest _ _ ih
  | case6 c rest _ _ _ _ _ ih =>
      refine List.isChain_cons.mpr ⟨fun _ _ => nofun, ih⟩
  | case3 rest _ single ih =>
      refine List.isChain_cons.mpr ⟨fun next head _ => ?_, ih⟩
      cases wild : next.isWild with
      | false => rfl
      | true =>
          obtain ⟨q, reading⟩ := List.head?_eq_some_iff.mp head
          obtain ⟨rest', rfl⟩ := exists_star reading wild
          exact absurd rfl (single rest')
  | case7 => exact List.isChain_nil

/-- Documented patterns have no element for exactly one character. -/
theorem one_not_mem_filterPattern (pattern : List Char) : .one ∉ filterPattern pattern := by
  fun_induction filterPattern pattern with
  | case1 rest ih | case2 rest _ ih | case3 rest _ _ ih | case4 rest ih | case5 c rest _ _ ih
  | case6 c rest _ _ _ _ _ ih => simpa using ih
  | case7 => exact List.not_mem_nil

theorem question_of_mem {pattern : List Char} (there : '?' ∈ pattern) :
    .char '?' ∈ filterPattern pattern ∨ ∃ c, .optional c ∈ filterPattern pattern := by
  fun_induction filterPattern pattern with
  | case1 rest ih | case2 rest _ ih | case3 rest _ _ ih =>
      have there : '?' ∈ rest := by simpa using there
      exact (ih there).imp (List.mem_cons_of_mem _) fun ⟨c, member⟩ =>
        ⟨c, List.mem_cons_of_mem _ member⟩
  | case4 rest _ => exact .inl List.mem_cons_self
  | case5 c rest => exact .inr ⟨c, List.mem_cons_self⟩
  | case6 c rest _ _ _ mark _ ih =>
      rcases List.mem_cons.mp there with rfl | there
      · exact (mark rfl).elim
      · exact (ih there).imp (List.mem_cons_of_mem _) fun ⟨c, member⟩ =>
          ⟨c, List.mem_cons_of_mem _ member⟩
  | case7 => cases there

/-- The matcher asks for a character at each optional one, and for another at its mark. -/
theorem countP_elements (pattern : List Char) :
    (elements pattern).countP Element.isSingle = (plain (filterPattern pattern)).length +
      2 * (filterPattern pattern).countP Element.isOptional := by
  fun_induction filterPattern pattern with
  | case1 rest ih | case2 rest _ ih | case3 rest _ _ ih | case4 rest ih =>
      simp_all [elements, List.countP_cons, Element.isSingle, Element.isOptional, Element.plain,
        Nat.add_right_comm]
  | case5 c rest star mark ih =>
      have reading : elements (c :: '?' :: rest) = .char c :: .one :: elements rest := by
        simp [elements]
      rw [reading]
      simp [List.countP_cons, Element.isSingle, Element.isOptional, Element.plain, ih]
      omega
  | case6 c rest _ _ star mark _ ih =>
      have reading : elements (c :: rest) = .char c :: elements rest := by
        simp [elements]
      rw [reading]
      simp [List.countP_cons, Element.isSingle, Element.isOptional, Element.plain, ih]
      omega
  | case7 => rfl

theorem char_question_not_mem_elements (pattern : List Char) : .char '?' ∉ elements pattern := by
  fun_induction elements pattern with
  | case1 rest ih | case2 rest _ ih | case3 rest _ _ ih | case4 rest ih => simpa using ih
  | case5 c rest _ _ _ mark ih =>
      rw [List.mem_cons, not_or]
      exact ⟨fun same => mark (Element.char.inj same).symm, ih⟩
  | case6 => exact List.not_mem_nil

/-- A pattern with `?` is read otherwise than documented. -/
theorem language_elements_ne {pattern : List Char} (there : '?' ∈ pattern) :
    language '/' (elements pattern) ≠ language '/' (filterPattern pattern) := by
  intro same
  rcases question_of_mem there with asked | ⟨c, optional⟩
  · obtain ⟨w, member, avoids⟩ := @exists_text_avoiding Char '/' (elements pattern) '?' 'z'
      (by decide) (by decide) (char_question_not_mem_elements pattern)
    rw [same] at member
    exact avoids (mem_of_char_mem asked member)
  · -- Documented, the optional character may be left out.
    have shortest : plain (filterPattern pattern) ∈ language '/' (elements pattern) := by
      rw [same]
      exact plain_mem (one_not_mem_filterPattern pattern)
    have enough := countP_isSingle_le shortest
    have some :=
      List.countP_pos_iff.mpr ⟨_, optional, (rfl : Element.isOptional (.optional c) = true)⟩
    rw [countP_elements] at enough
    omega

theorem exists_other_char (a b c : Char) : ∃ z, z ≠ a ∧ z ≠ b ∧ z ≠ c := by
  have fewer : ({a, b, c} : Finset Char).card < ({'w', 'x', 'y', 'z'} : Finset Char).card :=
    Nat.lt_of_le_of_lt Finset.card_le_three (by decide)
  obtain ⟨z, _, other⟩ := Finset.exists_mem_notMem_of_card_lt_card fewer
  simp only [Finset.mem_insert, Finset.mem_singleton, not_or] at other
  exact ⟨z, other.1, other.2.1, other.2.2⟩

/-- The matcher and the documentation agree on the portable patterns and on no others. -/
theorem globMatches_eq_filter_iff {pattern : String} :
    (∀ value, globMatches pattern value = true ↔ FilterMatches pattern value) ↔
      Portable pattern := by
  have texts : (∀ value, globMatches pattern value = true ↔ FilterMatches pattern value) ↔
      language '/' (elements pattern.toList) = language '/' (filterPattern pattern.toList) := by
    simp only [globMatches_iff, FilterMatches]
    constructor
    · intro same
      ext w
      simpa using same (String.ofList w)
    · intro same value
      rw [same]
  rw [texts, Portable]
  by_cases mark : '?' ∈ pattern.toList
  · exact iff_of_false (language_elements_ne mark) fun portable => portable.1 mark
  · rw [elements_eq_loosen mark, language_loosen_eq_iff (isText_filterPattern mark)
      (runsLast_filterPattern _) exists_other_char]
    simp [mark]

/-! ## Filters -/

inductive FilterDecision where
  | included
  | excluded
  | unknown
  deriving DecidableEq, Repr

def supportedPattern (pattern : String) : Bool :=
  !(pattern.toList.any fun c => c ∈ ['[', ']', '+', '{', '}', '\\']) && !pattern.isEmpty

/-- The pattern behind a `!`. -/
def stripNegation (pattern : String) : Option String :=
  match pattern.toList with
  | '!' :: rest => some (.ofList rest)
  | _ => none

def bare (pattern : String) : String := (stripNegation pattern).getD pattern

/-- What one more pattern makes of the selection of a path. -/
def selectNext (path : String) (selected : Bool) (pattern : String) : Bool :=
  let (negative, pattern) :=
    match stripNegation pattern with
    | some value => (true, value)
    | none => (false, pattern)
  if globMatches pattern path then !negative else selected

def orderedPathSelected (patterns : List String) (path : String) : Bool :=
  patterns.foldl (selectNext path) false

/-- Whether a filter has a pattern that the doctor does not read. -/
def unreadable (includes ignores : List String) : Bool :=
  ignores.any (fun pattern => (stripNegation pattern).isSome) ||
    (includes ++ ignores).any fun pattern => !supportedPattern (bare pattern)

def evaluateRefFilters (includes ignores : List String) (value : String) : FilterDecision :=
  if unreadable includes ignores then .unknown
  else if !includes.isEmpty && !orderedPathSelected includes value then .excluded
  else if ignores.any fun pattern => globMatches pattern value then .excluded
  else .included

def evaluatePathFilters (includes ignores changedPaths : List String) : FilterDecision :=
  if changedPaths.isEmpty then .unknown
  else if unreadable includes ignores then .unknown
  else if !includes.isEmpty && !changedPaths.any (orderedPathSelected includes) then .excluded
  else if !ignores.isEmpty &&
      changedPaths.all fun path => ignores.any fun pattern => globMatches pattern path then
    .excluded
  else .included

/-! ## What a filter excludes -/

/-- A reading of patterns: the names that a pattern matches. -/
abbrev Reading := String → String → Prop

/-- How the matcher reads a pattern. -/
def LooselyMatches : Reading := fun pattern name =>
  name.toList ∈ language '/' (elements pattern.toList)

/-- The last pattern of the list that a name matches is not negated. -/
def Selects (reading : Reading) (patterns : List String) (name : String) : Prop :=
  ∃ before pattern after, patterns = before ++ pattern :: after ∧ stripNegation pattern = none ∧
    reading pattern name ∧ ∀ later ∈ after, ¬ reading (bare later) name

def ExcludesRef (reading : Reading) (includes ignores : List String) (name : String) : Prop :=
  (includes ≠ [] ∧ ¬ Selects reading includes name) ∨ ∃ pattern ∈ ignores, reading pattern name

/-- Every changed path is left out. -/
def ExcludesPaths (reading : Reading) (includes ignores changedPaths : List String) : Prop :=
  (includes ≠ [] ∧ ∀ path ∈ changedPaths, ¬ Selects reading includes path) ∨
    (ignores ≠ [] ∧ ∀ path ∈ changedPaths, ∃ pattern ∈ ignores, reading pattern path)

/-- What GitHub excludes, as documented. -/
def RefExcluded (includes ignores : List String) (name : String) : Prop :=
  ExcludesRef FilterMatches includes ignores name

def PathsExcluded (includes ignores changedPaths : List String) : Prop :=
  ExcludesPaths FilterMatches includes ignores changedPaths

/-- A filter of supported patterns, with `!` only where it has a meaning. -/
structure Readable (includes ignores : List String) : Prop where
  plain : ∀ pattern ∈ ignores, stripNegation pattern = none
  supported : ∀ pattern ∈ includes ++ ignores, supportedPattern (bare pattern)

def PortableFilter (includes ignores : List String) : Prop :=
  ∀ pattern ∈ includes ++ ignores, Portable (bare pattern)

instance (includes ignores : List String) : Decidable (PortableFilter includes ignores) :=
  inferInstanceAs (Decidable (∀ pattern ∈ _, _))

section

variable {includes ignores patterns changedPaths : List String} {name pattern : String}
variable {reading : Reading}

theorem unreadable_eq_false : unreadable includes ignores = false ↔ Readable includes ignores := by
  simp only [unreadable, Bool.or_eq_false_iff, List.any_eq_false, Bool.not_eq_true',
    Bool.not_eq_false, Bool.not_eq_true, Option.isSome_eq_false_iff, Option.isNone_iff_eq_none]
  exact ⟨fun ⟨plain, supported⟩ => ⟨plain, supported⟩, fun h => ⟨h.plain, h.supported⟩⟩

theorem globMatches_iff_loosely : globMatches pattern name = true ↔ LooselyMatches pattern name :=
  globMatches_iff

theorem loosely_iff_of_portable (portable : Portable pattern) (name : String) :
    LooselyMatches pattern name ↔ FilterMatches pattern name :=
  globMatches_iff_loosely.symm.trans (globMatches_eq_filter_iff.mpr portable name)

theorem bare_of_plain (plain : stripNegation pattern = none) : bare pattern = pattern := by
  rw [bare, plain, Option.getD_none]

/-- One more pattern decides when it matches. -/
theorem orderedPathSelected_append :
    orderedPathSelected (patterns ++ [pattern]) name =
      if globMatches (bare pattern) name then (stripNegation pattern).isNone
      else orderedPathSelected patterns name := by
  rw [orderedPathSelected, List.foldl_append, ← orderedPathSelected]
  cases negated : stripNegation pattern with
  | none => simp [selectNext, bare, negated]
  | some value => simp [selectNext, bare, negated]

theorem not_selects_nil : ¬ Selects reading [] name := by
  rintro ⟨before, chosen, after, split, _⟩
  simp at split

theorem selects_append :
    Selects reading (patterns ++ [pattern]) name ↔
      (reading (bare pattern) name ∧ stripNegation pattern = none) ∨
        (¬ reading (bare pattern) name ∧ Selects reading patterns name) := by
  constructor
  · rintro ⟨before, chosen, after, split, plain, found, later⟩
    rcases List.eq_nil_or_concat after with rfl | ⟨after, last, rfl⟩
    · obtain ⟨rfl, rfl⟩ := List.append_inj' split rfl |>.imp_right (List.cons.inj · |>.1)
      rw [bare_of_plain plain]
      exact .inl ⟨found, plain⟩
    · rw [List.concat_eq_append, ← List.cons_append, ← List.append_assoc] at split
      obtain ⟨rfl, rfl⟩ := List.append_inj' split rfl |>.imp_right (List.cons.inj · |>.1)
      exact .inr ⟨later _ (by simp), before, chosen, after, rfl, plain, found,
        fun other member => later other (by simp [member])⟩
  · rintro (⟨found, plain⟩ | ⟨absent, before, chosen, after, rfl, plain, found, later⟩)
    · rw [bare_of_plain plain] at found
      exact ⟨patterns, pattern, [], rfl, plain, found, by simp⟩
    · refine ⟨before, chosen, after ++ [pattern], by simp, plain, found, fun other member => ?_⟩
      rcases List.mem_append.mp member with there | last
      · exact later other there
      · exact List.mem_singleton.mp last ▸ absent

/-- Patterns without `!` select what one of them matches. -/
theorem selects_of_plain (plain : ∀ pattern ∈ patterns, stripNegation pattern = none) :
    Selects reading patterns name ↔ ∃ pattern ∈ patterns, reading pattern name := by
  induction patterns using List.reverseRecOn with
  | nil => simp [not_selects_nil]
  | append_singleton patterns pattern ih =>
      have here := plain pattern (by simp)
      rw [selects_append, ih fun other member => plain other (by simp [member]),
        bare_of_plain here]
      simp only [List.mem_append, List.mem_singleton, or_and_right, exists_or, exists_eq_left, here,
        and_true]
      by_cases found : reading pattern name <;> simp [found]

theorem orderedPathSelected_iff :
    orderedPathSelected patterns name = true ↔ Selects LooselyMatches patterns name := by
  induction patterns using List.reverseRecOn with
  | nil => simp [orderedPathSelected, not_selects_nil]
  | append_singleton patterns pattern ih =>
      rw [orderedPathSelected_append, selects_append, ← globMatches_iff_loosely, ← ih]
      by_cases found : globMatches (bare pattern) name <;> simp [found]

theorem any_globMatches_iff :
    (ignores.any fun pattern => globMatches pattern name) = true ↔
      ∃ pattern ∈ ignores, LooselyMatches pattern name := by
  rw [List.any_eq_true]
  exact exists_congr fun pattern => and_congr_right fun _ => globMatches_iff_loosely

theorem evaluateRefFilters_excluded_iff :
    evaluateRefFilters includes ignores name = .excluded ↔
      Readable includes ignores ∧ ExcludesRef LooselyMatches includes ignores name := by
  by_cases readable : Readable includes ignores
  · have known := unreadable_eq_false.mpr readable
    rw [evaluateRefFilters, known, ExcludesRef, ← orderedPathSelected_iff, ← any_globMatches_iff]
    simp only [Bool.false_eq_true, if_false]
    split
    · simp_all
    · split <;> simp_all
  · have unknown : unreadable includes ignores = true := by
      simpa [← unreadable_eq_false] using readable
    simp [evaluateRefFilters, unknown, readable]

theorem evaluateRefFilters_unknown_iff :
    evaluateRefFilters includes ignores name = .unknown ↔ ¬ Readable includes ignores := by
  rw [← unreadable_eq_false, evaluateRefFilters]
  split
  · simp_all
  · split
    · simp_all
    · split <;> simp_all

theorem evaluateRefFilters_included_iff :
    evaluateRefFilters includes ignores name = .included ↔
      Readable includes ignores ∧ ¬ ExcludesRef LooselyMatches includes ignores name := by
  have excluded : evaluateRefFilters includes ignores name = .excluded ↔ _ :=
    evaluateRefFilters_excluded_iff
  have unknown : evaluateRefFilters includes ignores name = .unknown ↔ _ :=
    evaluateRefFilters_unknown_iff
  cases decision : evaluateRefFilters includes ignores name with
  | included => simp_all
  | excluded => simp_all
  | unknown => simp_all

theorem evaluatePathFilters_excluded_iff :
    evaluatePathFilters includes ignores changedPaths = .excluded ↔
      changedPaths ≠ [] ∧ Readable includes ignores ∧
        ExcludesPaths LooselyMatches includes ignores changedPaths := by
  by_cases readable : Readable includes ignores
  · have known := unreadable_eq_false.mpr readable
    have none : changedPaths.any (orderedPathSelected includes) = false ↔
        ∀ path ∈ changedPaths, ¬ Selects LooselyMatches includes path := by
      simp only [List.any_eq_false, orderedPathSelected_iff]
    have all : (changedPaths.all fun path => ignores.any fun pattern => globMatches pattern path) =
        true ↔ ∀ path ∈ changedPaths, ∃ pattern ∈ ignores, LooselyMatches pattern path := by
      simp only [List.all_eq_true, any_globMatches_iff]
    rw [evaluatePathFilters, known, ExcludesPaths, ← none, ← all]
    generalize changedPaths.any (orderedPathSelected includes) = anySelected
    generalize (changedPaths.all fun path => ignores.any fun pattern =>
      globMatches pattern path) = allIgnored
    by_cases empty : changedPaths = []
    · simp [empty]
    · cases anySelected <;> cases allIgnored <;> cases includes <;> cases ignores <;>
        simp [readable, empty]
  · have unknown : unreadable includes ignores = true := by
      simpa [← unreadable_eq_false] using readable
    simp [evaluatePathFilters, unknown, readable]

end

/-! ## Where the two readings agree

A pattern that is misread need not matter: a later one may decide, or the earlier ones may
come to the same. -/

/-- The patterns, the last one first, decide a name alike in both readings: the first of them
that either reading matches is matched by both, or the ones after it decide as it does. -/
def AgreedFrom (name : String) : List String → Prop
  | [] => True
  | pattern :: earlier =>
      (LooselyMatches (bare pattern) name ∧ FilterMatches (bare pattern) name) ∨
      (¬ LooselyMatches (bare pattern) name ∧ ¬ FilterMatches (bare pattern) name ∧
        AgreedFrom name earlier) ∨
      (LooselyMatches (bare pattern) name ∧ ¬ FilterMatches (bare pattern) name ∧
        (Selects FilterMatches earlier.reverse name ↔ stripNegation pattern = none)) ∨
      (¬ LooselyMatches (bare pattern) name ∧ FilterMatches (bare pattern) name ∧
        (Selects LooselyMatches earlier.reverse name ↔ stripNegation pattern = none))

def Agreed (patterns : List String) (name : String) : Prop := AgreedFrom name patterns.reverse

/-- All paths are agreed on, or both readings have a path that settles the matter. -/
structure AgreedPaths (includes ignores changedPaths : List String) : Prop where
  includes : (∀ path ∈ changedPaths, Agreed includes path) ∨
    (∃ path ∈ changedPaths, Selects LooselyMatches includes path) ∧
      ∃ path ∈ changedPaths, Selects FilterMatches includes path
  ignores : (∀ path ∈ changedPaths, Agreed ignores path) ∨
    (∃ path ∈ changedPaths, ¬ Selects LooselyMatches ignores path) ∧
      ∃ path ∈ changedPaths, ¬ Selects FilterMatches ignores path

section

variable {includes ignores patterns changedPaths : List String} {name : String}

theorem agreed_iff :
    Agreed patterns name ↔
      (Selects LooselyMatches patterns name ↔ Selects FilterMatches patterns name) := by
  induction patterns using List.reverseRecOn with
  | nil => simp [Agreed, AgreedFrom, not_selects_nil]
  | append_singleton patterns pattern ih =>
      rw [Agreed] at ih
      rw [Agreed, List.reverse_append, List.reverse_singleton, List.singleton_append, AgreedFrom,
        List.reverse_reverse, ih, selects_append, selects_append]
      by_cases loose : LooselyMatches (bare pattern) name <;>
        by_cases documented : FilterMatches (bare pattern) name <;> simp [loose, documented]
      exact iff_comm

theorem agreed_of_portable (portable : ∀ pattern ∈ patterns, Portable (bare pattern))
    (name : String) : Agreed patterns name := by
  induction patterns using List.reverseRecOn with
  | nil => exact trivial
  | append_singleton patterns pattern ih =>
      have here := loosely_iff_of_portable (portable pattern (by simp)) name
      have rest := agreed_iff.mp (ih fun other member => portable other (by simp [member]))
      rw [agreed_iff, selects_append, selects_append, here, rest]

/-- With one of the two lists empty, the readings exclude alike exactly when they agree. -/
theorem excludesRef_iff (readable : Readable includes ignores)
    (single : includes = [] ∨ ignores = []) :
    (ExcludesRef LooselyMatches includes ignores name ↔
        ExcludesRef FilterMatches includes ignores name) ↔
      Agreed includes name ∧ Agreed ignores name := by
  rw [ExcludesRef, ExcludesRef, ← selects_of_plain readable.plain,
    ← selects_of_plain readable.plain, agreed_iff, agreed_iff]
  rcases single with rfl | rfl
  · simp [not_selects_nil]
  · by_cases empty : includes = []
    · simp [empty, not_selects_nil]
    · simp [empty, not_selects_nil, not_iff_not]

/-- Two properties hold of all members alike where they agree on each, or where each fails. -/
theorem forall_mem_iff {α : Type} {xs : List α} {p q : α → Prop} :
    ((∀ x ∈ xs, p x) ↔ ∀ x ∈ xs, q x) ↔
      (∀ x ∈ xs, (p x ↔ q x)) ∨ (∃ x ∈ xs, ¬ p x) ∧ ∃ x ∈ xs, ¬ q x := by
  by_cases left : ∀ x ∈ xs, p x
  · have never : ¬ ∃ x ∈ xs, ¬ p x := fun ⟨x, member, fails⟩ => fails (left x member)
    simp only [never, false_and, or_false]
    exact ⟨fun same x member => iff_of_true (left x member) (same.mp left x member),
      fun same => iff_of_true left fun x member => (same x member).mp (left x member)⟩
  · have fails : ∃ x ∈ xs, ¬ p x := by simpa using left
    by_cases right : ∀ x ∈ xs, q x
    · have never : ¬ ∃ x ∈ xs, ¬ q x := fun ⟨x, member, fails⟩ => fails (right x member)
      simp only [never, and_false, or_false]
      exact ⟨fun same => absurd (same.mpr right) left,
        fun same => absurd (fun x member => (same x member).mpr (right x member)) left⟩
    · have fails' : ∃ x ∈ xs, ¬ q x := by simpa using right
      exact iff_of_true (iff_of_false left right) (.inr ⟨fails, fails'⟩)

theorem excludesPaths_iff (readable : Readable includes ignores)
    (single : includes = [] ∨ ignores = []) :
    (ExcludesPaths LooselyMatches includes ignores changedPaths ↔
        ExcludesPaths FilterMatches includes ignores changedPaths) ↔
      AgreedPaths includes ignores changedPaths := by
  have none (path : String) : Agreed [] path := agreed_iff.mpr (by simp [not_selects_nil])
  have ignored : ((∀ path ∈ changedPaths, Selects LooselyMatches ignores path) ↔
      ∀ path ∈ changedPaths, Selects FilterMatches ignores path) ↔ _ := forall_mem_iff
  have selected : ((∀ path ∈ changedPaths, ¬ Selects LooselyMatches includes path) ↔
      ∀ path ∈ changedPaths, ¬ Selects FilterMatches includes path) ↔ _ := forall_mem_iff
  simp only [not_iff_not, not_not, ← agreed_iff] at ignored selected
  simp only [ExcludesPaths, ← selects_of_plain readable.plain]
  rcases single with rfl | rfl
  · have includes : (∀ path ∈ changedPaths, Agreed [] path) := fun path _ => none path
    by_cases empty : ignores = []
    · subst empty
      simpa using AgreedPaths.mk (.inl includes) (.inl includes)
    · simp only [ne_eq, not_true_eq_false, false_and, empty, not_false_eq_true, true_and, false_or]
      exact ignored.trans ⟨fun agreed => ⟨.inl includes, agreed⟩, AgreedPaths.ignores⟩
  · have ignores : (∀ path ∈ changedPaths, Agreed [] path) := fun path _ => none path
    by_cases empty : includes = []
    · subst empty
      simpa using AgreedPaths.mk (.inl ignores) (.inl ignores)
    · simp only [ne_eq, not_true_eq_false, false_and, empty, not_false_eq_true, true_and, or_false]
      exact selected.trans ⟨fun agreed => ⟨agreed, .inl ignores⟩, AgreedPaths.includes⟩

end

end Stratadiff.DoctorWorkflow
