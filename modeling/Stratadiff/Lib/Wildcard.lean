import Mathlib

/-!
# Wildcard patterns

A pattern is a list of elements, and its language is the product of theirs. One wildcard
stands for whole segments, each ended by a separator. Reading it as any run of characters
loosens a pattern; the language stays the same exactly when no group of adjacent wildcards
consists of segment wildcards alone.
-/

namespace Wildcard

open scoped Computability

inductive Element (α : Type) where
  | char (c : α)
  | optional (c : α)
  | one
  | run
  | anyRun
  | segments
  deriving DecidableEq, Repr

variable {α : Type} {sep : α} {c : α} {w v : List α} {e : Element α} {p q : List (Element α)}

/-- The texts without separator. -/
def free (sep : α) : Language α := {w | sep ∉ w}

@[simp] theorem mem_free : w ∈ free sep ↔ sep ∉ w := Iff.rfl

namespace Element

/-- What one element stands for. -/
def language (sep : α) : Element α → Language α
  | .char c => {[c]}
  | .optional c => {[], [c]}
  | .one => {w | ∃ c, c ≠ sep ∧ w = [c]}
  | .run => free sep
  | .anyRun => ⊤
  | .segments => (free sep * {[sep]})∗

def isWild : Element α → Bool
  | .run | .anyRun | .segments => true
  | _ => false

/-- Read whole segments as any run. -/
def loosen : Element α → Element α
  | .segments => .anyRun
  | e => e

@[simp] theorem mem_char : w ∈ language sep (.char c) ↔ w = [c] := Iff.rfl

@[simp] theorem mem_optional : w ∈ language sep (.optional c) ↔ w = [] ∨ w = [c] := Iff.rfl

@[simp] theorem mem_one : w ∈ language sep .one ↔ ∃ c, c ≠ sep ∧ w = [c] := Iff.rfl

@[simp] theorem mem_run : w ∈ language sep .run ↔ sep ∉ w := Iff.rfl

/-- Whole segments are nothing, or a text that ends with a separator. -/
theorem mem_segments :
    w ∈ language sep .segments ↔ w = [] ∨ ∃ v, w = v ++ [sep] := by
  constructor
  · intro member
    obtain ⟨parts, rfl, segment⟩ := Language.mem_kstar.mp member
    induction parts using List.reverseRecOn with
    | nil => exact .inl rfl
    | append_singleton parts last _ =>
        obtain ⟨a, _, b, rfl, rfl⟩ := Language.mem_mul.mp (segment last (by simp))
        exact .inr ⟨parts.flatten ++ a, by simp⟩
  · rintro (rfl | ⟨v, rfl⟩)
    · exact Language.nil_mem_kstar _
    · refine Language.mem_kstar.mpr ?_
      induction v with
      | nil =>
          refine ⟨[[sep]], by simp, ?_⟩
          rintro y (_ | ⟨_, ⟨⟩⟩)
          exact Language.mem_mul.mpr ⟨[], mem_free.mpr List.not_mem_nil, [sep], rfl, rfl⟩
      | cons c v ih =>
          obtain ⟨parts, flat, segment⟩ := ih
          cases parts with
          | nil => simp at flat
          | cons first parts =>
              by_cases ends : c = sep
              · refine ⟨[sep] :: first :: parts, by simp [ends, flat], ?_⟩
                rintro y (_ | ⟨_, member⟩)
                · exact Language.mem_mul.mpr ⟨[], mem_free.mpr List.not_mem_nil, [sep], rfl, rfl⟩
                · exact segment y member
              · refine ⟨(c :: first) :: parts, by simp [flat], ?_⟩
                rintro y (_ | ⟨_, member⟩)
                · obtain ⟨a, free, b, mark, rfl⟩ := Language.mem_mul.mp (segment first (by simp))
                  refine Language.mem_mul.mpr ⟨c :: a, ?_, b, mark, rfl⟩
                  rw [mem_free] at free ⊢
                  simp [free, Ne.symm ends]
                · exact segment y (List.mem_cons_of_mem _ member)

/-- A wildcard may stand for nothing. -/
theorem nil_mem_of_isWild (wild : e.isWild) : [] ∈ language sep e := by
  cases e with
  | run => exact List.not_mem_nil
  | anyRun => exact trivial
  | segments => exact mem_segments.mpr (.inl rfl)
  | char c | optional c | one => cases wild

@[simp] theorem isWild_loosen : e.loosen.isWild = e.isWild := by cases e <;> rfl

theorem language_le_loosen : language sep e ≤ language sep e.loosen := by
  cases e with
  | segments => exact fun _ _ => trivial
  | char c | optional c | one | run | anyRun => exact le_rfl

end Element

/-- What a pattern stands for. -/
def language (sep : α) (p : List (Element α)) : Language α := (p.map (Element.language sep)).prod

@[simp] theorem language_nil : language sep [] = 1 := rfl

@[simp] theorem language_cons : language sep (e :: p) = e.language sep * language sep p := rfl

theorem language_append : language sep (p ++ q) = language sep p * language sep q := by
  simp [language]

theorem mem_nil : w ∈ language sep [] ↔ w = [] := Iff.rfl

theorem mem_cons :
    w ∈ language sep (e :: p) ↔ ∃ u ∈ e.language sep, ∃ v ∈ language sep p, u ++ v = w :=
  Language.mem_mul

theorem mem_char_cons :
    w ∈ language sep (.char c :: p) ↔ ∃ v, w = c :: v ∧ v ∈ language sep p := by
  rw [mem_cons]
  constructor
  · rintro ⟨u, rfl, v, member, rfl⟩
    exact ⟨v, rfl, member⟩
  · rintro ⟨v, rfl, member⟩
    exact ⟨[c], rfl, v, member, rfl⟩

theorem mem_one_cons :
    w ∈ language sep (.one :: p) ↔ ∃ c v, w = c :: v ∧ c ≠ sep ∧ v ∈ language sep p := by
  rw [mem_cons]
  constructor
  · rintro ⟨u, ⟨c, plain, rfl⟩, v, member, rfl⟩
    exact ⟨c, v, rfl, plain, member⟩
  · rintro ⟨c, v, rfl, plain, member⟩
    exact ⟨[c], ⟨c, plain, rfl⟩, v, member, rfl⟩

/-- A run is over, or it goes on by one character. -/
theorem mem_run_cons :
    w ∈ language sep (.run :: p) ↔
      w ∈ language sep p ∨ ∃ c v, w = c :: v ∧ c ≠ sep ∧ v ∈ language sep (.run :: p) := by
  constructor
  · rw [mem_cons]
    rintro ⟨u, plain, v, member, rfl⟩
    cases u with
    | nil => exact .inl member
    | cons c u =>
        rw [Element.mem_run, List.mem_cons, not_or] at plain
        exact .inr ⟨c, u ++ v, rfl, Ne.symm plain.1, mem_cons.mpr ⟨u, plain.2, v, member, rfl⟩⟩
  · rintro (member | ⟨c, v, rfl, plain, member⟩)
    · exact mem_cons.mpr ⟨[], Element.mem_run.mpr List.not_mem_nil, w, member, rfl⟩
    · obtain ⟨u, within, v, rest, rfl⟩ := mem_cons.mp member
      refine mem_cons.mpr ⟨c :: u, ?_, v, rest, rfl⟩
      rw [Element.mem_run] at within ⊢
      simp [within, Ne.symm plain]

theorem mem_anyRun_cons :
    w ∈ language sep (.anyRun :: p) ↔
      w ∈ language sep p ∨ ∃ c v, w = c :: v ∧ v ∈ language sep (.anyRun :: p) := by
  constructor
  · rw [mem_cons]
    rintro ⟨u, _, v, member, rfl⟩
    cases u with
    | nil => exact .inl member
    | cons c u => exact .inr ⟨c, u ++ v, rfl, mem_cons.mpr ⟨u, trivial, v, member, rfl⟩⟩
  · rintro (member | ⟨c, v, rfl, member⟩)
    · exact mem_cons.mpr ⟨[], trivial, w, member, rfl⟩
    · obtain ⟨u, _, v, rest, rfl⟩ := mem_cons.mp member
      exact mem_cons.mpr ⟨c :: u, trivial, v, rest, rfl⟩

/-- Loosening only adds texts. -/
theorem language_le_loosen : language sep p ≤ language sep (p.map Element.loosen) := by
  induction p with
  | nil => exact le_rfl
  | cons e p ih => exact mul_le_mul' Element.language_le_loosen ih

/-! ## The characters of a pattern -/

/-- The characters that an element asks for. -/
def Element.plain : Element α → List α
  | .char c => [c]
  | _ => []

/-- The characters that a pattern asks for, in their order. -/
def plain (p : List (Element α)) : List α := p.flatMap Element.plain

@[simp] theorem plain_nil : plain ([] : List (Element α)) = [] := rfl

@[simp] theorem plain_cons : plain (e :: p) = e.plain ++ plain p := rfl

@[simp] theorem plain_append : plain (p ++ q) = plain p ++ plain q := List.flatMap_append

theorem Element.plain_of_isWild (wild : e.isWild) : e.plain = [] := by
  cases e with
  | run | anyRun | segments => rfl
  | char c | optional c | one => cases wild

theorem plain_of_isWild (wild : ∀ e ∈ p, e.isWild) : plain p = [] :=
  List.flatMap_eq_nil_iff.mpr fun e member => Element.plain_of_isWild (wild e member)

/-- An element stands for a text of its own characters at least. -/
theorem Element.plain_length_le (member : w ∈ e.language sep) : e.plain.length ≤ w.length := by
  cases e with
  | char c => rw [Element.mem_char.mp member]; rfl
  | optional c | one | run | anyRun | segments => exact Nat.zero_le _

theorem Element.eq_plain (member : w ∈ e.language sep) (short : w.length ≤ e.plain.length) :
    w = e.plain := by
  cases e with
  | char c => exact Element.mem_char.mp member
  | optional c | one | run | anyRun | segments =>
      exact List.length_eq_zero_iff.mp (Nat.le_zero.mp short)

/-- The elements that ask for their characters and no more. -/
def IsText (p : List (Element α)) : Prop := ∀ e ∈ p, e.isWild ∨ ∃ c, e = .char c

theorem plain_mem (possible : Element.one ∉ p) : plain p ∈ language sep p := by
  induction p with
  | nil => rfl
  | cons e p ih =>
      rw [List.mem_cons, not_or] at possible
      refine mem_cons.mpr ⟨e.plain, ?_, plain p, ih possible.2, rfl⟩
      cases e with
      | char c => exact Element.mem_char.mpr rfl
      | optional c => exact Element.mem_optional.mpr (.inl rfl)
      | one => exact absurd rfl possible.1
      | run | anyRun | segments => exact Element.nil_mem_of_isWild rfl

theorem plain_length_le (member : w ∈ language sep p) : (plain p).length ≤ w.length := by
  induction p generalizing w with
  | nil => exact Nat.zero_le _
  | cons e p ih =>
      obtain ⟨u, here, v, rest, rfl⟩ := mem_cons.mp member
      rw [plain_cons, List.length_append, List.length_append]
      exact Nat.add_le_add (Element.plain_length_le here) (ih rest)

/-- The shortest text of a pattern has its characters only. -/
theorem eq_plain (member : w ∈ language sep p) (short : w.length ≤ (plain p).length) :
    w = plain p := by
  induction p generalizing w with
  | nil => exact member
  | cons e p ih =>
      obtain ⟨u, here, v, rest, rfl⟩ := mem_cons.mp member
      have first := Element.plain_length_le here
      have others := plain_length_le rest
      rw [plain_cons, List.length_append, List.length_append] at short
      rw [plain_cons, Element.eq_plain here (by omega), ih rest (by omega)]

/-- In a text with one character too many, that character belongs to a wildcard. -/
theorem exists_wild (text : IsText p) (member : w ∈ language sep p)
    (long : w.length = (plain p).length + 1) :
    ∃ a e b z, p = a ++ e :: b ∧ e.isWild ∧ [z] ∈ e.language sep ∧
      w = plain a ++ z :: plain b := by
  induction p generalizing w with
  | nil =>
      rw [mem_nil] at member
      subst member
      cases long
  | cons e p ih =>
      obtain ⟨u, here, v, rest, rfl⟩ := mem_cons.mp member
      have text' : IsText p := fun e there => text e (List.mem_cons_of_mem _ there)
      have others := plain_length_le rest
      rw [plain_cons, List.length_append, List.length_append] at long
      have shift : u = e.plain → ∃ a f b z, e :: p = a ++ f :: b ∧ f.isWild ∧
          [z] ∈ f.language sep ∧ u ++ v = plain a ++ z :: plain b := by
        rintro rfl
        obtain ⟨a, f, b, z, rfl, wild, single, rfl⟩ := ih text' rest (by omega)
        exact ⟨e :: a, f, b, z, rfl, wild, single, by simp⟩
      rcases text e (by simp) with wild | ⟨c, rfl⟩
      · have nothing := Element.plain_of_isWild wild
        rw [nothing, List.length_nil] at long
        cases u with
        | nil => exact shift nothing.symm
        | cons z u =>
            rw [List.length_cons] at long
            obtain rfl : u = [] := List.length_eq_zero_iff.mp (by omega)
            have rest : v = plain p := eq_plain rest (by simp at long; omega)
            exact ⟨[], e, p, z, rfl, wild, here, by rw [rest]; rfl⟩
      · exact shift (Element.mem_char.mp here)

/-- The elements that stand for one character each. -/
def Element.isSingle : Element α → Bool
  | .char _ | .one => true
  | _ => false

def Element.isOptional : Element α → Bool
  | .optional _ => true
  | _ => false

/-- No text of a pattern is shorter than the number of its single characters. -/
theorem countP_isSingle_le (member : w ∈ language sep p) :
    p.countP Element.isSingle ≤ w.length := by
  induction p generalizing w with
  | nil => exact Nat.zero_le _
  | cons e p ih =>
      obtain ⟨u, here, v, rest, rfl⟩ := mem_cons.mp member
      have others := ih rest
      rw [List.countP_cons, List.length_append]
      cases e with
      | char c =>
          obtain rfl := Element.mem_char.mp here
          simp [Element.isSingle]
          omega
      | one =>
          obtain ⟨c, _, rfl⟩ := Element.mem_one.mp here
          simp [Element.isSingle]
          omega
      | optional c | run | anyRun | segments =>
          simp [Element.isSingle]
          omega

/-- A character of the pattern occurs in every text. -/
theorem mem_of_char_mem (here : .char c ∈ p) (member : w ∈ language sep p) : c ∈ w := by
  induction p generalizing w with
  | nil => cases here
  | cons e p ih =>
      obtain ⟨u, first, v, rest, rfl⟩ := mem_cons.mp member
      rcases List.mem_cons.mp here with rfl | there
      · rw [Element.mem_char.mp first]
        simp
      · simp [ih there rest]

/-- A character that the pattern does not ask for can be avoided. -/
theorem exists_text_avoiding {x z : α} (inside : z ≠ sep) (other : z ≠ x) (absent : .char x ∉ p) :
    ∃ w ∈ language sep p, x ∉ w := by
  induction p with
  | nil => exact ⟨[], rfl, List.not_mem_nil⟩
  | cons e p ih =>
      rw [List.mem_cons, not_or] at absent
      obtain ⟨v, rest, avoids⟩ := ih absent.2
      have extend (u : List α) (here : u ∈ e.language sep) (free : x ∉ u) :
          ∃ w ∈ language sep (e :: p), x ∉ w :=
        ⟨u ++ v, mem_cons.mpr ⟨u, here, v, rest, rfl⟩, by simp [free, avoids]⟩
      cases e with
      | char c => exact extend [c] rfl (by simpa using absent.1)
      | one => exact extend [z] ⟨z, inside, rfl⟩ (by simpa using Ne.symm other)
      | optional c => exact extend [] (.inl rfl) List.not_mem_nil
      | run | anyRun | segments =>
          exact extend [] (Element.nil_mem_of_isWild rfl) List.not_mem_nil

/-! ## Groups of wildcards -/

/-- The groups of adjacent wildcards, empty ones included. -/
def groups (p : List (Element α)) : List (List (Element α)) := p.splitOnP fun e => !e.isWild

/-- Every pattern is a group of wildcards, or begins with one and goes on with another element. -/
theorem group_induction {motive : List (Element α) → Prop}
    (last : ∀ g, (∀ e ∈ g, e.isWild) → motive g)
    (step : ∀ g e p, (∀ e ∈ g, e.isWild) → e.isWild = false → motive p → motive (g ++ e :: p))
    (p : List (Element α)) : motive p := by
  suffices h : ∀ n, ∀ p : List (Element α), p.length ≤ n → motive p from h p.length p le_rfl
  intro n
  induction n with
  | zero =>
      intro p short
      obtain rfl : p = [] := List.length_eq_zero_iff.mp (Nat.le_zero.mp short)
      exact last [] (by simp)
  | succ n ih =>
      intro p short
      have wild : ∀ e ∈ p.takeWhile Element.isWild, e.isWild := fun e member =>
        List.mem_takeWhile_imp member
      have whole : p.takeWhile Element.isWild ++ p.dropWhile Element.isWild = p :=
        List.takeWhile_append_dropWhile
      cases rest : p.dropWhile Element.isWild with
      | nil =>
          rw [rest, List.append_nil] at whole
          exact whole ▸ last _ wild
      | cons e q =>
          rw [rest] at whole
          have stop : e.isWild = false := by
            have head := List.head_dropWhile_not Element.isWild (l := p) (by simp [rest])
            simpa [rest] using head
          have fewer : q.length ≤ n := by
            have := congrArg List.length whole
            simp at this
            omega
          exact whole ▸ step _ e q wild stop (ih q fewer)

theorem groups_of_isWild (wild : ∀ e ∈ p, e.isWild) : groups p = [p] :=
  List.splitOnP_eq_singleton fun e member => by simp [wild e member]

theorem groups_append (wild : ∀ e ∈ q, e.isWild) (stop : e.isWild = false) :
    groups (q ++ e :: p) = q :: groups p :=
  List.splitOnP_append_cons_of_forall_mem (fun e member => by simp [wild e member]) e
    (by simp [stop]) p

/-! ## Loosening -/

/-- A single run has no wildcard after it. -/
def RunsLast (p : List (Element α)) : Prop :=
  p.IsChain fun e next => e = .run → next.isWild = false

/-- No group of wildcards consists of segment wildcards alone. -/
def Settled (p : List (Element α)) : Prop :=
  ∀ g ∈ groups p, .segments ∈ g → ∃ e ∈ g, e ≠ .segments

instance [DecidableEq α] : Decidable (Settled p) :=
  inferInstanceAs (Decidable (∀ g ∈ groups p, _ → ∃ e ∈ g, e ≠ _))

theorem map_loosen (absent : .segments ∉ p) : p.map Element.loosen = p := by
  refine (List.map_congr_left fun e member => ?_).trans (List.map_id p)
  cases e with
  | segments => exact absurd member absent
  | char c | optional c | one | run | anyRun => rfl

/-- A group of wildcards may stand for what one of them stands for. -/
theorem mem_of_mem (wild : ∀ e ∈ p, e.isWild) (here : e ∈ p) (member : w ∈ e.language sep) :
    w ∈ language sep p := by
  induction p with
  | nil => cases here
  | cons f p ih =>
      have wild' : ∀ e ∈ p, e.isWild := fun g there => wild g (List.mem_cons_of_mem _ there)
      rcases List.mem_cons.mp here with rfl | there
      · have nothing : plain p ∈ language sep p := plain_mem fun one => by cases wild' _ one
        rw [plain_of_isWild wild'] at nothing
        exact mem_cons.mpr ⟨w, member, [], nothing, List.append_nil w⟩
      · exact mem_cons.mpr ⟨[], Element.nil_mem_of_isWild (wild f (by simp)), w, ih wild' there,
          rfl⟩

/-- A text is whole segments and a rest without separator. -/
theorem exists_segments (w : List α) :
    ∃ u v, u ∈ Element.language sep .segments ∧ v ∈ Element.language sep .run ∧ u ++ v = w := by
  induction w using List.reverseRecOn with
  | nil => exact ⟨[], [], Element.mem_segments.mpr (.inl rfl), List.not_mem_nil, rfl⟩
  | append_singleton w c ih =>
      by_cases ends : c = sep
      · subst ends
        exact ⟨w ++ [c], [], Element.mem_segments.mpr (.inr ⟨w, rfl⟩), List.not_mem_nil, by simp⟩
      · obtain ⟨u, v, whole, rest, rfl⟩ := ih
        refine ⟨u, v ++ [c], whole, ?_, by simp⟩
        rw [Element.mem_run] at rest ⊢
        simp [rest, Ne.symm ends]

/-- Whole segments followed by a run are any run. -/
theorem language_group (wild : ∀ e ∈ p, e.isWild) (last : RunsLast p)
    (some : .segments ∈ p) (other : ∃ e ∈ p, e ≠ .segments) : language sep p = ⊤ := by
  refine top_unique fun w _ => ?_
  obtain ⟨e, here, different⟩ := other
  cases e with
  | anyRun => exact mem_of_mem wild here trivial
  | run =>
      obtain ⟨a, b, rfl⟩ := List.append_of_mem here
      have b_nil : b = [] := by
        cases b with
        | nil => rfl
        | cons next b =>
            have stop := (List.isChain_append.mp last).2.1
            rw [List.isChain_cons_cons] at stop
            have wild : next.isWild := wild next (by simp)
            rw [stop.1 rfl] at wild
            cases wild
      subst b_nil
      have within : .segments ∈ a := by simpa using some
      obtain ⟨u, v, whole, rest, rfl⟩ := @exists_segments α sep w
      rw [language_append]
      refine Language.append_mem_mul (mem_of_mem (fun e there => wild e (by simp [there])) within
        whole) ?_
      exact mem_of_mem (by simp [Element.isWild]) (by simp) rest
  | segments => exact absurd rfl different
  | char c | optional c | one => cases wild _ here

theorem language_loosen_group (wild : ∀ e ∈ p, e.isWild) (last : RunsLast p)
    (settled : .segments ∈ p → ∃ e ∈ p, e ≠ .segments) :
    language sep (p.map Element.loosen) = language sep p := by
  by_cases some : .segments ∈ p
  · rw [language_group wild last some (settled some)]
    refine top_unique fun w _ =>
      mem_of_mem ?_ ?_ (show w ∈ Element.language sep .anyRun from trivial)
    · simpa using wild
    · exact List.mem_map.mpr ⟨_, some, rfl⟩
  · rw [map_loosen some]

/-- The language stays when no group consists of segment wildcards alone. -/
theorem language_loosen (last : RunsLast p) (settled : Settled p) :
    language sep (p.map Element.loosen) = language sep p := by
  induction p using group_induction with
  | last g wild =>
      exact language_loosen_group wild last (settled g (by simp [groups_of_isWild wild]))
  | step g e p wild stop ih =>
      have parts := groups_append (p := p) wild stop
      obtain ⟨lastGroup, lastRest, _⟩ := List.isChain_append.mp last
      have same : e.loosen = e := by cases e <;> first | rfl | cases stop
      have rest := ih lastRest.tail fun h member => settled h (by simp [parts, member])
      have group : language sep (g.map Element.loosen) = language sep g :=
        language_loosen_group wild lastGroup (settled g (by simp [parts]))
      rw [List.map_append, List.map_cons, language_append, language_append, language_cons,
        language_cons, group, rest, same]

/-- A group stands between characters. -/
theorem exists_around {g : List (Element α)} (text : IsText p) (here : g ∈ groups p) :
    ∃ before after, p = before ++ (g ++ after) ∧
      (before = [] ∨ ∃ b c, before = b ++ [.char c]) ∧
      (after = [] ∨ ∃ c a, after = .char c :: a) := by
  induction p using group_induction with
  | last h wild =>
      rw [groups_of_isWild wild, List.mem_singleton] at here
      exact ⟨[], [], by simp [here], .inl rfl, .inl rfl⟩
  | step h e p wild stop ih =>
      obtain ⟨c, rfl⟩ : ∃ c, e = .char c := by
        rcases text e (by simp) with wild | char
        · rw [wild] at stop
          cases stop
        · exact char
      rw [groups_append wild stop, List.mem_cons] at here
      rcases here with rfl | there
      · exact ⟨[], .char c :: p, rfl, .inl rfl, .inr ⟨c, p, rfl⟩⟩
      · obtain ⟨before, after, rfl, left, right⟩ := ih
          (fun f member => text f (by simp [member])) there
        refine ⟨h ++ .char c :: before, after, by simp, .inr ?_, right⟩
        rcases left with rfl | ⟨b, d, rfl⟩
        · exact ⟨h, c, rfl⟩
        · exact ⟨h ++ .char c :: b, d, by simp⟩

theorem Element.eq_sep {z : α} (single : [z] ∈ Element.language sep .segments) : z = sep := by
  rcases Element.mem_segments.mp single with empty | ⟨v, ends⟩
  · cases empty
  · have last := congrArg List.getLast? ends
    simpa using last

/-- A group of segment wildcards alone does not stand for a single other character. -/
theorem not_mem_of_bare {before g after : List (Element α)} {z : α}
    (text : IsText (before ++ (g ++ after))) (some : g ≠ []) (bare : ∀ e ∈ g, e = .segments)
    (left : before = [] ∨ ∃ b c, before = b ++ [.char c] ∧ z ≠ c)
    (right : after = [] ∨ ∃ c a, after = .char c :: a ∧ z ≠ c) (inside : z ≠ sep) :
    plain before ++ z :: plain after ∉ language sep (before ++ (g ++ after)) := by
  intro member
  have wild : ∀ e ∈ g, e.isWild := fun e there => by rw [bare e there]; rfl
  have nothing := plain_of_isWild wild
  obtain ⟨a, e, b, y, whole, wildE, single, same⟩ := exists_wild text member (by
    simp [nothing]; omega)
  -- A wildcard of the group itself would have to stand for a separator.
  have notBare : e ∈ g → plain before = plain a → False := by
    intro there sameLeft
    rw [bare e there] at single
    rw [sameLeft] at same
    have first := (List.cons.inj (List.append_cancel_left same)).1
    exact inside (first.trans (Element.eq_sep single))
  rcases List.append_eq_append_iff.mp whole with ⟨m, rfl, rest⟩ | ⟨m, rfl, rest⟩
  · rcases List.append_eq_append_iff.mp rest with ⟨n, rfl, after_eq⟩ | ⟨n, rfl, after_eq⟩
    · -- The wildcard stands behind the group.
      rcases right with rfl | ⟨c, t, rfl, different⟩
      · simp at after_eq
      · cases n with
        | nil =>
            rw [List.nil_append, List.cons.injEq] at after_eq
            rw [← after_eq.1] at wildE
            cases wildE
        | cons f n =>
            rw [List.cons_append, List.cons.injEq] at after_eq
            rw [← after_eq.1] at same
            simp only [plain_append, plain_cons, nothing, List.nil_append,
              List.append_assoc] at same
            exact different (List.cons.inj (List.append_cancel_left same)).1
    · -- It stands in the group.
      have outside : ∀ f ∈ m, f.isWild := fun f there => wild f (by simp [there])
      cases n with
      | nil =>
          rcases right with rfl | ⟨c, t, rfl, _⟩
          · simp at after_eq
          · rw [List.nil_append, List.cons.injEq] at after_eq
            rw [after_eq.1] at wildE
            cases wildE
      | cons f n =>
          rw [List.cons_append, List.cons.injEq] at after_eq
          refine notBare (by simp [after_eq.1]) ?_
          rw [plain_append, plain_of_isWild outside, List.append_nil]
  · cases m with
    | nil =>
        rw [List.nil_append] at rest
        cases g with
        | nil => exact some rfl
        | cons f g =>
            rw [List.cons_append, List.cons.injEq] at rest
            exact notBare (by simp [rest.1]) (by simp)
    | cons f m =>
        -- It stands in front of the group, with a character in between.
        rw [List.cons_append, List.cons.injEq] at rest
        obtain ⟨rfl, rfl⟩ := rest
        have plainE := Element.plain_of_isWild wildE
        simp only [plain_append, plain_cons, plainE, nothing, List.nil_append,
          List.append_assoc] at same
        have shift : plain m ++ [z] = y :: plain m := by
          have rest := List.append_cancel_left same
          have rest : (plain m ++ [z]) ++ plain after = (y :: plain m) ++ plain after := by
            simpa using rest
          exact List.append_cancel_right rest
        rcases left with empty | ⟨t, c, ends, different⟩
        · simp at empty
        · rcases List.eq_nil_or_concat m with rfl | ⟨n, d, rfl⟩
          · have last := List.append_inj_right' ends rfl
            rw [List.cons.injEq] at last
            rw [last.1] at wildE
            cases wildE
          · rw [List.concat_eq_append, ← List.cons_append, ← List.append_assoc] at ends
            have last := List.append_inj_right' ends rfl
            rw [List.cons.injEq] at last
            rw [last.1, List.concat_eq_append, plain_append] at shift
            have final := congrArg List.getLast? shift
            simp only [plain_cons, plain_nil, Element.plain, List.append_nil,
              ← List.cons_append, List.getLast?_append, List.getLast?_singleton,
              Option.some_or, Option.some.injEq] at final
            exact different final

/-- Loosening keeps the language exactly when no group is made of segment wildcards alone. -/
theorem language_loosen_eq_iff (text : IsText p) (last : RunsLast p)
    (room : ∀ a b c : α, ∃ z, z ≠ a ∧ z ≠ b ∧ z ≠ c) :
    language sep (p.map Element.loosen) = language sep p ↔ Settled p := by
  constructor
  · intro same g here some
    by_contra bare
    push Not at bare
    obtain ⟨before, after, rfl, left, right⟩ := exists_around text here
    have some : g ≠ [] := List.ne_nil_of_mem some
    obtain ⟨l, leftChar⟩ : ∃ l, before = [] ∨ ∃ b, before = b ++ [.char l] := by
      rcases left with empty | ⟨b, l, ends⟩
      · exact ⟨sep, .inl empty⟩
      · exact ⟨l, .inr ⟨b, ends⟩⟩
    obtain ⟨r, rightChar⟩ : ∃ r, after = [] ∨ ∃ a, after = .char r :: a := by
      rcases right with empty | ⟨r, a, begins⟩
      · exact ⟨sep, .inl empty⟩
      · exact ⟨r, .inr ⟨a, begins⟩⟩
    obtain ⟨z, inside, notLeft, notRight⟩ := room sep l r
    refine not_mem_of_bare text some bare
      (leftChar.imp_right fun ⟨b, ends⟩ => ⟨b, l, ends, notLeft⟩)
      (rightChar.imp_right fun ⟨a, begins⟩ => ⟨r, a, begins, notRight⟩) inside ?_
    have outer (q : List (Element α)) (part : ∀ e ∈ q, e ∈ before ++ (g ++ after)) :
        plain q ∈ language sep (q.map Element.loosen) := by
      refine language_le_loosen (plain_mem fun one => ?_)
      rcases text _ (part _ one) with wild | ⟨c, char⟩
      · cases wild
      · cases char
    have middle : [z] ∈ language sep (g.map Element.loosen) := by
      obtain ⟨e, there⟩ := List.exists_mem_of_ne_nil g some
      refine mem_of_mem ?_ (List.mem_map.mpr ⟨e, there, ?_⟩)
        (show [z] ∈ Element.language sep .anyRun from trivial)
      · intro f mapped
        obtain ⟨h, member, rfl⟩ := List.mem_map.mp mapped
        rw [bare h member]
        rfl
      · rw [bare e there]
        rfl
    rw [← same, List.map_append, List.map_append, language_append, language_append]
    refine Language.append_mem_mul (outer before fun e there => by simp [there]) ?_
    exact Language.append_mem_mul (a := [z]) middle (outer after fun e there => by simp [there])
  · exact language_loosen last

end Wildcard
