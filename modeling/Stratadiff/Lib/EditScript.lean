import Mathlib

/-!
# Edit scripts over a sequence

An edit replaces the half-open range `start..stop` of a sequence. A script is a
list of edits whose ranges do not overlap and are listed in order; `rewrite`
runs the part of a script that lies between two positions.

Two facts carry the development. Scripts over adjacent ranges compose by
appending (`Rewrites.trans`), so a script can be built region by region. Two
scripts that stay strictly apart commute: each can be moved past the other by
shifting its offsets, and both orders give the result of the merged script.
-/

namespace EditScript

variable {α : Type*}

/-- The items at positions `a ≤ i < b`. -/
def slice (xs : List α) (a b : Nat) : List α := (xs.drop a).take (b - a)

@[simp] theorem slice_self (xs : List α) (a : Nat) : slice xs a a = [] := by
  simp [slice]

theorem slice_length (xs : List α) (a : Nat) {b : Nat} (hb : b ≤ xs.length) :
    (slice xs a b).length = b - a := by
  simp only [slice, List.length_take, List.length_drop]
  omega

theorem slice_append_slice (xs : List α) {a b c : Nat} (hab : a ≤ b) (hbc : b ≤ c) :
    slice xs a b ++ slice xs b c = slice xs a c := by
  have split : c - a = (b - a) + (c - b) := by omega
  have tail : xs.drop b = (xs.drop a).drop (b - a) := by
    rw [List.drop_drop]
    congr 1
    omega
  rw [slice, slice, slice, split, List.take_add, tail]

@[simp] theorem slice_zero_length (xs : List α) : slice xs 0 xs.length = xs := by
  simp [slice]

theorem slice_to_length (xs : List α) (a : Nat) : slice xs a xs.length = xs.drop a := by
  simp only [slice, List.take_eq_self_iff, List.length_drop]
  exact Nat.le_refl _

/-- A slice that lies behind a prefix is a slice of the rest. -/
theorem slice_append_right (pre rest : List α) (b c : Nat) :
    slice (pre ++ rest) (pre.length + b) (pre.length + c) = slice rest b c := by
  simp only [slice, List.drop_append, Nat.add_sub_add_left]
  have behind : pre.drop (pre.length + b) = [] := List.drop_eq_nil_of_le (by omega)
  simp [behind]

theorem slice_append_left {front rest : List α} {a b : Nat} (hb : b ≤ front.length) :
    slice (front ++ rest) a b = slice front a b := by
  simp only [slice, List.drop_append]
  by_cases ha : a ≤ front.length
  · have start : a - front.length = 0 := by omega
    rw [start, List.drop_zero, List.take_append_of_le_length]
    simp only [List.length_drop]
    omega
  · have empty : b - a = 0 := by omega
    simp [empty]

theorem slice_slice {xs : List α} {a b c d : Nat} (h : a + d ≤ b) :
    slice (slice xs a b) c d = slice xs (a + c) (a + d) := by
  simp only [slice, List.drop_take, List.take_take, List.drop_drop]
  congr 1
  omega

theorem drop_slice (xs : List α) (a b c : Nat) :
    (slice xs a b).drop c = slice xs (a + c) b := by
  simp only [slice, List.drop_take, List.drop_drop]
  congr 1
  omega

theorem take_slice {xs : List α} {a b c : Nat} (h : a + c ≤ b) :
    (slice xs a b).take c = slice xs a (a + c) := by
  simp only [slice, List.take_take]
  congr 1
  omega

theorem slice_eq_getElem? (xs ys : List α) {a b c : Nat}
    (h : ∀ k, k < b - a → xs[a + k]? = ys[c + k]?) :
    slice xs a b = slice ys c (c + (b - a)) := by
  apply List.ext_getElem?
  intro k
  simp only [slice, List.getElem?_take, List.getElem?_drop]
  by_cases hk : k < b - a
  · have hk' : k < c + (b - a) - c := by omega
    rw [if_pos hk, if_pos hk', h k hk]
  · have hk' : ¬ k < c + (b - a) - c := by omega
    rw [if_neg hk, if_neg hk']

theorem flatten_take_length_mono (xss : List (List α)) {a b : Nat} (h : a ≤ b) :
    (xss.take a).flatten.length ≤ (xss.take b).flatten.length := by
  have split : xss.take b = xss.take a ++ (xss.take b).drop a := by
    conv_lhs => rw [← List.take_append_drop a (xss.take b)]
    rw [List.take_take, Nat.min_eq_left h]
  rw [split]
  simp

/-- Slices of a concatenation, between the boundaries of its parts. -/
theorem slice_flatten {xss : List (List α)} {a b : Nat} (hab : a ≤ b) (hb : b ≤ xss.length) :
    slice xss.flatten (xss.take a).flatten.length (xss.take b).flatten.length =
      (slice xss a b).flatten := by
  have whole : xss.flatten =
      (xss.take a).flatten ++ ((slice xss a b).flatten ++ (xss.drop b).flatten) := by
    rw [← List.flatten_append, ← List.flatten_append, ← slice_to_length,
      slice_append_slice xss hab hb, slice_to_length, List.take_append_drop]
  have stop : (xss.take b).flatten.length =
      (xss.take a).flatten.length + (slice xss a b).flatten.length := by
    have front : xss.take b = xss.take a ++ slice xss a b := by
      have := slice_append_slice xss (Nat.zero_le a) hab
      simpa [slice] using this.symm
    rw [front, List.flatten_append, List.length_append]
  have behind := slice_append_right (xss.take a).flatten
    ((slice xss a b).flatten ++ (xss.drop b).flatten) 0 (slice xss a b).flatten.length
  rw [Nat.add_zero, slice_append_left (Nat.le_refl _), slice_zero_length] at behind
  rw [whole, stop, behind]

structure Edit (α : Type*) where
  start : Nat
  stop : Nat
  replacement : List α

/-- The edits lie in `i..k`, in order and without overlap. -/
def Within : Nat → Nat → List (Edit α) → Prop
  | i, k, [] => i ≤ k
  | i, k, e :: es => i ≤ e.start ∧ e.start ≤ e.stop ∧ Within e.stop k es

theorem Within.le {i k : Nat} {es : List (Edit α)} (h : Within i k es) : i ≤ k := by
  induction es generalizing i with
  | nil => exact h
  | cons e es ih =>
      have := ih h.2.2
      have := h.1
      have := h.2.1
      omega

theorem Within.mono_left {i i' k : Nat} {es : List (Edit α)} (h : Within i k es)
    (hi : i' ≤ i) : Within i' k es := by
  cases es with
  | nil => exact Nat.le_trans hi h
  | cons e es => exact ⟨Nat.le_trans hi h.1, h.2⟩

theorem Within.append {i m k : Nat} {es fs : List (Edit α)} (he : Within i m es)
    (hf : Within m k fs) : Within i k (es ++ fs) := by
  induction es generalizing i with
  | nil => exact hf.mono_left he
  | cons e es ih => exact ⟨he.1, he.2.1, ih he.2.2⟩

/-- Every edit of a script is an in-bounds range. -/
theorem Within.mem {i k : Nat} {es : List (Edit α)} (h : Within i k es) {e : Edit α}
    (he : e ∈ es) : i ≤ e.start ∧ e.start ≤ e.stop ∧ e.stop ≤ k := by
  induction es generalizing i with
  | nil => cases he
  | cons d es ih =>
      rcases List.mem_cons.mp he with rfl | he
      · exact ⟨h.1, h.2.1, h.2.2.le⟩
      · obtain ⟨hs, hse, hk⟩ := ih h.2.2 he
        have := h.1
        have := h.2.1
        exact ⟨by omega, hse, hk⟩

theorem Within.pairwise {i k : Nat} {es : List (Edit α)} (h : Within i k es) :
    es.Pairwise fun e f => e.stop ≤ f.start := by
  induction es generalizing i with
  | nil => exact .nil
  | cons e es ih =>
      exact List.pairwise_cons.mpr ⟨fun f hf => (h.2.2.mem hf).1, ih h.2.2⟩

/-- The items of `i..k` after the edits between them. -/
def rewrite (xs : List α) : Nat → Nat → List (Edit α) → List α
  | i, k, [] => slice xs i k
  | i, k, e :: es => slice xs i e.start ++ e.replacement ++ rewrite xs e.stop k es

/-- The edited sequence. -/
def apply (xs : List α) (es : List (Edit α)) : List α := rewrite xs 0 xs.length es

/-- A script may be entered earlier: the items skipped over are copied. -/
theorem rewrite_skip (xs : List α) {i m k : Nat} {es : List (Edit α)} (hi : i ≤ m)
    (h : Within m k es) : rewrite xs i k es = slice xs i m ++ rewrite xs m k es := by
  cases es with
  | nil => exact (slice_append_slice xs hi h).symm
  | cons e es =>
      simp only [rewrite, ← List.append_assoc]
      rw [slice_append_slice xs hi h.1]

theorem rewrite_append {xs : List α} {i m k : Nat} {es fs : List (Edit α)}
    (he : Within i m es) (hf : Within m k fs) :
    rewrite xs i k (es ++ fs) = rewrite xs i m es ++ rewrite xs m k fs := by
  induction es generalizing i with
  | nil => exact rewrite_skip xs he hf
  | cons e es ih =>
      simp only [List.cons_append, rewrite, List.append_assoc]
      rw [ih he.2.2]

/-- Number of items a script removes. -/
def removed (es : List (Edit α)) : Nat := (es.map fun e => e.stop - e.start).sum

/-- Number of items a script adds. -/
def added (es : List (Edit α)) : Nat := (es.map fun e => e.replacement.length).sum

theorem removed_le {i k : Nat} {es : List (Edit α)} (h : Within i k es) :
    removed es ≤ k - i := by
  induction es generalizing i with
  | nil => simp [removed]
  | cons e es ih =>
      have rest := ih h.2.2
      have := h.1
      have := h.2.1
      have := h.2.2.le
      simp only [removed, List.map_cons, List.sum_cons] at rest ⊢
      omega

theorem rewrite_length {xs : List α} {i k : Nat} {es : List (Edit α)}
    (h : Within i k es) (hk : k ≤ xs.length) :
    (rewrite xs i k es).length + removed es = (k - i) + added es := by
  induction es generalizing i with
  | nil => simp [rewrite, removed, added, slice_length xs _ hk]
  | cons e es ih =>
      have rest := ih h.2.2
      have first := h.1
      have range := h.2.1
      have last := h.2.2.le
      have gap := slice_length xs i (show e.start ≤ xs.length by omega)
      simp only [rewrite, removed, added, List.map_cons, List.sum_cons,
        List.length_append] at rest ⊢
      omega

theorem replacement_length_le {es : List (Edit α)} {e : Edit α} (h : e ∈ es) :
    e.replacement.length ≤ added es :=
  List.single_le_sum (by simp) _ (List.mem_map_of_mem h)

theorem added_le_apply {xs : List α} {es : List (Edit α)} (h : Within 0 xs.length es) :
    added es ≤ (apply xs es).length := by
  have lengths := rewrite_length h (Nat.le_refl _)
  have := removed_le h
  simp only [apply]
  omega

/-! ## Building a script region by region -/

/-- The edits turn `xs` between `i` and `i'` into `ys` between `j` and `j'`. -/
structure Rewrites (xs ys : List α) (i j : Nat) (es : List (Edit α)) (i' j' : Nat) : Prop where
  within : Within i i' es
  target : j ≤ j'
  source_le : i' ≤ xs.length
  target_le : j' ≤ ys.length
  result : rewrite xs i i' es = slice ys j j'

namespace Rewrites

variable {xs ys : List α} {i j i' j' i'' j'' : Nat} {es fs : List (Edit α)}

theorem refl (hi : i ≤ xs.length) (hj : j ≤ ys.length) : Rewrites xs ys i j [] i j :=
  ⟨Nat.le_refl _, Nat.le_refl _, hi, hj, by simp [rewrite]⟩

/-- Equal stretches need no edit. -/
theorem copy (hi : i ≤ i') (hj : j ≤ j') (hx : i' ≤ xs.length) (hy : j' ≤ ys.length)
    (h : slice xs i i' = slice ys j j') : Rewrites xs ys i j [] i' j' :=
  ⟨hi, hj, hx, hy, h⟩

/-- Any stretch can be replaced as a whole. -/
theorem replace (hi : i ≤ i') (hj : j ≤ j') (hx : i' ≤ xs.length) (hy : j' ≤ ys.length) :
    Rewrites xs ys i j [⟨i, i', slice ys j j'⟩] i' j' :=
  ⟨⟨Nat.le_refl _, hi, Nat.le_refl _⟩, hj, hx, hy, by simp [rewrite]⟩

theorem trans (first : Rewrites xs ys i j es i' j') (second : Rewrites xs ys i' j' fs i'' j'') :
    Rewrites xs ys i j (es ++ fs) i'' j'' := by
  refine ⟨first.within.append second.within, first.target.trans second.target,
    second.source_le, second.target_le, ?_⟩
  rw [rewrite_append first.within second.within, first.result, second.result,
    slice_append_slice ys first.target second.target]

/-- A script that spans both sequences rewrites one into the other. -/
theorem apply_eq (h : Rewrites xs ys 0 0 es xs.length ys.length) : apply xs es = ys := by
  rw [apply, h.result, slice_zero_length]

end Rewrites

/-! ## Commuting scripts -/

/-- The amount by which an edit moves everything behind it. -/
def Edit.delta (e : Edit α) : Int := e.replacement.length - (e.stop - e.start : Nat)

def Edit.shift (e : Edit α) (offset : Int) : Edit α :=
  { e with start := (e.start + offset).toNat, stop := (e.stop + offset).toNat }

/-- Move a script past another one: every edit is shifted by the edits of the
other script that lie before it. `offset` is the shift accumulated so far. -/
def translate (offset : Int) : List (Edit α) → List (Edit α) → List (Edit α)
  | [], _ => []
  | p :: ps, [] => p.shift offset :: translate offset ps []
  | p :: ps, q :: qs =>
      if q.stop < p.start then translate (offset + q.delta) (p :: ps) qs
      else p.shift offset :: translate offset ps (q :: qs)
termination_by ps qs => ps.length + qs.length

/-- The edits of both scripts in order of position. -/
def merge : List (Edit α) → List (Edit α) → List (Edit α)
  | [], qs => qs
  | p :: ps, [] => p :: ps
  | p :: ps, q :: qs =>
      if q.stop < p.start then q :: merge (p :: ps) qs else p :: merge ps (q :: qs)
termination_by ps qs => ps.length + qs.length

/-- No edit of one script touches an edit of the other. -/
def Apart (ps qs : List (Edit α)) : Prop :=
  ∀ p ∈ ps, ∀ q ∈ qs, p.stop < q.start ∨ q.stop < p.start

theorem Apart.symm {ps qs : List (Edit α)} (h : Apart ps qs) : Apart qs ps :=
  fun q hq p hp => (h p hp q hq).symm

theorem Apart.tail_left {p : Edit α} {ps qs : List (Edit α)} (h : Apart (p :: ps) qs) :
    Apart ps qs :=
  fun a ha => h a (List.mem_cons_of_mem p ha)

theorem Apart.tail_right {q : Edit α} {ps qs : List (Edit α)} (h : Apart ps (q :: qs)) :
    Apart ps qs :=
  fun a ha b hb => h a ha b (List.mem_cons_of_mem q hb)

/-- With one script exhausted, the other is shifted as a whole. -/
@[simp] theorem translate_nil_left (offset : Int) (qs : List (Edit α)) :
    translate offset [] qs = [] := by
  simp [translate]

@[simp] theorem merge_nil_left (qs : List (Edit α)) : merge [] qs = qs := by
  simp [merge]

@[simp] theorem merge_nil_right (ps : List (Edit α)) : merge ps [] = ps := by
  cases ps <;> simp [merge]

theorem merge_comm {i k : Nat} {ps qs : List (Edit α)} (hp : Within i k ps)
    (hq : Within i k qs) (apart : Apart ps qs) : merge ps qs = merge qs ps := by
  induction ps, qs using EditScript.merge.induct generalizing i with
  | case1 qs => simp
  | case2 p ps => simp
  | case3 p ps q qs before ih =>
      have notAfter : ¬ p.stop < q.start := by
        have := hp.2.1
        have := hq.2.1
        omega
      rw [merge, if_pos before, merge, if_neg notAfter,
        ih (i := q.stop) ⟨Nat.le_of_lt before, hp.2⟩ hq.2.2 apart.tail_right]
  | case4 p ps q qs before ih =>
      have behind : p.stop < q.start :=
        (apart p (by simp) q (by simp)).resolve_right before
      rw [merge, if_neg before, merge, if_pos behind,
        ih (i := p.stop) hp.2.2 ⟨Nat.le_of_lt behind, hq.2⟩ apart.tail_left]

/-- One translated edit: the items up to it were copied into the other script's
result behind `pre`, so the shifted range covers the same items there. -/
private theorem translate_keep {xs pre tail merged : List α} {i : Nat} {offset : Int}
    {p : Edit α} {rest : List (Edit α)} (hpre : (pre.length : Int) = i + offset)
    (hi : i ≤ p.start) (range : p.start ≤ p.stop) (hn : p.stop ≤ xs.length)
    (ih : Within (pre ++ slice xs i p.stop).length (pre ++ slice xs i p.stop ++ tail).length rest ∧
      rewrite (pre ++ slice xs i p.stop ++ tail) (pre ++ slice xs i p.stop).length
        (pre ++ slice xs i p.stop ++ tail).length rest = merged) :
    Within pre.length (pre ++ slice xs i p.stop ++ tail).length (p.shift offset :: rest) ∧
      rewrite (pre ++ slice xs i p.stop ++ tail) pre.length
        (pre ++ slice xs i p.stop ++ tail).length (p.shift offset :: rest) =
          slice xs i p.start ++ p.replacement ++ merged := by
  have copied := slice_length xs i hn
  have start : (p.shift offset).start = pre.length + (p.start - i) := by
    simp only [Edit.shift]
    omega
  have stop : (p.shift offset).stop = (pre ++ slice xs i p.stop).length := by
    simp only [Edit.shift, List.length_append, copied]
    omega
  have gap : slice (pre ++ slice xs i p.stop ++ tail) pre.length (pre.length + (p.start - i)) =
      slice xs i p.start := by
    have whole : slice xs i p.stop = slice xs i p.start ++ slice xs p.start p.stop :=
      (slice_append_slice xs hi range).symm
    have length := slice_length xs i (show p.start ≤ xs.length by omega)
    have front := slice_append_right pre (slice xs i p.stop ++ tail) 0 (p.start - i)
    rw [Nat.add_zero] at front
    rw [List.append_assoc, front, whole, List.append_assoc, slice_append_left (by omega),
      ← length, slice_zero_length]
  refine ⟨⟨?_, ?_, ?_⟩, ?_⟩
  · rw [start]
    omega
  · rw [start, stop, List.length_append, copied]
    omega
  · rw [stop]
    exact ih.1
  · rw [rewrite, start, stop, gap, ih.2]
    rfl

/-- Running `ps`, translated past `qs`, on what `qs` has produced gives the merged
result. `pre` is the part already produced when position `i` is reached. -/
private theorem translate_from {xs : List α} (pre : List α) {i : Nat} {offset : Int}
    {ps qs : List (Edit α)} (hpre : (pre.length : Int) = i + offset)
    (hp : Within i xs.length ps) (hq : Within i xs.length qs) (apart : Apart ps qs) :
    Within pre.length (pre ++ rewrite xs i xs.length qs).length (translate offset ps qs) ∧
      rewrite (pre ++ rewrite xs i xs.length qs) pre.length
        (pre ++ rewrite xs i xs.length qs).length (translate offset ps qs) =
          rewrite xs i xs.length (merge ps qs) := by
  induction offset, ps, qs using translate.induct generalizing i pre with
  | case1 offset qs =>
      simp only [translate_nil_left, merge_nil_left, Within, rewrite, slice_to_length]
      exact ⟨by simp, by simp⟩
  | case2 offset p ps ih =>
      have skip := rewrite_skip xs (Nat.le_trans hp.1 hp.2.1)
        (show Within p.stop xs.length ([] : List (Edit α)) from hp.2.2.le)
      have copied := slice_length xs i hp.2.2.le
      have next := ih (i := p.stop) (pre ++ slice xs i p.stop)
        (by
          have := hp.1
          have := hp.2.1
          simp only [List.length_append, copied]
          omega)
        hp.2.2 hp.2.2.le apart.tail_left
      rw [skip, ← List.append_assoc, translate, merge_nil_right]
      rw [merge_nil_right] at next
      exact translate_keep hpre hp.1 hp.2.1 hp.2.2.le next
  | case3 offset p ps q qs before ih =>
      have copied := slice_length xs i
        (Nat.le_trans hq.2.1 hq.2.2.le)
      have hlen : ((pre ++ slice xs i q.start ++ q.replacement).length : Int) =
          q.stop + (offset + q.delta) := by
        have := hq.1
        have := hq.2.1
        simp only [List.length_append, copied, Edit.delta]
        omega
      have next := ih (i := q.stop) (pre ++ slice xs i q.start ++ q.replacement) hlen
        ⟨Nat.le_of_lt before, hp.2⟩ hq.2.2 apart.tail_right
      rw [translate, if_pos before, merge, if_pos before]
      simp only [rewrite, ← List.append_assoc]
      -- Everything up to `q.stop` is produced already; the translated script starts behind it.
      have enter := rewrite_skip (i := pre.length)
        (pre ++ slice xs i q.start ++ q.replacement ++ rewrite xs q.stop xs.length qs)
        (by simp only [List.length_append]; omega) next.1
      refine ⟨next.1.mono_left (by simp only [List.length_append]; omega), ?_⟩
      rw [enter, next.2]
      congr 1
      have produced := slice_append_right pre
        (slice xs i q.start ++ q.replacement ++ rewrite xs q.stop xs.length qs)
        0 (slice xs i q.start ++ q.replacement).length
      rw [Nat.add_zero] at produced
      simp only [List.append_assoc, List.length_append] at produced ⊢
      rw [produced, ← List.append_assoc, ← List.length_append,
        slice_append_left (Nat.le_refl _), slice_zero_length]
  | case4 offset p ps q qs before ih =>
      have behind : p.stop < q.start :=
        (apart p (by simp) q (by simp)).resolve_right before
      have later : Within p.stop xs.length (q :: qs) := ⟨Nat.le_of_lt behind, hq.2⟩
      have skip := rewrite_skip xs (Nat.le_trans hp.1 hp.2.1) later
      have copied := slice_length xs i hp.2.2.le
      have next := ih (i := p.stop) (pre ++ slice xs i p.stop)
        (by
          have := hp.1
          have := hp.2.1
          simp only [List.length_append, copied]
          omega)
        hp.2.2 later apart.tail_left
      rw [translate, if_neg before, merge, if_neg before, skip, ← List.append_assoc]
      exact translate_keep hpre hp.1 hp.2.1 hp.2.2.le next

variable {xs : List α} {ps qs : List (Edit α)}

/-- A translated script is a script on the other script's result. -/
theorem translate_within (hp : Within 0 xs.length ps) (hq : Within 0 xs.length qs)
    (apart : Apart ps qs) : Within 0 (apply xs qs).length (translate 0 ps qs) := by
  simpa [apply] using (translate_from [] rfl hp hq apart).1

theorem apply_translate (hp : Within 0 xs.length ps) (hq : Within 0 xs.length qs)
    (apart : Apart ps qs) : apply (apply xs qs) (translate 0 ps qs) = apply xs (merge ps qs) := by
  simpa [apply] using (translate_from [] rfl hp hq apart).2

/-- Scripts that stay apart commute. -/
theorem apply_comm (hp : Within 0 xs.length ps) (hq : Within 0 xs.length qs)
    (apart : Apart ps qs) :
    apply (apply xs qs) (translate 0 ps qs) = apply (apply xs ps) (translate 0 qs ps) := by
  rw [apply_translate hp hq apart, apply_translate hq hp apart.symm, merge_comm hp hq apart]

end EditScript
