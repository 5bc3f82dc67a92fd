import Mathlib

/-!
# Instants

A date and time of the Gregorian calendar as a number of seconds, and a fraction of a second
given by decimal digits. Comparing the components one after the other, and then the digits
with zeros filled in, compares the instants.
-/

namespace Instant

/-! ## Comparing in turn -/

section

variable {α β : Type} [LinearOrder α] [LinearOrder β] {a a' : α} {b b' : β} {rest : Ordering}

/-- A component decides when it differs, and leaves the rest to decide when it does not. -/
theorem compare_then (less : a < a' → b < b') (greater : a' < a → b' < b)
    (same : a = a' → rest = compare b b') : (compare a a').then rest = compare b b' := by
  rcases lt_trichotomy a a' with lt | eq | gt
  · rw [compare_lt_iff_lt.mpr lt, compare_lt_iff_lt.mpr (less lt)]
    rfl
  · rw [compare_eq_iff_eq.mpr eq, same eq]
    rfl
  · rw [compare_gt_iff_gt.mpr gt, compare_gt_iff_gt.mpr (greater gt)]
    rfl

theorem compare_congr (less : a < a' → b < b') (greater : a' < a → b' < b)
    (same : a = a' → b = b') :
    compare a a' = compare b b' := by
  rw [← compare_then less greater fun eq => (compare_eq_iff_eq.mpr (same eq)).symm]
  cases compare a a' <;> rfl

end

/-! ## The calendar -/

def leapYear (year : Nat) : Bool := year % 4 == 0 && (year % 100 != 0 || year % 400 == 0)

def monthDays (year month : Nat) : Nat :=
  match month with
  | 2 => if leapYear year then 29 else 28
  | 4 | 6 | 9 | 11 => 30
  | _ => 31

def yearDays (year : Nat) : Nat := if leapYear year then 366 else 365

/-- The days before a year, from the year 1 on. -/
def daysBeforeYear (year : Nat) : Nat :=
  365 * (year - 1) + (year - 1) / 4 - (year - 1) / 100 + (year - 1) / 400

/-- The days of a year before a month. -/
def daysBeforeMonth (year month : Nat) : Nat :=
  ((List.range' 1 (month - 1)).map (monthDays year)).sum

theorem leapYear_iff {year : Nat} :
    leapYear year = true ↔ 4 ∣ year ∧ (¬ 100 ∣ year ∨ 400 ∣ year) := by
  simp [leapYear, Nat.dvd_iff_mod_eq_zero]

theorem daysBeforeYear_succ {year : Nat} (positive : 0 < year) :
    daysBeforeYear (year + 1) = daysBeforeYear year + yearDays year := by
  obtain ⟨n, rfl⟩ := Nat.exists_eq_add_of_le' positive
  have fewer : n / 100 ≤ n / 4 := Nat.div_le_div_left (by decide) (by decide)
  have century : 100 ∣ n + 1 → 4 ∣ n + 1 := (Nat.dvd_trans (by decide) ·)
  have fourth : 400 ∣ n + 1 → 100 ∣ n + 1 := (Nat.dvd_trans (by decide) ·)
  simp only [daysBeforeYear, yearDays, leapYear_iff, Nat.add_sub_cancel, Nat.succ_eq_add_one,
    Nat.zero_add, Nat.succ_div]
  generalize n / 4 = a, n / 100 = b, n / 400 = c at *
  by_cases h₁ : 4 ∣ n + 1 <;> by_cases h₂ : 100 ∣ n + 1 <;> by_cases h₃ : 400 ∣ n + 1 <;>
    simp only [h₁, h₂, h₃, if_true, if_false, not_true, not_false_iff, true_and, false_and,
      or_true, or_false, forall_const] at * <;> omega

theorem daysBeforeYear_add_le {year later : Nat} (positive : 0 < year) (before : year < later) :
    daysBeforeYear year + yearDays year ≤ daysBeforeYear later := by
  induction later, before using Nat.le_induction with
  | base => exact (daysBeforeYear_succ positive).ge
  | succ later before ih =>
      have step : daysBeforeYear (later + 1) = _ := daysBeforeYear_succ (by omega)
      omega

theorem daysBeforeMonth_succ {year month : Nat} (positive : 0 < month) :
    daysBeforeMonth year (month + 1) = daysBeforeMonth year month + monthDays year month := by
  obtain ⟨n, rfl⟩ := Nat.exists_eq_add_of_le' positive
  simp [daysBeforeMonth, List.range'_concat, Nat.add_comm 1 n]

theorem daysBeforeMonth_add_le {year month later : Nat} (positive : 0 < month)
    (before : month < later) :
    daysBeforeMonth year month + monthDays year month ≤ daysBeforeMonth year later := by
  induction later, before using Nat.le_induction with
  | base => exact (daysBeforeMonth_succ positive).ge
  | succ later before ih =>
      have step : daysBeforeMonth year (later + 1) = _ := daysBeforeMonth_succ (by omega)
      omega

theorem daysBeforeMonth_thirteen (year : Nat) : daysBeforeMonth year 13 = yearDays year := by
  cases leap : leapYear year <;> simp [daysBeforeMonth, List.range', monthDays, yearDays, leap]

structure Civil where
  year : Nat
  month : Nat
  day : Nat
  hour : Nat
  minute : Nat
  second : Nat
  deriving DecidableEq, Repr

namespace Civil

/-- A date of the calendar and a time of the day. -/
structure Valid (c : Civil) : Prop where
  year : 0 < c.year
  month : 1 ≤ c.month ∧ c.month ≤ 12
  day : 1 ≤ c.day ∧ c.day ≤ monthDays c.year c.month
  hour : c.hour < 24
  minute : c.minute < 60
  second : c.second < 60

def days (c : Civil) : Nat := daysBeforeYear c.year + daysBeforeMonth c.year c.month + (c.day - 1)

def seconds (c : Civil) : Nat := ((c.days * 24 + c.hour) * 60 + c.minute) * 60 + c.second

/-- Component by component. -/
def compare (a b : Civil) : Ordering :=
  (Ord.compare a.year b.year).then <| (Ord.compare a.month b.month).then <|
    (Ord.compare a.day b.day).then <| (Ord.compare a.hour b.hour).then <|
      (Ord.compare a.minute b.minute).then (Ord.compare a.second b.second)

variable {a b : Civil}

theorem Valid.dayOfYear (valid : a.Valid) :
    daysBeforeMonth a.year a.month + (a.day - 1) < yearDays a.year := by
  have last := valid.month.2
  have whole : daysBeforeMonth a.year a.month + _ ≤ daysBeforeMonth a.year 13 :=
    daysBeforeMonth_add_le valid.month.1 (by omega)
  rw [daysBeforeMonth_thirteen] at whole
  have day := valid.day
  omega

theorem days_lt_of_year (valid : a.Valid) (earlier : a.year < b.year) : a.days < b.days := by
  have year := daysBeforeYear_add_le valid.year earlier
  have day := valid.dayOfYear
  unfold days
  omega

theorem days_lt_of_month (valid : a.Valid) (year : a.year = b.year) (earlier : a.month < b.month) :
    a.days < b.days := by
  have month : daysBeforeMonth a.year a.month + _ ≤ daysBeforeMonth a.year b.month :=
    daysBeforeMonth_add_le valid.month.1 earlier
  have day := valid.day
  unfold days
  rw [← year]
  omega

theorem days_lt_of_day (valid : a.Valid) (year : a.year = b.year) (month : a.month = b.month)
    (earlier : a.day < b.day) : a.days < b.days := by
  have day := valid.day
  unfold days
  rw [← year, ← month]
  omega

/-- Comparing the components compares the seconds. -/
theorem compare_eq (left : a.Valid) (right : b.Valid) :
    a.compare b = Ord.compare a.seconds b.seconds := by
  have ahour := left.hour
  have bhour := right.hour
  have aminute := left.minute
  have bminute := right.minute
  have asecond := left.second
  have bsecond := right.second
  have before (h : a.days < b.days) : a.seconds < b.seconds := by unfold seconds; omega
  have after (h : b.days < a.days) : b.seconds < a.seconds := by unfold seconds; omega
  refine compare_then (fun h => before (days_lt_of_year left h))
    (fun h => after (days_lt_of_year right h)) fun year => ?_
  refine compare_then (fun h => before (days_lt_of_month left year h))
    (fun h => after (days_lt_of_month right year.symm h)) fun month => ?_
  refine compare_then (fun h => before (days_lt_of_day left year month h))
    (fun h => after (days_lt_of_day right year.symm month.symm h)) fun day => ?_
  have days : a.days = b.days := by rw [Civil.days, Civil.days, year, month, day]
  unfold seconds
  rw [days]
  refine compare_then (by omega) (by omega) fun hour => ?_
  refine compare_then (by omega) (by omega) fun minute => ?_
  exact compare_congr (by omega) (by omega) (by omega)

end Civil

/-! ## Decimal digits -/

def digit (c : Char) : Nat := c.toNat - 48

/-- The number that a text of digits writes. -/
def value (text : List Char) : Nat := text.foldl (fun n c => 10 * n + digit c) 0

/-- The fraction that the digits after a point write. -/
def fraction : List Char → ℚ
  | [] => 0
  | c :: text => (digit c + fraction text) / 10

def compareChar (c d : Char) : Ordering := compare c.toNat d.toNat

/-- Character by character, from the left. -/
def compareText (left right : List Char) : Ordering := left.compareLex compareChar right

/-- Digit by digit, with zeros filled in up to a width. -/
def comparePadded (width : Nat) (left right : List Char) : Ordering :=
  (((List.range width).map fun i =>
    compareChar (left.getD i '0') (right.getD i '0')).find? (· ≠ .eq)).getD .eq

/-- A text of digits only. -/
def Digits (text : List Char) : Prop := ∀ c ∈ text, c.isDigit

instance : DecidablePred Digits := fun text => List.decidableBAll _ text

section

variable {c d : Char} {left right : List Char}

theorem isDigit_toNat (h : c.isDigit) : 48 ≤ c.toNat ∧ c.toNat ≤ 57 := by
  simp only [Char.isDigit, Bool.and_eq_true, decide_eq_true_eq] at h
  exact h

theorem digit_le (h : c.isDigit) : digit c ≤ 9 := by
  have range := isDigit_toNat h
  unfold digit
  omega

theorem compareChar_self : compareChar c c = .eq := compare_eq_iff_eq.mpr rfl

theorem compareChar_eq (hc : c.isDigit) (hd : d.isDigit) :
    compareChar c d = compare (digit c) (digit d) := by
  have cRange := isDigit_toNat hc
  have dRange := isDigit_toNat hd
  unfold compareChar digit
  exact compare_congr (by omega) (by omega) (by omega)

theorem foldl_value {n : Nat} {text : List Char} :
    text.foldl (fun n c => 10 * n + digit c) n = n * 10 ^ text.length + value text := by
  induction text generalizing n with
  | nil => simp [value]
  | cons c text ih =>
      rw [value, List.foldl_cons, List.foldl_cons, ih, ih, List.length_cons, pow_succ]
      ring

theorem value_cons {text : List Char} :
    value (c :: text) = digit c * 10 ^ text.length + value text := by
  rw [value, List.foldl_cons, foldl_value]
  simp

theorem value_lt {text : List Char} (digits : Digits text) : value text < 10 ^ text.length := by
  induction text with
  | nil => simp [value]
  | cons c text ih =>
      have first := digit_le (digits c (by simp))
      have rest := ih fun d member => digits d (by simp [member])
      rw [value_cons, List.length_cons, pow_succ]
      have bound := Nat.mul_le_mul_right (10 ^ text.length) first
      omega

theorem compareText_append {x x' y y' : List Char} (same : x.length = x'.length) :
    compareText (x ++ y) (x' ++ y') = (compareText x x').then (compareText y y') := by
  unfold compareText
  induction x generalizing x' with
  | nil =>
      obtain rfl : x' = [] := List.length_eq_zero_iff.mp same.symm
      rfl
  | cons c x ih =>
      cases x' with
      | nil => cases same
      | cons c' x' =>
          rw [List.cons_append, List.cons_append, List.compareLex_cons_cons,
            List.compareLex_cons_cons, ih (Nat.succ.inj same), Ordering.then_assoc]

/-- Texts of digits of one length compare as the numbers they write. -/
theorem compareText_eq (same : left.length = right.length) (hl : Digits left) (hr : Digits right) :
    compareText left right = compare (value left) (value right) := by
  induction left generalizing right with
  | nil =>
      obtain rfl : right = [] := List.length_eq_zero_iff.mp same.symm
      rfl
  | cons c left ih =>
      cases right with
      | nil => cases same
      | cons d right =>
          have hl' : Digits left := fun e member => hl e (by simp [member])
          have hr' : Digits right := fun e member => hr e (by simp [member])
          have same := Nat.succ.inj same
          have lbound := value_lt hl'
          have rbound := value_lt hr'
          rw [same] at lbound
          rw [compareText, List.compareLex_cons_cons, ← compareText, ih same hl' hr',
            compareChar_eq (hl c (by simp)) (hr d (by simp)), value_cons, value_cons, same]
          refine compare_then (fun lt => ?_) (fun gt => ?_) fun eq => ?_
          · have step := Nat.mul_le_mul_right (10 ^ right.length) lt
            rw [Nat.succ_mul] at step
            omega
          · have step := Nat.mul_le_mul_right (10 ^ right.length) gt
            rw [Nat.succ_mul] at step
            omega
          · rw [eq]
            exact compare_congr (by omega) (by omega) (by omega)

theorem fraction_nonneg {text : List Char} : 0 ≤ fraction text := by
  induction text with
  | nil => exact le_rfl
  | cons c text ih =>
      unfold fraction
      positivity

theorem fraction_lt_one {text : List Char} (digits : Digits text) : fraction text < 1 := by
  induction text with
  | nil => exact zero_lt_one
  | cons c text ih =>
      have first : (digit c : ℚ) ≤ 9 := by exact_mod_cast digit_le (digits c (by simp))
      have rest := ih fun d member => digits d (by simp [member])
      rw [fraction, div_lt_one (by norm_num)]
      linarith

theorem fraction_eq (text : List Char) :
    fraction text = (digit (text.getD 0 '0') + fraction text.tail) / 10 := by
  cases text with
  | nil => simp [fraction, digit]
  | cons c text => rfl

theorem comparePadded_succ {width : Nat} :
    comparePadded (width + 1) left right =
      (compareChar (left.getD 0 '0') (right.getD 0 '0')).then
        (comparePadded width left.tail right.tail) := by
  have shift (text : List Char) (i : Nat) : text.getD (i + 1) '0' = text.tail.getD i '0' := by
    cases text <;> rfl
  rw [comparePadded, List.range_succ_eq_map, List.map_cons, List.find?_cons, List.map_map]
  cases first : compareChar (left.getD 0 '0') (right.getD 0 '0') with
  | lt | gt => rfl
  | eq =>
      simp only [ne_eq, not_true_eq_false, decide_false, Function.comp_def, Nat.succ_eq_add_one,
        shift]
      rfl

theorem Digits.head {text : List Char} (digits : Digits text) : (text.getD 0 '0').isDigit := by
  cases text with
  | nil => rfl
  | cons c text => exact digits c (by simp)

theorem Digits.tail {text : List Char} (digits : Digits text) : Digits text.tail :=
  fun c member => digits c (List.mem_of_mem_tail member)

/-- With zeros filled in, digits compare as the fractions they write. -/
theorem comparePadded_eq {width : Nat} (ll : left.length ≤ width) (lr : right.length ≤ width)
    (hl : Digits left) (hr : Digits right) :
    comparePadded width left right = compare (fraction left) (fraction right) := by
  induction width generalizing left right with
  | zero =>
      obtain rfl := List.length_eq_zero_iff.mp (Nat.le_zero.mp ll)
      obtain rfl := List.length_eq_zero_iff.mp (Nat.le_zero.mp lr)
      exact (compare_eq_iff_eq.mpr rfl).symm
  | succ width ih =>
      have rest :=
        ih (by rw [List.length_tail]; omega) (by rw [List.length_tail]; omega) hl.tail hr.tail
      have lfrac := fraction_lt_one hl.tail
      have rfrac := fraction_lt_one hr.tail
      have lpos := @fraction_nonneg left.tail
      have rpos := @fraction_nonneg right.tail
      rw [comparePadded_succ, rest, compareChar_eq hl.head hr.head, fraction_eq left,
        fraction_eq right]
      refine compare_then (fun lt => ?_) (fun gt => ?_) fun eq => ?_
      · have step :
            (digit (left.getD 0 '0') : ℚ) + 1 ≤ digit (right.getD 0 '0') := by exact_mod_cast lt
        linarith
      · have step :
            (digit (right.getD 0 '0') : ℚ) + 1 ≤ digit (left.getD 0 '0') := by exact_mod_cast gt
        linarith
      · rw [eq]
        exact compare_congr (by intro; linarith) (by intro; linarith) (by intro h; rw [h])

end

end Instant
