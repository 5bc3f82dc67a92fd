import Stratadiff.Lib.Metered
import Stratadiff.Verifier.Report

/-!
# The work budget

Every pass of the verifier takes the budget along and only charges it. What a pass has
charged is added up in the budget, and a charge that would exceed the limit ends the
verification.
-/

namespace Stratadiff

structure Charge where
  amount : Nat
  context : String
  deriving DecidableEq, Repr

def WorkBudget.pay (charge : Charge) (work : WorkBudget) : Result WorkBudget :=
  work.charge charge.amount charge.context

/-- A pass of the verifier. -/
abbrev Check := Metered WorkBudget.pay

def charge (amount : Nat) (context : String) : Check Unit := Metered.pay ⟨amount, context⟩

def chargeProduct (left right : Nat) (context : String) : Check Unit := do
  let amount ← Result.ofOption
    (.budget s!"verification work exceeds usize capacity while {context}")
    (checkedMul left right)
  charge amount context

/-- The number of bits of `len - 1`, and at least one. -/
def mapLookupLevels (len : Nat) : Nat := if len ≤ 1 then 1 else (len - 1).log2 + 1

def chargeNLogN (len : Nat) (context : String) : Check Unit :=
  chargeProduct len (mapLookupLevels len) context

/-- What the budget says when a charge would take it to `next`. -/
def workLimitExceeded (next limit : Nat) (context : String) : Failure :=
  .budget s!"verification work limit exceeded: observed {next}, limit {limit}, while {context}"

/-! ## What a budget pays -/

def totalWork (charges : List Charge) : Nat := (charges.map Charge.amount).sum

section

variable {charges charges' : List Charge} {limit used : Nat} {work work' : WorkBudget}

@[simp] theorem totalWork_nil : totalWork [] = 0 := rfl

@[simp] theorem totalWork_cons {first : Charge} :
    totalWork (first :: charges) = first.amount + totalWork charges := List.sum_cons

theorem totalWork_perm (perm : charges.Perm charges') : totalWork charges = totalWork charges' :=
  (perm.map Charge.amount).sum_eq

theorem charge_of_le {amount : Nat} {context : String} (capacity : used + amount ≤ usizeMax)
    (within : used + amount ≤ limit) :
    WorkBudget.charge ⟨limit, used⟩ amount context = .ok ⟨limit, used + amount⟩ := by
  rw [WorkBudget.charge, checkedAdd_of_le capacity]
  show (Result.ensure (used + amount ≤ limit) _ >>= fun _ => _) = _
  rw [Result.ensure_of within]
  rfl

theorem charge_of_lt {amount : Nat} {context : String} (capacity : used + amount ≤ usizeMax)
    (exceeds : limit < used + amount) :
    WorkBudget.charge ⟨limit, used⟩ amount context =
      .error (workLimitExceeded (used + amount) limit context) := by
  rw [WorkBudget.charge, checkedAdd_of_le capacity]
  show (Result.ensure (used + amount ≤ limit) _ >>= fun _ => _) = _
  rw [Result.ensure, if_neg (Nat.not_le.mpr exceeds)]
  rfl

theorem charge_eq_ok {amount : Nat} {context : String}
    (paid : WorkBudget.charge work amount context = .ok work') :
    work.used + amount ≤ usizeMax ∧ work.used + amount ≤ work.limit ∧
      work' = ⟨work.limit, work.used + amount⟩ := by
  obtain ⟨next, added, paid⟩ := Result.ofOption_bind_eq_ok.mp paid
  obtain ⟨within, paid⟩ := Result.check_bind_eq_ok.mp paid
  obtain ⟨capacity, rfl⟩ := checkedAdd_eq_some.mp added
  rw [Result.ensure_eq_ok] at within
  cases paid
  exact ⟨capacity, within, rfl⟩

/-- Charges that fit are added up. -/
theorem spend_of_le (capacity : used + totalWork charges ≤ usizeMax)
    (within : used + totalWork charges ≤ limit) :
    Metered.spend WorkBudget.pay charges ⟨limit, used⟩ =
      .ok ⟨limit, used + totalWork charges⟩ := by
  induction charges generalizing used with
  | nil => rfl
  | cons first charges ih =>
      rw [totalWork_cons, ← Nat.add_assoc] at *
      rw [Metered.spend, WorkBudget.pay, charge_of_le (Nat.le_of_add_right_le capacity)
        (Nat.le_of_add_right_le within), Result.ok_bind]
      exact ih capacity within

/-- Charges that do not fit are refused at the first that exceeds the limit. -/
theorem spend_of_lt (capacity : used + totalWork charges ≤ usizeMax) (below : used ≤ limit)
    (exceeds : limit < used + totalWork charges) :
    ∃ next context, limit < next ∧ next ≤ used + totalWork charges ∧
      Metered.spend WorkBudget.pay charges ⟨limit, used⟩ =
        .error (workLimitExceeded next limit context) := by
  induction charges generalizing used with
  | nil => exact absurd exceeds (Nat.not_lt.mpr below)
  | cons first charges ih =>
      rw [totalWork_cons, ← Nat.add_assoc] at *
      rw [Metered.spend, WorkBudget.pay]
      by_cases fits : used + first.amount ≤ limit
      · rw [charge_of_le (Nat.le_of_add_right_le capacity) fits, Result.ok_bind]
        exact ih capacity fits exceeds
      · have beyond : limit < used + first.amount := Nat.not_le.mp fits
        refine ⟨used + first.amount, first.context, beyond, Nat.le_add_right _ _, ?_⟩
        rw [charge_of_lt (Nat.le_of_add_right_le capacity) beyond, Result.error_bind]

/-- What is recorded is the sum of the charges; it neither wraps nor exceeds the limit. -/
theorem spend_eq_ok (capacity : work.used ≤ usizeMax) (below : work.used ≤ work.limit)
    (paid : Metered.spend WorkBudget.pay charges work = .ok work') :
    work'.limit = work.limit ∧ work'.used = work.used + totalWork charges ∧
      work'.used ≤ usizeMax ∧ work'.used ≤ work.limit := by
  induction charges generalizing work with
  | nil =>
      cases paid
      exact ⟨rfl, rfl, capacity, below⟩
  | cons first charges ih =>
      rw [Metered.spend, Result.bind_eq_ok] at paid
      obtain ⟨next, here, paid⟩ := paid
      obtain ⟨fits, within, rfl⟩ := charge_eq_ok here
      obtain ⟨same, total, rest⟩ := ih fits within paid
      exact ⟨same, by rw [total, totalWork_cons, Nat.add_assoc], rest⟩

end

/-! ## Two runs of a pass -/

namespace Check

variable {α : Type} {check check' : Check α} {a : α} {limit limit' : Nat} {work : WorkBudget}

/-- What a run that succeeds has charged, and what it has recorded. -/
theorem charged (run : check.run ⟨limit, 0⟩ = .ok (a, work)) :
    work.used ≤ limit ∧ work.used ≤ usizeMax := by
  obtain ⟨charges, _, spent⟩ := Metered.settles_of_run run
  obtain ⟨_, _, capacity, within⟩ := spend_eq_ok (Nat.zero_le _) (Nat.zero_le _) spent
  exact ⟨within, capacity⟩

/-- The second of two passes that make the same charges in some order, once the first has
succeeded. -/
theorem rerun (same : check.Rearranges check') (run : check.run ⟨limit, 0⟩ = .ok (a, work)) :
    ∃ charges, totalWork charges = work.used ∧ work.used ≤ usizeMax ∧
      check'.Settles charges (.ok a) := by
  obtain ⟨charges, charges', perm, settles, settles'⟩ := same _ _ _ run
  rw [settles, Metered.settle_eq_ok] at run
  obtain ⟨_, total, capacity, _⟩ := spend_eq_ok (Nat.zero_le _) (Nat.zero_le _) run.1
  refine ⟨charges', ?_, capacity, settles'⟩
  rw [total, Nat.zero_add, totalWork_perm perm]

/-- Whatever covers the work of a run is enough for every other. -/
theorem run_of_le (same : check.Rearranges check')
    (run : check.run ⟨limit, 0⟩ = .ok (a, work)) (enough : work.used ≤ limit') :
    check'.run ⟨limit', 0⟩ = .ok (a, ⟨limit', work.used⟩) := by
  obtain ⟨charges, total, capacity, settles⟩ := rerun same run
  rw [← total] at capacity enough
  have spent := @spend_of_le charges limit' 0 (by rwa [Nat.zero_add]) (by rwa [Nat.zero_add])
  rw [Nat.zero_add, total] at spent
  rw [settles]
  exact Metered.settle_eq_ok.mpr ⟨spent, rfl⟩

/-- With less every run is refused at a charge. -/
theorem run_of_lt (same : check.Rearranges check')
    (run : check.run ⟨limit, 0⟩ = .ok (a, work)) (short : limit' < work.used) :
    ∃ next context, limit' < next ∧ next ≤ work.used ∧
      check'.run ⟨limit', 0⟩ = .error (workLimitExceeded next limit' context) := by
  obtain ⟨charges, total, capacity, settles⟩ := rerun same run
  rw [← total] at capacity short
  obtain ⟨next, context, exceeds, upTo, refused⟩ := @spend_of_lt charges limit' 0
    (by rwa [Nat.zero_add]) (Nat.zero_le _) (by rwa [Nat.zero_add])
  rw [Nat.zero_add, total] at upTo
  refine ⟨next, context, exceeds, upTo, ?_⟩
  rw [settles]
  exact Metered.settle_error refused

end Check

end Stratadiff
