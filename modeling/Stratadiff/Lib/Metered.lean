import Mathlib

/-!
# Metered computations

A computation may use its state in one way only: it pays charges to it, and a state refuses
what it cannot pay. Such a computation is a fixed list of charges with a fixed outcome, since
nothing that it does can depend on what is left. Two runs of one computation from different
states therefore differ only in where they are refused.
-/

section

variable {σ κ ε α β : Type} {charge : κ → σ → Except ε σ}

namespace Metered

/-- Pay some charges, one after another. -/
def spend (charge : κ → σ → Except ε σ) : List κ → σ → Except ε σ
  | [], s => .ok s
  | c :: charges, s => charge c s >>= spend charge charges

/-- Pay some charges and come to an outcome. -/
def settle (charge : κ → σ → Except ε σ) (charges : List κ) (outcome : Except ε α) (s : σ) :
    Except ε (α × σ) :=
  spend charge charges s >>= fun rest => outcome >>= fun a => .ok (a, rest)

theorem spend_append {first second : List κ} {s : σ} :
    spend charge (first ++ second) s = spend charge first s >>= spend charge second := by
  induction first generalizing s with
  | nil => rfl
  | cons c first ih =>
      rw [List.cons_append, spend, spend]
      cases charge c s with
      | error failure => rfl
      | ok rest => exact ih

theorem settle_eq_ok {charges : List κ} {outcome : Except ε α} {a : α} {s t : σ} :
    settle charge charges outcome s = .ok (a, t) ↔
      spend charge charges s = .ok t ∧ outcome = .ok a := by
  rw [settle]
  cases spend charge charges s with
  | error failure => simp [bind, Except.bind]
  | ok rest => cases outcome <;> simp [bind, Except.bind, and_comm]

theorem settle_error {charges : List κ} {failure : ε} {s : σ}
    (refused : spend charge charges s = .error failure) {outcome : Except ε α} :
    settle charge charges outcome s = .error failure := by
  rw [settle, refused]
  rfl

/-- What follows a computation that succeeds is paid for after it. -/
theorem settle_bind {first second : List κ} {a : α} {outcome : Except ε β} {s : σ} :
    (settle charge first (.ok a) s >>= fun done => settle charge second outcome done.2) =
      settle charge (first ++ second) outcome s := by
  rw [settle, settle, spend_append]
  cases spend charge first s with
  | error failure => rfl
  | ok rest => rfl

end Metered

/-- A computation that uses its state only to pay charges. -/
structure Metered (charge : κ → σ → Except ε σ) (α : Type) where
  run : σ → Except ε (α × σ)
  oblivious : ∃ charges outcome, ∀ s, run s = Metered.settle charge charges outcome s

namespace Metered

@[ext] theorem ext {m m' : Metered charge α} (h : ∀ s, m.run s = m'.run s) : m = m' := by
  obtain ⟨run, _⟩ := m
  obtain ⟨run', _⟩ := m'
  obtain rfl : run = run' := funext h
  rfl

/-- The charges and the outcome of a computation. -/
def Settles (m : Metered charge α) (charges : List κ) (outcome : Except ε α) : Prop :=
  ∀ s, m.run s = settle charge charges outcome s

/-- A computation without charges. -/
def lift (outcome : Except ε α) : Metered charge α where
  run s := outcome >>= fun a => .ok (a, s)
  oblivious := ⟨[], outcome, fun _ => rfl⟩

/-- One charge. -/
def pay (c : κ) : Metered charge Unit where
  run s := charge c s >>= fun rest => .ok ((), rest)
  oblivious := by
    refine ⟨[c], .ok (), fun s => ?_⟩
    rw [settle, spend]
    cases charge c s with
    | error failure => rfl
    | ok rest => rfl

theorem settles_bind {m : Metered charge α} {f : α → Metered charge β} {charges charges' : List κ}
    {a : α} {outcome : Except ε β} (first : m.Settles charges (.ok a))
    (second : (f a).Settles charges' outcome) (s : σ) :
    (m.run s >>= fun done => (f done.1).run done.2) =
      settle charge (charges ++ charges') outcome s := by
  rw [first s, ← settle_bind]
  cases result : settle charge charges (.ok a) s with
  | error failure => rfl
  | ok done =>
      obtain ⟨b, rest⟩ := done
      obtain ⟨_, same⟩ := settle_eq_ok.mp result
      cases same
      exact second rest

/-- One computation after another. Which one comes second depends on the result of the first
alone, and the first has the same result from every state. -/
protected def bind (m : Metered charge α) (f : α → Metered charge β) : Metered charge β where
  run s := m.run s >>= fun done => (f done.1).run done.2
  oblivious := by
    obtain ⟨charges, outcome, first⟩ := m.oblivious
    cases outcome with
    | error failure =>
        refine ⟨charges, .error failure, fun s => ?_⟩
        rw [first s, settle, settle]
        cases spend charge charges s <;> rfl
    | ok a =>
        obtain ⟨charges', outcome, second⟩ := (f a).oblivious
        exact ⟨charges ++ charges', outcome, settles_bind first second⟩

instance : Monad (Metered charge) where
  pure a := lift (.ok a)
  bind := Metered.bind

instance : MonadLift (Except ε) (Metered charge) where
  monadLift := lift

@[simp] theorem run_pure (a : α) (s : σ) : (pure a : Metered charge α).run s = .ok (a, s) := rfl

@[simp] theorem run_bind (m : Metered charge α) (f : α → Metered charge β) (s : σ) :
    (m >>= f).run s = m.run s >>= fun done => (f done.1).run done.2 := rfl

@[simp] theorem run_lift (outcome : Except ε α) (s : σ) :
    (lift outcome : Metered charge α).run s = outcome >>= fun a => .ok (a, s) := rfl

@[simp] theorem run_pay (c : κ) (s : σ) :
    (pay c : Metered charge Unit).run s = charge c s >>= fun rest => .ok ((), rest) := rfl

@[simp] theorem monadLift_eq (outcome : Except ε α) :
    (monadLift outcome : Metered charge α) = lift outcome := rfl

@[simp] theorem run_lift_bind (outcome : Except ε α) (f : α → Metered charge β) (s : σ) :
    (lift outcome >>= f).run s = outcome >>= fun a => (f a).run s := by
  cases outcome <;> rfl

@[simp] theorem run_pay_bind (c : κ) (f : Unit → Metered charge β) (s : σ) :
    (pay c >>= f).run s = charge c s >>= fun rest => (f ()).run rest := by
  rw [run_bind, run_pay]
  cases charge c s <;> rfl

instance : LawfulMonad (Metered charge) := .mk' (Metered charge)
  (fun m => by
    refine Metered.ext fun s => ?_
    show (m.run s >>= fun done => .ok (done.1, done.2)) = m.run s
    cases m.run s <;> rfl)
  (fun _ _ => Metered.ext fun _ => rfl)
  (fun m f g => by
    refine Metered.ext fun s => ?_
    show ((m.run s >>= fun done => (f done.1).run done.2) >>= fun done => (g done.1).run done.2) =
      m.run s >>= fun done => (f done.1).run done.2 >>= fun done => (g done.1).run done.2
    cases m.run s <;> rfl)

/-! ## What two runs have in common -/

variable {m m' m'' : Metered charge α} {a : α} {s t : σ}

/-- A run that succeeds shows the charges and the outcome of every run. -/
theorem settles_of_run (run : m.run s = .ok (a, t)) :
    ∃ charges, m.Settles charges (.ok a) ∧ spend charge charges s = .ok t := by
  obtain ⟨charges, outcome, settles⟩ := m.oblivious
  rw [settles s] at run
  obtain ⟨spent, rfl⟩ := settle_eq_ok.mp run
  exact ⟨charges, settles, spent⟩

theorem Settles.bind {f : α → Metered charge β} {charges charges' : List κ}
    {outcome : Except ε β} (first : m.Settles charges (.ok a))
    (second : (f a).Settles charges' outcome) :
    (m >>= f).Settles (charges ++ charges') outcome :=
  settles_bind first second

/-- When the first computation succeeds so does the second, with the same result and with the
same charges in some order. -/
def Rearranges (m m' : Metered charge α) : Prop :=
  ∀ s a t, m.run s = .ok (a, t) → ∃ charges charges', charges.Perm charges' ∧
    m.Settles charges (.ok a) ∧ m'.Settles charges' (.ok a)

theorem Rearranges.refl (m : Metered charge α) : m.Rearranges m := by
  intro s a t run
  obtain ⟨charges, settles, _⟩ := settles_of_run run
  exact ⟨charges, charges, .refl _, settles, settles⟩

theorem Rearranges.bind {f f' : α → Metered charge β} (first : m.Rearranges m')
    (second : ∀ a, (f a).Rearranges (f' a)) : (m >>= f).Rearranges (m' >>= f') := by
  intro s b u run
  rw [run_bind] at run
  cases done : m.run s with
  | error failure =>
      rw [done] at run
      cases run
  | ok found =>
      obtain ⟨a, t⟩ := found
      rw [done] at run
      obtain ⟨charges, charges', perm, settles, settles'⟩ := first s a t done
      obtain ⟨later, later', perm', rest, rest'⟩ := second a t b u run
      exact ⟨charges ++ later, charges' ++ later', perm.append perm', settles.bind rest,
        settles'.bind rest'⟩

theorem Rearranges.bind_left {f : α → Metered charge β} (first : m.Rearranges m') :
    (m >>= f).Rearranges (m' >>= f) :=
  first.bind fun a => .refl (f a)

theorem Rearranges.bind_right {f f' : α → Metered charge β}
    (second : ∀ a, (f a).Rearranges (f' a)) : (m >>= f).Rearranges (m >>= f') :=
  (Rearranges.refl m).bind second

/-! ## Loops -/

section

variable {γ : Type} {f g : γ → Metered charge Unit} {xs ys : List γ}

theorem forM_cons_eq {x : γ} : (x :: xs).forM f = f x >>= fun _ => xs.forM f := rfl

/-- Loops with steps that agree on the elements. -/
theorem foldlM_congr {step step' : α → γ → Metered charge α}
    (agree : ∀ b, ∀ x ∈ xs, step b x = step' b x) (init : α) :
    xs.foldlM step init = xs.foldlM step' init := by
  induction xs generalizing init with
  | nil => rfl
  | cons x xs ih =>
      rw [List.foldlM_cons, List.foldlM_cons, agree init x List.mem_cons_self]
      exact bind_congr fun b => ih (fun b y later => agree b y (List.mem_cons_of_mem x later)) b

theorem allM_congr {test test' : γ → Metered charge Bool}
    (agree : ∀ x ∈ xs, test x = test' x) : xs.allM test = xs.allM test' := by
  induction xs with
  | nil => rfl
  | cons x xs ih =>
      rw [List.allM, List.allM, agree x List.mem_cons_self,
        ih fun y later => agree y (List.mem_cons_of_mem x later)]

/-- Every step of a loop that succeeds has its own charges. -/
theorem settles_of_forM (run : (xs.forM f).run s = .ok ((), t)) :
    ∀ x ∈ xs, ∃ charges, (f x).Settles charges (.ok ()) := by
  induction xs generalizing s with
  | nil => simp
  | cons x xs ih =>
      rw [forM_cons_eq, run_bind] at run
      cases done : (f x).run s with
      | error failure =>
          rw [done] at run
          cases run
      | ok found =>
          rw [done] at run
          intro y member
          obtain rfl | later := List.mem_cons.mp member
          · obtain ⟨charges, settles, _⟩ := settles_of_run done
            exact ⟨charges, settles⟩
          · exact ih run y later

theorem settles_forM {charges : γ → List κ}
    (settles : ∀ x ∈ xs, (f x).Settles (charges x) (.ok ())) :
    (xs.forM f).Settles (xs.flatMap charges) (.ok ()) := by
  induction xs with
  | nil =>
      intro s
      rfl
  | cons x xs ih =>
      rw [forM_cons_eq, List.flatMap_cons]
      apply Settles.bind (settles x List.mem_cons_self)
      exact ih fun y later => settles y (List.mem_cons_of_mem x later)

/-- A loop of checks may take its elements in any order. -/
theorem Rearranges.forM (perm : xs.Perm ys) : (xs.forM f).Rearranges (ys.forM f) := by
  classical
  intro s a t run
  have steps := settles_of_forM run
  choose! charges settles using steps
  refine ⟨xs.flatMap charges, ys.flatMap charges, perm.flatMap_right charges,
    settles_forM settles, settles_forM fun y member => settles y (perm.mem_iff.mpr member)⟩

end

/-! ## Results -/

section

variable {γ : Type} {f : α → Metered charge β} {post : α → Prop} {post' : β → Prop} {b : β}

/-- Whatever a run that succeeds returns has a property. -/
def Ensures (m : Metered charge α) (post : α → Prop) : Prop :=
  ∀ s a t, m.run s = .ok (a, t) → post a

/-- A run that succeeds returns this. -/
abbrev Yields (m : Metered charge α) (a : α) : Prop := m.Ensures (· = a)

theorem Ensures.pure (h : post a) : (pure a : Metered charge α).Ensures post := by
  rintro s _ _ ⟨⟩
  exact h

theorem Ensures.lift {outcome : Except ε α} (h : ∀ a, outcome = .ok a → post a) :
    (lift outcome : Metered charge α).Ensures post := by
  intro s a t run
  cases outcome with
  | error failure => cases run
  | ok found =>
      cases run
      exact h _ rfl

theorem Ensures.bind {middle : α → Prop} (first : m.Ensures middle)
    (second : ∀ a, middle a → (f a).Ensures post') : (m >>= f).Ensures post' := by
  intro s b u run
  rw [run_bind] at run
  cases done : m.run s with
  | error failure =>
      rw [done] at run
      cases run
  | ok found =>
      obtain ⟨a, t⟩ := found
      rw [done] at run
      exact second a (first s a t done) t b u run

/-- Whatever comes first. -/
theorem Ensures.after (rest : ∀ a, (f a).Ensures post') : (m >>= f).Ensures post' :=
  .bind (fun _ _ _ _ => trivial) fun a (_ : True) => rest a

theorem Yields.pure : (pure a : Metered charge α).Yields a := Ensures.pure rfl

theorem Yields.bind (first : m.Yields a) (second : (f a).Ensures post') :
    (m >>= f).Ensures post' :=
  Ensures.bind first fun _ same => same ▸ second

theorem Yields.foldlM {xs : List γ} {step : β → γ → Metered charge β} {next : β → γ → β}
    (steps : ∀ b, ∀ x ∈ xs, (step b x).Yields (next b x)) (init : β) :
    (xs.foldlM step init).Yields (xs.foldl next init) := by
  induction xs generalizing init with
  | nil => exact Yields.pure
  | cons x xs ih =>
      rw [List.foldlM_cons, List.foldl_cons]
      refine Yields.bind (steps init x List.mem_cons_self) ?_
      exact ih (fun b y later => steps b y (List.mem_cons_of_mem x later)) _

theorem Yields.mapM {xs : List γ} {step : γ → Metered charge β} {value : γ → β}
    (steps : ∀ x ∈ xs, (step x).Yields (value x)) : (xs.mapM step).Yields (xs.map value) := by
  induction xs with
  | nil => exact Yields.pure
  | cons x xs ih =>
      rw [List.mapM_cons, List.map_cons]
      refine Yields.bind (steps x List.mem_cons_self)
        (Yields.bind (ih fun y later => ?_) Yields.pure)
      exact steps y (List.mem_cons_of_mem x later)

theorem Yields.allM {xs : List γ} {test : γ → Metered charge Bool} {value : γ → Bool}
    (steps : ∀ x ∈ xs, (test x).Yields (value x)) : (xs.allM test).Yields (xs.all value) := by
  induction xs with
  | nil => exact Yields.pure
  | cons x xs ih =>
      rw [List.allM, List.all_cons]
      refine Yields.bind (steps x List.mem_cons_self) ?_
      cases value x with
      | true => exact ih fun y later => steps y (List.mem_cons_of_mem x later)
      | false => exact Yields.pure

end

end Metered

end
