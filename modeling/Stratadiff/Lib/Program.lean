import Mathlib

/-!
# Programs that share a state

A program calls operations and continues with their answers; an answer may be an
error. Several programs run over one shared state. Between two calls of one program
the others, and the environment, may change the state, and a program may be stopped
between any two of its calls.

`Obeys` says what the calls of a program are, in terms of the calls before them and
their answers. `Machine.led_of_reachable` is the rule for whole runs: calls that meet
their contracts keep an invariant, and between two calls of a program the others stay
within what it relies on.
-/

/-- Operations and the types of their answers. -/
structure Interface where
  Op : Type
  Answer : Op → Type

inductive Program (ι : Interface) (α : Type) where
  | done (result : α)
  | fail (message : String)
  | call (op : ι.Op) (next : Except String (ι.Answer op) → Program ι α)

namespace Program

variable {ι : Interface} {α β : Type}

def bind : Program ι α → (α → Program ι β) → Program ι β
  | .done result, f => f result
  | .fail message, _ => .fail message
  | .call op next, f => .call op fun answer => (next answer).bind f

instance : Monad (Program ι) where
  pure := .done
  bind := bind

/-- Continue with a handler where a program fails. -/
def handle : Program ι α → (String → Program ι α) → Program ι α
  | .done result, _ => .done result
  | .fail message, handler => handler message
  | .call op next, handler => .call op fun answer => (next answer).handle handler

/-- Call one operation; an error ends the program. -/
def perform (op : ι.Op) : Program ι (ι.Answer op) :=
  .call op fun
    | .ok answer => .done answer
    | .error message => .fail message

/-- Calls with their answers, newest first. -/
abbrev History (ι : Interface) := List (Σ op : ι.Op, Except String (ι.Answer op))

/-- Each call of a program meets a contract after the calls before it, and the program
ends with `post`. -/
def Obeys (contract : History ι → ι.Op → Prop) (post : α → History ι → Prop) :
    History ι → Program ι α → Prop
  | history, .done a => post a history
  | _, .fail _ => True
  | history, .call op next =>
      contract history op ∧ ∀ answer, Obeys contract post (⟨op, answer⟩ :: history) (next answer)

namespace Obeys

variable {contract : History ι → ι.Op → Prop} {post post' : α → History ι → Prop}
variable {history : History ι} {x : Program ι α} {f : α → Program ι β}

theorem mono (h : Obeys contract post history x)
    (imp : ∀ a history, post a history → post' a history) :
    Obeys contract post' history x := by
  induction x generalizing history with
  | done a => exact imp a history h
  | fail message => trivial
  | call op next ih => exact ⟨h.1, fun answer => ih answer (h.2 answer)⟩

theorem pure {a : α} (h : post a history) : Obeys contract post history (Pure.pure a) := h

theorem fail {message : String} : Obeys contract post history (.fail message) := trivial

theorem bind {post : β → History ι → Prop}
    (h : Obeys contract (fun a history => Obeys contract post history (f a)) history x) :
    Obeys contract post history (x >>= f) := by
  induction x generalizing history with
  | done a => exact h
  | fail message => trivial
  | call op next ih => exact ⟨h.1, fun answer => ih answer (h.2 answer)⟩

theorem handle {handler : String → Program ι α} (h : Obeys contract post history x)
    (handled : ∀ message history, Obeys contract post history (handler message)) :
    Obeys contract post history (x.handle handler) := by
  induction x generalizing history with
  | done a => exact h
  | fail message => exact handled message history
  | call op next ih => exact ⟨h.1, fun answer => ih answer (h.2 answer)⟩

theorem perform {op : ι.Op} {post : ι.Answer op → History ι → Prop} (meets : contract history op)
    (h : ∀ a, post a (⟨op, .ok a⟩ :: history)) :
    Obeys contract post history (Program.perform op) := by
  refine ⟨meets, ?_⟩
  intro answer
  cases answer with
  | ok a => exact h a
  | error message => trivial

/-- A call, and the rest of the program after its answer. -/
theorem call {op : ι.Op} {f : ι.Answer op → Program ι β} {post : β → History ι → Prop}
    (meets : contract history op)
    (h : ∀ a, Obeys contract post (⟨op, .ok a⟩ :: history) (f a)) :
    Obeys contract post history (Program.perform op >>= f) :=
  bind (perform meets h)

end Obeys

end Program

/-- A shared state with the programs of `W` over it. -/
structure Machine (ι : Interface) (W : Type) where
  State : Type
  /-- What a call may do, and how it may be answered. -/
  attempt : W → (op : ι.Op) → State → Except String (ι.Answer op) → State → Prop
  /-- What may happen without a program. -/
  environment : State → State → Prop
  /-- What is left of a program that is stopped. -/
  stop : W → State → State → Prop
  /-- The program each member runs, again and again. -/
  main : W → Program ι Unit

namespace Machine

variable {ι : Interface} {W : Type} {M : Machine ι W}

structure Config (M : Machine ι W) where
  state : M.State
  programs : W → Program ι Unit

def Ended : Program ι Unit → Prop
  | .call _ _ => False
  | _ => True

/-- One step of a run: by the environment, by one call, or at the ends of a program. -/
inductive Step [DecidableEq W] : M.Config → M.Config → Prop where
  | environment {s s' : M.State} {programs : W → Program ι Unit} :
      M.environment s s' → Step ⟨s, programs⟩ ⟨s', programs⟩
  | call {s s' : M.State} {programs : W → Program ι Unit} {w : W} {op : ι.Op}
      {next : Except String (ι.Answer op) → Program ι Unit}
      {answer : Except String (ι.Answer op)} :
      programs w = .call op next → M.attempt w op s answer s' →
        Step ⟨s, programs⟩ ⟨s', Function.update programs w (next answer)⟩
  | start {s : M.State} {programs : W → Program ι Unit} {w : W} :
      Ended (programs w) → Step ⟨s, programs⟩ ⟨s, Function.update programs w (M.main w)⟩
  | stop {s s' : M.State} {programs : W → Program ι Unit} {w : W} :
      M.stop w s s' → Step ⟨s, programs⟩ ⟨s', Function.update programs w (.done ())⟩

/-- The configurations that runs from a state reach. -/
inductive Reachable [DecidableEq W] (initial : M.State) : M.Config → Prop where
  | initial : Reachable initial ⟨initial, fun _ => .done ()⟩
  | step {c c' : M.Config} : Reachable initial c → Step c c' → Reachable initial c'

/-- An invariant, and what each program relies on the rest to keep. -/
structure Discipline (M : Machine ι W) where
  inv : M.State → Prop
  rely : W → M.State → M.State → Prop
  rely_refl : ∀ {w s}, rely w s s
  rely_trans : ∀ {w s₁ s₂ s₃}, rely w s₁ s₂ → rely w s₂ s₃ → rely w s₁ s₃

/-- A call that was made, and the states before and after it. -/
structure Call (M : Machine ι W) where
  op : ι.Op
  answer : Except String (ι.Answer op)
  before : M.State
  after : M.State

/-- What a program knows of its calls. -/
def history (calls : List M.Call) : Program.History ι :=
  calls.map fun call => ⟨call.op, call.answer⟩

/-- The call behind the newest entry of a history. -/
theorem history_eq_cons {calls : List M.Call} {op : ι.Op} {answer : Except String (ι.Answer op)}
    {rest : Program.History ι} (h : history calls = ⟨op, answer⟩ :: rest) :
    ∃ before after older, calls = ⟨op, answer, before, after⟩ :: older ∧ history older = rest := by
  cases calls with
  | nil => cases h
  | cons call older =>
      obtain ⟨_, _, before, after⟩ := call
      obtain ⟨here, rfl⟩ := List.cons.inj h
      cases here
      exact ⟨before, after, older, rfl, rfl⟩

namespace Discipline

variable (D : Discipline M)

/-- The calls of a program since its start, newest first, led to a state. -/
def Led (w : W) : List M.Call → M.State → Prop
  | [], _ => True
  | call :: calls, s =>
      D.rely w call.after s ∧ M.attempt w call.op call.before call.answer call.after ∧
        D.inv call.before ∧ Led w calls call.before

/-- A step of `w` that the others can bear. -/
def Allows (w : W) (s s' : M.State) : Prop := D.inv s' ∧ ∀ v, v ≠ w → D.rely v s s'

variable {D} {w : W} {calls : List M.Call} {s s' : M.State}

theorem Led.stable (led : D.Led w calls s) (relied : D.rely w s s') : D.Led w calls s' := by
  cases calls with
  | nil => trivial
  | cons call calls => exact ⟨D.rely_trans led.1 relied, led.2⟩

end Discipline

variable [DecidableEq W]

/-- The programs of a run after one of them has moved on. -/
theorem update_all {programs : W → Program ι Unit} {P : W → Program ι Unit → Prop} {w : W}
    {x : Program ι Unit} (mine : P w x) (others : ∀ v, v ≠ w → P v (programs v)) (v : W) :
    P v (Function.update programs w x v) := by
  by_cases same : v = w
  · subst same
    rw [Function.update_self]
    exact mine
  · rw [Function.update_of_ne same]
    exact others v same

/-- Programs that obey their contracts keep the invariant in every run, when each call that
meets its contract does. -/
theorem led_of_reachable (D : Discipline M) (contract : W → Program.History ι → ι.Op → Prop)
    {initial : M.State} (holds : D.inv initial)
    (environment : ∀ s s', D.inv s → M.environment s s' → D.inv s' ∧ ∀ w, D.rely w s s')
    (stop : ∀ w s s', D.inv s → M.stop w s s' → D.inv s' ∧ ∀ v, D.rely v s s')
    (attempt : ∀ w calls op s answer s', D.inv s → D.Led w calls s →
      contract w (history calls) op → M.attempt w op s answer s' → D.Allows w s s')
    (main : ∀ w, Program.Obeys (contract w) (fun _ _ => True) [] (M.main w))
    {c : M.Config} (reachable : Reachable initial c) :
    D.inv c.state ∧ ∀ w, ∃ calls, D.Led w calls c.state ∧
      Program.Obeys (contract w) (fun _ _ => True) (history calls) (c.programs w) := by
  induction reachable with
  | initial => exact ⟨holds, fun _ => ⟨[], trivial, trivial⟩⟩
  | step _ step ih =>
      obtain ⟨kept, led⟩ := ih
      cases step with
      | environment happened =>
          obtain ⟨kept', relied⟩ := environment _ _ kept happened
          refine ⟨kept', fun v => ?_⟩
          obtain ⟨calls, led, obeys⟩ := led v
          exact ⟨calls, led.stable (relied v), obeys⟩
      | @call s s' programs w op next answer running attempted =>
          obtain ⟨calls, ledHere, obeys⟩ := led w
          have mine : Program.Obeys (contract w) (fun _ _ => True) (history calls)
              (.call op next) := running ▸ obeys
          have allowed := attempt w calls op s answer s' kept ledHere mine.1 attempted
          refine ⟨allowed.1, update_all (P := fun v x => ∃ calls, D.Led v calls s' ∧
            Program.Obeys (contract v) (fun _ _ => True) (history calls) x) ?_ ?_⟩
          · exact ⟨⟨op, answer, s, s'⟩ :: calls, ⟨D.rely_refl, attempted, kept, ledHere⟩,
              mine.2 answer⟩
          · intro v different
            obtain ⟨calls, led, obeys⟩ := led v
            exact ⟨calls, led.stable (allowed.2 v different), obeys⟩
      | @start s programs w ended =>
          exact ⟨kept, update_all (P := fun v x => ∃ calls, D.Led v calls s ∧
            Program.Obeys (contract v) (fun _ _ => True) (history calls) x)
            ⟨[], trivial, main w⟩ fun v _ => led v⟩
      | @stop s s' programs w stopped =>
          obtain ⟨kept', relied⟩ := stop _ _ _ kept stopped
          refine ⟨kept', update_all (P := fun v x => ∃ calls, D.Led v calls s' ∧
            Program.Obeys (contract v) (fun _ _ => True) (history calls) x)
            ⟨[], trivial, trivial⟩ fun v _ => ?_⟩
          obtain ⟨calls, led, obeys⟩ := led v
          exact ⟨calls, led.stable (relied v), obeys⟩

/-- An invariant that every call keeps, whatever program makes it. -/
theorem invariant_of_reachable {I : M.State → Prop} {initial : M.State} (holds : I initial)
    (environment : ∀ s s', I s → M.environment s s' → I s')
    (stop : ∀ w s s', I s → M.stop w s s' → I s')
    (attempt : ∀ w op s answer s', I s → M.attempt w op s answer s' → I s')
    {c : M.Config} (reachable : Reachable initial c) : I c.state := by
  induction reachable with
  | initial => exact holds
  | step _ step ih =>
      cases step with
      | environment happened => exact environment _ _ ih happened
      | call _ attempted => exact attempt _ _ _ _ _ ih attempted
      | start _ => exact ih
      | stop stopped => exact stop _ _ _ ih stopped

end Machine
