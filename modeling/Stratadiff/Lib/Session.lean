import Stratadiff.Lib.Fallible
import Stratadiff.Lib.Program

/-!
# Runs of a program

A run is told by its calls and their answers, in their order. `Returns` says what a program
returns after a run, and `Follows` that it makes the calls of a run, whatever it does next.
A run of a program that is put together comes apart in the runs of its parts.

A session is a program with a state of its own. `Thrifty` is the discipline of sessions that
count their calls: no run makes more calls than the count allows.
-/

namespace Program

variable {ι : Interface} {α β : Type}

/-- A call and its answer. -/
abbrev Exchange (ι : Interface) := Σ op : ι.Op, Except String (ι.Answer op)

/-- The program makes these calls, is answered so, and returns `a`. -/
def Returns : Program ι α → List (Exchange ι) → α → Prop
  | .done result, calls, a => calls = [] ∧ result = a
  | .fail _, _, _ => False
  | .call op next, calls, a =>
      ∃ answer rest, calls = ⟨op, answer⟩ :: rest ∧ Returns (next answer) rest a

/-- The program makes these calls when it is answered so. -/
def Follows : Program ι α → List (Exchange ι) → Prop
  | _, [] => True
  | .call op next, exchange :: rest =>
      ∃ answer, exchange = ⟨op, answer⟩ ∧ Follows (next answer) rest
  | _, _ :: _ => False

variable {x : Program ι α} {f : α → Program ι β} {calls : List (Exchange ι)}

@[simp] theorem follows_nil : x.Follows [] := by
  cases x <;> trivial

theorem returns_pure {a b : α} : Returns (pure a : Program ι α) calls b ↔ calls = [] ∧ a = b :=
  Iff.rfl

theorem returns_perform {op : ι.Op} {a : ι.Answer op} :
    Returns (perform op) calls a ↔ calls = [⟨op, .ok a⟩] := by
  constructor
  · rintro ⟨answer | answer, rest, rfl, returned⟩
    · exact returned.elim
    · obtain ⟨rfl, rfl⟩ := returned
      rfl
  · rintro rfl
    exact ⟨_, _, rfl, rfl, rfl⟩

theorem Returns.follows {a : α} (returned : x.Returns calls a) : x.Follows calls := by
  induction x generalizing calls with
  | done result =>
      obtain ⟨rfl, _⟩ := returned
      exact follows_nil
  | fail message => exact returned.elim
  | call op next ih =>
      obtain ⟨answer, rest, rfl, returned⟩ := returned
      exact ⟨answer, rfl, ih answer returned⟩

theorem returns_bind {b : β} :
    Returns (x >>= f) calls b ↔
      ∃ a first second, calls = first ++ second ∧ x.Returns first a ∧ (f a).Returns second b := by
  induction x generalizing calls with
  | done result =>
      constructor
      · intro returned
        exact ⟨result, [], calls, rfl, ⟨rfl, rfl⟩, returned⟩
      · rintro ⟨a, first, second, rfl, ⟨rfl, rfl⟩, returned⟩
        exact returned
  | fail message =>
      constructor
      · exact fun returned => returned.elim
      · rintro ⟨_, _, _, _, returned, _⟩
        exact returned.elim
  | call op next ih =>
      constructor
      · rintro ⟨answer, rest, rfl, returned⟩
        obtain ⟨a, first, second, rfl, here, after⟩ := (ih answer).mp returned
        exact ⟨a, ⟨op, answer⟩ :: first, second, rfl, ⟨answer, first, rfl, here⟩, after⟩
      · rintro ⟨a, first, second, rfl, ⟨answer, rest, rfl, here⟩, after⟩
        exact ⟨answer, rest ++ second, rfl, (ih answer).mpr ⟨a, rest, second, rfl, here, after⟩⟩

theorem returns_map {g : α → β} {b : β} :
    Returns (g <$> x) calls b ↔ ∃ a, x.Returns calls a ∧ g a = b := by
  rw [show g <$> x = x >>= fun a => pure (g a) from rfl, returns_bind]
  constructor
  · rintro ⟨a, first, second, rfl, here, rfl, same⟩
    exact ⟨a, by rwa [List.append_nil], same⟩
  · rintro ⟨a, here, same⟩
    exact ⟨a, calls, [], (List.append_nil _).symm, here, rfl, same⟩

theorem follows_bind (follows : (x >>= f).Follows calls) :
    x.Follows calls ∨
      ∃ a first second, calls = first ++ second ∧ x.Returns first a ∧ (f a).Follows second := by
  induction x generalizing calls with
  | done result => exact .inr ⟨result, [], calls, rfl, ⟨rfl, rfl⟩, follows⟩
  | fail message =>
      cases calls with
      | nil => exact .inl follows_nil
      | cons exchange rest => exact .inl follows
  | call op next ih =>
      cases calls with
      | nil => exact .inl follows_nil
      | cons exchange rest =>
          obtain ⟨answer, rfl, follows⟩ := follows
          obtain here | ⟨a, first, second, rfl, here, after⟩ := ih answer follows
          · exact .inl ⟨answer, rfl, here⟩
          · exact .inr ⟨a, ⟨op, answer⟩ :: first, second, rfl, ⟨answer, first, rfl, here⟩, after⟩

theorem follows_map {g : α → β} (follows : (g <$> x).Follows calls) : x.Follows calls := by
  obtain here | ⟨a, first, second, rfl, here, after⟩ := follows_bind follows
  · exact here
  · cases second with
    | nil =>
        rw [List.append_nil]
        exact here.follows
    | cons exchange rest => exact after.elim

end Program

/-- A program with a state of its own. -/
abbrev Session (ι : Interface) (σ α : Type) := StateT σ (Program ι) α

namespace Session

open Program (Exchange)

variable {ι : Interface} {σ α β : Type}

def request (op : ι.Op) : Session ι σ (ι.Answer op) := StateT.lift (Program.perform op)

/-- A result of a computation that makes no calls; a failure ends the session. -/
def check (result : Result α) : Session ι σ α :=
  match result with
  | .ok a => pure a
  | .error failure => StateT.lift (.fail failure.text)

/-- A run from a state, with its calls, its result and the state that is left. -/
def Returns (x : Session ι σ α) (s : σ) (calls : List (Exchange ι)) (a : α) (s' : σ) : Prop :=
  Program.Returns (StateT.run x s) calls (a, s')

variable {x : Session ι σ α} {f : α → Session ι σ β} {s s' : σ} {calls : List (Exchange ι)}

theorem returns_pure {a b : α} :
    Returns (pure a : Session ι σ α) s calls b s' ↔ calls = [] ∧ a = b ∧ s = s' :=
  Program.returns_pure.trans (and_congr_right' Prod.mk_inj)

theorem returns_bind {b : β} :
    Returns (x >>= f) s calls b s' ↔
      ∃ a between first second, calls = first ++ second ∧ x.Returns s first a between ∧
        (f a).Returns between second b s' := by
  constructor
  · intro returned
    obtain ⟨⟨a, between⟩, first, second, apart, here, after⟩ := Program.returns_bind.mp returned
    exact ⟨a, between, first, second, apart, here, after⟩
  · rintro ⟨a, between, first, second, apart, here, after⟩
    exact Program.returns_bind.mpr ⟨(a, between), first, second, apart, here, after⟩

theorem returns_request {op : ι.Op} {a : ι.Answer op} :
    Returns (request op : Session ι σ _) s calls a s' ↔ calls = [⟨op, .ok a⟩] ∧ s' = s := by
  constructor
  · intro returned
    obtain ⟨b, first, second, rfl, here, rfl, same⟩ := Program.returns_bind.mp returned
    obtain ⟨rfl, rfl⟩ := Prod.mk.inj same
    rw [Program.returns_perform.mp here]
    exact ⟨rfl, rfl⟩
  · rintro ⟨rfl, rfl⟩
    exact Program.returns_bind.mpr ⟨a, _, [], rfl, Program.returns_perform.mpr rfl, rfl, rfl⟩

theorem returns_check {result : Result α} {a : α} :
    Returns (check result : Session ι σ α) s calls a s' ↔ result = .ok a ∧ calls = [] ∧ s' = s := by
  cases result with
  | error failure =>
      constructor
      · intro returned
        exact returned.elim
      · rintro ⟨failed, _⟩
        cases failed
  | ok b =>
      rw [check, returns_pure, Except.ok.injEq]
      constructor
      · rintro ⟨rfl, rfl, rfl⟩
        exact ⟨rfl, rfl, rfl⟩
      · rintro ⟨rfl, rfl, rfl⟩
        exact ⟨rfl, rfl, rfl⟩

/-- A check is passed without a call. -/
theorem returns_check_bind {result : Result α} {b : β} :
    Returns (check result >>= f) s calls b s' ↔
      ∃ a, result = .ok a ∧ (f a).Returns s calls b s' := by
  rw [returns_bind]
  simp only [returns_check]
  constructor
  · rintro ⟨a, _, _, second, rfl, ⟨passed, rfl, rfl⟩, after⟩
    exact ⟨a, passed, after⟩
  · rintro ⟨a, passed, after⟩
    exact ⟨a, s, [], calls, rfl, ⟨passed, rfl, rfl⟩, after⟩

theorem returns_ensure_bind {condition : Prop} [Decidable condition] {failure : Failure}
    {f : Unit → Session ι σ β} {b : β} :
    Returns (check (Result.ensure condition failure) >>= f) s calls b s' ↔
      condition ∧ (f ()).Returns s calls b s' := by
  rw [returns_check_bind]
  constructor
  · rintro ⟨_, passed, after⟩
    exact ⟨Result.ensure_eq_ok.mp passed, after⟩
  · rintro ⟨holds, after⟩
    exact ⟨(), Result.ensure_of holds, after⟩

theorem returns_get_bind {f : σ → Session ι σ β} {b : β} :
    Returns (get >>= f) s calls b s' ↔ (f s).Returns s calls b s' := Iff.rfl

theorem returns_set_bind {next : σ} {f : PUnit → Session ι σ β} {b : β} :
    Returns (set next >>= f) s calls b s' ↔ (f ⟨⟩).Returns next calls b s' := Iff.rfl

theorem returns_set {next : σ} {b : PUnit} :
    Returns (set next : Session ι σ PUnit) s calls b s' ↔ calls = [] ∧ s' = next := by
  constructor
  · rintro ⟨rfl, same⟩
    exact ⟨rfl, (Prod.mk.inj same).2.symm⟩
  · rintro ⟨rfl, rfl⟩
    exact ⟨rfl, rfl⟩

/-! ## Runs that may go on -/

/-- The session makes these calls from a state when it is answered so. -/
def Follows (x : Session ι σ α) (s : σ) (calls : List (Exchange ι)) : Prop :=
  (StateT.run x s).Follows calls

theorem follows_bind (follows : (x >>= f).Follows s calls) :
    x.Follows s calls ∨ ∃ a between first second, calls = first ++ second ∧
      x.Returns s first a between ∧ (f a).Follows between second := by
  obtain here | ⟨⟨a, between⟩, first, second, apart, here, after⟩ := Program.follows_bind follows
  · exact .inl here
  · exact .inr ⟨a, between, first, second, apart, here, after⟩

theorem follows_pure {a : α} (follows : (pure a : Session ι σ α).Follows s calls) : calls = [] := by
  cases calls with
  | nil => rfl
  | cons exchange rest => exact follows.elim

theorem follows_check {result : Result α}
    (follows : (check result : Session ι σ α).Follows s calls) : calls = [] := by
  cases calls with
  | nil => rfl
  | cons exchange rest =>
      cases result with
      | error failure => exact follows.elim
      | ok a => exact follows.elim

theorem follows_check_bind {result : Result α} (follows : (check result >>= f).Follows s calls) :
    calls = [] ∨ ∃ a, result = .ok a ∧ (f a).Follows s calls := by
  obtain here | ⟨a, _, _, second, rfl, here, after⟩ := follows_bind follows
  · exact .inl (follows_check here)
  · obtain ⟨passed, rfl, rfl⟩ := returns_check.mp here
    exact .inr ⟨a, passed, after⟩

/-- After a request the session goes on with its answer, if there is one. -/
theorem follows_request_bind {op : ι.Op} {f : ι.Answer op → Session ι σ β}
    (follows : (request op >>= f).Follows s calls) :
    calls = [] ∨ ∃ answer rest, calls = ⟨op, answer⟩ :: rest ∧
      (rest = [] ∨ ∃ a, answer = .ok a ∧ (f a).Follows s rest) := by
  obtain here | ⟨a, _, _, second, rfl, here, after⟩ := follows_bind follows
  · cases calls with
    | nil => exact .inl rfl
    | cons exchange rest =>
        obtain ⟨answer, rfl, after⟩ := here
        refine .inr ⟨answer, rest, rfl, .inl ?_⟩
        cases rest with
        | nil => rfl
        | cons exchange rest =>
            cases answer with
            | error message => exact after.elim
            | ok a => exact after.elim
  · obtain ⟨rfl, rfl⟩ := returns_request.mp here
    exact .inr ⟨.ok a, second, rfl, .inr ⟨a, rfl, after⟩⟩

theorem follows_get_bind {f : σ → Session ι σ β} :
    (get >>= f).Follows s calls ↔ (f s).Follows s calls := Iff.rfl

theorem follows_set_bind {next : σ} {f : PUnit → Session ι σ β} :
    (set next >>= f).Follows s calls ↔ (f ⟨⟩).Follows next calls := Iff.rfl

theorem follows_set {next : σ} (follows : (set next : Session ι σ PUnit).Follows s calls) :
    calls = [] := by
  cases calls with
  | nil => rfl
  | cons exchange rest => exact follows.elim

/-! ## Sessions that count their calls -/

/-- A count in the state goes up with every call, and stays within a limit even in the runs that
fail later. -/
structure Thrifty (count : σ → Nat) (limit : Nat) (x : Session ι σ α) : Prop where
  returns : ∀ {s calls a s'}, x.Returns s calls a s' → count s' = count s + calls.length
  follows : ∀ {s calls}, count s ≤ limit → x.Follows s calls → count s + calls.length ≤ limit

namespace Thrifty

variable {count : σ → Nat} {limit : Nat}

theorem bind (first : Thrifty count limit x) (next : ∀ a, Thrifty count limit (f a)) :
    Thrifty count limit (x >>= f) where
  returns returned := by
    obtain ⟨a, between, before, after, rfl, here, there⟩ := returns_bind.mp returned
    rw [(next a).returns there, first.returns here, List.length_append, Nat.add_assoc]
  follows within follows := by
    obtain here | ⟨a, between, before, after, rfl, here, there⟩ := follows_bind follows
    · exact first.follows within here
    · have counted := first.returns here
      have bound := first.follows within (Program.Returns.follows here)
      rw [← counted] at bound
      have rest := (next a).follows bound there
      rw [counted] at rest
      rw [List.length_append, ← Nat.add_assoc]
      exact rest

/-- A session that makes no calls and leaves the count as it is. -/
theorem silent (silent : ∀ {s calls}, x.Follows s calls → calls = [])
    (kept : ∀ {s calls a s'}, x.Returns s calls a s' → count s' = count s) :
    Thrifty count limit x where
  returns returned := by
    rw [kept returned, silent (Program.Returns.follows returned)]
    rfl
  follows within follows := by
    rw [silent follows]
    exact within

theorem pure (a : α) : Thrifty count limit (Pure.pure a : Session ι σ α) :=
  silent follows_pure fun returned => by rw [(returns_pure.mp returned).2.2]

theorem check (result : Result α) : Thrifty count limit (Session.check result : Session ι σ α) :=
  silent follows_check fun returned => by rw [(returns_check.mp returned).2.2]

/-- The state is read, and the rest may depend on it. -/
theorem get_bind {f : σ → Session ι σ β} (next : ∀ s, Thrifty count limit (f s)) :
    Thrifty count limit (get >>= f) where
  returns {s _ _ _} returned := (next s).returns (returns_get_bind.mp returned)
  follows {s _} within follows := (next s).follows within (follows_get_bind.mp follows)

end Thrifty

end Session
