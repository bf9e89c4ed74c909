import Mathlib.Logic.Function.Basic
import Mathlib.Tactic.Common

/-!
# Programs that call an environment

A program is a finite tree of calls to an environment, each continued by a
function of the reply, with a value or a thrown error at its leaves. The tree
fixes which calls are made and in which order; what a call does is left to the
machine that answers it. The same program can therefore be run alone, or one
call at a time between the calls of other programs.
-/

namespace Effect

section Outcomes

variable {ε α β : Type}

theorem bind_eq_ok {first : Except ε α} {next : α → Except ε β} {value : β} :
    first >>= next = .ok value ↔ ∃ middle, first = .ok middle ∧ next middle = .ok value := by
  cases first <;> simp [bind, Except.bind]

theorem bind_eq_error {first : Except ε α} {next : α → Except ε β} {error : ε} :
    first >>= next = .error error ↔
      first = .error error ∨ ∃ middle, first = .ok middle ∧ next middle = .error error := by
  cases first <;> simp [bind, Except.bind]

theorem map_eq_ok {f : α → β} {first : Except ε α} {value : β} :
    f <$> first = .ok value ↔ ∃ middle, first = .ok middle ∧ f middle = value := by
  cases first <;> simp [Functor.map, Except.map]

theorem map_eq_error {f : α → β} {first : Except ε α} {error : ε} :
    f <$> first = .error error ↔ first = .error error := by
  cases first <;> simp [Functor.map, Except.map]

end Outcomes

/-- The calls a program may make, with the type of the reply to each of them. -/
structure Signature where
  Call : Type
  Reply : Call → Type

/-- A program that makes calls of `σ`, throws errors of `ε` and returns values of `α`. -/
inductive Program (σ : Signature) (ε α : Type) : Type where
  | pure (value : α)
  | throw (error : ε)
  | call (request : σ.Call) (resume : σ.Reply request → Program σ ε α)

namespace Program

variable {σ : Signature} {ε α β γ : Type}

/-- Sequencing: an error of the first program skips the second. -/
def bind (program : Program σ ε α) (next : α → Program σ ε β) : Program σ ε β :=
  match program with
  | .pure value => next value
  | .throw error => .throw error
  | .call request resume => .call request fun reply => (resume reply).bind next

/-- `try { program } catch (error) { handler(error) }`. -/
def handle (program : Program σ ε α) (handler : ε → Program σ ε α) : Program σ ε α :=
  match program with
  | .pure value => .pure value
  | .throw error => handler error
  | .call request resume => .call request fun reply => (resume reply).handle handler

/-- A single call, answering with its reply. -/
def perform (request : σ.Call) : Program σ ε (σ.Reply request) :=
  .call request .pure

/-- A computation that makes no calls. -/
def ofExcept : Except ε α → Program σ ε α
  | .ok value => .pure value
  | .error error => .throw error

instance : Monad (Program σ ε) where
  pure := .pure
  bind := bind

instance : MonadExceptOf ε (Program σ ε) where
  throw := .throw
  tryCatch := handle

@[simp]
theorem pure_eq (value : α) : (Pure.pure value : Program σ ε α) = .pure value := rfl

@[simp]
theorem throw_eq (error : ε) :
    (MonadExcept.throw error : Program σ ε α) = .throw error := rfl

@[simp]
theorem ofExcept_ok (value : α) : (ofExcept (.ok value) : Program σ ε α) = .pure value := rfl

@[simp]
theorem ofExcept_error (error : ε) :
    (ofExcept (.error error) : Program σ ε α) = .throw error := rfl

@[simp]
theorem pure_bind (value : α) (next : α → Program σ ε β) :
    (.pure value : Program σ ε α) >>= next = next value := rfl

@[simp]
theorem throw_bind (error : ε) (next : α → Program σ ε β) :
    (.throw error : Program σ ε α) >>= next = .throw error := rfl

@[simp]
theorem call_bind (request : σ.Call) (resume : σ.Reply request → Program σ ε α)
    (next : α → Program σ ε β) :
    .call request resume >>= next = .call request fun reply => resume reply >>= next := rfl

@[simp]
theorem perform_bind (request : σ.Call) (next : σ.Reply request → Program σ ε β) :
    perform request >>= next = .call request next := rfl

@[simp]
theorem tryCatch_pure (value : α) (handler : ε → Program σ ε α) :
    (tryCatch (.pure value) handler : Program σ ε α) = .pure value := rfl

@[simp]
theorem tryCatch_throw (error : ε) (handler : ε → Program σ ε α) :
    (tryCatch (.throw error) handler : Program σ ε α) = handler error := rfl

@[simp]
theorem tryCatch_call (request : σ.Call) (resume : σ.Reply request → Program σ ε α)
    (handler : ε → Program σ ε α) :
    (tryCatch (.call request resume) handler : Program σ ε α) =
      .call request fun reply => tryCatch (resume reply) handler := rfl

theorem bind_pure (program : Program σ ε α) : program >>= .pure = program := by
  induction program with
  | pure value => rfl
  | throw error => rfl
  | call request resume ih => exact congrArg (call request) (funext ih)

theorem bind_assoc (program : Program σ ε α) (first : α → Program σ ε β)
    (second : β → Program σ ε γ) :
    program >>= first >>= second = program >>= fun value => first value >>= second := by
  induction program with
  | pure value => rfl
  | throw error => rfl
  | call request resume ih => exact congrArg (call request) (funext ih)

instance : LawfulMonad (Program σ ε) :=
  LawfulMonad.mk' (Program σ ε) (fun program => bind_pure program)
    (fun value next => pure_bind value next)
    (fun program first second => bind_assoc program first second)

/-- The program, of whose value nothing is kept. -/
def discarded (program : Program σ ε α) : Program σ ε Unit :=
  program >>= fun _ => .pure ()

theorem discarded_bind (program : Program σ ε α) (next : α → Program σ ε β) :
    (program >>= next).discarded = program >>= fun value => (next value).discarded :=
  bind_assoc program next _

theorem discarded_bind_const (program : Program σ ε α) (next : Program σ ε β) :
    (program.discarded >>= fun _ => next) = program >>= fun _ => next :=
  bind_assoc program _ _

theorem discarded_tryCatch (program : Program σ ε α) (onError : ε → Program σ ε α) :
    (tryCatch program onError).discarded =
      tryCatch program.discarded fun error => (onError error).discarded := by
  induction program with
  | pure value => rfl
  | throw error => rfl
  | call request resume ih => exact congrArg (call request) (funext ih)

/-- How a program has ended, if it has. -/
def outcome? : Program σ ε α → Option (Except ε α)
  | .pure value => some (.ok value)
  | .throw error => some (.error error)
  | .call .. => none

theorem outcome?_eq_some_iff {program : Program σ ε α} {outcome : Except ε α} :
    program.outcome? = some outcome ↔ program = .ofExcept outcome := by
  cases program <;> cases outcome <;> simp [outcome?]

/-- Run a program alone: a handler answers each call from the current state. -/
def run {S : Type} (handler : S → (request : σ.Call) → σ.Reply request × S) :
    S → Program σ ε α → Except ε α × S
  | state, .pure value => (.ok value, state)
  | state, .throw error => (.error error, state)
  | state, .call request resume =>
      let (reply, state') := handler state request
      run handler state' (resume reply)

section Run

variable {S : Type} (handler : S → (request : σ.Call) → σ.Reply request × S) (state : S)

theorem run_bind (program : Program σ ε α) (next : α → Program σ ε β) :
    run handler state (program >>= next) =
      match run handler state program with
      | (.ok value, state') => run handler state' (next value)
      | (.error error, state') => (.error error, state') := by
  induction program generalizing state with
  | pure value => rfl
  | throw error => rfl
  | call request resume ih => exact ih (handler state request).1 (handler state request).2

variable {handler state} {state' : S}

/-- Run the first program, and go on from where it returned. -/
theorem run_bind_of_ok {program : Program σ ε α} {value : α}
    (ran : run handler state program = (.ok value, state')) (next : α → Program σ ε β) :
    run handler state (program >>= next) = run handler state' (next value) := by
  rw [run_bind, ran]

theorem run_bind_of_error {program : Program σ ε α} {error : ε}
    (ran : run handler state program = (.error error, state')) (next : α → Program σ ε β) :
    run handler state (program >>= next) = (.error error, state') := by
  rw [run_bind, ran]

theorem run_map (f : α → β) {program : Program σ ε α} {outcome : Except ε α}
    (ran : run handler state program = (outcome, state')) :
    run handler state (f <$> program) = (outcome.map f, state') := by
  rw [map_eq_pure_bind, run_bind, ran]
  cases outcome <;> rfl

variable (handler state)

theorem run_tryCatch (program : Program σ ε α) (onError : ε → Program σ ε α) :
    run handler state (tryCatch program onError) =
      match run handler state program with
      | (.ok value, state') => (.ok value, state')
      | (.error error, state') => run handler state' (onError error) := by
  induction program generalizing state with
  | pure value => rfl
  | throw error => rfl
  | call request resume ih => exact ih (handler state request).1 (handler state request).2

variable {handler state}

theorem run_tryCatch_of_ok {program : Program σ ε α} {value : α}
    (ran : run handler state program = (.ok value, state')) (onError : ε → Program σ ε α) :
    run handler state (tryCatch program onError) = (.ok value, state') := by
  rw [run_tryCatch, ran]

/-- Run the handler from where the program threw. -/
theorem run_tryCatch_of_error {program : Program σ ε α} {error : ε}
    (ran : run handler state program = (.error error, state')) (onError : ε → Program σ ε α) :
    run handler state (tryCatch program onError) = run handler state' (onError error) := by
  rw [run_tryCatch, ran]

variable (handler state)

@[simp]
theorem run_pure (value : α) :
    run handler state (.pure value : Program σ ε α) = (.ok value, state) := rfl

@[simp]
theorem run_throw (error : ε) :
    run handler state (.throw error : Program σ ε α) = (.error error, state) := rfl

@[simp]
theorem run_ofExcept (outcome : Except ε α) :
    run handler state (.ofExcept outcome) = (outcome, state) := by
  cases outcome <;> rfl

end Run

end Program

end Effect
