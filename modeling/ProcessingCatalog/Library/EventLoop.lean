import ProcessingCatalog.Library.Program
import Mathlib.Logic.Relation

/-!
# Asynchronous functions on one thread

A host runs one piece of code at a time. A call of an asynchronous function runs
until it first has to await; what it awaits settles at any later time, and then
it goes on until it has to await again, or ends. Other calls are made between
two such pieces, and never inside one.

A section that is guarded by a flag is entered only while the flag is clear, and
sets it; while it waits nobody else enters. `Guarded.exclusive` reads this off
from the pieces of the functions.
-/

namespace Effect

variable {σ : Signature} {ε α : Type}

namespace Program

/-- `try { program } finally { cleanup }`. -/
def ensuring (program : Program σ ε α) (cleanup : Program σ ε Unit) : Program σ ε α :=
  match program with
  | .pure value => cleanup >>= fun _ => .pure value
  | .throw error => cleanup >>= fun _ => .throw error
  | .call request resume => .call request fun reply => (resume reply).ensuring cleanup

/-- Whether a program waits for the reply to a call. -/
def isWaiting : Program σ ε α → Bool
  | .call _ _ => true
  | _ => false

end Program

/-- How a host answers the calls that return at once. The others are awaited. -/
structure Host (σ : Signature) where
  State : Type
  now? : (request : σ.Call) → Option (State → σ.Reply request × State)

namespace Host

/-- Run a program to its next await, or to its end. -/
def advance (host : Host σ) : Program σ ε α → host.State → Program σ ε α × host.State
  | .pure value, state => (.pure value, state)
  | .throw error, state => (.throw error, state)
  | .call request resume, state =>
      match host.now? request with
      | none => (.call request resume, state)
      | some answer => host.advance (resume (answer state).1) (answer state).2

end Host

/-- The state the functions share, and the calls made so far, each where it waits or as it
ended. -/
structure EventLoop (host : Host σ) (ε α : Type) where
  state : host.State
  tasks : List (Program σ ε α)

namespace EventLoop

variable {host : Host σ}

def start (loop : EventLoop host ε α) (program : Program σ ε α) : EventLoop host ε α where
  state := (host.advance program loop.state).2
  tasks := loop.tasks ++ [(host.advance program loop.state).1]

/-- A call goes on with the rest of its program. -/
def resume (loop : EventLoop host ε α) (index : ℕ) (rest : Program σ ε α) : EventLoop host ε α where
  state := (host.advance rest loop.state).2
  tasks := loop.tasks.set index (host.advance rest loop.state).1

/-- How many calls are waiting. -/
def waiting (loop : EventLoop host ε α) : ℕ :=
  loop.tasks.countP Program.isWaiting

/-- One piece of code is run: of a call of one of the asynchronous `functions`, or one of the
synchronous `turns` of the state. -/
inductive Step (functions : Program σ ε α → Prop) (turns : (host.State → host.State) → Prop) :
    EventLoop host ε α → EventLoop host ε α → Prop where
  | start {loop : EventLoop host ε α} {program : Program σ ε α} (isFunction : functions program) :
      Step functions turns loop (loop.start program)
  /-- What a call awaits settles. -/
  | settle {loop : EventLoop host ε α} {index : ℕ} {request : σ.Call}
      {resume : σ.Reply request → Program σ ε α}
      (waits : loop.tasks[index]? = some (.call request resume)) (reply : σ.Reply request) :
      Step functions turns loop (loop.resume index (resume reply))
  | turn {loop : EventLoop host ε α} {turn : host.State → host.State} (isTurn : turns turn) :
      Step functions turns loop { loop with state := turn loop.state }

section Waiting

variable {loop : EventLoop host ε α} {index : ℕ}

theorem waiting_start (program : Program σ ε α) : (loop.start program).waiting =
    loop.waiting + if (host.advance program loop.state).1.isWaiting then 1 else 0 := by
  rw [waiting, start, List.countP_append, List.countP_singleton]
  rfl

theorem waiting_resume (program : Program σ ε α) {request : σ.Call}
    {resume : σ.Reply request → Program σ ε α}
    (waits : loop.tasks[index]? = some (.call request resume)) :
    (loop.resume index program).waiting + 1 =
      loop.waiting + if (host.advance program loop.state).1.isWaiting then 1 else 0 := by
  rcases List.getElem?_eq_some_iff.mp waits with ⟨within, isTask⟩
  have counted : 0 < loop.waiting :=
    List.countP_pos_iff.mpr ⟨_, List.getElem_mem within, by rw [isTask]; rfl⟩
  have waited : loop.tasks[index].isWaiting = true := by
    rw [isTask]
    rfl
  rw [waiting, EventLoop.resume, List.countP_set within, waited, if_pos rfl]
  rw [waiting] at counted ⊢
  omega

end Waiting

/-- A section guarded by a flag: what becomes of the flag in each piece of code. A call stands at
one of the places `task`. -/
structure Guarded (functions : Program σ ε α → Prop) (turns : (host.State → host.State) → Prop)
    (flag : host.State → Bool) (task : Program σ ε α → Prop) : Prop where
  /-- A call that begins while the flag is clear waits if and only if it sets it. -/
  entered : ∀ {program state}, functions program → flag state = false →
    task (host.advance program state).1 ∧
      flag (host.advance program state).2 = (host.advance program state).1.isWaiting
  /-- A call that begins while the flag is set ends at once. -/
  skipped : ∀ {program state}, functions program → flag state = true →
    task (host.advance program state).1 ∧ (host.advance program state).1.isWaiting = false ∧
      flag (host.advance program state).2 = true
  /-- A call that has waited ends and clears the flag, whatever it waited for. -/
  left : ∀ {request resume state}, task (.call request resume) → flag state = true →
    ∀ reply, task (host.advance (resume reply) state).1 ∧
      (host.advance (resume reply) state).1.isWaiting = false ∧
      flag (host.advance (resume reply) state).2 = false
  turned : ∀ {turn}, turns turn → ∀ state, flag (turn state) = flag state

/-- Calls are where they may be, and one of them waits exactly while the flag is set. -/
structure Exclusive (flag : host.State → Bool) (task : Program σ ε α → Prop)
    (loop : EventLoop host ε α) : Prop where
  tasks : ∀ program ∈ loop.tasks, task program
  waiting : loop.waiting = if flag loop.state then 1 else 0

section Guarded

variable {functions : Program σ ε α → Prop} {turns : (host.State → host.State) → Prop}
  {flag : host.State → Bool} {task : Program σ ε α → Prop} {loop next : EventLoop host ε α}

theorem exclusive_nil {state : host.State} (clear : flag state = false) :
    Exclusive flag task (⟨state, []⟩ : EventLoop host ε α) where
  tasks := by simp
  waiting := by
    rw [clear]
    rfl

theorem Exclusive.waiting_eq_one (exclusive : Exclusive flag task loop) :
    flag loop.state = true ↔ loop.waiting = 1 := by
  rw [exclusive.waiting]
  cases flag loop.state <;> simp

/-- While a call waits the flag is set. -/
theorem Exclusive.flag_of_waits (exclusive : Exclusive flag task loop) {index : ℕ}
    {request : σ.Call} {resume : σ.Reply request → Program σ ε α}
    (waits : loop.tasks[index]? = some (.call request resume)) : flag loop.state = true := by
  have counted : 0 < loop.waiting :=
    List.countP_pos_iff.mpr ⟨_, List.mem_of_getElem? waits, rfl⟩
  rw [exclusive.waiting] at counted
  cases isSet : flag loop.state with
  | true => rfl
  | false => simp [isSet] at counted

theorem Exclusive.start (guarded : Guarded functions turns flag task)
    (exclusive : Exclusive flag task loop) {program : Program σ ε α}
    (isFunction : functions program) : Exclusive flag task (loop.start program) := by
  have tasks : task (host.advance program loop.state).1 →
      ∀ other ∈ (loop.start program).tasks, task other := by
    intro here other otherMem
    rcases List.mem_append.mp otherMem with old | new
    · exact exclusive.tasks other old
    · exact List.mem_singleton.mp new ▸ here
  cases isSet : flag loop.state with
  | false =>
      rcases guarded.entered isFunction isSet with ⟨here, set⟩
      refine ⟨tasks here, ?_⟩
      rw [waiting_start, exclusive.waiting, isSet, EventLoop.start, set]
      simp
  | true =>
      rcases guarded.skipped isFunction isSet with ⟨here, ended, set⟩
      refine ⟨tasks here, ?_⟩
      rw [waiting_start, exclusive.waiting, isSet, EventLoop.start, ended, set]
      rfl

theorem Exclusive.resume (guarded : Guarded functions turns flag task)
    (exclusive : Exclusive flag task loop) {index : ℕ} {request : σ.Call}
    {resume : σ.Reply request → Program σ ε α}
    (waits : loop.tasks[index]? = some (.call request resume)) (reply : σ.Reply request) :
    Exclusive flag task (loop.resume index (resume reply)) ∧
      flag (loop.resume index (resume reply)).state = false := by
  have isSet := exclusive.flag_of_waits waits
  rcases guarded.left (exclusive.tasks _ (List.mem_of_getElem? waits)) isSet reply with
    ⟨here, ended, clear⟩
  refine ⟨⟨fun other otherMem => ?_, ?_⟩, clear⟩
  · rcases List.mem_or_eq_of_mem_set otherMem with old | rfl
    · exact exclusive.tasks other old
    · exact here
  · have count := waiting_resume (resume reply) waits
    rw [exclusive.waiting, isSet, ended] at count
    rw [EventLoop.resume, clear]
    exact Nat.succ_inj.mp count

/-- A guarded section is exclusive, whatever pieces of code are run. -/
theorem Guarded.exclusive (guarded : Guarded functions turns flag task)
    (exclusive : Exclusive flag task loop)
    (reached : Relation.ReflTransGen (Step functions turns) loop next) :
    Exclusive flag task next := by
  induction reached with
  | refl => exact exclusive
  | tail _ stepped ih =>
      cases stepped with
      | start isFunction => exact ih.start guarded isFunction
      | settle waits reply => exact (ih.resume guarded waits reply).1
      | turn isTurn =>
          refine ⟨ih.tasks, ?_⟩
          rw [guarded.turned isTurn]
          exact ih.waiting

/-- Once the flag is clear it stays clear until the next call begins. -/
theorem Guarded.clear_of_reached (guarded : Guarded functions turns flag task)
    (exclusive : Exclusive flag task loop) (clear : flag loop.state = false)
    (reached : Relation.ReflTransGen (Step (fun _ => False) turns) loop next) :
    Exclusive flag task next ∧ flag next.state = false := by
  induction reached with
  | refl => exact ⟨exclusive, clear⟩
  | tail _ stepped ih =>
      rcases ih with ⟨stands, clear⟩
      cases stepped with
      | start isFunction => exact isFunction.elim
      | settle waits reply => exact stands.resume guarded waits reply
      | turn isTurn =>
          refine ⟨⟨stands.tasks, ?_⟩, (guarded.turned isTurn _).trans clear⟩
          rw [guarded.turned isTurn]
          exact stands.waiting

end Guarded

end EventLoop

end Effect
