import ProcessingCatalog.Library.EventLoop
import ProcessingCatalog.Messaging.OutboxRelay

/-!
# The scheduler of the relay

`OutboxRelayScheduler.tick` is called by an interval timer, and by anybody else,
at any moment. It starts a drain unless one is outstanding, which a flag tells
that is set before the drain is awaited and cleared in a `finally`. A drain may
take any time, and resolve or throw; its completion and the rest of the call
that awaits it are one step, since no timer fires between them.
-/

namespace ProcessingCatalog

open Effect Relay

namespace OutboxRelayScheduler

structure State where
  draining : Bool
  /-- Whether the interval is running. -/
  timer : Bool
  warnings : List JsString

inductive Call where
  | isDraining
  | setDraining (draining : Bool)
  | warn (message : JsString)
  | drain

abbrev signature : Signature where
  Call := Call
  Reply
    | .isDraining => Bool
    | .setDraining _ => Unit
    | .warn _ => Unit
    | .drain => Except Failure ℕ

/-- Only the drain is awaited. -/
abbrev host : Host signature where
  State := State
  now?
    | .isDraining => some fun state => (state.draining, state)
    | .setDraining draining => some fun state => ((), { state with draining })
    | .warn message =>
        some fun state => ((), { state with warnings := state.warnings ++ [message] })
    | .drain => none

/-- `relay.drain()`, whose failure rejects the promise. -/
def drain : Program signature Failure ℕ :=
  .call .drain .ofExcept

def setDraining (draining : Bool) : Program signature Failure Unit :=
  .call (.setDraining draining) .pure

section Tick

-- whether a relay was injected, and the message of what a drain throws
variable (relay : Bool) (message : Failure → JsString)

/-- What a failed drain is answered with. -/
def drainFailed (error : Failure) : Program signature Failure ℕ :=
  .call (.warn (js "Outbox drain failed, rows stay pending: " ++ message error)) fun _ => .pure 0

def tick : Program signature Failure ℕ := do
  if !relay then
    return 0
  if ← .call .isDraining .pure then
    return 0
  setDraining true
  (tryCatch drain (drainFailed message)).ensuring (setDraining false)

end Tick

/-- Without a relay there is nothing to drain, and no interval is started. -/
def onApplicationBootstrap (relay : Bool) (state : State) : State :=
  if !relay then state else { state with timer := true }

def onModuleDestroy (state : State) : State :=
  if state.timer then { state with timer := false } else state

/-- The scheduler as it is built. -/
def initial : State := ⟨false, false, []⟩

abbrev Loop : Type := EventLoop host Failure ℕ

/-- The functions of the scheduler that return at once. -/
def Turn (relay : Bool) (turn : State → State) : Prop :=
  turn = onApplicationBootstrap relay ∨ turn = onModuleDestroy

/-- A call of `tick`, the completion of a drain that a call awaits, or a call of another function of
the scheduler. -/
def Step (relay : Bool) (message : Failure → JsString) : Loop → Loop → Prop :=
  EventLoop.Step (· = tick relay message) (Turn relay)

/-- A step that is no call of `tick`. -/
def StepWithoutTick (relay : Bool) : Loop → Loop → Prop :=
  EventLoop.Step (fun _ => False) (Turn relay)

section Pieces

variable {relay : Bool} {message : Failure → JsString} {state : State}

/-- A tick whose drain is outstanding. -/
def awaited (message : Failure → JsString) : Program signature Failure ℕ :=
  (tryCatch drain (drainFailed message)).ensuring (setDraining false)

theorem advance_tick_without_relay :
    host.advance (tick false message) state = (.pure 0, state) := rfl

theorem advance_tick_of_draining (isSet : state.draining = true) :
    host.advance (tick relay message) state = (.pure 0, state) := by
  cases relay with
  | false => rfl
  | true => simp [tick, Host.advance, host, isSet]

theorem advance_tick_of_clear (clear : state.draining = false) :
    host.advance (tick true message) state =
      (awaited message, { state with draining := true }) := by
  simp [tick, awaited, setDraining, drain, Program.ensuring, Host.advance, host, clear]

/-- What a drain that has thrown is answered with. -/
def warning (message : Failure → JsString) : Except Failure ℕ → List JsString
  | .ok _ => []
  | .error error => [js "Outbox drain failed, rows stay pending: " ++ message error]

/-- The rest of a tick, once its drain has completed. -/
def resumed (message : Failure → JsString) (reply : Except Failure ℕ) :
    Program signature Failure ℕ :=
  (tryCatch (.ofExcept reply) (drainFailed message)).ensuring (setDraining false)

theorem awaited_eq : awaited message = .call .drain (resumed message) := rfl

/-- Whatever the drain did, the flag is cleared and nothing is thrown. -/
theorem advance_resumed (reply : Except Failure ℕ) :
    host.advance (resumed message reply) state =
      (.pure (reply.toOption.getD 0),
        { state with draining := false, warnings := state.warnings ++ warning message reply }) := by
  cases reply <;>
    simp [resumed, warning, drainFailed, setDraining, Program.ensuring, Host.advance, host,
      Except.toOption]

/-- Where a call of `tick` stands: its drain is outstanding, or it has returned. -/
def Stands (relay : Bool) (message : Failure → JsString) (program : Program signature Failure ℕ) :
    Prop :=
  (relay = true ∧ program = awaited message) ∨ ∃ drained, program = .pure drained

theorem Stands.relay_of_awaited (stands : Stands relay message (awaited message)) :
    relay = true := by
  rcases stands with ⟨given, _⟩ | ⟨drained, ended⟩
  · exact given
  · cases ended

end Pieces

section Runs

variable {relay : Bool} {message : Failure → JsString} {loop later : Loop}

/-- The drain is the section that the flag guards. -/
theorem guarded (relay : Bool) (message : Failure → JsString) :
    @EventLoop.Guarded signature Failure ℕ host (· = tick relay message) (Turn relay)
      State.draining (Stands relay message) where
  entered := by
    rintro program state rfl clear
    cases relay with
    | false =>
        rw [advance_tick_without_relay]
        exact ⟨.inr ⟨0, rfl⟩, clear⟩
    | true =>
        rw [advance_tick_of_clear clear]
        exact ⟨.inl ⟨rfl, rfl⟩, rfl⟩
  skipped := by
    rintro program state rfl isSet
    rw [advance_tick_of_draining isSet]
    exact ⟨.inr ⟨0, rfl⟩, rfl, isSet⟩
  left := by
    intro request resume state stands isSet reply
    rcases stands with ⟨_, waits⟩ | ⟨drained, ended⟩
    · -- the only call that is awaited is the drain
      rw [awaited_eq] at waits
      injection waits with sameCall sameRest
      subst sameCall
      rw [eq_of_heq sameRest, advance_resumed]
      exact ⟨.inr ⟨_, rfl⟩, rfl, rfl⟩
    · cases ended
  turned := by
    rintro turn (rfl | rfl) state
    · unfold onApplicationBootstrap
      split <;> rfl
    · unfold onModuleDestroy
      split <;> rfl

/-- The scheduler as it is built, before anybody calls it. -/
def unstarted : Loop := ⟨initial, []⟩

theorem exclusive_of_reached (reached : Relation.ReflTransGen (Step relay message) unstarted loop) :
    EventLoop.Exclusive State.draining (Stands relay message) loop :=
  (guarded relay message).exclusive (EventLoop.exclusive_nil rfl) reached

/-- Drains neither overlap nor stop: at most one is outstanding, which the flag tells; a tick beside
it returns 0 and starts nothing; and however it completes, the next tick starts another. No tick
throws. -/
theorem never_overlaps_nor_wedges
    (reached : Relation.ReflTransGen (Step relay message) unstarted loop) :
    loop.waiting ≤ 1 ∧
      (loop.state.draining = true ↔ loop.waiting = 1) ∧
      (∀ program ∈ loop.tasks, Stands relay message program) ∧
      (loop.waiting = 1 →
        loop.start (tick relay message) = { loop with tasks := loop.tasks ++ [.pure 0] }) ∧
      ∀ index, loop.tasks[index]? = some (awaited message) → ∀ reply,
        Relation.ReflTransGen (StepWithoutTick relay)
          (loop.resume index (resumed message reply)) later →
        later.waiting = 0 ∧
          (later.start (tick relay message)).tasks = later.tasks ++ [awaited message] := by
  have exclusive := exclusive_of_reached reached
  refine ⟨?_, exclusive.waiting_eq_one, exclusive.tasks, fun isOne => ?_, ?_⟩
  · rw [exclusive.waiting]
    split <;> omega
  · rw [EventLoop.start, advance_tick_of_draining (exclusive.waiting_eq_one.mpr isOne)]
  · intro index waits reply waited
    rcases exclusive.resume (guarded relay message) waits reply with ⟨ended, clear⟩
    rcases (guarded relay message).clear_of_reached ended clear waited with ⟨stands, clear⟩
    refine ⟨by rw [stands.waiting, clear]; rfl, ?_⟩
    have given := (exclusive.tasks _ (List.mem_of_getElem? waits)).relay_of_awaited
    rw [EventLoop.start, given, advance_tick_of_clear clear]

/-- After a drain that has thrown, the next tick drains again. -/
theorem never_overlaps_nor_wedges_timeout :
    let message : Failure → JsString := fun _ => js "publish timed out"
    let started := unstarted.start (tick true message)
    started.waiting ≤ 1 ∧
      ((started.resume 0 (resumed message (.error (.publish .timeout)))).start
        (tick true message)).tasks = [.pure 0, awaited message] := by
  intro message started
  have reached : Relation.ReflTransGen (Step true message) unstarted started := .single (.start rfl)
  rcases never_overlaps_nor_wedges reached with ⟨atMostOne, _, _, _, again⟩
  exact ⟨atMostOne, (again 0 rfl (.error (.publish .timeout)) .refl).2⟩

end Runs

end OutboxRelayScheduler

end ProcessingCatalog
