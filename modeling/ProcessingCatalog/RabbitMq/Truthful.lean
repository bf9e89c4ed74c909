import ProcessingCatalog.RabbitMq.Settlement
import ProcessingCatalog.Persistence.Sessions

/-!
# A settlement tells what became of the store

One delivery to one consumer over PostgreSQL, where any statement may fail. The
handling is verified as a session: it ends with its event recorded, or throws
with nothing committed. The settlement follows its outcome, so what is on the
channel says which of the two the store holds.
-/

namespace ProcessingCatalog

open Effect Machine TypeOrm

namespace Postgres

section Handling

variable {ι : Type} [Fintype ι] [DecidableEq ι] {faults : Bool} {operations : ι → Operation}
  {initial : Database} {index : ι}

/-- How the handling of a message ends: with its event recorded, or with nothing committed. -/
def Handled (event : ConsumedEventName) (draws : Draws) (content : JsString) (index : ι)
    (outcome : Except Thrown Unit) (shared : Shared ι) : Prop :=
  match outcome with
  | .ok _ => ∃ parsed, event.read draws.stack content = .ok parsed ∧ Recorded parsed.eventId shared
  | .error _ => Uncommitted index shared

/-- The handling of a message, followed as a session. -/
theorem verified_handleMessage {event : ConsumedEventName} {draws : Draws} {content : JsString}
    (isOperation : ∀ parsed, event.read draws.stack content = .ok parsed →
      operations index = parsed.operation draws) :
    (discipline faults operations initial).Verified index
      (fun outcome _ shared => Handled event draws content index outcome shared)
      (event.handleMessage (repository .dataSource) unitOfWork draws content) .idle
      (Uncommitted index) := by
  rw [ConsumedEventName.handleMessage_eq]
  unfold Discipline.Verified
  rw [Discipline.follows_bind, Discipline.follows_ofExcept]
  cases isRead : event.read draws.stack content with
  | error error => exact fun shared uncommitted => uncommitted
  | ok parsed =>
      simp only
      rw [Discipline.follows_bind, ← isOperation parsed isRead]
      have isCall := isOperation parsed isRead
      apply (verified index).mono
      intro outcome own assertion ended
      have lifecycle : ∀ shared, assertion shared → ∃ result : Except Thrown ProcessingRequest,
          outcome = result.map .request ∧ LifecycleEnded parsed.eventId index result shared := by
        intro shared holds
        have ended := ended shared holds
        have isEvent := parsed.event?_operation draws
        rw [← ConsumedEvent.eventId_operation draws parsed]
        unfold Ended at ended
        rw [isCall] at ended
        cases called : parsed.operation draws with
        | create draws input => simp [called, Operation.event?] at isEvent
        | _ =>
            rw [called] at ended
            exact ended
      cases outcome with
      | ok answer =>
          intro shared holds
          rcases lifecycle shared holds with ⟨result, answered, recorded⟩
          cases result with
          | error error => cases answered
          | ok request => exact ⟨parsed, isRead, recorded⟩
      | error error =>
          intro shared holds
          rcases lifecycle shared holds with ⟨result, answered, uncommitted⟩
          cases result with
          | error error => exact uncommitted
          | ok request => cases answered

end Handling

section Delivery

variable (event : ConsumedEventName) (drawn : Uuid) (draws : Draws) (backoffMs : ℕ)
  (content : JsString) (initial : Database) (nextOutboxId : ℕ)

/-- The handling of one message, alone over a database that may fail. -/
def handling : World (machine Unit true) Thrown Unit where
  shared := ⟨initial, nextOutboxId, []⟩
  locals _ := .idle
  programs _ := event.handleMessage (repository .dataSource) unitOfWork draws content

/-- The delivery of one message to a consumer. -/
def delivery : World ((machine Unit true).traced ConsumerEffect) Thrown Unit where
  shared := (⟨initial, nextOutboxId, []⟩, [])
  locals _ := .idle
  programs _ := (event.consume (repository .dataSource) unitOfWork drawn draws backoffMs content).2

theorem projects_delivery :
    Projects (fun _ => settlement event backoffMs)
      (handling event draws content initial nextOutboxId)
      (delivery event drawn draws backoffMs content initial nextOutboxId) := by
  have isStart : delivery event drawn draws backoffMs content initial nextOutboxId =
      { shared := ((handling event draws content initial nextOutboxId).shared, [])
        locals := (handling event draws content initial nextOutboxId).locals
        programs := fun index => ((handling event draws content initial nextOutboxId).programs
          index).concluding (settlement event backoffMs) } := by
    unfold delivery handling ConsumedEventName.consume withMessageCorrelation
    simp only [settleMessage_eq]
  rw [isStart]
  exact .start _ _

variable {event draws content initial nextOutboxId} {base : World (machine Unit true) Thrown Unit}

/-- The operation a message calls for, and any other one when it calls for none. -/
def calledOperation (event : ConsumedEventName) (draws : Draws) (content : JsString) : Operation :=
  match event.read draws.stack content with
  | .ok parsed => parsed.operation draws
  | .error _ => .accept draws ⟨[], [], []⟩

theorem holds_handling (numbered : Numbered initial nextOutboxId) :
    (discipline true (fun _ : Unit => calledOperation event draws content) initial).Holds
      (fun index outcome _ shared => Handled event draws content index outcome shared)
      (handling event draws content initial nextOutboxId) := by
  let operations : Unit → Operation := fun _ => calledOperation event draws content
  have started : (discipline true operations initial).Holds
      (fun index outcome _ shared => Ended true operations initial index outcome shared)
      (start true operations initial nextOutboxId) := holds_start numbered
  refine ⟨started.1, fun index => ⟨Uncommitted index, persistent_uncommitted.stable _, ?_, ?_⟩⟩
  · simp [handling, Uncommitted]
  · apply verified_handleMessage
    intro parsed isRead
    simp [calledOperation, isRead]

/-- How a handling that is alone has left the store: with its event recorded, or as it was. -/
def HandledAlone (event : ConsumedEventName) (draws : Draws) (content : JsString)
    (initial : Database) (outcome : Except Thrown Unit) (shared : Shared Unit) : Prop :=
  match outcome with
  | .ok _ => ∃ parsed, event.read draws.stack content = .ok parsed ∧ Recorded parsed.eventId shared
  | .error _ => shared.database = initial

/-- How a handling that has ended has left the store. -/
theorem handled_reached (numbered : Numbered initial nextOutboxId)
    (reached : Reaches (handling event draws content initial nextOutboxId) base)
    {outcome : Except Thrown Unit} (ended : base.programs () = .ofExcept outcome) :
    HandledAlone event draws content initial outcome base.shared := by
  have holds := (holds_handling numbered).reaches (discipline_sound ..) reached
  have handled := holds.ended ended
  cases outcome with
  | ok _ => exact handled
  | error error =>
      have nothing : base.shared.committed = [] :=
        List.eq_nil_iff_forall_not_mem.mpr fun entry entryMem => handled entry entryMem rfl
      change base.shared.database = initial
      rw [holds.1.database_eq, nothing]
      rfl

end Delivery

/-- The effects a delivery has left tell the truth about how its handling `ended` and about the
store: the message is settled at most once; an ack means that the handling returned and its event
is recorded; a `nack` means that the handling threw and left the store as it was, and that it threw
a domain error or a syntax error if and only if the message is not requeued. -/
structure Truthful (event : ConsumedEventName) (draws : Draws) (content : JsString)
    (initial : Database) (ended : Option (Except Thrown Unit)) (effects : List ConsumerEffect)
    (database : Database) : Prop where
  settled_once : effects.countP ConsumerEffect.settles ≤ 1
  acked : .ack ∈ effects → ended = some (.ok ()) ∧
    ∃ parsed, event.read draws.stack content = .ok parsed ∧
      (database.events.find? parsed.eventId).isSome
  nacked : ∀ allUpTo requeue, .nack allUpTo requeue ∈ effects → database = initial ∧
    ∃ error, ended = some (.error error) ∧ (requeue = false ↔
      (∃ message, error = .processingRequestDomainError message) ∨ error = .syntaxError)

/-- A delivery that has ended has settled its message, and has counted it once under the outcome of
a final settlement. -/
structure Counted (event : ConsumedEventName) (effects : List ConsumerEffect) : Prop where
  settled : effects.countP ConsumerEffect.settles = 1
  acked : .ack ∈ effects → effects.filter ConsumerEffect.counts = [.counted event .acked]
  deadLettered : ∀ allUpTo, .nack allUpTo false ∈ effects →
    effects.filter ConsumerEffect.counts = [.counted event .deadLettered]
  requeued : ∀ allUpTo, .nack allUpTo true ∈ effects → effects.filter ConsumerEffect.counts = []

section Theorem

variable {event : ConsumedEventName} {draws : Draws} {drawn : Uuid} {backoffMs : ℕ}
  {content : JsString} {initial : Database} {nextOutboxId : ℕ}
  {world : World ((machine Unit true).traced ConsumerEffect) Thrown Unit}

theorem answers_machine : (machine Unit true).Answers := by
  intro index shared connections statement
  exact ⟨.fail .connectionError, rfl⟩

/-- The handling of the message of a delivery, taken along the steps of the delivery: the same
statements with the same answers. -/
def handlingAlong (event : ConsumedEventName) (draws : Draws) (content : JsString)
    (initial : Database) (nextOutboxId : ℕ)
    (steps : List (Action ((machine Unit true).traced ConsumerEffect))) :
    World (machine Unit true) Thrown Unit :=
  follow (handling event draws content initial nextOutboxId) (steps.map .untraced)

/-- What a delivery has left is what its settlement calls for by how its own handling has ended. -/
theorem projects_along
    {steps : List (Action ((machine Unit true).traced ConsumerEffect))}
    (ran : runActions (delivery event drawn draws backoffMs content initial nextOutboxId) steps =
      some world) :
    Projects (fun _ => settlement event backoffMs)
      (handlingAlong event draws content initial nextOutboxId steps) world :=
  (projects_delivery event drawn draws backoffMs content initial nextOutboxId).follow ran

/-- For every delivery, after any steps that it may take while any statement may fail: the effects
it has left tell the truth about how the handling of its message has ended along these steps and
about the store, it can go on to its end, and when it has ended it has settled and counted its
message as it should. -/
theorem settlement_truthful (numbered : Numbered initial nextOutboxId)
    {steps : List (Action ((machine Unit true).traced ConsumerEffect))}
    (ran : runActions (delivery event drawn draws backoffMs content initial nextOutboxId) steps =
      some world) :
    Truthful event draws content initial
      ((handlingAlong event draws content initial nextOutboxId steps).programs ()).outcome?
      (leftBy () world.shared.2) world.shared.1.database ∧
    (handlingAlong event draws content initial nextOutboxId steps).shared = world.shared.1 ∧
    (∃ last, Reaches world last ∧ last.programs () = .pure ()) ∧
    (world.programs () = .pure () → Counted event (leftBy () world.shared.2)) := by
  have projects := projects_along ran
  have handled : ∀ {outcome : Except Thrown Unit},
      (handlingAlong event draws content initial nextOutboxId steps).programs () =
        .ofExcept outcome → HandledAlone event draws content initial outcome world.shared.1 := by
    intro outcome isEnd
    rw [projects.shared]
    exact handled_reached numbered (reaches_follow _ _) isEnd
  refine ⟨?_, projects.shared.symm, ?_, fun finished => ?_⟩
  · constructor
    · cases effects : leftBy () world.shared.2 with
      | nil => exact Nat.zero_le 1
      | cons effect _ =>
          rcases projects.outcome_of_left (effects ▸ List.mem_cons_self) with ⟨outcome, _, called⟩
          have settles : (settlement event backoffMs outcome).countP ConsumerEffect.settles = 1 :=
            countP_settlement outcome
          rw [← effects, ← settles]
          exact called.sublist.countP_le
    · intro acked
      rcases projects.outcome_of_left acked with ⟨outcome, isEnd, called⟩
      obtain rfl := ack_mem_settlement (called.subset acked)
      exact ⟨Program.outcome?_eq_some_iff.mpr isEnd, handled isEnd⟩
    · intro allUpTo requeue nacked
      rcases projects.outcome_of_left nacked with ⟨outcome, isEnd, called⟩
      rcases nack_mem_settlement (called.subset nacked) with ⟨error, rfl, isRequeue⟩
      refine ⟨handled isEnd, error, Program.outcome?_eq_some_iff.mpr isEnd, ?_⟩
      rw [isRequeue, ← isPermanentFailure_iff, Bool.not_eq_false']
  · rcases (answers_machine.traced .proceed).exists_ended world () with
      ⟨last, outcome, lastReached, isEnd⟩
    refine ⟨last, lastReached, ?_⟩
    cases outcome with
    | ok _ => exact isEnd
    | error error =>
        rcases (projects_delivery event drawn draws backoffMs content initial nextOutboxId).reaches
          ((reaches_of_runActions ran).trans lastReached) with ⟨_, _, projects⟩
        exact absurd isEnd (projects.not_thrown () error)
  · rcases projects.ended finished with ⟨outcome, _, called⟩
    rw [called]
    refine ⟨countP_settlement outcome, fun acked => ?_, fun allUpTo nacked => ?_,
      fun allUpTo nacked => ?_⟩
    · obtain rfl := ack_mem_settlement acked
      rfl
    · rcases nack_mem_settlement nacked with ⟨error, rfl, isRequeue⟩
      rw [settlement_of_permanent (by simpa using isRequeue)]
      rfl
    · rcases nack_mem_settlement nacked with ⟨error, rfl, isRequeue⟩
      by_cases pauses : backoffMs > 0 <;>
        simp_all [settlement, ConsumerEffect.counts]

end Theorem

/-- The acceptance of a request that nobody has created. -/
def unknownBody : JsString :=
  js "\x7b\"data\":\x7b\"eventId\":\"e-1\",\"processingRequestId\":" ++
    js "\"6f1c2a34-0b7d-4c59-9e21-3d5a8b0c4e17\",\"occurredAt\":\"2026-09-21\"\x7d\x7d"

def unknownDraws : Draws :=
  ⟨1789953000000, .repeated 1, .repeated 2, 3000⟩

theorem settlement_truthful_unknown :
    ∃ world : World ((machine Unit true).traced ConsumerEffect) Thrown Unit,
      Truthful .videoAccepted unknownDraws unknownBody .empty
        (some (.error (processingRequestNotFound (js "6f1c2a34-0b7d-4c59-9e21-3d5a8b0c4e17"))))
        [.nack false false, .counted .videoAccepted .deadLettered] world.shared.1.database := by
  let steps : List (Action ((machine Unit true).traced ConsumerEffect)) :=
    List.replicate 6 (.session () .proceed)
  have ran : ((Machine.runActions (delivery .videoAccepted unknownDraws.eventUuid unknownDraws 1000
      unknownBody .empty 1) steps).map fun world =>
      decide (leftBy () world.shared.2 =
          [.nack false false, .counted .videoAccepted .deadLettered])) = some true := by
    decide +kernel
  have threw : ((handlingAlong .videoAccepted unknownDraws unknownBody .empty 1 steps).programs
      ()).outcome? =
        some (.error (processingRequestNotFound (js "6f1c2a34-0b7d-4c59-9e21-3d5a8b0c4e17"))) := by
    decide +kernel
  rcases Option.map_eq_some_iff.mp ran with ⟨world, ran, left⟩
  have left := of_decide_eq_true left
  have numbered : Numbered .empty 1 := by simp [Numbered, Database.empty]
  have truthful := (settlement_truthful numbered ran).1
  rw [threw, left] at truthful
  exact ⟨world, truthful⟩

end Postgres

end ProcessingCatalog
