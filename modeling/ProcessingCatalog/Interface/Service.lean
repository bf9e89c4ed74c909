import ProcessingCatalog.Interface.CreateProcessingRequestController
import ProcessingCatalog.Persistence.IdempotentCreate
import ProcessingCatalog.RabbitMq.Poison
import ProcessingCatalog.RabbitMq.Truthful

/-!
# The service and its callers

Requests to create and messages of the queues reach the service side by side,
over one database that may fail. A request is answered with what its route
returned or threw, and a message is settled on its channel. What both tell their
senders is compared here with what the database holds.
-/

namespace ProcessingCatalog

open Effect Machine TypeOrm Domain CreateProcessingRequestController
open CreateProcessingRequestUseCase (requestRow)

/-- What the route of a create returns or throws. -/
abbrev Responded : Type := Except HttpException (ℕ × CreatedBody)

/-- What reaches the service: a body posted to `processing-requests`, or a message of a queue. -/
inductive Ingress where
  | post (eventId : Uuid) (draws : Draws) (body : Json)
  | deliver (event : ConsumedEventName) (drawn : Uuid) (draws : Draws) (backoffMs : ℕ)
      (content : JsString)

deriving instance DecidableEq for CreatedBody

/-- What the service lets its callers see. -/
inductive Emission where
  | channel (effect : ConsumerEffect)
  | answered (outcome : Except Thrown Responded)
  deriving DecidableEq

/-- What is on the channel of what a caller has seen. -/
def onChannel (seen : List Emission) : List ConsumerEffect :=
  seen.filterMap fun
    | .channel effect => some effect
    | .answered _ => none

theorem onChannel_map (effects : List ConsumerEffect) :
    onChannel (effects.map .channel) = effects := by
  simp [onChannel, List.filterMap_map]

namespace Ingress

/-- What is done for a caller, and what the caller sees of it. -/
def program : Ingress → Computation (Postgres.signature.traced Emission) Unit
  | .post eventId draws body => do
      let outcome ←
        (create (repository .dataSource) unitOfWork eventId draws body).run.traced.attempt
      .leave (.answered outcome)
  | .deliver event drawn draws backoffMs content =>
      (event.consume (repository .dataSource) unitOfWork drawn draws backoffMs
        content).2.relabel .channel

/-- The calls to the database that are made for a caller. -/
def calls : Ingress → Computation Postgres.signature (Option Responded)
  | .post eventId draws body =>
      some <$> (create (repository .dataSource) unitOfWork eventId draws body).run
  | .deliver event _ draws _ content =>
      (fun _ => none) <$> event.handleMessage (repository .dataSource) unitOfWork draws content

/-- What a caller sees, by how the calls made for it ended. -/
def emissions : Ingress → Except Thrown (Option Responded) → List Emission
  | .post .., .ok responded => responded.toList.map fun responded => .answered (.ok responded)
  | .post .., .error error => [.answered (.error error)]
  | .deliver event _ _ backoffMs _, outcome =>
      (settlement event backoffMs (outcome.map fun _ => ())).map .channel

/-- Every caller sees the end of the calls made for it, and nothing before. -/
theorem program_eq (ingress : Ingress) :
    ingress.program = ingress.calls.concluding ingress.emissions := by
  cases ingress with
  | post eventId draws body =>
      rw [calls, Program.concluding_map]
      refine (Program.attempt_bind (fun outcome => ?_) _).trans rfl
      cases outcome <;> rfl
  | deliver event drawn draws backoffMs content =>
      rw [calls, Program.concluding_map]
      simp only [program, ConsumedEventName.consume, withMessageCorrelation, settleMessage_eq,
        Program.relabel_concluding]
      refine congrArg (Program.concluding · _) (funext fun outcome => ?_)
      cases outcome <;> rfl

/-- The operation a caller asks for, and any other one when it asks for none. -/
def operation : Ingress → Operation
  | .post eventId draws body =>
      match (validateDto body).run with
      | .ok (.ok dto) => .create draws (inputOf eventId dto)
      | _ => .accept draws ⟨[], [], []⟩
  | .deliver event _ draws _ content => Postgres.calledOperation event draws content

/-- The event a caller has consumed. -/
def event? : Ingress → Option ConsumedEventName
  | .post .. => none
  | .deliver event .. => some event

end Ingress

namespace Postgres

variable {ι : Type}

/-- How the calls of a `POST` end: an answer tells how the create has ended, and anything else
leaves nothing committed. -/
def Posted (operations : ι → Operation) (initial : Database) (index : ι) (eventId : Uuid)
    (draws : Draws) (body : Json) (outcome : Except Thrown Responded) (shared : Shared ι) : Prop :=
  match outcome with
  | .ok (.ok answer) => ∃ dto result, (validateDto body).run = .ok (.ok dto) ∧
      answer = answerOf result ∧
      CreateEnded true operations initial index draws (inputOf eventId dto) (.ok result) shared
  | .ok (.error exception) => Uncommitted index shared ∧
      ((validateDto body).run = .ok (.error exception) ∨
        ∃ dto error, (validateDto body).run = .ok (.ok dto) ∧
          (exceptionOf error : Computation Postgres.signature _) = .pure (.error exception) ∧
          CreateThrew true operations initial draws (inputOf eventId dto) error shared)
  | .error _ => Uncommitted index shared

/-- Why a delivery threw: the message cannot be read, or its event is refused for its own fields,
or the database failed, or the request did not allow the event as it stood at some moment. -/
inductive RefusedFor (operations : ι → Operation) (initial : Database) (event : ConsumedEventName)
    (draws : Draws) (content : JsString) (shared : Shared ι) : Thrown → Prop where
  | unread {error} (isRead : event.read draws.stack content = .error error) :
      RefusedFor operations initial event draws content shared error
  | invalid {parsed error} (isRead : event.read draws.stack content = .ok parsed)
      (refused : (parsed.lifecycle draws).refusal = some error) :
      RefusedFor operations initial event draws content shared error
  | database {parsed} (isRead : event.read draws.stack content = .ok parsed)
      (valid : (parsed.lifecycle draws).refusal = none) (failure : DatabaseError) :
      RefusedFor operations initial event draws content shared (.database failure)
  | request {parsed error} (isRead : event.read draws.stack content = .ok parsed)
      (valid : (parsed.lifecycle draws).refusal = none)
      (refused : Saw operations initial ((parsed.lifecycle draws).Refused error) shared) :
      RefusedFor operations initial event draws content shared error

/-- How the calls of a delivery end: with its event recorded, or with a reason and nothing
committed. -/
def HandledAccounted (operations : ι → Operation) (initial : Database) (index : ι)
    (event : ConsumedEventName) (draws : Draws) (content : JsString) (outcome : Except Thrown Unit)
    (shared : Shared ι) : Prop :=
  match outcome with
  | .ok _ => ∃ parsed, event.read draws.stack content = .ok parsed ∧ Recorded parsed.eventId shared
  | .error error => Uncommitted index shared ∧
      RefusedFor operations initial event draws content shared error

/-- How the calls made for a caller end. -/
inductive IngressEnded (operations : ι → Operation) (initial : Database) (index : ι)
    (shared : Shared ι) : Ingress → Except Thrown (Option Responded) → Prop where
  | post {eventId draws body} (outcome)
      (posted : Posted operations initial index eventId draws body outcome shared) :
      IngressEnded operations initial index shared (.post eventId draws body) (outcome.map some)
  | deliver {event drawn draws backoffMs content} (outcome : Except Thrown Unit)
      (handled : HandledAccounted operations initial index event draws content outcome shared) :
      IngressEnded operations initial index shared (.deliver event drawn draws backoffMs content)
        (outcome.map fun _ => none)

section Verified

variable [Fintype ι] [DecidableEq ι] {operations : ι → Operation} {initial : Database} {index : ι}

/-- The error of a create is answered, or thrown on. -/
theorem exceptionOf_cases (error : Thrown) :
    (∃ exception, (exceptionOf error : Computation Postgres.signature _) =
        .pure (.error exception)) ∨
      (exceptionOf error : Computation Postgres.signature _) = .throw error := by
  cases error with
  | idempotencyConflictError => exact .inl ⟨_, rfl⟩
  | processingRequestDomainError message => exact .inl ⟨_, rfl⟩
  | _ => exact .inr rfl

/-- The route of a create, followed as a session. -/
theorem verified_post {eventId : Uuid} {draws : Draws} {body : Json}
    (isCreate : ∀ dto, (validateDto body).run = .ok (.ok dto) →
      operations index = .create draws (inputOf eventId dto)) :
    (discipline true operations initial).Verified index
      (fun outcome _ shared => Posted operations initial index eventId draws body outcome shared)
      (create (repository .dataSource) unitOfWork eventId draws body).run .idle
      (Uncommitted index) := by
  unfold Discipline.Verified create
  rw [ExceptT.run_bind, ExceptT.run_mk, Discipline.follows_bind, Discipline.follows_ofExcept]
  cases checked : (validateDto body).run with
  | error error => exact fun shared uncommitted => uncommitted
  | ok accepted =>
  cases accepted with
  | error exception => exact fun shared uncommitted => ⟨uncommitted, .inl checked⟩
  | ok dto =>
  change (discipline true operations initial).Follows index _ (tryCatch _ exceptionOf) _ _
  rw [Discipline.follows_tryCatch, Discipline.follows_bind]
  refine (follows_create (isCreate dto checked)).mono fun outcome own assertion post => ?_
  rcases post with ⟨rfl, ended⟩
  cases outcome with
  | ok result => exact fun shared holds => ⟨dto, result, checked, rfl, ended shared holds⟩
  | error error =>
      have threw : ∀ shared, assertion shared → Uncommitted index shared ∧
          CreateThrew true operations initial draws (inputOf eventId dto) error shared := ended
      rcases exceptionOf_cases error with ⟨exception, isException⟩ | thrown
      · simp only [isException]
        intro shared holds
        exact ⟨(threw shared holds).1, .inr ⟨dto, error, checked, isException,
          (threw shared holds).2⟩⟩
      · simp only [thrown]
        exact fun shared holds => (threw shared holds).1

/-- The handling of a message, followed as a session that accounts for what it throws. -/
theorem verified_delivery {event : ConsumedEventName} {draws : Draws} {content : JsString}
    (isOperation : ∀ parsed, event.read draws.stack content = .ok parsed →
      operations index = parsed.operation draws) :
    (discipline true operations initial).Verified index
      (fun outcome _ shared =>
        HandledAccounted operations initial index event draws content outcome shared)
      (event.handleMessage (repository .dataSource) unitOfWork draws content) .idle
      (Uncommitted index) := by
  rw [ConsumedEventName.handleMessage_eq]
  unfold Discipline.Verified
  rw [Discipline.follows_bind, Discipline.follows_ofExcept]
  cases isRead : event.read draws.stack content with
  | error error => exact fun shared uncommitted => ⟨uncommitted, .unread isRead⟩
  | ok parsed =>
      have isEvent := parsed.event?_operation draws
      have ownEvent : (operations index).event? = some (parsed.lifecycle draws) := by
        rw [isOperation parsed isRead, isEvent]
      simp only
      rw [Operation.execute_of_event isEvent, map_bind_const, Discipline.follows_bind]
      cases refused : (parsed.lifecycle draws).refusal with
      | some error =>
          rw [LifecycleEvent.handle_of_refusal refused]
          exact fun shared uncommitted => ⟨uncommitted, .invalid isRead refused⟩
      | none =>
      have weaken : ∀ {outcome own} {assertion assertion' : Shared ι → Prop},
          (∀ shared, assertion' shared → assertion shared) →
          AccountedPost (α := ProcessingRequest) operations initial (parsed.lifecycle draws) index
            [] outcome own assertion →
          AccountedPost operations initial (parsed.lifecycle draws) index [] outcome own
            assertion' :=
        fun entails ends => ⟨ends.1, fun shared holds => ends.2 shared (entails shared holds)⟩
      refine (Discipline.Follows.weaken weaken (follows_lifecycle_accounted ownEvent)
        fun _ fresh => ⟨fresh, List.nil_prefix⟩).mono fun outcome own assertion ⟨_, ended⟩ => ?_
      have isEventId : (parsed.lifecycle draws).eventId = parsed.eventId :=
        (Operation.eventId_of_event isEvent).trans (parsed.eventId_operation draws)
      cases outcome with
      | ok request =>
          intro shared holds
          have recorded : Recorded (parsed.lifecycle draws).eventId shared := ended shared holds
          exact ⟨parsed, isRead, isEventId ▸ recorded⟩
      | error error =>
          intro shared holds
          rcases ended shared holds with ⟨uncommitted, explained⟩
          refine ⟨uncommitted, ?_⟩
          cases explained with
          | input isRefused =>
              rw [refused] at isRefused
              cases isRefused
          | database failure => exact .database isRead refused failure
          | request _ since =>
              rcases since with ⟨moment, ledger, _, isPast, history, isRefused⟩
              exact .request isRead refused ⟨moment, ledger, isPast, history, isRefused⟩

end Verified

/-! ## Any traffic -/

section Traffic

variable [Fintype ι] [DecidableEq ι] (ingress : ι → Ingress) (initial : Database) (nextOutboxId : ℕ)

/-- The operations the callers ask for. -/
def asked (index : ι) : Operation :=
  (ingress index).operation

/-- The calls made for the callers, over a database that may fail. -/
def serving : World (machine ι true) Thrown (Option Responded) where
  shared := ⟨initial, nextOutboxId, []⟩
  locals _ := .idle
  programs index := (ingress index).calls

/-- The service, before it has begun to serve any of its callers. -/
def service : World ((machine ι true).traced Emission) Thrown Unit where
  shared := (⟨initial, nextOutboxId, []⟩, [])
  locals _ := .idle
  programs index := (ingress index).program

theorem projects_service :
    Projects (fun index => (ingress index).emissions) (serving ingress initial nextOutboxId)
      (service ingress initial nextOutboxId) := by
  have isStart : service ingress initial nextOutboxId =
      { shared := ((serving ingress initial nextOutboxId).shared, [])
        locals := (serving ingress initial nextOutboxId).locals
        programs := fun index => ((serving ingress initial nextOutboxId).programs
          index).concluding (ingress index).emissions } := by
    unfold service serving
    simp only [Ingress.program_eq]
  rw [isStart]
  exact .start _ _

variable {ingress initial nextOutboxId} {index : ι}

theorem holds_serving (numbered : Numbered initial nextOutboxId) :
    (discipline true (asked ingress) initial).Holds
      (fun index outcome _ shared =>
        IngressEnded (asked ingress) initial index shared (ingress index) outcome)
      (serving ingress initial nextOutboxId) := by
  have started : (discipline true (asked ingress) initial).Holds
      (fun index outcome _ shared => Ended true (asked ingress) initial index outcome shared)
      (start true (asked ingress) initial nextOutboxId) := holds_start numbered
  refine ⟨started.1, fun index => ⟨Uncommitted index, persistent_uncommitted.stable _, ?_, ?_⟩⟩
  · simp [serving, Uncommitted]
  unfold Discipline.Verified
  simp only [serving]
  cases isIngress : ingress index with
  | post eventId draws body =>
      have isCreate : ∀ dto, (validateDto body).run = .ok (.ok dto) →
          asked ingress index = .create draws (inputOf eventId dto) := by
        intro dto checked
        simp only [asked, isIngress, Ingress.operation, checked]
      rw [Ingress.calls, map_eq_pure_bind, Discipline.follows_bind]
      refine (verified_post isCreate).mono fun outcome own assertion posted => ?_
      cases outcome with
      | ok responded =>
          exact fun shared holds => .post (.ok responded) (posted shared holds)
      | error error =>
          exact fun shared holds => .post (.error error) (posted shared holds)
  | deliver event drawn draws backoffMs content =>
      have isOperation : ∀ parsed, event.read draws.stack content = .ok parsed →
          asked ingress index = parsed.operation draws := by
        intro parsed isRead
        simp only [asked, isIngress, Ingress.operation, calledOperation, isRead]
      rw [Ingress.calls, map_eq_pure_bind, Discipline.follows_bind]
      refine (verified_delivery isOperation).mono fun outcome own assertion handled => ?_
      cases outcome with
      | ok value => exact fun shared holds => .deliver (.ok value) (handled shared holds)
      | error error =>
          exact fun shared holds => .deliver (.error error) (handled shared holds)

variable {world : World ((machine ι true).traced Emission) Thrown Unit}

/-- The calls made for the callers, taken along the steps of the service: the same statements with
the same answers. -/
def servingAlong (ingress : ι → Ingress) (initial : Database) (nextOutboxId : ℕ)
    (steps : List (Action ((machine ι true).traced Emission))) :
    World (machine ι true) Thrown (Option Responded) :=
  follow (serving ingress initial nextOutboxId) (steps.map .untraced)

theorem projects_servingAlong {steps : List (Action ((machine ι true).traced Emission))}
    (ran : runActions (service ingress initial nextOutboxId) steps = some world) :
    Projects (fun index => (ingress index).emissions)
      (servingAlong ingress initial nextOutboxId steps) world :=
  (projects_service ingress initial nextOutboxId).follow ran

/-- A caller that has seen anything, or whose calls are done, has seen the beginning of what it
is told, and the store is as the calls made for it have left it. -/
theorem served_of_projects (numbered : Numbered initial nextOutboxId)
    {base : World (machine ι true) Thrown (Option Responded)}
    (reached : Reaches (serving ingress initial nextOutboxId) base)
    (projects : Projects (fun index => (ingress index).emissions) base world) :
    Invariant (asked ingress) initial world.shared.1 world.locals ∧
    ∀ index, leftBy index world.shared.2 ≠ [] ∨ world.programs index = .pure () →
      ∃ outcome, base.programs index = .ofExcept outcome ∧
        IngressEnded (asked ingress) initial index world.shared.1 (ingress index) outcome ∧
        leftBy index world.shared.2 <+: (ingress index).emissions outcome ∧
        (world.programs index = .pure () →
          leftBy index world.shared.2 = (ingress index).emissions outcome) := by
  have holds := (holds_serving numbered).reaches (discipline_sound ..) reached
  have isInvariant := holds.1
  rw [← projects.shared, ← projects.locals] at isInvariant
  refine ⟨isInvariant, fun index told => ?_⟩
  rcases (projects.stands index).cases with
    ⟨request, resume, _, nothing, standing⟩ | ⟨outcome, due, isEnd, called, standing⟩
  · rcases told with seen | finished
    · exact absurd nothing seen
    · rw [finished] at standing
      cases standing
  · refine ⟨outcome, isEnd, projects.shared ▸ holds.ended isEnd, ⟨due, called⟩, fun finished => ?_⟩
    rw [finished] at standing
    cases due with
    | nil => rw [← called, List.append_nil]
    | cons effect effects => cases standing

/-- The calls behind a state the service may reach. -/
theorem projects_reached (reached : Reaches (service ingress initial nextOutboxId) world) :
    ∃ base, Reaches (serving ingress initial nextOutboxId) base ∧
      Projects (fun index => (ingress index).emissions) base world :=
  (projects_service ingress initial nextOutboxId).reaches reached

theorem invariant_served (numbered : Numbered initial nextOutboxId)
    (reached : Reaches (service ingress initial nextOutboxId) world) :
    Invariant (asked ingress) initial world.shared.1 world.locals := by
  rcases projects_reached reached with ⟨base, baseReached, projects⟩
  exact (served_of_projects numbered baseReached projects).1

end Traffic

end Postgres

end ProcessingCatalog
