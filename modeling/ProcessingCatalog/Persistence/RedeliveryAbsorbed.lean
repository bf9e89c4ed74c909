import ProcessingCatalog.Persistence.SerialRun
import ProcessingCatalog.Persistence.OutboxAgreement
import ProcessingCatalog.Store.Redelivery

/-!
# Redelivery is absorbed everywhere
-/

namespace ProcessingCatalog

open Effect TypeOrm

namespace Postgres

section Serial

variable {ι : Type} {rules : TextRules} {operations : ι → Operation} {ledger : Ledger}

theorem shape_performSeriallyUnder (shape : ledger.Shape) (order : List ι) :
    (performSeriallyUnder rules operations order ledger).2.Shape := by
  induction order generalizing ledger with
  | nil => exact shape
  | cons index rest ih =>
      refine ih ?_
      rcases changes_operationUnder rules (operations index) ledger with full | nothing
      · exact full ▸ (Operation.leaves _ _).shape shape
      · exact nothing ▸ shape

theorem isRecorded_performSeriallyUnder {eventId : JsString}
    (recorded : ledger.isRecorded eventId = true) (order : List ι) :
    (performSeriallyUnder rules operations order ledger).2.isRecorded eventId = true := by
  induction order generalizing ledger with
  | nil => exact recorded
  | cons index rest ih => exact ih (Ledger.isRecorded_applyAll recorded _)

/-- An event that is answered is valid, and recorded from then on. -/
theorem recorded_of_performUnder {event : LifecycleEvent} {request : ProcessingRequest}
    (answered : (performUnder rules event ledger).1 = .ok request) :
    event.refusal = none ∧
      (ledger.applyAll (performUnder rules event ledger).2).isRecorded event.eventId = true := by
  rcases performUnder_cases rules event ledger with full | refused
  · rw [full] at answered ⊢
    exact ⟨LifecycleEvent.valid_of_ok answered, LifecycleEvent.recorded_of_ok answered⟩
  · rw [refused] at answered
    cases answered

/-- An event that was answered somewhere in a sequence of deliveries is recorded after it. -/
theorem recorded_of_answered {order : List ι} {index : ι} {answer : Answer}
    {event : LifecycleEvent} (isEvent : (operations index).event? = some event)
    (answered : (index, .ok answer) ∈
      order.zip (performSeriallyUnder rules operations order ledger).1) :
    event.refusal = none ∧
      (performSeriallyUnder rules operations order ledger).2.isRecorded event.eventId = true := by
  induction order generalizing ledger with
  | nil => simp at answered
  | cons first rest ih =>
      rw [performSeriallyUnder_cons] at answered ⊢
      rw [List.zip_cons_cons, List.mem_cons] at answered
      rcases answered with now | later
      · rcases Prod.mk.inj now with ⟨rfl, isAnswer⟩
        rw [operationUnder_of_event isEvent] at isAnswer ⊢
        rcases performed : (performUnder rules event ledger).1 with error | request
        · simp [Performed.map, performed, Except.map] at isAnswer
        · have recorded := recorded_of_performUnder performed
          exact ⟨recorded.1, isRecorded_performSeriallyUnder recorded.2 rest⟩
      · exact ih later

end Serial

/-- The shared state from which calls are made one after another. -/
def storeOf {ι : Type} (shared : Shared ι) : Shared Unit :=
  ⟨shared.database, shared.nextOutboxId, []⟩

/-- The delivery of a recorded event that runs alone leaves everything as it is. -/
theorem runAlone_of_linked {rules : TextRules} {operation : Operation} {event : LifecycleEvent}
    (isEvent : operation.event? = some event) (valid : event.refusal = none)
    (accepted : rules.text event.eventId = true)
    {shared : Shared Unit} {ledger : Ledger} (represents : shared.database.Represents ledger)
    {existing : ProcessingRequestRow}
    (linked : ledger.findByEventId event.eventId = some existing) :
    runAlone rules (operation.execute (repository .dataSource) unitOfWork) shared =
      (.ok (.request existing.toDomain), shared) := by
  have recorded : (shared.database.events.find? event.eventId).isSome = true := by
    cases found : ledger.events.find? event.eventId with
    | none => simp [Ledger.findByEventId, found] at linked
    | some _ => simp [represents.events, found]
  have handled : (event.handle (repository .dataSource) unitOfWork).run (answerAlone rules)
      (shared, .idle) = (.ok existing.toDomain, shared, .idle) := by
    rw [LifecycleEvent.handle_of_valid valid]
    unfold LifecycleEvent.handleValid
    refine (Program.run_bind_of_ok (run_hasEventBeenProcessed accepted rfl) _).trans ?_
    simp only [recorded, if_true]
    refine (Program.run_bind_of_ok (run_findByEventId represents accepted) _).trans ?_
    simp only [linked]
    rfl
  rw [Operation.execute_of_event isEvent, runAlone, Program.run_map _ handled]
  rfl

variable {ι : Type} [Fintype ι] [DecidableEq ι]

/-- The delivery was answered: by a call of the run, or by one of the calls made after it. -/
def HandledBefore {faults : Bool} (rules : TextRules) (operations : ι → Operation)
    (world : Machine.World (machine ι faults) Thrown Answer) (before : List Operation)
    (delivery : Operation) : Prop :=
  (∃ index answer, operations index = delivery ∧ world.programs index = .pure answer) ∨
    ∃ answer, (delivery, .ok answer) ∈
      before.zip (runSerially rules id before (storeOf world.shared)).1

/-- A call of a run that answered was valid, and its event is recorded. -/
theorem recorded_of_handled {operations : ι → Operation} {nextOutboxId : ℕ}
    {world : Machine.World (machine ι true) Thrown Answer}
    (reached : Machine.Reaches (start true operations .empty nextOutboxId) world)
    {index : ι} {event : LifecycleEvent} (isEvent : (operations index).event? = some event)
    {answer : Answer} (answered : world.programs index = .pure answer) :
    event.refusal = none ∧ Recorded event.eventId world.shared := by
  constructor
  · cases valid : event.refusal with
    | none => rfl
    | some error =>
        have refused : (start true operations .empty nextOutboxId).programs index =
            .ofExcept (.error error) := by
          simp only [start]
          rw [Operation.execute_of_event isEvent, LifecycleEvent.handle_of_refusal valid]
          rfl
        rw [Machine.Reaches.ended reached refused] at answered
        cases answered
  · have finished : world.programs index = .ofExcept (.ok answer) := answered
    have ended := ended_reached numbered_empty reached finished
    rw [Operation.eventId_of_event isEvent]
    unfold Ended at ended
    cases isOperation : operations index with
    | create draws input => simp [isOperation, Operation.event?] at isEvent
    | _ =>
        simp only [isOperation] at ended
        rcases ended with ⟨result, isResult, ended⟩
        cases result with
        | error error => cases isResult
        | ok request => exact ended

/-- In a state any run of the use cases reaches from the empty store, calls are made one after
another, whatever text PostgreSQL accepts. One more delivery of an event that was handled before,
so that its event id is text PostgreSQL accepts, changes nothing at all, and is answered; every
other call answers or throws as without it. -/
theorem redelivery_absorbed (rules : TextRules) (operations : ι → Operation) {nextOutboxId : ℕ}
    {world : Machine.World (machine ι true) Thrown Answer}
    (reached : Machine.Reaches (start true operations .empty nextOutboxId) world)
    (before after : List Operation) {delivery again : Operation}
    (redelivers : delivery.Redelivers again) (accepted : rules.text delivery.eventId = true)
    (handled : HandledBefore rules operations world before delivery) :
    ∃ outcomes middle later left answer,
      runSerially rules id before (storeOf world.shared) = (outcomes, middle) ∧
      runSerially rules id after middle = (later, left) ∧
      runSerially rules id (before ++ after) (storeOf world.shared) = (outcomes ++ later, left) ∧
      runSerially rules id (before ++ again :: after) (storeOf world.shared) =
        (outcomes ++ .ok answer :: later, left) := by
  have invariant := invariant_reached numbered_empty reached
  rcases invariant.represents with ⟨ledger, history, represents⟩
  have unique : UniqueIndexes world.shared.database.requests := by
    rw [represents.requests]
    exact history.uniqueIndexes uniqueIndexes_empty
  have serial := runSerially_eq rules id before (storeOf world.shared) represents
    invariant.outbox_below unique
  have shape : (performSeriallyUnder rules id before ledger).2.Shape :=
    shape_performSeriallyUnder (history.shape Ledger.shape_empty) before
  rcases redelivers.events with ⟨event, event', isEvent, isEvent', sameId, stillValid⟩
  have recorded : event.refusal = none ∧
      (performSeriallyUnder rules id before ledger).2.isRecorded event.eventId = true := by
    rcases handled with ⟨index, answer, rfl, ended⟩ | ⟨answer, answered⟩
    · rcases recorded_of_handled reached isEvent ended with ⟨valid, recorded⟩
      have isRecorded : ledger.isRecorded event.eventId = true := by
        rw [Ledger.isRecorded, ← represents.events]
        exact recorded
      exact ⟨valid, isRecorded_performSeriallyUnder isRecorded before⟩
    · rw [serial.1] at answered
      exact recorded_of_answered isEvent answered
  rcases shape.linked recorded.2 with ⟨existing, linked⟩
  rw [← Operation.eventId_of_event isEvent] at accepted
  refine ⟨_, _, _, _, .request existing.toDomain, rfl, rfl,
    runSerially_append id before after _, ?_⟩
  rw [runSerially_append, runSerially]
  have absorbed := runAlone_of_linked isEvent' (stillValid recorded.1) (sameId ▸ accepted) serial.2
    (sameId ▸ linked)
  simp only [id_eq, absorbed]

/-- The acceptance of the request of the upload below, delivered at some moment. -/
def acceptance (now : Date) (uuid : Uuid) : Operation :=
  .accept ⟨now, uuid, .repeated 4, 3000⟩
    ⟨js "e-2", Uuid.text (.repeated 1), js "2026-09-21T01:11:00.000Z"⟩

/-- An upload, the acceptance of its video and the start of its processing. -/
def uploadAndStart : List Operation :=
  [.create ⟨1789953000000, .repeated 1, .repeated 2, 3000⟩
      ⟨js "e-1", js "owner", js "owner@example.com", js "uploads/a.mp4", js "key", none⟩,
    acceptance 1789953060000 (.repeated 3),
    .start ⟨1789953120000, .repeated 5, .repeated 6, 3000⟩
      ⟨js "e-3", Uuid.text (.repeated 1), Uuid.text (.repeated 3),
        js "2026-09-21T01:12:00.000Z"⟩]

/-- The acceptance is delivered again once its request is processing. -/
theorem redelivery_absorbed_acceptance : ∃ answer,
    runSerially .lenient id (uploadAndStart ++ [acceptance 1789953180000 (.repeated 7)])
        ⟨.empty, 1, []⟩ =
      ((runSerially .lenient id uploadAndStart ⟨.empty, 1, []⟩).1 ++ [.ok answer],
        (runSerially .lenient id uploadAndStart ⟨.empty, 1, []⟩).2) := by
  have answered : (runSerially .lenient id uploadAndStart ⟨.empty, 1, []⟩).1.map Except.toBool =
      [true, true, true] := by
    decide +kernel
  have handled : ∃ answer, (acceptance 1789953060000 (.repeated 3), .ok answer) ∈
      uploadAndStart.zip (runSerially .lenient id uploadAndStart ⟨.empty, 1, []⟩).1 := by
    generalize (runSerially .lenient id uploadAndStart ⟨.empty, 1, []⟩).1 = outcomes at answered
    rcases outcomes with _ | ⟨created, _ | ⟨error | answer, later⟩⟩
    · simp at answered
    · simp at answered
    · simp [Except.toBool] at answered
    · exact ⟨answer, .tail _ (.head _)⟩
  let operations : Fin 0 → Operation := nofun
  have reached : Machine.Reaches (start true operations .empty 1)
      (start true operations .empty 1) := .refl
  rcases redelivery_absorbed .lenient operations reached uploadAndStart []
      (.accept _ ⟨1789953180000, .repeated 7, .repeated 4, 3000⟩ _) rfl
      (.inr handled) with ⟨outcomes, middle, _, _, answer, ran, nothing, _, absorbed⟩
  cases nothing
  refine ⟨answer, ?_⟩
  rw [show (⟨.empty, 1, []⟩ : Shared Unit) = storeOf (start true operations .empty 1).shared
      from rfl,
    ran]
  exact absorbed

end Postgres

end ProcessingCatalog
