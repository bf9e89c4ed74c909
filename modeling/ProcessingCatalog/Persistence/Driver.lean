import ProcessingCatalog.JavaScript.Utf8
import ProcessingCatalog.Library.Translation
import ProcessingCatalog.Persistence.Serial

/-!
# What the driver makes of a text

The driver sends the values of a statement as UTF-8, so a surrogate that is not
half of a pair reaches PostgreSQL as U+FFFD, and is stored and compared so. A
value of the outbox is JSON, which writes such a surrogate as an escape, and is
sent as it is. A text compared with a `uuid` column is left as it is too: no
text with a surrogate is one, nor is the text with U+FFFD in its place.

A lifecycle event handled over the driver does what the event as it is sent does
over PostgreSQL itself (`run_handle_driven`).
-/

namespace ProcessingCatalog

open Effect TypeOrm Domain

/-- The columns of a request, as they are sent. -/
def ProcessingRequest.sent (request : ProcessingRequest) : ProcessingRequest :=
  { request with
    ownerUserId := toWellFormed request.ownerUserId
    ownerEmail := toWellFormed request.ownerEmail
    sourceStorageKey := toWellFormed request.sourceStorageKey
    zipStorageKey := request.zipStorageKey.map toWellFormed
    idempotencyKey := request.idempotencyKey.map toWellFormed
    correlationId := request.correlationId.map toWellFormed }

/-- The columns of a stored request that are sent again when it is saved: a text that was read
from the row does not differ from it. -/
def ProcessingRequest.resent (request : ProcessingRequest) : ProcessingRequest :=
  { request with zipStorageKey := request.zipStorageKey.map toWellFormed }

namespace Postgres

def Criteria.sent : Criteria → Criteria
  | .processingRequestId text => .processingRequestId text
  | .processingRequestIdAndOwner text ownerUserId =>
      .processingRequestIdAndOwner text (toWellFormed ownerUserId)
  | .ownerAndIdempotencyKey ownerUserId idempotencyKey =>
      .ownerAndIdempotencyKey (toWellFormed ownerUserId) (toWellFormed idempotencyKey)
  | .ownerAndSource ownerUserId sourceStorageKey =>
      .ownerAndSource (toWellFormed ownerUserId) (toWellFormed sourceStorageKey)

def Query.sent : Query → Query
  | .findRequest criteria => .findRequest criteria.sent
  | .findPageByOwner ownerUserId offset limit =>
      .findPageByOwner (toWellFormed ownerUserId) offset limit
  | .countByOwner ownerUserId => .countByOwner (toWellFormed ownerUserId)
  | .findEvent eventId => .findEvent (toWellFormed eventId)
  | .countEvents eventId => .countEvents (toWellFormed eventId)

def Modification.sent : Modification → Modification
  | .insertRequest request => .insertRequest request.sent
  | .saveRequest request => .saveRequest request.resent
  | .insertEvent eventId processingRequestId =>
      .insertEvent (toWellFormed eventId) processingRequestId
  | .insertOutbox entry => .insertOutbox entry

/-- A statement with its values as they are sent. -/
def Statement.sent : Statement → Statement
  | .query manager asked => .query manager asked.sent
  | .modify manager modification => .modify manager modification.sent
  | statement => statement

/-- The driver hands every reply back as it came. -/
def driver : Translation signature signature where
  send := Statement.sent
  receive
    | .startTransaction, reply => reply
    | .commitTransaction, reply => reply
    | .rollbackTransaction, reply => reply
    | .query _ (.findRequest _), reply => reply
    | .query _ (.findPageByOwner ..), reply => reply
    | .query _ (.countByOwner _), reply => reply
    | .query _ (.findEvent _), reply => reply
    | .query _ (.countEvents _), reply => reply
    | .findRequestForUpdate .., reply => reply
    | .modify .., reply => reply

/-- What the service is answered over the driver, when it is alone. -/
def answerDriven (rules : TextRules) (state : Shared Unit × Connection) (statement : Statement) :
    signature.Reply statement × Shared Unit × Connection :=
  driver.answering (answerAlone rules) state statement

end Postgres

def Decision.sent : Decision → Decision
  | .noted => .noted
  | .applied updated entry => .applied updated.resent entry

theorem Decision.Lawful.sent {request : ProcessingRequest} {decision : Decision}
    (lawful : decision.Lawful request) : decision.sent.Lawful request := by
  cases decision with
  | noted => trivial
  | applied updated entry => exact lawful

/-- The event as PostgreSQL gets to see it. -/
def LifecycleEvent.sent (event : LifecycleEvent) : LifecycleEvent where
  eventId := toWellFormed event.eventId
  processingRequestId := event.processingRequestId
  refusal := event.refusal
  decide request := (event.decide request).map Decision.sent
  lawful := by
    intro request decision decided
    rcases map_eq_ok.mp decided with ⟨before, isDecision, rfl⟩
    exact (event.lawful isDecision).sent

namespace Postgres

section Calls

variable (manager : Manager)

theorem translate_startTransaction :
    (send .startTransaction).translate driver = send .startTransaction :=
  congrArg (Program.call _) (funext fun reply => by cases reply <;> rfl)

theorem translate_commitTransaction :
    (send .commitTransaction).discarded.translate driver = (send .commitTransaction).discarded :=
  congrArg (Program.call _) (funext fun reply => by cases reply <;> rfl)

theorem translate_rollbackTransaction :
    (send .rollbackTransaction).translate driver = send .rollbackTransaction :=
  congrArg (Program.call _) (funext fun reply => by cases reply <;> rfl)

@[simp]
theorem translate_hasEventBeenProcessed (eventId : JsString) :
    ((repository manager).hasEventBeenProcessed eventId).translate driver =
      (repository manager).hasEventBeenProcessed (toWellFormed eventId) :=
  congrArg (Program.call _) (funext fun reply => by cases reply <;> rfl)

@[simp]
theorem translate_findByEventId (eventId : JsString) :
    ((repository manager).findByEventId eventId).translate driver =
      (repository manager).findByEventId (toWellFormed eventId) := by
  refine congrArg (Program.call _) (funext fun reply => ?_)
  rcases reply with error | _ | ⟨_, _ | id⟩
  · rfl
  · rfl
  · rfl
  · exact congrArg (Program.call _) (funext fun reply => by cases reply <;> rfl)

@[simp]
theorem translate_findForUpdate (text : JsString) :
    ((repository manager).findForUpdate text).translate driver =
      (repository manager).findForUpdate text :=
  congrArg (Program.call _) (funext fun reply => by cases reply <;> rfl)

@[simp]
theorem translate_update (request : ProcessingRequest) :
    ((repository manager).update request).translate driver =
      (repository manager).update request.resent :=
  congrArg (Program.call _) (funext fun reply => by cases reply <;> rfl)

@[simp]
theorem translate_markEventProcessed (eventId : JsString) (processingRequestId : Option JsString) :
    ((repository manager).markEventProcessed eventId processingRequestId).translate driver =
      (repository manager).markEventProcessed (toWellFormed eventId) processingRequestId :=
  congrArg (Program.call _) (funext fun reply => by cases reply <;> rfl)

@[simp]
theorem translate_add (route : EventRoute) (payload : OutboxPayload) :
    ((outboxWriter manager).add route payload).translate driver =
      (outboxWriter manager).add route payload :=
  congrArg (Program.call _) (funext fun reply => by cases reply <;> rfl)

end Calls

section Handling

/-- The calls of an event are those of the event as it is sent. -/
theorem translate_record (event : LifecycleEvent) (request : ProcessingRequest)
    (decision : Decision) :
    (event.record ⟨repository .transactional, outboxWriter .transactional⟩ request
        decision).discarded.translate driver =
      (event.sent.record ⟨repository .transactional, outboxWriter .transactional⟩ request
        decision.sent).discarded := by
  match decision with
  | .noted => simp [LifecycleEvent.record, Program.discarded, Decision.sent, LifecycleEvent.sent]
  | .applied updated none =>
      simp [LifecycleEvent.record, Program.discarded, Decision.sent, LifecycleEvent.sent,
        ProcessingRequest.resent]
  | .applied updated (some (route, payload)) =>
      simp [LifecycleEvent.record, Program.discarded, Decision.sent, LifecycleEvent.sent,
        ProcessingRequest.resent]

theorem translate_handleLocked (event : LifecycleEvent) (request : ProcessingRequest) :
    (event.handleLocked ⟨repository .transactional, outboxWriter .transactional⟩
        request).discarded.translate driver =
      (event.sent.handleLocked ⟨repository .transactional, outboxWriter .transactional⟩
        request).discarded := by
  have decides : event.sent.decide request = Decision.sent <$> event.decide request := rfl
  unfold LifecycleEvent.handleLocked
  rw [decides]
  cases event.decide request with
  | error error => rfl
  | ok decision => exact translate_record event request decision

/-- What a transaction does to be committed, or to be rolled back. -/
theorem discarded_runInTransaction {α : Type}
    (work : TransactionContext signature → Computation signature α) :
    (unitOfWork.runInTransaction work).discarded =
      tryCatch
        (send .startTransaction >>= fun _ =>
          (work ⟨repository .transactional, outboxWriter .transactional⟩).discarded >>= fun _ =>
            (send .commitTransaction).discarded)
        (fun error =>
          tryCatch (send .rollbackTransaction) (fun _ => .pure ()) >>= fun _ => .throw error) := by
  simp only [unitOfWork, Program.discarded_tryCatch, Program.discarded_bind,
    Program.discarded_bind_const]
  rfl

theorem translate_runInTransaction {α : Type}
    {work work' : TransactionContext signature → Computation signature α}
    (same : (work ⟨repository .transactional, outboxWriter .transactional⟩).discarded.translate
        driver = (work' ⟨repository .transactional, outboxWriter .transactional⟩).discarded) :
    (unitOfWork.runInTransaction work).discarded.translate driver =
      (unitOfWork.runInTransaction work').discarded := by
  rw [discarded_runInTransaction, discarded_runInTransaction, Program.translate_tryCatch,
    Program.translate_bind, translate_startTransaction]
  simp only [Program.translate_bind, same]
  have commits : (fun _ : Unit => (send .commitTransaction).discarded.translate driver) =
      fun _ => (send .commitTransaction).discarded :=
    funext fun _ => translate_commitTransaction
  rw [commits, Program.translate_tryCatch, translate_rollbackTransaction]
  rfl

/-- The transaction of an event is that of the event as it is sent. -/
theorem translate_locked (event : LifecycleEvent) :
    (unitOfWork.runInTransaction fun ctx => do
      let some request ← ctx.requests.findForUpdate event.processingRequestId
        | throw (processingRequestNotFound event.processingRequestId)
      if ← ctx.requests.hasEventBeenProcessed event.eventId then
        return request
      event.handleLocked ctx request).discarded.translate driver =
    (unitOfWork.runInTransaction fun ctx => do
      let some request ← ctx.requests.findForUpdate event.sent.processingRequestId
        | throw (processingRequestNotFound event.sent.processingRequestId)
      if ← ctx.requests.hasEventBeenProcessed event.sent.eventId then
        return request
      event.sent.handleLocked ctx request).discarded := by
  apply translate_runInTransaction
  simp only [Program.discarded_bind, Program.translate_bind, translate_findForUpdate]
  refine congrArg (_ >>= ·) (funext fun found => ?_)
  cases found with
  | none => rfl
  | some request =>
      simp only [Program.discarded_bind, Program.translate_bind, translate_hasEventBeenProcessed]
      refine congrArg (_ >>= ·) (funext fun recorded => ?_)
      cases recorded with
      | true => rfl
      | false => exact translate_handleLocked event request

/-- A lifecycle event is handled over the driver as the event that is sent is without it. -/
theorem translate_handle (event : LifecycleEvent) :
    (event.handle (repository .dataSource) unitOfWork).discarded.translate driver =
      (event.sent.handle (repository .dataSource) unitOfWork).discarded := by
  have valid : event.sent.refusal = event.refusal := rfl
  unfold LifecycleEvent.handle
  rw [valid]
  cases event.refusal with
  | some error => rfl
  | none =>
      unfold LifecycleEvent.handleValid
      simp only [Program.discarded_bind, Program.translate_bind, translate_hasEventBeenProcessed]
      refine congrArg (_ >>= ·) (funext fun recorded => ?_)
      cases recorded with
      | false => exact translate_locked event
      | true =>
          simp only [if_true, Program.discarded_bind, Program.translate_bind,
            translate_findByEventId]
          refine congrArg (_ >>= ·) (funext fun existing => ?_)
          cases existing with
          | none => exact translate_locked event
          | some existing => rfl

/-- A lifecycle event that runs alone over the driver does what the event that is sent does at one
moment. -/
theorem run_handle_driven {rules : TextRules} {shared : Shared Unit} {ledger : Ledger}
    (event : LifecycleEvent) (represents : shared.database.Represents ledger)
    (numbered : Numbered shared.database shared.nextOutboxId)
    (unique : UniqueIndexes shared.database.requests) :
    ∃ shared', (event.handle (repository .dataSource) unitOfWork).discarded.run
        (answerDriven rules) (shared, .idle) =
          ((performUnder rules event.sent ledger).1.map fun _ => (), shared', .idle) ∧
      Did ledger (performUnder rules event.sent ledger).2 shared shared' := by
  rcases run_handle rules event.sent represents numbered unique with ⟨shared', ran, did⟩
  refine ⟨shared', ?_, did⟩
  have behind : (event.handle (repository .dataSource) unitOfWork).discarded.run
      (answerDriven rules) (shared, .idle) =
        (event.sent.handle (repository .dataSource) unitOfWork).discarded.run
          (answerAlone rules) (shared, .idle) := by
    rw [← translate_handle, Program.run_translate]
    rfl
  rw [behind, Program.discarded, Program.run_bind, ran]
  cases (performUnder rules event.sent ledger).1 <;> rfl

end Handling

end Postgres

end ProcessingCatalog
