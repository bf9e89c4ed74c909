import ProcessingCatalog.Store.History
import ProcessingCatalog.Store.Leaves

/-!
# The event ids of the outbox

An operation announces at most one event, under an id of its own: a create under
that of its input, a lifecycle event under one that is drawn for it.
-/

namespace ProcessingCatalog

open Domain

/-- The id of the event that an operation may announce. -/
def Operation.announcedId : Operation → JsString
  | .create _ input => input.eventId
  | .accept draws _ => draws.eventUuid.text
  | .start draws _ => draws.eventUuid.text
  | .complete draws _ => draws.eventUuid.text
  | .fail draws _ => draws.eventUuid.text

theorem Operation.announcedId_of_applied {operation : Operation} {event : LifecycleEvent}
    (isEvent : operation.event? = some event) {request updated : ProcessingRequest}
    {route : EventRoute} {payload : OutboxPayload}
    (decided : event.decide request = .ok (.applied updated (some (route, payload)))) :
    payload.eventId = operation.announcedId := by
  cases operation with
  | create draws input => cases isEvent
  | accept draws input =>
      cases isEvent
      rcases AcceptProcessingRequestUseCase.decide_eq_applied.mp decided with ⟨_, _, same⟩
      cases same
      rfl
  | start draws input =>
      cases isEvent
      rcases StartProcessingRequestUseCase.decide_eq_applied.mp decided with ⟨_, _, _, same⟩
      cases same
  | complete draws input =>
      cases isEvent
      rcases CompleteProcessingRequestUseCase.decide_eq_applied.mp decided with ⟨_, _, _, _, same⟩
      cases same
      rfl
  | fail draws input =>
      cases isEvent
      rcases FailProcessingRequestUseCase.decide_eq_applied.mp decided with ⟨_, _, same⟩
      cases same
      rfl

/-- The ids of the events in an outbox. -/
def Ledger.announcedIds (ledger : Ledger) : List JsString :=
  ledger.outbox.map fun entry => entry.payload.eventId

theorem Operation.Leaves.announcedIds {operation : Operation} {ledger after : Ledger}
    (left : operation.Leaves ledger after) :
    after.announcedIds.Sublist (ledger.announcedIds ++ [operation.announcedId]) := by
  cases left with
  | unchanged => exact List.sublist_append_left _ _
  | inserted isCreate valid isRequest unrecorded free =>
      subst isCreate
      rw [Ledger.announcedIds, List.map_append]
      exact List.Sublist.refl _
  | noted => exact List.sublist_append_left _ _
  | @applied event row row' entry isEvent rowMem named unrecorded same decided =>
      rw [Ledger.announcedIds, List.map_append]
      refine (List.Sublist.refl _).append ?_
      cases entry with
      | none => exact List.nil_sublist _
      | some added =>
          rcases added with ⟨route, payload⟩
          rw [← Operation.announcedId_of_applied isEvent decided]
          exact List.Sublist.refl _

variable {ι : Type} {operations : ι → Operation} {initial ledger : Ledger}
  {committed : List (ι × List Write)}

/-- Every commit announces at most one event, under the id of its operation. -/
theorem History.announcedIds (history : History operations initial committed ledger) :
    ledger.announcedIds.Sublist
      (initial.announcedIds ++ committed.map fun entry => (operations entry.1).announcedId) := by
  induction history with
  | start => exact List.sublist_append_left _ _
  | @commit past before index writes pastHistory performed ih =>
      have added := ((operations index).leaves before).announcedIds
      rw [performed] at added
      rw [List.map_append, ← List.append_assoc]
      exact added.trans (ih.append (List.Sublist.refl _))

end ProcessingCatalog
