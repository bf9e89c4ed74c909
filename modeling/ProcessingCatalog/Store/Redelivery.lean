import ProcessingCatalog.Store.Deduplication
import ProcessingCatalog.Store.Shape

/-!
# A handled event

An event is handled when its delivery answers without an error: applied, stale,
a no-op, or a duplicate itself. It is recorded from then on, and every later
delivery of it is answered from the record.
-/

namespace ProcessingCatalog

open Domain

/-- Two deliveries of one event: the same use case and input, whatever each reads of the clock and
of the random identifiers. -/
inductive Operation.Redelivers : Operation → Operation → Prop where
  | accept (draws draws' : Draws) (input : AcceptProcessingRequestUseCase.Input) :
      Redelivers (.accept draws input) (.accept draws' input)
  | start (draws draws' : Draws) (input : StartProcessingRequestUseCase.Input) :
      Redelivers (.start draws input) (.start draws' input)
  | complete (draws draws' : Draws) (input : CompleteProcessingRequestUseCase.Input) :
      Redelivers (.complete draws input) (.complete draws' input)
  | fail (draws draws' : Draws) (input : FailProcessingRequestUseCase.Input) :
      Redelivers (.fail draws input) (.fail draws' input)

theorem Operation.Redelivers.events {delivery again : Operation}
    (redelivers : delivery.Redelivers again) :
    ∃ event event', delivery.event? = some event ∧ again.event? = some event' ∧
      event'.eventId = event.eventId ∧ (event.refusal = none → event'.refusal = none) := by
  cases redelivers with
  | fail draws draws' input =>
      refine ⟨_, _, rfl, rfl, rfl, fun valid => ?_⟩
      simp only [FailProcessingRequestUseCase.event, firstRefusal] at valid ⊢
      split_ifs at valid ⊢
      rfl
  | _ => exact ⟨_, _, rfl, rfl, rfl, id⟩

namespace LifecycleEvent

variable {event : LifecycleEvent} {ledger : Ledger} {request : ProcessingRequest}

theorem valid_of_ok (answered : (event.perform ledger).1 = .ok request) : event.refusal = none := by
  cases valid : event.refusal with
  | none => rfl
  | some error => simp [perform, valid] at answered

/-- An event that is answered is recorded. -/
theorem recorded_of_ok (answered : (event.perform ledger).1 = .ok request) :
    (ledger.applyAll (event.perform ledger).2).isRecorded event.eventId = true := by
  by_cases recorded : ledger.isRecorded event.eventId = true
  · rw [perform_recorded recorded]
    exact recorded
  have unrecorded : ledger.isRecorded event.eventId = false := by simpa using recorded
  have valid := valid_of_ok answered
  simp only [perform, valid, findByEventId_eq_none unrecorded, performLocked, unrecorded,
    Bool.false_eq_true, if_false] at answered ⊢
  split at answered
  · cases answered
  · split at answered
    · cases answered
    · split at answered
      · cases answered
      · next decision decided =>
          cases decision with
          | noted => exact Ledger.isRecorded_of_insertEvent (List.mem_singleton.mpr rfl)
          | applied updated entry =>
              simp only [performDecision] at answered ⊢
              split at answered
              · cases answered
              · next row' isRow =>
                  have inserted : .insertEvent ⟨event.eventId, some row'.processingRequestId⟩ ∈
                      event.appliedChanges row' entry := by simp [appliedChanges]
                  exact Ledger.isRecorded_of_insertEvent inserted

end LifecycleEvent

/-- A recorded event points to a stored request. -/
theorem Ledger.Shape.linked {ledger : Ledger} (shape : ledger.Shape) {eventId : JsString}
    (recorded : ledger.isRecorded eventId = true) :
    ∃ row, ledger.findByEventId eventId = some row := by
  rcases Option.isSome_iff_exists.mp recorded with ⟨event, found⟩
  rcases shape.recorded event (KeyedTable.mem_of_find? found) with ⟨row, rowMem, points⟩
  refine ⟨row, ?_⟩
  simp [findByEventId, found, points, KeyedTable.find?_key rowMem]

end ProcessingCatalog
