import ProcessingCatalog.InMemory.Alone
import ProcessingCatalog.InMemory.Interference

/-!
# Refusals come before the first write

The unit of work over the maps runs its work as it is: what was written when an
error is thrown stays written. A call that runs alone and rejects leaves the
maps as they were only because every check comes before the first write.
-/

namespace ProcessingCatalog

open Effect CreateProcessingRequestUseCase

namespace InMemory

/-- If it rejects, the maps are as they were. -/
def Left.Untouched {α : Type} (store : Store) (left : Left α) : Prop :=
  ∀ error, left.1 = .error error → left.2 = store

section Untouched

variable {α β : Type} {store : Store}

theorem untouched_of_same (outcome : Except Thrown α) : Left.Untouched store (outcome, store) :=
  fun _ _ => rfl

theorem untouched_of_ok (value : α) (left : Store) : Left.Untouched store (.ok value, left) := by
  rintro error ⟨⟩

theorem Left.Untouched.map {left : Left α} (untouched : left.Untouched store) (f : α → β) :
    (Left.map f left).Untouched store :=
  fun error threw => untouched error (Effect.map_eq_error.mp threw)

end Untouched

/-- A decision once made is recorded without fail. -/
theorem untouched_performDecision (event : LifecycleEvent) (request : ProcessingRequest)
    (store : Store) (decision : Decision) :
    (store.performDecision event request decision).Untouched store := by
  cases decision with
  | noted => exact untouched_of_ok _ _
  | applied updated entry => exact untouched_of_ok _ _

theorem untouched_performLocked (event : LifecycleEvent) (store : Store) :
    (store.performLocked event).Untouched store := by
  unfold Store.performLocked
  split
  · exact untouched_of_same _
  · split
    · exact untouched_of_same _
    · split
      · exact untouched_of_same _
      · exact untouched_performDecision event _ store _

theorem untouched_performEvent (event : LifecycleEvent) (store : Store) :
    (store.performEvent event).Untouched store := by
  unfold Store.performEvent
  split
  · exact untouched_of_same _
  · split
    · exact untouched_of_same _
    · exact untouched_performLocked event store

/-- Alone, a create does not lose a race: what it looked up is still so when it inserts. -/
theorem untouched_performValid (input : Input) (request : ProcessingRequest) (store : Store) :
    (store.performValid input request).Untouched store := by
  unfold Store.performValid
  split
  · exact untouched_of_same _
  · split
    · exact untouched_of_same _
    · exact untouched_of_ok _ _

theorem untouched_performCreate (draws : Draws) (input : Input) (store : Store) :
    (store.performCreate draws input).Untouched store := by
  unfold Store.performCreate
  split
  · exact untouched_of_same _
  · split
    · exact untouched_of_same _
    · split
      · exact untouched_of_same _
      · exact untouched_performValid input _ store

/-- A use case that runs alone over the maps, whatever they hold, and rejects leaves the requests,
the recorded events and the outbox entries exactly as they were. -/
theorem rejected_untouched (operation : Operation) (store : Store) (error : Thrown)
    (rejected : (runAlone (operation.execute repository unitOfWork) store).1 = .error error) :
    (runAlone (operation.execute repository unitOfWork) store).2 = store := by
  rw [runAlone_execute] at rejected ⊢
  have untouched : (perform operation store).Untouched store := by
    cases operation with
    | create draws input => exact (untouched_performCreate draws input store).map _
    | accept draws input => exact (untouched_performEvent _ store).map _
    | start draws input => exact (untouched_performEvent _ store).map _
    | complete draws input => exact (untouched_performEvent _ store).map _
    | fail draws input => exact (untouched_performEvent _ store).map _
  exact untouched error rejected

/-- A second acceptance is refused by the transition, after the request was read for update. -/
theorem rejected_untouched_acceptance :
    (runAlone ((Operation.accept ⟨1789953060000, .repeated 3, .repeated 4, 3000⟩
      ⟨js "e-2", js "r-1", js "2026-09-21T01:11:00.000Z"⟩).execute repository unitOfWork)
        queuedStore).2 = queuedStore :=
  rejected_untouched _ queuedStore
    (.processingRequestDomainError (js "Cannot accept request in QUEUED status"))
    (by decide +kernel)

end InMemory

end ProcessingCatalog
