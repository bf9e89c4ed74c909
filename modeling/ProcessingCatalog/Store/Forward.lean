import ProcessingCatalog.Store.Leaves
import Mathlib.Logic.Relation

/-!
# Requests only move forward

What may become of a stored request in one operation, and over a history: its
identity never changes, its attempt is assigned once, its status follows the
state machine, and a finished request is never written again.
-/

namespace ProcessingCatalog

open Domain

namespace ProcessingRequest

/-- The steps of the state machine. -/
def transitions : List (ProcessingRequestStatus × ProcessingRequestStatus) :=
  [(.received, .queued), (.received, .failed), (.queued, .processing), (.queued, .completed),
    (.queued, .failed), (.processing, .completed), (.processing, .failed)]

/-- What may become of a request in one step. -/
structure Forward (before after : ProcessingRequest) : Prop where
  identity : before.SameIdentity after
  /-- The attempt is assigned in the step from received to queued. -/
  attempt : after.attemptId = before.attemptId ∨
    before.attemptId = none ∧ after.attemptId.isSome ∧
      before.status = .received ∧ after.status = .queued
  status : after.status = before.status ∨ (before.status, after.status) ∈ transitions
  /-- Without a change of its status nothing of it changes. -/
  unchanged : after.status = before.status → after = before

theorem Forward.refl (request : ProcessingRequest) : request.Forward request :=
  ⟨.refl request, .inl rfl, .inl rfl, fun _ => rfl⟩

/-- A running request may end. -/
theorem Forward.ending {before after : ProcessingRequest}
    (running : before.status = .queued ∨ before.status = .processing)
    (identity : before.SameIdentity after) (attempt : after.attemptId = before.attemptId)
    (ended : after.status.Terminal) : before.Forward after := by
  have moved : (before.status, after.status) ∈ transitions := by
    rcases running with queued | processing
    · rcases ended with completed | failed
      · simp [queued, completed, transitions]
      · simp [queued, failed, transitions]
    · rcases ended with completed | failed
      · simp [processing, completed, transitions]
      · simp [processing, failed, transitions]
  refine ⟨identity, .inl attempt, .inr moved, fun same => ?_⟩
  rw [same] at ended
  rcases running with queued | processing
  · simp [queued, ProcessingRequestStatus.Terminal] at ended
  · simp [processing, ProcessingRequestStatus.Terminal] at ended

/-- A finished request is frozen. -/
theorem Forward.frozen {before after : ProcessingRequest} (forward : before.Forward after)
    (ended : before.status.Terminal) : after = before := by
  refine forward.unchanged (forward.status.resolve_right fun moved => ?_)
  rcases ended with completed | failed
  · simp [completed, transitions] at moved
  · simp [failed, transitions] at moved

/-- What may become of a request in any number of steps. -/
structure Later (before after : ProcessingRequest) : Prop where
  identity : before.SameIdentity after
  /-- An attempt once assigned stays. -/
  attempt : before.attemptId.isSome → after.attemptId = before.attemptId
  status : Relation.ReflTransGen (fun left right => (left, right) ∈ transitions)
    before.status after.status
  frozen : before.status.Terminal → after = before

theorem Later.refl (request : ProcessingRequest) : request.Later request :=
  ⟨.refl request, fun _ => rfl, .refl, fun _ => rfl⟩

theorem Later.forward {first second third : ProcessingRequest} (later : first.Later second)
    (forward : second.Forward third) : first.Later third where
  identity := later.identity.trans forward.identity
  attempt assigned := by
    have kept := later.attempt assigned
    rcases forward.attempt with same | ⟨unassigned, _⟩
    · exact same.trans kept
    · rw [kept] at unassigned
      simp [unassigned] at assigned
  status := by
    rcases forward.status with same | moved
    · exact same ▸ later.status
    · exact later.status.tail moved
  frozen ended := by
    have kept := later.frozen ended
    subst kept
    exact forward.frozen ended

end ProcessingRequest

/-- A lifecycle event that moves a request forward, and not without changing its status. -/
def LifecycleEvent.MovesForward (event : LifecycleEvent) : Prop :=
  ∀ request updated entry, event.decide request = .ok (.applied updated entry) →
    request.WellFormed → request.Forward updated

theorem AcceptProcessingRequestUseCase.movesForward (draws : Draws) (input : Input) :
    (event draws input).MovesForward := by
  intro request updated entry decided wellFormed
  rcases decide_eq_applied.mp decided with ⟨received, rfl, _⟩
  exact {
    identity := .refl _
    attempt := .inr ⟨wellFormed.attemptId received, rfl, received, rfl⟩
    status := .inr (by simp [received, ProcessingRequest.transitions])
    unchanged := by simp [received] }

theorem StartProcessingRequestUseCase.movesForward (draws : Draws) (input : Input) :
    (event draws input).MovesForward := by
  intro request updated entry decided wellFormed
  rcases decide_eq_applied.mp decided with ⟨_, queued, rfl, _⟩
  exact {
    identity := .refl _
    attempt := .inl rfl
    status := .inr (by simp [queued, ProcessingRequest.transitions])
    unchanged := by simp [queued] }

theorem CompleteProcessingRequestUseCase.movesForward (draws : Draws) (input : Input) :
    (event draws input).MovesForward := by
  intro request updated entry decided wellFormed
  rcases decide_eq_applied.mp decided with ⟨_, _, running, rfl, _⟩
  exact .ending running (.refl _) rfl (.inl rfl)

theorem FailProcessingRequestUseCase.movesForward (draws : Draws) (input : Input) :
    (event draws input).MovesForward := by
  intro request updated entry decided wellFormed
  rcases decide_eq_applied.mp decided with
    ⟨⟨_, received⟩ | ⟨_, _, running⟩, ⟨code, _, rfl⟩, _⟩
  · exact ⟨.refl _, .inl rfl, .inr (by simp [received, ProcessingRequest.transitions]),
      by simp [received]⟩
  · exact .ending running (.refl _) rfl (.inr rfl)

theorem Operation.movesForward {operation : Operation} {event : LifecycleEvent}
    (isEvent : operation.event? = some event) : event.MovesForward :=
  forall_event AcceptProcessingRequestUseCase.movesForward
    StartProcessingRequestUseCase.movesForward CompleteProcessingRequestUseCase.movesForward
    FailProcessingRequestUseCase.movesForward isEvent

/-- The request an operation names: a create names none. -/
def Operation.named? (operation : Operation) : Option Uuid := do
  let event ← operation.event?
  Uuid.parse event.processingRequestId

/-- A stored request stays, with its identity. -/
theorem Operation.Leaves.identity {operation : Operation} {ledger after : Ledger}
    (left : operation.Leaves ledger after) {id : Uuid} {row : ProcessingRequestRow}
    (found : ledger.requests.find? id = some row) :
    ∃ row', after.requests.find? id = some row' ∧ row.SameIdentity row' := by
  have stored := KeyedTable.mem_of_find? found
  obtain rfl := KeyedTable.key_of_find? found
  have stays : ∃ row', ledger.requests.find? row.processingRequestId = some row' ∧
      row.SameIdentity row' := ⟨row, found, .refl row⟩
  cases left with
  | unchanged => exact stays
  | inserted isCreate valid isRequest unrecorded free =>
      simp only [KeyedTable.find?_upsert]
      rw [if_neg (Ne.symm (free row stored .primaryKey))]
      exact stays
  | noted isEvent rowMem named unrecorded decided => exact stays
  | @applied _ before row' _ isEvent rowMem named unrecorded same decided =>
      simp only [KeyedTable.find?_upsert]
      split
      · next isRow =>
          have foundBefore := KeyedTable.find?_key rowMem
          rw [same.processingRequestId.symm.trans isRow, found] at foundBefore
          exact ⟨row', rfl, Option.some.inj foundBefore ▸ same⟩
      · exact stays

/-- What an operation does to the stored requests: each stays, moves forward, and only the one it
names may change. -/
def Ledger.Forward (named : Option Uuid) (before after : Ledger) : Prop :=
  ∀ row ∈ before.requests, ∃ row' ∈ after.requests,
    row'.processingRequestId = row.processingRequestId ∧ row.toDomain.Forward row'.toDomain ∧
      (named ≠ some row.processingRequestId → row' = row)

theorem Operation.Leaves.forward {operation : Operation} {ledger after : Ledger}
    (left : operation.Leaves ledger after) (agreement : ledger.Agreement) :
    ledger.Forward operation.named? after := by
  have stays : ∀ row : ProcessingRequestRow, row.processingRequestId = row.processingRequestId ∧
      row.toDomain.Forward row.toDomain ∧
        (operation.named? ≠ some row.processingRequestId → row = row) := fun row =>
    ⟨rfl, .refl _, fun _ => rfl⟩
  intro stored storedMem
  cases left with
  | unchanged => exact ⟨stored, storedMem, stays stored⟩
  | noted isEvent rowMem named unrecorded decided => exact ⟨stored, storedMem, stays stored⟩
  | inserted isCreate valid isRequest unrecorded free =>
      have kept := KeyedTable.mem_upsert.mpr (.inr ⟨storedMem, free stored storedMem .primaryKey⟩)
      exact ⟨stored, kept, stays stored⟩
  | @applied event row row' entry isEvent rowMem named unrecorded same decided =>
      have isNamed : operation.named? = some row.processingRequestId := by
        simp [Operation.named?, isEvent, named]
      by_cases replaced : stored.processingRequestId = row'.processingRequestId
      · have isRow : stored = row :=
          KeyedTable.eq_of_key_eq storedMem rowMem (replaced.trans same.processingRequestId)
        subst isRow
        refine ⟨row', KeyedTable.mem_upsert.mpr (.inl rfl), replaced.symm, ?_, ?_⟩
        · exact movesForward isEvent _ _ _ decided (agreement.wellFormed stored storedMem)
        · exact fun other => absurd isNamed other
      · have kept := KeyedTable.mem_upsert.mpr (.inr ⟨storedMem, replaced⟩)
        exact ⟨stored, kept, stays stored⟩

/-- What becomes of a stored request over a stretch of a history. -/
theorem History.later {ι : Type} {operations : ι → Operation} {initial before after : Ledger}
    {past committed : List (ι × List Write)} (agreement : initial.Agreement)
    (history : History operations initial past before) (isPast : past <+: committed)
    (whole : History operations initial committed after) :
    ∀ row ∈ before.requests, ∃ row' ∈ after.requests,
      row'.processingRequestId = row.processingRequestId ∧ row.toDomain.Later row'.toDomain := by
  rcases isPast with ⟨more, rfl⟩
  intro row rowMem
  induction more using List.reverseRecOn generalizing after with
  | nil =>
      rw [List.append_nil] at whole
      exact ⟨row, whole.unique history ▸ rowMem, rfl, .refl _⟩
  | append_singleton more entry ih =>
      rw [← List.append_assoc] at whole
      rcases whole.snoc_cases with ⟨middle, shorter, performed, rfl⟩
      rcases ih shorter with ⟨row', rowMem', sameId, later⟩
      have left := (operations entry.1).leaves middle
      rw [performed] at left
      rcases left.forward (shorter.agreement agreement) row' rowMem' with
        ⟨row'', rowMem'', sameId', forward, _⟩
      exact ⟨row'', rowMem'', sameId'.trans sameId, later.forward forward⟩

end ProcessingCatalog
