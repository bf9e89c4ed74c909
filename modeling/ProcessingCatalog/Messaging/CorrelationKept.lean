import ProcessingCatalog.Messaging.System
import ProcessingCatalog.Persistence.ExactlyOnce
import ProcessingCatalog.Persistence.ForwardOnly
import ProcessingCatalog.Persistence.IdempotentCreate
import ProcessingCatalog.RabbitMq.WithCorrelation
import ProcessingCatalog.Store.Correlation

/-!
# A correlation id survives the pipeline

The id a create lets through is stored with its request for good, goes out with
every event about the request, and is the id of the scope in which a message
that gives it back is handled.
-/

namespace ProcessingCatalog

open Effect

namespace CreateProcessingRequestUseCase

theorem correlationId_of_checked {input : Input} {correlationId : Option JsString}
    (valid : checked input = .ok correlationId) :
    correlationId = input.correlationId.bind parseCorrelationId ∧
      (input.correlationId.isSome → correlationId.isSome) := by
  unfold checked at valid
  split at valid
  · cases valid
  · split at valid
    · cases valid
    · cases given : input.correlationId with
      | none =>
          rw [given] at valid
          cases valid
          exact ⟨rfl, nofun⟩
      | some raw =>
          rw [given, validCorrelationId] at valid
          cases isParsed : parseCorrelationId raw with
          | none =>
              rw [isParsed] at valid
              cases valid
          | some parsed =>
              rw [isParsed] at valid
              cases valid
              exact ⟨isParsed.symm, fun _ => rfl⟩

end CreateProcessingRequestUseCase

namespace Postgres

variable {ι : Type} [Fintype ι] [DecidableEq ι] {operations : ι → Operation} {nextOutboxId : ℕ}
  {world later : Machine.World (machine ι true) Thrown Answer}

theorem correlated_reached
    (reached : Machine.Reaches (start true operations .empty nextOutboxId) world) :
    ∃ ledger : Ledger, world.shared.database.Represents ledger ∧ ledger.Correlated operations := by
  rcases (invariant_reached numbered_empty reached).represents with ⟨ledger, history, represents⟩
  exact ⟨ledger, represents, history.correlated⟩

/-- The request a create has answered as created is stored with the id the create was given. -/
theorem stored_of_created
    (reached : Machine.Reaches (start true operations .empty nextOutboxId) world) {index : ι}
    {draws : Draws} {input : CreateProcessingRequestUseCase.Input}
    (isCreate : operations index = .create draws input) {request : ProcessingRequest}
    (answered : outcomeOf world index = some (.ok (.result ⟨request, .created⟩))) :
    (request.correlationId = input.correlationId.bind parseCorrelationId ∧
        (input.correlationId.isSome → request.correlationId.isSome)) ∧
      ∃ row ∈ world.shared.database.requests, request.SameIdentity row.toDomain := by
  rcases (invariant_reached numbered_empty reached).represents with ⟨ledger, history, represents⟩
  rcases createEnded_of_operation numbered_empty reached isCreate answered with
    ⟨result, isResult, ended⟩
  cases result with
  | error error => cases isResult
  | ok result =>
      cases isResult
      rcases ended with ⟨correlationId, valid, isRequest, writes, committed, inserted⟩
      rw [CreateProcessingRequestUseCase.eq_toDomain_of_requestOf isRequest]
      refine ⟨CreateProcessingRequestUseCase.correlationId_of_checked valid, ?_⟩
      rw [represents.requests]
      exact history.kept_of_insertRequest committed inserted

end Postgres

namespace System

variable {ι κ : Type} [Fintype ι] [DecidableEq ι] [DecidableEq κ]

/-- What becomes of the correlation id of a stored request. -/
structure CorrelationKept (operations : ι → Operation) (system : System ι κ)
    (row : ProcessingRequestRow) : Prop where
  /-- It is what the create of the request was given, parsed. -/
  created : ∃ index draws input, operations index = .create draws input ∧
    row.processingRequestId = draws.uuid ∧
    row.correlationId = input.correlationId.bind parseCorrelationId ∧
    (input.correlationId.isSome → row.correlationId.isSome)
  /-- It fits `varchar(128)`. -/
  fits : ∀ id, row.correlationId = some id → id.length ≤ 128
  /-- Every event about the request carries it. -/
  sent : ∀ delivery, delivery ∈ system.relay.shared.inFlight ∨
      delivery ∈ system.relay.shared.received →
    delivery.message.data.processingRequestId = row.processingRequestId.text →
    delivery.message.data.correlationId = row.correlationId
  later : ∀ next, system.Reaches next → ∃ row' ∈ next.store.shared.database.requests,
    row'.processingRequestId = row.processingRequestId ∧ row'.correlationId = row.correlationId

variable {operations : ι → Operation} {nextOutboxId : ℕ} {batchSize : κ → ℕ}

theorem correlationKept {system : System ι κ}
    (reached : (start operations nextOutboxId batchSize).Reaches system)
    {row : ProcessingRequestRow} (rowMem : row ∈ system.store.shared.database.requests) :
    CorrelationKept operations system row := by
  have coupled := coupled_reached reached
  rcases Postgres.correlated_reached coupled.store with ⟨ledger, represents, correlated⟩
  rcases correlated.created row (represents.requests ▸ rowMem) with
    ⟨index, draws, input, correlationId, isCreate, valid, same⟩
  rcases CreateProcessingRequestUseCase.correlationId_of_checked valid with ⟨rfl, present⟩
  have isParsed : row.correlationId = input.correlationId.bind parseCorrelationId :=
    same.correlationId
  constructor
  · exact ⟨index, draws, input, isCreate, same.processingRequestId, isParsed,
      fun given => isParsed ▸ present given⟩
  · intro id isId
    rcases Option.bind_eq_some_iff.mp (isParsed.symm.trans isId) with ⟨raw, _, isParsed⟩
    exact (isPrintableAscii_iff.mp
      (isCorrelationId_iff.mp (isCorrelationId_of_parse isParsed)).1).1.2
  · intro delivery sent about
    rcases coupled.row_of_sent sent with ⟨entryRow, entryMem, _, payload⟩
    rw [← payload] at about ⊢
    exact correlated.carried entryRow.entry
      (represents.outbox.mem_iff.mp (List.mem_map_of_mem entryMem)) row
      (represents.requests ▸ rowMem) about
  · intro next run
    rcases Postgres.later_reached coupled.store run.store row rowMem with
      ⟨row', rowMem', sameId, moved⟩
    have same : row.SameIdentity row' := moved.identity
    exact ⟨row', rowMem', sameId, same.correlationId⟩

/-- A correlation id is normalised once and survives the pipeline, whatever the use cases, the
drains and the broker do: a create that is given one stores what it parses to, every event about
the request carries that, and a message that gives it back is handled under it. Whatever a message
is, it is handled once, under an id that is not empty. -/
theorem correlation_survives (operations : ι → Operation) (nextOutboxId : ℕ)
    (batchSize : κ → ℕ) :
    (∀ raw parsed, parseCorrelationId (.string raw) = some parsed → Normalised raw parsed) ∧
    (∀ system : System ι κ, (start operations nextOutboxId batchSize).Reaches system →
      (∀ index draws input request, operations index = .create draws input →
        Postgres.outcomeOf system.store index = some (.ok (.result ⟨request, .created⟩)) →
        ∀ raw, input.correlationId = some raw → ∃ parsed, parseCorrelationId raw = some parsed ∧
          ∃ row ∈ system.store.shared.database.requests,
            request.processingRequestId = row.processingRequestId.text ∧
              row.correlationId = some parsed) ∧
      ∀ row ∈ system.store.shared.database.requests, CorrelationKept operations system row) ∧
    (∀ raw parsed, parseCorrelationId raw = some parsed →
      ∀ content body, Json.parse content = some body → body.Carries parsed →
        ∀ (m : Type → Type) (α : Type) drawn (handle : Scoped m α) scope,
          correlated drawn content handle scope = handle (some ⟨parsed⟩)) ∧
    ∀ content (m : Type → Type) (α : Type) drawn (handle : Scoped m α) scope,
      ∃ id ≠ [], correlated drawn content handle scope = handle (some ⟨id⟩) := by
  refine ⟨fun _ _ => normalised_of_parse, fun system reached => ⟨?_, fun row => ?_⟩, ?_, ?_⟩
  · intro index draws input request isCreate answered raw given
    rcases Postgres.stored_of_created (coupled_reached reached).store isCreate answered with
      ⟨⟨isParsed, present⟩, row, rowMem, same⟩
    rw [given] at isParsed present
    rcases Option.isSome_iff_exists.mp (present rfl) with ⟨parsed, isSome⟩
    exact ⟨parsed, isParsed.symm.trans isSome, row, rowMem, same.1.symm,
      same.2.2.2.2.2.1.trans isSome⟩
  · exact correlationKept reached
  · intro raw parsed isParsed content body isJson carries m α drawn handle scope
    rw [correlated_eq,
      correlationIdOf_of_carries isJson carries (isCorrelationId_of_parse isParsed),
      Option.getD_some]
  · intro content m α drawn handle scope
    exact ⟨_, (isCorrelationId_of_message drawn content).ne_nil,
      correlated_eq drawn content handle scope⟩

/-- An upload whose correlation id has white space around it. -/
def tracedUpload : Unit → Operation
  | () => .create ⟨1789953000000, .repeated 1, .repeated 2, 3000⟩
      ⟨js "e-1", js "owner", js "owner@example.com", js "uploads/a.mp4", js "key",
        some (.string (js " trace-1 "))⟩

/-- Until the drain has published the request for validation. -/
def untilPublished : List (Action Unit Unit) :=
  List.replicate 8 (.useCase () .proceed) ++ List.replicate 4 (.drain () (.proceed 7))

/-- The id of the upload is stored and published without the white space, and read within the
handling of a message that gives it back. -/
theorem correlation_survives_upload : ∃ system : System Unit Unit,
    (∃ row ∈ system.store.shared.database.requests, row.correlationId = some (js "trace-1") ∧
      CorrelationKept tracedUpload system row) ∧
    system.relay.shared.inFlight.map (·.message.data.correlationId) = [some (js "trace-1")] ∧
    correlated (.repeated 3) (envelopedBody (js "trace-1")) CorrelationContext.getCorrelationId
      none = (pure (some (js "trace-1")) : Id (Option JsString)) := by
  have ran : ((start tracedUpload 1 fun _ => 50).runActions untilPublished).map (fun system =>
      (Postgres.answersCreated (Postgres.outcomeOf system.store ()),
        system.relay.shared.inFlight.map (·.message.data.correlationId))) =
      some (true, [some (js "trace-1")]) := by
    decide +kernel
  rcases Option.map_eq_some_iff.mp ran with ⟨system, ran, observed⟩
  rcases Prod.mk.inj observed with ⟨created, sent⟩
  rcases Postgres.answersCreated_iff.mp created with ⟨request, answered⟩
  rcases correlation_survives tracedUpload 1 fun _ : Unit => 50 with ⟨_, pipeline, handled, _⟩
  rcases pipeline system (reaches_of_runActions ran) with ⟨stored, kept⟩
  rcases stored () _ _ request rfl answered _ rfl with ⟨parsed, isParsed, row, rowMem, _, isStored⟩
  have trimmed : parseCorrelationId (.string (js " trace-1 ")) = some (js "trace-1") := by
    decide +kernel
  cases isParsed.symm.trans trimmed
  rcases carries_envelopedBody (isCorrelationId_of_parse trimmed) with ⟨body, isJson, carries⟩
  exact ⟨system, ⟨row, rowMem, isStored, kept row rowMem⟩, sent,
    handled _ _ trimmed _ body isJson carries Id _ _ CorrelationContext.getCorrelationId none⟩

end System

end ProcessingCatalog
