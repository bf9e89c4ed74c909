import ProcessingCatalog.Messaging.System
import ProcessingCatalog.Persistence.ForwardOnly
import ProcessingCatalog.Persistence.Refusals
import ProcessingCatalog.RabbitMq.Echo

/-!
# What the broker has been told stays true

A queued event names the attempt that is stored of its request, in the state in
which it is published and in every later one. So an event of the Worker about
that attempt is never stale and never early, whenever it is delivered: it can
only come too late, for a request that has ended.
-/

namespace ProcessingCatalog

open Domain Effect

/-- A request stored with its attempt: an event about the attempt is neither early nor stale. -/
structure Attempting (id attemptId : Uuid) (row : ProcessingRequestRow) : Prop where
  named : row.processingRequestId = id
  attempt : row.attemptId = some attemptId
  accepted : row.status ≠ .received
  notStale : isStaleAttempt row.toDomain (some attemptId.text) = false

namespace Attempting

variable {id attemptId : Uuid} {row : ProcessingRequestRow}

theorem of_wellFormed (wellFormed : row.toDomain.WellFormed) (named : row.processingRequestId = id)
    (attempt : row.attemptId = some attemptId) : Attempting id attemptId row where
  named := named
  attempt := attempt
  accepted received := by
    have unassigned := wellFormed.attemptId received
    simp [ProcessingRequestRow.toDomain, attempt] at unassigned
  notStale := isStaleAttempt_of_current (by simp [ProcessingRequestRow.toDomain, attempt])

/-- A later version of the request still has the attempt. -/
theorem later (attempting : Attempting id attemptId row) {row' : ProcessingRequestRow}
    (wellFormed : row'.toDomain.WellFormed)
    (sameId : row'.processingRequestId = row.processingRequestId)
    (moved : row.toDomain.Later row'.toDomain) : Attempting id attemptId row' := by
  refine of_wellFormed wellFormed (sameId.trans attempting.named) ?_
  have assigned : row.toDomain.attemptId = some attemptId.text := by
    simp [ProcessingRequestRow.toDomain, attempting.attempt]
  have kept : row'.attemptId.map Uuid.text = some attemptId.text :=
    (moved.attempt (by simp [assigned])).trans assigned
  rcases Option.map_eq_some_iff.mp kept with ⟨uuid, isSame, sameText⟩
  rw [isSame, Uuid.text_injective sameText]

end Attempting

/-- The queued event of a request carries the stored attempt. -/
theorem Agrees.attempt_of_queued {request : ProcessingRequest} {entries : List OutboxEntry}
    (agrees : Agrees request entries) {entry : OutboxEntry} (entryMem : entry ∈ entries)
    (queued : entry.route.pattern = js "ProcessingQueued") :
    request.attemptId.isSome ∧ entry.payload.attemptId = request.attemptId := by
  have announced : entry ∈ announcements (js "ProcessingQueued") entries :=
    List.mem_filter.mpr ⟨entryMem, by simpa using queued⟩
  have assigned := agrees.queued.1.mp (List.ne_nil_of_mem announced)
  rcases agrees.queued.2 assigned with ⟨only, isOnly, attempt⟩
  rw [isOnly, List.mem_singleton] at announced
  exact ⟨assigned, announced ▸ attempt⟩

namespace Postgres

variable {ι : Type} [Fintype ι] [DecidableEq ι] {operations : ι → Operation} {nextOutboxId : ℕ}
  {world later : Machine.World (machine ι true) Thrown Answer}

/-- The request of a committed outbox row is stored, and a queued row carries its attempt. -/
theorem stored_of_outbox
    (reached : Machine.Reaches (start true operations .empty nextOutboxId) world)
    {row : OutboxRow} (rowMem : row ∈ world.shared.database.outbox) :
    ∃ stored ∈ world.shared.database.requests, row.request = stored.processingRequestId.text ∧
      (row.entry.route.pattern = js "ProcessingQueued" → ∃ attemptId : Uuid,
        row.entry.payload.attemptId = some attemptId.text ∧
          Attempting stored.processingRequestId attemptId stored) := by
  rcases (invariant_reached numbered_empty reached).represents with ⟨ledger, history, represents⟩
  have agreement : ledger.Agreement := history.agreement Ledger.agreement_empty
  have entryMem : row.entry ∈ ledger.outbox :=
    represents.outbox.mem_iff.mp (List.mem_map_of_mem rowMem)
  rcases agreement.stored row.entry entryMem with ⟨stored, storedMem, named⟩
  refine ⟨stored, represents.requests ▸ storedMem, named, fun queued => ?_⟩
  have about : row.entry ∈ ledger.outboxOf stored.processingRequestId.text :=
    List.mem_filter.mpr ⟨entryMem, by simpa using named⟩
  rcases (agreement.agrees stored storedMem).attempt_of_queued about queued with
    ⟨assigned, carried⟩
  rcases Option.isSome_iff_exists.mp assigned with ⟨text, isText⟩
  rcases Option.map_eq_some_iff.mp isText with ⟨attemptId, isAttempt, rfl⟩
  exact ⟨attemptId, carried.trans isText,
    .of_wellFormed (agreement.wellFormed stored storedMem) rfl isAttempt⟩

/-- A request has its attempt for good. -/
theorem attempting_later
    (reached : Machine.Reaches (start true operations .empty nextOutboxId) world)
    (run : Machine.Reaches world later) {id attemptId : Uuid}
    (attempting : ∃ row ∈ world.shared.database.requests, Attempting id attemptId row) :
    ∃ row ∈ later.shared.database.requests, Attempting id attemptId row := by
  rcases attempting with ⟨row, rowMem, attempting⟩
  rcases later_reached reached run row rowMem with ⟨row', rowMem', sameId, moved⟩
  rcases (invariant_reached numbered_empty (reached.trans run)).represents with
    ⟨ledger, history, represents⟩
  have agreement : ledger.Agreement := history.agreement Ledger.agreement_empty
  have wellFormed := agreement.wellFormed row' (represents.requests ▸ rowMem')
  exact ⟨row', rowMem', attempting.later wellFormed sameId moved⟩

/-- What has become of an event of the Worker about an attempt, whose call `index` began when
`past` was committed. -/
structure Heeded (operations : ι → Operation) (index : ι) (parsed : ConsumedEvent) (draws : Draws)
    (id attemptId : Uuid) (past : List (ι × List Write))
    (world : Machine.World (machine ι true) Thrown Answer) : Prop where
  /-- What the call commits, it does to the request with that very attempt. -/
  performed : ∀ writes, (index, writes) ∈ world.shared.committed →
    SawSince operations .empty past (fun ledger =>
      ((operations index).perform ledger).2 = writes.map Change.forget ∧
        ∃ row ∈ ledger.requests, Attempting id attemptId row) world.shared
  /-- The call throws for the event's own fields, in the database, or for a request that has
  ended. -/
  refused : ∀ error, world.programs index = .throw error →
    (¬ parsed.WellFormed ∧ (parsed.lifecycle draws).refusal = some error) ∨
      (∃ failure, error = .database failure) ∨
      ∃ row ∈ world.shared.database.requests, Attempting id attemptId row ∧ row.status.Terminal ∧
        (parsed.lifecycle draws).decide row.toDomain = .error error

/-- Whatever happens meanwhile, an event about a request's attempt that is delivered in `world` is
heeded. -/
theorem heeded_reached
    (reached : Machine.Reaches (start true operations .empty nextOutboxId) world)
    (run : Machine.Reaches world later) {index : ι} {parsed : ConsumedEvent} {draws : Draws}
    {id attemptId : Uuid} (isEcho : operations index = parsed.operation draws)
    (echoes : parsed.Echoes id.text attemptId.text) (waiting : Waiting operations index world)
    (attempting : ∃ row ∈ world.shared.database.requests, Attempting id attemptId row) :
    Heeded operations index parsed draws id attemptId world.shared.committed later := by
  rcases attempting with ⟨row, rowMem, attempting⟩
  constructor
  · intro writes committed
    have performed := performed_since numbered_empty reached waiting run committed
    refine (stored_at_moment numbered_empty reached run performed rowMem).mono ?_
    rintro ledger ⟨performed, seen, seenMem, wellFormed, sameId, moved, _⟩
    exact ⟨performed, seen, seenMem, attempting.later wellFormed sameId moved⟩
  · intro error threw
    have isEvent : (operations index).event? = some (parsed.lifecycle draws) :=
      isEcho ▸ parsed.event?_operation draws
    have ended : later.programs index = .ofExcept (.error error) := threw
    rcases accounted_reached numbered_empty reached waiting isEvent run ended with
      ⟨result, isResult, accounted⟩
    cases result with
    | ok request => cases isResult
    | error _ =>
        cases isResult
        cases accounted.2 with
        | input refused =>
            refine .inl ⟨fun wellFormed => ?_, refused⟩
            rw [echoes.refusal wellFormed] at refused
            cases refused
        | database failure => exact .inr (.inl ⟨failure, rfl⟩)
        | request valid refused =>
            rcases stored_at_moment numbered_empty reached run refused rowMem with
              ⟨_, ledger, _, _, _, ⟨named, isNamed, why⟩, seen, seenMem, wellFormed, sameId, moved,
                kept, keptMem, _, frozen⟩
            have seenAttempting := attempting.later wellFormed sameId moved
            have found : ledger.requests.find? named = some seen := by
              rw [echoes.processingRequestId, Uuid.parse_text, Option.some.injEq] at isNamed
              rw [← isNamed, ← seenAttempting.named]
              exact KeyedTable.find?_key seenMem
            rcases why with ⟨missing, _⟩ | ⟨other, isOther, decided⟩
            · rw [found] at missing
              cases missing
            · obtain rfl : seen = other := Option.some.inj (found.symm.trans isOther)
              have terminal : seen.status.Terminal := echoes.terminal_of_refused valid
                (by simp [ProcessingRequestRow.toDomain, seenAttempting.attempt])
                seenAttempting.accepted decided
              have same : kept = seen :=
                ProcessingRequestRow.toDomain_injective (frozen.frozen terminal)
              exact .inr (.inr ⟨seen, same ▸ keptMem, seenAttempting, terminal, decided⟩)

end Postgres

namespace System

variable {ι κ : Type} [Fintype ι] [DecidableEq ι] [DecidableEq κ]

/-- Whatever the use cases, the drains and the broker do, from an empty store: the request of a
validation event handed to the broker is stored from then on, and the request of a queued event is
stored with the attempt the event names. So an event of the Worker about that attempt is heeded,
whenever its call begins after that: it is about the request's own attempt, and what it throws is
for its own fields, in the database, or for a request that has ended. -/
theorem broker_told (operations : ι → Operation) {nextOutboxId : ℕ} {batchSize : κ → ℕ}
    {told : System ι κ} (reached : (start operations nextOutboxId batchSize).Reaches told)
    {delivery : Relay.Delivery} (sent : delivery ∈ told.relay.shared.inFlight ∨
      delivery ∈ told.relay.shared.received) :
    (delivery.message.pattern = js "VideoValidationRequested" →
      ∀ system, told.Reaches system → ∃ row ∈ system.store.shared.database.requests,
        delivery.message.data.processingRequestId = row.processingRequestId.text) ∧
    (delivery.message.pattern = js "ProcessingQueued" → ∃ id attemptId : Uuid,
      delivery.message.data.processingRequestId = id.text ∧
      delivery.message.data.attemptId = some attemptId.text ∧
      ∀ system, told.Reaches system →
        (∃ row ∈ system.store.shared.database.requests, Attempting id attemptId row) ∧
        ∀ index parsed draws, operations index = parsed.operation draws →
          parsed.Echoes id.text attemptId.text →
          Postgres.Waiting operations index system.store →
          ∀ later, system.Reaches later →
            Postgres.Heeded operations index parsed draws id attemptId
              system.store.shared.committed later.store) := by
  have coupled := coupled_reached reached
  rcases coupled.row_of_sent sent with ⟨entryRow, entryMem, pattern, payload⟩
  rcases Postgres.stored_of_outbox coupled.store entryMem with ⟨row, rowMem, named, queuedAttempt⟩
  rw [OutboxRow.request, payload] at named
  constructor
  · intro _ system run
    rcases Postgres.later_reached coupled.store run.store row rowMem with ⟨row', rowMem', sameId, _⟩
    exact ⟨row', rowMem', sameId ▸ named⟩
  · intro isQueued
    rcases queuedAttempt (pattern.trans isQueued) with ⟨attemptId, attempt, attempting⟩
    rw [payload] at attempt
    refine ⟨row.processingRequestId, attemptId, named, attempt, fun system run => ?_⟩
    have stored := Postgres.attempting_later coupled.store run.store ⟨row, rowMem, attempting⟩
    refine ⟨stored, fun index parsed draws isEcho echoes waiting later after => ?_⟩
    have systemCoupled := coupled_reached (reached.trans run)
    exact Postgres.heeded_reached systemCoupled.store after.store isEcho echoes waiting stored

/-- A call has not begun while it has not had a turn. -/
theorem waiting_of_untouched {operations : ι → Operation} {nextOutboxId : ℕ} {batchSize : κ → ℕ}
    {system : System ι κ} {actions : List (Action ι κ)} {index : ι}
    (ran : (start operations nextOutboxId batchSize).runActions actions = some system)
    (untouched : ∀ choice, .useCase index choice ∉ actions) :
    Postgres.Waiting operations index system.store := by
  refine Postgres.waiting_of_untouched Postgres.numbered_empty (store_ran ran) ?_
  intro choice mem
  rcases List.mem_filterMap.mp mem with ⟨action, actionMem, isTurn⟩
  cases action with
  | useCase other choice =>
      cases isTurn
      exact untouched choice actionMem
  | _ => cases isTurn

def uploaded : Uuid := .repeated 1

def attempted : Uuid := .repeated 3

/-- The Worker starts the attempt it has been given. -/
def startedEvent : ConsumedEvent :=
  .processingStarted ⟨js "e-3", uploaded.text, attempted.text, js "2026-09-21T01:12:00.000Z"⟩

def startDraws : Draws :=
  ⟨1789953120000, .repeated 5, .repeated 6, 3000⟩

/-- An upload, the acceptance of its video and the start of its attempt. -/
def uploadToStart : Fin 3 → Operation
  | 0 => .create ⟨1789953000000, uploaded, .repeated 2, 3000⟩
      ⟨js "e-1", js "owner", js "owner@example.com", js "uploads/a.mp4", js "key", none⟩
  | 1 => .accept ⟨1789953060000, attempted, .repeated 4, 3000⟩
      ⟨js "e-2", uploaded.text, js "2026-09-21T01:11:00.000Z"⟩
  | 2 => startedEvent.operation startDraws

/-- The request for validation, as it is sent. -/
def validationMessage : Relay.Message :=
  ⟨js "VideoValidationRequested", {
    eventId := js "e-1", processingRequestId := uploaded.text, ownerUserId := js "owner"
    ownerEmail := none, sourceStorageKey := some (js "uploads/a.mp4"), status := none
    zipStorageKey := none, failureReason := none, attemptId := none
    occurredAt := js "2026-09-21T01:10:00.000Z", correlationId := none }⟩

/-- The queued event, as it is sent. -/
def queuedMessage : Relay.Message :=
  ⟨js "ProcessingQueued", {
    eventId := Uuid.text (.repeated 4), processingRequestId := uploaded.text
    ownerUserId := js "owner", ownerEmail := none, sourceStorageKey := some (js "uploads/a.mp4")
    status := none, zipStorageKey := none, failureReason := none
    attemptId := some attempted.text, occurredAt := js "2026-09-21T01:11:00.000Z"
    correlationId := none }⟩

/-- Until the drain publishes the queued event, which takes a confirm of the first. -/
def untilQueued : List (Action (Fin 3) (Fin 1)) :=
  List.replicate 8 (.useCase 0 .proceed) ++ List.replicate 8 (.useCase 1 .proceed) ++
  List.replicate 4 (.drain 0 (.proceed 7)) ++
  [.arrive ⟨1, 1, js "video-validation", validationMessage⟩] ++
  List.replicate 3 (.drain 0 (.proceed 7))

theorem broker_told_started : ∃ told later : System (Fin 3) (Fin 1), told.Reaches later ∧
    later.store.shared.database.requests.rows.map ProcessingRequestRow.status = [.processing] ∧
      Postgres.Heeded uploadToStart 2 startedEvent startDraws uploaded attempted
        told.store.shared.committed later.store := by
  have ran : (((start uploadToStart 1 fun _ => 50).runActions untilQueued).bind fun told =>
      (told.runActions (List.replicate 7 (.useCase 2 .proceed))).map fun later =>
        (told.relay.shared.inFlight.map Relay.Delivery.message,
          later.store.shared.database.requests.rows.map ProcessingRequestRow.status)) =
      some ([validationMessage, queuedMessage], [.processing]) := by
    decide +kernel
  rcases Option.bind_eq_some_iff.mp ran with ⟨told, queued, ran⟩
  rcases Option.map_eq_some_iff.mp ran with ⟨later, started, observed⟩
  rcases Prod.mk.inj observed with ⟨sent, statuses⟩
  have published : queuedMessage ∈ told.relay.shared.inFlight.map Relay.Delivery.message :=
    sent ▸ List.mem_cons_of_mem _ List.mem_cons_self
  rcases List.mem_map.mp published with ⟨delivery, flying, isQueued⟩
  have pattern : delivery.message.pattern = js "ProcessingQueued" := congrArg _ isQueued
  have request : delivery.message.data.processingRequestId = uploaded.text :=
    congrArg (·.data.processingRequestId) isQueued
  have attempt : delivery.message.data.attemptId = some attempted.text :=
    congrArg (·.data.attemptId) isQueued
  rcases (broker_told uploadToStart (reaches_of_runActions queued) (.inl flying)).2 pattern with
    ⟨id, attemptId, isRequest, isAttempt, heeded⟩
  obtain rfl : id = uploaded := Uuid.text_injective (isRequest.symm.trans request)
  obtain rfl : attemptId = attempted :=
    Uuid.text_injective (Option.some.inj (isAttempt.symm.trans attempt))
  have untouched : ∀ choice, .useCase 2 choice ∉ untilQueued := by
    intro choice
    simp [untilQueued]
  refine ⟨told, later, reaches_of_runActions started, statuses, ?_⟩
  exact (heeded told .refl).2 2 startedEvent startDraws rfl ⟨rfl, rfl⟩
    (waiting_of_untouched queued untouched) later (reaches_of_runActions started)

end System

end ProcessingCatalog
