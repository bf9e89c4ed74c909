import ProcessingCatalog.Persistence.OutboxAgreement
import ProcessingCatalog.Persistence.RedeliveryAbsorbed
import ProcessingCatalog.Store.Verdict

/-!
# The first terminal event decides, over PostgreSQL

Of the deliveries about a request, those count whose texts the database accepts:
the rest are refused and leave nothing. Where a request stands after a sequence
of deliveries is a function of the first verdict among those that count.
-/

namespace ProcessingCatalog

open Effect Domain

/-- Where a stored request stands. -/
def Database.standing (database : Database) (id : Uuid) : Option Standing :=
  (database.requests.find? id).map fun row => .of row.toDomain (database.outboxOf id.text)

theorem Database.Represents.standing {database : Database} {ledger : Ledger}
    (represents : database.Represents ledger) (id : Uuid) :
    database.standing id = ledger.standing id := by
  rw [Database.standing, Ledger.standing, represents.requests, represents.outboxOf]

namespace Postgres

/-- Whether the database accepts the texts of a delivery that moves the request on: those of the
row it saves, those of the terminal event it announces, and its event id. -/
def acceptsDelivery (rules : TextRules) (request : ProcessingRequest) : Operation → Bool
  | .start _ input => rules.acceptsRequest request && rules.acceptsEventId input.eventId
  | .complete draws input =>
      rules.acceptsRequest { request with zipStorageKey := some input.zipStorageKey } &&
        rules.acceptsPayload (terminalPayload draws request (some input.zipStorageKey) none
          input.occurredAt) &&
        rules.acceptsEventId input.eventId
  | .fail draws input =>
      rules.acceptsRequest request &&
        rules.acceptsPayload (terminalPayload draws request none
          ((failureCode? input.failureCode).map failureReasonFor) input.occurredAt) &&
        rules.acceptsEventId input.eventId
  | _ => true

/-- The verdict of a delivery that counts. -/
def verdictUnder? (rules : TextRules) (request : ProcessingRequest) (attemptId : JsString)
    (delivery : Operation) : Option Verdict :=
  if acceptsDelivery rules request delivery then delivery.verdict? attemptId else none

/-- Whether a delivery counts and starts an attempt. -/
def startsUnder (rules : TextRules) (request : ProcessingRequest) (attemptId : JsString)
    (delivery : Operation) : Bool :=
  acceptsDelivery rules request delivery && delivery.starts attemptId

/-- Where a sequence of deliveries leaves a request accepted with an attempt: with the first
verdict on the attempt that counts; without one, processing if some delivery that counts starts
the attempt. -/
def standingAfter (rules : TextRules) (request : ProcessingRequest) (attemptId : JsString)
    (deliveries : List Operation) : Standing :=
  .settled attemptId (deliveries.any (startsUnder rules request attemptId))
    (deliveries.findSome? (verdictUnder? rules request attemptId))

/-! ## What one delivery does -/

section Applied

variable {rules : TextRules} {first request updated : ProcessingRequest}
  {entries : List OutboxEntry} {attemptId : JsString} {started : Bool}

theorem acceptsRequest_congr {left right : ProcessingRequest}
    (same : requestTexts left = requestTexts right) :
    rules.acceptsRequest left = rules.acceptsRequest right := by
  rw [TextRules.acceptsRequest, TextRules.acceptsRequest, same]

theorem acceptsPayload_congr {left right : OutboxPayload}
    (same : payloadTexts left = payloadTexts right) :
    rules.acceptsPayload left = rules.acceptsPayload right := by
  rw [TextRules.acceptsPayload, TextRules.acceptsPayload, same]

/-- A delivery that moves an undecided request on writes the texts it is asked about. -/
theorem acceptsDelivery_of_applied (rules : TextRules) {operation : Operation}
    {event : LifecycleEvent} (isEvent : operation.event? = some event)
    (standing : .of request entries = Standing.undecided attemptId started)
    (same : first.SameIdentity request) (assigned : first.attemptId = some attemptId)
    (unzipped : first.zipStorageKey = none) {entry : Option (EventRoute × OutboxPayload)}
    (decided : event.decide request = .ok (.applied updated entry)) :
    acceptsDelivery rules first operation =
      (rules.acceptsRequest updated && (entry.toList.all fun announced =>
        rules.acceptsPayload announced.2) && rules.acceptsEventId operation.eventId) := by
  rcases Standing.of_eq_undecided.mp standing with ⟨_, attempt, zip, _, _⟩
  have opened := Standing.open_of_undecided standing
  rcases same with ⟨requestId, owner, email, source, key, correlation, _⟩
  cases operation with
  | create draws input => cases isEvent
  | accept draws input =>
      cases isEvent
      rcases AcceptProcessingRequestUseCase.decide_eq_applied.mp decided with ⟨received, _⟩
      simp [received] at opened
  | start draws input =>
      cases isEvent
      rcases StartProcessingRequestUseCase.decide_eq_applied.mp decided with
        ⟨_, _, isUpdated, rfl⟩
      have texts : requestTexts first = requestTexts updated := by
        simp [isUpdated, requestTexts, owner, email, source, zip, unzipped, key, correlation]
      simp [acceptsDelivery, acceptsRequest_congr texts, Operation.eventId]
  | complete draws input =>
      cases isEvent
      rcases CompleteProcessingRequestUseCase.decide_eq_applied.mp decided with
        ⟨_, _, _, isUpdated, rfl⟩
      have texts : requestTexts { first with zipStorageKey := some input.zipStorageKey } =
          requestTexts updated := by
        simp [isUpdated, requestTexts, owner, email, source, key, correlation]
      have announced : payloadTexts (terminalPayload draws first (some input.zipStorageKey) none
          input.occurredAt) = payloadTexts
            (CompleteProcessingRequestUseCase.completedEvent draws input updated) := by
        simp [isUpdated, payloadTexts, CompleteProcessingRequestUseCase.completedEvent,
          terminalPayload, requestId, owner, email, attempt, assigned, correlation]
      simp [acceptsDelivery, acceptsRequest_congr texts, acceptsPayload_congr announced,
        Operation.eventId]
  | fail draws input =>
      cases isEvent
      rcases FailProcessingRequestUseCase.decide_eq_applied.mp decided with
        ⟨_, ⟨code, known, isUpdated⟩, rfl⟩
      have texts : requestTexts first = requestTexts updated := by
        simp [isUpdated, requestTexts, owner, email, source, zip, unzipped, key, correlation]
      have announced : payloadTexts (terminalPayload draws first none
          ((failureCode? input.failureCode).map failureReasonFor) input.occurredAt) =
            payloadTexts (FailProcessingRequestUseCase.failedEvent draws input updated) := by
        simp [isUpdated, payloadTexts, FailProcessingRequestUseCase.failedEvent, terminalPayload,
          requestId, owner, email, attempt, assigned, correlation]
      simp [acceptsDelivery, acceptsRequest_congr texts, acceptsPayload_congr announced,
        Operation.eventId]

end Applied

section Step

variable {rules : TextRules} {operation : Operation} {event : LifecycleEvent} {ledger : Ledger}
  {first : ProcessingRequest} {row : ProcessingRequestRow} {id : Uuid} {attemptId : JsString}
  {started : Bool}

/-- An event that would be recorded changes all it changes, or nothing. -/
theorem changes_performUnder {recorded : ProcessedEvent}
    (isEventId : recorded.eventId = event.eventId)
    (recordedMem : .insertEvent recorded ∈ (event.perform ledger).2) :
    (performUnder rules event ledger).2 =
      if (event.perform ledger).2.all rules.acceptsChange then (event.perform ledger).2
      else [] := by
  unfold performUnder TextRules.enforce
  split_ifs with unread accepted accepted
  · have acceptsEventId := List.all_eq_true.mp accepted _ recordedMem
    simp only [TextRules.acceptsChange, TextRules.acceptsEventId, isEventId] at acceptsEventId
    simp [Bool.and_eq_true_iff.mp acceptsEventId] at unread
  · rfl
  · rfl
  · rfl

theorem all_appliedChanges (rules : TextRules) (event : LifecycleEvent)
    (row : ProcessingRequestRow) (entry : Option (EventRoute × OutboxPayload)) :
    (event.appliedChanges row entry).all rules.acceptsChange =
      (rules.acceptsRequest row.toDomain && (entry.toList.all fun announced =>
        rules.acceptsPayload announced.2) && rules.acceptsEventId event.eventId) := by
  cases entry <;> simp [LifecycleEvent.appliedChanges, TextRules.acceptsChange, Bool.and_assoc]

/-- What brings no verdict and starts nothing new does not do so under any rules. -/
theorem ineffective_under (rules : TextRules) (first : ProcessingRequest)
    (noVerdict : operation.verdict? attemptId = none)
    (startsNothing : (started || operation.starts attemptId) = started) :
    verdictUnder? rules first attemptId operation = none ∧
      (started || startsUnder rules first attemptId operation) = started := by
  unfold verdictUnder? startsUnder
  cases acceptsDelivery rules first operation with
  | true => exact ⟨noVerdict, by simpa using startsNothing⟩
  | false => simp

/-- An event that was not recorded, delivered to a request without a verdict: the delivery does
all it does at one moment, and counts for what it brings; or it changes nothing, and counts for
nothing. -/
theorem counts_of_undecided (named : operation.named? = some id)
    (identified : isBlank operation.eventId = false)
    (unrecorded : ledger.isRecorded operation.eventId = false)
    (found : ledger.requests.find? id = some row)
    (standing : .of row.toDomain (ledger.outboxOf id.text) = Standing.undecided attemptId started)
    (same : first.SameIdentity row.toDomain) (assigned : first.attemptId = some attemptId)
    (unzipped : first.zipStorageKey = none) :
    ((operationUnder rules ledger operation).2 = (operation.perform ledger).2 ∧
      verdictUnder? rules first attemptId operation = operation.verdict? attemptId ∧
      (started || startsUnder rules first attemptId operation) =
        (started || operation.starts attemptId)) ∨
    ((operationUnder rules ledger operation).2 = [] ∧
      verdictUnder? rules first attemptId operation = none ∧
      (started || startsUnder rules first attemptId operation) = started) := by
  have stands : ledger.standing id = some (.undecided attemptId started) := by
    rw [Ledger.standing, found, Option.map_some, standing]
  have after := Operation.standing_of_undecided named identified unrecorded stands
  -- a delivery that leaves the request where it stood brings nothing
  have ineffective (unmoved : (ledger.applyAll (operation.perform ledger).2).standing id =
      ledger.standing id) : operation.verdict? attemptId = none ∧
        (started || operation.starts attemptId) = started := by
    rw [after, stands] at unmoved
    exact Standing.settled_eq_undecided (Option.some.inj unmoved)
  rcases Operation.exists_event_of_named named with ⟨event, isEvent, parsed⟩
  have performed : (operation.perform ledger).2 = (event.perform ledger).2 := by
    rw [Operation.perform_of_event isEvent, Performed.map]
  rcases event.changes_cases ledger with
    nothing | ⟨stored, storedMem, _, isNamed, ⟨_, noted⟩ | ⟨row', entry, _, decided, applied⟩⟩
  · rcases ineffective (by rw [performed, nothing, Ledger.applyAll_nil]) with
      ⟨noVerdict, startsNothing⟩
    have unchanged : (operationUnder rules ledger operation).2 = [] := by
      rcases changes_operationUnder rules operation ledger with full | none
      · rw [full, performed, nothing]
      · exact none
    exact .inr ⟨unchanged, ineffective_under rules first noVerdict startsNothing⟩
  · rcases ineffective (by rw [performed, noted]; rfl) with ⟨noVerdict, startsNothing⟩
    rcases ineffective_under rules first noVerdict startsNothing with counts
    rcases changes_operationUnder rules operation ledger with full | nothing
    · exact .inl ⟨full, counts.1.trans noVerdict.symm, counts.2.trans startsNothing.symm⟩
    · exact .inr ⟨nothing, counts⟩
  · have isRow : stored = row := by
      have sameId : id = stored.processingRequestId := Option.some.inj (parsed.symm.trans isNamed)
      rw [sameId, KeyedTable.find?_key storedMem] at found
      exact Option.some.inj found
    subst isRow
    have writes := acceptsDelivery_of_applied rules isEvent standing same assigned
      unzipped decided
    rw [← Operation.eventId_of_event isEvent, ← all_appliedChanges, ← applied] at writes
    have recorded : .insertEvent ⟨event.eventId, some row'.processingRequestId⟩ ∈
        (event.perform ledger).2 := by
      rw [applied]
      exact LifecycleEvent.insertEvent_mem_appliedChanges.mpr rfl
    have changes : (operationUnder rules ledger operation).2 =
        if acceptsDelivery rules first operation then (operation.perform ledger).2 else [] := by
      rw [operationUnder_of_event isEvent, writes, performed, Performed.map]
      exact changes_performUnder rfl recorded
    unfold verdictUnder? startsUnder
    cases accepted : acceptsDelivery rules first operation with
    | true => exact .inl ⟨by simpa [accepted] using changes, by simp, by simp⟩
    | false => exact .inr ⟨by simpa [accepted] using changes, by simp, by simp⟩

/-- A stored request stays, with its identity. -/
theorem identity_of_operationUnder (rules : TextRules) (operation : Operation)
    (found : ledger.requests.find? id = some row) :
    ∃ row', (ledger.applyAll (operationUnder rules ledger operation).2).requests.find? id =
      some row' ∧ row.SameIdentity row' := by
  rcases changes_operationUnder rules operation ledger with full | nothing
  · exact full ▸ (operation.leaves ledger).identity found
  · exact nothing ▸ ⟨row, found, .refl row⟩

end Step

/-! ## A sequence of deliveries -/

/-- A request accepted with an attempt awaits the verdict on it. -/
def Awaits (ledger : Ledger) (first : ProcessingRequest) (id : Uuid) (attemptId : JsString)
    (started : Bool) : Prop :=
  ∃ row, ledger.requests.find? id = some row ∧ first.SameIdentity row.toDomain ∧
    .of row.toDomain (ledger.outboxOf id.text) = Standing.undecided attemptId started

section Serial

variable {rules : TextRules} {ledger : Ledger} {requestId : Uuid} {first : ProcessingRequest}
  {attemptId : JsString} {deliveries : List Operation}

theorem standing_of_ended (about : Deliveries requestId deliveries) {standing : Standing}
    (stands : ledger.standing requestId = some standing) (ended : standing.status.Terminal) :
    (performSeriallyUnder rules id deliveries ledger).2.standing requestId = some standing := by
  induction deliveries generalizing ledger with
  | nil => exact stands
  | cons delivery rest ih =>
      rw [performSeriallyUnder_cons, id_eq]
      refine ih about.tail ?_
      rcases changes_operationUnder rules delivery ledger with full | nothing
      · rw [full]
        exact Operation.standing_of_terminal (about.named delivery List.mem_cons_self) stands ended
      · rw [nothing]
        exact stands

/-- Deliveries of which those recorded already bring no verdict, and start nothing that has not
started. -/
theorem standing_of_deliveries (about : Deliveries requestId deliveries) {started : Bool}
    (assigned : first.attemptId = some attemptId) (unzipped : first.zipStorageKey = none)
    (awaits : Awaits ledger first requestId attemptId started)
    (seen : ∀ delivery ∈ deliveries, ledger.isRecorded delivery.eventId = true →
      delivery.verdict? attemptId = none ∧ (delivery.starts attemptId = true → started = true)) :
    (performSeriallyUnder rules id deliveries ledger).2.standing requestId =
      some (.settled attemptId
        (started || deliveries.any (startsUnder rules first attemptId))
        (deliveries.findSome? (verdictUnder? rules first attemptId))) := by
  induction deliveries generalizing ledger started with
  | nil =>
      rcases awaits with ⟨row, found, _, standing⟩
      simp [performSeriallyUnder, Ledger.standing, found, standing]
  | cons delivery rest ih =>
      have here := about.named delivery List.mem_cons_self
      rcases awaits with ⟨row, found, same, standing⟩
      have stands : ledger.standing requestId = some (.undecided attemptId started) := by
        rw [Ledger.standing, found, Option.map_some, standing]
      have noLater : ∀ other ∈ rest, ledger.isRecorded other.eventId = true →
          other.verdict? attemptId = none ∧ (other.starts attemptId = true → started = true) :=
        fun other otherMem => seen other (List.mem_cons_of_mem _ otherMem)
      -- a delivery that changes nothing, and counts for nothing
      have skipped (nothing : (operationUnder rules ledger delivery).2 = [])
          (noVerdict : verdictUnder? rules first attemptId delivery = none)
          (startsNothing : (started || startsUnder rules first attemptId delivery) = started) :
          (performSeriallyUnder rules id (delivery :: rest) ledger).2.standing requestId =
          some (.settled attemptId
            (started || (delivery :: rest).any (startsUnder rules first attemptId))
            ((delivery :: rest).findSome? (verdictUnder? rules first attemptId))) := by
        rw [performSeriallyUnder_cons, id_eq, nothing, Ledger.applyAll_nil, List.any_cons,
          ← Bool.or_assoc, startsNothing, List.findSome?_cons, noVerdict]
        exact ih about.tail ⟨row, found, same, standing⟩ noLater
      cases recorded : ledger.isRecorded delivery.eventId with
      | true =>
          rcases seen delivery List.mem_cons_self recorded with ⟨noVerdict, startedBefore⟩
          rcases ineffective_under rules first noVerdict (by simpa using startedBefore) with counts
          have unchanged : (operationUnder rules ledger delivery).2 = [] := by
            rcases changes_operationUnder rules delivery ledger with full | nothing
            · rcases delivery.changes_recorded ledger with nothing | ⟨unrecorded, _⟩
              · exact full.trans nothing
              · simp [recorded] at unrecorded
            · exact nothing
          exact skipped unchanged counts.1 counts.2
      | false =>
          rcases counts_of_undecided here (about.identified delivery List.mem_cons_self) recorded
            found standing same assigned unzipped with
            ⟨full, sameVerdict, sameStart⟩ | ⟨nothing, noVerdict, startsNothing⟩
          swap
          · exact skipped nothing noVerdict startsNothing
          have stands' := Operation.standing_of_undecided here
            (about.identified delivery List.mem_cons_self) recorded stands
          rw [performSeriallyUnder_cons, id_eq, List.any_cons, ← Bool.or_assoc, sameStart,
            List.findSome?_cons, sameVerdict]
          rcases identity_of_operationUnder rules delivery found with ⟨row', found', same'⟩
          rw [full] at found' ⊢
          cases verdict : delivery.verdict? attemptId with
          | some outcome =>
              rw [verdict, Standing.settled_some] at stands'
              exact standing_of_ended about.tail stands' (Standing.terminal_decided _ _)
          | none =>
              rw [verdict, Standing.settled_none] at stands'
              have standing' := stands'
              rw [Ledger.standing, found', Option.map_some, Option.some.injEq] at standing'
              refine ih about.tail ⟨row', found', same.trans same', standing'⟩ ?_
              intro other otherMem otherRecorded
              rcases Operation.recorded_of_step otherRecorded with before | sameEvent
              · rcases noLater other otherMem before with ⟨noVerdict, startedBefore⟩
                exact ⟨noVerdict, fun starts => by simp [startedBefore starts]⟩
              · have again := about.identifies delivery List.mem_cons_self other
                  (List.mem_cons_of_mem _ otherMem) sameEvent
                refine ⟨(again.verdict? attemptId).trans verdict, fun starts => ?_⟩
                rw [again.starts attemptId] at starts
                simp [starts]

/-- Where deliveries none of which was recorded leave a request accepted with an attempt. -/
theorem standing_after (about : Deliveries requestId deliveries)
    (assigned : first.attemptId = some attemptId) (unzipped : first.zipStorageKey = none)
    (awaits : Awaits ledger first requestId attemptId false)
    (unrecorded : ∀ delivery ∈ deliveries, ledger.isRecorded delivery.eventId = false) :
    (performSeriallyUnder rules id deliveries ledger).2.standing requestId =
      some (standingAfter rules first attemptId deliveries) := by
  rw [standing_of_deliveries about assigned unzipped awaits]
  · simp [standingAfter]
  · intro delivery deliveryMem recorded
    simp [unrecorded delivery deliveryMem] at recorded

/-- Where the database accepts the texts of every delivery, all of them count. -/
theorem standingAfter_of_accepted
    (accepted : ∀ delivery ∈ deliveries, acceptsDelivery rules first delivery = true) :
    standingAfter rules first attemptId deliveries = .after attemptId deliveries := by
  have same : deliveries.any (startsUnder rules first attemptId) =
      deliveries.any (·.starts attemptId) ∧
      deliveries.findSome? (verdictUnder? rules first attemptId) =
        deliveries.findSome? (·.verdict? attemptId) := by
    induction deliveries with
    | nil => exact ⟨rfl, rfl⟩
    | cons delivery rest ih =>
        have here := accepted delivery List.mem_cons_self
        rcases ih fun other otherMem => accepted other (List.mem_cons_of_mem _ otherMem) with
          ⟨starts, verdicts⟩
        refine ⟨by simp [startsUnder, here, starts], ?_⟩
        rw [List.findSome?_cons, List.findSome?_cons, verdicts, verdictUnder?, if_pos here]
  rw [standingAfter, Standing.after, same.1, same.2]

end Serial

section Reached

variable {ι : Type} [Fintype ι] [DecidableEq ι] {operations : ι → Operation} {nextOutboxId : ℕ}
  {world : Machine.World (machine ι true) Thrown Answer} {row : ProcessingRequestRow}
  {attemptId : Uuid} {deliveries : List Operation}

/-- Where deliveries leave a request just accepted, in a state a run reaches. -/
theorem standing_runSerially (rules : TextRules)
    (reached : Machine.Reaches (start true operations .empty nextOutboxId) world)
    (rowMem : row ∈ world.shared.database.requests) (accepted : row.status = .queued)
    (assigned : row.attemptId = some attemptId)
    (about : Deliveries row.processingRequestId deliveries)
    (unrecorded : ∀ delivery ∈ deliveries,
      world.shared.database.events.find? delivery.eventId = none) :
    (runSerially rules id deliveries (storeOf world.shared)).2.database.standing
        row.processingRequestId =
      some (standingAfter rules row.toDomain attemptId.text deliveries) := by
  have invariant := invariant_reached numbered_empty reached
  rcases invariant.represents with ⟨ledger, history, represents⟩
  have agreement : ledger.Agreement := history.agreement Ledger.agreement_empty
  have unique : UniqueIndexes world.shared.database.requests := by
    rw [represents.requests]
    exact history.uniqueIndexes uniqueIndexes_empty
  have inLedger : row ∈ ledger.requests := represents.requests ▸ rowMem
  have wellFormed := agreement.wellFormed row inLedger
  have attempt : row.toDomain.attemptId = some attemptId.text := by
    simp [ProcessingRequestRow.toDomain, assigned]
  have unzipped : row.toDomain.zipStorageKey = none :=
    wellFormed.zipStorageKey (by simp [ProcessingRequestRow.toDomain, accepted])
  have awaits : Awaits ledger row.toDomain row.processingRequestId attemptId.text false := by
    have quiet := (agreement.agrees row inLedger).terminal.1
    refine ⟨row, KeyedTable.find?_key inLedger, .refl _, ?_⟩
    refine Standing.of_eq_undecided.mpr ⟨accepted, attempt, unzipped, ?_, ?_⟩
    · exact wellFormed.failureCode (by simp [ProcessingRequestRow.toDomain, accepted])
    · simpa [ProcessingRequestRow.toDomain, accepted, ProcessingRequestStatus.Terminal] using quiet
  have serial := runSerially_eq rules id deliveries (storeOf world.shared) represents
    invariant.outbox_below unique
  rw [serial.2.standing]
  refine standing_after about attempt unzipped awaits fun delivery deliveryMem => ?_
  rw [Ledger.isRecorded, ← represents.events, unrecorded delivery deliveryMem]
  rfl

/-- A request just accepted, in a state any run of the use cases reaches from the empty store, and
further deliveries about it, none of whose events is recorded there. Where they leave the request
is a function of the first verdict on its attempt that counts, which every verdict does where the
database accepts the texts of all deliveries; so other deliveries with that first verdict, or like
these without any, leave it standing the same. -/
theorem first_verdict_decides (rules : TextRules) (operations : ι → Operation)
    (reached : Machine.Reaches (start true operations .empty nextOutboxId) world)
    (rowMem : row ∈ world.shared.database.requests) (accepted : row.status = .queued)
    (assigned : row.attemptId = some attemptId)
    (about : Deliveries row.processingRequestId deliveries)
    (unrecorded : ∀ delivery ∈ deliveries,
      world.shared.database.events.find? delivery.eventId = none) :
    let standing := fun deliveries =>
      (runSerially rules id deliveries (storeOf world.shared)).2.database.standing
        row.processingRequestId
    let verdict? := verdictUnder? rules row.toDomain attemptId.text
    let starts := startsUnder rules row.toDomain attemptId.text
    standing deliveries = some (standingAfter rules row.toDomain attemptId.text deliveries) ∧
    ((∀ delivery ∈ deliveries, acceptsDelivery rules row.toDomain delivery = true) →
      standing deliveries = some (.after attemptId.text deliveries)) ∧
    ∀ others : List Operation, Deliveries row.processingRequestId others →
      (∀ delivery ∈ others, world.shared.database.events.find? delivery.eventId = none) →
      others.findSome? verdict? = deliveries.findSome? verdict? →
      (deliveries.findSome? verdict? = none → others.any starts = deliveries.any starts) →
      standing others = standing deliveries := by
  intro standing verdict? starts
  have decided : standing deliveries =
      some (standingAfter rules row.toDomain attemptId.text deliveries) :=
    standing_runSerially rules reached rowMem accepted assigned about unrecorded
  refine ⟨decided, fun allAccepted => ?_, fun others aboutOthers freshOthers sameVerdict same => ?_⟩
  · rw [decided, standingAfter_of_accepted allAccepted]
  · have decidedOthers : standing others =
        some (standingAfter rules row.toDomain attemptId.text others) :=
      standing_runSerially rules reached rowMem accepted assigned aboutOthers freshOthers
    rw [decided, decidedOthers, standingAfter, standingAfter, sameVerdict]
    cases isVerdict : deliveries.findSome? verdict? with
    | some outcome => rfl
    | none => rw [same isVerdict]

end Reached

/-- The acceptance gave this attempt to the request of the upload. -/
def acceptedAttempt : Uuid := .repeated 3

/-- The request of the upload as its acceptance leaves it. -/
def acceptedRow : ProcessingRequestRow where
  processingRequestId := .repeated 1
  ownerUserId := js "owner"
  ownerEmail := js "owner@example.com"
  sourceStorageKey := js "uploads/a.mp4"
  status := .queued
  attemptId := some acceptedAttempt
  zipStorageKey := none
  failureCode := none
  idempotencyKey := some (js "key")
  correlationId := none
  createdAt := 1789953000000
  updatedAt := 1789953060000

/-- A run of the upload and its acceptance. -/
theorem acceptedRow_reached : ∃ world : Machine.World (machine (Fin 2) true) Thrown Answer,
    Machine.Reaches (start true uploadAndAcceptance .empty 1) world ∧
      acceptedRow ∈ world.shared.database.requests ∧
      ∀ eventId ∉ [js "e-1", js "e-2"], world.shared.database.events.find? eventId = none := by
  have ran : ((Machine.runActions (start true uploadAndAcceptance .empty 1)
      (List.replicate 8 (.session 0 .proceed) ++ List.replicate 8 (.session 1 .proceed))).map
        fun world => (world.shared.database.requests.rows,
          world.shared.database.events.rows.map ProcessedEvent.eventId)) =
      some ([acceptedRow], [js "e-1", js "e-2"]) := by
    decide +kernel
  rcases Option.map_eq_some_iff.mp ran with ⟨world, ran, read⟩
  rcases Prod.mk.inj read with ⟨rows, events⟩
  refine ⟨world, Machine.reaches_of_runActions ran, ?_, fun eventId notListed => ?_⟩
  · show acceptedRow ∈ world.shared.database.requests.rows
    simp [rows]
  · refine KeyedTable.find?_eq_none_iff.mpr fun event eventMem same => notListed ?_
    exact same ▸ events ▸ List.mem_map_of_mem eventMem

/-- A completion of another attempt, the failure of the accepted one, and its completion. -/
def lateDeliveries : List Operation :=
  [.complete ⟨1789953120000, .repeated 5, .repeated 6, 3000⟩
      ⟨js "e-3", Uuid.text (.repeated 1), Uuid.text (.repeated 9),
        js "zips/a.zip", js "2026-09-21T01:12:00.000Z"⟩,
    .fail ⟨1789953180000, .repeated 5, .repeated 7, 3000⟩
      ⟨js "e-4", .processing, some acceptedAttempt.text, Uuid.text (.repeated 1),
        .string (js "PROCESSAMENTO_FALHOU"), js "2026-09-21T01:13:00.000Z"⟩,
    .complete ⟨1789953240000, .repeated 5, .repeated 8, 3000⟩
      ⟨js "e-5", Uuid.text (.repeated 1), acceptedAttempt.text,
        js "zips/a.zip", js "2026-09-21T01:14:00.000Z"⟩]

theorem deliveries_late : Deliveries (.repeated 1) lateDeliveries where
  named := by simp [lateDeliveries, Operation.named?, Operation.event?,
    CompleteProcessingRequestUseCase.event, FailProcessingRequestUseCase.event]
  identified := by
    simp only [lateDeliveries, List.forall_mem_cons, Operation.eventId]
    decide
  identifies := by
    have different : js "e-3" ≠ js "e-4" ∧ js "e-3" ≠ js "e-5" ∧ js "e-4" ≠ js "e-5" := by decide
    simp [lateDeliveries, Operation.eventId, different, different.1.symm, different.2.1.symm,
      different.2.2.symm, Operation.Redelivers.complete, Operation.Redelivers.fail]

theorem lateDeliveries_unlisted : ∀ delivery ∈ lateDeliveries,
    delivery.eventId ∉ [js "e-1", js "e-2"] := by
  simp only [lateDeliveries, List.forall_mem_cons, Operation.eventId]
  decide

theorem first_verdict_decides_failure : ∃ database : Database,
    database.standing (.repeated 1) =
      some (.decided acceptedAttempt.text
        (.failed .processamentoFalhou (js "2026-09-21T01:13:00.000Z"))) := by
  rcases acceptedRow_reached with ⟨world, reached, rowMem, events⟩
  have decided := (first_verdict_decides .lenient uploadAndAcceptance reached rowMem rfl rfl
    deliveries_late fun delivery deliveryMem =>
      events _ (lateDeliveries_unlisted delivery deliveryMem)).1
  refine ⟨_, decided.trans (congrArg some ?_)⟩
  decide +kernel

/-- The rules that refuse a NUL, as text and in a JSON document. -/
def TextRules.withoutNul : TextRules :=
  ⟨fun text => !text.contains 0, fun text => !text.contains 0, fun _ => true⟩

/-- A completion of the accepted attempt whose zip key has a NUL, and a failure of it. -/
def completionWithNul : List Operation :=
  [.complete ⟨1789953120000, .repeated 5, .repeated 6, 3000⟩
      ⟨js "e-3", Uuid.text (.repeated 1), acceptedAttempt.text,
        js "zips/a" ++ [0], js "2026-09-21T01:12:00.000Z"⟩,
    .fail ⟨1789953180000, .repeated 5, .repeated 7, 3000⟩
      ⟨js "e-4", .processing, some acceptedAttempt.text, Uuid.text (.repeated 1),
        .string (js "PROCESSAMENTO_FALHOU"), js "2026-09-21T01:13:00.000Z"⟩]

theorem deliveries_completionWithNul : Deliveries (.repeated 1) completionWithNul where
  named := by simp [completionWithNul, Operation.named?, Operation.event?,
    CompleteProcessingRequestUseCase.event, FailProcessingRequestUseCase.event]
  identified := by
    simp only [completionWithNul, List.forall_mem_cons, Operation.eventId]
    decide
  identifies := by
    have different : js "e-3" ≠ js "e-4" := by decide
    simp [completionWithNul, Operation.eventId, different, different.symm,
      Operation.Redelivers.complete, Operation.Redelivers.fail]

/-- The completion is the first verdict, and yet the failure decides. -/
theorem completion_with_nul_is_refused :
    ∃ world : Machine.World (machine (Fin 2) true) Thrown Answer,
      Machine.Reaches (start true uploadAndAcceptance .empty 1) world ∧
      acceptedRow ∈ world.shared.database.requests ∧
      Deliveries (.repeated 1) completionWithNul ∧
      (∀ delivery ∈ completionWithNul,
        world.shared.database.events.find? delivery.eventId = none) ∧
      (runSerially .withoutNul id completionWithNul (storeOf world.shared)).2.database.standing
          (.repeated 1) =
        some (.decided acceptedAttempt.text
          (.failed .processamentoFalhou (js "2026-09-21T01:13:00.000Z"))) ∧
      Standing.after acceptedAttempt.text completionWithNul =
        .decided acceptedAttempt.text
          (.completed (js "zips/a" ++ [0]) (js "2026-09-21T01:12:00.000Z")) := by
  rcases acceptedRow_reached with ⟨world, reached, rowMem, events⟩
  have unrecorded : ∀ delivery ∈ completionWithNul,
      world.shared.database.events.find? delivery.eventId = none := by
    intro delivery deliveryMem
    refine events _ ?_
    revert delivery
    simp only [completionWithNul, List.forall_mem_cons, Operation.eventId]
    decide
  have decided := standing_runSerially .withoutNul reached rowMem rfl rfl
    deliveries_completionWithNul unrecorded
  refine ⟨world, reached, rowMem, deliveries_completionWithNul, unrecorded, ?_, ?_⟩
  · refine decided.trans (congrArg some ?_)
    decide +kernel
  · decide +kernel

end Postgres

end ProcessingCatalog
