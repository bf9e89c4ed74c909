import ProcessingCatalog.Library.Deduplicated
import ProcessingCatalog.Messaging.MessageTexts
import ProcessingCatalog.Messaging.Recovery
import ProcessingCatalog.Store.Announced

/-!
# The consumers of the published events

The relay publishes at least once, so the broker may receive a row any number of
times. The consumers downstream recognise a repeat by its `eventId`. A consumer
that takes the texts of its queues one at a time, in the order in which the
broker has received them, handles the events of each request that the Catalog
has committed, each once, in the order of their commits and without a gap,
whatever runs, fails or is published again.
-/

namespace ProcessingCatalog

open Effect

namespace Relay

variable {κ : Type}

namespace Shared

/-- The earlier rows of the request that a delivery is about. -/
def Precedes (shared : Shared κ) (delivery : Delivery) (origin : ℕ) : Prop :=
  ∃ row ∈ shared.announced, row.id = origin ∧ origin < delivery.origin ∧
    row.payload.processingRequestId = delivery.message.data.processingRequestId

/-- A delivery is received after the earlier rows of its request. -/
def ArrivedInTurn (shared : Shared κ) : Prop :=
  InTurn Delivery.origin shared.Precedes shared.received

/-- A step after which the broker has received no more than before, or a message in flight. -/
structure Advances (shared shared' : Shared κ) : Prop where
  rows : shared.Extends shared'
  received : shared'.received = shared.received ∨
    ∃ delivery ∈ shared.inFlight, shared'.received = shared.received ++ [delivery]

variable {shared shared' : Shared κ}

/-- The row of a delivery that was sent, whose turn had come. -/
theorem row_of_warranted {delivery : Delivery}
    (warranted : shared.Warranted delivery.origin delivery.queue delivery.message) :
    ∃ row ∈ shared.outbox, row.id = delivery.origin ∧
      row.request = delivery.message.data.processingRequestId ∧ shared.Cleared row := by
  rcases warranted with ⟨row, rowMem, selected, cleared⟩
  exact ⟨row, rowMem, congrArg PendingOutboxRow.id selected,
    congrArg (fun selected => selected.payload.processingRequestId) selected, cleared⟩

/-- What is received next is received in turn: a row is only sent when the earlier rows of its
request are confirmed, and no row is committed below one that was sent. -/
theorem ArrivedInTurn.step (inTurn : shared.ArrivedInTurn) (invariant : shared.Invariant)
    (advances : shared.Advances shared') : shared'.ArrivedInTurn := by
  -- what precedes a delivery that was sent is received by then
  have turn : ∀ delivery, delivery ∈ shared.inFlight ∨ delivery ∈ shared.received →
      ∀ origin, shared'.Precedes delivery origin →
        shared.Precedes delivery origin ∧ origin ∈ shared.received.map Delivery.origin := by
    rintro delivery sent origin ⟨selected, selectedMem, rfl, below, about⟩
    rcases row_of_warranted (invariant.warranted delivery sent) with
      ⟨row, rowMem, isRow, request, cleared⟩
    rcases List.mem_map.mp selectedMem with ⟨other', other'Mem, rfl⟩
    have same : other'.request = row.request := about.trans request.symm
    have below : other'.id < row.id := below.trans_eq isRow.symm
    rcases advances.rows.earlier rowMem other'Mem same below with
      ⟨other, otherMem, sameId, sameEntry⟩
    rw [OutboxRow.request_congr sameEntry] at same
    rw [sameId] at below
    constructor
    · exact ⟨.ofRow other, List.mem_map_of_mem otherMem, sameId.symm, sameId.trans_lt
        (below.trans_eq isRow), same.trans request⟩
    · rcases cleared other otherMem same below with ⟨confirmed, confirmedMem, ofOther⟩
      refine List.mem_map.mpr ⟨confirmed, invariant.confirmed confirmed confirmedMem, ?_⟩
      exact ofOther.trans sameId.symm
  unfold ArrivedInTurn
  have before : InTurn Delivery.origin shared'.Precedes shared.received :=
    inTurn.mono fun delivery deliveryMem origin needed =>
      (turn delivery (.inr deliveryMem) origin needed).1
  rcases advances.received with none | ⟨delivery, sent, one⟩
  · rw [none]
    exact before
  · rw [one]
    exact before.snoc fun origin needed => (turn delivery (.inl sent) origin needed).2

section Steps

variable [DecidableEq κ]

theorem received_execute {index : κ} (now : Date) (statement : Statement) :
    (shared.execute now index statement).2.received = shared.received := by
  cases statement with
  | rollbackTransaction => rfl
  | tryAdvisoryXactLock key =>
      simp only [execute]
      split
      · split <;> rfl
      · rfl
  | _ =>
      simp only [execute]
      split <;> rfl

/-- No call of a drain reaches the broker at once. -/
theorem received_answer {choice : Choice} {index : κ} {call : Call} {reply : signature.Reply call}
    (answered : shared.answer choice index call = some (reply, shared')) :
    shared'.received = shared.received := by
  cases call with
  | statement statement =>
      cases choice with
      | proceed now =>
          have executed : (shared.execute now index statement).2 = shared' :=
            congrArg Prod.snd (Option.some.inj answered)
          rw [← executed]
          exact received_execute now statement
      | fail error =>
          cases answered
          unfold fail
          split <;> rfl
      | reject error => cases answered
  | publish origin queue message =>
      cases answered
      rfl
  | awaitConfirm delivery =>
      cases choice with
      | proceed now =>
          simp only [answer, Option.ite_none_right_eq_some] at answered
          rcases answered with ⟨_, ⟨⟩⟩
          rfl
      | fail error => cases answered
      | reject error =>
          cases answered
          rfl
  | recordOutboxPublishFailure =>
      cases answered
      rfl

theorem received_environment {event : Event κ}
    (happened : shared.environment event = some shared') :
    shared'.received = shared.received ∨
      ∃ delivery ∈ shared.inFlight, shared'.received = shared.received ++ [delivery] := by
  cases event with
  | arrive delivery =>
      rw [environment, Option.ite_none_right_eq_some] at happened
      rcases happened with ⟨sent, ⟨⟩⟩
      exact .inr ⟨delivery, sent, rfl⟩
  | insert entry =>
      rw [environment, Option.ite_none_right_eq_some] at happened
      rcases happened with ⟨_, ⟨⟩⟩
      exact .inl rfl
  | commit row =>
      rw [environment, Option.ite_none_right_eq_some] at happened
      rcases happened with ⟨_, ⟨⟩⟩
      exact .inl rfl
  | rollback row =>
      cases happened
      exact .inl rfl
  | lose delivery =>
      cases happened
      exact .inl rfl
  | abort index =>
      rw [environment] at happened
      split at happened
      · cases happened
      · cases happened
        exact .inl rfl

/-- A step of a drain, or beside the drains. -/
theorem advances_of_step {post : κ → Except Failure ℕ → Unit → Shared κ → Prop}
    {world next : Machine.World (machine κ) Failure ℕ}
    (holds : (discipline κ).Holds post world) (stepped : Machine.Step world next) :
    world.shared.Advances next.shared := by
  refine holds.shared_of_step ?_ ?_ stepped
  · intro choice index shared locals call reply shared' own invariant answered entitled
    have answer := answer_of_machine answered
    exact ⟨(invariant.answer entitled answer).2, .inl (received_answer answer)⟩
  · intro event shared locals shared' invariant happened
    exact ⟨(invariant.environment happened).2, received_environment happened⟩

end Steps

end Shared

end Relay

namespace System

variable {ι κ : Type} [Fintype ι] [DecidableEq ι] [DecidableEq κ] {system next : System ι κ}
  {operations : ι → Operation} {nextOutboxId : ℕ} {batchSize : κ → ℕ}

/-- In every run of the system, the broker receives the rows of each request in turn. -/
theorem arrivedInTurn_reached
    (reached : (start operations nextOutboxId batchSize).Reaches system) :
    system.relay.shared.ArrivedInTurn := by
  induction reached with
  | refl => exact .nil
  | @tail middle next before stepped ih =>
      have coupled := coupled_reached before
      rcases stepped with ⟨action, taken⟩
      rcases step_cases taken with ⟨own, store, moved, rfl⟩ | ⟨own, relay, moved, others, rfl⟩
      · exact ih.step coupled.relay.1 ⟨coupled.appended moved, .inl rfl⟩
      · exact ih.step coupled.relay.1 (Relay.Shared.advances_of_step coupled.relay ⟨own, moved⟩)

/-! ## What the consumers handle -/

/-- A row of the store that is published, as the drains see it. -/
theorem Coupled.publishes (coupled : system.Coupled operations nextOutboxId)
    {delivery : Relay.Delivery} (received : delivery ∈ system.relay.shared.received) :
    ∃ row ∈ system.store.shared.database.outbox, Relay.Publishes row delivery := by
  rcases coupled.relay.1.warranted delivery (.inr received) with ⟨own, ownMem, selected, _⟩
  have announced : Relay.PendingOutboxRow.ofRow own ∈ system.relay.shared.announced :=
    List.mem_map_of_mem ownMem
  rw [coupled.announced] at announced
  rcases List.mem_map.mp announced with ⟨row, rowMem, same⟩
  rw [selected] at same
  refine ⟨row, rowMem, (congrArg Relay.PendingOutboxRow.id same).symm,
    (congrArg Relay.PendingOutboxRow.queue same).symm, ?_⟩
  have pattern := congrArg Relay.PendingOutboxRow.pattern same
  have payload := congrArg Relay.PendingOutboxRow.payload same
  cases message : delivery.message
  simp only [message] at pattern payload
  subst pattern payload
  rfl

/-- No two committed rows have one event id, if no two calls announce under one. -/
theorem eventId_injective
    (reached : (start operations nextOutboxId batchSize).Reaches system)
    (distinct : Function.Injective fun index => (operations index).announcedId)
    {row other : OutboxRow} (rowMem : row ∈ system.store.shared.database.outbox)
    (otherMem : other ∈ system.store.shared.database.outbox)
    (same : row.entry.payload.eventId = other.entry.payload.eventId) : row = other := by
  have invariant :=
    Postgres.invariant_reached Postgres.numbered_empty (coupled_reached reached).store
  rcases invariant.represents with ⟨ledger, history, represents⟩
  have once : ledger.announcedIds.Nodup := by
    refine history.announcedIds.nodup ?_
    have calls := invariant.once.map distinct
    rw [List.map_map] at calls
    exact calls
  have rows : (system.store.shared.database.outbox.rows.map
      fun row => row.entry.payload.eventId).Nodup := by
    have same := represents.outbox.map fun entry => entry.payload.eventId
    rw [List.map_map] at same
    exact same.nodup_iff.mpr once
  exact List.inj_on_of_nodup_map rows rowMem otherMem same

section Consumers

variable {listens : JsString → Bool} {request : JsString}

/-- The rows of a request that go to some queues, in the order of their commits. -/
def rowsFor (listens : JsString → Bool) (request : JsString) (system : System ι κ) :
    List OutboxRow :=
  system.store.shared.database.outbox.rows.filter fun row =>
    row.entry.payload.processingRequestId = request && listens row.entry.route.queue

/-- Whether a delivery is of such a row. -/
def wanted (listens : JsString → Bool) (request : JsString) (delivery : Relay.Delivery) : Bool :=
  delivery.message.data.processingRequestId = request && listens delivery.queue

theorem wanted_iff {row : OutboxRow} {delivery : Relay.Delivery}
    (publishes : Relay.Publishes row delivery)
    (rowMem : row ∈ system.store.shared.database.outbox) :
    wanted listens request delivery = true ↔ row ∈ system.rowsFor listens request := by
  rcases publishes with ⟨_, queue, message⟩
  rw [wanted, rowsFor, List.mem_filter, queue, message]
  exact (and_iff_right rowMem).symm

theorem sorted_rowsFor (listens : JsString → Bool) (request : JsString) (system : System ι κ) :
    (system.rowsFor listens request).Pairwise fun left right => left.id < right.id :=
  system.store.shared.database.outbox.sorted.filter _

/-- Of the rows of a request, those first committed are received first, one after the other. -/
theorem received_in_order (listens : JsString → Bool) (request : JsString)
    (reached : (start operations nextOutboxId batchSize).Reaches system) :
    (handledOf Relay.Delivery.origin
        (system.relay.shared.received.filter (wanted listens request))).map
          Relay.Delivery.origin <+:
      (system.rowsFor listens request).map OutboxRow.id := by
  have coupled := coupled_reached reached
  have inTurn := arrivedInTurn_reached reached
  have sorted := system.sorted_rowsFor listens request
  have distinct : ((system.rowsFor listens request).map OutboxRow.id).Nodup :=
    List.pairwise_map.mpr (sorted.imp Nat.ne_of_lt)
  -- a wanted row needs the wanted rows before it
  have among : InTurn Relay.Delivery.origin
      (fun delivery origin => system.relay.shared.Precedes delivery origin ∧
        origin ∈ (system.rowsFor listens request).map OutboxRow.id)
      (system.relay.shared.received.filter (wanted listens request)) := by
    refine (inTurn.mono fun _ _ _ needed => needed.1).filter ?_
    rintro delivery other ⟨_, named⟩ otherMem
    rcases List.mem_map.mp named with ⟨row, isRow, sameId⟩
    rcases coupled.publishes otherMem with ⟨own, ownMem, publishes⟩
    have rowMem : row ∈ system.store.shared.database.outbox := (List.mem_filter.mp isRow).1
    have same : own = row :=
      SortedTable.eq_of_key_eq ownMem rowMem (publishes.1.symm.trans sameId.symm)
    exact (wanted_iff publishes ownMem).mpr (same ▸ isRow)
  refine among.handledOf_first distinct ?_ ?_
  · intro delivery isWanted
    rcases List.mem_filter.mp isWanted with ⟨received, isWanted⟩
    rcases coupled.publishes received with ⟨row, rowMem, publishes⟩
    rw [publishes.1]
    exact List.mem_map_of_mem ((wanted_iff publishes rowMem).mp isWanted)
  · intro delivery isWanted before after split name nameMem
    have named : name ∈ (system.rowsFor listens request).map OutboxRow.id := by
      rw [split]
      exact List.mem_append_left _ nameMem
    refine ⟨?_, named⟩
    rcases List.mem_map.mp named with ⟨row, isRow, rfl⟩
    rcases List.mem_filter.mp isRow with ⟨rowMem, wantedRow⟩
    have below : row.id < delivery.origin := by
      have ascending := List.pairwise_map.mpr sorted
      rw [split] at ascending
      exact (List.pairwise_append.mp ascending).2.2 row.id nameMem _ List.mem_cons_self
    refine ⟨.ofRow row, ?_, rfl, below, ?_⟩
    · rw [coupled.announced]
      exact List.mem_map_of_mem rowMem
    · have aboutRow := (Bool.and_eq_true _ _).mp wantedRow
      have about := (Bool.and_eq_true _ _).mp (List.mem_filter.mp isWanted).2
      exact (of_decide_eq_true aboutRow.1).trans (of_decide_eq_true about.1).symm

/-- The message of a row. -/
def messageOf (row : OutboxRow) : Relay.Message :=
  ⟨row.entry.route.pattern, row.entry.payload⟩

/-- The messages of wanted rows that a consumer handles, when it knows rows apart. -/
theorem handled_in_order (listens : JsString → Bool) (request : JsString)
    (reached : (start operations nextOutboxId batchSize).Reaches system) :
    (handledOf Relay.Delivery.origin
        (system.relay.shared.received.filter (wanted listens request))).map
          Relay.Delivery.message <+:
      (system.rowsFor listens request).map messageOf := by
  refine first_map_of_agree (received_in_order listens request reached) ?_
  intro delivery handled row isRow sameId
  have received := (List.mem_filter.mp (mem_of_mem_handledOf handled)).1
  rcases (coupled_reached reached).publishes received with ⟨own, ownMem, publishes⟩
  have same : own = row := SortedTable.eq_of_key_eq ownMem (List.mem_filter.mp isRow).1
    (publishes.1.symm.trans sameId)
  rw [publishes.2.2, same]
  rfl

/-- A consumer that knows rows by their event ids handles the same messages. -/
theorem handledOf_eventId (reached : (start operations nextOutboxId batchSize).Reaches system)
    (distinct : Function.Injective fun index => (operations index).announcedId)
    (deliveries : List Relay.Delivery)
    (received : ∀ delivery ∈ deliveries, delivery ∈ system.relay.shared.received) :
    handledOf (fun delivery => some delivery.message.data.eventId) deliveries =
      handledOf Relay.Delivery.origin deliveries := by
  have coupled := coupled_reached reached
  apply handledOf_congr
  intro delivery deliveryMem other otherMem
  rcases coupled.publishes (received delivery deliveryMem) with ⟨row, rowMem, publishes⟩
  rcases coupled.publishes (received other otherMem) with ⟨row', row'Mem, publishes'⟩
  rw [publishes.1, publishes'.1, publishes.2.2, publishes'.2.2]
  constructor
  · intro same
    exact congrArg OutboxRow.id
      (eventId_injective reached distinct rowMem row'Mem (Option.some.inj same))
  · intro same
    rw [SortedTable.eq_of_key_eq rowMem row'Mem same]

/-- The messages that a consumer of some queues handles, when it takes the texts in the order the
broker has received them across these queues, and skips those whose `eventId` it has handled. -/
def handledBy (stored : OutboxPayload → List (JsString × Json)) (listens : JsString → Bool)
    (system : System ι κ) : List Relay.Message :=
  (handledOf Relay.eventIdIn ((system.relay.shared.received.filter fun delivery =>
    listens delivery.queue).map fun delivery => delivery.message.written stored)).filterMap
      Relay.Message.read

theorem handledBy_eq (reached : (start operations nextOutboxId batchSize).Reaches system)
    (distinct : Function.Injective fun index => (operations index).announcedId)
    {stored : OutboxPayload → List (JsString × Json)}
    (anyOrder : ∀ payload, (stored payload).Perm payload.members) :
    system.handledBy stored listens =
      (handledOf Relay.Delivery.origin (system.relay.shared.received.filter fun delivery =>
        listens delivery.queue)).map Relay.Delivery.message := by
  have read : ∀ message : Relay.Message,
      Relay.Message.read (message.written stored) = some message :=
    Relay.read_written anyOrder
  have key : (Relay.eventIdIn ∘ fun delivery : Relay.Delivery => delivery.message.written stored) =
      fun delivery => some delivery.message.data.eventId := by
    funext delivery
    simp [Relay.eventIdIn, read]
  rw [handledBy, handledOf_map, key, handledOf_eventId reached distinct _
    fun delivery isWanted => (List.mem_filter.mp isWanted).1, List.filterMap_map]
  have own : (Relay.Message.read ∘ fun delivery : Relay.Delivery =>
      delivery.message.written stored) = some ∘ Relay.Delivery.message := by
    funext delivery
    exact read delivery.message
  rw [own, List.filterMap_eq_map]

theorem filter_handledBy (reached : (start operations nextOutboxId batchSize).Reaches system)
    (distinct : Function.Injective fun index => (operations index).announcedId)
    {stored : OutboxPayload → List (JsString × Json)}
    (anyOrder : ∀ payload, (stored payload).Perm payload.members) :
    (system.handledBy stored listens).filter
        (fun message => message.data.processingRequestId = request) =
      (handledOf Relay.Delivery.origin
        (system.relay.shared.received.filter (wanted listens request))).map
          Relay.Delivery.message := by
  have coupled := coupled_reached reached
  have about : (handledOf Relay.Delivery.origin (system.relay.shared.received.filter fun delivery =>
      listens delivery.queue)).filter
        (fun delivery => delivery.message.data.processingRequestId = request) =
      handledOf Relay.Delivery.origin
        (system.relay.shared.received.filter (wanted listens request)) := by
    rw [← handledOf_filter, List.filter_filter]
    · rfl
    · intro delivery isWanted other otherWanted sameId
      rcases coupled.publishes (List.mem_filter.mp isWanted).1 with ⟨row, rowMem, publishes⟩
      rcases coupled.publishes (List.mem_filter.mp otherWanted).1 with
        ⟨row', row'Mem, publishes'⟩
      have same : row = row' := SortedTable.eq_of_key_eq rowMem row'Mem
        (publishes.1.symm.trans (sameId.trans publishes'.1))
      rw [publishes.2.2, publishes'.2.2, same]
  rw [handledBy_eq reached distinct anyOrder, List.filter_map, ← about]
  rfl

/-- Whatever runs, fails or is published again, a consumer that skips the event ids it knows has
handled, of the events about a request that go to its queues, the first that were committed: each
once and in the order of their commits. Where all rows are delivered, it has handled them all. -/
theorem events_handled_once (reached : (start operations nextOutboxId batchSize).Reaches system)
    (distinct : Function.Injective fun index => (operations index).announcedId)
    {stored : OutboxPayload → List (JsString × Json)}
    (anyOrder : ∀ payload, (stored payload).Perm payload.members) (listens : JsString → Bool)
    (request : JsString) :
    (system.handledBy stored listens).filter
        (fun message => message.data.processingRequestId = request) <+:
      (system.rowsFor listens request).map messageOf ∧
    ((∀ row ∈ system.store.shared.database.outbox, system.Delivered row) →
      (system.handledBy stored listens).filter
          (fun message => message.data.processingRequestId = request) =
        (system.rowsFor listens request).map messageOf) := by
  rw [filter_handledBy reached distinct anyOrder]
  have first := handled_in_order listens request reached
  refine ⟨first, fun delivered => first.eq_of_length_le ?_⟩
  -- every row has been received, so its identifier is among those that are handled
  have every : (system.rowsFor listens request).map OutboxRow.id ⊆
      (handledOf Relay.Delivery.origin
        (system.relay.shared.received.filter (wanted listens request))).map
          Relay.Delivery.origin := by
    intro id isId
    rcases List.mem_map.mp isId with ⟨row, isRow, rfl⟩
    have rowMem := (List.mem_filter.mp isRow).1
    rcases (delivered row rowMem).received with ⟨delivery, received, publishes⟩
    rw [mem_map_handledOf, ← publishes.1]
    exact List.mem_map_of_mem (List.mem_filter.mpr
      ⟨received, (wanted_iff publishes rowMem).mpr isRow⟩)
  have different : ((system.rowsFor listens request).map OutboxRow.id).Nodup :=
    List.pairwise_map.mpr ((system.sorted_rowsFor listens request).imp Nat.ne_of_lt)
  simpa using (different.subperm every).length_le

end Consumers

/-- An upload and its acceptance. -/
def uploadAndAcceptance : Bool → Operation
  | false => singleUpload ()
  | true => .accept ⟨1789953060000, .repeated 3, .repeated 4, 3000⟩
      ⟨js "e-2", js "11111111-1111-1111-1111-111111111111", js "2026-09-21T01:11:00.000Z"⟩

/-- A publish of the event of the upload. -/
def uploadDelivery (tag : ℕ) : Relay.Delivery where
  tag := tag
  origin := 1
  queue := js "video-validation"
  message := {
    pattern := js "VideoValidationRequested"
    data := {
      eventId := js "e-1", processingRequestId := js "11111111-1111-1111-1111-111111111111"
      ownerUserId := js "owner", ownerEmail := none, sourceStorageKey := some (js "uploads/a.mp4")
      status := none, zipStorageKey := none, failureReason := none, attemptId := none
      occurredAt := js "2026-09-21T01:10:00.000Z", correlationId := none } }

/-- The publish of the event of the acceptance. -/
def acceptanceDelivery : Relay.Delivery where
  tag := 3
  origin := 2
  queue := js "processing"
  message := {
    pattern := js "ProcessingQueued"
    data := {
      eventId := js "44444444-4444-4444-4444-444444444444"
      processingRequestId := js "11111111-1111-1111-1111-111111111111"
      ownerUserId := js "owner", ownerEmail := none, sourceStorageKey := some (js "uploads/a.mp4")
      status := none, zipStorageKey := none, failureReason := none
      attemptId := some (js "33333333-3333-3333-3333-333333333333")
      occurredAt := js "2026-09-21T01:11:00.000Z", correlationId := none } }

/-- The broker has the message of the upload when it is accepted, but the first drain is told of no
confirm; the second one publishes that row again, and then the row of the acceptance. -/
def republished : List (Action Bool Bool) :=
  List.replicate 8 (.useCase false .proceed) ++ List.replicate 4 (.drain false (.proceed 7)) ++
    [.arrive (uploadDelivery 1)] ++ List.replicate 8 (.useCase true .proceed) ++
    [.drain false (.reject .timeout)] ++ List.replicate 2 (.drain false (.proceed 8)) ++
    List.replicate 4 (.drain true (.proceed 9)) ++ [.arrive (uploadDelivery 2)] ++
    List.replicate 3 (.drain true (.proceed 9)) ++ [.arrive acceptanceDelivery] ++
    List.replicate 3 (.drain true (.proceed 10))

theorem events_handled_once_republished : ∃ system : System Bool Bool,
    system.relay.shared.received = [uploadDelivery 1, uploadDelivery 2, acceptanceDelivery] ∧
    (system.handledBy OutboxPayload.members fun _ => true).filter (fun message =>
      message.data.processingRequestId = js "11111111-1111-1111-1111-111111111111") =
        [(uploadDelivery 1).message, acceptanceDelivery.message] := by
  have ran : ((start uploadAndAcceptance 1 fun _ => 2).runActions republished).map
      (fun system => decide (
        system.relay.shared.received =
          [uploadDelivery 1, uploadDelivery 2, acceptanceDelivery] ∧
        (system.rowsFor (fun _ => true) (js "11111111-1111-1111-1111-111111111111")).map
          messageOf = [(uploadDelivery 1).message, acceptanceDelivery.message] ∧
        system.relay.shared.pending [] = [])) = some true := by
    decide +kernel
  rcases Option.map_eq_some_iff.mp ran with ⟨system, ran, observed⟩
  rcases of_decide_eq_true observed with ⟨received, rows, nothing⟩
  have reached := reaches_of_runActions ran
  have handled := events_handled_once reached (by decide)
    (fun payload => List.Perm.refl payload.members) (fun _ => true)
    (js "11111111-1111-1111-1111-111111111111")
  rw [rows] at handled
  exact ⟨system, received, handled.2 fun row rowMem =>
    delivered_of_nothing_pending (coupled_reached reached) nothing rowMem⟩

end System

end ProcessingCatalog
