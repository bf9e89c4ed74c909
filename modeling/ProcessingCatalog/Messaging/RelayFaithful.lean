import ProcessingCatalog.Messaging.RelayVerified

/-!
# The relay loses nothing, invents nothing and keeps each request's order
-/

namespace ProcessingCatalog

open Effect

namespace Relay

namespace Shared

variable {ι : Type}

/-- The committed rows of one request, in the order of their identifiers. -/
def rowsOf (shared : Shared ι) (request : JsString) : List OutboxRow :=
  shared.outbox.rows.filter fun row => row.request = request

/-- Whether the broker has received a message of a row at least once. -/
def hasReceived (shared : Shared ι) (row : OutboxRow) : Bool :=
  shared.received.any fun delivery => delivery.origin = row.id

/-- What the relay owes, in the state `shared`, to what was committed in the state `past`. -/
structure Faithful (past shared : Shared ι) : Prop where
  /-- A row marked as published was confirmed, and so received. -/
  published : ∀ row ∈ shared.outbox, row.publishedAt ≠ none →
    ∃ delivery ∈ shared.confirmed, delivery.origin = row.id ∧ delivery ∈ shared.received
  /-- The broker receives committed rows only, each as `{ pattern, data: payload }` in its queue. -/
  received : ∀ delivery ∈ shared.received, ∃ row ∈ shared.outbox, delivery.origin = row.id ∧
    delivery.queue = row.entry.route.queue ∧
    delivery.message = ⟨row.entry.route.pattern, row.entry.payload⟩
  /-- A row once committed is there still; unless it is marked, a drain selects it whose batch is
  as large as the pending rows up to it. -/
  pending : ∀ row ∈ past.outbox, ∃ row' ∈ shared.outbox, row'.id = row.id ∧
    row'.entry = row.entry ∧ (row'.publishedAt = none → ∀ limit,
      (shared.pending []).countP (fun other => other.id ≤ row'.id) ≤ limit →
        PendingOutboxRow.ofRow row' ∈ ((shared.pending []).take limit).map PendingOutboxRow.ofRow)
  /-- The rows of a request that the broker has received are the first of its rows. -/
  inOrder : ∀ request,
    (shared.rowsOf request).filter shared.hasReceived <+: shared.rowsOf request

variable {past shared : Shared ι}

/-- Before a received row of a request, every row of the request is received. -/
theorem Invariant.received_before (invariant : shared.Invariant) {row other : OutboxRow}
    (rowMem : row ∈ shared.outbox) (otherMem : other ∈ shared.outbox)
    (same : other.request = row.request) (below : other.id < row.id)
    (received : shared.hasReceived row = true) : shared.hasReceived other = true := by
  rcases List.any_eq_true.mp received with ⟨delivery, arrived, ofRow⟩
  have ofRow : delivery.origin = row.id := by simpa using ofRow
  rcases invariant.warranted delivery (.inr arrived) with ⟨stored, storedMem, selected, cleared⟩
  have sameId : stored.id = row.id := (congrArg PendingOutboxRow.id selected).trans ofRow
  obtain rfl : stored = row := SortedTable.eq_of_key_eq storedMem rowMem sameId
  rcases cleared other otherMem same below with ⟨confirmed, confirmedMem, ofOther⟩
  exact List.any_eq_true.mpr
    ⟨confirmed, invariant.confirmed confirmed confirmedMem, by simpa using ofOther⟩

/-- The invariant of a later state is all the relay owes. -/
theorem Invariant.faithful (invariant : shared.Invariant) (later : past.Extends shared) :
    Faithful past shared := by
  constructor
  · intro row rowMem marked
    rcases invariant.published row rowMem marked with ⟨delivery, deliveryMem, ofRow⟩
    exact ⟨delivery, deliveryMem, ofRow, invariant.confirmed delivery deliveryMem⟩
  · intro delivery arrived
    rcases invariant.warranted delivery (.inr arrived) with ⟨row, rowMem, selected, _⟩
    have queue := congrArg PendingOutboxRow.queue selected
    have pattern := congrArg PendingOutboxRow.pattern selected
    have payload := congrArg PendingOutboxRow.payload selected
    refine ⟨row, rowMem, (congrArg PendingOutboxRow.id selected).symm, queue.symm, ?_⟩
    rcases delivery with ⟨tag, origin, queue, ⟨pattern, data⟩⟩
    simp_all [PendingOutboxRow.ofRow]
  · intro row rowMem
    rcases later.kept row rowMem with ⟨row', row'Mem, sameId, sameEntry⟩
    refine ⟨row', row'Mem, sameId, sameEntry, fun unmarked limit enough => ?_⟩
    have sorted : (shared.pending []).Pairwise fun left right => left.id < right.id :=
      shared.outbox.sorted.filter _
    have selectable : row' ∈ shared.pending [] := List.mem_filter.mpr ⟨row'Mem, by simp [unmarked]⟩
    exact List.mem_map_of_mem (SortedTable.mem_take_of_countP_le sorted selectable enough)
  · intro request
    apply SortedTable.filter_initial
    refine (shared.outbox.sorted.filter _).imp_of_mem ?_
    intro row other rowMem otherMem below received
    rcases List.mem_filter.mp rowMem with ⟨rowMem, ofRequest⟩
    rcases List.mem_filter.mp otherMem with ⟨otherMem, ofRequest'⟩
    have same : row.request = other.request := by
      rw [of_decide_eq_true ofRequest, of_decide_eq_true ofRequest']
    exact invariant.received_before otherMem rowMem same below received

end Shared

variable {ι : Type} [DecidableEq ι]

/-- Any number of drains of any batch sizes, over an outbox that writers go on filling, whatever
becomes of their publishes and of their transactions: in every state they reach, the relay owes
nothing to any state before it. -/
theorem relay_faithful (batchSize : ι → ℕ) {past world : Machine.World (machine ι) Failure ℕ}
    (reached : Machine.Reaches (start batchSize) past) (later : Machine.Reaches past world) :
    Shared.Faithful past.shared world.shared :=
  (invariant_reached (reached.trans later)).faithful (extends_reached reached later)

/-- An event of the request `request`. -/
def announcement (request : JsString) : OutboxEntry where
  route := .videoValidationRequested
  payload := {
    eventId := js "e", processingRequestId := request, ownerUserId := js "owner"
    ownerEmail := none, sourceStorageKey := none, status := none, zipStorageKey := none
    failureReason := none, attemptId := none, occurredAt := js "2026-09-21T01:11:00.000Z"
    correlationId := none }

/-- The second row is committed and published first; the first row's confirm is then lost, and the
drain that sent it leaves it pending. -/
def outOfOrderCommits : List (Machine.Action (machine (Fin 2))) :=
  [.environment (.insert (announcement (js "a"))), .environment (.insert (announcement (js "b"))),
    .environment (.commit ⟨2, announcement (js "b"), none⟩)] ++
  List.replicate 4 (.session 0 (.proceed 7)) ++
  [.environment (.arrive ⟨1, 2, js "video-validation",
      ⟨js "VideoValidationRequested", (announcement (js "b")).payload⟩⟩),
    .environment (.commit ⟨1, announcement (js "a"), none⟩)] ++
  List.replicate 3 (.session 0 (.proceed 7)) ++ List.replicate 4 (.session 1 (.proceed 8)) ++
  [.environment (.arrive ⟨2, 1, js "video-validation",
      ⟨js "VideoValidationRequested", (announcement (js "a")).payload⟩⟩),
    .session 1 (.reject .timeout)] ++
  List.replicate 2 (.session 1 (.proceed 8))

theorem relay_faithful_outOfOrderCommits :
    ∃ shared : Shared (Fin 2), shared.received.map Delivery.origin = [2, 1] ∧
      shared.outbox.rows.map OutboxRow.publishedAt = [none, some 7] ∧
      Shared.Faithful shared shared := by
  have ran : ((Machine.runActions (start fun _ => 50) outOfOrderCommits).map fun world =>
      (world.shared.received.map Delivery.origin,
        world.shared.outbox.rows.map OutboxRow.publishedAt)) = some ([2, 1], [none, some 7]) := by
    decide +kernel
  rcases Option.map_eq_some_iff.mp ran with ⟨world, reached, observed⟩
  rcases Prod.mk.inj observed with ⟨origins, marks⟩
  exact ⟨world.shared, origins, marks,
    relay_faithful (fun _ => 50) (Machine.reaches_of_runActions reached) .refl⟩

end Relay

end ProcessingCatalog
