import ProcessingCatalog.Application.Browsing
import ProcessingCatalog.Persistence.TruthfulReads

/-!
# Browsing over PostgreSQL

The requests an owner lists are the committed ones. A step of the service leaves
every committed request in place with its identity, and adds one to an owner's
only by a create of this owner.
-/

namespace ProcessingCatalog

open Effect TypeOrm CreateProcessingRequestUseCase

/-- A create for an owner. -/
def Operation.CreatesFor (ownerUserId : JsString) : Operation → Prop
  | .create _ input => input.ownerUserId = ownerUserId
  | _ => False

/-- A step that is not of a create for an owner. -/
def StepWithoutCreate {σ : Signature} {ι : Type} [DecidableEq ι] {machine : Machine σ ι}
    (operations : ι → Operation) (ownerUserId : JsString)
    (world next : Machine.World machine Thrown Answer) : Prop :=
  ∃ action, Machine.step world action = some next ∧
    ∀ index choice, action = .session index choice → ¬ (operations index).CreatesFor ownerUserId

/-- A request that an operation leaves was there before, or is one it creates. -/
theorem Operation.Leaves.before_or_created {operation : Operation} {ledger after : Ledger}
    (left : operation.Leaves ledger after) :
    ∀ row ∈ after.requests, (∃ before ∈ ledger.requests, row.SameIdentity before) ∨
      operation.CreatesFor row.ownerUserId := by
  intro stored storedMem
  cases left with
  | unchanged => exact .inl ⟨stored, storedMem, .refl _⟩
  | noted isEvent rowMem named unrecorded decided => exact .inl ⟨stored, storedMem, .refl _⟩
  | inserted isCreate valid isRequest unrecorded free =>
      rcases KeyedTable.mem_upsert.mp storedMem with rfl | ⟨old, _⟩
      · exact .inr (isCreate ▸ rfl)
      · exact .inl ⟨stored, old, .refl _⟩
  | @applied event row row' entry isEvent rowMem named unrecorded same decided =>
      rcases KeyedTable.mem_upsert.mp storedMem with rfl | ⟨old, _⟩
      · exact .inl ⟨row, rowMem, same.symm⟩
      · exact .inl ⟨stored, old, .refl _⟩

namespace Postgres

/-- The committed requests. -/
def storedRequests (database : Database) : List ProcessingRequest :=
  database.requests.rows.map ProcessingRequestRow.toDomain

section Listing

variable {rules : TextRules} {database : Database} {ownerUserId : JsString}

theorem map_ownedRows : (ownedRows database ownerUserId).map ProcessingRequestRow.toDomain =
    ownedListing ownerUserId (storedRequests database) := by
  have sameOrder : ∀ left right : ProcessingRequestRow,
      pageOrder left right = listOrder left.toDomain right.toDomain := by
    intro left right
    simp [pageOrder, listOrder, ProcessingRequestRow.toDomain, Uuid.text_le_text]
  rw [ownedRows, ownedListing, List.map_mergeSort fun left _ right _ => sameOrder left right,
    storedRequests, List.filter_map]
  rfl

theorem distinct_storedRequests :
    ((storedRequests database).map ProcessingRequest.processingRequestId).Nodup := by
  have texts : (storedRequests database).map ProcessingRequest.processingRequestId =
      (database.requests.rows.map ProcessingRequestRow.processingRequestId).map Uuid.text := by
    rw [storedRequests, List.map_map, List.map_map]
    rfl
  rw [texts]
  exact database.requests.keys_nodup.map Uuid.text_injective

theorem run_listOwned_refused (input : ListOwnedProcessingRequestsQuery.Input)
    (refused : rules.text input.ownerUserId = false) (shared : Shared Unit) :
    (ListOwnedProcessingRequestsQuery.execute (repository .dataSource) input).run
        (answerAlone rules) (shared, .idle) =
      (.error (.database textRefused), shared, .idle) := by
  have notFound : ((repository .dataSource).findPageByOwner input.ownerUserId
      ((input.page - 1) * input.pageSize) input.pageSize).run (answerAlone rules)
        (shared, .idle) =
      (.error (.database textRefused), shared, .idle) :=
    Program.run_bind_of_error (run_refused (.query .dataSource
      (.findPageByOwner input.ownerUserId _ _))
        (by simp [Statement.accepted, Query.texts, refused])) _
  exact Program.run_bind_of_error notFound _

/-- A page that is answered at all is a page of the listing. -/
theorem ownedPage_of_listOwned {input : ListOwnedProcessingRequestsQuery.Input}
    {page : OwnedPage} (answered : listOwned rules database input = .ok page) :
    page.items = (Paging.page input.pageSize (input.page - 1)
        (ownedListing input.ownerUserId (storedRequests database))).map toOwnedItem ∧
      page.total = (ownedListing input.ownerUserId (storedRequests database)).length := by
  cases accepted : rules.text input.ownerUserId with
  | true =>
      rw [listOwned, read, runAlone, run_listOwned input accepted] at answered
      cases answered
      constructor
      · rw [ownedPage, Paging.page, ← map_ownedRows, ← List.map_drop, ← List.map_take,
          List.map_map]
        rfl
      · rw [ownedPage, ← map_ownedRows, List.length_map, ownedRows, List.length_mergeSort,
          List.countP_eq_length_filter]
  | false =>
      rw [listOwned, read, runAlone, run_listOwned_refused input accepted] at answered
      cases answered

end Listing

variable {ι : Type} [Fintype ι] [DecidableEq ι] {operations : ι → Operation} {nextOutboxId : ℕ}
  {world next : Machine.World (machine ι true) Thrown Answer}

/-- A step of the service leaves every committed request in place. -/
theorem storedRequests_kept
    (reached : Machine.Reaches (start true operations .empty nextOutboxId) world)
    (stepped : Machine.Step world next) :
    ∀ request ∈ storedRequests world.shared.database,
      ∃ request' ∈ storedRequests next.shared.database, request.SameIdentity request' := by
  intro request requestMem
  rcases stepped with ⟨action, taken⟩
  rcases List.mem_map.mp requestMem with ⟨row, rowMem, rfl⟩
  rcases advances_of_step reached taken row rowMem with ⟨row', rowMem', _, advances⟩
  exact ⟨row'.toDomain, List.mem_map_of_mem rowMem', advances.forward.identity⟩

/-- A step adds to an owner's requests only as a create of this owner. -/
theorem storedRequests_before
    (reached : Machine.Reaches (start true operations .empty nextOutboxId) world)
    {ownerUserId : JsString} (stepped : StepWithoutCreate operations ownerUserId world next) :
    ∀ request ∈ storedRequests next.shared.database, request.ownerUserId = ownerUserId →
      ∃ before ∈ storedRequests world.shared.database, request.SameIdentity before := by
  intro request requestMem owned
  rcases List.mem_map.mp requestMem with ⟨row, rowMem, rfl⟩
  rcases stepped with ⟨action, taken, noCreate⟩
  have rowMem : row ∈ next.shared.database.requests := rowMem
  have found : ∃ before ∈ world.shared.database.requests, row.SameIdentity before := by
    rcases represents_of_step numbered_empty reached taken with
      ⟨ledger, after, _, represents, represents', same | ⟨index, choice, own, left⟩⟩
    · refine ⟨row, ?_, .refl _⟩
      rwa [represents.requests, ← same, ← represents'.requests]
    · have leaves := (operations index).leaves ledger
      rw [← left] at leaves
      rw [represents'.requests] at rowMem
      rw [represents.requests]
      refine (leaves.before_or_created row rowMem).resolve_right fun creates => ?_
      have sameOwner : row.ownerUserId = ownerUserId := owned
      exact noCreate index choice own (sameOwner ▸ creates)
  rcases found with ⟨before, beforeMem, same⟩
  exact ⟨before.toDomain, List.mem_map_of_mem beforeMem, same⟩

/-- PostgreSQL lists the requests of an owner, in any reachable state. -/
theorem lists_reached (rules : TextRules) (operations : ι → Operation) (nextOutboxId : ℕ)
    (ownerUserId : JsString) :
    Lists Machine.Step (StepWithoutCreate operations ownerUserId)
      (fun world : Machine.World (machine ι true) Thrown Answer =>
        listOwned rules world.shared.database)
      (fun world => storedRequests world.shared.database) ownerUserId
      (Machine.Reaches (start true operations .empty nextOutboxId)) where
  answered isOwner answered := isOwner ▸ ownedPage_of_listOwned answered
  distinct _ := distinct_storedRequests
  kept reached stepped := ⟨reached.tail stepped, storedRequests_kept reached stepped⟩
  quiet stepped := by
    rcases stepped with ⟨action, taken, _⟩
    exact ⟨action, taken⟩
  still reached stepped := storedRequests_before reached stepped

end Postgres

end ProcessingCatalog
