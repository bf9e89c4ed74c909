import ProcessingCatalog.Application.OwnedReads
import ProcessingCatalog.Persistence.RequestShapes
import ProcessingCatalog.Persistence.ForwardOnly
import ProcessingCatalog.Persistence.Serial

/-!
# Reads tell the owner what the notification told them
-/

namespace ProcessingCatalog

open Effect TypeOrm

namespace Postgres

/-- What a read answers from the committed tables. -/
def read {α : Type} (rules : TextRules) (database : Database) (program : Computation signature α) :
    Except Thrown α :=
  (runAlone rules program ⟨database, 1, []⟩).1

def listOwned (rules : TextRules) (database : Database)
    (input : ListOwnedProcessingRequestsQuery.Input) : Except Thrown OwnedPage :=
  read rules database (ListOwnedProcessingRequestsQuery.execute (repository .dataSource) input)

def getOwned (rules : TextRules) (database : Database)
    (input : GetOwnedProcessingRequestQuery.Input) : Except Thrown (Option OwnedItem) :=
  read rules database (GetOwnedProcessingRequestQuery.execute (repository .dataSource) input)

def getArchive (rules : TextRules) (database : Database) (input : GetOwnedArchiveQuery.Input) :
    Except Thrown GetOwnedArchiveQuery.OwnedArchive :=
  read rules database (GetOwnedArchiveQuery.execute (repository .dataSource) input)

section Reads

variable {rules : TextRules} {database : Database} {ownerUserId : JsString}

/-- The request with an identifier, for its owner. -/
def ownedRequest (database : Database) (id : Uuid) (ownerUserId : JsString) :
    Option ProcessingRequest :=
  (database.requests.rows.find? fun row =>
    row.processingRequestId = id ∧ row.ownerUserId = ownerUserId).map ProcessingRequestRow.toDomain

theorem run_findByIdAndOwner (id : Uuid) (accepted : rules.text ownerUserId = true)
    (shared : Shared Unit) :
    ((repository .dataSource).findByIdAndOwner id.text ownerUserId).run (answerAlone rules)
        (shared, .idle) = (.ok (ownedRequest shared.database id ownerUserId), shared, .idle) :=
  run_findOne (.processingRequestIdAndOwner id.text ownerUserId)
    (by rw [Criteria.selects, Uuid.parse_text]) (by simp [Query.texts, accepted])

theorem run_getOwned (id : Uuid) (accepted : rules.text ownerUserId = true)
    (shared : Shared Unit) :
    (GetOwnedProcessingRequestQuery.execute (repository .dataSource) ⟨ownerUserId, id.text⟩).run
        (answerAlone rules) (shared, .idle) =
      (.ok ((ownedRequest shared.database id ownerUserId).map toOwnedItem), shared, .idle) :=
  Program.run_bind_of_ok (run_findByIdAndOwner id accepted shared) _

theorem run_getArchive (id : Uuid) (accepted : rules.text ownerUserId = true)
    (shared : Shared Unit) :
    (GetOwnedArchiveQuery.execute (repository .dataSource) ⟨ownerUserId, id.text⟩).run
        (answerAlone rules) (shared, .idle) =
      (.ok ((ownedRequest shared.database id ownerUserId).elim .notFound
        GetOwnedArchiveQuery.archiveOf), shared, .idle) := by
  refine (Program.run_bind_of_ok (run_findByIdAndOwner id accepted shared) _).trans ?_
  cases ownedRequest shared.database id ownerUserId <;> rfl

/-- The requests of an owner, newest first. -/
def ownedRows (database : Database) (ownerUserId : JsString) : List ProcessingRequestRow :=
  (database.requests.rows.filter fun row => row.ownerUserId = ownerUserId).mergeSort pageOrder

/-- A page of an owner's requests. -/
def ownedPage (database : Database) (ownerUserId : JsString) (page pageSize : ℕ) : OwnedPage where
  items := (((ownedRows database ownerUserId).drop ((page - 1) * pageSize)).take pageSize).map
    fun row => toOwnedItem row.toDomain
  page := page
  pageSize := pageSize
  total := database.requests.rows.countP fun row => row.ownerUserId = ownerUserId

theorem run_listOwned (input : ListOwnedProcessingRequestsQuery.Input)
    (accepted : rules.text input.ownerUserId = true) (shared : Shared Unit) :
    (ListOwnedProcessingRequestsQuery.execute (repository .dataSource) input).run
        (answerAlone rules) (shared, .idle) =
      (.ok (ownedPage shared.database input.ownerUserId input.page input.pageSize), shared,
        .idle) := by
  have found : ((repository .dataSource).findPageByOwner input.ownerUserId
      ((input.page - 1) * input.pageSize) input.pageSize).run (answerAlone rules)
        (shared, .idle) =
      (.ok ((((ownedRows shared.database input.ownerUserId).drop
        ((input.page - 1) * input.pageSize)).take input.pageSize).map
          ProcessingRequestRow.toDomain), shared, .idle) :=
    Program.run_bind_of_ok (run_query .dataSource (.findPageByOwner input.ownerUserId _ _)
      (by simp [Statement.accepted, Query.texts, accepted]) rfl rfl) _
  have counted : ((repository .dataSource).countByOwner input.ownerUserId).run
      (answerAlone rules) (shared, .idle) =
        (.ok (shared.database.requests.rows.countP fun row =>
          row.ownerUserId = input.ownerUserId), shared, .idle) :=
    run_query .dataSource (.countByOwner input.ownerUserId)
      (by simp [Statement.accepted, Query.texts, accepted]) rfl rfl
  refine (Program.run_bind_of_ok found _).trans ((Program.run_bind_of_ok counted _).trans ?_)
  rw [Program.pure_eq, Program.run_pure, List.map_map]
  rfl

theorem ownedRequest_eq {row : ProcessingRequestRow} (rowMem : row ∈ database.requests)
    (ownerUserId : JsString) :
    ownedRequest database row.processingRequestId ownerUserId =
      if row.ownerUserId = ownerUserId then some row.toDomain else none := by
  unfold ownedRequest
  split
  · next owns =>
      have selected : (database.requests.rows.find? fun other =>
          other.processingRequestId = row.processingRequestId ∧
            other.ownerUserId = ownerUserId) = some row := by
        cases found : database.requests.rows.find? fun other =>
            other.processingRequestId = row.processingRequestId ∧
              other.ownerUserId = ownerUserId with
        | none => simpa [owns] using List.find?_eq_none.mp found row rowMem
        | some other =>
            have matches' := List.find?_some found
            simp only [decide_eq_true_eq] at matches'
            rw [KeyedTable.eq_of_key_eq (List.mem_of_find?_eq_some found) rowMem matches'.1]
      rw [selected, Option.map_some]
  · next foreign =>
      refine Option.map_eq_none_iff.mpr (List.find?_eq_none.mpr fun other otherMem => ?_)
      simp only [decide_eq_true_eq, not_and]
      intro same owns
      rw [KeyedTable.eq_of_key_eq otherMem rowMem same] at owns
      exact foreign owns

theorem mem_ownedRows {row : ProcessingRequestRow} :
    row ∈ ownedRows database ownerUserId ↔
      row ∈ database.requests ∧ row.ownerUserId = ownerUserId := by
  simp [ownedRows, List.mem_mergeSort, KeyedTable.mem_def]

/-- Every request of an owner is on one of the pages. -/
theorem exists_page {row : ProcessingRequestRow} (rowMem : row ∈ database.requests)
    {pageSize : ℕ} (positive : 0 < pageSize) :
    ∃ page, 1 ≤ page ∧
      toOwnedItem row.toDomain ∈ (ownedPage database row.ownerUserId page pageSize).items := by
  rcases List.mem_iff_getElem.mp (mem_ownedRows.mpr ⟨rowMem, rfl⟩) with ⟨i, below, isRow⟩
  refine ⟨i / pageSize + 1, Nat.le_add_left .., List.mem_map.mpr ⟨row, ?_, rfl⟩⟩
  rw [Nat.add_sub_cancel]
  have within : i % pageSize < pageSize := Nat.mod_lt i positive
  have at_i : i / pageSize * pageSize + i % pageSize = i := Nat.div_add_mod' i pageSize
  refine List.mem_iff_getElem.mpr ⟨i % pageSize, ?_, ?_⟩
  · simp only [List.length_take, List.length_drop]
    omega
  · simp only [List.getElem_take, List.getElem_drop, at_i, isRow]

end Reads

/-- What the reads say of a stored request, compared with its terminal event. -/
structure ReadsAgree (rules : TextRules) (database : Database) (row : ProcessingRequestRow) :
    Prop where
  failed : (toOwnedItem row.toDomain).failureReason.isSome ↔ row.status = .failed
  failureReason : row.status = .failed → ∃ entry,
    announcements (js "terminal.event") (database.outboxOf row.processingRequestId.text) =
      [entry] ∧
    (toOwnedItem row.toDomain).failureReason = entry.payload.failureReason
  completed : row.status = .completed → ∃ entry zipStorageKey,
    announcements (js "terminal.event") (database.outboxOf row.processingRequestId.text) =
      [entry] ∧ entry.payload.zipStorageKey = some zipStorageKey ∧
    getArchive rules database ⟨row.ownerUserId, row.processingRequestId.text⟩ =
      .ok (.ready zipStorageKey)
  notCompleted : row.status ≠ .completed →
    getArchive rules database ⟨row.ownerUserId, row.processingRequestId.text⟩ = .ok .notCompleted
  foreign : ∀ ownerUserId, rules.text ownerUserId = true → ownerUserId ≠ row.ownerUserId →
    getArchive rules database ⟨ownerUserId, row.processingRequestId.text⟩ = .ok .notFound

/-- The reads show this item of its request, by the identifier and on every page that lists it,
and some page of each size does. -/
structure Shows (rules : TextRules) (database : Database) (ownerUserId : JsString)
    (item : OwnedItem) : Prop where
  byId : getOwned rules database ⟨ownerUserId, item.processingRequestId⟩ = .ok (some item)
  inList : ∀ input listed, rules.text input.ownerUserId = true →
    listOwned rules database input = .ok listed →
    ∀ other ∈ listed.items, other.processingRequestId = item.processingRequestId → other = item
  listed : ∀ pageSize, 1 ≤ pageSize → ∃ input listed, input.ownerUserId = ownerUserId ∧
    input.pageSize = pageSize ∧ listOwned rules database input = .ok listed ∧ item ∈ listed.items

theorem shows_of_stored {rules : TextRules} {database : Database} {row : ProcessingRequestRow}
    (rowMem : row ∈ database.requests) (accepted : rules.text row.ownerUserId = true) :
    Shows rules database row.ownerUserId (toOwnedItem row.toDomain) := by
  constructor
  · have ran := congrArg Prod.fst
      (run_getOwned row.processingRequestId accepted ⟨database, 1, []⟩)
    rw [ownedRequest_eq rowMem, if_pos rfl] at ran
    exact ran
  · intro input listed ownerAccepted isListed other otherMem same
    have ran := congrArg Prod.fst (run_listOwned input ownerAccepted ⟨database, 1, []⟩)
    cases isListed.symm.trans ran
    rcases List.mem_map.mp otherMem with ⟨stored, storedMem, rfl⟩
    have isStored := (mem_ownedRows.mp (List.mem_of_mem_drop (List.mem_of_mem_take storedMem))).1
    rw [KeyedTable.eq_of_key_eq isStored rowMem (Uuid.text_injective same)]
  · intro pageSize positive
    rcases exists_page rowMem positive with ⟨page, counted, shown⟩
    refine ⟨⟨row.ownerUserId, page, pageSize, counted, positive⟩, _, rfl, rfl, ?_, shown⟩
    exact congrArg Prod.fst (run_listOwned _ accepted ⟨database, 1, []⟩)

theorem readsAgree_of_shaped {rules : TextRules} {database : Database}
    {row : ProcessingRequestRow} (rowMem : row ∈ database.requests)
    (accepted : rules.text row.ownerUserId = true) (shaped : row.toDomain.Shaped)
    (agrees : Agrees row.toDomain (database.outboxOf row.processingRequestId.text)) :
    ReadsAgree rules database row := by
  have archive := congrArg Prod.fst
    (run_getArchive row.processingRequestId accepted ⟨database, 1, []⟩)
  rw [ownedRequest_eq rowMem, if_pos rfl] at archive
  constructor
  · have code := shaped.failureCode
    simp only [toOwnedItem]
    split
    · next failed =>
        rw [Option.isSome_map]
        exact code
    · next other => exact ⟨nofun, fun failed => absurd failed other⟩
  · intro failed
    rcases agrees.terminal.2 (.inr failed) with ⟨entry, only, _, _, _, reason, _⟩
    refine ⟨entry, only, ?_⟩
    rw [reason]
    exact if_pos failed
  · intro completed
    rcases agrees.terminal.2 (.inl completed) with ⟨entry, only, _, _, zip, _⟩
    rcases Option.isSome_iff_exists.mp (shaped.zipStorageKey.mpr completed) with
      ⟨zipStorageKey, isZip⟩
    have notBlank := shaped.zipStorageKey_not_blank zipStorageKey isZip
    have notEmpty : zipStorageKey ≠ [] := by
      rintro rfl
      cases notBlank
    have ready : GetOwnedArchiveQuery.archiveOf row.toDomain = .ready zipStorageKey := by
      have isCompleted : row.toDomain.status = .completed := completed
      simp [GetOwnedArchiveQuery.archiveOf, isZip, isCompleted, notEmpty]
    exact ⟨entry, zipStorageKey, only, zip.trans isZip, archive.trans (congrArg Except.ok ready)⟩
  · intro notCompleted
    have none : row.toDomain.zipStorageKey = none := by
      rw [← Option.not_isSome_iff_eq_none, shaped.zipStorageKey]
      exact notCompleted
    have unready : GetOwnedArchiveQuery.archiveOf row.toDomain = .notCompleted := by
      simp [GetOwnedArchiveQuery.archiveOf, none]
    exact archive.trans (congrArg Except.ok unready)
  · intro ownerUserId ownerAccepted foreign
    have ran := congrArg Prod.fst
      (run_getArchive row.processingRequestId ownerAccepted ⟨database, 1, []⟩)
    rw [ownedRequest_eq rowMem, if_neg foreign.symm] at ran
    exact ran

variable {ι : Type} [Fintype ι] [DecidableEq ι]

/-- In every committed state any run of the use cases reaches from the empty store, the reads of a
stored request agree with its terminal event; and when it has ended, they show the same item of it
in every later state. A reader who is not the owner is one whose identifier is text that PostgreSQL
accepts: it refuses the reads of any other. -/
theorem reads_agree (operations : ι → Operation) {nextOutboxId : ℕ}
    {world : Machine.World (machine ι true) Thrown Answer}
    (reached : Machine.Reaches (start true operations .empty nextOutboxId) world)
    {rules : TextRules} {row : ProcessingRequestRow} (rowMem : row ∈ world.shared.database.requests)
    (accepted : rules.text row.ownerUserId = true) :
    ReadsAgree rules world.shared.database row ∧
    Shows rules world.shared.database row.ownerUserId (toOwnedItem row.toDomain) ∧
    (row.status.Terminal → ∀ later, Machine.Reaches world later →
      Shows rules later.shared.database row.ownerUserId (toOwnedItem row.toDomain)) := by
  refine ⟨?_, shows_of_stored rowMem accepted, ?_⟩
  · exact readsAgree_of_shaped rowMem accepted
      (shaped_reached reached row rowMem) (agrees_reached reached row rowMem)
  · intro ended later run
    rcases later_reached reached run row rowMem with
      ⟨row', rowMem', _, moved⟩
    have same : row' = row := ProcessingRequestRow.toDomain_injective (moved.frozen ended)
    exact shows_of_stored (same ▸ rowMem') accepted

/-- The reads of an upload whose video was rejected. -/
theorem reads_agree_rejection : ∃ row : ProcessingRequestRow, row.status = .failed ∧
    ∃ database : Database, ReadsAgree .lenient database row ∧
      Shows .lenient database row.ownerUserId (toOwnedItem row.toDomain) := by
  rcases rejection_reached with ⟨world, reached, row, rowMem, failed⟩
  have reads := reads_agree uploadAndRejection reached rowMem
    (show TextRules.lenient.text row.ownerUserId = true from rfl)
  exact ⟨row, failed, _, reads.1, reads.2.2 (.inr failed) world .refl⟩

end Postgres

end ProcessingCatalog
