import ProcessingCatalog.InMemory.Simulation
import ProcessingCatalog.Persistence.SerialRun
import ProcessingCatalog.Persistence.TruthfulReads

/-!
# The two adapters are interchangeable

The same calls, one after another, over the maps and over PostgreSQL, where
PostgreSQL accepts all text. Both simulate the ledger, call by call; the reads
are compared directly, page by page.
-/

namespace ProcessingCatalog

open Effect

/-- A call of the service: of a use case, or an owner's read. -/
inductive ServiceCall where
  | write (operation : Operation)
  | list (input : ListOwnedProcessingRequestsQuery.Input)
  | get (input : GetOwnedProcessingRequestQuery.Input)
  | archive (input : GetOwnedArchiveQuery.Input)

inductive ServiceAnswer where
  | written (answer : Answer)
  | page (page : OwnedPage)
  | item (item : Option OwnedItem)
  | archive (archive : GetOwnedArchiveQuery.OwnedArchive)
  deriving DecidableEq

def ServiceCall.execute {σ : Signature} (repository : ProcessingRequestRepository σ)
    (unitOfWork : UnitOfWork σ) : ServiceCall → Computation σ ServiceAnswer
  | .write operation => ServiceAnswer.written <$> operation.execute repository unitOfWork
  | .list input => ServiceAnswer.page <$> ListOwnedProcessingRequestsQuery.execute repository input
  | .get input => ServiceAnswer.item <$> GetOwnedProcessingRequestQuery.execute repository input
  | .archive input => ServiceAnswer.archive <$> GetOwnedArchiveQuery.execute repository input

/-- Calls one after another, each run alone: what they answer, and what the last one leaves. -/
def inTurn {S : Type} (run : ServiceCall → S → Except Thrown ServiceAnswer × S) :
    List ServiceCall → S → List (Except Thrown ServiceAnswer) × S
  | [], state => ([], state)
  | call :: rest, state =>
      let (outcome, state') := run call state
      let (outcomes, state'') := inTurn run rest state'
      (outcome :: outcomes, state'')

/-- A call whose identifiers are the text of UUIDs. -/
def ServiceCall.Canonical : ServiceCall → Prop
  | .write operation => InMemory.Canonical operation
  | .list _ => True
  | .get input => ∃ id : Uuid, input.processingRequestId = id.text
  | .archive input => ∃ id : Uuid, input.processingRequestId = id.text

/-- The identifier a call draws for a new request. -/
def ServiceCall.drawn? : ServiceCall → Option Uuid
  | .write operation => InMemory.drawn? operation
  | _ => none

namespace InMemory

def answerCall (call : ServiceCall) (store : Store) : Except Thrown ServiceAnswer × Store :=
  runAlone (call.execute repository unitOfWork) store

end InMemory

namespace Postgres

def answerCall (call : ServiceCall) (shared : Shared Unit) :
    Except Thrown ServiceAnswer × Shared Unit :=
  runAlone .lenient (call.execute (TypeOrm.repository .dataSource) TypeOrm.unitOfWork) shared

/-! ### The outbox of calls that run one after another -/

theorem outbox_applyAll_of_none {database : Database} {id : ℕ} {changes : List (Change OutboxEntry)}
    (none : Change.entries changes = []) :
    (database.applyAll (changes.map (Change.numbered id))).outbox = database.outbox := by
  induction changes generalizing database with
  | nil => rfl
  | cons change changes ih =>
      cases change with
      | insertOutbox entry => simp [Change.entries] at none
      | _ => exact ih none

/-- One more entry with an identifier above all others comes last. -/
theorem outbox_applyAll {database : Database} {id : ℕ} (numbered : Numbered database id)
    {changes : List (Change OutboxEntry)} (atMostOne : (Change.entries changes).length ≤ 1) :
    (database.applyAll (changes.map (Change.numbered id))).outbox.rows.map OutboxRow.entry =
      database.outbox.rows.map OutboxRow.entry ++ Change.entries changes := by
  induction changes generalizing database with
  | nil => simp [Change.entries]
  | cons change changes ih =>
      cases change with
      | insertOutbox entry =>
          have none : Change.entries changes = [] := by
            have listed : Change.entries (.insertOutbox entry :: changes) =
              entry :: Change.entries changes := rfl
            rw [listed, List.length_cons] at atMostOne
            exact List.length_eq_zero_iff.mp (by omega)
          have scanned : (database.outbox.insert ⟨id, entry, Option.none⟩).rows.filter
              (fun _ => true) = database.outbox.rows.filter (fun _ => true) ++
                [⟨id, entry, Option.none⟩] :=
            SortedTable.filter_insert_of_last rfl fun other otherMem _ => numbered other otherMem
          have rest : ((database.apply (.insertOutbox ⟨id, entry, Option.none⟩)).applyAll
              (changes.map (Change.numbered id))).outbox =
                database.outbox.insert ⟨id, entry, Option.none⟩ :=
            outbox_applyAll_of_none none
          have listed : Change.entries (.insertOutbox entry :: changes) = [entry] :=
            congrArg (entry :: ·) none
          rw [List.filter_true, List.filter_true] at scanned
          rw [List.map_cons, Database.applyAll_cons, listed]
          refine
            (congrArg (fun table : OutboxTable => table.rows.map OutboxRow.entry) rest).trans ?_
          rw [scanned, List.map_append]
          rfl
      | _ => exact ih numbered atMostOne

theorem outbox_ledger_applyAll (ledger : Ledger) (changes : List (Change OutboxEntry)) :
    (ledger.applyAll changes).outbox = ledger.outbox ++ Change.entries changes := by
  induction changes generalizing ledger with
  | nil => simp [Change.entries]
  | cons change changes ih =>
      rw [Ledger.applyAll_cons, ih]
      cases change with
      | insertOutbox entry =>
          have listed : Change.entries (.insertOutbox entry :: changes) =
            entry :: Change.entries changes := rfl
          simp [Ledger.apply, listed]
      | _ => rfl

/-- No operation announces more than one event. -/
theorem entries_perform (operation : Operation) (ledger : Ledger) :
    (Change.entries (operation.perform ledger).2).length ≤ 1 := by
  have changes := operation.changes ledger
  generalize (operation.perform ledger).2 = made at changes
  cases changes with
  | nothing => simp [Change.entries]
  | inserted => simp [Change.entries, CreateProcessingRequestUseCase.insertionChanges]
  | noted => simp [Change.entries]
  | @applied event row row' entry =>
      cases entry with
      | none => simp [LifecycleEvent.appliedChanges, Change.entries]
      | some entry => simp [LifecycleEvent.appliedChanges, Change.entries]

end Postgres

namespace InMemory

/-- The maps hold what the tables hold, row by row and in the same order. -/
structure InStep (store : Store) (database : Database) : Prop where
  requests : store.requests.rows = database.requests.rows.map ProcessingRequestRow.toDomain
  events : store.eventIdToRequestId.rows = database.events.rows.map EventLink.ofRow
  outbox : store.entries = database.outbox.rows.map OutboxRow.entry

/-! ### The reads -/

section Reads

variable {store : Store} {database : Database}

theorem pageOrder_toDomain (left right : ProcessingRequestRow) :
    Postgres.pageOrder left right = pageOrder left.toDomain right.toDomain := by
  simp [Postgres.pageOrder, pageOrder, ProcessingRequestRow.toDomain, Uuid.text_le_text]

theorem InStep.ownedBy (inStep : InStep store database) (ownerUserId : JsString) :
    store.ownedBy ownerUserId = (database.requests.rows.filter fun row =>
      row.ownerUserId = ownerUserId).map ProcessingRequestRow.toDomain := by
  rw [Store.ownedBy, inStep.requests, List.filter_map]
  rfl

theorem InStep.listOwned (inStep : InStep store database)
    (input : ListOwnedProcessingRequestsQuery.Input) :
    runAlone (ListOwnedProcessingRequestsQuery.execute repository input) store =
      (.ok (Postgres.ownedPage database input.ownerUserId input.page input.pageSize), store) := by
  have page : store.findPageByOwner input.ownerUserId ((input.page - 1) * input.pageSize)
      input.pageSize = (((Postgres.ownedRows database input.ownerUserId).drop
        ((input.page - 1) * input.pageSize)).take input.pageSize).map
          ProcessingRequestRow.toDomain := by
    rw [Store.findPageByOwner, inStep.ownedBy, Postgres.ownedRows, List.map_take, List.map_drop,
      List.map_mergeSort fun left _ right _ => pageOrder_toDomain left right]
  have total : store.countByOwner input.ownerUserId =
      database.requests.rows.countP fun row => row.ownerUserId = input.ownerUserId := by
    rw [Store.countByOwner, inStep.ownedBy, List.length_map, List.countP_eq_length_filter]
  rw [runAlone_listOwned, page, total, List.map_map]
  rfl

theorem InStep.findByIdAndOwner (inStep : InStep store database) (id : Uuid)
    (ownerUserId : JsString) :
    store.findByIdAndOwner id.text ownerUserId =
      Postgres.ownedRequest database id ownerUserId := by
  have stored : store.requests.find? id.text =
      (database.requests.find? id).map ProcessingRequestRow.toDomain :=
    KeyedTable.find?_map Uuid.text_injective ProcessingRequestRow.toDomain_processingRequestId
      inStep.requests id
  rw [Store.findByIdAndOwner, stored]
  cases found : database.requests.find? id with
  | none =>
      have absent : ∀ row ∈ database.requests.rows, ¬ (row.processingRequestId = id ∧
          row.ownerUserId = ownerUserId) :=
        fun row rowMem same => KeyedTable.find?_eq_none_iff.mp found row rowMem same.1
      have missed : (database.requests.rows.find? fun row =>
          row.processingRequestId = id ∧ row.ownerUserId = ownerUserId) = none :=
        List.find?_eq_none.mpr fun row rowMem => by simpa using absent row rowMem
      rw [Postgres.ownedRequest, missed]
      rfl
  | some row =>
      have sameId := KeyedTable.key_of_find? found
      subst sameId
      rw [Postgres.ownedRequest_eq (KeyedTable.mem_of_find? found)]
      by_cases owned : row.ownerUserId = ownerUserId
      · simp [Option.filter, ProcessingRequestRow.toDomain, owned]
      · simp [Option.filter, ProcessingRequestRow.toDomain, owned]

end Reads

/-! ### The calls -/

/-- Maps and tables that one ledger describes, where the identifiers `drawn` are still unused. -/
structure Coupled (store : Store) (shared : Postgres.Shared Unit) (ledger : Ledger)
    (drawn : List Uuid) : Prop where
  matched : Matches store ledger
  represents : shared.database.Represents ledger
  outbox : shared.database.outbox.rows.map OutboxRow.entry = ledger.outbox
  numbered : Postgres.Numbered shared.database shared.nextOutboxId
  unique : UniqueIndexes ledger.requests
  shape : ledger.Shape
  unused : ∀ id ∈ drawn, ledger.requests.find? id = none

namespace Coupled

variable {store : Store} {shared : Postgres.Shared Unit} {ledger : Ledger} {drawn : List Uuid}

theorem inStep (coupled : Coupled store shared ledger drawn) : InStep store shared.database where
  requests := by rw [coupled.represents.requests, coupled.matched.requests]
  events := by rw [coupled.represents.events, coupled.matched.events]
  outbox := by rw [coupled.outbox, coupled.matched.entries]

/-- A use case that draws a new identifier, if it draws one, does the same over both adapters. -/
theorem write {operation : Operation}
    (coupled : Coupled store shared ledger ((drawn? operation).toList ++ drawn))
    (canonical : Canonical operation)
    (distinct : ((drawn? operation).toList ++ drawn).Nodup) :
    (answerCall (.write operation) store).1 = (Postgres.answerCall (.write operation) shared).1 ∧
      Coupled (answerCall (.write operation) store).2
        (Postgres.answerCall (.write operation) shared).2
        (ledger.applyAll (operation.perform ledger).2) drawn := by
  have agrees := agrees_perform coupled.matched coupled.shape canonical fun id isDrawn =>
    coupled.unused id (List.mem_append_left _ (by simp [isDrawn]))
  have unique : UniqueIndexes shared.database.requests := coupled.represents.requests ▸
    coupled.unique
  rcases Postgres.runAlone_execute .lenient operation coupled.represents coupled.numbered unique
    with ⟨answered, did⟩
  rw [Postgres.operationUnder_lenient] at answered did
  have maps : answerCall (.write operation) store =
      Left.map .written (perform operation store) := by
    rw [answerCall, ServiceCall.execute, runAlone_map, runAlone_execute]
  have tables : Postgres.answerCall (.write operation) shared =
      ((Postgres.runAlone .lenient (operation.execute (TypeOrm.repository .dataSource)
          TypeOrm.unitOfWork) shared).1.map .written,
        (Postgres.runAlone .lenient (operation.execute (TypeOrm.repository .dataSource)
          TypeOrm.unitOfWork) shared).2) := by
    rw [Postgres.answerCall, ServiceCall.execute, Postgres.runAlone, Program.run_map _ rfl]
    rfl
  rw [maps, tables]
  refine ⟨?_, ?_⟩
  · rw [answered]
    exact congrArg (Except.map ServiceAnswer.written) agrees.answer
  · exact {
      matched := agrees.matched
      represents := did.represents
      outbox := by
        rw [did.database, Postgres.outbox_applyAll coupled.numbered
          (Postgres.entries_perform operation ledger), coupled.outbox,
          Postgres.outbox_ledger_applyAll]
      numbered := did.numbered
      unique := coupled.unique.perform operation
      shape := (operation.leaves ledger).shape coupled.shape
      unused := by
        intro id idMem
        refine find?_of_perform (coupled.unused id (List.mem_append_right _ idMem)) ?_
        intro isDrawn
        rw [isDrawn] at distinct
        exact (List.nodup_append.mp distinct).2.2 id (by simp) id idMem rfl }

/-- A read is answered alike from both adapters, and changes neither. -/
theorem read (coupled : Coupled store shared ledger drawn) {call : ServiceCall}
    (reads : ∀ operation, call ≠ .write operation) (canonical : call.Canonical) :
    ∃ answer, answerCall call store = (answer, store) ∧
      Postgres.answerCall call shared = (answer, shared) := by
  have inStep := coupled.inStep
  cases call with
  | write operation => exact absurd rfl (reads operation)
  | list input =>
      refine ⟨.ok (.page (Postgres.ownedPage shared.database input.ownerUserId input.page
        input.pageSize)), ?_, ?_⟩
      · rw [answerCall, ServiceCall.execute, runAlone_map, inStep.listOwned]
        rfl
      · rw [Postgres.answerCall, ServiceCall.execute, Postgres.runAlone, Program.run_map _
          (Postgres.run_listOwned input rfl shared)]
        rfl
  | get input =>
      rcases input with ⟨ownerUserId, processingRequestId⟩
      rcases canonical with ⟨id, rfl⟩
      refine ⟨.ok (.item ((Postgres.ownedRequest shared.database id ownerUserId).map
        toOwnedItem)), ?_, ?_⟩
      · rw [answerCall, ServiceCall.execute, runAlone_map, runAlone_getOwned,
          inStep.findByIdAndOwner]
        rfl
      · rw [Postgres.answerCall, ServiceCall.execute, Postgres.runAlone, Program.run_map _
          (Postgres.run_getOwned id rfl shared)]
        rfl
  | archive input =>
      rcases input with ⟨ownerUserId, processingRequestId⟩
      rcases canonical with ⟨id, rfl⟩
      refine ⟨.ok (.archive ((Postgres.ownedRequest shared.database id ownerUserId).elim .notFound
        GetOwnedArchiveQuery.archiveOf)), ?_, ?_⟩
      · rw [answerCall, ServiceCall.execute, runAlone_map, runAlone_getArchive,
          inStep.findByIdAndOwner]
        rfl
      · rw [Postgres.answerCall, ServiceCall.execute, Postgres.runAlone, Program.run_map _
          (Postgres.run_getArchive id rfl shared)]
        rfl

end Coupled

theorem drawn_cons (call : ServiceCall) (calls : List ServiceCall) :
    (call :: calls).filterMap ServiceCall.drawn? =
      call.drawn?.toList ++ calls.filterMap ServiceCall.drawn? := by
  rw [List.filterMap_cons]
  cases call.drawn? <;> rfl

/-- Calls over coupled maps and tables. -/
theorem inTurn_of_coupled {calls : List ServiceCall} {store : Store}
    {shared : Postgres.Shared Unit} {ledger : Ledger}
    (canonical : ∀ call ∈ calls, call.Canonical)
    (distinct : (calls.filterMap ServiceCall.drawn?).Nodup)
    (coupled : Coupled store shared ledger (calls.filterMap ServiceCall.drawn?)) :
    (inTurn answerCall calls store).1 = (inTurn Postgres.answerCall calls shared).1 ∧
      InStep (inTurn answerCall calls store).2
        (inTurn Postgres.answerCall calls shared).2.database := by
  induction calls generalizing store shared ledger with
  | nil => exact ⟨rfl, coupled.inStep⟩
  | cons call rest ih =>
      have here := canonical call List.mem_cons_self
      have later : ∀ other ∈ rest, other.Canonical :=
        fun other otherMem => canonical other (List.mem_cons_of_mem _ otherMem)
      rw [drawn_cons] at distinct coupled
      have restDistinct := (List.nodup_append.mp distinct).2.1
      by_cases reads : ∀ operation, call ≠ .write operation
      · rcases coupled.read reads here with ⟨answer, maps, tables⟩
        have unchanged : Coupled store shared ledger (rest.filterMap ServiceCall.drawn?) :=
          { coupled with
            unused := fun id idMem => coupled.unused id (List.mem_append_right _ idMem) }
        rcases ih later restDistinct unchanged with ⟨answers, inStep⟩
        simp only [inTurn, maps, tables]
        exact ⟨congrArg (answer :: ·) answers, inStep⟩
      · simp only [not_forall, not_not] at reads
        rcases reads with ⟨operation, rfl⟩
        rcases coupled.write here distinct with ⟨answered, left⟩
        rcases ih later restDistinct left with ⟨answers, inStep⟩
        exact ⟨congrArg₂ _ answered answers, inStep⟩

/-- The same calls, one after another from the empty store, over the maps and over PostgreSQL:
with canonical identifiers, and a new one for every create, each is answered alike, and maps and
tables are in step after it. -/
theorem adapters_interchangeable (calls : List ServiceCall)
    (canonical : ∀ call ∈ calls, call.Canonical)
    (distinct : (calls.filterMap ServiceCall.drawn?).Nodup) (nextOutboxId : ℕ) :
    (inTurn answerCall calls .empty).1 =
        (inTurn Postgres.answerCall calls ⟨.empty, nextOutboxId, []⟩).1 ∧
      InStep (inTurn answerCall calls .empty).2
        (inTurn Postgres.answerCall calls ⟨.empty, nextOutboxId, []⟩).2.database :=
  inTurn_of_coupled canonical distinct {
    matched := matches_empty
    represents := Database.represents_ofDatabase .empty
    outbox := rfl
    numbered := Postgres.numbered_empty
    unique := uniqueIndexes_empty
    shape := Ledger.shape_empty
    unused := fun _ _ => rfl }

/-- An upload, its acceptance, and its owner's reads of it. -/
def uploadAcceptanceAndReads : List ServiceCall :=
  [.write (.create ⟨1789953000000, .repeated 1, .repeated 2, 3000⟩
      ⟨js "e-1", js "owner", js "owner@example.com", js "uploads/a.mp4", js "key", none⟩),
    .write (.accept ⟨1789953060000, .repeated 3, .repeated 4, 3000⟩
      ⟨js "e-2", Uuid.text (.repeated 1), js "2026-09-21T01:11:00.000Z"⟩),
    .list ⟨js "owner", 1, 20, by decide, by decide⟩,
    .get ⟨js "owner", Uuid.text (.repeated 1)⟩]

theorem adapters_interchangeable_upload :
    (inTurn answerCall uploadAcceptanceAndReads .empty).1 =
        (inTurn Postgres.answerCall uploadAcceptanceAndReads ⟨.empty, 1, []⟩).1 ∧
      InStep (inTurn answerCall uploadAcceptanceAndReads .empty).2
        (inTurn Postgres.answerCall uploadAcceptanceAndReads ⟨.empty, 1, []⟩).2.database := by
  refine adapters_interchangeable uploadAcceptanceAndReads ?_ ?_ 1
  · simp only [uploadAcceptanceAndReads, List.forall_mem_cons]
    refine ⟨?_, ?_, trivial, ⟨_, rfl⟩, ?_⟩
    · rintro event ⟨⟩
    · rintro event ⟨⟩
      exact ⟨_, rfl⟩
    · simp
  · decide

end InMemory

end ProcessingCatalog
