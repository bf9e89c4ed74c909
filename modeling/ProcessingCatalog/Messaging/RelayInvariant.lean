import ProcessingCatalog.Messaging.OutboxRelay
import Mathlib.Data.List.Pairwise

/-!
# What holds between the steps of the drains

The invariant of the shared state, and what one drain may rely on while it
waits. A row's turn has come when every earlier row of its request has been
confirmed: only such a row is ever put in flight, and only a confirmed one is
marked. What makes the turn of a row last is the writers' discipline, by which
no row can be committed under one of the same request that is already visible.
None of this rests on the lock, so it survives a drain whose transaction the
server has ended while it goes on publishing.
-/

namespace ProcessingCatalog

open Effect

theorem OutboxRow.request_congr {row row' : OutboxRow} (sameEntry : row'.entry = row.entry) :
    row'.request = row.request := by
  rw [request, request, sameEntry]

namespace Relay

/-- What is selected of a row is its identifier and its entry. -/
theorem PendingOutboxRow.ofRow_eq_iff {row row' : OutboxRow} :
    ofRow row' = ofRow row ↔ row'.id = row.id ∧ row'.entry = row.entry := by
  rcases row with ⟨id, ⟨⟨queue, pattern⟩, payload⟩, publishedAt⟩
  rcases row' with ⟨id', ⟨⟨queue', pattern'⟩, payload'⟩, publishedAt'⟩
  simp [ofRow, and_assoc]

namespace Shared

variable {ι : Type} {shared shared' : Shared ι}

/-- The broker has confirmed a message of this row. -/
def Confirmed (shared : Shared ι) (id : ℕ) : Prop :=
  ∃ delivery ∈ shared.confirmed, delivery.origin = id

/-- The turn of a row has come: its request has no earlier row still unconfirmed. -/
def Cleared (shared : Shared ι) (row : OutboxRow) : Prop :=
  ∀ other ∈ shared.outbox, other.request = row.request → other.id < row.id →
    shared.Confirmed other.id

/-- A delivery of a committed row whose turn has come. -/
def Warranted (shared : Shared ι) (origin : ℕ) (queue : JsString) (message : Message) : Prop :=
  ∃ row ∈ shared.outbox,
    PendingOutboxRow.ofRow row = ⟨origin, queue, message.pattern, message.data⟩ ∧
    shared.Cleared row

/-- Rows stay committed, only later rows of a request are added, and confirms are not taken back. -/
structure Extends (shared shared' : Shared ι) : Prop where
  kept : ∀ row ∈ shared.outbox, ∃ row' ∈ shared'.outbox, row'.id = row.id ∧ row'.entry = row.entry
  added : ∀ row' ∈ shared'.outbox,
    (∃ row ∈ shared.outbox, row'.id = row.id ∧ row'.entry = row.entry) ∨
      ∀ row ∈ shared.outbox, row.request = row'.request → row.id < row'.id
  confirmed : ∀ delivery ∈ shared.confirmed, delivery ∈ shared'.confirmed

namespace Extends

/-- A step that leaves the table alone. -/
theorem of_outbox_eq (outbox : shared'.outbox = shared.outbox)
    (confirmed : ∀ delivery ∈ shared.confirmed, delivery ∈ shared'.confirmed) :
    shared.Extends shared' where
  kept row rowMem := ⟨row, outbox ▸ rowMem, rfl, rfl⟩
  added row' row'Mem := .inl ⟨row', outbox ▸ row'Mem, rfl, rfl⟩
  confirmed := confirmed

theorem refl (shared : Shared ι) : shared.Extends shared :=
  of_outbox_eq rfl fun _ => id

variable (step : shared.Extends shared')

include step

theorem confirms {id : ℕ} (confirmed : shared.Confirmed id) : shared'.Confirmed id := by
  rcases confirmed with ⟨delivery, deliveryMem, ofRow⟩
  exact ⟨delivery, step.confirmed delivery deliveryMem, ofRow⟩

/-- A row of a request below a visible row of it was visible before. -/
theorem earlier {row other' : OutboxRow} (rowMem : row ∈ shared.outbox)
    (other'Mem : other' ∈ shared'.outbox) (same : other'.request = row.request)
    (below : other'.id < row.id) :
    ∃ other ∈ shared.outbox, other'.id = other.id ∧ other'.entry = other.entry := by
  rcases step.added other' other'Mem with visible | above
  · exact visible
  · exact absurd below (above row rowMem same.symm).not_gt

theorem cleared {row row' : OutboxRow} (rowMem : row ∈ shared.outbox) (sameId : row'.id = row.id)
    (sameEntry : row'.entry = row.entry) (cleared : shared.Cleared row) :
    shared'.Cleared row' := by
  intro other' other'Mem same below
  rw [OutboxRow.request_congr sameEntry] at same
  rw [sameId] at below
  rcases step.earlier rowMem other'Mem same below with ⟨other, otherMem, otherId, otherEntry⟩
  rw [OutboxRow.request_congr otherEntry] at same
  rw [otherId] at below ⊢
  exact step.confirms (cleared other otherMem same below)

theorem warranted {origin : ℕ} {queue : JsString} {message : Message}
    (warranted : shared.Warranted origin queue message) :
    shared'.Warranted origin queue message := by
  rcases warranted with ⟨row, rowMem, ofRow, cleared⟩
  rcases step.kept row rowMem with ⟨row', row'Mem, sameId, sameEntry⟩
  refine ⟨row', row'Mem, ?_, step.cleared rowMem sameId sameEntry cleared⟩
  rw [PendingOutboxRow.ofRow_eq_iff.mpr ⟨sameId, sameEntry⟩, ofRow]

theorem trans {shared'' : Shared ι} (later : shared'.Extends shared'') :
    shared.Extends shared'' where
  kept row rowMem := by
    rcases step.kept row rowMem with ⟨row', row'Mem, sameId, sameEntry⟩
    rcases later.kept row' row'Mem with ⟨row'', row''Mem, sameId', sameEntry'⟩
    exact ⟨row'', row''Mem, sameId'.trans sameId, sameEntry'.trans sameEntry⟩
  added row'' row''Mem := by
    rcases later.added row'' row''Mem with ⟨row', row'Mem, sameId, sameEntry⟩ | above
    · rw [OutboxRow.request_congr sameEntry, sameId, sameEntry]
      exact step.added row' row'Mem
    · right
      intro row rowMem same
      rcases step.kept row rowMem with ⟨row', row'Mem, sameId, sameEntry⟩
      rw [← sameId]
      exact above row' row'Mem ((OutboxRow.request_congr sameEntry).trans same)
  confirmed delivery deliveryMem := later.confirmed delivery (step.confirmed delivery deliveryMem)

end Extends

/-- Two rows of different writers, which no request has both of. -/
def Apart (left right : OutboxRow) : Prop :=
  left.id ≠ right.id ∧ left.request ≠ right.request

instance : Std.Symm Apart where
  symm _ _ apart := ⟨apart.1.symm, apart.2.symm⟩

/-- What the writers see to. -/
structure Ordered (shared : Shared ι) : Prop where
  /-- The identifiers of the sequence are handed out once. -/
  numbered : ∀ row ∈ shared.outbox, row.id < shared.nextOutboxId
  uncommitted : ∀ row ∈ shared.uncommitted, row.id < shared.nextOutboxId ∧ row.publishedAt = none
  apart : shared.uncommitted.Pairwise Apart
  /-- A row still to be committed comes after the visible rows of its request. -/
  above : ∀ row ∈ shared.uncommitted, ∀ other ∈ shared.outbox,
    other.id ≠ row.id ∧ (other.request = row.request → other.id < row.id)

structure Invariant (shared : Shared ι) : Prop where
  ordered : shared.Ordered
  /-- Only confirmed rows are marked as published. -/
  published : ∀ row ∈ shared.outbox, row.publishedAt ≠ none → shared.Confirmed row.id
  marks : ∀ index now marks, shared.transactions index = .opened now marks →
    ∀ id ∈ marks, shared.Confirmed id
  /-- Only committed rows are published, each in its turn. -/
  warranted : ∀ delivery, delivery ∈ shared.inFlight ∨ delivery ∈ shared.received →
    shared.Warranted delivery.origin delivery.queue delivery.message
  confirmed : ∀ delivery ∈ shared.confirmed, delivery ∈ shared.received

theorem invariant_initial : (initial : Shared ι).Invariant where
  ordered :=
    { numbered := by simp [initial]
      uncommitted := by simp [initial]
      apart := .nil
      above := by simp [initial] }
  published := by simp [initial]
  marks := by simp [initial]
  warranted := by simp [initial]
  confirmed := by simp [initial]

namespace Invariant

/-- A step that may add confirms, marks and deliveries, and leaves the rows alone. -/
theorem of_rows_eq (invariant : shared.Invariant) (outbox : shared'.outbox = shared.outbox)
    (uncommitted : shared'.uncommitted = shared.uncommitted)
    (numbered : shared'.nextOutboxId = shared.nextOutboxId)
    (confirms : ∀ delivery ∈ shared.confirmed, delivery ∈ shared'.confirmed)
    (marks : ∀ index now marks, shared'.transactions index = .opened now marks →
      ∀ id ∈ marks, shared.Confirmed id)
    (warranted : ∀ delivery, delivery ∈ shared'.inFlight ∨ delivery ∈ shared'.received →
      shared.Warranted delivery.origin delivery.queue delivery.message)
    (confirmed : ∀ delivery ∈ shared'.confirmed, delivery ∈ shared'.received) :
    shared'.Invariant := by
  have step : shared.Extends shared' := .of_outbox_eq outbox confirms
  constructor
  · constructor
    · rw [outbox, numbered]
      exact invariant.ordered.numbered
    · rw [uncommitted, numbered]
      exact invariant.ordered.uncommitted
    · rw [uncommitted]
      exact invariant.ordered.apart
    · rw [outbox, uncommitted]
      exact invariant.ordered.above
  · intro row rowMem published
    rw [outbox] at rowMem
    exact step.confirms (invariant.published row rowMem published)
  · intro index now marked opened id idMem
    exact step.confirms (marks index now marked opened id idMem)
  · intro delivery sent
    exact step.warranted (warranted delivery sent)
  · exact confirmed

variable [DecidableEq ι] {index : ι}

theorem setTransaction (invariant : shared.Invariant) {transaction : Transaction}
    (marks : ∀ now marks, transaction = .opened now marks → ∀ id ∈ marks, shared.Confirmed id) :
    (shared.setTransaction index transaction).Invariant := by
  refine invariant.of_rows_eq rfl rfl rfl (fun _ => id) ?_ invariant.warranted invariant.confirmed
  intro other now marked opened
  by_cases same : other = index
  · subst same
    simp only [Shared.setTransaction, Function.update_self] at opened
    exact marks now marked opened
  · simp only [Shared.setTransaction, Function.update_of_ne same] at opened
    exact invariant.marks other now marked opened

theorem release (invariant : shared.Invariant) {left : Transaction}
    (ended : ∀ now marks, left ≠ .opened now marks) : (shared.release index left).Invariant := by
  have set : (shared.setTransaction index left).Invariant :=
    invariant.setTransaction fun now marks opened => absurd opened (ended now marks)
  exact set.of_rows_eq rfl rfl rfl (fun _ => id) set.marks set.warranted set.confirmed

end Invariant

section CommitMarks

variable {start : Date} {marks : List ℕ}

theorem mem_commitMarks {row' : OutboxRow} :
    row' ∈ (shared.commitMarks start marks).outbox ↔
      ∃ row ∈ shared.outbox, mark start marks row = row' := by
  rw [commitMarks, SortedTable.mem_mapRows]

theorem extends_commitMarks : shared.Extends (shared.commitMarks start marks) where
  kept row rowMem :=
    ⟨mark start marks row, mem_commitMarks.mpr ⟨row, rowMem, rfl⟩, mark_id _ _ _, mark_entry _ _ _⟩
  added row' row'Mem := by
    rcases mem_commitMarks.mp row'Mem with ⟨row, rowMem, rfl⟩
    exact .inl ⟨row, rowMem, mark_id _ _ _, mark_entry _ _ _⟩
  confirmed _ := id

theorem Invariant.commitMarks (invariant : shared.Invariant)
    (confirmed : ∀ id ∈ marks, shared.Confirmed id) :
    (shared.commitMarks start marks).Invariant := by
  have step : shared.Extends (shared.commitMarks start marks) := extends_commitMarks
  constructor
  · constructor
    · intro row' row'Mem
      rcases mem_commitMarks.mp row'Mem with ⟨row, rowMem, rfl⟩
      rw [mark_id]
      exact invariant.ordered.numbered row rowMem
    · exact invariant.ordered.uncommitted
    · exact invariant.ordered.apart
    · intro row rowMem other' other'Mem
      rcases mem_commitMarks.mp other'Mem with ⟨other, otherMem, rfl⟩
      rw [OutboxRow.request, mark_id, mark_entry]
      exact invariant.ordered.above row rowMem other otherMem
  · intro row' row'Mem published
    rcases mem_commitMarks.mp row'Mem with ⟨row, rowMem, rfl⟩
    rw [mark_id]
    by_cases marked : row.id ∈ marks
    · exact step.confirms (confirmed row.id marked)
    · rw [mark, if_neg marked] at published
      exact step.confirms (invariant.published row rowMem published)
  · intro index now marked opened id idMem
    exact step.confirms (invariant.marks index now marked opened id idMem)
  · intro delivery sent
    exact step.warranted (invariant.warranted delivery sent)
  · exact invariant.confirmed

end CommitMarks

section Writers

/-- A writer inserts a row under the next identifier. -/
theorem Invariant.insert (invariant : shared.Invariant) {entry : OutboxEntry}
    (turn : ∀ other ∈ shared.uncommitted,
      other.request ≠ (⟨shared.nextOutboxId, entry, none⟩ : OutboxRow).request) :
    { shared with
      uncommitted := shared.uncommitted ++ [⟨shared.nextOutboxId, entry, none⟩]
      nextOutboxId := shared.nextOutboxId + 1 : Shared ι }.Invariant := by
  have ordered := invariant.ordered
  constructor
  · constructor
    · intro row rowMem
      exact (ordered.numbered row rowMem).trans (Nat.lt_succ_self _)
    · intro row rowMem
      rcases List.mem_append.mp rowMem with old | new
      · exact ⟨(ordered.uncommitted row old).1.trans (Nat.lt_succ_self _),
          (ordered.uncommitted row old).2⟩
      · rw [List.mem_singleton.mp new]
        exact ⟨Nat.lt_succ_self _, rfl⟩
    · refine List.pairwise_append.mpr ⟨ordered.apart, List.pairwise_singleton _ _, ?_⟩
      intro other otherMem row rowMem
      rw [List.mem_singleton.mp rowMem]
      exact ⟨(ordered.uncommitted other otherMem).1.ne, turn other otherMem⟩
    · intro row rowMem other otherMem
      rcases List.mem_append.mp rowMem with old | new
      · exact ordered.above row old other otherMem
      · rw [List.mem_singleton.mp new]
        have below := ordered.numbered other otherMem
        exact ⟨below.ne, fun _ => below⟩
  · exact invariant.published
  · exact invariant.marks
  · exact invariant.warranted
  · exact invariant.confirmed

theorem Ordered.erase (ordered : shared.Ordered) (row : OutboxRow) :
    { shared with uncommitted := shared.uncommitted.erase row : Shared ι }.Ordered where
  numbered := ordered.numbered
  uncommitted other otherMem := ordered.uncommitted other (List.mem_of_mem_erase otherMem)
  apart := ordered.apart.sublist List.erase_sublist
  above other otherMem := ordered.above other (List.mem_of_mem_erase otherMem)

/-- A row that becomes visible comes after the visible rows of its request. -/
theorem extends_commit (ordered : shared.Ordered) {row : OutboxRow}
    (rowMem : row ∈ shared.uncommitted) :
    shared.Extends { shared with
      outbox := shared.outbox.insert row
      uncommitted := shared.uncommitted.erase row } where
  kept other otherMem :=
    ⟨other,
      SortedTable.mem_insert.mpr (.inr ⟨otherMem, (ordered.above row rowMem other otherMem).1⟩),
      rfl, rfl⟩
  added other otherMem := by
    rcases SortedTable.mem_insert.mp otherMem with rfl | ⟨old, _⟩
    · exact .inr fun visible visibleMem => (ordered.above other rowMem visible visibleMem).2
    · exact .inl ⟨other, old, rfl, rfl⟩
  confirmed _ := id

theorem Invariant.commit (invariant : shared.Invariant) {row : OutboxRow}
    (rowMem : row ∈ shared.uncommitted) :
    { shared with
      outbox := shared.outbox.insert row
      uncommitted := shared.uncommitted.erase row : Shared ι }.Invariant := by
  have ordered := invariant.ordered
  have step := extends_commit ordered rowMem
  have distinct : shared.uncommitted.Nodup :=
    ordered.apart.imp fun {_ _} apart same => apart.1 (congrArg OutboxRow.id same)
  constructor
  · constructor
    · intro other otherMem
      rcases SortedTable.mem_insert.mp otherMem with rfl | ⟨old, _⟩
      · exact (ordered.uncommitted other rowMem).1
      · exact ordered.numbered other old
    · exact (ordered.erase row).uncommitted
    · exact (ordered.erase row).apart
    · intro other otherMem visible visibleMem
      rcases distinct.mem_erase_iff.mp otherMem with ⟨different, waiting⟩
      rcases SortedTable.mem_insert.mp visibleMem with rfl | ⟨old, _⟩
      · have apart := ordered.apart.forall rowMem waiting different.symm
        exact ⟨apart.1, fun same => absurd same apart.2⟩
      · exact ordered.above other waiting visible old
  · intro other otherMem published
    rcases SortedTable.mem_insert.mp otherMem with rfl | ⟨old, _⟩
    · exact absurd (ordered.uncommitted other rowMem).2 published
    · exact invariant.published other old published
  · exact invariant.marks
  · intro delivery sent
    exact step.warranted (invariant.warranted delivery sent)
  · exact invariant.confirmed

variable [DecidableEq ι]

/-- What happens beside the drains keeps the invariant, and what the drains rely on. -/
theorem Invariant.environment (invariant : shared.Invariant) {event : Event ι}
    (happened : shared.environment event = some shared') :
    shared'.Invariant ∧ shared.Extends shared' := by
  cases event with
  | insert entry =>
      rw [Shared.environment, Option.ite_none_right_eq_some] at happened
      rcases happened with ⟨turn, ⟨⟩⟩
      exact ⟨invariant.insert turn, .of_outbox_eq rfl fun _ => id⟩
  | commit row =>
      rw [Shared.environment, Option.ite_none_right_eq_some] at happened
      rcases happened with ⟨rowMem, ⟨⟩⟩
      exact ⟨invariant.commit rowMem, extends_commit invariant.ordered rowMem⟩
  | rollback row =>
      cases happened
      exact ⟨⟨invariant.ordered.erase row, invariant.published, invariant.marks,
        invariant.warranted, invariant.confirmed⟩, .of_outbox_eq rfl fun _ => id⟩
  | arrive delivery =>
      rw [Shared.environment, Option.ite_none_right_eq_some] at happened
      rcases happened with ⟨sent, ⟨⟩⟩
      have warranted : ∀ other, other ∈ shared.inFlight ∨ other ∈ shared.received ++ [delivery] →
          shared.Warranted other.origin other.queue other.message := by
        rintro other (flying | arrived)
        · exact invariant.warranted other (.inl flying)
        · rcases List.mem_append.mp arrived with old | new
          · exact invariant.warranted other (.inr old)
          · rw [List.mem_singleton.mp new]
            exact invariant.warranted delivery (.inl sent)
      have confirmed : ∀ other ∈ shared.confirmed, other ∈ shared.received ++ [delivery] :=
        fun other otherMem => List.mem_append_left _ (invariant.confirmed other otherMem)
      exact ⟨invariant.of_rows_eq rfl rfl rfl (fun _ => id) invariant.marks warranted confirmed,
        .of_outbox_eq rfl fun _ => id⟩
  | lose delivery =>
      cases happened
      have warranted : ∀ other,
          other ∈ shared.inFlight.erase delivery ∨ other ∈ shared.received →
          shared.Warranted other.origin other.queue other.message :=
        fun other sent => invariant.warranted other (sent.imp_left List.mem_of_mem_erase)
      exact ⟨invariant.of_rows_eq rfl rfl rfl (fun _ => id) invariant.marks warranted
        invariant.confirmed, .of_outbox_eq rfl fun _ => id⟩
  | abort index =>
      have ended : ∀ now marks, Transaction.aborted ≠ .opened now marks := nofun
      rw [Shared.environment] at happened
      split at happened
      · cases happened
      · cases happened
        exact ⟨invariant.release ended, .of_outbox_eq rfl fun _ => id⟩

end Writers

end Shared

end Relay

end ProcessingCatalog
