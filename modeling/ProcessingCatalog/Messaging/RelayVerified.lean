import ProcessingCatalog.Messaging.RelayInvariant

/-!
# A drain publishes in turn

What a drain must be entitled to before it publishes a row or marks one, and
that the loop of `drain` always is: of the batch still to be published, every
earlier row of the same request has been confirmed or is in the batch before it.
-/

namespace ProcessingCatalog

open Effect

namespace Relay

variable {ι : Type} {shared shared' : Shared ι}

/-- What a drain must know before it makes a call. -/
def Call.Entitled (shared : Shared ι) : Call → Prop
  | .publish origin queue message => shared.Warranted origin queue message
  | .statement (.markPublished id) => shared.Confirmed id
  | _ => True

section Steps

variable [DecidableEq ι] {index : ι}

/-- A statement keeps the invariant, and what the other drains rely on. -/
theorem Shared.Invariant.execute (invariant : shared.Invariant) {now : Date}
    (statement : Statement) (entitled : (Call.statement statement).Entitled shared) :
    (shared.execute now index statement).2.Invariant ∧
      shared.Extends (shared.execute now index statement).2 := by
  have unchanged : shared.Extends shared := .of_outbox_eq rfl fun _ => id
  have idle : ∀ now marks, Transaction.idle ≠ .opened now marks := nofun
  cases statement with
  | startTransaction =>
      simp only [Shared.execute]
      split
      · refine ⟨invariant.setTransaction ?_, .of_outbox_eq rfl fun _ => id⟩
        rintro start marks ⟨⟩ id ⟨⟩
      · exact ⟨invariant, unchanged⟩
  | commitTransaction =>
      simp only [Shared.execute]
      split
      · next start marks opened =>
          have released : (shared.release index .idle).Invariant := invariant.release idle
          have step : (shared.release index .idle).Extends
            ((shared.release index .idle).commitMarks start marks) := Shared.extends_commitMarks
          exact ⟨released.commitMarks (invariant.marks index start marks opened),
            step.kept, step.added, step.confirmed⟩
      · exact ⟨invariant, unchanged⟩
  | rollbackTransaction => exact ⟨invariant.release idle, .of_outbox_eq rfl fun _ => id⟩
  | tryAdvisoryXactLock key =>
      simp only [Shared.execute]
      split
      · split
        · exact ⟨invariant.of_rows_eq rfl rfl rfl (fun _ => id) invariant.marks
            invariant.warranted invariant.confirmed, .of_outbox_eq rfl fun _ => id⟩
        · exact ⟨invariant, unchanged⟩
      · exact ⟨invariant, unchanged⟩
  | selectPending limit =>
      simp only [Shared.execute]
      split
      · exact ⟨invariant, unchanged⟩
      · exact ⟨invariant, unchanged⟩
  | markPublished row =>
      simp only [Shared.execute]
      split
      · next start marks opened =>
          refine ⟨invariant.setTransaction ?_, .of_outbox_eq rfl fun _ => id⟩
          rintro start marks' ⟨⟩ marked markedMem
          rcases List.mem_append.mp markedMem with old | new
          · exact invariant.marks index _ marks opened marked old
          · rw [List.mem_singleton.mp new]
            exact entitled
      · exact ⟨invariant, unchanged⟩

theorem Shared.Invariant.fail (invariant : shared.Invariant) :
    (shared.fail index).Invariant ∧ shared.Extends (shared.fail index) := by
  simp only [Shared.fail]
  split
  · exact ⟨invariant.setTransaction nofun, .of_outbox_eq rfl fun _ => id⟩
  · exact ⟨invariant, .of_outbox_eq rfl fun _ => id⟩

/-- The answer to a call keeps the invariant, and what the other drains rely on. -/
theorem Shared.Invariant.answer (invariant : shared.Invariant) {choice : Choice} {call : Call}
    {reply : signature.Reply call} (entitled : call.Entitled shared)
    (answered : shared.answer choice index call = some (reply, shared')) :
    shared'.Invariant ∧ shared.Extends shared' := by
  cases call with
  | statement statement =>
      cases choice with
      | proceed now =>
          have executed : (shared.execute now index statement).2 = shared' :=
            congrArg Prod.snd (Option.some.inj answered)
          exact executed ▸ invariant.execute statement entitled
      | fail error =>
          cases answered
          exact invariant.fail
      | reject error => cases answered
  | publish origin queue message =>
      cases answered
      refine ⟨invariant.of_rows_eq rfl rfl rfl (fun _ => id) invariant.marks ?_
        invariant.confirmed, .of_outbox_eq rfl fun _ => id⟩
      rintro delivery (flying | arrived)
      · rcases List.mem_append.mp flying with old | new
        · exact invariant.warranted delivery (.inl old)
        · rw [List.mem_singleton.mp new]
          exact entitled
      · exact invariant.warranted delivery (.inr arrived)
  | awaitConfirm delivery =>
      cases choice with
      | proceed now =>
          simp only [Shared.answer, Option.ite_none_right_eq_some] at answered
          rcases answered with ⟨arrived, ⟨⟩⟩
          refine ⟨invariant.of_rows_eq rfl rfl rfl (fun _ => List.mem_append_left _)
            invariant.marks invariant.warranted ?_,
            .of_outbox_eq rfl fun _ => List.mem_append_left _⟩
          intro other otherMem
          rcases List.mem_append.mp otherMem with old | new
          · exact invariant.confirmed other old
          · rw [List.mem_singleton.mp new]
            exact arrived
      | fail error => cases answered
      | reject error =>
          cases answered
          exact ⟨invariant, .of_outbox_eq rfl fun _ => id⟩
  | recordOutboxPublishFailure =>
      cases answered
      exact ⟨invariant.of_rows_eq rfl rfl rfl (fun _ => id) invariant.marks invariant.warranted
        invariant.confirmed, .of_outbox_eq rfl fun _ => id⟩

end Steps

/-- The batch a drain has still to publish. -/
structure Batch (rows : List PendingOutboxRow) (shared : Shared ι) : Prop where
  ordered : rows.Pairwise fun left right => left.id < right.id
  committed : ∀ row ∈ rows, ∃ stored ∈ shared.outbox, PendingOutboxRow.ofRow stored = row
  /-- The earlier rows of a request are confirmed, or come first. -/
  earlier : ∀ stored ∈ shared.outbox, PendingOutboxRow.ofRow stored ∈ rows →
    ∀ other ∈ shared.outbox, other.request = stored.request → other.id < stored.id →
      shared.Confirmed other.id ∨ PendingOutboxRow.ofRow other ∈ rows

namespace Batch

/-- What a drain selects, under the marks it has made itself. -/
theorem of_pending (invariant : shared.Invariant) {marks : List ℕ}
    (confirmed : ∀ id ∈ marks, shared.Confirmed id) (limit : ℕ) :
    Batch (((shared.pending marks).take limit).map .ofRow) shared := by
  have sorted : (shared.pending marks).Pairwise fun left right => left.id < right.id :=
    shared.outbox.sorted.filter _
  have visible : ∀ row ∈ (shared.pending marks).take limit, row ∈ shared.outbox := fun row rowMem =>
    (List.mem_filter.mp (List.mem_of_mem_take rowMem)).1
  constructor
  · exact List.pairwise_map.mpr (sorted.sublist (List.take_sublist _ _))
  · intro row rowMem
    rcases List.mem_map.mp rowMem with ⟨stored, storedMem, rfl⟩
    exact ⟨stored, visible stored storedMem, rfl⟩
  · intro stored storedMem chosen other otherMem _ below
    rcases List.mem_map.mp chosen with ⟨selected, selectedMem, same⟩
    have sameRow : selected = stored := SortedTable.eq_of_key_eq (visible selected selectedMem)
      storedMem (PendingOutboxRow.ofRow_eq_iff.mp same).1
    rw [sameRow] at selectedMem
    by_cases published : other.publishedAt = none
    · by_cases marked : other.id ∈ marks
      · exact .inl (confirmed other.id marked)
      · have otherPending : other ∈ shared.pending marks :=
          List.mem_filter.mpr ⟨otherMem, by simp [published, marked]⟩
        have first := SortedTable.mem_take_of_key_lt sorted selectedMem otherPending below
        exact .inr (List.mem_map_of_mem first)
    · exact .inl (invariant.published other otherMem published)

theorem extend {rows : List PendingOutboxRow} (step : shared.Extends shared')
    (batch : Batch rows shared) : Batch rows shared' := by
  constructor
  · exact batch.ordered
  · intro row rowMem
    rcases batch.committed row rowMem with ⟨stored, storedMem, rfl⟩
    rcases step.kept stored storedMem with ⟨stored', stored'Mem, same⟩
    exact ⟨stored', stored'Mem, PendingOutboxRow.ofRow_eq_iff.mpr same⟩
  · intro stored' _ chosen other' other'Mem request below
    rcases batch.committed _ chosen with ⟨stored, storedMem, same⟩
    rcases PendingOutboxRow.ofRow_eq_iff.mp same with ⟨sameId, sameEntry⟩
    rw [← sameId] at below
    rw [← OutboxRow.request_congr sameEntry] at request
    rcases step.earlier storedMem other'Mem request below with
      ⟨other, otherMem, otherId, otherEntry⟩
    rw [OutboxRow.request_congr otherEntry] at request
    rw [otherId] at below
    rw [otherId, PendingOutboxRow.ofRow_eq_iff.mpr ⟨otherId, otherEntry⟩]
    exact (batch.earlier stored storedMem (same ▸ chosen) other otherMem request below).imp_left
      step.confirms

variable {row : PendingOutboxRow} {rows : List PendingOutboxRow}

/-- The turn of the first row has come. -/
theorem warranted (batch : Batch (row :: rows) shared) :
    shared.Warranted row.id row.queue ⟨row.pattern, row.payload⟩ := by
  rcases batch.committed row List.mem_cons_self with ⟨stored, storedMem, rfl⟩
  refine ⟨stored, storedMem, rfl, ?_⟩
  intro other otherMem request below
  rcases batch.earlier stored storedMem List.mem_cons_self other otherMem request below with
    confirmed | before
  · exact confirmed
  · rcases List.mem_cons.mp before with same | later
    · exact absurd below (PendingOutboxRow.ofRow_eq_iff.mp same).1.symm.not_gt
    · exact absurd below ((List.pairwise_cons.mp batch.ordered).1 _ later).not_gt

/-- Once the first row is confirmed, the rest is still to be published. -/
theorem tail (batch : Batch (row :: rows) shared) (confirmed : shared.Confirmed row.id) :
    Batch rows shared := by
  constructor
  · exact (List.pairwise_cons.mp batch.ordered).2
  · exact fun other otherMem => batch.committed other (List.mem_cons_of_mem _ otherMem)
  · intro stored storedMem chosen other otherMem request below
    rcases batch.earlier stored storedMem (List.mem_cons_of_mem _ chosen) other otherMem request
      below with done | first
    · exact .inl done
    · rcases List.mem_cons.mp first with same | later
      · have sameId : other.id = row.id := congrArg PendingOutboxRow.id same
        exact .inl (sameId ▸ confirmed)
      · exact .inr later

end Batch

section Drain

variable [DecidableEq ι] {index : ι}

/-- A drain makes the calls it is entitled to, and relies on the others doing so. -/
def discipline (ι : Type) [DecidableEq ι] : Discipline (machine ι) where
  Invariant shared _ := shared.Invariant
  Rely _ _ shared shared' := shared.Extends shared'
  Guarantee _ _ call shared _ _ := call.Entitled shared

theorem answer_of_machine {choice : Choice} {locals : ι → Unit} {call : Call}
    {reply : signature.Reply call} {own : Unit}
    (answered : (machine ι).answer choice index shared locals call = some (reply, shared', own)) :
    shared.answer choice index call = some (reply, shared') := by
  rcases Option.map_eq_some_iff.mp answered with ⟨⟨_, _⟩, answer, ⟨⟩⟩
  exact answer

theorem sound : (discipline ι).Sound where
  answer_invariant invariant answered entitled :=
    (invariant.answer entitled (answer_of_machine answered)).1
  answer_rely invariant answered entitled _ _ :=
    (invariant.answer entitled (answer_of_machine answered)).2
  environment_invariant invariant happened := (invariant.environment happened).1
  environment_rely invariant happened _ := (invariant.environment happened).2

theorem stable_true : (discipline ι).Stable index () fun _ => True :=
  fun _ _ _ holds => holds

theorem stable_batch (rows : List PendingOutboxRow) :
    (discipline ι).Stable index () (Batch rows) :=
  fun _ _ step batch => batch.extend step

theorem stable_confirmed (id : ℕ) :
    (discipline ι).Stable index () fun shared => shared.Confirmed id :=
  fun _ _ step confirmed => step.confirms confirmed

variable {α : Type}

/-- From any state the assertion allows, the program makes only calls it is entitled to. -/
def Safe (index : ι) (program : Program signature Failure α) (assertion : Shared ι → Prop) : Prop :=
  (discipline ι).Follows index (fun _ _ _ => True) program () assertion

theorem Safe.mono {program : Program signature Failure α} {assertion assertion' : Shared ι → Prop}
    (safe : Safe index program assertion)
    (entails : ∀ shared, assertion' shared → assertion shared) :
    Safe index program assertion' :=
  Discipline.Follows.weaken (fun _ _ => trivial) safe entails

theorem Safe.of_true {program : Program signature Failure α}
    (safe : Safe index program fun _ => True)
    (assertion : Shared ι → Prop) : Safe index program assertion :=
  safe.mono fun _ _ => trivial

theorem Safe.bind {β : Type} {program : Program signature Failure α}
    {next : α → Program signature Failure β} {assertion : Shared ι → Prop}
    (safe : Safe index program assertion) (rest : ∀ value, Safe index (next value) fun _ => True) :
    Safe index (program >>= next) assertion := by
  apply Discipline.follows_bind.mpr
  refine Discipline.Follows.mono safe fun outcome own asserted _ => ?_
  cases outcome with
  | ok value => exact (rest value).of_true asserted
  | error error => trivial

theorem Safe.tryCatch {program : Program signature Failure α}
    {handler : Failure → Program signature Failure α} {assertion : Shared ι → Prop}
    (safe : Safe index program assertion)
    (rest : ∀ error, Safe index (handler error) fun _ => True) :
    Safe index (tryCatch program handler) assertion := by
  apply Discipline.follows_tryCatch.mpr
  refine Discipline.Follows.mono safe fun outcome own asserted _ => ?_
  cases outcome with
  | ok value => trivial
  | error error => exact (rest error).of_true asserted

/-- A rule for one call: what was asserted lasts, and the reply may add to it. -/
theorem follows_call {leaf : Except Failure α → Unit → (Shared ι → Prop) → Prop} {call : Call}
    {resume : signature.Reply call → Program signature Failure α} {assertion : Shared ι → Prop}
    (entitled : ∀ shared, assertion shared → call.Entitled shared)
    (next : signature.Reply call → Shared ι → Prop)
    (stable : ∀ reply, (discipline ι).Stable index () (next reply))
    (established : ∀ {choice shared reply shared'}, shared.Invariant → assertion shared →
      shared.answer choice index call = some (reply, shared') → shared.Extends shared' →
      next reply shared')
    (rest : ∀ reply, (discipline ι).Follows index leaf (resume reply) () (next reply)) :
    (discipline ι).Follows index leaf (.call call resume) () assertion := by
  intro choice shared locals reply shared' own invariant _ asserted answered
  have answer := answer_of_machine answered
  have step := (invariant.answer (entitled shared asserted) answer).2
  exact ⟨entitled shared asserted, next reply, stable reply,
    established invariant asserted answer step, rest reply⟩

/-- A rule for a statement that only needs what was asserted, and leaves it standing. -/
theorem follows_query {statement : Statement}
    {leaf : Except Failure statement.Result → Unit → (Shared ι → Prop) → Prop}
    {assertion : Shared ι → Prop}
    (entitled : ∀ shared, assertion shared → (Call.statement statement).Entitled shared)
    (stable : (discipline ι).Stable index () assertion)
    (ok : ∀ result, leaf (.ok result) () assertion)
    (error : ∀ error, leaf (.error error) () assertion) :
    (discipline ι).Follows index leaf (query statement) () assertion := by
  refine follows_call entitled (fun _ => assertion) (fun _ => stable) ?_ ?_
  · exact fun _ asserted _ step => stable _ _ step asserted
  · rintro (failed | result)
    · exact error (.database failed)
    · exact ok result

/-- What a drain knows of its batch when its query is answered. -/
def Selected : Except DatabaseError (List PendingOutboxRow) → Shared ι → Prop
  | .ok rows => Batch rows
  | .error _ => fun _ => True

/-- What is selected is a batch to be published. -/
theorem follows_selectPending {limit : ℕ}
    {leaf : Except Failure (List PendingOutboxRow) → Unit → (Shared ι → Prop) → Prop}
    (ok : ∀ rows, leaf (.ok rows) () (Batch rows))
    (error : ∀ error, leaf (.error error) () fun _ => True) :
    (discipline ι).Follows index leaf (query (.selectPending limit)) () fun _ => True := by
  refine follows_call (fun _ _ => trivial) Selected ?_ ?_ ?_
  · rintro (failed | rows)
    · exact stable_true
    · exact stable_batch rows
  · intro choice shared reply shared' invariant _ answered _
    rcases choice with now | failed | refused
    · simp only [Shared.answer, Shared.execute, Option.some.injEq] at answered
      split at answered
      · next start marks opened =>
          cases answered
          exact .of_pending invariant (invariant.marks index start marks opened) limit
      · cases answered
        trivial
    · cases answered
      trivial
    · cases answered
  · rintro (failed | rows)
    · exact error (.database failed)
    · exact ok rows

/-- What a drain knows of its batch when the promise of a publish is settled. -/
def Settled (row : PendingOutboxRow) (rows : List PendingOutboxRow) :
    Except PublishError Unit → Shared ι → Prop
  | .ok () => fun shared => Batch (row :: rows) shared ∧ shared.Confirmed row.id
  | .error _ => Batch (row :: rows)

/-- The first row of a batch may be published, and is confirmed when its promise resolves. -/
theorem follows_sendToQueue {row : PendingOutboxRow} {rows : List PendingOutboxRow}
    {leaf : Except Failure Unit → Unit → (Shared ι → Prop) → Prop}
    (ok : leaf (.ok ()) () fun shared => Batch (row :: rows) shared ∧ shared.Confirmed row.id)
    (error : ∀ error, leaf (.error error) () (Batch (row :: rows))) :
    (discipline ι).Follows index leaf (sendToQueue row.id row.queue row.pattern row.payload) ()
      (Batch (row :: rows)) := by
  refine follows_call (fun _ batch => batch.warranted)
    (fun delivery : Delivery => fun shared =>
      Batch (row :: rows) shared ∧ delivery.origin = row.id) ?_ ?_ ?_
  · exact fun _ => (stable_batch _).and (Discipline.stable_const _ _ _ _)
  · intro choice shared delivery shared' _ batch answered step
    cases answered
    exact ⟨batch.extend step, rfl⟩
  · intro delivery
    refine follows_call (fun _ _ => trivial) (Settled row rows) ?_ ?_ ?_
    · rintro (refused | ⟨⟩)
      · exact stable_batch _
      · exact (stable_batch _).and (stable_confirmed row.id)
    · intro choice shared reply shared' _ asserted answered step
      rcases choice with now | failed | refused
      · simp only [Shared.answer, Option.ite_none_right_eq_some] at answered
        rcases answered with ⟨_, ⟨⟩⟩
        exact ⟨asserted.1.extend step, delivery,
          List.mem_append_right _ (List.mem_singleton.mpr rfl), asserted.2⟩
      · cases answered
      · cases answered
        exact asserted.1
    · rintro (refused | ⟨⟩)
      · exact error (.publish refused)
      · exact ok

theorem safe_publishRows (rows : List PendingOutboxRow) (sent : ℕ) :
    Safe index (publishRows sent rows) (Batch rows) := by
  induction rows generalizing sent with
  | nil => trivial
  | cons row rows ih =>
      apply Discipline.follows_bind.mpr
      apply Discipline.follows_tryCatch.mpr
      apply Discipline.follows_bind.mpr
      apply follows_sendToQueue
      · -- The row is confirmed, so it may be marked.
        apply Discipline.follows_bind.mpr
        refine follows_query (fun _ asserted => asserted.2)
          ((stable_batch _).and (stable_confirmed row.id)) (fun _ => ?_) (fun _ => trivial)
        exact (ih (sent + 1)).mono fun _ asserted => asserted.1.tail asserted.2
      · -- The first failure ends the loop.
        intro error
        exact follows_call (fun _ _ => trivial) (fun _ _ => True) (fun _ => stable_true)
          (fun _ _ _ _ => trivial) fun _ => trivial

theorem safe_query {statement : Statement}
    (entitled : ∀ shared : Shared ι, (Call.statement statement).Entitled shared) :
    Safe index (query statement) fun _ => True :=
  follows_query (fun shared _ => entitled shared) stable_true (fun _ => trivial) fun _ => trivial

/-- The statements that frame the work of a transaction need nothing. -/
theorem safe_transaction {work : Program signature Failure α}
    (safe : Safe index work fun _ => True) :
    Safe index (transaction work) fun _ => True := by
  apply Safe.tryCatch
  · refine Safe.bind (safe_query fun _ => trivial) fun _ => ?_
    refine Safe.bind safe fun result => ?_
    exact Safe.bind (safe_query fun _ => trivial) fun _ => trivial
  · intro error
    apply Safe.bind
    · exact Safe.tryCatch (safe_query fun _ => trivial) fun _ => trivial
    · exact fun _ => trivial

theorem safe_drain (batchSize : ℕ) : Safe index (drain batchSize) fun _ => True := by
  apply Safe.bind
  · apply safe_transaction
    refine Safe.bind (safe_query fun _ => trivial) fun locked => ?_
    split
    · trivial
    · apply Discipline.follows_bind.mpr
      apply follows_selectPending
      · exact fun rows => safe_publishRows rows 0
      · exact fun _ => trivial
  · rintro ⟨published, failure⟩
    cases failure with
    | none => trivial
    | some error => trivial

theorem holds_start (batchSize : ι → ℕ) :
    (discipline ι).Holds (fun _ _ _ _ => True) (start batchSize) := by
  refine ⟨Shared.invariant_initial, fun index => ⟨fun _ => True, stable_true, trivial, ?_⟩⟩
  exact Discipline.Follows.mono (safe_drain (batchSize index)) fun _ _ _ _ _ _ => trivial

variable {batchSize : ι → ℕ} {world next : Machine.World (machine ι) Failure ℕ}

/-- The invariant holds in every state the drains reach. -/
theorem invariant_reached (reached : Machine.Reaches (start batchSize) world) :
    world.shared.Invariant :=
  ((holds_start batchSize).reaches sound reached).1

/-- From one state of a run to a later one, rows stay committed and confirms are not taken back. -/
theorem extends_reached (reached : Machine.Reaches (start batchSize) world)
    (later : Machine.Reaches world next) : world.shared.Extends next.shared := by
  induction later with
  | refl => exact .refl _
  | tail before stepped ih =>
      have holds := (holds_start batchSize).reaches sound (reached.trans before)
      refine ih.trans (holds.shared_of_step ?_ ?_ stepped)
      · intro choice index shared locals call reply shared' own invariant answered entitled
        exact (invariant.answer entitled (answer_of_machine answered)).2
      · intro event shared locals shared' invariant happened
        exact (invariant.environment happened).2

end Drain

end Relay

end ProcessingCatalog
