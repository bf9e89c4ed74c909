import ProcessingCatalog.Messaging.OutboxRelay
import Mathlib.Tactic.Ring

/-!
# A drain that runs alone

One drain after another over an outbox nobody writes to, each getting the lock,
with a verdict of the broker on every publish. The loop stops at the first
verdict against it; what it leaves is computed here from the number of rows
confirmed before that.
-/

namespace ProcessingCatalog

open Effect

namespace Relay

/-- The answer to a call when nothing but this drain runs and no statement fails. The broker
settles the publish with tag `tag` by `verdict tag`, an error or none, and confirms nothing that
was not published. -/
def answerAlone (verdict : ℕ → Option PublishError) (now : Date) (shared : Shared Unit) :
    (call : Call) → signature.Reply call × Shared Unit
  | .statement statement => shared.execute now () statement
  | .publish origin queue message =>
      let delivery : Delivery := ⟨shared.nextTag, origin, queue, message⟩
      (delivery, { shared with
        nextTag := shared.nextTag + 1
        inFlight := shared.inFlight ++ [delivery] })
  | .awaitConfirm delivery =>
      match verdict delivery.tag with
      | none =>
          if delivery ∈ shared.inFlight then
            (.ok (), { shared with
              received := shared.received ++ [delivery]
              confirmed := shared.confirmed ++ [delivery] })
          else
            (.error .timeout, shared)
      | some error => (.error error, shared)
  | .recordOutboxPublishFailure =>
      ((), { shared with publishFailures := shared.publishFailures + 1 })

/-- The drains that start at these times, one after another: what each of them returns or throws,
and what the last of them leaves. -/
def drainAll (verdict : ℕ → Option PublishError) (batchSize : ℕ) :
    List Date → Shared Unit → List (Except Failure ℕ) × Shared Unit
  | [], shared => ([], shared)
  | now :: later, shared =>
      let (outcome, shared') := (drain batchSize).run (answerAlone verdict now) shared
      let (outcomes, shared'') := drainAll verdict batchSize later shared'
      (outcome :: outcomes, shared'')

/-- How many of `count` publishes in a row succeed, from the tag `tag` on, and the error that
ends them before the last, if any. -/
def attempts (verdict : ℕ → Option PublishError) : ℕ → ℕ → ℕ × Option PublishError
  | _, 0 => (0, none)
  | tag, count + 1 =>
      match verdict tag with
      | some error => (0, some error)
      | none =>
          let (confirmed, error) := attempts verdict (tag + 1) count
          (confirmed + 1, error)

/-- The publishes of these rows, from the tag `tag` on. -/
def deliveries : ℕ → List OutboxRow → List Delivery
  | _, [] => []
  | tag, row :: rows =>
      ⟨tag, row.id, row.entry.route.queue, ⟨row.entry.route.pattern, row.entry.payload⟩⟩ ::
        deliveries (tag + 1) rows

section Attempts

variable {verdict : ℕ → Option PublishError}

/-- Without an error among them, all publishes succeed. -/
theorem attempts_of_confirmed {tag count : ℕ} (every : ∀ i < count, verdict (tag + i) = none) :
    attempts verdict tag count = (count, none) := by
  induction count generalizing tag with
  | zero => rfl
  | succ count ih =>
      have first : verdict tag = none := every 0 (Nat.succ_pos count)
      have rest : attempts verdict (tag + 1) count = (count, none) := by
        apply ih
        intro i below
        have verdict := every (i + 1) (Nat.succ_lt_succ below)
        rwa [show tag + 1 + i = tag + (i + 1) by omega]
      simp only [attempts, first, rest]

/-- The first error ends the publishes. -/
theorem attempts_of_refused {tag count i : ℕ} {error : PublishError} (below : i < count)
    (before : ∀ j < i, verdict (tag + j) = none) (refused : verdict (tag + i) = some error) :
    attempts verdict tag count = (i, some error) := by
  induction count generalizing tag i with
  | zero => omega
  | succ count ih =>
      cases i with
      | zero =>
          rw [Nat.add_zero] at refused
          simp only [attempts, refused]
      | succ i =>
          have first : verdict tag = none := before 0 (Nat.succ_pos i)
          have rest : attempts verdict (tag + 1) count = (i, some error) := by
            apply ih (Nat.lt_of_succ_lt_succ below)
            · intro j later
              have verdict := before (j + 1) (Nat.succ_lt_succ later)
              rwa [show tag + 1 + j = tag + (j + 1) by omega]
            · rwa [show tag + 1 + i = tag + (i + 1) by omega]
          simp only [attempts, first, rest]

/-- An error is that of the attempt after the successful ones. -/
theorem attempts_error {tag count confirmed : ℕ} {error : PublishError}
    (attempted : attempts verdict tag count = (confirmed, some error)) :
    confirmed < count ∧ verdict (tag + confirmed) = some error := by
  induction count generalizing tag confirmed with
  | zero => cases attempted
  | succ count ih =>
      rw [attempts] at attempted
      split at attempted
      · next refused =>
          cases attempted
          exact ⟨Nat.succ_pos count, refused⟩
      · rcases rest : attempts verdict (tag + 1) count with ⟨confirmed', error'⟩
        rw [rest] at attempted
        cases attempted
        rcases ih rest with ⟨below, refused⟩
        refine ⟨Nat.succ_lt_succ below, ?_⟩
        rwa [show tag + (confirmed' + 1) = tag + 1 + confirmed' by omega]

theorem attempts_confirmed {tag count confirmed : ℕ}
    (attempted : attempts verdict tag count = (confirmed, none)) : confirmed = count := by
  induction count generalizing tag confirmed with
  | zero =>
      cases attempted
      rfl
  | succ count ih =>
      rw [attempts] at attempted
      split at attempted
      · cases attempted
      · rcases rest : attempts verdict (tag + 1) count with ⟨confirmed', error'⟩
        rw [rest] at attempted
        cases attempted
        rw [ih rest]

end Attempts

/-- What the loop leaves when `confirmed` of the rows were confirmed and the publish of the next
failed, or of none did. -/
def afterRows (shared : Shared Unit) (start : Date) (marks : List ℕ) (rows : List OutboxRow)
    (confirmed : ℕ) (failed : Bool) : Shared Unit :=
  let tried := confirmed + failed.toNat
  { shared with
    transactions := fun _ => .opened start (marks ++ (rows.take confirmed).map OutboxRow.id)
    nextTag := shared.nextTag + tried
    inFlight := shared.inFlight ++ deliveries shared.nextTag (rows.take tried)
    received := shared.received ++ deliveries shared.nextTag (rows.take confirmed)
    confirmed := shared.confirmed ++ deliveries shared.nextTag (rows.take confirmed)
    publishFailures := shared.publishFailures + failed.toNat }

variable {verdict : ℕ → Option PublishError} (now : Date)

theorem run_query (shared : Shared Unit) (statement : Statement) :
    (query statement).run (answerAlone verdict now) shared =
      ((shared.execute now () statement).1.mapError .database,
        (shared.execute now () statement).2) := by
  rcases executed : shared.execute now () statement with ⟨reply, shared'⟩
  cases reply <;> simp [query, Program.run, answerAlone, executed, Except.mapError]

/-- The publish of a row, in the state it is handed to the broker in. -/
def handOver (shared : Shared Unit) (delivery : Delivery) : Shared Unit :=
  { shared with nextTag := shared.nextTag + 1, inFlight := shared.inFlight ++ [delivery] }

/-- The same, and the broker confirms it. -/
def handOverConfirmed (shared : Shared Unit) (delivery : Delivery) : Shared Unit :=
  { handOver shared delivery with
    received := shared.received ++ [delivery]
    confirmed := shared.confirmed ++ [delivery] }

theorem run_sendToQueue_confirmed {shared : Shared Unit} (confirmed : verdict shared.nextTag = none)
    (origin : ℕ) (queue pattern : JsString) (event : OutboxPayload) :
    (sendToQueue origin queue pattern event).run (answerAlone verdict now) shared =
      (.ok (), handOverConfirmed shared ⟨shared.nextTag, origin, queue, ⟨pattern, event⟩⟩) := by
  simp only [sendToQueue, Program.run, answerAlone, confirmed, List.mem_append,
    List.mem_singleton, or_true, if_true]
  rfl

theorem run_sendToQueue_refused {shared : Shared Unit} {error : PublishError}
    (refused : verdict shared.nextTag = some error) (origin : ℕ) (queue pattern : JsString)
    (event : OutboxPayload) :
    (sendToQueue origin queue pattern event).run (answerAlone verdict now) shared =
      (.error (.publish error),
        handOver shared ⟨shared.nextTag, origin, queue, ⟨pattern, event⟩⟩) := by
  simp only [sendToQueue, Program.run, answerAlone, refused]
  rfl

/-- What a row confirmed and marked leaves to the rest of the loop. -/
theorem afterRows_cons (shared : Shared Unit) (start : Date) (marks : List ℕ) (row : OutboxRow)
    (rows : List OutboxRow) (confirmed : ℕ) (failed : Bool) :
    let delivery : Delivery :=
      ⟨shared.nextTag, row.id, row.entry.route.queue, ⟨row.entry.route.pattern, row.entry.payload⟩⟩
    afterRows
        { handOverConfirmed shared delivery with
          transactions := fun _ => .opened start (marks ++ [row.id]) }
        start (marks ++ [row.id]) rows confirmed failed =
      afterRows shared start marks (row :: rows) (confirmed + 1) failed := by
  have tried : confirmed + 1 + failed.toNat = confirmed + failed.toNat + 1 := by omega
  have tag : shared.nextTag + 1 + (confirmed + failed.toNat) =
      shared.nextTag + (confirmed + failed.toNat + 1) := by omega
  simp only [afterRows, handOverConfirmed, handOver, tried, tag, List.take_succ_cons, deliveries,
    List.map_cons, List.append_assoc, List.cons_append, List.nil_append]

theorem run_markPublished (shared : Shared Unit) {start : Date} {marks : List ℕ}
    (opened : shared.transactions = fun _ => .opened start marks) (id : ℕ) :
    (query (.markPublished id)).run (answerAlone verdict now) shared =
      (.ok (), { shared with transactions := fun _ => .opened start (marks ++ [id]) }) := by
  rw [run_query]
  simp only [Shared.execute, opened, Except.mapError, Shared.setTransaction]
  congr 2

/-- The loop publishes the rows up to the first failure. -/
theorem run_publishRows (rows : List OutboxRow) {shared : Shared Unit} {sent confirmed : ℕ}
    {start : Date} {marks : List ℕ} {error : Option PublishError}
    (opened : shared.transactions = fun _ => .opened start marks)
    (attempted : attempts verdict shared.nextTag rows.length = (confirmed, error)) :
    (publishRows sent (rows.map .ofRow)).run (answerAlone verdict now) shared =
      (.ok (sent + confirmed, error.map .publish),
        afterRows shared start marks rows confirmed error.isSome) := by
  induction rows generalizing shared sent marks confirmed error with
  | nil =>
      cases attempted
      simp [publishRows, afterRows, deliveries, ← opened]
  | cons row rows ih =>
      let pending := PendingOutboxRow.ofRow row
      rw [List.length_cons, attempts] at attempted
      cases verdictEq : verdict shared.nextTag with
      | some refusal =>
          rw [verdictEq] at attempted
          cases attempted
          have published := run_sendToQueue_refused now verdictEq pending.id pending.queue
            pending.pattern pending.payload
          rw [List.map_cons, publishRows, Program.run_bind, Program.run_tryCatch,
            Program.run_bind_of_error published]
          simp [recordOutboxPublishFailure, Program.run, answerAlone, handOver, afterRows,
            deliveries, opened, pending, PendingOutboxRow.ofRow]
      | none =>
          rw [verdictEq] at attempted
          rcases rest : attempts verdict (shared.nextTag + 1) rows.length with ⟨confirmed', error'⟩
          rw [rest] at attempted
          cases attempted
          let delivery : Delivery :=
            ⟨shared.nextTag, row.id, row.entry.route.queue,
              ⟨row.entry.route.pattern, row.entry.payload⟩⟩
          let middle : Shared Unit :=
            { handOverConfirmed shared delivery with
              transactions := fun _ => .opened start (marks ++ [row.id]) }
          have published := run_sendToQueue_confirmed now verdictEq pending.id
            pending.queue pending.pattern pending.payload
          have marked : (query (.markPublished row.id)).run (answerAlone verdict now)
              (handOverConfirmed shared delivery) = (.ok (), middle) :=
            run_markPublished now (handOverConfirmed shared delivery) opened row.id
          have later := @ih middle (sent + 1) confirmed' (marks ++ [row.id]) error rfl rest
          rw [List.map_cons, publishRows, Program.run_bind, Program.run_tryCatch,
            Program.run_bind_of_ok published]
          refine (Program.run_bind_of_ok marked _).trans (later.trans ?_)
          rw [afterRows_cons, Nat.add_assoc, Nat.add_comm 1 confirmed']

theorem run_transaction {α : Type} {work : Program signature Failure α} {value : α}
    {shared begun worked committed : Shared Unit}
    (start : (query .startTransaction).run (answerAlone verdict now) shared = (.ok (), begun))
    (ran : work.run (answerAlone verdict now) begun = (.ok value, worked))
    (commit : (query .commitTransaction).run (answerAlone verdict now) worked =
      (.ok (), committed)) :
    (transaction work).run (answerAlone verdict now) shared = (.ok value, committed) := by
  refine Program.run_tryCatch_of_ok ?_ _
  rw [Program.run_bind_of_ok start, Program.run_bind_of_ok ran, Program.run_bind_of_ok commit]
  rfl

/-- A lock that was free is free again when its holder's transaction ends. -/
theorem release_locked (shared : Shared Unit) {key : ℤ} (unlocked : shared.locks key = none)
    (left : Transaction) :
    { shared with
      locks := Function.update shared.locks key (some ()) : Shared Unit }.release () left =
      shared.release () left := by
  simp only [Shared.release, Shared.setTransaction, Shared.mk.injEq, true_and]
  refine ⟨?_, trivial⟩
  funext other
  rcases eq_or_ne other key with rfl | different
  · simp only [Function.update_self, if_true, unlocked, reduceCtorEq, if_false]
  · simp only [Function.update_of_ne different]

/-- Nothing is open and the lock is free. -/
def Free (shared : Shared Unit) : Prop :=
  shared.transactions () = .idle ∧ shared.locks outboxRelayLockKey = none

/-- What a drain leaves that confirmed `confirmed` of these rows. -/
def afterDrain (shared : Shared Unit) (rows : List OutboxRow) (confirmed : ℕ) (failed : Bool) :
    Shared Unit :=
  let left := afterRows shared now [] rows confirmed failed
  (left.release () .idle).commitMarks now ((rows.take confirmed).map OutboxRow.id)

/-- A drain that gets the lock publishes its batch up to the first failure, commits the marks and
throws that failure. -/
theorem run_drain {shared : Shared Unit} (free : Free shared) {batchSize confirmed : ℕ}
    {error : Option PublishError} {rows : List OutboxRow}
    (batch : rows = (shared.pending []).take batchSize)
    (attempted : attempts verdict shared.nextTag rows.length = (confirmed, error)) :
    (drain batchSize).run (answerAlone verdict now) shared =
      (match error with
        | none => .ok confirmed
        | some refusal => .error (.publish refusal),
        afterDrain now shared rows confirmed error.isSome) := by
  rcases free with ⟨idle, unlocked⟩
  let begun : Shared Unit := { shared with transactions := fun _ => .opened now [] }
  let locked : Shared Unit :=
    { begun with locks := Function.update shared.locks outboxRelayLockKey (some ()) }
  have started : (query .startTransaction).run (answerAlone verdict now) shared =
      (.ok (), begun) := by
    rw [run_query]
    simp only [Shared.execute, idle, Except.mapError, Shared.setTransaction]
    rfl
  have gotLock : (query (.tryAdvisoryXactLock outboxRelayLockKey)).run
      (answerAlone verdict now) begun = (.ok true, locked) := by
    rw [run_query]
    simp only [Shared.execute, begun, unlocked, Except.mapError]
    rfl
  have selected : (query (.selectPending batchSize)).run (answerAlone verdict now) locked =
      (.ok (rows.map .ofRow), locked) := by
    rw [run_query, batch]
    rfl
  have published : (publishRows 0 (rows.map .ofRow)).run (answerAlone verdict now) locked =
      (.ok (0 + confirmed, error.map .publish),
        afterRows locked now [] rows confirmed error.isSome) :=
    run_publishRows now rows rfl attempted
  have released : (afterRows locked now [] rows confirmed error.isSome).release () .idle =
      (afterRows shared now [] rows confirmed error.isSome).release () .idle :=
    release_locked (afterRows shared now [] rows confirmed error.isSome) unlocked .idle
  have committed : (query .commitTransaction).run (answerAlone verdict now)
      (afterRows locked now [] rows confirmed error.isSome) =
        (.ok (), afterDrain now shared rows confirmed error.isSome) := by
    rw [run_query, afterDrain, ← released]
    rfl
  have worked : (do
      let locked ← query (.tryAdvisoryXactLock outboxRelayLockKey)
      if ¬ locked then
        return (0, none)
      let rows ← query (.selectPending batchSize)
      publishRows 0 rows).run (answerAlone verdict now) begun =
        (.ok (0 + confirmed, error.map .publish),
          afterRows locked now [] rows confirmed error.isSome) :=
    (Program.run_bind_of_ok gotLock _).trans ((Program.run_bind_of_ok selected _).trans published)
  have transacted := run_transaction now started worked committed
  refine (Program.run_bind_of_ok transacted _).trans ?_
  rw [Nat.zero_add]
  cases error <;> rfl

/-- The marks of a transaction, committed, are what its own reads saw before. -/
theorem pending_commitMarks {ι : Type} (shared : Shared ι) (start : Date) (marks : List ℕ) :
    (shared.commitMarks start marks).pending [] = shared.pending marks := by
  have kept : ∀ row ∈ shared.pending marks, Shared.mark start marks row = row := by
    intro row rowMem
    have selected := (List.mem_filter.mp rowMem).2
    simp only [decide_eq_true_eq] at selected
    rw [Shared.mark, if_neg selected.2]
  have selects : ∀ row : OutboxRow,
      (Shared.mark start marks row).publishedAt = none ∧ (Shared.mark start marks row).id ∉ [] ↔
        row.publishedAt = none ∧ row.id ∉ marks := by
    intro row
    unfold Shared.mark
    split <;> simp_all
  rw [Shared.pending, Shared.commitMarks, SortedTable.mapRows, List.filter_map]
  simp only [Function.comp_def, selects]
  exact (List.map_congr_left kept).trans (List.map_id _)

theorem pending_eq_filter {ι : Type} (shared : Shared ι) (marks : List ℕ) :
    shared.pending marks = (shared.pending []).filter fun row => row.id ∉ marks := by
  simp [Shared.pending, List.filter_filter, Bool.and_comm]

/-- Without the rows a drain has marked, the rest of the pending rows is left. -/
theorem pending_marks {ι : Type} (shared : Shared ι) (count : ℕ) :
    shared.pending (((shared.pending []).take count).map OutboxRow.id) =
      (shared.pending []).drop count := by
  have sorted : (shared.pending []).Pairwise fun left right => left.id < right.id :=
    shared.outbox.sorted.filter _
  rw [pending_eq_filter, SortedTable.filter_key_not_mem_take sorted count]

end Relay

end ProcessingCatalog
