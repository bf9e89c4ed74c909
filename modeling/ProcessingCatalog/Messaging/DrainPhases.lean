import ProcessingCatalog.Messaging.RelayVerified

/-!
# The phases of a drain that meets no failure

Where a drain stands when every statement succeeds and every publish is
confirmed. A phase fixes what remains of the program, so the calls of such a
drain can be followed phase by phase, whatever the other drains do in between.
-/

namespace ProcessingCatalog

open Effect

namespace Relay

/-- The rest of a drain whose transaction is open, with `work` still to do in it. -/
def finishing (work : Program signature Failure (ℕ × Option Failure)) :
    Program signature Failure ℕ := do
  let (published, failure) ←
    tryCatch
      (do
        let result ← work
        query .commitTransaction
        return result)
      (fun error => do
        tryCatch (query .rollbackTransaction) fun _ => return ()
        throw error)
  match failure with
  | some error => throw error
  | none => return published

/-- What is left of `sendToQueue` once the message is in flight. -/
def awaitConfirm (delivery : Delivery) : Program signature Failure Unit :=
  .call (.awaitConfirm delivery) fun
    | .ok () => .pure ()
    | .error error => .throw (.publish error)

theorem sendToQueue_eq (origin : ℕ) (queue pattern : JsString) (event : OutboxPayload) :
    sendToQueue origin queue pattern event =
      .call (.publish origin queue ⟨pattern, event⟩) awaitConfirm := by
  refine congrArg (Program.call _) (funext fun delivery => ?_)
  refine congrArg (Program.call _) (funext fun reply => ?_)
  rcases reply with error | ⟨⟩ <;> rfl

/-- Where a drain stands. -/
inductive Phase where
  | ready (batchSize : ℕ)
  | begun (batchSize : ℕ)
  /-- Another drain holds the lock. -/
  | declined
  | locked (batchSize : ℕ)
  /-- `rows` are still to be published. -/
  | publishing (sent : ℕ) (rows : List PendingOutboxRow)
  | awaiting (sent : ℕ) (delivery : Delivery) (row : PendingOutboxRow)
      (rows : List PendingOutboxRow)
  | marking (sent : ℕ) (row : PendingOutboxRow) (rows : List PendingOutboxRow)
  | finished (published : ℕ)

namespace Phase

/-- What a drain has still to do. -/
def program : Phase → Program signature Failure ℕ
  | .ready batchSize => drain batchSize
  | .begun batchSize => finishing do
      let locked ← query (.tryAdvisoryXactLock outboxRelayLockKey)
      if ¬ locked then
        return (0, none)
      let rows ← query (.selectPending batchSize)
      publishRows 0 rows
  | .declined => finishing (return (0, none))
  | .locked batchSize => finishing do
      let rows ← query (.selectPending batchSize)
      publishRows 0 rows
  | .publishing sent rows => finishing (publishRows sent rows)
  | .awaiting sent delivery row rows => finishing do
      let failure ←
        tryCatch
          (do
            awaitConfirm delivery
            return none)
          (fun error => do
            recordOutboxPublishFailure
            return some error)
      match failure with
      | some error => return (sent, some error)
      | none =>
          query (.markPublished row.id)
          publishRows (sent + 1) rows
  | .marking sent row rows => finishing do
      query (.markPublished row.id)
      publishRows (sent + 1) rows
  | .finished published => .pure published

/-- How many rows a drain has handed to the broker. -/
def handed : Phase → ℕ
  | .publishing sent _ => sent
  | .awaiting sent _ _ _ => sent + 1
  | .marking sent _ _ => sent + 1
  | .finished published => published
  | _ => 0

/-- The row handed to the broker that is not marked yet. -/
def unmarked : Phase → List ℕ
  | .awaiting _ _ row _ => [row.id]
  | .marking _ row _ => [row.id]
  | _ => []

/-- The rows a drain has still to hand to the broker. -/
def remaining : Phase → List PendingOutboxRow
  | .publishing _ rows => rows
  | .awaiting _ _ _ rows => rows
  | .marking _ _ rows => rows
  | _ => []

/-- Whether a drain is past the lock. -/
def Inside : Phase → Prop
  | .locked _ => True
  | .publishing .. => True
  | .awaiting .. => True
  | .marking .. => True
  | _ => False

/-- Whether the transaction of a drain is open. -/
def Running : Phase → Prop
  | .ready _ => False
  | .finished _ => False
  | _ => True

instance : DecidablePred Inside := fun phase => by
  cases phase <;> unfold Inside <;> infer_instance

/-- What a call of a drain leads to, by the reply. -/
inductive Next : Phase → (call : Call) → signature.Reply call → Phase → Prop where
  | start (batchSize) :
      Next (.ready batchSize) (.statement .startTransaction) (.ok ()) (.begun batchSize)
  | lock (batchSize) :
      Next (.begun batchSize) (.statement (.tryAdvisoryXactLock outboxRelayLockKey)) (.ok true)
        (.locked batchSize)
  | decline (batchSize) :
      Next (.begun batchSize) (.statement (.tryAdvisoryXactLock outboxRelayLockKey)) (.ok false)
        .declined
  | select (batchSize rows) :
      Next (.locked batchSize) (.statement (.selectPending batchSize)) (.ok rows)
        (.publishing 0 rows)
  | publish (sent row rows delivery) :
      Next (.publishing sent (row :: rows)) (.publish row.id row.queue ⟨row.pattern, row.payload⟩)
        delivery (.awaiting sent delivery row rows)
  | confirm (sent delivery row rows) :
      Next (.awaiting sent delivery row rows) (.awaitConfirm delivery) (.ok ())
        (.marking sent row rows)
  | mark (sent row rows) :
      Next (.marking sent row rows) (.statement (.markPublished row.id)) (.ok ())
        (.publishing (sent + 1) rows)
  | commit (sent) :
      Next (.publishing sent []) (.statement .commitTransaction) (.ok ()) (.finished sent)
  | leave : Next .declined (.statement .commitTransaction) (.ok ()) (.finished 0)

/-- The program of a phase makes the call of the phase, and goes on with the program of the next. -/
theorem Next.resume {phase next : Phase} {call : Call} {reply : signature.Reply call}
    (leads : Next phase call reply next) {request : Call}
    {resume : signature.Reply request → Program signature Failure ℕ}
    (running : phase.program = .call request resume) :
    ∃ same : request = call, resume (same ▸ reply) = next.program := by
  cases leads with
  | publish sent row rows =>
      simp only [program, publishRows, sendToQueue_eq] at running
      cases running
      exact ⟨rfl, rfl⟩
  | _ =>
      cases running
      exact ⟨rfl, rfl⟩

end Phase

end Relay

end ProcessingCatalog
