import ProcessingCatalog.Library.Tally
import ProcessingCatalog.Messaging.RelayFaithful
import Mathlib.Algebra.BigOperators.Pi
import Mathlib.Algebra.GroupWithZero.Nat

/-!
# The books of the publishes

Every publish of a drain ends in a confirm or in one count of
`recordOutboxPublishFailure`, so at any moment the publishes attempted are the
confirms seen, the failures counted, and those whose drain has come to neither
yet. A drain stops at the first publish that fails: it counts that one and no
second one, so whoever is told of a failed publish finds it counted. What a
drain returns is the number of confirms it has seen.
-/

namespace ProcessingCatalog

open Effect

namespace Relay

/-- Where the latest publish of a drain stands, with the confirms the drain has seen. -/
inductive PublishPhase where
  /-- None is open, and none has failed. -/
  | clear (confirms : ℕ)
  | sent (confirms : ℕ)
  /-- Its promise was rejected. -/
  | refused (confirms : ℕ)
  /-- Its failure has been counted. -/
  | stopped (confirms : ℕ)

namespace PublishPhase

def Allows : PublishPhase → Call → Prop
  | .clear _, .statement _ => True
  | .clear _, .publish .. => True
  | .sent _, .awaitConfirm _ => True
  | .refused _, .recordOutboxPublishFailure => True
  | .stopped _, .statement _ => True
  | _, _ => False

/-- The drain has no publish open. -/
def Rests : PublishPhase → Prop
  | .clear _ => True
  | .stopped _ => True
  | _ => False

def confirms : PublishPhase → ℕ
  | .clear confirms => confirms
  | .sent confirms => confirms
  | .refused confirms => confirms
  | .stopped confirms => confirms

def after (phase : PublishPhase) : (call : Call) → signature.Reply call → PublishPhase
  | .statement _, _ => phase
  | .publish .., _ => .sent phase.confirms
  | .awaitConfirm _, .ok () => .clear (phase.confirms + 1)
  | .awaitConfirm _, .error _ => .refused phase.confirms
  | .recordOutboxPublishFailure, _ => .stopped phase.confirms

/-- Whether the latest publish is still to be confirmed or counted. -/
def isOpen : PublishPhase → Bool
  | .sent _ => true
  | .refused _ => true
  | _ => false

/-- Whether a failure has been counted. -/
def isStopped : PublishPhase → Bool
  | .stopped _ => true
  | _ => false

/-- The publishes of a drain, the confirms it has seen and the failures it has counted. -/
def weight (phase : PublishPhase) : ℕ × ℕ × ℕ :=
  (phase.confirms + phase.isStopped.toNat + phase.isOpen.toNat, phase.confirms,
    phase.isStopped.toNat)

end PublishPhase

section Exchanges

def isPublish : Exchange signature → Bool
  | ⟨.publish .., _⟩ => true
  | _ => false

def isConfirm : Exchange signature → Bool
  | ⟨.awaitConfirm _, .ok ()⟩ => true
  | _ => false

def isFailureCount : Exchange signature → Bool
  | ⟨.recordOutboxPublishFailure, _⟩ => true
  | _ => false

variable (exchanges : List (Exchange signature))

/-- The publishes among the calls of a drain. -/
def publishesIn : ℕ := exchanges.countP isPublish

/-- The confirms among the replies a drain was given. -/
def confirmsIn : ℕ := exchanges.countP isConfirm

/-- The failures among the calls of a drain that it has counted. -/
def failuresIn : ℕ := exchanges.countP isFailureCount

/-- What a call adds to the publishes, the confirms and the failures. -/
def entry (exchange : Exchange signature) : ℕ × ℕ × ℕ :=
  ((isPublish exchange).toNat, (isConfirm exchange).toNat, (isFailureCount exchange).toNat)

theorem sum_entry :
    (exchanges.map entry).sum =
      (publishesIn exchanges, confirmsIn exchanges, failuresIn exchanges) := by
  induction exchanges with
  | nil => rfl
  | cons exchange exchanges ih =>
      have counted (p : Exchange signature → Bool) :
          (p exchange).toNat + exchanges.countP p = (exchange :: exchanges).countP p := by
        cases isCounted : p exchange with
        | true => rw [List.countP_cons_of_pos isCounted, Bool.toNat_true, Nat.add_comm]
        | false =>
            rw [List.countP_cons_of_neg (by simp [isCounted]), Bool.toNat_false, Nat.zero_add]
      rw [List.map_cons, List.sum_cons, ih]
      exact Prod.ext (counted isPublish) (Prod.ext (counted isConfirm) (counted isFailureCount))

end Exchanges

/-- How a drain goes about its publishes. -/
def publishProtocol : Protocol signature where
  Phase := PublishPhase
  Allows := PublishPhase.Allows
  after := PublishPhase.after

/-- Where a drain may end. -/
def EndsIn (outcome : Except Failure ℕ) (phase : PublishPhase) : Prop :=
  match outcome with
  | .ok published => phase = .clear published
  | .error (.publish _) => ∃ confirms, phase = .stopped confirms
  | .error (.database _) => phase.Rests

/-- Where the work of a drain may end, and its transaction. -/
def WorkEndsIn (outcome : Except Failure (ℕ × Option Failure)) (phase : PublishPhase) : Prop :=
  match outcome with
  | .ok (sent, none) => phase = .clear sent
  | .ok (sent, some (.publish _)) => phase = .stopped sent
  | .ok (_, some (.database _)) => False
  | .error (.publish _) => False
  | .error (.database _) => phase.Rests

section Protocol

variable {phase : PublishPhase}

theorem obeys_query {statement : Statement}
    {leaf : Except Failure statement.Result → PublishPhase → Prop} (rests : phase.Rests)
    (ok : ∀ result, leaf (.ok result) phase)
    (error : ∀ error, leaf (.error (.database error)) phase) :
    (query statement).Obeys publishProtocol leaf phase := by
  refine ⟨?_, ?_⟩
  · cases phase with
    | clear | stopped => trivial
    | sent | refused => exact rests.elim
  · rintro (failed | result)
    · exact error failed
    · exact ok result

theorem obeys_sendToQueue (origin : ℕ) (queue pattern : JsString) (event : OutboxPayload)
    {confirms : ℕ} {leaf : Except Failure Unit → PublishPhase → Prop}
    (ok : leaf (.ok ()) (.clear (confirms + 1)))
    (error : ∀ error, leaf (.error (.publish error)) (.refused confirms)) :
    (sendToQueue origin queue pattern event).Obeys publishProtocol leaf
      (PublishPhase.clear confirms) := by
  refine ⟨trivial, fun delivery => ⟨trivial, ?_⟩⟩
  rintro (refused | ⟨⟩)
  · exact error refused
  · exact ok

/-- What the loop calls sent is what has been confirmed. -/
theorem obeys_publishRows (rows : List PendingOutboxRow) (sent : ℕ) :
    (publishRows sent rows).Obeys publishProtocol WorkEndsIn (PublishPhase.clear sent) := by
  induction rows generalizing sent with
  | nil => rfl
  | cons row rows ih =>
      refine Program.obeys_bind.mpr (Program.obeys_tryCatch.mpr (Program.obeys_bind.mpr ?_))
      apply obeys_sendToQueue
      · refine Program.obeys_bind.mpr (obeys_query trivial ?_ ?_)
        · exact fun _ => ih (sent + 1)
        · exact fun _ => trivial
      · exact fun error => ⟨trivial, fun _ => rfl⟩

/-- A drain that rolls back leaves its publishes as they are. -/
theorem obeys_rollback (error : DatabaseError) (rests : phase.Rests) :
    Program.Obeys publishProtocol WorkEndsIn
      (do
        tryCatch (query .rollbackTransaction) fun _ => return ()
        throw (.database error)) phase := by
  refine Program.obeys_bind.mpr (Program.obeys_tryCatch.mpr (obeys_query rests ?_ ?_))
  · exact fun _ => rests
  · exact fun _ => rests

theorem WorkEndsIn.rests {result : ℕ × Option Failure} (ends : WorkEndsIn (.ok result) phase) :
    phase.Rests := by
  rcases result with ⟨sent, _ | failed | refused⟩
  · cases (ends : phase = .clear sent)
    trivial
  · exact ends.elim
  · cases (ends : phase = .stopped sent)
    trivial

/-- The statements around the work of a drain are no publishes. -/
theorem obeys_transaction {work : Program signature Failure (ℕ × Option Failure)}
    (rests : phase.Rests) (obeys : work.Obeys publishProtocol WorkEndsIn phase) :
    (transaction work).Obeys publishProtocol WorkEndsIn phase := by
  refine Program.obeys_tryCatch.mpr (Program.obeys_bind.mpr (obeys_query rests ?_ ?_))
  · intro _
    refine Program.obeys_bind.mpr (obeys.mono ?_)
    rintro (error | result) phase ends
    · cases error with
      | database error => exact obeys_rollback error ends
      | publish error => exact ends.elim
    · refine Program.obeys_bind.mpr (obeys_query ends.rests (fun _ => ends) fun error => ?_)
      exact obeys_rollback error ends.rests
  · exact fun error => obeys_rollback error rests

theorem obeys_drain (batchSize : ℕ) :
    (drain batchSize).Obeys publishProtocol EndsIn (PublishPhase.clear 0) := by
  refine Program.obeys_bind.mpr ((obeys_transaction ?_ ?_).mono ?_)
  · trivial
  · refine Program.obeys_bind.mpr (obeys_query trivial ?_ ?_)
    · intro locked
      dsimp only
      split
      · rfl
      · refine Program.obeys_bind.mpr (obeys_query trivial ?_ ?_)
        · exact fun rows => obeys_publishRows rows 0
        · exact fun _ => trivial
    · exact fun _ => trivial
  · rintro (error | ⟨sent, _ | failed | refused⟩) phase ends
    · cases error with
      | database error => exact ends
      | publish error => exact ends.elim
    · exact ends
    · exact ends.elim
    · exact ⟨sent, ends⟩

end Protocol

/-- A call that is allowed adds its entry to what the phase weighs. -/
theorem weight_after (phase : PublishPhase) (exchange : Exchange signature)
    (allowed : phase.Allows exchange.1) :
    (phase.after exchange.1 exchange.2).weight = phase.weight + entry exchange := by
  rcases exchange with ⟨call, reply⟩
  cases call with
  | statement statement => rfl
  | publish origin queue message =>
      cases phase with
      | clear confirms => rfl
      | _ => exact allowed.elim
  | awaitConfirm delivery =>
      cases phase with
      | sent confirms =>
          rcases reply with refused | ⟨⟩
          · rfl
          · exact Prod.ext (Nat.add_right_comm _ _ _) rfl
      | _ => exact allowed.elim
  | recordOutboxPublishFailure =>
      cases phase with
      | refused confirms => exact Prod.ext (Nat.add_right_comm _ _ _) rfl
      | _ => exact allowed.elim

section Books

variable {ι : Type}

/-- The publishes so far, beside a first tag, the confirms seen and the failures counted. -/
def Shared.books (shared : Shared ι) : ℕ × ℕ × ℕ :=
  (shared.nextTag, shared.confirmed.length, shared.publishFailures)

variable [DecidableEq ι]

/-- A statement publishes nothing and sees no confirm. -/
theorem Shared.execute_books (shared : Shared ι) (now : Date) (index : ι) (statement : Statement) :
    (shared.execute now index statement).2.books = shared.books := by
  cases statement with
  | rollbackTransaction => rfl
  | tryAdvisoryXactLock key =>
      simp only [execute]
      split
      · split <;> rfl
      · rfl
  | _ =>
      simp only [execute]
      split <;> rfl

theorem Shared.environment_books {shared shared' : Shared ι} {event : Event ι}
    (changed : shared.environment event = some shared') : shared'.books = shared.books := by
  cases event with
  | rollback row | lose delivery =>
      cases changed
      rfl
  | abort index =>
      simp only [environment] at changed
      split at changed
      · cases changed
      · cases changed
        rfl
  | _ =>
      simp only [environment, Option.ite_none_right_eq_some] at changed
      rcases changed with ⟨_, ⟨⟩⟩
      rfl

/-- A call moves the books by its entry. -/
theorem counts_publishes : (machine ι).Counts Shared.books entry where
  answers := by
    intro choice index shared locals call reply shared' own replied
    rcases Option.map_eq_some_iff.mp replied with ⟨⟨_, _⟩, answered, ⟨⟩⟩
    cases call with
    | statement statement =>
        cases choice with
        | proceed now =>
            have executed : (shared.execute now index statement).2 = shared' :=
              congrArg Prod.snd (Option.some.inj answered)
            exact executed ▸ shared.execute_books now index statement
        | fail error =>
            cases answered
            unfold Shared.fail
            split <;> rfl
        | reject error => cases answered
    | publish origin queue message =>
        cases answered
        rfl
    | awaitConfirm delivery =>
        cases choice with
        | proceed now =>
            simp only [Shared.answer, Option.ite_none_right_eq_some] at answered
            rcases answered with ⟨_, ⟨⟩⟩
            exact Prod.ext rfl (Prod.ext List.length_append rfl)
        | reject error =>
            cases answered
            rfl
        | fail error => cases answered
    | recordOutboxPublishFailure =>
        cases answered
        rfl
  events := Shared.environment_books

end Books

/-- The latest publish of a drain is still to be confirmed, or its failure to be counted. -/
def isUnsettled : Program signature Failure ℕ → Bool
  | .call (.awaitConfirm _) _ => true
  | .call .recordOutboxPublishFailure _ => true
  | _ => false

/-- The drain has thrown the error of a publish. -/
def hasThrownPublishError : Program signature Failure ℕ → Bool
  | .throw (.publish _) => true
  | _ => false

/-- What the drain has returned, if it has. -/
def reported : Program signature Failure ℕ → Option ℕ
  | .pure published => some published
  | _ => none

section Reading

variable {program : Program signature Failure ℕ} {phase : PublishPhase}

theorem isOpen_of_obeys (obeys : program.Obeys publishProtocol EndsIn phase) :
    phase.isOpen = isUnsettled program := by
  cases program with
  | pure published =>
      cases (obeys : phase = .clear published)
      rfl
  | throw error =>
      cases error with
      | database error =>
          cases phase with
          | clear | stopped => rfl
          | sent | refused => exact (obeys : False).elim
      | publish error =>
          rcases (obeys : ∃ confirms, phase = .stopped confirms) with ⟨confirms, rfl⟩
          rfl
  | call call resume =>
      have allowed := obeys.1
      cases call <;> cases phase <;> first | rfl | exact allowed.elim

/-- A drain that has thrown the error of a publish has stopped there. -/
theorem isStopped_of_thrown (obeys : program.Obeys publishProtocol EndsIn phase)
    (thrown : hasThrownPublishError program) : phase.isStopped = true := by
  unfold hasThrownPublishError at thrown
  split at thrown
  · rcases (obeys : ∃ confirms, phase = .stopped confirms) with ⟨confirms, rfl⟩
    rfl
  · cases thrown

/-- What a drain has returned is what it has seen confirmed. -/
theorem reported_le_confirms (obeys : program.Obeys publishProtocol EndsIn phase) :
    (reported program).getD 0 ≤ phase.confirms ∧
      ((reported program).isSome → (reported program).getD 0 = phase.confirms) := by
  unfold reported
  split
  · next published =>
      cases (obeys : phase = .clear published)
      exact ⟨le_rfl, fun _ => rfl⟩
  · exact ⟨Nat.zero_le _, nofun⟩

end Reading

section Accounts

variable {ι : Type} [DecidableEq ι]

/-- What a drain has exchanged is what the phase it stands in weighs. -/
theorem exchanged_in_phase {batchSize : ι → ℕ} {world : Machine.World (machine ι) Failure ℕ}
    {actions : List (Machine.Action (machine ι))}
    (ran : Machine.runActions (start batchSize) actions = some world) (index : ι) :
    ∃ phase : PublishPhase, (world.programs index).Obeys publishProtocol EndsIn phase ∧
      phase.weight = (publishesIn (Machine.exchanges (start batchSize) index actions),
        confirmsIn (Machine.exchanges (start batchSize) index actions),
        failuresIn (Machine.exchanges (start batchSize) index actions)) := by
  have obeys : ((start batchSize).programs index).Obeys publishProtocol EndsIn
      (PublishPhase.clear 0) := obeys_drain (batchSize index)
  rcases Machine.obeys_afterAll obeys ran with ⟨allowed, later⟩
  refine ⟨_, later, (Protocol.weight_afterAll weight_after allowed).trans ?_⟩
  rw [sum_entry]
  exact zero_add _

variable [Fintype ι]

/-- The books of the relay agree with what each drain has exchanged, what it is at and what it has
told. -/
structure Accounted (exchanges : ι → List (Exchange signature))
    (world : Machine.World (machine ι) Failure ℕ) : Prop where
  /-- Each publish is confirmed, counted as a failure, or neither yet. Tags start at 1. -/
  publishes : world.shared.nextTag = 1 + world.shared.confirmed.length +
    world.shared.publishFailures + ∑ index, (isUnsettled (world.programs index)).toNat
  confirms : world.shared.confirmed.length = ∑ index, confirmsIn (exchanges index)
  failures : world.shared.publishFailures = ∑ index, failuresIn (exchanges index)
  own : ∀ index, publishesIn (exchanges index) = confirmsIn (exchanges index) +
    failuresIn (exchanges index) + (isUnsettled (world.programs index)).toNat
  /-- A drain that throws the error of a publish has counted it. -/
  thrown : ∀ index, hasThrownPublishError (world.programs index) →
    failuresIn (exchanges index) = 1
  /-- No drain counts two failures. -/
  once : ∀ index, failuresIn (exchanges index) ≤ 1
  /-- A drain that returns has counted none, and returns the confirms it has seen. -/
  returned : ∀ index published, world.programs index = .pure published →
    failuresIn (exchanges index) = 0 ∧ confirmsIn (exchanges index) = published
  told : ∑ index, (reported (world.programs index)).getD 0 ≤ world.shared.confirmed.length
  toldAll : (∀ index, (reported (world.programs index)).isSome) →
    ∑ index, (reported (world.programs index)).getD 0 = world.shared.confirmed.length

/-- After any run of any number of drains, whatever becomes of their publishes and of their
transactions, the books of the relay agree. -/
theorem publishes_accounted (batchSize : ι → ℕ) {world : Machine.World (machine ι) Failure ℕ}
    {actions : List (Machine.Action (machine ι))}
    (ran : Machine.runActions (start batchSize) actions = some world) :
    Accounted (fun index => Machine.exchanges (start batchSize) index actions) world := by
  choose phases obeys weights using exchanged_in_phase ran
  simp only [PublishPhase.weight, Prod.mk.injEq] at weights
  have sums : world.shared.books = (1, 0, 0) +
      (∑ index, publishesIn (Machine.exchanges (start batchSize) index actions),
        ∑ index, confirmsIn (Machine.exchanges (start batchSize) index actions),
        ∑ index, failuresIn (Machine.exchanges (start batchSize) index actions)) := by
    have counted := counts_publishes.run ran
    simp only [sum_entry] at counted
    rw [prod_mk_sum, prod_mk_sum]
    exact counted
  simp only [Shared.books, Prod.mk_add_mk, Prod.mk.injEq, zero_add] at sums
  rcases sums with ⟨publishes, confirms, failures⟩
  have own (index : ι) : publishesIn (Machine.exchanges (start batchSize) index actions) =
      confirmsIn (Machine.exchanges (start batchSize) index actions) +
        failuresIn (Machine.exchanges (start batchSize) index actions) +
        (isUnsettled (world.programs index)).toNat := by
    rcases weights index with ⟨weighed, confirmed, failed⟩
    rw [← weighed, confirmed, failed, isOpen_of_obeys (obeys index)]
  refine {
    publishes := ?_, confirms := confirms, failures := failures, own := own, thrown := ?_,
    once := ?_, returned := ?_, told := ?_, toldAll := ?_ }
  · rw [publishes, confirms, failures, Finset.sum_congr rfl fun index _ => own index,
      Finset.sum_add_distrib, Finset.sum_add_distrib]
    omega
  · intro index thrown
    rw [← (weights index).2.2, isStopped_of_thrown (obeys index) thrown]
    rfl
  · intro index
    rw [← (weights index).2.2]
    exact Bool.toNat_le _
  · intro index published returned
    have ends := obeys index
    rw [returned] at ends
    rcases weights index with ⟨_, confirmed, failed⟩
    rw [← confirmed, ← failed, (ends : phases index = .clear published)]
    exact ⟨rfl, rfl⟩
  · rw [confirms]
    refine Finset.sum_le_sum fun index _ => ?_
    rw [← (weights index).2.1]
    exact (reported_le_confirms (obeys index)).1
  · intro all
    rw [confirms]
    refine Finset.sum_congr rfl fun index _ => ?_
    rw [← (weights index).2.1]
    exact (reported_le_confirms (obeys index)).2 (all index)

end Accounts

theorem publishes_accounted_outOfOrderCommits :
    ∃ world : Machine.World (machine (Fin 2)) Failure ℕ, world.shared.books = (3, 1, 1) ∧
      reported (world.programs 0) = some 1 ∧ hasThrownPublishError (world.programs 1) ∧
      Accounted (fun index => Machine.exchanges (start fun _ => 50) index outOfOrderCommits)
        world := by
  have ran : ((Machine.runActions (start fun _ => 50) outOfOrderCommits).map fun world =>
      (world.shared.books, reported (world.programs 0),
        hasThrownPublishError (world.programs 1))) = some ((3, 1, 1), some 1, true) := by
    decide +kernel
  rcases Option.map_eq_some_iff.mp ran with ⟨world, reached, observed⟩
  rcases Prod.mk.inj observed with ⟨books, observed⟩
  rcases Prod.mk.inj observed with ⟨first, second⟩
  exact ⟨world, books, first, second, publishes_accounted (fun _ => 50) reached⟩

end Relay

end ProcessingCatalog
