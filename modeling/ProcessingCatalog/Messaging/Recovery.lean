import ProcessingCatalog.Messaging.DrainInOrder
import ProcessingCatalog.Messaging.RelayCoordinated
import ProcessingCatalog.Messaging.System
import ProcessingCatalog.Persistence.Progress

/-!
# Every event can still be delivered

Whatever has failed so far, the service can go on: the calls under way are
answered, a drain under way runs to its end or its transaction is ended by the
server, and the drains after it find the lock free and publish every row the
calls have committed. A drain that nobody disturbs sees the shared state as a
drain alone does, so what it leaves is what is known of a drain alone.
-/

namespace ProcessingCatalog

open Effect

namespace Relay

variable {κ : Type} [DecidableEq κ]

/-- A drain that waits for a confirm waits for that of a lost message. -/
def WaitsInVain (world : Machine.World (machine κ) Failure ℕ) (index : κ) : Prop :=
  ∀ delivery resume, world.programs index = .call (.awaitConfirm delivery) resume →
    delivery ∉ world.shared.inFlight

/-- What may happen when drain `index` runs on and nothing fails any more. A message that was lost
before is given up, and a transaction that a drain has left open is ended by the server. -/
def Recovering (index : κ) (world : Machine.World (machine κ) Failure ℕ) :
    Machine.Action (machine κ) → Prop
  | .session other (.proceed _) => other = index
  | .session other (.reject error) => other = index ∧ error = .timeout ∧ WaitsInVain world index
  | .session _ (.fail _) => False
  | .environment (.arrive _) => True
  | .environment (.abort other) =>
      other = index ∧ ∃ outcome, world.programs index = .ofExcept outcome
  | .environment _ => False

/-- The worlds a run leads to in which drain `index` recovers. -/
def RecoversAt (index : κ) :
    Machine.World (machine κ) Failure ℕ → Machine.World (machine κ) Failure ℕ → Prop :=
  Relation.ReflTransGen fun world next => ∃ action, Recovering index world action ∧
    Machine.step world action = some next

/-- The answer to a call of a drain when nothing else happens and nothing fails. -/
def answerBeside (now : Date) (index : κ) (shared : Shared κ) :
    (call : Call) → signature.Reply call × Shared κ
  | .statement statement => shared.execute now index statement
  | .publish origin queue message =>
      let delivery : Delivery := ⟨shared.nextTag, origin, queue, message⟩
      (delivery, { shared with
        nextTag := shared.nextTag + 1
        inFlight := shared.inFlight ++ [delivery] })
  | .awaitConfirm delivery =>
      if delivery ∈ shared.inFlight then
        (.ok (), { shared with
          received := shared.received ++ [delivery]
          confirmed := shared.confirmed ++ [delivery] })
      else
        (.error .timeout, shared)
  | .recordOutboxPublishFailure =>
      ((), { shared with publishFailures := shared.publishFailures + 1 })

section Step

variable {world next : Machine.World (machine κ) Failure ℕ} {index : κ}

/-- A drain that is answered takes its step. -/
theorem step_of_answer {call : Call}
    {resume : signature.Reply call → Program signature Failure ℕ} {choice : Choice}
    {reply : signature.Reply call} {shared' : Shared κ}
    (running : world.programs index = .call call resume)
    (answered : world.shared.answer choice index call = some (reply, shared')) :
    Machine.step world (.session index choice) = some
      { shared := shared'
        locals := world.locals
        programs := Function.update world.programs index (resume reply) } := by
  simp only [Machine.step, running, answered, Option.map_some]
  congr 2

/-- What a drain does beside the others is a run of the relay: each publish that is confirmed has
arrived before. -/
theorem recoversAt_run (now : Date) {program : Program signature Failure ℕ}
    (running : world.programs index = program) :
    RecoversAt index world
      { shared := (program.run (answerBeside now index) world.shared).2
        locals := world.locals
        programs := Function.update world.programs index
          (.ofExcept (program.run (answerBeside now index) world.shared).1) } := by
  induction program generalizing world with
  | pure value =>
      simp only [Program.run, Program.ofExcept_ok, ← running, Function.update_eq_self]
      exact .refl
  | throw error =>
      simp only [Program.run, Program.ofExcept_error, ← running, Function.update_eq_self]
      exact .refl
  | call call resume ih =>
      have session (choice : Choice) {shared shared' : Shared κ} {reply : signature.Reply call}
          (isAllowed : Recovering index { world with shared } (.session index choice))
          (answered : shared.answer choice index call = some (reply, shared')) :
          RecoversAt index { world with shared }
            { shared := ((resume reply).run (answerBeside now index) shared').2
              locals := world.locals
              programs := Function.update world.programs index
                (.ofExcept ((resume reply).run (answerBeside now index) shared').1) } := by
        have later := @ih reply
          ⟨shared', world.locals, Function.update world.programs index (resume reply)⟩
          (Function.update_self ..)
        simp only [Function.update_idem] at later
        exact .head ⟨_, isAllowed, step_of_answer running answered⟩ later
      cases call with
      | statement statement => exact session (.proceed now) rfl rfl
      | publish origin queue message => exact session (.proceed now) rfl rfl
      | recordOutboxPublishFailure => exact session (.proceed now) rfl rfl
      | awaitConfirm delivery =>
          by_cases inFlight : delivery ∈ world.shared.inFlight
          · let arrived : Shared κ :=
              { world.shared with received := world.shared.received ++ [delivery] }
            have arrives : Machine.step world (.environment (.arrive delivery)) =
                some { world with shared := arrived } := by
              simp only [Machine.step, Shared.environment, if_pos inFlight, Option.map_some,
                arrived]
            have confirmed := @session (.proceed now) arrived _ (.ok ()) rfl
              (if_pos (List.mem_append_right _ (List.mem_singleton.mpr rfl)))
            simp only [Program.run, answerBeside, if_pos inFlight]
            exact .head ⟨.environment (.arrive delivery), trivial, arrives⟩ confirmed
          · simp only [Program.run, answerBeside, if_neg inFlight]
            refine session (.reject .timeout) ⟨rfl, rfl, fun other _ isCall => ?_⟩ rfl
            cases running.symm.trans isCall
            exact inFlight

namespace Shared

variable {shared shared' : Shared κ}

/-- The locks are held by transactions. -/
def Guarded (shared : Shared κ) : Prop :=
  ∀ key index, shared.locks key = some index → shared.transactions index ≠ .idle

/-- A change drain `index` makes to the transactions and the locks: the others keep theirs. -/
structure Moves (index : κ) (shared shared' : Shared κ) : Prop where
  transactions : ∀ other, other ≠ index →
    shared'.transactions other = shared.transactions other
  locks : ∀ key other, other ≠ index → shared'.locks key = some other →
    shared.locks key = some other
  own : ∀ key, shared'.locks key = some index → shared'.transactions index = .idle →
    shared.locks key = some index ∧ shared.transactions index = .idle

omit [DecidableEq κ] in
theorem Moves.of_eq (transactions : shared'.transactions = shared.transactions)
    (locks : shared'.locks = shared.locks) : Moves index shared shared' where
  transactions _ _ := congrFun transactions _
  locks _ _ _ held := locks ▸ held
  own _ held idle := ⟨locks ▸ held, transactions ▸ idle⟩

omit [DecidableEq κ] in
theorem Moves.trans {middle : Shared κ} (first : Moves index shared middle)
    (second : Moves index middle shared') : Moves index shared shared' where
  transactions other different :=
    (second.transactions other different).trans (first.transactions other different)
  locks key other different held :=
    first.locks key other different (second.locks key other different held)
  own key held idle :=
    have ⟨held, idle⟩ := second.own key held idle
    first.own key held idle

omit [DecidableEq κ] in
theorem Moves.guarded (moves : Moves index shared shared') (guarded : shared.Guarded) :
    shared'.Guarded := by
  intro key other held idle
  by_cases same : other = index
  · subst same
    rcases moves.own key held idle with ⟨held, idle⟩
    exact guarded key other held idle
  · rw [moves.transactions other same] at idle
    exact guarded key other (moves.locks key other same held) idle

theorem moves_setTransaction {transaction : Transaction} (started : transaction ≠ .idle) :
    Moves index shared (shared.setTransaction index transaction) where
  transactions _ different := transactions_setTransaction_of_ne shared different transaction
  locks _ _ _ held := held
  own _ _ idle :=
    absurd ((transactions_setTransaction shared index transaction).symm.trans idle) started

theorem release_locks {left : Transaction} {key : ℤ} {other : κ}
    (held : (shared.release index left).locks key = some other) :
    shared.locks key = some other ∧ other ≠ index := by
  simp only [release] at held
  split at held
  · cases held
  · next free =>
      refine ⟨held, ?_⟩
      rintro rfl
      exact free held

theorem moves_release (left : Transaction) : Moves index shared (shared.release index left) where
  transactions _ different := transactions_setTransaction_of_ne shared different left
  locks _ _ _ held := (release_locks held).1
  own _ held _ := absurd rfl (release_locks held).2

omit [DecidableEq κ] in
theorem moves_lock (key : ℤ) (started : shared.transactions index ≠ .idle) :
    Moves index shared
      { shared with locks := Function.update shared.locks key (some index) } where
  transactions _ _ := rfl
  locks asked other different held := by
    have held : Function.update shared.locks key (some index) asked = some other := held
    by_cases same : asked = key
    · rw [same, Function.update_self] at held
      exact absurd (Option.some.inj held).symm different
    · rwa [Function.update_of_ne same] at held
  own _ _ idle := absurd idle started

theorem moves_execute (now : Date) (index : κ) (statement : Statement) :
    Moves index shared (shared.execute now index statement).2 := by
  have unchanged : Moves index shared shared := .of_eq rfl rfl
  cases statement with
  | startTransaction =>
      simp only [execute]
      split
      · exact moves_setTransaction fun opened => by cases opened
      · exact unchanged
  | commitTransaction =>
      simp only [execute]
      split
      · have released : Moves index shared (shared.release index .idle) := moves_release .idle
        exact ⟨released.transactions, released.locks, released.own⟩
      · exact unchanged
  | rollbackTransaction => exact moves_release _
  | tryAdvisoryXactLock key =>
      simp only [execute]
      split
      · next opened =>
          split
          · exact moves_lock key (by simp [opened])
          · exact unchanged
      · exact unchanged
  | selectPending limit =>
      simp only [execute]
      split <;> exact unchanged
  | markPublished id =>
      simp only [execute]
      split
      · exact moves_setTransaction fun opened => by cases opened
      · exact unchanged

theorem moves_answer {choice : Choice} {call : Call} {reply : signature.Reply call}
    (answered : shared.answer choice index call = some (reply, shared')) :
    Moves index shared shared' := by
  cases call with
  | statement statement =>
      cases choice with
      | proceed now =>
          have executed : (shared.execute now index statement).2 = shared' :=
            congrArg Prod.snd (Option.some.inj answered)
          exact executed ▸ moves_execute now index statement
      | fail error =>
          cases answered
          rw [fail]
          split
          · exact moves_setTransaction fun opened => by cases opened
          · exact .of_eq rfl rfl
      | reject error => cases answered
  | publish origin queue message =>
      cases answered
      exact .of_eq rfl rfl
  | awaitConfirm delivery =>
      cases choice with
      | proceed now =>
          simp only [answer, Option.ite_none_right_eq_some] at answered
          rcases answered with ⟨_, ⟨⟩⟩
          exact .of_eq rfl rfl
      | fail error => cases answered
      | reject error =>
          cases answered
          exact .of_eq rfl rfl
  | recordOutboxPublishFailure =>
      cases answered
      exact .of_eq rfl rfl

/-- Beside the drains, only the server ends a transaction. -/
theorem moves_environment {event : Event κ}
    (others : ∀ other, event = .abort other → other = index)
    (happened : shared.environment event = some shared') : Moves index shared shared' := by
  cases event with
  | abort other =>
      obtain rfl := others other rfl
      rw [environment] at happened
      split at happened
      · cases happened
      · cases happened
        exact moves_release _
  | rollback row =>
      cases happened
      exact .of_eq rfl rfl
  | lose delivery =>
      cases happened
      exact .of_eq rfl rfl
  | _ =>
      rw [environment, Option.ite_none_right_eq_some] at happened
      rcases happened with ⟨_, ⟨⟩⟩
      exact .of_eq rfl rfl

end Shared

/-- A step of the relay in which drain `index` recovers leaves the others as they are. -/
theorem moves_of_step {action : Machine.Action (machine κ)}
    (recovering : Recovering index world action)
    (stepped : Machine.step world action = some next) :
    Shared.Moves index world.shared next.shared ∧
      ∀ other, other ≠ index → next.programs other = world.programs other := by
  cases action with
  | session own choice =>
      obtain rfl : own = index := by
        cases choice with
        | proceed now => exact recovering
        | fail error => exact recovering.elim
        | reject error => exact recovering.1
      rcases Machine.step_session stepped with
        ⟨call, resume, reply, shared, own', running, answered, rfl⟩
      exact ⟨Shared.moves_answer (answer_of_machine answered),
        fun other different => Function.update_of_ne different ..⟩
  | environment event =>
      rcases Option.map_eq_some_iff.mp stepped with ⟨shared, happened, rfl⟩
      refine ⟨Shared.moves_environment ?_ happened, fun _ _ => rfl⟩
      rintro other rfl
      exact recovering.1

theorem moves_of_recoversAt (reached : RecoversAt index world next) :
    Shared.Moves index world.shared next.shared ∧
      ∀ other, other ≠ index → next.programs other = world.programs other := by
  induction reached with
  | refl => exact ⟨.of_eq rfl rfl, fun _ _ => rfl⟩
  | tail _ stepped ih =>
      rcases stepped with ⟨action, recovering, stepped⟩
      rcases moves_of_step recovering stepped with ⟨moves, untouched⟩
      exact ⟨ih.1.trans moves, fun other different =>
        (untouched other different).trans (ih.2 other different)⟩

theorem guarded_of_step {action : Machine.Action (machine κ)} (guarded : world.shared.Guarded)
    (stepped : Machine.step world action = some next) : next.shared.Guarded := by
  cases action with
  | session own choice =>
      rcases Machine.step_session stepped with
        ⟨call, resume, reply, shared, own', running, answered, rfl⟩
      exact (Shared.moves_answer (answer_of_machine answered)).guarded guarded
  | environment event =>
      rcases Option.map_eq_some_iff.mp stepped with ⟨shared, happened, rfl⟩
      by_cases aborts : ∃ other, event = .abort other
      · rcases aborts with ⟨other, rfl⟩
        have happened : world.shared.environment (.abort other) = some shared := happened
        have moves : Shared.Moves other world.shared shared :=
          Shared.moves_environment (by simp) happened
        exact moves.guarded guarded
      · intro key holder held
        have moves : Shared.Moves holder world.shared shared :=
          Shared.moves_environment (fun other isAbort => absurd ⟨other, isAbort⟩ aborts) happened
        exact moves.guarded guarded key holder held

/-- A drain can run to its end and leave its lock. -/
theorem exists_ended (guarded : world.shared.Guarded) (index : κ) :
    ∃ next, RecoversAt index world next ∧
      (∃ outcome, next.programs index = .ofExcept outcome) ∧
      ∀ key, next.shared.locks key ≠ some index := by
  let outcome := (world.programs index).run (answerBeside 0 index) world.shared
  let ended : Machine.World (machine κ) Failure ℕ :=
    ⟨outcome.2, world.locals, Function.update world.programs index (.ofExcept outcome.1)⟩
  have ran : RecoversAt index world ended := recoversAt_run 0 rfl
  have stopped : ended.programs index = .ofExcept outcome.1 := Function.update_self ..
  have still := (moves_of_recoversAt ran).1.guarded guarded
  by_cases idle : ended.shared.transactions index = .idle
  · exact ⟨ended, ran, ⟨_, stopped⟩, fun key held => still key index held idle⟩
  · have aborts : ended.shared.environment (.abort index) =
        some (ended.shared.release index .aborted) := by
      simp only [Shared.environment]
    let released : Machine.World (machine κ) Failure ℕ :=
      { ended with shared := ended.shared.release index .aborted }
    have stepped : Machine.step ended (.environment (.abort index)) = some released := by
      simp only [Machine.step, aborts, Option.map_some, released]
    refine ⟨released, ran.tail ⟨.environment (.abort index), ⟨rfl, _, stopped⟩, stepped⟩, ?_, ?_⟩
    · exact ⟨_, stopped⟩
    · exact fun key held => (Shared.release_locks held).2 rfl

/-- The worlds a run leads to in each of whose steps some drain recovers. -/
def Recovers : Machine.World (machine κ) Failure ℕ → Machine.World (machine κ) Failure ℕ → Prop :=
  Relation.ReflTransGen fun world next => ∃ action, (∃ index, Recovering index world action) ∧
    Machine.step world action = some next

theorem recovers_of_recoversAt (reached : RecoversAt index world next) :
    Recovers world next := by
  induction reached with
  | refl => exact .refl
  | tail _ stepped ih =>
      rcases stepped with ⟨action, recovering, stepped⟩
      exact ih.tail ⟨action, ⟨index, recovering⟩, stepped⟩

/-- A drain whose turn has not come: its program is whole and its connection is free. -/
def Unstarted (batchSize : κ → ℕ) (world : Machine.World (machine κ) Failure ℕ) (index : κ) :
    Prop :=
  world.programs index = drain (batchSize index) ∧ world.shared.transactions index = .idle

/-- A drain stays unstarted until its first step: the server has no transaction of its to end. -/
theorem Unstarted.step {batchSize : κ → ℕ} (unstarted : Unstarted batchSize world index)
    {action : Machine.Action (machine κ)} (foreign : ∀ choice, action ≠ .session index choice)
    (stepped : Machine.step world action = some next) : Unstarted batchSize next index := by
  rcases unstarted with ⟨whole, idle⟩
  refine ⟨(Machine.step_untouched stepped foreign).1.trans whole, ?_⟩
  cases action with
  | session other choice =>
      have different : index ≠ other := by
        rintro rfl
        exact foreign choice rfl
      rcases Machine.step_session stepped with
        ⟨call, resume, reply, shared, own, running, answered, rfl⟩
      exact ((Shared.moves_answer (answer_of_machine answered)).transactions index
        different).trans idle
  | environment event =>
      rcases Option.map_eq_some_iff.mp stepped with ⟨shared, happened, rfl⟩
      have happened : world.shared.environment event = some shared := happened
      cases event with
      | abort other =>
          have different : index ≠ other := by
            rintro rfl
            simp [Shared.environment, idle] at happened
          exact ((Shared.moves_environment (by simp) happened).transactions index
            different).trans idle
      | rollback row =>
          cases happened
          exact idle
      | lose delivery =>
          cases happened
          exact idle
      | _ =>
          rw [Shared.environment, Option.ite_none_right_eq_some] at happened
          rcases happened with ⟨_, ⟨⟩⟩
          exact idle

/-- Drains can run to their ends, one after another, and leave their locks. -/
theorem exists_all_ended (guarded : world.shared.Guarded) (indices : List κ)
    (distinct : indices.Nodup) :
    ∃ next, Recovers world next ∧ next.shared.Guarded ∧
      (∀ index ∈ indices, (∃ outcome, next.programs index = .ofExcept outcome) ∧
        ∀ key, next.shared.locks key ≠ some index) ∧
      ∀ other ∉ indices, next.programs other = world.programs other ∧
        next.shared.transactions other = world.shared.transactions other := by
  induction indices generalizing world with
  | nil => exact ⟨world, .refl, guarded, by simp, fun _ _ => ⟨rfl, rfl⟩⟩
  | cons index indices ih =>
      rcases List.nodup_cons.mp distinct with ⟨fresh, distinct⟩
      rcases ih guarded distinct with ⟨middle, reached, guarded, ended, untouched⟩
      rcases exists_ended guarded index with ⟨next, ran, stopped, released⟩
      rcases moves_of_recoversAt ran with ⟨moves, beside⟩
      refine ⟨next, reached.trans (recovers_of_recoversAt ran), moves.guarded guarded, ?_, ?_⟩
      · intro other otherMem
        rcases List.mem_cons.mp otherMem with rfl | old
        · exact ⟨stopped, released⟩
        · have different : other ≠ index := by
            rintro rfl
            exact fresh old
          rcases ended other old with ⟨stopped, released⟩
          exact ⟨beside other different ▸ stopped, fun key held =>
            released key (moves.locks key other different held)⟩
      · intro other otherFresh
        have different := List.ne_of_not_mem_cons otherFresh
        have rest := List.not_mem_of_not_mem_cons otherFresh
        rcases untouched other rest with ⟨program, transaction⟩
        exact ⟨(beside other different).trans program,
          (moves.transactions other different).trans transaction⟩

end Step

/-! ## A drain that nobody disturbs -/

namespace Shared

variable {shared shared' : Shared κ} {index : κ}

/-- The shared state, as drain `index` sees it. -/
def seen (index : κ) (shared : Shared κ) : Shared Unit where
  outbox := shared.outbox
  uncommitted := shared.uncommitted
  nextOutboxId := shared.nextOutboxId
  transactions _ := shared.transactions index
  locks key := if shared.locks key = some index then some () else none
  nextTag := shared.nextTag
  inFlight := shared.inFlight
  received := shared.received
  confirmed := shared.confirmed
  publishFailures := shared.publishFailures

/-- No other drain holds a lock. -/
def Undisturbed (index : κ) (shared : Shared κ) : Prop :=
  ∀ key other, shared.locks key = some other → other = index

theorem seen_setTransaction (transaction : Transaction) :
    (shared.setTransaction index transaction).seen index =
      (shared.seen index).setTransaction () transaction := by
  simp only [seen, setTransaction, Function.update_self, mk.injEq, true_and, and_true]
  refine ⟨?_, rfl⟩
  funext own
  exact (Function.update_self (β := fun _ => Transaction) () transaction _).symm

theorem seen_release (left : Transaction) :
    (shared.release index left).seen index = (shared.seen index).release () left := by
  have same : ((shared.setTransaction index left).seen index).transactions =
      ((shared.seen index).setTransaction () left).transactions :=
    congrArg Shared.transactions (seen_setTransaction left)
  simp only [seen, release, setTransaction, mk.injEq, true_and, and_true] at same ⊢
  refine ⟨same, ?_⟩
  funext key
  by_cases held : shared.locks key = some index
  · simp [held]
  · simp [held]

theorem seen_execute (undisturbed : shared.Undisturbed index) (now : Date)
    (statement : Statement) :
    (shared.seen index).execute now () statement =
      ((shared.execute now index statement).1,
        (shared.execute now index statement).2.seen index) := by
  have transaction : (shared.seen index).transactions () = shared.transactions index := rfl
  cases statement with
  | startTransaction =>
      cases started : shared.transactions index <;>
        simp [execute, transaction, started, seen_setTransaction]
  | commitTransaction =>
      cases started : shared.transactions index with
      | opened now marks =>
        simp [execute, transaction, started, ← seen_release]
        rfl
      | _ => simp [execute, transaction, started]
  | rollbackTransaction => simp [execute, seen_release]
  | tryAdvisoryXactLock key =>
      cases started : shared.transactions index with
      | opened now marks =>
          cases held : shared.locks key with
          | none =>
              have locked : Function.update (shared.seen index).locks key (some ()) =
                  fun asked => if Function.update shared.locks key (some index) asked =
                    some index then some () else none := by
                funext asked
                by_cases same : asked = key
                · simp [same]
                · simp [Function.update_of_ne same, seen]
              have free : (shared.seen index).locks key = none := by simp [seen, held]
              simp only [execute, transaction, started, held, free, locked]
              rfl
          | some holder =>
              obtain rfl := undisturbed key holder held
              simp [execute, started, seen, held]
      | _ => simp [execute, transaction, started]
  | selectPending limit =>
      cases started : shared.transactions index with
      | opened now marks =>
          simp only [execute, transaction, started]
          rfl
      | _ => simp only [execute, transaction, started]
  | markPublished id =>
      cases started : shared.transactions index <;>
        simp [execute, transaction, started, seen_setTransaction]

omit [DecidableEq κ] in
theorem Moves.undisturbed (moves : Moves index shared shared')
    (undisturbed : shared.Undisturbed index) : shared'.Undisturbed index := by
  intro key other held
  by_contra different
  exact different (undisturbed key other (moves.locks key other different held))

theorem moves_answerBeside (now : Date) (call : Call) :
    Moves index shared (answerBeside now index shared call).2 := by
  cases call with
  | statement statement => exact moves_execute now index statement
  | publish origin queue message => exact .of_eq rfl rfl
  | awaitConfirm delivery =>
      simp only [answerBeside]
      split <;> exact .of_eq rfl rfl
  | recordOutboxPublishFailure => exact .of_eq rfl rfl

/-- A drain that nobody disturbs is answered as a drain alone. -/
theorem seen_answerBeside (undisturbed : shared.Undisturbed index) (now : Date) (call : Call) :
    answerAlone (fun _ => none) now (shared.seen index) call =
      ((answerBeside now index shared call).1,
        (answerBeside now index shared call).2.seen index) := by
  cases call with
  | statement statement => exact seen_execute undisturbed now statement
  | publish origin queue message => rfl
  | awaitConfirm delivery =>
      by_cases inFlight : delivery ∈ shared.inFlight
      · have flies : delivery ∈ (shared.seen index).inFlight := inFlight
        simp only [answerAlone, answerBeside, if_pos inFlight, if_pos flies]
        rfl
      · have lost : delivery ∉ (shared.seen index).inFlight := inFlight
        simp only [answerAlone, answerBeside, if_neg inFlight, if_neg lost]
  | recordOutboxPublishFailure => rfl

theorem seen_run {α : Type} (undisturbed : shared.Undisturbed index) (now : Date)
    (program : Program signature Failure α) :
    program.run (answerAlone (fun _ => none) now) (shared.seen index) =
      ((program.run (answerBeside now index) shared).1,
        (program.run (answerBeside now index) shared).2.seen index) := by
  induction program generalizing shared with
  | pure value => rfl
  | throw error => rfl
  | call call resume ih =>
      have later := ih (answerBeside now index shared call).1
        ((moves_answerBeside now call).undisturbed undisturbed)
      simp only [Program.run, seen_answerBeside undisturbed]
      exact later

end Shared

section Drains

variable {world : Machine.World (machine κ) Failure ℕ} {batchSize : κ → ℕ} {index : κ}

/-- Nobody holds a lock. -/
def Unlocked (shared : Shared κ) : Prop :=
  ∀ key, shared.locks key = none

/-- A drain that finds the lock free publishes and marks its batch. -/
theorem exists_drained (guarded : world.shared.Guarded) (unlocked : Unlocked world.shared)
    (unstarted : Unstarted batchSize world index) :
    ∃ next, Recovers world next ∧ next.shared.Guarded ∧
      Unlocked next.shared ∧ (∃ outcome, next.programs index = .ofExcept outcome) ∧
      next.shared.pending [] = (world.shared.pending []).drop (batchSize index) ∧
      ∀ other, other ≠ index → next.programs other = world.programs other ∧
        next.shared.transactions other = world.shared.transactions other := by
  rcases unstarted with ⟨whole, idle⟩
  let before := world.shared.seen index
  let rows := (before.pending []).take (batchSize index)
  let outcome := (drain (batchSize index)).run (answerBeside 0 index) world.shared
  let next : Machine.World (machine κ) Failure ℕ :=
    ⟨outcome.2, world.locals, Function.update world.programs index (.ofExcept outcome.1)⟩
  have ran : RecoversAt index world next := recoversAt_run 0 whole
  rcases moves_of_recoversAt ran with ⟨moves, untouched⟩
  have still := moves.guarded guarded
  have undisturbed : world.shared.Undisturbed index := fun key other held => by
    rw [unlocked key] at held
    cases held
  have free : Free before := ⟨idle, by simp [before, Shared.seen, unlocked outboxRelayLockKey]⟩
  have every : attempts (fun _ => none) before.nextTag rows.length = (rows.length, none) :=
    attempts_of_confirmed fun _ _ => rfl
  have alone : outcome.2.seen index = afterDrain 0 before rows rows.length false := by
    have ranAlone := run_drain 0 free rfl every
    rw [Shared.seen_run undisturbed] at ranAlone
    exact congrArg Prod.snd ranAlone
  have idleAfter : next.shared.transactions index = .idle :=
    (congrArg (fun left => left.transactions ()) alone).trans (afterDrain_free free).1
  refine ⟨next, recovers_of_recoversAt ran, still, fun key => ?_, ⟨_, Function.update_self ..⟩, ?_,
    fun other different => ⟨untouched other different, moves.transactions other different⟩⟩
  · cases held : next.shared.locks key with
    | none => rfl
    | some holder =>
        obtain rfl := moves.undisturbed undisturbed key holder held
        exact absurd idleAfter (still key holder held)
  · have within : rows.length + false.toNat ≤ min (batchSize index) (before.pending []).length := by
      rw [List.length_take]
      exact le_rfl
    have confirms : Confirms 0 before (afterDrain 0 before rows rows.length false) rows.length
        (rows.length + false.toNat) := afterDrain_confirms false within
    have pending : next.shared.pending [] = (before.pending []).drop rows.length :=
      (congrArg (Shared.pending · []) alone).trans confirms.pending
    rw [pending, List.length_take]
    rcases Nat.le_total (batchSize index) (before.pending []).length with fits | exceeds
    · rw [Nat.min_eq_left fits]
      rfl
    · rw [Nat.min_eq_right exceeds, List.drop_length]
      exact (List.drop_eq_nil_of_le exceeds).symm

theorem keepsRows_of_recovers {next : Machine.World (machine κ) Failure ℕ}
    (reached : Recovers world next) : world.shared.KeepsRows next.shared := by
  induction reached with
  | refl => exact .refl _
  | tail _ stepped ih =>
      rcases stepped with ⟨action, ⟨index, recovering⟩, stepped⟩
      have kept := keepsRows_of_step stepped fun event isEvent writes => by
        subst isEvent
        cases event <;> first | exact recovering.elim | exact writes.elim
      exact ⟨kept.announced.trans ih.announced, kept.uncommitted.trans ih.uncommitted⟩

/-- Drains that find the lock free one after another publish and mark everything, if their batches
suffice. -/
theorem exists_all_drained (guarded : world.shared.Guarded) (unlocked : Unlocked world.shared)
    {waiting : List κ} (distinct : waiting.Nodup)
    (unstarted : ∀ index ∈ waiting, Unstarted batchSize world index)
    (enough : (world.shared.pending []).length ≤ (waiting.map batchSize).sum) :
    ∃ next, Recovers world next ∧
      (∀ index ∈ waiting, ∃ outcome, next.programs index = .ofExcept outcome) ∧
      next.shared.pending [] = [] ∧
      ∀ other ∉ waiting, next.programs other = world.programs other := by
  induction waiting generalizing world with
  | nil =>
      refine ⟨world, .refl, by simp, ?_, fun _ _ => rfl⟩
      exact List.length_eq_zero_iff.mp (Nat.le_zero.mp enough)
  | cons index waiting ih =>
      rcases List.nodup_cons.mp distinct with ⟨fresh, distinct⟩
      rcases exists_drained guarded unlocked (unstarted index List.mem_cons_self) with
        ⟨middle, first, guarded, unlocked, stopped, left, untouched⟩
      have apart : ∀ other ∈ waiting, other ≠ index := by
        rintro other otherMem rfl
        exact fresh otherMem
      have others : ∀ other ∈ waiting, Unstarted batchSize middle other := by
        intro other otherMem
        rcases untouched other (apart other otherMem) with ⟨program, transaction⟩
        rcases unstarted other (List.mem_cons_of_mem _ otherMem) with ⟨whole, idle⟩
        exact ⟨program.trans whole, transaction.trans idle⟩
      have fewer : (middle.shared.pending []).length ≤ (waiting.map batchSize).sum := by
        rw [List.map_cons, List.sum_cons] at enough
        rw [left, List.length_drop]
        omega
      rcases ih guarded unlocked distinct others fewer with ⟨next, rest, ended, nothing, still⟩
      refine ⟨next, first.trans rest, ?_, nothing, ?_⟩
      · intro other otherMem
        rcases List.mem_cons.mp otherMem with rfl | later
        · rcases stopped with ⟨outcome, stopped⟩
          exact ⟨outcome, (still other fresh).trans stopped⟩
        · exact ended other later
      · intro other otherFresh
        exact (still other (List.not_mem_of_not_mem_cons otherFresh)).trans
          (untouched other (List.ne_of_not_mem_cons otherFresh)).1

/-- Whatever has become of the drains under way, the rest of them can publish and mark every
committed row. -/
theorem exists_all_published [Fintype κ] (guarded : world.shared.Guarded) {waiting : List κ}
    (distinct : waiting.Nodup) (unstarted : ∀ index ∈ waiting, Unstarted batchSize world index)
    (enough : world.shared.outbox.rows.length ≤ (waiting.map batchSize).sum) :
    ∃ next, Recovers world next ∧
      (∀ index, ∃ outcome, next.programs index = .ofExcept outcome) ∧
      next.shared.pending [] = [] := by
  let others := (Finset.univ.filter (· ∉ waiting)).toList
  have mem_others (index : κ) : index ∈ others ↔ index ∉ waiting := by simp [others]
  rcases exists_all_ended guarded others (Finset.nodup_toList _) with
    ⟨middle, first, guarded, ended, untouched⟩
  have still : ∀ index ∈ waiting, Unstarted batchSize middle index := by
    intro index indexMem
    rcases unstarted index indexMem with ⟨whole, idle⟩
    rcases untouched index fun other => (mem_others index).mp other indexMem with
      ⟨program, transaction⟩
    exact ⟨program.trans whole, transaction.trans idle⟩
  have unlocked : Unlocked middle.shared := by
    intro key
    cases held : middle.shared.locks key with
    | none => rfl
    | some holder =>
        by_cases waits : holder ∈ waiting
        · exact absurd (still holder waits).2 (guarded key holder held)
        · exact absurd held ((ended holder ((mem_others holder).mpr waits)).2 key)
  have rows : middle.shared.outbox.rows.length = world.shared.outbox.rows.length := by
    simpa [Shared.announced] using congrArg List.length (keepsRows_of_recovers first).announced
  have fewer : (middle.shared.pending []).length ≤ (waiting.map batchSize).sum :=
    (List.length_filter_le _ _).trans (rows.le.trans enough)
  rcases exists_all_drained guarded unlocked distinct still fewer with
    ⟨next, rest, drained, nothing, untouchedAfter⟩
  refine ⟨next, first.trans rest, fun index => ?_, nothing⟩
  by_cases waits : index ∈ waiting
  · exact drained index waits
  · rcases (ended index ((mem_others index).mpr waits)).1 with ⟨outcome, stopped⟩
    exact ⟨outcome, (untouchedAfter index waits).trans stopped⟩

end Drains

end Relay

/-! ## The whole system -/

/-- An operation adds at most one row to the outbox. -/
theorem Operation.outbox_length_le (operation : Operation) (ledger : Ledger) :
    (ledger.applyAll (operation.perform ledger).2).outbox.length ≤ ledger.outbox.length + 1 := by
  have changes := operation.changes ledger
  generalize (operation.perform ledger).2 = made at changes
  cases changes with
  | nothing => exact Nat.le_succ _
  | inserted =>
      simp [CreateProcessingRequestUseCase.insertionChanges, Ledger.applyAll, Ledger.apply]
  | noted => simp [Ledger.applyAll, Ledger.apply]
  | @applied event row row' entry =>
      cases entry <;> simp [LifecycleEvent.appliedChanges, Ledger.applyAll, Ledger.apply]

theorem History.outbox_length_le {ι : Type} {operations : ι → Operation} {initial ledger : Ledger}
    {committed : List (ι × List Write)} (history : History operations initial committed ledger) :
    ledger.outbox.length ≤ initial.outbox.length + committed.length := by
  induction history with
  | start => exact Nat.le_refl _
  | @commit past ledger index writes before performed ih =>
      have added := (operations index).outbox_length_le ledger
      rw [performed] at added
      rw [List.length_append, List.length_singleton]
      omega

namespace System

variable {ι κ : Type} [Fintype ι] [DecidableEq ι] [DecidableEq κ] {system next : System ι κ}
  {operations : ι → Operation} {nextOutboxId : ℕ} {batchSize : κ → ℕ}

/-- What may happen when nothing fails any more: a confirm is not waited for any longer when its
message is lost, and the server ends the transaction of a drain that has ended. -/
def Recovering (system : System ι κ) : Action ι κ → Prop
  | .useCase _ choice => choice.Proceeds
  | .drain _ (.proceed _) => True
  | .drain index (.reject error) => error = .timeout ∧ Relay.WaitsInVain system.relay index
  | .drain _ (.fail _) => False
  | .arrive _ => True
  | .lose _ => False
  | .abort index => ∃ outcome, system.relay.programs index = .ofExcept outcome

/-- The systems a run leads to in which nothing fails any more. -/
def Recovers : System ι κ → System ι κ → Prop :=
  Relation.ReflTransGen fun system next => ∃ action, system.Recovering action ∧
    system.step action = some next

theorem Recovers.reaches (recovers : system.Recovers next) : system.Reaches next := by
  induction recovers with
  | refl => exact .refl
  | tail _ stepped ih =>
      rcases stepped with ⟨action, _, stepped⟩
      exact ih.tail ⟨action, stepped⟩

/-- A run of the drains is a run of the system. -/
theorem recovers_relay {relay : Machine.World (Relay.machine κ) Relay.Failure ℕ}
    (reached : Relay.Recovers system.relay relay) :
    system.Recovers { system with relay } := by
  induction reached with
  | refl => exact .refl
  | @tail middle last _ stepped ih =>
      rcases stepped with ⟨action, ⟨index, recovering⟩, stepped⟩
      have lifted : System.stepRelay { system with relay := middle } action =
          some { system with relay := last } := stepRelay_eq_some.mpr ⟨last, stepped, rfl⟩
      cases action with
      | session other choice =>
          refine ih.tail ⟨.drain other choice, ?_, lifted⟩
          cases choice with
          | proceed now => trivial
          | fail error => exact recovering.elim
          | reject error => exact ⟨recovering.2.1, recovering.1 ▸ recovering.2.2⟩
      | environment event =>
          cases event with
          | arrive delivery => exact ih.tail ⟨.arrive delivery, trivial, lifted⟩
          | abort other => exact ih.tail ⟨.abort other, recovering.1 ▸ recovering.2, lifted⟩
          | _ => exact recovering.elim

/-- A run of the calls is a run of the system, which leaves the drains where they stand. -/
theorem exists_recovers_store {store : Machine.World (Postgres.machine ι true) Thrown Answer}
    (reached : Machine.ReachesBy Postgres.Served system.store store) :
    ∃ next, system.Recovers next ∧ next.store = store ∧
      next.relay.programs = system.relay.programs ∧
      next.relay.shared.transactions = system.relay.shared.transactions ∧
      next.relay.shared.locks = system.relay.shared.locks := by
  induction reached with
  | refl => exact ⟨system, .refl, rfl, rfl, rfl, rfl⟩
  | @tail middle last _ stepped ih =>
      rcases stepped with ⟨action, served, stepped⟩
      rcases ih with ⟨before, recovers, isStore, programs, transactions, locks⟩
      cases action with
      | environment event => cases event
      | session index choice =>
          rw [← isStore] at stepped
          let after : System ι κ :=
            { store := last
              relay := { before.relay with
                shared := before.relay.shared.refresh last.shared.database.outbox
                  last.shared.nextOutboxId } }
          have taken : before.step (.useCase index choice) = some after := by
            simp only [System.step, stepped, Option.map_some, after]
          exact ⟨after, recovers.tail ⟨.useCase index choice, served, taken⟩, rfl, programs,
            transactions, locks⟩

theorem guarded_reached (reached : (start operations nextOutboxId batchSize).Reaches system) :
    system.relay.shared.Guarded := by
  induction reached with
  | refl =>
      intro key index held
      cases held
  | tail _ stepped ih =>
      rcases stepped with ⟨action, taken⟩
      rcases step_cases taken with ⟨own, store, _, rfl⟩ | ⟨own, relay, moved, _, rfl⟩
      · exact ih
      · exact Relay.guarded_of_step ih moved

/-- The calls commit at most one row each. -/
theorem outbox_length_le (reached : (start operations nextOutboxId batchSize).Reaches system) :
    system.store.shared.database.outbox.rows.length ≤ Fintype.card ι := by
  have invariant :=
    Postgres.invariant_reached Postgres.numbered_empty (coupled_reached reached).store
  rcases invariant.represents with ⟨ledger, history, represents⟩
  have rows := represents.outbox.length_eq
  have entries := history.outbox_length_le
  have calls := invariant.once.length_le_card
  rw [List.length_map] at rows calls
  have empty : (Ledger.ofDatabase .empty).outbox.length = 0 := rfl
  omega

/-- The row is marked, and the broker has received its message. -/
structure Delivered (row : OutboxRow) (system : System ι κ) : Prop where
  marked : system.relay.shared.Marked row.id
  received : ∃ delivery ∈ system.relay.shared.received, Relay.Publishes row delivery

/-- Where no row is pending, every committed row has been delivered. -/
theorem delivered_of_nothing_pending (coupled : system.Coupled operations nextOutboxId)
    (nothing : system.relay.shared.pending [] = []) {row : OutboxRow}
    (rowMem : row ∈ system.store.shared.database.outbox) : system.Delivered row := by
  have invariant := coupled.relay.1
  have selected : Relay.PendingOutboxRow.ofRow row ∈ system.relay.shared.announced :=
    coupled.announced ▸ List.mem_map_of_mem rowMem
  rcases List.mem_map.mp selected with ⟨own, ownMem, same⟩
  rcases Relay.PendingOutboxRow.ofRow_eq_iff.mp same with ⟨sameId, sameEntry⟩
  have published : own.publishedAt ≠ none := by
    intro unpublished
    have pending : own ∈ system.relay.shared.pending [] :=
      List.mem_filter.mpr ⟨ownMem, by simp [unpublished]⟩
    rw [nothing] at pending
    cases pending
  rcases invariant.published own ownMem published with ⟨delivery, confirmed, origin⟩
  have received := invariant.confirmed delivery confirmed
  rcases invariant.warranted delivery (.inr received) with ⟨sent, sentMem, isSent, _⟩
  have sentId : sent.id = own.id := (congrArg Relay.PendingOutboxRow.id isSent).trans origin
  obtain rfl : sent = own := SortedTable.eq_of_key_eq sentMem ownMem sentId
  rw [same] at isSent
  refine ⟨⟨sent, ownMem, sameId, published⟩, delivery, received, origin.trans sameId, ?_, ?_⟩
  · exact (congrArg Relay.PendingOutboxRow.queue isSent).symm
  · have pattern := congrArg Relay.PendingOutboxRow.pattern isSent
    have payload := congrArg Relay.PendingOutboxRow.payload isSent
    cases message : delivery.message
    simp only [message] at pattern payload
    subst pattern payload
    rfl

theorem recoverable_of_reaches [Fintype κ]
    (reached : (start operations nextOutboxId batchSize).Reaches system) {waiting : List κ}
    (distinct : waiting.Nodup)
    (unstarted : ∀ index ∈ waiting, Relay.Unstarted batchSize system.relay index)
    (enough : Fintype.card ι ≤ (waiting.map batchSize).sum) :
    ∃ last, system.Recovers last ∧ last.store.Finished ∧ last.relay.Finished ∧
      ∀ row ∈ last.store.shared.database.outbox, last.Delivered row := by
  have coupled := coupled_reached reached
  rcases Postgres.exists_finished_of_reaches Postgres.numbered_empty coupled.store with
    ⟨store, served, finished⟩
  rcases exists_recovers_store served with
    ⟨answered, first, rfl, programs, transactions, locks⟩
  have reachedAnswered := Relation.ReflTransGen.trans reached first.reaches
  have coupledAnswered := coupled_reached reachedAnswered
  have still : ∀ index ∈ waiting, Relay.Unstarted batchSize answered.relay index := by
    intro index indexMem
    rcases unstarted index indexMem with ⟨whole, idle⟩
    exact ⟨(congrFun programs index).trans whole, (congrFun transactions index).trans idle⟩
  have fewer : answered.relay.shared.outbox.rows.length ≤ (waiting.map batchSize).sum := by
    have rows := congrArg List.length coupledAnswered.announced
    rw [Relay.Shared.announced, List.length_map, List.length_map] at rows
    exact rows.le.trans ((outbox_length_le reachedAnswered).trans enough)
  rcases Relay.exists_all_published (guarded_reached reachedAnswered) distinct still fewer with
    ⟨relay, drained, ended, nothing⟩
  have rest := recovers_relay drained
  have coupledLast := coupled_reached (Relation.ReflTransGen.trans reachedAnswered rest.reaches)
  exact ⟨_, Relation.ReflTransGen.trans first rest, finished, ended, fun row rowMem =>
    delivered_of_nothing_pending coupledLast nothing rowMem⟩

/-- A drain none of whose steps was taken is unstarted. -/
theorem unstarted_of_runActions {actions : List (Action ι κ)} {index : κ}
    (unstarted : Relay.Unstarted batchSize system.relay index)
    (ran : system.runActions actions = some next)
    (untouched : ∀ choice, .drain index choice ∉ actions) :
    Relay.Unstarted batchSize next.relay index := by
  induction actions generalizing system with
  | nil =>
      cases ran
      exact unstarted
  | cons action actions ih =>
      rcases Option.bind_eq_some_iff.mp ran with ⟨middle, first, rest⟩
      refine ih ?_ rest fun choice mem => untouched choice (List.mem_cons_of_mem _ mem)
      cases action with
      | useCase other choice =>
          rcases Option.map_eq_some_iff.mp first with ⟨store, taken, rfl⟩
          exact unstarted
      | drain other choice =>
          rcases stepRelay_eq_some.mp first with ⟨relay, taken, rfl⟩
          refine unstarted.step ?_ taken
          rintro _ ⟨⟩
          exact untouched choice List.mem_cons_self
      | _ =>
          rcases stepRelay_eq_some.mp first with ⟨relay, taken, rfl⟩
          refine unstarted.step ?_ taken
          rintro _ ⟨⟩

/-- However a run went and whatever failed in it, steps none of which fails answer all calls, end
all drains, and deliver every row the calls have committed, if the drains that have not begun can
take as many rows as there are calls. -/
theorem recoverable [Fintype κ] (operations : ι → Operation) (nextOutboxId : ℕ)
    (batchSize : κ → ℕ) {actions : List (Action ι κ)}
    (ran : (start operations nextOutboxId batchSize).runActions actions = some system)
    {waiting : List κ} (distinct : waiting.Nodup)
    (untouched : ∀ index ∈ waiting, ∀ choice, .drain index choice ∉ actions)
    (enough : Fintype.card ι ≤ (waiting.map batchSize).sum) :
    ∃ last, system.Recovers last ∧ last.store.Finished ∧ last.relay.Finished ∧
      ∀ row ∈ last.store.shared.database.outbox, last.Delivered row :=
  recoverable_of_reaches (reaches_of_runActions ran) distinct
    (fun index indexMem => unstarted_of_runActions ⟨rfl, rfl⟩ ran (untouched index indexMem)) enough

/-- An upload. -/
def singleUpload : Unit → Operation
  | () => .create ⟨1789953000000, .repeated 1, .repeated 2, 3000⟩
      ⟨js "e-1", js "owner", js "owner@example.com", js "uploads/a.mp4", js "key", none⟩

/-- The first drain is not confirmed, cannot commit and cannot roll back: it ends with the lock. -/
def untilStranded : List (Action Unit Bool) :=
  List.replicate 8 (.useCase () .proceed) ++ List.replicate 4 (.drain false (.proceed 7)) ++
    [.drain false (.reject .timeout), .drain false (.proceed 7),
      .drain false (.fail .connectionError), .drain false (.fail .connectionError)]

theorem recoverable_stranded : ∃ stranded : System Unit Bool,
    (start singleUpload 1 fun _ => 1).runActions untilStranded = some stranded ∧
    stranded.relay.shared.locks Relay.outboxRelayLockKey = some false ∧
    ∃ last, stranded.Recovers last ∧ last.store.Finished ∧ last.relay.Finished ∧
      ∀ row ∈ last.store.shared.database.outbox, last.Delivered row := by
  have ran : ((start singleUpload 1 fun _ => 1).runActions untilStranded).map (fun system =>
      system.relay.shared.locks Relay.outboxRelayLockKey) = some (some false) := by
    decide +kernel
  rcases Option.map_eq_some_iff.mp ran with ⟨stranded, ran, held⟩
  refine ⟨stranded, ran, held, recoverable singleUpload 1 (fun _ => 1) ran
    (List.nodup_singleton true) ?_ (Nat.le_refl 1)⟩
  intro index indexMem choice stepped
  cases List.mem_singleton.mp indexMem
  simp [untilStranded] at stepped

end System

end ProcessingCatalog
