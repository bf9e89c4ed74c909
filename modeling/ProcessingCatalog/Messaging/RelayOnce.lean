import ProcessingCatalog.Messaging.RelayCoordinated
import ProcessingCatalog.Messaging.RelayFaithful

/-!
# Several relays publish each row once
-/

namespace ProcessingCatalog

open Effect

namespace Relay

variable {ι : Type} [DecidableEq ι]

/-- What a drain has returned. -/
def returned : Program signature Failure ℕ → ℕ
  | .pure published => published
  | _ => 0

/-- A drain that has nothing more to do than to commit a transaction without marks and to
return 0. -/
def Leaves (world : Machine.World (machine ι) Failure ℕ) (index : ι) : Prop :=
  world.programs index = .pure 0 ∨ ∃ now resume,
    world.programs index = .call (.statement .commitTransaction) resume ∧
    world.shared.transactions index = .opened now [] ∧ resume (.ok ()) = .pure 0

/-- What holds of the drains in a state of a run without a failure. -/
structure PublishesOnce [Fintype ι] (batchSize : ι → ℕ)
    (world : Machine.World (machine ι) Failure ℕ) :
    Prop where
  /-- No row is handed to the broker more than once. -/
  handed : world.shared.handed.Nodup
  /-- A drain that asks for the lock while it is taken leaves, whatever happens afterwards. -/
  declined : ∀ index resume,
    world.programs index = .call (.statement (.tryAdvisoryXactLock outboxRelayLockKey)) resume →
    world.shared.locks outboxRelayLockKey ≠ none →
    ∀ now next, Machine.step world (.session index (.proceed now)) = some next →
    ∀ later, Machine.ReachesBy Faultless next later → Leaves later index
  /-- While no drain runs, the drains have returned the number of rows published. -/
  returned : (∀ index, world.programs index = drain (batchSize index) ∨
      ∃ published, world.programs index = .pure published) →
    ∑ index, returned (world.programs index) = world.shared.handed.length
  /-- While no drain runs, the marked rows are the rows the broker has received. -/
  marked : (∀ index, world.programs index = drain (batchSize index) ∨
      ∃ published, world.programs index = .pure published) →
    ∀ id, (∃ row ∈ world.shared.outbox, row.id = id ∧ row.publishedAt ≠ none) ↔
      ∃ delivery ∈ world.shared.received, delivery.origin = id

variable {world later : Machine.World (machine ι) Failure ℕ} {phases : ι → Phase} {index : ι}

/-- A drain that has not begun or has returned has nothing open, and has handed over what it
returned. -/
theorem Phase.at_rest {phase : Phase} {batchSize : ℕ}
    (rests : phase.program = drain batchSize ∨ ∃ published, phase.program = .pure published) :
    phase.handed = Relay.returned phase.program ∧ phase.unmarked = [] ∧
      ¬ phase.Running := by
  cases phase with
  | ready batchSize => exact ⟨rfl, rfl, id⟩
  | finished published => exact ⟨rfl, rfl, id⟩
  | publishing sent rows =>
      cases rows with
      | nil =>
          rcases rests with ready | ⟨published, ended⟩
          · cases ready
          · cases ended
      | cons row rows =>
          simp only [Phase.program, publishRows, sendToQueue_eq] at rests
          rcases rests with ready | ⟨published, ended⟩
          · cases ready
          · cases ended
  | _ =>
      rcases rests with ready | ⟨published, ended⟩
      · cases ready
      · cases ended

omit [DecidableEq ι] in
theorem Phase.Stands.idle {shared : Shared ι} {phase : Phase} (stands : phase.Stands shared index)
    (rests : ¬ phase.Running) : shared.transactions index = .idle := by
  cases phase with
  | ready batchSize => exact stands.1
  | finished published => exact stands.1
  | _ => exact absurd trivial rests

/-- A drain that has found the lock taken, or has left after that. -/
def Phase.Declined : Phase → Prop
  | .declined => True
  | .finished published => published = 0
  | _ => False

/-- A drain that has been declined stays so. -/
theorem Advance.declined {now : Date} {shared shared' : Shared ι} {phase next : Phase}
    (advance : Advance now index shared phase shared' next) (declined : phase.Declined) :
    next.Declined := by
  cases advance with
  | leave start opened => exact rfl
  | _ => exact declined.elim

variable [Fintype ι]

theorem InPhases.leaves (inPhases : InPhases world phases) (declined : (phases index).Declined) :
    Leaves world index := by
  have stands := inPhases.1.stands index
  have program := inPhases.2 index
  cases stood : phases index with
  | declined =>
      rw [stood] at stands program
      rcases stands.1 with ⟨now, opened⟩
      exact .inr ⟨now, _, program, opened, rfl⟩
  | finished published =>
      rw [stood] at declined program
      cases declined
      exact .inl program
  | _ =>
      rw [stood] at declined
      exact declined.elim

theorem InPhases.declined_reached {batchSize : ι → ℕ}
    (reached : Machine.ReachesBy Faultless (start batchSize) world)
    (inPhases : InPhases world phases) (declined : (phases index).Declined)
    (more : Machine.ReachesBy Faultless world later) :
    ∃ phases', InPhases later phases' ∧ (phases' index).Declined := by
  induction more with
  | refl => exact ⟨phases, inPhases, declined⟩
  | tail before stepped ih =>
      rcases ih with ⟨phases', inPhases', declined'⟩
      rcases stepped with ⟨action, faultless, taken⟩
      have invariant := invariant_reached
        ((Machine.ReachesBy.reaches reached).trans (Machine.ReachesBy.reaches before))
      rcases inPhases'.step invariant faultless taken with ⟨phases'', inPhases'', moved⟩
      refine ⟨phases'', inPhases'', ?_⟩
      rcases moved index with same | ⟨now, advance⟩
      · rwa [same]
      · exact advance.declined declined'

/-- A drain that asks for the lock while it is taken is declined. -/
theorem InPhases.decline (inPhases : InPhases world phases) (invariant : world.shared.Invariant)
    {resume : Except DatabaseError Bool → Program signature Failure ℕ}
    (asks : world.programs index =
      .call (.statement (.tryAdvisoryXactLock outboxRelayLockKey)) resume)
    (taken : world.shared.locks outboxRelayLockKey ≠ none) {now : Date}
    (stepped : Machine.step world (.session index (.proceed now)) = some later) :
    ∃ phases', InPhases later phases' ∧ (phases' index).Declined := by
  rcases inPhases.session invariant stepped with ⟨next, advance, inPhases'⟩
  refine ⟨_, inPhases', ?_⟩
  rw [Function.update_self]
  have program := inPhases.2 index
  rw [asks] at program
  generalize phases index = phase at advance program
  generalize world.shared = shared at advance taken
  generalize later.shared = shared' at advance
  cases advance with
  | decline batchSize => trivial
  | lock batchSize free => exact absurd free taken
  | publish sent row rows delivery origin =>
      simp only [Phase.program, publishRows, sendToQueue_eq] at program
      cases program
  | _ => cases program

/-- Any number of drains of any batch sizes, interleaved with each other and with writers in any
way, publish each row once, as long as every publish is confirmed and no transaction aborts. -/
theorem relays_publish_once (batchSize : ι → ℕ)
    (reached : Machine.ReachesBy Faultless (start batchSize) world) :
    PublishesOnce batchSize world := by
  rcases inPhases_reached reached with ⟨phases, inPhases⟩
  have invariant := invariant_reached (Machine.ReachesBy.reaches reached)
  rcases inPhases with ⟨coordinated, programs⟩
  constructor
  · exact coordinated.once
  · intro index resume asks taken now next stepped later more
    rcases InPhases.decline ⟨coordinated, programs⟩ invariant asks taken stepped with
      ⟨phases', inPhases', declined⟩
    have reached' : Machine.ReachesBy Faultless (start batchSize) next :=
      Relation.ReflTransGen.tail reached ⟨.session index (.proceed now), trivial, stepped⟩
    rcases InPhases.declined_reached reached' inPhases' declined more with
      ⟨phases'', inPhases'', declined'⟩
    exact inPhases''.leaves declined'
  · intro rests
    have sums : ∀ index, returned (world.programs index) = (phases index).handed := by
      intro index
      have rest := rests index
      rw [programs] at rest ⊢
      exact (Phase.at_rest rest).1.symm
    rw [Finset.sum_congr rfl fun index _ => sums index, ← coordinated.count, Shared.handed,
      List.length_map]
  · intro rests id
    have light : ∀ index, (world.shared.transactions index).marks = [] ∧
        (phases index).unmarked = [] := by
      intro index
      have rest := rests index
      rw [programs] at rest
      rcases Phase.at_rest rest with ⟨_, unmarked, rests⟩
      rw [(coordinated.stands index).idle rests]
      exact ⟨rfl, unmarked⟩
    have handed : id ∈ world.shared.handed ↔ world.shared.Marked id := by
      rw [coordinated.handed]
      refine ⟨?_, .inl⟩
      rintro (marked | ⟨index, carried⟩)
      · exact marked
      · rw [(light index).1, (light index).2] at carried
        simp at carried
    constructor
    · rintro ⟨row, rowMem, rfl, published⟩
      rcases invariant.published row rowMem published with ⟨delivery, confirmed, ofRow⟩
      exact ⟨delivery, invariant.confirmed delivery confirmed, ofRow⟩
    · rintro ⟨delivery, arrived, rfl⟩
      exact handed.mp (List.mem_map_of_mem (coordinated.arrived delivery arrived))

/-- Two rows, and two drains of which the second asks for the lock while the first publishes. -/
def twoDrains {κ : Type} [DecidableEq κ] (first second : κ) : List (Machine.Action (machine κ)) :=
  [.environment (.insert (announcement (js "a"))), .environment (.insert (announcement (js "b"))),
    .environment (.commit ⟨2, announcement (js "b"), none⟩),
    .environment (.commit ⟨1, announcement (js "a"), none⟩)] ++
  List.replicate 2 (.session first (.proceed 7)) ++
  List.replicate 2 (.session second (.proceed 8)) ++
  List.replicate 2 (.session first (.proceed 7)) ++
  [.environment (.arrive ⟨1, 1, js "video-validation",
      ⟨js "VideoValidationRequested", (announcement (js "a")).payload⟩⟩)] ++
  List.replicate 3 (.session first (.proceed 7)) ++
  [.environment (.arrive ⟨2, 2, js "video-validation",
      ⟨js "VideoValidationRequested", (announcement (js "b")).payload⟩⟩)] ++
  List.replicate 3 (.session first (.proceed 7)) ++ [.session second (.proceed 8)]

instance : DecidablePred (Faultless (ι := Fin 2)) := fun action => by
  cases action with
  | session index choice => cases choice <;> unfold Faultless <;> infer_instance
  | environment event => cases event <;> unfold Faultless <;> infer_instance

theorem relays_publish_once_twoDrains :
    ∃ world : Machine.World (machine (Fin 2)) Failure ℕ,
      world.shared.handed = [1, 2] ∧ returned (world.programs 0) = 2 ∧
      returned (world.programs 1) = 0 ∧ PublishesOnce (fun _ => 50) world := by
  have ran : ((Machine.runActions (start fun _ => 50) (twoDrains (0 : Fin 2) 1)).map fun world =>
      (world.shared.handed, returned (world.programs 0), returned (world.programs 1))) =
      some ([1, 2], 2, 0) := by
    decide +kernel
  have every : ∀ action ∈ twoDrains (0 : Fin 2) 1, Faultless action := by decide +kernel
  rcases Option.map_eq_some_iff.mp ran with ⟨world, reached, observed⟩
  rcases Prod.mk.inj observed with ⟨handed, observed⟩
  rcases Prod.mk.inj observed with ⟨first, second⟩
  exact ⟨world, handed, first, second,
    relays_publish_once (fun _ => 50) (Machine.reachesBy_of_runActions reached every)⟩

end Relay

end ProcessingCatalog
