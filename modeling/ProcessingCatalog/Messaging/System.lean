import ProcessingCatalog.Messaging.RelayVerified
import ProcessingCatalog.Persistence.Sessions

/-!
# The store and the relay together

The use cases commit to the store while the drains publish its outbox. The two
share one table: the use cases alone insert its rows, which are visible to the
drains once their transaction commits, and the drains alone mark them. So the
writers of the relay's model are the use cases themselves here, and what the
relay expects of its writers is proved of them.
-/

namespace ProcessingCatalog

open Effect

namespace Relay

namespace Shared

variable {κ : Type}

/-- The mark the drains have given the row of an identifier. -/
def publishedAt (shared : Shared κ) (id : ℕ) : Option Date :=
  (shared.outbox.rows.find? fun row => row.id = id).bind OutboxRow.publishedAt

/-- The rows the store has committed, with the marks of the drains. -/
def refresh (shared : Shared κ) (rows : OutboxTable) (nextOutboxId : ℕ) : Shared κ :=
  { shared with
    outbox := rows.mapRows (fun row => { row with publishedAt := shared.publishedAt row.id })
      fun _ => rfl
    nextOutboxId }

end Shared

end Relay

/-- The calls `ι` of the use cases over the store, and the drains `κ` of its outbox. -/
structure System (ι κ : Type) [Fintype ι] [DecidableEq ι] [DecidableEq κ] where
  store : Machine.World (Postgres.machine ι true) Thrown Answer
  relay : Machine.World (Relay.machine κ) Relay.Failure ℕ

namespace System

/-- What may happen next, in the store, in a drain or to a message. -/
inductive Action (ι κ : Type) where
  | useCase (index : ι) (choice : Postgres.Choice)
  | drain (index : κ) (choice : Relay.Choice)
  | arrive (delivery : Relay.Delivery)
  | lose (delivery : Relay.Delivery)
  | abort (index : κ)

variable {ι κ : Type} [Fintype ι] [DecidableEq ι] [DecidableEq κ]

def stepRelay (system : System ι κ) (action : Machine.Action (Relay.machine κ)) :
    Option (System ι κ) :=
  (Machine.step system.relay action).map fun relay => { system with relay }

def step (system : System ι κ) : Action ι κ → Option (System ι κ)
  | .useCase index choice =>
      (Machine.step system.store (.session index choice)).map fun store =>
        { store
          relay := { system.relay with
            shared := system.relay.shared.refresh store.shared.database.outbox
              store.shared.nextOutboxId } }
  | .drain index choice => system.stepRelay (.session index choice)
  | .arrive delivery => system.stepRelay (.environment (.arrive delivery))
  | .lose delivery => system.stepRelay (.environment (.lose delivery))
  | .abort index => system.stepRelay (.environment (.abort index))

/-- The system after a list of steps, when none of them is blocked. -/
def runActions (system : System ι κ) : List (Action ι κ) → Option (System ι κ)
  | [] => some system
  | action :: actions => (system.step action).bind fun next => next.runActions actions

/-- The systems that some run leads to. -/
def Reaches : System ι κ → System ι κ → Prop :=
  Relation.ReflTransGen fun system next => ∃ action, system.step action = some next

theorem reaches_of_runActions {system next : System ι κ} {actions : List (Action ι κ)}
    (ran : system.runActions actions = some next) : system.Reaches next := by
  induction actions generalizing system with
  | nil =>
      cases ran
      exact .refl
  | cons action actions ih =>
      rcases Option.bind_eq_some_iff.mp ran with ⟨middle, first, rest⟩
      exact .head ⟨action, first⟩ (ih rest)

/-- Every call and every drain about to run, over an empty store. -/
def start (operations : ι → Operation) (nextOutboxId : ℕ) (batchSize : κ → ℕ) : System ι κ where
  store := Postgres.start true operations .empty nextOutboxId
  relay := Relay.start batchSize

end System

namespace Relay

/-- The events of the writers. -/
def Event.Writes {κ : Type} : Event κ → Prop
  | .insert _ => True
  | .commit _ => True
  | .rollback _ => True
  | _ => False

namespace Shared

variable {κ : Type} {shared shared' : Shared κ}

/-- What the rows say, whatever their marks. -/
def announced (shared : Shared κ) : List PendingOutboxRow :=
  shared.outbox.rows.map .ofRow

/-- A step that writes no row: it may mark rows, but not change what they say. -/
structure KeepsRows (shared shared' : Shared κ) : Prop where
  announced : shared'.announced = shared.announced
  uncommitted : shared'.uncommitted = shared.uncommitted

theorem KeepsRows.refl (shared : Shared κ) : shared.KeepsRows shared := ⟨rfl, rfl⟩

theorem keepsRows_commitMarks (start : Date) (marks : List ℕ) :
    shared.KeepsRows (shared.commitMarks start marks) where
  announced := by
    rw [announced, commitMarks, SortedTable.mapRows, List.map_map]
    exact List.map_congr_left fun row _ =>
      PendingOutboxRow.ofRow_eq_iff.mpr ⟨mark_id start marks row, mark_entry start marks row⟩
  uncommitted := rfl

variable [DecidableEq κ] {index : κ}

theorem keepsRows_execute (now : Date) (statement : Statement) :
    shared.KeepsRows (shared.execute now index statement).2 := by
  cases statement with
  | startTransaction =>
      simp only [execute]
      split
      · exact ⟨rfl, rfl⟩
      · exact .refl shared
  | commitTransaction =>
      simp only [execute]
      split
      · next start marks _ =>
          have marked : (shared.release index .idle).KeepsRows
            ((shared.release index .idle).commitMarks start marks) := keepsRows_commitMarks _ _
          exact ⟨marked.announced, marked.uncommitted⟩
      · exact .refl shared
  | rollbackTransaction => exact ⟨rfl, rfl⟩
  | tryAdvisoryXactLock key =>
      simp only [execute]
      split
      · split
        · exact ⟨rfl, rfl⟩
        · exact .refl shared
      · exact .refl shared
  | selectPending limit =>
      simp only [execute]
      split
      · exact .refl shared
      · exact .refl shared
  | markPublished row =>
      simp only [execute]
      split
      · exact ⟨rfl, rfl⟩
      · exact .refl shared

/-- No answer to a drain writes a row. -/
theorem keepsRows_answer {choice : Choice} {call : Call} {reply : signature.Reply call}
    (answered : shared.answer choice index call = some (reply, shared')) :
    shared.KeepsRows shared' := by
  cases call with
  | statement statement =>
      cases choice with
      | proceed now =>
          have executed : (shared.execute now index statement).2 = shared' :=
            congrArg Prod.snd (Option.some.inj answered)
          exact executed ▸ keepsRows_execute now statement
      | fail error =>
          cases answered
          rw [fail]
          split
          · exact ⟨rfl, rfl⟩
          · exact .refl shared
      | reject error => cases answered
  | publish origin queue message =>
      cases answered
      exact ⟨rfl, rfl⟩
  | awaitConfirm delivery =>
      cases choice with
      | proceed now =>
          simp only [answer, Option.ite_none_right_eq_some] at answered
          rcases answered with ⟨_, ⟨⟩⟩
          exact ⟨rfl, rfl⟩
      | fail error => cases answered
      | reject error =>
          cases answered
          exact .refl shared
  | recordOutboxPublishFailure =>
      cases answered
      exact ⟨rfl, rfl⟩

theorem keepsRows_environment {event : Event κ} (others : ¬ event.Writes)
    (happened : shared.environment event = some shared') : shared.KeepsRows shared' := by
  cases event with
  | insert entry => exact absurd trivial others
  | commit row => exact absurd trivial others
  | rollback row => exact absurd trivial others
  | arrive delivery =>
      rw [environment, Option.ite_none_right_eq_some] at happened
      rcases happened with ⟨_, ⟨⟩⟩
      exact ⟨rfl, rfl⟩
  | lose delivery =>
      cases happened
      exact ⟨rfl, rfl⟩
  | abort index =>
      rw [environment] at happened
      split at happened
      · cases happened
      · cases happened
        exact ⟨rfl, rfl⟩

end Shared

/-- A step of the relay that no writer takes writes no row. -/
theorem keepsRows_of_step {κ : Type} [DecidableEq κ]
    {world next : Machine.World (machine κ) Failure ℕ}
    {action : Machine.Action (machine κ)} (stepped : Machine.step world action = some next)
    (others : ∀ event, action = .environment event → ¬ event.Writes) :
    world.shared.KeepsRows next.shared := by
  cases action with
  | session index choice =>
      rcases Machine.step_session stepped with
        ⟨call, resume, reply, shared, own, running, answered, rfl⟩
      exact Shared.keepsRows_answer (answer_of_machine answered)
  | environment event =>
      rcases Option.map_eq_some_iff.mp stepped with ⟨shared, happened, rfl⟩
      exact Shared.keepsRows_environment (others event rfl) happened

section Refresh

variable {κ : Type} {shared : Shared κ} {rows : OutboxTable} {nextOutboxId : ℕ}

theorem Shared.mem_refresh {row' : OutboxRow} :
    row' ∈ (shared.refresh rows nextOutboxId).outbox ↔
      ∃ row ∈ rows, { row with publishedAt := shared.publishedAt row.id } = row' := by
  rw [refresh, SortedTable.mem_mapRows]

@[simp]
theorem Shared.announced_refresh :
    (shared.refresh rows nextOutboxId).announced = rows.rows.map .ofRow := by
  rw [announced, refresh, SortedTable.mapRows, List.map_map]
  rfl

/-- A row the drains have marked is one of their rows. -/
theorem Shared.exists_of_publishedAt {id : ℕ} (marked : shared.publishedAt id ≠ none) :
    ∃ row ∈ shared.outbox, row.id = id ∧ row.publishedAt ≠ none := by
  rcases Option.ne_none_iff_exists'.mp marked with ⟨date, isMark⟩
  rcases Option.bind_eq_some_iff.mp isMark with ⟨row, found, isDate⟩
  have named : row.id = id := by simpa using List.find?_some found
  exact ⟨row, List.mem_of_find?_eq_some found, named, by simp [isDate]⟩

/-- Rows the writers have only appended to, after the visible rows of their requests, may be
published. -/
theorem Shared.extends_refresh {old : OutboxTable} (said : shared.announced = old.rows.map .ofRow)
    (kept : ∀ row ∈ old, row ∈ rows)
    (added : ∀ row ∈ rows, row ∈ old ∨
      ∀ other ∈ old, other.request = row.request → other.id < row.id) :
    shared.Extends (shared.refresh rows nextOutboxId) where
  kept row rowMem := by
    have selected : PendingOutboxRow.ofRow row ∈ old.rows.map .ofRow :=
      said ▸ List.mem_map_of_mem rowMem
    rcases List.mem_map.mp selected with ⟨stored, storedMem, same⟩
    rcases PendingOutboxRow.ofRow_eq_iff.mp same with ⟨sameId, sameEntry⟩
    exact ⟨_, mem_refresh.mpr ⟨stored, kept stored storedMem, rfl⟩, sameId, sameEntry⟩
  added row' row'Mem := by
    rcases mem_refresh.mp row'Mem with ⟨stored, storedMem, rfl⟩
    rcases added stored storedMem with old | last
    · have selected : PendingOutboxRow.ofRow stored ∈ shared.announced :=
        said ▸ List.mem_map_of_mem old
      rcases List.mem_map.mp selected with ⟨row, rowMem, same⟩
      rcases PendingOutboxRow.ofRow_eq_iff.mp same with ⟨sameId, sameEntry⟩
      exact .inl ⟨row, rowMem, sameId.symm, sameEntry.symm⟩
    · refine .inr fun row rowMem sameRequest => ?_
      have selected : PendingOutboxRow.ofRow row ∈ old.rows.map .ofRow :=
        said ▸ List.mem_map_of_mem rowMem
      rcases List.mem_map.mp selected with ⟨visible, visibleMem, same⟩
      rcases PendingOutboxRow.ofRow_eq_iff.mp same with ⟨sameId, sameEntry⟩
      have below := last visible visibleMem
        ((OutboxRow.request_congr sameEntry.symm).symm.trans sameRequest)
      exact sameId ▸ below
  confirmed _ := id

/-- The drains tolerate the rows the store goes on committing. -/
theorem Shared.Invariant.refresh (invariant : shared.Invariant)
    (step : shared.Extends (shared.refresh rows nextOutboxId))
    (none : shared.uncommitted = []) (numbered : ∀ row ∈ rows, row.id < nextOutboxId) :
    (shared.refresh rows nextOutboxId).Invariant := by
  constructor
  · constructor
    · intro row' row'Mem
      rcases mem_refresh.mp row'Mem with ⟨row, rowMem, rfl⟩
      exact numbered row rowMem
    · simp [Shared.refresh, none]
    · simp [Shared.refresh, none]
    · simp [Shared.refresh, none]
  · intro row' row'Mem marked
    rcases mem_refresh.mp row'Mem with ⟨row, rowMem, rfl⟩
    rcases exists_of_publishedAt marked with ⟨old, oldMem, named, published⟩
    exact named ▸ step.confirms (invariant.published old oldMem published)
  · intro index now marks opened id idMem
    exact step.confirms (invariant.marks index now marks opened id idMem)
  · intro delivery sent
    exact step.warranted (invariant.warranted delivery sent)
  · exact invariant.confirmed

end Refresh

end Relay

namespace System

variable {ι κ : Type} [Fintype ι] [DecidableEq ι] [DecidableEq κ] {system next : System ι κ}

theorem stepRelay_eq_some {own : Machine.Action (Relay.machine κ)} :
    system.stepRelay own = some next ↔
      ∃ relay, Machine.step system.relay own = some relay ∧ next = { system with relay } := by
  simp only [stepRelay, Option.map_eq_some_iff, eq_comm (a := next)]

/-- What a step can do. -/
theorem step_cases {action : Action ι κ} (stepped : system.step action = some next) :
    (∃ own store, Machine.step system.store own = some store ∧ next =
      { store
        relay := { system.relay with
          shared := system.relay.shared.refresh store.shared.database.outbox
            store.shared.nextOutboxId } }) ∨
    ∃ own relay, Machine.step system.relay own = some relay ∧
      (∀ event, own = .environment event → ¬ event.Writes) ∧ next = { system with relay } := by
  cases action with
  | useCase index choice =>
      rcases Option.map_eq_some_iff.mp stepped with ⟨store, taken, isNext⟩
      exact .inl ⟨.session index choice, store, taken, isNext.symm⟩
  | drain index choice =>
      rcases stepRelay_eq_some.mp stepped with ⟨relay, taken, isNext⟩
      refine .inr ⟨.session index choice, relay, taken, ?_, isNext⟩
      rintro _ ⟨⟩
  | arrive delivery =>
      rcases stepRelay_eq_some.mp stepped with ⟨relay, taken, isNext⟩
      refine .inr ⟨.environment (.arrive delivery), relay, taken, ?_, isNext⟩
      rintro _ ⟨⟩ ⟨⟩
  | lose delivery =>
      rcases stepRelay_eq_some.mp stepped with ⟨relay, taken, isNext⟩
      refine .inr ⟨.environment (.lose delivery), relay, taken, ?_, isNext⟩
      rintro _ ⟨⟩ ⟨⟩
  | abort index =>
      rcases stepRelay_eq_some.mp stepped with ⟨relay, taken, isNext⟩
      refine .inr ⟨.environment (.abort index), relay, taken, ?_, isNext⟩
      rintro _ ⟨⟩ ⟨⟩

/-- What holds between any two steps: the drains see the rows the store has committed, and find them
as they expect their writers to leave them. -/
structure Coupled (operations : ι → Operation) (nextOutboxId : ℕ) (system : System ι κ) : Prop where
  store : Machine.Reaches (Postgres.start true operations .empty nextOutboxId) system.store
  relay : (Relay.discipline κ).Holds (fun _ _ _ _ => True) system.relay
  announced : system.relay.shared.announced =
    system.store.shared.database.outbox.rows.map .ofRow
  uncommitted : system.relay.shared.uncommitted = []

variable {operations : ι → Operation} {nextOutboxId : ℕ} {batchSize : κ → ℕ}

theorem coupled_start :
    (start operations nextOutboxId batchSize).Coupled operations nextOutboxId where
  store := .refl
  relay := Relay.holds_start batchSize
  announced := rfl
  uncommitted := rfl

/-- A step of the store only adds rows, each after the rows of its request. -/
theorem Coupled.appended (coupled : system.Coupled operations nextOutboxId)
    {store : Machine.World (Postgres.machine ι true) Thrown Answer}
    {action : Machine.Action (Postgres.machine ι true)}
    (taken : Machine.step system.store action = some store) :
    system.relay.shared.Extends (system.relay.shared.refresh store.shared.database.outbox
      store.shared.nextOutboxId) := by
  have committed := Postgres.outbox_of_step Postgres.numbered_empty coupled.store taken
  exact Relay.Shared.extends_refresh coupled.announced committed.1 fun row rowMem =>
    (committed.2 row rowMem).imp_right fun appends other otherMem same =>
      (appends other otherMem).2 same

theorem Coupled.step (coupled : system.Coupled operations nextOutboxId) {action : Action ι κ}
    (stepped : system.step action = some next) : next.Coupled operations nextOutboxId := by
  rcases step_cases stepped with ⟨own, store, taken, rfl⟩ | ⟨own, relay, taken, others, rfl⟩
  · have reached := coupled.store.tail ⟨own, taken⟩
    have appended := coupled.appended taken
    have below := (Postgres.invariant_reached Postgres.numbered_empty reached).outbox_below
    exact {
      store := reached
      relay := coupled.relay.shift (coupled.relay.1.refresh appended coupled.uncommitted below)
        fun _ => appended
      announced := Relay.Shared.announced_refresh
      uncommitted := coupled.uncommitted }
  · have kept := Relay.keepsRows_of_step taken others
    exact {
      store := coupled.store
      relay := coupled.relay.step Relay.sound ⟨own, taken⟩
      announced := kept.announced.trans coupled.announced
      uncommitted := kept.uncommitted.trans coupled.uncommitted }

/-- The two fit together in every state of every run. -/
theorem coupled_reached (reached : (start operations nextOutboxId batchSize).Reaches system) :
    system.Coupled operations nextOutboxId := by
  induction reached with
  | refl => exact coupled_start
  | tail _ stepped ih =>
      rcases stepped with ⟨action, taken⟩
      exact ih.step taken

/-- What is handed to the broker is a row the store has committed. -/
theorem Coupled.row_of_sent (coupled : system.Coupled operations nextOutboxId)
    {delivery : Relay.Delivery} (sent : delivery ∈ system.relay.shared.inFlight ∨
      delivery ∈ system.relay.shared.received) :
    ∃ row ∈ system.store.shared.database.outbox,
      row.entry.route.pattern = delivery.message.pattern ∧
        row.entry.payload = delivery.message.data := by
  rcases coupled.relay.1.warranted delivery sent with ⟨row, rowMem, selected, _⟩
  have announced : Relay.PendingOutboxRow.ofRow row ∈ system.relay.shared.announced :=
    List.mem_map_of_mem rowMem
  rw [coupled.announced] at announced
  rcases List.mem_map.mp announced with ⟨stored, storedMem, same⟩
  rw [selected] at same
  exact ⟨stored, storedMem, congrArg Relay.PendingOutboxRow.pattern same,
    congrArg Relay.PendingOutboxRow.payload same⟩

/-- What a step does in the store. -/
def Action.inStore : Action ι κ → Option (Machine.Action (Postgres.machine ι true))
  | .useCase index choice => some (.session index choice)
  | _ => none

/-- A run of the system is a run of its store. -/
theorem store_ran {actions : List (Action ι κ)} (ran : system.runActions actions = some next) :
    Machine.runActions system.store (actions.filterMap Action.inStore) = some next.store := by
  induction actions generalizing system with
  | nil =>
      cases ran
      rfl
  | cons action actions ih =>
      rcases Option.bind_eq_some_iff.mp ran with ⟨middle, first, rest⟩
      cases action with
      | useCase index choice =>
          rcases Option.map_eq_some_iff.mp first with ⟨store, taken, rfl⟩
          exact Option.bind_eq_some_iff.mpr ⟨store, taken, ih rest⟩
      | _ =>
          rcases stepRelay_eq_some.mp first with ⟨relay, _, rfl⟩
          have stayed := ih rest
          exact stayed

theorem Reaches.store (reached : system.Reaches next) :
    Machine.Reaches system.store next.store := by
  induction reached with
  | refl => exact .refl
  | tail _ stepped ih =>
      rcases stepped with ⟨action, taken⟩
      rcases step_cases taken with ⟨own, store, moved, rfl⟩ | ⟨_, _, _, _, rfl⟩
      · exact ih.tail ⟨own, moved⟩
      · exact ih

end System

end ProcessingCatalog
