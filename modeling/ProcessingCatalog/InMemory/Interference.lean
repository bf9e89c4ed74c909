import ProcessingCatalog.InMemory.Adapter
import ProcessingCatalog.Store.Verdict

/-!
# Executions over the maps interfere

The world in which a finite family of calls runs over the maps of one process,
interleaved at every await. Nothing holds a request between the read of an
execution and its update, so what is read may be overwritten after it has
changed. As long as every update overwrites the request its own execution read,
a request that has ended stays as it is, and its end is announced once.
-/

namespace ProcessingCatalog

open Effect

namespace InMemory

/-- The maps serving the executions `ι`. Beside its program, an execution is known by the request
its last `findForUpdate` read. -/
abbrev machine (ι : Type) : Machine signature ι where
  Shared := Store
  Local := Option ProcessingRequest
  Choice := Unit
  Event := Empty
  answer _ index store reads call :=
    let (reply, left) := store.answer call
    let read :=
      match call with
      | .findForUpdate processingRequestId => store.findByProcessingRequestId processingRequestId
      | _ => reads index
    some (reply, left, read)
  environment := nofun

variable {ι : Type}

abbrev World (ι : Type) := Machine.World (machine ι) Thrown Answer

/-- The calls, none of which has made a step yet. -/
def start (operations : ι → Operation) (store : Store) : World ι where
  shared := store
  locals _ := none
  programs index := (operations index).execute repository unitOfWork

/-- The terminal events the outbox holds about a request. -/
def Store.terminalEvents (store : Store) (processingRequestId : JsString) : List OutboxEntry :=
  store.entries.filter fun entry =>
    entry.route.pattern = js "terminal.event" ∧
      entry.payload.processingRequestId = processingRequestId

/-- A stored request that has ended. -/
def Store.Ended (store : Store) (processingRequestId : JsString) : Prop :=
  ∃ request, store.requests.find? processingRequestId = some request ∧ request.status.Terminal

/-- In every run of `steps`, a request that has ended keeps its status. -/
def StaysEnded (steps : World ι → World ι → Prop) (first : World ι)
    (processingRequestId : JsString) : Prop :=
  ∀ world later, Relation.ReflTransGen steps first world → Relation.ReflTransGen steps world later →
    ∀ request, world.shared.requests.find? processingRequestId = some request →
      request.status.Terminal →
        ∃ request', later.shared.requests.find? processingRequestId = some request' ∧
          request'.status = request.status

/-- In every run of `steps`, at most one terminal event is added about a request. -/
def AnnouncedOnce (steps : World ι → World ι → Prop) (first : World ι)
    (processingRequestId : JsString) : Prop :=
  ∀ world, Relation.ReflTransGen steps first world →
    (world.shared.terminalEvents processingRequestId).length ≤
      (first.shared.terminalEvents processingRequestId).length + 1

variable [DecidableEq ι]

/-- The step of an execution that updates no request, or one that is stored as it read it. -/
def Current (world : World ι) (index : ι) : Prop :=
  ∀ updated resume, world.programs index = .call (.update updated) resume →
    ∃ read, world.locals index = some read ∧
      world.shared.requests.find? updated.processingRequestId = some read

/-- A step whose update, if it is one, overwrites what its execution read. -/
def CurrentStep (world next : World ι) : Prop :=
  ∃ index, Current world index ∧ Machine.step world (.session index ()) = some next

/-- The update a program is about to make. -/
def nextUpdate : Computation signature Answer → Option ProcessingRequest
  | .call (.update updated) _ => some updated
  | _ => none

omit [DecidableEq ι] in
theorem current_iff {world : World ι} {index : ι} :
    Current world index ↔ ∀ updated ∈ nextUpdate (world.programs index),
      (world.locals index).isSome ∧
        world.shared.requests.find? updated.processingRequestId = world.locals index := by
  constructor
  · intro current updated isNext
    unfold nextUpdate at isNext
    split at isNext
    · next running =>
        cases isNext
        rcases current updated _ running with ⟨read, isRead, stored⟩
        rw [isRead]
        exact ⟨rfl, stored⟩
    · cases isNext
  · intro fresh updated resume running
    rcases fresh updated (by rw [running]; rfl) with ⟨read, stored⟩
    rcases Option.isSome_iff_exists.mp read with ⟨read, isRead⟩
    exact ⟨read, isRead, stored.trans isRead⟩

instance (world : World ι) (index : ι) : Decidable (Current world index) :=
  decidable_of_iff _ current_iff.symm

/-- The world after a step of each of these executions in turn, none of which overwrites what it has
not read. -/
def runCurrent (world : World ι) : List ι → Option (World ι)
  | [] => some world
  | index :: turns =>
      if Current world index then
        (Machine.step world (.session index ())).bind fun next => runCurrent next turns
      else none

theorem reaches_of_runCurrent {world next : World ι} {turns : List ι}
    (ran : runCurrent world turns = some next) : Relation.ReflTransGen CurrentStep world next := by
  induction turns generalizing world with
  | nil =>
      cases ran
      exact .refl
  | cons index turns ih =>
      rw [runCurrent, Option.ite_none_right_eq_some] at ran
      rcases ran with ⟨current, ran⟩
      rcases Option.bind_eq_some_iff.mp ran with ⟨middle, stepped, rest⟩
      exact .head ⟨index, current, stepped⟩ (ih rest)

/-! ## What an execution does -/

/-- How far an execution has come: it still reads, it has updated the request, to one that has
ended or not, or it has announced the end. -/
inductive Stage where
  | reading
  | updated (ended : Bool)
  | announced
  deriving DecidableEq

/-- What a program may still do to the request with an identifier, by its stage and by what it
last read for update. -/
def Obeys {α : Type} (processingRequestId : JsString) :
    Stage → Option ProcessingRequest → Computation signature α → Prop
  | _, _, .pure _ => True
  | _, _, .throw _ => True
  | stage, read, .call call resume =>
      match call, resume with
      | .save _, _ => False
      | .update updated, resume =>
          stage = .reading ∧ updated.processingRequestId = processingRequestId ∧
            (∀ request, read = some request → ¬ request.status.Terminal) ∧
            ∀ reply, Obeys processingRequestId (.updated (decide updated.status.Terminal)) read
              (resume reply)
      | .findForUpdate text, resume =>
          ∀ reply : Option ProcessingRequest,
            (∀ request, reply = some request → request.processingRequestId = text) →
              Obeys processingRequestId stage reply (resume reply)
      | .add route _, resume =>
          if route.pattern = js "terminal.event" then
            stage = .updated true ∧
              ∀ reply, Obeys processingRequestId .announced read (resume reply)
          else
            ∀ reply, Obeys processingRequestId stage read (resume reply)
      | _, resume => ∀ reply, Obeys processingRequestId stage read (resume reply)

section Obeys

variable {processingRequestId : JsString} {stage : Stage} {read : Option ProcessingRequest}

theorem obeys_add {α : Type} {route : EventRoute} {payload : OutboxPayload}
    {resume : Unit → Computation signature α} :
    Obeys processingRequestId stage read (.call (.add route payload) resume) ↔
      if route.pattern = js "terminal.event" then
        stage = .updated true ∧ ∀ reply, Obeys processingRequestId .announced read (resume reply)
      else
        ∀ reply, Obeys processingRequestId stage read (resume reply) := Iff.rfl

theorem Obeys.map {α β : Type} (f : α → β) {program : Computation signature α}
    (obeys : Obeys processingRequestId stage read program) :
    Obeys processingRequestId stage read (f <$> program) := by
  induction program generalizing stage read with
  | pure value => trivial
  | throw error => trivial
  | call call resume ih =>
      have next : f <$> Program.call call resume =
        Program.call (ε := Thrown) call fun reply => f <$> resume reply := rfl
      rw [next]
      cases call with
      | save request => exact obeys
      | update updated =>
          exact ⟨obeys.1, obeys.2.1, obeys.2.2.1, fun reply => ih reply (obeys.2.2.2 reply)⟩
      | findForUpdate text => exact fun reply found => ih reply (obeys reply found)
      | add route payload =>
          rw [obeys_add] at obeys ⊢
          split
          · next isTerminal =>
              rw [if_pos isTerminal] at obeys
              exact ⟨obeys.1, fun reply => ih reply (obeys.2 reply)⟩
          · next other =>
              rw [if_neg other] at obeys
              exact fun reply => ih reply (obeys reply)
      | _ => exact fun reply => ih reply (obeys reply)

variable {operation : Operation} {event : LifecycleEvent}

/-- What is recorded about the request read is one update of it, if it has not ended, and at most
one terminal event, if it has then. -/
theorem obeys_handleLocked (isEvent : operation.event? = some event)
    {request : ProcessingRequest} (named : request.processingRequestId = processingRequestId) :
    Obeys processingRequestId .reading (some request)
      (event.handleLocked ⟨repository, outboxWriter⟩ request) := by
  unfold LifecycleEvent.handleLocked
  cases decided : event.decide request with
  | error error => trivial
  | ok decision =>
      cases decision with
      | noted => exact fun _ => trivial
      | applied updated entry =>
          have sameId : updated.processingRequestId = processingRequestId :=
            (event.lawful decided).1.1.trans named
          have opened : ∀ other, some request = some other → ¬ other.status.Terminal := by
            rintro other ⟨⟩ ended
            exact Operation.not_applied_of_terminal isEvent ended decided
          cases entry with
          | none => exact ⟨rfl, sameId, opened, fun _ _ => trivial⟩
          | some entry =>
              rcases entry with ⟨route, payload⟩
              refine ⟨rfl, sameId, opened, fun _ => obeys_add.mpr ?_⟩
              split
              · next isTerminal =>
                  have ended := Operation.terminal_of_announced isEvent decided isTerminal
                  exact ⟨by simp [ended], fun _ _ => trivial⟩
              · exact fun _ _ => trivial

/-- The transaction of an execution about the request obeys. -/
theorem obeys_transaction (isEvent : operation.event? = some event)
    (named : event.processingRequestId = processingRequestId) :
    Obeys processingRequestId .reading none
      (unitOfWork.runInTransaction fun ctx => do
        let some request ← ctx.requests.findForUpdate event.processingRequestId
          | throw (processingRequestNotFound event.processingRequestId)
        if ← ctx.requests.hasEventBeenProcessed event.eventId then
          return request
        event.handleLocked ctx request) := by
  intro reply found
  cases reply with
  | none => trivial
  | some request =>
      intro duplicate
      cases duplicate with
      | true => trivial
      | false => exact obeys_handleLocked isEvent ((found request rfl).trans named)

/-- Every execution about the request obeys from its first step on. -/
theorem obeys_execute (isEvent : operation.event? = some event)
    (named : event.processingRequestId = processingRequestId) :
    Obeys processingRequestId .reading none (operation.execute repository unitOfWork) := by
  rw [Operation.execute_of_event isEvent]
  refine Obeys.map _ ?_
  cases valid : event.refusal with
  | some error =>
      rw [LifecycleEvent.handle_of_refusal valid]
      trivial
  | none =>
      rw [LifecycleEvent.handle_of_valid valid]
      intro duplicate
      cases duplicate with
      | false => exact obeys_transaction isEvent named
      | true =>
          intro existing
          cases existing with
          | none => exact obeys_transaction isEvent named
          | some existing => trivial

end Obeys

/-! ## Runs in which every update is current -/

section Runs

variable {processingRequestId : JsString} {initial : Store}

/-- How the stages of the executions, the stored request and the announcements fit together:
nothing is announced before the request has ended, and one announcement at most is made or still
to come. -/
structure Accounted (processingRequestId : JsString) (initial : Store) (stages : ι → Stage)
    (store : Store) : Prop where
  before : ¬ store.Ended processingRequestId →
    store.terminalEvents processingRequestId = initial.terminalEvents processingRequestId ∧
      ∀ index, stages index ≠ .updated true
  after : store.terminalEvents processingRequestId = initial.terminalEvents processingRequestId ∧
      (∀ index other, stages index = .updated true → stages other = .updated true →
        index = other) ∨
    (store.terminalEvents processingRequestId).length =
        (initial.terminalEvents processingRequestId).length + 1 ∧
      ∀ index, stages index ≠ .updated true

def Invariant (processingRequestId : JsString) (initial : Store) (world : World ι) : Prop :=
  ∃ stages : ι → Stage, Accounted processingRequestId initial stages world.shared ∧
    ∀ index, Obeys processingRequestId (stages index) (world.locals index) (world.programs index)

omit [DecidableEq ι] in
theorem invariant_start {operations : ι → Operation}
    (named : ∀ index, ∃ event, (operations index).event? = some event ∧
      event.processingRequestId = processingRequestId) :
    Invariant processingRequestId initial (start operations initial) := by
  refine ⟨fun _ => .reading, ⟨fun _ => ⟨rfl, fun _ => nofun⟩, .inl ⟨rfl, fun _ _ => nofun⟩⟩, ?_⟩
  intro index
  rcases named index with ⟨event, isEvent, isNamed⟩
  exact obeys_execute isEvent isNamed

/-- The stages after a step of one execution, when the others keep theirs. -/
theorem updateStage_eq_updated {stages : ι → Stage} {index other : ι} {stage : Stage}
    (isUpdated : Function.update stages index stage other = .updated true) :
    other = index ∧ stage = .updated true ∨ other ≠ index ∧ stages other = .updated true := by
  by_cases same : other = index
  · subst same
    exact .inl ⟨rfl, by simpa using isUpdated⟩
  · exact .inr ⟨same, by simpa [same] using isUpdated⟩

omit [DecidableEq ι] in
/-- A step that neither changes the request or the announcements, nor the stage. -/
theorem Accounted.keep {stages : ι → Stage} {store left : Store}
    (accounted : Accounted processingRequestId initial stages store)
    (requests : left.requests = store.requests)
    (events : left.terminalEvents processingRequestId =
      store.terminalEvents processingRequestId) :
    Accounted processingRequestId initial stages left := by
  have ended : left.Ended processingRequestId ↔ store.Ended processingRequestId := by
    simp [Store.Ended, requests]
  exact ⟨fun opened => events ▸ accounted.before (ended.not.mp opened), events ▸ accounted.after⟩

/-- An update of a request that had not ended. -/
theorem Accounted.update {stages : ι → Stage} {store : Store}
    (accounted : Accounted processingRequestId initial stages store) {index : ι}
    {updated : ProcessingRequest} (named : updated.processingRequestId = processingRequestId)
    (opened : ¬ store.Ended processingRequestId) :
    Accounted processingRequestId initial
      (Function.update stages index (.updated (decide updated.status.Terminal)))
      (store.update updated) := by
  rcases accounted.before opened with ⟨quiet, none⟩
  have stored : (store.update updated).requests.find? processingRequestId = some updated := by
    simp [Store.update, KeyedTable.find?_upsert, named]
  refine ⟨fun stillOpen => ⟨quiet, fun other isUpdated => ?_⟩, .inl ⟨quiet, ?_⟩⟩
  · rcases updateStage_eq_updated isUpdated with ⟨_, isEnded⟩ | ⟨_, before⟩
    · exact stillOpen ⟨updated, stored, by simpa using isEnded⟩
    · exact none other before
  · intro first second isFirst isSecond
    rcases updateStage_eq_updated isFirst with ⟨rfl, _⟩ | ⟨_, before⟩
    · rcases updateStage_eq_updated isSecond with ⟨rfl, _⟩ | ⟨_, before⟩
      · rfl
      · exact absurd before (none second)
    · exact absurd before (none first)

/-- The announcement of the end, by the execution that updated the request. -/
theorem Accounted.announce {stages : ι → Stage} {store : Store}
    (accounted : Accounted processingRequestId initial stages store) {index : ι}
    (isUpdated : stages index = .updated true) (route : EventRoute) (payload : OutboxPayload) :
    Accounted processingRequestId initial (Function.update stages index .announced)
      (store.add route payload) := by
  have ended : store.Ended processingRequestId := by
    by_contra opened
    exact (accounted.before opened).2 index isUpdated
  have none : ∀ other, Function.update stages index .announced other ≠ .updated true := by
    intro other stillUpdated
    rcases updateStage_eq_updated stillUpdated with ⟨_, isAnnounced⟩ | ⟨different, before⟩
    · cases isAnnounced
    · rcases accounted.after with ⟨_, unique⟩ | ⟨_, nobody⟩
      · exact different (unique other index before isUpdated)
      · exact nobody index isUpdated
  refine ⟨fun opened => absurd ended opened, ?_⟩
  rcases accounted.after with ⟨quiet, _⟩ | ⟨_, nobody⟩
  · by_cases about : route.pattern = js "terminal.event" ∧
        payload.processingRequestId = processingRequestId
    · right
      refine ⟨?_, none⟩
      rw [← quiet]
      simp [Store.terminalEvents, Store.add, List.filter_append, about]
    · left
      refine ⟨?_, fun first second isFirst => absurd isFirst (none first)⟩
      rw [← quiet]
      simp [Store.terminalEvents, Store.add, List.filter_append, about]
  · exact absurd isUpdated (nobody index)

/-- What the executions obey after a step of one of them. -/
theorem obeys_step {world : World ι} (index : ι) {stages : ι → Stage}
    (obeys : ∀ other, Obeys processingRequestId (stages other) (world.locals other)
      (world.programs other)) {stage : Stage} {read : Option ProcessingRequest}
    {program : Computation signature Answer}
    (next : Obeys processingRequestId stage read program) (other : ι) :
    Obeys processingRequestId (Function.update stages index stage other)
      (Function.update world.locals index read other)
      (Function.update world.programs index program other) := by
  by_cases same : other = index
  · subst same
    simpa using next
  · simpa [same] using obeys other

/-- A step keeps the invariant, and the request once it has ended. -/
theorem invariant_step {world next : World ι}
    (invariant : Invariant processingRequestId initial world) (stepped : CurrentStep world next) :
    Invariant processingRequestId initial next ∧
      ∀ request, world.shared.requests.find? processingRequestId = some request →
        request.status.Terminal →
          next.shared.requests.find? processingRequestId = some request := by
  rcases stepped with ⟨index, current, taken⟩
  rcases invariant with ⟨stages, accounted, obeys⟩
  rcases Machine.step_session taken with ⟨call, resume, reply, left, own, running, answered, rfl⟩
  have here := obeys index
  rw [running] at here
  -- a call that only reads, or records an event, leaves the stage
  have kept : left.requests = world.shared.requests → left.entries = world.shared.entries →
      Obeys processingRequestId (stages index) own (resume reply) →
      Invariant processingRequestId initial
          ⟨left, Function.update world.locals index own,
            Function.update world.programs index (resume reply)⟩ ∧
        ∀ request, world.shared.requests.find? processingRequestId = some request →
          request.status.Terminal → left.requests.find? processingRequestId = some request := by
    intro requests entries obeysNext
    refine ⟨⟨stages, accounted.keep requests (by simp [Store.terminalEvents, entries]), ?_⟩, ?_⟩
    · intro other
      have next := obeys_step index obeys obeysNext other
      rwa [Function.update_eq_self] at next
    · intro request found _
      rw [requests]
      exact found
  cases call with
  | save request => exact here.elim
  | update updated =>
      rcases here with ⟨_, named, openedRead, next⟩
      rcases current updated resume running with ⟨read, isRead, stored⟩
      have opened : ¬ world.shared.Ended processingRequestId := by
        rintro ⟨request, found, ended⟩
        rw [named] at stored
        cases stored.symm.trans found
        exact openedRead read isRead ended
      cases answered
      refine ⟨⟨_, accounted.update named opened, obeys_step index obeys (next ())⟩, ?_⟩
      exact fun request found ended => absurd ⟨request, found, ended⟩ opened
  | add route payload =>
      rw [obeys_add] at here
      cases answered
      split at here
      · exact ⟨⟨_, accounted.announce here.1 route payload, obeys_step index obeys (here.2 ())⟩,
          fun request found _ => found⟩
      · next other =>
          refine ⟨⟨stages, accounted.keep rfl ?_, ?_⟩, fun request found _ => found⟩
          · simp [Store.terminalEvents, Store.add, List.filter_append, other]
          · intro other
            have next := obeys_step index obeys (here ()) other
            rwa [Function.update_eq_self] at next
  | findForUpdate text =>
      cases answered
      exact kept rfl rfl (here _ fun request found => KeyedTable.key_of_find? found)
  | _ =>
      cases answered
      exact kept rfl rfl (here _)

/-- Executions about one request, over maps that hold anything: in every run in which each update
overwrites what its own execution read, the request keeps its status once it has ended, and its
end is announced at most once. -/
theorem ends_once_of_current (operations : ι → Operation) (store : Store)
    (processingRequestId : JsString)
    (named : ∀ index, ∃ event, (operations index).event? = some event ∧
      event.processingRequestId = processingRequestId) :
    StaysEnded CurrentStep (start operations store) processingRequestId ∧
      AnnouncedOnce CurrentStep (start operations store) processingRequestId := by
  have invariant : ∀ world, Relation.ReflTransGen CurrentStep (start operations store) world →
      Invariant processingRequestId store world := by
    intro world reached
    induction reached with
    | refl => exact invariant_start named
    | tail _ stepped ih => exact (invariant_step ih stepped).1
  constructor
  · intro world later reached continued request found ended
    refine ⟨request, ?_, rfl⟩
    induction continued with
    | refl => exact found
    | tail before stepped ih =>
        exact (invariant_step (invariant _ (reached.trans before)) stepped).2 request ih ended
  · intro world reached
    rcases invariant world reached with ⟨stages, accounted, _⟩
    rcases accounted.after with ⟨quiet, _⟩ | ⟨one, _⟩
    · rw [quiet]
      exact Nat.le_succ _
    · exact one.le

end Runs

/-- A request that was accepted, alone in the maps. -/
def queuedStore : Store where
  requests := KeyedTable.empty.upsert {
    processingRequestId := js "r-1"
    ownerUserId := js "owner"
    ownerEmail := js "owner@example.com"
    sourceStorageKey := js "uploads/a.mp4"
    status := .queued
    attemptId := some (js "a-1")
    zipStorageKey := none
    failureCode := none
    idempotencyKey := some (js "key")
    correlationId := none
    createdAt := 1789953000000
    updatedAt := 1789953060000 }
  eventIdToRequestId := .empty
  entries := []

/-- A start of the attempt, and its completion delivered twice. -/
def startAndCompletions : Fin 3 → Operation
  | 0 => .start ⟨1789953120000, .repeated 5, .repeated 6, 3000⟩
      ⟨js "e-3", js "r-1", js "a-1", js "2026-09-21T01:12:00.000Z"⟩
  | 1 => .complete ⟨1789953180000, .repeated 5, .repeated 7, 3000⟩
      ⟨js "e-4", js "r-1", js "a-1", js "zips/a.zip", js "2026-09-21T01:13:00.000Z"⟩
  | 2 => .complete ⟨1789953180000, .repeated 5, .repeated 8, 3000⟩
      ⟨js "e-4", js "r-1", js "a-1", js "zips/a.zip", js "2026-09-21T01:13:00.000Z"⟩

theorem ends_once_of_current_race :
    ∃ world, Relation.ReflTransGen CurrentStep (start startAndCompletions queuedStore) world ∧
      world.shared.Ended (js "r-1") ∧ (world.shared.terminalEvents (js "r-1")).length = 1 ∧
      StaysEnded CurrentStep (start startAndCompletions queuedStore) (js "r-1") ∧
      AnnouncedOnce CurrentStep (start startAndCompletions queuedStore) (js "r-1") := by
  -- the start runs first; both deliveries of the completion look for their event before one of
  -- them records it
  have ran : ((runCurrent (start startAndCompletions queuedStore)
      (List.replicate 5 0 ++ [1, 2] ++ List.replicate 5 1 ++ List.replicate 2 2)).map fun world =>
        ((world.shared.requests.find? (js "r-1")).map (·.status),
          (world.shared.terminalEvents (js "r-1")).length)) = some (some .completed, 1) := by
    decide +kernel
  rcases Option.map_eq_some_iff.mp ran with ⟨world, ran, observed⟩
  rcases Prod.mk.inj observed with ⟨completed, once⟩
  rcases Option.map_eq_some_iff.mp completed with ⟨request, found, isCompleted⟩
  refine ⟨world, reaches_of_runCurrent ran, ⟨request, found, .inl isCompleted⟩, once,
    ends_once_of_current startAndCompletions queuedStore (js "r-1") fun index => ?_⟩
  match index with
  | 0 => exact ⟨_, rfl, rfl⟩
  | 1 => exact ⟨_, rfl, rfl⟩
  | 2 => exact ⟨_, rfl, rfl⟩

/-- Three steps of each execution in turn. -/
def inThrees (turns : List (Fin 3)) : List (Machine.Action (machine (Fin 3))) :=
  turns.flatMap fun index => List.replicate 3 (.session index ())

/-- All three executions read the request before one of them updates it: its end is announced
twice, and the start then takes it back out of its end. -/
theorem ends_twice :
    ¬ StaysEnded Machine.Step (start startAndCompletions queuedStore) (js "r-1") ∧
      ¬ AnnouncedOnce Machine.Step (start startAndCompletions queuedStore) (js "r-1") := by
  have ran : ((Machine.runActions (start startAndCompletions queuedStore)
      (inThrees [0, 1, 2, 1, 2])).bind fun world =>
        (Machine.runActions world [.session 0 ()]).map fun later =>
          ((world.shared.requests.find? (js "r-1")).map (·.status),
            (world.shared.terminalEvents (js "r-1")).length,
            (later.shared.requests.find? (js "r-1")).map (·.status))) =
      some (some .completed, 2, some .processing) := by
    decide +kernel
  rcases Option.bind_eq_some_iff.mp ran with ⟨world, reached, ran⟩
  rcases Option.map_eq_some_iff.mp ran with ⟨later, continued, read⟩
  have reached := Machine.reaches_of_runActions reached
  have continued := Machine.reaches_of_runActions continued
  rcases Prod.mk.inj read with ⟨completed, rest⟩
  rcases Prod.mk.inj rest with ⟨twice, restarted⟩
  rcases Option.map_eq_some_iff.mp completed with ⟨request, found, isCompleted⟩
  rcases Option.map_eq_some_iff.mp restarted with ⟨left, foundLater, isProcessing⟩
  constructor
  · intro stays
    rcases stays world later reached continued request found (.inl isCompleted) with
      ⟨request', found', same⟩
    cases foundLater.symm.trans found'
    rw [isCompleted, isProcessing] at same
    cases same
  · intro once
    have atMostOne := once world reached
    rw [twice] at atMostOne
    exact absurd atMostOne (by decide)

end InMemory

end ProcessingCatalog
