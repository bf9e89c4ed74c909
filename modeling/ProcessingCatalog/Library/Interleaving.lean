import ProcessingCatalog.Library.Program
import Mathlib.Logic.Relation
import Mathlib.Logic.Function.Basic

/-!
# Interleaved sessions and their rely-guarantee rules

A machine answers the calls of a family of sessions, each running a program of
its own, over a state they share and a local state each of them keeps (a
connection, what it holds locked). A step answers one call of one session, or
is taken by the environment; any order of steps is a run.

A session is verified by following its program alone. Each call is answered
from any state that satisfies the global invariant and the session's current
assertion; the answer must satisfy the session's guarantee and re-establish an
assertion that is stable, that is, preserved by every change the other sessions
may make. `follows_bind` and `follows_tryCatch` are the rules that follow a
composite program part by part. `Holds.reaches` is the soundness of this method:
if the guarantees entail what the others rely on, the assertions hold in every
reachable state of every interleaving.
-/

namespace Effect

/-- A machine that answers the calls of the sessions in `ι`, one at a time. -/
structure Machine (σ : Signature) (ι : Type) where
  Shared : Type
  Local : Type
  /-- What the machine may decide freely when it answers a call. -/
  Choice : Type
  /-- The steps of the shared state that no session takes. -/
  Event : Type
  /-- The answer to a call of one session, if the call is not blocked. -/
  answer : Choice → ι → Shared → (ι → Local) → (request : σ.Call) →
    Option (σ.Reply request × Shared × Local)
  environment : Event → Shared → Option Shared

namespace Machine

variable {σ : Signature} {ι : Type}

/-- A state of the machine together with the sessions it serves. -/
structure World (machine : Machine σ ι) (ε α : Type) where
  shared : machine.Shared
  locals : ι → machine.Local
  programs : ι → Program σ ε α

/-- One step of a run: a call of a session is answered, or the environment acts. -/
inductive Action (machine : Machine σ ι) where
  | session (index : ι) (choice : machine.Choice)
  | environment (event : machine.Event)

variable {ε α : Type} [DecidableEq ι] {machine : Machine σ ι}

def step (world : World machine ε α) : Action machine → Option (World machine ε α)
  | .session index choice =>
      match world.programs index with
      | .pure _ => none
      | .throw _ => none
      | .call request resume =>
          (machine.answer choice index world.shared world.locals request).map
            fun (reply, shared, own) =>
              { shared
                locals := Function.update world.locals index own
                programs := Function.update world.programs index (resume reply) }
  | .environment event =>
      (machine.environment event world.shared).map fun shared => { world with shared }

/-- The world after a list of steps, when none of them is blocked. -/
def runActions (world : World machine ε α) : List (Action machine) → Option (World machine ε α)
  | [] => some world
  | action :: actions => (step world action).bind fun next => runActions next actions

/-- The world after those of the steps that are not blocked. -/
def follow (world : World machine ε α) : List (Action machine) → World machine ε α
  | [] => world
  | action :: actions => follow ((step world action).getD world) actions

def Step (world next : World machine ε α) : Prop :=
  ∃ action, step world action = some next

/-- The worlds that some run leads to. -/
def Reaches : World machine ε α → World machine ε α → Prop :=
  Relation.ReflTransGen Step

/-- The worlds that a run of allowed steps leads to. -/
def ReachesBy (allowed : Action machine → Prop) : World machine ε α → World machine ε α → Prop :=
  Relation.ReflTransGen fun world next => ∃ action, allowed action ∧ step world action = some next

theorem ReachesBy.reaches {allowed : Action machine → Prop} {world next : World machine ε α}
    (reached : ReachesBy allowed world next) : Reaches world next := by
  induction reached with
  | refl => exact .refl
  | tail _ stepped ih =>
      rcases stepped with ⟨action, _, taken⟩
      exact ih.tail ⟨action, taken⟩

theorem reachesBy_of_runActions {allowed : Action machine → Prop} {world next : World machine ε α}
    {actions : List (Action machine)} (ran : runActions world actions = some next)
    (every : ∀ action ∈ actions, allowed action) : ReachesBy allowed world next := by
  induction actions generalizing world with
  | nil =>
      cases ran
      exact .refl
  | cons action actions ih =>
      rcases Option.bind_eq_some_iff.mp ran with ⟨middle, first, rest⟩
      refine .head ⟨action, every action List.mem_cons_self, first⟩ (ih rest ?_)
      exact fun other otherMem => every other (List.mem_cons_of_mem _ otherMem)

/-- What a step of one session does. -/
theorem step_session {world next : World machine ε α} {index : ι} {choice : machine.Choice}
    (stepped : step world (.session index choice) = some next) :
    ∃ request resume reply shared own, world.programs index = .call request resume ∧
      machine.answer choice index world.shared world.locals request =
        some (reply, shared, own) ∧
      next = { shared
               locals := Function.update world.locals index own
               programs := Function.update world.programs index (resume reply) } := by
  cases running : world.programs index with
  | pure value => simp [step, running] at stepped
  | throw error => simp [step, running] at stepped
  | call request resume =>
      simp only [step, running, Option.map_eq_some_iff] at stepped
      rcases stepped with ⟨⟨reply, shared, own⟩, answered, rfl⟩
      exact ⟨request, resume, reply, shared, own, rfl, answered, rfl⟩

theorem reaches_of_runActions {world next : World machine ε α} {actions : List (Action machine)}
    (ran : runActions world actions = some next) : Reaches world next := by
  induction actions generalizing world with
  | nil =>
      cases ran
      exact .refl
  | cons action actions ih =>
      obtain ⟨middle, first, rest⟩ := Option.bind_eq_some_iff.mp ran
      exact .head ⟨action, first⟩ (ih rest)

theorem reaches_getD (world : World machine ε α) (action : Action machine) :
    Reaches world ((step world action).getD world) := by
  cases taken : step world action with
  | none => exact .refl
  | some next => exact .single ⟨action, taken⟩

theorem reaches_follow (world : World machine ε α) (actions : List (Action machine)) :
    Reaches world (follow world actions) := by
  induction actions generalizing world with
  | nil => exact .refl
  | cons action actions ih => exact (reaches_getD world action).trans (ih _)

/-- What a step can do. -/
theorem step_cases {world next : World machine ε α} (stepped : Step world next) :
    (∃ index choice request resume reply shared own,
      world.programs index = .call request resume ∧
      machine.answer choice index world.shared world.locals request =
        some (reply, shared, own) ∧
      next = { shared
               locals := Function.update world.locals index own
               programs := Function.update world.programs index (resume reply) }) ∨
    ∃ event shared, machine.environment event world.shared = some shared ∧
      next = { world with shared } := by
  obtain ⟨action, taken⟩ := stepped
  cases action with
  | session index choice =>
      left
      cases running : world.programs index with
      | pure value => simp [step, running] at taken
      | throw error => simp [step, running] at taken
      | call request resume =>
          simp only [step, running, Option.map_eq_some_iff] at taken
          obtain ⟨⟨reply, shared, own⟩, answered, rfl⟩ := taken
          exact ⟨index, choice, request, resume, reply, shared, own, running, answered, rfl⟩
  | environment event =>
      right
      simp only [step, Option.map_eq_some_iff] at taken
      obtain ⟨shared, changed, rfl⟩ := taken
      exact ⟨event, shared, changed, rfl⟩

/-- A session that has ended stays as it ended. -/
theorem Reaches.ended {world next : World machine ε α} (reached : Reaches world next) {index : ι}
    {outcome : Except ε α} (finished : world.programs index = .ofExcept outcome) :
    next.programs index = .ofExcept outcome := by
  induction reached with
  | refl => exact finished
  | tail _ stepped ih =>
      rcases step_cases stepped with
        ⟨other, choice, request, resume, reply, shared, own, running, _, rfl⟩ |
        ⟨event, shared, _, rfl⟩
      · have different : index ≠ other := by
          rintro rfl
          rw [ih] at running
          cases outcome <;> cases running
        simpa only [Function.update_of_ne different] using ih
      · exact ih

/-- A step that is not a session's own leaves it where it stands. -/
theorem step_untouched {world next : World machine ε α} {action : Action machine} {index : ι}
    (stepped : step world action = some next) (foreign : ∀ choice, action ≠ .session index choice) :
    next.programs index = world.programs index ∧ next.locals index = world.locals index := by
  cases action with
  | session other choice =>
      have different : index ≠ other := by
        rintro rfl
        exact foreign choice rfl
      rcases step_session stepped with ⟨_, _, _, _, _, _, _, rfl⟩
      simp only [Function.update_of_ne different, and_self]
  | environment event =>
      rcases Option.map_eq_some_iff.mp stepped with ⟨_, _, rfl⟩
      exact ⟨rfl, rfl⟩

theorem runActions_untouched {world next : World machine ε α} {actions : List (Action machine)}
    {index : ι} (ran : runActions world actions = some next)
    (untouched : ∀ choice, .session index choice ∉ actions) :
    next.programs index = world.programs index ∧ next.locals index = world.locals index := by
  induction actions generalizing world with
  | nil =>
      cases ran
      exact ⟨rfl, rfl⟩
  | cons action actions ih =>
      rcases Option.bind_eq_some_iff.mp ran with ⟨middle, first, rest⟩
      have stood := step_untouched first fun choice same =>
        untouched choice (same ▸ List.mem_cons_self)
      have stands := ih rest fun choice mem => untouched choice (List.mem_cons_of_mem _ mem)
      exact ⟨stands.1.trans stood.1, stands.2.trans stood.2⟩

end Machine

/-- A global invariant, what each session relies on and what it guarantees. -/
structure Discipline {σ : Signature} {ι : Type} (machine : Machine σ ι) where
  Invariant : machine.Shared → (ι → machine.Local) → Prop
  /-- The changes session `index`, with this local state, tolerates from the others. -/
  Rely : (index : ι) → machine.Local → machine.Shared → machine.Shared → Prop
  /-- The changes session `index`, with this local state, may make by this call. -/
  Guarantee : (index : ι) → machine.Local → σ.Call → machine.Shared → machine.Shared →
    machine.Local → Prop

namespace Discipline

variable {σ : Signature} {ι : Type} {machine : Machine σ ι}

/-- The guarantees of the sessions preserve the invariant and what the others rely on. -/
structure Sound [DecidableEq ι] (discipline : Discipline machine) : Prop where
  answer_invariant : ∀ {choice index shared locals request reply shared' own},
    discipline.Invariant shared locals →
    machine.answer choice index shared locals request = some (reply, shared', own) →
    discipline.Guarantee index (locals index) request shared shared' own →
    discipline.Invariant shared' (Function.update locals index own)
  answer_rely : ∀ {choice index shared locals request reply shared' own},
    discipline.Invariant shared locals →
    machine.answer choice index shared locals request = some (reply, shared', own) →
    discipline.Guarantee index (locals index) request shared shared' own →
    ∀ other, other ≠ index → discipline.Rely other (locals other) shared shared'
  environment_invariant : ∀ {event shared locals shared'},
    discipline.Invariant shared locals → machine.environment event shared = some shared' →
    discipline.Invariant shared' locals
  environment_rely : ∀ {event shared locals shared'},
    discipline.Invariant shared locals → machine.environment event shared = some shared' →
    ∀ index, discipline.Rely index (locals index) shared shared'

/-- An assertion the other sessions cannot falsify. -/
def Stable (discipline : Discipline machine) (index : ι) (own : machine.Local)
    (assertion : machine.Shared → Prop) : Prop :=
  ∀ shared shared', discipline.Rely index own shared shared' →
    assertion shared → assertion shared'

theorem Stable.and {discipline : Discipline machine} {index : ι} {own : machine.Local}
    {left right : machine.Shared → Prop} (leftStable : discipline.Stable index own left)
    (rightStable : discipline.Stable index own right) :
    discipline.Stable index own fun shared => left shared ∧ right shared :=
  fun shared shared' rely holds =>
    ⟨leftStable shared shared' rely holds.1, rightStable shared shared' rely holds.2⟩

theorem stable_const (discipline : Discipline machine) (index : ι) (own : machine.Local)
    (fact : Prop) : discipline.Stable index own fun _ => fact :=
  fun _ _ _ holds => holds

variable {ε α β : Type}

/-- The program, run by session `index` from any state its assertion allows and
whatever the other sessions do between its calls, ends only where `leaf` allows
it to, by the outcome, the local state and what is asserted there. -/
def Follows (discipline : Discipline machine) (index : ι)
    (leaf : Except ε α → machine.Local → (machine.Shared → Prop) → Prop) :
    Program σ ε α → machine.Local → (machine.Shared → Prop) → Prop
  | .pure value, own, assertion => leaf (.ok value) own assertion
  | .throw error, own, assertion => leaf (.error error) own assertion
  | .call request resume, own, assertion =>
      ∀ choice shared locals reply shared' own',
        discipline.Invariant shared locals → locals index = own → assertion shared →
        machine.answer choice index shared locals request = some (reply, shared', own') →
        discipline.Guarantee index own request shared shared' own' ∧
        ∃ next, discipline.Stable index own' next ∧ next shared' ∧
          Follows discipline index leaf (resume reply) own' next

section Rules

variable {discipline : Discipline machine} {index : ι} {own : machine.Local}
  {assertion : machine.Shared → Prop}

/-- The rule of sequencing: what follows a program is followed from where it returned. -/
theorem follows_bind {leaf : Except ε β → machine.Local → (machine.Shared → Prop) → Prop}
    {program : Program σ ε α} {next : α → Program σ ε β} :
    discipline.Follows index leaf (program >>= next) own assertion ↔
      discipline.Follows index (fun outcome own assertion =>
        match outcome with
        | .ok value => discipline.Follows index leaf (next value) own assertion
        | .error error => leaf (.error error) own assertion) program own assertion := by
  induction program generalizing own assertion with
  | pure value => rfl
  | throw error => rfl
  | call request resume ih =>
      simp only [Program.call_bind, Follows, ih]

/-- The rule of `try`: the handler is followed from where the program threw. -/
theorem follows_tryCatch {leaf : Except ε α → machine.Local → (machine.Shared → Prop) → Prop}
    {program : Program σ ε α} {handler : ε → Program σ ε α} :
    discipline.Follows index leaf (tryCatch program handler) own assertion ↔
      discipline.Follows index (fun outcome own assertion =>
        match outcome with
        | .ok value => leaf (.ok value) own assertion
        | .error error => discipline.Follows index leaf (handler error) own assertion)
        program own assertion := by
  induction program generalizing own assertion with
  | pure value => rfl
  | throw error => rfl
  | call request resume ih =>
      simp only [Program.tryCatch_call, Follows, ih]

theorem follows_ofExcept {leaf : Except ε α → machine.Local → (machine.Shared → Prop) → Prop}
    {outcome : Except ε α} :
    discipline.Follows index leaf (.ofExcept outcome) own assertion ↔
      leaf outcome own assertion := by
  cases outcome <;> rfl

theorem Follows.mono {leaf leaf' : Except ε α → machine.Local → (machine.Shared → Prop) → Prop}
    {program : Program σ ε α} (follows : discipline.Follows index leaf program own assertion)
    (entails : ∀ outcome own assertion, leaf outcome own assertion → leaf' outcome own assertion) :
    discipline.Follows index leaf' program own assertion := by
  induction program generalizing own assertion with
  | pure value => exact entails _ _ _ follows
  | throw error => exact entails _ _ _ follows
  | call request resume ih =>
      intro choice shared locals reply shared' own' invariant owns holds answered
      obtain ⟨guaranteed, following, stable, established, rest⟩ :=
        follows choice shared locals reply shared' own' invariant owns holds answered
      exact ⟨guaranteed, following, stable, established, ih _ rest⟩

/-- A program may be followed from any stronger assertion, where more may be asserted of its
ends. -/
theorem Follows.weaken {leaf : Except ε α → machine.Local → (machine.Shared → Prop) → Prop}
    (antitone : ∀ {outcome own} {assertion assertion' : machine.Shared → Prop},
      (∀ shared, assertion' shared → assertion shared) → leaf outcome own assertion →
        leaf outcome own assertion')
    {program : Program σ ε α} (follows : discipline.Follows index leaf program own assertion)
    {assertion' : machine.Shared → Prop}
    (entails : ∀ shared, assertion' shared → assertion shared) :
    discipline.Follows index leaf program own assertion' := by
  cases program with
  | pure value => exact antitone entails follows
  | throw error => exact antitone entails follows
  | call request resume =>
      intro choice shared locals reply shared' own' invariant owns holds answered
      exact follows choice shared locals reply shared' own' invariant owns (entails shared holds)
        answered

end Rules

/-- The program meets `post` wherever it ends. -/
def Verified (discipline : Discipline machine) (index : ι)
    (post : Except ε α → machine.Local → machine.Shared → Prop) :
    Program σ ε α → machine.Local → (machine.Shared → Prop) → Prop :=
  discipline.Follows index fun outcome own assertion =>
    ∀ shared, assertion shared → post outcome own shared

/-- Where nothing is asserted any more, any program is verified. -/
theorem verified_of_absurd {discipline : Discipline machine} {index : ι}
    {post : Except ε α → machine.Local → machine.Shared → Prop} {program : Program σ ε α}
    {own : machine.Local} {assertion : machine.Shared → Prop}
    (absurdity : ∀ shared, ¬ assertion shared) :
    discipline.Verified index post program own assertion := by
  cases program with
  | pure value => exact fun shared holds => absurd holds (absurdity shared)
  | throw error => exact fun shared holds => absurd holds (absurdity shared)
  | call request resume =>
      intro choice shared locals reply shared' own' _ _ holds
      exact absurd holds (absurdity shared)

/-- Every session of the world is verified from where it stands. -/
def Holds (discipline : Discipline machine)
    (post : ι → Except ε α → machine.Local → machine.Shared → Prop)
    (world : Machine.World machine ε α) : Prop :=
  discipline.Invariant world.shared world.locals ∧
    ∀ index, ∃ assertion, discipline.Stable index (world.locals index) assertion ∧
      assertion world.shared ∧
      discipline.Verified index (post index) (world.programs index) (world.locals index) assertion

namespace Holds

variable {discipline : Discipline machine}
  {post : ι → Except ε α → machine.Local → machine.Shared → Prop}
  {world next : Machine.World machine ε α}

/-- A session that has ended meets its postcondition. -/
theorem ended (holds : discipline.Holds post world) {index : ι} {outcome : Except ε α}
    (finished : world.programs index = .ofExcept outcome) :
    post index outcome (world.locals index) world.shared := by
  obtain ⟨_, _, asserted, verified⟩ := holds.2 index
  rw [finished] at verified
  cases outcome with
  | ok value => exact verified _ asserted
  | error error => exact verified _ asserted

/-- The shared state may be changed from outside, to one that satisfies the invariant and that every
session tolerates. -/
theorem shift (holds : discipline.Holds post world) {shared : machine.Shared}
    (invariant : discipline.Invariant shared world.locals)
    (tolerated : ∀ index, discipline.Rely index (world.locals index) world.shared shared) :
    discipline.Holds post { world with shared } := by
  refine ⟨invariant, fun index => ?_⟩
  rcases holds.2 index with ⟨kept, keptStable, keptHolds, keptVerified⟩
  exact ⟨kept, keptStable, keptStable _ _ (tolerated index) keptHolds, keptVerified⟩

variable [DecidableEq ι]

/-- One of the sessions may be verified anew from where it stands, for another postcondition. -/
theorem refocus (holds : discipline.Holds post world) {index : ι}
    {goal : Except ε α → machine.Local → machine.Shared → Prop}
    {assertion : machine.Shared → Prop}
    (stable : discipline.Stable index (world.locals index) assertion)
    (asserted : assertion world.shared)
    (verified : discipline.Verified index goal (world.programs index) (world.locals index)
      assertion) :
    discipline.Holds (Function.update post index goal) world := by
  refine ⟨holds.1, fun other => ?_⟩
  by_cases same : other = index
  · subst same
    simpa only [Function.update_self] using ⟨assertion, stable, asserted, verified⟩
  · simpa only [Function.update_of_ne same] using holds.2 other

/-- A step keeps every session verified: its own by following the program, the
others because what they assert is stable. -/
theorem step (sound : discipline.Sound) (holds : discipline.Holds post world)
    (stepped : Machine.Step world next) : discipline.Holds post next := by
  rcases holds with ⟨invariant, sessions⟩
  rcases Machine.step_cases stepped with
    ⟨index, choice, request, resume, reply, shared, own, running, answered, rfl⟩ |
    ⟨event, shared, changed, rfl⟩
  · obtain ⟨assertion, _, asserted, verified⟩ := sessions index
    rw [running] at verified
    obtain ⟨guaranteed, following, stable, established, rest⟩ :=
      verified choice _ _ _ _ _ invariant rfl asserted answered
    refine ⟨sound.answer_invariant invariant answered guaranteed, fun other => ?_⟩
    by_cases same : other = index
    · subst same
      simp only [Function.update_self]
      exact ⟨following, stable, established, rest⟩
    · simp only [Function.update_of_ne same]
      obtain ⟨kept, keptStable, keptHolds, keptVerified⟩ := sessions other
      exact ⟨kept, keptStable,
        keptStable _ _ (sound.answer_rely invariant answered guaranteed other same) keptHolds,
        keptVerified⟩
  · exact shift ⟨invariant, sessions⟩ (sound.environment_invariant invariant changed)
      (sound.environment_rely invariant changed)

theorem reaches (sound : discipline.Sound) (holds : discipline.Holds post world)
    (reached : Machine.Reaches world next) : discipline.Holds post next := by
  induction reached with
  | refl => exact holds
  | tail _ stepped ih => exact ih.step sound stepped

/-- What every answer and every event does to the shared state, a step does. -/
theorem shared_of_step {changes : machine.Shared → machine.Shared → Prop}
    (answers : ∀ {choice index shared locals request reply shared' own},
      discipline.Invariant shared locals →
      machine.answer choice index shared locals request = some (reply, shared', own) →
      discipline.Guarantee index (locals index) request shared shared' own →
      changes shared shared')
    (events : ∀ {event shared locals shared'}, discipline.Invariant shared locals →
      machine.environment event shared = some shared' → changes shared shared')
    (holds : discipline.Holds post world) (stepped : Machine.Step world next) :
    changes world.shared next.shared := by
  rcases Machine.step_cases stepped with
    ⟨index, choice, request, resume, reply, shared, own, running, answered, rfl⟩ |
    ⟨event, shared, changed, rfl⟩
  · rcases holds.2 index with ⟨assertion, _, asserted, verified⟩
    rw [running] at verified
    exact answers holds.1 answered (verified choice _ _ _ _ _ holds.1 rfl asserted answered).1
  · exact events holds.1 changed

/-- A session's step keeps its guarantee. -/
theorem guaranteed_of_step (holds : discipline.Holds post world) {index : ι}
    {choice : machine.Choice} (stepped : Machine.step world (.session index choice) = some next) :
    ∃ request reply own,
      machine.answer choice index world.shared world.locals request =
        some (reply, next.shared, own) ∧
      discipline.Guarantee index (world.locals index) request world.shared next.shared own := by
  rcases Machine.step_session stepped with
    ⟨request, resume, reply, shared, own, running, answered, rfl⟩
  rcases holds.2 index with ⟨assertion, _, asserted, verified⟩
  rw [running] at verified
  exact ⟨request, reply, own, answered,
    (verified choice _ _ _ _ _ holds.1 rfl asserted answered).1⟩

/-- A step that is not a session's own is a change the session relies on. -/
theorem rely_of_step (sound : discipline.Sound) (holds : discipline.Holds post world)
    {action : Machine.Action machine} {index : ι} (stepped : Machine.step world action = some next)
    (foreign : ∀ choice, action ≠ .session index choice) :
    discipline.Rely index (world.locals index) world.shared next.shared := by
  cases action with
  | session other choice =>
      have different : index ≠ other := by
        rintro rfl
        exact foreign choice rfl
      rcases holds.guaranteed_of_step stepped with ⟨request, reply, own, answered, guaranteed⟩
      exact sound.answer_rely holds.1 answered guaranteed index different
  | environment event =>
      rcases Option.map_eq_some_iff.mp stepped with ⟨shared, changed, rfl⟩
      exact sound.environment_rely holds.1 changed index

/-- What is stable for a session holds as long as its turn does not come. -/
theorem asserted_of_untouched (sound : discipline.Sound) (holds : discipline.Holds post world)
    {actions : List (Machine.Action machine)} {index : ι}
    (ran : Machine.runActions world actions = some next)
    (untouched : ∀ choice, .session index choice ∉ actions)
    {assertion : machine.Shared → Prop}
    (stable : discipline.Stable index (world.locals index) assertion)
    (asserted : assertion world.shared) : assertion next.shared := by
  induction actions generalizing world with
  | nil =>
      cases ran
      exact asserted
  | cons action actions ih =>
      rcases Option.bind_eq_some_iff.mp ran with ⟨middle, first, rest⟩
      have foreign : ∀ choice, action ≠ .session index choice := fun choice same =>
        untouched choice (same ▸ List.mem_cons_self)
      have stood := (Machine.step_untouched first foreign).2
      apply ih (holds.step sound ⟨action, first⟩) rest
      · exact fun choice mem => untouched choice (List.mem_cons_of_mem _ mem)
      · rw [stood]
        exact stable
      · exact stable _ _ (holds.rely_of_step sound first foreign) asserted

end Holds

end Discipline

end Effect
