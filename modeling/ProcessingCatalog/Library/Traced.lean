import ProcessingCatalog.Library.Interleaving
import Mathlib.Algebra.BigOperators.Group.Finset.Piecewise
import Mathlib.Data.List.Basic

/-!
# Programs that leave effects behind

Some of what a program does is never answered: it only leaves an effect where
others can see it. `Signature.traced` adds such calls to a signature and
`Machine.traced` answers them by keeping a log next to the shared state.

The programs at hand are run to their outcome first and leave the effects it
calls for after that. `Projects` relates a run of them to a run of the programs
alone: up to its outcome the two take the same steps, and what is in the log is
the beginning of what the outcome calls for.
-/

namespace Effect

/-- The calls of `σ`, and those that leave an effect of `L`. -/
abbrev Signature.traced (σ : Signature) (L : Type) : Signature where
  Call := σ.Call ⊕ L
  Reply := Sum.elim σ.Reply fun _ => Unit

namespace Program

variable {σ : Signature} {L ε ε' α β : Type}

/-- A program that leaves nothing behind. -/
def traced : Program σ ε α → Program (σ.traced L) ε α
  | .pure value => .pure value
  | .throw error => .throw error
  | .call request resume => .call (.inl request) fun reply => (resume reply).traced

/-- Leave an effect. -/
def leave (effect : L) : Program (σ.traced L) ε Unit :=
  .call (.inr effect) fun _ => .pure ()

/-- Leave these effects, in order. -/
def leaveAll : List L → Program (σ.traced L) ε Unit
  | [] => .pure ()
  | effect :: effects => .call (.inr effect) fun _ => leaveAll effects

/-- How the program ends, as a value. -/
def attempt : Program σ ε α → Program σ ε' (Except ε α)
  | .pure value => .pure (.ok value)
  | .throw error => .pure (.error error)
  | .call request resume => .call request fun reply => (resume reply).attempt

/-- Run the program, then leave the effects its outcome calls for. -/
def concluding (conclude : Except ε α → List L) : Program σ ε α → Program (σ.traced L) ε' Unit
  | .pure value => leaveAll (conclude (.ok value))
  | .throw error => leaveAll (conclude (.error error))
  | .call request resume => .call (.inl request) fun reply => (resume reply).concluding conclude

/-- A program that is followed by nothing but effects. -/
theorem attempt_bind {conclude : Except ε α → List L}
    {next : Except ε α → Program (σ.traced L) ε' Unit}
    (leaves : ∀ outcome, next outcome = leaveAll (conclude outcome)) (program : Program σ ε α) :
    program.traced.attempt >>= next = program.concluding conclude := by
  induction program with
  | pure value => exact leaves _
  | throw error => exact leaves _
  | call request resume ih => exact congrArg (call _) (funext ih)

theorem concluding_map {conclude : Except ε β → List L} (f : α → β) (program : Program σ ε α) :
    ((f <$> program).concluding conclude : Program (σ.traced L) ε' Unit) =
      program.concluding fun outcome => conclude (outcome.map f) := by
  induction program with
  | pure value => rfl
  | throw error => rfl
  | call request resume ih => exact congrArg (call _) (funext ih)

/-- Answer the calls as before, and keep the effects. -/
def tracing {S : Type} (handler : S → (request : σ.Call) → σ.Reply request × S)
    (state : S × List L) : (request : (σ.traced L).Call) → (σ.traced L).Reply request × S × List L
  | .inl request =>
      let (reply, next) := handler state.1 request
      (reply, next, state.2)
  | .inr effect => ((), state.1, state.2 ++ [effect])

/-- The program, with its effects seen as effects of another kind. -/
def relabel {L' : Type} (see : L → L') : Program (σ.traced L) ε α → Program (σ.traced L') ε α
  | .pure value => .pure value
  | .throw error => .throw error
  | .call (.inl request) resume => .call (.inl request) fun reply => (resume reply).relabel see
  | .call (.inr effect) resume => .call (.inr (see effect)) fun reply => (resume reply).relabel see

theorem relabel_concluding {L' : Type} (see : L → L') (conclude : Except ε α → List L)
    (program : Program σ ε α) :
    (program.concluding conclude : Program (σ.traced L) ε' Unit).relabel see =
      program.concluding fun outcome => (conclude outcome).map see := by
  have relabel_leaveAll (effects : List L) :
      (leaveAll effects : Program (σ.traced L) ε' Unit).relabel see =
        leaveAll (effects.map see) := by
    induction effects with
    | nil => rfl
    | cons effect effects ih => exact congrArg (call _) (funext fun _ => ih)
  induction program with
  | pure value => exact relabel_leaveAll _
  | throw error => exact relabel_leaveAll _
  | call request resume ih => exact congrArg (call _) (funext ih)

section Run

variable {S : Type} {handler : S → (request : σ.Call) → σ.Reply request × S}

theorem run_leaveAll (state : S) (left effects : List L) :
    (leaveAll effects : Program (σ.traced L) ε Unit).run (tracing handler) (state, left) =
      (.ok (), state, left ++ effects) := by
  induction effects generalizing left with
  | nil => simp [leaveAll]
  | cons effect effects ih =>
      refine (ih (left ++ [effect])).trans ?_
      rw [List.append_assoc, List.singleton_append]

/-- What a concluding program leaves behind when it is run alone. -/
theorem run_concluding {conclude : Except ε α → List L} {program : Program σ ε α} {state state' : S}
    {outcome : Except ε α} (ran : program.run handler state = (outcome, state')) (left : List L) :
    (program.concluding conclude : Program (σ.traced L) ε' Unit).run (tracing handler)
      (state, left) = (.ok (), state', left ++ conclude outcome) := by
  induction program generalizing state with
  | pure value =>
      cases ran
      exact run_leaveAll _ _ _
  | throw error =>
      cases ran
      exact run_leaveAll _ _ _
  | call request resume ih => exact ih _ ran

end Run

end Program

namespace Machine

variable {σ : Signature} {ι : Type} {ε ε' α L : Type}

/-- The machine, with a log of the effects each session leaves. -/
@[simps]
def traced (machine : Machine σ ι) (L : Type) : Machine (σ.traced L) ι where
  Shared := machine.Shared × List (ι × L)
  Local := machine.Local
  Choice := machine.Choice
  Event := machine.Event
  answer choice index shared locals
    | .inl request => (machine.answer choice index shared.1 locals request).map
        fun (reply, next, own) => (reply, (next, shared.2), own)
    | .inr effect => some ((), (shared.1, shared.2 ++ [(index, effect)]), locals index)
  environment event shared := (machine.environment event shared.1).map (·, shared.2)

/-- A step of traced sessions, as a step of their programs alone. -/
def Action.untraced {machine : Machine σ ι} : Action (machine.traced L) → Action machine
  | .session index choice => .session index choice
  | .environment event => .environment event

variable [DecidableEq ι] {machine : Machine σ ι}

/-- A machine that can answer any call, whatever its state. -/
def Answers (machine : Machine σ ι) : Prop :=
  ∀ index shared locals request,
    ∃ choice, (machine.answer choice index shared locals request).isSome

omit [DecidableEq ι] in
theorem Answers.traced (answers : machine.Answers) (choice : machine.Choice) :
    (machine.traced L).Answers := by
  intro index shared locals request
  cases request with
  | inl request =>
      rcases answers index shared.1 locals request with ⟨choice, answered⟩
      exact ⟨choice, by simpa [Machine.traced] using answered⟩
  | inr effect => exact ⟨choice, rfl⟩

/-- A session whose calls are answered can go on to its end. -/
theorem Answers.exists_ended (answers : machine.Answers) (world : World machine ε α) (index : ι) :
    ∃ next outcome, Reaches world next ∧ next.programs index = .ofExcept outcome := by
  generalize running : world.programs index = program
  induction program generalizing world with
  | pure value => exact ⟨world, .ok value, .refl, running⟩
  | throw error => exact ⟨world, .error error, .refl, running⟩
  | call request resume ih =>
      rcases answers index world.shared world.locals request with ⟨choice, answered⟩
      rcases Option.isSome_iff_exists.mp answered with ⟨⟨reply, shared, own⟩, answered⟩
      let middle : World machine ε α :=
        { shared := shared
          locals := Function.update world.locals index own
          programs := Function.update world.programs index (resume reply) }
      have first : Machine.step world (.session index choice) = some middle := by
        simp [Machine.step, running, answered, middle]
      rcases ih reply middle (Function.update_self ..) with ⟨next, outcome, reached, ended⟩
      exact ⟨next, outcome, .head ⟨_, first⟩ reached, ended⟩

/-- What one session has left in a log. -/
def leftBy (index : ι) (log : List (ι × L)) : List L :=
  (log.filter (·.1 = index)).map Prod.snd

theorem leftBy_append_self (index : ι) (log : List (ι × L)) (effect : L) :
    leftBy index (log ++ [(index, effect)]) = leftBy index log ++ [effect] := by
  simp [leftBy]

theorem leftBy_append_of_ne {index other : ι} (different : index ≠ other) (log : List (ι × L))
    (effect : L) : leftBy index (log ++ [(other, effect)]) = leftBy index log := by
  simp [leftBy, different.symm]

theorem leftBy_eq_nil {index : ι} {log : List (ι × L)} (nothing : ∀ entry ∈ log, entry.1 ≠ index) :
    leftBy index log = [] := by
  simpa [leftBy] using nothing

/-- What a session has left that leaves at most one effect. -/
theorem leftBy_eq_singleton {index : ι} {log : List (ι × L)} {effect : L}
    (once : (log.map Prod.fst).Nodup) (left : (index, effect) ∈ log) :
    leftBy index log = [effect] := by
  induction log with
  | nil => cases left
  | cons entry log ih =>
      rw [List.map_cons, List.nodup_cons] at once
      rcases List.mem_cons.mp left with rfl | later
      · have others : leftBy index log = [] :=
          leftBy_eq_nil fun other otherMem same =>
            once.1 (List.mem_map.mpr ⟨other, otherMem, same⟩)
        simp only [leftBy, List.filter_cons, decide_true, if_true, List.map_cons] at others ⊢
        rw [others]
      · have different : entry.1 ≠ index := fun same =>
          once.1 (List.mem_map.mpr ⟨_, later, same.symm⟩)
        have rest := ih once.2 later
        simpa only [leftBy, List.filter_cons, different, decide_false, Bool.false_eq_true,
          if_false] using rest

/-- What all sessions have left, counted session by session. -/
theorem sum_countP_leftBy [Fintype ι] (selects : L → Bool) (log : List (ι × L)) :
    ∑ index, (leftBy index log).countP selects = log.countP fun entry => selects entry.2 := by
  induction log with
  | nil => simp [leftBy]
  | cons entry log ih =>
      have split (index : ι) : (leftBy index (entry :: log)).countP selects =
          (leftBy index log).countP selects +
            if entry.1 = index then (if selects entry.2 then 1 else 0) else 0 := by
        by_cases same : entry.1 = index
        · simp [leftBy, same, List.countP_cons]
        · simp [leftBy, same]
      simp only [split, Finset.sum_add_distrib, ih, Finset.sum_ite_eq, Finset.mem_univ, if_true,
        List.countP_cons]

/-- Where a session stands that leaves effects once its program has ended. -/
def Stands (conclude : Except ε α → List L) (program : Program σ ε α) (left : List L)
    (standing : Program (σ.traced L) ε' Unit) : Prop :=
  left = [] ∧ standing = program.concluding conclude ∨
    ∃ outcome due, program = .ofExcept outcome ∧ left ++ due = conclude outcome ∧
      standing = .leaveAll due

/-- A session makes calls of its program, or leaves what the outcome of its program calls for. -/
theorem Stands.cases {conclude : Except ε α → List L} {program : Program σ ε α} {left : List L}
    {standing : Program (σ.traced L) ε' Unit} (stands : Stands conclude program left standing) :
    (∃ request resume, program = .call request resume ∧ left = [] ∧
      standing = .call (.inl request) fun reply => (resume reply).concluding conclude) ∨
    ∃ outcome due, program = .ofExcept outcome ∧ left ++ due = conclude outcome ∧
      standing = .leaveAll due := by
  rcases stands with ⟨nothing, standing⟩ | ended
  · subst nothing
    cases program with
    | call request resume => exact .inl ⟨request, resume, rfl, rfl, standing⟩
    | pure value => exact .inr ⟨.ok value, _, rfl, rfl, standing⟩
    | throw error => exact .inr ⟨.error error, _, rfl, rfl, standing⟩
  · exact .inr ended

/-- A world of traced sessions, seen as a world of the programs alone. -/
structure Projects (conclude : ι → Except ε α → List L) (base : World machine ε α)
    (world : World (machine.traced L) ε' Unit) : Prop where
  shared : world.shared.1 = base.shared
  locals : world.locals = base.locals
  stands : ∀ index, Stands (conclude index) (base.programs index)
    (leftBy index world.shared.2) (world.programs index)

namespace Projects

variable {conclude : ι → Except ε α → List L} {base : World machine ε α}
  {world next : World (machine.traced L) ε' Unit}

/-- The sessions, before their first step. -/
theorem start (conclude : ι → Except ε α → List L) (base : World machine ε α) :
    Projects conclude base ({
      shared := (base.shared, [])
      locals := base.locals
      programs := fun index => (base.programs index).concluding (conclude index) } :
        World (machine.traced L) ε' Unit) where
  shared := rfl
  locals := rfl
  stands _ := .inl ⟨rfl, rfl⟩

/-- A step of the traced sessions is the same step of the programs alone, or leaves an effect of a
program that has ended. -/
theorem step (projects : Projects conclude base world) {action : Action (machine.traced L)}
    (stepped : Machine.step world action = some next) :
    Projects conclude ((Machine.step base action.untraced).getD base) next := by
  rcases projects with ⟨isShared, isLocals, stands⟩
  cases action with
  | session index choice =>
      rcases step_session stepped with
        ⟨request, resume, reply, shared, own, running, answered, rfl⟩
      have others : ∀ {base' : World machine ε α} {shared' : machine.Shared × List (ι × L)}
          {program : Program (σ.traced L) ε' Unit},
          (∀ other, other ≠ index → base'.programs other = base.programs other ∧
            leftBy other shared'.2 = leftBy other world.shared.2) →
          Stands (conclude index) (base'.programs index) (leftBy index shared'.2) program →
          ∀ other, Stands (conclude other) (base'.programs other) (leftBy other shared'.2)
            (Function.update world.programs index program other) := by
        intro base' shared' program kept own other
        by_cases same : other = index
        · subst same
          rwa [Function.update_self]
        · rw [Function.update_of_ne same, (kept other same).1, (kept other same).2]
          exact stands other
      rcases (stands index).cases with
        ⟨asked, continue', isProgram, nothing, standing⟩ | ⟨outcome, due, isEnd, left, standing⟩
      · rw [running] at standing
        cases standing
        rcases Option.map_eq_some_iff.mp answered with ⟨⟨reply, next, own⟩, answered, isAnswer⟩
        cases isAnswer
        rw [isShared, isLocals] at answered
        have taken : Machine.step base (.session index choice) = some
            { shared := next
              locals := Function.update base.locals index own
              programs := Function.update base.programs index (continue' reply) } := by
          simp [Machine.step, isProgram, answered]
        rw [Action.untraced, taken, Option.getD_some]
        refine ⟨rfl, congrArg (Function.update · index own) isLocals, others ?_ ?_⟩
        · exact fun other different => ⟨Function.update_of_ne different _ _, rfl⟩
        · exact .inl ⟨nothing, by simp only [Function.update_self]⟩
      · rw [running] at standing
        have blocked : Machine.step base (.session index choice) = none := by
          cases outcome <;> simp [Machine.step, isEnd, Program.ofExcept]
        rw [Action.untraced, blocked, Option.getD_none]
        cases due with
        | nil => cases standing
        | cons effect effects =>
            cases standing
            cases answered
            refine ⟨isShared, ?_, others ?_ ?_⟩
            · rw [Function.update_eq_self, isLocals]
            · exact fun other different => ⟨rfl, leftBy_append_of_ne different _ _⟩
            · rw [leftBy_append_self]
              exact .inr ⟨outcome, effects, isEnd, by rw [← left, List.append_assoc]; rfl, rfl⟩
  | environment event =>
      rcases Option.map_eq_some_iff.mp stepped with ⟨_, changed, rfl⟩
      rcases Option.map_eq_some_iff.mp changed with ⟨moved, moves, rfl⟩
      rw [isShared] at moves
      have taken : Machine.step base (.environment event) = some { base with shared := moved } :=
        congrArg (Option.map _) moves
      rw [Action.untraced, taken, Option.getD_some]
      exact ⟨rfl, isLocals, stands⟩

/-- The programs alone, taken along the steps of the traced sessions. -/
theorem follow (projects : Projects conclude base world)
    {actions : List (Action (machine.traced L))}
    (ran : runActions world actions = some next) :
    Projects conclude (Machine.follow base (actions.map .untraced)) next := by
  induction actions generalizing base world with
  | nil =>
      cases ran
      exact projects
  | cons action actions ih =>
      rcases Option.bind_eq_some_iff.mp ran with ⟨middle, first, rest⟩
      exact ih (projects.step first) rest

theorem reaches (projects : Projects conclude base world) (reached : Reaches world next) :
    ∃ base', Reaches base base' ∧ Projects conclude base' next := by
  induction reached with
  | refl => exact ⟨base, .refl, projects⟩
  | tail _ stepped ih =>
      rcases ih with ⟨middle, reached, projects⟩
      rcases stepped with ⟨action, stepped⟩
      exact ⟨_, reached.trans (reaches_getD middle action.untraced), projects.step stepped⟩

/-- A session that has ended has left all that its outcome calls for. -/
theorem ended (projects : Projects conclude base world) {index : ι}
    (finished : world.programs index = .pure ()) :
    ∃ outcome, base.programs index = .ofExcept outcome ∧
      leftBy index world.shared.2 = conclude index outcome := by
  rcases (projects.stands index).cases with
    ⟨_, _, _, _, standing⟩ | ⟨outcome, due, isEnd, left, standing⟩
  · rw [finished] at standing
    cases standing
  · refine ⟨outcome, isEnd, ?_⟩
    rw [finished] at standing
    cases due with
    | nil => rw [← left, List.append_nil]
    | cons effect effects => cases standing

/-- The errors of the program are handled: nothing is thrown on. -/
theorem not_thrown (projects : Projects conclude base world) (index : ι) (error : ε') :
    world.programs index ≠ .throw error := by
  intro thrown
  rcases (projects.stands index).cases with ⟨_, _, _, _, standing⟩ | ⟨_, due, _, _, standing⟩
  · rw [thrown] at standing
    cases standing
  · rw [thrown] at standing
    cases due <;> cases standing

/-- A session that has left an effect has ended, with an outcome that calls for it. -/
theorem outcome_of_left (projects : Projects conclude base world) {index : ι} {effect : L}
    (left : effect ∈ leftBy index world.shared.2) :
    ∃ outcome, base.programs index = .ofExcept outcome ∧
      leftBy index world.shared.2 <+: conclude index outcome := by
  rcases (projects.stands index).cases with
    ⟨_, _, _, nothing, _⟩ | ⟨outcome, due, isEnd, called, _⟩
  · rw [nothing] at left
    cases left
  · exact ⟨outcome, isEnd, due, called⟩

end Projects

end Machine

end Effect
