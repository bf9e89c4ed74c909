import ProcessingCatalog.Library.Progress
import Mathlib.Algebra.BigOperators.Group.Finset.Piecewise

/-!
# Counters that the sessions move

What a session has exchanged with its machine is read off a run: the calls of its
that were answered, each with its reply. A counter that every exchange moves by
what it is booked as shows, after a run, the exchanges of all sessions together.
A session that obeys a protocol has, beside that, exchanged what the phase it
stands in weighs.
-/

namespace Effect

/-- A call and the reply to it. -/
abbrev Exchange (σ : Signature) := Sigma σ.Reply

namespace Protocol

variable {σ : Signature}

/-- The phase some exchanges lead to. -/
def afterAll (protocol : Protocol σ) (phase : protocol.Phase) :
    List (Exchange σ) → protocol.Phase
  | [] => phase
  | exchange :: exchanges =>
      protocol.afterAll (protocol.after phase exchange.1 exchange.2) exchanges

/-- Each call is allowed in the phase it is made in. -/
def AllowsAll (protocol : Protocol σ) : protocol.Phase → List (Exchange σ) → Prop
  | _, [] => True
  | phase, exchange :: exchanges => protocol.Allows phase exchange.1 ∧
      protocol.AllowsAll (protocol.after phase exchange.1 exchange.2) exchanges

variable {protocol : Protocol σ} {M : Type} [AddMonoid M] {weight : protocol.Phase → M}
  {entry : Exchange σ → M}

/-- Where a call moves the weight of the phase by its entry, so do calls one after the other. -/
theorem weight_afterAll {phase : protocol.Phase} {exchanges : List (Exchange σ)}
    (moves : ∀ phase (exchange : Exchange σ), protocol.Allows phase exchange.1 →
      weight (protocol.after phase exchange.1 exchange.2) = weight phase + entry exchange)
    (allowed : protocol.AllowsAll phase exchanges) :
    weight (protocol.afterAll phase exchanges) = weight phase + (exchanges.map entry).sum := by
  induction exchanges generalizing phase with
  | nil => exact (add_zero _).symm
  | cons exchange exchanges ih =>
      rw [List.map_cons, List.sum_cons, ← add_assoc, ← moves phase exchange allowed.1]
      exact ih allowed.2

end Protocol

namespace Machine

variable {σ : Signature} {ι : Type} {ε α : Type} [DecidableEq ι] {machine : Machine σ ι}

/-- What a session exchanges in a step. -/
def exchanged (world : World machine ε α) (index : ι) : Action machine → List (Exchange σ)
  | .session other choice =>
      if other = index then
        match world.programs other with
        | .call request _ =>
            (machine.answer choice other world.shared world.locals request).toList.map
              fun (reply, _) => ⟨request, reply⟩
        | _ => []
      else []
  | .environment _ => []

/-- What a session exchanges in a list of steps. -/
def exchanges (world : World machine ε α) (index : ι) :
    List (Action machine) → List (Exchange σ)
  | [] => []
  | action :: actions =>
      exchanged world index action ++ exchanges ((step world action).getD world) index actions

section Session

variable {world next : World machine ε α} {index : ι}

/-- The session that takes a step exchanges one call, the others none. -/
theorem exchanged_session {choice : machine.Choice} {request : σ.Call}
    {resume : σ.Reply request → Program σ ε α} {reply : σ.Reply request}
    {shared : machine.Shared} {own : machine.Local}
    (running : world.programs index = .call request resume)
    (answered : machine.answer choice index world.shared world.locals request =
      some (reply, shared, own)) (other : ι) :
    exchanged world other (.session index choice) =
      if index = other then [⟨request, reply⟩] else [] := by
  simp only [exchanged, running, answered, Option.toList_some, List.map_cons, List.map_nil]

/-- A session takes a step with one exchange, or stays where it is. -/
theorem exchanged_cases {action : Action machine} (stepped : step world action = some next)
    (index : ι) :
    exchanged world index action = [] ∧ next.programs index = world.programs index ∨
      ∃ request resume reply, world.programs index = .call request resume ∧
        exchanged world index action = [⟨request, reply⟩] ∧
        next.programs index = resume reply := by
  cases action with
  | session other choice =>
      rcases step_session stepped with
        ⟨request, resume, reply, shared, own, running, answered, rfl⟩
      rw [exchanged_session running answered]
      by_cases same : other = index
      · subst same
        exact .inr ⟨request, resume, reply, running, if_pos rfl, Function.update_self ..⟩
      · exact .inl ⟨if_neg same, Function.update_of_ne (Ne.symm same) _ _⟩
  | environment event =>
      rcases Option.map_eq_some_iff.mp stepped with ⟨shared, _, rfl⟩
      exact .inl ⟨rfl, rfl⟩

/-- In a run, a session that obeys a protocol exchanges what the protocol allows, and stands in the
phase this leads to. -/
theorem obeys_afterAll {protocol : Protocol σ} {leaf : Except ε α → protocol.Phase → Prop}
    {phase : protocol.Phase} {actions : List (Action machine)}
    (obeys : (world.programs index).Obeys protocol leaf phase)
    (ran : runActions world actions = some next) :
    protocol.AllowsAll phase (exchanges world index actions) ∧
      (next.programs index).Obeys protocol leaf
        (protocol.afterAll phase (exchanges world index actions)) := by
  induction actions generalizing world phase with
  | nil =>
      cases ran
      exact ⟨trivial, obeys⟩
  | cons action actions ih =>
      rcases Option.bind_eq_some_iff.mp ran with ⟨middle, stepped, rest⟩
      rw [exchanges, stepped, Option.getD_some]
      rcases exchanged_cases stepped index with
        ⟨none, same⟩ | ⟨request, resume, reply, running, one, resumed⟩
      · rw [none, List.nil_append]
        exact ih (same ▸ obeys) rest
      · rw [one, List.singleton_append]
        rw [running] at obeys
        rcases ih (resumed ▸ obeys.2 reply) rest with ⟨allowed, later⟩
        exact ⟨⟨obeys.1, allowed⟩, later⟩

end Session

section Counter

variable {M : Type} [AddCommMonoid M]

/-- The counter moves by the entry of each exchange, and nothing else moves it. -/
structure Counts (machine : Machine σ ι) (counter : machine.Shared → M) (entry : Exchange σ → M) :
    Prop where
  answers : ∀ {choice index shared locals request reply shared' own},
    machine.answer choice index shared locals request = some (reply, shared', own) →
    counter shared' = counter shared + entry ⟨request, reply⟩
  events : ∀ {event shared shared'}, machine.environment event shared = some shared' →
    counter shared' = counter shared

variable [Fintype ι] {counter : machine.Shared → M} {entry : Exchange σ → M}
  {world next : World machine ε α}

theorem Counts.step (counts : machine.Counts counter entry) {action : Action machine}
    (stepped : Machine.step world action = some next) :
    counter next.shared = counter world.shared +
      ∑ index, ((exchanged world index action).map entry).sum := by
  cases action with
  | session index choice =>
      rcases step_session stepped with
        ⟨request, resume, reply, shared, own, running, answered, rfl⟩
      have one (other : ι) : ((exchanged world other (.session index choice)).map entry).sum =
          if index = other then entry ⟨request, reply⟩ else 0 := by
        rw [exchanged_session running answered]
        split
        · exact List.sum_singleton
        · rfl
      simp only [one, Finset.sum_ite_eq, Finset.mem_univ, if_true]
      exact counts.answers answered
  | environment event =>
      rcases Option.map_eq_some_iff.mp stepped with ⟨shared, changed, rfl⟩
      refine (counts.events changed).trans ?_
      exact (add_zero _).symm.trans (congrArg _ Finset.sum_const_zero.symm)

/-- After a run, the counter shows what the sessions have exchanged. -/
theorem Counts.run (counts : machine.Counts counter entry) {actions : List (Action machine)}
    (ran : runActions world actions = some next) :
    counter next.shared = counter world.shared +
      ∑ index, ((exchanges world index actions).map entry).sum := by
  induction actions generalizing world with
  | nil =>
      cases ran
      exact (add_zero _).symm.trans (congrArg _ Finset.sum_const_zero.symm)
  | cons action actions ih =>
      rcases Option.bind_eq_some_iff.mp ran with ⟨middle, stepped, rest⟩
      simp only [exchanges, stepped, Option.getD_some, List.map_append, List.sum_append,
        Finset.sum_add_distrib]
      rw [ih rest, counts.step stepped, add_assoc]

end Counter

end Machine

end Effect
