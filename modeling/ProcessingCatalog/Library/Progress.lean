import ProcessingCatalog.Library.Interleaving
import Mathlib.Algebra.BigOperators.Group.Finset.Basic
import Mathlib.Algebra.Order.BigOperators.Group.Finset
import Mathlib.Data.Set.Finite.Lemmas

/-!
# Runs that end

A program is a finite tree, and `AtMost` bounds how many calls it makes before it
ends, over the replies a machine may give. The bounds of the sessions add up to
a bound on every run of theirs.

A run may also end too early, with sessions that wait for one another.
`exists_of_rank` rules this out where everyone who waits, waits for somebody of
a greater rank. With both, a run that nobody holds up completes:
`exists_finished`.
-/

namespace Effect

namespace Program

variable {σ : Signature} {ε α β : Type}

/-- The program makes at most this many calls, if the replies are possible ones. -/
def AtMost (Possible : (request : σ.Call) → σ.Reply request → Prop) :
    Program σ ε α → ℕ → Prop
  | .pure _, _ => True
  | .throw _, _ => True
  | .call _ _, 0 => False
  | .call request resume, calls + 1 =>
      ∀ reply, Possible request reply → (resume reply).AtMost Possible calls

variable {Possible : (request : σ.Call) → σ.Reply request → Prop}

theorem atMost_pure (value : α) (calls : ℕ) :
    (.pure value : Program σ ε α).AtMost Possible calls := by
  cases calls <;> trivial

theorem atMost_throw (error : ε) (calls : ℕ) :
    (.throw error : Program σ ε α).AtMost Possible calls := by
  cases calls <;> trivial

theorem atMost_ofExcept (outcome : Except ε α) (calls : ℕ) :
    (ofExcept outcome : Program σ ε α).AtMost Possible calls := by
  cases outcome with
  | ok value => exact atMost_pure value calls
  | error error => exact atMost_throw error calls

theorem AtMost.mono {program : Program σ ε α} {calls more : ℕ}
    (atMost : program.AtMost Possible calls) (le : calls ≤ more) :
    program.AtMost Possible more := by
  induction program generalizing calls more with
  | pure value => trivial
  | throw error => trivial
  | call request resume ih =>
      cases calls with
      | zero => exact atMost.elim
      | succ calls =>
          obtain ⟨more, rfl⟩ := Nat.exists_eq_add_of_le' (Nat.one_le_of_lt le)
          exact fun reply possible => ih reply (atMost reply possible) (Nat.le_of_succ_le_succ le)

theorem AtMost.bind {program : Program σ ε α} {next : α → Program σ ε β} {calls more : ℕ}
    (first : program.AtMost Possible calls) (rest : ∀ value, (next value).AtMost Possible more) :
    (program >>= next).AtMost Possible (more + calls) := by
  induction program generalizing calls with
  | pure value => exact (rest value).mono (Nat.le_add_right more calls)
  | throw error => trivial
  | call request resume ih =>
      cases calls with
      | zero => exact first.elim
      | succ calls =>
          exact fun reply possible => ih reply (first reply possible)

theorem AtMost.tryCatch {program : Program σ ε α} {handler : ε → Program σ ε α} {calls more : ℕ}
    (first : program.AtMost Possible calls) (rest : ∀ error, (handler error).AtMost Possible more) :
    (tryCatch program handler : Program σ ε α).AtMost Possible (more + calls) := by
  induction program generalizing calls with
  | pure value => trivial
  | throw error => exact (rest error).mono (Nat.le_add_right more calls)
  | call request resume ih =>
      cases calls with
      | zero => exact first.elim
      | succ calls =>
          exact fun reply possible => ih reply (first reply possible)

theorem AtMost.map {program : Program σ ε α} {calls : ℕ} (f : α → β)
    (atMost : program.AtMost Possible calls) : (f <$> program).AtMost Possible calls := by
  have bound := atMost.bind fun value => atMost_pure (f value) 0
  rwa [Nat.zero_add] at bound

end Program

/-- The phases a session goes through: the calls it may make in each, and the phase a reply to a
call leads to. -/
structure Protocol (σ : Signature) where
  Phase : Type
  Allows : Phase → σ.Call → Prop
  after : Phase → (request : σ.Call) → σ.Reply request → Phase

namespace Program

variable {σ : Signature} {ε α β : Type} {protocol : Protocol σ}

/-- The program makes no call its phase does not allow, whatever it is told, and ends only where
`leaf` allows it to. -/
def Obeys (protocol : Protocol σ) (leaf : Except ε α → protocol.Phase → Prop) :
    Program σ ε α → protocol.Phase → Prop
  | .pure value, phase => leaf (.ok value) phase
  | .throw error, phase => leaf (.error error) phase
  | .call request resume, phase => protocol.Allows phase request ∧
      ∀ reply, (resume reply).Obeys protocol leaf (protocol.after phase request reply)

theorem obeys_bind {leaf : Except ε β → protocol.Phase → Prop} {program : Program σ ε α}
    {next : α → Program σ ε β} {phase : protocol.Phase} :
    (program >>= next).Obeys protocol leaf phase ↔
      program.Obeys protocol (fun outcome phase =>
        match outcome with
        | .ok value => (next value).Obeys protocol leaf phase
        | .error error => leaf (.error error) phase) phase := by
  induction program generalizing phase with
  | pure value => rfl
  | throw error => rfl
  | call request resume ih => simp only [call_bind, Obeys, ih]

theorem obeys_tryCatch {leaf : Except ε α → protocol.Phase → Prop} {program : Program σ ε α}
    {handler : ε → Program σ ε α} {phase : protocol.Phase} :
    (tryCatch program handler : Program σ ε α).Obeys protocol leaf phase ↔
      program.Obeys protocol (fun outcome phase =>
        match outcome with
        | .ok value => leaf (.ok value) phase
        | .error error => (handler error).Obeys protocol leaf phase) phase := by
  induction program generalizing phase with
  | pure value => rfl
  | throw error => rfl
  | call request resume ih => simp only [tryCatch_call, Obeys, ih]

theorem obeys_ofExcept {leaf : Except ε α → protocol.Phase → Prop} {outcome : Except ε α}
    {phase : protocol.Phase} :
    (ofExcept outcome : Program σ ε α).Obeys protocol leaf phase ↔ leaf outcome phase := by
  cases outcome <;> rfl

theorem Obeys.mono {leaf leaf' : Except ε α → protocol.Phase → Prop} {program : Program σ ε α}
    {phase : protocol.Phase} (obeys : program.Obeys protocol leaf phase)
    (entails : ∀ outcome phase, leaf outcome phase → leaf' outcome phase) :
    program.Obeys protocol leaf' phase := by
  induction program generalizing phase with
  | pure value => exact entails _ _ obeys
  | throw error => exact entails _ _ obeys
  | call request resume ih => exact ⟨obeys.1, fun reply => ih reply (obeys.2 reply)⟩

end Program

/-- Among finitely many of which everyone who waits, waits for one of greater rank, somebody does
not wait. -/
theorem exists_of_rank {ι : Type} [Finite ι] (rank : ι → ℕ) {Running Free : ι → Prop}
    (waits : ∀ index, Running index → ¬ Free index → ∃ other, Running other ∧
      rank index < rank other)
    (running : ∃ index, Running index) : ∃ index, Running index ∧ Free index := by
  rcases Set.exists_max_image { index | Running index } rank (Set.toFinite _) running with
    ⟨last, lastRunning, greatest⟩
  refine ⟨last, lastRunning, ?_⟩
  by_contra blocked
  rcases waits last lastRunning blocked with ⟨other, otherRunning, less⟩
  exact absurd (greatest other otherRunning) (Nat.not_le.mpr less)

namespace Machine

variable {σ : Signature} {ι : Type} {ε α : Type} {machine : Machine σ ι}

/-- The machine gives no other replies. -/
def Gives (machine : Machine σ ι) (Possible : (request : σ.Call) → σ.Reply request → Prop) : Prop :=
  ∀ {choice index shared locals request reply shared' own},
    machine.answer choice index shared locals request = some (reply, shared', own) →
    Possible request reply

/-- Every session obeys the protocol from a phase its local state fits. -/
def World.Obeys (protocol : Protocol σ) (fits : protocol.Phase → machine.Local → Prop)
    (leaf : Except ε α → protocol.Phase → Prop) (world : World machine ε α) : Prop :=
  ∀ index, ∃ phase, fits phase (world.locals index) ∧
    (world.programs index).Obeys protocol leaf phase

/-- The machine leaves the local state of a session in the phase its reply leads to. -/
def Respects (machine : Machine σ ι) (protocol : Protocol σ)
    (fits : protocol.Phase → machine.Local → Prop) : Prop :=
  ∀ {choice index shared locals request reply shared' own phase},
    machine.answer choice index shared locals request = some (reply, shared', own) →
    fits phase (locals index) → protocol.Allows phase request →
    fits (protocol.after phase request reply) own

/-- Every session has returned or thrown. -/
def World.Finished (world : World machine ε α) : Prop :=
  ∀ index, ∃ outcome, world.programs index = .ofExcept outcome

/-- Every session makes at most this many calls yet. -/
def World.AtMost (Possible : (request : σ.Call) → σ.Reply request → Prop)
    (world : World machine ε α) (calls : ι → ℕ) : Prop :=
  ∀ index, (world.programs index).AtMost Possible (calls index)

/-- A step of a session. -/
def Action.isSession : Action machine → Bool
  | .session _ _ => true
  | .environment _ => false

variable [DecidableEq ι] {Possible : (request : σ.Call) → σ.Reply request → Prop}
  {world next : World machine ε α} {calls : ι → ℕ}

/-- A session whose call is answered takes its step. -/
theorem exists_step_of_answer {request : σ.Call} {resume : σ.Reply request → Program σ ε α}
    {index : ι} {choice : machine.Choice} (running : world.programs index = .call request resume)
    (answered : (machine.answer choice index world.shared world.locals request).isSome) :
    ∃ next, step world (.session index choice) = some next := by
  rcases Option.isSome_iff_exists.mp answered with ⟨answer, answered⟩
  simp only [step, running, answered]
  exact ⟨_, rfl⟩

theorem runActions_append {middle : World machine ε α} {first rest : List (Action machine)}
    (before : runActions world first = some middle) (after : runActions middle rest = some next) :
    runActions world (first ++ rest) = some next := by
  induction first generalizing world with
  | nil =>
      cases before
      exact after
  | cons action first ih =>
      rcases Option.bind_eq_some_iff.mp before with ⟨further, stepped, before⟩
      exact Option.bind_eq_some_iff.mpr ⟨further, stepped, ih before⟩

/-- A run of allowed steps, step by step. -/
theorem exists_runActions {allowed : Action machine → Prop}
    (reached : ReachesBy allowed world next) :
    ∃ actions, runActions world actions = some next ∧ ∀ action ∈ actions, allowed action := by
  induction reached using Relation.ReflTransGen.head_induction_on with
  | refl => exact ⟨[], rfl, by simp⟩
  | head stepped _ ih =>
      rcases stepped with ⟨action, isAllowed, stepped⟩
      rcases ih with ⟨actions, ran, every⟩
      exact ⟨action :: actions, Option.bind_eq_some_iff.mpr ⟨_, stepped, ran⟩,
        List.forall_mem_cons.mpr ⟨isAllowed, every⟩⟩

omit [DecidableEq ι] in
/-- A session that has not ended has a call to make. -/
theorem World.exists_running (unfinished : ¬ world.Finished) :
    ∃ index request resume, world.programs index = .call request resume := by
  simp only [World.Finished, not_forall, not_exists] at unfinished
  rcases unfinished with ⟨index, unfinished⟩
  cases program : world.programs index with
  | pure value => exact absurd program (unfinished (.ok value))
  | throw error => exact absurd program (unfinished (.error error))
  | call request resume => exact ⟨index, request, resume, program⟩

theorem World.Obeys.reaches {protocol : Protocol σ} {fits : protocol.Phase → machine.Local → Prop}
    {leaf : Except ε α → protocol.Phase → Prop} (respects : machine.Respects protocol fits)
    (obeys : world.Obeys protocol fits leaf) (reached : Reaches world next) :
    next.Obeys protocol fits leaf := by
  induction reached with
  | refl => exact obeys
  | tail _ stepped ih =>
      rcases step_cases stepped with
        ⟨index, choice, request, resume, reply, shared, own, running, answered, rfl⟩ |
        ⟨event, shared, changed, rfl⟩
      · intro other
        by_cases same : other = index
        · subst same
          rcases ih other with ⟨phase, fitted, obeyed⟩
          rw [running] at obeyed
          exact ⟨protocol.after phase request reply, by
            simpa only [Function.update_self] using
              ⟨respects answered fitted obeyed.1, obeyed.2 reply⟩⟩
        · simpa only [Function.update_of_ne same] using ih other
      · exact ih

theorem World.AtMost.environment (atMost : world.AtMost Possible calls) {event : machine.Event}
    (stepped : step world (.environment event) = some next) : next.AtMost Possible calls := by
  rcases Option.map_eq_some_iff.mp stepped with ⟨shared, _, rfl⟩
  exact atMost

variable [Fintype ι]

/-- A step of a session uses one of its calls up. -/
theorem World.AtMost.session (gives : machine.Gives Possible)
    (atMost : world.AtMost Possible calls) {index : ι} {choice : machine.Choice}
    (stepped : step world (.session index choice) = some next) :
    ∃ left, next.AtMost Possible left ∧ ∑ other, left other + 1 = ∑ other, calls other := by
  rcases step_session stepped with ⟨request, resume, reply, shared, own, running, answered, rfl⟩
  have first := atMost index
  rw [running] at first
  cases due : calls index with
  | zero =>
      rw [due] at first
      exact first.elim
  | succ rest =>
      rw [due] at first
      refine ⟨Function.update calls index rest, fun other => ?_, ?_⟩
      · by_cases same : other = index
        · subst same
          simpa only [Function.update_self] using first reply (gives answered)
        · simpa only [Function.update_of_ne same] using atMost other
      · rw [← Finset.add_sum_erase _ _ (Finset.mem_univ index),
          ← Finset.add_sum_erase _ calls (Finset.mem_univ index), Function.update_self, due]
        have others : ∑ other ∈ Finset.univ.erase index, Function.update calls index rest other =
            ∑ other ∈ Finset.univ.erase index, calls other :=
          Finset.sum_congr rfl fun other otherMem =>
            Function.update_of_ne (Finset.ne_of_mem_erase otherMem) _ _
        omega

/-- However a run is scheduled, its sessions take at most as many steps as their bounds add up
to. -/
theorem World.AtMost.runActions (gives : machine.Gives Possible)
    (atMost : world.AtMost Possible calls) {actions : List (Action machine)}
    (ran : runActions world actions = some next) :
    ∃ left, next.AtMost Possible left ∧
      actions.countP Action.isSession + ∑ index, left index ≤ ∑ index, calls index := by
  induction actions generalizing world calls with
  | nil =>
      cases ran
      exact ⟨calls, atMost, by simp⟩
  | cons action actions ih =>
      rcases Option.bind_eq_some_iff.mp ran with ⟨middle, stepped, rest⟩
      cases action with
      | environment event =>
          rcases ih (atMost.environment stepped) rest with ⟨left, atMost, less⟩
          exact ⟨left, atMost, by rwa [List.countP_cons_of_neg (by simp [Action.isSession])]⟩
      | session index choice =>
          rcases atMost.session gives stepped with ⟨due, atMost, spent⟩
          rcases ih atMost rest with ⟨left, atMost, less⟩
          refine ⟨left, atMost, ?_⟩
          rw [List.countP_cons_of_pos rfl]
          omega

theorem World.AtMost.reaches (gives : machine.Gives Possible) (atMost : world.AtMost Possible calls)
    (reached : Reaches world next) : ∃ left, next.AtMost Possible left := by
  induction reached with
  | refl => exact ⟨calls, atMost⟩
  | tail _ stepped ih =>
      rcases ih with ⟨due, atMost⟩
      rcases stepped with ⟨_ | _, stepped⟩
      · rcases atMost.session gives stepped with ⟨left, atMost, _⟩
        exact ⟨left, atMost⟩
      · exact ⟨due, atMost.environment stepped⟩

/-- Where somebody may always take an allowed step of a session until all have ended, a run of
such steps leads to where all have ended. -/
theorem World.AtMost.exists_finished (gives : machine.Gives Possible)
    (atMost : world.AtMost Possible calls) {allowed : Action machine → Prop}
    (progress : ∀ middle, ReachesBy allowed world middle → ¬ middle.Finished →
      ∃ index choice further, allowed (.session index choice) ∧
        step middle (.session index choice) = some further) :
    ∃ last, ReachesBy allowed world last ∧ last.Finished := by
  generalize total : ∑ index, calls index = bound
  induction bound generalizing world calls with
  | zero =>
      refine ⟨world, .refl, ?_⟩
      by_contra unfinished
      rcases progress world .refl unfinished with ⟨index, choice, further, _, stepped⟩
      rcases atMost.session gives stepped with ⟨left, _, spent⟩
      omega
  | succ bound ih =>
      by_cases finished : world.Finished
      · exact ⟨world, .refl, finished⟩
      · rcases progress world .refl finished with ⟨index, choice, further, isAllowed, stepped⟩
        rcases atMost.session gives stepped with ⟨left, atMost, spent⟩
        have first : ReachesBy allowed world further :=
          .single ⟨.session index choice, isAllowed, stepped⟩
        rcases ih atMost (fun middle reached => progress middle (first.trans reached)) (by omega)
          with ⟨last, reached, finished⟩
        exact ⟨last, first.trans reached, finished⟩

end Machine

end Effect
