import ProcessingCatalog.Store.History

/-!
# Operations one after another

The ledger operations leave that happen one after another, and what they answer.
A history is such an order of its committed operations; operations that change
nothing fit into it at any moment at which they do.
-/

namespace ProcessingCatalog

variable {ι : Type} {operations : ι → Operation} {initial ledger : Ledger}
  {committed : List (ι × List Write)}

/-- The ledger calls leave that happen one after another, and what they answer. -/
def performSerially (operations : ι → Operation) :
    List ι → Ledger → List (Except Thrown Answer) × Ledger
  | [], ledger => ([], ledger)
  | index :: rest, ledger =>
      let (outcome, changes) := (operations index).perform ledger
      let (outcomes, ledger') := performSerially operations rest (ledger.applyAll changes)
      (outcome :: outcomes, ledger')

theorem performSerially_cons (operations : ι → Operation) (index : ι) (rest : List ι)
    (ledger : Ledger) :
    performSerially operations (index :: rest) ledger =
      (((operations index).perform ledger).1 :: (performSerially operations rest
          (ledger.applyAll ((operations index).perform ledger).2)).1,
        (performSerially operations rest
          (ledger.applyAll ((operations index).perform ledger).2)).2) :=
  rfl

theorem performSerially_append (operations : ι → Operation) (first second : List ι)
    (ledger : Ledger) :
    performSerially operations (first ++ second) ledger =
      ((performSerially operations first ledger).1 ++
          (performSerially operations second (performSerially operations first ledger).2).1,
        (performSerially operations second (performSerially operations first ledger).2).2) := by
  induction first generalizing ledger with
  | nil => rfl
  | cons index rest ih => simp [performSerially, ih]

/-- The committed calls of a history, one after another, lead to its ledger. -/
theorem performSerially_of_history {operations : ι → Operation} {initial : Ledger}
    {committed : List (ι × List Write)} (history : History operations initial committed ledger) :
    (performSerially operations (committed.map Prod.fst) initial).2 = ledger := by
  induction history with
  | start => rfl
  | commit before performed ih =>
      rw [List.map_append, performSerially_append, ih]
      simp [performSerially, performed]

/-- Operations that change nothing leave the ledger as it is, each with its answer. -/
theorem performSerially_of_unchanged {Good : ι → Except Thrown Answer → Prop} {readers : List ι}
    (unchanged : ∀ index ∈ readers, ((operations index).perform ledger).2 = [] ∧
      Good index ((operations index).perform ledger).1) :
    (performSerially operations readers ledger).2 = ledger ∧
      List.Forall₂ Good readers (performSerially operations readers ledger).1 := by
  induction readers with
  | nil => exact ⟨rfl, .nil⟩
  | cons index rest ih =>
      have ⟨nothing, answer⟩ := unchanged index List.mem_cons_self
      have ⟨left, answers⟩ := ih fun other otherMem =>
        unchanged other (List.mem_cons_of_mem _ otherMem)
      simp only [performSerially, nothing, Ledger.applyAll_nil]
      exact ⟨left, .cons answer answers⟩

/-- An operation that changes nothing at some moment of a history, and answers well there. -/
def Reads (operations : ι → Operation) (initial : Ledger) (committed : List (ι × List Write))
    (Good : ι → Except Thrown Answer → Prop) (index : ι) : Prop :=
  ∃ past ledger, past <+: committed ∧ History operations initial past ledger ∧
    ((operations index).perform ledger).2 = [] ∧ Good index ((operations index).perform ledger).1

/-- A history with operations that change nothing at moments of their own has a serial order: the
committed operations in commit order, and each of the others at its moment. -/
theorem History.exists_order {Good : ι → Except Thrown Answer → Prop}
    (history : History operations initial committed ledger)
    (commits : ∀ past before index writes, past ++ [(index, writes)] <+: committed →
      History operations initial past before → Good index ((operations index).perform before).1)
    (readers : List ι) (reads : ∀ index ∈ readers, Reads operations initial committed Good index) :
    ∃ order, order.Perm (committed.map Prod.fst ++ readers) ∧
      (performSerially operations order initial).2 = ledger ∧
      List.Forall₂ Good order (performSerially operations order initial).1 := by
  classical
  induction history generalizing readers with
  | start =>
      refine ⟨readers, List.Perm.refl _, performSerially_of_unchanged fun index readerMem => ?_⟩
      obtain ⟨past, before, isPast, pastHistory, nothing, answer⟩ := reads index readerMem
      rw [List.prefix_nil.mp isPast] at pastHistory
      rw [← pastHistory.nil_eq]
      exact ⟨nothing, answer⟩
  | @commit past before index writes pastHistory performed ih =>
      -- the readers whose moment is before this commit, and those whose moment is after it
      let early := readers.filter fun reader => Reads operations initial past Good reader
      let late := readers.filter fun reader => !decide (Reads operations initial past Good reader)
      obtain ⟨order, isOrder, left, answers⟩ := ih
        (fun earlier middle committer written isPast =>
          commits earlier middle committer written (isPast.trans (List.prefix_append _ _)))
        early (fun reader readerMem => by simpa using (List.mem_filter.mp readerMem).2)
      have lateReads : ∀ reader ∈ late,
          ((operations reader).perform (before.applyAll (writes.map Change.forget))).2 = [] ∧
          Good reader
            ((operations reader).perform (before.applyAll (writes.map Change.forget))).1 := by
        intro reader readerMem
        obtain ⟨member, notEarly⟩ := List.mem_filter.mp readerMem
        obtain ⟨moment, middle, isMoment, momentHistory, nothing, answer⟩ := reads reader member
        rcases List.prefix_concat_iff.mp isMoment with whole | isPast
        · rw [whole] at momentHistory
          rw [← momentHistory.unique (pastHistory.commit performed)]
          exact ⟨nothing, answer⟩
        · rw [Bool.not_eq_true', decide_eq_false_iff_not] at notEarly
          exact absurd ⟨moment, middle, isPast, momentHistory, nothing, answer⟩ notEarly
      have ⟨unchanged, lateAnswers⟩ := performSerially_of_unchanged lateReads
      have committer := commits past before index writes (List.prefix_refl _) pastHistory
      refine ⟨order ++ (index :: late), ?_, ?_, ?_⟩
      · have split : (early ++ late).Perm readers := List.filter_append_perm _ readers
        have moved : (past.map Prod.fst ++ early ++ index :: late).Perm
            (past.map Prod.fst ++ index :: (early ++ late)) := by
          rw [List.append_assoc]
          exact List.perm_middle.append_left _
        have listed : (past ++ [(index, writes)]).map Prod.fst ++ readers =
            past.map Prod.fst ++ index :: readers := by simp
        rw [listed]
        exact ((isOrder.append_right _).trans moved).trans ((split.cons index).append_left _)
      · rw [performSerially_append, left, performSerially_cons, performed]
        exact unchanged
      · rw [performSerially_append, left, performSerially_cons, performed]
        exact List.rel_append answers (.cons committer lateAnswers)

end ProcessingCatalog
