import ProcessingCatalog.Messaging.DrainPhases
import Mathlib.Algebra.BigOperators.Fin
import Mathlib.Data.Fintype.BigOperators

/-!
# Drains that take turns

The runs in which no statement fails, no message is lost and no transaction is
ended by the server. In such a run every drain stands in a phase, and the drain
that holds the lock is the only one past it. What has been handed to the broker
is then what is marked in the table, what that drain has marked, and the row it
is at; a drain that gets the lock later reads the table after the marks of its
predecessor are visible.
-/

namespace ProcessingCatalog

open Effect

namespace Relay

variable {ι : Type}

/-- A step of a run in which every publish is confirmed and no transaction aborts. -/
def Faultless [DecidableEq ι] : Machine.Action (machine ι) → Prop
  | .session _ (.proceed _) => True
  | .session _ (.fail _) => False
  | .session _ (.reject _) => False
  | .environment (.lose _) => False
  | .environment (.abort _) => False
  | .environment _ => True

namespace Shared

/-- The rows handed to the broker, in order, as often as they were handed to it. -/
def handed (shared : Shared ι) : List ℕ :=
  shared.inFlight.map Delivery.origin

def Marked (shared : Shared ι) (id : ℕ) : Prop :=
  ∃ row ∈ shared.outbox, row.id = id ∧ row.publishedAt ≠ none

end Shared

/-- The rows a transaction has marked. -/
def Transaction.marks : Transaction → List ℕ
  | .opened _ marks => marks
  | _ => []

/-- The transaction and the lock of a drain that stands in a phase. -/
def Phase.Stands (shared : Shared ι) (index : ι) : Phase → Prop
  | .ready _ => shared.transactions index = .idle ∧ shared.locks outboxRelayLockKey ≠ some index
  | .begun _ => (∃ now, shared.transactions index = .opened now []) ∧
      shared.locks outboxRelayLockKey ≠ some index
  | .declined => (∃ now, shared.transactions index = .opened now []) ∧
      shared.locks outboxRelayLockKey ≠ some index
  | .locked _ => (∃ now, shared.transactions index = .opened now []) ∧
      shared.locks outboxRelayLockKey = some index
  | .publishing .. => (∃ now marks, shared.transactions index = .opened now marks) ∧
      shared.locks outboxRelayLockKey = some index
  | .awaiting .. => (∃ now marks, shared.transactions index = .opened now marks) ∧
      shared.locks outboxRelayLockKey = some index
  | .marking .. => (∃ now marks, shared.transactions index = .opened now marks) ∧
      shared.locks outboxRelayLockKey = some index
  | .finished _ => shared.transactions index = .idle ∧ shared.locks outboxRelayLockKey ≠ some index

namespace Phase.Stands

variable {shared shared' : Shared ι} {index : ι} {phase : Phase}

/-- Only a drain that holds the lock has marked or handed over rows. -/
theorem holds_lock (stands : phase.Stands shared index) {id : ℕ}
    (carried : id ∈ (shared.transactions index).marks ∨ id ∈ phase.unmarked) :
    shared.locks outboxRelayLockKey = some index := by
  cases phase with
  | ready batchSize =>
      rw [stands.1] at carried
      simp [Transaction.marks, Phase.unmarked] at carried
  | begun batchSize =>
      rcases stands.1 with ⟨now, opened⟩
      rw [opened] at carried
      simp [Transaction.marks, Phase.unmarked] at carried
  | declined =>
      rcases stands.1 with ⟨now, opened⟩
      rw [opened] at carried
      simp [Transaction.marks, Phase.unmarked] at carried
  | locked batchSize => exact stands.2
  | publishing sent rows => exact stands.2
  | awaiting sent delivery row rows => exact stands.2
  | marking sent row rows => exact stands.2
  | finished published =>
      rw [stands.1] at carried
      simp [Transaction.marks, Phase.unmarked] at carried

theorem of_remaining (stands : phase.Stands shared index) {row : PendingOutboxRow}
    (rowMem : row ∈ phase.remaining) : shared.locks outboxRelayLockKey = some index := by
  cases phase with
  | publishing sent rows => exact stands.2
  | awaiting sent delivery row rows => exact stands.2
  | marking sent row rows => exact stands.2
  | _ => cases rowMem

/-- A drain stands where it stood as long as its transaction and its lock are left alone. -/
theorem frame (stands : phase.Stands shared index)
    (transactions : shared'.transactions index = shared.transactions index)
    (locks : shared'.locks outboxRelayLockKey = some index ↔
      shared.locks outboxRelayLockKey = some index) : phase.Stands shared' index := by
  cases phase with
  | _ =>
      simp only [Phase.Stands, transactions, ne_eq, locks] at stands ⊢
      exact stands

end Phase.Stands

/-- A step of a drain that meets no failure. -/
inductive Advance [DecidableEq ι] (now : Date) (index : ι) (shared : Shared ι) :
    Phase → Shared ι → Phase → Prop where
  | start (batchSize) : Advance now index shared (.ready batchSize)
      (shared.setTransaction index (.opened now [])) (.begun batchSize)
  | lock (batchSize) (free : shared.locks outboxRelayLockKey = none) :
      Advance now index shared (.begun batchSize)
        { shared with locks := Function.update shared.locks outboxRelayLockKey (some index) }
        (.locked batchSize)
  | decline (batchSize) : Advance now index shared (.begun batchSize) shared .declined
  | select (batchSize) : Advance now index shared (.locked batchSize) shared
      (.publishing 0 (((shared.pending []).take batchSize).map .ofRow))
  | publish (sent row rows delivery) (origin : delivery.origin = row.id) :
      Advance now index shared (.publishing sent (row :: rows))
        { shared with nextTag := shared.nextTag + 1, inFlight := shared.inFlight ++ [delivery] }
        (.awaiting sent delivery row rows)
  | confirm (sent delivery row rows) :
      Advance now index shared (.awaiting sent delivery row rows)
        { shared with confirmed := shared.confirmed ++ [delivery] } (.marking sent row rows)
  | mark (sent row rows start marks) (opened : shared.transactions index = .opened start marks) :
      Advance now index shared (.marking sent row rows)
        (shared.setTransaction index (.opened start (marks ++ [row.id])))
        (.publishing (sent + 1) rows)
  | commit (sent start marks) (opened : shared.transactions index = .opened start marks) :
      Advance now index shared (.publishing sent [])
        ((shared.release index .idle).commitMarks start marks) (.finished sent)
  | leave (start) (opened : shared.transactions index = .opened start []) :
      Advance now index shared .declined
        ((shared.release index .idle).commitMarks start []) (.finished 0)

variable {shared shared' : Shared ι} {phases : ι → Phase} {index : ι} {next : Phase}

/-- What is marked once a transaction has committed its marks of committed rows. -/
theorem Shared.marked_commitMarks {start : Date} {marks : List ℕ}
    (committed : ∀ id ∈ marks, ∃ row ∈ shared.outbox, row.id = id) (id : ℕ) :
    (shared.commitMarks start marks).Marked id ↔ shared.Marked id ∨ id ∈ marks := by
  constructor
  · rintro ⟨row', row'Mem, rfl, published⟩
    rcases mem_commitMarks.mp row'Mem with ⟨row, rowMem, rfl⟩
    rw [mark_id]
    by_cases marked : row.id ∈ marks
    · exact .inr marked
    · rw [mark, if_neg marked] at published
      exact .inl ⟨row, rowMem, rfl, published⟩
  · rintro (⟨row, rowMem, rfl, published⟩ | marked)
    · refine ⟨_, mem_commitMarks.mpr ⟨row, rowMem, rfl⟩, mark_id _ _ _, ?_⟩
      unfold mark
      split
      · simp
      · exact published
    · rcases committed id marked with ⟨row, rowMem, rfl⟩
      refine ⟨_, mem_commitMarks.mpr ⟨row, rowMem, rfl⟩, mark_id _ _ _, ?_⟩
      simp [mark, marked]

/-- What has been handed to the broker is committed. -/
theorem Shared.Invariant.committed_of_handed (invariant : shared.Invariant) {id : ℕ}
    (handed : id ∈ shared.handed) : ∃ row ∈ shared.outbox, row.id = id := by
  rcases List.mem_map.mp handed with ⟨delivery, flying, rfl⟩
  rcases invariant.warranted delivery (.inl flying) with ⟨row, rowMem, selected, _⟩
  exact ⟨row, rowMem, congrArg PendingOutboxRow.id selected⟩

section Frames

variable [DecidableEq ι]

theorem Shared.transactions_setTransaction (shared : Shared ι) (index : ι)
    (transaction : Transaction) :
    (shared.setTransaction index transaction).transactions index = transaction :=
  Function.update_self ..

theorem Shared.transactions_setTransaction_of_ne (shared : Shared ι) {index other : ι}
    (different : other ≠ index) (transaction : Transaction) :
    (shared.setTransaction index transaction).transactions other = shared.transactions other :=
  Function.update_of_ne different ..

theorem Shared.locks_release (shared : Shared ι) (index : ι) (left : Transaction) (other : ι) :
    (shared.release index left).locks outboxRelayLockKey = some other ↔
      shared.locks outboxRelayLockKey = some other ∧ other ≠ index := by
  simp only [Shared.release]
  split
  · next held =>
      rw [held]
      simp [eq_comm]
  · next free =>
      refine ⟨fun holds => ⟨holds, ?_⟩, And.left⟩
      rintro rfl
      exact free holds

end Frames

/-- What holds between the steps of drains that meet no failure. -/
structure Coordinated [Fintype ι] (shared : Shared ι) (phases : ι → Phase) : Prop where
  stands : ∀ index, (phases index).Stands shared index
  once : shared.handed.Nodup
  /-- What was handed to the broker is marked, committed or not, or is where a drain is at. -/
  handed : ∀ id, id ∈ shared.handed ↔ shared.Marked id ∨
    ∃ index, id ∈ (shared.transactions index).marks ∨ id ∈ (phases index).unmarked
  remaining : ∀ index,
    ((phases index).remaining.Pairwise fun left right => left.id < right.id) ∧
      ∀ row ∈ (phases index).remaining, row.id ∉ shared.handed
  arrived : ∀ delivery ∈ shared.received, delivery ∈ shared.inFlight
  count : shared.inFlight.length = ∑ index, (phases index).handed

section Preservation

variable [Fintype ι]

/-- Only the drain that holds the lock carries rows that are not marked in the table. -/
theorem Coordinated.alone (coordinated : Coordinated shared phases)
    (held : shared.locks outboxRelayLockKey = some index) {other : ι} {id : ℕ}
    (carried : id ∈ (shared.transactions other).marks ∨ id ∈ (phases other).unmarked) :
    other = index := by
  have otherHolds := (coordinated.stands other).holds_lock carried
  rw [held] at otherHolds
  exact (Option.some.inj otherHolds).symm

theorem Coordinated.handed_iff (coordinated : Coordinated shared phases)
    (held : shared.locks outboxRelayLockKey = some index) (id : ℕ) :
    id ∈ shared.handed ↔ shared.Marked id ∨ id ∈ (shared.transactions index).marks ∨
      id ∈ (phases index).unmarked := by
  rw [coordinated.handed]
  constructor
  · rintro (marked | ⟨other, carried⟩)
    · exact .inl marked
    · obtain rfl := coordinated.alone held carried
      exact .inr carried
  · rintro (marked | carried)
    · exact .inl marked
    · exact .inr ⟨index, carried⟩

/-- The drain that holds the lock selects rows that no drain has handed to the broker. -/
theorem Coordinated.select_fresh (coordinated : Coordinated shared phases)
    (held : shared.locks outboxRelayLockKey = some index)
    (light : (shared.transactions index).marks = [] ∧ (phases index).unmarked = []) {limit : ℕ}
    {row : PendingOutboxRow}
    (rowMem : row ∈ ((shared.pending []).take limit).map PendingOutboxRow.ofRow) :
    row.id ∉ shared.handed := by
  rcases List.mem_map.mp rowMem with ⟨stored, selected, rfl⟩
  rcases List.mem_filter.mp (List.mem_of_mem_take selected) with ⟨storedMem, pending⟩
  have unpublished : stored.publishedAt = none := by simpa using pending
  rw [coordinated.handed_iff held, light.1, light.2]
  rintro (⟨marked, markedMem, same, published⟩ | carried)
  · obtain rfl : marked = stored := SortedTable.eq_of_key_eq markedMem storedMem same
    exact published unpublished
  · simp at carried

/-- A step beside the drains that leaves the transactions, the marks and the messages alone. -/
theorem Coordinated.beside (coordinated : Coordinated shared phases)
    (transactions : shared'.transactions = shared.transactions)
    (locks : shared'.locks = shared.locks) (inFlight : shared'.inFlight = shared.inFlight)
    (marked : ∀ id, shared'.Marked id ↔ shared.Marked id)
    (arrived : ∀ delivery ∈ shared'.received, delivery ∈ shared'.inFlight) :
    Coordinated shared' phases := by
  have handed : shared'.handed = shared.handed := by rw [Shared.handed, inFlight, Shared.handed]
  constructor
  · intro other
    exact (coordinated.stands other).frame (by rw [transactions]) (by rw [locks])
  · rw [handed]
    exact coordinated.once
  · intro id
    rw [handed, transactions, marked]
    exact coordinated.handed id
  · rw [handed]
    exact coordinated.remaining
  · exact arrived
  · rw [inFlight]
    exact coordinated.count

variable [DecidableEq ι]

theorem sum_update (phases : ι → Phase) (index : ι) (next : Phase) :
    ∑ other, (Function.update phases index next other).handed + (phases index).handed =
      ∑ other, (phases other).handed + next.handed := by
  have moved : (fun other => (Function.update phases index next other).handed) =
      Function.update (fun other => (phases other).handed) index next.handed := by
    funext other
    exact Function.apply_update (fun _ => Phase.handed) phases index next other
  rw [moved, Finset.sum_update_of_mem (Finset.mem_univ index),
    ← Finset.add_sum_erase Finset.univ (fun other => (phases other).handed)
      (Finset.mem_univ index), Finset.sdiff_singleton_eq_erase]
  omega

/-- A step of one drain, from what it does to the drain's own share. -/
theorem Coordinated.update (coordinated : Coordinated shared phases)
    (own : next.Stands shared' index)
    (transactions : ∀ other, other ≠ index →
      shared'.transactions other = shared.transactions other)
    (locks : ∀ other, other ≠ index → (shared'.locks outboxRelayLockKey = some other ↔
      shared.locks outboxRelayLockKey = some other))
    (once : shared'.handed.Nodup)
    (handed : ∀ id, id ∈ shared'.handed ↔ shared'.Marked id ∨
      (∃ other, other ≠ index ∧
        (id ∈ (shared.transactions other).marks ∨ id ∈ (phases other).unmarked)) ∨
      id ∈ (shared'.transactions index).marks ∨ id ∈ next.unmarked)
    (remaining : next.remaining.Pairwise fun left right => left.id < right.id)
    (fresh : ∀ row ∈ next.remaining, row.id ∉ shared'.handed)
    (othersFresh : ∀ other, other ≠ index → ∀ row ∈ (phases other).remaining,
      row.id ∉ shared'.handed)
    (arrived : ∀ delivery ∈ shared'.received, delivery ∈ shared'.inFlight)
    (count : shared'.inFlight.length + (phases index).handed =
      shared.inFlight.length + next.handed) :
    Coordinated shared' (Function.update phases index next) := by
  constructor
  · intro other
    by_cases same : other = index
    · subst same
      rw [Function.update_self]
      exact own
    · rw [Function.update_of_ne same]
      exact (coordinated.stands other).frame (transactions other same) (locks other same)
  · exact once
  · intro id
    rw [handed]
    refine or_congr_right ?_
    constructor
    · rintro (⟨other, different, carried⟩ | carried)
      · refine ⟨other, ?_⟩
        rwa [Function.update_of_ne different, transactions other different]
      · refine ⟨index, ?_⟩
        rwa [Function.update_self]
    · rintro ⟨other, carried⟩
      by_cases same : other = index
      · subst same
        rw [Function.update_self] at carried
        exact .inr carried
      · rw [Function.update_of_ne same, transactions other same] at carried
        exact .inl ⟨other, same, carried⟩
  · intro other
    by_cases same : other = index
    · subst same
      rw [Function.update_self]
      exact ⟨remaining, fresh⟩
    · rw [Function.update_of_ne same]
      exact ⟨(coordinated.remaining other).1, othersFresh other same⟩
  · exact arrived
  · have sums := sum_update phases index next
    have before := coordinated.count
    omega

/-- A step that hands nothing over, by a drain that carries nothing before it and after it. -/
theorem Coordinated.outside (coordinated : Coordinated shared phases)
    (own : next.Stands shared' index)
    (transactions : ∀ other, other ≠ index →
      shared'.transactions other = shared.transactions other)
    (locks : ∀ other, other ≠ index → (shared'.locks outboxRelayLockKey = some other ↔
      shared.locks outboxRelayLockKey = some other))
    (inFlight : shared'.inFlight = shared.inFlight) (received : shared'.received = shared.received)
    (marked : ∀ id, shared'.Marked id ↔ shared.Marked id)
    (light : (shared.transactions index).marks = [] ∧ (phases index).unmarked = [])
    (light' : (shared'.transactions index).marks = [] ∧ next.unmarked = [])
    (remaining : next.remaining = []) (count : next.handed = (phases index).handed) :
    Coordinated shared' (Function.update phases index next) := by
  have handed : shared'.handed = shared.handed := by rw [Shared.handed, inFlight, Shared.handed]
  apply coordinated.update own transactions locks
  · rw [handed]
    exact coordinated.once
  · intro id
    rw [handed, coordinated.handed, marked, light'.1, light'.2]
    refine or_congr_right ?_
    constructor
    · rintro ⟨other, carried⟩
      by_cases same : other = index
      · subst same
        rw [light.1, light.2] at carried
        simp at carried
      · exact .inl ⟨other, same, carried⟩
    · rintro (⟨other, _, carried⟩ | carried)
      · exact ⟨other, carried⟩
      · simp at carried
  · rw [remaining]
    exact List.Pairwise.nil
  · rw [remaining]
    simp
  · rw [handed]
    exact fun other _ => (coordinated.remaining other).2
  · rw [received, inFlight]
    exact coordinated.arrived
  · rw [inFlight, count]

/-- A step of the drain that holds the lock. -/
theorem Coordinated.inside (coordinated : Coordinated shared phases)
    (held : shared.locks outboxRelayLockKey = some index)
    (own : next.Stands shared' index)
    (transactions : ∀ other, other ≠ index →
      shared'.transactions other = shared.transactions other)
    (locks : ∀ other, other ≠ index → shared'.locks outboxRelayLockKey ≠ some other)
    (once : shared'.handed.Nodup)
    (handed : ∀ id, id ∈ shared'.handed ↔ shared'.Marked id ∨
      id ∈ (shared'.transactions index).marks ∨ id ∈ next.unmarked)
    (remaining : next.remaining.Pairwise fun left right => left.id < right.id)
    (fresh : ∀ row ∈ next.remaining, row.id ∉ shared'.handed)
    (arrived : ∀ delivery ∈ shared'.received, delivery ∈ shared'.inFlight)
    (count : shared'.inFlight.length + (phases index).handed =
      shared.inFlight.length + next.handed) :
    Coordinated shared' (Function.update phases index next) := by
  have notHeld : ∀ other, other ≠ index → shared.locks outboxRelayLockKey ≠ some other := by
    intro other different otherHolds
    rw [held] at otherHolds
    exact different (Option.some.inj otherHolds).symm
  refine coordinated.update own transactions ?_ once ?_ remaining fresh ?_ arrived count
  · exact fun other different => iff_of_false (locks other different) (notHeld other different)
  · intro id
    rw [handed]
    refine or_congr_right ⟨.inr, ?_⟩
    rintro (⟨other, different, carried⟩ | carried)
    · exact absurd (coordinated.alone held carried) different
    · exact carried
  · intro other different row rowMem
    exact absurd ((coordinated.stands other).of_remaining rowMem) (notHeld other different)

/-- A step of a drain keeps the drains coordinated. -/
theorem Coordinated.advance (coordinated : Coordinated shared phases)
    (invariant : shared.Invariant) {now : Date} {phase : Phase} (stood : phases index = phase)
    (advance : Advance now index shared phase shared' next) :
    Coordinated shared' (Function.update phases index next) := by
  have stands := coordinated.stands index
  have set : ∀ transaction other, other ≠ index →
      (shared.setTransaction index transaction).transactions other = shared.transactions other :=
    fun transaction other different =>
      shared.transactions_setTransaction_of_ne different transaction
  have alone : shared.locks outboxRelayLockKey = some index → ∀ other, other ≠ index →
      shared.locks outboxRelayLockKey ≠ some other := by
    intro held other different otherHolds
    rw [held] at otherHolds
    exact different (Option.some.inj otherHolds).symm
  rw [stood] at stands
  cases advance with
  | start batchSize =>
      have own := shared.transactions_setTransaction index (.opened now [])
      refine coordinated.outside ⟨⟨now, own⟩, stands.2⟩ (set _) (fun _ _ => .rfl) rfl rfl
        (fun _ => .rfl) ?_ ⟨by rw [own]; rfl, rfl⟩ rfl (by rw [stood]; rfl)
      rw [stands.1, stood]
      exact ⟨rfl, rfl⟩
  | lock batchSize free =>
      rcases stands.1 with ⟨start, opened⟩
      have light : (shared.transactions index).marks = [] := by rw [opened]; rfl
      refine coordinated.outside ⟨⟨start, opened⟩, by simp⟩ (fun _ _ => rfl) ?_ rfl rfl
        (fun _ => .rfl) ⟨light, by rw [stood]; rfl⟩ ⟨light, rfl⟩ rfl (by rw [stood]; rfl)
      intro other different
      simp [free, different.symm]
  | decline batchSize =>
      rcases stands.1 with ⟨start, opened⟩
      have light : (shared.transactions index).marks = [] := by rw [opened]; rfl
      exact coordinated.outside ⟨⟨start, opened⟩, stands.2⟩ (fun _ _ => rfl) (fun _ _ => .rfl)
        rfl rfl (fun _ => .rfl) ⟨light, by rw [stood]; rfl⟩ ⟨light, rfl⟩ rfl (by rw [stood]; rfl)
  | select batchSize =>
      rcases stands with ⟨⟨start, opened⟩, held⟩
      have light : (shared.transactions index).marks = [] ∧ (phases index).unmarked = [] := by
        rw [opened, stood]
        exact ⟨rfl, rfl⟩
      have sorted : (shared.pending []).Pairwise fun left right => left.id < right.id :=
        shared.outbox.sorted.filter _
      refine coordinated.inside held ⟨⟨start, [], opened⟩, held⟩ (fun _ _ => rfl) (alone held)
        coordinated.once ?_ (List.pairwise_map.mpr (sorted.sublist (List.take_sublist _ _)))
        (fun row rowMem => coordinated.select_fresh held light rowMem) coordinated.arrived
        (by rw [stood]; rfl)
      intro id
      rw [coordinated.handed_iff held, light.2]
      rfl
  | publish sent row rows delivery origin =>
      rcases stands with ⟨opened, held⟩
      have remaining := coordinated.remaining index
      rw [stood] at remaining
      rcases List.pairwise_cons.mp remaining.1 with ⟨before, sorted⟩
      have handed : ({ shared with
          nextTag := shared.nextTag + 1
          inFlight := shared.inFlight ++ [delivery] } : Shared ι).handed =
          shared.handed ++ [row.id] := by
        simp [Shared.handed, origin]
      refine coordinated.inside held ⟨opened, held⟩ (fun _ _ => rfl) (alone held) ?_ ?_ sorted ?_ ?_
        ?_
      · rw [handed]
        have fresh := remaining.2 row List.mem_cons_self
        exact coordinated.once.append (List.nodup_singleton _) (by simpa using fresh)
      · intro id
        rw [handed, List.mem_append, coordinated.handed_iff held, stood]
        simp only [Phase.unmarked, List.not_mem_nil, or_false, or_assoc]
        rfl
      · intro other otherMem
        rw [handed, List.mem_append, not_or]
        refine ⟨remaining.2 other (List.mem_cons_of_mem _ otherMem), ?_⟩
        have above := before other otherMem
        simp only [List.mem_singleton]
        omega
      · exact fun other arrived => List.mem_append_left _ (coordinated.arrived other arrived)
      · rw [stood]
        simp only [List.length_append, List.length_singleton, Phase.handed]
        omega
  | confirm sent delivery row rows =>
      rcases stands with ⟨opened, held⟩
      have remaining := coordinated.remaining index
      rw [stood] at remaining
      refine coordinated.inside held ⟨opened, held⟩ (fun _ _ => rfl) (alone held)
        coordinated.once ?_
        remaining.1 remaining.2 coordinated.arrived (by rw [stood]; rfl)
      intro id
      refine (coordinated.handed_iff held id).trans ?_
      rw [stood]
      rfl
  | mark sent row rows start marks opened =>
      rcases stands with ⟨_, held⟩
      have remaining := coordinated.remaining index
      rw [stood] at remaining
      have own := shared.transactions_setTransaction index (.opened start (marks ++ [row.id]))
      refine coordinated.inside held ⟨⟨start, _, own⟩, held⟩ (set _) (alone held) coordinated.once
        ?_ remaining.1 remaining.2 coordinated.arrived (by rw [stood]; rfl)
      intro id
      refine (coordinated.handed_iff held id).trans ?_
      rw [own, opened, stood]
      simp only [Transaction.marks, Phase.unmarked, List.mem_append, List.not_mem_nil, or_false]
      rfl
  | commit sent start marks opened =>
      rcases stands with ⟨_, held⟩
      have own := shared.transactions_setTransaction index .idle
      have unheld : ∀ other,
          (shared.release index .idle).locks outboxRelayLockKey ≠ some other := by
        intro other otherHolds
        rcases (shared.locks_release index .idle other).mp otherHolds with ⟨otherHolds, different⟩
        exact alone held other different otherHolds
      have carried := coordinated.handed_iff held
      rw [opened, stood] at carried
      refine coordinated.inside held ⟨own, unheld index⟩ (set _) (fun other _ => unheld other)
        coordinated.once ?_ List.Pairwise.nil (by simp [Phase.remaining]) coordinated.arrived
        (by rw [stood]; rfl)
      intro id
      have committed : ∀ id ∈ marks, ∃ row ∈ (shared.release index .idle).outbox, row.id = id :=
        fun id idMem => invariant.committed_of_handed ((carried id).mpr (.inr (.inl idMem)))
      refine (carried id).trans ?_
      rw [Shared.marked_commitMarks committed]
      have same :
          ((shared.release index .idle).commitMarks start marks).transactions index = .idle :=
        own
      rw [same]
      simp only [Transaction.marks, Phase.unmarked, List.not_mem_nil, or_false]
      rfl
  | leave start opened =>
      have own := shared.transactions_setTransaction index .idle
      have locks : ∀ other, (shared.release index .idle).locks outboxRelayLockKey = some other ↔
          shared.locks outboxRelayLockKey = some other := by
        intro other
        rw [shared.locks_release]
        refine ⟨And.left, fun otherHolds => ⟨otherHolds, ?_⟩⟩
        rintro rfl
        exact stands.2 otherHolds
      have light' : (((shared.release index .idle).commitMarks start []).transactions index).marks =
          [] := congrArg Transaction.marks own
      refine coordinated.outside ⟨own, fun held => stands.2 ((locks index).mp held)⟩ (set _)
        (fun other _ => locks other) rfl rfl ?_ ?_ ⟨light', rfl⟩ rfl (by rw [stood]; rfl)
      · intro id
        rw [Shared.marked_commitMarks (by simp)]
        simp only [List.not_mem_nil, or_false]
        rfl
      · rw [opened, stood]
        exact ⟨rfl, rfl⟩

/-- What writers and the broker do keeps the drains coordinated. -/
theorem Coordinated.environment (coordinated : Coordinated shared phases)
    (invariant : shared.Invariant) {event : Event ι}
    (faultless : Faultless (.environment event : Machine.Action (machine ι)))
    (happened : shared.environment event = some shared') : Coordinated shared' phases := by
  cases event with
  | insert entry =>
      rw [Shared.environment, Option.ite_none_right_eq_some] at happened
      rcases happened with ⟨_, ⟨⟩⟩
      exact coordinated.beside rfl rfl rfl (fun _ => .rfl) coordinated.arrived
  | commit row =>
      rw [Shared.environment, Option.ite_none_right_eq_some] at happened
      rcases happened with ⟨rowMem, ⟨⟩⟩
      refine coordinated.beside rfl rfl rfl (fun id => ?_) coordinated.arrived
      have unpublished := (invariant.ordered.uncommitted row rowMem).2
      constructor
      · rintro ⟨stored, storedMem, same, published⟩
        rcases SortedTable.mem_insert.mp storedMem with rfl | ⟨old, _⟩
        · exact absurd unpublished published
        · exact ⟨stored, old, same, published⟩
      · rintro ⟨stored, storedMem, same, published⟩
        have different := (invariant.ordered.above row rowMem stored storedMem).1
        exact ⟨stored, SortedTable.mem_insert.mpr (.inr ⟨storedMem, different⟩), same, published⟩
  | rollback row =>
      cases happened
      exact coordinated.beside rfl rfl rfl (fun _ => .rfl) coordinated.arrived
  | arrive delivery =>
      rw [Shared.environment, Option.ite_none_right_eq_some] at happened
      rcases happened with ⟨flying, ⟨⟩⟩
      refine coordinated.beside rfl rfl rfl (fun _ => .rfl) fun other otherMem => ?_
      rcases List.mem_append.mp otherMem with old | new
      · exact coordinated.arrived other old
      · exact List.mem_singleton.mp new ▸ flying
  | lose delivery => exact faultless.elim
  | abort index => exact faultless.elim

/-- A call of a drain, answered without a failure, is a step to the next phase. -/
theorem Coordinated.advances (coordinated : Coordinated shared phases)
    {request : Call} {resume : signature.Reply request → Program signature Failure ℕ}
    {reply : signature.Reply request} {now : Date}
    (running : (phases index).program = .call request resume)
    (answered : shared.answer (.proceed now) index request = some (reply, shared')) :
    ∃ next, Advance now index shared (phases index) shared' next ∧
      resume reply = next.program := by
  have stands := coordinated.stands index
  cases stood : phases index with
  | ready batchSize =>
      rw [stood] at running stands
      cases running
      rw [Shared.answer, Shared.execute, stands.1] at answered
      cases answered
      exact ⟨_, .start batchSize, rfl⟩
  | begun batchSize =>
      rw [stood] at running stands
      rcases stands with ⟨⟨start, opened⟩, unheld⟩
      cases running
      simp only [Shared.answer, Shared.execute, opened, Option.some.injEq] at answered
      split at answered
      · next free =>
          cases answered
          exact ⟨_, .lock batchSize free, rfl⟩
      · next holder held =>
          have different : holder ≠ index := fun same => unheld (same ▸ held)
          simp only [different, decide_false] at answered
          cases answered
          exact ⟨_, .decline batchSize, rfl⟩
  | declined =>
      rw [stood] at running stands
      rcases stands with ⟨⟨start, opened⟩, _⟩
      cases running
      simp only [Shared.answer, Shared.execute, opened] at answered
      cases answered
      exact ⟨_, .leave start opened, rfl⟩
  | locked batchSize =>
      rw [stood] at running stands
      rcases stands with ⟨⟨start, opened⟩, _⟩
      cases running
      simp only [Shared.answer, Shared.execute, opened] at answered
      cases answered
      exact ⟨_, .select batchSize, rfl⟩
  | publishing sent rows =>
      rw [stood] at running stands
      rcases stands with ⟨⟨start, marks, opened⟩, _⟩
      cases rows with
      | nil =>
          cases running
          simp only [Shared.answer, Shared.execute, opened] at answered
          cases answered
          exact ⟨_, .commit sent start marks opened, rfl⟩
      | cons row rows =>
          simp only [Phase.program, publishRows, sendToQueue_eq] at running
          cases running
          cases answered
          exact ⟨_, .publish sent row rows _ rfl, rfl⟩
  | awaiting sent delivery row rows =>
      rw [stood] at running
      cases running
      rw [Shared.answer, Option.ite_none_right_eq_some] at answered
      rcases answered with ⟨_, ⟨⟩⟩
      exact ⟨_, .confirm sent delivery row rows, rfl⟩
  | marking sent row rows =>
      rw [stood] at running stands
      rcases stands with ⟨⟨start, marks, opened⟩, _⟩
      cases running
      simp only [Shared.answer, Shared.execute, opened] at answered
      cases answered
      exact ⟨_, .mark sent row rows start marks opened, rfl⟩
  | finished published =>
      rw [stood] at running
      cases running

/-- The drains of a world stand in coordinated phases. -/
def InPhases (world : Machine.World (machine ι) Failure ℕ) (phases : ι → Phase) : Prop :=
  Coordinated world.shared phases ∧ ∀ index, world.programs index = (phases index).program

theorem inPhases_start (batchSize : ι → ℕ) :
    InPhases (start batchSize) fun index => .ready (batchSize index) := by
  refine ⟨?_, fun _ => rfl⟩
  constructor
  · exact fun index => ⟨rfl, by simp [start, Shared.initial]⟩
  · exact List.nodup_nil
  · simp [start, Shared.initial, Shared.handed, Shared.Marked, Transaction.marks, Phase.unmarked]
  · exact fun index => ⟨List.Pairwise.nil, by simp [Phase.remaining]⟩
  · simp [start, Shared.initial]
  · simp [start, Shared.initial, Phase.handed]

variable {world later : Machine.World (machine ι) Failure ℕ}

/-- A step of one drain moves that drain to its next phase. -/
theorem InPhases.session (inPhases : InPhases world phases) (invariant : world.shared.Invariant)
    {now : Date} (stepped : Machine.step world (.session index (.proceed now)) = some later) :
    ∃ next, Advance now index world.shared (phases index) later.shared next ∧
      InPhases later (Function.update phases index next) := by
  rcases inPhases with ⟨coordinated, programs⟩
  rcases Machine.step_session stepped with
    ⟨request, resume, reply, shared', own, running, answered, rfl⟩
  rw [programs] at running
  rcases coordinated.advances running (answer_of_machine answered) with ⟨next, advance, goesOn⟩
  refine ⟨next, advance, coordinated.advance invariant rfl advance, fun other => ?_⟩
  by_cases same : other = index
  · subst same
    simp only [Function.update_self, goesOn]
  · simp only [Function.update_of_ne same, programs]

/-- Any step leaves every drain in its phase or moves it to the next one. -/
theorem InPhases.step (inPhases : InPhases world phases) (invariant : world.shared.Invariant)
    {action : Machine.Action (machine ι)} (faultless : Faultless action)
    (stepped : Machine.step world action = some later) :
    ∃ phases', InPhases later phases' ∧ ∀ index, phases' index = phases index ∨
      ∃ now, Advance now index world.shared (phases index) later.shared (phases' index) := by
  cases action with
  | session index choice =>
      cases choice with
      | proceed now =>
          rcases inPhases.session invariant stepped with ⟨next, advance, inPhases'⟩
          refine ⟨_, inPhases', fun other => ?_⟩
          by_cases same : other = index
          · subst same
            rw [Function.update_self]
            exact .inr ⟨now, advance⟩
          · exact .inl (Function.update_of_ne same ..)
      | fail error => exact faultless.elim
      | reject error => exact faultless.elim
  | environment event =>
      rcases Option.map_eq_some_iff.mp stepped with ⟨shared', happened, rfl⟩
      exact ⟨phases, ⟨inPhases.1.environment invariant faultless happened, inPhases.2⟩,
        fun _ => .inl rfl⟩

/-- In every state of a run without a failure the drains stand in coordinated phases. -/
theorem inPhases_reached {batchSize : ι → ℕ}
    (reached : Machine.ReachesBy Faultless (start batchSize) world) :
    ∃ phases, InPhases world phases := by
  induction reached with
  | refl => exact ⟨_, inPhases_start batchSize⟩
  | tail before stepped ih =>
      rcases ih with ⟨phases, inPhases⟩
      rcases stepped with ⟨action, faultless, taken⟩
      have invariant := invariant_reached (Machine.ReachesBy.reaches before)
      rcases inPhases.step invariant faultless taken with ⟨phases', inPhases', _⟩
      exact ⟨phases', inPhases'⟩

end Preservation

end Relay

end ProcessingCatalog
