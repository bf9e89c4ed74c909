import ProcessingCatalog.Messaging.DrainAlone
import ProcessingCatalog.Messaging.RelayFaithful
import Mathlib.Algebra.Order.Floor.Div
import Mathlib.Data.List.Forall2

/-!
# Consecutive drains publish in order

Each drain confirms the rows of its batch up to the first refusal, and the
drains together confirm the first of the pending rows, in the order of their
identifiers, until none is left.
-/

namespace ProcessingCatalog

open Effect

namespace Relay

/-- The first `tried` of the pending rows are handed to the broker, and the first `count` of them
are confirmed and marked. -/
structure Confirms (now : Date) (before after : Shared Unit) (count tried : ℕ) : Prop where
  attempted : after.inFlight =
    before.inFlight ++ deliveries before.nextTag ((before.pending []).take tried)
  confirmed : after.confirmed =
    before.confirmed ++ deliveries before.nextTag ((before.pending []).take count)
  marked : after.outbox.rows = before.outbox.rows.map
    (Shared.mark now (((before.pending []).take count).map OutboxRow.id))
  pending : after.pending [] = (before.pending []).drop count

/-- What is promised of a drain that gets the lock. -/
structure DrainContract (verdict : ℕ → Option PublishError) (batchSize : ℕ) (now : Date)
    (before : Shared Unit) (outcome : Except Failure ℕ) (after : Shared Unit) : Prop where
  /-- Without a refusal it publishes its batch and returns the number of its rows. -/
  unrefused : let size := min batchSize (before.pending []).length
    (∀ i < size, verdict (before.nextTag + i) = none) →
      outcome = .ok size ∧ Confirms now before after size size ∧
        after.publishFailures = before.publishFailures
  /-- The first refusal ends it, and is thrown when the marks before it have been committed. -/
  refused : ∀ i < min batchSize (before.pending []).length, ∀ error,
    (∀ j < i, verdict (before.nextTag + j) = none) → verdict (before.nextTag + i) = some error →
      outcome = .error (.publish error) ∧ Confirms now before after i (i + 1) ∧
        after.publishFailures = before.publishFailures + 1

/-- The delivery publishes the row. -/
def Publishes (row : OutboxRow) (delivery : Delivery) : Prop :=
  delivery.origin = row.id ∧ delivery.queue = row.entry.route.queue ∧
    delivery.message = ⟨row.entry.route.pattern, row.entry.payload⟩

/-- The row, marked if it is one of these. -/
def MarkedAmong (ids : List ℕ) (before after : OutboxRow) : Prop :=
  after.id = before.id ∧ after.entry = before.entry ∧
    (after.publishedAt ≠ none ↔ before.publishedAt ≠ none ∨ before.id ∈ ids) ∧
    (before.publishedAt ≠ none → after.publishedAt = before.publishedAt)

/-- What a sequence of drains does that confirms the first `count` of the pending rows. -/
structure PublishesFirst (before : Shared Unit) (outcomes : List (Except Failure ℕ))
    (after : Shared Unit) (count : ℕ) : Prop where
  /-- They are confirmed in order, each exactly once. -/
  confirmed : ∃ news, after.confirmed = before.confirmed ++ news ∧
    List.Forall₂ Publishes ((before.pending []).take count) news ∧
    (news.map Delivery.origin).Nodup
  marked : List.Forall₂ (MarkedAmong (((before.pending []).take count).map OutboxRow.id))
    before.outbox.rows after.outbox.rows
  pending : after.pending [] = (before.pending []).drop count
  /-- The failures counted are the drains that threw. -/
  failures : after.publishFailures =
    before.publishFailures + outcomes.countP fun outcome => !outcome.isOk

variable {verdict : ℕ → Option PublishError} {batchSize : ℕ} {now : Date} {shared : Shared Unit}

theorem afterDrain_free {rows : List OutboxRow} {confirmed : ℕ} {failed : Bool}
    (free : Free shared) : Free (afterDrain now shared rows confirmed failed) := by
  constructor
  · simp [afterDrain, Shared.commitMarks, Shared.release, Shared.setTransaction]
  · change (if shared.locks outboxRelayLockKey = some () then none else
      shared.locks outboxRelayLockKey) = none
    rw [free.2, if_neg (by simp)]

theorem afterDrain_confirms (failed : Bool) {confirmed : ℕ}
    (within : confirmed + failed.toNat ≤ min batchSize (shared.pending []).length) :
    Confirms now shared
      (afterDrain now shared ((shared.pending []).take batchSize) confirmed failed)
      confirmed (confirmed + failed.toNat) := by
  have taken : ∀ count ≤ confirmed + failed.toNat,
      ((shared.pending []).take batchSize).take count = (shared.pending []).take count := by
    intro count below
    rw [List.take_take, Nat.min_eq_left]
    omega
  have first := taken confirmed (Nat.le_add_right ..)
  constructor
  · exact congrArg (fun rows => shared.inFlight ++ deliveries shared.nextTag rows)
      (taken _ le_rfl)
  · exact congrArg (fun rows => shared.confirmed ++ deliveries shared.nextTag rows) first
  · rw [← first]
    rfl
  · rw [afterDrain, pending_commitMarks, first]
    exact pending_marks shared confirmed

/-- A drain that gets the lock keeps its promise. -/
theorem drain_contract (free : Free shared) :
    DrainContract verdict batchSize now shared
      ((drain batchSize).run (answerAlone verdict now) shared).1
      ((drain batchSize).run (answerAlone verdict now) shared).2 := by
  have size := congrArg (attempts verdict shared.nextTag)
    (List.length_take (i := batchSize) (l := shared.pending []))
  constructor
  · intro _ every
    rw [run_drain now free rfl (size.trans (attempts_of_confirmed every))]
    exact ⟨rfl, afterDrain_confirms false le_rfl, rfl⟩
  · intro i below error before refused
    rw [run_drain now free rfl (size.trans (attempts_of_refused below before refused))]
    exact ⟨rfl, afterDrain_confirms true below, rfl⟩

theorem forall₂_deliveries (tag : ℕ) (rows : List OutboxRow) :
    List.Forall₂ Publishes rows (deliveries tag rows) := by
  induction rows generalizing tag with
  | nil => exact .nil
  | cons row rows ih => exact .cons ⟨rfl, rfl, rfl⟩ (ih (tag + 1))

theorem map_origin_of_publishes {rows : List OutboxRow} {news : List Delivery}
    (published : List.Forall₂ Publishes rows news) :
    news.map Delivery.origin = rows.map OutboxRow.id := by
  induction published with
  | nil => rfl
  | cons first _ ih => rw [List.map_cons, List.map_cons, first.1, ih]

/-- The first rows of an outbox have different identifiers. -/
theorem nodup_take (shared : Shared Unit) (count : ℕ) :
    (((shared.pending []).take count).map OutboxRow.id).Nodup := by
  have sorted : ((shared.pending []).take count).Pairwise fun left right => left.id < right.id :=
    (shared.outbox.sorted.filter _).sublist (List.take_sublist count _)
  exact List.pairwise_map.mpr (sorted.imp fun less => less.ne)

theorem markedAmong_mark {ids : List ℕ} {row : OutboxRow}
    (unpublished : row.id ∈ ids → row.publishedAt = none) :
    MarkedAmong ids row (Shared.mark now ids row) := by
  refine ⟨Shared.mark_id .., Shared.mark_entry .., ?_⟩
  unfold Shared.mark
  split
  · next among => simp [among, unpublished among]
  · next other => simp [other]

theorem Confirms.publishesFirst {before after : Shared Unit} {count tried : ℕ}
    (confirms : Confirms now before after count tried) {outcome : Except Failure ℕ}
    (failures : after.publishFailures = before.publishFailures + (!outcome.isOk).toNat) :
    PublishesFirst before [outcome] after count := by
  have published := forall₂_deliveries before.nextTag ((before.pending []).take count)
  constructor
  · refine ⟨_, confirms.confirmed, published, ?_⟩
    rw [map_origin_of_publishes published]
    exact nodup_take before count
  · rw [confirms.marked, List.forall₂_map_right_iff, List.forall₂_same]
    intro row rowMem
    apply markedAmong_mark
    intro among
    rcases List.mem_map.mp among with ⟨other, otherMem, same⟩
    rcases List.mem_filter.mp (List.mem_of_mem_take otherMem) with ⟨otherStored, selected⟩
    rw [SortedTable.eq_of_key_eq rowMem otherStored same.symm]
    simpa using selected
  · exact confirms.pending
  · rw [failures]
    cases outcome <;> rfl

/-- One drain publishes the first of the pending rows: its batch, unless it throws. -/
theorem publishesFirst_drain (verdict : ℕ → Option PublishError) (batchSize : ℕ) (now : Date)
    {shared : Shared Unit} (free : Free shared) :
    ∃ count ≤ (shared.pending []).length,
      PublishesFirst shared [((drain batchSize).run (answerAlone verdict now) shared).1]
        ((drain batchSize).run (answerAlone verdict now) shared).2 count ∧
      (((drain batchSize).run (answerAlone verdict now) shared).1.isOk →
        count = min batchSize (shared.pending []).length) ∧
      Free ((drain batchSize).run (answerAlone verdict now) shared).2 := by
  have size : ((shared.pending []).take batchSize).length =
    min batchSize (shared.pending []).length := List.length_take
  rcases attempted : attempts verdict shared.nextTag ((shared.pending []).take batchSize).length
    with ⟨count, error⟩
  rw [run_drain now free rfl attempted]
  cases error with
  | none =>
      have all : count = min batchSize (shared.pending []).length :=
        (attempts_confirmed attempted).trans size
      refine ⟨count, by omega, ?_, fun _ => all, afterDrain_free free⟩
      exact (afterDrain_confirms false all.le).publishesFirst rfl
  | some refusal =>
      have within := size ▸ (attempts_error attempted).1
      refine ⟨count, by omega, ?_, nofun, afterDrain_free free⟩
      exact (afterDrain_confirms true within).publishesFirst rfl

theorem MarkedAmong.trans {first second : List ℕ} {before middle after : OutboxRow}
    (marked : MarkedAmong first before middle) (later : MarkedAmong second middle after) :
    MarkedAmong (first ++ second) before after := by
  rcases marked with ⟨id, entry, published, kept⟩
  rcases later with ⟨id', entry', published', kept'⟩
  refine ⟨id'.trans id, entry'.trans entry, ?_, ?_⟩
  · rw [published', published, id, List.mem_append, or_assoc]
  · intro already
    exact (kept' (kept already ▸ already)).trans (kept already)

theorem markedAmong_rows {first second : List ℕ} {before middle after : List OutboxRow}
    (marked : List.Forall₂ (MarkedAmong first) before middle)
    (later : List.Forall₂ (MarkedAmong second) middle after) :
    List.Forall₂ (MarkedAmong (first ++ second)) before after := by
  induction marked generalizing after with
  | nil =>
      cases later
      exact .nil
  | cons markedRow _ ih =>
      cases later with
      | cons laterRow laterRows => exact .cons (markedRow.trans laterRow) (ih laterRows)

theorem PublishesFirst.trans {before middle after : Shared Unit}
    {outcomes outcomes' : List (Except Failure ℕ)} {count count' : ℕ}
    (first : PublishesFirst before outcomes middle count)
    (later : PublishesFirst middle outcomes' after count') :
    PublishesFirst before (outcomes ++ outcomes') after (count + count') := by
  have batches : (before.pending []).take (count + count') =
      (before.pending []).take count ++ (middle.pending []).take count' := by
    rw [first.pending, List.take_add]
  rcases first.confirmed with ⟨news, confirmed, published, _⟩
  rcases later.confirmed with ⟨news', confirmed', published', _⟩
  have publishedBoth : List.Forall₂ Publishes ((before.pending []).take (count + count'))
      (news ++ news') := by
    rw [batches]
    exact List.rel_append published published'
  constructor
  · refine ⟨news ++ news', ?_, publishedBoth, ?_⟩
    · rw [confirmed', confirmed, List.append_assoc]
    · rw [map_origin_of_publishes publishedBoth]
      exact nodup_take before _
  · rw [batches, List.map_append]
    exact markedAmong_rows first.marked later.marked
  · rw [later.pending, first.pending, List.drop_drop]
  · rw [later.failures, first.failures, List.countP_append, Nat.add_assoc]

theorem publishesFirst_nil (shared : Shared Unit) : PublishesFirst shared [] shared 0 := by
  refine ⟨⟨[], (List.append_nil _).symm, .nil, .nil⟩, ?_, rfl, rfl⟩
  refine List.forall₂_same.mpr fun row _ => ?_
  exact ⟨rfl, rfl, by simp, fun _ => rfl⟩

/-- The drains one after another publish the first of the pending rows, and all of them when none
throws and there are enough drains. -/
theorem publishesFirst_drainAll (nows : List Date) (free : Free shared) :
    ∃ count ≤ (shared.pending []).length,
      PublishesFirst shared (drainAll verdict batchSize nows shared).1
        (drainAll verdict batchSize nows shared).2 count ∧
      ((∀ outcome ∈ (drainAll verdict batchSize nows shared).1, outcome.isOk) →
        (shared.pending []).length ≤ batchSize * nows.length →
          count = (shared.pending []).length) ∧
      Free (drainAll verdict batchSize nows shared).2 := by
  induction nows generalizing shared with
  | nil =>
      refine ⟨0, Nat.zero_le _, publishesFirst_nil shared, fun _ few => ?_, free⟩
      rw [List.length_nil, Nat.mul_zero] at few
      exact (Nat.le_zero.mp few).symm
  | cons now later ih =>
      rcases publishesFirst_drain verdict batchSize now free with
        ⟨first, firstLe, firstPublished, firstAll, freeAfter⟩
      rcases ih freeAfter with ⟨rest, restLe, restPublished, restAll, freeEnd⟩
      have left := congrArg List.length firstPublished.pending
      rw [List.length_drop] at left
      refine ⟨first + rest, by omega, firstPublished.trans restPublished, ?_, freeEnd⟩
      intro every enough
      have all := firstAll (every _ List.mem_cons_self)
      have others := restAll fun outcome outcomeMem =>
        every outcome (List.mem_cons_of_mem _ outcomeMem)
      rw [List.length_cons, Nat.mul_succ] at enough
      have fits : first = batchSize ∨ first = (shared.pending []).length := by omega
      rcases fits with rfl | rfl
      · have := others (by omega)
        omega
      · omega

theorem drainAll_append (done later : List Date) (shared : Shared Unit) :
    drainAll verdict batchSize (done ++ later) shared =
      ((drainAll verdict batchSize done shared).1 ++
          (drainAll verdict batchSize later (drainAll verdict batchSize done shared).2).1,
        (drainAll verdict batchSize later (drainAll verdict batchSize done shared).2).2) := by
  induction done generalizing shared with
  | nil => rfl
  | cons now done ih =>
      simp only [List.cons_append, drainAll, ih]

/-- Drains that get the lock, one after another, keep their promise each, and together publish
the first of the pending rows; without a refusal, enough of them publish all rows. -/
theorem drains_publish_in_order (verdict : ℕ → Option PublishError) {batchSize : ℕ}
    (positive : 0 < batchSize) (nows : List Date) {shared : Shared Unit} (free : Free shared) :
    (∀ done now later, nows = done ++ now :: later →
      let (outcomes, before) := drainAll verdict batchSize done shared
      let (outcome, after) := (drain batchSize).run (answerAlone verdict now) before
      drainAll verdict batchSize (done ++ [now]) shared = (outcomes ++ [outcome], after) ∧
        DrainContract verdict batchSize now before outcome after) ∧
    let (outcomes, after) := drainAll verdict batchSize nows shared
    ∃ count ≤ (shared.pending []).length,
      PublishesFirst shared outcomes after count ∧
      ((∀ outcome ∈ outcomes, outcome.isOk) →
        (shared.pending []).length ⌈/⌉ batchSize ≤ nows.length →
          count = (shared.pending []).length ∧ after.pending [] = []) := by
  constructor
  · intro done now later _
    rcases publishesFirst_drainAll done free with ⟨_, _, _, _, freeBefore⟩
    exact ⟨drainAll_append done [now] shared, drain_contract freeBefore⟩
  · rcases publishesFirst_drainAll nows free with ⟨count, within, published, all, _⟩
    refine ⟨count, within, published, fun every enough => ?_⟩
    have whole := all every ((ceilDiv_le_iff_le_mul positive).mp enough)
    refine ⟨whole, ?_⟩
    rw [published.pending, whole, List.drop_length]

/-- Three rows that wait to be published. -/
def backlog : Shared Unit :=
  { Shared.initial with
    outbox := ((SortedTable.empty.insert ⟨1, announcement (js "a"), none⟩).insert
      ⟨2, announcement (js "b"), none⟩).insert ⟨3, announcement (js "c"), none⟩
    nextOutboxId := 4 }

/-- The third publish fails at first, in the second drain. -/
theorem drains_publish_in_order_backlog :
    let refusesThird : ℕ → Option PublishError := fun tag => if tag = 3 then some .timeout else none
    DrainContract refusesThird 2 8 (drainAll refusesThird 2 [7] backlog).2
      (.error (.publish .timeout)) (drainAll refusesThird 2 [7, 8] backlog).2 ∧
    ((drainAll (fun _ => none) 2 [7, 8] backlog).2).pending [] = [] := by
  have free : Free backlog := ⟨rfl, rfl⟩
  constructor
  · exact ((drains_publish_in_order _ (by decide) [7, 8] free).1 [7] 8 [] rfl).2
  · rcases (drains_publish_in_order (fun _ => none) Nat.zero_lt_two [7, 8] free).2 with
      ⟨count, _, _, all⟩
    exact (all (by decide +kernel) (by decide)).2

end Relay

end ProcessingCatalog
