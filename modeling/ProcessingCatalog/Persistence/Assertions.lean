import ProcessingCatalog.Persistence.IsolationSoundness

/-!
# Assertions about the shared tables

What a session may assert between two of its statements. Most of it is
persistent: once it holds, no step of another session falsifies it, whatever the
session holds locked. That a row is as it was read is asserted only while the
row is locked.
-/

namespace ProcessingCatalog

open Effect

namespace Postgres

variable {ι : Type} {operations : ι → Operation} {initial : Database} {index : ι}

/-- An assertion that holds for ever once it holds, whatever the session itself holds. -/
def Persistent (operations : ι → Operation) (index : ι) (assertion : Shared ι → Prop) : Prop :=
  ∀ shared shared', Rely operations index .idle shared shared' → assertion shared →
    assertion shared'

theorem Rely.toIdle {own : Connection} {shared shared' : Shared ι}
    (rely : Rely operations index own shared shared') :
    Rely operations index .idle shared shared' where
  committed := rely.committed
  kept := rely.kept
  locked id locked := by simp [Connection.pending, Transaction.empty] at locked
  recorded := rely.recorded
  foreign := rely.foreign

theorem Persistent.and {left right : Shared ι → Prop}
    (leftPersistent : Persistent operations index left)
    (rightPersistent : Persistent operations index right) :
    Persistent operations index fun shared => left shared ∧ right shared :=
  fun shared shared' rely holds =>
    ⟨leftPersistent shared shared' rely holds.1, rightPersistent shared shared' rely holds.2⟩

theorem persistent_const (fact : Prop) : Persistent operations index fun _ => fact :=
  fun _ _ _ holds => holds

/-- The row a session holds, as the committed table has it. -/
def RowIs (id : Uuid) (row : ProcessingRequestRow) (shared : Shared ι) : Prop :=
  shared.database.requests.find? id = some row

/-- The session has committed nothing yet. -/
def Uncommitted (index : ι) (shared : Shared ι) : Prop :=
  ∀ entry ∈ shared.committed, entry.1 ≠ index

theorem persistent_uncommitted : Persistent operations index (Uncommitted index) := by
  intro shared shared' rely fresh entry entryMem
  obtain ⟨more, extended, foreign⟩ := rely.committed
  rw [extended] at entryMem
  rcases List.mem_append.mp entryMem with old | new
  · exact fresh entry old
  · exact foreign entry new

/-- The event is recorded. -/
def Recorded (eventId : JsString) (shared : Shared ι) : Prop :=
  (shared.database.events.find? eventId).isSome

theorem persistent_recorded (eventId : JsString) :
    Persistent operations index (Recorded eventId) := by
  intro shared shared' rely recorded
  obtain ⟨event, found⟩ := Option.isSome_iff_exists.mp recorded
  have eventMem := rely.recorded event (KeyedTable.mem_of_find? found)
  simp only [Recorded, ← KeyedTable.key_of_find? found, KeyedTable.find?_key eventMem,
    Option.isSome_some]

theorem recorded_of_countEvents {eventId : JsString} {database : Database} {count : ℕ}
    (ran : (Query.countEvents eventId).run database = .ok count) (positive : 0 < count) :
    (database.events.find? eventId).isSome := by
  cases ran
  obtain ⟨event, eventMem, named⟩ := List.countP_pos_iff.mp positive
  have named : event.eventId = eventId := by simpa using named
  rw [← named, KeyedTable.find?_key (show event ∈ database.events from eventMem)]
  rfl

theorem isRecorded_of_represents {database : Database} {ledger : Ledger}
    (represents : database.Represents ledger) (eventId : JsString) :
    ledger.isRecorded eventId = (database.events.find? eventId).isSome := by
  rw [Ledger.isRecorded, represents.events]

/-- At its commit, an event this transaction records is not recorded yet. -/
theorem unrecorded_of_admissible {eventId : JsString} {shared : Shared ι}
    {transaction : Transaction} {ledger : Ledger}
    (admissible : Admissible eventId shared transaction)
    (represents : shared.database.Represents ledger) {recorded : ProcessedEvent}
    (written : .insertEvent recorded ∈ transaction.writes) :
    ledger.isRecorded recorded.eventId = false := by
  rw [isRecorded_of_represents represents]
  rw [Option.isSome_eq_false_iff, Option.isNone_iff_eq_none, KeyedTable.find?_eq_none_iff]
  exact admissible.event_new recorded written

/-- The committed tables represent the ledger of a history of the committed sessions. -/
def Represented (operations : ι → Operation) (initial : Database) (shared : Shared ι) : Prop :=
  ∃ ledger, History operations (.ofDatabase initial) shared.committed ledger ∧
    shared.database.Represents ledger

/-- Some moment of the history satisfied `fact`. -/
def Saw (operations : ι → Operation) (initial : Database) (fact : Ledger → Prop)
    (shared : Shared ι) : Prop :=
  ∃ past ledger, past <+: shared.committed ∧
    History operations (.ofDatabase initial) past ledger ∧ fact ledger

/-- Some moment of the history, not before `past`, satisfied `fact`. -/
def SawSince (operations : ι → Operation) (initial : Database) (past : List (ι × List Write))
    (fact : Ledger → Prop) (shared : Shared ι) : Prop :=
  ∃ moment ledger, past <+: moment ∧ moment <+: shared.committed ∧
    History operations (.ofDatabase initial) moment ledger ∧ fact ledger

/-- A stored request has an equal entry in a unique index. -/
def Collided (uniqueIndex : UniqueIndex) (row : ProcessingRequestRow) (shared : Shared ι) : Prop :=
  ∃ stored ∈ shared.database.requests, uniqueIndex.Collides stored row

/-- The session has committed this write. -/
def Wrote (index : ι) (write : Write) (shared : Shared ι) : Prop :=
  ∃ writes, (index, writes) ∈ shared.committed ∧ write ∈ writes

theorem persistent_saw (fact : Ledger → Prop) :
    Persistent operations index (Saw operations initial fact) := by
  rintro shared shared' rely ⟨past, ledger, isPast, history, holds⟩
  obtain ⟨more, extended, _⟩ := rely.committed
  exact ⟨past, ledger, extended ▸ isPast.trans (List.prefix_append _ _), history, holds⟩

theorem Represented.saw {shared : Shared ι} (represented : Represented operations initial shared)
    {fact : Ledger → Prop}
    (holds : ∀ ledger, shared.database.Represents ledger → fact ledger) :
    Saw operations initial fact shared := by
  obtain ⟨ledger, history, represents⟩ := represented
  exact ⟨_, ledger, List.prefix_refl _, history, holds ledger represents⟩

section Since

variable {past : List (ι × List Write)}

theorem persistent_since : Persistent operations index fun shared => past <+: shared.committed := by
  intro shared shared' rely since
  rcases rely.committed with ⟨more, extended, _⟩
  rw [extended]
  exact since.trans (List.prefix_append _ _)

theorem persistent_sawSince (fact : Ledger → Prop) :
    Persistent operations index (SawSince operations initial past fact) := by
  rintro shared shared' rely ⟨moment, ledger, since, isPast, history, holds⟩
  rcases rely.committed with ⟨more, extended, _⟩
  exact ⟨moment, ledger, since, extended ▸ isPast.trans (List.prefix_append _ _), history, holds⟩

theorem Represented.sawSince {shared : Shared ι}
    (represented : Represented operations initial shared) (since : past <+: shared.committed)
    {fact : Ledger → Prop}
    (holds : ∀ ledger, shared.database.Represents ledger → fact ledger) :
    SawSince operations initial past fact shared := by
  rcases represented with ⟨ledger, history, represents⟩
  exact ⟨_, ledger, since, List.prefix_refl _, history, holds ledger represents⟩

theorem SawSince.mono {fact fact' : Ledger → Prop} {shared : Shared ι}
    (saw : SawSince operations initial past fact shared)
    (entails : ∀ ledger, fact ledger → fact' ledger) :
    SawSince operations initial past fact' shared := by
  rcases saw with ⟨moment, ledger, since, isPast, history, holds⟩
  exact ⟨moment, ledger, since, isPast, history, entails ledger holds⟩

end Since

theorem persistent_collided (uniqueIndex : UniqueIndex) (row : ProcessingRequestRow) :
    Persistent operations index (Collided uniqueIndex row) := by
  rintro shared shared' rely ⟨stored, storedMem, collides⟩
  obtain ⟨stored', stored'Mem, same⟩ := rely.kept stored storedMem
  exact ⟨stored', stored'Mem, (collides.symm.of_sameIdentity same.symm).symm⟩

theorem persistent_wrote (write : Write) : Persistent operations index (Wrote index write) := by
  rintro shared shared' rely ⟨writes, mem, writeMem⟩
  obtain ⟨more, extended, _⟩ := rely.committed
  exact ⟨writes, extended ▸ List.mem_append_left _ mem, writeMem⟩

theorem persistent_uncommitted_saw (fact : Ledger → Prop) :
    Persistent operations index fun shared =>
      Uncommitted index shared ∧ Saw operations initial fact shared :=
  persistent_uncommitted.and (persistent_saw fact)

/-- The committed entry a row collided with is found by the lookup of its index. -/
theorem Collided.find_key {row : ProcessingRequestRow} {ownerUserId idempotencyKey : JsString}
    (owner : row.ownerUserId = ownerUserId) (key : row.idempotencyKey = some idempotencyKey)
    {shared : Shared ι} (collided : Collided .ownerIdempotency row shared) :
    shared.database.requests.rows.find? (fun stored =>
      stored.ownerUserId = ownerUserId ∧ stored.idempotencyKey = some idempotencyKey) ≠ none := by
  obtain ⟨stored, storedMem, sameOwner, sameKey, _⟩ := collided
  intro absent
  have missed := List.find?_eq_none.mp absent stored storedMem
  simp [sameOwner.trans owner, sameKey.trans key] at missed

theorem Collided.find_source {row : ProcessingRequestRow} {ownerUserId sourceStorageKey : JsString}
    (owner : row.ownerUserId = ownerUserId) (source : row.sourceStorageKey = sourceStorageKey)
    {shared : Shared ι} (collided : Collided .ownerSource row shared) :
    shared.database.requests.rows.find? (fun stored =>
      stored.ownerUserId = ownerUserId ∧ stored.sourceStorageKey = sourceStorageKey) ≠ none := by
  obtain ⟨stored, storedMem, sameOwner, sameSource⟩ := collided
  intro absent
  have missed := List.find?_eq_none.mp absent stored storedMem
  simp [sameOwner.trans owner, sameSource.trans source] at missed

end Postgres

end ProcessingCatalog
