import ProcessingCatalog.Interface.ToldCallers

/-!
# The books of the service

Once every caller is served, what the callers were told adds up to what the
tables hold, if a commit that was answered with an error has not committed.
-/

namespace ProcessingCatalog

open Effect Machine TypeOrm Domain CreateProcessingRequestController
open CreateProcessingRequestUseCase (requestRow)

namespace Postgres

variable {ι : Type}

/-- The effect that settles a message finally, by the outcome it is counted under. -/
def finalEffect : ConsumedOutcome → ConsumerEffect
  | .acked => .ack
  | .deadLettered => .nack false false

/-- An answer that says that a request was created. -/
def isCreated : Emission → Bool
  | .answered (.ok (.ok (status, _))) => status = 201
  | _ => false

/-- Whether a caller was told that the event of this identifier took effect. -/
def Confirmed (named : JsString) : Ingress → List Emission → Prop
  | .post eventId _ _, seen =>
      eventId.text = named ∧ ∃ told, .answered (.ok (.ok (201, told))) ∈ seen
  | .deliver event _ draws _ content, seen =>
      .channel .ack ∈ seen ∧
        ∃ parsed, event.read draws.stack content = .ok parsed ∧ parsed.eventId = named

/-- The books, once every caller is served. Every message is settled once and every request is
answered once; as many requests were stored as 201 was answered; the recorded events are those
whose senders were told so; and the counters stand at the numbers of messages that were settled
finally. -/
structure Balanced [Fintype ι] [DecidableEq ι] (ingress : ι → Ingress) (initial : Database)
    (log : List (ι × Emission)) (database : Database) : Prop where
  settled : ∀ index, ((ingress index).event?).isSome →
    (onChannel (leftBy index log)).countP ConsumerEffect.settles = 1
  answered : ∀ index, (ingress index).event? = none →
    ∃ responded, leftBy index log = [.answered responded]
  requests : database.requests.rows.length =
    initial.requests.rows.length + log.countP fun entry => isCreated entry.2
  recorded : ∀ named, (database.events.find? named).isSome ↔
    (initial.events.find? named).isSome ∨
      ∃ index, Confirmed named (ingress index) (leftBy index log)
  counted : ∀ event outcome,
    (log.countP fun entry => entry.2 = .channel (.counted event outcome)) =
      (Finset.univ.filter fun index => (ingress index).event? = some event ∧
        .channel (finalEffect outcome) ∈ leftBy index log).card

variable {ingress : ι → Ingress} {initial : Database}

/-- What a caller has seen, and what its calls have left, once they are done. -/
inductive Done (ingress : ι → Ingress) (initial : Database) (index : ι) (shared : Shared ι) :
    Ingress → List Emission → Prop where
  | delivered {event drawn draws backoffMs content outcome} (handled :
        HandledAccounted (asked ingress) initial index event draws content outcome shared) :
      Done ingress initial index shared (.deliver event drawn draws backoffMs content)
        ((settlement event backoffMs outcome).map .channel)
  | posted {eventId draws body outcome}
      (posted : Posted (asked ingress) initial index eventId draws body outcome shared) :
      Done ingress initial index shared (.post eventId draws body) [.answered outcome]

section Books

variable {index : ι} {shared : Shared ι} {seen : List Emission} {connections : ι → Connection}

/-- A caller whose calls committed anything was told that its event took effect. -/
theorem Done.confirmed (done : Done ingress initial index shared (ingress index) seen)
    (committed : ¬ Uncommitted index shared) :
    Confirmed (asked ingress index).eventId (ingress index) seen := by
  cases isIngress : ingress index with
  | deliver event drawn draws backoffMs content =>
      rw [isIngress] at done
      cases done with
      | @delivered _ _ _ _ _ outcome handled =>
          cases outcome with
          | error error => exact absurd handled.1 committed
          | ok _ =>
              rcases handled with ⟨parsed, isRead, _⟩
              refine ⟨List.mem_map_of_mem List.mem_cons_self, parsed, isRead, ?_⟩
              simp only [asked, isIngress, Ingress.operation, calledOperation, isRead,
                ConsumedEvent.eventId_operation]
  | post eventId draws body =>
      rw [isIngress] at done
      cases done with
      | @posted _ _ _ outcome posted =>
          cases outcome with
          | error error => exact absurd posted committed
          | ok responded =>
          cases responded with
          | error exception => exact absurd posted.1 committed
          | ok answer =>
          rcases posted with ⟨dto, ⟨request, outcome⟩, checked, isAnswer, ended⟩
          cases outcome with
          | replayed => exact absurd ended.1 committed
          | created =>
              subst isAnswer
              refine ⟨?_, _, List.mem_singleton.mpr rfl⟩
              simp only [asked, isIngress, Ingress.operation, checked]
              rfl

/-- A caller that was told that its event took effect, was told so truly. -/
theorem Done.recorded (done : Done ingress initial index shared (ingress index) seen)
    (invariant : Invariant (asked ingress) initial shared connections) {named : JsString}
    (confirmed : Confirmed named (ingress index) seen) : Recorded named shared := by
  cases isIngress : ingress index with
  | deliver event drawn draws backoffMs content =>
      rw [isIngress] at done confirmed
      cases done with
      | @delivered _ _ _ _ _ outcome handled =>
          rcases confirmed with ⟨acked, parsed, isRead, rfl⟩
          rcases List.mem_map.mp acked with ⟨effect, effectMem, isAck⟩
          cases isAck
          obtain rfl := ack_mem_settlement effectMem
          rcases handled with ⟨other, isOther, recorded⟩
          rw [isRead] at isOther
          cases isOther
          exact recorded
  | post eventId draws body =>
      rw [isIngress] at done confirmed
      cases done with
      | @posted _ _ _ outcome posted =>
          rcases confirmed with ⟨rfl, told, answered⟩
          rw [List.mem_singleton, Emission.answered.injEq] at answered
          subst answered
          rcases posted with ⟨dto, ⟨request, outcome⟩, checked, isAnswer, ended⟩
          cases outcome with
          | replayed => cases isAnswer
          | created =>
              rcases ended with ⟨correlationId, _, _, writes, committed, inserted⟩
              rcases invariant.represents with ⟨ledger, history, represents⟩
              have recorded := history.recorded committed (List.ne_nil_of_mem inserted)
              rw [isRecorded_of_represents represents] at recorded
              simp only [asked, isIngress, Ingress.operation, checked] at recorded
              exact recorded

/-- The requests a caller's calls have inserted are those it was told were created. -/
theorem Done.created [DecidableEq ι]
    (done : Done ingress initial index shared (ingress index) seen)
    (invariant : Invariant (asked ingress) initial shared connections) :
    (leftBy index shared.committed).countP insertsRequest = seen.countP isCreated := by
  have nothing : Uncommitted index shared →
      (leftBy index shared.committed).countP insertsRequest = 0 := fun uncommitted => by
    rw [leftBy_eq_nil uncommitted]
    rfl
  rcases invariant.represents with ⟨ledger, history, represents⟩
  cases isIngress : ingress index with
  | deliver event drawn draws backoffMs content =>
      rw [isIngress] at done
      cases done with
      | @delivered _ _ _ _ _ outcome handled =>
          have unseen : ((settlement event backoffMs outcome).map Emission.channel).countP
              isCreated = 0 := by
            simp [List.countP_map, isCreated, Function.comp_def]
          rw [unseen, List.countP_eq_zero]
          intro writes left inserted
          rcases insertsRequest_iff.mp inserted with ⟨row, rowMem⟩
          rcases List.mem_map.mp left with ⟨entry, entryMem, rfl⟩
          rcases List.mem_filter.mp entryMem with ⟨committed, isOwn⟩
          rcases history.performed committed with ⟨_, before, _, _, performed⟩
          have isChange : .insertRequest row ∈ entry.2.map Change.forget :=
            List.mem_map_of_mem rowMem
          rw [← performed, of_decide_eq_true isOwn] at isChange
          rcases (Operation.create_of_inserted isChange).2 with ⟨_, _, _, isCreate, _⟩
          simp only [asked, isIngress, Ingress.operation, calledOperation] at isCreate
          split at isCreate
          · next parsed _ =>
              have isEvent := parsed.event?_operation draws
              rw [isCreate] at isEvent
              cases isEvent
          · cases isCreate
  | post eventId draws body =>
      rw [isIngress] at done
      cases done with
      | @posted _ _ _ outcome posted =>
          cases outcome with
          | error error => exact nothing posted
          | ok responded =>
          cases responded with
          | error exception => exact nothing posted.1
          | ok answer =>
          rcases posted with ⟨dto, ⟨request, outcome⟩, checked, isAnswer, ended⟩
          subst isAnswer
          cases outcome with
          | replayed => exact nothing ended.1
          | created =>
              rcases ended with ⟨correlationId, _, _, writes, committed, inserted⟩
              rw [leftBy_eq_singleton invariant.once committed, List.countP_singleton,
                insertsRequest_iff.mpr ⟨_, inserted⟩]
              rfl

theorem countP_settlement_counted (consumed event : ConsumedEventName) (backoffMs : ℕ)
    (ended : Except Thrown Unit) (outcome : ConsumedOutcome) :
    ((settlement consumed backoffMs ended).countP fun effect =>
      effect = .counted event outcome) =
      if consumed = event ∧ finalEffect outcome ∈ settlement consumed backoffMs ended then 1
      else 0 := by
  cases ended with
  | ok _ => cases outcome <;> simp [settlement, finalEffect, List.countP_cons]
  | error error =>
      cases permanent : isPermanentFailure error with
      | true => cases outcome <;> simp [settlement, permanent, finalEffect, List.countP_cons]
      | false =>
          by_cases pauses : backoffMs > 0 <;> cases outcome <;>
            simp [settlement, permanent, pauses, finalEffect]

/-- The message of a caller is counted under the outcome it was finally settled with. -/
theorem Done.counted (done : Done ingress initial index shared (ingress index) seen)
    (event : ConsumedEventName) (outcome : ConsumedOutcome) :
    (seen.countP fun emission => emission = .channel (.counted event outcome)) =
      if (ingress index).event? = some event ∧ .channel (finalEffect outcome) ∈ seen then 1
      else 0 := by
  cases isIngress : ingress index with
  | post eventId draws body =>
      rw [isIngress] at done
      cases done with
      | posted posted => simp [Ingress.event?]
  | deliver consumed drawn draws backoffMs content =>
      rw [isIngress] at done
      cases done with
      | @delivered _ _ _ _ _ ended handled =>
          have counted := countP_settlement_counted consumed event backoffMs ended outcome
          simpa [Ingress.event?, List.countP_map, Function.comp_def] using counted

end Books

section Finished

variable [Fintype ι] [DecidableEq ι] {nextOutboxId : ℕ}
  {world : World ((machine ι true).traced Emission) Thrown Unit}

theorem done_of_finished (numbered : Numbered initial nextOutboxId)
    (reached : Reaches (service ingress initial nextOutboxId) world) {index : ι}
    (finished : world.programs index = .pure ()) :
    Done ingress initial index world.shared.1 (ingress index) (leftBy index world.shared.2) := by
  cases isIngress : ingress index with
  | deliver event drawn draws backoffMs content =>
      rcases projects_reached reached with ⟨base, baseReached, projects⟩
      rcases handled_of_projects numbered baseReached projects isIngress (.inr finished) with
        ⟨outcome, _, handled, _, ended⟩
      rw [ended finished]
      exact .delivered handled
  | post eventId draws body =>
      rcases posted_reached numbered reached isIngress (.inr finished) with
        ⟨outcome, posted, _, ended⟩
      rw [ended finished]
      exact .posted posted

/-- Once every caller is served, whatever was served at the same time and whichever statements
failed, a failed commit having committed nothing, the books of the service balance. -/
theorem service_balanced (numbered : Numbered initial nextOutboxId)
    (reached : Reaches (service ingress initial nextOutboxId) world)
    (finished : ∀ index, world.programs index = .pure ()) :
    Balanced ingress initial world.shared.2 world.shared.1.database := by
  have invariant := invariant_served numbered reached
  have done : ∀ index, Done ingress initial index world.shared.1 (ingress index)
      (leftBy index world.shared.2) := fun index =>
    done_of_finished numbered reached (finished index)
  constructor
  · intro index isDelivery
    have ended := done index
    generalize leftBy index world.shared.2 = seen at ended
    cases isIngress : ingress index with
    | post eventId draws body => simp [isIngress, Ingress.event?] at isDelivery
    | deliver event drawn draws backoffMs content =>
        rw [isIngress] at ended
        cases ended with
        | delivered handled =>
            rw [onChannel_map]
            exact countP_settlement _
  · intro index isPost
    have ended := done index
    generalize leftBy index world.shared.2 = seen at ended
    cases isIngress : ingress index with
    | deliver event drawn draws backoffMs content => simp [isIngress, Ingress.event?] at isPost
    | post eventId draws body =>
        rw [isIngress] at ended
        cases ended with
        | posted posted => exact ⟨_, rfl⟩
  · rcases invariant.represents with ⟨ledger, history, represents⟩
    rw [represents.requests, history.length_requests, ← sum_countP_leftBy, ← sum_countP_leftBy]
    exact congrArg _ (Finset.sum_congr rfl fun index _ => (done index).created invariant)
  · intro named
    constructor
    · intro recorded
      rcases Option.isSome_iff_exists.mp recorded with ⟨event, found⟩
      have eventMem := KeyedTable.mem_of_find? found
      obtain rfl := KeyedTable.key_of_find? found
      rw [invariant.database_eq] at eventMem
      rcases Database.mem_events_applyAll eventMem with old | written
      · left
        rw [KeyedTable.find?_key old]
        rfl
      · right
        rcases invariant.represents with ⟨ledger, history, represents⟩
        rcases List.mem_flatMap.mp written with ⟨entry, entryMem, writeMem⟩
        refine ⟨entry.1, ?_⟩
        rw [history.eventId_of_write entryMem writeMem]
        exact (done entry.1).confirmed fun uncommitted => uncommitted entry entryMem rfl
    · rintro (old | ⟨index, confirmed⟩)
      · rcases invariant.represents with ⟨ledger, history, represents⟩
        rw [← isRecorded_of_represents represents]
        exact History.start.isRecorded history List.nil_prefix old
      · exact (done index).recorded invariant confirmed
  · intro event outcome
    have counts := sum_countP_leftBy
      (fun emission : Emission => emission = .channel (.counted event outcome)) world.shared.2
    rw [Finset.card_filter]
    exact counts.symm.trans
      (Finset.sum_congr rfl fun index _ => (done index).counted event outcome)

end Finished

theorem service_balanced_upload :
    ∃ world : World ((machine (Fin 3) true).traced Emission) Thrown Unit,
      Balanced uploadTraffic .empty world.shared.2 world.shared.1.database := by
  rcases upload_served with ⟨_, world, ran, finished, _⟩
  exact ⟨world, service_balanced numbered_empty (reaches_of_runActions ran) finished⟩

end Postgres

end ProcessingCatalog
