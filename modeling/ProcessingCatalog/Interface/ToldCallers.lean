import ProcessingCatalog.Interface.Service

/-!
# What the callers of the service are told

Whatever reaches the service at the same time and whichever statements fail: a
settlement says what became of the delivery, and an answer to a `POST` what
became of the create. This rests on two assumptions about the database: a commit
that is answered with an error has not committed, and the texts that are sent to
it are well formed, so that it stores them as they are.
-/

namespace ProcessingCatalog

open Effect Machine TypeOrm Domain CreateProcessingRequestController
open CreateProcessingRequestUseCase (requestRow)

namespace Postgres

variable {ι : Type}

/-! ## What the senders of messages are told -/

section Channel

variable {operations : ι → Operation} {initial : Database} {index : ι} {shared : Shared ι}
  {event : ConsumedEventName} {draws : Draws} {content : JsString} {backoffMs : ℕ}

/-- A reason that is no failure of the message itself is a failure of the database, or of the
conversion of a member to a string. -/
theorem RefusedFor.transient {error : Thrown}
    (refused : RefusedFor operations initial event draws content shared error)
    (transient : isPermanentFailure error = false) :
    error.IsConversionError ∧ (event.read draws.stack content = .error error ∨
        ∃ parsed, event.read draws.stack content = .ok parsed ∧
          (parsed.lifecycle draws).refusal = some error) ∨
      (∃ failure, error = .database failure) ∧
        ∃ parsed, event.read draws.stack content = .ok parsed ∧
          (parsed.lifecycle draws).refusal = none := by
  have notDomain : ¬ error.IsDomainError := by
    intro isDomainError
    rw [isPermanentFailure_of_isDomainError isDomainError] at transient
    cases transient
  cases refused with
  | unread isRead =>
      rcases read_error_cases isRead with rfl | isDomainError | isConversionError
      · cases transient
      · exact absurd isDomainError notDomain
      · exact .inl ⟨isConversionError, .inl isRead⟩
  | invalid isRead isRefused =>
      rcases refusal_cases isRefused with isDomainError | isConversionError
      · exact absurd isDomainError notDomain
      · exact .inl ⟨isConversionError, .inr ⟨_, isRead, isRefused⟩⟩
  | database isRead valid failure => exact .inr ⟨⟨failure, rfl⟩, _, isRead, valid⟩
  | request isRead valid saw =>
      rcases saw with ⟨_, ledger, _, _, id, _, ⟨_, rfl⟩ | ⟨row, _, decided⟩⟩
      · exact absurd ⟨_, rfl⟩ notDomain
      · exact absurd (decide_eq_error valid decided) notDomain

/-- What the channel says of a delivery is so, by how its own calls have `ended`: it is settled at
most once; an ack means that they returned, and that its event is recorded; a `nack` means that
they threw, and that nothing was committed for it. It is dropped only when they threw a domain error
or a syntax error, because it cannot be read, or is refused for its own fields or by its request as
it stood at some moment; and it is given back only when they threw an error of the database, or that
of a conversion of a member to a string. -/
structure ChannelTruthful (operations : ι → Operation) (initial : Database)
    (event : ConsumedEventName) (draws : Draws) (content : JsString) (index : ι)
    (ended : Option (Except Thrown (Option Responded))) (effects : List ConsumerEffect)
    (shared : Shared ι) : Prop where
  settled_once : effects.countP ConsumerEffect.settles ≤ 1
  acked : .ack ∈ effects → ended = some (.ok none) ∧
    ∃ parsed, event.read draws.stack content = .ok parsed ∧ Recorded parsed.eventId shared
  nacked : ∀ allUpTo requeue, .nack allUpTo requeue ∈ effects → Uncommitted index shared
  dropped : ∀ allUpTo, .nack allUpTo false ∈ effects → ∃ error, ended = some (.error error) ∧
    (error.IsDomainError ∨ error = .syntaxError) ∧
    (event.read draws.stack content = .error error ∨
      ∃ parsed, event.read draws.stack content = .ok parsed ∧
        ((parsed.lifecycle draws).refusal = some error ∨
          Saw operations initial ((parsed.lifecycle draws).Refused error) shared))
  requeued : ∀ allUpTo, .nack allUpTo true ∈ effects → ∃ error, ended = some (.error error) ∧
    (error.IsConversionError ∧ (event.read draws.stack content = .error error ∨
        ∃ parsed, event.read draws.stack content = .ok parsed ∧
          (parsed.lifecycle draws).refusal = some error) ∨
      (∃ failure, error = .database failure) ∧
        ∃ parsed, event.read draws.stack content = .ok parsed ∧
          (parsed.lifecycle draws).refusal = none)

theorem channelTruthful_of_handled {outcome : Except Thrown Unit} {effects : List ConsumerEffect}
    (handled : HandledAccounted operations initial index event draws content outcome shared)
    (called : effects <+: settlement event backoffMs outcome) :
    ChannelTruthful operations initial event draws content index
      (some (outcome.map fun _ => none)) effects shared := by
  have threw : ∀ {allUpTo requeue}, .nack allUpTo requeue ∈ effects → Uncommitted index shared ∧
      ∃ error, outcome = .error error ∧
        RefusedFor operations initial event draws content shared error ∧
        requeue = !isPermanentFailure error := by
    intro allUpTo requeue nacked
    rcases nack_mem_settlement (called.subset nacked) with ⟨error, rfl, isRequeue⟩
    exact ⟨handled.1, error, rfl, handled.2, isRequeue⟩
  refine ⟨?_, ?_, fun _ _ nacked => (threw nacked).1, ?_, ?_⟩
  · have settles : (settlement event backoffMs outcome).countP ConsumerEffect.settles = 1 :=
      countP_settlement outcome
    rw [← settles]
    exact called.sublist.countP_le
  · intro acked
    obtain rfl := ack_mem_settlement (called.subset acked)
    exact ⟨rfl, handled⟩
  · intro allUpTo nacked
    rcases threw nacked with ⟨_, error, rfl, refused, permanent⟩
    have isPermanent : isPermanentFailure error = true := by simpa using permanent.symm
    refine ⟨error, rfl, isPermanentFailure_iff.mp isPermanent, ?_⟩
    cases refused with
    | unread isRead => exact .inl isRead
    | invalid isRead isRefused => exact .inr ⟨_, isRead, .inl isRefused⟩
    | database isRead valid failure => cases isPermanent
    | request isRead valid saw => exact .inr ⟨_, isRead, .inr saw⟩
  · intro allUpTo nacked
    rcases threw nacked with ⟨_, error, rfl, refused, transient⟩
    exact ⟨error, rfl, refused.transient (by simpa using transient.symm)⟩

end Channel

section Deliveries

variable [Fintype ι] [DecidableEq ι] {ingress : ι → Ingress} {initial : Database}
  {nextOutboxId : ℕ} {index : ι}
  {event : ConsumedEventName} {drawn : Uuid} {draws : Draws} {backoffMs : ℕ} {content : JsString}
  {world : World ((machine ι true).traced Emission) Thrown Unit}
  {base : World (machine ι true) Thrown (Option Responded)}

/-- What a delivery has left on its channel is what its handling calls for, up to some point. -/
theorem handled_of_projects (numbered : Numbered initial nextOutboxId)
    (reached : Reaches (serving ingress initial nextOutboxId) base)
    (projects : Projects (fun index => (ingress index).emissions) base world)
    (isDelivery : ingress index = .deliver event drawn draws backoffMs content)
    (told : leftBy index world.shared.2 ≠ [] ∨ world.programs index = .pure ()) :
    ∃ outcome : Except Thrown Unit,
      base.programs index = .ofExcept (outcome.map fun _ => none) ∧
      HandledAccounted (asked ingress) initial index event draws content outcome world.shared.1 ∧
      onChannel (leftBy index world.shared.2) <+: settlement event backoffMs outcome ∧
      (world.programs index = .pure () →
        leftBy index world.shared.2 = (settlement event backoffMs outcome).map .channel) := by
  rcases (served_of_projects numbered reached projects).2 index told with
    ⟨outcome, isEnd, served, called, ended⟩
  rw [isDelivery] at served
  cases served with
  | @deliver _ _ _ _ _ outcome handled =>
      have emitted : (ingress index).emissions (outcome.map fun _ => none) =
          (settlement event backoffMs outcome).map .channel := by
        rw [isDelivery]
        cases outcome <;> rfl
      rw [emitted] at called ended
      have seen : onChannel (leftBy index world.shared.2) <+:
          onChannel ((settlement event backoffMs outcome).map .channel) := called.filterMap _
      rw [onChannel_map] at seen
      exact ⟨outcome, isEnd, handled, seen, ended⟩

/-- After any steps the service may take, whatever else it serves meanwhile and whichever statements
fail, a failed commit having committed nothing, the channel tells the truth about every delivery, by
how its own calls have ended along these steps. -/
theorem deliveries_truthful (numbered : Numbered initial nextOutboxId)
    {steps : List (Action ((machine ι true).traced Emission))}
    (ran : runActions (service ingress initial nextOutboxId) steps = some world)
    (isDelivery : ingress index = .deliver event drawn draws backoffMs content) :
    (servingAlong ingress initial nextOutboxId steps).shared = world.shared.1 ∧
    ChannelTruthful (asked ingress) initial event draws content index
      ((servingAlong ingress initial nextOutboxId steps).programs index).outcome?
      (onChannel (leftBy index world.shared.2)) world.shared.1 := by
  have projects := projects_servingAlong ran
  refine ⟨projects.shared.symm, ?_⟩
  by_cases silent : leftBy index world.shared.2 = []
  · rw [silent]
    exact ⟨Nat.zero_le 1, nofun, nofun, nofun, nofun⟩
  · have reached : Reaches (serving ingress initial nextOutboxId)
        (servingAlong ingress initial nextOutboxId steps) := reaches_follow _ _
    rcases handled_of_projects numbered reached projects isDelivery (.inl silent) with
      ⟨outcome, isEnd, handled, called, _⟩
    rw [Program.outcome?_eq_some_iff.mpr isEnd]
    exact channelTruthful_of_handled handled called

end Deliveries

/-- An upload, the acceptance of its video, and a message nobody can read. -/
def uploadTraffic : Fin 3 → Ingress
  | 0 => .post (.repeated 7) ⟨1789953000000, .repeated 1, .repeated 2, 3000⟩ (.object [
      (js "ownerUserId", .string (js "owner")),
      (js "ownerEmail", .string (js "owner@example.com")),
      (js "sourceStorageKey", .string (js "uploads/a.mp4")),
      (js "idempotencyKey", .string (js "key"))])
  | 1 => .deliver .videoAccepted (.repeated 3) ⟨1789953060000, .repeated 3, .repeated 4, 3000⟩ 1000
      (acceptanceBody "11111111-1111-1111-1111-111111111111")
  | 2 => .deliver .videoAccepted (.repeated 5) ⟨1789953061000, .repeated 5, .repeated 6, 3000⟩ 1000
      (js "accepted")

/-- What the upload is answered. -/
def uploadAnswer : CreatedBody :=
  ⟨js "11111111-1111-1111-1111-111111111111", .received, js "owner", js "uploads/a.mp4",
    js "2026-09-21T01:10:00.000Z"⟩

/-- Everybody is served, side by side. -/
theorem upload_served : ∃ (steps : List (Action ((machine (Fin 3) true).traced Emission)))
    (world : World ((machine (Fin 3) true).traced Emission) Thrown Unit),
    runActions (service uploadTraffic .empty 1) steps = some world ∧
    (∀ index, world.programs index = .pure ()) ∧
    leftBy 0 world.shared.2 = [.answered (.ok (.ok (201, uploadAnswer)))] ∧
    leftBy 1 world.shared.2 = [.channel .ack, .channel (.counted .videoAccepted .acked)] ∧
    leftBy 2 world.shared.2 =
      [.channel (.nack false false), .channel (.counted .videoAccepted .deadLettered)] ∧
    ((servingAlong uploadTraffic .empty 1 steps).programs 2).outcome? =
      some (.error .syntaxError) := by
  let turns : List (Fin 3) := [0, 0, 0, 0, 1, 0, 0, 2, 0, 0, 1, 1, 0, 1, 1, 2, 1, 1, 1, 1, 1]
  let steps : List (Action ((machine (Fin 3) true).traced Emission)) :=
    turns.map fun index => .session index Choice.proceed
  have ran : ((runActions (service uploadTraffic .empty 1) steps).map fun world => decide (
      (∀ index, (world.programs index).outcome? = some (.ok ())) ∧
      leftBy 0 world.shared.2 = [.answered (.ok (.ok (201, uploadAnswer)))] ∧
      leftBy 1 world.shared.2 = [.channel .ack, .channel (.counted .videoAccepted .acked)] ∧
      leftBy 2 world.shared.2 = [.channel (.nack false false),
        .channel (.counted .videoAccepted .deadLettered)])) = some true := by
    decide +kernel
  have threw : ((servingAlong uploadTraffic .empty 1 steps).programs 2).outcome? =
      some (.error .syntaxError) := by
    decide +kernel
  rcases Option.map_eq_some_iff.mp ran with ⟨world, ran, ended⟩
  rcases of_decide_eq_true ended with ⟨finished, answered, acked, dropped⟩
  exact ⟨steps, world, ran, fun index => Program.outcome?_eq_some_iff.mp (finished index),
    answered, acked, dropped, threw⟩

/-- The message nobody can read is dropped for its own syntax error. -/
theorem deliveries_truthful_upload :
    ∃ world : World ((machine (Fin 3) true).traced Emission) Thrown Unit,
      onChannel (leftBy 2 world.shared.2) =
        [.nack false false, .counted .videoAccepted .deadLettered] ∧
      ChannelTruthful (asked uploadTraffic) .empty .videoAccepted
        ⟨1789953061000, .repeated 5, .repeated 6, 3000⟩ (js "accepted") 2
        (some (.error .syntaxError)) (onChannel (leftBy 2 world.shared.2)) world.shared.1 := by
  rcases upload_served with ⟨steps, world, ran, _, _, _, dropped, threw⟩
  have isDelivery : uploadTraffic 2 = .deliver .videoAccepted (.repeated 5)
      ⟨1789953061000, .repeated 5, .repeated 6, 3000⟩ 1000 (js "accepted") := rfl
  have truthful := (deliveries_truthful numbered_empty ran isDelivery).2
  rw [threw] at truthful
  refine ⟨world, ?_, truthful⟩
  rw [dropped]
  rfl

/-! ## What the senders of requests are told -/

section Answers

variable {operations : ι → Operation} {initial : Database} {index : ι} {eventId : Uuid}
  {draws : Draws} {body : Json} {responded : Except Thrown Responded} {shared : Shared ι}

/-- What a `POST` is answered is so. 201 means that the request of the answer was committed for it
and is stored, as itself or a later version, with its event recorded; 200 that nothing was committed
for it and the answer names a stored request of the owner for the same source; 409 that nothing was
committed and the owner's key stands for another source. Anything else committed nothing. -/
structure AnswerTruthful (eventId : Uuid) (draws : Draws) (body : Json)
    (index : ι) (responded : Except Thrown Responded) (shared : Shared ι) : Prop where
  status : ∀ status told, responded = .ok (.ok (status, told)) → status = 201 ∨ status = 200
  created : ∀ told, responded = .ok (.ok (201, told)) → ∃ dto correlationId,
    (validateDto body).run = .ok (.ok dto) ∧
    told = (answerOf ⟨(requestRow draws (inputOf eventId dto) correlationId).toDomain,
      .created⟩).2 ∧
    Wrote index (.insertRequest (requestRow draws (inputOf eventId dto) correlationId)) shared ∧
    Recorded eventId.text shared ∧ ∃ stored ∈ shared.database.requests,
      (requestRow draws (inputOf eventId dto) correlationId).SameIdentity stored
  replayed : ∀ told, responded = .ok (.ok (200, told)) → Uncommitted index shared ∧
    ∃ dto, (validateDto body).run = .ok (.ok dto) ∧ ∃ stored ∈ shared.database.requests,
      stored.ownerUserId = dto.ownerUserId ∧ stored.sourceStorageKey = dto.sourceStorageKey ∧
      told.processingRequestId = stored.processingRequestId.text ∧
      told.ownerUserId = dto.ownerUserId ∧ told.sourceStorageKey = dto.sourceStorageKey ∧
      told.createdAt = toISOString stored.createdAt
  conflict : ∀ message, responded = .ok (.error (.conflictException message)) →
    ∃ dto, (validateDto body).run = .ok (.ok dto) ∧ ∃ stored ∈ shared.database.requests,
      stored.ownerUserId = dto.ownerUserId ∧ stored.idempotencyKey = some dto.idempotencyKey ∧
      stored.sourceStorageKey ≠ dto.sourceStorageKey
  refused : (∀ answer, responded ≠ .ok (.ok answer)) → Uncommitted index shared

/-- What a create refuses for its own fields, it refuses by a rule of the domain. -/
theorem isDomainError_of_invalid {input : CreateProcessingRequestUseCase.Input} {error : Thrown}
    (invalid : CreateProcessingRequestUseCase.Invalid draws input error) : error.IsDomainError := by
  rcases invalid with unchecked | ⟨_, _, refused⟩
  · unfold CreateProcessingRequestUseCase.checked
      CreateProcessingRequestUseCase.validCorrelationId at unchecked
    split at unchecked
    · cases unchecked
      exact ⟨_, rfl⟩
    split at unchecked
    · cases unchecked
      exact ⟨_, rfl⟩
    split at unchecked
    · cases unchecked
    split at unchecked
    · cases unchecked
    · cases unchecked
      exact ⟨_, rfl⟩
  · exact createProcessingRequest_eq_error refused

theorem answerTruthful_of_posted {connections : ι → Connection}
    (invariant : Invariant operations initial shared connections)
    (isCreate : ∀ dto, (validateDto body).run = .ok (.ok dto) →
      operations index = .create draws (inputOf eventId dto))
    (unrecorded : initial.events.find? eventId.text = none)
    (apart : ∀ other, other ≠ index → (operations other).eventId ≠ eventId.text)
    (posted : Posted operations initial index eventId draws body responded shared) :
    AnswerTruthful eventId draws body index responded shared := by
  rcases invariant.represents with ⟨ledger, history, represents⟩
  have seenStored : ∀ {past before seen}, past <+: shared.committed →
      History operations (.ofDatabase initial) past before → seen ∈ before.requests →
      ∃ stored ∈ shared.database.requests, seen.SameIdentity stored := by
    intro past before seen isPast pastHistory seenMem
    rw [represents.requests]
    exact pastHistory.kept history isPast seenMem
  cases responded with
  | error error =>
      have uncommitted : Uncommitted index shared := posted
      exact ⟨nofun, nofun, nofun, nofun, fun _ => uncommitted⟩
  | ok answered =>
  cases answered with
  | error exception =>
      rcases posted with ⟨uncommitted, reason⟩
      refine ⟨nofun, nofun, nofun, ?_, fun _ => uncommitted⟩
      rintro message ⟨⟩
      rcases reason with refused | ⟨dto, error, checked, isException, threw⟩
      · rcases validateDto_eq_error refused with ⟨_, _, _, ⟨⟩⟩
      refine ⟨dto, checked, ?_⟩
      rcases threw with invalid | ⟨rfl, _, past, before, isPast, pastHistory, bound, found,
        different⟩ | ⟨failure, rfl, _⟩
      · rcases isDomainError_of_invalid invalid with ⟨message, rfl⟩
        cases isException
      · rcases Ledger.mem_of_findByOwnerAndIdempotencyKey found with ⟨boundMem, owner, key⟩
        rcases seenStored isPast pastHistory boundMem with
          ⟨stored, storedMem, _, sameOwner, _, sameSource, sameKey, _⟩
        exact ⟨stored, storedMem, sameOwner.trans owner, sameKey.trans key,
          fun same => different (sameSource.symm.trans same)⟩
      · cases isException
  | ok answer =>
  rcases posted with ⟨dto, ⟨request, outcome⟩, checked, rfl, ended⟩
  cases outcome with
  | created =>
      rcases ended with ⟨correlationId, _, isRequest, writes, committed, inserted⟩
      obtain rfl := CreateProcessingRequestUseCase.eq_toDomain_of_requestOf isRequest
      have recorded := history.recorded committed (List.ne_nil_of_mem inserted)
      rw [isCreate dto checked, isRecorded_of_represents represents] at recorded
      constructor
      · rintro status told ⟨⟩
        exact .inl rfl
      · rintro told ⟨⟩
        refine ⟨dto, correlationId, checked, rfl, ⟨writes, committed, inserted⟩, recorded, ?_⟩
        rw [represents.requests]
        exact history.kept_of_insertRequest committed inserted
      · rintro told ⟨⟩
      · rintro message ⟨⟩
      · exact fun other => absurd rfl (other _)
  | replayed =>
      rcases ended with ⟨uncommitted, replayed⟩
      constructor
      · rintro status told ⟨⟩
        exact .inr rfl
      · rintro told ⟨⟩
      · rintro told ⟨⟩
        refine ⟨uncommitted, dto, checked, ?_⟩
        have isEvent : (operations index).eventId = eventId.text := by
          rw [isCreate dto checked]
          rfl
        have fresh : Fresh operations initial index := ⟨isEvent ▸ unrecorded, isEvent ▸ apart⟩
        have notRecorded : ¬ Recorded eventId.text shared :=
          isEvent ▸ not_recorded_of_uncommitted invariant fresh uncommitted
        have told : ∀ {seen : ProcessingRequestRow} {past before}, past <+: shared.committed →
            History operations (.ofDatabase initial) past before → seen ∈ before.requests →
            seen.ownerUserId = dto.ownerUserId → seen.sourceStorageKey = dto.sourceStorageKey →
            request = seen.toDomain → ∃ stored ∈ shared.database.requests,
              stored.ownerUserId = dto.ownerUserId ∧
              stored.sourceStorageKey = dto.sourceStorageKey ∧
              request.processingRequestId = stored.processingRequestId.text ∧
              request.ownerUserId = dto.ownerUserId ∧
              request.sourceStorageKey = dto.sourceStorageKey ∧
              toISOString request.createdAt = toISOString stored.createdAt := by
          intro seen past before isPast pastHistory seenMem owner source isSeen
          rcases seenStored isPast pastHistory seenMem with
            ⟨stored, storedMem, sameId, sameOwner, _, sameSource, _, _, sameCreatedAt⟩
          subst isSeen
          exact ⟨stored, storedMem, sameOwner.trans owner, sameSource.trans source, sameId.symm,
            owner, source, congrArg toISOString sameCreatedAt.symm⟩
        rcases replayed with recorded |
          ⟨_, ⟨past, before, isPast, pastHistory, bound, found, source, isBound⟩ |
            ⟨_, past, before, isPast, pastHistory, known, found, isKnown⟩⟩
        · exact absurd recorded notRecorded
        · rcases Ledger.mem_of_findByOwnerAndIdempotencyKey found with ⟨boundMem, owner, _⟩
          exact told isPast pastHistory boundMem owner source isBound
        · rcases Ledger.mem_of_findByOwnerAndSource found with ⟨knownMem, owner, source⟩
          exact told isPast pastHistory knownMem owner source isKnown
      · rintro message ⟨⟩
      · exact fun other => absurd rfl (other _)

end Answers

section Posts

variable [Fintype ι] [DecidableEq ι] {ingress : ι → Ingress} {initial : Database}
  {nextOutboxId : ℕ} {index : ι} {eventId : Uuid} {draws : Draws} {body : Json}
  {responded : Except Thrown Responded}
  {world : World ((machine ι true).traced Emission) Thrown Unit}

/-- What a `POST` has been answered is how the calls of its route ended. -/
theorem posted_reached (numbered : Numbered initial nextOutboxId)
    (reached : Reaches (service ingress initial nextOutboxId) world)
    (isPost : ingress index = .post eventId draws body)
    (told : leftBy index world.shared.2 ≠ [] ∨ world.programs index = .pure ()) :
    ∃ outcome, Posted (asked ingress) initial index eventId draws body outcome world.shared.1 ∧
      leftBy index world.shared.2 <+: [.answered outcome] ∧
      (world.programs index = .pure () → leftBy index world.shared.2 = [.answered outcome]) := by
  rcases projects_reached reached with ⟨base, baseReached, projects⟩
  rcases (served_of_projects numbered baseReached projects).2 index told with
    ⟨outcome, _, served, called, ended⟩
  rw [isPost] at served
  cases served with
  | @post _ _ _ outcome posted =>
      have emitted : (ingress index).emissions (outcome.map some) = [.answered outcome] := by
        rw [isPost]
        cases outcome <;> rfl
      rw [emitted] at called ended
      exact ⟨outcome, posted, called, ended⟩

/-- A `POST` is answered once. -/
theorem answered_once_reached (numbered : Numbered initial nextOutboxId)
    (reached : Reaches (service ingress initial nextOutboxId) world)
    (isPost : ingress index = .post eventId draws body)
    (answered : .answered responded ∈ leftBy index world.shared.2) :
    Posted (asked ingress) initial index eventId draws body responded world.shared.1 ∧
      leftBy index world.shared.2 = [.answered responded] := by
  have notNone : leftBy index world.shared.2 ≠ [] := List.ne_nil_of_mem answered
  rcases posted_reached numbered reached isPost (.inl notNone) with ⟨outcome, posted, called, _⟩
  have same := called.subset answered
  rw [List.mem_singleton, Emission.answered.injEq] at same
  subst same
  rcases List.prefix_cons_iff.mp called with none | ⟨rest, isRest, ended⟩
  · exact absurd none notNone
  · rw [List.prefix_nil.mp ended] at isRest
    exact ⟨posted, isRest⟩

/-- An answer that has been sent is true of the store. -/
theorem answerTruthful_reached (numbered : Numbered initial nextOutboxId)
    (reached : Reaches (service ingress initial nextOutboxId) world)
    (isPost : ingress index = .post eventId draws body)
    (unrecorded : initial.events.find? eventId.text = none)
    (apart : ∀ other, other ≠ index → (asked ingress other).eventId ≠ eventId.text)
    (answered : .answered responded ∈ leftBy index world.shared.2) :
    AnswerTruthful eventId draws body index responded world.shared.1 := by
  refine answerTruthful_of_posted (invariant_served numbered reached) ?_ unrecorded apart
    (answered_once_reached numbered reached isPost answered).1
  intro dto checked
  simp only [asked, isPost, Ingress.operation, checked]

/-- In every state the service may reach, whatever else it serves meanwhile and whatever fails, a
failed commit having committed nothing, a `POST` whose event identifier is drawn for it alone is
answered at most once, and its answer is true of the store. -/
theorem posts_truthful (numbered : Numbered initial nextOutboxId)
    (reached : Reaches (service ingress initial nextOutboxId) world)
    (isPost : ingress index = .post eventId draws body)
    (unrecorded : initial.events.find? eventId.text = none)
    (apart : ∀ other, other ≠ index → (asked ingress other).eventId ≠ eventId.text)
    (answered : .answered responded ∈ leftBy index world.shared.2) :
    leftBy index world.shared.2 = [.answered responded] ∧
      AnswerTruthful eventId draws body index responded world.shared.1 :=
  ⟨(answered_once_reached numbered reached isPost answered).2,
    answerTruthful_reached numbered reached isPost unrecorded apart answered⟩

end Posts

theorem posts_truthful_upload :
    ∃ world : World ((machine (Fin 3) true).traced Emission) Thrown Unit,
      AnswerTruthful (.repeated 7) ⟨1789953000000, .repeated 1, .repeated 2, 3000⟩ (.object [
        (js "ownerUserId", .string (js "owner")),
        (js "ownerEmail", .string (js "owner@example.com")),
        (js "sourceStorageKey", .string (js "uploads/a.mp4")),
        (js "idempotencyKey", .string (js "key"))]) (0 : Fin 3)
        (.ok (.ok (201, uploadAnswer))) world.shared.1 := by
  rcases upload_served with ⟨_, world, ran, _, answered, _⟩
  have apart : ∀ other : Fin 3, other ≠ 0 →
      (asked uploadTraffic other).eventId ≠ Uuid.text (.repeated 7) := by
    decide +kernel
  exact ⟨world, (posts_truthful numbered_empty (reaches_of_runActions ran) rfl rfl apart
    (answered ▸ List.mem_singleton.mpr rfl)).2⟩

end Postgres

end ProcessingCatalog
