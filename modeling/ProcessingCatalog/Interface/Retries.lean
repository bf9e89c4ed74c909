import ProcessingCatalog.Interface.ToldCallers

/-!
# Uploads that are posted again

A client that has seen no answer, or an error, posts its upload again. However
often one upload is posted and whatever fails meanwhile, it is created at most
once, and every answer that says it is there names the same request.
-/

namespace ProcessingCatalog

open Effect Machine TypeOrm CreateProcessingRequestController

namespace Postgres

variable {ι : Type}

/-- The event identifier that the route drew for a caller is nobody else's. -/
def DrawnAlone (ingress : ι → Ingress) (initial : Database) (index : ι) (eventId : Uuid) : Prop :=
  initial.events.find? eventId.text = none ∧
    ∀ other, other ≠ index → (asked ingress other).eventId ≠ eventId.text

/-- Two posts of one upload: of one owner, and of one source. -/
def SameUpload (body other : Json) : Prop :=
  ∀ dto dto', (validateDto body).run = .ok (.ok dto) → (validateDto other).run = .ok (.ok dto') →
    dto.ownerUserId = dto'.ownerUserId ∧ dto.sourceStorageKey = dto'.sourceStorageKey

/-- The stored request that a successful answer names. -/
theorem stored_of_told {eventId : Uuid} {draws : Draws} {body : Json} {index : ι} {status : ℕ}
    {told : CreatedBody} {shared : Shared ι}
    (truthful : AnswerTruthful eventId draws body index (.ok (.ok (status, told))) shared) :
    ∃ dto, (validateDto body).run = .ok (.ok dto) ∧ ∃ stored ∈ shared.database.requests,
      stored.ownerUserId = dto.ownerUserId ∧ stored.sourceStorageKey = dto.sourceStorageKey ∧
      told.processingRequestId = stored.processingRequestId.text ∧
      told.createdAt = toISOString stored.createdAt := by
  rcases truthful.status status told rfl with rfl | rfl
  · rcases truthful.created told rfl with
      ⟨dto, correlationId, checked, rfl, _, _, stored, storedMem, same⟩
    rcases same with ⟨sameId, sameOwner, _, sameSource, _, _, sameCreatedAt⟩
    exact ⟨dto, checked, stored, storedMem, sameOwner, sameSource, sameId.symm,
      congrArg toISOString sameCreatedAt.symm⟩
  · rcases truthful.replayed told rfl with
      ⟨_, dto, checked, stored, storedMem, owner, source, sameId, _, _, sameCreatedAt⟩
    exact ⟨dto, checked, stored, storedMem, owner, source, sameId, sameCreatedAt⟩

variable [Fintype ι] [DecidableEq ι] {ingress : ι → Ingress} {initial : Database}
  {nextOutboxId : ℕ} {world : World ((machine ι true).traced Emission) Thrown Unit}

/-- However often an upload is posted, under whichever keys, and whatever else is served and fails
meanwhile: all answers of success name one request, and no two of them are 201. -/
theorem upload_created_once (unique : UniqueIndexes initial.requests)
    (numbered : Numbered initial nextOutboxId)
    (reached : Reaches (service ingress initial nextOutboxId) world) {first again : ι}
    {eventId eventId' : Uuid} {draws draws' : Draws} {body body' : Json}
    (isFirst : ingress first = .post eventId draws body)
    (isAgain : ingress again = .post eventId' draws' body') (same : SameUpload body body')
    (drawn : DrawnAlone ingress initial first eventId)
    (drawnAgain : DrawnAlone ingress initial again eventId') {status status' : ℕ}
    {told told' : CreatedBody}
    (answered : .answered (.ok (.ok (status, told))) ∈ leftBy first world.shared.2)
    (answeredAgain : .answered (.ok (.ok (status', told'))) ∈ leftBy again world.shared.2) :
    told.processingRequestId = told'.processingRequestId ∧ told.createdAt = told'.createdAt ∧
      (status = 201 → status' = 201 → first = again) := by
  have truthful := answerTruthful_reached numbered reached isFirst drawn.1 drawn.2 answered
  have truthfulAgain := answerTruthful_reached numbered reached isAgain drawnAgain.1
    drawnAgain.2 answeredAgain
  have invariant := invariant_served numbered reached
  rcases invariant.represents with ⟨ledger, history, represents⟩
  have uniqueNow : UniqueIndexes world.shared.1.database.requests := by
    rw [represents.requests]
    exact history.uniqueIndexes unique
  rcases stored_of_told truthful with
    ⟨dto, checked, stored, storedMem, owner, source, isTold, createdAt⟩
  rcases stored_of_told truthfulAgain with
    ⟨dto', checkedAgain, stored', storedMem', owner', source', isToldAgain, createdAt'⟩
  rcases same dto dto' checked checkedAgain with ⟨sameOwner, sameSource⟩
  have isSame : stored = stored' := uniqueNow .ownerSource stored storedMem stored' storedMem'
    ⟨owner.trans (sameOwner.trans owner'.symm), source.trans (sameSource.trans source'.symm)⟩
  subst isSame
  refine ⟨isTold.trans isToldAgain.symm, createdAt.trans createdAt'.symm, ?_⟩
  rintro rfl rfl
  rcases truthful.created told rfl with
    ⟨own, correlationId, isOwn, _, ⟨writes, committed, inserted⟩, _⟩
  rcases truthfulAgain.created told' rfl with
    ⟨own', correlationId', isOwn', _, ⟨writes', committed', inserted'⟩, _⟩
  rcases same own own' isOwn isOwn' with ⟨sameOwner, sameSource⟩
  -- Two commits that inserted requests of one owner and source are one commit.
  by_contra different
  exact history.insertedApart.forall committed committed'
    (fun sameEntry => different (congrArg Prod.fst sameEntry)) _ _ inserted inserted' .ownerSource
    ⟨sameOwner, sameSource⟩

/-- An upload, posted under a key. -/
def repeatedBody (idempotencyKey : JsString) : Json :=
  .object [
    (js "ownerUserId", .string (js "owner")),
    (js "ownerEmail", .string (js "owner@example.com")),
    (js "sourceStorageKey", .string (js "uploads/a.mp4")),
    (js "idempotencyKey", .string idempotencyKey)]

/-- It is posted again, under another key, while the first post is served. -/
def repeatedUpload : Fin 2 → Ingress
  | 0 => .post (.repeated 7) ⟨1789953000000, .repeated 1, .repeated 2, 3000⟩
      (repeatedBody (js "key-a"))
  | 1 => .post (.repeated 8) ⟨1789953001000, .repeated 3, .repeated 4, 3000⟩
      (repeatedBody (js "key-b"))

/-- What both posts are answered. -/
def repeatedAnswer : CreatedBody :=
  ⟨js "11111111-1111-1111-1111-111111111111", .received, js "owner", js "uploads/a.mp4",
    js "2026-09-21T01:10:00.000Z"⟩

theorem upload_created_once_repeated :
    ∃ (world : World ((machine (Fin 2) true).traced Emission) Thrown Unit) (told told' : _),
      .answered (.ok (.ok (201, told))) ∈ leftBy 0 world.shared.2 ∧
      .answered (.ok (.ok (200, told'))) ∈ leftBy 1 world.shared.2 ∧
      told.processingRequestId = told'.processingRequestId := by
  have ran : ((Machine.runActions (service repeatedUpload .empty 1)
      (([0, 0, 1, 0, 0, 1, 0, 0, 0, 0, 1, 0, 1] : List (Fin 2)).map
        fun index => .session index Choice.proceed)).map fun world => decide (
          .answered (.ok (.ok (201, repeatedAnswer))) ∈ leftBy 0 world.shared.2 ∧
          .answered (.ok (.ok (200, repeatedAnswer))) ∈ leftBy 1 world.shared.2)) =
        some true := by
    decide +kernel
  rcases Option.map_eq_some_iff.mp ran with ⟨world, ran, ended⟩
  rcases of_decide_eq_true ended with ⟨created, replayed⟩
  have drawn : DrawnAlone repeatedUpload .empty 0 (.repeated 7) := ⟨rfl, by decide +kernel⟩
  have drawnAgain : DrawnAlone repeatedUpload .empty 1 (.repeated 8) := ⟨rfl, by decide +kernel⟩
  have same : SameUpload (repeatedBody (js "key-a")) (repeatedBody (js "key-b")) := by
    rintro dto dto' checked checkedAgain
    cases checked
    cases checkedAgain
    exact ⟨rfl, rfl⟩
  exact ⟨world, _, _, created, replayed, (upload_created_once uniqueIndexes_empty numbered_empty
    (reaches_of_runActions ran) rfl rfl same drawn drawnAgain created replayed).1⟩

end Postgres

end ProcessingCatalog
