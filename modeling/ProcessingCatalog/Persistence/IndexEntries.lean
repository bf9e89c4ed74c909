import ProcessingCatalog.Interface.CreateProcessingRequestController
import ProcessingCatalog.Persistence.SerialRun
import ProcessingCatalog.Persistence.TextSizes

/-!
# Whether a create fits its indexes

A create is stored under two unique indexes, by its owner and its source and by
its owner and its key. The route bounds the length of each field in UTF-16
units, an index bounds the bytes of an entry. The third index of the table has,
beside the owner, only a date and an identifier.
-/

namespace ProcessingCatalog

open Effect TypeOrm CreateProcessingRequestController CreateProcessingRequestUseCase IndexTuple

/-- The rules that refuse no text but where an entry of an index is too long. -/
def Postgres.TextRules.sized (sizes : TextSizes) : TextRules :=
  ⟨fun _ => true, fun _ => true, fun texts => Fits (texts.map sizes.stored)⟩

namespace CreateProcessingRequestDto

variable (dto : CreateProcessingRequestDto)

open Postgres in
/-- The transaction that stores the request, where the lookups have found none, is not refused for
its text, however that is compressed. -/
def Inserts : Prop :=
  ∀ (sizes : TextSizes) (draws : Draws) (eventId : Uuid) (correlationId : Option JsString)
    (shared : Shared Unit) (ledger : Ledger), shared.database.Represents ledger →
    Numbered shared.database shared.nextOutboxId →
    ledger.findByOwnerAndIdempotencyKey dto.ownerUserId dto.idempotencyKey = none →
    ledger.findByOwnerAndSource dto.ownerUserId dto.sourceStorageKey = none →
    (runAlone (.sized sizes) (unitOfWork.runInTransaction (insertion (inputOf eventId dto)
      (requestRow draws (inputOf eventId dto) correlationId).toDomain)) shared).1 ≠
        .error (.database textRefused)

/-- The texts of the two entries stay within the size of an entry, and the entries are stored. -/
structure FitsIndexes : Prop where
  ownerSource : utf8Length dto.ownerUserId + utf8Length dto.sourceStorageKey ≤ maxSize
  ownerIdempotency : utf8Length dto.ownerUserId + utf8Length dto.idempotencyKey ≤ maxSize
  inserts : dto.Inserts

/-- The bytes of a text: one for each unit, one more for each that is not ASCII, and one more for
each character from U+0800 to U+FFFF. -/
def bytesOf (text : JsString) : ℕ :=
  text.length + nonAsciiUnits text + threeByteCharacters text

/-- What the owner leaves of an entry, after its header and the padding before the source, is
enough for the source. -/
def LeavesRoom : Prop :=
  Alignment.int.up (bytesOf dto.ownerUserId + textHeader (bytesOf dto.ownerUserId)) +
    bytesOf dto.sourceStorageKey ≤ 2692

instance : Decidable dto.LeavesRoom :=
  inferInstanceAs (Decidable (_ ≤ _))

end CreateProcessingRequestDto

section Fits

variable {body : Json} {dto : CreateProcessingRequestDto}

/-- The lengths of the indexed fields of an accepted body. -/
theorem lengths_of_accepted (accepted : (validateDto body).run = .ok (.ok dto)) :
    dto.ownerUserId.length ≤ 255 ∧ dto.sourceStorageKey.length ≤ 1024 ∧
      dto.idempotencyKey.length ≤ 255 := by
  rcases validateDto_eq_ok.mp accepted with ⟨owner, _, source, key, _⟩
  exact ⟨(requireString_eq_ok.mp owner).2.2, (requireString_eq_ok.mp source).2.2,
    (requireString_eq_ok.mp key).2.2⟩

theorem utf8Length_le (text : JsString) : utf8Length text ≤ 3 * text.length := by
  have units := nonAsciiUnits_le_length text
  have characters := threeByteCharacters_le_length text
  rw [utf8Length_eq]
  omega

theorem utf8Length_uuid_le (uuid : Uuid) : utf8Length uuid.text ≤ 192 := by
  have bytes := utf8Length_le uuid.text
  have units := uuid.length_text_le
  omega

/-- There is room when the entry fits as long as nothing in it is compressed. -/
theorem leavesRoom_iff (accepted : (validateDto body).run = .ok (.ok dto)) : dto.LeavesRoom ↔
    Fits [.varying (utf8Length dto.ownerUserId), .varying (utf8Length dto.sourceStorageKey)] := by
  have owner := utf8Length_le dto.ownerUserId
  have bounded := (lengths_of_accepted accepted).1
  rw [fits_pair_iff (by omega), utf8Length_eq, utf8Length_eq]
  rfl

/-- The entry of the key always fits. -/
theorem fits_key (accepted : (validateDto body).run = .ok (.ok dto)) :
    Fits [.varying (utf8Length dto.ownerUserId), .varying (utf8Length dto.idempotencyKey)] := by
  rcases lengths_of_accepted accepted with ⟨ownerUnits, _, keyUnits⟩
  have owner := utf8Length_le dto.ownerUserId
  have key := utf8Length_le dto.idempotencyKey
  have padding := Alignment.int.up_lt
    (utf8Length dto.ownerUserId + textHeader (utf8Length dto.ownerUserId))
  have header := textHeader_le (utf8Length dto.ownerUserId)
  rw [fits_pair_iff (by omega)]
  simp only [Alignment.bytes] at padding
  omega

open Postgres

variable {sizes : TextSizes} {draws : Draws} {eventId : Uuid} {correlationId : Option JsString}
  {shared : Shared Unit} {ledger : Ledger}

/-- Where there is room, a create is stored as if no entry could be too long. -/
theorem insertionUnder_sized (accepted : (validateDto body).run = .ok (.ok dto))
    (room : dto.LeavesRoom) :
    insertionUnder (.sized sizes) (inputOf eventId dto)
        (requestRow draws (inputOf eventId dto) correlationId) ledger =
      performInsertion (inputOf eventId dto)
        (requestRow draws (inputOf eventId dto) correlationId).toDomain ledger := by
  have source : Fits ([dto.ownerUserId, dto.sourceStorageKey].map sizes.stored) :=
    sizes.fits_stored ((leavesRoom_iff accepted).mp room)
  have key : Fits ([dto.ownerUserId, dto.idempotencyKey].map sizes.stored) :=
    sizes.fits_stored (fits_key accepted)
  have event : Fits ([eventId.text].map sizes.stored) := by
    have bytes := utf8Length_uuid_le eventId
    exact sizes.fits_stored (fits_varying (by omega))
  have columns : (TextRules.sized sizes).acceptsChange
      (.insertRequest (requestRow draws (inputOf eventId dto) correlationId)) = true := by
    have texts (request : ProcessingRequest) : (TextRules.sized sizes).acceptsRequest request =
        true := List.all_eq_true.mpr fun _ _ => rfl
    simp only [TextRules.acceptsChange, texts, Bool.true_and]
    exact Bool.and_eq_true_iff.mpr ⟨decide_eq_true source, decide_eq_true key⟩
  have json (payload : OutboxPayload) : (TextRules.sized sizes).acceptsPayload payload = true :=
    List.all_eq_true.mpr fun _ _ => rfl
  have eventIdFits : (TextRules.sized sizes).acceptsEventId (inputOf eventId dto).eventId = true :=
    decide_eq_true event
  simp only [insertionUnder, columns, json, eventIdFits, TextRules.guard_true, ite_self]

/-- Where there is none, and the texts do not compress, it is refused. -/
theorem insertionUnder_overflow (accepted : (validateDto body).run = .ok (.ok dto))
    (overflow : ¬ dto.LeavesRoom) :
    insertionUnder (.sized .incompressible) (inputOf eventId dto)
        (requestRow draws (inputOf eventId dto) correlationId) ledger =
      (.error (.database textRefused), []) := by
  have source : ¬ Fits ([dto.ownerUserId, dto.sourceStorageKey].map
      TextSizes.incompressible.stored) := fun fits => overflow ((leavesRoom_iff accepted).mpr fits)
  have columns : (TextRules.sized .incompressible).acceptsChange
      (.insertRequest (requestRow draws (inputOf eventId dto) correlationId)) = false := by
    refine Bool.and_eq_false_iff.mpr (.inr (Bool.and_eq_false_iff.mpr (.inl ?_)))
    exact decide_eq_false source
  rw [insertionUnder, columns, TextRules.guard_false]

/-- An insertion that accepts all text is refused for its rows only. -/
theorem performInsertion_ne_textRefused (input : Input) (row : ProcessingRequestRow)
    (ledger : Ledger) :
    (performInsertion input row.toDomain ledger).1 ≠ .error (.database textRefused) := by
  simp only [performInsertion, ProcessingRequestRow.toRow_toDomain]
  split
  · decide
  · split
    · decide
    · rintro ⟨⟩

theorem runAlone_insertion (represents : shared.database.Represents ledger)
    (numbered : Numbered shared.database shared.nextOutboxId)
    (unbound : ledger.findByOwnerAndIdempotencyKey dto.ownerUserId dto.idempotencyKey = none)
    (unknown : ledger.findByOwnerAndSource dto.ownerUserId dto.sourceStorageKey = none) :
    (runAlone (.sized sizes) (unitOfWork.runInTransaction (insertion (inputOf eventId dto)
      (requestRow draws (inputOf eventId dto) correlationId).toDomain)) shared).1 =
        (insertionUnder (.sized sizes) (inputOf eventId dto)
          (requestRow draws (inputOf eventId dto) correlationId) ledger).1.map fun _ => () := by
  have worked : Worked (.sized sizes) shared
      (Performed.map (fun _ => ()) (insertionUnder (.sized sizes) (inputOf eventId dto)
        (requestRow draws (inputOf eventId dto) correlationId) ledger)) _ :=
    worked_insertion represents unbound unknown rfl
  rcases run_runInTransaction represents numbered worked with ⟨shared', ran, _⟩
  rw [enforce_insertionUnder] at ran
  simp only [runAlone, ran, Performed.map]

theorem inserts_of_leavesRoom (accepted : (validateDto body).run = .ok (.ok dto))
    (room : dto.LeavesRoom) : dto.Inserts := by
  intro sizes draws eventId correlationId shared ledger represents numbered unbound unknown
  rw [runAlone_insertion represents numbered unbound unknown, insertionUnder_sized accepted room]
  have answered := performInsertion_ne_textRefused (inputOf eventId dto)
    (requestRow draws (inputOf eventId dto) correlationId) ledger
  cases performed : (performInsertion (inputOf eventId dto)
      (requestRow draws (inputOf eventId dto) correlationId).toDomain ledger).1 with
  | ok result => exact nofun
  | error error =>
      rintro ⟨⟩
      exact answered performed

/-- Over empty tables a create without room is refused already. -/
theorem not_inserts_of_overflow (accepted : (validateDto body).run = .ok (.ok dto))
    (overflow : ¬ dto.LeavesRoom) : ¬ dto.Inserts := by
  intro inserts
  have represents := Database.represents_ofDatabase .empty
  refine inserts .incompressible ⟨0, .repeated 0, .repeated 0, 0⟩ (.repeated 0) none
    ⟨.empty, 1, []⟩ _ represents numbered_empty rfl rfl ?_
  rw [runAlone_insertion represents numbered_empty rfl rfl,
    insertionUnder_overflow accepted overflow]
  rfl

/-- The request of an accepted body is valid. -/
theorem requestOf_of_accepted (accepted : (validateDto body).run = .ok (.ok dto)) (draws : Draws)
    (eventId : Uuid) (correlationId : Option JsString) :
    ∃ request, requestOf draws (inputOf eventId dto) correlationId = .ok request := by
  rcases validateDto_eq_ok.mp accepted with ⟨owner, email, source, _, _⟩
  exact ⟨_, Domain.createProcessingRequest_eq_ok.mpr ⟨(requireString_eq_ok.mp owner).2.1,
    (requireString_eq_ok.mp email).2.1, (requireString_eq_ok.mp source).2.1, rfl⟩⟩

/-- A create without room that finds no request is refused, and leaves the tables as they are. -/
theorem create_overflows (accepted : (validateDto body).run = .ok (.ok dto))
    (overflow : ¬ dto.LeavesRoom) (draws : Draws)
    (valid : checked (inputOf eventId dto) = .ok correlationId)
    (represents : shared.database.Represents ledger)
    (numbered : Numbered shared.database shared.nextOutboxId)
    (unlinked : ledger.findByEventId eventId.text = none)
    (unbound : ledger.findByOwnerAndIdempotencyKey dto.ownerUserId dto.idempotencyKey = none)
    (unknown : ledger.findByOwnerAndSource dto.ownerUserId dto.sourceStorageKey = none) :
    ∃ shared', runAlone (.sized .incompressible) (CreateProcessingRequestUseCase.execute
        (repository .dataSource) unitOfWork draws (inputOf eventId dto)) shared =
          (.error (.database textRefused), shared') ∧
      shared'.database = shared.database := by
  rcases requestOf_of_accepted accepted draws eventId correlationId with ⟨request, isRequest⟩
  have refused : createUnder (.sized .incompressible) draws (inputOf eventId dto) ledger =
      (.error (.database textRefused), []) := by
    have text (text : JsString) : (TextRules.sized .incompressible).text text = true := rfl
    have unlinked : ledger.findByEventId (inputOf eventId dto).eventId = none := unlinked
    have unbound : ledger.findByOwnerAndIdempotencyKey (inputOf eventId dto).ownerUserId
        (inputOf eventId dto).idempotencyKey = none := unbound
    have unknown : ledger.findByOwnerAndSource (inputOf eventId dto).ownerUserId
        (inputOf eventId dto).sourceStorageKey = none := unknown
    simp only [createUnder, valid, text, unlinked, isRequest, validUnder, unbound, unknown,
      Bool.and_self, TextRules.guard_true]
    exact insertionUnder_overflow accepted overflow
  rcases run_create (.sized .incompressible) draws (inputOf eventId dto) represents numbered with
    ⟨shared', ran, did⟩
  rw [refused] at ran did
  refine ⟨shared', ?_, did.database⟩
  simp only [runAlone, ran]

/-- The bytes of what fits together stay within what an entry may have. -/
theorem bytes_of_leavesRoom (accepted : (validateDto body).run = .ok (.ok dto))
    (room : dto.LeavesRoom) :
    utf8Length dto.ownerUserId + utf8Length dto.sourceStorageKey ≤ maxSize ∧
      utf8Length dto.ownerUserId + utf8Length dto.idempotencyKey ≤ maxSize := by
  rcases lengths_of_accepted accepted with ⟨ownerUnits, _, keyUnits⟩
  have owner := utf8Length_le dto.ownerUserId
  have key := utf8Length_le dto.idempotencyKey
  have padding := Alignment.int.le_up
    (utf8Length dto.ownerUserId + textHeader (utf8Length dto.ownerUserId))
  have source := (fits_pair_iff (by omega)).mp ((leavesRoom_iff accepted).mp room)
  rw [maxSize]
  omega

/-- An accepted body fits the indexes its request is stored under if and only if its owner leaves
room for its source, counted in the units and the characters that the route does not count. -/
theorem fitsIndexes_iff (accepted : (validateDto body).run = .ok (.ok dto)) :
    dto.FitsIndexes ↔ dto.LeavesRoom := by
  constructor
  · intro fits
    by_contra overflow
    exact not_inserts_of_overflow accepted overflow fits.inserts
  · intro room
    have ⟨source, key⟩ := bytes_of_leavesRoom accepted room
    exact ⟨source, key, inserts_of_leavesRoom accepted room⟩

end Fits

/-! ## The longest bodies -/

/-- The checked fields of a body whose owner and source are as long as they may be. -/
def longDto (unitAt : ℕ → UInt16) : CreateProcessingRequestDto where
  ownerUserId := (List.range 255).map unitAt
  ownerEmail := js "owner@example.com"
  sourceStorageKey := (List.range 1024).map unitAt
  idempotencyKey := js "key"
  correlationId := none

def longBody (unitAt : ℕ → UInt16) : Json :=
  .object [(js "ownerUserId", .string (longDto unitAt).ownerUserId),
    (js "ownerEmail", .string (longDto unitAt).ownerEmail),
    (js "sourceStorageKey", .string (longDto unitAt).sourceStorageKey),
    (js "idempotencyKey", .string (longDto unitAt).idempotencyKey)]

theorem longBody_accepted {unitAt : ℕ → UInt16} (visible : isWhiteSpace (unitAt 0) = false) :
    (validateDto (longBody unitAt)).run = .ok (.ok (longDto unitAt)) := by
  have notBlank : ∀ count, 0 < count → isBlank ((List.range count).map unitAt) = false :=
    fun count positive =>
      isBlank_eq_false_of_mem (List.mem_map_of_mem (List.mem_range.mpr positive)) visible
  have length : ∀ count, ((List.range count).map unitAt).length ≤ count := fun count =>
    (List.length_map _).trans_le List.length_range.le
  rw [validateDto_eq_ok]
  simp only [requireString_eq_ok]
  have email : (js "owner@example.com").length ≤ maxOwnerEmailLength := by decide
  have key : (js "key").length ≤ maxIdempotencyKeyLength := by decide
  refine ⟨⟨rfl, ?_, ?_⟩, ⟨rfl, rfl, email⟩, ⟨rfl, ?_, ?_⟩, ⟨rfl, rfl, key⟩, rfl⟩ <;>
    simp only [longDto]
  · exact notBlank 255 (by decide)
  · exact length 255
  · exact notBlank 1024 (by decide)
  · exact length 1024

/-- The letters of the alphabet, over and over. -/
def asciiLetter (index : ℕ) : UInt16 :=
  UInt16.ofNat (0x61 + index % 26)

/-- In ASCII the longest body fits. -/
theorem fitsIndexes_iff_ascii : (longDto asciiLetter).FitsIndexes := by
  rw [fitsIndexes_iff (longBody_accepted (by decide))]
  decide +kernel

/-- The ideographs from U+4E00 on. -/
def ideograph (index : ℕ) : UInt16 :=
  UInt16.ofNat (0x4E00 + index)

/-- In ideographs the longest body is accepted, its entry by owner and source has 3837 bytes of
text, and every create of it is refused, however often it is tried. -/
theorem longBody_overflows :
    (validateDto (longBody ideograph)).run = .ok (.ok (longDto ideograph)) ∧
      utf8Length (longDto ideograph).ownerUserId +
        utf8Length (longDto ideograph).sourceStorageKey = 3837 ∧
      ¬ (longDto ideograph).FitsIndexes ∧
      ∀ (draws : Draws) (eventId : Uuid), ∃ shared',
        Postgres.runAlone (.sized .incompressible) (CreateProcessingRequestUseCase.execute
          (repository .dataSource) unitOfWork draws (inputOf eventId (longDto ideograph)))
            ⟨.empty, 1, []⟩ = (.error (.database Postgres.textRefused), shared') ∧
        shared'.database = .empty := by
  have accepted : (validateDto (longBody ideograph)).run = .ok (.ok (longDto ideograph)) :=
    longBody_accepted (by decide)
  have bytes : utf8Length (longDto ideograph).ownerUserId +
      utf8Length (longDto ideograph).sourceStorageKey = 3837 := by
    decide +kernel
  have overflow : ¬ (longDto ideograph).LeavesRoom := by
    intro room
    have within := (bytes_of_leavesRoom accepted room).1
    rw [bytes] at within
    exact absurd within (by decide)
  refine ⟨accepted, bytes, ?_, fun draws eventId => ?_⟩
  · rintro ⟨within, _, _⟩
    rw [bytes] at within
    exact absurd within (by decide)
  · have valid : checked (inputOf eventId (longDto ideograph)) = .ok none := by
      have isEventId : isBlank (inputOf eventId (longDto ideograph)).eventId = false :=
        Uuid.isBlank_of_parse (Uuid.parse_text eventId)
      rw [checked, isEventId]
      rfl
    exact create_overflows accepted overflow draws valid
      (Database.represents_ofDatabase .empty) Postgres.numbered_empty rfl rfl rfl

end ProcessingCatalog
