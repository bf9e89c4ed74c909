import ProcessingCatalog.Application.OwnedReads
import ProcessingCatalog.Domain.Uuid
import ProcessingCatalog.JavaScript.JsonParse

/-!
# The routes of an owner's reads

The owner is a part of the path, so there is no route to an unscoped read. Each
route checks its parameters before it asks the query, and answers every miss,
whatever its reason, with the same error.
-/

namespace ProcessingCatalog

open Effect

/-- The exceptions a route answers with, by their status. -/
inductive HttpException where
  | badRequestException (message : JsString)
  | notFoundException (message : JsString)
  | conflictException (message : JsString)
  deriving DecidableEq

namespace OwnedProcessingRequestsController

/-- The answer of a route: a value, or the exception it throws. -/
abbrev Response (σ : Signature) (α : Type) : Type :=
  ExceptT HttpException (Computation σ) α

def defaultPage : ℕ := 1

def defaultPageSize : ℕ := 20

def maxPageSize : ℕ := 100

/-- `Number.MAX_SAFE_INTEGER`. -/
def maxSafeInteger : ℕ := 2 ^ 53 - 1

/-- `UUID.test(id)`: 36 units, of which four are hyphens and the others hexadecimal digits. -/
def isUuid (id : JsString) : Bool :=
  id.length = 36 && id.zipIdx.all fun (unit, index) =>
    if index ∈ [8, 13, 18, 23] then unit = Uuid.hyphen else (Uuid.hexValue unit).isSome

def notFound : HttpException :=
  .notFoundException (js "Processing request not found")

def notCompleted : HttpException :=
  .conflictException (js "Processing request is not completed")

def requireOwner (ownerUserId : JsString) : Except HttpException Unit :=
  if ownerUserId.isEmpty || isBlank ownerUserId then
    .error (.badRequestException (js "ownerUserId is required"))
  else
    .ok ()

abbrev Bounded (min max : ℕ) : Type :=
  { value : ℕ // min ≤ value ∧ value ≤ max }

/-- A parameter that is repeated arrives as an array, which is no string of digits. A number beyond
the safe integers is rounded to one beyond them, so digits may be compared exactly. -/
def parseBounded {min max : ℕ} (raw : Option Json) (fallback : Bounded min max)
    (message : JsString) : Except HttpException (Bounded min max) :=
  match raw with
  | none => .ok fallback
  | some (.string text) =>
      let value := JsNumber.natural text
      if text.isEmpty || !text.all JsNumber.isDigit || maxSafeInteger < value then
        .error (.badRequestException message)
      else if within : min ≤ value ∧ value ≤ max then
        .ok ⟨value, within⟩
      else
        .error (.badRequestException message)
  | some _ => .error (.badRequestException message)

def parsePage (page : Option Json) : Except HttpException (Bounded 1 maxSafeInteger) :=
  parseBounded page ⟨defaultPage, by decide⟩
    (js "page must be an integer greater than or equal to 1")

def parsePageSize (pageSize : Option Json) : Except HttpException (Bounded 1 maxPageSize) :=
  parseBounded pageSize ⟨defaultPageSize, by decide⟩
    (js "pageSize must be an integer between 1 and 100")

variable {σ : Signature}

def list (repository : ProcessingRequestRepository σ) (ownerUserId : JsString)
    (page pageSize : Option Json) : Response σ OwnedPage := do
  MonadExcept.ofExcept (requireOwner ownerUserId)
  let page ← MonadExcept.ofExcept (parsePage page)
  let pageSize ← MonadExcept.ofExcept (parsePageSize pageSize)
  ListOwnedProcessingRequestsQuery.execute repository
    ⟨ownerUserId, page, pageSize, page.property.1, pageSize.property.1⟩

def findOne (repository : ProcessingRequestRepository σ) (ownerUserId id : JsString) :
    Response σ OwnedItem := do
  MonadExcept.ofExcept (requireOwner ownerUserId)
  if !isUuid id then
    throw notFound
  let some item ← GetOwnedProcessingRequestQuery.execute repository ⟨ownerUserId, id⟩
    | throw notFound
  return item

/-- The archive key, of a completed request only. -/
def findArchive (repository : ProcessingRequestRepository σ) (ownerUserId id : JsString) :
    Response σ JsString := do
  MonadExcept.ofExcept (requireOwner ownerUserId)
  if !isUuid id then
    throw notFound
  match ← GetOwnedArchiveQuery.execute repository ⟨ownerUserId, id⟩ with
  | .notFound => throw notFound
  | .notCompleted => throw notCompleted
  | .ready zipStorageKey => return zipStorageKey

end OwnedProcessingRequestsController

end ProcessingCatalog
