import ProcessingCatalog.Application.Ports

/-!
# What an owner may read

The three reads of an owner: a page of the list, one request, and the archive of
a completed one. An item is built from an allow-list of the request's fields.
-/

namespace ProcessingCatalog

open Effect Domain

structure OwnedItem where
  processingRequestId : JsString
  status : ProcessingRequestStatus
  createdAt : JsString
  updatedAt : JsString
  /-- Present if and only if the status is failed. -/
  failureReason : Option JsString
  deriving DecidableEq

structure OwnedPage where
  items : List OwnedItem
  page : ℕ
  pageSize : ℕ
  total : ℕ
  deriving DecidableEq

def toOwnedItem (request : ProcessingRequest) : OwnedItem where
  processingRequestId := request.processingRequestId
  status := request.status
  createdAt := toISOString request.createdAt
  updatedAt := toISOString request.updatedAt
  failureReason :=
    if request.status = .failed then request.failureCode.map failureReasonFor else none

variable {σ : Signature}

namespace ListOwnedProcessingRequestsQuery

structure Input where
  ownerUserId : JsString
  page : ℕ
  pageSize : ℕ
  /-- Pages are counted from 1. -/
  page_pos : 1 ≤ page
  pageSize_pos : 1 ≤ pageSize

/-- The two reads are sent together; neither waits for the other. -/
def execute (repository : ProcessingRequestRepository σ) (input : Input) :
    Computation σ OwnedPage := do
  let offset := (input.page - 1) * input.pageSize
  let rows ← repository.findPageByOwner input.ownerUserId offset input.pageSize
  let total ← repository.countByOwner input.ownerUserId
  return ⟨rows.map toOwnedItem, input.page, input.pageSize, total⟩

end ListOwnedProcessingRequestsQuery

namespace GetOwnedProcessingRequestQuery

structure Input where
  ownerUserId : JsString
  processingRequestId : JsString

/-- Absent both for a missing request and for another owner's. -/
def execute (repository : ProcessingRequestRepository σ) (input : Input) :
    Computation σ (Option OwnedItem) := do
  let request ← repository.findByIdAndOwner input.processingRequestId input.ownerUserId
  return request.map toOwnedItem

end GetOwnedProcessingRequestQuery

namespace GetOwnedArchiveQuery

structure Input where
  ownerUserId : JsString
  processingRequestId : JsString

inductive OwnedArchive where
  | ready (zipStorageKey : JsString)
  | notCompleted
  /-- A missing request, or another owner's. -/
  | notFound
  deriving DecidableEq

/-- The archive of a request the owner has. -/
def archiveOf (request : ProcessingRequest) : OwnedArchive :=
  match request.zipStorageKey with
  | none => .notCompleted
  | some zipStorageKey =>
      if request.status ≠ .completed ∨ zipStorageKey = [] then .notCompleted
      else .ready zipStorageKey

def execute (repository : ProcessingRequestRepository σ) (input : Input) :
    Computation σ OwnedArchive := do
  let some request ← repository.findByIdAndOwner input.processingRequestId input.ownerUserId
    | return .notFound
  return archiveOf request

end GetOwnedArchiveQuery

end ProcessingCatalog
