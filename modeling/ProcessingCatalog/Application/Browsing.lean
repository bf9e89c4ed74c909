import ProcessingCatalog.Application.OwnedReads
import ProcessingCatalog.Library.Paging
import Mathlib.Data.List.Nodup

/-!
# An owner who browses

A client reads an owner's requests page after page and stops at the first page
that is not full, while the service goes on between its calls. Requests are
listed by what never changes of them, so what such a client sees follows from
how the stored requests may change.
-/

namespace ProcessingCatalog

/-- What the pages are ordered by. -/
def pageKey (request : ProcessingRequest) : Date × JsString :=
  (request.createdAt, request.processingRequestId)

/-- By `createdAt`, the latest first; then by identifier. -/
def ListedBefore (left right : Date × JsString) : Prop :=
  right.1 < left.1 ∨ right.1 = left.1 ∧ left.2 < right.2

instance : DecidableRel ListedBefore :=
  fun left right => inferInstanceAs (Decidable (right.1 < left.1 ∨ right.1 = left.1 ∧
    left.2 < right.2))

instance : Std.Asymm ListedBefore where
  asymm left right := by
    rintro (later | ⟨same, less⟩) (later' | ⟨same', less'⟩)
    · exact lt_asymm later later'
    · exact later.ne same'.symm
    · exact later'.ne same.symm
    · exact List.lt_asymm less less'

/-- Listed before, or the same request: what the repositories sort by. -/
def listOrder (left right : ProcessingRequest) : Bool :=
  right.createdAt < left.createdAt ∨ right.createdAt = left.createdAt ∧
    left.processingRequestId ≤ right.processingRequestId

theorem listOrder_iff {left right : ProcessingRequest} :
    listOrder left right = true ↔ right.createdAt < left.createdAt ∨
      right.createdAt = left.createdAt ∧
        left.processingRequestId ≤ right.processingRequestId := by
  rw [listOrder, decide_eq_true_iff]

theorem listOrder_trans (first second third : ProcessingRequest)
    (left : listOrder first second = true) (right : listOrder second third = true) :
    listOrder first third = true := by
  rw [listOrder_iff] at left right ⊢
  rcases left with later | ⟨same, less⟩
  · rcases right with later' | ⟨same', _⟩
    · exact .inl (later'.trans later)
    · exact .inl (same' ▸ later)
  · rcases right with later' | ⟨same', less'⟩
    · exact .inl (same ▸ later')
    · exact .inr ⟨same'.trans same, List.le_trans less less'⟩

theorem listOrder_total (left right : ProcessingRequest) :
    (listOrder left right || listOrder right left) = true := by
  rw [Bool.or_eq_true, listOrder_iff, listOrder_iff]
  rcases lt_trichotomy left.createdAt right.createdAt with later | same | later
  · exact .inr (.inl later)
  · rcases List.le_total left.processingRequestId right.processingRequestId with less | less
    · exact .inl (.inr ⟨same.symm, less⟩)
    · exact .inr (.inr ⟨same, less⟩)
  · exact .inl (.inl later)

/-- The requests of an owner among the stored ones, as they are listed. -/
def ownedListing (ownerUserId : JsString) (stored : List ProcessingRequest) :
    List ProcessingRequest :=
  (stored.filter fun request => request.ownerUserId = ownerUserId).mergeSort listOrder

section Listing

variable {ownerUserId : JsString} {stored stored' : List ProcessingRequest}

theorem mem_ownedListing {request : ProcessingRequest} :
    request ∈ ownedListing ownerUserId stored ↔
      request ∈ stored ∧ request.ownerUserId = ownerUserId := by
  rw [ownedListing, List.mem_mergeSort, List.mem_filter, decide_eq_true_eq]

theorem length_ownedListing : (ownedListing ownerUserId stored).length =
    stored.countP fun request => request.ownerUserId = ownerUserId := by
  rw [ownedListing, List.length_mergeSort, List.countP_eq_length_filter]

/-- Distinct requests are listed in the strict order of their keys. -/
theorem sorted_ownedListing
    (distinct : (stored.map ProcessingRequest.processingRequestId).Nodup) :
    ((ownedListing ownerUserId stored).map pageKey).Pairwise ListedBefore := by
  have sorted : (ownedListing ownerUserId stored).Pairwise fun left right =>
      listOrder left right = true :=
    List.pairwise_mergeSort listOrder_trans listOrder_total _
  have ownedDistinct : ((stored.filter fun request => request.ownerUserId = ownerUserId).map
      ProcessingRequest.processingRequestId).Nodup :=
    distinct.sublist (List.filter_sublist.map _)
  have different : (ownedListing ownerUserId stored).Pairwise fun left right =>
      left.processingRequestId ≠ right.processingRequestId :=
    List.pairwise_map.mp (((List.mergeSort_perm _ listOrder).map _).nodup_iff.mpr ownedDistinct)
  rw [List.pairwise_map]
  refine (sorted.and different).imp ?_
  rintro left right ⟨ordered, apart⟩
  rcases listOrder_iff.mp ordered with later | ⟨same, less⟩
  · exact .inl later
  · exact .inr ⟨same, Std.lt_of_le_of_ne less apart⟩

/-- Requests that are all still stored under what identifies them are all still listed. -/
theorem keys_ownedListing_subset (kept : ∀ request ∈ stored, request.ownerUserId = ownerUserId →
      ∃ request' ∈ stored', request.SameIdentity request') :
    (ownedListing ownerUserId stored).map pageKey ⊆
      (ownedListing ownerUserId stored').map pageKey := by
  intro key keyMem
  rcases List.mem_map.mp keyMem with ⟨request, requestMem, rfl⟩
  rcases mem_ownedListing.mp requestMem with ⟨isStored, owned⟩
  rcases kept request isStored owned with
    ⟨request', isStored', sameId, sameOwner, _, _, _, _, sameCreated⟩
  refine List.mem_map.mpr ⟨request', mem_ownedListing.mpr ⟨isStored', sameOwner.trans owned⟩, ?_⟩
  rw [pageKey, pageKey, sameId, sameCreated]

end Listing

section Client

variable {S : Type}

/-- A client asks for page 1, 2, … of an owner's requests, and goes on while its pages are full; the
state moves between its calls. -/
inductive Browses (moves : S → S → Prop)
    (list : S → ListOwnedProcessingRequestsQuery.Input → Except Thrown OwnedPage)
    (ownerUserId : JsString) (pageSize : ℕ) (first : S) : List OwnedPage → S → Prop where
  | start : Browses moves list ownerUserId pageSize first [] first
  | meanwhile {pages : List OwnedPage} {state next : S}
      (browses : Browses moves list ownerUserId pageSize first pages state)
      (moved : moves state next) : Browses moves list ownerUserId pageSize first pages next
  | call {pages : List OwnedPage} {state : S} {page : OwnedPage}
      (browses : Browses moves list ownerUserId pageSize first pages state)
      (full : ∀ page ∈ pages, pageSize ≤ page.items.length)
      {input : ListOwnedProcessingRequestsQuery.Input} (isOwner : input.ownerUserId = ownerUserId)
      (isNext : input.page = pages.length + 1) (isSize : input.pageSize = pageSize)
      (answered : list state input = .ok page) :
      Browses moves list ownerUserId pageSize first (pages ++ [page]) state

/-- The client has met a page that is not full. -/
def Stopped (pageSize : ℕ) (pages : List OwnedPage) : Prop :=
  ∃ page ∈ pages, page.items.length < pageSize

/-- Whether a request is on one of the pages. -/
def Shown (pages : List OwnedPage) (request : ProcessingRequest) : Prop :=
  ∃ page ∈ pages, ∃ item ∈ page.items, item.processingRequestId = request.processingRequestId

/-- The pages are the requests an owner has at first, each once and in order, and each page counts
them all. -/
def ShowsOnce (stored : List ProcessingRequest) (ownerUserId : JsString)
    (pages : List OwnedPage) : Prop :=
  ∃ requests : List ProcessingRequest,
    (∀ request, request ∈ requests ↔ request ∈ stored ∧ request.ownerUserId = ownerUserId) ∧
    (requests.map pageKey).Pairwise ListedBefore ∧
    ((pages.flatMap OwnedPage.items).map fun item => (item.processingRequestId, item.createdAt)) =
      requests.map (fun request =>
        (request.processingRequestId, toISOString request.createdAt)) ∧
    ∀ page ∈ pages, page.total = (pages.flatMap OwnedPage.items).length

/-- What a client may rely on that browses from the state `first` on, while the service `moves`, or
moves without a create of the owner. -/
structure NeverSkips (moves movesQuietly : S → S → Prop)
    (list : S → ListOwnedProcessingRequestsQuery.Input → Except Thrown OwnedPage)
    (stored : S → List ProcessingRequest) (ownerUserId : JsString) (pageSize : ℕ) (first : S) :
    Prop where
  shown : ∀ {pages last}, Browses moves list ownerUserId pageSize first pages last →
    Stopped pageSize pages →
      ∀ request ∈ stored first, request.ownerUserId = ownerUserId → Shown pages request
  foreign : ∀ {pages last}, Browses moves list ownerUserId pageSize first pages last →
    ∀ request ∈ stored last, request.ownerUserId ≠ ownerUserId → ¬ Shown pages request
  once : ∀ {pages last}, Browses movesQuietly list ownerUserId pageSize first pages last →
    Stopped pageSize pages → ShowsOnce (stored first) ownerUserId pages
  /-- It goes on only as long as the owner has that many requests. -/
  stops : ∀ {pages last}, Browses moves list ownerUserId pageSize first pages last →
    (pages.length - 1) * pageSize ≤ (stored last).countP (·.ownerUserId = ownerUserId)

/-- How a service lists the requests of an owner, and what may become of them. -/
structure Lists (moves movesQuietly : S → S → Prop)
    (list : S → ListOwnedProcessingRequestsQuery.Input → Except Thrown OwnedPage)
    (stored : S → List ProcessingRequest) (ownerUserId : JsString) (invariant : S → Prop) :
    Prop where
  answered : ∀ {state input page}, input.ownerUserId = ownerUserId →
    list state input = .ok page →
      page.items = (Paging.page input.pageSize (input.page - 1)
          (ownedListing ownerUserId (stored state))).map toOwnedItem ∧
        page.total = (ownedListing ownerUserId (stored state)).length
  distinct : ∀ {state}, invariant state →
    ((stored state).map ProcessingRequest.processingRequestId).Nodup
  kept : ∀ {state next}, invariant state → moves state next →
    invariant next ∧ ∀ request ∈ stored state, ∃ request' ∈ stored next,
      request.SameIdentity request'
  quiet : ∀ {state next}, movesQuietly state next → moves state next
  still : ∀ {state next}, invariant state → movesQuietly state next →
    ∀ request ∈ stored next, request.ownerUserId = ownerUserId →
      ∃ before ∈ stored state, request.SameIdentity before

variable {moves movesQuietly : S → S → Prop}
  {list : S → ListOwnedProcessingRequestsQuery.Input → Except Thrown OwnedPage}
  {stored : S → List ProcessingRequest} {ownerUserId : JsString} {invariant : S → Prop}
  {pageSize : ℕ} {first last : S} {pages : List OwnedPage}

/-- A page that is longer than all that is stored is not full. -/
theorem stopped_of_few (lists : Lists moves movesQuietly list stored ownerUserId invariant)
    {input : ListOwnedProcessingRequestsQuery.Input} {page : OwnedPage}
    (isOwner : input.ownerUserId = ownerUserId) (answered : list first input = .ok page)
    (few : (stored first).length < input.pageSize) : Stopped input.pageSize [page] := by
  refine ⟨page, List.mem_singleton_self page, ?_⟩
  rw [(lists.answered isOwner answered).1, List.length_map, Paging.length_page, length_ownedListing]
  have within := List.countP_le_length (p := fun request : ProcessingRequest =>
    request.ownerUserId = ownerUserId) (l := stored first)
  omega

/-- The listing grows with the stored requests. -/
theorem Lists.grows (lists : Lists moves movesQuietly list stored ownerUserId invariant) :
    Paging.Grows moves (fun state => ownedListing ownerUserId (stored state)) pageKey ListedBefore
      invariant where
  sorted holds := sorted_ownedListing (lists.distinct holds)
  moved holds moved :=
    ⟨(lists.kept holds moved).1,
      keys_ownedListing_subset fun request isStored _ =>
        (lists.kept holds moved).2 request isStored⟩

/-- Without a create of the owner, its listing keeps its keys. -/
theorem Lists.sameKeys (lists : Lists moves movesQuietly list stored ownerUserId invariant)
    {state next : S} (holds : invariant state) (moved : movesQuietly state next) :
    (ownedListing ownerUserId (stored next)).map pageKey =
      (ownedListing ownerUserId (stored state)).map pageKey := by
  rcases lists.grows.moved holds (lists.quiet moved) with ⟨present, kept⟩
  exact Paging.eq_of_sorted (lists.grows.sorted present) (lists.grows.sorted holds)
    (keys_ownedListing_subset (lists.still holds moved)) kept

/-- The pages a client has are those a reader of the listing has. -/
theorem Browses.reads (lists : Lists moves movesQuietly list stored ownerUserId invariant)
    (browses : Browses moves list ownerUserId pageSize first pages last) :
    ∃ read, Paging.Reads moves (fun state => ownedListing ownerUserId (stored state)) pageSize first
        read last ∧
      pages.map OwnedPage.items = read.map (List.map toOwnedItem) := by
  induction browses with
  | start => exact ⟨[], .start, rfl⟩
  | meanwhile _ moved ih =>
      rcases ih with ⟨read, reads, same⟩
      exact ⟨read, reads.move moved, same⟩
  | @call pages state page _ full input isOwner isNext isSize answered ih =>
      rcases ih with ⟨read, reads, same⟩
      have sameLength : pages.length = read.length := by simpa using congrArg List.length same
      have items := (lists.answered isOwner answered).1
      rw [isNext, isSize, Nat.add_sub_cancel, sameLength] at items
      refine ⟨_, reads.read (fun rows rowsMem => ?_), ?_⟩
      · have isPage : rows.map toOwnedItem ∈ pages.map OwnedPage.items :=
          same ▸ List.mem_map_of_mem rowsMem
        rcases List.mem_map.mp isPage with ⟨page, pageMem, items⟩
        have enough := full page pageMem
        rwa [items, List.length_map] at enough
      · rw [List.map_append, List.map_append, same, List.map_singleton, List.map_singleton, items]

section Items

variable {read : List (List ProcessingRequest)}
  (same : pages.map OwnedPage.items = read.map (List.map toOwnedItem))

include same

theorem shown_iff (request : ProcessingRequest) :
    Shown pages request ↔ ∃ rows ∈ read, ∃ other ∈ rows,
      other.processingRequestId = request.processingRequestId := by
  have onPage : Shown pages request ↔ ∃ items ∈ pages.map OwnedPage.items, ∃ item ∈ items,
      item.processingRequestId = request.processingRequestId := by
    simp [Shown]
  rw [onPage, same]
  simp [toOwnedItem]

theorem stopped_iff : Stopped pageSize pages ↔ ∃ rows ∈ read, rows.length < pageSize := by
  have onPage : Stopped pageSize pages ↔
      ∃ items ∈ pages.map OwnedPage.items, items.length < pageSize := by
    simp [Stopped]
  rw [onPage, same]
  simp

theorem flatMap_items : pages.flatMap OwnedPage.items = read.flatten.map toOwnedItem := by
  rw [List.flatMap_def, same, List.map_flatten]

end Items

/-- The same service, as long as it moves quietly. -/
theorem Lists.quietly
    (lists : Lists moves movesQuietly list stored ownerUserId invariant) :
    Lists movesQuietly movesQuietly list stored ownerUserId invariant :=
  { lists with
    kept := fun holds moved => lists.kept holds (lists.quiet moved)
    quiet := id }

/-- While nothing is added for the owner, every page counts the requests of the first moment. -/
theorem Browses.total (lists : Lists moves movesQuietly list stored ownerUserId invariant)
    (holds : invariant first)
    (browses : Browses movesQuietly list ownerUserId pageSize first pages last) :
    invariant last ∧
      (ownedListing ownerUserId (stored last)).map pageKey =
        (ownedListing ownerUserId (stored first)).map pageKey ∧
      ∀ page ∈ pages, page.total = (ownedListing ownerUserId (stored first)).length := by
  induction browses with
  | start => exact ⟨holds, rfl, by simp⟩
  | meanwhile _ moved ih =>
      rcases ih with ⟨present, same, totals⟩
      exact ⟨(lists.grows.moved present (lists.quiet moved)).1,
        (lists.sameKeys present moved).trans same, totals⟩
  | call _ _ isOwner _ _ answered ih =>
      rcases ih with ⟨present, same, totals⟩
      refine ⟨present, same, fun page pageMem => ?_⟩
      rcases List.mem_append.mp pageMem with old | new
      · exact totals page old
      · rw [List.mem_singleton.mp new, (lists.answered isOwner answered).2]
        simpa using congrArg List.length same

theorem Browses.shown (lists : Lists moves movesQuietly list stored ownerUserId invariant)
    (holds : invariant first) (browses : Browses moves list ownerUserId pageSize first pages last)
    (stopped : Stopped pageSize pages) {request : ProcessingRequest}
    (isStored : request ∈ stored first) (owned : request.ownerUserId = ownerUserId) :
    Shown pages request := by
  rcases browses.reads lists with ⟨read, reads, same⟩
  rw [shown_iff same]
  have there : pageKey request ∈ (ownedListing ownerUserId (stored first)).map pageKey :=
    List.mem_map_of_mem (mem_ownedListing.mpr ⟨isStored, owned⟩)
  rcases reads.seen lists.grows holds ((stopped_iff same).mp stopped) there with
    ⟨rows, rowsMem, met⟩
  rcases List.mem_map.mp met with ⟨other, otherMem, sameKey⟩
  exact ⟨rows, rowsMem, other, otherMem, congrArg Prod.snd sameKey⟩

theorem Browses.foreign (lists : Lists moves movesQuietly list stored ownerUserId invariant)
    (holds : invariant first) (browses : Browses moves list ownerUserId pageSize first pages last)
    {request : ProcessingRequest} (isStored : request ∈ stored last)
    (notOwned : request.ownerUserId ≠ ownerUserId) : ¬ Shown pages request := by
  intro shown
  rcases browses.reads lists with ⟨read, reads, same⟩
  rcases (shown_iff same request).mp shown with ⟨rows, rowsMem, other, otherMem, sameId⟩
  have listed := reads.listed lists.grows holds ⟨rows, rowsMem, List.mem_map_of_mem otherMem⟩
  rcases List.mem_map.mp listed with ⟨still, stillMem, sameKey⟩
  rcases mem_ownedListing.mp stillMem with ⟨stillStored, owned⟩
  have isRequest : still = request :=
    List.inj_on_of_nodup_map (lists.distinct (reads.holds lists.grows holds)) stillStored isStored
      ((congrArg Prod.snd sameKey).trans sameId)
  exact notOwned (isRequest ▸ owned)

theorem Browses.once (lists : Lists moves movesQuietly list stored ownerUserId invariant)
    (holds : invariant first)
    (browses : Browses movesQuietly list ownerUserId pageSize first pages last)
    (stopped : Stopped pageSize pages) : ShowsOnce (stored first) ownerUserId pages := by
  rcases browses.reads lists.quietly with ⟨read, reads, same⟩
  rcases reads.exact lists.quietly.grows holds lists.sameKeys with ⟨_, taken, reach⟩
  have whole : read.flatten.map pageKey =
      (ownedListing ownerUserId (stored first)).map pageKey := by
    rw [taken, List.take_of_length_le]
    rw [List.length_map]
    rcases reach with full | reach
    · rcases (stopped_iff same).mp stopped with ⟨rows, rowsMem, short⟩
      exact absurd (full rows rowsMem) (Nat.not_le_of_lt short)
    · exact reach
  have items : _ = read.flatten.map toOwnedItem := flatMap_items same
  refine ⟨ownedListing ownerUserId (stored first), fun _ => mem_ownedListing,
    lists.grows.sorted holds, ?_, ?_⟩
  · have mapped := congrArg
      (List.map fun key : Date × JsString => (key.2, toISOString key.1)) whole
    rw [List.map_map, List.map_map] at mapped
    rw [items, List.map_map]
    exact mapped
  · intro page pageMem
    have sameLength := congrArg List.length whole
    rw [List.length_map, List.length_map] at sameLength
    rw [(browses.total lists holds).2.2 page pageMem, items, List.length_map, sameLength]

theorem Browses.length_le (lists : Lists moves movesQuietly list stored ownerUserId invariant)
    (holds : invariant first)
    (browses : Browses moves list ownerUserId pageSize first pages last) :
    (pages.length - 1) * pageSize ≤ (stored last).countP (·.ownerUserId = ownerUserId) := by
  rcases browses.reads lists with ⟨read, reads, same⟩
  have sameLength := congrArg List.length same
  rw [List.length_map, List.length_map] at sameLength
  rw [sameLength, ← length_ownedListing]
  exact (reads.length_le lists.grows holds).1

/-- A service whose listing grows never lets a client skip a request. -/
theorem neverSkips (lists : Lists moves movesQuietly list stored ownerUserId invariant)
    (holds : invariant first) (pageSize : ℕ) :
    NeverSkips moves movesQuietly list stored ownerUserId pageSize first where
  shown browses stopped _ isStored owned := browses.shown lists holds stopped isStored owned
  foreign browses _ isStored notOwned := browses.foreign lists holds isStored notOwned
  once browses stopped := browses.once lists holds stopped
  stops browses := browses.length_le lists holds

end Client

end ProcessingCatalog
