import Mathlib.Data.List.Induction
import Mathlib.Data.List.Nodup

/-!
# Consumers that recognise what they have handled

Messages are delivered at least once. A consumer that remembers the keys of the
messages it has handled, and skips a message whose key is among them, handles
each key once. If no message arrives before those that precede it, it handles
the messages in their order, from the first one on and without a gap.
-/

namespace ProcessingCatalog

variable {α β κ : Type} {key : α → κ} {messages : List α} {message : α}

section Handling

variable [DecidableEq κ]

/-- One message more: it is handled unless its key is known. -/
def handleNew (key : α → κ) (done : List α) (message : α) : List α :=
  if key message ∈ done.map key then done else done ++ [message]

/-- What the consumer has handled of the messages it was delivered. -/
def handledOf (key : α → κ) (messages : List α) : List α :=
  messages.foldl (handleNew key) []

theorem handledOf_snoc (key : α → κ) (messages : List α) (message : α) :
    handledOf key (messages ++ [message]) = handleNew key (handledOf key messages) message := by
  rw [handledOf, List.foldl_append]
  rfl

/-- Every key that was delivered is handled, and no other. -/
theorem mem_map_handledOf {name : κ} :
    name ∈ (handledOf key messages).map key ↔ name ∈ messages.map key := by
  induction messages using List.reverseRecOn with
  | nil => rfl
  | append_singleton messages message ih =>
      rw [handledOf_snoc, handleNew, List.map_append, List.mem_append, ← ih]
      split
      · next known =>
          constructor
          · exact .inl
          · rintro (old | new)
            · exact old
            · rwa [List.mem_singleton.mp new]
      · rw [List.map_append, List.mem_append]

theorem mem_of_mem_handledOf (handled : message ∈ handledOf key messages) :
    message ∈ messages := by
  induction messages using List.reverseRecOn with
  | nil => exact handled
  | append_singleton messages last ih =>
      rw [handledOf_snoc, handleNew] at handled
      split at handled
      · exact List.mem_append_left _ (ih handled)
      · exact List.mem_append.mpr ((List.mem_append.mp handled).imp_left ih)

/-- Messages that are read from something else, as its key says. -/
theorem handledOf_map (read : β → α) (sources : List β) :
    handledOf key (sources.map read) = (handledOf (key ∘ read) sources).map read := by
  induction sources using List.reverseRecOn with
  | nil => rfl
  | append_singleton sources source ih =>
      rw [List.map_append, List.map_singleton, handledOf_snoc, handledOf_snoc, ih, handleNew,
        handleNew, List.map_map]
      by_cases known : (key ∘ read) source ∈
          (handledOf (key ∘ read) sources).map (key ∘ read)
      · rw [if_pos known]
        exact if_pos known
      · rw [if_neg known, List.map_append]
        exact if_neg known

/-- Only whether two keys are equal matters. -/
theorem handledOf_congr {key' : α → β} [DecidableEq β]
    (same : ∀ message ∈ messages, ∀ other ∈ messages,
      key message = key other ↔ key' message = key' other) :
    handledOf key messages = handledOf key' messages := by
  induction messages using List.reverseRecOn with
  | nil => rfl
  | append_singleton messages message ih =>
      have before := ih fun message messageMem other otherMem =>
        same message (List.mem_append_left _ messageMem) other (List.mem_append_left _ otherMem)
      have known : key message ∈ (handledOf key messages).map key ↔
          key' message ∈ (handledOf key' messages).map key' := by
        rw [mem_map_handledOf, mem_map_handledOf, List.mem_map, List.mem_map]
        exact exists_congr fun other => and_congr_right fun otherMem =>
          same other (List.mem_append_left _ otherMem) message
            (List.mem_append_right _ (List.mem_singleton_self _))
      rw [handledOf_snoc, handledOf_snoc, handleNew, handleNew, before]
      simp only [before] at known
      by_cases isKnown : key' message ∈ (handledOf key' messages).map key'
      · rw [if_pos isKnown, if_pos (known.mpr isKnown)]
      · rw [if_neg isKnown, if_neg (isKnown ∘ known.mp)]

/-- A consumer that is not delivered some keys handles the others as if it were. -/
theorem handledOf_filter {wanted : α → Bool}
    (same : ∀ message ∈ messages, ∀ other ∈ messages,
      key message = key other → wanted message = wanted other) :
    handledOf key (messages.filter wanted) = (handledOf key messages).filter wanted := by
  induction messages using List.reverseRecOn with
  | nil => rfl
  | append_singleton messages message ih =>
      have before := ih fun message messageMem other otherMem =>
        same message (List.mem_append_left _ messageMem) other (List.mem_append_left _ otherMem)
      rw [List.filter_append, handledOf_snoc, handleNew]
      by_cases isWanted : wanted message = true
      · have known : key message ∈ (handledOf key (messages.filter wanted)).map key ↔
            key message ∈ (handledOf key messages).map key := by
          rw [mem_map_handledOf, mem_map_handledOf]
          constructor
          · exact fun among => List.map_subset key (List.filter_subset_self _) among
          · intro among
            rcases List.mem_map.mp among with ⟨other, otherMem, sameKey⟩
            refine List.mem_map.mpr ⟨other, List.mem_filter.mpr ⟨otherMem, ?_⟩, sameKey⟩
            rw [same other (List.mem_append_left _ otherMem) message
              (List.mem_append_right _ (List.mem_singleton_self _)) sameKey]
            exact isWanted
        rw [List.filter_cons_of_pos isWanted, List.filter_nil, handledOf_snoc, handleNew]
        by_cases isKnown : key message ∈ (handledOf key messages).map key
        · rw [if_pos isKnown, if_pos (known.mpr isKnown), before]
        · rw [if_neg isKnown, if_neg (isKnown ∘ known.mp), before, List.filter_append,
            List.filter_cons_of_pos isWanted, List.filter_nil]
      · rw [List.filter_cons_of_neg isWanted, List.filter_nil, List.append_nil, before]
        split
        · rfl
        · rw [List.filter_append, List.filter_cons_of_neg isWanted, List.filter_nil,
            List.append_nil]

end Handling

/-! ## Messages in turn -/

/-- Every message comes after messages of all keys that it needs. -/
inductive InTurn (key : α → κ) (needs : α → κ → Prop) : List α → Prop where
  | nil : InTurn key needs []
  | snoc {messages : List α} {message : α} (before : InTurn key needs messages)
      (turn : ∀ name, needs message name → name ∈ messages.map key) :
      InTurn key needs (messages ++ [message])

variable {needs : α → κ → Prop}

/-- Messages that need less are still in turn. -/
theorem InTurn.mono (inTurn : InTurn key needs messages) {needs' : α → κ → Prop}
    (fewer : ∀ message ∈ messages, ∀ name, needs' message name → needs message name) :
    InTurn key needs' messages := by
  induction inTurn with
  | nil => exact .nil
  | @snoc messages message before turn ih =>
      have isLast : message ∈ messages ++ [message] :=
        List.mem_append_right _ (List.mem_singleton_self _)
      exact (ih fun other otherMem => fewer other (List.mem_append_left _ otherMem)).snoc
        fun name needed => turn name (fewer message isLast name needed)

/-- Messages of which none needs one that is left out are still in turn without those. -/
theorem InTurn.filter (inTurn : InTurn key needs messages) {wanted : α → Bool}
    (among : ∀ message other, needs message (key other) → other ∈ messages →
      wanted other = true) :
    InTurn key needs (messages.filter wanted) := by
  induction inTurn with
  | nil => exact .nil
  | @snoc messages message before turn ih =>
      have earlier := ih fun message other needed otherMem =>
        among message other needed (List.mem_append_left _ otherMem)
      rw [List.filter_append]
      by_cases isWanted : wanted message = true
      · rw [List.filter_cons_of_pos isWanted]
        refine earlier.snoc fun name needed => ?_
        rcases List.mem_map.mp (turn name needed) with ⟨other, otherMem, rfl⟩
        have isOther := among message other needed (List.mem_append_left _ otherMem)
        exact List.mem_map_of_mem (List.mem_filter.mpr ⟨otherMem, isOther⟩)
      · rw [List.filter_cons_of_neg isWanted, List.filter_nil, List.append_nil]
        exact earlier

/-- What is first by one account is first by another, if equal entries agree in both. -/
theorem first_map_of_agree {δ : Type} {read : α → κ} {read' : β → κ} {say : α → δ}
    {say' : β → δ} {first : List α} {all : List β} (isFirst : first.map read <+: all.map read')
    (agree : ∀ left ∈ first, ∀ right ∈ all, read left = read' right → say left = say' right) :
    first.map say <+: all.map say' := by
  induction first generalizing all with
  | nil => exact List.nil_prefix
  | cons left first ih =>
      cases all with
      | nil => cases List.prefix_nil.mp isFirst
      | cons right all =>
          rcases List.cons_prefix_cons.mp isFirst with ⟨same, isFirst⟩
          refine List.cons_prefix_cons.mpr ⟨agree left List.mem_cons_self right
            List.mem_cons_self same, ih isFirst fun left leftMem right rightMem =>
              agree left (List.mem_cons_of_mem _ leftMem) right (List.mem_cons_of_mem _ rightMem)⟩

variable [DecidableEq κ]

/-- If every message needs those before it, the first keys are handled, in their order. -/
theorem InTurn.handledOf_first (inTurn : InTurn key needs messages) {names : List κ}
    (distinct : names.Nodup) (named : ∀ message ∈ messages, key message ∈ names)
    (needed : ∀ message ∈ messages, ∀ before after, names = before ++ key message :: after →
      ∀ name ∈ before, needs message name) :
    (handledOf key messages).map key <+: names := by
  induction inTurn with
  | nil => exact List.nil_prefix
  | @snoc messages message before turn ih =>
      have handled := ih (fun other otherMem => named other (List.mem_append_left _ otherMem))
        fun other otherMem => needed other (List.mem_append_left _ otherMem)
      have isLast : message ∈ messages ++ [message] :=
        List.mem_append_right _ (List.mem_singleton_self _)
      rw [handledOf_snoc, handleNew]
      split
      · exact handled
      · next unknown =>
          rcases handled with ⟨rest, isRest⟩
          have waiting : key message ∈ rest := by
            have among := named message isLast
            rw [← isRest] at among
            exact (List.mem_append.mp among).resolve_left unknown
          rcases List.append_of_mem waiting with ⟨skipped, after, rfl⟩
          -- a name that is skipped would have arrived, and so be handled
          have none : skipped = [] := by
            rw [List.eq_nil_iff_forall_not_mem]
            intro name nameMem
            have arrived := turn name (needed message isLast _ after
              (by rw [← isRest, List.append_assoc]) name (List.mem_append_right _ nameMem))
            rw [← isRest] at distinct
            exact (List.nodup_append.mp distinct).2.2 name (mem_map_handledOf.mpr arrived) name
              (List.mem_append_left _ nameMem) rfl
          subst none
          refine ⟨after, ?_⟩
          rw [← isRest, List.map_append]
          simp

end ProcessingCatalog
