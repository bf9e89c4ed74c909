import Mathlib.Data.List.Perm.Subperm
import Mathlib.Order.Defs.Unbundled
import Mathlib.Tactic.Common

/-!
# Pages of a listing that grows

A listing is kept in a strict order of its keys and cut into pages of one size.
A reader takes page after page and stops at the first that is not full; between
two of its reads the listing may gain keys, anywhere in the order, and loses
none.

The position of a key is the number of keys before it. It never falls, so a key
the reader has not met lies on a page still ahead.
-/

namespace Paging

section Positions

variable {κ : Type} (before : κ → κ → Prop) [DecidableRel before]

/-- How many keys of a listing come before a key. -/
def position (keys : List κ) (key : κ) : ℕ :=
  keys.countP fun other => before other key

variable {before} {keys keys' : List κ} {key : κ}

/-- A key keeps its position or moves further back when keys are added. -/
theorem position_le_position (nodup : keys.Nodup) (kept : keys ⊆ keys') :
    position before keys key ≤ position before keys' key :=
  (nodup.subperm kept).countP_le _

variable [Std.Asymm before]

omit [DecidableRel before] in
theorem nodup_of_sorted (sorted : keys.Pairwise before) : keys.Nodup :=
  sorted.imp fun {left right} (less : before left right) (same : left = right) =>
    Std.Asymm.asymm _ _ less (by rwa [same] at less ⊢)

omit [DecidableRel before] in
/-- A sorted listing is known by what it holds. -/
theorem eq_of_sorted (sorted : keys.Pairwise before) (sorted' : keys'.Pairwise before)
    (subset : keys ⊆ keys') (subset' : keys' ⊆ keys) : keys = keys' := by
  have perm : keys.Perm keys' :=
    (List.perm_ext_iff_of_nodup (nodup_of_sorted sorted) (nodup_of_sorted sorted')).mpr
      fun key => ⟨fun keyMem => subset keyMem, fun keyMem => subset' keyMem⟩
  exact perm.eq_of_pairwise (fun left right _ _ less greater =>
    absurd greater (Std.Asymm.asymm left right less)) sorted sorted'

/-- The first key of a listing has none before it. -/
theorem position_head (sorted : (key :: keys).Pairwise before) :
    position before (key :: keys) key = 0 := by
  refine List.countP_eq_zero.mpr fun other otherMem => ?_
  rw [decide_eq_true_eq]
  rcases List.mem_cons.mp otherMem with rfl | later
  · exact fun less => Std.Asymm.asymm _ _ less less
  · exact Std.Asymm.asymm _ _ (List.rel_of_pairwise_cons sorted later)

omit [Std.Asymm before] in
theorem position_tail {first : κ} (sorted : (first :: keys).Pairwise before) (keyMem : key ∈ keys) :
    position before (first :: keys) key = position before keys key + 1 :=
  List.countP_cons_of_pos (by simpa using List.rel_of_pairwise_cons sorted keyMem)

/-- A key lies in the stretch of a listing that its position falls in. -/
theorem mem_take_drop_iff (sorted : keys.Pairwise before) (keyMem : key ∈ keys)
    (offset limit : ℕ) :
    key ∈ (keys.drop offset).take limit ↔
      offset ≤ position before keys key ∧ position before keys key < offset + limit := by
  induction keys generalizing offset limit with
  | nil => cases keyMem
  | cons first rest ih =>
      rcases List.mem_cons.mp keyMem with rfl | later
      · have fresh : key ∉ rest := (List.nodup_cons.mp (nodup_of_sorted sorted)).1
        rw [position_head sorted]
        cases offset with
        | zero => cases limit <;> simp
        | succ offset =>
            refine iff_of_false (fun onPage => ?_) (by omega)
            exact fresh (List.mem_of_mem_drop (List.mem_of_mem_take onPage))
      · have different : key ≠ first := by
          rintro rfl
          exact (List.nodup_cons.mp (nodup_of_sorted sorted)).1 later
        rw [position_tail sorted later]
        have inRest := ih sorted.of_cons later
        cases offset with
        | zero =>
            cases limit with
            | zero => simp
            | succ limit =>
                have first := inRest 0 limit
                simp only [List.drop_zero, List.take_succ_cons, List.mem_cons, different,
                  false_or] at first ⊢
                rw [first]
                omega
        | succ offset =>
            rw [List.drop_succ_cons, inRest offset limit]
            omega

theorem position_lt_length (keyMem : key ∈ keys) : position before keys key < keys.length := by
  refine Nat.lt_of_le_of_ne List.countP_le_length fun all => ?_
  have less := List.countP_eq_length.mp all key keyMem
  rw [decide_eq_true_eq] at less
  exact Std.Asymm.asymm _ _ less less

end Positions

section Reader

variable {S α κ : Type}

/-- Page `number` of a listing, counted from 0. -/
def page (size number : ℕ) (rows : List α) : List α :=
  (rows.drop (number * size)).take size

/-- A reader that has taken these pages of a listing, from a first state on, while the state moved
between its reads. -/
inductive Reads (moves : S → S → Prop) (listing : S → List α) (size : ℕ) (first : S) :
    List (List α) → S → Prop where
  | start : Reads moves listing size first [] first
  | move {pages : List (List α)} {state next : S}
      (reads : Reads moves listing size first pages state) (moved : moves state next) :
      Reads moves listing size first pages next
  | read {pages : List (List α)} {state : S} (reads : Reads moves listing size first pages state)
      (full : ∀ page ∈ pages, size ≤ page.length) :
      Reads moves listing size first (pages ++ [page size pages.length (listing state)]) state

/-- A listing in the order of its keys, none of which is ever lost. -/
structure Grows (moves : S → S → Prop) (listing : S → List α) (key : α → κ)
    (before : κ → κ → Prop) (invariant : S → Prop) : Prop where
  sorted : ∀ {state}, invariant state → ((listing state).map key).Pairwise before
  moved : ∀ {state next}, invariant state → moves state next →
    invariant next ∧ (listing state).map key ⊆ (listing next).map key

variable {moves : S → S → Prop} {listing : S → List α} {key : α → κ} {before : κ → κ → Prop}
  {invariant : S → Prop} {size : ℕ} {first state : S} {pages : List (List α)}

theorem map_page (number : ℕ) (rows : List α) :
    (page size number rows).map key = ((rows.map key).drop (number * size)).take size := by
  rw [page, List.map_take, List.map_drop]

theorem length_page (number : ℕ) (rows : List α) :
    (page size number rows).length = min size (rows.length - number * size) := by
  rw [page, List.length_take, List.length_drop]

theorem Reads.holds (grows : Grows moves listing key before invariant)
    (holds : invariant first) (reads : Reads moves listing size first pages state) :
    invariant state := by
  induction reads with
  | start => exact holds
  | move _ moved ih => exact (grows.moved ih moved).1
  | read _ _ ih => exact ih

theorem Reads.kept (grows : Grows moves listing key before invariant) (holds : invariant first)
    (reads : Reads moves listing size first pages state) :
    (listing first).map key ⊆ (listing state).map key := by
  induction reads with
  | start => exact List.Subset.refl _
  | move reads moved ih =>
      exact List.Subset.trans ih (grows.moved (reads.holds grows holds) moved).2
  | read _ _ ih => exact ih

/-- What the reader has met is still listed. -/
theorem Reads.listed (grows : Grows moves listing key before invariant) (holds : invariant first)
    (reads : Reads moves listing size first pages state) {met : κ}
    (onPage : ∃ page ∈ pages, met ∈ page.map key) : met ∈ (listing state).map key := by
  induction reads with
  | start => simp at onPage
  | move reads moved ih => exact (grows.moved (reads.holds grows holds) moved).2 (ih onPage)
  | read _ _ ih =>
      rcases onPage with ⟨taken, takenMem, met⟩
      rcases List.mem_append.mp takenMem with old | new
      · exact ih ⟨taken, old, met⟩
      · rw [List.mem_singleton.mp new, map_page] at met
        exact List.mem_of_mem_drop (List.mem_of_mem_take met)

variable [DecidableRel before] [Std.Asymm before]

/-- A key that was there at first is on a page, or every page is full and it lies behind them. -/
theorem Reads.seen_or_ahead (grows : Grows moves listing key before invariant)
    (holds : invariant first) (reads : Reads moves listing size first pages state) {sought : κ}
    (there : sought ∈ (listing first).map key) :
    (∃ page ∈ pages, sought ∈ page.map key) ∨
      (∀ page ∈ pages, size ≤ page.length) ∧
        pages.length * size ≤ position before ((listing state).map key) sought := by
  induction reads with
  | start => exact .inr ⟨by simp, by simp⟩
  | move reads moved ih =>
      have present := reads.holds grows holds
      refine ih.imp_right fun ahead => ⟨ahead.1, Nat.le_trans ahead.2 ?_⟩
      exact position_le_position (nodup_of_sorted (grows.sorted present))
        (grows.moved present moved).2
  | @read pages state reads full ih =>
      have sorted := grows.sorted (reads.holds grows holds)
      have still := reads.kept grows holds there
      rcases ih with ⟨page, pageMem, onPage⟩ | ⟨_, ahead⟩
      · exact .inl ⟨page, List.mem_append_left _ pageMem, onPage⟩
      by_cases here : position before ((listing state).map key) sought < pages.length * size + size
      · refine .inl ⟨_, List.mem_append_right _ List.mem_cons_self, ?_⟩
        rw [map_page, mem_take_drop_iff sorted still]
        exact ⟨ahead, here⟩
      · have within : position before ((listing state).map key) sought <
            ((listing state).map key).length := position_lt_length still
        rw [List.length_map] at within
        refine .inr ⟨?_, ?_⟩
        · intro taken takenMem
          rcases List.mem_append.mp takenMem with old | new
          · exact full taken old
          · rw [List.mem_singleton.mp new, length_page]
            omega
        · rw [List.length_append, List.length_singleton, Nat.succ_mul]
          omega

/-- A reader that met a short page has met every key that was there at first. -/
theorem Reads.seen (grows : Grows moves listing key before invariant) (holds : invariant first)
    (reads : Reads moves listing size first pages state)
    (stopped : ∃ page ∈ pages, page.length < size) {sought : κ}
    (there : sought ∈ (listing first).map key) : ∃ page ∈ pages, sought ∈ page.map key := by
  rcases reads.seen_or_ahead grows holds there with seen | ⟨full, _⟩
  · exact seen
  · rcases stopped with ⟨page, pageMem, short⟩
    exact absurd (full page pageMem) (Nat.not_le_of_lt short)

omit [DecidableRel before] in
/-- A reader goes on only while the listing has that many rows. -/
theorem Reads.length_le (grows : Grows moves listing key before invariant)
    (holds : invariant first) (reads : Reads moves listing size first pages state) :
    (pages.length - 1) * size ≤ (listing state).length ∧
      ((∀ page ∈ pages, size ≤ page.length) → pages.length * size ≤ (listing state).length) := by
  induction reads with
  | start => simp
  | move reads moved ih =>
      have present := reads.holds grows holds
      have longer := ((nodup_of_sorted (grows.sorted present)).subperm
        (grows.moved present moved).2).length_le
      rw [List.length_map, List.length_map] at longer
      exact ⟨Nat.le_trans ih.1 longer, fun full => Nat.le_trans (ih.2 full) longer⟩
  | @read pages state reads full ih =>
      have enough := ih.2 full
      rw [List.length_append, List.length_singleton, Nat.add_sub_cancel]
      refine ⟨enough, fun every => ?_⟩
      have last := every _ (List.mem_append_right _ List.mem_cons_self)
      rw [length_page] at last
      rw [Nat.succ_mul]
      omega

omit [DecidableRel before] [Std.Asymm before] in
/-- While no key is added, the pages are the listing in its order, as far as they reach. -/
theorem Reads.exact (grows : Grows moves listing key before invariant) (holds : invariant first)
    (still : ∀ {state next}, invariant state → moves state next →
      (listing next).map key = (listing state).map key)
    (reads : Reads moves listing size first pages state) :
    (listing state).map key = (listing first).map key ∧
      pages.flatten.map key = ((listing first).map key).take (pages.length * size) ∧
      ((∀ page ∈ pages, size ≤ page.length) ∨
        (listing first).length ≤ pages.length * size) := by
  induction reads with
  | start => simp
  | move reads moved ih =>
      exact ⟨(still (reads.holds grows holds) moved).trans ih.1, ih.2⟩
  | @read pages state reads full ih =>
      rcases ih with ⟨same, taken, _⟩
      have sameLength := congrArg List.length same
      rw [List.length_map, List.length_map] at sameLength
      refine ⟨same, ?_, ?_⟩
      · rw [List.flatten_append, List.map_append, taken, List.flatten_singleton, map_page, same,
          List.length_append, List.length_singleton, Nat.succ_mul, List.take_add]
      · rw [List.length_append, List.length_singleton, Nat.succ_mul]
        by_cases enough : size ≤ (page size pages.length (listing state)).length
        · left
          intro taken takenMem
          rcases List.mem_append.mp takenMem with old | new
          · exact full taken old
          · rw [List.mem_singleton.mp new]
            exact enough
        · right
          rw [length_page] at enough
          omega

end Reader

end Paging
