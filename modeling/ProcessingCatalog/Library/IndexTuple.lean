import Mathlib.Data.List.Forall2
import Mathlib.Order.Nat

/-!
# The size of an entry of a btree

An entry has a header, which is larger when a value is null, and after it the
values, each at its alignment. A text is preceded by its length: in one byte, at
any address, when it is short, else in four bytes that are aligned. A text that
is stored compressed has a long header as well. Three entries must have room on a
page, so that longer ones are refused.
-/

namespace IndexTuple

inductive Alignment where
  | char
  | int
  | double
  deriving DecidableEq

namespace Alignment

def bytes : Alignment → ℕ
  | .char => 1
  | .int => 4
  | .double => 8

/-- The next address of an alignment. -/
def up (alignment : Alignment) (offset : ℕ) : ℕ :=
  (offset + alignment.bytes - 1) / alignment.bytes * alignment.bytes

variable {alignment : Alignment} {offset offset' : ℕ}

theorem le_up (alignment : Alignment) (offset : ℕ) : offset ≤ alignment.up offset := by
  cases alignment <;> simp only [up, bytes] <;> omega

theorem up_lt (alignment : Alignment) (offset : ℕ) :
    alignment.up offset < offset + alignment.bytes := by
  cases alignment <;> simp only [up, bytes] <;> omega

theorem up_mono (le : offset ≤ offset') : alignment.up offset ≤ alignment.up offset' := by
  cases alignment <;> simp only [up, bytes] <;> omega

/-- A limit that is aligned is kept by what is aligned. -/
theorem up_le_iff {limit : ℕ} (aligned : limit % alignment.bytes = 0) :
    alignment.up offset ≤ limit ↔ offset ≤ limit := by
  cases alignment <;> simp only [up, bytes] at aligned ⊢ <;> omega

end Alignment

/-- A value of an entry, by what it takes of the room. -/
inductive Attribute where
  | null
  | fixed (alignment : Alignment) (size : ℕ)
  | varying (bytes : ℕ)
  | compressed (bytes : ℕ)

/-- The longest text that has the short header. -/
def maxShort : ℕ := 126

namespace Attribute

def isNull : Attribute → Bool
  | .null => true
  | _ => false

/-- Where a value ends that is put after what ends at an offset. -/
def place (offset : ℕ) : Attribute → ℕ
  | .null => offset
  | .fixed alignment size => alignment.up offset + size
  | .varying bytes =>
      if bytes ≤ maxShort then offset + 1 + bytes else Alignment.int.up offset + 4 + bytes
  | .compressed bytes => Alignment.int.up offset + 4 + bytes

variable {value : Attribute} {offset offset' : ℕ}

theorem le_place (value : Attribute) (offset : ℕ) : offset ≤ value.place offset := by
  cases value with
  | null => exact le_rfl
  | fixed alignment size => exact (alignment.le_up offset).trans (Nat.le_add_right _ _)
  | varying bytes =>
      have aligned := Alignment.int.le_up offset
      simp only [place]
      split <;> omega
  | compressed bytes =>
      have aligned := Alignment.int.le_up offset
      simp only [place]
      omega

theorem place_mono (value : Attribute) (le : offset ≤ offset') :
    value.place offset ≤ value.place offset' := by
  cases value with
  | null => exact le
  | fixed alignment size => exact Nat.add_le_add_right (Alignment.up_mono le) _
  | varying bytes =>
      have aligned : Alignment.int.up offset ≤ Alignment.int.up offset' := Alignment.up_mono le
      simp only [place]
      split <;> omega
  | compressed bytes =>
      have aligned : Alignment.int.up offset ≤ Alignment.int.up offset' := Alignment.up_mono le
      simp only [place]
      omega

/-- A value never takes more room than another. -/
structure Within (inner outer : Attribute) : Prop where
  isNull : inner.isNull = outer.isNull
  place_le : ∀ offset, inner.place offset ≤ outer.place offset

theorem Within.refl (value : Attribute) : value.Within value :=
  ⟨rfl, fun _ => le_rfl⟩

/-- Compressing a text pays when it saves more than what the long header and its padding take. -/
theorem within_compressed {bytes original : ℕ} (saves : bytes + 6 ≤ original) :
    (compressed bytes).Within (varying original) := by
  refine ⟨rfl, fun offset => ?_⟩
  have aligned := Alignment.int.up_lt offset
  simp only [Alignment.bytes] at aligned
  simp only [place]
  split <;> omega

end Attribute

open Attribute

variable {values others : List Attribute}

/-- The bytes of the values. -/
def dataSize (values : List Attribute) : ℕ :=
  values.foldl place 0

/-- A row with a null has a bitmap that tells where. -/
def headerSize (values : List Attribute) : ℕ :=
  if values.any isNull then 16 else 8

def size (values : List Attribute) : ℕ :=
  Alignment.double.up (headerSize values + dataSize values)

/-- The largest entry of a page of 8192 bytes. -/
def maxSize : ℕ := 2704

def Fits (values : List Attribute) : Prop :=
  size values ≤ maxSize

instance (values : List Attribute) : Decidable (Fits values) :=
  inferInstanceAs (Decidable (_ ≤ _))

theorem fits_iff : Fits values ↔ headerSize values + dataSize values ≤ maxSize :=
  Alignment.up_le_iff (by decide)

theorem foldl_place_mono (values : List Attribute) {offset offset' : ℕ}
    (le : offset ≤ offset') : values.foldl place offset ≤ values.foldl place offset' := by
  induction values generalizing offset offset' with
  | nil => exact le
  | cons value values ih => exact ih (value.place_mono le)

theorem le_foldl_place (values : List Attribute) (offset : ℕ) :
    offset ≤ values.foldl place offset := by
  induction values generalizing offset with
  | nil => exact le_rfl
  | cons value values ih => exact (value.le_place offset).trans (ih _)

theorem dataSize_append (values others : List Attribute) :
    dataSize (values ++ others) = others.foldl place (dataSize values) :=
  List.foldl_append

/-- The first values of an entry that fits fit. -/
theorem Fits.of_append (fits : Fits (values ++ others)) : Fits values := by
  rw [fits_iff] at fits ⊢
  have data : dataSize values ≤ dataSize (values ++ others) := by
    rw [dataSize_append]
    exact le_foldl_place others _
  have header : headerSize values ≤ headerSize (values ++ others) := by
    simp only [headerSize, List.any_append]
    cases values.any isNull <;> cases others.any isNull <;> decide
  omega

/-- A null takes no more room than values of eight bytes. -/
theorem Fits.with_null (fits : Fits (values ++ others))
    (room : ∀ offset, offset + 8 ≤ others.foldl place offset) : Fits (values ++ [.null]) := by
  rw [fits_iff] at fits ⊢
  have data := room (dataSize values)
  have same : dataSize (values ++ [.null]) = dataSize values := dataSize_append _ _
  have low : 8 ≤ headerSize (values ++ others) := by
    unfold headerSize
    split <;> omega
  have high : headerSize (values ++ [.null]) ≤ 16 := by
    unfold headerSize
    split <;> omega
  rw [dataSize_append values others] at fits
  omega

theorem foldl_place_le (within : List.Forall₂ Within values others) (offset : ℕ) :
    values.foldl place offset ≤ others.foldl place offset := by
  induction within generalizing offset with
  | nil => exact le_rfl
  | cons first rest ih => exact (foldl_place_mono _ (first.place_le offset)).trans (ih _)

theorem any_isNull_congr (within : List.Forall₂ Within values others) :
    values.any isNull = others.any isNull := by
  induction within with
  | nil => rfl
  | cons first rest ih => rw [List.any_cons, List.any_cons, first.isNull, ih]

/-- An entry fits whose values take no more room than those of an entry that fits. -/
theorem Fits.of_within (within : List.Forall₂ Within values others) (fits : Fits others) :
    Fits values := by
  have header : headerSize values = headerSize others := by
    simp only [headerSize, any_isNull_congr within]
  rw [fits_iff] at fits ⊢
  have data : dataSize values ≤ dataSize others := foldl_place_le within 0
  omega

/-- What the header of a text takes at the start of an entry. -/
def textHeader (bytes : ℕ) : ℕ :=
  if bytes ≤ maxShort then 1 else 4

theorem textHeader_le (bytes : ℕ) : textHeader bytes ≤ 4 := by
  unfold textHeader
  split <;> omega

/-- When the first of two texts leaves room for any short one. -/
theorem fits_pair_iff {first second : ℕ} (bounded : first ≤ 2048) :
    Fits [.varying first, .varying second] ↔
      Alignment.int.up (first + textHeader first) + second ≤ 2692 := by
  have padding := Alignment.int.up_lt (first + textHeader first)
  have aligned := Alignment.int.le_up (first + textHeader first)
  have atStart : place 0 (.varying first) = first + textHeader first := by
    simp only [place, textHeader, Alignment.up, Alignment.bytes]
    split <;> omega
  have small := textHeader_le first
  have header : headerSize [.varying first, .varying second] = 8 := rfl
  rw [fits_iff, header, dataSize, List.foldl_cons, List.foldl_cons, List.foldl_nil, atStart]
  simp only [Alignment.bytes, maxSize] at padding ⊢
  by_cases short : second ≤ maxShort
  · simp only [place, if_pos short]
    simp only [maxShort] at short
    omega
  · simp only [place, if_neg short]
    omega

theorem fits_varying {bytes : ℕ} (bounded : bytes ≤ 2048) : Fits [.varying bytes] := by
  have pair : Fits ([.varying bytes] ++ [.varying 0]) := by
    have padding := Alignment.int.up_lt (bytes + textHeader bytes)
    have header := textHeader_le bytes
    refine (fits_pair_iff bounded).mpr ?_
    simp only [Alignment.bytes] at padding
    omega
  exact pair.of_append

end IndexTuple
