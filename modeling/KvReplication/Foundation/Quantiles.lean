import Mathlib.Algebra.Order.Floor.Semiring
import Mathlib.Data.List.Sort
import Mathlib.LinearAlgebra.AffineSpace.Ordered

/-! # Interpolated quantiles

A sequence of values is continued linearly between its places. If it grows then so
does its continuation, also from one segment to another. The values of a sorted list
are such a sequence, and its quantiles are the continuation over its length.
-/

namespace Quantiles

variable {α : Type*} [Field α] [LinearOrder α] [IsStrictOrderedRing α] [FloorSemiring α]

/-- The value at a place between the values at its two neighbours. -/
def interpolate (values : ℕ → α) (place : α) : α :=
  AffineMap.lineMap (values ⌊place⌋₊) (values (⌊place⌋₊ + 1)) (place - ⌊place⌋₊)

theorem interpolate_natCast (values : ℕ → α) (place : ℕ) :
    interpolate values place = values place := by
  rw [interpolate, Nat.floor_natCast, sub_self, AffineMap.lineMap_apply_zero]

theorem interpolate_zero (values : ℕ → α) : interpolate values 0 = values 0 := by
  rw [← Nat.cast_zero, interpolate_natCast]

variable {values : ℕ → α} {place later : α}

theorem values_floor_le (hmono : Monotone values) (hplace : 0 ≤ place) :
    values ⌊place⌋₊ ≤ interpolate values place := by
  have hfraction : 0 ≤ place - ⌊place⌋₊ := sub_nonneg.mpr (Nat.floor_le hplace)
  calc values ⌊place⌋₊
      = AffineMap.lineMap (values ⌊place⌋₊) (values ⌊place⌋₊) (place - ⌊place⌋₊) := by
        rw [AffineMap.lineMap_same_apply]
    _ ≤ interpolate values place := lineMap_mono_right (hmono (Nat.le_succ _)) hfraction

theorem interpolate_le_values (hmono : Monotone values) :
    interpolate values place ≤ values (⌊place⌋₊ + 1) := by
  have hfraction : place - ⌊place⌋₊ ≤ 1 :=
    sub_le_iff_le_add'.mpr (Nat.lt_floor_add_one place).le
  calc interpolate values place
      ≤ AffineMap.lineMap (values (⌊place⌋₊ + 1)) (values (⌊place⌋₊ + 1)) (place - ⌊place⌋₊) :=
        lineMap_mono_left (hmono (Nat.le_succ _)) hfraction
    _ = values (⌊place⌋₊ + 1) := AffineMap.lineMap_same_apply _ _

/-- The continuation of a growing sequence grows. -/
theorem interpolate_mono (hmono : Monotone values) (hplace : 0 ≤ place) (hle : place ≤ later) :
    interpolate values place ≤ interpolate values later := by
  rcases (Nat.floor_mono hle).eq_or_lt with hsame | hless
  · -- both places are on one segment, which does not fall
    have hfraction : place - ⌊place⌋₊ ≤ later - ⌊place⌋₊ := sub_le_sub_right hle _
    rw [interpolate, interpolate, ← hsame]
    exact AffineMap.lineMap_mono (hmono (Nat.le_succ _)) hfraction
  · -- the segment of the first place ends before that of the other one starts
    calc interpolate values place
        ≤ values (⌊place⌋₊ + 1) := interpolate_le_values hmono
      _ ≤ values ⌊later⌋₊ := hmono hless
      _ ≤ interpolate values later := values_floor_le hmono (hplace.trans hle)

section Ranked

variable {β : Type*}

/-- The value of a rank, the last one for ranks beyond. -/
def ranked (ordered : List β) (hne : ordered ≠ []) (rank : ℕ) : β :=
  ordered.get ⟨min rank (ordered.length - 1), by
    have hlength := List.length_pos_of_ne_nil hne
    omega⟩

theorem getElem?_ranked {ordered : List β} (hne : ordered ≠ []) (rank : ℕ) :
    ordered[min rank (ordered.length - 1)]? = some (ranked ordered hne rank) :=
  List.getElem?_eq_getElem _

theorem ranked_mem {ordered : List β} (hne : ordered ≠ []) (rank : ℕ) :
    ranked ordered hne rank ∈ ordered :=
  List.get_mem _ _

theorem exists_ranked {ordered : List β} (hne : ordered ≠ []) {value : β}
    (hvalue : value ∈ ordered) : ∃ rank, ranked ordered hne rank = value := by
  obtain ⟨place, rfl⟩ := List.get_of_mem hvalue
  have hplace : min place.val (ordered.length - 1) = place.val := by omega
  exact ⟨place, congrArg ordered.get (Fin.ext hplace)⟩

/-- A higher rank in a sorted list has no lower value. -/
theorem ranked_mono [Preorder β] {ordered : List β} (hne : ordered ≠ [])
    (hsorted : ordered.SortedLE) : Monotone (ranked ordered hne) := by
  intro rank higher hle
  exact hsorted.monotone_get (Fin.mk_le_mk.mpr (min_le_min_right _ hle))

theorem ranked_le_last [Preorder β] {ordered : List β} (hne : ordered ≠ [])
    (hsorted : ordered.SortedLE) (rank : ℕ) :
    ranked ordered hne rank ≤ ranked ordered hne (ordered.length - 1) := by
  apply hsorted.monotone_get
  apply Fin.mk_le_mk.mpr
  rw [Nat.min_self]
  exact min_le_right _ _

end Ranked

variable {ordered : List α}

/-- The value below which the given part of a sorted list lies. -/
def quantile (ordered : List α) (hne : ordered ≠ []) (part : α) : α :=
  interpolate (ranked ordered hne) (part * (ordered.length - 1 : ℕ))

theorem quantile_mono (hne : ordered ≠ []) (hsorted : ordered.SortedLE) {part larger : α}
    (hpart : 0 ≤ part) (hle : part ≤ larger) :
    quantile ordered hne part ≤ quantile ordered hne larger := by
  apply interpolate_mono (ranked_mono hne hsorted)
  · exact mul_nonneg hpart (Nat.cast_nonneg _)
  · exact mul_le_mul_of_nonneg_right hle (Nat.cast_nonneg _)

/-- The quantile of an evenly spaced part is a value of the list. -/
theorem quantile_div (hne : ordered ≠ []) {rank : ℕ} (hrank : rank < ordered.length)
    (hmany : 1 < ordered.length) :
    ordered[rank]? = some (quantile ordered hne (rank / (ordered.length - 1 : ℕ))) := by
  have hnonzero : ((ordered.length - 1 : ℕ) : α) ≠ 0 := Nat.cast_ne_zero.mpr (by omega)
  rw [quantile, div_mul_cancel₀ _ hnonzero, interpolate_natCast, ← getElem?_ranked,
    Nat.min_eq_left (by omega)]

theorem quantile_zero (hne : ordered ≠ []) :
    quantile ordered hne 0 = ranked ordered hne 0 := by
  rw [quantile, zero_mul, interpolate_zero]

theorem quantile_one (hne : ordered ≠ []) :
    quantile ordered hne 1 = ranked ordered hne (ordered.length - 1) := by
  rw [quantile, one_mul, interpolate_natCast]

end Quantiles
