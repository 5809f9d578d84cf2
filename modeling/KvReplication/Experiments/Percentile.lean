import KvReplication.Foundation.Quantiles
import Mathlib.Data.Rat.Floor

/-! # The percentiles of the summary

`_percentile` sorts, truncates a rank and interpolates between two neighbours, the upper
one clamped at the end of the list. On percentages it is the quantile of the sorted
list, in exact arithmetic.
-/

namespace KvReplication.Experiments

open Quantiles

/-- `sequence[index]`: a negative index counts from the end, and there may be nothing. -/
def subscript {α : Type} (sequence : List α) (index : Int) : Option α :=
  if 0 ≤ index then sequence[index.toNat]?
  else if 0 ≤ index + sequence.length then sequence[(index + sequence.length).toNat]?
  else none

/-- `int(number)` cuts off towards zero. -/
def truncate (number : ℚ) : Int := number.num.tdiv number.den

def sorted (values : List ℚ) : List ℚ := values.insertionSort (· ≤ ·)

namespace Percentile

def rank (count : Nat) (pct : ℚ) : ℚ := pct / 100 * (count - 1)

def lower (count : Nat) (pct : ℚ) : Int := truncate (rank count pct)

def upper (count : Nat) (pct : ℚ) : Int := min (lower count pct + 1) (count - 1)

end Percentile

open Percentile

/-- `_percentile`; nothing stands for an `IndexError`. -/
def percentile (values : List ℚ) (pct : ℚ) : Option ℚ :=
  if values = [] then some 0
  else
    let ordered := sorted values
    if ordered.length = 1 then subscript ordered 0
    else do
      let fraction := rank ordered.length pct - lower ordered.length pct
      let low ← subscript ordered (lower ordered.length pct)
      let high ← subscript ordered (upper ordered.length pct)
      return low + (high - low) * fraction

@[simp] theorem subscript_natCast {α : Type} (sequence : List α) (index : Nat) :
    subscript sequence (index : Int) = sequence[index]? :=
  if_pos (Int.natCast_nonneg index)

theorem truncate_of_nonneg {number : ℚ} (hnumber : 0 ≤ number) :
    truncate number = (⌊number⌋₊ : Int) := by
  rw [truncate, Int.tdiv_eq_ediv_of_nonneg (Rat.num_nonneg.mpr hnumber), ← Rat.floor_def',
    Int.natCast_floor_eq_floor hnumber]

section Indices

variable {count : Nat} {pct : ℚ}

theorem rank_eq (hcount : 1 ≤ count) :
    Percentile.rank count pct = pct / 100 * (count - 1 : ℕ) := by
  rw [Percentile.rank, Nat.cast_pred hcount]

theorem lower_eq (hcount : 1 ≤ count) (hpct : 0 ≤ pct) :
    lower count pct = (⌊pct / 100 * (count - 1 : ℕ)⌋₊ : Int) := by
  rw [lower, rank_eq hcount]
  exact truncate_of_nonneg (by positivity)

theorem upper_eq (hcount : 1 ≤ count) (hpct : 0 ≤ pct) :
    upper count pct = (min (⌊pct / 100 * (count - 1 : ℕ)⌋₊ + 1) (count - 1) : ℕ) := by
  rw [upper, lower_eq hcount hpct]
  push_cast [hcount]
  rfl

/-- A percentage of the last rank is none behind it. -/
theorem floor_rank_le (count : Nat) (hpercent : pct ≤ 100) :
    ⌊pct / 100 * (count - 1 : ℕ)⌋₊ ≤ count - 1 := by
  have hpart : pct / 100 ≤ 1 := (div_le_one (by norm_num)).mpr hpercent
  exact Nat.floor_le_of_le (mul_le_of_le_one_left (Nat.cast_nonneg _) hpart)

/-- Both indices are in the list. -/
theorem indices_in_range (hcount : 1 ≤ count) (hpct : 0 ≤ pct) (hpercent : pct ≤ 100) :
    0 ≤ lower count pct ∧ lower count pct ≤ upper count pct ∧ upper count pct < count := by
  have hfloor := floor_rank_le count hpercent
  rw [upper_eq hcount hpct, lower_eq hcount hpct]
  omega

end Indices

section Quantile

variable {values : List ℚ} {pct : ℚ}

theorem perm_sorted (values : List ℚ) : (sorted values).Perm values :=
  List.perm_insertionSort _ _

theorem sortedLE_sorted (values : List ℚ) : (sorted values).SortedLE :=
  List.sortedLE_insertionSort

theorem length_sorted (values : List ℚ) : (sorted values).length = values.length :=
  (perm_sorted values).length_eq

theorem sorted_ne_nil (hvalues : values ≠ []) : sorted values ≠ [] := by
  intro hnil
  exact hvalues (List.nil_perm.mp (hnil ▸ perm_sorted values))

/-- On a percentage no subscript fails, and the percentile is the quantile of that part. -/
theorem percentile_eq (hvalues : values ≠ []) (hpct : 0 ≤ pct) (hpercent : pct ≤ 100) :
    percentile values pct =
      some (quantile (sorted values) (sorted_ne_nil hvalues) (pct / 100)) := by
  have hlength : 1 ≤ (sorted values).length :=
    List.length_pos_of_ne_nil (sorted_ne_nil hvalues)
  rw [percentile, if_neg hvalues]
  dsimp only
  split
  · next hone =>
      -- the only value has rank 0, where the quantile stands for every part
      have hfirst := getElem?_ranked (sorted_ne_nil hvalues) 0
      rw [Nat.zero_min] at hfirst
      rw [quantile, hone, Nat.sub_self, Nat.cast_zero, mul_zero, interpolate_zero, ← hfirst]
      exact subscript_natCast _ 0
  · have hfloor := floor_rank_le (sorted values).length hpercent
    have hlow := getElem?_ranked (sorted_ne_nil hvalues)
      ⌊pct / 100 * ((sorted values).length - 1 : ℕ)⌋₊
    rw [Nat.min_eq_left hfloor] at hlow
    have hhigh := getElem?_ranked (sorted_ne_nil hvalues)
      (⌊pct / 100 * ((sorted values).length - 1 : ℕ)⌋₊ + 1)
    rw [lower_eq hlength hpct, upper_eq hlength hpct, rank_eq hlength, subscript_natCast,
      subscript_natCast, hlow, hhigh]
    simp only [Option.bind_eq_bind, Option.bind_some, Option.pure_def, Int.cast_natCast]
    rw [quantile, interpolate, AffineMap.lineMap_apply_ring']
    exact congrArg some (by ring)

theorem min?_eq (hvalues : values ≠ []) :
    values.min? = some (ranked (sorted values) (sorted_ne_nil hvalues) 0) := by
  refine List.min?_eq_some_iff.mpr ⟨?_, fun value hvalue => ?_⟩
  · exact (perm_sorted values).mem_iff.mp (ranked_mem _ 0)
  · obtain ⟨rank, rfl⟩ := exists_ranked (sorted_ne_nil hvalues)
      ((perm_sorted values).mem_iff.mpr hvalue)
    exact ranked_mono _ (sortedLE_sorted values) (Nat.zero_le rank)

theorem max?_eq (hvalues : values ≠ []) :
    values.max? = some (ranked (sorted values) (sorted_ne_nil hvalues)
      ((sorted values).length - 1)) := by
  refine List.max?_eq_some_iff.mpr ⟨?_, fun value hvalue => ?_⟩
  · exact (perm_sorted values).mem_iff.mp (ranked_mem _ _)
  · obtain ⟨rank, rfl⟩ := exists_ranked (sorted_ne_nil hvalues)
      ((perm_sorted values).mem_iff.mpr hvalue)
    exact ranked_le_last _ (sortedLE_sorted values) rank

/-- At `place` of the `length - 1` steps stands the value of that place. -/
theorem percentile_place (hmany : 2 ≤ values.length) {place : Nat}
    (hplace : place < values.length) :
    percentile values (100 * place / (values.length - 1)) = (sorted values)[place]? := by
  have hvalues : values ≠ [] := List.ne_nil_of_length_pos (by omega)
  have hsteps : ((values.length : ℚ) - 1) = (values.length - 1 : ℕ) :=
    (Nat.cast_pred (by omega)).symm
  have hpositive : (0 : ℚ) < (values.length - 1 : ℕ) := Nat.cast_pos.mpr (by omega)
  have hpart : 100 * (place : ℚ) / (values.length - 1 : ℕ) / 100 =
      place / (values.length - 1 : ℕ) := by
    field_simp
  have hle : (place : ℚ) ≤ (values.length - 1 : ℕ) := Nat.cast_le.mpr (by omega)
  rw [hsteps, percentile_eq hvalues, hpart, ← length_sorted values,
    quantile_div (sorted_ne_nil hvalues)]
  · rw [length_sorted]
    exact hplace
  · rw [length_sorted]
    exact hmany
  · positivity
  · rw [div_le_iff₀ hpositive]
    exact mul_le_mul_of_nonneg_left hle (by norm_num)

theorem quantile_percent_mono (hne : sorted values ≠ []) {larger : ℚ} (hpct : 0 ≤ pct)
    (hle : pct ≤ larger) :
    quantile (sorted values) hne (pct / 100) ≤ quantile (sorted values) hne (larger / 100) := by
  apply quantile_mono hne (sortedLE_sorted values)
  · positivity
  · gcongr

/-- The order of the values does not show. -/
theorem percentile_perm {other : List ℚ} (hperm : other.Perm values) (pct : ℚ) :
    percentile other pct = percentile values pct := by
  have hsorted : sorted other = sorted values := by
    apply List.Perm.eq_of_sortedLE (sortedLE_sorted other) (sortedLE_sorted values)
    exact ((perm_sorted other).trans hperm).trans (perm_sorted values).symm
  have hempty : other = [] ↔ values = [] :=
    ⟨fun hnil => List.nil_perm.mp (hnil ▸ hperm), fun hnil => List.perm_nil.mp (hnil ▸ hperm)⟩
  rw [percentile, percentile, hsorted]
  simp only [hempty]

end Quantile

/-- `_percentile` is a sound interpolated quantile: on percentages its indices are in the list,
it grows from the minimum to the maximum, passes through every value of the sorted list, and does
not depend on the order the values came in. -/
theorem percentile_sound (values : List ℚ) (hvalues : values ≠ []) :
    (∀ pct, 0 ≤ pct → pct ≤ 100 →
      0 ≤ lower values.length pct ∧ lower values.length pct ≤ upper values.length pct ∧
        upper values.length pct < values.length) ∧
    (∀ pct larger, 0 ≤ pct → pct ≤ larger → larger ≤ 100 →
      ∃ least low high greatest,
        values.min? = some least ∧ percentile values pct = some low ∧
        percentile values larger = some high ∧ values.max? = some greatest ∧
        least ≤ low ∧ low ≤ high ∧ high ≤ greatest) ∧
    percentile values 0 = values.min? ∧
    percentile values 100 = values.max? ∧
    (∀ other : List ℚ, other.Perm values → ∀ pct,
      percentile other pct = percentile values pct) ∧
    ∀ place : Nat, 2 ≤ values.length → place < values.length →
      percentile values (100 * place / (values.length - 1)) =
        (sorted values)[place]? := by
  have hne := sorted_ne_nil hvalues
  have hzero : percentile values 0 = values.min? := by
    rw [percentile_eq hvalues le_rfl (by norm_num), min?_eq hvalues, zero_div, quantile_zero]
  have hhundred : percentile values 100 = values.max? := by
    rw [percentile_eq hvalues (by norm_num) le_rfl, max?_eq hvalues, div_self (by norm_num),
      quantile_one]
  refine ⟨fun pct hpct hpercent => ?_, fun pct larger hpct hle hlarger => ?_, hzero, hhundred,
    fun other hperm pct => percentile_perm hperm pct, fun place hmany hplace => ?_⟩
  · exact indices_in_range (List.length_pos_of_ne_nil hvalues) hpct hpercent
  · refine ⟨quantile (sorted values) hne (0 / 100), quantile (sorted values) hne (pct / 100),
      quantile (sorted values) hne (larger / 100), quantile (sorted values) hne (100 / 100),
      ?_, ?_, ?_, ?_, ?_, ?_, ?_⟩
    · rw [← hzero, percentile_eq hvalues le_rfl (by norm_num)]
    · exact percentile_eq hvalues hpct (hle.trans hlarger)
    · exact percentile_eq hvalues (hpct.trans hle) hlarger
    · rw [← hhundred, percentile_eq hvalues (by norm_num) le_rfl]
    · exact quantile_percent_mono hne le_rfl hpct
    · exact quantile_percent_mono hne hpct hle
    · exact quantile_percent_mono hne (hpct.trans hle) hlarger
  · exact percentile_place hmany hplace

/-- Of three gaps the p95 lies between the two largest, and the p50 is the one in the middle. -/
theorem gaps_percentiles :
    percentile [30, 10, 20] 95 = some 29 ∧
    percentile [30, 10, 20] (100 * (1 : ℕ) / (([30, 10, 20] : List ℚ).length - 1)) =
      (sorted [30, 10, 20])[1]? :=
  ⟨by decide +kernel,
    (percentile_sound [30, 10, 20] (by simp)).2.2.2.2.2 1 (by decide) (by decide)⟩

end KvReplication.Experiments
