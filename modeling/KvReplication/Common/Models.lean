import KvReplication.Foundation.LastWriterWins
import Mathlib.Algebra.Order.Ring.Rat
import Mathlib.Data.String.Basic

/-! # Versioned values

A stored value carries the timestamp and node id that decide conflicts between
concurrent writes. Timestamps are Python floats, so the order of versions has to
be read off the float comparisons: `!=` and `>` both involve NaN.
-/

namespace KvReplication

/-- A Python float as its comparisons see it. The two signed zeros compare equal
and are one value here. -/
inductive PyFloat where
  | nan
  | negInf
  | finite (value : ℚ)
  | posInf
deriving DecidableEq

namespace PyFloat

/-- `self != other`: NaN differs from everything, itself included. -/
def ne : PyFloat → PyFloat → Bool
  | nan, _ => true
  | _, nan => true
  | self, other => decide (self ≠ other)

/-- `self > other`: false as soon as one side is NaN. -/
def gt : PyFloat → PyFloat → Bool
  | finite self, finite other => decide (other < self)
  | finite _, negInf => true
  | posInf, finite _ => true
  | posInf, negInf => true
  | _, _ => false

theorem ne_eq_false_iff {left right : PyFloat} :
    left.ne right = false ↔ left = right ∧ left ≠ nan := by
  cases left <;> cases right <;> simp [ne]

theorem gt_irrefl (time : PyFloat) : time.gt time = false := by
  cases time <;> simp [gt]

theorem gt_trans {first second third : PyFloat} (hfirst : first.gt second = true)
    (hsecond : second.gt third = true) : first.gt third = true := by
  cases first <;> cases second <;> cases third <;> simp_all [gt]
  exact lt_trans hsecond hfirst

theorem gt_or_eq_or_gt {left right : PyFloat} (hleft : left ≠ nan) (hright : right ≠ nan) :
    left.gt right = true ∨ left = right ∨ right.gt left = true := by
  cases left with
  | nan => exact absurd rfl hleft
  | negInf => cases right <;> simp_all [gt]
  | posInf => cases right <;> simp_all [gt]
  | finite value =>
      cases right with
      | nan => exact absurd rfl hright
      | negInf => simp [gt]
      | posInf => simp [gt]
      | finite other =>
          rcases lt_trichotomy other value with hlt | heq | hlt
          · exact Or.inl (by simpa [gt] using hlt)
          · exact Or.inr (Or.inl (congrArg finite heq.symm))
          · exact Or.inr (Or.inr (by simpa [gt] using hlt))

theorem not_nan_of_gt {left right : PyFloat} (hgt : left.gt right = true) :
    left ≠ nan ∧ right ≠ nan := by
  cases left <;> cases right <;> simp_all [gt]

end PyFloat

/-- A stored value plus the metadata that resolves conflicts between writes. -/
@[ext]
structure VersionedValue (V : Type) where
  value : V
  timestamp : PyFloat
  nodeId : String
deriving DecidableEq

namespace VersionedValue

variable {V : Type}

/-- Higher timestamp wins; on exactly equal timestamps the higher node id does. -/
def isNewerThan (self other : VersionedValue V) : Bool :=
  if self.timestamp.ne other.timestamp then
    self.timestamp.gt other.timestamp
  else
    decide (other.nodeId < self.nodeId)

/-- `isNewerThan` as a relation. -/
def Newer (self other : VersionedValue V) : Prop := self.isNewerThan other = true

instance : DecidableRel (Newer (V := V)) := fun self other =>
  inferInstanceAs (Decidable (self.isNewerThan other = true))

/-- The two versions carry the same timestamp and node id. -/
def SameStamp (self other : VersionedValue V) : Prop :=
  self.timestamp = other.timestamp ∧ self.nodeId = other.nodeId

instance (self other : VersionedValue V) : Decidable (self.SameStamp other) :=
  inferInstanceAs (Decidable (_ ∧ _))

theorem newer_iff {self other : VersionedValue V} :
    self.Newer other ↔ self.timestamp.gt other.timestamp = true ∨
      (self.timestamp = other.timestamp ∧ self.timestamp ≠ .nan ∧
        other.nodeId < self.nodeId) := by
  unfold Newer isNewerThan
  by_cases hne : self.timestamp.ne other.timestamp = true
  · have hdiffer : ¬ (self.timestamp = other.timestamp ∧ self.timestamp ≠ .nan) := by
      rw [← PyFloat.ne_eq_false_iff]
      simp [hne]
    rw [if_pos hne]
    exact ⟨Or.inl, fun hor => hor.resolve_right (fun hand => hdiffer ⟨hand.1, hand.2.1⟩)⟩
  · have hsame := PyFloat.ne_eq_false_iff.mp (Bool.not_eq_true _ ▸ hne)
    have hgt : self.timestamp.gt other.timestamp = false := by
      rw [hsame.1]
      exact PyFloat.gt_irrefl _
    rw [if_neg hne]
    simp [hsame.1 ▸ hsame.2, hsame.1, PyFloat.gt_irrefl]

theorem newer_irrefl (self : VersionedValue V) : ¬ self.Newer self := by
  simp [newer_iff, PyFloat.gt_irrefl]

theorem newer_trans {first second third : VersionedValue V} (hfirst : first.Newer second)
    (hsecond : second.Newer third) : first.Newer third := by
  rw [newer_iff] at hfirst hsecond ⊢
  rcases hfirst with hgt | ⟨heq, hnan, hlt⟩
  · rcases hsecond with hgt' | ⟨heq', _, _⟩
    · exact Or.inl (PyFloat.gt_trans hgt hgt')
    · exact Or.inl (heq' ▸ hgt)
  · rcases hsecond with hgt' | ⟨heq', _, hlt'⟩
    · exact Or.inl (heq ▸ hgt')
    · exact Or.inr ⟨heq.trans heq', hnan, lt_trans hlt' hlt⟩

instance : IsStrictOrder (VersionedValue V) Newer where
  irrefl := newer_irrefl
  trans _ _ _ := newer_trans

/-- Versions whose timestamps are not NaN are comparable up to equal stamps. -/
theorem newer_or_sameStamp_or_newer {self other : VersionedValue V}
    (hself : self.timestamp ≠ .nan) (hother : other.timestamp ≠ .nan) :
    self.Newer other ∨ self.SameStamp other ∨ other.Newer self := by
  rcases PyFloat.gt_or_eq_or_gt hself hother with hgt | heq | hgt
  · exact Or.inl (newer_iff.mpr (Or.inl hgt))
  · rcases lt_trichotomy self.nodeId other.nodeId with hlt | hnode | hlt
    · exact Or.inr (Or.inr (newer_iff.mpr (Or.inr ⟨heq.symm, hother, hlt⟩)))
    · exact Or.inr (Or.inl ⟨heq, hnode⟩)
    · exact Or.inl (newer_iff.mpr (Or.inr ⟨heq, hself, hlt⟩))
  · exact Or.inr (Or.inr (newer_iff.mpr (Or.inl hgt)))

theorem SameStamp.newer_left {self other third : VersionedValue V}
    (hsame : self.SameStamp other) (hnewer : self.Newer third) : other.Newer third := by
  rw [newer_iff] at hnewer ⊢
  rwa [← hsame.1, ← hsame.2]

theorem SameStamp.symm {self other : VersionedValue V} (hsame : self.SameStamp other) :
    other.SameStamp self :=
  ⟨hsame.1.symm, hsame.2.symm⟩

/-- "Not newer" passes through a version that is itself comparable to everything. -/
theorem not_newer_trans {first second third : VersionedValue V}
    (hsecond : second.timestamp ≠ .nan) (hfirst : ¬ first.Newer second)
    (hthird : ¬ second.Newer third) : ¬ first.Newer third := by
  intro hnewer
  have hnan : first.timestamp ≠ .nan := by
    rcases newer_iff.mp hnewer with hgt | ⟨_, hnan, _⟩
    · exact (PyFloat.not_nan_of_gt hgt).1
    · exact hnan
  rcases newer_or_sameStamp_or_newer hnan hsecond with habove | hsame | hbelow
  · exact hfirst habove
  · exact hthird (hsame.newer_left hnewer)
  · exact hthird (newer_trans hbelow hnewer)

end VersionedValue

end KvReplication
