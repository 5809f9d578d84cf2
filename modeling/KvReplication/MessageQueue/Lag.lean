import KvReplication.MessageQueue.Follower
import Mathlib.Algebra.BigOperators.Fin
import Mathlib.Algebra.Order.BigOperators.Group.Finset

/-! # Consumer lag

The lag of a partition is the distance from the group's committed offset to the end
of the log, not from the consumer's position. Nothing committed counts as offset 0.
-/

namespace KvReplication.MessageQueue

variable {V Bytes : Type} {partitions : Nat}

structure PartitionLag where
  partition : Nat
  endOffset : Nat
  committedOffset : Option Nat
  lag : Int
deriving DecidableEq

/-- One entry of `_compute_lag`. -/
def partitionLag (partition endOffset : Nat) (committed : Option Nat) : PartitionLag :=
  ⟨partition, endOffset, committed, endOffset - (committed.getD 0 : Nat)⟩

/-- `_compute_lag` over all partitions, with nothing else happening meanwhile. -/
def computeLag (log : Log partitions Bytes) (state : State partitions V Bytes) :
    List PartitionLag :=
  (List.finRange partitions).map fun partition : Fin partitions =>
    partitionLag partition (log partition).length (state.committed partition)

/-- `total_lag` of `GET /internal/lag`. -/
def totalLag (lags : List PartitionLag) : Int := (lags.map PartitionLag.lag).sum

/-- Every partition's committed offset is its end offset. -/
def State.CaughtUp (log : Log partitions Bytes) (state : State partitions V Bytes) : Prop :=
  ∀ partition, state.committedOffset partition = (log partition).length

/-- A follower is caught up exactly when its total lag is 0. -/
theorem totalLag_eq_zero_iff {codec : Codec V Bytes} {log : Log partitions Bytes}
    {state : State partitions V Bytes} (hsound : state.Sound codec log) :
    totalLag (computeLag log state) = 0 ↔ state.CaughtUp log := by
  have hsum : totalLag (computeLag log state) =
      ∑ partition, ((log partition).length - state.committedOffset partition : Int) := by
    rw [← List.sum_ofFn, List.ofFn_eq_map, totalLag, computeLag, List.map_map]
    rfl
  have hnonneg : ∀ partition ∈ Finset.univ,
      0 ≤ ((log partition).length - state.committedOffset partition : Int) := by
    intro partition _
    have hle := hsound.committedOffset_le partition
    omega
  rw [hsum, Finset.sum_eq_zero_iff_of_nonneg hnonneg]
  constructor
  · intro hzero partition
    have hpartition := hzero partition (Finset.mem_univ partition)
    omega
  · intro hcaughtUp partition _
    rw [hcaughtUp partition]
    omega

end KvReplication.MessageQueue
