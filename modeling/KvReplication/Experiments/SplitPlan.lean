import KvReplication.Experiments.LoadTest

/-! # The chunks of a plan

`split_plan` cuts one chunk after the other off the plan, at an offset that runs along. So
after any number of chunks they make up the plan up to the offset.
-/

namespace KvReplication.Experiments

variable (plan : List RequestPlan) (numWorkers : Nat)

/-- `size` of the chunk of a worker. -/
def chunkSize (worker : Nat) : Nat :=
  plan.length / numWorkers + if worker < plan.length % numWorkers then 1 else 0

/-- Where the chunk of a worker starts: the chunks before it, and those of them that have an
element more. -/
def chunkStart (worker : Nat) : Nat :=
  worker * (plan.length / numWorkers) + min worker (plan.length % numWorkers)

/-- The chunk of a worker. -/
def workerChunk (worker : Nat) : List RequestPlan :=
  (plan.drop (chunkStart plan numWorkers worker)).take (chunkSize plan numWorkers worker)

theorem chunkStart_succ (worker : Nat) :
    chunkStart plan numWorkers (worker + 1) =
      chunkStart plan numWorkers worker + chunkSize plan numWorkers worker := by
  simp only [chunkStart, chunkSize, Nat.add_mul]
  split <;> omega

/-- The loop of `split_plan` has cut the chunks of the workers so far, and stands where the
next one starts. -/
theorem foldl_cut (workers : Nat) :
    (List.range workers).foldl
      (fun (state : List (List RequestPlan) × Nat) (worker : Nat) =>
        (state.1 ++ [(plan.drop state.2).take (chunkSize plan numWorkers worker)],
          state.2 + chunkSize plan numWorkers worker)) ([], 0) =
      ((List.range workers).map (workerChunk plan numWorkers),
        chunkStart plan numWorkers workers) := by
  induction workers with
  | zero => simp [chunkStart]
  | succ workers ih =>
      rw [List.range_succ, List.foldl_append, ih, List.map_append, chunkStart_succ]
      rfl

theorem splitPlan_eq :
    splitPlan plan numWorkers = (List.range numWorkers).map (workerChunk plan numWorkers) :=
  congrArg Prod.fst (foldl_cut plan numWorkers numWorkers)

/-- The chunks of the first workers are the plan up to where the next one starts. -/
theorem flatten_chunks (workers : Nat) :
    ((List.range workers).map (workerChunk plan numWorkers)).flatten =
      plan.take (chunkStart plan numWorkers workers) := by
  induction workers with
  | zero => simp [chunkStart]
  | succ workers ih =>
      rw [List.range_succ, List.map_append, List.flatten_append, ih, chunkStart_succ,
        List.take_add, List.map_singleton, List.flatten_singleton, workerChunk]

section Even

variable {plan} {numWorkers : Nat}

/-- The chunk behind the last one would start at the end of the plan. -/
theorem chunkStart_numWorkers (hworkers : 1 ≤ numWorkers) :
    chunkStart plan numWorkers numWorkers = plan.length := by
  have hremainder := Nat.mod_lt plan.length hworkers
  rw [chunkStart, Nat.min_eq_right (Nat.le_of_lt hremainder), Nat.div_add_mod]

/-- The chunks in order are the plan. -/
theorem flatten_splitPlan (plan : List RequestPlan) (hworkers : 1 ≤ numWorkers) :
    (splitPlan plan numWorkers).flatten = plan := by
  rw [splitPlan_eq, flatten_chunks, chunkStart_numWorkers hworkers, List.take_length]

theorem chunkStart_mono {worker later : Nat} (hle : worker ≤ later) :
    chunkStart plan numWorkers worker ≤ chunkStart plan numWorkers later := by
  apply Nat.add_le_add
  · exact Nat.mul_le_mul_right _ hle
  · exact min_le_min_right _ hle

/-- No chunk reaches beyond the end of the plan. -/
theorem length_workerChunk {worker : Nat} (hworker : worker < numWorkers) :
    (workerChunk plan numWorkers worker).length = chunkSize plan numWorkers worker := by
  have hend : chunkStart plan numWorkers (worker + 1) ≤ plan.length := by
    rw [← chunkStart_numWorkers (Nat.one_le_of_lt hworker)]
    exact chunkStart_mono hworker
  rw [chunkStart_succ] at hend
  rw [workerChunk, List.length_take, List.length_drop]
  omega

theorem chunkSize_le_succ (worker later : Nat) :
    chunkSize plan numWorkers worker ≤ chunkSize plan numWorkers later + 1 := by
  unfold chunkSize
  split <;> omega

theorem chunkSize_antitone {worker later : Nat} (hle : worker ≤ later) :
    chunkSize plan numWorkers later ≤ chunkSize plan numWorkers worker := by
  unfold chunkSize
  apply Nat.add_le_add_left
  -- a later worker with an extra request has all workers before it have one too
  split
  · next hlater => rw [if_pos (Nat.lt_of_le_of_lt hle hlater)]
  · exact Nat.zero_le _

theorem getElem?_splitPlan {worker : Nat} (hworker : worker < numWorkers) :
    (splitPlan plan numWorkers)[worker]? = some (workerChunk plan numWorkers worker) := by
  rw [splitPlan_eq, List.getElem?_map, List.getElem?_range hworker, Option.map_some]

theorem mem_splitPlan {chunk : List RequestPlan} (hchunk : chunk ∈ splitPlan plan numWorkers) :
    ∃ worker < numWorkers, chunk.length = chunkSize plan numWorkers worker := by
  rw [splitPlan_eq] at hchunk
  obtain ⟨worker, hrange, rfl⟩ := List.mem_map.mp hchunk
  have hworker := List.mem_range.mp hrange
  exact ⟨worker, hworker, length_workerChunk hworker⟩

/-- The chunks hold requests of the plan only. -/
theorem subset_of_mem_splitPlan {chunk : List RequestPlan}
    (hchunk : chunk ∈ splitPlan plan numWorkers) : chunk ⊆ plan := by
  rw [splitPlan_eq] at hchunk
  obtain ⟨worker, _, rfl⟩ := List.mem_map.mp hchunk
  exact List.Subset.trans (List.take_subset _ _) (List.drop_subset _ _)

end Even

/-- `split_plan` partitions the plan evenly: as many chunks as workers, in order the plan, their
lengths at most one apart and never growing. -/
theorem splitPlan_partitions_evenly (plan : List RequestPlan) (numWorkers : Nat)
    (hworkers : 1 ≤ numWorkers) :
    (splitPlan plan numWorkers).length = numWorkers ∧
    (splitPlan plan numWorkers).flatten = plan ∧
    (∀ chunk ∈ splitPlan plan numWorkers, ∀ other ∈ splitPlan plan numWorkers,
      chunk.length ≤ other.length + 1) ∧
    (splitPlan plan numWorkers).Pairwise fun earlier later => later.length ≤ earlier.length := by
  refine ⟨?_, flatten_splitPlan plan hworkers, fun chunk hchunk other hother => ?_, ?_⟩
  · rw [splitPlan_eq, List.length_map, List.length_range]
  · obtain ⟨worker, -, hlength⟩ := mem_splitPlan hchunk
    obtain ⟨later, -, hotherLength⟩ := mem_splitPlan hother
    rw [hlength, hotherLength]
    exact chunkSize_le_succ worker later
  · rw [splitPlan_eq, List.pairwise_map]
    apply List.Pairwise.imp_of_mem (R := fun worker later => worker < later)
    · intro worker later hworker hlater hless
      rw [length_workerChunk (List.mem_range.mp hworker),
        length_workerChunk (List.mem_range.mp hlater)]
      exact chunkSize_antitone (Nat.le_of_lt hless)
    · exact List.pairwise_lt_range

/-- Three workers for two requests: the last one has nothing to do. -/
theorem more_workers_than_requests :
    (splitPlan [⟨false, "k", none⟩, ⟨true, "k", some 0⟩] 3).length = 3 ∧
    (splitPlan [⟨false, "k", none⟩, ⟨true, "k", some 0⟩] 3).getLast? = some [] :=
  ⟨(splitPlan_partitions_evenly [⟨false, "k", none⟩, ⟨true, "k", some 0⟩] 3 (by decide)).1,
    by decide⟩

end KvReplication.Experiments
