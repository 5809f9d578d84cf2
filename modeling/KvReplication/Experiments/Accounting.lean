import Mathlib.Algebra.BigOperators.Group.Finset.Piecewise
import Mathlib.Algebra.Order.Field.Rat
import Mathlib.Data.Fintype.Prod
import Mathlib.Tactic.Linarith
import Mathlib.Tactic.Positivity
import KvReplication.Experiments.Harness
import KvReplication.Experiments.SplitPlan
import KvReplication.Foundation.Records

/-! # The accounts of a load test

Every request of the plan is counted when it is taken up, and at most once more when it
ends. The statistics of the workers add up in any order to those of the whole plan.
-/

namespace KvReplication.Experiments

instance : Fintype Operation where
  elems := {.read, .write}
  complete operation := by cases operation <;> simp

instance : Fintype FailureType where
  elems := {.timeout, .connectionError, .otherError, .non2xx}
  complete failureType := by cases failureType <;> simp

/-- How a quotient of two integers becomes a float, as far as a percentage goes: the order is
kept, and so are the ends of the scale. -/
structure Rounding where
  round : ℚ → ℚ
  monotone : Monotone round
  round_zero : round 0 = 0
  round_hundred : round 100 = 100

namespace Stats

/-- `staleness_rate`: stale reads as a percentage of comparable reads. -/
def stalenessRate (rounding : Rounding) (stats : Stats) : ℚ :=
  if stats.comparableReads = 0 then 0
  else rounding.round (100 * stats.staleReads / stats.comparableReads)

/-- The statistics are those of all requests of `plan`. -/
structure Consistent (plan : List RequestPlan) (stats : Stats) : Prop where
  requests : stats.totalRequests = plan.length
  operations : stats.totalReads + stats.totalWrites = plan.length
  reads : stats.totalReads = plan.countP (·.isRead)
  readEnds : stats.comparableReads + stats.failedReads ≤ stats.totalReads
  writeEnds : stats.failedWrites ≤ stats.totalWrites
  staleEvents : stats.staleReads = stats.staleEvents.length
  stale_le : stats.staleReads ≤ stats.comparableReads
  failureEvents : stats.failedReads + stats.failedWrites = stats.failureEvents.length
  failureCounts : ∑ bucket, stats.failureCounts bucket = stats.failureEvents.length

/-- Some of the requests have not ended: so many reads, and so many writes. -/
structure Balanced (taken : List RequestPlan) (openReads openWrites : Nat) (stats : Stats) : Prop
    extends Consistent taken stats where
  openReads : stats.comparableReads + stats.failedReads + openReads ≤ stats.totalReads
  openWrites : stats.failedWrites + openWrites ≤ stats.totalWrites

variable {plan plan' taken : List RequestPlan} {openReads openWrites : Nat} {stats other : Stats}

theorem Balanced.init : Balanced [] 0 0 init where
  requests := rfl
  operations := rfl
  reads := rfl
  readEnds := Nat.le_refl _
  writeEnds := Nat.le_refl _
  staleEvents := rfl
  stale_le := Nat.le_refl _
  failureEvents := rfl
  failureCounts := rfl
  openReads := Nat.le_refl _
  openWrites := Nat.le_refl _

theorem Balanced.takeRead (hbalanced : stats.Balanced taken 0 0) {item : RequestPlan}
    (hread : item.isRead = true) : stats.takeRead.Balanced (taken ++ [item]) 1 0 where
  requests := by simp [Stats.takeRead, hbalanced.requests]
  operations := by
    have hoperations := hbalanced.operations
    simp only [Stats.takeRead, List.length_append, List.length_singleton]
    omega
  reads := by simp [Stats.takeRead, hbalanced.reads, hread]
  readEnds := Nat.le_succ_of_le hbalanced.readEnds
  writeEnds := hbalanced.writeEnds
  staleEvents := hbalanced.staleEvents
  stale_le := hbalanced.stale_le
  failureEvents := hbalanced.failureEvents
  failureCounts := hbalanced.failureCounts
  openReads := Nat.succ_le_succ hbalanced.openReads
  openWrites := hbalanced.openWrites

theorem Balanced.takeWrite (hbalanced : stats.Balanced taken 0 0) {item : RequestPlan}
    (hwrite : item.isRead = false) : stats.takeWrite.Balanced (taken ++ [item]) 0 1 where
  requests := by simp [Stats.takeWrite, hbalanced.requests]
  operations := by
    have hoperations := hbalanced.operations
    simp only [Stats.takeWrite, List.length_append, List.length_singleton]
    omega
  reads := by simp [Stats.takeWrite, hbalanced.reads, hwrite]
  readEnds := hbalanced.readEnds
  writeEnds := Nat.le_succ_of_le hbalanced.writeEnds
  staleEvents := hbalanced.staleEvents
  stale_le := hbalanced.stale_le
  failureEvents := hbalanced.failureEvents
  failureCounts := hbalanced.failureCounts
  openReads := hbalanced.openReads
  openWrites := Nat.succ_le_succ hbalanced.openWrites

/-- A request ends without being counted once more. -/
theorem Balanced.close (hbalanced : stats.Balanced taken openReads openWrites) :
    stats.Balanced taken 0 0 where
  toConsistent := hbalanced.toConsistent
  openReads := hbalanced.readEnds
  openWrites := hbalanced.writeEnds

/-- A failure goes into one bucket. -/
theorem sum_recordFailure (stats : Stats) (event : FailureEvent) :
    ∑ bucket, (stats.recordFailure event).failureCounts bucket =
      ∑ bucket, stats.failureCounts bucket + 1 := by
  have hbucket := Finset.mem_univ (event.operation, event.failureType)
  rw [recordFailure, Finset.sum_update_of_mem hbucket,
    Finset.sum_eq_add_sum_sdiff_singleton_of_mem hbucket]
  omega

theorem Balanced.failRead (hbalanced : stats.Balanced taken 1 openWrites) {event : FailureEvent}
    (hread : event.operation = .read) :
    (stats.recordFailure event).Balanced taken 0 openWrites where
  requests := hbalanced.requests
  operations := hbalanced.operations
  reads := hbalanced.reads
  readEnds := by simpa [recordFailure, hread, Nat.add_assoc] using hbalanced.openReads
  writeEnds := by simpa [recordFailure, hread] using hbalanced.writeEnds
  staleEvents := hbalanced.staleEvents
  stale_le := hbalanced.stale_le
  failureEvents := by
    have hevents := hbalanced.failureEvents
    simp only [recordFailure, hread, if_true, List.length_append, List.length_singleton]
    omega
  failureCounts := by
    rw [sum_recordFailure, hbalanced.failureCounts]
    simp [recordFailure]
  openReads := by simpa [recordFailure, hread, Nat.add_assoc] using hbalanced.openReads
  openWrites := by simpa [recordFailure, hread] using hbalanced.openWrites

theorem Balanced.failWrite (hbalanced : stats.Balanced taken openReads 1) {event : FailureEvent}
    (hwrite : event.operation = .write) :
    (stats.recordFailure event).Balanced taken openReads 0 where
  requests := hbalanced.requests
  operations := hbalanced.operations
  reads := hbalanced.reads
  readEnds := by simpa [recordFailure, hwrite] using hbalanced.readEnds
  writeEnds := by simpa [recordFailure, hwrite] using hbalanced.openWrites
  staleEvents := hbalanced.staleEvents
  stale_le := hbalanced.stale_le
  failureEvents := by
    have hevents := hbalanced.failureEvents
    simp only [recordFailure, hwrite, reduceCtorEq, if_false, List.length_append,
      List.length_singleton]
    omega
  failureCounts := by
    rw [sum_recordFailure, hbalanced.failureCounts]
    simp [recordFailure]
  openReads := by simpa [recordFailure, hwrite] using hbalanced.openReads
  openWrites := by simpa [recordFailure, hwrite] using hbalanced.openWrites

/-- A read is compared, and not stale. -/
theorem Balanced.compare (hbalanced : stats.Balanced taken 1 openWrites) :
    { stats with comparableReads := stats.comparableReads + 1 }.Balanced taken 0 openWrites where
  requests := hbalanced.requests
  operations := hbalanced.operations
  reads := hbalanced.reads
  readEnds := by
    have hopen := hbalanced.openReads
    dsimp only
    omega
  writeEnds := hbalanced.writeEnds
  staleEvents := hbalanced.staleEvents
  stale_le := Nat.le_succ_of_le hbalanced.stale_le
  failureEvents := hbalanced.failureEvents
  failureCounts := hbalanced.failureCounts
  openReads := by
    have hopen := hbalanced.openReads
    dsimp only
    omega
  openWrites := hbalanced.openWrites

/-- A read is compared, and stale. -/
theorem Balanced.compareStale (hbalanced : stats.Balanced taken 1 openWrites)
    (event : StaleEvent) :
    ({ stats with comparableReads := stats.comparableReads + 1 }.recordStale event).Balanced taken
      0 openWrites where
  toConsistent := { hbalanced.compare.toConsistent with
    staleEvents := by simp [recordStale, hbalanced.staleEvents]
    stale_le := Nat.succ_le_succ hbalanced.stale_le }
  openReads := hbalanced.compare.openReads
  openWrites := hbalanced.openWrites

theorem Balanced.finishRead {V : Type} (hbalanced : stats.Balanced taken 1 openWrites)
    (nodeIdField key nodeId : String) (expected : SourceEntry) (now : ℚ)
    (result : HttpResult (KVResponse V)) :
    (finishRead stats nodeIdField key nodeId expected now result).Balanced taken 0 openWrites := by
  cases result with
  | raised error detail => exact hbalanced.failRead rfl
  | status code =>
      rw [Experiments.finishRead]
      split
      · exact hbalanced.compareStale _
      · exact hbalanced.failRead rfl
  | ok body =>
      rw [Experiments.finishRead]
      split
      · exact hbalanced.compareStale _
      · exact hbalanced.compare

theorem Balanced.finishWrite (hbalanced : stats.Balanced taken openReads 1) (key nodeId : String)
    (now : ℚ) (result : HttpResult PutResponse) :
    (finishWrite stats key nodeId now result).1.Balanced taken openReads 0 := by
  cases result with
  | raised error detail => exact hbalanced.failWrite rfl
  | status code => exact hbalanced.failWrite rfl
  | ok body =>
      exact ⟨hbalanced.toConsistent, hbalanced.openReads, hbalanced.writeEnds⟩

/-! ### Merging -/

theorem Consistent.init : Consistent [] init := Balanced.init.toConsistent

/-- The statistics of two parts of a plan add up to those of both. -/
theorem Consistent.merge (hstats : stats.Consistent plan) (hother : other.Consistent plan') :
    (stats.merge other).Consistent (plan ++ plan') where
  requests := by simp [Stats.merge, hstats.requests, hother.requests]
  operations := by
    have hoperations := hstats.operations
    have hoperations' := hother.operations
    simp only [Stats.merge, List.length_append]
    omega
  reads := by simp [Stats.merge, hstats.reads, hother.reads]
  readEnds := by
    have hends := hstats.readEnds
    have hends' := hother.readEnds
    simp only [Stats.merge]
    omega
  writeEnds := Nat.add_le_add hstats.writeEnds hother.writeEnds
  staleEvents := by simp [Stats.merge, hstats.staleEvents, hother.staleEvents]
  stale_le := Nat.add_le_add hstats.stale_le hother.stale_le
  failureEvents := by
    have hevents := hstats.failureEvents
    have hevents' := hother.failureEvents
    simp only [Stats.merge, List.length_append]
    omega
  failureCounts := by
    simp [Stats.merge, Finset.sum_add_distrib, hstats.failureCounts, hother.failureCounts]

theorem Consistent.mergeAll {chunks : List (List RequestPlan)} {results : List Stats}
    (hresults : List.Forall₂ Consistent chunks results) :
    (mergeAll results).Consistent chunks.flatten := by
  suffices hfold : ∀ plan start, Consistent plan start →
      (results.foldl Stats.merge start).Consistent (plan ++ chunks.flatten) from
    hfold [] Stats.init Consistent.init
  induction hresults with
  | nil =>
      intro plan start hstart
      simpa using hstart
  | cons hfirst hrest ih =>
      intro plan start hstart
      simpa using ih _ _ (hstart.merge hfirst)

/-- Not more than all comparable reads are stale. -/
theorem stalenessRate_bounds (rounding : Rounding)
    (hstale : stats.staleReads ≤ stats.comparableReads) :
    0 ≤ stats.stalenessRate rounding ∧ stats.stalenessRate rounding ≤ 100 := by
  unfold stalenessRate
  split
  · exact ⟨le_refl 0, by norm_num⟩
  · next hsome =>
      have hpositive : (0 : ℚ) < stats.comparableReads := by
        exact_mod_cast Nat.pos_of_ne_zero hsome
      have hle : (stats.staleReads : ℚ) ≤ stats.comparableReads := by exact_mod_cast hstale
      constructor
      · calc (0 : ℚ) = rounding.round 0 := rounding.round_zero.symm
          _ ≤ rounding.round (100 * stats.staleReads / stats.comparableReads) :=
            rounding.monotone (by positivity)
      · calc rounding.round (100 * stats.staleReads / stats.comparableReads)
            ≤ rounding.round 100 := rounding.monotone (by
              rw [div_le_iff₀ hpositive]
              linarith)
          _ = 100 := rounding.round_hundred

/-- The same counters and failure counts, and the same events in some order. -/
structure SameTotals (stats other : Stats) : Prop where
  totalRequests : stats.totalRequests = other.totalRequests
  totalReads : stats.totalReads = other.totalReads
  totalWrites : stats.totalWrites = other.totalWrites
  comparableReads : stats.comparableReads = other.comparableReads
  staleReads : stats.staleReads = other.staleReads
  failedReads : stats.failedReads = other.failedReads
  failedWrites : stats.failedWrites = other.failedWrites
  failureCounts : stats.failureCounts = other.failureCounts
  staleEvents : stats.staleEvents.Perm other.staleEvents
  failureEvents : stats.failureEvents.Perm other.failureEvents

/-- The events of all workers are merged one worker after the other. -/
theorem flatMap_mergeAll {Event : Type} (events : Stats → List Event) (hinit : events init = [])
    (hmerge : ∀ stats other, events (stats.merge other) = events stats ++ events other)
    (results : List Stats) : events (Stats.mergeAll results) = results.flatMap events := by
  have hfold : ∀ start : Stats, events (results.foldl Stats.merge start) =
      events start ++ results.flatMap events := by
    induction results with
    | nil => simp
    | cons first rest ih =>
        intro start
        rw [List.foldl_cons, ih, hmerge, List.flatMap_cons, List.append_assoc]
  rw [Stats.mergeAll, hfold, hinit, List.nil_append]

theorem sameTotals_mergeAll {results order : List Stats} (hperm : order.Perm results) :
    SameTotals (Stats.mergeAll order) (Stats.mergeAll results) := by
  have hcounter : ∀ counter : Stats → Nat, counter init = 0 →
      (∀ stats other, counter (stats.merge other) = counter stats + counter other) →
      counter (Stats.mergeAll order) = counter (Stats.mergeAll results) := by
    intro counter hinit hmerge
    rw [sum_mergeAll counter hinit hmerge, sum_mergeAll counter hinit hmerge]
    exact (hperm.map counter).sum_eq
  have hevents : ∀ {Event : Type} (events : Stats → List Event), events init = [] →
      (∀ stats other, events (stats.merge other) = events stats ++ events other) →
      (events (Stats.mergeAll order)).Perm (events (Stats.mergeAll results)) := by
    intro Event events hinit hmerge
    rw [flatMap_mergeAll events hinit hmerge, flatMap_mergeAll events hinit hmerge]
    exact hperm.flatMap_right events
  exact {
    totalRequests := hcounter totalRequests rfl fun _ _ => rfl
    totalReads := hcounter totalReads rfl fun _ _ => rfl
    totalWrites := hcounter totalWrites rfl fun _ _ => rfl
    comparableReads := hcounter comparableReads rfl fun _ _ => rfl
    staleReads := hcounter staleReads rfl fun _ _ => rfl
    failedReads := hcounter failedReads rfl fun _ _ => rfl
    failedWrites := hcounter failedWrites rfl fun _ _ => rfl
    failureCounts := funext fun bucket =>
      hcounter (fun stats => stats.failureCounts bucket) rfl fun _ _ => rfl
    staleEvents := hevents staleEvents rfl fun _ _ => rfl
    failureEvents := hevents failureEvents rfl fun _ _ => rfl }

end Stats

/-! ### Over a run -/

/-- The reads, and the writes, that a worker has taken up and that have not ended. -/
def Phase.openReads : Phase → Nat
  | .snapshotting _ | .reading _ _ => 1
  | _ => 0

def Phase.openWrites : Phase → Nat
  | .preparing _ | .writing _ _ => 1
  | _ => 0

/-- What a worker has taken off its chunk is what its statistics account for. -/
def View.Balanced (chunk : List RequestPlan) (view : View) : Prop :=
  ∃ taken, chunk = taken ++ view.planChunk ∧
    view.stats.Balanced taken view.phase.openReads view.phase.openWrites

theorem View.Balanced.move {V : Type} {source source' : SourceOfTruth} {index : Nat}
    {before after : View} {shown : Option (Sighting V)} {chunk : List RequestPlan}
    (hbalanced : before.Balanced chunk)
    (hmove : Harness.Move source index before shown after source') : after.Balanced chunk := by
  obtain ⟨taken, rfl, hstats⟩ := hbalanced
  cases hmove with
  | @takeRead rest stats item hread =>
      exact ⟨taken ++ [item], by simp, hstats.takeRead hread⟩
  | @takeWrite rest stats item hwrite =>
      exact ⟨taken ++ [item], by simp, hstats.takeWrite hwrite⟩
  | prepare => exact ⟨taken, rfl, hstats⟩
  | issue => exact ⟨taken, rfl, hstats⟩
  | @putEnds rest stats key value nodeId now result changed timestamp hencodable hfinish =>
      have hchanged : changed.Balanced taken 0 0 := by
        have hended := hstats.finishWrite key nodeId now result
        rwa [hfinish] at hended
      cases timestamp with
      | none => exact ⟨taken, rfl, hchanged⟩
      | some timestamp => exact ⟨taken, rfl, hchanged⟩
  | record => exact ⟨taken, rfl, hstats⟩
  | skip hnone => exact ⟨taken, rfl, hstats.close⟩
  | expect hsome => exact ⟨taken, rfl, hstats⟩
  | getEnds => exact ⟨taken, rfl, hstats.finishRead _ _ _ _ _ _⟩

/-- Every worker accounts for its own chunk. -/
def Harness.Balanced (plan : List RequestPlan) (numWorkers : Nat) (harness : Harness) : Prop :=
  List.Forall₂ View.Balanced (splitPlan plan numWorkers) harness.workers

theorem Harness.Balanced.start (plan : List RequestPlan) (numWorkers : Nat) :
    (Harness.start plan numWorkers).Balanced plan numWorkers := by
  refine List.forall₂_map_right_iff.mpr (List.forall₂_same.mpr fun chunk _ => ?_)
  exact ⟨[], rfl, Stats.Balanced.init⟩

theorem Harness.Balanced.keeps (V : Type) (plan : List RequestPlan) (numWorkers : Nat) :
    Harness.Keeps fun (_ : List (Sighting V)) harness => harness.Balanced plan numWorkers := by
  rintro _ harness shown next hbalanced ⟨index, before, after, hbefore, hmove, hworkers⟩
  rw [Harness.Balanced, hworkers]
  exact Records.forall₂_set hbalanced hbefore fun chunk hchunk => hchunk.move hmove

/-- Every worker has come to the end of its chunk. -/
def Harness.Finished (harness : Harness) : Prop :=
  ∀ view ∈ harness.workers, view.planChunk = [] ∧ view.phase = .ready

/-- A worker at the end of its chunk has accounted for all of it. -/
theorem View.Balanced.consistent {chunk : List RequestPlan} {view : View}
    (hbalanced : view.Balanced chunk) (hend : view.planChunk = []) :
    view.stats.Consistent chunk := by
  obtain ⟨taken, rfl, hstats⟩ := hbalanced
  rw [hend, List.append_nil]
  exact hstats.toConsistent

theorem consistent_of_balanced {chunks : List (List RequestPlan)} {views : List View}
    (hbalanced : List.Forall₂ View.Balanced chunks views)
    (hend : ∀ view ∈ views, view.planChunk = []) :
    List.Forall₂ Stats.Consistent chunks (views.map View.stats) := by
  induction hbalanced with
  | nil => exact .nil
  | cons hfirst hrest ih =>
      refine .cons (hfirst.consistent (hend _ List.mem_cons_self)) (ih fun view hview => ?_)
      exact hend view (List.mem_cons_of_mem _ hview)

/-- What the statistics of the workers say about the run of a plan. -/
structure AccountsFor (plan : List RequestPlan) (results : List Stats) : Prop where
  consistent : (Stats.mergeAll results).Consistent plan
  rate : ∀ rounding, 0 ≤ (Stats.mergeAll results).stalenessRate rounding ∧
    (Stats.mergeAll results).stalenessRate rounding ≤ 100
  order : ∀ order : List Stats, order.Perm results →
    Stats.SameTotals (Stats.mergeAll order) (Stats.mergeAll results)

/-- Once all workers have come to the end of their chunks, the statistics account for the
whole plan. -/
theorem Harness.Balanced.accountsFor {plan : List RequestPlan} {numWorkers : Nat}
    {harness : Harness} (hbalanced : harness.Balanced plan numWorkers)
    (hworkers : 1 ≤ numWorkers) (hend : ∀ view ∈ harness.workers, view.planChunk = []) :
    AccountsFor plan (harness.workers.map View.stats) := by
  have hconsistent := Stats.Consistent.mergeAll (consistent_of_balanced hbalanced hend)
  rw [flatten_splitPlan plan hworkers] at hconsistent
  exact ⟨hconsistent, fun rounding => Stats.stalenessRate_bounds rounding hconsistent.stale_le,
    fun order hperm => Stats.sameTotals_mergeAll hperm⟩

/-- All `run_worker` calls have returned. -/
def StalenessLoadTest.Finished (state : TestState) : Prop :=
  ∀ worker ∈ state.workers, worker.planChunk = [] ∧ worker.stage = .ready

def LeaderlessLoadTest.Finished (state : LeaderlessLoadTest.TestState) : Prop :=
  ∀ worker ∈ state.workers, worker.planChunk = [] ∧ worker.stage = .ready

/-- At the end of every run of either test with at least one worker the merged statistics
account for the plan, whatever the answers were and in whatever order they are merged. -/
theorem accounting_consistent (V : Type) (plan : List RequestPlan) (numWorkers : Nat)
    (hworkers : 1 ≤ numWorkers) :
    (∀ (test : StalenessLoadTest) actions final,
      Runs.run (test.step (V := V)) (StalenessLoadTest.start plan numWorkers) actions =
        some final →
      StalenessLoadTest.Finished final → AccountsFor plan (final.workers.map Worker.stats)) ∧
    ∀ (test : LeaderlessLoadTest) actions final,
      Runs.run (test.step (V := V)) (LeaderlessLoadTest.start plan numWorkers) actions =
        some final →
      LeaderlessLoadTest.Finished final →
        AccountsFor plan (final.workers.map LeaderlessLoadTest.Worker.stats) := by
  constructor
  · intro test actions final hrun hfinished
    have hbalanced := StalenessLoadTest.harness_run (Harness.Balanced.keeps V plan numWorkers)
      (Harness.Balanced.start plan numWorkers) hrun
    have haccounts := hbalanced.accountsFor hworkers fun view hview => by
      obtain ⟨worker, hworker, rfl⟩ := List.mem_map.mp hview
      exact (hfinished worker hworker).1
    simpa [StalenessLoadTest.harness, Function.comp_def, StalenessLoadTest.view] using haccounts
  · intro test actions final hrun hfinished
    have hbalanced := LeaderlessLoadTest.harness_run (Harness.Balanced.keeps V plan numWorkers)
      (Harness.Balanced.start plan numWorkers) hrun
    have haccounts := hbalanced.accountsFor hworkers fun view hview => by
      obtain ⟨worker, hworker, rfl⟩ := List.mem_map.mp hview
      exact (hfinished worker hworker).1
    simpa [LeaderlessLoadTest.harness, Function.comp_def, LeaderlessLoadTest.view] using haccounts

/-- One worker whose write times out and whose read is skipped. -/
theorem timed_out_write_accounted :
    ∃ final : TestState,
      Runs.run (StalenessLoadTest.step (V := Nat) ⟨[⟨"localhost", 8001⟩], fun _ => none, "leader"⟩)
        (StalenessLoadTest.start [⟨false, "k", none⟩, ⟨true, "k", some 0⟩] 1)
        [.worker 0 .next, .worker 0 .nextValue, .putEnds 0 0 (.raised .timeoutException "timeout"),
          .worker 0 .next, .worker 0 .snapshot] = some final ∧
      AccountsFor [⟨false, "k", none⟩, ⟨true, "k", some 0⟩] (final.workers.map Worker.stats) := by
  refine ⟨_, rfl, (accounting_consistent Nat [⟨false, "k", none⟩, ⟨true, "k", some 0⟩] 1
    (Nat.le_refl 1)).1 ⟨[⟨"localhost", 8001⟩], fun _ => none, "leader"⟩
    [.worker 0 .next, .worker 0 .nextValue, .putEnds 0 0 (.raised .timeoutException "timeout"),
      .worker 0 .next, .worker 0 .snapshot] _ rfl ?_⟩
  intro worker hworker
  obtain rfl := List.mem_singleton.mp hworker
  exact ⟨rfl, rfl⟩

end KvReplication.Experiments
