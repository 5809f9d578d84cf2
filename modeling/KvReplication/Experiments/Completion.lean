import Mathlib.Algebra.BigOperators.Ring.List
import KvReplication.Experiments.LagSamples
import KvReplication.Experiments.PlanDecisions

/-! # Load tests come to their end

A worker takes a bounded number of steps for each request of its chunk, and while it has
requests left there is a step that it can take: a plan names targets for reads that the
test has.
-/

namespace KvReplication.Experiments

open LeaderFollower (Follower)

variable {V : Type}

/-- The reads of a plan go to one of `targets` places. -/
def TargetsBelow (targets : Nat) (plan : List RequestPlan) : Prop :=
  ∀ item ∈ plan, item.isRead = true → ∃ index < targets, item.readTargetIndex = some index

/-- A planned read has a target in range. -/
theorem targetsBelow_of_generateRequestPlan {random : PyRandom} {totalRequests : Int}
    {keys : List String} {targets : Nat} {readFraction : PyFloat} {seed : Int}
    {plan : List RequestPlan}
    (hplan : generateRequestPlan random totalRequests keys targets readFraction seed = .ok plan) :
    TargetsBelow targets plan := by
  obtain ⟨start, hdrawn⟩ := exists_drawn random seed
  obtain ⟨planning, rfl, hdrawn⟩ := hdrawn _ _ _ _ _ hplan
  intro item hitem hread
  obtain ⟨place, hplace⟩ := List.getElem?_of_mem (List.mem_filter.mpr ⟨hitem, hread⟩)
  have hpositive : 0 < (targets : Int) := hdrawn.positive ⟨item, hitem, hread⟩
  have hbelow := random.get_stream_lt hpositive start.targetRng place
  exact ⟨_, by exact_mod_cast hbelow, hdrawn.readTargetIndex_eq hplace⟩

/-- No worker has a read without a target ahead of it. -/
def Harness.InRange (targets : Nat) (harness : Harness) : Prop :=
  ∀ view ∈ harness.workers, TargetsBelow targets view.planChunk

theorem Harness.InRange.keeps (V : Type) (targets : Nat) :
    Harness.Keeps fun (_ : List (Sighting V)) harness => harness.InRange targets := by
  rintro _ harness shown next hrange ⟨index, before, after, hbefore, hmove, hworkers⟩
  rw [Harness.InRange, hworkers]
  refine Records.forall_mem_set hrange index ?_
  have hchunk := hrange before (List.mem_of_getElem? hbefore)
  have htail : ∀ {item : RequestPlan} {chunk}, TargetsBelow targets (item :: chunk) →
      TargetsBelow targets chunk := fun hall other hmem => hall other (List.mem_cons_of_mem _ hmem)
  generalize next.source = source at hmove
  cases hmove with
  | takeRead hread => exact htail hchunk
  | takeWrite hwrite => exact htail hchunk
  | _ => exact hchunk

theorem Harness.InRange.start {targets : Nat} {plan : List RequestPlan}
    (hplan : TargetsBelow targets plan) {numWorkers : Nat} (hworkers : 1 ≤ numWorkers) :
    (Harness.start plan numWorkers).InRange targets := by
  intro view hview
  obtain ⟨chunk, hchunk, rfl⟩ := List.mem_map.mp hview
  intro item hitem
  refine hplan item ?_
  rw [← flatten_splitPlan plan hworkers]
  exact List.mem_flatten.mpr ⟨chunk, hchunk, hitem⟩

/-- The chunks are as long as the plan. -/
theorem sum_length_splitPlan (plan : List RequestPlan) {numWorkers : Nat}
    (hworkers : 1 ≤ numWorkers) (steps : Nat) :
    ((splitPlan plan numWorkers).map fun chunk => steps * chunk.length).sum =
      steps * plan.length := by
  have hlength : ((splitPlan plan numWorkers).map List.length).sum = plan.length := by
    rw [← List.length_flatten, flatten_splitPlan plan hworkers]
  rw [← hlength, ← List.sum_map_mul_left]

namespace StalenessLoadTest

/-- The most steps a request at this stage still takes, the lag query of a read included. -/
def remainingOf : WorkerStage → Nat
  | .ready => 0
  | .numbering _ => 3
  | .writing _ _ => 2
  | .recording _ _ _ => 1
  | .snapshotting _ _ => 3
  | .reading _ _ _ => 2

def remainingFor (worker : Worker) : Nat :=
  4 * worker.planChunk.length + remainingOf worker.stage

def remaining (state : TestState) : Nat := (state.workers.map remainingFor).sum

/-- The end of a read leaves room for a lag query. -/
def cost : TestAction LocalStep V → Nat
  | .getEnds _ _ _ => 2
  | _ => 1

variable {test : StalenessLoadTest} {state next : TestState}

theorem remainingFor_takeRequest {worker changed : Worker} (hready : worker.stage = .ready)
    (htake : test.takeRequest worker = some changed) :
    remainingFor changed + 1 = remainingFor worker := by
  unfold takeRequest at htake
  split at htake
  · cases htake
  · next item rest hchunk =>
      dsimp only at htake
      split at htake
      · obtain ⟨_, _, rfl⟩ := Option.map_eq_some_iff.mp htake
        simp [remainingFor, remainingOf, hready, hchunk]
        omega
      · obtain rfl := Option.some.inj htake
        simp [remainingFor, remainingOf, hready, hchunk]
        omega

theorem remaining_set {index : Nat} {current changed : Worker} {spent : Nat}
    (hcurrent : state.workers[index]? = some current)
    (hspent : remainingFor changed + spent ≤ remainingFor current)
    (hworkers : next.workers = state.workers.set index changed) :
    remaining next + spent ≤ remaining state := by
  have hsum := Records.sum_map_set remainingFor hcurrent changed
  rw [remaining, remaining, hworkers]
  omega

theorem remaining_localStep {index : Nat} {step : LocalStep}
    (hnext : test.localStep state index step = some next) :
    remaining next + 1 ≤ remaining state := by
  obtain ⟨current, changed, hcurrent, hmove, hworkers⟩ := localMove_of_localStep hnext
  refine remaining_set hcurrent ?_ hworkers
  generalize next.source = source at hmove
  cases hmove with
  | take hready htake => exact (remainingFor_takeRequest hready htake).le
  | number hstage => simp [remainingFor, remainingOf, hstage]
  | skip hstage => simp [remainingFor, remainingOf, hstage]
  | expect hstage => simp [remainingFor, remainingOf, hstage]
  | record hstage => simp [remainingFor, remainingOf, hstage]

/-- Every step uses up some of what remains. -/
theorem remaining_step {action : TestAction LocalStep V}
    (hnext : test.step state action = some next) :
    remaining next + cost action ≤ remaining state := by
  cases action with
  | worker index step => exact remaining_localStep hnext
  | putEnds index now result =>
      simp only [StalenessLoadTest.step] at hnext
      split at hnext
      · obtain ⟨current, key, value, hcurrent, hstage, rfl⟩ := putEnds_eq_some.mp hnext
        refine remaining_set hcurrent ?_ rfl
        cases hrecord : (finishWrite current.stats key test.leaderNodeId now result).2 with
        | none => simp [remainingFor, remainingOf, hstage, cost]
        | some timestamp => simp [remainingFor, remainingOf, hstage, cost]
      · cases hnext
  | getEnds index now result =>
      obtain ⟨current, follower, key, expected, hcurrent, hstage, rfl⟩ := getEnds_eq_some.mp hnext
      refine remaining_set hcurrent ?_ rfl
      simp [remainingFor, remainingOf, hstage, cost]

theorem remaining_start (plan : List RequestPlan) {numWorkers : Nat} (hworkers : 1 ≤ numWorkers) :
    remaining (start plan numWorkers) = 4 * plan.length := by
  rw [← sum_length_splitPlan plan hworkers 4, remaining, start, List.map_map]
  rfl

/-- A planned request has a follower to go to. -/
theorem takeRequest_of_inRange (hrange : (harness state).InRange test.followers.length)
    {worker : Worker} (hworker : worker ∈ state.workers) (hchunk : worker.planChunk ≠ []) :
    (test.takeRequest worker).isSome = true := by
  unfold takeRequest
  split
  · next hnil => exact absurd hnil hchunk
  · next item rest hitem =>
      by_cases hread : item.isRead = true
      · have hahead : item ∈ (view worker).planChunk := by
          rw [view, hitem]
          exact List.mem_cons_self
        obtain ⟨target, hbelow, htarget⟩ :=
          hrange _ (List.mem_map_of_mem hworker) item hahead hread
        simp [hread, htarget, List.getElem?_eq_getElem hbelow]
      · simp [hread]

/-- A worker with requests left can go on. -/
theorem enabled_of_worker (hrange : (harness state).InRange test.followers.length) {index : Nat}
    {worker : Worker} (hworker : state.workers[index]? = some worker)
    (hnot : ¬ (worker.planChunk = [] ∧ worker.stage = .ready)) :
    ∃ action : TestAction LocalStep V, MqStalenessLoadTest.workerOf action = index ∧
      (test.step state action).isSome = true := by
  cases hstage : worker.stage with
  | ready =>
      have htake := takeRequest_of_inRange hrange (List.mem_of_getElem? hworker)
        fun hchunk => hnot ⟨hchunk, hstage⟩
      refine ⟨.worker index .next, rfl, ?_⟩
      simpa [step, localStep, hworker, hstage] using htake
  | numbering key =>
      refine ⟨.worker index .nextValue, rfl, ?_⟩
      simp [step, localStep, hworker, hstage]
  | writing key value =>
      refine ⟨.putEnds index 0 (.status 500), rfl, ?_⟩
      simp [step, putEnds, hworker, hstage, HttpResult.Encodable]
  | recording key value timestamp =>
      refine ⟨.worker index .record, rfl, ?_⟩
      simp [step, localStep, hworker, hstage]
  | snapshotting follower key =>
      refine ⟨.worker index .snapshot, rfl, ?_⟩
      cases hsnapshot : state.source.snapshot key with
      | none => simp [step, localStep, hworker, hstage, hsnapshot]
      | some expected => simp [step, localStep, hworker, hstage, hsnapshot]
  | reading follower key expected =>
      refine ⟨.getEnds index 0 (.status 500), rfl, ?_⟩
      simp [step, getEnds, hworker, hstage]

theorem remaining_of_finished (hfinished : Finished state) : remaining state = 0 := by
  apply List.sum_eq_zero
  intro count hcount
  obtain ⟨worker, hworker, rfl⟩ := List.mem_map.mp hcount
  obtain ⟨hchunk, hstage⟩ := hfinished worker hworker
  rw [remainingFor, hchunk, hstage]
  rfl

theorem exists_unfinished (hnot : ¬ Finished state) :
    ∃ (index : Nat) (worker : Worker), state.workers[index]? = some worker ∧
      ¬ (worker.planChunk = [] ∧ worker.stage = .ready) := by
  unfold Finished at hnot
  push Not at hnot
  obtain ⟨worker, hworker, hleft⟩ := hnot
  obtain ⟨index, hindex⟩ := List.getElem?_of_mem hworker
  exact ⟨index, worker, hindex, fun hdone => hleft hdone.1 hdone.2⟩

theorem inRange_step {action : TestAction LocalStep V}
    (hrange : (harness state).InRange test.followers.length)
    (hnext : test.step state action = some next) :
    (harness next).InRange test.followers.length :=
  Harness.InRange.keeps V _ [] _ _ _ hrange (harness_step hnext)

theorem completes {plan : List RequestPlan} (hplan : TargetsBelow test.followers.length plan)
    {numWorkers : Nat} (hworkers : 1 ≤ numWorkers) :
    Runs.Completes (test.step (V := V)) (start plan numWorkers) Finished (4 * plan.length) := by
  rw [← remaining_start plan hworkers]
  have hkeep : ∀ state (action : TestAction LocalStep V) next,
      (harness state).InRange test.followers.length → test.step state action = some next →
      (harness next).InRange test.followers.length := fun _ _ _ hrange hnext =>
    inRange_step hrange hnext
  refine Runs.completes_of_remaining ?_ hkeep ?_
    (fun _ hfinished => remaining_of_finished hfinished) ?_
  · intro state action next _ hnext
    have hspent := remaining_step hnext
    have hcost : 1 ≤ cost action := by cases action <;> simp [cost]
    omega
  · intro state hrange hnot
    obtain ⟨index, worker, hworker, hleft⟩ := exists_unfinished hnot
    obtain ⟨action, _, hsome⟩ := enabled_of_worker (V := V) hrange hworker hleft
    exact ⟨action, hsome⟩
  · rw [harness_start]
    exact Harness.InRange.start hplan hworkers

end StalenessLoadTest

namespace LeaderlessLoadTest

/-- The steps a request at this stage still takes at most. -/
def remainingOf : Stage → Nat
  | .ready => 0
  | .numbering _ => 4
  | .rotating _ _ => 3
  | .writing _ _ _ => 2
  | .recording _ _ _ => 1
  | .snapshotting _ _ => 2
  | .reading _ _ _ => 1

def remainingFor (worker : Worker) : Nat :=
  5 * worker.planChunk.length + remainingOf worker.stage

def remaining (state : TestState) : Nat := (state.workers.map remainingFor).sum

variable {test : LeaderlessLoadTest} {state next : TestState}

theorem remainingFor_takeRequest {worker changed : Worker} (hready : worker.stage = .ready)
    (htake : test.takeRequest worker = some changed) :
    remainingFor changed < remainingFor worker := by
  unfold takeRequest at htake
  split at htake
  · cases htake
  · next item rest hchunk =>
      dsimp only at htake
      split at htake
      · obtain ⟨_, _, rfl⟩ := Option.map_eq_some_iff.mp htake
        simp [remainingFor, remainingOf, hready, hchunk]
        omega
      · obtain rfl := Option.some.inj htake
        simp [remainingFor, remainingOf, hready, hchunk]
        omega

theorem remaining_set {index : Nat} {current changed : Worker}
    (hcurrent : state.workers[index]? = some current)
    (hspent : remainingFor changed < remainingFor current)
    (hworkers : next.workers = state.workers.set index changed) :
    remaining next < remaining state := by
  have hsum := Records.sum_map_set remainingFor hcurrent changed
  rw [remaining, remaining, hworkers]
  omega

theorem remaining_localStep {index : Nat} {step : LocalStep}
    (hnext : test.localStep state index step = some next) : remaining next < remaining state := by
  simp only [localStep, Option.bind_eq_bind, Option.bind_eq_some_iff] at hnext
  obtain ⟨current, hcurrent, hnext⟩ := hnext
  split at hnext
  · next hstage =>
      obtain ⟨changed, htake, rfl⟩ := Option.map_eq_some_iff.mp hnext
      exact remaining_set hcurrent (remainingFor_takeRequest hstage htake) rfl
  · next hstage =>
      obtain rfl := Option.some.inj hnext
      exact remaining_set hcurrent (by simp [remainingFor, remainingOf, hstage]) rfl
  · next hstage =>
      obtain ⟨coordinator, _, hdone⟩ := Option.bind_eq_some_iff.mp hnext
      obtain rfl := Option.some.inj hdone
      exact remaining_set hcurrent (by simp [remainingFor, remainingOf, hstage]) rfl
  · next hstage =>
      split at hnext
      · obtain rfl := Option.some.inj hnext
        exact remaining_set hcurrent (by simp [remainingFor, remainingOf, hstage]) rfl
      · obtain rfl := Option.some.inj hnext
        exact remaining_set hcurrent (by simp [remainingFor, remainingOf, hstage]) rfl
  · next hstage =>
      obtain rfl := Option.some.inj hnext
      exact remaining_set hcurrent (by simp [remainingFor, remainingOf, hstage]) rfl
  · cases hnext

theorem remaining_step {action : TestAction LocalStep V}
    (hnext : test.step state action = some next) : remaining next < remaining state := by
  cases action with
  | worker index step => exact remaining_localStep hnext
  | putEnds index now result =>
      simp only [LeaderlessLoadTest.step] at hnext
      split at hnext
      · obtain ⟨current, coordinator, key, value, hcurrent, hstage, rfl⟩ :=
          putEnds_eq_some.mp hnext
        refine remaining_set hcurrent ?_ rfl
        cases hrecord :
          (finishWrite current.stats key (test.nodeIdOf coordinator) now result).2 with
        | none => simp [remainingFor, remainingOf, hstage]
        | some timestamp => simp [remainingFor, remainingOf, hstage]
      · cases hnext
  | getEnds index now result =>
      obtain ⟨current, coordinator, key, expected, hcurrent, hstage, rfl⟩ :=
        getEnds_eq_some.mp hnext
      refine remaining_set hcurrent ?_ rfl
      simp [remainingFor, remainingOf, hstage]

theorem remaining_start (plan : List RequestPlan) {numWorkers : Nat} (hworkers : 1 ≤ numWorkers) :
    remaining (start plan numWorkers) = 5 * plan.length := by
  rw [← sum_length_splitPlan plan hworkers 5, remaining, start, List.map_map]
  rfl

/-- A planned request has a node to go to. -/
theorem takeRequest_of_inRange (hrange : (harness state).InRange test.nodes.length)
    {worker : Worker} (hworker : worker ∈ state.workers) (hchunk : worker.planChunk ≠ []) :
    (test.takeRequest worker).isSome = true := by
  unfold takeRequest
  split
  · next hnil => exact absurd hnil hchunk
  · next item rest hitem =>
      by_cases hread : item.isRead = true
      · have hahead : item ∈ (view worker).planChunk := by
          rw [view, hitem]
          exact List.mem_cons_self
        obtain ⟨target, hbelow, htarget⟩ :=
          hrange _ (List.mem_map_of_mem hworker) item hahead hread
        simp [hread, htarget, List.getElem?_eq_getElem hbelow]
      · simp [hread]

/-- A worker with requests left can go on. -/
theorem enabled_of_worker (hnodes : test.nodes ≠ [])
    (hrange : (harness state).InRange test.nodes.length) {index : Nat} {worker : Worker}
    (hworker : state.workers[index]? = some worker)
    (hnot : ¬ (worker.planChunk = [] ∧ worker.stage = .ready)) :
    ∃ action : TestAction LocalStep V, (test.step state action).isSome = true := by
  cases hstage : worker.stage with
  | ready =>
      have htake := takeRequest_of_inRange hrange (List.mem_of_getElem? hworker)
        fun hchunk => hnot ⟨hchunk, hstage⟩
      refine ⟨.worker index .next, ?_⟩
      simpa [step, localStep, hworker, hstage] using htake
  | numbering key =>
      refine ⟨.worker index .nextValue, ?_⟩
      simp [step, localStep, hworker, hstage]
  | rotating key value =>
      have hturn : state.rotation % test.nodes.length < test.nodes.length :=
        Nat.mod_lt _ (List.length_pos_of_ne_nil hnodes)
      refine ⟨.worker index .nextNode, ?_⟩
      simp [step, localStep, hworker, hstage, nextNode, List.getElem?_eq_getElem hturn]
  | writing coordinator key value =>
      refine ⟨.putEnds index 0 (.status 500), ?_⟩
      simp [step, putEnds, hworker, hstage, HttpResult.Encodable]
  | recording key value timestamp =>
      refine ⟨.worker index .record, ?_⟩
      simp [step, localStep, hworker, hstage]
  | snapshotting coordinator key =>
      refine ⟨.worker index .snapshot, ?_⟩
      cases hsnapshot : state.source.snapshot key with
      | none => simp [step, localStep, hworker, hstage, hsnapshot]
      | some expected => simp [step, localStep, hworker, hstage, hsnapshot]
  | reading coordinator key expected =>
      refine ⟨.getEnds index 0 (.status 500), ?_⟩
      simp [step, getEnds, hworker, hstage]

theorem remaining_of_finished (hfinished : Finished state) : remaining state = 0 := by
  apply List.sum_eq_zero
  intro count hcount
  obtain ⟨worker, hworker, rfl⟩ := List.mem_map.mp hcount
  obtain ⟨hchunk, hstage⟩ := hfinished worker hworker
  rw [remainingFor, hchunk, hstage]
  rfl

theorem completes (hnodes : test.nodes ≠ []) {plan : List RequestPlan}
    (hplan : TargetsBelow test.nodes.length plan) {numWorkers : Nat} (hworkers : 1 ≤ numWorkers) :
    Runs.Completes (test.step (V := V)) (start plan numWorkers) Finished (5 * plan.length) := by
  rw [← remaining_start plan hworkers]
  have hkeep : ∀ state (action : TestAction LocalStep V) next,
      (harness state).InRange test.nodes.length → test.step state action = some next →
      (harness next).InRange test.nodes.length := fun _ _ _ hrange hnext =>
    Harness.InRange.keeps V _ [] _ _ _ hrange (harness_step hnext)
  refine Runs.completes_of_remaining (fun _ _ _ _ hnext => remaining_step hnext) hkeep ?_
    (fun _ hfinished => remaining_of_finished hfinished) ?_
  · intro state hrange hnot
    unfold Finished at hnot
    push Not at hnot
    obtain ⟨worker, hworker, hleft⟩ := hnot
    obtain ⟨index, hindex⟩ := List.getElem?_of_mem hworker
    exact enabled_of_worker hnodes hrange hindex fun hdone => hleft hdone.1 hdone.2
  · rw [harness_start]
    exact Harness.InRange.start hplan hworkers

end LeaderlessLoadTest

namespace MqStalenessLoadTest

/-- The lag queries under way. -/
def openQueries (state : TestState) : Nat :=
  (List.range state.shared.workers.length).countP fun index => (state.sampling index).isSome

def remaining (state : TestState) : Nat :=
  StalenessLoadTest.remaining state.shared + openQueries state

/-- A lag query is one of a worker, for an event it has recorded. -/
structure Answerable (test : MqStalenessLoadTest) (state : TestState) : Prop where
  inRange : (StalenessLoadTest.harness state.shared).InRange test.shared.followers.length
  asked : ∀ index, state.sampling index ≠ none →
    index < state.shared.workers.length ∧ state.lagFields index ≠ []

variable {test : MqStalenessLoadTest} {state next : TestState}

theorem openQueries_update {index : Nat} {query : Option Follower}
    (hindex : index < state.shared.workers.length) (hsampling : next.sampling =
      Function.update state.sampling index query)
    (hlength : next.shared.workers.length = state.shared.workers.length) :
    openQueries next + (state.sampling index).isSome.toNat =
      openQueries state + query.isSome.toNat := by
  have hcount := Records.countP_change (fun other => (state.sampling other).isSome)
    (fun other => (next.sampling other).isSome) List.nodup_range (List.mem_range.mpr hindex)
    (fun other _ hne => by rw [hsampling, Function.update_of_ne hne])
  rw [hsampling, Function.update_self] at hcount
  rw [openQueries, openQueries, hlength, hsampling]
  exact hcount

theorem remaining_step {action : Action V} (hanswerable : Answerable test state)
    (hnext : test.step state action = some next) : remaining next < remaining state := by
  cases action with
  | shared action =>
      obtain ⟨hidle, hshared, hsampling⟩ := step_shared hnext
      obtain ⟨current, changed, hcurrent, hworkers, _⟩ := staleEvents_of_step hshared
      have hspent := StalenessLoadTest.remaining_step hshared
      have hlength : next.shared.workers.length = state.shared.workers.length := by
        rw [hworkers, List.length_set]
      have hindex := (List.getElem?_eq_some_iff.mp hcurrent).1
      rw [remaining, remaining]
      split at hsampling
      · have hopen : openQueries next = openQueries state := by
          rw [openQueries, openQueries, hlength, hsampling.1]
        have hcost : 1 ≤ StalenessLoadTest.cost action := by
          cases action <;> simp [StalenessLoadTest.cost]
        omega
      · next follower hstale =>
          -- only the end of a read opens a query
          have hcost : StalenessLoadTest.cost action = 2 := by
            cases action with
            | getEnds => rfl
            | worker => cases hstale
            | putEnds => cases hstale
          have hopen := openQueries_update hindex hsampling.1 hlength
          simp only [hidle, Option.isSome_none, Option.isSome_some, Bool.toNat_false,
            Bool.toNat_true] at hopen
          omega
  | lagEnds index answer =>
      obtain ⟨follower, hfollower, _, hlater⟩ := step_lagEnds hnext
      have hindex := (hanswerable.asked index (by simp [hfollower])).1
      have hsampling : next.sampling = Function.update state.sampling index none := by rw [hlater]
      have hshared : next.shared = state.shared := by rw [hlater]
      have hopen := openQueries_update hindex hsampling (by rw [hshared])
      rw [remaining, remaining, hshared]
      simp only [hfollower, Option.isSome_none, Option.isSome_some, Bool.toNat_false,
        Bool.toNat_true] at hopen
      omega

theorem Answerable.step (hanswerable : Answerable test state) {action : Action V}
    (hnext : test.step state action = some next) : Answerable test next := by
  cases action with
  | shared action =>
      obtain ⟨hidle, hshared, hsampling⟩ := step_shared hnext
      obtain ⟨current, changed, hcurrent, hworkers, _⟩ := staleEvents_of_step hshared
      have hlength : next.shared.workers.length = state.shared.workers.length := by
        rw [hworkers, List.length_set]
      refine ⟨StalenessLoadTest.inRange_step hanswerable.inRange hshared, fun index hasked => ?_⟩
      rw [hlength]
      split at hsampling
      · rw [hsampling.1] at hasked
        rw [hsampling.2]
        exact hanswerable.asked index hasked
      · rw [hsampling.1] at hasked
        rw [hsampling.2]
        by_cases heq : index = workerOf action
        · subst heq
          rw [Function.update_self]
          exact ⟨(List.getElem?_eq_some_iff.mp hcurrent).1, by simp⟩
        · rw [Function.update_of_ne heq] at hasked ⊢
          exact hanswerable.asked index hasked
  | lagEnds asking answer =>
      obtain ⟨follower, hfollower, _, rfl⟩ := step_lagEnds hnext
      refine ⟨hanswerable.inRange, fun index hasked => ?_⟩
      by_cases heq : index = asking
      · subst heq
        exact absurd (Function.update_self _ _ _) hasked
      · dsimp only at hasked
        rw [Function.update_of_ne heq] at hasked
        obtain ⟨hindex, hfields⟩ := hanswerable.asked index hasked
        exact ⟨hindex, by simpa [heq] using hfields⟩

/-- While the test is not finished, a lag query can be answered or a worker can go on. -/
theorem enabled_of_not_finished (hanswerable : Answerable test state) (hnot : ¬ Finished state) :
    ∃ action : Action V, (test.step state action).isSome = true := by
  have hanswer : ∀ index, state.sampling index ≠ none →
      ∃ action : Action V, (test.step state action).isSome = true := by
    intro index hasked
    obtain ⟨follower, hfollower⟩ := Option.ne_none_iff_exists'.mp hasked
    refine ⟨.lagEnds index (.ok 0), ?_⟩
    simp [step, hfollower, setLast, (hanswerable.asked index hasked).2]
  by_cases hidle : ∀ index, state.sampling index = none
  · have hworking : ¬ StalenessLoadTest.Finished state.shared := fun hdone => hnot ⟨hdone, hidle⟩
    obtain ⟨index, worker, hworker, hleft⟩ := StalenessLoadTest.exists_unfinished hworking
    obtain ⟨action, rfl, hsome⟩ :=
      StalenessLoadTest.enabled_of_worker (V := V) hanswerable.inRange hworker hleft
    obtain ⟨shared, hshared⟩ := Option.isSome_iff_exists.mp hsome
    refine ⟨.shared action, ?_⟩
    cases hstale : staleFollower state.shared action with
    | none => simp [step, guard, hidle, hshared, hstale]
    | some follower => simp [step, guard, hidle, hshared, hstale]
  · push Not at hidle
    obtain ⟨index, hasked⟩ := hidle
    exact hanswer index hasked

theorem remaining_of_finished (hfinished : Finished state) : remaining state = 0 := by
  rw [remaining, StalenessLoadTest.remaining_of_finished hfinished.1, openQueries, Nat.zero_add,
    List.countP_eq_zero]
  intro index _
  simp [hfinished.2 index]

theorem remaining_start (plan : List RequestPlan) {numWorkers : Nat} (hworkers : 1 ≤ numWorkers) :
    remaining (start plan numWorkers) = 4 * plan.length := by
  rw [remaining, start, StalenessLoadTest.remaining_start plan hworkers, openQueries]
  simp

theorem completes {plan : List RequestPlan}
    (hplan : TargetsBelow test.followerPorts.length plan) {numWorkers : Nat}
    (hworkers : 1 ≤ numWorkers) :
    Runs.Completes (test.step (V := V)) (start plan numWorkers) Finished (4 * plan.length) := by
  rw [← remaining_start plan hworkers]
  refine Runs.completes_of_remaining
    (fun _ _ _ hanswerable hnext => remaining_step hanswerable hnext)
    (fun _ _ _ hanswerable hnext => Answerable.step hanswerable hnext)
    (fun _ hanswerable hnot => enabled_of_not_finished hanswerable hnot)
    (fun _ hfinished => remaining_of_finished hfinished) ⟨?_, ?_⟩
  · rw [start, StalenessLoadTest.harness_start]
    refine Harness.InRange.start ?_ hworkers
    simpa [shared] using hplan
  · intro index hasked
    exact absurd rfl hasked

end MqStalenessLoadTest

theorem LeaderlessLoadTest.accountsFor_of_finished {test : LeaderlessLoadTest}
    {plan : List RequestPlan} {numWorkers : Nat} (hworkers : 1 ≤ numWorkers)
    {actions : List (TestAction LocalStep V)} {final : TestState}
    (hrun : Runs.run test.step (start plan numWorkers) actions = some final)
    (hfinished : Finished final) : AccountsFor plan (final.workers.map Worker.stats) := by
  have hbalanced := harness_run (Harness.Balanced.keeps V plan numWorkers)
    (Harness.Balanced.start plan numWorkers) hrun
  have haccounts := hbalanced.accountsFor hworkers fun view hview => by
    obtain ⟨worker, hworker, rfl⟩ := List.mem_map.mp hview
    exact (hfinished worker hworker).1
  simpa [harness, Function.comp_def, view] using haccounts

/-- A plan is as long as was asked for. -/
theorem length_of_generateRequestPlan {random : PyRandom} {totalRequests : Nat}
    {keys : List String} {numReadTargets : Int} {readFraction : PyFloat} {seed : Int}
    {plan : List RequestPlan} (hplan : generateRequestPlan random totalRequests keys
      numReadTargets readFraction seed = .ok plan) : plan.length = totalRequests := by
  obtain ⟨start, hdrawn⟩ := exists_drawn random seed
  obtain ⟨planning, rfl, hdrawn⟩ := hdrawn _ _ _ _ _ hplan
  simpa using hdrawn.length_eq

/-- A test whose reads are planned for as many targets as it has followers, or nodes, takes
boundedly many steps, stops only where every worker has come to the end of its chunk, and can
come there from everywhere. Where it stops, its statistics are of as many requests as were
asked for. -/
theorem load_tests_complete (V : Type) (random : PyRandom) (totalRequests : Nat)
    (keys : List String) (readFraction : PyFloat) (seed : Int) (plan : List RequestPlan)
    (numWorkers : Nat) (hworkers : 1 ≤ numWorkers) :
    (∀ test : StalenessLoadTest,
      generateRequestPlan random totalRequests keys test.followers.length readFraction seed =
        .ok plan →
      Runs.Completes (test.step (V := V)) (StalenessLoadTest.start plan numWorkers)
          StalenessLoadTest.Finished (4 * totalRequests) ∧
        ∀ actions final,
          Runs.run (test.step (V := V)) (StalenessLoadTest.start plan numWorkers) actions =
            some final →
          (∀ action, test.step (V := V) final action = none) →
          (Stats.mergeAll (final.workers.map Worker.stats)).totalRequests = totalRequests) ∧
    (∀ test : LeaderlessLoadTest, test.nodes ≠ [] →
      generateRequestPlan random totalRequests keys test.nodes.length readFraction seed =
        .ok plan →
      Runs.Completes (test.step (V := V)) (LeaderlessLoadTest.start plan numWorkers)
          LeaderlessLoadTest.Finished (5 * totalRequests) ∧
        ∀ actions final,
          Runs.run (test.step (V := V)) (LeaderlessLoadTest.start plan numWorkers) actions =
            some final →
          (∀ action, test.step (V := V) final action = none) →
          (Stats.mergeAll (final.workers.map LeaderlessLoadTest.Worker.stats)).totalRequests =
            totalRequests) ∧
    ∀ test : MqStalenessLoadTest,
      generateRequestPlan random totalRequests keys test.followerPorts.length readFraction seed =
        .ok plan →
      Runs.Completes (test.step (V := V)) (MqStalenessLoadTest.start plan numWorkers)
          MqStalenessLoadTest.Finished (4 * totalRequests) ∧
        ∀ actions final,
          Runs.run (test.step (V := V)) (MqStalenessLoadTest.start plan numWorkers) actions =
            some final →
          (∀ action, test.step (V := V) final action = none) →
          (Stats.mergeAll (final.shared.workers.map Worker.stats)).totalRequests =
            totalRequests := by
  refine ⟨fun test hplan => ?_, fun test hnodes hplan => ?_, fun test hplan => ?_⟩
  · obtain rfl := length_of_generateRequestPlan hplan
    have hcompletes := StalenessLoadTest.completes (V := V)
      (targetsBelow_of_generateRequestPlan hplan) hworkers
    refine ⟨hcompletes, fun actions final hrun hnone => ?_⟩
    have hfinished := (hcompletes.stops actions final hrun).mp hnone
    exact (StalenessLoadTest.accountsFor_of_finished hworkers hrun hfinished).consistent.requests
  · obtain rfl := length_of_generateRequestPlan hplan
    have hcompletes := LeaderlessLoadTest.completes (V := V) hnodes
      (targetsBelow_of_generateRequestPlan hplan) hworkers
    refine ⟨hcompletes, fun actions final hrun hnone => ?_⟩
    have hfinished := (hcompletes.stops actions final hrun).mp hnone
    exact (LeaderlessLoadTest.accountsFor_of_finished hworkers hrun hfinished).consistent.requests
  · obtain rfl := length_of_generateRequestPlan hplan
    have hcompletes := MqStalenessLoadTest.completes (V := V)
      (targetsBelow_of_generateRequestPlan hplan) hworkers
    refine ⟨hcompletes, fun actions final hrun hnone => ?_⟩
    have hfinished := (hcompletes.stops actions final hrun).mp hnone
    exact (StalenessLoadTest.accountsFor_of_finished hworkers
      (MqStalenessLoadTest.run_shared hrun) hfinished.1).consistent.requests

/-- The two requests of the seed 42, with three followers to read from. -/
theorem seed_42_test_completes :
    Runs.Completes
      (StalenessLoadTest.step (V := Unit) ⟨[⟨"a", 1⟩, ⟨"b", 2⟩, ⟨"c", 3⟩], fun _ => none, "leader"⟩)
      (StalenessLoadTest.start [⟨false, "a", none⟩, ⟨true, "b", some 1⟩] 2)
      StalenessLoadTest.Finished (4 * 2) :=
  ((load_tests_complete Unit drawsOfSeed42 2 ["a", "b"] (.finite (1 / 8)) 42
    [⟨false, "a", none⟩, ⟨true, "b", some 1⟩] 2 (by decide)).1
    ⟨[⟨"a", 1⟩, ⟨"b", 2⟩, ⟨"c", 3⟩], fun _ => none, "leader"⟩ (by decide +kernel)).1

end KvReplication.Experiments
