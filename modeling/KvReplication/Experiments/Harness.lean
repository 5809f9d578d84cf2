import KvReplication.Experiments.LeaderlessLoadTest
import KvReplication.Experiments.StalenessLoadTest

/-! # What the two load tests have in common

Apart from the addresses of their requests the workers of both tests do the same. A
`Harness` is a test without the addresses; every step of either test is a move of one
of its workers, and shows to an observer at most one end of a request, record or
snapshot.
-/

namespace KvReplication.Experiments

/-- What an observer sees of the worker `index`. -/
inductive Sighting (V : Type) where
  /-- A PUT ends. -/
  | written (index : Nat) (key : String) (value : Nat) (result : HttpResult PutResponse)
  /-- The write that ended last is recorded. -/
  | recorded (index : Nat)
  /-- The snapshot of a read is taken. -/
  | snapshot (index : Nat)
  /-- A GET ends. -/
  | read (index : Nat) (key : String) (result : HttpResult (KVResponse V))

/-- A worker's stage without addresses. -/
inductive Phase where
  | ready
  /-- A write that waits for its value or its coordinator. -/
  | preparing (key : String)
  | writing (key : String) (value : Nat)
  | recording (key : String) (value : Nat) (timestamp : PyFloat)
  | snapshotting (key : String)
  | reading (key : String) (expected : SourceEntry)

structure View where
  planChunk : List RequestPlan
  stats : Stats
  phase : Phase

structure Harness where
  source : SourceOfTruth
  workers : List View

/-- Where a PUT leaves its worker. -/
def Phase.afterPut (key : String) (value : Nat) : Option PyFloat → Phase
  | none => .ready
  | some timestamp => .recording key value timestamp

/-- JSON has no NaN, and the server's encoder refuses one. -/
def HttpResult.Encodable : HttpResult PutResponse → Prop
  | .ok body => body.timestamp ≠ .nan
  | _ => True

instance (result : HttpResult PutResponse) : Decidable result.Encodable :=
  match result with
  | .ok body => inferInstanceAs (Decidable (body.timestamp ≠ .nan))
  | .raised _ _ => .isTrue trivial
  | .status _ => .isTrue trivial

namespace Stats

/-- `run_worker` takes up a read, or a write. -/
def takeRead (stats : Stats) : Stats :=
  { stats with
    totalRequests := stats.totalRequests + 1
    totalReads := stats.totalReads + 1 }

def takeWrite (stats : Stats) : Stats :=
  { stats with
    totalRequests := stats.totalRequests + 1
    totalWrites := stats.totalWrites + 1 }

end Stats

/-- A move of the worker `index`: what it shows, and what becomes of the worker and of the
source of truth. -/
inductive Harness.Move {V : Type} (source : SourceOfTruth) (index : Nat) :
    View → Option (Sighting V) → View → SourceOfTruth → Prop where
  | takeRead {chunk stats item} (hread : item.isRead = true) :
      Move source index ⟨item :: chunk, stats, .ready⟩ none
        ⟨chunk, stats.takeRead, .snapshotting item.key⟩ source
  | takeWrite {chunk stats item} (hwrite : item.isRead = false) :
      Move source index ⟨item :: chunk, stats, .ready⟩ none
        ⟨chunk, stats.takeWrite, .preparing item.key⟩ source
  | prepare {chunk stats key} :
      Move source index ⟨chunk, stats, .preparing key⟩ none ⟨chunk, stats, .preparing key⟩ source
  | issue {chunk stats key value} :
      Move source index ⟨chunk, stats, .preparing key⟩ none ⟨chunk, stats, .writing key value⟩
        source
  | putEnds {chunk stats key value nodeId now result changed timestamp}
      (hencodable : result.Encodable)
      (hfinish : finishWrite stats key nodeId now result = (changed, timestamp)) :
      Move source index ⟨chunk, stats, .writing key value⟩
        (some (.written index key value result))
        ⟨chunk, changed, .afterPut key value timestamp⟩ source
  | record {chunk stats key value timestamp} :
      Move source index ⟨chunk, stats, .recording key value timestamp⟩ (some (.recorded index))
        ⟨chunk, stats, .ready⟩ (source.record key value timestamp)
  | skip {chunk stats key} (hnone : source.snapshot key = none) :
      Move source index ⟨chunk, stats, .snapshotting key⟩ (some (.snapshot index))
        ⟨chunk, stats, .ready⟩ source
  | expect {chunk stats key expected} (hsome : source.snapshot key = some expected) :
      Move source index ⟨chunk, stats, .snapshotting key⟩ (some (.snapshot index))
        ⟨chunk, stats, .reading key expected⟩ source
  | getEnds {chunk stats key expected nodeIdField nodeId now}
      {result : HttpResult (KVResponse V)} :
      Move source index ⟨chunk, stats, .reading key expected⟩ (some (.read index key result))
        ⟨chunk, finishRead stats nodeIdField key nodeId expected now result, .ready⟩ source

/-- One worker moves. -/
def Harness.Step {V : Type} (harness : Harness) (shown : Option (Sighting V))
    (next : Harness) : Prop :=
  ∃ index before after, harness.workers[index]? = some before ∧
    Harness.Move harness.source index before shown after next.source ∧
    next.workers = harness.workers.set index after

/-- Every worker at the start of its chunk, and nothing recorded. -/
def Harness.start (plan : List RequestPlan) (numWorkers : Nat) : Harness where
  source := SourceOfTruth.init
  workers := (splitPlan plan numWorkers).map fun chunk => ⟨chunk, Stats.init, .ready⟩

/-- What the moves of a harness keep, given what has been shown so far. -/
def Harness.Keeps {V : Type} (invariant : List (Sighting V) → Harness → Prop) : Prop :=
  ∀ shown harness sighting next, invariant shown harness → harness.Step sighting next →
    invariant (shown ++ sighting.toList) next

/-- Where a list of workers is shown by `view`, replacing one by where its move leads is a step. -/
theorem Harness.step_of_set {V Worker : Type} {view : Worker → View} {workers : List Worker}
    {source later : SourceOfTruth} {index : Nat} {current changed : Worker}
    {shown : Option (Sighting V)} (hcurrent : workers[index]? = some current)
    (hmove : Harness.Move source index (view current) shown (view changed) later) :
    Harness.Step ⟨source, workers.map view⟩ shown
      ⟨later, (workers.set index changed).map view⟩ := by
  refine ⟨index, view current, view changed, ?_, hmove, ?_⟩
  · rw [List.getElem?_map, hcurrent, Option.map_some]
  · rw [List.map_set]

/-- What the moves keep holds after every run of a test whose steps are moves of its harness. -/
theorem Harness.run_invariant {V State Action : Type} {step : State → Action → Option State}
    {sighting : State → Action → Option (Sighting V)} {harness : State → Harness}
    (hstep : ∀ state action next, step state action = some next →
      (harness state).Step (sighting state action) (harness next))
    {invariant : List (Sighting V) → Harness → Prop} (hkeeps : Harness.Keeps invariant)
    {start final : State} (hstart : invariant [] (harness start)) {actions : List Action}
    (hrun : Runs.run step start actions = some final) :
    invariant (Runs.observations step sighting start actions) (harness final) := by
  refine Runs.run_observed_invariant (fun shown state => invariant shown (harness state)) ?_ hstart
    hrun
  intro shown state action next hstate hnext
  exact hkeeps shown _ _ _ hstate (hstep state action next hnext)

/-- What can happen in a load test. -/
inductive TestAction (Step V : Type) where
  | worker (index : Nat) (step : Step)
  | putEnds (index : Nat) (now : ℚ) (result : HttpResult PutResponse)
  | getEnds (index : Nat) (now : ℚ) (result : HttpResult (KVResponse V))

variable {V : Type}

namespace StalenessLoadTest

def view (worker : Worker) : View where
  planChunk := worker.planChunk
  stats := worker.stats
  phase := match worker.stage with
    | .ready => .ready
    | .numbering key => .preparing key
    | .writing key value => .writing key value
    | .recording key value timestamp => .recording key value timestamp
    | .snapshotting _ key => .snapshotting key
    | .reading _ key expected => .reading key expected

def harness (state : TestState) : Harness := ⟨state.source, state.workers.map view⟩

variable (test : StalenessLoadTest)

/-- One action; an action that is not enabled is refused. -/
def step (state : TestState) : TestAction LocalStep V → Option TestState
  | .worker index step => test.localStep state index step
  | .putEnds index now result =>
      if result.Encodable then test.putEnds state index now result else none
  | .getEnds index now result => test.getEnds state index now result

/-- What an action shows in the state it is taken in. -/
def sighting (state : TestState) : TestAction LocalStep V → Option (Sighting V)
  | .worker index .record => some (.recorded index)
  | .worker index .snapshot => some (.snapshot index)
  | .worker _ _ => none
  | .putEnds index _ result => do
      match (← state.workers[index]?).stage with
      | .writing key value => some (.written index key value result)
      | _ => none
  | .getEnds index _ result => do
      match (← state.workers[index]?).stage with
      | .reading _ key _ => some (.read index key result)
      | _ => none

variable {test} {state next : TestState}

/-- The step moves one worker. -/
theorem harness_step_of_worker {index : Nat} {current changed : Worker}
    {shown : Option (Sighting V)} (hcurrent : state.workers[index]? = some current)
    (hmove : Harness.Move state.source index (view current) shown (view changed) next.source)
    (hworkers : next.workers = state.workers.set index changed) :
    (harness state).Step shown (harness next) := by
  rw [harness, harness, hworkers]
  exact Harness.step_of_set hcurrent hmove

theorem move_of_takeRequest {index : Nat} {current changed : Worker}
    (hstage : current.stage = .ready) (htake : test.takeRequest current = some changed) :
    Harness.Move (V := V) state.source index (view current) none (view changed) state.source := by
  obtain ⟨chunk, stats, stage⟩ := current
  obtain rfl : stage = .ready := hstage
  unfold takeRequest at htake
  split at htake
  · cases htake
  · next item rest hchunk =>
      obtain rfl : chunk = item :: rest := hchunk
      dsimp only at htake
      split at htake
      · next hread =>
          obtain ⟨follower, -, rfl⟩ := Option.map_eq_some_iff.mp htake
          exact .takeRead hread
      · next hwrite =>
          obtain rfl := Option.some.inj htake
          exact .takeWrite (Bool.not_eq_true _ ▸ hwrite)

theorem harness_localStep {index : Nat} {step : LocalStep}
    (hnext : test.localStep state index step = some next) :
    (harness state).Step (sighting (V := V) state (.worker index step)) (harness next) := by
  simp only [localStep, Option.bind_eq_bind, Option.bind_eq_some_iff] at hnext
  obtain ⟨current, hcurrent, hnext⟩ := hnext
  split at hnext
  · next hstage =>
      obtain ⟨changed, htake, rfl⟩ := Option.map_eq_some_iff.mp hnext
      exact harness_step_of_worker hcurrent (move_of_takeRequest hstage htake) rfl
  · next hstage =>
      obtain rfl := Option.some.inj hnext
      refine harness_step_of_worker hcurrent ?_ rfl
      simp only [view, hstage]
      exact .issue
  · next hstage =>
      split at hnext
      · next hnone =>
          obtain rfl := Option.some.inj hnext
          refine harness_step_of_worker hcurrent ?_ rfl
          simp only [view, hstage]
          exact .skip hnone
      · next hsome =>
          obtain rfl := Option.some.inj hnext
          refine harness_step_of_worker hcurrent ?_ rfl
          simp only [view, hstage]
          exact .expect hsome
  · next hstage =>
      obtain rfl := Option.some.inj hnext
      refine harness_step_of_worker hcurrent ?_ rfl
      simp only [view, hstage]
      exact .record
  · cases hnext

/-- Every step is a move of one worker of the harness. -/
theorem harness_step {action : TestAction LocalStep V}
    (hnext : test.step state action = some next) :
    (harness state).Step (sighting state action) (harness next) := by
  cases action with
  | worker index step => exact harness_localStep hnext
  | putEnds index now result =>
      simp only [StalenessLoadTest.step] at hnext
      split at hnext
      · next hencodable =>
          obtain ⟨current, key, value, hcurrent, hstage, rfl⟩ := putEnds_eq_some.mp hnext
          refine harness_step_of_worker hcurrent ?_ rfl
          simp only [sighting, hcurrent, hstage, view, Option.bind_eq_bind, Option.bind_some]
          cases hfinish : finishWrite current.stats key test.leaderNodeId now result with
          | mk changed timestamp =>
              cases timestamp with
              | none => exact .putEnds hencodable hfinish
              | some timestamp => exact .putEnds hencodable hfinish
      · cases hnext
  | getEnds index now result =>
      obtain ⟨current, follower, key, expected, hcurrent, hstage, rfl⟩ := getEnds_eq_some.mp hnext
      refine harness_step_of_worker hcurrent ?_ rfl
      simp only [sighting, hcurrent, hstage, view, Option.bind_eq_bind, Option.bind_some]
      exact .getEnds

theorem harness_start (plan : List RequestPlan) (numWorkers : Nat) :
    harness (start plan numWorkers) = Harness.start plan numWorkers := by
  simp only [harness, start, Harness.start, List.map_map]
  rfl

/-- What holds at the start and is kept by the harness holds after every run of the test. -/
theorem harness_run {invariant : List (Sighting V) → Harness → Prop}
    (hkeeps : Harness.Keeps invariant) {plan : List RequestPlan} {numWorkers : Nat}
    (hstart : invariant [] (Harness.start plan numWorkers))
    {actions : List (TestAction LocalStep V)} {final : TestState}
    (hrun : Runs.run test.step (start plan numWorkers) actions = some final) :
    invariant (Runs.observations test.step sighting (start plan numWorkers) actions)
      (harness final) := by
  rw [← harness_start] at hstart
  exact Harness.run_invariant (fun _ _ _ hnext => harness_step hnext) hkeeps hstart hrun

end StalenessLoadTest

namespace LeaderlessLoadTest

def view (worker : Worker) : View where
  planChunk := worker.planChunk
  stats := worker.stats
  phase := match worker.stage with
    | .ready => .ready
    | .numbering key => .preparing key
    | .rotating key _ => .preparing key
    | .writing _ key value => .writing key value
    | .recording key value timestamp => .recording key value timestamp
    | .snapshotting _ key => .snapshotting key
    | .reading _ key expected => .reading key expected

def harness (state : TestState) : Harness := ⟨state.source, state.workers.map view⟩

variable (test : LeaderlessLoadTest)

/-- One action; an action that is not enabled is refused. -/
def step (state : TestState) : TestAction LocalStep V → Option TestState
  | .worker index step => test.localStep state index step
  | .putEnds index now result =>
      if result.Encodable then test.putEnds state index now result else none
  | .getEnds index now result => test.getEnds state index now result

/-- What an action shows in the state it is taken in. -/
def sighting (state : TestState) : TestAction LocalStep V → Option (Sighting V)
  | .worker index .record => some (.recorded index)
  | .worker index .snapshot => some (.snapshot index)
  | .worker _ _ => none
  | .putEnds index _ result => do
      match (← state.workers[index]?).stage with
      | .writing _ key value => some (.written index key value result)
      | _ => none
  | .getEnds index _ result => do
      match (← state.workers[index]?).stage with
      | .reading _ key _ => some (.read index key result)
      | _ => none

variable {test} {state next : TestState}

/-- The step moves one worker. -/
theorem harness_step_of_worker {index : Nat} {current changed : Worker}
    {shown : Option (Sighting V)} (hcurrent : state.workers[index]? = some current)
    (hmove : Harness.Move state.source index (view current) shown (view changed) next.source)
    (hworkers : next.workers = state.workers.set index changed) :
    (harness state).Step shown (harness next) := by
  rw [harness, harness, hworkers]
  exact Harness.step_of_set hcurrent hmove

theorem move_of_takeRequest {index : Nat} {current changed : Worker}
    (hstage : current.stage = .ready) (htake : test.takeRequest current = some changed) :
    Harness.Move (V := V) state.source index (view current) none (view changed) state.source := by
  obtain ⟨chunk, stats, stage⟩ := current
  obtain rfl : stage = .ready := hstage
  unfold takeRequest at htake
  split at htake
  · cases htake
  · next item rest hchunk =>
      obtain rfl : chunk = item :: rest := hchunk
      dsimp only at htake
      split at htake
      · next hread =>
          obtain ⟨coordinator, -, rfl⟩ := Option.map_eq_some_iff.mp htake
          exact .takeRead hread
      · next hwrite =>
          obtain rfl := Option.some.inj htake
          exact .takeWrite (Bool.not_eq_true _ ▸ hwrite)

theorem harness_localStep {index : Nat} {step : LocalStep}
    (hnext : test.localStep state index step = some next) :
    (harness state).Step (sighting (V := V) state (.worker index step)) (harness next) := by
  simp only [localStep, Option.bind_eq_bind, Option.bind_eq_some_iff] at hnext
  obtain ⟨current, hcurrent, hnext⟩ := hnext
  split at hnext
  · next hstage =>
      obtain ⟨changed, htake, rfl⟩ := Option.map_eq_some_iff.mp hnext
      exact harness_step_of_worker hcurrent (move_of_takeRequest hstage htake) rfl
  · next hstage =>
      obtain rfl := Option.some.inj hnext
      refine harness_step_of_worker hcurrent ?_ rfl
      simp only [view, hstage]
      exact .prepare
  · next hstage =>
      obtain ⟨coordinator, -, hdone⟩ := Option.bind_eq_some_iff.mp hnext
      obtain rfl := Option.some.inj hdone
      refine harness_step_of_worker hcurrent ?_ rfl
      simp only [view, hstage]
      exact .issue
  · next hstage =>
      split at hnext
      · next hnone =>
          obtain rfl := Option.some.inj hnext
          refine harness_step_of_worker hcurrent ?_ rfl
          simp only [view, hstage]
          exact .skip hnone
      · next hsome =>
          obtain rfl := Option.some.inj hnext
          refine harness_step_of_worker hcurrent ?_ rfl
          simp only [view, hstage]
          exact .expect hsome
  · next hstage =>
      obtain rfl := Option.some.inj hnext
      refine harness_step_of_worker hcurrent ?_ rfl
      simp only [view, hstage]
      exact .record
  · cases hnext

/-- Every step is a move of one worker of the harness. -/
theorem harness_step {action : TestAction LocalStep V}
    (hnext : test.step state action = some next) :
    (harness state).Step (sighting state action) (harness next) := by
  cases action with
  | worker index step => exact harness_localStep hnext
  | putEnds index now result =>
      simp only [LeaderlessLoadTest.step] at hnext
      split at hnext
      · next hencodable =>
          obtain ⟨current, coordinator, key, value, hcurrent, hstage, rfl⟩ :=
            putEnds_eq_some.mp hnext
          refine harness_step_of_worker hcurrent ?_ rfl
          simp only [sighting, hcurrent, hstage, view, Option.bind_eq_bind, Option.bind_some]
          cases hfinish : finishWrite current.stats key (test.nodeIdOf coordinator) now result with
          | mk changed timestamp =>
              cases timestamp with
              | none => exact .putEnds hencodable hfinish
              | some timestamp => exact .putEnds hencodable hfinish
      · cases hnext
  | getEnds index now result =>
      obtain ⟨current, coordinator, key, expected, hcurrent, hstage, rfl⟩ :=
        getEnds_eq_some.mp hnext
      refine harness_step_of_worker hcurrent ?_ rfl
      simp only [sighting, hcurrent, hstage, view, Option.bind_eq_bind, Option.bind_some]
      exact .getEnds

theorem harness_start (plan : List RequestPlan) (numWorkers : Nat) :
    harness (start plan numWorkers) = Harness.start plan numWorkers := by
  simp only [harness, start, Harness.start, List.map_map]
  rfl

/-- What holds at the start and is kept by the harness holds after every run of the test. -/
theorem harness_run {invariant : List (Sighting V) → Harness → Prop}
    (hkeeps : Harness.Keeps invariant) {plan : List RequestPlan} {numWorkers : Nat}
    (hstart : invariant [] (Harness.start plan numWorkers))
    {actions : List (TestAction LocalStep V)} {final : TestState}
    (hrun : Runs.run test.step (start plan numWorkers) actions = some final) :
    invariant (Runs.observations test.step sighting (start plan numWorkers) actions)
      (harness final) := by
  rw [← harness_start] at hstart
  exact Harness.run_invariant (fun _ _ _ hnext => harness_step hnext) hkeeps hstart hrun

end LeaderlessLoadTest

end KvReplication.Experiments
