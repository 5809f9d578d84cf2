import KvReplication.Experiments.LoadTest
import KvReplication.LeaderFollower.Config
import KvReplication.Foundation.Runs

/-! # The leader-follower load test

The workers go through their chunks of the plan side by side. A worker waits for the
shared counter, the source of truth or the answer to its request, and other workers
go on meanwhile.
-/

namespace KvReplication.Experiments

open LeaderFollower (Follower)

/-- What `run_load_test` hands to every worker. -/
structure StalenessLoadTest where
  followers : List Follower
  followerNodeIds : Follower → Option String
  leaderNodeId : String

/-- Where a worker stands: before its next request, or in `_do_write` or `_do_read`. -/
inductive WorkerStage where
  | ready
  /-- Before `counter.next_value()`. -/
  | numbering (key : String)
  /-- The PUT is under way. -/
  | writing (key : String) (value : Nat)
  /-- Before `source_of_truth.record(...)`. -/
  | recording (key : String) (value : Nat) (timestamp : PyFloat)
  /-- Before `source_of_truth.snapshot(...)`. -/
  | snapshotting (follower : Follower) (key : String)
  /-- The GET is under way. -/
  | reading (follower : Follower) (key : String) (expected : SourceEntry)
deriving DecidableEq

structure Worker where
  planChunk : List RequestPlan
  stats : Stats
  stage : WorkerStage

/-- The counter and the source of truth that the workers share, and the workers. -/
structure TestState where
  counter : Nat
  source : SourceOfTruth
  workers : List Worker

/-- A step of a worker between two awaits of its own process. -/
inductive LocalStep where
  /-- Take the next request of the chunk. -/
  | next
  | nextValue
  | snapshot
  | record
deriving DecidableEq

namespace StalenessLoadTest

variable (test : StalenessLoadTest)

/-- The state `asyncio.gather` starts the workers in. -/
def start (plan : List RequestPlan) (numWorkers : Nat) : TestState where
  counter := 0
  source := SourceOfTruth.init
  workers := (splitPlan plan numWorkers).map fun chunk => ⟨chunk, Stats.init, .ready⟩

/-- The follower's name in the log entries. -/
def nodeIdOf (follower : Follower) : String :=
  (test.followerNodeIds follower).getD (follower.host ++ ":" ++ toString follower.port)

/-- Take the next request of `run_worker`. A read without a follower to go to raises. -/
def takeRequest (worker : Worker) : Option Worker :=
  match worker.planChunk with
  | [] => none
  | item :: rest =>
      let stats := { worker.stats with totalRequests := worker.stats.totalRequests + 1 }
      if item.isRead then
        (item.readTargetIndex.bind (test.followers[·]?)).map fun follower =>
          ⟨rest, { stats with totalReads := stats.totalReads + 1 }, .snapshotting follower item.key⟩
      else
        some ⟨rest, { stats with totalWrites := stats.totalWrites + 1 }, .numbering item.key⟩

/-- One local step of one worker. -/
def localStep (state : TestState) (worker : Nat) (step : LocalStep) : Option TestState := do
  let current ← state.workers[worker]?
  let goOn := fun (next : Worker) => { state with workers := state.workers.set worker next }
  match step, current.stage with
  | .next, .ready => (test.takeRequest current).map goOn
  | .nextValue, .numbering key =>
      return { goOn { current with stage := .writing key state.counter } with
        counter := state.counter + 1 }
  | .snapshot, .snapshotting follower key =>
      match state.source.snapshot key with
      -- nothing to compare against, so no request is issued
      | none => return goOn { current with stage := .ready }
      | some expected => return goOn { current with stage := .reading follower key expected }
  | .record, .recording key value timestamp =>
      return { goOn { current with stage := .ready } with
        source := state.source.record key value timestamp }
  | _, _ => none

/-- The PUT of a worker ends. -/
def putEnds (state : TestState) (worker : Nat) (now : ℚ) (result : HttpResult PutResponse) :
    Option TestState := do
  let current ← state.workers[worker]?
  match current.stage with
  | .writing key value =>
      let (stats, timestamp) := finishWrite current.stats key test.leaderNodeId now result
      let stage := match timestamp with
        | none => .ready
        | some timestamp => .recording key value timestamp
      return { state with
        workers := state.workers.set worker { current with stats := stats, stage := stage } }
  | _ => none

/-- The GET of a worker ends. -/
def getEnds {V : Type} (state : TestState) (worker : Nat) (now : ℚ)
    (result : HttpResult (KVResponse V)) : Option TestState := do
  let current ← state.workers[worker]?
  match current.stage with
  | .reading follower key expected =>
      let stats := finishRead current.stats "follower_node_id" key (test.nodeIdOf follower) expected
        now result
      return { state with
        workers := state.workers.set worker { current with stats := stats, stage := .ready } }
  | _ => none

/-- What a local step makes of a worker, and of the source of truth. -/
inductive LocalMove (state : TestState) (current : Worker) : Worker → SourceOfTruth → Prop
  | take {changed : Worker} (hstage : current.stage = .ready)
      (htake : test.takeRequest current = some changed) :
      LocalMove state current changed state.source
  | number {key : String} (hstage : current.stage = .numbering key) :
      LocalMove state current { current with stage := .writing key state.counter } state.source
  | skip {follower : Follower} {key : String} (hstage : current.stage = .snapshotting follower key)
      (hnone : state.source.snapshot key = none) :
      LocalMove state current { current with stage := .ready } state.source
  | expect {follower : Follower} {key : String} {expected : SourceEntry}
      (hstage : current.stage = .snapshotting follower key)
      (hsome : state.source.snapshot key = some expected) :
      LocalMove state current { current with stage := .reading follower key expected } state.source
  | record {key : String} {value : Nat} {timestamp : PyFloat}
      (hstage : current.stage = .recording key value timestamp) :
      LocalMove state current { current with stage := .ready }
        (state.source.record key value timestamp)

variable {test} {state next : TestState}

theorem localMove_of_localStep {worker : Nat} {step : LocalStep}
    (hnext : test.localStep state worker step = some next) :
    ∃ current changed, state.workers[worker]? = some current ∧
      test.LocalMove state current changed next.source ∧
      next.workers = state.workers.set worker changed := by
  simp only [localStep, Option.bind_eq_bind, Option.bind_eq_some_iff] at hnext
  obtain ⟨current, hcurrent, hnext⟩ := hnext
  split at hnext
  · next hstage =>
      obtain ⟨changed, htake, rfl⟩ := Option.map_eq_some_iff.mp hnext
      exact ⟨current, changed, hcurrent, .take hstage htake, rfl⟩
  · next hstage =>
      obtain rfl := Option.some.inj hnext
      exact ⟨current, _, hcurrent, .number hstage, rfl⟩
  · next hstage =>
      split at hnext
      · next hnone =>
          obtain rfl := Option.some.inj hnext
          exact ⟨current, _, hcurrent, .skip hstage hnone, rfl⟩
      · next hsome =>
          obtain rfl := Option.some.inj hnext
          exact ⟨current, _, hcurrent, .expect hstage hsome, rfl⟩
  · next hstage =>
      obtain rfl := Option.some.inj hnext
      exact ⟨current, _, hcurrent, .record hstage, rfl⟩
  · cases hnext

/-- A request that is taken is a read of one of the followers, or a write; nothing is
compared yet. -/
theorem takeRequest_cases {worker changed : Worker}
    (htake : test.takeRequest worker = some changed) :
    changed.stats.staleReads = worker.stats.staleReads ∧
      ((∃ follower ∈ test.followers, ∃ key, changed.stage = .snapshotting follower key) ∨
        ∃ key, changed.stage = .numbering key) := by
  unfold takeRequest at htake
  split at htake
  · cases htake
  · next item rest _ =>
      dsimp only at htake
      split at htake
      · obtain ⟨follower, hfollower, rfl⟩ := Option.map_eq_some_iff.mp htake
        obtain ⟨_, _, hfollower⟩ := Option.bind_eq_some_iff.mp hfollower
        exact ⟨rfl, Or.inl ⟨follower, List.mem_of_getElem? hfollower, item.key, rfl⟩⟩
      · obtain rfl := Option.some.inj htake
        exact ⟨rfl, Or.inr ⟨item.key, rfl⟩⟩

theorem putEnds_eq_some {worker : Nat} {now : ℚ} {result : HttpResult PutResponse} :
    test.putEnds state worker now result = some next ↔
      ∃ current key value, state.workers[worker]? = some current ∧
        current.stage = .writing key value ∧ next = { state with
          workers := state.workers.set worker { current with
            stats := (finishWrite current.stats key test.leaderNodeId now result).1
            stage := match (finishWrite current.stats key test.leaderNodeId now result).2 with
              | none => .ready
              | some timestamp => .recording key value timestamp } } := by
  simp only [putEnds, Option.bind_eq_bind, Option.bind_eq_some_iff]
  constructor
  · rintro ⟨current, hcurrent, hnext⟩
    split at hnext
    · next key value hstage =>
        exact ⟨current, key, value, hcurrent, hstage, (Option.some.inj hnext).symm⟩
    · cases hnext
  · rintro ⟨current, key, value, hcurrent, hstage, rfl⟩
    refine ⟨current, hcurrent, ?_⟩
    rw [hstage]
    rfl

theorem getEnds_eq_some {V : Type} {worker : Nat} {now : ℚ} {result : HttpResult (KVResponse V)} :
    test.getEnds state worker now result = some next ↔
      ∃ current follower key expected, state.workers[worker]? = some current ∧
        current.stage = .reading follower key expected ∧ next = { state with
          workers := state.workers.set worker { current with
            stats := finishRead current.stats "follower_node_id" key (test.nodeIdOf follower)
              expected now result
            stage := .ready } } := by
  simp only [getEnds, Option.bind_eq_bind, Option.bind_eq_some_iff]
  constructor
  · rintro ⟨current, hcurrent, hnext⟩
    split at hnext
    · next follower key expected hstage =>
        exact ⟨current, follower, key, expected, hcurrent, hstage, (Option.some.inj hnext).symm⟩
    · cases hnext
  · rintro ⟨current, follower, key, expected, hcurrent, hstage, rfl⟩
    refine ⟨current, hcurrent, ?_⟩
    rw [hstage]
    rfl

end StalenessLoadTest

end KvReplication.Experiments
