import KvReplication.Experiments.LoadTest
import KvReplication.Leaderless.Config

/-! # The leaderless load test

It differs from the leader-follower test in where its requests go: a write goes to the
node whose turn it is, a read to the node its plan names. The turn is shared by all
workers, as the counter and the source of truth are.
-/

namespace KvReplication.Experiments

open Leaderless (Node)

/-- What `run_load_test` hands to every worker. -/
structure LeaderlessLoadTest where
  nodes : List Node
  nodeIds : Node → Option String

namespace LeaderlessLoadTest

/-- Where a worker stands: before its next request, or in `_do_write` or `_do_read`. -/
inductive Stage where
  | ready
  /-- Before `counter.next_value()`. -/
  | numbering (key : String)
  /-- Before `rotation.next_node()`. -/
  | rotating (key : String) (value : Nat)
  /-- The PUT is under way. -/
  | writing (coordinator : Node) (key : String) (value : Nat)
  /-- Before `source_of_truth.record(...)`. -/
  | recording (key : String) (value : Nat) (timestamp : PyFloat)
  /-- Before `source_of_truth.snapshot(...)`. -/
  | snapshotting (coordinator : Node) (key : String)
  /-- The GET is under way. -/
  | reading (coordinator : Node) (key : String) (expected : SourceEntry)
deriving DecidableEq

structure Worker where
  planChunk : List RequestPlan
  stats : Stats
  stage : Stage

/-- What the workers share, `rotation` being the index of the `NodeRotation`, and the
workers. -/
structure TestState where
  counter : Nat
  rotation : Nat
  source : SourceOfTruth
  workers : List Worker

/-- A step of a worker between two awaits of its own process. -/
inductive LocalStep where
  /-- Take the next request of the chunk. -/
  | next
  | nextValue
  | nextNode
  | snapshot
  | record
deriving DecidableEq

variable (test : LeaderlessLoadTest)

/-- The state `asyncio.gather` starts the workers in. -/
def start (plan : List RequestPlan) (numWorkers : Nat) : TestState where
  counter := 0
  rotation := 0
  source := SourceOfTruth.init
  workers := (splitPlan plan numWorkers).map fun chunk => ⟨chunk, Stats.init, .ready⟩

/-- The coordinator's name in the log entries. -/
def nodeIdOf (coordinator : Node) : String :=
  (test.nodeIds coordinator).getD (coordinator.host ++ ":" ++ toString coordinator.port)

/-- `next_node` of a rotation; without nodes the remainder raises. -/
def nextNode (rotation : Nat) : Option Node := test.nodes[rotation % test.nodes.length]?

/-- Take the next request of `run_worker`. A read without a node to go to raises. -/
def takeRequest (worker : Worker) : Option Worker :=
  match worker.planChunk with
  | [] => none
  | item :: rest =>
      let stats := { worker.stats with totalRequests := worker.stats.totalRequests + 1 }
      if item.isRead then
        (item.readTargetIndex.bind (test.nodes[·]?)).map fun coordinator =>
          ⟨rest, { stats with totalReads := stats.totalReads + 1 },
            .snapshotting coordinator item.key⟩
      else
        some ⟨rest, { stats with totalWrites := stats.totalWrites + 1 }, .numbering item.key⟩

/-- One local step of one worker. -/
def localStep (state : TestState) (worker : Nat) (step : LocalStep) : Option TestState := do
  let current ← state.workers[worker]?
  let goOn := fun (next : Worker) => { state with workers := state.workers.set worker next }
  match step, current.stage with
  | .next, .ready => (test.takeRequest current).map goOn
  | .nextValue, .numbering key =>
      return { goOn { current with stage := .rotating key state.counter } with
        counter := state.counter + 1 }
  | .nextNode, .rotating key value =>
      let coordinator ← test.nextNode state.rotation
      return { goOn { current with stage := .writing coordinator key value } with
        rotation := state.rotation + 1 }
  | .snapshot, .snapshotting coordinator key =>
      match state.source.snapshot key with
      -- nothing to compare against, so no request is issued
      | none => return goOn { current with stage := .ready }
      | some expected => return goOn { current with stage := .reading coordinator key expected }
  | .record, .recording key value timestamp =>
      return { goOn { current with stage := .ready } with
        source := state.source.record key value timestamp }
  | _, _ => none

/-- The PUT of a worker ends. -/
def putEnds (state : TestState) (worker : Nat) (now : ℚ) (result : HttpResult PutResponse) :
    Option TestState := do
  let current ← state.workers[worker]?
  match current.stage with
  | .writing coordinator key value =>
      let (stats, timestamp) :=
        finishWrite current.stats key (test.nodeIdOf coordinator) now result
      let stage := match timestamp with
        | none => .ready
        | some timestamp => .recording key value timestamp
      return { state with
        workers := state.workers.set worker { current with stats := stats, stage := stage } }
  | _ => none

/-- The GET of a worker ends. -/
def getEnds {V : Type} (state : TestState) (worker : Nat) (now : ℚ)
    (result : HttpResult (KVResponse V)) : Option TestState := do
  let current ← state.workers[worker]?
  match current.stage with
  | .reading coordinator key expected =>
      let stats := finishRead current.stats "coordinator_node_id" key (test.nodeIdOf coordinator)
        expected now result
      return { state with
        workers := state.workers.set worker { current with stats := stats, stage := .ready } }
  | _ => none

/-- What a local step makes of a worker, and of the source of truth. -/
inductive LocalMove (state : TestState) (current : Worker) : Worker → SourceOfTruth → Prop
  | take {changed : Worker} (hstage : current.stage = .ready)
      (htake : test.takeRequest current = some changed) :
      LocalMove state current changed state.source
  | number {key : String} (hstage : current.stage = .numbering key) :
      LocalMove state current { current with stage := .rotating key state.counter } state.source
  | rotate {key : String} {value : Nat} {coordinator : Node}
      (hstage : current.stage = .rotating key value)
      (hturn : test.nextNode state.rotation = some coordinator) :
      LocalMove state current { current with stage := .writing coordinator key value }
        state.source
  | skip {coordinator : Node} {key : String}
      (hstage : current.stage = .snapshotting coordinator key)
      (hnone : state.source.snapshot key = none) :
      LocalMove state current { current with stage := .ready } state.source
  | expect {coordinator : Node} {key : String} {expected : SourceEntry}
      (hstage : current.stage = .snapshotting coordinator key)
      (hsome : state.source.snapshot key = some expected) :
      LocalMove state current { current with stage := .reading coordinator key expected }
        state.source
  | record {key : String} {value : Nat} {timestamp : PyFloat}
      (hstage : current.stage = .recording key value timestamp) :
      LocalMove state current { current with stage := .ready }
        (state.source.record key value timestamp)

variable {test} {state next : TestState}

theorem localMove_of_localStep {worker : Nat} {step : LocalStep}
    (hnext : test.localStep state worker step = some next) :
    ∃ current changed, state.workers[worker]? = some current ∧
      test.LocalMove state current changed next.source ∧
      next.workers = state.workers.set worker changed := by
  simp only [localStep, Option.bind_eq_bind, Option.bind_eq_some_iff] at hnext
  obtain ⟨current, hcurrent, hnext⟩ := hnext
  split at hnext
  · next hstage =>
      obtain ⟨changed, htake, rfl⟩ := Option.map_eq_some_iff.mp hnext
      exact ⟨current, changed, hcurrent, .take hstage htake, rfl⟩
  · next hstage =>
      obtain rfl := Option.some.inj hnext
      exact ⟨current, _, hcurrent, .number hstage, rfl⟩
  · next hstage =>
      obtain ⟨coordinator, hturn, hdone⟩ := Option.bind_eq_some_iff.mp hnext
      obtain rfl := Option.some.inj hdone
      exact ⟨current, _, hcurrent, .rotate hstage hturn, rfl⟩
  · next hstage =>
      split at hnext
      · next hnone =>
          obtain rfl := Option.some.inj hnext
          exact ⟨current, _, hcurrent, .skip hstage hnone, rfl⟩
      · next hsome =>
          obtain rfl := Option.some.inj hnext
          exact ⟨current, _, hcurrent, .expect hstage hsome, rfl⟩
  · next hstage =>
      obtain rfl := Option.some.inj hnext
      exact ⟨current, _, hcurrent, .record hstage, rfl⟩
  · cases hnext

/-- A request that is taken is a read of one of the nodes, or a write, of a key of the plan;
nothing is compared yet. -/
theorem takeRequest_cases {worker changed : Worker}
    (htake : test.takeRequest worker = some changed) :
    changed.stats.staleReads = worker.stats.staleReads ∧
      ∃ item, worker.planChunk = item :: changed.planChunk ∧
        ((∃ coordinator ∈ test.nodes, changed.stage = .snapshotting coordinator item.key) ∨
          changed.stage = .numbering item.key) := by
  unfold takeRequest at htake
  split at htake
  · cases htake
  · next item rest hchunk =>
      dsimp only at htake
      split at htake
      · obtain ⟨coordinator, hcoordinator, rfl⟩ := Option.map_eq_some_iff.mp htake
        obtain ⟨_, _, hcoordinator⟩ := Option.bind_eq_some_iff.mp hcoordinator
        exact ⟨rfl, item, hchunk,
          Or.inl ⟨coordinator, List.mem_of_getElem? hcoordinator, rfl⟩⟩
      · obtain rfl := Option.some.inj htake
        exact ⟨rfl, item, hchunk, Or.inr rfl⟩

theorem putEnds_eq_some {worker : Nat} {now : ℚ} {result : HttpResult PutResponse} :
    test.putEnds state worker now result = some next ↔
      ∃ current coordinator key value, state.workers[worker]? = some current ∧
        current.stage = .writing coordinator key value ∧ next = { state with
          workers := state.workers.set worker { current with
            stats := (finishWrite current.stats key (test.nodeIdOf coordinator) now result).1
            stage := match (finishWrite current.stats key (test.nodeIdOf coordinator) now
                result).2 with
              | none => .ready
              | some timestamp => .recording key value timestamp } } := by
  simp only [putEnds, Option.bind_eq_bind, Option.bind_eq_some_iff]
  constructor
  · rintro ⟨current, hcurrent, hnext⟩
    split at hnext
    · next coordinator key value hstage =>
        exact ⟨current, coordinator, key, value, hcurrent, hstage, (Option.some.inj hnext).symm⟩
    · cases hnext
  · rintro ⟨current, coordinator, key, value, hcurrent, hstage, rfl⟩
    refine ⟨current, hcurrent, ?_⟩
    rw [hstage]
    rfl

theorem getEnds_eq_some {V : Type} {worker : Nat} {now : ℚ} {result : HttpResult (KVResponse V)} :
    test.getEnds state worker now result = some next ↔
      ∃ current coordinator key expected, state.workers[worker]? = some current ∧
        current.stage = .reading coordinator key expected ∧ next = { state with
          workers := state.workers.set worker { current with
            stats := finishRead current.stats "coordinator_node_id" key
              (test.nodeIdOf coordinator) expected now result
            stage := .ready } } := by
  simp only [getEnds, Option.bind_eq_bind, Option.bind_eq_some_iff]
  constructor
  · rintro ⟨current, hcurrent, hnext⟩
    split at hnext
    · next coordinator key expected hstage =>
        exact ⟨current, coordinator, key, expected, hcurrent, hstage,
          (Option.some.inj hnext).symm⟩
    · cases hnext
  · rintro ⟨current, coordinator, key, expected, hcurrent, hstage, rfl⟩
    refine ⟨current, hcurrent, ?_⟩
    rw [hstage]
    rfl

end LeaderlessLoadTest

end KvReplication.Experiments
