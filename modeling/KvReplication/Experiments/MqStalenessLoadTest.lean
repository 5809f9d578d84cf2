import KvReplication.Experiments.Accounting
import KvReplication.Experiments.Measurement

/-! # The message-queue load test

Its workers write to the one producer and read from the followers, and otherwise do what
the workers of the leader-follower test do. A worker that has read a stale entry asks the
follower for its lag before it goes on, and notes the answer beside the event.
-/

namespace KvReplication.Experiments

open LeaderFollower (Follower)

/-- What `run_load_test` hands to every worker. -/
structure MqStalenessLoadTest where
  followerPorts : List Int
  followerNodeIds : Int → Option String
  producerNodeId : String

/-- How the GET of `_query_lag` ends; `status` is an answer that `raise_for_status` raises on. -/
inductive LagAnswer where
  | raised (error : HttpxError)
  | status (code : Nat)
  | ok (totalLag : Int)
deriving DecidableEq

/-- `_query_lag`: a query that fails leaves no number. -/
def queryLag : LagAnswer → Option Int
  | .raised _ => none
  | .status _ => none
  | .ok totalLag => some totalLag

namespace MqStalenessLoadTest

def followerHost : String := "127.0.0.1"

/-- The workers, and for each of them the follower whose lag it is asking for, if it is, and
the fields `lag_at_stale_read` of its stale events, `none` where the field is not there. -/
structure TestState where
  shared : Experiments.TestState
  sampling : Nat → Option Follower
  lagFields : Nat → List (Option (Option Int))

inductive Action (V : Type) where
  | shared (action : TestAction LocalStep V)
  /-- The lag query of a worker ends. -/
  | lagEnds (index : Nat) (answer : LagAnswer)

variable {V : Type} (test : MqStalenessLoadTest)

/-- The test as one of a leader and its followers: the producer takes the writes. -/
def shared : StalenessLoadTest where
  followers := test.followerPorts.map fun port => ⟨followerHost, port⟩
  followerNodeIds follower := test.followerNodeIds follower.port
  leaderNodeId := test.producerNodeId

def start (plan : List RequestPlan) (numWorkers : Nat) : TestState where
  shared := StalenessLoadTest.start plan numWorkers
  sampling _ := none
  lagFields _ := []

/-- The worker an action is one of. -/
def workerOf : TestAction LocalStep V → Nat
  | .worker index _ => index
  | .putEnds index _ _ => index
  | .getEnds index _ _ => index

/-- The follower of a read that ends stale. -/
def staleFollower (state : Experiments.TestState) : TestAction LocalStep V → Option Follower
  | .getEnds index _ result => do
      match (← state.workers[index]?).stage with
      | .reading follower _ expected => if result.stale expected then some follower else none
      | _ => none
  | _ => none

/-- `stats.stale_events[-1]["lag_at_stale_read"] = lag`; without events the index raises. -/
def setLast (lag : Option Int) (fields : List (Option (Option Int))) :
    Option (List (Option (Option Int))) :=
  if fields = [] then none else some (fields.dropLast ++ [some lag])

/-- One action; an action that is not enabled is refused. A worker that waits for a lag does
nothing else. -/
def step (state : TestState) : Action V → Option TestState
  | .shared action => do
      let index := workerOf action
      guard (state.sampling index = none)
      let next ← test.shared.step state.shared action
      match staleFollower state.shared action with
      | none => return { state with shared := next }
      | some follower =>
          return {
            shared := next
            sampling := Function.update state.sampling index (some follower)
            lagFields := Function.update state.lagFields index (state.lagFields index ++ [none]) }
  | .lagEnds index answer => do
      let _ ← state.sampling index
      let fields ← setLast (queryLag answer) (state.lagFields index)
      return { state with
        sampling := Function.update state.sampling index none
        lagFields := Function.update state.lagFields index fields }

/-- All `run_worker` calls have returned. -/
def Finished (state : TestState) : Prop :=
  StalenessLoadTest.Finished state.shared ∧ ∀ index, state.sampling index = none

/-- What a worker writes to the stale-read log: its events with their lags. -/
def staleLog (state : TestState) (index : Nat) : List (StaleEvent × Option (Option Int)) :=
  match state.shared.workers[index]? with
  | none => []
  | some worker => worker.stats.staleEvents.zip (state.lagFields index)

/-! ### What the lag queries leave alone -/

/-- The actions of a run but for its lag queries. -/
def withoutSamples (actions : List (Action V)) : List (TestAction LocalStep V) :=
  actions.filterMap fun action => match action with
    | .shared action => some action
    | .lagEnds _ _ => none

variable {test} {state next : TestState}

theorem step_shared {action : TestAction LocalStep V}
    (hnext : test.step state (.shared action) = some next) :
    state.sampling (workerOf action) = none ∧
      test.shared.step state.shared action = some next.shared ∧
      match staleFollower state.shared action with
      | none => next.sampling = state.sampling ∧ next.lagFields = state.lagFields
      | some follower =>
          next.sampling = Function.update state.sampling (workerOf action) (some follower) ∧
          next.lagFields = Function.update state.lagFields (workerOf action)
            (state.lagFields (workerOf action) ++ [none]) := by
  simp only [step, Option.bind_eq_bind, Option.bind_eq_some_iff, Option.guard_eq_some'] at hnext
  obtain ⟨_, hidle, later, hshared, hnext⟩ := hnext
  refine ⟨hidle, ?_⟩
  split at hnext
  · obtain rfl := Option.some.inj hnext
    exact ⟨hshared, rfl, rfl⟩
  · obtain rfl := Option.some.inj hnext
    exact ⟨hshared, rfl, rfl⟩

theorem step_lagEnds {index : Nat} {answer : LagAnswer}
    (hnext : test.step (V := V) state (.lagEnds index answer) = some next) :
    ∃ follower, state.sampling index = some follower ∧ state.lagFields index ≠ [] ∧ next =
      { state with
        sampling := Function.update state.sampling index none
        lagFields := Function.update state.lagFields index
          ((state.lagFields index).dropLast ++ [some (queryLag answer)]) } := by
  simp only [step, Option.bind_eq_bind, Option.bind_eq_some_iff, Option.pure_def,
    Option.some.injEq] at hnext
  obtain ⟨follower, hfollower, fields, hfields, rfl⟩ := hnext
  unfold setLast at hfields
  split at hfields
  · cases hfields
  · next hsome =>
      obtain rfl := Option.some.inj hfields
      exact ⟨follower, hfollower, hsome, rfl⟩

/-- Without its lag queries a run is one of the test it shares its workers with. -/
theorem run_shared {actions : List (Action V)} {final : TestState}
    (hrun : Runs.run test.step state actions = some final) :
    Runs.run test.shared.step state.shared (withoutSamples actions) = some final.shared := by
  induction actions generalizing state with
  | nil =>
      obtain rfl := Option.some.inj hrun
      rfl
  | cons action rest ih =>
      obtain ⟨middle, hmiddle, hrest⟩ := (Runs.run_cons_eq_some _).mp hrun
      have hlater := ih hrest
      cases action with
      | shared action =>
          obtain ⟨_, hshared, _⟩ := step_shared hmiddle
          exact (Runs.run_cons_eq_some _).mpr ⟨middle.shared, hshared, hlater⟩
      | lagEnds index answer =>
          obtain ⟨_, _, _, rfl⟩ := step_lagEnds hmiddle
          exact hlater

end MqStalenessLoadTest

end KvReplication.Experiments
