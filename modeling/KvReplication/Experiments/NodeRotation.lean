import Mathlib.Data.Int.CardIntervalMod
import KvReplication.Experiments.Harness
import KvReplication.Foundation.Records

/-! # Whose turn it is

The workers of the leaderless test share one rotation. Whatever the order in which they
take their turns and their PUTs end, every node has been sent its share of the PUTs.
-/

namespace KvReplication.Experiments.LeaderlessLoadTest

open Leaderless (Node)

variable {V : Type} {test : LeaderlessLoadTest} {state next : TestState} {node : Node}

/-- The coordinator of a PUT that ends. -/
def endedAt (state : TestState) : TestAction LocalStep V → Option Node
  | .putEnds index _ _ => do
      match (← state.workers[index]?).stage with
      | .writing coordinator _ _ => some coordinator
      | _ => none
  | _ => none

/-- The worker has a PUT under way to the node. -/
def writesTo (node : Node) (worker : Worker) : Nat :=
  match worker.stage with
  | .writing coordinator _ _ => if coordinator = node then 1 else 0
  | _ => 0

/-- The PUTs that a node has been sent: those that have ended and those under way. -/
def sentTo (ended : List Node) (state : TestState) (node : Node) : Nat :=
  ended.count node + (state.workers.map (writesTo node)).sum

/-- The turns of a node among the first `turns` of the rotation. -/
def turnsOf (test : LeaderlessLoadTest) (node : Node) (turns : Nat) : Nat :=
  Nat.count (fun turn => test.nextNode turn = some node) turns

/-- A node is sent a PUT at each of its turns. -/
def InTurn (test : LeaderlessLoadTest) (ended : List Node) (state : TestState) : Prop :=
  ∀ node, sentTo ended state node = turnsOf test node state.rotation

/-- A worker goes on, and no PUT begins or ends. -/
theorem InTurn.keep {ended : List Node} (hturn : InTurn test ended state) {index : Nat}
    {current changed : Worker} (hcurrent : state.workers[index]? = some current)
    (hsame : ∀ node, writesTo node changed = writesTo node current)
    (hworkers : next.workers = state.workers.set index changed)
    (hrotation : next.rotation = state.rotation) : InTurn test ended next := by
  intro node
  have hsum := Records.sum_map_set (writesTo node) hcurrent changed
  have hbefore := hturn node
  rw [sentTo] at hbefore ⊢
  rw [hworkers, hrotation]
  have hwrites := hsame node
  omega

theorem writesTo_of_takeRequest {worker changed : Worker}
    (htake : test.takeRequest worker = some changed) (node : Node) :
    writesTo node changed = 0 := by
  unfold takeRequest at htake
  split at htake
  · cases htake
  · dsimp only at htake
    split at htake
    · obtain ⟨_, _, rfl⟩ := Option.map_eq_some_iff.mp htake
      rfl
    · obtain rfl := Option.some.inj htake
      rfl

theorem InTurn.localStep {ended : List Node} (hturn : InTurn test ended state) {index : Nat}
    {step : LocalStep} (hnext : test.localStep state index step = some next) :
    InTurn test ended next := by
  simp only [LeaderlessLoadTest.localStep, Option.bind_eq_bind, Option.bind_eq_some_iff] at hnext
  obtain ⟨current, hcurrent, hnext⟩ := hnext
  split at hnext
  · next hstage =>
      obtain ⟨changed, htake, rfl⟩ := Option.map_eq_some_iff.mp hnext
      refine hturn.keep hcurrent (fun node => ?_) rfl rfl
      rw [writesTo_of_takeRequest htake]
      simp only [writesTo, hstage]
  · next hstage =>
      obtain rfl := Option.some.inj hnext
      exact hturn.keep hcurrent (fun node => by simp only [writesTo, hstage]) rfl rfl
  · next key value hstage =>
      obtain ⟨coordinator, hcoordinator, hdone⟩ := Option.bind_eq_some_iff.mp hnext
      obtain rfl := Option.some.inj hdone
      -- the turn of the coordinator: its count and that of its PUTs go up together
      intro node
      have hsum := Records.sum_map_set (writesTo node) hcurrent
        { current with stage := .writing coordinator key value }
      have hbefore := hturn node
      simp only [sentTo, turnsOf, Nat.count_succ, hcoordinator, Option.some.injEq] at hbefore ⊢
      simp only [writesTo, hstage, Nat.add_zero] at hsum
      rw [← hbefore]
      unfold writesTo at hsum ⊢
      omega
  · next hstage =>
      split at hnext
      · obtain rfl := Option.some.inj hnext
        exact hturn.keep hcurrent (fun node => by simp only [writesTo, hstage]) rfl rfl
      · obtain rfl := Option.some.inj hnext
        exact hturn.keep hcurrent (fun node => by simp only [writesTo, hstage]) rfl rfl
  · next hstage =>
      obtain rfl := Option.some.inj hnext
      exact hturn.keep hcurrent (fun node => by simp only [writesTo, hstage]) rfl rfl
  · cases hnext

/-- A PUT that ends is still counted for its coordinator. -/
theorem InTurn.finish {ended : List Node} (hturn : InTurn test ended state) {index : Nat}
    {current changed : Worker} (hcurrent : state.workers[index]? = some current)
    {coordinator : Node} {key : String} {value : Nat}
    (hstage : current.stage = .writing coordinator key value)
    (hidle : ∀ node, writesTo node changed = 0)
    (hworkers : next.workers = state.workers.set index changed)
    (hrotation : next.rotation = state.rotation) :
    InTurn test (ended ++ [coordinator]) next := by
  intro node
  have hsum := Records.sum_map_set (writesTo node) hcurrent changed
  have hbefore := hturn node
  have hwrites : writesTo node current = if coordinator = node then 1 else 0 := by
    rw [writesTo, hstage]
  rw [hidle node, hwrites] at hsum
  rw [sentTo] at hbefore ⊢
  rw [hworkers, hrotation, List.count_append, List.count_singleton]
  simp only [beq_iff_eq]
  omega

theorem InTurn.putEnds {ended : List Node} (hturn : InTurn test ended state) {index : Nat}
    {now : ℚ} {result : HttpResult PutResponse}
    (hnext : test.putEnds state index now result = some next) :
    InTurn test (ended ++ (endedAt (V := V) state (.putEnds index now result)).toList) next := by
  obtain ⟨current, coordinator, key, value, hcurrent, hstage, rfl⟩ := putEnds_eq_some.mp hnext
  have hended : endedAt (V := V) state (.putEnds index now result) = some coordinator := by
    simp [endedAt, hcurrent, hstage]
  rw [hended, Option.toList_some]
  refine hturn.finish hcurrent hstage (fun node => ?_) rfl rfl
  cases hrecord : (finishWrite current.stats key (test.nodeIdOf coordinator) now result).2 with
  | none => rfl
  | some timestamp => rfl

theorem InTurn.step {ended : List Node} (hturn : InTurn test ended state)
    {action : TestAction LocalStep V} (hnext : test.step state action = some next) :
    InTurn test (ended ++ (endedAt state action).toList) next := by
  cases action with
  | worker index step =>
      have hnone : endedAt (V := V) state (.worker index step) = none := rfl
      rw [hnone, Option.toList_none, List.append_nil]
      exact hturn.localStep hnext
  | putEnds index now result =>
      simp only [LeaderlessLoadTest.step] at hnext
      split at hnext
      · exact hturn.putEnds hnext
      · cases hnext
  | getEnds index now result =>
      obtain ⟨current, coordinator, key, expected, hcurrent, hstage, rfl⟩ :=
        getEnds_eq_some.mp hnext
      have hnone : endedAt (V := V) state (.getEnds index now result) = none := rfl
      rw [hnone, Option.toList_none, List.append_nil]
      exact hturn.keep hcurrent (fun node => by simp only [writesTo, hstage]) rfl rfl

theorem InTurn.run {plan : List RequestPlan} {numWorkers : Nat}
    {actions : List (TestAction LocalStep V)} {final : TestState}
    (hrun : Runs.run test.step (start plan numWorkers) actions = some final) :
    InTurn test (Runs.observations test.step endedAt (start plan numWorkers) actions) final := by
  refine Runs.run_observed_invariant (InTurn test)
    (fun _ _ _ _ hturn hnext => hturn.step hnext) ?_ hrun
  intro node
  have hidle : ((start plan numWorkers).workers.map (writesTo node)).sum = 0 := by
    apply List.sum_eq_zero
    intro count hcount
    obtain ⟨worker, hworker, rfl⟩ := List.mem_map.mp hcount
    obtain ⟨chunk, _, rfl⟩ := List.mem_map.mp hworker
    rfl
  rw [sentTo, hidle]
  simp [turnsOf, start]

/-- Among different nodes the turns go round. -/
theorem turnsOf_eq (hnodup : test.nodes.Nodup) {place : Nat}
    (hplace : test.nodes[place]? = some node) (turns : Nat) :
    turnsOf test node turns = turns / test.nodes.length +
      if place < turns % test.nodes.length then 1 else 0 := by
  have hbound := (List.getElem?_eq_some_iff.mp hplace).1
  have hpositive : 0 < test.nodes.length := Nat.zero_lt_of_lt hbound
  have hturn : (fun turn => test.nextNode turn = some node) =
      (· ≡ place [MOD test.nodes.length]) := by
    funext turn
    rw [nextNode, ← hplace, Nat.ModEq, Nat.mod_eq_of_lt hbound, eq_iff_iff]
    constructor
    · intro hsame
      exact (List.getElem?_inj (Nat.mod_lt _ hpositive) hnodup).mp hsame
    · intro hsame
      rw [hsame]
  simp only [turnsOf, hturn]
  rw [Nat.count_modEq_card _ hpositive, Nat.mod_eq_of_lt hbound]

/-- At every moment of every run each of the nodes has been sent the PUTs of its turns: with
`turns` turns taken they are `turns / N`, and one more for the first `turns % N` nodes, so no
node has been sent two more than another. -/
theorem writes_rotate_evenly (test : LeaderlessLoadTest) (hnodup : test.nodes.Nodup)
    (plan : List RequestPlan) (numWorkers : Nat) (actions : List (TestAction LocalStep V))
    (final : TestState)
    (hrun : Runs.run test.step (start plan numWorkers) actions = some final) :
    ∃ ended, ended = Runs.observations test.step endedAt (start plan numWorkers) actions ∧
      (∀ (place : Nat) node, test.nodes[place]? = some node → sentTo ended final node =
        final.rotation / test.nodes.length +
          if place < final.rotation % test.nodes.length then 1 else 0) ∧
      ∀ node ∈ test.nodes, ∀ other ∈ test.nodes,
        sentTo ended final node ≤ sentTo ended final other + 1 := by
  have hturn := InTurn.run hrun
  have hshare : ∀ (place : Nat) node, test.nodes[place]? = some node →
      sentTo (Runs.observations test.step endedAt (start plan numWorkers) actions) final node =
        final.rotation / test.nodes.length +
          if place < final.rotation % test.nodes.length then 1 else 0 := by
    intro place node hplace
    rw [hturn node, turnsOf_eq hnodup hplace]
  refine ⟨_, rfl, hshare, fun node hnode other hother => ?_⟩
  obtain ⟨place, hplace⟩ := List.getElem?_of_mem hnode
  obtain ⟨otherPlace, hotherPlace⟩ := List.getElem?_of_mem hother
  rw [hshare place node hplace, hshare otherPlace other hotherPlace]
  split <;> split <;> omega

/-- Two workers write at once, and the first node has its second turn while the other PUT is
still under way. -/
def threeWrites : List (TestAction LocalStep Unit) :=
  [.worker 0 .next, .worker 1 .next, .worker 0 .nextValue, .worker 1 .nextValue,
    .worker 1 .nextNode, .worker 0 .nextNode, .putEnds 1 0 (.status 503), .worker 1 .next,
    .worker 1 .nextValue, .worker 1 .nextNode]

theorem three_writes_in_turn :
    ∃ (final : TestState) (ended : List Node),
      Runs.run (step ⟨[⟨"localhost", 8101⟩, ⟨"localhost", 8102⟩], fun _ => none⟩)
        (start [⟨false, "a", none⟩, ⟨false, "b", none⟩, ⟨false, "c", none⟩, ⟨false, "d", none⟩] 2)
        threeWrites = some final ∧ sentTo ended final ⟨"localhost", 8101⟩ = 2 := by
  obtain ⟨ended, -, hshare, -⟩ := writes_rotate_evenly
    ⟨[⟨"localhost", 8101⟩, ⟨"localhost", 8102⟩], fun _ => none⟩ (by decide)
    [⟨false, "a", none⟩, ⟨false, "b", none⟩, ⟨false, "c", none⟩, ⟨false, "d", none⟩] 2
    threeWrites _ rfl
  exact ⟨_, ended, rfl, hshare 0 _ rfl⟩

end KvReplication.Experiments.LeaderlessLoadTest
