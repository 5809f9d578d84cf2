import Mathlib.Data.Finset.Image
import KvReplication.Foundation.Records
import KvReplication.Foundation.Runs
import KvReplication.LeaderFollower.Replicator

/-! # One replicator and all its sends

A `Replicator` serves any number of writes at once. Their `_send` tasks share one
semaphore and one HTTP client, and tasks that a write no longer waits for share one
background set. Here each task is followed through every point where it can be
suspended, and any of its moves may come between those of any other.
-/

namespace KvReplication.LeaderFollower

open WaitLoop

/-- Where a `_send` task is suspended. -/
inductive TaskStage where
  | created
  /-- The client was open; the task waits for a permit. -/
  | waiting
  /-- A permit has been assigned; the task has not run since. -/
  | granted
  | posting
  | finished (result : Except PyError Bool)
deriving DecidableEq

/-- What has become of a task's POST. -/
inductive PostState where
  | unissued
  | underWay
  | ended
  /-- The client was closed when the task came to post. -/
  | refused
deriving DecidableEq

/-- A `_send` task; `holds` says that it was granted a permit it has not released. -/
structure SendTask where
  stage : TaskStage
  holds : Bool
  post : PostState
deriving DecidableEq

namespace SendTask

def new : SendTask := ⟨.created, false, .unissued⟩

/-- The first step: a closed client fails the send; without a free permit it waits, with one
it goes on to post at once. -/
def begin (closed locked : Bool) (task : SendTask) : Option SendTask :=
  if task.stage = .created then
    if closed then some { task with stage := .finished (.ok false) }
    else if locked then some { task with stage := .waiting }
    else some ⟨.posting, true, .underWay⟩
  else
    none

/-- The semaphore assigns a permit to a task that waits. -/
def grant (task : SendTask) : Option SendTask :=
  if task.stage = .waiting then
    some { task with
      stage := .granted
      holds := true }
  else
    none

/-- The task goes on inside `async with`; on a closed client the POST raises, and the permit
is released on the way out. -/
def resume (closed : Bool) (task : SendTask) : Option SendTask :=
  if task.stage = .granted then
    if closed then some ⟨.finished (.error .runtimeError), false, .refused⟩
    else some { task with
      stage := .posting
      post := .underWay }
  else
    none

/-- The POST ends with an answer or an exception, `async with` releases the permit, and what
is left of the task runs to its end. -/
def finishPost (reply : Reply ReplicateResponse) (task : SendTask) : Option SendTask :=
  if task.stage = .posting then some ⟨.finished (sendOutcome reply), false, .ended⟩ else none

/-- The task is cancelled where it is suspended; `async with` releases what was granted. -/
def cancel (task : SendTask) : Option SendTask :=
  match task.stage with
  | .finished _ => none
  | .posting => some ⟨.finished (.error .cancelledError), false, .ended⟩
  | _ => some { task with
      stage := .finished (.error .cancelledError)
      holds := false }

/-- The task stands in the semaphore's queue. -/
def queued (task : SendTask) : Bool := task.stage = .waiting || task.stage = .granted

def result (task : SendTask) : Option (Except PyError Bool) :=
  match task.stage with
  | .finished result => some result
  | _ => none

end SendTask

/-- One call of `replicate`: its tasks by follower entry, and its loop. -/
structure ReplicateCall where
  tasks : Nat → SendTask
  loop : Replicate

namespace ReplicateCall

def result (call : ReplicateCall) (entry : Nat) : Option (Except PyError Bool) :=
  (call.tasks entry).result

def setTask (call : ReplicateCall) (entry : Nat) (task : SendTask) : ReplicateCall :=
  { call with tasks := Function.update call.tasks entry task }

/-- The await inside `replicate` ends. -/
def wake (ackRequired : Int) (call : ReplicateCall) (signal : Signal Nat) :
    Option ReplicateCall := do
  let event ← signal.event call.result
  let loop ← call.loop.step ackRequired event
  return { call with loop := loop }

/-- The tasks the loop has handed to the background set. -/
def handOver (call : ReplicateCall) (index : Nat) : Finset (Nat × Nat) :=
  (call.loop.background.map (Prod.mk index)).toFinset

end ReplicateCall

/-- What a replicator is built from. -/
structure Replicator where
  followers : List Follower
  ackRequired : Int

/-- A replicator at work, its calls numbered as they come in. -/
structure Sending where
  calls : List ReplicateCall
  /-- The free permits of the semaphore. -/
  permits : Nat
  closed : Bool
  background : Finset (Nat × Nat)

inductive SendingAction where
  /-- A write calls `replicate`. -/
  | replicate
  | begin (call entry : Nat)
  | grant (call entry : Nat)
  | resume (call entry : Nat)
  | finishPost (call entry : Nat) (reply : Reply ReplicateResponse)
  | cancel (call entry : Nat)
  | wake (call : Nat) (signal : Signal Nat)
  /-- The done callback of a task in the background set. -/
  | discard (call entry : Nat)
  /-- The shutdown handler closes the client. -/
  | shutdown

namespace Replicator

variable (replicator : Replicator)

def init : Sending := ⟨[], maxConcurrentReplicateCalls, false, ∅⟩

/-- One task for every entry of the follower list. -/
def entries : List Nat := List.range replicator.followers.length

/-- `Semaphore.locked`: no permit is free, or somebody is in the queue. -/
def locked (state : Sending) : Bool :=
  state.permits == 0 ||
    state.calls.any fun call => replicator.entries.any fun entry => (call.tasks entry).queued

/-- One task makes a move. -/
def moveTask (calls : List ReplicateCall) (index entry : Nat)
    (move : SendTask → Option SendTask) : Option (List ReplicateCall) := do
  let call ← calls[index]?
  if entry ∈ replicator.entries then
    let task ← move (call.tasks entry)
    return calls.set index (call.setTask entry task)
  else
    none

/-- One action; an action that is not enabled is refused. -/
def step (state : Sending) : SendingAction → Option Sending
  | .replicate =>
      let call : ReplicateCall :=
        ⟨fun _ => .new, Replicate.start replicator.entries replicator.ackRequired⟩
      some { state with
        calls := state.calls ++ [call]
        background := state.background ∪ call.handOver state.calls.length }
  | .begin index entry => do
      let locked := replicator.locked state
      let calls ← replicator.moveTask state.calls index entry
        (SendTask.begin state.closed locked)
      return { state with
        calls := calls
        permits := if state.closed || locked then state.permits else state.permits - 1 }
  | .grant index entry => do
      let calls ← replicator.moveTask state.calls index entry SendTask.grant
      if 0 < state.permits then
        return { state with
          calls := calls
          permits := state.permits - 1 }
      else
        none
  | .resume index entry => do
      let calls ← replicator.moveTask state.calls index entry (SendTask.resume state.closed)
      return { state with
        calls := calls
        permits := if state.closed then state.permits + 1 else state.permits }
  | .finishPost index entry reply => do
      let calls ← replicator.moveTask state.calls index entry (SendTask.finishPost reply)
      return { state with
        calls := calls
        permits := state.permits + 1 }
  | .cancel index entry => do
      let call ← state.calls[index]?
      let calls ← replicator.moveTask state.calls index entry SendTask.cancel
      return { state with
        calls := calls
        permits := state.permits + (call.tasks entry).holds.toNat }
  | .wake index signal => do
      let call ← state.calls[index]?
      let call ← call.wake replicator.ackRequired signal
      return { state with
        calls := state.calls.set index call
        background := state.background ∪ call.handOver index }
  | .discard index entry =>
      if (index, entry) ∈ state.background ∧
          (state.calls[index]?.bind fun call => call.result entry).isSome then
        some { state with background := state.background.erase (index, entry) }
      else
        none
  | .shutdown => some { state with closed := true }

end Replicator

namespace ReplicateCall

variable {call next : ReplicateCall}

theorem wake_eq_some {ackRequired : Int} {signal : Signal Nat} :
    call.wake ackRequired signal = some next ↔
      ∃ event, signal.event call.result = some event ∧
        ∃ loop, call.loop.step ackRequired event = some loop ∧
          { call with loop := loop } = next := by
  simp [wake, Option.bind_eq_some_iff]

/-- The loop runs no task. -/
theorem tasks_wake {ackRequired : Int} {signal : Signal Nat}
    (hnext : call.wake ackRequired signal = some next) : next.tasks = call.tasks := by
  obtain ⟨_, _, loop, _, rfl⟩ := wake_eq_some.mp hnext
  rfl

theorem forall_setTask {property : SendTask → Prop} {entries : List Nat}
    (hcall : ∀ entry ∈ entries, property (call.tasks entry)) (entry : Nat) {task : SendTask}
    (htask : property task) :
    ∀ other ∈ entries, property ((call.setTask entry task).tasks other) := by
  intro other hother
  by_cases heq : other = entry
  · subst heq
    simpa [setTask] using htask
  · simpa [setTask, heq] using hcall other hother

end ReplicateCall

namespace Replicator

/-- Every task of every call. -/
def AllTasks (replicator : Replicator) (property : SendTask → Prop)
    (calls : List ReplicateCall) : Prop :=
  ∀ call ∈ calls, ∀ entry ∈ replicator.entries, property (call.tasks entry)

variable {replicator : Replicator} {calls calls' : List ReplicateCall} {state next : Sending}

theorem moveTask_eq_some {index entry : Nat} {move : SendTask → Option SendTask} :
    replicator.moveTask calls index entry move = some calls' ↔
      ∃ call, calls[index]? = some call ∧ entry ∈ replicator.entries ∧
        ∃ task, move (call.tasks entry) = some task ∧
          calls.set index (call.setTask entry task) = calls' := by
  simp only [moveTask, Option.bind_eq_bind, Option.bind_eq_some_iff]
  refine exists_congr fun call => and_congr_right fun _ => ?_
  split
  · next hentry => simp [hentry, Option.bind_eq_some_iff]
  · next hentry => simp [hentry]

/-- One inversion for each action: what a step does to the replicator. -/
inductive Effect (replicator : Replicator) (state : Sending) : SendingAction → Sending → Prop where
  | replicate : Effect replicator state .replicate
      { state with
        calls := state.calls ++
          [⟨fun _ => .new, Replicate.start replicator.entries replicator.ackRequired⟩]
        background := state.background ∪
          ReplicateCall.handOver ⟨fun _ => .new,
            Replicate.start replicator.entries replicator.ackRequired⟩ state.calls.length }
  | begin {index entry calls} (hcalls : replicator.moveTask state.calls index entry
        (SendTask.begin state.closed (replicator.locked state)) = some calls) :
      Effect replicator state (.begin index entry)
        { state with
          calls := calls
          permits := if state.closed || replicator.locked state then state.permits
            else state.permits - 1 }
  | grant {index entry calls} (hfree : 0 < state.permits)
      (hcalls : replicator.moveTask state.calls index entry SendTask.grant = some calls) :
      Effect replicator state (.grant index entry)
        { state with
          calls := calls
          permits := state.permits - 1 }
  | resume {index entry calls}
      (hcalls : replicator.moveTask state.calls index entry (SendTask.resume state.closed) =
        some calls) :
      Effect replicator state (.resume index entry)
        { state with
          calls := calls
          permits := if state.closed then state.permits + 1 else state.permits }
  | finishPost {index entry reply calls}
      (hcalls : replicator.moveTask state.calls index entry (SendTask.finishPost reply) =
        some calls) :
      Effect replicator state (.finishPost index entry reply)
        { state with
          calls := calls
          permits := state.permits + 1 }
  | cancel {index entry call calls} (hcall : state.calls[index]? = some call)
      (hcalls : replicator.moveTask state.calls index entry SendTask.cancel = some calls) :
      Effect replicator state (.cancel index entry)
        { state with
          calls := calls
          permits := state.permits + (call.tasks entry).holds.toNat }
  | wake {index signal call later} (hcall : state.calls[index]? = some call)
      (hlater : call.wake replicator.ackRequired signal = some later) :
      Effect replicator state (.wake index signal)
        { state with
          calls := state.calls.set index later
          background := state.background ∪ later.handOver index }
  | discard {index entry call} (hmem : (index, entry) ∈ state.background)
      (hcall : state.calls[index]? = some call) (hresult : (call.result entry).isSome) :
      Effect replicator state (.discard index entry)
        { state with background := state.background.erase (index, entry) }
  | shutdown : Effect replicator state .shutdown { state with closed := true }

theorem effect_of_step {action : SendingAction}
    (hnext : replicator.step state action = some next) : Effect replicator state action next := by
  cases action with
  | replicate =>
      obtain rfl := Option.some.inj hnext
      exact .replicate
  | begin index entry =>
      obtain ⟨calls, hcalls, hdone⟩ := Option.bind_eq_some_iff.mp hnext
      obtain rfl := Option.some.inj hdone
      exact .begin hcalls
  | grant index entry =>
      obtain ⟨calls, hcalls, hdone⟩ := Option.bind_eq_some_iff.mp hnext
      split at hdone
      · next hfree =>
          obtain rfl := Option.some.inj hdone
          exact .grant hfree hcalls
      · cases hdone
  | resume index entry =>
      obtain ⟨calls, hcalls, hdone⟩ := Option.bind_eq_some_iff.mp hnext
      obtain rfl := Option.some.inj hdone
      exact .resume hcalls
  | finishPost index entry reply =>
      obtain ⟨calls, hcalls, hdone⟩ := Option.bind_eq_some_iff.mp hnext
      obtain rfl := Option.some.inj hdone
      exact .finishPost hcalls
  | cancel index entry =>
      obtain ⟨call, hcall, hmoved⟩ := Option.bind_eq_some_iff.mp hnext
      obtain ⟨calls, hcalls, hdone⟩ := Option.bind_eq_some_iff.mp hmoved
      obtain rfl := Option.some.inj hdone
      exact .cancel hcall hcalls
  | wake index signal =>
      obtain ⟨call, hcall, hwoken⟩ := Option.bind_eq_some_iff.mp hnext
      obtain ⟨later, hlater, hdone⟩ := Option.bind_eq_some_iff.mp hwoken
      obtain rfl := Option.some.inj hdone
      exact .wake hcall hlater
  | discard index entry =>
      simp only [step] at hnext
      split at hnext
      · next hguard =>
          obtain rfl := Option.some.inj hnext
          obtain ⟨result, hresult⟩ := Option.isSome_iff_exists.mp hguard.2
          obtain ⟨call, hcall, hfinished⟩ := Option.bind_eq_some_iff.mp hresult
          exact .discard hguard.1 hcall (by rw [hfinished]; rfl)
      · cases hnext
  | shutdown =>
      obtain rfl := Option.some.inj hnext
      exact .shutdown

theorem allTasks_moveTask {property : SendTask → Prop} (hcalls : replicator.AllTasks property calls)
    {index entry : Nat} {move : SendTask → Option SendTask}
    (hmove : ∀ task moved, property task → move task = some moved → property moved)
    (hmoved : replicator.moveTask calls index entry move = some calls') :
    replicator.AllTasks property calls' := by
  obtain ⟨call, hcall, hentry, task, htask, rfl⟩ := moveTask_eq_some.mp hmoved
  have hold := hcalls call (List.mem_of_getElem? hcall)
  exact Records.forall_mem_set hcalls index
    (ReplicateCall.forall_setTask hold entry (hmove _ _ (hold entry hentry) htask))

/-- What new tasks satisfy and every move of a task keeps holds of all tasks after a step. -/
theorem allTasks_step {property : SendTask → Prop} (hnew : property .new)
    (hbegin : ∀ locked task moved, property task →
      task.begin state.closed locked = some moved → property moved)
    (hgrant : ∀ task moved, property task → task.grant = some moved → property moved)
    (hresume : ∀ task moved, property task → task.resume state.closed = some moved →
      property moved)
    (hfinish : ∀ reply task moved, property task → task.finishPost reply = some moved →
      property moved)
    {action : SendingAction}
    (hcancel : (∃ index entry, action = .cancel index entry) → ∀ task moved, property task →
      task.cancel = some moved → property moved)
    (hcalls : replicator.AllTasks property state.calls)
    (hnext : replicator.step state action = some next) :
    replicator.AllTasks property next.calls := by
  cases effect_of_step hnext with
  | replicate => exact Records.forall_mem_concat hcalls fun _ _ => hnew
  | begin hmoved => exact allTasks_moveTask hcalls (hbegin _) hmoved
  | grant hfree hmoved => exact allTasks_moveTask hcalls hgrant hmoved
  | resume hmoved => exact allTasks_moveTask hcalls hresume hmoved
  | finishPost hmoved => exact allTasks_moveTask hcalls (hfinish _) hmoved
  | cancel hcall hmoved => exact allTasks_moveTask hcalls (hcancel ⟨_, _, rfl⟩) hmoved
  | wake hcall hlater =>
      refine Records.forall_mem_set hcalls _ ?_
      rw [ReplicateCall.tasks_wake hlater]
      exact hcalls _ (List.mem_of_getElem? hcall)
  | discard hmem hcall hresult => exact hcalls
  | shutdown => exact hcalls

end Replicator

end KvReplication.LeaderFollower
