import Mathlib.Algebra.Order.BigOperators.Group.List
import KvReplication.LeaderFollower.Sending

/-! # The permits of a replicator

Whatever way a send ends, and wherever it is cancelled, it has given back the permit it
was granted. So over all writes the permits held and the free ones are always as many
as the semaphore started with, and no POST is under way without one.
-/

namespace KvReplication.LeaderFollower

open WaitLoop

/-- A task holds a permit from its grant to the end of its POST, and no longer. -/
structure SendTask.Coherent (task : SendTask) : Prop where
  holds_iff : task.holds = true ↔ task.stage = .granted ∨ task.stage = .posting
  underWay_iff : task.post = .underWay ↔ task.stage = .posting

namespace SendTask

variable {task moved : SendTask}

theorem Coherent.new : new.Coherent := ⟨by decide, by decide⟩

theorem Coherent.finished (result : Except PyError Bool) {post : PostState}
    (hpost : post ≠ .underWay) : Coherent ⟨.finished result, false, post⟩ :=
  ⟨by simp, by simpa using hpost⟩

theorem Coherent.not_holds (hcoherent : task.Coherent) {stage : TaskStage}
    (hstage : task.stage = stage) (hgranted : stage ≠ .granted) (hposting : stage ≠ .posting) :
    task.holds = false ∧ task.post ≠ .underWay := by
  constructor
  · rw [← Bool.not_eq_true, hcoherent.holds_iff, hstage]
    exact fun hor => hor.elim hgranted hposting
  · rw [ne_eq, hcoherent.underWay_iff, hstage]
    exact hposting

/-- A first step takes a permit only if it goes on to post. -/
theorem coherent_begin (hcoherent : task.Coherent) {closed locked : Bool}
    (hmoved : task.begin closed locked = some moved) :
    moved.Coherent ∧ task.holds = false ∧ moved.holds = !(closed || locked) := by
  unfold begin at hmoved
  split at hmoved
  · next hstage =>
      obtain ⟨hholds, hpost⟩ := hcoherent.not_holds hstage (by simp) (by simp)
      split at hmoved
      · next hclosed =>
          obtain rfl := Option.some.inj hmoved
          refine ⟨?_, hholds, by simp [hclosed, hholds]⟩
          rw [hholds]
          exact Coherent.finished (.ok false) hpost
      · next hopen =>
          split at hmoved
          · next hlocked =>
              obtain rfl := Option.some.inj hmoved
              refine ⟨⟨by simp [hholds], by simpa using hpost⟩, hholds, by simp [hlocked, hholds]⟩
          · next hfree =>
              obtain rfl := Option.some.inj hmoved
              exact ⟨⟨by simp, by simp⟩, hholds, by simp [hopen, hfree]⟩
  · cases hmoved

theorem coherent_grant (hcoherent : task.Coherent) (hmoved : task.grant = some moved) :
    moved.Coherent ∧ task.holds = false ∧ moved.holds = true := by
  unfold grant at hmoved
  split at hmoved
  · next hstage =>
      obtain ⟨hholds, hpost⟩ := hcoherent.not_holds hstage (by simp) (by simp)
      obtain rfl := Option.some.inj hmoved
      exact ⟨⟨by simp, by simpa using hpost⟩, hholds, rfl⟩
  · cases hmoved

theorem coherent_resume (hcoherent : task.Coherent) {closed : Bool}
    (hmoved : task.resume closed = some moved) :
    moved.Coherent ∧ task.holds = true ∧ moved.holds = !closed := by
  unfold resume at hmoved
  split at hmoved
  · next hstage =>
      have hholds : task.holds = true := hcoherent.holds_iff.mpr (Or.inl hstage)
      split at hmoved
      · next hclosed =>
          obtain rfl := Option.some.inj hmoved
          exact ⟨Coherent.finished _ (by simp), hholds, by simp [hclosed]⟩
      · next hopen =>
          obtain rfl := Option.some.inj hmoved
          exact ⟨⟨by simp [hholds], by simp⟩, hholds, by simp [hopen, hholds]⟩
  · cases hmoved

theorem coherent_finishPost (hcoherent : task.Coherent) {reply : Reply ReplicateResponse}
    (hmoved : task.finishPost reply = some moved) :
    moved.Coherent ∧ task.holds = true ∧ moved.holds = false := by
  unfold finishPost at hmoved
  split at hmoved
  · next hstage =>
      obtain rfl := Option.some.inj hmoved
      exact ⟨Coherent.finished _ (by simp), hcoherent.holds_iff.mpr (Or.inr hstage), rfl⟩
  · cases hmoved

theorem coherent_cancel (hcoherent : task.Coherent) (hmoved : task.cancel = some moved) :
    moved.Coherent ∧ moved.holds = false := by
  unfold cancel at hmoved
  split at hmoved
  · cases hmoved
  · obtain rfl := Option.some.inj hmoved
    exact ⟨Coherent.finished _ (by simp), rfl⟩
  · next _ hposting =>
      obtain rfl := Option.some.inj hmoved
      refine ⟨Coherent.finished _ ?_, rfl⟩
      rw [ne_eq, hcoherent.underWay_iff]
      exact hposting

end SendTask

namespace Replicator

variable (replicator : Replicator)

/-- The tasks of a call that were granted a permit and have not released it. -/
def holdersOf (call : ReplicateCall) : Nat :=
  replicator.entries.countP fun entry => (call.tasks entry).holds

/-- The tasks that hold a permit, over all calls. -/
def holders (calls : List ReplicateCall) : Nat := (calls.map replicator.holdersOf).sum

/-- The POSTs under way, over all calls. -/
def postsUnderWay (calls : List ReplicateCall) : Nat :=
  (calls.map fun call =>
    replicator.entries.countP fun entry => (call.tasks entry).post = .underWay).sum

variable {replicator} {calls calls' : List ReplicateCall} {state next : Sending}

/-- The permits held change with the task that moves. -/
theorem holders_moveTask {index entry : Nat} {move : SendTask → Option SendTask}
    (hmoved : replicator.moveTask calls index entry move = some calls') :
    ∃ call task, calls[index]? = some call ∧ entry ∈ replicator.entries ∧
      move (call.tasks entry) = some task ∧
      replicator.holders calls' + (call.tasks entry).holds.toNat =
        replicator.holders calls + task.holds.toNat := by
  obtain ⟨call, hcall, hentry, task, htask, rfl⟩ := moveTask_eq_some.mp hmoved
  refine ⟨call, task, hcall, hentry, htask, ?_⟩
  have hsum := Records.sum_map_set replicator.holdersOf hcall (call.setTask entry task)
  have hcount := Records.countP_change (fun other => (call.tasks other).holds)
    (fun other => ((call.setTask entry task).tasks other).holds) List.nodup_range hentry
    fun other _ hne => by simp [ReplicateCall.setTask, hne]
  have hown : ((call.setTask entry task).tasks entry).holds = task.holds := by
    simp [ReplicateCall.setTask]
  rw [hown] at hcount
  change replicator.holdersOf (call.setTask entry task) + _ = replicator.holdersOf call + _
    at hcount
  simp only [holders]
  omega

theorem holders_wake {index : Nat} {call later : ReplicateCall} (hcall : calls[index]? = some call)
    (htasks : later.tasks = call.tasks) :
    replicator.holders (calls.set index later) = replicator.holders calls := by
  have hsum := Records.sum_map_set replicator.holdersOf hcall later
  have hsame : replicator.holdersOf later = replicator.holdersOf call := by
    rw [holdersOf, holdersOf, htasks]
  simp only [holders]
  omega

/-- The permits of the semaphore are free or held, and tasks know which. -/
structure Conserves (replicator : Replicator) (state : Sending) : Prop where
  permits : replicator.holders state.calls + state.permits = maxConcurrentReplicateCalls
  coherent : replicator.AllTasks SendTask.Coherent state.calls

theorem Conserves.init : replicator.Conserves init where
  permits := rfl
  coherent call hcall := by cases hcall

/-- A move that turns what a task holds from `before` to `after` does so for one of all. -/
theorem holders_of_coherent (hcoherent : replicator.AllTasks SendTask.Coherent calls)
    {index entry : Nat} {move : SendTask → Option SendTask} {before after : Bool}
    (hmove : ∀ task moved, task.Coherent → move task = some moved →
      task.holds = before ∧ moved.holds = after)
    (hmoved : replicator.moveTask calls index entry move = some calls') :
    replicator.holders calls' + before.toNat = replicator.holders calls + after.toNat := by
  obtain ⟨call, task, hcall, hentry, htask, hsum⟩ := holders_moveTask hmoved
  have hown := hcoherent call (List.mem_of_getElem? hcall) entry hentry
  obtain ⟨hbefore, hafter⟩ := hmove _ _ hown htask
  rwa [hbefore, hafter] at hsum

/-- Permits move between the free ones and a task. -/
theorem permits_step (hconserves : replicator.Conserves state) {action : SendingAction}
    (hnext : replicator.step state action = some next) :
    replicator.holders next.calls + next.permits =
      replicator.holders state.calls + state.permits := by
  have hcoherent := hconserves.coherent
  cases effect_of_step hnext with
  | replicate =>
      have hnone : replicator.holdersOf
          ⟨fun _ => .new, Replicate.start replicator.entries replicator.ackRequired⟩ = 0 :=
        List.countP_eq_zero.mpr fun entry _ => Bool.false_ne_true
      simp only [holders, List.map_append, List.map_singleton, List.sum_append,
        List.sum_singleton, hnone, Nat.add_zero]
  | begin hmoved =>
      have hsum := holders_of_coherent hcoherent
        (fun _ _ htask hmove => (SendTask.coherent_begin htask hmove).2) hmoved
      -- a task that takes a permit on its first step found one free
      cases hblocked : state.closed || replicator.locked state with
      | true =>
          simp only [hblocked, Bool.not_true, Bool.toNat_false] at hsum
          simp only [if_true]
          omega
      | false =>
          have hfree : state.permits ≠ 0 := by
            intro hzero
            simp [locked, hzero] at hblocked
          simp only [hblocked, Bool.not_false, Bool.toNat_true, Bool.toNat_false] at hsum
          simp only [Bool.false_eq_true, if_false]
          omega
  | grant hfree hmoved =>
      have hsum := holders_of_coherent hcoherent
        (fun _ _ htask hmove => (SendTask.coherent_grant htask hmove).2) hmoved
      simp only [Bool.toNat_true, Bool.toNat_false] at hsum
      dsimp only
      omega
  | resume hmoved =>
      have hsum := holders_of_coherent hcoherent
        (fun _ _ htask hmove => (SendTask.coherent_resume htask hmove).2) hmoved
      cases hclosed : state.closed with
      | true =>
          simp only [hclosed, Bool.not_true, Bool.toNat_true, Bool.toNat_false] at hsum
          simp only [if_true]
          omega
      | false =>
          simp only [hclosed, Bool.not_false, Bool.toNat_true] at hsum
          simp only [Bool.false_eq_true, if_false]
          omega
  | finishPost hmoved =>
      have hsum := holders_of_coherent hcoherent
        (fun _ _ htask hmove => (SendTask.coherent_finishPost htask hmove).2) hmoved
      simp only [Bool.toNat_true, Bool.toNat_false] at hsum
      dsimp only
      omega
  | cancel hcall hmoved =>
      obtain ⟨found, task, hfound, hentry, htask, hsum⟩ := holders_moveTask hmoved
      obtain rfl := Option.some.inj (hcall.symm.trans hfound)
      have hown := hcoherent _ (List.mem_of_getElem? hcall) _ hentry
      rw [(SendTask.coherent_cancel hown htask).2] at hsum
      simp only [Bool.toNat_false] at hsum
      dsimp only
      omega
  | wake hcall hlater =>
      exact congrArg (· + _) (holders_wake hcall (ReplicateCall.tasks_wake hlater))
  | discard hmem hcall hresult => rfl
  | shutdown => rfl

theorem Conserves.step (hconserves : replicator.Conserves state) {action : SendingAction}
    (hnext : replicator.step state action = some next) : replicator.Conserves next where
  permits := (permits_step hconserves hnext).trans hconserves.permits
  coherent := allTasks_step SendTask.Coherent.new
    (fun _ _ _ htask hmoved => (SendTask.coherent_begin htask hmoved).1)
    (fun _ _ htask hmoved => (SendTask.coherent_grant htask hmoved).1)
    (fun _ _ htask hmoved => (SendTask.coherent_resume htask hmoved).1)
    (fun _ _ _ htask hmoved => (SendTask.coherent_finishPost htask hmoved).1)
    (fun _ _ _ htask hmoved => (SendTask.coherent_cancel htask hmoved).1)
    hconserves.coherent hnext

theorem Conserves.run {actions : List SendingAction}
    (hrun : Runs.run replicator.step Replicator.init actions = some state) :
    replicator.Conserves state :=
  Runs.run_invariant replicator.Conserves
    (fun _ _ _ _ hconserves hnext => hconserves.step hnext)
    (fun _ _ => trivial : ∀ action ∈ actions, True) Conserves.init hrun

/-- There are no more POSTs under way than permits held. -/
theorem postsUnderWay_le (hcoherent : replicator.AllTasks SendTask.Coherent calls) :
    replicator.postsUnderWay calls ≤ replicator.holders calls := by
  refine List.sum_le_sum fun call hcall => ?_
  refine List.countP_mono_left fun entry hentry hpost => ?_
  have htask := hcoherent call hcall entry hentry
  exact htask.holds_iff.mpr (Or.inr (htask.underWay_iff.mp (of_decide_eq_true hpost)))

/-- In every reachable state the permits held by sends and the free ones are as many as the
semaphore has; a POST is under way only for a send that holds one, so at most that many are;
and once every send has finished all permits are free. -/
theorem permits_conserved (replicator : Replicator) (actions : List SendingAction)
    (state : Sending) (hrun : Runs.run replicator.step init actions = some state) :
    replicator.holders state.calls + state.permits = maxConcurrentReplicateCalls ∧
    (∀ call ∈ state.calls, ∀ entry ∈ replicator.entries,
      (call.tasks entry).post = .underWay → (call.tasks entry).holds = true) ∧
    replicator.postsUnderWay state.calls ≤ maxConcurrentReplicateCalls ∧
    ((∀ call ∈ state.calls, ∀ entry ∈ replicator.entries, (call.result entry).isSome) →
      state.permits = maxConcurrentReplicateCalls) := by
  have hconserves := Conserves.run hrun
  have hpermits := hconserves.permits
  refine ⟨hpermits, fun call hcall entry hentry hpost => ?_, ?_, fun hfinished => ?_⟩
  · have htask := hconserves.coherent call hcall entry hentry
    exact htask.holds_iff.mpr (Or.inr (htask.underWay_iff.mp hpost))
  · have hposts : replicator.postsUnderWay state.calls ≤ replicator.holders state.calls :=
      postsUnderWay_le hconserves.coherent
    omega
  · have hnone : replicator.holders state.calls = 0 := by
      refine List.sum_eq_zero fun count hcount => ?_
      obtain ⟨call, hcall, rfl⟩ := List.mem_map.mp hcount
      refine List.countP_eq_zero.mpr fun entry hentry => ?_
      have htask := hconserves.coherent call hcall entry hentry
      have hresult := hfinished call hcall entry hentry
      rw [htask.holds_iff]
      rintro (hstage | hstage) <;>
        simp [ReplicateCall.result, SendTask.result, hstage] at hresult
    omega

/-- A send that failed and one that was cancelled have both given their permits back. -/
theorem permits_free_after_failures :
    ∃ state, Runs.run (step ⟨[⟨"localhost", 8001⟩, ⟨"localhost", 8002⟩], 1⟩) init
        [.replicate, .begin 0 0, .begin 0 1, .cancel 0 1, .finishPost 0 0 (.error .invalidUrl)] =
          some state ∧
      state.permits = maxConcurrentReplicateCalls := by
  refine ⟨_, rfl, (permits_conserved ⟨[⟨"localhost", 8001⟩, ⟨"localhost", 8002⟩], 1⟩
    [.replicate, .begin 0 0, .begin 0 1, .cancel 0 1, .finishPost 0 0 (.error .invalidUrl)]
    _ rfl).2.2.2 ?_⟩
  decide

end Replicator

end KvReplication.LeaderFollower
