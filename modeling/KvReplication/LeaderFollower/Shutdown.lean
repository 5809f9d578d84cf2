import KvReplication.LeaderFollower.Sending

/-! # Sends and the closing of the client

A send looks whether the client is closed before it queues for a permit, and not again.
So a send that is in the queue when the client closes goes on to post on the closed
client; every other send without a POST returns `False`.
-/

namespace KvReplication.LeaderFollower

open WaitLoop

/-- The action does not cancel a task. -/
def SendingAction.KeepsTasks : SendingAction → Prop
  | .cancel _ _ => False
  | _ => True

namespace SendTask

/-- A task of an open client that nobody cancelled. -/
inductive OpenStage : SendTask → Prop where
  | created (holds : Bool) : OpenStage ⟨.created, holds, .unissued⟩
  | waiting (holds : Bool) : OpenStage ⟨.waiting, holds, .unissued⟩
  | granted (holds : Bool) : OpenStage ⟨.granted, holds, .unissued⟩
  | posting (holds : Bool) : OpenStage ⟨.posting, holds, .underWay⟩
  | finished (result : Except PyError Bool) (holds : Bool) :
      OpenStage ⟨.finished result, holds, .ended⟩

/-- A task of a closed client that was not in the queue when it closed. -/
inductive ClosedStage : SendTask → Prop where
  | created (holds : Bool) : ClosedStage ⟨.created, holds, .unissued⟩
  | failed (holds : Bool) : ClosedStage ⟨.finished (.ok false), holds, .unissued⟩
  | posting (holds : Bool) : ClosedStage ⟨.posting, holds, .underWay⟩
  | finished (result : Except PyError Bool) (holds : Bool) :
      ClosedStage ⟨.finished result, holds, .ended⟩

variable {task moved : SendTask}

theorem OpenStage.begin (hopen : task.OpenStage) {locked : Bool}
    (hmoved : task.begin false locked = some moved) : moved.OpenStage := by
  cases hopen with
  | created holds =>
      cases locked with
      | true =>
          obtain rfl := Option.some.inj hmoved
          exact .waiting holds
      | false =>
          obtain rfl := Option.some.inj hmoved
          exact .posting true
  | _ => cases hmoved

theorem OpenStage.grant (hopen : task.OpenStage) (hmoved : task.grant = some moved) :
    moved.OpenStage := by
  cases hopen with
  | waiting holds =>
      obtain rfl := Option.some.inj hmoved
      exact .granted true
  | _ => cases hmoved

theorem OpenStage.resume (hopen : task.OpenStage) (hmoved : task.resume false = some moved) :
    moved.OpenStage := by
  cases hopen with
  | granted holds =>
      obtain rfl := Option.some.inj hmoved
      exact .posting holds
  | _ => cases hmoved

theorem OpenStage.finishPost (hopen : task.OpenStage) {reply : Reply ReplicateResponse}
    (hmoved : task.finishPost reply = some moved) : moved.OpenStage := by
  cases hopen with
  | posting holds =>
      obtain rfl := Option.some.inj hmoved
      exact .finished _ false
  | _ => cases hmoved

/-- Closing the client leaves the tasks that are not in the queue in order. -/
theorem OpenStage.closed (hopen : task.OpenStage) (hqueued : task.queued = false) :
    task.ClosedStage := by
  cases hopen with
  | created holds => exact .created holds
  | waiting holds => cases hqueued
  | granted holds => cases hqueued
  | posting holds => exact .posting holds
  | finished result holds => exact .finished result holds

theorem ClosedStage.begin (hclosed : task.ClosedStage) {locked : Bool}
    (hmoved : task.begin true locked = some moved) : moved.ClosedStage := by
  cases hclosed with
  | created holds =>
      obtain rfl := Option.some.inj hmoved
      exact .failed holds
  | _ => cases hmoved

/-- Nothing is in the queue any more. -/
theorem ClosedStage.not_grant (hclosed : task.ClosedStage) : task.grant = none := by
  cases hclosed <;> rfl

theorem ClosedStage.not_resume (hclosed : task.ClosedStage) (closed : Bool) :
    task.resume closed = none := by
  cases hclosed <;> rfl

theorem ClosedStage.finishPost (hclosed : task.ClosedStage) {reply : Reply ReplicateResponse}
    (hmoved : task.finishPost reply = some moved) : moved.ClosedStage := by
  cases hclosed with
  | posting holds =>
      obtain rfl := Option.some.inj hmoved
      exact .finished _ false
  | _ => cases hmoved

end SendTask

namespace Replicator

variable (replicator : Replicator)

/-- No send that had not posted when the client closed posts later: it has returned `False`,
or does so as soon as it runs. -/
def ReturnsFalse (state : Sending) : Prop :=
  ∀ (index : Nat) call, state.calls[index]? = some call → ∀ entry ∈ replicator.entries,
    (call.tasks entry).post = .unissued ∨ (call.tasks entry).post = .refused →
      (call.tasks entry).post ≠ .refused ∧
        (call.result entry = some (.ok false) ∨
          call.result entry = none ∧ ∃ next later,
            replicator.step state (.begin index entry) = some next ∧
              next.calls[index]? = some later ∧ later.result entry = some (.ok false))

/-- No send is between its look at the client and its POST. -/
def QueueEmpty (state : Sending) : Prop :=
  replicator.AllTasks (fun task => task.queued = false) state.calls

variable {replicator} {state next final : Sending}

/-- A step closes the client or leaves it as it is. -/
theorem closed_step {action : SendingAction} (hnext : replicator.step state action = some next)
    (hclosed : next.closed = false) : state.closed = false := by
  cases effect_of_step hnext with
  | shutdown => cases hclosed
  | _ => exact hclosed

theorem closed_stays {action : SendingAction} (hnext : replicator.step state action = some next)
    (hclosed : state.closed = true) : next.closed = true := by
  cases hnextClosed : next.closed with
  | true => rfl
  | false => rw [closed_step hnext hnextClosed] at hclosed; cases hclosed

/-- As long as the client is open no task has met a closed one. -/
theorem openStage_run {actions : List SendingAction}
    (hactions : ∀ action ∈ actions, action.KeepsTasks)
    (hrun : Runs.run replicator.step init actions = some state) (hopen : state.closed = false) :
    replicator.AllTasks SendTask.OpenStage state.calls := by
  refine Runs.run_invariant
    (fun state => state.closed = false → replicator.AllTasks SendTask.OpenStage state.calls)
    ?_ hactions ?_ hrun hopen
  · intro state action next hkeeps hstages hnext hclosed
    have hbefore := closed_step hnext hclosed
    refine allTasks_step (.created false) ?_ (fun _ _ hopen => hopen.grant) ?_
      (fun _ _ _ hopen => hopen.finishPost) ?_ (hstages hbefore) hnext
    · intro locked task moved hopen hmoved
      exact hopen.begin (hbefore ▸ hmoved)
    · intro task moved hopen hmoved
      exact hopen.resume (hbefore ▸ hmoved)
    · rintro ⟨index, entry, rfl⟩
      exact hkeeps.elim
  · intro _ call hcall
    cases hcall

/-- After the client closed with an empty queue the tasks stay in order. -/
theorem closedStage_run {actions : List SendingAction}
    (hactions : ∀ action ∈ actions, action.KeepsTasks) (hclosed : state.closed = true)
    (hstages : replicator.AllTasks SendTask.ClosedStage state.calls)
    (hrun : Runs.run replicator.step state actions = some final) :
    final.closed = true ∧ replicator.AllTasks SendTask.ClosedStage final.calls := by
  refine Runs.run_invariant (fun state =>
      state.closed = true ∧ replicator.AllTasks SendTask.ClosedStage state.calls)
    ?_ hactions ⟨hclosed, hstages⟩ hrun
  rintro state action next hkeeps ⟨hbefore, hstages⟩ hnext
  refine ⟨closed_stays hnext hbefore, ?_⟩
  refine allTasks_step (.created false) ?_ ?_ ?_ (fun _ _ _ hclosed => hclosed.finishPost) ?_
    hstages hnext
  · intro locked task moved hclosed hmoved
    exact hclosed.begin (hbefore ▸ hmoved)
  · intro task moved hclosed hmoved
    rw [hclosed.not_grant] at hmoved
    cases hmoved
  · intro task moved hclosed hmoved
    rw [hclosed.not_resume] at hmoved
    cases hmoved
  · rintro ⟨index, entry, rfl⟩
    exact hkeeps.elim

/-- On a closed client a task that has not run returns `False`. -/
theorem begin_returns_false (hclosed : state.closed = true) {index entry : Nat}
    {call : ReplicateCall} (hcall : state.calls[index]? = some call)
    (hentry : entry ∈ replicator.entries) (hcreated : (call.tasks entry).stage = .created) :
    ∃ next later, replicator.step state (.begin index entry) = some next ∧
      next.calls[index]? = some later ∧ later.result entry = some (.ok false) := by
  have hbegin : (call.tasks entry).begin state.closed (replicator.locked state) =
      some { call.tasks entry with stage := .finished (.ok false) } := by
    rw [SendTask.begin, if_pos hcreated, if_pos hclosed]
  have hmoved := moveTask_eq_some.mpr ⟨call, hcall, hentry, _, hbegin, rfl⟩
  have hbound := (List.getElem?_eq_some_iff.mp hcall).1
  refine ⟨{ state with calls := state.calls.set index (call.setTask entry
      { call.tasks entry with stage := .finished (.ok false) }) }, _, ?_,
    List.getElem?_set_self hbound, ?_⟩
  · simp only [step, hmoved]
    simp [hclosed]
  · simp [ReplicateCall.result, ReplicateCall.setTask, SendTask.result]

theorem returnsFalse_of_closedStage (hclosed : state.closed = true)
    (hstages : replicator.AllTasks SendTask.ClosedStage state.calls) :
    replicator.ReturnsFalse state := by
  intro index call hcall entry hentry hunposted
  have hstage := hstages call (List.mem_of_getElem? hcall) entry hentry
  have hrun : (call.tasks entry).stage = .created → ∃ next later,
      replicator.step state (.begin index entry) = some next ∧
        next.calls[index]? = some later ∧ later.result entry = some (.ok false) :=
    begin_returns_false hclosed hcall hentry
  rw [ReplicateCall.result]
  generalize call.tasks entry = task at hstage hunposted hrun ⊢
  cases hstage with
  | created holds => exact ⟨by simp, Or.inr ⟨rfl, hrun rfl⟩⟩
  | failed holds => exact ⟨by simp, Or.inl rfl⟩
  | posting holds => simp at hunposted
  | finished result holds => simp at hunposted

/-- Whatever happens after the client closes, all sends without a POST return `False` and none
of them posts, exactly when no send was in the queue at that moment. -/
theorem queued_sends_survive_iff (replicator : Replicator) (before : List SendingAction)
    (state : Sending) (hrun : Runs.run replicator.step init before = some state)
    (hbefore : ∀ action ∈ before, action.KeepsTasks) (hopen : state.closed = false) :
    (∀ after final, (∀ action ∈ after, action.KeepsTasks) →
        Runs.run replicator.step state (.shutdown :: after) = some final →
        replicator.ReturnsFalse final) ↔
      replicator.QueueEmpty state := by
  have hstages := openStage_run hbefore hrun hopen
  constructor
  · intro hsurvive call hcall entry hentry
    obtain ⟨index, hindex⟩ := List.getElem?_of_mem hcall
    have hfalse := hsurvive [] { state with closed := true } (by simp) rfl index call hindex
      entry hentry
    -- a task in the queue has not returned, and it does not start again
    have hstage := hstages call hcall entry hentry
    have hnobegin : (call.tasks entry).stage ≠ .created →
        ¬ ∃ next later, replicator.step { state with closed := true } (.begin index entry) =
          some next ∧ next.calls[index]? = some later ∧ later.result entry = some (.ok false) := by
      rintro hstarted ⟨next, later, hstep, -⟩
      cases effect_of_step hstep with
      | begin hmoved =>
          obtain ⟨found, hfound, -, task, htask, -⟩ := moveTask_eq_some.mp hmoved
          obtain rfl := Option.some.inj (hindex.symm.trans hfound)
          rw [SendTask.begin, if_neg hstarted] at htask
          cases htask
    rw [ReplicateCall.result] at hfalse
    generalize call.tasks entry = task at hstage hfalse hnobegin ⊢
    cases hstage with
    | waiting holds =>
        obtain ⟨-, hreturned | ⟨-, hstarts⟩⟩ := hfalse (Or.inl rfl)
        · cases hreturned
        · exact absurd hstarts (hnobegin (by simp))
    | granted holds =>
        obtain ⟨-, hreturned | ⟨-, hstarts⟩⟩ := hfalse (Or.inl rfl)
        · cases hreturned
        · exact absurd hstarts (hnobegin (by simp))
    | _ => rfl
  · intro hqueue after final hafter hshutdown
    obtain ⟨closed, hclosed, hlater⟩ := (Runs.run_cons_eq_some _).mp hshutdown
    obtain rfl := Option.some.inj hclosed
    have hclosedStages : replicator.AllTasks SendTask.ClosedStage
        ({ state with closed := true } : Sending).calls :=
      fun call hcall entry hentry =>
        (hstages call hcall entry hentry).closed (hqueue call hcall entry hentry)
    obtain ⟨hfinal, hfinalStages⟩ := closedStage_run hafter rfl hclosedStages hlater
    exact returnsFalse_of_closedStage hfinal hfinalStages

/-- A send whose POST is under way survives the closing of the client. -/
theorem posting_send_survives :
    ∃ state, Runs.run (step ⟨[⟨"localhost", 8001⟩], 1⟩) init [.replicate, .begin 0 0] =
        some state ∧
      ∀ after final, (∀ action ∈ after, action.KeepsTasks) →
        Runs.run (step ⟨[⟨"localhost", 8001⟩], 1⟩) state (.shutdown :: after) = some final →
        ReturnsFalse ⟨[⟨"localhost", 8001⟩], 1⟩ final := by
  refine ⟨_, rfl, (queued_sends_survive_iff ⟨[⟨"localhost", 8001⟩], 1⟩ [.replicate, .begin 0 0] _
    rfl ?_ rfl).mpr ?_⟩
  · intro action haction
    rcases List.mem_cons.mp haction with rfl | hlast
    · trivial
    · obtain rfl := List.mem_singleton.mp hlast
      trivial
  · intro call hcall entry hentry
    obtain rfl := List.mem_singleton.mp hcall
    obtain rfl := List.mem_singleton.mp hentry
    rfl

section OneTooMany

/-- A replicator with one follower whose ack every write waits for. -/
def solo : Replicator := ⟨[⟨"localhost", 8001⟩], 1⟩

/-- A call whose task has not started, and the same call with its task at a later stage. -/
def freshCall : ReplicateCall := ⟨fun _ => .new, Replicate.start solo.entries solo.ackRequired⟩

def callAt (task : SendTask) : ReplicateCall := freshCall.setTask 0 task

/-- So many writes have their POSTs under way. -/
def busy (count : Nat) : Sending :=
  ⟨List.replicate count (callAt ⟨.posting, true, .underWay⟩), maxConcurrentReplicateCalls - count,
    false, ∅⟩

theorem moveTask_last {calls : List ReplicateCall} {call : ReplicateCall} {task : SendTask}
    {move : SendTask → Option SendTask} (hmove : move (call.tasks 0) = some task) :
    solo.moveTask (calls ++ [call]) calls.length 0 move =
      some (calls ++ [call.setTask 0 task]) := by
  refine moveTask_eq_some.mpr ⟨call, by simp, by decide, task, hmove, by simp⟩

theorem locked_busy {count : Nat} :
    solo.locked { busy count with calls := (busy count).calls ++ [freshCall] } =
      (maxConcurrentReplicateCalls - count == 0) := by
  have hqueue : ((busy count).calls ++ [freshCall]).any (fun call =>
      solo.entries.any fun entry => (call.tasks entry).queued) = false := by
    rw [List.any_eq_false]
    intro call hcall
    rcases List.mem_append.mp hcall with hold | hnew
    · rw [List.eq_of_mem_replicate hold]
      decide
    · rw [List.mem_singleton.mp hnew]
      decide
  rw [locked, hqueue, Bool.or_false]
  rfl

theorem busy_replicate (count : Nat) :
    solo.step (busy count) .replicate =
      some { busy count with calls := (busy count).calls ++ [freshCall] } := rfl

/-- One more write posts as long as a permit is free. -/
theorem busy_begin {count : Nat} (hcount : count < maxConcurrentReplicateCalls) :
    Runs.run solo.step (busy count) [.replicate, .begin count 0] = some (busy (count + 1)) := by
  have hunlocked : solo.locked { busy count with calls := (busy count).calls ++ [freshCall] } =
      false := by
    rw [locked_busy]
    exact beq_eq_false_iff_ne.mpr (Nat.sub_ne_zero_of_lt hcount)
  have hmoved : solo.moveTask ((busy count).calls ++ [freshCall]) count 0
      (SendTask.begin false false) =
        some ((busy count).calls ++ [callAt ⟨.posting, true, .underWay⟩]) := by
    have hlast : solo.moveTask ((busy count).calls ++ [freshCall]) (busy count).calls.length 0
        (SendTask.begin false false) =
          some ((busy count).calls ++ [callAt ⟨.posting, true, .underWay⟩]) :=
      moveTask_last rfl
    rwa [show (busy count).calls.length = count from List.length_replicate] at hlast
  refine (Runs.run_cons_eq_some _).mpr ⟨_, busy_replicate count, ?_⟩
  refine (Runs.run_cons_eq_some _).mpr ⟨_, ?_, rfl⟩
  simp only [step, hunlocked]
  change (solo.moveTask ((busy count).calls ++ [freshCall]) count 0
    (SendTask.begin false false)).bind _ = _
  rw [hmoved]
  simp only [busy, Option.bind_some, List.replicate_succ', Bool.or_self, Bool.false_eq_true,
    if_false, Nat.sub_sub]
  rfl

/-- So many writes come in, and each one's send starts at once. -/
def crowd (count : Nat) : List SendingAction :=
  (List.range count).flatMap fun index => [.replicate, .begin index 0]

theorem busy_run {count : Nat} (hcount : count ≤ maxConcurrentReplicateCalls) :
    Runs.run solo.step init (crowd count) = some (busy count) := by
  induction count with
  | zero => rfl
  | succ count ih =>
      rw [crowd, List.range_succ, List.flatMap_append, List.flatMap_singleton]
      exact (Runs.run_append_eq_some _).mpr
        ⟨_, ih (Nat.le_of_succ_le hcount), busy_begin hcount⟩

/-- Every permit is taken; the next send queues, the client closes, and a permit is freed. -/
def strandedSend (count : Nat) : List SendingAction :=
  [.replicate, .begin count 0, .shutdown, .finishPost 0 0 (.error .httpError), .grant count 0,
    .resume count 0]

/-- The next send finds no permit and queues. -/
theorem waits_behind (calls : List ReplicateCall) (background : Finset (Nat × Nat)) :
    solo.step ⟨calls ++ [freshCall], 0, false, background⟩ (.begin calls.length 0) =
      some ⟨calls ++ [callAt ⟨.waiting, false, .unissued⟩], 0, false, background⟩ := by
  have hmoved : solo.moveTask (calls ++ [freshCall]) calls.length 0
      (SendTask.begin false true) = some (calls ++ [callAt ⟨.waiting, false, .unissued⟩]) :=
    moveTask_last rfl
  change (solo.moveTask (calls ++ [freshCall]) calls.length 0
    (SendTask.begin false true)).bind _ = _
  rw [hmoved]
  rfl

/-- Once another POST has ended, the queued send is granted its permit and raises. -/
theorem raises_behind (first : ReplicateCall) (rest : List ReplicateCall)
    (background : Finset (Nat × Nat)) {done : SendTask}
    (hfirst : (first.tasks 0).finishPost (.error .httpError) = some done) :
    ∃ final, Runs.run solo.step
        ⟨first :: rest ++ [callAt ⟨.waiting, false, .unissued⟩], 0, true, background⟩
        [.finishPost 0 0 (.error .httpError), .grant (rest.length + 1) 0,
          .resume (rest.length + 1) 0] = some final ∧
      ∃ call, final.calls[rest.length + 1]? = some call ∧ (call.tasks 0).post = .refused ∧
        call.result 0 = some (.error .runtimeError) := by
  have hfinish : solo.moveTask (first :: rest ++ [callAt ⟨.waiting, false, .unissued⟩]) 0 0
      (SendTask.finishPost (.error .httpError)) =
        some (first.setTask 0 done :: rest ++ [callAt ⟨.waiting, false, .unissued⟩]) :=
    moveTask_eq_some.mpr ⟨first, rfl, by decide, done, hfirst, rfl⟩
  obtain ⟨granted, htask, hgrant⟩ : ∃ granted : ReplicateCall,
      granted.tasks 0 = ⟨.granted, true, .unissued⟩ ∧
      solo.moveTask (first.setTask 0 done :: rest ++ [callAt ⟨.waiting, false, .unissued⟩])
        (rest.length + 1) 0 SendTask.grant =
          some (first.setTask 0 done :: rest ++ [granted]) :=
    ⟨_, rfl, moveTask_last rfl⟩
  have hresume : solo.moveTask (first.setTask 0 done :: rest ++ [granted]) (rest.length + 1) 0
      (SendTask.resume true) = some (first.setTask 0 done :: rest ++
        [granted.setTask 0 ⟨.finished (.error .runtimeError), false, .refused⟩]) :=
    moveTask_last (by rw [htask]; rfl)
  refine ⟨⟨first.setTask 0 done :: rest ++
    [granted.setTask 0 ⟨.finished (.error .runtimeError), false, .refused⟩], 1, true, background⟩,
    ?_, granted.setTask 0 ⟨.finished (.error .runtimeError), false, .refused⟩, by simp,
    by simp [ReplicateCall.setTask], by simp [ReplicateCall.result, ReplicateCall.setTask,
      SendTask.result]⟩
  refine (Runs.run_cons_eq_some _).mpr ⟨⟨first.setTask 0 done :: rest ++
    [callAt ⟨.waiting, false, .unissued⟩], 1, true, background⟩, ?_, ?_⟩
  · simp only [step, hfinish]
    rfl
  refine (Runs.run_cons_eq_some _).mpr ⟨⟨first.setTask 0 done :: rest ++ [granted], 0, true,
    background⟩, ?_, ?_⟩
  · simp only [step, hgrant]
    rfl
  refine (Runs.run_cons_eq_some _).mpr ⟨_, ?_, rfl⟩
  simp only [step, hresume]
  rfl

theorem strandedSend_run {count : Nat} (hcount : count = maxConcurrentReplicateCalls) :
    ∃ final, Runs.run solo.step (busy count) (strandedSend count) = some final ∧
      ∃ call, final.calls[count]? = some call ∧ (call.tasks 0).post = .refused ∧
        call.result 0 = some (.error .runtimeError) := by
  obtain ⟨others, rfl⟩ : ∃ others, count = others + 1 := ⟨255, hcount⟩
  have hbusy : busy (others + 1) = ⟨callAt ⟨.posting, true, .underWay⟩ ::
      List.replicate others (callAt ⟨.posting, true, .underWay⟩), 0, false, ∅⟩ := by
    rw [busy, List.replicate_succ, ← hcount, Nat.sub_self]
  have hwaits := waits_behind (callAt ⟨.posting, true, .underWay⟩ ::
    List.replicate others (callAt ⟨.posting, true, .underWay⟩)) ∅
  obtain ⟨final, hrun, hraises⟩ := raises_behind (callAt ⟨.posting, true, .underWay⟩)
    (List.replicate others (callAt ⟨.posting, true, .underWay⟩)) ∅ rfl
  rw [List.length_cons, List.length_replicate] at hwaits
  rw [List.length_replicate] at hrun hraises
  refine ⟨final, ?_, hraises⟩
  rw [hbusy]
  refine (Runs.run_cons_eq_some _).mpr ⟨_, rfl, ?_⟩
  refine (Runs.run_cons_eq_some _).mpr ⟨_, hwaits, ?_⟩
  exact (Runs.run_cons_eq_some _).mpr ⟨_, rfl, hrun⟩

theorem keepsTasks_stranded (count : Nat) :
    ∀ action ∈ crowd count ++ strandedSend count, action.KeepsTasks := by
  intro action haction
  rcases List.mem_append.mp haction with hbusy | hlast
  · obtain ⟨index, -, hmem⟩ := List.mem_flatMap.mp hbusy
    rcases List.mem_cons.mp hmem with rfl | hbegin
    · trivial
    · obtain rfl := List.mem_singleton.mp hbegin
      trivial
  · simp only [strandedSend, List.mem_cons, List.not_mem_nil, or_false] at hlast
    rcases hlast with rfl | rfl | rfl | rfl | rfl | rfl <;> trivial

/-- With one write more than there are permits, the last one's send was queued when the client
closed; it posts on the closed client and raises. -/
theorem queued_send_raises :
    (∀ action ∈ crowd maxConcurrentReplicateCalls ++ strandedSend maxConcurrentReplicateCalls,
      action.KeepsTasks) ∧
    ∃ final, Runs.run solo.step init
        (crowd maxConcurrentReplicateCalls ++ strandedSend maxConcurrentReplicateCalls) =
          some final ∧
      ∃ call, final.calls[maxConcurrentReplicateCalls]? = some call ∧
        (call.tasks 0).post = .refused ∧ call.result 0 = some (.error .runtimeError) := by
  obtain ⟨final, hrun, hraises⟩ := strandedSend_run (Eq.refl maxConcurrentReplicateCalls)
  exact ⟨keepsTasks_stranded maxConcurrentReplicateCalls, final,
    (Runs.run_append_eq_some _).mpr
      ⟨_, busy_run (Nat.le_refl maxConcurrentReplicateCalls), hrun⟩, hraises⟩

end OneTooMany

end Replicator

end KvReplication.LeaderFollower
