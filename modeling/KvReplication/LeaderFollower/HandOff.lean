import KvReplication.LeaderFollower.Sending

/-! # The hand-off of unfinished sends

`replicate` adds the sends it no longer waits for to the background set behind its loop.
A cancellation at the await, or the exception of a finished send, unwinds from inside the
loop and skips that, so that nothing holds the sends which are still running then.
-/

namespace KvReplication.LeaderFollower

open WaitLoop

namespace Replicate

variable {ackRequired : Int} {state : Replicate} {event : Wake Nat (Except PyError Bool)}

/-- The exception a wake-up makes `replicate` raise. -/
def raised : Wake Nat (Except PyError Bool) → Option PyError
  | .cancelled => some .cancelledError
  | .timeout => none
  | .done finished =>
      match sumDone finished with
      | .error error => some error
      | .ok _ => none

/-- An exception hands nothing over. -/
theorem wake_of_raised {error : PyError} (hraised : raised event = some error) :
    (state.wake ackRequired event).exit = some (.error error) ∧
      (state.wake ackRequired event).background = state.background := by
  cases event with
  | timeout => cases hraised
  | cancelled =>
      obtain rfl := Option.some.inj hraised
      exact ⟨rfl, rfl⟩
  | done finished =>
      simp only [raised] at hraised
      simp only [wake]
      cases hsum : sumDone finished with
      | ok acks =>
          rw [hsum] at hraised
          cases hraised
      | error first =>
          rw [hsum] at hraised
          obtain rfl := Option.some.inj hraised
          exact ⟨rfl, rfl⟩

/-- A loop that ends at its test hands over what is pending. -/
theorem background_check (hrunning : state.exit = none)
    (hended : (check ackRequired state).exit.isSome) :
    (check ackRequired state).background = (check ackRequired state).pending := by
  unfold check at hended ⊢
  split
  · rfl
  · next hstay =>
      rw [if_neg hstay, hrunning] at hended
      cases hended

theorem background_check_of_running (hstill : (check ackRequired state).exit = none) :
    (check ackRequired state).background = state.background := by
  unfold check at hstill ⊢
  split
  · next hends =>
      rw [if_pos hends] at hstill
      cases hstill
  · rfl

/-- Every end of the loop but by an exception hands over what is pending. -/
theorem background_wake (hrunning : state.exit = none) (hraised : raised event = none)
    (hended : (state.wake ackRequired event).exit.isSome) :
    (state.wake ackRequired event).background = (state.wake ackRequired event).pending := by
  cases event with
  | timeout => rfl
  | cancelled => cases hraised
  | done finished =>
      simp only [raised] at hraised
      simp only [wake] at hended ⊢
      cases hsum : sumDone finished with
      | error error =>
          rw [hsum] at hraised
          cases hraised
      | ok acks =>
          rw [hsum] at hended
          exact background_check hrunning hended

theorem background_of_running (hstill : (state.wake ackRequired event).exit = none) :
    (state.wake ackRequired event).background = state.background := by
  cases event with
  | timeout => cases hstill
  | cancelled => cases hstill
  | done finished =>
      simp only [wake] at hstill ⊢
      cases hsum : sumDone finished with
      | error error => rfl
      | ok acks =>
          rw [hsum] at hstill
          exact background_check_of_running hstill

/-- A wake-up takes out of the pending sends those it brings, and no others. -/
theorem pending_wake {entry : Nat} (hpending : entry ∈ state.pending) :
    entry ∈ (state.wake ackRequired event).pending ∨ entry ∈ event.tasks := by
  cases event with
  | timeout => exact Or.inl hpending
  | cancelled => exact Or.inl hpending
  | done finished =>
      refine (mem_filter_not_mem_or hpending (finished.map Prod.fst)).imp_left fun hleft => ?_
      simp only [wake]
      cases sumDone finished with
      | error error => exact hleft
      | ok acks => simpa only [pending_check] using hleft

end Replicate

namespace SendTask

variable {task moved : SendTask}

theorem result_of_stage (hstage : ∀ result, task.stage ≠ .finished result) :
    task.result = none := by
  unfold result
  split
  · next result hresult => exact absurd hresult (hstage result)
  · rfl

/-- Only an unfinished task makes a move. -/
theorem begin_unfinished {closed locked : Bool} (hmoved : task.begin closed locked = some moved) :
    task.result = none := by
  unfold begin at hmoved
  split at hmoved
  · next hstage => exact result_of_stage fun result => by rw [hstage]; simp
  · cases hmoved

theorem grant_unfinished (hmoved : task.grant = some moved) : task.result = none := by
  unfold grant at hmoved
  split at hmoved
  · next hstage => exact result_of_stage fun result => by rw [hstage]; simp
  · cases hmoved

theorem resume_unfinished {closed : Bool} (hmoved : task.resume closed = some moved) :
    task.result = none := by
  unfold resume at hmoved
  split at hmoved
  · next hstage => exact result_of_stage fun result => by rw [hstage]; simp
  · cases hmoved

theorem finishPost_unfinished {reply : Reply ReplicateResponse}
    (hmoved : task.finishPost reply = some moved) : task.result = none := by
  unfold finishPost at hmoved
  split at hmoved
  · next hstage => exact result_of_stage fun result => by rw [hstage]; simp
  · cases hmoved

theorem cancel_unfinished (hmoved : task.cancel = some moved) : task.result = none := by
  unfold cancel at hmoved
  split at hmoved
  · cases hmoved
  · next hstage => exact result_of_stage fun result => by rw [hstage]; simp
  · next hrunning hposting => exact result_of_stage hrunning

end SendTask

namespace ReplicateCall

variable {call next : ReplicateCall} {entries : List Nat}

/-- What the loop no longer waits for has finished, and a running loop has handed over
nothing. -/
structure Tracked (entries : List Nat) (call : ReplicateCall) : Prop where
  waited : ∀ entry ∈ entries, (call.result entry).isSome ∨ entry ∈ call.loop.pending
  unhanded : call.loop.exit = none → call.loop.background = []

/-- A send that has finished stays finished while another one moves. -/
theorem isSome_result_setTask {entry : Nat} (hunfinished : call.result entry = none)
    (task : SendTask) {other : Nat} (hother : (call.result other).isSome) :
    ((call.setTask entry task).result other).isSome := by
  have hne : other ≠ entry := by
    rintro rfl
    rw [hunfinished] at hother
    cases hother
  simpa [result, setTask, hne] using hother

theorem Tracked.start (tasks : Nat → SendTask) (ackRequired : Int) :
    Tracked entries ⟨tasks, Replicate.start entries ackRequired⟩ where
  waited entry hentry := by
    refine Or.inr ?_
    simpa only [Replicate.start, Replicate.pending_check] using hentry
  unhanded hrunning := Replicate.background_check_of_running hrunning

theorem Tracked.setTask (htracked : call.Tracked entries) {entry : Nat}
    (hunfinished : call.result entry = none) (task : SendTask) :
    (call.setTask entry task).Tracked entries where
  waited other hother :=
    (htracked.waited other hother).imp_left (isSome_result_setTask hunfinished task)
  unhanded := htracked.unhanded

theorem Tracked.wake (htracked : call.Tracked entries) {ackRequired : Int} {signal : Signal Nat}
    (hnext : call.wake ackRequired signal = some next) : next.Tracked entries := by
  obtain ⟨event, hevent, loop, hloop, rfl⟩ := wake_eq_some.mp hnext
  obtain ⟨hrunning, hallowed, rfl⟩ := Replicate.step_eq_some.mp hloop
  refine ⟨fun entry hentry => ?_, fun hstill => ?_⟩
  · rcases htracked.waited entry hentry with hresult | hpending
    · exact Or.inl hresult
    · have hwake : entry ∈ (call.loop.wake ackRequired event).pending ∨ entry ∈ event.tasks :=
        Replicate.pending_wake hpending
      exact hwake.symm.imp_left (Signal.isSome_of_mem_tasks hevent)
  · exact (Replicate.background_of_running hstill).trans (htracked.unhanded hrunning)

end ReplicateCall

namespace Replicator

variable (replicator : Replicator)

/-- Every send of a `replicate` that has ended has finished or is in the background set. -/
def KeepsHold (state : Sending) : Prop :=
  ∀ (index : Nat) call, state.calls[index]? = some call → call.loop.exit.isSome →
    ∀ entry ∈ replicator.entries,
      (call.result entry).isSome ∨ (index, entry) ∈ state.background

/-- A `replicate` that this action makes raise has no send that is still running. -/
def RaisesLast (state : Sending) : SendingAction → Prop
  | .wake index signal => ∀ call, state.calls[index]? = some call →
      ∀ event, signal.event call.result = some event → (Replicate.raised event).isSome →
        ∀ entry ∈ replicator.entries, (call.result entry).isSome
  | _ => True

/-- The calls are tracked, and only calls that have ended have sends in the background set. -/
structure Waits (state : Sending) : Prop where
  tracked : ∀ (index : Nat) call, state.calls[index]? = some call →
    call.Tracked replicator.entries
  owned : ∀ place ∈ state.background, ∃ call, state.calls[place.1]? = some call ∧
    call.loop.exit.isSome

/-- What a step does to the calls and the background set. -/
inductive Change (state next : Sending) : SendingAction → Prop where
  | replicate {call : ReplicateCall}
      (hcall : call = ⟨fun _ => .new, Replicate.start replicator.entries replicator.ackRequired⟩)
      (hcalls : next.calls = state.calls ++ [call])
      (hbackground : next.background = state.background ∪ call.handOver state.calls.length) :
      Change state next .replicate
  | task {action index entry call task} (hcall : state.calls[index]? = some call)
      (hunfinished : call.result entry = none)
      (hcalls : next.calls = state.calls.set index (call.setTask entry task))
      (hbackground : next.background = state.background) : Change state next action
  | wake {index signal call later} (hcall : state.calls[index]? = some call)
      (hlater : call.wake replicator.ackRequired signal = some later)
      (hcalls : next.calls = state.calls.set index later)
      (hbackground : next.background = state.background ∪ later.handOver index) :
      Change state next (.wake index signal)
  | discard {index entry call} (hcall : state.calls[index]? = some call)
      (hresult : (call.result entry).isSome) (hcalls : next.calls = state.calls)
      (hbackground : next.background = state.background.erase (index, entry)) :
      Change state next (.discard index entry)
  | shutdown (hcalls : next.calls = state.calls)
      (hbackground : next.background = state.background) : Change state next .shutdown

variable {replicator} {state next : Sending}

theorem task_of_moveTask {index entry : Nat} {move : SendTask → Option SendTask}
    {calls : List ReplicateCall}
    (hmove : ∀ task moved, move task = some moved → task.result = none)
    (hmoved : replicator.moveTask state.calls index entry move = some calls) :
    ∃ call task, state.calls[index]? = some call ∧ call.result entry = none ∧
      calls = state.calls.set index (call.setTask entry task) := by
  obtain ⟨call, hcall, -, task, htask, rfl⟩ := moveTask_eq_some.mp hmoved
  exact ⟨call, task, hcall, hmove _ _ htask, rfl⟩

theorem change_of_step {action : SendingAction}
    (hnext : replicator.step state action = some next) : replicator.Change state next action := by
  cases effect_of_step hnext with
  | replicate => exact .replicate rfl rfl rfl
  | begin hmoved =>
      obtain ⟨call, task, hcall, hunfinished, rfl⟩ :=
        task_of_moveTask (fun _ _ htask => SendTask.begin_unfinished htask) hmoved
      exact .task hcall hunfinished rfl rfl
  | grant hfree hmoved =>
      obtain ⟨call, task, hcall, hunfinished, rfl⟩ :=
        task_of_moveTask (fun _ _ htask => SendTask.grant_unfinished htask) hmoved
      exact .task hcall hunfinished rfl rfl
  | resume hmoved =>
      obtain ⟨call, task, hcall, hunfinished, rfl⟩ :=
        task_of_moveTask (fun _ _ htask => SendTask.resume_unfinished htask) hmoved
      exact .task hcall hunfinished rfl rfl
  | finishPost hmoved =>
      obtain ⟨call, task, hcall, hunfinished, rfl⟩ :=
        task_of_moveTask (fun _ _ htask => SendTask.finishPost_unfinished htask) hmoved
      exact .task hcall hunfinished rfl rfl
  | cancel _ hmoved =>
      obtain ⟨call, task, hcall, hunfinished, rfl⟩ :=
        task_of_moveTask (fun _ _ htask => SendTask.cancel_unfinished htask) hmoved
      exact .task hcall hunfinished rfl rfl
  | wake hcall hlater => exact .wake hcall hlater rfl rfl
  | discard _ hcall hresult => exact .discard hcall hresult rfl rfl
  | shutdown => exact .shutdown rfl rfl

/-- A loop that has ended takes no further wake-up. -/
theorem running_of_wake {call later : ReplicateCall} {ackRequired : Int} {signal : Signal Nat}
    (hlater : call.wake ackRequired signal = some later) : call.loop.exit = none := by
  obtain ⟨event, -, loop, hloop, rfl⟩ := ReplicateCall.wake_eq_some.mp hlater
  exact (Replicate.step_eq_some.mp hloop).1

/-- Only a loop that has ended hands anything over. -/
theorem ended_of_handOver {call : ReplicateCall} (htracked : call.Tracked replicator.entries)
    {index : Nat} {place : Nat × Nat} (hplace : place ∈ call.handOver index) :
    place.1 = index ∧ call.loop.exit.isSome := by
  rw [ReplicateCall.handOver, List.mem_toFinset, List.mem_map] at hplace
  obtain ⟨entry, hentry, rfl⟩ := hplace
  refine ⟨rfl, ?_⟩
  rw [Option.isSome_iff_ne_none]
  intro hrunning
  rw [htracked.unhanded hrunning] at hentry
  cases hentry

theorem Waits.init : replicator.Waits init where
  tracked index call hcall := by cases hcall
  owned place hplace := by cases hplace

theorem tracked_step (hwaits : replicator.Waits state) {action : SendingAction}
    (hnext : replicator.step state action = some next) :
    ∀ (index : Nat) call, next.calls[index]? = some call → call.Tracked replicator.entries := by
  cases change_of_step hnext with
  | replicate hcall hcalls hbackground =>
      rw [hcalls, hcall]
      exact Records.forall_getElem?_concat hwaits.tracked (ReplicateCall.Tracked.start _ _)
  | task hcall hunfinished hcalls hbackground =>
      rw [hcalls]
      exact Records.forall_getElem?_set hwaits.tracked
        ((hwaits.tracked _ _ hcall).setTask hunfinished _)
  | wake hcall hlater hcalls hbackground =>
      rw [hcalls]
      exact Records.forall_getElem?_set hwaits.tracked ((hwaits.tracked _ _ hcall).wake hlater)
  | discard hcall hresult hcalls hbackground =>
      rw [hcalls]
      exact hwaits.tracked
  | shutdown hcalls hbackground =>
      rw [hcalls]
      exact hwaits.tracked

/-- An ended call stays ended, and only one that has ended adds to the background set. -/
theorem owned_step (hwaits : replicator.Waits state) {action : SendingAction}
    (hnext : replicator.step state action = some next) :
    ∀ place ∈ next.background, ∃ call, next.calls[place.1]? = some call ∧
      call.loop.exit.isSome := by
  cases change_of_step hnext with
  | @replicate call hcall hcalls hbackground =>
      rw [hcalls, hbackground]
      intro place hplace
      rcases Finset.mem_union.mp hplace with hold | hnew
      · obtain ⟨owner, howner, hended⟩ := hwaits.owned place hold
        exact Records.exists_getElem?_append (fun _ later => later.loop.exit.isSome) _ howner hended
      · have htracked : call.Tracked replicator.entries := by
          rw [hcall]
          exact ReplicateCall.Tracked.start _ _
        obtain ⟨hindex, hended⟩ := ended_of_handOver htracked hnew
        exact ⟨call, by simp [hindex], hended⟩
  | @task _ index entry call task hcall hunfinished hcalls hbackground =>
      rw [hcalls, hbackground]
      intro place hplace
      obtain ⟨owner, howner, hended⟩ := hwaits.owned place hplace
      obtain ⟨later, hlater, hsame⟩ := Records.exists_getElem?_set
        (fun earlier later => later.loop = earlier.loop) hcall
        (show (call.setTask entry task).loop = call.loop from rfl) howner rfl
      exact ⟨later, hlater, hsame ▸ hended⟩
  | @wake index signal call later hcall hlater hcalls hbackground =>
      rw [hcalls, hbackground]
      intro place hplace
      rcases Finset.mem_union.mp hplace with hold | hnew
      · obtain ⟨owner, howner, hended⟩ := hwaits.owned place hold
        have hne : index ≠ place.1 := by
          rintro rfl
          obtain rfl := Option.some.inj (hcall.symm.trans howner)
          rw [running_of_wake hlater] at hended
          cases hended
        exact ⟨owner, by rw [List.getElem?_set_ne hne, howner], hended⟩
      · have htracked := (hwaits.tracked index call hcall).wake hlater
        obtain ⟨hindex, hended⟩ := ended_of_handOver htracked hnew
        have hbound := (List.getElem?_eq_some_iff.mp hcall).1
        exact ⟨later, by rw [hindex, List.getElem?_set_self hbound], hended⟩
  | discard hcall hresult hcalls hbackground =>
      rw [hcalls, hbackground]
      exact fun place hplace => hwaits.owned place (Finset.mem_of_mem_erase hplace)
  | shutdown hcalls hbackground =>
      rw [hcalls, hbackground]
      exact hwaits.owned

theorem Waits.step (hwaits : replicator.Waits state) {action : SendingAction}
    (hnext : replicator.step state action = some next) : replicator.Waits next :=
  ⟨tracked_step hwaits hnext, owned_step hwaits hnext⟩

theorem Waits.run {actions : List SendingAction}
    (hrun : Runs.run replicator.step Replicator.init actions = some state) :
    replicator.Waits state :=
  Runs.run_invariant replicator.Waits (fun _ _ _ _ hwaits hnext => hwaits.step hnext)
    (fun _ _ => trivial : ∀ action ∈ actions, True) Waits.init hrun

/-- A loop that ends without raising has its unfinished sends handed over. -/
theorem mem_handOver {call later : ReplicateCall} (htracked : call.Tracked replicator.entries)
    {signal : Signal Nat} (hlater : call.wake replicator.ackRequired signal = some later)
    {event : Wake Nat (Except PyError Bool)} (hevent : signal.event call.result = some event)
    (hraised : Replicate.raised event = none) (hended : later.loop.exit.isSome) {entry : Nat}
    (hentry : entry ∈ replicator.entries) (index : Nat) :
    (later.result entry).isSome ∨ (index, entry) ∈ later.handOver index := by
  refine ((htracked.wake hlater).waited entry hentry).imp_right fun hpending => ?_
  obtain ⟨found, hfound, loop, hloop, rfl⟩ := ReplicateCall.wake_eq_some.mp hlater
  obtain rfl := Option.some.inj (hevent.symm.trans hfound)
  obtain ⟨hrunning, -, rfl⟩ := Replicate.step_eq_some.mp hloop
  rw [ReplicateCall.handOver, List.mem_toFinset,
    Replicate.background_wake hrunning hraised hended]
  exact List.mem_map_of_mem hpending

theorem KeepsHold.step (hkeeps : replicator.KeepsHold state) (hwaits : replicator.Waits state)
    {action : SendingAction} (hraises : replicator.RaisesLast state action)
    (hnext : replicator.step state action = some next) : replicator.KeepsHold next := by
  cases change_of_step hnext with
  | @replicate call hcall hcalls hbackground =>
      rw [KeepsHold, hcalls, hbackground]
      refine Records.forall_getElem?_concat (fun index call hcall hended entry hentry => ?_) ?_
      · exact (hkeeps index call hcall hended entry hentry).imp_right (Finset.mem_union_left _)
      · intro hended entry hentry
        refine Or.inr (Finset.mem_union_right _ ?_)
        subst hcall
        rw [ReplicateCall.handOver, List.mem_toFinset]
        refine List.mem_map_of_mem ?_
        change entry ∈ (Replicate.check _ _).background
        rw [Replicate.background_check rfl hended, Replicate.pending_check]
        exact hentry
  | @task _ index entry call task hcall hunfinished hcalls hbackground =>
      rw [KeepsHold, hcalls, hbackground]
      refine Records.forall_getElem?_set hkeeps fun hended other hother => ?_
      exact (hkeeps index call hcall hended other hother).imp_left
        (ReplicateCall.isSome_result_setTask hunfinished task)
  | @wake index signal call later hcall hlater hcalls hbackground =>
      rw [KeepsHold, hcalls, hbackground]
      refine Records.forall_getElem?_set (fun index call hcall hended entry hentry => ?_) ?_
      · exact (hkeeps index call hcall hended entry hentry).imp_right (Finset.mem_union_left _)
      · intro hended entry hentry
        obtain ⟨event, hevent, -⟩ := ReplicateCall.wake_eq_some.mp hlater
        cases hraised : Replicate.raised event with
        | none =>
            exact (mem_handOver (hwaits.tracked index call hcall) hlater hevent hraised hended
              hentry index).imp_right (Finset.mem_union_right _)
        | some error =>
            have hresult := hraises call hcall event hevent (by rw [hraised]; rfl) entry hentry
            rw [ReplicateCall.result, ReplicateCall.tasks_wake hlater]
            exact Or.inl hresult
  | @discard index entry call hcall hresult hcalls hbackground =>
      rw [KeepsHold, hcalls, hbackground]
      intro place found hfound hended other hother
      rcases hkeeps place found hfound hended other hother with hfinished | hmem
      · exact Or.inl hfinished
      · by_cases hsame : (place, other) = (index, entry)
        · obtain ⟨rfl, rfl⟩ := Prod.mk.inj hsame
          obtain rfl := Option.some.inj (hcall.symm.trans hfound)
          exact Or.inl hresult
        · exact Or.inr (Finset.mem_erase.mpr ⟨hsame, hmem⟩)
  | shutdown hcalls hbackground =>
      rw [KeepsHold, hcalls, hbackground]
      exact hkeeps

/-- Where a `replicate` raises over a running send, nothing holds that send. -/
theorem raisesLast_of_keepsHold (hwaits : replicator.Waits state) {action : SendingAction}
    (hnext : replicator.step state action = some next) (hkeeps : replicator.KeepsHold next) :
    replicator.RaisesLast state action := by
  cases action with
  | wake index signal =>
      intro call hcall event hevent hraised entry hentry
      obtain ⟨error, herror⟩ := Option.isSome_iff_exists.mp hraised
      cases effect_of_step hnext with
      | @wake _ _ found later hfound hlater =>
          obtain rfl := Option.some.inj (hcall.symm.trans hfound)
          have hrunning := running_of_wake hlater
          have hunhanded := (hwaits.tracked index call hcall).unhanded hrunning
          have htasks := ReplicateCall.tasks_wake hlater
          obtain ⟨found, hsignal, loop, hloop, rfl⟩ := ReplicateCall.wake_eq_some.mp hlater
          obtain rfl := Option.some.inj (hevent.symm.trans hsignal)
          obtain ⟨-, -, rfl⟩ := Replicate.step_eq_some.mp hloop
          obtain ⟨hexit, hbackground⟩ :
              (call.loop.wake replicator.ackRequired event).exit = some (.error error) ∧
                (call.loop.wake replicator.ackRequired event).background =
                  call.loop.background :=
            Replicate.wake_of_raised herror
          have hbound := (List.getElem?_eq_some_iff.mp hcall).1
          have hheld := hkeeps index _ (List.getElem?_set_self hbound) (by rw [hexit]; rfl)
            entry hentry
          refine hheld.resolve_right fun hmem => ?_
          rcases Finset.mem_union.mp hmem with hold | hnew
          · obtain ⟨owner, howner, hended⟩ := hwaits.owned _ hold
            obtain rfl := Option.some.inj (hcall.symm.trans howner)
            rw [hrunning] at hended
            cases hended
          · simp [ReplicateCall.handOver, hbackground, hunhanded] at hnew
  | _ => trivial

/-- Every send stays held from the end of its `replicate` until it has finished, in every state
of a run, exactly when in that run no `replicate` raises over a send that is still running. -/
theorem sends_held_iff (replicator : Replicator) (actions : List SendingAction) (final : Sending)
    (hrun : Runs.run replicator.step init actions = some final) :
    (∀ before after, actions = before ++ after →
        ∀ state, Runs.run replicator.step init before = some state →
          replicator.KeepsHold state) ↔
      Runs.Along replicator.step replicator.RaisesLast init actions := by
  constructor
  · intro hkeeps
    by_contra hnot
    obtain ⟨before, action, after, state, next, rfl, hbefore, hnext, hraises, -⟩ :=
      Runs.exists_of_not_along hrun hnot
    have hheld := hkeeps (before ++ [action]) after (by simp) next
      ((Runs.run_concat_eq_some _).mpr ⟨state, hbefore, hnext⟩)
    exact hraises (raisesLast_of_keepsHold (Waits.run hbefore) hnext hheld)
  · rintro halong before after rfl state hstate
    refine (Runs.run_invariant_along
      (fun state => replicator.Waits state ∧ replicator.KeepsHold state) ?_
      (Runs.along_append.mp halong).1 ⟨Waits.init, ?_⟩ hstate).2
    · rintro state action next hraises ⟨hwaits, hkeeps⟩ hnext
      exact ⟨hwaits.step hnext, hkeeps.step hwaits hraises hnext⟩
    · intro index call hcall
      cases hcall

/-- One ack is enough: the send to the slower of two followers is in the background set. -/
theorem slower_send_held :
    ∃ final, Runs.run (step ⟨[⟨"localhost", 8001⟩, ⟨"localhost", 8002⟩], 1⟩) init
        [.replicate, .begin 0 0, .begin 0 1,
          .finishPost 0 0 (.ok (200, .ok ⟨true⟩)), .wake 0 (.done [0])] = some final ∧
      KeepsHold ⟨[⟨"localhost", 8001⟩, ⟨"localhost", 8002⟩], 1⟩ final := by
  refine ⟨_, rfl, (sends_held_iff ⟨[⟨"localhost", 8001⟩, ⟨"localhost", 8002⟩], 1⟩ _ _ rfl).mpr ?_
    [.replicate, .begin 0 0, .begin 0 1, .finishPost 0 0 (.ok (200, .ok ⟨true⟩)),
      .wake 0 (.done [0])] [] rfl _ rfl⟩
  refine Runs.along_cons rfl trivial (Runs.along_cons rfl trivial (Runs.along_cons rfl trivial
    (Runs.along_cons rfl trivial (Runs.along_cons rfl ?_ trivial))))
  intro call hcall event hevent hraised
  obtain rfl := Option.some.inj hcall
  obtain rfl := Option.some.inj hevent
  cases hraised

/-- The client of a leader's PUT goes away while the follower is still answering. -/
theorem cancelled_put_drops_send :
    ∃ final, Runs.run (step ⟨[⟨"localhost", 8001⟩], 1⟩) init
        [.replicate, .begin 0 0, .wake 0 .cancelled] = some final ∧
      ∃ call, final.calls[0]? = some call ∧
        call.loop.exit = some (.error .cancelledError) ∧
        0 ∈ entries ⟨[⟨"localhost", 8001⟩], 1⟩ ∧ (call.tasks 0).post = .underWay ∧
        call.result 0 = none ∧ (0, 0) ∉ final.background := by
  refine ⟨_, rfl, _, rfl, rfl, by decide, rfl, rfl, ?_⟩
  decide

end Replicator

end KvReplication.LeaderFollower
