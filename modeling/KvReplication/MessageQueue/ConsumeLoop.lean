import KvReplication.MessageQueue.Follower

/-! # How the consume loop ends

The loop runs in a background task of the app. It is cancelled when the app shuts down;
a malformed message is committed past like any other; but an exception of a commit
leaves the task, and the app goes on serving reads from a store that no longer changes.
-/

namespace KvReplication.MessageQueue

variable {V Bytes : Type} {partitions : Nat}

/-- The app was shut down and not started again since. -/
def ShutDown (history : List (Action partitions)) : Prop :=
  ∃ before after, history = before ++ .cancel :: after ∧ .restart ∉ after

section Claims

variable (codec : Codec V Bytes) (log : Log partitions Bytes) (actions : List (Action partitions))

/-- However the commit of a message turns out, the loop asks for the next message. -/
def GoesOn : Prop :=
  ∀ before outcome after middle, actions = before ++ outcome :: after →
    (outcome = .commit ∨ outcome = .commitFails) →
    Runs.run (step codec log) init (before ++ [outcome]) = some middle → middle.loop = .awaiting

/-- As long as the app serves, its consume task runs. -/
def EndsWithApp : Prop :=
  ∀ before after middle, actions = before ++ after →
    Runs.run (step codec log) init before = some middle → middle.loop.Running ∨ ShutDown before

end Claims

variable {codec : Codec V Bytes} {log : Log partitions Bytes}
  {state next final : State partitions V Bytes} {actions : List (Action partitions)}

/-- Only a new process consumes again. -/
theorem ended_of_step {action : Action partitions} (hkeeps : action ≠ .restart)
    (hended : ¬ state.loop.Running) (hnext : step codec log state action = some next) :
    ¬ next.loop.Running := by
  have hother : ∀ stage, state.loop = stage → ¬ stage.Running := fun stage heq => heq ▸ hended
  cases change_of_step hnext with
  | restart => exact absurd rfl hkeeps
  | receive hloop => exact absurd trivial (hother _ hloop)
  | apply hloop => exact absurd trivial (hother _ hloop)
  | commit hloop => exact absurd trivial (hother _ hloop)
  | ended => exact fun hrunning => hrunning

theorem ended_of_run (hkeeps : .restart ∉ actions) (hended : ¬ state.loop.Running)
    (hrun : Runs.run (step codec log) state actions = some final) : ¬ final.loop.Running := by
  refine Runs.run_invariant (fun state : State partitions V Bytes => ¬ state.loop.Running)
    (fun _ _ _ hallowed hinvariant hnext => ended_of_step hallowed hinvariant hnext) ?_ hended hrun
  rintro action hmem rfl
  exact hkeeps hmem

/-- A commit is tried on a message that was just applied, so the loop runs. -/
theorem running_of_commitFails (hnext : step codec log state .commitFails = some next) :
    state.loop.Running ∧ ¬ next.loop.Running := by
  simp only [step] at hnext
  split at hnext
  · next hloop =>
      obtain rfl := Option.some.inj hnext
      exact ⟨by rw [hloop]; trivial, fun hrunning => hrunning⟩
  · cases hnext

theorem not_running_of_cancel (hnext : step codec log state .cancel = some next) :
    ¬ next.loop.Running := by
  simp only [step] at hnext
  split at hnext
  · cases hnext
  · obtain rfl := Option.some.inj hnext
    exact fun hrunning => hrunning

/-- After a shutdown the loop runs again only in a new process. -/
theorem ended_of_shutDown (hshutDown : ShutDown actions)
    (hrun : Runs.run (step codec log) init actions = some final) : ¬ final.loop.Running := by
  obtain ⟨before, after, rfl, hkeeps⟩ := hshutDown
  obtain ⟨middle, _, hrest⟩ := (Runs.run_append_eq_some _).mp hrun
  obtain ⟨cancelled, hcancel, hafter⟩ := (Runs.run_cons_eq_some _).mp hrest
  exact ended_of_run hkeeps (not_running_of_cancel hcancel) hafter

/-- Any action but a cancellation leaves a shutdown to the actions before it. -/
theorem ShutDown.of_concat {history : List (Action partitions)} {action : Action partitions}
    (hother : action ≠ .cancel) (hshutDown : ShutDown (history ++ [action])) :
    ShutDown history := by
  obtain ⟨before, after, heq, hafter⟩ := hshutDown
  rcases List.eq_nil_or_concat after with rfl | ⟨rest, last, rfl⟩
  · obtain ⟨_, hlast⟩ := List.append_inj' heq rfl
    exact absurd (List.singleton_inj.mp hlast) hother
  · rw [List.concat_eq_append] at heq hafter
    rw [← List.cons_append, ← List.append_assoc] at heq
    obtain ⟨hinit, _⟩ := List.append_inj' heq rfl
    exact ⟨before, rest, hinit, fun hmem => hafter (List.mem_append_left _ hmem)⟩

/-- A failed commit is the end of a loop that was running. -/
theorem failed_of_mem (hrun : Runs.run (step codec log) init actions = some final)
    (hfails : .commitFails ∈ actions) :
    ∃ before after middle failed, actions = before ++ .commitFails :: after ∧
      Runs.run (step codec log) init before = some middle ∧ middle.loop.Running ∧
      Runs.run (step codec log) init (before ++ [.commitFails]) = some failed ∧
      ¬ failed.loop.Running := by
  obtain ⟨before, after, rfl⟩ := List.append_of_mem hfails
  obtain ⟨middle, hbefore, hrest⟩ := (Runs.run_append_eq_some _).mp hrun
  obtain ⟨failed, hfailed, _⟩ := (Runs.run_cons_eq_some _).mp hrest
  obtain ⟨hrunning, hended⟩ := running_of_commitFails hfailed
  exact ⟨before, after, middle, failed, rfl, hbefore, hrunning,
    (Runs.run_concat_eq_some _).mpr ⟨middle, hbefore, hfailed⟩, hended⟩

/-- Without a failed commit the loop runs until the app is shut down. -/
theorem running_or_shutDown (hcommits : .commitFails ∉ actions)
    (hrun : Runs.run (step codec log) init actions = some final) :
    final.loop.Running ∨ ShutDown actions := by
  refine Runs.run_history_invariant (fun history state => .commitFails ∉ history →
    state.loop.Running ∨ ShutDown history) ?_ (fun _ => Or.inl trivial) hrun hcommits
  intro history state action next hinvariant hnext hnone
  rw [List.mem_append, not_or] at hnone
  have hbefore := hinvariant hnone.1
  cases action with
  | receive partition =>
      cases change_of_step hnext with
      | receive hloop => exact Or.inl trivial
      | ended haction => simp at haction
  | apply =>
      cases change_of_step hnext with
      | apply hloop => exact Or.inl trivial
      | ended haction => simp at haction
  | commit =>
      cases change_of_step hnext with
      | commit hloop => exact Or.inl trivial
      | ended haction => simp at haction
  | commitFails => exact absurd List.mem_cons_self hnone.2
  | cancel => exact Or.inr ⟨history, [], rfl, by simp⟩
  | restart =>
      obtain rfl := Option.some.inj hnext
      exact Or.inl trivial

/-- The loop goes on until it is cancelled, whatever it is delivered, exactly in the runs
in which no commit raises. -/
theorem consume_until_cancelled_iff (hrun : Runs.run (step codec log) init actions = some final) :
    (GoesOn codec log actions ↔ .commitFails ∉ actions) ∧
      (EndsWithApp codec log actions ↔ .commitFails ∉ actions) := by
  constructor
  · constructor
    · intro hgoesOn hfails
      obtain ⟨before, after, _, failed, hsplit, _, _, hreached, hended⟩ := failed_of_mem hrun hfails
      have hawaiting := hgoesOn before .commitFails after failed hsplit (Or.inr rfl) hreached
      exact hended (by rw [hawaiting]; trivial)
    · rintro hcommits before outcome after middle rfl houtcome hreached
      obtain ⟨_, _, hnext⟩ := (Runs.run_concat_eq_some _).mp hreached
      rcases houtcome with rfl | rfl
      · cases change_of_step hnext with
        | commit hloop => rfl
        | ended haction => simp at haction
      · exact absurd (List.mem_append_right before List.mem_cons_self) hcommits
  · constructor
    · intro hends hfails
      obtain ⟨before, after, middle, failed, hsplit, hbefore, hrunning, hreached, hended⟩ :=
        failed_of_mem hrun hfails
      rw [List.append_cons] at hsplit
      rcases hends (before ++ [.commitFails]) after failed hsplit hreached with hruns | hshutDown
      · exact hended hruns
      · -- a shutdown before the commit would have ended the loop already
        exact ended_of_shutDown (hshutDown.of_concat (by simp)) hbefore hrunning
    · rintro hcommits before after middle rfl hbefore
      exact running_or_shutDown (fun hmem => hcommits (List.mem_append_left _ hmem)) hbefore

/-- Two writes of one key. -/
def pairLog : Log 1 (Option (ReplicateRequest Nat)) := fun _ =>
  [some ⟨"a", 1, .finite 1, "producer"⟩, some ⟨"a", 2, .finite 2, "producer"⟩]

theorem consume_pair_until_cancelled :
    ∃ final, Runs.run (step plainCodec pairLog) init (consume 0 ++ consume 0 ++ [.cancel]) =
        some final ∧ GoesOn plainCodec pairLog (consume 0 ++ consume 0 ++ [.cancel]) ∧
      EndsWithApp plainCodec pairLog (consume 0 ++ consume 0 ++ [.cancel]) := by
  have hsome : (Runs.run (step plainCodec pairLog) init
      (consume 0 ++ consume 0 ++ [.cancel])).isSome := by decide
  have hrun := (Option.some_get hsome).symm
  obtain ⟨hgoesOn, hends⟩ := consume_until_cancelled_iff hrun
  exact ⟨_, hrun, hgoesOn.mpr (by decide), hends.mpr (by decide)⟩

/-- One message applied, and its commit refused. -/
def refusedCommit : List (Action 1) := [.receive 0, .apply, .commitFails]

/-- A refused commit ends the loop: nobody shut the app down, it answers reads, and the
second message stays unread. -/
theorem commit_failure_ends_loop :
    ∃ final : State 1 Nat (Option (ReplicateRequest Nat)),
      Runs.run (step plainCodec pairLog) init refusedCommit = some final ∧
        ¬ GoesOn plainCodec pairLog refusedCommit ∧
        ¬ EndsWithApp plainCodec pairLog refusedCommit ∧
        Server.getKey final.store "a" = .ok ⟨"a", 1, .finite 1, "producer"⟩ ∧
        step plainCodec pairLog final (.receive 0) = none := by
  refine ⟨_, rfl, fun hgoesOn => ?_, fun hends => ?_, by decide, rfl⟩
  · have hawaiting := hgoesOn [.receive 0, .apply] .commitFails [] _ rfl (Or.inr rfl) rfl
    cases hawaiting
  · rcases hends refusedCommit [] _ rfl rfl with hrunning | ⟨before, after, heq, _⟩
    · exact hrunning
    · have hmem : .cancel ∈ refusedCommit := by
        rw [heq]
        simp
      exact absurd hmem (by decide)

end KvReplication.MessageQueue
