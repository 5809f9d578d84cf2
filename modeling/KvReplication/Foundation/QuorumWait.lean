import KvReplication.Foundation.Runs
import KvReplication.Foundation.WaitLoop

/-! # Waiting for enough successes

What a loop that waits for `needed` successes of some calls is meant to do, whatever
it keeps of their results. Every call returns, and nobody cancels the loop. It stops
at the first wake-up at which enough successes are in, nothing is left to wait for, or
the deadline has passed.
-/

namespace WaitLoop

variable {Task Result : Type*}

/-- One wake-up: some newly finished calls, or the deadline. -/
inductive Delivery (Task : Type*) where
  | done (tasks : List Task)
  | deadline
deriving DecidableEq

/-- The wake-up with the results that the calls return. -/
def Delivery.wake (outcome : Task → Result) : Delivery Task → Wake Task Result
  | done tasks => .done (tasks.map fun task => (task, outcome task))
  | deadline => .timeout

theorem Delivery.tasks_done (tasks : List Task) (outcome : Task → Result) :
    (tasks.map fun task => (task, outcome task)).map Prod.fst = tasks := by
  rw [List.map_map]
  exact List.map_id tasks

theorem Delivery.allowed_done {tasks pending : List Task} {outcome : Task → Result} :
    (wake outcome (done tasks)).Allowed pending ↔
      tasks ≠ [] ∧ tasks.Nodup ∧ ∀ task ∈ tasks, task ∈ pending := by
  simp only [wake, Wake.Allowed, tasks_done, List.forall_mem_map, ne_eq, List.map_eq_nil_iff]

/-- The calls that a schedule delivers, in order. -/
def delivered : List (Delivery Task) → List Task
  | [] => []
  | .done tasks :: rest => tasks ++ delivered rest
  | .deadline :: rest => delivered rest

@[simp] theorem delivered_nil : delivered ([] : List (Delivery Task)) = [] := rfl

@[simp] theorem delivered_append_done (schedule : List (Delivery Task)) (tasks : List Task) :
    delivered (schedule ++ [.done tasks]) = delivered schedule ++ tasks := by
  induction schedule with
  | nil => simp [delivered]
  | cons event rest ih =>
      cases event with
      | done earlier => simp [delivered, ih]
      | deadline => simpa [delivered] using ih

@[simp] theorem delivered_append_deadline (schedule : List (Delivery Task)) :
    delivered (schedule ++ [.deadline]) = delivered schedule := by
  induction schedule with
  | nil => rfl
  | cons event rest ih =>
      cases event with
      | done earlier => simp [delivered, ih]
      | deadline => simpa [delivered] using ih

/-- A loop between two awaits. -/
structure Waiting (Task : Type*) where
  pending : List Task
  successes : Nat
  stopped : Bool

namespace Waiting

variable [DecidableEq Task] (needed : Int) (succeeds : Task → Bool)

/-- Stop if nothing is left to wait for or enough successes are in. -/
def check (waiting : Waiting Task) : Waiting Task :=
  { waiting with stopped := waiting.pending.isEmpty ∨ needed ≤ waiting.successes }

def start (started : List Task) : Waiting Task := check needed ⟨started, 0, false⟩

/-- Take one wake-up, as long as the loop is waiting; one that delivers calls
delivers different pending ones, at least one. -/
def step (waiting : Waiting Task) : Delivery Task → Option (Waiting Task)
  | .deadline => if waiting.stopped then none else some { waiting with stopped := true }
  | .done tasks =>
      if waiting.stopped = false ∧ tasks ≠ [] ∧ tasks.Nodup ∧
          ∀ task ∈ tasks, task ∈ waiting.pending then
        some (check needed { waiting with
          pending := waiting.pending.filter (· ∉ tasks)
          successes := waiting.successes + tasks.countP succeeds })
      else
        none

variable {needed} {succeeds}

omit [DecidableEq Task] in
@[simp] theorem check_pending (waiting : Waiting Task) :
    (check needed waiting).pending = waiting.pending := rfl

omit [DecidableEq Task] in
@[simp] theorem check_successes (waiting : Waiting Task) :
    (check needed waiting).successes = waiting.successes := rfl

omit [DecidableEq Task] in
theorem stopped_check {waiting : Waiting Task} :
    (check needed waiting).stopped = true ↔
      waiting.pending = [] ∨ needed ≤ waiting.successes := by
  simp [check]

theorem stopped_of_step {waiting next : Waiting Task} {event : Delivery Task}
    (hnext : step needed succeeds waiting event = some next) : waiting.stopped = false := by
  cases event with
  | deadline =>
      simp only [step] at hnext
      split at hnext
      · cases hnext
      · next hrunning => simpa using hrunning
  | done tasks =>
      simp only [step] at hnext
      split at hnext
      · next hguard => exact hguard.1
      · cases hnext

/-- The accounts of a loop after the wake-ups of `schedule`. -/
structure Accounts (started : List Task) (needed : Int) (succeeds : Task → Bool)
    (schedule : List (Delivery Task)) (waiting : Waiting Task) : Prop where
  pending_nodup : waiting.pending.Nodup
  mem_pending : ∀ task, task ∈ waiting.pending ↔ task ∈ started ∧ task ∉ delivered schedule
  successes_eq : waiting.successes = (delivered schedule).countP succeeds
  wakes_le : schedule.length + waiting.pending.length ≤
    started.length + if .deadline ∈ schedule then 1 else 0
  pending_of_deadline : .deadline ∈ schedule → waiting.pending ≠ []
  stopped_iff : waiting.stopped = true ↔
    .deadline ∈ schedule ∨ waiting.pending = [] ∨ needed ≤ waiting.successes

theorem Accounts.start {started : List Task} (hnodup : started.Nodup) :
    Accounts started needed succeeds [] (start needed started) where
  pending_nodup := hnodup
  mem_pending task := by simp [Waiting.start]
  successes_eq := rfl
  wakes_le := by simp [Waiting.start]
  pending_of_deadline hmem := by simp at hmem
  stopped_iff := by simp [Waiting.start, stopped_check]

theorem Accounts.step {started : List Task} {schedule : List (Delivery Task)}
    {waiting next : Waiting Task} {event : Delivery Task}
    (haccounts : Accounts started needed succeeds schedule waiting)
    (hnext : step needed succeeds waiting event = some next) :
    Accounts started needed succeeds (schedule ++ [event]) next := by
  have hrunning := stopped_of_step hnext
  -- a loop that takes a wake-up has seen no deadline and has something left to wait for
  have hwaiting : .deadline ∉ schedule ∧ waiting.pending ≠ [] := by
    have hnot := haccounts.stopped_iff.not.mp (by simp [hrunning])
    rw [not_or, not_or] at hnot
    exact ⟨hnot.1, hnot.2.1⟩
  have hwakes := haccounts.wakes_le
  rw [if_neg hwaiting.1] at hwakes
  cases event with
  | deadline =>
      simp only [Waiting.step, hrunning, Bool.false_eq_true, if_false,
        Option.some.injEq] at hnext
      subst hnext
      refine ⟨haccounts.pending_nodup, ?_, ?_, ?_, fun _ => hwaiting.2, ?_⟩
      · simpa using haccounts.mem_pending
      · simpa using haccounts.successes_eq
      · simp only [List.length_append, List.length_singleton, List.mem_append,
          List.mem_singleton, or_true, if_true]
        omega
      · simp
  | done tasks =>
      simp only [Waiting.step] at hnext
      split at hnext
      · next hguard =>
          obtain ⟨_, hnonempty, hnodup, hpending⟩ := hguard
          obtain rfl := Option.some.inj hnext
          have hleft := length_filter_not_mem haccounts.pending_nodup hnodup hpending
          have htaken : 0 < tasks.length := List.length_pos_iff.mpr hnonempty
          have hdeadline : .deadline ∉ schedule ++ [.done tasks] := by
            simpa using hwaiting.1
          refine ⟨haccounts.pending_nodup.filter _, ?_, ?_, ?_, fun hmem => (hdeadline hmem).elim,
            ?_⟩
          · intro task
            simp only [check, List.mem_filter, haccounts.mem_pending, delivered_append_done,
              List.mem_append, decide_eq_true_eq, not_or, and_assoc]
          · simp [haccounts.successes_eq]
          · rw [if_neg hdeadline]
            simp only [check, List.length_append, List.length_singleton]
            omega
          · simp [stopped_check, hwaiting.1]
      · cases hnext

variable {started : List Task} {schedule : List (Delivery Task)} {waiting : Waiting Task}

theorem run_accounts (hnodup : started.Nodup)
    (hrun : Runs.run (step needed succeeds) (start needed started) schedule = some waiting) :
    Accounts started needed succeeds schedule waiting :=
  Runs.run_history_invariant (Accounts started needed succeeds)
    (fun _ _ _ _ haccounts hnext => haccounts.step hnext) (Accounts.start hnodup) hrun

/-- A loop takes at most as many wake-ups as it started calls. -/
theorem length_le_of_run (hnodup : started.Nodup)
    (hrun : Runs.run (step needed succeeds) (start needed started) schedule = some waiting) :
    schedule.length ≤ started.length := by
  have haccounts := run_accounts hnodup hrun
  have hwakes := haccounts.wakes_le
  split at hwakes
  · next hdeadline =>
      have hpending := List.length_pos_iff.mpr (haccounts.pending_of_deadline hdeadline)
      omega
  · omega

/-- Before each of its wake-ups the loop had reason to wait. -/
theorem waiting_before (hnodup : started.Nodup) {before after : List (Delivery Task)}
    {event : Delivery Task}
    (hrun : Runs.run (step needed succeeds) (start needed started) (before ++ event :: after) =
      some waiting) :
    .deadline ∉ before ∧ (∃ task ∈ started, task ∉ delivered before) ∧
      (((delivered before).countP succeeds : Nat) : Int) < needed := by
  obtain ⟨middle, hbefore, hrest⟩ := (Runs.run_append_eq_some _).mp hrun
  obtain ⟨next, hnext, _⟩ := (Runs.run_cons_eq_some _).mp hrest
  have haccounts := run_accounts hnodup hbefore
  have hnot := haccounts.stopped_iff.not.mp (by simp [stopped_of_step hnext])
  rw [not_or, not_or] at hnot
  obtain ⟨hdeadline, hpending, hshort⟩ := hnot
  obtain ⟨task, htask⟩ := List.exists_mem_of_ne_nil _ hpending
  rw [haccounts.successes_eq] at hshort
  exact ⟨hdeadline, ⟨task, (haccounts.mem_pending task).mp htask⟩, Int.not_le.mp hshort⟩

end Waiting

end WaitLoop
