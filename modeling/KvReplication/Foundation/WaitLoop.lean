import Mathlib.Data.List.Nodup

/-! # Accounts of a loop that waits for a fixed set of tasks

A wait loop owns the tasks it started. A wake-up hands it some finished tasks;
it takes them out of the pending list and counts the successful ones. Whatever
the order of the wake-ups, the counted tasks are distinct started tasks that are
no longer pending.
-/

namespace WaitLoop

variable {Task Result : Type*}

/-- How one await of the wait loop ends: with some newly finished tasks in the
order the loop takes them up, with the timer, or with a cancellation. -/
inductive Wake (Task Result : Type*) where
  | done (finished : List (Task × Result))
  | timeout
  | cancelled

/-- The tasks a wake-up finishes. -/
def Wake.tasks : Wake Task Result → List Task
  | done finished => finished.map Prod.fst
  | timeout => []
  | cancelled => []

/-- A wake-up that finishes tasks names different pending ones, at least one. -/
def Wake.Allowed (pending : List Task) : Wake Task Result → Prop
  | done finished => finished ≠ [] ∧ (finished.map Prod.fst).Nodup ∧
      ∀ entry ∈ finished, entry.1 ∈ pending
  | timeout => True
  | cancelled => True

instance [DecidableEq Task] (pending : List Task) (event : Wake Task Result) :
    Decidable (event.Allowed pending) :=
  match event with
  | .done finished => inferInstanceAs (Decidable (finished ≠ [] ∧ _ ∧ _))
  | .timeout => isTrue trivial
  | .cancelled => isTrue trivial

/-- The same wake-up with its results translated. -/
def Wake.map {Result' : Type*} (translate : Result → Result') : Wake Task Result → Wake Task Result'
  | done finished => .done (finished.map fun entry => (entry.1, translate entry.2))
  | timeout => .timeout
  | cancelled => .cancelled

theorem Wake.allowed_map {Result' : Type*} {translate : Result → Result'} {pending : List Task}
    {event : Wake Task Result} : (event.map translate).Allowed pending ↔ event.Allowed pending := by
  cases event with
  | done finished =>
      simp only [Wake.map, Wake.Allowed, List.map_map, ne_eq, List.map_eq_nil_iff,
        List.forall_mem_map]
      rfl
  | timeout => rfl
  | cancelled => rfl

/-- An uncancelled wake-up that reports the tasks as `outcome` has them end. -/
def Wake.Reports (outcome : Task → Result) : Wake Task Result → Prop
  | done finished => ∀ entry ∈ finished, entry.2 = outcome entry.1
  | timeout => True
  | cancelled => False

theorem Wake.Reports.map {Result' : Type*} {translate : Result → Result'} {outcome : Task → Result}
    {event : Wake Task Result} (hreports : event.Reports outcome) :
    (event.map translate).Reports (translate ∘ outcome) := by
  cases event with
  | cancelled => exact hreports
  | timeout => trivial
  | done finished =>
      intro entry hentry
      obtain ⟨original, horiginal, rfl⟩ := List.mem_map.mp hentry
      exact congrArg translate (hreports original horiginal)

/-- The wake-up that finishes the same tasks with the results `outcome` gives them. -/
def Wake.withOutcome {Result' : Type*} (outcome : Task → Result) :
    Wake Task Result' → Wake Task Result
  | done finished => .done (finished.map fun entry => (entry.1, outcome entry.1))
  | timeout => .timeout
  | cancelled => .cancelled

theorem Wake.Reports.withOutcome {Result' : Type*} {outcome : Task → Result}
    {outcome' : Task → Result'} {event : Wake Task Result'} (hreports : event.Reports outcome') :
    (event.withOutcome outcome).Reports outcome := by
  cases event with
  | cancelled => exact hreports
  | timeout => trivial
  | done finished =>
      intro entry hentry
      obtain ⟨_, _, rfl⟩ := List.mem_map.mp hentry
      rfl

/-- A wake-up that reports translated outcomes is itself a translation. -/
theorem Wake.Reports.map_withOutcome {Result' : Type*} {translate : Result → Result'}
    {outcome : Task → Result} {event : Wake Task Result'}
    (hreports : event.Reports (translate ∘ outcome)) :
    (event.withOutcome outcome).map translate = event := by
  cases event with
  | cancelled => rfl
  | timeout => rfl
  | done finished =>
      simp only [Wake.withOutcome, Wake.map, List.map_map]
      congr 1
      conv_rhs => rw [← List.map_id finished]
      apply List.map_congr_left
      intro entry hentry
      exact Prod.ext rfl (hreports entry hentry).symm

/-- What wakes a wait loop up: some finished tasks, by name, or its end. -/
inductive Signal (Task : Type*) where
  | done (tasks : List Task)
  | timeout
  | cancelled

/-- The results of the named tasks, if they have all finished. -/
def results (resultOf : Task → Option Result) : List Task → Option (List (Task × Result))
  | [] => some []
  | task :: rest =>
      (resultOf task).bind fun result =>
        (results resultOf rest).map fun others => (task, result) :: others

/-- The wake-up a signal gives the loop. -/
def Signal.event (resultOf : Task → Option Result) : Signal Task → Option (Wake Task Result)
  | timeout => some .timeout
  | cancelled => some .cancelled
  | done tasks => (results resultOf tasks).map .done

theorem mem_results {resultOf : Task → Option Result} {tasks : List Task}
    {finished : List (Task × Result)} (hresults : results resultOf tasks = some finished) :
    ∀ entry ∈ finished, resultOf entry.1 = some entry.2 := by
  induction tasks generalizing finished with
  | nil =>
      obtain rfl : [] = finished := by simpa [results] using hresults
      simp
  | cons task rest ih =>
      simp only [results, Option.bind_eq_some_iff, Option.map_eq_some_iff] at hresults
      obtain ⟨result, hresult, others, hothers, rfl⟩ := hresults
      intro entry hentry
      rcases List.mem_cons.mp hentry with rfl | hrest
      · exact hresult
      · exact ih hothers entry hrest

theorem results_of_forall {resultOf : Task → Option Result}
    {outcome : Task → Result} {tasks : List Task}
    (hresults : ∀ task ∈ tasks, resultOf task = some (outcome task)) :
    results resultOf tasks = some (tasks.map fun task => (task, outcome task)) := by
  induction tasks with
  | nil => rfl
  | cons task rest ih =>
      rw [results, hresults task List.mem_cons_self,
        ih fun later hlater => hresults later (List.mem_cons_of_mem _ hlater)]
      rfl

theorem exists_results {resultOf : Task → Option Result} {tasks : List Task}
    (hresults : ∀ task ∈ tasks, (resultOf task).isSome) :
    ∃ finished, results resultOf tasks = some finished ∧ finished.map Prod.fst = tasks := by
  induction tasks with
  | nil => exact ⟨[], rfl, rfl⟩
  | cons task rest ih =>
      obtain ⟨result, hresult⟩ := Option.isSome_iff_exists.mp (hresults task List.mem_cons_self)
      obtain ⟨others, hothers, hnames⟩ :=
        ih fun later hlater => hresults later (List.mem_cons_of_mem _ hlater)
      refine ⟨(task, result) :: others, ?_, ?_⟩
      · rw [results, hresult, hothers]
        rfl
      · rw [List.map_cons, hnames]

/-- A wake-up brings results that the tasks have finished with. -/
theorem Signal.event_done {resultOf : Task → Option Result} {signal : Signal Task}
    {finished : List (Task × Result)} (hevent : signal.event resultOf = some (.done finished)) :
    ∀ entry ∈ finished, resultOf entry.1 = some entry.2 := by
  cases signal with
  | timeout => simp [Signal.event] at hevent
  | cancelled => simp [Signal.event] at hevent
  | done tasks =>
      simp only [Signal.event, Option.map_eq_some_iff, Wake.done.injEq] at hevent
      obtain ⟨finished, hresults, rfl⟩ := hevent
      exact mem_results hresults

/-- The tasks a wake-up brings have finished. -/
theorem Signal.isSome_of_mem_tasks {resultOf : Task → Option Result} {signal : Signal Task}
    {event : Wake Task Result} (hevent : signal.event resultOf = some event) {task : Task}
    (htask : task ∈ event.tasks) : (resultOf task).isSome := by
  cases event with
  | timeout => cases htask
  | cancelled => cases htask
  | done finished =>
      obtain ⟨brought, hbrought, rfl⟩ := List.mem_map.mp htask
      exact Option.isSome_iff_exists.mpr ⟨_, Signal.event_done hevent brought hbrought⟩

/-- What is pending stays so, or is among the finished tasks that are taken out. -/
theorem mem_filter_not_mem_or [DecidableEq Task] {pending : List Task} {task : Task}
    (hpending : task ∈ pending) (finished : List Task) :
    task ∈ pending.filter (· ∉ finished) ∨ task ∈ finished := by
  by_cases hfinished : task ∈ finished
  · exact Or.inr hfinished
  · exact Or.inl (List.mem_filter.mpr ⟨hpending, decide_eq_true hfinished⟩)

/-- Only the end of the timer is reported as one. -/
theorem Signal.eq_timeout {resultOf : Task → Option Result} {signal : Signal Task}
    (hevent : signal.event resultOf = some .timeout) : signal = .timeout := by
  cases signal with
  | timeout => rfl
  | cancelled => simp [Signal.event] at hevent
  | done tasks => simp [Signal.event] at hevent

/-- What stays pending and the finished tasks are all of the tasks that were pending. -/
theorem filter_not_mem_append_perm [DecidableEq Task] {pending finished : List Task}
    (hpending : pending.Nodup) (hfinished : finished.Nodup)
    (hsubset : ∀ task ∈ finished, task ∈ pending) :
    (pending.filter (· ∉ finished) ++ finished).Perm pending := by
  have htaken : (pending.filter (· ∈ finished)).Perm finished := by
    rw [List.perm_ext_iff_of_nodup (hpending.filter _) hfinished]
    intro task
    simpa using hsubset task
  have hsplit := List.filter_append_perm (· ∈ finished) pending
  simp only [← decide_not] at hsplit
  exact (List.perm_append_comm.trans (htaken.symm.append_right _)).trans hsplit

/-- Taking the finished tasks out leaves the pending list that much shorter. -/
theorem length_filter_not_mem [DecidableEq Task] {pending finished : List Task}
    (hpending : pending.Nodup) (hfinished : finished.Nodup)
    (hsubset : ∀ task ∈ finished, task ∈ pending) :
    (pending.filter (· ∉ finished)).length + finished.length = pending.length := by
  rw [← List.length_append]
  exact (filter_not_mem_append_perm hpending hfinished hsubset).length_eq

/-- The tasks counted so far are different started tasks, none still pending. -/
structure Accounted (started pending counted : List Task) : Prop where
  pending_nodup : pending.Nodup
  pending_started : ∀ task ∈ pending, task ∈ started
  counted_nodup : counted.Nodup
  counted_started : ∀ task ∈ counted, task ∈ started
  counted_settled : ∀ task ∈ counted, task ∉ pending

namespace Accounted

theorem start {started : List Task} (hnodup : started.Nodup) : Accounted started started [] where
  pending_nodup := hnodup
  pending_started _ hmem := hmem
  counted_nodup := List.nodup_nil
  counted_started _ hmem := by simp at hmem
  counted_settled _ hmem := by simp at hmem

variable [DecidableEq Task]

/-- One wake-up: the finished tasks leave the pending list, and the successful
ones among them are appended to the counted ones. -/
theorem wake {started pending counted finished fresh : List Task}
    (haccount : Accounted started pending counted) (hnodup : finished.Nodup)
    (hfinished : ∀ task ∈ finished, task ∈ pending) (hfresh : fresh.Sublist finished) :
    Accounted started (pending.filter (· ∉ finished)) (counted ++ fresh) where
  pending_nodup := haccount.pending_nodup.filter _
  pending_started task hmem := haccount.pending_started task (List.mem_of_mem_filter hmem)
  counted_nodup := by
    refine List.Nodup.append haccount.counted_nodup (hfresh.nodup hnodup) ?_
    -- a task counted before is not pending, so it cannot finish again
    intro task hcounted hnew
    exact haccount.counted_settled task hcounted (hfinished task (hfresh.subset hnew))
  counted_started task hmem := by
    rcases List.mem_append.mp hmem with hold | hnew
    · exact haccount.counted_started task hold
    · exact haccount.pending_started task (hfinished task (hfresh.subset hnew))
  counted_settled task hmem hpending := by
    obtain ⟨hpending, hnot⟩ := List.mem_filter.mp hpending
    rcases List.mem_append.mp hmem with hold | hnew
    · exact haccount.counted_settled task hold hpending
    · simp [hfresh.subset hnew] at hnot

end Accounted

end WaitLoop
