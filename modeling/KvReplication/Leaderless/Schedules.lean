import KvReplication.Leaderless.Coordinator

/-! # How a fan-out can end

The calls' outcomes are given; when they come in, and in which order, is open. The
results below say what `_gather` can raise and what it can return over all of these
schedules.
-/

namespace KvReplication.Leaderless.Gather

open WaitLoop

variable {Task α : Type} [DecidableEq Task]
variable {started : List Task} {needed : Int} {outcome : Task → Except PyError (Bool × α)}

/-- `_gather` can end with `exit` if its coroutines end as `outcome` says. -/
def Exits (started : List Task) (needed : Int) (outcome : Task → Except PyError (Bool × α))
    (exit : Except PyError (List α)) : Prop :=
  ∃ events state, (∀ event ∈ events, Wake.Reports outcome event) ∧
    Runs.run (step needed) (start started needed) events = some state ∧ state.exit = some exit

/-- What the loop raises was raised by a call, and only while it waits for more. -/
structure Raising (started : List Task) (needed : Int)
    (outcome : Task → Except PyError (Bool × α)) (state : Gather Task α) : Prop where
  pending_started : ∀ task ∈ state.pending, task ∈ started
  waiting : state.exit = none → (state.collected.length : Int) < needed
  raised : ∀ error, state.exit = some (.error error) →
    0 < needed ∧ ∃ task ∈ started, outcome task = .error error

omit [DecidableEq Task] in
theorem Raising.check {state : Gather Task α} (hrunning : state.exit = none)
    (hpending : ∀ task ∈ state.pending, task ∈ started) :
    (check needed state).Raising started needed outcome := by
  unfold Gather.check
  split
  · refine ⟨hpending, fun hexit => ?_, fun error hexit => ?_⟩
    · cases hexit
    · cases hexit
  · next hwaits =>
      push Not at hwaits
      exact ⟨hpending, fun _ => hwaits.2, fun _ hexit => by simp [hrunning] at hexit⟩

omit [DecidableEq Task] in
theorem collectDone_eq_error {finished : List (Task × Except PyError (Bool × α))}
    {collected : List α} {error : PyError}
    (herror : collectDone finished collected = .error error) :
    ∃ entry ∈ finished, entry.2 = .error error := by
  induction finished generalizing collected with
  | nil => cases herror
  | cons entry rest ih =>
      obtain ⟨task, result⟩ := entry
      cases result with
      | error raised =>
          obtain rfl := Except.error.inj herror
          exact ⟨_, List.mem_cons_self, rfl⟩
      | ok value =>
          obtain ⟨later, hlater, hraised⟩ := ih herror
          exact ⟨later, List.mem_cons_of_mem _ hlater, hraised⟩

theorem Raising.step {state next : Gather Task α}
    {event : Wake Task (Except PyError (Bool × α))} (hreports : event.Reports outcome)
    (hraising : state.Raising started needed outcome)
    (hnext : Gather.step needed state event = some next) :
    next.Raising started needed outcome := by
  obtain ⟨hrunning, hallowed, rfl⟩ := step_eq_some.mp hnext
  have hneeded : 0 < needed := by
    have hwaiting := hraising.waiting hrunning
    omega
  cases event with
  | timeout =>
      refine ⟨hraising.pending_started, fun hexit => ?_, fun error hexit => ?_⟩
      · cases hexit
      · cases hexit
  | cancelled => exact hreports.elim
  | done finished =>
      have hpending : ∀ task ∈ state.pending.filter (· ∉ finished.map Prod.fst),
          task ∈ started :=
        fun task hmem => hraising.pending_started task (List.mem_of_mem_filter hmem)
      simp only [wake]
      cases hdone : collectDone finished state.collected with
      | ok collected => exact Raising.check hrunning hpending
      | error error =>
          refine ⟨hpending, fun hexit => (by cases hexit), ?_⟩
          rintro _ ⟨⟩
          obtain ⟨entry, hentry, hraised⟩ := collectDone_eq_error hdone
          exact ⟨hneeded, entry.1, hraising.pending_started _ (hallowed.2.2 entry hentry),
            (hreports entry hentry).symm.trans hraised⟩

/-- `_gather` can raise exactly if it waits at all and one of its calls raises. -/
theorem exits_error_iff {error : PyError} :
    Exits started needed outcome (.error error) ↔
      0 < needed ∧ ∃ task ∈ started, outcome task = .error error := by
  constructor
  · rintro ⟨events, state, hreports, hrun, hexit⟩
    have hstart : (start started needed).Raising started needed outcome :=
      Raising.check rfl fun _ hmem => hmem
    have hraising := Runs.run_invariant (Raising started needed outcome)
      (fun _ _ _ hreport hraising hnext => Raising.step hreport hraising hnext) hreports hstart hrun
    exact hraising.raised error hexit
  · rintro ⟨hneeded, task, htask, herror⟩
    -- the raising call is the first one to finish
    have hstart : start started needed = (⟨started, [], [], none⟩ : Gather Task α) := by
      have hnonempty : started ≠ [] := List.ne_nil_of_mem htask
      simp [start, check, hnonempty, hneeded]
    refine ⟨[.done [(task, .error error)]],
      (wake needed ⟨started, [], [], none⟩ (.done [(task, .error error)])), ?_, ?_, rfl⟩
    · intro event hevent
      obtain rfl := List.mem_singleton.mp hevent
      intro entry hentry
      obtain rfl := List.mem_singleton.mp hentry
      exact herror.symm
    · rw [hstart]
      apply (Runs.run_cons_eq_some _).mpr
      refine ⟨_, step_eq_some.mpr ⟨rfl, ?_, rfl⟩, rfl⟩
      exact ⟨by simp, by simp, by simpa using htask⟩

/-- Where everything started is needed, a loop that collects enough has collected
the values of all calls, in the order they came in. -/
theorem order_of_exits (hnodup : started.Nodup) {collected : List α}
    (hexits : Exits started needed outcome (.ok collected))
    (hall : started.length ≤ collected.length) :
    ∃ order : List Task, order.Perm started ∧
      order.map outcome = collected.map fun value => .ok (true, value) := by
  obtain ⟨events, state, hreports, hrun, hexit⟩ := hexits
  have hsound := run_sound hnodup hrun
  obtain ⟨credited, haccount, hcollected, hbrings⟩ := hsound.credited
  rw [hsound.returns_collected collected hexit, hcollected] at hall ⊢
  refine ⟨credited.map Prod.fst, ?_, ?_⟩
  · apply (List.subperm_of_subset haccount.counted_nodup haccount.counted_started).perm_of_length_le
    simpa using hall
  · rw [List.map_map, List.map_map]
    apply List.map_congr_left
    intro entry hentry
    obtain ⟨finished, hdone, hmem⟩ := hbrings entry hentry
    exact (hreports _ hdone _ hmem).symm

/-- Any order of calls that all count is the order of some schedule. -/
theorem run_in_order {order pending : List Task} {rest collected : List α}
    (hperm : pending.Perm order) (hnodup : order.Nodup)
    (houtcome : order.map outcome = rest.map fun value => .ok (true, value))
    (hneeded : (collected.length + order.length : Int) ≤ needed) :
    ∃ events state, (∀ event ∈ events, Wake.Reports outcome event) ∧
      Runs.run (step needed) (check needed ⟨pending, collected, [], none⟩) events = some state ∧
      state.exit = some (.ok (collected ++ rest)) := by
  -- one wake-up for each call; the loop waits until the last one is in
  induction order generalizing pending rest collected with
  | nil =>
      obtain rfl := hperm.eq_nil
      obtain rfl : rest = [] := by simpa using houtcome.symm
      exact ⟨[], _, by simp, rfl, by simp [check, leave]⟩
  | cons task order ih =>
      cases rest with
      | nil => simp at houtcome
      | cons value rest =>
          simp only [List.map_cons, List.cons.injEq] at houtcome
          obtain ⟨hvalue, hlater⟩ := houtcome
          obtain ⟨htask, hnodup⟩ := List.nodup_cons.mp hnodup
          have hmem : task ∈ pending := hperm.mem_iff.mpr List.mem_cons_self
          have hwaits : check needed ⟨pending, collected, [], none⟩ =
              (⟨pending, collected, [], none⟩ : Gather Task α) := by
            have hnonempty : pending ≠ [] := List.ne_nil_of_mem hmem
            have hmore : ¬ needed ≤ (collected.length : Int) := by
              simp only [List.length_cons] at hneeded
              push_cast at hneeded
              omega
            simp [check, hnonempty, hmore]
          have hleft : (pending.filter (· ∉ [task])).Perm order := by
            have hfilter := hperm.filter (· ∉ [task])
            have hkeep : (task :: order).filter (· ∉ [task]) = order := by
              rw [List.filter_cons_of_neg (by simp), List.filter_eq_self]
              intro other hother
              simpa using fun heq : other = task => htask (heq ▸ hother)
            rwa [hkeep] at hfilter
          have hcount : ((collected ++ [value]).length + order.length : Int) ≤ needed := by
            simp only [List.length_cons, List.length_append, List.length_nil] at hneeded ⊢
            push_cast at hneeded ⊢
            omega
          obtain ⟨events, state, hreports, hrun, hexit⟩ := ih hleft hnodup hlater hcount
          refine ⟨.done [(task, .ok (true, value))] :: events, state, ?_, ?_, ?_⟩
          · intro event hevent
            rcases List.mem_cons.mp hevent with rfl | hevent
            · intro entry hentry
              obtain rfl := List.mem_singleton.mp hentry
              exact hvalue.symm
            · exact hreports event hevent
          · rw [hwaits]
            apply (Runs.run_cons_eq_some _).mpr
            refine ⟨_, step_eq_some.mpr ⟨rfl, ?_, rfl⟩, hrun⟩
            exact ⟨by simp, by simp, by simpa using hmem⟩
          · rw [hexit, List.append_assoc]
            rfl

/-- The orders in which the calls of a fan-out that needs them all can come in are
the permutations of what it started. -/
theorem exits_of_order (hnodup : started.Nodup) (hneeded : (started.length : Int) ≤ needed)
    {order : List Task} {collected : List α} (hperm : order.Perm started)
    (houtcome : order.map outcome = collected.map fun value => .ok (true, value)) :
    Exits started needed outcome (.ok collected) := by
  have hlength : ((([] : List α).length : Int) + order.length) ≤ needed := by
    rw [hperm.length_eq]
    simpa using hneeded
  exact run_in_order hperm.symm (hperm.nodup_iff.mpr hnodup) houtcome hlength

end KvReplication.Leaderless.Gather
