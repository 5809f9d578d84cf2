import Mathlib.Data.List.Induction

/-! # Runs of a partial step function

A labelled system is given by a step function that refuses an action by
returning nothing. A run folds it over a list of actions. The rules below turn
what one step preserves into what a whole run preserves.
-/

namespace Runs

variable {State Action : Type*} (step : State → Action → Option State)

/-- Take the listed actions in order; a refused action refuses the run. -/
def run : State → List Action → Option State
  | state, [] => some state
  | state, action :: rest => (step state action).bind fun next => run next rest

@[simp] theorem run_nil (state : State) : run step state [] = some state := rfl

theorem run_cons_eq_some {state final : State} {action : Action} {rest : List Action} :
    run step state (action :: rest) = some final ↔
      ∃ middle, step state action = some middle ∧ run step middle rest = some final := by
  simp [run, Option.bind_eq_some_iff]

theorem run_append_eq_some {state final : State} {first second : List Action} :
    run step state (first ++ second) = some final ↔
      ∃ middle, run step state first = some middle ∧ run step middle second = some final := by
  induction first generalizing state with
  | nil => simp
  | cons action rest ih =>
      simp only [List.cons_append, run_cons_eq_some, ih]
      constructor
      · rintro ⟨next, hstep, middle, hfirst, hsecond⟩
        exact ⟨middle, ⟨next, hstep, hfirst⟩, hsecond⟩
      · rintro ⟨middle, ⟨next, hstep, hfirst⟩, hsecond⟩
        exact ⟨next, hstep, middle, hfirst, hsecond⟩

theorem run_concat_eq_some {state final : State} {actions : List Action} {action : Action} :
    run step state (actions ++ [action]) = some final ↔
      ∃ middle, run step state actions = some middle ∧ step middle action = some final := by
  simp [run_append_eq_some, run_cons_eq_some]

/-- Every step of a run meets `condition` in the state it is taken in. -/
def Along (condition : State → Action → Prop) : State → List Action → Prop
  | _, [] => True
  | state, action :: rest => condition state action ∧
      ∀ next, step state action = some next → Along condition next rest

variable {step}

theorem along_of_forall {condition : State → Action → Prop} {actions : List Action}
    (hactions : ∀ state, ∀ action ∈ actions, condition state action) (state : State) :
    Along step condition state actions := by
  induction actions generalizing state with
  | nil => trivial
  | cons action rest ih =>
      refine ⟨hactions state action List.mem_cons_self, fun next _ => ?_⟩
      exact ih (fun state later hlater => hactions state later (List.mem_cons_of_mem _ hlater)) next

theorem along_cons {condition : State → Action → Prop} {state next : State} {action : Action}
    {rest : List Action} (hnext : step state action = some next) (haction : condition state action)
    (hrest : Along step condition next rest) : Along step condition state (action :: rest) := by
  refine ⟨haction, fun other hother => ?_⟩
  obtain rfl := Option.some.inj (hnext.symm.trans hother)
  exact hrest

theorem along_append {condition : State → Action → Prop} {state : State}
    {first second : List Action} :
    Along step condition state (first ++ second) ↔ Along step condition state first ∧
      ∀ middle, run step state first = some middle → Along step condition middle second := by
  induction first generalizing state with
  | nil => simp [Along]
  | cons action rest ih =>
      simp only [List.cons_append, Along, ih, run_cons_eq_some]
      constructor
      · rintro ⟨haction, hrest⟩
        refine ⟨⟨haction, fun next hnext => (hrest next hnext).1⟩, ?_⟩
        rintro middle ⟨next, hnext, hmiddle⟩
        exact (hrest next hnext).2 middle hmiddle
      · rintro ⟨⟨haction, hrest⟩, hsecond⟩
        exact ⟨haction, fun next hnext =>
          ⟨hrest next hnext, fun middle hmiddle => hsecond middle ⟨next, hnext, hmiddle⟩⟩⟩

/-- A run that does not meet the condition throughout takes some step that fails it. -/
theorem exists_of_not_along {condition : State → Action → Prop} {state final : State}
    {actions : List Action} (hrun : run step state actions = some final)
    (hnot : ¬ Along step condition state actions) :
    ∃ before action after middle next, actions = before ++ action :: after ∧
      run step state before = some middle ∧ step middle action = some next ∧
      ¬ condition middle action ∧ run step next after = some final := by
  induction actions generalizing state with
  | nil => exact absurd trivial hnot
  | cons action rest ih =>
      obtain ⟨next, hnext, hrest⟩ := (run_cons_eq_some step).mp hrun
      by_cases hcondition : condition state action
      · have hlater : ¬ Along step condition next rest := by
          intro halong
          refine hnot ⟨hcondition, fun other hother => ?_⟩
          obtain rfl := Option.some.inj (hnext.symm.trans hother)
          exact halong
        obtain ⟨before, failing, after, middle, taken, rfl, hbefore, htaken, hfails, hafter⟩ :=
          ih hrest hlater
        exact ⟨action :: before, failing, after, middle, taken, rfl,
          (run_cons_eq_some step).mpr ⟨next, hnext, hbefore⟩, htaken, hfails, hafter⟩
      · exact ⟨[], action, rest, state, next, rfl, rfl, hnext, hcondition, hrest⟩

/-- A predicate kept by every allowed step holds at the end of every run of
allowed actions that starts in it. -/
theorem run_invariant {allowed : Action → Prop} (invariant : State → Prop)
    (hstep : ∀ state action next, allowed action → invariant state →
      step state action = some next → invariant next)
    {actions : List Action} {state final : State}
    (hallowed : ∀ action ∈ actions, allowed action) (hstate : invariant state)
    (hrun : run step state actions = some final) : invariant final := by
  induction actions generalizing state with
  | nil =>
      simp only [run_nil, Option.some.injEq] at hrun
      exact hrun ▸ hstate
  | cons action rest ih =>
      obtain ⟨middle, hhead, htail⟩ := (run_cons_eq_some step).mp hrun
      have hmiddle := hstep state action middle (hallowed action List.mem_cons_self) hstate hhead
      exact ih (fun later hlater => hallowed later (List.mem_cons_of_mem _ hlater)) hmiddle htail

/-- The same rule where a step is only known to be allowed in the state it is taken in. -/
theorem run_invariant_along {condition : State → Action → Prop} (invariant : State → Prop)
    (hstep : ∀ state action next, condition state action → invariant state →
      step state action = some next → invariant next)
    {actions : List Action} {state final : State} (halong : Along step condition state actions)
    (hstate : invariant state) (hrun : run step state actions = some final) : invariant final := by
  induction actions generalizing state with
  | nil =>
      simp only [run_nil, Option.some.injEq] at hrun
      exact hrun ▸ hstate
  | cons action rest ih =>
      obtain ⟨middle, hhead, htail⟩ := (run_cons_eq_some step).mp hrun
      have hmiddle := hstep state action middle halong.1 hstate hhead
      exact ih (halong.2 middle hhead) hmiddle htail

/-- The same rule for a predicate that also sees the actions taken so far. -/
theorem run_history_invariant (invariant : List Action → State → Prop)
    (hstep : ∀ history state action next, invariant history state →
      step state action = some next → invariant (history ++ [action]) next)
    {actions : List Action} {state final : State} (hstate : invariant [] state)
    (hrun : run step state actions = some final) : invariant actions final := by
  induction actions using List.reverseRecOn generalizing final with
  | nil =>
      simp only [run_nil, Option.some.injEq] at hrun
      exact hrun ▸ hstate
  | append_singleton history action ih =>
      obtain ⟨middle, hhistory, hlast⟩ := (run_append_eq_some step).mp hrun
      obtain ⟨next, hnext, hdone⟩ := (run_cons_eq_some step).mp hlast
      obtain rfl : next = final := by simpa using hdone
      exact hstep history middle action next (ih hhistory) hnext

/-- What a run shows of its steps, in order. -/
def observations {Label : Type*} (step : State → Action → Option State)
    (label : State → Action → Option Label) : State → List Action → List Label
  | _, [] => []
  | state, action :: rest =>
      (label state action).toList ++
        match step state action with
        | none => []
        | some next => observations step label next rest

/-- The same rule for a predicate that also sees what the run has shown so far. -/
theorem run_observed_invariant {Label : Type*} {label : State → Action → Option Label}
    (invariant : List Label → State → Prop)
    (hstep : ∀ shown state action next, invariant shown state →
      step state action = some next → invariant (shown ++ (label state action).toList) next)
    {actions : List Action} {state final : State} (hstate : invariant [] state)
    (hrun : run step state actions = some final) :
    invariant (observations step label state actions) final := by
  suffices hshown : ∀ shown, invariant shown state →
      invariant (shown ++ observations step label state actions) final from hshown [] hstate
  clear hstate
  induction actions generalizing state with
  | nil =>
      intro shown hstate
      obtain rfl : state = final := by simpa using hrun
      simpa [observations] using hstate
  | cons action rest ih =>
      intro shown hstate
      obtain ⟨next, hnext, hrest⟩ := (run_cons_eq_some step).mp hrun
      have hlater := ih hrest _ (hstep shown state action next hstate hnext)
      simpa [observations, hnext] using hlater

/-- Both: the predicate sees what was shown, and steps are allowed where they are taken. -/
theorem run_observed_invariant_along {Label : Type*} {label : State → Action → Option Label}
    {condition : State → Action → Prop} (invariant : List Label → State → Prop)
    (hstep : ∀ shown state action next, condition state action → invariant shown state →
      step state action = some next → invariant (shown ++ (label state action).toList) next)
    {actions : List Action} {state final : State} (halong : Along step condition state actions)
    (hstate : invariant [] state) (hrun : run step state actions = some final) :
    invariant (observations step label state actions) final := by
  suffices hshown : ∀ shown, invariant shown state →
      invariant (shown ++ observations step label state actions) final from hshown [] hstate
  clear hstate
  induction actions generalizing state with
  | nil =>
      intro shown hstate
      obtain rfl : state = final := by simpa using hrun
      simpa [observations] using hstate
  | cons action rest ih =>
      intro shown hstate
      obtain ⟨next, hnext, hrest⟩ := (run_cons_eq_some step).mp hrun
      have hlater := ih (halong.2 next hnext) hrest _
        (hstep shown state action next halong.1 hstate hnext)
      simpa [observations, hnext] using hlater

/-- Runs from `start` have at most `bound` steps, stop only where they are finished, and can
be finished wherever they are. -/
structure Completes (step : State → Action → Option State) (start : State)
    (finished : State → Prop) (bound : Nat) : Prop where
  bounded : ∀ actions final, run step start actions = some final → actions.length ≤ bound
  stops : ∀ actions final, run step start actions = some final →
    ((∀ action, step final action = none) ↔ finished final)
  finishes : ∀ actions middle, run step start actions = some middle →
    ∃ later final, run step middle later = some final ∧ finished final

section Completion

variable {remaining : State → Nat} {finished invariant : State → Prop}

/-- Where every step uses some of what remains, a run takes no more steps than that. -/
theorem length_add_le
    (hstep : ∀ state action next, invariant state → step state action = some next →
      remaining next < remaining state)
    (hkeep : ∀ state action next, invariant state → step state action = some next →
      invariant next)
    {actions : List Action} {state final : State} (hstate : invariant state)
    (hrun : run step state actions = some final) :
    actions.length + remaining final ≤ remaining state := by
  induction actions generalizing state with
  | nil =>
      obtain rfl := Option.some.inj hrun
      exact Nat.le_of_eq (Nat.zero_add (remaining state))
  | cons action rest ih =>
      obtain ⟨middle, hmiddle, hrest⟩ := (run_cons_eq_some step).mp hrun
      have huses := hstep state action middle hstate hmiddle
      have hlater := ih (hkeep state action middle hstate hmiddle) hrest
      rw [List.length_cons]
      omega

/-- If in addition a state that is not finished has a step, every run can be finished. -/
theorem exists_run_finished
    (hstep : ∀ state action next, invariant state → step state action = some next →
      remaining next < remaining state)
    (hkeep : ∀ state action next, invariant state → step state action = some next →
      invariant next)
    (henabled : ∀ state, invariant state → ¬ finished state →
      ∃ action, (step state action).isSome = true)
    {state : State} (hstate : invariant state) :
    ∃ actions final, run step state actions = some final ∧ finished final := by
  induction hmeasure : remaining state using Nat.strongRecOn generalizing state with
  | ind bound ih =>
      by_cases hfinished : finished state
      · exact ⟨[], state, rfl, hfinished⟩
      · obtain ⟨action, hsome⟩ := henabled state hstate hfinished
        obtain ⟨next, hnext⟩ := Option.isSome_iff_exists.mp hsome
        have hless : remaining next < bound := hmeasure ▸ hstep state action next hstate hnext
        obtain ⟨actions, final, hrun, hfinal⟩ :=
          ih _ hless (hkeep state action next hstate hnext) rfl
        exact ⟨action :: actions, final, (run_cons_eq_some step).mpr ⟨next, hnext, hrun⟩, hfinal⟩

theorem completes_of_remaining
    (hstep : ∀ state action next, invariant state → step state action = some next →
      remaining next < remaining state)
    (hkeep : ∀ state action next, invariant state → step state action = some next →
      invariant next)
    (henabled : ∀ state, invariant state → ¬ finished state →
      ∃ action, (step state action).isSome = true)
    (hnothing : ∀ state, finished state → remaining state = 0)
    {start : State} (hstart : invariant start) :
    Completes step start finished (remaining start) := by
  have hreached : ∀ actions final, run step start actions = some final → invariant final :=
    fun actions final hrun => @run_invariant State Action step (fun _ => True) invariant
      (fun state action next _ => hkeep state action next) _ _ _ (fun _ _ => trivial) hstart hrun
  refine ⟨fun actions final hrun => ?_, fun actions final hrun => ⟨?_, ?_⟩, ?_⟩
  · have hlength := length_add_le hstep hkeep hstart hrun
    omega
  · intro hnone
    by_contra hnot
    obtain ⟨action, hsome⟩ := henabled final (hreached actions final hrun) hnot
    rw [hnone action] at hsome
    cases hsome
  · intro hfinished action
    cases hnext : step final action with
    | none => rfl
    | some next =>
        have hless := hstep final action next (hreached actions final hrun) hnext
        rw [hnothing final hfinished] at hless
        exact absurd hless (Nat.not_lt_zero _)
  · intro actions middle hrun
    exact exists_run_finished hstep hkeep henabled (hreached actions middle hrun)

end Completion

theorem rel_mono {First Second : Type*} {related related' : First → Second → Prop}
    (hmono : ∀ first second, related first second → related' first second)
    {first : Option First} {second : Option Second} (hrelated : Option.Rel related first second) :
    Option.Rel related' first second := by
  cases hrelated with
  | none => exact .none
  | some hboth => exact .some (hmono _ _ hboth)

/-- What one computation is related to two others by relates these two. -/
theorem rel_both {Shared First Second : Type*} {left : Shared → First → Prop}
    {right : Shared → Second → Prop} {shared : Option Shared} {first : Option First}
    {second : Option Second} (hleft : Option.Rel left shared first)
    (hright : Option.Rel right shared second) :
    Option.Rel (fun one other => ∃ middle, shared = some middle ∧ left middle one ∧
      right middle other) first second := by
  cases hleft with
  | none =>
      cases hright
      exact .none
  | @some middle one hone =>
      cases hright with
      | some hother => exact .some ⟨middle, rfl, hone, hother⟩

/-- Systems whose steps accept the same actions and keep a relation between their
states accept the same runs and keep it over them. -/
theorem run_simulation {State' Action' : Type*} {step' : State' → Action' → Option State'}
    (translate : Action → Action') (related : State → State' → Prop)
    (hstep : ∀ state state' action, related state state' →
      Option.Rel related (step state action) (step' state' (translate action)))
    {state : State} {state' : State'} (hrelated : related state state') (actions : List Action) :
    Option.Rel related (run step state actions) (run step' state' (actions.map translate)) := by
  induction actions generalizing state state' with
  | nil => exact .some hrelated
  | cons action rest ih =>
      have hfirst := hstep state state' action hrelated
      simp only [run, List.map_cons]
      generalize step state action = next at hfirst ⊢
      generalize step' state' (translate action) = next' at hfirst ⊢
      cases hfirst with
      | none => exact .none
      | some hnext => exact ih hnext

/-- Some run of allowed actions leads from the one state to the other. -/
def Leads (step : State → Action → Option State) (allowed : Action → Prop)
    (state final : State) : Prop :=
  ∃ actions, (∀ action ∈ actions, allowed action) ∧ run step state actions = some final

namespace Leads

variable {allowed : Action → Prop} {state middle final : State}

theorem refl (state : State) : Leads step allowed state state := ⟨[], by simp, rfl⟩

theorem mono {allowed' : Action → Prop} (hmono : ∀ action, allowed action → allowed' action)
    (hleads : Leads step allowed state final) : Leads step allowed' state final := by
  obtain ⟨actions, hactions, hrun⟩ := hleads
  exact ⟨actions, fun action hmem => hmono action (hactions action hmem), hrun⟩

theorem trans (hfirst : Leads step allowed state middle)
    (hsecond : Leads step allowed middle final) : Leads step allowed state final := by
  obtain ⟨first, hfirstAllowed, hfirst⟩ := hfirst
  obtain ⟨second, hsecondAllowed, hsecond⟩ := hsecond
  refine ⟨first ++ second, ?_, (run_append_eq_some _).mpr ⟨middle, hfirst, hsecond⟩⟩
  intro action hmem
  rcases List.mem_append.mp hmem with hearly | hlate
  · exact hfirstAllowed action hearly
  · exact hsecondAllowed action hlate

theorem single {action : Action} (hnext : step state action = some final)
    (hallowed : allowed action) : Leads step allowed state final :=
  ⟨[action], by simpa using hallowed, (run_cons_eq_some _).mpr ⟨final, hnext, rfl⟩⟩

/-- A run of a part is one of the whole. -/
theorem embed {State' Action' : Type*} {step' : State' → Action' → Option State'}
    {allowed' : Action' → Prop} (place : State → State') (translate : Action → Action')
    (hallowed : ∀ action, allowed action → allowed' (translate action))
    (hstep : ∀ state action next, allowed action → step state action = some next →
      step' (place state) (translate action) = some (place next))
    (hleads : Leads step allowed state final) :
    Leads step' allowed' (place state) (place final) := by
  obtain ⟨actions, hactions, hrun⟩ := hleads
  refine ⟨actions.map translate, ?_, ?_⟩
  · intro action hmem
    obtain ⟨inner, hinner, rfl⟩ := List.mem_map.mp hmem
    exact hallowed inner (hactions inner hinner)
  · induction actions generalizing state with
    | nil =>
        obtain rfl := Option.some.inj hrun
        rfl
    | cons action rest ih =>
        obtain ⟨next, hnext, hrest⟩ := (run_cons_eq_some _).mp hrun
        have hlater := ih (fun later hmem => hactions later (List.mem_cons_of_mem _ hmem)) hrest
        exact (run_cons_eq_some _).mpr
          ⟨place next, hstep _ _ _ (hactions action List.mem_cons_self) hnext, hlater⟩

end Leads

/-- Some run whose steps meet `condition` leads from the one state to the other. -/
def LeadsAlong (step : State → Action → Option State) (condition : State → Action → Prop)
    (state final : State) : Prop :=
  ∃ actions, Along step condition state actions ∧ run step state actions = some final

namespace LeadsAlong

variable {condition : State → Action → Prop} {state middle final : State}

theorem refl (state : State) : LeadsAlong step condition state state := ⟨[], trivial, rfl⟩

theorem trans (hfirst : LeadsAlong step condition state middle)
    (hsecond : LeadsAlong step condition middle final) : LeadsAlong step condition state final := by
  obtain ⟨first, hfirstAlong, hfirst⟩ := hfirst
  obtain ⟨second, hsecondAlong, hsecond⟩ := hsecond
  refine ⟨first ++ second, ?_, (run_append_eq_some _).mpr ⟨middle, hfirst, hsecond⟩⟩
  refine along_append.mpr ⟨hfirstAlong, fun other hother => ?_⟩
  obtain rfl := Option.some.inj (hfirst.symm.trans hother)
  exact hsecondAlong

theorem single {action : Action} (hnext : step state action = some final)
    (hcondition : condition state action) : LeadsAlong step condition state final :=
  ⟨[action], along_cons hnext hcondition trivial, (run_cons_eq_some _).mpr ⟨final, hnext, rfl⟩⟩

theorem of_leads {allowed : Action → Prop}
    (hallowed : ∀ state action, allowed action → condition state action)
    (hleads : Leads step allowed state final) : LeadsAlong step condition state final := by
  obtain ⟨actions, hactions, hrun⟩ := hleads
  exact ⟨actions, along_of_forall
    (fun state action hmem => hallowed state action (hactions action hmem)) state, hrun⟩

theorem keeps (invariant : State → Prop)
    (hstep : ∀ state action next, condition state action → invariant state →
      step state action = some next → invariant next)
    (hleads : LeadsAlong step condition state final) (hstate : invariant state) :
    invariant final := by
  obtain ⟨actions, halong, hrun⟩ := hleads
  exact run_invariant_along invariant hstep halong hstate hrun

end LeadsAlong

end Runs
