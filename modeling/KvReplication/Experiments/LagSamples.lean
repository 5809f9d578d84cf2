import KvReplication.Experiments.MqStalenessLoadTest

/-! # The lags noted beside stale reads

A worker's statistics are its own, so the last of its stale events is still the one it has
just recorded when the answer to its lag query comes in, whatever the other workers have
done meanwhile. The queries change nothing that the test counts.
-/

namespace KvReplication.Experiments

open LeaderFollower (Follower)

variable {V : Type}

/-! ### The stale events of one step -/

theorem staleEvents_finishWrite (stats : Stats) (key nodeId : String) (now : ℚ)
    (result : HttpResult PutResponse) :
    (finishWrite stats key nodeId now result).1.staleEvents = stats.staleEvents := by
  cases result <;> rfl

theorem staleEvents_finishRead (stats : Stats) (nodeIdField key nodeId : String)
    (expected : SourceEntry) (now : ℚ) (result : HttpResult (KVResponse V)) :
    (finishRead stats nodeIdField key nodeId expected now result).staleEvents.map
        StaleEvent.nodeId =
      stats.staleEvents.map StaleEvent.nodeId ++
        if result.stale expected then [nodeId] else [] := by
  cases result with
  | raised error detail => simp [finishRead, HttpResult.stale, Stats.recordFailure]
  | status code =>
      by_cases hmissing : code = 404
      · simp [finishRead, HttpResult.stale, hmissing, Stats.recordStale]
      · simp [finishRead, HttpResult.stale, hmissing, Stats.recordFailure]
  | ok body =>
      by_cases hbelow : expected.timestamp.gt body.timestamp = true
      · simp [finishRead, HttpResult.stale, hbelow, Stats.recordStale]
      · simp [finishRead, HttpResult.stale, hbelow]

namespace MqStalenessLoadTest

/-- A local step records no stale read. -/
theorem staleEvents_of_localStep {test : StalenessLoadTest} {state next : Experiments.TestState}
    {index : Nat} {step : LocalStep} (hnext : test.localStep state index step = some next) :
    ∃ current changed, state.workers[index]? = some current ∧
      next.workers = state.workers.set index changed ∧
      changed.stats.staleEvents = current.stats.staleEvents := by
  obtain ⟨current, changed, hcurrent, hmove, hworkers⟩ :=
    StalenessLoadTest.localMove_of_localStep hnext
  refine ⟨current, changed, hcurrent, hworkers, ?_⟩
  generalize next.source = source at hmove
  cases hmove with
  | take hready htake =>
      unfold StalenessLoadTest.takeRequest at htake
      split at htake
      · cases htake
      · dsimp only at htake
        split at htake
        · obtain ⟨_, _, rfl⟩ := Option.map_eq_some_iff.mp htake
          rfl
        · obtain rfl := Option.some.inj htake
          rfl
  | number => rfl
  | skip => rfl
  | expect => rfl
  | record => rfl

/-- Only the worker that acts may gain a stale event, and only from a read that ends stale. -/
theorem staleEvents_of_step {test : StalenessLoadTest} {state next : Experiments.TestState}
    {action : TestAction LocalStep V} (hnext : test.step state action = some next) :
    ∃ current changed, state.workers[workerOf action]? = some current ∧
      next.workers = state.workers.set (workerOf action) changed ∧
      changed.stats.staleEvents.map StaleEvent.nodeId =
        current.stats.staleEvents.map StaleEvent.nodeId ++
          (staleFollower state action).toList.map test.nodeIdOf := by
  cases action with
  | worker index step =>
      obtain ⟨current, changed, hcurrent, hworkers, hevents⟩ := staleEvents_of_localStep hnext
      refine ⟨current, changed, hcurrent, hworkers, ?_⟩
      simp [staleFollower, hevents]
  | putEnds index now result =>
      simp only [StalenessLoadTest.step] at hnext
      split at hnext
      · obtain ⟨current, key, value, hcurrent, _, rfl⟩ :=
          StalenessLoadTest.putEnds_eq_some.mp hnext
        refine ⟨current, _, hcurrent, rfl, ?_⟩
        simp [staleFollower, staleEvents_finishWrite]
      · cases hnext
  | getEnds index now result =>
      obtain ⟨current, follower, key, expected, hcurrent, hstage, rfl⟩ :=
        StalenessLoadTest.getEnds_eq_some.mp hnext
      refine ⟨current, _, hcurrent, rfl, ?_⟩
      rw [staleEvents_finishRead]
      simp only [staleFollower, hcurrent, hstage, Option.bind_eq_bind, Option.bind_some]
      split <;> rfl

end MqStalenessLoadTest

/-- The statistics of a test that has finished. -/
theorem StalenessLoadTest.accountsFor_of_finished {test : StalenessLoadTest}
    {plan : List RequestPlan} {numWorkers : Nat} (hworkers : 1 ≤ numWorkers)
    {actions : List (TestAction LocalStep V)} {final : TestState}
    (hrun : Runs.run test.step (start plan numWorkers) actions = some final)
    (hfinished : Finished final) : AccountsFor plan (final.workers.map Worker.stats) := by
  have hbalanced := harness_run (Harness.Balanced.keeps V plan numWorkers)
    (Harness.Balanced.start plan numWorkers) hrun
  have haccounts := hbalanced.accountsFor hworkers fun view hview => by
    obtain ⟨worker, hworker, rfl⟩ := List.mem_map.mp hview
    exact (hfinished worker hworker).1
  simpa [harness, Function.comp_def, view] using haccounts

namespace MqStalenessLoadTest

/-! ### Over a run -/

/-- What an observer sees: what the shared test shows, and the ends of lag queries. -/
inductive MqSighting (V : Type) where
  | shared (sighting : Sighting V)
  | sampled (index : Nat) (follower : Follower) (answer : LagAnswer)

def sighting (state : TestState) : Action V → Option (MqSighting V)
  | .shared action => (StalenessLoadTest.sighting state.shared action).map .shared
  | .lagEnds index answer => (state.sampling index).map (.sampled index · answer)

/-- The lag queries of one worker and their answers, in order. -/
def samplesOf (index : Nat) (shown : List (MqSighting V)) : List (Follower × LagAnswer) :=
  shown.filterMap fun sighting => match sighting with
    | .sampled other follower answer => if other = index then some (follower, answer) else none
    | .shared _ => none

/-- A worker's lag queries go one by one with its stale events: each goes to the follower that
was read, and each but one under way has left its answer in the field of its event. -/
structure Sampled (test : MqStalenessLoadTest) (samples : List (Follower × LagAnswer))
    (sampling : Option Follower) (events : List StaleEvent)
    (fields : List (Option (Option Int))) : Prop where
  followers : events.map StaleEvent.nodeId =
    (samples.map Prod.fst ++ sampling.toList).map test.shared.nodeIdOf
  fields : fields =
    samples.map (fun sample => some (queryLag sample.2)) ++ sampling.toList.map fun _ => none

variable {test : MqStalenessLoadTest} {state next : TestState} {shown : List (MqSighting V)}

/-- Every worker's lag queries go with its stale events. -/
def AllSampled (test : MqStalenessLoadTest) (shown : List (MqSighting V)) (state : TestState) :
    Prop :=
  ∀ (index : Nat) worker, state.shared.workers[index]? = some worker →
    Sampled test (samplesOf index shown) (state.sampling index) worker.stats.staleEvents
      (state.lagFields index)

theorem samplesOf_append_shared (index : Nat) (sighting : Option (Sighting V)) :
    samplesOf index (shown ++ (sighting.map MqSighting.shared).toList) = samplesOf index shown := by
  cases sighting with
  | none => simp
  | some sighting => simp [samplesOf]

theorem samplesOf_append_sampled (index other : Nat) (follower : Follower) (answer : LagAnswer) :
    samplesOf index (shown ++ [.sampled other follower answer]) =
      samplesOf index shown ++ if other = index then [(follower, answer)] else [] := by
  by_cases heq : other = index
  · simp [samplesOf, heq]
  · simp [samplesOf, heq]

/-- A stale read opens a query where none was open. -/
theorem Sampled.opened {samples : List (Follower × LagAnswer)} {events later : List StaleEvent}
    {fields : List (Option (Option Int))} (hsampled : Sampled test samples none events fields)
    {follower : Follower} (hlater : later.map StaleEvent.nodeId =
      events.map StaleEvent.nodeId ++ [test.shared.nodeIdOf follower]) :
    Sampled test samples (some follower) later (fields ++ [none]) where
  followers := by
    rw [hlater, hsampled.followers]
    simp
  fields := by
    rw [hsampled.fields]
    simp

/-- The answer goes to the event that the query was opened for. -/
theorem Sampled.answered {samples : List (Follower × LagAnswer)} {events : List StaleEvent}
    {fields : List (Option (Option Int))} {follower : Follower}
    (hsampled : Sampled test samples (some follower) events fields) (answer : LagAnswer) :
    Sampled test (samples ++ [(follower, answer)]) none events
      (fields.dropLast ++ [some (queryLag answer)]) where
  followers := by
    rw [hsampled.followers]
    simp
  fields := by
    rw [hsampled.fields]
    simp

theorem AllSampled.step (hsampled : AllSampled test shown state) {action : Action V}
    (hnext : test.step state action = some next) :
    AllSampled test (shown ++ (sighting state action).toList) next := by
  cases action with
  | shared action =>
      obtain ⟨hidle, hshared, hsampling⟩ := step_shared hnext
      obtain ⟨current, changed, hcurrent, hworkers, hevents⟩ := staleEvents_of_step hshared
      intro index worker hworker
      have hold := hsampled (workerOf action) current hcurrent
      rw [hidle] at hold
      rw [sighting, samplesOf_append_shared]
      rw [hworkers] at hworker
      by_cases heq : workerOf action = index
      · subst heq
        rw [List.getElem?_set_self'] at hworker
        obtain ⟨_, _, rfl⟩ := Option.map_eq_some_iff.mp hworker
        split at hsampling
        · next hnot =>
            rw [hnot, Option.toList_none, List.map_nil, List.append_nil] at hevents
            rw [hsampling.1, hsampling.2, hidle]
            exact ⟨hevents.trans hold.followers, hold.fields⟩
        · next follower hstale =>
            rw [hstale] at hevents
            rw [hsampling.1, hsampling.2, Function.update_self, Function.update_self]
            exact hold.opened hevents
      · rw [List.getElem?_set_ne heq] at hworker
        have hother := hsampled index worker hworker
        split at hsampling
        · rw [hsampling.1, hsampling.2]
          exact hother
        · rw [hsampling.1, hsampling.2, Function.update_of_ne (Ne.symm heq),
            Function.update_of_ne (Ne.symm heq)]
          exact hother
  | lagEnds asking answer =>
      obtain ⟨follower, hfollower, _, rfl⟩ := step_lagEnds hnext
      intro index worker hworker
      have hold := hsampled index worker hworker
      simp only [sighting, hfollower, Option.map_some, Option.toList_some,
        samplesOf_append_sampled]
      by_cases heq : asking = index
      · subst heq
        rw [hfollower] at hold
        rw [if_pos rfl, Function.update_self, Function.update_self]
        exact hold.answered answer
      · rw [if_neg heq, List.append_nil, Function.update_of_ne (Ne.symm heq),
          Function.update_of_ne (Ne.symm heq)]
        exact hold

theorem AllSampled.start (plan : List RequestPlan) (numWorkers : Nat) :
    AllSampled test ([] : List (MqSighting V)) (start plan numWorkers) := by
  intro index worker hworker
  obtain ⟨chunk, _, rfl⟩ := List.mem_map.mp (List.mem_of_getElem? hworker)
  exact ⟨rfl, rfl⟩

/-- Each worker has counted as many stale reads as it has recorded events. -/
theorem staleReads_eq_length {plan : List RequestPlan} {numWorkers : Nat}
    {actions : List (Action V)} {final : TestState}
    (hrun : Runs.run test.step (start plan numWorkers) actions = some final) {index : Nat}
    {worker : Worker} (hworker : final.shared.workers[index]? = some worker) :
    worker.stats.staleReads = worker.stats.staleEvents.length := by
  have hbalanced := StalenessLoadTest.harness_run (Harness.Balanced.keeps V plan numWorkers)
    (Harness.Balanced.start plan numWorkers) (run_shared hrun)
  have hview : (StalenessLoadTest.harness final.shared).workers[index]? =
      some (StalenessLoadTest.view worker) := by
    rw [StalenessLoadTest.harness, List.getElem?_map, hworker, Option.map_some]
  obtain ⟨chunk, _, taken, _, hstats⟩ := Records.entry_of_forall₂ hbalanced hview
  exact hstats.staleEvents

/-- In every run each worker asks for a lag once for each of its stale reads, at the follower
it has read, and the answer is noted in the event of that read; a query that fails is noted
as no number. -/
theorem lag_samples_exact (test : MqStalenessLoadTest) (plan : List RequestPlan)
    (numWorkers : Nat) (actions : List (Action V)) (final : TestState)
    (hrun : Runs.run test.step (start plan numWorkers) actions = some final) (index : Nat)
    (worker : Worker) (hworker : final.shared.workers[index]? = some worker) :
    ∃ samples, samples = samplesOf index
        (Runs.observations test.step sighting (start plan numWorkers) actions) ∧
      Sampled test samples (final.sampling index) worker.stats.staleEvents
        (final.lagFields index) ∧
      (final.sampling index = none → samples.length = worker.stats.staleReads ∧
        staleLog final index = worker.stats.staleEvents.zip
          (samples.map fun sample => some (queryLag sample.2))) := by
  have hall : AllSampled test
      (Runs.observations test.step sighting (start plan numWorkers) actions) final :=
    Runs.run_observed_invariant (AllSampled test)
      (fun _ _ _ _ hsampled hnext => AllSampled.step hsampled hnext)
      (AllSampled.start plan numWorkers) hrun
  have hsampled := hall index worker hworker
  refine ⟨_, rfl, hsampled, fun hidle => ⟨?_, ?_⟩⟩
  · have hlength := congrArg List.length hsampled.followers
    rw [hidle] at hlength
    rw [staleReads_eq_length hrun hworker]
    simpa using hlength.symm
  · rw [staleLog, hworker]
    have hfields := hsampled.fields
    rw [hidle, Option.toList_none, List.map_nil, List.append_nil] at hfields
    rw [hfields]

/-! ### What the test measures -/

/-- What the shared test has shown. -/
def sharedOf (shown : List (MqSighting V)) : List (Sighting V) :=
  shown.filterMap fun sighting => match sighting with
    | .shared sighting => some sighting
    | .sampled _ _ _ => none

theorem sharedOf_append (first second : List (MqSighting V)) :
    sharedOf (first ++ second) = sharedOf first ++ sharedOf second := List.filterMap_append

theorem sharedOf_shared (sighting : Option (Sighting V)) :
    sharedOf (sighting.map MqSighting.shared).toList = sighting.toList := by
  cases sighting <;> rfl

theorem observations_shared {actions : List (Action V)} {final : TestState}
    (hrun : Runs.run test.step state actions = some final) :
    sharedOf (Runs.observations test.step sighting state actions) =
      Runs.observations test.shared.step StalenessLoadTest.sighting state.shared
        (withoutSamples actions) := by
  induction actions generalizing state with
  | nil => rfl
  | cons action rest ih =>
      obtain ⟨middle, hmiddle, hrest⟩ := (Runs.run_cons_eq_some _).mp hrun
      have hlater := ih hrest
      cases action with
      | shared action =>
          obtain ⟨_, hshared, _⟩ := step_shared hmiddle
          simp only [Runs.observations, hmiddle, sighting, sharedOf_append, sharedOf_shared, hlater,
            withoutSamples, List.filterMap_cons, hshared]
      | lagEnds index answer =>
          obtain ⟨follower, hfollower, _, rfl⟩ := step_lagEnds hmiddle
          simp only [Runs.observations, hmiddle, sharedOf_append, hlater, withoutSamples,
            List.filterMap_cons]
          simp [sighting, hfollower, sharedOf]

/-- A state between lag queries. -/
def Idle (state : TestState) : Prop := ∀ index, state.sampling index = none

/-- A step of the shared workers, and the lag query that it calls for answered at once. -/
theorem exists_run_of_step {action : TestAction LocalStep V} {final : Experiments.TestState}
    (hidle : Idle state) (hnext : test.shared.step state.shared action = some final) :
    ∃ (sampled : List (Action V)) (last : TestState),
      Runs.run test.step state sampled = some last ∧ withoutSamples sampled = [action] ∧
      last.shared = final ∧ Idle last := by
  cases hstale : staleFollower state.shared action with
  | none =>
      have hstep : test.step state (.shared action) = some { state with shared := final } := by
        simp [step, guard, hidle (workerOf action), hnext, hstale]
      exact ⟨[.shared action], _, (Runs.run_cons_eq_some _).mpr ⟨_, hstep, rfl⟩, rfl, rfl, hidle⟩
  | some follower =>
      let index := workerOf action
      let asking : TestState :=
        { shared := final
          sampling := Function.update state.sampling index (some follower)
          lagFields := Function.update state.lagFields index (state.lagFields index ++ [none]) }
      let answered : TestState :=
        { shared := final
          sampling := Function.update asking.sampling index none
          lagFields := Function.update asking.lagFields index
            (state.lagFields index ++ [some (some 0)]) }
      have hstep : test.step state (.shared action) = some asking := by
        simp [step, guard, hidle (workerOf action), hnext, hstale, asking, index]
      have hanswer : test.step (V := V) asking (.lagEnds index (.ok 0)) = some answered := by
        simp [step, asking, answered, setLast, queryLag]
      refine ⟨[.shared action, .lagEnds index (.ok 0)], answered, ?_, rfl, rfl, ?_⟩
      · exact (Runs.run_cons_eq_some _).mpr ⟨asking, hstep,
          (Runs.run_cons_eq_some _).mpr ⟨answered, hanswer, rfl⟩⟩
      · intro other
        by_cases heq : other = index
        · subst heq
          exact Function.update_self _ _ _
        · simpa [answered, asking, heq] using hidle other

theorem exists_run_of_shared {actions : List (TestAction LocalStep V)}
    {final : Experiments.TestState} (hidle : Idle state)
    (hrun : Runs.run test.shared.step state.shared actions = some final) :
    ∃ (sampled : List (Action V)) (last : TestState),
      Runs.run test.step state sampled = some last ∧ withoutSamples sampled = actions ∧
      last.shared = final := by
  induction actions generalizing state with
  | nil => exact ⟨[], state, rfl, rfl, Option.some.inj hrun⟩
  | cons action rest ih =>
      obtain ⟨next, hnext, hrest⟩ := (Runs.run_cons_eq_some _).mp hrun
      obtain ⟨first, middle, hfirst, haction, rfl, hback⟩ := exists_run_of_step hidle hnext
      obtain ⟨later, last, hlater, hactions, hlast⟩ := ih hback hrest
      refine ⟨first ++ later, last, ?_, ?_, hlast⟩
      · exact (Runs.run_append_eq_some _).mpr ⟨middle, hfirst, hlater⟩
      · rw [withoutSamples, List.filterMap_append]
        exact congrArg₂ (· ++ ·) haction hactions

/-- The lag queries are no part of what is measured: the workers get exactly where they get
without them, after every run their counters are those of the reads that an observer calls
comparable and stale, and at its end the merged statistics account for the whole plan. -/
theorem lag_samples_transparent (test : MqStalenessLoadTest) (plan : List RequestPlan)
    (numWorkers : Nat) (hworkers : 1 ≤ numWorkers) :
    (∀ shared, (∃ (actions : List (Action V)) (final : TestState),
        Runs.run test.step (start plan numWorkers) actions = some final ∧
          final.shared = shared) ↔
      ∃ actions : List (TestAction LocalStep V), Runs.run test.shared.step
        (StalenessLoadTest.start plan numWorkers) actions = some shared) ∧
    ∀ (actions : List (Action V)) final,
      Runs.run test.step (start plan numWorkers) actions = some final →
      (Ledger.of (sharedOf (Runs.observations test.step sighting (start plan numWorkers)
        actions))).Matches (StalenessLoadTest.harness final.shared) ∧
      (Finished final → AccountsFor plan (final.shared.workers.map Worker.stats)) := by
  refine ⟨fun shared => ⟨?_, ?_⟩, fun actions final hrun => ⟨?_, fun hfinished => ?_⟩⟩
  · rintro ⟨actions, final, hrun, rfl⟩
    exact ⟨withoutSamples actions, run_shared hrun⟩
  · rintro ⟨actions, hrun⟩
    have hidle : Idle (start plan numWorkers) := fun _ => rfl
    obtain ⟨sampled, last, hlast, _, hshared⟩ := @exists_run_of_shared V test _ _ _ hidle hrun
    exact ⟨sampled, last, hlast, hshared⟩
  · rw [observations_shared hrun]
    exact (StalenessLoadTest.harness_run Harness.Agrees.keeps
      (Harness.Agrees.start plan numWorkers) (run_shared hrun)).matches
  · exact StalenessLoadTest.accountsFor_of_finished hworkers (run_shared hrun) hfinished.1

/-- A write, and a read of it that the one follower answers 404 while it lags behind. -/
def behindRun : List (Action Nat) :=
  [.shared (.worker 0 .next), .shared (.worker 0 .nextValue),
    .shared (.putEnds 0 0 (.ok ⟨true, .finite 5⟩)), .shared (.worker 0 .record),
    .shared (.worker 0 .next), .shared (.worker 0 .snapshot),
    .shared (.getEnds 0 0 (.status 404)), .lagEnds 0 (.ok 3)]

theorem lag_sampled_behind :
    ∃ final worker, Runs.run (step ⟨[8201], fun _ => none, "producer"⟩)
        (start [⟨false, "k", none⟩, ⟨true, "k", some 0⟩] 1) behindRun = some final ∧
      final.shared.workers[0]? = some worker ∧
      (staleLog final 0).map Prod.snd = [some (some 3)] ∧ worker.stats.staleReads = 1 := by
  refine ⟨_, _, rfl, rfl, rfl, ?_⟩
  obtain ⟨samples, rfl, -, hidle⟩ := lag_samples_exact ⟨[8201], fun _ => none, "producer"⟩
    [⟨false, "k", none⟩, ⟨true, "k", some 0⟩] 1 behindRun _ rfl 0 _ rfl
  exact (hidle rfl).1.symm

theorem behind_run_accounted :
    ∃ final, Runs.run (step ⟨[8201], fun _ => none, "producer"⟩)
        (start [⟨false, "k", none⟩, ⟨true, "k", some 0⟩] 1) behindRun = some final ∧
      AccountsFor [⟨false, "k", none⟩, ⟨true, "k", some 0⟩]
        (final.shared.workers.map Worker.stats) := by
  refine ⟨_, rfl, ((lag_samples_transparent ⟨[8201], fun _ => none, "producer"⟩
    [⟨false, "k", none⟩, ⟨true, "k", some 0⟩] 1 (Nat.le_refl 1)).2 behindRun _ rfl).2 ⟨?_, ?_⟩⟩
  · intro worker hworker
    obtain rfl := List.mem_singleton.mp hworker
    exact ⟨rfl, rfl⟩
  · intro index
    cases index with
    | zero => rfl
    | succ index => rfl

end MqStalenessLoadTest

end KvReplication.Experiments
