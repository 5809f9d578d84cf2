import KvReplication.Experiments.LagSamples
import KvReplication.Foundation.Tickets

/-! # Every value is written once

The workers draw the values of their writes from one counter. No number is skipped and none
is drawn twice, so a value that the source of truth shows was sent by one PUT of the run.
-/

namespace KvReplication.Experiments

open Tickets

variable {V : Type}

/-- The values of the PUTs that have ended. -/
def writtenValues (shown : List (Sighting V)) : List Nat :=
  shown.filterMap fun sighting => match sighting with
    | .written _ _ value _ => some value
    | _ => none

@[simp] theorem writtenValues_nil : writtenValues ([] : List (Sighting V)) = [] := rfl

@[simp] theorem writtenValues_append (first second : List (Sighting V)) :
    writtenValues (first ++ second) = writtenValues first ++ writtenValues second :=
  List.filterMap_append

theorem writtenValues_read (index : Nat) (key : String) (result : HttpResult (KVResponse V)) :
    writtenValues [Sighting.read index key result] = [] := rfl

/-- The entry was brought by one PUT of the run, the only one of its value. -/
def SourceEntry.WrittenOnce (shown : List (Sighting V)) (key : String) (entry : SourceEntry) :
    Prop :=
  ∃ index, .written index key entry.value (.ok ⟨true, entry.timestamp⟩) ∈ shown ∧
    ∀ other otherKey result, .written other otherKey entry.value result ∈ shown →
      other = index ∧ otherKey = key ∧ result = .ok ⟨true, entry.timestamp⟩

/-- What the counter of a run says about its writes. -/
structure ValuesUnique (shown : List (Sighting V)) (counter : Nat) (source : SourceOfTruth) :
    Prop where
  nodup : (writtenValues shown).Nodup
  below : ∀ value ∈ writtenValues shown, value < counter
  traced : ∀ key entry, source.snapshot key = some entry → entry.WrittenOnce shown key

/-! ### From the source of truth back to the PUT -/

/-- What the observer has noted as ended or recorded has been shown. -/
structure Ledger.Shown (shown : List (Sighting V)) (ledger : Ledger V) : Prop where
  ended : ∀ index write, ledger.ended index = some write →
    .written index write.key write.value write.result ∈ shown
  recorded : ∀ write ∈ ledger.recorded,
    ∃ index, .written index write.key write.value write.result ∈ shown

theorem Ledger.Shown.see {shown : List (Sighting V)} {ledger : Ledger V}
    (hshown : ledger.Shown shown) (sighting : Sighting V) :
    (ledger.see sighting).Shown (shown ++ [sighting]) := by
  have hended : ∀ index write, ledger.ended index = some write →
      .written index write.key write.value write.result ∈ shown ++ [sighting] :=
    fun index write hwrite => List.mem_append_left _ (hshown.ended index write hwrite)
  have hrecorded : ∀ write ∈ ledger.recorded,
      ∃ index, .written index write.key write.value write.result ∈ shown ++ [sighting] := by
    intro write hwrite
    obtain ⟨index, hmem⟩ := hshown.recorded write hwrite
    exact ⟨index, List.mem_append_left _ hmem⟩
  cases sighting with
  | written index key value result =>
      refine ⟨?_, hrecorded⟩
      intro other write hwrite
      by_cases heq : other = index
      · subst heq
        obtain rfl : ⟨key, value, result⟩ = write := by simpa [Ledger.see] using hwrite
        exact List.mem_append_right _ (List.mem_singleton_self _)
      · exact hended other write (by simpa [Ledger.see, heq] using hwrite)
  | recorded index =>
      refine ⟨hended, ?_⟩
      intro write hwrite
      rcases List.mem_append.mp hwrite with hold | hnew
      · exact hrecorded write hold
      · exact ⟨index, hended index write (Option.mem_toList.mp hnew)⟩
  | snapshot index => exact ⟨hended, hrecorded⟩
  | read index key result => exact ⟨hended, hrecorded⟩

theorem Ledger.shown_of (shown : List (Sighting V)) : (Ledger.of shown).Shown shown := by
  induction shown using List.reverseRecOn with
  | nil =>
      refine ⟨?_, ?_⟩
      · rintro _ _ ⟨⟩
      · rintro _ ⟨⟩
  | append_singleton shown sighting ih =>
      rw [Ledger.of, List.foldl_append]
      exact ih.see sighting

/-- A value that was written once was written in one place. -/
theorem eq_of_writtenValues_nodup {shown : List (Sighting V)} (hnodup : (writtenValues shown).Nodup)
    {index other : Nat} {key otherKey : String} {value : Nat}
    {result otherResult : HttpResult PutResponse}
    (hwritten : .written index key value result ∈ shown)
    (hother : .written other otherKey value otherResult ∈ shown) :
    other = index ∧ otherKey = key ∧ otherResult = result := by
  induction shown with
  | nil => cases hwritten
  | cons first rest ih =>
      have hvalue : ∀ {index key result}, .written index key value result ∈ rest →
          value ∈ writtenValues rest := fun hmem =>
        List.mem_filterMap.mpr ⟨_, hmem, rfl⟩
      rcases List.mem_cons.mp hwritten with rfl | htail
      · rcases List.mem_cons.mp hother with hsame | hlater
        · cases hsame
          exact ⟨rfl, rfl, rfl⟩
        · exact absurd (hvalue hlater) (List.nodup_cons.mp hnodup).1
      · rcases List.mem_cons.mp hother with rfl | hlater
        · exact absurd (hvalue htail) (List.nodup_cons.mp hnodup).1
        · refine ih ?_ htail hlater
          cases first with
          | written => exact (List.nodup_cons.mp hnodup).2
          | recorded => exact hnodup
          | snapshot => exact hnodup
          | read => exact hnodup

/-- An entry of the source of truth comes from the write that brought it. -/
theorem Harness.Agrees.traced {shown : List (Sighting V)} {harness : Harness}
    (hagrees : harness.Agrees (Ledger.of shown)) (hnodup : (writtenValues shown).Nodup)
    {key : String} {entry : SourceEntry} (hentry : harness.source.snapshot key = some entry) :
    entry.WrittenOnce shown key := by
  rw [hagrees.source] at hentry
  obtain ⟨write, hwrite, rfl, hnewest⟩ := mem_of_newestEntry hentry
  obtain ⟨index, hmem⟩ := (Ledger.shown_of shown).recorded write hwrite
  obtain ⟨hresult, hvalue⟩ :
      write.result = .ok ⟨true, entry.timestamp⟩ ∧ write.value = entry.value := by
    obtain ⟨key, value, result⟩ := write
    unfold Write.entry at hnewest
    split at hnewest
    · next body hbody =>
        split at hnewest
        · next happlied =>
            cases hnewest
            obtain rfl : result = .ok body := hbody
            exact ⟨by rw [← happlied], rfl⟩
        · cases hnewest
    · cases hnewest
  rw [hresult, hvalue] at hmem
  exact ⟨index, hmem, fun other otherKey result hother =>
    eq_of_writtenValues_nodup hnodup hmem hother⟩

theorem ValuesUnique.of_accounted {Holder : Type} {held : Holder → Option Nat} {counter : Nat}
    {holders : List Holder} {shown : List (Sighting V)} {harness : Harness}
    (haccounted : Accounted held counter holders (writtenValues shown))
    (hagrees : harness.Agrees (Ledger.of shown)) :
    ValuesUnique shown counter harness.source where
  nodup := haccounted.nodup
  below _ := haccounted.lt
  traced _ _ hentry := hagrees.traced haccounted.nodup hentry

/-! ### The workers as holders -/

namespace StalenessLoadTest

/-- The value that a worker has drawn and not yet written. -/
def heldValue (worker : Worker) : Option Nat :=
  match worker.stage with
  | .writing _ value => some value
  | _ => none

def Numbered (shown : List (Sighting V)) (state : TestState) : Prop :=
  Accounted heldValue state.counter state.workers (writtenValues shown)

variable {test : StalenessLoadTest} {state next : TestState} {shown : List (Sighting V)}

theorem Numbered.localStep (hnumbered : Numbered shown state) {index : Nat} {step : LocalStep}
    (hnext : test.localStep state index step = some next) :
    Numbered (shown ++ (sighting (V := V) state (.worker index step)).toList) next := by
  have hsilent : writtenValues (shown ++ (sighting (V := V) state (.worker index step)).toList) =
      writtenValues shown := by
    cases step <;> simp [sighting, writtenValues]
  rw [Numbered, hsilent]
  simp only [StalenessLoadTest.localStep, Option.bind_eq_bind, Option.bind_eq_some_iff] at hnext
  obtain ⟨current, hcurrent, hnext⟩ := hnext
  split at hnext
  · next hstage =>
      obtain ⟨changed, htake, rfl⟩ := Option.map_eq_some_iff.mp hnext
      refine hnumbered.keep hcurrent ?_
      obtain ⟨_, ⟨_, _, key, hread⟩ | ⟨key, hwrite⟩⟩ := takeRequest_cases htake
      · simp only [heldValue, hread, hstage]
      · simp only [heldValue, hwrite, hstage]
  · next hstage =>
      obtain rfl := Option.some.inj hnext
      exact hnumbered.draw hcurrent (by simp only [heldValue, hstage]) rfl
  · next hstage =>
      split at hnext
      · obtain rfl := Option.some.inj hnext
        exact hnumbered.keep hcurrent (by simp only [heldValue, hstage])
      · obtain rfl := Option.some.inj hnext
        exact hnumbered.keep hcurrent (by simp only [heldValue, hstage])
  · next hstage =>
      obtain rfl := Option.some.inj hnext
      exact hnumbered.keep hcurrent (by simp only [heldValue, hstage])
  · cases hnext

theorem Numbered.step (hnumbered : Numbered shown state) {action : TestAction LocalStep V}
    (hnext : test.step state action = some next) :
    Numbered (shown ++ (sighting state action).toList) next := by
  cases action with
  | worker index step => exact hnumbered.localStep hnext
  | putEnds index now result =>
      simp only [StalenessLoadTest.step] at hnext
      split at hnext
      · obtain ⟨current, key, value, hcurrent, hstage, rfl⟩ := putEnds_eq_some.mp hnext
        simp only [sighting, hcurrent, hstage, Option.bind_eq_bind, Option.bind_some,
          Option.toList_some, Numbered, writtenValues_append]
        refine hnumbered.use hcurrent (by simp only [heldValue, hstage]) ?_
        cases hrecord : (finishWrite current.stats key test.leaderNodeId now result).2 with
        | none => rfl
        | some timestamp => rfl
      · cases hnext
  | getEnds index now result =>
      obtain ⟨current, follower, key, expected, hcurrent, hstage, rfl⟩ := getEnds_eq_some.mp hnext
      simp only [sighting, hcurrent, hstage, Option.bind_eq_bind, Option.bind_some,
        Option.toList_some, Numbered, writtenValues_append]
      rw [writtenValues_read, List.append_nil]
      exact hnumbered.keep hcurrent (by simp only [heldValue, hstage])

theorem Numbered.run {plan : List RequestPlan} {numWorkers : Nat}
    {actions : List (TestAction LocalStep V)} {final : TestState}
    (hrun : Runs.run test.step (start plan numWorkers) actions = some final) :
    Numbered (Runs.observations test.step sighting (start plan numWorkers) actions) final := by
  refine Runs.run_observed_invariant Numbered
    (fun _ _ _ _ hnumbered hnext => hnumbered.step hnext) ?_ hrun
  refine Accounted.start fun worker hworker => ?_
  obtain ⟨chunk, _, rfl⟩ := List.mem_map.mp hworker
  rfl

end StalenessLoadTest

namespace LeaderlessLoadTest

/-- The value that a worker has drawn and not yet written. -/
def heldValue (worker : Worker) : Option Nat :=
  match worker.stage with
  | .rotating _ value => some value
  | .writing _ _ value => some value
  | _ => none

def Numbered (shown : List (Sighting V)) (state : TestState) : Prop :=
  Accounted heldValue state.counter state.workers (writtenValues shown)

variable {test : LeaderlessLoadTest} {state next : TestState} {shown : List (Sighting V)}

theorem heldValue_of_takeRequest {worker changed : Worker}
    (htake : test.takeRequest worker = some changed) : heldValue changed = none := by
  unfold takeRequest at htake
  split at htake
  · cases htake
  · dsimp only at htake
    split at htake
    · obtain ⟨_, _, rfl⟩ := Option.map_eq_some_iff.mp htake
      rfl
    · obtain rfl := Option.some.inj htake
      rfl

theorem Numbered.localStep (hnumbered : Numbered shown state) {index : Nat} {step : LocalStep}
    (hnext : test.localStep state index step = some next) :
    Numbered (shown ++ (sighting (V := V) state (.worker index step)).toList) next := by
  have hsilent : writtenValues (shown ++ (sighting (V := V) state (.worker index step)).toList) =
      writtenValues shown := by
    cases step <;> simp [sighting, writtenValues]
  rw [Numbered, hsilent]
  simp only [LeaderlessLoadTest.localStep, Option.bind_eq_bind, Option.bind_eq_some_iff] at hnext
  obtain ⟨current, hcurrent, hnext⟩ := hnext
  split at hnext
  · next hstage =>
      obtain ⟨changed, htake, rfl⟩ := Option.map_eq_some_iff.mp hnext
      refine hnumbered.keep hcurrent ?_
      rw [heldValue_of_takeRequest htake]
      simp only [heldValue, hstage]
  · next hstage =>
      obtain rfl := Option.some.inj hnext
      exact hnumbered.draw hcurrent (by simp only [heldValue, hstage]) rfl
  · next hstage =>
      obtain ⟨coordinator, _, hdone⟩ := Option.bind_eq_some_iff.mp hnext
      obtain rfl := Option.some.inj hdone
      exact hnumbered.keep hcurrent (by simp only [heldValue, hstage])
  · next hstage =>
      split at hnext
      · obtain rfl := Option.some.inj hnext
        exact hnumbered.keep hcurrent (by simp only [heldValue, hstage])
      · obtain rfl := Option.some.inj hnext
        exact hnumbered.keep hcurrent (by simp only [heldValue, hstage])
  · next hstage =>
      obtain rfl := Option.some.inj hnext
      exact hnumbered.keep hcurrent (by simp only [heldValue, hstage])
  · cases hnext

theorem Numbered.step (hnumbered : Numbered shown state) {action : TestAction LocalStep V}
    (hnext : test.step state action = some next) :
    Numbered (shown ++ (sighting state action).toList) next := by
  cases action with
  | worker index step => exact hnumbered.localStep hnext
  | putEnds index now result =>
      simp only [LeaderlessLoadTest.step] at hnext
      split at hnext
      · obtain ⟨current, coordinator, key, value, hcurrent, hstage, rfl⟩ :=
          putEnds_eq_some.mp hnext
        simp only [sighting, hcurrent, hstage, Option.bind_eq_bind, Option.bind_some,
          Option.toList_some, Numbered, writtenValues_append]
        refine hnumbered.use hcurrent (by simp only [heldValue, hstage]) ?_
        cases hrecord :
          (finishWrite current.stats key (test.nodeIdOf coordinator) now result).2 with
        | none => rfl
        | some timestamp => rfl
      · cases hnext
  | getEnds index now result =>
      obtain ⟨current, coordinator, key, expected, hcurrent, hstage, rfl⟩ :=
        getEnds_eq_some.mp hnext
      simp only [sighting, hcurrent, hstage, Option.bind_eq_bind, Option.bind_some,
        Option.toList_some, Numbered, writtenValues_append]
      rw [writtenValues_read, List.append_nil]
      exact hnumbered.keep hcurrent (by simp only [heldValue, hstage])

theorem Numbered.run {plan : List RequestPlan} {numWorkers : Nat}
    {actions : List (TestAction LocalStep V)} {final : TestState}
    (hrun : Runs.run test.step (start plan numWorkers) actions = some final) :
    Numbered (Runs.observations test.step sighting (start plan numWorkers) actions) final := by
  refine Runs.run_observed_invariant Numbered
    (fun _ _ _ _ hnumbered hnext => hnumbered.step hnext) ?_ hrun
  refine Accounted.start fun worker hworker => ?_
  obtain ⟨chunk, _, rfl⟩ := List.mem_map.mp hworker
  rfl

end LeaderlessLoadTest

/-! ### All three tests -/

/-- In every run of each test the values of the PUTs are different numbers that the counter
has given out, and whatever the source of truth holds was brought by exactly one of them. When
all workers are done, the values written are all numbers the counter has given out. -/
theorem written_values_unique (V : Type) (plan : List RequestPlan) (numWorkers : Nat) :
    (∀ (test : StalenessLoadTest) actions final,
      Runs.run (test.step (V := V)) (StalenessLoadTest.start plan numWorkers) actions =
        some final →
      ∃ shown, shown = Runs.observations (test.step (V := V)) StalenessLoadTest.sighting
          (StalenessLoadTest.start plan numWorkers) actions ∧
        ValuesUnique shown final.counter final.source ∧
        (StalenessLoadTest.Finished final →
          (writtenValues shown).Perm (List.range final.counter))) ∧
    (∀ (test : LeaderlessLoadTest) actions final,
      Runs.run (test.step (V := V)) (LeaderlessLoadTest.start plan numWorkers) actions =
        some final →
      ∃ shown, shown = Runs.observations (test.step (V := V)) LeaderlessLoadTest.sighting
          (LeaderlessLoadTest.start plan numWorkers) actions ∧
        ValuesUnique shown final.counter final.source ∧
        (LeaderlessLoadTest.Finished final →
          (writtenValues shown).Perm (List.range final.counter))) ∧
    ∀ (test : MqStalenessLoadTest) actions final,
      Runs.run (test.step (V := V)) (MqStalenessLoadTest.start plan numWorkers) actions =
        some final →
      ∃ shown, shown = MqStalenessLoadTest.sharedOf
          (Runs.observations (test.step (V := V)) MqStalenessLoadTest.sighting
            (MqStalenessLoadTest.start plan numWorkers) actions) ∧
        ValuesUnique shown final.shared.counter final.shared.source ∧
        (MqStalenessLoadTest.Finished final →
          (writtenValues shown).Perm (List.range final.shared.counter)) := by
  have hstaleness : ∀ (test : StalenessLoadTest) actions final,
      Runs.run (test.step (V := V)) (StalenessLoadTest.start plan numWorkers) actions =
        some final →
      ∃ shown, shown = Runs.observations (test.step (V := V)) StalenessLoadTest.sighting
          (StalenessLoadTest.start plan numWorkers) actions ∧
        ValuesUnique shown final.counter final.source ∧
        (StalenessLoadTest.Finished final →
          (writtenValues shown).Perm (List.range final.counter)) := by
    intro test actions final hrun
    have hnumbered := StalenessLoadTest.Numbered.run hrun
    have hagrees := StalenessLoadTest.harness_run Harness.Agrees.keeps
      (Harness.Agrees.start plan numWorkers) hrun
    refine ⟨_, rfl, .of_accounted hnumbered hagrees, fun hfinished => ?_⟩
    refine hnumbered.perm_range fun worker hworker => ?_
    rw [StalenessLoadTest.heldValue, (hfinished worker hworker).2]
  refine ⟨hstaleness, ?_, ?_⟩
  · intro test actions final hrun
    have hnumbered := LeaderlessLoadTest.Numbered.run hrun
    have hagrees := LeaderlessLoadTest.harness_run Harness.Agrees.keeps
      (Harness.Agrees.start plan numWorkers) hrun
    refine ⟨_, rfl, .of_accounted hnumbered hagrees, fun hfinished => ?_⟩
    refine hnumbered.perm_range fun worker hworker => ?_
    rw [LeaderlessLoadTest.heldValue, (hfinished worker hworker).2]
  · intro test actions final hrun
    obtain ⟨shown, rfl, hunique, hall⟩ := hstaleness test.shared _ _
      (MqStalenessLoadTest.run_shared hrun)
    rw [MqStalenessLoadTest.observations_shared hrun]
    exact ⟨_, rfl, hunique, fun hfinished => hall hfinished.1⟩

/-- One worker writes a key twice, and the second write times out. -/
def twoWrites : List (TestAction LocalStep Nat) :=
  [.worker 0 .next, .worker 0 .nextValue, .putEnds 0 0 (.ok ⟨true, .finite 5⟩), .worker 0 .record,
    .worker 0 .next, .worker 0 .nextValue, .putEnds 0 0 (.raised .timeoutException "timeout")]

theorem two_writes_traced :
    ∃ (final : TestState) (shown : List (Sighting Nat)),
      Runs.run (StalenessLoadTest.step (V := Nat) ⟨[], fun _ => none, "leader"⟩)
        (StalenessLoadTest.start [⟨false, "k", none⟩, ⟨false, "k", none⟩] 1) twoWrites =
          some final ∧
      ValuesUnique shown final.counter final.source ∧ writtenValues shown = [0, 1] := by
  obtain ⟨shown, hshown, hunique, -⟩ := (written_values_unique Nat
    [⟨false, "k", none⟩, ⟨false, "k", none⟩] 1).1 ⟨[], fun _ => none, "leader"⟩ twoWrites _ rfl
  refine ⟨_, shown, rfl, hunique, ?_⟩
  rw [hshown]
  rfl

end KvReplication.Experiments
