import KvReplication.LeaderFollower.Replicator
import KvReplication.Leaderless.Schedules

/-! # The two wait loops agree

`Replicator.replicate` counts what `QuorumCoordinator._gather` collects. Reading an
ack as a collected unit, the loops accept the same wake-ups and leave at the same
point with the same number; they differ only in the tasks they keep hold of.
-/

namespace KvReplication

open WaitLoop LeaderFollower Leaderless

/-- The result of a send as a result of a fan-out call. -/
def collectedAck : Except PyError Bool → Except PyError (Bool × Unit) :=
  Except.map fun ack => (ack, ())

/-- The loops wait for the same tasks, and have counted and left alike. -/
structure LoopsMatch (replicate : Replicate) (gather : Gather Nat Unit) : Prop where
  pending : gather.pending = replicate.pending
  acked : gather.collected.length = replicate.acked
  exit : gather.exit.map (Except.map List.length) = replicate.exit

namespace LoopsMatch

variable {replicate : Replicate} {gather : Gather Nat Unit} {needed : Int}

theorem leave (hmatch : LoopsMatch replicate gather) :
    LoopsMatch replicate.leave (gather.leave (.ok gather.collected)) :=
  ⟨hmatch.pending, hmatch.acked, by simp [Gather.leave, Replicate.leave, Except.map, hmatch.acked]⟩

theorem fail (hmatch : LoopsMatch replicate gather) (error : PyError) :
    LoopsMatch (replicate.fail error) (gather.leave (.error error)) :=
  ⟨hmatch.pending, hmatch.acked, rfl⟩

theorem check (hmatch : LoopsMatch replicate gather) :
    LoopsMatch (replicate.check needed) (gather.check needed) := by
  unfold Replicate.check Gather.check
  rw [hmatch.pending, hmatch.acked]
  split
  · exact hmatch.leave
  · exact hmatch

/-- Both loops start by testing the condition on the same tasks. -/
theorem start (entries : List Nat) (needed : Int) :
    LoopsMatch (Replicate.start entries needed) (Gather.start entries needed) :=
  check ⟨rfl, rfl, rfl⟩

/-- The acks of a wake-up are as many as the units it collects. -/
theorem collectDone_map (finished : List (Nat × Except PyError Bool)) (collected : List Unit) :
    (Gather.collectDone (finished.map fun entry => (entry.1, collectedAck entry.2))
        collected).map List.length =
      (Replicate.sumDone finished).map (collected.length + ·) := by
  induction finished generalizing collected with
  | nil => rfl
  | cons entry rest ih =>
      obtain ⟨task, result⟩ := entry
      cases result with
      | error error => rfl
      | ok ack =>
          have hrest := ih (if ack then collected ++ [()] else collected)
          simp only [List.map_cons, collectedAck, Except.map, Gather.collectDone,
            Replicate.sumDone] at hrest ⊢
          rw [hrest]
          cases Replicate.sumDone rest with
          | error error => rfl
          | ok acks => cases ack <;> simp [Nat.add_assoc]

theorem wake (hmatch : LoopsMatch replicate gather) (event : Wake Nat (Except PyError Bool)) :
    LoopsMatch (replicate.wake needed event) (gather.wake needed (event.map collectedAck)) := by
  cases event with
  | timeout => exact hmatch.leave
  | cancelled => exact hmatch.fail _
  | done finished =>
      have hcollect := collectDone_map finished gather.collected
      have htasks : (finished.map fun entry => (entry.1, collectedAck entry.2)).map Prod.fst =
          finished.map Prod.fst := by
        rw [List.map_map]
        rfl
      simp only [Wake.map, Gather.wake, Replicate.wake, htasks, hmatch.pending]
      cases hsum : Replicate.sumDone finished with
      | error error =>
          cases hdone : Gather.collectDone (finished.map fun entry =>
              (entry.1, collectedAck entry.2)) gather.collected with
          | ok collected => simp [hsum, hdone, Except.map] at hcollect
          | error raised =>
              obtain rfl : raised = error := by simpa [hsum, hdone, Except.map] using hcollect
              apply fail
              exact ⟨rfl, hmatch.acked, hmatch.exit⟩
      | ok acks =>
          cases hdone : Gather.collectDone (finished.map fun entry =>
              (entry.1, collectedAck entry.2)) gather.collected with
          | error raised => simp [hsum, hdone, Except.map] at hcollect
          | ok collected =>
              have hlength : collected.length = gather.collected.length + acks := by
                simpa [hsum, hdone, Except.map] using hcollect
              refine check ⟨rfl, ?_, hmatch.exit⟩
              rw [hlength, hmatch.acked]

theorem step (hmatch : LoopsMatch replicate gather) (event : Wake Nat (Except PyError Bool)) :
    Option.Rel LoopsMatch (replicate.step needed event)
      (gather.step needed (event.map collectedAck)) := by
  have hrunning : gather.exit.isNone = replicate.exit.isNone := by
    rw [← hmatch.exit, Option.isNone_map]
  unfold Replicate.step Gather.step
  simp only [hrunning, Wake.allowed_map, hmatch.pending]
  split
  · exact .some (hmatch.wake event)
  · exact .none

/-- Over any wake-ups the loops stay in step. -/
theorem run (entries : List Nat) (needed : Int) (events : List (Wake Nat (Except PyError Bool))) :
    Option.Rel LoopsMatch
      (Runs.run (Replicate.step needed) (Replicate.start entries needed) events)
      (Runs.run (Gather.step needed) (Gather.start entries needed)
        (events.map (Wake.map collectedAck))) :=
  Runs.run_simulation (Wake.map collectedAck) LoopsMatch
    (fun _ _ event hmatch => hmatch.step event) (start entries needed) events

end LoopsMatch

/-- `replicate` can end with `exit` if its sends end as `outcome` says. -/
def LeaderFollower.Replicate.Exits (entries : List Nat) (ackRequired : Int)
    (outcome : Nat → Except PyError Bool) (exit : Except PyError Nat) : Prop :=
  ∃ events state, (∀ event ∈ events, Wake.Reports outcome event) ∧
    Runs.run (Replicate.step ackRequired) (Replicate.start entries ackRequired) events =
      some state ∧ state.exit = some exit

/-- The loops end alike over all schedules. -/
theorem replicate_exits_iff {entries : List Nat} {ackRequired : Int}
    {outcome : Nat → Except PyError Bool} {exit : Except PyError Nat} :
    Replicate.Exits entries ackRequired outcome exit ↔
      ∃ collected, Gather.Exits entries ackRequired (collectedAck ∘ outcome) collected ∧
        collected.map List.length = exit := by
  have hsimulation := fun events => LoopsMatch.run entries ackRequired events
  constructor
  · rintro ⟨events, state, hreports, hrun, hexit⟩
    have hrelated := hsimulation events
    rw [hrun] at hrelated
    generalize hgather : Runs.run (Gather.step ackRequired) (Gather.start entries ackRequired)
      (events.map (Wake.map collectedAck)) = result at hrelated
    cases hrelated with
    | @some _ gather hmatch =>
        obtain ⟨collected, hcollected, hlength⟩ :=
          Option.map_eq_some_iff.mp (hmatch.exit.trans hexit)
        refine ⟨collected, ⟨events.map (Wake.map collectedAck), gather, ?_, hgather,
          hcollected⟩, hlength⟩
        intro event hevent
        obtain ⟨original, horiginal, rfl⟩ := List.mem_map.mp hevent
        exact (hreports original horiginal).map
  · rintro ⟨collected, ⟨events, gather, hreports, hrun, hcollected⟩, hlength⟩
    have hback : (events.map (Wake.withOutcome outcome)).map (Wake.map collectedAck) = events := by
      rw [List.map_map]
      conv_rhs => rw [← List.map_id events]
      apply List.map_congr_left
      intro event hevent
      exact (hreports event hevent).map_withOutcome
    have hrelated := hsimulation (events.map (Wake.withOutcome outcome))
    rw [hback, hrun] at hrelated
    generalize hreplicate : Runs.run (Replicate.step ackRequired)
      (Replicate.start entries ackRequired) (events.map (Wake.withOutcome outcome)) = result
      at hrelated
    cases hrelated with
    | @some replicate _ hmatch =>
        refine ⟨events.map (Wake.withOutcome outcome), replicate, ?_, hreplicate, ?_⟩
        · intro event hevent
          obtain ⟨original, horiginal, rfl⟩ := List.mem_map.mp hevent
          exact (hreports original horiginal).withOutcome
        · rw [← hmatch.exit, hcollected, ← hlength]
          rfl

/-- `replicate` can raise exactly if it waits at all and one of its sends raises. -/
theorem replicate_exits_error_iff {entries : List Nat} {ackRequired : Int}
    {outcome : Nat → Except PyError Bool} {error : PyError} :
    Replicate.Exits entries ackRequired outcome (.error error) ↔
      0 < ackRequired ∧ ∃ entry ∈ entries, outcome entry = .error error := by
  have hraises : ∀ entry, collectedAck (outcome entry) = .error error ↔
      outcome entry = .error error := by
    intro entry
    cases outcome entry <;> simp [collectedAck, Except.map]
  rw [replicate_exits_iff]
  constructor
  · rintro ⟨collected, hexits, hcollected⟩
    cases collected with
    | ok values => cases hcollected
    | error raised =>
        obtain rfl := Except.error.inj hcollected
        simpa [hraises] using Gather.exits_error_iff.mp hexits
  · rintro ⟨hwaits, entry, hentry, hraised⟩
    exact ⟨.error error, Gather.exits_error_iff.mpr
      ⟨hwaits, entry, hentry, (hraises entry).mpr hraised⟩, rfl⟩

end KvReplication
