import KvReplication.Foundation.QuorumWait
import KvReplication.LoopsAgree
import KvReplication.LeaderFollower.Cluster

/-! # The two wait loops wait for a quorum

`QuorumCoordinator._gather` and `Replicator.replicate` over calls that all return are
one and the same loop that waits for enough successes: each refines it, wake-up by
wake-up, so what it accounts for holds of both, and the handlers built on them fail in
the same schedules.
-/

namespace KvReplication

open WaitLoop LeaderFollower Leaderless

section Gather

variable {α : Type}

/-- A call of `_gather` that returns, with the value it has collected if it counts. -/
def gatheredCall (succeeds : Nat → Bool) (value : Nat → α) (call : Nat) :
    Except PyError (Bool × α) :=
  .ok (succeeds call, value call)

/-- `_gather` has what the abstract loop has, and has left if that has stopped. -/
structure Leaderless.Gather.Refines (waiting : Waiting Nat) (gather : Gather Nat α) : Prop where
  pending : gather.pending = waiting.pending
  collected : gather.collected.length = waiting.successes
  exit : gather.exit = if waiting.stopped then some (.ok gather.collected) else none

namespace Leaderless.Gather.Refines

variable {waiting : Waiting Nat} {gather : Gather Nat α} {needed : Int}

theorem leave (hrefines : gather.Refines waiting) :
    (gather.leave (.ok gather.collected)).Refines { waiting with stopped := true } :=
  ⟨hrefines.pending, hrefines.collected, rfl⟩

theorem check (hpending : gather.pending = waiting.pending)
    (hcollected : gather.collected.length = waiting.successes) (hrunning : gather.exit = none) :
    (gather.check needed).Refines (waiting.check needed) := by
  have hcondition : (waiting.check needed).stopped = true ↔
      gather.pending.isEmpty ∨ needed ≤ gather.collected.length := by
    rw [Waiting.stopped_check, hpending, hcollected, List.isEmpty_iff]
  unfold Gather.check
  split
  · next hleave => exact ⟨hpending, hcollected, by rw [hcondition.mpr hleave]; rfl⟩
  · next hstay => exact ⟨hpending, hcollected, by rw [if_neg (hcondition.not.mpr hstay), hrunning]⟩

theorem start (entries : List Nat) (needed : Int) :
    (Gather.start entries needed : Gather Nat α).Refines (Waiting.start needed entries) :=
  check rfl rfl rfl

/-- Calls that all return leave the values of the successes. -/
theorem collectDone_returned (succeeds : Nat → Bool) (value : Nat → α) (tasks : List Nat)
    (collected : List α) :
    Gather.collectDone (tasks.map fun task => (task, gatheredCall succeeds value task)) collected =
      .ok (collected ++ (tasks.filter succeeds).map value) := by
  induction tasks generalizing collected with
  | nil => simp [Gather.collectDone]
  | cons task rest ih =>
      simp only [List.map_cons, gatheredCall, Gather.collectDone] at ih ⊢
      rw [ih]
      cases hsucceeds : succeeds task <;> simp [hsucceeds]

theorem step (hrefines : gather.Refines waiting) (succeeds : Nat → Bool) (value : Nat → α)
    (event : Delivery Nat) :
    Option.Rel (fun waiting gather => gather.Refines waiting)
      (Waiting.step needed succeeds waiting event)
      (gather.step needed (event.wake (gatheredCall succeeds value))) := by
  have hexit : gather.exit.isNone = !waiting.stopped := by
    rw [hrefines.exit]
    cases waiting.stopped <;> rfl
  cases event with
  | deadline =>
      simp only [Waiting.step, Gather.step, Delivery.wake, Wake.Allowed, hexit, and_true]
      cases waiting.stopped with
      | true => exact .none
      | false => exact .some hrefines.leave
  | done tasks =>
      have hguard : (gather.exit.isNone ∧
          (Delivery.wake (gatheredCall succeeds value) (.done tasks)).Allowed gather.pending) ↔
          waiting.stopped = false ∧ tasks ≠ [] ∧ tasks.Nodup ∧
            ∀ task ∈ tasks, task ∈ waiting.pending := by
        rw [hexit, Delivery.allowed_done, hrefines.pending]
        simp
      simp only [Waiting.step, Gather.step, hguard]
      split
      · next hdone =>
          refine .some ?_
          simp only [Delivery.wake, Gather.wake, collectDone_returned, Delivery.tasks_done]
          refine check (by rw [hrefines.pending]) ?_ (by simp [hrefines.exit, hdone.1])
          rw [List.length_append, List.length_map, ← List.countP_eq_length_filter,
            hrefines.collected]
      · exact .none

theorem run (calls : List Nat) (needed : Int) (succeeds : Nat → Bool) (value : Nat → α)
    (schedule : List (Delivery Nat)) :
    Option.Rel (fun waiting gather => gather.Refines waiting)
      (Runs.run (Waiting.step needed succeeds) (Waiting.start needed calls) schedule)
      (Runs.run (Gather.step needed) (Gather.start calls needed)
        (schedule.map (Delivery.wake (gatheredCall succeeds value)))) :=
  Runs.run_simulation _ _ (fun _ _ event hrefines => hrefines.step succeeds value event)
    (start calls needed) schedule

end Leaderless.Gather.Refines

end Gather

/-- A send of `replicate` that returns whether its follower acked. -/
def returnedSend (succeeds : Nat → Bool) (call : Nat) : Except PyError Bool := .ok (succeeds call)

/-- `replicate` has what the abstract loop has, and has left if that has stopped. -/
structure LeaderFollower.Replicate.Refines (waiting : Waiting Nat) (replicate : Replicate) :
    Prop where
  pending : replicate.pending = waiting.pending
  acked : replicate.acked = waiting.successes
  exit : replicate.exit = if waiting.stopped then some (.ok replicate.acked) else none

namespace LeaderFollower.Replicate.Refines

variable {waiting : Waiting Nat} {replicate : Replicate} {ackRequired : Int}

theorem leave (hrefines : replicate.Refines waiting) :
    replicate.leave.Refines { waiting with stopped := true } :=
  ⟨hrefines.pending, hrefines.acked, rfl⟩

theorem check (hpending : replicate.pending = waiting.pending)
    (hacked : replicate.acked = waiting.successes) (hrunning : replicate.exit = none) :
    (replicate.check ackRequired).Refines (waiting.check ackRequired) := by
  have hcondition : (waiting.check ackRequired).stopped = true ↔
      replicate.pending.isEmpty ∨ ackRequired ≤ replicate.acked := by
    rw [Waiting.stopped_check, hpending, hacked, List.isEmpty_iff]
  unfold Replicate.check
  split
  · next hleave => exact ⟨hpending, hacked, by rw [hcondition.mpr hleave]; rfl⟩
  · next hstay => exact ⟨hpending, hacked, by rw [if_neg (hcondition.not.mpr hstay), hrunning]⟩

theorem start (entries : List Nat) (ackRequired : Int) :
    (Replicate.start entries ackRequired).Refines (Waiting.start ackRequired entries) :=
  check rfl rfl rfl

theorem sumDone_returned (succeeds : Nat → Bool) (tasks : List Nat) :
    Replicate.sumDone (tasks.map fun task => (task, returnedSend succeeds task)) =
      .ok (tasks.countP succeeds) := by
  induction tasks with
  | nil => rfl
  | cons task rest ih =>
      simp only [List.map_cons, returnedSend, Replicate.sumDone] at ih ⊢
      rw [ih]
      cases hsucceeds : succeeds task <;> simp [hsucceeds, Except.map, Nat.add_comm]

theorem step (hrefines : replicate.Refines waiting) (succeeds : Nat → Bool)
    (event : Delivery Nat) :
    Option.Rel (fun waiting replicate => replicate.Refines waiting)
      (Waiting.step ackRequired succeeds waiting event)
      (replicate.step ackRequired (event.wake (returnedSend succeeds))) := by
  have hexit : replicate.exit.isNone = !waiting.stopped := by
    rw [hrefines.exit]
    cases waiting.stopped <;> rfl
  cases event with
  | deadline =>
      simp only [Waiting.step, Replicate.step, Delivery.wake, Wake.Allowed, hexit, and_true]
      cases waiting.stopped with
      | true => exact .none
      | false => exact .some hrefines.leave
  | done tasks =>
      have hguard : (replicate.exit.isNone ∧
          (Delivery.wake (returnedSend succeeds) (.done tasks)).Allowed replicate.pending) ↔
          waiting.stopped = false ∧ tasks ≠ [] ∧ tasks.Nodup ∧
            ∀ task ∈ tasks, task ∈ waiting.pending := by
        rw [hexit, Delivery.allowed_done, hrefines.pending]
        simp
      simp only [Waiting.step, Replicate.step, hguard]
      split
      · next hdone =>
          refine .some ?_
          simp only [Delivery.wake, Replicate.wake, sumDone_returned, Delivery.tasks_done]
          exact check (by rw [hrefines.pending]) (by rw [hrefines.acked])
            (by simp [hrefines.exit, hdone.1])
      · exact .none

theorem run (calls : List Nat) (ackRequired : Int) (succeeds : Nat → Bool)
    (schedule : List (Delivery Nat)) :
    Option.Rel (fun waiting replicate => replicate.Refines waiting)
      (Runs.run (Waiting.step ackRequired succeeds) (Waiting.start ackRequired calls) schedule)
      (Runs.run (Replicate.step ackRequired) (Replicate.start calls ackRequired)
        (schedule.map (Delivery.wake (returnedSend succeeds)))) :=
  Runs.run_simulation _ _ (fun _ _ event hrefines => hrefines.step succeeds event)
    (start calls ackRequired) schedule

end LeaderFollower.Replicate.Refines

/-- What a loop that waits for `needed` of its calls owes its caller after the wake-ups
of `schedule`: `exit` is the number it has returned, once it has. -/
structure WaitedFor (calls : Nat) (needed : Int) (succeeds : Nat → Bool)
    (schedule : List (Delivery Nat)) (exit : Option (Except PyError Nat)) : Prop where
  wakes_le : schedule.length ≤ calls
  ends : schedule.length = calls → exit ≠ none
  /-- Before each wake-up something was left to wait for, and too little was in. -/
  waited : ∀ before event after, schedule = before ++ event :: after →
    .deadline ∉ before ∧ (∃ call < calls, call ∉ delivered before) ∧
      (((delivered before).countP succeeds : Nat) : Int) < needed
  stops : (.deadline ∈ schedule ∨ (∀ call < calls, call ∈ delivered schedule) ∨
      needed ≤ (delivered schedule).countP succeeds) →
    exit = some (.ok ((delivered schedule).countP succeeds))
  short : ∀ number : Nat, exit = some (.ok number) → (number : Int) < needed →
    .deadline ∈ schedule ∨ ∀ call < calls, call ∈ delivered schedule
  waits : ¬ (.deadline ∈ schedule ∨ (∀ call < calls, call ∈ delivered schedule) ∨
      needed ≤ (delivered schedule).countP succeeds) → exit = none

/-- What the abstract loop accounts for, said of the loop that refines it. -/
theorem WaitedFor.of_run {calls : Nat} {needed : Int} {succeeds : Nat → Bool}
    {schedule : List (Delivery Nat)} {waiting : Waiting Nat}
    (hrun : Runs.run (Waiting.step needed succeeds) (Waiting.start needed (List.range calls))
      schedule = some waiting) {exit : Option (Except PyError Nat)}
    (hexit : exit = if waiting.stopped then some (.ok waiting.successes) else none) :
    WaitedFor calls needed succeeds schedule exit := by
  have hnodup : (List.range calls).Nodup := List.nodup_range
  have haccounts := Waiting.run_accounts hnodup hrun
  have hempty : waiting.pending = [] ↔ ∀ call < calls, call ∈ delivered schedule := by
    rw [List.eq_nil_iff_forall_not_mem]
    apply forall_congr'
    intro call
    rw [haccounts.mem_pending, List.mem_range, not_and, not_not]
  have hstopped := haccounts.stopped_iff
  rw [hempty, haccounts.successes_eq] at hstopped
  have hwakes := Waiting.length_le_of_run hnodup hrun
  rw [List.length_range] at hwakes
  rw [haccounts.successes_eq] at hexit
  refine ⟨hwakes, ?_, ?_, ?_, ?_, ?_⟩
  · intro hall
    have hended : waiting.stopped = true := by
      have hleft := haccounts.wakes_le
      rw [List.length_range] at hleft
      split at hleft
      · next hdeadline => exact hstopped.mpr (Or.inl hdeadline)
      · exact haccounts.stopped_iff.mpr (Or.inr (Or.inl (List.length_eq_zero_iff.mp (by omega))))
    simp [hexit, hended]
  · rintro before event after rfl
    obtain ⟨hdeadline, ⟨call, hcall, hopen⟩, hshort⟩ := Waiting.waiting_before hnodup hrun
    exact ⟨hdeadline, ⟨call, List.mem_range.mp hcall, hopen⟩, hshort⟩
  · intro hdone
    rw [hexit, if_pos (hstopped.mpr hdone)]
  · intro number hnumber hbelow
    rw [hexit] at hnumber
    split at hnumber
    · next hended =>
        obtain rfl := Except.ok.inj (Option.some.inj hnumber)
        rcases hstopped.mp hended with hdeadline | hall | henough
        · exact Or.inl hdeadline
        · exact Or.inr hall
        · omega
    · cases hnumber
  · intro hopen
    rw [hexit, if_neg (hstopped.not.mpr hopen)]

/-- A PUT of a coordinator with these peers is answered 503 in this schedule. -/
def Leaderless.CoordinatorFails (config : Leaderless.ClusterConfig) (peers : List Nat)
    (wRequired : Int) (localApplied : Bool) (timestamp : PyFloat) (succeeds : Nat → Bool)
    (schedule : List (Delivery Nat)) : Prop :=
  ∃ gather collected,
    Runs.run (Gather.step (wRequired - 1)) (replicateWrite peers (wRequired - 1))
      (schedule.map (Delivery.wake (gatheredCall succeeds fun _ => ()))) = some gather ∧
    gather.exit = some (.ok collected) ∧
    ∃ detail, Leaderless.putAnswer config wRequired localApplied timestamp collected.length =
      .error ⟨503, detail⟩

/-- A PUT of a leader with these followers is answered 503 in this schedule. -/
def LeaderFollower.LeaderFails (config : LeaderFollower.ClusterConfig) (entries : List Nat)
    (ackRequired : Int) (localApplied : Bool) (timestamp : PyFloat) (succeeds : Nat → Bool)
    (schedule : List (Delivery Nat)) : Prop :=
  ∃ replicate acked,
    Runs.run (Replicate.step ackRequired) (Replicate.start entries ackRequired)
      (schedule.map (Delivery.wake (returnedSend succeeds))) = some replicate ∧
    replicate.exit = some (.ok acked) ∧
    ∃ detail, LeaderFollower.putAnswer config ackRequired localApplied timestamp acked =
      .error ⟨503, detail⟩

theorem Leaderless.putAnswer_eq_503 {config : Leaderless.ClusterConfig} {wRequired : Int}
    {localApplied : Bool} {timestamp : PyFloat} {peerAcked : Nat} :
    (∃ detail, Leaderless.putAnswer config wRequired localApplied timestamp peerAcked =
      .error ⟨503, detail⟩) ↔ 1 + (peerAcked : Int) < wRequired := by
  unfold Leaderless.putAnswer
  push_cast
  split
  · next hshort => simpa using hshort
  · next henough => simpa using henough

theorem LeaderFollower.putAnswer_eq_503 {config : LeaderFollower.ClusterConfig}
    {ackRequired : Int} {localApplied : Bool} {timestamp : PyFloat} {acked : Nat} :
    (∃ detail, LeaderFollower.putAnswer config ackRequired localApplied timestamp acked =
      .error ⟨503, detail⟩) ↔ (acked : Int) < ackRequired := by
  unfold LeaderFollower.putAnswer
  split
  · next hshort => simpa using hshort
  · next henough => simpa using henough

/-- Both loops refine the abstract one over the same wake-ups. -/
theorem loops_refine {α : Type} (calls : List Nat) (needed : Int) (succeeds : Nat → Bool)
    (value : Nat → α) (schedule : List (Delivery Nat)) :
    Option.Rel (fun (gather : Gather Nat α) replicate => ∃ waiting,
        Runs.run (Waiting.step needed succeeds) (Waiting.start needed calls) schedule =
          some waiting ∧ gather.Refines waiting ∧ replicate.Refines waiting)
      (Runs.run (Gather.step needed) (Gather.start calls needed)
        (schedule.map (Delivery.wake (gatheredCall succeeds value))))
      (Runs.run (Replicate.step needed) (Replicate.start calls needed)
        (schedule.map (Delivery.wake (returnedSend succeeds)))) := by
  exact Runs.rel_both (Gather.Refines.run calls needed succeeds value schedule)
    (Replicate.Refines.run calls needed succeeds schedule)

/-- Loops that refine the same abstract one return the same number. -/
theorem exit_eq_of_refines {α : Type} {gather : Gather Nat α} {replicate : Replicate}
    {waiting : Waiting Nat} (hgather : gather.Refines waiting)
    (hreplicate : replicate.Refines waiting) :
    gather.exit.map (Except.map List.length) = replicate.exit := by
  rw [hgather.exit, hreplicate.exit, hreplicate.acked, ← hgather.collected]
  cases waiting.stopped <;> rfl

/-- Loops that return the same number return a number of some kind in the same runs. -/
theorem returns_alike {α : Type} {gathered : Option (Gather Nat α)}
    {replicated : Option Replicate}
    (hsame : Option.Rel (fun gather replicate =>
      gather.exit.map (Except.map List.length) = replicate.exit) gathered replicated)
    (kind : Nat → Prop) :
    (∃ gather collected, gathered = some gather ∧ gather.exit = some (.ok collected) ∧
        kind collected.length) ↔
      ∃ replicate acked, replicated = some replicate ∧ replicate.exit = some (.ok acked) ∧
        kind acked := by
  cases hsame with
  | none =>
      constructor
      · rintro ⟨_, _, hgathered, _⟩
        cases hgathered
      · rintro ⟨_, _, hreplicated, _⟩
        cases hreplicated
  | @some gather replicate hexit =>
      constructor
      · rintro ⟨_, collected, hgathered, hreturned, hkind⟩
        obtain rfl := Option.some.inj hgathered
        exact ⟨replicate, collected.length, rfl, by rw [← hexit, hreturned]; rfl, hkind⟩
      · rintro ⟨_, acked, hreplicated, hreturned, hkind⟩
        obtain rfl := Option.some.inj hreplicated
        rw [hreturned] at hexit
        obtain ⟨outcome, houtcome, hlength⟩ := Option.map_eq_some_iff.mp hexit
        cases outcome with
        | error error => cases hlength
        | ok collected =>
            obtain rfl : collected.length = acked := Except.ok.inj hlength
            exact ⟨gather, collected, rfl, houtcome, hkind⟩

/-- Over calls that all return the loops return the same number in the same schedules:
that of the successes delivered when they stop, which they do at the first wake-up at
which enough are in, nothing is left, or the deadline has passed. So a coordinator that
needs one node more than a leader needs followers fails its write in the same schedules. -/
theorem wait_loops_agree {α : Type} (calls : Nat) (needed : Int) (succeeds : Nat → Bool)
    (value : Nat → α) (schedule : List (Delivery Nat)) :
    Option.Rel (fun (gather : Gather Nat α) replicate =>
        gather.exit.map (Except.map List.length) = replicate.exit ∧
          WaitedFor calls needed succeeds schedule replicate.exit)
      (Runs.run (Gather.step needed) (Gather.start (List.range calls) needed)
        (schedule.map (Delivery.wake (gatheredCall succeeds value))))
      (Runs.run (Replicate.step needed) (Replicate.start (List.range calls) needed)
        (schedule.map (Delivery.wake (returnedSend succeeds)))) ∧
    ∀ (quorumConfig : Leaderless.ClusterConfig) (leaderConfig : LeaderFollower.ClusterConfig)
      (coordinatorApplied leaderApplied : Bool) (coordinatorTime leaderTime : PyFloat),
      CoordinatorFails quorumConfig (List.range calls) (needed + 1) coordinatorApplied
          coordinatorTime succeeds schedule ↔
        LeaderFails leaderConfig (List.range calls) needed leaderApplied leaderTime succeeds
          schedule := by
  constructor
  · apply Runs.rel_mono ?_ (loops_refine (List.range calls) needed succeeds value schedule)
    rintro gather replicate ⟨waiting, hrun, hgather, hreplicate⟩
    refine ⟨exit_eq_of_refines hgather hreplicate, WaitedFor.of_run hrun ?_⟩
    rw [hreplicate.exit, hreplicate.acked]
  · intro quorumConfig leaderConfig coordinatorApplied leaderApplied coordinatorTime leaderTime
    have hsame := Runs.rel_mono (fun gather replicate hboth => by
        obtain ⟨waiting, _, hgather, hreplicate⟩ := hboth
        exact exit_eq_of_refines hgather hreplicate)
      (loops_refine (List.range calls) needed succeeds (fun _ => ()) schedule)
    have halike := returns_alike hsame fun number => (number : Int) < needed
    have hone : ∀ number : Nat, 1 + (number : Int) < needed + 1 ↔ (number : Int) < needed := by
      intro number
      omega
    unfold CoordinatorFails LeaderFails replicateWrite
    simpa only [Leaderless.putAnswer_eq_503, LeaderFollower.putAnswer_eq_503,
      Int.add_sub_cancel, hone] using halike

end KvReplication
