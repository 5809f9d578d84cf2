import KvReplication.Experiments.Accounting
import KvReplication.Experiments.RequestPlans

/-! # Every decision of a plan has its own source

The mix of reads and writes, the keys and the targets are drawn from three generators,
so each of them is the same in all plans of a seed, whatever is asked of the others.
Split among workers, a plan fixes what each of them asks for and in what order; the
course of the test changes nothing about that.
-/

namespace KvReplication.Experiments

open Draws

variable {random : PyRandom} {seed : Int}

/-! ### One concern at a time -/

section Concerns

variable {start planning other : Planning random} {keys otherKeys : List String}
  {numReadTargets otherTargets : Int} {readFraction otherFraction : PyFloat}
  {turns otherTurns place : Nat} {item otherItem : RequestPlan}

namespace Planning.Drawn

theorem length_eq (hdrawn : planning.Drawn keys numReadTargets readFraction start turns) :
    planning.plan.length = turns := by
  have hlength := congrArg List.length hdrawn.isReads
  rwa [List.length_map, List.length_map, Stream'.length_take] at hlength

theorem map_key_eq (hdrawn : planning.Drawn keys numReadTargets readFraction start turns)
    (hother : other.Drawn keys otherTargets otherFraction start turns) :
    planning.plan.map RequestPlan.key = other.plan.map RequestPlan.key := by
  have hsome : (planning.plan.map RequestPlan.key).map some =
      (other.plan.map RequestPlan.key).map some := by
    rw [List.map_map, List.map_map]
    exact hdrawn.chosen.trans hother.chosen.symm
  exact List.map_injective_iff.mpr (Option.some_injective _) hsome

/-- Whether a request is a read is for the number of its turn to say. -/
theorem isRead_eq (hdrawn : planning.Drawn keys numReadTargets readFraction start turns)
    (hitem : planning.plan[place]? = some item) :
    item.isRead = drawsRead readFraction ((stream random.random start.mixRng).get place) := by
  have hflag : (planning.plan.map RequestPlan.isRead)[place]? = some item.isRead := by
    rw [List.getElem?_map, hitem, Option.map_some]
  rw [hdrawn.isReads, List.getElem?_map] at hflag
  obtain ⟨number, hnumber, hread⟩ := Option.map_eq_some_iff.mp hflag
  have hplace : place < turns := by
    obtain ⟨hlength, -⟩ := List.getElem?_eq_some_iff.mp hnumber
    rwa [Stream'.length_take] at hlength
  rw [Stream'.getElem?_take hplace] at hnumber
  rw [← hread, Option.some.inj hnumber]

/-- The reads of a plan go to the targets in the order these are drawn. -/
theorem readTargetIndex_eq (hdrawn : planning.Drawn keys numReadTargets readFraction start turns)
    (hitem : (planning.plan.filter RequestPlan.isRead)[place]? = some item) :
    item.readTargetIndex =
      some ((stream (random.randbelow numReadTargets.toNat) start.targetRng).get place) := by
  have htarget : ((planning.plan.filter RequestPlan.isRead).map
      RequestPlan.readTargetIndex)[place]? = some item.readTargetIndex := by
    rw [List.getElem?_map, hitem, Option.map_some]
  have hplace : place < (planning.plan.filter RequestPlan.isRead).length :=
    (List.getElem?_eq_some_iff.mp hitem).choose
  rw [map_filter_of_deal hdrawn.targets, List.getElem?_map, Stream'.getElem?_take hplace,
    Option.map_some] at htarget
  exact (Option.some.inj htarget).symm

end Planning.Drawn

/-- A number below a fraction is below a larger one. -/
theorem drawsRead_mono
    (hraised : otherFraction = readFraction ∨ otherFraction.gt readFraction = true)
    {number : UnitNumber} (hread : drawsRead readFraction number = true) :
    drawsRead otherFraction number = true := by
  rcases hraised with rfl | hgt
  · exact hread
  · exact PyFloat.gt_trans hgt hread

end Concerns

theorem PyRandom.get_stream_lt (random : PyRandom) {stop : Int} (hstop : 0 < stop)
    (rng : random.State) (place : Nat) :
    ((stream (random.randbelow stop.toNat) rng).get place : Int) < stop := by
  obtain ⟨later, hdraw⟩ := exists_draw (random.randbelow stop.toNat) rng place
  have hbelow := random.randbelow_lt stop.toNat later (by omega)
  omega

/-- The three generators at the start depend on the seed only. -/
theorem exists_start (random : PyRandom) (seed : Int) :
    ∃ start : Planning random, start.plan = [] ∧
      ∀ totalRequests keys numReadTargets readFraction,
        generateRequestPlan random totalRequests keys numReadTargets readFraction seed =
          (planRequests random keys numReadTargets readFraction start totalRequests.toNat).map
            Planning.plan :=
  ⟨⟨_, _, _, []⟩, rfl, fun _ _ _ _ => rfl⟩

theorem map_plan_eq_ok {planned : Except PlanError (Planning random)} {plan : List RequestPlan}
    (hplan : planned.map Planning.plan = .ok plan) :
    ∃ planning, planned = .ok planning ∧ planning.plan = plan := by
  cases planned with
  | error failure => cases hplan
  | ok planning => exact ⟨planning, rfl, Except.ok.inj hplan⟩

/-- What the plans of one seed have in common: each is drawn from the same three streams. -/
theorem exists_drawn (random : PyRandom) (seed : Int) :
    ∃ start : Planning random, ∀ totalRequests keys numReadTargets readFraction plan,
      generateRequestPlan random totalRequests keys numReadTargets readFraction seed = .ok plan →
      ∃ planning : Planning random, planning.plan = plan ∧
        planning.Drawn keys numReadTargets readFraction start totalRequests.toNat := by
  obtain ⟨start, hstart, hgenerate⟩ := exists_start random seed
  refine ⟨start, fun totalRequests keys numReadTargets readFraction plan hplan => ?_⟩
  rw [hgenerate] at hplan
  obtain ⟨planning, hplanned, hrest⟩ := map_plan_eq_ok hplan
  exact ⟨planning, hrest, Planning.Drawn.run hstart hplanned⟩

/-- A plan of fewer requests is a prefix of one of more. -/
theorem generateRequestPlan_prefix {keys : List String} {numReadTargets : Int}
    {readFraction : PyFloat} {fewer more : Int} {plan : List RequestPlan} (hle : fewer ≤ more)
    (hplan : generateRequestPlan random more keys numReadTargets readFraction seed = .ok plan) :
    ∃ shorter,
      generateRequestPlan random fewer keys numReadTargets readFraction seed = .ok shorter ∧
      shorter <+: plan := by
  obtain ⟨start, -, hgenerate⟩ := exists_start random seed
  rw [hgenerate] at hplan
  obtain ⟨planning, hplanned, rfl⟩ := map_plan_eq_ok hplan
  obtain ⟨shorter, hshorter, hprefix⟩ := planRequests_prefix (Int.toNat_le_toNat hle) hplanned
  refine ⟨shorter.plan, ?_, hprefix⟩
  rw [hgenerate, hshorter]
  rfl

/-! ### The requests of a worker -/

/-- The request that a worker takes up after `place` others. -/
def requestOf (plan : List RequestPlan) (numWorkers worker place : Nat) : Option RequestPlan :=
  ((splitPlan plan numWorkers)[worker]?).bind (·[place]?)

/-- The place in a plan of that request. -/
def requestPlace (totalRequests numWorkers worker place : Nat) : Option Nat :=
  if worker < numWorkers ∧
      place < totalRequests / numWorkers + (if worker < totalRequests % numWorkers then 1 else 0)
  then
    some (worker * (totalRequests / numWorkers) + min worker (totalRequests % numWorkers) + place)
  else none

theorem requestOf_eq (plan : List RequestPlan) (numWorkers worker place : Nat) :
    requestOf plan numWorkers worker place =
      (requestPlace plan.length numWorkers worker place).bind (plan[·]?) := by
  by_cases hworker : worker < numWorkers
  · rw [requestOf, getElem?_splitPlan hworker, Option.bind_some, workerChunk, List.getElem?_take,
      List.getElem?_drop]
    by_cases hplace : place < chunkSize plan numWorkers worker
    · rw [if_pos hplace, requestPlace, if_pos ⟨hworker, hplace⟩]
      rfl
    · rw [if_neg hplace, requestPlace, if_neg (fun hboth => hplace hboth.2)]
      rfl
  · have hnone : (splitPlan plan numWorkers)[worker]? = none := by
      rw [splitPlan_eq, List.getElem?_eq_none]
      simpa using hworker
    rw [requestOf, hnone, requestPlace, if_neg (fun hboth => hworker hboth.1)]
    rfl

/-- What is left to every worker are its requests behind those it has counted. -/
def Harness.FollowsPlan (plan : List RequestPlan) (numWorkers : Nat) (harness : Harness) : Prop :=
  ∀ worker view, harness.workers[worker]? = some view → ∀ place,
    view.planChunk[place]? = requestOf plan numWorkers worker (view.stats.totalRequests + place)

theorem View.Balanced.planChunk_eq {chunk : List RequestPlan} {view : View}
    (hbalanced : view.Balanced chunk) : view.planChunk = chunk.drop view.stats.totalRequests := by
  obtain ⟨taken, rfl, hstats⟩ := hbalanced
  rw [hstats.requests, List.drop_left]

theorem Harness.Balanced.followsPlan {plan : List RequestPlan} {numWorkers : Nat}
    {harness : Harness} (hbalanced : harness.Balanced plan numWorkers) :
    harness.FollowsPlan plan numWorkers := by
  intro worker view hview place
  obtain ⟨chunk, hchunk, hview⟩ := Records.entry_of_forall₂ hbalanced hview
  rw [requestOf, hchunk, Option.bind_some, hview.planChunk_eq, List.getElem?_drop]

/-- In every run of either test the workers follow the plan. -/
theorem followsPlan_run (V : Type) (plan : List RequestPlan) (numWorkers : Nat) :
    (∀ (test : StalenessLoadTest) actions final,
      Runs.run (test.step (V := V)) (StalenessLoadTest.start plan numWorkers) actions =
        some final →
      (StalenessLoadTest.harness final).FollowsPlan plan numWorkers) ∧
    ∀ (test : LeaderlessLoadTest) actions final,
      Runs.run (test.step (V := V)) (LeaderlessLoadTest.start plan numWorkers) actions =
        some final →
      (LeaderlessLoadTest.harness final).FollowsPlan plan numWorkers := by
  constructor
  · intro test actions final hrun
    exact (StalenessLoadTest.harness_run (Harness.Balanced.keeps V plan numWorkers)
      (Harness.Balanced.start plan numWorkers) hrun).followsPlan
  · intro test actions final hrun
    exact (LeaderlessLoadTest.harness_run (Harness.Balanced.keeps V plan numWorkers)
      (Harness.Balanced.start plan numWorkers) hrun).followsPlan

/-- The decisions of a plan are isolated per concern. For one seed: a plan of fewer requests is a
prefix; the keys do not depend on the mix and the targets; a read stays one when the read
fraction is raised; the targets of the reads depend on their number alone; and every worker takes
up requests from places fixed by the numbers of requests and workers, in every run. -/
theorem plan_decisions_isolated (random : PyRandom) (seed : Int) (V : Type) :
    (∀ keys numReadTargets readFraction fewer more plan, fewer ≤ more →
      generateRequestPlan random more keys numReadTargets readFraction seed = .ok plan →
      ∃ shorter,
        generateRequestPlan random fewer keys numReadTargets readFraction seed = .ok shorter ∧
        shorter <+: plan) ∧
    (∀ totalRequests keys numReadTargets otherTargets readFraction otherFraction plan other,
      generateRequestPlan random totalRequests keys numReadTargets readFraction seed = .ok plan →
      generateRequestPlan random totalRequests keys otherTargets otherFraction seed = .ok other →
      plan.map RequestPlan.key = other.map RequestPlan.key) ∧
    (∀ totalRequests otherRequests keys otherKeys numReadTargets otherTargets readFraction
        raisedFraction plan raised,
      generateRequestPlan random totalRequests keys numReadTargets readFraction seed = .ok plan →
      generateRequestPlan random otherRequests otherKeys otherTargets raisedFraction seed =
        .ok raised →
      raisedFraction = readFraction ∨ raisedFraction.gt readFraction = true →
      ∀ (place : Nat) item raisedItem, plan[place]? = some item → raised[place]? = some raisedItem →
        item.isRead = true → raisedItem.isRead = true) ∧
    (∀ numReadTargets, ∃ target : Nat → Nat, ∀ totalRequests keys readFraction plan,
      generateRequestPlan random totalRequests keys numReadTargets readFraction seed = .ok plan →
      ∀ (place : Nat) item, (plan.filter RequestPlan.isRead)[place]? = some item →
        item.readTargetIndex = some (target place) ∧ (target place : Int) < numReadTargets) ∧
    ∀ totalRequests numWorkers, ∃ position : Nat → Nat → Option Nat,
      ∀ keys numReadTargets readFraction plan,
      generateRequestPlan random totalRequests keys numReadTargets readFraction seed = .ok plan →
      (∀ worker place,
        requestOf plan numWorkers worker place = (position worker place).bind (plan[·]?)) ∧
      (∀ (test : StalenessLoadTest) actions final,
        Runs.run (test.step (V := V)) (StalenessLoadTest.start plan numWorkers) actions =
          some final →
        (StalenessLoadTest.harness final).FollowsPlan plan numWorkers) ∧
      ∀ (test : LeaderlessLoadTest) actions final,
        Runs.run (test.step (V := V)) (LeaderlessLoadTest.start plan numWorkers) actions =
          some final →
        (LeaderlessLoadTest.harness final).FollowsPlan plan numWorkers := by
  obtain ⟨start, hdrawn⟩ := exists_drawn random seed
  refine ⟨fun keys numReadTargets readFraction fewer more plan hle hplan => ?_, ?_, ?_, ?_, ?_⟩
  · exact generateRequestPlan_prefix hle hplan
  · intro totalRequests keys numReadTargets otherTargets readFraction otherFraction plan other
      hplan hother
    obtain ⟨planning, rfl, hplanning⟩ := hdrawn _ _ _ _ _ hplan
    obtain ⟨otherPlanning, rfl, hotherPlanning⟩ := hdrawn _ _ _ _ _ hother
    exact hplanning.map_key_eq hotherPlanning
  · intro totalRequests otherRequests keys otherKeys numReadTargets otherTargets readFraction
      raisedFraction plan raised hplan hraised hfraction place item raisedItem hitem hraisedItem
      hread
    obtain ⟨planning, rfl, hplanning⟩ := hdrawn _ _ _ _ _ hplan
    obtain ⟨raisedPlanning, rfl, hraisedPlanning⟩ := hdrawn _ _ _ _ _ hraised
    rw [hplanning.isRead_eq hitem] at hread
    rw [hraisedPlanning.isRead_eq hraisedItem]
    exact drawsRead_mono hfraction hread
  · intro numReadTargets
    refine ⟨(stream (random.randbelow numReadTargets.toNat) start.targetRng).get, ?_⟩
    intro totalRequests keys readFraction plan hplan place item hitem
    obtain ⟨planning, rfl, hplanning⟩ := hdrawn _ _ _ _ _ hplan
    refine ⟨hplanning.readTargetIndex_eq hitem, ?_⟩
    obtain ⟨hmem, hread⟩ := List.mem_filter.mp (List.mem_of_getElem? hitem)
    exact random.get_stream_lt (hplanning.positive ⟨item, hmem, hread⟩) start.targetRng place
  · intro totalRequests numWorkers
    refine ⟨requestPlace totalRequests.toNat numWorkers, ?_⟩
    intro keys numReadTargets readFraction plan hplan
    obtain ⟨planning, rfl, hplanning⟩ := hdrawn _ _ _ _ _ hplan
    refine ⟨fun worker place => ?_, followsPlan_run V planning.plan numWorkers⟩
    rw [← hplanning.length_eq]
    exact requestOf_eq planning.plan numWorkers worker place

/-- What CPython draws for the seed 42, as far as two requests between two keys need it. -/
def drawsOfSeed42 : PyRandom where
  State := Int × Nat
  ofSeed seed := (seed, 0)
  getrandbits _ rng :=
    (match rng.2 with
      | 0 => 2053695854357871005
      | 1 => 13679192365072849617
      | _ => 4517457392071889495, (rng.1, rng.2 + 1))
  random rng :=
    (if rng.2 = 0 then ⟨589109127984549 / 4503599627370496, by norm_num⟩
      else ⟨1041568872954053 / 9007199254740992, by norm_num⟩, (rng.1, rng.2 + 1))
  -- the target generator gives 1 first, the key generator 0 and then 1
  randbelow bound rng :=
    ((if rng.1 = 4517457392071889495 then 1 else rng.2) % bound, (rng.1, rng.2 + 1))
  randbelow_lt _ _ hbound := Nat.mod_lt _ hbound

/-- A write and a read of the seed 42, and what is left of that plan for a single request. -/
theorem seed_42_plan_isolated :
    ∃ shorter,
      generateRequestPlan drawsOfSeed42 1 ["a", "b"] 3 (.finite (1 / 8)) 42 = .ok shorter ∧
      shorter <+: [⟨false, "a", none⟩, ⟨true, "b", some 1⟩] :=
  (plan_decisions_isolated drawsOfSeed42 42 Unit).1 ["a", "b"] 3 (.finite (1 / 8)) 1 2 _
    (by decide) (by decide +kernel)

end KvReplication.Experiments
