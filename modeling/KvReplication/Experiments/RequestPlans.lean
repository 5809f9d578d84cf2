import KvReplication.Common.Config
import KvReplication.Experiments.LoadTest
import KvReplication.Foundation.Draws

/-! # Planning the requests of a load test

`generate_request_plan` draws every request's decisions before the test starts, from
three generators of their own: one for the mix of reads and writes, one for the keys
and one for the targets of reads, which only reads draw from.
-/

namespace KvReplication.Experiments

open Draws

/-- What `random()` gives: a number from 0 up to but not including 1. -/
abbrev UnitNumber := { number : ℚ // 0 ≤ number ∧ number < 1 }

/-- The class `random.Random`: how a seed makes an instance, and what its methods draw and
leave of it. `randbelow` is the draw behind `choice` and `randrange`. -/
structure PyRandom where
  State : Type
  ofSeed : Int → State
  getrandbits : Nat → State → Nat × State
  random : State → UnitNumber × State
  randbelow : Nat → State → Nat × State
  randbelow_lt : ∀ bound state, 0 < bound → (randbelow bound state).1 < bound

/-- What planning can raise. -/
inductive PlanError where
  /-- `choice` of an empty sequence. -/
  | indexError
  /-- `randrange` of an empty range, or seeds that do not match their names. -/
  | valueError
deriving DecidableEq

namespace PyRandom

variable (random : PyRandom)

def choice {α : Type} (sequence : List α) (rng : random.State) :
    Except PlanError (α × random.State) :=
  if hsequence : 0 < sequence.length then
    let draw := random.randbelow sequence.length rng
    .ok (sequence.get ⟨draw.1, random.randbelow_lt _ _ hsequence⟩, draw.2)
  else .error .indexError

def randrange (stop : Int) (rng : random.State) : Except PlanError (Nat × random.State) :=
  if 0 < stop then .ok (random.randbelow stop.toNat rng) else .error .valueError

/-- `deriver.getrandbits(64)`, `count` times. -/
def getrandbits64 : Nat → random.State → List Nat
  | 0, _ => []
  | count + 1, deriver =>
      let draw := random.getrandbits 64 deriver
      draw.1 :: getrandbits64 count draw.2

/-- `_derive_seeds`. -/
def deriveSeeds (seed : Int) (count : Nat) : List Nat :=
  random.getrandbits64 count (random.ofSeed seed)

end PyRandom

/-- The three generators, and the plan so far. -/
structure Planning (random : PyRandom) where
  mixRng : random.State
  keyRng : random.State
  targetRng : random.State
  plan : List RequestPlan

variable (random : PyRandom) (keys : List String) (numReadTargets : Int) (readFraction : PyFloat)

/-- `mix_rng.random() < read_fraction`. -/
def drawsRead (readFraction : PyFloat) (number : UnitNumber) : Bool :=
  readFraction.gt (.finite number.val)

/-- `target_rng.randrange(num_read_targets) if is_read else None`. -/
def drawTarget (isRead : Bool) (targetRng : random.State) :
    Except PlanError (Option Nat × random.State) :=
  if isRead then
    (random.randrange numReadTargets targetRng).map fun draw => (some draw.1, draw.2)
  else .ok (none, targetRng)

/-- One turn of the loop: the decisions of one request. -/
def planRequest (planning : Planning random) : Except PlanError (Planning random) := do
  let mixDraw := random.random planning.mixRng
  let isRead := drawsRead readFraction mixDraw.1
  let keyDraw ← random.choice keys planning.keyRng
  let targetDraw ← drawTarget random numReadTargets isRead planning.targetRng
  return ⟨mixDraw.2, keyDraw.2, targetDraw.2,
    planning.plan ++ [⟨isRead, keyDraw.1, targetDraw.1⟩]⟩

/-- The loop over `range(total_requests)`. -/
def planRequests (start : Planning random) (totalRequests : Nat) :
    Except PlanError (Planning random) :=
  (List.range totalRequests).foldlM
    (fun planning _ => planRequest random keys numReadTargets readFraction planning) start

/-- `generate_request_plan`. The range of a negative number is empty. -/
def generateRequestPlan (totalRequests : Int) (keys : List String) (numReadTargets : Int)
    (readFraction : PyFloat) (seed : Int) : Except PlanError (List RequestPlan) :=
  match random.deriveSeeds seed 3 with
  | [mixSeed, keySeed, targetSeed] =>
      (planRequests random keys numReadTargets readFraction
        ⟨random.ofSeed mixSeed, random.ofSeed keySeed, random.ofSeed targetSeed, []⟩
        totalRequests.toNat).map Planning.plan
  | _ => .error .valueError

/-! ### What a turn draws -/

section Turn

variable {random keys numReadTargets readFraction} {planning next : Planning random}

theorem choice_eq_ok {α : Type} {sequence : List α} {rng rest : random.State} {chosen : α}
    (hchoice : random.choice sequence rng = .ok (chosen, rest)) :
    sequence[(random.randbelow sequence.length rng).1]? = some chosen ∧
      rest = (random.randbelow sequence.length rng).2 := by
  unfold PyRandom.choice at hchoice
  split at hchoice
  · cases hchoice
    exact ⟨List.getElem?_eq_getElem _, rfl⟩
  · cases hchoice

theorem drawTarget_eq_ok {isRead : Bool} {targetRng rest : random.State}
    {readTargetIndex : Option Nat}
    (htarget : drawTarget random numReadTargets isRead targetRng = .ok (readTargetIndex, rest)) :
    if isRead then
      0 < numReadTargets ∧
        readTargetIndex = some (random.randbelow numReadTargets.toNat targetRng).1 ∧
        rest = (random.randbelow numReadTargets.toNat targetRng).2
    else readTargetIndex = none ∧ rest = targetRng := by
  cases isRead with
  | true =>
      rw [drawTarget, if_pos rfl, PyRandom.randrange] at htarget
      split at htarget
      · next hpositive =>
          cases htarget
          exact ⟨hpositive, rfl, rfl⟩
      · cases htarget
  | false =>
      cases htarget
      exact ⟨rfl, rfl⟩

/-- A turn that returns has added one request to the plan. -/
theorem planRequest_eq_ok
    (hnext : planRequest random keys numReadTargets readFraction planning = .ok next) :
    ∃ item : RequestPlan, next.plan = planning.plan ++ [item] ∧
      item.isRead = drawsRead readFraction (random.random planning.mixRng).1 ∧
      next.mixRng = (random.random planning.mixRng).2 ∧
      random.choice keys planning.keyRng = .ok (item.key, next.keyRng) ∧
      drawTarget random numReadTargets item.isRead planning.targetRng =
        .ok (item.readTargetIndex, next.targetRng) := by
  simp only [planRequest, bind_eq_ok] at hnext
  obtain ⟨keyDraw, hkey, targetDraw, htarget, hreturn⟩ := hnext
  obtain rfl := Except.ok.inj hreturn
  exact ⟨_, rfl, rfl, rfl, hkey, htarget⟩

end Turn

/-! ### What the loop has drawn -/

/-- After some turns the plan holds the first numbers of the mix, the first keys, and for its
reads the first targets; and each generator stands behind what was drawn from it. -/
structure Planning.Drawn {random : PyRandom} (planning : Planning random) (keys : List String)
    (numReadTargets : Int) (readFraction : PyFloat) (start : Planning random) (turns : Nat) :
    Prop where
  isReads : planning.plan.map RequestPlan.isRead =
    ((stream random.random start.mixRng).take turns).map (drawsRead readFraction)
  chosen : planning.plan.map (fun item => some item.key) =
    ((stream (random.randbelow keys.length) start.keyRng).take turns).map (keys[·]?)
  targets : planning.plan.map RequestPlan.readTargetIndex =
    deal (planning.plan.map RequestPlan.isRead)
      (stream (random.randbelow numReadTargets.toNat) start.targetRng)
  mixRng : stream random.random planning.mixRng =
    (stream random.random start.mixRng).drop turns
  keyRng : stream (random.randbelow keys.length) planning.keyRng =
    (stream (random.randbelow keys.length) start.keyRng).drop turns
  targetRng : stream (random.randbelow numReadTargets.toNat) planning.targetRng =
    (stream (random.randbelow numReadTargets.toNat) start.targetRng).drop
      ((planning.plan.map RequestPlan.isRead).count true)
  positive : (∃ item ∈ planning.plan, item.isRead = true) → 0 < numReadTargets

section Loop

variable {random keys numReadTargets readFraction} {start planning next : Planning random}
  {turns : Nat}

theorem planRequests_succ :
    planRequests random keys numReadTargets readFraction start (turns + 1) = .ok next ↔
      ∃ planning, planRequests random keys numReadTargets readFraction start turns = .ok planning ∧
        planRequest random keys numReadTargets readFraction planning = .ok next := by
  rw [planRequests, List.range_succ, List.foldlM_append, bind_eq_ok]
  simp only [List.foldlM_cons, List.foldlM_nil, bind_pure]
  rfl

/-- A target is drawn for a read only. -/
theorem Planning.Drawn.target {isRead : Bool} {rest : random.State} {readTargetIndex : Option Nat}
    (hdrawn : planning.Drawn keys numReadTargets readFraction start turns)
    (htarget : drawTarget random numReadTargets isRead planning.targetRng =
      .ok (readTargetIndex, rest)) :
    readTargetIndex = (if isRead then
      some ((stream (random.randbelow numReadTargets.toNat) start.targetRng).get
        ((planning.plan.map RequestPlan.isRead).count true)) else none) ∧
    stream (random.randbelow numReadTargets.toNat) rest =
      (stream (random.randbelow numReadTargets.toNat) start.targetRng).drop
        ((planning.plan.map RequestPlan.isRead ++ [isRead]).count true) ∧
    (isRead = true → 0 < numReadTargets) := by
  have hturn := drawTarget_eq_ok htarget
  cases isRead with
  | true =>
      obtain ⟨hpositive, hindex, hrng⟩ := hturn
      refine ⟨?_, ?_, fun _ => hpositive⟩
      · rw [hindex, if_pos rfl, draw_eq_get hdrawn.targetRng]
      · rw [hrng, stream_draw hdrawn.targetRng, List.count_append, List.count_singleton_self]
  | false =>
      obtain ⟨rfl, rfl⟩ := hturn
      refine ⟨rfl, ?_, fun hread => by cases hread⟩
      rw [hdrawn.targetRng, List.count_append]
      rfl

theorem Planning.Drawn.step (hdrawn : planning.Drawn keys numReadTargets readFraction start turns)
    (hnext : planRequest random keys numReadTargets readFraction planning = .ok next) :
    next.Drawn keys numReadTargets readFraction start (turns + 1) := by
  obtain ⟨item, hplan, hisRead, hmixRng, hchoice, htarget⟩ := planRequest_eq_ok hnext
  obtain ⟨hkey, hkeyRng⟩ := choice_eq_ok hchoice
  obtain ⟨hindex, htargetRng, hpositive⟩ := hdrawn.target htarget
  refine ⟨?_, ?_, ?_, ?_, ?_, ?_, ?_⟩
  · rw [hplan, List.map_append, hdrawn.isReads, Stream'.take_succ', List.map_append,
      List.map_singleton, List.map_singleton, hisRead, draw_eq_get hdrawn.mixRng]
  · rw [hplan, List.map_append, hdrawn.chosen, Stream'.take_succ', List.map_append,
      List.map_singleton, List.map_singleton, ← draw_eq_get hdrawn.keyRng, hkey]
  · rw [hplan, List.map_append, List.map_append, hdrawn.targets, List.map_singleton,
      List.map_singleton, deal_concat, hindex]
  · rw [hmixRng, stream_draw hdrawn.mixRng]
  · rw [hkeyRng, stream_draw hdrawn.keyRng]
  · rw [htargetRng, hplan, List.map_append, List.map_singleton]
  · rintro ⟨other, hother, hread⟩
    rw [hplan, List.mem_append, List.mem_singleton] at hother
    rcases hother with hearlier | rfl
    · exact hdrawn.positive ⟨other, hearlier, hread⟩
    · exact hpositive hread

/-- What the plan holds after the loop. -/
theorem Planning.Drawn.run (hstart : start.plan = [])
    (hplanned : planRequests random keys numReadTargets readFraction start turns = .ok planning) :
    planning.Drawn keys numReadTargets readFraction start turns := by
  induction turns generalizing planning with
  | zero =>
      obtain rfl := Except.ok.inj hplanned
      constructor <;> simp [hstart, deal]
  | succ turns ih =>
      obtain ⟨middle, hmiddle, hnext⟩ := planRequests_succ.mp hplanned
      exact (ih hmiddle).step hnext

/-- With fewer turns the loop comes as far as a part of the plan. -/
theorem planRequests_prefix {fewer : Nat} (hle : fewer ≤ turns)
    (hplanned : planRequests random keys numReadTargets readFraction start turns = .ok planning) :
    ∃ shorter, planRequests random keys numReadTargets readFraction start fewer = .ok shorter ∧
      shorter.plan <+: planning.plan := by
  induction turns, hle using Nat.le_induction generalizing planning with
  | base => exact ⟨planning, hplanned, List.prefix_rfl⟩
  | succ turns hle ih =>
      obtain ⟨middle, hmiddle, hnext⟩ := planRequests_succ.mp hplanned
      obtain ⟨shorter, hshorter, hprefix⟩ := ih hmiddle
      obtain ⟨item, hplan, -⟩ := planRequest_eq_ok hnext
      refine ⟨shorter, hshorter, hprefix.trans ?_⟩
      rw [hplan]
      exact List.prefix_append _ _

/-- With a key to choose and a target to read from no draw raises. -/
theorem planRequest_returns (hkeys : keys ≠ []) (htargets : 0 < numReadTargets)
    (planning : Planning random) :
    ∃ next, planRequest random keys numReadTargets readFraction planning = .ok next := by
  have hchoice : ∃ keyDraw, random.choice keys planning.keyRng = .ok keyDraw :=
    ⟨_, dif_pos (List.length_pos_of_ne_nil hkeys)⟩
  have htarget : ∀ isRead, ∃ targetDraw,
      drawTarget random numReadTargets isRead planning.targetRng = .ok targetDraw := by
    intro isRead
    cases isRead with
    | true =>
        have hdraw : random.randrange numReadTargets planning.targetRng =
            .ok (random.randbelow numReadTargets.toNat planning.targetRng) := if_pos htargets
        rw [drawTarget, if_pos rfl, hdraw]
        exact ⟨_, rfl⟩
    | false => exact ⟨_, rfl⟩
  obtain ⟨keyDraw, hkeyDraw⟩ := hchoice
  obtain ⟨targetDraw, htargetDraw⟩ :=
    htarget (drawsRead readFraction (random.random planning.mixRng).1)
  refine ⟨_, bind_eq_ok.mpr ⟨keyDraw, hkeyDraw, bind_eq_ok.mpr ⟨targetDraw, htargetDraw, rfl⟩⟩⟩

theorem planRequests_returns (hkeys : keys ≠ []) (htargets : 0 < numReadTargets)
    (readFraction : PyFloat) (start : Planning random) (turns : Nat) :
    ∃ planning,
      planRequests random keys numReadTargets readFraction start turns = .ok planning := by
  induction turns with
  | zero => exact ⟨start, rfl⟩
  | succ turns ih =>
      obtain ⟨middle, hmiddle⟩ := ih
      obtain ⟨next, hnext⟩ := planRequest_returns hkeys htargets middle
      exact ⟨next, planRequests_succ.mpr ⟨middle, hmiddle, hnext⟩⟩

end Loop

/-- A plan of any length is made for any keys and targets, if there are some. -/
theorem generateRequestPlan_returns {keys : List String} {numReadTargets : Int}
    (hkeys : keys ≠ []) (htargets : 0 < numReadTargets) (random : PyRandom) (totalRequests : Int)
    (readFraction : PyFloat) (seed : Int) :
    ∃ plan, generateRequestPlan random totalRequests keys numReadTargets readFraction seed =
      .ok plan := by
  obtain ⟨planning, hplanned⟩ := planRequests_returns hkeys htargets readFraction _
    totalRequests.toNat
  exact ⟨planning.plan, congrArg (Except.map Planning.plan) hplanned⟩

end KvReplication.Experiments
