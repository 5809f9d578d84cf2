import KvReplication.Leaderless.Config
import KvReplication.Foundation.Runs
import KvReplication.Foundation.WaitLoop

/-! # Quorum coordination

A coordinator fans a request out to peers, one task per peer, and collects what
counts until enough results are in. The loop of `_gather` is followed wake-up by
wake-up; its `finally` clause hands every task still pending over to the
background set, whichever way the loop is left.
-/

namespace KvReplication.Leaderless

open WaitLoop LastWriterWins

/-- `_gather` between two awaits. `exit` is what the coroutine has returned or
raised, once it has. -/
structure Gather (Task α : Type) where
  pending : List Task
  collected : List α
  background : List Task
  exit : Option (Except PyError (List α))

namespace Gather

variable {Task α : Type}

/-- Leave the loop: the `finally` clause runs before the outcome is delivered. -/
def leave (state : Gather Task α) (outcome : Except PyError (List α)) : Gather Task α :=
  { state with background := state.pending, exit := some outcome }

/-- Test the loop condition: something is pending and too little is collected. -/
def check (needed : Int) (state : Gather Task α) : Gather Task α :=
  if state.pending.isEmpty ∨ needed ≤ state.collected.length then
    state.leave (.ok state.collected)
  else
    state

/-- Start one task per coroutine and run up to the first await. -/
def start (coros : List Task) (needed : Int) : Gather Task α :=
  check needed ⟨coros, [], [], none⟩

/-- Take up the finished tasks of one wake-up; the first exception is re-raised. -/
def collectDone : List (Task × Except PyError (Bool × α)) → List α → Except PyError (List α)
  | [], collected => .ok collected
  -- `task.result()` raises, and what was collected is dropped
  | (_, .error error) :: _, _ => .error error
  | (_, .ok (counts, value)) :: rest, collected =>
      collectDone rest (if counts then collected ++ [value] else collected)

/-- One return of the await, and the loop up to the next one. -/
def wake [DecidableEq Task] (needed : Int) (state : Gather Task α) :
    Wake Task (Except PyError (Bool × α)) → Gather Task α
  | .timeout => state.leave (.ok state.collected)
  | .cancelled => state.leave (.error .cancelledError)
  | .done finished =>
      let state := { state with
        pending := state.pending.filter (· ∉ finished.map Prod.fst) }
      match collectDone finished state.collected with
      | .error error => state.leave (.error error)
      | .ok collected => check needed { state with collected := collected }

/-- Take one wake-up, as long as the loop is still waiting. -/
def step [DecidableEq Task] (needed : Int) (state : Gather Task α)
    (event : Wake Task (Except PyError (Bool × α))) : Option (Gather Task α) :=
  if state.exit.isNone ∧ event.Allowed state.pending then some (state.wake needed event) else none

/-- The value a finished task contributes, if it counts. -/
def credit : Task × Except PyError (Bool × α) → Option (Task × α)
  | (task, .ok (true, value)) => some (task, value)
  | _ => none

theorem credit_eq_some {entry : Task × Except PyError (Bool × α)} {credited : Task × α} :
    credit entry = some credited ↔ entry = (credited.1, .ok (true, credited.2)) := by
  obtain ⟨task, outcome⟩ := entry
  obtain ⟨creditedTask, value⟩ := credited
  rcases outcome with error | ⟨_ | _, other⟩ <;> simp [credit]

theorem collectDone_eq_ok {finished : List (Task × Except PyError (Bool × α))}
    {collected final : List α} (hok : collectDone finished collected = .ok final) :
    final = collected ++ (finished.filterMap credit).map Prod.snd := by
  induction finished generalizing collected with
  | nil => simpa [collectDone, eq_comm] using hok
  | cons entry rest ih =>
      obtain ⟨task, outcome⟩ := entry
      rcases outcome with error | ⟨counts, value⟩
      · simp [collectDone] at hok
      · rw [collectDone] at hok
        have htail := ih hok
        cases counts <;> simpa [List.filterMap_cons, credit] using htail

/-- The results that all count are collected in the order they are taken up. -/
theorem collectDone_map (value : Task → α) (tasks : List Task)
    (collected : List α) :
    collectDone (tasks.map fun task => (task, .ok (true, value task))) collected =
      .ok (collected ++ tasks.map value) := by
  induction tasks generalizing collected with
  | nil => simp [collectDone]
  | cons task rest ih =>
      rw [List.map_cons, collectDone, ih]
      simp

/-- A loop that needs nobody has returned at once. -/
theorem exit_start_of_le (coros : List Task) {needed : Int}
    (hneeded : needed ≤ 0) : (start coros needed : Gather Task α).exit = some (.ok []) := by
  rw [start, check, if_pos (Or.inr (by simpa using hneeded))]
  rfl

theorem start_of_lt {coros : List Task} (hcoros : coros ≠ [])
    {needed : Int} (hneeded : 0 < needed) :
    (start coros needed : Gather Task α) = ⟨coros, [], [], none⟩ := by
  rw [start, check, if_neg]
  rintro (hempty | hle)
  · exact hcoros (List.isEmpty_iff.mp hempty)
  · simp at hle
    omega

theorem sublist_credit_tasks (finished : List (Task × Except PyError (Bool × α))) :
    ((finished.filterMap credit).map Prod.fst).Sublist (finished.map Prod.fst) := by
  induction finished with
  | nil => simp
  | cons entry rest ih =>
      obtain ⟨task, outcome⟩ := entry
      rcases outcome with error | ⟨_ | _, value⟩
      · exact ih.cons _
      · exact ih.cons _
      · exact ih.cons_cons _

/-- The collected values are those of different started tasks that each returned
theirs, and a loop that has ended well returned what it had collected. -/
structure Sound (started : List Task) (returned : Task → α → Prop)
    (state : Gather Task α) : Prop where
  credited : ∃ credited : List (Task × α),
    Accounted started state.pending (credited.map Prod.fst) ∧
      state.collected = credited.map Prod.snd ∧
      ∀ entry ∈ credited, returned entry.1 entry.2
  returns_collected : ∀ collected, state.exit = some (.ok collected) →
    collected = state.collected

theorem Sound.mono {started : List Task} {returned returned' : Task → α → Prop}
    {state : Gather Task α} (hsound : state.Sound started returned)
    (hmono : ∀ task value, returned task value → returned' task value) :
    state.Sound started returned' where
  credited := by
    obtain ⟨credited, haccount, hcollected, hreturned⟩ := hsound.credited
    exact ⟨credited, haccount, hcollected,
      fun entry hentry => hmono _ _ (hreturned entry hentry)⟩
  returns_collected := hsound.returns_collected

theorem Sound.leave {started : List Task} {returned : Task → α → Prop}
    {state : Gather Task α} (hsound : state.Sound started returned)
    {outcome : Except PyError (List α)}
    (houtcome : ∀ collected, outcome = .ok collected → collected = state.collected) :
    (state.leave outcome).Sound started returned where
  credited := hsound.credited
  returns_collected collected hexit := houtcome collected (Option.some.inj hexit)

theorem Sound.check {started : List Task} {returned : Task → α → Prop}
    {state : Gather Task α} (needed : Int) (hsound : state.Sound started returned) :
    (state.check needed).Sound started returned := by
  unfold Gather.check
  split
  · exact hsound.leave fun collected heq => (Except.ok.inj heq).symm
  · exact hsound

theorem Sound.start {started : List Task} (returned : Task → α → Prop) (needed : Int)
    (hnodup : started.Nodup) : (Gather.start (α := α) started needed).Sound started returned := by
  refine Sound.check needed ⟨⟨[], Accounted.start hnodup, rfl, by simp⟩, ?_⟩
  intro collected hexit
  simp at hexit

theorem Sound.wake [DecidableEq Task] {started : List Task} {returned : Task → α → Prop}
    {state : Gather Task α} {event : Wake Task (Except PyError (Bool × α))} (needed : Int)
    (hsound : state.Sound started returned) (hrunning : state.exit = none)
    (hallowed : event.Allowed state.pending)
    (hreturned : ∀ finished, event = .done finished → ∀ task value,
      (task, .ok (true, value)) ∈ finished → returned task value) :
    (state.wake needed event).Sound started returned := by
  cases event with
  | timeout => exact hsound.leave fun collected heq => (Except.ok.inj heq).symm
  | cancelled => exact hsound.leave fun collected heq => by cases heq
  | done finished =>
      obtain ⟨credited, haccount, hcollected, hvalues⟩ := hsound.credited
      obtain ⟨_, hnodup, hpending⟩ := hallowed
      have htasks : ∀ task ∈ finished.map Prod.fst, task ∈ state.pending := by
        intro task htask
        obtain ⟨entry, hentry, rfl⟩ := List.mem_map.mp htask
        exact hpending entry hentry
      simp only [Gather.wake]
      cases hcollect : collectDone finished state.collected with
      | error error =>
          -- an exception ends the loop; what was collected before stays accounted for
          have htaken : Sound started returned { state with
              pending := state.pending.filter (· ∉ finished.map Prod.fst) } := by
            refine ⟨⟨credited, ?_, hcollected, hvalues⟩, hsound.returns_collected⟩
            simpa using haccount.wake hnodup htasks (List.nil_sublist _)
          refine htaken.leave ?_
          intro collected heq
          cases heq
      | ok collected =>
          refine Sound.check needed ⟨⟨credited ++ finished.filterMap credit, ?_, ?_, ?_⟩, ?_⟩
          · rw [List.map_append]
            exact haccount.wake hnodup htasks (sublist_credit_tasks finished)
          · rw [List.map_append, ← hcollected]
            exact collectDone_eq_ok hcollect
          · intro entry hentry
            rcases List.mem_append.mp hentry with hold | hnew
            · exact hvalues entry hold
            · obtain ⟨source, hsource, hcredit⟩ := List.mem_filterMap.mp hnew
              rw [credit_eq_some.mp hcredit] at hsource
              exact hreturned finished rfl _ _ hsource
          · intro collected hexit
            simp [hrunning] at hexit

theorem step_eq_some [DecidableEq Task] {needed : Int} {state next : Gather Task α}
    {event : Wake Task (Except PyError (Bool × α))} :
    state.step needed event = some next ↔
      state.exit = none ∧ event.Allowed state.pending ∧ next = state.wake needed event := by
  unfold step
  split
  · next hguard => simp [Option.isNone_iff_eq_none.mp hguard.1, hguard.2, eq_comm]
  · next hguard =>
      simp only [Option.isNone_iff_eq_none, not_and] at hguard
      simpa using fun hrunning hallowed => absurd hallowed (hguard hrunning)

/-- A wake-up that brings successes only. -/
def AllCount (event : Wake Task (Except PyError (Bool × α))) : Prop :=
  ∃ finished, event = .done finished ∧ ∀ entry ∈ finished, ∃ value, entry.2 = .ok (true, value)

/-- A loop to which every finished task has brought a success: what has left the
pending list is collected, and the loop ends well and only with enough, or with
everything. -/
structure AllCounted (started : List Task) (needed : Int) (state : Gather Task α) : Prop where
  pending_nodup : state.pending.Nodup
  balance : state.pending.length + state.collected.length = started.length
  running : state.exit = none → state.pending ≠ []
  ended : ∀ outcome, state.exit = some outcome → outcome = .ok state.collected ∧
    (state.pending = [] ∨ needed ≤ state.collected.length)

theorem AllCounted.check {started : List Task} {needed : Int} {state : Gather Task α}
    (hnodup : state.pending.Nodup)
    (hbalance : state.pending.length + state.collected.length = started.length)
    (hrunning : state.exit = none) : (state.check needed).AllCounted started needed := by
  unfold Gather.check
  split
  · next hleave =>
      refine ⟨hnodup, hbalance, fun hnone => by simp [Gather.leave] at hnone, ?_⟩
      intro outcome hexit
      simp only [Gather.leave, Option.some.injEq] at hexit
      exact ⟨hexit.symm, by simpa [Gather.leave] using hleave⟩
  · next hstay =>
      refine ⟨hnodup, hbalance, fun _ hempty => hstay (Or.inl (by simp [hempty])), ?_⟩
      intro outcome hexit
      rw [hrunning] at hexit
      cases hexit

theorem collectDone_of_all_count {finished : List (Task × Except PyError (Bool × α))}
    (hcount : ∀ entry ∈ finished, ∃ value, entry.2 = .ok (true, value)) (collected : List α) :
    ∃ final, collectDone finished collected = .ok final ∧
      final.length = collected.length + finished.length := by
  induction finished generalizing collected with
  | nil => exact ⟨collected, rfl, rfl⟩
  | cons entry rest ih =>
      obtain ⟨value, hvalue⟩ := hcount entry List.mem_cons_self
      obtain ⟨task, outcome⟩ := entry
      obtain rfl : outcome = .ok (true, value) := hvalue
      obtain ⟨final, hfinal, hlength⟩ :=
        ih (fun later hlater => hcount later (List.mem_cons_of_mem _ hlater)) (collected ++ [value])
      refine ⟨final, hfinal, ?_⟩
      rw [hlength, List.length_append, List.length_singleton, List.length_cons]
      omega

theorem AllCounted.step [DecidableEq Task] {started : List Task} {needed : Int}
    {state next : Gather Task α} {event : Wake Task (Except PyError (Bool × α))}
    (hcounted : state.AllCounted started needed) (hcount : AllCount event)
    (hnext : state.step needed event = some next) : next.AllCounted started needed := by
  obtain ⟨hrunning, hallowed, rfl⟩ := step_eq_some.mp hnext
  obtain ⟨finished, rfl, hsuccess⟩ := hcount
  obtain ⟨_, hnodup, hpending⟩ := hallowed
  obtain ⟨final, hfinal, hlength⟩ := collectDone_of_all_count hsuccess state.collected
  have htasks : ∀ task ∈ finished.map Prod.fst, task ∈ state.pending := by
    intro task htask
    obtain ⟨entry, hentry, rfl⟩ := List.mem_map.mp htask
    exact hpending entry hentry
  have hleft := length_filter_not_mem hcounted.pending_nodup hnodup htasks
  have hbalance := hcounted.balance
  rw [List.length_map] at hleft
  simp only [Gather.wake, hfinal]
  refine AllCounted.check (hcounted.pending_nodup.filter _) ?_ hrunning
  simp only [hlength]
  omega

/-- Once every contacted task has brought a success the loop has returned, with
as many values as were needed if that many tasks were started. -/
theorem run_all_count [DecidableEq Task] {started : List Task} {needed : Int}
    (hnodup : started.Nodup) (henough : needed ≤ started.length)
    {events : List (Wake Task (Except PyError (Bool × α)))}
    (hcount : ∀ event ∈ events, AllCount event)
    {state : Gather Task α}
    (hrun : Runs.run (step needed) (start started needed) events = some state)
    (hend : state.pending = [] ∨ state.exit.isSome) :
    ∃ collected, state.exit = some (.ok collected) ∧ needed ≤ collected.length := by
  have hstart : (start (α := α) started needed).AllCounted started needed :=
    AllCounted.check hnodup (by simp) rfl
  have hcounted := Runs.run_invariant (AllCounted started needed)
    (fun _ _ _ hallowed hinvariant hnext => AllCounted.step hinvariant hallowed hnext)
    hcount hstart hrun
  cases hexit : state.exit with
  | none =>
      rcases hend with hempty | hsome
      · exact absurd hempty (hcounted.running hexit)
      · simp [hexit] at hsome
  | some outcome =>
      obtain ⟨rfl, hdone⟩ := hcounted.ended outcome hexit
      refine ⟨state.collected, rfl, ?_⟩
      rcases hdone with hempty | hquorum
      · have hbalance := hcounted.balance
        rw [hempty, List.length_nil] at hbalance
        omega
      · exact hquorum

/-- One of the wake-ups brings `value` as a result of `task` that counts. -/
def Brings (events : List (Wake Task (Except PyError (Bool × α)))) (task : Task) (value : α) :
    Prop :=
  ∃ finished, .done finished ∈ events ∧ (task, .ok (true, value)) ∈ finished

/-- Whatever wake-ups arrive, what the loop has collected comes from different
tasks it started. -/
theorem run_sound [DecidableEq Task] {started : List Task} {needed : Int} (hnodup : started.Nodup)
    {events : List (Wake Task (Except PyError (Bool × α)))} {state : Gather Task α}
    (hrun : Runs.run (step needed) (start started needed) events = some state) :
    state.Sound started (Brings events) := by
  apply Runs.run_history_invariant (fun history state => state.Sound started (Brings history))
    ?_ (Sound.start _ needed hnodup) hrun
  intro history current event next hsound hnext
  obtain ⟨hrunning, hallowed, rfl⟩ := step_eq_some.mp hnext
  refine (hsound.mono ?_).wake needed hrunning hallowed ?_
  · rintro task value ⟨finished, hdone, hmem⟩
    exact ⟨finished, List.mem_append_left _ hdone, hmem⟩
  · rintro finished rfl task value hmem
    exact ⟨finished, by simp, hmem⟩

/-- The values a loop has returned are as many as the different tasks that brought
them. -/
theorem counted_of_run [DecidableEq Task] {started : List Task} {needed : Int}
    (hnodup : started.Nodup) {events : List (Wake Task (Except PyError (Bool × α)))}
    {state : Gather Task α}
    (hrun : Runs.run (step needed) (start started needed) events = some state)
    {collected : List α} (hexit : state.exit = some (.ok collected)) :
    ∃ counted : List Task, counted.Nodup ∧ counted ⊆ started ∧
      counted.length = collected.length ∧ ∀ task ∈ counted, ∃ value, Brings events task value := by
  have hsound := run_sound hnodup hrun
  obtain ⟨credited, haccount, hcollected, hbrings⟩ := hsound.credited
  refine ⟨credited.map Prod.fst, haccount.counted_nodup, haccount.counted_started, ?_, ?_⟩
  · rw [hsound.returns_collected collected hexit, hcollected, List.length_map, List.length_map]
  · intro task htask
    obtain ⟨entry, hentry, rfl⟩ := List.mem_map.mp htask
    exact ⟨entry.2, hbrings entry hentry⟩

end Gather

section Peers

variable {Peer : Type}

/-- Peers to contact for a read: all of them, or the random sample that was drawn. -/
def selectReadPeers (peers : List Peer) (needed : Int) (sample : List Peer) : List Peer :=
  if (peers.length : Int) ≤ needed then peers else sample

/-- What `random.sample(peers, needed)` may return, where it is called. -/
def IsSample (peers : List Peer) (needed : Int) (sample : List Peer) : Prop :=
  (peers.length : Int) ≤ needed ∨ ((sample.length : Int) = needed ∧ sample.Subperm peers)

instance [DecidableEq Peer] (peers : List Peer) (needed : Int) (sample : List Peer) :
    Decidable (IsSample peers needed sample) :=
  inferInstanceAs (Decidable (_ ∨ _))

/-- Every peer is contacted by a write, whatever is needed. -/
def replicateWrite (peers : List Peer) (needed : Int) : Gather Peer Unit :=
  Gather.start peers needed

/-- The peers a read contacts; none when only the local read is needed. -/
def readPeers (peers : List Peer) (needed : Int) (sample : List Peer) : List Peer :=
  if needed ≤ 0 then [] else selectReadPeers peers needed sample

/-- `read`: without a needed peer it returns at once. -/
def read {V : Type} (peers : List Peer) (needed : Int) (sample : List Peer) :
    Gather Peer (Option (VersionedValue V)) :=
  if needed ≤ 0 then ⟨[], [], [], some (.ok [])⟩
  else Gather.start (selectReadPeers peers needed sample) needed

/-- Either way a read waits for the peers it contacts. -/
theorem read_eq_start {V : Type} (peers : List Peer) (needed : Int) (sample : List Peer) :
    (read peers needed sample : Gather Peer (Option (VersionedValue V))) =
      Gather.start (readPeers peers needed sample) needed := by
  unfold read readPeers
  split
  · simp [Gather.start, Gather.check, Gather.leave]
  · rfl

theorem nodup_readPeers {peers sample : List Peer} {needed : Int} (hpeers : peers.Nodup)
    (hsample : IsSample peers needed sample) : (readPeers peers needed sample).Nodup := by
  unfold readPeers selectReadPeers
  split
  · exact List.nodup_nil
  · split
    · exact hpeers
    · next hmany =>
        -- a sample is drawn without replacement
        obtain ⟨subset, hperm, hsublist⟩ := (hsample.resolve_left hmany).2
        exact hperm.nodup_iff.mp (hsublist.nodup hpeers)

/-- A read never contacts more peers than it needs. -/
theorem length_readPeers_le {peers sample : List Peer} {needed : Int}
    (hsample : IsSample peers needed sample) (hneeded : 0 ≤ needed) :
    ((readPeers peers needed sample).length : Int) ≤ needed := by
  unfold readPeers selectReadPeers
  split
  · simpa using hneeded
  · split
    · next hfew => exact hfew
    · next hmany => exact (hsample.resolve_left hmany).1.le

end Peers

variable {V : Type}

/-- The end of `put_key_coordinator`: too few acks fail the write loudly. -/
def putAnswer (config : ClusterConfig) (wRequired : Int) (localApplied : Bool)
    (timestamp : PyFloat) (peerAcked : Nat) : Except HttpException PutResponse :=
  let totalAcked := 1 + peerAcked
  if (totalAcked : Int) < wRequired then
    .error ⟨503, .nodeAcks totalAcked wRequired config.timeoutSeconds⟩
  else
    .ok ⟨localApplied, timestamp⟩

/-- The responses that had an entry, the local one first. -/
def candidates (localEntry : Option (VersionedValue V))
    (peerEntries : List (Option (VersionedValue V))) : List (VersionedValue V) :=
  (localEntry :: peerEntries).filterMap id

/-- Keep the first candidate and replace it by every newer one met later. -/
def pickWinner : List (VersionedValue V) → Option (VersionedValue V)
  | [] => none
  | first :: rest =>
      some (rest.foldl (fun winner entry => if entry.isNewerThan winner then entry else winner)
        first)

/-- The end of `get_key_coordinator`. -/
def getAnswer (config : ClusterConfig) (key : String) (rRequired : Int)
    (localEntry : Option (VersionedValue V)) (peerEntries : List (Option (VersionedValue V))) :
    Except HttpException (KVResponse V) :=
  let totalResponses := 1 + peerEntries.length
  if (totalResponses : Int) < rRequired then
    .error ⟨503, .nodeResponses totalResponses rRequired config.timeoutSeconds⟩
  else
    match pickWinner (candidates localEntry peerEntries) with
    | none => .error ⟨404, .keyNotFound key⟩
    | some winner => .ok ⟨key, winner.value, winner.timestamp, winner.nodeId⟩

/-- Reads resolve conflicts the way a fresh store would. -/
theorem pickWinner_eq_offerAll (entries : List (VersionedValue V)) :
    pickWinner entries = offerAll VersionedValue.Newer none entries := by
  have hfold : ∀ (rest : List (VersionedValue V)) (first : VersionedValue V),
      some (rest.foldl (fun winner entry => if entry.isNewerThan winner then entry else winner)
        first) = offerAll VersionedValue.Newer (some first) rest := by
    intro rest
    induction rest with
    | nil => intro first; rfl
    | cons entry rest ih =>
        intro first
        rw [List.foldl_cons, ih, offerAll_cons]
        by_cases hnewer : entry.isNewerThan first = true
        · simp [offer, VersionedValue.Newer, hnewer]
        · simp [offer, VersionedValue.Newer, hnewer]
  cases entries with
  | nil => rfl
  | cons first rest => exact hfold rest first

theorem mem_candidates {localEntry : Option (VersionedValue V)}
    {peerEntries : List (Option (VersionedValue V))} {entry : VersionedValue V} :
    entry ∈ candidates localEntry peerEntries ↔
      localEntry = some entry ∨ some entry ∈ peerEntries := by
  simp [candidates, eq_comm]

/-- Too few responses fail the read, whatever they hold. -/
theorem getAnswer_of_lt {config : ClusterConfig} {key : String} {rRequired : Int}
    {localEntry : Option (VersionedValue V)} {peerEntries : List (Option (VersionedValue V))}
    (hshort : 1 + (peerEntries.length : Int) < rRequired) :
    getAnswer config key rRequired localEntry peerEntries =
      .error ⟨503, .nodeResponses (1 + peerEntries.length) rRequired config.timeoutSeconds⟩ := by
  have hshort' : ((1 + peerEntries.length : Nat) : Int) < rRequired := by push_cast; exact hshort
  simp only [getAnswer, if_pos hshort']

theorem getAnswer_of_le {config : ClusterConfig} {key : String} {rRequired : Int}
    {localEntry : Option (VersionedValue V)} {peerEntries : List (Option (VersionedValue V))}
    (hquorum : rRequired ≤ 1 + (peerEntries.length : Int)) :
    getAnswer config key rRequired localEntry peerEntries =
      match pickWinner (candidates localEntry peerEntries) with
      | none => .error ⟨404, .keyNotFound key⟩
      | some winner => .ok ⟨key, winner.value, winner.timestamp, winner.nodeId⟩ := by
  have hquorum' : ¬ ((1 + peerEntries.length : Nat) : Int) < rRequired := by
    push_cast
    omega
  simp only [getAnswer, if_neg hquorum']

theorem getAnswer_eq_ok_iff {config : ClusterConfig} {key : String} {rRequired : Int}
    {localEntry : Option (VersionedValue V)} {peerEntries : List (Option (VersionedValue V))}
    {response : KVResponse V} :
    getAnswer config key rRequired localEntry peerEntries = .ok response ↔
      rRequired ≤ 1 + (peerEntries.length : Int) ∧ response.key = key ∧
        pickWinner (candidates localEntry peerEntries) = some response.version := by
  rcases lt_or_ge (1 + (peerEntries.length : Int)) rRequired with hshort | hquorum
  · rw [getAnswer_of_lt hshort]
    simp [hshort]
  · rw [getAnswer_of_le hquorum]
    cases pickWinner (candidates localEntry peerEntries) with
    | none => simp
    | some winner =>
        obtain ⟨responseKey, value, timestamp, nodeId⟩ := response
        obtain ⟨winnerValue, winnerTimestamp, winnerNodeId⟩ := winner
        simp only [KVResponse.version, Except.ok.injEq, KVResponse.mk.injEq, Option.some.injEq,
          VersionedValue.mk.injEq, hquorum, true_and]
        exact and_congr_left' eq_comm

/-- A read fails with a 503 exactly when too few nodes responded. -/
theorem getAnswer_ne_503_iff {config : ClusterConfig} {key : String} {rRequired : Int}
    {localEntry : Option (VersionedValue V)} {peerEntries : List (Option (VersionedValue V))} :
    (∀ exception, getAnswer config key rRequired localEntry peerEntries = .error exception →
      exception.statusCode ≠ 503) ↔ rRequired ≤ 1 + (peerEntries.length : Int) := by
  rcases lt_or_ge (1 + (peerEntries.length : Int)) rRequired with hshort | hquorum
  · rw [getAnswer_of_lt hshort]
    simp only [Except.error.injEq, forall_eq', ne_eq, not_true_eq_false, false_iff, not_le]
    exact hshort
  · rw [getAnswer_of_le hquorum]
    refine ⟨fun _ => hquorum, fun _ exception herror => ?_⟩
    cases hwinner : pickWinner (candidates localEntry peerEntries) with
    | none =>
        rw [hwinner] at herror
        obtain rfl := Except.error.inj herror
        simp
    | some winner =>
        rw [hwinner] at herror
        cases herror

/-- A read that is not answered 200 is a 503 or a 404. -/
theorem statusCode_of_getAnswer {config : ClusterConfig} {key : String} {rRequired : Int}
    {localEntry : Option (VersionedValue V)} {peerEntries : List (Option (VersionedValue V))}
    {exception : HttpException}
    (herror : getAnswer config key rRequired localEntry peerEntries = .error exception) :
    exception.statusCode = 503 ∨ exception.statusCode = 404 := by
  simp only [getAnswer] at herror
  split at herror
  · obtain rfl := Except.error.inj herror
    exact Or.inl rfl
  · split at herror
    · obtain rfl := Except.error.inj herror
      exact Or.inr rfl
    · cases herror

/-- A write is answered 200 exactly when, the coordinator included, enough acked. -/
theorem putAnswer_eq_ok_iff {config : ClusterConfig} {wRequired : Int} {localApplied : Bool}
    {timestamp : PyFloat} {peerAcked : Nat} {response : PutResponse} :
    putAnswer config wRequired localApplied timestamp peerAcked = .ok response ↔
      wRequired ≤ 1 + (peerAcked : Int) ∧ response = ⟨localApplied, timestamp⟩ := by
  simp only [putAnswer]
  split
  · next hshort =>
      push_cast at hshort
      simp [hshort]
  · next hquorum =>
      push_cast at hquorum
      simp [not_lt.mp hquorum, eq_comm]

end KvReplication.Leaderless
