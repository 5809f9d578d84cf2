import KvReplication.Experiments.FullSynchrony

/-! # When the leader-follower load test counts stale reads

One worker and two requests are enough: where `ack_required` entries fit beside those of a
follower, a write is answered by them alone, and the read after it goes to that follower.
-/

namespace KvReplication.Experiments

open LeaderFollower LastWriterWins

namespace LoadedCluster

variable {V : Type} {cluster : Cluster} {test : StalenessLoadTest}
  {route : String → Option String} {json : Nat → V} {system : LoadedCluster V}

/-- A run without deletes leads from `system` to `next`. -/
abbrev Leads (cluster : Cluster) (test : StalenessLoadTest) (route : String → Option String)
    (json : Nat → V) (system next : LoadedCluster V) : Prop :=
  Runs.Leads (step cluster test route json) LoadAction.KeepsKeys system next

/-- The leader and the followers go on by themselves. -/
theorem Leads.of_cluster {state : State V}
    (hleads : Runs.Leads cluster.step Action.KeepsKeys system.cluster state) :
    Leads cluster test route json system { system with cluster := state } := by
  let place : State V → LoadedCluster V := fun state => { system with cluster := state }
  have hplaced : Leads cluster test route json (place system.cluster) (place state) := by
    apply hleads.embed place .cluster (fun _ hkeeps => hkeeps)
    intro state action after _ hafter
    simp only [step, place, hafter, Option.bind_eq_bind, Option.bind_some]
    rfl
  exact hplaced

/-- A worker with no request under way goes on by itself. -/
theorem Leads.of_local {worker : Nat} (hsent : system.requests worker = .sent)
    {steps : List LocalStep} {state : TestState}
    (hrun : Runs.run (fun state step => test.localStep state worker step) system.test steps =
      some state) :
    Leads cluster test route json system { system with test := state } := by
  let place : TestState → LoadedCluster V := fun state => { system with test := state }
  have hmoves : Runs.Leads (fun state move => test.localStep state worker move) (fun _ => True)
      system.test state := ⟨steps, fun _ _ => trivial, hrun⟩
  have hplaced : Leads cluster test route json (place system.test) (place state) := by
    apply hmoves.embed place (.worker worker) (fun _ _ => trivial)
    intro state move after _ hafter
    simp only [step, place, hafter, Option.bind_eq_bind, Option.bind_some, ← hsent,
      Function.update_eq_self]
    rfl
  exact hplaced

/-- The test of one worker that has written once. -/
def oneWorker (source : SourceOfTruth) (chunk : List RequestPlan) (stats : Stats)
    (stage : WorkerStage) : TestState :=
  ⟨1, source, [⟨chunk, stats, stage⟩]⟩

theorem start_one (first later : RequestPlan) :
    StalenessLoadTest.start [first, later] 1 =
      ⟨0, SourceOfTruth.init, [⟨[first, later], Stats.init, .ready⟩]⟩ := by
  simp [StalenessLoadTest.start, splitPlan]

theorem run_writing (key : String) (later : RequestPlan) :
    ∃ stats : Stats, stats.staleReads = 0 ∧
      Runs.run (fun state step => test.localStep state 0 step)
        (StalenessLoadTest.start [⟨false, key, none⟩, later] 1) [.next, .nextValue] =
        some (oneWorker SourceOfTruth.init [later] stats (.writing key 0)) := by
  rw [start_one]
  exact ⟨_, rfl, rfl⟩

/-- Once recorded, the write is expected by the read after it. -/
theorem run_reading {reader : Follower} {index : Nat} (hreader : test.followers[index]? =
      some reader) (key : String) (timestamp : PyFloat) {stats : Stats}
    (hfresh : stats.staleReads = 0) :
    ∃ (source : SourceOfTruth) (stats' : Stats), stats'.staleReads = 0 ∧
      Runs.run (fun state step => test.localStep state 0 step)
        (oneWorker SourceOfTruth.init [⟨true, key, some index⟩] stats (.recording key 0 timestamp))
        [.record, .next, .snapshot] =
        some (oneWorker source [] stats' (.reading reader key ⟨0, timestamp⟩)) := by
  let source := SourceOfTruth.init.record key 0 timestamp
  have hsnapshot : source.snapshot key = some ⟨0, timestamp⟩ := Function.update_self _ _ _
  let taken := { stats with
    totalRequests := stats.totalRequests + 1
    totalReads := stats.totalReads + 1 }
  refine ⟨source, taken, hfresh, ?_⟩
  refine (Runs.run_cons_eq_some _).mpr ⟨oneWorker source [⟨true, key, some index⟩] stats .ready,
    rfl, (Runs.run_cons_eq_some _).mpr ⟨oneWorker source [] taken (.snapshotting reader key), ?_,
      (Runs.run_cons_eq_some _).mpr ⟨_, ?_, rfl⟩⟩⟩
  · change Option.map _ (Option.map _ (test.followers[index]?)) = _
    rw [hreader]
    rfl
  · simp only [StalenessLoadTest.localStep, oneWorker, Option.bind_eq_bind,
      List.getElem?_cons_zero, Option.bind_some, hsnapshot]
    rfl

/-- Where enough entries fit beside those of a follower, a write and a read of one key are
enough for a stale read. -/
theorem exists_stale_run (hsame : test.followers = cluster.config.followers) {reader : Follower}
    (hreader : reader ∈ cluster.config.followers)
    (hfit : cluster.config.ackRequired ≤ cluster.config.followers.countP (· ≠ reader))
    {key routed : String} (hroute : route key = some routed) (json : Nat → V) :
    ∃ (index : Nat) (final : LoadedCluster V) (worker : Worker),
      Leads cluster test route json
        (start [⟨false, key, none⟩, ⟨true, key, some index⟩] 1) final ∧
      final.test.workers = [worker] ∧ worker.stats.staleReads = 1 := by
  obtain ⟨index, hindex⟩ := List.getElem?_of_mem hreader
  rw [← hsame] at hindex
  obtain ⟨acking, hnodup, hrange, hlength, hmissed⟩ :=
    ClusterConfig.exists_acking cluster.ackRequired_nonneg hfit
  obtain ⟨actions, answered, op, hkeeps, hacked, hop, hanswer, hstores⟩ :=
    @exists_answered V cluster acking hnodup hrange hlength routed ⟨json 0⟩ 0
  obtain ⟨writeStats, hwriteFresh, hwriting⟩ :=
    @run_writing test key ⟨true, key, some index⟩
  obtain ⟨source, stats, hfresh, hreading⟩ := @run_reading test reader index hindex key
    (.finite 0) writeStats hwriteFresh
  let stamped : State V := { (Cluster.init : State V) with
    puts := [⟨.leader, routed, Server.stamp cluster.nodeId ⟨json 0⟩ (.finite 0), none⟩] }
  let writing := oneWorker SourceOfTruth.init [⟨true, key, some index⟩] writeStats
    (.writing key 0)
  let recording := oneWorker SourceOfTruth.init [⟨true, key, some index⟩] writeStats
    (.recording key 0 (.finite 0))
  let expecting := oneWorker source [] stats (.reading reader key ⟨0, .finite 0⟩)
  let sent : Nat → Request V := fun _ => .sent
  let accepted : Nat → Request V := Function.update sent 0 (.accepted 0)
  let again : Nat → Request V := Function.update accepted 0 .sent
  let missing : HttpResult (KVResponse V) :=
    followerAnswer (answered.stores (.follower reader)) (route key)
  let served : Nat → Request V := Function.update again 0 (.served missing)
  let ended := oneWorker source [] (finishRead stats "follower_node_id" key
    (test.nodeIdOf reader) ⟨0, .finite 0⟩ 0 missing) .ready
  have hwritten : Leads cluster test route json
      (start [⟨false, key, none⟩, ⟨true, key, some index⟩] 1) ⟨Cluster.init, writing, sent⟩ :=
    Leads.of_local rfl hwriting
  have haccepted : Leads cluster test route json ⟨Cluster.init, writing, sent⟩
      ⟨stamped, writing, accepted⟩ := by
    apply @Runs.Leads.single _ _ (step cluster test route json) _ _ _ (.acceptPut 0 0) _ trivial
    change Option.bind (route key) _ = _
    rw [hroute]
    rfl
  have hgone : Leads cluster test route json ⟨stamped, writing, accepted⟩
      ⟨answered, writing, accepted⟩ := Leads.of_cluster ⟨actions, hkeeps, hacked⟩
  have hrecording : Leads cluster test route json ⟨answered, writing, accepted⟩
      ⟨answered, recording, again⟩ := by
    apply @Runs.Leads.single _ _ (step cluster test route json) _ _ _ (.answerPut 0 0) _ trivial
    simp only [step, accepted, Function.update_self, hop, hanswer, Option.bind_eq_bind,
      Option.bind_some]
    rfl
  have hexpecting : Leads cluster test route json ⟨answered, recording, again⟩
      ⟨answered, expecting, again⟩ := Leads.of_local rfl hreading
  have hserved : Leads cluster test route json ⟨answered, expecting, again⟩
      ⟨answered, expecting, served⟩ :=
    @Runs.Leads.single _ _ (step cluster test route json) _ _ _ (.serveGet 0) rfl trivial
  have hended : Leads cluster test route json ⟨answered, expecting, served⟩
      ⟨answered, ended, Function.update served 0 .sent⟩ := by
    apply @Runs.Leads.single _ _ (step cluster test route json) _ _ _ (.answerGet 0 0) _ trivial
    simp only [step, served, Function.update_self]
    rfl
  refine ⟨index, _, _, hwritten.trans (haccepted.trans (hgone.trans (hrecording.trans
    (hexpecting.trans (hserved.trans hended))))), rfl, ?_⟩
  have hmissing : missing = .status 404 := by
    change followerAnswer (answered.stores (.follower reader)) (route key) = _
    rw [hroute, hstores reader hmissed]
    rfl
  change (finishRead stats _ _ _ _ _ missing).staleReads = 1
  rw [staleReads_finishRead, hfresh, hmissing]
  rfl

/-- No run without deletes ends with a stale read among the statistics of the workers. -/
def NeverStale (V : Type) (cluster : Cluster) (test : StalenessLoadTest)
    (route : String → Option String) (json : Nat → V) : Prop :=
  ∀ (plan : List RequestPlan) (numWorkers : Nat) (actions : List (LoadAction V))
    (final : LoadedCluster V), (∀ action ∈ actions, action.KeepsKeys) →
    Runs.run (step cluster test route json) (start plan numWorkers) actions = some final →
    (Stats.mergeAll (final.test.workers.map Worker.stats)).staleReads = 0

theorem never_stale_of_covers (hsame : test.followers = cluster.config.followers)
    (hcovers : cluster.config.Covers) : NeverStale V cluster test route json := by
  intro plan numWorkers actions final hkeeps hrun
  have hsync := Synchronous.run_of_covers hcovers (hsame ▸ List.Subset.refl _) hkeeps hrun
  rw [Stats.staleReads_mergeAll, List.map_map, List.sum_eq_zero]
  intro count hcount
  obtain ⟨worker, hworker, rfl⟩ := List.mem_map.mp hcount
  obtain ⟨index, hindex⟩ := List.getElem?_of_mem hworker
  exact (hsync.workers index worker hindex).1

theorem covers_of_never_stale (hsame : test.followers = cluster.config.followers)
    {key routed : String} (hroute : route key = some routed)
    (hnever : NeverStale V cluster test route json) : cluster.config.Covers := by
  intro reader hreader
  by_contra hfit
  obtain ⟨index, final, worker, ⟨actions, hkeeps, hrun⟩, hworkers, hstale⟩ :=
    @exists_stale_run V cluster test route hsame reader hreader (by omega) key routed hroute json
  have hcount := hnever _ 1 actions final hkeeps hrun
  rw [hworkers, Stats.staleReads_mergeAll] at hcount
  simp [hstale] at hcount

/-- The leader-follower load test over the followers of a leader counts no stale read, whatever its
plan and however requests and sends are delayed, exactly when no `ack_required` entries of the
config fit beside those of any one follower: where the followers are all different, when all of
them have to ack. -/
theorem never_stale_iff_covers (V : Type) (cluster : Cluster) (test : StalenessLoadTest)
    (hsame : test.followers = cluster.config.followers) (route : String → Option String)
    (json : Nat → V) {key routed : String} (hroute : route key = some routed) :
    (NeverStale V cluster test route json ↔ cluster.config.Covers) ∧
      (cluster.config.followers.Nodup → cluster.config.followers ≠ [] →
        (NeverStale V cluster test route json ↔
          cluster.config.ackRequired = cluster.config.followers.length)) := by
  have hiff : NeverStale V cluster test route json ↔ cluster.config.Covers :=
    ⟨covers_of_never_stale hsame hroute, never_stale_of_covers hsame⟩
  refine ⟨hiff, fun hnodup hsome => ?_⟩
  rw [hiff]
  exact ClusterConfig.covers_iff_full hnodup cluster.ackRequired_le hsome

/-- A leader with two entries for one follower and one for another, and what it waits for. -/
def doubledCluster (ackRequired : Fin 4) : Cluster where
  config := ⟨[⟨"localhost", 8001⟩, ⟨"localhost", 8001⟩, ⟨"localhost", 8002⟩], ackRequired,
    .finite 2⟩
  nodeId := "leader"
  followerId _ := "follower"
  ackRequired_nonneg := Int.natCast_nonneg _
  ackRequired_le := by
    have hless := ackRequired.isLt
    simp only [List.length_cons, List.length_nil]
    omega

/-- Two acks may both come from the follower that is named twice, three may not. -/
theorem never_stale_doubled :
    NeverStale Nat (doubledCluster 3)
        ⟨(doubledCluster 3).config.followers, fun _ => none, "leader"⟩ some id ∧
      ¬ NeverStale Nat (doubledCluster 2)
        ⟨(doubledCluster 2).config.followers, fun _ => none, "leader"⟩ some id := by
  constructor
  · apply (never_stale_iff_covers Nat (doubledCluster 3)
      ⟨(doubledCluster 3).config.followers, fun _ => none, "leader"⟩ rfl some id
      (show some "key_0" = some "key_0" from rfl)).1.mpr
    decide
  · intro hnever
    have hcovers := (never_stale_iff_covers Nat (doubledCluster 2)
      ⟨(doubledCluster 2).config.followers, fun _ => none, "leader"⟩ rfl some id
      (show some "key_0" = some "key_0" from rfl)).1.mp hnever
    revert hcovers
    decide

end LoadedCluster

end KvReplication.Experiments
