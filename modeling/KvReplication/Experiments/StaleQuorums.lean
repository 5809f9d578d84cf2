import KvReplication.Experiments.GuaranteedQuorums
import KvReplication.Leaderless.Tightness

/-! # When the leaderless load test counts stale reads

One worker and two requests are enough: where `w + r` does not exceed the cluster size, a
write is answered by a quorum that the read after it does not meet.
-/

namespace KvReplication.Experiments

open Leaderless LastWriterWins

namespace LoadedQuorums

variable {V : Type} {cluster : Cluster} {test : LeaderlessLoadTest} {w r : Option Int}
  {route : String → Option String} {json : Nat → V} {system middle next : LoadedQuorums V}

/-- A run without deletes leads from `system` to `next`. -/
abbrev Leads (cluster : Cluster) (test : LeaderlessLoadTest) (w r : Option Int)
    (route : String → Option String) (json : Nat → V) (system next : LoadedQuorums V) : Prop :=
  Runs.Leads (step cluster test w r route json) QuorumAction.KeepsKeys system next

/-- The nodes go on by themselves. -/
theorem Leads.of_cluster {state : State V} (hreaches : cluster.Reaches system.cluster state) :
    Leads cluster test w r route json system { system with cluster := state } := by
  let place : State V → LoadedQuorums V := fun state => { system with cluster := state }
  have hleads : Leads cluster test w r route json (place system.cluster) (place state) := by
    apply Runs.Leads.embed place .cluster ?_ ?_ hreaches
    · intro action hlossless
      exact hlossless.keepsKeys
    · intro state action after _ hafter
      simp only [step, place, hafter, Option.bind_eq_bind, Option.bind_some]
      rfl
  exact hleads

/-- A worker with no request under way goes on by itself. -/
theorem Leads.of_local {worker : Nat} (hsent : system.requests worker = .sent)
    {steps : List LeaderlessLoadTest.LocalStep} {state : LeaderlessLoadTest.TestState}
    (hrun : Runs.run (fun state step => test.localStep state worker step) system.test steps =
      some state) :
    Leads cluster test w r route json system { system with test := state } := by
  let place : LeaderlessLoadTest.TestState → LoadedQuorums V :=
    fun state => { system with test := state }
  have hmoves : Runs.Leads (fun state move => test.localStep state worker move) (fun _ => True)
      system.test state := ⟨steps, fun _ _ => trivial, hrun⟩
  have hleads : Leads cluster test w r route json (place system.test) (place state) := by
    apply hmoves.embed place (.worker worker) (fun _ _ => trivial)
    intro state move after _ hafter
    simp only [step, place, hafter, Option.bind_eq_bind, Option.bind_some, ← hsent,
      Function.update_eq_self]
    rfl
  exact hleads

/-- A node takes up the PUT of a worker. -/
theorem Leads.acceptPut {worker : Nat} {current : LeaderlessLoadTest.Worker} {coordinator : Node}
    {key routed : String} {value : Nat} (hcurrent : system.test.workers[worker]? = some current)
    (hwriting : current.stage = .writing coordinator key value)
    (hsent : system.requests worker = .sent) (hroute : route key = some routed)
    (hcoordinator : coordinator ∈ cluster.config.nodes)
    (hrange : 1 ≤ wRequired cluster w ∧ wRequired cluster w ≤ cluster.size) (now : ℚ) :
    Leads cluster test w r route json system { system with
      cluster := { system.cluster with puts := system.cluster.puts ++
        [cluster.stampPut coordinator routed (wRequired cluster w) ⟨json value⟩ now] }
      requests := Function.update system.requests worker (.put system.cluster.puts.length) } := by
  have hvalid := (@validateQuorumParam_eq_ok_iff (wRequired cluster w) "w" cluster.size).mpr hrange
  apply @Runs.Leads.single _ _ (step cluster test w r route json) _ _ _ (.acceptPut worker now) _
    trivial
  simp only [step, hcurrent, hwriting, hsent, hroute, hvalid, Option.bind_eq_bind,
    Option.bind_some]
  rw [wRequired] at hvalid
  simp only [Cluster.step, guard, hcoordinator, if_true, hvalid, Option.bind_eq_bind]
  rfl

/-- A node takes up the GET of a worker. -/
theorem Leads.acceptGet {worker : Nat} {current : LeaderlessLoadTest.Worker} {coordinator : Node}
    {key routed : String} {expected : SourceEntry}
    (hcurrent : system.test.workers[worker]? = some current)
    (hreading : current.stage = .reading coordinator key expected)
    (hsent : system.requests worker = .sent) (hroute : route key = some routed)
    (hcoordinator : coordinator ∈ cluster.config.nodes)
    (hrange : 1 ≤ rRequired cluster r ∧ rRequired cluster r ≤ cluster.size) {sample : List Node}
    (hsample : IsSample (cluster.peers coordinator) (rRequired cluster r - 1) sample) :
    Leads cluster test w r route json system { system with
      cluster := { system.cluster with gets := system.cluster.gets ++
        [cluster.startGet coordinator routed (rRequired cluster r)
          ((system.cluster.stores coordinator).get routed) sample] }
      requests := Function.update system.requests worker (.get system.cluster.gets.length) } := by
  have hvalid := (@validateQuorumParam_eq_ok_iff (rRequired cluster r) "r" cluster.size).mpr hrange
  apply @Runs.Leads.single _ _ (step cluster test w r route json) _ _ _ (.acceptGet worker sample) _
    trivial
  simp only [step, hcurrent, hreading, hsent, hroute, hvalid, Option.bind_eq_bind,
    Option.bind_some]
  rw [rRequired] at hvalid hsample
  simp only [Cluster.step, guard, hcoordinator, if_true, hvalid, hsample, Option.bind_eq_bind]
  rfl

/-- The node's answer reaches the worker. -/
theorem Leads.answerPut {worker number : Nat} {op : PutOp V} {result : HandlerResult PutResponse}
    {state : LeaderlessLoadTest.TestState} (hput : system.requests worker = .put number)
    (hop : system.cluster.puts[number]? = some op)
    (hanswer : op.answer cluster.config = some result) (now : ℚ)
    (hends : test.putEnds system.test worker now (.ofHandler result) = some state) :
    Leads cluster test w r route json system { system with
      test := state, requests := Function.update system.requests worker .sent } := by
  apply @Runs.Leads.single _ _ (step cluster test w r route json) _ _ _ (.answerPut worker now) _
    trivial
  simp only [step, putReply, hput, hop, hanswer, hends, Option.bind_eq_bind, Option.bind_some]
  rfl

theorem Leads.answerGet {worker number : Nat} {read : GetOp V}
    {result : HandlerResult (KVResponse V)} {state : LeaderlessLoadTest.TestState}
    (hget : system.requests worker = .get number)
    (hread : system.cluster.gets[number]? = some read)
    (hanswer : read.answer cluster.config = some result) (now : ℚ)
    (hends : test.getEnds system.test worker now (.ofHandler result) = some state) :
    Leads cluster test w r route json system { system with
      test := state, requests := Function.update system.requests worker .sent } := by
  apply @Runs.Leads.single _ _ (step cluster test w r route json) _ _ _ (.answerGet worker now) _
    trivial
  simp only [step, getReply, hget, hread, hanswer, hends, Option.bind_eq_bind, Option.bind_some]
  rfl

/-- The test of one worker that has written once. -/
def oneWorker (source : SourceOfTruth) (chunk : List RequestPlan) (stats : Stats)
    (stage : LeaderlessLoadTest.Stage) : LeaderlessLoadTest.TestState :=
  ⟨1, 1, source, [⟨chunk, stats, stage⟩]⟩

theorem start_one (first later : RequestPlan) :
    LeaderlessLoadTest.start [first, later] 1 =
      ⟨0, 0, SourceOfTruth.init, [⟨[first, later], Stats.init, .ready⟩]⟩ := by
  simp [LeaderlessLoadTest.start, splitPlan]

/-- The first write goes to the first node. -/
theorem run_writing {coordinator : Node} (hfirst : test.nodes[0]? = some coordinator)
    (key : String) (later : RequestPlan) :
    ∃ stats : Stats, stats.staleReads = 0 ∧
      Runs.run (fun state step => test.localStep state 0 step)
        (LeaderlessLoadTest.start [⟨false, key, none⟩, later] 1) [.next, .nextValue, .nextNode] =
        some (oneWorker SourceOfTruth.init [later] stats (.writing coordinator key 0)) := by
  have hturn : test.nextNode 0 = some coordinator := by
    rw [LeaderlessLoadTest.nextNode, Nat.zero_mod, hfirst]
  let taken := { Stats.init with totalRequests := 1, totalWrites := 1 }
  refine ⟨taken, rfl, ?_⟩
  rw [start_one]
  refine (Runs.run_cons_eq_some _).mpr ⟨⟨0, 0, SourceOfTruth.init,
    [⟨[later], taken, .numbering key⟩]⟩, rfl, (Runs.run_cons_eq_some _).mpr ⟨⟨1, 0,
      SourceOfTruth.init, [⟨[later], taken, .rotating key 0⟩]⟩, rfl,
      (Runs.run_cons_eq_some _).mpr ⟨_, ?_, rfl⟩⟩⟩
  change (test.nextNode 0).bind _ = _
  rw [hturn]
  rfl

/-- Once recorded, the write is expected by the read after it. -/
theorem run_reading {reader : Node} {index : Nat} (hreader : test.nodes[index]? = some reader)
    (key : String) (timestamp : PyFloat) {stats : Stats} (hfresh : stats.staleReads = 0) :
    ∃ (source : SourceOfTruth) (stats' : Stats), stats'.staleReads = 0 ∧
      Runs.run (fun state step => test.localStep state 0 step)
        (oneWorker SourceOfTruth.init [⟨true, key, some index⟩] stats (.recording key 0 timestamp))
        [.record, .next, .snapshot] =
        some (oneWorker source [] stats' (.reading reader key ⟨0, timestamp⟩)) := by
  let source := SourceOfTruth.init.record key 0 timestamp
  have hsnapshot : source.snapshot key = some ⟨0, timestamp⟩ := Function.update_self _ _ _
  let taken := { stats with
    totalRequests := stats.totalRequests + 1
    totalReads := stats.totalReads + 1 }
  refine ⟨source, taken, hfresh, ?_⟩
  refine (Runs.run_cons_eq_some _).mpr ⟨oneWorker source [⟨true, key, some index⟩] stats .ready,
    rfl, (Runs.run_cons_eq_some _).mpr ⟨oneWorker source [] taken (.snapshotting reader key), ?_,
      (Runs.run_cons_eq_some _).mpr ⟨_, ?_, rfl⟩⟩⟩
  · change Option.map _ (Option.map _ (test.nodes[index]?)) = _
    rw [hreader]
    rfl
  · simp only [LeaderlessLoadTest.localStep, oneWorker, Option.bind_eq_bind,
      List.getElem?_cons_zero, Option.bind_some, hsnapshot]
    rfl

/-- The write is answered 200 by the nodes `acking` and recorded. -/
theorem leads_recording {coordinator : Node} {acking : List Node}
    (hfirst : test.nodes[0]? = some coordinator) (hcoordinator : coordinator ∈ cluster.config.nodes)
    (hnodup : acking.Nodup) (hpeers : acking ⊆ cluster.peers coordinator)
    (hlength : (acking.length : Int) = wRequired cluster w - 1)
    (hw : wRequired cluster w ≤ cluster.size) {key routed : String}
    (hroute : route key = some routed) (later : RequestPlan) :
    ∃ (answered : State V) (op : PutOp V) (progress : PutProgress) (stats : Stats)
      (requests : Nat → QuorumRequest), stats.staleReads = 0 ∧ requests 0 = .sent ∧
      Cluster.Written cluster (wRequired cluster w) routed
        (Server.stamp (cluster.nodeId coordinator) ⟨json 0⟩ (.finite 0)) none coordinator acking
        Cluster.init answered op progress ∧
      Leads cluster test w r route json (start [⟨false, key, none⟩, later] 1)
        ⟨answered, oneWorker SourceOfTruth.init [later] stats (.recording key 0 (.finite 0)),
          requests⟩ := by
  have hempty : ∀ node ∈ cluster.config.nodes,
      ((Cluster.init : State V).stores node).get routed = none := fun _ _ => KVStore.get_init routed
  obtain ⟨answered, op, progress, hreaches, hwritten⟩ :=
    @Cluster.reaches_written_of_stamped V cluster Cluster.init none routed hempty coordinator
      hcoordinator acking hnodup hpeers _ hlength ⟨json 0⟩ 0 _ rfl
      fun stored hstored => by cases hstored
  obtain ⟨stats, hfresh, hwriting⟩ := run_writing hfirst key later
  have hop : answered.puts[0]? = some op := by rw [hwritten.puts_eq]; rfl
  let writing := oneWorker SourceOfTruth.init [later] stats (.writing coordinator key 0)
  let stamped : State V := { (Cluster.init : State V) with puts := Cluster.init.puts ++
    [cluster.stampPut coordinator routed (wRequired cluster w) ⟨json 0⟩ 0] }
  let accepted : Nat → QuorumRequest := Function.update (fun _ => .sent) 0 (.put 0)
  refine ⟨answered, op, progress, stats, Function.update accepted 0 .sent, hfresh,
    Function.update_self _ _ _, hwritten, ?_⟩
  have hsent : Leads cluster test w r route json (start [⟨false, key, none⟩, later] 1)
      ⟨Cluster.init, writing, fun _ => .sent⟩ := Leads.of_local rfl hwriting
  have haccepted : Leads cluster test w r route json ⟨Cluster.init, writing, fun _ => .sent⟩
      ⟨stamped, writing, accepted⟩ :=
    Leads.acceptPut rfl rfl rfl hroute hcoordinator ⟨by omega, hw⟩ 0
  have hacked : Leads cluster test w r route json ⟨stamped, writing, accepted⟩
      ⟨answered, writing, accepted⟩ := Leads.of_cluster hreaches
  have hput : accepted 0 = .put 0 := Function.update_self _ _ _
  exact hsent.trans (haccepted.trans (hacked.trans
    (Leads.answerPut hput hop hwritten.answered 0 rfl)))

/-- Where the quorums fit into the cluster side by side, a write and a read of one key are
enough for a stale read. -/
theorem exists_stale_run (hnodes : test.nodes = cluster.config.nodes)
    (hw : 1 ≤ wRequired cluster w) (hr : 1 ≤ rRequired cluster r)
    (hfit : wRequired cluster w + rRequired cluster r ≤ cluster.size) {key routed : String}
    (hroute : route key = some routed) (hadmitted : Admitted routed) (hsafe : UrlSafe routed)
    (json : Nat → V) :
    ∃ (index : Nat) (final : LoadedQuorums V) (worker : LeaderlessLoadTest.Worker),
      Leads cluster test w r route json
        (start [⟨false, key, none⟩, ⟨true, key, some index⟩] 1) final ∧
      final.test.workers = [worker] ∧ worker.stats.staleReads = 1 := by
  obtain ⟨coordinator, acking, reader, sample, hfirst, hquorums, hacking, hsample⟩ :=
    exists_apartQuorums hw hr hfit
  obtain ⟨index, hindex⟩ := List.getElem?_of_mem hquorums.reader_mem
  rw [← hnodes] at hfirst hindex
  obtain ⟨answered, op, progress, writeStats, requests, hwriteFresh, hrequests, hwritten,
    hrecording⟩ := @leads_recording V cluster test w r route json coordinator acking hfirst
      hquorums.coordinator_mem hquorums.acking_nodup hquorums.acking_peers hacking (by omega) key
      routed hroute ⟨true, key, some index⟩
  have hunread : ∀ node ∈ reader :: sample, (answered.stores node).get routed = none := by
    intro node hnode
    obtain ⟨hmem, hnot⟩ := hquorums.apart node hnode
    rw [hwritten.get_store node hmem, if_neg hnot]
  have hrange : 1 ≤ rRequired cluster r ∧ rRequired cluster r ≤ cluster.size := ⟨hr, by omega⟩
  obtain ⟨hisSample, hasked⟩ := Cluster.isSample_of_lt hquorums.reader_mem hquorums.sample_nodup
    hquorums.sample_peers hsample (by omega)
  obtain ⟨final, read, hfinal, hgets, _, _, _, _, hanswer⟩ :=
    @Cluster.reads_answered_of_started V cluster answered routed hadmitted hsafe reader
      hquorums.reader_mem (rRequired cluster r) hrange sample hisSample
  rw [hasked, Cluster.getAnswer_of_held hsample hunread] at hanswer
  obtain ⟨source, stats, hfresh, hreading⟩ := run_reading hindex key (.finite 0) hwriteFresh
  have hread : final.gets[0]? = some read := by rw [hgets, hwritten.gets_eq]; rfl
  let reading := oneWorker source [] stats (.reading reader key ⟨0, .finite 0⟩)
  let started : State V := { answered with gets := answered.gets ++ [cluster.startGet reader
    routed (rRequired cluster r) ((answered.stores reader).get routed) sample] }
  let accepted : Nat → QuorumRequest := Function.update requests 0 (.get answered.gets.length)
  have hsent : Leads cluster test w r route json
      ⟨answered, oneWorker SourceOfTruth.init [⟨true, key, some index⟩] writeStats
        (.recording key 0 (.finite 0)), requests⟩ ⟨answered, reading, requests⟩ :=
    Leads.of_local hrequests hreading
  have haccepted : Leads cluster test w r route json ⟨answered, reading, requests⟩
      ⟨started, reading, accepted⟩ :=
    Leads.acceptGet rfl rfl hrequests hroute hquorums.reader_mem hrange hisSample
  have hheard : Leads cluster test w r route json ⟨started, reading, accepted⟩
      ⟨final, reading, accepted⟩ := Leads.of_cluster hfinal.reaches
  have hget : accepted 0 = .get 0 := by
    have hlength : answered.gets.length = 0 := by rw [hwritten.gets_eq]; rfl
    exact (Function.update_self _ _ _).trans (congrArg QuorumRequest.get hlength)
  let missing : HttpResult (KVResponse V) := .ofHandler (.ok (Cluster.heldAnswer routed none))
  let ended := oneWorker source [] (finishRead stats "coordinator_node_id" key
    (test.nodeIdOf reader) ⟨0, .finite 0⟩ 0 missing) .ready
  have hends : test.getEnds reading 0 0 missing = some ended := rfl
  refine ⟨index, ⟨final, ended, Function.update accepted 0 .sent⟩, _, hrecording.trans
    (hsent.trans (haccepted.trans (hheard.trans (Leads.answerGet hget hread hanswer 0 hends)))),
    rfl, ?_⟩
  rw [staleReads_finishRead, hfresh]
  rfl

end LoadedQuorums

open LoadedQuorums

/-- No run without deletes ends with a stale read among the statistics of the workers. -/
def NeverStale (V : Type) (cluster : Cluster) (test : LeaderlessLoadTest) (w r : Option Int)
    (route : String → Option String) (json : Nat → V) : Prop :=
  ∀ (plan : List RequestPlan) (numWorkers : Nat) (actions : List (QuorumAction V))
    (final : LoadedQuorums V), (∀ item ∈ plan, SafeKey route item.key) →
    (∀ action ∈ actions, action.KeepsKeys) →
    Runs.run (step cluster test w r route json) (start plan numWorkers) actions = some final →
    (Stats.mergeAll (final.test.workers.map LeaderlessLoadTest.Worker.stats)).staleReads = 0

/-- The leaderless load test over the nodes of a cluster counts no stale read, whatever its plan
and however requests and calls are delayed, exactly when `w + r` exceeds the cluster size. -/
theorem never_stale_iff_overlap (V : Type) (cluster : Cluster) (test : LeaderlessLoadTest)
    (hnodes : test.nodes = cluster.config.nodes) (w r : Option Int)
    (hw : 1 ≤ wRequired cluster w) (hr : 1 ≤ rRequired cluster r)
    (route : String → Option String) (json : Nat → V) {key routed : String}
    (hroute : route key = some routed) (hadmitted : Admitted routed) (hsafe : UrlSafe routed) :
    NeverStale V cluster test w r route json ↔
      (cluster.size : Int) < wRequired cluster w + rRequired cluster r := by
  constructor
  · intro hnever
    by_contra hfit
    obtain ⟨index, final, worker, ⟨actions, hkeeps, hrun⟩, hworkers, hstale⟩ :=
      @exists_stale_run V cluster test w r route hnodes hw hr (by omega) key routed hroute
        hadmitted hsafe json
    have hkeys : ∀ item ∈ [⟨false, key, none⟩, ⟨true, key, some index⟩],
        SafeKey route (RequestPlan.key item) := by
      intro item hitem other hother
      have hkey : item.key = key := by
        rcases List.mem_pair.mp hitem with rfl | rfl
        · rfl
        · rfl
      rw [hkey] at hother
      obtain rfl := Option.some.inj (hroute.symm.trans hother)
      exact ⟨hadmitted, hsafe⟩
    have hcount := hnever _ 1 actions final hkeys hkeeps hrun
    rw [hworkers, Stats.staleReads_mergeAll] at hcount
    simp [hstale] at hcount
  · intro hoverlap plan numWorkers actions final hkeys hkeeps hrun
    have hguaranteed := Guaranteed.run hoverlap hkeys hkeeps hrun
    rw [Stats.staleReads_mergeAll, List.map_map, List.sum_eq_zero]
    intro count hcount
    obtain ⟨worker, hworker, rfl⟩ := List.mem_map.mp hcount
    obtain ⟨index, hindex⟩ := List.getElem?_of_mem hworker
    exact (hguaranteed.workers index worker hindex).1

/-- Writes that wait for both of two nodes, and writes that wait for one. -/
theorem pair_never_stale :
    NeverStale Nat pairCluster ⟨pairCluster.config.nodes, fun _ => none⟩ (some 2) none some id ∧
      ¬ NeverStale Nat pairCluster ⟨pairCluster.config.nodes, fun _ => none⟩ none none some id := by
  have hsafe : UrlSafe "key_0" := urlSafe_of_plain (by decide)
  refine ⟨(never_stale_iff_overlap Nat pairCluster ⟨pairCluster.config.nodes, fun _ => none⟩ rfl
    (some 2) none (by decide) (by decide) some id rfl (by decide) hsafe).mpr (by decide), ?_⟩
  intro hnever
  exact absurd ((never_stale_iff_overlap Nat pairCluster ⟨pairCluster.config.nodes, fun _ => none⟩
    rfl none none (by decide) (by decide) some id rfl (by decide) hsafe).mp hnever) (by decide)

end KvReplication.Experiments
