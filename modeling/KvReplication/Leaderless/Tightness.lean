import KvReplication.Leaderless.Freshness

/-! # Reads that miss a write

Where `w + r` does not exceed the cluster size, a write may have been acked by `w`
nodes and a read be answered by `r` others. The runs that show it lose nothing: every
call returns its peer's answer, and the calls that the read overtook are only late.
-/

namespace KvReplication.Leaderless

open LastWriterWins WaitLoop

variable {V : Type}

namespace FanOut

variable {Answer α : Type} {outcome : Except PyError Answer → Except PyError (Bool × α)}
  {fan : FanOut Answer α} {peer : Node}

/-- The call returns the peer's answer. -/
def answered (outcome : Except PyError Answer → Except PyError (Bool × α))
    (fan : FanOut Answer α) (peer : Node) (answer : Answer) : FanOut Answer α :=
  fan.setCall peer ⟨some answer, some (outcome (.ok answer))⟩

theorem deliver_of_mem (hpeer : peer ∈ fan.contacted) (answer : Answer) :
    fan.deliver peer answer =
      some (fan.setCall peer { fan.calls peer with answer := some answer }) :=
  deliver_eq_some.mpr ⟨hpeer, rfl⟩

theorem finish_of_delivered (hpeer : peer ∈ fan.contacted)
    (hrunning : (fan.calls peer).result = none) (answer : Answer) :
    (fan.setCall peer { fan.calls peer with answer := some answer }).finish outcome peer none =
      some (fan.answered outcome peer answer) := by
  refine finish_eq_some.mpr ⟨⟨hpeer, ?_⟩, .ok answer, ?_, ?_⟩
  · simpa [setCall] using hrunning
  · simp [reply, setCall]
  · simp [setCall, answered]

theorem result_answered (other : Node) (answer : Answer) :
    ((fan.answered outcome peer answer).calls other).result =
      if other = peer then some (outcome (.ok answer)) else (fan.calls other).result := by
  by_cases heq : other = peer
  · subst heq
    simp [answered, setCall]
  · simp [answered, setCall, heq]

end FanOut

/-- As many successes as the loop needs end it in one wake-up. -/
theorem FanOut.wake_of_results {Answer α : Type} {fan : FanOut Answer α} {needed : Int}
    (hgather : fan.gather = Gather.start fan.contacted needed) {targets : List Node}
    (htargets : targets ≠ []) (hnodup : targets.Nodup) (hcontacted : targets ⊆ fan.contacted)
    (hlength : (targets.length : Int) = needed) {value : Node → α}
    (hresults : ∀ peer ∈ targets, (fan.calls peer).result = some (.ok (true, value peer))) :
    ∃ gather, fan.wake needed (.done targets) = some { fan with gather := gather } ∧
      gather.exit = some (.ok (targets.map value)) := by
  have hcoros : fan.contacted ≠ [] := by
    rintro hnil
    exact htargets (List.eq_nil_of_subset_nil (hnil ▸ hcontacted))
  have hneeded : 0 < needed := by
    have hpositive := List.length_pos_of_ne_nil htargets
    omega
  rw [Gather.start_of_lt hcoros hneeded] at hgather
  have hevent : Signal.event (fun peer => (fan.calls peer).result) (.done targets) =
      some (.done (targets.map fun peer => (peer, .ok (true, value peer)))) := by
    rw [Signal.event, results_of_forall hresults]
    rfl
  have hallowed : Wake.Allowed fan.gather.pending
      (.done (targets.map fun peer => (peer, Except.ok (ε := PyError) (true, value peer)))) := by
    rw [hgather]
    refine ⟨by simpa using htargets, ?_, ?_⟩
    · rw [List.map_map]
      exact (List.map_id targets).symm ▸ hnodup
    · intro entry hentry
      obtain ⟨peer, hpeer, rfl⟩ := List.mem_map.mp hentry
      exact hcontacted hpeer
  refine ⟨_, FanOut.wake_eq_some.mpr ⟨_, hevent, _,
    Gather.step_eq_some.mpr ⟨by rw [hgather], hallowed, rfl⟩, rfl⟩, ?_⟩
  rw [Gather.wake, hgather]
  simp only [Gather.collectDone_map]
  rw [Gather.check, if_pos (Or.inr (by simp [hlength]))]
  rfl

/-- Nothing fails, times out or is cancelled, and nothing is deleted. -/
def Action.Lossless : Action V → Prop
  | .finishReplicate _ _ failure => failure = none
  | .finishRead _ _ failure => failure = none
  | .wakePut _ signal => ∃ tasks, signal = .done tasks
  | .wakeGet _ signal => ∃ tasks, signal = .done tasks
  | .delete _ _ => False
  | _ => True

theorem Action.Lossless.keepsKeys {action : Action V} (hlossless : action.Lossless) :
    action.KeepsKeys := by
  cases action with
  | delete node key => exact hlossless
  | _ => exact trivial

/-- Replicate calls to `targets` are handled and return. -/
def Action.Replicates (targets : List Node) : Action V → Prop
  | .handleReplicate _ peer => peer ∈ targets
  | .finishReplicate _ peer failure => peer ∈ targets ∧ failure = none
  | _ => False

theorem Action.Replicates.lossless {targets : List Node} {action : Action V}
    (hreplicates : action.Replicates targets) : action.Lossless := by
  cases action with
  | handleReplicate put peer => exact trivial
  | finishReplicate put peer failure => exact hreplicates.2
  | _ => exact hreplicates.elim

theorem Action.Replicates.mono {targets more : List Node} (hmore : targets ⊆ more)
    {action : Action V} (hreplicates : action.Replicates targets) : action.Replicates more := by
  cases action with
  | handleReplicate put peer => exact hmore hreplicates
  | finishReplicate put peer failure => exact ⟨hmore hreplicates.1, hreplicates.2⟩
  | _ => exact hreplicates

/-- Calls of reads to `targets` are answered and return. -/
def Action.Hears (targets : List Node) : Action V → Prop
  | .handleRead _ peer => peer ∈ targets
  | .finishRead _ peer failure => peer ∈ targets ∧ failure = none
  | _ => False

theorem Action.Hears.mono {targets more : List Node} (hmore : targets ⊆ more)
    {action : Action V} (hhears : action.Hears targets) : action.Hears more := by
  cases action with
  | handleRead get peer => exact hmore hhears
  | finishRead get peer failure => exact ⟨hmore hhears.1, hhears.2⟩
  | _ => exact hhears

/-- A step of a read that loses nothing. -/
def Action.Reads : Action V → Prop
  | .get _ _ _ _ => True
  | .handleRead _ _ => True
  | .finishRead _ _ failure => failure = none
  | .wakeGet _ signal => ∃ tasks, signal = .done tasks
  | _ => False

theorem Action.Hears.reads {targets : List Node} {action : Action V}
    (hhears : action.Hears targets) : action.Reads := by
  cases action with
  | handleRead get peer => exact trivial
  | finishRead get peer failure => exact hhears.2
  | _ => exact hhears.elim

theorem Action.Reads.lossless {action : Action V} (hreads : action.Reads) : action.Lossless := by
  cases action with
  | get node key r sample => exact trivial
  | handleRead get peer => exact trivial
  | finishRead get peer failure => exact hreads
  | wakeGet get signal => exact hreads
  | _ => exact hreads.elim

namespace Cluster

variable (cluster : Cluster)

/-- A run that loses nothing leads from `state` to `next`. -/
def Reaches (state next : State V) : Prop :=
  ∃ actions : List (Action V), (∀ action ∈ actions, action.Lossless) ∧
    Runs.run cluster.step state actions = some next

variable {cluster} {state middle next : State V}

theorem Reaches.refl (state : State V) : cluster.Reaches state state := ⟨[], by simp, rfl⟩

theorem Reaches.trans (hfirst : cluster.Reaches state middle)
    (hsecond : cluster.Reaches middle next) : cluster.Reaches state next := by
  obtain ⟨first, hfirstLossless, hfirst⟩ := hfirst
  obtain ⟨second, hsecondLossless, hsecond⟩ := hsecond
  refine ⟨first ++ second, ?_, (Runs.run_append_eq_some _).mpr ⟨middle, hfirst, hsecond⟩⟩
  intro action hmem
  rcases List.mem_append.mp hmem with hearly | hlate
  · exact hfirstLossless action hearly
  · exact hsecondLossless action hlate

theorem Reaches.single {action : Action V} (hnext : cluster.step state action = some next)
    (hlossless : action.Lossless) : cluster.Reaches state next :=
  ⟨[action], by simpa using hlossless,
    (Runs.run_cons_eq_some _).mpr ⟨next, hnext, rfl⟩⟩

/-- A run of steps of reads alone, which loses nothing either. -/
def ReadsTo (state next : State V) : Prop :=
  Runs.Leads cluster.step Action.Reads state next

theorem ReadsTo.reaches (hreads : cluster.ReadsTo state next) : cluster.Reaches state next :=
  Runs.Leads.mono (fun _ => Action.Reads.lossless) hreads

/-- A peer's answer to a replicate call is an ack. -/
theorem ackOf_ok (response : ReplicateResponse) : ackOf (.ok response) = .ok (true, ()) := rfl

/-- One replicate call is handled and returns. -/
theorem leads_replicate (cluster : Cluster) {put : Nat} {op : PutOp V} {progress : PutProgress}
    (hop : state.puts[put]? = some op) (hprogress : op.progress = some progress) {peer : Node}
    (hpeer : peer ∈ progress.fanOut.contacted)
    (hrunning : (progress.fanOut.calls peer).result = none) :
    ∃ next response, Runs.Leads cluster.step (Action.Replicates [peer]) state next ∧
      next.puts = state.puts.set put (op.withFanOut progress
        (progress.fanOut.answered ackOf peer response)) ∧ next.gets = state.gets ∧
      next.stores = Stores.write state.stores peer op.key op.version := by
  let response := (Server.replicate (state.stores peer) (payload op.key op.version)).2
  let delivered := op.withFanOut progress (progress.fanOut.setCall peer
    { progress.fanOut.calls peer with answer := some response })
  have hbound := (List.getElem?_eq_some_iff.mp hop).1
  have hhandle : cluster.step state (.handleReplicate put peer) = some { state with
      stores := Stores.write state.stores peer op.key op.version
      puts := state.puts.set put delivered } := by
    simp only [step, hop, hprogress, Option.bind_eq_bind, Option.bind_some,
      FanOut.deliver_of_mem hpeer]
    rfl
  have hfinish : cluster.step { state with
      stores := Stores.write state.stores peer op.key op.version
      puts := state.puts.set put delivered } (.finishReplicate put peer none) = some { state with
      stores := Stores.write state.stores peer op.key op.version
      puts := state.puts.set put (op.withFanOut progress
        (progress.fanOut.answered ackOf peer response)) } := by
    simp only [step, List.getElem?_set_self hbound, Option.bind_eq_bind, Option.bind_some,
      delivered, PutOp.withFanOut, FanOut.finish_of_delivered hpeer hrunning, List.set_set]
    rfl
  have hself : peer ∈ [peer] := List.mem_singleton_self peer
  exact ⟨_, response, (Runs.Leads.single hhandle hself).trans
    (Runs.Leads.single hfinish ⟨hself, rfl⟩), rfl, rfl, rfl⟩

/-- The replicate calls of a write to `targets` are handled and return. -/
structure Replicated (put : Nat) (op : PutOp V) (progress : PutProgress) (targets : List Node)
    (state next : State V) (fan : FanOut ReplicateResponse Unit) : Prop where
  puts_eq : next.puts = state.puts.set put (op.withFanOut progress fan)
  gets_eq : next.gets = state.gets
  get_store : ∀ node, (next.stores node).get op.key = if node ∈ targets then
    offer VersionedValue.Newer ((state.stores node).get op.key) op.version
    else (state.stores node).get op.key
  contacted_eq : fan.contacted = progress.fanOut.contacted
  gather_eq : fan.gather = progress.fanOut.gather
  result_eq : ∀ peer, (fan.calls peer).result = if peer ∈ targets then some (.ok (true, ()))
    else (progress.fanOut.calls peer).result

theorem leads_replicates (cluster : Cluster) {put : Nat} {op : PutOp V} {progress : PutProgress}
    (hop : state.puts[put]? = some op) (hprogress : op.progress = some progress)
    {targets : List Node} (hnodup : targets.Nodup)
    (hcontacted : targets ⊆ progress.fanOut.contacted)
    (hrunning : ∀ peer ∈ targets, (progress.fanOut.calls peer).result = none) :
    ∃ next fan, Runs.Leads cluster.step (Action.Replicates targets) state next ∧
      Replicated put op progress targets state next fan := by
  induction targets generalizing state op progress with
  | nil =>
      refine ⟨state, progress.fanOut, Runs.Leads.refl state, ?_, rfl, ?_, rfl, rfl, ?_⟩
      · obtain ⟨hbound, hself⟩ := List.getElem?_eq_some_iff.mp hop
        rw [PutOp.withFanOut, ← hprogress, ← hself, List.set_getElem_self hbound]
      · simp
      · simp
  | cons peer rest ih =>
      obtain ⟨hfresh, hrest⟩ := List.nodup_cons.mp hnodup
      obtain ⟨middle, response, hleads, hputs, hgets, hstores⟩ := leads_replicate cluster hop
        hprogress (hcontacted List.mem_cons_self) (hrunning peer List.mem_cons_self)
      have hbound := (List.getElem?_eq_some_iff.mp hop).1
      have hmiddle : middle.puts[put]? = some (op.withFanOut progress
          (progress.fanOut.answered ackOf peer response)) := by
        rw [hputs, List.getElem?_set_self hbound]
      have hothers : ∀ other ∈ rest,
          ((progress.fanOut.answered ackOf peer response).calls other).result = none := by
        intro other hother
        have hne : other ≠ peer := fun heq => hfresh (heq ▸ hother)
        rw [FanOut.result_answered, if_neg hne]
        exact hrunning other (List.mem_cons_of_mem _ hother)
      obtain ⟨next, fan, hlater, hreplicated⟩ := ih hmiddle rfl hrest
        (fun other hother => hcontacted (List.mem_cons_of_mem _ hother)) hothers
      have hall : Runs.Leads cluster.step (Action.Replicates (peer :: rest)) state next := by
        apply Runs.Leads.trans
        · exact hleads.mono fun _ => Action.Replicates.mono (by simp)
        · exact hlater.mono fun _ => Action.Replicates.mono (List.subset_cons_self peer rest)
      refine ⟨next, fan, hall, ?_, ?_, ?_, ?_, ?_, ?_⟩
      · rw [hreplicated.puts_eq, hputs, List.set_set]
        rfl
      · rw [hreplicated.gets_eq, hgets]
      · intro node
        have hget := hreplicated.get_store node
        simp only [PutOp.withFanOut, hstores] at hget
        rw [hget]
        by_cases heq : node = peer
        · subst heq
          rw [if_neg hfresh, if_pos List.mem_cons_self, Stores.write, Function.update_self,
            KVStore.get_put_self]
        · simp [Stores.write, heq]
      · exact hreplicated.contacted_eq
      · exact hreplicated.gather_eq
      · intro other
        rw [hreplicated.result_eq other]
        by_cases heq : other = peer
        · subst heq
          rw [if_neg hfresh, if_pos List.mem_cons_self, FanOut.result_answered, if_pos rfl,
            ackOf_ok]
        · simp [FanOut.result_answered, heq]

theorem reaches_replicates (cluster : Cluster) {put : Nat} {op : PutOp V} {progress : PutProgress}
    (hop : state.puts[put]? = some op) (hprogress : op.progress = some progress)
    {targets : List Node} (hnodup : targets.Nodup)
    (hcontacted : targets ⊆ progress.fanOut.contacted)
    (hrunning : ∀ peer ∈ targets, (progress.fanOut.calls peer).result = none) :
    ∃ next fan, cluster.Reaches state next ∧ Replicated put op progress targets state next fan := by
  obtain ⟨next, fan, hleads, hreplicated⟩ :=
    leads_replicates cluster hop hprogress hnodup hcontacted hrunning
  exact ⟨next, fan, hleads.mono fun _ => Action.Replicates.lossless, hreplicated⟩

/-- The write is answered as soon as enough calls have returned. -/
theorem reaches_acked (cluster : Cluster) {put : Nat} {op : PutOp V} {progress : PutProgress}
    (hop : state.puts[put]? = some op) (hprogress : op.progress = some progress)
    (hgather : progress.fanOut.gather =
      Gather.start progress.fanOut.contacted (op.wRequired - 1))
    {targets : List Node} (hnodup : targets.Nodup)
    (hcontacted : targets ⊆ progress.fanOut.contacted)
    (hlength : (targets.length : Int) = op.wRequired - 1)
    (hresults : ∀ peer ∈ targets, (progress.fanOut.calls peer).result = some (.ok (true, ()))) :
    ∃ next gather, cluster.Reaches state next ∧
      next.puts = state.puts.set put
        (op.withFanOut progress { progress.fanOut with gather := gather }) ∧
      next.gets = state.gets ∧ next.stores = state.stores ∧
      gather.exit = some (.ok (targets.map fun _ => ())) := by
  by_cases htargets : targets = []
  · subst htargets
    -- nobody has to ack, so the loop ended where it started
    have hexit : progress.fanOut.gather.exit = some (.ok []) := by
      rw [hgather]
      exact Gather.exit_start_of_le _ (by simpa using hlength.ge)
    refine ⟨state, progress.fanOut.gather, Reaches.refl state, ?_, rfl, rfl, hexit⟩
    obtain ⟨hbound, hself⟩ := List.getElem?_eq_some_iff.mp hop
    rw [PutOp.withFanOut, ← hprogress, ← hself, List.set_getElem_self hbound]
  · obtain ⟨gather, hwake, hexit⟩ := FanOut.wake_of_results hgather htargets hnodup hcontacted
      hlength hresults
    have hstep : cluster.step state (.wakePut put (.done targets)) = some { state with
        puts := state.puts.set put
          (op.withFanOut progress { progress.fanOut with gather := gather }) } := by
      simp only [step, hop, hprogress, Option.bind_eq_bind, Option.bind_some, hwake]
      rfl
    exact ⟨_, gather, Reaches.single hstep ⟨targets, rfl⟩, rfl, rfl, rfl, hexit⟩

/-- A write of `version` that only its coordinator and the peers `acking` hold when it
is answered 200, in a cluster where every node held `held`. -/
structure Written (cluster : Cluster) (w : Int) (key : String) (version : VersionedValue V)
    (held : Option (VersionedValue V)) (coordinator : Node) (acking : List Node)
    (state next : State V) (op : PutOp V) (progress : PutProgress) : Prop where
  puts_eq : next.puts = state.puts ++ [op]
  gets_eq : next.gets = state.gets
  key_eq : op.key = key
  wRequired_eq : op.wRequired = w
  version_eq : op.version = version
  answered : op.answer cluster.config = some (.ok (.ok ⟨true, version.timestamp⟩))
  get_store : ∀ node ∈ cluster.config.nodes, (next.stores node).get key =
    if node ∈ coordinator :: acking then some version else held
  progress_eq : op.progress = some progress
  contacted_eq : progress.fanOut.contacted = cluster.peers op.coordinator
  coordinator_eq : op.coordinator = coordinator
  coordinator_mem : coordinator ∈ cluster.config.nodes
  running : ∀ peer ∉ coordinator :: acking, (progress.fanOut.calls peer).result = none

theorem step_stamp_of_accepted (state : State V) {node : Node} (hnode : node ∈ cluster.config.nodes)
    (key : String) {w : Int} (hw : 1 ≤ w ∧ w ≤ cluster.size) (body : PutRequest V) (now : ℚ) :
    cluster.step state (.stamp node key (some w) body now) =
      some { state with puts := state.puts ++ [cluster.stampPut node key w body now] } := by
  have hvalid : validateQuorumParam w "w" cluster.size = .ok () :=
    validateQuorumParam_eq_ok_iff.mpr hw
  simp only [step, guard, hnode, if_true, Option.getD_some, hvalid, Option.bind_eq_bind]
  rfl

theorem step_localPut_of_stamped (cluster : Cluster) {put : Nat} {op : PutOp V}
    (hop : state.puts[put]? = some op) (hprogress : op.progress = none) :
    cluster.step state (.localPut put) = some { state with
      stores := Stores.write state.stores op.coordinator op.key op.version
      puts := state.puts.set put (cluster.startPut op ((state.stores op.coordinator).put op.key
        op.version.value op.version.timestamp op.version.nodeId).2) } := by
  simp only [step, hop, hprogress, guard, Option.isNone_none, if_true, Option.bind_eq_bind,
    Option.bind_some]
  rfl

/-- A newer version replaces what every node held. -/
theorem offer_of_newer {held : Option (VersionedValue V)} {version : VersionedValue V}
    (hnewer : ∀ stored, held = some stored → version.Newer stored) :
    offer VersionedValue.Newer held version = some version := by
  cases held with
  | none => rfl
  | some stored => rw [offer, if_pos (hnewer stored rfl)]

/-- A write that its coordinator has stored and `acking` have been offered is held by these
nodes, and the others hold what they held. -/
theorem get_of_acked {stores : Node → KVStore V} {held : Option (VersionedValue V)} {key : String}
    {version : VersionedValue V} {node coordinator : Node} {acking : List Node}
    (hheld : (stores node).get key = held) (hself : coordinator ∉ acking)
    (hnewer : ∀ stored, held = some stored → version.Newer stored) :
    (if node ∈ acking then
        offer VersionedValue.Newer ((Stores.write stores coordinator key version node).get key)
          version
      else (Stores.write stores coordinator key version node).get key) =
      if node ∈ coordinator :: acking then some version else held := by
  by_cases hlocal : node = coordinator
  · subst hlocal
    rw [if_neg hself, if_pos List.mem_cons_self, Stores.write, Function.update_self,
      KVStore.get_put_self, hheld, offer_of_newer hnewer]
  · have hother : (Stores.write stores coordinator key version node).get key = held := by
      rw [Stores.write, Function.update_of_ne hlocal, hheld]
    rw [hother, offer_of_newer hnewer]
    simp only [List.mem_cons, hlocal, false_or]

/-- A write that nothing its coordinator holds stands against is applied, and calls the peers. -/
theorem reaches_applied {coordinator : Node} (key : String) (w : Int) (body : PutRequest V)
    (now : ℚ) (hnewer : ∀ stored, (state.stores coordinator).get key = some stored →
      (Server.stamp (cluster.nodeId coordinator) body (.finite now)).Newer stored) :
    ∃ next, cluster.Reaches { state with
        puts := state.puts ++ [cluster.stampPut coordinator key w body now] } next ∧
      next.puts = state.puts ++
        [cluster.startPut (cluster.stampPut coordinator key w body now) true] ∧
      next.gets = state.gets ∧ next.stores = Stores.write state.stores coordinator key
        (Server.stamp (cluster.nodeId coordinator) body (.finite now)) := by
  let stamped := cluster.stampPut coordinator key w body now
  let middle := { state with puts := state.puts ++ [stamped] }
  have hop : middle.puts[state.puts.length]? = some stamped := by simp [middle]
  have hlocal := step_localPut_of_stamped cluster hop rfl
  have happlied := (KVStore.put_applied_iff (state.stores coordinator) key stamped.version).mpr
    hnewer
  refine ⟨_, Reaches.single hlocal trivial, ?_, rfl, rfl⟩
  change (state.puts ++ [stamped]).set state.puts.length (cluster.startPut stamped
    ((state.stores coordinator).put key stamped.version.value stamped.version.timestamp
      stamped.version.nodeId).2) = _
  rw [happlied, List.set_append_right _ _ (Nat.le_refl _), Nat.sub_self, List.set_cons_zero]

/-- Where all nodes hold `held`, any `w - 1` peers may ack a newer write. -/
theorem reaches_written_of_stamped {held : Option (VersionedValue V)} {key : String}
    (hheld : ∀ node ∈ cluster.config.nodes, (state.stores node).get key = held)
    {coordinator : Node} (hcoordinator : coordinator ∈ cluster.config.nodes) {acking : List Node}
    (hnodup : acking.Nodup) (hpeers : acking ⊆ cluster.peers coordinator) {w : Int}
    (hlength : (acking.length : Int) = w - 1) {body : PutRequest V}
    {now : ℚ} {version : VersionedValue V}
    (hversion : version = Server.stamp (cluster.nodeId coordinator) body (.finite now))
    (hnewer : ∀ stored, held = some stored → version.Newer stored) :
    ∃ next op progress, cluster.Reaches { state with
        puts := state.puts ++ [cluster.stampPut coordinator key w body now] } next ∧
      Written cluster w key version held coordinator acking state next op progress := by
  subst hversion
  let version := Server.stamp (cluster.nodeId coordinator) body (.finite now)
  let started := cluster.startPut (cluster.stampPut coordinator key w body now) true
  let fan : FanOut ReplicateResponse Unit :=
    FanOut.start (cluster.peers coordinator) (replicateWrite (cluster.peers coordinator) (w - 1))
  have hself := ClusterConfig.self_not_mem_peersExcluding cluster.config coordinator
  have hlocalNewer : ∀ stored, (state.stores coordinator).get key = some stored →
      version.Newer stored := fun stored hstored =>
    hnewer stored ((hheld coordinator hcoordinator).symm.trans hstored)
  obtain ⟨first, hfirst, hfirstPuts, hfirstGets, hfirstStores⟩ :=
    reaches_applied key w body now hlocalNewer
  have hop : first.puts[state.puts.length]? = some started := by
    rw [hfirstPuts]
    simp [started]
  have hprogress : started.progress = some ⟨true, fan⟩ := rfl
  obtain ⟨second, replicatedFan, hsecond, hreplicated⟩ := reaches_replicates cluster hop hprogress
    hnodup hpeers fun peer _ => rfl
  have hbound : state.puts.length < first.puts.length := by
    rw [hfirstPuts, List.length_append, List.length_singleton]
    omega
  have hopReplicated : second.puts[state.puts.length]? =
      some (started.withFanOut ⟨true, fan⟩ replicatedFan) := by
    rw [hreplicated.puts_eq, List.getElem?_set_self hbound]
  have hresults : ∀ peer ∈ acking,
      (replicatedFan.calls peer).result = some (.ok (true, ())) := by
    intro peer hpeer
    rw [hreplicated.result_eq, if_pos hpeer]
  obtain ⟨third, gather, hthird, hthirdPuts, hthirdGets, hthirdStores, hexit⟩ :=
    reaches_acked cluster hopReplicated rfl
    (by rw [hreplicated.gather_eq, hreplicated.contacted_eq]; rfl) hnodup
    (by rw [hreplicated.contacted_eq]; exact hpeers) hlength hresults
  let ackedFan : FanOut ReplicateResponse Unit := { replicatedFan with gather := gather }
  refine ⟨third, started.withFanOut ⟨true, fan⟩ ackedFan, ⟨true, ackedFan⟩,
    (hfirst.trans hsecond).trans hthird, ?_, ?_, rfl, rfl, rfl, ?_, ?_, rfl, ?_,
    rfl, hcoordinator, ?_⟩
  · rw [hthirdPuts, hreplicated.puts_eq, List.set_set, hfirstPuts,
      List.set_append_right _ _ (Nat.le_refl _), Nat.sub_self, List.set_cons_zero]
    rfl
  · rw [hthirdGets, hreplicated.gets_eq, hfirstGets]
  · have hanswer : putAnswer cluster.config w true version.timestamp
        (acking.map fun _ => ()).length = .ok ⟨true, version.timestamp⟩ :=
      putAnswer_eq_ok_iff.mpr ⟨by rw [List.length_map]; omega, rfl⟩
    simp only [PutOp.answer, PutOp.withFanOut, ackedFan, hexit, Option.bind_eq_bind,
      Option.bind_some]
    exact congrArg (fun answer => some (Except.ok answer)) hanswer
  · intro node hnode
    have hget := hreplicated.get_store node
    change (second.stores node).get key = _ at hget
    rw [hthirdStores, hget, hfirstStores]
    exact get_of_acked (hheld node hnode) (fun hmem => hself (hpeers hmem)) hnewer
  · exact hreplicated.contacted_eq
  · intro peer hpeer
    have hnot : peer ∉ acking := fun hmem => hpeer (List.mem_cons_of_mem _ hmem)
    change (replicatedFan.calls peer).result = none
    rw [hreplicated.result_eq, if_neg hnot]
    rfl

theorem reaches_written {held : Option (VersionedValue V)} {key : String}
    (hheld : ∀ node ∈ cluster.config.nodes, (state.stores node).get key = held)
    {coordinator : Node} (hcoordinator : coordinator ∈ cluster.config.nodes) {acking : List Node}
    (hnodup : acking.Nodup) (hpeers : acking ⊆ cluster.peers coordinator) {w : Int}
    (hlength : (acking.length : Int) = w - 1) (hw : w ≤ cluster.size) {body : PutRequest V}
    {now : ℚ} {version : VersionedValue V}
    (hversion : version = Server.stamp (cluster.nodeId coordinator) body (.finite now))
    (hnewer : ∀ stored, held = some stored → version.Newer stored) :
    ∃ next op progress, cluster.Reaches state next ∧
      Written cluster w key version held coordinator acking state next op progress := by
  have hstamp := step_stamp_of_accepted state hcoordinator key ⟨by omega, hw⟩ body now
  obtain ⟨next, op, progress, hreaches, hwritten⟩ := reaches_written_of_stamped hheld
    hcoordinator hnodup hpeers hlength hversion hnewer
  exact ⟨next, op, progress, (Reaches.single hstamp trivial).trans hreaches, hwritten⟩

/-- Every other node of the cluster is a peer. -/
theorem mem_peers_of_ne {node other : Node} (hnode : node ∈ cluster.config.nodes)
    (hother : other ∈ cluster.config.nodes) (hne : other ≠ node) : other ∈ cluster.peers node := by
  have hperm := ClusterConfig.perm_self_cons_peers
    (ClusterConfig.filter_port_eq_singleton cluster.ports_distinct hnode)
  exact (List.mem_cons.mp (hperm.mem_iff.mpr hother)).resolve_left hne

/-- The calls that a write left in flight reach every other node. -/
theorem Written.settles {w : Int} {key : String} {version : VersionedValue V}
    {held : Option (VersionedValue V)} {coordinator : Node} {acking : List Node} {op : PutOp V}
    {progress : PutProgress}
    (hwritten : Written cluster w key version held coordinator acking state next op progress)
    (hnewer : ∀ stored, held = some stored → version.Newer stored) {later : State V}
    (hputs : later.puts = next.puts) (hstores : later.stores = next.stores) :
    ∃ settled, cluster.Reaches later settled ∧ settled.gets = later.gets ∧
      ∀ node ∈ cluster.config.nodes, (settled.stores node).get key = some version := by
  let late := (cluster.peers op.coordinator).filter (· ∉ coordinator :: acking)
  have hmemLate : ∀ {peer}, peer ∈ late ↔
      peer ∈ cluster.peers op.coordinator ∧ peer ∉ coordinator :: acking := by
    intro peer
    simp only [late, List.mem_filter, decide_eq_true_eq]
  have hnodup : late.Nodup :=
    (ClusterConfig.peersExcluding_nodup cluster.ports_distinct.of_map _).filter _
  have hlate : late ⊆ progress.fanOut.contacted := by
    rw [hwritten.contacted_eq]
    exact fun peer hpeer => (hmemLate.mp hpeer).1
  have hop : later.puts[state.puts.length]? = some op := by
    rw [hputs, hwritten.puts_eq]
    simp
  have hrunning : ∀ peer ∈ late, (progress.fanOut.calls peer).result = none :=
    fun peer hpeer => hwritten.running peer (hmemLate.mp hpeer).2
  obtain ⟨settled, fan, hreaches, hreplicated⟩ := reaches_replicates cluster hop
    hwritten.progress_eq hnodup hlate hrunning
  refine ⟨settled, hreaches, hreplicated.gets_eq, fun node hnode => ?_⟩
  have hget := hreplicated.get_store node
  rw [hwritten.key_eq, hwritten.version_eq, hstores, hwritten.get_store node hnode] at hget
  rw [hget]
  by_cases hholder : node ∈ coordinator :: acking
  · have hnot : node ∉ late := fun hmem => (hmemLate.mp hmem).2 hholder
    rw [if_neg hnot, if_pos hholder]
  · have hpeer : node ∈ cluster.peers op.coordinator := by
      rw [hwritten.coordinator_eq]
      exact mem_peers_of_ne hwritten.coordinator_mem hnode fun heq =>
        hholder (heq ▸ List.mem_cons_self)
    have hmem : node ∈ late := hmemLate.mpr ⟨hpeer, hholder⟩
    rw [if_pos hmem, if_neg hholder, offer_of_newer hnewer]

/-! ### The read -/

/-- What a read of nodes that all hold `held` is answered. -/
def heldAnswer (key : String) : Option (VersionedValue V) → Except HttpException (KVResponse V)
  | none => .error ⟨404, .keyNotFound key⟩
  | some entry => .ok ⟨key, entry.value, entry.timestamp, entry.nodeId⟩

theorem getAnswer_of_agree {config : ClusterConfig} {key : String} {r : Int}
    {held : Option (VersionedValue V)} {entries : List (Option (VersionedValue V))}
    (hquorum : r ≤ 1 + (entries.length : Int)) (hagree : ∀ entry ∈ entries, entry = held) :
    getAnswer config key r held entries = heldAnswer key held := by
  rw [getAnswer_of_le hquorum]
  have honly : ∀ winner, pickWinner (candidates held entries) = some winner →
      held = some winner := by
    intro winner hwinner
    rw [pickWinner_eq_offerAll] at hwinner
    rcases offerAll_mem hwinner with hmem | hnone
    · rcases mem_candidates.mp hmem with hlocal | hpeer
      · exact hlocal
      · exact (hagree _ hpeer).symm
    · cases hnone
  cases held with
  | none =>
      cases hwinner : pickWinner (candidates none entries) with
      | none => rfl
      | some winner => cases honly winner hwinner
  | some entry =>
      cases hwinner : pickWinner (candidates (some entry) entries) with
      | none => cases hwinner
      | some winner =>
          obtain rfl := Option.some.inj (honly winner hwinner)
          rfl

theorem step_get_of_accepted (state : State V) {node : Node} (hnode : node ∈ cluster.config.nodes)
    (key : String) {r : Int} (hr : 1 ≤ r ∧ r ≤ cluster.size) {sample : List Node}
    (hsample : IsSample (cluster.peers node) (r - 1) sample) :
    cluster.step state (.get node key (some r) sample) = some { state with
      gets := state.gets ++
        [cluster.startGet node key r ((state.stores node).get key) sample] } := by
  have hvalid : validateQuorumParam r "r" cluster.size = .ok () :=
    validateQuorumParam_eq_ok_iff.mpr hr
  simp only [step, guard, hnode, if_true, Option.getD_some, hvalid, hsample, Option.bind_eq_bind]
  rfl

/-- A peer's answer to a read of a safe key is what it holds there. -/
theorem entryOf_peerAnswer (storage : KVStore V) (key : String) :
    entryOf (.ok (peerAnswer storage (some key))) = .ok (true, storage.get key) :=
  readOutcome_internalGetKey storage key

/-- One call of a read is answered. -/
theorem reads_hear (cluster : Cluster) {get : Nat} {read : GetOp V}
    (hget : state.gets[get]? = some read) (hadmitted : Admitted read.key)
    (hsafe : UrlSafe read.key) {peer : Node} (hnode : peer ∈ cluster.config.nodes)
    (hpeer : peer ∈ read.fanOut.contacted)
    (hrunning : (read.fanOut.calls peer).result = none) :
    Runs.Leads cluster.step (Action.Hears [peer]) state { state with
      gets := state.gets.set get { read with
        fanOut := read.fanOut.answered entryOf peer
          (peerAnswer (state.stores peer) (some read.key)) } } := by
  let answer := peerAnswer (state.stores peer) (some read.key)
  let delivered := { read with
    fanOut := read.fanOut.setCall peer { read.fanOut.calls peer with answer := some answer } }
  have hbound := (List.getElem?_eq_some_iff.mp hget).1
  have hroute := lookupKey_of_urlSafe cluster.http (cluster.addressable peer hnode) hadmitted hsafe
  have hhandle : cluster.step state (.handleRead get peer) =
      some { state with gets := state.gets.set get delivered } := by
    simp only [step, hget, hroute, Option.bind_eq_bind, Option.bind_some, Except.toOption,
      FanOut.deliver_of_mem hpeer]
    rfl
  have hfinish : cluster.step { state with gets := state.gets.set get delivered }
      (.finishRead get peer none) = some { state with
        gets := state.gets.set get { read with
          fanOut := read.fanOut.answered entryOf peer answer } } := by
    simp only [step, List.getElem?_set_self hbound, Option.bind_eq_bind, Option.bind_some,
      delivered, FanOut.finish_of_delivered hpeer hrunning, List.set_set]
    rfl
  have hself : peer ∈ [peer] := List.mem_singleton_self peer
  exact (Runs.Leads.single hhandle hself).trans (Runs.Leads.single hfinish ⟨hself, rfl⟩)

/-- The calls of a read to `targets` are answered. -/
structure Heard (get : Nat) (read : GetOp V) (targets : List Node) (state next : State V)
    (fan : FanOut (Except HttpException (KVResponse V)) (Option (VersionedValue V))) : Prop where
  gets_eq : next.gets = state.gets.set get { read with fanOut := fan }
  puts_eq : next.puts = state.puts
  stores_eq : next.stores = state.stores
  contacted_eq : fan.contacted = read.fanOut.contacted
  gather_eq : fan.gather = read.fanOut.gather
  result_eq : ∀ peer, (fan.calls peer).result =
    if peer ∈ targets then some (.ok (true, (state.stores peer).get read.key))
    else (read.fanOut.calls peer).result

theorem reads_heard (cluster : Cluster) {get : Nat} {read : GetOp V}
    (hget : state.gets[get]? = some read) (hadmitted : Admitted read.key)
    (hsafe : UrlSafe read.key) {targets : List Node} (hnodup : targets.Nodup)
    (hnodes : targets ⊆ cluster.config.nodes)
    (hcontacted : targets ⊆ read.fanOut.contacted)
    (hrunning : ∀ peer ∈ targets, (read.fanOut.calls peer).result = none) :
    ∃ next fan, Runs.Leads cluster.step (Action.Hears targets) state next ∧
      Heard get read targets state next fan := by
  induction targets generalizing state read with
  | nil =>
      refine ⟨state, read.fanOut, Runs.Leads.refl state, ?_, rfl, rfl, rfl, rfl, ?_⟩
      · obtain ⟨hbound, hself⟩ := List.getElem?_eq_some_iff.mp hget
        rw [← hself, List.set_getElem_self hbound]
      · simp
  | cons peer rest ih =>
      obtain ⟨hfresh, hrest⟩ := List.nodup_cons.mp hnodup
      have hbound := (List.getElem?_eq_some_iff.mp hget).1
      have hhear := reads_hear cluster hget hadmitted hsafe
        (hnodes List.mem_cons_self) (hcontacted List.mem_cons_self)
        (hrunning peer List.mem_cons_self)
      let heard : GetOp V := { read with
        fanOut := read.fanOut.answered entryOf peer
          (peerAnswer (state.stores peer) (some read.key)) }
      have hothers : ∀ other ∈ rest, (heard.fanOut.calls other).result = none := by
        intro other hother
        have hne : other ≠ peer := fun heq => hfresh (heq ▸ hother)
        rw [FanOut.result_answered, if_neg hne]
        exact hrunning other (List.mem_cons_of_mem _ hother)
      have hheard : (state.gets.set get heard)[get]? = some heard := List.getElem?_set_self hbound
      obtain ⟨next, fan, hlater, hcalls⟩ := @ih { state with gets := state.gets.set get heard }
        heard hheard hadmitted hsafe hrest
        (fun other hother => hnodes (List.mem_cons_of_mem _ hother))
        (fun other hother => hcontacted (List.mem_cons_of_mem _ hother)) hothers
      have hall : Runs.Leads cluster.step (Action.Hears (peer :: rest)) state next := by
        apply Runs.Leads.trans
        · exact hhear.mono fun _ => Action.Hears.mono (by simp)
        · exact hlater.mono fun _ => Action.Hears.mono (List.subset_cons_self peer rest)
      refine ⟨next, fan, hall, ?_, hcalls.puts_eq, hcalls.stores_eq,
        hcalls.contacted_eq, hcalls.gather_eq, ?_⟩
      · rw [hcalls.gets_eq, List.set_set]
      · intro other
        rw [hcalls.result_eq]
        by_cases heq : other = peer
        · subst heq
          rw [if_neg hfresh, if_pos List.mem_cons_self, FanOut.result_answered, if_pos rfl,
            entryOf_peerAnswer]
        · simp [heard, FanOut.result_answered, heq]

/-- The read is answered as soon as enough calls have returned. -/
theorem reads_collected (cluster : Cluster) {get : Nat} {read : GetOp V}
    (hget : state.gets[get]? = some read)
    (hgather : read.fanOut.gather = Gather.start read.fanOut.contacted (read.rRequired - 1))
    {targets : List Node} (hnodup : targets.Nodup) (hcontacted : targets ⊆ read.fanOut.contacted)
    (hlength : (targets.length : Int) = read.rRequired - 1)
    {value : Node → Option (VersionedValue V)}
    (hresults : ∀ peer ∈ targets, (read.fanOut.calls peer).result = some (.ok (true, value peer))) :
    ∃ next gather, cluster.ReadsTo state next ∧ next.gets = state.gets.set get { read with
        fanOut := { read.fanOut with gather := gather } } ∧
      next.puts = state.puts ∧ next.stores = state.stores ∧
      gather.exit = some (.ok (targets.map value)) := by
  by_cases htargets : targets = []
  · subst htargets
    have hexit : read.fanOut.gather.exit = some (.ok []) := by
      rw [hgather]
      exact Gather.exit_start_of_le _ (by simpa using hlength.ge)
    refine ⟨state, read.fanOut.gather, Runs.Leads.refl state, ?_, rfl, rfl, hexit⟩
    obtain ⟨hbound, hself⟩ := List.getElem?_eq_some_iff.mp hget
    rw [← hself, List.set_getElem_self hbound]
  · obtain ⟨gather, hwake, hexit⟩ := FanOut.wake_of_results hgather htargets hnodup hcontacted
      hlength hresults
    have hstep : cluster.step state (.wakeGet get (.done targets)) = some { state with
        gets := state.gets.set get { read with
          fanOut := { read.fanOut with gather := gather } } } := by
      simp only [step, hget, Option.bind_eq_bind, Option.bind_some, hwake]
      rfl
    exact ⟨_, gather, Runs.Leads.single hstep ⟨targets, rfl⟩, rfl, rfl, rfl, hexit⟩

/-- A sample of fewer peers than there are is what a read contacts. -/
theorem readPeers_eq_sample {peers sample : List Node} {needed : Int}
    (hlength : (sample.length : Int) = needed) (hmany : needed < peers.length) :
    readPeers peers needed sample = sample := by
  unfold readPeers selectReadPeers
  rw [if_neg (not_le.mpr hmany)]
  split
  · next hnone =>
      have hempty : sample.length = 0 := by omega
      exact (List.length_eq_zero_iff.mp hempty).symm
  · rfl

/-- A read contacts as many peers as it needs. -/
theorem length_readPeers {peers sample : List Node} {needed : Int} (hneeded : 0 ≤ needed)
    (henough : needed ≤ peers.length) (hsample : IsSample peers needed sample) :
    ((readPeers peers needed sample).length : Int) = needed := by
  unfold readPeers selectReadPeers
  split
  · next hnone => exact (Int.le_antisymm hnone hneeded).symm
  · split
    · next hall => exact Int.le_antisymm hall henough
    · next hall => exact (hsample.resolve_left hall).1

/-- A read may be answered from what its coordinator and its sample hold when it starts. -/
theorem reads_answered_of_started {key : String} (hadmitted : Admitted key) (hsafe : UrlSafe key)
    {reader : Node} (hreader : reader ∈ cluster.config.nodes) {r : Int}
    (hr : 1 ≤ r ∧ r ≤ cluster.size) {sample : List Node}
    (hsample : IsSample (cluster.peers reader) (r - 1) sample) :
    ∃ next read, cluster.ReadsTo { state with gets := state.gets ++
        [cluster.startGet reader key r ((state.stores reader).get key) sample] } next ∧
      next.gets = state.gets ++ [read] ∧
      next.puts = state.puts ∧ next.stores = state.stores ∧ read.key = key ∧
      read.rRequired = r ∧ read.answer cluster.config = some (.ok (getAnswer cluster.config key r
        ((state.stores reader).get key) ((readPeers (cluster.peers reader) (r - 1) sample).map
          fun peer => (state.stores peer).get key))) := by
  have hnodes : cluster.config.nodes.Nodup := cluster.ports_distinct.of_map
  have henough := Cluster.needed_le_peers hreader hr.2
  let asked := readPeers (cluster.peers reader) (r - 1) sample
  obtain ⟨hnodup, hsubset, _⟩ : asked.Nodup ∧ asked ⊆ cluster.peers reader ∧ _ :=
    readPeers_spec (ClusterConfig.peersExcluding_nodup hnodes _) hsample henough
  have hlength : (asked.length : Int) = r - 1 :=
    length_readPeers (by omega) henough hsample
  have hmembers : asked ⊆ cluster.config.nodes := fun node hnode =>
    (ClusterConfig.mem_peersExcluding.mp (hsubset hnode)).1
  let read := cluster.startGet reader key r ((state.stores reader).get key) sample
  have hread : (state.gets ++ [read])[state.gets.length]? = some read := by simp
  have hreadContacted : read.fanOut.contacted = asked := rfl
  have hgather : read.fanOut.gather = Gather.start asked (r - 1) := read_eq_start _ _ _
  let middle := { state with gets := state.gets ++ [read] }
  have hmiddle : middle.gets[state.gets.length]? = some read := hread
  obtain ⟨next, fan, hreaches, hheard⟩ := reads_heard cluster hmiddle hadmitted hsafe hnodup
    hmembers (hreadContacted ▸ List.Subset.refl _) fun peer _ => rfl
  let heard : GetOp V := { read with fanOut := fan }
  have hheardGet : next.gets[state.gets.length]? = some heard := by
    rw [hheard.gets_eq, List.getElem?_set_self (by simp [middle])]
  have hresults : ∀ peer ∈ asked,
      (heard.fanOut.calls peer).result = some (.ok (true, (state.stores peer).get key)) := by
    intro peer hpeer
    change (fan.calls peer).result = _
    rw [hheard.result_eq, if_pos hpeer]
    rfl
  obtain ⟨final, gather, hcollects, hgets, hputs, hstores, hexit⟩ := reads_collected cluster
    hheardGet (by rw [hheard.gather_eq, hheard.contacted_eq, hreadContacted, hgather]; rfl) hnodup
    (by rw [hheard.contacted_eq, hreadContacted]; exact List.Subset.refl _) hlength hresults
  refine ⟨final, { heard with fanOut := { fan with gather := gather } },
    (hreaches.mono fun _ => Action.Hears.reads).trans hcollects, ?_, ?_, ?_, rfl, rfl, ?_⟩
  · rw [hgets, hheard.gets_eq, List.set_set]
    change (state.gets ++ [read]).set state.gets.length _ = _
    rw [List.set_append_right _ _ (Nat.le_refl _), Nat.sub_self, List.set_cons_zero]
  · rw [hputs, hheard.puts_eq]
  · rw [hstores, hheard.stores_eq]
  · simp only [GetOp.answer, hexit, Option.map_some, Except.map]
    rfl

theorem reaches_answered {key : String} (hadmitted : Admitted key) (hsafe : UrlSafe key)
    {reader : Node} (hreader : reader ∈ cluster.config.nodes) {r : Int}
    (hr : 1 ≤ r ∧ r ≤ cluster.size) {sample : List Node}
    (hsample : IsSample (cluster.peers reader) (r - 1) sample) :
    ∃ next read, cluster.Reaches state next ∧ next.gets = state.gets ++ [read] ∧
      next.puts = state.puts ∧ next.stores = state.stores ∧ read.key = key ∧
      read.rRequired = r ∧ read.answer cluster.config = some (.ok (getAnswer cluster.config key r
        ((state.stores reader).get key) ((readPeers (cluster.peers reader) (r - 1) sample).map
          fun peer => (state.stores peer).get key))) := by
  have hget := step_get_of_accepted state hreader key hr hsample
  obtain ⟨next, read, hreads, hrest⟩ :=
    reads_answered_of_started hadmitted hsafe hreader hr hsample
  exact ⟨next, read, (Reaches.single hget trivial).trans hreads.reaches, hrest⟩

/-- Fewer peers than there are may be sampled as they are. -/
theorem isSample_of_lt {reader : Node} (hreader : reader ∈ cluster.config.nodes)
    {sample : List Node} (hnodup : sample.Nodup) (hpeers : sample ⊆ cluster.peers reader)
    {r : Int} (hlength : (sample.length : Int) = r - 1) (hr : r < cluster.size) :
    IsSample (cluster.peers reader) (r - 1) sample ∧
      readPeers (cluster.peers reader) (r - 1) sample = sample := by
  have hsize := ClusterConfig.length_peersExcluding
    (ClusterConfig.filter_port_eq_singleton cluster.ports_distinct hreader)
  have hmany : r - 1 < (cluster.peers reader).length := by
    unfold Cluster.size at hr
    unfold Cluster.peers
    omega
  exact ⟨Or.inr ⟨hlength, hnodup.subperm hpeers⟩, readPeers_eq_sample hlength hmany⟩

/-- The answer to a read whose nodes all hold `held`. -/
theorem getAnswer_of_held {held : Option (VersionedValue V)} {key : String} {reader : Node}
    {sample : List Node} {r : Int} (hlength : (sample.length : Int) = r - 1)
    (hheld : ∀ node ∈ reader :: sample, (state.stores node).get key = held) :
    getAnswer cluster.config key r ((state.stores reader).get key)
      (sample.map fun peer => (state.stores peer).get key) = heldAnswer key held := by
  have hagree : ∀ entry ∈ sample.map fun peer => (state.stores peer).get key, entry = held := by
    intro entry hentry
    obtain ⟨peer, hpeer, rfl⟩ := List.mem_map.mp hentry
    exact hheld peer (List.mem_cons_of_mem _ hpeer)
  rw [hheld reader List.mem_cons_self,
    getAnswer_of_agree (by rw [List.length_map]; omega) hagree]

/-- A read whose nodes all hold `held` may contact any `r - 1` peers. -/
theorem reaches_read {held : Option (VersionedValue V)} {key : String} (hadmitted : Admitted key)
    (hsafe : UrlSafe key) {reader : Node} (hreader : reader ∈ cluster.config.nodes)
    {sample : List Node} (hnodup : sample.Nodup) (hpeers : sample ⊆ cluster.peers reader)
    {r : Int} (hlength : (sample.length : Int) = r - 1) (hr : r < cluster.size)
    (hheld : ∀ node ∈ reader :: sample, (state.stores node).get key = held) :
    ∃ next read, cluster.Reaches state next ∧ next.gets = state.gets ++ [read] ∧
      next.puts = state.puts ∧ next.stores = state.stores ∧ read.key = key ∧
      read.rRequired = r ∧ read.answer cluster.config = some (.ok (heldAnswer key held)) := by
  obtain ⟨hsample, hasked⟩ := isSample_of_lt hreader hnodup hpeers hlength hr
  obtain ⟨next, read, hreaches, hgets, hputs, hstores, hkey, hrRequired, hanswer⟩ :=
    @reaches_answered V cluster state key hadmitted hsafe reader hreader r ⟨by omega, hr.le⟩
      sample hsample
  refine ⟨next, read, hreaches, hgets, hputs, hstores, hkey, hrRequired, ?_⟩
  rw [hanswer, hasked, getAnswer_of_held hlength hheld]

end Cluster

/-- Room for `first` and `second` different elements in a row. -/
theorem exists_split {α : Type} {elements : List α} {first second : Nat}
    (hroom : (first + 1) + (second + 1) ≤ elements.length) :
    ∃ head others next more rest, elements = head :: (others ++ next :: (more ++ rest)) ∧
      others.length = first ∧ more.length = second := by
  obtain ⟨head, tail, rfl⟩ := List.exists_cons_of_length_pos (l := elements) (by omega)
  rw [List.length_cons] at hroom
  obtain ⟨next, rest, hdrop⟩ := List.exists_cons_of_length_pos (l := tail.drop first)
    (by rw [List.length_drop]; omega)
  have hrest : rest.length + 1 = tail.length - first := by
    rw [← List.length_drop, hdrop, List.length_cons]
  refine ⟨head, tail.take first, next, rest.take second, rest.drop second, ?_, ?_, ?_⟩
  · rw [List.take_append_drop, ← hdrop, List.take_append_drop]
  · rw [List.length_take]
    omega
  · rw [List.length_take]
    omega

/-- A coordinator with peers that ack its write, and a reader with peers that answer it, none of
them among the former. -/
structure ApartQuorums (cluster : Cluster) (coordinator : Node) (acking : List Node)
    (reader : Node) (sample : List Node) : Prop where
  coordinator_mem : coordinator ∈ cluster.config.nodes
  acking_nodup : acking.Nodup
  acking_peers : acking ⊆ cluster.peers coordinator
  reader_mem : reader ∈ cluster.config.nodes
  sample_nodup : sample.Nodup
  sample_peers : sample ⊆ cluster.peers reader
  apart : ∀ node ∈ reader :: sample, node ∈ cluster.config.nodes ∧ node ∉ coordinator :: acking

/-- Two quorums that fit into the cluster side by side need not meet, even if the first node
is the coordinator. -/
theorem exists_apartQuorums {cluster : Cluster} {w r : Int} (hw : 1 ≤ w) (hr : 1 ≤ r)
    (hfit : w + r ≤ cluster.size) :
    ∃ coordinator acking reader sample, cluster.config.nodes[0]? = some coordinator ∧
      ApartQuorums cluster coordinator acking reader sample ∧
      (acking.length : Int) = w - 1 ∧ (sample.length : Int) = r - 1 := by
  have hroom : ((w - 1).toNat + 1) + ((r - 1).toNat + 1) ≤ cluster.config.nodes.length := by
    unfold Cluster.size at hfit
    omega
  obtain ⟨coordinator, acking, reader, sample, rest, hsplit, hacking, hsample⟩ := exists_split hroom
  have hnodup : cluster.config.nodes.Nodup := cluster.ports_distinct.of_map
  have hmem : ∀ node ∈ coordinator :: (acking ++ reader :: (sample ++ rest)),
      node ∈ cluster.config.nodes := fun node hnode => hsplit ▸ hnode
  rw [hsplit] at hnodup
  obtain ⟨hcoordinator, htail⟩ := List.nodup_cons.mp hnodup
  obtain ⟨hackingNodup, hreading, happart⟩ := List.nodup_append.mp htail
  obtain ⟨hreader, hrest⟩ := List.nodup_cons.mp hreading
  have hcoordinatorNode := hmem coordinator List.mem_cons_self
  have hreaderNode := hmem reader (by simp)
  refine ⟨coordinator, acking, reader, sample, by rw [hsplit]; rfl, ⟨hcoordinatorNode,
    hackingNodup, ?_, hreaderNode, hrest.of_append_left, ?_, ?_⟩, by omega, by omega⟩
  · intro node hnode
    refine Cluster.mem_peers_of_ne hcoordinatorNode (hmem node (by simp [hnode])) ?_
    rintro rfl
    exact hcoordinator (List.mem_append_left _ hnode)
  · intro node hnode
    refine Cluster.mem_peers_of_ne hreaderNode (hmem node (by simp [hnode])) ?_
    rintro rfl
    exact hreader (List.mem_append_left _ hnode)
  · intro node hnode
    have hlater : node ∈ reader :: (sample ++ rest) := by
      rcases List.mem_cons.mp hnode with rfl | hsampled
      · exact List.mem_cons_self
      · exact List.mem_cons_of_mem _ (List.mem_append_left _ hsampled)
    refine ⟨hmem node (List.mem_cons_of_mem _ (List.mem_append_right _ hlater)), fun hacked => ?_⟩
    rcases List.mem_cons.mp hacked with rfl | hacked
    · exact hcoordinator (List.mem_append_right _ hlater)
    · exact happart node hacked node hlater rfl

/-- A write answered 200 with `w` and a later read with `r` that is answered as if it had
not happened; the write goes on to reach every node. -/
structure MissedWrite (cluster : Cluster) (w r : Int) (key : String) (body : PutRequest V)
    (now : ℚ) (held : Option (VersionedValue V)) (state answered final settled : State V)
    (op : PutOp V) (read : GetOp V) : Prop where
  write_reaches : cluster.Reaches state answered
  answered_puts : answered.puts = state.puts ++ [op]
  write_key : op.key = key
  write_w : op.wRequired = w
  write_version : op.version = Server.stamp (cluster.nodeId op.coordinator) body (.finite now)
  write_answer : ∃ response, op.answer cluster.config = some (.ok (.ok response))
  read_reaches : cluster.Reaches answered final
  final_gets : final.gets = answered.gets ++ [read]
  read_key : read.key = key
  read_r : read.rRequired = r
  read_answer : read.answer cluster.config = some (.ok (Cluster.heldAnswer key held))
  write_settles : cluster.Reaches final settled
  settled_store : ∀ node ∈ cluster.config.nodes, (settled.stores node).get key = some op.version

/-- Where every node holds `held`, a newer write may be missed. -/
theorem exists_missed_write {cluster : Cluster} {w r : Int} (hw : 1 ≤ w) (hr : 1 ≤ r)
    (hfit : w + r ≤ cluster.size) {key : String} (hadmitted : Admitted key) (hsafe : UrlSafe key)
    (body : PutRequest V) (now : ℚ) {held : Option (VersionedValue V)} {state : State V}
    (hheld : ∀ node ∈ cluster.config.nodes, (state.stores node).get key = held)
    (hnewer : ∀ stored, held = some stored → ∀ nodeId,
      (Server.stamp nodeId body (.finite now)).Newer stored) :
    ∃ answered final settled op read,
      MissedWrite cluster w r key body now held state answered final settled op read := by
  obtain ⟨coordinator, acking, reader, sample, _, hquorums, hacking, hsample⟩ :=
    exists_apartQuorums hw hr hfit
  obtain ⟨answered, op, progress, hwrites, hwritten⟩ := Cluster.reaches_written hheld
    hquorums.coordinator_mem hquorums.acking_nodup hquorums.acking_peers hacking (by omega) rfl
    fun stored hstored => hnewer stored hstored _
  -- the nodes that are read are none of those that acked
  have hunread : ∀ node ∈ reader :: sample, (answered.stores node).get key = held := by
    intro node hnode
    obtain ⟨hmem, hnot⟩ := hquorums.apart node hnode
    rw [hwritten.get_store node hmem, if_neg hnot]
  obtain ⟨final, read, hreads, hgets, hputs, hstores, hkey, hreadR, hanswer⟩ :=
    Cluster.reaches_read hadmitted hsafe hquorums.reader_mem hquorums.sample_nodup
      hquorums.sample_peers hsample (by omega) hunread
  obtain ⟨settled, hsettles, _, hsettled⟩ := hwritten.settles
    (fun stored hstored => hnewer stored hstored _) hputs hstores
  refine ⟨answered, final, settled, op, read, hwrites, hwritten.puts_eq, hwritten.key_eq,
    hwritten.wRequired_eq, ?_, ⟨_, hwritten.answered⟩, hreads, hgets, hkey, hreadR, hanswer,
    hsettles, ?_⟩
  · rw [hwritten.version_eq, hwritten.coordinator_eq]
  · rw [hwritten.version_eq]
    exact hsettled

/-- Where `w + r` is at most the cluster size, runs that lose no message have a write
answered 200 with `w` and a later read with `r` answered 404, or answered 200 with an
older version that had reached every node. -/
theorem quorum_bound_tight (cluster : Cluster) {w r : Int} (hw : 1 ≤ w) (hr : 1 ≤ r)
    (hfit : w + r ≤ cluster.size) {key : String} (hadmitted : Admitted key)
    (hsafe : UrlSafe key) (body : PutRequest V) (now : ℚ) :
    (∃ answered final settled op read,
      MissedWrite cluster w r key body now none Cluster.init answered final settled op read) ∧
    ∀ (oldBody : PutRequest V) (earlier : ℚ), earlier < now →
      ∃ (spread : State V) (old : VersionedValue V), cluster.Reaches Cluster.init spread ∧
        old.value = oldBody.value ∧ old.timestamp = .finite earlier ∧
        (∀ node ∈ cluster.config.nodes, (spread.stores node).get key = some old) ∧
        ∃ answered final settled op read, MissedWrite cluster w r key body now (some old) spread
          answered final settled op read := by
  have hempty : ∀ node ∈ cluster.config.nodes,
      ((Cluster.init : State V).stores node).get key = none := fun _ _ => KVStore.get_init key
  constructor
  · exact exists_missed_write hw hr hfit hadmitted hsafe body now hempty
      fun stored hstored => by cases hstored
  · intro oldBody earlier hearlier
    obtain ⟨answered, final, spread, op, read, hmissed⟩ := exists_missed_write hw hr hfit hadmitted
      hsafe oldBody earlier hempty fun stored hstored => by cases hstored
    refine ⟨spread, op.version, (hmissed.write_reaches.trans hmissed.read_reaches).trans
      hmissed.write_settles, ?_, ?_, hmissed.settled_store, ?_⟩
    · rw [hmissed.write_version]
      rfl
    · rw [hmissed.write_version]
      rfl
    · refine exists_missed_write hw hr hfit hadmitted hsafe body now hmissed.settled_store ?_
      intro stored hstored nodeId
      obtain rfl := Option.some.inj hstored
      rw [hmissed.write_version]
      exact VersionedValue.newer_iff.mpr (Or.inl (decide_eq_true hearlier))

/-- Two nodes, and quorums of one. -/
theorem pair_write_missed :
    (∃ answered final settled op read, MissedWrite pairCluster 1 1 "k" (⟨7⟩ : PutRequest Nat) 2 none
      Cluster.init answered final settled op read) ∧
    ∃ (spread : State Nat) (old : VersionedValue Nat), pairCluster.Reaches Cluster.init spread ∧
      old.value = 6 ∧ (∀ node ∈ pairCluster.config.nodes, (spread.stores node).get "k" = some old) ∧
      ∃ answered final settled op read, MissedWrite pairCluster 1 1 "k" ⟨7⟩ 2 (some old) spread
        answered final settled op read := by
  have hadmitted : Admitted "k" := by decide
  have htight := quorum_bound_tight (V := Nat) pairCluster (w := 1) (r := 1) (by decide) (by decide)
    (by decide) hadmitted (urlSafe_of_plain (by decide)) ⟨7⟩ 2
  obtain ⟨spread, old, hspread, hvalue, _, hheld, hmissed⟩ := htight.2 ⟨6⟩ 1 one_lt_two
  exact ⟨htight.1, spread, old, hspread, hvalue, hheld, hmissed⟩

end KvReplication.Leaderless
