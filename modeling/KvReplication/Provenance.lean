import KvReplication.LeaderFollower.Durability
import KvReplication.Leaderless.Writes
import KvReplication.MessageQueue.System

/-! # Where versions come from

Under every strategy a version is stamped once, by the node that takes the write, and
then carried along: to the node's own store, in replicate payloads, in messages and into
the other stores. So whatever a store or a payload has under a key was stamped by a write
of that key, deletes, losses and repetitions notwithstanding.
-/

namespace KvReplication

namespace LeaderFollower

variable {V : Type} {cluster : Cluster} {state next : State V}

/-- A write of `key` put `version` on it at the node that took the write. -/
def Cluster.StampedBy (cluster : Cluster) (history : List (Action V)) (key : String)
    (version : VersionedValue V) : Prop :=
  ∃ site body now, .stamp site key body now ∈ history ∧ cluster.HasSite site ∧
    version = Server.stamp (cluster.idOf site) body (.finite now)

/-- The replicate payloads of the writes whose sends were started. -/
def State.inFlight (state : State V) : List (ReplicateRequest V) :=
  state.puts.filterMap fun op => op.progress.map fun _ => payload op.key op.version

theorem Cluster.StampedBy.append {history : List (Action V)} {key : String}
    {version : VersionedValue V} (hstamped : cluster.StampedBy history key version)
    (action : Action V) : cluster.StampedBy (history ++ [action]) key version := by
  obtain ⟨site, body, now, hmem, hstamp⟩ := hstamped
  exact ⟨site, body, now, List.mem_append_left _ hmem, hstamp⟩

/-- A write of the cluster is one from before, or the action has just stamped it. -/
theorem mem_puts_of_change {action : Action V} (hchange : cluster.Change state action next)
    {op : PutOp V} (hop : op ∈ next.puts) :
    (∃ old ∈ state.puts, old.key = op.key ∧ old.version = op.version) ∨
      cluster.StampedBy [action] op.key op.version := by
  have hset : ∀ (put : Nat) (old changed : PutOp V), state.puts[put]? = some old →
      op ∈ state.puts.set put changed → changed.key = old.key → changed.version = old.version →
      ∃ old ∈ state.puts, old.key = op.key ∧ old.version = op.version := by
    intro put old changed hold hmem hkey hversion
    obtain ⟨earlier, hearlier, hview⟩ := Records.exists_mem_of_mem_set
      (fun op : PutOp V => (op.key, op.version)) hold (by rw [hkey, hversion]) hmem
    exact ⟨earlier, hearlier, Prod.mk.inj hview⟩
  cases hchange with
  | @stamp site key body now hsite =>
      rcases List.mem_append.mp hop with hold | hnew
      · exact Or.inl ⟨op, hold, rfl, rfl⟩
      · rw [List.mem_singleton.mp hnew]
        exact Or.inr ⟨site, body, now, List.mem_singleton_self _, hsite, rfl⟩
  | localPut hold => exact Or.inl (hset _ _ _ hold hop rfl rfl)
  | handleReplicate hold => exact Or.inl (hset _ _ _ hold hop rfl rfl)
  | send _ _ hold => exact Or.inl (hset _ _ _ hold hop rfl rfl)
  | wake hold => exact Or.inl (hset _ _ _ hold hop rfl rfl)
  | shutdown => exact Or.inl ⟨op, hop, rfl, rfl⟩
  | delete => exact Or.inl ⟨op, hop, rfl, rfl⟩

/-- Whatever the writes and the stores have was stamped. -/
structure State.Stamped (cluster : Cluster) (history : List (Action V)) (state : State V) :
    Prop where
  puts : ∀ op ∈ state.puts, cluster.StampedBy history op.key op.version
  stored : ∀ site key entry, (state.stores site).get key = some entry →
    cluster.StampedBy history key entry

theorem State.Stamped.init : (Cluster.init : State V).Stamped cluster [] where
  puts op hop := by simp [Cluster.init] at hop
  stored site key entry hentry := by simp [Cluster.init] at hentry

theorem State.Stamped.step {history : List (Action V)} (hstamped : state.Stamped cluster history)
    {action : Action V} (hnext : cluster.step state action = some next) :
    next.Stamped cluster (history ++ [action]) where
  puts op hop := by
    rcases mem_puts_of_change (cluster.change_of_step hnext) hop with
      ⟨old, hold, hkey, hversion⟩ | ⟨site, body, now, hmem, hstamp⟩
    · rw [← hkey, ← hversion]
      exact (hstamped.puts old hold).append action
    · exact ⟨site, body, now, List.mem_append_right _ hmem, hstamp⟩
  stored site key entry hentry := by
    rcases stored_of_change (cluster.change_of_step hnext) hentry with
      hold | ⟨op, hwrites, rfl, rfl⟩
    · exact (hstamped.stored site key entry hold).append action
    · exact (hstamped.puts op hwrites.mem).append action

theorem State.Stamped.run {actions : List (Action V)}
    (hrun : Runs.run cluster.step Cluster.init actions = some state) :
    state.Stamped cluster actions :=
  Runs.run_history_invariant (fun history state => state.Stamped cluster history)
    (fun _ _ _ _ hstamped hnext => hstamped.step hnext) State.Stamped.init hrun

theorem State.Stamped.inFlight {history : List (Action V)}
    (hstamped : state.Stamped cluster history) :
    ∀ body ∈ state.inFlight, cluster.StampedBy history body.key body.version := by
  intro body hbody
  obtain ⟨op, hop, hpayload⟩ := List.mem_filterMap.mp hbody
  obtain ⟨_, _, rfl⟩ := Option.map_eq_some_iff.mp hpayload
  exact hstamped.puts op hop

end LeaderFollower

namespace Leaderless

variable {V : Type} {cluster : Cluster} {state next : State V}

/-- A write of `key` with an accepted quorum put `version` on it at its coordinator. -/
def Cluster.StampedBy (cluster : Cluster) (history : List (Action V)) (key : String)
    (version : VersionedValue V) : Prop :=
  ∃ node w body now, .stamp node key w body now ∈ history ∧ node ∈ cluster.config.nodes ∧
    validateQuorumParam (w.getD cluster.config.defaultW) "w" cluster.size = .ok () ∧
    version = Server.stamp (cluster.nodeId node) body (.finite now)

/-- The replicate payloads of the writes whose calls were started. -/
def State.inFlight (state : State V) : List (ReplicateRequest V) :=
  state.puts.filterMap fun op => op.progress.map fun _ => payload op.key op.version

/-- A read, a step of one, or a write whose quorum is answered 422. -/
def Cluster.AddsNothing (cluster : Cluster) : Action V → Prop
  | .get _ _ _ _ | .handleRead _ _ | .finishRead _ _ _ | .wakeGet _ _ => True
  | .stamp _ _ w _ _ =>
      validateQuorumParam (w.getD cluster.config.defaultW) "w" cluster.size ≠ .ok ()
  | _ => False

theorem Cluster.StampedBy.append {history : List (Action V)} {key : String}
    {version : VersionedValue V} (hstamped : cluster.StampedBy history key version)
    (action : Action V) : cluster.StampedBy (history ++ [action]) key version := by
  obtain ⟨node, w, body, now, hmem, hstamp⟩ := hstamped
  exact ⟨node, w, body, now, List.mem_append_left _ hmem, hstamp⟩

/-- A write is stamped with an accepted quorum, or it changes nothing. -/
theorem stamp_cases {node : Node} {key : String} {w : Option Int} {body : PutRequest V} {now : ℚ}
    (hnext : cluster.step state (.stamp node key w body now) = some next) :
    (validateQuorumParam (w.getD cluster.config.defaultW) "w" cluster.size ≠ .ok () ∧
        next = state) ∨
      (validateQuorumParam (w.getD cluster.config.defaultW) "w" cluster.size = .ok () ∧
        node ∈ cluster.config.nodes ∧ ∃ wRequired, next =
          { state with puts := state.puts ++ [cluster.stampPut node key wRequired body now] }) := by
  simp only [Cluster.step, Option.bind_eq_bind, Option.bind_eq_some_iff,
    Option.guard_eq_some'] at hnext
  obtain ⟨_, hnode, hnext⟩ := hnext
  cases hvalid : validateQuorumParam (w.getD cluster.config.defaultW) "w" cluster.size with
  | error exception =>
      rw [hvalid] at hnext
      exact Or.inl ⟨by simp, (Option.some.inj hnext).symm⟩
  | ok accepted =>
      rw [hvalid] at hnext
      exact Or.inr ⟨rfl, hnode, _, (Option.some.inj hnext).symm⟩

theorem adds_nothing_of_step {action : Action V} (haction : cluster.AddsNothing action)
    (hnext : cluster.step state action = some next) :
    next.stores = state.stores ∧ next.puts = state.puts := by
  cases action with
  | stamp node key w body now =>
      rcases stamp_cases hnext with ⟨_, rfl⟩ | ⟨hvalid, _⟩
      · exact ⟨rfl, rfl⟩
      · exact absurd hvalid haction
  | get node key r sample =>
      rcases Cluster.step_get hnext with rfl | ⟨_, _, _, _, rfl⟩
      · exact ⟨rfl, rfl⟩
      · exact ⟨rfl, rfl⟩
  | handleRead get peer =>
      obtain ⟨_, _, _, _, _, _, rfl⟩ := Cluster.step_handleRead hnext
      exact ⟨rfl, rfl⟩
  | finishRead get peer failure =>
      obtain ⟨_, _, _, _, rfl⟩ := Cluster.step_finishRead hnext
      exact ⟨rfl, rfl⟩
  | wakeGet get signal =>
      obtain ⟨_, _, _, _, rfl⟩ := Cluster.step_wakeGet hnext
      exact ⟨rfl, rfl⟩
  | localPut => exact haction.elim
  | handleReplicate => exact haction.elim
  | finishReplicate => exact haction.elim
  | wakePut => exact haction.elim
  | delete => exact haction.elim

/-- A write of the cluster is one from before, or the action has just stamped it. -/
theorem mem_puts_of_step {action : Action V} (hnext : cluster.step state action = some next)
    {op : PutOp V} (hop : op ∈ next.puts) :
    (∃ old ∈ state.puts, old.key = op.key ∧ old.version = op.version) ∨
      cluster.StampedBy [action] op.key op.version := by
  have hkeep : op ∈ state.puts → ∃ old ∈ state.puts, old.key = op.key ∧
      old.version = op.version := fun hmem => ⟨op, hmem, rfl, rfl⟩
  have hread : cluster.AddsNothing action → op ∈ state.puts := fun hadds =>
    (adds_nothing_of_step hadds hnext).2 ▸ hop
  have hset : ∀ (put : Nat) (old changed : PutOp V), state.puts[put]? = some old →
      op ∈ state.puts.set put changed → changed.key = old.key → changed.version = old.version →
      ∃ old ∈ state.puts, old.key = op.key ∧ old.version = op.version := by
    intro put old changed hold hmem hkey hversion
    obtain ⟨earlier, hearlier, hview⟩ := Records.exists_mem_of_mem_set
      (fun op : PutOp V => (op.key, op.version)) hold (by rw [hkey, hversion]) hmem
    exact ⟨earlier, hearlier, Prod.mk.inj hview⟩
  cases action with
  | stamp node key w body now =>
      rcases stamp_cases hnext with ⟨_, rfl⟩ | ⟨hvalid, hnode, _, rfl⟩
      · exact Or.inl (hkeep hop)
      · rcases List.mem_append.mp hop with hold | hnew
        · exact Or.inl (hkeep hold)
        · rw [List.mem_singleton.mp hnew]
          exact Or.inr ⟨node, w, body, now, List.mem_singleton_self _, hnode, hvalid, rfl⟩
  | localPut put =>
      obtain ⟨old, hold, _, _, _, rfl⟩ := Cluster.step_localPut hnext
      exact Or.inl (hset put old _ hold hop rfl rfl)
  | handleReplicate put peer =>
      obtain ⟨old, hold, _, _, _, _, _, rfl⟩ := Cluster.step_handleReplicate hnext
      exact Or.inl (hset put old _ hold hop rfl rfl)
  | finishReplicate put peer failure =>
      obtain ⟨old, hold, _, _, _, _, rfl⟩ := Cluster.step_finishReplicate hnext
      exact Or.inl (hset put old _ hold hop rfl rfl)
  | wakePut put signal =>
      obtain ⟨old, hold, _, _, _, _, rfl⟩ := Cluster.step_wakePut hnext
      exact Or.inl (hset put old _ hold hop rfl rfl)
  | get node key r sample => exact Or.inl (hkeep (hread trivial))
  | handleRead get peer => exact Or.inl (hkeep (hread trivial))
  | finishRead get peer failure => exact Or.inl (hkeep (hread trivial))
  | wakeGet get signal => exact Or.inl (hkeep (hread trivial))
  | delete node key =>
      obtain ⟨_, rfl⟩ := Cluster.step_delete hnext
      exact Or.inl (hkeep hop)

/-- Whatever the writes and the stores have was stamped. -/
structure State.Stamped (cluster : Cluster) (history : List (Action V)) (state : State V) :
    Prop where
  puts : ∀ op ∈ state.puts, cluster.StampedBy history op.key op.version
  stored : ∀ node key entry, (state.stores node).get key = some entry →
    cluster.StampedBy history key entry

theorem State.Stamped.init : (Cluster.init : State V).Stamped cluster [] where
  puts op hop := by simp [Cluster.init] at hop
  stored node key entry hentry := by simp [Cluster.init] at hentry

theorem State.Stamped.step {history : List (Action V)} (hstamped : state.Stamped cluster history)
    {action : Action V} (hnext : cluster.step state action = some next) :
    next.Stamped cluster (history ++ [action]) where
  puts op hop := by
    rcases mem_puts_of_step hnext hop with
      ⟨old, hold, hkey, hversion⟩ | ⟨node, w, body, now, hmem, hstamp⟩
    · rw [← hkey, ← hversion]
      exact (hstamped.puts old hold).append action
    · exact ⟨node, w, body, now, List.mem_append_right _ hmem, hstamp⟩
  stored node key entry hentry := by
    rcases stored_of_step hnext hentry with hold | ⟨op, hwrites, rfl, rfl⟩
    · exact (hstamped.stored node key entry hold).append action
    · exact (hstamped.puts op hwrites.mem).append action

theorem State.Stamped.run {actions : List (Action V)}
    (hrun : Runs.run cluster.step Cluster.init actions = some state) :
    state.Stamped cluster actions :=
  Runs.run_history_invariant (fun history state => state.Stamped cluster history)
    (fun _ _ _ _ hstamped hnext => hstamped.step hnext) State.Stamped.init hrun

theorem State.Stamped.inFlight {history : List (Action V)}
    (hstamped : state.Stamped cluster history) :
    ∀ body ∈ state.inFlight, cluster.StampedBy history body.key body.version := by
  intro body hbody
  obtain ⟨op, hop, hpayload⟩ := List.mem_filterMap.mp hbody
  obtain ⟨_, _, rfl⟩ := Option.map_eq_some_iff.mp hpayload
  exact hstamped.puts op hop

end Leaderless

variable {V Bytes Follower : Type} [DecidableEq Follower] {partitions : Nat}

/-- Under each strategy every version in a store, in a payload in flight or in a message was
stamped, as it is there, by one write of its key at the node that took that write; reads
and rejected writes add nothing. -/
theorem no_version_out_of_thin_air (codec : MessageQueue.Codec V Bytes)
    (hroundtrip : ∀ request raw, codec.dumpJson request = .ok raw →
      codec.validateJson raw = some request) (followerId : Follower → String) :
    (∀ (cluster : LeaderFollower.Cluster) (actions : List (LeaderFollower.Action V)) state,
      Runs.run cluster.step LeaderFollower.Cluster.init actions = some state →
      (∀ site key entry, (state.stores site).get key = some entry →
        cluster.StampedBy actions key entry) ∧
      ∀ body ∈ state.inFlight, cluster.StampedBy actions body.key body.version) ∧
    (∀ (cluster : Leaderless.Cluster) (actions : List (Leaderless.Action V)) state,
      Runs.run cluster.step Leaderless.Cluster.init actions = some state →
      (∀ node key entry, (state.stores node).get key = some entry →
        cluster.StampedBy actions key entry) ∧
      (∀ body ∈ state.inFlight, cluster.StampedBy actions body.key body.version) ∧
      (∀ action next, cluster.AddsNothing action → cluster.step state action = some next →
        next.stores = state.stores ∧ next.puts = state.puts) ∧
      ∀ (storage : KVStore V) body, Leaderless.replicateWithInjectedDelay storage body =
        Server.replicate storage body) ∧
    ∀ (actions : List (MessageQueue.DeploymentAction V Follower partitions)) state,
      Runs.run (MessageQueue.Deployment.step codec followerId) MessageQueue.Deployment.init
        actions = some state →
      (∀ follower key entry, (state.followers follower).store.get key = some entry →
        MessageQueue.StampedBy followerId actions key entry) ∧
      (∀ op ∈ state.puts, ∀ message, op.message = some message →
        message.1 = op.key.toUTF8 ∧ ∃ parsed, codec.validateJson message.2 = some parsed ∧
          parsed.key = op.key ∧ MessageQueue.StampedBy followerId actions op.key parsed.version) ∧
      ∀ partition, ∀ raw ∈ state.log partition, ∃ parsed,
        codec.validateJson raw = some parsed ∧
          MessageQueue.StampedBy followerId actions parsed.key parsed.version := by
  refine ⟨?_, ?_, ?_⟩
  · intro cluster actions state hrun
    have hstamped := LeaderFollower.State.Stamped.run hrun
    exact ⟨hstamped.stored, hstamped.inFlight⟩
  · intro cluster actions state hrun
    have hstamped := Leaderless.State.Stamped.run hrun
    exact ⟨hstamped.stored, hstamped.inFlight,
      fun _ _ hadds hnext => Leaderless.adds_nothing_of_step hadds hnext, fun _ _ => rfl⟩
  · intro actions state hrun
    have hsound := MessageQueue.Deployment.Sound.run hroundtrip hrun
    refine ⟨fun follower => (hsound.followers follower).stored, ?_, hsound.log⟩
    intro op hop message hmessage
    obtain ⟨hstamped, hmessages⟩ := hsound.puts op hop
    obtain ⟨hkey, hparsed⟩ := hmessages message hmessage
    exact ⟨hkey, _, hparsed, rfl, hstamped⟩

/-- A write that a producer publishes and a follower applies. -/
def publishedWrite : List (MessageQueue.DeploymentAction Nat Unit 2) :=
  [.put (.producer "producer-1") "k" ⟨7⟩ 1, .append 0 (Fin.last 1),
    .consume () (.receive (Fin.last 1)), .consume () .apply, .consume () .commit]

/-- A write that a coordinator sends to its peer. -/
def floodedWrite : List (Leaderless.Action Nat) :=
  [.stamp ⟨"localhost", 8101⟩ "k" (some 2) ⟨7⟩ 1, .localPut 0,
    .handleReplicate 0 ⟨"localhost", 8102⟩]

theorem carried_writes_were_stamped :
    LeaderFollower.soloCluster.StampedBy LeaderFollower.soloWrite "k" ⟨7, .finite 1, "leader"⟩ ∧
    Leaderless.pairCluster.StampedBy floodedWrite "k" ⟨7, .finite 1, "node-1"⟩ ∧
    MessageQueue.StampedBy (fun _ => "follower-1") publishedWrite "k"
      ⟨7, .finite 1, "producer-1"⟩ := by
  have hroundtrip : ∀ (request : ReplicateRequest Nat) raw,
      MessageQueue.plainCodec.dumpJson request = .ok raw →
        MessageQueue.plainCodec.validateJson raw = some request := by
    rintro request raw ⟨⟩
    rfl
  obtain ⟨hleader, hnodes, hqueue⟩ :=
    no_version_out_of_thin_air MessageQueue.plainCodec hroundtrip fun _ : Unit => "follower-1"
  exact ⟨(hleader _ _ _ rfl).1 (.follower ⟨"localhost", 8001⟩) "k" _ (by decide),
    (hnodes _ _ _ rfl).1 ⟨"localhost", 8102⟩ "k" _ (by decide),
    (hqueue publishedWrite _ rfl).1 () "k" _ (by decide)⟩

end KvReplication
