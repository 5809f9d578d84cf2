import KvReplication.Common.Stores
import KvReplication.Leaderless.FanOut
import KvReplication.Leaderless.ReadUrl

/-! # The leaderless cluster

The nodes' stores and the requests under way. Every action is what one node does
between two points at which others may act: the stamp of a write and the local
write that follows it are two actions, since replicate calls and deletes of other
requests are handled in between. Nodes do not restart.
-/

namespace KvReplication.Leaderless

open LastWriterWins WaitLoop

/-- A cluster whose nodes each serve on the port of their own config entry. -/
structure Cluster where
  config : ClusterConfig
  nodeId : Node → String
  http : HttpClient
  ports_distinct : (config.nodes.map Node.port).Nodup
  addressable : ∀ node ∈ config.nodes, node.Addressable

/-- Two nodes on one host. -/
def pairCluster : Cluster where
  config := ⟨[⟨"localhost", 8101⟩, ⟨"localhost", 8102⟩], 1, 1, .finite 2⟩
  nodeId node := if node.port = 8101 then "node-1" else "node-2"
  http := plainHttpClient
  ports_distinct := by decide
  addressable := by decide

/-- The task around one `/internal/replicate` call to a node of this cluster. An
error status reaches it as the `HTTPError` of `raise_for_status`. -/
def ackOf (reply : Except PyError ReplicateResponse) : Except PyError (Bool × Unit) :=
  match reply with
  | .error error => replicateOutcome (.error error)
  | .ok response => replicateOutcome (replyOf (.ok response))

/-- The task around one `/internal/kv/{key}` call to a node of this cluster. -/
def entryOf {V : Type} (reply : Except PyError (Except HttpException (KVResponse V))) :
    Except PyError (Bool × Option (VersionedValue V)) :=
  match reply with
  | .error error => readOutcome (.error error)
  | .ok answer => readOutcome (replyOf answer)

/-- What a write has reached after its local write: whether that was applied, and
the replicate calls. -/
structure PutProgress where
  localApplied : Bool
  fanOut : FanOut ReplicateResponse Unit

/-- A `PUT /kv/{key}` whose `w` was accepted and whose version is stamped. -/
structure PutOp (V : Type) where
  coordinator : Node
  key : String
  wRequired : Int
  version : VersionedValue V
  progress : Option PutProgress

/-- A `GET /kv/{key}` whose `r` was accepted, from its local read on. -/
structure GetOp (V : Type) where
  coordinator : Node
  key : String
  rRequired : Int
  localEntry : Option (VersionedValue V)
  fanOut : FanOut (Except HttpException (KVResponse V)) (Option (VersionedValue V))

structure State (V : Type) where
  stores : Node → KVStore V
  puts : List (PutOp V)
  gets : List (GetOp V)

inductive Action (V : Type) where
  /-- A node accepts a write and reads its clock. -/
  | stamp (node : Node) (key : String) (w : Option Int) (body : PutRequest V) (now : ℚ)
  /-- The coordinator writes locally and starts the replicate calls. -/
  | localPut (put : Nat)
  | handleReplicate (put : Nat) (peer : Node)
  | finishReplicate (put : Nat) (peer : Node) (failure : Option PyError)
  | wakePut (put : Nat) (signal : Signal Node)
  /-- A node accepts a read, reads locally and starts the calls to `sample`. -/
  | get (node : Node) (key : String) (r : Option Int) (sample : List Node)
  | handleRead (get : Nat) (peer : Node)
  | finishRead (get : Nat) (peer : Node) (failure : Option PyError)
  | wakeGet (get : Nat) (signal : Signal Node)
  | delete (node : Node) (key : String)

variable {V : Type}

/-- The answer of a write: `put_key_coordinator` raises what the loop raised. -/
def PutOp.answer (config : ClusterConfig) (op : PutOp V) :
    Option (Except PyError (Except HttpException PutResponse)) := do
  let progress ← op.progress
  let outcome ← progress.fanOut.gather.exit
  return outcome.map fun acked =>
    putAnswer config op.wRequired progress.localApplied op.version.timestamp acked.length

/-- The answer of a read. -/
def GetOp.answer (config : ClusterConfig) (op : GetOp V) :
    Option (Except PyError (Except HttpException (KVResponse V))) :=
  op.fanOut.gather.exit.map fun outcome =>
    outcome.map fun entries => getAnswer config op.key op.rRequired op.localEntry entries

/-- Continue a write with `fan` for its calls. -/
def PutOp.withFanOut (op : PutOp V) (progress : PutProgress)
    (fan : FanOut ReplicateResponse Unit) : PutOp V :=
  { op with progress := some { progress with fanOut := fan } }

namespace Cluster

variable (cluster : Cluster)

/-- Every node before the first request. -/
def init : State V := ⟨fun _ => KVStore.init, [], []⟩

def peers (node : Node) : List Node := cluster.config.peersExcluding node.port

def size : Nat := cluster.config.nodes.length

/-- The write a node has just accepted. -/
def stampPut (node : Node) (key : String) (wRequired : Int) (body : PutRequest V) (now : ℚ) :
    PutOp V :=
  ⟨node, key, wRequired, Server.stamp (cluster.nodeId node) body (.finite now), none⟩

/-- The write after its local write: every peer is called. -/
def startPut (op : PutOp V) (localApplied : Bool) : PutOp V :=
  let peers := cluster.peers op.coordinator
  let fan := FanOut.start peers (replicateWrite peers (op.wRequired - 1))
  { op with progress := some ⟨localApplied, fan⟩ }

/-- The read a node has just accepted. -/
def startGet (node : Node) (key : String) (rRequired : Int)
    (localEntry : Option (VersionedValue V)) (sample : List Node) : GetOp V :=
  let peers := cluster.peers node
  let needed := rRequired - 1
  ⟨node, key, rRequired, localEntry,
    FanOut.start (readPeers peers needed sample) (read peers needed sample)⟩

/-- One action; an action that is not enabled is refused. A request with a bad
quorum parameter is answered 422 and changes nothing. -/
def step (state : State V) : Action V → Option (State V)
  | .stamp node key w body now => do
      guard (node ∈ cluster.config.nodes)
      let wRequired := w.getD cluster.config.defaultW
      match validateQuorumParam wRequired "w" cluster.size with
      | .error _ => return state
      | .ok () =>
          return { state with puts := state.puts ++ [cluster.stampPut node key wRequired body now] }
  | .localPut put => do
      let op ← state.puts[put]?
      guard op.progress.isNone
      let (storage, response) := Server.putKey (state.stores op.coordinator) op.key op.version
      return { state with
        stores := Function.update state.stores op.coordinator storage
        puts := state.puts.set put (cluster.startPut op response.applied) }
  | .handleReplicate put peer => do
      let op ← state.puts[put]?
      let progress ← op.progress
      let (storage, response) := Server.replicate (state.stores peer) (payload op.key op.version)
      let fan ← progress.fanOut.deliver peer response
      return { state with
        stores := Function.update state.stores peer storage
        puts := state.puts.set put (op.withFanOut progress fan) }
  | .finishReplicate put peer failure => do
      let op ← state.puts[put]?
      let progress ← op.progress
      let fan ← progress.fanOut.finish ackOf peer failure
      return { state with puts := state.puts.set put (op.withFanOut progress fan) }
  | .wakePut put signal => do
      let op ← state.puts[put]?
      let progress ← op.progress
      let fan ← progress.fanOut.wake (op.wRequired - 1) signal
      return { state with puts := state.puts.set put (op.withFanOut progress fan) }
  | .get node key r sample => do
      guard (node ∈ cluster.config.nodes)
      let rRequired := r.getD cluster.config.defaultR
      match validateQuorumParam rRequired "r" cluster.size with
      | .error _ => return state
      | .ok () =>
          guard (IsSample (cluster.peers node) (rRequired - 1) sample)
          let op := cluster.startGet node key rRequired ((state.stores node).get key) sample
          return { state with gets := state.gets ++ [op] }
  | .handleRead get peer => do
      let op ← state.gets[get]?
      let route ← (lookupKey cluster.http peer op.key).toOption
      let fan ← op.fanOut.deliver peer (peerAnswer (state.stores peer) route)
      return { state with gets := state.gets.set get { op with fanOut := fan } }
  | .finishRead get peer failure => do
      let op ← state.gets[get]?
      let fan ← op.fanOut.finish entryOf peer failure
      return { state with gets := state.gets.set get { op with fanOut := fan } }
  | .wakeGet get signal => do
      let op ← state.gets[get]?
      let fan ← op.fanOut.wake (op.rRequired - 1) signal
      return { state with gets := state.gets.set get { op with fanOut := fan } }
  | .delete node key => do
      guard (node ∈ cluster.config.nodes)
      let (storage, _) := Server.deleteKey (state.stores node) key
      return { state with stores := Function.update state.stores node storage }

/-! ### What one action does -/

section Steps

variable {cluster} {state next : State V}

theorem step_stamp {node : Node} {key : String} {w : Option Int} {body : PutRequest V} {now : ℚ}
    (hnext : cluster.step state (.stamp node key w body now) = some next) :
    next = state ∨ ∃ wRequired : Int, (1 ≤ wRequired ∧ wRequired ≤ cluster.size) ∧
      node ∈ cluster.config.nodes ∧ next =
        { state with puts := state.puts ++ [cluster.stampPut node key wRequired body now] } := by
  simp only [step, Option.bind_eq_bind, Option.bind_eq_some_iff, Option.guard_eq_some'] at hnext
  obtain ⟨_, hnode, hnext⟩ := hnext
  cases hvalid : validateQuorumParam (w.getD cluster.config.defaultW) "w" cluster.size with
  | error exception =>
      rw [hvalid] at hnext
      exact Or.inl (Option.some.inj hnext).symm
  | ok accepted =>
      rw [hvalid] at hnext
      exact Or.inr ⟨_, validateQuorumParam_eq_ok_iff.mp hvalid, hnode,
        (Option.some.inj hnext).symm⟩

theorem step_localPut {put : Nat} (hnext : cluster.step state (.localPut put) = some next) :
    ∃ op, state.puts[put]? = some op ∧ op.progress = none ∧
      ∃ localApplied, ((state.stores op.coordinator).put op.key op.version.value
        op.version.timestamp op.version.nodeId).2 = localApplied ∧ next = { state with
          stores := Stores.write state.stores op.coordinator op.key op.version
          puts := state.puts.set put (cluster.startPut op localApplied) } := by
  simp only [step, Option.bind_eq_bind, Option.bind_eq_some_iff, Option.guard_eq_some',
    Option.isNone_iff_eq_none, Option.pure_def, Option.some.injEq, exists_const] at hnext
  obtain ⟨op, hop, hprogress, rfl⟩ := hnext
  exact ⟨op, hop, hprogress, _, rfl, rfl⟩

theorem step_handleReplicate {put : Nat} {peer : Node}
    (hnext : cluster.step state (.handleReplicate put peer) = some next) :
    ∃ op, state.puts[put]? = some op ∧ ∃ progress, op.progress = some progress ∧
      ∃ response fan, progress.fanOut.deliver peer response = some fan ∧ next = { state with
        stores := Stores.write state.stores peer op.key op.version
        puts := state.puts.set put (op.withFanOut progress fan) } := by
  simp only [step, Option.bind_eq_bind, Option.bind_eq_some_iff, Option.pure_def,
    Option.some.injEq] at hnext
  obtain ⟨op, hop, progress, hprogress, fan, hfan, rfl⟩ := hnext
  exact ⟨op, hop, progress, hprogress, _, fan, hfan, rfl⟩

theorem step_finishReplicate {put : Nat} {peer : Node} {failure : Option PyError}
    (hnext : cluster.step state (.finishReplicate put peer failure) = some next) :
    ∃ op, state.puts[put]? = some op ∧ ∃ progress, op.progress = some progress ∧
      ∃ fan, progress.fanOut.finish ackOf peer failure = some fan ∧
      next = { state with puts := state.puts.set put (op.withFanOut progress fan) } := by
  simp only [step, Option.bind_eq_bind, Option.bind_eq_some_iff, Option.pure_def,
    Option.some.injEq] at hnext
  obtain ⟨op, hop, progress, hprogress, fan, hfan, rfl⟩ := hnext
  exact ⟨op, hop, progress, hprogress, fan, hfan, rfl⟩

theorem step_wakePut {put : Nat} {signal : Signal Node}
    (hnext : cluster.step state (.wakePut put signal) = some next) :
    ∃ op, state.puts[put]? = some op ∧ ∃ progress, op.progress = some progress ∧
      ∃ fan, progress.fanOut.wake (op.wRequired - 1) signal = some fan ∧
      next = { state with puts := state.puts.set put (op.withFanOut progress fan) } := by
  simp only [step, Option.bind_eq_bind, Option.bind_eq_some_iff, Option.pure_def,
    Option.some.injEq] at hnext
  obtain ⟨op, hop, progress, hprogress, fan, hfan, rfl⟩ := hnext
  exact ⟨op, hop, progress, hprogress, fan, hfan, rfl⟩

theorem step_get {node : Node} {key : String} {r : Option Int} {sample : List Node}
    (hnext : cluster.step state (.get node key r sample) = some next) :
    next = state ∨ ∃ rRequired : Int, (1 ≤ rRequired ∧ rRequired ≤ cluster.size) ∧
      node ∈ cluster.config.nodes ∧ IsSample (cluster.peers node) (rRequired - 1) sample ∧
      next = { state with gets := state.gets ++
        [cluster.startGet node key rRequired ((state.stores node).get key) sample] } := by
  simp only [step, Option.bind_eq_bind, Option.bind_eq_some_iff, Option.guard_eq_some'] at hnext
  obtain ⟨_, hnode, hnext⟩ := hnext
  cases hvalid : validateQuorumParam (r.getD cluster.config.defaultR) "r" cluster.size with
  | error exception =>
      rw [hvalid] at hnext
      exact Or.inl (Option.some.inj hnext).symm
  | ok accepted =>
      rw [hvalid] at hnext
      obtain ⟨_, hsample, hnext⟩ := Option.bind_eq_some_iff.mp hnext
      exact Or.inr ⟨_, validateQuorumParam_eq_ok_iff.mp hvalid, hnode,
        by simpa using hsample, (Option.some.inj hnext).symm⟩

theorem step_handleRead {get : Nat} {peer : Node}
    (hnext : cluster.step state (.handleRead get peer) = some next) :
    ∃ op route fan, state.gets[get]? = some op ∧
      lookupKey cluster.http peer op.key = .ok route ∧
      op.fanOut.deliver peer (peerAnswer (state.stores peer) route) = some fan ∧
      next = { state with gets := state.gets.set get { op with fanOut := fan } } := by
  simp only [step, Option.bind_eq_bind, Option.bind_eq_some_iff, Option.pure_def,
    Option.some.injEq] at hnext
  obtain ⟨op, hop, route, hroute, fan, hfan, rfl⟩ := hnext
  refine ⟨op, route, fan, hop, ?_, hfan, rfl⟩
  cases hlookup : lookupKey cluster.http peer op.key with
  | error error => simp [hlookup, Except.toOption] at hroute
  | ok found => simpa [hlookup, Except.toOption] using hroute

theorem step_finishRead {get : Nat} {peer : Node} {failure : Option PyError}
    (hnext : cluster.step state (.finishRead get peer failure) = some next) :
    ∃ op fan, state.gets[get]? = some op ∧ op.fanOut.finish entryOf peer failure = some fan ∧
      next = { state with gets := state.gets.set get { op with fanOut := fan } } := by
  simp only [step, Option.bind_eq_bind, Option.bind_eq_some_iff, Option.pure_def,
    Option.some.injEq] at hnext
  obtain ⟨op, hop, fan, hfan, rfl⟩ := hnext
  exact ⟨op, fan, hop, hfan, rfl⟩

theorem step_wakeGet {get : Nat} {signal : Signal Node}
    (hnext : cluster.step state (.wakeGet get signal) = some next) :
    ∃ op fan, state.gets[get]? = some op ∧
      op.fanOut.wake (op.rRequired - 1) signal = some fan ∧
      next = { state with gets := state.gets.set get { op with fanOut := fan } } := by
  simp only [step, Option.bind_eq_bind, Option.bind_eq_some_iff, Option.pure_def,
    Option.some.injEq] at hnext
  obtain ⟨op, hop, fan, hfan, rfl⟩ := hnext
  exact ⟨op, fan, hop, hfan, rfl⟩

theorem step_delete {node : Node} {key : String}
    (hnext : cluster.step state (.delete node key) = some next) :
    node ∈ cluster.config.nodes ∧ next = { state with
      stores := Stores.remove state.stores node key } := by
  simp only [step, Option.bind_eq_bind, Option.bind_eq_some_iff, Option.guard_eq_some',
    Option.pure_def, Option.some.injEq, exists_const] at hnext
  obtain ⟨hnode, rfl⟩ := hnext
  exact ⟨hnode, rfl⟩

end Steps

end Cluster

end KvReplication.Leaderless
