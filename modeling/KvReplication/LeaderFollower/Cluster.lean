import KvReplication.Common.Stores
import KvReplication.LeaderFollower.Replicator
import KvReplication.Foundation.Runs

/-! # The leader-follower cluster

One leader that replicates to the configured follower entries, and the follower
processes at their addresses, which run the plain app. Followers serve reads and
would take writes and deletes of clients too. Every action is what one node does
between two points at which others may act.
-/

namespace KvReplication.LeaderFollower

open LastWriterWins WaitLoop

/-- A leader with an accepted config; several entries may name one follower. -/
structure Cluster where
  config : ClusterConfig
  nodeId : String
  followerId : Follower → String
  ackRequired_nonneg : 0 ≤ config.ackRequired
  ackRequired_le : config.ackRequired ≤ config.followers.length

/-- A node process. -/
inductive Site where
  | leader
  | follower (address : Follower)
deriving DecidableEq

/-- What a write has reached after its local write: whether that was applied, and
the sends. A follower sends nothing. -/
structure PutProgress where
  localApplied : Bool
  replication : Replication

/-- A `PUT /kv/{key}` whose version is stamped. -/
structure PutOp (V : Type) where
  site : Site
  key : String
  version : VersionedValue V
  progress : Option PutProgress

/-- `permits` are the semaphore's free permits; `closed` tells whether the leader's
HTTP client is closed. -/
structure State (V : Type) where
  stores : Site → KVStore V
  puts : List (PutOp V)
  permits : Nat
  closed : Bool

inductive Action (V : Type) where
  /-- A node accepts a write and reads its clock. -/
  | stamp (site : Site) (key : String) (body : PutRequest V) (now : ℚ)
  /-- The node writes locally; the leader starts its sends. -/
  | localPut (put : Nat)
  /-- A send checks that the client is open and queues for a permit. -/
  | beginSend (put entry : Nat)
  /-- A send is granted a permit and posts. -/
  | acquire (put entry : Nat)
  | handleReplicate (put entry : Nat)
  | finishSend (put entry : Nat) (failure : Option PyError)
  /-- A send that has not posted is cancelled. -/
  | cancelSend (put entry : Nat)
  | wake (put : Nat) (signal : Signal Nat)
  /-- The shutdown handler closes the leader's client. -/
  | shutdown
  | delete (site : Site) (key : String)

/-- The moves of a send between the start of its task and its result. -/
def Action.MovesSend {V : Type} : Action V → Prop
  | .beginSend _ _ | .acquire _ _ | .finishSend _ _ _ | .cancelSend _ _ => True
  | _ => False

variable {V : Type}

/-- The end of `put_key_leader`: too few acks fail the write loudly. -/
def putAnswer (config : ClusterConfig) (ackRequired : Int) (localApplied : Bool)
    (timestamp : PyFloat) (acked : Nat) : Except HttpException PutResponse :=
  if (acked : Int) < ackRequired then
    .error ⟨503, .followerAcks acked ackRequired config.timeoutSeconds⟩
  else
    .ok ⟨localApplied, timestamp⟩

/-- Continue a write with `replication` for its sends. -/
def PutOp.withReplication (op : PutOp V) (progress : PutProgress) (replication : Replication) :
    PutOp V :=
  { op with progress := some { progress with replication := replication } }

namespace Cluster

variable (cluster : Cluster)

def init : State V := ⟨fun _ => KVStore.init, [], maxConcurrentReplicateCalls, false⟩

/-- The processes of the cluster. -/
def HasSite : Site → Prop
  | .leader => True
  | .follower address => address ∈ cluster.config.followers

instance (site : Site) : Decidable (cluster.HasSite site) :=
  match site with
  | .leader => isTrue trivial
  | .follower address => inferInstanceAs (Decidable (address ∈ cluster.config.followers))

def idOf : Site → String
  | .leader => cluster.nodeId
  | .follower address => cluster.followerId address

/-- The follower entries a write at `site` is sent to, by position in the config. -/
def entries : Site → List Nat
  | .leader => List.range cluster.config.followers.length
  | .follower _ => []

/-- The acks a write at `site` waits for. -/
def ackRequired : Site → Int
  | .leader => cluster.config.ackRequired
  | .follower _ => 0

/-- The write after its local write. -/
def startPut (op : PutOp V) (localApplied : Bool) : PutOp V :=
  let replication := Replication.start (cluster.entries op.site) (cluster.ackRequired op.site)
  { op with progress := some ⟨localApplied, replication⟩ }

/-- The answer of a write: the handler raises what the loop raised. -/
def answer (op : PutOp V) : Option (Except PyError (Except HttpException PutResponse)) := do
  let progress ← op.progress
  let outcome ← progress.replication.loop.exit
  return outcome.map fun acked =>
    putAnswer cluster.config (cluster.ackRequired op.site) progress.localApplied
      op.version.timestamp acked

/-- The writes after a move of one send of one of them. -/
def moveSend (puts : List (PutOp V)) (put entry : Nat) (move : Send → Option Send) :
    Option (List (PutOp V)) := do
  let op ← puts[put]?
  let progress ← op.progress
  guard (entry ∈ progress.replication.entries)
  let send ← move (progress.replication.sends entry)
  return puts.set put (op.withReplication progress (progress.replication.setSend entry send))

/-- One action; an action that is not enabled is refused. -/
def step (state : State V) : Action V → Option (State V)
  | .stamp site key body now => do
      guard (cluster.HasSite site)
      let version := Server.stamp (cluster.idOf site) body (.finite now)
      return { state with puts := state.puts ++ [⟨site, key, version, none⟩] }
  | .localPut put => do
      let op ← state.puts[put]?
      guard op.progress.isNone
      let (storage, response) := Server.putKey (state.stores op.site) op.key op.version
      return { state with
        stores := Function.update state.stores op.site storage
        puts := state.puts.set put (cluster.startPut op response.applied) }
  | .beginSend put entry => do
      let puts ← moveSend state.puts put entry (Send.begin state.closed)
      return { state with puts := puts }
  | .acquire put entry => do
      guard (0 < state.permits)
      let puts ← moveSend state.puts put entry (Send.post state.closed)
      return { state with
        puts := puts
        permits := if state.closed then state.permits else state.permits - 1 }
  | .handleReplicate put entry => do
      let op ← state.puts[put]?
      let follower ← cluster.config.followers[entry]?
      let (storage, response) :=
        Server.replicate (state.stores (.follower follower)) (payload op.key op.version)
      let puts ← moveSend state.puts put entry (Send.handled response)
      return { state with
        stores := Function.update state.stores (.follower follower) storage
        puts := puts }
  | .finishSend put entry failure => do
      let puts ← moveSend state.puts put entry (Send.finish failure)
      return { state with puts := puts, permits := state.permits + 1 }
  | .cancelSend put entry => do
      let puts ← moveSend state.puts put entry Send.cancel
      return { state with puts := puts }
  | .wake put signal => do
      let op ← state.puts[put]?
      let progress ← op.progress
      let replication ← progress.replication.wake (cluster.ackRequired op.site) signal
      return { state with puts := state.puts.set put (op.withReplication progress replication) }
  | .shutdown => some { state with closed := true }
  | .delete site key => do
      guard (cluster.HasSite site)
      let (storage, _) := Server.deleteKey (state.stores site) key
      return { state with stores := Function.update state.stores site storage }

theorem moveSend_eq_some {puts moved : List (PutOp V)} {put entry : Nat}
    {move : Send → Option Send} :
    moveSend puts put entry move = some moved ↔ ∃ op, puts[put]? = some op ∧
      ∃ progress, op.progress = some progress ∧ entry ∈ progress.replication.entries ∧
        ∃ send, move (progress.replication.sends entry) = some send ∧
          puts.set put (op.withReplication progress (progress.replication.setSend entry send)) =
            moved := by
  simp only [moveSend, Option.bind_eq_bind, Option.bind_eq_some_iff, Option.guard_eq_some',
    Option.pure_def, Option.some.injEq, exists_const]

/-- The guards of each action that is enabled, and the state it leaves. -/
inductive Effect (state : State V) : Action V → State V → Prop
  | stamp {site : Site} {key : String} {body : PutRequest V} {now : ℚ}
      (hsite : cluster.HasSite site) :
      Effect state (.stamp site key body now) { state with puts := state.puts ++
        [⟨site, key, Server.stamp (cluster.idOf site) body (.finite now), none⟩] }
  | localPut {put : Nat} {op : PutOp V} {localApplied : Bool}
      (hop : state.puts[put]? = some op) (hprogress : op.progress = none)
      (happlied : ((state.stores op.site).put op.key op.version.value op.version.timestamp
        op.version.nodeId).2 = localApplied) :
      Effect state (.localPut put) { state with
        stores := Stores.write state.stores op.site op.key op.version
        puts := state.puts.set put (cluster.startPut op localApplied) }
  | beginSend {put entry : Nat} {puts : List (PutOp V)}
      (hputs : moveSend state.puts put entry (Send.begin state.closed) = some puts) :
      Effect state (.beginSend put entry) { state with puts := puts }
  | acquire {put entry : Nat} {puts : List (PutOp V)} (hfree : 0 < state.permits)
      (hputs : moveSend state.puts put entry (Send.post state.closed) = some puts) :
      Effect state (.acquire put entry) { state with
        puts := puts
        permits := if state.closed then state.permits else state.permits - 1 }
  | handleReplicate {put entry : Nat} {op : PutOp V} {follower : Follower}
      {response : ReplicateResponse} {puts : List (PutOp V)} (hop : state.puts[put]? = some op)
      (hfollower : cluster.config.followers[entry]? = some follower)
      (hresponse : (Server.replicate (state.stores (.follower follower))
        (payload op.key op.version)).2 = response)
      (hputs : moveSend state.puts put entry (Send.handled response) = some puts) :
      Effect state (.handleReplicate put entry) { state with
        stores := Stores.write state.stores (.follower follower) op.key op.version
        puts := puts }
  | finishSend {put entry : Nat} {failure : Option PyError} {puts : List (PutOp V)}
      (hputs : moveSend state.puts put entry (Send.finish failure) = some puts) :
      Effect state (.finishSend put entry failure) { state with
        puts := puts
        permits := state.permits + 1 }
  | cancelSend {put entry : Nat} {puts : List (PutOp V)}
      (hputs : moveSend state.puts put entry Send.cancel = some puts) :
      Effect state (.cancelSend put entry) { state with puts := puts }
  | wake {put : Nat} {signal : Signal Nat} {op : PutOp V} {progress : PutProgress}
      {replication : Replication} (hop : state.puts[put]? = some op)
      (hprogress : op.progress = some progress)
      (hwake : progress.replication.wake (cluster.ackRequired op.site) signal =
        some replication) :
      Effect state (.wake put signal) { state with
        puts := state.puts.set put (op.withReplication progress replication) }
  | shutdown : Effect state .shutdown { state with closed := true }
  | delete {site : Site} {key : String} (hsite : cluster.HasSite site) :
      Effect state (.delete site key) { state with
        stores := Stores.remove state.stores site key }

theorem effect_of_step {state next : State V} {action : Action V}
    (hnext : cluster.step state action = some next) : cluster.Effect state action next := by
  cases action with
  | stamp site key body now =>
      simp only [step, Option.bind_eq_bind, Option.bind_eq_some_iff, Option.guard_eq_some',
        Option.pure_def, Option.some.injEq, exists_const] at hnext
      obtain ⟨hsite, rfl⟩ := hnext
      exact .stamp hsite
  | localPut put =>
      simp only [step, Option.bind_eq_bind, Option.bind_eq_some_iff, Option.guard_eq_some',
        Option.isNone_iff_eq_none, Option.pure_def, Option.some.injEq, exists_const] at hnext
      obtain ⟨op, hop, hprogress, rfl⟩ := hnext
      exact .localPut hop hprogress rfl
  | beginSend put entry =>
      simp only [step, Option.bind_eq_bind, Option.bind_eq_some_iff, Option.pure_def,
        Option.some.injEq] at hnext
      obtain ⟨puts, hputs, rfl⟩ := hnext
      exact .beginSend hputs
  | acquire put entry =>
      simp only [step, Option.bind_eq_bind, Option.bind_eq_some_iff, Option.guard_eq_some',
        Option.pure_def, Option.some.injEq, exists_const] at hnext
      obtain ⟨hfree, puts, hputs, rfl⟩ := hnext
      exact .acquire hfree hputs
  | handleReplicate put entry =>
      simp only [step, Option.bind_eq_bind, Option.bind_eq_some_iff, Option.pure_def,
        Option.some.injEq] at hnext
      obtain ⟨op, hop, follower, hfollower, puts, hputs, rfl⟩ := hnext
      exact .handleReplicate hop hfollower rfl hputs
  | finishSend put entry failure =>
      simp only [step, Option.bind_eq_bind, Option.bind_eq_some_iff, Option.pure_def,
        Option.some.injEq] at hnext
      obtain ⟨puts, hputs, rfl⟩ := hnext
      exact .finishSend hputs
  | cancelSend put entry =>
      simp only [step, Option.bind_eq_bind, Option.bind_eq_some_iff, Option.pure_def,
        Option.some.injEq] at hnext
      obtain ⟨puts, hputs, rfl⟩ := hnext
      exact .cancelSend hputs
  | wake put signal =>
      simp only [step, Option.bind_eq_bind, Option.bind_eq_some_iff, Option.pure_def,
        Option.some.injEq] at hnext
      obtain ⟨op, hop, progress, hprogress, replication, hwake, rfl⟩ := hnext
      exact .wake hop hprogress hwake
  | shutdown =>
      obtain rfl := Option.some.inj hnext
      exact .shutdown
  | delete site key =>
      simp only [step, Option.bind_eq_bind, Option.bind_eq_some_iff, Option.guard_eq_some',
        Option.pure_def, Option.some.injEq, exists_const] at hnext
      obtain ⟨hsite, rfl⟩ := hnext
      exact .delete hsite

/-- The same with one case for the moves of a send, which touch no store. -/
inductive Change (state : State V) : Action V → State V → Prop
  | stamp {site : Site} {key : String} {body : PutRequest V} {now : ℚ}
      (hsite : cluster.HasSite site) :
      Change state (.stamp site key body now) { state with puts := state.puts ++
        [⟨site, key, Server.stamp (cluster.idOf site) body (.finite now), none⟩] }
  | localPut {put : Nat} {op : PutOp V} {localApplied : Bool}
      (hop : state.puts[put]? = some op) (hprogress : op.progress = none)
      (happlied : ((state.stores op.site).put op.key op.version.value op.version.timestamp
        op.version.nodeId).2 = localApplied) :
      Change state (.localPut put) { state with
        stores := Stores.write state.stores op.site op.key op.version
        puts := state.puts.set put (cluster.startPut op localApplied) }
  | handleReplicate {put entry : Nat} {op : PutOp V} {progress : PutProgress}
      {follower : Follower} {response : ReplicateResponse} {send : Send}
      (hop : state.puts[put]? = some op) (hprogress : op.progress = some progress)
      (hfollower : cluster.config.followers[entry]? = some follower)
      (hsend : (progress.replication.sends entry).handled response = some send) :
      Change state (.handleReplicate put entry) { state with
        stores := Stores.write state.stores (.follower follower) op.key op.version
        puts := state.puts.set put
          (op.withReplication progress (progress.replication.setSend entry send)) }
  | send {action : Action V} {put entry : Nat} {op : PutOp V} {progress : PutProgress}
      {send : Send} (permits : Nat) (haction : action.MovesSend)
      (hop : state.puts[put]? = some op) (hprogress : op.progress = some progress)
      (hmoves : (progress.replication.sends entry).Moves send) :
      Change state action { state with
        puts := state.puts.set put
          (op.withReplication progress (progress.replication.setSend entry send))
        permits := permits }
  | wake {put : Nat} {signal : Signal Nat} {op : PutOp V} {progress : PutProgress}
      {replication : Replication} (hop : state.puts[put]? = some op)
      (hprogress : op.progress = some progress)
      (hwake : progress.replication.wake (cluster.ackRequired op.site) signal =
        some replication) :
      Change state (.wake put signal) { state with
        puts := state.puts.set put (op.withReplication progress replication) }
  | shutdown : Change state .shutdown { state with closed := true }
  | delete {site : Site} {key : String} (hsite : cluster.HasSite site) :
      Change state (.delete site key) { state with
        stores := Stores.remove state.stores site key }

variable {cluster} in
theorem Change.of_moveSend {state : State V} {action : Action V} {put entry permits : Nat}
    {move : Send → Option Send} {puts : List (PutOp V)} (haction : action.MovesSend)
    (hputs : moveSend state.puts put entry move = some puts)
    (hmoves : ∀ send next, move send = some next → send.Moves next) :
    cluster.Change state action { state with puts := puts, permits := permits } := by
  obtain ⟨op, hop, progress, hprogress, _, send, hsend, rfl⟩ := moveSend_eq_some.mp hputs
  exact .send permits haction hop hprogress (hmoves _ _ hsend)

theorem change_of_step {state next : State V} {action : Action V}
    (hnext : cluster.step state action = some next) : cluster.Change state action next := by
  cases cluster.effect_of_step hnext with
  | stamp hsite => exact .stamp hsite
  | localPut hop hprogress happlied => exact .localPut hop hprogress happlied
  | beginSend hputs => exact Change.of_moveSend trivial hputs fun _ _ => Send.moves_begin
  | acquire hfree hputs => exact Change.of_moveSend trivial hputs fun _ _ => Send.moves_post
  | handleReplicate hop hfollower hresponse hputs =>
      obtain ⟨sender, hsender, progress, hprogress, _, send, hsend, rfl⟩ :=
        moveSend_eq_some.mp hputs
      obtain rfl := Option.some.inj (hsender.symm.trans hop)
      exact .handleReplicate hop hprogress hfollower hsend
  | finishSend hputs => exact Change.of_moveSend trivial hputs fun _ _ => Send.moves_finish
  | cancelSend hputs => exact Change.of_moveSend trivial hputs fun _ _ => Send.moves_cancel
  | wake hop hprogress hwake => exact .wake hop hprogress hwake
  | shutdown => exact .shutdown
  | delete hsite => exact .delete hsite

end Cluster

end KvReplication.LeaderFollower
