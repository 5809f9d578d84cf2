import KvReplication.Common.Stores
import KvReplication.MessageQueue.Producer

/-! # Producers, the topic and followers

Any number of producers stamp writes and hand one message each to the broker, which may
log it late, never, or more than once, in any partition. Every follower consumes at its
own pace; it runs the plain app too, and so takes writes and deletes of clients into its
own store.
-/

namespace KvReplication.MessageQueue

variable {V Bytes Follower : Type} {partitions : Nat}

/-- The broker logs a message at the end of a partition. -/
def appendLog (log : Log partitions Bytes) (partition : Fin partitions) (raw : Bytes) :
    Log partitions Bytes :=
  Function.update log partition (log partition ++ [raw])

theorem appendLog_eq (log : Log partitions Bytes) (partition other : Fin partitions) (raw : Bytes) :
    appendLog log partition raw other = log other ++ if other = partition then [raw] else [] := by
  by_cases heq : other = partition
  · subst heq
    simp [appendLog]
  · simp [appendLog, heq]

/-- A node that takes writes. -/
inductive Origin (Follower : Type) where
  | producer (nodeId : String)
  | follower (follower : Follower)

/-- A `PUT /kv/{key}` whose version is stamped: a producer has a message in flight for it,
if it could be encoded, and a follower has yet to write it. -/
structure PutOp (V Bytes Follower : Type) where
  origin : Origin Follower
  key : String
  version : VersionedValue V
  message : Option (ByteArray × Bytes)

structure Deployment (V Bytes Follower : Type) (partitions : Nat) where
  log : Log partitions Bytes
  puts : List (PutOp V Bytes Follower)
  followers : Follower → State partitions V Bytes

inductive DeploymentAction (V Follower : Type) (partitions : Nat) where
  /-- A node accepts a write and reads its clock; a producer builds the message. -/
  | put (origin : Origin Follower) (key : String) (body : PutRequest V) (now : ℚ)
  /-- The broker logs the message of a write. -/
  | append (put : Nat) (partition : Fin partitions)
  /-- A follower writes what a client has put there. -/
  | writeLocal (put : Nat)
  | consume (follower : Follower) (action : Action partitions)
  | delete (follower : Follower) (key : String)

namespace Deployment

variable (codec : Codec V Bytes) (followerId : Follower → String)

def init : Deployment V Bytes Follower partitions :=
  ⟨fun _ => [], [], fun _ => MessageQueue.init⟩

/-- The node id a version is stamped with. -/
def idOf : Origin Follower → String
  | .producer nodeId => nodeId
  | .follower follower => followerId follower

/-- The message a node hands to the broker: a follower publishes nothing. -/
def messageOf (origin : Origin Follower) (key : String) (version : VersionedValue V) :
    Option (ByteArray × Bytes) :=
  match origin with
  | .producer nodeId =>
      match buildMessage codec key version.value version.timestamp nodeId with
      | .error _ => none
      | .ok message => some message
  | .follower _ => none

variable [DecidableEq Follower]

/-- Replace the process of one follower. -/
def setFollower (state : Deployment V Bytes Follower partitions) (follower : Follower)
    (process : State partitions V Bytes) : Deployment V Bytes Follower partitions :=
  { state with followers := Function.update state.followers follower process }

/-- One action; an action that is not enabled is refused. -/
def step (state : Deployment V Bytes Follower partitions) :
    DeploymentAction V Follower partitions → Option (Deployment V Bytes Follower partitions)
  | .put origin key body now =>
      let version := Server.stamp (idOf followerId origin) body (.finite now)
      some { state with
        puts := state.puts ++ [⟨origin, key, version, messageOf codec origin key version⟩] }
  | .append put partition => do
      let op ← state.puts[put]?
      let message ← op.message
      return { state with log := appendLog state.log partition message.2 }
  | .writeLocal put => do
      let op ← state.puts[put]?
      match op.origin with
      | .producer _ => none
      | .follower follower =>
          let process := state.followers follower
          let (storage, _) := Server.putKey process.store op.key op.version
          return state.setFollower follower { process with store := storage }
  | .consume follower action => do
      let process ← MessageQueue.step codec state.log (state.followers follower) action
      return state.setFollower follower process
  | .delete follower key =>
      let process := state.followers follower
      let (storage, _) := Server.deleteKey process.store key
      some (state.setFollower follower { process with store := storage })

end Deployment

/-- One of the writes put `version` of `key` at the node that handled it. -/
def StampedBy (followerId : Follower → String)
    (history : List (DeploymentAction V Follower partitions)) (key : String)
    (version : VersionedValue V) : Prop :=
  ∃ origin body now, .put origin key body now ∈ history ∧
    version = Server.stamp (Deployment.idOf followerId origin) body (.finite now)

/-- The message parses, as a version that its own key was stamped with. -/
def Genuine (codec : Codec V Bytes) (followerId : Follower → String)
    (history : List (DeploymentAction V Follower partitions)) (raw : Bytes) : Prop :=
  ∃ parsed, codec.validateJson raw = some parsed ∧
    StampedBy followerId history parsed.key parsed.version

section Provenance

variable {codec : Codec V Bytes} {followerId : Follower → String}
  {history : List (DeploymentAction V Follower partitions)}

theorem StampedBy.append {key : String} {version : VersionedValue V}
    (hstamped : StampedBy followerId history key version)
    (action : DeploymentAction V Follower partitions) :
    StampedBy followerId (history ++ [action]) key version := by
  obtain ⟨origin, body, now, hmem, hversion⟩ := hstamped
  exact ⟨origin, body, now, List.mem_append_left _ hmem, hversion⟩

theorem Genuine.append {raw : Bytes} (hgenuine : Genuine codec followerId history raw)
    (action : DeploymentAction V Follower partitions) :
    Genuine codec followerId (history ++ [action]) raw := by
  obtain ⟨parsed, hparsed, hstamped⟩ := hgenuine
  exact ⟨parsed, hparsed, hstamped.append action⟩

/-- What a follower process holds and has received was stamped. -/
structure ProcessGenuine (codec : Codec V Bytes) (followerId : Follower → String)
    (history : List (DeploymentAction V Follower partitions))
    (process : State partitions V Bytes) : Prop where
  stored : ∀ key entry, process.store.get key = some entry →
    StampedBy followerId history key entry
  received : ∀ partition raw offset, process.loop = .received partition raw offset →
    Genuine codec followerId history raw

theorem ProcessGenuine.append {process : State partitions V Bytes}
    (hprocess : ProcessGenuine codec followerId history process)
    (action : DeploymentAction V Follower partitions) :
    ProcessGenuine codec followerId (history ++ [action]) process where
  stored key entry hentry := (hprocess.stored key entry hentry).append action
  received partition raw offset hloop :=
    (hprocess.received partition raw offset hloop).append action

/-- A store that a stamped version is offered to. -/
theorem stamped_of_put {store : KVStore V} {key : String} {version : VersionedValue V}
    (hstored : ∀ key entry, store.get key = some entry → StampedBy followerId history key entry)
    (hversion : StampedBy followerId history key version) {other : String}
    {entry : VersionedValue V}
    (hentry : (store.put key version.value version.timestamp version.nodeId).1.get other =
      some entry) : StampedBy followerId history other entry := by
  rcases KVStore.get_put_cases hentry with hold | ⟨rfl, rfl⟩
  · exact hstored other entry hold
  · exact hversion

/-- A step of the consume loop takes what it stores from the log. -/
theorem ProcessGenuine.consume {log : Log partitions Bytes}
    (hlog : ∀ partition, ∀ raw ∈ log partition, Genuine codec followerId history raw)
    {process next : State partitions V Bytes} {action : Action partitions}
    (hprocess : ProcessGenuine codec followerId history process)
    (hnext : step codec log process action = some next) :
    ProcessGenuine codec followerId history next := by
  cases change_of_step hnext with
  | @receive partition raw hloop hraw =>
      refine ⟨hprocess.stored, ?_⟩
      rintro _ _ _ ⟨⟩
      exact hlog partition raw (List.mem_of_getElem? hraw)
  | @apply partition raw offset hloop =>
      refine ⟨?_, ?_⟩
      · obtain ⟨parsed, hparsed, hstamped⟩ := hprocess.received _ _ _ hloop
        intro key entry hentry
        simp only [applyMessage, hparsed] at hentry
        exact stamped_of_put hprocess.stored hstamped hentry
      · rintro _ _ _ ⟨⟩
  | commit hloop =>
      refine ⟨hprocess.stored, ?_⟩
      rintro _ _ _ ⟨⟩
  | ended haction =>
      refine ⟨hprocess.stored, ?_⟩
      rintro _ _ _ ⟨⟩
  | restart =>
      refine ⟨(fun key entry hentry => by cases hentry), ?_⟩
      rintro _ _ _ ⟨⟩

end Provenance

namespace Deployment

variable [DecidableEq Follower] {codec : Codec V Bytes} {followerId : Follower → String}
  {state next : Deployment V Bytes Follower partitions}
  {action : DeploymentAction V Follower partitions}

/-- Every version at a follower, in flight or in the log was stamped by a write. -/
structure Sound (codec : Codec V Bytes) (followerId : Follower → String)
    (history : List (DeploymentAction V Follower partitions))
    (state : Deployment V Bytes Follower partitions) : Prop where
  puts : ∀ op ∈ state.puts, StampedBy followerId history op.key op.version ∧
    ∀ message, op.message = some message → message.1 = op.key.toUTF8 ∧
      codec.validateJson message.2 = some (payload op.key op.version)
  log : ∀ partition, ∀ raw ∈ state.log partition, Genuine codec followerId history raw
  followers : ∀ follower, ProcessGenuine codec followerId history (state.followers follower)

omit [DecidableEq Follower] in
theorem Sound.init :
    (init : Deployment V Bytes Follower partitions).Sound codec followerId [] where
  puts op hop := by simp [Deployment.init] at hop
  log partition raw hraw := by simp [Deployment.init] at hraw
  followers follower := by
    refine ⟨(fun key entry hentry => by cases hentry), ?_⟩
    rintro _ _ _ ⟨⟩

omit [DecidableEq Follower] in
theorem Sound.append {history : List (DeploymentAction V Follower partitions)}
    (hsound : state.Sound codec followerId history)
    (action : DeploymentAction V Follower partitions) :
    state.Sound codec followerId (history ++ [action]) where
  puts op hop := ⟨(hsound.puts op hop).1.append action, (hsound.puts op hop).2⟩
  log partition raw hraw := (hsound.log partition raw hraw).append action
  followers follower := (hsound.followers follower).append action

theorem Sound.setFollower {history : List (DeploymentAction V Follower partitions)}
    (hsound : state.Sound codec followerId history) {follower : Follower}
    {process : State partitions V Bytes}
    (hprocess : ProcessGenuine codec followerId history process) :
    (state.setFollower follower process).Sound codec followerId history where
  puts := hsound.puts
  log := hsound.log
  followers other := by
    by_cases heq : other = follower
    · subst heq
      simpa [Deployment.setFollower] using hprocess
    · simpa [Deployment.setFollower, heq] using hsound.followers other

omit [DecidableEq Follower] in
/-- The message of a producer is the write it stamped. -/
theorem message_of_put
    (hroundtrip : ∀ request raw, codec.dumpJson request = .ok raw →
      codec.validateJson raw = some request)
    {origin : Origin Follower} {key : String} {body : PutRequest V} {now : PyFloat}
    {message : ByteArray × Bytes}
    (hmessage : messageOf codec origin key (Server.stamp (idOf followerId origin) body now) =
      some message) :
    message.1 = key.toUTF8 ∧ codec.validateJson message.2 =
      some (payload key (Server.stamp (idOf followerId origin) body now)) := by
  cases origin with
  | follower follower => cases hmessage
  | producer nodeId =>
      simp only [messageOf] at hmessage
      split at hmessage
      · cases hmessage
      · next hbuild =>
          obtain rfl := Option.some.inj hmessage
          exact ⟨key_of_buildMessage hbuild,
            validateJson_of_buildMessage (fun raw => hroundtrip _ raw) hbuild⟩

theorem Sound.step
    (hroundtrip : ∀ request raw, codec.dumpJson request = .ok raw →
      codec.validateJson raw = some request)
    {history : List (DeploymentAction V Follower partitions)}
    (hsound : state.Sound codec followerId history)
    (hnext : state.step codec followerId action = some next) :
    next.Sound codec followerId (history ++ [action]) := by
  have hgrown := hsound.append action
  cases action with
  | put origin key body now =>
      obtain rfl := Option.some.inj hnext
      refine ⟨?_, hgrown.log, hgrown.followers⟩
      intro op hop
      rcases List.mem_append.mp hop with hold | hnew
      · exact hgrown.puts op hold
      · rw [List.mem_singleton.mp hnew]
        exact ⟨⟨origin, body, now, by simp, rfl⟩, fun message => message_of_put hroundtrip⟩
  | append put partition =>
      simp only [step, Option.bind_eq_bind, Option.bind_eq_some_iff, Option.pure_def,
        Option.some.injEq] at hnext
      obtain ⟨op, hop, message, hmessage, rfl⟩ := hnext
      obtain ⟨hstamped, hmessages⟩ := hgrown.puts op (List.mem_of_getElem? hop)
      refine ⟨hgrown.puts, ?_, hgrown.followers⟩
      intro other raw hraw
      simp only [appendLog_eq] at hraw
      rcases List.mem_append.mp hraw with hold | hnew
      · exact hgrown.log other raw hold
      · split at hnew
        · -- the logged message is the one the producer built
          rw [List.mem_singleton.mp hnew]
          exact ⟨_, (hmessages message hmessage).2, hstamped⟩
        · cases hnew
  | writeLocal put =>
      simp only [step, Option.bind_eq_bind, Option.bind_eq_some_iff] at hnext
      obtain ⟨op, hop, hwrite⟩ := hnext
      split at hwrite
      · cases hwrite
      · next follower _ =>
          obtain rfl := Option.some.inj hwrite
          obtain ⟨hstamped, _⟩ := hgrown.puts op (List.mem_of_getElem? hop)
          have hprocess := hgrown.followers follower
          refine hgrown.setFollower ⟨?_, hprocess.received⟩
          intro key entry hentry
          exact stamped_of_put hprocess.stored hstamped hentry
  | consume follower consumed =>
      simp only [step, Option.bind_eq_bind, Option.bind_eq_some_iff, Option.pure_def,
        Option.some.injEq] at hnext
      obtain ⟨process, hprocess, rfl⟩ := hnext
      exact hgrown.setFollower ((hgrown.followers follower).consume hgrown.log hprocess)
  | delete follower key =>
      obtain rfl := Option.some.inj hnext
      have hprocess := hgrown.followers follower
      refine hgrown.setFollower ⟨?_, hprocess.received⟩
      intro other entry hentry
      exact hprocess.stored other entry (KVStore.get_of_get_delete hentry)

theorem Sound.run
    (hroundtrip : ∀ request raw, codec.dumpJson request = .ok raw →
      codec.validateJson raw = some request)
    {actions : List (DeploymentAction V Follower partitions)}
    (hrun : Runs.run (Deployment.step codec followerId) Deployment.init actions = some state) :
    state.Sound codec followerId actions :=
  Runs.run_history_invariant (fun history state => state.Sound codec followerId history)
    (fun _ _ _ _ hsound hnext => hsound.step hroundtrip hnext) Sound.init hrun

end Deployment

end KvReplication.MessageQueue
