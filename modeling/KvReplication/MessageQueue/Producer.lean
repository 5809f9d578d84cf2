import KvReplication.MessageQueue.Follower

/-! # The producer

The producer stamps a write, publishes it under its key and answers as soon as the
broker has confirmed the message. It holds no data and waits for no follower.
-/

namespace KvReplication.MessageQueue

variable {V Bytes : Type} {partitions : Nat}

/-- `_build_message`: the key and the value of the message that carries a write. -/
def buildMessage (codec : Codec V Bytes) (key : String) (value : V) (timestamp : PyFloat)
    (nodeId : String) : Except PyError (ByteArray × Bytes) :=
  let message : ReplicateRequest V := ⟨key, value, timestamp, nodeId⟩
  (codec.dumpJson message).map fun raw => (key.toUTF8, raw)

/-- Where the broker has put a confirmed message. -/
structure RecordMetadata (partitions : Nat) where
  partition : Fin partitions
  offset : Nat

/-- `PUT /kv/{key}`: `sendAndWait` is what the client library makes of the message. -/
def putKey (codec : Codec V Bytes) (nodeId : String)
    (sendAndWait : ByteArray × Bytes → Except PyError (RecordMetadata partitions)) (key : String)
    (body : PutRequest V) (timestamp : PyFloat) : HandlerResult PutResponse :=
  match buildMessage codec key body.value timestamp nodeId with
  | .error error => .error error
  | .ok message =>
      match sendAndWait message with
      | .error .kafkaError => .ok (.error ⟨503, .kafkaNotConfirmed⟩)
      | .error error => .error error
      | .ok _ => .ok (.ok ⟨true, timestamp⟩)

/-- The broker has logged every message it has confirmed. -/
def Logged (log : Log partitions Bytes)
    (sendAndWait : ByteArray × Bytes → Except PyError (RecordMetadata partitions)) : Prop :=
  ∀ message metadata, sendAndWait message = .ok metadata →
    (log metadata.partition)[metadata.offset]? = some message.2

/-- A built message parses back to its write if dumping and validating it does. -/
theorem validateJson_of_buildMessage {codec : Codec V Bytes} {key nodeId : String} {value : V}
    {timestamp : PyFloat} {message : ByteArray × Bytes}
    (hroundtrip : ∀ raw, codec.dumpJson ⟨key, value, timestamp, nodeId⟩ = .ok raw →
      codec.validateJson raw = some ⟨key, value, timestamp, nodeId⟩)
    (hbuild : buildMessage codec key value timestamp nodeId = .ok message) :
    codec.validateJson message.2 = some ⟨key, value, timestamp, nodeId⟩ := by
  simp only [buildMessage] at hbuild
  cases hdump : codec.dumpJson ⟨key, value, timestamp, nodeId⟩ with
  | error error => simp [hdump, Except.map] at hbuild
  | ok raw =>
      simp only [hdump, Except.map, Except.ok.injEq] at hbuild
      subst hbuild
      exact hroundtrip raw hdump

/-- A message goes out under its own key. -/
theorem key_of_buildMessage {codec : Codec V Bytes} {key nodeId : String} {value : V}
    {timestamp : PyFloat} {message : ByteArray × Bytes}
    (hbuild : buildMessage codec key value timestamp nodeId = .ok message) :
    message.1 = key.toUTF8 := by
  simp only [buildMessage] at hbuild
  cases hdump : codec.dumpJson ⟨key, value, timestamp, nodeId⟩ with
  | error error => simp [hdump, Except.map] at hbuild
  | ok raw =>
      simp only [hdump, Except.map, Except.ok.injEq] at hbuild
      subst hbuild
      rfl

/-- A write is answered 200 exactly when it could be encoded and was confirmed. -/
theorem putKey_eq_ok_iff {codec : Codec V Bytes} {nodeId key : String} {body : PutRequest V}
    {sendAndWait : ByteArray × Bytes → Except PyError (RecordMetadata partitions)}
    {timestamp : PyFloat} {response : PutResponse} :
    putKey codec nodeId sendAndWait key body timestamp = .ok (.ok response) ↔
      response = ⟨true, timestamp⟩ ∧ ∃ message metadata,
        buildMessage codec key body.value timestamp nodeId = .ok message ∧
        sendAndWait message = .ok metadata := by
  unfold putKey
  cases hbuild : buildMessage codec key body.value timestamp nodeId with
  | error error => simp
  | ok message =>
      cases hsend : sendAndWait message with
      | error error => cases error <;> simp [hsend]
      | ok metadata => simp [hsend, eq_comm]

end KvReplication.MessageQueue
