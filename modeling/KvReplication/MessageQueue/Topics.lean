import KvReplication.Foundation.Runs

/-! # Topic administration

`ensure_topic_exists` and `reset_topic` against a broker that any number of them use at
once. Each request is answered at one instant, but a deletion is only acknowledged: the
topic stays listed, and cannot be created, until the broker is done with it.
-/

namespace KvReplication.MessageQueue

variable {ErrorClass : Type}

/-- The part of the config that lays the topic out. -/
structure TopicConfig where
  topic : String
  numPartitions : Int
  numPartitions_pos : 1 ≤ numPartitions

/-- The client library's errors by protocol code, of which two are tolerated. -/
structure KafkaErrors (ErrorClass : Type) where
  forCode : Int → ErrorClass
  name : ErrorClass → String
  topicAlreadyExistsError : ErrorClass
  unknownTopicOrPartitionError : ErrorClass
  forCode_exists : forCode 36 = topicAlreadyExistsError
  forCode_unknown : forCode 3 = unknownTopicOrPartitionError

/-- What a call of the admin helpers can raise. -/
inductive AdminError where
  | runtimeError (topic errorClass : String) (code : Int)
  | timeoutError (topic : String)
  /-- A request or the connection fails. -/
  | kafkaError
deriving DecidableEq

/-- One entry of a response to a create or delete request. -/
structure TopicErrorEntry where
  topic : String
  errorCode : Int

section Errors

variable [DecidableEq ErrorClass] (errors : KafkaErrors ErrorClass)

/-- `_raise_on_topic_errors`: the first real error that is not tolerated. -/
def raiseOnTopicErrors (tolerate : ErrorClass) : List TopicErrorEntry → Except AdminError Unit
  | [] => .ok ()
  | entry :: rest =>
      let errorClass := errors.forCode entry.errorCode
      if entry.errorCode ≠ 0 ∧ errorClass ≠ tolerate then
        .error (.runtimeError entry.topic (errors.name errorClass) entry.errorCode)
      else
        raiseOnTopicErrors tolerate rest

/-- A code the broker fails a request with, other than 0 and the tolerated race. -/
def Refuses (tolerate : ErrorClass) (code : Int) : Prop :=
  code ≠ 0 ∧ errors.forCode code ≠ tolerate

instance (tolerate : ErrorClass) (code : Int) : Decidable (Refuses errors tolerate code) :=
  inferInstanceAs (Decidable (_ ∧ _))

end Errors

/-- The topic as the broker holds it; a message is known by its number. -/
structure Topic where
  partitions : Int
  messages : List Nat
  /-- A deletion was acknowledged and is not finished. -/
  deleting : Bool
deriving DecidableEq

/-- What the broker knows of the configured topic. Messages are numbered as they are
published, so a new one is none of the old ones. -/
structure Broker where
  topic : Option Topic
  published : Nat
  numbered : ∀ found, topic = some found → ∀ message ∈ found.messages, message < published

namespace Broker

/-- The topic is among the listed ones. -/
def listed (broker : Broker) : Bool := broker.topic.isSome

/-- The messages that are in the topic. -/
def messages (broker : Broker) : List Nat := (broker.topic.map Topic.messages).getD []

/-- A create request: the topic is new and empty, or there already. -/
def createTopics (broker : Broker) (numPartitions : Int) : Broker × Int :=
  if broker.listed then
    (broker, 36)
  else
    (⟨some ⟨numPartitions, [], false⟩, broker.published, by rintro _ ⟨⟩ _ hmem; cases hmem⟩, 0)

/-- A delete request: acknowledged, or for a topic that is not there. -/
def deleteTopics (broker : Broker) : Broker × Int :=
  (⟨broker.topic.map fun topic => { topic with deleting := true }, broker.published, by
      intro found hfound message hmem
      obtain ⟨topic, htopic, rfl⟩ := Option.map_eq_some_iff.mp hfound
      exact broker.numbered topic htopic message hmem⟩,
    if broker.listed then 0 else 3)

/-- The broker is done with a deletion. -/
def finishDeletion (broker : Broker) : Option Broker :=
  if broker.topic.any Topic.deleting then
    some ⟨none, broker.published, fun _ hfound => by cases hfound⟩
  else
    none

/-- A message is published to a topic that is there. -/
def publish (broker : Broker) : Option Broker :=
  if broker.listed then
    some ⟨broker.topic.map fun topic =>
        { topic with messages := topic.messages ++ [broker.published] },
      broker.published + 1, by
        intro found hfound message hmem
        obtain ⟨topic, htopic, rfl⟩ := Option.map_eq_some_iff.mp hfound
        rcases List.mem_append.mp hmem with hold | hnew
        · exact Nat.lt_succ_of_lt (broker.numbered topic htopic message hold)
        · rw [List.mem_singleton.mp hnew]
          exact Nat.lt_succ_self _⟩
  else
    none

end Broker

/-- Where an `ensure_topic_exists` call stands: before its list request, before its
create request, or done. -/
inductive EnsureStage where
  | listing
  | creating
  | returned
  | raised (error : AdminError)
deriving DecidableEq

/-- How the next request of such a call goes; `refusal` is an error code of the broker. -/
inductive EnsureRequest where
  | lists
  | creates (refusal : Option Int)
  | fails
deriving DecidableEq

/-- Where a `reset_topic` call stands; the last stage is its own `ensure_topic_exists`. -/
inductive ResetStage where
  | listing
  | deleting
  | polling
  | ensuring (stage : EnsureStage)
  | raised (error : AdminError)
deriving DecidableEq

inductive ResetRequest where
  | lists
  | deletes (refusal : Option Int)
  /-- One round of the polling loop; `expired` is whether the deadline has passed. -/
  | polls (expired : Bool)
  | ensures (request : EnsureRequest)
  | fails
deriving DecidableEq

/-- A `reset_topic` call, and the messages that were in the topic when it was made. -/
structure ResetCall where
  atCall : List Nat
  stage : ResetStage
deriving DecidableEq

/-- The broker and the calls that use it. -/
structure TopicSystem where
  broker : Broker
  ensures : List EnsureStage
  reset : Option ResetCall

/-- Before any call. -/
def TopicSystem.start (broker : Broker) : TopicSystem := ⟨broker, [], none⟩

inductive TopicAction where
  | callEnsure
  | ensure (call : Nat) (request : EnsureRequest)
  | callReset
  | reset (request : ResetRequest)
  | publish
  | finishDeletion
deriving DecidableEq

section Calls

variable [DecidableEq ErrorClass] (errors : KafkaErrors ErrorClass) (config : TopicConfig)

/-- The broker's answer to a request it may refuse. -/
def answered (tolerate : ErrorClass) (broker : Broker) (answer : Broker × Int) :
    Option Int → Option (Broker × Except AdminError Unit)
  | none => some (answer.1, raiseOnTopicErrors errors tolerate [⟨config.topic, answer.2⟩])
  | some code =>
      if Refuses errors tolerate code then
        some (broker, raiseOnTopicErrors errors tolerate [⟨config.topic, code⟩])
      else
        none

/-- `ensure_topic_exists`, one request at a time. -/
def EnsureStage.request (broker : Broker) :
    EnsureStage → EnsureRequest → Option (Broker × EnsureStage)
  | .listing, .lists => some (broker, if broker.listed then .returned else .creating)
  | .creating, .creates refusal =>
      (answered errors config errors.topicAlreadyExistsError broker
        (broker.createTopics config.numPartitions) refusal).map fun (broker, result) =>
          match result with
          | .ok () => (broker, .returned)
          | .error error => (broker, .raised error)
  | .listing, .fails => some (broker, .raised .kafkaError)
  | .creating, .fails => some (broker, .raised .kafkaError)
  | _, _ => none

/-- `reset_topic`, one request at a time. -/
def ResetStage.request (broker : Broker) :
    ResetStage → ResetRequest → Option (Broker × ResetStage)
  | .listing, .lists => some (broker, if broker.listed then .deleting else .ensuring .listing)
  | .deleting, .deletes refusal =>
      (answered errors config errors.unknownTopicOrPartitionError broker
        broker.deleteTopics refusal).map fun (broker, result) =>
          match result with
          | .ok () => (broker, .polling)
          | .error error => (broker, .raised error)
  | .polling, .polls expired =>
      if broker.listed then
        some (broker, if expired then .raised (.timeoutError config.topic) else .polling)
      else
        some (broker, .ensuring .listing)
  | .ensuring stage, .ensures request =>
      (stage.request errors config broker request).map fun (broker, stage) =>
        (broker, .ensuring stage)
  | .listing, .fails => some (broker, .raised .kafkaError)
  | .deleting, .fails => some (broker, .raised .kafkaError)
  | .polling, .fails => some (broker, .raised .kafkaError)
  | _, _ => none

/-- One action; an action that is not enabled is refused. One `reset_topic` is called. -/
def TopicSystem.step (system : TopicSystem) : TopicAction → Option TopicSystem
  | .callEnsure => some { system with ensures := system.ensures ++ [.listing] }
  | .ensure call request => do
      let stage ← system.ensures[call]?
      let (broker, stage) ← stage.request errors config system.broker request
      return { system with broker := broker, ensures := system.ensures.set call stage }
  | .callReset =>
      match system.reset with
      | none => some { system with reset := some ⟨system.broker.messages, .listing⟩ }
      | some _ => none
  | .reset request => do
      let call ← system.reset
      let (broker, stage) ← call.stage.request errors config system.broker request
      return { system with broker := broker, reset := some { call with stage := stage } }
  | .publish => do
      let broker ← system.broker.publish
      return { system with broker := broker }
  | .finishDeletion => do
      let broker ← system.broker.finishDeletion
      return { system with broker := broker }

end Calls

end KvReplication.MessageQueue
