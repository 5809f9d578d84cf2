import KvReplication.Common.Storage

/-! # The HTTP layer shared by every node

Handlers are functions of the store and the request. A handler that raises
`HTTPException` returns it as an error; whatever else can leave a coroutine is a
`PyError`, which the framework turns into a bare 500.
-/

namespace KvReplication

/-- The exceptions that reach an `except` clause, or miss one, in this program. -/
inductive PyError where
  /-- `httpx.HTTPError`: transport failures, and what `raise_for_status` raises. -/
  | httpError
  /-- `httpx.InvalidURL`, which is not an `HTTPError`. -/
  | invalidUrl
  /-- `ValueError`, from `json.dumps(allow_nan=False)` or from config checks. -/
  | valueError
  | typeError
  | keyError
  | attributeError
  | unicodeEncodeError
  | unicodeDecodeError
  | jsonDecodeError
  | validationError
  /-- `RuntimeError`, from a request on a closed client. -/
  | runtimeError
  /-- `OverflowError`, from `int` of an infinity. -/
  | overflowError
  | cancelledError
  /-- `aiokafka.errors.KafkaError`: the broker did not confirm the request. -/
  | kafkaError
deriving DecidableEq

/-- What the `detail` of an `HTTPException` interpolates. -/
inductive Detail where
  /-- `key {key!r} not found` -/
  | keyNotFound (key : String)
  /-- `{name} ({value}) must be between 1 and {n} (cluster size)` -/
  | quorumParam (name : String) (value : Int) (n : Nat)
  /-- `only {acked}/{required} follower acks within {timeout}s timeout` -/
  | followerAcks (acked : Nat) (required : Int) (timeout : PyFloat)
  /-- `only {acked}/{required} node acks (including self) within {timeout}s timeout` -/
  | nodeAcks (acked : Nat) (required : Int) (timeout : PyFloat)
  /-- `only {responses}/{required} node responses (including self) within {timeout}s timeout` -/
  | nodeResponses (responses : Nat) (required : Int) (timeout : PyFloat)
  /-- `Not Found`, the router's own answer where no route matches. -/
  | routeNotFound
  /-- `Kafka did not confirm this write: {exc}` -/
  | kafkaNotConfirmed
deriving DecidableEq

structure HttpException where
  statusCode : Nat
  detail : Detail
deriving DecidableEq

/-- How a handler ends: with what it returns, with an `HTTPException`, or with an
exception that nobody catches. -/
abbrev HandlerResult (Response : Type) := Except PyError (Except HttpException Response)

/-- The status of the answer: what nobody catches is a bare 500. -/
def statusCode {Response : Type} : HandlerResult Response → Nat
  | .error _ => 500
  | .ok (.error exception) => exception.statusCode
  | .ok (.ok _) => 200

/-- Body of `PUT /kv/{key}`: the client supplies the value only. -/
structure PutRequest (V : Type) where
  value : V

/-- `timestamp` is the stamp of this write even when it lost the conflict. -/
structure PutResponse where
  applied : Bool
  timestamp : PyFloat
deriving DecidableEq

structure KVResponse (V : Type) where
  key : String
  value : V
  timestamp : PyFloat
  nodeId : String
deriving DecidableEq

structure DeleteResponse where
  deleted : Bool
deriving DecidableEq

/-- Body of `POST /internal/replicate`: a full versioned entry, kept as it is. -/
structure ReplicateRequest (V : Type) where
  key : String
  value : V
  timestamp : PyFloat
  nodeId : String
deriving DecidableEq

structure ReplicateResponse where
  applied : Bool
deriving DecidableEq

structure HealthResponse where
  nodeId : String
  keyCount : Nat
deriving DecidableEq

section Payload

variable {V : Type}

/-- The version a read response reports. -/
def KVResponse.version (response : KVResponse V) : VersionedValue V :=
  ⟨response.value, response.timestamp, response.nodeId⟩

/-- The version a replicate payload carries. -/
def ReplicateRequest.version (body : ReplicateRequest V) : VersionedValue V :=
  ⟨body.value, body.timestamp, body.nodeId⟩

/-- The payload that carries `version` of `key` to another node. -/
def payload (key : String) (version : VersionedValue V) : ReplicateRequest V :=
  ⟨key, version.value, version.timestamp, version.nodeId⟩

@[simp] theorem payload_version (key : String) (version : VersionedValue V) :
    (payload key version).version = version := rfl

end Payload

namespace Server

variable {V : Type}

/-- `GET /kv/{key}`. -/
def getKey (storage : KVStore V) (key : String) : Except HttpException (KVResponse V) :=
  match storage.get key with
  | none => .error ⟨404, .keyNotFound key⟩
  | some entry => .ok ⟨key, entry.value, entry.timestamp, entry.nodeId⟩

/-- The version `PUT /kv/{key}` stamps: the clock is read once and the node's own
id is attached. -/
def stamp (nodeId : String) (body : PutRequest V) (now : PyFloat) : VersionedValue V :=
  ⟨body.value, now, nodeId⟩

/-- `PUT /kv/{key}` after the stamp: the local write and its answer. -/
def putKey (storage : KVStore V) (key : String) (version : VersionedValue V) :
    KVStore V × PutResponse :=
  let (storage, applied) := storage.put key version.value version.timestamp version.nodeId
  (storage, ⟨applied, version.timestamp⟩)

/-- `DELETE /kv/{key}`. -/
def deleteKey (storage : KVStore V) (key : String) : KVStore V × DeleteResponse :=
  let (storage, deleted) := storage.delete key
  (storage, ⟨deleted⟩)

/-- `POST /internal/replicate`: someone else's write, with its own stamp. -/
def replicate (storage : KVStore V) (body : ReplicateRequest V) :
    KVStore V × ReplicateResponse :=
  let (storage, applied) := storage.put body.key body.value body.timestamp body.nodeId
  (storage, ⟨applied⟩)

/-- `GET /health`. -/
def health (storage : KVStore V) (nodeId : String) : HealthResponse :=
  ⟨nodeId, storage.keyCount⟩

/-- A read answers 200 with the stored version, and 404 when there is none. -/
theorem getKey_eq_ok_iff (storage : KVStore V) (key : String) (response : KVResponse V) :
    getKey storage key = .ok response ↔
      response.key = key ∧ storage.get key = some response.version := by
  unfold getKey
  cases hget : storage.get key with
  | none => simp
  | some entry =>
      constructor
      · intro hok
        injection hok with hresponse
        subst hresponse
        exact ⟨rfl, rfl⟩
      · rintro ⟨hkey, hentry⟩
        obtain ⟨responseKey, value, timestamp, nodeId⟩ := response
        simp only [KVResponse.version, Option.some.injEq] at hentry
        subst hentry
        subst hkey
        rfl

/-- A held version is served: the read is a 200 that the version does not beat. -/
theorem getKey_of_holds {storage : KVStore V} {key : String} {version : VersionedValue V}
    (hholds : storage.Holds key version) :
    ∃ response, getKey storage key = .ok response ∧ ¬ version.Newer response.version := by
  obtain ⟨entry, hentry, hnot⟩ := hholds
  exact ⟨⟨key, entry.value, entry.timestamp, entry.nodeId⟩, by simp [getKey, hentry], hnot⟩

end Server

end KvReplication
