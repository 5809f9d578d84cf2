import KvReplication.Leaderless.Coordinator
import KvReplication.Common.ReplicationClient

/-! # What a call to a peer counts as

The client library gives back a response, or raises. A body is only parsed on the
success status; the `except` clauses name the exceptions that turn into a failed
ack or a failed response, and any other one leaves the coroutine.
-/

namespace KvReplication.Leaderless

variable {V : Type}

/-- `_replicate_outcome`: an answered call is an ack, applied or not. -/
def replicateOutcome : Reply ReplicateResponse → Except PyError (Bool × Unit)
  | .error .httpError => .ok (false, ())
  | .error error => .error error
  | .ok (status, body) =>
      if isSuccess status then parsedOr (false, ()) (fun _ => (true, ())) body
      else .ok (false, ())

/-- `_read_outcome`: a 200 gives the peer's entry, a 404 is a response without
one, anything else does not count. -/
def readOutcome : Reply (KVResponse V) → Except PyError (Bool × Option (VersionedValue V))
  | .error .httpError => .ok (false, none)
  | .error error => .error error
  | .ok (status, body) =>
      if status = 404 then .ok (true, none)
      else if status ≠ 200 then .ok (false, none)
      else
        parsedOr (false, none)
          (fun parsed => (true, some ⟨parsed.value, parsed.timestamp, parsed.nodeId⟩)) body

/-- A replicate call returns, failed or not, exactly if its exceptions are all named. -/
theorem replicateOutcome_ok_iff {reply : Reply ReplicateResponse} :
    (∃ outcome, replicateOutcome reply = .ok outcome) ↔ reply.Handled (isSuccess · = true) := by
  cases reply with
  | error error => cases error <;> simp [replicateOutcome, Reply.Handled]
  | ok response =>
      obtain ⟨status, body⟩ := response
      by_cases hsuccess : isSuccess status = true
      · simpa only [replicateOutcome, Reply.Handled, hsuccess, if_true, forall_const]
          using parsedOr_ok_iff
      · simp [replicateOutcome, Reply.Handled, hsuccess]

/-- A read call returns, failed or not, exactly if its exceptions are all named. -/
theorem readOutcome_ok_iff {reply : Reply (KVResponse V)} :
    (∃ outcome, readOutcome reply = .ok outcome) ↔ reply.Handled (· = 200) := by
  cases reply with
  | error error => cases error <;> simp [readOutcome, Reply.Handled]
  | ok response =>
      obtain ⟨status, body⟩ := response
      by_cases hmissing : status = 404
      · simp [readOutcome, Reply.Handled, hmissing]
      · by_cases hok : status = 200
        · subst hok
          simpa only [readOutcome, Reply.Handled, hmissing, if_false, ne_eq, not_true, forall_const]
            using parsedOr_ok_iff
        · simp [readOutcome, Reply.Handled, hmissing, hok]

/-- `GET /internal/kv/{key}`: the raw local read. -/
def internalGetKey (storage : KVStore V) (key : String) : Except HttpException (KVResponse V) :=
  match storage.get key with
  | none => .error ⟨404, .keyNotFound key⟩
  | some entry => .ok ⟨key, entry.value, entry.timestamp, entry.nodeId⟩

/-- `POST /internal/replicate` of a node that was started with a fault-injection delay:
what it does once it has slept. -/
def replicateWithInjectedDelay (storage : KVStore V) (body : ReplicateRequest V) :
    KVStore V × ReplicateResponse :=
  let (storage, applied) := storage.put body.key body.value body.timestamp body.nodeId
  (storage, ⟨applied⟩)

/-- A peer that looks up `key` answers with exactly what it holds there. -/
theorem readOutcome_internalGetKey (storage : KVStore V) (key : String) :
    readOutcome (replyOf (internalGetKey storage key)) = .ok (true, storage.get key) := by
  unfold internalGetKey
  cases storage.get key <;> rfl

end KvReplication.Leaderless
