import KvReplication.Common.Server
import Mathlib.Algebra.GroupWithZero.Nat

/-! # What the load tests share

A run's requests are planned before it starts and split among the workers. The
workers draw the values they write from one counter and note the writes they know of
in one source of truth; each keeps its own statistics, merged at the end.
-/

namespace KvReplication.Experiments

/-- One request's decisions. `readTargetIndex` is set for reads. -/
structure RequestPlan where
  isRead : Bool
  key : String
  readTargetIndex : Option Nat
deriving DecidableEq

/-- `split_plan`: contiguous chunks, the first `len(plan) % num_workers` one longer. -/
def splitPlan (plan : List RequestPlan) (numWorkers : Nat) : List (List RequestPlan) :=
  let base := plan.length / numWorkers
  let remainder := plan.length % numWorkers
  let cut := fun (state : List (List RequestPlan) × Nat) (worker : Nat) =>
    let size := base + if worker < remainder then 1 else 0
    (state.1 ++ [(plan.drop state.2).take size], state.2 + size)
  ((List.range numWorkers).foldl cut ([], 0)).1

structure SourceEntry where
  value : Nat
  timestamp : PyFloat
deriving DecidableEq

/-- The latest confirmed write per key. -/
structure SourceOfTruth where
  entries : String → Option SourceEntry

namespace SourceOfTruth

def init : SourceOfTruth := ⟨fun _ => none⟩

/-- An update takes effect if its timestamp is newer than what is recorded. -/
def record (source : SourceOfTruth) (key : String) (value : Nat) (timestamp : PyFloat) :
    SourceOfTruth :=
  match source.entries key with
  | none => ⟨Function.update source.entries key (some ⟨value, timestamp⟩)⟩
  | some current =>
      if timestamp.gt current.timestamp then
        ⟨Function.update source.entries key (some ⟨value, timestamp⟩)⟩
      else source

def snapshot (source : SourceOfTruth) (key : String) : Option SourceEntry := source.entries key

/-- What a snapshot shows was there before, or is what was recorded last. -/
theorem snapshot_record {source : SourceOfTruth} {key other : String} {value : Nat}
    {timestamp : PyFloat} {entry : SourceEntry}
    (hentry : (source.record key value timestamp).snapshot other = some entry) :
    source.snapshot other = some entry ∨ other = key ∧ entry = ⟨value, timestamp⟩ := by
  have hupdated : ∀ {entry},
      Function.update source.entries key (some ⟨value, timestamp⟩) other = some entry →
        source.snapshot other = some entry ∨ other = key ∧ entry = ⟨value, timestamp⟩ := by
    intro entry hentry
    by_cases hkey : other = key
    · subst hkey
      rw [Function.update_self] at hentry
      exact Or.inr ⟨rfl, (Option.some.inj hentry).symm⟩
    · rw [Function.update_of_ne hkey] at hentry
      exact Or.inl hentry
  unfold record at hentry
  split at hentry
  · exact hupdated hentry
  · split at hentry
    · exact hupdated hentry
    · exact Or.inl hentry

end SourceOfTruth

inductive Operation where
  | read
  | write
deriving DecidableEq

/-- The buckets of `failure_counts`. -/
inductive FailureType where
  | timeout
  | connectionError
  | otherError
  | non2xx
deriving DecidableEq

/-- The `httpx.HTTPError` classes that are told apart. -/
inductive HttpxError where
  | timeoutException
  | connectError
  | other
deriving DecidableEq

/-- `_classify_exception`. -/
def classifyException : HttpxError → FailureType
  | .timeoutException => .timeout
  | .connectError => .connectionError
  | .other => .otherError

structure FailureEvent where
  operation : Operation
  failureType : FailureType
  key : String
  nodeId : String
  statusCode : Option Nat
  detail : Option String
  timestamp : ℚ
deriving DecidableEq

/-- A stale read; `actualTimestamp` is nothing for `"missing"`. -/
structure StaleEvent where
  key : String
  nodeIdField : String
  nodeId : String
  expectedTimestamp : PyFloat
  actualTimestamp : Option PyFloat
deriving DecidableEq

/-- Per-worker counters. -/
structure Stats where
  totalRequests : Nat
  totalReads : Nat
  totalWrites : Nat
  comparableReads : Nat
  staleReads : Nat
  staleEvents : List StaleEvent
  failedReads : Nat
  failedWrites : Nat
  failureCounts : Operation × FailureType → Nat
  failureEvents : List FailureEvent

namespace Stats

def init : Stats := ⟨0, 0, 0, 0, 0, [], 0, 0, fun _ => 0, []⟩

def merge (stats other : Stats) : Stats where
  totalRequests := stats.totalRequests + other.totalRequests
  totalReads := stats.totalReads + other.totalReads
  totalWrites := stats.totalWrites + other.totalWrites
  comparableReads := stats.comparableReads + other.comparableReads
  staleReads := stats.staleReads + other.staleReads
  staleEvents := stats.staleEvents ++ other.staleEvents
  failedReads := stats.failedReads + other.failedReads
  failedWrites := stats.failedWrites + other.failedWrites
  failureCounts bucket := stats.failureCounts bucket + other.failureCounts bucket
  failureEvents := stats.failureEvents ++ other.failureEvents

/-- The statistics of a run: those of all workers, merged into fresh ones. -/
def mergeAll (results : List Stats) : Stats := results.foldl merge init

/-- `_record_failure`. -/
def recordFailure (stats : Stats) (event : FailureEvent) : Stats :=
  let bucket := (event.operation, event.failureType)
  { stats with
    failedReads := stats.failedReads + if event.operation = .read then 1 else 0
    failedWrites := stats.failedWrites + if event.operation = .read then 0 else 1
    failureCounts := Function.update stats.failureCounts bucket (stats.failureCounts bucket + 1)
    failureEvents := stats.failureEvents ++ [event] }

/-- `_record_stale`. -/
def recordStale (stats : Stats) (event : StaleEvent) : Stats :=
  { stats with
    staleReads := stats.staleReads + 1
    staleEvents := stats.staleEvents ++ [event] }

@[simp] theorem staleReads_recordFailure (stats : Stats) (event : FailureEvent) :
    (stats.recordFailure event).staleReads = stats.staleReads := rfl

/-- A counter that merging adds up is in the end the sum over all workers. -/
theorem sum_mergeAll (counter : Stats → Nat) (hinit : counter init = 0)
    (hmerge : ∀ stats other, counter (stats.merge other) = counter stats + counter other)
    (results : List Stats) : counter (mergeAll results) = (results.map counter).sum := by
  have hfold : ∀ start : Stats, counter (results.foldl merge start) =
      counter start + (results.map counter).sum := by
    induction results with
    | nil => simp
    | cons first rest ih =>
        intro start
        rw [List.foldl_cons, ih, hmerge, List.map_cons, List.sum_cons, Nat.add_assoc]
  rw [mergeAll, hfold, hinit, Nat.zero_add]

theorem staleReads_mergeAll (results : List Stats) :
    (mergeAll results).staleReads = (results.map staleReads).sum :=
  sum_mergeAll staleReads rfl (fun _ _ => rfl) results

end Stats

/-- How a request of the test's HTTP client ends; `status` is an answer other than 200. -/
inductive HttpResult (Body : Type) where
  | raised (error : HttpxError) (detail : String)
  | status (code : Nat)
  | ok (body : Body)

/-- The answer of a handler as the client sees it. -/
def HttpResult.ofHandler {Body : Type} : HandlerResult Body → HttpResult Body
  | .ok (.ok body) => .ok body
  | result => .status (statusCode result)

/-- The answer counts for the comparison of a read. -/
def HttpResult.comparable {Body : Type} : HttpResult Body → Bool
  | .raised _ _ => false
  | .status code => code = 404
  | .ok _ => true

/-- The answer is a 200. -/
def HttpResult.isOk {Body : Type} : HttpResult Body → Bool
  | .ok _ => true
  | _ => false

/-- The end of `_do_write`, and the timestamp it goes on to record, if any. -/
def finishWrite (stats : Stats) (key nodeId : String) (now : ℚ) :
    HttpResult PutResponse → Stats × Option PyFloat
  | .raised error detail =>
      (stats.recordFailure ⟨.write, classifyException error, key, nodeId, none, some detail, now⟩,
        none)
  | .status code =>
      (stats.recordFailure ⟨.write, .non2xx, key, nodeId, some code, none, now⟩, none)
  -- a write that lost against a newer one is no failure, and there is nothing to record
  | .ok body => (stats, if body.applied then some body.timestamp else none)

/-- The end of `_do_read`: only an answer 200 or 404 counts for the comparison. -/
def finishRead {V : Type} (stats : Stats) (nodeIdField key nodeId : String) (expected : SourceEntry)
    (now : ℚ) : HttpResult (KVResponse V) → Stats
  | .raised error detail =>
      stats.recordFailure ⟨.read, classifyException error, key, nodeId, none, some detail, now⟩
  | .status code =>
      if code = 404 then
        { stats with comparableReads := stats.comparableReads + 1 }.recordStale
          ⟨key, nodeIdField, nodeId, expected.timestamp, none⟩
      else
        stats.recordFailure ⟨.read, .non2xx, key, nodeId, some code, none, now⟩
  | .ok body =>
      let stats := { stats with comparableReads := stats.comparableReads + 1 }
      if expected.timestamp.gt body.timestamp then
        stats.recordStale ⟨key, nodeIdField, nodeId, expected.timestamp, some body.timestamp⟩
      else stats

/-- A write brings no stale read, and something to record only from an answer that
says it was applied. -/
theorem finishWrite_cases (stats : Stats) (key nodeId : String) (now : ℚ)
    (result : HttpResult PutResponse) :
    (finishWrite stats key nodeId now result).1.staleReads = stats.staleReads ∧
      ∀ timestamp, (finishWrite stats key nodeId now result).2 = some timestamp →
        ∃ body, result = .ok body ∧ body.applied = true ∧ body.timestamp = timestamp := by
  cases result with
  | raised error detail => exact ⟨rfl, fun _ hsome => by cases hsome⟩
  | status code => exact ⟨rfl, fun _ hsome => by cases hsome⟩
  | ok body =>
      refine ⟨rfl, fun timestamp hsome => ⟨body, rfl, ?_⟩⟩
      simp only [finishWrite] at hsome
      split at hsome
      · next happlied => exact ⟨happlied, Option.some.inj hsome⟩
      · cases hsome

/-- A read is stale if it is answered 404, or with a timestamp below the expected one. -/
def HttpResult.stale {V : Type} (expected : SourceEntry) : HttpResult (KVResponse V) → Bool
  | .raised _ _ => false
  | .status code => code = 404
  | .ok body => expected.timestamp.gt body.timestamp

theorem HttpResult.stale_of_not_comparable {V : Type} {expected : SourceEntry}
    {result : HttpResult (KVResponse V)} (hnot : result.comparable = false) :
    result.stale expected = false := by
  cases result with
  | raised error detail => rfl
  | status code => exact hnot
  | ok body => cases hnot

theorem staleReads_finishRead {V : Type} (stats : Stats) (nodeIdField key nodeId : String)
    (expected : SourceEntry) (now : ℚ) (result : HttpResult (KVResponse V)) :
    (finishRead stats nodeIdField key nodeId expected now result).staleReads =
      stats.staleReads + if result.stale expected then 1 else 0 := by
  cases result with
  | raised error detail => rfl
  | status code =>
      by_cases hmissing : code = 404
      · simp [finishRead, HttpResult.stale, hmissing, Stats.recordStale]
      · simp [finishRead, HttpResult.stale, hmissing]
  | ok body =>
      by_cases hbelow : expected.timestamp.gt body.timestamp = true
      · simp [finishRead, HttpResult.stale, hbelow, Stats.recordStale]
      · simp [finishRead, HttpResult.stale, hbelow]

end KvReplication.Experiments
