import KvReplication.Experiments.FullSynchrony
import KvReplication.Experiments.MqStalenessLoadTest
import KvReplication.MessageQueue.ClientWrites

/-! # Stale reads come from followers that lag

The workers of the message-queue load test, the producer and the followers they send their
requests to. What the source of truth holds was confirmed by the broker, so a follower that
has committed all that is logged answers nothing older.
-/

namespace KvReplication.Experiments

open LeaderFollower (Follower)
open MessageQueue LastWriterWins

/-- The producer, the topic and the followers, the test and the request each worker has
under way. -/
structure LoadedQueue (V Bytes : Type) (partitions : Nat) where
  deployment : Deployment V Bytes Follower partitions
  test : MqStalenessLoadTest.TestState
  requests : Nat → Request V

inductive QueueAction (V : Type) (partitions : Nat) where
  /-- Anything at the broker and the followers, and requests of other clients. -/
  | deployment (action : DeploymentAction V Follower partitions)
  | worker (worker : Nat) (step : LocalStep)
  /-- The producer accepts the PUT of a worker. -/
  | acceptPut (worker : Nat) (now : ℚ)
  /-- The follower handles the GET of a worker. -/
  | serveGet (worker : Nat)
  /-- The broker has confirmed the message, and the producer's answer reaches the worker. -/
  | answerPut (worker : Nat) (metadata : RecordMetadata partitions) (now : ℚ)
  | answerGet (worker : Nat) (now : ℚ)
  /-- The PUT ends without a 200 of the producer. -/
  | failPut (worker : Nat) (now : ℚ) (result : HttpResult PutResponse)
  | failGet (worker : Nat) (now : ℚ) (result : HttpResult (KVResponse V))
  | lagEnds (worker : Nat) (answer : LagAnswer)

namespace LoadedQueue

variable {V Bytes : Type} {partitions : Nat}

/-- Before the first request: an empty topic, and every worker at the start of its chunk. -/
def start (plan : List RequestPlan) (numWorkers : Nat) : LoadedQueue V Bytes partitions :=
  ⟨Deployment.init, MqStalenessLoadTest.start plan numWorkers, fun _ => .sent⟩

section Step

variable [DecidableEq Bytes] (codec : Codec V Bytes) (followerId : Follower → String)
  (test : MqStalenessLoadTest) (route : String → Option String) (json : Nat → V)

/-- One action of the workers; whatever request the worker had under way is over. -/
def testStep (system : LoadedQueue V Bytes partitions) (worker : Nat)
    (action : MqStalenessLoadTest.Action V) : Option (LoadedQueue V Bytes partitions) := do
  let next ← test.step system.test action
  return { system with test := next, requests := Function.update system.requests worker .sent }

/-- One action; an action that is not enabled is refused. `route` is the key that a
request path `/kv/{key}` names at the server, and `json` the JSON number of a value. -/
def step (system : LoadedQueue V Bytes partitions) :
    QueueAction V partitions → Option (LoadedQueue V Bytes partitions)
  | .deployment action => do
      let next ← system.deployment.step codec followerId action
      return { system with deployment := next }
  | .worker worker step => testStep test system worker (.shared (.worker worker step))
  | .acceptPut worker now => do
      let current ← system.test.shared.workers[worker]?
      match current.stage, system.requests worker with
      | .writing key value, .sent =>
          let routed ← route key
          let next ← system.deployment.step codec followerId
            (.put (.producer test.producerNodeId) routed ⟨json value⟩ now)
          return { system with
            deployment := next
            requests := Function.update system.requests worker
              (.accepted system.deployment.puts.length) }
      | _, _ => none
  | .serveGet worker => do
      let current ← system.test.shared.workers[worker]?
      match current.stage, system.requests worker with
      | .reading follower key _, .sent =>
          let answer := followerAnswer (system.deployment.followers follower).store (route key)
          return { system with requests := Function.update system.requests worker (.served answer) }
      | _, _ => none
  | .answerPut worker metadata now =>
      match system.requests worker with
      | .accepted put => do
          let op ← system.deployment.puts[put]?
          let message ← op.message
          guard ((system.deployment.log metadata.partition)[metadata.offset]? = some message.2)
          let result := MessageQueue.putKey codec test.producerNodeId (fun _ => .ok metadata) op.key
            ⟨op.version.value⟩ op.version.timestamp
          testStep test system worker (.shared (.putEnds worker now (.ofHandler result)))
      | _ => none
  | .answerGet worker now =>
      match system.requests worker with
      | .served result => testStep test system worker (.shared (.getEnds worker now result))
      | _ => none
  | .failPut worker now result => do
      guard (result.isOk = false)
      testStep test system worker (.shared (.putEnds worker now result))
  | .failGet worker now result => do
      guard (result.comparable = false)
      testStep test system worker (.shared (.getEnds worker now result))
  | .lagEnds worker answer => do
      let next ← test.step (V := V) system.test (.lagEnds worker answer)
      return { system with test := next }

/-- The worker whose GET a follower handles while it has not committed all that is logged. -/
def laggingRead (system : LoadedQueue V Bytes partitions) : QueueAction V partitions → Option Nat
  | .serveGet worker => do
      match (← system.test.shared.workers[worker]?).stage with
      | .reading follower _ _ =>
          let lags := computeLag system.deployment.log (system.deployment.followers follower)
          if totalLag lags = 0 then none else some worker
      | _ => none
  | _ => none

end Step

variable {codec : Codec V Bytes} {followerId : Follower → String} {test : MqStalenessLoadTest}
  {route : String → Option String} {json : Nat → V} {system next : LoadedQueue V Bytes partitions}

/-- No client deletes a key, and no follower restarts where it still needs what lies below its
offsets. -/
def KeepsLogged (codec : Codec V Bytes) (system : LoadedQueue V Bytes partitions) :
    QueueAction V partitions → Prop
  | .deployment action => system.deployment.KeepsLogged codec action
  | _ => True

/-! ### What a worker may rely on -/

/-- A version of the key with this timestamp is logged. -/
def Logged (codec : Codec V Bytes) (route : String → Option String)
    (deployment : Deployment V Bytes Follower partitions) (key : String) (timestamp : PyFloat) :
    Prop :=
  ∃ routed version, route key = some routed ∧ version.timestamp = timestamp ∧
    version ∈ loggedVersions codec deployment.log routed

/-- What a worker has seen was logged. -/
def WorkerSound (codec : Codec V Bytes) (route : String → Option String)
    (deployment : Deployment V Bytes Follower partitions) (request : Request V) :
    WorkerStage → Prop
  | .ready | .numbering _ | .snapshotting _ _ => True
  | .writing key _ => ∀ put, request = .accepted put → ∃ op, deployment.puts[put]? = some op ∧
      route key = some op.key
  | .recording key _ timestamp => Logged codec route deployment key timestamp
  | .reading _ key expected => Logged codec route deployment key expected.timestamp

/-- The stale reads a worker has counted, with the one it is about to count. -/
def staleReads (stats : Stats) (request : Request V) : WorkerStage → Nat
  | .reading _ _ expected => stats.staleReads + match request with
      | .served result => if result.stale expected then 1 else 0
      | _ => 0
  | _ => stats.staleReads

theorem staleReads_sent (stats : Stats) (stage : WorkerStage) :
    staleReads stats (.sent : Request V) stage = stats.staleReads := by
  cases stage <;> rfl

theorem le_staleReads (stats : Stats) (request : Request V) (stage : WorkerStage) :
    stats.staleReads ≤ staleReads stats request stage := by
  cases stage with
  | reading follower key expected => exact Nat.le_add_right _ _
  | _ => exact Nat.le_refl _

section Growth

variable {deployment later : Deployment V Bytes Follower partitions}

theorem Logged.grow {key : String} {timestamp : PyFloat}
    (hlogged : Logged codec route deployment key timestamp)
    (hgrows : Deployment.Grows codec deployment later) :
    Logged codec route later key timestamp := by
  obtain ⟨routed, version, hroute, htimestamp, hversion⟩ := hlogged
  exact ⟨routed, version, hroute, htimestamp, hgrows.log routed hversion⟩

theorem WorkerSound.grow {request : Request V} {stage : WorkerStage}
    (hsound : WorkerSound codec route deployment request stage)
    (hgrows : Deployment.Grows codec deployment later) :
    WorkerSound codec route later request stage := by
  cases stage with
  | ready => trivial
  | numbering key => trivial
  | writing key value =>
      intro put hrequest
      obtain ⟨op, hop, hroute⟩ := hsound put hrequest
      exact ⟨op, hgrows.puts put op hop, hroute⟩
  | recording key value timestamp => exact Logged.grow hsound hgrows
  | snapshotting follower key => trivial
  | reading follower key expected => exact Logged.grow hsound hgrows

/-- A follower without lag answers a GET with nothing below what is logged. -/
theorem Logged.fresh {key : String} {expected : SourceEntry}
    (hlogged : Logged codec route deployment key expected.timestamp)
    (hcovering : deployment.Covering codec) {follower : Follower}
    (hlag : totalLag (computeLag deployment.log (deployment.followers follower)) = 0) :
    (followerAnswer (deployment.followers follower).store (route key)).stale expected = false := by
  obtain ⟨routed, version, hroute, htimestamp, hversion⟩ := hlogged
  have hholds := (hcovering.followers follower).holds_logged hlag hversion
  obtain ⟨response, hget, hnot⟩ := Server.getKey_of_holds hholds
  rw [hroute, followerAnswer, hget]
  change expected.timestamp.gt response.timestamp = false
  rw [← htimestamp, Bool.eq_false_iff]
  exact fun hgt => hnot (VersionedValue.newer_iff.mpr (Or.inl hgt))

end Growth

/-- The followers cover what they were handed, every recorded write is logged, and each worker
has had as many reads handled by a lagging follower as it has seen stale. `lagging` are the
workers of the reads that lagging followers have handled. -/
structure Explained (codec : Codec V Bytes) (route : String → Option String)
    (lagging : List Nat) (system : LoadedQueue V Bytes partitions) : Prop where
  covering : system.deployment.Covering codec
  recorded : ∀ key entry, system.test.shared.source.snapshot key = some entry →
    Logged codec route system.deployment key entry.timestamp
  workers : ∀ (index : Nat) worker, system.test.shared.workers[index]? = some worker →
    staleReads worker.stats (system.requests index) worker.stage ≤ lagging.count index ∧
      WorkerSound codec route system.deployment (system.requests index) worker.stage

variable {lagging : List Nat}

theorem Explained.start (plan : List RequestPlan) (numWorkers : Nat) :
    (start plan numWorkers : LoadedQueue V Bytes partitions).Explained codec route [] where
  covering := Deployment.Covering.init
  recorded key entry hentry := by cases hentry
  workers index worker hworker := by
    obtain ⟨chunk, _, rfl⟩ := List.mem_map.mp (List.mem_of_getElem? hworker)
    exact ⟨Nat.le_refl _, trivial⟩

/-- The broker and the followers go on. -/
theorem Explained.deployment_step
    (hroundtrip : ∀ request raw, codec.dumpJson request = .ok raw →
      codec.validateJson raw = some request)
    (hexplained : system.Explained codec route lagging)
    {action : DeploymentAction V Follower partitions}
    {deployment : Deployment V Bytes Follower partitions}
    (hkeeps : system.deployment.KeepsLogged codec action)
    (hnext : system.deployment.step codec followerId action = some deployment) :
    { system with deployment := deployment }.Explained codec route lagging := by
  have hgrows : Deployment.Grows codec system.deployment deployment :=
    Deployment.grows_of_step hnext
  refine ⟨hexplained.covering.step hroundtrip hkeeps hnext, ?_, ?_⟩
  · intro key entry hentry
    exact (hexplained.recorded key entry hentry).grow hgrows
  · intro index worker hworker
    obtain ⟨hcount, hstage⟩ := hexplained.workers index worker hworker
    exact ⟨hcount, hstage.grow hgrows⟩

/-- One worker goes on, and its request is over. -/
theorem Explained.set (hexplained : system.Explained codec route lagging) {index : Nat}
    {worker : Worker} (hcount : worker.stats.staleReads ≤ lagging.count index)
    (hworker : WorkerSound codec route system.deployment (.sent : Request V) worker.stage)
    {test : MqStalenessLoadTest.TestState}
    (hworkers : test.shared.workers = system.test.shared.workers.set index worker)
    (hrecorded : ∀ key entry, test.shared.source.snapshot key = some entry →
      Logged codec route system.deployment key entry.timestamp) :
    { system with
      test := test
      requests := Function.update system.requests index .sent }.Explained codec route lagging where
  covering := hexplained.covering
  recorded := hrecorded
  workers other current hcurrent := by
    change test.shared.workers[other]? = some current at hcurrent
    rw [hworkers] at hcurrent
    change staleReads current.stats (Function.update system.requests index .sent other)
        current.stage ≤ lagging.count other ∧
      WorkerSound codec route system.deployment
        (Function.update system.requests index .sent other) current.stage
    by_cases heq : other = index
    · subst heq
      rw [Function.update_self, staleReads_sent]
      rw [List.getElem?_set_self'] at hcurrent
      obtain ⟨_, _, rfl⟩ := Option.map_eq_some_iff.mp hcurrent
      exact ⟨hcount, hworker⟩
    · rw [Function.update_of_ne heq]
      rw [List.getElem?_set_ne (Ne.symm heq)] at hcurrent
      exact hexplained.workers other current hcurrent

/-- A request of a worker moves on at a server; the worker still waits. -/
theorem Explained.request (hexplained : system.Explained codec route lagging) {index : Nat}
    {request : Request V} {more : List Nat}
    (hrequest : ∀ worker, system.test.shared.workers[index]? = some worker →
      staleReads worker.stats request worker.stage ≤ (lagging ++ more).count index ∧
        WorkerSound codec route system.deployment request worker.stage) :
    { system with
      requests := Function.update system.requests index request }.Explained codec route
        (lagging ++ more) where
  covering := hexplained.covering
  recorded := hexplained.recorded
  workers other current hcurrent := by
    change staleReads current.stats (Function.update system.requests index request other)
        current.stage ≤ (lagging ++ more).count other ∧
      WorkerSound codec route system.deployment
        (Function.update system.requests index request other) current.stage
    by_cases heq : other = index
    · subst heq
      rw [Function.update_self]
      exact hrequest current hcurrent
    · rw [Function.update_of_ne heq]
      obtain ⟨hcount, hstage⟩ := hexplained.workers other current hcurrent
      refine ⟨hcount.trans ?_, hstage⟩
      rw [List.count_append]
      exact Nat.le_add_right _ _

/-- What a worker takes up next it knows of from a snapshot at most. -/
theorem Explained.local_step (hexplained : system.Explained codec route lagging) {index : Nat}
    {step : LocalStep}
    (hnext : testStep test system index (.shared (.worker index step)) = some next) :
    next.Explained codec route lagging := by
  obtain ⟨state, hstep, hnext⟩ := Option.bind_eq_some_iff.mp hnext
  obtain rfl := Option.some.inj hnext
  obtain ⟨current, changed, hcurrent, hmove, hworkers⟩ :=
    StalenessLoadTest.localMove_of_localStep (MqStalenessLoadTest.step_shared hstep).2.1
  obtain ⟨hcount, hstage⟩ := hexplained.workers index current hcurrent
  have hcounted := (le_staleReads current.stats (system.requests index) current.stage).trans hcount
  obtain ⟨hchangedCount, hchangedStage, hrecorded⟩ :
      changed.stats.staleReads ≤ lagging.count index ∧
      WorkerSound codec route system.deployment (.sent : Request V) changed.stage ∧
      ∀ key entry, state.shared.source.snapshot key = some entry →
        Logged codec route system.deployment key entry.timestamp := by
    generalize state.shared.source = source at hmove
    cases hmove with
    | take hready htake =>
        obtain ⟨hstale, ⟨follower, _, key, hread⟩ | ⟨key, hwrite⟩⟩ :=
          StalenessLoadTest.takeRequest_cases htake
        · refine ⟨hstale ▸ hcounted, ?_, hexplained.recorded⟩
          rw [hread]
          trivial
        · refine ⟨hstale ▸ hcounted, ?_, hexplained.recorded⟩
          rw [hwrite]
          trivial
    | number hnumbering =>
        refine ⟨hcounted, ?_, hexplained.recorded⟩
        intro put hrequest
        cases hrequest
    | skip hsnapshotting hnone => exact ⟨hcounted, trivial, hexplained.recorded⟩
    | @expect follower key expected hsnapshotting hsome =>
        exact ⟨hcounted, hexplained.recorded key expected hsome, hexplained.recorded⟩
    | @record key value timestamp hrecording =>
        rw [hrecording] at hstage
        refine ⟨hcounted, trivial, fun other entry hentry => ?_⟩
        rcases SourceOfTruth.snapshot_record hentry with hold | ⟨rfl, rfl⟩
        · exact hexplained.recorded other entry hold
        · exact hstage
  exact hexplained.set hchangedCount hchangedStage hworkers hrecorded

/-- A PUT that ends brings something to record only from a 200 of the producer. -/
theorem Explained.putEnds (hexplained : system.Explained codec route lagging) {index : Nat}
    {now : ℚ} {result : HttpResult PutResponse}
    (hlogged : ∀ body key value worker, result = .ok body →
      system.test.shared.workers[index]? = some worker → worker.stage = .writing key value →
      Logged codec route system.deployment key body.timestamp)
    (hnext : testStep test system index (.shared (.putEnds index now result)) = some next) :
    next.Explained codec route lagging := by
  obtain ⟨state, hstep, hnext⟩ := Option.bind_eq_some_iff.mp hnext
  obtain rfl := Option.some.inj hnext
  have hshared := (MqStalenessLoadTest.step_shared hstep).2.1
  simp only [StalenessLoadTest.step, Option.ite_none_right_eq_some] at hshared
  obtain ⟨current, key, value, hcurrent, hwriting, hstate⟩ :=
    StalenessLoadTest.putEnds_eq_some.mp hshared.2
  obtain ⟨hstale, happlied⟩ :=
    finishWrite_cases current.stats key test.shared.leaderNodeId now result
  obtain ⟨hcount, _⟩ := hexplained.workers index current hcurrent
  have hcounted := (le_staleReads current.stats (system.requests index) current.stage).trans hcount
  apply hexplained.set (hstale ▸ hcounted) ?_ (by rw [hstate]) (by rw [hstate]; exact
    hexplained.recorded)
  cases hrecord : (finishWrite current.stats key test.shared.leaderNodeId now result).2 with
  | none => trivial
  | some timestamp =>
      obtain ⟨body, hbody, _, rfl⟩ := happlied timestamp hrecord
      exact hlogged body key value current hbody hcurrent hwriting

/-- A GET that ends counts at most what its answer had brought. -/
theorem Explained.getEnds (hexplained : system.Explained codec route lagging) {index : Nat}
    {now : ℚ} {result : HttpResult (KVResponse V)}
    (hcounted : ∀ follower key expected worker, system.test.shared.workers[index]? = some worker →
      worker.stage = .reading follower key expected →
      worker.stats.staleReads + (if result.stale expected then 1 else 0) ≤ lagging.count index)
    (hnext : testStep test system index (.shared (.getEnds index now result)) = some next) :
    next.Explained codec route lagging := by
  obtain ⟨state, hstep, hnext⟩ := Option.bind_eq_some_iff.mp hnext
  obtain rfl := Option.some.inj hnext
  obtain ⟨current, follower, key, expected, hcurrent, hreading, hstate⟩ :=
    StalenessLoadTest.getEnds_eq_some.mp (MqStalenessLoadTest.step_shared hstep).2.1
  refine hexplained.set ?_ ?_ (by rw [hstate]) (by rw [hstate]; exact hexplained.recorded)
  · rw [staleReads_finishRead]
    exact hcounted follower key expected current hcurrent hreading
  · trivial

theorem Explained.acceptPut
    (hroundtrip : ∀ request raw, codec.dumpJson request = .ok raw →
      codec.validateJson raw = some request) [DecidableEq Bytes]
    (hexplained : system.Explained codec route lagging) {worker : Nat} {now : ℚ}
    (hnext : step codec followerId test route json system (.acceptPut worker now) = some next) :
    next.Explained codec route lagging := by
  simp only [step, Option.bind_eq_bind, Option.bind_eq_some_iff] at hnext
  obtain ⟨current, hcurrent, hnext⟩ := hnext
  split at hnext
  · next key value hwriting hsent =>
      simp only [Option.bind_eq_some_iff, Option.pure_def, Option.some.injEq] at hnext
      obtain ⟨routed, hroute, deployment, hput, rfl⟩ := hnext
      have hgone := hexplained.deployment_step hroundtrip
        (show system.deployment.KeepsLogged codec (.put _ routed _ now) from trivial) hput
      obtain rfl := Option.some.inj hput
      rw [← List.append_nil lagging]
      refine hgone.request fun other hother => ?_
      obtain rfl := Option.some.inj (hcurrent.symm.trans hother)
      have hcount := (hexplained.workers worker current hcurrent).1
      rw [hwriting] at hcount ⊢
      rw [List.append_nil]
      refine ⟨hcount, fun put haccepted => ?_⟩
      -- the producer's write is the one it has just stamped
      obtain rfl := Request.accepted.inj haccepted
      exact ⟨_, List.getElem?_concat_length, hroute⟩
  · cases hnext

/-- Only a follower that lags can hand a worker a stale answer. -/
theorem Explained.serveGet [DecidableEq Bytes]
    (hexplained : system.Explained codec route lagging) {worker : Nat}
    (hnext : step codec followerId test route json system (.serveGet worker) = some next) :
    next.Explained codec route
      (lagging ++ (laggingRead system (.serveGet worker : QueueAction V partitions)).toList) := by
  simp only [step, Option.bind_eq_bind, Option.bind_eq_some_iff] at hnext
  obtain ⟨current, hcurrent, hnext⟩ := hnext
  split at hnext
  · next follower key expected hreading hsent =>
      obtain rfl := Option.some.inj hnext
      refine hexplained.request fun other hother => ?_
      obtain rfl := Option.some.inj (hcurrent.symm.trans hother)
      obtain ⟨hcount, hstage⟩ := hexplained.workers worker current hcurrent
      rw [hsent, staleReads_sent] at hcount
      rw [hreading] at hstage ⊢
      refine ⟨?_, hstage⟩
      have hlagging : laggingRead system (.serveGet worker : QueueAction V partitions) =
          if totalLag (computeLag system.deployment.log
            (system.deployment.followers follower)) = 0 then none else some worker := by
        simp [laggingRead, hcurrent, hreading]
      rw [hlagging]
      by_cases hlag : totalLag (computeLag system.deployment.log
        (system.deployment.followers follower)) = 0
      · have hfresh := Logged.fresh hstage hexplained.covering hlag
        simpa [staleReads, hlag, hfresh] using hcount
      · rw [if_neg hlag, List.count_append]
        have hone : (if (followerAnswer (system.deployment.followers follower).store
            (route key)).stale expected then 1 else 0) ≤ 1 := by
          split <;> omega
        simpa [staleReads] using Nat.add_le_add hcount hone
  · cases hnext

theorem Explained.answerPut [DecidableEq Bytes]
    (hexplained : system.Explained codec route lagging) {worker : Nat}
    {metadata : RecordMetadata partitions} {now : ℚ}
    (hnext : step codec followerId test route json system (.answerPut worker metadata now) =
      some next) : next.Explained codec route lagging := by
  simp only [step] at hnext
  split at hnext
  · next put haccepted =>
      simp only [Option.bind_eq_bind, Option.bind_eq_some_iff, Option.guard_eq_some'] at hnext
      obtain ⟨op, hop, message, hmessage, _, hconfirmed, hends⟩ := hnext
      refine hexplained.putEnds (fun body key value current hbody hcurrent hwriting => ?_) hends
      have hstage := (hexplained.workers worker current hcurrent).2
      rw [hwriting] at hstage
      obtain ⟨found, hfound, hroute⟩ := hstage put haccepted
      obtain rfl := Option.some.inj (hfound.symm.trans hop)
      have hparsed := hexplained.covering.encoded found (List.mem_of_getElem? hop) message hmessage
      refine ⟨found.key, found.version, hroute, ?_, mem_loggedVersions_of_getElem? hconfirmed
        hparsed⟩
      -- the answer echoes the timestamp of the message
      cases hanswer : MessageQueue.putKey codec test.producerNodeId (fun _ => .ok metadata)
          found.key ⟨found.version.value⟩ found.version.timestamp with
      | error error =>
          rw [hanswer] at hbody
          cases hbody
      | ok answered =>
          rw [hanswer] at hbody
          cases answered with
          | error exception => cases hbody
          | ok response =>
              obtain ⟨hresponse, _⟩ := putKey_eq_ok_iff.mp hanswer
              rw [← HttpResult.ok.inj hbody, hresponse]
  · cases hnext

theorem Explained.answerGet [DecidableEq Bytes]
    (hexplained : system.Explained codec route lagging) {worker : Nat} {now : ℚ}
    (hnext : step codec followerId test route json system (.answerGet worker now) = some next) :
    next.Explained codec route lagging := by
  simp only [step] at hnext
  split at hnext
  · next result hserved =>
      refine hexplained.getEnds (fun follower key expected current hcurrent hreading => ?_) hnext
      have hcount := (hexplained.workers worker current hcurrent).1
      rw [hserved, hreading] at hcount
      exact hcount
  · cases hnext

theorem Explained.step
    (hroundtrip : ∀ request raw, codec.dumpJson request = .ok raw →
      codec.validateJson raw = some request) [DecidableEq Bytes]
    (hexplained : system.Explained codec route lagging) {action : QueueAction V partitions}
    (hkeeps : system.KeepsLogged codec action)
    (hnext : LoadedQueue.step codec followerId test route json system action = some next) :
    next.Explained codec route (lagging ++ (laggingRead system action).toList) := by
  have hsilent : next.Explained codec route lagging → laggingRead system action = none →
      next.Explained codec route (lagging ++ (laggingRead system action).toList) := by
    intro hlater hnone
    rw [hnone, Option.toList_none, List.append_nil]
    exact hlater
  cases action with
  | deployment action =>
      obtain ⟨deployment, hstep, hnext⟩ := Option.bind_eq_some_iff.mp hnext
      obtain rfl := Option.some.inj hnext
      exact hsilent (hexplained.deployment_step hroundtrip hkeeps hstep) rfl
  | worker worker step => exact hsilent (hexplained.local_step hnext) rfl
  | acceptPut worker now => exact hsilent (hexplained.acceptPut hroundtrip hnext) rfl
  | serveGet worker => exact hexplained.serveGet hnext
  | answerPut worker metadata now => exact hsilent (hexplained.answerPut hnext) rfl
  | answerGet worker now => exact hsilent (hexplained.answerGet hnext) rfl
  | failPut worker now result =>
      simp only [LoadedQueue.step, Option.bind_eq_bind, Option.bind_eq_some_iff,
        Option.guard_eq_some'] at hnext
      obtain ⟨_, hfails, hends⟩ := hnext
      refine hsilent (hexplained.putEnds (fun body key value current hbody => ?_) hends) rfl
      rw [hbody] at hfails
      cases hfails
  | failGet worker now result =>
      simp only [LoadedQueue.step, Option.bind_eq_bind, Option.bind_eq_some_iff,
        Option.guard_eq_some'] at hnext
      obtain ⟨_, hfails, hends⟩ := hnext
      refine hsilent (hexplained.getEnds
        (fun follower key expected current hcurrent _ => ?_) hends) rfl
      rw [HttpResult.stale_of_not_comparable hfails]
      exact (le_staleReads _ _ _).trans (hexplained.workers worker current hcurrent).1
  | lagEnds worker answer =>
      obtain ⟨state, hstep, hnext⟩ := Option.bind_eq_some_iff.mp hnext
      obtain rfl := Option.some.inj hnext
      obtain ⟨_, _, _, rfl⟩ := MqStalenessLoadTest.step_lagEnds hstep
      exact hsilent ⟨hexplained.covering, hexplained.recorded, hexplained.workers⟩ rfl

variable [DecidableEq Bytes]

/-- In every run without deletes whose restarts are all safe, a worker has counted at most as many
stale reads as GETs of its were handled by a follower that had not committed all that was
logged. -/
theorem stale_reads_le_lagging
    (hroundtrip : ∀ request raw, codec.dumpJson request = .ok raw →
      codec.validateJson raw = some request)
    {plan : List RequestPlan} {numWorkers : Nat} {actions : List (QueueAction V partitions)}
    {final : LoadedQueue V Bytes partitions}
    (hkeeps : Runs.Along (LoadedQueue.step codec followerId test route json)
      (KeepsLogged codec) (LoadedQueue.start plan numWorkers) actions)
    (hrun : Runs.run (LoadedQueue.step codec followerId test route json)
      (LoadedQueue.start plan numWorkers) actions = some final)
    {index : Nat} {worker : Worker} (hworker : final.test.shared.workers[index]? = some worker) :
    worker.stats.staleReads ≤
      (Runs.observations (LoadedQueue.step codec followerId test route json) laggingRead
        (LoadedQueue.start plan numWorkers) actions).count index := by
  have hexplained : final.Explained codec route
      (Runs.observations (LoadedQueue.step codec followerId test route json) laggingRead
        (LoadedQueue.start plan numWorkers) actions) :=
    Runs.run_observed_invariant_along (fun lagging system => system.Explained codec route lagging)
      (fun _ _ _ _ hkeep hexplained hnext => hexplained.step hroundtrip hkeep hnext) hkeeps
      (Explained.start plan numWorkers) hrun
  exact (le_staleReads worker.stats (final.requests index) worker.stage).trans
    (hexplained.workers index worker hworker).1

/-- One worker, one follower and a topic of one partition. -/
def smallQueue : MqStalenessLoadTest := ⟨[8201], fun _ => none, "producer"⟩

/-- Its partition. -/
def onlyPartition : Fin 1 := Fin.last 0

/-- The worker writes a key and reads it before and after the follower has consumed the write;
the follower restarts before that. -/
def lateConsumer : List (QueueAction Nat 1) :=
  [.deployment (.consume ⟨"127.0.0.1", 8201⟩ .restart),
    .worker 0 .next, .worker 0 .nextValue, .acceptPut 0 5, .deployment (.append 0 onlyPartition),
    .answerPut 0 ⟨onlyPartition, 0⟩ 6, .worker 0 .record,
    .worker 0 .next, .worker 0 .snapshot, .serveGet 0, .answerGet 0 7, .lagEnds 0 (.ok 1),
    .deployment (.consume ⟨"127.0.0.1", 8201⟩ (.receive onlyPartition)),
    .deployment (.consume ⟨"127.0.0.1", 8201⟩ .apply),
    .deployment (.consume ⟨"127.0.0.1", 8201⟩ .commit),
    .worker 0 .next, .worker 0 .snapshot, .serveGet 0, .answerGet 0 8]

/-- The requests of `lateConsumer`. -/
def lateConsumerPlan : List RequestPlan :=
  [⟨false, "k", none⟩, ⟨true, "k", some 0⟩, ⟨true, "k", some 0⟩]

theorem keepsLogged_lateConsumer :
    Runs.Along (LoadedQueue.step plainCodec (fun _ => "follower") smallQueue some id)
      (KeepsLogged plainCodec) (LoadedQueue.start lateConsumerPlan 1) lateConsumer := by
  refine ⟨safeRestart_zero, fun next _ => Runs.along_of_forall ?_ next⟩
  intro state action haction
  cases action with
  | deployment action =>
      cases action with
      | consume follower consumed =>
          cases consumed with
          | restart => simp at haction
          | _ => trivial
      | delete follower key => simp at haction
      | _ => trivial
  | _ => trivial

theorem stale_reads_le_lagging_late :
    ∃ final : LoadedQueue Nat (Option (ReplicateRequest Nat)) 1, ∃ worker,
      Runs.run (LoadedQueue.step plainCodec (fun _ => "follower") smallQueue some id)
        (LoadedQueue.start lateConsumerPlan 1) lateConsumer = some final ∧
      final.test.shared.workers[0]? = some worker ∧
      worker.stats.staleReads = 1 ∧ worker.stats.comparableReads = 2 ∧
      worker.stats.staleReads ≤ (Runs.observations
        (LoadedQueue.step plainCodec (fun _ => "follower") smallQueue some id) laggingRead
        (LoadedQueue.start lateConsumerPlan 1) lateConsumer).count 0 := by
  obtain ⟨final, worker, hrun, hworker, hstale, hcomparable⟩ :
      ∃ final : LoadedQueue Nat (Option (ReplicateRequest Nat)) 1, ∃ worker,
        Runs.run (LoadedQueue.step plainCodec (fun _ => "follower") smallQueue some id)
          (LoadedQueue.start lateConsumerPlan 1) lateConsumer = some final ∧
        final.test.shared.workers[0]? = some worker ∧
        worker.stats.staleReads = 1 ∧ worker.stats.comparableReads = 2 :=
    ⟨_, _, rfl, rfl, rfl, rfl⟩
  have hroundtrip : ∀ (request : ReplicateRequest Nat) raw,
      plainCodec.dumpJson request = .ok raw → plainCodec.validateJson raw = some request := by
    rintro request _ ⟨⟩
    rfl
  exact ⟨final, worker, hrun, hworker, hstale, hcomparable,
    stale_reads_le_lagging hroundtrip keepsLogged_lateConsumer hrun hworker⟩

end LoadedQueue

end KvReplication.Experiments
