import KvReplication.Experiments.LeaderlessLoadTest
import KvReplication.Experiments.SplitPlan
import KvReplication.Leaderless.Requests

/-! # The load test over quorums that overlap

The workers of the leaderless load test and the cluster they send their requests to. Where
`w + r` exceeds the cluster size, every write that a snapshot shows was acked by nodes that
the read after it cannot all miss, however the calls of both are delayed or reordered.
-/

namespace KvReplication.Experiments

open Leaderless LastWriterWins

/-- A worker's request: sent, accepted by its coordinator, or refused before that. -/
inductive QuorumRequest where
  | sent
  | put (number : Nat)
  | get (number : Nat)
  | refused (exception : HttpException)

/-- The cluster, the test and the request each worker has under way. -/
structure LoadedQuorums (V : Type) where
  cluster : State V
  test : LeaderlessLoadTest.TestState
  requests : Nat → QuorumRequest

inductive QuorumAction (V : Type) where
  /-- Anything in the cluster: the calls between nodes, and requests of other clients. -/
  | cluster (action : Action V)
  | worker (worker : Nat) (step : LeaderlessLoadTest.LocalStep)
  /-- The coordinator takes up the request of a worker. -/
  | acceptPut (worker : Nat) (now : ℚ)
  | acceptGet (worker : Nat) (sample : List Node)
  /-- The coordinator's answer reaches the worker. -/
  | answerPut (worker : Nat) (now : ℚ)
  | answerGet (worker : Nat) (now : ℚ)
  /-- The request ends without the coordinator's answer to it. -/
  | failPut (worker : Nat) (now : ℚ) (result : HttpResult PutResponse)
  | failGet (worker : Nat) (now : ℚ) (result : HttpResult (KVResponse V))

/-- No client deletes a key. -/
def QuorumAction.KeepsKeys {V : Type} : QuorumAction V → Prop
  | .cluster action => action.KeepsKeys
  | _ => True

namespace LoadedQuorums

variable {V : Type}

/-- Before the first request: empty stores, and every worker at the start of its chunk. -/
def start (plan : List RequestPlan) (numWorkers : Nat) : LoadedQuorums V :=
  ⟨Cluster.init, LeaderlessLoadTest.start plan numWorkers, fun _ => .sent⟩

section Step

variable (cluster : Cluster) (test : LeaderlessLoadTest) (w r : Option Int)
  (route : String → Option String) (json : Nat → V)

/-- The `w` and `r` of every request: the overrides of the run, or the cluster's defaults. -/
def wRequired : Int := w.getD cluster.config.defaultW

def rRequired : Int := r.getD cluster.config.defaultR

/-- What the coordinator answers to the PUT of a worker, once it does. -/
def putReply (system : LoadedQuorums V) (worker : Nat) : Option (HandlerResult PutResponse) :=
  match system.requests worker with
  | .put number => (system.cluster.puts[number]?).bind (PutOp.answer cluster.config)
  | .refused exception => some (.ok (.error exception))
  | _ => none

def getReply (system : LoadedQuorums V) (worker : Nat) : Option (HandlerResult (KVResponse V)) :=
  match system.requests worker with
  | .get number => (system.cluster.gets[number]?).bind (GetOp.answer cluster.config)
  | .refused exception => some (.ok (.error exception))
  | _ => none

/-- One action; an action that is not enabled is refused. `route` is the key that a
request path `/kv/{key}` names at the server, and `json` the JSON number of a value. -/
def step (system : LoadedQuorums V) : QuorumAction V → Option (LoadedQuorums V)
  | .cluster action => do
      let next ← cluster.step system.cluster action
      return { system with cluster := next }
  | .worker worker step => do
      let next ← test.localStep system.test worker step
      return { system with test := next, requests := Function.update system.requests worker .sent }
  | .acceptPut worker now => do
      let current ← system.test.workers[worker]?
      let answer := fun (request : QuorumRequest) (state : State V) => { system with
        cluster := state, requests := Function.update system.requests worker request }
      match current.stage, system.requests worker with
      | .writing coordinator key value, .sent =>
          match route key, validateQuorumParam (wRequired cluster w) "w" cluster.size with
          | none, _ => return answer (.refused ⟨404, .routeNotFound⟩) system.cluster
          | some _, .error exception => return answer (.refused exception) system.cluster
          | some routed, .ok () =>
              let next ← cluster.step system.cluster (.stamp coordinator routed w ⟨json value⟩ now)
              return answer (.put system.cluster.puts.length) next
      | _, _ => none
  | .acceptGet worker sample => do
      let current ← system.test.workers[worker]?
      let answer := fun (request : QuorumRequest) (state : State V) => { system with
        cluster := state, requests := Function.update system.requests worker request }
      match current.stage, system.requests worker with
      | .reading coordinator key _, .sent =>
          match route key, validateQuorumParam (rRequired cluster r) "r" cluster.size with
          | none, _ => return answer (.refused ⟨404, .routeNotFound⟩) system.cluster
          | some _, .error exception => return answer (.refused exception) system.cluster
          | some routed, .ok () =>
              let next ← cluster.step system.cluster (.get coordinator routed r sample)
              return answer (.get system.cluster.gets.length) next
      | _, _ => none
  | .answerPut worker now => do
      let result ← putReply cluster system worker
      let next ← test.putEnds system.test worker now (.ofHandler result)
      return { system with test := next, requests := Function.update system.requests worker .sent }
  | .answerGet worker now => do
      let result ← getReply cluster system worker
      let next ← test.getEnds system.test worker now (.ofHandler result)
      return { system with test := next, requests := Function.update system.requests worker .sent }
  | .failPut worker now result => do
      guard (result.isOk = false)
      let next ← test.putEnds system.test worker now result
      return { system with test := next, requests := Function.update system.requests worker .sent }
  | .failGet worker now result => do
      guard (result.comparable = false)
      let next ← test.getEnds system.test worker now result
      return { system with test := next, requests := Function.update system.requests worker .sent }

end Step

variable {cluster : Cluster} {test : LeaderlessLoadTest} {w r : Option Int}
  {route : String → Option String} {json : Nat → V} {system next : LoadedQuorums V}

/-! ### What a worker may rely on -/

/-- The nodes look up a request for the key under the key it was sent for. -/
def SafeKey (route : String → Option String) (key : String) : Prop :=
  ∀ routed, route key = some routed → Admitted routed ∧ UrlSafe routed

/-- As many nodes as `required` hold a version of the key with this timestamp, or a newer one. -/
def QuorumHeld (cluster : Cluster) (route : String → Option String) (required : Int)
    (stores : Node → KVStore V) (key : String) (timestamp : PyFloat) : Prop :=
  ∃ (routed : String) (version : VersionedValue V) (holders : Finset Node),
    route key = some routed ∧ version.timestamp = timestamp ∧
      holders ⊆ cluster.config.nodes.toFinset ∧ required ≤ holders.card ∧
      ∀ node ∈ holders, (stores node).Holds routed version

theorem QuorumHeld.step {required : Int} {state next : State V} {key : String}
    {timestamp : PyFloat} (hheld : QuorumHeld cluster route required state.stores key timestamp)
    {action : Action V} (hkeeps : action.KeepsKeys)
    (hnext : cluster.step state action = some next) :
    QuorumHeld cluster route required next.stores key timestamp := by
  obtain ⟨routed, version, holders, hroute, htimestamp, hnodes, hcard, hholders⟩ := hheld
  exact ⟨routed, version, holders, hroute, htimestamp, hnodes, hcard,
    fun node hnode => holds_of_step hkeeps hnext (hholders node hnode)⟩

/-- The GET of a worker expects a write that `holders` held when the read number `started`
was still to come, and it is no earlier one. -/
structure Awaited (cluster : Cluster) (route : String → Option String) (w r : Int)
    (state : State V) (request : QuorumRequest) (key : String) (expected : PyFloat)
    (routed : String) (version : VersionedValue V) (holders : Finset Node) (started : Nat) :
    Prop where
  routed_eq : route key = some routed
  timestamp_eq : version.timestamp = expected
  nodes : holders ⊆ cluster.config.nodes.toFinset
  card_le : w ≤ holders.card
  fresh : ReadsFresh cluster holders version routed started state
  started_le : started ≤ state.gets.length
  accepted : ∀ number, request = .get number → started ≤ number ∧
    ∃ read, state.gets[number]? = some read ∧ read.key = routed ∧ read.rRequired = r
  refused : ∀ exception, request = .refused exception → exception.statusCode ≠ 404

theorem Awaited.step {required readers : Int} {state next : State V} {request : QuorumRequest}
    {key routed : String} {expected : PyFloat} {version : VersionedValue V}
    {holders : Finset Node} {started : Nat} (hsafe : SafeKey route key)
    (hawaited : Awaited cluster route required readers state request key expected routed version
      holders started) {action : Action V} (hkeeps : action.KeepsKeys)
    (hnext : cluster.step state action = some next) :
    Awaited cluster route required readers next request key expected routed version holders
      started where
  routed_eq := hawaited.routed_eq
  timestamp_eq := hawaited.timestamp_eq
  nodes := hawaited.nodes
  card_le := hawaited.card_le
  fresh := hawaited.fresh.step (hsafe routed hawaited.routed_eq).1
    (hsafe routed hawaited.routed_eq).2 hkeeps hnext
  started_le := hawaited.started_le.trans (gets_length_le hnext)
  accepted number hrequest := by
    obtain ⟨hlater, read, hread, hkey, hrequired⟩ := hawaited.accepted number hrequest
    obtain ⟨later, hlaterRead, hsame⟩ := get_of_step hnext hread
    exact ⟨hlater, later, hlaterRead, hsame.2.1.trans hkey, hsame.2.2.1.trans hrequired⟩
  refused := hawaited.refused

/-- No answer to an awaited GET counts as stale, where the quorums overlap. -/
theorem Awaited.stale {required readers : Int} {state : State V} {number : Nat}
    {key routed : String} {expected : SourceEntry} {version : VersionedValue V}
    {holders : Finset Node} {started : Nat}
    (hawaited : Awaited cluster route required readers state (.get number) key expected.timestamp
      routed version holders started)
    (hoverlap : (cluster.size : Int) < required + readers) {read : GetOp V}
    (hread : state.gets[number]? = some read)
    {result : HandlerResult (KVResponse V)} (hanswer : read.answer cluster.config = some result) :
    (HttpResult.ofHandler result).stale expected = false := by
  obtain ⟨hlater, found, hfound, hkey, hrequired⟩ := hawaited.accepted number rfl
  obtain rfl := Option.some.inj (hfound.symm.trans hread)
  have hsound := hawaited.fresh.reads number found hlater hfound hkey
  have hmeets := fun answered (hresult : result = .ok answered) => hsound.meets hawaited.nodes
    (by rw [hrequired]; have := hawaited.card_le; omega) (hresult ▸ hanswer)
  rcases result with error | exception | response
  · rfl
  · -- a 404 would come from a read that met a holder
    refine decide_eq_false fun hmissing => ?_
    obtain ⟨_, hresponse, _⟩ := hmeets _ rfl fun other hother => by
      obtain rfl := Except.error.inj hother
      exact hmissing
    cases hresponse
  · obtain ⟨_, hresponse, hnot⟩ := hmeets _ rfl fun other hother => by cases hother
    obtain rfl := Except.ok.inj hresponse
    change expected.timestamp.gt _ = false
    rw [← hawaited.timestamp_eq, Bool.eq_false_iff]
    exact fun hgt => hnot (VersionedValue.newer_iff.mpr (Or.inl hgt))

/-- What a worker has seen is matched by the cluster. -/
def WorkerSound (cluster : Cluster) (w r : Option Int) (route : String → Option String)
    (state : State V) (request : QuorumRequest) : LeaderlessLoadTest.Stage → Prop
  | .ready => True
  | .numbering key | .rotating key _ | .snapshotting _ key => SafeKey route key
  | .writing _ key _ => SafeKey route key ∧ ∀ number, request = .put number →
      ∃ op, state.puts[number]? = some op ∧ route key = some op.key ∧
        op.wRequired = wRequired cluster w
  | .recording key _ timestamp => SafeKey route key ∧
      QuorumHeld cluster route (wRequired cluster w) state.stores key timestamp
  | .reading _ key expected => SafeKey route key ∧ ∃ routed version holders started,
      Awaited cluster route (wRequired cluster w) (rRequired cluster r) state request key
        expected.timestamp routed version holders started

theorem WorkerSound.step {state next : State V} {request : QuorumRequest}
    {stage : LeaderlessLoadTest.Stage} (hsound : WorkerSound cluster w r route state request stage)
    {action : Action V} (hkeeps : action.KeepsKeys)
    (hnext : cluster.step state action = some next) :
    WorkerSound cluster w r route next request stage := by
  cases stage with
  | ready => trivial
  | numbering key => exact hsound
  | rotating key value => exact hsound
  | writing coordinator key value =>
      refine ⟨hsound.1, fun number hrequest => ?_⟩
      obtain ⟨op, hop, hroute, hrequired⟩ := hsound.2 number hrequest
      obtain ⟨later, hlater, hsame⟩ := put_of_step hnext hop
      exact ⟨later, hlater, by rw [hroute, hsame.2.1], hsame.2.2.1.trans hrequired⟩
  | recording key value timestamp => exact ⟨hsound.1, hsound.2.step hkeeps hnext⟩
  | snapshotting coordinator key => exact hsound
  | reading coordinator key expected =>
      obtain ⟨hsafe, routed, version, holders, started, hawaited⟩ := hsound
      exact ⟨hsafe, routed, version, holders, started, hawaited.step hsafe hkeeps hnext⟩

/-- The cluster is sound, every recorded write is held by a write quorum, and no worker has
counted anything as stale. -/
structure Guaranteed (cluster : Cluster) (w r : Option Int) (route : String → Option String)
    (system : LoadedQuorums V) : Prop where
  sound : system.cluster.Sound cluster
  recorded : ∀ key entry, system.test.source.snapshot key = some entry →
    QuorumHeld cluster route (wRequired cluster w) system.cluster.stores key entry.timestamp
  workers : ∀ (index : Nat) worker, system.test.workers[index]? = some worker →
    worker.stats.staleReads = 0 ∧ (∀ item ∈ worker.planChunk, SafeKey route item.key) ∧
      WorkerSound cluster w r route system.cluster (system.requests index) worker.stage

theorem Guaranteed.start {plan : List RequestPlan}
    (hkeys : ∀ item ∈ plan, SafeKey route item.key) (numWorkers : Nat) :
    (start plan numWorkers : LoadedQuorums V).Guaranteed cluster w r route where
  sound := State.Sound.init
  recorded key entry hentry := by cases hentry
  workers index worker hworker := by
    obtain ⟨chunk, hchunk, rfl⟩ := List.mem_map.mp (List.mem_of_getElem? hworker)
    exact ⟨rfl, fun item hitem => hkeys item (subset_of_mem_splitPlan hchunk hitem), trivial⟩

/-- The cluster goes on. -/
theorem Guaranteed.cluster_step (hguaranteed : system.Guaranteed cluster w r route)
    {action : Action V} {state : State V} (hnext : cluster.step system.cluster action = some state)
    (hkeeps : action.KeepsKeys) :
    { system with cluster := state }.Guaranteed cluster w r route := by
  refine ⟨hguaranteed.sound.step hkeeps hnext, ?_, ?_⟩
  · intro key entry hentry
    exact (hguaranteed.recorded key entry hentry).step hkeeps hnext
  · intro index worker hworker
    obtain ⟨hfresh, hchunk, hstage⟩ := hguaranteed.workers index worker hworker
    exact ⟨hfresh, hchunk, hstage.step hkeeps hnext⟩

/-- One worker goes on. -/
theorem Guaranteed.set (hguaranteed : system.Guaranteed cluster w r route) {index : Nat}
    {worker : LeaderlessLoadTest.Worker} {request : QuorumRequest}
    (hfresh : worker.stats.staleReads = 0)
    (hchunk : ∀ item ∈ worker.planChunk, SafeKey route item.key)
    (hworker : WorkerSound cluster w r route system.cluster request worker.stage)
    {test : LeaderlessLoadTest.TestState}
    (hworkers : test.workers = system.test.workers.set index worker)
    (hrecorded : ∀ key entry, test.source.snapshot key = some entry →
      QuorumHeld cluster route (wRequired cluster w) system.cluster.stores key entry.timestamp) :
    { system with
      test := test
      requests := Function.update system.requests index request }.Guaranteed cluster w r
        route where
  sound := hguaranteed.sound
  recorded := hrecorded
  workers other current hcurrent := by
    change test.workers[other]? = some current at hcurrent
    rw [hworkers] at hcurrent
    change current.stats.staleReads = 0 ∧ (∀ item ∈ current.planChunk, SafeKey route item.key) ∧
      WorkerSound cluster w r route system.cluster
        (Function.update system.requests index request other) current.stage
    by_cases heq : other = index
    · subst heq
      rw [Function.update_self]
      rw [List.getElem?_set_self'] at hcurrent
      obtain ⟨_, _, rfl⟩ := Option.map_eq_some_iff.mp hcurrent
      exact ⟨hfresh, hchunk, hworker⟩
    · rw [Function.update_of_ne heq]
      rw [List.getElem?_set_ne (Ne.symm heq)] at hcurrent
      exact hguaranteed.workers other current hcurrent

/-- What a worker takes up next it knows of from a snapshot at most. -/
theorem Guaranteed.local_step (hguaranteed : system.Guaranteed cluster w r route) {index : Nat}
    {step : LeaderlessLoadTest.LocalStep} {state : LeaderlessLoadTest.TestState}
    (hnext : test.localStep system.test index step = some state) :
    { system with
      test := state
      requests := Function.update system.requests index .sent }.Guaranteed cluster w r route := by
  obtain ⟨current, changed, hcurrent, hmove, hworkers⟩ :=
    LeaderlessLoadTest.localMove_of_localStep hnext
  obtain ⟨hfresh, hchunk, hstage⟩ := hguaranteed.workers index current hcurrent
  obtain ⟨hchangedFresh, hchangedChunk, hchangedStage, hrecorded⟩ :
      changed.stats.staleReads = 0 ∧ (∀ item ∈ changed.planChunk, SafeKey route item.key) ∧
      WorkerSound cluster w r route system.cluster .sent changed.stage ∧
      ∀ key entry, state.source.snapshot key = some entry →
        QuorumHeld cluster route (wRequired cluster w) system.cluster.stores key
          entry.timestamp := by
    generalize state.source = source at hmove
    cases hmove with
    | take hready htake =>
        obtain ⟨hstale, item, hitem, hnext⟩ := LeaderlessLoadTest.takeRequest_cases htake
        have hsafe := hchunk item (by rw [hitem]; exact List.mem_cons_self)
        refine ⟨hstale.trans hfresh, fun other hother => hchunk other ?_, ?_,
          hguaranteed.recorded⟩
        · rw [hitem]
          exact List.mem_cons_of_mem _ hother
        · rcases hnext with ⟨coordinator, _, hread⟩ | hwrite
          · rw [hread]
            exact hsafe
          · rw [hwrite]
            exact hsafe
    | number hnumbering =>
        rw [hnumbering] at hstage
        exact ⟨hfresh, hchunk, hstage, hguaranteed.recorded⟩
    | rotate hrotating hturn =>
        rw [hrotating] at hstage
        refine ⟨hfresh, hchunk, ⟨hstage, fun number hrequest => ?_⟩, hguaranteed.recorded⟩
        cases hrequest
    | skip hsnapshotting hnone => exact ⟨hfresh, hchunk, trivial, hguaranteed.recorded⟩
    | @expect coordinator key expected hsnapshotting hsome =>
        rw [hsnapshotting] at hstage
        refine ⟨hfresh, hchunk, ⟨hstage, ?_⟩, hguaranteed.recorded⟩
        obtain ⟨routed, version, holders, hroute, htimestamp, hnodes, hcard, hholders⟩ :=
          hguaranteed.recorded key expected hsome
        refine ⟨routed, version, holders, system.cluster.gets.length, hroute, htimestamp, hnodes,
          hcard, ReadsFresh.start hguaranteed.sound hholders, Nat.le_refl _, ?_, ?_⟩
        · intro number hrequest
          cases hrequest
        · intro exception hrequest
          cases hrequest
    | @record key value timestamp hrecording =>
        rw [hrecording] at hstage
        refine ⟨hfresh, hchunk, trivial, fun other entry hentry => ?_⟩
        rcases SourceOfTruth.snapshot_record hentry with hold | ⟨rfl, rfl⟩
        · exact hguaranteed.recorded other entry hold
        · exact hstage.2
  exact hguaranteed.set hchangedFresh hchangedChunk hchangedStage hworkers hrecorded

/-- A PUT that ends brings something to record only from a 200 of its coordinator. -/
theorem Guaranteed.putEnds (hguaranteed : system.Guaranteed cluster w r route) {index : Nat}
    {now : ℚ} {result : HttpResult PutResponse} {state : LeaderlessLoadTest.TestState}
    (hheld : ∀ body coordinator key value worker, result = .ok body →
      system.test.workers[index]? = some worker → worker.stage = .writing coordinator key value →
      QuorumHeld cluster route (wRequired cluster w) system.cluster.stores key body.timestamp)
    (hnext : test.putEnds system.test index now result = some state) :
    { system with
      test := state
      requests := Function.update system.requests index .sent }.Guaranteed cluster w r route := by
  obtain ⟨current, coordinator, key, value, hcurrent, hwriting, rfl⟩ :=
    LeaderlessLoadTest.putEnds_eq_some.mp hnext
  obtain ⟨hstale, happlied⟩ :=
    finishWrite_cases current.stats key (test.nodeIdOf coordinator) now result
  obtain ⟨hfresh, hchunk, hstage⟩ := hguaranteed.workers index current hcurrent
  rw [hwriting] at hstage
  refine hguaranteed.set ?_ ?_ ?_ rfl hguaranteed.recorded
  · exact hstale.trans hfresh
  · exact hchunk
  · cases hrecord : (finishWrite current.stats key (test.nodeIdOf coordinator) now result).2 with
    | none => trivial
    | some timestamp =>
        obtain ⟨body, hbody, _, rfl⟩ := happlied timestamp hrecord
        exact ⟨hstage.1, hheld body coordinator key value current hbody hcurrent hwriting⟩

/-- A GET whose answer is not stale leaves no trace but its count. -/
theorem Guaranteed.getEnds (hguaranteed : system.Guaranteed cluster w r route) {index : Nat}
    {now : ℚ} {result : HttpResult (KVResponse V)} {state : LeaderlessLoadTest.TestState}
    (hfresh : ∀ coordinator key expected worker, system.test.workers[index]? = some worker →
      worker.stage = .reading coordinator key expected → result.stale expected = false)
    (hnext : test.getEnds system.test index now result = some state) :
    { system with
      test := state
      requests := Function.update system.requests index .sent }.Guaranteed cluster w r route := by
  obtain ⟨current, coordinator, key, expected, hcurrent, hreading, rfl⟩ :=
    LeaderlessLoadTest.getEnds_eq_some.mp hnext
  obtain ⟨hstale, hchunk, _⟩ := hguaranteed.workers index current hcurrent
  refine hguaranteed.set ?_ ?_ ?_ rfl hguaranteed.recorded
  · rw [staleReads_finishRead, hfresh coordinator key expected current hcurrent hreading]
    exact hstale
  · exact hchunk
  · trivial

/-- A request of a worker moves on at its coordinator; the worker still waits. -/
theorem Guaranteed.request (hguaranteed : system.Guaranteed cluster w r route) {index : Nat}
    {request : QuorumRequest} (hrequest : ∀ worker, system.test.workers[index]? = some worker →
      WorkerSound cluster w r route system.cluster request worker.stage) :
    { system with
      requests := Function.update system.requests index request }.Guaranteed cluster w r
        route where
  sound := hguaranteed.sound
  recorded := hguaranteed.recorded
  workers other current hcurrent := by
    change current.stats.staleReads = 0 ∧ (∀ item ∈ current.planChunk, SafeKey route item.key) ∧
      WorkerSound cluster w r route system.cluster
        (Function.update system.requests index request other) current.stage
    obtain ⟨hfresh, hchunk, hstage⟩ := hguaranteed.workers other current hcurrent
    by_cases heq : other = index
    · subst heq
      rw [Function.update_self]
      exact ⟨hfresh, hchunk, hrequest current hcurrent⟩
    · rw [Function.update_of_ne heq]
      exact ⟨hfresh, hchunk, hstage⟩

/-- The coordinator takes up a PUT: it is the cluster's newest write. -/
theorem Guaranteed.acceptPut (hguaranteed : system.Guaranteed cluster w r route) {worker : Nat}
    {now : ℚ}
    (hnext : step cluster test w r route json system (.acceptPut worker now) = some next) :
    next.Guaranteed cluster w r route := by
  simp only [step, Option.bind_eq_bind, Option.bind_eq_some_iff] at hnext
  obtain ⟨current, hcurrent, hnext⟩ := hnext
  have hstage := (hguaranteed.workers worker current hcurrent).2.2
  split at hnext
  · next coordinator key value hwriting hsent =>
      rw [hwriting] at hstage
      have hsame : ∀ other, system.test.workers[worker]? = some other → other = current :=
        fun other hother => Option.some.inj (hother.symm.trans hcurrent)
      have hrefused : ∀ exception other, system.test.workers[worker]? = some other →
          WorkerSound cluster w r route system.cluster (.refused exception) other.stage := by
        intro exception other hother
        rw [hsame other hother, hwriting]
        exact ⟨hstage.1, fun number hrequest => by cases hrequest⟩
      split at hnext
      · obtain rfl := Option.some.inj hnext
        exact hguaranteed.request (hrefused _)
      · obtain rfl := Option.some.inj hnext
        exact hguaranteed.request (hrefused _)
      · next routed hroute hvalid =>
          obtain ⟨state, hstamp, hnext⟩ := Option.bind_eq_some_iff.mp hnext
          obtain rfl := Option.some.inj hnext
          have hstamped := hguaranteed.cluster_step hstamp trivial
          refine hstamped.request fun other hother => ?_
          rw [hsame other hother, hwriting]
          refine ⟨hstage.1, fun number hput => ?_⟩
          obtain rfl := QuorumRequest.put.inj hput
          obtain rfl := Cluster.step_stamp_of_valid hvalid hstamp
          exact ⟨_, List.getElem?_concat_length, hroute, rfl⟩
  · cases hnext

/-- The coordinator takes up a GET: it is the cluster's newest read, and starts after whatever
its worker expects was held by a quorum. -/
theorem Guaranteed.acceptGet (hguaranteed : system.Guaranteed cluster w r route) {worker : Nat}
    {sample : List Node}
    (hnext : step cluster test w r route json system (.acceptGet worker sample) = some next) :
    next.Guaranteed cluster w r route := by
  simp only [step, Option.bind_eq_bind, Option.bind_eq_some_iff] at hnext
  obtain ⟨current, hcurrent, hnext⟩ := hnext
  have hstage := (hguaranteed.workers worker current hcurrent).2.2
  split at hnext
  · next coordinator key expected hreading hsent =>
      rw [hreading] at hstage
      obtain ⟨hsafe, routed, version, holders, started, hawaited⟩ := hstage
      have hsame : ∀ other, system.test.workers[worker]? = some other → other = current :=
        fun other hother => Option.some.inj (hother.symm.trans hcurrent)
      split at hnext
      · next hnone =>
          have hroute := hawaited.routed_eq
          rw [hnone] at hroute
          cases hroute
      · next exception _ hinvalid =>
          obtain rfl := Option.some.inj hnext
          refine hguaranteed.request fun other hother => ?_
          rw [hsame other hother, hreading]
          refine ⟨hsafe, routed, version, holders, started, { hawaited with
            accepted := fun number hrequest => by cases hrequest
            refused := fun other hrequest => ?_ }⟩
          obtain rfl := QuorumRequest.refused.inj hrequest
          rw [statusCode_of_validateQuorumParam hinvalid]
          decide
      · next found hroute hvalid =>
          obtain rfl := Option.some.inj (hroute.symm.trans hawaited.routed_eq)
          obtain ⟨state, hget, hnext⟩ := Option.bind_eq_some_iff.mp hnext
          obtain rfl := Option.some.inj hnext
          have hstarted := hguaranteed.cluster_step hget trivial
          have hlater := @Awaited.step V cluster route _ _ system.cluster state _ key found
            expected.timestamp version holders started hsafe hawaited
            (.get coordinator found r sample) trivial hget
          refine hstarted.request fun other hother => ?_
          rw [hsame other hother, hreading]
          refine ⟨hsafe, found, version, holders, started, { hlater with
            accepted := fun number hrequest => ?_
            refused := fun exception hrequest => by cases hrequest }⟩
          obtain rfl := QuorumRequest.get.inj hrequest
          obtain rfl := Cluster.step_get_of_valid hvalid hget
          exact ⟨hawaited.started_le, _, List.getElem?_concat_length, rfl, rfl⟩
  · cases hnext

theorem Guaranteed.answerPut (hguaranteed : system.Guaranteed cluster w r route) {worker : Nat}
    {now : ℚ}
    (hnext : step cluster test w r route json system (.answerPut worker now) = some next) :
    next.Guaranteed cluster w r route := by
  simp only [step, Option.bind_eq_bind, Option.bind_eq_some_iff, Option.pure_def,
    Option.some.injEq] at hnext
  obtain ⟨result, hresult, state, hends, rfl⟩ := hnext
  refine hguaranteed.putEnds (fun body coordinator key value current hbody hcurrent hwriting => ?_)
    hends
  have hstage := (hguaranteed.workers worker current hcurrent).2.2
  rw [hwriting] at hstage
  unfold putReply at hresult
  split at hresult
  · next number haccepted =>
      obtain ⟨op, hop, hanswer⟩ := Option.bind_eq_some_iff.mp hresult
      obtain ⟨found, hfound, hroute, hrequired⟩ := hstage.2 number haccepted
      obtain rfl := Option.some.inj (hfound.symm.trans hop)
      obtain rfl : result = .ok (.ok body) := by
        rcases result with error | exception | response
        · cases hbody
        · cases hbody
        · rw [HttpResult.ok.inj hbody]
      obtain ⟨holders, hnodes, hcard, hholders⟩ :=
        write_quorum hguaranteed.sound (List.mem_of_getElem? hop) hanswer
      exact ⟨found.key, found.version, holders, hroute, (PutOp.timestamp_of_answer hanswer).symm,
        hnodes, hrequired ▸ hcard, hholders⟩
  · obtain rfl := Option.some.inj hresult
    cases hbody
  · cases hresult

theorem Guaranteed.answerGet (hguaranteed : system.Guaranteed cluster w r route)
    (hoverlap : (cluster.size : Int) < wRequired cluster w + rRequired cluster r) {worker : Nat}
    {now : ℚ}
    (hnext : step cluster test w r route json system (.answerGet worker now) = some next) :
    next.Guaranteed cluster w r route := by
  simp only [step, Option.bind_eq_bind, Option.bind_eq_some_iff, Option.pure_def,
    Option.some.injEq] at hnext
  obtain ⟨result, hresult, state, hends, rfl⟩ := hnext
  refine hguaranteed.getEnds (fun coordinator key expected current hcurrent hreading => ?_) hends
  have hstage := (hguaranteed.workers worker current hcurrent).2.2
  rw [hreading] at hstage
  obtain ⟨hsafe, routed, version, holders, started, hawaited⟩ := hstage
  unfold getReply at hresult
  split at hresult
  · next number haccepted =>
      rw [haccepted] at hawaited
      obtain ⟨read, hread, hanswer⟩ := Option.bind_eq_some_iff.mp hresult
      exact hawaited.stale hoverlap hread hanswer
  · next exception hrefused =>
      obtain rfl := Option.some.inj hresult
      exact decide_eq_false (hawaited.refused exception hrefused)
  · cases hresult

theorem Guaranteed.step (hguaranteed : system.Guaranteed cluster w r route)
    (hoverlap : (cluster.size : Int) < wRequired cluster w + rRequired cluster r)
    {action : QuorumAction V} (hkeeps : action.KeepsKeys)
    (hnext : LoadedQuorums.step cluster test w r route json system action = some next) :
    next.Guaranteed cluster w r route := by
  cases action with
  | cluster action =>
      obtain ⟨state, hstep, hnext⟩ := Option.bind_eq_some_iff.mp hnext
      obtain rfl := Option.some.inj hnext
      exact hguaranteed.cluster_step hstep hkeeps
  | worker worker step =>
      obtain ⟨state, hstep, hnext⟩ := Option.bind_eq_some_iff.mp hnext
      obtain rfl := Option.some.inj hnext
      exact hguaranteed.local_step hstep
  | acceptPut worker now => exact hguaranteed.acceptPut hnext
  | acceptGet worker sample => exact hguaranteed.acceptGet hnext
  | answerPut worker now => exact hguaranteed.answerPut hnext
  | answerGet worker now => exact hguaranteed.answerGet hoverlap hnext
  | failPut worker now result =>
      simp only [LoadedQuorums.step, Option.bind_eq_bind, Option.bind_eq_some_iff,
        Option.guard_eq_some', Option.pure_def, Option.some.injEq] at hnext
      obtain ⟨_, hfails, state, hends, rfl⟩ := hnext
      refine hguaranteed.putEnds (fun body coordinator key value current hbody => ?_) hends
      rw [hbody] at hfails
      cases hfails
  | failGet worker now result =>
      simp only [LoadedQuorums.step, Option.bind_eq_bind, Option.bind_eq_some_iff,
        Option.guard_eq_some', Option.pure_def, Option.some.injEq] at hnext
      obtain ⟨_, hfails, state, hends, rfl⟩ := hnext
      refine hguaranteed.getEnds (fun coordinator key expected current hcurrent hreading => ?_)
        hends
      exact HttpResult.stale_of_not_comparable hfails

theorem Guaranteed.run {plan : List RequestPlan} {numWorkers : Nat}
    (hoverlap : (cluster.size : Int) < wRequired cluster w + rRequired cluster r)
    (hkeys : ∀ item ∈ plan, SafeKey route item.key) {actions : List (QuorumAction V)}
    {final : LoadedQuorums V} (hkeeps : ∀ action ∈ actions, action.KeepsKeys)
    (hrun : Runs.run (LoadedQuorums.step cluster test w r route json)
      (LoadedQuorums.start plan numWorkers) actions = some final) :
    final.Guaranteed cluster w r route :=
  Runs.run_invariant (Guaranteed cluster w r route)
    (fun _ _ _ hkeep hguaranteed hnext => hguaranteed.step hoverlap hkeep hnext) hkeeps
    (Guaranteed.start hkeys numWorkers) hrun

end LoadedQuorums

end KvReplication.Experiments
