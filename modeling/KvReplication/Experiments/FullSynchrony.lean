import KvReplication.Experiments.StalenessLoadTest
import KvReplication.LeaderFollower.Coverage

/-! # The load test at full synchrony

The workers of the load test and the cluster they send their requests to. Where the
leader answers 200 only once every follower has acked, whatever the source of truth
holds at a snapshot is held by every follower by then.
-/

namespace KvReplication.Experiments

open LeaderFollower LastWriterWins

/-- A worker's request: sent, accepted by the leader as its write number `put`, or
answered by the follower it went to. -/
inductive Request (V : Type) where
  | sent
  | accepted (put : Nat)
  | served (result : HttpResult (KVResponse V))

/-- The cluster, the test and the request each worker has under way. -/
structure LoadedCluster (V : Type) where
  cluster : State V
  test : TestState
  requests : Nat → Request V

inductive LoadAction (V : Type) where
  /-- Anything in the cluster: sends of the leader, and requests of other clients. -/
  | cluster (action : Action V)
  | worker (worker : Nat) (step : LocalStep)
  /-- The leader accepts the PUT of a worker. -/
  | acceptPut (worker : Nat) (now : ℚ)
  /-- The follower handles the GET of a worker. -/
  | serveGet (worker : Nat)
  /-- The leader's answer reaches the worker. -/
  | answerPut (worker : Nat) (now : ℚ)
  | answerGet (worker : Nat) (now : ℚ)
  /-- The PUT ends without the leader's answer to it. -/
  | failPut (worker : Nat) (now : ℚ) (result : HttpResult PutResponse)
  | failGet (worker : Nat) (now : ℚ) (result : HttpResult (KVResponse V))

/-- No client deletes a key. -/
def LoadAction.KeepsKeys {V : Type} : LoadAction V → Prop
  | .cluster action => action.KeepsKeys
  | _ => True

variable {V : Type}

/-- The follower's answer to a GET that reaches its routes as `routed`. -/
def followerAnswer (storage : KVStore V) (routed : Option String) : HttpResult (KVResponse V) :=
  match routed with
  | none => .status 404
  | some key => .ofHandler (.ok (Server.getKey storage key))

namespace LoadedCluster

/-- Before the first request: empty stores, and every worker at the start of its chunk. -/
def start (plan : List RequestPlan) (numWorkers : Nat) : LoadedCluster V :=
  ⟨Cluster.init, StalenessLoadTest.start plan numWorkers, fun _ => .sent⟩

/-- One action; an action that is not enabled is refused. `route` is the key that a
request path `/kv/{key}` names at the server, and `json` the JSON number of a value. -/
def step (cluster : Cluster) (test : StalenessLoadTest) (route : String → Option String)
    (json : Nat → V) (system : LoadedCluster V) : LoadAction V → Option (LoadedCluster V)
  | .cluster action => do
      let next ← cluster.step system.cluster action
      return { system with cluster := next }
  | .worker worker step => do
      let next ← test.localStep system.test worker step
      return { system with test := next, requests := Function.update system.requests worker .sent }
  | .acceptPut worker now => do
      let current ← system.test.workers[worker]?
      match current.stage, system.requests worker with
      | .writing key value, .sent =>
          let routed ← route key
          let next ← cluster.step system.cluster (.stamp .leader routed ⟨json value⟩ now)
          return { system with
            cluster := next
            requests := Function.update system.requests worker
              (.accepted system.cluster.puts.length) }
      | _, _ => none
  | .serveGet worker => do
      let current ← system.test.workers[worker]?
      match current.stage, system.requests worker with
      | .reading follower key _, .sent =>
          let answer := followerAnswer (system.cluster.stores (.follower follower)) (route key)
          return { system with requests := Function.update system.requests worker (.served answer) }
      | _, _ => none
  | .answerPut worker now =>
      match system.requests worker with
      | .accepted put => do
          let op ← system.cluster.puts[put]?
          let result ← cluster.answer op
          let next ← test.putEnds system.test worker now (.ofHandler result)
          return { system with
            test := next
            requests := Function.update system.requests worker .sent }
      | _ => none
  | .answerGet worker now =>
      match system.requests worker with
      | .served result => do
          let next ← test.getEnds system.test worker now result
          return { system with
            test := next
            requests := Function.update system.requests worker .sent }
      | _ => none
  | .failPut worker now result => do
      guard (result.isOk = false)
      let next ← test.putEnds system.test worker now result
      return { system with test := next, requests := Function.update system.requests worker .sent }
  | .failGet worker now result => do
      guard (result.comparable = false)
      let next ← test.getEnds system.test worker now result
      return { system with test := next, requests := Function.update system.requests worker .sent }

variable {cluster : Cluster} {test : StalenessLoadTest} {route : String → Option String}
  {json : Nat → V} {system next : LoadedCluster V}

/-- Every follower holds a version of the key with this timestamp, or a newer one. -/
def FullyHeld (cluster : Cluster) (route : String → Option String) (stores : Site → KVStore V)
    (key : String) (timestamp : PyFloat) : Prop :=
  ∃ routed version, route key = some routed ∧ version.timestamp = timestamp ∧
    ∀ follower ∈ cluster.config.followers, (stores (.follower follower)).Holds routed version

theorem FullyHeld.mono {stores stores' : Site → KVStore V} {key : String} {timestamp : PyFloat}
    (hheld : FullyHeld cluster route stores key timestamp)
    (hholds : ∀ site key version, (stores site).Holds key version →
      (stores' site).Holds key version) : FullyHeld cluster route stores' key timestamp := by
  obtain ⟨routed, version, hroute, htimestamp, hfollowers⟩ := hheld
  exact ⟨routed, version, hroute, htimestamp,
    fun follower hfollower => hholds _ _ _ (hfollowers follower hfollower)⟩

/-- A read at a follower is answered 200, with no timestamp below one fully held. -/
theorem FullyHeld.followerAnswer {stores : Site → KVStore V} {key : String} {expected : SourceEntry}
    (hheld : FullyHeld cluster route stores key expected.timestamp) {follower : Follower}
    (hfollower : follower ∈ cluster.config.followers) :
    ∃ response, followerAnswer (stores (.follower follower)) (route key) = .ok response ∧
      (HttpResult.ok response).stale expected = false := by
  obtain ⟨routed, version, hroute, htimestamp, hfollowers⟩ := hheld
  obtain ⟨response, hget, hnot⟩ := Server.getKey_of_holds (hfollowers follower hfollower)
  refine ⟨response, ?_, ?_⟩
  · rw [hroute, Experiments.followerAnswer, hget]
    rfl
  · -- a newer timestamp would make the version newer than what the follower holds
    rw [HttpResult.stale, ← htimestamp, Bool.eq_false_iff]
    exact fun hgt => hnot (VersionedValue.newer_iff.mpr (Or.inl hgt))

/-- What a worker has seen is matched by the followers. -/
def WorkerSound (cluster : Cluster) (route : String → Option String) (state : State V)
    (request : Request V) : WorkerStage → Prop
  | .ready | .numbering _ => True
  | .writing key _ => ∀ put, request = .accepted put → ∃ op, state.puts[put]? = some op ∧
      op.site = .leader ∧ route key = some op.key
  | .recording key _ timestamp => FullyHeld cluster route state.stores key timestamp
  | .snapshotting follower _ => follower ∈ cluster.config.followers
  | .reading follower key expected => follower ∈ cluster.config.followers ∧
      FullyHeld cluster route state.stores key expected.timestamp ∧
      ∀ result, request = .served result →
        ∃ response, result = .ok response ∧ result.stale expected = false

theorem WorkerSound.mono {state state' : State V} {request : Request V} {stage : WorkerStage}
    (hsound : WorkerSound cluster route state request stage)
    (hholds : ∀ site key version, (state.stores site).Holds key version →
      (state'.stores site).Holds key version)
    (hputs : ∀ (put : Nat) (op : PutOp V), state.puts[put]? = some op →
      ∃ later, state'.puts[put]? = some later ∧ op.SameWrite later) :
    WorkerSound cluster route state' request stage := by
  cases stage with
  | ready => trivial
  | numbering key => trivial
  | writing key value =>
      intro put hrequest
      obtain ⟨op, hop, hleader, hroute⟩ := hsound put hrequest
      obtain ⟨later, hlater, hsame⟩ := hputs put op hop
      exact ⟨later, hlater, hsame.site_eq.trans hleader, by rw [hroute, hsame.key_eq]⟩
  | recording key value timestamp => exact FullyHeld.mono hsound hholds
  | snapshotting follower key => exact hsound
  | reading follower key expected => exact ⟨hsound.1, hsound.2.1.mono hholds, hsound.2.2⟩

/-- The cluster is sound, every recorded write is held by all followers, and no worker
has seen anything older. -/
structure Synchronous (cluster : Cluster) (route : String → Option String)
    (system : LoadedCluster V) : Prop where
  sound : system.cluster.Sound cluster
  recorded : ∀ key entry, system.test.source.snapshot key = some entry →
    FullyHeld cluster route system.cluster.stores key entry.timestamp
  workers : ∀ index worker, system.test.workers[index]? = some worker →
    worker.stats.staleReads = 0 ∧
      WorkerSound cluster route system.cluster (system.requests index) worker.stage

theorem Synchronous.start (plan : List RequestPlan) (numWorkers : Nat) :
    (start plan numWorkers : LoadedCluster V).Synchronous cluster route where
  sound := State.Sound.init
  recorded key entry hentry := by cases hentry
  workers index worker hworker := by
    obtain ⟨chunk, _, rfl⟩ := List.mem_map.mp (List.mem_of_getElem? hworker)
    exact ⟨rfl, trivial⟩

/-- The cluster goes on. -/
theorem Synchronous.cluster_step (hsync : system.Synchronous cluster route) {action : Action V}
    {state : State V} (hnext : cluster.step system.cluster action = some state)
    (hkeeps : action.KeepsKeys) :
    { system with cluster := state }.Synchronous cluster route := by
  have hchange := cluster.change_of_step hnext
  have hholds : ∀ site key version, (system.cluster.stores site).Holds key version →
      (state.stores site).Holds key version := fun _ _ _ => holds_of_change hkeeps hchange
  refine ⟨hsync.sound.step hkeeps hnext, ?_, ?_⟩
  · intro key entry hentry
    exact (hsync.recorded key entry hentry).mono hholds
  · intro index worker hworker
    obtain ⟨hfresh, hstage⟩ := hsync.workers index worker hworker
    exact ⟨hfresh, hstage.mono hholds fun put op => put_of_change hchange⟩

/-- One worker goes on. -/
theorem Synchronous.set (hsync : system.Synchronous cluster route) {index : Nat}
    {worker : Worker} {request : Request V} (hfresh : worker.stats.staleReads = 0)
    (hworker : WorkerSound cluster route system.cluster request worker.stage) {test : TestState}
    (hworkers : test.workers = system.test.workers.set index worker)
    (hrecorded : ∀ key entry, test.source.snapshot key = some entry →
      FullyHeld cluster route system.cluster.stores key entry.timestamp) :
    { system with
      test := test
      requests := Function.update system.requests index request }.Synchronous cluster route where
  sound := hsync.sound
  recorded := hrecorded
  workers other current hcurrent := by
    change test.workers[other]? = some current at hcurrent
    rw [hworkers] at hcurrent
    change current.stats.staleReads = 0 ∧ WorkerSound cluster route system.cluster
      (Function.update system.requests index request other) current.stage
    by_cases heq : other = index
    · subst heq
      rw [Function.update_self]
      rw [List.getElem?_set_self'] at hcurrent
      obtain ⟨_, _, rfl⟩ := Option.map_eq_some_iff.mp hcurrent
      exact ⟨hfresh, hworker⟩
    · rw [Function.update_of_ne heq]
      rw [List.getElem?_set_ne (Ne.symm heq)] at hcurrent
      exact hsync.workers other current hcurrent

/-- What a worker takes up next it knows of from a snapshot at most. -/
theorem Synchronous.local_step (hsync : system.Synchronous cluster route)
    (hsame : test.followers ⊆ cluster.config.followers) {index : Nat} {step : LocalStep}
    {state : TestState} (hnext : test.localStep system.test index step = some state) :
    { system with
      test := state
      requests := Function.update system.requests index .sent }.Synchronous cluster route := by
  obtain ⟨current, changed, hcurrent, hmove, hworkers⟩ :=
    StalenessLoadTest.localMove_of_localStep hnext
  obtain ⟨hfresh, hstage⟩ := hsync.workers index current hcurrent
  obtain ⟨hchangedFresh, hchangedStage, hrecorded⟩ : changed.stats.staleReads = 0 ∧
      WorkerSound cluster route system.cluster .sent changed.stage ∧
      ∀ key entry, state.source.snapshot key = some entry →
        FullyHeld cluster route system.cluster.stores key entry.timestamp := by
    generalize state.source = source at hmove
    cases hmove with
    | take hready htake =>
        obtain ⟨hstale, hread | hwrite⟩ := StalenessLoadTest.takeRequest_cases htake
        · obtain ⟨follower, hfollower, key, hstage⟩ := hread
          refine ⟨hstale.trans hfresh, ?_, hsync.recorded⟩
          have hreplicated : follower ∈ cluster.config.followers := hsame hfollower
          rw [hstage]
          exact hreplicated
        · obtain ⟨key, hstage⟩ := hwrite
          refine ⟨hstale.trans hfresh, ?_, hsync.recorded⟩
          rw [hstage]
          trivial
    | number hnumbering =>
        refine ⟨hfresh, ?_, hsync.recorded⟩
        intro put hrequest
        cases hrequest
    | skip hsnapshotting hnone => exact ⟨hfresh, trivial, hsync.recorded⟩
    | @expect follower key expected hsnapshotting hsome =>
        rw [hsnapshotting] at hstage
        refine ⟨hfresh, ⟨hstage, hsync.recorded key expected hsome, ?_⟩, hsync.recorded⟩
        intro result hrequest
        cases hrequest
    | @record key value timestamp hrecording =>
        rw [hrecording] at hstage
        refine ⟨hfresh, trivial, fun other entry hentry => ?_⟩
        rcases SourceOfTruth.snapshot_record hentry with hold | ⟨rfl, rfl⟩
        · exact hsync.recorded other entry hold
        · exact hstage
  exact hsync.set hchangedFresh hchangedStage hworkers hrecorded

/-- A PUT that ends brings something to record only from a 200 of the leader. -/
theorem Synchronous.putEnds (hsync : system.Synchronous cluster route) {index : Nat} {now : ℚ}
    {result : HttpResult PutResponse} {state : TestState}
    (hheld : ∀ body key value worker, result = .ok body →
      system.test.workers[index]? = some worker → worker.stage = .writing key value →
      FullyHeld cluster route system.cluster.stores key body.timestamp)
    (hnext : test.putEnds system.test index now result = some state) :
    { system with
      test := state
      requests := Function.update system.requests index .sent }.Synchronous cluster route := by
  obtain ⟨current, key, value, hcurrent, hwriting, rfl⟩ :=
    StalenessLoadTest.putEnds_eq_some.mp hnext
  obtain ⟨hstale, happlied⟩ := finishWrite_cases current.stats key test.leaderNodeId now result
  have hfresh := (hsync.workers index current hcurrent).1
  refine hsync.set (hstale.trans hfresh) ?_ rfl hsync.recorded
  cases hrecord : (finishWrite current.stats key test.leaderNodeId now result).2 with
  | none => trivial
  | some timestamp =>
      obtain ⟨body, hbody, _, rfl⟩ := happlied timestamp hrecord
      exact hheld body key value current hbody hcurrent hwriting

/-- A GET whose answer is not stale leaves no trace but its count. -/
theorem Synchronous.getEnds (hsync : system.Synchronous cluster route) {index : Nat} {now : ℚ}
    {result : HttpResult (KVResponse V)} {state : TestState}
    (hfresh : ∀ follower key expected worker, system.test.workers[index]? = some worker →
      worker.stage = .reading follower key expected → result.stale expected = false)
    (hnext : test.getEnds system.test index now result = some state) :
    { system with
      test := state
      requests := Function.update system.requests index .sent }.Synchronous cluster route := by
  obtain ⟨current, follower, key, expected, hcurrent, hreading, rfl⟩ :=
    StalenessLoadTest.getEnds_eq_some.mp hnext
  refine hsync.set ?_ ?_ rfl hsync.recorded
  · have hnot := hfresh follower key expected current hcurrent hreading
    rw [staleReads_finishRead, hnot]
    exact (hsync.workers index current hcurrent).1
  · trivial

/-- A request of a worker moves on at a server; the worker still waits. -/
theorem Synchronous.request (hsync : system.Synchronous cluster route) {index : Nat}
    {request : Request V} (hrequest : ∀ worker, system.test.workers[index]? = some worker →
      WorkerSound cluster route system.cluster request worker.stage) :
    { system with
      requests := Function.update system.requests index request }.Synchronous cluster route where
  sound := hsync.sound
  recorded := hsync.recorded
  workers other current hcurrent := by
    change current.stats.staleReads = 0 ∧ WorkerSound cluster route system.cluster
      (Function.update system.requests index request other) current.stage
    obtain ⟨hfresh, hstage⟩ := hsync.workers other current hcurrent
    by_cases heq : other = index
    · subst heq
      rw [Function.update_self]
      exact ⟨hfresh, hrequest current hcurrent⟩
    · rw [Function.update_of_ne heq]
      exact ⟨hfresh, hstage⟩

theorem Synchronous.acceptPut (hsync : system.Synchronous cluster route) {worker : Nat} {now : ℚ}
    (hnext : step cluster test route json system (.acceptPut worker now) = some next) :
    next.Synchronous cluster route := by
  simp only [step, Option.bind_eq_bind, Option.bind_eq_some_iff] at hnext
  obtain ⟨current, hcurrent, hnext⟩ := hnext
  split at hnext
  · next key value hwriting hsent =>
      simp only [Option.bind_eq_some_iff, Option.pure_def, Option.some.injEq] at hnext
      obtain ⟨routed, hroute, state, hstamp, rfl⟩ := hnext
      have hstamped := hsync.cluster_step hstamp trivial
      refine hstamped.request fun other hother => ?_
      obtain rfl := Option.some.inj (hcurrent.symm.trans hother)
      rw [hwriting]
      intro put hput
      obtain rfl := Request.accepted.inj hput
      -- the leader's write is the one it has just stamped
      cases cluster.change_of_step hstamp with
      | stamp hsite => exact ⟨_, List.getElem?_concat_length, rfl, hroute⟩
      | send permits haction => exact haction.elim
  · cases hnext

theorem Synchronous.serveGet (hsync : system.Synchronous cluster route) {worker : Nat}
    (hnext : step cluster test route json system (.serveGet worker) = some next) :
    next.Synchronous cluster route := by
  simp only [step, Option.bind_eq_bind, Option.bind_eq_some_iff] at hnext
  obtain ⟨current, hcurrent, hnext⟩ := hnext
  split at hnext
  · next follower key expected hreading hsent =>
      obtain rfl := Option.some.inj hnext
      refine hsync.request fun other hother => ?_
      obtain rfl := Option.some.inj (hcurrent.symm.trans hother)
      have hstage := (hsync.workers worker current hcurrent).2
      rw [hreading] at hstage ⊢
      obtain ⟨hfollower, hheld, _⟩ := hstage
      refine ⟨hfollower, hheld, fun result hserved => ?_⟩
      obtain ⟨response, hanswer, hfresh⟩ := hheld.followerAnswer hfollower
      obtain rfl := Request.served.inj hserved
      exact ⟨response, hanswer, hanswer ▸ hfresh⟩
  · cases hnext

theorem Synchronous.answerPut (hsync : system.Synchronous cluster route)
    (hcovers : cluster.config.Covers) {worker : Nat} {now : ℚ}
    (hnext : step cluster test route json system (.answerPut worker now) = some next) :
    next.Synchronous cluster route := by
  simp only [step] at hnext
  split at hnext
  · next put haccepted =>
      simp only [Option.bind_eq_bind, Option.bind_eq_some_iff, Option.pure_def,
        Option.some.injEq] at hnext
      obtain ⟨op, hop, result, hanswer, state, hends, rfl⟩ := hnext
      refine hsync.putEnds ?_ hends
      intro body key value current hbody hcurrent hwriting
      have hstage := (hsync.workers worker current hcurrent).2
      rw [hwriting] at hstage
      obtain ⟨found, hfound, hleader, hroute⟩ := hstage put haccepted
      obtain rfl := Option.some.inj (hfound.symm.trans hop)
      obtain rfl : result = .ok (.ok body) := by
        rcases result with error | exception | response
        · cases hbody
        · cases hbody
        · obtain rfl := HttpResult.ok.inj hbody
          rfl
      refine ⟨found.key, found.version, hroute, (timestamp_of_answer hanswer).symm, ?_⟩
      exact all_followers_hold_of_covers hsync.sound hcovers (List.mem_of_getElem? hop) hleader
        hanswer
  · cases hnext

theorem Synchronous.step (hsync : system.Synchronous cluster route)
    (hcovers : cluster.config.Covers)
    (hsame : test.followers ⊆ cluster.config.followers) {action : LoadAction V}
    (hkeeps : action.KeepsKeys)
    (hnext : LoadedCluster.step cluster test route json system action = some next) :
    next.Synchronous cluster route := by
  cases action with
  | cluster action =>
      obtain ⟨state, hstep, hnext⟩ := Option.bind_eq_some_iff.mp hnext
      obtain rfl := Option.some.inj hnext
      exact hsync.cluster_step hstep hkeeps
  | worker worker step =>
      obtain ⟨state, hstep, hnext⟩ := Option.bind_eq_some_iff.mp hnext
      obtain rfl := Option.some.inj hnext
      exact hsync.local_step hsame hstep
  | acceptPut worker now => exact hsync.acceptPut hnext
  | serveGet worker => exact hsync.serveGet hnext
  | answerPut worker now => exact hsync.answerPut hcovers hnext
  | answerGet worker now =>
      simp only [LoadedCluster.step] at hnext
      split at hnext
      · next result hserved =>
          obtain ⟨state, hends, hnext⟩ := Option.bind_eq_some_iff.mp hnext
          obtain rfl := Option.some.inj hnext
          refine hsync.getEnds (fun follower key expected current hcurrent hreading => ?_) hends
          have hstage := (hsync.workers worker current hcurrent).2
          rw [hreading] at hstage
          exact (hstage.2.2 result hserved).choose_spec.2
      · cases hnext
  | failPut worker now result =>
      simp only [LoadedCluster.step, Option.bind_eq_bind, Option.bind_eq_some_iff,
        Option.guard_eq_some', Option.pure_def, Option.some.injEq] at hnext
      obtain ⟨_, hfails, state, hends, rfl⟩ := hnext
      refine hsync.putEnds (fun body key value current hbody => ?_) hends
      rw [hbody] at hfails
      cases hfails
  | failGet worker now result =>
      simp only [LoadedCluster.step, Option.bind_eq_bind, Option.bind_eq_some_iff,
        Option.guard_eq_some', Option.pure_def, Option.some.injEq] at hnext
      obtain ⟨_, hfails, state, hends, rfl⟩ := hnext
      refine hsync.getEnds (fun follower key expected current hcurrent hreading => ?_) hends
      exact HttpResult.stale_of_not_comparable hfails

end LoadedCluster

variable {cluster : Cluster} {test : StalenessLoadTest} {route : String → Option String}
  {json : Nat → V}

theorem LoadedCluster.Synchronous.run_of_covers {plan : List RequestPlan} {numWorkers : Nat}
    (hcovers : cluster.config.Covers)
    (hsame : test.followers ⊆ cluster.config.followers) {actions : List (LoadAction V)}
    {final : LoadedCluster V} (hkeeps : ∀ action ∈ actions, action.KeepsKeys)
    (hrun : Runs.run (LoadedCluster.step cluster test route json)
      (LoadedCluster.start plan numWorkers) actions = some final) :
    final.Synchronous cluster route :=
  Runs.run_invariant (LoadedCluster.Synchronous cluster route)
    (fun _ _ _ hkeep hsync hnext => hsync.step hcovers hsame hkeep hnext) hkeeps (.start _ _) hrun

theorem LoadedCluster.Synchronous.run {plan : List RequestPlan} {numWorkers : Nat}
    (hfull : cluster.config.ackRequired = cluster.config.followers.length)
    (hsame : test.followers ⊆ cluster.config.followers) {actions : List (LoadAction V)}
    {final : LoadedCluster V} (hkeeps : ∀ action ∈ actions, action.KeepsKeys)
    (hrun : Runs.run (LoadedCluster.step cluster test route json)
      (LoadedCluster.start plan numWorkers) actions = some final) :
    final.Synchronous cluster route :=
  .run_of_covers (ClusterConfig.covers_of_full hfull) hsame hkeeps hrun

/-- With `ack_required = len(followers)`, and reads of followers the leader replicates to,
no worker ever records a stale read: every read that is compared was answered 200. -/
theorem full_synchrony_never_stale (cluster : Cluster)
    (hfull : cluster.config.ackRequired = cluster.config.followers.length)
    (test : StalenessLoadTest) (hsame : test.followers ⊆ cluster.config.followers)
    (route : String → Option String) (json : Nat → V) (plan : List RequestPlan) (numWorkers : Nat)
    {actions : List (LoadAction V)} {final : LoadedCluster V}
    (hkeeps : ∀ action ∈ actions, action.KeepsKeys)
    (hrun : Runs.run (LoadedCluster.step cluster test route json)
      (LoadedCluster.start plan numWorkers) actions = some final) :
    (∀ worker ∈ final.test.workers, worker.stats.staleReads = 0) ∧
      (Stats.mergeAll (final.test.workers.map Worker.stats)).staleReads = 0 ∧
      ∀ (index : Nat) (worker : Worker) (follower : Follower) (key : String)
        (expected : SourceEntry) (result : HttpResult (KVResponse V)),
        final.test.workers[index]? = some worker →
        worker.stage = .reading follower key expected → final.requests index = .served result →
        ∃ response, result = .ok response := by
  have hsync := LoadedCluster.Synchronous.run hfull hsame hkeeps hrun
  have hfresh : ∀ worker ∈ final.test.workers, worker.stats.staleReads = 0 := by
    intro worker hworker
    obtain ⟨index, hindex⟩ := List.getElem?_of_mem hworker
    exact (hsync.workers index worker hindex).1
  refine ⟨hfresh, ?_, ?_⟩
  · rw [Stats.staleReads_mergeAll, List.map_map, List.sum_eq_zero]
    intro count hcount
    obtain ⟨worker, hworker, rfl⟩ := List.mem_map.mp hcount
    exact hfresh worker hworker
  · intro index worker follower key expected result hworker hreading hserved
    have hstage := (hsync.workers index worker hworker).2
    rw [hreading] at hstage
    obtain ⟨response, hresponse, _⟩ := hstage.2.2 result hserved
    exact ⟨response, hresponse⟩

/-- A test of the one follower of a leader. -/
def soloTest : StalenessLoadTest := ⟨[⟨"localhost", 8001⟩], fun _ => none, "leader"⟩

/-- A write of a key and a read of it. -/
def soloPlan : List RequestPlan := [⟨false, "key_0", none⟩, ⟨true, "key_0", some 0⟩]

def writeThenRead : List (LoadAction Nat) :=
  [.worker 0 .next, .worker 0 .nextValue, .acceptPut 0 1, .cluster (.localPut 0),
    .cluster (.beginSend 0 0), .cluster (.acquire 0 0), .cluster (.handleReplicate 0 0),
    .cluster (.finishSend 0 0 none), .cluster (.wake 0 (.done [0])), .answerPut 0 2,
    .worker 0 .record, .worker 0 .next, .worker 0 .snapshot, .serveGet 0, .answerGet 0 3]

theorem write_then_read_fresh :
    ∃ (final : LoadedCluster Nat) (worker : Worker),
      Runs.run (LoadedCluster.step soloCluster soloTest some id) (LoadedCluster.start soloPlan 1)
        writeThenRead = some final ∧ final.test.workers = [worker] ∧
      worker.stats.comparableReads = 1 ∧ worker.stats.staleReads = 0 := by
  have hkeeps : ∀ action ∈ writeThenRead, action.KeepsKeys := by
    simp [writeThenRead, LoadAction.KeepsKeys, Action.KeepsKeys]
  refine ⟨_, _, rfl, rfl, rfl, ?_⟩
  have hnever := full_synchrony_never_stale soloCluster rfl soloTest (fun _ hmem => hmem) some id
    soloPlan 1 hkeeps rfl
  exact hnever.1 _ List.mem_cons_self

end KvReplication.Experiments
