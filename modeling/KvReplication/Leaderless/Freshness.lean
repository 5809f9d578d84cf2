import KvReplication.Leaderless.Writes

/-! # Quorum freshness

A write answered 200 with `w` is held by `w` nodes from then on. A read answered
from `r` nodes that starts later meets one of them when `w + r` exceeds the
cluster size, and the winner it picks cannot be older than what that node holds.
-/

namespace KvReplication.Leaderless

open LastWriterWins

variable {V : Type} {cluster : Cluster}

/-- A set of different cluster nodes: the coordinator and the peers that counted. -/
theorem card_participants {coordinator : Node} (hcoordinator : coordinator ∈ cluster.config.nodes)
    {counted : List Node} (hnodup : counted.Nodup) (hpeers : counted ⊆ cluster.peers coordinator) :
    (coordinator :: counted).toFinset.card = 1 + counted.length ∧
      (coordinator :: counted).toFinset ⊆ cluster.config.nodes.toFinset := by
  have hself : coordinator ∉ counted := fun hmem =>
    ClusterConfig.self_not_mem_peersExcluding cluster.config coordinator (hpeers hmem)
  constructor
  · rw [List.toFinset_card_of_nodup (List.nodup_cons.mpr ⟨hself, hnodup⟩), List.length_cons]
    omega
  · intro node hnode
    rw [List.mem_toFinset] at hnode ⊢
    rcases List.mem_cons.mp hnode with rfl | hcounted
    · exact hcoordinator
    · exact (ClusterConfig.mem_peersExcluding.mp (hpeers hcounted)).1

theorem card_nodes : cluster.config.nodes.toFinset.card = cluster.size :=
  List.toFinset_card_of_nodup cluster.ports_distinct.of_map

/-- A write answered 200 is held by as many nodes as its `w` says. -/
theorem PutOp.Sound.quorum {stores : Node → KVStore V} {op : PutOp V}
    (hput : op.Sound cluster stores) {response : PutResponse}
    (hanswer : op.answer cluster.config = some (.ok (.ok response))) :
    ∃ holders : Finset Node, holders ⊆ cluster.config.nodes.toFinset ∧
      op.wRequired ≤ holders.card ∧
      ∀ node ∈ holders, (stores node).Holds op.key op.version := by
  simp only [PutOp.answer, Option.bind_eq_bind, Option.bind_eq_some_iff, Option.pure_def,
    Option.some.injEq] at hanswer
  obtain ⟨progress, hprogress, outcome, hexit, hanswer⟩ := hanswer
  cases outcome with
  | error error => simp [Except.map] at hanswer
  | ok acked =>
      -- the acks behind the answer came from different peers that hold the write
      have hquorum := (putAnswer_eq_ok_iff.mp (Except.ok.inj hanswer)).1
      obtain ⟨credited, hnodup, hcontacted, hcollected, hseen⟩ :=
        (hput.calls progress hprogress).returned hexit
      rw [hput.contacted progress hprogress] at hcontacted
      obtain ⟨hcard, hsubset⟩ := card_participants hput.coordinator_mem hnodup hcontacted
      refine ⟨_, hsubset, ?_, ?_⟩
      · rw [hcard, List.length_map]
        rw [hcollected, List.length_map] at hquorum
        exact_mod_cast hquorum
      · intro node hnode
        rw [List.mem_toFinset] at hnode
        rcases List.mem_cons.mp hnode with rfl | hcounted
        · exact hput.local_held progress hprogress
        · obtain ⟨entry, hentry, rfl⟩ := List.mem_map.mp hcounted
          exact (hseen entry hentry).choose_spec.1

theorem write_quorum {state : State V} (hsound : state.Sound cluster) {op : PutOp V}
    (hop : op ∈ state.puts) {response : PutResponse}
    (hanswer : op.answer cluster.config = some (.ok (.ok response))) :
    ∃ holders : Finset Node, holders ⊆ cluster.config.nodes.toFinset ∧
      op.wRequired ≤ holders.card ∧
      ∀ node ∈ holders, (state.stores node).Holds op.key op.version :=
  (hsound.puts op hop).quorum hanswer

/-- A read's observations: `fresh` holds of every node's entry that it has seen. -/
structure GetOp.Sound (cluster : Cluster) (fresh : Node → Option (VersionedValue V) → Prop)
    (read : GetOp V) : Prop where
  coordinator_mem : read.coordinator ∈ cluster.config.nodes
  contacted_peers : read.fanOut.contacted ⊆ cluster.peers read.coordinator
  local_fresh : fresh read.coordinator read.localEntry
  calls : read.fanOut.Sound entryOf fun peer answer =>
    ∀ entry, entryOf (.ok answer) = .ok (true, entry) → fresh peer entry

/-- A read goes on with the calls `fan`. -/
theorem GetOp.Sound.withFanOut {fresh : Node → Option (VersionedValue V) → Prop} {read : GetOp V}
    (hsound : read.Sound cluster fresh) {fan : FanOut (Except HttpException (KVResponse V))
      (Option (VersionedValue V))} (hcontacted : fan.contacted = read.fanOut.contacted)
    (hfan : fan.Sound entryOf fun peer answer =>
      ∀ entry, entryOf (.ok answer) = .ok (true, entry) → fresh peer entry) :
    GetOp.Sound cluster fresh { read with fanOut := fan } where
  coordinator_mem := hsound.coordinator_mem
  contacted_peers := hcontacted ▸ hsound.contacted_peers
  local_fresh := hsound.local_fresh
  calls := hfan

theorem GetOp.Sound.mono {fresh fresh' : Node → Option (VersionedValue V) → Prop} {read : GetOp V}
    (hsound : read.Sound cluster fresh)
    (hmono : ∀ node entry, fresh node entry → fresh' node entry) : read.Sound cluster fresh' where
  coordinator_mem := hsound.coordinator_mem
  contacted_peers := hsound.contacted_peers
  local_fresh := hmono _ _ hsound.local_fresh
  calls := hsound.calls.mono fun peer _ hseen entry hentry => hmono peer entry (hseen entry hentry)

/-- There are enough peers for every accepted `r`. -/
theorem Cluster.needed_le_peers {node : Node} (hnode : node ∈ cluster.config.nodes)
    {rRequired : Int} (hrange : rRequired ≤ cluster.size) :
    rRequired - 1 ≤ (cluster.peers node).length := by
  have hsize := ClusterConfig.length_peersExcluding
    (ClusterConfig.filter_port_eq_singleton cluster.ports_distinct hnode)
  unfold Cluster.peers Cluster.size at *
  omega

/-- A read that a node has just accepted has heard of that node only. -/
theorem GetOp.Sound.start {fresh : Node → Option (VersionedValue V) → Prop} {node : Node}
    (hnode : node ∈ cluster.config.nodes) {rRequired : Int} (hrange : rRequired ≤ cluster.size)
    {sample : List Node} (hsample : IsSample (cluster.peers node) (rRequired - 1) sample)
    {key : String} {localEntry : Option (VersionedValue V)} (hlocal : fresh node localEntry) :
    GetOp.Sound cluster fresh (cluster.startGet node key rRequired localEntry sample) := by
  have hnodes : cluster.config.nodes.Nodup := cluster.ports_distinct.of_map
  obtain ⟨hnodup, hsubset, _⟩ := readPeers_spec (ClusterConfig.peersExcluding_nodup hnodes _)
    hsample (Cluster.needed_le_peers hnode hrange)
  refine ⟨hnode, hsubset, hlocal, ?_⟩
  simp only [Cluster.startGet, read_eq_start]
  exact FanOut.Sound.start hnodup _

/-- A failed call is not a response. -/
theorem entryOf_error (error : PyError) (value : Option (VersionedValue V)) :
    entryOf (.error error) ≠ .ok (true, value) := by
  cases error <;> simp [entryOf, readOutcome]

/-- What a node that holds the version returns is not older than it, and nothing
stored carries a NaN. -/
def Fresh (holders : Finset Node) (version : VersionedValue V) (node : Node)
    (entry : Option (VersionedValue V)) : Prop :=
  (node ∈ holders → Covers VersionedValue.Newer entry version) ∧
    ∀ stored, entry = some stored → stored.timestamp ≠ .nan

/-- The reads of `key` from number `started` on see fresh entries only. -/
structure ReadsFresh (cluster : Cluster) (holders : Finset Node) (version : VersionedValue V)
    (key : String) (started : Nat) (state : State V) : Prop where
  sound : state.Sound cluster
  held : ∀ node ∈ holders, (state.stores node).Holds key version
  reads : ∀ get read, started ≤ get → state.gets[get]? = some read → read.key = key →
    read.Sound cluster (Fresh holders version)

/-- What a node holds at `key` is fresh. -/
theorem ReadsFresh.stored {holders : Finset Node} {version : VersionedValue V} {key : String}
    {started : Nat} {state : State V}
    (hfresh : ReadsFresh cluster holders version key started state) (node : Node) :
    Fresh holders version node ((state.stores node).get key) := by
  refine ⟨hfresh.held node, ?_⟩
  intro stored hstored
  obtain ⟨op, hop, _, rfl⟩ := hfresh.sound.stored node key stored hstored
  exact (hfresh.sound.puts op hop).stamped

/-- A read starts with what its own node holds, and has heard of no peer. -/
theorem ReadsFresh.startGet {holders : Finset Node} {version : VersionedValue V} {key : String}
    {started : Nat} {state : State V}
    (hfresh : ReadsFresh cluster holders version key started state) {node : Node}
    (hnode : node ∈ cluster.config.nodes) {rRequired : Int} (hrange : rRequired ≤ cluster.size)
    {sample : List Node} (hsample : IsSample (cluster.peers node) (rRequired - 1) sample) :
    GetOp.Sound cluster (Fresh holders version)
      (cluster.startGet node key rRequired ((state.stores node).get key) sample) :=
  GetOp.Sound.start hnode hrange hsample (hfresh.stored node)

/-- A peer that routes `key` as it was sent answers with what it holds there. -/
theorem entry_of_peerAnswer {key : String} (hadmitted : Admitted key) (hsafe : UrlSafe key)
    {peer : Node} (hpeer : peer ∈ cluster.config.nodes) {route : Option String}
    (hroute : lookupKey cluster.http peer key = .ok route) {storage : KVStore V}
    {entry : Option (VersionedValue V)}
    (hentry : entryOf (.ok (peerAnswer storage route)) = .ok (true, entry)) :
    storage.get key = entry := by
  rw [lookupKey_of_urlSafe cluster.http (cluster.addressable peer hpeer) hadmitted hsafe,
    Except.ok.injEq] at hroute
  subst hroute
  have hstored := readOutcome_internalGetKey storage key
  simpa [entryOf, peerAnswer, hstored] using hentry

/-- Such an answer is fresh. -/
theorem ReadsFresh.of_peerAnswer {holders : Finset Node} {version : VersionedValue V} {key : String}
    (hadmitted : Admitted key) (hsafe : UrlSafe key) {started : Nat} {state : State V}
    (hfresh : ReadsFresh cluster holders version key started state) {peer : Node}
    (hpeer : peer ∈ cluster.config.nodes) {route : Option String}
    (hroute : lookupKey cluster.http peer key = .ok route) :
    ∀ entry, entryOf (.ok (peerAnswer (state.stores peer) route)) = .ok (true, entry) →
      Fresh holders version peer entry := by
  intro entry hentry
  obtain rfl := entry_of_peerAnswer hadmitted hsafe hpeer hroute hentry
  exact hfresh.stored peer

/-- Only the calls of a read change, so its key is the one it had. -/
theorem ReadsFresh.set_fanOut {holders : Finset Node} {version : VersionedValue V} {key : String}
    {started : Nat} {state : State V}
    (hfresh : ReadsFresh cluster holders version key started state) {changed : Nat} {old : GetOp V}
    {fan : FanOut (Except HttpException (KVResponse V)) (Option (VersionedValue V))}
    (hold : state.gets[changed]? = some old)
    (hchanged : old.Sound cluster (Fresh holders version) → old.key = key →
      GetOp.Sound cluster (Fresh holders version) { old with fanOut := fan }) :
    ∀ get read, started ≤ get →
      (state.gets.set changed { old with fanOut := fan })[get]? = some read → read.key = key →
      read.Sound cluster (Fresh holders version) := by
  intro get read hlater hread hkey
  by_cases heq : changed = get
  · subst heq
    have hbound := (List.getElem?_eq_some_iff.mp hold).1
    rw [List.getElem?_set_self hbound, Option.some.injEq] at hread
    subst hread
    exact hchanged (hfresh.reads changed old hlater hold hkey) hkey
  · rw [List.getElem?_set_ne heq] at hread
    exact hfresh.reads get read hlater hread hkey

/-- A read that starts, hears from a peer or goes on waiting stays fresh. -/
theorem ReadsFresh.reads_step {holders : Finset Node} {version : VersionedValue V} {key : String}
    (hadmitted : Admitted key) (hsafe : UrlSafe key) {started : Nat} {state next : State V}
    (hfresh : ReadsFresh cluster holders version key started state)
    {action : Action V} (hnext : cluster.step state action = some next) :
    ∀ get read, started ≤ get → next.gets[get]? = some read → read.key = key →
      read.Sound cluster (Fresh holders version) := by
  have hreads := hfresh.reads
  cases action with
  | stamp node key w body now =>
      rcases Cluster.step_stamp hnext with rfl | ⟨_, _, _, rfl⟩
      · exact hreads
      · exact hreads
  | localPut put =>
      obtain ⟨_, _, _, _, _, rfl⟩ := Cluster.step_localPut hnext
      exact hreads
  | handleReplicate put peer =>
      obtain ⟨_, _, _, _, _, _, _, rfl⟩ := Cluster.step_handleReplicate hnext
      exact hreads
  | finishReplicate put peer failure =>
      obtain ⟨_, _, _, _, _, _, rfl⟩ := Cluster.step_finishReplicate hnext
      exact hreads
  | wakePut put signal =>
      obtain ⟨_, _, _, _, _, _, rfl⟩ := Cluster.step_wakePut hnext
      exact hreads
  | get node readKey r sample =>
      rcases Cluster.step_get hnext with rfl | ⟨rRequired, hrange, hnode, hsample, rfl⟩
      · exact hreads
      · intro get read hlater hread hkey
        rw [List.getElem?_append] at hread
        split at hread
        · exact hreads get read hlater hread hkey
        · obtain rfl := List.mem_singleton.mp (List.mem_of_getElem? hread)
          obtain rfl : readKey = key := hkey
          exact hfresh.startGet hnode hrange.2 hsample
  | handleRead get peer =>
      obtain ⟨old, route, fan, hold, hroute, hfan, rfl⟩ := Cluster.step_handleRead hnext
      refine hfresh.set_fanOut hold fun hsound hkey => ?_
      -- the peer looks up the key it was asked for
      have hpeer := (ClusterConfig.mem_peersExcluding.mp
        (hsound.contacted_peers (FanOut.deliver_eq_some.mp hfan).1)).1
      rw [hkey] at hroute
      exact hsound.withFanOut (FanOut.deliver_contacted hfan)
        (hsound.calls.deliver (hfresh.of_peerAnswer hadmitted hsafe hpeer hroute) hfan)
  | finishRead get peer failure =>
      obtain ⟨old, fan, hold, hfan, rfl⟩ := Cluster.step_finishRead hnext
      refine hfresh.set_fanOut hold fun hsound _ => ?_
      exact hsound.withFanOut (FanOut.finish_contacted hfan)
        (hsound.calls.finish entryOf_error hfan)
  | wakeGet get signal =>
      obtain ⟨old, fan, hold, hfan, rfl⟩ := Cluster.step_wakeGet hnext
      refine hfresh.set_fanOut hold fun hsound _ => ?_
      exact hsound.withFanOut (FanOut.wake_contacted hfan) (hsound.calls.wake hfan)
  | delete node key =>
      obtain ⟨_, rfl⟩ := Cluster.step_delete hnext
      exact hreads

theorem ReadsFresh.step {holders : Finset Node} {version : VersionedValue V} {key : String}
    (hadmitted : Admitted key) (hsafe : UrlSafe key) {started : Nat} {state next : State V}
    (hfresh : ReadsFresh cluster holders version key started state) {action : Action V}
    (hkeeps : action.KeepsKeys) (hnext : cluster.step state action = some next) :
    ReadsFresh cluster holders version key started next where
  sound := hfresh.sound.step hkeeps hnext
  held node hnode := holds_of_step hkeeps hnext (hfresh.held node hnode)
  reads := hfresh.reads_step hadmitted hsafe hnext

/-- Every read that is still to start sees fresh entries. -/
theorem ReadsFresh.start {holders : Finset Node} {version : VersionedValue V} {key : String}
    {state : State V} (hsound : state.Sound cluster)
    (hholders : ∀ node ∈ holders, (state.stores node).Holds key version) :
    ReadsFresh cluster holders version key state.gets.length state := by
  refine ⟨hsound, hholders, ?_⟩
  intro get read hlater hread
  rw [List.getElem?_eq_none hlater] at hread
  cases hread

/-- Reads that start after `holders` hold `version` see fresh entries. -/
theorem ReadsFresh.run {holders : Finset Node} {version : VersionedValue V} {key : String}
    (hadmitted : Admitted key) (hsafe : UrlSafe key) {actions : List (Action V)}
    {state final : State V} (hsound : state.Sound cluster)
    (hholders : ∀ node ∈ holders, (state.stores node).Holds key version)
    (hkeeps : ∀ action ∈ actions, action.KeepsKeys)
    (hrun : Runs.run cluster.step state actions = some final) :
    ReadsFresh cluster holders version key state.gets.length final :=
  Runs.run_invariant (ReadsFresh cluster holders version key state.gets.length)
    (fun _ _ _ hkeep hfresh hnext => hfresh.step hadmitted hsafe hkeep hnext) hkeeps
    (ReadsFresh.start hsound hholders) hrun

/-- A read that heard of enough nodes has, for as many different nodes as its `r`
says, an entry that `fresh` holds of. -/
theorem read_quorum {fresh : Node → Option (VersionedValue V) → Prop} {read : GetOp V}
    (hsound : read.Sound cluster fresh) {entries : List (Option (VersionedValue V))}
    (hexit : read.fanOut.gather.exit = some (.ok entries))
    (henough : read.rRequired ≤ 1 + (entries.length : Int)) :
    ∃ heard : Finset Node, heard ⊆ cluster.config.nodes.toFinset ∧
      read.rRequired ≤ heard.card ∧
      ∀ node ∈ heard, ∃ entry ∈ read.localEntry :: entries, fresh node entry := by
  obtain ⟨credited, hnodup, hcontacted, hcollected, hseen⟩ := hsound.calls.returned hexit
  obtain ⟨hcard, hsubset⟩ := card_participants hsound.coordinator_mem hnodup
    (List.Subset.trans hcontacted hsound.contacted_peers)
  refine ⟨_, hsubset, ?_, ?_⟩
  · rw [hcard, List.length_map]
    rw [hcollected, List.length_map] at henough
    exact_mod_cast henough
  · intro node hnode
    rw [List.mem_toFinset] at hnode
    rcases List.mem_cons.mp hnode with rfl | hcounted
    · exact ⟨read.localEntry, List.mem_cons_self, hsound.local_fresh⟩
    · obtain ⟨entry, hentry, rfl⟩ := List.mem_map.mp hcounted
      obtain ⟨answer, hfresh, houtcome⟩ := hseen entry hentry
      refine ⟨entry.2, List.mem_cons_of_mem _ ?_, hfresh entry.2 houtcome⟩
      rw [hcollected]
      exact List.mem_map_of_mem hentry

/-- A read that met an entry not older than `version` answers 200, and not with an
older one. -/
theorem getAnswer_covers {config : ClusterConfig} {key : String} {rRequired : Int}
    {localEntry : Option (VersionedValue V)} {entries : List (Option (VersionedValue V))}
    (henough : rRequired ≤ 1 + (entries.length : Int)) {version : VersionedValue V}
    {entry : Option (VersionedValue V)} (hmem : entry ∈ localEntry :: entries)
    (hcovers : Covers VersionedValue.Newer entry version)
    (hfinite : ∀ stored, entry = some stored → stored.timestamp ≠ .nan) :
    ∃ response, getAnswer config key rRequired localEntry entries = .ok response ∧
      ¬ version.Newer response.version := by
  obtain ⟨stored, rfl, hnot⟩ := hcovers
  have hcandidate : stored ∈ candidates localEntry entries := by
    rw [mem_candidates]
    rcases List.mem_cons.mp hmem with hlocal | hpeer
    · exact Or.inl hlocal.symm
    · exact Or.inr hpeer
  obtain ⟨winner, hwinner, hbelow⟩ :=
    covers_offerAll_of_mem VersionedValue.Newer none hcandidate
  rw [← pickWinner_eq_offerAll] at hwinner
  exact ⟨⟨key, winner.value, winner.timestamp, winner.nodeId⟩,
    getAnswer_eq_ok_iff.mpr ⟨henough, rfl, hwinner⟩,
    VersionedValue.not_newer_trans (hfinite stored rfl) hnot hbelow⟩

/-- Once a write of a key was answered 200 with `w`, every later read of the key
with `w + r` above the cluster size that is answered 200 or 404 is answered 200,
with a version the write is not newer than. -/
theorem quorum_freshness (cluster : Cluster) {before after : List (Action V)}
    {answered final : State V} (hbefore : ∀ action ∈ before, action.KeepsKeys)
    (hafter : ∀ action ∈ after, action.KeepsKeys)
    (hrun : Runs.run cluster.step Cluster.init before = some answered)
    (hrest : Runs.run cluster.step answered after = some final)
    (put : Nat) {op : PutOp V} (hop : answered.puts[put]? = some op) {response : PutResponse}
    (hanswer : op.answer cluster.config = some (.ok (.ok response)))
    (get : Nat) {read : GetOp V} (hread : final.gets[get]? = some read)
    (hlater : answered.gets.length ≤ get) (hkey : read.key = op.key)
    (hadmitted : Admitted op.key) (hsafe : UrlSafe op.key)
    (hoverlap : (cluster.size : Int) < op.wRequired + read.rRequired)
    {result : Except HttpException (KVResponse V)}
    (hresult : read.answer cluster.config = some (.ok result))
    (hstatus : ∀ exception, result = .error exception → exception.statusCode = 404) :
    ∃ response, result = .ok response ∧ ¬ op.version.Newer response.version := by
  have hsound := State.Sound.init.run hbefore hrun
  obtain ⟨holders, hholdersNodes, hw, hholders⟩ :=
    write_quorum hsound (List.mem_of_getElem? hop) hanswer
  have hreadSound := (ReadsFresh.run hadmitted hsafe hsound hholders hafter hrest).reads get read
    hlater hread hkey
  obtain ⟨outcome, hexit, houtcome⟩ := Option.map_eq_some_iff.mp hresult
  cases outcome with
  | error error => simp [Except.map] at houtcome
  | ok entries =>
      obtain rfl := Except.ok.inj houtcome
      have henough : read.rRequired ≤ 1 + (entries.length : Int) :=
        getAnswer_ne_503_iff.mp fun exception herror => by
          rw [hstatus exception herror]
          decide
      obtain ⟨heard, hheardNodes, hr, hheard⟩ := read_quorum hreadSound hexit henough
      -- two quorums that together outnumber the cluster share a node
      obtain ⟨node, hnode⟩ := Finset.inter_nonempty_of_card_lt_card_add_card
        hholdersNodes hheardNodes (by rw [card_nodes]; omega)
      obtain ⟨hholder, hheardNode⟩ := Finset.mem_inter.mp hnode
      obtain ⟨entry, hentry, hcovers, hfinite⟩ := hheard node hheardNode
      exact getAnswer_covers henough hentry (hcovers hholder) hfinite

/-- A write at the first node that waits for the second one's ack. -/
def pairWrite : List (Action Nat) :=
  [.stamp ⟨"localhost", 8101⟩ "k" (some 2) ⟨7⟩ 1, .localPut 0,
    .handleReplicate 0 ⟨"localhost", 8102⟩, .finishReplicate 0 ⟨"localhost", 8102⟩ none,
    .wakePut 0 (.done [⟨"localhost", 8102⟩])]

/-- A read of one node, at the second one. -/
def pairRead : List (Action Nat) := [.get ⟨"localhost", 8102⟩ "k" (some 1) []]

theorem quorum_freshness_pair :
    ∃ (answered final : State Nat) (op : PutOp Nat) (read : GetOp Nat)
      (result : Except HttpException (KVResponse Nat)),
      Runs.run pairCluster.step Cluster.init pairWrite = some answered ∧
      Runs.run pairCluster.step answered pairRead = some final ∧
      answered.puts[0]? = some op ∧ final.gets[0]? = some read ∧
      op.answer pairCluster.config = some (.ok (.ok ⟨true, .finite 1⟩)) ∧
      read.answer pairCluster.config = some (.ok result) ∧
      ∃ response, result = .ok response ∧ ¬ op.version.Newer response.version := by
  have hwrite : ∀ action ∈ pairWrite, action.KeepsKeys := by simp [pairWrite, Action.KeepsKeys]
  have hread : ∀ action ∈ pairRead, action.KeepsKeys := by simp [pairRead, Action.KeepsKeys]
  have hsafe : UrlSafe "k" := urlSafe_of_plain (by decide)
  refine ⟨_, _, _, _, _, rfl, rfl, rfl, rfl, rfl, rfl, ?_⟩
  refine quorum_freshness pairCluster hwrite hread rfl rfl 0 rfl rfl 0 rfl (by decide) rfl
    (by decide) hsafe (by decide) rfl ?_
  intro exception herror
  cases herror

end KvReplication.Leaderless
