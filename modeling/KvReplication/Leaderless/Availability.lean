import KvReplication.Leaderless.LiveCalls
import KvReplication.Leaderless.Requests
import KvReplication.Leaderless.Tightness

/-! # Requests during an outage

Some nodes are down: they handle nothing, and a call to one of them fails or hangs. The
others answer in time. A write waits for any `w - 1` of its peers and does not miss the rest
of them; a read waits for the very `r - 1` peers it has drawn.
-/

namespace KvReplication.Leaderless

open LastWriterWins WaitLoop

variable {V : Type} {cluster : Cluster} {down : Finset Node} {state next : State V}

/-- What may happen while the nodes in `down` are down. -/
def Outage (down : Finset Node) (state : State V) : Action V → Prop
  | .stamp node _ _ _ _ => node ∉ down
  | .localPut _ => True
  | .handleReplicate _ peer => peer ∉ down
  | .finishReplicate _ peer failure => failure = if peer ∈ down then some .httpError else none
  | .wakePut put signal => ∀ op progress, state.puts[put]? = some op →
      op.progress = some progress → progress.fanOut.WaitsForLive down signal
  | .get node _ _ _ => node ∉ down
  | .handleRead _ peer => peer ∉ down
  | .finishRead _ peer failure => failure = if peer ∈ down then some .httpError else none
  | .wakeGet get signal => ∀ read, state.gets[get]? = some read →
      read.fanOut.WaitsForLive down signal
  | .delete node _ => node ∉ down

/-- A run during the outage leads from `state` to `next`. -/
def Cluster.OutageLeads (cluster : Cluster) (down : Finset Node) (state next : State V) : Prop :=
  Runs.LeadsAlong cluster.step (Outage down) state next

/-! ### Writes -/

/-- A write of a node that is up, with all of its peers called. -/
structure PutOp.InOutage (cluster : Cluster) (down : Finset Node) (op : PutOp V) : Prop where
  coordinator_mem : op.coordinator ∈ cluster.config.nodes
  coordinator_up : op.coordinator ∉ down
  contacted_eq : ∀ progress, op.progress = some progress →
    progress.fanOut.contacted = cluster.peers op.coordinator
  counted : ∀ progress, op.progress = some progress →
    progress.fanOut.LiveCounted ackOf down (op.wRequired - 1)

theorem PutOp.InOutage.withFanOut {op : PutOp V} {progress : PutProgress}
    {fan : FanOut ReplicateResponse Unit} (hop : op.InOutage cluster down)
    (hprogress : op.progress = some progress)
    (hcontacted : fan.contacted = progress.fanOut.contacted)
    (hcounted : fan.LiveCounted ackOf down (op.wRequired - 1)) :
    (op.withFanOut progress fan).InOutage cluster down := by
  refine ⟨hop.coordinator_mem, hop.coordinator_up, fun later hlater => ?_, fun later hlater => ?_⟩
  · obtain rfl := Option.some.inj hlater
    exact hcontacted.trans (hop.contacted_eq progress hprogress)
  · obtain rfl := Option.some.inj hlater
    exact hcounted

theorem PutOp.InOutage.start {op : PutOp V} (hop : op.InOutage cluster down)
    (localApplied : Bool) : (cluster.startPut op localApplied).InOutage cluster down := by
  have hnodes : cluster.config.nodes.Nodup := cluster.ports_distinct.of_map
  refine ⟨hop.coordinator_mem, hop.coordinator_up, fun later hlater => ?_, fun later hlater => ?_⟩
  · obtain rfl := Option.some.inj hlater
    rfl
  · obtain rfl := Option.some.inj hlater
    exact FanOut.LiveCounted.start (ClusterConfig.peersExcluding_nodup hnodes _) _

theorem PutOp.InOutage.step {action : Action V} (houtage : Outage down state action)
    (hputs : ∀ op ∈ state.puts, op.InOutage cluster down)
    (hnext : cluster.step state action = some next) :
    ∀ op ∈ next.puts, op.InOutage cluster down := by
  cases action with
  | stamp node key w body now =>
      rcases Cluster.step_stamp hnext with rfl | ⟨wRequired, _, hnode, rfl⟩
      · exact hputs
      · refine Records.forall_mem_concat hputs ⟨hnode, houtage, ?_, ?_⟩
        · simp [Cluster.stampPut]
        · simp [Cluster.stampPut]
  | localPut put =>
      obtain ⟨op, hop, _, localApplied, _, rfl⟩ := Cluster.step_localPut hnext
      exact Records.forall_mem_set hputs put ((hputs op (List.mem_of_getElem? hop)).start _)
  | handleReplicate put peer =>
      obtain ⟨op, hop, progress, hprogress, response, fan, hfan, rfl⟩ :=
        Cluster.step_handleReplicate hnext
      have hold := hputs op (List.mem_of_getElem? hop)
      exact Records.forall_mem_set hputs put (hold.withFanOut hprogress
        (FanOut.deliver_contacted hfan)
        ((hold.counted progress hprogress).deliver ⟨(), Cluster.ackOf_ok response⟩ hfan))
  | finishReplicate put peer failure =>
      obtain ⟨op, hop, progress, hprogress, fan, hfan, rfl⟩ := Cluster.step_finishReplicate hnext
      have hold := hputs op (List.mem_of_getElem? hop)
      exact Records.forall_mem_set hputs put (hold.withFanOut hprogress
        (FanOut.finish_contacted hfan)
        ((hold.counted progress hprogress).finish ⟨(), rfl⟩ houtage hfan))
  | wakePut put signal =>
      obtain ⟨op, hop, progress, hprogress, fan, hfan, rfl⟩ := Cluster.step_wakePut hnext
      have hold := hputs op (List.mem_of_getElem? hop)
      exact Records.forall_mem_set hputs put (hold.withFanOut hprogress
        (FanOut.wake_contacted hfan)
        ((hold.counted progress hprogress).wake (houtage op progress hop hprogress) hfan))
  | get node key r sample =>
      rcases Cluster.step_get hnext with rfl | ⟨_, _, _, _, rfl⟩
      · exact hputs
      · exact hputs
  | handleRead get peer =>
      obtain ⟨_, _, _, _, _, _, rfl⟩ := Cluster.step_handleRead hnext
      exact hputs
  | finishRead get peer failure =>
      obtain ⟨_, _, _, _, rfl⟩ := Cluster.step_finishRead hnext
      exact hputs
  | wakeGet get signal =>
      obtain ⟨_, _, _, _, rfl⟩ := Cluster.step_wakeGet hnext
      exact hputs
  | delete node key =>
      obtain ⟨_, rfl⟩ := Cluster.step_delete hnext
      exact hputs

theorem PutOp.InOutage.leads (hleads : cluster.OutageLeads down state next)
    (hputs : ∀ op ∈ state.puts, op.InOutage cluster down) :
    ∀ op ∈ next.puts, op.InOutage cluster down :=
  Runs.LeadsAlong.keeps (fun state : State V => ∀ op ∈ state.puts, op.InOutage cluster down)
    (fun _ _ _ houtage hputs hnext => PutOp.InOutage.step houtage hputs hnext) hleads hputs

theorem PutOp.InOutage.of_reached (hreached : cluster.OutageLeads down Cluster.init state) :
    ∀ op ∈ state.puts, op.InOutage cluster down := by
  apply PutOp.InOutage.leads hreached
  intro op hop
  cases hop

/-- A write is answered once its loop has ended. -/
theorem PutOp.exit_of_answer {op : PutOp V}
    {result : Except PyError (Except HttpException PutResponse)}
    (hanswer : op.answer cluster.config = some result) :
    ∃ progress, op.progress = some progress ∧ progress.fanOut.gather.exit.isSome := by
  simp only [PutOp.answer, Option.bind_eq_bind, Option.bind_eq_some_iff] at hanswer
  obtain ⟨progress, hprogress, outcome, hexit, _⟩ := hanswer
  exact ⟨progress, hprogress, Option.isSome_iff_exists.mpr ⟨outcome, hexit⟩⟩

/-- What a loop that has ended gives the write. -/
theorem PutOp.answer_of_exit {op : PutOp V} {progress : PutProgress}
    (hprogress : op.progress = some progress) {acked : List Unit}
    (hexit : progress.fanOut.gather.exit = some (.ok acked)) :
    op.answer cluster.config = some (.ok (putAnswer cluster.config op.wRequired
      progress.localApplied op.version.timestamp acked.length)) := by
  simp only [PutOp.answer, hprogress, hexit, Option.bind_eq_bind, Option.bind_some]
  rfl

/-- With live peers enough the write is answered 200 once its loop has ended. -/
theorem PutOp.InOutage.answered {op : PutOp V} (hop : op.InOutage cluster down)
    (henough : op.wRequired - 1 ≤ (cluster.peers op.coordinator).countP (· ∉ down))
    {progress : PutProgress} (hprogress : op.progress = some progress)
    (hexit : progress.fanOut.gather.exit.isSome) :
    ∃ response, op.answer cluster.config = some (.ok (.ok response)) := by
  obtain ⟨outcome, houtcome⟩ := Option.isSome_iff_exists.mp hexit
  have hcounted := (hop.counted progress hprogress).gather
  rw [hop.contacted_eq progress hprogress] at hcounted
  obtain ⟨acked, rfl, hacked⟩ := hcounted.enough henough houtcome
  refine ⟨⟨progress.localApplied, op.version.timestamp⟩, ?_⟩
  rw [PutOp.answer_of_exit hprogress houtcome]
  exact congrArg (fun answer => some (Except.ok answer))
    (putAnswer_eq_ok_iff.mpr ⟨by omega, rfl⟩)

/-- With too few of them it never is. -/
theorem PutOp.InOutage.not_answered {op : PutOp V} (hop : op.InOutage cluster down)
    (hshort : ((cluster.peers op.coordinator).countP (· ∉ down) : Int) < op.wRequired - 1)
    {response : PutResponse} : op.answer cluster.config ≠ some (.ok (.ok response)) := by
  intro hanswer
  simp only [PutOp.answer, Option.bind_eq_bind, Option.bind_eq_some_iff, Option.pure_def,
    Option.some.injEq] at hanswer
  obtain ⟨progress, hprogress, outcome, hexit, hanswer⟩ := hanswer
  have hcounted := (hop.counted progress hprogress).gather
  rw [hop.contacted_eq progress hprogress] at hcounted
  obtain ⟨acked, rfl, hacked⟩ := hcounted.short hshort hexit
  have henough := (putAnswer_eq_ok_iff.mp (Except.ok.inj hanswer)).1
  omega

/-- The steps that replicate to live peers are possible during the outage. -/
theorem Outage.of_replicates {targets : List Node} (htargets : ∀ peer ∈ targets, peer ∉ down)
    (state : State V) {action : Action V} (hreplicates : action.Replicates targets) :
    Outage down state action := by
  cases action with
  | handleReplicate put peer => exact htargets peer hreplicates
  | finishReplicate put peer failure =>
      change failure = if peer ∈ down then some .httpError else none
      rw [if_neg (htargets peer hreplicates.1)]
      exact hreplicates.2
  | _ => exact hreplicates.elim

/-- A write whose loop is waiting for live peers enough can be answered 200. -/
theorem Cluster.leads_answered_of_started (hputs : ∀ op ∈ state.puts, op.InOutage cluster down)
    {put : Nat} {op : PutOp V} (hop : state.puts[put]? = some op)
    (henough : op.wRequired - 1 ≤ (cluster.peers op.coordinator).countP (· ∉ down))
    {progress : PutProgress} (hprogress : op.progress = some progress) :
    ∃ next done, cluster.OutageLeads down state next ∧ next.puts[put]? = some done ∧
      op.SameWrite done ∧ ∃ response, done.answer cluster.config = some (.ok (.ok response)) := by
  have hduring := hputs op (List.mem_of_getElem? hop)
  by_cases hexit : progress.fanOut.gather.exit.isSome
  · exact ⟨state, op, Runs.LeadsAlong.refl state, hop, ⟨rfl, rfl, rfl, rfl⟩,
      hduring.answered henough hprogress hexit⟩
  · have hcontacted := hduring.contacted_eq progress hprogress
    have hnodup : progress.fanOut.contacted.Nodup := by
      rw [hcontacted]
      exact ClusterConfig.peersExcluding_nodup cluster.ports_distinct.of_map _
    -- the live peers that have not returned yet do so
    let targets := progress.fanOut.contacted.filter fun peer =>
      decide (peer ∉ down ∧ (progress.fanOut.calls peer).result = none)
    have hmem : ∀ {peer}, peer ∈ targets ↔ peer ∈ progress.fanOut.contacted ∧ peer ∉ down ∧
        (progress.fanOut.calls peer).result = none := by
      intro peer
      simp only [targets, List.mem_filter, decide_eq_true_eq]
    obtain ⟨middle, fan, hleads, hreplicated⟩ := Cluster.leads_replicates cluster hop hprogress
      (hnodup.filter _) (fun peer hpeer => (hmem.mp hpeer).1)
      (fun peer hpeer => (hmem.mp hpeer).2.2)
    have hfirst : cluster.OutageLeads down state middle :=
      Runs.LeadsAlong.of_leads
        (Outage.of_replicates fun peer hpeer => (hmem.mp hpeer).2.1) hleads
    have hbound := (List.getElem?_eq_some_iff.mp hop).1
    let waiting := op.withFanOut progress fan
    have hwaiting : middle.puts[put]? = some waiting := by
      rw [hreplicated.puts_eq, List.getElem?_set_self hbound]
    have hwaitingProgress : waiting.progress = some { progress with fanOut := fan } := rfl
    have hmiddle := PutOp.InOutage.leads hfirst hputs
    have hwaitingDuring := hmiddle waiting (List.mem_of_getElem? hwaiting)
    have hreturned : ∀ peer ∈ fan.contacted, peer ∉ down → (fan.calls peer).result.isSome := by
      intro peer hpeer hlive
      rw [hreplicated.contacted_eq] at hpeer
      rw [hreplicated.result_eq]
      split
      · rfl
      · next hnot =>
          rw [Option.isSome_iff_ne_none]
          exact fun hnone => hnot (hmem.mpr ⟨hpeer, hlive, hnone⟩)
    have hfanContacted : fan.contacted = cluster.peers op.coordinator :=
      hreplicated.contacted_eq.trans hcontacted
    obtain ⟨tasks, gather, hwake, hended⟩ :=
      (hwaitingDuring.counted _ hwaitingProgress).exists_wake
        (by rw [hreplicated.gather_eq]; exact Option.not_isSome_iff_eq_none.mp hexit)
        (by rw [hfanContacted]; exact henough) hreturned
    have hstep : cluster.step middle (.wakePut put (.done tasks)) = some { middle with
        puts := middle.puts.set put (waiting.withFanOut { progress with fanOut := fan }
          { fan with gather := gather }) } := by
      simp only [Cluster.step, hwaiting, hwaitingProgress, Option.bind_eq_bind, Option.bind_some]
      rw [show waiting.wRequired = op.wRequired from rfl] at hwake ⊢
      rw [hwake]
      rfl
    have hsecond : cluster.OutageLeads down middle _ :=
      Runs.LeadsAlong.single hstep fun _ _ _ _ => trivial
    have hdone : (middle.puts.set put (waiting.withFanOut { progress with fanOut := fan }
        { fan with gather := gather }))[put]? = some (waiting.withFanOut
          { progress with fanOut := fan } { fan with gather := gather }) :=
      List.getElem?_set_self (List.getElem?_eq_some_iff.mp hwaiting).1
    have hdoneDuring := PutOp.InOutage.leads hsecond hmiddle _ (List.mem_of_getElem? hdone)
    exact ⟨_, _, hfirst.trans hsecond, hdone, ⟨rfl, rfl, rfl, rfl⟩,
      hdoneDuring.answered henough rfl hended⟩

/-- So can every write that a node has accepted. -/
theorem Cluster.leads_answered (hputs : ∀ op ∈ state.puts, op.InOutage cluster down)
    {put : Nat} {op : PutOp V} (hop : state.puts[put]? = some op)
    (henough : op.wRequired - 1 ≤ (cluster.peers op.coordinator).countP (· ∉ down)) :
    ∃ next done, cluster.OutageLeads down state next ∧ next.puts[put]? = some done ∧
      op.SameWrite done ∧ ∃ response, done.answer cluster.config = some (.ok (.ok response)) := by
  cases hprogress : op.progress with
  | some progress => exact leads_answered_of_started hputs hop henough hprogress
  | none =>
      have hlocal := step_localPut_of_stamped cluster hop hprogress
      have hfirst : cluster.OutageLeads down state _ := Runs.LeadsAlong.single hlocal trivial
      have hstarted : (state.puts.set put (cluster.startPut op ((state.stores op.coordinator).put
          op.key op.version.value op.version.timestamp op.version.nodeId).2))[put]? = some _ :=
        List.getElem?_set_self (List.getElem?_eq_some_iff.mp hop).1
      obtain ⟨next, done, hleads, hdone, hsame, hanswer⟩ := leads_answered_of_started
        (PutOp.InOutage.leads hfirst hputs) hstarted henough rfl
      exact ⟨next, done, hfirst.trans hleads, hdone, hsame, hanswer⟩

/-- The live peers of a live node are the nodes but itself and those that are down. -/
theorem Cluster.countP_live_peers (hdown : down ⊆ cluster.config.nodes.toFinset) {node : Node}
    (hnode : node ∈ cluster.config.nodes) (hup : node ∉ down) :
    (cluster.peers node).countP (· ∉ down) + 1 + down.card = cluster.size := by
  have hperm := ClusterConfig.perm_self_cons_peers
    (ClusterConfig.filter_port_eq_singleton cluster.ports_distinct hnode)
  have hlive := hperm.countP_eq (· ∉ down)
  rw [List.countP_cons_of_pos (by simpa using hup)] at hlive
  have hdead : cluster.config.nodes.countP (· ∈ down) = down.card := by
    rw [List.countP_eq_length_filter, ← List.toFinset_card_of_nodup
      (cluster.ports_distinct.of_map.filter _), List.toFinset_filter]
    congr 1
    ext peer
    simpa using fun hpeer => List.mem_toFinset.mp (hdown hpeer)
  have hsplit := @List.length_eq_countP_add_countP _ (fun peer => decide (peer ∈ down))
    cluster.config.nodes
  simp only [decide_eq_true_eq] at hsplit
  unfold Cluster.peers Cluster.size
  omega

/-- During an outage an accepted write can be answered 200, and is if it is answered, if and
only if `w` nodes are up. -/
theorem write_succeeds_iff (hdown : down ⊆ cluster.config.nodes.toFinset)
    (hreached : cluster.OutageLeads down Cluster.init state) {put : Nat} {op : PutOp V}
    (hop : state.puts[put]? = some op) :
    ((∃ next done, cluster.OutageLeads down state next ∧ next.puts[put]? = some done ∧
      op.SameWrite done ∧ ∃ response, done.answer cluster.config = some (.ok (.ok response))) ↔
        op.wRequired + down.card ≤ cluster.size) ∧
    ∀ result, op.answer cluster.config = some result →
      ((∃ response, result = .ok (.ok response)) ↔
        op.wRequired + down.card ≤ cluster.size) := by
  have hputs := PutOp.InOutage.of_reached hreached
  have hduring := hputs op (List.mem_of_getElem? hop)
  have hcount := Cluster.countP_live_peers hdown hduring.coordinator_mem hduring.coordinator_up
  constructor
  · constructor
    · rintro ⟨next, done, hleads, hdone, ⟨hcoordinator, _, hrequired, _⟩, response, hanswer⟩
      by_contra hfew
      refine (PutOp.InOutage.leads hleads hputs done (List.mem_of_getElem? hdone)).not_answered
        ?_ hanswer
      rw [hcoordinator, hrequired]
      omega
    · intro henough
      exact Cluster.leads_answered hputs hop (by omega)
  · intro result hresult
    constructor
    · rintro ⟨response, rfl⟩
      by_contra hfew
      exact hduring.not_answered (by omega) hresult
    · intro henough
      obtain ⟨progress, hprogress, hexit⟩ := PutOp.exit_of_answer hresult
      obtain ⟨response, hanswer⟩ := hduring.answered (by omega) hprogress hexit
      exact ⟨response, Option.some.inj (hresult.symm.trans hanswer)⟩

/-! ### Reads -/

/-- A read of a node that is up, which waits for every peer that it has called. -/
structure GetOp.InOutage (cluster : Cluster) (down : Finset Node) (read : GetOp V) : Prop where
  coordinator_up : read.coordinator ∉ down
  contacted_nodup : read.fanOut.contacted.Nodup
  contacted_mem : read.fanOut.contacted ⊆ cluster.config.nodes
  length_contacted : (read.fanOut.contacted.length : Int) = read.rRequired - 1
  counted : read.fanOut.LiveCounted entryOf down (read.rRequired - 1)

theorem GetOp.InOutage.withFanOut {read : GetOp V}
    {fan : FanOut (Except HttpException (KVResponse V)) (Option (VersionedValue V))}
    (hread : read.InOutage cluster down) (hcontacted : fan.contacted = read.fanOut.contacted)
    (hcounted : fan.LiveCounted entryOf down (read.rRequired - 1)) :
    GetOp.InOutage cluster down { read with fanOut := fan } := by
  refine ⟨hread.coordinator_up, ?_, ?_, ?_, hcounted⟩
  · exact hcontacted ▸ hread.contacted_nodup
  · exact hcontacted ▸ hread.contacted_mem
  · exact hcontacted ▸ hread.length_contacted

theorem GetOp.InOutage.start {node : Node} (hnode : node ∈ cluster.config.nodes)
    (hup : node ∉ down) (key : String) {r : Int} (hr : 1 ≤ r ∧ r ≤ cluster.size)
    (localEntry : Option (VersionedValue V)) {sample : List Node}
    (hsample : IsSample (cluster.peers node) (r - 1) sample) :
    (cluster.startGet node key r localEntry sample).InOutage cluster down := by
  have hpeers : (cluster.peers node).Nodup :=
    ClusterConfig.peersExcluding_nodup cluster.ports_distinct.of_map _
  have henough := Cluster.needed_le_peers hnode hr.2
  obtain ⟨hnodup, hsubset, _⟩ := readPeers_spec hpeers hsample henough
  refine ⟨hup, hnodup, ?_, Cluster.length_readPeers (by omega) henough hsample, ?_⟩
  · intro peer hpeer
    exact (ClusterConfig.mem_peersExcluding.mp (hsubset hpeer)).1
  · simp only [Cluster.startGet, read_eq_start]
    exact FanOut.LiveCounted.start hnodup _

/-- The answer of a live peer is a response, whatever route it took the read to. -/
theorem entryOf_counts (storage : KVStore V) (route : Option String) :
    ∃ value, entryOf (.ok (peerAnswer storage route)) = .ok (true, value) := by
  cases route with
  | none => exact ⟨none, rfl⟩
  | some key => exact ⟨storage.get key, Cluster.entryOf_peerAnswer storage key⟩

theorem GetOp.InOutage.step {action : Action V} (houtage : Outage down state action)
    (hgets : ∀ read ∈ state.gets, read.InOutage cluster down)
    (hnext : cluster.step state action = some next) :
    ∀ read ∈ next.gets, read.InOutage cluster down := by
  cases action with
  | get node key r sample =>
      rcases Cluster.step_get hnext with rfl | ⟨rRequired, hrange, hnode, hsample, rfl⟩
      · exact hgets
      · exact Records.forall_mem_concat hgets (.start hnode houtage key hrange _ hsample)
  | handleRead get peer =>
      obtain ⟨read, route, fan, hread, _, hfan, rfl⟩ := Cluster.step_handleRead hnext
      have hold := hgets read (List.mem_of_getElem? hread)
      exact Records.forall_mem_set hgets get (hold.withFanOut (FanOut.deliver_contacted hfan)
        (hold.counted.deliver (entryOf_counts _ route) hfan))
  | finishRead get peer failure =>
      obtain ⟨read, fan, hread, hfan, rfl⟩ := Cluster.step_finishRead hnext
      have hold := hgets read (List.mem_of_getElem? hread)
      exact Records.forall_mem_set hgets get (hold.withFanOut (FanOut.finish_contacted hfan)
        (hold.counted.finish ⟨none, rfl⟩ houtage hfan))
  | wakeGet get signal =>
      obtain ⟨read, fan, hread, hfan, rfl⟩ := Cluster.step_wakeGet hnext
      have hold := hgets read (List.mem_of_getElem? hread)
      exact Records.forall_mem_set hgets get (hold.withFanOut (FanOut.wake_contacted hfan)
        (hold.counted.wake (houtage read hread) hfan))
  | stamp node key w body now =>
      rcases Cluster.step_stamp hnext with rfl | ⟨_, _, _, rfl⟩
      · exact hgets
      · exact hgets
  | localPut put =>
      obtain ⟨_, _, _, _, _, rfl⟩ := Cluster.step_localPut hnext
      exact hgets
  | handleReplicate put peer =>
      obtain ⟨_, _, _, _, _, _, _, rfl⟩ := Cluster.step_handleReplicate hnext
      exact hgets
  | finishReplicate put peer failure =>
      obtain ⟨_, _, _, _, _, _, rfl⟩ := Cluster.step_finishReplicate hnext
      exact hgets
  | wakePut put signal =>
      obtain ⟨_, _, _, _, _, _, rfl⟩ := Cluster.step_wakePut hnext
      exact hgets
  | delete node key =>
      obtain ⟨_, rfl⟩ := Cluster.step_delete hnext
      exact hgets

theorem GetOp.InOutage.leads (hleads : cluster.OutageLeads down state next)
    (hgets : ∀ read ∈ state.gets, read.InOutage cluster down) :
    ∀ read ∈ next.gets, read.InOutage cluster down :=
  Runs.LeadsAlong.keeps (fun state : State V => ∀ read ∈ state.gets, read.InOutage cluster down)
    (fun _ _ _ houtage hgets hnext => GetOp.InOutage.step houtage hgets hnext) hleads hgets

theorem GetOp.InOutage.of_reached (hreached : cluster.OutageLeads down Cluster.init state) :
    ∀ read ∈ state.gets, read.InOutage cluster down := by
  apply GetOp.InOutage.leads hreached
  intro read hread
  cases hread

/-- A read was answered with an entry, or that there is none. -/
def GetOp.Served (config : ClusterConfig) (read : GetOp V) : Prop :=
  ∃ answer, read.answer config = some (.ok answer) ∧
    ∀ exception, answer = .error exception → exception.statusCode = 404

/-- A read of live peers is served once its loop has ended. -/
theorem GetOp.InOutage.served {read : GetOp V} (hread : read.InOutage cluster down)
    (hlive : ∀ peer ∈ read.fanOut.contacted, peer ∉ down)
    (hexit : read.fanOut.gather.exit.isSome) : read.Served cluster.config := by
  obtain ⟨outcome, houtcome⟩ := Option.isSome_iff_exists.mp hexit
  have hall : read.fanOut.contacted.countP (· ∉ down) = read.fanOut.contacted.length :=
    List.countP_eq_length.mpr (by simpa using hlive)
  have hlength := hread.length_contacted
  obtain ⟨entries, rfl, hentries⟩ := hread.counted.gather.enough (by omega) houtcome
  refine ⟨getAnswer cluster.config read.key read.rRequired read.localEntry entries, ?_, ?_⟩
  · simp only [GetOp.answer, houtcome, Option.map_some]
    rfl
  · intro exception herror
    have hquorum : read.rRequired ≤ 1 + (entries.length : Int) := by omega
    exact (statusCode_of_getAnswer herror).resolve_left
      (getAnswer_ne_503_iff.mpr hquorum exception herror)

/-- The node that stays up, and the one that does not. -/
def pairUp : Node := ⟨"localhost", 8101⟩

def pairDown : Node := ⟨"localhost", 8102⟩

theorem pair_write_succeeds : ∃ state : State Nat,
    pairCluster.OutageLeads {pairDown} Cluster.init state ∧
    ∃ op, state.puts[0]? = some op ∧ op.wRequired = 1 ∧
      ∃ next done, pairCluster.OutageLeads {pairDown} state next ∧ next.puts[0]? = some done ∧
        op.SameWrite done ∧
        ∃ response, done.answer pairCluster.config = some (.ok (.ok response)) := by
  have hstamp := Cluster.step_stamp_of_accepted (Cluster.init : State Nat)
    (show pairUp ∈ pairCluster.config.nodes by decide) "k"
    (show 1 ≤ 1 ∧ 1 ≤ (pairCluster.size : Int) by decide) ⟨7⟩ 1
  have hreached : pairCluster.OutageLeads {pairDown} (Cluster.init : State Nat) _ :=
    Runs.LeadsAlong.single hstamp (show pairUp ∉ ({pairDown} : Finset Node) by decide)
  exact ⟨_, hreached, _, rfl, rfl,
    (write_succeeds_iff (by decide) hreached rfl).1.mpr (by decide)⟩

end KvReplication.Leaderless
