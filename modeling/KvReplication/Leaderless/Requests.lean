import KvReplication.Leaderless.Freshness

/-! # What a step does to the requests

A request is started with what its own node holds, and then only its calls change: one
is handled, one finishes, or the loop takes up a wake-up. A write comes to be held by the
node that handles it.
-/

namespace KvReplication.Leaderless

open LastWriterWins WaitLoop

variable {V : Type} {cluster : Cluster} {state next : State V}

/-! ### The reads -/

/-- The reads after a step. -/
inductive GetsEffect (cluster : Cluster) (state : State V) (gets : List (GetOp V)) : Prop
  | unchanged (heq : gets = state.gets)
  | started {node : Node} {key : String} {rRequired : Int} {sample : List Node}
      (hrange : 1 ≤ rRequired ∧ rRequired ≤ cluster.size) (hnode : node ∈ cluster.config.nodes)
      (hsample : IsSample (cluster.peers node) (rRequired - 1) sample)
      (heq : gets = state.gets ++
        [cluster.startGet node key rRequired ((state.stores node).get key) sample])
  | handled {get : Nat} {peer : Node} {old : GetOp V} {route : Option String}
      {fan : FanOut (Except HttpException (KVResponse V)) (Option (VersionedValue V))}
      (hold : state.gets[get]? = some old)
      (hroute : lookupKey cluster.http peer old.key = .ok route)
      (hfan : old.fanOut.deliver peer (peerAnswer (state.stores peer) route) = some fan)
      (heq : gets = state.gets.set get { old with fanOut := fan })
  | finished {get : Nat} {peer : Node} {failure : Option PyError} {old : GetOp V}
      {fan : FanOut (Except HttpException (KVResponse V)) (Option (VersionedValue V))}
      (hold : state.gets[get]? = some old)
      (hfan : old.fanOut.finish entryOf peer failure = some fan)
      (heq : gets = state.gets.set get { old with fanOut := fan })
  | woken {get : Nat} {signal : Signal Node} {old : GetOp V}
      {fan : FanOut (Except HttpException (KVResponse V)) (Option (VersionedValue V))}
      (hold : state.gets[get]? = some old)
      (hfan : old.fanOut.wake (old.rRequired - 1) signal = some fan)
      (heq : gets = state.gets.set get { old with fanOut := fan })

theorem getsEffect_of_step {action : Action V} (hnext : cluster.step state action = some next) :
    GetsEffect cluster state next.gets := by
  cases action with
  | stamp node key w body now =>
      rcases Cluster.step_stamp hnext with rfl | ⟨_, _, _, rfl⟩
      · exact .unchanged rfl
      · exact .unchanged rfl
  | localPut put =>
      obtain ⟨_, _, _, _, _, rfl⟩ := Cluster.step_localPut hnext
      exact .unchanged rfl
  | handleReplicate put peer =>
      obtain ⟨_, _, _, _, _, _, _, rfl⟩ := Cluster.step_handleReplicate hnext
      exact .unchanged rfl
  | finishReplicate put peer failure =>
      obtain ⟨_, _, _, _, _, _, rfl⟩ := Cluster.step_finishReplicate hnext
      exact .unchanged rfl
  | wakePut put signal =>
      obtain ⟨_, _, _, _, _, _, rfl⟩ := Cluster.step_wakePut hnext
      exact .unchanged rfl
  | get node key r sample =>
      rcases Cluster.step_get hnext with rfl | ⟨rRequired, hrange, hnode, hsample, rfl⟩
      · exact .unchanged rfl
      · exact .started hrange hnode hsample rfl
  | handleRead get peer =>
      obtain ⟨old, route, fan, hold, hroute, hfan, rfl⟩ := Cluster.step_handleRead hnext
      exact .handled hold hroute hfan rfl
  | finishRead get peer failure =>
      obtain ⟨old, fan, hold, hfan, rfl⟩ := Cluster.step_finishRead hnext
      exact .finished hold hfan rfl
  | wakeGet get signal =>
      obtain ⟨old, fan, hold, hfan, rfl⟩ := Cluster.step_wakeGet hnext
      exact .woken hold hfan rfl
  | delete node key =>
      obtain ⟨_, rfl⟩ := Cluster.step_delete hnext
      exact .unchanged rfl

/-- Where `fresh` holds of what every node has at `key`, it holds of what reads of the key hear. -/
theorem GetsEffect.sound {key : String} (hadmitted : Admitted key) (hsafe : UrlSafe key)
    {fresh : Node → Option (VersionedValue V) → Prop}
    (hstored : ∀ node, fresh node ((state.stores node).get key)) {first : Nat}
    (hreads : ∀ get read, first ≤ get → state.gets[get]? = some read → read.key = key →
      read.Sound cluster fresh)
    {gets : List (GetOp V)} (heffect : GetsEffect cluster state gets) :
    ∀ get read, first ≤ get → gets[get]? = some read → read.key = key →
      read.Sound cluster fresh := by
  -- only the calls of a read change, so its key is the one it had
  have hset : ∀ (changed : Nat) (old : GetOp V)
      (fan : FanOut (Except HttpException (KVResponse V)) (Option (VersionedValue V))),
      state.gets[changed]? = some old → (old.Sound cluster fresh → old.key = key →
        GetOp.Sound cluster fresh { old with fanOut := fan }) →
      ∀ get read, first ≤ get → (state.gets.set changed { old with fanOut := fan })[get]? =
        some read → read.key = key → read.Sound cluster fresh := by
    intro changed old fan hold hlater get read hget hread hkey
    by_cases heq : changed = get
    · subst heq
      have hbound := (List.getElem?_eq_some_iff.mp hold).1
      rw [List.getElem?_set_self hbound, Option.some.injEq] at hread
      subst hread
      exact hlater (hreads changed old hget hold hkey) hkey
    · rw [List.getElem?_set_ne heq] at hread
      exact hreads get read hget hread hkey
  cases heffect with
  | unchanged heq =>
      rw [heq]
      exact hreads
  | @started node readKey rRequired sample hrange hnode hsample heq =>
      rw [heq]
      intro get read hget hread hkey
      rw [List.getElem?_append] at hread
      split at hread
      · exact hreads get read hget hread hkey
      · obtain rfl := List.mem_singleton.mp (List.mem_of_getElem? hread)
        obtain rfl : readKey = key := hkey
        exact GetOp.Sound.start hnode hrange.2 hsample (hstored node)
  | handled hold hroute hfan heq =>
      rw [heq]
      apply hset _ _ _ hold
      intro hsound hkey
      have hpeer := (ClusterConfig.mem_peersExcluding.mp
        (hsound.contacted_peers (FanOut.deliver_eq_some.mp hfan).1)).1
      apply hsound.withFanOut (FanOut.deliver_contacted hfan)
      refine hsound.calls.deliver (fun entry hentry => ?_) hfan
      -- the peer was asked for `key`, so this is what it holds there
      obtain rfl := entry_of_peerAnswer hadmitted hsafe hpeer (hkey ▸ hroute) hentry
      exact hstored _
  | finished hold hfan heq =>
      rw [heq]
      apply hset _ _ _ hold
      intro hsound _
      exact hsound.withFanOut (FanOut.finish_contacted hfan)
        (hsound.calls.finish entryOf_error hfan)
  | woken hold hfan heq =>
      rw [heq]
      apply hset _ _ _ hold
      intro hsound _
      exact hsound.withFanOut (FanOut.wake_contacted hfan) (hsound.calls.wake hfan)

/-- Every version a read was answered with was heard of one of the nodes. -/
theorem GetOp.Sound.heard {fresh : Node → Option (VersionedValue V) → Prop} {read : GetOp V}
    (hsound : read.Sound cluster fresh) {entries : List (Option (VersionedValue V))}
    (hexit : read.fanOut.gather.exit = some (.ok entries)) {stored : VersionedValue V}
    (hstored : stored ∈ candidates read.localEntry entries) :
    ∃ node ∈ cluster.config.nodes, fresh node (some stored) := by
  rcases mem_candidates.mp hstored with hlocal | hpeer
  · exact ⟨read.coordinator, hsound.coordinator_mem, hlocal ▸ hsound.local_fresh⟩
  · obtain ⟨credited, _, hcontacted, hcollected, hseen⟩ := hsound.calls.returned hexit
    rw [hcollected] at hpeer
    obtain ⟨entry, hentry, hvalue⟩ := List.mem_map.mp hpeer
    obtain ⟨answer, hfresh, houtcome⟩ := hseen entry hentry
    have hnode := hsound.contacted_peers (hcontacted (List.mem_map_of_mem hentry))
    exact ⟨entry.1, (ClusterConfig.mem_peersExcluding.mp hnode).1,
      hvalue ▸ hfresh entry.2 houtcome⟩

/-- A read that waits for so many nodes that one of them held `version` is answered with nothing
older, if it is answered 200 or 404. -/
theorem GetOp.Sound.meets {holders : Finset Node} {version : VersionedValue V} {read : GetOp V}
    (hsound : read.Sound cluster (Fresh holders version))
    (hnodes : holders ⊆ cluster.config.nodes.toFinset)
    (hoverlap : (cluster.size : Int) < holders.card + read.rRequired)
    {result : Except HttpException (KVResponse V)}
    (hresult : read.answer cluster.config = some (.ok result))
    (hstatus : ∀ exception, result = .error exception → exception.statusCode = 404) :
    ∃ response, result = .ok response ∧ ¬ version.Newer response.version := by
  obtain ⟨outcome, hexit, houtcome⟩ := Option.map_eq_some_iff.mp hresult
  cases outcome with
  | error error => simp [Except.map] at houtcome
  | ok entries =>
      obtain rfl := Except.ok.inj houtcome
      have henough : read.rRequired ≤ 1 + (entries.length : Int) :=
        getAnswer_ne_503_iff.mp fun exception herror => by
          rw [hstatus exception herror]
          decide
      obtain ⟨heard, hheardNodes, hr, hheard⟩ := read_quorum hsound hexit henough
      obtain ⟨node, hnode⟩ := Finset.inter_nonempty_of_card_lt_card_add_card hnodes hheardNodes
        (by rw [card_nodes]; omega)
      obtain ⟨hholder, hheardNode⟩ := Finset.mem_inter.mp hnode
      obtain ⟨entry, hentry, hcovers, hfinite⟩ := hheard node hheardNode
      exact getAnswer_covers henough hentry (hcovers hholder) hfinite

/-- The two records are of one read. -/
def GetOp.SameRead (read later : GetOp V) : Prop :=
  later.coordinator = read.coordinator ∧ later.key = read.key ∧
    later.rRequired = read.rRequired ∧ later.localEntry = read.localEntry

/-- A read stays in its place and keeps what it was asked. -/
theorem get_of_step {action : Action V} (hnext : cluster.step state action = some next)
    {get : Nat} {read : GetOp V} (hread : state.gets[get]? = some read) :
    ∃ later, next.gets[get]? = some later ∧ read.SameRead later := by
  have hset : ∀ (other : Nat) (old changed : GetOp V), state.gets[other]? = some old →
      old.SameRead changed → ∃ later, (state.gets.set other changed)[get]? = some later ∧
        read.SameRead later := fun _ _ _ hold hsame =>
    Records.exists_getElem?_set GetOp.SameRead hold hsame hread ⟨rfl, rfl, rfl, rfl⟩
  cases getsEffect_of_step hnext with
  | unchanged heq => exact ⟨read, heq ▸ hread, rfl, rfl, rfl, rfl⟩
  | started hrange hnode hsample heq =>
      rw [heq]
      exact Records.exists_getElem?_append GetOp.SameRead _ hread ⟨rfl, rfl, rfl, rfl⟩
  | handled hold hroute hfan heq => exact heq ▸ hset _ _ _ hold ⟨rfl, rfl, rfl, rfl⟩
  | finished hold hfan heq => exact heq ▸ hset _ _ _ hold ⟨rfl, rfl, rfl, rfl⟩
  | woken hold hfan heq => exact heq ▸ hset _ _ _ hold ⟨rfl, rfl, rfl, rfl⟩

/-- No read is forgotten. -/
theorem gets_length_le {action : Action V} (hnext : cluster.step state action = some next) :
    state.gets.length ≤ next.gets.length := by
  cases getsEffect_of_step hnext with
  | unchanged heq => rw [heq]
  | started hrange hnode hsample heq =>
      rw [heq, List.length_append]
      exact Nat.le_add_right _ _
  | handled hold hroute hfan heq => rw [heq, List.length_set]
  | finished hold hfan heq => rw [heq, List.length_set]
  | woken hold hfan heq => rw [heq, List.length_set]

/-! ### The writes -/

/-- The writes after a step, and the store that the write was made in. -/
inductive PutsEffect (cluster : Cluster) (state : State V) (action : Action V) (next : State V) :
    Prop
  | unchanged (heq : next.puts = state.puts)
  | stamped {node : Node} {key : String} {w : Option Int} {wRequired : Int} {body : PutRequest V}
      {now : ℚ} (haction : action = .stamp node key w body now)
      (hnode : node ∈ cluster.config.nodes)
      (heq : next.puts = state.puts ++ [cluster.stampPut node key wRequired body now])
  | started {put : Nat} {op : PutOp V} {localApplied : Bool} (hop : state.puts[put]? = some op)
      (hheld : (next.stores op.coordinator).Holds op.key op.version)
      (heq : next.puts = state.puts.set put (cluster.startPut op localApplied))
  | handled {put : Nat} {peer : Node} {op : PutOp V} {progress : PutProgress}
      {response : ReplicateResponse} {fan : FanOut ReplicateResponse Unit}
      (hop : state.puts[put]? = some op) (hprogress : op.progress = some progress)
      (hfan : progress.fanOut.deliver peer response = some fan)
      (hheld : (next.stores peer).Holds op.key op.version)
      (heq : next.puts = state.puts.set put (op.withFanOut progress fan))
  | finished {put : Nat} {peer : Node} {failure : Option PyError} {op : PutOp V}
      {progress : PutProgress} {fan : FanOut ReplicateResponse Unit}
      (hop : state.puts[put]? = some op) (hprogress : op.progress = some progress)
      (hfan : progress.fanOut.finish ackOf peer failure = some fan)
      (heq : next.puts = state.puts.set put (op.withFanOut progress fan))
  | woken {put : Nat} {signal : Signal Node} {op : PutOp V} {progress : PutProgress}
      {fan : FanOut ReplicateResponse Unit}
      (hop : state.puts[put]? = some op) (hprogress : op.progress = some progress)
      (hfan : progress.fanOut.wake (op.wRequired - 1) signal = some fan)
      (heq : next.puts = state.puts.set put (op.withFanOut progress fan))

theorem putsEffect_of_step {action : Action V} (hnext : cluster.step state action = some next) :
    PutsEffect cluster state action next := by
  cases action with
  | stamp node key w body now =>
      rcases Cluster.step_stamp hnext with rfl | ⟨_, _, hnode, rfl⟩
      · exact .unchanged rfl
      · exact .stamped rfl hnode rfl
  | localPut put =>
      obtain ⟨op, hop, _, _, _, rfl⟩ := Cluster.step_localPut hnext
      exact .started hop (Stores.holds_write_self _ _ _ _) rfl
  | handleReplicate put peer =>
      obtain ⟨op, hop, progress, hprogress, _, fan, hfan, rfl⟩ :=
        Cluster.step_handleReplicate hnext
      exact .handled hop hprogress hfan (Stores.holds_write_self _ _ _ _) rfl
  | finishReplicate put peer failure =>
      obtain ⟨op, hop, progress, hprogress, fan, hfan, rfl⟩ := Cluster.step_finishReplicate hnext
      exact .finished hop hprogress hfan rfl
  | wakePut put signal =>
      obtain ⟨op, hop, progress, hprogress, fan, hfan, rfl⟩ := Cluster.step_wakePut hnext
      exact .woken hop hprogress hfan rfl
  | get node key r sample =>
      rcases Cluster.step_get hnext with rfl | ⟨_, _, _, _, rfl⟩
      · exact .unchanged rfl
      · exact .unchanged rfl
  | handleRead get peer =>
      obtain ⟨_, _, _, _, _, _, rfl⟩ := Cluster.step_handleRead hnext
      exact .unchanged rfl
  | finishRead get peer failure =>
      obtain ⟨_, _, _, _, rfl⟩ := Cluster.step_finishRead hnext
      exact .unchanged rfl
  | wakeGet get signal =>
      obtain ⟨_, _, _, _, rfl⟩ := Cluster.step_wakeGet hnext
      exact .unchanged rfl
  | delete node key =>
      obtain ⟨_, rfl⟩ := Cluster.step_delete hnext
      exact .unchanged rfl

/-- Where `holds` follows what the stores come to hold, the writes accepted from number `first`
on stay matched by it. -/
theorem PutsEffect.sound {holds : PutOp V → Node → KVStore V} {holds' : PutOp V → Node → KVStore V}
    (hgrown : ∀ op node key version, (holds op node).Holds key version →
      (holds' op node).Holds key version)
    (hsame : ∀ op later, op.SameWrite later → holds' later = holds' op)
    (hstored : ∀ op node, (next.stores node).Holds op.key op.version →
      (holds' op node).Holds op.key op.version) {first : Nat}
    (hputs : ∀ put op, first ≤ put → state.puts[put]? = some op → op.Sound cluster (holds op))
    {action : Action V} (heffect : PutsEffect cluster state action next) :
    ∀ put op, first ≤ put → next.puts[put]? = some op → op.Sound cluster (holds' op) := by
  have hold : ∀ put op, first ≤ put → state.puts[put]? = some op → op.Sound cluster (holds' op) :=
    fun put op hput hop => (hputs put op hput hop).mono (hgrown op)
  -- a later record of a write is held where the write was
  have hset : ∀ changed old (later : PutOp V), state.puts[changed]? = some old →
      old.SameWrite later → (old.Sound cluster (holds' old) → later.Sound cluster (holds' old)) →
      ∀ put op, first ≤ put → (state.puts.set changed later)[put]? = some op →
        op.Sound cluster (holds' op) := by
    intro changed old later hchanged hsameWrite hlater put op hput hop
    by_cases heq : changed = put
    · subst heq
      have hbound := (List.getElem?_eq_some_iff.mp hchanged).1
      rw [List.getElem?_set_self hbound, Option.some.injEq] at hop
      subst hop
      rw [hsame old later hsameWrite]
      exact hlater (hold changed old hput hchanged)
    · rw [List.getElem?_set_ne heq] at hop
      exact hold put op hput hop
  cases heffect with
  | unchanged heq =>
      rw [heq]
      exact hold
  | stamped haction hnode heq =>
      rw [heq]
      intro put op hput hop
      rw [List.getElem?_append] at hop
      split at hop
      · exact hold put op hput hop
      · obtain rfl := List.mem_singleton.mp (List.mem_of_getElem? hop)
        exact ⟨hnode, by simp [Cluster.stampPut, Server.stamp], by simp [Cluster.stampPut],
          by simp [Cluster.stampPut], by simp [Cluster.stampPut]⟩
  | @started put op localApplied hop hheld heq =>
      rw [heq]
      refine hset _ _ _ hop ?_ fun hsound => ?_
      · exact ⟨rfl, rfl, rfl, rfl⟩
      · refine ⟨hsound.coordinator_mem, hsound.stamped, fun _ _ => hstored op _ hheld, ?_, ?_⟩
        · intro progress hstarted
          obtain rfl := Option.some.inj hstarted
          rfl
        · intro progress hstarted
          obtain rfl := Option.some.inj hstarted
          have hnodes : cluster.config.nodes.Nodup := cluster.ports_distinct.of_map
          exact FanOut.Sound.start (ClusterConfig.peersExcluding_nodup hnodes _) _
  | @handled put peer op progress response fan hop hprogress hfan hheld heq =>
      rw [heq]
      refine hset _ _ _ hop ?_ fun hsound => ?_
      · exact ⟨rfl, rfl, rfl, rfl⟩
      · exact hsound.withFanOut hprogress (FanOut.deliver_contacted hfan)
          ((hsound.calls progress hprogress).deliver (hstored op peer hheld) hfan)
  | finished hop hprogress hfan heq =>
      rw [heq]
      refine hset _ _ _ hop ?_ fun hsound => ?_
      · exact ⟨rfl, rfl, rfl, rfl⟩
      · exact hsound.withFanOut hprogress (FanOut.finish_contacted hfan)
          ((hsound.calls _ hprogress).finish ackOf_error hfan)
  | woken hop hprogress hfan heq =>
      rw [heq]
      refine hset _ _ _ hop ?_ fun hsound => ?_
      · exact ⟨rfl, rfl, rfl, rfl⟩
      · exact hsound.withFanOut hprogress (FanOut.wake_contacted hfan)
          ((hsound.calls _ hprogress).wake hfan)

/-- A write after a step is one from before it, or was just stamped. -/
theorem PutsEffect.origin {action : Action V} (heffect : PutsEffect cluster state action next)
    {op : PutOp V} (hop : op ∈ next.puts) :
    (∃ old ∈ state.puts, old.SameWrite op) ∨
      ∃ node key wRequired body now, op = cluster.stampPut node key wRequired body now := by
  have hkept : op ∈ state.puts → ∃ old ∈ state.puts, old.SameWrite op :=
    fun hmem => ⟨op, hmem, rfl, rfl, rfl, rfl⟩
  have hset : ∀ changed old (later : PutOp V), state.puts[changed]? = some old →
      op ∈ state.puts.set changed later → old.SameWrite later →
      ∃ old ∈ state.puts, old.SameWrite op := by
    intro changed old later hold hmem hsame
    rcases List.mem_or_eq_of_mem_set hmem with hmem | rfl
    · exact hkept hmem
    · exact ⟨old, List.mem_of_getElem? hold, hsame⟩
  cases heffect with
  | unchanged heq =>
      rw [heq] at hop
      exact Or.inl (hkept hop)
  | stamped haction hnode heq =>
      rw [heq] at hop
      rcases List.mem_append.mp hop with hmem | hnew
      · exact Or.inl (hkept hmem)
      · exact Or.inr ⟨_, _, _, _, _, List.mem_singleton.mp hnew⟩
  | started hold hheld heq =>
      rw [heq] at hop
      exact Or.inl (hset _ _ _ hold hop ⟨rfl, rfl, rfl, rfl⟩)
  | handled hold hprogress hfan hheld heq =>
      rw [heq] at hop
      exact Or.inl (hset _ _ _ hold hop ⟨rfl, rfl, rfl, rfl⟩)
  | finished hold hprogress hfan heq =>
      rw [heq] at hop
      exact Or.inl (hset _ _ _ hold hop ⟨rfl, rfl, rfl, rfl⟩)
  | woken hold hprogress hfan heq =>
      rw [heq] at hop
      exact Or.inl (hset _ _ _ hold hop ⟨rfl, rfl, rfl, rfl⟩)

/-- A write is answered with its own stamp. -/
theorem PutOp.timestamp_of_answer {op : PutOp V} {response : PutResponse}
    (hanswer : op.answer cluster.config = some (.ok (.ok response))) :
    response.timestamp = op.version.timestamp := by
  simp only [PutOp.answer, Option.bind_eq_bind, Option.bind_eq_some_iff, Option.pure_def,
    Option.some.injEq] at hanswer
  obtain ⟨progress, _, outcome, _, hanswer⟩ := hanswer
  cases outcome with
  | error error => cases hanswer
  | ok acked => rw [(putAnswer_eq_ok_iff.mp (Except.ok.inj hanswer)).2]

namespace Cluster

/-- A write whose `w` is in range is stamped with it. -/
theorem step_stamp_of_valid {node : Node} {key : String} {w : Option Int} {body : PutRequest V}
    {now : ℚ}
    (hvalid : validateQuorumParam (w.getD cluster.config.defaultW) "w" cluster.size = .ok ())
    (hnext : cluster.step state (.stamp node key w body now) = some next) :
    next = { state with puts := state.puts ++
      [cluster.stampPut node key (w.getD cluster.config.defaultW) body now] } := by
  simp only [step, Option.bind_eq_bind, Option.bind_eq_some_iff, hvalid] at hnext
  obtain ⟨_, _, hnext⟩ := hnext
  exact (Option.some.inj hnext).symm

/-- A read whose `r` is in range waits for so many nodes. -/
theorem step_get_of_valid {node : Node} {key : String} {r : Option Int} {sample : List Node}
    (hvalid : validateQuorumParam (r.getD cluster.config.defaultR) "r" cluster.size = .ok ())
    (hnext : cluster.step state (.get node key r sample) = some next) :
    next = { state with gets := state.gets ++ [cluster.startGet node key
      (r.getD cluster.config.defaultR) ((state.stores node).get key) sample] } := by
  simp only [step, Option.bind_eq_bind, Option.bind_eq_some_iff, hvalid] at hnext
  obtain ⟨_, _, _, _, hnext⟩ := hnext
  exact (Option.some.inj hnext).symm

end Cluster

end KvReplication.Leaderless
