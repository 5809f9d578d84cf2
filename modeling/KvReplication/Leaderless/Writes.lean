import KvReplication.Foundation.Records
import KvReplication.Leaderless.Cluster

/-! # Where the writes of a cluster are held

A write is held by its coordinator once it is local, and by every peer that has
handled its replicate call. Without deletes a store never moves below a version
it holds, so both facts last; and everything stored was stamped by some write.
-/

namespace KvReplication.Leaderless

open LastWriterWins

variable {V : Type} {cluster : Cluster} {state next : State V}

/-- `action` writes the version of `op` at `node`. -/
inductive WritesAt (state : State V) : Action V → Node → PutOp V → Prop
  | localPut {put : Nat} {op : PutOp V} (hop : state.puts[put]? = some op)
      (hprogress : op.progress = none) : WritesAt state (.localPut put) op.coordinator op
  | handleReplicate {put : Nat} {peer : Node} {op : PutOp V} {progress : PutProgress}
      (hop : state.puts[put]? = some op) (hprogress : op.progress = some progress)
      (hpeer : peer ∈ progress.fanOut.contacted) :
      WritesAt state (.handleReplicate put peer) peer op

theorem WritesAt.mem {action : Action V} {node : Node} {op : PutOp V}
    (hwrites : WritesAt state action node op) : op ∈ state.puts := by
  cases hwrites with
  | localPut hop hprogress => exact List.mem_of_getElem? hop
  | handleReplicate hop hprogress hpeer => exact List.mem_of_getElem? hop

/-- What an action does to the stores: nothing, one versioned write at one node,
or one removal. -/
inductive StoreEffect (state : State V) (action : Action V) (stores : Node → KVStore V) : Prop
  | unchanged (heq : stores = state.stores)
  | write {node : Node} {op : PutOp V} (hwrites : WritesAt state action node op)
      (heq : stores = Stores.write state.stores node op.key op.version)
  | remove {node : Node} {key : String} (haction : action = .delete node key)
      (heq : stores = Stores.remove state.stores node key)

theorem storeEffect_of_step {action : Action V} (hnext : cluster.step state action = some next) :
    StoreEffect state action next.stores := by
  cases action with
  | stamp node key w body now =>
      rcases Cluster.step_stamp hnext with rfl | ⟨_, _, _, rfl⟩
      · exact .unchanged rfl
      · exact .unchanged rfl
  | localPut put =>
      obtain ⟨op, hop, hprogress, _, _, rfl⟩ := Cluster.step_localPut hnext
      exact .write (.localPut hop hprogress) rfl
  | handleReplicate put peer =>
      obtain ⟨op, hop, progress, hprogress, _, fan, hfan, rfl⟩ :=
        Cluster.step_handleReplicate hnext
      exact .write (.handleReplicate hop hprogress (FanOut.deliver_eq_some.mp hfan).1) rfl
  | finishReplicate put peer failure =>
      obtain ⟨op, _, progress, _, fan, _, rfl⟩ := Cluster.step_finishReplicate hnext
      exact .unchanged rfl
  | wakePut put signal =>
      obtain ⟨op, _, progress, _, fan, _, rfl⟩ := Cluster.step_wakePut hnext
      exact .unchanged rfl
  | get node key r sample =>
      rcases Cluster.step_get hnext with rfl | ⟨_, _, _, _, rfl⟩
      · exact .unchanged rfl
      · exact .unchanged rfl
  | handleRead get peer =>
      obtain ⟨op, route, fan, _, _, _, rfl⟩ := Cluster.step_handleRead hnext
      exact .unchanged rfl
  | finishRead get peer failure =>
      obtain ⟨op, fan, _, _, rfl⟩ := Cluster.step_finishRead hnext
      exact .unchanged rfl
  | wakeGet get signal =>
      obtain ⟨op, fan, _, _, rfl⟩ := Cluster.step_wakeGet hnext
      exact .unchanged rfl
  | delete node key =>
      obtain ⟨_, rfl⟩ := Cluster.step_delete hnext
      exact .remove rfl rfl

/-- The two records are of one write. -/
def PutOp.SameWrite (op later : PutOp V) : Prop :=
  later.coordinator = op.coordinator ∧ later.key = op.key ∧ later.wRequired = op.wRequired ∧
    later.version = op.version

/-- A write stays in its place and keeps what was stamped. -/
theorem put_of_step {action : Action V} (hnext : cluster.step state action = some next)
    {put : Nat} {op : PutOp V} (hop : state.puts[put]? = some op) :
    ∃ later, next.puts[put]? = some later ∧ op.SameWrite later := by
  have hkeep : ∃ later, state.puts[put]? = some later ∧ op.SameWrite later :=
    ⟨op, hop, rfl, rfl, rfl, rfl⟩
  -- an action replaces a write by a later record of the same write
  have hset : ∀ (other : Nat) (old changed : PutOp V), state.puts[other]? = some old →
      old.SameWrite changed → ∃ later, (state.puts.set other changed)[put]? = some later ∧
        op.SameWrite later := fun _ _ _ hold hsame =>
    Records.exists_getElem?_set PutOp.SameWrite hold hsame hop ⟨rfl, rfl, rfl, rfl⟩
  cases action with
  | stamp node key w body now =>
      rcases Cluster.step_stamp hnext with rfl | ⟨_, _, _, rfl⟩
      · exact hkeep
      · exact Records.exists_getElem?_append PutOp.SameWrite _ hop ⟨rfl, rfl, rfl, rfl⟩
  | localPut other =>
      obtain ⟨old, hold, _, _, _, rfl⟩ := Cluster.step_localPut hnext
      exact hset other old _ hold ⟨rfl, rfl, rfl, rfl⟩
  | handleReplicate other peer =>
      obtain ⟨old, hold, _, _, _, _, _, rfl⟩ := Cluster.step_handleReplicate hnext
      exact hset other old _ hold ⟨rfl, rfl, rfl, rfl⟩
  | finishReplicate other peer failure =>
      obtain ⟨old, hold, _, _, _, _, rfl⟩ := Cluster.step_finishReplicate hnext
      exact hset other old _ hold ⟨rfl, rfl, rfl, rfl⟩
  | wakePut other signal =>
      obtain ⟨old, hold, _, _, _, _, rfl⟩ := Cluster.step_wakePut hnext
      exact hset other old _ hold ⟨rfl, rfl, rfl, rfl⟩
  | get node key r sample =>
      rcases Cluster.step_get hnext with rfl | ⟨_, _, _, _, rfl⟩
      · exact hkeep
      · exact hkeep
  | handleRead get peer =>
      obtain ⟨_, _, _, _, _, _, rfl⟩ := Cluster.step_handleRead hnext
      exact hkeep
  | finishRead get peer failure =>
      obtain ⟨_, _, _, _, rfl⟩ := Cluster.step_finishRead hnext
      exact hkeep
  | wakeGet get signal =>
      obtain ⟨_, _, _, _, rfl⟩ := Cluster.step_wakeGet hnext
      exact hkeep
  | delete node key =>
      obtain ⟨_, rfl⟩ := Cluster.step_delete hnext
      exact hkeep

/-- Every action except the removal of a key. -/
def Action.KeepsKeys : Action V → Prop
  | .delete _ _ => False
  | _ => True

/-- Without a delete no store moves below what it holds. -/
theorem holds_of_step {action : Action V} (hkeeps : action.KeepsKeys)
    (hnext : cluster.step state action = some next) {node : Node} {key : String}
    {version : VersionedValue V} (hholds : (state.stores node).Holds key version) :
    (next.stores node).Holds key version := by
  rcases storeEffect_of_step hnext with heq | ⟨_, heq⟩ | ⟨rfl, _⟩
  · rw [heq]
    exact hholds
  · rw [heq]
    exact Stores.holds_write hholds _ _ _
  · exact hkeeps.elim

/-- A write's progress is matched by what the stores hold. -/
structure PutOp.Sound (cluster : Cluster) (stores : Node → KVStore V) (op : PutOp V) : Prop where
  coordinator_mem : op.coordinator ∈ cluster.config.nodes
  stamped : op.version.timestamp ≠ .nan
  local_held : ∀ progress, op.progress = some progress →
    (stores op.coordinator).Holds op.key op.version
  contacted : ∀ progress, op.progress = some progress →
    progress.fanOut.contacted = cluster.peers op.coordinator
  calls : ∀ progress, op.progress = some progress →
    progress.fanOut.Sound ackOf fun peer _ => (stores peer).Holds op.key op.version

theorem PutOp.Sound.mono {stores stores' : Node → KVStore V} {op : PutOp V}
    (hsound : op.Sound cluster stores)
    (hholds : ∀ node key version, (stores node).Holds key version →
      (stores' node).Holds key version) : op.Sound cluster stores' where
  coordinator_mem := hsound.coordinator_mem
  stamped := hsound.stamped
  local_held progress hprogress := hholds _ _ _ (hsound.local_held progress hprogress)
  contacted := hsound.contacted
  calls progress hprogress :=
    (hsound.calls progress hprogress).mono fun peer _ hseen => hholds peer _ _ hseen

/-- A write goes on with the calls `fan`. -/
theorem PutOp.Sound.withFanOut {stores : Node → KVStore V} {op : PutOp V}
    (hsound : op.Sound cluster stores) {progress : PutProgress}
    (hprogress : op.progress = some progress) {fan : FanOut ReplicateResponse Unit}
    (hcontacted : fan.contacted = progress.fanOut.contacted)
    (hfan : fan.Sound ackOf fun peer _ => (stores peer).Holds op.key op.version) :
    (op.withFanOut progress fan).Sound cluster stores where
  coordinator_mem := hsound.coordinator_mem
  stamped := hsound.stamped
  local_held _ _ := hsound.local_held progress hprogress
  contacted later hlater := by
    obtain rfl := Option.some.inj hlater
    exact hcontacted.trans (hsound.contacted progress hprogress)
  calls later hlater := by
    obtain rfl := Option.some.inj hlater
    exact hfan

/-- A failed call is not an ack. -/
theorem ackOf_error (error : PyError) (value : Unit) :
    ackOf (.error error) ≠ .ok (true, value) := by
  cases error <;> simp [ackOf, replicateOutcome]

/-- Every write is matched by the stores, and the stores hold written versions only. -/
structure State.Sound (cluster : Cluster) (state : State V) : Prop where
  puts : ∀ op ∈ state.puts, op.Sound cluster state.stores
  stored : ∀ node key entry, (state.stores node).get key = some entry →
    ∃ op ∈ state.puts, op.key = key ∧ op.version = entry

theorem State.Sound.init : (Cluster.init : State V).Sound cluster where
  puts op hop := by simp [Cluster.init] at hop
  stored node key entry hentry := by simp [Cluster.init] at hentry

/-- What is stored after an action was stored before at the same node, or is the
version the action wrote there. -/
theorem stored_of_step {action : Action V} (hnext : cluster.step state action = some next)
    {node : Node} {key : String} {entry : VersionedValue V}
    (hentry : (next.stores node).get key = some entry) :
    (state.stores node).get key = some entry ∨
      ∃ op, WritesAt state action node op ∧ op.key = key ∧ op.version = entry := by
  rcases storeEffect_of_step hnext with heq | @⟨writer, op, hwrites, heq⟩ | ⟨_, heq⟩
  · exact Or.inl (heq ▸ hentry)
  · rw [heq] at hentry
    rcases Stores.get_write_cases hentry with hold | ⟨rfl, rfl, rfl⟩
    · exact Or.inl hold
    · exact Or.inr ⟨op, hwrites, rfl, rfl⟩
  · rw [heq] at hentry
    exact Or.inl (Stores.get_of_get_remove hentry)

theorem State.Sound.stored_step (hsound : state.Sound cluster) {action : Action V}
    (hnext : cluster.step state action = some next) {node : Node} {key : String}
    {entry : VersionedValue V} (hentry : (next.stores node).get key = some entry) :
    ∃ op ∈ next.puts, op.key = key ∧ op.version = entry := by
  have hbefore : ∃ op ∈ state.puts, op.key = key ∧ op.version = entry := by
    rcases stored_of_step hnext hentry with hold | ⟨op, hwrites, hkey, hversion⟩
    · exact hsound.stored node key entry hold
    · exact ⟨op, hwrites.mem, hkey, hversion⟩
  obtain ⟨op, hop, hkey, hversion⟩ := hbefore
  obtain ⟨put, hput⟩ := List.getElem?_of_mem hop
  obtain ⟨later, hlater, _, hlaterKey, _, hlaterVersion⟩ := put_of_step hnext hput
  exact ⟨later, List.mem_of_getElem? hlater, hlaterKey.trans hkey, hlaterVersion.trans hversion⟩

/-- The writes under way stay matched by the stores. -/
theorem State.Sound.puts_step (hsound : state.Sound cluster) {action : Action V}
    (hkeeps : action.KeepsKeys) (hnext : cluster.step state action = some next) :
    ∀ op ∈ next.puts, op.Sound cluster next.stores := by
  have hgrown : ∀ op ∈ state.puts, op.Sound cluster next.stores := fun op hop =>
    (hsound.puts op hop).mono fun node key version => holds_of_step hkeeps hnext
  have hset : ∀ (put : Nat) (changed : PutOp V), changed.Sound cluster next.stores →
      ∀ op ∈ state.puts.set put changed, op.Sound cluster next.stores :=
    fun put _ hchanged => Records.forall_mem_set hgrown put hchanged
  cases action with
  | stamp node key w body now =>
      rcases Cluster.step_stamp hnext with rfl | ⟨wRequired, _, hnode, rfl⟩
      · exact hgrown
      · refine Records.forall_mem_concat hgrown ?_
        exact ⟨hnode, by simp [Cluster.stampPut, Server.stamp], by simp [Cluster.stampPut],
          by simp [Cluster.stampPut], by simp [Cluster.stampPut]⟩
  | localPut put =>
      obtain ⟨op, hop, hprogress, _, _, rfl⟩ := Cluster.step_localPut hnext
      have hold := hsound.puts op (List.mem_of_getElem? hop)
      refine hset put _ ⟨hold.coordinator_mem, hold.stamped, ?_, ?_, ?_⟩
      · -- applied or rejected, the coordinator now holds nothing older
        intro progress _
        exact Stores.holds_write_self _ _ _ _
      · intro progress hstarted
        obtain rfl := Option.some.inj hstarted
        rfl
      · intro progress hstarted
        obtain rfl := Option.some.inj hstarted
        have hnodes : cluster.config.nodes.Nodup := cluster.ports_distinct.of_map
        exact FanOut.Sound.start (ClusterConfig.peersExcluding_nodup hnodes _) _
  | handleReplicate put peer =>
      obtain ⟨op, hop, progress, hprogress, _, fan, hfan, rfl⟩ :=
        Cluster.step_handleReplicate hnext
      have hold := hgrown op (List.mem_of_getElem? hop)
      -- the peer holds the write before its answer is on its way
      refine hset put _ (hold.withFanOut hprogress (FanOut.deliver_contacted hfan) ?_)
      exact (hold.calls progress hprogress).deliver (Stores.holds_write_self _ _ _ _) hfan
  | finishReplicate put peer failure =>
      obtain ⟨op, hop, progress, hprogress, fan, hfan, rfl⟩ := Cluster.step_finishReplicate hnext
      have hold := hgrown op (List.mem_of_getElem? hop)
      exact hset put _ (hold.withFanOut hprogress (FanOut.finish_contacted hfan)
        ((hold.calls progress hprogress).finish ackOf_error hfan))
  | wakePut put signal =>
      obtain ⟨op, hop, progress, hprogress, fan, hfan, rfl⟩ := Cluster.step_wakePut hnext
      have hold := hgrown op (List.mem_of_getElem? hop)
      exact hset put _ (hold.withFanOut hprogress (FanOut.wake_contacted hfan)
        ((hold.calls progress hprogress).wake hfan))
  | get node key r sample =>
      rcases Cluster.step_get hnext with rfl | ⟨_, _, _, _, rfl⟩
      · exact hgrown
      · exact hgrown
  | handleRead get peer =>
      obtain ⟨_, _, _, _, _, _, rfl⟩ := Cluster.step_handleRead hnext
      exact hgrown
  | finishRead get peer failure =>
      obtain ⟨_, _, _, _, rfl⟩ := Cluster.step_finishRead hnext
      exact hgrown
  | wakeGet get signal =>
      obtain ⟨_, _, _, _, rfl⟩ := Cluster.step_wakeGet hnext
      exact hgrown
  | delete node key => exact hkeeps.elim

theorem State.Sound.step (hsound : state.Sound cluster) {action : Action V}
    (hkeeps : action.KeepsKeys) (hnext : cluster.step state action = some next) :
    next.Sound cluster where
  puts := hsound.puts_step hkeeps hnext
  stored _ _ _ hentry := hsound.stored_step hnext hentry

/-- The invariant holds at the end of every run without deletes. -/
theorem State.Sound.run {actions : List (Action V)} {state final : State V}
    (hsound : state.Sound cluster) (hkeeps : ∀ action ∈ actions, action.KeepsKeys)
    (hrun : Runs.run cluster.step state actions = some final) : final.Sound cluster :=
  Runs.run_invariant (State.Sound cluster)
    (fun _ _ _ hkeep hstate hnext => hstate.step hkeep hnext) hkeeps hsound hrun

theorem holds_of_run {actions : List (Action V)} {state final : State V}
    (hkeeps : ∀ action ∈ actions, action.KeepsKeys)
    (hrun : Runs.run cluster.step state actions = some final) {node : Node} {key : String}
    {version : VersionedValue V} (hholds : (state.stores node).Holds key version) :
    (final.stores node).Holds key version :=
  Runs.run_invariant (fun state : State V => (state.stores node).Holds key version)
    (fun _ _ _ hkeep hstate hnext => holds_of_step hkeep hnext hstate) hkeeps hholds hrun

end KvReplication.Leaderless
