import KvReplication.Leaderless.MonotoneReads

/-! # Nodes that restart

A node keeps its store in memory, so a process that takes the place of another one starts
with an empty store, and the requests the former one coordinated end with it. What it sent to
its peers before may still arrive. A write that was answered 200 is lost with the nodes that
hold it: each of them that restarts costs a read one more node to wait for.
-/

namespace KvReplication.Leaderless

open LastWriterWins WaitLoop

variable {V : Type}

/-- The cluster, and for every node the numbers of the first write and the first read that
its running process can have accepted. -/
structure Processes (V : Type) where
  state : State V
  firstPut : Node → Nat
  firstGet : Node → Nat

inductive ProcessEvent (V : Type) where
  | action (action : Action V)
  /-- A new process takes the place of the node's. -/
  | restart (node : Node)

namespace Processes

def init : Processes V := ⟨Cluster.init, fun _ => 0, fun _ => 0⟩

/-- The process that goes on with a request is the one that accepted it. -/
def Running (processes : Processes V) : Action V → Prop
  | .localPut put | .finishReplicate put _ _ | .wakePut put _ =>
      ∀ op ∈ processes.state.puts[put]?, processes.firstPut op.coordinator ≤ put
  | .finishRead get _ _ | .wakeGet get _ =>
      ∀ op ∈ processes.state.gets[get]?, processes.firstGet op.coordinator ≤ get
  | _ => True

instance (processes : Processes V) : DecidablePred processes.Running := fun action => by
  cases action <;> unfold Running <;> infer_instance

/-- One action of a running process, or a restart. -/
def step (cluster : Cluster) (processes : Processes V) :
    ProcessEvent V → Option (Processes V)
  | .action action => do
      guard (processes.Running action)
      let state ← cluster.step processes.state action
      return { processes with state := state }
  | .restart node => do
      guard (node ∈ cluster.config.nodes)
      let state := processes.state
      return {
        state := { state with stores := Function.update state.stores node KVStore.init }
        firstPut := Function.update processes.firstPut node state.puts.length
        firstGet := Function.update processes.firstGet node state.gets.length }

variable {cluster : Cluster} {processes next : Processes V}

theorem step_action {action : Action V}
    (hnext : step cluster processes (.action action) = some next) :
    processes.Running action ∧ ∃ state, cluster.step processes.state action = some state ∧
      next = { processes with state := state } := by
  simp only [step, Option.bind_eq_bind, Option.bind_eq_some_iff, Option.guard_eq_some',
    Option.pure_def, Option.some.injEq, exists_const] at hnext
  obtain ⟨hrunning, state, hstate, rfl⟩ := hnext
  exact ⟨hrunning, state, hstate, rfl⟩

theorem step_restart {node : Node} (hnext : step cluster processes (.restart node) = some next) :
    node ∈ cluster.config.nodes ∧ next.state = { processes.state with
      stores := Function.update processes.state.stores node KVStore.init } := by
  simp only [step, Option.bind_eq_bind, Option.bind_eq_some_iff, Option.guard_eq_some',
    Option.pure_def, Option.some.injEq, exists_const] at hnext
  obtain ⟨hnode, rfl⟩ := hnext
  exact ⟨hnode, rfl⟩

end Processes

/-- No key is removed. -/
def ProcessEvent.KeepsKeys : ProcessEvent V → Prop
  | .action taken => taken.KeepsKeys
  | .restart _ => True

/-- Moreover, no node outside `lost` restarts. -/
def ProcessEvent.LosesOnly (lost : Finset Node) : ProcessEvent V → Prop
  | .action taken => taken.KeepsKeys
  | .restart node => node ∈ lost

section Invariants

variable {cluster : Cluster} {processes next : Processes V} {lost : Finset Node}

/-- No version, written or stored, carries a NaN. -/
structure State.RealStamps (state : State V) : Prop where
  puts : ∀ op ∈ state.puts, op.version.timestamp ≠ .nan
  stored : ∀ node key entry, (state.stores node).get key = some entry → entry.timestamp ≠ .nan

theorem State.RealStamps.step {state after : State V} (hstamped : state.RealStamps) {action : Action V}
    (hafter : cluster.step state action = some after) : after.RealStamps := by
  constructor
  · intro op hop
    rcases (putsEffect_of_step hafter).origin hop with ⟨old, hold, _, _, _, hversion⟩ |
      ⟨node, key, wRequired, body, now, rfl⟩
    · rw [hversion]
      exact hstamped.puts old hold
    · simp [Cluster.stampPut, Server.stamp]
  · intro node key entry hentry
    rcases stored_of_step hafter hentry with hold | ⟨op, hwrites, _, rfl⟩
    · exact hstamped.stored node key entry hold
    · exact hstamped.puts op hwrites.mem

/-- An empty store holds nothing that is not stamped. -/
theorem State.RealStamps.restart {state : State V} (hstamped : state.RealStamps) (node : Node) :
    State.RealStamps { state with stores := Function.update state.stores node KVStore.init } := by
  refine ⟨hstamped.puts, ?_⟩
  intro other key entry hentry
  by_cases heq : other = node
  · subst heq
    simp at hentry
  · exact hstamped.stored other key entry (by simpa [heq] using hentry)

theorem State.RealStamps.of_step {event : ProcessEvent V} (hstamped : processes.state.RealStamps)
    (hnext : processes.step cluster event = some next) : next.state.RealStamps := by
  cases event with
  | action action =>
      obtain ⟨_, state, hstate, rfl⟩ := Processes.step_action hnext
      exact hstamped.step hstate
  | restart node =>
      rw [(Processes.step_restart hnext).2]
      exact hstamped.restart node

theorem State.RealStamps.run {events : List (ProcessEvent V)}
    (hrun : Runs.run (Processes.step cluster) Processes.init events = some processes) :
    processes.state.RealStamps := by
  have hinit : (Processes.init : Processes V).state.RealStamps := by
    constructor
    · intro op hop
      cases hop
    · intro node key entry hentry
      simp [Processes.init, Cluster.init] at hentry
  exact @Runs.run_invariant _ _ _ (fun _ => True)
    (fun processes : Processes V => processes.state.RealStamps)
    (fun _ _ _ _ hstamped hnext => hstamped.of_step hnext) _ _ _ (fun _ _ => trivial) hinit hrun

/-- Without deletes a node that is not lost keeps what it holds. -/
theorem holds_of_event {event : ProcessEvent V} (hlost : event.LosesOnly lost)
    (hnext : processes.step cluster event = some next) {node : Node} (hnode : node ∉ lost)
    {key : String} {version : VersionedValue V}
    (hholds : (processes.state.stores node).Holds key version) :
    (next.state.stores node).Holds key version := by
  cases event with
  | action action =>
      obtain ⟨_, state, hstate, rfl⟩ := Processes.step_action hnext
      exact holds_of_step hlost hstate hholds
  | restart other =>
      have hne : node ≠ other := fun heq => hnode (heq ▸ hlost)
      rw [(Processes.step_restart hnext).2]
      simpa [hne] using hholds

/-- The stores, where the nodes of `lost` are taken to hold the write. -/
def PutOp.storesBeside (op : PutOp V) (lost : Finset Node) (stores : Node → KVStore V) :
    Node → KVStore V :=
  fun node => if node ∈ lost then
    (KVStore.init.put op.key op.version.value op.version.timestamp op.version.nodeId).1
  else stores node

theorem PutOp.holds_storesBeside_of_mem (op : PutOp V) (stores : Node → KVStore V) {node : Node}
    (hnode : node ∈ lost) : (op.storesBeside lost stores node).Holds op.key op.version := by
  rw [storesBeside, if_pos hnode]
  have hheld := Stores.holds_write_self (fun _ : Node => KVStore.init) node op.key op.version
  simpa [Stores.write] using hheld

theorem PutOp.storesBeside_of_not_mem (op : PutOp V) (stores : Node → KVStore V) {node : Node}
    (hnode : node ∉ lost) : op.storesBeside lost stores node = stores node := if_neg hnode

/-- The writes accepted from number `first` on are held where they were acked, but for the
nodes of `lost`. -/
def WritesKept (cluster : Cluster) (lost : Finset Node) (first : Nat) (state : State V) : Prop :=
  ∀ put op, first ≤ put → state.puts[put]? = some op →
    op.Sound cluster (op.storesBeside lost state.stores)

theorem WritesKept.start (state : State V) : WritesKept cluster lost state.puts.length state := by
  intro put op hput hop
  rw [List.getElem?_eq_none hput] at hop
  cases hop

theorem WritesKept.step {first : Nat} (hkept : WritesKept cluster lost first processes.state)
    {event : ProcessEvent V} (hlost : event.LosesOnly lost)
    (hnext : processes.step cluster event = some next) :
    WritesKept cluster lost first next.state := by
  have hgrown : ∀ (op : PutOp V) node key version,
      (op.storesBeside lost processes.state.stores node).Holds key version →
      (op.storesBeside lost next.state.stores node).Holds key version := by
    intro op node key version hholds
    by_cases hnode : node ∈ lost
    · simpa only [PutOp.storesBeside, if_pos hnode] using hholds
    · rw [op.storesBeside_of_not_mem _ hnode] at hholds ⊢
      exact holds_of_event hlost hnext hnode hholds
  cases event with
  | action action =>
      obtain ⟨_, state, hstate, rfl⟩ := Processes.step_action hnext
      apply (putsEffect_of_step hstate).sound hgrown ?_ ?_ hkept
      · rintro op later ⟨_, hkey, _, hversion⟩
        funext node
        simp only [PutOp.storesBeside, hkey, hversion]
      · intro op node hholds
        by_cases hnode : node ∈ lost
        · exact op.holds_storesBeside_of_mem _ hnode
        · rw [op.storesBeside_of_not_mem _ hnode]
          exact hholds
  | restart node =>
      intro put op hput hop
      rw [(Processes.step_restart hnext).2] at hop
      exact (hkept put op hput hop).mono (hgrown op)

/-- A write answered 200 is held by as many nodes as its `w` says, less those lost. -/
theorem WritesKept.quorum {first : Nat} (hkept : WritesKept cluster lost first processes.state)
    {put : Nat} {op : PutOp V} (hput : first ≤ put) (hop : processes.state.puts[put]? = some op)
    {response : PutResponse} (hanswer : op.answer cluster.config = some (.ok (.ok response))) :
    ∃ holders : Finset Node, holders ⊆ cluster.config.nodes.toFinset ∧
      op.wRequired ≤ holders.card + lost.card ∧ Disjoint holders lost ∧
      ∀ node ∈ holders, (processes.state.stores node).Holds op.key op.version := by
  obtain ⟨acked, hnodes, hw, hheld⟩ := (hkept put op hput hop).quorum hanswer
  have hcard := Finset.le_card_sdiff lost acked
  refine ⟨acked \ lost, Finset.Subset.trans Finset.sdiff_subset hnodes, by omega,
    Finset.sdiff_disjoint, ?_⟩
  intro node hnode
  obtain ⟨hacked, hnot⟩ := Finset.mem_sdiff.mp hnode
  have hholds := hheld node hacked
  rwa [op.storesBeside_of_not_mem _ hnot] at hholds

/-- Nodes that are not lost hold `version`, and the reads of `key` from number `first` on see
fresh entries only. -/
structure ReadsKept (cluster : Cluster) (holders : Finset Node) (version : VersionedValue V)
    (key : String) (first : Nat) (state : State V) : Prop where
  stamped : state.RealStamps
  held : ∀ node ∈ holders, (state.stores node).Holds key version
  reads : ∀ get read, first ≤ get → state.gets[get]? = some read → read.key = key →
    read.Sound cluster (Fresh holders version)

theorem ReadsKept.step {holders : Finset Node} {version : VersionedValue V} {key : String}
    (hadmitted : Admitted key) (hsafe : UrlSafe key) (hdisjoint : Disjoint holders lost)
    {first : Nat} (hkept : ReadsKept cluster holders version key first processes.state)
    {event : ProcessEvent V} (hlost : event.LosesOnly lost)
    (hnext : processes.step cluster event = some next) :
    ReadsKept cluster holders version key first next.state where
  stamped := hkept.stamped.of_step hnext
  held node hnode := holds_of_event hlost hnext (Finset.disjoint_left.mp hdisjoint hnode)
    (hkept.held node hnode)
  reads := by
    have hstored : ∀ node, Fresh holders version node ((processes.state.stores node).get key) :=
      fun node => ⟨hkept.held node, hkept.stamped.stored node key⟩
    cases event with
    | action action =>
        obtain ⟨_, state, hstate, rfl⟩ := Processes.step_action hnext
        exact (getsEffect_of_step hstate).sound hadmitted hsafe hstored hkept.reads
    | restart node =>
        rw [(Processes.step_restart hnext).2]
        exact hkept.reads

end Invariants

end KvReplication.Leaderless
