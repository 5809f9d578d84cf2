import KvReplication.Leaderless.Writes

/-! # Convergence

Once every replicate call has been handled, every node covers every write. A
store holds written versions only, so at each key it holds a newest one, and
there is only one of these when no two writes of a key share a stamp.
-/

namespace KvReplication.Leaderless

open LastWriterWins

variable {V : Type} {cluster : Cluster}

/-- The versions stamped for `key` so far. -/
def State.written (state : State V) (key : String) : List (VersionedValue V) :=
  (state.puts.filter fun op => op.key = key).map PutOp.version

/-- The write has started its replicate calls, and every peer has handled its one
at least once. -/
def PutOp.settled (cluster : Cluster) (op : PutOp V) : Bool :=
  op.progress.any fun progress =>
    (cluster.peers op.coordinator).all fun peer => (progress.fanOut.calls peer).answer.isSome

/-- No replicate call is outstanding. -/
def State.Quiescent (cluster : Cluster) (state : State V) : Prop :=
  ∀ op ∈ state.puts, op.settled cluster = true

instance (state : State V) : Decidable (state.Quiescent cluster) :=
  inferInstanceAs (Decidable (∀ op ∈ state.puts, op.settled cluster = true))

/-- No two writes of one key were stamped with the same timestamp and node id. -/
def State.DistinctStamps (state : State V) : Prop :=
  state.puts.Pairwise fun op other => op.key = other.key → ¬ op.version.SameStamp other.version

instance (state : State V) : Decidable state.DistinctStamps :=
  inferInstanceAs (Decidable (List.Pairwise _ _))

theorem mem_written {state : State V} {key : String} {version : VersionedValue V} :
    version ∈ state.written key ↔ ∃ op ∈ state.puts, op.key = key ∧ op.version = version := by
  simp [State.written, and_assoc]

/-- In a quiescent state every node covers every write. -/
theorem holds_of_quiescent {state : State V} (hsound : state.Sound cluster)
    (hquiescent : state.Quiescent cluster) {node : Node} (hnode : node ∈ cluster.config.nodes)
    {op : PutOp V} (hop : op ∈ state.puts) : (state.stores node).Holds op.key op.version := by
  obtain ⟨progress, hprogress, hhandled⟩ := (Option.any_eq_true _ _).mp (hquiescent op hop)
  have hput := hsound.puts op hop
  by_cases hself : node = op.coordinator
  · rw [hself]
    exact hput.local_held progress hprogress
  · -- another node of the cluster has another port, so it is a peer
    have hpeer : node ∈ cluster.peers op.coordinator := by
      refine ClusterConfig.mem_peersExcluding.mpr ⟨hnode, fun hport => hself ?_⟩
      exact List.inj_on_of_nodup_map cluster.ports_distinct hnode hput.coordinator_mem hport
    obtain ⟨answer, hanswer⟩ :=
      Option.isSome_iff_exists.mp (List.all_eq_true.mp hhandled node hpeer)
    exact (hput.calls progress hprogress).answered node answer hanswer

/-- What a node holds at a key in a quiescent state is a newest write of that key. -/
theorem register_of_quiescent {state : State V} (hsound : state.Sound cluster)
    (hquiescent : state.Quiescent cluster) {node : Node} (hnode : node ∈ cluster.config.nodes)
    (key : String) :
    (∀ version, (state.stores node).get key = some version → version ∈ state.written key) ∧
      ∀ version ∈ state.written key,
        Covers VersionedValue.Newer ((state.stores node).get key) version := by
  constructor
  · intro version hversion
    exact mem_written.mpr (hsound.stored node key version hversion)
  · intro version hversion
    obtain ⟨op, hop, rfl, rfl⟩ := mem_written.mp hversion
    exact holds_of_quiescent hsound hquiescent hnode hop

/-- With distinct stamps a newest write is newer than every other one. -/
theorem newer_of_isNewest {state : State V} (hsound : state.Sound cluster)
    (hdistinct : state.DistinctStamps) {key : String} {newest other : VersionedValue V}
    (hnewest : IsNewest VersionedValue.Newer (state.written key) newest)
    (hother : other ∈ state.written key) : other = newest ∨ newest.Newer other := by
  obtain ⟨op, hop, hkey, rfl⟩ := mem_written.mp hnewest.1
  obtain ⟨late, hlate, hlateKey, rfl⟩ := mem_written.mp hother
  rcases VersionedValue.newer_or_sameStamp_or_newer (hsound.puts op hop).stamped
    (hsound.puts late hlate).stamped with habove | hsame | hbelow
  · exact Or.inr habove
  · -- two writes would share their stamp, so these are one write
    apply Or.inl
    by_contra hne
    have hsymm : Std.Symm fun op other : PutOp V =>
        op.key = other.key → ¬ op.version.SameStamp other.version :=
      ⟨fun _ _ hstamps hkeys hother => hstamps hkeys.symm hother.symm⟩
    have hdiffer : op ≠ late := fun heq => hne (by rw [heq])
    exact hdistinct.forall hop hlate hdiffer (hkey.trans hlateKey.symm) hsame
  · exact absurd hbelow (hnewest.2 _ hother)

/-- In every state without outstanding replicate calls that a run without deletes
reaches, all nodes hold the same store, and at each key that is the one write
newer than all others of the key. -/
theorem convergence (cluster : Cluster) {actions : List (Action V)} {final : State V}
    (hkeeps : ∀ action ∈ actions, action.KeepsKeys)
    (hrun : Runs.run cluster.step Cluster.init actions = some final)
    (hdistinct : final.DistinctStamps) (hquiescent : final.Quiescent cluster) :
    (∀ node ∈ cluster.config.nodes, ∀ other ∈ cluster.config.nodes,
      final.stores node = final.stores other) ∧
    ∀ node ∈ cluster.config.nodes, ∀ key,
      ((final.stores node).get key = none ∧ final.written key = []) ∨
      ∃ newest ∈ final.written key, (final.stores node).get key = some newest ∧
        ∀ version ∈ final.written key, version = newest ∨ newest.Newer version := by
  have hsound := State.Sound.init.run hkeeps hrun
  constructor
  · intro node hnode other hother
    apply KVStore.ext_get
    intro key
    obtain ⟨hmem, hcovers⟩ := register_of_quiescent hsound hquiescent hnode key
    obtain ⟨hotherMem, hotherCovers⟩ := register_of_quiescent hsound hquiescent hother key
    refine eq_of_covers VersionedValue.Newer ?_ hmem hcovers hotherMem hotherCovers
    intro first second hfirst hsecond
    rcases newer_of_isNewest hsound hdistinct hfirst hsecond.1 with heq | hnewer
    · exact heq.symm
    · exact absurd hnewer (hsecond.2 first hfirst.1)
  · intro node hnode key
    obtain ⟨hmem, hcovers⟩ := register_of_quiescent hsound hquiescent hnode key
    rcases isNewest_of_covers VersionedValue.Newer hmem hcovers with hnone | ⟨newest, hget, hnewest⟩
    · exact Or.inl hnone
    · exact Or.inr ⟨newest, hnewest.1, hget,
        fun version hversion => newer_of_isNewest hsound hdistinct hnewest hversion⟩

/-- Writes at both nodes with one clock reading, whose calls cross. -/
def crossingWrites : List (Action Nat) :=
  [.stamp ⟨"localhost", 8101⟩ "k" none ⟨7⟩ 1, .stamp ⟨"localhost", 8102⟩ "k" none ⟨8⟩ 1,
    .localPut 0, .localPut 1, .handleReplicate 0 ⟨"localhost", 8102⟩,
    .handleReplicate 1 ⟨"localhost", 8101⟩]

theorem convergence_crossing :
    ∃ final : State Nat, Runs.run pairCluster.step Cluster.init crossingWrites = some final ∧
      final.stores ⟨"localhost", 8101⟩ = final.stores ⟨"localhost", 8102⟩ := by
  have hkeeps : ∀ action ∈ crossingWrites, action.KeepsKeys := by
    simp [crossingWrites, Action.KeepsKeys]
  exact ⟨_, rfl, (convergence pairCluster hkeeps rfl (by decide) (by decide)).1 _ (by decide) _
    (by decide)⟩

end KvReplication.Leaderless
