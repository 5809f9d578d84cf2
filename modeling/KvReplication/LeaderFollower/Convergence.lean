import KvReplication.LeaderFollower.Writes

/-! # Convergence under any clock

Once every replicate call has been handled, the leader and every follower cover
every write of the leader. All its versions carry one node id, so writes with the
same clock reading are not ordered, and whichever comes first stays. The stores
agree when, at each key, the writes with the greatest reading carry one value.
-/

namespace KvReplication.LeaderFollower

open LastWriterWins

variable {V : Type} {cluster : Cluster}

/-- Client writes go to the leader, and nothing is deleted. -/
def Action.OnLeader : Action V → Prop
  | .stamp site _ _ _ => site = .leader
  | .delete _ _ => False
  | _ => True

theorem Action.OnLeader.keepsKeys {action : Action V} (hleader : action.OnLeader) :
    action.KeepsKeys := by
  cases action with
  | delete site key => exact hleader.elim
  | _ => trivial

/-- The write has started its sends, and every follower entry has handled its one. -/
def PutOp.settled (cluster : Cluster) (op : PutOp V) : Bool :=
  op.progress.any fun progress =>
    (cluster.entries op.site).all fun entry => (progress.replication.sends entry).answer.isSome

/-- No replicate call is outstanding. -/
def State.Quiescent (cluster : Cluster) (state : State V) : Prop :=
  ∀ op ∈ state.puts, op.settled cluster = true

instance (state : State V) : Decidable (state.Quiescent cluster) :=
  inferInstanceAs (Decidable (∀ op ∈ state.puts, op.settled cluster = true))

/-- Among the writes of one key, those with the greatest clock reading carry one
value. -/
def State.TopValuesAgree (state : State V) : Prop :=
  ∀ op ∈ state.puts, ∀ other ∈ state.puts, op.key = other.key →
    op.version.timestamp = other.version.timestamp →
    (∀ third ∈ state.puts, third.key = op.key →
      third.version.timestamp.gt op.version.timestamp = false) →
    op.version.value = other.version.value

instance [DecidableEq V] (state : State V) : Decidable state.TopValuesAgree :=
  inferInstanceAs (Decidable (∀ op ∈ state.puts, ∀ other ∈ state.puts, _ → _ → _ → _))

/-- The versions stamped for `key` so far. -/
def State.written (state : State V) (key : String) : List (VersionedValue V) :=
  (state.puts.filter fun op => op.key = key).map PutOp.version

theorem mem_written {state : State V} {key : String} {version : VersionedValue V} :
    version ∈ state.written key ↔ ∃ op ∈ state.puts, op.key = key ∧ op.version = version := by
  simp [State.written, and_assoc]

/-- The leader's store holds writes that the leader reported as applied. -/
def State.LeaderApplied (state : State V) : Prop :=
  ∀ key entry, (state.stores .leader).get key = some entry →
    ∃ op ∈ state.puts, op.key = key ∧ op.version = entry ∧
      ∃ progress, op.progress = some progress ∧ progress.localApplied = true

/-- An applied write stays one. -/
theorem applied_of_change {state next : State V} {action : Action V}
    (hchange : cluster.Change state action next) {op : PutOp V} (hop : op ∈ state.puts)
    {progress : PutProgress} (hprogress : op.progress = some progress)
    (happlied : progress.localApplied = true) :
    ∃ later ∈ next.puts, later.key = op.key ∧ later.version = op.version ∧
      ∃ progress, later.progress = some progress ∧ progress.localApplied = true := by
  obtain ⟨put, hput⟩ := List.getElem?_of_mem hop
  obtain ⟨later, hlater, hsame⟩ := put_of_change hchange hput
  obtain ⟨laterProgress, hlaterProgress, heq⟩ := hsame.applied_eq progress hprogress
  exact ⟨later, List.mem_of_getElem? hlater, hsame.key_eq, hsame.version_eq, laterProgress,
    hlaterProgress, heq.trans happlied⟩

theorem State.LeaderApplied.step {state next : State V} (hstate : state.LeaderApplied)
    {action : Action V} (hnext : cluster.step state action = some next) :
    next.LeaderApplied := by
  have hchange := cluster.change_of_step hnext
  intro key entry hentry
  have hkept : (state.stores .leader).get key = some entry →
      ∃ op ∈ next.puts, op.key = key ∧ op.version = entry ∧
        ∃ progress, op.progress = some progress ∧ progress.localApplied = true := by
    intro hold
    obtain ⟨op, hop, rfl, rfl, progress, hprogress, happlied⟩ := hstate key entry hold
    exact applied_of_change hchange hop hprogress happlied
  rcases stored_of_change hchange hentry with hold | ⟨op, hwrites, rfl, rfl⟩
  · exact hkept hold
  · obtain ⟨put, rfl, hput⟩ := hwrites.leader
    cases hchange with
    | @localPut _ written localApplied hwritten hfresh happlied =>
        obtain rfl := Option.some.inj (hput.symm.trans hwritten)
        cases localApplied with
        | true =>
            have hbound := (List.getElem?_eq_some_iff.mp hwritten).1
            exact ⟨_, List.mem_of_getElem? (List.getElem?_set_self hbound), rfl, rfl, _, rfl, rfl⟩
        | false =>
            -- a rejected write leaves the store as it was
            rw [Stores.write_eq_of_rejected happlied] at hentry
            exact hkept hentry
    | send permits haction hop hprogress hmoves => exact haction.elim

theorem State.LeaderApplied.run {actions : List (Action V)} {final : State V}
    (hrun : Runs.run cluster.step Cluster.init actions = some final) : final.LeaderApplied := by
  have hinit : (Cluster.init : State V).LeaderApplied := by
    intro key entry hentry
    simp [Cluster.init] at hentry
  exact Runs.run_invariant State.LeaderApplied
    (fun _ _ _ (_ : True) hstate hnext => hstate.step hnext) (fun _ _ => trivial) hinit hrun

/-- Every write of a run is the leader's. -/
theorem leaderWrites_run {actions : List (Action V)} {final : State V}
    (hleader : ∀ action ∈ actions, action.OnLeader)
    (hrun : Runs.run cluster.step Cluster.init actions = some final) :
    ∀ op ∈ final.puts, op.site = .leader := by
  apply Runs.run_invariant (fun state : State V => ∀ op ∈ state.puts, op.site = .leader) ?_
    hleader (by simp [Cluster.init]) hrun
  intro state action next honLeader hstate hnext
  have hset : ∀ (put : Nat) (old changed : PutOp V), state.puts[put]? = some old →
      changed.site = old.site → ∀ op ∈ state.puts.set put changed, op.site = .leader := by
    intro put old changed hold hsite
    exact Records.forall_mem_set hstate put (hsite.trans (hstate old (List.mem_of_getElem? hold)))
  cases cluster.change_of_step hnext with
  | stamp hsite =>
      exact Records.forall_mem_concat hstate honLeader
  | localPut hop hprogress happlied => exact hset _ _ _ hop rfl
  | handleReplicate hop hprogress hfollower hsend => exact hset _ _ _ hop rfl
  | send permits haction hop hprogress hmoves => exact hset _ _ _ hop rfl
  | wake hop hprogress hwake => exact hset _ _ _ hop rfl
  | shutdown => exact hstate
  | delete hsite => exact hstate

/-- In a quiescent state the leader and every follower cover every write. -/
theorem holds_of_quiescent {state : State V} (hsound : state.Sound cluster)
    (hsites : ∀ op ∈ state.puts, op.site = .leader) (hquiescent : state.Quiescent cluster)
    {site : Site} (hsite : cluster.HasSite site) {op : PutOp V} (hop : op ∈ state.puts) :
    (state.stores site).Holds op.key op.version := by
  obtain ⟨progress, hprogress, hhandled⟩ := (Option.any_eq_true _ _).mp (hquiescent op hop)
  have hput := hsound.puts op hop
  rw [hsites op hop] at hhandled
  cases site with
  | leader =>
      have hheld := hput.local_held progress hprogress
      rwa [hsites op hop] at hheld
  | follower address =>
      obtain ⟨entry, hentry⟩ := List.getElem?_of_mem hsite
      have hrange : entry ∈ cluster.entries .leader :=
        List.mem_range.mpr (List.getElem?_eq_some_iff.mp hentry).1
      obtain ⟨response, hresponse⟩ :=
        Option.isSome_iff_exists.mp (List.all_eq_true.mp hhandled entry hrange)
      obtain ⟨follower, hfollower, hheld⟩ :=
        (hput.sends progress hprogress).answered entry response hresponse
      obtain rfl := Option.some.inj (hfollower.symm.trans hentry)
      exact hheld

/-- What a node holds at a key in a quiescent state is a newest write of that key. -/
theorem register_of_quiescent {state : State V} (hsound : state.Sound cluster)
    (hsites : ∀ op ∈ state.puts, op.site = .leader) (hquiescent : state.Quiescent cluster)
    {site : Site} (hsite : cluster.HasSite site) (key : String) :
    (∀ version, (state.stores site).get key = some version → version ∈ state.written key) ∧
      ∀ version ∈ state.written key,
        Covers VersionedValue.Newer ((state.stores site).get key) version := by
  constructor
  · intro version hversion
    exact mem_written.mpr (hsound.stored site key version hversion)
  · intro version hversion
    obtain ⟨op, hop, rfl, rfl⟩ := mem_written.mp hversion
    exact holds_of_quiescent hsound hsites hquiescent hsite hop

/-- If the writes with the greatest reading carry one value, there is one newest
version. -/
theorem isNewest_unique {state : State V} (hsound : state.Sound cluster)
    (hsites : ∀ op ∈ state.puts, op.site = .leader) (hagree : state.TopValuesAgree)
    {key : String} {first second : VersionedValue V}
    (hfirst : IsNewest VersionedValue.Newer (state.written key) first)
    (hsecond : IsNewest VersionedValue.Newer (state.written key) second) : first = second := by
  obtain ⟨op, hop, rfl, rfl⟩ := mem_written.mp hfirst.1
  obtain ⟨other, hother, hkey, rfl⟩ := mem_written.mp hsecond.1
  -- one leader stamps all versions, so no node id separates two of them
  have hnode : op.version.nodeId = other.version.nodeId := by
    rw [(hsound.puts op hop).stamped_id, (hsound.puts other hother).stamped_id, hsites op hop,
      hsites other hother]
  have htime : op.version.timestamp = other.version.timestamp := by
    rcases VersionedValue.newer_or_sameStamp_or_newer (hsound.puts op hop).stamped
      (hsound.puts other hother).stamped with habove | hsame | hbelow
    · exact absurd habove (hsecond.2 _ hfirst.1)
    · exact hsame.1
    · exact absurd hbelow (hfirst.2 _ hsecond.1)
  have hvalue : op.version.value = other.version.value := by
    apply hagree op hop other hother hkey.symm htime
    intro third hthird hthirdKey
    have hnot := hfirst.2 _ (mem_written.mpr ⟨third, hthird, hthirdKey, rfl⟩)
    rw [VersionedValue.newer_iff, not_or] at hnot
    exact Bool.not_eq_true _ ▸ hnot.1
  exact VersionedValue.ext hvalue htime hnode

/-- In every state without outstanding replicate calls that a run of leader writes
reaches, if at each key the writes with the greatest reading carry one value, every
follower holds the leader's store, and serves writes reported as applied only. -/
theorem convergence_of_topValuesAgree (cluster : Cluster) {actions : List (Action V)}
    {final : State V} (hleader : ∀ action ∈ actions, action.OnLeader)
    (hrun : Runs.run cluster.step Cluster.init actions = some final)
    (hquiescent : final.Quiescent cluster) (hagree : final.TopValuesAgree) :
    ∀ follower ∈ cluster.config.followers,
      final.stores (.follower follower) = final.stores .leader ∧
      ∀ key entry, (final.stores (.follower follower)).get key = some entry →
        ∃ op ∈ final.puts, op.key = key ∧ op.version = entry ∧
          ∃ progress, op.progress = some progress ∧ progress.localApplied = true := by
  have hsound := State.Sound.init.run (fun action hmem => (hleader action hmem).keepsKeys) hrun
  have hsites := leaderWrites_run hleader hrun
  intro follower hfollower
  have hequal : final.stores (.follower follower) = final.stores .leader := by
    apply KVStore.ext_get
    intro key
    obtain ⟨hmem, hcovers⟩ :=
      register_of_quiescent hsound hsites hquiescent (show cluster.HasSite (.follower follower)
        from hfollower) key
    obtain ⟨hleaderMem, hleaderCovers⟩ :=
      register_of_quiescent hsound hsites hquiescent (show cluster.HasSite .leader from trivial) key
    exact eq_of_covers VersionedValue.Newer
      (fun _ _ hfirst hsecond => isNewest_unique hsound hsites hagree hfirst hsecond)
      hmem hcovers hleaderMem hleaderCovers
  refine ⟨hequal, fun key entry hentry => ?_⟩
  rw [hequal] at hentry
  exact State.LeaderApplied.run hrun key entry hentry

/-- A leader with one follower that it does not wait for. -/
def eagerCluster : Cluster where
  config := ⟨[⟨"localhost", 8001⟩], 0, .finite 2⟩
  nodeId := "leader"
  followerId _ := "follower-1"
  ackRequired_nonneg := by decide
  ackRequired_le := by decide

/-- Two writes with one clock reading, whose replicate calls overtake each other. -/
def tiedWrites (first second : Nat) : List (Action Nat) :=
  [.stamp .leader "k" ⟨first⟩ 1, .localPut 0, .stamp .leader "k" ⟨second⟩ 1, .localPut 1,
    .beginSend 0 0, .beginSend 1 0, .acquire 0 0, .acquire 1 0, .handleReplicate 1 0,
    .handleReplicate 0 0]

theorem tiedWrites_onLeader (first second : Nat) :
    ∀ action ∈ tiedWrites first second, action.OnLeader := by
  simp [tiedWrites, Action.OnLeader]

theorem convergence_of_topValuesAgree_tied :
    ∃ final : State Nat, Runs.run eagerCluster.step Cluster.init (tiedWrites 7 7) = some final ∧
      final.stores (.follower ⟨"localhost", 8001⟩) = final.stores .leader := by
  refine ⟨_, rfl, ?_⟩
  exact (convergence_of_topValuesAgree eagerCluster (tiedWrites_onLeader 7 7) rfl (by decide)
    (by decide) _ (by decide)).1

/-- Two writes of different values with one clock reading: every call is handled
once, the leader keeps the first, and the follower serves the second, which the
leader reported as not applied. -/
theorem tied_writes_diverge :
    ∃ final : State Nat, Runs.run eagerCluster.step Cluster.init (tiedWrites 7 8) = some final ∧
      (∀ action ∈ tiedWrites 7 8, action.OnLeader) ∧ final.Quiescent eagerCluster ∧
      final.stores (.follower ⟨"localhost", 8001⟩) ≠ final.stores .leader ∧
      ∃ op, final.puts[1]? = some op ∧
        (final.stores (.follower ⟨"localhost", 8001⟩)).get "k" = some op.version ∧
        eagerCluster.answer op = some (.ok (.ok ⟨false, .finite 1⟩)) := by
  refine ⟨_, rfl, tiedWrites_onLeader 7 8, by decide, ?_, _, rfl, rfl, rfl⟩
  intro hequal
  have hget := congrArg (fun store : KVStore Nat => (store.get "k").map VersionedValue.value) hequal
  revert hget
  decide

end KvReplication.LeaderFollower
