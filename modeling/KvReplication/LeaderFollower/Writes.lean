import KvReplication.Foundation.Records
import KvReplication.LeaderFollower.Cluster

/-! # Where the leader's writes are held

A write is held by its node once it is local, and by every follower that has
handled its replicate call. Without deletes a store never moves below a version
it holds, so both facts last; and everything stored was stamped by some write.
-/

namespace KvReplication.LeaderFollower

open LastWriterWins

variable {V : Type} {cluster : Cluster} {state next : State V}

/-- `action` writes the version of `op` at `site`. -/
inductive WritesAt (cluster : Cluster) (state : State V) : Action V → Site → PutOp V → Prop
  | localPut {put : Nat} {op : PutOp V} (hop : state.puts[put]? = some op)
      (hprogress : op.progress = none) : WritesAt cluster state (.localPut put) op.site op
  | handleReplicate {put entry : Nat} {op : PutOp V} {progress : PutProgress}
      {follower : Follower} (hop : state.puts[put]? = some op)
      (hprogress : op.progress = some progress)
      (hfollower : cluster.config.followers[entry]? = some follower) :
      WritesAt cluster state (.handleReplicate put entry) (.follower follower) op

theorem WritesAt.mem {action : Action V} {site : Site} {op : PutOp V}
    (hwrites : WritesAt cluster state action site op) : op ∈ state.puts := by
  cases hwrites with
  | localPut hop hprogress => exact List.mem_of_getElem? hop
  | handleReplicate hop hprogress hfollower => exact List.mem_of_getElem? hop

/-- Only a local write reaches the leader's store. -/
theorem WritesAt.leader {action : Action V} {op : PutOp V}
    (hwrites : WritesAt cluster state action .leader op) :
    ∃ put, action = .localPut put ∧ state.puts[put]? = some op := by
  generalize hsite : Site.leader = site at hwrites
  cases hwrites with
  | localPut hop hprogress => exact ⟨_, rfl, hop⟩
  | handleReplicate hop hprogress hfollower => cases hsite

/-- What an action does to the stores: nothing, one versioned write at one node,
or one removal. -/
inductive StoreEffect (cluster : Cluster) (state : State V) (action : Action V)
    (stores : Site → KVStore V) : Prop
  | unchanged (heq : stores = state.stores)
  | write {site : Site} {op : PutOp V} (hwrites : WritesAt cluster state action site op)
      (heq : stores = Stores.write state.stores site op.key op.version)
  | remove {site : Site} {key : String} (haction : action = .delete site key)
      (heq : stores = Stores.remove state.stores site key)

theorem storeEffect_of_change {action : Action V} (hchange : cluster.Change state action next) :
    StoreEffect cluster state action next.stores := by
  cases hchange with
  | stamp hsite => exact .unchanged rfl
  | localPut hop hprogress happlied => exact .write (.localPut hop hprogress) rfl
  | handleReplicate hop hprogress hfollower hsend =>
      exact .write (.handleReplicate hop hprogress hfollower) rfl
  | send permits haction hop hprogress hmoves => exact .unchanged rfl
  | wake hop hprogress hwake => exact .unchanged rfl
  | shutdown => exact .unchanged rfl
  | delete hsite => exact .remove rfl rfl

/-- The later record is of the same write: what was stamped stays, and so does what
the local write reported. -/
structure PutOp.SameWrite (op later : PutOp V) : Prop where
  site_eq : later.site = op.site
  key_eq : later.key = op.key
  version_eq : later.version = op.version
  applied_eq : ∀ progress, op.progress = some progress →
    ∃ laterProgress, later.progress = some laterProgress ∧
      laterProgress.localApplied = progress.localApplied

theorem PutOp.SameWrite.refl (op : PutOp V) : op.SameWrite op :=
  ⟨rfl, rfl, rfl, fun progress hprogress => ⟨progress, hprogress, rfl⟩⟩

theorem PutOp.SameWrite.withReplication {op : PutOp V} {progress : PutProgress}
    (hprogress : op.progress = some progress) (replication : Replication) :
    op.SameWrite (op.withReplication progress replication) := by
  refine ⟨rfl, rfl, rfl, fun other hother => ⟨_, rfl, ?_⟩⟩
  obtain rfl := Option.some.inj (hprogress.symm.trans hother)
  rfl

/-- A write stays in its place. -/
theorem put_of_change {action : Action V} (hchange : cluster.Change state action next)
    {put : Nat} {op : PutOp V} (hop : state.puts[put]? = some op) :
    ∃ later, next.puts[put]? = some later ∧ op.SameWrite later := by
  -- an action replaces a write by a later record of the same write
  have hset : ∀ (other : Nat) (old changed : PutOp V), state.puts[other]? = some old →
      old.SameWrite changed → ∃ later, (state.puts.set other changed)[put]? = some later ∧
        op.SameWrite later := fun _ _ _ hold hsame =>
    Records.exists_getElem?_set PutOp.SameWrite hold hsame hop (.refl op)
  cases hchange with
  | stamp hsite =>
      exact Records.exists_getElem?_append PutOp.SameWrite _ hop (.refl op)
  | localPut hold hprogress happlied =>
      refine hset _ _ _ hold ⟨rfl, rfl, rfl, fun progress hstarted => ?_⟩
      -- it had reported nothing before its local write
      rw [hprogress] at hstarted
      cases hstarted
  | handleReplicate hold hprogress hfollower hsend =>
      exact hset _ _ _ hold (.withReplication hprogress _)
  | send permits haction hold hprogress hmoves =>
      exact hset _ _ _ hold (.withReplication hprogress _)
  | wake hold hprogress hwake => exact hset _ _ _ hold (.withReplication hprogress _)
  | shutdown => exact ⟨op, hop, .refl op⟩
  | delete hsite => exact ⟨op, hop, .refl op⟩

/-- Every action except the removal of a key. -/
def Action.KeepsKeys : Action V → Prop
  | .delete _ _ => False
  | _ => True

/-- Without a delete no store moves below what it holds. -/
theorem holds_of_change {action : Action V} (hkeeps : action.KeepsKeys)
    (hchange : cluster.Change state action next) {site : Site} {key : String}
    {version : VersionedValue V} (hholds : (state.stores site).Holds key version) :
    (next.stores site).Holds key version := by
  rcases storeEffect_of_change hchange with heq | ⟨_, heq⟩ | ⟨rfl, _⟩
  · rw [heq]
    exact hholds
  · rw [heq]
    exact Stores.holds_write hholds _ _ _
  · exact hkeeps.elim

/-- The follower at an entry of the config holds the version. -/
def EntryHolds (cluster : Cluster) (stores : Site → KVStore V) (key : String)
    (version : VersionedValue V) (entry : Nat) : Prop :=
  ∃ follower, cluster.config.followers[entry]? = some follower ∧
    (stores (.follower follower)).Holds key version

/-- A write's progress is matched by what the stores hold. -/
structure PutOp.Sound (cluster : Cluster) (stores : Site → KVStore V) (op : PutOp V) : Prop where
  stamped : op.version.timestamp ≠ .nan
  stamped_id : op.version.nodeId = cluster.idOf op.site
  local_held : ∀ progress, op.progress = some progress →
    (stores op.site).Holds op.key op.version
  entries : ∀ progress, op.progress = some progress →
    progress.replication.entries = cluster.entries op.site
  sends : ∀ progress, op.progress = some progress →
    progress.replication.Sound (EntryHolds cluster stores op.key op.version)

theorem PutOp.Sound.mono {stores stores' : Site → KVStore V} {op : PutOp V}
    (hsound : op.Sound cluster stores)
    (hholds : ∀ site key version, (stores site).Holds key version →
      (stores' site).Holds key version) : op.Sound cluster stores' where
  stamped := hsound.stamped
  stamped_id := hsound.stamped_id
  local_held progress hprogress := hholds _ _ _ (hsound.local_held progress hprogress)
  entries := hsound.entries
  sends progress hprogress := by
    apply (hsound.sends progress hprogress).mono
    rintro entry ⟨follower, hfollower, hheld⟩
    exact ⟨follower, hfollower, hholds _ _ _ hheld⟩

/-- A write goes on with `replication` for its sends. -/
theorem PutOp.Sound.withReplication {stores : Site → KVStore V} {op : PutOp V}
    (hsound : op.Sound cluster stores) {progress : PutProgress}
    (hprogress : op.progress = some progress) {replication : Replication}
    (hentries : replication.entries = progress.replication.entries)
    (hsends : replication.Sound (EntryHolds cluster stores op.key op.version)) :
    (op.withReplication progress replication).Sound cluster stores where
  stamped := hsound.stamped
  stamped_id := hsound.stamped_id
  local_held _ _ := hsound.local_held progress hprogress
  entries later hlater := by
    obtain rfl := Option.some.inj hlater
    exact hentries.trans (hsound.entries progress hprogress)
  sends later hlater := by
    obtain rfl := Option.some.inj hlater
    exact hsends

/-- Every write is matched by the stores, and the stores hold written versions only. -/
structure State.Sound (cluster : Cluster) (state : State V) : Prop where
  puts : ∀ op ∈ state.puts, op.Sound cluster state.stores
  stored : ∀ site key entry, (state.stores site).get key = some entry →
    ∃ op ∈ state.puts, op.key = key ∧ op.version = entry

theorem State.Sound.init : (Cluster.init : State V).Sound cluster where
  puts op hop := by simp [Cluster.init] at hop
  stored site key entry hentry := by simp [Cluster.init] at hentry

/-- What is stored after an action was stored before at the same node, or is the
version the action wrote there. -/
theorem stored_of_change {action : Action V} (hchange : cluster.Change state action next)
    {site : Site} {key : String} {entry : VersionedValue V}
    (hentry : (next.stores site).get key = some entry) :
    (state.stores site).get key = some entry ∨
      ∃ op, WritesAt cluster state action site op ∧ op.key = key ∧ op.version = entry := by
  rcases storeEffect_of_change hchange with heq | @⟨writer, op, hwrites, heq⟩ | ⟨_, heq⟩
  · exact Or.inl (heq ▸ hentry)
  · rw [heq] at hentry
    rcases Stores.get_write_cases hentry with hold | ⟨rfl, rfl, rfl⟩
    · exact Or.inl hold
    · exact Or.inr ⟨op, hwrites, rfl, rfl⟩
  · rw [heq] at hentry
    exact Or.inl (Stores.get_of_get_remove hentry)

theorem State.Sound.stored_change (hsound : state.Sound cluster) {action : Action V}
    (hchange : cluster.Change state action next) {site : Site} {key : String}
    {entry : VersionedValue V} (hentry : (next.stores site).get key = some entry) :
    ∃ op ∈ next.puts, op.key = key ∧ op.version = entry := by
  have hbefore : ∃ op ∈ state.puts, op.key = key ∧ op.version = entry := by
    rcases stored_of_change hchange hentry with hold | ⟨op, hwrites, hkey, hversion⟩
    · exact hsound.stored site key entry hold
    · exact ⟨op, hwrites.mem, hkey, hversion⟩
  obtain ⟨op, hop, hkey, hversion⟩ := hbefore
  obtain ⟨put, hput⟩ := List.getElem?_of_mem hop
  obtain ⟨later, hlater, hsame⟩ := put_of_change hchange hput
  exact ⟨later, List.mem_of_getElem? hlater, hsame.key_eq.trans hkey,
    hsame.version_eq.trans hversion⟩

theorem entries_nodup (cluster : Cluster) (site : Site) : (cluster.entries site).Nodup := by
  cases site with
  | leader => exact List.nodup_range
  | follower address => exact List.nodup_nil

/-- The writes under way stay matched by the stores. -/
theorem State.Sound.puts_change (hsound : state.Sound cluster) {action : Action V}
    (hkeeps : action.KeepsKeys) (hchange : cluster.Change state action next) :
    ∀ op ∈ next.puts, op.Sound cluster next.stores := by
  have hgrown : ∀ op ∈ state.puts, op.Sound cluster next.stores := fun op hop =>
    (hsound.puts op hop).mono fun site key version => holds_of_change hkeeps hchange
  have hset : ∀ (put : Nat) (changed : PutOp V), changed.Sound cluster next.stores →
      ∀ op ∈ state.puts.set put changed, op.Sound cluster next.stores :=
    fun put _ hchanged => Records.forall_mem_set hgrown put hchanged
  cases hchange with
  | stamp hsite =>
      refine Records.forall_mem_concat hgrown ?_
      exact ⟨by simp [Server.stamp], rfl, by simp, by simp, by simp⟩
  | @localPut put op localApplied hop hprogress happlied =>
      have hold := hsound.puts op (List.mem_of_getElem? hop)
      refine hset put _ ⟨hold.stamped, hold.stamped_id, ?_, ?_, ?_⟩
      · -- applied or rejected, the node now holds nothing older
        intro progress _
        exact Stores.holds_write_self _ _ _ _
      · intro progress hstarted
        obtain rfl := Option.some.inj hstarted
        rfl
      · intro progress hstarted
        obtain rfl := Option.some.inj hstarted
        exact Replication.Sound.start _ (entries_nodup cluster op.site) _
  | @handleReplicate put entry op progress follower response send hop hprogress hfollower hsend =>
      have hold := hgrown op (List.mem_of_getElem? hop)
      -- the follower holds the write before its answer is on its way
      refine hset put _ (hold.withReplication hprogress rfl ?_)
      exact (hold.sends progress hprogress).handled
        ⟨follower, hfollower, Stores.holds_write_self _ _ _ _⟩ hsend
  | @send action put entry op progress send permits haction hop hprogress hmoves =>
      have hold := hgrown op (List.mem_of_getElem? hop)
      exact hset put _ (hold.withReplication hprogress rfl
        ((hold.sends progress hprogress).moves hmoves))
  | @wake put signal op progress replication hop hprogress hwake =>
      have hold := hgrown op (List.mem_of_getElem? hop)
      have hentries : replication.entries = progress.replication.entries := by
        obtain ⟨_, _, _, _, rfl⟩ := Replication.wake_eq_some.mp hwake
        rfl
      exact hset put _ (hold.withReplication hprogress hentries
        ((hold.sends progress hprogress).wake hwake))
  | shutdown => exact hgrown
  | delete hsite => exact hkeeps.elim

theorem State.Sound.step (hsound : state.Sound cluster) {action : Action V}
    (hkeeps : action.KeepsKeys) (hnext : cluster.step state action = some next) :
    next.Sound cluster where
  puts := hsound.puts_change hkeeps (cluster.change_of_step hnext)
  stored _ _ _ hentry := hsound.stored_change (cluster.change_of_step hnext) hentry

/-- The invariant holds at the end of every run without deletes. -/
theorem State.Sound.run {actions : List (Action V)} {state final : State V}
    (hsound : state.Sound cluster) (hkeeps : ∀ action ∈ actions, action.KeepsKeys)
    (hrun : Runs.run cluster.step state actions = some final) : final.Sound cluster :=
  Runs.run_invariant (State.Sound cluster)
    (fun _ _ _ hkeep hstate hnext => hstate.step hkeep hnext) hkeeps hsound hrun

/-- What a node holds it keeps holding, in every run without deletes. -/
theorem holds_of_run {actions : List (Action V)} {state final : State V}
    (hkeeps : ∀ action ∈ actions, action.KeepsKeys)
    (hrun : Runs.run cluster.step state actions = some final) {site : Site} {key : String}
    {version : VersionedValue V} (hholds : (state.stores site).Holds key version) :
    (final.stores site).Holds key version :=
  Runs.run_invariant (fun state : State V => (state.stores site).Holds key version)
    (fun _ _ _ hkeep hstate hnext => holds_of_change hkeep (cluster.change_of_step hnext) hstate)
    hkeeps hholds hrun

end KvReplication.LeaderFollower
