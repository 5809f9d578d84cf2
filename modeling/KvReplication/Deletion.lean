import KvReplication.LeaderFollower.Convergence
import KvReplication.Leaderless.Writes

/-! # Deletions and late deliveries

A delete removes the entry and leaves nothing behind, so a write that reaches the
node afterwards finds an empty register, whenever it was stamped. What a node holds
after a delete is exactly accounted for by the local writes and replicate calls it
has handled since.
-/

namespace KvReplication

namespace LeaderFollower

variable {V : Type} {cluster : Cluster}

/-- Among `actions`, the node at `site` handles the local write or a replicate call
of the write `op` with number `put`. -/
def HandledAt (cluster : Cluster) (actions : List (Action V)) (site : Site) (put : Nat)
    (op : PutOp V) : Prop :=
  (.localPut put ∈ actions ∧ op.site = site) ∨
    ∃ entry follower, .handleReplicate put entry ∈ actions ∧
      cluster.config.followers[entry]? = some follower ∧ site = .follower follower

theorem WritesAt.handledAt {state : State V} {action : Action V} {site : Site} {op : PutOp V}
    (hwrites : WritesAt cluster state action site op) (history : List (Action V)) :
    ∃ put, state.puts[put]? = some op ∧ HandledAt cluster (history ++ [action]) site put op := by
  cases hwrites with
  | localPut hop hprogress => exact ⟨_, hop, Or.inl ⟨by simp, rfl⟩⟩
  | handleReplicate hop hprogress hfollower =>
      exact ⟨_, hop, Or.inr ⟨_, _, by simp, hfollower, rfl⟩⟩

theorem HandledAt.append {actions : List (Action V)} {site : Site} {put : Nat}
    {op later : PutOp V} (hhandled : HandledAt cluster actions site put op)
    (hsame : op.SameWrite later) (more : List (Action V)) :
    HandledAt cluster (actions ++ more) site put later := by
  rcases hhandled with ⟨hlocal, hsite⟩ | ⟨entry, follower, hcall, hfollower, hsite⟩
  · exact Or.inl ⟨List.mem_append_left _ hlocal, hsame.site_eq.trans hsite⟩
  · exact Or.inr ⟨entry, follower, List.mem_append_left _ hcall, hfollower, hsite⟩

/-- What a node without an entry for a key holds there later was handled in between. -/
theorem handledAt_of_run {state final : State V} {site : Site} {key : String}
    (hempty : (state.stores site).get key = none) {actions : List (Action V)}
    (hrun : Runs.run cluster.step state actions = some final) {version : VersionedValue V}
    (hversion : (final.stores site).get key = some version) :
    ∃ put op, final.puts[put]? = some op ∧ op.key = key ∧ op.version = version ∧
      HandledAt cluster actions site put op := by
  refine Runs.run_history_invariant
    (fun history current => ∀ version, (current.stores site).get key = some version →
      ∃ put op, current.puts[put]? = some op ∧ op.key = key ∧ op.version = version ∧
        HandledAt cluster history site put op) ?_ ?_ hrun version hversion
  · intro history current action next hcurrent hnext version hstored
    have hchange := cluster.change_of_step hnext
    rcases stored_of_change hchange hstored with hold | ⟨op, hwrites, rfl, rfl⟩
    · obtain ⟨put, op, hop, rfl, rfl, hhandled⟩ := hcurrent version hold
      obtain ⟨later, hlater, hsame⟩ := put_of_change hchange hop
      exact ⟨put, later, hlater, hsame.key_eq, hsame.version_eq, hhandled.append hsame [action]⟩
    · -- this action brought the version in
      obtain ⟨put, hop, hhandled⟩ := hwrites.handledAt history
      obtain ⟨later, hlater, hsame⟩ := put_of_change hchange hop
      refine ⟨put, later, hlater, hsame.key_eq, hsame.version_eq, ?_⟩
      simpa using hhandled.append hsame []
  · intro version hstored
    rw [hempty] at hstored
    cases hstored

end LeaderFollower

namespace Leaderless

variable {V : Type} {cluster : Cluster}

/-- Among `actions`, `node` handles the local write or a replicate call of the write
`op` with number `put`. -/
def HandledAt (actions : List (Action V)) (node : Node) (put : Nat) (op : PutOp V) : Prop :=
  (.localPut put ∈ actions ∧ op.coordinator = node) ∨ .handleReplicate put node ∈ actions

theorem WritesAt.handledAt {state : State V} {action : Action V} {node : Node} {op : PutOp V}
    (hwrites : WritesAt state action node op) (history : List (Action V)) :
    ∃ put, state.puts[put]? = some op ∧ HandledAt (history ++ [action]) node put op := by
  cases hwrites with
  | localPut hop hprogress => exact ⟨_, hop, Or.inl ⟨by simp, rfl⟩⟩
  | handleReplicate hop hprogress hpeer => exact ⟨_, hop, Or.inr (by simp)⟩

theorem HandledAt.append {actions : List (Action V)} {node : Node} {put : Nat}
    {op later : PutOp V} (hhandled : HandledAt actions node put op) (hsame : op.SameWrite later)
    (more : List (Action V)) : HandledAt (actions ++ more) node put later := by
  rcases hhandled with ⟨hlocal, hnode⟩ | hcall
  · exact Or.inl ⟨List.mem_append_left _ hlocal, hsame.1.trans hnode⟩
  · exact Or.inr (List.mem_append_left _ hcall)

/-- What a node without an entry for a key holds there later was handled in between. -/
theorem handledAt_of_run {state final : State V} {node : Node} {key : String}
    (hempty : (state.stores node).get key = none) {actions : List (Action V)}
    (hrun : Runs.run cluster.step state actions = some final) {version : VersionedValue V}
    (hversion : (final.stores node).get key = some version) :
    ∃ put op, final.puts[put]? = some op ∧ op.key = key ∧ op.version = version ∧
      HandledAt actions node put op := by
  refine Runs.run_history_invariant
    (fun history current => ∀ version, (current.stores node).get key = some version →
      ∃ put op, current.puts[put]? = some op ∧ op.key = key ∧ op.version = version ∧
        HandledAt history node put op) ?_ ?_ hrun version hversion
  · intro history current action next hcurrent hnext version hstored
    rcases stored_of_step hnext hstored with hold | ⟨op, hwrites, rfl, rfl⟩
    · obtain ⟨put, op, hop, rfl, rfl, hhandled⟩ := hcurrent version hold
      obtain ⟨later, hlater, hsame⟩ := put_of_step hnext hop
      exact ⟨put, later, hlater, hsame.2.1, hsame.2.2.2, hhandled.append hsame [action]⟩
    · -- this action brought the version in
      obtain ⟨put, hop, hhandled⟩ := hwrites.handledAt history
      obtain ⟨later, hlater, hsame⟩ := put_of_step hnext hop
      refine ⟨put, later, hlater, hsame.2.1, hsame.2.2.2, ?_⟩
      simpa using hhandled.append hsame []
  · intro version hstored
    rw [hempty] at hstored
    cases hstored

end Leaderless

/-- In both clusters: right after a delete the node holds nothing under the key, and
a version it holds there in any later state is one whose local write or replicate
call it has handled since the delete. -/
theorem held_after_delete {V : Type} :
    (∀ (cluster : LeaderFollower.Cluster) (state deleted : LeaderFollower.State V) site key,
      cluster.step state (.delete site key) = some deleted →
      (deleted.stores site).get key = none ∧
      ∀ after final version, Runs.run cluster.step deleted after = some final →
        (final.stores site).get key = some version →
        ∃ put op, final.puts[put]? = some op ∧ op.key = key ∧ op.version = version ∧
          LeaderFollower.HandledAt cluster after site put op) ∧
    ∀ (cluster : Leaderless.Cluster) (state deleted : Leaderless.State V) node key,
      cluster.step state (.delete node key) = some deleted →
      (deleted.stores node).get key = none ∧
      ∀ after final version, Runs.run cluster.step deleted after = some final →
        (final.stores node).get key = some version →
        ∃ put op, final.puts[put]? = some op ∧ op.key = key ∧ op.version = version ∧
          Leaderless.HandledAt after node put op := by
  constructor
  · intro cluster state deleted site key hdelete
    have hempty : (deleted.stores site).get key = none := by
      cases cluster.change_of_step hdelete with
      | send permits haction hop hprogress hmoves => exact haction.elim
      | delete hsite => exact Stores.get_remove_self _ _ _
    exact ⟨hempty, fun after final version hrun hversion =>
      LeaderFollower.handledAt_of_run hempty hrun hversion⟩
  · intro cluster state deleted node key hdelete
    have hempty : (deleted.stores node).get key = none := by
      obtain ⟨_, rfl⟩ := Leaderless.Cluster.step_delete hdelete
      exact Stores.get_remove_self _ _ _
    exact ⟨hempty, fun after final version hrun hversion =>
      Leaderless.handledAt_of_run hempty hrun hversion⟩

/-- A follower holds a write of `k` and deletes it while the replicate call of a
later write is on its way. -/
def deleteAtFollower : List (LeaderFollower.Action Nat) :=
  [.stamp .leader "k" ⟨7⟩ 1, .localPut 0, .beginSend 0 0, .acquire 0 0, .handleReplicate 0 0,
    .stamp .leader "k" ⟨8⟩ 2, .localPut 1, .beginSend 1 0, .acquire 1 0]

/-- The same at the second node of a leaderless pair. -/
def deleteAtPeer : List (Leaderless.Action Nat) :=
  [.stamp ⟨"localhost", 8101⟩ "k" none ⟨7⟩ 1, .localPut 0,
    .handleReplicate 0 ⟨"localhost", 8102⟩, .stamp ⟨"localhost", 8101⟩ "k" none ⟨8⟩ 2,
    .localPut 1]

theorem held_after_delete_follower :
    ∃ (state deleted final : LeaderFollower.State Nat),
      Runs.run LeaderFollower.eagerCluster.step LeaderFollower.Cluster.init deleteAtFollower =
        some state ∧
      LeaderFollower.eagerCluster.step state (.delete (.follower ⟨"localhost", 8001⟩) "k") =
        some deleted ∧
      Runs.run LeaderFollower.eagerCluster.step deleted [.handleReplicate 1 0] = some final ∧
      ∃ put op, final.puts[put]? = some op ∧ op.key = "k" ∧
        op.version = ⟨8, .finite 2, "leader"⟩ ∧
        LeaderFollower.HandledAt LeaderFollower.eagerCluster [.handleReplicate 1 0]
          (.follower ⟨"localhost", 8001⟩) put op := by
  have hreached : ∃ (state deleted final : LeaderFollower.State Nat),
      Runs.run LeaderFollower.eagerCluster.step LeaderFollower.Cluster.init deleteAtFollower =
        some state ∧
      LeaderFollower.eagerCluster.step state (.delete (.follower ⟨"localhost", 8001⟩) "k") =
        some deleted ∧
      Runs.run LeaderFollower.eagerCluster.step deleted [.handleReplicate 1 0] = some final ∧
      (final.stores (.follower ⟨"localhost", 8001⟩)).get "k" = some ⟨8, .finite 2, "leader"⟩ :=
    ⟨_, _, _, rfl, rfl, rfl, rfl⟩
  obtain ⟨state, deleted, final, hrun, hdelete, hafter, hversion⟩ := hreached
  exact ⟨state, deleted, final, hrun, hdelete, hafter,
    (held_after_delete.1 _ state deleted _ _ hdelete).2 _ final _ hafter hversion⟩

/-- In either cluster a replicate call handled after the delete brings back a write
that was stamped before it. -/
theorem deletion_undone :
    (∃ (state deleted final : LeaderFollower.State Nat),
      Runs.run LeaderFollower.eagerCluster.step LeaderFollower.Cluster.init deleteAtFollower =
        some state ∧
      (Server.deleteKey (state.stores (.follower ⟨"localhost", 8001⟩)) "k").2 = ⟨true⟩ ∧
      LeaderFollower.eagerCluster.step state (.delete (.follower ⟨"localhost", 8001⟩) "k") =
        some deleted ∧
      Runs.run LeaderFollower.eagerCluster.step deleted [.handleReplicate 1 0] = some final ∧
      ∃ op, deleted.puts[1]? = some op ∧
        (final.stores (.follower ⟨"localhost", 8001⟩)).get "k" = some op.version) ∧
    ∃ (state deleted final : Leaderless.State Nat),
      Runs.run Leaderless.pairCluster.step Leaderless.Cluster.init deleteAtPeer = some state ∧
      (Server.deleteKey (state.stores ⟨"localhost", 8102⟩) "k").2 = ⟨true⟩ ∧
      Leaderless.pairCluster.step state (.delete ⟨"localhost", 8102⟩ "k") = some deleted ∧
      Runs.run Leaderless.pairCluster.step deleted [.handleReplicate 1 ⟨"localhost", 8102⟩] =
        some final ∧
      ∃ op, deleted.puts[1]? = some op ∧
        (final.stores ⟨"localhost", 8102⟩).get "k" = some op.version :=
  ⟨⟨_, _, _, rfl, rfl, rfl, rfl, _, rfl, rfl⟩, ⟨_, _, _, rfl, rfl, rfl, rfl, _, rfl, rfl⟩⟩

end KvReplication
