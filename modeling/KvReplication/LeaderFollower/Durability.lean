import KvReplication.LeaderFollower.Writes

/-! # Durability of acknowledged writes

The sends a 200 answer counted were to different follower entries, and each was
handled by its follower. What these followers and the leader hold of the write
lasts in every later state.
-/

namespace KvReplication.LeaderFollower

variable {V : Type} {cluster : Cluster}

/-- A leader's write is answered 200 exactly when enough acks were counted. -/
theorem putAnswer_eq_ok_iff {config : ClusterConfig} {ackRequired : Int} {localApplied : Bool}
    {timestamp : PyFloat} {acked : Nat} {response : PutResponse} :
    putAnswer config ackRequired localApplied timestamp acked = .ok response ↔
      ackRequired ≤ acked ∧ response = ⟨localApplied, timestamp⟩ := by
  unfold putAnswer
  split
  · next hshort => simp [hshort]
  · next hquorum => simp [not_lt.mp hquorum, eq_comm]

/-- A 200 echoes the timestamp the write was stamped with. -/
theorem timestamp_of_answer {op : PutOp V} {response : PutResponse}
    (hanswer : cluster.answer op = some (.ok (.ok response))) :
    response.timestamp = op.version.timestamp := by
  simp only [Cluster.answer, Option.bind_eq_bind, Option.bind_eq_some_iff, Option.pure_def,
    Option.some.injEq] at hanswer
  obtain ⟨progress, _, outcome, _, hanswer⟩ := hanswer
  cases outcome with
  | error error => cases hanswer
  | ok acked =>
      obtain ⟨_, rfl⟩ := putAnswer_eq_ok_iff.mp (Except.ok.inj hanswer)
      rfl

/-- An answered write is held by its node and by the followers whose acks counted. -/
theorem ack_quorum {state : State V} (hsound : state.Sound cluster) {op : PutOp V}
    (hop : op ∈ state.puts) {response : PutResponse}
    (hanswer : cluster.answer op = some (.ok (.ok response))) :
    (state.stores op.site).Holds op.key op.version ∧ ∃ counted : List Nat, counted.Nodup ∧
      counted ⊆ cluster.entries op.site ∧ cluster.ackRequired op.site ≤ counted.length ∧
      ∀ entry ∈ counted, EntryHolds cluster state.stores op.key op.version entry := by
  have hput := hsound.puts op hop
  simp only [Cluster.answer, Option.bind_eq_bind, Option.bind_eq_some_iff, Option.pure_def,
    Option.some.injEq] at hanswer
  obtain ⟨progress, hprogress, outcome, hexit, hanswer⟩ := hanswer
  cases outcome with
  | error error => simp [Except.map] at hanswer
  | ok acked =>
      have hquorum := (putAnswer_eq_ok_iff.mp (Except.ok.inj hanswer)).1
      obtain ⟨counted, hnodup, hsubset, rfl, hseen⟩ :=
        (hput.sends progress hprogress).returned hexit
      rw [hput.entries progress hprogress] at hsubset
      exact ⟨hput.local_held progress hprogress, counted, hnodup, hsubset, hquorum, hseen⟩

/-- Different entries, as many as there are, are all of them. -/
theorem mem_of_length_le {counted : List Nat} {total : Nat} (hnodup : counted.Nodup)
    (hsubset : counted ⊆ List.range total) (hlength : total ≤ counted.length) {entry : Nat}
    (hentry : entry < total) : entry ∈ counted := by
  have hsubperm : counted.Subperm (List.range total) := List.subperm_of_subset hnodup hsubset
  have hperm : counted.Perm (List.range total) :=
    hsubperm.perm_of_length_le (by simpa using hlength)
  exact hperm.mem_iff.mpr (List.mem_range.mpr hentry)

/-- Where all followers had to ack, they all hold what the leader answered 200. -/
theorem all_followers_hold {state : State V} (hsound : state.Sound cluster)
    (hall : cluster.config.ackRequired = cluster.config.followers.length) {op : PutOp V}
    (hop : op ∈ state.puts) (hleader : op.site = .leader) {response : PutResponse}
    (hanswer : cluster.answer op = some (.ok (.ok response))) :
    ∀ follower ∈ cluster.config.followers,
      (state.stores (.follower follower)).Holds op.key op.version := by
  obtain ⟨_, counted, hnodup, hsubset, hquorum, hheld⟩ := ack_quorum hsound hop hanswer
  rw [hleader] at hsubset hquorum
  -- as many acks as followers came from all of them
  have hcount : cluster.config.followers.length ≤ counted.length := by
    have hrequired : (cluster.config.followers.length : Int) ≤ counted.length := hall ▸ hquorum
    exact_mod_cast hrequired
  intro follower hfollower
  obtain ⟨entry, hentry⟩ := List.getElem?_of_mem hfollower
  have hmem := mem_of_length_le hnodup hsubset hcount (List.getElem?_eq_some_iff.mp hentry).1
  obtain ⟨other, hother, hholds⟩ := hheld entry hmem
  obtain rfl := Option.some.inj (hother.symm.trans hentry)
  exact hholds

/-- A write the leader answered 200 is held, in every later state, by the leader and
by the same `ack_required` follower entries or more; where all followers had to ack,
a read at any of them is answered 200 with a version the write is not newer than. -/
theorem acknowledged_write_durable (cluster : Cluster) {before : List (Action V)}
    {answered : State V} (hbefore : ∀ action ∈ before, action.KeepsKeys)
    (hrun : Runs.run cluster.step Cluster.init before = some answered) (put : Nat) {op : PutOp V}
    (hop : answered.puts[put]? = some op) (hleader : op.site = .leader) {response : PutResponse}
    (hanswer : cluster.answer op = some (.ok (.ok response))) :
    ∃ entries : Finset Nat, (∀ entry ∈ entries, entry < cluster.config.followers.length) ∧
      cluster.config.ackRequired ≤ entries.card ∧
      ∀ (after : List (Action V)) (final : State V), (∀ action ∈ after, action.KeepsKeys) →
        Runs.run cluster.step answered after = some final →
        (final.stores .leader).Holds op.key op.version ∧
        (∀ entry ∈ entries, EntryHolds cluster final.stores op.key op.version entry) ∧
        (cluster.config.ackRequired = cluster.config.followers.length →
          ∀ follower ∈ cluster.config.followers, ∃ response,
            Server.getKey (final.stores (.follower follower)) op.key = .ok response ∧
              ¬ op.version.Newer response.version) := by
  have hsound := State.Sound.init.run hbefore hrun
  obtain ⟨hlocal, counted, hnodup, hsubset, hquorum, hheld⟩ :=
    ack_quorum hsound (List.mem_of_getElem? hop) hanswer
  rw [hleader] at hlocal hsubset hquorum
  refine ⟨counted.toFinset, ?_, ?_, ?_⟩
  · intro entry hentry
    exact List.mem_range.mp (hsubset (List.mem_toFinset.mp hentry))
  · rw [List.toFinset_card_of_nodup hnodup]
    exact hquorum
  · intro after final hafter hrest
    have hlasting : ∀ entry ∈ counted, EntryHolds cluster final.stores op.key op.version entry := by
      intro entry hentry
      obtain ⟨follower, hfollower, hholds⟩ := hheld entry hentry
      exact ⟨follower, hfollower, holds_of_run hafter hrest hholds⟩
    refine ⟨holds_of_run hafter hrest hlocal,
      fun entry hentry => hlasting entry (List.mem_toFinset.mp hentry), ?_⟩
    intro hall follower hfollower
    have hholds := all_followers_hold hsound hall (List.mem_of_getElem? hop) hleader hanswer
      follower hfollower
    exact Server.getKey_of_holds (holds_of_run hafter hrest hholds)

/-- A leader that waits for the ack of its one follower. -/
def soloCluster : Cluster where
  config := ⟨[⟨"localhost", 8001⟩], 1, .finite 2⟩
  nodeId := "leader"
  followerId _ := "follower-1"
  ackRequired_nonneg := by decide
  ackRequired_le := by decide

/-- One acknowledged write. -/
def soloWrite : List (Action Nat) :=
  [.stamp .leader "k" ⟨7⟩ 1, .localPut 0, .beginSend 0 0, .acquire 0 0, .handleReplicate 0 0,
    .finishSend 0 0 none, .wake 0 (.done [0])]

theorem acknowledged_write_durable_solo :
    ∃ (answered : State Nat) (op : PutOp Nat),
      Runs.run soloCluster.step Cluster.init soloWrite = some answered ∧
      answered.puts[0]? = some op ∧
      soloCluster.answer op = some (.ok (.ok ⟨true, .finite 1⟩)) ∧
      ∀ (after : List (Action Nat)) (final : State Nat), (∀ action ∈ after, action.KeepsKeys) →
        Runs.run soloCluster.step answered after = some final →
        ∃ response, Server.getKey (final.stores (.follower ⟨"localhost", 8001⟩)) op.key =
          .ok response ∧ ¬ op.version.Newer response.version := by
  have hkeeps : ∀ action ∈ soloWrite, action.KeepsKeys := by simp [soloWrite, Action.KeepsKeys]
  refine ⟨_, _, rfl, rfl, rfl, fun after final hafter hrest => ?_⟩
  obtain ⟨_, _, _, hlasting⟩ := acknowledged_write_durable soloCluster hkeeps rfl 0 rfl rfl rfl
  exact (hlasting after final hafter hrest).2.2 (by decide) _ (by decide)

end KvReplication.LeaderFollower
