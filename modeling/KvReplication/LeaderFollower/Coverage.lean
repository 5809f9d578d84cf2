import KvReplication.LeaderFollower.Durability

/-! # Which followers an answered write may have missed

The acks of a write come from different entries of the config, and several entries may name
one follower. If `ack_required` entries fit beside those of a follower, some write is answered
by them alone; if they do not, every answered write has reached the follower.
-/

namespace KvReplication.LeaderFollower

open WaitLoop LastWriterWins

namespace ClusterConfig

variable {config : ClusterConfig}

/-- The entries that name other followers. -/
def entriesBeside (config : ClusterConfig) (follower : Follower) : List Nat :=
  (List.range config.followers.length).filter fun entry =>
    config.followers[entry]? ≠ some follower

/-- No `ack_required` entries fit beside those of any one follower. -/
def Covers (config : ClusterConfig) : Prop :=
  ∀ follower ∈ config.followers,
    (config.followers.countP (· ≠ follower) : Int) < config.ackRequired

instance (config : ClusterConfig) : Decidable config.Covers :=
  inferInstanceAs (Decidable (∀ follower ∈ config.followers, _))

theorem length_entriesBeside (config : ClusterConfig) (follower : Follower) :
    (config.entriesBeside follower).length = config.followers.countP (· ≠ follower) := by
  have hentries : (List.range config.followers.length).map (config.followers[·]?) =
      config.followers.map some := by
    apply List.ext_getElem?
    intro entry
    by_cases hwithin : entry < config.followers.length
    · simp [hwithin]
    · simp [hwithin]
  rw [entriesBeside, ← List.countP_eq_length_filter]
  have hcount := congrArg (List.countP (· ≠ some follower)) hentries
  rw [List.countP_map, List.countP_map] at hcount
  simpa [Function.comp_def] using hcount

theorem mem_entriesBeside {follower : Follower} {entry : Nat} :
    entry ∈ config.entriesBeside follower ↔
      entry ∈ List.range config.followers.length ∧ config.followers[entry]? ≠ some follower := by
  simp [entriesBeside]

/-- As many entries as have to ack, if they fit beside those of the follower. -/
theorem exists_acking (hnonneg : 0 ≤ config.ackRequired) {follower : Follower}
    (hfit : config.ackRequired ≤ config.followers.countP (· ≠ follower)) :
    ∃ acking : List Nat, acking.Nodup ∧ acking ⊆ List.range config.followers.length ∧
      (acking.length : Int) = config.ackRequired ∧
      ∀ entry ∈ acking, config.followers[entry]? ≠ some follower := by
  have hbeside := List.take_subset config.ackRequired.toNat (config.entriesBeside follower)
  refine ⟨(config.entriesBeside follower).take config.ackRequired.toNat, ?_, ?_, ?_, ?_⟩
  · exact (List.nodup_range.filter _).sublist (List.take_sublist _ _)
  · exact fun entry hentry => (mem_entriesBeside.mp (hbeside hentry)).1
  · rw [List.length_take, length_entriesBeside]
    omega
  · exact fun entry hentry => (mem_entriesBeside.mp (hbeside hentry)).2

/-- Where all followers have to ack, none can be missed. -/
theorem covers_of_full (hfull : config.ackRequired = config.followers.length) :
    config.Covers := by
  intro follower hfollower
  have hless : config.followers.countP (· ≠ follower) < config.followers.length := by
    apply lt_of_le_of_ne List.countP_le_length
    intro hall
    exact absurd rfl (of_decide_eq_true (List.countP_eq_length.mp hall follower hfollower))
  omega

/-- Followers that are all different are covered only if all of them have to ack. -/
theorem covers_iff_full (hnodup : config.followers.Nodup)
    (hwithin : config.ackRequired ≤ config.followers.length) (hsome : config.followers ≠ []) :
    config.Covers ↔ config.ackRequired = config.followers.length := by
  constructor
  · intro hcovers
    obtain ⟨follower, hfollower⟩ := List.exists_mem_of_ne_nil _ hsome
    have hless := hcovers follower hfollower
    have hsplit := List.length_eq_countP_add_countP (· ≠ follower) (l := config.followers)
    have hone : config.followers.countP (fun other => ¬ (other ≠ follower)) = 1 := by
      have hcount := List.count_eq_one_of_mem hnodup hfollower
      rw [List.count] at hcount
      rw [← hcount]
      apply List.countP_congr
      intro other _
      simp
    simp only [decide_eq_true_eq] at hsplit
    omega
  · exact covers_of_full

/-- Enough acks include one from an entry of the follower. -/
theorem Covers.exists_entry (hcovers : config.Covers) {follower : Follower}
    (hfollower : follower ∈ config.followers) {counted : List Nat} (hnodup : counted.Nodup)
    (hsubset : counted ⊆ List.range config.followers.length)
    (hquorum : config.ackRequired ≤ counted.length) :
    ∃ entry ∈ counted, config.followers[entry]? = some follower := by
  by_contra hmissed
  have hbeside : counted ⊆ config.entriesBeside follower := by
    intro entry hentry
    apply mem_entriesBeside.mpr
    exact ⟨hsubset hentry, fun hnamed => hmissed ⟨entry, hentry, hnamed⟩⟩
  have hlength := (List.subperm_of_subset hnodup hbeside).length_le
  rw [length_entriesBeside] at hlength
  have hless := hcovers follower hfollower
  omega

end ClusterConfig

variable {V : Type} {cluster : Cluster}

/-- Where no follower can be missed, they all hold what the leader answered 200. -/
theorem all_followers_hold_of_covers {state : State V} (hsound : state.Sound cluster)
    (hcovers : cluster.config.Covers) {op : PutOp V} (hop : op ∈ state.puts)
    (hleader : op.site = .leader) {response : PutResponse}
    (hanswer : cluster.answer op = some (.ok (.ok response))) :
    ∀ follower ∈ cluster.config.followers,
      (state.stores (.follower follower)).Holds op.key op.version := by
  obtain ⟨_, counted, hnodup, hsubset, hquorum, hheld⟩ := ack_quorum hsound hop hanswer
  rw [hleader] at hsubset hquorum
  intro follower hfollower
  obtain ⟨entry, hentry, hnamed⟩ := hcovers.exists_entry hfollower hnodup hsubset hquorum
  obtain ⟨other, hother, hholds⟩ := hheld entry hentry
  obtain rfl := Option.some.inj (hother.symm.trans hnamed)
  exact hholds

/-! ### A write that reaches chosen entries only -/

/-- The one write of a leader, once it is local. -/
def oneWrite (stores : Site → KVStore V) (op : PutOp V) (localApplied : Bool)
    (replication : Replication) (permits : Nat) : State V :=
  ⟨stores, [{ op with progress := some ⟨localApplied, replication⟩ }], permits, false⟩

/-- The send to one entry goes through at once. -/
def sendThrough (entry : Nat) : List (Action V) :=
  [.beginSend 0 entry, .acquire 0 entry, .handleReplicate 0 entry, .finishSend 0 entry none]

theorem run_sendThrough (stores : Site → KVStore V) (op : PutOp V) (localApplied : Bool)
    {replication : Replication} (permits : Nat) {entry : Nat} {follower : Follower}
    (hentry : entry ∈ replication.entries)
    (hcreated : replication.sends entry = ⟨.created, false, none⟩)
    (hfollower : cluster.config.followers[entry]? = some follower) :
    ∃ send : Send, send.stage = .finished (.ok true) ∧
      Runs.run cluster.step (oneWrite stores op localApplied replication (permits + 1))
        (sendThrough entry) =
        some (oneWrite (Stores.write stores (.follower follower) op.key op.version) op localApplied
          (replication.setSend entry send) (permits + 1)) := by
  let response := (Server.replicate (stores (.follower follower)) (payload op.key op.version)).2
  let moved := fun (send : Send) (stores : Site → KVStore V) (permits : Nat) =>
    oneWrite stores op localApplied (replication.setSend entry send) permits
  let queued : Send := ⟨.queued, false, none⟩
  let posting : Send := ⟨.posting, true, none⟩
  let answered : Send := ⟨.posting, true, some response⟩
  let finished : Send := ⟨.finished (.ok true), true, some response⟩
  have hsend : ∀ send, (replication.setSend entry send).sends entry = send :=
    fun send => Function.update_self _ _ _
  have hagain : ∀ first second, (replication.setSend entry first).setSend entry second =
      replication.setSend entry second := by
    intro first second
    simp [Replication.setSend]
  have hmem : ∀ send, entry ∈ (replication.setSend entry send).entries := fun _ => hentry
  refine ⟨finished, rfl, ?_⟩
  refine (Runs.run_cons_eq_some _).mpr ⟨moved queued stores (permits + 1), ?_,
    (Runs.run_cons_eq_some _).mpr ⟨moved posting stores permits, ?_,
      (Runs.run_cons_eq_some _).mpr ⟨moved answered
        (Stores.write stores (.follower follower) op.key op.version) permits, ?_,
        (Runs.run_cons_eq_some _).mpr ⟨moved finished
          (Stores.write stores (.follower follower) op.key op.version) (permits + 1), ?_, rfl⟩⟩⟩⟩
  · simp [Cluster.step, Cluster.moveSend, oneWrite, hentry, hcreated, Send.begin, moved, queued,
      PutOp.withReplication, guard]
  · simp [Cluster.step, Cluster.moveSend, oneWrite, hmem, hsend, hagain, Send.post, moved, queued,
      posting, PutOp.withReplication, guard]
  · simp [Cluster.step, Cluster.moveSend, oneWrite, hmem, hsend, hagain, Send.handled, moved,
      posting, answered, PutOp.withReplication, guard, hfollower, response, Stores.write]
    rfl
  · have houtcome : sendOutcome (replyOf (.ok response)) = .ok true := rfl
    simp [Cluster.step, Cluster.moveSend, oneWrite, hmem, hsend, hagain, Send.finish, moved,
      answered, finished, PutOp.withReplication, guard, houtcome]

/-- The sends to `acking` go through one after the other; no other follower's store changes. -/
theorem run_sendsThrough {acking : List Nat} (hnodup : acking.Nodup) (op : PutOp V)
    (localApplied : Bool) (permits : Nat) {replication : Replication}
    (hentries : replication.entries = List.range cluster.config.followers.length)
    (hsubset : acking ⊆ replication.entries)
    (hcreated : ∀ entry ∈ acking, replication.sends entry = ⟨.created, false, none⟩)
    (stores : Site → KVStore V) :
    ∃ (later : Site → KVStore V) (sends : Nat → Send),
      Runs.run cluster.step (oneWrite stores op localApplied replication (permits + 1))
        (acking.flatMap sendThrough) =
        some (oneWrite later op localApplied { replication with sends := sends } (permits + 1)) ∧
      (∀ entry ∈ acking, (sends entry).stage = .finished (.ok true)) ∧
      (∀ entry ∉ acking, sends entry = replication.sends entry) ∧
      ∀ follower, (∀ entry ∈ acking, cluster.config.followers[entry]? ≠ some follower) →
        later (.follower follower) = stores (.follower follower) := by
  induction acking generalizing replication stores with
  | nil => exact ⟨stores, replication.sends, rfl, by simp, by simp, fun _ _ => rfl⟩
  | cons entry rest ih =>
      obtain ⟨hfresh, hrest⟩ := List.nodup_cons.mp hnodup
      have hentry := hsubset List.mem_cons_self
      obtain ⟨follower, hfollower⟩ : ∃ follower, cluster.config.followers[entry]? =
          some follower := by
        rw [hentries, List.mem_range] at hentry
        exact ⟨_, List.getElem?_eq_getElem hentry⟩
      obtain ⟨send, hstage, hsend⟩ := run_sendThrough stores op localApplied permits hentry
        (hcreated entry List.mem_cons_self) hfollower
      have hself : (replication.setSend entry send).sends entry = send :=
        Function.update_self _ _ _
      have hothers : ∀ other ≠ entry,
          (replication.setSend entry send).sends other = replication.sends other :=
        fun other hne => Function.update_of_ne hne _ _
      obtain ⟨later, sends, hrun, hacked, hkept, hstores⟩ := @ih hrest
        (replication.setSend entry send) hentries
        (fun other hother => hsubset (List.mem_cons_of_mem _ hother))
        (fun other hother => by
          rw [hothers other (fun heq => hfresh (heq ▸ hother))]
          exact hcreated other (List.mem_cons_of_mem _ hother))
        (Stores.write stores (.follower follower) op.key op.version)
      refine ⟨later, sends, ?_, ?_, ?_, ?_⟩
      · rw [List.flatMap_cons]
        exact (Runs.run_append_eq_some _).mpr ⟨_, hsend, hrun⟩
      · intro other hother
        rcases List.mem_cons.mp hother with rfl | hlater
        · rw [hkept other hfresh, hself, hstage]
        · exact hacked other hlater
      · intro other hother
        rw [hkept other fun hlater => hother (List.mem_cons_of_mem _ hlater)]
        exact hothers other fun heq => hother (heq ▸ List.mem_cons_self)
      · intro other hother
        rw [hstores other fun later hlater => hother later (List.mem_cons_of_mem _ hlater)]
        apply Function.update_of_ne
        intro heq
        obtain rfl := Site.follower.inj heq
        exact hother entry List.mem_cons_self hfollower

theorem sumDone_of_acked (acking : List Nat) :
    Replicate.sumDone (acking.map fun entry => (entry, .ok true)) = .ok acking.length := by
  induction acking with
  | nil => rfl
  | cons entry rest ih =>
      rw [List.map_cons, Replicate.sumDone, ih]
      simp [Except.map, Nat.add_comm]

/-- The loop counts enough acks at once and returns them. -/
theorem wake_of_acked {acking : List Nat} (hsome : acking ≠ []) (hnodup : acking.Nodup)
    {ackRequired : Int} (hlength : (acking.length : Int) = ackRequired)
    {replication : Replication} (hsubset : acking ⊆ replication.entries)
    (hloop : replication.loop = Replicate.start replication.entries ackRequired)
    (hacked : ∀ entry ∈ acking, (replication.sends entry).stage = .finished (.ok true)) :
    ∃ next : Replication, replication.wake ackRequired (.done acking) = some next ∧
      next.loop.exit = some (.ok acking.length) := by
  have hpositive : 0 < acking.length := List.length_pos_iff.mpr hsome
  have hnonempty : replication.entries ≠ [] := by
    intro hnil
    rw [hnil] at hsubset
    exact hsome (List.subset_nil.mp hsubset)
  have hstart : replication.loop = ⟨replication.entries, 0, [], none⟩ := by
    rw [hloop, Replicate.start, Replicate.check, if_neg]
    simp only [List.isEmpty_iff, hnonempty, Nat.cast_zero, false_or, not_le]
    omega
  have hresults : WaitLoop.results replication.result acking =
      some (acking.map fun entry => (entry, Except.ok true)) :=
    results_of_forall fun entry hentry => Replication.result_eq_some.mpr (hacked entry hentry)
  let finished : List (Nat × Except PyError Bool) := acking.map fun entry => (entry, .ok true)
  let loop : Replicate := ⟨replication.entries.filter (· ∉ finished.map Prod.fst),
    acking.length, [], none⟩
  refine ⟨{ replication with loop := loop.leave }, ?_, rfl⟩
  apply Replication.wake_eq_some.mpr
  refine ⟨.done finished, ?_, loop.leave, ?_, rfl⟩
  · rw [Signal.event, hresults]
    rfl
  · apply Replicate.step_eq_some.mpr
    have hnames : finished.map Prod.fst = acking := by simp [finished, Function.comp_def]
    refine ⟨by rw [hstart], ⟨by simpa [finished] using hsome, hnames ▸ hnodup, ?_⟩, ?_⟩
    · intro entry hentry
      obtain ⟨name, hname, rfl⟩ := List.mem_map.mp hentry
      rw [hstart]
      exact hsubset hname
    · rw [hstart]
      simp only [Replicate.wake, finished, sumDone_of_acked, Replicate.check]
      rw [if_pos (Or.inr (by simp [hlength]))]
      simp [loop, finished]

/-- Every send that goes through keeps the keys. -/
theorem keepsKeys_sendsThrough (acking : List Nat) :
    ∀ action ∈ (acking.flatMap sendThrough : List (Action V)), action.KeepsKeys := by
  intro action haction
  obtain ⟨entry, _, hsend⟩ := List.mem_flatMap.mp haction
  simp only [sendThrough, List.mem_cons, List.not_mem_nil, or_false] at hsend
  rcases hsend with rfl | rfl | rfl | rfl <;> trivial

/-- The leader answers its first write 200 as soon as `acking` have acked, and no other
follower has heard of it. -/
theorem exists_answered {acking : List Nat} (hnodup : acking.Nodup)
    (hsubset : acking ⊆ List.range cluster.config.followers.length)
    (hlength : (acking.length : Int) = cluster.config.ackRequired) (key : String)
    (body : PutRequest V) (now : ℚ) :
    ∃ (actions : List (Action V)) (answered : State V) (op : PutOp V),
      (∀ action ∈ actions, action.KeepsKeys) ∧
      Runs.run cluster.step { (Cluster.init : State V) with
        puts := [⟨.leader, key, Server.stamp cluster.nodeId body (.finite now), none⟩] } actions =
        some answered ∧
      answered.puts[0]? = some op ∧ cluster.answer op = some (.ok (.ok ⟨true, .finite now⟩)) ∧
      ∀ follower, (∀ entry ∈ acking, cluster.config.followers[entry]? ≠ some follower) →
        answered.stores (.follower follower) = KVStore.init := by
  let stamped : PutOp V := ⟨.leader, key, Server.stamp cluster.nodeId body (.finite now), none⟩
  let entries := List.range cluster.config.followers.length
  let replication := Replication.start entries cluster.config.ackRequired
  let stores : Site → KVStore V := Stores.write (fun _ => KVStore.init) .leader key stamped.version
  let written : State V := oneWrite stores stamped true replication maxConcurrentReplicateCalls
  have happlied : (KVStore.put (KVStore.init : KVStore V) key stamped.version.value
      stamped.version.timestamp stamped.version.nodeId).2 = true := by
    apply (KVStore.put_applied_iff KVStore.init key stamped.version).mpr
    intro current hcurrent
    cases hcurrent
  have hlocal : cluster.step { (Cluster.init : State V) with puts := [stamped] } (.localPut 0) =
      some written := by
    simp only [Cluster.step, Cluster.init, List.getElem?_cons_zero, Option.bind_eq_bind,
      Option.bind_some, guard, stamped, Server.putKey, happlied]
    rfl
  obtain ⟨later, sends, hrun, hacked, _, hstores⟩ :=
    @run_sendsThrough V cluster acking hnodup stamped true 255 replication rfl hsubset
      (fun _ _ => rfl) stores
  have hmissed : ∀ follower, (∀ entry ∈ acking,
      cluster.config.followers[entry]? ≠ some follower) →
      later (.follower follower) = KVStore.init := by
    intro follower hnot
    rw [hstores follower hnot]
    exact Function.update_of_ne (by simp) _ _
  let sent : Replication := { replication with sends := sends }
  have hsent : Runs.run cluster.step { (Cluster.init : State V) with puts := [stamped] }
      (.localPut 0 :: acking.flatMap sendThrough) =
      some (oneWrite later stamped true sent maxConcurrentReplicateCalls) :=
    (Runs.run_cons_eq_some _).mpr ⟨written, hlocal, hrun⟩
  have hkeeps : ∀ action ∈ (.localPut 0 :: acking.flatMap sendThrough : List (Action V)),
      action.KeepsKeys := by
    intro action haction
    rcases List.mem_cons.mp haction with rfl | hsend
    · trivial
    · exact keepsKeys_sendsThrough acking action hsend
  have hanswer : ∀ done : Replication, done.loop.exit = some (.ok acking.length) →
      cluster.answer { stamped with progress := some ⟨true, done⟩ } =
        some (.ok (.ok ⟨true, .finite now⟩)) := by
    intro done hexit
    have hquorum : putAnswer cluster.config (cluster.ackRequired .leader) true (.finite now)
        acking.length = .ok ⟨true, .finite now⟩ :=
      putAnswer_eq_ok_iff.mpr ⟨le_of_eq hlength.symm, rfl⟩
    simp only [Cluster.answer, Option.bind_eq_bind, Option.bind_some, hexit]
    exact congrArg (fun answer => some (Except.ok answer)) hquorum
  by_cases hnone : acking = []
  · -- without acks to wait for the loop has ended before it began
    subst hnone
    refine ⟨_, _, _, hkeeps, hsent, rfl, hanswer sent ?_, hmissed⟩
    change (Replicate.start entries cluster.config.ackRequired).exit = _
    rw [Replicate.start, Replicate.check, if_pos (Or.inr (by simp [← hlength]))]
    rfl
  · obtain ⟨done, hwake, hexit⟩ := @wake_of_acked acking hnone hnodup _ hlength sent hsubset rfl
      hacked
    have hwoken : cluster.step (oneWrite later stamped true sent maxConcurrentReplicateCalls)
        (.wake 0 (.done acking)) =
        some (oneWrite later stamped true done maxConcurrentReplicateCalls) := by
      change Option.bind (sent.wake cluster.config.ackRequired (.done acking)) _ = _
      rw [hwake]
      rfl
    refine ⟨(.localPut 0 :: acking.flatMap sendThrough) ++ [.wake 0 (.done acking)], _, _, ?_,
      (Runs.run_append_eq_some _).mpr ⟨_, hsent, (Runs.run_cons_eq_some _).mpr
        ⟨_, hwoken, rfl⟩⟩, rfl, hanswer done hexit, hmissed⟩
    intro action haction
    rcases List.mem_append.mp haction with hearly | hlast
    · exact hkeeps action hearly
    · rw [List.mem_singleton.mp hlast]
      trivial

end KvReplication.LeaderFollower
