import KvReplication.Leaderless.Coordinator

/-! # The quorum universe

The handlers bound `w` and `r` by the number of configured entries, and the
coordinator contacts the entries whose port is not its own. Both speak of the
same set of nodes exactly when the entries are distinct and one of them alone
carries the node's own port.
-/

namespace KvReplication.Leaderless

open WaitLoop Gather

/-- The nodes a read contacts are different peers, and enough of them. -/
theorem readPeers_spec {peers sample : List Node} {needed : Int} (hnodup : peers.Nodup)
    (hsample : IsSample peers needed sample) (henough : needed ≤ peers.length) :
    (readPeers peers needed sample).Nodup ∧ readPeers peers needed sample ⊆ peers ∧
      needed ≤ (readPeers peers needed sample).length := by
  refine ⟨nodup_readPeers hnodup hsample, ?_⟩
  unfold readPeers selectReadPeers
  split
  · next hnone => exact ⟨List.nil_subset _, by simpa using hnone⟩
  · split
    · exact ⟨List.Subset.refl _, henough⟩
    · next hall =>
        obtain ⟨hlength, hsubperm⟩ := hsample.resolve_left hall
        exact ⟨hsubperm.subset, hlength.ge⟩

/-- The node at `ownPort` and its peers are the configured cluster, and what the
handlers count towards an accepted `w` or `r` are different nodes of it. -/
structure QuorumUniverse (config : ClusterConfig) (ownPort : Int) (own : Node) : Prop where
  members : (own :: config.peersExcluding ownPort).Perm config.nodes
  distinct : (own :: config.peersExcluding ownPort).Nodup
  count : (config.peersExcluding ownPort).length + 1 = config.nodes.length
  /-- A write contacts every other configured node, and a read only such nodes. -/
  contacts : ∀ r sample, validateQuorumParam r "r" config.nodes.length = .ok () →
    IsSample (config.peersExcluding ownPort) (r - 1) sample →
    own :: readPeers (config.peersExcluding ownPort) (r - 1) sample ⊆ config.nodes
  /-- A write answered 200 was taken by `w` different nodes. -/
  write_counts : ∀ w events state acked localApplied timestamp response,
    Runs.run (step (w - 1)) (replicateWrite (config.peersExcluding ownPort) (w - 1)) events =
      some state →
    state.exit = some (.ok acked) →
    putAnswer config w localApplied timestamp acked.length = .ok response →
    ∃ counted : List Node, (own :: counted).Nodup ∧ own :: counted ⊆ config.nodes ∧
      w ≤ (own :: counted).length ∧ ∀ node ∈ counted, Brings events node ()
  /-- A read not answered 503 heard of `r` different nodes. -/
  read_counts : ∀ (V : Type) r sample events state
      (localEntry : Option (VersionedValue V)) (entries : List (Option (VersionedValue V))) key,
    validateQuorumParam r "r" config.nodes.length = .ok () →
    IsSample (config.peersExcluding ownPort) (r - 1) sample →
    Runs.run (step (r - 1)) (read (config.peersExcluding ownPort) (r - 1) sample) events =
      some state →
    state.exit = some (.ok entries) →
    (∀ exception, getAnswer config key r localEntry entries = .error exception →
      exception.statusCode ≠ 503) →
    ∃ counted : List Node, (own :: counted).Nodup ∧ own :: counted ⊆ config.nodes ∧
      r ≤ (own :: counted).length ∧ ∀ node ∈ counted, ∃ entry, Brings events node entry
  /-- An accepted `w` is met when every other node acks in time. -/
  write_met : ∀ w events state localApplied timestamp,
    validateQuorumParam w "w" config.nodes.length = .ok () →
    (∀ event ∈ events, AllCount event) →
    Runs.run (step (w - 1)) (replicateWrite (config.peersExcluding ownPort) (w - 1)) events =
      some state →
    state.pending = [] ∨ state.exit.isSome →
    ∃ acked, state.exit = some (.ok acked) ∧
      putAnswer config w localApplied timestamp acked.length = .ok ⟨localApplied, timestamp⟩
  /-- An accepted `r` is met when every contacted node answers in time. -/
  read_met : ∀ (V : Type) r sample events state
      (localEntry : Option (VersionedValue V)) key,
    validateQuorumParam r "r" config.nodes.length = .ok () →
    IsSample (config.peersExcluding ownPort) (r - 1) sample →
    (∀ event ∈ events, AllCount event) →
    Runs.run (step (r - 1)) (read (config.peersExcluding ownPort) (r - 1) sample) events =
      some state →
    state.pending = [] ∨ state.exit.isSome →
    ∃ entries, state.exit = some (.ok entries) ∧
      ∀ exception, getAnswer config key r localEntry entries = .error exception →
        exception.statusCode ≠ 503

/-- The tasks a loop over peers has counted make up, with the node itself, that
many different configured nodes. -/
theorem counted_nodes {config : ClusterConfig} {ownPort : Int} {own : Node}
    (hmembers : (own :: config.peersExcluding ownPort).Perm config.nodes)
    (hdistinct : (own :: config.peersExcluding ownPort).Nodup) {contacted : List Node}
    (hnodup : contacted.Nodup) (hcontacted : contacted ⊆ config.peersExcluding ownPort)
    {α : Type} {required : Int} {events : List (Wake Node (Except PyError (Bool × α)))}
    {state : Gather Node α} {collected : List α}
    (hrun : Runs.run (step (required - 1)) (start contacted (required - 1)) events = some state)
    (hexit : state.exit = some (.ok collected))
    (hquorum : required ≤ 1 + (collected.length : Int)) :
    ∃ counted : List Node, (own :: counted).Nodup ∧ own :: counted ⊆ config.nodes ∧
      required ≤ (own :: counted).length ∧ ∀ node ∈ counted, ∃ value, Brings events node value := by
  obtain ⟨counted, hcounted, hstarted, hlength, hbrings⟩ := counted_of_run hnodup hrun hexit
  have hpeers := List.Subset.trans hstarted hcontacted
  refine ⟨counted, ?_, ?_, ?_, hbrings⟩
  · exact List.nodup_cons.mpr
      ⟨fun hself => (List.nodup_cons.mp hdistinct).1 (hpeers hself), hcounted⟩
  · exact List.Subset.trans (List.cons_subset_cons own hpeers) hmembers.subset
  · rw [List.length_cons, hlength]
    push_cast
    omega

/-- A node whose quorum universe is the cluster shares its port with no entry. -/
theorem QuorumUniverse.unique_port {config : ClusterConfig} {ownPort : Int} {own : Node}
    (hquorum : QuorumUniverse config ownPort own) :
    config.nodes.Nodup ∧ config.nodes.filter (fun node => node.port = ownPort) = [own] := by
  refine ⟨hquorum.members.nodup_iff.mp hquorum.distinct, ?_⟩
  have hself : own ∈ config.nodes := hquorum.members.subset List.mem_cons_self
  have hport : own.port = ownPort := by
    -- an entry with another port would be a peer of itself
    by_contra hother
    exact (List.nodup_cons.mp hquorum.distinct).1
      (ClusterConfig.mem_peersExcluding.mpr ⟨hself, hother⟩)
  have hfilter := hquorum.members.filter fun node => node.port = ownPort
  have hrest : (config.peersExcluding ownPort).filter (fun node => node.port = ownPort) = [] := by
    rw [List.filter_eq_nil_iff]
    intro node hnode
    simpa using (ClusterConfig.mem_peersExcluding.mp hnode).2
  rw [List.filter_cons_of_pos (by simpa using hport), hrest] at hfilter
  exact List.perm_singleton.mp hfilter.symm

/-- Where the own port is that of one entry alone, every count is of cluster nodes. -/
theorem QuorumUniverse.of_unique_port {config : ClusterConfig} {ownPort : Int} {own : Node}
    (hnodup : config.nodes.Nodup)
    (hunique : config.nodes.filter (fun node => node.port = ownPort) = [own]) :
    QuorumUniverse config ownPort own := by
  have hport : own.port = ownPort := by
    have hself : own ∈ config.nodes.filter fun node => node.port = ownPort := by simp [hunique]
    simpa using (List.mem_filter.mp hself).2
  subst hport
  have hmembers := ClusterConfig.perm_self_cons_peers hunique
  have hdistinct := hmembers.nodup_iff.mpr hnodup
  have hcount := ClusterConfig.length_peersExcluding hunique
  have hpeers := (List.nodup_cons.mp hdistinct).2
  -- an accepted `w` or `r` asks for at most as many peers as there are
  have henough : ∀ {value : Int} {name : String},
      validateQuorumParam value name config.nodes.length = .ok () →
        value - 1 ≤ (config.peersExcluding own.port).length := by
    intro value name hvalid
    have hrange := validateQuorumParam_eq_ok_iff.mp hvalid
    omega
  refine ⟨hmembers, hdistinct, hcount, ?_, ?_, ?_, ?_, ?_⟩
  · intro r sample hvalid hsample
    have hread := (readPeers_spec hpeers hsample (henough hvalid)).2.1
    exact List.Subset.trans (List.cons_subset_cons own hread) hmembers.subset
  · intro w events state acked localApplied timestamp response hrun hexit hanswer
    obtain ⟨counted, hcounted, hsubset, hlength, hbrings⟩ := counted_nodes hmembers hdistinct
      hpeers (List.Subset.refl _) hrun hexit (putAnswer_eq_ok_iff.mp hanswer).1
    exact ⟨counted, hcounted, hsubset, hlength, fun node hnode => (hbrings node hnode).choose_spec⟩
  · intro V r sample events state localEntry entries key hvalid hsample hrun hexit hanswer
    obtain ⟨hread, hsubset, _⟩ := readPeers_spec hpeers hsample (henough hvalid)
    rw [read_eq_start] at hrun
    apply counted_nodes hmembers hdistinct hread hsubset hrun hexit
    exact getAnswer_ne_503_iff.mp hanswer
  · intro w events state localApplied timestamp hvalid hevents hrun hend
    obtain ⟨acked, hexit, hneeded⟩ := run_all_count hpeers (henough hvalid) hevents hrun hend
    exact ⟨acked, hexit, putAnswer_eq_ok_iff.mpr ⟨by omega, rfl⟩⟩
  · intro V r sample events state localEntry key hvalid hsample hevents hrun hend
    obtain ⟨hread, _, hlength⟩ := readPeers_spec hpeers hsample (henough hvalid)
    rw [read_eq_start] at hrun
    obtain ⟨entries, hexit, hneeded⟩ := run_all_count hread hlength hevents hrun hend
    exact ⟨entries, hexit, getAnswer_ne_503_iff.mpr (by omega)⟩

/-- A config gives its node the whole cluster for a quorum universe exactly when
its entries are distinct and `own` alone carries the node's own port. -/
theorem quorumUniverse_iff (config : ClusterConfig) (ownPort : Int) (own : Node) :
    QuorumUniverse config ownPort own ↔
      config.nodes.Nodup ∧ config.nodes.filter (fun node => node.port = ownPort) = [own] := by
  constructor
  · intro hquorum
    exact hquorum.unique_port
  · rintro ⟨hnodup, hunique⟩
    exact QuorumUniverse.of_unique_port hnodup hunique

/-- Text conversions that leave strings as they are. -/
def plainText : PythonText where
  strOf
    | .str value => value
    | _ => ""
  intOf _ := none
  floatOf _ := none
  floatOfInt value := some (.finite value)

/-- Two machines that serve on the same port, and a third. -/
def sharedPortConfig : List (String × Yaml) :=
  [("nodes", .seq [
    .map [("host", .str "10.0.0.1"), ("port", .int 8001)],
    .map [("host", .str "10.0.0.2"), ("port", .int 8001)],
    .map [("host", .str "10.0.0.3"), ("port", .int 8002)]])]

/-- The config loader takes the list, but the nodes that share a port leave each
other out: neither knows of three nodes, though `w` and `r` may be 3. -/
theorem sharedPortConfig_accepted :
    ∃ config, ClusterConfig.fromDict plainText sharedPortConfig = .ok config ∧
      config.nodes.length = 3 ∧ (config.peersExcluding 8001).length = 1 ∧
      validateQuorumParam 3 "w" config.nodes.length = .ok () ∧
      ∀ own, ¬ QuorumUniverse config 8001 own := by
  refine ⟨_, rfl, rfl, rfl, rfl, fun own hquorum => ?_⟩
  exact absurd hquorum.count (by decide)

end KvReplication.Leaderless
