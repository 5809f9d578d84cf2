import KvReplication.Common.Config

/-! # The quorum universe of a leaderless node

Every node reads the same list of nodes and takes for its peers the entries whose
port is not its own. The cluster size that bounds `w` and `r` is the length of
the whole list. The two agree when exactly one entry carries the node's own port.
-/

namespace KvReplication.Leaderless

/-- One node's address; `host` is the text the URLs are built from. -/
structure Node where
  host : String
  port : Int
deriving DecidableEq

/-- A node's view of the cluster, itself included. -/
structure ClusterConfig where
  nodes : List Node
  defaultW : Int
  defaultR : Int
  timeoutSeconds : PyFloat

namespace ClusterConfig

/-- One entry of `nodes`: the host is kept, the port goes through `int`. -/
def nodeOf (text : PythonText) (entry : Yaml) : Except PyError Node := do
  let host ← Yaml.item "host" entry
  let port ← Yaml.item "port" entry
  let port ← port.toInt text
  return ⟨text.strOf host, port⟩

/-- A default quorum lies between 1 and the number of nodes. -/
def validateQuorum (value : Int) (name : String) (nodes : List Node) :
    Except ConfigError Unit :=
  requireInRange value name 1 nodes.length "nodes"

def fromDict (text : PythonText) (raw : List (String × Yaml)) :
    Except ConfigError ClusterConfig := do
  let entries ← liftPython (Yaml.getD raw "nodes" (.seq [])).iterate
  let nodes ← liftPython (entries.mapM (nodeOf text))
  let defaultW ← liftPython ((Yaml.getD raw "default_w" (.int 1)).toInt text)
  let defaultR ← liftPython ((Yaml.getD raw "default_r" (.int 1)).toInt text)
  let timeoutSeconds ←
    liftPython ((Yaml.getD raw "timeout_seconds" (.float (.finite 2))).toFloat text)
  validateQuorum defaultW "default_w" nodes
  validateQuorum defaultR "default_r" nodes
  requirePositive timeoutSeconds "timeout_seconds"
  return ⟨nodes, defaultW, defaultR, timeoutSeconds⟩

/-- Every configured node except the ones at `ownPort`, matched by port alone. -/
def peersExcluding (config : ClusterConfig) (ownPort : Int) : List Node :=
  config.nodes.filter fun node => node.port ≠ ownPort

end ClusterConfig

/-- The check of a client's `w` or `r` against the live cluster size. -/
def validateQuorumParam (value : Int) (name : String) (n : Nat) : Except HttpException Unit :=
  if 1 ≤ value ∧ value ≤ n then .ok () else .error ⟨422, .quorumParam name value n⟩

theorem validateQuorumParam_eq_ok_iff {value : Int} {name : String} {n : Nat} :
    validateQuorumParam value name n = .ok () ↔ 1 ≤ value ∧ value ≤ n := by
  unfold validateQuorumParam
  split
  · next hrange => simp [hrange]
  · next hrange => simp [hrange]

/-- A quorum parameter out of range is answered 422. -/
theorem statusCode_of_validateQuorumParam {value : Int} {name : String} {n : Nat}
    {exception : HttpException} (herror : validateQuorumParam value name n = .error exception) :
    exception.statusCode = 422 := by
  unfold validateQuorumParam at herror
  split at herror
  · cases herror
  · obtain rfl := Except.error.inj herror
    rfl

namespace ClusterConfig

/-- An accepted config has default quorums within the cluster size, so it names
at least one node. -/
theorem fromDict_quorums {text : PythonText} {raw : List (String × Yaml)}
    {config : ClusterConfig} (haccepted : fromDict text raw = .ok config) :
    (1 ≤ config.defaultW ∧ config.defaultW ≤ config.nodes.length) ∧
      (1 ≤ config.defaultR ∧ config.defaultR ≤ config.nodes.length) := by
  simp only [fromDict, bind_eq_ok] at haccepted
  obtain ⟨entries, _, nodes, _, defaultW, _, defaultR, _, timeout, _, _, hw, _, hr, _, _,
    hconfig⟩ :=
    haccepted
  injection hconfig with hconfig
  subst hconfig
  exact ⟨requireInRange_eq_ok_iff.mp hw, requireInRange_eq_ok_iff.mp hr⟩

theorem mem_peersExcluding {config : ClusterConfig} {ownPort : Int} {node : Node} :
    node ∈ config.peersExcluding ownPort ↔ node ∈ config.nodes ∧ node.port ≠ ownPort := by
  simp [peersExcluding]

theorem peersExcluding_nodup {config : ClusterConfig} (hnodup : config.nodes.Nodup)
    (ownPort : Int) : (config.peersExcluding ownPort).Nodup :=
  hnodup.filter _

/-- A node whose port no other entry carries: with its peers it makes up the
configured list. -/
theorem perm_self_cons_peers {config : ClusterConfig} {self : Node}
    (hunique : config.nodes.filter (fun node => node.port = self.port) = [self]) :
    (self :: config.peersExcluding self.port).Perm config.nodes := by
  have hsplit := List.filter_append_perm (fun node : Node => node.port = self.port) config.nodes
  rw [hunique] at hsplit
  have hrest : config.nodes.filter (fun node => !decide (node.port = self.port)) =
      config.peersExcluding self.port := by
    unfold peersExcluding
    congr 1
    funext node
    simp
  rw [hrest] at hsplit
  exact hsplit

theorem length_peersExcluding {config : ClusterConfig} {self : Node}
    (hunique : config.nodes.filter (fun node => node.port = self.port) = [self]) :
    (config.peersExcluding self.port).length + 1 = config.nodes.length := by
  have hlength := (perm_self_cons_peers hunique).length_eq
  simpa using hlength

theorem self_not_mem_peersExcluding (config : ClusterConfig) (self : Node) :
    self ∉ config.peersExcluding self.port := by
  simp [mem_peersExcluding]

/-- Distinct ports: each configured node is alone at its port. -/
theorem filter_port_eq_singleton {config : ClusterConfig}
    (hports : (config.nodes.map Node.port).Nodup) {self : Node} (hself : self ∈ config.nodes) :
    config.nodes.filter (fun node => node.port = self.port) = [self] := by
  have hnodes : config.nodes.Nodup := hports.of_map
  have hinjective : ∀ node ∈ config.nodes, node.port = self.port → node = self :=
    fun node hnode hport => List.inj_on_of_nodup_map hports hnode hself hport
  have heq : config.nodes.filter (fun node => node.port = self.port) =
      config.nodes.filter (fun node => node = self) := by
    apply List.filter_congr
    intro node hnode
    simp only [decide_eq_decide]
    exact ⟨hinjective node hnode, fun heq => heq ▸ rfl⟩
  rw [heq, List.filter_eq, List.count_eq_one_of_mem hnodes hself]
  rfl

end ClusterConfig

end KvReplication.Leaderless
