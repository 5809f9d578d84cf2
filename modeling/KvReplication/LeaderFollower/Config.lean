import KvReplication.Common.Config

/-! # The leader's view of the cluster

Who to replicate to, and how many acks a write waits for.
-/

namespace KvReplication.LeaderFollower

/-- One follower's address. -/
structure Follower where
  host : String
  port : Int
deriving DecidableEq

structure ClusterConfig where
  followers : List Follower
  ackRequired : Int
  timeoutSeconds : PyFloat

namespace ClusterConfig

/-- One entry of `followers`: the host is kept, the port goes through `int`. -/
def followerOf (text : PythonText) (entry : Yaml) : Except PyError Follower := do
  let host ← Yaml.item "host" entry
  let port ← Yaml.item "port" entry
  let port ← port.toInt text
  return ⟨text.strOf host, port⟩

def validateAckRequired (ackRequired : Int) (followers : List Follower) :
    Except ConfigError Unit :=
  requireInRange ackRequired "ack_required" 0 followers.length "followers"

def fromDict (text : PythonText) (raw : List (String × Yaml)) :
    Except ConfigError ClusterConfig := do
  let entries ← liftPython (Yaml.getD raw "followers" (.seq [])).iterate
  let followers ← liftPython (entries.mapM (followerOf text))
  let ackRequired ← liftPython ((Yaml.getD raw "ack_required" (.int 0)).toInt text)
  let timeoutSeconds ←
    liftPython ((Yaml.getD raw "timeout_seconds" (.float (.finite 2))).toFloat text)
  validateAckRequired ackRequired followers
  requirePositive timeoutSeconds "timeout_seconds"
  return ⟨followers, ackRequired, timeoutSeconds⟩

/-- The `--ack-required` override, checked like the value in the file. -/
def withAckRequired (config : ClusterConfig) (ackRequired : Int) :
    Except ConfigError ClusterConfig := do
  validateAckRequired ackRequired config.followers
  return { config with ackRequired := ackRequired }

/-- The ack count a leader waits for never exceeds its followers. -/
theorem fromDict_ackRequired {text : PythonText} {raw : List (String × Yaml)}
    {config : ClusterConfig} (haccepted : fromDict text raw = .ok config) :
    0 ≤ config.ackRequired ∧ config.ackRequired ≤ config.followers.length := by
  simp only [fromDict, bind_eq_ok] at haccepted
  obtain ⟨entries, _, followers, _, ackRequired, _, timeout, _, _, hrange, _, _, hconfig⟩ :=
    haccepted
  injection hconfig with hconfig
  subst hconfig
  exact requireInRange_eq_ok_iff.mp hrange

theorem withAckRequired_ackRequired {config override : ClusterConfig} {ackRequired : Int}
    (haccepted : config.withAckRequired ackRequired = .ok override) :
    0 ≤ override.ackRequired ∧ override.ackRequired ≤ override.followers.length := by
  simp only [withAckRequired, bind_eq_ok] at haccepted
  obtain ⟨_, hrange, hconfig⟩ := haccepted
  injection hconfig with hconfig
  subst hconfig
  exact requireInRange_eq_ok_iff.mp hrange

end ClusterConfig

end KvReplication.LeaderFollower
