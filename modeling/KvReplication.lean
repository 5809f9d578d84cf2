import KvReplication.Leaderless.Freshness
import KvReplication.Leaderless.Tightness
import KvReplication.Leaderless.Convergence
import KvReplication.Leaderless.Background
import KvReplication.LeaderFollower.Durability
import KvReplication.LeaderFollower.Convergence
import KvReplication.LeaderFollower.Starvation
import KvReplication.Deletion
import KvReplication.MessageQueue.Agreement
import KvReplication.MessageQueue.Restart
import KvReplication.MessageQueue.ConsumeLoop
import KvReplication.MessageQueue.LagRace
import KvReplication.MessageQueue.TopicRaces
import KvReplication.Provenance
import KvReplication.Experiments.FullSynchrony
import KvReplication.UnhandledErrors
import KvReplication.QuorumLoops
import KvReplication.Common.Freezing
import KvReplication.Leaderless.ReadResolution
import KvReplication.LeaderFollower.SharedSemaphore
import KvReplication.LeaderFollower.Shutdown
import KvReplication.LeaderFollower.HandOff
import KvReplication.Experiments.DamagedResults
import KvReplication.Experiments.Measurement
import KvReplication.Experiments.PlanDecisions
import KvReplication.Experiments.Percentile
import KvReplication.Experiments.ResultsSections
import KvReplication.Experiments.UniqueValues
import KvReplication.Experiments.Completion
import KvReplication.Experiments.NodeRotation
import KvReplication.Leaderless.MonotoneReads
import KvReplication.Leaderless.LostWrites
import KvReplication.Leaderless.Linearizability
import KvReplication.Leaderless.Availability
import KvReplication.Experiments.StaleQuorums
import KvReplication.Experiments.LaggingReads
import KvReplication.Experiments.StaleFollowers
