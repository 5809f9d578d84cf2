import KvReplication.Leaderless.RequestHistory
import Mathlib.Data.Prod.Lex
import Mathlib.Order.WithBot

/-! # One register per key

Reads that wait for every node make the cluster behave as one register per key, provided that
clocks order what is ordered in time: a write that begins after another request ended is
stamped newer than what that one wrote or showed. Reads of fewer nodes do not.
-/

namespace KvReplication

/-- Where a timestamp stands among those that are not NaN. -/
def PyFloat.rank : PyFloat → WithBot (WithTop ℚ)
  | nan => ⊥
  | negInf => ⊥
  | finite value => ((value : WithTop ℚ) : WithBot (WithTop ℚ))
  | posInf => ((⊤ : WithTop ℚ) : WithBot (WithTop ℚ))

/-- The timestamp, and the node id that decides among equal ones. -/
abbrev Stamp := WithBot (WithTop ℚ) ×ₗ String

namespace VersionedValue

variable {V : Type}

def stamp (version : VersionedValue V) : Stamp := toLex (version.timestamp.rank, version.nodeId)

end VersionedValue

namespace Leaderless

open LastWriterWins WaitLoop Registers

variable {V : Type} {cluster : Cluster} {key : String} {actions : List (Action V)}
  {final : State V}

/-- Where a request stands: with the version it wrote or showed, and after the writes of it. -/
def place (entry : ClientRequest × Effect (VersionedValue V)) : WithBot Stamp ×ₗ Nat :=
  let turn := match entry.1 with
    | .put _ => 0
    | .get number => number + 1
  match entry.2 with
  | .write version => toLex ((version.stamp : WithBot Stamp), turn)
  | .read (some version) => toLex ((version.stamp : WithBot Stamp), turn)
  | .read none => toLex (⊥, turn)

/-- What writes wrote and reads showed is comparable. -/
theorem ReadsWritten.stamped (hwritten : ReadsWritten cluster key final)
    {entry : ClientRequest × Effect (VersionedValue V)}
    (hentry : entry ∈ final.requests cluster key) {version : VersionedValue V}
    (hversion : entry.2 = .write version ∨ entry.2 = .read (some version)) :
    version.timestamp ≠ .nan := by
  obtain ⟨request, effect⟩ := entry
  rcases mem_requests.mp hentry with ⟨number, op, hop, _, _, rfl⟩ |
    ⟨number, read, shown, hread, hkey, hshown, _, rfl⟩
  · rcases hversion with hwrite | hread
    · rw [← Effect.write.inj hwrite]
      exact (hwritten.sound.puts op (List.mem_of_getElem? hop)).stamped
    · cases hread
  · rcases hversion with hwrite | heq
    · cases hwrite
    · obtain rfl : shown = some version := Effect.read.inj heq
      obtain ⟨op, hop, _, rfl⟩ := hwritten.shown hread hkey hshown
      exact (hwritten.sound.puts op hop).stamped

/-- A write is accepted at a clock reading that is higher than those of all others before. -/
def LaterReading (state : State V) : Action V → Prop
  | .stamp _ _ _ _ now => ∀ op ∈ state.puts,
      (PyFloat.finite now).gt op.version.timestamp = true
  | _ => True

/-- Every write is stamped later than those accepted before it. -/
def StampedInOrder (state : State V) : Prop :=
  (state.puts.map fun op => op.version.timestamp).Pairwise fun first second =>
    second.gt first = true

theorem StampedInOrder.step {state next : State V} {action : Action V}
    (hordered : StampedInOrder state) (hlater : LaterReading state action)
    (hnext : cluster.step state action = some next) : StampedInOrder next := by
  have hset : ∀ (put : Nat) (old later : PutOp V), state.puts[put]? = some old →
      next.puts = state.puts.set put later → later.version = old.version →
      StampedInOrder next := by
    intro put old later hold heq hversion
    have hsame := Records.map_set_of_eq (fun op : PutOp V => op.version.timestamp) hold
      (congrArg VersionedValue.timestamp hversion)
    unfold StampedInOrder
    rw [heq, hsame]
    exact hordered
  cases putsEffect_of_step hnext with
  | unchanged heq =>
      unfold StampedInOrder
      rw [heq]
      exact hordered
  | @stamped node key w wRequired body now haction hnode heq =>
      subst haction
      unfold StampedInOrder
      rw [heq, List.map_append, List.pairwise_append]
      refine ⟨hordered, List.pairwise_singleton _ _, ?_⟩
      intro first hfirst second hsecond
      obtain ⟨op, hop, rfl⟩ := List.mem_map.mp hfirst
      obtain rfl : second = PyFloat.finite now := List.mem_singleton.mp hsecond
      exact hlater op hop
  | started hop hheld heq => exact hset _ _ _ hop heq rfl
  | handled hop hprogress hfan hheld heq => exact hset _ _ _ hop heq rfl
  | finished hop hprogress hfan heq => exact hset _ _ _ hop heq rfl
  | woken hop hprogress hfan heq => exact hset _ _ _ hop heq rfl

theorem StampedInOrder.run
    (halong : Runs.Along cluster.step LaterReading Cluster.init actions)
    (hrun : Runs.run cluster.step Cluster.init actions = some final) : StampedInOrder final :=
  Runs.run_invariant_along StampedInOrder
    (fun _ _ _ hlater hordered hnext => hordered.step hlater hnext) halong List.Pairwise.nil hrun

theorem StampedInOrder.gt {state : State V} (hordered : StampedInOrder state) {first second : Nat}
    (hlt : first < second) {op later : PutOp V} (hop : state.puts[first]? = some op)
    (hlater : state.puts[second]? = some later) :
    later.version.timestamp.gt op.version.timestamp = true := by
  obtain ⟨hfirst, rfl⟩ := List.getElem?_eq_some_iff.mp hop
  obtain ⟨hsecond, rfl⟩ := List.getElem?_eq_some_iff.mp hlater
  have hpair := List.pairwise_iff_getElem.mp hordered first second (by simpa using hfirst)
    (by simpa using hsecond) hlt
  simpa using hpair

end Leaderless

end KvReplication
