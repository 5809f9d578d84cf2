import KvReplication.Leaderless.Requests
import KvReplication.Leaderless.Tightness

/-! # Reads that go back

A read may be the first to show a version whose write is still under way. Of that
version only the node it was heard from is known to hold it, and a later read is sure
to meet this node only if it hears from every node.
-/

namespace KvReplication.Leaderless

open LastWriterWins

variable {V : Type} {cluster : Cluster} {state next : State V} {key : String}

/-- The node holds what it was heard to hold. -/
def HeldAt (stores : Node → KVStore V) (key : String) (node : Node)
    (entry : Option (VersionedValue V)) : Prop :=
  ∀ stored, entry = some stored →
    (stores node).Holds key stored ∧ stored.timestamp ≠ .nan

theorem HeldAt.step {action : Action V} (hkeeps : action.KeepsKeys)
    (hnext : cluster.step state action = some next) {node : Node}
    {entry : Option (VersionedValue V)} (hheld : HeldAt state.stores key node entry) :
    HeldAt next.stores key node entry := by
  intro stored hstored
  obtain ⟨hholds, hfinite⟩ := hheld stored hstored
  exact ⟨holds_of_step hkeeps hnext hholds, hfinite⟩

theorem State.Sound.heldAt (hsound : state.Sound cluster) (node : Node) (key : String) :
    HeldAt state.stores key node ((state.stores node).get key) := by
  intro stored hstored
  obtain ⟨op, hop, _, rfl⟩ := hsound.stored node key stored hstored
  exact ⟨⟨op.version, hstored, VersionedValue.newer_irrefl _⟩, (hsound.puts op hop).stamped⟩

/-- The nodes hold what the reads of `key` heard from them. -/
structure ReadsHeld (cluster : Cluster) (key : String) (state : State V) : Prop where
  sound : state.Sound cluster
  reads : ∀ read ∈ state.gets, read.key = key → read.Sound cluster (HeldAt state.stores key)

theorem ReadsHeld.init : ReadsHeld cluster key (Cluster.init : State V) where
  sound := State.Sound.init
  reads read hread := by cases hread

theorem ReadsHeld.step (hadmitted : Admitted key) (hsafe : UrlSafe key)
    (hheld : ReadsHeld cluster key state) {action : Action V} (hkeeps : action.KeepsKeys)
    (hnext : cluster.step state action = some next) : ReadsHeld cluster key next := by
  have hgrown : ∀ get read, 0 ≤ get → state.gets[get]? = some read → read.key = key →
      read.Sound cluster (HeldAt next.stores key) := fun get read _ hread hkey =>
    (hheld.reads read (List.mem_of_getElem? hread) hkey).mono
      fun _ _ hbefore => hbefore.step hkeeps hnext
  have hstored : ∀ node, HeldAt next.stores key node ((state.stores node).get key) :=
    fun node => (hheld.sound.heldAt node key).step hkeeps hnext
  refine ⟨hheld.sound.step hkeeps hnext, fun read hread hkey => ?_⟩
  obtain ⟨get, hget⟩ := List.getElem?_of_mem hread
  exact (getsEffect_of_step hnext).sound hadmitted hsafe hstored hgrown get read (Nat.zero_le get)
    hget hkey

theorem ReadsHeld.run (hadmitted : Admitted key) (hsafe : UrlSafe key) {actions : List (Action V)}
    {final : State V} (hkeeps : ∀ action ∈ actions, action.KeepsKeys)
    (hrun : Runs.run cluster.step Cluster.init actions = some final) :
    ReadsHeld cluster key final :=
  Runs.run_invariant (ReadsHeld cluster key)
    (fun _ _ _ hkeep hheld hnext => hheld.step hadmitted hsafe hkeep hnext) hkeeps
    ReadsHeld.init hrun

/-- Whatever a read is answered with, some node holds. -/
theorem ReadsHeld.answered (hheld : ReadsHeld cluster key state) {read : GetOp V}
    (hread : read ∈ state.gets) (hkey : read.key = key) {response : KVResponse V}
    (hanswer : read.answer cluster.config = some (.ok (.ok response))) :
    ∃ node ∈ cluster.config.nodes, (state.stores node).Holds key response.version := by
  obtain ⟨outcome, hexit, houtcome⟩ := Option.map_eq_some_iff.mp hanswer
  cases outcome with
  | error error => simp [Except.map] at houtcome
  | ok entries =>
      have hwinner := (getAnswer_eq_ok_iff.mp (Except.ok.inj houtcome)).2.2
      rw [pickWinner_eq_offerAll] at hwinner
      have hcandidate : response.version ∈ candidates read.localEntry entries :=
        (offerAll_mem hwinner).resolve_right (by simp)
      obtain ⟨node, hnode, hfresh⟩ := (hheld.reads read hread hkey).heard hexit hcandidate
      exact ⟨node, hnode, (hfresh _ rfl).1⟩

end KvReplication.Leaderless
