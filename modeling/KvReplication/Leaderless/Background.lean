import Mathlib.Data.Finset.Image
import KvReplication.Foundation.Records
import KvReplication.Leaderless.PeerCalls

/-! # The background set of a coordinator

One coordinator serves any number of requests. A request starts one task for every
peer entry it contacts and waits for them in `_gather`; whichever way the wait ends,
the tasks it still waited for are added to the coordinator's one `_background` set,
and a task leaves that set by its done callback only.
-/

namespace KvReplication.Leaderless

open WaitLoop

variable {V : Type}

/-- The tasks of one `_gather`, by the entry of `self._peers` that each one calls, with
what those that have finished returned or raised. -/
structure Calls (α : Type) where
  started : List Nat
  result : Nat → Option (Except PyError (Bool × α))
  gather : Gather Nat α

namespace Calls

variable {α : Type}

/-- `replicate_write`: one coroutine for every peer. -/
def replicateWrite (peers : List Node) (needed : Int) : Calls Unit :=
  ⟨List.range peers.length, fun _ => none,
    Leaderless.replicateWrite (List.range peers.length) needed⟩

/-- `read`: one coroutine for every selected peer. -/
def read (peers : List Node) (needed : Int) (sample : List Nat) :
    Calls (Option (VersionedValue V)) :=
  ⟨readPeers (List.range peers.length) needed sample, fun _ => none,
    Leaderless.read (List.range peers.length) needed sample⟩

/-- A task that is still running finishes. -/
def finish (calls : Calls α) (entry : Nat) (result : Except PyError (Bool × α)) :
    Option (Calls α) :=
  if entry ∈ calls.started ∧ (calls.result entry).isNone then
    some { calls with result := Function.update calls.result entry (some result) }
  else
    none

/-- The await inside `_gather` ends. -/
def wake (needed : Int) (calls : Calls α) (signal : Signal Nat) : Option (Calls α) := do
  let event ← signal.event calls.result
  let gather ← calls.gather.step needed event
  return { calls with gather := gather }

/-- What `_gather` no longer waits for has finished, and what it hands over when it
ends is all it still waited for. -/
structure Tracked (calls : Calls α) : Prop where
  waited : ∀ entry ∈ calls.started, (calls.result entry).isSome ∨ entry ∈ calls.gather.pending
  handed : calls.gather.exit.isSome → calls.gather.background = calls.gather.pending

end Calls

namespace Gather

variable {Task α : Type}

theorem check_pending (needed : Int) (state : Gather Task α) :
    (state.check needed).pending = state.pending := by
  unfold check
  split
  · rfl
  · rfl

theorem check_background {needed : Int} {state : Gather Task α} (hrunning : state.exit = none)
    (hended : (state.check needed).exit.isSome) :
    (state.check needed).background = (state.check needed).pending := by
  unfold check at hended ⊢
  split
  · rfl
  · next hstay =>
      rw [if_neg hstay, hrunning] at hended
      cases hended

/-- All five exits of the loop hand over what is pending. -/
theorem wake_background [DecidableEq Task] {needed : Int} {state : Gather Task α}
    {event : Wake Task (Except PyError (Bool × α))} (hrunning : state.exit = none)
    (hended : (state.wake needed event).exit.isSome) :
    (state.wake needed event).background = (state.wake needed event).pending := by
  cases event with
  | timeout => rfl
  | cancelled => rfl
  | done finished =>
      simp only [wake] at hended ⊢
      cases hcollect : collectDone finished state.collected with
      | error error => rfl
      | ok collected =>
          rw [hcollect] at hended
          exact check_background hrunning hended

/-- A wake-up takes out of the pending tasks those it brings, and no others. -/
theorem wake_pending [DecidableEq Task] {needed : Int} {state : Gather Task α}
    {event : Wake Task (Except PyError (Bool × α))} {task : Task}
    (hpending : task ∈ state.pending) :
    task ∈ (state.wake needed event).pending ∨ task ∈ event.tasks := by
  cases event with
  | timeout => exact Or.inl hpending
  | cancelled => exact Or.inl hpending
  | done finished =>
      refine (mem_filter_not_mem_or hpending (finished.map Prod.fst)).imp_left fun hleft => ?_
      simp only [wake]
      cases collectDone finished state.collected with
      | error error => exact hleft
      | ok collected => simpa only [check_pending] using hleft

end Gather

namespace Calls

variable {α : Type} {calls next : Calls α}

theorem finish_eq_some {entry : Nat} {result : Except PyError (Bool × α)} :
    calls.finish entry result = some next ↔
      (entry ∈ calls.started ∧ calls.result entry = none) ∧
        { calls with result := Function.update calls.result entry (some result) } = next := by
  simp [finish]

theorem wake_eq_some {needed : Int} {signal : Signal Nat} :
    calls.wake needed signal = some next ↔
      ∃ event, signal.event calls.result = some event ∧
        ∃ gather, calls.gather.step needed event = some gather ∧
          { calls with gather := gather } = next := by
  simp [wake, Option.bind_eq_some_iff]

theorem Tracked.start {entries : List Nat} (needed : Int) :
    (Calls.mk (α := α) entries (fun _ => none) (Gather.start entries needed)).Tracked where
  waited entry hentry := by
    refine Or.inr ?_
    simpa only [Gather.start, Gather.check_pending] using hentry
  handed hended := Gather.check_background rfl hended

theorem Tracked.replicateWrite (peers : List Node) (needed : Int) :
    (Calls.replicateWrite peers needed).Tracked :=
  Tracked.start needed

theorem Tracked.read (peers : List Node) (needed : Int) (sample : List Nat) :
    (Calls.read (V := V) peers needed sample).Tracked := by
  unfold Calls.read
  rw [read_eq_start]
  exact Tracked.start needed

theorem Tracked.finish (htracked : calls.Tracked) {entry : Nat}
    {result : Except PyError (Bool × α)} (hnext : calls.finish entry result = some next) :
    next.Tracked := by
  obtain ⟨_, rfl⟩ := finish_eq_some.mp hnext
  refine ⟨fun other hother => ?_, htracked.handed⟩
  by_cases heq : other = entry
  · subst heq
    simp
  · simpa [heq] using htracked.waited other hother

theorem Tracked.wake (htracked : calls.Tracked) {needed : Int} {signal : Signal Nat}
    (hnext : calls.wake needed signal = some next) : next.Tracked := by
  obtain ⟨event, hevent, gather, hgather, rfl⟩ := wake_eq_some.mp hnext
  obtain ⟨hrunning, hallowed, rfl⟩ := Gather.step_eq_some.mp hgather
  refine ⟨fun entry hentry => ?_, Gather.wake_background hrunning⟩
  rcases htracked.waited entry hentry with hresult | hpending
  · exact Or.inl hresult
  · have hwake : entry ∈ (calls.gather.wake needed event).pending ∨ entry ∈ event.tasks :=
      Gather.wake_pending hpending
    exact hwake.symm.imp_left (Signal.isSome_of_mem_tasks hevent)

/-- A task never runs again, and an ended `_gather` never resumes. -/
structure Later (calls next : Calls α) : Prop where
  started_eq : next.started = calls.started
  result_stays : ∀ entry, (calls.result entry).isSome → (next.result entry).isSome
  exit_stays : calls.gather.exit.isSome → next.gather = calls.gather

theorem later_finish {entry : Nat} {result : Except PyError (Bool × α)}
    (hnext : calls.finish entry result = some next) : calls.Later next := by
  obtain ⟨_, rfl⟩ := finish_eq_some.mp hnext
  refine ⟨rfl, fun other hother => ?_, fun _ => rfl⟩
  by_cases heq : other = entry
  · subst heq
    simp
  · simpa [heq] using hother

theorem later_wake {needed : Int} {signal : Signal Nat}
    (hnext : calls.wake needed signal = some next) : calls.Later next := by
  obtain ⟨event, _, gather, hgather, rfl⟩ := wake_eq_some.mp hnext
  obtain ⟨hrunning, _, _⟩ := Gather.step_eq_some.mp hgather
  refine ⟨rfl, fun _ hother => hother, fun hended => ?_⟩
  rw [hrunning] at hended
  cases hended

theorem Later.refl (calls : Calls α) : calls.Later calls :=
  ⟨rfl, fun _ hresult => hresult, fun _ => rfl⟩

theorem Later.trans {last : Calls α} (hfirst : calls.Later next) (hsecond : next.Later last) :
    calls.Later last where
  started_eq := hsecond.started_eq.trans hfirst.started_eq
  result_stays entry hresult := hsecond.result_stays entry (hfirst.result_stays entry hresult)
  exit_stays hended := by
    have hfirst := hfirst.exit_stays hended
    rw [← hfirst] at hended ⊢
    exact hsecond.exit_stays hended

end Calls

/-- A request that has passed its check, with the quorum it was given. -/
structure Request (α : Type) where
  key : String
  required : Int
  calls : Calls α

/-- A task of the coordinator: of which request, and to which peer entry. -/
inductive CallTask where
  | write (put entry : Nat)
  | read (get entry : Nat)
deriving DecidableEq

/-- A node and its `QuorumCoordinator`, its requests numbered as they come in. -/
structure Coordinating (V : Type) where
  puts : List (Request Unit)
  gets : List (Request (Option (VersionedValue V)))
  background : Finset CallTask

inductive CoordinatorAction (V : Type) where
  | put (key : String) (w : Option Int)
  | get (key : String) (r : Option Int) (sample : List Nat)
  /-- A replicate call returns or raises. -/
  | finishWrite (put entry : Nat) (reply : Reply ReplicateResponse)
  /-- A read call returns or raises. -/
  | finishRead (get entry : Nat) (reply : Reply (KVResponse V))
  | wakePut (put : Nat) (signal : Signal Nat)
  | wakeGet (get : Nat) (signal : Signal Nat)
  /-- The done callback of a task in the background set. -/
  | discard (task : CallTask)

/-- A node of the cluster: all the addresses, and its own port. -/
structure CoordinatorNode where
  config : ClusterConfig
  ownPort : Int

/-- The tasks an ended `_gather` has handed over. -/
def Calls.handOver {α : Type} (calls : Calls α) (task : Nat → CallTask) : Finset CallTask :=
  (calls.gather.background.map task).toFinset

/-- Whether a task of the coordinator has finished. -/
def Coordinating.finished (state : Coordinating V) : CallTask → Bool
  | .write put entry => (state.puts[put]?.bind fun request => request.calls.result entry).isSome
  | .read get entry => (state.gets[get]?.bind fun request => request.calls.result entry).isSome

namespace CoordinatorNode

variable (node : CoordinatorNode)

def init : Coordinating V := ⟨[], [], ∅⟩

def peers : List Node := node.config.peersExcluding node.ownPort

def nTotal : Nat := node.config.nodes.length

/-- The `w` or `r` a request runs with, unless it is answered 422. -/
def acceptedQuorum (requested : Option Int) (default : Int) (name : String) : Option Int :=
  match validateQuorumParam (requested.getD default) name node.nTotal with
  | .error _ => none
  | .ok () => some (requested.getD default)

/-- One action; an action that is not enabled is refused. -/
def step (state : Coordinating V) : CoordinatorAction V → Option (Coordinating V)
  | .put key w =>
      match node.acceptedQuorum w node.config.defaultW "w" with
      | none => some state
      | some wRequired =>
          let calls := Calls.replicateWrite node.peers (wRequired - 1)
          some { state with
            puts := state.puts ++ [⟨key, wRequired, calls⟩]
            background := state.background ∪ calls.handOver (.write state.puts.length) }
  | .get key r sample =>
      match node.acceptedQuorum r node.config.defaultR "r" with
      | none => some state
      | some rRequired =>
          let calls := Calls.read node.peers (rRequired - 1) sample
          if IsSample (List.range node.peers.length) (rRequired - 1) sample then
            some { state with
              gets := state.gets ++ [⟨key, rRequired, calls⟩]
              background := state.background ∪ calls.handOver (.read state.gets.length) }
          else
            none
  | .finishWrite put entry reply => do
      let request ← state.puts[put]?
      let calls ← request.calls.finish entry (replicateOutcome reply)
      return { state with puts := state.puts.set put { request with calls := calls } }
  | .finishRead get entry reply => do
      let request ← state.gets[get]?
      let calls ← request.calls.finish entry (readOutcome reply)
      return { state with gets := state.gets.set get { request with calls := calls } }
  | .wakePut put signal => do
      let request ← state.puts[put]?
      let calls ← request.calls.wake (request.required - 1) signal
      return { state with
        puts := state.puts.set put { request with calls := calls }
        background := state.background ∪ calls.handOver (.write put) }
  | .wakeGet get signal => do
      let request ← state.gets[get]?
      let calls ← request.calls.wake (request.required - 1) signal
      return { state with
        gets := state.gets.set get { request with calls := calls }
        background := state.background ∪ calls.handOver (.read get) }
  | .discard task =>
      if task ∈ state.background ∧ state.finished task then
        some { state with background := state.background.erase task }
      else
        none

/-- The PUT an action brings in, if it passes its check. -/
def acceptedPut : CoordinatorAction V → Option (String × Int)
  | .put key w => (node.acceptedQuorum w node.config.defaultW "w").map (key, ·)
  | _ => none

/-- The GET an action brings in, if it passes its check. -/
def acceptedGet : CoordinatorAction V → Option (String × Int)
  | .get key r _ => (node.acceptedQuorum r node.config.defaultR "r").map (key, ·)
  | _ => none

theorem acceptedQuorum_eq_some {requested : Option Int} {default required : Int} {name : String}
    (haccepted : node.acceptedQuorum requested default name = some required) :
    1 ≤ required ∧ required ≤ node.nTotal := by
  unfold acceptedQuorum at haccepted
  split at haccepted
  · cases haccepted
  · next hvalid =>
      obtain rfl := Option.some.inj haccepted
      exact validateQuorumParam_eq_ok_iff.mp hvalid

end CoordinatorNode

/-! ### Nothing is dropped -/

section Held

variable {α : Type}

/-- Of every request whose `_gather` has ended, the tasks it still waited for have
finished or are in the background set. -/
structure Held (requests : List (Request α)) (task : Nat → Nat → CallTask)
    (background : Finset CallTask) : Prop where
  tracked : ∀ (index : Nat) (request : Request α), requests[index]? = some request →
    request.calls.Tracked
  held : ∀ (index : Nat) (request : Request α), requests[index]? = some request →
    request.calls.gather.exit.isSome → ∀ entry ∈ request.calls.gather.pending,
      (request.calls.result entry).isSome ∨ task index entry ∈ background

variable {requests : List (Request α)} {task : Nat → Nat → CallTask}
  {background background' : Finset CallTask}

theorem Held.nil (task : Nat → Nat → CallTask) : Held ([] : List (Request α)) task ∅ where
  tracked index request hrequest := by simp at hrequest
  held index request hrequest := by simp at hrequest

theorem Calls.mem_handOver {calls : Calls α} (htracked : calls.Tracked)
    (hended : calls.gather.exit.isSome) {entry : Nat} (hentry : entry ∈ calls.gather.pending)
    (taskOf : Nat → CallTask) : taskOf entry ∈ calls.handOver taskOf := by
  rw [handOver, htracked.handed hended, List.mem_toFinset]
  exact List.mem_map_of_mem hentry

theorem Held.mono (hheld : Held requests task background) (hsubset : background ⊆ background') :
    Held requests task background' where
  tracked := hheld.tracked
  held index request hrequest hended entry hentry :=
    (hheld.held index request hrequest hended entry hentry).imp_right fun hmem => hsubset hmem

theorem Held.append (hheld : Held requests task background) (key : String) (required : Int)
    {calls : Calls α} (htracked : calls.Tracked) :
    Held (requests ++ [⟨key, required, calls⟩]) task
      (background ∪ calls.handOver (task requests.length)) := by
  have hold : Held requests task (background ∪ calls.handOver (task requests.length)) :=
    hheld.mono Finset.subset_union_left
  refine ⟨Records.forall_getElem?_concat hold.tracked htracked,
    Records.forall_getElem?_concat hold.held fun hended entry hentry => ?_⟩
  exact Or.inr (Finset.mem_union_right _ (Calls.mem_handOver htracked hended hentry _))

/-- One request moves on; where its `_gather` ends with that, its tasks are handed over. -/
theorem Held.set (hheld : Held requests task background) {index : Nat} {request : Request α}
    (hrequest : requests[index]? = some request) {calls : Calls α} (htracked : calls.Tracked)
    (hlater : request.calls.Later calls) (hsubset : background ⊆ background')
    (hhanded : request.calls.gather.exit = none → calls.gather.exit.isSome →
      calls.handOver (task index) ⊆ background') :
    Held (requests.set index { request with calls := calls }) task background' := by
  have hold := hheld.mono hsubset
  refine ⟨Records.forall_getElem?_set hold.tracked htracked,
    Records.forall_getElem?_set hold.held fun hended entry hentry => ?_⟩
  cases hexit : request.calls.gather.exit with
  | none => exact Or.inr (hhanded hexit hended (Calls.mem_handOver htracked hended hentry _))
  | some outcome =>
      -- an ended wait has not moved, so its tasks were handed over before
      have hsame := hlater.exit_stays (by simp [hexit])
      simp only [hsame] at hentry
      refine (hold.held index request hrequest (by simp [hexit]) entry hentry).imp_left ?_
      exact hlater.result_stays entry

/-- A task that leaves the background set has finished. -/
theorem Held.erase (hheld : Held requests task background) {discarded : CallTask}
    (hfinished : ∀ index entry, task index entry = discarded → ∀ request : Request α,
      requests[index]? = some request → (request.calls.result entry).isSome) :
    Held requests task (background.erase discarded) := by
  refine ⟨hheld.tracked, ?_⟩
  intro index request hrequest hended entry hentry
  rcases hheld.held index request hrequest hended entry hentry with hresult | hmem
  · exact Or.inl hresult
  · by_cases heq : task index entry = discarded
    · exact Or.inl (hfinished index entry heq request hrequest)
    · exact Or.inr (Finset.mem_erase.mpr ⟨heq, hmem⟩)

/-- Every task of an ended request has finished or is in the background set. -/
theorem Held.started (hheld : Held requests task background) {index : Nat} {request : Request α}
    (hrequest : requests[index]? = some request) (hended : request.calls.gather.exit.isSome)
    {entry : Nat} (hentry : entry ∈ request.calls.started) :
    (request.calls.result entry).isSome ∨ task index entry ∈ background := by
  rcases (hheld.tracked index request hrequest).waited entry hentry with hresult | hpending
  · exact Or.inl hresult
  · exact hheld.held index request hrequest hended entry hpending

end Held

section Requests

variable {α : Type} {requests : List (Request α)}

/-- Requests only move on. -/
def RequestsLater (requests next : List (Request α)) : Prop :=
  ∀ (index : Nat) (request : Request α), requests[index]? = some request →
    ∃ later, next[index]? = some later ∧ request.calls.Later later.calls

theorem RequestsLater.refl (requests : List (Request α)) : RequestsLater requests requests :=
  fun _ request hrequest => ⟨request, hrequest, Calls.Later.refl _⟩

theorem RequestsLater.trans {next last : List (Request α)} (hfirst : RequestsLater requests next)
    (hsecond : RequestsLater next last) : RequestsLater requests last := by
  intro index request hrequest
  obtain ⟨middle, hmiddle, hlater⟩ := hfirst index request hrequest
  obtain ⟨later, hlast, hlater'⟩ := hsecond index middle hmiddle
  exact ⟨later, hlast, hlater.trans hlater'⟩

theorem RequestsLater.append (requests added : List (Request α)) :
    RequestsLater requests (requests ++ added) := by
  intro index request hrequest
  exact Records.exists_getElem?_append (fun request later => request.calls.Later later.calls)
    added hrequest (Calls.Later.refl _)

theorem RequestsLater.set {index : Nat} {request : Request α} {calls : Calls α}
    (hrequest : requests[index]? = some request) (hlater : request.calls.Later calls) :
    RequestsLater requests (requests.set index { request with calls := calls }) := by
  intro other found hfound
  refine Records.exists_getElem?_set (fun request later => request.calls.Later later.calls)
    hrequest ?_ hfound (Calls.Later.refl _)
  exact hlater

/-- What the requests started out with, in the order they came in. -/
def arrivals (requests : List (Request α)) : List (String × Int) :=
  requests.map fun request => (request.key, request.required)

theorem arrivals_set {index : Nat} {request : Request α} {calls : Calls α}
    (hrequest : requests[index]? = some request) :
    arrivals (requests.set index { request with calls := calls }) = arrivals requests := by
  unfold arrivals
  obtain ⟨hbound, rfl⟩ := List.getElem?_eq_some_iff.mp hrequest
  rw [List.map_set]
  apply List.ext_getElem
  · simp
  · intro other hset hmap
    by_cases heq : index = other
    · subst heq
      simp
    · simp [List.getElem_set_ne heq]

end Requests

namespace CoordinatorNode

variable {node : CoordinatorNode} {state next : Coordinating V}

/-- The entries a write's tasks go to: every one, once. -/
def WritesAll (node : CoordinatorNode) (request : Request Unit) : Prop :=
  request.calls.started = List.range node.peers.length

/-- The entries a read's tasks go to: different ones, one fewer than the quorum. -/
structure ReadsQuorum (node : CoordinatorNode)
    (request : Request (Option (VersionedValue V))) : Prop where
  nodup : request.calls.started.Nodup
  entry_lt : ∀ entry ∈ request.calls.started, entry < node.peers.length
  length_eq : (request.calls.started.length : Int) = request.required - 1

/-- A sample of the entries has the size it was drawn with. -/
theorem readsQuorum_read (hpeers : node.peers.length + 1 = node.nTotal) {key : String}
    {required : Int} (hrequired : 1 ≤ required ∧ required ≤ node.nTotal) {sample : List Nat}
    (hsample : IsSample (List.range node.peers.length) (required - 1) sample) :
    node.ReadsQuorum (V := V)
      ⟨key, required, Calls.read node.peers (required - 1) sample⟩ := by
  have hcount : ((node.peers.length : Nat) : Int) + 1 = node.nTotal := by exact_mod_cast hpeers
  have hentries : ∀ entry ∈ readPeers (List.range node.peers.length) (required - 1) sample,
      entry < node.peers.length := by
    intro entry hentry
    unfold readPeers selectReadPeers at hentry
    split at hentry
    · simp at hentry
    · split at hentry
      · exact List.mem_range.mp hentry
      · next hmany =>
          have hsub := ((hsample.resolve_left hmany).2).subset hentry
          exact List.mem_range.mp hsub
  refine ⟨nodup_readPeers List.nodup_range hsample, hentries, ?_⟩
  simp only [Calls.read]
  unfold readPeers selectReadPeers
  split
  · next hlocal =>
      simp only [List.length_nil]
      omega
  · split
    · next hfew =>
        rw [List.length_range] at hfew ⊢
        omega
    · next hmany => exact (hsample.resolve_left hmany).1

/-- One request after a move of its tasks or of its `_gather`, and the background set. -/
structure Moves {α : Type} (request : Request α) (calls : Calls α) (task : Nat → CallTask)
    (background background' : Finset CallTask) : Prop where
  later : request.calls.Later calls
  tracked : request.calls.Tracked → calls.Tracked
  background_le : background ⊆ background'
  handed : request.calls.gather.exit = none → calls.gather.exit.isSome →
    calls.handOver task ⊆ background'

theorem moves_finish {α : Type} {request : Request α} {calls : Calls α} {entry : Nat}
    {result : Except PyError (Bool × α)} (hcalls : request.calls.finish entry result = some calls)
    (task : Nat → CallTask) (background : Finset CallTask) :
    Moves request calls task background background := by
  refine ⟨Calls.later_finish hcalls, fun htracked => htracked.finish hcalls, subset_rfl, ?_⟩
  intro hrunning hended
  obtain ⟨_, rfl⟩ := Calls.finish_eq_some.mp hcalls
  rw [hrunning] at hended
  cases hended

theorem moves_wake {α : Type} {request : Request α} {calls : Calls α} {needed : Int}
    {signal : Signal Nat} (hcalls : request.calls.wake needed signal = some calls)
    (task : Nat → CallTask) (background : Finset CallTask) :
    Moves request calls task background (background ∪ calls.handOver task) where
  later := Calls.later_wake hcalls
  tracked htracked := htracked.wake hcalls
  background_le := Finset.subset_union_left
  handed _ _ := Finset.subset_union_right

/-- What an action changes. -/
inductive Effect (node : CoordinatorNode) (state : Coordinating V) :
    CoordinatorAction V → Coordinating V → Prop
  | rejected (action : CoordinatorAction V) (hput : node.acceptedPut action = none)
      (hget : node.acceptedGet action = none) : Effect node state action state
  | put (key : String) (w : Option Int) (required : Int)
      (haccepted : node.acceptedPut (.put key w : CoordinatorAction V) = some (key, required)) :
      Effect node state (.put key w) { state with
        puts := state.puts ++ [⟨key, required, .replicateWrite node.peers (required - 1)⟩]
        background := state.background ∪
          (Calls.replicateWrite node.peers (required - 1)).handOver (.write state.puts.length) }
  | get (key : String) (r : Option Int) (sample : List Nat) (required : Int)
      (haccepted : node.acceptedGet (.get key r sample : CoordinatorAction V) =
        some (key, required))
      (hrequired : 1 ≤ required ∧ required ≤ node.nTotal)
      (hsample : IsSample (List.range node.peers.length) (required - 1) sample) :
      Effect node state (.get key r sample) { state with
        gets := state.gets ++ [⟨key, required, .read node.peers (required - 1) sample⟩]
        background := state.background ∪
          (Calls.read (V := V) node.peers (required - 1) sample).handOver
            (.read state.gets.length) }
  | movePut (action : CoordinatorAction V) (put : Nat) (request : Request Unit)
      (calls : Calls Unit) (background : Finset CallTask)
      (hnew : node.acceptedPut action = none ∧ node.acceptedGet action = none)
      (hrequest : state.puts[put]? = some request)
      (hmoves : Moves request calls (.write put) state.background background) :
      Effect node state action { state with
        puts := state.puts.set put { request with calls := calls }, background := background }
  | moveGet (action : CoordinatorAction V) (get : Nat)
      (request : Request (Option (VersionedValue V))) (calls : Calls (Option (VersionedValue V)))
      (background : Finset CallTask)
      (hnew : node.acceptedPut action = none ∧ node.acceptedGet action = none)
      (hrequest : state.gets[get]? = some request)
      (hmoves : Moves request calls (.read get) state.background background) :
      Effect node state action { state with
        gets := state.gets.set get { request with calls := calls }, background := background }
  | discard (task : CallTask) (hfinished : state.finished task) :
      Effect node state (.discard task)
        { state with background := state.background.erase task }

theorem effect_of_step {action : CoordinatorAction V} (hnext : node.step state action = some next) :
    node.Effect state action next := by
  cases action with
  | put key w =>
      simp only [step] at hnext
      cases haccepted : node.acceptedQuorum w node.config.defaultW "w" with
      | none =>
          rw [haccepted] at hnext
          obtain rfl := Option.some.inj hnext
          exact .rejected _ (by simp [acceptedPut, haccepted]) rfl
      | some required =>
          rw [haccepted] at hnext
          obtain rfl := Option.some.inj hnext
          exact .put key w required (by simp [acceptedPut, haccepted])
  | get key r sample =>
      simp only [step] at hnext
      cases haccepted : node.acceptedQuorum r node.config.defaultR "r" with
      | none =>
          rw [haccepted] at hnext
          obtain rfl := Option.some.inj hnext
          exact .rejected _ rfl (by simp [acceptedGet, haccepted])
      | some required =>
          simp only [haccepted] at hnext
          split at hnext
          · next hsample =>
              obtain rfl := Option.some.inj hnext
              exact .get key r sample required (by simp [acceptedGet, haccepted])
                (node.acceptedQuorum_eq_some haccepted) hsample
          · cases hnext
  | finishWrite put entry reply =>
      simp only [step, Option.bind_eq_bind, Option.bind_eq_some_iff, Option.pure_def,
        Option.some.injEq] at hnext
      obtain ⟨request, hrequest, calls, hcalls, rfl⟩ := hnext
      exact .movePut _ put request calls _ ⟨rfl, rfl⟩ hrequest (moves_finish hcalls _ _)
  | finishRead get entry reply =>
      simp only [step, Option.bind_eq_bind, Option.bind_eq_some_iff, Option.pure_def,
        Option.some.injEq] at hnext
      obtain ⟨request, hrequest, calls, hcalls, rfl⟩ := hnext
      exact .moveGet _ get request calls _ ⟨rfl, rfl⟩ hrequest (moves_finish hcalls _ _)
  | wakePut put signal =>
      simp only [step, Option.bind_eq_bind, Option.bind_eq_some_iff, Option.pure_def,
        Option.some.injEq] at hnext
      obtain ⟨request, hrequest, calls, hcalls, rfl⟩ := hnext
      exact .movePut _ put request calls _ ⟨rfl, rfl⟩ hrequest (moves_wake hcalls _ _)
  | wakeGet get signal =>
      simp only [step, Option.bind_eq_bind, Option.bind_eq_some_iff, Option.pure_def,
        Option.some.injEq] at hnext
      obtain ⟨request, hrequest, calls, hcalls, rfl⟩ := hnext
      exact .moveGet _ get request calls _ ⟨rfl, rfl⟩ hrequest (moves_wake hcalls _ _)
  | discard task =>
      simp only [step] at hnext
      split at hnext
      · next hguard =>
          obtain rfl := Option.some.inj hnext
          exact .discard task hguard.2
      · cases hnext

theorem later_of_step {action : CoordinatorAction V} (hnext : node.step state action = some next) :
    RequestsLater state.puts next.puts ∧ RequestsLater state.gets next.gets := by
  cases effect_of_step hnext with
  | rejected => exact ⟨.refl _, .refl _⟩
  | put => exact ⟨.append _ _, .refl _⟩
  | get => exact ⟨.refl _, .append _ _⟩
  | movePut _ put request calls background hnew hrequest hmoves =>
      exact ⟨.set hrequest hmoves.later, .refl _⟩
  | moveGet _ get request calls background hnew hrequest hmoves =>
      exact ⟨.refl _, .set hrequest hmoves.later⟩
  | discard => exact ⟨.refl _, .refl _⟩

/-- What holds of a coordinator after the actions `history`. -/
structure Kept (node : CoordinatorNode) (history : List (CoordinatorAction V))
    (state : Coordinating V) : Prop where
  puts_held : Held state.puts .write state.background
  gets_held : Held state.gets .read state.background
  puts_start : ∀ request ∈ state.puts, node.WritesAll request
  gets_start : ∀ request ∈ state.gets, node.ReadsQuorum request
  puts_arrived : arrivals state.puts = history.filterMap node.acceptedPut
  gets_arrived : arrivals state.gets = history.filterMap node.acceptedGet

theorem Kept.init : node.Kept [] (init : Coordinating V) where
  puts_held := Held.nil _
  gets_held := Held.nil _
  puts_start _ hmem := by cases hmem
  gets_start _ hmem := by cases hmem
  puts_arrived := rfl
  gets_arrived := rfl

/-- The done callback drops a finished task only. -/
theorem Kept.discard {history : List (CoordinatorAction V)} (hkept : node.Kept history state)
    {task : CallTask} (hfinished : state.finished task) :
    node.Kept (history ++ [.discard task])
      { state with background := state.background.erase task } := by
  refine ⟨?_, ?_, hkept.puts_start, hkept.gets_start, ?_, ?_⟩
  · apply hkept.puts_held.erase
    rintro put entry rfl request hrequest
    simpa [Coordinating.finished, hrequest] using hfinished
  · apply hkept.gets_held.erase
    rintro get entry rfl request hrequest
    simpa [Coordinating.finished, hrequest] using hfinished
  · rw [List.filterMap_append, hkept.puts_arrived]
    exact (List.append_nil _).symm
  · rw [List.filterMap_append, hkept.gets_arrived]
    exact (List.append_nil _).symm

theorem Kept.step (hpeers : node.peers.length + 1 = node.nTotal)
    {history : List (CoordinatorAction V)} (hkept : node.Kept history state)
    {action : CoordinatorAction V} (hnext : node.step state action = some next) :
    node.Kept (history ++ [action]) next := by
  cases effect_of_step hnext with
  | rejected _ hput hget =>
      refine ⟨hkept.puts_held, hkept.gets_held, hkept.puts_start, hkept.gets_start, ?_, ?_⟩
      · simp [List.filterMap_append, hput, hkept.puts_arrived]
      · simp [List.filterMap_append, hget, hkept.gets_arrived]
  | put key w required haccepted =>
      have hpeersHeld := hkept.puts_held.append key required
        (Calls.Tracked.replicateWrite node.peers (required - 1))
      refine ⟨hpeersHeld, hkept.gets_held.mono Finset.subset_union_left, ?_, hkept.gets_start,
        ?_, ?_⟩
      · exact Records.forall_mem_concat hkept.puts_start rfl
      · simp [arrivals, List.filterMap_append, haccepted, ← hkept.puts_arrived]
      · simp [List.filterMap_append, acceptedGet, hkept.gets_arrived]
  | get key r sample required haccepted hrequired hsample =>
      have hreadHeld := hkept.gets_held.append key required
        (Calls.Tracked.read node.peers (required - 1) sample)
      refine ⟨hkept.puts_held.mono Finset.subset_union_left, hreadHeld, hkept.puts_start, ?_,
        ?_, ?_⟩
      · exact Records.forall_mem_concat hkept.gets_start
          (readsQuorum_read hpeers hrequired hsample)
      · simp [List.filterMap_append, acceptedPut, hkept.puts_arrived]
      · simp [arrivals, List.filterMap_append, haccepted, ← hkept.gets_arrived]
  | movePut _ put request calls background hnew hrequest hmoves =>
      have hbefore := hkept.puts_held.tracked put request hrequest
      refine ⟨hkept.puts_held.set hrequest (hmoves.tracked hbefore) hmoves.later
          hmoves.background_le hmoves.handed,
        hkept.gets_held.mono hmoves.background_le, ?_, hkept.gets_start, ?_, ?_⟩
      · refine Records.forall_mem_set hkept.puts_start put ?_
        exact hmoves.later.started_eq.trans
          (hkept.puts_start request (List.mem_of_getElem? hrequest))
      · simp [List.filterMap_append, hnew.1, arrivals_set hrequest, hkept.puts_arrived]
      · simp [List.filterMap_append, hnew.2, hkept.gets_arrived]
  | moveGet _ get request calls background hnew hrequest hmoves =>
      have hbefore := hkept.gets_held.tracked get request hrequest
      refine ⟨hkept.puts_held.mono hmoves.background_le,
        hkept.gets_held.set hrequest (hmoves.tracked hbefore) hmoves.later
          hmoves.background_le hmoves.handed, hkept.puts_start, ?_, ?_, ?_⟩
      · refine Records.forall_mem_set hkept.gets_start get ?_
        obtain ⟨hnodup, hlt, hlength⟩ :=
          hkept.gets_start request (List.mem_of_getElem? hrequest)
        rw [← hmoves.later.started_eq] at hnodup hlt hlength
        exact ⟨hnodup, hlt, hlength⟩
      · simp [List.filterMap_append, hnew.1, hkept.puts_arrived]
      · simp [List.filterMap_append, hnew.2, arrivals_set hrequest, hkept.gets_arrived]
  | discard task hfinished => exact hkept.discard hfinished

theorem run_kept (hpeers : node.peers.length + 1 = node.nTotal)
    {actions : List (CoordinatorAction V)} (hrun : Runs.run node.step init actions = some state) :
    node.Kept actions state :=
  Runs.run_history_invariant node.Kept (fun _ _ _ _ hkept hnext => hkept.step hpeers hnext)
    Kept.init hrun

theorem run_later {actions : List (CoordinatorAction V)}
    (hrun : Runs.run node.step state actions = some next) :
    RequestsLater state.puts next.puts ∧ RequestsLater state.gets next.gets := by
  apply Runs.run_history_invariant
    (fun _ later => RequestsLater state.puts later.puts ∧ RequestsLater state.gets later.gets)
    ?_ ⟨.refl _, .refl _⟩ hrun
  intro _ middle action later hmiddle hlater
  have hstep := later_of_step hlater
  exact ⟨hmiddle.1.trans hstep.1, hmiddle.2.trans hstep.2⟩

/-- A task of a request that had ended before has finished, or is still held. -/
theorem held_of_later {α : Type} {requests final : List (Request α)} {task : Nat → Nat → CallTask}
    {background : Finset CallTask} (hheld : Held final task background)
    (hlater : RequestsLater requests final) {index : Nat} {request : Request α}
    (hrequest : requests[index]? = some request) (hended : request.calls.gather.exit.isSome)
    {entry : Nat} (hentry : entry ∈ request.calls.started) :
    (∃ later, final[index]? = some later ∧ (later.calls.result entry).isSome) ∨
      task index entry ∈ background := by
  obtain ⟨later, hfound, hmoved⟩ := hlater index request hrequest
  have hstill : later.calls.gather.exit.isSome := by
    rw [hmoved.exit_stays hended]
    exact hended
  rcases hheld.started hfound hstill (hmoved.started_eq ▸ hentry) with hresult | hmem
  · exact Or.inl ⟨later, hfound, hresult⟩
  · exact Or.inr hmem

/-- In every run of a coordinator each accepted PUT starts one call for every peer entry
and each accepted GET one for all but one of its quorum, to different entries; and from
the moment its `_gather` has ended, however it has, each call has finished or is in the
background set. -/
theorem fan_out_exact_and_kept (node : CoordinatorNode)
    (hpeers : node.peers.length + 1 = node.nTotal) {actions : List (CoordinatorAction V)}
    {final : Coordinating V} (hrun : Runs.run node.step init actions = some final) :
    (arrivals final.puts = actions.filterMap node.acceptedPut ∧
      arrivals final.gets = actions.filterMap node.acceptedGet) ∧
    (∀ request ∈ final.puts, request.calls.started = List.range node.peers.length) ∧
    (∀ request ∈ final.gets, request.calls.started.Nodup ∧
      (∀ entry ∈ request.calls.started, entry < node.peers.length) ∧
      (request.calls.started.length : Int) = request.required - 1) ∧
    ∀ before after middle, actions = before ++ after →
      Runs.run node.step init before = some middle →
      (∀ put request, middle.puts[put]? = some request → request.calls.gather.exit.isSome →
        ∀ entry ∈ request.calls.started,
          (∃ later, final.puts[put]? = some later ∧ (later.calls.result entry).isSome) ∨
            CallTask.write put entry ∈ final.background) ∧
      ∀ get request, middle.gets[get]? = some request → request.calls.gather.exit.isSome →
        ∀ entry ∈ request.calls.started,
          (∃ later, final.gets[get]? = some later ∧ (later.calls.result entry).isSome) ∨
            CallTask.read get entry ∈ final.background := by
  have hkept := run_kept hpeers hrun
  refine ⟨⟨hkept.puts_arrived, hkept.gets_arrived⟩, hkept.puts_start, ?_, ?_⟩
  · intro request hmem
    obtain ⟨hnodup, hlt, hlength⟩ := hkept.gets_start request hmem
    exact ⟨hnodup, hlt, hlength⟩
  · rintro before after middle rfl hbefore
    obtain ⟨middle', hmiddle, hafter⟩ := (Runs.run_append_eq_some _).mp hrun
    obtain rfl : middle' = middle := Option.some.inj (hmiddle.symm.trans hbefore)
    obtain ⟨hputs, hgets⟩ := run_later hafter
    constructor
    · intro put request hrequest hended entry hentry
      exact held_of_later hkept.puts_held hputs hrequest hended hentry
    · intro get request hrequest hended entry hentry
      exact held_of_later hkept.gets_held hgets hrequest hended hentry

/-- Three nodes, of which the first coordinates. -/
def trioNode : CoordinatorNode where
  config := ⟨[⟨"127.0.0.1", 9001⟩, ⟨"127.0.0.1", 9002⟩, ⟨"127.0.0.1", 9003⟩], 2, 2, .finite 2⟩
  ownPort := 9001

/-- A write stops waiting after one ack, its other call finishes in the background, and a
read is cancelled. -/
def trioActions : List (CoordinatorAction Nat) :=
  [.put "a" none, .get "a" (some 2) [1], .finishWrite 0 1 (replyOf (.ok ⟨true⟩)),
    .wakePut 0 (.done [1]), .wakeGet 0 .cancelled, .finishWrite 0 0 (.error .httpError),
    .discard (.write 0 0)]

theorem trio_fan_out_kept :
    ∃ final, Runs.run trioNode.step init trioActions = some final ∧
      arrivals final.puts = [("a", 2)] ∧
      (∀ request ∈ final.puts, request.calls.started = [0, 1]) ∧
      ∀ get request, final.gets[get]? = some request → request.calls.gather.exit.isSome →
        ∀ entry ∈ request.calls.started,
          (∃ later, final.gets[get]? = some later ∧ (later.calls.result entry).isSome) ∨
            CallTask.read get entry ∈ final.background := by
  have hsome : (Runs.run trioNode.step init trioActions).isSome := by decide
  have hrun := (Option.some_get hsome).symm
  obtain ⟨⟨hputs, _⟩, hstart, _, hlater⟩ := fan_out_exact_and_kept trioNode (by decide) hrun
  exact ⟨_, hrun, hputs, hstart, (hlater trioActions [] _ (List.append_nil _).symm hrun).2⟩

end CoordinatorNode

end KvReplication.Leaderless
