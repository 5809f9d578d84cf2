import KvReplication.Foundation.Registers
import KvReplication.Leaderless.MonotoneReads

/-! # What clients see of a run

The requests of a key, what each of them wrote or was answered with, and which of them
had ended before which others began. A write has ended once it was answered 200: one
that failed may still reach the nodes. A read answered 503 shows nothing.
-/

namespace KvReplication.Leaderless

open LastWriterWins WaitLoop Registers

variable {V : Type} {cluster : Cluster} {state next : State V} {key : String}

/-- A request of a run, by its number among the writes or the reads. -/
inductive ClientRequest where
  | put (number : Nat)
  | get (number : Nat)

/-- What a read showed its client: a version, or with 404 that there is none. -/
def GetOp.shown (config : ClusterConfig) (read : GetOp V) :
    Option (Option (VersionedValue V)) :=
  match read.answer config with
  | some (.ok (.ok response)) => some (some response.version)
  | some (.ok (.error exception)) => if exception.statusCode = 404 then some none else none
  | _ => none

theorem GetOp.shown_cases {config : ClusterConfig} {read : GetOp V}
    {shown : Option (VersionedValue V)} (hshown : read.shown config = some shown) :
    ∃ result, read.answer config = some (.ok result) ∧
      (∀ exception, result = .error exception → exception.statusCode = 404) ∧
      ∀ response, result = .ok response → shown = some response.version := by
  unfold GetOp.shown at hshown
  split at hshown
  · next response hanswer =>
      refine ⟨.ok response, hanswer, ?_, ?_⟩
      · intro exception herror
        cases herror
      · intro other heq
        obtain rfl := Except.ok.inj heq
        exact (Option.some.inj hshown).symm
  · next exception hanswer =>
      split at hshown
      · next hstatus =>
          refine ⟨.error exception, hanswer, ?_, ?_⟩
          · intro other herror
            exact Except.error.inj herror ▸ hstatus
          · intro response heq
            cases heq
      · cases hshown
  · cases hshown

/-- A read that shows a version was answered 200 with it. -/
theorem GetOp.answer_of_shown {config : ClusterConfig} {read : GetOp V} {version : VersionedValue V}
    (hshown : read.shown config = some (some version)) :
    ∃ response, read.answer config = some (.ok (.ok response)) ∧ response.version = version := by
  unfold shown at hshown
  split at hshown
  · next response hanswer =>
      exact ⟨response, hanswer, Option.some.inj (Option.some.inj hshown)⟩
  · split at hshown
    · cases Option.some.inj hshown
    · cases hshown
  · cases hshown

/-- The writes of `key` that were accepted and the reads of it that showed something. -/
def State.requests (cluster : Cluster) (key : String) (state : State V) :
    List (ClientRequest × Effect (VersionedValue V)) :=
  (state.puts.zipIdx.filterMap fun entry =>
    if entry.1.key = key then some (.put entry.2, .write entry.1.version) else none) ++
  state.gets.zipIdx.filterMap fun entry =>
    if entry.1.key = key then
      (entry.1.shown cluster.config).map fun shown => (.get entry.2, .read shown)
    else none

theorem mem_requests {request : ClientRequest} {effect : Effect (VersionedValue V)} :
    (request, effect) ∈ state.requests cluster key ↔
      (∃ number op, state.puts[number]? = some op ∧ op.key = key ∧ request = .put number ∧
        effect = .write op.version) ∨
      ∃ number read shown, state.gets[number]? = some read ∧ read.key = key ∧
        read.shown cluster.config = some shown ∧ request = .get number ∧ effect = .read shown := by
  simp only [State.requests, List.mem_append, List.mem_filterMap, Prod.exists,
    List.mem_zipIdx_iff_getElem?, Option.ite_none_right_eq_some, Option.some.injEq,
    Option.map_eq_some_iff, Prod.mk.injEq]
  constructor
  · rintro (⟨op, number, hop, hkey, rfl, rfl⟩ |
      ⟨read, number, hread, hkey, shown, hshown, rfl, rfl⟩)
    · exact Or.inl ⟨number, op, hop, hkey, rfl, rfl⟩
    · exact Or.inr ⟨number, read, shown, hread, hkey, hshown, rfl, rfl⟩
  · rintro (⟨number, op, hop, hkey, rfl, rfl⟩ |
      ⟨number, read, shown, hread, hkey, hshown, rfl, rfl⟩)
    · exact Or.inl ⟨op, number, hop, hkey, rfl, rfl⟩
    · exact Or.inr ⟨read, number, hread, hkey, shown, hshown, rfl, rfl⟩

/-! ### What lasts -/

/-- The later record of a read that was answered has the same answer. -/
def GetOp.KeepsAnswer (config : ClusterConfig) (read later : GetOp V) : Prop :=
  read.SameRead later ∧
    ∀ answer, read.answer config = some answer → later.answer config = some answer

theorem GetOp.KeepsAnswer.refl (config : ClusterConfig) (read : GetOp V) :
    read.KeepsAnswer config read :=
  ⟨⟨rfl, rfl, rfl, rfl⟩, fun _ hanswer => hanswer⟩

theorem GetOp.KeepsAnswer.shown {config : ClusterConfig} {read later : GetOp V}
    (hkeeps : read.KeepsAnswer config later) {shown : Option (VersionedValue V)}
    (hshown : read.shown config = some shown) : later.shown config = some shown := by
  obtain ⟨result, hanswer, _, _⟩ := GetOp.shown_cases hshown
  unfold GetOp.shown at hshown ⊢
  rw [hkeeps.2 _ hanswer]
  rwa [hanswer] at hshown

/-- Whatever a node was heard to hold is the version of some write of the key. -/
def WrittenEntry (state : State V) (key : String) (_node : Node)
    (entry : Option (VersionedValue V)) : Prop :=
  ∀ stored, entry = some stored → ∃ op ∈ state.puts, op.key = key ∧ op.version = stored

theorem WrittenEntry.step {action : Action V} (hnext : cluster.step state action = some next)
    {node : Node} {entry : Option (VersionedValue V)}
    (hwritten : WrittenEntry state key node entry) : WrittenEntry next key node entry := by
  intro stored hstored
  obtain ⟨op, hop, hkey, hversion⟩ := hwritten stored hstored
  obtain ⟨put, hput⟩ := List.getElem?_of_mem hop
  obtain ⟨later, hlater, _, hlaterKey, _, hlaterVersion⟩ := put_of_step hnext hput
  exact ⟨later, List.mem_of_getElem? hlater, hlaterKey.trans hkey,
    hlaterVersion.trans hversion⟩

/-- The reads of `key` heard of versions that were written. -/
structure ReadsWritten (cluster : Cluster) (key : String) (state : State V) : Prop where
  sound : state.Sound cluster
  reads : ∀ get read, 0 ≤ get → state.gets[get]? = some read → read.key = key →
    read.Sound cluster (WrittenEntry state key)

theorem ReadsWritten.init : ReadsWritten cluster key (Cluster.init : State V) where
  sound := State.Sound.init
  reads get read _ hread := by simp [Cluster.init] at hread

theorem ReadsWritten.step (hadmitted : Admitted key) (hsafe : UrlSafe key)
    (hwritten : ReadsWritten cluster key state) {action : Action V} (hkeeps : action.KeepsKeys)
    (hnext : cluster.step state action = some next) : ReadsWritten cluster key next where
  sound := hwritten.sound.step hkeeps hnext
  reads := by
    have hstored : ∀ node, WrittenEntry next key node ((state.stores node).get key) := by
      intro node
      have hnode : WrittenEntry state key node ((state.stores node).get key) :=
        fun stored hstored => hwritten.sound.stored node key stored hstored
      exact hnode.step hnext
    apply (getsEffect_of_step hnext).sound hadmitted hsafe hstored
    intro get read hget hread hkey
    exact (hwritten.reads get read hget hread hkey).mono fun _ _ hentry => hentry.step hnext

theorem ReadsWritten.run (hadmitted : Admitted key) (hsafe : UrlSafe key)
    {actions : List (Action V)} {final : State V}
    (hkeeps : ∀ action ∈ actions, action.KeepsKeys)
    (hrun : Runs.run cluster.step Cluster.init actions = some final) :
    ReadsWritten cluster key final :=
  Runs.run_invariant (ReadsWritten cluster key)
    (fun _ _ _ hkeep hwritten hnext => hwritten.step hadmitted hsafe hkeep hnext) hkeeps
    ReadsWritten.init hrun

/-- A read shows versions of writes only. -/
theorem ReadsWritten.shown (hwritten : ReadsWritten cluster key state) {get : Nat}
    {read : GetOp V} (hread : state.gets[get]? = some read) (hkey : read.key = key)
    {version : VersionedValue V} (hshown : read.shown cluster.config = some (some version)) :
    ∃ op ∈ state.puts, op.key = key ∧ op.version = version := by
  obtain ⟨response, hanswer, rfl⟩ := GetOp.answer_of_shown hshown
  obtain ⟨outcome, hexit, houtcome⟩ := Option.map_eq_some_iff.mp hanswer
  cases outcome with
  | error error => simp [Except.map] at houtcome
  | ok entries =>
      have hwinner := (getAnswer_eq_ok_iff.mp (Except.ok.inj houtcome)).2.2
      rw [pickWinner_eq_offerAll] at hwinner
      have hcandidate : response.version ∈ candidates read.localEntry entries :=
        (offerAll_mem hwinner).resolve_right (by simp)
      obtain ⟨node, _, hentry⟩ :=
        (hwritten.reads get read (Nat.zero_le get) hread hkey).heard hexit hcandidate
      exact hentry _ rfl

end KvReplication.Leaderless
