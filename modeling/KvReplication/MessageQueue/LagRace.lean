import KvReplication.MessageQueue.Lag
import KvReplication.MessageQueue.System
import Mathlib.Algebra.Order.BigOperators.Group.List
import Mathlib.Algebra.Order.Group.Int

/-! # Computing the lag of a busy follower

`_compute_lag` reads the end offsets of all its partitions first and then the committed
offset of one after the other. Meanwhile messages are published and the follower's own
loop goes on committing, so what is committed may be ahead of the end offset it is
compared with.
-/

namespace KvReplication.MessageQueue

variable {V Bytes : Type} {partitions : Nat}

/-- Where a `_compute_lag` call stands: before its end offsets, before the next committed
offset, or done. -/
inductive LagCall (partitions : Nat) where
  | called
  | fetching (endOffsets : Fin partitions → Nat) (remaining : List (Fin partitions))
      (result : List PartitionLag)
  | returned (endOffsets : Fin partitions → Nat) (result : List PartitionLag)

namespace LagCall

/-- The loop over the sorted partitions. -/
def proceed (endOffsets : Fin partitions → Nat) (result : List PartitionLag) :
    List (Fin partitions) → LagCall partitions
  | [] => returned endOffsets result
  | partition :: rest => fetching endOffsets (partition :: rest) result

/-- The partitions whose committed offset is still to be fetched. -/
def remaining : LagCall partitions → List (Fin partitions)
  | fetching _ remaining _ => remaining
  | _ => []

/-- The entries computed so far. -/
def result : LagCall partitions → List PartitionLag
  | called => []
  | fetching _ _ result => result
  | returned _ result => result

/-- The end offsets that were read. -/
def endOffsets : LagCall partitions → Option (Fin partitions → Nat)
  | called => none
  | fetching endOffsets _ _ => some endOffsets
  | returned endOffsets _ => some endOffsets

@[simp] theorem remaining_proceed (endOffsets : Fin partitions → Nat) (result : List PartitionLag)
    (rest : List (Fin partitions)) : (proceed endOffsets result rest).remaining = rest := by
  cases rest <;> rfl

@[simp] theorem result_proceed (endOffsets : Fin partitions → Nat) (result : List PartitionLag)
    (rest : List (Fin partitions)) : (proceed endOffsets result rest).result = result := by
  cases rest <;> rfl

@[simp] theorem endOffsets_proceed (endOffsets : Fin partitions → Nat)
    (result : List PartitionLag) (rest : List (Fin partitions)) :
    (proceed endOffsets result rest).endOffsets = some endOffsets := by
  cases rest <;> rfl

end LagCall

/-- The topic, a follower and one call for its lag. -/
structure LagSystem (partitions : Nat) (V Bytes : Type) where
  log : Log partitions Bytes
  follower : State partitions V Bytes
  call : LagCall partitions

inductive LagAction (partitions : Nat) (Bytes : Type) where
  | append (partition : Fin partitions) (raw : Bytes)
  | consume (action : Action partitions)
  | readEndOffsets
  | readCommitted

namespace LagSystem

/-- The call is made. -/
def start : LagSystem partitions V Bytes := ⟨fun _ => [], init, .called⟩

/-- One action; an action that is not enabled is refused. `assigned` are the follower's
partitions in order; without any the call returns at once. -/
def step (codec : Codec V Bytes) (assigned : List (Fin partitions))
    (system : LagSystem partitions V Bytes) :
    LagAction partitions Bytes → Option (LagSystem partitions V Bytes)
  | .append partition raw => some { system with log := appendLog system.log partition raw }
  | .consume action =>
      -- a process that dies takes its call with it
      if action = .restart ∧ system.call.remaining ≠ [] then none
      else (MessageQueue.step codec system.log system.follower action).map fun follower =>
        { system with follower := follower }
  | .readEndOffsets =>
      match system.call with
      | .called => some { system with
          call := .proceed (fun partition => (system.log partition).length) [] assigned }
      | _ => none
  | .readCommitted =>
      match system.call with
      | .fetching endOffsets (partition :: rest) result =>
          let lag := partitionLag partition (endOffsets partition)
            (system.follower.committed partition)
          some { system with call := .proceed endOffsets (result ++ [lag]) rest }
      | _ => none

end LagSystem

variable {codec : Codec V Bytes} {log : Log partitions Bytes}

/-- A longer log leaves what was read from it as it was. -/
theorem State.Sound.appendLog {state : State partitions V Bytes} (hsound : state.Sound codec log)
    (partition : Fin partitions) (raw : Bytes) :
    state.Sound codec (appendLog log partition raw) where
  store_eq := hsound.store_eq
  handedIn_eq other := by
    have hwithin := hsound.next_le other
    unfold State.next at hwithin
    rw [appendLog_eq, List.drop_append_of_le_length (by omega),
      List.take_append_of_le_length (by rw [List.length_drop]; omega)]
    exact hsound.handedIn_eq other
  next_le other := by
    have hwithin := hsound.next_le other
    rw [appendLog_eq, List.length_append]
    omega
  committed_eq := hsound.committed_eq
  position_eq := hsound.position_eq
  received_eq other received offset hloop := by
    obtain ⟨hoffset, hraw⟩ := hsound.received_eq other received offset hloop
    refine ⟨hoffset, ?_⟩
    rw [appendLog_eq, List.getElem?_append_left (List.getElem?_eq_some_iff.mp hraw).1, hraw]
  applied_eq := hsound.applied_eq

/-- A commit moves its partition's offset on by one message, and nothing else moves any. -/
theorem State.Sound.committedOffset_step {state next : State partitions V Bytes}
    (hsound : state.Sound codec log) {action : Action partitions}
    (hnext : MessageQueue.step codec log state action = some next) (partition : Fin partitions) :
    next.committedOffset partition = state.committedOffset partition ∨
      (action = .commit ∧ state.loop = .applied partition (state.committedOffset partition) ∧
        next.committedOffset partition = state.committedOffset partition + 1) := by
  cases change_of_step hnext with
  | receive => exact Or.inl rfl
  | apply => exact Or.inl rfl
  | @commit applied offset hloop =>
      by_cases heq : partition = applied
      · subst heq
        have hcommitted := hsound.committed_eq partition
        have hoffset := hsound.applied_eq partition offset hloop
        simp only [hloop, Stage.uncommitted, if_true] at hcommitted
        obtain rfl : offset = state.committedOffset partition := by omega
        exact Or.inr ⟨rfl, hloop, by simp [State.committedOffset]⟩
      · exact Or.inl (by simp [State.committedOffset, heq])
  | ended => exact Or.inl rfl
  | restart => exact Or.inl rfl

namespace LagSystem

variable {assigned : List (Fin partitions)} {system next : LagSystem partitions V Bytes}
  {action : LagAction partitions Bytes}

/-- No commit goes past an end offset that was read, in a partition whose committed offset
is still to be fetched. -/
def Undisturbed (system : LagSystem partitions V Bytes) : LagAction partitions Bytes → Prop
  | .consume .commit => ∀ endOffsets, system.call.endOffsets = some endOffsets →
      ∀ partition ∈ system.call.remaining, ∀ offset,
        system.follower.loop = .applied partition offset → offset < endOffsets partition
  | _ => True

/-- A partition's lag was, or will be, computed from a commit past its end offset. -/
def Overtaken (system : LagSystem partitions V Bytes) : Prop :=
  (∃ endOffsets, system.call.endOffsets = some endOffsets ∧
    ∃ partition ∈ system.call.remaining,
      endOffsets partition < system.follower.committedOffset partition) ∨
    ∃ lag ∈ system.call.result, lag.lag < 0

/-- What was computed so far is no less than what is still uncommitted. -/
structure Tracks (assigned : List (Fin partitions)) (system : LagSystem partitions V Bytes) :
    Prop where
  remaining_le : ∀ endOffsets, system.call.endOffsets = some endOffsets →
    ∀ partition ∈ system.call.remaining,
      system.follower.committedOffset partition ≤ endOffsets partition
  result_nonneg : ∀ lag ∈ system.call.result, 0 ≤ lag.lag
  covered : ∀ endOffsets, system.call.endOffsets = some endOffsets → ∀ partition ∈ assigned,
    partition ∈ system.call.remaining ∨ ∃ lag ∈ system.call.result,
      (endOffsets partition - system.follower.committedOffset partition : Int) ≤ lag.lag

/-- What an action does, to the log and the follower or to the call. -/
inductive Change (codec : Codec V Bytes) (assigned : List (Fin partitions))
    (system : LagSystem partitions V Bytes) :
    LagAction partitions Bytes → LagSystem partitions V Bytes → Prop
  | append (partition : Fin partitions) (raw : Bytes) :
      Change codec assigned system (.append partition raw)
        { system with log := appendLog system.log partition raw }
  | consume (action : Action partitions) (follower : State partitions V Bytes)
      (hstep : MessageQueue.step codec system.log system.follower action = some follower) :
      Change codec assigned system (.consume action) { system with follower := follower }
  | readEndOffsets (hcall : system.call = .called) :
      Change codec assigned system .readEndOffsets { system with
        call := .proceed (fun partition => (system.log partition).length) [] assigned }
  | readCommitted (endOffsets : Fin partitions → Nat) (partition : Fin partitions)
      (rest : List (Fin partitions)) (result : List PartitionLag)
      (hcall : system.call = .fetching endOffsets (partition :: rest) result) :
      Change codec assigned system .readCommitted { system with
        call := .proceed endOffsets (result ++ [partitionLag partition (endOffsets partition)
          (system.follower.committed partition)]) rest }

theorem change_of_step (hnext : step codec assigned system action = some next) :
    Change codec assigned system action next := by
  cases action with
  | append partition raw =>
      obtain rfl := Option.some.inj hnext
      exact .append partition raw
  | consume action =>
      simp only [step] at hnext
      split at hnext
      · cases hnext
      · obtain ⟨follower, hstep, rfl⟩ := Option.map_eq_some_iff.mp hnext
        exact .consume action follower hstep
  | readEndOffsets =>
      simp only [step] at hnext
      split at hnext
      · next hcall =>
          obtain rfl := Option.some.inj hnext
          exact .readEndOffsets hcall
      · cases hnext
  | readCommitted =>
      simp only [step] at hnext
      split at hnext
      · next endOffsets partition rest result hcall =>
          obtain rfl := Option.some.inj hnext
          exact .readCommitted endOffsets partition rest result hcall
      · cases hnext

/-- The follower is sound whatever goes on around it. -/
theorem sound_of_step (hsound : system.follower.Sound codec system.log)
    (hnext : step codec assigned system action = some next) :
    next.follower.Sound codec next.log := by
  cases change_of_step hnext with
  | append partition raw => exact hsound.appendLog partition raw
  | consume action follower hstep => exact hsound.step hstep
  | readEndOffsets => exact hsound
  | readCommitted => exact hsound

theorem lag_partitionLag (partition : Fin partitions) (endOffset : Nat)
    (state : State partitions V Bytes) :
    (partitionLag partition endOffset (state.committed partition)).lag =
      (endOffset - state.committedOffset partition : Int) := rfl

theorem Tracks.start : (start : LagSystem partitions V Bytes).Tracks assigned where
  remaining_le endOffsets hread := by cases hread
  result_nonneg lag hlag := by cases hlag
  covered endOffsets hread := by cases hread

/-- The follower's own steps disturb the call only by a commit past an end offset. -/
theorem Tracks.consume (htracks : system.Tracks assigned)
    (hsound : system.follower.Sound codec system.log) {action : Action partitions}
    (hundisturbed : system.Undisturbed (.consume action)) {follower : State partitions V Bytes}
    (hstep : MessageQueue.step codec system.log system.follower action = some follower) :
    Tracks assigned { system with follower := follower } := by
  refine ⟨?_, htracks.result_nonneg, ?_⟩
  · intro endOffsets hread partition hremaining
    have hbefore := htracks.remaining_le endOffsets hread partition hremaining
    rcases hsound.committedOffset_step hstep partition with hsame | ⟨rfl, hloop, hmoved⟩
    · exact hsame.symm ▸ hbefore
    · have hlt := hundisturbed endOffsets hread partition hremaining _ hloop
      change follower.committedOffset partition ≤ endOffsets partition
      omega
  · intro endOffsets hread partition hassigned
    refine (htracks.covered endOffsets hread partition hassigned).imp_right ?_
    rintro ⟨lag, hlag, hle⟩
    refine ⟨lag, hlag, ?_⟩
    -- what is committed only grows
    change (endOffsets partition - follower.committedOffset partition : Int) ≤ lag.lag
    rcases hsound.committedOffset_step hstep partition with hsame | ⟨_, _, hmoved⟩
    · rw [hsame]
      exact hle
    · omega

/-- The lag of the next partition is what is uncommitted in it now. -/
theorem Tracks.readCommitted (htracks : system.Tracks assigned) {endOffsets : Fin partitions → Nat}
    {partition : Fin partitions} {rest : List (Fin partitions)} {result : List PartitionLag}
    (hcall : system.call = .fetching endOffsets (partition :: rest) result) :
    Tracks assigned { system with
      call := .proceed endOffsets (result ++ [partitionLag partition (endOffsets partition)
        (system.follower.committed partition)]) rest } := by
  have hle := htracks.remaining_le endOffsets (by rw [hcall]; rfl) partition
    (by rw [hcall]; exact List.mem_cons_self)
  have hlag := lag_partitionLag partition (endOffsets partition) system.follower
  refine ⟨?_, ?_, ?_⟩
  · intro read hread other hother
    simp only [LagCall.endOffsets_proceed, Option.some.injEq] at hread
    subst hread
    simp only [LagCall.remaining_proceed] at hother
    exact htracks.remaining_le endOffsets (by rw [hcall]; rfl) other
      (by rw [hcall]; exact List.mem_cons_of_mem _ hother)
  · intro lag hmem
    simp only [LagCall.result_proceed] at hmem
    rcases List.mem_append.mp hmem with hold | hnew
    · exact htracks.result_nonneg lag (by rw [hcall]; exact hold)
    · rw [List.mem_singleton.mp hnew, hlag]
      omega
  · intro read hread other hassigned
    simp only [LagCall.endOffsets_proceed, Option.some.injEq] at hread
    subst hread
    simp only [LagCall.remaining_proceed, LagCall.result_proceed]
    rcases htracks.covered endOffsets (by rw [hcall]; rfl) other hassigned with
      hremaining | ⟨lag, hmem, hbound⟩
    · rw [hcall] at hremaining
      rcases List.mem_cons.mp hremaining with rfl | hrest
      · exact Or.inr ⟨_, List.mem_append_right _ (List.mem_singleton_self _), hlag.ge⟩
      · exact Or.inl hrest
    · rw [hcall] at hmem
      exact Or.inr ⟨lag, List.mem_append_left _ hmem, hbound⟩

/-- An undisturbed step keeps the call on track. -/
theorem Tracks.step (htracks : system.Tracks assigned)
    (hsound : system.follower.Sound codec system.log) (hundisturbed : system.Undisturbed action)
    (hnext : LagSystem.step codec assigned system action = some next) : next.Tracks assigned := by
  cases change_of_step hnext with
  | append partition raw =>
      exact ⟨htracks.remaining_le, htracks.result_nonneg, htracks.covered⟩
  | consume action follower hstep => exact htracks.consume hsound hundisturbed hstep
  | readEndOffsets hcall =>
      refine ⟨?_, ?_, ?_⟩
      · intro endOffsets hread partition _
        simp only [LagCall.endOffsets_proceed, Option.some.injEq] at hread
        subst hread
        exact hsound.committedOffset_le partition
      · intro lag hlag
        simp at hlag
      · intro endOffsets _ partition hassigned
        exact Or.inl (by simpa using hassigned)
  | readCommitted endOffsets partition rest result hcall => exact htracks.readCommitted hcall

/-- A commit past an end offset is never made good. -/
theorem Overtaken.step (hovertaken : system.Overtaken)
    (hsound : system.follower.Sound codec system.log)
    (hnext : LagSystem.step codec assigned system action = some next) : next.Overtaken := by
  cases change_of_step hnext with
  | append partition raw => exact hovertaken
  | consume action follower hstep =>
      refine hovertaken.imp_left ?_
      rintro ⟨endOffsets, hread, partition, hremaining, hlt⟩
      refine ⟨endOffsets, hread, partition, hremaining, ?_⟩
      change endOffsets partition < follower.committedOffset partition
      rcases hsound.committedOffset_step hstep partition with hsame | ⟨_, _, hmoved⟩
      · omega
      · omega
  | readEndOffsets hcall =>
      rcases hovertaken with ⟨endOffsets, hread, _⟩ | ⟨lag, hlag, _⟩
      · rw [hcall] at hread
        cases hread
      · rw [hcall] at hlag
        cases hlag
  | readCommitted endOffsets partition rest result hcall =>
      unfold Overtaken at hovertaken ⊢
      rw [hcall] at hovertaken
      simp only [LagCall.endOffsets_proceed, LagCall.remaining_proceed, LagCall.result_proceed]
      rcases hovertaken with ⟨read, hread, other, hother, hlt⟩ | ⟨lag, hlag, hnegative⟩
      · obtain rfl := Option.some.inj hread
        rcases List.mem_cons.mp hother with rfl | hrest
        · refine Or.inr ⟨_, List.mem_append_right _ (List.mem_singleton_self _), ?_⟩
          rw [lag_partitionLag]
          omega
        · exact Or.inl ⟨endOffsets, rfl, other, hrest, hlt⟩
      · exact Or.inr ⟨lag, List.mem_append_left _ hlag, hnegative⟩

/-- A step that is not undisturbed overtakes the call. -/
theorem overtaken_of_step (hdisturbed : ¬ system.Undisturbed action)
    (hnext : LagSystem.step codec assigned system action = some next) : next.Overtaken := by
  cases change_of_step hnext with
  | append => exact absurd trivial hdisturbed
  | readEndOffsets => exact absurd trivial hdisturbed
  | readCommitted => exact absurd trivial hdisturbed
  | consume action follower hstep =>
      cases action with
      | receive => exact absurd trivial hdisturbed
      | apply => exact absurd trivial hdisturbed
      | commitFails => exact absurd trivial hdisturbed
      | cancel => exact absurd trivial hdisturbed
      | restart => exact absurd trivial hdisturbed
      | commit =>
          simp only [Undisturbed, not_forall, exists_prop, Nat.not_lt] at hdisturbed
          obtain ⟨endOffsets, hread, partition, hremaining, offset, hloop, hle⟩ := hdisturbed
          refine Or.inl ⟨endOffsets, hread, partition, hremaining, ?_⟩
          change endOffsets partition < follower.committedOffset partition
          cases MessageQueue.change_of_step hstep with
          | commit happlied =>
              obtain ⟨rfl, rfl⟩ := Stage.applied.inj (happlied.symm.trans hloop)
              simp only [State.committedOffset, Function.update_self, Option.getD_some]
              omega
          | ended haction => simp at haction

variable {final : LagSystem partitions V Bytes} {actions : List (LagAction partitions Bytes)}
  {endOffsets : Fin partitions → Nat} {result : List PartitionLag}

theorem tracks_of_run
    (halong : Runs.Along (LagSystem.step codec assigned) Undisturbed start actions)
    (hrun : Runs.run (LagSystem.step codec assigned) start actions = some final) :
    final.Tracks assigned := by
  have hboth := Runs.run_invariant_along
    (fun system => system.follower.Sound codec system.log ∧ system.Tracks assigned) ?_ halong
    ⟨State.Sound.init, Tracks.start⟩ hrun
  · exact hboth.2
  · rintro before action after hundisturbed ⟨hsound, htracks⟩ hnext
    exact ⟨sound_of_step hsound hnext, htracks.step hsound hundisturbed hnext⟩

theorem overtaken_of_run
    (hdisturbed : ¬ Runs.Along (LagSystem.step codec assigned) Undisturbed start actions)
    (hrun : Runs.run (LagSystem.step codec assigned) start actions = some final) :
    final.Overtaken := by
  have hkept : ∀ before action after, True → before.follower.Sound codec before.log →
      LagSystem.step codec assigned before action = some after →
      after.follower.Sound codec after.log :=
    fun before action after _ hsound hnext => sound_of_step hsound hnext
  obtain ⟨before, action, after, middle, next, rfl, hbefore, hnext, hfails, hafter⟩ :=
    Runs.exists_of_not_along hrun hdisturbed
  have hsound := Runs.run_invariant (fun system => system.follower.Sound codec system.log) hkept
    (fun _ _ => trivial) State.Sound.init hbefore
  have hboth : ∀ before action after, True →
      before.follower.Sound codec before.log ∧ before.Overtaken →
      LagSystem.step codec assigned before action = some after →
      after.follower.Sound codec after.log ∧ after.Overtaken := by
    rintro before action after - ⟨hsound, hovertaken⟩ hnext
    exact ⟨sound_of_step hsound hnext, hovertaken.step hsound hnext⟩
  exact (Runs.run_invariant
    (fun system => system.follower.Sound codec system.log ∧ system.Overtaken) hboth
    (fun _ _ => trivial) ⟨sound_of_step hsound hnext, overtaken_of_step hfails hnext⟩ hafter).2

/-- A call reports no less than what is missing, whatever is published, applied and
committed meanwhile, exactly when no commit goes past the end offsets it compares with. -/
theorem lag_never_under_reports_iff
    (hrun : Runs.run (LagSystem.step codec assigned) start actions = some final)
    (hreturned : final.call = .returned endOffsets result) :
    ((∀ lag ∈ result, 0 ≤ lag.lag) ∧ (totalLag result = 0 → ∀ partition ∈ assigned,
        endOffsets partition ≤ final.follower.committedOffset partition)) ↔
      Runs.Along (LagSystem.step codec assigned) Undisturbed start actions := by
  constructor
  · rintro ⟨hnonneg, -⟩
    by_contra hdisturbed
    have hovertaken := overtaken_of_run hdisturbed hrun
    unfold Overtaken at hovertaken
    rw [hreturned] at hovertaken
    rcases hovertaken with ⟨_, _, partition, hremaining, _⟩ | ⟨lag, hlag, hnegative⟩
    · exact absurd hremaining List.not_mem_nil
    · exact absurd (hnonneg lag hlag) (Int.not_le.mpr hnegative)
  · intro halong
    have htracks := tracks_of_run halong hrun
    have hnonneg : ∀ lag ∈ result, 0 ≤ lag.lag := by
      intro lag hlag
      exact htracks.result_nonneg lag (by rw [hreturned]; exact hlag)
    refine ⟨hnonneg, fun hzero partition hassigned => ?_⟩
    have hread : final.call.endOffsets = some endOffsets := by rw [hreturned]; rfl
    have hcovered := htracks.covered endOffsets hread partition hassigned
    rw [hreturned] at hcovered
    rcases hcovered with hremaining | ⟨lag, hlag, hle⟩
    · exact absurd hremaining List.not_mem_nil
    · -- a sum of terms that are not negative is 0 only if each of them is
      have hlagZero : lag.lag = 0 := by
        refine List.all_zero_of_le_zero_le_of_sum_eq_zero ?_ hzero (List.mem_map_of_mem hlag)
        intro term hterm
        obtain ⟨other, hother, rfl⟩ := List.mem_map.mp hterm
        exact hnonneg other hother
      omega

/-- A call of a follower that commits one message and applies another meanwhile. -/
def busyCall : List (LagAction 2 (Option (ReplicateRequest Nat))) :=
  [.append 0 none, .append 0 none, .readEndOffsets] ++ (consume 0).map .consume ++
    [.consume (.receive 0), .consume .apply, .readCommitted]

theorem busy_call_reports :
    ∃ (final : LagSystem 2 Nat (Option (ReplicateRequest Nat))) (endOffsets : Fin 2 → Nat)
      (result : List PartitionLag),
      Runs.run (LagSystem.step plainCodec [0]) start busyCall = some final ∧
        final.call = .returned endOffsets result ∧ totalLag result = 1 ∧
        ∀ lag ∈ result, 0 ≤ lag.lag := by
  have hundisturbed : Runs.Along (LagSystem.step (V := Nat) plainCodec [0]) Undisturbed start
      busyCall := by
    refine Runs.along_cons rfl trivial (Runs.along_cons rfl trivial (Runs.along_cons rfl trivial
      (Runs.along_cons rfl trivial (Runs.along_cons rfl trivial (Runs.along_cons rfl ?_
      (Runs.along_cons rfl trivial (Runs.along_cons rfl trivial (Runs.along_cons rfl trivial
      trivial))))))))
    -- the one commit is of offset 0, before the end offset 2
    rintro endOffsets ⟨⟩ partition - offset ⟨⟩
    decide
  exact ⟨_, _, _, rfl, rfl, rfl, ((lag_never_under_reports_iff rfl rfl).mpr hundisturbed).1⟩

/-- A message of each partition, the second published, applied and committed between the
two committed offsets. -/
def overtakenCall : List (LagAction 2 (Option (ReplicateRequest Nat))) :=
  [.append 0 none, .readEndOffsets, .readCommitted, .append 1 none] ++
    (consume 1).map .consume ++ [.readCommitted]

/-- The total is 0, of a lag of 1 and one of -1, while a message is uncommitted. -/
theorem commit_hides_lag :
    ∃ (final : LagSystem 2 Nat (Option (ReplicateRequest Nat))) (endOffsets : Fin 2 → Nat)
      (result : List PartitionLag),
      Runs.run (LagSystem.step plainCodec [0, 1]) start overtakenCall = some final ∧
        final.call = .returned endOffsets result ∧
        result.map PartitionLag.lag = [1, -1] ∧ totalLag result = 0 ∧
        final.follower.committedOffset 0 < endOffsets 0 :=
  ⟨_, _, _, rfl, rfl, rfl, rfl, by decide⟩

end LagSystem

end KvReplication.MessageQueue
