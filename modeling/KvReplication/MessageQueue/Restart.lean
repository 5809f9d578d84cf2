import KvReplication.MessageQueue.Lag

/-! # Restarts of a follower

A restart keeps the group's offsets and loses the store, so the new process replays
the log from the offsets on and never sees what lies below them. It ends up with a
complete copy if and only if nothing below the offsets was still needed.
-/

namespace KvReplication.MessageQueue

open LastWriterWins

variable {V Bytes : Type} {partitions : Nat}

section Versions

variable (codec : Codec V Bytes) (log : Log partitions Bytes)

/-- The versions logged for a key, over all partitions. -/
def loggedVersions (key : String) : List (VersionedValue V) :=
  (List.finRange partitions).flatMap fun partition => versionsOf codec key (log partition)

/-- The store holds every logged key, in a version that none logged for it is newer than. -/
def CompleteCopy (storage : KVStore V) : Prop :=
  ∀ key, loggedVersions codec log key ≠ [] → ∃ version,
    storage.get key = some version ∧
      IsNewest VersionedValue.Newer (loggedVersions codec log key) version

/-- Nothing below the offsets is needed: whatever a version down there wins against,
a version of its key at or after the offsets wins against too. -/
def SafeRestart (offsets : Fin partitions → Nat) : Prop :=
  ∀ key, ∀ version ∈ loggedVersions codec (fun partition =>
      (log partition).take (offsets partition)) key,
    ∃ later ∈ loggedVersions codec (fun partition =>
      (log partition).drop (offsets partition)) key,
      ∀ other, version.Newer other → later.Newer other

end Versions

variable {codec : Codec V Bytes} {log : Log partitions Bytes}

theorem mem_loggedVersions {key : String} {version : VersionedValue V} :
    version ∈ loggedVersions codec log key ↔
      ∃ partition, version ∈ versionsOf codec key (log partition) := by
  simp [loggedVersions]

/-- Each version logged lies below the offsets, or at or after them. -/
theorem mem_loggedVersions_split (offsets : Fin partitions → Nat) {key : String}
    {version : VersionedValue V} :
    version ∈ loggedVersions codec log key ↔
      version ∈ loggedVersions codec (fun partition =>
        (log partition).take (offsets partition)) key ∨
      version ∈ loggedVersions codec (fun partition =>
        (log partition).drop (offsets partition)) key := by
  have hsplit : ∀ partition, version ∈ versionsOf codec key (log partition) ↔
      version ∈ versionsOf codec key ((log partition).take (offsets partition)) ∨
      version ∈ versionsOf codec key ((log partition).drop (offsets partition)) := by
    intro partition
    rw [← List.mem_append, ← versionsOf_append, List.take_append_drop]
  simp only [mem_loggedVersions, hsplit, exists_or]

/-- Starting from the first message skips nothing. -/
theorem safeRestart_zero : SafeRestart codec log fun _ => 0 := by
  intro key version hversion
  obtain ⟨_, hnil⟩ := mem_loggedVersions.mp hversion
  simp [versionsOf] at hnil

section CaughtUp

variable {state : State partitions V Bytes}

/-- A caught-up follower has been handed everything from where it resumed. -/
theorem State.Sound.handedIn_of_caughtUp (hsound : state.Sound codec log)
    (hcaughtUp : state.CaughtUp log) (partition : Fin partitions) :
    state.handedIn partition = (log partition).drop (state.resumedAt partition) := by
  have hcommitted := hsound.committed_eq partition
  have hwithin := hsound.next_le partition
  rw [hcaughtUp partition] at hcommitted
  have hlength : ((log partition).drop (state.resumedAt partition)).length ≤
      (state.handedIn partition).length := by
    rw [List.length_drop]
    unfold State.next at hcommitted hwithin
    omega
  rw [hsound.handedIn_eq partition, List.take_of_length_le hlength]

/-- The versions it was handed are those at or after the offsets it resumed from. -/
theorem State.Sound.mem_handed_versions (hsound : state.Sound codec log)
    (hcaughtUp : state.CaughtUp log) {key : String} {version : VersionedValue V} :
    version ∈ versionsOf codec key (state.handed.map Prod.snd) ↔
      version ∈ loggedVersions codec (fun partition =>
        (log partition).drop (state.resumedAt partition)) key := by
  have hmem : ∀ raw, raw ∈ state.handed.map Prod.snd ↔
      ∃ partition, raw ∈ (log partition).drop (state.resumedAt partition) := by
    intro raw
    simp only [← hsound.handedIn_of_caughtUp hcaughtUp, State.handedIn, List.mem_map,
      List.mem_filter, decide_eq_true_eq]
    constructor
    · rintro ⟨message, hmessage, rfl⟩
      exact ⟨message.1, message, ⟨hmessage, rfl⟩, rfl⟩
    · rintro ⟨_, message, ⟨hmessage, _⟩, rfl⟩
      exact ⟨message, hmessage, rfl⟩
  simp only [mem_loggedVersions, mem_versionsOf, hmem]
  constructor
  · rintro ⟨raw, ⟨partition, hraw⟩, hparsed⟩
    exact ⟨partition, raw, hraw, hparsed⟩
  · rintro ⟨partition, raw, hraw, hparsed⟩
    exact ⟨raw, ⟨partition, hraw⟩, hparsed⟩

/-- If nothing that was skipped is needed, the copy is complete. -/
theorem State.Sound.completeCopy (hsound : state.Sound codec log)
    (hcaughtUp : state.CaughtUp log) (hsafe : SafeRestart codec log state.resumedAt) :
    CompleteCopy codec log state.store := by
  intro key hlogged
  have hhanded : ∀ version : VersionedValue V,
      version ∈ versionsOf codec key (state.handed.map Prod.snd) ↔
        version ∈ loggedVersions codec (fun partition =>
          (log partition).drop (state.resumedAt partition)) key :=
    fun _ => hsound.mem_handed_versions hcaughtUp
  have hcovers : ∀ version ∈ loggedVersions codec log key,
      Covers VersionedValue.Newer (state.store.get key) version := by
    intro version hversion
    rw [hsound.get_store]
    rcases (mem_loggedVersions_split state.resumedAt).mp hversion with hskipped | hresumed
    · -- a version that came later and was not skipped stands in for this one
      obtain ⟨later, hlater, hbeats⟩ := hsafe key version hskipped
      obtain ⟨current, hcurrent, hnot⟩ :=
        covers_offerAll_of_mem VersionedValue.Newer none ((hhanded later).mpr hlater)
      exact ⟨current, hcurrent, fun hnewer => hnot (hbeats current hnewer)⟩
    · exact covers_offerAll_of_mem VersionedValue.Newer none ((hhanded version).mpr hresumed)
  have hmem : ∀ version, state.store.get key = some version →
      version ∈ loggedVersions codec log key := by
    intro version hversion
    rw [hsound.get_store] at hversion
    have hin := (offerAll_mem hversion).resolve_right (by simp)
    exact (mem_loggedVersions_split state.resumedAt).mpr (Or.inr ((hhanded version).mp hin))
  exact (isNewest_of_covers VersionedValue.Newer hmem hcovers).resolve_left
    fun hnone => hlogged hnone.2

/-- A complete copy needs nothing that was skipped, as long as all versions compare. -/
theorem State.Sound.safeRestart (hsound : state.Sound codec log)
    (hcaughtUp : state.CaughtUp log)
    (hcompare : ∀ key, ∀ version ∈ loggedVersions codec log key, version.timestamp ≠ .nan)
    (hcomplete : CompleteCopy codec log state.store) :
    SafeRestart codec log state.resumedAt := by
  intro key version hskipped
  have hlogged : version ∈ loggedVersions codec log key :=
    (mem_loggedVersions_split state.resumedAt).mpr (Or.inl hskipped)
  obtain ⟨held, hheld, hnewest⟩ := hcomplete key (List.ne_nil_of_mem hlogged)
  -- what the store holds was handed over after the restart and is not outdone
  rw [hsound.get_store] at hheld
  have hin := (offerAll_mem hheld).resolve_right (by simp)
  refine ⟨held, (hsound.mem_handed_versions hcaughtUp).mp hin, ?_⟩
  intro other hnewer
  rcases VersionedValue.newer_or_sameStamp_or_newer (hcompare key version hlogged)
    (hcompare key held hnewest.1) with habove | hsame | hbelow
  · exact absurd habove (hnewest.2 version hlogged)
  · exact hsame.newer_left hnewer
  · exact VersionedValue.newer_trans hbelow hnewer

end CaughtUp

section Runs

variable {actions : List (Action partitions)} {state final : State partitions V Bytes}

/-- Where no restart happens, the process keeps the offsets it resumed from. -/
theorem resumedAt_of_run (hkeeps : .restart ∉ actions)
    (hrun : Runs.run (step codec log) state actions = some final) :
    final.resumedAt = state.resumedAt := by
  have hstep : ∀ current action next, action ≠ .restart →
      current.resumedAt = state.resumedAt → step codec log current action = some next →
      next.resumedAt = state.resumedAt := by
    intro current action next hkeep hcurrent hnext
    rw [resumedAt_of_step hkeep hnext, hcurrent]
  apply Runs.run_invariant
    (fun current : State partitions V Bytes => current.resumedAt = state.resumedAt)
    hstep ?_ rfl hrun
  rintro action haction rfl
  exact hkeeps haction

/-- A run whose restarts are all safe stands on safe offsets. -/
theorem safeRestart_of_run
    (hsafe : Runs.Along (step codec log)
      (fun state action => action = .restart → SafeRestart codec log state.committedOffset)
      init actions)
    (hrun : Runs.run (step codec log) init actions = some state) :
    SafeRestart codec log state.resumedAt := by
  apply Runs.run_invariant_along
    (fun state : State partitions V Bytes => SafeRestart codec log state.resumedAt)
    ?_ hsafe safeRestart_zero hrun
  intro current action next hallowed hcurrent hnext
  by_cases hrestart : action = .restart
  · subst hrestart
    obtain rfl := Option.some.inj hnext
    exact hallowed rfl
  · rw [resumedAt_of_step hrestart hnext]
    exact hcurrent

end Runs

/-- A caught-up follower holds a complete copy in every run whose restarts are all
safe; and where all versions compare, it does if and only if the last restart was. -/
theorem completeCopy_of_safeRestarts {actions : List (Action partitions)}
    {state : State partitions V Bytes}
    (hrun : Runs.run (step codec log) init actions = some state)
    (hcaughtUp : state.CaughtUp log) :
    (Runs.Along (step codec log)
        (fun state action => action = .restart → SafeRestart codec log state.committedOffset)
        init actions →
      CompleteCopy codec log state.store) ∧
    (∀ before after last, actions = before ++ .restart :: after → .restart ∉ after →
      Runs.run (step codec log) init before = some last →
      (∀ key, ∀ version ∈ loggedVersions codec log key, version.timestamp ≠ .nan) →
      (CompleteCopy codec log state.store ↔ SafeRestart codec log last.committedOffset)) := by
  have hsound : state.Sound codec log := State.Sound.init.run hrun
  constructor
  · intro hsafe
    exact hsound.completeCopy hcaughtUp (safeRestart_of_run hsafe hrun)
  · rintro before after last rfl hkeeps hbefore hcompare
    have hresumed : state.resumedAt = last.committedOffset := by
      obtain ⟨middle, hmiddle, hrest⟩ := (Runs.run_append_eq_some _).mp hrun
      obtain rfl := Option.some.inj (hbefore.symm.trans hmiddle)
      obtain ⟨started, hstarted, hafter⟩ := (Runs.run_cons_eq_some _).mp hrest
      obtain rfl := Option.some.inj hstarted
      rw [resumedAt_of_run hkeeps hafter]
      rfl
    rw [← hresumed]
    exact ⟨hsound.safeRestart hcaughtUp hcompare, hsound.completeCopy hcaughtUp⟩

/-- A log of one partition and one key. -/
def counterLog (versions : List (Nat × ℚ)) : Log 1 (Option (ReplicateRequest Nat)) := fun _ =>
  versions.map fun version => some ⟨"k", version.1, .finite version.2, "p"⟩

/-- A follower restarted between two writes of the key ends up complete. -/
theorem completeCopy_of_safeRestarts_overwritten :
    ∃ state : State 1 Nat (Option (ReplicateRequest Nat)),
      Runs.run (step plainCodec (counterLog [(7, 1), (8, 2)])) init
        (consume 0 ++ [.restart] ++ consume 0) = some state ∧
      state.CaughtUp (counterLog [(7, 1), (8, 2)]) ∧
      CompleteCopy plainCodec (counterLog [(7, 1), (8, 2)]) state.store := by
  have hreached : ∃ state : State 1 Nat (Option (ReplicateRequest Nat)),
      Runs.run (step plainCodec (counterLog [(7, 1), (8, 2)])) init
        (consume 0 ++ [.restart] ++ consume 0) = some state ∧
      state.CaughtUp (counterLog [(7, 1), (8, 2)]) := by
    refine ⟨_, rfl, ?_⟩
    unfold State.CaughtUp
    decide
  obtain ⟨state, hrun, hcaughtUp⟩ := hreached
  refine ⟨state, hrun, hcaughtUp, (completeCopy_of_safeRestarts hrun hcaughtUp).1 ?_⟩
  have hround : ∀ state : State 1 Nat (Option (ReplicateRequest Nat)),
      ∀ action ∈ (consume 0 : List (Action 1)), action = .restart →
        SafeRestart plainCodec (counterLog [(7, 1), (8, 2)]) state.committedOffset :=
    fun _ _ haction hrestart => absurd hrestart (ne_restart_of_mem_consume haction)
  rw [Runs.along_append, Runs.along_append]
  refine ⟨⟨Runs.along_of_forall hround _, ?_⟩, fun _ _ => Runs.along_of_forall hround _⟩
  rintro middle ⟨⟩
  refine ⟨fun _ => ?_, fun _ _ => trivial⟩
  -- only the first write is below the offset, and the second one is newer
  intro key version hversion
  obtain ⟨partition, hversion⟩ := mem_loggedVersions.mp hversion
  obtain ⟨raw, hraw, parsed, hparsed, rfl, rfl⟩ := mem_versionsOf.mp hversion
  obtain rfl : partition = 0 := Subsingleton.elim _ _
  obtain rfl : raw = some ⟨"k", 7, .finite 1, "p"⟩ := List.mem_singleton.mp hraw
  obtain rfl := Option.some.inj hparsed
  refine ⟨⟨8, .finite 2, "p"⟩, by decide, fun other hnewer => ?_⟩
  exact VersionedValue.newer_trans (by decide) hnewer

/-- A follower restarted once it has committed the only message is caught up and empty. -/
theorem restart_loses_store :
    ∃ state : State 1 Nat (Option (ReplicateRequest Nat)),
      Runs.run (step plainCodec (counterLog [(7, 1)])) init (consume 0 ++ [.restart]) =
        some state ∧
      state.CaughtUp (counterLog [(7, 1)]) ∧ state.store.get "k" = none ∧
      ¬ CompleteCopy plainCodec (counterLog [(7, 1)]) state.store := by
  refine ⟨_, rfl, ?_, rfl, ?_⟩
  · unfold State.CaughtUp
    decide
  · intro hcomplete
    obtain ⟨version, hversion, _⟩ := hcomplete "k" (by decide)
    cases hversion

end KvReplication.MessageQueue
