import KvReplication.MessageQueue.LagRace
import KvReplication.MessageQueue.Restart

/-! # Followers that clients write to

A follower runs the plain app, so its store is more than what the log makes of an empty
one. Without deletes it still holds all that was handed to it, or something newer; and if
no restart left behind what was needed, a follower without lag holds all that is logged.
-/

namespace KvReplication.MessageQueue

open LastWriterWins

variable {V Bytes : Type} {partitions : Nat}

/-! ### A longer log -/

section Append

variable {codec : Codec V Bytes} {log : Log partitions Bytes}

theorem loggedVersions_appendLog {key : String} {version : VersionedValue V}
    (hlogged : version ∈ loggedVersions codec log key) (partition : Fin partitions) (raw : Bytes) :
    version ∈ loggedVersions codec (appendLog log partition raw) key := by
  obtain ⟨other, hother⟩ := mem_loggedVersions.mp hlogged
  apply mem_loggedVersions.mpr
  refine ⟨other, ?_⟩
  rw [appendLog_eq, versionsOf_append]
  exact List.mem_append_left _ hother

/-- The version of a message that parses is logged for its key. -/
theorem mem_loggedVersions_of_getElem? {partition : Fin partitions} {offset : Nat} {raw : Bytes}
    {key : String} {version : VersionedValue V} (hraw : (log partition)[offset]? = some raw)
    (hparsed : codec.validateJson raw = some (payload key version)) :
    version ∈ loggedVersions codec log key := by
  apply mem_loggedVersions.mpr
  exact ⟨partition, mem_versionsOf.mpr
    ⟨raw, List.mem_of_getElem? hraw, payload key version, hparsed, rfl, rfl⟩⟩

/-- Offsets that were safe stay so: what lies below them does not change. -/
theorem SafeRestart.appendLog {offsets : Fin partitions → Nat}
    (hsafe : SafeRestart codec log offsets)
    (hwithin : ∀ partition, offsets partition ≤ (log partition).length)
    (partition : Fin partitions) (raw : Bytes) :
    SafeRestart codec (appendLog log partition raw) offsets := by
  intro key version hversion
  simp only [appendLog_eq, List.take_append_of_le_length (hwithin _)] at hversion
  obtain ⟨later, hlater, hbeats⟩ := hsafe key version hversion
  refine ⟨later, ?_, hbeats⟩
  obtain ⟨other, hother⟩ := mem_loggedVersions.mp hlater
  apply mem_loggedVersions.mpr
  refine ⟨other, ?_⟩
  rw [appendLog_eq, List.drop_append_of_le_length (hwithin other), versionsOf_append]
  exact List.mem_append_left _ hother

end Append

/-! ### One process -/

/-- The process as it would be had no client written to it. -/
def State.replayed (codec : Codec V Bytes) (process : State partitions V Bytes) :
    State partitions V Bytes :=
  { process with store := applyAll codec KVStore.init (process.handed.map Prod.snd) }

/-- But for its store the process follows the log; the store holds all that was handed over,
or something newer; and nothing below the offsets it resumed from is needed. -/
structure State.Covering (codec : Codec V Bytes) (log : Log partitions Bytes)
    (process : State partitions V Bytes) : Prop where
  sound : (process.replayed codec).Sound codec log
  holds : ∀ key, ∀ version ∈ versionsOf codec key (process.handed.map Prod.snd),
    process.store.Holds key version
  safe : SafeRestart codec log process.resumedAt

variable {codec : Codec V Bytes} {log : Log partitions Bytes}
  {process next : State partitions V Bytes} {action : Action partitions}

/-- What clients have written makes no difference to the loop. -/
theorem step_replayed (hnext : step codec log process action = some next) :
    step codec log (process.replayed codec) action = some (next.replayed codec) := by
  cases action with
  | receive partition =>
      simp only [step] at hnext ⊢
      split at hnext
      · next hloop =>
          obtain ⟨raw, hraw, rfl⟩ := Option.map_eq_some_iff.mp hnext
          simp [State.replayed, hloop, hraw]
      · cases hnext
  | apply =>
      simp only [step] at hnext ⊢
      split at hnext
      · next hloop =>
          obtain rfl := Option.some.inj hnext
          simp [State.replayed, hloop, applyAll]
      · cases hnext
  | commit =>
      simp only [step] at hnext ⊢
      split at hnext
      · next hloop =>
          obtain rfl := Option.some.inj hnext
          simp [State.replayed, hloop]
      · cases hnext
  | commitFails =>
      simp only [step] at hnext ⊢
      split at hnext
      · next hloop =>
          obtain rfl := Option.some.inj hnext
          simp [State.replayed, hloop]
      · cases hnext
  | cancel =>
      simp only [step] at hnext ⊢
      split at hnext
      · cases hnext
      · next hrunning =>
          obtain rfl := Option.some.inj hnext
          simp [State.replayed]
  | restart =>
      obtain rfl := Option.some.inj hnext
      rfl

/-- A message that is handed over keeps what the store held, and is held itself. -/
theorem holds_applyMessage {raw : Bytes} {store : KVStore V} {raws : List Bytes}
    (hholds : ∀ key, ∀ version ∈ versionsOf codec key raws, store.Holds key version)
    (key : String) : ∀ version ∈ versionsOf codec key (raws ++ [raw]),
      (applyMessage codec raw store).1.Holds key version := by
  intro version hversion
  rw [versionsOf_append] at hversion
  rcases List.mem_append.mp hversion with hold | hnew
  · have hheld := hholds key version hold
    unfold applyMessage
    cases codec.validateJson raw with
    | none => exact hheld
    | some parsed => exact hheld.put parsed.key parsed.version
  · obtain ⟨found, hfound, parsed, hparsed, rfl, rfl⟩ := mem_versionsOf.mp hnew
    obtain rfl := List.mem_singleton.mp hfound
    simp only [applyMessage, hparsed]
    exact KVStore.holds_put_self store parsed.key parsed.version

namespace State.Covering

theorem init : (MessageQueue.init : State partitions V Bytes).Covering codec log where
  sound := State.Sound.init
  holds key version hversion := by cases hversion
  safe := safeRestart_zero

theorem committedOffset_le (hcovering : process.Covering codec log) (partition : Fin partitions) :
    process.committedOffset partition ≤ (log partition).length :=
  hcovering.sound.committedOffset_le partition

theorem resumedAt_le (hcovering : process.Covering codec log) (partition : Fin partitions) :
    process.resumedAt partition ≤ (log partition).length :=
  (Nat.le_add_right _ _).trans (hcovering.sound.next_le partition)

theorem appendLog (hcovering : process.Covering codec log) (partition : Fin partitions)
    (raw : Bytes) : process.Covering codec (appendLog log partition raw) where
  sound := hcovering.sound.appendLog partition raw
  holds := hcovering.holds
  safe := hcovering.safe.appendLog hcovering.resumedAt_le partition raw

/-- A client's write may only replace what is older. -/
theorem writeLocal (hcovering : process.Covering codec log) (key : String)
    (version : VersionedValue V) :
    State.Covering codec log
      { process with store := (Server.putKey process.store key version).1 } where
  sound := hcovering.sound
  holds other held hheld := (hcovering.holds other held hheld).put key version
  safe := hcovering.safe

theorem step (hcovering : process.Covering codec log)
    (hrestart : action = .restart → SafeRestart codec log process.committedOffset)
    (hnext : MessageQueue.step codec log process action = some next) :
    next.Covering codec log := by
  have hsound := hcovering.sound.step (step_replayed hnext)
  cases change_of_step hnext with
  | receive hloop hraw => exact ⟨hsound, hcovering.holds, hcovering.safe⟩
  | apply hloop =>
      refine ⟨hsound, ?_, hcovering.safe⟩
      intro key
      rw [List.map_append]
      exact holds_applyMessage hcovering.holds key
  | commit hloop => exact ⟨hsound, hcovering.holds, hcovering.safe⟩
  | ended haction => exact ⟨hsound, hcovering.holds, hcovering.safe⟩
  | restart =>
      refine ⟨hsound, ?_, hrestart rfl⟩
      intro key version hversion
      cases hversion

/-- Without lag a follower holds everything that is logged. -/
theorem holds_logged (hcovering : process.Covering codec log)
    (hlag : totalLag (computeLag log process) = 0) {key : String} {version : VersionedValue V}
    (hlogged : version ∈ loggedVersions codec log key) : process.store.Holds key version := by
  have hcaughtUp : (process.replayed codec).CaughtUp log :=
    (totalLag_eq_zero_iff hcovering.sound).mp hlag
  have hresumed : ∀ version ∈ loggedVersions codec (fun partition =>
      (log partition).drop (process.resumedAt partition)) key,
      process.store.Holds key version := by
    intro version hversion
    exact hcovering.holds key version
      ((hcovering.sound.mem_handed_versions hcaughtUp).mpr hversion)
  rcases (mem_loggedVersions_split process.resumedAt).mp hlogged with hskipped | hlater
  · -- the version that stands in for the skipped one was not skipped
    obtain ⟨later, hlater, hbeats⟩ := hcovering.safe key version hskipped
    obtain ⟨current, hcurrent, hnot⟩ := hresumed later hlater
    exact ⟨current, hcurrent, fun hnewer => hnot (hbeats current hnewer)⟩
  · exact hresumed version hlater

end State.Covering

/-! ### All of them -/

namespace Deployment

variable {Follower : Type} [DecidableEq Follower] {followerId : Follower → String}

/-- No client deletes a key, and a follower restarts only where it needs nothing that lies
below its offsets. -/
def KeepsLogged (codec : Codec V Bytes) (state : Deployment V Bytes Follower partitions) :
    DeploymentAction V Follower partitions → Prop
  | .consume follower .restart =>
      SafeRestart codec state.log (state.followers follower).committedOffset
  | .delete _ _ => False
  | _ => True

/-- A message carries the write it is for, and every follower covers what it was handed. -/
structure Covering (codec : Codec V Bytes) (state : Deployment V Bytes Follower partitions) :
    Prop where
  encoded : ∀ op ∈ state.puts, ∀ message, op.message = some message →
    codec.validateJson message.2 = some (payload op.key op.version)
  followers : ∀ follower, (state.followers follower).Covering codec state.log

variable {state later : Deployment V Bytes Follower partitions}
  {action : DeploymentAction V Follower partitions}

omit [DecidableEq Follower] in
theorem Covering.init :
    (Deployment.init : Deployment V Bytes Follower partitions).Covering codec where
  encoded op hop := by cases hop
  followers _ := State.Covering.init

theorem Covering.setFollower (hcovering : state.Covering codec) {follower : Follower}
    {process : State partitions V Bytes} (hprocess : process.Covering codec state.log) :
    (state.setFollower follower process).Covering codec where
  encoded := hcovering.encoded
  followers other := by
    by_cases heq : other = follower
    · subst heq
      simpa [Deployment.setFollower] using hprocess
    · simpa [Deployment.setFollower, heq] using hcovering.followers other

theorem Covering.step
    (hroundtrip : ∀ request raw, codec.dumpJson request = .ok raw →
      codec.validateJson raw = some request)
    (hcovering : state.Covering codec) (hkeeps : KeepsLogged codec state action)
    (hnext : state.step codec followerId action = some later) : later.Covering codec := by
  cases action with
  | put origin key body now =>
      obtain rfl := Option.some.inj hnext
      refine ⟨?_, hcovering.followers⟩
      intro op hop message hmessage
      rcases List.mem_append.mp hop with hold | hnew
      · exact hcovering.encoded op hold message hmessage
      · obtain rfl := List.mem_singleton.mp hnew
        exact (message_of_put hroundtrip hmessage).2
  | append put partition =>
      simp only [Deployment.step, Option.bind_eq_bind, Option.bind_eq_some_iff, Option.pure_def,
        Option.some.injEq] at hnext
      obtain ⟨op, hop, message, hmessage, rfl⟩ := hnext
      exact ⟨hcovering.encoded, fun follower =>
        (hcovering.followers follower).appendLog partition message.2⟩
  | writeLocal put =>
      simp only [Deployment.step, Option.bind_eq_bind, Option.bind_eq_some_iff] at hnext
      obtain ⟨op, hop, hwrite⟩ := hnext
      split at hwrite
      · cases hwrite
      · next follower _ =>
          obtain rfl := Option.some.inj hwrite
          exact hcovering.setFollower ((hcovering.followers follower).writeLocal op.key op.version)
  | consume follower consumed =>
      simp only [Deployment.step, Option.bind_eq_bind, Option.bind_eq_some_iff, Option.pure_def,
        Option.some.injEq] at hnext
      obtain ⟨process, hprocess, rfl⟩ := hnext
      apply hcovering.setFollower
      apply (hcovering.followers follower).step ?_ hprocess
      rintro rfl
      exact hkeeps
  | delete follower key => exact hkeeps.elim

/-- Writes that were accepted keep their numbers, and what is logged stays logged. -/
structure Grows (codec : Codec V Bytes) (state later : Deployment V Bytes Follower partitions) :
    Prop where
  puts : ∀ (put : Nat) op, state.puts[put]? = some op → later.puts[put]? = some op
  log : ∀ key, loggedVersions codec state.log key ⊆ loggedVersions codec later.log key

theorem grows_of_step (hnext : state.step codec followerId action = some later) :
    Grows codec state later := by
  have hsame : ∀ key, loggedVersions codec state.log key ⊆ loggedVersions codec state.log key :=
    fun _ => List.Subset.refl _
  cases action with
  | put origin key body now =>
      obtain rfl := Option.some.inj hnext
      refine ⟨?_, hsame⟩
      intro put op hop
      exact (List.getElem?_append_left (List.getElem?_eq_some_iff.mp hop).1).trans hop
  | append put partition =>
      simp only [Deployment.step, Option.bind_eq_bind, Option.bind_eq_some_iff, Option.pure_def,
        Option.some.injEq] at hnext
      obtain ⟨op, hop, message, hmessage, rfl⟩ := hnext
      refine ⟨fun _ _ hother => hother, ?_⟩
      intro key version hversion
      exact loggedVersions_appendLog hversion partition message.2
  | writeLocal put =>
      simp only [Deployment.step, Option.bind_eq_bind, Option.bind_eq_some_iff] at hnext
      obtain ⟨op, hop, hwrite⟩ := hnext
      split at hwrite
      · cases hwrite
      · obtain rfl := Option.some.inj hwrite
        exact ⟨fun _ _ hother => hother, hsame⟩
  | consume follower consumed =>
      simp only [Deployment.step, Option.bind_eq_bind, Option.bind_eq_some_iff, Option.pure_def,
        Option.some.injEq] at hnext
      obtain ⟨process, hprocess, rfl⟩ := hnext
      exact ⟨fun _ _ hother => hother, hsame⟩
  | delete follower key =>
      obtain rfl := Option.some.inj hnext
      exact ⟨fun _ _ hother => hother, hsame⟩

end Deployment

end KvReplication.MessageQueue
