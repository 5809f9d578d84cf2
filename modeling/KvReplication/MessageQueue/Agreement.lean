import KvReplication.MessageQueue.Producer
import Mathlib.Algebra.BigOperators.Fin

/-! # Followers agree

All messages of a key sit in one partition, so what a follower makes of a key
depends on how far it is in that partition and not on how the partitions interleave.
Messages of one key with equal stamps do not commute; their order in the log decides.
-/

namespace KvReplication.MessageQueue

open LastWriterWins

variable {V Bytes : Type} {partitions : Nat}
variable {codec : Codec V Bytes} {log : Log partitions Bytes}

/-- Keying by the KV key: the messages of a key all sit in its home partition. -/
def Keyed (codec : Codec V Bytes) (log : Log partitions Bytes)
    (home : String → Fin partitions) : Prop :=
  ∀ partition, ∀ raw ∈ log partition, ∀ parsed,
    codec.validateJson raw = some parsed → partition = home parsed.key

/-- A state of a follower that was started once and not restarted. -/
def Reaches (codec : Codec V Bytes) (log : Log partitions Bytes)
    (state : State partitions V Bytes) : Prop :=
  ∃ actions : List (Action partitions), (∀ action ∈ actions, action ≠ .restart) ∧
    Runs.run (step codec log) init actions = some state

/-- The store is what the delivered messages that parse make of an empty one, the
messages of a partition are delivered in order, and at most one delivered message
is not committed. What the loop has received it has delivered, but for a message it
still holds back. -/
structure State.Follows (codec : Codec V Bytes) (log : Log partitions Bytes)
    (state : State partitions V Bytes) : Prop where
  store_eq : state.store =
    putAll KVStore.init ((state.handed.map Prod.snd).filterMap codec.validateJson)
  handedIn_eq : ∀ partition,
    state.handedIn partition = (log partition).take (state.delivered partition)
  position_eq : state.loop.Running → ∀ partition, state.position partition =
    state.delivered partition + (if state.loop.unapplied = some partition then 1 else 0)
  committed_or : ∀ partition, state.committedOffset partition = state.delivered partition ∨
    state.committedOffset partition + 1 = state.delivered partition
  uncommitted_le : ∑ partition, (state.delivered partition - state.committedOffset partition) ≤ 1

/-- A first start begins with every partition's first message. -/
theorem Reaches.resumedAt {state : State partitions V Bytes} (hreaches : Reaches codec log state)
    (partition : Fin partitions) : state.resumedAt partition = 0 := by
  obtain ⟨actions, hkeeps, hrun⟩ := hreaches
  have hstart : ∀ partition,
      (init : State partitions V Bytes).resumedAt partition = 0 := fun _ => rfl
  apply Runs.run_invariant
    (fun state : State partitions V Bytes => ∀ partition, state.resumedAt partition = 0)
    ?_ hkeeps hstart hrun
  intro state action next hkeep hstate hnext other
  rw [resumedAt_of_step hkeep hnext]
  exact hstate other

theorem Reaches.sound {state : State partitions V Bytes} (hreaches : Reaches codec log state) :
    state.Sound codec log := by
  obtain ⟨actions, _, hrun⟩ := hreaches
  exact State.Sound.init.run hrun

theorem Reaches.next_eq {state : State partitions V Bytes} (hreaches : Reaches codec log state)
    (partition : Fin partitions) : state.next partition = state.delivered partition := by
  rw [State.next, hreaches.resumedAt, Nat.zero_add, State.delivered]

theorem Reaches.follows {state : State partitions V Bytes} (hreaches : Reaches codec log state) :
    state.Follows codec log := by
  have hsound := hreaches.sound
  have hcommitted : ∀ partition, state.committedOffset partition +
      (if state.loop.uncommitted = some partition then 1 else 0) =
        state.delivered partition := by
    intro partition
    rw [hsound.committed_eq, hreaches.next_eq]
  refine ⟨?_, ?_, ?_, ?_, ?_⟩
  · rw [hsound.store_eq, applyAll_eq_putAll]
  · intro partition
    have hin := hsound.handedIn_eq partition
    rwa [hreaches.resumedAt, List.drop_zero] at hin
  · intro hrunning partition
    rw [hsound.position_eq hrunning, hreaches.next_eq]
  · intro partition
    have hpartition := hcommitted partition
    split at hpartition
    · exact Or.inr hpartition
    · exact Or.inl hpartition
  · have hbehind : ∀ partition, state.delivered partition - state.committedOffset partition =
        if state.loop.uncommitted = some partition then 1 else 0 := by
      intro partition
      have hpartition := hcommitted partition
      omega
    -- only the partition of the message in the loop's hands contributes
    simp only [hbehind]
    cases state.loop.uncommitted with
    | none => simp
    | some behind => simp

/-- A key's versions are those of its home partition, whatever else is in between. -/
theorem versionsOf_home {home : String → Fin partitions} (key : String)
    (handed : List (Fin partitions × Bytes))
    (hhome : ∀ message ∈ handed, ∀ parsed, codec.validateJson message.2 = some parsed →
      message.1 = home parsed.key) :
    versionsOf codec key (handed.map Prod.snd) =
      versionsOf codec key ((handed.filter fun message => message.1 = home key).map Prod.snd) := by
  induction handed with
  | nil => rfl
  | cons message rest ih =>
      have hrest := ih fun later hlater => hhome later (List.mem_cons_of_mem _ hlater)
      have hcons : ∀ raws, versionsOf codec key (message.2 :: raws) =
          versionsOf codec key [message.2] ++ versionsOf codec key raws :=
        fun raws => versionsOf_append codec key [message.2] raws
      rw [List.map_cons, hcons, hrest, List.filter_cons]
      by_cases hkey : message.1 = home key
      · rw [if_pos (by simpa using hkey), List.map_cons, ← hcons]
      · -- a message of another partition is no message of this key
        have hempty : versionsOf codec key [message.2] = [] := by
          rw [List.eq_nil_iff_forall_not_mem]
          intro version hversion
          obtain ⟨raw, hraw, parsed, hparsed, rfl, _⟩ := mem_versionsOf.mp hversion
          obtain rfl := List.mem_singleton.mp hraw
          exact hkey (hhome message List.mem_cons_self parsed hparsed)
        rw [if_neg (by simpa using hkey), hempty, List.nil_append]

theorem Reaches.mem_log {state : State partitions V Bytes} (hreaches : Reaches codec log state)
    {message : Fin partitions × Bytes} (hmem : message ∈ state.handed) :
    message.2 ∈ log message.1 := by
  have hin : message.2 ∈ state.handedIn message.1 :=
    List.mem_map_of_mem (List.mem_filter.mpr ⟨hmem, by simp⟩)
  rw [hreaches.follows.handedIn_eq] at hin
  exact List.mem_of_mem_take hin

/-- What a follower holds at a key is read off the prefix of the key's home
partition that it was delivered. -/
theorem Reaches.get_store {home : String → Fin partitions} {state : State partitions V Bytes}
    (hreaches : Reaches codec log state) (hkeyed : Keyed codec log home) (key : String) :
    state.store.get key = offerAll VersionedValue.Newer none
      (versionsOf codec key ((log (home key)).take (state.delivered (home key)))) := by
  have hhome := versionsOf_home key state.handed fun message hmessage parsed hparsed =>
    hkeyed message.1 message.2 (hreaches.mem_log hmessage) parsed hparsed
  have hin := hreaches.follows.handedIn_eq (home key)
  rw [hreaches.sound.get_store, hhome, ← hin]
  rfl

/-- A message below the committed offset has been handed over. -/
theorem Reaches.handed_of_committed {state : State partitions V Bytes}
    (hreaches : Reaches codec log state) {partition : Fin partitions} {offset : Nat} {raw : Bytes}
    (hraw : (log partition)[offset]? = some raw)
    (hoffset : offset < state.committedOffset partition) :
    raw ∈ state.handed.map Prod.snd := by
  have hfollows := hreaches.follows
  have hdelivered : offset < state.delivered partition := by
    have hcommitted := hfollows.committed_or partition
    omega
  have hin : raw ∈ state.handedIn partition := by
    rw [hfollows.handedIn_eq]
    apply List.mem_of_getElem? (i := offset)
    rw [List.getElem?_take_of_lt hdelivered, hraw]
  obtain ⟨message, hmessage, rfl⟩ := List.mem_map.mp hin
  exact List.mem_map_of_mem (List.mem_of_mem_filter hmessage)

/-- A write whose message the follower has committed past is covered at its key. -/
theorem Reaches.holds_of_committed {state : State partitions V Bytes}
    (hreaches : Reaches codec log state) {partition : Fin partitions} {offset : Nat} {raw : Bytes}
    {parsed : ReplicateRequest V} (hraw : (log partition)[offset]? = some raw)
    (hoffset : offset < state.committedOffset partition)
    (hparsed : codec.validateJson raw = some parsed) :
    state.store.Holds parsed.key parsed.version := by
  have hmem : parsed.version ∈ versionsOf codec parsed.key (state.handed.map Prod.snd) :=
    mem_versionsOf.mpr ⟨raw, hreaches.handed_of_committed hraw hoffset, parsed, hparsed, rfl, rfl⟩
  unfold KVStore.Holds
  rw [hreaches.sound.get_store]
  exact covers_offerAll_of_mem VersionedValue.Newer _ hmem

/-- Whatever the partitions' interleaving, a follower holds what it was delivered
and commits it one message behind at most; followers that were delivered the same
prefixes hold the same; and a write that was confirmed to the client is not newer
than what a follower past its message serves. -/
theorem followers_agree {home : String → Fin partitions} (hkeyed : Keyed codec log home) :
    (∀ state, Reaches codec log state → state.Follows codec log) ∧
    (∀ left right : State partitions V Bytes, Reaches codec log left → Reaches codec log right →
      (∀ partition, left.delivered partition = right.delivered partition) →
      left.store = right.store) ∧
    (∀ state, Reaches codec log state →
      ∀ (sendAndWait : ByteArray × Bytes → Except PyError (RecordMetadata partitions))
        (nodeId key : String) (body : PutRequest V) (timestamp : PyFloat) (response : PutResponse),
      Logged log sendAndWait →
      (∀ raw, codec.dumpJson ⟨key, body.value, timestamp, nodeId⟩ = .ok raw →
        codec.validateJson raw = some ⟨key, body.value, timestamp, nodeId⟩) →
      putKey codec nodeId sendAndWait key body timestamp = .ok (.ok response) →
      (∀ message metadata, buildMessage codec key body.value timestamp nodeId = .ok message →
        sendAndWait message = .ok metadata →
        metadata.offset < state.committedOffset metadata.partition) →
      ∃ answer, Server.getKey state.store key = .ok answer ∧
        ¬ (Server.stamp nodeId body timestamp).Newer answer.version) := by
  refine ⟨fun state hreaches => hreaches.follows, ?_, ?_⟩
  · intro left right hleft hright hsame
    apply KVStore.ext_get
    intro key
    rw [hleft.get_store hkeyed, hright.get_store hkeyed, hsame]
  · intro state hreaches sendAndWait nodeId key body timestamp response hlogged hroundtrip hok
      hcommitted
    obtain ⟨_, message, metadata, hbuild, hsend⟩ := putKey_eq_ok_iff.mp hok
    have hparsed := validateJson_of_buildMessage hroundtrip hbuild
    exact Server.getKey_of_holds (hreaches.holds_of_committed (hlogged _ _ hsend)
      (hcommitted _ _ hbuild hsend) hparsed)

/-- Two equally stamped writes of one key around a malformed message, and a write of
another key in the other partition. -/
def tiedLog : Log 2 (Option (ReplicateRequest Nat)) :=
  ![[some ⟨"k", 7, .finite 1, "p"⟩, none, some ⟨"k", 8, .finite 1, "p"⟩],
    [some ⟨"j", 5, .finite 2, "p"⟩]]

theorem followers_agree_tied :
    ∃ left right : State 2 Nat (Option (ReplicateRequest Nat)),
      Runs.run (step plainCodec tiedLog) init
        (consume 0 ++ consume 0 ++ consume 0 ++ consume 1) = some left ∧
      Runs.run (step plainCodec tiedLog) init
        (consume 1 ++ consume 0 ++ consume 0 ++ [.receive 0, .apply]) = some right ∧
      left.Follows plainCodec tiedLog ∧ left.store = right.store ∧
      ∃ answer, Server.getKey left.store "k" = .ok answer ∧
        ¬ (Server.stamp "p" ⟨7⟩ (.finite 1)).Newer answer.version := by
  have hreached : ∃ left right : State 2 Nat (Option (ReplicateRequest Nat)),
      Runs.run (step plainCodec tiedLog) init
        (consume 0 ++ consume 0 ++ consume 0 ++ consume 1) = some left ∧
      Runs.run (step plainCodec tiedLog) init
        (consume 1 ++ consume 0 ++ consume 0 ++ [.receive 0, .apply]) = some right ∧
      (∀ partition, left.delivered partition = right.delivered partition) ∧
      left.committedOffset 0 = 3 :=
    ⟨_, _, rfl, rfl, by decide, rfl⟩
  obtain ⟨left, right, hleft, hright, hsame, hcommitted⟩ := hreached
  have hkeyed : Keyed plainCodec tiedLog fun key => if key = "k" then 0 else 1 := by
    unfold Keyed
    decide
  obtain ⟨hfollows, hagree, hserves⟩ := followers_agree hkeyed
  have hreachesLeft : Reaches plainCodec tiedLog left := ⟨_, by decide, hleft⟩
  have hreachesRight : Reaches plainCodec tiedLog right := ⟨_, by decide, hright⟩
  refine ⟨left, right, hleft, hright, hfollows left hreachesLeft,
    hagree left right hreachesLeft hreachesRight hsame, ?_⟩
  refine hserves left hreachesLeft
    (fun message => if message.2 = some ⟨"k", 7, .finite 1, "p"⟩ then .ok ⟨0, 0⟩
      else .error .kafkaError) "p" "k" ⟨7⟩ (.finite 1) ⟨true, .finite 1⟩ ?_ ?_ rfl ?_
  · intro message metadata hsend
    dsimp only at hsend
    split at hsend
    · next hmessage =>
        obtain rfl := Except.ok.inj hsend
        rw [hmessage]
        rfl
    · cases hsend
  · rintro _ ⟨⟩
    rfl
  · intro message metadata _ hsend
    split at hsend
    · obtain rfl := Except.ok.inj hsend
      rw [hcommitted]
      decide
    · cases hsend

end KvReplication.MessageQueue
