import KvReplication.Common.Server
import KvReplication.Foundation.Runs

/-! # A follower of the message queue

A follower is alone in its consumer group, so it is assigned every partition. Its
loop takes one message at a time, applies it and commits its offset before the next
one. The committed offsets live in the broker and survive the process; the store
does not.
-/

namespace KvReplication.MessageQueue

open LastWriterWins

variable {V Bytes : Type} {partitions : Nat}

/-- The JSON form of a message value. -/
structure Codec (V Bytes : Type) where
  /-- `ReplicateRequest.model_validate_json`; nothing on a `ValidationError`. -/
  validateJson : Bytes → Option (ReplicateRequest V)
  /-- `ReplicateRequest.model_dump_json`, encoded; it raises on what JSON cannot carry. -/
  dumpJson : ReplicateRequest V → Except PyError Bytes

/-- Messages that are their own encoding; nothing stands for a malformed one. -/
def plainCodec : Codec V (Option (ReplicateRequest V)) where
  validateJson := id
  dumpJson message := .ok (some message)

/-- The topic: the values of each partition's messages, by offset. -/
abbrev Log (partitions : Nat) (Bytes : Type) := Fin partitions → List Bytes

section Apply

variable (codec : Codec V Bytes)

/-- `_apply_message`: a message that does not parse is dropped. -/
def applyMessage (raw : Bytes) (storage : KVStore V) :
    KVStore V × Option (ReplicateRequest V × Bool) :=
  match codec.validateJson raw with
  | none => (storage, none)
  | some parsed =>
      let (storage, applied) :=
        storage.put parsed.key parsed.value parsed.timestamp parsed.nodeId
      (storage, some (parsed, applied))

/-- Messages applied one after the other. -/
def applyAll (storage : KVStore V) (raws : List Bytes) : KVStore V :=
  raws.foldl (fun storage raw => (applyMessage codec raw storage).1) storage

/-- Parsed messages put one after the other. -/
def putAll (storage : KVStore V) (messages : List (ReplicateRequest V)) : KVStore V :=
  messages.foldl (fun storage parsed =>
    (storage.put parsed.key parsed.value parsed.timestamp parsed.nodeId).1) storage

/-- The versions of `key` among the messages that parse, in order. -/
def versionsOf (key : String) (raws : List Bytes) : List (VersionedValue V) :=
  ((raws.filterMap codec.validateJson).filter fun parsed => parsed.key = key).map
    ReplicateRequest.version

/-- Only the messages that parse count. -/
theorem applyAll_eq_putAll (storage : KVStore V) (raws : List Bytes) :
    applyAll codec storage raws = putAll storage (raws.filterMap codec.validateJson) := by
  induction raws generalizing storage with
  | nil => rfl
  | cons raw rest ih =>
      have hstep : applyAll codec storage (raw :: rest) =
          applyAll codec (applyMessage codec raw storage).1 rest := rfl
      rw [hstep, ih]
      cases hparsed : codec.validateJson raw with
      | none => simp [applyMessage, hparsed]
      | some parsed => simp [applyMessage, putAll, hparsed]

theorem versionsOf_append (key : String) (first second : List Bytes) :
    versionsOf codec key (first ++ second) =
      versionsOf codec key first ++ versionsOf codec key second := by
  simp [versionsOf]

variable {codec}

theorem mem_versionsOf {key : String} {raws : List Bytes} {version : VersionedValue V} :
    version ∈ versionsOf codec key raws ↔ ∃ raw ∈ raws, ∃ parsed,
      codec.validateJson raw = some parsed ∧ parsed.key = key ∧ parsed.version = version := by
  simp only [versionsOf, List.mem_map, List.mem_filter, List.mem_filterMap, decide_eq_true_eq]
  constructor
  · rintro ⟨parsed, ⟨⟨raw, hraw, hparsed⟩, hkey⟩, hversion⟩
    exact ⟨raw, hraw, parsed, hparsed, hkey, hversion⟩
  · rintro ⟨raw, hraw, parsed, hparsed, hkey, hversion⟩
    exact ⟨parsed, ⟨⟨raw, hraw, hparsed⟩, hkey⟩, hversion⟩

/-- At each key, applying messages offers their versions of that key in order. -/
theorem get_applyAll (storage : KVStore V) (raws : List Bytes) (key : String) :
    (applyAll codec storage raws).get key =
      offerAll VersionedValue.Newer (storage.get key) (versionsOf codec key raws) := by
  induction raws generalizing storage with
  | nil => rfl
  | cons raw rest ih =>
      have hstep : applyAll codec storage (raw :: rest) =
          applyAll codec (applyMessage codec raw storage).1 rest := rfl
      rw [hstep, ih]
      cases hparsed : codec.validateJson raw with
      | none => simp [applyMessage, versionsOf, hparsed]
      | some parsed =>
          have hget := KVStore.get_put storage parsed.key key parsed.version
          by_cases hkey : parsed.key = key
          · subst hkey
            rw [if_pos rfl] at hget
            simp only [applyMessage, hparsed, versionsOf, List.filterMap_cons, List.filter_cons,
              decide_true, if_true, List.map_cons, offerAll_cons]
            exact congrArg (offerAll VersionedValue.Newer · _) hget
          · rw [if_neg (Ne.symm hkey)] at hget
            simp only [applyMessage, hparsed, versionsOf, List.filterMap_cons, List.filter_cons,
              hkey, decide_false]
            exact congrArg (offerAll VersionedValue.Newer · _) hget

end Apply

/-- Where the consume loop stands. The fault-injection delay falls between `received`
and the application of the message. -/
inductive Stage (partitions : Nat) (Bytes : Type) where
  | awaiting
  | received (partition : Fin partitions) (raw : Bytes) (offset : Nat)
  | applied (partition : Fin partitions) (offset : Nat)
  /-- Cancelled, or left by an exception of the commit; `uncommitted` is the partition
  of a message that was applied and not committed. -/
  | ended (uncommitted : Option (Fin partitions))

namespace Stage

/-- The partition of the message that was applied and is not committed. -/
def uncommitted : Stage partitions Bytes → Option (Fin partitions)
  | applied partition _ => some partition
  | ended uncommitted => uncommitted
  | _ => none

/-- The partition of the message that was received and is not applied. -/
def unapplied : Stage partitions Bytes → Option (Fin partitions)
  | received partition _ _ => some partition
  | _ => none

/-- The loop has not ended. -/
def Running : Stage partitions Bytes → Prop
  | ended _ => False
  | _ => True

end Stage

/-- A follower process and its group's offsets. `handed` are the messages this
process has handed to `_apply_message`, in order, and `resumedAt` the offsets its
consumer started from. -/
structure State (partitions : Nat) (V Bytes : Type) where
  store : KVStore V
  position : Fin partitions → Nat
  committed : Fin partitions → Option Nat
  loop : Stage partitions Bytes
  handed : List (Fin partitions × Bytes)
  resumedAt : Fin partitions → Nat

namespace State

/-- The group's offset in a partition: the earliest one if nothing was committed. -/
def committedOffset (state : State partitions V Bytes) (partition : Fin partitions) : Nat :=
  (state.committed partition).getD 0

/-- The messages of one partition that were handed to `_apply_message`. -/
def handedIn (state : State partitions V Bytes) (partition : Fin partitions) : List Bytes :=
  (state.handed.filter fun message => message.1 = partition).map Prod.snd

/-- The number of messages of the partition that were handed to `_apply_message`. -/
def delivered (state : State partitions V Bytes) (partition : Fin partitions) : Nat :=
  (state.handedIn partition).length

/-- The offset after the last message of the partition that was applied. -/
def next (state : State partitions V Bytes) (partition : Fin partitions) : Nat :=
  state.resumedAt partition + (state.handedIn partition).length

/-- A message more of a partition shows in that partition only. -/
theorem handedIn_append (handed : List (Fin partitions × Bytes)) (partition other : Fin partitions)
    (raw : Bytes) :
    ((handed ++ [(partition, raw)]).filter fun message => message.1 = other).map Prod.snd =
      (handed.filter fun message => message.1 = other).map Prod.snd ++
        if partition = other then [raw] else [] := by
  by_cases heq : partition = other <;> simp [heq]

end State

inductive Action (partitions : Nat) where
  | receive (partition : Fin partitions)
  | apply
  | commit
  /-- The commit raises a `KafkaError`, which ends the loop. -/
  | commitFails
  /-- The shutdown handler cancels the loop. -/
  | cancel
  /-- The process dies, wherever it is, and is started again. -/
  | restart
deriving DecidableEq

/-- One round of the loop. -/
def consume (partition : Fin partitions) : List (Action partitions) :=
  [.receive partition, .apply, .commit]

theorem ne_restart_of_mem_consume {partition : Fin partitions} {action : Action partitions}
    (hmem : action ∈ consume partition) : action ≠ .restart := by
  rintro rfl
  simp [consume] at hmem

/-- A new process under the group's offsets: an empty store, and a consumer that
resumes where the group has committed. -/
def boot (committed : Fin partitions → Option Nat) : State partitions V Bytes where
  store := KVStore.init
  position partition := (committed partition).getD 0
  committed := committed
  loop := .awaiting
  handed := []
  resumedAt partition := (committed partition).getD 0

/-- The first start of a follower. -/
def init : State partitions V Bytes := boot fun _ => none

/-- One action of the loop or the process; an action that is not enabled is refused. -/
def step (codec : Codec V Bytes) (log : Log partitions Bytes) (state : State partitions V Bytes) :
    Action partitions → Option (State partitions V Bytes)
  | .receive partition =>
      match state.loop with
      | .awaiting =>
          let offset := state.position partition
          (log partition)[offset]?.map fun raw => { state with
            position := Function.update state.position partition (offset + 1)
            loop := .received partition raw offset }
      | _ => none
  | .apply =>
      match state.loop with
      | .received partition raw offset => some { state with
          store := (applyMessage codec raw state.store).1
          handed := state.handed ++ [(partition, raw)]
          loop := .applied partition offset }
      | _ => none
  | .commit =>
      match state.loop with
      | .applied partition offset => some { state with
          committed := Function.update state.committed partition (some (offset + 1))
          loop := .awaiting }
      | _ => none
  | .commitFails =>
      match state.loop with
      | .applied partition _ => some { state with loop := .ended (some partition) }
      | _ => none
  | .cancel =>
      match state.loop with
      | .ended _ => none
      | loop => some { state with loop := .ended loop.uncommitted }
  | .restart => some (boot state.committed)

/-- The store is what the messages handed over since the start make of an empty one;
these are consecutive messages of each partition; and the committed offsets are up
to date but for the one message that was applied and not committed. -/
structure State.Sound (codec : Codec V Bytes) (log : Log partitions Bytes)
    (state : State partitions V Bytes) : Prop where
  store_eq : state.store = applyAll codec KVStore.init (state.handed.map Prod.snd)
  handedIn_eq : ∀ partition, state.handedIn partition =
    ((log partition).drop (state.resumedAt partition)).take (state.handedIn partition).length
  next_le : ∀ partition, state.next partition ≤ (log partition).length
  committed_eq : ∀ partition, state.committedOffset partition +
    (if state.loop.uncommitted = some partition then 1 else 0) = state.next partition
  position_eq : state.loop.Running → ∀ partition, state.position partition =
    state.next partition + (if state.loop.unapplied = some partition then 1 else 0)
  received_eq : ∀ partition raw offset, state.loop = .received partition raw offset →
    offset = state.next partition ∧ (log partition)[offset]? = some raw
  applied_eq : ∀ partition offset, state.loop = .applied partition offset →
    offset + 1 = state.next partition

variable {codec : Codec V Bytes} {log : Log partitions Bytes}

/-- A process starts sound if the group's offsets are within the log. -/
theorem State.Sound.boot {committed : Fin partitions → Option Nat}
    (hwithin : ∀ partition, (committed partition).getD 0 ≤ (log partition).length) :
    (boot committed : State partitions V Bytes).Sound codec log where
  store_eq := rfl
  handedIn_eq _ := rfl
  next_le := hwithin
  committed_eq _ := rfl
  position_eq _ _ := rfl
  received_eq _ _ _ hloop := by cases hloop
  applied_eq _ _ hloop := by cases hloop

theorem State.Sound.init : (init : State partitions V Bytes).Sound codec log :=
  State.Sound.boot fun _ => Nat.zero_le _

variable (codec log) in
/-- What each action does to the state it is taken in. -/
inductive Change (state : State partitions V Bytes) :
    Action partitions → State partitions V Bytes → Prop
  | receive {partition : Fin partitions} {raw : Bytes} (hloop : state.loop = .awaiting)
      (hraw : (log partition)[state.position partition]? = some raw) :
      Change state (.receive partition) { state with
        position := Function.update state.position partition (state.position partition + 1)
        loop := .received partition raw (state.position partition) }
  | apply {partition : Fin partitions} {raw : Bytes} {offset : Nat}
      (hloop : state.loop = .received partition raw offset) :
      Change state .apply { state with
        store := (applyMessage codec raw state.store).1
        handed := state.handed ++ [(partition, raw)]
        loop := .applied partition offset }
  | commit {partition : Fin partitions} {offset : Nat}
      (hloop : state.loop = .applied partition offset) :
      Change state .commit { state with
        committed := Function.update state.committed partition (some (offset + 1))
        loop := .awaiting }
  | ended {action : Action partitions} (haction : action = .commitFails ∨ action = .cancel) :
      Change state action { state with loop := .ended state.loop.uncommitted }
  | restart : Change state .restart (MessageQueue.boot state.committed)

theorem change_of_step {state next : State partitions V Bytes} {action : Action partitions}
    (hnext : step codec log state action = some next) : Change codec log state action next := by
  cases action with
  | receive partition =>
      simp only [step] at hnext
      split at hnext
      · next hloop =>
          obtain ⟨raw, hraw, rfl⟩ := Option.map_eq_some_iff.mp hnext
          exact .receive hloop hraw
      · cases hnext
  | apply =>
      simp only [step] at hnext
      split at hnext
      · next hloop =>
          obtain rfl := Option.some.inj hnext
          exact .apply hloop
      · cases hnext
  | commit =>
      simp only [step] at hnext
      split at hnext
      · next hloop =>
          obtain rfl := Option.some.inj hnext
          exact .commit hloop
      · cases hnext
  | commitFails =>
      simp only [step] at hnext
      split at hnext
      · next partition _ hloop =>
          obtain rfl := Option.some.inj hnext
          have huncommitted : state.loop.uncommitted = some partition := by
            rw [hloop]
            rfl
          exact huncommitted ▸ .ended (Or.inl rfl)
      · cases hnext
  | cancel =>
      simp only [step] at hnext
      split at hnext
      · cases hnext
      · obtain rfl := Option.some.inj hnext
        exact .ended (Or.inr rfl)
  | restart =>
      obtain rfl := Option.some.inj hnext
      exact .restart

/-- Only a restart changes the offsets a process resumed from. -/
theorem resumedAt_of_step {state next : State partitions V Bytes} {action : Action partitions}
    (hkeeps : action ≠ .restart) (hnext : step codec log state action = some next) :
    next.resumedAt = state.resumedAt := by
  cases change_of_step hnext with
  | restart => exact absurd rfl hkeeps
  | receive => rfl
  | apply => rfl
  | commit => rfl
  | ended => rfl

namespace State.Sound

variable {state next : State partitions V Bytes} {action : Action partitions}

theorem position_of_awaiting (hsound : state.Sound codec log) (hloop : state.loop = .awaiting)
    (partition : Fin partitions) : state.position partition = state.next partition := by
  have hrunning : state.loop.Running := by rw [hloop]; trivial
  have hposition := hsound.position_eq hrunning partition
  rw [hloop] at hposition
  simpa [Stage.unapplied] using hposition

/-- The group's offsets are within the log. -/
theorem committedOffset_le (hsound : state.Sound codec log) (partition : Fin partitions) :
    state.committedOffset partition ≤ (log partition).length := by
  have hcommitted := hsound.committed_eq partition
  have hnext := hsound.next_le partition
  omega

/-- Applying a message advances the end of what was applied in its partition. -/
theorem next_apply (state : State partitions V Bytes) (partition other : Fin partitions)
    (raw : Bytes) (offset : Nat) (store : KVStore V) :
    { state with
      store := store
      handed := state.handed ++ [(partition, raw)]
      loop := .applied partition offset }.next other =
      state.next other + if partition = other then 1 else 0 := by
  simp only [State.next, State.handedIn, State.handedIn_append, List.length_append]
  split <;> simp [Nat.add_assoc]

/-- A key's register has been offered the versions handed over, in order. -/
theorem get_store (hsound : state.Sound codec log) (key : String) :
    state.store.get key = offerAll VersionedValue.Newer none
      (versionsOf codec key (state.handed.map Prod.snd)) := by
  rw [hsound.store_eq, get_applyAll, KVStore.get_init]

/-- A message is taken: the consumer moves one past it, and it is not applied yet. -/
theorem receive (hsound : state.Sound codec log) {partition : Fin partitions} {raw : Bytes}
    (hloop : state.loop = .awaiting)
    (hraw : (log partition)[state.position partition]? = some raw) :
    State.Sound codec log { state with
      position := Function.update state.position partition (state.position partition + 1)
      loop := .received partition raw (state.position partition) } := by
  have hposition := hsound.position_of_awaiting hloop
  refine ⟨hsound.store_eq, hsound.handedIn_eq, hsound.next_le, ?_, ?_, ?_, ?_⟩
  · intro other
    have hcommitted := hsound.committed_eq other
    rw [hloop] at hcommitted
    exact hcommitted
  · intro _ other
    have hother := hposition other
    by_cases heq : partition = other
    · subst heq
      simpa [Stage.unapplied, State.next, State.handedIn] using hother
    · simpa [Stage.unapplied, State.next, State.handedIn, heq, Ne.symm heq] using hother
  · rintro _ _ _ ⟨⟩
    exact ⟨hposition partition, hraw⟩
  · rintro _ _ ⟨⟩

/-- The messages of a partition stay consecutive when the one received is applied. -/
theorem handedIn_apply (hsound : state.Sound codec log) {partition : Fin partitions}
    {raw : Bytes} {offset : Nat} (hloop : state.loop = .received partition raw offset)
    (other : Fin partitions) :
    ((state.handed ++ [(partition, raw)]).filter fun message => message.1 = other).map Prod.snd =
      ((log other).drop (state.resumedAt other)).take
        (((state.handed ++ [(partition, raw)]).filter fun message =>
          message.1 = other).map Prod.snd).length := by
  obtain ⟨hoffset, hraw⟩ := hsound.received_eq _ _ _ hloop
  have hold := hsound.handedIn_eq other
  simp only [State.handedIn, State.handedIn_append] at hold ⊢
  split
  · next heq =>
      subst heq
      -- the new message is the one right behind those handed over
      rw [hoffset, State.next, State.handedIn, ← List.getElem?_drop] at hraw
      rw [List.length_append, List.length_singleton, List.take_add_one, hraw, ← hold]
      rfl
  · simpa using hold

/-- The message is applied: its partition is one message ahead of what is committed. -/
theorem apply (hsound : state.Sound codec log) {partition : Fin partitions} {raw : Bytes}
    {offset : Nat} (hloop : state.loop = .received partition raw offset) :
    State.Sound codec log { state with
      store := (applyMessage codec raw state.store).1
      handed := state.handed ++ [(partition, raw)]
      loop := .applied partition offset } := by
  obtain ⟨hoffset, hraw⟩ := hsound.received_eq _ _ _ hloop
  have hcommitted := hsound.committed_eq
  have hposition := hsound.position_eq (by rw [hloop]; trivial)
  simp only [hloop, Stage.uncommitted, Stage.unapplied, reduceCtorEq, if_false,
    Option.some.injEq] at hcommitted hposition
  have hnext := fun other => next_apply state partition other raw offset
    ((applyMessage codec raw state.store).1)
  refine ⟨?_, hsound.handedIn_apply hloop, ?_, ?_, ?_, ?_, ?_⟩
  · simp [hsound.store_eq, applyAll]
  · intro other
    have hwithin := hsound.next_le other
    rw [hnext]
    split
    · next heq =>
        subst heq
        have hlt := (List.getElem?_eq_some_iff.mp hraw).1
        omega
    · simpa using hwithin
  · intro other
    rw [hnext]
    simpa [Stage.uncommitted, State.committedOffset] using hcommitted other
  · intro _ other
    rw [hnext]
    simpa [Stage.unapplied] using hposition other
  · rintro _ _ _ ⟨⟩
  · rintro _ _ ⟨⟩
    rw [hnext]
    simp [hoffset]

/-- The message is committed: the offsets are up to date again. -/
theorem commit (hsound : state.Sound codec log) {partition : Fin partitions} {offset : Nat}
    (hloop : state.loop = .applied partition offset) :
    State.Sound codec log { state with
      committed := Function.update state.committed partition (some (offset + 1))
      loop := .awaiting } := by
  have hoffset := hsound.applied_eq _ _ hloop
  have hcommitted := hsound.committed_eq
  have hposition := hsound.position_eq (by rw [hloop]; trivial)
  simp only [hloop, Stage.uncommitted, Stage.unapplied, reduceCtorEq, if_false,
    Option.some.injEq] at hcommitted hposition
  refine ⟨hsound.store_eq, hsound.handedIn_eq, hsound.next_le, ?_, ?_, ?_, ?_⟩
  · intro other
    have hother := hcommitted other
    by_cases heq : partition = other
    · subst heq
      simpa [State.committedOffset, Stage.uncommitted, State.next, State.handedIn] using hoffset
    · simpa [State.committedOffset, Stage.uncommitted, State.next, State.handedIn, heq,
        Ne.symm heq] using hother
  · exact fun _ => hposition
  · rintro _ _ _ ⟨⟩
  · rintro _ _ ⟨⟩

/-- The loop ends where it stands; a message applied and not committed stays so. -/
theorem ended (hsound : state.Sound codec log) :
    State.Sound codec log { state with loop := .ended state.loop.uncommitted } := by
  refine ⟨hsound.store_eq, hsound.handedIn_eq, hsound.next_le, hsound.committed_eq,
    fun hrunning => hrunning.elim, ?_, ?_⟩
  · rintro _ _ _ ⟨⟩
  · rintro _ _ ⟨⟩

theorem of_change (hsound : state.Sound codec log) (hchange : Change codec log state action next) :
    next.Sound codec log := by
  cases hchange with
  | receive hloop hraw => exact hsound.receive hloop hraw
  | apply hloop => exact hsound.apply hloop
  | commit hloop => exact hsound.commit hloop
  | ended haction => exact hsound.ended
  | restart =>
      -- the group's offsets survive the process, and the store starts from them again
      exact State.Sound.boot hsound.committedOffset_le

theorem step (hsound : state.Sound codec log)
    (hnext : MessageQueue.step codec log state action = some next) : next.Sound codec log :=
  hsound.of_change (change_of_step hnext)

/-- Soundness is kept along every run, crashes and restarts included. -/
theorem run {actions : List (Action partitions)} {final : State partitions V Bytes}
    (hsound : state.Sound codec log)
    (hrun : Runs.run (MessageQueue.step codec log) state actions = some final) :
    final.Sound codec log :=
  Runs.run_invariant (State.Sound codec log)
    (fun _ _ _ (_ : True) hsound hnext => hsound.step hnext) (fun _ _ => trivial) hsound hrun

end State.Sound

end KvReplication.MessageQueue
