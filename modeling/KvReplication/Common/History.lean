import KvReplication.Common.Server
import Mathlib.Data.Prod.Lex

/-! # Stores and their histories

A store compares a write only with the version it holds at that moment. Read over
a whole history of calls this is a statement about all writes to a key since its
last removal: the held version is the first of those with the highest stamp.
-/

namespace KvReplication

open LastWriterWins

/-- A call on a store; `Version` is what a put carries. -/
inductive StoreCall (Version : Type) where
  | get (key : String)
  | put (key : String) (version : Version)
  | delete (key : String)
  | keyCount

/-- What a call returns. -/
inductive StoreAnswer (V : Type) where
  | entry (found : Option (VersionedValue V))
  | applied (flag : Bool)
  | deleted (flag : Bool)
  | count (keys : Nat)
deriving DecidableEq

namespace StoreCall

variable {Version Other : Type}

def map (view : Version → Other) : StoreCall Version → StoreCall Other
  | .get key => .get key
  | .put key version => .put key (view version)
  | .delete key => .delete key
  | .keyCount => .keyCount

/-- The call concerns `key`. -/
def isOn (key : String) : StoreCall Version → Bool
  | .get other => other == key
  | .put other _ => other == key
  | .delete other => other == key
  | .keyCount => false

@[simp] theorem isOn_map (key : String) (view : Version → Other) (call : StoreCall Version) :
    (call.map view).isOn key = call.isOn key := by
  cases call <;> rfl

/-- The puts to a key that no later removal of the key follows, after one more call. -/
def recordPut (key : String) (puts : List Version) : StoreCall Version → List Version
  | .get _ => puts
  | .put other version => if other = key then puts ++ [version] else puts
  | .delete other => if other = key then [] else puts
  | .keyCount => puts

/-- The puts to `key` since its last removal, in their order. -/
def putsSince (key : String) (history : List (StoreCall Version)) : List Version :=
  history.foldl (recordPut key) []

@[simp] theorem putsSince_nil (key : String) :
    putsSince key ([] : List (StoreCall Version)) = [] := rfl

theorem putsSince_concat (key : String) (history : List (StoreCall Version))
    (call : StoreCall Version) :
    putsSince key (history ++ [call]) = recordPut key (putsSince key history) call := by
  simp [putsSince]

theorem putsSince_map (key : String) (view : Version → Other)
    (history : List (StoreCall Version)) :
    putsSince key (history.map (map view)) = (putsSince key history).map view := by
  induction history using List.reverseRecOn with
  | nil => rfl
  | append_singleton history call ih =>
      rw [List.map_append, List.map_singleton, putsSince_concat, putsSince_concat, ih]
      cases call with
      | get other => rfl
      | put other version => by_cases hkey : other = key <;> simp [map, recordPut, hkey]
      | delete other => by_cases hkey : other = key <;> simp [map, recordPut, hkey]
      | keyCount => rfl

end StoreCall

namespace KVStore

variable {V : Type}

/-- One call, and what it returns. -/
def call (store : KVStore V) : StoreCall (VersionedValue V) → KVStore V × StoreAnswer V
  | .get key => (store, .entry (store.get key))
  | .put key version =>
      let (store, applied) := store.put key version.value version.timestamp version.nodeId
      (store, .applied applied)
  | .delete key =>
      let (store, deleted) := store.delete key
      (store, .deleted deleted)
  | .keyCount => (store, .count store.keyCount)

/-- The store after a history of calls. -/
def after (store : KVStore V) (history : List (StoreCall (VersionedValue V))) : KVStore V :=
  history.foldl (fun store call => (store.call call).1) store

/-- What the calls of a history return, one after the other. -/
def answers (store : KVStore V) : List (StoreCall (VersionedValue V)) → List (StoreAnswer V)
  | [] => []
  | call :: rest => (store.call call).2 :: answers (store.call call).1 rest

theorem after_concat (store : KVStore V) (history : List (StoreCall (VersionedValue V)))
    (call : StoreCall (VersionedValue V)) :
    store.after (history ++ [call]) = ((store.after history).call call).1 := by
  simp [after]

/-- The version a key holds after one more call on the store. -/
def register (key : String) (held : Option (VersionedValue V)) :
    StoreCall (VersionedValue V) → Option (VersionedValue V)
  | .get _ => held
  | .put other version => if key = other then offer VersionedValue.Newer held version else held
  | .delete other => if key = other then none else held
  | .keyCount => held

theorem get_call (store : KVStore V) (key : String) (call : StoreCall (VersionedValue V)) :
    (store.call call).1.get key = register key (store.get key) call := by
  cases call with
  | get other => rfl
  | put other version =>
      refine (get_put store other key version).trans ?_
      by_cases hkey : key = other
      · rw [register, if_pos hkey, if_pos hkey, hkey]
      · rw [register, if_neg hkey, if_neg hkey]
  | delete other => exact get_delete store other key
  | keyCount => rfl

/-- Each key of a store is a register that was offered the puts since its last removal. -/
theorem get_after (history : List (StoreCall (VersionedValue V))) (key : String) :
    (init.after history).get key =
      offerAll VersionedValue.Newer none (StoreCall.putsSince key history) := by
  induction history using List.reverseRecOn with
  | nil => rfl
  | append_singleton history call ih =>
      rw [after_concat, get_call, ih, StoreCall.putsSince_concat]
      cases call with
      | get other => rfl
      | put other version =>
          by_cases hkey : key = other
          · subst hkey
            simp [register, StoreCall.recordPut, offerAll_concat]
          · simp [register, StoreCall.recordPut, hkey, Ne.symm hkey]
      | delete other =>
          by_cases hkey : key = other
          · subst hkey
            simp [register, StoreCall.recordPut]
          · simp [register, StoreCall.recordPut, hkey, Ne.symm hkey]
      | keyCount => rfl

theorem getElem?_answers (store : KVStore V) (history : List (StoreCall (VersionedValue V)))
    (place : Nat) :
    (store.answers history)[place]? =
      history[place]?.map fun call => ((store.after (history.take place)).call call).2 := by
  induction history generalizing store place with
  | nil => rfl
  | cons call rest ih =>
      cases place with
      | zero => rfl
      | succ place =>
          simp only [answers, List.getElem?_cons_succ, List.take_succ_cons]
          exact ih _ place

theorem mem_keys_iff (store : KVStore V) (key : String) :
    key ∈ store.data.keys ↔ (store.get key).isSome = true := by
  rw [Finmap.mem_keys, ← Finmap.lookup_isSome]
  rfl

theorem delete_flag (store : KVStore V) (key : String) :
    (store.delete key).2 = (store.get key).isSome := by
  unfold delete
  split
  · next hpresent => exact hpresent.symm
  · next habsent => exact (Bool.not_eq_true _ ▸ habsent).symm

/-- A call on a key returns the same from stores that hold the same at that key. -/
theorem call_answer_congr {left right : KVStore V} {key : String}
    (hget : left.get key = right.get key) {call : StoreCall (VersionedValue V)}
    (hkey : call.isOn key = true) : (left.call call).2 = (right.call call).2 := by
  cases call with
  | get other =>
      obtain rfl : other = key := by simpa [StoreCall.isOn] using hkey
      simp [KVStore.call, hget]
  | put other version =>
      obtain rfl : other = key := by simpa [StoreCall.isOn] using hkey
      have hflags : (left.put other version.value version.timestamp version.nodeId).2 =
          (right.put other version.value version.timestamp version.nodeId).2 := by
        rw [Bool.eq_iff_iff, put_applied_iff, put_applied_iff, hget]
      exact congrArg StoreAnswer.applied hflags
  | delete other =>
      obtain rfl : other = key := by simpa [StoreCall.isOn] using hkey
      have hflags : (left.delete other).2 = (right.delete other).2 := by
        rw [delete_flag, delete_flag, hget]
      exact congrArg StoreAnswer.deleted hflags
  | keyCount => cases hkey

/-- A call on another key leaves a register as it is. -/
theorem register_of_not_isOn {key : String} {call : StoreCall (VersionedValue V)}
    (hkey : call.isOn key = false) (held : Option (VersionedValue V)) :
    register key held call = held := by
  cases call with
  | get other => rfl
  | put other version =>
      have hother : key ≠ other := fun heq => by simp [StoreCall.isOn, heq] at hkey
      exact if_neg hother
  | delete other =>
      have hother : key ≠ other := fun heq => by simp [StoreCall.isOn, heq] at hkey
      exact if_neg hother
  | keyCount => rfl

/-- The answers of those calls of a history that concern `key`. -/
def answersOn (key : String) (store : KVStore V)
    (history : List (StoreCall (VersionedValue V))) : List (StoreAnswer V) :=
  ((history.zip (store.answers history)).filter fun entry => entry.1.isOn key).map Prod.snd

/-- What calls on one key return does not depend on calls on other keys. -/
theorem answersOn_eq {left right : KVStore V} {key : String}
    (hget : left.get key = right.get key) (history : List (StoreCall (VersionedValue V))) :
    answersOn key left history = right.answers (history.filter (StoreCall.isOn key)) := by
  induction history generalizing left right with
  | nil => rfl
  | cons call rest ih =>
      cases hkey : call.isOn key with
      | true =>
          have hnext : (left.call call).1.get key = (right.call call).1.get key := by
            rw [get_call, get_call, hget]
          simp only [answersOn, answers, List.zip_cons_cons, List.filter_cons, hkey, if_true,
            List.map_cons, List.cons.injEq]
          exact ⟨call_answer_congr hget hkey, ih hnext⟩
      | false =>
          have hnext : (left.call call).1.get key = right.get key := by
            rw [get_call, register_of_not_isOn hkey, hget]
          simp only [answersOn, answers, List.zip_cons_cons, List.filter_cons, hkey,
            Bool.false_eq_true, if_false]
          exact ih hnext

end KVStore

/-- A version whose timestamp is a finite number, as a clock reads it. -/
structure FiniteVersion (V : Type) where
  value : V
  timestamp : ℚ
  nodeId : String

namespace FiniteVersion

variable {V : Type}

def version (entry : FiniteVersion V) : VersionedValue V :=
  ⟨entry.value, .finite entry.timestamp, entry.nodeId⟩

/-- Stamps are ordered by timestamp, equal timestamps by node id. -/
def stamp (entry : FiniteVersion V) : ℚ ×ₗ String := toLex (entry.timestamp, entry.nodeId)

theorem stamp_lt_iff {left right : FiniteVersion V} :
    left.stamp < right.stamp ↔ left.timestamp < right.timestamp ∨
      left.timestamp = right.timestamp ∧ left.nodeId < right.nodeId :=
  Prod.Lex.toLex_lt_toLex

theorem newer_version_iff (left right : FiniteVersion V) :
    left.version.Newer right.version ↔ HigherStamp stamp left right := by
  rw [VersionedValue.newer_iff, HigherStamp, stamp_lt_iff]
  simp only [version, PyFloat.gt, decide_eq_true_eq, PyFloat.finite.injEq, ne_eq,
    reduceCtorEq, not_false_eq_true, true_and]
  rw [eq_comm (a := left.timestamp)]

/-- What a register holds after finite versions were offered to it. -/
theorem offerAll_version (entries : List (FiniteVersion V)) :
    offerAll VersionedValue.Newer none (entries.map version) =
      (offerAll (HigherStamp stamp) none entries).map version :=
  offerAll_map version newer_version_iff none entries

end FiniteVersion

section Characterisation

variable {V : Type}

open StoreCall FiniteVersion

/-- What the calls made so far say a call returns. -/
def Answered (history : List (StoreCall (FiniteVersion V))) :
    StoreCall (FiniteVersion V) → StoreAnswer V → Prop
  | .get key, .entry found => ∃ held, FirstHighest stamp (putsSince key history) held ∧
      found = held.map version
  | .put key incoming, .applied flag =>
      flag = true ↔ ∀ earlier ∈ putsSince key history, earlier.stamp < incoming.stamp
  | .delete key, .deleted flag => flag = true ↔ putsSince key history ≠ []
  | .keyCount, .count keys => ∃ used : Finset String,
      (∀ key, key ∈ used ↔ putsSince key history ≠ []) ∧ keys = used.card
  | _, _ => False

/-- The register behind a key, for histories of finite versions. -/
theorem get_after_version (history : List (StoreCall (FiniteVersion V))) (key : String) :
    ((KVStore.init : KVStore V).after (history.map (map version))).get key =
      (offerAll (HigherStamp stamp) none (putsSince key history)).map version := by
  rw [KVStore.get_after, putsSince_map, offerAll_version]

theorem isSome_get_after (history : List (StoreCall (FiniteVersion V))) (key : String) :
    (((KVStore.init : KVStore V).after (history.map (map version))).get key).isSome = true ↔
      putsSince key history ≠ [] := by
  rw [get_after_version, Option.isSome_map]
  have hheld := firstHighest_offerAll stamp (putsSince key history)
  cases hregister : offerAll (HigherStamp stamp) none (putsSince key history) with
  | none =>
      rw [hregister] at hheld
      simp [show putsSince key history = [] from hheld]
  | some held =>
      rw [hregister] at hheld
      exact ⟨fun _ hempty => by simpa [hempty] using hheld.mem, fun _ => rfl⟩

/-- Each call returns what the calls before it say. -/
theorem answered_call (history : List (StoreCall (FiniteVersion V)))
    (call : StoreCall (FiniteVersion V)) :
    Answered history call
      ((KVStore.init.after (history.map (map version))).call (call.map version)).2 := by
  cases call with
  | get key =>
      exact ⟨_, firstHighest_offerAll stamp (putsSince key history),
        get_after_version history key⟩
  | put key incoming =>
      refine (KVStore.put_applied_iff _ key incoming.version).trans ?_
      rw [get_after_version]
      have hheld := firstHighest_offerAll stamp (putsSince key history)
      cases hregister : offerAll (HigherStamp stamp) none (putsSince key history) with
      | none =>
          rw [hregister] at hheld
          simp [show putsSince key history = [] from hheld]
      | some held =>
          rw [hregister] at hheld
          simp only [Option.map_some, Option.some.injEq, forall_eq', newer_version_iff,
            HigherStamp]
          exact ⟨fun hhigher earlier hearlier => lt_of_le_of_lt (hheld.le hearlier) hhigher,
            fun hall => hall held hheld.mem⟩
  | delete key =>
      exact (Bool.eq_iff_iff.mp (KVStore.delete_flag _ key)).trans (isSome_get_after history key)
  | keyCount =>
      refine ⟨_, fun key => ?_, rfl⟩
      rw [KVStore.mem_keys_iff]
      exact isSome_get_after history key

/-- A store is characterised by its history: every call of a sequence returns what the
calls before it say, and calls on a key return what they would if the sequence held no
calls on other keys. -/
theorem store_characterised_by_history (calls : List (StoreCall (FiniteVersion V))) :
    (∀ (place : Nat) call, calls[place]? = some call →
      ∃ answer, (KVStore.init.answers (calls.map (map version)))[place]? = some answer ∧
        Answered (calls.take place) call answer) ∧
    ∀ key, KVStore.answersOn key KVStore.init (calls.map (map version)) =
      KVStore.init.answers ((calls.filter (isOn key)).map (map version)) := by
  constructor
  · intro place call hcall
    refine ⟨_, ?_, answered_call (calls.take place) call⟩
    rw [KVStore.getElem?_answers, List.getElem?_map, hcall, ← List.map_take]
    rfl
  · intro key
    have hown : (calls.map (map version)).filter (isOn key) =
        (calls.filter (isOn key)).map (map version) := by
      rw [List.filter_map]
      exact congrArg _ (List.filter_congr fun call _ => isOn_map key version call)
    rw [← hown]
    exact KVStore.answersOn_eq rfl _

end Characterisation

end KvReplication
