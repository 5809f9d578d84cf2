import KvReplication.Common.Models
import Mathlib.Data.Finmap

/-! # The key-value store

Every operation runs under the store's single lock, so an operation is one
atomic function on the dictionary. At each key the store is a last-writer-wins
register.
-/

namespace KvReplication

open LastWriterWins

/-- An in-memory store; `data` is the dictionary guarded by the lock. -/
structure KVStore (V : Type) where
  data : Finmap (fun _ : String => VersionedValue V)

namespace KVStore

variable {V : Type}

/-- A fresh store holds nothing. -/
def init : KVStore V := ⟨∅⟩

/-- The version stored at `key`, if any. -/
def get (store : KVStore V) (key : String) : Option (VersionedValue V) :=
  store.data.lookup key

/-- Write a version unless what is stored is at least as new; the flag says
whether the write was applied. -/
def put (store : KVStore V) (key : String) (value : V) (timestamp : PyFloat)
    (nodeId : String) : KVStore V × Bool :=
  let incoming : VersionedValue V := ⟨value, timestamp, nodeId⟩
  match store.get key with
  | none => (⟨store.data.insert key incoming⟩, true)
  | some current =>
      if incoming.isNewerThan current then (⟨store.data.insert key incoming⟩, true)
      else (store, false)

/-- Remove `key`; the flag says whether it was present. -/
def delete (store : KVStore V) (key : String) : KVStore V × Bool :=
  if (store.get key).isSome then (⟨store.data.erase key⟩, true) else (store, false)

/-- The number of stored keys, as `/health` reports it. -/
def keyCount (store : KVStore V) : Nat := store.data.keys.card

@[simp] theorem get_init (key : String) : (init : KVStore V).get key = none := rfl

/-- A store is determined by what it holds at each key. -/
theorem ext_get {left right : KVStore V} (hget : ∀ key, left.get key = right.get key) :
    left = right := by
  cases left
  cases right
  exact congrArg mk (Finmap.ext_lookup hget)

/-- A write offers the version to the register at its key and touches no other. -/
theorem get_put (store : KVStore V) (key other : String) (version : VersionedValue V) :
    (store.put key version.value version.timestamp version.nodeId).1.get other =
      if other = key then offer VersionedValue.Newer (store.get key) version
      else store.get other := by
  unfold put
  by_cases heq : other = key
  · subst heq
    rw [if_pos rfl]
    cases hcurrent : store.get other with
    | none => exact Finmap.lookup_insert _
    | some current =>
        by_cases hnewer : version.isNewerThan current = true
        · simp only [hnewer, if_true]
          simp only [offer, VersionedValue.Newer, hnewer, if_true]
          exact Finmap.lookup_insert _
        · simp [offer, VersionedValue.Newer, hnewer, hcurrent]
  · rw [if_neg heq]
    cases store.get key with
    | none => exact Finmap.lookup_insert_of_ne _ heq
    | some current =>
        dsimp only
        split
        · exact Finmap.lookup_insert_of_ne _ heq
        · rfl

/-- What is stored after a write was stored before, or is the version written. -/
theorem get_put_cases {store : KVStore V} {key other : String} {version entry : VersionedValue V}
    (hentry : (store.put key version.value version.timestamp version.nodeId).1.get other =
      some entry) : store.get other = some entry ∨ other = key ∧ entry = version := by
  rw [get_put] at hentry
  split at hentry
  · next hkey =>
      subst hkey
      rcases offer_cases VersionedValue.Newer (store.get other) version with hnew | hold
      · exact Or.inr ⟨rfl, Option.some.inj (hentry.symm.trans hnew)⟩
      · exact Or.inl (hold.symm.trans hentry)
  · exact Or.inl hentry

theorem get_put_self (store : KVStore V) (key : String) (version : VersionedValue V) :
    (store.put key version.value version.timestamp version.nodeId).1.get key =
      offer VersionedValue.Newer (store.get key) version := by
  rw [get_put, if_pos rfl]

/-- A write is reported as applied exactly when nothing stored stands against it. -/
theorem put_applied_iff (store : KVStore V) (key : String) (version : VersionedValue V) :
    (store.put key version.value version.timestamp version.nodeId).2 = true ↔
      ∀ current, store.get key = some current → version.Newer current := by
  unfold put
  cases store.get key with
  | none => simp
  | some current =>
      by_cases hnewer : version.isNewerThan current = true
      · simp [VersionedValue.Newer, hnewer]
      · simp [VersionedValue.Newer, hnewer]

/-- A write that is not applied leaves the store as it is. -/
theorem put_eq_of_rejected {store : KVStore V} {key nodeId : String} {value : V}
    {timestamp : PyFloat} (hrejected : (store.put key value timestamp nodeId).2 = false) :
    (store.put key value timestamp nodeId).1 = store := by
  unfold put at hrejected ⊢
  cases hcurrent : store.get key with
  | none => simp [hcurrent] at hrejected
  | some current =>
      simp only [hcurrent] at hrejected ⊢
      split at hrejected
      · cases hrejected
      · next hnot => rw [if_neg hnot]

theorem get_delete (store : KVStore V) (key other : String) :
    (store.delete key).1.get other = if other = key then none else store.get other := by
  unfold delete
  by_cases hpresent : (store.get key).isSome = true
  · rw [if_pos hpresent]
    by_cases heq : other = key
    · subst heq
      rw [if_pos rfl]
      exact Finmap.lookup_erase other store.data
    · rw [if_neg heq]
      exact Finmap.lookup_erase_ne heq
  · rw [if_neg hpresent]
    by_cases heq : other = key
    · subst heq
      simpa using hpresent
    · simp [heq]

/-- A removal adds nothing. -/
theorem get_of_get_delete {store : KVStore V} {key other : String} {entry : VersionedValue V}
    (hentry : (store.delete key).1.get other = some entry) : store.get other = some entry := by
  rw [get_delete] at hentry
  split at hentry
  · cases hentry
  · exact hentry

/-- The store holds, at `key`, something `version` would not replace. -/
def Holds (store : KVStore V) (key : String) (version : VersionedValue V) : Prop :=
  Covers VersionedValue.Newer (store.get key) version

theorem holds_put_self (store : KVStore V) (key : String) (version : VersionedValue V) :
    (store.put key version.value version.timestamp version.nodeId).1.Holds key version := by
  unfold Holds
  rw [get_put_self]
  exact covers_offer_self _ _

theorem Holds.put {store : KVStore V} {key : String} {version : VersionedValue V}
    (hholds : store.Holds key version) (other : String) (incoming : VersionedValue V) :
    (store.put other incoming.value incoming.timestamp incoming.nodeId).1.Holds key version := by
  unfold Holds
  rw [get_put]
  split
  · next heq => exact Covers.offer (heq ▸ hholds) incoming
  · exact hholds

end KVStore

end KvReplication
