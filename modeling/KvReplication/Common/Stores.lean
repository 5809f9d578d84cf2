import KvReplication.Common.Storage

/-! # The stores of several nodes

A node writes its own store only, so a step of a cluster changes one store by one
versioned write or one removal. These are the facts about such a step that every
cluster needs.
-/

namespace KvReplication.Stores

open LastWriterWins

variable {Site : Type*} [DecidableEq Site] {V : Type}

/-- The node at `site` puts a version. -/
def write (stores : Site → KVStore V) (site : Site) (key : String)
    (version : VersionedValue V) : Site → KVStore V :=
  Function.update stores site
    ((stores site).put key version.value version.timestamp version.nodeId).1

/-- The node at `site` deletes a key. -/
def remove (stores : Site → KVStore V) (site : Site) (key : String) : Site → KVStore V :=
  Function.update stores site ((stores site).delete key).1

theorem holds_write_self (stores : Site → KVStore V) (site : Site) (key : String)
    (version : VersionedValue V) : (write stores site key version site).Holds key version := by
  rw [write, Function.update_self]
  exact KVStore.holds_put_self _ _ _

/-- A write takes no node below what it holds. -/
theorem holds_write {stores : Site → KVStore V} {other : Site} {key : String}
    {version : VersionedValue V} (hholds : (stores other).Holds key version) (site : Site)
    (writtenKey : String) (written : VersionedValue V) :
    (write stores site writtenKey written other).Holds key version := by
  by_cases hsite : other = site
  · subst hsite
    rw [write, Function.update_self]
    exact hholds.put writtenKey written
  · rwa [write, Function.update_of_ne hsite]

/-- What is stored after a write is that version, or was stored before. -/
theorem get_write_cases {stores : Site → KVStore V} {site other : Site} {key : String}
    {version entry : VersionedValue V} {otherKey : String}
    (hentry : (write stores site key version other).get otherKey = some entry) :
    (stores other).get otherKey = some entry ∨
      other = site ∧ otherKey = key ∧ entry = version := by
  by_cases hsite : other = site
  · subst hsite
    rw [write, Function.update_self] at hentry
    exact (KVStore.get_put_cases hentry).imp_right fun hwritten => ⟨rfl, hwritten⟩
  · rw [write, Function.update_of_ne hsite] at hentry
    exact Or.inl hentry

theorem write_eq_of_rejected {stores : Site → KVStore V} {site : Site} {key : String}
    {version : VersionedValue V}
    (hrejected : ((stores site).put key version.value version.timestamp version.nodeId).2 = false) :
    write stores site key version = stores := by
  rw [write, KVStore.put_eq_of_rejected hrejected, Function.update_eq_self]

theorem get_remove_self (stores : Site → KVStore V) (site : Site) (key : String) :
    (remove stores site key site).get key = none := by
  rw [remove, Function.update_self, KVStore.get_delete, if_pos rfl]

/-- A removal adds nothing. -/
theorem get_of_get_remove {stores : Site → KVStore V} {site other : Site} {key otherKey : String}
    {entry : VersionedValue V} (hentry : (remove stores site key other).get otherKey = some entry) :
    (stores other).get otherKey = some entry := by
  by_cases hsite : other = site
  · subst hsite
    rw [remove, Function.update_self] at hentry
    exact KVStore.get_of_get_delete hentry
  · rwa [remove, Function.update_of_ne hsite] at hentry

end KvReplication.Stores
