import Mathlib.Algebra.GroupWithZero.Nat
import Mathlib.Data.List.Forall2
import Mathlib.Data.List.Nodup

/-! # Lists of records that change one at a time

A system keeps a record of each request it has taken, in the order they came in. One
action adds a record or replaces one by a later record of the same request. What holds
of all records then has to be shown of the one that is new.
-/

namespace Records

variable {Record : Type*} {records : List Record}

theorem forall_mem_set {property : Record → Prop}
    (hrecords : ∀ record ∈ records, property record) (index : Nat) {changed : Record}
    (hchanged : property changed) : ∀ record ∈ records.set index changed, property record := by
  intro record hrecord
  rcases List.mem_or_eq_of_mem_set hrecord with hold | rfl
  · exact hrecords record hold
  · exact hchanged

theorem forall_mem_concat {property : Record → Prop}
    (hrecords : ∀ record ∈ records, property record) {added : Record} (hadded : property added) :
    ∀ record ∈ records ++ [added], property record := by
  intro record hrecord
  rcases List.mem_append.mp hrecord with hold | hnew
  · exact hrecords record hold
  · obtain rfl := List.mem_singleton.mp hnew
    exact hadded

/-- The same for a property that depends on the place of the record. -/
theorem forall_getElem?_set {property : Nat → Record → Prop}
    (hrecords : ∀ (place : Nat) record, records[place]? = some record → property place record)
    {index : Nat} {changed : Record} (hchanged : property index changed) :
    ∀ (place : Nat) record, (records.set index changed)[place]? = some record →
      property place record := by
  intro place record hrecord
  by_cases heq : index = place
  · subst heq
    rw [List.getElem?_set_self'] at hrecord
    obtain ⟨_, _, rfl⟩ := Option.map_eq_some_iff.mp hrecord
    exact hchanged
  · rw [List.getElem?_set_ne heq] at hrecord
    exact hrecords place record hrecord

theorem forall_getElem?_concat {property : Nat → Record → Prop}
    (hrecords : ∀ (place : Nat) record, records[place]? = some record → property place record)
    {added : Record} (hadded : property records.length added) :
    ∀ (place : Nat) record, (records ++ [added])[place]? = some record →
      property place record := by
  intro place record hrecord
  rcases Nat.lt_or_ge place records.length with hbefore | hnew
  · rw [List.getElem?_append_left hbefore] at hrecord
    exact hrecords place record hrecord
  · rw [List.getElem?_append_right hnew] at hrecord
    obtain rfl := List.mem_singleton.mp (List.mem_of_getElem? hrecord)
    obtain rfl : place = records.length := by
      have hbound := (List.getElem?_eq_some_iff.mp hrecord).1
      rw [List.length_singleton] at hbound
      omega
    exact hadded

/-- A record stays in its place, as itself or as a later record. -/
theorem exists_getElem?_set (later : Record → Record → Prop) {index : Nat} {old changed : Record}
    (hold : records[index]? = some old) (hchanged : later old changed) {place : Nat}
    {record : Record} (hrecord : records[place]? = some record) (hsame : later record record) :
    ∃ next, (records.set index changed)[place]? = some next ∧ later record next := by
  by_cases heq : index = place
  · subst heq
    obtain rfl := Option.some.inj (hold.symm.trans hrecord)
    have hbound := (List.getElem?_eq_some_iff.mp hold).1
    exact ⟨changed, List.getElem?_set_self hbound, hchanged⟩
  · exact ⟨record, by rw [List.getElem?_set_ne heq, hrecord], hsame⟩

theorem exists_getElem?_append (later : Record → Record → Prop) (added : List Record) {place : Nat}
    {record : Record} (hrecord : records[place]? = some record) (hsame : later record record) :
    ∃ next, (records ++ added)[place]? = some next ∧ later record next := by
  have hbound := (List.getElem?_eq_some_iff.mp hrecord).1
  exact ⟨record, by rw [List.getElem?_append_left hbound, hrecord], hsame⟩

/-- What all records had in view before is what they have in view after a replacement that
keeps it. -/
theorem exists_mem_of_mem_set {View : Type*} (view : Record → View) {index : Nat}
    {old changed : Record} (hold : records[index]? = some old) (hview : view changed = view old)
    {record : Record} (hrecord : record ∈ records.set index changed) :
    ∃ earlier ∈ records, view earlier = view record := by
  rcases List.mem_or_eq_of_mem_set hrecord with hbefore | rfl
  · exact ⟨record, hbefore, rfl⟩
  · exact ⟨old, List.mem_of_getElem? hold, hview.symm⟩

/-- A record whose view is kept may be changed. -/
theorem map_set_of_eq {View : Type*} (view : Record → View) {index : Nat} {old changed : Record}
    (hold : records[index]? = some old) (hview : view changed = view old) :
    (records.set index changed).map view = records.map view := by
  obtain ⟨hbound, rfl⟩ := List.getElem?_eq_some_iff.mp hold
  have hsame := @List.set_getElem_self _ (records.map view) index (by simpa using hbound)
  rw [List.map_set, hview]
  simpa using hsame

/-- Records that belong to the entries of another list still do after a replacement that
belongs to whatever the old record did. -/
theorem forall₂_set {Entry : Type*} {belongs : Entry → Record → Prop} {entries : List Entry}
    (hrecords : List.Forall₂ belongs entries records) {index : Nat} {old changed : Record}
    (hold : records[index]? = some old)
    (hchanged : ∀ entry, belongs entry old → belongs entry changed) :
    List.Forall₂ belongs entries (records.set index changed) := by
  induction hrecords generalizing index with
  | nil => exact .nil
  | cons hfirst hrest ih =>
      cases index with
      | zero =>
          obtain rfl := Option.some.inj hold
          exact .cons (hchanged _ hfirst) hrest
      | succ index => exact .cons hfirst (ih hold)

/-- The record at an index belongs to the entry there. -/
theorem entry_of_forall₂ {Entry : Type*} {belongs : Entry → Record → Prop} {entries : List Entry}
    (hrecords : List.Forall₂ belongs entries records) {index : Nat} {record : Record}
    (hrecord : records[index]? = some record) :
    ∃ entry, entries[index]? = some entry ∧ belongs entry record := by
  induction hrecords generalizing index with
  | nil => simp at hrecord
  | cons hfirst hrest ih =>
      cases index with
      | zero =>
          obtain rfl := Option.some.inj hrecord
          exact ⟨_, rfl, hfirst⟩
      | succ index => exact ih hrecord

/-- Replacing one record changes a sum by the new term minus the old one. -/
theorem sum_map_set (value : Record → Nat) {index : Nat} {old : Record}
    (hold : records[index]? = some old) (changed : Record) :
    ((records.set index changed).map value).sum + value old =
      (records.map value).sum + value changed := by
  induction records generalizing index with
  | nil => simp at hold
  | cons first rest ih =>
      cases index with
      | zero =>
          obtain rfl : first = old := by simpa using hold
          simp only [List.set_cons_zero, List.map_cons, List.sum_cons]
          omega
      | succ index =>
          have hrest : rest[index]? = some old := by simpa using hold
          have htail := ih hrest
          simp only [List.set_cons_succ, List.map_cons, List.sum_cons]
          omega

/-- The number of records of a kind changes with the one record whose kind does. -/
theorem countP_change (before after : Record → Bool) {record : Record} (hnodup : records.Nodup)
    (hrecord : record ∈ records)
    (hother : ∀ other ∈ records, other ≠ record → after other = before other) :
    records.countP after + (before record).toNat =
      records.countP before + (after record).toNat := by
  induction records with
  | nil => cases hrecord
  | cons first rest ih =>
      obtain ⟨hfresh, hrest⟩ := List.nodup_cons.mp hnodup
      rw [List.countP_cons, List.countP_cons]
      rcases List.mem_cons.mp hrecord with rfl | htail
      · have hsame : rest.countP after = rest.countP before := by
          refine List.countP_congr fun other hmem => ?_
          rw [hother other (List.mem_cons_of_mem _ hmem) fun heq => hfresh (heq ▸ hmem)]
        rw [hsame]
        cases before record <;> cases after record <;> simp
      · have hne : first ≠ record := fun heq => hfresh (heq ▸ htail)
        have hih := ih hrest htail fun other hmem =>
          hother other (List.mem_cons_of_mem _ hmem)
        rw [hother first List.mem_cons_self hne]
        omega

end Records
