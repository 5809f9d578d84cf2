import KvReplication.Leaderless.Coordinator
import KvReplication.Common.History

/-! # Reads resolve conflicts as stores do

A coordinator scans the entries it collected, a store compares and replaces one write
at a time. Both are the register that was offered the entries in their order, so a
read answers what a fresh store holds after writing them.
-/

namespace KvReplication.Leaderless

open LastWriterWins VersionedValue

variable {V : Type}

/-- A fresh store after one put of each entry, in the order given. -/
def freshStore (key : String) (entries : List (VersionedValue V)) : KVStore V :=
  KVStore.init.after (entries.map (StoreCall.put key))

theorem putsSince_puts (key other : String) (entries : List (VersionedValue V)) :
    StoreCall.putsSince other (entries.map (StoreCall.put key)) =
      if key = other then entries else [] := by
  induction entries using List.reverseRecOn with
  | nil => simp
  | append_singleton entries entry ih =>
      rw [List.map_append, List.map_singleton, StoreCall.putsSince_concat, ih]
      by_cases hkey : key = other <;> simp [StoreCall.recordPut, hkey]

/-- The scan keeps what a fresh store holds. -/
theorem pickWinner_eq_get (key : String) (entries : List (VersionedValue V)) :
    pickWinner entries = (freshStore key entries).get key := by
  rw [pickWinner_eq_offerAll, freshStore, KVStore.get_after, putsSince_puts, if_pos rfl]

/-- The fresh store is empty exactly when there was nothing to write. -/
theorem keyCount_freshStore_eq_zero_iff (key : String) (entries : List (VersionedValue V)) :
    (freshStore key entries).keyCount = 0 ↔ (freshStore key entries).get key = none := by
  rw [KVStore.keyCount, Finset.card_eq_zero, Finset.eq_empty_iff_forall_notMem]
  simp only [KVStore.mem_keys_iff, Bool.not_eq_true, Option.isSome_eq_false_iff,
    Option.isNone_iff_eq_none]
  refine ⟨fun hempty => hempty key, fun hnone other => ?_⟩
  by_cases hkey : key = other
  · exact hkey ▸ hnone
  · rw [freshStore, KVStore.get_after, putsSince_puts, if_neg hkey, offerAll_nil]

/-- No candidate is newer than the one picked. -/
theorem not_newer_of_pickWinner {entries : List (VersionedValue V)} {winner : VersionedValue V}
    (hwinner : pickWinner entries = some winner) {entry : VersionedValue V}
    (hentry : entry ∈ entries) : ¬ entry.Newer winner := by
  rw [pickWinner_eq_offerAll] at hwinner
  obtain ⟨current, hcurrent, hnot⟩ := covers_offerAll_of_mem Newer none hentry
  obtain rfl := Option.some.inj (hwinner.symm.trans hcurrent)
  exact hnot

/-- Entries under one stamp are one entry. -/
def StampsTellValues (entries : List (VersionedValue V)) : Prop :=
  ∀ first ∈ entries, ∀ second ∈ entries, first.SameStamp second → first.value = second.value

/-- The pick is a function of the set of entries collected. -/
theorem pickWinner_eq_of_same_entries {first second : List (VersionedValue V)}
    (hfinite : ∀ entry ∈ first, entry.timestamp ≠ .nan) (hvalues : StampsTellValues first)
    (hsame : ∀ entry, entry ∈ first ↔ entry ∈ second) :
    pickWinner first = pickWinner second := by
  have hunique : ∀ left right, IsNewest Newer first left → IsNewest Newer first right →
      left = right := by
    intro left right hleft hright
    rcases newer_or_sameStamp_or_newer (hfinite left hleft.1) (hfinite right hright.1) with
      hnewer | hstamp | hnewer
    · exact absurd hnewer (hright.2 left hleft.1)
    · exact VersionedValue.ext (hvalues left hleft.1 right hright.1 hstamp) hstamp.1 hstamp.2
    · exact absurd hnewer (hleft.2 right hright.1)
  rw [pickWinner_eq_offerAll, pickWinner_eq_offerAll]
  refine eq_of_covers Newer hunique ?_ ?_ ?_ ?_
  · intro version hversion
    exact (offerAll_mem hversion).resolve_right (by simp)
  · intro version hversion
    exact covers_offerAll_of_mem Newer none hversion
  · intro version hversion
    exact (hsame version).mpr ((offerAll_mem hversion).resolve_right (by simp))
  · intro version hversion
    exact covers_offerAll_of_mem Newer none ((hsame version).mp hversion)

section FiniteEntries

open FiniteVersion

/-- The candidates among finite versions. -/
def finiteCandidates (localEntry : Option (FiniteVersion V))
    (peerEntries : List (Option (FiniteVersion V))) : List (VersionedValue V) :=
  candidates (localEntry.map version) (peerEntries.map (Option.map version))

theorem not_nan_of_mem_finiteCandidates {localEntry : Option (FiniteVersion V)}
    {peerEntries : List (Option (FiniteVersion V))} {entry : VersionedValue V}
    (hentry : entry ∈ finiteCandidates localEntry peerEntries) : entry.timestamp ≠ .nan := by
  rcases mem_candidates.mp hentry with hlocal | hpeer
  · obtain ⟨own, -, rfl⟩ := Option.map_eq_some_iff.mp hlocal
    simp [version]
  · obtain ⟨response, -, hresponse⟩ := List.mem_map.mp hpeer
    obtain ⟨own, -, rfl⟩ := Option.map_eq_some_iff.mp hresponse
    simp [version]

/-- Reads and stores agree on conflicts: a read that collected enough responses answers
what a fresh store holds after the candidates were put there, and 404 when that store is
empty; nothing collected is newer; and where stamps tell values the order of the responses
and the coordinator that collected them do not matter. -/
theorem read_resolution_agrees (config : ClusterConfig) (key : String) (rRequired : Int)
    (localEntry : Option (FiniteVersion V)) (peerEntries : List (Option (FiniteVersion V))) :
    let entries := finiteCandidates localEntry peerEntries
    let answer := getAnswer config key rRequired (localEntry.map version)
      (peerEntries.map (Option.map version))
    pickWinner entries = (freshStore key entries).get key ∧
    (rRequired ≤ 1 + (peerEntries.length : Int) →
      (∀ response, answer = .ok response ↔ response.key = key ∧
        (freshStore key entries).get key = some response.version) ∧
      (answer = .error ⟨404, .keyNotFound key⟩ ↔ (freshStore key entries).keyCount = 0)) ∧
    (∀ winner, pickWinner entries = some winner → ∀ entry ∈ entries, ¬ entry.Newer winner) ∧
    (StampsTellValues entries →
      ∀ (otherLocal : Option (FiniteVersion V)) (otherPeers : List (Option (FiniteVersion V))),
        (∀ entry, entry ∈ entries ↔ entry ∈ finiteCandidates otherLocal otherPeers) →
        pickWinner (finiteCandidates otherLocal otherPeers) = pickWinner entries) := by
  intro entries answer
  refine ⟨pickWinner_eq_get key entries, fun hquorum => ?_,
    fun winner hwinner entry hentry => not_newer_of_pickWinner hwinner hentry, ?_⟩
  · have hquorum' : rRequired ≤
        1 + ((peerEntries.map (Option.map version)).length : Int) := by
      rwa [List.length_map]
    constructor
    · intro response
      rw [getAnswer_eq_ok_iff, ← pickWinner_eq_get]
      exact and_iff_right hquorum'
    · rw [keyCount_freshStore_eq_zero_iff, ← pickWinner_eq_get]
      change getAnswer _ _ _ _ _ = _ ↔ pickWinner (candidates _ _) = none
      rw [getAnswer_of_le hquorum']
      cases pickWinner (candidates (localEntry.map version)
        (peerEntries.map (Option.map version))) with
      | none => simp
      | some winner => simp
  · intro hvalues otherLocal otherPeers hsame
    exact (pickWinner_eq_of_same_entries (fun _ => not_nan_of_mem_finiteCandidates) hvalues
      hsame).symm

end FiniteEntries

end KvReplication.Leaderless
