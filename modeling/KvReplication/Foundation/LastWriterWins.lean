import Mathlib.Order.Lattice
import Mathlib.Order.RelClasses
import Mathlib.Data.List.Induction

/-! # Last-writer-wins registers

A register holds at most one version. Offering a version replaces the held one
exactly when the offered one is newer. The order `newer` is only assumed to be a
strict partial order: incomparable versions (equal stamps, or stamps that no
comparison accepts) leave the register as it is.
-/

namespace LastWriterWins

variable {Version : Type*} (newer : Version → Version → Prop)

/-- The register holds something that `version` would not replace. -/
def Covers (held : Option Version) (version : Version) : Prop :=
  ∃ current, held = some current ∧ ¬ newer version current

/-- A member of `versions` that no other member is newer than. -/
def IsNewest (versions : List Version) (version : Version) : Prop :=
  version ∈ versions ∧ ∀ other ∈ versions, ¬ newer other version

/-- A register that holds one of `versions` and covers all of them holds a newest
one, and holds nothing only if there is none. -/
theorem isNewest_of_covers {versions : List Version} {held : Option Version}
    (hmem : ∀ version, held = some version → version ∈ versions)
    (hcovers : ∀ version ∈ versions, Covers newer held version) :
    (held = none ∧ versions = []) ∨
      ∃ version, held = some version ∧ IsNewest newer versions version := by
  cases held with
  | none =>
      refine Or.inl ⟨rfl, List.eq_nil_iff_forall_not_mem.mpr fun version hversion => ?_⟩
      obtain ⟨_, hnone, _⟩ := hcovers version hversion
      cases hnone
  | some current =>
      refine Or.inr ⟨current, rfl, hmem current rfl, fun other hother => ?_⟩
      obtain ⟨_, hcurrent, hnot⟩ := hcovers other hother
      obtain rfl := Option.some.inj hcurrent
      exact hnot

/-- Registers that hold newest versions agree if there is at most one such version. -/
theorem eq_of_covers {versions : List Version} {left right : Option Version}
    (hunique : ∀ first second, IsNewest newer versions first → IsNewest newer versions second →
      first = second)
    (hleft : ∀ version, left = some version → version ∈ versions)
    (hleftCovers : ∀ version ∈ versions, Covers newer left version)
    (hright : ∀ version, right = some version → version ∈ versions)
    (hrightCovers : ∀ version ∈ versions, Covers newer right version) : left = right := by
  rcases isNewest_of_covers newer hleft hleftCovers with ⟨rfl, hempty⟩ | ⟨first, rfl, hfirst⟩
  · rcases isNewest_of_covers newer hright hrightCovers with ⟨rfl, _⟩ | ⟨second, _, hsecond⟩
    · rfl
    · exact absurd hsecond.1 (by simp [hempty])
  · rcases isNewest_of_covers newer hright hrightCovers with ⟨_, hempty⟩ | ⟨second, rfl, hsecond⟩
    · exact absurd hfirst.1 (by simp [hempty])
    · rw [hunique first second hfirst hsecond]

variable [DecidableRel newer]

/-- Offer one version to a register. -/
def offer : Option Version → Version → Option Version
  | none, candidate => some candidate
  | some current, candidate => if newer candidate current then some candidate else some current

/-- Offer versions one after the other. -/
def offerAll (held : Option Version) (candidates : List Version) : Option Version :=
  candidates.foldl (offer newer) held

@[simp] theorem offerAll_nil (held : Option Version) : offerAll newer held [] = held := rfl

@[simp] theorem offerAll_cons (held : Option Version) (candidate : Version)
    (rest : List Version) :
    offerAll newer held (candidate :: rest) =
      offerAll newer (offer newer held candidate) rest := rfl

theorem offer_cases (held : Option Version) (candidate : Version) :
    offer newer held candidate = some candidate ∨ offer newer held candidate = held := by
  cases held with
  | none => exact Or.inl rfl
  | some current =>
      by_cases hnewer : newer candidate current
      · exact Or.inl (by simp [offer, hnewer])
      · exact Or.inr (by simp [offer, hnewer])

variable {newer}

theorem offerAll_mem {held : Option Version} {candidates : List Version} {final : Version}
    (hfinal : offerAll newer held candidates = some final) :
    final ∈ candidates ∨ held = some final := by
  induction candidates generalizing held with
  | nil => exact Or.inr hfinal
  | cons candidate rest ih =>
      rcases ih hfinal with hmem | hheld
      · exact Or.inl (List.mem_cons_of_mem _ hmem)
      · rcases offer_cases newer held candidate with hnew | hold
        · rw [hnew] at hheld
          exact Or.inl (Option.some.inj hheld ▸ List.mem_cons_self)
        · exact Or.inr (hold ▸ hheld)

theorem offerAll_concat (held : Option Version) (candidates : List Version)
    (candidate : Version) :
    offerAll newer held (candidates ++ [candidate]) =
      offer newer (offerAll newer held candidates) candidate := by
  simp [offerAll]

/-- A map of versions under which the order is kept maps the registers. -/
theorem offerAll_map {Source : Type*} {sourceNewer : Source → Source → Prop}
    [DecidableRel sourceNewer] (view : Source → Version)
    (hview : ∀ first second, newer (view first) (view second) ↔ sourceNewer first second)
    (held : Option Source) (candidates : List Source) :
    offerAll newer (held.map view) (candidates.map view) =
      (offerAll sourceNewer held candidates).map view := by
  induction candidates generalizing held with
  | nil => rfl
  | cons candidate rest ih =>
      have hoffer : offer newer (held.map view) (view candidate) =
          (offer sourceNewer held candidate).map view := by
        cases held with
        | none => rfl
        | some current =>
            simp only [offer, Option.map_some, hview]
            split <;> rfl
      rw [List.map_cons, offerAll_cons, offerAll_cons, hoffer, ih]

section Stamps

variable {Stamp : Type*} [LinearOrder Stamp] (stamp : Version → Stamp)

/-- Versions ordered by a stamp: the higher stamp is the newer version. -/
def HigherStamp (first second : Version) : Prop := stamp second < stamp first

instance : DecidableRel (HigherStamp stamp) := fun first second =>
  inferInstanceAs (Decidable (stamp second < stamp first))

/-- The first of the versions whose stamp no other exceeds; nothing if there is none. -/
def FirstHighest (versions : List Version) : Option Version → Prop
  | none => versions = []
  | some version => ∃ before after, versions = before ++ version :: after ∧
      (∀ earlier ∈ before, stamp earlier < stamp version) ∧
      ∀ later ∈ after, stamp later ≤ stamp version

/-- A version stays the first highest until a higher one is offered. -/
theorem FirstHighest.offer {versions : List Version} {held : Option Version}
    (hheld : FirstHighest stamp versions held) (candidate : Version) :
    FirstHighest stamp (versions ++ [candidate])
      (offer (HigherStamp stamp) held candidate) := by
  cases held with
  | none =>
      refine ⟨[], [], ?_, by simp, by simp⟩
      rw [show versions = [] from hheld]
  | some current =>
      obtain ⟨before, after, rfl, hbefore, hafter⟩ := hheld
      by_cases hhigher : stamp current < stamp candidate
      · rw [show LastWriterWins.offer (HigherStamp stamp) (some current) candidate =
          some candidate from if_pos hhigher]
        refine ⟨before ++ current :: after, [], by simp, fun earlier hearlier => ?_, by simp⟩
        rcases List.mem_append.mp hearlier with hmem | hmem
        · exact lt_trans (hbefore earlier hmem) hhigher
        · rcases List.mem_cons.mp hmem with rfl | hmem
          · exact hhigher
          · exact lt_of_le_of_lt (hafter earlier hmem) hhigher
      · rw [show LastWriterWins.offer (HigherStamp stamp) (some current) candidate =
          some current from if_neg hhigher]
        refine ⟨before, after ++ [candidate], by simp, hbefore, fun later hlater => ?_⟩
        rcases List.mem_append.mp hlater with hmem | hmem
        · exact hafter later hmem
        · obtain rfl := List.mem_singleton.mp hmem
          exact not_lt.mp hhigher

/-- A register that starts empty holds the first highest of what it was offered. -/
theorem firstHighest_offerAll (versions : List Version) :
    FirstHighest stamp versions (offerAll (HigherStamp stamp) none versions) := by
  induction versions using List.reverseRecOn with
  | nil => rfl
  | append_singleton versions candidate ih =>
      rw [offerAll_concat]
      exact FirstHighest.offer stamp ih candidate

variable {stamp}

/-- No version exceeds the first highest one. -/
theorem FirstHighest.le {versions : List Version} {version : Version}
    (hheld : FirstHighest stamp versions (some version)) {other : Version}
    (hother : other ∈ versions) : stamp other ≤ stamp version := by
  obtain ⟨before, after, rfl, hbefore, hafter⟩ := hheld
  rcases List.mem_append.mp hother with hmem | hmem
  · exact le_of_lt (hbefore other hmem)
  · rcases List.mem_cons.mp hmem with rfl | hmem
    · exact le_refl _
    · exact hafter other hmem

theorem FirstHighest.mem {versions : List Version} {version : Version}
    (hheld : FirstHighest stamp versions (some version)) : version ∈ versions := by
  obtain ⟨before, after, rfl, -, -⟩ := hheld
  simp

end Stamps

section StrictOrder

variable [IsStrictOrder Version newer]

theorem covers_offer_self (held : Option Version) (candidate : Version) :
    Covers newer (offer newer held candidate) candidate := by
  cases held with
  | none => exact ⟨candidate, rfl, irrefl_of newer candidate⟩
  | some current =>
      by_cases hnewer : newer candidate current
      · exact ⟨candidate, by simp [offer, hnewer], irrefl_of newer candidate⟩
      · exact ⟨current, by simp [offer, hnewer], hnewer⟩

/-- A register never moves below what it covers. -/
theorem Covers.offer {held : Option Version} {version : Version}
    (hcovers : Covers newer held version) (candidate : Version) :
    Covers newer (offer newer held candidate) version := by
  obtain ⟨current, rfl, hnot⟩ := hcovers
  by_cases hnewer : newer candidate current
  · refine ⟨candidate, by simp [LastWriterWins.offer, hnewer], ?_⟩
    -- `version` newer than the replacement would be newer than what it replaced
    exact fun habove => hnot (trans_of newer habove hnewer)
  · exact ⟨current, by simp [LastWriterWins.offer, hnewer], hnot⟩

theorem Covers.offerAll {held : Option Version} {version : Version}
    (hcovers : Covers newer held version) (candidates : List Version) :
    Covers newer (offerAll newer held candidates) version := by
  induction candidates generalizing held with
  | nil => exact hcovers
  | cons candidate rest ih => exact ih (hcovers.offer candidate)

theorem covers_offerAll_of_mem (newer : Version → Version → Prop) [DecidableRel newer]
    [IsStrictOrder Version newer] (held : Option Version) {candidates : List Version}
    {version : Version} (hmem : version ∈ candidates) :
    Covers newer (offerAll newer held candidates) version := by
  induction candidates generalizing held with
  | nil => simp at hmem
  | cons candidate rest ih =>
      rcases List.mem_cons.mp hmem with rfl | hrest
      · exact (covers_offer_self held version).offerAll rest
      · exact ih _ hrest

end StrictOrder

end LastWriterWins
