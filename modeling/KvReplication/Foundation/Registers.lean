import Mathlib.Data.List.Induction
import Mathlib.Order.Lattice

/-! # Registers that behave as one

A register that requests reach one after the other gives every read what was last
written. Requests that overlap in time behave like that if they can be put in an order
that keeps what had ended before what began later, and in which every read was answered
with the last write. Places in a linear order give such an order of the requests.
-/

namespace Registers

variable {Request Value : Type*}

/-- What a request does to a register: it writes a value, or was answered with the value
it held, or with nothing. -/
inductive Effect (Value : Type*) where
  | write (value : Value)
  | read (answer : Option Value)

section Places

variable {effect : Request → Effect Value} {precedes : Request → Request → Prop}
  {requests order : List Request}

/-- What the register holds after `effects`. -/
def lastWrite (held : Option Value) : List (Effect Value) → Option Value
  | [] => held
  | .write value :: rest => lastWrite (some value) rest
  | .read _ :: rest => lastWrite held rest

theorem lastWrite_append (held : Option Value) (first second : List (Effect Value)) :
    lastWrite held (first ++ second) = lastWrite (lastWrite held first) second := by
  induction first generalizing held with
  | nil => rfl
  | cons effect rest ih =>
      cases effect with
      | write value => exact ih (some value)
      | read answer => exact ih held

variable {Place : Type*} [LinearOrder Place] (place : Request → Place)

/-- Places for requests: each read follows the write it was answered with, and no other write
stands between the two. -/
structure Placed (effect : Request → Effect Value) (precedes : Request → Request → Prop)
    (requests : List Request) : Prop where
  precedes_lt : ∀ first ∈ requests, ∀ second ∈ requests, precedes first second →
    place first < place second
  write_ne_read : ∀ first ∈ requests, ∀ second ∈ requests, ∀ value answer,
    effect first = .write value → effect second = .read answer → place first ≠ place second
  writes_differ : ∀ first ∈ requests, ∀ second ∈ requests, ∀ value other,
    effect first = .write value → effect second = .write other → place first = place second →
      value = other
  shown : ∀ read ∈ requests, ∀ value, effect read = .read (some value) →
    ∃ write ∈ requests, effect write = .write value ∧ place write < place read ∧
      ∀ other ∈ requests, ∀ written, effect other = .write written →
        place other < place read → place other ≤ place write
  missed : ∀ read ∈ requests, effect read = .read none →
    ∀ other ∈ requests, ∀ written, effect other = .write written → place read < place other

variable {place}

/-- The last write of some requests, if they have one. -/
theorem lastWrite_cases (effect : Request → Effect Value) (before : List Request) :
    (lastWrite none (before.map effect) = none ∧
      ∀ request ∈ before, ∀ value, effect request ≠ .write value) ∨
    ∃ early last late value, before = early ++ last :: late ∧ effect last = .write value ∧
      lastWrite none (before.map effect) = some value ∧
      ∀ request ∈ late, ∀ other, effect request ≠ .write other := by
  induction before using List.reverseRecOn with
  | nil => exact Or.inl ⟨rfl, fun request hrequest => by cases hrequest⟩
  | append_singleton before request ih =>
      rw [List.map_append, lastWrite_append]
      cases heffect : effect request with
      | write value =>
          refine Or.inr ⟨before, request, [], value, rfl, heffect, ?_, ?_⟩
          · simp [heffect, lastWrite]
          · exact fun request hrequest => by cases hrequest
      | read answer =>
          have hread : ∀ value, effect request ≠ .write value := by
            intro value hwrite
            rw [heffect] at hwrite
            cases hwrite
          rcases ih with ⟨hnone, hbefore⟩ | ⟨early, last, late, value, rfl, hlast, hvalue, hlate⟩
          · refine Or.inl ⟨by simpa [heffect, lastWrite] using hnone, ?_⟩
            intro other hother
            rcases List.mem_append.mp hother with hmem | hmem
            · exact hbefore other hmem
            · rw [List.mem_singleton.mp hmem]
              exact hread
          · refine Or.inr ⟨early, last, late ++ [request], value, ?_, hlast, ?_, ?_⟩
            · simp
            · simpa [heffect, lastWrite] using hvalue
            · intro other hother
              rcases List.mem_append.mp hother with hmem | hmem
              · exact hlate other hmem
              · rw [List.mem_singleton.mp hmem]
                exact hread

/-- In an order by places every read was answered with the last write before it. -/
theorem Placed.last (hplaced : Placed place effect precedes requests)
    {before after : List Request} {read : Request} {answer : Option Value}
    (hperm : (before ++ read :: after).Perm requests)
    (hsorted : (before ++ read :: after).Pairwise fun first second => place first ≤ place second)
    (hread : effect read = .read answer) : answer = lastWrite none (before.map effect) := by
  have hmem : ∀ request ∈ before ++ read :: after, request ∈ requests :=
    fun request => hperm.mem_iff.mp
  obtain ⟨hbeforeSorted, hafterSorted, hacross⟩ := List.pairwise_append.mp hsorted
  have hreadMem := hmem read (List.mem_append_right _ List.mem_cons_self)
  -- a write before the read has a lower place
  have hbelow : ∀ request ∈ before, ∀ value, effect request = .write value →
      place request < place read := by
    intro request hrequest value hwrite
    apply lt_of_le_of_ne (hacross request hrequest read List.mem_cons_self)
    exact hplaced.write_ne_read request (hmem request (List.mem_append_left _ hrequest)) read
      hreadMem value answer hwrite hread
  -- and one with a lower place comes before it
  have hearly : ∀ request ∈ requests, place request < place read → request ∈ before := by
    intro request hrequest hlt
    rcases List.mem_append.mp (hperm.mem_iff.mpr hrequest) with hbefore | hlate
    · exact hbefore
    · rcases List.mem_cons.mp hlate with rfl | hafter
      · exact absurd hlt (lt_irrefl _)
      · exact absurd hlt (not_lt.mpr ((List.pairwise_cons.mp hafterSorted).1 request hafter))
  rcases lastWrite_cases effect before with ⟨hnone, hnowrite⟩ |
    ⟨early, last, late, value, rfl, hlast, hvalue, hlate⟩
  · rw [hnone]
    cases answer with
    | none => rfl
    | some shown =>
        obtain ⟨write, hwriteMem, hwrite, hlt, _⟩ := hplaced.shown read hreadMem shown hread
        exact absurd hwrite (hnowrite write (hearly write hwriteMem hlt) shown)
  · rw [hvalue]
    have hlastBefore : last ∈ early ++ last :: late :=
      List.mem_append_right _ List.mem_cons_self
    have hlastMem := hmem last (List.mem_append_left _ hlastBefore)
    have hlastLt := hbelow last hlastBefore value hlast
    cases answer with
    | none =>
        exact absurd hlastLt (lt_asymm (hplaced.missed read hreadMem hread last hlastMem value
          hlast))
    | some shown =>
        obtain ⟨write, hwriteMem, hwrite, hlt, hhighest⟩ := hplaced.shown read hreadMem shown hread
        have hlastLe := hhighest last hlastMem value hlast hlastLt
        -- nothing is written after the last write
        have hwriteLe : place write ≤ place last := by
          rcases List.mem_append.mp (hearly write hwriteMem hlt) with hfirst | hrest
          · exact (List.pairwise_append.mp hbeforeSorted).2.2 write hfirst last List.mem_cons_self
          · rcases List.mem_cons.mp hrest with rfl | hmemLate
            · exact le_refl _
            · exact absurd hwrite (hlate write hmemLate shown)
        rw [hplaced.writes_differ write hwriteMem last hlastMem shown value hwrite hlast
          (le_antisymm hwriteLe hlastLe)]

end Places

end Registers
