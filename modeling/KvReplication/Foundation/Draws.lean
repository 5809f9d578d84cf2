import Mathlib.Data.Stream.Init

/-! # Draws from a generator

A generator is a function that draws a value from a state and leaves another state, so
a state stands for the stream of all values it will give. A loop that draws only in
some of its turns hands the stream out to these turns in order.
-/

namespace Draws

variable {State α : Type*}

/-- The values still to come from a state. -/
def stream (draw : State → α × State) (state : State) : Stream' α := Stream'.corec' draw state

section Drawing

variable {draw : State → α × State} {state : State} {values : Stream' α} {count : ℕ}

/-- A state that has given so many values gives the next one, -/
theorem draw_eq_get (hrest : stream draw state = values.drop count) :
    (draw state).1 = values.get count := by
  have hhead : (stream draw state).head = (values.drop count).head := by rw [hrest]
  rwa [stream, Stream'.corec'_eq, Stream'.head_cons, Stream'.head_drop] at hhead

/-- and then the rest. -/
theorem stream_draw (hrest : stream draw state = values.drop count) :
    stream draw (draw state).2 = values.drop (count + 1) := by
  have htail : (stream draw state).tail = (values.drop count).tail := by rw [hrest]
  rwa [stream, Stream'.corec'_eq, Stream'.tail_cons, Stream'.tail_drop'] at htail

/-- Every value to come is drawn from some state. -/
theorem exists_draw (draw : State → α × State) (state : State) (place : ℕ) :
    ∃ later, (stream draw state).get place = (draw later).1 := by
  induction place generalizing state with
  | zero => exact ⟨state, rfl⟩
  | succ place ih =>
      rw [Stream'.get_succ, stream, Stream'.corec'_eq, Stream'.tail_cons]
      exact ih (draw state).2

end Drawing

/-- The values dealt to the turns that take one. -/
def deal : List Bool → Stream' α → List (Option α)
  | [], _ => []
  | true :: turns, values => some values.head :: deal turns values.tail
  | false :: turns, values => none :: deal turns values

theorem deal_concat (turns : List Bool) (turn : Bool) (values : Stream' α) :
    deal (turns ++ [turn]) values =
      deal turns values ++ [if turn then some (values.get (turns.count true)) else none] := by
  induction turns generalizing values with
  | nil => cases turn <;> rfl
  | cons first turns ih =>
      cases first with
      | true =>
          rw [List.cons_append, deal, ih, List.count_cons_self, Stream'.get_succ]
          rfl
      | false =>
          rw [List.cons_append, deal, ih, List.count_cons_of_ne (by decide)]
          rfl

/-- The turns that took a value got the first ones in order. -/
theorem map_filter_of_deal {β : Type*} {takes : β → Bool} {taken : β → Option α}
    {turns : List β} {values : Stream' α}
    (hdeal : turns.map taken = deal (turns.map takes) values) :
    (turns.filter takes).map taken =
      (values.take (turns.filter takes).length).map some := by
  induction turns generalizing values with
  | nil => rfl
  | cons turn turns ih =>
      cases htakes : takes turn with
      | true =>
          rw [List.map_cons, List.map_cons, htakes, deal, List.cons_eq_cons] at hdeal
          obtain ⟨htaken, hrest⟩ := hdeal
          rw [List.filter_cons_of_pos htakes, List.map_cons, htaken, ih hrest, List.length_cons,
            Stream'.take_succ, List.map_cons]
      | false =>
          rw [List.map_cons, List.map_cons, htakes, deal, List.cons_eq_cons] at hdeal
          rw [List.filter_cons_of_neg (by simp [htakes])]
          exact ih hdeal.2

end Draws
