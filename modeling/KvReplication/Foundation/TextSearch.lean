import Mathlib.Data.List.Infix

/-! # Searching a text for a mark

A mark is a text that starts with a symbol it does not use again, as a comment
that opens with a bracket does. Two occurrences of marks never overlap, so where a
mark is found can be read off how the text was put together.
-/

namespace TextSearch

variable {α : Type*}

/-- An occurrence of a text lies behind everything that misses its first symbol. -/
theorem infix_of_infix_append {first : α} {pattern before text : List α}
    (hbefore : first ∉ before) (hinside : first :: pattern <:+: before ++ text) :
    first :: pattern <:+: text := by
  induction before with
  | nil => exact hinside
  | cons symbol before ih =>
      rw [List.mem_cons, not_or] at hbefore
      rcases List.infix_cons_iff.mp hinside with hstarts | hlater
      · exact absurd (List.cons_prefix_cons.mp hstarts).1 hbefore.1
      · exact ih hbefore.2 hlater

/-- An occurrence of a text lies in front of everything that misses its last symbol. -/
theorem infix_of_infix_append_right {last : α} {pattern text after : List α}
    (hafter : last ∉ after) (hinside : pattern ++ [last] <:+: text ++ after) :
    pattern ++ [last] <:+: text := by
  have hreverse := List.reverse_infix.mpr hinside
  rw [List.reverse_append, List.reverse_append, List.reverse_singleton,
    List.singleton_append] at hreverse
  have hinside := infix_of_infix_append (by simpa using hafter) hreverse
  rw [← List.reverse_infix, List.reverse_append]
  exact hinside

/-- What ends before a symbol it misses is a prefix of what stands in front of it. -/
theorem prefix_of_prefix_append_cons {symbol : α} {pattern before after : List α}
    (hpattern : symbol ∉ pattern) (hstarts : pattern <+: before ++ symbol :: after) :
    pattern <+: before := by
  induction before generalizing pattern with
  | nil =>
      cases pattern with
      | nil => exact List.nil_prefix
      | cons head rest =>
          obtain rfl := (List.cons_prefix_cons.mp hstarts).1
          exact absurd List.mem_cons_self hpattern
  | cons head before ih =>
      cases pattern with
      | nil => exact List.nil_prefix
      | cons other rest =>
          obtain ⟨rfl, hrest⟩ := List.cons_prefix_cons.mp hstarts
          exact List.cons_prefix_cons.mpr
            ⟨rfl, ih (fun hmem => hpattern (List.mem_cons_of_mem _ hmem)) hrest⟩

/-- A mark does not reach over a symbol like its first one. -/
theorem infix_append_cons {first : α} {pattern before after : List α}
    (hpattern : first ∉ pattern) (hinside : first :: pattern <:+: before ++ first :: after) :
    first :: pattern <:+: before ∨ first :: pattern <:+: first :: after := by
  induction before with
  | nil => exact Or.inr hinside
  | cons symbol before ih =>
      rcases List.infix_cons_iff.mp hinside with hstarts | hlater
      · obtain ⟨rfl, hrest⟩ := List.cons_prefix_cons.mp hstarts
        have hinside := prefix_of_prefix_append_cons hpattern hrest
        exact Or.inl (List.cons_prefix_cons.mpr ⟨rfl, hinside⟩).isInfix
      · exact (ih hlater).imp_left fun hbefore => List.infix_cons hbefore

/-- A text that ends in a mark lies in front of the last symbol like the first one of the
mark, or that mark stands there. -/
theorem infix_append_cons_of_ends {first : α} {lead pattern before after : List α}
    (hpattern : first ∉ pattern) (hafter : first ∉ after)
    (hinside : lead ++ first :: pattern <:+: before ++ first :: after) :
    lead ++ first :: pattern <:+: before ∨ first :: pattern <+: first :: after := by
  obtain ⟨left, right, heq⟩ := hinside
  have hsplit : (left ++ lead) ++ (first :: pattern ++ right) = before ++ first :: after := by
    simpa using heq
  rcases List.append_eq_append_iff.mp hsplit with ⟨gap, hbefore, hgap⟩ | ⟨gap, -, hgap⟩
  · cases gap with
    | nil => exact Or.inr ⟨right, by simpa using hgap⟩
    | cons symbol gap =>
        obtain ⟨rfl, hrest⟩ := List.cons_eq_cons.mp hgap
        obtain ⟨rest, hinside⟩ : pattern <+: gap :=
          prefix_of_prefix_append_cons hpattern ⟨right, hrest⟩
        exact Or.inl ⟨left, rest, by simp [hbefore, ← hinside]⟩
  · cases gap with
    | nil => exact Or.inr ⟨right, by simpa using hgap.symm⟩
    | cons symbol gap =>
        obtain ⟨-, hrest⟩ := List.cons_eq_cons.mp hgap
        exact absurd (by simp [hrest]) hafter

/-- A text no longer than what stands in the middle reaches one side of it at most. -/
theorem infix_of_wide_middle {pattern before middle after : List α}
    (hlength : pattern.length ≤ middle.length)
    (hinside : pattern <:+: before ++ middle ++ after) :
    pattern <:+: before ++ middle ∨ pattern <:+: middle ++ after := by
  obtain ⟨left, right, heq⟩ := hinside
  rcases Nat.le_total left.length before.length with hleft | hleft
  · have hstarts : left ++ pattern <+: before ++ middle := by
      refine List.prefix_of_prefix_length_le ⟨right, heq⟩ ⟨after, rfl⟩ ?_
      simp only [List.length_append]
      omega
    exact Or.inl ((List.infix_append' left pattern []).trans (by simpa using hstarts.isInfix))
  · have hwhole : left ++ (pattern ++ right) = before ++ (middle ++ after) := by
      simpa using heq
    obtain ⟨gap, rfl⟩ : before <+: left :=
      List.prefix_of_prefix_length_le ⟨middle ++ after, rfl⟩ ⟨pattern ++ right, hwhole⟩ hleft
    refine Or.inr ⟨gap, right, ?_⟩
    simpa using heq

variable [DecidableEq α]

/-- Where `pattern` first occurs in a text. -/
def find (pattern : List α) : List α → Option Nat
  | [] => if pattern = [] then some 0 else none
  | symbol :: rest =>
      if pattern <+: symbol :: rest then some 0 else (find pattern rest).map (· + 1)

theorem find_eq_none_iff {pattern text : List α} :
    find pattern text = none ↔ ¬ pattern <:+: text := by
  induction text with
  | nil => simp [find, List.infix_nil]
  | cons symbol rest ih =>
      rw [find, List.infix_cons_iff]
      split
      · next hstarts => simp [hstarts]
      · next hnot => simp [hnot, ih]

/-- A mark is found behind the part of the text that does not hold it. -/
theorem find_append {first : α} {pattern before : List α} (hpattern : first ∉ pattern)
    (hbefore : ¬ first :: pattern <:+: before) (after : List α) :
    find (first :: pattern) (before ++ first :: pattern ++ after) = some before.length := by
  induction before with
  | nil =>
      have hstarts : first :: pattern <+: first :: (pattern ++ after) := ⟨after, rfl⟩
      exact if_pos hstarts
  | cons symbol before ih =>
      have hnot : ¬ first :: pattern <+: symbol :: (before ++ first :: pattern ++ after) := by
        intro hstarts
        obtain ⟨rfl, hrest⟩ := List.cons_prefix_cons.mp hstarts
        rw [List.append_assoc, List.cons_append] at hrest
        have hinside := prefix_of_prefix_append_cons hpattern hrest
        exact hbefore (List.cons_prefix_cons.mpr ⟨rfl, hinside⟩).isInfix
      have hrest := ih fun hinside => hbefore (List.infix_cons hinside)
      change (if first :: pattern <+: symbol :: (before ++ first :: pattern ++ after) then some 0
        else (find (first :: pattern) (before ++ first :: pattern ++ after)).map (· + 1)) = _
      rw [if_neg hnot, hrest]
      rfl

/-- What finding a mark says about the text. -/
theorem find_eq_some_iff {first : α} {pattern text : List α} (hpattern : first ∉ pattern)
    {place : Nat} :
    find (first :: pattern) text = some place ↔ ∃ before after,
      text = before ++ first :: pattern ++ after ∧ ¬ first :: pattern <:+: before ∧
        before.length = place := by
  constructor
  · intro hfind
    induction text generalizing place with
    | nil => cases hfind
    | cons symbol rest ih =>
        rw [find] at hfind
        split at hfind
        · next hstarts =>
            obtain ⟨after, hafter⟩ := hstarts
            obtain rfl := Option.some.inj hfind
            exact ⟨[], after, hafter.symm, by simp [List.infix_nil], rfl⟩
        · next hnot =>
            obtain ⟨later, hlater, rfl⟩ := Option.map_eq_some_iff.mp hfind
            obtain ⟨before, after, rfl, hbefore, rfl⟩ := ih hlater
            refine ⟨symbol :: before, after, rfl, fun hinside => ?_, rfl⟩
            rcases List.infix_cons_iff.mp hinside with hstarts | hinside
            · refine hnot (hstarts.trans ⟨first :: pattern ++ after, ?_⟩)
              simp
            · exact hbefore hinside
  · rintro ⟨before, after, rfl, hbefore, rfl⟩
    exact find_append hpattern hbefore after

/-- A mark that a part of the text holds is found in that part, whatever follows. -/
theorem exists_find_append {first : α} {pattern text : List α} (hpattern : first ∉ pattern)
    (hinside : first :: pattern <:+: text) :
    ∃ place, place + (first :: pattern).length ≤ text.length ∧
      ∀ after, find (first :: pattern) (text ++ after) = some place := by
  obtain ⟨place, hplace⟩ : ∃ place, find (first :: pattern) text = some place := by
    rw [← Option.ne_none_iff_exists']
    exact fun hnone => find_eq_none_iff.mp hnone hinside
  obtain ⟨before, rest, rfl, hbefore, rfl⟩ := (find_eq_some_iff hpattern).mp hplace
  refine ⟨before.length, by simp, fun after => ?_⟩
  rw [List.append_assoc]
  exact find_append hpattern hbefore (rest ++ after)

/-- Where one mark is found in front of another the text splits at both. -/
theorem exists_split_of_find_lt {first : α} {pattern other text : List α}
    (hpattern : first ∉ pattern) (hother : first ∉ other) {start stop : Nat}
    (hstart : find (first :: pattern) text = some start)
    (hstop : find (first :: other) text = some stop) (horder : start < stop) :
    ∃ before body after, text = before ++ first :: pattern ++ body ++ first :: other ++ after ∧
      ¬ first :: pattern <:+: before ∧
      ¬ first :: other <:+: before ++ first :: pattern ++ body := by
  obtain ⟨before, rest, rfl, hbefore, rfl⟩ := (find_eq_some_iff hpattern).mp hstart
  obtain ⟨lead, after, hlead, hfree, rfl⟩ := (find_eq_some_iff hother).mp hstop
  rw [List.append_assoc, List.append_assoc] at hlead
  rcases List.append_eq_append_iff.mp hlead with ⟨gap, rfl, hgap⟩ | ⟨gap, rfl, -⟩
  · cases gap with
    | nil => simp at horder
    | cons symbol gap =>
        -- the second mark starts behind the first one, which has no symbol like its own first
        obtain ⟨rfl, hsplit⟩ := List.cons_eq_cons.mp hgap
        rcases List.append_eq_append_iff.mp hsplit with ⟨body, rfl, hrest⟩ | ⟨tail, rfl, hrest⟩
        · exact ⟨before, body, after, by simp [hrest], hbefore, by simpa using hfree⟩
        · cases tail with
          | nil =>
              exact ⟨before, [], after, by simpa using hrest.symm, hbefore, by simpa using hfree⟩
          | cons symbol tail =>
              obtain ⟨rfl, -⟩ := List.cons_eq_cons.mp hrest
              exact absurd (by simp) hpattern
  · rw [List.length_append] at horder
    omega

end TextSearch
