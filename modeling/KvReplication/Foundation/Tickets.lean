import KvReplication.Foundation.Records

/-! # Tickets of a dispenser

A dispenser hands out the numbers from 0 on, each once. A holder keeps at most one ticket
at a time and uses it up. Every number that was handed out is then with one holder, or was
used once.
-/

namespace Tickets

variable {Holder : Type*} (held : Holder → Option Nat)

/-- How many times the holder has this ticket. -/
def holds (ticket : Nat) (holder : Holder) : Nat := if held holder = some ticket then 1 else 0

/-- Tickets below `next` are held or used once, others not at all. -/
def Accounted (next : Nat) (holders : List Holder) (used : List Nat) : Prop :=
  ∀ ticket, used.count ticket + (holders.map (holds held ticket)).sum =
    if ticket < next then 1 else 0

variable {held} {next : Nat} {holders : List Holder} {used : List Nat} {index : Nat}
  {old changed : Holder}

theorem sum_holds_eq_zero (hnone : ∀ holder ∈ holders, held holder = none) (ticket : Nat) :
    (holders.map (holds held ticket)).sum = 0 := by
  induction holders with
  | nil => rfl
  | cons first rest ih =>
      have hrest := ih fun holder hmem => hnone holder (List.mem_cons_of_mem _ hmem)
      rw [List.map_cons, List.sum_cons, hrest, holds, hnone first List.mem_cons_self]
      rfl

theorem Accounted.start (hnone : ∀ holder ∈ holders, held holder = none) :
    Accounted held 0 holders [] := by
  intro ticket
  rw [sum_holds_eq_zero hnone]
  simp

/-- A holder goes on with the ticket it has, or without one as before. -/
theorem Accounted.keep (haccounted : Accounted held next holders used)
    (hold : holders[index]? = some old) (hsame : held changed = held old) :
    Accounted held next (holders.set index changed) used := by
  intro ticket
  have hsum := Records.sum_map_set (holds held ticket) hold changed
  have hholds : holds held ticket changed = holds held ticket old := by rw [holds, holds, hsame]
  rw [← haccounted ticket]
  omega

/-- A holder without a ticket takes the next one. -/
theorem Accounted.draw (haccounted : Accounted held next holders used)
    (hold : holders[index]? = some old) (hnone : held old = none)
    (hdrawn : held changed = some next) :
    Accounted held (next + 1) (holders.set index changed) used := by
  intro ticket
  have hsum := Records.sum_map_set (holds held ticket) hold changed
  have hcount := haccounted ticket
  simp only [holds, hnone, hdrawn, reduceCtorEq, if_false, Option.some.injEq] at hsum
  rcases Nat.lt_trichotomy ticket next with hlt | rfl | hgt
  · rw [if_neg (Nat.ne_of_gt hlt)] at hsum
    rw [if_pos hlt] at hcount
    rw [if_pos (Nat.lt_succ_of_lt hlt)]
    omega
  · rw [if_pos rfl] at hsum
    rw [if_neg (Nat.lt_irrefl _)] at hcount
    rw [if_pos (Nat.lt_succ_self _)]
    omega
  · rw [if_neg (Nat.ne_of_lt hgt)] at hsum
    rw [if_neg (Nat.lt_asymm hgt)] at hcount
    rw [if_neg (by omega)]
    omega

/-- A holder uses its ticket up. -/
theorem Accounted.use (haccounted : Accounted held next holders used)
    (hold : holders[index]? = some old) {ticket : Nat} (hheld : held old = some ticket)
    (hgone : held changed = none) :
    Accounted held next (holders.set index changed) (used ++ [ticket]) := by
  intro other
  have hsum := Records.sum_map_set (holds held other) hold changed
  have hcount := haccounted other
  simp only [holds, hheld, hgone, reduceCtorEq, if_false, Option.some.injEq] at hsum
  rw [List.count_append, List.count_singleton, ← hcount]
  by_cases heq : ticket = other
  · subst heq
    simp only [if_true, beq_self_eq_true] at hsum ⊢
    omega
  · simp only [heq, if_false, beq_iff_eq] at hsum ⊢
    omega

theorem Accounted.nodup (haccounted : Accounted held next holders used) : used.Nodup := by
  apply List.nodup_iff_count_le_one.mpr
  intro ticket
  have hcount := haccounted ticket
  split at hcount
  · omega
  · omega

theorem Accounted.lt (haccounted : Accounted held next holders used) {ticket : Nat}
    (hused : ticket ∈ used) : ticket < next := by
  have hpositive := List.count_pos_iff.mpr hused
  have hcount := haccounted ticket
  by_contra hnot
  rw [if_neg hnot] at hcount
  omega

/-- Once no holder has a ticket, the used ones are all that were handed out. -/
theorem Accounted.perm_range (haccounted : Accounted held next holders used)
    (hnone : ∀ holder ∈ holders, held holder = none) : used.Perm (List.range next) := by
  apply List.perm_iff_count.mpr
  intro ticket
  have hcount := haccounted ticket
  rw [sum_holds_eq_zero hnone, Nat.add_zero] at hcount
  rw [hcount, List.count_range]

end Tickets
