import KvReplication.Leaderless.FanOut

/-! # Loops that wait for live tasks

Some of the tasks that a loop waits for fail or hang, and the others succeed in time. What
the loop has collected is then counted by the live tasks that are no longer pending, so it
ends with what it needs exactly if there are live tasks enough.
-/

namespace KvReplication.Leaderless

open LastWriterWins WaitLoop

namespace Gather

variable {Task α : Type} {live : Task → Prop} [DecidablePred live]

/-- The tasks among `finished` that count are the live ones. -/
def LiveCount (live : Task → Prop) [DecidablePred live]
    (finished : List (Task × Except PyError (Bool × α))) : Prop :=
  ∀ entry ∈ finished, ∃ value, entry.2 = .ok (decide (live entry.1), value)

/-- A wake-up of a loop whose live tasks end in time: the timer runs out only once none of
them is pending. -/
def LiveWake (live : Task → Prop) [DecidablePred live] (pending : List Task) :
    Wake Task (Except PyError (Bool × α)) → Prop
  | .done finished => LiveCount live finished
  | .timeout => ∀ task ∈ pending, ¬ live task
  | .cancelled => False

/-- A loop that has collected the live tasks among those that are no longer pending. -/
structure LiveCounted (live : Task → Prop) [DecidablePred live] (started : List Task)
    (needed : Int) (state : Gather Task α) : Prop where
  pending_nodup : state.pending.Nodup
  pending_started : state.pending ⊆ started
  balance : state.pending.countP (live ·) + state.collected.length = started.countP (live ·)
  running : state.exit = none → (state.collected.length : Int) < needed
  ended : ∀ outcome, state.exit = some outcome → outcome = .ok state.collected ∧
    ((∀ task ∈ state.pending, ¬ live task) ∨ needed ≤ state.collected.length)

theorem collectDone_of_liveCount {finished : List (Task × Except PyError (Bool × α))}
    (hcount : LiveCount live finished) (collected : List α) :
    ∃ final, collectDone finished collected = .ok final ∧
      final.length = collected.length + (finished.map Prod.fst).countP (live ·) := by
  induction finished generalizing collected with
  | nil => exact ⟨collected, rfl, rfl⟩
  | cons entry rest ih =>
      obtain ⟨value, hvalue⟩ := hcount entry List.mem_cons_self
      obtain ⟨task, outcome⟩ := entry
      obtain rfl : outcome = .ok (decide (live task), value) := hvalue
      have hrest : LiveCount live rest := fun later hlater =>
        hcount later (List.mem_cons_of_mem _ hlater)
      by_cases hlive : live task
      · obtain ⟨final, hfinal, hlength⟩ := ih hrest (collected ++ [value])
        refine ⟨final, ?_, ?_⟩
        · simp only [collectDone, hlive, decide_true, if_true]
          exact hfinal
        · rw [hlength, List.map_cons, List.countP_cons_of_pos (by simpa using hlive),
            List.length_append, List.length_singleton]
          omega
      · obtain ⟨final, hfinal, hlength⟩ := ih hrest collected
        refine ⟨final, ?_, ?_⟩
        · simp only [collectDone, hlive, decide_false, Bool.false_eq_true, if_false]
          exact hfinal
        · rw [hlength, List.map_cons, List.countP_cons_of_neg (by simpa using hlive)]

/-- Without a live task in it a list has none to count. -/
theorem countP_live_eq_zero {tasks : List Task} :
    tasks.countP (live ·) = 0 ↔ ∀ task ∈ tasks, ¬ live task := by
  rw [List.countP_eq_zero]
  simp

theorem LiveCounted.check {started : List Task} {needed : Int} {state : Gather Task α}
    (hnodup : state.pending.Nodup) (hstarted : state.pending ⊆ started)
    (hbalance : state.pending.countP (live ·) + state.collected.length =
      started.countP (live ·)) (hrunning : state.exit = none) :
    (state.check needed).LiveCounted live started needed := by
  unfold Gather.check
  split
  · next hleave =>
      refine ⟨hnodup, hstarted, hbalance, fun hnone => by simp [Gather.leave] at hnone, ?_⟩
      intro outcome hexit
      simp only [Gather.leave, Option.some.injEq] at hexit
      refine ⟨hexit.symm, hleave.imp ?_ id⟩
      intro hempty task htask
      change task ∈ state.pending at htask
      rw [List.isEmpty_iff.mp hempty] at htask
      cases htask
  · next hstay =>
      refine ⟨hnodup, hstarted, hbalance, fun _ => by omega, ?_⟩
      intro outcome hexit
      rw [hrunning] at hexit
      cases hexit

theorem LiveCounted.start {started : List Task} (hnodup : started.Nodup) (needed : Int) :
    (Gather.start (α := α) started needed).LiveCounted live started needed := by
  have hbalance : started.countP (live ·) + ([] : List α).length = started.countP (live ·) :=
    Nat.add_zero _
  exact LiveCounted.check hnodup (List.Subset.refl _) hbalance rfl

theorem LiveCounted.wake [DecidableEq Task] {started : List Task} {needed : Int} {state : Gather Task α}
    {event : Wake Task (Except PyError (Bool × α))}
    (hcounted : state.LiveCounted live started needed) (hrunning : state.exit = none)
    (hallowed : event.Allowed state.pending) (hlive : LiveWake live state.pending event) :
    (state.wake needed event).LiveCounted live started needed := by
  cases event with
  | cancelled => exact hlive.elim
  | timeout =>
      refine ⟨hcounted.pending_nodup, hcounted.pending_started, hcounted.balance,
        fun hnone => by simp [Gather.wake, Gather.leave] at hnone, ?_⟩
      intro outcome hexit
      simp only [Gather.wake, Gather.leave, Option.some.injEq] at hexit
      exact ⟨hexit.symm, Or.inl hlive⟩
  | done finished =>
      obtain ⟨_, hnodup, hpending⟩ := hallowed
      obtain ⟨final, hfinal, hlength⟩ := collectDone_of_liveCount hlive state.collected
      have htasks : ∀ task ∈ finished.map Prod.fst, task ∈ state.pending := by
        intro task htask
        obtain ⟨entry, hentry, rfl⟩ := List.mem_map.mp htask
        exact hpending entry hentry
      have hleft := (filter_not_mem_append_perm hcounted.pending_nodup hnodup htasks).countP_eq
        (live ·)
      have hbalance := hcounted.balance
      rw [List.countP_append] at hleft
      simp only [Gather.wake, hfinal]
      apply LiveCounted.check (hcounted.pending_nodup.filter _)
      · exact fun task htask => hcounted.pending_started (List.mem_of_mem_filter htask)
      · simp only [hlength]
        omega
      · exact hrunning

/-- What a wake-up leaves pending was pending and has not finished. -/
theorem mem_pending_wake [DecidableEq Task] {needed : Int} {state : Gather Task α}
    {finished : List (Task × Except PyError (Bool × α))} {task : Task}
    (hpending : task ∈ (state.wake needed (.done finished)).pending) :
    task ∈ state.pending ∧ task ∉ finished.map Prod.fst := by
  have hkept : task ∈ state.pending.filter (· ∉ finished.map Prod.fst) := by
    simp only [Gather.wake] at hpending
    cases hcollect : collectDone finished state.collected with
    | error error =>
        rw [hcollect] at hpending
        exact hpending
    | ok collected =>
        simp only [hcollect, Gather.check] at hpending
        split at hpending
        · exact hpending
        · exact hpending
  simpa only [List.mem_filter, decide_eq_true_eq] using hkept

/-- With live tasks enough the loop ends with what it needs. -/
theorem LiveCounted.enough {started : List Task} {needed : Int} {state : Gather Task α}
    (hcounted : state.LiveCounted live started needed)
    (henough : needed ≤ started.countP (live ·)) {outcome : Except PyError (List α)}
    (hexit : state.exit = some outcome) :
    ∃ collected, outcome = .ok collected ∧ needed ≤ collected.length := by
  obtain ⟨rfl, hdone⟩ := hcounted.ended outcome hexit
  refine ⟨state.collected, rfl, ?_⟩
  rcases hdone with hnone | hquorum
  · have hbalance := hcounted.balance
    rw [countP_live_eq_zero.mpr hnone] at hbalance
    omega
  · exact hquorum

/-- With too few of them it ends with too little. -/
theorem LiveCounted.short {started : List Task} {needed : Int} {state : Gather Task α}
    (hcounted : state.LiveCounted live started needed)
    (hshort : (started.countP (live ·) : Int) < needed) {outcome : Except PyError (List α)}
    (hexit : state.exit = some outcome) :
    ∃ collected, outcome = .ok collected ∧ (collected.length : Int) < needed := by
  obtain ⟨rfl, _⟩ := hcounted.ended outcome hexit
  have hbalance := hcounted.balance
  exact ⟨state.collected, rfl, by omega⟩

end Gather

namespace FanOut

variable {Answer α : Type} {outcome : Except PyError Answer → Except PyError (Bool × α)}
  {down : Finset Node} {needed : Int} {fan next : FanOut Answer α}

/-- Every answer counts, a call fails exactly if its peer is down, and the loop has
collected the calls to the others. -/
structure LiveCounted (outcome : Except PyError Answer → Except PyError (Bool × α))
    (down : Finset Node) (needed : Int) (fan : FanOut Answer α) : Prop where
  answered : ∀ peer answer, (fan.calls peer).answer = some answer →
    ∃ value, outcome (.ok answer) = .ok (true, value)
  finished : ∀ peer result, (fan.calls peer).result = some result →
    ∃ value, result = .ok (decide (peer ∉ down), value)
  gather : fan.gather.LiveCounted (· ∉ down) fan.contacted needed

/-- The timer of the loop runs out only once it waits for nodes that are down. -/
def WaitsForLive (down : Finset Node) (fan : FanOut Answer α) : Signal Node → Prop
  | .done _ => True
  | .timeout => ∀ peer ∈ fan.gather.pending, peer ∈ down
  | .cancelled => False

theorem LiveCounted.start {contacted : List Node} (hnodup : contacted.Nodup) (needed : Int) :
    (FanOut.start contacted (Gather.start contacted needed)).LiveCounted outcome down needed where
  answered peer answer hanswer := by simp [FanOut.start] at hanswer
  finished peer result hresult := by simp [FanOut.start] at hresult
  gather := Gather.LiveCounted.start hnodup needed

theorem LiveCounted.deliver {peer : Node} {answer : Answer}
    (hcounted : fan.LiveCounted outcome down needed)
    (hcounts : ∃ value, outcome (.ok answer) = .ok (true, value))
    (hnext : fan.deliver peer answer = some next) : next.LiveCounted outcome down needed := by
  obtain ⟨_, rfl⟩ := deliver_eq_some.mp hnext
  refine ⟨?_, ?_, hcounted.gather⟩
  · intro other seen hseen
    by_cases heq : other = peer
    · subst heq
      obtain rfl : answer = seen := by simpa [setCall] using hseen
      exact hcounts
    · exact hcounted.answered other seen (by simpa [setCall, heq] using hseen)
  · intro other result hresult
    by_cases heq : other = peer
    · subst heq
      exact hcounted.finished other result (by simpa [setCall] using hresult)
    · exact hcounted.finished other result (by simpa [setCall, heq] using hresult)

theorem LiveCounted.finish {peer : Node} {failure : Option PyError}
    (hcounted : fan.LiveCounted outcome down needed)
    (hfailed : ∃ value, outcome (.error .httpError) = .ok (false, value))
    (hfailure : failure = if peer ∈ down then some .httpError else none)
    (hnext : fan.finish outcome peer failure = some next) :
    next.LiveCounted outcome down needed := by
  obtain ⟨_, reply, hreply, rfl⟩ := finish_eq_some.mp hnext
  refine ⟨?_, ?_, hcounted.gather⟩
  · intro other seen hseen
    by_cases heq : other = peer
    · subst heq
      exact hcounted.answered other seen (by simpa [setCall] using hseen)
    · exact hcounted.answered other seen (by simpa [setCall, heq] using hseen)
  · intro other result hresult
    by_cases heq : other = peer
    · subst heq
      obtain rfl : outcome reply = result := by simpa [setCall] using hresult
      by_cases hdown : other ∈ down
      · rw [hfailure, if_pos hdown] at hreply
        obtain rfl := Option.some.inj hreply
        simpa [hdown] using hfailed
      · rw [hfailure, if_neg hdown] at hreply
        obtain ⟨answer, hanswer, rfl⟩ := Option.map_eq_some_iff.mp hreply
        simpa [hdown] using hcounted.answered other answer hanswer
    · exact hcounted.finished other result (by simpa [setCall, heq] using hresult)

theorem LiveCounted.wake {signal : Signal Node} (hcounted : fan.LiveCounted outcome down needed)
    (hwaits : fan.WaitsForLive down signal) (hnext : fan.wake needed signal = some next) :
    next.LiveCounted outcome down needed := by
  obtain ⟨event, hevent, gather, hgather, rfl⟩ := wake_eq_some.mp hnext
  obtain ⟨hrunning, hallowed, rfl⟩ := Gather.step_eq_some.mp hgather
  refine ⟨hcounted.answered, hcounted.finished, ?_⟩
  apply hcounted.gather.wake hrunning hallowed
  cases event with
  | done finished =>
      intro entry hentry
      exact hcounted.finished entry.1 entry.2 (Signal.event_done hevent entry hentry)
  | timeout =>
      rw [Signal.eq_timeout hevent] at hwaits
      exact fun peer hpeer => not_not.mpr (hwaits peer hpeer)
  | cancelled =>
      cases signal with
      | cancelled => exact hwaits
      | timeout => simp [Signal.event] at hevent
      | done tasks => simp [Signal.event] at hevent

/-- Once every live call has returned, one wake-up ends a loop that has live calls enough. -/
theorem LiveCounted.exists_wake (hcounted : fan.LiveCounted outcome down needed)
    (hrunning : fan.gather.exit = none)
    (henough : needed ≤ fan.contacted.countP (· ∉ down))
    (hreturned : ∀ peer ∈ fan.contacted, peer ∉ down → (fan.calls peer).result.isSome) :
    ∃ tasks gather, fan.wake needed (.done tasks) = some { fan with gather := gather } ∧
      gather.exit.isSome := by
  let tasks := fan.gather.pending.filter (· ∉ down)
  have hmem : ∀ {peer}, peer ∈ tasks ↔ peer ∈ fan.gather.pending ∧ peer ∉ down := by
    intro peer
    simp only [tasks, List.mem_filter, decide_eq_true_eq]
  -- the loop has not ended, so a live call is still pending
  have htasks : tasks ≠ [] := by
    intro hnil
    have hcount : fan.gather.pending.countP (· ∉ down) = tasks.length :=
      List.countP_eq_length_filter
    have hbalance := hcounted.gather.balance
    have hcollected := hcounted.gather.running hrunning
    rw [hcount, hnil, List.length_nil] at hbalance
    omega
  obtain ⟨finished, hfinished, hnames⟩ := @exists_results _ _
    (fun peer => (fan.calls peer).result) tasks fun peer hpeer =>
      hreturned peer (hcounted.gather.pending_started (hmem.mp hpeer).1) (hmem.mp hpeer).2
  have hallowed : Wake.Allowed fan.gather.pending (.done finished) := by
    refine ⟨?_, ?_, ?_⟩
    · rintro rfl
      exact htasks hnames.symm
    · rw [hnames]
      exact hcounted.gather.pending_nodup.filter _
    · intro entry hentry
      exact (hmem.mp (hnames ▸ List.mem_map_of_mem hentry)).1
  have hevent : Signal.event (fun peer => (fan.calls peer).result) (.done tasks) =
      some (.done finished) := by
    rw [Signal.event, hfinished]
    rfl
  have hwake : fan.wake needed (.done tasks) =
      some { fan with gather := fan.gather.wake needed (.done finished) } :=
    wake_eq_some.mpr ⟨_, hevent, _, Gather.step_eq_some.mpr ⟨hrunning, hallowed, rfl⟩, rfl⟩
  refine ⟨tasks, _, hwake, ?_⟩
  have hwaits : fan.WaitsForLive down (.done tasks) := trivial
  have hwoken : (fan.gather.wake needed (.done finished)).LiveCounted (· ∉ down) fan.contacted
      needed := (hcounted.wake hwaits hwake).gather
  by_contra hstays
  have hnone := Option.not_isSome_iff_eq_none.mp hstays
  -- it could only go on with too little, but nothing live is left
  have hleft : (fan.gather.wake needed (.done finished)).pending.countP (· ∉ down) = 0 := by
    rw [Gather.countP_live_eq_zero]
    intro peer hpeer hlive
    have hkept := Gather.mem_pending_wake hpeer
    rw [hnames] at hkept
    exact hkept.2 (hmem.mpr ⟨hkept.1, hlive⟩)
  have hbalance := hwoken.balance
  have hcollected := hwoken.running hnone
  rw [hleft] at hbalance
  omega

end FanOut

end KvReplication.Leaderless
