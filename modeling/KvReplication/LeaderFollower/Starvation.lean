import KvReplication.LeaderFollower.Permits
import KvReplication.LeaderFollower.Durability

/-! # Writes that too few followers acked

A write is answered 503 where its loop ends, at its deadline or with its last send,
before enough acks are in. What its other sends have come to by then depends on the
semaphore too: a send whose turn has not come has not posted anything.
-/

namespace KvReplication.LeaderFollower

open WaitLoop

variable {V : Type} {cluster : Cluster}

/-- What `asyncio.wait` reports: all pending tasks that have finished, and the end of its
timer only if none has. -/
def Replication.prompt (replication : Replication) : Signal Nat → Bool
  | .done tasks => replication.loop.pending.all fun entry =>
      (replication.result entry).isNone || decide (entry ∈ tasks)
  | .timeout => replication.loop.pending.all fun entry => (replication.result entry).isNone
  | .cancelled => true

/-- What can happen while the leader is up: its client is open, and its tasks are not
cancelled. -/
def State.serves (state : State V) : Action V → Bool
  | .shutdown => false
  | .cancelSend _ _ => false
  | .wake put signal =>
      match (state.puts[put]?).bind PutOp.progress with
      | none => true
      | some progress => progress.replication.prompt signal
  | _ => true

/-- One action of a cluster whose leader is up. -/
def Cluster.servingStep (cluster : Cluster) (state : State V) (action : Action V) :
    Option (State V) :=
  if state.serves action then cluster.step state action else none

theorem Cluster.servingStep_eq_some {state next : State V} {action : Action V} :
    cluster.servingStep state action = some next ↔
      state.serves action = true ∧ cluster.step state action = some next := by
  unfold servingStep
  split
  · next hserves => simp [hserves]
  · next hserves => simp [hserves]

/-- The follower has failed the POST: it was refused, cut off or answered badly. -/
def Send.Failed (send : Send) : Prop :=
  send.issued = true ∧ send.stage = .finished (.ok false)

/-- The POST is under way and not answered. -/
def Send.Unanswered (send : Send) : Prop := send.issued = true ∧ send.stage = .posting

/-- The send has not posted: its task has not run yet, or waits for a permit. -/
def Send.Unposted (send : Send) : Prop := send.stage = .created ∨ send.stage = .queued

/-- A send that posts, or has returned, has issued its POST. -/
structure Send.Issued (send : Send) : Prop where
  posting : send.stage = .posting → send.issued = true
  finished : ∀ ack, send.stage = .finished (.ok ack) → send.issued = true

/-- What a send does while the client is open: a result stays. -/
structure Send.Goes (send next : Send) : Prop where
  issued : send.Issued → next.Issued
  finished : ∀ result, send.stage = .finished result → next.stage = .finished result

namespace Send

variable {send next : Send}

theorem goes_begin (hnext : send.begin false = some next) : send.Goes next := by
  unfold begin at hnext
  split at hnext
  · next hstage =>
      obtain rfl := Option.some.inj hnext
      refine ⟨fun _ => ⟨fun hposting => ?_, fun ack hfinished => ?_⟩, fun result hfinished => ?_⟩
      · cases hposting
      · cases hfinished
      · rw [hstage] at hfinished
        cases hfinished
  · cases hnext

theorem goes_post (hnext : send.post false = some next) : send.Goes next := by
  unfold post at hnext
  split at hnext
  · next hstage =>
      obtain rfl := Option.some.inj hnext
      refine ⟨fun _ => ⟨fun _ => rfl, fun _ _ => rfl⟩, fun result hfinished => ?_⟩
      rw [hstage] at hfinished
      cases hfinished
  · cases hnext

theorem goes_handled {response : ReplicateResponse} (hnext : send.handled response = some next) :
    send.Goes next := by
  obtain ⟨_, rfl⟩ := handled_eq_some.mp hnext
  exact ⟨fun hissued => ⟨hissued.posting, hissued.finished⟩, fun _ hfinished => hfinished⟩

theorem goes_finish {failure : Option PyError} (hnext : send.finish failure = some next) :
    send.Goes next := by
  unfold finish at hnext
  split at hnext
  · next hstage =>
      have hrunning : ∀ result, send.stage ≠ .finished result := by
        intro result hfinished
        rw [hstage] at hfinished
        cases hfinished
      have hposted : ∀ stage, send.Issued → ({ send with stage := stage } : Send).Issued :=
        fun _ hissued => ⟨fun _ => hissued.posting hstage, fun _ _ => hissued.posting hstage⟩
      cases failure with
      | some error =>
          obtain rfl := Option.some.inj hnext
          exact ⟨hposted _, fun result hfinished => absurd hfinished (hrunning result)⟩
      | none =>
          obtain ⟨response, _, rfl⟩ := Option.map_eq_some_iff.mp hnext
          exact ⟨hposted _, fun result hfinished => absurd hfinished (hrunning result)⟩
  · cases hnext

theorem Issued.failed (hissued : send.Issued) (hfinished : send.stage = .finished (.ok false)) :
    send.Failed :=
  ⟨hissued.finished false hfinished, hfinished⟩

/-- A send that has not returned has posted, or has not come to it yet. -/
theorem Issued.running (hissued : send.Issued)
    (hrunning : ∀ result, send.stage ≠ .finished result) :
    send.Unanswered ∨ send.Unposted := by
  cases hstage : send.stage with
  | created => exact Or.inr (Or.inl hstage)
  | queued => exact Or.inr (Or.inr hstage)
  | posting => exact Or.inl ⟨hissued.posting hstage, hstage⟩
  | finished result => exact absurd hstage (hrunning result)

end Send

/-- The loop has counted the acks among the sends it has taken up; the others among
these have failed. -/
def Replication.Tallied (replication : Replication) (pending : List Nat) (acked : Nat) : Prop :=
  ∃ counted : List Nat, Accounted replication.entries pending counted ∧ acked = counted.length ∧
    ∀ entry ∈ replication.entries, entry ∉ pending →
      entry ∈ counted ∨ (replication.sends entry).stage = .finished (.ok false)

/-- The sends of a write under an open client, and a loop that has lost none. -/
structure Replication.Live (replication : Replication) : Prop where
  entries_nodup : replication.entries.Nodup
  issued : ∀ entry, (replication.sends entry).Issued
  tallied : replication.loop.exit = none →
    replication.Tallied replication.loop.pending replication.loop.acked

namespace Replication

variable {replication next : Replication}

/-- The sends that the loop has not counted are as many as the acks leave, and those
that are not pending have failed. -/
theorem Live.uncounted (hlive : replication.Live) {pending : List Nat} {acked : Nat}
    (htallied : replication.Tallied pending acked) :
    ∃ uncounted : List Nat, uncounted.Nodup ∧ uncounted ⊆ replication.entries ∧
      uncounted.length + acked = replication.entries.length ∧
      ∀ entry ∈ uncounted, entry ∈ pending ∨
        (replication.sends entry).stage = .finished (.ok false) := by
  obtain ⟨counted, haccount, rfl, htaken⟩ := htallied
  refine ⟨replication.entries.filter (· ∉ counted), hlive.entries_nodup.filter _,
    fun entry hentry => (List.mem_filter.mp hentry).1,
    length_filter_not_mem hlive.entries_nodup haccount.counted_nodup haccount.counted_started, ?_⟩
  intro entry hentry
  obtain ⟨hmem, hnot⟩ := List.mem_filter.mp hentry
  by_cases hpending : entry ∈ pending
  · exact Or.inl hpending
  · exact Or.inr ((htaken entry hmem hpending).resolve_left (of_decide_eq_true hnot))

/-- A wake-up without an exception keeps the tally. -/
theorem Tallied.done {pending : List Nat} {acked acks : Nat}
    (htallied : replication.Tallied pending acked) {finished : List (Nat × Except PyError Bool)}
    (hallowed : Wake.Allowed pending (.done finished))
    (hresults : ∀ entry ∈ finished, replication.result entry.1 = some entry.2)
    (hsum : Replicate.sumDone finished = .ok acks) :
    replication.Tallied (pending.filter (· ∉ finished.map Prod.fst)) (acked + acks) := by
  obtain ⟨counted, haccount, rfl, htaken⟩ := htallied
  obtain ⟨_, hnodup, hpending⟩ := hallowed
  have htasks : ∀ task ∈ finished.map Prod.fst, task ∈ pending := by
    intro task htask
    obtain ⟨entry, hentry, rfl⟩ := List.mem_map.mp htask
    exact hpending entry hentry
  refine ⟨counted ++ Replicate.ackedTasks finished,
    haccount.wake hnodup htasks (List.filter_sublist.map Prod.fst), ?_, ?_⟩
  · rw [List.length_append, Replicate.sumDone_eq_ok hsum]
  · intro entry hentry hnot
    by_cases hold : entry ∈ pending
    · -- taken up just now, with the result it has finished with
      have hnow : entry ∈ finished.map Prod.fst := by
        by_contra hother
        exact hnot (List.mem_filter.mpr ⟨hold, decide_eq_true hother⟩)
      obtain ⟨⟨task, result⟩, hmem, rfl⟩ := List.mem_map.mp hnow
      have hstage := result_eq_some.mp (hresults _ hmem)
      obtain ⟨ack, rfl⟩ := Replicate.returned_of_sumDone hsum hmem
      cases ack with
      | false => exact Or.inr hstage
      | true =>
          refine Or.inl (List.mem_append_right _ (List.mem_map.mpr ⟨_, ?_, rfl⟩))
          exact List.mem_filter.mpr ⟨hmem, rfl⟩
    · exact (htaken entry hentry hold).imp_left (List.mem_append_left _)

/-- One send moves. -/
theorem Live.setSend (hlive : replication.Live) {entry : Nat} {send : Send}
    (hgoes : (replication.sends entry).Goes send) : (replication.setSend entry send).Live where
  entries_nodup := hlive.entries_nodup
  issued other := by
    by_cases heq : other = entry
    · subst heq
      simpa [Replication.setSend] using hgoes.issued (hlive.issued other)
    · simpa [Replication.setSend, heq] using hlive.issued other
  tallied hrunning := by
    obtain ⟨counted, haccount, hacked, htaken⟩ := hlive.tallied hrunning
    refine ⟨counted, haccount, hacked, fun other hother hnot => ?_⟩
    refine (htaken other hother hnot).imp_right fun hfailed => ?_
    by_cases heq : other = entry
    · subst heq
      simpa [Replication.setSend] using hgoes.finished _ hfailed
    · simpa [Replication.setSend, heq] using hfailed

theorem Live.start {entries : List Nat} (hnodup : entries.Nodup) (ackRequired : Int) :
    (Replication.start entries ackRequired).Live where
  entries_nodup := hnodup
  issued entry := by
    constructor
    · intro hposting
      cases hposting
    · intro ack hfinished
      cases hfinished
  tallied _ := by
    have hpending : (Replicate.start entries ackRequired).pending = entries :=
      Replicate.pending_check
    have hacked : (Replicate.start entries ackRequired).acked = 0 := Replicate.acked_check
    refine ⟨[], ?_, hacked, fun entry hentry hnot => absurd ?_ hnot⟩
    · change Accounted entries (Replicate.start entries ackRequired).pending []
      rw [hpending]
      exact Accounted.start hnodup
    · change entry ∈ (Replicate.start entries ackRequired).pending
      rw [hpending]
      exact hentry

/-- The loop takes up a wake-up. -/
theorem Live.wake (hlive : replication.Live) {ackRequired : Int} {signal : Signal Nat}
    (hwake : replication.wake ackRequired signal = some next) : next.Live := by
  obtain ⟨event, hevent, loop, hloop, rfl⟩ := wake_eq_some.mp hwake
  obtain ⟨hrunning, hallowed, rfl⟩ := Replicate.step_eq_some.mp hloop
  refine ⟨hlive.entries_nodup, hlive.issued, fun hlater => ?_⟩
  cases event with
  | timeout => cases hlater
  | cancelled => cases hlater
  | done finished =>
      simp only [Replicate.wake] at hlater ⊢
      cases hsum : Replicate.sumDone finished with
      | error error =>
          rw [hsum] at hlater
          cases hlater
      | ok acks =>
          have hdone := (hlive.tallied hrunning).done hallowed (Signal.event_done hevent) hsum
          simp only [Replicate.pending_check, Replicate.acked_check]
          exact hdone

/-- Where a wake-up ends the loop short of acks, every send that is missing has failed,
or the timer has ended and the send has not returned. -/
theorem Live.short (hlive : replication.Live) {ackRequired : Int} {signal : Signal Nat}
    (hprompt : replication.prompt signal = true)
    (hwake : replication.wake ackRequired signal = some next) {acked : Nat}
    (hexit : next.loop.exit = some (.ok acked)) (hshort : (acked : Int) < ackRequired) :
    ∃ unacked : List Nat, unacked.Nodup ∧ unacked ⊆ replication.entries ∧
      unacked.length + acked = replication.entries.length ∧
      ∀ entry ∈ unacked, (replication.sends entry).Failed ∨ signal = .timeout ∧
        ((replication.sends entry).Unanswered ∨ (replication.sends entry).Unposted) := by
  obtain ⟨event, hevent, loop, hloop, rfl⟩ := wake_eq_some.mp hwake
  obtain ⟨hrunning, hallowed, rfl⟩ := Replicate.step_eq_some.mp hloop
  have htallied := hlive.tallied hrunning
  cases event with
  | cancelled => cases hexit
  | timeout =>
      obtain rfl : replication.loop.acked = acked := Except.ok.inj (Option.some.inj hexit)
      obtain ⟨unacked, hnodup, hsubset, hlength, hcases⟩ := hlive.uncounted htallied
      refine ⟨unacked, hnodup, hsubset, hlength, fun entry hentry => ?_⟩
      have hissued := hlive.issued entry
      refine (hcases entry hentry).symm.imp hissued.failed fun hpending => ?_
      obtain rfl := Signal.eq_timeout hevent
      have hnone := Option.isNone_iff_eq_none.mp (List.all_eq_true.mp hprompt entry hpending)
      refine ⟨rfl, hissued.running fun result hfinished => ?_⟩
      rw [result_eq_some.mpr hfinished] at hnone
      cases hnone
  | done finished =>
      simp only [Replicate.wake] at hexit
      cases hsum : Replicate.sumDone finished with
      | error error =>
          rw [hsum] at hexit
          cases hexit
      | ok acks =>
          rw [hsum] at hexit
          obtain ⟨rfl, hends⟩ := Replicate.exit_check (by exact hrunning) hexit
          have hdone := htallied.done hallowed (Signal.event_done hevent) hsum
          obtain ⟨unacked, hnodup, hsubset, hlength, hcases⟩ := hlive.uncounted hdone
          refine ⟨unacked, hnodup, hsubset, hlength, fun entry hentry => Or.inl ?_⟩
          -- too few acks, so the loop ended because nothing is pending
          have hempty := hends.resolve_right (Int.not_le.mpr hshort)
          refine (hlive.issued entry).failed ((hcases entry hentry).resolve_left fun hpending => ?_)
          simp only at hempty
          rw [hempty] at hpending
          cases hpending

end Replication

variable {state next : State V}

/-- What one action does to the writes while the leader is up. -/
inductive PutsChange (cluster : Cluster) (state : State V) (action : Action V) :
    List (PutOp V) → Prop
  | unchanged : PutsChange cluster state action state.puts
  | stamp {op : PutOp V} (hprogress : op.progress = none) :
      PutsChange cluster state action (state.puts ++ [op])
  | localPut {put : Nat} {op : PutOp V} (localApplied : Bool) (hop : state.puts[put]? = some op) :
      PutsChange cluster state action (state.puts.set put (cluster.startPut op localApplied))
  | send {put entry : Nat} {op : PutOp V} {progress : PutProgress} {send : Send}
      (hop : state.puts[put]? = some op) (hprogress : op.progress = some progress)
      (hgoes : (progress.replication.sends entry).Goes send) :
      PutsChange cluster state action (state.puts.set put
        (op.withReplication progress (progress.replication.setSend entry send)))
  | wake {put : Nat} {signal : Signal Nat} {op : PutOp V} {progress : PutProgress}
      {replication : Replication} (haction : action = .wake put signal)
      (hop : state.puts[put]? = some op) (hprogress : op.progress = some progress)
      (hprompt : progress.replication.prompt signal = true)
      (hwake : progress.replication.wake (cluster.ackRequired op.site) signal =
        some replication) :
      PutsChange cluster state action
        (state.puts.set put (op.withReplication progress replication))

theorem PutsChange.of_moveSend {action : Action V} {put entry : Nat} {move : Send → Option Send}
    {puts : List (PutOp V)} (hputs : Cluster.moveSend state.puts put entry move = some puts)
    (hgoes : ∀ send next, move send = some next → send.Goes next) :
    PutsChange cluster state action puts := by
  obtain ⟨op, hop, progress, hprogress, _, send, hsend, rfl⟩ := Cluster.moveSend_eq_some.mp hputs
  exact .send hop hprogress (hgoes _ _ hsend)

theorem putsChange_of_step (hopen : state.closed = false) {action : Action V}
    (hnext : cluster.servingStep state action = some next) :
    PutsChange cluster state action next.puts ∧ next.closed = false := by
  obtain ⟨hserves, hnext⟩ := Cluster.servingStep_eq_some.mp hnext
  cases cluster.effect_of_step hnext with
  | shutdown => cases hserves
  | cancelSend hputs => cases hserves
  | stamp hsite => exact ⟨.stamp rfl, hopen⟩
  | localPut hop hprogress happlied => exact ⟨.localPut _ hop, hopen⟩
  | beginSend hputs =>
      rw [hopen] at hputs
      exact ⟨.of_moveSend hputs fun _ _ => Send.goes_begin, hopen⟩
  | acquire hfree hputs =>
      rw [hopen] at hputs
      exact ⟨.of_moveSend hputs fun _ _ => Send.goes_post, hopen⟩
  | handleReplicate hop hfollower hresponse hputs =>
      exact ⟨.of_moveSend hputs fun _ _ => Send.goes_handled, hopen⟩
  | finishSend hputs => exact ⟨.of_moveSend hputs fun _ _ => Send.goes_finish, hopen⟩
  | wake hop hprogress hwake =>
      refine ⟨.wake rfl hop hprogress ?_ hwake, hopen⟩
      simpa [State.serves, hop, hprogress] using hserves
  | delete hsite => exact ⟨.unchanged, hopen⟩

/-- The write waits for acks, and more of its entries than it can miss have not acked:
the follower has failed the POST, or the timer ends before the send has returned. -/
def State.LeavesShort (cluster : Cluster) (state : State V) (put : Nat) (signal : Signal Nat) :
    Prop :=
  ∃ op progress, state.puts[put]? = some op ∧ op.progress = some progress ∧
    progress.replication.loop.exit = none ∧ ∃ unacked : Finset Nat,
      (∀ entry ∈ unacked, entry < cluster.config.followers.length) ∧
      cluster.config.followers.length - cluster.config.ackRequired < unacked.card ∧
      ∀ entry ∈ unacked, (progress.replication.sends entry).Failed ∨ signal = .timeout ∧
        ((progress.replication.sends entry).Unanswered ∨
          (progress.replication.sends entry).Unposted)

/-- A wake-up in the history has left the write short of acks. -/
def DecidedShort (cluster : Cluster) (history : List (Action V)) (put : Nat) : Prop :=
  ∃ before signal after waiting, history = before ++ .wake put signal :: after ∧
    Runs.run cluster.servingStep Cluster.init before = some waiting ∧
    waiting.LeavesShort cluster put signal

theorem DecidedShort.append {history : List (Action V)} {put : Nat}
    (hdecided : DecidedShort cluster history put) (action : Action V) :
    DecidedShort cluster (history ++ [action]) put := by
  obtain ⟨before, signal, after, waiting, rfl, hbefore, hshort⟩ := hdecided
  exact ⟨before, signal, after ++ [action], waiting, by simp, hbefore, hshort⟩

/-- A write under a leader that is up; where its loop has ended short of acks, some
wake-up has left it so. -/
structure PutOp.Chronicled (cluster : Cluster) (history : List (Action V)) (put : Nat)
    (op : PutOp V) : Prop where
  entries : ∀ progress, op.progress = some progress →
    progress.replication.entries = cluster.entries op.site
  live : ∀ progress, op.progress = some progress → progress.replication.Live
  short : ∀ progress acked, op.progress = some progress →
    progress.replication.loop.exit = some (.ok acked) →
    (acked : Int) < cluster.ackRequired op.site → DecidedShort cluster history put

namespace PutOp.Chronicled

variable {history : List (Action V)} {put : Nat} {op : PutOp V}

theorem append (hop : op.Chronicled cluster history put) (action : Action V) :
    op.Chronicled cluster (history ++ [action]) put where
  entries := hop.entries
  live := hop.live
  short progress acked hprogress hexit hshort :=
    (hop.short progress acked hprogress hexit hshort).append action

theorem stamp (hprogress : op.progress = none) : op.Chronicled cluster history put where
  entries progress hstarted := by
    rw [hprogress] at hstarted
    cases hstarted
  live progress hstarted := by
    rw [hprogress] at hstarted
    cases hstarted
  short progress acked hstarted := by
    rw [hprogress] at hstarted
    cases hstarted

/-- A leader may not wait for more acks than there are sends. -/
theorem ackRequired_le_entries (cluster : Cluster) (site : Site) :
    cluster.ackRequired site ≤ (cluster.entries site).length := by
  cases site with
  | leader => simpa [Cluster.entries, Cluster.ackRequired] using cluster.ackRequired_le
  | follower address => exact Int.natCast_nonneg _

theorem startPut (op : PutOp V) (localApplied : Bool) :
    (cluster.startPut op localApplied).Chronicled cluster history put where
  entries progress hstarted := by
    obtain rfl := Option.some.inj hstarted
    rfl
  live progress hstarted := by
    obtain rfl := Option.some.inj hstarted
    exact Replication.Live.start (entries_nodup cluster op.site) _
  short progress acked hstarted hexit hshort := by
    obtain rfl := Option.some.inj hstarted
    -- a loop that ends before its first await has all the acks it needs
    obtain ⟨rfl, hends⟩ := Replicate.exit_check rfl hexit
    rcases hends with hempty | hquorum
    · have hrequired := ackRequired_le_entries cluster op.site
      simp only at hempty
      rw [hempty] at hrequired
      exact absurd hshort (Int.not_lt.mpr hrequired)
    · exact absurd hshort (Int.not_lt.mpr hquorum)

/-- A move of a send leaves the loop as it is. -/
theorem send (hop : op.Chronicled cluster history put) {progress : PutProgress}
    (hprogress : op.progress = some progress) {entry : Nat} {send : Send}
    (hgoes : (progress.replication.sends entry).Goes send) :
    (op.withReplication progress (progress.replication.setSend entry send)).Chronicled
      cluster history put where
  entries later hlater := by
    obtain rfl := Option.some.inj hlater
    exact hop.entries progress hprogress
  live later hlater := by
    obtain rfl := Option.some.inj hlater
    exact (hop.live progress hprogress).setSend hgoes
  short later acked hlater hexit hshort := by
    obtain rfl := Option.some.inj hlater
    exact hop.short progress acked hprogress hexit hshort

/-- The wake-up that ends the loop short of acks is the one that decides. -/
theorem leavesShort (hop : op.Chronicled cluster history put) (hput : state.puts[put]? = some op)
    {progress : PutProgress} (hprogress : op.progress = some progress) {signal : Signal Nat}
    {replication : Replication} (hprompt : progress.replication.prompt signal = true)
    (hwake : progress.replication.wake (cluster.ackRequired op.site) signal = some replication)
    {acked : Nat} (hexit : replication.loop.exit = some (.ok acked))
    (hshort : (acked : Int) < cluster.ackRequired op.site) :
    state.LeavesShort cluster put signal := by
  have hleader : op.site = .leader := by
    cases hsite : op.site with
    | leader => rfl
    | follower address =>
        rw [hsite] at hshort
        exact absurd hshort (Int.not_lt.mpr (Int.natCast_nonneg acked))
  obtain ⟨unacked, hnodup, hsubset, hlength, hcases⟩ :=
    (hop.live progress hprogress).short hprompt hwake hexit hshort
  rw [hop.entries progress hprogress, hleader] at hsubset hlength
  rw [hleader] at hshort
  have htotal : unacked.length + acked = cluster.config.followers.length := by
    simpa [Cluster.entries] using hlength
  obtain ⟨_, _, _, hloop, _⟩ := Replication.wake_eq_some.mp hwake
  refine ⟨op, progress, hput, hprogress, (Replicate.step_eq_some.mp hloop).1, unacked.toFinset,
    ?_, ?_, ?_⟩
  · intro entry hentry
    exact List.mem_range.mp (hsubset (List.mem_toFinset.mp hentry))
  · rw [List.toFinset_card_of_nodup hnodup]
    change (acked : Int) < cluster.config.ackRequired at hshort
    omega
  · intro entry hentry
    exact hcases entry (List.mem_toFinset.mp hentry)

theorem wake (hreached : Runs.run cluster.servingStep Cluster.init history = some state)
    (hop : op.Chronicled cluster history put) (hput : state.puts[put]? = some op)
    {progress : PutProgress} (hprogress : op.progress = some progress) {signal : Signal Nat}
    {replication : Replication} (hprompt : progress.replication.prompt signal = true)
    (hwake : progress.replication.wake (cluster.ackRequired op.site) signal = some replication) :
    (op.withReplication progress replication).Chronicled cluster
      (history ++ [.wake put signal]) put where
  entries later hlater := by
    obtain rfl := Option.some.inj hlater
    obtain ⟨_, _, _, _, rfl⟩ := Replication.wake_eq_some.mp hwake
    exact hop.entries progress hprogress
  live later hlater := by
    obtain rfl := Option.some.inj hlater
    exact (hop.live progress hprogress).wake hwake
  short later acked hlater hexit hshort := by
    obtain rfl := Option.some.inj hlater
    exact ⟨history, signal, [], state, rfl, hreached,
      hop.leavesShort hput hprogress hprompt hwake hexit hshort⟩

end PutOp.Chronicled

/-- What the history of a leader that is up leaves behind. -/
structure State.Chronicled (cluster : Cluster) (history : List (Action V)) (state : State V) :
    Prop where
  reached : Runs.run cluster.servingStep Cluster.init history = some state
  client_open : state.closed = false
  puts : ∀ (put : Nat) (op : PutOp V), state.puts[put]? = some op →
    op.Chronicled cluster history put

theorem State.Chronicled.step {history : List (Action V)} {action : Action V}
    (hstate : state.Chronicled cluster history)
    (hnext : cluster.servingStep state action = some next) :
    next.Chronicled cluster (history ++ [action]) := by
  obtain ⟨hchange, hopen⟩ := putsChange_of_step hstate.client_open hnext
  refine ⟨(Runs.run_concat_eq_some _).mpr ⟨state, hstate.reached, hnext⟩, hopen, ?_⟩
  have hgrown : ∀ (put : Nat) (op : PutOp V), state.puts[put]? = some op →
      op.Chronicled cluster (history ++ [action]) put := fun put op hop =>
    (hstate.puts put op hop).append action
  have hset : ∀ (changed : Nat) (later : PutOp V),
      later.Chronicled cluster (history ++ [action]) changed → ∀ (put : Nat) (op : PutOp V),
        (state.puts.set changed later)[put]? = some op →
          op.Chronicled cluster (history ++ [action]) put :=
    fun _ _ hlater => Records.forall_getElem?_set hgrown hlater
  generalize next.puts = puts at hchange
  cases hchange with
  | unchanged => exact hgrown
  | stamp hprogress => exact Records.forall_getElem?_concat hgrown (.stamp hprogress)
  | localPut localApplied hold => exact hset _ _ (.startPut _ localApplied)
  | send hold hprogress hgoes => exact hset _ _ ((hgrown _ _ hold).send hprogress hgoes)
  | wake haction hold hprogress hprompt hwake =>
      subst haction
      exact hset _ _
        ((hstate.puts _ _ hold).wake hstate.reached hold hprogress hprompt hwake)

theorem State.Chronicled.init : (Cluster.init : State V).Chronicled cluster [] where
  reached := rfl
  client_open := rfl
  puts put op hop := by cases hop

/-- The action, for a write that stands `older` places further on. -/
def Action.shift (older : Nat) : Action V → Action V
  | .stamp site key body now => .stamp site key body now
  | .localPut put => .localPut (older + put)
  | .beginSend put entry => .beginSend (older + put) entry
  | .acquire put entry => .acquire (older + put) entry
  | .handleReplicate put entry => .handleReplicate (older + put) entry
  | .finishSend put entry failure => .finishSend (older + put) entry failure
  | .cancelSend put entry => .cancelSend (older + put) entry
  | .wake put signal => .wake (older + put) signal
  | .shutdown => .shutdown
  | .delete site key => .delete site key

/-- The same state with older writes before its own. -/
def State.behind (older : List (PutOp V)) (state : State V) : State V :=
  { state with puts := older ++ state.puts }

/-- The first follower acks at once; the second has accepted the POST and is silent. -/
def halfAnswered (now : ℚ) : List (Action Nat) :=
  [.stamp .leader "k" ⟨7⟩ now, .localPut 0, .beginSend 0 0, .beginSend 0 1, .acquire 0 0,
    .handleReplicate 0 0, .finishSend 0 0 none, .acquire 0 1, .wake 0 (.done [0])]

/-- So many writes, each answered before the next one is accepted. -/
def crowd : Nat → List (Action Nat)
  | 0 => []
  | count + 1 => crowd count ++ (halfAnswered count).map (Action.shift count)

end KvReplication.LeaderFollower
