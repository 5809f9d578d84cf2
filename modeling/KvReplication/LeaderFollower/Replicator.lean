import KvReplication.Common.ReplicationClient
import KvReplication.Foundation.WaitLoop
import KvReplication.LeaderFollower.Config

/-! # The replicator

The leader sends every write to every configured follower, one task per entry of
the list, and counts the sends that return `True`. A send first looks whether the
client is closed, then waits for one of the semaphore's permits, and posts. The
count is read off the loop of `replicate`; sends it no longer waits for are handed
to the background set, but only where the loop itself comes to its end.
-/

namespace KvReplication.LeaderFollower

open WaitLoop

/-- `_MAX_CONCURRENT_REPLICATE_CALLS`. -/
def maxConcurrentReplicateCalls : Nat := 256

/-- `_send` once the POST is issued: an answered call is an ack, applied or not. -/
def sendOutcome : Reply ReplicateResponse → Except PyError Bool
  | .error .httpError => .ok false
  | .error error => .error error
  | .ok (status, body) =>
      if isSuccess status then parsedOr false (fun _ => true) body else .ok false

/-- A send returns, failed or not, exactly if its exceptions are all named. -/
theorem sendOutcome_ok_iff {reply : Reply ReplicateResponse} :
    (∃ ack, sendOutcome reply = .ok ack) ↔ reply.Handled (isSuccess · = true) := by
  cases reply with
  | error error => cases error <;> simp [sendOutcome, Reply.Handled]
  | ok response =>
      obtain ⟨status, body⟩ := response
      by_cases hsuccess : isSuccess status = true
      · simpa only [sendOutcome, Reply.Handled, hsuccess, if_true, forall_const]
          using parsedOr_ok_iff
      · simp [sendOutcome, Reply.Handled, hsuccess]

/-- `replicate` between two awaits. `exit` is what the coroutine has returned or
raised, once it has. -/
structure Replicate where
  pending : List Nat
  acked : Nat
  background : List Nat
  exit : Option (Except PyError Nat)

namespace Replicate

/-- The loop ends: what is still pending goes to the background set. -/
def leave (state : Replicate) : Replicate :=
  { state with background := state.pending, exit := some (.ok state.acked) }

/-- An exception or a cancellation leaves the coroutine at once. -/
def fail (state : Replicate) (error : PyError) : Replicate :=
  { state with exit := some (.error error) }

/-- Test the loop condition: something is pending and too few acks are in. -/
def check (ackRequired : Int) (state : Replicate) : Replicate :=
  if state.pending.isEmpty ∨ ackRequired ≤ state.acked then state.leave else state

/-- Start one task per follower entry and run up to the first await. -/
def start (entries : List Nat) (ackRequired : Int) : Replicate :=
  check ackRequired ⟨entries, 0, [], none⟩

/-- The acks among the finished tasks; the first exception is re-raised. -/
def sumDone : List (Nat × Except PyError Bool) → Except PyError Nat
  | [] => .ok 0
  | (_, .error error) :: _ => .error error
  | (_, .ok ack) :: rest => (sumDone rest).map (ack.toNat + ·)

/-- One return of the await, and the loop up to the next one. -/
def wake (ackRequired : Int) (state : Replicate) : Wake Nat (Except PyError Bool) → Replicate
  | .timeout => state.leave
  | .cancelled => state.fail .cancelledError
  | .done finished =>
      let state := { state with
        pending := state.pending.filter (· ∉ finished.map Prod.fst) }
      match sumDone finished with
      | .error error => state.fail error
      | .ok acks => check ackRequired { state with acked := state.acked + acks }

/-- Take one wake-up, as long as the loop is still waiting. -/
def step (ackRequired : Int) (state : Replicate) (event : Wake Nat (Except PyError Bool)) :
    Option Replicate :=
  if state.exit.isNone ∧ event.Allowed state.pending then some (state.wake ackRequired event)
  else none

theorem step_eq_some {ackRequired : Int} {state next : Replicate}
    {event : Wake Nat (Except PyError Bool)} :
    state.step ackRequired event = some next ↔
      state.exit = none ∧ event.Allowed state.pending ∧ next = state.wake ackRequired event := by
  unfold step
  split
  · next hguard => simp [Option.isNone_iff_eq_none.mp hguard.1, hguard.2, eq_comm]
  · next hguard =>
      simp only [Option.isNone_iff_eq_none, not_and] at hguard
      simpa using fun hrunning hallowed => absurd hallowed (hguard hrunning)

/-- The finished tasks that returned `True`. -/
def ackedTasks (finished : List (Nat × Except PyError Bool)) : List Nat :=
  (finished.filter fun entry => entry.2 matches .ok true).map Prod.fst

theorem sumDone_eq_ok {finished : List (Nat × Except PyError Bool)} {acks : Nat}
    (hok : sumDone finished = .ok acks) : acks = (ackedTasks finished).length := by
  induction finished generalizing acks with
  | nil => simpa [sumDone, ackedTasks, eq_comm] using hok
  | cons entry rest ih =>
      obtain ⟨task, outcome⟩ := entry
      cases outcome with
      | error error => simp [sumDone] at hok
      | ok ack =>
          rw [sumDone] at hok
          cases hrest : sumDone rest with
          | error error => simp [hrest, Except.map] at hok
          | ok others =>
              rw [hrest] at hok
              obtain rfl := Except.ok.inj hok
              have htail := ih hrest
              cases ack with
              | false => simpa [ackedTasks, List.filter_cons] using htail
              | true => simp [ackedTasks, htail, Nat.add_comm]

/-- Where the acks add up, no task finished with an exception. -/
theorem returned_of_sumDone {finished : List (Nat × Except PyError Bool)} {acks : Nat}
    (hok : sumDone finished = .ok acks) {entry : Nat × Except PyError Bool}
    (hentry : entry ∈ finished) : ∃ ack, entry.2 = .ok ack := by
  induction finished generalizing acks with
  | nil => cases hentry
  | cons first rest ih =>
      obtain ⟨task, outcome⟩ := first
      cases outcome with
      | error error => cases hok
      | ok ack =>
          rw [sumDone] at hok
          obtain ⟨others, hrest⟩ : ∃ others, sumDone rest = .ok others := by
            cases hrest : sumDone rest with
            | error error =>
                rw [hrest] at hok
                cases hok
            | ok others => exact ⟨others, rfl⟩
          rcases List.mem_cons.mp hentry with rfl | htail
          · exact ⟨ack, rfl⟩
          · exact ih hrest htail

/-- The test of the loop condition changes neither what is pending nor the acks. -/
theorem pending_check {ackRequired : Int} {state : Replicate} :
    (check ackRequired state).pending = state.pending := by
  unfold check
  split
  · rfl
  · rfl

theorem acked_check {ackRequired : Int} {state : Replicate} :
    (check ackRequired state).acked = state.acked := by
  unfold check
  split
  · rfl
  · rfl

/-- A loop that has just ended at the test returns its acks, and ended for a reason. -/
theorem exit_check {ackRequired : Int} {state : Replicate} (hrunning : state.exit = none)
    {acked : Nat} (hexit : (check ackRequired state).exit = some (.ok acked)) :
    acked = state.acked ∧ (state.pending = [] ∨ ackRequired ≤ acked) := by
  unfold check at hexit
  split at hexit
  · next hends =>
      obtain rfl : state.acked = acked := Except.ok.inj (Option.some.inj hexit)
      exact ⟨rfl, hends.imp_left List.isEmpty_iff.mp⟩
  · rw [hrunning] at hexit
    cases hexit

/-- The ack count is that of different started tasks that each returned `True`, and
a loop that has ended well returned it. -/
structure Sound (started : List Nat) (acknowledged : Nat → Prop) (state : Replicate) : Prop where
  counted : ∃ counted : List Nat, Accounted started state.pending counted ∧
    state.acked = counted.length ∧ ∀ entry ∈ counted, acknowledged entry
  returns_acked : ∀ acked, state.exit = some (.ok acked) → acked = state.acked

theorem Sound.mono {started : List Nat} {acknowledged acknowledged' : Nat → Prop}
    {state : Replicate} (hsound : state.Sound started acknowledged)
    (hmono : ∀ entry, acknowledged entry → acknowledged' entry) :
    state.Sound started acknowledged' where
  counted := by
    obtain ⟨counted, haccount, hacked, hvalues⟩ := hsound.counted
    exact ⟨counted, haccount, hacked, fun entry hentry => hmono _ (hvalues entry hentry)⟩
  returns_acked := hsound.returns_acked

theorem Sound.leave {started : List Nat} {acknowledged : Nat → Prop} {state : Replicate}
    (hsound : state.Sound started acknowledged) : state.leave.Sound started acknowledged where
  counted := hsound.counted
  returns_acked _ hexit := (Except.ok.inj (Option.some.inj hexit)).symm

theorem Sound.fail {started : List Nat} {acknowledged : Nat → Prop} {state : Replicate}
    (hsound : state.Sound started acknowledged) (error : PyError) :
    (state.fail error).Sound started acknowledged where
  counted := hsound.counted
  returns_acked acked hexit := by cases hexit

theorem Sound.check {started : List Nat} {acknowledged : Nat → Prop} {state : Replicate}
    (ackRequired : Int) (hsound : state.Sound started acknowledged) :
    (state.check ackRequired).Sound started acknowledged := by
  unfold Replicate.check
  split
  · exact hsound.leave
  · exact hsound

theorem Sound.start {started : List Nat} (acknowledged : Nat → Prop) (ackRequired : Int)
    (hnodup : started.Nodup) :
    (Replicate.start started ackRequired).Sound started acknowledged := by
  apply Sound.check
  refine ⟨⟨[], Accounted.start hnodup, rfl, by simp⟩, ?_⟩
  intro acked hexit
  cases hexit

theorem Sound.wake {started : List Nat} {acknowledged : Nat → Prop} {state : Replicate}
    {event : Wake Nat (Except PyError Bool)} (ackRequired : Int)
    (hsound : state.Sound started acknowledged) (hrunning : state.exit = none)
    (hallowed : event.Allowed state.pending)
    (hacknowledged : ∀ finished, event = .done finished → ∀ entry,
      (entry, .ok true) ∈ finished → acknowledged entry) :
    (state.wake ackRequired event).Sound started acknowledged := by
  cases event with
  | timeout => exact hsound.leave
  | cancelled => exact hsound.fail .cancelledError
  | done finished =>
      obtain ⟨counted, haccount, hacked, hvalues⟩ := hsound.counted
      obtain ⟨_, hnodup, hpending⟩ := hallowed
      have htasks : ∀ task ∈ finished.map Prod.fst, task ∈ state.pending := by
        intro task htask
        obtain ⟨entry, hentry, rfl⟩ := List.mem_map.mp htask
        exact hpending entry hentry
      simp only [Replicate.wake]
      cases hsum : sumDone finished with
      | error error =>
          -- an exception ends the coroutine; the acks counted before stay accounted for
          apply Sound.fail
          refine ⟨⟨counted, ?_, hacked, hvalues⟩, hsound.returns_acked⟩
          simpa using haccount.wake hnodup htasks (List.nil_sublist _)
      | ok acks =>
          apply Sound.check
          refine ⟨⟨counted ++ ackedTasks finished, ?_, ?_, ?_⟩, ?_⟩
          · exact haccount.wake hnodup htasks (List.filter_sublist.map Prod.fst)
          · rw [List.length_append, ← hacked, sumDone_eq_ok hsum]
          · intro entry hentry
            rcases List.mem_append.mp hentry with hold | hnew
            · exact hvalues entry hold
            · obtain ⟨source, hsource, rfl⟩ := List.mem_map.mp hnew
              obtain ⟨hmem, hack⟩ := List.mem_filter.mp hsource
              obtain ⟨task, outcome⟩ := source
              rcases outcome with error | _ | _
              · simp at hack
              · simp at hack
              · exact hacknowledged finished rfl task hmem
          · intro acked hexit
            simp [hrunning] at hexit

end Replicate

/-- Where a `_send` task stands. -/
inductive SendStage where
  | created
  /-- The client was open; the task waits for a permit. -/
  | queued
  /-- The task holds a permit and its POST is under way. -/
  | posting
  | finished (result : Except PyError Bool)
deriving DecidableEq

/-- One `_send` task: whether its POST was issued, and the follower's last answer. -/
structure Send where
  stage : SendStage
  issued : Bool
  answer : Option ReplicateResponse

namespace Send

/-- The first step of the task: on a closed client the send fails, else it queues
for a permit. -/
def begin (closed : Bool) (send : Send) : Option Send :=
  if send.stage = .created then
    some { send with stage := if closed then .finished (.ok false) else .queued }
  else
    none

/-- A permit is granted and the POST issued; on a closed client it raises, and the
permit is released on the way out. -/
def post (closed : Bool) (send : Send) : Option Send :=
  if send.stage = .queued then
    -- `httpx` refuses a request on a closed client, and no clause catches that
    if closed then some { send with stage := .finished (.error .runtimeError) }
    else some { send with stage := .posting, issued := true }
  else
    none

/-- The follower has handled the POST, possibly once more. -/
def handled (response : ReplicateResponse) (send : Send) : Option Send :=
  if send.issued then some { send with answer := some response } else none

/-- The POST ends with an exception of the client library or with the follower's
answer. -/
def finish (failure : Option PyError) (send : Send) : Option Send :=
  if send.stage = .posting then
    match failure with
    | some error => some { send with stage := .finished (sendOutcome (.error error)) }
    | none => send.answer.map fun response =>
        { send with stage := .finished (sendOutcome (replyOf (.ok response))) }
  else
    none

/-- The task is cancelled before it posts. -/
def cancel (send : Send) : Option Send :=
  if send.stage = .created ∨ send.stage = .queued then
    some { send with stage := .finished (.error .cancelledError) }
  else
    none

/-- What every move of a send but the follower's answer respects: the answer stays,
an ack stays, and a new ack had an answer. -/
structure Moves (send next : Send) : Prop where
  answer_eq : next.answer = send.answer
  ack_stays : send.stage = .finished (.ok true) → next.stage = .finished (.ok true)
  ack_answered : next.stage = .finished (.ok true) →
    send.stage = .finished (.ok true) ∨ ∃ response, send.answer = some response

variable {send next : Send}

theorem moves_begin {closed : Bool} (hnext : send.begin closed = some next) :
    send.Moves next := by
  unfold begin at hnext
  split at hnext
  · next hstage =>
    obtain rfl := Option.some.inj hnext
    refine ⟨rfl, fun hack => by simp [hstage] at hack, fun hack => ?_⟩
    cases closed <;> simp at hack
  · cases hnext

theorem moves_post {closed : Bool} (hnext : send.post closed = some next) : send.Moves next := by
  unfold post at hnext
  split at hnext
  · next hstage =>
    split at hnext
    · obtain rfl := Option.some.inj hnext
      exact ⟨rfl, fun hack => by simp [hstage] at hack, fun hack => by simp at hack⟩
    · obtain rfl := Option.some.inj hnext
      exact ⟨rfl, fun hack => by simp [hstage] at hack, fun hack => by simp at hack⟩
  · cases hnext

theorem moves_cancel (hnext : send.cancel = some next) : send.Moves next := by
  unfold cancel at hnext
  split at hnext
  · next hstage =>
    obtain rfl := Option.some.inj hnext
    refine ⟨rfl, fun hack => ?_, fun hack => by simp at hack⟩
    rcases hstage with hcreated | hqueued
    · simp [hcreated] at hack
    · simp [hqueued] at hack
  · cases hnext

/-- A failed POST is not an ack. -/
theorem sendOutcome_error (error : PyError) : sendOutcome (.error error) ≠ .ok true := by
  cases error <;> simp [sendOutcome]

theorem moves_finish {failure : Option PyError} (hnext : send.finish failure = some next) :
    send.Moves next := by
  unfold finish at hnext
  split at hnext
  · next hstage =>
    cases failure with
    | some error =>
        obtain rfl := Option.some.inj hnext
        refine ⟨rfl, fun hack => by simp [hstage] at hack, fun hack => ?_⟩
        exact absurd (SendStage.finished.inj hack) (sendOutcome_error error)
    | none =>
        obtain ⟨response, hanswer, rfl⟩ := Option.map_eq_some_iff.mp hnext
        exact ⟨rfl, fun hack => by simp [hstage] at hack, fun _ => Or.inr ⟨response, hanswer⟩⟩
  · cases hnext

theorem handled_eq_some {response : ReplicateResponse} :
    send.handled response = some next ↔
      send.issued = true ∧ next = { send with answer := some response } := by
  unfold handled
  split
  · next hissued => simp [hissued, eq_comm]
  · next hissued => simp [hissued]

end Send

/-- The sends of one write, and the loop that counts their acks. -/
structure Replication where
  entries : List Nat
  sends : Nat → Send
  loop : Replicate

namespace Replication

def start (entries : List Nat) (ackRequired : Int) : Replication :=
  ⟨entries, fun _ => ⟨.created, false, none⟩, Replicate.start entries ackRequired⟩

def setSend (replication : Replication) (entry : Nat) (send : Send) : Replication :=
  { replication with sends := Function.update replication.sends entry send }

/-- The result of a send that has finished. -/
def result (replication : Replication) (entry : Nat) : Option (Except PyError Bool) :=
  match (replication.sends entry).stage with
  | .finished result => some result
  | _ => none

/-- The loop takes up a wake-up. -/
def wake (ackRequired : Int) (replication : Replication) (signal : Signal Nat) :
    Option Replication := do
  let event ← signal.event replication.result
  let loop ← replication.loop.step ackRequired event
  return { replication with loop := loop }

theorem result_eq_some {replication : Replication} {entry : Nat} {outcome : Except PyError Bool} :
    replication.result entry = some outcome ↔
      (replication.sends entry).stage = .finished outcome := by
  unfold result
  cases (replication.sends entry).stage <;> simp

/-- Answers and acks come from followers that `seen` holds of, and the loop counts
acks of different sends. -/
structure Sound (seen : Nat → Prop) (replication : Replication) : Prop where
  answered : ∀ entry response, (replication.sends entry).answer = some response → seen entry
  acknowledged : ∀ entry, (replication.sends entry).stage = .finished (.ok true) → seen entry
  counted : replication.loop.Sound replication.entries
    fun entry => (replication.sends entry).stage = .finished (.ok true)

theorem Sound.start (seen : Nat → Prop) {entries : List Nat} (hnodup : entries.Nodup)
    (ackRequired : Int) : (Replication.start entries ackRequired).Sound seen where
  answered entry response hanswer := by cases hanswer
  acknowledged entry hstage := by cases hstage
  counted := Replicate.Sound.start _ ackRequired hnodup

theorem Sound.mono {seen seen' : Nat → Prop} {replication : Replication}
    (hsound : replication.Sound seen) (hmono : ∀ entry, seen entry → seen' entry) :
    replication.Sound seen' where
  answered entry response hanswer := hmono entry (hsound.answered entry response hanswer)
  acknowledged entry hstage := hmono entry (hsound.acknowledged entry hstage)
  counted := hsound.counted

/-- One send changes: what it has answered or acked has been seen, and an ack stays. -/
theorem Sound.setSend {seen : Nat → Prop} {replication : Replication}
    (hsound : replication.Sound seen) {entry : Nat} {send : Send}
    (hanswer : ∀ response, send.answer = some response → seen entry)
    (hack : send.stage = .finished (.ok true) → seen entry)
    (hkeep : (replication.sends entry).stage = .finished (.ok true) →
      send.stage = .finished (.ok true)) : (replication.setSend entry send).Sound seen := by
  refine ⟨?_, ?_, hsound.counted.mono ?_⟩
  · intro other response hother
    by_cases heq : other = entry
    · subst heq
      exact hanswer response (by simpa [Replication.setSend] using hother)
    · exact hsound.answered other response (by simpa [Replication.setSend, heq] using hother)
  · intro other hother
    by_cases heq : other = entry
    · subst heq
      exact hack (by simpa [Replication.setSend] using hother)
    · exact hsound.acknowledged other (by simpa [Replication.setSend, heq] using hother)
  · intro other hother
    by_cases heq : other = entry
    · subst heq
      simpa [Replication.setSend] using hkeep hother
    · simpa [Replication.setSend, heq] using hother

/-- A send moves on by itself. -/
theorem Sound.moves {seen : Nat → Prop} {replication : Replication}
    (hsound : replication.Sound seen) {entry : Nat} {send : Send}
    (hmoves : (replication.sends entry).Moves send) :
    (replication.setSend entry send).Sound seen := by
  apply hsound.setSend
  · intro response hanswer
    exact hsound.answered entry response (hmoves.answer_eq ▸ hanswer)
  · intro hack
    rcases hmoves.ack_answered hack with hold | ⟨response, hanswer⟩
    · exact hsound.acknowledged entry hold
    · exact hsound.answered entry response hanswer
  · exact hmoves.ack_stays

/-- A follower handles the POST of a send. -/
theorem Sound.handled {seen : Nat → Prop} {replication : Replication}
    (hsound : replication.Sound seen) {entry : Nat} (hseen : seen entry)
    {response : ReplicateResponse} {send : Send}
    (hnext : (replication.sends entry).handled response = some send) :
    (replication.setSend entry send).Sound seen := by
  obtain ⟨_, rfl⟩ := Send.handled_eq_some.mp hnext
  exact hsound.setSend (fun _ _ => hseen) (fun _ => hseen) (fun hack => hack)

theorem wake_eq_some {ackRequired : Int} {replication next : Replication} {signal : Signal Nat} :
    replication.wake ackRequired signal = some next ↔
      ∃ event, signal.event replication.result = some event ∧
        ∃ loop, replication.loop.step ackRequired event = some loop ∧
          { replication with loop := loop } = next := by
  simp [wake, Option.bind_eq_some_iff]

theorem Sound.wake {seen : Nat → Prop} {replication next : Replication}
    (hsound : replication.Sound seen) {ackRequired : Int} {signal : Signal Nat}
    (hnext : replication.wake ackRequired signal = some next) : next.Sound seen := by
  obtain ⟨event, hevent, loop, hloop, rfl⟩ := wake_eq_some.mp hnext
  obtain ⟨hrunning, hallowed, rfl⟩ := Replicate.step_eq_some.mp hloop
  refine ⟨hsound.answered, hsound.acknowledged, ?_⟩
  apply hsound.counted.wake ackRequired hrunning hallowed
  rintro finished rfl entry hmem
  exact result_eq_some.mp (Signal.event_done hevent _ hmem)

/-- The count a loop has returned is that of different sends, each to a follower
that has handled it. -/
theorem Sound.returned {seen : Nat → Prop} {replication : Replication}
    (hsound : replication.Sound seen) {acked : Nat}
    (hexit : replication.loop.exit = some (.ok acked)) :
    ∃ counted : List Nat, counted.Nodup ∧ counted ⊆ replication.entries ∧
      acked = counted.length ∧ ∀ entry ∈ counted, seen entry := by
  obtain ⟨counted, haccount, hacked, hvalues⟩ := hsound.counted.counted
  refine ⟨counted, haccount.counted_nodup, haccount.counted_started, ?_, ?_⟩
  · rw [hsound.counted.returns_acked acked hexit, hacked]
  · exact fun entry hentry => hsound.acknowledged entry (hvalues entry hentry)

end Replication

end KvReplication.LeaderFollower
