import KvReplication.Leaderless.QuorumUniverse

/-! # Calls in flight

A fan-out is the wait loop together with the calls it waits for. A call may be
handled by its peer any number of times and finish with an answer of that peer
or with an exception, before or after the loop has stopped waiting.
-/

namespace KvReplication.Leaderless

open WaitLoop

/-- One call to a peer: the peer's last answer, and the outcome of the task once
it has finished. -/
structure Call (Answer α : Type) where
  answer : Option Answer
  result : Option (Except PyError (Bool × α))

/-- The calls of one request and the loop that waits for them. -/
structure FanOut (Answer α : Type) where
  contacted : List Node
  calls : Node → Call Answer α
  gather : Gather Node α

namespace FanOut

variable {Answer α : Type}

def start (contacted : List Node) (gather : Gather Node α) : FanOut Answer α :=
  ⟨contacted, fun _ => ⟨none, none⟩, gather⟩

def setCall (fan : FanOut Answer α) (peer : Node) (call : Call Answer α) : FanOut Answer α :=
  { fan with calls := Function.update fan.calls peer call }

/-- The peer handles the request, possibly once more. -/
def deliver (fan : FanOut Answer α) (peer : Node) (answer : Answer) : Option (FanOut Answer α) :=
  if peer ∈ fan.contacted then
    some (fan.setCall peer { fan.calls peer with answer := some answer })
  else
    none

/-- What the client library gives back: an exception, or the peer's answer if it
has answered. -/
def reply (fan : FanOut Answer α) (peer : Node) : Option PyError → Option (Except PyError Answer)
  | some error => some (.error error)
  | none => (fan.calls peer).answer.map .ok

/-- The task of one call finishes; `outcome` is what it makes of the reply. -/
def finish (outcome : Except PyError Answer → Except PyError (Bool × α)) (fan : FanOut Answer α)
    (peer : Node) (failure : Option PyError) : Option (FanOut Answer α) := do
  guard (peer ∈ fan.contacted ∧ (fan.calls peer).result.isNone)
  let reply ← fan.reply peer failure
  return fan.setCall peer { fan.calls peer with result := some (outcome reply) }

/-- The loop takes up a wake-up. -/
def wake (needed : Int) (fan : FanOut Answer α) (signal : Signal Node) :
    Option (FanOut Answer α) := do
  let event ← signal.event fun peer => (fan.calls peer).result
  let gather ← fan.gather.step needed event
  return { fan with gather := gather }

/-- Every answer was seen, every finished success is one of these answers, and the
loop has collected results of different finished calls. -/
structure Sound (outcome : Except PyError Answer → Except PyError (Bool × α))
    (seen : Node → Answer → Prop) (fan : FanOut Answer α) : Prop where
  answered : ∀ peer answer, (fan.calls peer).answer = some answer → seen peer answer
  finished : ∀ peer value, (fan.calls peer).result = some (.ok (true, value)) →
    ∃ answer, seen peer answer ∧ outcome (.ok answer) = .ok (true, value)
  collected : fan.gather.Sound fan.contacted
    fun peer value => (fan.calls peer).result = some (.ok (true, value))

theorem Sound.start {outcome : Except PyError Answer → Except PyError (Bool × α)}
    {seen : Node → Answer → Prop} {contacted : List Node} (hnodup : contacted.Nodup)
    (needed : Int) :
    (FanOut.start contacted (Gather.start contacted needed)).Sound outcome seen where
  answered peer answer hanswer := by simp [FanOut.start] at hanswer
  finished peer value hresult := by simp [FanOut.start] at hresult
  collected := Gather.Sound.start _ needed hnodup

theorem Sound.mono {outcome : Except PyError Answer → Except PyError (Bool × α)}
    {seen seen' : Node → Answer → Prop} {fan : FanOut Answer α}
    (hsound : fan.Sound outcome seen)
    (hmono : ∀ peer answer, seen peer answer → seen' peer answer) : fan.Sound outcome seen' where
  answered peer answer hanswer := hmono _ _ (hsound.answered peer answer hanswer)
  finished peer value hresult := by
    obtain ⟨answer, hseen, houtcome⟩ := hsound.finished peer value hresult
    exact ⟨answer, hmono _ _ hseen, houtcome⟩
  collected := hsound.collected

section Steps

variable {outcome : Except PyError Answer → Except PyError (Bool × α)}
  {seen : Node → Answer → Prop} {fan next : FanOut Answer α}

theorem deliver_eq_some {peer : Node} {answer : Answer} :
    fan.deliver peer answer = some next ↔ peer ∈ fan.contacted ∧
      next = fan.setCall peer { fan.calls peer with answer := some answer } := by
  unfold deliver
  split
  · next hmem => simp [hmem, eq_comm]
  · next hnot => simp [hnot]

theorem finish_eq_some {peer : Node} {failure : Option PyError} :
    fan.finish outcome peer failure = some next ↔
      (peer ∈ fan.contacted ∧ (fan.calls peer).result = none) ∧
        ∃ reply, fan.reply peer failure = some reply ∧
          fan.setCall peer { fan.calls peer with result := some (outcome reply) } = next := by
  simp [finish, Option.bind_eq_some_iff]

theorem wake_eq_some {needed : Int} {signal : Signal Node} :
    fan.wake needed signal = some next ↔
      ∃ event, signal.event (fun peer => (fan.calls peer).result) = some event ∧
      ∃ gather, fan.gather.step needed event = some gather ∧
        { fan with gather := gather } = next := by
  simp [wake, Option.bind_eq_some_iff]

theorem deliver_contacted {peer : Node} {answer : Answer}
    (hnext : fan.deliver peer answer = some next) : next.contacted = fan.contacted := by
  rw [(deliver_eq_some.mp hnext).2]
  rfl

theorem finish_contacted {peer : Node} {failure : Option PyError}
    (hnext : fan.finish outcome peer failure = some next) : next.contacted = fan.contacted := by
  obtain ⟨_, _, _, rfl⟩ := finish_eq_some.mp hnext
  rfl

theorem wake_contacted {needed : Int} {signal : Signal Node}
    (hnext : fan.wake needed signal = some next) : next.contacted = fan.contacted := by
  obtain ⟨_, _, _, _, rfl⟩ := wake_eq_some.mp hnext
  rfl

theorem Sound.deliver {peer : Node} {answer : Answer} (hsound : fan.Sound outcome seen)
    (hseen : seen peer answer) (hnext : fan.deliver peer answer = some next) :
    next.Sound outcome seen := by
  obtain ⟨_, rfl⟩ := deliver_eq_some.mp hnext
  have hresult : ∀ other, ((fan.setCall peer
      { fan.calls peer with answer := some answer }).calls other).result =
        (fan.calls other).result := by
    intro other
    by_cases heq : other = peer
    · subst heq
      simp [setCall]
    · simp [setCall, heq]
  refine ⟨?_, ?_, ?_⟩
  · intro other seenAnswer hanswer
    by_cases heq : other = peer
    · subst heq
      obtain rfl : answer = seenAnswer := by simpa [setCall] using hanswer
      exact hseen
    · exact hsound.answered other seenAnswer (by simpa [setCall, heq] using hanswer)
  · intro other value hfinished
    exact hsound.finished other value (hresult other ▸ hfinished)
  · exact hsound.collected.mono fun other value hfinished => (hresult other).trans hfinished

theorem Sound.finish {peer : Node} {failure : Option PyError} (hsound : fan.Sound outcome seen)
    (hfailed : ∀ error value, outcome (.error error) ≠ .ok (true, value))
    (hnext : fan.finish outcome peer failure = some next) : next.Sound outcome seen := by
  obtain ⟨⟨_, hrunning⟩, reply, hreply, rfl⟩ := finish_eq_some.mp hnext
  refine ⟨?_, ?_, ?_⟩
  · intro other answer hanswer
    by_cases heq : other = peer
    · subst heq
      exact hsound.answered other answer (by simpa [setCall] using hanswer)
    · exact hsound.answered other answer (by simpa [setCall, heq] using hanswer)
  · intro other value hfinished
    by_cases heq : other = peer
    · subst heq
      replace hfinished : outcome reply = .ok (true, value) := by simpa [setCall] using hfinished
      cases failure with
      | some error =>
          -- an exception never counts as a success
          obtain rfl : .error error = reply := by simpa [FanOut.reply] using hreply
          exact absurd hfinished (hfailed error value)
      | none =>
          obtain ⟨answer, hanswer, rfl⟩ := Option.map_eq_some_iff.mp hreply
          exact ⟨answer, hsound.answered other answer hanswer, hfinished⟩
    · exact hsound.finished other value (by simpa [setCall, heq] using hfinished)
  · -- the loop has collected nothing from a task that was still running
    refine hsound.collected.mono fun other value hfinished => ?_
    have hne : other ≠ peer := by
      rintro rfl
      rw [hrunning] at hfinished
      cases hfinished
    simpa [setCall, hne] using hfinished

theorem Sound.wake {needed : Int} {signal : Signal Node} (hsound : fan.Sound outcome seen)
    (hnext : fan.wake needed signal = some next) : next.Sound outcome seen := by
  obtain ⟨event, hevent, gather, hgather, rfl⟩ := wake_eq_some.mp hnext
  obtain ⟨hrunning, hallowed, rfl⟩ := Gather.step_eq_some.mp hgather
  refine ⟨hsound.answered, hsound.finished, ?_⟩
  refine hsound.collected.wake needed hrunning hallowed ?_
  rintro finished rfl task value hmem
  exact Signal.event_done hevent _ hmem

end Steps

/-- What a loop has returned came from different peers, each with an answer that
was seen. -/
theorem Sound.returned {outcome : Except PyError Answer → Except PyError (Bool × α)}
    {seen : Node → Answer → Prop} {fan : FanOut Answer α} (hsound : fan.Sound outcome seen)
    {collected : List α} (hexit : fan.gather.exit = some (.ok collected)) :
    ∃ credited : List (Node × α), (credited.map Prod.fst).Nodup ∧
      credited.map Prod.fst ⊆ fan.contacted ∧ collected = credited.map Prod.snd ∧
      ∀ entry ∈ credited, ∃ answer, seen entry.1 answer ∧
        outcome (.ok answer) = .ok (true, entry.2) := by
  obtain ⟨credited, haccount, hcollected, hvalues⟩ := hsound.collected.credited
  refine ⟨credited, haccount.counted_nodup, haccount.counted_started, ?_, ?_⟩
  · rw [hsound.collected.returns_collected collected hexit, hcollected]
  · exact fun entry hentry => hsound.finished entry.1 entry.2 (hvalues entry hentry)

end FanOut

end KvReplication.Leaderless
