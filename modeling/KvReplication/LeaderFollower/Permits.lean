import KvReplication.LeaderFollower.Writes

/-! # The permits of the shared semaphore

All writes of the leader share one semaphore. Every permit is either free or held by a
send whose POST is under way.
-/

namespace KvReplication.LeaderFollower

open WaitLoop

variable {V : Type}

/-- The send holds a permit. -/
def Send.posting (send : Send) : Bool := send.stage = .posting

/-- The sends of a write whose POST is under way. -/
def Replication.posting (replication : Replication) : Nat :=
  replication.entries.countP fun entry => (replication.sends entry).posting

def PutOp.posting (op : PutOp V) : Nat :=
  match op.progress with
  | none => 0
  | some progress => progress.replication.posting

/-- The POSTs under way, over all writes. -/
def State.posting (state : State V) : Nat := (state.puts.map PutOp.posting).sum

theorem Replication.posting_setSend {replication : Replication}
    (hnodup : replication.entries.Nodup) {entry : Nat} (hentry : entry ∈ replication.entries)
    (send : Send) : (replication.setSend entry send).posting +
        (replication.sends entry).posting.toNat =
      replication.posting + send.posting.toNat := by
  have hchange := Records.countP_change (fun other => (replication.sends other).posting)
    (fun other => ((replication.setSend entry send).sends other).posting) hnodup hentry
    fun other _ hne => by simp [setSend, hne]
  simpa [Replication.posting, setSend] using hchange

/-- Only the start and the end of a POST change whether a send holds a permit. -/
theorem Send.posting_begin {closed : Bool} {send next : Send}
    (hnext : send.begin closed = some next) : send.posting = false ∧ next.posting = false := by
  unfold Send.begin at hnext
  split at hnext
  · next hstage =>
      obtain rfl := Option.some.inj hnext
      cases closed <;> simp [Send.posting, hstage]
  · cases hnext

theorem Send.posting_post {closed : Bool} {send next : Send}
    (hnext : send.post closed = some next) : send.posting = false ∧ next.posting = !closed := by
  unfold Send.post at hnext
  split at hnext
  · next hstage =>
      cases closed with
      | true =>
          obtain rfl := Option.some.inj hnext
          simp [Send.posting, hstage]
      | false =>
          obtain rfl := Option.some.inj hnext
          simp [Send.posting, hstage]
  · cases hnext

theorem Send.posting_handled {response : ReplicateResponse} {send next : Send}
    (hnext : send.handled response = some next) : next.posting = send.posting := by
  obtain ⟨_, rfl⟩ := Send.handled_eq_some.mp hnext
  rfl

theorem Send.posting_finish {failure : Option PyError} {send next : Send}
    (hnext : send.finish failure = some next) : send.posting = true ∧ next.posting = false := by
  unfold Send.finish at hnext
  split at hnext
  · next hstage =>
      cases failure with
      | some error =>
          obtain rfl := Option.some.inj hnext
          simp [Send.posting, hstage]
      | none =>
          obtain ⟨response, _, rfl⟩ := Option.map_eq_some_iff.mp hnext
          simp [Send.posting, hstage]
  · cases hnext

theorem Send.posting_cancel {send next : Send} (hnext : send.cancel = some next) :
    send.posting = false ∧ next.posting = false := by
  unfold Send.cancel at hnext
  split at hnext
  · next hstage =>
      obtain rfl := Option.some.inj hnext
      rcases hstage with hcreated | hqueued
      · simp [Send.posting, hcreated]
      · simp [Send.posting, hqueued]
  · cases hnext

/-- All permits are accounted for, and no write sends twice to one entry. -/
structure State.Conserves (state : State V) : Prop where
  permits : state.permits + state.posting = maxConcurrentReplicateCalls
  entries : ∀ op ∈ state.puts, ∀ progress, op.progress = some progress →
    progress.replication.entries.Nodup

/-- The POSTs under way change with the send that moves. -/
theorem posting_moveSend {state : State V} (hconserves : state.Conserves) {put entry : Nat}
    {move : Send → Option Send} {puts : List (PutOp V)}
    (hputs : Cluster.moveSend state.puts put entry move = some puts) :
    (∃ send next, move send = some next ∧ (puts.map PutOp.posting).sum + send.posting.toNat =
        state.posting + next.posting.toNat) ∧
      ∀ op ∈ puts, ∀ progress, op.progress = some progress →
        progress.replication.entries.Nodup := by
  obtain ⟨op, hop, progress, hprogress, hentry, send, hsend, rfl⟩ :=
    Cluster.moveSend_eq_some.mp hputs
  have hnodup := hconserves.entries op (List.mem_of_getElem? hop) progress hprogress
  constructor
  · refine ⟨_, send, hsend, ?_⟩
    have hsum := Records.sum_map_set PutOp.posting hop
      (op.withReplication progress (progress.replication.setSend entry send))
    have hset := Replication.posting_setSend hnodup hentry send
    have hold : op.posting = progress.replication.posting := by rw [PutOp.posting, hprogress]
    rw [hold] at hsum
    change _ + (progress.replication.sends entry).posting.toNat =
      (state.puts.map PutOp.posting).sum + send.posting.toNat
    change _ = _ + (progress.replication.setSend entry send).posting at hsum
    omega
  · refine Records.forall_mem_set hconserves.entries _ fun later hlater => ?_
    obtain rfl := Option.some.inj hlater
    exact hnodup

variable {cluster : Cluster} {state next : State V}

theorem posting_startPut (op : PutOp V) (localApplied : Bool) :
    (cluster.startPut op localApplied).posting = 0 := by
  change List.countP _ _ = 0
  exact List.countP_eq_zero.mpr fun entry _ => Bool.false_ne_true

/-- A wake-up of the loop moves no send. -/
theorem posting_wake {op : PutOp V} {progress : PutProgress} {replication : Replication}
    (hprogress : op.progress = some progress) {ackRequired : Int} {signal : Signal Nat}
    (hwake : progress.replication.wake ackRequired signal = some replication) :
    (op.withReplication progress replication).posting = op.posting ∧
      replication.entries = progress.replication.entries := by
  obtain ⟨_, _, loop, _, rfl⟩ := Replication.wake_eq_some.mp hwake
  refine ⟨?_, rfl⟩
  rw [PutOp.posting, PutOp.posting, hprogress]
  rfl

/-- One write is replaced by a later record of it that starts no POST. -/
theorem State.Conserves.set (hconserves : state.Conserves) {put : Nat} {old changed : PutOp V}
    (hold : state.puts[put]? = some old) (hposting : changed.posting = old.posting)
    (hentries : ∀ progress, changed.progress = some progress →
      progress.replication.entries.Nodup) {stores : Site → KVStore V} :
    { state with
      stores := stores
      puts := state.puts.set put changed }.Conserves where
  permits := by
    have hsum := Records.sum_map_set PutOp.posting hold changed
    have hpermits := hconserves.permits
    simp only [State.posting] at hpermits ⊢
    omega
  entries := Records.forall_mem_set hconserves.entries put hentries

/-- One send moves, and the free permits change against what it holds. -/
theorem State.Conserves.moveSend (hconserves : state.Conserves) {put entry permits : Nat}
    {move : Send → Option Send} {puts : List (PutOp V)}
    (hputs : Cluster.moveSend state.puts put entry move = some puts)
    (hbalance : ∀ send next, move send = some next →
      permits + next.posting.toNat = state.permits + send.posting.toNat)
    {stores : Site → KVStore V} :
    { state with
      stores := stores
      puts := puts
      permits := permits }.Conserves := by
  obtain ⟨⟨send, moved, hmove, hsum⟩, hentries⟩ := posting_moveSend hconserves hputs
  refine ⟨?_, hentries⟩
  have hmoved := hbalance send moved hmove
  have hpermits := hconserves.permits
  change permits + (puts.map PutOp.posting).sum = _
  omega

theorem State.Conserves.step (hconserves : state.Conserves) {action : Action V}
    (hnext : cluster.step state action = some next) : next.Conserves := by
  have hpermits := hconserves.permits
  cases cluster.effect_of_step hnext with
  | stamp hsite =>
      refine ⟨?_, Records.forall_mem_concat hconserves.entries fun progress hprogress => ?_⟩
      · simpa [State.posting, PutOp.posting] using hpermits
      · cases hprogress
  | @localPut put op localApplied hop hprogress happlied =>
      refine hconserves.set hop ?_ ?_
      · rw [posting_startPut, PutOp.posting, hprogress]
      · intro progress hstarted
        obtain rfl := Option.some.inj hstarted
        exact entries_nodup cluster op.site
  | beginSend hputs =>
      refine hconserves.moveSend hputs fun send moved hmove => ?_
      obtain ⟨hbefore, hafter⟩ := Send.posting_begin hmove
      rw [hbefore, hafter]
  | acquire hfree hputs =>
      refine hconserves.moveSend hputs fun send moved hmove => ?_
      obtain ⟨hbefore, hafter⟩ := Send.posting_post hmove
      rw [hbefore, hafter]
      cases state.closed with
      | true => rfl
      | false => exact Nat.sub_add_cancel hfree
  | handleReplicate hop hfollower hresponse hputs =>
      refine hconserves.moveSend hputs fun send moved hmove => ?_
      rw [Send.posting_handled hmove]
  | finishSend hputs =>
      refine hconserves.moveSend hputs fun send moved hmove => ?_
      -- the send gives its permit back
      obtain ⟨hbefore, hafter⟩ := Send.posting_finish hmove
      rw [hbefore, hafter]
      rfl
  | cancelSend hputs =>
      refine hconserves.moveSend hputs fun send moved hmove => ?_
      obtain ⟨hbefore, hafter⟩ := Send.posting_cancel hmove
      rw [hbefore, hafter]
  | @wake put signal op progress replication hop hprogress hwake =>
      obtain ⟨hposting, hsame⟩ := posting_wake hprogress hwake
      refine hconserves.set hop hposting fun later hlater => ?_
      obtain rfl := Option.some.inj hlater
      exact hsame ▸ hconserves.entries op (List.mem_of_getElem? hop) progress hprogress
  | shutdown => exact ⟨hpermits, hconserves.entries⟩
  | delete hsite => exact ⟨hpermits, hconserves.entries⟩

theorem State.Conserves.init : (Cluster.init : State V).Conserves where
  permits := rfl
  entries op hop := by cases hop

/-- In every reachable state the free permits and the POSTs under way, over all writes,
are as many as there are permits. -/
theorem State.Conserves.run {actions : List (Action V)}
    (hrun : Runs.run cluster.step Cluster.init actions = some next) : next.Conserves :=
  Runs.run_invariant State.Conserves
    (fun _ _ _ _ hconserves hnext => hconserves.step hnext)
    (fun _ _ => trivial : ∀ action ∈ actions, True) State.Conserves.init hrun

end KvReplication.LeaderFollower
