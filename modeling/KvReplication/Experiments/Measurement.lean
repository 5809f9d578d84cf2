import KvReplication.Experiments.Harness
import KvReplication.Foundation.Records

/-! # What the staleness measurement counts

A test keeps one entry for each key and compares every read with it. An observer that keeps
all recorded writes, and judges a read by those that were there at its snapshot, counts
the same reads.
-/

namespace KvReplication.Experiments

open LastWriterWins

variable {V : Type}

/-- A write and its end. -/
structure Write where
  key : String
  value : Nat
  result : HttpResult PutResponse

/-- What a write brings that is answered 200 with `applied=true`. -/
def Write.entry (write : Write) : Option SourceEntry :=
  match write.result with
  | .ok body => if body.applied then some ⟨write.value, body.timestamp⟩ else none
  | _ => none

/-- A read and its end, and the writes that had been recorded before its snapshot. -/
structure Reading (V : Type) where
  key : String
  seen : List Write
  result : HttpResult (KVResponse V)

namespace Reading

/-- A write to the key had been recorded, and the read is answered 200 or 404. -/
def comparable (reading : Reading V) : Bool :=
  reading.seen.any (·.key = reading.key) && reading.result.comparable

/-- In addition the answer is 404, or its timestamp is below that of a write to the key that
was answered 200 with `applied=true`. -/
def stale (reading : Reading V) : Bool :=
  reading.comparable && match reading.result with
    | .ok body => reading.seen.any fun write =>
        write.key = reading.key && write.entry.any fun entry => entry.timestamp.gt body.timestamp
    | _ => true

end Reading

/-- What the observer has noted, by worker: the write that ended last, what was recorded at the
last snapshot, and the reads that have ended. -/
structure Ledger (V : Type) where
  recorded : List Write
  ended : Nat → Option Write
  seen : Nat → List Write
  reads : Nat → List (Reading V)

namespace Ledger

def init : Ledger V := ⟨[], fun _ => none, fun _ => [], fun _ => []⟩

def see (ledger : Ledger V) : Sighting V → Ledger V
  | .written index key value result =>
      { ledger with ended := Function.update ledger.ended index (some ⟨key, value, result⟩) }
  | .recorded index => { ledger with recorded := ledger.recorded ++ (ledger.ended index).toList }
  | .snapshot index => { ledger with seen := Function.update ledger.seen index ledger.recorded }
  | .read index key result =>
      { ledger with
        reads := Function.update ledger.reads index
          (ledger.reads index ++ [⟨key, ledger.seen index, result⟩]) }

/-- The notes on everything a run has shown. -/
def of (shown : List (Sighting V)) : Ledger V := shown.foldl see init

/-- Each worker's counters are the numbers of its comparable and of its stale reads. -/
def Matches (ledger : Ledger V) (harness : Harness) : Prop :=
  ∀ (index : Nat) view, harness.workers[index]? = some view →
    view.stats.comparableReads = (ledger.reads index).countP Reading.comparable ∧
      view.stats.staleReads = (ledger.reads index).countP Reading.stale

end Ledger

/-! ### The source of truth as a register -/

/-- The comparison of `record`. -/
def SourceEntry.Newer (first second : SourceEntry) : Prop :=
  first.timestamp.gt second.timestamp = true

instance : DecidableRel SourceEntry.Newer := fun first second =>
  inferInstanceAs (Decidable (first.timestamp.gt second.timestamp = true))

instance : IsStrictOrder SourceEntry SourceEntry.Newer where
  irrefl entry := by simp [SourceEntry.Newer, PyFloat.gt_irrefl]
  trans _ _ _ := PyFloat.gt_trans

theorem SourceOfTruth.snapshot_record_self (source : SourceOfTruth) (key : String) (value : Nat)
    (timestamp : PyFloat) :
    (source.record key value timestamp).snapshot key =
      offer SourceEntry.Newer (source.snapshot key) ⟨value, timestamp⟩ := by
  simp only [record, snapshot]
  cases hentry : source.entries key with
  | none => simp [offer]
  | some current =>
      by_cases hnewer : timestamp.gt current.timestamp = true
      · simp [offer, SourceEntry.Newer, hnewer]
      · simp [offer, SourceEntry.Newer, hnewer, hentry]

theorem SourceOfTruth.snapshot_record_of_ne (source : SourceOfTruth) {key other : String}
    (hne : other ≠ key) (value : Nat) (timestamp : PyFloat) :
    (source.record key value timestamp).snapshot other = source.snapshot other := by
  simp only [record, snapshot]
  split
  · simp [hne]
  · split
    · simp [hne]
    · rfl

/-- The writes to a key put into a register one after the other. -/
def newestEntry (key : String) (writes : List Write) : Option SourceEntry :=
  offerAll SourceEntry.Newer none ((writes.filter (·.key = key)).filterMap Write.entry)

theorem newestEntry_concat_self {write : Write} {entry : SourceEntry}
    (hentry : write.entry = some entry) (writes : List Write) :
    newestEntry write.key (writes ++ [write]) =
      offer SourceEntry.Newer (newestEntry write.key writes) entry := by
  simp [newestEntry, hentry, offerAll_concat]

theorem newestEntry_concat_of_ne {write : Write} {key : String} (hne : write.key ≠ key)
    (writes : List Write) : newestEntry key (writes ++ [write]) = newestEntry key writes := by
  simp [newestEntry, hne]

section Newest

variable {key : String} {writes : List Write} {newest : SourceEntry}

theorem mem_of_newestEntry (hnewest : newestEntry key writes = some newest) :
    ∃ write ∈ writes, write.key = key ∧ write.entry = some newest := by
  rcases offerAll_mem hnewest with hmem | hnone
  · obtain ⟨write, hwrite, hentry⟩ := List.mem_filterMap.mp hmem
    obtain ⟨hwrite, hkey⟩ := List.mem_filter.mp hwrite
    exact ⟨write, hwrite, of_decide_eq_true hkey, hentry⟩
  · cases hnone

/-- Something is below the newest entry exactly when it is below that of some write. -/
theorem newestEntry_gt_iff
    (hnan : ∀ write ∈ writes, ∀ entry, write.entry = some entry → entry.timestamp ≠ .nan)
    (hnewest : newestEntry key writes = some newest) (time : PyFloat) :
    newest.timestamp.gt time = true ↔ ∃ write ∈ writes, write.key = key ∧
      ∃ entry, write.entry = some entry ∧ entry.timestamp.gt time = true := by
  obtain ⟨best, hbest, hbestKey, hbestEntry⟩ := mem_of_newestEntry hnewest
  constructor
  · intro hgt
    exact ⟨best, hbest, hbestKey, newest, hbestEntry, hgt⟩
  · rintro ⟨write, hwrite, hkey, entry, hentry, hgt⟩
    have hmem : entry ∈ (writes.filter (·.key = key)).filterMap Write.entry :=
      List.mem_filterMap.mpr ⟨write, List.mem_filter.mpr ⟨hwrite, by simpa using hkey⟩, hentry⟩
    obtain ⟨current, hcurrent, hnot⟩ := covers_offerAll_of_mem SourceEntry.Newer none hmem
    obtain rfl : newest = current := Option.some.inj (hnewest.symm.trans hcurrent)
    -- timestamps without NaN are ordered, so an entry that is not newer is the newest or older
    rcases PyFloat.gt_or_eq_or_gt (hnan write hwrite entry hentry)
      (hnan best hbest newest hbestEntry) with habove | heq | hbelow
    · exact absurd habove hnot
    · exact heq ▸ hgt
    · exact PyFloat.gt_trans hbelow hgt

end Newest

/-! ### The counts agree -/

theorem comparableReads_finishRead (stats : Stats) (nodeIdField key nodeId : String)
    (expected : SourceEntry) (now : ℚ) (result : HttpResult (KVResponse V)) :
    (finishRead stats nodeIdField key nodeId expected now result).comparableReads =
      stats.comparableReads + if result.comparable then 1 else 0 := by
  cases result with
  | raised error detail => rfl
  | status code =>
      by_cases hmissing : code = 404
      · simp [finishRead, HttpResult.comparable, hmissing, Stats.recordStale]
      · simp [finishRead, HttpResult.comparable, hmissing, Stats.recordFailure]
  | ok body =>
      simp only [finishRead]
      split <;> rfl

theorem counts_finishWrite (stats : Stats) (key nodeId : String) (now : ℚ)
    (result : HttpResult PutResponse) :
    (finishWrite stats key nodeId now result).1.comparableReads = stats.comparableReads ∧
      (finishWrite stats key nodeId now result).1.staleReads = stats.staleReads := by
  cases result <;> exact ⟨rfl, rfl⟩

/-- What the observer knows of a worker in this phase. -/
def Phase.Known (ledger : Ledger V) (index : Nat) : Phase → Prop
  | .recording key value timestamp => timestamp ≠ .nan ∧
      ledger.ended index = some ⟨key, value, .ok ⟨true, timestamp⟩⟩
  | .reading key expected => newestEntry key (ledger.seen index) = some expected
  | _ => True

/-- One worker's counters and phase agree with the notes on it. -/
structure View.Agrees (ledger : Ledger V) (index : Nat) (view : View) : Prop where
  comparable : view.stats.comparableReads = (ledger.reads index).countP Reading.comparable
  stale : view.stats.staleReads = (ledger.reads index).countP Reading.stale
  known : view.phase.Known ledger index

/-- The source of truth holds the newest of the recorded entries, and every worker agrees
with the notes on it. -/
structure Harness.Agrees (ledger : Ledger V) (harness : Harness) : Prop where
  source : ∀ key, harness.source.snapshot key = newestEntry key ledger.recorded
  ordered : ∀ write ∈ ledger.recorded, ∀ entry, write.entry = some entry → entry.timestamp ≠ .nan
  seen : ∀ index, ledger.seen index ⊆ ledger.recorded
  workers : ∀ (index : Nat) view, harness.workers[index]? = some view → view.Agrees ledger index

variable {ledger later : Ledger V} {harness next : Harness} {index : Nat} {before after : View}

/-- The judgement of a read is the comparison with the entry of its snapshot. -/
theorem judgement_of_newestEntry {key : String} {expected : SourceEntry}
    (hnan : ∀ write ∈ ledger.seen index, ∀ entry,
      write.entry = some entry → entry.timestamp ≠ .nan)
    (hknown : newestEntry key (ledger.seen index) = some expected)
    (result : HttpResult (KVResponse V)) :
    Reading.comparable ⟨key, ledger.seen index, result⟩ = result.comparable ∧
      Reading.stale ⟨key, ledger.seen index, result⟩ = result.stale expected := by
  obtain ⟨write, hwrite, hkey, -⟩ := mem_of_newestEntry hknown
  have hcomparable : Reading.comparable ⟨key, ledger.seen index, result⟩ = result.comparable := by
    have hany : (ledger.seen index).any (·.key = key) = true :=
      List.any_eq_true.mpr ⟨write, hwrite, by simpa using hkey⟩
    rw [Reading.comparable, hany, Bool.true_and]
  refine ⟨hcomparable, ?_⟩
  rw [Reading.stale, hcomparable]
  cases result with
  | raised error detail => rfl
  | status code => simp [HttpResult.comparable, HttpResult.stale]
  | ok body =>
      rw [HttpResult.stale, HttpResult.comparable, Bool.true_and, Bool.eq_iff_iff,
        newestEntry_gt_iff hnan hknown]
      simp [Option.any_eq_true]

/-- The worker that moves agrees with the new notes; those on the others have not changed. -/
theorem Harness.Agrees.set (hagrees : harness.Agrees ledger)
    (hsource : ∀ key, next.source.snapshot key = newestEntry key later.recorded)
    (hordered : ∀ write ∈ later.recorded, ∀ entry,
      write.entry = some entry → entry.timestamp ≠ .nan)
    (hseen : ∀ index, later.seen index ⊆ later.recorded)
    (hothers : ∀ other, other ≠ index → later.ended other = ledger.ended other ∧
      later.seen other = ledger.seen other ∧ later.reads other = ledger.reads other)
    (hworkers : next.workers = harness.workers.set index after)
    (hafter : after.Agrees later index) : next.Agrees later where
  source := hsource
  ordered := hordered
  seen := hseen
  workers other view hview := by
    rw [hworkers] at hview
    by_cases heq : index = other
    · subst heq
      rw [List.getElem?_set_self'] at hview
      obtain ⟨_, _, rfl⟩ := Option.map_eq_some_iff.mp hview
      exact hafter
    · rw [List.getElem?_set_ne heq] at hview
      obtain ⟨hended, hseenOther, hreads⟩ := hothers other (Ne.symm heq)
      have hold := hagrees.workers other view hview
      refine ⟨by rw [hreads]; exact hold.comparable, by rw [hreads]; exact hold.stale, ?_⟩
      have hknown := hold.known
      cases hphase : view.phase with
      | recording key value timestamp =>
          simp only [hphase, Phase.Known, hended] at hknown ⊢
          exact hknown
      | reading key expected =>
          simp only [hphase, Phase.Known, hseenOther] at hknown ⊢
          exact hknown
      | _ => trivial

/-- Nothing was shown that the observer notes. -/
theorem Harness.Agrees.silent (hagrees : harness.Agrees ledger)
    (hsource : next.source = harness.source)
    (hworkers : next.workers = harness.workers.set index after)
    (hafter : after.Agrees ledger index) : next.Agrees ledger := by
  refine hagrees.set ?_ hagrees.ordered hagrees.seen (fun _ _ => ⟨rfl, rfl, rfl⟩) hworkers hafter
  rw [hsource]
  exact hagrees.source

/-- The worker's snapshot shows all that is recorded. -/
theorem Harness.Agrees.snapshot (hagrees : harness.Agrees ledger)
    (hsource : next.source = harness.source)
    (hworkers : next.workers = harness.workers.set index after)
    (hafter : after.Agrees (ledger.see (.snapshot index)) index) :
    next.Agrees (ledger.see (.snapshot index)) := by
  refine hagrees.set ?_ hagrees.ordered ?_ ?_ hworkers hafter
  · rw [hsource]
    exact hagrees.source
  · intro other
    by_cases heq : other = index
    · subst heq
      simp [Ledger.see]
    · simpa [Ledger.see, heq] using hagrees.seen other
  · intro other hne
    exact ⟨rfl, Function.update_of_ne hne _ _, rfl⟩

/-- A write is put into the source of truth and onto the observer's list at once. -/
theorem Harness.Agrees.record (hagrees : harness.Agrees ledger) {key : String} {value : Nat}
    {timestamp : PyFloat} (hnan : timestamp ≠ .nan)
    (hended : ledger.ended index = some ⟨key, value, .ok ⟨true, timestamp⟩⟩)
    (hsource : next.source = harness.source.record key value timestamp)
    (hworkers : next.workers = harness.workers.set index after)
    (hafter : after.Agrees (ledger.see (.recorded index)) index) :
    next.Agrees (ledger.see (.recorded index)) := by
  have hentry : Write.entry ⟨key, value, .ok ⟨true, timestamp⟩⟩ = some ⟨value, timestamp⟩ := rfl
  have hrecorded : (ledger.see (.recorded index)).recorded =
      ledger.recorded ++ [⟨key, value, .ok ⟨true, timestamp⟩⟩] := by
    rw [Ledger.see, hended]
    rfl
  refine hagrees.set ?_ ?_ ?_ (fun _ _ => ⟨rfl, rfl, rfl⟩) hworkers hafter
  · intro other
    rw [hsource, hrecorded]
    by_cases hother : other = key
    · subst hother
      rw [SourceOfTruth.snapshot_record_self, newestEntry_concat_self hentry, hagrees.source]
    · rw [SourceOfTruth.snapshot_record_of_ne _ hother,
        newestEntry_concat_of_ne (Ne.symm hother), hagrees.source]
  · rw [hrecorded]
    refine Records.forall_mem_concat hagrees.ordered fun entry hsame => ?_
    obtain rfl := Option.some.inj (hentry.symm.trans hsame)
    exact hnan
  · intro other write hwrite
    exact List.mem_append_left _ (hagrees.seen other hwrite)

/-- A write is noted as confirmed exactly if its worker goes on to record it. -/
theorem known_afterPut {stats changed : Stats} {key nodeId : String} {value : Nat} {now : ℚ}
    {result : HttpResult PutResponse} {timestamp : Option PyFloat}
    (hencodable : result.Encodable)
    (hfinish : finishWrite stats key nodeId now result = (changed, timestamp))
    (hended : later.ended index = some ⟨key, value, result⟩) :
    (Phase.afterPut key value timestamp).Known later index := by
  cases timestamp with
  | none => trivial
  | some timestamp =>
      obtain ⟨body, rfl, happlied, rfl⟩ :=
        (finishWrite_cases stats key nodeId now result).2 timestamp (by rw [hfinish])
      refine ⟨hencodable, ?_⟩
      rw [hended, ← happlied]

theorem Harness.Agrees.step {shown : Option (Sighting V)} (hagrees : harness.Agrees ledger)
    (hstep : harness.Step shown next) : next.Agrees (shown.toList.foldl Ledger.see ledger) := by
  obtain ⟨index, before, after, hbefore, hmove, hworkers⟩ := hstep
  have hworker := hagrees.workers index before hbefore
  have hknown := hworker.known
  generalize hsource : next.source = source at hmove
  cases hmove with
  | takeRead hread =>
      exact hagrees.silent hsource hworkers ⟨hworker.comparable, hworker.stale, trivial⟩
  | takeWrite hwrite =>
      exact hagrees.silent hsource hworkers ⟨hworker.comparable, hworker.stale, trivial⟩
  | prepare => exact hagrees.silent hsource hworkers hworker
  | issue => exact hagrees.silent hsource hworkers ⟨hworker.comparable, hworker.stale, trivial⟩
  | @putEnds chunk stats key value nodeId now result changed timestamp hencodable hfinish =>
      obtain ⟨hcomparable, hstale⟩ := counts_finishWrite stats key nodeId now result
      rw [hfinish] at hcomparable hstale
      refine hagrees.set (by rw [hsource]; exact hagrees.source) hagrees.ordered hagrees.seen ?_
        hworkers ⟨hcomparable.trans hworker.comparable, hstale.trans hworker.stale,
          known_afterPut hencodable hfinish (Function.update_self _ _ _)⟩
      exact fun other hne => ⟨Function.update_of_ne hne _ _, rfl, rfl⟩
  | record =>
      exact hagrees.record hknown.1 hknown.2 hsource hworkers
        ⟨hworker.comparable, hworker.stale, trivial⟩
  | skip hnone =>
      exact hagrees.snapshot hsource hworkers ⟨hworker.comparable, hworker.stale, trivial⟩
  | @expect chunk stats key expected hsome =>
      have hseen : (ledger.see (.snapshot index)).seen index = ledger.recorded :=
        Function.update_self _ _ _
      refine hagrees.snapshot hsource hworkers ⟨hworker.comparable, hworker.stale, ?_⟩
      change newestEntry key ((ledger.see (.snapshot index)).seen index) = some expected
      rw [hseen, ← hagrees.source, hsome]
  | @getEnds chunk stats key expected nodeIdField nodeId now result =>
      have hnan : ∀ write ∈ ledger.seen index, ∀ entry,
          write.entry = some entry → entry.timestamp ≠ .nan :=
        fun write hwrite => hagrees.ordered write (hagrees.seen index hwrite)
      obtain ⟨hcomparable, hstale⟩ := judgement_of_newestEntry hnan hknown result
      have hreads : (ledger.see (.read index key result)).reads index =
          ledger.reads index ++ [⟨key, ledger.seen index, result⟩] := Function.update_self _ _ _
      refine hagrees.set (by rw [hsource]; exact hagrees.source) hagrees.ordered hagrees.seen ?_
        hworkers ⟨?_, ?_, trivial⟩
      · exact fun other hne => ⟨rfl, rfl, Function.update_of_ne hne _ _⟩
      · change _ = List.countP _ ((ledger.see (.read index key result)).reads index)
        rw [hreads, List.countP_append, List.countP_singleton, hcomparable,
          comparableReads_finishRead]
        exact congrArg (· + _) hworker.comparable
      · change _ = List.countP _ ((ledger.see (.read index key result)).reads index)
        rw [hreads, List.countP_append, List.countP_singleton, hstale, staleReads_finishRead]
        exact congrArg (· + _) hworker.stale

theorem Harness.Agrees.start (plan : List RequestPlan) (numWorkers : Nat) :
    (Harness.start plan numWorkers).Agrees (Ledger.init : Ledger V) where
  source key := rfl
  ordered write hwrite := by cases hwrite
  seen index write hwrite := by cases hwrite
  workers index view hview := by
    obtain ⟨chunk, -, rfl⟩ := List.mem_map.mp (List.mem_of_getElem? hview)
    exact ⟨rfl, rfl, trivial⟩

theorem Harness.Agrees.keeps :
    Harness.Keeps fun shown harness => harness.Agrees (Ledger.of shown : Ledger V) := by
  intro shown harness sighting next hagrees hstep
  rw [Ledger.of, List.foldl_append]
  exact hagrees.step hstep

theorem Harness.Agrees.matches (hagrees : harness.Agrees ledger) : ledger.Matches harness :=
  fun index view hview =>
    ⟨(hagrees.workers index view hview).comparable, (hagrees.workers index view hview).stale⟩

/-- After every run of either test each worker has counted as comparable the reads that were
answered 200 or 404 and before whose snapshot a write to the key had been recorded, and as stale
those of them that were answered 404 or below some such write. -/
theorem measurement_exact (V : Type) :
    (∀ (test : StalenessLoadTest) plan numWorkers actions final,
      Runs.run (test.step (V := V)) (StalenessLoadTest.start plan numWorkers) actions =
        some final →
      (Ledger.of (Runs.observations (test.step (V := V)) StalenessLoadTest.sighting
        (StalenessLoadTest.start plan numWorkers) actions)).Matches
          (StalenessLoadTest.harness final)) ∧
    ∀ (test : LeaderlessLoadTest) plan numWorkers actions final,
      Runs.run (test.step (V := V)) (LeaderlessLoadTest.start plan numWorkers) actions =
        some final →
      (Ledger.of (Runs.observations (test.step (V := V)) LeaderlessLoadTest.sighting
        (LeaderlessLoadTest.start plan numWorkers) actions)).Matches
          (LeaderlessLoadTest.harness final) := by
  constructor
  · intro test plan numWorkers actions final hrun
    exact (StalenessLoadTest.harness_run Harness.Agrees.keeps
      (Harness.Agrees.start plan numWorkers) hrun).matches
  · intro test plan numWorkers actions final hrun
    exact (LeaderlessLoadTest.harness_run Harness.Agrees.keeps
      (Harness.Agrees.start plan numWorkers) hrun).matches

/-- A worker writes a key and then finds it missing at the follower: one stale read. -/
theorem missing_key_is_stale :
    ∃ final : TestState, ∃ ledger : Ledger Nat,
      Runs.run (StalenessLoadTest.step (V := Nat) ⟨[⟨"localhost", 8001⟩], fun _ => none, "leader"⟩)
        (StalenessLoadTest.start [⟨false, "k", none⟩, ⟨true, "k", some 0⟩] 1)
        [.worker 0 .next, .worker 0 .nextValue, .putEnds 0 0 (.ok ⟨true, .finite 5⟩),
          .worker 0 .record, .worker 0 .next, .worker 0 .snapshot, .getEnds 0 0 (.status 404)] =
            some final ∧
      ledger.Matches (StalenessLoadTest.harness final) ∧
      (ledger.reads 0).map Reading.stale = [true] := by
  refine ⟨_, _, rfl, (measurement_exact Nat).1
    ⟨[⟨"localhost", 8001⟩], fun _ => none, "leader"⟩
    [⟨false, "k", none⟩, ⟨true, "k", some 0⟩] 1
    [.worker 0 .next, .worker 0 .nextValue, .putEnds 0 0 (.ok ⟨true, .finite 5⟩),
      .worker 0 .record, .worker 0 .next, .worker 0 .snapshot, .getEnds 0 0 (.status 404)]
    _ rfl, ?_⟩
  rfl

end KvReplication.Experiments
