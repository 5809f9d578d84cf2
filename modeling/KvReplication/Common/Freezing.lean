import KvReplication.Common.History

/-! # Keys that take no more writes

The wire lets any float through as a timestamp. Two of them end the life of a key:
nothing is newer than a NaN that came to an empty key, and no clock reading is
newer than an infinity.
-/

namespace KvReplication

open LastWriterWins

namespace PyFloat

/-- Every reading of a clock that runs on is at some point above the timestamp. -/
theorem exists_bound_iff (time : PyFloat) :
    (∃ bound : ℚ, ∀ reading : ℚ, bound < reading → (finite reading).gt time = true) ↔
      time ≠ nan ∧ time ≠ posInf := by
  cases time with
  | nan => simp [gt, not_forall, exists_gt]
  | negInf => simp [gt]
  | finite value => exact iff_of_true ⟨value, by simp [gt]⟩ ⟨by simp, by simp⟩
  | posInf => simp [gt, not_forall, exists_gt]

end PyFloat

section Registers

variable {V : Type}

open VersionedValue

/-- Nothing replaces a version stamped NaN. -/
theorem offerAll_of_nan {current : VersionedValue V} (hnan : current.timestamp = .nan)
    (rest : List (VersionedValue V)) :
    offerAll Newer (some current) rest = some current := by
  induction rest with
  | nil => rfl
  | cons candidate rest ih =>
      have hnot : ¬ candidate.Newer current := by
        intro hnewer
        rcases newer_iff.mp hnewer with hgt | ⟨heq, hne, -⟩
        · exact (PyFloat.not_nan_of_gt hgt).2 hnan
        · exact hne (heq.trans hnan)
      rw [offerAll_cons, offer, if_neg hnot, ih]

/-- A register that holds something else never comes to hold a NaN, and holds an infinity
exactly when it was offered one. -/
theorem offerAll_of_not_nan {current : VersionedValue V} (hcurrent : current.timestamp ≠ .nan)
    (rest : List (VersionedValue V)) :
    ∃ final, offerAll Newer (some current) rest = some final ∧ final.timestamp ≠ .nan ∧
      (final.timestamp = .posInf ↔
        ∃ version ∈ current :: rest, version.timestamp = .posInf) := by
  induction rest generalizing current with
  | nil => exact ⟨current, rfl, hcurrent, by simp⟩
  | cons candidate rest ih =>
      by_cases hnewer : candidate.Newer current
      · -- what replaces a version is not NaN, and only an infinity replaces an infinity
        have hcandidate : candidate.timestamp ≠ .nan ∧
            (current.timestamp = .posInf → candidate.timestamp = .posInf) := by
          rcases newer_iff.mp hnewer with hgt | ⟨heq, hne, -⟩
          · refine ⟨(PyFloat.not_nan_of_gt hgt).1, fun hinf => ?_⟩
            rw [hinf] at hgt
            cases htime : candidate.timestamp <;> simp [htime, PyFloat.gt] at hgt
          · exact ⟨hne, fun hinf => heq.trans hinf⟩
        obtain ⟨final, hfinal, hnan, hinf⟩ := ih hcandidate.1
        refine ⟨final, ?_, hnan, hinf.trans ?_⟩
        · rw [offerAll_cons, offer, if_pos hnewer, hfinal]
        · simp only [List.mem_cons, exists_eq_or_imp]
          exact ⟨Or.inr, fun hany => hany.elim (fun hold => Or.inl (hcandidate.2 hold)) id⟩
      · -- an infinity is turned away by an infinity only
        have hrejected : candidate.timestamp = .posInf → current.timestamp = .posInf := by
          intro hinf
          by_contra hother
          refine hnewer (newer_iff.mpr (Or.inl ?_))
          rw [hinf]
          cases htime : current.timestamp with
          | nan => exact absurd htime hcurrent
          | negInf => rfl
          | finite value => rfl
          | posInf => exact absurd htime hother
        obtain ⟨final, hfinal, hnan, hinf⟩ := ih hcurrent
        refine ⟨final, ?_, hnan, hinf.trans ?_⟩
        · rw [offerAll_cons, offer, if_neg hnewer, hfinal]
        · simp only [List.mem_cons, exists_eq_or_imp]
          refine ⟨fun hany => hany.imp_right Or.inr, fun hany => ?_⟩
          rcases hany with hold | hnew | hlater
          · exact Or.inl hold
          · exact Or.inl (hrejected hnew)
          · exact Or.inr hlater

/-- The writes to a key leave it open to later clock readings: the first is not stamped
NaN and none is stamped with the positive infinity. -/
def LeavesOpen (puts : List (VersionedValue V)) : Prop :=
  (∀ first, puts.head? = some first → first.timestamp ≠ .nan) ∧
    ∀ version ∈ puts, version.timestamp ≠ .posInf

theorem leavesOpen_iff (puts : List (VersionedValue V)) :
    (∀ current, offerAll Newer none puts = some current →
      current.timestamp ≠ .nan ∧ current.timestamp ≠ .posInf) ↔ LeavesOpen puts := by
  cases puts with
  | nil => simp [LeavesOpen]
  | cons first rest =>
      have hfirst : offer Newer none first = some first := rfl
      rw [offerAll_cons, hfirst]
      by_cases hnan : first.timestamp = .nan
      · rw [offerAll_of_nan hnan]
        simp [LeavesOpen, hnan]
      · obtain ⟨final, hfinal, hfinalNan, hinf⟩ := offerAll_of_not_nan hnan rest
        rw [hfinal]
        simp only [Option.some.injEq, forall_eq', LeavesOpen, List.head?_cons]
        rw [ne_eq (a := final.timestamp) (b := .posInf), hinf]
        constructor
        · rintro ⟨-, hnone⟩
          exact ⟨hnan, fun version hversion htime => hnone ⟨version, hversion, htime⟩⟩
        · rintro ⟨-, hnone⟩
          refine ⟨hfinalNan, ?_⟩
          rintro ⟨version, hversion, htime⟩
          exact hnone version hversion htime

end Registers

/-- A write to `key` with any finite timestamp above some bound is applied. -/
def KVStore.AcceptsLater {V : Type} (store : KVStore V) (key : String) : Prop :=
  ∃ bound : ℚ, ∀ (value : V) (timestamp : ℚ) (nodeId : String), bound < timestamp →
    (store.put key value (.finite timestamp) nodeId).2 = true

/-- A key accepts later writes unless it holds a NaN or the positive infinity. -/
theorem KVStore.acceptsLater_iff {V : Type} (store : KVStore V) (key : String) :
    store.AcceptsLater key ↔ ∀ current, store.get key = some current →
      current.timestamp ≠ .nan ∧ current.timestamp ≠ .posInf := by
  have hput : ∀ (value : V) (timestamp : ℚ) (nodeId : String),
      (store.put key value (.finite timestamp) nodeId).2 = true ↔
        ∀ current, store.get key = some current →
          (⟨value, .finite timestamp, nodeId⟩ : VersionedValue V).Newer current :=
    fun value timestamp nodeId => put_applied_iff store key ⟨value, .finite timestamp, nodeId⟩
  unfold AcceptsLater
  simp only [hput]
  cases store.get key with
  | none => simp
  | some current =>
      simp only [Option.some.injEq, forall_eq']
      rw [← PyFloat.exists_bound_iff]
      constructor
      · rintro ⟨bound, hnewer⟩
        -- under the node id of the held version only the timestamp decides
        refine ⟨bound, fun reading hreading => ?_⟩
        have hwins := VersionedValue.newer_iff.mp
          (hnewer current.value reading current.nodeId hreading)
        exact hwins.resolve_right fun htie => lt_irrefl _ htie.2.2
      · rintro ⟨bound, hgt⟩
        exact ⟨bound, fun value timestamp nodeId hbound =>
          VersionedValue.newer_iff.mpr (Or.inl (hgt timestamp hbound))⟩

namespace Server

variable {V : Type}

/-- A request that changes the store of a node. A client's write is stamped by the node's
own clock, which reads a finite number. -/
inductive Request (V : Type) where
  | putKey (key : String) (body : PutRequest V) (now : ℚ)
  | deleteKey (key : String)
  | replicate (body : ReplicateRequest V)

def handle (nodeId : String) (storage : KVStore V) : Request V → KVStore V
  | .putKey key body now => (putKey storage key (stamp nodeId body (.finite now))).1
  | .deleteKey key => (deleteKey storage key).1
  | .replicate body => (replicate storage body).1

/-- The store after the requests, one handled after the other. -/
def handleAll (nodeId : String) (storage : KVStore V) (requests : List (Request V)) :
    KVStore V :=
  requests.foldl (handle nodeId) storage

/-- The call a request makes on the store. -/
def Request.call (nodeId : String) : Request V → StoreCall (VersionedValue V)
  | .putKey key body now => .put key (stamp nodeId body (.finite now))
  | .deleteKey key => .delete key
  | .replicate body => .put body.key body.version

theorem handle_eq_call (nodeId : String) (storage : KVStore V) (request : Request V) :
    handle nodeId storage request = (storage.call (request.call nodeId)).1 := by
  cases request <;> rfl

theorem handleAll_eq_after (nodeId : String) (storage : KVStore V)
    (requests : List (Request V)) :
    handleAll nodeId storage requests = storage.after (requests.map (Request.call nodeId)) := by
  induction requests generalizing storage with
  | nil => rfl
  | cons request rest ih =>
      change handleAll nodeId (handle nodeId storage request) rest = _
      rw [ih, handle_eq_call]
      rfl

/-- After any requests a key accepts later writes exactly when the writes to it since its
last removal leave it open. -/
theorem acceptsLater_handleAll_iff (nodeId : String) (requests : List (Request V))
    (key : String) :
    (handleAll nodeId KVStore.init requests).AcceptsLater key ↔
      LeavesOpen (StoreCall.putsSince key (requests.map (Request.call nodeId))) := by
  rw [KVStore.acceptsLater_iff, handleAll_eq_after, KVStore.get_after, leavesOpen_iff]

/-- One replicated entry stamped `1e999` and no clock reaches the key again. -/
theorem infinite_stamp_freezes :
    ¬ (handleAll "leader" KVStore.init
      [.replicate ⟨"key", (), .posInf, "client"⟩]).AcceptsLater "key" := by
  rw [KVStore.acceptsLater_iff]
  intro hopen
  exact (hopen ⟨(), .posInf, "client"⟩ (by decide)).2 rfl

end Server

end KvReplication
