import KvReplication.Leaderless.ReadUrl
import KvReplication.LeaderFollower.Cluster
import KvReplication.LoopsAgree

/-! # What ends in a bare 500

A call to a peer is an `except` clause around each of its steps. An exception that
no clause names leaves the call, and the wait loop re-raises it as long as it waits
for the call; the framework then answers a bare 500. What no clause names is a value
that cannot be dumped or encoded, a URL the client refuses, and a response body
that cannot be decoded.
-/

namespace KvReplication

/-- What the client and the framework do with what they are given. -/
structure Libraries where
  /-- The client takes the URL; it raises `InvalidURL` otherwise. -/
  validUrl : String → Bool
  /-- `json.loads` of the body of a response. -/
  loads : List UInt8 → Except PyError Json
  replicateResponse : Json → Option ReplicateResponse
  kvResponse : Json → Option (KVResponse Json)
  /-- Writing a `KVResponse` out as the body of the answer. -/
  render : KVResponse Json → Except PyError Unit

namespace Libraries

variable (libraries : Libraries)

/-- A replicate call of this value ends as an ack or a failed ack. -/
def Replicable (url : String) (value : Json) (behaviour : PeerBehaviour) : Prop :=
  libraries.validUrl url = true ∧ value.Encodable ∧
    behaviour.Readable libraries.loads (isSuccess · = true)

/-- A read call ends as a response or a failed response. -/
def Readable (url : String) (behaviour : PeerBehaviour) : Prop :=
  libraries.validUrl url = true ∧ behaviour.Readable libraries.loads (· = 200)

/-- One replicate call, as every coroutine makes it. -/
def postReplicate (url : String) (body : ReplicateRequest Json) (behaviour : PeerBehaviour) :
    Reply ReplicateResponse :=
  exchange (buildRequest libraries.validUrl url (some (payloadJson body)))
    (parseBody libraries.loads libraries.replicateResponse) behaviour

/-- One internal read. -/
def getInternal (url : String) (behaviour : PeerBehaviour) : Reply (KVResponse Json) :=
  exchange (buildRequest libraries.validUrl url none)
    (parseBody libraries.loads libraries.kvResponse) behaviour

/-- The framework's answer to a read. -/
def answered : HandlerResult (KVResponse Json) → HandlerResult (KVResponse Json)
  | .ok (.ok response) => (libraries.render response).map fun _ => .ok response
  | result => result

end Libraries

/-- The replicate call of a write: the clock never reads anything but a finite time. -/
def writeOf (key : String) (body : PutRequest Json) (now : ℚ) (nodeId : String) :
    ReplicateRequest Json :=
  ⟨key, body.value, .finite now, nodeId⟩

section Calls

variable {libraries : Libraries}

theorem postReplicate_handled_iff {url key nodeId : String} {body : PutRequest Json} {now : ℚ}
    {behaviour : PeerBehaviour} :
    (libraries.postReplicate url (writeOf key body now nodeId) behaviour).Handled
        (isSuccess · = true) ↔
      libraries.Replicable url body.value behaviour := by
  have hfinite : (PyFloat.finite now).IsFinite := ⟨now, rfl⟩
  simp [Libraries.postReplicate, exchange_handled_iff, encodable_payloadJson, writeOf, hfinite,
    Libraries.Replicable]

theorem getInternal_handled_iff {url : String} {behaviour : PeerBehaviour} :
    (libraries.getInternal url behaviour).Handled (· = 200) ↔
      libraries.Readable url behaviour := by
  simp [Libraries.getInternal, exchange_handled_iff, Libraries.Readable]

/-- `_send` returns, instead of raising, exactly if the call can be handled. -/
theorem sendOutcome_returns_iff {url key nodeId : String} {body : PutRequest Json} {now : ℚ}
    {behaviour : PeerBehaviour} :
    (∃ ack, LeaderFollower.sendOutcome
        (libraries.postReplicate url (writeOf key body now nodeId) behaviour) = .ok ack) ↔
      libraries.Replicable url body.value behaviour :=
  LeaderFollower.sendOutcome_ok_iff.trans postReplicate_handled_iff

/-- So does `_replicate_outcome`. -/
theorem replicateOutcome_returns_iff {url key nodeId : String} {body : PutRequest Json} {now : ℚ}
    {behaviour : PeerBehaviour} :
    (∃ outcome, Leaderless.replicateOutcome
        (libraries.postReplicate url (writeOf key body now nodeId) behaviour) = .ok outcome) ↔
      libraries.Replicable url body.value behaviour :=
  Leaderless.replicateOutcome_ok_iff.trans postReplicate_handled_iff

/-- `_read_outcome` encodes no value, and parses the body on a 200 only. -/
theorem readOutcome_returns_iff {url : String} {behaviour : PeerBehaviour} :
    (∃ outcome, Leaderless.readOutcome (libraries.getInternal url behaviour) = .ok outcome) ↔
      libraries.Readable url behaviour :=
  Leaderless.readOutcome_ok_iff.trans getInternal_handled_iff

end Calls

namespace LeaderFollower

def Follower.replicateUrl (follower : Follower) : String :=
  "http://" ++ follower.host ++ ":" ++ toString follower.port ++ "/internal/replicate"

variable (libraries : Libraries) (config : ClusterConfig)

/-- `_send` to one follower entry, the client being open. -/
def send (body : ReplicateRequest Json) (behaviours : Nat → PeerBehaviour) (entry : Nat) :
    Except PyError Bool :=
  match config.followers[entry]? with
  | none => .ok false
  | some follower =>
      sendOutcome (libraries.postReplicate follower.replicateUrl body (behaviours entry))

/-- `put_key_leader` can end with `result`, over all schedules of its sends. -/
def PutEnds (behaviours : Nat → PeerBehaviour) (body : ReplicateRequest Json)
    (localApplied : Bool) (result : HandlerResult PutResponse) : Prop :=
  ∃ exit, Replicate.Exits (List.range config.followers.length) config.ackRequired
      (send libraries config body behaviours) exit ∧
    result = exit.map (putAnswer config config.ackRequired localApplied body.timestamp)

end LeaderFollower

namespace Leaderless

variable (libraries : Libraries) (config : ClusterConfig) (ownPort : Int)

/-- `_replicate_outcome` of one entry of the peers. -/
def replicateCall (body : ReplicateRequest Json)
    (behaviours : Fin (config.peersExcluding ownPort).length → PeerBehaviour)
    (peer : Fin (config.peersExcluding ownPort).length) : Except PyError (Bool × Unit) :=
  replicateOutcome (libraries.postReplicate ((config.peersExcluding ownPort).get peer).replicateUrl
    body (behaviours peer))

/-- `_read_outcome` of one entry of the peers. -/
def readCall (key : String)
    (behaviours : Fin (config.peersExcluding ownPort).length → PeerBehaviour)
    (peer : Fin (config.peersExcluding ownPort).length) :
    Except PyError (Bool × Option (VersionedValue Json)) :=
  readOutcome (libraries.getInternal
    (((config.peersExcluding ownPort).get peer).internalReadUrl key) (behaviours peer))

/-- `put_key_coordinator` can end with `result`, over all schedules of its calls. -/
def PutEnds (w : Option Int)
    (behaviours : Fin (config.peersExcluding ownPort).length → PeerBehaviour)
    (body : ReplicateRequest Json) (localApplied : Bool)
    (result : HandlerResult PutResponse) : Prop :=
  (∃ exception,
    validateQuorumParam (w.getD config.defaultW) "w" config.nodes.length = .error exception ∧
      result = .ok (.error exception)) ∨
  validateQuorumParam (w.getD config.defaultW) "w" config.nodes.length = .ok () ∧
    ∃ exit, Gather.Exits (List.finRange _) (w.getD config.defaultW - 1)
        (replicateCall libraries config ownPort body behaviours) exit ∧
      result = exit.map fun acked =>
        putAnswer config (w.getD config.defaultW) localApplied body.timestamp acked.length

/-- The entries of the peers that a read contacts. -/
def contactedBy (rRequired : Int)
    (sample : List (Fin (config.peersExcluding ownPort).length)) :
    List (Fin (config.peersExcluding ownPort).length) :=
  readPeers (List.finRange _) (rRequired - 1) sample

/-- `get_key_coordinator` can end with `result`, over all schedules of its calls. -/
def GetEnds (r : Option Int) (sample : List (Fin (config.peersExcluding ownPort).length))
    (behaviours : Fin (config.peersExcluding ownPort).length → PeerBehaviour)
    (key : String) (localEntry : Option (VersionedValue Json))
    (result : HandlerResult (KVResponse Json)) : Prop :=
  (∃ exception,
    validateQuorumParam (r.getD config.defaultR) "r" config.nodes.length = .error exception ∧
      result = .ok (.error exception)) ∨
  validateQuorumParam (r.getD config.defaultR) "r" config.nodes.length = .ok () ∧
    ∃ exit, Gather.Exits (contactedBy config ownPort (r.getD config.defaultR) sample)
        (r.getD config.defaultR - 1) (readCall libraries config ownPort key behaviours) exit ∧
      result = libraries.answered
        (exit.map (getAnswer config key (r.getD config.defaultR) localEntry))

/-- In whichever order the contacted peers' entries come in, the framework can write
out the version that wins. -/
def WinnerRenders (rRequired : Int) (sample : List (Fin (config.peersExcluding ownPort).length))
    (behaviours : Fin (config.peersExcluding ownPort).length → PeerBehaviour)
    (key : String) (localEntry : Option (VersionedValue Json)) : Prop :=
  ∀ (order : List (Fin (config.peersExcluding ownPort).length))
    (entries : List (Option (VersionedValue Json))) (response : KVResponse Json),
    order.Perm (contactedBy config ownPort rRequired sample) →
    order.map (readCall libraries config ownPort key behaviours) =
      entries.map (fun entry => .ok (true, entry)) →
    getAnswer config key rRequired localEntry entries = .ok response →
    libraries.render response = .ok ()

end Leaderless

section Handlers

variable {libraries : Libraries}

/-- A write through the leader is never a bare 500 exactly if it waits for no send,
or every send can only end as an ack or a failed ack. -/
theorem leader_put_iff {config : LeaderFollower.ClusterConfig} {behaviours : Nat → PeerBehaviour}
    {key nodeId : String} {body : PutRequest Json} {now : ℚ} {localApplied : Bool} :
    (∀ result, LeaderFollower.PutEnds libraries config behaviours (writeOf key body now nodeId)
        localApplied result → statusCode result = 200 ∨ statusCode result = 503) ↔
      config.ackRequired ≤ 0 ∨ ∀ entry follower, config.followers[entry]? = some follower →
        libraries.Replicable follower.replicateUrl body.value (behaviours entry) := by
  have hsend : ∀ entry follower, config.followers[entry]? = some follower →
      ((∃ error, LeaderFollower.send libraries config (writeOf key body now nodeId) behaviours
          entry = .error error) ↔
        ¬ libraries.Replicable follower.replicateUrl body.value (behaviours entry)) := by
    intro entry follower hfollower
    simp only [LeaderFollower.send, hfollower, exists_error_iff]
    exact not_congr sendOutcome_returns_iff
  constructor
  · -- a call that raises can be the first to finish while the leader waits
    intro hanswered
    by_contra hnot
    push Not at hnot
    obtain ⟨hwaits, entry, follower, hfollower, hbad⟩ := hnot
    obtain ⟨error, herror⟩ := (hsend entry follower hfollower).mpr hbad
    have hentry : entry ∈ List.range config.followers.length :=
      List.mem_range.mpr (List.getElem?_eq_some_iff.mp hfollower).1
    have hfails := hanswered (.error error) ⟨.error error,
      replicate_exits_error_iff.mpr ⟨hwaits, entry, hentry, herror⟩, rfl⟩
    simp [statusCode] at hfails
  · rintro hcondition result ⟨exit, hexits, rfl⟩
    cases exit with
    | ok acked =>
        simp only [Except.map, LeaderFollower.putAnswer]
        split
        · exact Or.inr rfl
        · exact Or.inl rfl
    | error error =>
        obtain ⟨hwaits, entry, hentry, herror⟩ := replicate_exits_error_iff.mp hexits
        have hlength := List.mem_range.mp hentry
        have hgood := hcondition.resolve_left (by omega) entry _
          (List.getElem?_eq_getElem hlength)
        exact absurd hgood ((hsend entry _ (List.getElem?_eq_getElem hlength)).mp ⟨error, herror⟩)

/-- A `w` or `r` out of range is a 422 and nothing else. -/
theorem statusCode_of_quorumParam {value : Int} {name : String} {n : Nat}
    {exception : HttpException} (hinvalid : Leaderless.validateQuorumParam value name n =
      .error exception) : exception.statusCode = 422 := by
  unfold Leaderless.validateQuorumParam at hinvalid
  split at hinvalid
  · cases hinvalid
  · obtain rfl := Except.error.inj hinvalid
    rfl

/-- A write through a coordinator is never a bare 500 exactly if its `w` is refused,
it waits for no peer, or every call can only end as an ack or a failed ack. -/
theorem coordinator_put_iff {config : Leaderless.ClusterConfig} {ownPort : Int} {w : Option Int}
    {behaviours : Fin (config.peersExcluding ownPort).length → PeerBehaviour}
    {key nodeId : String} {body : PutRequest Json} {now : ℚ} {localApplied : Bool} :
    (∀ result, Leaderless.PutEnds libraries config ownPort w behaviours
        (writeOf key body now nodeId) localApplied result →
        statusCode result = 200 ∨ statusCode result = 503 ∨ statusCode result = 422) ↔
      (1 ≤ w.getD config.defaultW ∧ w.getD config.defaultW ≤ config.nodes.length →
        w.getD config.defaultW ≤ 1 ∨ ∀ peer, libraries.Replicable
          ((config.peersExcluding ownPort).get peer).replicateUrl body.value
          (behaviours peer)) := by
  have hcall : ∀ peer, (∃ error, Leaderless.replicateCall libraries config ownPort
      (writeOf key body now nodeId) behaviours peer = .error error) ↔
      ¬ libraries.Replicable ((config.peersExcluding ownPort).get peer).replicateUrl body.value
        (behaviours peer) :=
    fun peer => exists_error_iff.trans (not_congr replicateOutcome_returns_iff)
  constructor
  · rintro hanswered hrange
    have hvalid : Leaderless.validateQuorumParam (w.getD config.defaultW) "w"
        config.nodes.length = .ok () := Leaderless.validateQuorumParam_eq_ok_iff.mpr hrange
    by_contra hnot
    push Not at hnot
    obtain ⟨hwaits, peer, hbad⟩ := hnot
    obtain ⟨error, herror⟩ := (hcall peer).mpr hbad
    have hexits := Leaderless.Gather.exits_error_iff.mpr
      ⟨Int.sub_pos.mpr hwaits, peer, List.mem_finRange peer, herror⟩
    have hfails := hanswered (.error error) (Or.inr ⟨hvalid, .error error, hexits, rfl⟩)
    simp [statusCode] at hfails
  · rintro hcondition result (⟨exception, hinvalid, rfl⟩ | ⟨hvalid, exit, hexits, rfl⟩)
    · exact Or.inr (Or.inr (statusCode_of_quorumParam hinvalid))
    · have hrange := Leaderless.validateQuorumParam_eq_ok_iff.mp hvalid
      cases exit with
      | ok acked =>
          simp only [Except.map, Leaderless.putAnswer]
          split
          · exact Or.inr (Or.inl rfl)
          · exact Or.inl rfl
      | error error =>
          obtain ⟨hwaits, peer, _, herror⟩ := Leaderless.Gather.exits_error_iff.mp hexits
          have hgood := (hcondition hrange).resolve_left (by omega) peer
          exact absurd hgood ((hcall peer).mp ⟨error, herror⟩)

/-- A read whose calls all returned is answered with what wins, or with a 404 or 503. -/
theorem statusCode_of_collected {config : Leaderless.ClusterConfig} {ownPort rRequired : Int}
    {sample : List (Fin (config.peersExcluding ownPort).length)}
    {behaviours : Fin (config.peersExcluding ownPort).length → PeerBehaviour}
    {key : String} {localEntry : Option (VersionedValue Json)}
    (hsample : Leaderless.IsSample (List.finRange (config.peersExcluding ownPort).length)
      (rRequired - 1) sample) (hrange : 1 ≤ rRequired)
    (hrenders : Leaderless.WinnerRenders libraries config ownPort rRequired sample behaviours key
      localEntry) {entries : List (Option (VersionedValue Json))}
    (hexits : Leaderless.Gather.Exits (Leaderless.contactedBy config ownPort rRequired sample)
      (rRequired - 1) (Leaderless.readCall libraries config ownPort key behaviours)
      (.ok entries)) :
    statusCode (libraries.answered
        (.ok (Leaderless.getAnswer config key rRequired localEntry entries))) = 200 ∨
      statusCode (libraries.answered
        (.ok (Leaderless.getAnswer config key rRequired localEntry entries))) = 404 ∨
      statusCode (libraries.answered
        (.ok (Leaderless.getAnswer config key rRequired localEntry entries))) = 503 := by
  cases hanswer : Leaderless.getAnswer config key rRequired localEntry entries with
  | error exception =>
      have hstatus := Leaderless.statusCode_of_getAnswer hanswer
      simp only [Libraries.answered, statusCode]
      omega
  | ok response =>
      -- a read that is answered has heard from every peer it contacted
      have henough := (Leaderless.getAnswer_eq_ok_iff.mp hanswer).1
      have hcontacted := Leaderless.length_readPeers_le hsample (by omega)
      obtain ⟨order, hperm, houtcome⟩ := Leaderless.Gather.order_of_exits
        (Leaderless.nodup_readPeers (List.nodup_finRange _) hsample) hexits (by omega)
      have hrender := hrenders order entries response hperm houtcome hanswer
      left
      rw [Libraries.answered, hrender]
      rfl

/-- A read is never a bare 500 exactly if its `r` is refused, or every call it makes
can only end as a response or a failed response and, in whichever order the
contacted peers' entries come in, the framework can write out the winner. -/
theorem coordinator_get_iff {config : Leaderless.ClusterConfig} {ownPort : Int} {r : Option Int}
    {sample : List (Fin (config.peersExcluding ownPort).length)}
    {behaviours : Fin (config.peersExcluding ownPort).length → PeerBehaviour}
    {key : String} {localEntry : Option (VersionedValue Json)}
    (hsample : Leaderless.IsSample (List.finRange (config.peersExcluding ownPort).length)
      (r.getD config.defaultR - 1) sample) :
    (∀ result, Leaderless.GetEnds libraries config ownPort r sample behaviours key localEntry
        result → statusCode result = 200 ∨ statusCode result = 404 ∨ statusCode result = 503 ∨
          statusCode result = 422) ↔
      (1 ≤ r.getD config.defaultR ∧ r.getD config.defaultR ≤ config.nodes.length →
        (∀ peer ∈ Leaderless.contactedBy config ownPort (r.getD config.defaultR) sample,
          libraries.Readable (((config.peersExcluding ownPort).get peer).internalReadUrl key)
            (behaviours peer)) ∧
        Leaderless.WinnerRenders libraries config ownPort (r.getD config.defaultR) sample
          behaviours key localEntry) := by
  have hcall : ∀ peer, (∃ error, Leaderless.readCall libraries config ownPort key behaviours peer =
      .error error) ↔ ¬ libraries.Readable
        (((config.peersExcluding ownPort).get peer).internalReadUrl key) (behaviours peer) :=
    fun peer => exists_error_iff.trans (not_congr readOutcome_returns_iff)
  have hnodup : (Leaderless.contactedBy config ownPort (r.getD config.defaultR) sample).Nodup :=
    Leaderless.nodup_readPeers (List.nodup_finRange _) hsample
  constructor
  · intro hanswered hrange
    have hvalid : Leaderless.validateQuorumParam (r.getD config.defaultR) "r"
        config.nodes.length = .ok () := Leaderless.validateQuorumParam_eq_ok_iff.mpr hrange
    constructor
    · intro peer hpeer
      by_contra hbad
      obtain ⟨error, herror⟩ := (hcall peer).mpr hbad
      -- a read that needs no peer contacts none
      have hwaits : 0 < r.getD config.defaultR - 1 := by
        by_contra hlocal
        simp [Leaderless.contactedBy, Leaderless.readPeers, not_lt.mp hlocal] at hpeer
      have hexits := Leaderless.Gather.exits_error_iff.mpr ⟨hwaits, peer, hpeer, herror⟩
      have hfails := hanswered (.error error) (Or.inr ⟨hvalid, .error error, hexits, rfl⟩)
      simp [statusCode] at hfails
    · -- the contacted peers can finish in any order, one wake-up each
      intro order entries response hperm houtcome hresponse
      have hlength := Leaderless.length_readPeers_le hsample (by omega)
      have hexits := Leaderless.Gather.exits_of_order hnodup hlength hperm houtcome
      have hresult := hanswered _ (Or.inr ⟨hvalid, .ok entries, hexits, rfl⟩)
      simp only [Except.map, hresponse, Libraries.answered] at hresult
      cases hrender : libraries.render response with
      | ok _ => rfl
      | error error => simp [hrender, statusCode] at hresult
  · rintro hcondition result (⟨exception, hinvalid, rfl⟩ | ⟨hvalid, exit, hexits, rfl⟩)
    · exact Or.inr (Or.inr (Or.inr (statusCode_of_quorumParam hinvalid)))
    · have hrange := Leaderless.validateQuorumParam_eq_ok_iff.mp hvalid
      obtain ⟨hreadable, hrenders⟩ := hcondition hrange
      cases exit with
      | error error =>
          obtain ⟨_, peer, hpeer, herror⟩ := Leaderless.Gather.exits_error_iff.mp hexits
          exact absurd (hreadable peer hpeer) ((hcall peer).mp ⟨error, herror⟩)
      | ok entries =>
          rcases statusCode_of_collected hsample hrange.1 hrenders hexits with
            hstatus | hstatus | hstatus
          · exact Or.inl hstatus
          · exact Or.inr (Or.inl hstatus)
          · exact Or.inr (Or.inr (Or.inl hstatus))

end Handlers

/-- A peer's read URL is refused exactly for a non-printable ASCII character. -/
theorem validUrl_internalReadUrl_iff (http : Leaderless.HttpClient) {node : Leaderless.Node}
    {key : String} (haddress : node.Addressable) :
    (http.requestPath (node.internalReadUrl key)).isOk = true ↔
      ∀ char ∈ key.toList, ¬ Leaderless.IsControl char := by
  constructor
  · intro htaken char hmem hcontrol
    have hrefused := http.rejects_control (node.internalReadUrl key)
      ⟨char, by simp [Leaderless.Node.internalReadUrl, hmem], hcontrol⟩
    simp [hrefused, Except.isOk, Except.toBool] at htaken
  · intro hprintable
    have hlookup := Leaderless.lookupKey_of_printable http haddress hprintable
    unfold Leaderless.lookupKey at hlookup
    cases hpath : http.requestPath (node.internalReadUrl key) with
    | error error => simp [hpath] at hlookup
    | ok wire => rfl

/-- When the calls return instead of raising, and when the handlers that make them
are never answered with a bare 500. -/
theorem never_bare_500_iff (libraries : Libraries) :
    (∀ url key body now nodeId behaviour,
      (∃ ack, LeaderFollower.sendOutcome
          (libraries.postReplicate url (writeOf key body now nodeId) behaviour) = .ok ack) ↔
        libraries.Replicable url body.value behaviour) ∧
    (∀ url key body now nodeId behaviour,
      (∃ outcome, Leaderless.replicateOutcome
          (libraries.postReplicate url (writeOf key body now nodeId) behaviour) = .ok outcome) ↔
        libraries.Replicable url body.value behaviour) ∧
    (∀ url behaviour,
      (∃ outcome, Leaderless.readOutcome (libraries.getInternal url behaviour) = .ok outcome) ↔
        libraries.Readable url behaviour) ∧
    (∀ (config : LeaderFollower.ClusterConfig) behaviours key body now nodeId localApplied,
      (∀ result, LeaderFollower.PutEnds libraries config behaviours
          (writeOf key body now nodeId) localApplied result →
          statusCode result = 200 ∨ statusCode result = 503) ↔
        config.ackRequired ≤ 0 ∨ ∀ entry follower, config.followers[entry]? = some follower →
          libraries.Replicable follower.replicateUrl body.value (behaviours entry)) ∧
    (∀ (config : Leaderless.ClusterConfig) ownPort w behaviours key body now nodeId localApplied,
      (∀ result, Leaderless.PutEnds libraries config ownPort w behaviours
          (writeOf key body now nodeId) localApplied result →
          statusCode result = 200 ∨ statusCode result = 503 ∨ statusCode result = 422) ↔
        (1 ≤ w.getD config.defaultW ∧ w.getD config.defaultW ≤ config.nodes.length →
          w.getD config.defaultW ≤ 1 ∨ ∀ peer, libraries.Replicable
            ((config.peersExcluding ownPort).get peer).replicateUrl body.value
            (behaviours peer))) ∧
    (∀ (config : Leaderless.ClusterConfig) ownPort r sample behaviours key localEntry,
      Leaderless.IsSample (List.finRange (config.peersExcluding ownPort).length)
        (r.getD config.defaultR - 1) sample →
      ((∀ result, Leaderless.GetEnds libraries config ownPort r sample behaviours key localEntry
          result → statusCode result = 200 ∨ statusCode result = 404 ∨ statusCode result = 503 ∨
            statusCode result = 422) ↔
        (1 ≤ r.getD config.defaultR ∧ r.getD config.defaultR ≤ config.nodes.length →
          (∀ peer ∈ Leaderless.contactedBy config ownPort (r.getD config.defaultR) sample,
            libraries.Readable (((config.peersExcluding ownPort).get peer).internalReadUrl key)
              (behaviours peer)) ∧
          Leaderless.WinnerRenders libraries config ownPort (r.getD config.defaultR) sample
            behaviours key localEntry))) ∧
    (∀ (http : Leaderless.HttpClient) (node : Leaderless.Node) key, node.Addressable →
      libraries.validUrl = (fun url => (http.requestPath url).isOk) →
      (libraries.validUrl (node.internalReadUrl key) = true ↔
        ∀ char ∈ key.toList, ¬ Leaderless.IsControl char)) := by
  refine ⟨?_, ?_, ?_, ?_, ?_, ?_, ?_⟩
  · intro url key body now nodeId behaviour
    exact sendOutcome_returns_iff
  · intro url key body now nodeId behaviour
    exact replicateOutcome_returns_iff
  · intro url behaviour
    exact readOutcome_returns_iff
  · intro config behaviours key body now nodeId localApplied
    exact leader_put_iff
  · intro config ownPort w behaviours key body now nodeId localApplied
    exact coordinator_put_iff
  · intro config ownPort r sample behaviours key localEntry hsample
    exact coordinator_get_iff hsample
  · intro http node key haddress hurls
    rw [hurls]
    exact validUrl_internalReadUrl_iff http haddress

/-- Libraries for bodies that are no JSON: a byte UTF-8 never has makes a body
undecodable, and any other one malformed. -/
def plainLibraries : Libraries where
  validUrl url := (Leaderless.plainHttpClient.requestPath url).isOk
  loads content := if content.any fun byte => 0xF8 ≤ byte then .error .unicodeDecodeError
    else .error .jsonDecodeError
  replicateResponse _ := none
  kvResponse _ := none
  render response := response.value.encode

/-- Writing an infinity, a peer's undecodable response to a write, and a read of a
key with a control character each end in a bare 500. -/
theorem bare_500 :
    (∃ result, LeaderFollower.PutEnds plainLibraries
        ⟨[⟨"localhost", 8001⟩], 1, .finite 2⟩ (fun _ => .httpError)
        (writeOf "k" ⟨.float .posInf⟩ 1 "leader") true result ∧ statusCode result = 500) ∧
    (∃ result, Leaderless.PutEnds plainLibraries
        ⟨[⟨"localhost", 8101⟩, ⟨"localhost", 8102⟩], 1, 1, .finite 2⟩ 8101 (some 2)
        (fun _ => .responds 200 [0xFF]) (writeOf "k" ⟨.int 7⟩ 1 "n1") true result ∧
      statusCode result = 500) ∧
    (∃ result, Leaderless.GetEnds plainLibraries
        ⟨[⟨"localhost", 8101⟩, ⟨"localhost", 8102⟩], 1, 1, .finite 2⟩ 8101 (some 2) []
        (fun _ => .httpError) "\x01" none result ∧ statusCode result = 500) := by
  refine ⟨⟨.error .valueError, ⟨.error .valueError, ?_, rfl⟩, rfl⟩,
    ⟨.error .unicodeDecodeError, Or.inr ⟨rfl, .error .unicodeDecodeError, ?_, rfl⟩, rfl⟩,
    ⟨.error .invalidUrl, Or.inr ⟨rfl, .error .invalidUrl, ?_, rfl⟩, rfl⟩⟩
  · exact replicate_exits_error_iff.mpr ⟨by decide, 0, by decide, by rfl⟩
  · exact Leaderless.Gather.exits_error_iff.mpr ⟨by decide, ⟨0, by decide⟩, by decide, by rfl⟩
  · exact Leaderless.Gather.exits_error_iff.mpr ⟨by decide, ⟨0, by decide⟩, by decide, by rfl⟩

end KvReplication
