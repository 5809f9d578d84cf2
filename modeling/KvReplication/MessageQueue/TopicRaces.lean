import KvReplication.Foundation.Records
import KvReplication.MessageQueue.Topics

/-! # What racing topic calls can rely on

The only requests that change the topic's layout are a create, which finds no topic, and
the delete of `reset_topic`. So once a reset has seen the topic gone, whoever creates it
next creates the configured one.
-/

namespace KvReplication.MessageQueue

variable {ErrorClass : Type} [DecidableEq ErrorClass] {errors : KafkaErrors ErrorClass}
  {config : TopicConfig}

theorem raiseOnTopicErrors_singleton (tolerate : ErrorClass) (topic : String) (code : Int) :
    raiseOnTopicErrors errors tolerate [⟨topic, code⟩] =
      if Refuses errors tolerate code then
        .error (.runtimeError topic (errors.name (errors.forCode code)) code)
      else
        .ok () := rfl

/-- The answer to a request, refused or not. -/
theorem answered_eq_some {tolerate : ErrorClass} {broker next : Broker} {answer : Broker × Int}
    {refusal : Option Int} {result : Except AdminError Unit}
    (hanswered : answered errors config tolerate broker answer refusal = some (next, result)) :
    (refusal = none ∧ next = answer.1 ∧
        result = raiseOnTopicErrors errors tolerate [⟨config.topic, answer.2⟩]) ∨
      ∃ code, refusal = some code ∧ Refuses errors tolerate code ∧ next = broker ∧
        result = .error (.runtimeError config.topic (errors.name (errors.forCode code)) code) := by
  cases refusal with
  | none =>
      obtain ⟨hnext, hresult⟩ := Prod.mk.inj (Option.some.inj hanswered)
      exact Or.inl ⟨rfl, hnext.symm, hresult.symm⟩
  | some code =>
      simp only [answered] at hanswered
      split at hanswered
      · next hrefuses =>
          obtain ⟨hnext, hresult⟩ := Prod.mk.inj (Option.some.inj hanswered)
          refine Or.inr ⟨code, rfl, hrefuses, hnext.symm, ?_⟩
          rw [← hresult, raiseOnTopicErrors_singleton, if_pos hrefuses]
      · cases hanswered

/-- A create request that the broker takes is never an error: a lost race is tolerated. -/
theorem raise_createTopics (broker : Broker) :
    raiseOnTopicErrors errors errors.topicAlreadyExistsError
      [⟨config.topic, (broker.createTopics config.numPartitions).2⟩] = .ok () := by
  rw [raiseOnTopicErrors_singleton, if_neg]
  rintro ⟨hnonzero, hother⟩
  unfold Broker.createTopics at hnonzero hother
  split at hnonzero
  · next hlisted => simp [hlisted, errors.forCode_exists] at hother
  · exact hnonzero rfl

/-- Deleting a topic that is already gone is no error either. -/
theorem raise_deleteTopics (broker : Broker) :
    raiseOnTopicErrors errors errors.unknownTopicOrPartitionError
      [⟨config.topic, broker.deleteTopics.2⟩] = .ok () := by
  rw [raiseOnTopicErrors_singleton, if_neg]
  rintro ⟨hnonzero, hother⟩
  unfold Broker.deleteTopics at hnonzero hother
  split at hnonzero
  · exact hnonzero rfl
  · next hlisted => simp [hlisted, errors.forCode_unknown] at hother

theorem Broker.listed_createTopics (broker : Broker) :
    (broker.createTopics config.numPartitions).1.listed := by
  unfold createTopics
  split
  · next hlisted => exact hlisted
  · rfl

/-- A request that fails for a reason of the broker's own. -/
def EnsureRequest.Fails : EnsureRequest → Prop
  | .lists => False
  | .creates refusal => refusal.isSome
  | .fails => True

/-- An error of an `ensure_topic_exists` call that is not a lost creation race. -/
def AdminError.NotARace (errors : KafkaErrors ErrorClass) (config : TopicConfig)
    (error : AdminError) : Prop :=
  error = .kafkaError ∨ ∃ code, Refuses errors errors.topicAlreadyExistsError code ∧
    error = .runtimeError config.topic (errors.name (errors.forCode code)) code

/-- What one request of an `ensure_topic_exists` call leads to. -/
structure EnsureStep (errors : KafkaErrors ErrorClass) (config : TopicConfig)
    (broker next : Broker) (request : EnsureRequest) (stage : EnsureStage) : Prop where
  created_or_same : next = broker ∨ (broker.topic = none ∧
    next.topic = some ⟨config.numPartitions, [], false⟩ ∧ next.published = broker.published)
  listed_of_returned : stage = .returned → next.listed
  fails_of_raised : ∀ error, stage = .raised error → request.Fails ∧ error.NotARace errors config

omit [DecidableEq ErrorClass] in
theorem EnsureStep.fails {broker : Broker} :
    EnsureStep errors config broker broker .fails (.raised .kafkaError) where
  created_or_same := Or.inl rfl
  listed_of_returned hreturned := by cases hreturned
  fails_of_raised error hraised := by
    obtain rfl := EnsureStage.raised.inj hraised
    exact ⟨trivial, Or.inl rfl⟩

theorem EnsureStage.request_spec {broker next : Broker} {stage stage' : EnsureStage}
    {request : EnsureRequest}
    (hnext : stage.request errors config broker request = some (next, stage')) :
    EnsureStep errors config broker next request stage' := by
  unfold EnsureStage.request at hnext
  split at hnext
  · -- the topic is listed, or to be created
    obtain ⟨rfl, rfl⟩ := Prod.mk.inj (Option.some.inj hnext)
    refine ⟨Or.inl rfl, fun hreturned => ?_, fun error hraised => ?_⟩
    · split at hreturned
      · next hlisted => exact hlisted
      · cases hreturned
    · split at hraised
      · cases hraised
      · cases hraised
  · next refusal =>
      obtain ⟨⟨answeredBroker, result⟩, hanswered, hresult⟩ := Option.map_eq_some_iff.mp hnext
      rcases answered_eq_some hanswered with ⟨rfl, rfl, rfl⟩ | ⟨code, rfl, hrefuses, rfl, rfl⟩
      · simp only [raise_createTopics] at hresult
        obtain ⟨rfl, rfl⟩ := Prod.mk.inj hresult
        refine ⟨?_, fun _ => broker.listed_createTopics, fun error hraised => by cases hraised⟩
        unfold Broker.createTopics
        split
        · exact Or.inl rfl
        · next hlisted => exact Or.inr ⟨by simpa [Broker.listed] using hlisted, rfl, rfl⟩
      · obtain ⟨rfl, rfl⟩ := Prod.mk.inj hresult
        refine ⟨Or.inl rfl, (fun hreturned => by cases hreturned), ?_⟩
        rintro error ⟨⟩
        exact ⟨rfl, Or.inr ⟨code, hrefuses, rfl⟩⟩
  · obtain ⟨rfl, rfl⟩ := Prod.mk.inj (Option.some.inj hnext)
    exact .fails
  · obtain ⟨rfl, rfl⟩ := Prod.mk.inj (Option.some.inj hnext)
    exact .fails
  · cases hnext

/-- How anything but the reset's own delete request can change the broker. -/
inductive Broker.Moves (config : TopicConfig) (broker next : Broker) : Prop
  | same (heq : next = broker)
  | created (habsent : broker.topic = none)
      (htopic : next.topic = some ⟨config.numPartitions, [], false⟩)
      (hpublished : next.published = broker.published)
  | published (topic : Topic) (hbefore : broker.topic = some topic)
      (htopic : next.topic = some { topic with messages := topic.messages ++ [broker.published] })
      (hpublished : next.published = broker.published + 1)
  | finished (topic : Topic) (hbefore : broker.topic = some topic)
      (hdeleting : topic.deleting = true) (htopic : next.topic = none)
      (hpublished : next.published = broker.published)

omit [DecidableEq ErrorClass] in
theorem EnsureStep.moves {broker next : Broker} {request : EnsureRequest} {stage : EnsureStage}
    (hstep : EnsureStep errors config broker next request stage) : broker.Moves config next := by
  rcases hstep.created_or_same with hsame | ⟨habsent, htopic, hpublished⟩
  · exact .same hsame
  · exact .created habsent htopic hpublished

theorem Broker.moves_publish {broker next : Broker} (hnext : broker.publish = some next) :
    broker.Moves config next := by
  unfold publish at hnext
  split at hnext
  · next hlisted =>
      obtain rfl := Option.some.inj hnext
      obtain ⟨topic, htopic⟩ := Option.isSome_iff_exists.mp hlisted
      exact .published topic htopic (by simp [htopic]) rfl
  · cases hnext

theorem Broker.moves_finishDeletion {broker next : Broker}
    (hnext : broker.finishDeletion = some next) : broker.Moves config next := by
  unfold finishDeletion at hnext
  split at hnext
  · next hdeleting =>
      obtain rfl := Option.some.inj hnext
      obtain ⟨topic, htopic, hflag⟩ := (Option.any_eq_true _ _).mp hdeleting
      exact .finished topic htopic hflag rfl rfl
  · cases hnext

/-- The topic as a reset leaves it: laid out as configured, and without a message that was
in it when the reset was called. -/
structure Topic.Fresh (config : TopicConfig) (atCall : List Nat) (topic : Topic) : Prop where
  partitions_eq : topic.partitions = config.numPartitions
  settled : topic.deleting = false
  clean : ∀ message ∈ topic.messages, message ∉ atCall

/-- What a reset knows of the topic at each stage: while it polls, a topic that is not on
its way out is fresh, and once it has seen the topic gone, any topic is. -/
def ResetStage.Clean (config : TopicConfig) (atCall : List Nat) (broker : Broker) :
    ResetStage → Prop
  | .polling => ∀ topic, broker.topic = some topic →
      topic.deleting = true ∨ topic.Fresh config atCall
  | .ensuring stage => (∀ topic, broker.topic = some topic → topic.Fresh config atCall) ∧
      (stage = .returned → broker.listed)
  | _ => True

theorem Topic.Fresh.created (config : TopicConfig) (atCall : List Nat) :
    Topic.Fresh config atCall ⟨config.numPartitions, [], false⟩ where
  partitions_eq := rfl
  settled := rfl
  clean _ hmem := by cases hmem

/-- A message published now was not there when the reset was called. -/
theorem Topic.Fresh.published {atCall : List Nat} {topic : Topic}
    (hfresh : topic.Fresh config atCall) {published : Nat}
    (hatCall : ∀ message ∈ atCall, message < published) :
    Topic.Fresh config atCall { topic with messages := topic.messages ++ [published] } where
  partitions_eq := hfresh.partitions_eq
  settled := hfresh.settled
  clean message hmem hold := by
    rcases List.mem_append.mp hmem with hbefore | hnew
    · exact hfresh.clean message hbefore hold
    · have hlt := hatCall message hold
      rw [List.mem_singleton.mp hnew] at hlt
      exact Nat.lt_irrefl _ hlt

theorem ResetStage.Clean.moves {atCall : List Nat} {broker next : Broker} {stage : ResetStage}
    (hclean : stage.Clean config atCall broker)
    (hatCall : ∀ message ∈ atCall, message < broker.published)
    (hmoves : broker.Moves config next) : stage.Clean config atCall next := by
  cases hmoves with
  | same heq => exact heq ▸ hclean
  | created habsent htopic hpublished =>
      cases stage with
      | polling =>
          intro topic hfound
          obtain rfl := Option.some.inj (htopic.symm.trans hfound)
          exact Or.inr (.created config atCall)
      | ensuring stage =>
          refine ⟨fun topic hfound => ?_, fun _ => by simp [Broker.listed, htopic]⟩
          obtain rfl := Option.some.inj (htopic.symm.trans hfound)
          exact .created config atCall
      | listing => trivial
      | deleting => trivial
      | raised => trivial
  | published topic hbefore htopic hpublished =>
      cases stage with
      | polling =>
          intro later hfound
          obtain rfl := Option.some.inj (htopic.symm.trans hfound)
          exact (hclean topic hbefore).imp_right fun hfresh => hfresh.published hatCall
      | ensuring stage =>
          refine ⟨fun later hfound => ?_, fun _ => by simp [Broker.listed, htopic]⟩
          obtain rfl := Option.some.inj (htopic.symm.trans hfound)
          exact (hclean.1 topic hbefore).published hatCall
      | listing => trivial
      | deleting => trivial
      | raised => trivial
  | finished topic hbefore hdeleting htopic hpublished =>
      cases stage with
      | polling =>
          intro later hfound
          rw [htopic] at hfound
          cases hfound
      | ensuring stage =>
          -- a fresh topic is not being deleted
          have hsettled := (hclean.1 topic hbefore).settled
          rw [hdeleting] at hsettled
          cases hsettled
      | listing => trivial
      | deleting => trivial
      | raised => trivial

/-- A request of the reset keeps what it knows. -/
theorem ResetStage.Clean.request {atCall : List Nat} {broker next : Broker}
    {stage stage' : ResetStage} (hclean : stage.Clean config atCall broker)
    (hatCall : ∀ message ∈ atCall, message < broker.published) {request : ResetRequest}
    (hnext : stage.request errors config broker request = some (next, stage')) :
    stage'.Clean config atCall next ∧ broker.published ≤ next.published := by
  have hgone : broker.listed = false → ResetStage.Clean config atCall broker
      (.ensuring .listing) := by
    intro hunlisted
    refine ⟨fun topic hfound => ?_, fun hreturned => by cases hreturned⟩
    rw [Broker.listed, hfound] at hunlisted
    cases hunlisted
  unfold ResetStage.request at hnext
  split at hnext
  · obtain ⟨rfl, rfl⟩ := Prod.mk.inj (Option.some.inj hnext)
    split
    · exact ⟨trivial, Nat.le_refl _⟩
    · next hunlisted => exact ⟨hgone (by simpa using hunlisted), Nat.le_refl _⟩
  · -- the delete request marks whatever topic there is
    obtain ⟨⟨answeredBroker, result⟩, hanswered, hresult⟩ := Option.map_eq_some_iff.mp hnext
    rcases answered_eq_some hanswered with ⟨rfl, rfl, rfl⟩ | ⟨code, rfl, hrefuses, rfl, rfl⟩
    · simp only [raise_deleteTopics] at hresult
      obtain ⟨rfl, rfl⟩ := Prod.mk.inj hresult
      refine ⟨fun topic hfound => Or.inl ?_, Nat.le_refl _⟩
      obtain ⟨_, _, rfl⟩ := Option.map_eq_some_iff.mp hfound
      rfl
    · obtain ⟨rfl, rfl⟩ := Prod.mk.inj hresult
      exact ⟨trivial, Nat.le_refl _⟩
  · split at hnext
    · next expired _ =>
        obtain ⟨rfl, rfl⟩ := Prod.mk.inj (Option.some.inj hnext)
        cases expired with
        | true => exact ⟨trivial, Nat.le_refl _⟩
        | false => exact ⟨hclean, Nat.le_refl _⟩
    · next hunlisted =>
        obtain ⟨rfl, rfl⟩ := Prod.mk.inj (Option.some.inj hnext)
        exact ⟨hgone (by simpa using hunlisted), Nat.le_refl _⟩
  · obtain ⟨⟨ensured, ensuredStage⟩, hensured, hresult⟩ := Option.map_eq_some_iff.mp hnext
    obtain ⟨rfl, rfl⟩ := Prod.mk.inj hresult
    have hstep := EnsureStage.request_spec hensured
    have hmoved := hclean.moves hatCall hstep.moves
    refine ⟨⟨hmoved.1, hstep.listed_of_returned⟩, ?_⟩
    rcases hstep.created_or_same with rfl | ⟨_, _, hpublished⟩
    · exact Nat.le_refl _
    · exact Nat.le_of_eq hpublished.symm
  · obtain ⟨rfl, rfl⟩ := Prod.mk.inj (Option.some.inj hnext)
    exact ⟨trivial, Nat.le_refl _⟩
  · obtain ⟨rfl, rfl⟩ := Prod.mk.inj (Option.some.inj hnext)
    exact ⟨trivial, Nat.le_refl _⟩
  · obtain ⟨rfl, rfl⟩ := Prod.mk.inj (Option.some.inj hnext)
    exact ⟨trivial, Nat.le_refl _⟩
  · cases hnext

omit [DecidableEq ErrorClass] in
theorem Broker.Moves.published_le {broker next : Broker} (hmoves : broker.Moves config next) :
    broker.published ≤ next.published := by
  cases hmoves with
  | same heq => exact Nat.le_of_eq (congrArg Broker.published heq.symm)
  | created _ _ hpublished => exact Nat.le_of_eq hpublished.symm
  | published _ _ _ hpublished => omega
  | finished _ _ _ _ hpublished => exact Nat.le_of_eq hpublished.symm

/-- An `ensure_topic_exists` request that fails for a reason of the broker's own. -/
def TopicAction.FailsEnsure : TopicAction → Prop
  | .ensure _ request => request.Fails
  | _ => False

namespace TopicSystem

/-- What an action changes: the broker at most moves, unless the reset takes it. -/
inductive Effect (errors : KafkaErrors ErrorClass) (config : TopicConfig) (system : TopicSystem) :
    TopicAction → TopicSystem → Prop
  | callEnsure : Effect errors config system .callEnsure
      { system with ensures := system.ensures ++ [.listing] }
  | ensure (call : Nat) (request : EnsureRequest) (broker : Broker) (stage : EnsureStage)
      (hstep : EnsureStep errors config system.broker broker request stage) :
      Effect errors config system (.ensure call request)
        { system with broker := broker, ensures := system.ensures.set call stage }
  | callReset (hnone : system.reset = none) : Effect errors config system .callReset
      { system with reset := some ⟨system.broker.messages, .listing⟩ }
  | reset (call : ResetCall) (request : ResetRequest) (broker : Broker) (stage : ResetStage)
      (hcall : system.reset = some call)
      (hrequest : call.stage.request errors config system.broker request = some (broker, stage)) :
      Effect errors config system (.reset request)
        { system with broker := broker, reset := some { call with stage := stage } }
  | broker (action : TopicAction) (broker : Broker)
      (haction : action = .publish ∨ action = .finishDeletion)
      (hmoves : system.broker.Moves config broker) :
      Effect errors config system action { system with broker := broker }

variable {system next : TopicSystem} {action : TopicAction}

theorem effect_of_step (hnext : system.step errors config action = some next) :
    Effect errors config system action next := by
  cases action with
  | callEnsure =>
      obtain rfl := Option.some.inj hnext
      exact .callEnsure
  | ensure call request =>
      simp only [step, Option.bind_eq_bind, Option.bind_eq_some_iff, Option.pure_def,
        Option.some.injEq] at hnext
      obtain ⟨stage, _, ⟨broker, stage'⟩, hrequest, rfl⟩ := hnext
      exact .ensure call request broker stage' (EnsureStage.request_spec hrequest)
  | callReset =>
      simp only [step] at hnext
      split at hnext
      · next hnone =>
          obtain rfl := Option.some.inj hnext
          exact .callReset hnone
      · cases hnext
  | reset request =>
      simp only [step, Option.bind_eq_bind, Option.bind_eq_some_iff, Option.pure_def,
        Option.some.injEq] at hnext
      obtain ⟨call, hcall, ⟨broker, stage⟩, hrequest, rfl⟩ := hnext
      exact .reset call request broker stage hcall hrequest
  | publish =>
      simp only [step, Option.bind_eq_bind, Option.bind_eq_some_iff, Option.pure_def,
        Option.some.injEq] at hnext
      obtain ⟨broker, hbroker, rfl⟩ := hnext
      exact .broker _ broker (Or.inl rfl) (Broker.moves_publish hbroker)
  | finishDeletion =>
      simp only [step, Option.bind_eq_bind, Option.bind_eq_some_iff, Option.pure_def,
        Option.some.injEq] at hnext
      obtain ⟨broker, hbroker, rfl⟩ := hnext
      exact .broker _ broker (Or.inr rfl) (Broker.moves_finishDeletion hbroker)

/-- The reset knows what it should at its stage, and every call that has raised was failed
by the broker. -/
structure Sound (errors : KafkaErrors ErrorClass) (config : TopicConfig)
    (history : List TopicAction) (system : TopicSystem) : Prop where
  atCall_lt : ∀ call, system.reset = some call →
    ∀ message ∈ call.atCall, message < system.broker.published
  clean : ∀ call, system.reset = some call →
    call.stage.Clean config call.atCall system.broker
  raised : ∀ stage ∈ system.ensures, ∀ error, stage = .raised error →
    error.NotARace errors config ∧ ∃ action ∈ history, action.FailsEnsure

omit [DecidableEq ErrorClass] in
theorem Sound.start (broker : Broker) : (start broker).Sound errors config [] where
  atCall_lt call hcall := by cases hcall
  clean call hcall := by cases hcall
  raised stage hstage := by cases hstage

omit [DecidableEq ErrorClass] in
/-- The broker moves under the reset. -/
theorem Sound.moves {history : List TopicAction} (hsound : system.Sound errors config history)
    {broker : Broker} (hmoves : system.broker.Moves config broker) :
    (∀ call, system.reset = some call → ∀ message ∈ call.atCall, message < broker.published) ∧
      ∀ call, system.reset = some call → call.stage.Clean config call.atCall broker := by
  constructor
  · intro call hcall message hmem
    exact Nat.lt_of_lt_of_le (hsound.atCall_lt call hcall message hmem) hmoves.published_le
  · intro call hcall
    exact (hsound.clean call hcall).moves (hsound.atCall_lt call hcall) hmoves

theorem messages_lt (broker : Broker) : ∀ message ∈ broker.messages,
    message < broker.published := by
  intro message hmem
  unfold Broker.messages at hmem
  cases htopic : broker.topic with
  | none => simp [htopic] at hmem
  | some topic => exact broker.numbered topic htopic message (by simpa [htopic] using hmem)

theorem Sound.step {history : List TopicAction} (hsound : system.Sound errors config history)
    (hnext : system.step errors config action = some next) :
    next.Sound errors config (history ++ [action]) := by
  have hraised : ∀ stage ∈ system.ensures, ∀ error, stage = .raised error →
      error.NotARace errors config ∧ ∃ earlier ∈ history ++ [action], earlier.FailsEnsure := by
    intro stage hstage error heq
    obtain ⟨hcause, earlier, hearlier, hfails⟩ := hsound.raised stage hstage error heq
    exact ⟨hcause, earlier, List.mem_append_left _ hearlier, hfails⟩
  cases effect_of_step hnext with
  | callEnsure =>
      refine ⟨hsound.atCall_lt, hsound.clean, ?_⟩
      refine Records.forall_mem_concat hraised fun error heq => ?_
      cases heq
  | ensure call request broker stage hstep =>
      obtain ⟨hatCall, hclean⟩ := hsound.moves hstep.moves
      refine ⟨hatCall, hclean, ?_⟩
      refine Records.forall_mem_set hraised call fun error heq => ?_
      obtain ⟨hfails, hcause⟩ := hstep.fails_of_raised error heq
      exact ⟨hcause, .ensure call request, by simp, hfails⟩
  | callReset hnone =>
      refine ⟨?_, ?_, hraised⟩
      · rintro call ⟨⟩
        exact messages_lt system.broker
      · rintro call ⟨⟩
        trivial
  | reset call request broker stage hcall hrequest =>
      have hatCall := hsound.atCall_lt call hcall
      obtain ⟨hclean, hle⟩ := (hsound.clean call hcall).request hatCall hrequest
      refine ⟨?_, ?_, hraised⟩
      · rintro later ⟨⟩
        exact fun message hmem => Nat.lt_of_lt_of_le (hatCall message hmem) hle
      · rintro later ⟨⟩
        exact hclean
  | broker _ broker haction hmoves =>
      obtain ⟨hatCall, hclean⟩ := hsound.moves hmoves
      exact ⟨hatCall, hclean, hraised⟩

theorem Sound.run {broker : Broker} {actions : List TopicAction}
    (hrun : Runs.run (TopicSystem.step errors config) (TopicSystem.start broker) actions =
      some system) : system.Sound errors config actions :=
  Runs.run_history_invariant (fun history system => system.Sound errors config history)
    (fun _ _ _ _ hsound hnext => hsound.step hnext) (Sound.start broker) hrun

/-- The messages a reset is to clear are fixed when it is called. -/
theorem atCall_of_run {call : ResetCall} (hcall : system.reset = some call)
    {actions : List TopicAction}
    (hrun : Runs.run (TopicSystem.step errors config) system actions = some next) :
    ∃ later, next.reset = some later ∧ later.atCall = call.atCall := by
  apply Runs.run_history_invariant (fun _ (system : TopicSystem) =>
    ∃ later, system.reset = some later ∧ later.atCall = call.atCall) ?_ ⟨call, hcall, rfl⟩ hrun
  rintro _ middle action later ⟨current, hcurrent, hatCall⟩ hstep
  cases effect_of_step hstep with
  | callEnsure => exact ⟨current, hcurrent, hatCall⟩
  | ensure => exact ⟨current, hcurrent, hatCall⟩
  | callReset hnone =>
      rw [hnone] at hcurrent
      cases hcurrent
  | reset resetCall request broker stage hfound _ =>
      obtain rfl := Option.some.inj (hfound.symm.trans hcurrent)
      exact ⟨_, rfl, hatCall⟩
  | broker => exact ⟨current, hcurrent, hatCall⟩

/-- A reset that returns leaves the topic laid out as configured and without any message
that was in it before, whatever calls race with it; and none of these calls raises for
having lost a race. -/
theorem reset_topic_clean_slate (broker : Broker) {actions : List TopicAction}
    (hrun : Runs.run (TopicSystem.step errors config) (TopicSystem.start broker) actions =
      some system) :
    (∀ before after middle, actions = before ++ .callReset :: after →
      Runs.run (TopicSystem.step errors config) (TopicSystem.start broker) before = some middle →
      ∀ call, system.reset = some call → call.stage = .ensuring .returned →
        ∃ topic, system.broker.topic = some topic ∧ topic.partitions = config.numPartitions ∧
          topic.deleting = false ∧ ∀ message ∈ topic.messages, message ∉ middle.broker.messages) ∧
    ∀ stage ∈ system.ensures, ∀ error, stage = .raised error →
      error.NotARace errors config ∧ ∃ action ∈ actions, action.FailsEnsure := by
  have hsound := Sound.run hrun
  refine ⟨?_, hsound.raised⟩
  rintro before after middle rfl hbefore call hcall hreturned
  obtain ⟨called, hcalled, hafter⟩ := (Runs.run_append_eq_some _).mp hrun
  obtain rfl := Option.some.inj (hcalled.symm.trans hbefore)
  obtain ⟨started, hstarted, hrest⟩ := (Runs.run_cons_eq_some _).mp hafter
  -- the call notes the messages that are there
  have hnoted : started.reset = some ⟨called.broker.messages, .listing⟩ := by
    cases effect_of_step hstarted with
    | callReset => rfl
    | broker _ _ haction => simp at haction
  obtain ⟨later, hlater, hatCall⟩ := atCall_of_run hnoted hrest
  obtain rfl := Option.some.inj (hlater.symm.trans hcall)
  have hclean := hsound.clean later hcall
  rw [hreturned] at hclean
  obtain ⟨topic, htopic⟩ := Option.isSome_iff_exists.mp (hclean.2 rfl)
  obtain ⟨hpartitions, hsettled, hmessages⟩ := hclean.1 topic htopic
  rw [hatCall] at hmessages
  exact ⟨topic, htopic, hpartitions, hsettled, hmessages⟩

/-- The client library's classes, by name. -/
def namedErrors : KafkaErrors String where
  forCode code :=
    if code = 36 then "TopicAlreadyExistsError"
    else if code = 3 then "UnknownTopicOrPartitionError"
    else "UnknownError"
  name := id
  topicAlreadyExistsError := "TopicAlreadyExistsError"
  unknownTopicOrPartitionError := "UnknownTopicOrPartitionError"
  forCode_exists := rfl
  forCode_unknown := rfl

def threePartitions : TopicConfig := ⟨"kv", 3, by decide⟩

/-- A topic of one partition with two messages. -/
def oldBroker : Broker where
  topic := some ⟨1, [0, 1], false⟩
  published := 2
  numbered := by
    rintro _ ⟨⟩
    decide

/-- A starting node finds the old topic gone before the reset does, and creates it. -/
def racedReset : List TopicAction :=
  [.callReset, .reset .lists, .reset (.deletes none), .publish, .reset (.polls false),
    .callEnsure, .finishDeletion, .ensure 0 .lists, .reset (.polls false),
    .reset (.ensures .lists), .ensure 0 (.creates none), .publish,
    .reset (.ensures (.creates none))]

theorem raced_reset_is_clean :
    ∃ system, Runs.run (TopicSystem.step namedErrors threePartitions)
        (TopicSystem.start oldBroker) racedReset = some system ∧
      (∀ call, system.reset = some call → call.stage = .ensuring .returned →
        ∃ topic, system.broker.topic = some topic ∧ topic.partitions = 3 ∧
          topic.deleting = false ∧ ∀ message ∈ topic.messages, message ∉ [0, 1]) ∧
      ∀ stage ∈ system.ensures, ∀ error, stage ≠ .raised error := by
  have hsome : (Runs.run (TopicSystem.step namedErrors threePartitions)
      (TopicSystem.start oldBroker) racedReset).isSome := by decide
  have hrun := (Option.some_get hsome).symm
  obtain ⟨hclean, hraised⟩ := reset_topic_clean_slate oldBroker hrun
  refine ⟨_, hrun, hclean [] _ _ rfl rfl, ?_⟩
  intro stage hstage error heq
  obtain ⟨_, action, haction, hfails⟩ := hraised stage hstage error heq
  simp only [racedReset, List.mem_cons, List.not_mem_nil, or_false] at haction
  rcases haction with rfl | rfl | rfl | rfl | rfl | rfl | rfl | rfl | rfl | rfl | rfl | rfl | rfl
  all_goals exact absurd hfails (by simp [TopicAction.FailsEnsure, EnsureRequest.Fails])

/-- Without a reset the topic is never on its way out: it is absent or laid out as
configured, and there for every call that has returned. -/
structure LaidOut (config : TopicConfig) (system : TopicSystem) : Prop where
  unreset : system.reset = none
  layout : ∀ topic, system.broker.topic = some topic →
    topic.deleting = false ∧ topic.partitions = config.numPartitions
  returned : .returned ∈ system.ensures → system.broker.listed

omit [DecidableEq ErrorClass] in
theorem LaidOut.moves (hlaid : system.LaidOut config) {broker : Broker}
    (hmoves : system.broker.Moves config broker) :
    LaidOut config { system with broker := broker } := by
  cases hmoves with
  | same heq => exact heq ▸ hlaid
  | created habsent htopic =>
      refine ⟨hlaid.unreset, fun topic hfound => ?_, fun _ => by simp [Broker.listed, htopic]⟩
      obtain rfl := Option.some.inj (htopic.symm.trans hfound)
      exact ⟨rfl, rfl⟩
  | published topic hbefore htopic =>
      refine ⟨hlaid.unreset, fun later hfound => ?_, fun _ => by simp [Broker.listed, htopic]⟩
      obtain rfl := Option.some.inj (htopic.symm.trans hfound)
      exact hlaid.layout topic hbefore
  | finished topic hbefore hdeleting =>
      have hsettled := (hlaid.layout topic hbefore).1
      rw [hdeleting] at hsettled
      cases hsettled

theorem LaidOut.step (hlaid : system.LaidOut config) (hkeeps : action ≠ .callReset)
    (hnext : system.step errors config action = some next) : next.LaidOut config := by
  cases effect_of_step hnext with
  | callEnsure =>
      refine ⟨hlaid.unreset, hlaid.layout, fun hreturned => hlaid.returned ?_⟩
      simpa using hreturned
  | ensure call request broker stage hstep =>
      have hmoved := hlaid.moves hstep.moves
      refine ⟨hlaid.unreset, hmoved.layout, fun hreturned => ?_⟩
      rcases List.mem_or_eq_of_mem_set hreturned with hold | hnew
      · exact hmoved.returned hold
      · exact hstep.listed_of_returned hnew.symm
  | callReset => exact absurd rfl hkeeps
  | reset call request broker stage hcall =>
      rw [hlaid.unreset] at hcall
      cases hcall
  | broker _ broker _ hmoves => exact hlaid.moves hmoves

/-- Calls of `ensure_topic_exists` leave the configured layout behind, whatever their
number and order, exactly if the topic was absent or laid out so before. -/
theorem ensure_layout_iff (errors : KafkaErrors ErrorClass) (config : TopicConfig)
    (broker : Broker) (hsettled : ∀ topic, broker.topic = some topic → topic.deleting = false) :
    (∀ actions system, .callReset ∉ actions →
      Runs.run (TopicSystem.step errors config) (TopicSystem.start broker) actions = some system →
      .returned ∈ system.ensures →
        ∃ topic, system.broker.topic = some topic ∧ topic.partitions = config.numPartitions) ↔
      ∀ topic, broker.topic = some topic → topic.partitions = config.numPartitions := by
  constructor
  · intro hlayout topic htopic
    -- one call that finds the topic listed
    have hlisted : broker.listed = true := by simp [Broker.listed, htopic]
    obtain ⟨found, hfound, hpartitions⟩ := hlayout [.callEnsure, .ensure 0 .lists]
      ⟨broker, [.returned], none⟩ (by decide)
      (by simp [Runs.run, TopicSystem.step, TopicSystem.start, EnsureStage.request, hlisted])
      (by simp)
    obtain rfl := Option.some.inj (htopic.symm.trans hfound)
    exact hpartitions
  · intro hbefore actions system hkeeps hrun hreturned
    have hstart : (TopicSystem.start broker).LaidOut config := by
      refine ⟨rfl, fun topic htopic => ⟨hsettled topic htopic, hbefore topic htopic⟩, ?_⟩
      intro hmem
      cases hmem
    have hlaid := Runs.run_invariant (LaidOut config)
      (fun _ _ _ hallowed hinvariant hnext => LaidOut.step hinvariant hallowed hnext)
      (fun action hmem heq => hkeeps (heq ▸ hmem)) hstart hrun
    obtain ⟨topic, htopic⟩ := Option.isSome_iff_exists.mp (hlaid.returned hreturned)
    exact ⟨topic, htopic, (hlaid.layout topic htopic).2⟩

def emptyBroker : Broker := ⟨none, 0, fun _ hfound => by cases hfound⟩

/-- Two nodes that both find the topic missing. -/
def racedEnsure : List TopicAction :=
  [.callEnsure, .callEnsure, .ensure 0 .lists, .ensure 1 .lists, .ensure 1 (.creates none),
    .ensure 0 (.creates none)]

theorem raced_ensure_layout :
    ∃ system, Runs.run (TopicSystem.step namedErrors threePartitions)
        (TopicSystem.start emptyBroker) racedEnsure = some system ∧
      system.ensures = [.returned, .returned] ∧
      ∃ topic, system.broker.topic = some topic ∧ topic.partitions = 3 := by
  have hlayout := ensure_layout_iff namedErrors threePartitions emptyBroker
    (fun _ hfound => by cases hfound)
  refine ⟨_, rfl, rfl, hlayout.mpr (fun _ hfound => by cases hfound) racedEnsure _ (by decide)
    rfl (by decide)⟩

/-- A node starts on a topic of one partition that its config wants to have three. -/
theorem ensure_keeps_old_layout :
    ∃ system, Runs.run (TopicSystem.step namedErrors threePartitions)
        (TopicSystem.start oldBroker) [.callEnsure, .ensure 0 .lists] = some system ∧
      .returned ∈ system.ensures ∧
        ¬ ∃ topic, system.broker.topic = some topic ∧
          topic.partitions = threePartitions.numPartitions := by
  refine ⟨⟨oldBroker, [.returned], none⟩, rfl, by decide, ?_⟩
  rintro ⟨topic, htopic, hpartitions⟩
  obtain rfl := Option.some.inj htopic
  exact absurd hpartitions (by decide)

end TopicSystem

end KvReplication.MessageQueue
