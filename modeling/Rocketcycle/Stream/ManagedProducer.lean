import Rocketcycle.Apecs.TxnLog
import Rocketcycle.Rkcy.Acceptance
import Rocketcycle.Rkcy.HashFunc
import Rocketcycle.Lib.Runs

/-!
# Managed producers

`pkg/stream`: a process has one producer for each concern and topic it has written to. A producer
is made when it is first asked for, and follows the definitions of the platform that it is told of,
each producer at its own pace. The producers of the brokers are always found, and nothing is ever
sent on the channel that pauses a producer.
-/

namespace Rocketcycle.Stream
open Definition (RtConcern RtTopics newRtPlatformDef)

/-- `StandardTopicName` as a string. -/
def topicString : TopicName → String
  | .process => "process"
  | .storage => "storage"
  | .storageScnd => "storage-scnd"
  | .error => "error"
  | .complete => "complete"

/-- What `ConsumePlatformTopic` tells of: a definition that `NewRtPlatformDef` has accepted. -/
structure AcceptedDef extends Definition.RtPlatformDef where
  accepted : ∃ render platDef platformName environment,
    newRtPlatformDef render platDef platformName environment = .ok toRtPlatformDef

structure ManagedProducer where
  concernName : String
  topicName : String
  concern : Option RtConcern := none
  topics : Option RtTopics := none
  brokers : String := ""
  /-- The brokers whose channel it is. -/
  prodCh : Option String := none

structure ProducerDirective where
  concernName : String
  concernType : Definition.ConcernType
  topic : String
  generation : Int

structure KafkaMessage where
  topic : String
  partition : Nat
  value : Publication

/-- With the error that it logs. The fields are overwritten before it is known what was found. -/
def updatePlatform (mprod : ManagedProducer) (rtPlatDef : Definition.RtPlatformDef) : ManagedProducer × Option String :=
  match rtPlatDef.concerns.lookup mprod.concernName with
  | none => ({ mprod with concern := none }, some "updatePlatform: Failed to find Concern")
  | some concern =>
    match concern.topics.lookup mprod.topicName with
    | none => ({ mprod with concern := some concern, topics := none }, some "updatePlatform: Failed to find Topics")
    | some topics =>
      let mprod := { mprod with concern := some concern, topics := some topics }
      if mprod.brokers ≠ topics.currentCluster.brokers then
        ({ mprod with brokers := topics.currentCluster.brokers, prodCh := some topics.currentCluster.brokers }, none)
      else (mprod, none)

def producerDirective (mprod : ManagedProducer) : Except Fault ProducerDirective :=
  match mprod.concern, mprod.topics.bind fun topics => topics.topics.current with
  | some concern, some current =>
    .ok ⟨mprod.concernName, concern.concern.type, mprod.topicName, current.generation⟩
  | _, _ => .error .nilDeref

def prepKafkaMessage (mprod : ManagedProducer) (msg : Publication) : Except Fault KafkaMessage :=
  match mprod.topics with
  | none => .error .nilDeref
  | some topics =>
    match topics.topics.current with
    | none => .error .nilDeref
    | some current => .ok ⟨topics.currentTopic, fnv64Hash msg.hashKey current.partitionCount.toNat, msg⟩

/-- A message that `run` reads from `produceCh`. Without a producer it only logs an error. -/
def handleMessage (mprod : ManagedProducer) (msg : Publication) : Except Fault (Option KafkaMessage) :=
  match mprod.prodCh with
  | none => .ok none
  | some _ => (prepKafkaMessage mprod msg).map some

/-! ## Submission -/

/-- The concern and the topic of a producer. -/
abbrev Key := String × TopicName

/-- A call of `ExecuteTxnAsync`. The trace parent is extracted from the context, and is empty or
valid. -/
structure Submission where
  env : Env
  traceParent : String
  extracted : traceParent = "" ∨ traceParentIsValid traceParent = true
  txn : Txn
  respTarget : Option TopicTarget

/-- A submission up to its call of `GetManagedProducer`. -/
def Submission.key (sub : Submission) : Reply Key :=
  match prepareApecsSteps sub.env sub.traceParent (some sub.txn) with
  | .error e => .error (.err e)
  | .ok prep =>
    match newApecsTxn sub.env.showTarget prep.txnId none sub.respTarget prep.uponError prep.steps with
    | .error e => .error (.err e)
    | .ok txn => producerKey txn prep.traceParent

/-- What it hands to the producer, or the error it returns. -/
def Submission.result (sub : Submission) : Reply Publication :=
  executeTxnAsync sub.env sub.traceParent (some sub.txn) sub.respTarget

/-! ## A process -/

/-- The producers, and the messages that callers of `Produce` wait to hand to them. -/
structure State where
  producers : Key → Option ManagedProducer
  waiting : Key → List Publication

def State.new : State := ⟨fun _ => none, fun _ => []⟩

/-- What happens next: a transaction is submitted, a new producer being told of `first`; a producer
is told of a definition; or it takes a message. -/
inductive Event where
  | submit (sub : Submission) (first : AcceptedDef)
  | update (key : Key) (rtPlatDef : AcceptedDef)
  | take (key : Key)

/-- `NewManagedProducer`, up to the start of `run`. -/
def newManagedProducer (key : Key) (first : Definition.RtPlatformDef) : ManagedProducer :=
  (updatePlatform { concernName := key.1, topicName := topicString key.2 } first).1

def State.setProducer (s : State) (key : Key) (mprod : ManagedProducer) : State :=
  { s with producers := fun k => if k = key then some mprod else s.producers k }

def State.setWaiting (s : State) (key : Key) (msgs : List Publication) : State :=
  { s with waiting := fun k => if k = key then msgs else s.waiting k }

/-- `GetManagedProducer`. The loop of a new producer begins with the directive of its pings. -/
def getManagedProducer (s : State) (key : Key) (first : Definition.RtPlatformDef) : Except Fault State :=
  match s.producers key with
  | some _ => .ok s
  | none =>
    let mprod := newManagedProducer key first
    match producerDirective mprod with
    | .error f => .error f
    | .ok _ => .ok (s.setProducer key mprod)

/-- `none` is a crash of the process. -/
def step (s : State) : Event → Option State
  | .submit sub first =>
    match sub.key with
    | .error (.panic _) => none
    | .error (.err _) => some s
    | .ok key =>
      match getManagedProducer s key first.toRtPlatformDef with
      | .error _ => none
      | .ok s =>
        match sub.result with
        | .error (.panic _) => none
        | .error (.err _) => some s
        | .ok msg => some (s.setWaiting key (s.waiting key ++ [msg]))
  | .update key rtPlatDef =>
    match s.producers key with
    | none => some s
    | some mprod => some (s.setProducer key (updatePlatform mprod rtPlatDef.toRtPlatformDef).1)
  | .take key =>
    match s.producers key, s.waiting key with
    | some mprod, msg :: rest =>
      match handleMessage mprod msg with
      | .error _ => none
      | .ok _ => some (s.setWaiting key rest)
    | _, _ => some s

end Rocketcycle.Stream
