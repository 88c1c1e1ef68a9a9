import Rocketcycle.Concern.Crud
import Rocketcycle.Rkcy.HashFunc
import Rocketcycle.Rkcy.Topics

/-!
# A deployed platform

An accepted platform definition with the client code that serves it, and the whole system in
motion: the messages on the topics of transactions, the consumers of their partitions, each with
an instance store of its own, and the databases of the storage targets. One consumer serves a
partition; the storage consumers all serve the primary target and the secondary ones the same
secondary target.
-/

namespace Rocketcycle

variable {M : Type}

/-- What `NewRtPlatformDef` has accepted, as far as transactions depend on it. -/
structure Deployment (M : Type) where
  cc : ClientCode M
  /-- `CurrentTopicPartitionCount`, zero where there is no topic. -/
  partitions : String → System → Nat
  partitions_le : ∀ concern system, partitions concern system ≤ maxPartition
  generation : String → System → Int
  names : ∀ cnc ∈ cc.concerns, isValidName cnc.name = true
  primary : StorageTarget
  secondary : StorageTarget
  primary_found : cc.storageTargets primary.name = some primary ∧ primary.type ∈ cc.crudHandlers
  secondary_found : cc.storageTargets secondary.name = some secondary ∧ secondary.type ∈ cc.crudHandlers
  isPrimary : primary.isPrimary = true ∧ secondary.isPrimary = false
  types_ne : primary.type ≠ secondary.type

/-- A partition of one of the topics of transactions. -/
structure TopicPartition where
  concern : String
  system : System
  partition : Nat
  deriving DecidableEq, Repr

/-- The state of the system. The messages that no consumer has read yet are in the order of their
arrival, and `next` is the offset of the message that a consumer reads next. -/
structure Net (M : Type) where
  inFlight : List (TopicPartition × Publication)
  next : TopicPartition → Nat
  stores : TopicPartition → InstanceStore
  ramDbs : String → RamDb M
  completed : List Publication
  errors : List Publication

namespace Net

def setNext (net : Net M) (tp : TopicPartition) (n : Nat) : Net M :=
  { net with next := fun t => if t = tp then n else net.next t }

def setStore (net : Net M) (tp : TopicPartition) (store : InstanceStore) : Net M :=
  { net with stores := fun t => if t = tp then store else net.stores t }

/-- The oldest message of a partition, and the messages without it. -/
def take (net : Net M) (tp : TopicPartition) : Option (Publication × List (TopicPartition × Publication)) :=
  match net.inFlight.find? fun m => m.1 = tp with
  | none => none
  | some m => some (m.2, net.inFlight.eraseP fun m => m.1 = tp)

end Net

def TopicName.system : TopicName → Option System
  | .process => some .process
  | .storage => some .storage
  | .storageScnd => some .storageScnd
  | _ => none

/-- The longest byte field of a message. A Kafka message is shorter than that. -/
def maxMessageBytes : Nat := 2 ^ 31

def Step.fits (s : Step) : Bool :=
  (s.payload.getD []).length < maxMessageBytes && (s.inst.getD []).length < maxMessageBytes &&
    ((s.result.getD {}).payload.getD []).length < maxMessageBytes &&
    ((s.result.getD {}).inst.getD []).length < maxMessageBytes

def Publication.fits (p : Publication) : Bool := p.txn.forwardSteps.all Step.fits

/-- Whether the consumer ends itself after a message, to read it again when it is restarted. -/
def bailsOut (p : Publication) (code : Code) : Bool := p.txn.uponError = .bailout && isBailoutableCode code

/-- What happens next: a user submits a transaction, or the consumer of a partition reads its next
message, with the client code answering as `logic` does this time. -/
inductive Action (M : Type) where
  | submit (env : Env) (traceParent : String) (txn : Txn) (respTarget : Option TopicTarget)
  | consume (tp : TopicPartition) (env : Env) (logic : LogicHandler M)

def Action.isConsume : Action M → Bool
  | .submit .. => false
  | .consume .. => true

namespace Deployment

variable (d : Deployment M)

def target (system : System) : StorageTarget := if system = .storage then d.primary else d.secondary

/-- The partition a key is routed to (`prepKafkaMessage`). -/
def partitionOf (concern : String) (system : System) (hashKey : Bytes) : TopicPartition :=
  ⟨concern, system, fnv64Hash hashKey (d.partitions concern system)⟩

/-- A publication reaches its topic. Without a topic the producer ends the process, and a message
that is too large does not leave it: neither is a step of the system. -/
def deliver (net : Net M) (p : Publication) : Option (Net M) :=
  match p.dest with
  | .response _ => some net
  | .topic concern name =>
    match name.system with
    | some system =>
      if d.partitions concern system = 0 || !p.fits then none
      else some { net with inFlight := net.inFlight ++ [(d.partitionOf concern system p.hashKey, p)] }
    | none =>
      if name = .complete then some { net with completed := net.completed ++ [p] }
      else some { net with errors := net.errors ++ [p] }

def deliverAll (net : Net M) : List Publication → Option (Net M)
  | [] => some net
  | p :: ps =>
    match d.deliver net p with
    | none => none
    | some net => deliverAll net ps

def topicParts (tp : TopicPartition) : TopicParts :=
  ⟨tp.concern, tp.system, d.generation tp.concern tp.system⟩

/-- The compound offset of the message a consumer reads next. -/
def offset (net : Net M) (tp : TopicPartition) : CompoundOffset :=
  ⟨d.generation tp.concern tp.system, tp.partition, net.next tp⟩

/-- What the consumer of a partition makes of a message. -/
def outcome (net : Net M) (tp : TopicPartition) (env : Env) (logic : LogicHandler M) (p : Publication) :
    Outcome (Platform M) :=
  advanceApecsTxn env d.cc.pb Platform.instanceStore (handleCommand d.cc env logic)
    ⟨net.stores tp, net.ramDbs⟩ (d.target tp.system).name ⟨p.txn, p.traceParent⟩ (d.topicParts tp) (d.offset net tp)

/-- One message of a consumer. `none` is a crash of the process. -/
def consume (net : Net M) (tp : TopicPartition) (env : Env) (logic : LogicHandler M) : Option (Net M) :=
  match net.take tp with
  | none => none
  | some (p, inFlight) =>
    match newRtApecsTxn p.txn p.traceParent with
    | none => none
    | some (.error _) => some { net.setNext tp (net.next tp + 1) with inFlight := inFlight }
    | some (.ok _) =>
      let out := d.outcome net tp env logic p
      if out.fault.isSome then none
      else if bailsOut p out.code then
        -- the restarted consumer has an empty store and the same message before it
        d.deliverAll { net.setStore tp InstanceStore.new with ramDbs := out.state.ramDbs } out.published
      else
        d.deliverAll
          { (net.setNext tp (net.next tp + 1)).setStore tp out.state.instanceStore with
            inFlight := inFlight, ramDbs := out.state.ramDbs }
          out.published

def step (net : Net M) : Action M → Option (Net M)
  | .submit env traceParent txn respTarget =>
    match executeTxnAsync env traceParent (some txn) respTarget with
    | .error _ => none
    | .ok p => d.deliver net p
  | .consume tp env logic => d.consume net tp env logic

/-- The call of `handleCommand` in a step, with its result. -/
def called (net : Net M) : Action M → Option (Call × Option StepResult)
  | .submit .. => none
  | .consume tp env logic =>
    match net.take tp with
    | none => none
    | some (p, _) => (d.outcome net tp env logic p).call

end Deployment

/-! ## A small platform

Two concerns without relations, whose messages are their own bytes: the key is the first one, and
the command `Set` replaces the others, and answers nil. -/

def sampleMessage (name : String) : MessageType Bytes where
  encode := .ok
  decode := .ok
  name := name
  key m := String.ofList (m.take 1 |>.map fun b => Char.ofNat b.toNat)
  setKey m key := (stringBytes key).take 1 ++ m.drop 1

def sampleConcern (name : String) : Concern Bytes where
  toMessageType := sampleMessage name
  related := { encode := .ok, decode := .ok, empty := [], fields := [] }
  commands := [⟨"Set", some ⟨.ok, .ok⟩, some ⟨.ok, .ok⟩⟩]
  commands_free := by decide +kernel

def sampleLogic : LogicHandler Bytes where
  validateCreate m := .ok (some m)
  validateUpdate _ m := .ok (some m)
  command _ inst _ payload := .ok (inst.take 1 ++ payload.getD [], none)

def ClientCode.sample : ClientCode Bytes where
  concerns := [sampleConcern "Player", sampleConcern "Guild"]
  storageTargets name :=
    if name = "first" then some ⟨"first", "ramdb", true⟩
    else if name = "second" then some ⟨"second", "postgresql", false⟩ else none
  crudHandlers := ["ramdb", "postgresql"]
  pb := ⟨⟨fun _ => .ok [], fun _ => .error ""⟩, ⟨fun _ => .ok [], fun _ => .error ""⟩⟩

/-- The process topic of `Player` has `n` partitions, every other topic one. -/
def Deployment.sample (n : Nat) (h : n ≤ maxPartition) : Deployment Bytes where
  cc := .sample
  partitions concern system :=
    if concern = "Player" ∧ system = .process then n
    else if concern = "Player" ∨ concern = "Guild" then 1 else 0
  partitions_le concern system := by
    split
    · exact h
    · split <;> decide
  generation _ _ := 1
  names := by decide +kernel
  primary := ⟨"first", "ramdb", true⟩
  secondary := ⟨"second", "postgresql", false⟩
  primary_found := by decide +kernel
  secondary_found := by decide +kernel
  isPrimary := ⟨rfl, rfl⟩
  types_ne := by decide +kernel

def sampleStep (concern command key : String) (payload : Bytes) : TxnStep :=
  ⟨concern, command, key, .ok (some payload), none⟩

def sampleSubmit (uid : Bytes) (steps : List TxnStep) : Action Bytes :=
  .submit { Env.sample with uid := uid } sampleTraceParent ⟨.revertable, steps⟩ none

def sampleConsume (concern : String) (system : System) (partition : Nat) : Action Bytes :=
  .consume ⟨concern, system, partition⟩ Env.sample sampleLogic

/-- Nothing has happened yet. -/
def Net.new : Net M where
  inFlight := []
  next _ := 0
  stores _ := InstanceStore.new
  ramDbs _ := RamDb.new
  completed := []
  errors := []

/-- The message at offset 0 of the process topic of `Player` has been read, and one instance is known. -/
def Net.sample (cached : Option InstanceRecord) (stored : Option (Item Bytes)) : Net Bytes :=
  { (Net.new : Net Bytes) with
    next := fun tp => if tp = ⟨"Player", .process, 0⟩ then 1 else 0,
    stores := fun tp key => if tp = ⟨"Player", .process, 0⟩ ∧ key = "k" then cached else none,
    ramDbs := fun _ concern key => if concern = "Player" ∧ key = "k" then stored else none }

def Deployment.single : Deployment Bytes := .sample 1 (by decide)

end Rocketcycle
