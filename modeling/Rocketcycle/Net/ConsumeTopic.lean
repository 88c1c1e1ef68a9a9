import Rocketcycle.Apecs.Asking
import Rocketcycle.Apecs.OneOutcome
import Rocketcycle.Net.Deployment
import Rocketcycle.Stream.Producing

/-!
# Reading a topic

What `consumeApecsTopic` of `pkg/apecs/apecs_runner.go` does with one message, from its headers and
bytes on (`pkg/rkcy/kafka.go`), and which messages end the process: in the consumer, or in the
goroutine of a producer that it starts for a concern that the platform lacks.
-/

namespace Rocketcycle

variable {M : Type}

/-- `kafka.Message`, as far as it is read. A header may have no value. -/
structure KafkaMessage where
  headers : List (String × Option Bytes)
  value : Bytes
  offset : Int

def directiveHeader : String := "rkcy-directive"

def traceParentHeader : String := "traceparent"

/-- `Directive_APECS_TXN`. -/
def directiveApecsTxn : Int := 524288

/-- The value of the first header with the key. -/
def findHeader (msg : KafkaMessage) (key : String) : Option Bytes :=
  match msg.headers.find? fun hdr => hdr.1 = key with
  | some hdr => hdr.2
  | none => none

/-- `BytesToInt` of the first four bytes, `none` being the panic of an index. -/
def bytesToInt : Bytes → Option Int
  | a :: b :: c :: d :: _ => some (a.toNat + 256 * b.toNat + 65536 * c.toNat + 16777216 * d.toNat)
  | _ => none

/-- `GetDirective`: the number is an `int32`. -/
def getDirective (msg : KafkaMessage) : Option Int :=
  match findHeader msg directiveHeader with
  | some val => (bytesToInt val).map fun n => n.bmod (2 ^ 32)
  | none => some 0

/-- The conversion `string(val)`. A Go string is one of bytes, of which the pattern of a trace parent
only matches ASCII. -/
def goString (val : Bytes) : String := String.ofList (val.map fun b => Char.ofNat b.toNat)

def getTraceParent (msg : KafkaMessage) : String :=
  match findHeader msg traceParentHeader with
  | some val => goString val
  | none => ""

/-- `proto.Unmarshal` of an `ApecsTxn`: it refuses a string that is not valid UTF-8. -/
structure TxnDecoder where
  unmarshal : Bytes → Except GoError ApecsTxn
  validUtf8 : ∀ value txn, unmarshal value = .ok txn → ∀ s ∈ txn.forwardSteps ++ txn.reverseSteps, s.validUtf8 = true

/-- What one iteration of the loop comes to. Unless the consumer bails out, the offset of the message is
stored. -/
structure Iteration (M : Type) where
  state : Platform M
  published : List Publication := []
  asked : List Asked := []
  bailsOut : Bool := false
  fault : Option Fault := none

section
variable (cc : ClientCode M) (decoder : TxnDecoder) (env : Env) (logic : LogicHandler M) (txnsToCancel : String → Bool)
  (storageTarget : String) (tp : TopicParts) (partition : Int)

/-- The transaction of a message that is a valid one. -/
def consumeTxn (plat : Platform M) (offset : Int) (rtxn : RtApecsTxn) : Iteration M :=
  if txnsToCancel rtxn.txn.id then
    let (published, fault) := cancelApecsTxn env rtxn
    { state := plat, published := published, asked := cancelAsked env rtxn, fault := fault }
  else
    let out := advanceApecsTxn env cc.pb Platform.instanceStore (handleCommand cc env logic) plat storageTarget rtxn tp
      ⟨tp.generation, partition, offset⟩
    { state := out.state, published := out.published, asked := out.asked, fault := out.fault,
      bailsOut := rtxn.txn.uponError = .bailout && isBailoutableCode out.code }

/-- The message handling of `consumeApecsTopic`, with its calls of producers as what it has asked for. -/
def consumeMessage (plat : Platform M) (msg : KafkaMessage) : Iteration M :=
  match getDirective msg with
  | none => { state := plat, fault := some .indexOutOfRange }
  | some directive =>
    if directive = directiveApecsTxn then
      match decoder.unmarshal msg.value with
      | .error _ => { state := plat }
      | .ok txn =>
        match newRtApecsTxn txn (getTraceParent msg) with
        | none => { state := plat, fault := some .invalidTraceParent }
        | some (.error _) => { state := plat }
        | some (.ok rtxn) => consumeTxn cc env logic txnsToCancel storageTarget tp partition plat msg.offset rtxn
    else { state := plat }

/-- The producers asked for over the message of a transaction. -/
def Asks (plat : Platform M) (offset : Int) (txn : ApecsTxn) (producer : Stream.Key) : Prop :=
  if txnsToCancel txn.id then ∃ cur, txn.currentStep = some cur ∧ producer = (cur.concern, .error)
  else AsksFor cc.pb Platform.instanceStore (handleCommand cc env logic) storageTarget plat txn tp
    ⟨tp.generation, partition, offset⟩ producer

/-- The message holds a transaction, and that is valid. -/
structure Holds (msg : KafkaMessage) (txn : ApecsTxn) : Prop where
  directive : getDirective msg = some directiveApecsTxn
  unmarshalled : decoder.unmarshal msg.value = .ok txn
  validated : (RtApecsTxn.mk txn (getTraceParent msg)).validate = .ok ()

end

section
variable {cc : ClientCode M} {decoder : TxnDecoder} {env : Env} {logic : LogicHandler M} {txnsToCancel : String → Bool}
  {storageTarget : String} {tp : TopicParts} {partition : Int} {plat : Platform M} {msg : KafkaMessage}

section
variable {txn : ApecsTxn} {traceParent : String} {offset : Int}

end

/-- What becomes of a message before anything is produced: it ends the process, is skipped, or holds a
transaction that is handled. -/
inductive Reads (cc : ClientCode M) (decoder : TxnDecoder) (env : Env) (logic : LogicHandler M) (txnsToCancel : String → Bool)
    (storageTarget : String) (tp : TopicParts) (partition : Int) (plat : Platform M) (msg : KafkaMessage) : Iteration M → Prop
  | garbled (val : Bytes) (header : findHeader msg directiveHeader = some val) (short : ¬4 ≤ val.length) {f : Fault} :
      Reads cc decoder env logic txnsToCancel storageTarget tp partition plat msg { state := plat, fault := some f }
  | untraced (txn : ApecsTxn) (directive : getDirective msg = some directiveApecsTxn)
      (unmarshalled : decoder.unmarshal msg.value = .ok txn) (invalid : traceParentIsValid (getTraceParent msg) = false) {f : Fault} :
      Reads cc decoder env logic txnsToCancel storageTarget tp partition plat msg { state := plat, fault := some f }
  | skipped (long : ∀ val, findHeader msg directiveHeader = some val → 4 ≤ val.length)
      (traceParent : getDirective msg = some directiveApecsTxn → ∀ txn, decoder.unmarshal msg.value = .ok txn →
        traceParentIsValid (getTraceParent msg) = true)
      (holdsNothing : ∀ txn, ¬Holds decoder msg txn) :
      Reads cc decoder env logic txnsToCancel storageTarget tp partition plat msg { state := plat }
  | handled (txn : ApecsTxn) (long : ∀ val, findHeader msg directiveHeader = some val → 4 ≤ val.length)
      (holds : Holds decoder msg txn) (received : Received txn (getTraceParent msg)) :
      Reads cc decoder env logic txnsToCancel storageTarget tp partition plat msg
        (consumeTxn cc env logic txnsToCancel storageTarget tp partition plat msg.offset ⟨txn, getTraceParent msg⟩)

end

/-- A step of a submitted transaction, or of one that has come back from storage. -/
def readOf (concern : String) : Step :=
  { system := .process, concern := concern, command := Command.read, key := "k", effectiveTime := some 0 }

/-- The transaction that is published of it. -/
def readTxn (concerns : List String) : ApecsTxn :=
  { id := traceIdFromTraceParent sampleTraceParent, uponError := .report, forwardSteps := concerns.map readOf }

/-- It decodes two transactions, and an empty one. -/
def TxnDecoder.sample : TxnDecoder where
  unmarshal value :=
    if value = [] then .ok { id := "", uponError := .report, forwardSteps := [] }
    else if value = [1] then .ok (readTxn ["Player"])
    else if value = [2] then .ok (readTxn ["Player", "Nobody"])
    else .error (.other "")
  validUtf8 value txn h := by
    split at h
    · cases h
      simp
    split at h
    · cases h
      decide
    split at h
    · cases h
      decide
    · cases h

/-- The instance is cached. -/
def samplePlatform : Platform Bytes :=
  ⟨fun key => if key = "k" then some ⟨some [107, 1], some [9], ⟨1, 0, 0⟩⟩ else none, fun _ => RamDb.new⟩

end Rocketcycle
