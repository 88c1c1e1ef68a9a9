import Rocketcycle.Rkcy.ApecsTxn
import Rocketcycle.Rkcy.InstanceStore
import Rocketcycle.Rkcy.Logging

/-!
# Producing messages

`pkg/apecs/apecs.go`. A producer call becomes a `Publication`: the topic by concern and name,
the bytes that pick the partition, and the transaction as its reader unmarshals it.
`GetManagedProducer` returns a producer for every concern and topic (`NewManagedProducer` never
returns nil), so it adds no error; but the goroutine of a producer whose topic the platform lacks
ends the process. So each call also leaves behind what it has asked for (`Asked`).
-/

namespace Rocketcycle

/-- `StandardTopicName`, as far as transactions travel on them. -/
inductive TopicName where
  | process
  | storage
  | storageScnd
  | error
  | complete
  deriving DecidableEq, Repr

inductive Dest where
  | topic (concern : String) (name : TopicName)
  | response (target : TopicTarget)
  deriving DecidableEq, Repr

structure Publication where
  dest : Dest
  hashKey : Bytes
  traceParent : String
  txn : ApecsTxn
  deriving DecidableEq, Repr

/-- A call of `GetManagedProducer`, with the text that `ProduceError` has logged in front of it and
what is handed on behind it. -/
structure Asked where
  concern : String
  topic : TopicName
  logged : Option String := none
  sent : List Publication := []
  deriving DecidableEq, Repr

def Publication.isComplete (p : Publication) : Bool :=
  match p.dest with
  | .topic _ .complete => true
  | _ => false

def Publication.isError (p : Publication) : Bool :=
  match p.dest with
  | .topic _ .error => true
  | _ => false

/-- What one call takes from outside the program: fresh identifiers, the clock, the order in
which a map is iterated, and the renderings that only reach log texts. -/
structure Env where
  /-- `uuid.NewRandom`, routing a keyless step. -/
  uid : Bytes
  /-- `uuid.NewString`, the key of a created instance. -/
  newKey : String
  /-- `NewTraceId`, by the order of the calls. -/
  traceId : Nat → String
  now : Int
  storageOrder : List Step → List Step
  storageOrder_perm : ∀ l, (storageOrder l).Perm l
  sprintf : String → String
  showStep : Step → String
  showResult : StepResult → String
  showTarget : TopicTarget → String
  showTargets : String

/-- An environment for runs on concrete inputs. -/
def Env.sample : Env where
  uid := [1]
  newKey := "new"
  traceId n := s!"child{n}"
  now := 0
  storageOrder := id
  storageOrder_perm _ := .refl _
  sprintf := id
  showStep _ := "\x7b\x7d"
  showResult _ := ""
  showTarget _ := ""
  showTargets := ""

def sampleTraceParent : String := "00-0123456789abcdef0123456789abcdef-0123456789abcdef-01"

def systemToTopic : System → Option TopicName
  | .process => some .process
  | .storage => some .storage
  | .storageScnd => some .storageScnd
  | _ => none

def stringBytes (s : String) : Bytes := s.toUTF8.toList

section
variable (env : Env)

def produceResponse (rtxn : RtApecsTxn) (wire : ApecsTxn) : List Publication :=
  match rtxn.txn.responseTarget with
  | none => []
  | some target => [⟨.response target, [], rtxn.traceParent, wire⟩]

/-- `ProduceError` on a step that `put` writes back into the transaction. A transaction that
cannot be marshalled is not published, and the caller only logs that. -/
def produceError (rtxn : RtApecsTxn) (step : Step) (put : Step → ApecsTxn) (code : Code)
    (logToResult : Bool) (msg : String) : List Publication :=
  let rslt : StepResult := step.result.getD { code := code }
  let rslt := if logToResult then logResultError env.sprintf rslt msg else rslt
  let rtxn := { rtxn with txn := put { step with result := some rslt } }
  match marshalTxn rtxn.txn with
  | .error _ => []
  | .ok wire =>
    ⟨.topic step.concern .error, stringBytes step.key, rtxn.traceParent, wire⟩ ::
      produceResponse rtxn wire

/-- `ProduceError` without a step: the first forward step is taken, and the text says so. -/
def produceErrorDefault (rtxn : RtApecsTxn) (code : Code) (logToResult : Bool) (msg : String) :
    Except Fault (List Publication) :=
  match rtxn.txn.firstForwardStep with
  | none => .error .indexOutOfRange
  | some step =>
    .ok (produceError env rtxn step (fun s => { rtxn.txn with forwardSteps := rtxn.txn.forwardSteps.set 0 s })
      code logToResult ("DEFAULTING TO FIRST FORWARD STEP FOR LOGGING!!! - " ++ msg))

/-- The call of `GetManagedProducer` in `ProduceError`. -/
def errorAsked (rtxn : RtApecsTxn) (step : Step) (put : Step → ApecsTxn) (code : Code)
    (logToResult : Bool) (msg : String) : Asked where
  concern := step.concern
  topic := .error
  logged := if logToResult then some msg else none
  sent := produceError env rtxn step put code logToResult msg

/-- That of `ProduceError` without a step. -/
def errorDefaultAsked (rtxn : RtApecsTxn) (code : Code) (logToResult : Bool) (msg : String) : List Asked :=
  match rtxn.txn.firstForwardStep with
  | none => []
  | some step =>
    [errorAsked env rtxn step (fun s => { rtxn.txn with forwardSteps := rtxn.txn.forwardSteps.set 0 s })
      code logToResult ("DEFAULTING TO FIRST FORWARD STEP FOR LOGGING!!! - " ++ msg)]

/-- `ProduceComplete`, on the concern of the first step. -/
def produceComplete (rtxn : RtApecsTxn) : Reply (List Publication) :=
  match rtxn.txn.firstForwardStep with
  | none => .error (.panic .indexOutOfRange)
  | some step =>
    match marshalTxn rtxn.txn with
    | .error e => .error (.err e)
    | .ok wire =>
      .ok (⟨.topic step.concern .complete, stringBytes step.key, rtxn.traceParent, wire⟩ ::
        produceResponse rtxn wire)

/-- The call of `GetManagedProducer` in `ProduceComplete`. -/
def completeAsked (rtxn : RtApecsTxn) : List Asked :=
  match rtxn.txn.firstForwardStep with
  | none => []
  | some step =>
    let sent := match produceComplete rtxn with
      | .ok pubs => pubs
      | .error _ => []
    [{ concern := step.concern, topic := .complete, sent := sent }]

/-- `ProduceCurrentStep` up to its call of `GetManagedProducer`. -/
def producerKey (txn : ApecsTxn) (traceParent : String) : Reply (String × TopicName) :=
  match newRtApecsTxn txn traceParent with
  | none => .error (.panic .invalidTraceParent)
  | some (.error e) => .error (.err e)
  | some (.ok rtxn) =>
    match rtxn.txn.currentStep with
    | none => .error (.panic .indexOutOfRange)
    | some step =>
      match systemToTopic step.system with
      | none =>
        .error (.err (.other s!"ProduceCurrentStep TxnId={txn.id} System={step.system.string}: Invalid System"))
      | some topic => .ok (step.concern, topic)

def produceCurrentStep (txn : ApecsTxn) (traceParent : String) : Reply Publication :=
  match newRtApecsTxn txn traceParent with
  | none => .error (.panic .invalidTraceParent)
  | some (.error e) => .error (.err e)
  | some (.ok rtxn) =>
    match rtxn.txn.currentStep with
    | none => .error (.panic .indexOutOfRange)
    | some step =>
      match systemToTopic step.system with
      | none =>
        .error (.err (.other s!"ProduceCurrentStep TxnId={txn.id} System={step.system.string}: Invalid System"))
      | some topic =>
        match marshalTxn txn with
        | .error e => .error (.err e)
        | .ok wire =>
          let hashKey := if !step.isKeylessStep then stringBytes step.key else env.uid
          .ok ⟨.topic step.concern topic, hashKey, traceParent, wire⟩

/-- The call of `GetManagedProducer` in `ProduceCurrentStep`, if it comes to that. -/
def currentStepAsked (txn : ApecsTxn) (traceParent : String) : List Asked :=
  match producerKey txn traceParent with
  | .error _ => []
  | .ok (concern, topic) =>
    let sent := match produceCurrentStep env txn traceParent with
      | .ok p => [p]
      | .error _ => []
    [{ concern := concern, topic := topic, sent := sent }]

def executeTxn (txnId : String) (assocTxn : Option AssocTxn) (traceParent : String)
    (uponError : UponError) (steps : List Step) (respTarget : Option TopicTarget) : Reply Publication :=
  match newApecsTxn env.showTarget txnId assocTxn respTarget uponError steps with
  | .error e => .error (.err e)
  | .ok txn => produceCurrentStep env txn traceParent

/-! ## Submission -/

structure PreparedApecsSteps where
  traceParent : String
  txnId : String
  uponError : UponError
  steps : List Step

/-- One step of `prepareApecsSteps`. -/
def prepareStep (step : TxnStep) : Except GoError Step :=
  match step.payload with
  | .error e => .error e
  | .ok payload =>
    .ok { system := .process, concern := step.concern, command := step.command, key := step.key,
          payload := payload, effectiveTime := some (step.effectiveTime.getD env.now) }

/-- `traceParent` is what `ExtractTraceParent` reads from the context, empty when it has no span. -/
def prepareApecsSteps (traceParent : String) (txn : Option Txn) : Except GoError PreparedApecsSteps :=
  match validateTxn txn, txn with
  | .error e, _ => .error e
  | .ok _, none => .error (.other "Nil txn")
  | .ok _, some txn =>
    if traceParent = "" then .error (.other "No SpanContext present in ctx")
    else
      match txn.steps.mapM (prepareStep env) with
      | .error e => .error e
      | .ok steps =>
        .ok { traceParent := traceParent, txnId := traceIdFromTraceParent traceParent,
              uponError := if txn.revert = .revertable then .revert else .report, steps := steps }

/-- `ExecuteTxnAsync`, and the publishing half of `ExecuteTxnSync`. -/
def executeTxnAsync (traceParent : String) (txn : Option Txn) (respTarget : Option TopicTarget) :
    Reply Publication :=
  match prepareApecsSteps env traceParent txn with
  | .error e => .error (.err e)
  | .ok prep => executeTxn env prep.txnId none prep.traceParent prep.uponError prep.steps respTarget

end

end Rocketcycle
