import Rocketcycle.Rkcy.Commands
import Rocketcycle.Rkcy.Trace

/-!
# Transactions

`pkg/rkcy/apecs_txn.go`: what a user submits, its expansion into an `ApecsTxn`, validation, and
the operations on the list of steps. Step indices are `int32` in the code; a published
transaction has far fewer steps than that.
-/

namespace Rocketcycle

open Command

inductive RevertType where
  | revertable
  | nonRevertable
  deriving DecidableEq, Repr

/-- A step as it is submitted, with what `proto.Marshal` answers for its payload. A zero
effective time is `none`. -/
structure TxnStep where
  concern : String
  command : String
  key : String
  payload : Except GoError (Option Bytes)
  effectiveTime : Option Int

/-- `rkcy.Txn`. -/
structure Txn where
  revert : RevertType
  steps : List TxnStep

def validateTxn (txn : Option Txn) : Except GoError Unit :=
  match txn with
  | none => .error (.other "Nil txn")
  | some txn =>
    if txn.steps.isEmpty then .error (.other "No steps in txn")
    else
      match txn.steps.find? fun s => isTxnProhibitedCommand s.command with
      | some s => .error (.other s!"Invalid step command: {s.command}")
      | none => .ok ()

/-- `RtApecsTxn`: a transaction with the trace parent of its message. -/
structure RtApecsTxn where
  txn : ApecsTxn
  traceParent : String
  deriving DecidableEq, Repr

/-- The steps a submitted step becomes: `CREATE` and `UPDATE` get a validation in front, and
`CREATE` itself turns into a storage step. -/
def expandStep (step : Step) : List Step :=
  let validateStep (command : String) : Step :=
    { system := .process, concern := step.concern, command := command, payload := step.payload,
      effectiveTime := step.effectiveTime }
  if step.system = .process && step.command = create then
    [validateStep validateCreate, { step with system := .storage }]
  else if step.system = .process && step.command = update then
    [validateStep validateUpdate, step]
  else [step]

def newApecsTxn (showTarget : TopicTarget → String) (txnId : String) (assocTxn : Option AssocTxn)
    (respTarget : Option TopicTarget) (uponError : UponError) (steps : List Step) :
    Except GoError ApecsTxn :=
  match respTarget with
  | some target =>
    if target.topic = "" || target.partition < 0 then
      .error (.other s!"NewApecsTxn TxnId={txnId} TopicTarget={showTarget target}: Invalid TopicTarget")
    else .ok { id := txnId, assocTxns := assocTxn.toList, responseTarget := respTarget,
               uponError := uponError, forwardSteps := steps.flatMap expandStep }
  | none => .ok { id := txnId, assocTxns := assocTxn.toList, responseTarget := none,
                  uponError := uponError, forwardSteps := steps.flatMap expandStep }

/-! ## The list of steps -/

def ApecsTxn.getSteps (txn : ApecsTxn) : List Step :=
  if txn.direction = .forward then txn.forwardSteps else txn.reverseSteps

def ApecsTxn.setSteps (txn : ApecsTxn) (steps : List Step) : ApecsTxn :=
  if txn.direction = .forward then { txn with forwardSteps := steps }
  else { txn with reverseSteps := steps }

/-- The loop of `InsertSteps` over the current steps, `newIdx` slots being filled. -/
def insertLoop (idx : Int) (steps : List Step) : List Step → Nat → List Step
  | [], _ => []
  | step :: rest, newIdx =>
    if (newIdx : Int) = idx then steps ++ step :: insertLoop idx steps rest (newIdx + steps.length + 1)
    else step :: insertLoop idx steps rest (newIdx + 1)

def ApecsTxn.insertSteps (txn : ApecsTxn) (idx : Int) (steps : List Step) : Except GoError ApecsTxn :=
  let currSteps := txn.getSteps
  if idx = currSteps.length then .ok (txn.setSteps (currSteps ++ steps))
  else if idx > currSteps.length then .error (.other "Index out of range")
  else .ok (txn.setSteps (insertLoop idx steps currSteps 0))

def ApecsTxn.replaceStep (txn : ApecsTxn) (idx : Int) (step : Step) : Except GoError ApecsTxn :=
  let currSteps := txn.getSteps
  if idx < 0 || idx ≥ currSteps.length then .error (.other "Index out of range")
  else .ok (txn.setSteps (currSteps.set idx.toNat step))

def ApecsTxn.canAdvance (txn : ApecsTxn) : Bool :=
  txn.currentStepIdx < txn.getSteps.length - 1

/-- `AdvanceStepIdx`: the transaction on its next step, if there is one. -/
def ApecsTxn.advanceStepIdx (txn : ApecsTxn) : Option ApecsTxn :=
  if txn.canAdvance then some { txn with currentStepIdx := txn.currentStepIdx + 1 } else none

/-- Indexing a slice, `none` being the panic. -/
def stepAt (steps : List Step) (idx : Int) : Option Step :=
  if idx < 0 then none else steps[idx.toNat]?

/-- `PreviousStep`: the outer `none` is the panic of the index, the inner one the first step's
missing predecessor. -/
def ApecsTxn.previousStep (txn : ApecsTxn) : Option (Option Step) :=
  if txn.currentStepIdx = 0 then some none
  else (stepAt txn.getSteps (txn.currentStepIdx - 1)).map some

def ApecsTxn.currentStep (txn : ApecsTxn) : Option Step := stepAt txn.getSteps txn.currentStepIdx

def ApecsTxn.firstForwardStep (txn : ApecsTxn) : Option Step := txn.forwardSteps[0]?

/-- Assignment through the pointer to step `idx`. -/
def ApecsTxn.setStep (txn : ApecsTxn) (idx : Int) (step : Step) : ApecsTxn :=
  txn.setSteps (txn.getSteps.set idx.toNat step)

/-- `ApecsTxnResult`: whether the transaction succeeded, the decoded payload and the result of its
current step. `none` is the panic of the index; an error of the decoding is only logged. -/
def apecsTxnResult {R : Type} (decodeResultPayload : String → System → String → Bytes → Except GoError R)
    (txn : ApecsTxn) : Option (Bool × Option R × Option StepResult) :=
  match txn.currentStep with
  | none => none
  | some step =>
    let success := txn.direction = .forward && txn.currentStepIdx = txn.forwardSteps.length - 1 &&
      (match step.result with
        | none => false
        | some r => r.code = .ok)
    let resProto :=
      match step.result with
      | none => none
      | some r =>
        match r.payload with
        | none => none
        | some payload => (decodeResultPayload step.concern step.system step.command payload).toOption
    some (success, resProto, step.result)

/-! ## Validation -/

/-- `System.String`. -/
def System.string : System → String
  | .noSystem => "NO_SYSTEM"
  | .process => "PROCESS"
  | .storage => "STORAGE"
  | .storageScnd => "STORAGE_SCND"
  | .unknown n => toString n

/-- The number a system has in the enumeration. -/
def System.number : System → Int
  | .noSystem => 0
  | .process => 1
  | .storage => 2
  | .storageScnd => 3
  | .unknown n => n

def validateSteps (txnId : String) (currentStepIdx : Int) (steps : List Step) (name : String) :
    Except GoError Unit :=
  if currentStepIdx ≥ steps.length then
    .error (.other s!"RtApecsTxn.validateSteps TxnId={txnId} CurrentStepIdx={currentStepIdx} len({name}Steps)={steps.length}: CurrentStepIdx out of bounds")
  else if steps.length = 0 then
    .error (.other s!"RtApecsTxn.validateSteps TxnId={txnId}: No {name} steps")
  else
    match steps.find? fun s => s.system ≠ .process && !isStorageSystem s.system with
    | some s => .error (.other s!"RtApecsTxn.validateSteps TxnId={txnId} System={s.system.string}: Invalid System")
    | none => .ok ()

def RtApecsTxn.validate (rtxn : RtApecsTxn) : Except GoError Unit :=
  let txn := rtxn.txn
  if txn.id = "" then .error (.other "ApecsTxn with no Id")
  else if txn.currentStepIdx < 0 then
    .error (.other s!"RtApecsTxn.validate TxnId={txn.id} CurrentStepIdx={txn.currentStepIdx}: Negative CurrentStep")
  else
    match txn.direction with
    | .forward => validateSteps txn.id txn.currentStepIdx txn.forwardSteps "Forward"
    | .reverse => validateSteps txn.id txn.currentStepIdx txn.reverseSteps "Reverse"
    | .unknown n => .error (.other s!"RtApecsTxn.validate TxnId={txn.id} Direction={n}: Invalid Direction")

/-- `NewRtApecsTxn`, the outer `none` being its panic on an invalid trace parent. -/
def newRtApecsTxn (txn : ApecsTxn) (traceParent : String) : Option (Except GoError RtApecsTxn) :=
  if !traceParentIsValid traceParent then none
  else
    let rtxn : RtApecsTxn := ⟨txn, traceParent⟩
    some (rtxn.validate.map fun _ => rtxn)

end Rocketcycle
