import Mathlib.Algebra.Group.Nat.Defs
import Mathlib.Tactic.Common

/-!
# The APECS messages

The protobuf messages of `pkg/rkcypb/apecs.pb.go`, one structure a message under the
source's field names. A Go `[]byte` is an `Option Bytes`, `none` for `nil`: the code tests
payloads and instances for `nil`, and an empty slice is not `nil` until it has crossed the
wire. Open proto3 enumerations keep an `unknown` constructor. `Step.inst` and
`StepResult.inst` are the fields named `Instance`; `ProcessedTime` is written and never read,
so it is left out.
-/

namespace Rocketcycle

abbrev Bytes := List UInt8

inductive Direction where
  | forward
  | reverse
  | unknown (n : Int)
  deriving DecidableEq, Repr

/-- The queue a step belongs to. -/
inductive System where
  | noSystem
  | process
  | storage
  | storageScnd
  | unknown (n : Int)
  deriving DecidableEq, Repr

inductive UponError where
  | report
  | revert
  | bailout
  | unknown (n : Int)
  deriving DecidableEq, Repr

inductive Severity where
  | dbg
  | inf
  | wrn
  | err
  deriving DecidableEq, Repr

/-- Step result codes. User defined codes lie above `RKCY_RESERVED_MAX`; every code without a
name of its own is an `unknown` one. -/
inductive Code where
  | undefined
  | ok
  | internal
  | marshalFailed
  | notFound
  | connection
  | constraintViolation
  | unknownCommand
  | invalidArgument
  | notImplemented
  | nilResult
  | cancelled
  | stepAlreadyComplete
  | mismatchedConcern
  | mismatchedSystem
  | keyNotPresent
  | rkcyReservedMax
  | unknown (n : Int)
  deriving DecidableEq, Repr

inductive AssocType where
  | undefined
  | parent
  | generatedStorage
  | secondaryStorage
  deriving DecidableEq, Repr

structure AssocTxn where
  id : String
  type : AssocType
  deriving DecidableEq, Repr

structure TopicTarget where
  brokers : String
  topic : String
  partition : Int
  deriving DecidableEq, Repr

/-- A log event. The text is a byte string: `LogResult` cuts it at a byte count. -/
structure LogEvent where
  sev : Severity
  msg : Bytes
  deriving DecidableEq, Repr

/-- The position of a process message: topic generation, partition and offset. -/
structure CompoundOffset where
  generation : Int
  partition : Int
  offset : Int
  deriving DecidableEq, Repr

structure RelatedRequest where
  concern : String
  key : String
  field : String
  payload : Option Bytes
  deriving DecidableEq, Repr

structure RelatedResponse where
  concern : String
  field : String
  payload : Option Bytes
  deriving DecidableEq, Repr

/-- `ApecsTxn_Step_Result`. -/
structure StepResult where
  code : Code := .undefined
  logEvents : List LogEvent := []
  /-- If present, this key should be used in the next step. -/
  key : String := ""
  payload : Option Bytes := none
  inst : Option Bytes := none
  cmpdOffset : Option CompoundOffset := none
  deriving DecidableEq, Repr

/-- `ApecsTxn_Step`. -/
structure Step where
  system : System
  concern : String
  command : String
  key : String := ""
  payload : Option Bytes := none
  effectiveTime : Option Int := none
  /-- When not nil, the process topic offset associated with the step. -/
  cmpdOffset : Option CompoundOffset := none
  inst : Option Bytes := none
  result : Option StepResult := none
  deriving DecidableEq, Repr

structure ApecsTxn where
  id : String
  assocTxns : List AssocTxn := []
  responseTarget : Option TopicTarget := none
  currentStepIdx : Int := 0
  direction : Direction := .forward
  uponError : UponError
  forwardSteps : List Step
  reverseSteps : List Step := []
  deriving DecidableEq, Repr

/-- A Go `error`: an `rkcy.Error` with its code, or any other error value. -/
inductive GoError where
  | rkcy (code : Code) (msg : String)
  | other (msg : String)
  deriving DecidableEq, Repr

/-- What ends the process or its goroutine instead of returning. -/
inductive Fault where
  | nilDeref
  | indexOutOfRange
  | packedPayload
  | invalidTraceParent
  | typeAssertion
  | handler
  | logFatal (err : GoError)
  deriving DecidableEq, Repr

/-- A call that did not return a value: it returned an error, or it panicked. -/
inductive Trouble where
  | err (e : GoError)
  | panic (f : Fault)
  deriving DecidableEq, Repr

/-- What a Go function that may panic answers. -/
abbrev Reply := Except Trouble

/-- The wire format of one message type. Its errors are texts, never `rkcy` errors. -/
structure Codec (α : Type) where
  encode : α → Except String Bytes
  decode : Bytes → Except String α

/-- `proto.Marshal` at one message type. -/
def Codec.marshal {α : Type} (codec : Codec α) (a : α) : Except GoError Bytes :=
  (codec.encode a).mapError .other

/-- `proto.Unmarshal` at one message type. -/
def Codec.unmarshal {α : Type} (codec : Codec α) (b : Bytes) : Except GoError α :=
  (codec.decode b).mapError .other

/-- Unmarshalling reads a `nil` slice as an empty one. -/
def Codec.unmarshalOpt {α : Type} (codec : Codec α) (b : Option Bytes) : Except GoError α :=
  codec.unmarshal (b.getD [])

/-- Marshalling through a pointer: a `nil` message has no bytes. -/
def Codec.marshalOpt {α : Type} (codec : Codec α) : Option α → Except GoError (Option Bytes)
  | none => .ok none
  | some a => (codec.marshal a).map some

/-! ## Across the wire

`proto.Marshal` and `proto.Unmarshal` of an `ApecsTxn`. A proto3 `bytes` field of length zero
is not encoded, so an empty slice arrives as `nil`; every other field arrives as it was sent.
Marshalling refuses a string field that is not valid UTF-8. The strings of the model are
Unicode by construction except the texts of log events. -/

/-- A `bytes` field as the receiver sees it. -/
def wireBytes : Option Bytes → Option Bytes
  | some [] => none
  | b => b

def wireResult (r : StepResult) : StepResult :=
  { r with payload := wireBytes r.payload, inst := wireBytes r.inst }

def wireStep (s : Step) : Step :=
  { s with payload := wireBytes s.payload, inst := wireBytes s.inst,
           result := s.result.map wireResult }

/-- The transaction as the receiver unmarshals it. -/
def wireTxn (txn : ApecsTxn) : ApecsTxn :=
  { txn with forwardSteps := txn.forwardSteps.map wireStep,
             reverseSteps := txn.reverseSteps.map wireStep }

def LogEvent.validUtf8 (e : LogEvent) : Bool := (ByteArray.mk e.msg.toArray).validateUTF8

def Step.validUtf8 (s : Step) : Bool :=
  match s.result with
  | none => true
  | some r => r.logEvents.all LogEvent.validUtf8

/-- `proto.Marshal` then `proto.Unmarshal`: the sender's error, or the receiver's value. -/
def marshalTxn (txn : ApecsTxn) : Except GoError ApecsTxn :=
  if (txn.forwardSteps ++ txn.reverseSteps).all Step.validUtf8 then .ok (wireTxn txn)
  else .error (.other "string field contains invalid UTF-8")

@[simp] theorem wireBytes_none : wireBytes none = none := rfl

@[simp] theorem wireBytes_wireBytes (b : Option Bytes) : wireBytes (wireBytes b) = wireBytes b := by
  rcases b with _ | _ | _ <;> rfl

theorem wireBytes_eq_some {b : Option Bytes} {v : Bytes} :
    wireBytes b = some v ↔ b = some v ∧ v ≠ [] := by
  rcases b with _ | _ | _ <;> simp [wireBytes]
  rintro rfl
  simp

theorem unmarshalOpt_wire {α : Type} (codec : Codec α) (b : Option Bytes) :
    codec.unmarshalOpt (wireBytes b) = codec.unmarshalOpt b := by
  rcases b with _ | _ | _ <;> rfl

@[simp] theorem wireStep_system (s : Step) : (wireStep s).system = s.system := rfl
@[simp] theorem wireStep_concern (s : Step) : (wireStep s).concern = s.concern := rfl
@[simp] theorem wireStep_command (s : Step) : (wireStep s).command = s.command := rfl
@[simp] theorem wireStep_key (s : Step) : (wireStep s).key = s.key := rfl
@[simp] theorem wireStep_effectiveTime (s : Step) : (wireStep s).effectiveTime = s.effectiveTime := rfl
@[simp] theorem wireStep_cmpdOffset (s : Step) : (wireStep s).cmpdOffset = s.cmpdOffset := rfl
@[simp] theorem wireStep_payload (s : Step) : (wireStep s).payload = wireBytes s.payload := rfl
@[simp] theorem wireStep_inst (s : Step) : (wireStep s).inst = wireBytes s.inst := rfl
@[simp] theorem wireStep_result (s : Step) : (wireStep s).result = s.result.map wireResult := rfl
@[simp] theorem wireResult_code (r : StepResult) : (wireResult r).code = r.code := rfl
@[simp] theorem wireResult_key (r : StepResult) : (wireResult r).key = r.key := rfl
@[simp] theorem wireResult_payload (r : StepResult) : (wireResult r).payload = wireBytes r.payload := rfl
@[simp] theorem wireResult_inst (r : StepResult) : (wireResult r).inst = wireBytes r.inst := rfl
@[simp] theorem wireResult_logEvents (r : StepResult) : (wireResult r).logEvents = r.logEvents := rfl

/-- What arrives is the sent transaction with its empty byte fields turned into `nil`. -/
theorem marshalTxn_ok {txn out : ApecsTxn} (h : marshalTxn txn = .ok out) : out = wireTxn txn := by
  unfold marshalTxn at h
  split at h
  · exact (Except.ok.inj h).symm
  · cases h

end Rocketcycle
