import Rocketcycle.Lib.Formats
import Rocketcycle.Rkcy.ApecsTxn

/-!
# Transactions on the wire

The codec of the records that this model writes: `ApecsTxn` and the messages in it, and those that its
steps carry to related concerns, with the field numbers of `pkg/rkcypb/apecs.pb.go` and the encoding of
protobuf. It is one codec with a round trip, not `proto.Marshal` and `proto.Unmarshal` on every input:
the processed time of a result, which nothing reads, is left out, and of foreign bytes a severity or a
kind of association without a name and a group are refused, and unknown fields are dropped. A time is a
number of nanoseconds.
-/

namespace Rocketcycle

open Wire

/-! ## Enumerations -/

/-- The number of a direction on the wire. -/
def Direction.number : Direction → Int
  | .forward => 0
  | .reverse => 1
  | .unknown n => n

/-- A number without a name is kept. -/
def Direction.ofNumber : Int → Direction
  | 0 => .forward
  | 1 => .reverse
  | n => .unknown n

def System.ofNumber : Int → System
  | 0 => .noSystem
  | 1 => .process
  | 2 => .storage
  | 3 => .storageScnd
  | n => .unknown n

def UponError.number : UponError → Int
  | .report => 0
  | .revert => 1
  | .bailout => 2
  | .unknown n => n

def UponError.ofNumber : Int → UponError
  | 0 => .report
  | 1 => .revert
  | 2 => .bailout
  | n => .unknown n

def Severity.number : Severity → Int
  | .dbg => 0
  | .inf => 1
  | .wrn => 2
  | .err => 3

/-- A severity is one of the four that the log knows. -/
def Severity.ofNumber : Int → Option Severity
  | 0 => some .dbg
  | 1 => some .inf
  | 2 => some .wrn
  | 3 => some .err
  | _ => none

def AssocType.number : AssocType → Int
  | .undefined => 0
  | .parent => 1
  | .generatedStorage => 2
  | .secondaryStorage => 3

def AssocType.ofNumber : Int → Option AssocType
  | 0 => some .undefined
  | 1 => some .parent
  | 2 => some .generatedStorage
  | 3 => some .secondaryStorage
  | _ => none

def Code.number : Code → Int
  | .undefined => 0
  | .ok => 1
  | .internal => 2
  | .marshalFailed => 3
  | .notFound => 4
  | .connection => 5
  | .constraintViolation => 6
  | .unknownCommand => 7
  | .invalidArgument => 8
  | .notImplemented => 9
  | .nilResult => 10
  | .cancelled => 11
  | .stepAlreadyComplete => 12
  | .mismatchedConcern => 13
  | .mismatchedSystem => 14
  | .keyNotPresent => 15
  | .rkcyReservedMax => 32
  | .unknown n => n

/-- The codes of a handler are the numbers without a name. -/
def Code.ofNumber : Int → Code
  | 0 => .undefined
  | 1 => .ok
  | 2 => .internal
  | 3 => .marshalFailed
  | 4 => .notFound
  | 5 => .connection
  | 6 => .constraintViolation
  | 7 => .unknownCommand
  | 8 => .invalidArgument
  | 9 => .notImplemented
  | 10 => .nilResult
  | 11 => .cancelled
  | 12 => .stepAlreadyComplete
  | 13 => .mismatchedConcern
  | 14 => .mismatchedSystem
  | 15 => .keyNotPresent
  | 32 => .rkcyReservedMax
  | n => .unknown n

/-- No number of an open enumeration is lost, so that what is read is written alike. -/
theorem Direction.number_ofNumber (n : Int) : (Direction.ofNumber n).number = n := by
  unfold ofNumber
  split <;> rfl

theorem System.number_ofNumber (n : Int) : (System.ofNumber n).number = n := by
  unfold ofNumber
  split <;> rfl

theorem UponError.number_ofNumber (n : Int) : (UponError.ofNumber n).number = n := by
  unfold ofNumber
  split <;> rfl

theorem Code.number_ofNumber (n : Int) : (Code.ofNumber n).number = n := by
  unfold ofNumber
  split <;> rfl

theorem Severity.ofNumber_zero : ofNumber 0 = some .dbg := rfl

theorem AssocType.ofNumber_zero : ofNumber 0 = some .undefined := rfl

theorem Severity.number_ofNumber (n : Int) (sev : Severity) (h : ofNumber n = some sev) : sev.number = n := by
  unfold ofNumber at h
  split at h <;> cases h <;> rfl

theorem AssocType.number_ofNumber (n : Int) (type : AssocType) (h : ofNumber n = some type) : type.number = n := by
  unfold ofNumber at h
  split at h <;> cases h <;> rfl

/-! ## Fields -/

/-- `int32` and `int64` are both written with 64 bits. -/
def int32 : Wire.Field Int := .int 32 (by decide) (by decide)

def int64 : Wire.Field Int := .int 64 (by decide) (by decide)

/-- An enumeration that knows every number. -/
def openField {β : Type} (number : β → Int) (ofNumber : Int → β) (number_ofNumber : ∀ n, number (ofNumber n) = n) : Wire.Field β :=
  .enumeration number (fun n => some (ofNumber n)) (ofNumber 0) rfl fun n b h => by
    obtain rfl := Option.some.inj h
    exact number_ofNumber n

/-- The open enumerations of a transaction. -/
def directionField : Wire.Field Direction := openField Direction.number .ofNumber Direction.number_ofNumber

def systemField : Wire.Field System := openField System.number .ofNumber System.number_ofNumber

def uponErrorField : Wire.Field UponError := openField UponError.number .ofNumber UponError.number_ofNumber

def codeField : Wire.Field Code := openField Code.number .ofNumber Code.number_ofNumber

/-- The enumerations that refuse a number without a name. -/
def severityField : Wire.Field Severity := .enumeration Severity.number Severity.ofNumber .dbg Severity.ofNumber_zero Severity.number_ofNumber

def assocTypeField : Wire.Field AssocType := .enumeration AssocType.number AssocType.ofNumber .undefined AssocType.ofNumber_zero AssocType.number_ofNumber

/-! ## Messages -/

/-- `AssocTxn`. -/
def assocTxnFormat : Format AssocTxn :=
  .ofMembers ⟨"", .undefined⟩
    [.mk 1 .text (·.id) fun id a => { a with id }, .mk 2 assocTypeField (·.type) fun type a => { a with type }]
    (by decide) (by simp [assocTypeField]) (by simp [Member.Apart]) ⟨by simp⟩

/-- `TopicTarget`, to which a response goes. -/
def topicTargetFormat : Format TopicTarget :=
  .ofMembers ⟨"", "", 0⟩
    [.mk 1 .text (·.brokers) fun brokers a => { a with brokers },
     .mk 2 .text (·.topic) fun topic a => { a with topic },
     .mk 3 int32 (·.partition) fun partition a => { a with partition }]
    (by decide) (by simp [int32]) (by simp [Member.Apart]) ⟨by simp⟩

/-- `LogEvent`. Its text may have been cut, so it is kept by its bytes. -/
def logEventFormat : Format LogEvent :=
  .ofMembers ⟨.dbg, []⟩
    [.mk 1 severityField (·.sev) fun sev a => { a with sev }, .mk 2 .textBytes (·.msg) fun msg a => { a with msg }]
    (by decide) (by simp [severityField]) (by simp [Member.Apart]) ⟨by simp⟩

/-- `CompoundOffset`. -/
def compoundOffsetFormat : Format CompoundOffset :=
  .ofMembers ⟨0, 0, 0⟩
    [.mk 1 int32 (·.generation) fun generation a => { a with generation },
     .mk 2 int32 (·.partition) fun partition a => { a with partition },
     .mk 3 int64 (·.offset) fun offset a => { a with offset }]
    (by decide) (by simp [int32, int64]) (by simp [Member.Apart]) ⟨by simp⟩

/-- `Timestamp`: seconds and nanoseconds. -/
def timestampFormat : Format (Int × Int) :=
  .ofMembers (0, 0)
    [.mk 1 int64 (·.1) fun seconds a => (seconds, a.2), .mk 2 int32 (·.2) fun nanos a => (a.1, nanos)]
    (by decide) (by simp [int32, int64]) (by simp [Member.Apart]) ⟨by simp⟩

/-- `timestamppb.New` of a time in nanoseconds. -/
def newTimestamp (t : Int) : Int × Int := (t / 10 ^ 9, t % 10 ^ 9)

/-- `AsTime`. The seconds of a time are an `int64`. -/
def asTimestamp (a : Int × Int) : Option Int :=
  let t := a.1 * 10 ^ 9 + a.2
  if inBits 64 (t / 10 ^ 9) then some t else none

/-- A time crosses the wire as it is. -/
theorem asTimestamp_new {t : Int} (h : inBits 64 (t / 10 ^ 9) = true) : asTimestamp (newTimestamp t) = some t := by
  have same : t / 10 ^ 9 * 10 ^ 9 + t % 10 ^ 9 = t := by omega
  unfold asTimestamp newTimestamp
  simp only [same, h, if_true]

theorem timestampFormat_ok {a : Int × Int} : timestampFormat.ok a ↔ inBits 64 a.1 = true ∧ inBits 32 a.2 = true := by
  simp [timestampFormat, int32, int64]

theorem timestampFormat_norm (a : Int × Int) : timestampFormat.norm a = a := by
  simp [timestampFormat, takeOver, int32, int64]

/-- The nanoseconds are those of one second. -/
theorem newTimestamp_nanos (t : Int) : inBits 32 (newTimestamp t).2 = true := by
  have nonneg : 0 ≤ t % 10 ^ 9 := Int.emod_nonneg _ (by decide)
  have small : t % 10 ^ 9 < 10 ^ 9 := Int.emod_lt_of_pos _ (by decide)
  rw [inBits_iff]
  show -(2 ^ 31) ≤ t % 10 ^ 9 ∧ t % 10 ^ 9 < 2 ^ 31
  omega

/-- A time is sent as a `Timestamp`, and may be missing. -/
def timeField : Wire.Field (Option Int) :=
  .messageOf timestampFormat newTimestamp asTimestamp
    (fun t ok => by
      rw [timestampFormat_norm, asTimestamp_new (timestampFormat_ok.1 ok).1]
      rfl)
    (fun a t _ taken => by
      obtain ⟨inRange, same⟩ := Option.ite_none_right_eq_some.1 taken
      obtain rfl := Option.some.inj same
      exact ⟨timestampFormat_ok.2 ⟨inRange, newTimestamp_nanos _⟩, timestampFormat_norm _, asTimestamp_new inRange⟩)

theorem timeField_start : timeField.start = none := rfl

/-- `ApecsTxn_Step_Result`, without its processed time. -/
def resultFormat : Format StepResult :=
  .ofMembers {}
    [.mk 1 codeField (·.code) fun code a => { a with code },
     .mk 4 (.messages logEventFormat) (·.logEvents) fun logEvents a => { a with logEvents },
     .mk 5 .text (·.key) fun key a => { a with key },
     .mk 6 .bytes (·.payload) fun payload a => { a with payload },
     .mk 7 .bytes (·.inst) fun inst a => { a with inst },
     .mk 8 (.message compoundOffsetFormat) (·.cmpdOffset) fun cmpdOffset a => { a with cmpdOffset }]
    (by decide)
    (by simp [codeField, openField, Code.ofNumber])
    (by simp [Member.Apart]) ⟨by simp⟩

/-- `ApecsTxn_Step`. -/
def stepFormat : Format Step :=
  .ofMembers { system := .noSystem, concern := "", command := "" }
    [.mk 1 systemField (·.system) fun system a => { a with system },
     .mk 2 .text (·.concern) fun concern a => { a with concern },
     .mk 3 .text (·.command) fun command a => { a with command },
     .mk 4 .text (·.key) fun key a => { a with key },
     .mk 5 .bytes (·.payload) fun payload a => { a with payload },
     .mk 6 timeField (·.effectiveTime) fun effectiveTime a => { a with effectiveTime },
     .mk 7 (.message compoundOffsetFormat) (·.cmpdOffset) fun cmpdOffset a => { a with cmpdOffset },
     .mk 8 .bytes (·.inst) fun inst a => { a with inst },
     .mk 9 (.message resultFormat) (·.result) fun result a => { a with result }]
    (by decide)
    (by simp [timeField_start, systemField, openField, System.ofNumber])
    (by simp [Member.Apart]) ⟨by simp⟩

/-- `ApecsTxn`. -/
def txnFormat : Format ApecsTxn :=
  .ofMembers { id := "", uponError := .report, forwardSteps := [] }
    [.mk 1 .text (·.id) fun id a => { a with id },
     .mk 2 (.messages assocTxnFormat) (·.assocTxns) fun assocTxns a => { a with assocTxns },
     .mk 3 (.message topicTargetFormat) (·.responseTarget) fun responseTarget a => { a with responseTarget },
     .mk 4 int32 (·.currentStepIdx) fun currentStepIdx a => { a with currentStepIdx },
     .mk 5 directionField (·.direction) fun direction a => { a with direction },
     .mk 6 uponErrorField (·.uponError) fun uponError a => { a with uponError },
     .mk 7 (.messages stepFormat) (·.forwardSteps) fun forwardSteps a => { a with forwardSteps },
     .mk 8 (.messages stepFormat) (·.reverseSteps) fun reverseSteps a => { a with reverseSteps }]
    (by decide)
    (by simp [int32, directionField, uponErrorField, openField, Direction.ofNumber, UponError.ofNumber])
    (by simp [Member.Apart]) ⟨by simp⟩

/-- `RelatedRequest`. -/
def relatedRequestFormat : Format RelatedRequest :=
  .ofMembers ⟨"", "", "", none⟩
    [.mk 1 .text (·.concern) fun concern a => { a with concern },
     .mk 2 .text (·.key) fun key a => { a with key },
     .mk 3 .text (·.field) fun field a => { a with field },
     .mk 4 .bytes (·.payload) fun payload a => { a with payload }]
    (by decide) (by simp) (by simp [Member.Apart]) ⟨by simp⟩

/-- `RelatedResponse`. -/
def relatedResponseFormat : Format RelatedResponse :=
  .ofMembers ⟨"", "", none⟩
    [.mk 1 .text (·.concern) fun concern a => { a with concern },
     .mk 2 .text (·.field) fun field a => { a with field },
     .mk 3 .bytes (·.payload) fun payload a => { a with payload }]
    (by decide) (by simp) (by simp [Member.Apart]) ⟨by simp⟩

/-! ## What can be written -/

/-- The number of the value is one of 32 bits, and has no name that the value does not use. -/
def Direction.inRange (d : Direction) : Bool := inBits 32 d.number && decide (ofNumber d.number = d)

def System.inRange (s : System) : Bool := inBits 32 s.number && decide (ofNumber s.number = s)

def UponError.inRange (u : UponError) : Bool := inBits 32 u.number && decide (ofNumber u.number = u)

def Code.inRange (c : Code) : Bool := inBits 32 c.number && decide (ofNumber c.number = c)

/-- A partition is an `int32`. -/
def TopicTarget.inRange (t : TopicTarget) : Bool := inBits 32 t.partition

def CompoundOffset.inRange (o : CompoundOffset) : Bool :=
  inBits 32 o.generation && inBits 32 o.partition && inBits 64 o.offset

def StepResult.inRange (r : StepResult) : Bool := r.code.inRange && r.cmpdOffset.all CompoundOffset.inRange

/-- The numbers in a step and in its result are ones that their types have. -/
def Step.inRange (s : Step) : Bool :=
  s.system.inRange && s.effectiveTime.all (fun t => inBits 64 (t / 10 ^ 9)) && s.cmpdOffset.all CompoundOffset.inRange &&
    s.result.all StepResult.inRange

/-- The numbers are ones that their types have. -/
def ApecsTxn.inRange (txn : ApecsTxn) : Bool :=
  txn.responseTarget.all TopicTarget.inRange && inBits 32 txn.currentStepIdx && txn.direction.inRange &&
    txn.uponError.inRange && (txn.forwardSteps ++ txn.reverseSteps).all Step.inRange

/-- No text of the log is cut inside of a character. -/
def StepResult.validUtf8 (r : StepResult) : Bool := r.logEvents.all LogEvent.validUtf8

theorem assocTxnFormat_ok (a : AssocTxn) : assocTxnFormat.ok a := by
  have type : inBits 32 a.type.number = true ∧ AssocType.ofNumber a.type.number = some a.type := by cases a.type <;> decide
  simp [assocTxnFormat, assocTypeField, type]

theorem assocTxnFormat_norm (a : AssocTxn) : assocTxnFormat.norm a = a := by
  simp [assocTxnFormat, assocTypeField, takeOver]

/-- A format can write what is in range. -/
theorem topicTargetFormat_ok {a : TopicTarget} : topicTargetFormat.ok a ↔ a.inRange = true := by
  simp [topicTargetFormat, TopicTarget.inRange, int32]

theorem topicTargetFormat_norm (a : TopicTarget) : topicTargetFormat.norm a = a := by
  simp [topicTargetFormat, takeOver, int32]

theorem logEventFormat_ok {a : LogEvent} : logEventFormat.ok a ↔ a.validUtf8 = true := by
  have sev : inBits 32 a.sev.number = true ∧ Severity.ofNumber a.sev.number = some a.sev := by cases a.sev <;> decide
  simp [logEventFormat, severityField, sev, LogEvent.validUtf8, Field.isText]

theorem logEventFormat_norm (a : LogEvent) : logEventFormat.norm a = a := by
  simp [logEventFormat, severityField, takeOver]

theorem compoundOffsetFormat_ok {a : CompoundOffset} : compoundOffsetFormat.ok a ↔ a.inRange = true := by
  simp [compoundOffsetFormat, CompoundOffset.inRange, int32, int64, and_assoc]

theorem compoundOffsetFormat_norm (a : CompoundOffset) : compoundOffsetFormat.norm a = a := by
  simp [compoundOffsetFormat, takeOver, int32, int64]

theorem timeField_ok {t : Option Int} : timeField.ok t ↔ t.all (fun t => inBits 64 (t / 10 ^ 9)) = true := by
  have each : ∀ t, timestampFormat.ok (newTimestamp t) ↔ inBits 64 (t / 10 ^ 9) = true := fun t =>
    timestampFormat_ok.trans (and_iff_left (newTimestamp_nanos t))
  show (∀ x ∈ t, timestampFormat.ok (newTimestamp x)) ↔ _
  cases t <;> simp [each]

theorem timeField_norm {t : Option Int} (h : timeField.ok t) : timeField.norm t = t := by
  cases t with
  | none => rfl
  | some t =>
    have seconds := (timestampFormat_ok.1 (h t rfl)).1
    show asTimestamp (timestampFormat.norm (newTimestamp t)) = some t
    rw [timestampFormat_norm, asTimestamp_new seconds]

/-- An empty byte field is read as none. -/
theorem bytes_norm (b : Option Bytes) : Field.bytes.norm b = wireBytes b := by rcases b with _ | _ | _ <;> rfl

theorem codeField_ok {c : Code} : codeField.ok c ↔ c.inRange = true := by simp [codeField, openField, Code.inRange]

theorem systemField_ok {s : System} : systemField.ok s ↔ s.inRange = true := by simp [systemField, openField, System.inRange]

theorem directionField_ok {d : Direction} : directionField.ok d ↔ d.inRange = true := by
  simp [directionField, openField, Direction.inRange]

theorem uponErrorField_ok {u : UponError} : uponErrorField.ok u ↔ u.inRange = true := by
  simp [uponErrorField, openField, UponError.inRange]

/-- A result can be written if it is in range and its log is text. -/
theorem resultFormat_ok {a : StepResult} :
    resultFormat.ok a ↔ a.inRange = true ∧ a.logEvents.all LogEvent.validUtf8 = true := by
  simp only [resultFormat, Format.ofMembers_ok, List.forall_mem_cons, Field.messages_ok, Field.text_ok, Field.bytes_ok,
    Field.message_ok, codeField_ok, logEventFormat_ok, compoundOffsetFormat_ok, StepResult.inRange, Bool.and_eq_true,
    List.all_eq_true, Option.all_eq_true, Option.mem_def, List.not_mem_nil, false_implies, implies_true, true_and,
    and_true]
  constructor
  · rintro ⟨code, events, offset⟩
    exact ⟨⟨code, offset⟩, events⟩
  · rintro ⟨⟨code, offset⟩, events⟩
    exact ⟨code, events, offset⟩

/-- It is read back as the model has it behind the wire. -/
theorem resultFormat_norm (a : StepResult) : resultFormat.norm a = wireResult a := by
  have offset : a.cmpdOffset.map compoundOffsetFormat.norm = a.cmpdOffset := by
    cases a.cmpdOffset <;> simp [compoundOffsetFormat_norm]
  have events : a.logEvents.map logEventFormat.norm = a.logEvents := by
    rw [List.map_congr_left fun e _ => logEventFormat_norm e, List.map_id']
  simp [resultFormat, takeOver, codeField, openField, wireResult, bytes_norm, offset, events]

/-- A step can be written if it is in range and the log of its result is text. -/
theorem stepFormat_ok {a : Step} : stepFormat.ok a ↔ a.inRange = true ∧ a.validUtf8 = true := by
  have utf8 : a.validUtf8 = true ↔ ∀ r, a.result = some r → r.logEvents.all LogEvent.validUtf8 = true := by
    unfold Step.validUtf8
    cases a.result <;> simp
  simp only [stepFormat, Format.ofMembers_ok, List.forall_mem_cons, Field.text_ok, Field.bytes_ok, Field.message_ok,
    systemField_ok, timeField_ok, compoundOffsetFormat_ok, resultFormat_ok, Step.inRange, Bool.and_eq_true, utf8,
    Option.all_eq_true, Option.mem_def, List.not_mem_nil, false_implies, implies_true, true_and,
    and_true]
  constructor
  · rintro ⟨system, time, offset, result⟩
    exact ⟨⟨⟨⟨system, time⟩, offset⟩, fun r h => (result r h).1⟩, fun r h => (result r h).2⟩
  · rintro ⟨⟨⟨⟨system, time⟩, offset⟩, result⟩, utf8⟩
    exact ⟨system, time, offset, fun r h => ⟨result r h, utf8 r h⟩⟩

/-- A step is read back as the model has it behind the wire. -/
theorem stepFormat_norm {a : Step} (h : stepFormat.ok a) : stepFormat.norm a = wireStep a := by
  have offset : a.cmpdOffset.map compoundOffsetFormat.norm = a.cmpdOffset := by
    cases a.cmpdOffset <;> simp [compoundOffsetFormat_norm]
  have time : timeField.ok a.effectiveTime := by
    have ok := (stepFormat_ok.1 h).1
    simp only [Step.inRange, Bool.and_eq_true] at ok
    exact timeField_ok.2 ok.1.1.2
  have result : a.result.map resultFormat.norm = a.result.map wireResult := by
    cases a.result <;> simp [resultFormat_norm]
  simp [stepFormat, takeOver, systemField, openField, wireStep, bytes_norm, offset, result, timeField_norm time]

/-- A transaction can be written if it is in range and its logs are text. -/
theorem txnFormat_ok {a : ApecsTxn} :
    txnFormat.ok a ↔ a.inRange = true ∧ (a.forwardSteps ++ a.reverseSteps).all Step.validUtf8 = true := by
  simp only [txnFormat, Format.ofMembers_ok, List.forall_mem_cons, Field.messages_ok, Field.text_ok, Field.message_ok,
    int32, Field.int_ok, assocTxnFormat_ok, topicTargetFormat_ok, directionField_ok, uponErrorField_ok, stepFormat_ok,
    ApecsTxn.inRange, Bool.and_eq_true, List.all_append, List.all_eq_true, Option.all_eq_true, Option.mem_def,
    List.not_mem_nil, false_implies, implies_true, true_and, and_true]
  constructor
  · rintro ⟨target, idx, direction, uponError, forward, reverse⟩
    exact ⟨⟨⟨⟨⟨target, idx⟩, direction⟩, uponError⟩, fun s h => (forward s h).1, fun s h => (reverse s h).1⟩,
      fun s h => (forward s h).2, fun s h => (reverse s h).2⟩
  · rintro ⟨⟨⟨⟨⟨target, idx⟩, direction⟩, uponError⟩, forward, reverse⟩, forwardUtf8, reverseUtf8⟩
    exact ⟨target, idx, direction, uponError, fun s h => ⟨forward s h, forwardUtf8 s h⟩,
      fun s h => ⟨reverse s h, reverseUtf8 s h⟩⟩

/-- A transaction is read back as the model has it behind the wire. -/
theorem txnFormat_norm {a : ApecsTxn} (h : txnFormat.ok a) : txnFormat.norm a = wireTxn a := by
  have assocTxns : a.assocTxns.map assocTxnFormat.norm = a.assocTxns := by
    rw [List.map_congr_left fun b _ => assocTxnFormat_norm b, List.map_id']
  have target : a.responseTarget.map topicTargetFormat.norm = a.responseTarget := by
    cases a.responseTarget <;> simp [topicTargetFormat_norm]
  have steps : ∀ steps : List Step, (∀ s ∈ steps, stepFormat.ok s) → steps.map stepFormat.norm = steps.map wireStep :=
    fun steps ok => List.map_congr_left fun s hs => stepFormat_norm (ok s hs)
  have ok : (∀ s ∈ a.forwardSteps, stepFormat.ok s) ∧ ∀ s ∈ a.reverseSteps, stepFormat.ok s := by
    refine ⟨?_, ?_⟩
    · exact h (.mk 7 (.messages stepFormat) (·.forwardSteps) fun forwardSteps a => { a with forwardSteps }) (by simp)
    · exact h (.mk 8 (.messages stepFormat) (·.reverseSteps) fun reverseSteps a => { a with reverseSteps }) (by simp)
  simp [txnFormat, takeOver, int32, directionField, uponErrorField, openField, wireTxn, assocTxns, target, steps _ ok.1,
    steps _ ok.2]

/-! ## Marshalling -/

/-- `proto.Marshal`, of a transaction without processed times. Of its texts only those of the log can be
cut inside of a character. -/
def encodeTxn (txn : ApecsTxn) : Except GoError Bytes :=
  if (txn.forwardSteps ++ txn.reverseSteps).all Step.validUtf8 then .ok (txnFormat.encode txn)
  else .error (.other "string field contains invalid UTF-8")

/-- `proto.Unmarshal`, of what `encodeTxn` has written. The text of its error is not read anywhere. -/
def decodeTxn (value : Bytes) : Except GoError ApecsTxn :=
  match txnFormat.decode value with
  | some txn => .ok txn
  | none => .error (.other "cannot parse invalid wire-format data")

/-- What the model takes as one step, marshalling and unmarshalling, is what becomes of the bytes. -/
theorem decode_encodeTxn {txn : ApecsTxn} (h : txn.inRange = true) : encodeTxn txn >>= decodeTxn = marshalTxn txn := by
  unfold encodeTxn marshalTxn
  split
  · rename_i utf8
    have ok := txnFormat_ok.2 ⟨h, utf8⟩
    show decodeTxn (txnFormat.encode txn) = .ok (wireTxn txn)
    unfold decodeTxn
    rw [Format.decode_encode ok, txnFormat_norm ok]
  · rfl

/-- What has been read is in range, and crosses the wire as it is. -/
theorem decodeTxn_ok {value : Bytes} {txn : ApecsTxn} (h : decodeTxn value = .ok txn) :
    txn.inRange = true ∧ marshalTxn txn = .ok txn := by
  unfold decodeTxn at h
  split at h
  · rename_i read
    cases h
    obtain ⟨ok, norm⟩ := Format.decode_ok read
    obtain ⟨inRange, utf8⟩ := txnFormat_ok.1 ok
    refine ⟨inRange, ?_⟩
    unfold marshalTxn
    rw [if_pos utf8, ← txnFormat_norm ok, norm]
  · cases h

end Rocketcycle
