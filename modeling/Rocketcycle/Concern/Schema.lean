import Rocketcycle.Apecs.Runner
import Rocketcycle.Lib.EarlyReturn

/-!
# Concerns

What the code generator knows of a concern, and what a platform's client code registers. All
messages are of one type `M`, as they are of `proto.Message`; a message type is its codec and its
accessors. A field of a related message is listed when its type is a concern: the generated code
does nothing with the others.
-/

namespace Rocketcycle

/-- A message with a key field. -/
structure MessageType (M : Type) extends Codec M where
  name : String
  key : M → String
  setKey : M → String → M

/-- `RelatedField` of `cmd/protoc-gen-rkcy`. A field that is not repeated holds at most one
message. -/
structure RelatedField (M : Type) where
  nameGo : String
  typeMsg : MessageType M
  /-- `IdFieldGo`, the field of the instance that names the related one. -/
  idField : Option (M → String)
  relField : Option String
  isRepeated : Bool
  get : M → List M
  set : M → List M → M

def RelatedField.isPureRelCnc {M : Type} (fld : RelatedField M) : Bool :=
  fld.relField.isSome && fld.idField.isNone

structure RelatedMessage (M : Type) extends Codec M where
  /-- `&Related{}`. -/
  empty : M
  fields : List (RelatedField M)

/-- A command of the concern's service, with the types of its input and output. -/
structure ConcernCommand (M : Type) where
  name : String
  input : Option (Codec M)
  output : Option (Codec M)

structure Concern (M : Type) extends MessageType M where
  related : RelatedMessage M
  commands : List (ConcernCommand M)
  /-- A reserved name is refused as the name of a command. -/
  commands_free : ∀ cmd ∈ commands, isReservedCommand cmd.name = false

/-- The registered logic of a concern. A command alters the instance it is given and may answer
a message; a pointer it answers may be `nil`. -/
structure LogicHandler (M : Type) where
  validateCreate : M → Reply (Option M)
  validateUpdate : M → M → Reply (Option M)
  command : String → M → M → Option M → Reply (M × Option M)

structure StorageTarget where
  name : String
  type : String
  isPrimary : Bool
  deriving DecidableEq, Repr

/-- What is registered in every process: the concerns, the storage targets by name, and the
storage types that have a handler. -/
structure ClientCode (M : Type) where
  concerns : List (Concern M)
  storageTargets : String → Option StorageTarget
  crudHandlers : List String
  pb : RelatedCodecs

def ClientCode.concernHandler {M : Type} (cc : ClientCode M) (concern : String) : Option (Concern M) :=
  cc.concerns.find? fun cnc => cnc.name = concern

theorem ClientCode.concernHandler_name {M : Type} {cc : ClientCode M} {concern : String} {cnc : Concern M}
    (h : cc.concernHandler concern = some cnc) : cnc.name = concern := by
  simpa using List.find?_some h

/-! ## Results of a command -/

/-- What ends a handler early: a result, or a panic. -/
inductive Stop where
  | fail (rslt : StepResult)
  | panic

abbrev Handling (σ : Type) := ExceptT Stop (StateM σ)

/-- What a handler answers: the result of the step, and the steps to run after it. -/
abbrev Answer := StepResult × List Step

section
variable {σ α : Type} (env : Env)

/-- `SetStepResult` on an error, and return. -/
def orFail (rslt : StepResult) : Except GoError α → Handling σ α
  | .ok a => pure a
  | .error e => throw (.fail (setStepResult env.sprintf rslt e))

def orPanic : Option α → Handling σ α
  | some a => pure a
  | none => throw .panic

def orStop (rslt : StepResult) : Reply α → Handling σ α
  | .ok a => pure a
  | .error (.err e) => throw (.fail (setStepResult env.sprintf rslt e))
  | .error (.panic _) => throw .panic

end

/-- What becomes of the end of a handler: a result without a code is `OK`, and a recovered panic
answers `nil`. -/
def answerOf : Except Stop Answer → Option StepResult × List Step
  | .ok (rslt, addSteps) => (some (if rslt.code = .undefined then { rslt with code := .ok } else rslt), addSteps)
  | .error (.fail rslt) => (some rslt, [])
  | .error .panic => (none, [])

def finish {σ : Type} (m : Handling σ Answer) (s : σ) : (Option StepResult × List Step) × σ :=
  (answerOf (Early.exec m s).1, (Early.exec m s).2)

/-! ## Errors that are not the platform's own -/

/-- A function whose errors are plain ones, which read as `INTERNAL` in a result. -/
def PlainErrors {α : Type} (x : Except GoError α) : Prop := ∀ e, x = .error e → ∃ msg, e = .other msg

theorem Codec.marshal_plain {α : Type} (codec : Codec α) (a : α) : PlainErrors (codec.marshal a) := by
  intro e h
  unfold Codec.marshal at h
  cases hc : codec.encode a with
  | error msg => rw [hc] at h; cases h; exact ⟨msg, rfl⟩
  | ok b => rw [hc] at h; cases h

theorem Codec.unmarshal_plain {α : Type} (codec : Codec α) (b : Bytes) : PlainErrors (codec.unmarshal b) := by
  intro e h
  unfold Codec.unmarshal at h
  cases hc : codec.decode b with
  | error msg => rw [hc] at h; cases h; exact ⟨msg, rfl⟩
  | ok a => rw [hc] at h; cases h

theorem Codec.unmarshalOpt_plain {α : Type} (codec : Codec α) (b : Option Bytes) :
    PlainErrors (codec.unmarshalOpt b) := codec.unmarshal_plain _

theorem PlainErrors.map {α β : Type} {x : Except GoError α} (h : PlainErrors x) (f : α → β) :
    PlainErrors (x.map f) := by
  intro e he
  cases x with
  | error e' => cases he; exact h e rfl
  | ok a => cases he

theorem Codec.marshalOpt_plain {α : Type} (codec : Codec α) (a : Option α) : PlainErrors (codec.marshalOpt a) := by
  cases a with
  | none =>
    rintro e ⟨⟩
  | some a => exact (codec.marshal_plain a).map some

theorem PlainErrors.bind {α β : Type} {x : Except GoError α} {f : α → Except GoError β} (h : PlainErrors x)
    (hf : ∀ a, PlainErrors (f a)) : PlainErrors (x >>= f) := by
  intro e he
  cases x with
  | error e' => cases he; exact h e rfl
  | ok a => exact hf a e he

theorem plainErrors_other {α : Type} (msg : String) : PlainErrors (.error (.other msg) : Except GoError α) := by
  rintro e ⟨⟩
  exact ⟨msg, rfl⟩

theorem plainErrors_ok {α : Type} (a : α) : PlainErrors (.ok a : Except GoError α) := by
  rintro e ⟨⟩

theorem unpackPayloads_plain (packed : Option Bytes) : PlainErrors (unpackPayloads packed) := by
  unfold unpackPayloads
  dsimp only
  split
  · exact plainErrors_other _
  split
  · exact plainErrors_other _
  split
  · exact plainErrors_other _
  split
  · exact plainErrors_other _
  · exact plainErrors_ok _

theorem parsePayload_plain (payload : Option Bytes) : PlainErrors (parsePayload payload) := by
  unfold parsePayload
  split
  · exact unpackPayloads_plain _
  · exact plainErrors_ok _

/-! ## Rules for the statements of a handler -/

section
open Early

variable {σ α β : Type} {env : Env} {rslt : StepResult} {s : σ} {f : α → Handling σ β}
  {Q : Except Stop β → σ → Prop}

theorem post_orFail_bind {x : Except GoError α} (ok : ∀ a, x = .ok a → Post (f a) s Q)
    (error : ∀ e, x = .error e → Q (.error (.fail (setStepResult env.sprintf rslt e))) s) :
    Post (orFail env rslt x >>= f) s Q := by
  apply post_bind
  cases x with
  | ok a => exact ok a rfl
  | error e => exact error e rfl

theorem post_orPanic_bind {x : Option α} (ok : ∀ a, x = some a → Post (f a) s Q)
    (error : x = none → Q (.error .panic) s) : Post (orPanic x >>= f) s Q := by
  apply post_bind
  cases x with
  | some a => exact ok a rfl
  | none => exact error rfl

theorem post_orStop_bind {x : Reply α} (ok : ∀ a, x = .ok a → Post (f a) s Q)
    (error : ∀ e, x = .error (.err e) → Q (.error (.fail (setStepResult env.sprintf rslt e))) s)
    (panic : ∀ g, x = .error (.panic g) → Q (.error .panic) s) : Post (orStop env rslt x >>= f) s Q := by
  apply post_bind
  cases x with
  | ok a => exact ok a rfl
  | error t =>
    cases t with
    | err e => exact error e rfl
    | panic g => exact panic g rfl

theorem post_fail {α : Type} {Q : Except Stop α → σ → Prop} {e : GoError}
    (h : Q (.error (.fail (setStepResult env.sprintf rslt e))) s) :
    Post (orFail env rslt (.error e) : Handling σ α) s Q := h

end

end Rocketcycle
