import Rocketcycle.Rkcypb

/-!
# Results and their log

`LogResult` of `pkg/rkcy/logging.go` and `SetStepResult` of `pkg/apecs/apecs.go`. The text of an
error is itself used as a format, so `sprintf` (`fmt.Sprintf` without operands) stands between
an error and the log.
-/

namespace Rocketcycle

def mini (x y : Nat) : Nat := if x > y then y else x

/-- Appends an event whose text is cut at 255 bytes, wherever that falls in the encoding. -/
def logResult (rslt : StepResult) (sev : Severity) (msg : String) : StepResult :=
  let bytes := msg.toUTF8.toList
  { rslt with logEvents := rslt.logEvents ++ [⟨sev, bytes.take (mini bytes.length 255)⟩] }

def logResultError (sprintf : String → String) (rslt : StepResult) (format : String) : StepResult :=
  logResult rslt .err (sprintf format)

/-- The text that is logged for an error. -/
def GoError.text : GoError → String
  | .rkcy _ msg => msg
  | .other msg => msg

/-- The code an error leaves in a result. -/
def GoError.code : GoError → Code
  | .rkcy code _ => code
  | .other _ => .internal

def setStepResult (sprintf : String → String) (rslt : StepResult) (err : GoError) : StepResult :=
  match err with
  | .rkcy code msg => logResultError sprintf { rslt with code := code } msg
  | .other msg => logResultError sprintf { rslt with code := .internal } msg

section
variable (sprintf : String → String) (rslt : StepResult)

@[simp] theorem logResultError_code (msg : String) : (logResultError sprintf rslt msg).code = rslt.code := rfl
@[simp] theorem logResultError_key (msg : String) : (logResultError sprintf rslt msg).key = rslt.key := rfl
@[simp] theorem logResultError_payload (msg : String) :
    (logResultError sprintf rslt msg).payload = rslt.payload := rfl
@[simp] theorem logResultError_inst (msg : String) : (logResultError sprintf rslt msg).inst = rslt.inst := rfl

/-- An error that is not the platform's own reads as `INTERNAL`. -/
@[simp] theorem setStepResult_other_code (msg : String) :
    (setStepResult sprintf rslt (.other msg)).code = .internal := rfl

@[simp] theorem setStepResult_rkcy_code (code : Code) (msg : String) :
    (setStepResult sprintf rslt (.rkcy code msg)).code = code := rfl

@[simp] theorem code_other (msg : String) : (GoError.other msg).code = .internal := rfl

@[simp] theorem setStepResult_code (e : GoError) : (setStepResult sprintf rslt e).code = e.code := by
  cases e <;> rfl

@[simp] theorem setStepResult_inst (e : GoError) : (setStepResult sprintf rslt e).inst = rslt.inst := by
  cases e <;> rfl

end

end Rocketcycle
