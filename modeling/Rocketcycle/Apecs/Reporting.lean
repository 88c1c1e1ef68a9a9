import Rocketcycle.Apecs.Cursor
import Rocketcycle.Lib.Utf8

/-!
# Reporting an error

A failing step logs a text into its result, and the transaction is published with it on `ERROR` and
to the client. `LogResult` cuts the text by its bytes: a cut inside of a character leaves a string that
`proto.Marshal` refuses, and then nothing is published at all.
-/

namespace Rocketcycle

open Utf8

/-- The event that `LogResult` records of a text. -/
def logEvent (sev : Severity) (text : String) : LogEvent :=
  ⟨sev, text.toUTF8.toList.take (mini text.toUTF8.toList.length 255)⟩

theorem logResultError_events (sprintf : String → String) (rslt : StepResult) (msg : String) :
    (logResultError sprintf rslt msg).logEvents = rslt.logEvents ++ [logEvent .err (sprintf msg)] := rfl

/-- A text that is short, or has a character begin after its first 255 bytes. -/
def CutsCleanly (text : String) : Prop := text.utf8ByteSize ≤ 255 ∨ BoundaryAt text 255

theorem mini_eq (n : Nat) : mini n 255 = min n 255 := by
  unfold mini
  split <;> omega

theorem logEvent_length (sev : Severity) (text : String) : (logEvent sev text).msg.length ≤ 255 := by
  show (text.toUTF8.toList.take (mini text.toUTF8.toList.length 255)).length ≤ 255
  rw [mini_eq, List.length_take]
  omega

theorem logEvent_validUtf8_iff (sev : Severity) (text : String) :
    (logEvent sev text).validUtf8 = true ↔ CutsCleanly text := by
  have size := length_toList text
  unfold LogEvent.validUtf8 logEvent CutsCleanly
  rw [mini_eq, size]
  by_cases short : text.utf8ByteSize ≤ 255
  · rw [Nat.min_eq_left short, validateUTF8_take_iff (Nat.le_refl _)]
    exact ⟨fun _ => .inl short, fun _ => boundaryAt_size text⟩
  · rw [Nat.min_eq_right (by omega), validateUTF8_take_iff (by omega)]
    exact ⟨.inr, fun h => h.resolve_left short⟩

/-- A result that can be published. -/
def StepResult.Clean (r : StepResult) : Prop := r.logEvents.all LogEvent.validUtf8 = true

section
variable {sprintf : String → String} {rslt : StepResult}

/-- Another text keeps a result clean exactly if it is cut between characters. -/
theorem logResultError_clean_iff {msg : String} :
    (logResultError sprintf rslt msg).Clean ↔ rslt.Clean ∧ CutsCleanly (sprintf msg) := by
  unfold StepResult.Clean
  rw [logResultError_events, List.all_append, Bool.and_eq_true, List.all_cons, List.all_nil, Bool.and_true,
    logEvent_validUtf8_iff]

theorem setStepResult_clean_iff {e : GoError} :
    (setStepResult sprintf rslt e).Clean ↔ rslt.Clean ∧ CutsCleanly (sprintf e.text) := by
  cases e <;> exact logResultError_clean_iff

theorem setStepResult_recorded (e : GoError) :
    (setStepResult sprintf rslt e).logEvents.getLast? = some (logEvent .err (sprintf e.text)) := by
  cases e <;> exact List.getLast?_concat

end

/-- What a failing step puts into its result. -/
def errorResult (env : Env) (step : Step) (code : Code) (msg : String) : StepResult :=
  logResultError env.sprintf (step.result.getD { code := code }) msg

/-- What `ProduceError` publishes as the result of the step: the text is logged only if it is asked to. -/
def reportedResult (env : Env) (step : Step) (code : Code) (logToResult : Bool) (msg : String) : StepResult :=
  if logToResult then errorResult env step code msg else step.result.getD { code := code }

/-- The text of an error is recorded, and published with the step on `ERROR` and to the client. -/
structure ErrorReported (txn : ApecsTxn) (step : Step) (rslt : StepResult) (text : String) (pubs : List Publication) :
    Prop where
  short : (logEvent .err text).msg.length ≤ 255
  recorded : rslt.logEvents.getLast? = some (logEvent .err text) ∧ (logEvent .err text).validUtf8 = true
  published : ∃ p ∈ pubs, p.dest = .topic step.concern .error ∧
    ∃ s ∈ p.txn.forwardSteps ++ p.txn.reverseSteps, s = wireStep { step with result := some rslt }
  responded : ∀ target, txn.responseTarget = some target → ∃ p ∈ pubs, p.dest = .response target ∧
    ∃ s ∈ p.txn.forwardSteps ++ p.txn.reverseSteps, s = wireStep { step with result := some rslt }

/-- The texts that a failing step has recorded are valid, the last one being that of its error. -/
def Step.ReportsCleanly (step : Step) (text : String) : Prop :=
  CutsCleanly text ∧ ∀ r, step.result = some r → r.logEvents.all LogEvent.validUtf8 = true

section
variable {env : Env} {rtxn : RtApecsTxn} {step : Step} {put : Step → ApecsTxn} {code : Code} {log : Bool}
  {msg text : String}

theorem errorResult_clean_iff : (errorResult env step code msg).Clean ↔ step.ReportsCleanly (env.sprintf msg) := by
  unfold errorResult
  rw [logResultError_clean_iff]
  unfold Step.ReportsCleanly
  cases hr : step.result with
  | none => simp [StepResult.Clean]
  | some r => simp [StepResult.Clean, and_comm]

theorem response_mem {txn : ApecsTxn} {tgt : TopicTarget} (h : txn.responseTarget = some tgt) (traceParent : String)
    (wire : ApecsTxn) : ⟨.response tgt, [], traceParent, wire⟩ ∈ produceResponse ⟨txn, traceParent⟩ wire := by
  unfold produceResponse
  rw [h]
  exact List.mem_singleton_self _

/-- `ProduceError` publishes the transaction with the result that it reports, if that can be marshalled. -/
theorem produceError_eq : produceError env rtxn step put code log msg =
    match marshalTxn (put { step with result := some (reportedResult env step code log msg) }) with
    | .error _ => []
    | .ok wire =>
      ⟨.topic step.concern .error, stringBytes step.key, rtxn.traceParent, wire⟩ ::
        produceResponse { rtxn with txn := put { step with result := some (reportedResult env step code log msg) } } wire := by
  unfold produceError reportedResult errorResult
  cases log <;> rfl

/-- `ProduceError` reports exactly if the transaction can be marshalled with the result. -/
theorem produceError_reports_iff (frame : ∀ s, ((put s).forwardSteps ++ (put s).reverseSteps).all Step.validUtf8 = s.validUtf8)
    (target : ∀ s, (put s).responseTarget = rtxn.txn.responseTarget)
    (written : ∀ s, s ∈ (put s).forwardSteps ++ (put s).reverseSteps)
    (recorded : (reportedResult env step code log msg).logEvents.getLast? = some (logEvent .err text)) :
    ErrorReported rtxn.txn step (reportedResult env step code log msg) text
        (produceError env rtxn step put code log msg) ↔ (reportedResult env step code log msg).Clean := by
  have valid : Step.validUtf8 { step with result := some (reportedResult env step code log msg) } = true ↔
      (reportedResult env step code log msg).Clean := Iff.rfl
  rw [produceError_eq]
  constructor
  · intro reported
    obtain ⟨p, hp, -⟩ := reported.published
    rw [← valid, ← frame]
    cases hm : marshalTxn (put { step with result := some (reportedResult env step code log msg) }) with
    | error e =>
      rw [hm] at hp
      cases hp
    | ok wire =>
      unfold marshalTxn at hm
      split at hm
      · assumption
      · cases hm
  · intro clean
    have marshals : marshalTxn (put { step with result := some (reportedResult env step code log msg) }) =
        .ok (wireTxn (put { step with result := some (reportedResult env step code log msg) })) := by
      unfold marshalTxn
      rw [if_pos]
      rw [frame]
      exact valid.2 clean
    have carried : wireStep { step with result := some (reportedResult env step code log msg) } ∈
        (wireTxn (put { step with result := some (reportedResult env step code log msg) })).forwardSteps ++
          (wireTxn (put { step with result := some (reportedResult env step code log msg) })).reverseSteps := by
      show _ ∈ List.map wireStep _ ++ List.map wireStep _
      rw [← List.map_append]
      exact List.mem_map_of_mem (written _)
    rw [marshals]
    constructor
    · exact logEvent_length _ _
    · exact ⟨recorded, List.all_eq_true.1 clean _ (List.mem_of_getLast? recorded)⟩
    · exact ⟨_, List.mem_cons_self, rfl, _, carried, rfl⟩
    · intro tgt htgt
      have asked : (put { step with result := some (reportedResult env step code log msg) }).responseTarget = some tgt :=
        (target _).trans htgt
      exact ⟨_, List.mem_cons_of_mem _ (response_mem asked rtxn.traceParent _), rfl, _, carried, rfl⟩

/-- The same for a text that is logged. -/
theorem produceError_logs_iff (frame : ∀ s, ((put s).forwardSteps ++ (put s).reverseSteps).all Step.validUtf8 = s.validUtf8)
    (target : ∀ s, (put s).responseTarget = rtxn.txn.responseTarget)
    (written : ∀ s, s ∈ (put s).forwardSteps ++ (put s).reverseSteps) :
    ErrorReported rtxn.txn step (errorResult env step code msg) (env.sprintf msg)
        (produceError env rtxn step put code true msg) ↔ step.ReportsCleanly (env.sprintf msg) := by
  have recorded : (reportedResult env step code true msg).logEvents.getLast? = some (logEvent .err (env.sprintf msg)) :=
    List.getLast?_concat
  rw [← errorResult_clean_iff]
  exact produceError_reports_iff frame target written recorded

end

/-! ## In a transaction that was received -/

section
variable {txn : ApecsTxn} {steps : List Step} {cur : Step}

theorem all_set {i : Nat} (h : steps[i]? = some cur) (valid : ∀ s ∈ steps, s.validUtf8 = true) (s : Step) :
    (steps.set i s).all Step.validUtf8 = s.validUtf8 := by
  have inside : i < steps.length := by
    by_contra out
    rw [List.getElem?_eq_none (by omega)] at h
    cases h
  rw [Bool.eq_iff_iff, List.all_eq_true]
  constructor
  · intro all
    exact all s (List.mem_set inside s)
  · intro here s' hs'
    rcases List.mem_or_eq_of_mem_set hs' with old | rfl
    · exact valid s' old
    · exact here

/-- The transaction with the current step replaced marshals exactly if the new step does. -/
theorem setStep_validUtf8 (received : ∀ s ∈ txn.forwardSteps ++ txn.reverseSteps, s.validUtf8 = true)
    (current : txn.currentStep = some cur) (s : Step) :
    ((txn.setStep txn.currentStepIdx s).forwardSteps ++ (txn.setStep txn.currentStepIdx s).reverseSteps).all
      Step.validUtf8 = s.validUtf8 := by
  unfold ApecsTxn.currentStep stepAt at current
  split at current
  · cases current
  unfold ApecsTxn.setStep ApecsTxn.setSteps
  unfold ApecsTxn.getSteps at current ⊢
  split at current
  · rename_i forward
    have reverse : txn.reverseSteps.all Step.validUtf8 = true :=
      List.all_eq_true.2 fun s hs => received s (List.mem_append_right _ hs)
    rw [if_pos forward, List.all_append, if_pos forward,
      all_set current (fun s hs => received s (List.mem_append_left _ hs)), reverse, Bool.and_true]
  · rename_i forward
    have ahead : txn.forwardSteps.all Step.validUtf8 = true :=
      List.all_eq_true.2 fun s hs => received s (List.mem_append_left _ hs)
    rw [if_neg forward, List.all_append, if_neg forward,
      all_set current (fun s hs => received s (List.mem_append_right _ hs)), ahead, Bool.true_and]

theorem setStep_mem (current : txn.currentStep = some cur) (s : Step) :
    s ∈ (txn.setStep txn.currentStepIdx s).forwardSteps ++ (txn.setStep txn.currentStepIdx s).reverseSteps := by
  unfold ApecsTxn.currentStep stepAt at current
  split at current
  · cases current
  unfold ApecsTxn.setStep ApecsTxn.setSteps
  have inside : txn.currentStepIdx.toNat < txn.getSteps.length := (List.getElem?_eq_some_iff.1 current).1
  split
  · exact List.mem_append_left _ (List.mem_set inside s)
  · exact List.mem_append_right _ (List.mem_set inside s)

end

/-- In a transaction that was received, the error of the current step, and the one that is logged to the
first step, is recorded, published and answered exactly if its text and those that the step has
recorded before are cut between characters. The same holds of the error that the handler of the step has
recorded itself. -/
theorem error_reported_iff {env : Env} {rtxn : RtApecsTxn} {cur : Step} {code : Code} {msg : String}
    (received : ∀ s ∈ rtxn.txn.forwardSteps ++ rtxn.txn.reverseSteps, s.validUtf8 = true)
    (current : rtxn.txn.currentStep = some cur) (step : Step) :
    (ErrorReported rtxn.txn step (errorResult env step code msg) (env.sprintf msg)
        (produceApecsTxnError env rtxn rtxn.txn.currentStepIdx step code true msg) ↔
      step.ReportsCleanly (env.sprintf msg)) ∧
    (∀ first pubs, rtxn.txn.firstForwardStep = some first → produceErrorDefault env rtxn code true msg = .ok pubs →
      (ErrorReported rtxn.txn first (errorResult env first code ("DEFAULTING TO FIRST FORWARD STEP FOR LOGGING!!! - " ++ msg))
          (env.sprintf ("DEFAULTING TO FIRST FORWARD STEP FOR LOGGING!!! - " ++ msg)) pubs ↔
        CutsCleanly (env.sprintf ("DEFAULTING TO FIRST FORWARD STEP FOR LOGGING!!! - " ++ msg)))) ∧
    ∀ r e, step.result = some (setStepResult env.sprintf r e) →
      (ErrorReported rtxn.txn step (setStepResult env.sprintf r e) (env.sprintf e.text)
          (produceApecsTxnError env rtxn rtxn.txn.currentStepIdx step code false msg) ↔
        r.Clean ∧ CutsCleanly (env.sprintf e.text)) := by
  have target : ∀ s, (rtxn.txn.setStep rtxn.txn.currentStepIdx s).responseTarget = rtxn.txn.responseTarget := by
    intro s
    unfold ApecsTxn.setStep ApecsTxn.setSteps
    split <;> rfl
  refine ⟨?_, ?_, ?_⟩
  · exact produceError_logs_iff (setStep_validUtf8 received current) target (setStep_mem current)
  · intro first pubs hfirst produced
    have here : first ∈ rtxn.txn.forwardSteps := List.mem_of_getElem? hfirst
    have inside : 0 < rtxn.txn.forwardSteps.length := List.length_pos_of_mem here
    have reverse : rtxn.txn.reverseSteps.all Step.validUtf8 = true :=
      List.all_eq_true.2 fun s hs => received s (List.mem_append_right _ hs)
    unfold produceErrorDefault at produced
    rw [hfirst] at produced
    cases produced
    have before : ∀ r, first.result = some r → r.Clean := by
      intro r hr
      have valid := received first (List.mem_append_left _ here)
      unfold Step.validUtf8 at valid
      rw [hr] at valid
      exact valid
    rw [produceError_logs_iff]
    · exact ⟨fun clean => clean.1, fun clean => ⟨clean, before⟩⟩
    · intro s
      rw [List.all_append, all_set hfirst (fun s hs => received s (List.mem_append_left _ hs)), reverse, Bool.and_true]
    · exact fun _ => rfl
    · exact fun s => List.mem_append_left _ (List.mem_set inside s)
  · intro r e answered
    have same : reportedResult env step code false msg = setStepResult env.sprintf r e := by
      simp [reportedResult, answered]
    rw [← setStepResult_clean_iff, ← same]
    exact produceError_reports_iff (setStep_validUtf8 received current) target (setStep_mem current)
      (same ▸ setStepResult_recorded e)

/-- A transaction whose client waits for the answer. -/
def awaited : RtApecsTxn :=
  ⟨{ id := "t", uponError := .report, responseTarget := some ⟨"", "edge", 0⟩,
     forwardSteps := [{ system := .process, concern := "Player", command := "Set", key := "k" }] }, sampleTraceParent⟩

def awaitedStep : Step := { system := .process, concern := "Player", command := "Set", key := "k" }

/-- A text of 256 bytes whose last character has two. -/
def cutText : String := String.ofList (List.replicate 254 'a' ++ ['é'])

/-- Of an error with this text nothing reaches `ERROR` or the client. -/
theorem cut_error_unreported :
    cutText.utf8ByteSize = 256 ∧ (logEvent .err cutText).validUtf8 = false ∧
      produceApecsTxnError Env.sample awaited 0 awaitedStep .internal true cutText = [] := by
  decide +kernel

theorem error_reported_short :
    ErrorReported awaited.txn awaitedStep (errorResult Env.sample awaitedStep .internal "Nil key") "Nil key"
      (produceApecsTxnError Env.sample awaited 0 awaitedStep .internal true "Nil key") := by
  have received : ∀ s ∈ awaited.txn.forwardSteps ++ awaited.txn.reverseSteps, s.validUtf8 = true := by decide
  have current : awaited.txn.currentStep = some awaitedStep := rfl
  have clean : awaitedStep.ReportsCleanly (Env.sample.sprintf "Nil key") := ⟨.inl (by decide +kernel), by rintro r ⟨⟩⟩
  exact (error_reported_iff received current awaitedStep).1.2 clean

end Rocketcycle
