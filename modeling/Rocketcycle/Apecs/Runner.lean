import Rocketcycle.Apecs.Produce

/-!
# The runner

`advanceApecsTxn` and `produceNextStep` of `pkg/apecs/apecs_runner.go`: what a consumer does with
one message. The platform is a state `σ` with an instance store in it, and `handleCommand` a
parameter, so that the bookkeeping of steps can be studied under arbitrary handlers. A call
yields an `Outcome`; a fault there means that the process ended in the middle.
-/

namespace Rocketcycle

open Command

/-- `rkcy.StepArgs`. A missing effective time reads as the Unix epoch. -/
structure StepArgs where
  txnId : String
  key : String
  inst : Option Bytes
  payload : Option Bytes
  effectiveTime : Int
  cmpdOffset : CompoundOffset
  forwardResult : Option StepResult := none
  deriving DecidableEq, Repr

/-- The arguments of `handleCommand`. -/
structure Call where
  storageTarget : String
  concern : String
  system : System
  command : String
  direction : Direction
  args : StepArgs
  deriving DecidableEq, Repr

abbrev HandleCommand (σ : Type) := Call → σ → (Option StepResult × List Step) × σ

/-- `rkcy.TopicParts`, as far as the runner reads it. -/
structure TopicParts where
  concern : String
  system : System
  generation : Int
  deriving DecidableEq, Repr

/-- What became of one message: the returned code, the platform afterwards, everything produced
on the way, with the producers asked for, and the call of `handleCommand` with its result, if it
came to that. -/
structure Outcome (σ : Type) where
  code : Code
  state : σ
  published : List Publication := []
  asked : List Asked := []
  call : Option (Call × Option StepResult) := none
  fault : Option Fault := none

/-- The codecs of the two messages that travel in payloads. -/
structure RelatedCodecs where
  request : Codec RelatedRequest
  response : Codec RelatedResponse

def isBailoutableCode (code : Code) : Bool :=
  code ≠ .ok && code ≠ .stepAlreadyComplete && code ≠ .mismatchedConcern &&
    code ≠ .mismatchedSystem && code ≠ .keyNotPresent

section
variable (env : Env)

/-- `produceApecsTxnError` on step `idx` of the transaction. -/
def produceApecsTxnError (rtxn : RtApecsTxn) (idx : Int) (step : Step) (code : Code)
    (logToResult : Bool) (msg : String) : List Publication :=
  produceError env rtxn step (rtxn.txn.setStep idx) code logToResult msg

/-- The producer that it asks for. -/
def apecsTxnErrorAsked (rtxn : RtApecsTxn) (idx : Int) (step : Step) (code : Code)
    (logToResult : Bool) (msg : String) : Asked :=
  errorAsked env rtxn step (rtxn.txn.setStep idx) code logToResult msg

/-- `cancelApecsTxn`, for a transaction that an administrator has cancelled. -/
def cancelApecsTxn (rtxn : RtApecsTxn) : List Publication × Option Fault :=
  match rtxn.txn.currentStep with
  | none => ([], some .indexOutOfRange)
  | some step =>
    (produceApecsTxnError env rtxn rtxn.txn.currentStepIdx step .cancelled true "Txn Cancelled", none)

/-- The producer that it asks for. -/
def cancelAsked (rtxn : RtApecsTxn) : List Asked :=
  match rtxn.txn.currentStep with
  | none => []
  | some step => [apecsTxnErrorAsked env rtxn rtxn.txn.currentStepIdx step .cancelled true "Txn Cancelled"]

/-! ## Completion -/

/-- The completion loops: the transaction with its associations, what has been produced, and the
number of trace ids used. -/
structure Completion where
  txn : ApecsTxn
  published : List Publication
  ids : Nat

abbrev Completing := Except (List Publication × Fault)

/-- A storage transaction of its own for `step`. `errStep` and `put` are the step that a failure
is logged on. -/
def executeChild (traceParent : String) (assoc : String → AssocTxn) (errStep : Step)
    (put : ApecsTxn → Step → ApecsTxn) (failure : String) (c : Completion) (step : Step) :
    Completing Completion :=
  let storageTxnId := env.traceId c.ids
  let txn := { c.txn with assocTxns := c.txn.assocTxns ++ [assoc storageTxnId] }
  match executeTxn env storageTxnId (some ⟨c.txn.id, .parent⟩) traceParent .bailout [step] none with
  | .ok p => .ok ⟨txn, c.published ++ [p], c.ids + 1⟩
  | .error (.panic f) => .error (c.published, f)
  | .error (.err e) =>
    let msg := s!"produceNextStep error=\"{e.text}\" Key={errStep.key}: Failed to {failure}"
    .error (c.published ++ produceError env ⟨txn, traceParent⟩ errStep (put txn) .internal true msg,
      .logFatal e)

/-- The secondary copy of an inline storage write. -/
def secondaryStep (step : Step) (rslt : StepResult) : Step :=
  { system := .storageScnd, concern := step.concern, command := step.command, key := rslt.key,
    payload := rslt.payload, cmpdOffset := step.cmpdOffset }

/-- The first completion loop, at step `idx`. -/
def produceSecondary (traceParent : String) (c : Completion) (idx : Nat) (step : Step) :
    Completing Completion :=
  if step.isStorageWrite then
    match step.result with
    | none => .error (c.published, .nilDeref)
    | some rslt =>
      executeChild env traceParent (⟨·, .secondaryStorage⟩) step (fun txn => txn.setStep idx)
        "apply secondary storage steps" c (secondaryStep step rslt)
  else .ok c

def produceSecondaries (traceParent : String) : Nat → List Step → Completion → Completing Completion
  | _, [], c => .ok c
  | idx, step :: rest, c =>
    match produceSecondary env traceParent c idx step with
    | .error e => .error e
    | .ok c => produceSecondaries traceParent (idx + 1) rest c

/-- Whether the second completion loop looks at a step with this result. -/
def isInstanceChange (step : Step) (rslt : StepResult) : Bool :=
  rslt.inst.isSome || step.command = requestRelated || step.command = refreshRelated

/-- The payload of the storage update for a step: `none` is the panic of `PackPayloads`, an inner
`none` is the empty `stepInst` that is only logged. The related data comes from the store of
whoever runs the last step. -/
def stepInst (pb : RelatedCodecs) (store : InstanceStore) (step : Step) (rslt : StepResult) :
    Option (Option Bytes) :=
  if rslt.inst.isSome then (packPayloads rslt.inst (store.getRelated step.key)).map some
  else if step.command = requestRelated then
    match pb.response.unmarshalOpt rslt.payload with
    | .error _ => some none
    | .ok relRsp => some relRsp.payload
  else if step.command = refreshRelated then some rslt.payload
  else some none

/-- The storage update for a step. -/
def updateAsyncStep (step : Step) (payload : Bytes) : Step :=
  { system := .storage, concern := step.concern, command := updateAsync, key := step.key,
    payload := some payload, cmpdOffset := step.cmpdOffset, effectiveTime := step.effectiveTime }

/-- Assignment to `storageStepsMap`, the map as the list of its entries. -/
def storageStepsInsert (key : String) (step : Step) : List (String × Step) → List (String × Step)
  | [] => [(key, step)]
  | (k, s) :: rest => if k = key then (key, step) :: rest else (k, s) :: storageStepsInsert key step rest

/-- The second completion loop: the last changing step of every instance. -/
def storageStepsMap (pb : RelatedCodecs) (store : InstanceStore) :
    List Step → List (String × Step) → Except Fault (List (String × Step))
  | [], m => .ok m
  | step :: rest, m =>
    if step.system = .process then
      match step.result with
      | none => .error .nilDeref
      | some rslt =>
        if isInstanceChange step rslt then
          match stepInst pb store step rslt with
          | none => .error .packedPayload
          | some none => storageStepsMap pb store rest m
          | some (some payload) =>
            storageStepsMap pb store rest
              (storageStepsInsert s!"{step.concern}_{step.key}" (updateAsyncStep step payload) m)
        else storageStepsMap pb store rest m
    else storageStepsMap pb store rest m

/-- One pass of the third loop: the update of primary storage, then of secondary. The second
association repeats the first id. -/
def produceUpdate (traceParent : String) (c : Completion) (step : Step) : Completing Completion :=
  let storageTxnId := env.traceId c.ids
  match executeChild env traceParent (⟨·, .generatedStorage⟩) step (fun txn _ => txn) "update storage" c step with
  | .error e => .error e
  | .ok c =>
    let scnd := { step with system := .storageScnd }
    executeChild env traceParent (fun _ => ⟨storageTxnId, .generatedStorage⟩) scnd (fun txn _ => txn)
      "update secondary storage" c scnd

def produceUpdates (traceParent : String) : List Step → Completion → Completing Completion
  | [], c => .ok c
  | step :: rest, c =>
    match produceUpdate env traceParent c step with
    | .error e => .error e
    | .ok c => produceUpdates traceParent rest c

/-- The storage transactions of a completed transaction. -/
def produceStorage (pb : RelatedCodecs) (store : InstanceStore) (rtxn : RtApecsTxn) :
    Completing Completion :=
  let c : Completion := ⟨rtxn.txn, [], 0⟩
  if rtxn.txn.direction = .forward then
    match produceSecondaries env rtxn.traceParent 0 rtxn.txn.forwardSteps c with
    | .error e => .error e
    | .ok c =>
      match storageStepsMap pb store rtxn.txn.forwardSteps [] with
      | .error f => .error (c.published, f)
      | .ok m => produceUpdates env rtxn.traceParent (env.storageOrder (m.map Prod.snd)) c
  else .ok c

/-! ## The next step -/

/-- What `produceNextStep` hands on to the step it advances to. -/
def nextStepOf (step next : Step) (cmpdOffset : CompoundOffset) : Step :=
  let next :=
    if next.payload.isNone && isPlatformCommand next.command then
      { next with payload := (step.result.getD {}).payload }
    else next
  if next.system = .storage && next.cmpdOffset.isNone then
    { next with cmpdOffset := step.cmpdOffset <|> some cmpdOffset }
  else next

/-- `produceNextStep` after step `idx`, `step` being that step with its result. -/
def produceNextStep (pb : RelatedCodecs) (store : InstanceStore) (rtxn : RtApecsTxn) (idx : Int)
    (step : Step) (cmpdOffset : CompoundOffset) : List Publication × Option Fault :=
  match rtxn.txn.advanceStepIdx with
  | some txn =>
    match txn.currentStep with
    | none => ([], some .indexOutOfRange)
    | some next =>
      let nextStep := nextStepOf step next cmpdOffset
      let txn := txn.setStep txn.currentStepIdx nextStep
      match produceCurrentStep env txn rtxn.traceParent with
      | .ok p => ([p], none)
      | .error (.panic f) => ([], some f)
      | .error (.err e) =>
        (produceApecsTxnError env ⟨txn, rtxn.traceParent⟩ txn.currentStepIdx nextStep .internal true
          s!"produceNextStep error=\"{e.text}\": Failed produceCurrentStep for next step", none)
  | none =>
    match produceStorage env pb store rtxn with
    | .error (published, f) => (published, some f)
    | .ok c =>
      match produceComplete ⟨c.txn, rtxn.traceParent⟩ with
      | .ok pubs => (c.published ++ pubs, none)
      | .error (.panic f) => (c.published, some f)
      | .error (.err e) =>
        (c.published ++ produceApecsTxnError env ⟨c.txn, rtxn.traceParent⟩ idx step .internal true
          s!"produceNextStep error=\"{e.text}\": Failed to ProduceComplete", none)

/-- The producer of a storage transaction that has been published. -/
def childAsked (p : Publication) : List Asked :=
  match p.dest with
  | .topic concern topic => [{ concern := concern, topic := topic, sent := [p] }]
  | .response _ => []

/-- The producers that `produceNextStep` asks for. Those of a completion that ends the process in the
middle are not told apart. -/
def nextStepAsked (pb : RelatedCodecs) (store : InstanceStore) (rtxn : RtApecsTxn) (idx : Int)
    (step : Step) (cmpdOffset : CompoundOffset) : List Asked :=
  match rtxn.txn.advanceStepIdx with
  | some txn =>
    match txn.currentStep with
    | none => []
    | some next =>
      let nextStep := nextStepOf step next cmpdOffset
      let txn := txn.setStep txn.currentStepIdx nextStep
      match produceCurrentStep env txn rtxn.traceParent with
      | .ok _ => currentStepAsked env txn rtxn.traceParent
      | .error (.panic _) => []
      | .error (.err e) =>
        currentStepAsked env txn rtxn.traceParent ++
          [apecsTxnErrorAsked env ⟨txn, rtxn.traceParent⟩ txn.currentStepIdx nextStep .internal true
            s!"produceNextStep error=\"{e.text}\": Failed produceCurrentStep for next step"]
  | none =>
    match produceStorage env pb store rtxn with
    | .error (published, _) => published.flatMap childAsked
    | .ok c =>
      match produceComplete ⟨c.txn, rtxn.traceParent⟩ with
      | .ok _ => c.published.flatMap childAsked ++ completeAsked ⟨c.txn, rtxn.traceParent⟩
      | .error (.panic _) => c.published.flatMap childAsked
      | .error (.err e) =>
        c.published.flatMap childAsked ++ completeAsked ⟨c.txn, rtxn.traceParent⟩ ++
          [apecsTxnErrorAsked env ⟨c.txn, rtxn.traceParent⟩ idx step .internal true
            s!"produceNextStep error=\"{e.text}\": Failed to ProduceComplete"]

/-! ## Advancing -/

/-- The key a step without one takes over from the step before it. -/
def stepKey (txn : ApecsTxn) (step : Step) : Except Fault (Option String) :=
  if step.key = "" && !step.isKeylessStep then
    match txn.previousStep with
    | none => .error .indexOutOfRange
    | some none => .ok none
    | some (some prevStep) =>
      match prevStep.result with
      | some r => .ok (if r.key ≠ "" then some r.key else none)
      | none => .ok none
  else .ok (some step.key)

/-- The storage read that stands in for a `READ`, or in front of any other step, when the store
has no instance. -/
def readStep (step : Step) (cmpdOffset : CompoundOffset) : Step :=
  { system := .storage, concern := step.concern, command := read, key := step.key,
    cmpdOffset := some cmpdOffset }

def injectRead (txn : ApecsTxn) (step : Step) (cmpdOffset : CompoundOffset) : Except GoError ApecsTxn :=
  if step.system = .process && step.command = read then
    txn.replaceStep txn.currentStepIdx (readStep step cmpdOffset)
  else txn.insertSteps txn.currentStepIdx [readStep step cmpdOffset]

variable {σ : Type} (pb : RelatedCodecs) (instanceStore : σ → InstanceStore)
  (handleCommand : HandleCommand σ)

/-- The branch of a cache miss. `rtxn` holds the step with its key and offset already set. -/
def advanceMiss (s : σ) (rtxn : RtApecsTxn) (step : Step) (cmpdOffset : CompoundOffset) : Outcome σ :=
  let failed (rtxn : RtApecsTxn) (before : List Asked) (msg : String) : Outcome σ :=
    match produceErrorDefault env rtxn .internal true msg with
    | .ok pubs =>
      { code := .internal, state := s, published := pubs, asked := before ++ errorDefaultAsked env rtxn .internal true msg }
    | .error f => { code := .internal, state := s, fault := some f, asked := before }
  match injectRead rtxn.txn step cmpdOffset with
  | .error _ => failed rtxn [] s!"advanceApecsTxn Key={step.key}: Unable to insert Storage READ implicit steps"
  | .ok txn =>
    let asked := currentStepAsked env txn rtxn.traceParent
    match produceCurrentStep env txn rtxn.traceParent with
    | .ok p => { code := .ok, state := s, published := [p], asked := asked }
    | .error (.panic f) => { code := .internal, state := s, fault := some f, asked := asked }
    | .error (.err e) =>
      failed ⟨txn, rtxn.traceParent⟩ asked
        s!"advanceApecsTxn error=\"{e.text}\": Failed produceCurrentStep for next step"

/-- The text with which a call of the handler is reported that has returned no result. -/
def nilResultText (step : Step) : String :=
  s!"advanceApecsTxn Key={step.key}: nil result from step handler, {env.showStep step}"

/-- What follows a command that returned `rslt` and `addSteps`; `s` is the platform after it and
`step` the step without its result. -/
def advanceResult (s : σ) (rtxn : RtApecsTxn) (tp : TopicParts) (step : Step) (call : Call)
    (rslt : Option StepResult) (addSteps : List Step) (cmpdOffset : CompoundOffset) : Outcome σ :=
  let idx := rtxn.txn.currentStepIdx
  let failed (rtxn : RtApecsTxn) (step : Step) (code : Code) (logToResult : Bool) (msg : String) : Outcome σ :=
    { code := code, state := s, call := some (call, rslt),
      published := produceApecsTxnError env rtxn idx step code logToResult msg,
      asked := [apecsTxnErrorAsked env rtxn idx step code logToResult msg] }
  match rslt with
  | none =>
    if rtxn.txn.uponError = .bailout then
      failed rtxn step .nilResult true s!"advanceApecsTxn Key={step.key}: BAILOUT, {env.showStep step}"
    else
      failed rtxn step .internal true (nilResultText env step)
  | some raw =>
    let rslt := raw
    let done := { step with result := some rslt }
    if isBailoutableCode rslt.code && rtxn.txn.uponError = .bailout then
      failed rtxn done rslt.code true s!"advanceApecsTxn Key={step.key}: BAILOUT, {env.showStep done}"
    else if rslt.code ≠ .ok then
      failed rtxn done rslt.code false
        s!"advanceApecsTxn Key={step.key}: Step failed with non OK result, {env.showStep done}"
    else
      -- unless set by the handler, the payload of the step is passed on
      let rslt := { rslt with payload := rslt.payload <|> step.payload }
      let done := { step with result := some rslt }
      let done := if tp.system = .process && rslt.inst.isSome then { done with inst := call.args.inst } else done
      let rtxn := { rtxn with txn := rtxn.txn.setStep idx done }
      let inserted := if addSteps.isEmpty then .ok rtxn.txn else rtxn.txn.insertSteps (idx + 1) addSteps
      match inserted with
      | .error e => failed rtxn done .internal true s!"InsertSteps failure: {e.text}"
      | .ok txn =>
        let (published, fault) :=
          produceNextStep env pb (instanceStore s) ⟨txn, rtxn.traceParent⟩ idx done cmpdOffset
        { code := rslt.code, state := s, call := some (call, some raw), published := published, fault := fault,
          asked := nextStepAsked env pb (instanceStore s) ⟨txn, rtxn.traceParent⟩ idx done cmpdOffset }

/-- `advanceApecsTxn` once the step has its key. -/
def advanceKeyed (s : σ) (storageTarget : String) (rtxn : RtApecsTxn) (tp : TopicParts) (step : Step)
    (cmpdOffset : CompoundOffset) : Outcome σ :=
  let idx := rtxn.txn.currentStepIdx
  let step := if step.system = .process then { step with cmpdOffset := some cmpdOffset } else step
  let rtxn := { rtxn with txn := rtxn.txn.setStep idx step }
  let failed (msg : String) : Outcome σ :=
    { code := .internal, state := s, published := produceApecsTxnError env rtxn idx step .internal true msg,
      asked := [apecsTxnErrorAsked env rtxn idx step .internal true msg] }
  let looksUp := step.system = .process && !step.isKeylessStep && !step.isInstanceStoreStep
  let inst := if looksUp then (instanceStore s).getInstance step.key else none
  if looksUp && inst.isNone then advanceMiss env s rtxn step cmpdOffset
  else if step.system = .process && inst.isSome && step.command = create then
    failed s!"advanceApecsTxn Key={step.key}: Instance already exists in store in CREATE command"
  else
    match step.cmpdOffset with
    | none => failed "advanceApecsTxn: Nil offset"
    | some stepOffset =>
      let call : Call :=
        { storageTarget := storageTarget, concern := step.concern, system := step.system,
          command := step.command, direction := rtxn.txn.direction,
          args := { txnId := rtxn.txn.id, key := step.key, inst := inst, payload := step.payload,
                    effectiveTime := step.effectiveTime.getD 0, cmpdOffset := stepOffset } }
      let ((rslt, addSteps), s) := handleCommand call s
      advanceResult env pb instanceStore s rtxn tp step call rslt addSteps cmpdOffset

def advanceApecsTxn (s : σ) (storageTarget : String) (rtxn : RtApecsTxn) (tp : TopicParts)
    (cmpdOffset : CompoundOffset) : Outcome σ :=
  match rtxn.txn.currentStep with
  | none => { code := .undefined, state := s, fault := some .indexOutOfRange }
  | some step =>
    let failed (code : Code) (msg : String) : Outcome σ :=
      { code := code, state := s,
        published := produceApecsTxnError env rtxn rtxn.txn.currentStepIdx step code true msg,
        asked := [apecsTxnErrorAsked env rtxn rtxn.txn.currentStepIdx step code true msg] }
    match step.result with
    | some rslt =>
      failed .stepAlreadyComplete
        s!"advanceApecsTxn Result={env.showResult rslt}: Current step already has Result, {env.showStep step}"
    | none =>
      if step.concern ≠ tp.concern then
        failed .mismatchedConcern
          s!"advanceApecsTxn: Mismatched concern, expected={tp.concern} actual={step.concern}, {env.showStep step}"
      else if step.system ≠ tp.system then
        failed .mismatchedSystem
          s!"advanceApecsTxn: Mismatched system, expected={tp.system.number} actual={step.system.number}, {env.showStep step}"
      else
        match stepKey rtxn.txn step with
        | .error f => { code := .undefined, state := s, fault := some f }
        | .ok none =>
          failed .keyNotPresent
            s!"advanceApecsTxn: No key in step: {step.system.string} {step.command}, {env.showStep step}"
        | .ok (some key) =>
          advanceKeyed env pb instanceStore handleCommand s storageTarget rtxn tp { step with key := key }
            cmpdOffset

end

end Rocketcycle
