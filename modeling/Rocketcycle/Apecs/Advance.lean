import Rocketcycle.Apecs.Cursor

/-!
# What one message can lead to

`advanceApecsTxn` taken apart once: a message that is consumed while its transaction stands at
`cur` is rejected, injects a storage read, or runs the step, and a step that ran failed, led to
the next step, or completed the transaction (`advance_cases`). Every invariant is read off these.
-/

namespace Rocketcycle

open Command

/-- Where an error is reported. -/
def Dest.IsError (d : Dest) : Prop := (∃ c, d = .topic c .error) ∨ ∃ t, d = .response t

/-- Publications that report an error, if anything. -/
def ErrorOnly (pubs : List Publication) : Prop := ∀ p ∈ pubs, p.dest.IsError

/-- The current step of the transaction has not succeeded. -/
def ApecsTxn.Stuck (txn : ApecsTxn) : Prop :=
  ∃ step, txn.currentStep = some step ∧ ∀ r, step.result = some r → r.code ≠ .ok

/-- The report of a transaction that is stuck, and its response, if anything. -/
inductive Reports (assocTxns : List AssocTxn) : List Publication → Prop
  | nothing : Reports assocTxns []
  | error (concern : String) (p : Publication) (responses : List Publication)
      (dest : p.dest = .topic concern .error) (assoc : p.txn.assocTxns = assocTxns) (stuck : p.txn.Stuck)
      (same : ∀ q ∈ responses, (∃ t, q.dest = .response t) ∧ q.txn = p.txn) :
      Reports assocTxns (p :: responses)

section
variable {env : Env}

theorem produceResponse_dest {rtxn : RtApecsTxn} {wire : ApecsTxn} {p : Publication}
    (h : p ∈ produceResponse rtxn wire) : ∃ t, p.dest = .response t := by
  unfold produceResponse at h
  split at h
  · cases h
  · rename_i t _
    rw [List.mem_singleton] at h
    exact ⟨t, by rw [h]⟩

theorem produceError_errorOnly {rtxn : RtApecsTxn} {step : Step} {put : Step → ApecsTxn} {code : Code}
    {log : Bool} {msg : String} : ErrorOnly (produceError env rtxn step put code log msg) := by
  unfold produceError
  intro p hp
  dsimp only at hp
  split at hp
  · cases hp
  · rcases List.mem_cons.1 hp with rfl | hp
    · exact .inl ⟨_, rfl⟩
    · exact .inr (produceResponse_dest hp)

theorem produceErrorDefault_errorOnly {rtxn : RtApecsTxn} {code : Code} {log : Bool} {msg : String}
    {pubs : List Publication} (h : produceErrorDefault env rtxn code log msg = .ok pubs) : ErrorOnly pubs := by
  unfold produceErrorDefault at h
  split at h
  · cases h
  · cases h; exact produceError_errorOnly

theorem produceResponse_txn {rtxn : RtApecsTxn} {wire : ApecsTxn} {p : Publication}
    (h : p ∈ produceResponse rtxn wire) : p.txn = wire := by
  unfold produceResponse at h
  split at h
  · cases h
  · rw [List.mem_singleton.1 h]

theorem ApecsTxn.At.stuck_wire {txn : ApecsTxn} {done rest : List Step} {cur : Step} (at' : txn.At done cur rest)
    (stuck : ∀ r, cur.result = some r → r.code ≠ .ok) : (wireTxn txn).Stuck := by
  refine ⟨wireStep cur, at'.wire.currentStep, ?_⟩
  intro r hr
  rw [wireStep_result, Option.map_eq_some_iff] at hr
  obtain ⟨r', hr', rfl⟩ := hr
  exact stuck r' hr'

/-- Whatever is logged on, the transaction is stuck at its current step. -/
theorem produceError_stuck {txn : ApecsTxn} {traceParent : String} {step : Step} {put : Step → ApecsTxn} {code : Code}
    {log : Bool} {msg : String} (assoc : ∀ s, (put s).assocTxns = txn.assocTxns)
    (stuck : ∀ r : StepResult, r.code = (step.result.getD { code := code }).code →
      (wireTxn (put { step with result := some r })).Stuck) :
    Reports txn.assocTxns (produceError env ⟨txn, traceParent⟩ step put code log msg) := by
  unfold produceError
  dsimp only
  split
  · exact .nothing
  · rename_i wire hwire
    rw [marshalTxn_ok hwire]
    refine .error _ _ _ rfl (assoc _) ?_ ?_
    · apply stuck
      split <;> rfl
    · exact fun q hq => ⟨produceResponse_dest hq, produceResponse_txn hq⟩

/-- An error on the current step. -/
theorem produceApecsTxnError_reports {txn : ApecsTxn} {traceParent : String} {done rest : List Step} {cur step : Step}
    {code : Code} {log : Bool} {msg : String} (at' : txn.At done cur rest)
    (notOk : ∀ r, step.result = some r → r.code ≠ .ok) (failure : code ≠ .ok) :
    Reports txn.assocTxns (produceApecsTxnError env ⟨txn, traceParent⟩ txn.currentStepIdx step code log msg) := by
  unfold produceApecsTxnError
  apply produceError_stuck
  · intro s
    rw [at'.setStep_eq]
  · intro r hr
    rw [at'.setStep_eq]
    apply (at'.withSteps { step with result := some r } rest).stuck_wire
    rintro _ ⟨⟩
    rw [hr]
    cases h : step.result with
    | none => exact failure
    | some r' => exact notOk r' h

/-- An error on the first step, the current one not having run. -/
theorem produceErrorDefault_reports {txn : ApecsTxn} {traceParent : String} {done rest : List Step} {cur : Step} {code : Code}
    {log : Bool} {msg : String} {pubs : List Publication} (at' : txn.At done cur rest)
    (pending : cur.result = none) (failure : code ≠ .ok)
    (h : produceErrorDefault env ⟨txn, traceParent⟩ code log msg = .ok pubs) : Reports txn.assocTxns pubs := by
  unfold produceErrorDefault at h
  rw [at'.firstForwardStep] at h
  cases h
  apply produceError_stuck
  · exact fun _ => rfl
  · intro r hr
    cases done with
    | nil =>
      have first : (wireTxn { txn with forwardSteps := txn.forwardSteps.set 0 { cur with result := some r } }) =
          wireTxn { txn with forwardSteps := [] ++ { cur with result := some r } :: rest } := by
        rw [at'.steps]
        rfl
      refine first ▸ (at'.withSteps { cur with result := some r } rest).stuck_wire ?_
      rintro _ ⟨⟩
      rw [hr]
      simpa [pending] using failure
    | cons s done =>
      have later : ({ txn with
          forwardSteps := txn.forwardSteps.set 0 { s with result := some r } } : ApecsTxn).At
          ({ s with result := some r } :: done) cur rest :=
        ⟨at'.direction, by rw [at'.steps]; rfl, at'.idx⟩
      exact later.stuck_wire (by simp [pending])

/-! ## Publishing a step -/

/-- The publication of the current step of a transaction. -/
structure Publishes (env : Env) (txn : ApecsTxn) (traceParent : String) (step : Step) (p : Publication) :
    Prop where
  dest : ∃ name, systemToTopic step.system = some name ∧ p.dest = .topic step.concern name
  hashKey : p.hashKey = if step.isKeylessStep then env.uid else stringBytes step.key
  parent : p.traceParent = traceParent
  sent : p.txn = wireTxn txn
  valid : traceParentIsValid traceParent = true ∧ (RtApecsTxn.mk txn traceParent).validate = .ok ()

theorem newRtApecsTxn_ok {txn : ApecsTxn} {traceParent : String} {rtxn : RtApecsTxn}
    (h : newRtApecsTxn txn traceParent = some (.ok rtxn)) :
    rtxn = ⟨txn, traceParent⟩ ∧ traceParentIsValid traceParent = true ∧
      (RtApecsTxn.mk txn traceParent).validate = .ok () := by
  unfold newRtApecsTxn at h
  split at h
  · cases h
  rename_i hvalid
  dsimp only at h
  cases hv : (RtApecsTxn.mk txn traceParent).validate with
  | error e => simp [hv, Except.map] at h
  | ok u =>
    simp only [hv, Except.map, Option.some.injEq, Except.ok.injEq] at h
    exact ⟨h.symm, by simpa using hvalid, rfl⟩

theorem produceCurrentStep_ok {txn : ApecsTxn} {traceParent : String} {p : Publication}
    (h : produceCurrentStep env txn traceParent = .ok p) :
    ∃ step, txn.currentStep = some step ∧ Publishes env txn traceParent step p := by
  unfold produceCurrentStep at h
  split at h
  · cases h
  · cases h
  rename_i rtxn hnew
  obtain ⟨rfl, hvalid⟩ := newRtApecsTxn_ok hnew
  split at h
  · cases h
  rename_i step hstep
  split at h
  · cases h
  rename_i name hname
  split at h
  · cases h
  rename_i wire hwire
  cases h
  refine ⟨step, hstep, ⟨name, hname, rfl⟩, ?_, rfl, marshalTxn_ok hwire, hvalid⟩
  cases step.isKeylessStep <;> rfl

/-- With a valid trace parent and a current step, publishing does not panic. -/
theorem produceCurrentStep_panic {txn : ApecsTxn} {traceParent : String} {f : Fault} {step : Step}
    (hv : traceParentIsValid traceParent = true) (hs : txn.currentStep = some step) :
    produceCurrentStep env txn traceParent ≠ .error (.panic f) := by
  intro h
  unfold produceCurrentStep newRtApecsTxn at h
  rw [hv] at h
  simp only [Bool.not_true, Bool.false_eq_true, if_false] at h
  cases hval : (RtApecsTxn.mk txn traceParent).validate with
  | error e => simp [hval, Except.map] at h
  | ok u =>
    simp only [hval, Except.map, hs] at h
    split at h
    · cases h
    · split at h <;> cases h

/-! ## The current step -/

/-- The current step with its key, and on a process topic with the offset of the message. -/
def Step.keyed (step : Step) (key : String) (cmpdOffset : CompoundOffset) : Step :=
  if step.system = .process then { step with key := key, cmpdOffset := some cmpdOffset }
  else { step with key := key }

/-- Whether the runner looks for the instance of the step. -/
def Step.looksUp (step : Step) : Bool :=
  step.system = .process && !step.isKeylessStep && !step.isInstanceStoreStep

/-- The instance that a step is given. -/
def instanceFor (store : InstanceStore) (step : Step) (key : String) : Option Bytes :=
  if step.looksUp then store.getInstance key else none

/-- A step that succeeded, as it stays in the transaction. -/
def Step.done (step : Step) (rslt : StepResult) (inst : Option Bytes) : Step :=
  { step with
    result := some { rslt with payload := rslt.payload <|> step.payload },
    inst := if step.system = .process && rslt.inst.isSome then inst else step.inst }

def callOf (storageTarget : String) (txn : ApecsTxn) (step : Step) (inst : Option Bytes)
    (stepOffset : CompoundOffset) : Call :=
  { storageTarget := storageTarget, concern := step.concern, system := step.system,
    command := step.command, direction := txn.direction,
    args := { txnId := txn.id, key := step.key, inst := inst, payload := step.payload,
              effectiveTime := step.effectiveTime.getD 0, cmpdOffset := stepOffset } }

/-- The steps from the current one on after a cache miss. -/
def missSteps (step : Step) (rest : List Step) (cmpdOffset : CompoundOffset) : List Step :=
  if step.command = read then readStep step cmpdOffset :: rest
  else readStep step cmpdOffset :: step :: rest

/-- What stands behind the injected read: the step it stands in front of, unless it replaces that. -/
def missAhead (step : Step) (rest : List Step) : List Step :=
  if step.command = read then rest else step :: rest

theorem missSteps_eq (step : Step) (rest : List Step) (cmpdOffset : CompoundOffset) :
    missSteps step rest cmpdOffset = readStep step cmpdOffset :: missAhead step rest := by
  unfold missSteps missAhead
  split <;> rfl

@[simp] theorem keyed_system (step : Step) (key : String) (o : CompoundOffset) :
    (step.keyed key o).system = step.system := by unfold Step.keyed; split <;> rfl
@[simp] theorem keyed_concern (step : Step) (key : String) (o : CompoundOffset) :
    (step.keyed key o).concern = step.concern := by unfold Step.keyed; split <;> rfl
@[simp] theorem keyed_command (step : Step) (key : String) (o : CompoundOffset) :
    (step.keyed key o).command = step.command := by unfold Step.keyed; split <;> rfl
@[simp] theorem keyed_key (step : Step) (key : String) (o : CompoundOffset) :
    (step.keyed key o).key = key := by unfold Step.keyed; split <;> rfl
@[simp] theorem keyed_payload (step : Step) (key : String) (o : CompoundOffset) :
    (step.keyed key o).payload = step.payload := by unfold Step.keyed; split <;> rfl
@[simp] theorem keyed_effectiveTime (step : Step) (key : String) (o : CompoundOffset) :
    (step.keyed key o).effectiveTime = step.effectiveTime := by unfold Step.keyed; split <;> rfl
@[simp] theorem keyed_result (step : Step) (key : String) (o : CompoundOffset) :
    (step.keyed key o).result = step.result := by unfold Step.keyed; split <;> rfl
@[simp] theorem keyed_inst (step : Step) (key : String) (o : CompoundOffset) :
    (step.keyed key o).inst = step.inst := by unfold Step.keyed; split <;> rfl
@[simp] theorem keyed_isKeylessStep (step : Step) (key : String) (o : CompoundOffset) :
    (step.keyed key o).isKeylessStep = step.isKeylessStep := by simp [Step.isKeylessStep]
@[simp] theorem keyed_isInstanceStoreStep (step : Step) (key : String) (o : CompoundOffset) :
    (step.keyed key o).isInstanceStoreStep = step.isInstanceStoreStep := by simp [Step.isInstanceStoreStep]
@[simp] theorem keyed_looksUp (step : Step) (key : String) (o : CompoundOffset) :
    (step.keyed key o).looksUp = step.looksUp := by simp [Step.looksUp]

theorem keyed_process_offset {step : Step} (h : step.system = .process) (key : String) (o : CompoundOffset) :
    (step.keyed key o).cmpdOffset = some o := by simp [Step.keyed, h]

theorem keyed_storage_offset {step : Step} (h : step.system ≠ .process) (key : String) (o : CompoundOffset) :
    (step.keyed key o).cmpdOffset = step.cmpdOffset := by simp [Step.keyed, h]

/-- Only the payload and the offset of the next step are filled in. -/
theorem nextStepOf_eq (step next : Step) (o : CompoundOffset) :
    nextStepOf step next o =
      { next with
        payload := if next.payload.isNone && isPlatformCommand next.command then
            (step.result.getD {}).payload else next.payload,
        cmpdOffset := if next.system = .storage && next.cmpdOffset.isNone then
            step.cmpdOffset <|> some o else next.cmpdOffset } := by
  unfold nextStepOf
  by_cases hp : (next.payload.isNone && isPlatformCommand next.command) = true
  · simp only [hp, if_true]
    split <;> rfl
  · simp only [hp, Bool.false_eq_true, if_false]
    split <;> rfl

section
variable (step next : Step) (o : CompoundOffset)

@[simp] theorem nextStepOf_system : (nextStepOf step next o).system = next.system := by rw [nextStepOf_eq]
@[simp] theorem nextStepOf_concern : (nextStepOf step next o).concern = next.concern := by rw [nextStepOf_eq]
@[simp] theorem nextStepOf_command : (nextStepOf step next o).command = next.command := by rw [nextStepOf_eq]
@[simp] theorem nextStepOf_key : (nextStepOf step next o).key = next.key := by rw [nextStepOf_eq]
@[simp] theorem nextStepOf_effectiveTime : (nextStepOf step next o).effectiveTime = next.effectiveTime := by
  rw [nextStepOf_eq]
@[simp] theorem nextStepOf_result : (nextStepOf step next o).result = next.result := by rw [nextStepOf_eq]

theorem nextStepOf_payload : (nextStepOf step next o).payload = next.payload ∨
    next.payload = none ∧ isReservedCommand next.command = false ∧
      (nextStepOf step next o).payload = (step.result.getD {}).payload := by
  rw [nextStepOf_eq]
  dsimp only
  split
  · rename_i h
    exact .inr ⟨by simp at h; exact h.1, by simpa [isPlatformCommand] using (Bool.and_eq_true_iff.1 h).2, rfl⟩
  · exact .inl rfl

theorem nextStepOf_offset : (nextStepOf step next o).cmpdOffset = next.cmpdOffset ∨
    next.system = .storage ∧ next.cmpdOffset = none ∧
      (nextStepOf step next o).cmpdOffset = (step.cmpdOffset <|> some o) := by
  rw [nextStepOf_eq]
  dsimp only
  split
  · rename_i h
    simp only [Bool.and_eq_true, decide_eq_true_eq, Option.isNone_iff_eq_none] at h
    exact .inr ⟨h.1, h.2, rfl⟩
  · exact .inl rfl

end

theorem looksUp_keyless {step : Step} (h : step.looksUp = true) : step.isKeylessStep = false := by
  simp only [Step.looksUp, Bool.and_eq_true, Bool.not_eq_true'] at h
  exact h.1.2

theorem looksUp_process {step : Step} (h : step.looksUp = true) : step.system = .process := by
  simp only [Step.looksUp, Bool.and_eq_true, decide_eq_true_eq] at h
  exact h.1.1

end

/-! ## The cases -/

section
variable {env : Env} {pb : RelatedCodecs} {σ : Type} {instanceStore : σ → InstanceStore}
  {handleCommand : HandleCommand σ}

/-- The step ran: `rslt`, `addSteps` and `s'` are what `handleCommand` returned. -/
structure Ran (handleCommand : HandleCommand σ) (storageTarget : String) (store : InstanceStore) (s : σ)
    (txn : ApecsTxn) (cur : Step) (key : String) (cmpdOffset : CompoundOffset)
    (out : Outcome σ) (call : Call) (rslt : Option StepResult) (addSteps : List Step) : Prop where
  /-- The offset a step runs at is its own. -/
  offset : (cur.keyed key cmpdOffset).cmpdOffset = some call.args.cmpdOffset
  called : call = callOf storageTarget txn (cur.keyed key cmpdOffset) (instanceFor store cur key) call.args.cmpdOffset
  /-- A step that looks for an instance only runs with one. -/
  found : cur.looksUp = true → (store.getInstance key).isSome
  handled : handleCommand call s = ((rslt, addSteps), out.state)
  recorded : out.call = some (call, rslt)

/-- How a step is reported that has ended without `OK`: what is published, and the producer that is
asked for. A transaction that does not bail out logs a text exactly where there is no result. -/
def ReportedAs {σ : Type} (env : Env) (rtxn : RtApecsTxn) (cur : Step) (rslt : Option StepResult) (out : Outcome σ) : Prop :=
  ∃ (code : Code) (log : Bool) (msg : String),
    out.published = produceApecsTxnError env rtxn rtxn.txn.currentStepIdx { cur with result := rslt } code log msg ∧
      out.asked = [apecsTxnErrorAsked env rtxn rtxn.txn.currentStepIdx { cur with result := rslt } code log msg] ∧
      (rtxn.txn.uponError ≠ .bailout → log = rslt.isNone ∧ (log = true → msg = nilResultText env cur))

/-- What becomes of a message whose transaction stands at `cur`. -/
inductive Advanced (env : Env) (pb : RelatedCodecs) (instanceStore : σ → InstanceStore)
    (handleCommand : HandleCommand σ) (s : σ) (storageTarget : String) (rtxn : RtApecsTxn) (tp : TopicParts)
    (cmpdOffset : CompoundOffset) (done : List Step) (cur : Step) (rest : List Step) (out : Outcome σ) : Prop
  /-- Nothing ran, an error is reported. A step that needs no key and has an offset always runs. -/
  | rejected (state : out.state = s) (call : out.call = none) (fault : out.fault = none)
      (errors : ErrorOnly out.published) (code : out.code ≠ .stepAlreadyComplete ∧ out.code ≠ .ok)
      (keyed : cur.concern = tp.concern → cur.system = tp.system →
        (cur.keyed cur.key cmpdOffset).cmpdOffset.isSome → cur.isKeylessStep = false)
      (reports : Reports rtxn.txn.assocTxns out.published)
  /-- The instance is not in the store: a storage read is published. -/
  | missed (key : String) (p : Publication) (concern : cur.concern = tp.concern)
      (system : cur.system = tp.system) (keyed : stepKey rtxn.txn cur = .ok (some key))
      (looksUp : cur.looksUp = true) (missing : (instanceStore s).getInstance key = none)
      (state : out.state = s) (call : out.call = none) (fault : out.fault = none)
      (published : out.published = [p]) (code : out.code = .ok)
      (publishes : Publishes env
        { rtxn.txn with forwardSteps := done ++ missSteps (cur.keyed key cmpdOffset) rest cmpdOffset }
        rtxn.traceParent (readStep (cur.keyed key cmpdOffset) cmpdOffset) p)
  /-- The step ran and did not succeed. -/
  | failed (key : String) (call : Call) (rslt : Option StepResult) (addSteps : List Step)
      (concern : cur.concern = tp.concern) (system : cur.system = tp.system)
      (keyed : stepKey rtxn.txn cur = .ok (some key))
      (ran : Ran handleCommand storageTarget (instanceStore s) s rtxn.txn cur key cmpdOffset out call rslt addSteps)
      (notOk : ∀ r, rslt = some r → r.code ≠ .ok)
      (published : ReportedAs env
        ⟨{ rtxn.txn with forwardSteps := done ++ cur.keyed key cmpdOffset :: rest }, rtxn.traceParent⟩
        (cur.keyed key cmpdOffset) rslt out)
      (fault : out.fault = none)
      (reports : Reports rtxn.txn.assocTxns out.published)
  /-- The step succeeded, and the transaction goes on to the next one or completes. -/
  | succeeded (key : String) (call : Call) (r : StepResult) (addSteps : List Step)
      (concern : cur.concern = tp.concern) (system : cur.system = tp.system)
      (keyed : stepKey rtxn.txn cur = .ok (some key))
      (ran : Ran handleCommand storageTarget (instanceStore s) s rtxn.txn cur key cmpdOffset out call (some r) addSteps)
      (isOk : r.code = .ok) (code : out.code = .ok)
      (next : (out.published, out.fault) = produceNextStep env pb (instanceStore out.state)
        ⟨{ rtxn.txn with forwardSteps := done ++
            (cur.keyed key cmpdOffset).done r (instanceFor (instanceStore s) cur key) :: (addSteps ++ rest) },
          rtxn.traceParent⟩
        rtxn.txn.currentStepIdx ((cur.keyed key cmpdOffset).done r (instanceFor (instanceStore s) cur key))
        cmpdOffset)
      (asked : out.asked = nextStepAsked env pb (instanceStore out.state)
        ⟨{ rtxn.txn with forwardSteps := done ++
            (cur.keyed key cmpdOffset).done r (instanceFor (instanceStore s) cur key) :: (addSteps ++ rest) },
          rtxn.traceParent⟩
        rtxn.txn.currentStepIdx ((cur.keyed key cmpdOffset).done r (instanceFor (instanceStore s) cur key))
        cmpdOffset)

variable {s : σ} {storageTarget : String} {rtxn : RtApecsTxn} {tp : TopicParts}
  {cmpdOffset : CompoundOffset} {done rest : List Step} {cur : Step}

/-- The key a step runs under is its own, or that of the result before it. -/
theorem stepKey_cases {txn : ApecsTxn} (at' : txn.At done cur rest) :
    (∃ key, stepKey txn cur = .ok (some key)) ∨ stepKey txn cur = .ok none := by
  unfold stepKey
  rw [at'.previousStep]
  split
  · cases done.getLast? with
    | none => exact .inr rfl
    | some prev =>
      dsimp only
      cases prev.result with
      | none => exact .inr rfl
      | some r =>
        dsimp only
        split
        · exact .inl ⟨_, rfl⟩
        · exact .inr rfl
  · exact .inl ⟨_, rfl⟩

/-- Only a step that has to have a key can be without one. -/
theorem stepKey_none {txn : ApecsTxn} {step : Step} (h : stepKey txn step = .ok none) :
    step.isKeylessStep = false := by
  unfold stepKey at h
  split at h
  · rename_i hk
    simp only [Bool.and_eq_true, Bool.not_eq_true'] at hk
    exact hk.2
  · cases h

theorem injectRead_eq {txn : ApecsTxn} (at' : txn.At done cur rest) (h : cur.system = .process) :
    injectRead txn cur cmpdOffset = .ok { txn with forwardSteps := done ++ missSteps cur rest cmpdOffset } := by
  unfold injectRead missSteps
  by_cases hr : cur.command = read
  · simp [h, hr, at'.replaceStep]
  · simp [h, hr, at'.insertSteps_here]

/-- With the storage read in place the transaction stands at that. -/
theorem ApecsTxn.At.miss {txn : ApecsTxn} (at' : txn.At done cur rest) (step : Step) (cmpdOffset : CompoundOffset) :
    ({ txn with forwardSteps := done ++ missSteps step rest cmpdOffset } : ApecsTxn).At done
      (readStep step cmpdOffset) (missAhead step rest) := by
  rw [missSteps_eq]
  exact at'.withSteps _ _

theorem mem_missAhead {step s : Step} (h : s ∈ missAhead step rest) : s = step ∨ s ∈ rest := by
  unfold missAhead at h
  split at h
  · exact .inr h
  · exact List.mem_cons.1 h

/-- The transaction on its next step. -/
theorem ApecsTxn.At.next {txn : ApecsTxn} (at' : txn.At done cur rest) (step next : Step) (tail : List Step) :
    ({ txn with
        currentStepIdx := txn.currentStepIdx + 1,
        forwardSteps := (done ++ [step]) ++ next :: tail } : ApecsTxn).At (done ++ [step]) next tail :=
  ⟨at'.direction, rfl, by simp [at'.idx]⟩

variable (env s rtxn cmpdOffset) in
theorem advanceMiss_cases (valid : traceParentIsValid rtxn.traceParent = true)
    (at' : rtxn.txn.At done cur rest) (h : cur.system = .process) :
    let out := advanceMiss env s rtxn cur cmpdOffset
    out.state = s ∧ out.call = none ∧ out.fault = none ∧
      ((ErrorOnly out.published ∧ out.code = .internal ∧ Reports rtxn.txn.assocTxns out.published) ∨
        (out.code = .ok ∧ ∃ p, out.published = [p] ∧ Publishes env
          { rtxn.txn with forwardSteps := done ++ missSteps cur rest cmpdOffset }
          rtxn.traceParent (readStep cur cmpdOffset) p)) := by
  have at'' := at'.miss cur cmpdOffset
  dsimp only
  unfold advanceMiss
  simp only [injectRead_eq at' h]
  cases hp : produceCurrentStep env { rtxn.txn with forwardSteps := done ++ missSteps cur rest cmpdOffset }
      rtxn.traceParent with
  | ok p =>
    obtain ⟨step, hstep, hpub⟩ := produceCurrentStep_ok hp
    rw [at''.currentStep] at hstep
    cases hstep
    exact ⟨rfl, rfl, rfl, .inr ⟨rfl, p, rfl, hpub⟩⟩
  | error t =>
    cases t with
    | panic f => exact absurd hp (produceCurrentStep_panic valid at''.currentStep)
    | err e =>
      obtain ⟨pubs, hpubs⟩ : ∃ pubs, produceErrorDefault env
          ⟨{ rtxn.txn with forwardSteps := done ++ missSteps cur rest cmpdOffset }, rtxn.traceParent⟩ .internal true
          s!"advanceApecsTxn error=\"{e.text}\": Failed produceCurrentStep for next step" = .ok pubs := by
        unfold produceErrorDefault
        rw [at''.firstForwardStep]
        exact ⟨_, rfl⟩
      have reports := produceErrorDefault_reports at'' rfl (by decide) hpubs
      simp only [hpubs]
      exact ⟨trivial, trivial, trivial, .inl ⟨produceErrorDefault_errorOnly hpubs, trivial, reports⟩⟩

variable (env pb instanceStore rtxn tp cmpdOffset) in
/-- The call of the handler, and what follows it. -/
theorem advanceResult_cases (s' : σ) (call : Call) (rslt : Option StepResult) (addSteps : List Step)
    {inst : Option Bytes} (at' : rtxn.txn.At done cur rest)
    (pending : cur.result = none) (system : cur.system = tp.system)
    (hinst : call.args.inst = inst) :
    let out := advanceResult env pb instanceStore s' rtxn tp cur call rslt addSteps cmpdOffset
    out.state = s' ∧ out.call = some (call, rslt) ∧
      (((∀ r, rslt = some r → r.code ≠ .ok) ∧ out.fault = none ∧
          Reports rtxn.txn.assocTxns out.published ∧ ReportedAs env rtxn cur rslt out) ∨
        ∃ r, rslt = some r ∧ r.code = .ok ∧ out.code = .ok ∧
          (out.published, out.fault) = produceNextStep env pb (instanceStore s')
            ⟨{ rtxn.txn with forwardSteps := done ++ cur.done r inst :: (addSteps ++ rest) }, rtxn.traceParent⟩
            rtxn.txn.currentStepIdx (cur.done r inst) cmpdOffset ∧
          out.asked = nextStepAsked env pb (instanceStore s')
            ⟨{ rtxn.txn with forwardSteps := done ++ cur.done r inst :: (addSteps ++ rest) }, rtxn.traceParent⟩
            rtxn.txn.currentStepIdx (cur.done r inst) cmpdOffset) := by
  dsimp only
  unfold advanceResult
  cases rslt with
  | none =>
    have same : { cur with result := none } = cur := by rw [← pending]
    dsimp only
    unfold ReportedAs
    rw [same]
    split
    · rename_i bails
      exact ⟨rfl, rfl, .inl ⟨by simp, rfl, produceApecsTxnError_reports at' (by simp [pending]) (by decide),
        _, _, _, rfl, rfl, fun own => absurd bails own⟩⟩
    · exact ⟨rfl, rfl, .inl ⟨by simp, rfl, produceApecsTxnError_reports at' (by simp [pending]) (by decide),
        _, _, _, rfl, rfl, fun _ => ⟨rfl, fun _ => rfl⟩⟩⟩
  | some r =>
    dsimp only
    split
    · rename_i hb
      simp only [isBailoutableCode, Bool.and_eq_true, decide_eq_true_eq] at hb
      have notOk := hb.1.1.1.1.1
      have bails := hb.2
      exact ⟨rfl, rfl, .inl ⟨by rintro _ ⟨⟩; exact notOk, rfl,
        produceApecsTxnError_reports at' (by rintro _ ⟨⟩; exact notOk) notOk,
        _, _, _, rfl, rfl, fun own => absurd bails own⟩⟩
    split
    · rename_i hc
      exact ⟨rfl, rfl, .inl ⟨by rintro _ ⟨⟩; exact hc, rfl,
        produceApecsTxnError_reports at' (by rintro _ ⟨⟩; exact hc) hc,
        _, _, _, rfl, rfl, fun _ => ⟨rfl, fun log => absurd log (by decide)⟩⟩⟩
    rename_i hc
    have isOk : r.code = .ok := by simpa using hc
    have hdone : (if tp.system = .process && r.inst.isSome then
        { cur with result := some { r with payload := r.payload <|> cur.payload }, inst := call.args.inst }
        else { cur with result := some { r with payload := r.payload <|> cur.payload } }) = cur.done r inst := by
      unfold Step.done
      rw [← system, hinst]
      split <;> rfl
    have inserted : (if addSteps.isEmpty then Except.ok (rtxn.txn.setStep rtxn.txn.currentStepIdx (cur.done r inst))
        else (rtxn.txn.setStep rtxn.txn.currentStepIdx (cur.done r inst)).insertSteps
          (rtxn.txn.currentStepIdx + 1) addSteps) =
        .ok { rtxn.txn with forwardSteps := done ++ cur.done r inst :: (addSteps ++ rest) } := by
      rw [at'.setStep_eq]
      cases addSteps with
      | nil => rfl
      | cons add adds => exact (at'.withSteps (cur.done r inst) rest).insertSteps_next (add :: adds)
    simp only [hdone, inserted]
    exact ⟨trivial, trivial, .inr ⟨r, rfl, isOk, isOk, rfl, rfl⟩⟩

theorem advanceKeyed_cases {key : String} (valid : traceParentIsValid rtxn.traceParent = true)
    (at' : rtxn.txn.At done cur rest) (pending : cur.result = none) (concern : cur.concern = tp.concern)
    (system : cur.system = tp.system) (keyed : stepKey rtxn.txn cur = .ok (some key)) :
    Advanced env pb instanceStore handleCommand s storageTarget rtxn tp cmpdOffset done cur rest
      (advanceKeyed env pb instanceStore handleCommand s storageTarget rtxn tp { cur with key := key } cmpdOffset) := by
  have hstep : (if ({ cur with key := key } : Step).system = .process then
      { { cur with key := key } with cmpdOffset := some cmpdOffset } else { cur with key := key }) =
      cur.keyed key cmpdOffset := by
    unfold Step.keyed
    split <;> rfl
  have hat := at'.withSteps (cur.keyed key cmpdOffset) rest
  unfold advanceKeyed
  simp only [hstep, at'.setStep_eq, keyed_system, keyed_isKeylessStep, keyed_isInstanceStoreStep,
    keyed_key, keyed_command, keyed_concern, keyed_payload, keyed_effectiveTime]
  have hlook : (cur.system = .process && !cur.isKeylessStep && !cur.isInstanceStoreStep) = cur.looksUp := rfl
  have hinst : (if cur.looksUp then (instanceStore s).getInstance key else none) =
      instanceFor (instanceStore s) cur key := rfl
  simp only [hlook, hinst]
  split
  · -- the instance is not in the store
    rename_i hmiss
    simp only [Bool.and_eq_true, Option.isNone_iff_eq_none] at hmiss
    have missing : (instanceStore s).getInstance key = none := by
      simpa [instanceFor, hmiss.1] using hmiss.2
    have process := looksUp_process hmiss.1
    obtain ⟨state, call, fault, ⟨errors, code, reports⟩ | ⟨code, p, published, publishes⟩⟩ :=
      advanceMiss_cases env s
        ⟨{ rtxn.txn with forwardSteps := done ++ cur.keyed key cmpdOffset :: rest }, rtxn.traceParent⟩
        cmpdOffset valid hat (by simpa using process)
    · exact .rejected state call fault errors (by rw [code]; simp) (fun _ _ _ => looksUp_keyless hmiss.1) reports
    · exact .missed key p concern system keyed hmiss.1 missing state call fault published code publishes
  have stuck : ∀ r, (cur.keyed key cmpdOffset).result = some r → r.code ≠ .ok := by simp [pending]
  split
  · rename_i hexists
    simp only [Bool.and_eq_true] at hexists
    refine .rejected rfl rfl rfl produceError_errorOnly (by simp) (fun _ _ _ => ?_) ?_
    · apply looksUp_keyless
      by_contra hl
      simp [instanceFor, hl] at hexists
    · exact produceApecsTxnError_reports hat stuck (by decide)
  rename_i hfound _
  split
  · rename_i hnone
    refine .rejected rfl rfl rfl produceError_errorOnly (by simp) (fun _ _ offset => ?_) ?_
    · have same : (cur.keyed key cmpdOffset).cmpdOffset = (cur.keyed cur.key cmpdOffset).cmpdOffset := by
        unfold Step.keyed
        split <;> rfl
      rw [← same, hnone] at offset
      cases offset
    · exact produceApecsTxnError_reports hat stuck (by decide)
  rename_i stepOffset hoffset
  let call := callOf storageTarget rtxn.txn (cur.keyed key cmpdOffset) (instanceFor (instanceStore s) cur key) stepOffset
  have hcall : Call.mk storageTarget cur.concern cur.system cur.command rtxn.txn.direction
      { txnId := rtxn.txn.id, key := key, inst := instanceFor (instanceStore s) cur key,
        payload := cur.payload, effectiveTime := cur.effectiveTime.getD 0, cmpdOffset := stepOffset } = call := by
    simp [call, callOf]
  rw [hcall]
  rcases hres : handleCommand call s with ⟨⟨rslt, addSteps⟩, s'⟩
  obtain ⟨state, recorded, h⟩ := advanceResult_cases env pb instanceStore
    ⟨{ rtxn.txn with forwardSteps := done ++ cur.keyed key cmpdOffset :: rest }, rtxn.traceParent⟩ tp
    cmpdOffset s' call rslt addSteps hat (by simpa using pending) (by simpa using system) rfl
  have ran : Ran handleCommand storageTarget (instanceStore s) s rtxn.txn cur key cmpdOffset
      (advanceResult env pb instanceStore s'
        ⟨{ rtxn.txn with forwardSteps := done ++ cur.keyed key cmpdOffset :: rest }, rtxn.traceParent⟩ tp
        (cur.keyed key cmpdOffset) call rslt addSteps cmpdOffset) call rslt addSteps := by
    refine ⟨hoffset, rfl, ?_, by rw [hres, state], recorded⟩
    intro hl
    rw [Bool.and_eq_true, not_and, Option.isNone_iff_eq_none] at hfound
    simpa [instanceFor, hl, Option.ne_none_iff_isSome] using hfound hl
  rcases h with ⟨notOk, fault, reports, published⟩ | ⟨r, rfl, isOk, code, next, asked⟩
  · exact .failed key call rslt addSteps concern system keyed ran notOk published fault reports
  · refine .succeeded key call r addSteps concern system keyed ran isOk code ?_ ?_
    · rw [next, state]
      rfl
    · rw [asked, state]
      rfl

variable (env pb instanceStore handleCommand s storageTarget rtxn tp cmpdOffset) in
/-- What becomes of a message. -/
theorem advance_cases (valid : traceParentIsValid rtxn.traceParent = true)
    (at' : rtxn.txn.At done cur rest) (pending : cur.result = none) :
    Advanced env pb instanceStore handleCommand s storageTarget rtxn tp cmpdOffset done cur rest
      (advanceApecsTxn env pb instanceStore handleCommand s storageTarget rtxn tp cmpdOffset) := by
  have stuck : ∀ r, cur.result = some r → r.code ≠ .ok := by simp [pending]
  unfold advanceApecsTxn
  simp only [at'.currentStep]
  split
  · rename_i r hr
    rw [pending] at hr
    cases hr
  split
  · rename_i hne
    exact .rejected rfl rfl rfl produceError_errorOnly (by simp) (fun concern _ => absurd concern hne)
      (produceApecsTxnError_reports at' stuck (by decide))
  split
  · rename_i hne
    exact .rejected rfl rfl rfl produceError_errorOnly (by simp) (fun _ system => absurd system hne)
      (produceApecsTxnError_reports at' stuck (by decide))
  rename_i hconcern hsystem
  rcases stepKey_cases at' with ⟨key, keyed⟩ | keyed
  · rw [keyed]
    exact advanceKeyed_cases valid at' pending (by simpa using hconcern) (by simpa using hsystem) keyed
  · rw [keyed]
    exact .rejected rfl rfl rfl produceError_errorOnly (by simp) (fun _ _ _ => stepKey_none keyed)
      (produceApecsTxnError_reports at' stuck (by decide))

variable (rtxn) in
/-- A message whose step has a result already is reported, and nothing runs. -/
theorem advance_complete (at' : rtxn.txn.At done cur rest) {r : StepResult} (complete : cur.result = some r) :
    let out := advanceApecsTxn env pb instanceStore handleCommand s storageTarget rtxn tp cmpdOffset
    out.call = none ∧ ErrorOnly out.published ∧
      (r.code ≠ .ok → Reports rtxn.txn.assocTxns out.published) := by
  unfold advanceApecsTxn
  simp only [at'.currentStep, complete]
  refine ⟨trivial, produceError_errorOnly, fun notOk => ?_⟩
  apply produceApecsTxnError_reports at' _ (by decide)
  intro r' hr'
  rw [complete] at hr'
  cases hr'
  exact notOk

end

end Rocketcycle
