import Rocketcycle.Apecs.TxnLog

/-!
# Transactions that are sent on

What a consumer has received is valid and can be marshalled, whichever way the transaction goes. It
stays so with its current step keyed and with a storage read in front of that, so these are always
published.
-/

namespace Rocketcycle

open Command

/-- The producer that is asked for. -/
def Asked.key (a : Asked) : String × TopicName := (a.concern, a.topic)

section
variable {txn : ApecsTxn} {traceParent : String} {done rest steps : List Step} {cur step : Step} {cmpdOffset : CompoundOffset}
  {key : String} {env : Env}

/-- `txn` goes back and stands at `cur`. -/
structure ApecsTxn.Back (txn : ApecsTxn) (done : List Step) (cur : Step) (rest : List Step) : Prop where
  direction : txn.direction = .reverse
  steps : txn.reverseSteps = done ++ cur :: rest
  idx : txn.currentStepIdx = done.length

namespace ApecsTxn.Back

theorem getSteps (h : txn.Back done cur rest) : txn.getSteps = done ++ cur :: rest := by
  simp [ApecsTxn.getSteps, h.direction, h.steps]

theorem setSteps_eq (h : txn.Back done cur rest) (steps : List Step) :
    txn.setSteps steps = { txn with reverseSteps := steps } := by
  simp [ApecsTxn.setSteps, h.direction]

theorem currentStep (h : txn.Back done cur rest) : txn.currentStep = some cur := by
  simp [ApecsTxn.currentStep, stepAt, h.getSteps, h.idx]

theorem setStep_eq (h : txn.Back done cur rest) (step : Step) :
    txn.setStep txn.currentStepIdx step = { txn with reverseSteps := done ++ step :: rest } := by
  simp [ApecsTxn.setStep, h.setSteps_eq, h.getSteps, h.idx]

theorem withSteps (h : txn.Back done cur rest) (cur' : Step) (rest' : List Step) :
    ({ txn with reverseSteps := done ++ cur' :: rest' } : ApecsTxn).Back done cur' rest' :=
  ⟨h.direction, rfl, h.idx⟩

theorem injectRead_eq (h : txn.Back done cur rest) (process : cur.system = .process) :
    injectRead txn cur cmpdOffset = .ok { txn with reverseSteps := done ++ missSteps cur rest cmpdOffset } := by
  unfold injectRead missSteps
  by_cases isRead : cur.command = read
  · have inside : ¬((txn.currentStepIdx < 0 || txn.currentStepIdx ≥ (done ++ cur :: rest).length) = true) := by
      rw [h.idx, List.length_append, List.length_cons, Bool.or_eq_true, decide_eq_true_eq, decide_eq_true_eq]
      omega
    simp only [process, isRead, decide_true, Bool.and_self, if_true, ApecsTxn.replaceStep, h.getSteps]
    rw [if_neg inside, h.setSteps_eq, h.idx]
    simp
  · have loop : insertLoop txn.currentStepIdx [readStep cur cmpdOffset] (done ++ cur :: rest) 0 =
        done ++ [readStep cur cmpdOffset] ++ cur :: rest := by
      apply insertLoop_append
      simp [h.idx]
    have len : (done ++ cur :: rest).length = done.length + rest.length + 1 := by
      simp
      omega
    have idx := h.idx
    simp only [process, isRead, decide_true, decide_false, Bool.and_false, Bool.false_eq_true, if_false,
      ApecsTxn.insertSteps, h.getSteps, loop, h.setSteps_eq, len]
    rw [if_neg (by omega), if_neg (by omega)]
    simp

end ApecsTxn.Back

theorem stepKey_back (back : txn.Back done cur rest) (f : Fault) : stepKey txn cur ≠ .error f := by
  have previous : ∃ prev, txn.previousStep = some prev := by
    unfold ApecsTxn.previousStep
    rcases List.eq_nil_or_concat done with rfl | ⟨front, last, rfl⟩
    · rw [if_pos (by simp [back.idx])]
      exact ⟨none, rfl⟩
    · rw [List.concat_eq_append] at back
      have pos : (front ++ [last]).length = front.length + 1 := by simp
      rw [back.idx, back.getSteps, pos, if_neg (by omega)]
      refine ⟨some last, ?_⟩
      simp [stepAt]
  obtain ⟨prev, hprev⟩ := previous
  unfold stepKey
  rw [hprev]
  split
  · cases prev with
    | none => simp
    | some prev =>
      dsimp only
      split <;> simp
  · simp

/-! ## Validity -/

/-- What validation checks, in both directions. -/
theorem validate_iff : (RtApecsTxn.mk txn traceParent).validate = .ok () ↔
    txn.id ≠ "" ∧ 0 ≤ txn.currentStepIdx ∧ (txn.direction = .forward ∨ txn.direction = .reverse) ∧
      txn.currentStepIdx < txn.getSteps.length ∧ ∀ s ∈ txn.getSteps, s.ValidSystem := by
  have checked : ∀ {name : String} {steps : List Step}, 0 ≤ txn.currentStepIdx →
      (validateSteps txn.id txn.currentStepIdx steps name = .ok () ↔
        txn.currentStepIdx < steps.length ∧ ∀ s ∈ steps, s.ValidSystem) := by
    intro name steps nonneg
    refine ⟨validateSteps_ok, fun ⟨inside, systems⟩ => validateSteps_of inside ?_ systems⟩
    rintro rfl
    rw [List.length_nil] at inside
    omega
  unfold RtApecsTxn.validate
  dsimp only
  by_cases hid : txn.id = ""
  · simp [hid]
  by_cases negative : txn.currentStepIdx < 0
  · rw [if_neg hid, if_pos negative]
    constructor
    · rintro ⟨⟩
    · rintro ⟨-, nonneg, -⟩
      omega
  have nonneg : 0 ≤ txn.currentStepIdx := by omega
  rw [if_neg hid, if_neg negative]
  unfold ApecsTxn.getSteps
  cases direction : txn.direction with
  | forward => simp [checked nonneg, hid, nonneg]
  | reverse => simp [checked nonneg, hid, nonneg]
  | unknown n => simp

/-- A transaction that is valid and can be marshalled, and its trace parent. -/
structure Received (txn : ApecsTxn) (traceParent : String) : Prop where
  valid : traceParentIsValid traceParent = true
  validated : (RtApecsTxn.mk txn traceParent).validate = .ok ()
  utf8 : ∀ s ∈ txn.forwardSteps ++ txn.reverseSteps, s.validUtf8 = true

/-- Where it stands. -/
theorem Received.stands (h : Received txn traceParent) :
    (∃ done cur rest, txn.At done cur rest) ∨ ∃ done cur rest, txn.Back done cur rest := by
  obtain ⟨-, nonneg, forward | reverse, inside, -⟩ := validate_iff.1 h.validated
  · rw [ApecsTxn.getSteps, if_pos forward] at inside
    exact .inl (ApecsTxn.exists_at forward nonneg inside)
  · right
    rw [ApecsTxn.getSteps, if_neg (by rw [reverse]; decide)] at inside
    obtain ⟨n, hn⟩ := Int.eq_ofNat_of_zero_le nonneg
    have lt : n < txn.reverseSteps.length := by omega
    refine ⟨txn.reverseSteps.take n, txn.reverseSteps[n], txn.reverseSteps.drop (n + 1), reverse, ?_, ?_⟩
    · rw [← List.drop_eq_getElem_cons lt, List.take_append_drop]
    · rw [List.length_take_of_le (by omega)]
      exact hn

theorem mem_getSteps {s : Step} (h : s ∈ txn.getSteps) : s ∈ txn.forwardSteps ++ txn.reverseSteps := by
  unfold ApecsTxn.getSteps at h
  split at h
  · exact List.mem_append_left _ h
  · exact List.mem_append_right _ h

theorem Received.each (h : Received txn traceParent) : ∀ s ∈ txn.getSteps, s.ValidSystem ∧ s.validUtf8 = true :=
  fun s hs => ⟨(validate_iff.1 h.validated).2.2.2.2 s hs, h.utf8 s (mem_getSteps hs)⟩

/-- It stays so with other steps of this kind. -/
theorem Received.setSteps (h : Received txn traceParent) (inside : txn.currentStepIdx < steps.length)
    (each : ∀ s ∈ steps, s.ValidSystem ∧ s.validUtf8 = true) : Received (txn.setSteps steps) traceParent := by
  obtain ⟨id, nonneg, known, -, -⟩ := validate_iff.1 h.validated
  by_cases forward : txn.direction = .forward
  · rw [ApecsTxn.setSteps, if_pos forward]
    refine ⟨h.valid, validate_iff.2 ⟨id, nonneg, known, ?_⟩, ?_⟩
    · rw [ApecsTxn.getSteps, if_pos forward]
      exact ⟨inside, fun s hs => (each s hs).1⟩
    · intro s hs
      rcases List.mem_append.1 hs with hs | hs
      · exact (each s hs).2
      · exact h.utf8 s (List.mem_append_right _ hs)
  · rw [ApecsTxn.setSteps, if_neg forward]
    refine ⟨h.valid, validate_iff.2 ⟨id, nonneg, known, ?_⟩, ?_⟩
    · rw [ApecsTxn.getSteps, if_neg forward]
      exact ⟨inside, fun s hs => (each s hs).1⟩
    · intro s hs
      rcases List.mem_append.1 hs with hs | hs
      · exact h.utf8 s (List.mem_append_left _ hs)
      · exact (each s hs).2

theorem Received.setStep (h : Received txn traceParent) (system : step.ValidSystem) (utf8 : step.validUtf8 = true) (idx : Int) :
    Received (txn.setStep idx step) traceParent := by
  apply h.setSteps
  · rw [List.length_set]
    exact (validate_iff.1 h.validated).2.2.2.1
  · intro s hs
    rcases List.mem_or_eq_of_mem_set hs with hs | rfl
    · exact h.each s hs
    · exact ⟨system, utf8⟩

theorem currentStep_mem (current : txn.currentStep = some cur) : cur ∈ txn.getSteps := by
  unfold ApecsTxn.currentStep stepAt at current
  split at current
  · cases current
  · exact List.mem_of_getElem? current

/-- The systems that validation lets pass have topics. -/
theorem Step.ValidSystem.topic (h : step.ValidSystem) : ∃ name, systemToTopic step.system = some name := by
  rcases h with hs | hs
  · exact ⟨_, by rw [hs]; rfl⟩
  · simp only [isStorageSystem, Bool.or_eq_true, decide_eq_true_eq] at hs
    rcases hs with hs | hs <;> exact ⟨_, by rw [hs]; rfl⟩

variable (env) in
/-- The step with which a transaction is sent on decides on the producer. -/
theorem Received.published (h : Received txn traceParent) (current : txn.currentStep = some cur) :
    ∃ name p, systemToTopic cur.system = some name ∧ producerKey txn traceParent = .ok (cur.concern, name) ∧
      produceCurrentStep env txn traceParent = .ok p := by
  have fresh : newRtApecsTxn txn traceParent = some (.ok ⟨txn, traceParent⟩) := by
    simp [newRtApecsTxn, h.valid, h.validated, Except.map]
  have marshals : (txn.forwardSteps ++ txn.reverseSteps).all Step.validUtf8 = true := List.all_eq_true.2 h.utf8
  obtain ⟨name, hname⟩ := (h.each cur (currentStep_mem current)).1.topic
  have published : ∃ p, produceCurrentStep env txn traceParent = .ok p := by
    unfold produceCurrentStep
    simp only [fresh, current, hname, marshalTxn, marshals, if_true]
    exact ⟨_, rfl⟩
  obtain ⟨p, hp⟩ := published
  refine ⟨name, p, hname, ?_, hp⟩
  unfold producerKey
  simp only [fresh, current, hname]

/-! ## The current step -/

/-- The transaction with its current step keyed. -/
def RtApecsTxn.keyed (rtxn : RtApecsTxn) (cur : Step) (key : String) (cmpdOffset : CompoundOffset) : RtApecsTxn :=
  { rtxn with txn := rtxn.txn.setStep rtxn.txn.currentStepIdx (cur.keyed key cmpdOffset) }

theorem setSteps_idx (txn : ApecsTxn) (steps : List Step) : (txn.setSteps steps).currentStepIdx = txn.currentStepIdx := by
  unfold ApecsTxn.setSteps
  split <;> rfl

theorem setSteps_getSteps (txn : ApecsTxn) (steps : List Step) : (txn.setSteps steps).getSteps = steps := by
  unfold ApecsTxn.setSteps
  split
  · rename_i forward
    exact if_pos forward
  · rename_i back
    exact if_neg back

theorem setStep_currentStep (current : txn.currentStep = some cur) (step : Step) :
    (txn.setStep txn.currentStepIdx step).currentStep = some step := by
  unfold ApecsTxn.currentStep stepAt at current ⊢
  unfold ApecsTxn.setStep
  rw [setSteps_idx, setSteps_getSteps]
  split
  · rename_i negative
    rw [if_pos negative] at current
    cases current
  · rename_i negative
    rw [if_neg negative] at current
    obtain ⟨inside, -⟩ := List.getElem?_eq_some_iff.1 current
    rw [List.getElem?_set_self inside]

theorem keyed_currentStep {rtxn : RtApecsTxn} (current : rtxn.txn.currentStep = some cur) :
    (rtxn.keyed cur key cmpdOffset).txn.currentStep = some (cur.keyed key cmpdOffset) :=
  setStep_currentStep current _

theorem Received.keyed {rtxn : RtApecsTxn} (h : Received rtxn.txn rtxn.traceParent) (current : rtxn.txn.currentStep = some cur)
    (pending : cur.result = none) :
    Received (rtxn.keyed cur key cmpdOffset).txn (rtxn.keyed cur key cmpdOffset).traceParent := by
  refine h.setStep ?_ (pending_utf8 (by simpa using pending)) _
  unfold Step.ValidSystem
  rw [keyed_system]
  exact (h.each cur (currentStep_mem current)).1

/-- The step before is there, so the key is found or missing. -/
theorem Received.stepKey (h : Received txn traceParent) (current : txn.currentStep = some cur) (f : Fault) :
    stepKey txn cur ≠ .error f := by
  rcases h.stands with ⟨done, cur', rest, at'⟩ | ⟨done, cur', rest, back⟩
  · obtain rfl := Option.some.inj (at'.currentStep.symm.trans current)
    rcases stepKey_cases at' with ⟨key, keyed⟩ | keyed <;> simp [keyed]
  · obtain rfl := Option.some.inj (back.currentStep.symm.trans current)
    exact stepKey_back back f

variable (cmpdOffset) in
/-- A storage read can be put in front of a process step. -/
theorem Received.injectRead (h : Received txn traceParent) (current : txn.currentStep = some cur) (process : cur.system = .process) :
    ∃ read, injectRead txn cur cmpdOffset = .ok read ∧ read.currentStep = some (readStep cur cmpdOffset) ∧
      Received read traceParent := by
  have storage : (readStep cur cmpdOffset).ValidSystem ∧ (readStep cur cmpdOffset).validUtf8 = true := ⟨.inr rfl, rfl⟩
  have known : ∀ {done rest : List Step}, txn.getSteps = done ++ cur :: rest →
      ∀ s ∈ done ++ missSteps cur rest cmpdOffset, s.ValidSystem ∧ s.validUtf8 = true := by
    intro done rest same s hs
    have old : ∀ s ∈ done ++ cur :: rest, s.ValidSystem ∧ s.validUtf8 = true := same ▸ h.each
    rw [missSteps_eq] at hs
    rcases List.mem_append.1 hs with hs | hs
    · exact old s (List.mem_append_left _ hs)
    rcases List.mem_cons.1 hs with rfl | hs
    · exact storage
    rcases mem_missAhead hs with rfl | hs
    · exact old _ (List.mem_append_right _ List.mem_cons_self)
    · exact old s (List.mem_append_right _ (List.mem_cons_of_mem _ hs))
  have inside : ∀ {done rest : List Step}, txn.currentStepIdx = done.length →
      txn.currentStepIdx < (done ++ missSteps cur rest cmpdOffset).length := by
    intro done rest idx
    rw [missSteps_eq, List.length_append, List.length_cons]
    omega
  rcases h.stands with ⟨done, cur', rest, at'⟩ | ⟨done, cur', rest, back⟩
  · obtain rfl := Option.some.inj (at'.currentStep.symm.trans current)
    have received := h.setSteps (inside at'.idx) (known at'.getSteps)
    rw [at'.setSteps_eq] at received
    exact ⟨_, injectRead_eq at' process, (at'.miss _ _).currentStep, received⟩
  · obtain rfl := Option.some.inj (back.currentStep.symm.trans current)
    have received := h.setSteps (inside back.idx) (known back.getSteps)
    rw [back.setSteps_eq] at received
    refine ⟨_, back.injectRead_eq process, ?_, received⟩
    rw [missSteps_eq]
    exact (back.withSteps _ _).currentStep

end

end Rocketcycle
