import Rocketcycle.Apecs.Runner

/-!
# The cursor

A forward transaction seen from its current step: the steps done, the current one, and the rest.
Every operation of the runner on the list of steps is one on this view.
-/

namespace Rocketcycle

namespace ApecsTxn

/-- `txn` goes forward and stands at `cur`, with `done` behind and `rest` ahead. -/
structure At (txn : ApecsTxn) (done : List Step) (cur : Step) (rest : List Step) : Prop where
  direction : txn.direction = .forward
  steps : txn.forwardSteps = done ++ cur :: rest
  idx : txn.currentStepIdx = done.length

namespace At

variable {txn : ApecsTxn} {done rest : List Step} {cur : Step}

theorem getSteps (h : txn.At done cur rest) : txn.getSteps = done ++ cur :: rest := by
  simp [ApecsTxn.getSteps, h.direction, h.steps]

theorem setSteps_eq (h : txn.At done cur rest) (steps : List Step) :
    txn.setSteps steps = { txn with forwardSteps := steps } := by
  simp [ApecsTxn.setSteps, h.direction]

theorem currentStep (h : txn.At done cur rest) : txn.currentStep = some cur := by
  simp [ApecsTxn.currentStep, stepAt, h.getSteps, h.idx]

/-- The previous step is the last one done. -/
theorem previousStep (h : txn.At done cur rest) : txn.previousStep = some done.getLast? := by
  unfold ApecsTxn.previousStep
  rcases List.eq_nil_or_concat done with rfl | ⟨front, last, rfl⟩
  · simp [h.idx]
  · rw [List.concat_eq_append] at h ⊢
    have pos : (front ++ [last]).length = front.length + 1 := by simp
    rw [h.idx, h.getSteps, pos, if_neg (by omega)]
    simp [stepAt]

theorem firstForwardStep (h : txn.At done cur rest) :
    txn.firstForwardStep = some ((done ++ [cur]).head (by simp)) := by
  unfold ApecsTxn.firstForwardStep
  rw [h.steps]
  cases done <;> rfl

theorem setStep (h : txn.At done cur rest) (step : Step) :
    (txn.setStep txn.currentStepIdx step).At done step rest := by
  refine ⟨?_, ?_, ?_⟩ <;> simp [ApecsTxn.setStep, h.setSteps_eq, h.getSteps, h.direction, h.idx]

theorem setStep_eq (h : txn.At done cur rest) (step : Step) :
    txn.setStep txn.currentStepIdx step = { txn with forwardSteps := done ++ step :: rest } := by
  simp [ApecsTxn.setStep, h.setSteps_eq, h.getSteps, h.idx]

/-- The transaction with other steps in the places of these. -/
theorem withSteps (h : txn.At done cur rest) (cur' : Step) (rest' : List Step) :
    ({ txn with forwardSteps := done ++ cur' :: rest' } : ApecsTxn).At done cur' rest' :=
  ⟨h.direction, rfl, h.idx⟩

end At

/-- Past the insertion point the loop copies. -/
theorem insertLoop_past {idx : Int} {steps : List Step} :
    ∀ {curr : List Step} {n : Nat}, idx < n → insertLoop idx steps curr n = curr
  | [], _, _ => rfl
  | s :: rest, n, h => by
    rw [insertLoop, if_neg (by omega), insertLoop_past (by omega)]

/-- The loop of `InsertSteps` puts the new steps in front of the step at the index. -/
theorem insertLoop_append {idx : Int} {steps rest : List Step} {cur : Step} :
    ∀ (done : List Step) (n : Nat), idx = n + done.length →
      insertLoop idx steps (done ++ cur :: rest) n = done ++ steps ++ cur :: rest
  | [], n, h => by
    have here : (n : Int) = idx := by simpa using h.symm
    simp only [List.nil_append, insertLoop]
    rw [if_pos here, insertLoop_past (by omega)]
  | s :: done, n, h => by
    simp only [List.length_cons] at h
    rw [List.cons_append, insertLoop, if_neg (by omega), insertLoop_append done (n + 1) (by omega)]
    simp

/-- Inserting in front of the current step. -/
theorem At.insertSteps_here {txn : ApecsTxn} {done rest : List Step} {cur : Step}
    (h : txn.At done cur rest) (step : Step) :
    txn.insertSteps txn.currentStepIdx [step] =
      .ok { txn with forwardSteps := done ++ step :: cur :: rest } := by
  have loop : insertLoop txn.currentStepIdx [step] (done ++ cur :: rest) 0 = done ++ [step] ++ cur :: rest := by
    apply insertLoop_append
    simp [h.idx]
  have len : (done ++ cur :: rest).length = done.length + rest.length + 1 := by simp; omega
  have idx := h.idx
  unfold ApecsTxn.insertSteps
  simp only [h.getSteps, loop, h.setSteps_eq, len]
  rw [if_neg (by omega), if_neg (by omega)]
  simp

/-- Inserting behind the current step. -/
theorem At.insertSteps_next {txn : ApecsTxn} {done rest : List Step} {cur : Step}
    (h : txn.At done cur rest) (steps : List Step) :
    txn.insertSteps (txn.currentStepIdx + 1) steps =
      .ok { txn with forwardSteps := done ++ cur :: (steps ++ rest) } := by
  have idx := h.idx
  have len : (done ++ cur :: rest).length = done.length + rest.length + 1 := by simp; omega
  unfold ApecsTxn.insertSteps
  simp only [h.getSteps, h.setSteps_eq, len]
  cases rest with
  | nil =>
    rw [if_pos (by simp; omega)]
    simp
  | cons next rest =>
    have loop : insertLoop (txn.currentStepIdx + 1) steps (done ++ [cur] ++ next :: rest) 0 =
        done ++ [cur] ++ steps ++ next :: rest := by
      apply insertLoop_append
      simp [h.idx]
    simp only [List.append_assoc, List.cons_append, List.nil_append] at loop
    rw [if_neg (by simp only [List.length_cons]; omega), if_neg (by omega), loop]

theorem At.replaceStep {txn : ApecsTxn} {done rest : List Step} {cur : Step}
    (h : txn.At done cur rest) (step : Step) :
    txn.replaceStep txn.currentStepIdx step =
      .ok { txn with forwardSteps := done ++ step :: rest } := by
  unfold ApecsTxn.replaceStep
  simp only [h.getSteps, h.idx, h.setSteps_eq, List.length_append, List.length_cons]
  rw [if_neg (by simp only [Bool.or_eq_true, decide_eq_true_eq]; omega)]
  simp

/-- Advancing ends at the last step. -/
theorem At.advanceStepIdx_last {txn : ApecsTxn} {done : List Step} {cur : Step}
    (h : txn.At done cur []) : txn.advanceStepIdx = none := by
  simp [ApecsTxn.advanceStepIdx, ApecsTxn.canAdvance, h.getSteps, h.idx]

/-- Before the last step, advancing moves the current step to the done ones. -/
theorem At.advanceStepIdx_cons {txn : ApecsTxn} {done rest : List Step} {cur next : Step}
    (h : txn.At done cur (next :: rest)) :
    ∃ txn', txn.advanceStepIdx = some txn' ∧ txn' = { txn with currentStepIdx := txn.currentStepIdx + 1 } ∧
      txn'.At (done ++ [cur]) next rest := by
  refine ⟨_, ?_, rfl, h.direction, ?_, ?_⟩
  · have len : ((done ++ cur :: next :: rest).length : Int) = done.length + rest.length + 2 := by
      simp only [List.length_append, List.length_cons]; omega
    rw [ApecsTxn.advanceStepIdx, ApecsTxn.canAdvance, h.getSteps, h.idx, len]
    rw [if_pos (by simp; omega)]
  · simp [h.steps]
  · simp [h.idx]

theorem At.wire {txn : ApecsTxn} {done rest : List Step} {cur : Step} (h : txn.At done cur rest) :
    (wireTxn txn).At (done.map wireStep) (wireStep cur) (rest.map wireStep) :=
  ⟨h.direction, by simp [wireTxn, h.steps], by simp [wireTxn, h.idx]⟩

/-- Where a transaction stands is determined by it. -/
theorem At.unique {txn : ApecsTxn} {done done' rest rest' : List Step} {cur cur' : Step}
    (h : txn.At done cur rest) (h' : txn.At done' cur' rest') : done = done' ∧ cur = cur' ∧ rest = rest' := by
  have len : done.length = done'.length := by have a := h.idx; have b := h'.idx; omega
  have eq := List.append_inj (h.steps.symm.trans h'.steps) len
  exact ⟨eq.1, (List.cons.inj eq.2).1, (List.cons.inj eq.2).2⟩

/-- Every valid forward transaction stands somewhere. -/
theorem exists_at {txn : ApecsTxn} (hd : txn.direction = .forward) (h0 : 0 ≤ txn.currentStepIdx)
    (h1 : txn.currentStepIdx < txn.forwardSteps.length) : ∃ done cur rest, txn.At done cur rest := by
  obtain ⟨n, hn⟩ := Int.eq_ofNat_of_zero_le h0
  have lt : n < txn.forwardSteps.length := by omega
  refine ⟨txn.forwardSteps.take n, txn.forwardSteps[n], txn.forwardSteps.drop (n + 1), hd, ?_, ?_⟩
  · rw [← List.drop_eq_getElem_cons lt, List.take_append_drop]
  · rw [List.length_take_of_le (by omega)]; exact hn

end ApecsTxn

end Rocketcycle
