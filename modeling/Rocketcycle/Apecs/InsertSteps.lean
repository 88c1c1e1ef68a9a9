import Rocketcycle.Apecs.Cursor

/-!
# Inserting steps

`InsertSteps` on the slice that it allocates: a slot holds a nil pointer, here `none`, until one of the
two loops writes it, and a write outside the slice is a panic. No slot is left over or written twice,
so that the slice is the list of steps with the new ones spliced in.
-/

namespace Rocketcycle

/-- `newSteps[newIdx] = step`, `none` being the panic. -/
def writeSlot (newSteps : List (Option Step)) (newIdx : Int) (step : Step) : Option (List (Option Step)) :=
  if 0 ≤ newIdx ∧ newIdx < newSteps.length then some (newSteps.set newIdx.toNat (some step)) else none

/-- The loop over the steps to insert. -/
def fillSteps : List Step → List (Option Step) → Int → Option (List (Option Step) × Int)
  | [], newSteps, newIdx => some (newSteps, newIdx)
  | step :: rest, newSteps, newIdx =>
    match writeSlot newSteps newIdx step with
    | none => none
    | some newSteps => fillSteps rest newSteps (newIdx + 1)

/-- The loop over the current steps. -/
def fillSlots (idx : Int) (steps : List Step) : List Step → List (Option Step) → Int → Option (List (Option Step))
  | [], newSteps, _ => some newSteps
  | curr :: rest, newSteps, newIdx =>
    match if newIdx = idx then fillSteps steps newSteps newIdx else some (newSteps, newIdx) with
    | none => none
    | some (newSteps, newIdx) =>
      match writeSlot newSteps newIdx curr with
      | none => none
      | some newSteps => fillSlots idx steps rest newSteps (newIdx + 1)

/-- The slots of the active list of steps after `InsertSteps`, `none` being its panic. -/
def ApecsTxn.insertedSlots (txn : ApecsTxn) (idx : Int) (steps : List Step) : Option (Except GoError (List (Option Step))) :=
  let currSteps := txn.getSteps
  if idx = currSteps.length then some (.ok ((currSteps ++ steps).map some))
  else if idx > currSteps.length then some (.error (.other "Index out of range"))
  else (fillSlots idx steps currSteps (List.replicate (currSteps.length + steps.length) none) 0).map .ok

/-- The steps of the direction that the transaction does not go in. -/
def ApecsTxn.idleSteps (txn : ApecsTxn) : List Step :=
  if txn.direction = .forward then txn.reverseSteps else txn.forwardSteps

/-! ## The loops -/

/-- The slots while they are filled from the front: `written` ones and then nil pointers. -/
def slots (written : List Step) (left : Nat) : List (Option Step) := written.map some ++ List.replicate left none

theorem writeSlot_next {newIdx : Int} {written : List Step} (left : Nat) (step : Step) (front : newIdx = written.length) :
    writeSlot (slots written (left + 1)) newIdx step = some (slots (written ++ [step]) left) := by
  have bound : 0 ≤ newIdx ∧ newIdx < (slots written (left + 1)).length := by
    simp only [slots, List.length_append, List.length_map, List.length_replicate]
    omega
  have here : newIdx.toNat = written.length := by omega
  unfold writeSlot
  rw [if_pos bound, slots, here, List.set_append_right _ _ (by simp), List.length_map, Nat.sub_self, List.replicate_succ]
  simp [slots]

theorem fillSteps_slots {newIdx : Int} {written : List Step} (left : Nat) (steps : List Step) (front : newIdx = written.length) :
    fillSteps steps (slots written (left + steps.length)) newIdx =
      some (slots (written ++ steps) left, newIdx + steps.length) := by
  induction steps generalizing written newIdx with
  | nil => simp [fillSteps]
  | cons step rest ih =>
    have next : left + (step :: rest).length = (left + rest.length) + 1 := by
      rw [List.length_cons]
      omega
    have more : newIdx + 1 = (written ++ [step]).length := by
      rw [List.length_append, List.length_singleton]
      omega
    rw [next, fillSteps, writeSlot_next (left + rest.length) step front]
    show fillSteps rest (slots (written ++ [step]) (left + rest.length)) (newIdx + 1) = _
    rw [ih more, List.append_assoc, List.singleton_append, List.length_cons]
    congr 2
    omega

/-- The slots the loop fills are the steps it passes on. -/
theorem fillSlots_slots {idx : Int} {steps : List Step} (curr : List Step) {written : List Step} {n : Nat} (left : Nat) (front : n = written.length) :
    fillSlots idx steps curr (slots written (left + (insertLoop idx steps curr n).length)) n =
      some (slots (written ++ insertLoop idx steps curr n) left) := by
  induction curr generalizing written n with
  | nil => simp [fillSlots, insertLoop]
  | cons cur rest ih =>
    have pass {written : List Step} {m : Nat} (front : m = written.length) :
        (match writeSlot (slots written (left + (insertLoop idx steps rest (m + 1)).length + 1)) m cur with
          | none => none
          | some newSteps => fillSlots idx steps rest newSteps ((m : Int) + 1)) =
        some (slots (written ++ cur :: insertLoop idx steps rest (m + 1)) left) := by
      have more : m + 1 = (written ++ [cur]).length := by
        rw [List.length_append, List.length_singleton]
        omega
      rw [writeSlot_next _ cur (by omega)]
      show fillSlots idx steps rest _ ((m + 1 : Nat) : Int) = _
      rw [ih more, List.append_assoc]
      rfl
    rw [fillSlots, insertLoop]
    by_cases here : (n : Int) = idx
    · have len : (written ++ steps).length = n + steps.length := by
        rw [List.length_append]
        omega
      have room : left + (steps ++ cur :: insertLoop idx steps rest (n + steps.length + 1)).length =
          (left + (insertLoop idx steps rest (n + steps.length + 1)).length + 1) + steps.length := by
        rw [List.length_append, List.length_cons]
        omega
      rw [if_pos here, if_pos here, room, fillSteps_slots _ steps (by omega)]
      have last := pass len.symm
      rw [List.append_assoc] at last
      exact last
    · rw [if_neg here, if_neg here, List.length_cons, ← Nat.add_assoc]
      exact pass front

/-! ## The splice -/

namespace ApecsTxn

theorem getSteps_setSteps (txn : ApecsTxn) (steps : List Step) : (txn.setSteps steps).getSteps = steps := by
  unfold setSteps getSteps
  by_cases forward : txn.direction = .forward
  · simp [forward]
  · simp [forward]

theorem idleSteps_setSteps (txn : ApecsTxn) (steps : List Step) : (txn.setSteps steps).idleSteps = txn.idleSteps := by
  unfold setSteps idleSteps
  by_cases forward : txn.direction = .forward
  · simp [forward]
  · simp [forward]

theorem currentStepIdx_setSteps (txn : ApecsTxn) (steps : List Step) :
    (txn.setSteps steps).currentStepIdx = txn.currentStepIdx := by
  unfold setSteps
  split <;> rfl

theorem insertLoop_splice {curr : List Step} {i : Nat} (steps : List Step) (inside : i < curr.length) :
    insertLoop i steps curr 0 = curr.take i ++ steps ++ curr.drop i := by
  have cut : curr = curr.take i ++ curr[i] :: curr.drop (i + 1) := by
    rw [← List.drop_eq_getElem_cons inside, List.take_append_drop]
  have loop : insertLoop i steps (curr.take i ++ curr[i] :: curr.drop (i + 1)) 0 =
      curr.take i ++ steps ++ curr[i] :: curr.drop (i + 1) := by
    apply insertLoop_append
    rw [List.length_take_of_le (by omega)]
    omega
  rw [← List.drop_eq_getElem_cons inside, List.take_append_drop] at loop
  exact loop

/-- Inserting steps at an index up to the end splices them into the active list and touches nothing
else; no slot stays empty. Beyond the end it is refused. -/
theorem insertSteps_splices (txn : ApecsTxn) (i : Nat) (steps : List Step) :
    let curr := txn.getSteps
    let spliced := curr.take i ++ steps ++ curr.drop i
    (i ≤ curr.length →
      txn.insertedSlots i steps = some (.ok (spliced.map some)) ∧
      ∃ txn', txn.insertSteps i steps = .ok txn' ∧ txn'.getSteps = spliced ∧ txn'.idleSteps = txn.idleSteps ∧
        txn'.currentStepIdx = txn.currentStepIdx ∧ txn' = txn.setSteps spliced) ∧
    (curr.length < i →
      txn.insertedSlots i steps = some (.error (.other "Index out of range")) ∧
      txn.insertSteps i steps = .error (.other "Index out of range")) := by
  dsimp only
  generalize spliced : txn.getSteps.take i ++ steps ++ txn.getSteps.drop i = result
  constructor
  · intro inside
    have both : txn.insertedSlots i steps = some (.ok (result.map some)) ∧ txn.insertSteps i steps = .ok (txn.setSteps result) := by
      by_cases last : i = txn.getSteps.length
      · have at_end : txn.getSteps ++ steps = result := by
          rw [← spliced, last, List.take_length, List.drop_length, List.append_nil]
        have last : (i : Int) = txn.getSteps.length := by omega
        unfold insertedSlots insertSteps
        rw [if_pos last, if_pos last, at_end]
        exact ⟨rfl, rfl⟩
      · have before : ¬(i : Int) = txn.getSteps.length := by omega
        have within : ¬(i : Int) > txn.getSteps.length := by omega
        have loop : insertLoop i steps txn.getSteps 0 = result := by rw [insertLoop_splice steps (by omega), spliced]
        have len : result.length = txn.getSteps.length + steps.length := by
          rw [← spliced]
          simp only [List.length_append, List.length_take, List.length_drop]
          omega
        have filled : fillSlots i steps txn.getSteps (slots [] (0 + (insertLoop i steps txn.getSteps 0).length)) (0 : Nat) =
            some (slots ([] ++ insertLoop i steps txn.getSteps 0) 0) := fillSlots_slots txn.getSteps 0 rfl
        rw [loop, Nat.zero_add, len, List.nil_append] at filled
        unfold insertedSlots insertSteps
        rw [if_neg before, if_neg within, if_neg before, if_neg within, loop]
        refine ⟨?_, rfl⟩
        show (fillSlots i steps txn.getSteps (slots [] (txn.getSteps.length + steps.length)) (0 : Nat)).map Except.ok = _
        rw [filled]
        simp [slots]
    refine ⟨both.1, txn.setSteps result, both.2, getSteps_setSteps txn result, idleSteps_setSteps txn result, ?_, rfl⟩
    exact currentStepIdx_setSteps txn result
  · intro beyond
    have last : ¬(i : Int) = txn.getSteps.length := by omega
    have beyond : (i : Int) > txn.getSteps.length := by omega
    unfold insertedSlots insertSteps
    rw [if_neg last, if_pos beyond, if_neg last, if_pos beyond]
    exact ⟨rfl, rfl⟩

end ApecsTxn

end Rocketcycle
