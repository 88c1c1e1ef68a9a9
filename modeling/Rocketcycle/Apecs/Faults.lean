import Rocketcycle.Apecs.Sending

/-!
# Where the runner ends the process

The completion of a transaction relies on what earlier steps have left in it. Which transactions can
be completed, and that nothing else in `advanceApecsTxn` ends the process.
-/

namespace Rocketcycle

open Command

/-- What completion relies on in a step: a result if it is a process step or an inline write, and that
neither a changed instance nor its related data is packed already. -/
structure Step.Completable (store : InstanceStore) (s : Step) : Prop where
  result : s.system = .process ∨ s.isStorageWrite = true → s.result.isSome = true
  unpacked : s.system = .process → ∀ r inst, s.result = some r → r.inst = some inst →
    isPackedPayload (some inst) = false ∧ isPackedPayload (store.getRelated s.key) = false

section
variable {env : Env} {pb : RelatedCodecs} {store : InstanceStore} {traceParent : String} {txn : ApecsTxn}

/-- A child is always published. -/
theorem executeChild_succeeds {assoc : String → AssocTxn} {errStep step : Step} {put : ApecsTxn → Step → ApecsTxn}
    {failure : String} (valid : traceParentIsValid traceParent = true) (ids : ∀ n, env.traceId n ≠ "") (c : Completion)
    (system : step.system = .storage ∨ step.system = .storageScnd) (pending : step.result = none) :
    ∃ c', executeChild env traceParent assoc errStep put failure c step = .ok c' := by
  have notProcess : step.system ≠ .process := by rcases system with hs | hs <;> simp [hs]
  have validSystem : step.ValidSystem := by
    right
    rcases system with hs | hs <;> simp [isStorageSystem, hs]
  obtain ⟨p, published⟩ := child_published env c.txn.id valid (ids c.ids) validSystem pending
  unfold executeChild
  simp only [executeTxn_child notProcess, published]
  exact ⟨_, rfl⟩

theorem produceSecondary_succeeds_iff (valid : traceParentIsValid traceParent = true) (ids : ∀ n, env.traceId n ≠ "")
    {step : Step} {idx : Nat} {c : Completion} :
    (∃ c', produceSecondary env traceParent c idx step = .ok c') ↔
      (step.isStorageWrite = true → step.result.isSome = true) := by
  unfold produceSecondary
  by_cases write : step.isStorageWrite = true
  · rw [if_pos write]
    cases hr : step.result with
    | none => simp [write]
    | some rslt =>
      constructor
      · intro _ _
        rfl
      · intro _
        exact executeChild_succeeds valid ids c (.inr rfl) rfl
  · rw [if_neg write]
    exact ⟨fun _ hw => absurd hw write, fun _ => ⟨c, rfl⟩⟩

theorem produceSecondaries_succeeds_iff (valid : traceParentIsValid traceParent = true) (ids : ∀ n, env.traceId n ≠ "")
    {steps : List Step} {idx : Nat} {c : Completion} :
    (∃ c', produceSecondaries env traceParent idx steps c = .ok c') ↔
      ∀ s ∈ steps, s.isStorageWrite = true → s.result.isSome = true := by
  induction steps generalizing idx c with
  | nil => exact ⟨fun _ s hs => absurd hs List.not_mem_nil, fun _ => ⟨c, rfl⟩⟩
  | cons step rest ih =>
    have here : (∃ c', produceSecondary env traceParent c idx step = .ok c') ↔ _ :=
      produceSecondary_succeeds_iff valid ids
    rw [List.forall_mem_cons, ← here]
    unfold produceSecondaries
    cases h : produceSecondary env traceParent c idx step with
    | error e =>
      constructor
      · rintro ⟨c', hc⟩
        cases hc
      · rintro ⟨⟨c1, h1⟩, -⟩
        cases h1
    | ok c1 =>
      constructor
      · intro done
        exact ⟨⟨c1, rfl⟩, ih.1 done⟩
      · rintro ⟨-, later⟩
        exact ih.2 later

/-- The instance of a step is packed for storage without a panic. -/
theorem stepInst_packs_iff {step : Step} {rslt : StepResult} :
    stepInst pb store step rslt ≠ none ↔ ∀ inst, rslt.inst = some inst →
      isPackedPayload (some inst) = false ∧ isPackedPayload (store.getRelated step.key) = false := by
  unfold stepInst
  cases rslt.inst with
  | none =>
    refine ⟨fun _ inst hi => (by cases hi), fun _ => ?_⟩
    rw [if_neg (by simp)]
    split
    · split <;> simp
    · split <;> simp
  | some inst =>
    rw [if_pos Option.isSome_some]
    constructor
    · intro packs inst' hi
      cases hi
      cases hp : packPayloads (some inst) (store.getRelated step.key) with
      | none =>
        rw [hp] at packs
        exact absurd rfl packs
      | some packed =>
        obtain ⟨h0, h1, -⟩ := packPayloads_eq_some.1 hp
        exact ⟨h0, h1⟩
    · intro unpacked
      obtain ⟨h0, h1⟩ := unpacked inst rfl
      simp [packPayloads, h0, h1]

theorem storageStepsMap_succeeds_iff {steps : List Step} {m : List (String × Step)} :
    (∃ m', storageStepsMap pb store steps m = .ok m') ↔
      ∀ s ∈ steps, s.system = .process → s.result.isSome = true ∧ ∀ r inst, s.result = some r → r.inst = some inst →
        isPackedPayload (some inst) = false ∧ isPackedPayload (store.getRelated s.key) = false := by
  induction steps generalizing m with
  | nil => exact ⟨fun _ s hs => absurd hs List.not_mem_nil, fun _ => ⟨m, rfl⟩⟩
  | cons s rest ih =>
    rw [List.forall_mem_cons]
    unfold storageStepsMap
    by_cases process : s.system = .process
    swap
    · rw [if_neg process, ih]
      exact ⟨fun later => ⟨fun hp => absurd hp process, later⟩, fun both => both.2⟩
    rw [if_pos process]
    cases hr : s.result with
    | none =>
      constructor
      · rintro ⟨m', hm⟩
        cases hm
      · rintro ⟨here, -⟩
        cases (here process).1
    | some rslt =>
      dsimp only
      by_cases change : isInstanceChange s rslt = true
      · rw [if_pos change]
        cases hi : stepInst pb store s rslt with
        | none =>
          constructor
          · rintro ⟨m', hm⟩
            cases hm
          · rintro ⟨here, -⟩
            have packs : stepInst pb store s rslt ≠ none :=
              stepInst_packs_iff.2 fun inst => (here process).2 rslt inst rfl
            exact absurd hi packs
        | some inst =>
          have packs : stepInst pb store s rslt ≠ none := by simp [hi]
          have here : s.system = .process → (some rslt).isSome = true ∧ ∀ r inst, some rslt = some r → r.inst = some inst →
              isPackedPayload (some inst) = false ∧ isPackedPayload (store.getRelated s.key) = false := by
            refine fun _ => ⟨rfl, ?_⟩
            rintro r i ⟨⟩
            exact stepInst_packs_iff.1 packs i
          cases inst with
          | none => exact ih.trans ⟨fun later => ⟨here, later⟩, fun both => both.2⟩
          | some payload => exact ih.trans ⟨fun later => ⟨here, later⟩, fun both => both.2⟩
      · rw [if_neg change, ih]
        have none : rslt.inst = none := by
          simp only [isInstanceChange, Bool.or_eq_true, not_or, Option.isSome_iff_ne_none, not_not] at change
          exact change.1.1
        refine ⟨fun later => ⟨fun _ => ⟨rfl, ?_⟩, later⟩, fun both => both.2⟩
        rintro r i ⟨⟩ hi
        rw [none] at hi
        cases hi

theorem produceUpdates_succeeds (valid : traceParentIsValid traceParent = true) (ids : ∀ n, env.traceId n ≠ "")
    {steps : List Step} (updates : ∀ s ∈ steps, s.system = .storage ∧ s.result = none) (c : Completion) :
    ∃ c', produceUpdates env traceParent steps c = .ok c' := by
  induction steps generalizing c with
  | nil => exact ⟨c, rfl⟩
  | cons step rest ih =>
    obtain ⟨system, pending⟩ := updates step List.mem_cons_self
    have first : ∃ c1, executeChild env traceParent (⟨·, .generatedStorage⟩) step (fun txn _ => txn) "update storage" c
        step = .ok c1 := executeChild_succeeds valid ids c (.inl system) pending
    obtain ⟨c1, h1⟩ := first
    have second : ∃ c2, executeChild env traceParent (fun _ => ⟨env.traceId c.ids, .generatedStorage⟩)
        { step with system := .storageScnd } (fun txn _ => txn) "update secondary storage" c1
        { step with system := .storageScnd } = .ok c2 := executeChild_succeeds valid ids c1 (.inr rfl) pending
    obtain ⟨c2, h2⟩ := second
    obtain ⟨c', h'⟩ := ih (fun s hs => updates s (List.mem_cons_of_mem _ hs)) c2
    refine ⟨c', ?_⟩
    unfold produceUpdates produceUpdate
    simp only [h1, h2, h']

/-- A transaction is completed exactly if all its steps allow it. -/
theorem produceStorage_succeeds_iff (valid : traceParentIsValid traceParent = true) (ids : ∀ n, env.traceId n ≠ "")
    (forward : txn.direction = .forward) :
    (∃ c, produceStorage env pb store ⟨txn, traceParent⟩ = .ok c) ↔ ∀ s ∈ txn.forwardSteps, s.Completable store := by
  have secondaries : (∃ c, produceSecondaries env traceParent 0 txn.forwardSteps ⟨txn, [], 0⟩ = .ok c) ↔ _ :=
    produceSecondaries_succeeds_iff valid ids
  have map : (∃ m, storageStepsMap pb store txn.forwardSteps [] = .ok m) ↔ _ := storageStepsMap_succeeds_iff
  unfold produceStorage
  simp only [forward, if_true]
  constructor
  · rintro ⟨c, hc⟩
    split at hc
    · cases hc
    rename_i c1 h1
    split at hc
    · cases hc
    rename_i m hm
    intro s hs
    have writes := secondaries.1 ⟨c1, h1⟩ s hs
    have changes := map.1 ⟨m, hm⟩ s hs
    constructor
    · rintro (process | write)
      · exact (changes process).1
      · exact writes write
    · exact fun process => (changes process).2
  · intro completable
    obtain ⟨c1, h1⟩ := secondaries.2 fun s hs write => (completable s hs).result (.inr write)
    obtain ⟨m, hm⟩ := map.2 fun s hs process => ⟨(completable s hs).result (.inl process), (completable s hs).unpacked process⟩
    simp only [h1, hm]
    apply produceUpdates_succeeds valid ids
    intro s hs
    obtain ⟨e, he, rfl⟩ := List.mem_map.1 ((env.storageOrder_perm _).mem_iff.1 hs)
    rcases storageStepsMap_entries hm he with he | ⟨s, -, payload, -, rfl⟩
    · cases he
    · exact ⟨rfl, rfl⟩

/-! ## Forward -/

variable {σ : Type} {instanceStore : σ → InstanceStore} {handle : HandleCommand σ} {s s' : σ} {storageTarget : String}
  {rtxn : RtApecsTxn} {tp : TopicParts} {cmpdOffset stepOffset : CompoundOffset} {done rest : List Step} {cur : Step}
  {key : String} {r : StepResult}

theorem produceNextStep_last_fault {idx : Int} (at' : txn.At done cur []) :
    (produceNextStep env pb store ⟨txn, traceParent⟩ idx cur cmpdOffset).2 = none ↔
      ∃ c, produceStorage env pb store ⟨txn, traceParent⟩ = .ok c := by
  unfold produceNextStep
  rw [at'.advanceStepIdx_last]
  dsimp only
  cases hs : produceStorage env pb store ⟨txn, traceParent⟩ with
  | error e =>
    constructor
    · rintro ⟨⟩
    · rintro ⟨c, ⟨⟩⟩
  | ok c =>
    refine ⟨fun _ => ⟨c, rfl⟩, fun _ => ?_⟩
    obtain ⟨m, gen⟩ := produceStorage_ok at'.direction hs
    have first : (RtApecsTxn.mk c.txn traceParent).txn.firstForwardStep = some ((done ++ [cur]).head (by simp)) := by
      have steps : c.txn.forwardSteps = txn.forwardSteps := by rw [gen.grown]
      rw [← at'.firstForwardStep, ApecsTxn.firstForwardStep, ApecsTxn.firstForwardStep, steps]
    rcases produceComplete_cases first with ⟨pubs, hc, -⟩ | ⟨e, he⟩
    · simp only [hc]
    · simp only [he]

/-- The current step is one for this consumer, and has a key. -/
structure Fits (txn : ApecsTxn) (tp : TopicParts) (cur : Step) (key : String) : Prop where
  pending : cur.result = none
  concern : cur.concern = tp.concern
  system : cur.system = tp.system
  keyed : stepKey txn cur = .ok (some key)

/-- Its command is called, at an offset. -/
structure Calls (store : InstanceStore) (txn : ApecsTxn) (tp : TopicParts) (cmpdOffset : CompoundOffset) (cur : Step)
    (key : String) (stepOffset : CompoundOffset) : Prop extends Fits txn tp cur key where
  offset : (cur.keyed key cmpdOffset).cmpdOffset = some stepOffset
  found : cur.looksUp = true → (store.getInstance key).isSome = true
  notCreate : cur.system = .process → cur.command = create → instanceFor store cur key = none

/-- The command answers `OK`, and adds steps. -/
structure Succeeds (handle : HandleCommand σ) (storageTarget : String) (store : InstanceStore) (s : σ) (txn : ApecsTxn)
    (tp : TopicParts) (cmpdOffset : CompoundOffset) (cur : Step) (key : String) (stepOffset : CompoundOffset)
    (r : StepResult) (adds : List Step) (s' : σ) : Prop extends Calls store txn tp cmpdOffset cur key stepOffset where
  answers : handle (callOf storageTarget txn (cur.keyed key cmpdOffset) (instanceFor store cur key) stepOffset) s =
    ((some r, adds), s')
  isOk : r.code = .ok

/-- The transaction stands at its last step, and that answers `OK` and adds no step. -/
structure Finishes (handle : HandleCommand σ) (storageTarget : String) (store : InstanceStore) (s : σ) (txn : ApecsTxn)
    (tp : TopicParts) (cmpdOffset : CompoundOffset) (done : List Step) (cur : Step) (key : String)
    (stepOffset : CompoundOffset) (r : StepResult) (s' : σ) : Prop
    extends Succeeds handle storageTarget store s txn tp cmpdOffset cur key stepOffset r [] s' where
  at' : txn.At done cur []

theorem advance_keyed (current : rtxn.txn.currentStep = some cur) (fits : Fits rtxn.txn tp cur key) :
    advanceApecsTxn env pb instanceStore handle s storageTarget rtxn tp cmpdOffset =
      advanceKeyed env pb instanceStore handle s storageTarget rtxn tp { cur with key := key } cmpdOffset := by
  unfold advanceApecsTxn
  simp only [current, fits.pending, fits.concern, fits.system, fits.keyed, ne_eq, not_true_eq_false, if_false]

theorem step_keyed (cur : Step) (key : String) (cmpdOffset : CompoundOffset) :
    (if ({ cur with key := key } : Step).system = .process then
      { { cur with key := key } with cmpdOffset := some cmpdOffset } else { cur with key := key }) =
      cur.keyed key cmpdOffset := by
  unfold Step.keyed
  split <;> rfl

variable (env s rtxn cur key cmpdOffset) in
/-- A keyed step that is reported before its command is called. -/
def reportKeyed (msg : String) : Outcome σ :=
  let rtxn := rtxn.keyed cur key cmpdOffset
  let step := cur.keyed key cmpdOffset
  { code := .internal, state := s,
    published := produceApecsTxnError env rtxn rtxn.txn.currentStepIdx step .internal true msg,
    asked := [apecsTxnErrorAsked env rtxn rtxn.txn.currentStepIdx step .internal true msg] }

theorem callOf_keyed (inst : Option Bytes) (stepOffset : CompoundOffset) :
    callOf storageTarget (rtxn.keyed cur key cmpdOffset).txn (cur.keyed key cmpdOffset) inst stepOffset =
      callOf storageTarget rtxn.txn (cur.keyed key cmpdOffset) inst stepOffset := by
  have same : ∀ (txn : ApecsTxn) (idx : Int) (step : Step), (txn.setStep idx step).id = txn.id ∧
      (txn.setStep idx step).direction = txn.direction := by
    intro txn idx step
    unfold ApecsTxn.setStep ApecsTxn.setSteps
    split <;> exact ⟨rfl, rfl⟩
  unfold callOf RtApecsTxn.keyed
  rw [(same _ _ _).1, (same _ _ _).2]

/-- What becomes of a keyed step. -/
theorem advanceKeyed_eq :
    advanceKeyed env pb instanceStore handle s storageTarget rtxn tp { cur with key := key } cmpdOffset =
      if cur.looksUp && (instanceFor (instanceStore s) cur key).isNone then
        advanceMiss env s (rtxn.keyed cur key cmpdOffset) (cur.keyed key cmpdOffset) cmpdOffset
      else if cur.system = .process && (instanceFor (instanceStore s) cur key).isSome && cur.command = create then
        reportKeyed env s rtxn cmpdOffset cur key
          s!"advanceApecsTxn Key={key}: Instance already exists in store in CREATE command"
      else
        match (cur.keyed key cmpdOffset).cmpdOffset with
        | none => reportKeyed env s rtxn cmpdOffset cur key "advanceApecsTxn: Nil offset"
        | some stepOffset =>
          let call := callOf storageTarget rtxn.txn (cur.keyed key cmpdOffset) (instanceFor (instanceStore s) cur key) stepOffset
          advanceResult env pb instanceStore (handle call s).2 (rtxn.keyed cur key cmpdOffset) tp (cur.keyed key cmpdOffset)
            call (handle call s).1.1 (handle call s).1.2 cmpdOffset := by
  have looks : (cur.system = .process && !cur.isKeylessStep && !cur.isInstanceStoreStep) = cur.looksUp := rfl
  have given : (if cur.looksUp then (instanceStore s).getInstance key else none) =
      instanceFor (instanceStore s) cur key := rfl
  unfold advanceKeyed reportKeyed
  simp only [step_keyed cur key cmpdOffset, keyed_system, keyed_isKeylessStep, keyed_isInstanceStoreStep, keyed_key, keyed_command,
    keyed_concern, keyed_payload, keyed_effectiveTime, looks, given, RtApecsTxn.keyed, ApecsTxn.setStep, setSteps_idx]
  split
  · rfl
  split
  · rfl
  cases (cur.keyed key cmpdOffset).cmpdOffset with
  | none => rfl
  | some stepOffset =>
    have call : callOf storageTarget rtxn.txn (cur.keyed key cmpdOffset) (instanceFor (instanceStore s) cur key) stepOffset =
        Call.mk storageTarget cur.concern cur.system cur.command (rtxn.keyed cur key cmpdOffset).txn.direction
          { txnId := (rtxn.keyed cur key cmpdOffset).txn.id, key := key, inst := instanceFor (instanceStore s) cur key,
            payload := cur.payload, effectiveTime := cur.effectiveTime.getD 0, cmpdOffset := stepOffset } := by
      rw [← callOf_keyed]
      simp [callOf]
    simp only [call]
    rfl

/-- A command that is called decides what follows. -/
theorem Calls.advance (current : rtxn.txn.currentStep = some cur)
    (h : Calls (instanceStore s) rtxn.txn tp cmpdOffset cur key stepOffset) :
    advanceApecsTxn env pb instanceStore handle s storageTarget rtxn tp cmpdOffset =
      let call := callOf storageTarget rtxn.txn (cur.keyed key cmpdOffset) (instanceFor (instanceStore s) cur key) stepOffset
      advanceResult env pb instanceStore (handle call s).2 (rtxn.keyed cur key cmpdOffset) tp (cur.keyed key cmpdOffset)
        call (handle call s).1.1 (handle call s).1.2 cmpdOffset := by
  have hit : ¬(cur.looksUp && (instanceFor (instanceStore s) cur key).isNone) = true := by
    rw [Bool.and_eq_true, Option.isNone_iff_eq_none]
    rintro ⟨looks, none⟩
    rw [instanceFor, if_pos looks] at none
    have found := h.found looks
    rw [none] at found
    cases found
  have notCreate : ¬(cur.system = .process && (instanceFor (instanceStore s) cur key).isSome && cur.command = create) = true := by
    simp only [Bool.and_eq_true, decide_eq_true_eq, Option.isSome_iff_ne_none]
    rintro ⟨⟨process, some⟩, create⟩
    exact some (h.notCreate process create)
  rw [advance_keyed current h.toFits, advanceKeyed_eq, if_neg hit, if_neg notCreate, h.offset]

/-- A step that succeeds is followed by the next one, or by the completion. -/
theorem Succeeds.advance {adds : List Step} (at' : rtxn.txn.At done cur rest)
    (h : Succeeds handle storageTarget (instanceStore s) s rtxn.txn tp cmpdOffset cur key stepOffset r adds s') :
    let out := advanceApecsTxn env pb instanceStore handle s storageTarget rtxn tp cmpdOffset
    let last := (cur.keyed key cmpdOffset).done r (instanceFor (instanceStore s) cur key)
    let rtxn' : RtApecsTxn := ⟨{ rtxn.txn with forwardSteps := done ++ last :: (adds ++ rest) }, rtxn.traceParent⟩
    (out.published, out.fault) = produceNextStep env pb (instanceStore s') rtxn' rtxn.txn.currentStepIdx last cmpdOffset ∧
      out.asked = nextStepAsked env pb (instanceStore s') rtxn' rtxn.txn.currentStepIdx last cmpdOffset := by
  have ats : (rtxn.keyed cur key cmpdOffset).txn.At done (cur.keyed key cmpdOffset) rest := at'.setStep _
  have same : (rtxn.keyed cur key cmpdOffset).txn = { rtxn.txn with forwardSteps := done ++ cur.keyed key cmpdOffset :: rest } :=
    at'.setStep_eq _
  dsimp only
  rw [h.toCalls.advance at'.currentStep]
  dsimp only
  rw [h.answers]
  obtain ⟨-, -, ⟨notOk, -⟩ | ⟨r', hr, -, -, next, asked⟩⟩ := advanceResult_cases env pb instanceStore (rtxn.keyed cur key cmpdOffset)
    tp cmpdOffset s' (callOf storageTarget rtxn.txn (cur.keyed key cmpdOffset) (instanceFor (instanceStore s) cur key) stepOffset)
    (some r) adds ats (by simpa using h.pending) (by simpa using h.system) rfl
  · exact absurd h.isOk (notOk r rfl)
  · cases hr
    rw [same] at next asked
    exact ⟨next, asked⟩

/-- What is left to fault is the completion. -/
theorem Finishes.advance
    (h : Finishes handle storageTarget (instanceStore s) s rtxn.txn tp cmpdOffset done cur key stepOffset r s') :
    (advanceApecsTxn env pb instanceStore handle s storageTarget rtxn tp cmpdOffset).fault =
      (produceNextStep env pb (instanceStore s')
        ⟨{ rtxn.txn with forwardSteps := done ++ [(cur.keyed key cmpdOffset).done r (instanceFor (instanceStore s) cur key)] },
          rtxn.traceParent⟩
        rtxn.txn.currentStepIdx ((cur.keyed key cmpdOffset).done r (instanceFor (instanceStore s) cur key)) cmpdOffset).2 :=
  congrArg Prod.snd (h.toSucceeds.advance h.at').1

theorem Finishes.last
    (h : Finishes handle storageTarget store s rtxn.txn tp cmpdOffset done cur key stepOffset r s') (last : Step) :
    ({ rtxn.txn with forwardSteps := done ++ [last] } : ApecsTxn).At done last [] :=
  h.at'.withSteps last []

/-- A forward message ends the process exactly if it finishes a transaction that cannot be completed. -/
theorem advance_fault_iff (valid : traceParentIsValid rtxn.traceParent = true) (ids : ∀ n, env.traceId n ≠ "")
    (at' : rtxn.txn.At done cur rest) :
    (advanceApecsTxn env pb instanceStore handle s storageTarget rtxn tp cmpdOffset).fault = none ↔
      ∀ key stepOffset r s',
        Finishes handle storageTarget (instanceStore s) s rtxn.txn tp cmpdOffset done cur key stepOffset r s' →
        ∀ step ∈ done ++ [(cur.keyed key cmpdOffset).done r (instanceFor (instanceStore s) cur key)],
          step.Completable (instanceStore s') := by
  constructor
  · intro fault key stepOffset r s' finishes
    rw [finishes.advance, produceNextStep_last_fault (finishes.last _),
      produceStorage_succeeds_iff valid ids (finishes.last _).direction] at fault
    exact fault
  intro completable
  cases pending : cur.result with
  | some r =>
    unfold advanceApecsTxn
    simp only [at'.currentStep, pending]
  | none =>
    cases advance_cases env pb instanceStore handle s storageTarget rtxn tp cmpdOffset valid at' pending with
    | rejected state call fault => exact fault
    | missed key p concern system keyed looksUp missing state call fault => exact fault
    | failed key call rslt addSteps concern system keyed ran notOk published fault => exact fault
    | succeeded key call r addSteps concern system keyed ran isOk code next =>
      cases ahead : addSteps ++ rest with
      | cons step steps =>
        rw [ahead] at next
        exact (produceNextStep_next valid (at'.withSteps _ (step :: steps)) next).1
      | nil =>
        obtain ⟨rfl, rfl⟩ := List.append_eq_nil_iff.1 ahead
        by_cases exists' : cur.system = .process ∧ cur.command = create ∧ instanceFor (instanceStore s) cur key ≠ none
        · obtain ⟨process, create, found⟩ := exists'
          have hit : ¬(cur.looksUp && (instanceFor (instanceStore s) cur key).isNone) = true := by
            simp [Option.isNone_iff_eq_none, found]
          rw [advance_keyed at'.currentStep ⟨pending, concern, system, keyed⟩, advanceKeyed_eq, if_neg hit, if_pos]
          · rfl
          · simp [process, create, Option.isSome_iff_ne_none, found]
        · have finishes : Finishes handle storageTarget (instanceStore s) s rtxn.txn tp cmpdOffset done cur key
              call.args.cmpdOffset r
              (advanceApecsTxn env pb instanceStore handle s storageTarget rtxn tp cmpdOffset).state := by
            refine ⟨⟨⟨⟨pending, concern, system, keyed⟩, ran.offset, ran.found, ?_⟩, ran.called ▸ ran.handled, isOk⟩, at'⟩
            intro process create
            by_contra found
            exact exists' ⟨process, create, found⟩
          rw [finishes.advance, produceNextStep_last_fault (finishes.last _),
            produceStorage_succeeds_iff valid ids (finishes.last _).direction]
          exact completable _ _ _ _ finishes

/-! ## Reverse -/

/-- The storage read in front of a step is published. -/
theorem advanceMiss_sent (received : Received rtxn.txn rtxn.traceParent) (current : rtxn.txn.currentStep = some cur)
    (process : cur.system = .process) : (advanceMiss env s rtxn cur cmpdOffset).fault = none ∧
      (advanceMiss env s rtxn cur cmpdOffset).asked.map Asked.key = [(cur.concern, .storage)] := by
  obtain ⟨read, injected, current', onward⟩ := received.injectRead cmpdOffset current process
  obtain ⟨name, p, topic, key, published⟩ := onward.published env current'
  obtain rfl : TopicName.storage = name := Option.some.inj topic
  unfold advanceMiss
  simp only [injected, published]
  refine ⟨trivial, ?_⟩
  simp only [currentStepAsked, key, published]
  rfl

end

end Rocketcycle
