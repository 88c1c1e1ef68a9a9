import Rocketcycle.Apecs.Advance

/-!
# Next steps and completion

`produceNextStep` taken apart: before the last step it publishes the next one; after it, it
publishes one storage transaction per inline write and two per changed instance, and then the
completed transaction.
-/

namespace Rocketcycle

open Command

/-- The transaction that is generated around one storage step. -/
def childTxn (id parent : String) (step : Step) : ApecsTxn :=
  { id := id, assocTxns := [⟨parent, .parent⟩], uponError := .bailout, forwardSteps := [step] }

/-- Its publication, as transaction number `n` of the call. -/
def childPub (env : Env) (traceParent parent : String) (n : Nat) (step : Step) : Publication :=
  { dest := .topic step.concern (if step.system = .storage then .storage else .storageScnd),
    hashKey := if step.isKeylessStep then env.uid else stringBytes step.key,
    traceParent := traceParent, txn := wireTxn (childTxn (env.traceId n) parent step) }

def childPubs (env : Env) (traceParent parent : String) : Nat → List Step → List Publication
  | _, [] => []
  | n, step :: rest => childPub env traceParent parent n step :: childPubs env traceParent parent (n + 1) rest

/-- The secondary copies of the inline storage writes among the steps. -/
def secondarySteps (steps : List Step) : List Step :=
  steps.filterMap fun step => if step.isStorageWrite then step.result.map (secondaryStep step) else none

/-- The storage updates of a completed transaction, each for primary and then for secondary. -/
def updateSteps (steps : List Step) : List Step :=
  steps.flatMap fun step => [step, { step with system := .storageScnd }]

theorem childPubs_append {env : Env} {traceParent parent : String} (steps steps' : List Step) (n : Nat) :
    childPubs env traceParent parent n (steps ++ steps') =
      childPubs env traceParent parent n steps ++ childPubs env traceParent parent (n + steps.length) steps' := by
  induction steps generalizing n with
  | nil => rfl
  | cons step rest ih =>
    simp only [List.cons_append, childPubs, ih, List.length_cons]
    rw [show n + 1 + rest.length = n + (rest.length + 1) by omega]

theorem mem_childPubs {env : Env} {traceParent parent : String} {steps : List Step} {n : Nat} {p : Publication}
    (h : p ∈ childPubs env traceParent parent n steps) :
    ∃ step ∈ steps, ∃ i, p = childPub env traceParent parent i step := by
  induction steps generalizing n with
  | nil => cases h
  | cons step rest ih =>
    rcases List.mem_cons.1 h with rfl | h
    · exact ⟨step, List.mem_cons_self, n, rfl⟩
    · obtain ⟨step', hs, i, rfl⟩ := ih h
      exact ⟨step', List.mem_cons_of_mem _ hs, i, rfl⟩

theorem childPub_mem (env : Env) (traceParent parent : String) {steps : List Step} {step : Step} (n : Nat)
    (h : step ∈ steps) : ∃ i, childPub env traceParent parent i step ∈ childPubs env traceParent parent n steps := by
  induction steps generalizing n with
  | nil => cases h
  | cons s rest ih =>
    rcases List.mem_cons.1 h with rfl | h
    · exact ⟨n, List.mem_cons_self⟩
    · obtain ⟨i, hi⟩ := ih (n + 1) h
      exact ⟨i, List.mem_cons_of_mem _ hi⟩

/-- A generated transaction stands at its only step. -/
theorem childTxn_at (id parent : String) (step : Step) : (childTxn id parent step).At [] step [] :=
  ⟨rfl, rfl, rfl⟩

section
variable {env : Env} {traceParent : String}

/-- A fault that says that a child could not be published. -/
def IsFatal (f : Fault) : Prop := ∃ e, f = .logFatal e

theorem executeTxn_child {id parent : String} {step : Step} (h : step.system ≠ .process) :
    executeTxn env id (some ⟨parent, .parent⟩) traceParent .bailout [step] none =
      produceCurrentStep env (childTxn id parent step) traceParent := by
  have expand : expandStep step = [step] := by simp [expandStep, h]
  simp [executeTxn, newApecsTxn, expand, childTxn]

/-- A child that could be published is the generated transaction of its step. -/
theorem executeChild_ok {assoc : String → AssocTxn} {errStep : Step} {put : ApecsTxn → Step → ApecsTxn}
    {failure : String} {c c' : Completion} {step : Step} (hs : step.system = .storage ∨ step.system = .storageScnd)
    (h : executeChild env traceParent assoc errStep put failure c step = .ok c') :
    c' = ⟨{ c.txn with assocTxns := c'.txn.assocTxns },
          c.published ++ [childPub env traceParent c.txn.id c.ids step], c.ids + 1⟩ := by
  have notProcess : step.system ≠ .process := by rcases hs with hs | hs <;> simp [hs]
  unfold executeChild at h
  dsimp only at h
  rw [executeTxn_child notProcess] at h
  split at h
  · rename_i p hp
    obtain ⟨step', hcur, publishes⟩ := produceCurrentStep_ok hp
    rw [(childTxn_at _ _ _).currentStep] at hcur
    cases hcur
    obtain ⟨name, hname, hdest⟩ := publishes.dest
    have hpub : p = childPub env traceParent c.txn.id c.ids step := by
      obtain ⟨dest, hashKey, parent, txn⟩ := p
      have := publishes.hashKey; have := publishes.parent; have := publishes.sent
      simp only at *
      subst_vars
      rcases hs with hs | hs
      · simp [childPub, hs, systemToTopic] at hname ⊢; simp [← hname]
      · simp [childPub, hs, systemToTopic] at hname ⊢; simp [← hname]
    cases h
    rw [hpub]
  · cases h
  · cases h

/-- A child that could not be published ends the process. -/
theorem executeChild_error {assoc : String → AssocTxn} {errStep : Step} {put : ApecsTxn → Step → ApecsTxn}
    {failure : String} {c : Completion} {step : Step} {pubs : List Publication} {f : Fault}
    (valid : traceParentIsValid traceParent = true) (hs : step.system ≠ .process)
    (h : executeChild env traceParent assoc errStep put failure c step = .error (pubs, f)) : IsFatal f := by
  unfold executeChild at h
  dsimp only at h
  rw [executeTxn_child hs] at h
  split at h
  · cases h
  · rename_i f' hp
    exact absurd hp (produceCurrentStep_panic valid (childTxn_at _ _ _).currentStep)
  · cases h; exact ⟨_, rfl⟩

/-- What a completion loop leaves of the transaction: only its associations grow. -/
structure Grew (c c' : Completion) (pubs : List Publication) (n : Nat) : Prop where
  txn : c'.txn = { c.txn with assocTxns := c'.txn.assocTxns }
  published : c'.published = c.published ++ pubs
  ids : c'.ids = c.ids + n

theorem Grew.refl (c : Completion) : Grew c c [] 0 := ⟨rfl, by simp, rfl⟩

theorem Grew.trans {c c' c'' : Completion} {pubs pubs' : List Publication} {n n' : Nat}
    (h : Grew c c' pubs n) (h' : Grew c' c'' pubs' n') : Grew c c'' (pubs ++ pubs') (n + n') :=
  ⟨by rw [h'.txn, h.txn], by rw [h'.published, h.published, List.append_assoc],
   by rw [h'.ids, h.ids, Nat.add_assoc]⟩

theorem executeChild_grew {assoc : String → AssocTxn} {errStep : Step} {put : ApecsTxn → Step → ApecsTxn}
    {failure : String} {c c' : Completion} {step : Step} (hs : step.system = .storage ∨ step.system = .storageScnd)
    (h : executeChild env traceParent assoc errStep put failure c step = .ok c') :
    Grew c c' (childPubs env traceParent c.txn.id c.ids [step]) 1 := by
  have e := executeChild_ok hs h
  exact ⟨by rw [e], by rw [e]; rfl, by rw [e]⟩

theorem Grew.id {c c' : Completion} {pubs : List Publication} {n : Nat} (h : Grew c c' pubs n) :
    c'.txn.id = c.txn.id := by rw [h.txn]

/-- The first loop publishes the secondary copies of the inline writes. -/
theorem produceSecondaries_ok {steps : List Step} {idx : Nat} {c c' : Completion}
    (h : produceSecondaries env traceParent idx steps c = .ok c') :
    Grew c c' (childPubs env traceParent c.txn.id c.ids (secondarySteps steps)) (secondarySteps steps).length := by
  induction steps generalizing idx c with
  | nil => cases h; exact Grew.refl _
  | cons step rest ih =>
    unfold produceSecondaries at h
    split at h
    · cases h
    rename_i c1 h1
    have tail := ih h
    unfold produceSecondary at h1
    split at h1
    · rename_i hw
      split at h1
      · cases h1
      rename_i rslt hr
      have head := executeChild_grew (.inr rfl) h1
      have cons : secondarySteps (step :: rest) = [secondaryStep step rslt] ++ secondarySteps rest := by
        simp [secondarySteps, hw, hr]
      rw [head.id, head.ids] at tail
      rw [cons, childPubs_append, List.length_append]
      exact head.trans tail
    · rename_i hw
      cases h1
      have cons : secondarySteps (step :: rest) = secondarySteps rest := by
        simp [secondarySteps, hw]
      rw [cons]
      exact tail

/-- With a result on every step the first loop only fails to publish. -/
theorem produceSecondaries_error {steps : List Step} {idx : Nat} {c : Completion} {pubs : List Publication}
    {f : Fault} (valid : traceParentIsValid traceParent = true) (results : ∀ step ∈ steps, step.result.isSome)
    (h : produceSecondaries env traceParent idx steps c = .error (pubs, f)) : IsFatal f := by
  induction steps generalizing idx c with
  | nil => cases h
  | cons step rest ih =>
    unfold produceSecondaries at h
    split at h
    · rename_i e h1
      cases h
      unfold produceSecondary at h1
      split at h1
      · split at h1
        · rename_i hr
          have := results step List.mem_cons_self
          rw [hr] at this
          cases this
        · exact executeChild_error valid (by simp [secondaryStep]) h1
      · cases h1
    · exact ih (fun s hs => results s (List.mem_cons_of_mem _ hs)) h

/-- The third loop publishes every update twice. -/
theorem produceUpdates_ok {steps : List Step} {c c' : Completion} (hs : ∀ step ∈ steps, step.system = .storage)
    (h : produceUpdates env traceParent steps c = .ok c') :
    Grew c c' (childPubs env traceParent c.txn.id c.ids (updateSteps steps)) (updateSteps steps).length := by
  induction steps generalizing c with
  | nil => cases h; exact Grew.refl _
  | cons step rest ih =>
    unfold produceUpdates at h
    split at h
    · cases h
    rename_i c2 h2
    have tail := ih (fun s hs' => hs s (List.mem_cons_of_mem _ hs')) h
    unfold produceUpdate at h2
    dsimp only at h2
    split at h2
    · cases h2
    rename_i c1 h1
    have first := executeChild_grew (.inl (hs step List.mem_cons_self)) h1
    have second := executeChild_grew (.inr rfl) h2
    rw [first.id, first.ids] at second
    have head := first.trans second
    have pair : childPubs env traceParent c.txn.id c.ids [step] ++
        childPubs env traceParent c.txn.id (c.ids + 1) [{ step with system := .storageScnd }] =
        childPubs env traceParent c.txn.id c.ids ([step] ++ [{ step with system := .storageScnd }]) :=
      (childPubs_append [step] _ c.ids).symm
    rw [pair] at head
    rw [head.id, head.ids] at tail
    have cons : updateSteps (step :: rest) =
        ([step] ++ [{ step with system := .storageScnd }]) ++ updateSteps rest := by
      simp [updateSteps]
    have len : (updateSteps (step :: rest)).length = 1 + 1 + (updateSteps rest).length := by
      simp only [cons, List.length_append, List.length_cons, List.length_nil]
    rw [len, cons, childPubs_append]
    exact head.trans tail

theorem produceUpdates_error {steps : List Step} {c : Completion} {pubs : List Publication} {f : Fault}
    (valid : traceParentIsValid traceParent = true) (hs : ∀ step ∈ steps, step.system = .storage)
    (h : produceUpdates env traceParent steps c = .error (pubs, f)) : IsFatal f := by
  induction steps generalizing c with
  | nil => cases h
  | cons step rest ih =>
    unfold produceUpdates at h
    split at h
    · rename_i e h2
      cases h
      unfold produceUpdate at h2
      dsimp only at h2
      split at h2
      · rename_i e h1
        cases h2
        exact executeChild_error valid (by simp [hs step List.mem_cons_self]) h1
      · exact executeChild_error valid (by simp) h2
    · exact ih (fun s hs' => hs s (List.mem_cons_of_mem _ hs')) h

/-! ## The map of updates -/

theorem mem_storageStepsInsert {key : String} {step : Step} {m : List (String × Step)} {e : String × Step}
    (h : e ∈ storageStepsInsert key step m) : e = (key, step) ∨ e ∈ m := by
  induction m with
  | nil => simpa [storageStepsInsert] using h
  | cons kv rest ih =>
    obtain ⟨k, s⟩ := kv
    unfold storageStepsInsert at h
    split at h
    · rcases List.mem_cons.1 h with rfl | h
      · exact .inl rfl
      · exact .inr (List.mem_cons_of_mem _ h)
    · rcases List.mem_cons.1 h with rfl | h
      · exact .inr List.mem_cons_self
      · exact (ih h).imp id (List.mem_cons_of_mem _)

/-- The update step is one for `step`, with this payload. -/
structure UpdateOf (pb : RelatedCodecs) (store : InstanceStore) (step : Step) (payload : Bytes) : Prop where
  system : step.system = .process
  change : ∃ rslt, step.result = some rslt ∧ isInstanceChange step rslt = true ∧
    stepInst pb store step rslt = some (some payload)

/-- Every entry of the map is the update of a changing step. -/
theorem storageStepsMap_entries {pb : RelatedCodecs} {store : InstanceStore} {steps : List Step}
    {m m' : List (String × Step)} (h : storageStepsMap pb store steps m = .ok m') {e : String × Step}
    (he : e ∈ m') :
    e ∈ m ∨ ∃ step ∈ steps, ∃ payload, UpdateOf pb store step payload ∧
      e = (s!"{step.concern}_{step.key}", updateAsyncStep step payload) := by
  induction steps generalizing m with
  | nil => cases h; exact .inl he
  | cons step rest ih =>
    have lift : ∀ {m1}, storageStepsMap pb store rest m1 = .ok m' →
        e ∈ m1 ∨ ∃ s ∈ step :: rest, ∃ payload, UpdateOf pb store s payload ∧
          e = (s!"{s.concern}_{s.key}", updateAsyncStep s payload) := fun h1 =>
      (ih h1).imp id fun ⟨s, hs, payload, hu⟩ => ⟨s, List.mem_cons_of_mem _ hs, payload, hu⟩
    unfold storageStepsMap at h
    split at h
    · rename_i hsys
      split at h
      · cases h
      rename_i rslt hr
      split at h
      · rename_i hchange
        split at h
        · cases h
        · exact lift h
        · rename_i payload hinst
          rcases lift h with hm | hm
          · rcases mem_storageStepsInsert hm with rfl | hm
            · exact .inr ⟨step, List.mem_cons_self, payload, ⟨hsys, rslt, hr, hchange, hinst⟩, rfl⟩
            · exact .inl hm
          · exact .inr hm
      · exact lift h
    · exact lift h

theorem storageStepsInsert_keys {key key' : String} {step : Step} {m : List (String × Step)} :
    (∃ e ∈ storageStepsInsert key step m, e.1 = key') ↔ key = key' ∨ ∃ e ∈ m, e.1 = key' := by
  induction m with
  | nil => simp [storageStepsInsert]
  | cons kv rest ih =>
    obtain ⟨k, s⟩ := kv
    unfold storageStepsInsert
    split
    · rename_i same
      subst same
      simp
    · simp only [List.mem_cons, exists_eq_or_imp, ih]
      tauto

/-- A step that has changed its instance has an entry under its key, be it from a later step. -/
theorem storageStepsMap_covers {pb : RelatedCodecs} {store : InstanceStore} {steps : List Step} {key : String}
    {m m' : List (String × Step)} (h : storageStepsMap pb store steps m = .ok m')
    (covered : (∃ e ∈ m, e.1 = key) ∨ ∃ s ∈ steps, s.system = .process ∧ s!"{s.concern}_{s.key}" = key ∧
      ∃ r b, s.result = some r ∧ r.inst = some b) : ∃ e ∈ m', e.1 = key := by
  induction steps generalizing m with
  | nil =>
    cases h
    rcases covered with covered | ⟨s, hs, -⟩
    · exact covered
    · cases hs
  | cons step rest ih =>
    have later : ∀ {m1}, storageStepsMap pb store rest m1 = .ok m' → ((∃ e ∈ m, e.1 = key) → ∃ e ∈ m1, e.1 = key) →
        ((step.system = .process ∧ s!"{step.concern}_{step.key}" = key ∧
          ∃ r b, step.result = some r ∧ r.inst = some b) → ∃ e ∈ m1, e.1 = key) → ∃ e ∈ m', e.1 = key := by
      intro m1 h1 kept here
      apply ih h1
      rcases covered with covered | ⟨s, hs, changed⟩
      · exact .inl (kept covered)
      · rcases List.mem_cons.1 hs with rfl | hs
        · exact .inl (here changed)
        · exact .inr ⟨s, hs, changed⟩
    unfold storageStepsMap at h
    split at h
    · split at h
      · cases h
      rename_i rslt hr
      split at h
      · split at h
        · cases h
        · rename_i hinst
          apply later h id
          rintro ⟨-, -, r, b, hr', hb⟩
          rw [hr] at hr'
          cases hr'
          simp [stepInst, hb] at hinst
        · apply later h
          · exact fun hm => storageStepsInsert_keys.2 (.inr hm)
          · exact fun hs => storageStepsInsert_keys.2 (.inl hs.2.1)
      · rename_i notChange
        apply later h id
        rintro ⟨-, -, r, b, hr', hb⟩
        rw [hr] at hr'
        cases hr'
        simp [isInstanceChange, hb] at notChange
    · rename_i notProcess
      exact later h id fun hs => absurd hs.1 notProcess

theorem storageStepsMap_storage {pb : RelatedCodecs} {store : InstanceStore} {steps : List Step}
    {m : List (String × Step)} (h : storageStepsMap pb store steps [] = .ok m) :
    ∀ step ∈ m.map Prod.snd, step.system = .storage := by
  intro step hs
  obtain ⟨e, he, rfl⟩ := List.mem_map.1 hs
  rcases storageStepsMap_entries h he with h | ⟨s, -, payload, -, rfl⟩
  · cases h
  · rfl

/-- With a result on every step the map is only missing through a packed instance. -/
theorem storageStepsMap_error {pb : RelatedCodecs} {store : InstanceStore} {steps : List Step}
    {m : List (String × Step)} {f : Fault} (results : ∀ step ∈ steps, step.result.isSome)
    (h : storageStepsMap pb store steps m = .error f) : f = .packedPayload := by
  induction steps generalizing m with
  | nil => cases h
  | cons step rest ih =>
    have tail := fun s hs => results s (List.mem_cons_of_mem _ hs)
    unfold storageStepsMap at h
    split at h
    · split at h
      · rename_i hr
        have := results step List.mem_cons_self
        rw [hr] at this
        cases this
      · split at h
        · split at h
          · cases h; rfl
          · exact ih tail h
          · exact ih tail h
        · exact ih tail h
    · exact ih tail h

/-! ## Completion -/

variable {pb : RelatedCodecs} {store : InstanceStore} {txn : ApecsTxn}

/-- All that a completed transaction generates. -/
structure Generated (env : Env) (pb : RelatedCodecs) (store : InstanceStore) (txn : ApecsTxn)
    (traceParent : String) (c : Completion) (m : List (String × Step)) : Prop where
  map : storageStepsMap pb store txn.forwardSteps [] = .ok m
  grown : c.txn = { txn with assocTxns := c.txn.assocTxns }
  published : c.published = childPubs env traceParent txn.id 0
    (secondarySteps txn.forwardSteps ++ updateSteps (env.storageOrder (m.map Prod.snd)))

/-- The steps that transactions are generated for: copies of the inline writes, and the updates of
both kinds of target. -/
inductive Generates (pb : RelatedCodecs) (store : InstanceStore) (steps : List Step) : Step → Prop
  | copy (s : Step) (r : StepResult) (mem : s ∈ steps) (isWrite : s.isStorageWrite = true)
      (result : s.result = some r) : Generates pb store steps (secondaryStep s r)
  | update (s : Step) (payload : Bytes) (mem : s ∈ steps) (updateOf : UpdateOf pb store s payload) :
      Generates pb store steps (updateAsyncStep s payload)
  | updateScnd (s : Step) (payload : Bytes) (mem : s ∈ steps) (updateOf : UpdateOf pb store s payload) :
      Generates pb store steps { updateAsyncStep s payload with system := .storageScnd }

theorem mem_secondarySteps {steps : List Step} {step : Step} (h : step ∈ secondarySteps steps) :
    ∃ s ∈ steps, s.isStorageWrite = true ∧ ∃ r, s.result = some r ∧ step = secondaryStep s r := by
  obtain ⟨s, hs, hstep⟩ := List.mem_filterMap.1 h
  split at hstep
  · rename_i hw
    obtain ⟨r, hr, rfl⟩ := Option.map_eq_some_iff.1 hstep
    exact ⟨s, hs, hw, r, hr, rfl⟩
  · cases hstep

/-- A generated step has not run. -/
theorem Generates.pending {steps : List Step} {step : Step} (h : Generates pb store steps step) :
    step.result = none := by
  cases h <;> rfl

theorem updates_generate {steps : List Step} {m : List (String × Step)}
    (hm : storageStepsMap pb store steps [] = .ok m) {step : Step}
    (hs : step ∈ updateSteps (env.storageOrder (m.map Prod.snd))) : Generates pb store steps step := by
  obtain ⟨s, hs, hstep⟩ := List.mem_flatMap.1 hs
  obtain ⟨e, he, rfl⟩ := List.mem_map.1 ((env.storageOrder_perm _).mem_iff.1 hs)
  rcases storageStepsMap_entries hm he with he | ⟨s, mem, payload, hu, rfl⟩
  · cases he
  · simp only [List.mem_cons, List.not_mem_nil, or_false] at hstep
    rcases hstep with rfl | rfl
    · exact .update s payload mem hu
    · exact .updateScnd s payload mem hu

theorem Generated.generates {c : Completion} {m : List (String × Step)}
    (h : Generated env pb store txn traceParent c m) {step : Step}
    (hs : step ∈ secondarySteps txn.forwardSteps ++ updateSteps (env.storageOrder (m.map Prod.snd))) :
    Generates pb store txn.forwardSteps step := by
  rcases List.mem_append.1 hs with hs | hs
  · obtain ⟨s, mem, hw, r, hr, rfl⟩ := mem_secondarySteps hs
    exact .copy s r mem hw hr
  · exact updates_generate h.map hs

theorem produceStorage_ok {c : Completion} (hd : txn.direction = .forward)
    (h : produceStorage env pb store ⟨txn, traceParent⟩ = .ok c) :
    ∃ m, Generated env pb store txn traceParent c m := by
  unfold produceStorage at h
  simp only [hd, if_true] at h
  split at h
  · cases h
  rename_i c1 h1
  split at h
  · cases h
  rename_i m hm
  have first := produceSecondaries_ok h1
  have storage : ∀ step ∈ env.storageOrder (m.map Prod.snd), step.system = .storage := fun step hs =>
    storageStepsMap_storage hm step ((env.storageOrder_perm _).mem_iff.1 hs)
  have second := produceUpdates_ok storage h
  rw [first.id, first.ids] at second
  have both := first.trans second
  rw [← childPubs_append] at both
  exact ⟨m, hm, both.txn, both.published⟩

/-- With a result on every step, completion only faults on a packed instance or an unpublished
child. -/
theorem produceStorage_error {pubs : List Publication} {f : Fault}
    (valid : traceParentIsValid traceParent = true) (results : ∀ step ∈ txn.forwardSteps, step.result.isSome)
    (h : produceStorage env pb store ⟨txn, traceParent⟩ = .error (pubs, f)) :
    f = .packedPayload ∨ IsFatal f := by
  unfold produceStorage at h
  dsimp only at h
  split at h
  · split at h
    · rename_i h1
      cases h
      exact .inr (produceSecondaries_error valid results h1)
    split at h
    · rename_i hm
      cases h
      exact .inl (storageStepsMap_error results hm)
    · rename_i c1 h1 _ m hm
      exact .inr (produceUpdates_error valid (fun step hs =>
        storageStepsMap_storage hm step ((env.storageOrder_perm _).mem_iff.1 hs)) h)
  · cases h

/-- The completed transaction, and its response. -/
def CompleteOnly (txn : ApecsTxn) (first : Step) (pubs : List Publication) : Prop :=
  ∃ p rest, pubs = p :: rest ∧ p.dest = .topic first.concern .complete ∧ p.txn = wireTxn txn ∧
    ∀ q ∈ rest, ∃ t, q.dest = .response t

theorem produceComplete_cases {rtxn : RtApecsTxn} {first : Step} (h : rtxn.txn.firstForwardStep = some first) :
    (∃ pubs, produceComplete rtxn = .ok pubs ∧ CompleteOnly rtxn.txn first pubs) ∨
      ∃ e, produceComplete rtxn = .error (.err e) := by
  unfold produceComplete
  rw [h]
  dsimp only
  cases hm : marshalTxn rtxn.txn with
  | error e => exact .inr ⟨e, rfl⟩
  | ok wire =>
    rw [marshalTxn_ok hm]
    exact .inl ⟨_, rfl, _, _, rfl, rfl, rfl, fun q hq => produceResponse_dest hq⟩

variable {done rest : List Step} {cur next : Step} {cmpdOffset : CompoundOffset}

/-- Before the last step: the next one is published, or an error. -/
theorem produceNextStep_next (valid : traceParentIsValid traceParent = true)
    (at' : txn.At done cur (next :: rest)) {idx : Int} {pubs : List Publication} {fault : Option Fault}
    (h : (pubs, fault) = produceNextStep env pb store ⟨txn, traceParent⟩ idx cur cmpdOffset) :
    let txn' : ApecsTxn := { txn with
      currentStepIdx := txn.currentStepIdx + 1,
      forwardSteps := (done ++ [cur]) ++ nextStepOf cur next cmpdOffset :: rest }
    fault = none ∧ ((ErrorOnly pubs ∧ (∃ e, produceCurrentStep env txn' traceParent = .error e) ∧
        ∃ msg, pubs = produceApecsTxnError env ⟨txn', traceParent⟩ txn'.currentStepIdx
          (nextStepOf cur next cmpdOffset) .internal true msg) ∨
      ∃ p, pubs = [p] ∧ Publishes env txn' traceParent (nextStepOf cur next cmpdOffset) p) := by
  intro txn'
  obtain ⟨txn', hadv, rfl, hat⟩ := at'.advanceStepIdx_cons
  unfold produceNextStep at h
  simp only [hadv, hat.currentStep, hat.setStep_eq] at h
  have hat' := hat.withSteps (nextStepOf cur next cmpdOffset) rest
  split at h
  · rename_i p hp
    cases h
    obtain ⟨step, hstep, publishes⟩ := produceCurrentStep_ok hp
    rw [hat'.currentStep] at hstep
    cases hstep
    exact ⟨rfl, .inr ⟨p, rfl, publishes⟩⟩
  · rename_i f hp
    exact absurd hp (produceCurrentStep_panic valid hat'.currentStep)
  · rename_i e hp
    cases h
    exact ⟨rfl, .inl ⟨produceError_errorOnly, ⟨_, hp⟩, _, rfl⟩⟩

/-- After the last step: the generated transactions, then the completed one or an error. -/
theorem produceNextStep_last (at' : txn.At done cur []) {idx : Int}
    {pubs : List Publication} {fault : Option Fault}
    (h : (pubs, fault) = produceNextStep env pb store ⟨txn, traceParent⟩ idx cur cmpdOffset) :
    (∃ f, fault = some f ∧ produceStorage env pb store ⟨txn, traceParent⟩ = .error (pubs, f)) ∨
      ∃ c m, fault = none ∧ Generated env pb store txn traceParent c m ∧
        ((∃ first comp, txn.firstForwardStep = some first ∧ pubs = c.published ++ comp ∧
            CompleteOnly c.txn first comp) ∨
          ∃ errs, pubs = c.published ++ errs ∧ ErrorOnly errs) := by
  unfold produceNextStep at h
  rw [at'.advanceStepIdx_last] at h
  dsimp only at h
  split at h
  · rename_i hs
    cases h
    exact .inl ⟨_, rfl, hs⟩
  rename_i c hc
  obtain ⟨m, gen⟩ := produceStorage_ok at'.direction hc
  have first : (RtApecsTxn.mk c.txn traceParent).txn.firstForwardStep = some ((done ++ [cur]).head (by simp)) := by
    have hsteps : c.txn.forwardSteps = txn.forwardSteps := by rw [gen.grown]
    rw [← at'.firstForwardStep, ApecsTxn.firstForwardStep, ApecsTxn.firstForwardStep, hsteps]
  right
  rcases produceComplete_cases first with ⟨comp, hcomp, only⟩ | ⟨e, he⟩
  · rw [hcomp] at h
    cases h
    exact ⟨c, m, rfl, gen, .inl ⟨_, comp, at'.firstForwardStep, rfl, only⟩⟩
  · rw [he] at h
    cases h
    exact ⟨c, m, rfl, gen, .inr ⟨_, rfl, produceError_errorOnly⟩⟩

end

end Rocketcycle
