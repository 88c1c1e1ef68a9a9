import Rocketcycle.Apecs.Completion

/-!
# How a message is followed

What consuming a message puts on the topics of systems: the same transaction at a storage read or
at its next step, or the transactions that its last step generates (`advance_continues`). An
invariant of the messages of a run is kept if each of the three keeps it.
-/

namespace Rocketcycle

open Command

/-- `ProduceCurrentStep` writes to the topic of a system, nothing else does. -/
def Dest.IsStep (d : Dest) : Prop := ∃ c name, d = .topic c name ∧ name ≠ .error ∧ name ≠ .complete

theorem not_isStep_of_isError {d : Dest} (h : d.IsError) : ¬d.IsStep := by
  rintro ⟨c, name, rfl, he, -⟩
  rcases h with ⟨c', h⟩ | ⟨t, h⟩
  · cases h; exact he rfl
  · cases h

theorem Publishes.isStep {env : Env} {txn : ApecsTxn} {traceParent : String} {step : Step} {p : Publication}
    (h : Publishes env txn traceParent step p) : p.dest.IsStep := by
  obtain ⟨name, hn, hd⟩ := h.dest
  refine ⟨_, name, hd, ?_, ?_⟩ <;> (rintro rfl; revert hn; cases step.system <;> simp [systemToTopic])

/-! ## Generated transactions -/

/-- All that has been published by a loop, whether it went through or not. -/
def CompletingAll (P : Publication → Prop) : Completing Completion → Prop
  | .ok c => ∀ p ∈ c.published, P p
  | .error (pubs, _) => ∀ p ∈ pubs, P p

section
variable {env : Env} {traceParent : String}

/-- `P` holds of whatever comes of a transaction generated around the step: its publication, or
the error in its place. -/
structure Launches (env : Env) (traceParent : String) (P : Publication → Prop) (step : Step) : Prop where
  published : ∀ id parent p, Publishes env (childTxn id parent step) traceParent step p → P p
  failed : ∀ n parent e, produceCurrentStep env (childTxn (env.traceId n) parent step) traceParent = .error (.err e) →
    ∀ p, p.dest.IsError → P p

section
variable {P : Publication → Prop}

theorem executeChild_all {assoc : String → AssocTxn} {errStep : Step} {put : ApecsTxn → Step → ApecsTxn}
    {failure : String} {c : Completion} {step : Step} (hs : step.system ≠ .process)
    (launches : Launches env traceParent P step) (h : ∀ p ∈ c.published, P p) :
    CompletingAll P (executeChild env traceParent assoc errStep put failure c step) := by
  unfold executeChild
  dsimp only
  rw [executeTxn_child hs]
  split
  · rename_i p hp
    obtain ⟨step', hcur, publishes⟩ := produceCurrentStep_ok hp
    rw [(childTxn_at _ _ _).currentStep] at hcur
    cases hcur
    intro q hq
    rcases List.mem_append.1 hq with hq | hq
    · exact h q hq
    · rw [List.mem_singleton.1 hq]
      exact launches.published _ _ _ publishes
  · exact h
  · rename_i e he
    intro q hq
    rcases List.mem_append.1 hq with hq | hq
    · exact h q hq
    · exact launches.failed _ _ e he q (produceError_errorOnly q hq)

theorem produceSecondaries_all {steps : List Step} {idx : Nat} {c : Completion}
    (launches : ∀ step ∈ secondarySteps steps, Launches env traceParent P step)
    (h : ∀ p ∈ c.published, P p) : CompletingAll P (produceSecondaries env traceParent idx steps c) := by
  induction steps generalizing idx c with
  | nil => exact h
  | cons step rest ih =>
    have tail : ∀ s ∈ secondarySteps rest, s ∈ secondarySteps (step :: rest) := by
      intro s hs
      obtain ⟨s', hs', hstep⟩ := List.mem_filterMap.1 hs
      exact List.mem_filterMap.2 ⟨s', List.mem_cons_of_mem _ hs', hstep⟩
    have head : CompletingAll P (produceSecondary env traceParent c idx step) := by
      unfold produceSecondary
      split
      · rename_i hw
        split
        · exact h
        · rename_i r hr
          apply executeChild_all (by simp [secondaryStep]) _ h
          apply launches
          exact List.mem_filterMap.2 ⟨step, List.mem_cons_self, by simp [hw, hr]⟩
      · exact h
    unfold produceSecondaries
    split
    · rename_i h1
      rwa [h1] at head
    · rename_i h1
      rw [h1] at head
      exact ih (fun s hs => launches s (tail s hs)) head

theorem produceUpdates_all {steps : List Step} {c : Completion} (hs : ∀ step ∈ steps, step.system = .storage)
    (launches : ∀ step ∈ updateSteps steps, Launches env traceParent P step)
    (h : ∀ p ∈ c.published, P p) : CompletingAll P (produceUpdates env traceParent steps c) := by
  induction steps generalizing c with
  | nil => exact h
  | cons step rest ih =>
    have both : updateSteps (step :: rest) =
        step :: { step with system := .storageScnd } :: updateSteps rest := rfl
    rw [both] at launches
    have system := hs step List.mem_cons_self
    have head : CompletingAll P (produceUpdate env traceParent c step) := by
      have first : CompletingAll P (executeChild env traceParent
          (⟨·, .generatedStorage⟩) step (fun txn _ => txn) "update storage" c step) :=
        executeChild_all (by simp [system]) (launches step List.mem_cons_self) h
      unfold produceUpdate
      dsimp only
      split
      · rename_i h1
        rwa [h1] at first
      · rename_i h1
        rw [h1] at first
        exact executeChild_all (by simp) (launches _ (List.mem_cons_of_mem _ List.mem_cons_self)) first
    unfold produceUpdates
    split
    · rename_i h1
      rwa [h1] at head
    · rename_i h1
      rw [h1] at head
      apply ih (fun s h => hs s (List.mem_cons_of_mem _ h)) _ head
      exact fun s hs' => launches s (List.mem_cons_of_mem _ (List.mem_cons_of_mem _ hs'))

/-- Whatever a completion publishes, up to a failure if there is one, comes of the transactions
it generates. -/
theorem produceStorage_all {pb : RelatedCodecs} {store : InstanceStore} {txn : ApecsTxn}
    (launches : ∀ step, Generates pb store txn.forwardSteps step → Launches env traceParent P step) :
    CompletingAll P (produceStorage env pb store ⟨txn, traceParent⟩) := by
  unfold produceStorage
  dsimp only
  split
  · have first : CompletingAll P (produceSecondaries env traceParent 0 txn.forwardSteps ⟨txn, [], 0⟩) := by
      apply produceSecondaries_all _ (by simp)
      intro step hs
      obtain ⟨s, mem, hw, r, hr, rfl⟩ := mem_secondarySteps hs
      exact launches _ (.copy s r mem hw hr)
    split
    · rename_i h1
      rwa [h1] at first
    rename_i h1
    rw [h1] at first
    split
    · exact first
    rename_i m hm
    apply produceUpdates_all _ _ first
    · intro step hs
      exact storageStepsMap_storage hm step ((env.storageOrder_perm _).mem_iff.1 hs)
    · intro step hs
      exact launches step (updates_generate hm hs)
  · intro p hp
    cases hp

end

/-- The completion loops, as far as they have come, publish errors and generated transactions. -/
theorem produceStorage_fromChild {pb : RelatedCodecs} {store : InstanceStore} {txn : ApecsTxn} :
    CompletingAll (fun p => p.dest.IsError ∨ ∃ id parent step, Generates pb store txn.forwardSteps step ∧
      Publishes env (childTxn id parent step) traceParent step p)
      (produceStorage env pb store ⟨txn, traceParent⟩) := by
  apply produceStorage_all
  intro step generates
  constructor
  · exact fun id parent p publishes => .inr ⟨id, parent, step, generates, publishes⟩
  · exact fun _ _ _ _ p isError => .inl isError

/-- After the last step, what goes to the topic of a system is a generated transaction. -/
theorem last_step_child {pb : RelatedCodecs} {store : InstanceStore} {txn : ApecsTxn} {done : List Step}
    {cur : Step} {idx : Int} {cmpdOffset : CompoundOffset} {pubs : List Publication} {fault : Option Fault}
    (at' : txn.At done cur [])
    (h : (pubs, fault) = produceNextStep env pb store ⟨txn, traceParent⟩ idx cur cmpdOffset)
    {q : Publication} (hq : q ∈ pubs) (step : q.dest.IsStep) :
    ∃ id parent step, Generates pb store txn.forwardSteps step ∧
      Publishes env (childTxn id parent step) traceParent step q := by
  have all : CompletingAll (fun p => p.dest.IsError ∨ ∃ id parent step, Generates pb store txn.forwardSteps step ∧
      Publishes env (childTxn id parent step) traceParent step p)
      (produceStorage env pb store ⟨txn, traceParent⟩) := produceStorage_fromChild
  have child : (q.dest.IsError ∨ ∃ id parent step, Generates pb store txn.forwardSteps step ∧
      Publishes env (childTxn id parent step) traceParent step q) → _ :=
    fun hc => hc.resolve_left fun he => not_isStep_of_isError he step
  unfold produceNextStep at h
  rw [at'.advanceStepIdx_last] at h
  dsimp only at h
  split at h
  · rename_i hs
    cases h
    rw [hs] at all
    exact child (all q hq)
  rename_i c hc
  rw [hc] at all
  split at h
  · rename_i comp hcomp
    cases h
    rcases List.mem_append.1 hq with hq | hq
    · exact child (all q hq)
    · unfold produceComplete at hcomp
      split at hcomp
      · cases hcomp
      split at hcomp
      · cases hcomp
      cases hcomp
      obtain ⟨c, name, hd, he, hne⟩ := step
      rcases List.mem_cons.1 hq with rfl | hq
      · cases hd; exact absurd rfl hne
      · obtain ⟨t, ht⟩ := produceResponse_dest hq
        rw [hd] at ht
        cases ht
  · cases h
    exact child (all q hq)
  · cases h
    rcases List.mem_append.1 hq with hq | hq
    · exact child (all q hq)
    · exact absurd step (not_isStep_of_isError (produceError_errorOnly q hq))

end

/-! ## The message that follows -/

section
variable {σ : Type} {env : Env} {pb : RelatedCodecs} {instanceStore : σ → InstanceStore}
  {handleCommand : HandleCommand σ} {s : σ} {storageTarget : String} {rtxn : RtApecsTxn} {tp : TopicParts}
  {cmpdOffset : CompoundOffset} {done rest : List Step} {cur : Step}

/-- How a message leads to another one on the topic of a system. -/
inductive Continues (env : Env) (pb : RelatedCodecs) (instanceStore : σ → InstanceStore)
    (handleCommand : HandleCommand σ) (s : σ) (storageTarget : String) (rtxn : RtApecsTxn) (tp : TopicParts)
    (cmpdOffset : CompoundOffset) (done : List Step) (cur : Step) (rest : List Step) (out : Outcome σ)
    (q : Publication) : Prop
  /-- The storage read for a missing instance. -/
  | missed (key : String) (system : cur.system = tp.system) (keyed : stepKey rtxn.txn cur = .ok (some key))
      (process : cur.system = .process) (call : out.call = none)
      (publishes : Publishes env
        { rtxn.txn with forwardSteps := done ++ missSteps (cur.keyed key cmpdOffset) rest cmpdOffset }
        rtxn.traceParent (readStep (cur.keyed key cmpdOffset) cmpdOffset) q)
  /-- The next step, after the current one succeeded. -/
  | next (key : String) (call : Call) (r : StepResult) (addSteps : List Step) (nextStep : Step) (tail : List Step)
      (system : cur.system = tp.system) (keyed : stepKey rtxn.txn cur = .ok (some key))
      (ran : Ran handleCommand storageTarget (instanceStore s) s rtxn.txn cur key cmpdOffset out call (some r) addSteps)
      (isOk : r.code = .ok) (follows : addSteps ++ rest = nextStep :: tail) (step : Step)
      (isDone : step = (cur.keyed key cmpdOffset).done r (instanceFor (instanceStore s) cur key))
      (publishes : Publishes env
        { rtxn.txn with
          currentStepIdx := rtxn.txn.currentStepIdx + 1,
          forwardSteps := (done ++ [step]) ++ nextStepOf step nextStep cmpdOffset :: tail }
        rtxn.traceParent (nextStepOf step nextStep cmpdOffset) q)
  /-- A generated transaction, after the last step succeeded. -/
  | generated (key : String) (call : Call) (r : StepResult) (addSteps : List Step)
      (system : cur.system = tp.system) (keyed : stepKey rtxn.txn cur = .ok (some key))
      (ran : Ran handleCommand storageTarget (instanceStore s) s rtxn.txn cur key cmpdOffset out call (some r) addSteps)
      (isOk : r.code = .ok) (last : addSteps ++ rest = []) (step : Step)
      (isDone : step = (cur.keyed key cmpdOffset).done r (instanceFor (instanceStore s) cur key))
      (id parent : String) (child : Step) (generates : Generates pb (instanceStore out.state) (done ++ [step]) child)
      (publishes : Publishes env (childTxn id parent child) rtxn.traceParent child q)

/-- Every message on the topic of a system follows the one consumed in one of these ways. -/
theorem advance_continues (valid : traceParentIsValid rtxn.traceParent = true) (at' : rtxn.txn.At done cur rest)
    {q : Publication}
    (hq : q ∈ (advanceApecsTxn env pb instanceStore handleCommand s storageTarget rtxn tp cmpdOffset).published)
    (isStep : q.dest.IsStep) :
    Continues env pb instanceStore handleCommand s storageTarget rtxn tp cmpdOffset done cur rest
      (advanceApecsTxn env pb instanceStore handleCommand s storageTarget rtxn tp cmpdOffset) q := by
  cases complete : cur.result with
  | some r =>
    obtain ⟨-, errors, -⟩ := advance_complete rtxn at' complete
    exact absurd isStep (not_isStep_of_isError (errors q hq))
  | none =>
    cases advance_cases env pb instanceStore handleCommand s storageTarget rtxn tp cmpdOffset valid at' complete with
    | rejected state call fault errors => exact absurd isStep (not_isStep_of_isError (errors q hq))
    | missed key p concern system keyed looksUp missing state call fault published code publishes =>
      rw [published, List.mem_singleton] at hq
      subst hq
      exact .missed key system keyed (looksUp_process looksUp) call publishes
    | failed key call rslt addSteps concern system keyed ran notOk published =>
      obtain ⟨code, log, msg, published, -⟩ := published
      rw [published] at hq
      exact absurd isStep (not_isStep_of_isError (produceError_errorOnly q hq))
    | succeeded key call r addSteps concern system keyed ran isOk code next =>
      have hat := at'.withSteps
        ((cur.keyed key cmpdOffset).done r (instanceFor (instanceStore s) cur key)) (addSteps ++ rest)
      cases heq : addSteps ++ rest with
      | nil =>
        rw [heq] at hat next
        obtain ⟨id, parent, child, generates, publishes⟩ := last_step_child hat next hq isStep
        exact .generated key call r addSteps system keyed ran isOk heq _ rfl id parent child generates publishes
      | cons nextStep tail =>
        rw [heq] at hat next
        obtain ⟨-, ⟨errors, -⟩ | ⟨p, hp, publishes⟩⟩ := produceNextStep_next valid hat next
        · exact absurd isStep (not_isStep_of_isError (errors q hq))
        · rw [hp, List.mem_singleton] at hq
          subst hq
          exact .next key call r addSteps nextStep tail system keyed ran isOk heq _ rfl publishes

/-- A command that was called is that of the current step. -/
theorem advance_called (valid : traceParentIsValid rtxn.traceParent = true) (at' : rtxn.txn.At done cur rest)
    {call : Call} {rslt : Option StepResult}
    (h : (advanceApecsTxn env pb instanceStore handleCommand s storageTarget rtxn tp cmpdOffset).call =
      some (call, rslt)) :
    cur.system = tp.system ∧ ∃ key addSteps, Ran handleCommand storageTarget (instanceStore s) s rtxn.txn cur key
      cmpdOffset (advanceApecsTxn env pb instanceStore handleCommand s storageTarget rtxn tp cmpdOffset) call rslt
      addSteps := by
  cases complete : cur.result with
  | some r =>
    obtain ⟨none, -, -⟩ := advance_complete rtxn at' complete
    rw [none] at h
    cases h
  | none =>
    cases advance_cases env pb instanceStore handleCommand s storageTarget rtxn tp cmpdOffset valid at' complete with
    | rejected _ none => rw [none] at h; cases h
    | missed _ _ _ _ _ _ _ _ none => rw [none] at h; cases h
    | failed key call' rslt' addSteps concern system keyed ran =>
      rw [ran.recorded] at h
      cases h
      exact ⟨system, key, addSteps, ran⟩
    | succeeded key call' r addSteps concern system keyed ran =>
      rw [ran.recorded] at h
      cases h
      exact ⟨system, key, addSteps, ran⟩

end

/-! ## Readings -/

/-- The circumstances in which a message is consumed: the platform and its handlers, the topic and
the offset. -/
structure Reading where
  {σ : Type}
  env : Env
  pb : RelatedCodecs
  instanceStore : σ → InstanceStore
  handleCommand : HandleCommand σ
  s : σ
  storageTarget : String
  tp : TopicParts
  cmpdOffset : CompoundOffset

def Reading.outcome (reading : Reading) (p : Publication) : Outcome reading.σ :=
  advanceApecsTxn reading.env reading.pb reading.instanceStore reading.handleCommand reading.s reading.storageTarget
    ⟨p.txn, p.traceParent⟩ reading.tp reading.cmpdOffset

end Rocketcycle
