import Rocketcycle.Apecs.Runner
import Rocketcycle.Lib.EarlyReturn

/-!
# What is published has been marshalled

Whatever a consumer or a user publishes carries the trace parent of the transaction that it comes
from, and is what `proto.Marshal` has accepted.
-/

namespace Rocketcycle

open Early

/-- The publication goes under this trace parent, and its transaction has been accepted by `proto.Marshal`. -/
def Marshalled (traceParent : String) (p : Publication) : Prop :=
  p.traceParent = traceParent ∧ ∃ txn, marshalTxn txn = .ok p.txn

/-- All that has been published, whether the call succeeds or ends the process. -/
def CompletingMarshalled (traceParent : String) : Completing Completion → Prop :=
  Ends (fun c => ∀ p ∈ c.published, Marshalled traceParent p) fun e => ∀ p ∈ e.1, Marshalled traceParent p

/-- The wire does not change the logs. -/
theorem wireStep_validUtf8 (s : Step) : (wireStep s).validUtf8 = s.validUtf8 := by
  unfold Step.validUtf8
  rw [wireStep_result]
  cases s.result <;> rfl

/-- A step that has crossed the wire stays as it is. -/
theorem wireStep_wireStep (s : Step) : wireStep (wireStep s) = wireStep s := by
  have result : wireResult ∘ wireResult = wireResult := by
    funext r
    simp [wireResult]
  simp [wireStep, result]

/-- What has crossed the wire crosses it again as it is. -/
theorem marshalTxn_again {txn wire : ApecsTxn} (h : marshalTxn txn = .ok wire) : marshalTxn wire = .ok wire := by
  have same := marshalTxn_ok h
  have utf8 : ∀ s ∈ txn.forwardSteps ++ txn.reverseSteps, s.validUtf8 = true := by
    unfold marshalTxn at h
    split at h
    · exact List.all_eq_true.1 ‹_›
    · cases h
  have again : (wireTxn (wireTxn txn)) = wireTxn txn := by
    have steps : wireStep ∘ wireStep = wireStep := funext wireStep_wireStep
    simp [wireTxn, steps]
  have valid : ((wireTxn txn).forwardSteps ++ (wireTxn txn).reverseSteps).all Step.validUtf8 = true := by
    apply List.all_eq_true.2
    show ∀ s ∈ txn.forwardSteps.map wireStep ++ txn.reverseSteps.map wireStep, _
    rw [← List.map_append]
    intro s hs
    obtain ⟨s, mem, rfl⟩ := List.mem_map.1 hs
    rw [wireStep_validUtf8]
    exact utf8 s mem
  rw [same]
  unfold marshalTxn
  rw [if_pos valid, again]

variable {env : Env} {traceParent : String}

/-- The response carries the transaction that has been marshalled for its report. -/
theorem produceResponse_marshalled {rtxn : RtApecsTxn} {txn wire : ApecsTxn} (same : rtxn.traceParent = traceParent)
    (h : marshalTxn txn = .ok wire) : ∀ p ∈ produceResponse rtxn wire, Marshalled traceParent p := by
  intro p hp
  unfold produceResponse at hp
  split at hp
  · cases hp
  · rw [List.mem_singleton.1 hp]
    exact ⟨same, txn, h⟩

/-- A report is published only if it can be marshalled. -/
theorem produceError_marshalled {rtxn : RtApecsTxn} {step : Step} {put : Step → ApecsTxn} {code : Code} {log : Bool} {msg : String}
    (same : rtxn.traceParent = traceParent) :
    ∀ p ∈ produceError env rtxn step put code log msg, Marshalled traceParent p := by
  intro p hp
  unfold produceError at hp
  dsimp only at hp
  split at hp
  · cases hp
  · rename_i wire hwire
    rcases List.mem_cons.1 hp with rfl | hp
    · exact ⟨same, _, hwire⟩
    · exact produceResponse_marshalled (by exact same) hwire p hp

/-- So is the report of a transaction that cannot be advanced. -/
theorem produceErrorDefault_marshalled {rtxn : RtApecsTxn} {code : Code} {log : Bool} {msg : String} {pubs : List Publication}
    (same : rtxn.traceParent = traceParent) (h : produceErrorDefault env rtxn code log msg = .ok pubs) :
    ∀ p ∈ pubs, Marshalled traceParent p := by
  unfold produceErrorDefault at h
  split at h
  · cases h
  · cases h
    exact produceError_marshalled same

/-- A completion is published only if it can be marshalled. -/
theorem produceComplete_marshalled {rtxn : RtApecsTxn} {pubs : List Publication} (same : rtxn.traceParent = traceParent)
    (h : produceComplete rtxn = .ok pubs) : ∀ p ∈ pubs, Marshalled traceParent p := by
  unfold produceComplete at h
  split at h
  · cases h
  split at h
  · cases h
  rename_i wire hwire
  cases h
  intro p hp
  rcases List.mem_cons.1 hp with rfl | hp
  · exact ⟨same, _, hwire⟩
  · exact produceResponse_marshalled same hwire p hp

/-- A transaction is sent on only if it can be marshalled. -/
theorem produceCurrentStep_marshalled {txn : ApecsTxn} {p : Publication} (h : produceCurrentStep env txn traceParent = .ok p) :
    Marshalled traceParent p := by
  unfold produceCurrentStep at h
  split at h
  · cases h
  · cases h
  split at h
  · cases h
  split at h
  · cases h
  split at h
  · cases h
  rename_i wire hwire
  cases h
  exact ⟨rfl, _, hwire⟩

/-- A new transaction starts under the trace parent that it is given. -/
theorem executeTxn_marshalled {txnId : String} {assoc : Option AssocTxn} {uponError : UponError} {steps : List Step}
    {target : Option TopicTarget} {p : Publication} (h : executeTxn env txnId assoc traceParent uponError steps target = .ok p) :
    Marshalled traceParent p := by
  unfold executeTxn at h
  split at h
  · cases h
  · exact produceCurrentStep_marshalled h

/-- A submitted transaction travels under the trace parent of its context. -/
theorem executeTxnAsync_marshalled {txn : Option Txn} {target : Option TopicTarget} {p : Publication}
    (h : executeTxnAsync env traceParent txn target = .ok p) : Marshalled traceParent p := by
  unfold executeTxnAsync at h
  split at h
  · cases h
  rename_i prep hprep
  have same : prep.traceParent = traceParent := by
    unfold prepareApecsSteps at hprep
    split at hprep
    · cases hprep
    · cases hprep
    split at hprep
    · cases hprep
    split at hprep
    · cases hprep
    cases hprep
    rfl
  rw [← same]
  exact executeTxn_marshalled h

/-! ## Completion -/

section
variable {pb : RelatedCodecs} {store : InstanceStore} {c : Completion}

/-- A generated transaction, or the report that it has failed, adds to what is published. -/
theorem executeChild_marshalled {assoc : String → AssocTxn} {errStep step : Step} {put : ApecsTxn → Step → ApecsTxn}
    {failure : String} (before : ∀ p ∈ c.published, Marshalled traceParent p) :
    CompletingMarshalled traceParent (executeChild env traceParent assoc errStep put failure c step) := by
  unfold executeChild
  dsimp only
  split
  · rename_i child hchild
    intro p hp
    rcases List.mem_append.1 hp with hp | hp
    · exact before p hp
    · rw [List.mem_singleton.1 hp]
      exact executeTxn_marshalled hchild
  · exact before
  · intro p hp
    rcases List.mem_append.1 hp with hp | hp
    · exact before p hp
    · exact produceError_marshalled rfl p hp

/-- The transactions for the other storage targets. -/
theorem produceSecondaries_marshalled {steps : List Step} {idx : Nat} (before : ∀ p ∈ c.published, Marshalled traceParent p) :
    CompletingMarshalled traceParent (produceSecondaries env traceParent idx steps c) := by
  induction steps generalizing idx c with
  | nil => exact before
  | cons step rest ih =>
    have first : CompletingMarshalled traceParent (produceSecondary env traceParent c idx step) := by
      unfold produceSecondary
      split
      · split
        · exact before
        · exact executeChild_marshalled before
      · exact before
    unfold produceSecondaries
    cases one : produceSecondary env traceParent c idx step with
    | error e =>
      rw [one] at first
      exact first
    | ok c =>
      rw [one] at first
      exact ih first

/-- The updates of storage, each followed by those for the other targets. -/
theorem produceUpdates_marshalled {steps : List Step} (before : ∀ p ∈ c.published, Marshalled traceParent p) :
    CompletingMarshalled traceParent (produceUpdates env traceParent steps c) := by
  induction steps generalizing c with
  | nil => exact before
  | cons step rest ih =>
    have first : CompletingMarshalled traceParent (produceUpdate env traceParent c step) := by
      unfold produceUpdate
      dsimp only
      have primary : CompletingMarshalled traceParent (executeChild env traceParent (⟨·, .generatedStorage⟩) step
          (fun txn _ => txn) "update storage" c step) :=
        executeChild_marshalled before
      split
      · rename_i e he
        rw [he] at primary
        exact primary
      · rename_i c' hc
        rw [hc] at primary
        exact executeChild_marshalled primary
    unfold produceUpdates
    cases one : produceUpdate env traceParent c step with
    | error e =>
      rw [one] at first
      exact first
    | ok c =>
      rw [one] at first
      exact ih first

/-- All that a completed transaction generates goes under its trace parent. -/
theorem produceStorage_marshalled {rtxn : RtApecsTxn} : CompletingMarshalled rtxn.traceParent (produceStorage env pb store rtxn) := by
  have nothing : ∀ p ∈ (⟨rtxn.txn, [], 0⟩ : Completion).published, Marshalled rtxn.traceParent p :=
    fun p hp => absurd hp List.not_mem_nil
  unfold produceStorage
  dsimp only
  split
  · have secondaries : CompletingMarshalled rtxn.traceParent
        (produceSecondaries env rtxn.traceParent 0 rtxn.txn.forwardSteps ⟨rtxn.txn, [], 0⟩) :=
      produceSecondaries_marshalled nothing
    split
    · rename_i e he
      rw [he] at secondaries
      exact secondaries
    rename_i c hc
    rw [hc] at secondaries
    split
    · exact secondaries
    · exact produceUpdates_marshalled secondaries
  · exact nothing

/-- So does the transaction itself, be it sent on, completed or reported. -/
theorem produceNextStep_marshalled {rtxn : RtApecsTxn} {idx : Int} {step : Step} {cmpdOffset : CompoundOffset}
    (same : rtxn.traceParent = traceParent) :
    ∀ p ∈ (produceNextStep env pb store rtxn idx step cmpdOffset).1, Marshalled traceParent p := by
  have nothing : ∀ p ∈ ([] : List Publication), Marshalled traceParent p := fun p hp => absurd hp List.not_mem_nil
  subst same
  unfold produceNextStep
  split
  · split
    · exact nothing
    dsimp only
    split
    · rename_i p hp
      intro q hq
      rw [List.mem_singleton.1 hq]
      exact produceCurrentStep_marshalled hp
    · exact nothing
    · exact produceError_marshalled rfl
  · have storage : CompletingMarshalled rtxn.traceParent (produceStorage env pb store rtxn) := produceStorage_marshalled
    split
    · rename_i published f hf
      rw [hf] at storage
      exact storage
    rename_i c hc
    rw [hc] at storage
    split
    · rename_i pubs hpubs
      intro q hq
      rcases List.mem_append.1 hq with hq | hq
      · exact storage q hq
      · exact produceComplete_marshalled rfl hpubs q hq
    · exact storage
    · intro q hq
      rcases List.mem_append.1 hq with hq | hq
      · exact storage q hq
      · exact produceError_marshalled rfl q hq

end

/-! ## Advancing -/

section
variable {σ : Type} {pb : RelatedCodecs} {instanceStore : σ → InstanceStore} {handleCommand : HandleCommand σ} {s : σ}
  {rtxn : RtApecsTxn} {tp : TopicParts} {step : Step} {cmpdOffset : CompoundOffset}

/-- A storage read that is put in front, or the report that it cannot be. -/
theorem advanceMiss_marshalled (same : rtxn.traceParent = traceParent) :
    ∀ p ∈ (advanceMiss env s rtxn step cmpdOffset).published, Marshalled traceParent p := by
  have nothing : ∀ p ∈ ([] : List Publication), Marshalled traceParent p := fun p hp => absurd hp List.not_mem_nil
  subst same
  unfold advanceMiss
  dsimp only
  split
  · split
    · rename_i pubs hpubs
      exact produceErrorDefault_marshalled (by rfl) hpubs
    · exact nothing
  · split
    · rename_i p hp
      intro q hq
      rw [List.mem_singleton.1 hq]
      exact produceCurrentStep_marshalled hp
    · exact nothing
    · split
      · rename_i pubs hpubs
        exact produceErrorDefault_marshalled (by rfl) hpubs
      · exact nothing

/-- What becomes of the result of a command. -/
theorem advanceResult_marshalled {call : Call} {rslt : Option StepResult} {addSteps : List Step}
    (same : rtxn.traceParent = traceParent) :
    ∀ p ∈ (advanceResult env pb instanceStore s rtxn tp step call rslt addSteps cmpdOffset).published,
      Marshalled traceParent p := by
  subst same
  unfold advanceResult
  dsimp only
  split
  · split
    · exact produceError_marshalled rfl
    · exact produceError_marshalled rfl
  split
  · exact produceError_marshalled rfl
  split
  · exact produceError_marshalled rfl
  split
  · exact produceError_marshalled rfl
  · exact produceNextStep_marshalled rfl

/-- What becomes of a step whose key is known. -/
theorem advanceKeyed_marshalled {storageTarget : String} :
    ∀ p ∈ (advanceKeyed env pb instanceStore handleCommand s storageTarget rtxn tp step cmpdOffset).published,
      Marshalled rtxn.traceParent p := by
  unfold advanceKeyed
  generalize (if step.system = .process then { step with cmpdOffset := some cmpdOffset } else step) = keyed
  dsimp only
  generalize (if (decide (keyed.system = .process) && !keyed.isKeylessStep && !keyed.isInstanceStoreStep) = true then
    (instanceStore s).getInstance keyed.key else none) = inst
  split
  · exact advanceMiss_marshalled rfl
  split
  · exact produceError_marshalled rfl
  split
  · exact produceError_marshalled rfl
  · exact advanceResult_marshalled rfl

/-- Whatever comes of a message goes on under its trace parent. -/
theorem advance_marshalled {storageTarget : String} :
    ∀ p ∈ (advanceApecsTxn env pb instanceStore handleCommand s storageTarget rtxn tp cmpdOffset).published,
      Marshalled rtxn.traceParent p := by
  have nothing : ∀ p ∈ ([] : List Publication), Marshalled rtxn.traceParent p := fun p hp => absurd hp List.not_mem_nil
  unfold advanceApecsTxn
  split
  · exact nothing
  dsimp only
  split
  · exact produceError_marshalled rfl
  split
  · exact produceError_marshalled rfl
  split
  · exact produceError_marshalled rfl
  split
  · exact nothing
  · exact produceError_marshalled rfl
  · exact advanceKeyed_marshalled

end

end Rocketcycle
