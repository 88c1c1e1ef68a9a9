import Rocketcycle.Apecs.Continuation
import Rocketcycle.Lib.Subsequence

/-!
# The transaction log

What holds of every transaction on a topic: the steps behind the current one succeeded, those
from it on have not run, and the submitted steps are all there in their order. Handlers are
arbitrary; the steps they insert have not run and name a system.
-/

namespace Rocketcycle

open Command List

def Step.ValidSystem (s : Step) : Prop := s.system = .process ∨ isStorageSystem s.system = true

/-- A step that is done is done with `OK`. -/
def Step.Succeeded (s : Step) : Prop := ∃ r, s.result = some r ∧ r.code = .ok

/-- The log of a transaction that stands at `cur`. -/
structure Logged (txn : ApecsTxn) (done : List Step) (cur : Step) (rest : List Step) : Prop where
  stands : txn.At done cur rest
  succeeded : ∀ s ∈ done, s.Succeeded
  pending : ∀ s ∈ cur :: rest, s.result = none

/-- A step of the transaction is what a submitted step has become: the same command (`CREATE`
on the storage topic), or the storage read that a `READ` was replaced by. A key that was left
out may have been filled in, and so may a payload. -/
inductive Carries (u : TxnStep) (t : Step) : Prop
  | kept (payload : Option Bytes) (now : Int) (submitted : u.payload = .ok payload)
      (system : t.system = if u.command = create then .storage else .process)
      (concern : t.concern = u.concern) (command : t.command = u.command)
      (key : t.key = u.key ∨ u.key = "")
      (payloadKept : wireBytes t.payload = wireBytes payload ∨
        wireBytes payload = none ∧ isReservedCommand u.command = false)
      (effectiveTime : t.effectiveTime = some (u.effectiveTime.getD now))
  | readMissed (submitted : u.command = read) (system : t.system = .storage)
      (concern : t.concern = u.concern) (command : t.command = read)
      (key : t.key = u.key ∨ u.key = "") (offset : t.cmpdOffset.isSome)

/-- The submitted steps are all in the transaction, in their order. -/
def HoldsUserSteps (user : List TxnStep) (steps : List Step) : Prop := SublistForall₂ Carries user steps

/-- A transaction that another one generated. -/
def ApecsTxn.isGenerated (txn : ApecsTxn) : Bool := txn.assocTxns.any fun a => a.type = .parent

/-- Handlers are free but for the steps they insert: those name a system and have no result. -/
def InsertsPending {σ : Type} (handleCommand : HandleCommand σ) : Prop :=
  ∀ call s, ∀ add ∈ (handleCommand call s).1.2, add.ValidSystem ∧ add.result = none

/-- What `ProduceCurrentStep` has published in a run: the submission, and whatever consuming a
published transaction puts on the topic of a system. Platform, handlers and offset may differ
at every step. -/
inductive Published (traceParent : String) (txn : Txn) (respTarget : Option TopicTarget) :
    Publication → Prop
  | submit {env : Env} {p : Publication}
      (h : executeTxnAsync env traceParent (some txn) respTarget = .ok p) :
      Published traceParent txn respTarget p
  | consume {σ : Type} {env : Env} {pb : RelatedCodecs} {instanceStore : σ → InstanceStore}
      {handleCommand : HandleCommand σ} {s : σ} {storageTarget : String} {tp : TopicParts}
      {cmpdOffset : CompoundOffset} {p q : Publication}
      (published : Published traceParent txn respTarget p) (inserts : InsertsPending handleCommand)
      (h : q ∈ (advanceApecsTxn env pb instanceStore handleCommand s storageTarget
        ⟨p.txn, p.traceParent⟩ tp cmpdOffset).published)
      (step : q.dest.IsStep) : Published traceParent txn respTarget q

/-! ## The log of a publication -/

theorem validateSteps_ok {id name : String} {idx : Int} {steps : List Step}
    (h : validateSteps id idx steps name = .ok ()) :
    idx < steps.length ∧ ∀ s ∈ steps, s.ValidSystem := by
  unfold validateSteps at h
  split at h
  · cases h
  split at h
  · cases h
  split at h
  · cases h
  rename_i hidx _ _ hfind
  refine ⟨by omega, fun s hs => ?_⟩
  have := List.find?_eq_none.1 hfind s hs
  by_cases hp : s.system = .process
  · exact .inl hp
  · simp only [hp, ne_eq, not_false_eq_true, decide_true, Bool.true_and, Bool.not_eq_true', Bool.not_eq_false] at this
    exact .inr this

theorem validateSteps_of {id name : String} {idx : Int} {steps : List Step} (hidx : idx < steps.length)
    (hne : steps ≠ []) (hs : ∀ s ∈ steps, s.ValidSystem) : validateSteps id idx steps name = .ok () := by
  unfold validateSteps
  have hfind : (steps.find? fun s => s.system ≠ .process && !isStorageSystem s.system) = none := by
    rw [List.find?_eq_none]
    intro s h
    rcases hs s h with hp | hst
    · simp [hp]
    · simp [hst]
  have hlen : ¬steps.length = 0 := by simpa using hne
  rw [if_neg (by omega), if_neg hlen, hfind]

/-- What validation has checked of a forward transaction. -/
theorem validate_ok {rtxn : RtApecsTxn} (hd : rtxn.txn.direction = .forward) (h : rtxn.validate = .ok ()) :
    rtxn.txn.id ≠ "" ∧ 0 ≤ rtxn.txn.currentStepIdx ∧
      rtxn.txn.currentStepIdx < rtxn.txn.forwardSteps.length ∧ ∀ s ∈ rtxn.txn.forwardSteps, s.ValidSystem := by
  unfold RtApecsTxn.validate at h
  dsimp only at h
  split at h
  · cases h
  split at h
  · cases h
  rename_i hid hneg
  rw [hd] at h
  exact ⟨hid, by omega, validateSteps_ok h⟩

theorem validate_of {rtxn : RtApecsTxn} (hd : rtxn.txn.direction = .forward) (hid : rtxn.txn.id ≠ "")
    (h0 : 0 ≤ rtxn.txn.currentStepIdx) (h1 : rtxn.txn.currentStepIdx < rtxn.txn.forwardSteps.length)
    (hs : ∀ s ∈ rtxn.txn.forwardSteps, s.ValidSystem) : rtxn.validate = .ok () := by
  unfold RtApecsTxn.validate
  dsimp only
  rw [if_neg hid, if_neg (by omega), hd]
  exact validateSteps_of h1 (by rintro e; simp [e] at h1; omega) hs

/-- Publishing only fails where the transaction is invalid or cannot be marshalled. -/
theorem produceCurrentStep_succeeds {env : Env} {txn : ApecsTxn} {traceParent : String} {done rest : List Step} {cur : Step}
    (stands : txn.At done cur rest) (valid : traceParentIsValid traceParent = true)
    (validated : (RtApecsTxn.mk txn traceParent).validate = .ok ())
    (utf8 : (txn.forwardSteps ++ txn.reverseSteps).all Step.validUtf8 = true) :
    ∃ p, produceCurrentStep env txn traceParent = .ok p := by
  have fresh : newRtApecsTxn txn traceParent = some (.ok ⟨txn, traceParent⟩) := by
    simp [newRtApecsTxn, valid, validated, Except.map]
  obtain ⟨-, -, -, systems⟩ := validate_ok stands.direction validated
  have system : cur.ValidSystem := systems cur (by rw [stands.steps]; simp)
  have topic : ∃ name, systemToTopic cur.system = some name := by
    rcases system with hs | hs
    · exact ⟨_, by rw [hs]; rfl⟩
    · simp only [isStorageSystem, Bool.or_eq_true, decide_eq_true_eq] at hs
      rcases hs with hs | hs <;> exact ⟨_, by rw [hs]; rfl⟩
  obtain ⟨name, hname⟩ := topic
  unfold produceCurrentStep
  simp only [fresh, stands.currentStep, hname, marshalTxn, utf8, if_true]
  exact ⟨_, rfl⟩

theorem pending_utf8 {s : Step} (h : s.result = none) : s.validUtf8 = true := by
  unfold Step.validUtf8
  rw [h]

/-- A generated transaction with an id is always published. -/
theorem child_published (env : Env) {id : String} (parent : String) {traceParent : String} {step : Step}
    (valid : traceParentIsValid traceParent = true) (hid : id ≠ "") (system : step.ValidSystem)
    (pending : step.result = none) : ∃ p, produceCurrentStep env (childTxn id parent step) traceParent = .ok p := by
  have validated : (RtApecsTxn.mk (childTxn id parent step) traceParent).validate = .ok () := by
    apply validate_of rfl hid
    · show (0 : Int) ≤ 0
      omega
    · show (0 : Int) < ([step].length : Int)
      simp
    · intro s hs
      rw [List.mem_singleton.1 hs]
      exact system
  apply produceCurrentStep_succeeds (childTxn_at _ _ _) valid validated
  simp [childTxn, pending_utf8 pending]

/-- The log survives the wire. -/
theorem Logged.wire {txn : ApecsTxn} {done rest : List Step} {cur : Step} (h : Logged txn done cur rest) :
    Logged (wireTxn txn) (done.map wireStep) (wireStep cur) (rest.map wireStep) := by
  refine ⟨h.stands.wire, ?_, ?_⟩
  · intro s hs
    obtain ⟨s', hs', rfl⟩ := List.mem_map.1 hs
    obtain ⟨r, hr, hc⟩ := h.succeeded s' hs'
    exact ⟨wireResult r, by simp [hr], hc⟩
  · rw [← List.map_cons]
    intro s hs
    obtain ⟨s', hs', rfl⟩ := List.mem_map.1 hs
    simp [h.pending s' hs']

theorem childTxn_logged {id parent : String} {step : Step} (h : step.result = none) :
    Logged (childTxn id parent step) [] step [] :=
  ⟨childTxn_at _ _ _, by simp, by simpa using h⟩

/-! ## The submitted steps -/

/-- A step is rewritten without losing what it carries. -/
def KeepsCarrying (s s' : Step) : Prop := ∀ u, Carries u s → Carries u s'

theorem HoldsUserSteps.evolve {user : List TxnStep} {steps steps' : List Step}
    (h : HoldsUserSteps user steps) (h' : SublistForall₂ KeepsCarrying steps steps') :
    HoldsUserSteps user steps' :=
  Subsequence.refine (fun u _ _ hc hk => hk u hc) h h'

theorem keepsCarrying_refl (s : Step) : KeepsCarrying s s := fun _ h => h

theorem keepsCarrying_wire (s : Step) : KeepsCarrying s (wireStep s) := by
  intro u h
  cases h with
  | kept payload now submitted system concern command key payloadKept effectiveTime =>
    exact .kept payload now submitted system concern command key (by simpa using payloadKept) effectiveTime
  | readMissed submitted system concern command key offset =>
    exact .readMissed submitted system concern command key offset

theorem stepKey_own {txn : ApecsTxn} {step : Step} {key : String} (h : stepKey txn step = .ok (some key)) :
    key = step.key ∨ step.key = "" := by
  unfold stepKey at h
  split at h
  · rename_i hk
    simp only [Bool.and_eq_true, decide_eq_true_eq] at hk
    exact .inr hk.1
  · cases h; exact .inl rfl

theorem Carries.key_eq {u : TxnStep} {t : Step} (h : Carries u t) : t.key = u.key ∨ u.key = "" := by
  cases h <;> assumption

/-- Under the key it runs with, a step carries what it carried. -/
theorem key_carried {txn : ApecsTxn} {step : Step} {key : String} {u : TxnStep}
    (hk : stepKey txn step = .ok (some key)) (h : Carries u step) : key = u.key ∨ u.key = "" := by
  rcases stepKey_own hk with rfl | he
  · exact h.key_eq
  · rcases h.key_eq with hu | hu
    · exact .inr (hu ▸ he)
    · exact .inr hu

theorem keepsCarrying_keyed {txn : ApecsTxn} {step : Step} {key : String} {o : CompoundOffset}
    (hk : stepKey txn step = .ok (some key)) : KeepsCarrying step (step.keyed key o) := by
  intro u h
  have hkey := key_carried hk h
  cases h with
  | kept payload now submitted system concern command _ payloadKept effectiveTime =>
    exact .kept payload now submitted (by simpa using system) (by simpa using concern)
      (by simpa using command) (by simpa using hkey) (by simpa using payloadKept) (by simpa using effectiveTime)
  | readMissed submitted system concern command _ offset =>
    refine .readMissed submitted (by simpa using system) (by simpa using concern) (by simpa using command)
      (by simpa using hkey) ?_
    rwa [keyed_storage_offset (by simp [system])]

theorem keepsCarrying_done {step : Step} {r : StepResult} {inst : Option Bytes} :
    KeepsCarrying step (step.done r inst) := by
  intro u h
  cases h with
  | kept payload now submitted system concern command key payloadKept effectiveTime =>
    exact .kept payload now submitted system concern command key payloadKept effectiveTime
  | readMissed submitted system concern command key offset =>
    exact .readMissed submitted system concern command key offset

/-- A `READ` that misses is carried by the storage read in its place. -/
theorem keepsCarrying_readStep {step : Step} {o : CompoundOffset} (hs : step.system = .process)
    (hc : step.command = read) : KeepsCarrying step (readStep step o) := by
  intro u h
  cases h with
  | kept payload now submitted system concern command key payloadKept effectiveTime =>
    exact .readMissed (command.symm.trans hc) rfl concern rfl key rfl
  | readMissed submitted system concern command key offset => rw [hs] at system; cases system

theorem read_reserved : isReservedCommand read = true := by decide

theorem create_reserved : isReservedCommand create = true := by decide

theorem keepsCarrying_nextStepOf {step next : Step} {o : CompoundOffset} :
    KeepsCarrying next (nextStepOf step next o) := by
  intro u h
  cases h with
  | kept payload now submitted system concern command key payloadKept effectiveTime =>
    refine .kept payload now submitted (by simpa using system) (by simpa using concern) (by simpa using command)
      (by simpa using key) ?_ (by simpa using effectiveTime)
    rcases nextStepOf_payload step next o with hp | ⟨hnone, hcmd, -⟩
    · rwa [hp]
    · rw [hnone] at payloadKept
      rcases payloadKept with h | h
      · exact .inr ⟨h.symm, by rwa [← command]⟩
      · exact .inr h
  | readMissed submitted system concern command key offset =>
    refine .readMissed submitted (by simpa using system) (by simpa using concern) (by simpa using command)
      (by simpa using key) ?_
    rcases nextStepOf_offset step next o with ho | ⟨-, hnone, -⟩
    · rwa [ho]
    · rw [hnone] at offset; cases offset

/-! ## Runs -/

/-- What the run maintains of a publication. -/
structure RunLog (user : List TxnStep) (p : Publication) : Prop where
  traced : traceParentIsValid p.traceParent = true
  logged : ∃ done cur rest, Logged p.txn done cur rest
  validated : (RtApecsTxn.mk p.txn p.traceParent).validate = .ok ()
  steps : p.txn.isGenerated = false → HoldsUserSteps user p.txn.forwardSteps

theorem validate_wire {txn : ApecsTxn} {traceParent : String} (hd : txn.direction = .forward)
    (h : (RtApecsTxn.mk txn traceParent).validate = .ok ()) :
    (RtApecsTxn.mk (wireTxn txn) traceParent).validate = .ok () := by
  obtain ⟨hid, h0, h1, hs⟩ := validate_ok hd h
  refine validate_of hd hid h0 ?_ ?_
  · simpa [wireTxn] using h1
  · intro s hs'
    obtain ⟨s', hs'', rfl⟩ := List.mem_map.1 hs'
    exact hs s' hs''

/-- Publishing a well logged transaction. -/
theorem Publishes.runLog {env : Env} {txn : ApecsTxn} {traceParent : String} {step : Step} {p : Publication}
    (h : Publishes env txn traceParent step p) {user : List TxnStep} {done rest : List Step} {cur : Step}
    (logged : Logged txn done cur rest) (steps : txn.isGenerated = false → HoldsUserSteps user txn.forwardSteps) :
    RunLog user p where
  traced := by rw [h.parent]; exact h.valid.1
  logged := ⟨_, _, _, h.sent ▸ logged.wire⟩
  validated := by
    rw [h.sent, h.parent]
    exact validate_wire logged.stands.direction h.valid.2
  steps := by
    rw [h.sent]
    intro hg
    exact (steps hg).evolve (Subsequence.of_map keepsCarrying_wire _)

section
variable {σ : Type} {env : Env} {pb : RelatedCodecs} {instanceStore : σ → InstanceStore}
  {handleCommand : HandleCommand σ} {s : σ} {storageTarget : String} {tp : TopicParts}
  {cmpdOffset : CompoundOffset} {user : List TxnStep}

/-- A miss keeps the log: the storage read stands in front of what has not run. -/
theorem Logged.miss {txn : ApecsTxn} {done rest : List Step} {cur : Step} (h : Logged txn done cur rest)
    (key : String) (cmpdOffset : CompoundOffset) :
    Logged { txn with forwardSteps := done ++ missSteps (cur.keyed key cmpdOffset) rest cmpdOffset }
      done (readStep (cur.keyed key cmpdOffset) cmpdOffset) (missAhead (cur.keyed key cmpdOffset) rest) := by
  refine ⟨h.stands.miss _ _, h.succeeded, ?_⟩
  intro s hs
  rcases List.mem_cons.1 hs with rfl | hs
  · rfl
  rcases mem_missAhead hs with rfl | hs
  · rw [keyed_result]
    exact h.pending cur List.mem_cons_self
  · exact h.pending s (List.mem_cons_of_mem _ hs)

theorem miss_carries {txn : ApecsTxn} {done rest : List Step} {cur : Step} {key : String}
    (hk : stepKey txn cur = .ok (some key)) (hs : cur.system = .process) :
    SublistForall₂ KeepsCarrying (done ++ cur :: rest)
      (done ++ missSteps (cur.keyed key cmpdOffset) rest cmpdOffset) := by
  refine Subsequence.append (Subsequence.refl keepsCarrying_refl _) ?_
  have keyed := keepsCarrying_keyed (o := cmpdOffset) hk
  have tail := Subsequence.refl keepsCarrying_refl rest
  unfold missSteps
  split
  · rename_i hr
    exact .cons (fun u hu => keepsCarrying_readStep (by simpa using hs) hr u (keyed u hu)) tail
  · exact .cons_right (.cons keyed tail)

/-- Moving on keeps the log: the step that ran joins the ones done. -/
theorem Logged.next {txn : ApecsTxn} {done rest : List Step} {cur next : Step} {key : String} {r : StepResult}
    {inst : Option Bytes} (h : Logged txn done cur rest) (isOk : r.code = .ok)
    {addSteps tail : List Step} (adds : ∀ s ∈ addSteps, s.result = none) (heq : addSteps ++ rest = next :: tail)
    {step : Step} (hstep : step = (cur.keyed key cmpdOffset).done r inst) :
    Logged { txn with currentStepIdx := txn.currentStepIdx + 1,
                      forwardSteps := (done ++ [step]) ++ nextStepOf step next cmpdOffset :: tail }
      (done ++ [step]) (nextStepOf step next cmpdOffset) tail := by
  refine ⟨h.stands.next _ _ _, ?_, ?_⟩
  · intro s hs
    rcases List.mem_append.1 hs with hs | hs
    · exact h.succeeded s hs
    · rw [List.mem_singleton.1 hs, hstep]
      exact ⟨_, rfl, isOk⟩
  · have all : ∀ s ∈ next :: tail, s.result = none := by
      rw [← heq]
      intro s hs
      rcases List.mem_append.1 hs with hs | hs
      · exact adds s hs
      · exact h.pending s (List.mem_cons_of_mem _ hs)
    intro s hs
    rcases List.mem_cons.1 hs with rfl | hs
    · simpa using all next List.mem_cons_self
    · exact all s (List.mem_cons_of_mem _ hs)

theorem next_carries {txn : ApecsTxn} {done rest : List Step} {cur next : Step} {key : String} {r : StepResult}
    {inst : Option Bytes} (hk : stepKey txn cur = .ok (some key)) {addSteps tail : List Step}
    (heq : addSteps ++ rest = next :: tail) {step : Step} (hstep : step = (cur.keyed key cmpdOffset).done r inst) :
    SublistForall₂ KeepsCarrying (done ++ cur :: rest)
      ((done ++ [step]) ++ nextStepOf step next cmpdOffset :: tail) := by
  rw [List.append_assoc, List.singleton_append, hstep]
  refine Subsequence.append (Subsequence.refl keepsCarrying_refl _) (.cons ?_ ?_)
  · exact fun u hu => keepsCarrying_done u (keepsCarrying_keyed hk u hu)
  · have front : SublistForall₂ KeepsCarrying rest (next :: tail) :=
      heq ▸ Subsequence.append_left (Subsequence.refl keepsCarrying_refl rest) addSteps
    exact Subsequence.refine (S := KeepsCarrying) (fun a b b' hab hbb' u hu => hbb' u (hab u hu)) front
      (.cons keepsCarrying_nextStepOf (Subsequence.refl keepsCarrying_refl tail))

/-- Consuming a publication of the run keeps the invariant of whatever goes to a system. -/
theorem RunLog.advance {p q : Publication} (h : RunLog user p) (inserts : InsertsPending handleCommand)
    (hq : q ∈ (advanceApecsTxn env pb instanceStore handleCommand s storageTarget
      ⟨p.txn, p.traceParent⟩ tp cmpdOffset).published) (step : q.dest.IsStep) : RunLog user q := by
  obtain ⟨done, cur, rest, logged⟩ := h.logged
  have steps := logged.stands.steps
  cases advance_continues h.traced logged.stands hq step with
  | missed key system keyed process call publishes =>
    refine publishes.runLog (logged.miss key cmpdOffset) fun hg => ?_
    have held := h.steps hg
    rw [steps] at held
    exact held.evolve (miss_carries keyed process)
  | next key call r addSteps nextStep tail system keyed ran isOk follows step isDone publishes =>
    have adds : ∀ add ∈ addSteps, add.result = none := fun add ha => by
      have := inserts call s add
      rw [ran.handled] at this
      exact (this ha).2
    refine publishes.runLog (logged.next isOk adds follows isDone) fun hg => ?_
    have held := h.steps hg
    rw [steps] at held
    exact held.evolve (next_carries keyed follows isDone)
  | generated key call r addSteps system keyed ran isOk last step isDone id parent child generates publishes =>
    exact publishes.runLog (childTxn_logged generates.pending) (by simp [childTxn, ApecsTxn.isGenerated])

end

/-! ## Submission -/

/-- A prepared step, expanded, carries the step it was prepared from. -/
theorem expandStep_carries {env : Env} {u : TxnStep} {t : Step} (h : prepareStep env u = .ok t) :
    SublistForall₂ Carries [u] (expandStep t) ∧ ∀ s ∈ expandStep t, s.result = none := by
  unfold prepareStep at h
  split at h
  · cases h
  rename_i payload hp
  cases h
  by_cases hc : u.command = create
  · refine ⟨?_, by simp [expandStep, hc]⟩
    simp only [expandStep, hc, decide_true, Bool.and_self, if_true]
    exact .cons_right (.cons (.kept payload env.now hp (by simp [hc]) rfl hc.symm (.inl rfl) (.inl rfl) rfl) .nil)
  by_cases hu : u.command = update
  · have ne : update ≠ create := by decide
    refine ⟨?_, by simp [expandStep, hu, ne]⟩
    simp only [expandStep, hu, ne, decide_true, decide_false, Bool.and_false, Bool.and_self,
      Bool.false_eq_true, if_false, if_true]
    exact .cons_right (.cons (.kept payload env.now hp (by simp [hu, ne]) rfl hu.symm (.inl rfl) (.inl rfl) rfl) .nil)
  · refine ⟨?_, by simp [expandStep, hc, hu]⟩
    simp only [expandStep, hc, hu, decide_false, Bool.and_false, Bool.false_eq_true, if_false]
    exact .cons (.kept payload env.now hp (by simp [hc]) rfl rfl (.inl rfl) (.inl rfl) rfl) .nil

theorem prepared_carries {env : Env} {user : List TxnStep} {steps : List Step}
    (h : user.mapM (prepareStep env) = .ok steps) :
    HoldsUserSteps user (steps.flatMap expandStep) ∧ ∀ s ∈ steps.flatMap expandStep, s.result = none := by
  induction user generalizing steps with
  | nil =>
    rw [List.mapM_nil] at h
    cases h
    exact ⟨.nil, by simp⟩
  | cons u user ih =>
    rw [List.mapM_cons] at h
    cases hu : prepareStep env u with
    | error e => rw [hu] at h; cases h
    | ok t =>
      cases hrest : user.mapM (prepareStep env) with
      | error e => rw [hu, hrest] at h; cases h
      | ok ts =>
        rw [hu, hrest] at h
        cases h
        obtain ⟨carries, pending⟩ := expandStep_carries hu
        obtain ⟨carries', pending'⟩ := ih hrest
        refine ⟨Subsequence.append carries carries', fun s hs => ?_⟩
        rw [List.flatMap_cons] at hs
        rcases List.mem_append.1 hs with hs | hs
        · exact pending s hs
        · exact pending' s hs

/-- What a submission that is published has become. -/
structure Submitted (env : Env) (traceParent : String) (txn : Txn) (p : Publication) (steps : List Step)
    (rtxn : ApecsTxn) (cur : Step) (rest : List Step) : Prop where
  prepared : txn.steps.mapM (prepareStep env) = .ok steps
  allowed : ∀ s ∈ txn.steps, isTxnProhibitedCommand s.command = false
  forward : rtxn.forwardSteps = steps.flatMap expandStep
  uponError : rtxn.uponError = if txn.revert = .revertable then .revert else .report
  noReverse : rtxn.reverseSteps = []
  txnId : rtxn.id = traceIdFromTraceParent traceParent
  assocTxns : rtxn.assocTxns = []
  logged : Logged rtxn [] cur rest
  publishes : Publishes env rtxn traceParent cur p

theorem executeTxnAsync_ok {env : Env} {traceParent : String} {txn : Txn} {respTarget : Option TopicTarget}
    {p : Publication} (h : executeTxnAsync env traceParent (some txn) respTarget = .ok p) :
    ∃ steps rtxn cur rest, Submitted env traceParent txn p steps rtxn cur rest := by
  unfold executeTxnAsync at h
  split at h
  · cases h
  rename_i prep hprep
  have prepared : txn.steps.mapM (prepareStep env) = .ok prep.steps ∧
      (∀ s ∈ txn.steps, isTxnProhibitedCommand s.command = false) ∧ prep.traceParent = traceParent ∧
      prep.txnId = traceIdFromTraceParent traceParent ∧
      prep.uponError = if txn.revert = .revertable then .revert else .report := by
    unfold prepareApecsSteps at hprep
    split at hprep
    · cases hprep
    · cases hprep
    rename_i hvalid heq
    cases heq
    split at hprep
    · cases hprep
    split at hprep
    · cases hprep
    rename_i hsteps
    cases hprep
    refine ⟨hsteps, ?_, rfl, rfl, rfl⟩
    unfold validateTxn at hvalid
    dsimp only at hvalid
    split at hvalid
    · cases hvalid
    split at hvalid
    · cases hvalid
    rename_i hfind
    intro s hs
    simpa using List.find?_eq_none.1 hfind s hs
  obtain ⟨steps, allowed, parent, txnId, upon⟩ := prepared
  unfold executeTxn at h
  split at h
  · cases h
  rename_i rtxn hnew
  obtain ⟨cur, hcur, publishes⟩ := produceCurrentStep_ok h
  have fields : rtxn.forwardSteps = prep.steps.flatMap expandStep ∧ rtxn.direction = .forward ∧
      rtxn.currentStepIdx = 0 ∧ rtxn.uponError = prep.uponError ∧ rtxn.reverseSteps = [] ∧
      rtxn.id = prep.txnId ∧ rtxn.assocTxns = [] := by
    unfold newApecsTxn at hnew
    split at hnew
    · split at hnew
      · cases hnew
      · cases hnew; exact ⟨rfl, rfl, rfl, rfl, rfl, rfl, rfl⟩
    · cases hnew; exact ⟨rfl, rfl, rfl, rfl, rfl, rfl, rfl⟩
  obtain ⟨hsteps, hdir, hidx, hupon, noReverse, hid, noAssoc⟩ := fields
  obtain ⟨rest, hrest⟩ : ∃ rest, rtxn.forwardSteps = cur :: rest := by
    simp only [ApecsTxn.currentStep, stepAt, ApecsTxn.getSteps, hdir, hidx] at hcur
    cases hf : rtxn.forwardSteps with
    | nil => simp [hf] at hcur
    | cons s rest => simp [hf] at hcur; exact ⟨rest, by rw [hcur]⟩
  have logged : Logged rtxn [] cur rest := by
    refine ⟨⟨hdir, hrest, hidx⟩, by simp, ?_⟩
    rw [← hrest, hsteps]
    exact (prepared_carries steps).2
  exact ⟨prep.steps, rtxn, cur, rest, steps, allowed, hsteps, hupon.trans upon, noReverse, hid.trans txnId, noAssoc,
    logged, parent ▸ publishes⟩

/-- A submission that is published starts a log. -/
theorem submit_runLog {env : Env} {traceParent : String} {txn : Txn} {respTarget : Option TopicTarget}
    {p : Publication} (h : executeTxnAsync env traceParent (some txn) respTarget = .ok p) :
    RunLog txn.steps p := by
  obtain ⟨steps, rtxn, cur, rest, submitted⟩ := executeTxnAsync_ok h
  exact submitted.publishes.runLog submitted.logged fun _ =>
    submitted.forward ▸ (prepared_carries submitted.prepared).1

/-! ## The invariant -/

/-- The log of a published transaction, by its indices. -/
structure LogInvariant (user : List TxnStep) (p : Publication) : Prop where
  forward : p.txn.direction = .forward
  lower : 0 ≤ p.txn.currentStepIdx
  upper : p.txn.currentStepIdx < p.txn.forwardSteps.length
  behind : ∀ (i : Nat) s, p.txn.forwardSteps[i]? = some s → (i : Int) < p.txn.currentStepIdx →
    ∃ r, s.result = some r ∧ r.code = .ok
  ahead : ∀ (i : Nat) s, p.txn.forwardSteps[i]? = some s → p.txn.currentStepIdx ≤ i → s.result = none
  validated : (RtApecsTxn.mk p.txn p.traceParent).validate = .ok ()
  /-- A generated transaction holds the one step it was generated for, any other the user's. -/
  userSteps : p.txn.isGenerated = false → HoldsUserSteps user p.txn.forwardSteps

theorem RunLog.invariant {user : List TxnStep} {p : Publication} (h : RunLog user p) : LogInvariant user p := by
  obtain ⟨done, cur, rest, logged⟩ := h.logged
  have hat := logged.stands
  refine ⟨hat.direction, by simp [hat.idx], by rw [hat.idx, hat.steps, List.length_append, List.length_cons]; omega, ?_, ?_, h.validated, h.steps⟩
  · intro i s hs hi
    rw [hat.steps, List.getElem?_append_left (by have := hat.idx; omega)] at hs
    exact logged.succeeded s (List.mem_of_getElem? hs)
  · intro i s hs hi
    rw [hat.steps, List.getElem?_append_right (by have := hat.idx; omega)] at hs
    exact logged.pending s (List.mem_of_getElem? hs)

section
variable {σ : Type} {env : Env} {pb : RelatedCodecs} {instanceStore : σ → InstanceStore}
  {handleCommand : HandleCommand σ} {s : σ} {storageTarget : String} {tp : TopicParts}
  {cmpdOffset : CompoundOffset}

variable (env pb instanceStore handleCommand s storageTarget tp cmpdOffset) in
/-- Consuming a well logged transaction never finds its step complete, and completing it never
meets a step without a result. -/
theorem RunLog.safe {user : List TxnStep} {p : Publication} (h : RunLog user p) :
    let out := advanceApecsTxn env pb instanceStore handleCommand s storageTarget
      ⟨p.txn, p.traceParent⟩ tp cmpdOffset
    (out.code = .stepAlreadyComplete → out.call.isSome) ∧
      ∀ f, out.fault = some f → f = .packedPayload ∨ IsFatal f := by
  obtain ⟨done, cur, rest, logged⟩ := h.logged
  dsimp only
  cases advance_cases env pb instanceStore handleCommand s storageTarget ⟨p.txn, p.traceParent⟩ tp cmpdOffset
    h.traced logged.stands (logged.pending cur List.mem_cons_self) with
  | rejected state call fault errors code keyed => exact ⟨fun hc => absurd hc code.1, by simp [fault]⟩
  | missed key p' concern system keyed looksUp missing state call fault published code publishes =>
    exact ⟨by simp [code], by simp [fault]⟩
  | failed key call rslt addSteps concern system keyed ran notOk published fault =>
    exact ⟨by simp [ran.recorded], by simp [fault]⟩
  | succeeded key call r addSteps concern system keyed ran isOk code next =>
    refine ⟨by simp [ran.recorded], fun f hf => ?_⟩
    have hat := logged.stands.withSteps
      ((cur.keyed key cmpdOffset).done r (instanceFor (instanceStore s) cur key)) (addSteps ++ rest)
    cases heq : addSteps ++ rest with
    | cons nextStep tail =>
      rw [heq] at hat next
      obtain ⟨none, -⟩ := produceNextStep_next h.traced hat next
      rw [none] at hf
      cases hf
    | nil =>
      rw [heq] at hat next
      rcases produceNextStep_last hat next with ⟨f', hf', herr⟩ | ⟨c, m, none, -⟩
      · rw [hf'] at hf
        cases hf
        refine produceStorage_error h.traced (fun step hs => ?_) herr
        rcases List.mem_append.1 hs with hs | hs
        · obtain ⟨r', hr', -⟩ := logged.succeeded step hs
          simp [hr']
        · rw [List.mem_singleton.1 hs]
          rfl
      · rw [none] at hf
        cases hf

end

theorem Published.runLog {traceParent : String} {txn : Txn} {respTarget : Option TopicTarget} {p : Publication}
    (h : Published traceParent txn respTarget p) : RunLog txn.steps p := by
  induction h with
  | submit h => exact submit_runLog h
  | consume _ inserts hq step ih => exact ih.advance inserts hq step

/-- Over whole runs every published transaction keeps its log, and without redelivery consuming
it neither finds its step complete nor dereferences a missing result. -/
theorem published_log_invariant {traceParent : String} {txn : Txn} {respTarget : Option TopicTarget}
    {p : Publication} (h : Published traceParent txn respTarget p) :
    LogInvariant txn.steps p ∧
      ∀ {σ : Type} (env : Env) (pb : RelatedCodecs) (instanceStore : σ → InstanceStore)
        (handleCommand : HandleCommand σ) (s : σ) (storageTarget : String) (tp : TopicParts)
        (cmpdOffset : CompoundOffset),
        let out := advanceApecsTxn env pb instanceStore handleCommand s storageTarget
          ⟨p.txn, p.traceParent⟩ tp cmpdOffset
        (out.code = .stepAlreadyComplete → out.call.isSome) ∧ out.fault ≠ some .nilDeref := by
  refine ⟨h.runLog.invariant, ?_⟩
  intro σ env pb instanceStore handleCommand s storageTarget tp cmpdOffset
  obtain ⟨code, faults⟩ := h.runLog.safe env pb instanceStore handleCommand s storageTarget tp cmpdOffset
  refine ⟨code, fun hf => ?_⟩
  rcases faults _ hf with h | ⟨e, h⟩
  · cases h
  · cases h

/-- A `READ` of an instance that the store does not hold, and the storage read published for it. -/
def sampleRead : Txn :=
  ⟨.nonRevertable, [{ concern := "Player", command := read, key := "k", payload := .ok none, effectiveTime := none }]⟩

def sampleReadPub : Publication :=
  { dest := .topic "Player" .storage, hashKey := stringBytes "k", traceParent := sampleTraceParent,
    txn := { id := "0123456789abcdef0123456789abcdef", uponError := .report,
             forwardSteps := [{ system := .storage, concern := "Player", command := read, key := "k",
                                cmpdOffset := some ⟨1, 0, 7⟩ }] } }

theorem published_log_invariant_sampleRead :
    LogInvariant sampleRead.steps sampleReadPub ∧
      ∀ {σ : Type} (env : Env) (pb : RelatedCodecs) (instanceStore : σ → InstanceStore)
        (handleCommand : HandleCommand σ) (s : σ) (storageTarget : String) (tp : TopicParts)
        (cmpdOffset : CompoundOffset),
        let out := advanceApecsTxn env pb instanceStore handleCommand s storageTarget
          ⟨sampleReadPub.txn, sampleReadPub.traceParent⟩ tp cmpdOffset
        (out.code = .stepAlreadyComplete → out.call.isSome) ∧ out.fault ≠ some .nilDeref := by
  have idle : InsertsPending (fun _ s => ((none, []), s) : HandleCommand InstanceStore) := by
    intro call s add h
    cases h
  have submitted : executeTxnAsync Env.sample sampleTraceParent (some sampleRead) none = .ok
      { sampleReadPub with
        dest := .topic "Player" .process,
        txn := { sampleReadPub.txn with
                 forwardSteps := [{ system := .process, concern := "Player", command := read, key := "k",
                                    effectiveTime := some 0 }] } } := by
    decide +kernel
  have missed : (advanceApecsTxn Env.sample ⟨⟨fun _ => .ok [], fun _ => .error ""⟩,
      ⟨fun _ => .ok [], fun _ => .error ""⟩⟩ id (fun _ s => ((none, []), s)) InstanceStore.new ""
      ⟨{ sampleReadPub.txn with
          forwardSteps := [{ system := .process, concern := "Player", command := read, key := "k",
                             effectiveTime := some 0 }] }, sampleTraceParent⟩
      ⟨"Player", .process, 1⟩ ⟨1, 0, 7⟩).published = [sampleReadPub] := by
    decide +kernel
  refine published_log_invariant (.consume (.submit submitted) idle (missed ▸ List.mem_singleton_self _) ?_)
  exact ⟨_, _, rfl, by decide, by decide⟩

/-! ## A user command

One user command on a cached instance. Every command succeeds, a process command with a new instance,
and inserts what `adds` says. -/

def sampleSet : Txn :=
  ⟨.nonRevertable, [{ concern := "Player", command := "Set", key := "k", payload := .ok none, effectiveTime := none }]⟩

def sampleReading (adds : String → List Step) (system : System) (offset : Int) : Reading where
  env := Env.sample
  pb := ⟨⟨fun _ => .ok [], fun _ => .error ""⟩, ⟨fun _ => .ok [], fun _ => .error ""⟩⟩
  instanceStore := id
  handleCommand call s :=
    ((some { code := .ok, inst := if call.system = .process then some [2] else none }, adds call.command), s)
  s key := if key = "k" then some ⟨some [1], none, ⟨1, 0, 0⟩⟩ else none
  storageTarget := "first"
  tp := ⟨"Player", system, 1⟩
  cmpdOffset := ⟨1, 0, offset⟩

def sampleSetPub : Publication :=
  { dest := .topic "Player" .process, hashKey := stringBytes "k", traceParent := sampleTraceParent,
    txn := { id := "0123456789abcdef0123456789abcdef", uponError := .report,
             forwardSteps := [{ system := .process, concern := "Player", command := "Set", key := "k",
                                effectiveTime := some 0 }] } }

theorem sampleSetPub_submitted : executeTxnAsync Env.sample sampleTraceParent (some sampleSet) none = .ok sampleSetPub := by
  decide +kernel

def sampleInsert (system : System) : Step :=
  { system := system, concern := "Player", command := "Touch", key := "k" }

end Rocketcycle
