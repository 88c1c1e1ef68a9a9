import Rocketcycle.Apecs.Faults
import Rocketcycle.Apecs.Marshalled
import Rocketcycle.Apecs.OneOutcome
import Rocketcycle.Apecs.Reporting
import Rocketcycle.Net.Standing

/-!
# What is left of a message that is read

A message that a consumer reads leaves one message of its transaction behind: the next step, or the
transaction as it has ended, with the transactions that it has generated in front. Where the texts that
are logged on the way are cut between characters there always is one, otherwise one at most.
-/

namespace Rocketcycle

open Command

variable {M : Type}

/-! ## One message of a transaction -/

/-- One message of the transaction, and the responses that repeat it. -/
def OneOf (id : String) (upon : UponError) (pubs : List Publication) : Prop :=
  ∃ p responses, pubs = p :: responses ∧ p.isResponse = false ∧ (p.txn.id = id ∧ p.txn.uponError = upon) ∧
    ∀ q ∈ responses, q.isResponse = true

/-- At most one message of the transaction, and one if that is `certain`. -/
structure Shows (certain : Prop) (id : String) (upon : UponError) (pubs : List Publication) : Prop where
  most : pubs = [] ∨ OneOf id upon pubs
  certainly : certain → OneOf id upon pubs

/-- A transaction that can be marshalled, apart from its current step. -/
structure Sendable (txn : ApecsTxn) (done rest : List Step) : Prop where
  behind : ∀ s ∈ done, s.validUtf8 = true
  ahead : ∀ s ∈ rest, s.validUtf8 = true
  noReverse : txn.reverseSteps = []

/-- The texts that are logged in front of the producers that are asked for are cut between characters. -/
def LogsCleanly (env : Env) (asked : List Asked) : Prop :=
  ∀ a ∈ asked, ∀ msg, a.logged = some msg → CutsCleanly (env.sprintf msg)

instance (env : Env) (asked : List Asked) : Decidable (LogsCleanly env asked) :=
  decidable_of_iff (asked.all fun a => a.logged.all fun msg => (logEvent .err (env.sprintf msg)).validUtf8) (by
    simp only [List.all_eq_true, Option.all_eq_true, logEvent_validUtf8_iff, LogsCleanly])

theorem LogsCleanly.right {env : Env} {before asked : List Asked} (h : LogsCleanly env (before ++ asked)) :
    LogsCleanly env asked :=
  fun a ha => h a (List.mem_append_right _ ha)

section
variable {env : Env} {certain : Prop} {id : String} {upon : UponError} {pubs : List Publication}

theorem OneOf.shows (h : OneOf id upon pubs) : Shows certain id upon pubs := ⟨.inr h, fun _ => h⟩

theorem shows_nothing (impossible : ¬certain) : Shows certain id upon [] :=
  ⟨.inl rfl, fun h => absurd h impossible⟩

theorem Publishes.oneOf {txn : ApecsTxn} {traceParent : String} {step : Step} {p : Publication}
    (h : Publishes env txn traceParent step p) : OneOf txn.id txn.uponError [p] := by
  obtain ⟨name, -, dest⟩ := h.dest
  refine ⟨p, [], rfl, by simp [Publication.isResponse, dest], ?_, by simp⟩
  rw [h.sent]
  exact ⟨rfl, rfl⟩

theorem Sendable.marshals {txn : ApecsTxn} {done rest : List Step} {step : Step} (h : Sendable txn done rest)
    (valid : step.validUtf8 = true) :
    ((done ++ step :: rest) ++ txn.reverseSteps).all Step.validUtf8 = true := by
  rw [h.noReverse, List.append_nil, List.all_append, List.all_cons, Bool.and_eq_true, Bool.and_eq_true,
    List.all_eq_true, List.all_eq_true]
  exact ⟨h.behind, valid, h.ahead⟩

/-- An error is reported by one message, unless the transaction cannot be marshalled. -/
theorem produceError_shows {rtxn : RtApecsTxn} {step : Step} {put : Step → ApecsTxn} {code : Code} {log : Bool}
    {msg : String} (frame : ∀ s, (put s).id = rtxn.txn.id ∧ (put s).uponError = rtxn.txn.uponError)
    (clean : certain → LogsCleanly env [errorAsked env rtxn step put code log msg] ∧ ∀ r, step.result = some r → r.Clean)
    (marshals : certain → ∀ r : StepResult, r.Clean →
      ((put { step with result := some r }).forwardSteps ++ (put { step with result := some r }).reverseSteps).all
        Step.validUtf8 = true) :
    Shows certain rtxn.txn.id rtxn.txn.uponError (produceError env rtxn step put code log msg) := by
  have result : certain → (reportedResult env step code log msg).Clean := by
    intro sure
    unfold reportedResult
    split
    · rename_i logs
      have text : CutsCleanly (env.sprintf msg) :=
        (clean sure).1 _ (List.mem_singleton_self _) msg (by simp [errorAsked, logs])
      exact errorResult_clean_iff.2 ⟨text, (clean sure).2⟩
    · cases hr : step.result with
      | none => rfl
      | some r => exact (clean sure).2 r hr
  rw [produceError_eq]
  generalize reportedResult env step code log msg = rslt at result
  split
  · rename_i e he
    refine shows_nothing fun sure => ?_
    unfold marshalTxn at he
    rw [if_pos (marshals sure rslt (result sure))] at he
    cases he
  · rename_i wire hwire
    refine OneOf.shows ⟨_, _, rfl, rfl, ?_, fun q hq => isResponse_of (produceResponse_dest hq)⟩
    rw [marshalTxn_ok hwire]
    exact frame _

/-- An error on the current step. -/
theorem produceApecsTxnError_shows (rtxn : RtApecsTxn) {done rest : List Step} {cur step : Step} {code : Code} {log : Bool}
    {msg : String} (stands : rtxn.txn.At done cur rest)
    (clean : certain → (LogsCleanly env [apecsTxnErrorAsked env rtxn rtxn.txn.currentStepIdx step code log msg] ∧
      ∀ r, step.result = some r → r.Clean) ∧ Sendable rtxn.txn done rest) :
    Shows certain rtxn.txn.id rtxn.txn.uponError
      (produceApecsTxnError env rtxn rtxn.txn.currentStepIdx step code log msg) := by
  unfold produceApecsTxnError
  apply produceError_shows
  · intro s
    rw [stands.setStep_eq]
    exact ⟨rfl, rfl⟩
  · exact fun sure => (clean sure).1
  · intro sure r hr
    rw [stands.setStep_eq]
    exact (clean sure).2.marshals hr

/-- An error that is logged on the first step. -/
theorem produceErrorDefault_shows {rtxn : RtApecsTxn} {done rest : List Step} {cur : Step} {code : Code} {log : Bool}
    {msg : String} (stands : rtxn.txn.At done cur rest) (pending : cur.result = none)
    (clean : certain → LogsCleanly env (errorDefaultAsked env rtxn code log msg) ∧ Sendable rtxn.txn done rest)
    (h : produceErrorDefault env rtxn code log msg = .ok pubs) : Shows certain rtxn.txn.id rtxn.txn.uponError pubs := by
  unfold produceErrorDefault at h
  split at h
  · cases h
  rename_i first hfirst
  cases h
  have valid : certain → ∀ s ∈ rtxn.txn.forwardSteps, s.validUtf8 = true := by
    intro sure s hs
    rw [stands.steps] at hs
    rcases List.mem_append.1 hs with hs | hs
    · exact (clean sure).2.behind s hs
    rcases List.mem_cons.1 hs with rfl | hs
    · exact pending_utf8 pending
    · exact (clean sure).2.ahead s hs
  apply produceError_shows
  · exact fun _ => ⟨rfl, rfl⟩
  · intro sure
    have logs := (clean sure).1
    unfold errorDefaultAsked at logs
    rw [hfirst] at logs
    refine ⟨logs, fun r hr => ?_⟩
    have here := valid sure first (List.mem_of_getElem? hfirst)
    unfold Step.validUtf8 at here
    rw [hr] at here
    exact here
  · intro sure r hr
    dsimp only
    rw [(clean sure).2.noReverse, List.append_nil, all_set hfirst (valid sure)]
    exact hr

end

/-! ## What comes of a message that is read -/

section
variable {env : Env} {pb : RelatedCodecs} {store : InstanceStore} {certain : Prop} {txn : ApecsTxn} {traceParent : String}
  {done rest : List Step} {cur : Step} {cmpdOffset : CompoundOffset} {pubs : List Publication} {fault : Option Fault}

/-- After the last step the transaction is published once, behind those that it has generated. -/
theorem produceNextStep_last_shows (stands : txn.At done cur [])
    (clean : certain → Sendable txn done [] ∧ cur.validUtf8 = true)
    (h : (pubs, fault) = produceNextStep env pb store ⟨txn, traceParent⟩ txn.currentStepIdx cur cmpdOffset)
    (noFault : fault = none) :
    ∃ steps own, pubs = childPubs env traceParent txn.id 0 steps ++ own ∧ Shows certain txn.id txn.uponError own := by
  unfold produceNextStep at h
  rw [stands.advanceStepIdx_last] at h
  dsimp only at h
  split at h
  · cases h
    cases noFault
  rename_i c hc
  obtain ⟨m, gen⟩ := produceStorage_ok stands.direction hc
  have same : c.txn.At done cur [] := by
    rw [gen.grown]
    exact ⟨stands.direction, stands.steps, stands.idx⟩
  have frame : c.txn.id = txn.id ∧ c.txn.uponError = txn.uponError := by
    rw [gen.grown]
    exact ⟨rfl, rfl⟩
  have marshals : certain → (c.txn.forwardSteps ++ c.txn.reverseSteps).all Step.validUtf8 = true := by
    intro sure
    have noReverse : c.txn.reverseSteps = txn.reverseSteps := by rw [gen.grown]
    rw [same.steps, noReverse]
    exact (clean sure).1.marshals (clean sure).2
  rw [gen.published] at h
  split at h
  · rename_i comp hcomp
    cases h
    refine ⟨_, comp, rfl, OneOf.shows ?_⟩
    unfold produceComplete at hcomp
    dsimp only at hcomp
    rw [same.firstForwardStep] at hcomp
    dsimp only at hcomp
    split at hcomp
    · cases hcomp
    rename_i wire hwire
    cases hcomp
    refine ⟨_, _, rfl, rfl, ?_, fun q hq => isResponse_of (produceResponse_dest hq)⟩
    rw [marshalTxn_ok hwire]
    exact frame
  · cases h
    cases noFault
  · rename_i e he
    cases h
    have idx : txn.currentStepIdx = c.txn.currentStepIdx := by rw [gen.grown]
    obtain ⟨e', unmarshalled⟩ : ∃ e, marshalTxn c.txn = .error e := by
      unfold produceComplete at he
      dsimp only at he
      rw [same.firstForwardStep] at he
      cases hm : marshalTxn c.txn with
      | error e => exact ⟨e, rfl⟩
      | ok wire => simp [hm] at he
    refine ⟨_, _, rfl, ?_⟩
    rw [idx, error_unpublished same unmarshalled]
    refine shows_nothing fun sure => ?_
    unfold marshalTxn at unmarshalled
    rw [if_pos (marshals sure)] at unmarshalled
    cases unmarshalled

/-- Before the last step the transaction is published once, on its next step or with an error. -/
theorem produceNextStep_next_shows {next : Step} {tail : List Step} (valid : traceParentIsValid traceParent = true)
    (stands : txn.At done cur (next :: tail)) (unset : ∀ s ∈ next :: tail, s.result = none)
    (clean : certain → LogsCleanly env (nextStepAsked env pb store ⟨txn, traceParent⟩ txn.currentStepIdx cur cmpdOffset) ∧
      Sendable txn done (next :: tail) ∧ cur.validUtf8 = true)
    (h : (pubs, fault) = produceNextStep env pb store ⟨txn, traceParent⟩ txn.currentStepIdx cur cmpdOffset) :
    Shows certain txn.id txn.uponError pubs := by
  obtain ⟨txn', hadv, rfl, hat⟩ := stands.advanceStepIdx_cons
  have onNext := hat.withSteps (nextStepOf cur next cmpdOffset) tail
  unfold produceNextStep at h
  unfold nextStepAsked at clean
  simp only [hadv, hat.currentStep, hat.setStep_eq] at h clean
  split at h
  · rename_i p hp
    cases h
    obtain ⟨step, -, publishes⟩ := produceCurrentStep_ok hp
    exact publishes.oneOf.shows
  · rename_i f hp
    exact absurd hp (produceCurrentStep_panic valid onNext.currentStep)
  · rename_i e hp
    cases h
    rw [hp] at clean
    refine produceApecsTxnError_shows ⟨_, traceParent⟩ onNext fun sure => ?_
    obtain ⟨logs, sendable, here⟩ := clean sure
    refine ⟨⟨logs.right, ?_⟩, ?_, ?_, sendable.noReverse⟩
    · intro r hr
      rw [nextStepOf_result, unset next List.mem_cons_self] at hr
      cases hr
    · intro s hs
      rcases List.mem_append.1 hs with hs | hs
      · exact sendable.behind s hs
      · rw [List.mem_singleton.1 hs]
        exact here
    · exact fun s hs => sendable.ahead s (List.mem_cons_of_mem _ hs)

/-- A cache miss is followed by one message. -/
theorem advanceMiss_shows {σ : Type} {s : σ} (stands : txn.At done cur rest) (process : cur.system = .process)
    (pending : cur.result = none)
    (clean : certain → LogsCleanly env (advanceMiss env s ⟨txn, traceParent⟩ cur cmpdOffset).asked ∧ Sendable txn done rest)
    (noFault : (advanceMiss env s ⟨txn, traceParent⟩ cur cmpdOffset).fault = none) :
    Shows certain txn.id txn.uponError (advanceMiss env s ⟨txn, traceParent⟩ cur cmpdOffset).published := by
  have injected := stands.miss cur cmpdOffset
  have sendable : certain → Sendable
      { txn with forwardSteps := done ++ missSteps cur rest cmpdOffset } done (missAhead cur rest) := by
    intro sure
    refine ⟨(clean sure).2.behind, fun s hs => ?_, (clean sure).2.noReverse⟩
    rcases mem_missAhead hs with rfl | hs
    · exact pending_utf8 pending
    · exact (clean sure).2.ahead s hs
  have logs : certain → LogsCleanly env (advanceMiss env s ⟨txn, traceParent⟩ cur cmpdOffset).asked := fun sure =>
    (clean sure).1
  clear clean
  unfold advanceMiss at noFault logs ⊢
  simp only [injectRead_eq stands process] at noFault logs ⊢
  split
  · rename_i p hp
    obtain ⟨step, -, publishes⟩ := produceCurrentStep_ok hp
    exact publishes.oneOf.shows
  · rename_i f hp
    rw [hp] at noFault
    cases noFault
  · rename_i e hp
    rw [hp] at noFault logs
    dsimp only at noFault logs ⊢
    split
    · rename_i reported hreported
      rw [hreported] at logs
      exact produceErrorDefault_shows injected (by rfl) (fun sure => ⟨(logs sure).right, sendable sure⟩) hreported
    · rename_i f hf
      rw [hf] at noFault
      cases noFault

variable {σ : Type} {instanceStore : σ → InstanceStore} {handleCommand : HandleCommand σ} {s : σ} {storageTarget : String}
  {tp : TopicParts}

theorem advanceResult_call {rtxn : RtApecsTxn} {step : Step} {call : Call} {rslt : Option StepResult} {addSteps : List Step} :
    (advanceResult env pb instanceStore s rtxn tp step call rslt addSteps cmpdOffset).call = some (call, rslt) := by
  unfold advanceResult
  dsimp only
  repeat' split
  all_goals rfl

/-- A step that has its key and leads to no call is followed by one message. -/
theorem advanceKeyed_uncalled_shows {key : String} (stands : txn.At done cur rest) (pending : cur.result = none)
    (clean : certain → LogsCleanly env (advanceKeyed env pb instanceStore handleCommand s storageTarget ⟨txn, traceParent⟩
      tp { cur with key := key } cmpdOffset).asked ∧ Sendable txn done rest)
    (uncalled : (advanceKeyed env pb instanceStore handleCommand s storageTarget ⟨txn, traceParent⟩ tp
      { cur with key := key } cmpdOffset).call = none)
    (noFault : (advanceKeyed env pb instanceStore handleCommand s storageTarget ⟨txn, traceParent⟩ tp
      { cur with key := key } cmpdOffset).fault = none) :
    Shows certain txn.id txn.uponError (advanceKeyed env pb instanceStore handleCommand s storageTarget ⟨txn, traceParent⟩ tp
      { cur with key := key } cmpdOffset).published := by
  have keyed := stands.withSteps (cur.keyed key cmpdOffset) rest
  have sendable : certain → Sendable
      { txn with forwardSteps := done ++ cur.keyed key cmpdOffset :: rest } done rest :=
    fun sure => ⟨(clean sure).2.behind, (clean sure).2.ahead, (clean sure).2.noReverse⟩
  have reported : ∀ {code : Code} {msg : String}, (certain → LogsCleanly env [apecsTxnErrorAsked env
        ⟨{ txn with forwardSteps := done ++ cur.keyed key cmpdOffset :: rest }, traceParent⟩
        txn.currentStepIdx (cur.keyed key cmpdOffset) code true msg]) → Shows certain txn.id txn.uponError
      (produceApecsTxnError env ⟨{ txn with forwardSteps := done ++ cur.keyed key cmpdOffset :: rest }, traceParent⟩
        txn.currentStepIdx (cur.keyed key cmpdOffset) code true msg) := by
    intro code msg logs
    refine produceApecsTxnError_shows
      ⟨{ txn with forwardSteps := done ++ cur.keyed key cmpdOffset :: rest }, traceParent⟩ keyed fun sure => ⟨⟨logs sure, ?_⟩, sendable sure⟩
    simp [pending]
  have looks : (cur.system = .process && !cur.isKeylessStep && !cur.isInstanceStoreStep) = cur.looksUp := rfl
  have given : (if cur.looksUp then (instanceStore s).getInstance key else none) =
      instanceFor (instanceStore s) cur key := rfl
  have logs : certain → LogsCleanly env (advanceKeyed env pb instanceStore handleCommand s storageTarget ⟨txn, traceParent⟩
      tp { cur with key := key } cmpdOffset).asked := fun sure => (clean sure).1
  clear clean
  unfold advanceKeyed at uncalled noFault logs ⊢
  simp only [step_keyed cur key cmpdOffset, stands.setStep_eq, keyed_system, keyed_isKeylessStep, keyed_isInstanceStoreStep,
    keyed_key, looks, given] at uncalled noFault logs ⊢
  split
  · rename_i miss
    rw [if_pos miss] at noFault logs
    have process : (cur.keyed key cmpdOffset).system = .process := by
      rw [Bool.and_eq_true] at miss
      rw [keyed_system]
      exact looksUp_process miss.1
    have missed := advanceMiss_shows keyed process (by simpa using pending) (fun sure => ⟨logs sure, sendable sure⟩) noFault
    exact missed
  rename_i hit
  rw [if_neg hit] at uncalled logs
  split
  · rename_i cached
    rw [if_pos cached] at logs
    exact reported logs
  rename_i fresh
  rw [if_neg fresh] at uncalled logs
  cases hoffset : (cur.keyed key cmpdOffset).cmpdOffset with
  | none =>
    rw [hoffset] at logs
    exact reported logs
  | some offset =>
    simp only [hoffset, advanceResult_call] at uncalled
    cases uncalled

/-- A message that leads to no call is followed by one message. -/
theorem advance_uncalled_shows (stands : txn.At done cur rest) (pending : cur.result = none)
    (clean : certain → LogsCleanly env (advanceApecsTxn env pb instanceStore handleCommand s storageTarget
      ⟨txn, traceParent⟩ tp cmpdOffset).asked ∧ Sendable txn done rest)
    (uncalled : (advanceApecsTxn env pb instanceStore handleCommand s storageTarget ⟨txn, traceParent⟩ tp cmpdOffset).call = none)
    (noFault : (advanceApecsTxn env pb instanceStore handleCommand s storageTarget ⟨txn, traceParent⟩ tp cmpdOffset).fault = none) :
    Shows certain txn.id txn.uponError
      (advanceApecsTxn env pb instanceStore handleCommand s storageTarget ⟨txn, traceParent⟩ tp cmpdOffset).published := by
  by_cases keyed : cur.concern = tp.concern ∧ cur.system = tp.system ∧ ∃ key, stepKey txn cur = .ok (some key)
  · obtain ⟨concern, system, key, hkey⟩ := keyed
    rw [advance_keyed stands.currentStep ⟨pending, concern, system, hkey⟩] at clean uncalled noFault ⊢
    exact advanceKeyed_uncalled_shows stands pending clean uncalled noFault
  have reported : ∀ {code : Code} {msg : String}, (certain → LogsCleanly env
        [apecsTxnErrorAsked env ⟨txn, traceParent⟩ txn.currentStepIdx cur code true msg] ∧ Sendable txn done rest) →
      Shows certain txn.id txn.uponError
        (produceApecsTxnError env ⟨txn, traceParent⟩ txn.currentStepIdx cur code true msg) := by
    intro code msg clean
    refine produceApecsTxnError_shows ⟨txn, traceParent⟩ stands fun sure => ⟨⟨(clean sure).1, ?_⟩, (clean sure).2⟩
    simp [pending]
  clear uncalled noFault
  unfold advanceApecsTxn at clean ⊢
  simp only [stands.currentStep, pending] at clean ⊢
  split
  · rename_i foreign
    rw [if_pos foreign] at clean
    exact reported clean
  rename_i concern
  rw [if_neg concern] at clean
  split
  · rename_i foreign
    rw [if_pos foreign] at clean
    exact reported clean
  rename_i system
  rw [if_neg system] at clean
  rcases stepKey_cases stands with hkey | unkeyed
  · exact absurd ⟨by simpa using concern, by simpa using system, hkey⟩ keyed
  · rw [unkeyed] at clean ⊢
    exact reported clean

end

/-! ## In the system -/

/-- All the texts of the steps behind can be sent. -/
def BehindClean (_id : String) (done : List Step) (_cur : Step) (_ahead : List Step) : Prop :=
  ∀ s ∈ done, s.validUtf8 = true

/-- The texts that a step of the system logs are cut between characters: those in the results of commands,
and those of errors. -/
def Deployment.LogsCleanly (d : Deployment M) (net : Net M) : Action M → Prop
  | .submit .. => True
  | .consume tp env logic => ∀ p rest, net.take tp = some (p, rest) →
    (∀ call r, (d.outcome net tp env logic p).call = some (call, some r) → r.Clean) ∧
      Rocketcycle.LogsCleanly env (d.outcome net tp env logic p).asked

/-- The results in what is recorded of a call. -/
instance (call : Option (Call × Option StepResult)) :
    Decidable (∀ c r, call = some (c, some r) → r.Clean) :=
  decidable_of_iff (call.all fun c => c.2.all fun r => r.logEvents.all LogEvent.validUtf8) (by
    rcases call with _ | ⟨c, _ | r⟩ <;> simp [StepResult.Clean])

instance (d : Deployment M) (net : Net M) : (a : Action M) → Decidable (d.LogsCleanly net a)
  | .submit .. => inferInstanceAs (Decidable True)
  | .consume tp env logic =>
    match h : net.take tp with
    | none => isTrue (by simp [Deployment.LogsCleanly, h])
    | some (p, rest) =>
      decidable_of_iff ((∀ call r, (d.outcome net tp env logic p).call = some (call, some r) → r.Clean) ∧
        Rocketcycle.LogsCleanly env (d.outcome net tp env logic p).asked) (by
          simp only [Deployment.LogsCleanly, h, Option.some.injEq, Prod.mk.injEq, and_imp]
          exact ⟨fun clean _ _ same _ => same ▸ clean, fun clean => clean p rest rfl rfl⟩)

section
variable {d : Deployment M} {net net' : Net M} {tp : TopicPartition} {env : Env} {logic : LogicHandler M} {p : Publication}
  {done ahead : List Step} {cur : Step} {next : TopicPartition → Nat} {certain : Prop}

theorem doneStep_validUtf8 {r : StepResult} (clean : r.Clean) : (d.doneStep net tp cur r).validUtf8 = true := by
  unfold Step.validUtf8
  rw [doneStep_result]
  exact clean

/-- The texts behind stay clean as long as what is logged is. -/
theorem Standing.behindClean_step (h : Standing d BehindClean net) {a : Action M} (clean : d.LogsCleanly net a)
    (hs : d.step net a = some net') : Standing d BehindClean net' := by
  cases a with
  | submit => exact h.submit hs fun _ => by simp [BehindClean]
  | consume tp env logic =>
    obtain ⟨p, before, after, done, cur, ahead, consumed⟩ := consume_fate h.sound hs
    refine h.consume consumed fun behind arrival => ?_
    have wired : ∀ {steps : List Step}, (∀ s ∈ steps, s.validUtf8 = true) → ∀ s ∈ steps.map wireStep, s.validUtf8 = true := by
      intro steps valid s hs
      obtain ⟨s', hs', rfl⟩ := List.mem_map.1 hs
      rw [wireStep_validUtf8]
      exact valid s' hs'
    cases arrival with
    | read => exact wired behind
    | next q call r adds nextStep tail handled =>
      refine wired fun s hs => ?_
      rcases List.mem_append.1 hs with hs | hs
      · exact behind s hs
      · rw [List.mem_singleton.1 hs]
        exact doneStep_validUtf8 ((clean p _ consumed.taken).1 call r handled.recorded)
    | child => simp [BehindClean]

/-- What a consumer publishes: the generated transactions, and one message of the transaction itself. -/
theorem Sent.outcome_shows (sent : Sent d next (tp, p) done cur ahead)
    (clean : certain → (∀ call r, (d.outcome net tp env logic p).call = some (call, some r) → r.Clean) ∧
      LogsCleanly env (d.outcome net tp env logic p).asked ∧ ∀ s ∈ done, s.validUtf8 = true)
    (noFault : (d.outcome net tp env logic p).fault = none) :
    ∃ steps own, (d.outcome net tp env logic p).published = childPubs env p.traceParent p.txn.id 0 steps ++ own ∧
      Shows certain p.txn.id p.txn.uponError own := by
  have stands := sent.logged.stands
  have pending := sent.logged.pending cur List.mem_cons_self
  have aheadPending : ∀ s ∈ ahead, s.result = none := fun s hs => sent.logged.pending s (List.mem_cons_of_mem _ hs)
  have sendable : certain → Sendable p.txn done ahead := fun sure =>
    ⟨(clean sure).2.2, fun s hs => pending_utf8 (aheadPending s hs), sent.noReverse⟩
  have uncalled : (d.outcome net tp env logic p).call = none →
      Shows certain p.txn.id p.txn.uponError (d.outcome net tp env logic p).published := fun none =>
    advance_uncalled_shows stands pending (fun sure => ⟨(clean sure).2.1, sendable sure⟩) none noFault
  cases advance_cases env d.cc.pb Platform.instanceStore (handleCommand d.cc env logic) (Deployment.platform net tp)
    (d.target tp.system).name ⟨p.txn, p.traceParent⟩ (d.topicParts tp) (d.offset net tp) sent.valid.1 stands pending with
  | rejected state none => exact ⟨[], _, rfl, uncalled none⟩
  | missed key q concern system keyed looksUp missing state none => exact ⟨[], _, rfl, uncalled none⟩
  | failed key call rslt adds concern system keyed ran notOk published =>
    obtain ⟨code, log, msg, reported, asked, -⟩ := published
    refine ⟨[], _, reported, ?_⟩
    refine produceApecsTxnError_shows
      ⟨{ p.txn with forwardSteps := done ++ cur.keyed key (d.offset net tp) :: ahead }, p.traceParent⟩
      (stands.withSteps _ _) fun sure => ⟨⟨?_, ?_⟩, ?_⟩
    · have asks : (d.outcome net tp env logic p).asked = _ := asked
      have logs := (clean sure).2.1
      rw [asks] at logs
      exact logs
    · rintro r rfl
      exact (clean sure).1 call r ran.recorded
    · exact ⟨(sendable sure).behind, (sendable sure).ahead, sent.noReverse⟩
  | succeeded key call r adds concern system keyed ran isOk code hnext asked =>
    have hk := sent.key keyed
    have handled := handled_of_ran sent hk ran
    obtain ⟨rfl, -⟩ := hk
    have stands' := stands.withSteps (d.doneStep net tp cur r) (adds ++ ahead)
    have unset : ∀ s ∈ adds ++ ahead, s.result = none := by
      intro s hs
      rcases List.mem_append.1 hs with hs | hs
      · exact (commandEffect_adds isOk handled.effect).pending s hs
      · exact aheadPending s hs
    have valid : certain → (d.doneStep net tp cur r).validUtf8 = true := fun sure =>
      doneStep_validUtf8 ((clean sure).1 call r ran.recorded)
    have logs : certain → LogsCleanly env (d.outcome net tp env logic p).asked := fun sure => (clean sure).2.1
    cases follows : adds ++ ahead with
    | nil =>
      rw [follows] at stands' hnext
      have last := produceNextStep_last_shows stands'
        (fun sure => ⟨⟨(clean sure).2.2, by simp, sent.noReverse⟩, valid sure⟩) hnext noFault
      exact last
    | cons nextStep tail =>
      have asks : (d.outcome net tp env logic p).asked = nextStepAsked env d.cc.pb
          (d.outcome net tp env logic p).state.instanceStore
          ⟨{ p.txn with forwardSteps := done ++ d.doneStep net tp cur r :: (adds ++ ahead) }, p.traceParent⟩
          p.txn.currentStepIdx (d.doneStep net tp cur r) (d.offset net tp) := asked
      rw [follows] at stands' hnext unset asks
      rw [asks] at logs
      have onNext := produceNextStep_next_shows sent.valid.1 stands' unset
        (fun sure => ⟨logs sure, ⟨(clean sure).2.2, fun s hs => pending_utf8 (unset s hs), sent.noReverse⟩, valid sure⟩) hnext
      exact ⟨[], _, rfl, onNext⟩

end

end Rocketcycle
