import Rocketcycle.Apecs.TxnLog

/-!
# One outcome

A user transaction with its messages, each delivered once: at most one of them reports how it
ended, and what `ApecsTxnResult` tells the client agrees with the topic that one is on. Handlers
are arbitrary; a step they insert must not carry the result of a success already.
-/

namespace Rocketcycle

open Command

/-- A message on a `COMPLETE` or `ERROR` topic. -/
def Publication.isOutcome (p : Publication) : Bool := p.isComplete || p.isError

def Publication.isResponse (p : Publication) : Bool :=
  match p.dest with
  | .response _ => true
  | _ => false

/-- A message on the topic of a system. -/
def Publication.isStep (p : Publication) : Bool := !p.isOutcome && !p.isResponse

/-- What belongs to the transaction of a message rather than to one generated from it. -/
def ownOf (pubs : List Publication) : List Publication := pubs.filter fun q => !q.txn.isGenerated

/-- Handlers are free but for the steps they insert. -/
def InsertsOnly {σ : Type} (ok : Step → Prop) (handleCommand : HandleCommand σ) : Prop :=
  ∀ call s, ∀ add ∈ (handleCommand call s).1.2, ok add

/-- A run of one user transaction in which every message is delivered once, or cancelled instead: its
messages that have not been delivered, and everything published for it so far. Trace ids are never
empty, and the steps that handlers insert are all `ok`. -/
inductive TxnRun (ok : Step → Prop) (traceParent : String) (txn : Txn) (respTarget : Option TopicTarget) :
    List Publication → List Publication → Prop
  | submit {env : Env} {p : Publication} (h : executeTxnAsync env traceParent (some txn) respTarget = .ok p) :
      TxnRun ok traceParent txn respTarget [p] [p]
  | deliver {reading : Reading} {before after log : List Publication} {p : Publication}
      (run : TxnRun ok traceParent txn respTarget (before ++ p :: after) log)
      (inserts : InsertsOnly ok reading.handleCommand) (ids : ∀ n, reading.env.traceId n ≠ "") :
      TxnRun ok traceParent txn respTarget
        (before ++ after ++ (ownOf (reading.outcome p).published).filter Publication.isStep)
        (log ++ ownOf (reading.outcome p).published)
  | cancel {env : Env} {before after log : List Publication} {p : Publication}
      (run : TxnRun ok traceParent txn respTarget (before ++ p :: after) log) :
      TxnRun ok traceParent txn respTarget (before ++ after)
        (log ++ ownOf (cancelApecsTxn env ⟨p.txn, p.traceParent⟩).1)

/-! ## Messages of the transaction itself -/

theorem isStep_iff {q : Publication} : q.isStep = true ↔ q.dest.IsStep := by
  unfold Publication.isStep Publication.isOutcome Publication.isComplete Publication.isError
    Publication.isResponse Dest.IsStep
  cases q.dest with
  | response target => simp
  | topic concern name => cases name <;> simp

/-- The step has not succeeded, whether or not it has a result. -/
def Step.Unsuccessful (s : Step) : Prop := ∀ r, s.result = some r → r.code ≠ .ok

/-- The current step is the last one, and succeeded. -/
def ApecsTxn.Succeeds (txn : ApecsTxn) : Prop :=
  ∃ done cur r, txn.At done cur [] ∧ cur.result = some r ∧ r.code = .ok

/-- How a transaction ends: with no message at all, or with one on an `ERROR` or `COMPLETE` topic that
the responses repeat. -/
inductive Ending : List Publication → Prop
  | nothing : Ending []
  | outcome (o : Publication) (responses : List Publication) (isOutcome : o.isOutcome = true)
      (told : if o.isComplete then o.txn.Succeeds else o.txn.Stuck)
      (same : ∀ q ∈ responses, q.isResponse = true ∧ q.txn = o.txn) : Ending (o :: responses)

/-- What the run maintains of the message in flight. -/
structure Underway (txn : ApecsTxn) (done : List Step) (cur : Step) (rest : List Step) : Prop where
  stands : txn.At done cur rest
  ahead : ∀ s ∈ cur :: rest, s.Unsuccessful
  own : txn.isGenerated = false

def IsUnderway (p : Publication) : Prop :=
  traceParentIsValid p.traceParent = true ∧ ∃ done cur rest, Underway p.txn done cur rest

theorem ownOf_append (pubs pubs' : List Publication) : ownOf (pubs ++ pubs') = ownOf pubs ++ ownOf pubs' :=
  List.filter_append ..

theorem ownOf_generated {pubs : List Publication} (h : ∀ q ∈ pubs, q.txn.isGenerated = true) : ownOf pubs = [] := by
  unfold ownOf
  rw [List.filter_eq_nil_iff]
  intro q hq
  simp [h q hq]

theorem ownOf_own {pubs : List Publication} (h : ∀ q ∈ pubs, q.txn.isGenerated = false) : ownOf pubs = pubs := by
  unfold ownOf
  rw [List.filter_eq_self]
  intro q hq
  simp [h q hq]

theorem isResponse_of {q : Publication} (h : ∃ t, q.dest = .response t) : q.isResponse = true := by
  obtain ⟨t, h⟩ := h
  simp [Publication.isResponse, h]

theorem response_not_outcome {q : Publication} (h : q.isResponse = true) : ¬q.isOutcome = true := by
  revert h
  unfold Publication.isResponse Publication.isOutcome Publication.isComplete Publication.isError
  cases q.dest with
  | response target => simp
  | topic concern name => simp

/-- A report of an error ends the transaction. -/
theorem Reports.ending {assocTxns : List AssocTxn} {pubs : List Publication} (h : Reports assocTxns pubs)
    (own : (assocTxns.any fun a => a.type = .parent) = false) : Ending (ownOf pubs) := by
  cases h with
  | nothing => exact .nothing
  | error concern p responses dest assoc stuck same =>
    have ownP : p.txn.isGenerated = false := by
      unfold ApecsTxn.isGenerated
      rw [assoc]
      exact own
    have all : ∀ q ∈ p :: responses, q.txn.isGenerated = false := by
      intro q hq
      rcases List.mem_cons.1 hq with rfl | hq
      · exact ownP
      · rw [(same q hq).2]
        exact ownP
    rw [ownOf_own all]
    refine .outcome p responses ?_ ?_ fun q hq => ⟨isResponse_of (same q hq).1, (same q hq).2⟩
    · simp [Publication.isOutcome, Publication.isError, dest]
    · simpa [Publication.isComplete, dest] using stuck

/-! ## Completion -/

section
variable {env : Env} {traceParent : String} {pb : RelatedCodecs} {store : InstanceStore} {txn : ApecsTxn}

theorem Generates.validSystem {steps : List Step} {child : Step} (h : Generates pb store steps child) :
    child.ValidSystem := by
  cases h <;> exact .inr rfl

/-- Generated transactions are all that the completion loops publish. -/
theorem produceStorage_generated (valid : traceParentIsValid traceParent = true) (ids : ∀ n, env.traceId n ≠ "") :
    CompletingAll (fun q => q.txn.isGenerated = true) (produceStorage env pb store ⟨txn, traceParent⟩) := by
  apply produceStorage_all
  intro step generates
  constructor
  · intro id parent q publishes
    rw [publishes.sent]
    rfl
  · intro n parent e failed
    obtain ⟨q, published⟩ := child_published env parent valid (ids n) generates.validSystem generates.pending
    rw [published] at failed
    cases failed

/-! The associations that the loops add are never the one to a parent. -/

theorem executeChild_isGenerated {assoc : String → AssocTxn} (own : ∀ id, (assoc id).type ≠ .parent) {errStep step : Step}
    {put : ApecsTxn → Step → ApecsTxn} {failure : String} {c c' : Completion}
    (h : executeChild env traceParent assoc errStep put failure c step = .ok c') :
    c'.txn.isGenerated = c.txn.isGenerated := by
  unfold executeChild at h
  dsimp only at h
  split at h
  · cases h
    simp [ApecsTxn.isGenerated, own]
  · cases h
  · cases h

theorem produceSecondaries_isGenerated {steps : List Step} {idx : Nat} {c c' : Completion}
    (h : produceSecondaries env traceParent idx steps c = .ok c') : c'.txn.isGenerated = c.txn.isGenerated := by
  induction steps generalizing idx c with
  | nil =>
    cases h
    rfl
  | cons step rest ih =>
    unfold produceSecondaries at h
    split at h
    · cases h
    rename_i c1 h1
    rw [ih h]
    unfold produceSecondary at h1
    split at h1
    · split at h1
      · cases h1
      · exact executeChild_isGenerated (by simp) h1
    · cases h1
      rfl

theorem produceUpdates_isGenerated {steps : List Step} {c c' : Completion}
    (h : produceUpdates env traceParent steps c = .ok c') : c'.txn.isGenerated = c.txn.isGenerated := by
  induction steps generalizing c with
  | nil =>
    cases h
    rfl
  | cons step rest ih =>
    unfold produceUpdates at h
    split at h
    · cases h
    rename_i c1 h1
    rw [ih h]
    unfold produceUpdate at h1
    dsimp only at h1
    split at h1
    · cases h1
    rename_i c2 h2
    rw [executeChild_isGenerated (by simp) h1, executeChild_isGenerated (by simp) h2]

theorem produceStorage_isGenerated {c : Completion} (h : produceStorage env pb store ⟨txn, traceParent⟩ = .ok c) :
    c.txn.isGenerated = txn.isGenerated := by
  unfold produceStorage at h
  dsimp only at h
  split at h
  · split at h
    · cases h
    rename_i c1 h1
    split at h
    · cases h
    rw [produceUpdates_isGenerated h, produceSecondaries_isGenerated h1]
  · cases h
    rfl

theorem marshalTxn_valid {out : ApecsTxn} (h : marshalTxn txn = .ok out) :
    (txn.forwardSteps ++ txn.reverseSteps).all Step.validUtf8 = true := by
  unfold marshalTxn at h
  split at h
  · assumption
  · cases h

/-- Logging on a step does not make its texts valid. -/
theorem validUtf8_of_logged {cur : Step} {r : StepResult}
    (longer : ∀ r', cur.result = some r' → ∃ logs, r.logEvents = r'.logEvents ++ logs)
    (h : Step.validUtf8 { cur with result := some r } = true) : cur.validUtf8 = true := by
  cases hr : cur.result with
  | none => exact pending_utf8 hr
  | some r' =>
    obtain ⟨logs, hlogs⟩ := longer r' hr
    unfold Step.validUtf8 at h ⊢
    rw [hr]
    simp only [hlogs, List.all_append, Bool.and_eq_true] at h
    exact h.1

/-- A transaction that cannot be marshalled cannot be reported as failed either. -/
theorem error_unpublished {done rest : List Step} {cur : Step} {code : Code} {log : Bool} {msg : String}
    {e : GoError} (at' : txn.At done cur rest) (h : marshalTxn txn = .error e) :
    produceApecsTxnError env ⟨txn, traceParent⟩ txn.currentStepIdx cur code log msg = [] := by
  unfold produceApecsTxnError produceError
  dsimp only
  rw [at'.setStep_eq]
  split
  · rfl
  · rename_i wire hwire
    have valid := marshalTxn_valid hwire
    simp only [List.all_append, List.all_cons, Bool.and_eq_true] at valid
    have current : cur.validUtf8 = true := by
      apply validUtf8_of_logged _ valid.1.2.1
      intro r' hr'
      rw [hr', Option.getD_some]
      split
      · exact ⟨[_], rfl⟩
      · exact ⟨[], by simp⟩
    have all : (txn.forwardSteps ++ txn.reverseSteps).all Step.validUtf8 = true := by
      rw [at'.steps]
      simp only [List.all_append, List.all_cons, Bool.and_eq_true]
      exact ⟨⟨valid.1.1, current, valid.1.2.2⟩, valid.2⟩
    unfold marshalTxn at h
    rw [if_pos all] at h
    cases h

/-- The completed message and its responses all hold the transaction. -/
theorem produceComplete_ending {done : List Step} {cur : Step} {r : StepResult} {pubs : List Publication}
    (at' : txn.At done cur []) (result : cur.result = some r) (isOk : r.code = .ok)
    (h : produceComplete ⟨txn, traceParent⟩ = .ok pubs) : Ending pubs ∧ ∀ q ∈ pubs, q.txn = wireTxn txn := by
  unfold produceComplete at h
  split at h
  · cases h
  split at h
  · cases h
  rename_i wire hwire
  cases h
  have same := marshalTxn_ok hwire
  constructor
  · refine .outcome _ _ rfl ?_ fun q hq => ⟨isResponse_of (produceResponse_dest hq), produceResponse_txn hq⟩
    show wire.Succeeds
    rw [same]
    exact ⟨_, _, wireResult r, at'.wire, by simp [result], isOk⟩
  · intro q hq
    rcases List.mem_cons.1 hq with rfl | hq
    · exact same
    · rw [produceResponse_txn hq, same]

/-- After the last step the transaction ends, whether it completes or the process does not get there. -/
theorem last_step_ending {done : List Step} {cur : Step} {r : StepResult} {cmpdOffset : CompoundOffset}
    {pubs : List Publication} {fault : Option Fault} (valid : traceParentIsValid traceParent = true)
    (ids : ∀ n, env.traceId n ≠ "") (at' : txn.At done cur []) (result : cur.result = some r) (isOk : r.code = .ok)
    (own : txn.isGenerated = false)
    (h : (pubs, fault) =
      produceNextStep env pb store ⟨txn, traceParent⟩ txn.currentStepIdx cur cmpdOffset) : Ending (ownOf pubs) := by
  have generated : CompletingAll (fun q => q.txn.isGenerated = true) (produceStorage env pb store ⟨txn, traceParent⟩) :=
    produceStorage_generated valid ids
  unfold produceNextStep at h
  rw [at'.advanceStepIdx_last] at h
  dsimp only at h
  split at h
  · rename_i hs
    cases h
    rw [hs] at generated
    rw [ownOf_generated generated]
    exact .nothing
  rename_i c hc
  rw [hc] at generated
  obtain ⟨m, gen⟩ := produceStorage_ok at'.direction hc
  have stands : c.txn.At done cur [] := by
    rw [gen.grown]
    exact ⟨at'.direction, at'.steps, at'.idx⟩
  have idx : txn.currentStepIdx = c.txn.currentStepIdx := by rw [gen.grown]
  have ownC : c.txn.isGenerated = false := (produceStorage_isGenerated hc).trans own
  split at h
  · rename_i comp hcomp
    cases h
    obtain ⟨ending, all⟩ := produceComplete_ending stands result isOk hcomp
    have keep : ownOf comp = comp := by
      apply ownOf_own
      intro q hq
      rw [all q hq]
      exact ownC
    rw [ownOf_append, ownOf_generated generated, keep]
    exact ending
  · cases h
    rw [ownOf_generated generated]
    exact .nothing
  · rename_i e he
    cases h
    have unmarshalled : ∃ e, marshalTxn c.txn = .error e := by
      unfold produceComplete at he
      dsimp only at he
      rw [stands.firstForwardStep] at he
      cases hm : marshalTxn c.txn with
      | error e => exact ⟨e, rfl⟩
      | ok wire => simp [hm] at he
    obtain ⟨e', he'⟩ := unmarshalled
    rw [ownOf_append, ownOf_generated generated, idx, error_unpublished stands he']
    exact .nothing

end

/-! ## One message -/

section
variable {reading : Reading} {p : Publication}

theorem Publishes.isUnderway {env : Env} {txn : ApecsTxn} {traceParent : String} {step : Step} {q : Publication}
    (publishes : Publishes env txn traceParent step q) {done rest : List Step} {cur : Step}
    (underway : Underway txn done cur rest) : IsUnderway q := by
  refine ⟨publishes.parent ▸ publishes.valid.1, done.map wireStep, wireStep cur, rest.map wireStep, ?_⟩
  rw [publishes.sent]
  refine ⟨underway.stands.wire, ?_, underway.own⟩
  rw [← List.map_cons]
  intro s hs r hr
  obtain ⟨s', hs', rfl⟩ := List.mem_map.1 hs
  rw [wireStep_result, Option.map_eq_some_iff] at hr
  obtain ⟨r', hr', rfl⟩ := hr
  exact underway.ahead s' hs' r' hr'

theorem Publishes.isStep_own {env : Env} {txn : ApecsTxn} {traceParent : String} {step : Step} {q : Publication}
    (publishes : Publishes env txn traceParent step q) (own : txn.isGenerated = false) :
    ownOf [q] = [q] ∧ q.isStep = true := by
  refine ⟨ownOf_own fun q' hq => ?_, isStep_iff.2 publishes.isStep⟩
  rw [List.mem_singleton.1 hq, publishes.sent]
  exact own

theorem unsuccessful_of_pending {s : Step} (h : s.result = none) : s.Unsuccessful := by
  intro r hr
  rw [h] at hr
  cases hr

/-- A message of the transaction is followed by one message, or by the end of the transaction. -/
theorem IsUnderway.deliver (underway : IsUnderway p)
    (inserts : InsertsOnly Step.Unsuccessful reading.handleCommand) (ids : ∀ n, reading.env.traceId n ≠ "") :
    (∃ q, ownOf (reading.outcome p).published = [q] ∧ q.isStep = true ∧ IsUnderway q) ∨
      Ending (ownOf (reading.outcome p).published) := by
  obtain ⟨valid, done, cur, rest, stands, ahead, own⟩ := underway
  cases complete : cur.result with
  | some r =>
    have reports : r.code ≠ .ok → Reports p.txn.assocTxns (reading.outcome p).published :=
      (advance_complete ⟨p.txn, p.traceParent⟩ stands complete).2.2
    exact .inr ((reports (ahead cur List.mem_cons_self r complete)).ending own)
  | none =>
    cases advance_cases reading.env reading.pb reading.instanceStore reading.handleCommand reading.s
      reading.storageTarget ⟨p.txn, p.traceParent⟩ reading.tp reading.cmpdOffset valid stands complete with
    | rejected _ _ _ _ _ _ reports => exact .inr (reports.ending own)
    | failed _ _ _ _ _ _ _ _ _ _ _ reports => exact .inr (reports.ending own)
    | missed key q concern system keyed looksUp missing state call fault published code publishes =>
      left
      obtain ⟨ownQ, isStep⟩ := publishes.isStep_own own
      have published' : (reading.outcome p).published = [q] := published
      have underway : Underway
          { p.txn with
            forwardSteps := done ++ missSteps (cur.keyed key reading.cmpdOffset) rest reading.cmpdOffset }
          done (readStep (cur.keyed key reading.cmpdOffset) reading.cmpdOffset)
          (missAhead (cur.keyed key reading.cmpdOffset) rest) := by
        refine ⟨stands.miss _ _, ?_, own⟩
        intro s hs
        rcases List.mem_cons.1 hs with rfl | hs
        · exact unsuccessful_of_pending rfl
        rcases mem_missAhead hs with rfl | hs
        · exact unsuccessful_of_pending (by rw [keyed_result, complete])
        · exact ahead s (List.mem_cons_of_mem _ hs)
      exact ⟨q, by rw [published', ownQ], isStep, publishes.isUnderway underway⟩
    | succeeded key call r addSteps concern system keyed ran isOk code next =>
      have stands' := stands.withSteps
        ((cur.keyed key reading.cmpdOffset).done r (instanceFor (reading.instanceStore reading.s) cur key))
        (addSteps ++ rest)
      have unsuccessful : ∀ s ∈ addSteps ++ rest, s.Unsuccessful := by
        intro s hs
        rcases List.mem_append.1 hs with hs | hs
        · have := inserts call reading.s s
          rw [ran.handled] at this
          exact this hs
        · exact ahead s (List.mem_cons_of_mem _ hs)
      cases follows : addSteps ++ rest with
      | nil =>
        rw [follows] at stands' next
        exact .inr (last_step_ending valid ids stands' rfl isOk own next)
      | cons nextStep tail =>
        rw [follows] at stands' next unsuccessful
        have notYet : (nextStepOf ((cur.keyed key reading.cmpdOffset).done r
            (instanceFor (reading.instanceStore reading.s) cur key)) nextStep reading.cmpdOffset).Unsuccessful := by
          intro r' hr'
          rw [nextStepOf_result] at hr'
          exact unsuccessful nextStep List.mem_cons_self r' hr'
        have onNext := stands.next ((cur.keyed key reading.cmpdOffset).done r
          (instanceFor (reading.instanceStore reading.s) cur key)) (nextStepOf ((cur.keyed key reading.cmpdOffset).done r
            (instanceFor (reading.instanceStore reading.s) cur key)) nextStep reading.cmpdOffset) tail
        obtain ⟨-, ⟨-, -, msg, errors⟩ | ⟨q, published, publishes⟩⟩ := produceNextStep_next valid stands' next
        · right
          have published : (reading.outcome p).published = _ := errors
          rw [published]
          exact (produceApecsTxnError_reports onNext notYet (by decide : Code.internal ≠ .ok)).ending own
        · left
          obtain ⟨ownQ, isStep⟩ := publishes.isStep_own own
          have published' : (reading.outcome p).published = [q] := published
          refine ⟨q, by rw [published', ownQ], isStep, publishes.isUnderway ⟨onNext, ?_, own⟩⟩
          intro s hs
          rcases List.mem_cons.1 hs with rfl | hs
          · exact notYet
          · exact unsuccessful s (List.mem_cons_of_mem _ hs)

/-- A cancelled transaction ends. -/
theorem IsUnderway.cancel {env : Env} (underway : IsUnderway p) :
    Ending (ownOf (cancelApecsTxn env ⟨p.txn, p.traceParent⟩).1) := by
  obtain ⟨valid, done, cur, rest, stands, ahead, own⟩ := underway
  unfold cancelApecsTxn
  rw [stands.currentStep]
  exact (produceApecsTxnError_reports stands (ahead cur List.mem_cons_self) (by decide : Code.cancelled ≠ .ok)).ending own

end

/-! ## Runs -/

/-- A run of the transaction: one message is in flight and only steps have been published, or none is
and the ending has been published last. -/
inductive OneOutcome : List Publication → List Publication → Prop
  | running (p : Publication) (log : List Publication) (underway : IsUnderway p)
      (steps : ∀ q ∈ log, q.isStep = true) : OneOutcome [p] log
  | ended (log ending : List Publication) (steps : ∀ q ∈ log, q.isStep = true) (ends : Ending ending) :
      OneOutcome [] (log ++ ending)

theorem Ending.noStep {pubs : List Publication} (h : Ending pubs) : pubs.filter Publication.isStep = [] := by
  rw [List.filter_eq_nil_iff]
  cases h with
  | nothing => simp
  | outcome o responses isOutcome told same =>
    intro q hq
    rcases List.mem_cons.1 hq with rfl | hq
    · simp [Publication.isStep, isOutcome]
    · simp [Publication.isStep, (same q hq).1]

theorem submit_isUnderway {env : Env} {traceParent : String} {txn : Txn} {respTarget : Option TopicTarget}
    {p : Publication} (h : executeTxnAsync env traceParent (some txn) respTarget = .ok p) :
    IsUnderway p ∧ p.isStep = true := by
  obtain ⟨steps, rtxn, cur, rest, submitted⟩ := executeTxnAsync_ok h
  have own : rtxn.isGenerated = false := by
    unfold ApecsTxn.isGenerated
    rw [submitted.assocTxns]
    rfl
  refine ⟨submitted.publishes.isUnderway ⟨submitted.logged.stands, ?_, own⟩, isStep_iff.2 submitted.publishes.isStep⟩
  exact fun s hs => unsuccessful_of_pending (submitted.logged.pending s hs)

section
variable {traceParent : String} {txn : Txn} {respTarget : Option TopicTarget} {inFlight log : List Publication}

theorem TxnRun.oneOutcome (run : TxnRun Step.Unsuccessful traceParent txn respTarget inFlight log) :
    OneOutcome inFlight log := by
  -- the message delivered is the only one in flight
  have single : ∀ {before after log : List Publication} {p : Publication}, OneOutcome (before ++ p :: after) log →
      before = [] ∧ after = [] ∧ IsUnderway p ∧ ∀ q ∈ log, q.isStep = true := by
    intro before after log p h
    generalize heq : before ++ p :: after = inFlight at h
    cases h with
    | running p' log underway steps =>
      cases before with
      | nil =>
        cases heq
        exact ⟨rfl, rfl, underway, steps⟩
      | cons b before => simp at heq
    | ended => simp at heq
  induction run with
  | submit h =>
    obtain ⟨underway, isStep⟩ := submit_isUnderway h
    exact .running _ _ underway (by simpa using isStep)
  | deliver run inserts ids ih =>
    obtain ⟨rfl, rfl, underway, steps⟩ := single ih
    rcases underway.deliver inserts ids with ⟨q, own, isStep, underway'⟩ | ending
    · rw [own, List.filter_cons_of_pos isStep]
      refine .running q _ underway' fun q' hq => ?_
      rcases List.mem_append.1 hq with hq | hq
      · exact steps q' hq
      · rw [List.mem_singleton.1 hq]
        exact isStep
    · rw [ending.noStep]
      exact .ended _ _ steps ending
  | cancel run ih =>
    obtain ⟨rfl, rfl, underway, steps⟩ := single ih
    exact .ended _ _ steps underway.cancel

theorem ApecsTxn.Stuck.result {txn : ApecsTxn} {R : Type}
    (decode : String → System → String → Bytes → Except GoError R) (h : txn.Stuck) :
    (apecsTxnResult decode txn).map Prod.fst = some false := by
  obtain ⟨step, current, notOk⟩ := h
  unfold apecsTxnResult
  rw [current]
  cases hr : step.result with
  | none => simp [hr]
  | some r => simp [hr, notOk r hr]

theorem ApecsTxn.Succeeds.result {txn : ApecsTxn} {R : Type}
    (decode : String → System → String → Bytes → Except GoError R) (h : txn.Succeeds) :
    (apecsTxnResult decode txn).map Prod.fst = some true := by
  obtain ⟨done, cur, r, stands, result, isOk⟩ := h
  have last : txn.currentStepIdx = txn.forwardSteps.length - 1 := by
    rw [stands.idx, stands.steps]
    simp
  unfold apecsTxnResult
  rw [stands.currentStep]
  simp [stands.direction, last, result, isOk]

/-- In every run at most one outcome is published, nothing is delivered after it, and what the client
makes of it and of its response is success exactly if it is on a `COMPLETE` topic. -/
theorem one_outcome (run : TxnRun Step.Unsuccessful traceParent txn respTarget inFlight log) :
    (log.filter Publication.isOutcome).length ≤ 1 ∧
    (∀ before o after, log = before ++ o :: after → o.isOutcome = true →
      inFlight = [] ∧ ∀ q ∈ after, q.isStep = false) ∧
    (∀ o ∈ log, o.isOutcome = true →
      ∀ (R : Type) (decode : String → System → String → Bytes → Except GoError R),
        (apecsTxnResult decode o.txn).map Prod.fst = some o.isComplete) ∧
    ∀ q ∈ log, q.isResponse = true → ∃ o ∈ log, o.isOutcome = true ∧ q.txn = o.txn := by
  have silent : ∀ {log : List Publication}, (∀ q ∈ log, q.isStep = true) →
      ∀ q ∈ log, ¬q.isOutcome = true ∧ ¬q.isResponse = true := by
    intro log steps q hq
    simpa [Publication.isStep] using steps q hq
  cases run.oneOutcome with
  | running p log underway steps =>
    refine ⟨by simp [List.filter_eq_nil_iff.2 fun q hq => (silent steps q hq).1], ?_, ?_, ?_⟩
    · rintro before o after rfl isOutcome
      exact absurd isOutcome (silent steps o (by simp)).1
    · exact fun o ho isOutcome => absurd isOutcome (silent steps o ho).1
    · exact fun q hq isResponse => absurd isResponse (silent steps q hq).2
  | ended log ending steps ends =>
    have quiet : log.filter Publication.isOutcome = [] :=
      List.filter_eq_nil_iff.2 fun q hq => (silent steps q hq).1
    cases ends with
    | nothing =>
      rw [List.append_nil]
      refine ⟨by simp [quiet], ?_, ?_, ?_⟩
      · rintro before o after rfl isOutcome
        exact absurd isOutcome (silent steps o (by simp)).1
      · exact fun o ho isOutcome => absurd isOutcome (silent steps o ho).1
      · exact fun q hq isResponse => absurd isResponse (silent steps q hq).2
    | outcome o responses isOutcome told same =>
      have notAgain : ∀ q ∈ responses, ¬q.isOutcome = true := by
        intro q hq
        exact response_not_outcome (same q hq).1
      refine ⟨?_, ?_, ?_, ?_⟩
      · rw [List.filter_append, quiet, List.filter_cons_of_pos isOutcome, List.filter_eq_nil_iff.2 notAgain]
        exact le_refl _
      · intro before o' after heq isOutcome'
        have after_eq : after = responses := by
          rcases List.append_eq_append_iff.1 heq with ⟨front, rfl, hfront⟩ | ⟨back, rfl, hback⟩
          · cases front with
            | nil => exact (List.cons.inj hfront).2.symm
            | cons a front =>
              have mem : o' ∈ responses := by
                rw [(List.cons.inj hfront).2]
                simp
              exact absurd isOutcome' (notAgain o' mem)
          · cases back with
            | nil => exact (List.cons.inj hback).2
            | cons b back =>
              have mem : o' ∈ before ++ b :: back := by
                rw [(List.cons.inj hback).1]
                simp
              exact absurd isOutcome' (silent steps o' mem).1
        refine ⟨rfl, fun q hq => ?_⟩
        rw [after_eq] at hq
        simp [Publication.isStep, (same q hq).1]
      · intro o' ho' isOutcome' R decode
        rcases List.mem_append.1 ho' with ho' | ho'
        · exact absurd isOutcome' (silent steps o' ho').1
        rcases List.mem_cons.1 ho' with rfl | ho'
        · cases complete : o'.isComplete with
          | true =>
            rw [complete, if_pos rfl] at told
            exact told.result decode
          | false =>
            rw [complete, if_neg (by simp)] at told
            exact told.result decode
        · exact absurd isOutcome' (notAgain o' ho')
      · intro q hq isResponse
        refine ⟨o, by simp, isOutcome, ?_⟩
        rcases List.mem_append.1 hq with hq | hq
        · exact absurd isResponse (silent steps q hq).2
        rcases List.mem_cons.1 hq with rfl | hq
        · rfl
        · exact (same q hq).2

end

theorem sample_ids (n : Nat) : Env.sample.traceId n ≠ "" := by
  intro h
  have := congrArg String.length h
  simp [Env.sample, String.length_append] at this

/-- The sample command, delivered on its instance. -/
def sampleDelivered : List Publication :=
  ownOf ((sampleReading (fun _ => []) .process 7).outcome sampleSetPub).published

theorem one_outcome_sampleSet :
    let inFlight := sampleDelivered.filter Publication.isStep
    let log := sampleSetPub :: sampleDelivered
    log.map Publication.isComplete = [false, true] ∧
    (log.filter Publication.isOutcome).length ≤ 1 ∧
    (∀ before o after, log = before ++ o :: after → o.isOutcome = true →
      inFlight = [] ∧ ∀ q ∈ after, q.isStep = false) ∧
    (∀ o ∈ log, o.isOutcome = true →
      ∀ (R : Type) (decode : String → System → String → Bytes → Except GoError R),
        (apecsTxnResult decode o.txn).map Prod.fst = some o.isComplete) ∧
    ∀ q ∈ log, q.isResponse = true → ∃ o ∈ log, o.isOutcome = true ∧ q.txn = o.txn := by
  have inserts : InsertsOnly Step.Unsuccessful (sampleReading (fun _ => []) .process 7).handleCommand := by
    intro call s add h
    cases h
  have run : TxnRun Step.Unsuccessful sampleTraceParent sampleSet none ([] ++ sampleSetPub :: []) [sampleSetPub] :=
    .submit sampleSetPub_submitted
  exact ⟨by decide +kernel, one_outcome (run.deliver inserts sample_ids)⟩

/-- The sample command with a step inserted behind it that has the result of a success already. -/
def sampleSucceededInsert : Step := { sampleInsert .process with result := some { code := .ok } }

def sampleSucceededPub : Publication :=
  { sampleSetPub with
    txn := { sampleSetPub.txn with
             currentStepIdx := 1,
             forwardSteps := sampleSetPub.txn.forwardSteps.map (fun s =>
                 { s with cmpdOffset := some ⟨1, 0, 7⟩, inst := some [1],
                          result := some { code := .ok, inst := some [2] } }) ++ [sampleSucceededInsert] } }

/-- It is reported as failed, as its current step has a result already, and reads as a success. -/
theorem completed_insert_reads_success :
    ∃ inFlight log, TxnRun (fun _ => True) sampleTraceParent sampleSet none inFlight log ∧
      ∃ o ∈ log, o.isError = true ∧
        (apecsTxnResult (fun _ _ _ _ => Except.ok ()) o.txn).map Prod.fst = some true := by
  let first := sampleReading (fun _ => [sampleSucceededInsert]) .process 7
  let second := sampleReading (fun _ => []) .process 8
  have submitted : TxnRun (fun _ => True) sampleTraceParent sampleSet none ([] ++ sampleSetPub :: []) [sampleSetPub] :=
    .submit sampleSetPub_submitted
  have published : ownOf (first.outcome sampleSetPub).published = [sampleSucceededPub] := by
    decide +kernel
  have inserted : TxnRun (fun _ => True) sampleTraceParent sampleSet none ([] ++ sampleSucceededPub :: [])
      ([sampleSetPub] ++ [sampleSucceededPub]) := by
    have delivered := submitted.deliver (fun _ _ _ _ => trivial : InsertsOnly _ first.handleCommand) sample_ids
    rw [published] at delivered
    exact delivered
  have reported := inserted.deliver (fun _ _ _ _ => trivial : InsertsOnly _ second.handleCommand) sample_ids
  have reads : ∃ o ∈ ownOf (second.outcome sampleSucceededPub).published, o.isError = true ∧
      (apecsTxnResult (fun _ _ _ _ => Except.ok ()) o.txn).map Prod.fst = some true := by
    decide +kernel
  obtain ⟨o, mem, isError, success⟩ := reads
  exact ⟨_, _, reported, o, List.mem_append_right _ mem, isError, success⟩

end Rocketcycle
