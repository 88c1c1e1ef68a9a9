import Rocketcycle.Net.Sent
import Rocketcycle.Concern.CrudEffects

/-!
# What becomes of a message

The step of a consumer taken apart once (`consume_fate`): the message it takes stands somewhere,
and is rejected, injects a storage read, fails, goes on to its next step, or completes. Whatever
holds over runs is read off these cases.
-/

namespace Rocketcycle

open Command

variable {M : Type}

section
variable (d : Deployment M) (net : Net M) (tp : TopicPartition) (env : Env) (logic : LogicHandler M)
  (p : Publication) (done : List Step) (cur : Step) (ahead : List Step)

/-- The current step as it runs: on a process topic it takes the offset of its message. -/
def Deployment.ran (d : Deployment M) (net : Net M) (tp : TopicPartition) (cur : Step) : Step :=
  cur.keyed cur.key (d.offset net tp)

def Deployment.platform (net : Net M) (tp : TopicPartition) : Platform M := ⟨net.stores tp, net.ramDbs⟩

/-- The command was called, and had this effect. -/
structure Handled (out : Outcome (Platform M)) (call : Call) (rslt : Option StepResult) (adds : List Step) :
    Prop where
  offset : (d.ran net tp cur).cmpdOffset = some call.args.cmpdOffset
  called : call = callOf (d.target tp.system).name p.txn (d.ran net tp cur)
    (instanceFor (net.stores tp) cur cur.key) call.args.cmpdOffset
  found : cur.looksUp = true → ((net.stores tp).getInstance cur.key).isSome
  key : cur.isKeylessStep = false → cur.key ≠ ""
  handled : handleCommand d.cc env logic call (Deployment.platform net tp) = ((rslt, adds), out.state)
  effect : CommandEffect d.cc env logic (d.target tp.system) call (Deployment.platform net tp) rslt adds out.state
  recorded : out.call = some (call, rslt)

/-- The transaction after its current step has succeeded. -/
def stepped (txn : ApecsTxn) (done : List Step) (step : Step) (rest : List Step) : ApecsTxn :=
  { txn with forwardSteps := done ++ step :: rest }

/-- The transaction on its next step. -/
def advanced (txn : ApecsTxn) (done : List Step) (step next : Step) (rest : List Step) : ApecsTxn :=
  { txn with currentStepIdx := txn.currentStepIdx + 1, forwardSteps := (done ++ [step]) ++ next :: rest }

/-- The current step once it has succeeded with `r`. -/
def Deployment.doneStep (d : Deployment M) (net : Net M) (tp : TopicPartition) (cur : Step) (r : StepResult) : Step :=
  (d.ran net tp cur).done r (instanceFor (net.stores tp) cur cur.key)

inductive Fate (out : Outcome (Platform M)) : Prop
  | rejected (state : out.state = Deployment.platform net tp) (call : out.call = none)
      (errors : ErrorOnly out.published) (notOk : out.code ≠ .ok)
      (keyed : cur.isKeylessStep = false)
  | missed (q : Publication) (looksUp : cur.looksUp = true) (key : cur.key ≠ "")
      (missing : (net.stores tp).getInstance cur.key = none)
      (state : out.state = Deployment.platform net tp) (call : out.call = none) (published : out.published = [q])
      (publishes : Publishes env
        { p.txn with forwardSteps := done ++ missSteps (d.ran net tp cur) ahead (d.offset net tp) }
        p.traceParent (readStep (d.ran net tp cur) (d.offset net tp)) q)
      (isOk : out.code = .ok)
  | failed (call : Call) (rslt : Option StepResult) (adds : List Step)
      (handled : Handled d net tp env logic p cur out call rslt adds) (notOk : ∀ r, rslt = some r → r.code ≠ .ok)
      (errors : ErrorOnly out.published)
      (reported : ReportedAs env ⟨stepped p.txn done (d.ran net tp cur) ahead, p.traceParent⟩ (d.ran net tp cur) rslt out)
  | next (call : Call) (r : StepResult) (adds : List Step) (nextStep : Step) (tail : List Step)
      (handled : Handled d net tp env logic p cur out call (some r) adds) (resultOk : r.code = .ok)
      (isOk : out.code = .ok) (follows : adds ++ ahead = nextStep :: tail)
      (published :
        (ErrorOnly out.published ∧
          (∃ e, produceCurrentStep env
            (advanced p.txn done (d.doneStep net tp cur r)
              (nextStepOf (d.doneStep net tp cur r) nextStep (d.offset net tp)) tail) p.traceParent = .error e) ∧
          ∃ msg, out.published = produceApecsTxnError env
            ⟨advanced p.txn done (d.doneStep net tp cur r)
              (nextStepOf (d.doneStep net tp cur r) nextStep (d.offset net tp)) tail, p.traceParent⟩
            (p.txn.currentStepIdx + 1) (nextStepOf (d.doneStep net tp cur r) nextStep (d.offset net tp))
            .internal true msg) ∨
        ∃ q, out.published = [q] ∧ Publishes env
          (advanced p.txn done (d.doneStep net tp cur r)
            (nextStepOf (d.doneStep net tp cur r) nextStep (d.offset net tp)) tail)
          p.traceParent (nextStepOf (d.doneStep net tp cur r) nextStep (d.offset net tp)) q)
  | completed (call : Call) (r : StepResult) (adds : List Step) (c : Completion) (m : List (String × Step))
      (handled : Handled d net tp env logic p cur out call (some r) adds) (resultOk : r.code = .ok)
      (isOk : out.code = .ok) (last : adds ++ ahead = [])
      (generated : Generated env d.cc.pb out.state.instanceStore
        (stepped p.txn done (d.doneStep net tp cur r) []) p.traceParent c m)
      (published : (∃ first comp, out.published = c.published ++ comp ∧ CompleteOnly c.txn first comp) ∨
        ∃ errs, out.published = c.published ++ errs ∧ ErrorOnly errs)
      (children : ∀ q ∈ out.published, q.dest.IsStep →
        ∃ id parent step, step.result = none ∧ Publishes env (childTxn id parent step) p.traceParent step q)

end

section
variable {d : Deployment M} {net net' : Net M} {tp : TopicPartition} {env : Env} {logic : LogicHandler M}
  {p : Publication} {done ahead : List Step} {cur : Step}

theorem target_found (system : System) :
    d.cc.storageTargets (d.target system).name = some (d.target system) ∧
      (d.target system).type ∈ d.cc.crudHandlers ∧ (d.target system).isPrimary = decide (system = .storage) := by
  unfold Deployment.target
  split
  · rename_i hs
    exact ⟨d.primary_found.1, d.primary_found.2, by simp [hs, d.isPrimary.1]⟩
  · rename_i hs
    exact ⟨d.secondary_found.1, d.secondary_found.2, by simp [hs, d.isPrimary.2]⟩

/-- A step of the instance store is called without an instance. -/
theorem instanceFor_refreshInstance {store : InstanceStore} {key : String} (hc : cur.command = refreshInstance) :
    instanceFor store cur key = none := by
  have : cur.looksUp = false := by
    by_cases hs : cur.system = .process <;> simp [Step.looksUp, Step.isInstanceStoreStep, hs, hc]
  simp [instanceFor, this]

/-- The call of a step that ran. -/
theorem handled_of_ran {next : TopicPartition → Nat} (sent : Sent d next (tp, p) done cur ahead) {key : String}
    {out : Outcome (Platform M)} {call : Call} {rslt : Option StepResult} {adds : List Step}
    (hk : key = cur.key ∧ (cur.isKeylessStep = false → cur.key ≠ ""))
    (h : Ran (handleCommand d.cc env logic) (d.target tp.system).name (net.stores tp) (Deployment.platform net tp)
      p.txn cur key (d.offset net tp) out call rslt adds) :
    Handled d net tp env logic p cur out call rslt adds := by
  obtain ⟨rfl, hkey⟩ := hk
  refine ⟨h.offset, h.called, h.found, hkey, h.handled, ?_, h.recorded⟩
  have fields : call.direction = .forward ∧ call.system = cur.system ∧ call.command = cur.command ∧
      call.storageTarget = (d.target tp.system).name ∧
      call.args.inst = instanceFor (net.stores tp) cur cur.key := by
    rw [h.called]
    exact ⟨sent.logged.stands.direction, by simp [callOf], by simp [callOf], rfl, by simp [callOf]⟩
  obtain ⟨forward, system, command, target, inst⟩ := fields
  apply handleCommand_effect forward _ _ h.handled
  · intro _
    have same : call.system = tp.system := by rw [system, sent.system]
    rw [same, target]
    exact target_found tp.system
  · intro hc
    rw [inst]
    exact instanceFor_refreshInstance (command ▸ hc)

/-- What becomes of a message in flight, as long as its consumer does not crash. -/
theorem outcome_fate {next : TopicPartition → Nat} (sent : Sent d next (tp, p) done cur ahead)
    (noFault : (d.outcome net tp env logic p).fault = none) :
    Fate d net tp env logic p done cur ahead (d.outcome net tp env logic p) := by
  have stands := sent.logged.stands
  cases advance_cases env d.cc.pb Platform.instanceStore (handleCommand d.cc env logic) (Deployment.platform net tp)
    (d.target tp.system).name ⟨p.txn, p.traceParent⟩ (d.topicParts tp) (d.offset net tp) sent.valid.1 stands
    (sent.logged.pending cur List.mem_cons_self) with
  | rejected state call fault errors code keyed =>
    apply Fate.rejected state call errors code.2
    apply keyed sent.concern sent.system
    by_cases process : cur.system = .process
    · simp [keyed_process_offset process]
    · obtain ⟨_, _, offset, -⟩ := sent.curDated process
      simp [keyed_storage_offset process, offset]
  | missed key q concern system keyed looksUp missing state call fault published code publishes =>
    obtain ⟨rfl, hkey⟩ := sent.key keyed
    have notKeyless : cur.isKeylessStep = false := by
      simp only [Step.looksUp, Bool.and_eq_true, Bool.not_eq_true'] at looksUp
      exact looksUp.1.2
    exact .missed q looksUp (hkey notKeyless) missing state call published publishes code
  | failed key call rslt adds concern system keyed ran notOk published fault =>
    have handled := handled_of_ran sent (sent.key keyed) ran
    obtain ⟨rfl, -⟩ := sent.key keyed
    refine .failed call rslt adds handled notOk ?_ published
    obtain ⟨code, log, msg, hpub, -⟩ := published
    have errors : (d.outcome net tp env logic p).published = produceApecsTxnError env
        ⟨stepped p.txn done (d.ran net tp cur) ahead, p.traceParent⟩ p.txn.currentStepIdx
        { d.ran net tp cur with result := rslt } code log msg := hpub
    rw [errors]
    exact produceError_errorOnly
  | succeeded key call r adds concern system keyed ran isOk code hnext =>
    have hk := sent.key keyed
    have handled := handled_of_ran sent hk ran
    obtain ⟨rfl, -⟩ := hk
    have hat := stands.withSteps (d.doneStep net tp cur r) (adds ++ ahead)
    cases heq : adds ++ ahead with
    | cons nextStep tail =>
      rw [heq] at hat hnext
      obtain ⟨-, published⟩ := produceNextStep_next sent.valid.1 hat hnext
      exact .next call r adds nextStep tail handled isOk code heq published
    | nil =>
      rw [heq] at hat hnext
      rcases produceNextStep_last hat hnext with ⟨f, hf, -⟩ | ⟨c, m, -, gen, published⟩
      · have : (d.outcome net tp env logic p).fault = some f := hf
        rw [noFault] at this
        cases this
      · have children : ∀ q ∈ (d.outcome net tp env logic p).published, q.dest.IsStep →
            ∃ id parent step, step.result = none ∧ Publishes env (childTxn id parent step) p.traceParent step q :=
          by
          intro q hq step
          obtain ⟨id, parent, child, generates, publishes⟩ := last_step_child hat hnext hq step
          exact ⟨id, parent, child, generates.pending, publishes⟩
        rcases published with ⟨first, comp, -, hpub, only⟩ | ⟨errs, hpub, only⟩
        · exact .completed call r adds c m handled isOk code heq gen (.inl ⟨first, comp, hpub, only⟩) children
        · exact .completed call r adds c m handled isOk code heq gen (.inr ⟨errs, hpub, only⟩) children

/-- A consumer that ends itself has run nothing to a success. -/
theorem bailsOut_notOk {code : Code} (h : bailsOut p code = true) : code ≠ .ok := by
  rintro rfl
  simp [bailsOut, isBailoutableCode] at h

/-- The state when the deliveries of a message begin. -/
def Net.after (net : Net M) (tp : TopicPartition) (plat : Platform M) (inFlight : List (TopicPartition × Publication)) :
    Net M :=
  { (net.setNext tp (net.next tp + 1)).setStore tp plat.instanceStore with
    inFlight := inFlight, ramDbs := plat.ramDbs }

/-- The state of a consumer that is restarted in front of the same message. -/
def Net.restarted (net : Net M) (tp : TopicPartition) (plat : Platform M) : Net M :=
  { net.setStore tp InstanceStore.new with ramDbs := plat.ramDbs }

/-- A step of a consumer, with the message that it takes. The offsets in the message are below
`next`. -/
structure Taken (d : Deployment M) (next : TopicPartition → Nat) (net : Net M) (tp : TopicPartition) (env : Env)
    (logic : LogicHandler M) (net' : Net M) (p : Publication) (before after : List (TopicPartition × Publication))
    (done : List Step) (cur : Step) (ahead : List Step) : Prop where
  split : net.inFlight = before ++ (tp, p) :: after
  first : ∀ m ∈ before, m.1 ≠ tp
  sent : Sent d next (tp, p) done cur ahead
  fate : Fate d net tp env logic p done cur ahead (d.outcome net tp env logic p)
  taken : net.take tp = some (p, before ++ after)
  delivered :
    (bailsOut p (d.outcome net tp env logic p).code = true ∧
      Delivered d (net.restarted tp (d.outcome net tp env logic p).state)
        (d.outcome net tp env logic p).published net') ∨
    (bailsOut p (d.outcome net tp env logic p).code = false ∧
      Delivered d (net.after tp (d.outcome net tp env logic p).state (before ++ after))
        (d.outcome net tp env logic p).published net')

/-- The same where consumers only move on. -/
abbrev Consumed (d : Deployment M) (net : Net M) (tp : TopicPartition) (env : Env) (logic : LogicHandler M)
    (net' : Net M) (p : Publication) (before after : List (TopicPartition × Publication)) (done : List Step)
    (cur : Step) (ahead : List Step) : Prop :=
  Taken d net.next net tp env logic net' p before after done cur ahead

theorem consume_taken {next : TopicPartition → Nat}
    (sound : ∀ m ∈ net.inFlight, ∃ done cur ahead, Sent d next m done cur ahead)
    (h : d.step net (.consume tp env logic) = some net') :
    ∃ p before after done cur ahead, Taken d next net tp env logic net' p before after done cur ahead := by
  simp only [Deployment.step, Deployment.consume] at h
  split at h
  · cases h
  rename_i p inFlight htake
  obtain ⟨before, after, hsplit, hrest, hfirst⟩ := take_some htake
  obtain ⟨done, cur, ahead, sent⟩ := sound (tp, p) (by rw [hsplit]; simp)
  have fresh : newRtApecsTxn p.txn p.traceParent = some (.ok ⟨p.txn, p.traceParent⟩) := by
    unfold newRtApecsTxn
    simp [sent.valid.1, sent.valid.2, Except.map]
  rw [fresh] at h
  dsimp only at h
  split at h
  · cases h
  rename_i hfault
  have noFault : (d.outcome net tp env logic p).fault = none := by simpa using hfault
  refine ⟨p, before, after, done, cur, ahead, hsplit, hfirst, sent, outcome_fate sent noFault, hrest ▸ htake, ?_⟩
  split at h
  · rename_i hb
    exact .inl ⟨hb, deliverAll_some h⟩
  · rename_i hb
    rw [hrest] at h
    exact .inr ⟨by simpa using hb, deliverAll_some h⟩

theorem consume_fate (sound : Sound d net) (h : d.step net (.consume tp env logic) = some net') :
    ∃ p before after done cur ahead, Consumed d net tp env logic net' p before after done cur ahead :=
  consume_taken sound h

end

end Rocketcycle
