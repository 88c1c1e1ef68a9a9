import Rocketcycle.Net.Standing

/-!
# Updates without a key

`NewApecsTxn` puts a validation in front of an `UPDATE` and gives it no key, and no result before
it has one. So the validation is refused for want of a key in every run, and storage is never
reached.
-/

namespace Rocketcycle

open Command Runs

variable {M : Type}

/-- A step that neither updates nor validates an update. -/
def Step.NoUpdate (s : Step) : Prop := s.command ≠ update ∧ s.command ≠ validateUpdate

/-- An `UPDATE` follows its validation, and that has no key. -/
inductive UpdatePlan : List Step → Prop
  | nil : UpdatePlan []
  | other {s : Step} {rest : List Step} (other : s.NoUpdate) (h : UpdatePlan rest) : UpdatePlan (s :: rest)
  | update {v u : Step} {rest : List Step} (validates : v.command = validateUpdate) (keyless : v.key = "")
      (updates : u.command = Command.update) (h : UpdatePlan rest) : UpdatePlan (v :: u :: rest)

theorem UpdatePlan.append {steps rest : List Step} (hs : ∀ s ∈ steps, s.NoUpdate) (h : UpdatePlan rest) :
    UpdatePlan (steps ++ rest) := by
  induction steps with
  | nil => exact h
  | cons s steps ih =>
    apply UpdatePlan.other (hs s List.mem_cons_self)
    exact ih fun s' hs' => hs s' (List.mem_cons_of_mem _ hs')

theorem UpdatePlan.concat {steps rest : List Step} (hs : UpdatePlan steps) (h : UpdatePlan rest) :
    UpdatePlan (steps ++ rest) := by
  induction hs with
  | nil => exact h
  | other other _ ih => exact .other other ih
  | update validates keyless updates _ ih => exact .update validates keyless updates ih

theorem UpdatePlan.wire {steps : List Step} (h : UpdatePlan steps) : UpdatePlan (steps.map wireStep) := by
  induction h with
  | nil => exact .nil
  | other other _ ih => exact .other other ih
  | update validates keyless updates _ ih => exact .update validates keyless updates ih

theorem UpdatePlan.congr {s s' : Step} {rest : List Step} (h : UpdatePlan (s :: rest)) (command : s'.command = s.command)
    (key : s'.key = s.key) : UpdatePlan (s' :: rest) := by
  cases h with
  | other other h =>
    apply UpdatePlan.other _ h
    rwa [Step.NoUpdate, command]
  | update validates keyless updates h => exact .update (command.trans validates) (key.trans keyless) updates h

/-- A first step with a key has nothing to do with updates. -/
theorem UpdatePlan.keyed {s : Step} {rest : List Step} (h : UpdatePlan (s :: rest))
    (key : s.command = validateUpdate → s.key ≠ "") : s.NoUpdate ∧ UpdatePlan rest := by
  cases h with
  | other other h => exact ⟨other, h⟩
  | update validates keyless => exact absurd keyless (key validates)

theorem expandStep_updatePlan {step : Step} (system : step.system = .process)
    (allowed : isTxnProhibitedCommand step.command = false) : UpdatePlan (expandStep step) := by
  have notValidate : step.command ≠ validateUpdate := by
    intro h
    rw [h] at allowed
    exact absurd allowed (by decide)
  unfold expandStep
  dsimp only
  split
  · rename_i hc
    simp only [Bool.and_eq_true, decide_eq_true_eq] at hc
    have creates : ({ step with system := .storage } : Step).NoUpdate := by
      show step.command ≠ update ∧ step.command ≠ validateUpdate
      rw [hc.2]
      decide
    exact .other ⟨by show validateCreate ≠ update; decide, by show validateCreate ≠ validateUpdate; decide⟩
      (.other creates .nil)
  split
  · rename_i hc
    simp only [Bool.and_eq_true, decide_eq_true_eq] at hc
    exact .update rfl rfl hc.2 .nil
  · rename_i hc
    apply UpdatePlan.other _ .nil
    constructor
    · intro h
      simp [system, h] at hc
    · exact notValidate

theorem flatMap_updatePlan {steps : List Step}
    (h : ∀ s ∈ steps, s.system = .process ∧ isTxnProhibitedCommand s.command = false) :
    UpdatePlan (steps.flatMap expandStep) := by
  induction steps with
  | nil => exact .nil
  | cons s steps ih =>
    obtain ⟨system, allowed⟩ := h s List.mem_cons_self
    exact (expandStep_updatePlan system allowed).concat (ih fun s' hs' => h s' (List.mem_cons_of_mem _ hs'))

/-- Nothing that has run updates, and what is to run follows the plan. -/
structure Unupdated (_id : String) (done : List Step) (cur : Step) (ahead : List Step) : Prop where
  behind : ∀ s ∈ done, s.NoUpdate
  front : UpdatePlan (cur :: ahead)

section
variable {d : Deployment M} {net net' : Net M} {tp : TopicPartition} {env : Env} {logic : LogicHandler M}
  {p : Publication} {id : String} {done ahead : List Step} {cur : Step}

theorem Submitted.updatePlan {traceParent : String} {txn : Txn} {steps : List Step} {rtxn : ApecsTxn} {rest : List Step}
    (h : Submitted env traceParent txn p steps rtxn cur rest) : UpdatePlan (cur :: rest) := by
  have prepared : ∀ s ∈ steps, s.system = .process ∧ isTxnProhibitedCommand s.command = false := by
    intro s hs
    obtain ⟨u, hu, prepares⟩ := (Early.mapM_mem h.prepared).2 s hs
    obtain ⟨system, -, -, command, -⟩ := prepareStep_ok prepares
    rw [command]
    exact ⟨system, h.allowed u hu⟩
  have plan := flatMap_updatePlan prepared
  rwa [← h.forward, h.logged.stands.steps] at plan

/-- A step that runs has its key, so it neither updates nor validates an update. -/
theorem Unupdated.ran (h : Unupdated id done cur ahead) {out : Outcome (Platform M)} {call : Call}
    {rslt : Option StepResult} {adds : List Step} (handled : Handled d net tp env logic p cur out call rslt adds) :
    cur.NoUpdate ∧ UpdatePlan ahead := by
  apply h.front.keyed
  intro validates
  apply handled.key
  simp [Step.isKeylessStep, validates, validateUpdate, create, validateCreate]

theorem Unupdated.next {call : Call} {r : StepResult} {adds tail : List Step} {nextStep : Step}
    (h : Unupdated id done cur ahead) {out : Outcome (Platform M)}
    (handled : Handled d net tp env logic p cur out call (some r) adds)
    (follows : adds ++ ahead = nextStep :: tail) : UpdatePlan (nextStep :: tail) := by
  obtain ⟨other, rest⟩ := h.ran handled
  rw [← follows]
  apply UpdatePlan.append _ rest
  intro s hs
  obtain same | few := commandEffect_commands handled.effect s hs
  · rw [Step.NoUpdate, same, handled.callFor.command]
    exact other
  · simp only [addedCommands, List.mem_cons, List.not_mem_nil, or_false] at few
    unfold Step.NoUpdate
    rcases few with hc | hc | hc | hc | hc <;> (rw [hc]; decide)

theorem Unupdated.ran_behind (h : Unupdated id done cur ahead) (other : cur.NoUpdate) (r : StepResult) :
    ∀ s ∈ done ++ [d.doneStep net tp cur r], s.NoUpdate := by
  intro s hs
  rcases List.mem_append.1 hs with hs | hs
  · exact h.behind s hs
  · rw [List.mem_singleton.1 hs, Step.NoUpdate, doneStep_command]
    exact other

variable (d) in
theorem unupdated_maintained : Maintained d (fun _ => True) Unupdated where
  submitted _ h := ⟨by simp, h.updatePlan.wire⟩
  arrives := by
    intro net tp env logic p done cur ahead m done' cur' ahead' _ sent h arrival
    have wired : ∀ {steps : List Step}, (∀ s ∈ steps, s.NoUpdate) → ∀ s ∈ steps.map wireStep, s.NoUpdate := by
      intro steps all s hs
      obtain ⟨s', hs', rfl⟩ := List.mem_map.1 hs
      exact all s' hs'
    cases arrival with
    | read q looksUp key missing state =>
      obtain ⟨other, rest⟩ := h.front.keyed fun _ => key
      refine ⟨wired h.behind, ?_⟩
      have isRead : (readStep (d.ran net tp cur) (d.offset net tp)).NoUpdate := by
        show Command.read ≠ update ∧ Command.read ≠ validateUpdate
        decide
      have plan : UpdatePlan (readStep (d.ran net tp cur) (d.offset net tp) :: missAhead (d.ran net tp cur) ahead) := by
        apply UpdatePlan.other isRead
        unfold missAhead
        split
        · exact rest
        · exact h.front.congr (by simp) (by simp)
      exact plan.wire
    | next q call r adds nextStep tail handled resultOk follows =>
      obtain ⟨other, -⟩ := h.ran handled
      refine ⟨wired (h.ran_behind other r), ?_⟩
      have plan := (h.next handled follows).congr
        (nextStepOf_command (d.doneStep net tp cur r) nextStep (d.offset net tp))
        (nextStepOf_key (d.doneStep net tp cur r) nextStep (d.offset net tp))
      exact plan.wire
    | child call r adds step i handled resultOk last generates =>
      obtain ⟨other, -⟩ := h.ran handled
      have child : step.NoUpdate := by
        cases generates with
        | copy s r' mem => exact h.ran_behind other r s mem
        | update s payload =>
          show updateAsync ≠ update ∧ updateAsync ≠ validateUpdate
          decide
        | updateScnd s payload =>
          show updateAsync ≠ update ∧ updateAsync ≠ validateUpdate
          decide
      exact ⟨by simp, UpdatePlan.wire (.other child .nil)⟩

/-- A validation of an update is refused. -/
theorem validateUpdate_refused (sent : Sent d net.next (tp, p) done cur ahead) (validates : cur.command = validateUpdate)
    (keyless : cur.key = "") : (d.outcome net tp env logic p).code = .keyNotPresent := by
  have stands := sent.logged.stands
  have concern : cur.concern = tp.concern := sent.concern
  have system : cur.system = tp.system := sent.system
  have noKey : stepKey p.txn cur = .ok none := by
    unfold stepKey
    rw [stands.previousStep]
    have notKeyless : cur.isKeylessStep = false := by
      simp [Step.isKeylessStep, validates, validateUpdate, create, validateCreate]
    rw [keyless, notKeyless]
    simp only [Bool.not_false, decide_true, Bool.and_self, if_true]
    cases hlast : done.getLast? with
    | none => rfl
    | some prev =>
      dsimp only
      cases hr : prev.result with
      | none => rfl
      | some r => simp [sent.keyed keyless prev hlast r hr]
  have pending : cur.result = none := sent.logged.pending cur List.mem_cons_self
  unfold Deployment.outcome advanceApecsTxn
  simp [stands.currentStep, pending, concern, system, Deployment.topicParts, noKey]

end

/-! ## Runs -/

/-- The `UPDATE` of a transaction is addressed by its key: the validation runs on the key, no step is
refused for want of one, and the update reaches storage. -/
structure Deployment.UpdateAddressed (d : Deployment M) (tr : List (Net M × Action M)) (id concern key : String) :
    Prop where
  validated : ∃ call ∈ d.calls tr, call.args.txnId = id ∧ call.concern = concern ∧ call.system = .process ∧
    call.command = validateUpdate ∧ call.args.key = key ∧ call.args.inst.isSome = true
  keyed : ∀ net tp env logic p rest, (net, .consume tp env logic) ∈ tr → net.take tp = some (p, rest) →
    p.txn.id = id → (d.outcome net tp env logic p).code ≠ .keyNotPresent
  stored : ∃ call ∈ d.calls tr, call.args.txnId = id ∧ call.concern = concern ∧ call.system = .storage ∧
    call.command = update ∧ call.args.key = key

section
variable {d : Deployment M} {net₀ net : Net M}

/-- Whatever is submitted, no `UPDATE` is addressed by its key: every message that stands at its
validation is refused, and neither the validation nor the update of storage is ever called. -/
theorem update_never_addressed {tr : List (Net M × Action M)} (idle : net₀.inFlight = [])
    (run : Path d.step net₀ tr net) :
    (∀ id concern key, ¬d.UpdateAddressed tr id concern key) ∧
      ∀ net tp env logic p rest cur, (net, .consume tp env logic) ∈ tr → net.take tp = some (p, rest) →
        p.txn.currentStep = some cur → cur.command = validateUpdate →
        (d.outcome net tp env logic p).code = .keyNotPresent := by
  have standing : ∀ e ∈ tr, Standing d Unupdated e.1 ∧ ∃ after, d.step e.1 e.2 = some after :=
    fun e he => Standing.read (unupdated_maintained d) idle run (fun _ _ => trivial) he
  have uncalled : ∀ call ∈ d.calls tr, call.command ≠ validateUpdate := by
    intro call hcall
    obtain ⟨e, he, hc⟩ := List.mem_filterMap.1 hcall
    obtain ⟨⟨call', rslt⟩, called, rfl⟩ := Option.map_eq_some_iff.1 hc
    obtain ⟨held, after, hstep⟩ := standing e he
    obtain ⟨tp, env, logic, p, before, behind, done, cur, ahead, adds, -, consumed, handled⟩ :=
      called_handled held.sound hstep called
    have here : Unupdated _ done cur ahead := held.at (by rw [consumed.split]; simp) consumed.sent
    obtain ⟨other, -⟩ := here.ran handled
    show call'.command ≠ validateUpdate
    rw [handled.callFor.command]
    exact other.2
  constructor
  · rintro id concern key ⟨⟨call, hcall, -, -, -, validates, -⟩, -, -⟩
    exact uncalled call hcall validates
  · intro net tp env logic p rest cur he htake hcur validates
    obtain ⟨held, after, hstep⟩ := standing _ he
    obtain ⟨p', before, behind, done, cur', ahead, consumed⟩ := consume_fate held.sound hstep
    have same := consumed.taken
    rw [htake, Option.some.injEq, Prod.mk.injEq] at same
    obtain ⟨rfl, -⟩ := same
    have here : Unupdated p.txn.id done cur' ahead := held.at (by rw [consumed.split]; simp) consumed.sent
    have sent := consumed.sent
    rw [sent.logged.stands.currentStep, Option.some.injEq] at hcur
    subst hcur
    apply validateUpdate_refused sent validates
    by_contra keyed
    exact (here.front.keyed fun _ => keyed).1.2 validates

end

/-- An instance of `Player` in the cache and in storage. -/
def known : Net Bytes := Net.sample (some ⟨some [107, 1], some [9], ⟨1, 0, 0⟩⟩) (some ⟨[107, 1], some [9], ⟨1, 0, 0⟩⟩)

/-- Its update, which the concern accepts. -/
def updateKnown : List (Action Bytes) :=
  [sampleSubmit [1] [sampleStep "Player" update "k" [107, 2]], sampleConsume "Player" .process 0]

theorem known_not_updated :
    Logic.preValidateUpdate (sampleConcern "Player") [107, 1] [107, 2] = .ok () ∧
      (runs Deployment.single.step known updateKnown).map (fun net =>
          ([net.inFlight.length, net.completed.length, net.errors.length],
            net.errors.map fun p => (p.txn.currentStep.map Step.command, p.txn.currentStep.bind Step.result |>.map (·.code)))) =
        some ([0, 0, 1], [(some validateUpdate, some .keyNotPresent)]) ∧
      ¬Deployment.single.UpdateAddressed (trace Deployment.single.step known updateKnown)
        (traceIdFromTraceParent sampleTraceParent) "Player" "k" := by
  have uncalled : Deployment.single.calls (trace Deployment.single.step known updateKnown) = [] := by decide +kernel
  refine ⟨by decide +kernel, by decide +kernel, fun h => ?_⟩
  obtain ⟨call, hcall, -⟩ := h.stored
  rw [uncalled] at hcall
  cases hcall

theorem update_never_addressed_known :
    ¬Deployment.single.UpdateAddressed (trace Deployment.single.step known updateKnown)
      (traceIdFromTraceParent sampleTraceParent) "Player" "k" := by
  have taken : (runs Deployment.single.step known updateKnown).isSome = true := by decide +kernel
  exact (update_never_addressed rfl (path_after taken)).1 _ _ _

end Rocketcycle
