import Rocketcycle.Net.Overwriting
import Rocketcycle.Net.Standing

/-!
# What a validation answers

`VALIDATE_CREATE` answers an instance, and the `CREATE` behind it has a payload of its own, which
stays: what is stored is what was submitted, whatever the validation has made of it.
-/

namespace Rocketcycle

open Command Runs

variable {M : Type}

/-- What a run has submitted and called. -/
abbrev History (M : Type) := List (Net M × Action M)

/-- A `CREATE` of the transaction was submitted, with this payload on the wire. -/
def Carried (tr : History M) (id concern : String) (payload : Option Bytes) : Prop :=
  ∃ e ∈ tr, ∃ env traceParent txn respTarget step given, e.2 = .submit env traceParent txn respTarget ∧
    traceIdFromTraceParent traceParent = id ∧ step ∈ txn.steps ∧ step.command = create ∧ step.concern = concern ∧
    step.payload = .ok given ∧ wireBytes given = wireBytes payload

/-- A validation of the transaction was called with this payload and has ended with `OK`, by this logic. -/
structure Accepted (d : Deployment M) (tr : History M) (id concern : String) (payload : Option Bytes)
    (logic : LogicHandler M) : Prop where
  validated : ∃ e ∈ tr, ∃ tp env call r, e.2 = .consume tp env logic ∧ d.called e.1 e.2 = some (call, some r) ∧
    r.code = .ok ∧ (call.system = .process ∧ call.command = validateCreate) ∧ call.args.txnId = id ∧
    call.concern = concern ∧ wireBytes call.args.payload = wireBytes payload
  accepts : ∀ cnc, d.cc.concernHandler concern = some cnc → cnc.accepts logic payload = true

/-- The payload with which the `CREATE` of a call was submitted, and the logic by which it was validated. -/
structure Validated (d : Deployment M) (tr : History M) (call : Call) (payload : Option Bytes) (logic : LogicHandler M) :
    Prop where
  submitted : ∃ e ∈ tr, ∃ env traceParent txn respTarget step, e.2 = .submit env traceParent txn respTarget ∧
    traceIdFromTraceParent traceParent = call.args.txnId ∧ step ∈ txn.steps ∧ step.command = create ∧
    step.concern = call.concern ∧ step.payload = .ok payload
  carried : wireBytes call.args.payload = wireBytes payload
  accepted : Accepted d tr call.args.txnId call.concern payload logic

theorem Carried.wire {tr : History M} {id concern : String} {payload : Option Bytes} (h : Carried tr id concern payload) :
    Carried tr id concern (wireBytes payload) := by
  obtain ⟨e, he, env, traceParent, txn, respTarget, step, given, submits, ofTxn, mem, command, ofConcern, given', same⟩ := h
  exact ⟨e, he, env, traceParent, txn, respTarget, step, given, submits, ofTxn, mem, command, ofConcern, given',
    by rw [wireBytes_wireBytes, same]⟩

/-- A validation of a payload is one of whatever looks the same on the wire. -/
theorem Accepted.congr {d : Deployment M} {tr : History M} {id concern : String} {payload payload' : Option Bytes}
    {logic : LogicHandler M} (h : Accepted d tr id concern payload logic) (same : wireBytes payload = wireBytes payload') :
    Accepted d tr id concern payload' logic := by
  obtain ⟨⟨e, he, tp, env, call, r, consumes, called, isOk, command, ofTxn, ofConcern, given⟩, accepts⟩ := h
  refine ⟨⟨e, he, tp, env, call, r, consumes, called, isOk, command, ofTxn, ofConcern, given.trans same⟩, ?_⟩
  intro cnc handler
  rw [← cnc.accepts_wire, ← same, cnc.accepts_wire]
  exact accepts cnc handler

/-- A step that has nothing to do with a creation. -/
def Step.NoCreate (s : Step) : Prop := ¬(s.system = .storage ∧ s.command = create) ∧ s.command ≠ validateCreate

/-- A `CREATE` on storage follows its validation, and both have the submitted payload. -/
inductive CreatePlan (tr : History M) (id : String) : List Step → Prop
  | nil : CreatePlan tr id []
  | other {s : Step} {rest : List Step} (other : s.NoCreate) (h : CreatePlan tr id rest) : CreatePlan tr id (s :: rest)
  | creation {v c : Step} {rest : List Step} (validates : v.system = .process ∧ v.command = validateCreate)
      (creates : c.system = .storage ∧ c.command = create) (concern : v.concern = c.concern)
      (payload : v.payload = c.payload) (carried : Carried tr id c.concern c.payload) (h : CreatePlan tr id rest) :
      CreatePlan tr id (v :: c :: rest)

section
variable {tr : History M} {id : String}

theorem CreatePlan.append {steps rest : List Step} (hs : ∀ s ∈ steps, s.NoCreate) (h : CreatePlan tr id rest) :
    CreatePlan tr id (steps ++ rest) := by
  induction steps with
  | nil => exact h
  | cons s steps ih =>
    apply CreatePlan.other (hs s List.mem_cons_self)
    exact ih fun s' hs' => hs s' (List.mem_cons_of_mem _ hs')

theorem CreatePlan.concat {steps rest : List Step} (hs : CreatePlan tr id steps) (h : CreatePlan tr id rest) :
    CreatePlan tr id (steps ++ rest) := by
  induction hs with
  | nil => exact h
  | other other _ ih => exact .other other ih
  | creation validates creates concern payload carried _ ih => exact .creation validates creates concern payload carried ih

theorem CreatePlan.wire {steps : List Step} (h : CreatePlan tr id steps) : CreatePlan tr id (steps.map wireStep) := by
  induction h with
  | nil => exact .nil
  | other other _ ih => exact .other other ih
  | creation validates creates concern payload carried _ ih =>
    refine .creation validates creates concern ?_ carried.wire ih
    rw [wireStep_payload, wireStep_payload, payload]

/-- A step other than a validation may get a payload. -/
theorem CreatePlan.congr {s s' : Step} {rest : List Step} (h : CreatePlan tr id (s :: rest)) (system : s'.system = s.system)
    (concern : s'.concern = s.concern) (command : s'.command = s.command)
    (payload : s.command = validateCreate → s'.payload = s.payload) : CreatePlan tr id (s' :: rest) := by
  cases h with
  | other other h =>
    apply CreatePlan.other _ h
    rwa [Step.NoCreate, system, command]
  | creation validates creates hconcern hpayload carried h =>
    exact .creation ⟨system.trans validates.1, command.trans validates.2⟩ creates (concern.trans hconcern)
      ((payload validates.2).trans hpayload) carried h

/-- Without a validation in front nothing is created. -/
theorem CreatePlan.head {s : Step} {rest : List Step} (h : CreatePlan tr id (s :: rest)) (notValidate : s.command ≠ validateCreate) :
    s.NoCreate ∧ CreatePlan tr id rest := by
  cases h with
  | other other h => exact ⟨other, h⟩
  | creation validates => exact absurd validates.2 notValidate

end

/-- Where a message stands: in front of creations to be validated, or at one that has been. -/
inductive Creates (d : Deployment M) (tr : History M) (id : String) (done : List Step) (cur : Step)
    (ahead : List Step) : Prop
  | plan (h : CreatePlan tr id (cur :: ahead))
  | storage (creates : cur.system = .storage ∧ cur.command = create) (carried : Carried tr id cur.concern cur.payload)
      (accepted : ∃ logic, Accepted d tr id cur.concern cur.payload logic) (h : CreatePlan tr id ahead)

section
variable {d : Deployment M} {net net' : Net M} {tp : TopicPartition} {env : Env} {logic : LogicHandler M}
  {p : Publication} {done ahead : List Step} {cur : Step} {tr : History M} {id : String}

theorem expandStep_createPlan {u : TxnStep} {s : Step} (prepares : prepareStep env u = .ok s)
    (carried : ∀ given, u.command = create → u.payload = .ok given → Carried tr id u.concern given)
    (allowed : isTxnProhibitedCommand u.command = false) : CreatePlan tr id (expandStep s) := by
  obtain ⟨system, -, concern, command, -⟩ := prepareStep_ok prepares
  have given : u.payload = .ok s.payload := by
    unfold prepareStep at prepares
    split at prepares
    · cases prepares
    · rename_i payload hpayload
      cases prepares
      exact hpayload
  have notValidate : s.command ≠ validateCreate := by
    intro h
    rw [← command, h] at allowed
    exact absurd allowed (by decide)
  unfold expandStep
  dsimp only
  split
  · rename_i hc
    simp only [Bool.and_eq_true, decide_eq_true_eq] at hc
    refine .creation ⟨rfl, rfl⟩ ⟨rfl, hc.2⟩ rfl rfl ?_ .nil
    show Carried tr id s.concern s.payload
    rw [concern]
    exact carried _ (command ▸ hc.2) given
  have notStorage : ¬(s.system = .storage ∧ s.command = create) := by simp [system]
  split
  · refine .other ⟨by simp, ?_⟩ (.other ⟨notStorage, notValidate⟩ .nil)
    show validateUpdate ≠ validateCreate
    decide
  · exact .other ⟨notStorage, notValidate⟩ .nil

theorem flatMap_createPlan {us : List TxnStep} {steps : List Step} (prepared : us.mapM (prepareStep env) = .ok steps)
    (each : ∀ u ∈ us, (∀ given, u.command = create → u.payload = .ok given → Carried tr id u.concern given) ∧
      isTxnProhibitedCommand u.command = false) : CreatePlan tr id (steps.flatMap expandStep) := by
  have all : ∀ s ∈ steps, CreatePlan tr id (expandStep s) := by
    intro s hs
    obtain ⟨u, hu, prepares⟩ := (Early.mapM_mem prepared).2 s hs
    exact expandStep_createPlan prepares (each u hu).1 (each u hu).2
  clear prepared
  induction steps with
  | nil => exact .nil
  | cons s steps ih =>
    exact (all s List.mem_cons_self).concat (ih fun s' hs' => all s' (List.mem_cons_of_mem _ hs'))

/-- A command that is no validation adds nothing that creates. -/
theorem Handled.added_noCreate {out : Outcome (Platform M)} {call : Call} {r : StepResult} {adds : List Step}
    (handled : Handled d net tp env logic p cur out call (some r) adds) (resultOk : r.code = .ok)
    (notValidate : cur.command ≠ validateCreate) : ∀ s ∈ adds, s.NoCreate := by
  intro s hs
  have callFor := handled.callFor
  constructor
  · rintro ⟨storage, creates⟩
    rcases (commandEffect_adds resultOk handled.effect).shape with all | ⟨-, command, payload, adds'⟩
    · rw [all s hs] at storage
      cases storage
    · rw [adds', List.mem_singleton] at hs
      subst hs
      have same : call.command = create := creates
      rcases command with h | h <;> (rw [h] at same; exact absurd same (by decide))
  · obtain same | few := commandEffect_commands handled.effect s hs
    · rw [same, callFor.command]
      exact notValidate
    · simp only [addedCommands, List.mem_cons, List.not_mem_nil, or_false] at few
      rcases few with hc | hc | hc | hc | hc <;> (rw [hc]; decide)

/-- Behind a validation that has accepted stands its creation, with the payload that was validated. -/
theorem creation_follows {v c : Step} {done' rest : List Step} (validates : cur.system = .process ∧ cur.command = validateCreate)
    (creates : c.system = .storage ∧ c.command = create) (concern : cur.concern = c.concern)
    (payload : cur.payload = c.payload) (carried : Carried tr p.txn.id c.concern c.payload) (h : CreatePlan tr p.txn.id rest)
    (here : (net, .consume tp env logic) ∈ tr) (sent : Sent d net.next (tp, p) done cur (c :: rest))
    {call : Call} {r : StepResult} (called : d.called net (.consume tp env logic) = some (call, some r))
    {adds tail : List Step} {nextStep : Step}
    (handled : Handled d net tp env logic p cur (d.outcome net tp env logic p) call (some r) adds)
    (resultOk : r.code = .ok) (follows : adds ++ c :: rest = nextStep :: tail) :
    Creates d tr p.txn.id done' (wireStep (nextStepOf v nextStep (d.offset net tp))) (tail.map wireStep) := by
  have callFor := handled.callFor
  have none := (commandEffect_adds resultOk handled.effect).validates (callFor.command.trans validates.2)
  rw [none] at follows
  cases follows
  have forward : call.direction = .forward := by
    rw [handled.called]
    exact sent.logged.stands.direction
  have system : call.system = .process := callFor.system.trans validates.1
  have command : call.command = validateCreate := callFor.command.trans validates.2
  have accepted : Accepted d tr p.txn.id c.concern c.payload logic := by
    have ofTxn : call.args.txnId = p.txn.id := by rw [handled.called]; rfl
    refine ⟨⟨_, here, tp, env, call, r, rfl, called, resultOk, ⟨system, command⟩, ofTxn, callFor.concern.trans concern, ?_⟩, ?_⟩
    · rw [callFor.payload, payload]
    · intro cnc handler
      rw [← concern, ← callFor.concern] at handler
      have accepts := (validation_handled forward system command handler handled.handled).accepted.1 ⟨r, rfl, resultOk⟩
      rwa [callFor.payload, payload] at accepts
  have kept : (nextStepOf v c (d.offset net tp)).payload = c.payload := by
    obtain kept | ⟨-, free, -⟩ := nextStepOf_payload v c (d.offset net tp)
    · exact kept
    · rw [creates.2] at free
      exact absurd free (by decide)
  refine .storage (by simpa using creates) ?_ ⟨logic, ?_⟩ h.wire
  · rw [wireStep_concern, nextStepOf_concern, wireStep_payload, kept]
    exact carried.wire
  · rw [wireStep_concern, nextStepOf_concern, wireStep_payload, kept]
    exact accepted.congr (wireBytes_wireBytes _).symm

/-- What is submitted is a plan of creations. -/
theorem submitted_creates {traceParent : String} {txn : Txn} {respTarget : Option TopicTarget} {steps : List Step}
    {rtxn : ApecsTxn} {rest : List Step} (here : (net, .submit env traceParent txn respTarget) ∈ tr)
    (h : Submitted env traceParent txn p steps rtxn cur rest) :
    Creates d tr (traceIdFromTraceParent traceParent) [] (wireStep cur) (rest.map wireStep) := by
  have plan : CreatePlan tr (traceIdFromTraceParent traceParent) (steps.flatMap expandStep) := by
    apply flatMap_createPlan h.prepared
    intro u hu
    refine ⟨fun given command hgiven => ?_, h.allowed u hu⟩
    exact ⟨_, here, env, traceParent, txn, respTarget, u, given, rfl, rfl, hu, command, rfl, hgiven, rfl⟩
  rw [← h.forward, h.logged.stands.steps] at plan
  exact .plan plan.wire

/-- What a step that is no validation leads to. -/
theorem CreatePlan.onwards {done' : List Step} {call : Call} {r : StepResult} {adds tail : List Step} {nextStep : Step}
    (handled : Handled d net tp env logic p cur (d.outcome net tp env logic p) call (some r) adds) (resultOk : r.code = .ok)
    (follows : adds ++ ahead = nextStep :: tail) (notValidate : cur.command ≠ validateCreate) (rest : CreatePlan tr id ahead) :
    Creates d tr id done' (wireStep (nextStepOf (d.doneStep net tp cur r) nextStep (d.offset net tp))) (tail.map wireStep) := by
  have plan := CreatePlan.append (handled.added_noCreate resultOk notValidate) rest
  rw [follows] at plan
  refine .plan (CreatePlan.wire (plan.congr (by simp) (by simp) (by simp) fun validates => ?_))
  obtain kept | ⟨-, free, -⟩ := nextStepOf_payload (d.doneStep net tp cur r) nextStep (d.offset net tp)
  · exact kept
  · rw [validates] at free
    exact absurd free (by decide)

/-- Neither the read in front of a step nor the step itself is a creation. -/
theorem CreatePlan.missed (looksUp : cur.looksUp = true) (h : CreatePlan tr id (cur :: ahead)) :
    CreatePlan tr id (readStep (d.ran net tp cur) (d.offset net tp) :: missAhead (d.ran net tp cur) ahead) := by
  have notValidate : cur.command ≠ validateCreate := by
    intro validates
    have keyed := looksUp_keyless looksUp
    simp [Step.isKeylessStep, validates, looksUp_process looksUp] at keyed
  obtain ⟨-, rest⟩ := h.head notValidate
  have isRead : (readStep (d.ran net tp cur) (d.offset net tp)).NoCreate := by
    constructor
    · rintro ⟨-, creates⟩
      exact absurd creates (by show Command.read ≠ create; decide)
    · show Command.read ≠ validateCreate
      decide
  apply CreatePlan.other isRead
  unfold missAhead
  split
  · exact rest
  · exact h.congr (by simp) (by simp) (by simp) fun _ => by simp

/-- A generated transaction creates nothing. -/
theorem Generates.noCreate {pb : RelatedCodecs} {store : InstanceStore} {steps : List Step} {step : Step}
    (h : Generates pb store steps step) : step.NoCreate := by
  cases h with
  | copy s r' mem isWrite =>
    have write := isWrite
    simp only [Step.isStorageWrite, Bool.and_eq_true, Bool.or_eq_true, decide_eq_true_eq] at write
    constructor
    · rintro ⟨⟨⟩, -⟩
    · show s.command ≠ validateCreate
      rcases write.2 with (hc | hc) | hc <;> (rw [hc]; decide)
  | update s payload =>
    constructor
    · rintro ⟨-, creates⟩
      exact absurd creates (by show updateAsync ≠ create; decide)
    · show updateAsync ≠ validateCreate
      decide
  | updateScnd s payload =>
    constructor
    · rintro ⟨-, creates⟩
      exact absurd creates (by show updateAsync ≠ create; decide)
    · show updateAsync ≠ validateCreate
      decide

/-- Wherever a message stands, its creations are those that were submitted, and have been validated. -/
theorem Standing.creates_step (h : Standing d (Creates d tr) net) {a : Action M} (here : (net, a) ∈ tr)
    (hs : d.step net a = some net') : Standing d (Creates d tr) net' := by
  cases a with
  | submit => exact h.submit hs (submitted_creates here)
  | consume tp env logic =>
    obtain ⟨p, before, after, done, cur, ahead, consumed⟩ := consume_fate h.sound hs
    have called : d.called net (.consume tp env logic) = (d.outcome net tp env logic p).call := by
      simp [Deployment.called, consumed.taken]
    refine h.consume consumed fun held arrival => ?_
    cases arrival with
    | read q looksUp key missing state id =>
      rw [id]
      cases held with
      | storage creates => rw [looksUp_process looksUp] at creates; cases creates.1
      | plan plan => exact .plan (plan.missed looksUp).wire
    | next q call r adds nextStep tail handled resultOk follows id =>
      rw [id]
      cases held with
      | storage creates carried accepted plan =>
        refine plan.onwards handled resultOk follows ?_
        rw [creates.2]
        decide
      | plan plan =>
        by_cases validates : cur.command = validateCreate
        · cases plan with
          | other other => exact absurd validates other.2
          | creation validates creates concern payload carried plan =>
            exact creation_follows validates creates concern payload carried plan here consumed.sent
              (called.trans handled.recorded) handled resultOk follows
        · exact (plan.head validates).2.onwards handled resultOk follows validates
    | child call r adds step i handled resultOk last generates =>
      exact .plan (CreatePlan.wire (.other generates.noCreate .nil))

end

section
variable {d : Deployment M} {net₀ net : Net M}

/-- Every `CREATE` that is called on storage is one that has been submitted, and that a validation has
accepted. It creates what the validation has answered exactly if that is what was submitted. -/
theorem validated_is_stored_iff {tr : History M} (idle : net₀.inFlight = []) (run : Path d.step net₀ tr net)
    {e : Net M × Action M} (he : e ∈ tr) {call : Call} {rslt : Option StepResult}
    (called : d.called e.1 e.2 = some (call, rslt)) (creates : call.system = .storage ∧ call.command = create) :
    ∃ payload logic, Validated d tr call payload logic ∧
      ∀ cnc inst v, d.cc.concernHandler call.concern = some cnc → cnc.unmarshalOpt payload = .ok inst →
        logic.validateCreate inst = .ok (some v) →
        (cnc.createInput call.args.payload = .ok v ↔ cnc.createInput payload = .ok v) := by
  obtain ⟨held, after, hstep⟩ : Standing d (Creates d tr) e.1 ∧ ∃ after, d.step e.1 e.2 = some after := by
    obtain ⟨front, back, rfl⟩ := List.append_of_mem he
    obtain ⟨first, after, hstep, -⟩ := run.split
    refine ⟨?_, after, hstep⟩
    refine first.invariant (Standing d (Creates d _)) (fun n a => (n, a) ∈ front ++ e :: back) (standing_idle idle) ?_ ?_
    · exact fun n a n' here held hs => held.creates_step here hs
    · exact fun e' he' => List.mem_append_left _ he'
  obtain ⟨tp, env, logic, p, before, behind, done, cur, ahead, adds, -, consumed, handled⟩ :=
    called_handled held.sound hstep called
  have callFor := handled.callFor
  have here : cur.system = .storage ∧ cur.command = create := by
    rw [← callFor.system, ← callFor.command]
    exact creates
  have ofTxn : call.args.txnId = p.txn.id := by rw [handled.called]; rfl
  cases held.at (by rw [consumed.split]; simp) consumed.sent with
  | plan h =>
    have notValidate : cur.command ≠ validateCreate := by rw [here.2]; decide
    exact absurd here (h.head notValidate).1.1
  | storage _ carried accepted =>
    obtain ⟨e', he', env', traceParent, txn, respTarget, step, given, submits, id, mem, command, concern, hgiven, same⟩ := carried
    obtain ⟨logic', accepted⟩ := accepted
    have wire : wireBytes call.args.payload = wireBytes given := by rw [callFor.payload, same]
    refine ⟨given, logic', ⟨?_, wire, ?_⟩, ?_⟩
    · refine ⟨e', he', env', traceParent, txn, respTarget, step, submits, ?_, mem, command, ?_, hgiven⟩
      · rw [ofTxn]
        exact id
      · rw [callFor.concern]
        exact concern
    · rw [ofTxn, callFor.concern]
      exact accepted.congr same.symm
    · intro cnc inst v _ _ _
      rw [← createInput_wire call.args.payload, wire, createInput_wire]

end

/-- A validation that replaces all but the key. -/
def replacing : LogicHandler Bytes := { sampleLogic with validateCreate := fun m => .ok (some (m.take 1 ++ [9])) }

def createReplaced : List (Action Bytes) :=
  [sampleSubmit [1] [sampleStep "Player" create "" [107, 2]], .consume ⟨"Player", .process, 0⟩ Env.sample replacing,
   sampleConsume "Player" .storage 0]

/-- What was submitted is created, and not what the validation has answered. -/
theorem replaced_not_stored :
    (replacing.validateCreate [107, 2]).toOption = some (some [107, 9]) ∧
      ((Deployment.single.calls (trace Deployment.single.step Net.new createReplaced)).filter fun call =>
          call.system = .storage && call.command = create).map
        (fun call => ((sampleConcern "Player").createInput call.args.payload).toOption) = [some [107, 2]] ∧
      (runs Deployment.single.step Net.new createReplaced).map (fun net => net.ramDbs "ramdb" "Player" "k") =
        some (some ⟨[107, 2], none, ⟨1, 0, 0⟩⟩) := by
  decide +kernel

theorem validated_is_stored_iff_replaced :
    ∃ (call : Call) (payload : Option Bytes) (logic : LogicHandler Bytes), Validated Deployment.single
        (trace Deployment.single.step Net.new createReplaced) call payload logic ∧
      ∀ cnc inst v, Deployment.single.cc.concernHandler call.concern = some cnc → cnc.unmarshalOpt payload = .ok inst →
        logic.validateCreate inst = .ok (some v) →
        (cnc.createInput call.args.payload = .ok v ↔ cnc.createInput payload = .ok v) := by
  have taken : (runs Deployment.single.step Net.new createReplaced).isSome = true := by decide +kernel
  have creation : ∃ e ∈ trace Deployment.single.step Net.new createReplaced,
      (Deployment.single.called e.1 e.2).any (fun c => c.1.system = .storage && c.1.command = create) = true := by
    decide +kernel
  obtain ⟨e, he, hc⟩ := creation
  rw [Option.any_eq_true] at hc
  obtain ⟨⟨call, rslt⟩, called, creates⟩ := hc
  simp only [Bool.and_eq_true, decide_eq_true_eq] at creates
  exact ⟨call, validated_is_stored_iff rfl (path_after taken) he called creates⟩

end Rocketcycle
