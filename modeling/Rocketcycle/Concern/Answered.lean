import Rocketcycle.Concern.Applied
import Rocketcycle.Concern.Decode

/-!
# What a process command answers

The payload in the result of a process command that ends with `OK`: the instance with its related
data as the store has them, or the output of a command of the concern's service. Without an output
there is no payload, and the runner passes on that of the step.
-/

namespace Rocketcycle

open Command Early

variable {M : Type}

/-- The message that a command of the concern's service answers, if it comes to that. -/
def Concern.commandAnswer (cnc : Concern M) (logic : LogicHandler M) (cmd : ConcernCommand M) (args : StepArgs)
    (store : InstanceStore) : Option M := do
  let instBytes ← args.inst
  let inst ← (cnc.unmarshal instBytes).toOption
  let (rel, _) ← (cnc.getRelated (cnc.key inst) store).toOption
  let payloadIn ← (cmd.parse args.payload).toOption
  let (_, payloadOut) ← (logic.command cmd.name inst rel payloadIn).toOption
  payloadOut

/-- The payload of such a command is the answer marshalled, if the command has an output. -/
inductive CommandPayload (cnc : Concern M) (logic : LogicHandler M) (cmd : ConcernCommand M) (args : StepArgs)
    (store : InstanceStore) : Option Bytes → Prop
  | answer (codec : Codec M) (out : M) (payload : Bytes) (output : cmd.output = some codec)
      (answers : cnc.commandAnswer logic cmd args store = some out) (marshalled : codec.marshal out = .ok payload) :
      CommandPayload cnc logic cmd args store (some payload)
  | nothing (silent : cmd.output = none ∨ cnc.commandAnswer logic cmd args store = none) :
      CommandPayload cnc logic cmd args store none

/-- The postcondition of a command with a payload: `P` holds of the store and the payload that it ends with,
if it ends with `OK`. -/
def PayloadIfOk (P : InstanceStore → Option Bytes → Prop) (r : Except Stop Answer) (store : InstanceStore) : Prop :=
  ∀ rslt, (answerOf r).1 = some rslt → rslt.code = .ok → P store rslt.payload

section
variable {env : Env} {pb : RelatedCodecs} {cnc : Concern M} {logic : LogicHandler M} {cmd : ConcernCommand M}
  {args : StepArgs} {store : InstanceStore} {P : InstanceStore → Option Bytes → Prop}

theorem payloadIfOk_done {rslt : StepResult} {adds : List Step} (h : P store rslt.payload) :
    PayloadIfOk P (.ok (rslt, adds)) store := by
  rintro r ⟨⟩ -
  split <;> exact h

theorem payloadIfOk_panic : PayloadIfOk P (.error .panic) store := by
  rintro r ⟨⟩

theorem payloadIfOk_plain {α : Type} {x : Except GoError α} (errors : PlainErrors x) {rslt : StepResult} :
    ∀ e, x = .error e → PayloadIfOk P (.error (.fail (setStepResult env.sprintf rslt e))) store := by
  intro e he
  obtain ⟨msg, rfl⟩ := errors e he
  rintro r ⟨⟩ isOk
  rw [setStepResult_code] at isOk
  cases isOk

theorem read_payload :
    Post (Logic.read .forward args) store
      (PayloadIfOk fun _ payload => packPayloads args.inst (store.getRelated args.key) = payload ∧ payload.isSome = true) := by
  unfold Logic.read
  rw [if_pos rfl]
  apply post_get_bind
  apply post_orPanic_bind
  · intro payload packed
    exact post_pure (payloadIfOk_done ⟨packed, rfl⟩)
  · intro _
    exact payloadIfOk_panic

theorem refreshInstance_payload :
    Post (Logic.refreshInstance env pb cnc args) store
      (PayloadIfOk fun store' payload => store'.getPacked args.key = some payload) := by
  unfold Logic.refreshInstance
  apply post_orFail_bind
  swap
  · exact payloadIfOk_plain (parsePayload_plain _)
  rintro ⟨instBytes, relBytes⟩ _
  apply post_orFail_bind
  swap
  · exact payloadIfOk_plain (cnc.parseRelated_plain _)
  intro rel _
  unfold Logic.storeInstance
  apply post_get_bind
  apply post_orStop_bind
  · intro relSteps _
    apply post_modify_bind
    apply post_getPacked_bind
    · intro payload packed
      exact post_pure (payloadIfOk_done packed)
    · exact payloadIfOk_panic
  · intro e he
    have plain : ∃ msg, e = .other msg := by
      split at he
      · exact refreshRelatedSteps_plain he
      · cases he
    obtain ⟨msg, rfl⟩ := plain
    exact payloadIfOk_plain (plainErrors_other msg : PlainErrors (.error _ : Except GoError Unit)) _ rfl
  · intro g _
    exact payloadIfOk_panic

theorem flushInstance_payload :
    Post (Logic.flushInstance args) store
      (PayloadIfOk fun _ payload => store.getPacked args.key = some payload) := by
  unfold Logic.flushInstance
  apply post_getPacked_bind
  · intro payload packed
    cases payload with
    | none => exact post_pure (payloadIfOk_done packed)
    | some payload => exact post_modify_bind (post_pure (payloadIfOk_done packed))
  · exact payloadIfOk_panic

theorem storeChanged_payload {payload : Option Bytes} {new : Bytes}
    (h : CommandPayload cnc logic cmd args store payload) :
    Post (Logic.storeChanged env pb cnc args { payload := payload } new) store
      (PayloadIfOk fun _ payload => CommandPayload cnc logic cmd args store payload) := by
  unfold Logic.storeChanged
  apply post_get_bind
  apply post_orFail_bind
  swap
  · exact payloadIfOk_plain (getRelated_plain cnc _)
  rintro ⟨rel, relBytes⟩ _
  apply post_orStop_bind
  · intro relSteps _
    apply post_modify_bind
    exact post_pure (payloadIfOk_done h)
  · intro e he
    obtain ⟨msg, rfl⟩ := refreshRelatedSteps_plain he
    exact payloadIfOk_plain (plainErrors_other msg : PlainErrors (.error _ : Except GoError Unit)) _ rfl
  · intro g _
    exact payloadIfOk_panic

theorem command_payload :
    Post (Logic.command env pb cnc logic .forward args cmd) store
      (PayloadIfOk fun _ payload => CommandPayload cnc logic cmd args store payload) := by
  unfold Logic.command
  rw [if_pos rfl]
  cases given : args.inst with
  | none =>
    exact post_fail (payloadIfOk_plain (plainErrors_other _ : PlainErrors (.error _ : Except GoError Unit)) _ rfl)
  | some instBytes =>
    apply post_orFail_bind
    swap
    · exact payloadIfOk_plain (cnc.unmarshal_plain _)
    intro inst parsed
    apply post_get_bind
    apply post_orFail_bind
    swap
    · exact payloadIfOk_plain (getRelated_plain cnc _)
    rintro ⟨rel, relBytes⟩ related
    rw [commandInput_eq]
    apply post_orFail_bind
    swap
    · exact payloadIfOk_plain (parse_plain _)
    intro input parse
    have answer : cnc.commandAnswer logic cmd args store =
        (logic.command cmd.name inst rel input).toOption.bind Prod.snd := by
      simp only [Concern.commandAnswer, given, parsed, related, parse, Except.toOption, Option.bind_eq_bind,
        Option.bind_some]
    apply post_orStop_bind
    · rintro ⟨inst', payloadOut⟩ ran
      have answers : cnc.commandAnswer logic cmd args store = payloadOut := by
        rw [answer, ran]
        rfl
      have rest : ∀ payload, CommandPayload cnc logic cmd args store payload →
          Post (orFail env { payload := payload } (cnc.marshal inst') >>= fun instSer =>
              if instSer ≠ instBytes then Logic.storeChanged env pb cnc args { payload := payload } instSer
              else pure ({ payload := payload }, [])) store
            (PayloadIfOk fun _ payload => CommandPayload cnc logic cmd args store payload) := by
        intro payload h
        apply post_orFail_bind
        swap
        · exact payloadIfOk_plain (cnc.marshal_plain _)
        intro instSer _
        apply post_ite
        · intro _
          exact storeChanged_payload h
        · intro _
          exact post_pure (payloadIfOk_done h)
      apply post_bind
      unfold Logic.commandOutput
      split
      · rename_i silent
        exact rest _ (.nothing (.inl silent))
      · rename_i codec output
        apply post_orFail_bind
        swap
        · exact payloadIfOk_plain (Codec.marshalOpt_plain _ _)
        intro payload marshalled
        apply rest
        cases payloadOut with
        | none =>
          cases marshalled
          exact .nothing (.inr answers)
        | some out =>
          cases hm : codec.marshal out with
          | error e =>
            rw [Codec.marshalOpt, hm] at marshalled
            cases marshalled
          | ok b =>
            rw [Codec.marshalOpt, hm] at marshalled
            cases marshalled
            exact .answer codec out b output answers hm
    · intro e he
      rintro r ⟨⟩ -
      rw [show (setStepResult env.sprintf {} e).payload = none by cases e <;> rfl]
      refine .nothing (.inr ?_)
      rw [answer, he]
      rfl
    · intro g _
      exact payloadIfOk_panic

theorem invalid_payload {command : String} : Post (Logic.invalid env command) store (PayloadIfOk P) :=
  post_fail (payloadIfOk_plain (plainErrors_other _ : PlainErrors (.error _ : Except GoError Unit)) _ rfl)

/-- A command without a case is refused. -/
theorem dispatch_invalid {command : String}
    (reserved : isReservedCommand command = false ∨ command = create ∨ command = updateAsync)
    (absent : cnc.commands.find? (fun c => c.name = command) = none) :
    Logic.dispatch env pb cnc logic .forward args command = Logic.invalid env command := by
  rcases reserved with free | rfl | rfl
  · obtain ⟨hcreate, hread, hupdate, -, hdelete, hvalidateCreate, hvalidateUpdate, hrefreshInstance, hflushInstance,
      hrequestRelated, hrefreshRelated⟩ := not_reserved free
    unfold Logic.dispatch
    rw [if_neg hcreate, if_neg hread, if_neg hupdate, if_neg hdelete, if_neg hrefreshInstance, if_neg hflushInstance,
      if_neg hvalidateCreate, if_neg hvalidateUpdate, if_neg hrequestRelated, if_neg hrefreshRelated, absent]
  · unfold Logic.dispatch
    rw [if_pos rfl]
  · unfold Logic.dispatch
    rw [if_neg (by decide), if_neg (by decide), if_neg (by decide), if_neg (by decide), if_neg (by decide),
      if_neg (by decide), if_neg (by decide), if_neg (by decide), if_neg (by decide), if_neg (by decide), absent]

/-- What the payload of a command in a result with `OK` is. -/
structure PayloadOf (cnc : Concern M) (logic : LogicHandler M) (call : Call) (store store' : InstanceStore)
    (payload : Option Bytes) : Prop where
  served : (isReservedCommand call.command = true ∧ call.command ≠ create ∧ call.command ≠ updateAsync) ∨
    ∃ cmd, cnc.commands.find? (fun c => c.name = call.command) = some cmd
  read : call.command = Command.read →
    packPayloads call.args.inst (store.getRelated call.args.key) = payload ∧ payload.isSome = true
  refreshInstance : call.command = Command.refreshInstance → store'.getPacked call.args.key = some payload
  flushInstance : call.command = Command.flushInstance → store.getPacked call.args.key = some payload
  command : ∀ cmd, cnc.commands.find? (fun c => c.name = call.command) = some cmd →
    CommandPayload cnc logic cmd call.args store payload

theorem handleLogicCommand_payload {call : Call} {rslt : StepResult} {adds : List Step} {store' : InstanceStore}
    (forward : call.direction = .forward) (system : call.system = .process) (isOk : rslt.code = .ok)
    (h : cnc.handleLogicCommand env pb logic call store = ((some rslt, adds), store')) :
    PayloadOf cnc logic call store store' rslt.payload := by
  unfold Concern.handleLogicCommand finish at h
  rw [forward, system] at h
  simp only [reduceCtorEq, decide_false, Bool.false_and, Bool.false_eq_true, if_false, ne_eq, not_true_eq_false,
    Prod.mk.injEq] at h
  -- what is known of a case is known of the switch
  have ends : ∀ (m : Processing) {P : InstanceStore → Option Bytes → Prop},
      Logic.dispatch env pb cnc logic .forward call.args call.command = m → Post m store (PayloadIfOk P) →
      P store' rslt.payload := by
    intro m P case post
    rw [case] at h
    unfold Post PayloadIfOk at post
    rw [← h.2]
    exact post rslt (congrArg Prod.fst h.1) isOk
  constructor
  · cases found : cnc.commands.find? (fun c => c.name = call.command) with
    | some cmd => exact .inr ⟨cmd, rfl⟩
    | none =>
      left
      have served : ¬(isReservedCommand call.command = false ∨ call.command = create ∨ call.command = updateAsync) :=
        fun reserved => ends (P := fun _ _ => False) (Logic.invalid env call.command) (dispatch_invalid reserved found)
          invalid_payload
      rw [not_or, not_or, Bool.not_eq_false] at served
      exact served
  · intro command
    refine ends (Logic.read .forward call.args) ?_ read_payload
    rw [command]
    rfl
  · intro command
    refine ends (Logic.refreshInstance env pb cnc call.args) ?_ refreshInstance_payload
    rw [command]
    rfl
  · intro command
    refine ends (Logic.flushInstance call.args) ?_ flushInstance_payload
    rw [command]
    rfl
  · intro cmd found
    exact ends (Logic.command env pb cnc logic .forward call.args cmd) (dispatch_command found) command_payload

theorem handleCommand_payload {cc : ClientCode M} {call : Call} {plat plat' : Platform M} {rslt : StepResult}
    {adds : List Step} (forward : call.direction = .forward) (system : call.system = .process)
    (concern : cc.concernHandler call.concern = some cnc) (isOk : rslt.code = .ok)
    (h : handleCommand cc env logic call plat = ((some rslt, adds), plat')) :
    PayloadOf cnc logic call plat.instanceStore plat'.instanceStore rslt.payload := by
  unfold handleCommand at h
  rw [concern] at h
  dsimp only at h
  rw [if_pos system] at h
  rcases hl : cnc.handleLogicCommand env cc.pb logic call plat.instanceStore with ⟨⟨rslt', adds'⟩, store'⟩
  rw [hl] at h
  cases h
  exact handleLogicCommand_payload forward system isOk hl

end

end Rocketcycle
