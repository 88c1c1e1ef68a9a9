import Rocketcycle.Concern.Logic

/-!
# What process commands do

Every way a process command can end (`LogicEffect`): the result, the steps it adds, and what it
has written to the instance store. All that is proved of process commands is read off these cases.
-/

namespace Rocketcycle

open Command Early

variable {M : Type}

/-- A result that neither names a key nor holds an instance. -/
structure StepResult.Plain (r : StepResult) : Prop where
  inst : r.inst = none
  key : r.key = ""

/-- The commands that prepare a storage step or write to the store, the concern's own apart. -/
def writingCommands : List String :=
  [update, delete, refreshInstance, flushInstance, requestRelated, refreshRelated]

/-- The step that a process command hands on to storage. -/
def toStorage (concern command key : String) (payload : Option Bytes) : Step :=
  { system := .storage, concern := concern, command := command, key := key, payload := payload }

/-- The related data of `key` after a command that may have changed it. -/
def RelatedStored (store store' : InstanceStore) (key : String) (relBytes : Bytes) (o : CompoundOffset) : Prop :=
  store' = store ∨ store.setRelated key (some relBytes) o = .ok store'

section
variable (env : Env) (pb : RelatedCodecs) (cnc : Concern M) (logic : LogicHandler M) (command : String)
  (args : StepArgs) (store : InstanceStore)

inductive LogicEffect : Option StepResult → List Step → InstanceStore → Prop
  /-- Nothing is written and no step added: a failure, a read, a validation, or a command that
  leaves its instance as it is. -/
  | quiet (rslt : Option StepResult) (plain : ∀ r, rslt = some r → r.Plain)
      (other : ∀ r, rslt = some r → r.code = .ok → command ∉ writingCommands) : LogicEffect rslt [] store
  | update (payload : Bytes) (cmd : command = Command.update)
      (packed : packPayloads args.payload (store.getRelated args.key) = some payload) :
      LogicEffect (some { code := .ok }) [toStorage cnc.name Command.update args.key (some payload)] store
  | delete (payload : Option Bytes) (cmd : command = Command.delete)
      (packed : store.getPacked args.key = some payload) :
      LogicEffect (some { code := .ok }) [toStorage cnc.name Command.delete args.key payload] store
  /-- The cache is set from the payload. A panic on packing the record comes after that. -/
  | refreshInstance (rslt : Option StepResult) (inst relBytes : Option Bytes)
      (cmd : command = Command.refreshInstance) (parsed : parsePayload args.payload = .ok (inst, relBytes))
      (plain : ∀ r, rslt = some r → r.Plain) :
      LogicEffect rslt [] (store.set args.key inst (Logic.refreshedRelated store args.key relBytes) args.cmpdOffset)
  | flushInstance (r : StepResult) (cmd : command = Command.flushInstance) (isOk : r.code = .ok) (plain : r.Plain) :
      LogicEffect (some r) [] (store.remove args.key)
  | requestRelated (r : StepResult) (store' : InstanceStore) (relReq : RelatedRequest)
      (relBytes relPayload relRspBytes : Bytes) (cmd : command = Command.requestRelated)
      (stored : RelatedStored store store' args.key relBytes args.cmpdOffset)
      (packed : packPayloads args.inst (some relBytes) = some relPayload)
      (response : pb.response.marshal ⟨cnc.name, relReq.field, some relPayload⟩ = .ok relRspBytes)
      (rslt : r = { code := .ok, payload := some relRspBytes }) :
      LogicEffect (some r)
        [{ system := .process, concern := relReq.concern, command := Command.refreshRelated, key := relReq.key,
           payload := some relRspBytes, effectiveTime := some env.now }] store'
  | refreshRelated (store' : InstanceStore) (rel : M) (relBytes : Bytes) (payload : Option Bytes)
      (cmd : command = Command.refreshRelated)
      (stored : store.setRelated args.key (some relBytes) args.cmpdOffset = .ok store')
      (related : cnc.related.marshal rel = .ok relBytes)
      (packed : store'.getPacked args.key = some payload) :
      LogicEffect (some { code := .ok, payload := payload }) [] store'
  /-- The related data is written, but the command does not come to an end. -/
  | brokenOff (rslt : Option StepResult) (store' : InstanceStore) (relBytes : Bytes)
      (cmd : command = Command.requestRelated ∨ command = Command.refreshRelated)
      (stored : store.setRelated args.key (some relBytes) args.cmpdOffset = .ok store')
      (plain : ∀ r, rslt = some r → r.Plain) (notOk : ∀ r, rslt = some r → r.code ≠ .ok) :
      LogicEffect rslt [] store'
  /-- A command of the concern has changed the instance. -/
  | changed (cmd : ConcernCommand M) (r : StepResult) (addSteps : List Step) (old new : Bytes)
      (inst rel inst' : M) (input output : Option M) (mem : cmd ∈ cnc.commands) (name : cmd.name = command)
      (given : args.inst = some old) (parsed : cnc.unmarshal old = .ok inst)
      (ran : logic.command cmd.name inst rel input = .ok (inst', output))
      (written : cnc.marshal inst' = .ok new) (differs : new ≠ old) (rslt : r.inst = some new)
      (isOk : r.code = .ok) (key : r.key = "") (refreshes : ∀ s ∈ addSteps, s.IsRefresh cnc.name args.key) :
      LogicEffect (some r) addSteps (store.setInstance args.key (some new) args.cmpdOffset)

end

section
variable {env : Env} {pb : RelatedCodecs} {cnc : Concern M} {logic : LogicHandler M} {command : String}
  {args : StepArgs} {store : InstanceStore}

/-- The postcondition of every process command. -/
abbrev Effect (env : Env) (pb : RelatedCodecs) (cnc : Concern M) (logic : LogicHandler M) (command : String)
    (args : StepArgs) (store : InstanceStore) (r : Except Stop Answer) (store' : InstanceStore) : Prop :=
  LogicEffect env pb cnc logic command args store (answerOf r).1 (answerOf r).2 store'

theorem plain_default : ({} : StepResult).Plain := ⟨rfl, rfl⟩

theorem plain_setStepResult {rslt : StepResult} (h : rslt.Plain) (e : GoError) :
    (setStepResult env.sprintf rslt e).Plain := by
  cases e <;> exact ⟨h.inst, h.key⟩

/-- An early failure of a command that is allowed to fail with any code. -/
theorem effect_fail {rslt : StepResult} (plain : rslt.Plain) (e : GoError)
    (other : command ∉ writingCommands) :
    Effect env pb cnc logic command args store (.error (.fail (setStepResult env.sprintf rslt e))) store := by
  apply LogicEffect.quiet
  · rintro r ⟨⟩
    exact plain_setStepResult plain e
  · rintro r ⟨⟩ -
    exact other

/-- A plain error fails every command. -/
theorem effect_plain_fail {α : Type} {rslt : StepResult} {x : Except GoError α} {e : GoError}
    (plain : rslt.Plain) (errors : PlainErrors x) (he : x = .error e) :
    Effect env pb cnc logic command args store (.error (.fail (setStepResult env.sprintf rslt e))) store := by
  obtain ⟨msg, rfl⟩ := errors e he
  apply LogicEffect.quiet
  · rintro r ⟨⟩
    exact plain_setStepResult plain _
  · rintro r ⟨⟩ hc
    cases hc

theorem effect_panic : Effect env pb cnc logic command args store (.error .panic) store := by
  apply LogicEffect.quiet <;> (rintro r ⟨⟩)

/-- A result that stays as it was made. -/
theorem effect_done {rslt : StepResult} (plain : rslt.Plain) (other : command ∉ writingCommands) :
    Effect env pb cnc logic command args store (.ok (rslt, [])) store := by
  apply LogicEffect.quiet
  · rintro r ⟨⟩
    split
    · exact ⟨plain.inst, plain.key⟩
    · exact plain
  · rintro r ⟨⟩ -
    exact other

theorem read_effect {direction : Direction} (cmd : command = Command.read) :
    Post (Logic.read direction args) store (Effect env pb cnc logic command args store) := by
  have other : command ∉ writingCommands := by rw [cmd]; decide
  unfold Logic.read
  apply post_ite
  · intro _
    apply post_get_bind
    apply post_orPanic_bind
    · intro payload _
      exact post_pure (effect_done ⟨rfl, rfl⟩ other)
    · intro _
      exact effect_panic
  · intro _
    exact post_pure (effect_done plain_default other)

theorem update_effect (cmd : command = Command.update) :
    Post (Logic.update cnc args) store (Effect env pb cnc logic command args store) := by
  unfold Logic.update
  apply post_get_bind
  apply post_orPanic_bind
  · intro payload hp
    exact post_pure (.update payload cmd hp)
  · intro _
    exact effect_panic

/-- Packing a record of the store, which may panic. -/
theorem post_getPacked_bind {β : Type} {key : String} {f : Option Bytes → Handling InstanceStore β}
    {Q : Except Stop β → InstanceStore → Prop}
    (ok : ∀ packed, store.getPacked key = some packed → Post (f packed) store Q)
    (panic : Q (.error .panic) store) : Post (Logic.getPacked key >>= f) store Q := by
  apply post_bind
  unfold Logic.getPacked
  apply post_get_bind
  cases h : store.getPacked key with
  | some packed => exact ok packed h
  | none => exact panic

theorem delete_effect (cmd : command = Command.delete) :
    Post (Logic.delete cnc args) store (Effect env pb cnc logic command args store) := by
  unfold Logic.delete
  apply post_getPacked_bind
  · intro packed hp
    exact post_pure (.delete packed cmd hp)
  · exact effect_panic

/-- Without an instance, as a step of the instance store is called, no relation is refreshed. -/
theorem refreshInstance_effect (cmd : command = Command.refreshInstance) (noInst : args.inst = none) :
    Post (Logic.refreshInstance env pb cnc args) store (Effect env pb cnc logic command args store) := by
  unfold Logic.refreshInstance
  apply post_orFail_bind
  · rintro ⟨inst, relBytes⟩ parsed
    apply post_orFail_bind
    · intro rel _
      unfold Logic.storeInstance
      rw [noInst]
      apply post_get_bind
      apply post_orStop_bind
      · rintro relSteps ⟨⟩
        apply post_modify_bind
        apply post_getPacked_bind
        · intro packed _
          apply post_pure
          apply LogicEffect.refreshInstance _ inst relBytes cmd parsed
          rintro r ⟨⟩
          exact ⟨rfl, rfl⟩
        · apply LogicEffect.refreshInstance _ inst relBytes cmd parsed
          rintro r ⟨⟩
      · rintro e ⟨⟩
      · rintro g ⟨⟩
    · intro e he
      exact effect_plain_fail plain_default (cnc.parseRelated_plain _) he
  · intro e he
    exact effect_plain_fail plain_default (parsePayload_plain _) he

theorem flushInstance_effect (cmd : command = Command.flushInstance) :
    Post (Logic.flushInstance args) store (Effect env pb cnc logic command args store) := by
  unfold Logic.flushInstance
  apply post_getPacked_bind
  · intro packed hp
    cases packed with
    | some packed => exact post_pure (.flushInstance _ cmd rfl ⟨rfl, rfl⟩)
    | none =>
      have absent : store.remove args.key = store := by
        funext k
        by_cases e : k = args.key
        · subst e
          unfold InstanceStore.getPacked at hp
          cases hk : store args.key with
          | some rec => rw [hk] at hp; cases h : packPayloads rec.inst rec.related <;> simp [h] at hp
          | none => simp [InstanceStore.remove]
        · exact InstanceStore.remove_ne e
      have flushed : LogicEffect env pb cnc logic command args store (some { code := .ok }) []
          (store.remove args.key) := .flushInstance _ cmd rfl ⟨rfl, rfl⟩
      rw [absent] at flushed
      exact post_pure flushed
  · exact effect_panic

theorem validateCreate_effect {direction : Direction} (cmd : command = Command.validateCreate) :
    Post (Logic.validateCreate env cnc logic direction args) store
      (Effect env pb cnc logic command args store) := by
  have other : command ∉ writingCommands := by rw [cmd]; decide
  unfold Logic.validateCreate
  apply post_ite
  · intro _
    apply post_orFail_bind
    · intro payloadIn _
      apply post_orStop_bind
      · intro payloadOut _
        apply post_orFail_bind
        · intro payload _
          exact post_pure (effect_done ⟨rfl, rfl⟩ other)
        · intro e _
          exact effect_fail plain_default e other
      · intro e _
        exact effect_fail plain_default e other
      · intro g _
        exact effect_panic
    · intro e _
      exact effect_fail plain_default e other
  · intro _
    exact post_pure (effect_done plain_default other)

theorem validateUpdate_effect {direction : Direction} (cmd : command = Command.validateUpdate) :
    Post (Logic.validateUpdate env cnc logic direction args) store
      (Effect env pb cnc logic command args store) := by
  have other : command ∉ writingCommands := by rw [cmd]; decide
  have fail : ∀ e, Effect env pb cnc logic command args store
      (.error (.fail (setStepResult env.sprintf {} e))) store := fun e => effect_fail plain_default e other
  unfold Logic.validateUpdate
  apply post_ite
  · intro _
    cases args.inst with
    | none => exact post_fail (fail _)
    | some instBytes =>
      apply post_orFail_bind
      · intro inst _
        apply post_orFail_bind
        · intro payloadIn _
          apply post_orFail_bind
          · intro _ _
            apply post_orStop_bind
            · intro payloadOut _
              apply post_orFail_bind
              · intro payload _
                exact post_pure (effect_done ⟨rfl, rfl⟩ other)
              · intro e _
                exact fail e
            · intro e _
              exact fail e
            · intro g _
              exact effect_panic
          · intro e _
            exact fail e
        · intro e _
          exact fail e
      · intro e _
        exact fail e
  · intro _
    exact post_pure (effect_done plain_default other)

/-! ## Related data -/

theorem RelatedField.take_plain (fld : RelatedField M) (rel : M) (payload : Option Bytes) :
    PlainErrors (fld.take rel payload) := by
  apply (unpackPayloads_plain payload).bind
  rintro ⟨instBytes, _⟩
  apply (fld.typeMsg.unmarshalOpt_plain instBytes).bind
  intro inst
  exact plainErrors_ok _

theorem handleRequestRelated_plain (cnc : Concern M) (rel : M) (relReq : RelatedRequest) :
    PlainErrors (cnc.handleRequestRelated rel relReq) := by
  unfold Concern.handleRequestRelated
  split
  · split
    · exact plainErrors_other _
    · split
      · exact (RelatedField.take_plain _ _ _).map _
      · exact plainErrors_other _
  · exact plainErrors_ok _

theorem handleRefreshRelated_plain (cnc : Concern M) (rel : M) (relRsp : RelatedResponse) :
    PlainErrors (cnc.handleRefreshRelated rel relRsp) := by
  unfold Concern.handleRefreshRelated
  split
  · exact plainErrors_other _
  · split
    · exact (RelatedField.take_plain _ _ _).map _
    · exact plainErrors_other _

/-- A refresh that goes through always counts as a change. -/
theorem handleRefreshRelated_changed {cnc : Concern M} {rel rel' : M} {relRsp : RelatedResponse} {changed : Bool}
    (h : cnc.handleRefreshRelated rel relRsp = .ok (rel', changed)) : changed = true := by
  unfold Concern.handleRefreshRelated at h
  split at h
  · cases h
  · rename_i fld _
    split at h
    · cases ht : fld.take rel relRsp.payload with
      | error e => rw [ht] at h; cases h
      | ok r => rw [ht] at h; cases h; rfl
    · cases h

theorem getRelated_plain (cnc : Concern M) (key : String) : PlainErrors (cnc.getRelated key store) := by
  unfold Concern.getRelated
  split
  · exact plainErrors_ok _
  · exact (cnc.related.unmarshal_plain _).map _

theorem setRelated_plain (key : String) (rel : Option Bytes) (o : CompoundOffset) :
    PlainErrors (store.setRelated key rel o) := by
  unfold InstanceStore.setRelated
  split
  · split
    · exact plainErrors_ok _
    · exact plainErrors_ok _
  · exact plainErrors_other _

theorem post_storeRelated_bind {β : Type} {relBytes : Bytes} {changed : Bool} {f : Unit → Handling InstanceStore β}
    {Q : Except Stop β → InstanceStore → Prop}
    (kept : changed = false → Post (f ()) store Q)
    (stored : ∀ store', changed = true → store.setRelated args.key (some relBytes) args.cmpdOffset = .ok store' →
      Post (f ()) store' Q)
    (fail : ∀ e, store.setRelated args.key (some relBytes) args.cmpdOffset = .error e →
      Q (.error (.fail (setStepResult env.sprintf {} e))) store) :
    Post (Logic.storeRelated env args relBytes changed >>= f) store Q := by
  apply post_bind
  unfold Logic.storeRelated
  apply post_ite
  · intro hc
    apply post_get_bind
    apply post_orFail_bind
    · intro store' hs
      exact stored store' hc hs
    · intro e he
      exact fail e he
  · intro hc
    exact kept (by simpa using hc)

theorem requestRelated_effect (cmd : command = Command.requestRelated) :
    Post (Logic.requestRelated env pb cnc .forward args) store
      (Effect env pb cnc logic command args store) := by
  unfold Logic.requestRelated
  rw [if_pos rfl]
  apply post_orFail_bind
  swap
  · intro e he
    exact effect_plain_fail plain_default (pb.request.unmarshalOpt_plain _) he
  intro relReq _
  apply post_get_bind
  apply post_orFail_bind
  swap
  · intro e he
    exact effect_plain_fail plain_default (getRelated_plain cnc _) he
  rintro ⟨rel, _⟩ _
  apply post_orFail_bind
  swap
  · intro e he
    exact effect_plain_fail plain_default (handleRequestRelated_plain cnc _ _) he
  rintro ⟨rel', changed⟩ _
  apply post_orFail_bind
  swap
  · intro e he
    exact effect_plain_fail plain_default (cnc.related.marshal_plain _) he
  intro relBytes _
  apply post_orPanic_bind
  swap
  · intro _
    exact effect_panic
  intro relPayload packed
  apply post_storeRelated_bind
  · intro _
    apply post_orFail_bind
    · intro relRspBytes response
      exact post_pure (.requestRelated _ _ relReq relBytes relPayload relRspBytes cmd (.inl rfl) packed response rfl)
    · intro e he
      exact effect_plain_fail plain_default (pb.response.marshal_plain _) he
  · intro store' _ stored
    apply post_orFail_bind
    · intro relRspBytes response
      exact post_pure (.requestRelated _ _ relReq relBytes relPayload relRspBytes cmd (.inr stored) packed response rfl)
    · intro e he
      obtain ⟨msg, rfl⟩ := pb.response.marshal_plain _ e he
      apply LogicEffect.brokenOff _ store' relBytes (.inl cmd) stored
      · rintro r ⟨⟩
        exact plain_setStepResult plain_default _
      · rintro r ⟨⟩ hc
        cases hc
  · intro e he
    exact effect_plain_fail plain_default (setRelated_plain _ _ _) he

theorem refreshRelated_effect (cmd : command = Command.refreshRelated) :
    Post (Logic.refreshRelated env pb cnc .forward args) store
      (Effect env pb cnc logic command args store) := by
  unfold Logic.refreshRelated
  rw [if_pos rfl]
  apply post_orFail_bind
  swap
  · intro e he
    exact effect_plain_fail plain_default (pb.response.unmarshalOpt_plain _) he
  intro relRsp _
  apply post_get_bind
  apply post_orFail_bind
  swap
  · intro e he
    exact effect_plain_fail plain_default (getRelated_plain cnc _) he
  rintro ⟨rel, _⟩ _
  apply post_orFail_bind
  swap
  · intro e he
    exact effect_plain_fail plain_default (handleRefreshRelated_plain cnc _ _) he
  rintro ⟨rel', changed⟩ handled
  apply post_orFail_bind
  swap
  · intro e he
    exact effect_plain_fail plain_default (cnc.related.marshal_plain _) he
  intro relBytes related
  apply post_storeRelated_bind
  · intro hc
    rw [handleRefreshRelated_changed handled] at hc
    cases hc
  · intro store' _ stored
    apply post_getPacked_bind
    · intro payload packed
      exact post_pure (.refreshRelated store' rel' relBytes payload cmd stored related packed)
    · apply LogicEffect.brokenOff _ store' relBytes (.inr cmd) stored <;> (rintro r ⟨⟩)
  · intro e he
    exact effect_plain_fail plain_default (setRelated_plain _ _ _) he

/-! ## The concern's own commands -/

theorem post_commandInput_bind {β : Type} {cmd : ConcernCommand M} {f : Option M → Handling InstanceStore β}
    {Q : Except Stop β → InstanceStore → Prop} (ok : ∀ input, Post (f input) store Q)
    (fail : ∀ e, Q (.error (.fail (setStepResult env.sprintf {} e))) store) :
    Post (Logic.commandInput env args cmd >>= f) store Q := by
  apply post_bind
  unfold Logic.commandInput
  split
  · exact ok none
  · apply post_orFail_bind
    · intro payloadIn _
      exact ok (some payloadIn)
    · intro e _
      exact fail e

theorem post_commandOutput_bind {β : Type} {cmd : ConcernCommand M} {payloadOut : Option M}
    {f : StepResult → Handling InstanceStore β} {Q : Except Stop β → InstanceStore → Prop}
    (ok : ∀ payload, Post (f { payload := payload }) store Q)
    (fail : ∀ e, Q (.error (.fail (setStepResult env.sprintf {} e))) store) :
    Post (Logic.commandOutput env cmd payloadOut >>= f) store Q := by
  apply post_bind
  unfold Logic.commandOutput
  split
  · exact ok none
  · apply post_orFail_bind
    · intro payload _
      exact ok payload
    · intro e _
      exact fail e

theorem storeChanged_effect {cmd : ConcernCommand M} {payload : Option Bytes} {old new : Bytes}
    {inst rel inst' : M} {input output : Option M} (mem : cmd ∈ cnc.commands) (name : cmd.name = command)
    (given : args.inst = some old) (parsed : cnc.unmarshal old = .ok inst)
    (ran : logic.command cmd.name inst rel input = .ok (inst', output))
    (written : cnc.marshal inst' = .ok new) (differs : new ≠ old) (other : command ∉ writingCommands) :
    Post (Logic.storeChanged env pb cnc args { payload := payload } new) store
      (Effect env pb cnc logic command args store) := by
  unfold Logic.storeChanged
  apply post_get_bind
  apply post_orFail_bind
  swap
  · intro e _
    exact effect_fail ⟨rfl, rfl⟩ e other
  rintro ⟨rel', relBytes⟩ _
  apply post_orStop_bind
  · intro relSteps hsteps
    apply post_modify_bind
    apply post_pure
    exact LogicEffect.changed cmd _ relSteps old new inst rel inst' input output mem name given parsed ran written
      differs rfl rfl rfl (refreshRelatedSteps_all hsteps)
  · intro e _
    exact effect_fail ⟨rfl, rfl⟩ e other
  · intro g _
    exact effect_panic

theorem command_effect {cmd : ConcernCommand M} (mem : cmd ∈ cnc.commands) (name : cmd.name = command) :
    Post (Logic.command env pb cnc logic .forward args cmd) store
      (Effect env pb cnc logic command args store) := by
  have other : command ∉ writingCommands := by
    have free := not_reserved (cnc.commands_free cmd mem)
    rw [name] at free
    simp [writingCommands, free]
  have fail : ∀ e, Effect env pb cnc logic command args store
      (.error (.fail (setStepResult env.sprintf {} e))) store := fun e => effect_fail plain_default e other
  unfold Logic.command
  rw [if_pos rfl]
  cases given : args.inst with
  | none => exact post_fail (fail _)
  | some instBytes =>
    apply post_orFail_bind
    swap
    · intro e _
      exact fail e
    intro inst parsed
    apply post_get_bind
    apply post_orFail_bind
    swap
    · intro e _
      exact fail e
    rintro ⟨rel, _⟩ _
    apply post_commandInput_bind _ fail
    intro payloadIn
    apply post_orStop_bind
    · rintro ⟨inst', payloadOut⟩ ran
      apply post_commandOutput_bind _ fail
      intro payload
      apply post_orFail_bind
      · intro instSer written
        apply post_ite
        · intro differs
          exact storeChanged_effect mem name given parsed ran written differs other
        · intro _
          exact post_pure (effect_done ⟨rfl, rfl⟩ other)
      · intro e _
        exact effect_fail ⟨rfl, rfl⟩ e other
    · intro e _
      exact fail e
    · intro g _
      exact effect_panic

/-! ## The switch -/

theorem invalid_effect (cmd : String) :
    Post (Logic.invalid env cmd) store (Effect env pb cnc logic command args store) :=
  post_fail (effect_plain_fail plain_default (plainErrors_other _ : PlainErrors (.error _ : Except GoError Unit)) rfl)

theorem dispatch_effect (noInst : command = Command.refreshInstance → args.inst = none) :
    Post (Logic.dispatch env pb cnc logic .forward args command) store
      (Effect env pb cnc logic command args store) := by
  unfold Logic.dispatch
  apply post_ite (fun _ => invalid_effect _)
  intro _
  apply post_ite read_effect
  intro _
  apply post_ite update_effect
  intro _
  apply post_ite delete_effect
  intro _
  apply post_ite (fun cmd => refreshInstance_effect cmd (noInst cmd))
  intro _
  apply post_ite flushInstance_effect
  intro _
  apply post_ite validateCreate_effect
  intro _
  apply post_ite validateUpdate_effect
  intro _
  apply post_ite requestRelated_effect
  intro _
  apply post_ite refreshRelated_effect
  intro _
  split
  · rename_i cmd hfind
    exact command_effect (List.mem_of_find?_eq_some hfind) (by simpa using List.find?_some hfind)
  · exact invalid_effect _

/-- A forward process call ends in one of the cases. -/
theorem handleLogicCommand_effect {call : Call} {rslt : Option StepResult} {addSteps : List Step}
    {store' : InstanceStore} (forward : call.direction = .forward) (system : call.system = .process)
    (noInst : call.command = Command.refreshInstance → call.args.inst = none)
    (h : cnc.handleLogicCommand env pb logic call store = ((rslt, addSteps), store')) :
    LogicEffect env pb cnc logic call.command call.args store rslt addSteps store' := by
  have ends : Post (Logic.dispatch env pb cnc logic .forward call.args call.command) store
      (Effect env pb cnc logic call.command call.args store) := dispatch_effect noInst
  unfold Concern.handleLogicCommand finish at h
  rw [forward, system] at h
  simp only [reduceCtorEq, decide_false, Bool.false_and, Bool.false_eq_true, if_false, ne_eq, not_true_eq_false,
    Prod.mk.injEq] at h
  unfold Post Effect at ends
  rw [h.1, h.2] at ends
  exact ends

end

end Rocketcycle
