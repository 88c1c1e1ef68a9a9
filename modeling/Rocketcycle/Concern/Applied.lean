import Rocketcycle.Concern.CrudEffects

/-!
# What a user's command does

The commands of a concern that end with `OK`, with the application of the registered logic behind
each of them (`Applied`), and the result of applying it.
-/

namespace Rocketcycle

open Command Early

variable {M : Type}

/-- The input of a command as it is read from a payload. -/
def ConcernCommand.parse (cmd : ConcernCommand M) (payload : Option Bytes) : Except GoError (Option M) :=
  match cmd.input with
  | none => .ok none
  | some input => (input.unmarshalOpt payload).map some

/-- What a command makes of an instance. An error with the code `OK` is no failure of the step, and
leaves the instance as it is. -/
def LogicHandler.apply (logic : LogicHandler M) (command : String) (inst rel : M) (input : Option M) : Option M :=
  match logic.command command inst rel input with
  | .ok (inst', _) => some inst'
  | .error (.err e) => if e.code = .ok then some inst else none
  | .error (.panic _) => none

section
variable (pb : RelatedCodecs) (cnc : Concern M) (logic : LogicHandler M) (cmd : ConcernCommand M)
  (args : StepArgs) (store : InstanceStore)

/-- How a command ends that ends with `OK`. -/
inductive Applied (r : StepResult) (adds : List Step) : InstanceStore → Prop
  /-- The instance is as it was. -/
  | kept (old : Bytes) (inst inst' rel : M) (input : Option M) (given : args.inst = some old)
      (parsed : cnc.unmarshal old = .ok inst) (parse : cmd.parse args.payload = .ok input)
      (applied : logic.apply cmd.name inst rel input = some inst')
      (same : inst' = inst ∨ cnc.marshal inst' = .ok old) (noInst : r.inst = none) (adds_nil : adds = []) :
      Applied r adds store
  | changed (old new : Bytes) (inst inst' rel rel' : M) (input : Option M) (relBytes : Option Bytes)
      (given : args.inst = some old) (parsed : cnc.unmarshal old = .ok inst)
      (parse : cmd.parse args.payload = .ok input)
      (applied : logic.apply cmd.name inst rel input = some inst') (written : cnc.marshal inst' = .ok new)
      (differs : new ≠ old) (rsltInst : r.inst = some new)
      (refreshes : cnc.refreshRelatedSteps pb rel' args.key (some new) relBytes = .ok adds) :
      Applied r adds (store.setInstance args.key (some new) args.cmpdOffset)

end

section
variable {env : Env} {pb : RelatedCodecs} {cnc : Concern M} {logic : LogicHandler M} {cmd : ConcernCommand M}
  {args : StepArgs} {store : InstanceStore}

/-- The postcondition of a command: it has been applied if the result is `OK`. -/
def AppliedIfOk (pb : RelatedCodecs) (cnc : Concern M) (logic : LogicHandler M) (cmd : ConcernCommand M)
    (args : StepArgs) (store : InstanceStore) (r : Except Stop Answer) (store' : InstanceStore) : Prop :=
  ∀ rslt, (answerOf r).1 = some rslt → rslt.code = .ok →
    Applied pb cnc logic cmd args store rslt (answerOf r).2 store'

theorem appliedIfOk_fail {rslt : StepResult} {e : GoError} (notOk : e.code ≠ .ok) {store' : InstanceStore} :
    AppliedIfOk pb cnc logic cmd args store (.error (.fail (setStepResult env.sprintf rslt e))) store' := by
  rintro r ⟨⟩ isOk
  rw [setStepResult_code] at isOk
  exact absurd isOk notOk

theorem appliedIfOk_plain {α : Type} {x : Except GoError α} (errors : PlainErrors x) {rslt : StepResult}
    {store' : InstanceStore} :
    ∀ e, x = .error e →
      AppliedIfOk pb cnc logic cmd args store (.error (.fail (setStepResult env.sprintf rslt e))) store' := by
  intro e he
  obtain ⟨msg, rfl⟩ := errors e he
  apply appliedIfOk_fail
  simp [GoError.code]

theorem appliedIfOk_panic {store' : InstanceStore} :
    AppliedIfOk pb cnc logic cmd args store (.error .panic) store' := by
  rintro r ⟨⟩

theorem parse_plain (payload : Option Bytes) : PlainErrors (cmd.parse payload) := by
  unfold ConcernCommand.parse
  split
  · exact plainErrors_ok none
  · exact (Codec.unmarshalOpt_plain _ _).map some

theorem commandInput_eq : Logic.commandInput env args cmd = orFail env {} (cmd.parse args.payload) := by
  unfold Logic.commandInput ConcernCommand.parse
  cases cmd.input with
  | none => rfl
  | some input =>
    dsimp only
    cases input.unmarshalOpt args.payload <;> rfl

theorem refreshRelatedSteps_plain {rel : M} {instKey : String} {instBytes relBytes : Option Bytes} {e : GoError}
    (h : cnc.refreshRelatedSteps pb rel instKey instBytes relBytes = .error (.err e)) : ∃ msg, e = .other msg := by
  have field : ∀ {payload : Bytes} {fld : RelatedField M} {relField : String} {items : List M},
      refreshFieldSteps pb cnc.name payload fld relField items = .error (.err e) → ∃ msg, e = .other msg := by
    intro payload fld relField items hf
    obtain ⟨itm, -, hstep⟩ := mapM_error hf
    cases hm : pb.response.marshal ⟨cnc.name, relField, some payload⟩ with
    | error e' =>
      rw [hm] at hstep
      cases hstep
      exact pb.response.marshal_plain _ _ hm
    | ok b => rw [hm] at hstep; cases hstep
  have fields : ∀ {payload : Bytes} (flds : List (RelatedField M)) (steps : List Step),
      refreshFieldsSteps pb cnc.name instKey payload rel flds steps = .error (.err e) → ∃ msg, e = .other msg := by
    intro payload flds
    induction flds with
    | nil =>
      intro steps hs
      cases hs
    | cons fld flds ih =>
      intro steps hs
      unfold refreshFieldsSteps at hs
      split at hs
      · exact ih _ hs
      rename_i relField _
      cases hf : refreshFieldSteps pb cnc.name payload fld relField (fld.get rel) with
      | error t =>
        rw [hf] at hs
        cases hs
        exact field hf
      | ok more =>
        rw [hf] at hs
        exact ih _ hs
  unfold Concern.refreshRelatedSteps at h
  split at h
  · cases hp : packOrPanic instBytes relBytes with
    | error t =>
      rw [hp] at h
      unfold packOrPanic at hp
      split at hp <;> cases hp
      cases h
    | ok payload =>
      rw [hp] at h
      exact fields _ _ h
  · cases h

theorem storeChanged_applied {payload : Option Bytes} {old new : Bytes} {inst inst' rel : M} {input : Option M}
    (given : args.inst = some old) (parsed : cnc.unmarshal old = .ok inst) (parse : cmd.parse args.payload = .ok input)
    (applied : logic.apply cmd.name inst rel input = some inst') (written : cnc.marshal inst' = .ok new)
    (differs : new ≠ old) :
    Post (Logic.storeChanged env pb cnc args { payload := payload } new) store
      (AppliedIfOk pb cnc logic cmd args store) := by
  unfold Logic.storeChanged
  apply post_get_bind
  apply post_orFail_bind
  swap
  · exact appliedIfOk_plain (getRelated_plain cnc _)
  rintro ⟨rel', relBytes⟩ -
  apply post_orStop_bind
  · intro relSteps hsteps
    apply post_modify_bind
    apply post_pure
    rintro r ⟨⟩ -
    exact .changed old new inst inst' rel rel' input relBytes given parsed parse applied written differs rfl hsteps
  · intro e he
    obtain ⟨msg, rfl⟩ := refreshRelatedSteps_plain he
    exact appliedIfOk_fail (by simp [GoError.code])
  · intro g _
    exact appliedIfOk_panic

theorem command_applied :
    Post (Logic.command env pb cnc logic .forward args cmd) store (AppliedIfOk pb cnc logic cmd args store) := by
  unfold Logic.command
  rw [if_pos rfl]
  cases given : args.inst with
  | none => exact post_fail (appliedIfOk_fail (by simp [GoError.code]))
  | some old =>
    apply post_orFail_bind
    swap
    · exact appliedIfOk_plain (cnc.unmarshal_plain _)
    intro inst parsed
    apply post_get_bind
    apply post_orFail_bind
    swap
    · exact appliedIfOk_plain (getRelated_plain cnc _)
    rintro ⟨rel, _⟩ -
    rw [commandInput_eq]
    apply post_orFail_bind
    swap
    · exact appliedIfOk_plain (parse_plain _)
    intro input parse
    apply post_orStop_bind
    · rintro ⟨inst', payloadOut⟩ ran
      have applied : logic.apply cmd.name inst rel input = some inst' := by simp [LogicHandler.apply, ran]
      apply post_bind
      have outputs : ∀ Q : Except Stop StepResult → InstanceStore → Prop,
          (∀ payload, Q (.ok { payload := payload }) store) →
          (∀ e, (∃ msg, e = .other msg) → Q (.error (.fail (setStepResult env.sprintf {} e))) store) →
          Post (Logic.commandOutput env cmd payloadOut) store Q := by
        intro Q ok fail
        unfold Logic.commandOutput
        split
        · exact post_pure (ok none)
        · apply post_orFail_bind
          · intro payload _
            exact post_pure (ok payload)
          · intro e he
            exact fail e (Codec.marshalOpt_plain _ _ e he)
      apply outputs
      · intro payload
        apply post_orFail_bind
        · intro new written
          apply post_ite
          · intro differs
            exact storeChanged_applied given parsed parse applied written differs
          · intro same
            rw [ne_eq, not_not] at same
            apply post_pure
            rintro r ⟨⟩ -
            exact .kept old inst inst' rel input given parsed parse applied (.inr (same ▸ written)) rfl rfl
        · exact appliedIfOk_plain (cnc.marshal_plain _)
      · rintro e ⟨msg, rfl⟩
        exact appliedIfOk_fail (by simp [GoError.code])
    · intro e he
      rintro r ⟨⟩ isOk
      rw [setStepResult_code] at isOk
      have applied : logic.apply cmd.name inst rel input = some inst := by simp [LogicHandler.apply, he, isOk]
      exact .kept old inst inst rel input given parsed parse applied (.inl rfl) (by simp) rfl
    · intro g _
      exact appliedIfOk_panic

/-- The name of a command leads past the platform's own to its case. -/
theorem dispatch_command {direction : Direction} {command : String}
    (found : cnc.commands.find? (fun c => c.name = command) = some cmd) :
    Logic.dispatch env pb cnc logic direction args command = Logic.command env pb cnc logic direction args cmd := by
  have name : cmd.name = command := by simpa using List.find?_some found
  obtain ⟨hcreate, hread, hupdate, -, hdelete, hvalidateCreate, hvalidateUpdate, hrefreshInstance, hflushInstance,
    hrequestRelated, hrefreshRelated⟩ := not_reserved (name ▸ cnc.commands_free cmd (List.mem_of_find?_eq_some found))
  unfold Logic.dispatch
  rw [if_neg hcreate, if_neg hread, if_neg hupdate, if_neg hdelete, if_neg hrefreshInstance, if_neg hflushInstance,
    if_neg hvalidateCreate, if_neg hvalidateUpdate, if_neg hrequestRelated, if_neg hrefreshRelated, found]

/-- A call of a user's command that ends with `OK` has applied it. -/
theorem handleLogicCommand_applied {call : Call} {rslt : StepResult} {adds : List Step} {store' : InstanceStore}
    (forward : call.direction = .forward) (system : call.system = .process)
    (found : cnc.commands.find? (fun c => c.name = call.command) = some cmd) (isOk : rslt.code = .ok)
    (h : cnc.handleLogicCommand env pb logic call store = ((some rslt, adds), store')) :
    Applied pb cnc logic cmd call.args store rslt adds store' := by
  have dispatch : Logic.dispatch env pb cnc logic .forward call.args call.command =
      Logic.command env pb cnc logic .forward call.args cmd := dispatch_command found
  have ends : Post (Logic.command env pb cnc logic .forward call.args cmd) store
      (AppliedIfOk pb cnc logic cmd call.args store) := command_applied
  unfold Concern.handleLogicCommand finish at h
  rw [forward, system] at h
  simp only [reduceCtorEq, decide_false, Bool.false_and, Bool.false_eq_true, if_false, ne_eq, not_true_eq_false,
    Prod.mk.injEq, dispatch] at h
  unfold Post AppliedIfOk at ends
  rw [h.1, h.2] at ends
  exact ends rslt rfl isOk

theorem handleCommand_applied {cc : ClientCode M} {call : Call} {plat plat' : Platform M} {rslt : StepResult}
    {adds : List Step} (forward : call.direction = .forward) (system : call.system = .process)
    (concern : cc.concernHandler call.concern = some cnc)
    (found : cnc.commands.find? (fun c => c.name = call.command) = some cmd) (isOk : rslt.code = .ok)
    (h : handleCommand cc env logic call plat = ((some rslt, adds), plat')) :
    Applied cc.pb cnc logic cmd call.args plat.instanceStore rslt adds plat'.instanceStore ∧
      plat'.ramDbs = plat.ramDbs := by
  unfold handleCommand at h
  rw [concern] at h
  dsimp only at h
  rw [if_pos system] at h
  rcases hl : cnc.handleLogicCommand env cc.pb logic call plat.instanceStore with ⟨⟨rslt', adds'⟩, store'⟩
  rw [hl] at h
  cases h
  exact ⟨handleLogicCommand_applied forward system found isOk hl, rfl⟩

/-! ## Where the refreshes of a change go -/

/-- A step that refreshes an instance's relations is one for the type of a field that knows it. -/
def Step.Refreshes (s : Step) (cnc : Concern M) : Prop :=
  s.command = refreshRelated ∧ ∃ fld ∈ cnc.related.fields, fld.relField.isSome = true ∧ s.concern = fld.typeMsg.name

theorem refreshFieldsSteps_fields {concern instKey : String} {payload : Bytes} {rel : M} {P : Step → Prop}
    (isRead : P { system := .process, concern := concern, command := read, key := instKey }) :
    ∀ {fields : List (RelatedField M)} {steps steps' : List Step},
      refreshFieldsSteps pb concern instKey payload rel fields steps = .ok steps' →
      (∀ fld ∈ fields, ∀ relField, fld.relField = some relField → ∀ more,
        refreshFieldSteps pb concern payload fld relField (fld.get rel) = .ok more → ∀ s ∈ more, P s) →
      (∀ s ∈ steps, P s) → ∀ s ∈ steps', P s
  | [], steps, steps', h, _, before => by
    cases h
    exact before
  | fld :: fields, steps, steps', h, each, before => by
    have rest := fun fld' (hfld : fld' ∈ fields) => each fld' (List.mem_cons_of_mem _ hfld)
    unfold refreshFieldsSteps at h
    split at h
    · exact refreshFieldsSteps_fields isRead h rest before
    rename_i relField hrel
    cases hf : refreshFieldSteps pb concern payload fld relField (fld.get rel) with
    | error e => rw [hf] at h; cases h
    | ok more =>
      rw [hf] at h
      have here := each fld List.mem_cons_self relField hrel more hf
      have both : ∀ s ∈ steps ++ more, P s := by
        intro s hs
        rcases List.mem_append.1 hs with hs | hs
        · exact before s hs
        · exact here s hs
      apply refreshFieldsSteps_fields isRead h rest
      intro s hs
      split at hs
      · rcases List.mem_append.1 hs with hs | hs
        · exact both s hs
        · rw [List.mem_singleton.1 hs]
          exact isRead
      · exact both s hs

theorem refreshRelatedSteps_fields {rel : M} {instKey : String} {instBytes relBytes : Option Bytes} {steps : List Step}
    (h : cnc.refreshRelatedSteps pb rel instKey instBytes relBytes = .ok steps) :
    ∀ s ∈ steps, s.system = .process ∧ s.result = none ∧ s.cmpdOffset = none ∧
      (s.Refreshes cnc ∨ s.command = read ∧ s.concern = cnc.name ∧ s.key = instKey) := by
  unfold Concern.refreshRelatedSteps at h
  split at h
  · cases hp : packOrPanic instBytes relBytes with
    | error e => rw [hp] at h; cases h
    | ok payload =>
      rw [hp] at h
      refine refreshFieldsSteps_fields (P := fun s => s.system = .process ∧ s.result = none ∧ s.cmpdOffset = none ∧
        (s.Refreshes cnc ∨ s.command = read ∧ s.concern = cnc.name ∧ s.key = instKey)) ?_ h ?_ (by simp)
      · exact ⟨rfl, rfl, rfl, .inr ⟨rfl, rfl, rfl⟩⟩
      · intro fld hfld relField hrel more hmore s hs
        obtain ⟨itm, -, hstep⟩ := (mapM_mem hmore).2 s hs
        cases hm : pb.response.marshal ⟨cnc.name, relField, some payload⟩ with
        | error e => rw [hm] at hstep; cases hstep
        | ok b =>
          rw [hm] at hstep
          cases hstep
          exact ⟨rfl, rfl, rfl, .inl ⟨rfl, fld, hfld, by simp [hrel], rfl⟩⟩
  · cases h
    simp

end

end Rocketcycle
