import Rocketcycle.Apecs.Reporting
import Rocketcycle.Net.Failure

/-!
# Creating what exists

The existence check of the runner is made in `CREATE` on a process topic, which `NewApecsTxn` has
turned into a validation and a storage step. So nothing but the concern's own validation stands
between a `CREATE` and the instance that it overwrites.
-/

namespace Rocketcycle

open Command Runs Early

variable {M : Type}

/-- Whether the concern accepts to create the instance of a payload. -/
def Concern.accepts (cnc : Concern M) (logic : LogicHandler M) (payload : Option Bytes) : Bool :=
  match cnc.unmarshalOpt payload with
  | .error _ => false
  | .ok inst =>
    match logic.validateCreate inst with
    | .ok out => (cnc.marshalOpt out).isOk
    | .error (.err e) => e.code = .ok
    | .error (.panic _) => false

/-- The text that is logged for a payload, if validating it ends with an error. -/
def Concern.refusalText (cnc : Concern M) (logic : LogicHandler M) (payload : Option Bytes) : Option String :=
  match cnc.unmarshalOpt payload with
  | .error e => some e.text
  | .ok inst =>
    match logic.validateCreate inst with
    | .ok out =>
      match cnc.marshalOpt out with
      | .error e => some e.text
      | .ok _ => none
    | .error (.err e) => some e.text
    | .error (.panic _) => none

section
variable {env : Env} {cnc : Concern M} {logic : LogicHandler M} {args : StepArgs} {store : InstanceStore}

/-- How a validation ends: `OK` exactly if it accepts, and with the text of its error in the result. Only a
handler that panics answers no result at all. -/
structure ValidationEnds (env : Env) (cnc : Concern M) (logic : LogicHandler M) (payload : Option Bytes)
    (rslt : Option StepResult) : Prop where
  accepted : (∃ r, rslt = some r ∧ r.code = .ok) ↔ cnc.accepts logic payload = true
  logged : ∀ text, cnc.refusalText logic payload = some text →
    ∃ r, rslt = some r ∧ (r.Clean ↔ CutsCleanly (env.sprintf text))
  silent : cnc.refusalText logic payload = none → cnc.accepts logic payload = false → rslt = none

/-- An early end by an error. -/
theorem ValidationEnds.failed {payload : Option Bytes} {e : GoError} (text : cnc.refusalText logic payload = some e.text)
    (accepts : cnc.accepts logic payload = decide (e.code = .ok)) :
    ValidationEnds env cnc logic payload (answerOf (.error (.fail (setStepResult env.sprintf {} e)))).1 := by
  refine ⟨?_, ?_, ?_⟩
  · rw [accepts]
    simp [answerOf]
  · intro t ht
    cases text.symm.trans ht
    refine ⟨_, rfl, ?_⟩
    rw [setStepResult_clean_iff]
    simp [StepResult.Clean]
  · intro none
    cases text.symm.trans none

theorem validateCreate_ends :
    Post (Logic.validateCreate env cnc logic .forward args) store fun r _ =>
      ValidationEnds env cnc logic args.payload (answerOf r).1 := by
  unfold Logic.validateCreate
  rw [if_pos rfl]
  apply post_orFail_bind
  · intro inst hinst
    apply post_orStop_bind
    · intro out hout
      apply post_orFail_bind
      · intro payload hpayload
        apply post_pure
        have accepts : cnc.accepts logic args.payload = true := by
          simp [Concern.accepts, hinst, hout, hpayload, Except.isOk, Except.toBool]
        have text : cnc.refusalText logic args.payload = none := by
          simp [Concern.refusalText, hinst, hout, hpayload]
        refine ⟨by simp [answerOf, accepts], ?_, ?_⟩
        · intro t ht
          cases text.symm.trans ht
        · intro _ refuses
          cases accepts.symm.trans refuses
      · intro e he
        apply ValidationEnds.failed
        · simp [Concern.refusalText, hinst, hout, he]
        · obtain ⟨msg, rfl⟩ := Codec.marshalOpt_plain cnc.toCodec out e he
          simp [Concern.accepts, hinst, hout, he, Except.isOk, Except.toBool]
    · intro e he
      apply ValidationEnds.failed
      · simp [Concern.refusalText, hinst, he]
      · simp [Concern.accepts, hinst, he]
    · intro g hg
      have text : cnc.refusalText logic args.payload = none := by simp [Concern.refusalText, hinst, hg]
      refine ⟨by simp [answerOf, Concern.accepts, hinst, hg], ?_, fun _ _ => rfl⟩
      intro t ht
      cases text.symm.trans ht
  · intro e he
    apply ValidationEnds.failed
    · simp [Concern.refusalText, he]
    · obtain ⟨msg, rfl⟩ := cnc.unmarshalOpt_plain _ e he
      simp [Concern.accepts, he]

end

section
variable {cc : ClientCode M} {env : Env} {logic : LogicHandler M} {call : Call} {plat plat' : Platform M}
  {rslt : Option StepResult} {adds : List Step}

theorem validation_handled {cnc : Concern M} (forward : call.direction = .forward)
    (system : call.system = .process) (command : call.command = validateCreate)
    (concern : cc.concernHandler call.concern = some cnc)
    (h : handleCommand cc env logic call plat = ((rslt, adds), plat')) :
    ValidationEnds env cnc logic call.args.payload rslt := by
  unfold handleCommand at h
  rw [concern] at h
  dsimp only at h
  rw [if_pos system] at h
  unfold Concern.handleLogicCommand finish at h
  have ends : Post (Logic.validateCreate env cnc logic .forward call.args) plat.instanceStore fun r _ =>
      ValidationEnds env cnc logic call.args.payload (answerOf r).1 := validateCreate_ends
  have dispatch : Logic.dispatch env cc.pb cnc logic .forward call.args validateCreate =
      Logic.validateCreate env cnc logic .forward call.args := by
    unfold Logic.dispatch
    rw [if_neg (by decide), if_neg (by decide), if_neg (by decide), if_neg (by decide), if_neg (by decide),
      if_neg (by decide), if_pos rfl]
  simp only [forward, system, command, reduceCtorEq, decide_false, Bool.false_and, Bool.false_eq_true, if_false,
    ne_eq, not_true_eq_false, dispatch] at h
  unfold Post at ends
  obtain ⟨answer, -⟩ := Prod.mk.inj h
  have first : (answerOf (exec (Logic.validateCreate env cnc logic .forward call.args) plat.instanceStore).1).1 =
      rslt := congrArg Prod.fst answer
  dsimp only at ends
  rw [first] at ends
  exact ends

/-- The instance of a payload, with a key of its own, as storage reads it. -/
structure Concern.Carries (cnc : Concern M) (payload : Option Bytes) (inst : M) (key : String) : Prop where
  parts : ∃ instBytes relBytes, parsePayload payload = .ok (instBytes, relBytes) ∧ cnc.unmarshalOpt instBytes = .ok inst
  keyed : key ≠ ""
  named : cnc.key inst = key

/-- What a payload carries, it carries across the wire. -/
theorem Concern.Carries.wire {cnc : Concern M} {payload : Option Bytes} {inst : M} {key : String}
    (h : cnc.Carries payload inst key) : cnc.Carries (wireBytes payload) inst key := by
  refine ⟨?_, h.keyed, h.named⟩
  obtain ⟨instBytes, relBytes, parts, parsed⟩ := h.parts
  rcases payload with _ | _ | ⟨b, bs⟩
  · exact ⟨instBytes, relBytes, parts, parsed⟩
  · have empty : parsePayload (some []) = .ok (some [], none) := rfl
    rw [empty] at parts
    cases parts
    exact ⟨none, none, rfl, parsed⟩
  · exact ⟨instBytes, relBytes, parts, parsed⟩

end

/-! ## The run of a creation -/

section
variable {env : Env} {txn : ApecsTxn} {traceParent : String} {done rest : List Step} {cur : Step}

end

/-! ## What never happens to a record without a `DELETE` -/

section
variable {d : Deployment M} {net net' : Net M} {tp : TopicPartition} {env : Env} {logic : LogicHandler M}
  {p : Publication} {before after : List (TopicPartition × Publication)} {done ahead : List Step} {cur : Step}

/-- No transaction deletes anything. -/
def NoDelete (net : Net M) : Prop := ∀ m ∈ net.inFlight, ∀ s ∈ m.2.txn.forwardSteps, s.command ≠ delete

/-- A command other than `DELETE` adds none. -/
theorem commandEffect_noDelete {cc : ClientCode M} {stgTgt : StorageTarget} {call : Call} {plat plat' : Platform M}
    {rslt : Option StepResult} {adds : List Step} (h : CommandEffect cc env logic stgTgt call plat rslt adds plat')
    (notDelete : call.command ≠ delete) : ∀ s ∈ adds, s.command ≠ delete := by
  cases h with
  | refused _ none => simp [none]
  | storageScnd _ _ _ _ none => simp [none]
  | process cnc store' concern system effect =>
    cases effect with
    | delete payload cmd => exact absurd cmd notDelete
    | update => simp [toStorage, Command.update, Command.delete]
    | requestRelated => simp [refreshRelated, Command.delete]
    | changed cmd _ _ _ _ _ _ _ _ _ _ _ _ _ _ _ _ _ _ _ refreshes =>
      intro s hs
      obtain ⟨-, -, -, refresh | ⟨isRead, -⟩⟩ := refreshes s hs
      · rw [refresh]
        decide
      · rw [isRead]
        decide
    | _ => simp
  | storage cnc db' concern system effect =>
    cases effect with
    | create _ _ _ _ _ _ _ _ _ _ _ _ requests =>
      intro s hs
      rcases List.mem_cons.1 hs with rfl | hs
      · simp [Crud.refreshStep, refreshInstance, Command.delete]
      · rw [(requestRelatedSteps_all requests s hs).2.2.2]
        decide
    | read => simp [Crud.refreshStep, refreshInstance, Command.delete]
    | update => simp [Crud.refreshStep, refreshInstance, Command.delete]
    | delete cmd => exact absurd cmd notDelete
    | _ => simp

/-- Transactions without a `DELETE` generate and add none. -/
theorem Arrival.noDelete {m : TopicPartition × Publication} {done' ahead' : List Step} {cur' : Step}
    (h : Arrival d net tp env logic p done cur ahead (d.outcome net tp env logic p) m done' cur' ahead')
    (none : ∀ s ∈ done ++ cur :: ahead, s.command ≠ delete) : ∀ s ∈ done' ++ cur' :: ahead', s.command ≠ delete := by
  have behind : ∀ s ∈ done, s.command ≠ delete := fun s hs => none s (List.mem_append_left _ hs)
  have here : cur.command ≠ delete := none cur (List.mem_append_right _ List.mem_cons_self)
  have front : ∀ s ∈ ahead, s.command ≠ delete := fun s hs =>
    none s (List.mem_append_right _ (List.mem_cons_of_mem _ hs))
  have wired : ∀ {steps : List Step}, (∀ s ∈ steps, s.command ≠ delete) → ∀ s ∈ steps.map wireStep, s.command ≠ delete := by
    intro steps all s hs
    obtain ⟨s', hs', rfl⟩ := List.mem_map.1 hs
    exact all s' hs'
  have ran : ∀ r, ∀ s ∈ done ++ [d.doneStep net tp cur r], s.command ≠ delete := by
    intro r s hs
    rcases List.mem_append.1 hs with hs | hs
    · exact behind s hs
    · rw [List.mem_singleton.1 hs]
      simpa using here
  cases h with
  | read q looksUp key missing state =>
    intro s hs
    rcases List.mem_append.1 hs with hs | hs
    · exact wired behind s hs
    rcases List.mem_cons.1 hs with rfl | hs
    · show Command.read ≠ delete
      decide
    · refine wired (fun s hs => ?_) s hs
      rcases mem_missAhead hs with rfl | hs
      · simpa using here
      · exact front s hs
  | next q call r adds nextStep tail handled resultOk follows =>
    have added := commandEffect_noDelete handled.effect (handled.callFor.command ▸ here)
    have all : ∀ s ∈ nextStep :: tail, s.command ≠ delete := by
      rw [← follows]
      intro s hs
      rcases List.mem_append.1 hs with hs | hs
      · exact added s hs
      · exact front s hs
    intro s hs
    rcases List.mem_append.1 hs with hs | hs
    · exact wired (ran r) s hs
    rcases List.mem_cons.1 hs with rfl | hs
    · rw [wireStep_command, nextStepOf_command]
      exact all nextStep List.mem_cons_self
    · exact wired (fun s hs => all s (List.mem_cons_of_mem _ hs)) s hs
  | child call r adds step i handled resultOk last generates =>
    intro s hs
    rw [List.nil_append, List.mem_singleton] at hs
    subst hs
    rw [wireStep_command]
    cases generates with
    | copy s r' mem => exact ran r s mem
    | update s payload =>
      show updateAsync ≠ delete
      decide
    | updateScnd s payload =>
      show updateAsync ≠ delete
      decide

theorem NoDelete.step (h : NoDelete net) (sound : Sound d net) {a : Action M} (consume : a.isConsume = true)
    (hs : d.step net a = some net') : NoDelete net' := by
  cases a with
  | submit => cases consume
  | consume tp env logic =>
    obtain ⟨p, before, after, done, cur, ahead, consumed⟩ := consume_fate sound hs
    intro m hm
    rcases consumed.inFlight consumed.next_le consumed.next_lt hm with hm | ⟨done', cur', ahead', arrival, sent⟩
    · exact h m hm
    · rw [sent.logged.stands.steps]
      apply arrival.noDelete
      rw [← consumed.sent.logged.stands.steps]
      exact h (tp, p) (by rw [consumed.split]; simp)

/-- Without a `DELETE` every record of storage stays, or gives way to a newer one. -/
theorem step_newer (h : NoDelete net) (sound : Sound d net) {a : Action M} (hs : d.step net a = some net')
    (type : String) : (net.ramDbs type).Newer (net'.ramDbs type) := by
  cases a with
  | submit env traceParent txn respTarget =>
    simp only [Deployment.step] at hs
    split at hs
    · cases hs
    · rw [(deliver_some hs).ramDbs]
      exact .refl _
  | consume tp env logic =>
    obtain ⟨p, before, after, done, cur, ahead, consumed⟩ := consume_fate sound hs
    have dbs : net'.ramDbs = (d.outcome net tp env logic p).state.ramDbs := by
      rcases consumed.delivered with ⟨-, delivered⟩ | ⟨-, delivered⟩ <;> exact delivered.ramDbs
    have here : cur.command ≠ delete := by
      apply h (tp, p) (by rw [consumed.split]; simp)
      rw [consumed.sent.logged.stands.steps]
      simp
    have run : ∀ {call rslt adds}, Handled d net tp env logic p cur (d.outcome net tp env logic p) call rslt adds →
        (net.ramDbs type).Newer (net'.ramDbs type) := by
      intro call rslt adds handled
      rw [dbs]
      exact handled.effect.newer (handled.callFor.command ▸ here) type
    cases consumed.fate with
    | rejected state => rw [dbs, state]; exact .refl _
    | missed _ _ _ _ state => rw [dbs, state]; exact .refl _
    | failed _ _ _ handled => exact run handled
    | next _ _ _ _ _ handled => exact run handled
    | completed _ _ _ _ _ handled => exact run handled

end

/-- The transaction stands at the validation of a `CREATE`. -/
structure Creating (concern : String) (payload : Option Bytes) (cur : Step) (ahead : List Step) : Prop where
  validates : cur.system = .process ∧ cur.command = validateCreate
  ofConcern : cur.concern = concern
  carried : cur.payload = wireBytes payload
  creation : ∃ c, ahead = [c] ∧ (c.system = .storage ∧ c.command = create) ∧ c.concern = concern ∧
    c.payload = wireBytes payload ∧ c.cmpdOffset = none

/-- A validation leaves the platform alone. -/
theorem validation_unchanged {cc : ClientCode M} {env : Env} {logic : LogicHandler M} {stgTgt : StorageTarget}
    {call : Call} {plat plat' : Platform M} {rslt : Option StepResult} {adds : List Step}
    (h : CommandEffect cc env logic stgTgt call plat rslt adds plat') (system : call.system = .process)
    (command : call.command = validateCreate) : plat' = plat := by
  cases h with
  | refused => rfl
  | storage _ _ _ hs => rw [system] at hs; cases hs
  | storageScnd _ _ _ hs => rw [system] at hs; cases hs
  | process cnc store' concern hs effect =>
    rw [command] at effect
    cases effect with
    | quiet => rfl
    | update _ cmd => exact absurd cmd (by decide)
    | delete _ cmd => exact absurd cmd (by decide)
    | refreshInstance _ _ _ cmd => exact absurd cmd (by decide)
    | flushInstance _ cmd => exact absurd cmd (by decide)
    | requestRelated _ _ _ _ _ _ cmd => exact absurd cmd (by decide)
    | refreshRelated _ _ _ _ cmd => exact absurd cmd (by decide)
    | brokenOff _ _ _ cmd => rcases cmd with cmd | cmd <;> exact absurd cmd (by decide)
    | changed cmd _ _ _ _ _ _ _ _ _ mem name =>
      have notReserved := cnc.commands_free cmd mem
      rw [name] at notReserved
      exact absurd notReserved (by decide)

theorem Concern.accepts_wire {cnc : Concern M} {logic : LogicHandler M} {payload : Option Bytes} :
    cnc.accepts logic (wireBytes payload) = cnc.accepts logic payload := by
  unfold Concern.accepts
  rw [unmarshalOpt_wire]

theorem Concern.refusalText_wire {cnc : Concern M} {logic : LogicHandler M} {payload : Option Bytes} :
    cnc.refusalText logic (wireBytes payload) = cnc.refusalText logic payload := by
  unfold Concern.refusalText
  rw [unmarshalOpt_wire]

/-- A validation reads off the wire what was submitted. -/
theorem ValidationEnds.of_wire {env : Env} {cnc : Concern M} {logic : LogicHandler M} {payload : Option Bytes}
    {rslt : Option StepResult} (h : ValidationEnds env cnc logic (wireBytes payload) rslt) :
    ValidationEnds env cnc logic payload rslt := by
  have accepted := h.accepted
  have logged := h.logged
  have silent := h.silent
  rw [cnc.accepts_wire] at accepted silent
  rw [cnc.refusalText_wire] at logged silent
  exact ⟨accepted, logged, silent⟩

section
variable {d : Deployment M} {net net' : Net M} {tp : TopicPartition} {env : Env} {logic : LogicHandler M}
  {p : Publication} {ahead : List Step} {cur : Step} {concern : String} {payload : Option Bytes} {cnc : Concern M}

theorem Creating.handled (creating : Creating concern payload cur ahead)
    (handler : d.cc.concernHandler concern = some cnc)
    (sent : Sent d net.next (tp, p) [] cur ahead) {call : Call} {rslt : Option StepResult} {adds : List Step}
    (h : Handled d net tp env logic p cur (d.outcome net tp env logic p) call rslt adds) :
    (d.outcome net tp env logic p).state = Deployment.platform net tp ∧ ValidationEnds env cnc logic payload rslt := by
  have callFor := h.callFor
  have system : call.system = .process := callFor.system.trans creating.validates.1
  have command : call.command = validateCreate := callFor.command.trans creating.validates.2
  have forward : call.direction = .forward := by
    rw [h.called]
    exact sent.logged.stands.direction
  have concern : d.cc.concernHandler call.concern = some cnc := by
    rw [callFor.concern, creating.ofConcern]
    exact handler
  refine ⟨validation_unchanged h.effect system command, ?_⟩
  have ends := validation_handled forward system command concern h.handled
  rw [callFor.payload, creating.carried] at ends
  exact ends.of_wire

theorem Creating.keyless (creating : Creating concern payload cur ahead) : cur.isKeylessStep = true := by
  simp [Step.isKeylessStep, creating.validates.1, creating.validates.2]

end

/-! ## Whole runs -/

section
variable {d : Deployment M} {net net' net₀ : Net M} {concern key : String}

/-- Primary storage has a newer record than in `net₀`. -/
def Deployment.Overwritten (d : Deployment M) (net₀ : Net M) (concern key : String) (net : Net M) : Prop :=
  ∃ item, net.ramDbs d.primary.type concern key = some item ∧
    ∀ old, net₀.ramDbs d.primary.type concern key = some old → offsetGT item.cmpdOffset old.cmpdOffset = true

theorem Deployment.Overwritten.mono (h : d.Overwritten net₀ concern key net)
    (newer : (net.ramDbs d.primary.type).Newer (net'.ramDbs d.primary.type)) : d.Overwritten net₀ concern key net' := by
  obtain ⟨item, found, newest⟩ := h
  rcases newer concern key with same | ⟨item', found', newer'⟩
  · exact ⟨item, same.trans found, newest⟩
  · exact ⟨item', found', fun old hold => offsetGT_trans (newer' item found) (newest old hold)⟩

/-- A `CREATE` on its way deletes nothing. -/
theorem Creating.noDelete {payload : Option Bytes} {m : TopicPartition × Publication} {cur : Step} {ahead : List Step}
    (creating : Creating concern payload cur ahead) (inFlight : net.inFlight = [m]) (sent : Sent d net.next m [] cur ahead) :
    NoDelete net := by
  intro m' hm s hs
  rw [inFlight, List.mem_singleton] at hm
  subst hm
  rw [sent.logged.stands.steps, List.nil_append] at hs
  obtain ⟨c, rfl, storage, -⟩ := creating.creation
  rcases List.mem_cons.1 hs with rfl | hs
  · rw [creating.validates.2]
    decide
  · rw [List.mem_singleton.1 hs, storage.2]
    decide

/-- Where nothing is deleted, an overwritten instance stays so. -/
theorem Deployment.Overwritten.run {tr : List (Net M × Action M)} (h : d.Overwritten net₀ concern key net) (sound : Sound d net)
    (none : NoDelete net) (run : Path d.step net tr net') (alone : ∀ e ∈ tr, e.2.isConsume = true) :
    d.Overwritten net₀ concern key net' := by
  have last : Sound d net' ∧ NoDelete net' ∧ d.Overwritten net₀ concern key net' := by
    apply run.invariant (fun n => Sound d n ∧ NoDelete n ∧ d.Overwritten net₀ concern key n)
      (fun _ a => a.isConsume = true) ⟨sound, none, h⟩ _ alone
    rintro n a n' consume ⟨hsound, hnone, held⟩ hs
    exact ⟨hsound.step hs, hnone.step hsound consume hs, held.mono (step_newer hnone hsound hs _)⟩
  exact last.2.2

end

end Rocketcycle
