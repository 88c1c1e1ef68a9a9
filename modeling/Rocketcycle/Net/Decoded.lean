import Rocketcycle.Concern.Answered
import Rocketcycle.Net.Refreshing
import Rocketcycle.Net.Restart

/-!
# The result of a transaction

A completed transaction has the result of its last step, which the caller decodes by the command of
that step. The instance that a command answers can be read; but the result of a flush is not among
those that are decoded, and a command that answers nothing passes on the payload it was given.
-/

namespace Rocketcycle

open Command Runs

variable {M : Type}

/-- What the last command of a transaction has to find, and to answer, for its result to be decoded. -/
def ClientCode.Decodable (cc : ClientCode M) (logic : LogicHandler M) (store : InstanceStore) (call : Call) : Prop :=
  if call.command = flushInstance then store call.args.key = none ∧ wireBytes call.args.payload = none
  else if call.command = refreshInstance then
    -- unless the refresh is the newer one, the store stays as it is
    ∀ rec, store call.args.key = some rec → rec.inst = some [] → offsetGT call.args.cmpdOffset rec.cmpdOffset = true
  else if call.command ∈ instanceCommands then store.getInstance call.args.key ≠ some []
  else
    wireBytes call.args.payload = none ∨
      ∃ cnc cmd, cc.concernHandler call.concern = some cnc ∧
        cnc.commands.find? (fun c => c.name = call.command) = some cmd ∧ cmd.output.isSome = true ∧
        (cnc.commandAnswer logic cmd call.args store).isSome = true

/-- A payload in the result of a completed transaction is what the handler of its last step, which has
answered `rslt`, has encoded; and `ApecsTxnResult` decodes it. -/
def ClientCode.ResultDecoded (cc : ClientCode M) (outputType : String → String → String) (txn : ApecsTxn)
    (rslt : StepResult) : Prop :=
  ∀ step r payload, txn.currentStep = some step → step.result = some r → r.payload = some payload →
    rslt.payload = some payload ∧
      ∃ cnc res, cc.concernHandler step.concern = some cnc ∧ cnc.ResultOf (outputType step.concern) step.command payload res ∧
        apecsTxnResult (cc.decodeResultPayload outputType) txn = some (true, some res, some r)

/-- The consumer of a partition completes a user's transaction. A message of Kafka is shorter than the
offsets of a packed payload can tell. -/
structure Deployment.Completes (d : Deployment M) (net : Net M) (tp : TopicPartition) (env : Env)
    (logic : LogicHandler M) (call : Call) (rslt : StepResult) (q : Publication) : Prop where
  called : d.called net (.consume tp env logic) = some (call, some rslt)
  completed : ∃ net', d.step net (.consume tp env logic) = some net' ∧ net'.completed = net.completed ++ [q]
  own : q.txn.uponError ≠ .bailout
  fits : q.fits = true

/-! ## Decoding by the command -/

section
variable {cnc : Concern M} {pb : RelatedCodecs} {outputType : String → String} {logic : LogicHandler M} {call : Call}
  {store store' : InstanceStore} {answer : Option Bytes}

/-- What arrives of the answer of a handler, `given` being the payload of the step, is what it has encoded,
and is decoded. -/
def Concern.AnswerDecoded (cnc : Concern M) (pb : RelatedCodecs) (outputType : String → String) (command : String)
    (answer given : Option Bytes) : Prop :=
  ∀ payload, wireBytes (answer <|> given) = some payload → answer = some payload ∧
    ∃ res, cnc.ResultOf outputType command payload res ∧ cnc.decodeResult pb outputType .process command payload = .ok res

/-- A packed record is decoded exactly if its instance has bytes. -/
theorem record_decoded_iff {rec : InstanceRecord} {command : String} {payload : Bytes} {given : Option Bytes}
    (cmd : command ∈ instanceCommands) (notFlush : command ≠ flushInstance) (reads : cnc.Reads rec)
    (packed : packPayloads rec.inst rec.related = some payload) (size : payload.length < 2 ^ 32) :
    cnc.AnswerDecoded pb outputType command (some payload) given ↔ rec.inst ≠ some [] := by
  obtain ⟨instBytes, inst, hinst, parsed⟩ := reads.inst
  obtain ⟨rel, related⟩ := reads.related
  rw [hinst] at packed ⊢
  have arrives : wireBytes (some payload <|> given) = some payload :=
    wireBytes_eq_some.2 ⟨rfl, packPayloads_ne_nil packed⟩
  constructor
  · rintro h ⟨⟩
    obtain ⟨-, res, -, decoded⟩ := h payload arrives
    obtain ⟨e, he⟩ : ∃ e, cnc.decodeInstance payload = .error e := decodeInstance_empty packed
    rw [decodeResult_instance cmd notFlush, he] at decoded
    cases decoded
  · intro ne payload' h
    rw [arrives] at h
    cases h
    refine ⟨rfl, _, .instance inst rel instBytes rec.related cmd packed parsed related, ?_⟩
    rw [decodeResult_instance cmd notFlush]
    apply decodeInstance_packed packed _ size parsed related
    rintro rfl
    exact ne rfl

/-- The result of a flush is not decoded. -/
theorem flush_decoded_iff {given : Option Bytes} (packed : store.getPacked call.args.key = some answer) :
    cnc.AnswerDecoded pb outputType flushInstance answer given ↔
      store call.args.key = none ∧ wireBytes given = none := by
  have refused : ∀ payload, wireBytes (answer <|> given) = some payload →
      ¬cnc.AnswerDecoded pb outputType flushInstance answer given := by
    intro payload arrives h
    obtain ⟨-, res, -, decoded⟩ := h payload arrives
    obtain ⟨e, he⟩ : ∃ e, cnc.decodeResult pb outputType .process flushInstance payload = .error e := decodeResult_flush
    rw [he] at decoded
    cases decoded
  unfold InstanceStore.getPacked at packed
  cases held : store call.args.key with
  | some rec =>
    rw [held] at packed
    obtain ⟨payload, pack, rfl⟩ := Option.map_eq_some_iff.1 packed
    have arrives : wireBytes (some payload <|> given) = some payload :=
      wireBytes_eq_some.2 ⟨rfl, packPayloads_ne_nil pack⟩
    constructor
    · intro h
      exact absurd h (refused payload arrives)
    · rintro ⟨⟨⟩, -⟩
  | none =>
    rw [held] at packed
    cases packed
    cases hgiven : wireBytes given with
    | none =>
      refine ⟨fun _ => ⟨rfl, rfl⟩, ?_⟩
      rintro - payload arrives
      change wireBytes given = some payload at arrives
      rw [hgiven] at arrives
      cases arrives
    | some payload =>
      constructor
      · intro h
        exact absurd h (refused payload hgiven)
      · rintro ⟨-, ⟨⟩⟩

/-- The answer of a user's command is decoded exactly if there is one, or if nothing was given to it. -/
theorem command_decoded_iff (lossless : cnc.LosslessMessages) {cmd : ConcernCommand M}
    (found : cnc.commands.find? (fun c => c.name = call.command) = some cmd)
    (payload : CommandPayload cnc logic cmd call.args store answer) :
    cnc.AnswerDecoded pb outputType call.command answer call.args.payload ↔
      wireBytes call.args.payload = none ∨
        cmd.output.isSome = true ∧ (cnc.commandAnswer logic cmd call.args store).isSome = true := by
  have mem := List.mem_of_find?_eq_some found
  have name : cmd.name = call.command := by simpa using List.find?_some found
  have free : isReservedCommand call.command = false := name ▸ cnc.commands_free cmd mem
  cases payload with
  | answer codec out payload output answers marshalled =>
    constructor
    · intro _
      exact .inr ⟨by simp [output], by simp [answers]⟩
    · intro _ payload' arrives
      obtain ⟨same, -⟩ := wireBytes_eq_some.1 arrives
      refine ⟨same, ?_⟩
      cases same
      refine ⟨_, .output cmd codec out found output marshalled, ?_⟩
      rw [decodeResult_command free, found]
      dsimp only
      rw [output]
      show (codec.unmarshal payload >>= fun out => _) = _
      rw [(lossless.output cmd mem codec output).unmarshal marshalled]
      rfl
  | nothing silent =>
    constructor
    · intro h
      left
      cases given : wireBytes call.args.payload with
      | none => rfl
      | some payload =>
        obtain ⟨⟨⟩, -⟩ := h payload given
    · rintro (none | ⟨hasOutput, answers⟩)
      · intro payload arrives
        change wireBytes call.args.payload = some payload at arrives
        rw [none] at arrives
        cases arrives
      · rcases silent with none | none
        · rw [none] at hasOutput
          cases hasOutput
        · rw [none] at answers
          cases answers

/-- The record that a refresh leaves is the one it has found, unless it is newer. -/
theorem refreshed_record (store : InstanceStore) (key : String) (instBytes relBytes : Option Bytes) (o : CompoundOffset) :
    ∃ rec, store.set key instBytes relBytes o key = some rec ∧
      ((rec.inst = instBytes ∧ ∀ old, store key = some old → offsetGT o old.cmpdOffset = true) ∨
        store key = some rec ∧ offsetGT o rec.cmpdOffset = false) := by
  unfold InstanceStore.set
  cases held : store key with
  | none => exact ⟨⟨instBytes, relBytes, o⟩, by simp, .inl ⟨rfl, by rintro old ⟨⟩⟩⟩
  | some old =>
    dsimp only
    cases newer : offsetGT o old.cmpdOffset with
    | true => exact ⟨⟨instBytes, relBytes, o⟩, by simp, .inl ⟨rfl, by rintro old' ⟨⟩; exact newer⟩⟩
    | false => exact ⟨old, by simpa using held, .inr ⟨rfl, newer⟩⟩

end

/-! ## The last command -/

section
variable {cc : ClientCode M} {cnc : Concern M} {env : Env} {logic : LogicHandler M} {stgTgt : StorageTarget} {call : Call}
  {plat plat' : Platform M} {r : StepResult} {outputType : String → String}

/-- A command that adds no step and is no validation answers an instance, or it is a user's. -/
theorem last_command (effect : LogicEffect env cc.pb cnc logic call.command call.args plat.instanceStore (some r) []
      plat'.instanceStore) (isOk : r.code = .ok)
    (payload : PayloadOf cnc logic call plat.instanceStore plat'.instanceStore r.payload)
    (notValidate : call.command ≠ validateCreate ∧ call.command ≠ validateUpdate) :
    call.command ∈ instanceCommands ∨
      ∃ cmd, cnc.commands.find? (fun c => c.name = call.command) = some cmd := by
  rcases payload.served with ⟨reserved, notCreate, notUpdateAsync⟩ | user
  swap
  · exact .inr user
  left
  have few : call.command ∈ [update, delete, requestRelated] ∨ call.command ∈ instanceCommands := by
    rw [isReservedCommand_iff] at reserved
    simp only [reservedCommands, List.mem_cons, List.not_mem_nil, or_false] at reserved
    rcases reserved with hc | hc | hc | hc | hc | hc | hc | hc | hc | hc | hc
    · exact absurd hc notCreate
    · right; rw [hc]; decide
    · left; rw [hc]; decide
    · exact absurd hc notUpdateAsync
    · left; rw [hc]; decide
    · exact absurd hc notValidate.1
    · exact absurd hc notValidate.2
    · right; rw [hc]; decide
    · right; rw [hc]; decide
    · left; rw [hc]; decide
    · right; rw [hc]; decide
  rcases few with adds | answers
  swap
  · exact answers
  -- the others hand on to another step, and fail if they do not
  have writing : call.command ∈ writingCommands := by
    simp only [List.mem_cons, List.not_mem_nil, or_false] at adds
    rcases adds with hc | hc | hc <;> (rw [hc]; decide)
  generalize call.command = command at effect adds writing
  generalize plat'.instanceStore = store' at effect
  generalize hadds : ([] : List Step) = added at effect
  generalize hr : some r = rslt at effect
  cases effect with
  | quiet _ _ other => exact absurd writing (other r hr.symm isOk)
  | update => cases hadds
  | delete => cases hadds
  | requestRelated => cases hadds
  | brokenOff _ _ _ _ _ _ notOk => exact absurd isOk (notOk r hr.symm)
  | refreshInstance _ _ _ cmd =>
    rw [cmd]
    decide
  | flushInstance _ cmd =>
    rw [cmd]
    decide
  | refreshRelated _ _ _ _ cmd =>
    rw [cmd]
    decide
  | changed cmd _ _ _ _ _ _ _ _ _ mem name =>
    have free := cnc.commands_free cmd mem
    rw [name] at free
    simp only [List.mem_cons, List.not_mem_nil, or_false] at adds
    rcases adds with hc | hc | hc <;> (rw [hc] at free; exact absurd free (by decide))

/-- What is known of the last command, apart from its payload. -/
structure LastCall (cnc : Concern M) (call : Call) (store store' : InstanceStore) : Prop where
  reads : cnc.ReadsAll store
  reads' : cnc.ReadsAll store'
  found : call.command = read ∨ call.command = refreshRelated →
    call.args.inst = store.getInstance call.args.key ∧ call.args.inst.isSome = true
  refreshed : call.command = refreshInstance → ∃ instBytes relBytes, instBytes ≠ [] ∧
    store' = store.set call.args.key (some instBytes) relBytes call.args.cmpdOffset
  related : call.command = refreshRelated → ∃ relBytes, store.setRelated call.args.key relBytes call.args.cmpdOffset = .ok store'

section
variable {store store' : InstanceStore} {answer : Option Bytes}

theorem read_decoded_iff (last : LastCall cnc call store store') (payload : PayloadOf cnc logic call store store' answer)
    (size : ∀ b, answer = some b → b.length < 2 ^ 32) (cmd : call.command = read) :
    cnc.AnswerDecoded cc.pb outputType call.command answer call.args.payload ↔ cc.Decodable logic store call := by
  obtain ⟨packed, some⟩ := payload.read cmd
  obtain ⟨b, rfl⟩ := Option.isSome_iff_exists.1 some
  obtain ⟨given, instance'⟩ := last.found (.inl cmd)
  obtain ⟨inst, hinst⟩ := Option.isSome_iff_exists.1 instance'
  obtain ⟨rec, held, hrec⟩ := InstanceStore.getInstance_eq_some.1 (given.symm.trans hinst)
  have listed : call.command ∈ instanceCommands := by rw [cmd]; decide
  have notFlush : call.command ≠ flushInstance := by rw [cmd]; decide
  have notRefresh : call.command ≠ refreshInstance := by rw [cmd]; decide
  rw [given, InstanceStore.getInstance_some held, InstanceStore.getRelated_some held] at packed
  rw [record_decoded_iff listed notFlush (last.reads _ rec held) packed (size b rfl)]
  unfold ClientCode.Decodable
  rw [if_neg notFlush, if_neg notRefresh, if_pos listed, InstanceStore.getInstance_some held]

theorem refreshRelated_decoded_iff (last : LastCall cnc call store store')
    (effect : store'.getPacked call.args.key = some answer) (size : ∀ b, answer = some b → b.length < 2 ^ 32)
    (cmd : call.command = refreshRelated) :
    cnc.AnswerDecoded cc.pb outputType call.command answer call.args.payload ↔ cc.Decodable logic store call := by
  obtain ⟨given, instance'⟩ := last.found (.inr cmd)
  obtain ⟨inst, hinst⟩ := Option.isSome_iff_exists.1 instance'
  obtain ⟨rec, held, hrec⟩ := InstanceStore.getInstance_eq_some.1 (given.symm.trans hinst)
  obtain ⟨relBytes, stored⟩ := last.related cmd
  -- the instance is as it was
  have after : ∃ rec', store' call.args.key = some rec' ∧ rec'.inst = rec.inst := by
    unfold InstanceStore.setRelated at stored
    rw [held] at stored
    dsimp only at stored
    split at stored
    · cases stored
      exact ⟨rec, held, rfl⟩
    · cases stored
      exact ⟨_, InstanceStore.put_self _ _ _, rfl⟩
  obtain ⟨rec', held', same⟩ := after
  unfold InstanceStore.getPacked at effect
  rw [held'] at effect
  obtain ⟨b, packed, rfl⟩ := Option.map_eq_some_iff.1 effect
  have listed : call.command ∈ instanceCommands := by rw [cmd]; decide
  have notFlush : call.command ≠ flushInstance := by rw [cmd]; decide
  have notRefresh : call.command ≠ refreshInstance := by rw [cmd]; decide
  rw [record_decoded_iff listed notFlush (last.reads' _ rec' held') packed (size b rfl), same]
  unfold ClientCode.Decodable
  rw [if_neg notFlush, if_neg notRefresh, if_pos listed, InstanceStore.getInstance_some held]

theorem refreshInstance_decoded_iff (last : LastCall cnc call store store')
    (effect : store'.getPacked call.args.key = some answer) (size : ∀ b, answer = some b → b.length < 2 ^ 32)
    (cmd : call.command = refreshInstance) :
    cnc.AnswerDecoded cc.pb outputType call.command answer call.args.payload ↔ cc.Decodable logic store call := by
  obtain ⟨instBytes, relBytes, ne, after⟩ := last.refreshed cmd
  obtain ⟨rec, held, which⟩ := refreshed_record store call.args.key (some instBytes) relBytes call.args.cmpdOffset
  rw [← after] at held
  unfold InstanceStore.getPacked at effect
  rw [held] at effect
  obtain ⟨b, packed, rfl⟩ := Option.map_eq_some_iff.1 effect
  have listed : call.command ∈ instanceCommands := by rw [cmd]; decide
  have notFlush : call.command ≠ flushInstance := by rw [cmd]; decide
  rw [record_decoded_iff listed notFlush (last.reads' _ rec held) packed (size b rfl)]
  unfold ClientCode.Decodable
  rw [if_neg notFlush, if_pos cmd]
  rcases which with ⟨inst, newer⟩ | ⟨old, older⟩
  · constructor
    · intro _ old hold _
      exact newer old hold
    · intro _ empty
      rw [inst] at empty
      exact ne (Option.some.inj empty)
  · constructor
    · intro notEmpty old' hold' empty
      rw [old] at hold'
      cases hold'
      exact absurd empty notEmpty
    · intro newer empty
      rw [newer rec old empty] at older
      cases older

/-- The answer of the last command is decoded exactly under the condition on what it finds. -/
theorem answer_decoded_iff (lossless : cnc.LosslessMessages) (concern : cc.concernHandler call.concern = some cnc)
    (last : LastCall cnc call store store') (payload : PayloadOf cnc logic call store store' answer)
    (related : call.command = refreshRelated → store'.getPacked call.args.key = some answer)
    (size : ∀ b, answer = some b → b.length < 2 ^ 32)
    (which : call.command ∈ instanceCommands ∨ ∃ cmd, cnc.commands.find? (fun c => c.name = call.command) = some cmd) :
    cnc.AnswerDecoded cc.pb outputType call.command answer call.args.payload ↔ cc.Decodable logic store call := by
  rcases which with listed | ⟨cmd, found⟩
  · simp only [instanceCommands, List.mem_cons, List.not_mem_nil, or_false] at listed
    rcases listed with hc | hc | hc | hc
    · exact read_decoded_iff last payload size hc
    · exact refreshInstance_decoded_iff last (payload.refreshInstance hc) size hc
    · rw [hc, flush_decoded_iff (payload.flushInstance hc)]
      unfold ClientCode.Decodable
      rw [if_pos hc]
    · exact refreshRelated_decoded_iff last (related hc) size hc
  · have name : cmd.name = call.command := by simpa using List.find?_some found
    obtain ⟨-, hread, -, -, -, -, -, hrefresh, hflush, -, hrelated⟩ :=
      not_reserved (name ▸ cnc.commands_free cmd (List.mem_of_find?_eq_some found))
    have unlisted : call.command ∉ instanceCommands := by simp [instanceCommands, hread, hrefresh, hflush, hrelated]
    rw [command_decoded_iff lossless found (payload.command cmd found)]
    unfold ClientCode.Decodable
    rw [if_neg hflush, if_neg hrefresh, if_neg unlisted]
    simp only [concern, found, Option.some.injEq, exists_and_left, exists_eq_left']

end

/-! ## The effect of the last command -/

theorem process_effect (effect : CommandEffect cc env logic stgTgt call plat (some r) [] plat') (isOk : r.code = .ok)
    (ordinary : (call.system = .storage → call.command ≠ updateAsync) ∧ call.system ≠ .storageScnd) :
    call.system = .process ∧ ∃ cnc, cc.concernHandler call.concern = some cnc ∧
      LogicEffect env cc.pb cnc logic call.command call.args plat.instanceStore (some r) [] plat'.instanceStore := by
  generalize hadds : ([] : List Step) = adds at effect
  generalize hr : some r = rslt at effect
  cases effect with
  | refused notOk => exact absurd isOk (notOk r hr.symm)
  | process cnc store' concern system effect => exact ⟨system, cnc, concern, effect⟩
  | storageScnd _ _ _ system => exact absurd system ordinary.2
  | storage cnc db' concern system effect =>
    cases effect with
    | refused _ notOk => exact absurd isOk (notOk r hr.symm)
    | createFailed _ _ _ _ _ _ _ notOk => exact absurd isOk (notOk r hr.symm)
    | updatePanic => cases hr
    | updateAsync _ _ _ _ cmd => exact absurd cmd (ordinary.1 system)
    | create => cases hadds
    | read => cases hadds
    | update => cases hadds
    | delete => cases hadds

section
variable {command : String} {args : StepArgs} {store store' : InstanceStore} {adds : List Step}

theorem LogicEffect.refreshed (h : LogicEffect env cc.pb cnc logic command args store (some r) adds store')
    (isOk : r.code = .ok) (cmd : command = Command.refreshInstance) :
    ∃ inst relBytes, parsePayload args.payload = .ok (inst, relBytes) ∧
      store' = store.set args.key inst (Logic.refreshedRelated store args.key relBytes) args.cmpdOffset := by
  have writing : command ∈ writingCommands := by rw [cmd]; decide
  generalize hr : some r = rslt at h
  cases h with
  | quiet _ _ other => exact absurd writing (other r hr.symm isOk)
  | update _ hc => rw [hc] at cmd; exact absurd cmd (by decide)
  | delete _ hc => rw [hc] at cmd; exact absurd cmd (by decide)
  | refreshInstance _ inst relBytes _ parsed => exact ⟨inst, relBytes, parsed, rfl⟩
  | flushInstance _ hc => rw [hc] at cmd; exact absurd cmd (by decide)
  | requestRelated _ _ _ _ _ _ hc => rw [hc] at cmd; exact absurd cmd (by decide)
  | refreshRelated _ _ _ _ hc => rw [hc] at cmd; exact absurd cmd (by decide)
  | brokenOff _ _ _ _ _ _ notOk => exact absurd isOk (notOk r hr.symm)
  | changed c _ _ _ _ _ _ _ _ _ mem name =>
    have free := cnc.commands_free c mem
    rw [name, cmd] at free
    exact absurd free (by decide)

theorem LogicEffect.related (h : LogicEffect env cc.pb cnc logic command args store (some r) adds store')
    (isOk : r.code = .ok) (cmd : command = Command.refreshRelated) :
    (∃ relBytes, store.setRelated args.key relBytes args.cmpdOffset = .ok store') ∧
      store'.getPacked args.key = some r.payload := by
  have writing : command ∈ writingCommands := by rw [cmd]; decide
  generalize hr : some r = rslt at h
  cases h with
  | quiet _ _ other => exact absurd writing (other r hr.symm isOk)
  | update _ hc => rw [hc] at cmd; exact absurd cmd (by decide)
  | delete _ hc => rw [hc] at cmd; exact absurd cmd (by decide)
  | refreshInstance _ _ _ hc => rw [hc] at cmd; exact absurd cmd (by decide)
  | flushInstance _ hc => rw [hc] at cmd; exact absurd cmd (by decide)
  | requestRelated _ _ _ _ _ _ hc => rw [hc] at cmd; exact absurd cmd (by decide)
  | refreshRelated _ _ relBytes payload _ stored _ packed =>
    cases hr
    exact ⟨⟨some relBytes, stored⟩, packed⟩
  | brokenOff _ _ _ _ _ _ notOk => exact absurd isOk (notOk r hr.symm)
  | changed c _ _ _ _ _ _ _ _ _ mem name =>
    have free := cnc.commands_free c mem
    rw [name, cmd] at free
    exact absurd free (by decide)

end

end

/-! ## The completion -/

/-- The result of a transaction that stands at its last step, which is done. -/
theorem apecsTxnResult_last {R : Type} {decode : String → System → String → Bytes → Except GoError R} {txn : ApecsTxn}
    {done : List Step} {cur : Step} {r : StepResult} (at' : txn.At done cur []) (result : cur.result = some r)
    (isOk : r.code = .ok) :
    apecsTxnResult decode txn =
      some (true, r.payload.bind fun b => (decode cur.concern cur.system cur.command b).toOption, some r) := by
  have last : txn.currentStepIdx = txn.forwardSteps.length - 1 := by
    rw [at'.idx, at'.steps]
    simp
  unfold apecsTxnResult
  rw [at'.currentStep]
  simp only [result, isOk, at'.direction, last, decide_true, Bool.and_self]
  cases r.payload <;> rfl

section
variable {d : Deployment M} {net net' : Net M} {tp : TopicPartition} {env : Env} {logic : LogicHandler M}
  {p q : Publication} {before after : List (TopicPartition × Publication)} {done ahead : List Step} {cur : Step}

/-- A message that completes its transaction has succeeded at its last step. -/
theorem Taken.completes (h : Consumed d net tp env logic net' p before after done cur ahead)
    (completed : net'.completed = net.completed ++ [q]) :
    ∃ call r txn, Handled d net tp env logic p cur (d.outcome net tp env logic p) call (some r) [] ∧ r.code = .ok ∧
      ahead = [] ∧ q.txn = wireTxn txn ∧ txn.At done (d.doneStep net tp cur r) [] ∧
      txn.uponError = p.txn.uponError := by
  obtain ⟨call, r, c, m, first, comp, handled, isOk, -, rfl, generated, published, q', rest, rfl, dest, txn, responses⟩ :=
    h.completion completed
  have here : q'.isComplete = true := by simp [Publication.isComplete, dest]
  have others : rest.filter Publication.isComplete = [] := by
    rw [List.filter_eq_nil_iff]
    intro q' hq'
    obtain ⟨t, ht⟩ := responses q' hq'
    simp [Publication.isComplete, ht]
  have all : (d.outcome net tp env logic p).published.filter Publication.isComplete = [q'] := by
    rw [published, List.filter_append, generated.notComplete, List.nil_append, List.filter_cons_of_pos here, others]
  have only : [q'] = [q] := all.symm.trans (h.completed_published completed)
  cases only
  have stands := h.sent.logged.stands.withSteps (d.doneStep net tp cur r) []
  refine ⟨call, r, c.txn, handled, isOk, rfl, txn, ?_, ?_⟩
  · rw [generated.grown]
    exact ⟨stands.direction, stands.steps, stands.idx⟩
  · rw [generated.grown]
    rfl

/-- The last call of a user's transaction, with what it finds and leaves. -/
theorem Handled.last {call : Call} {r : StepResult} {out : Outcome (Platform M)} {cnc : Concern M}
    (handled : Handled d net tp env logic p cur out call (some r) []) (isOk : r.code = .ok)
    (lossless : d.cc.LosslessMessages) (reads : StoresRead d net) (refreshing : cur.Refreshing d.cc)
    (sent : Sent d net.next (tp, p) done cur ahead) (system : call.system = .process)
    (concern : d.cc.concernHandler call.concern = some cnc)
    (effect : LogicEffect env d.cc.pb cnc logic call.command call.args (net.stores tp) (some r) []
      out.state.instanceStore) :
    LastCall cnc call (net.stores tp) out.state.instanceStore := by
  have callFor := handled.callFor
  have process : cur.system = .process := by rw [← callFor.system, system]
  have here : d.cc.concernHandler tp.concern = some cnc := by
    rw [← sent.concern, ← callFor.concern]
    exact concern
  refine ⟨reads tp cnc here, handled.reads lossless sent refreshing here (reads tp cnc here), ?_, ?_, ?_⟩
  · intro cmd
    rw [callFor.command] at cmd
    have looksUp : cur.looksUp = true := by
      rcases cmd with hc | hc <;>
        simp [Step.looksUp, Step.isKeylessStep, Step.isInstanceStoreStep, process, hc, Command.read, create,
          validateCreate, refreshInstance, flushInstance, refreshRelated]
    have given : call.args.inst = (net.stores tp).getInstance cur.key := by
      rw [callFor.inst, instanceFor, if_pos looksUp]
    rw [given, callFor.key]
    exact ⟨rfl, handled.found looksUp⟩
  · intro cmd
    obtain ⟨inst, relBytes, parse, after⟩ := effect.refreshed isOk cmd
    have packs : cnc.Packs call.args.payload := by
      rw [callFor.payload]
      apply refreshing (callFor.command ▸ cmd) cnc
      rw [← callFor.concern]
      exact concern
    have limit : maxMessageBytes < 2 ^ 32 := by decide
    have size : (call.args.payload.getD []).length < 2 ^ 32 := by
      rw [callFor.payload]
      exact sent.small.trans limit
    obtain ⟨b, _, rfl, ne, -⟩ := packs.parse size parse
    exact ⟨b, _, ne, after⟩
  · intro cmd
    obtain ⟨relBytes, stored⟩ := (effect.related isOk cmd).1
    exact ⟨relBytes, stored⟩

end

section
variable {cc : ClientCode M} {cnc : Concern M} {outputType : String → String → String} {txn : ApecsTxn} {done : List Step}
  {cur : Step} {rslt : StepResult} {given : Option Bytes} {concern command : String}

/-- The payload of a result is no longer than a message can be. -/
theorem result_small {q : Publication} (fits : q.fits = true) (at' : q.txn.At done cur [])
    (result : cur.result = some (wireResult { rslt with payload := rslt.payload <|> given })) :
    ∀ b, rslt.payload = some b → b.length < 2 ^ 32 := by
  intro b hb
  have limit : maxMessageBytes < 2 ^ 32 := by decide
  have here : cur.fits = true := by
    unfold Publication.fits at fits
    rw [at'.steps] at fits
    exact List.all_eq_true.1 fits cur (by simp)
  have small : ((wireBytes (some b)).getD []).length < maxMessageBytes := by
    simp only [Step.fits, Bool.and_eq_true, decide_eq_true_eq, result, hb] at here
    exact here.1.2
  cases b with
  | nil => simp
  | cons x xs => exact Nat.lt_trans small limit

/-- `ApecsTxnResult` decodes the payload that has arrived of an answer. -/
theorem resultDecoded_iff (at' : txn.At done cur [])
    (result : cur.result = some (wireResult { rslt with payload := rslt.payload <|> given })) (isOk : rslt.code = .ok)
    (named : cur.concern = concern ∧ cur.system = .process ∧ cur.command = command)
    (found : cc.concernHandler concern = some cnc) :
    cc.ResultDecoded outputType txn rslt ↔
      cnc.AnswerDecoded cc.pb (outputType concern) command rslt.payload given := by
  obtain ⟨rfl, system, rfl⟩ := named
  have decode : ∀ b, cc.decodeResultPayload outputType cur.concern cur.system cur.command b =
      cnc.decodeResult cc.pb (outputType cur.concern) .process cur.command b := by
    intro b
    unfold ClientCode.decodeResultPayload
    rw [found, system]
  have whole : apecsTxnResult (cc.decodeResultPayload outputType) txn = some (true, _, _) :=
    apecsTxnResult_last at' result isOk
  constructor
  · intro h payload arrives
    obtain ⟨same, cnc', res, found', encoded, decoded⟩ := h cur _ payload at'.currentStep result arrives
    rw [found] at found'
    cases found'
    refine ⟨same, res, encoded, ?_⟩
    rw [whole, wireResult_payload, arrives] at decoded
    simp only [Option.bind_some, decode, Option.some.injEq, Prod.mk.injEq, true_and, and_true] at decoded
    exact toOption_ok decoded
  · intro h step r payload hstep hr arrives
    rw [at'.currentStep] at hstep
    cases hstep
    rw [result] at hr
    cases hr
    obtain ⟨same, res, encoded, decoded⟩ := h payload arrives
    refine ⟨same, cnc, res, found, encoded, ?_⟩
    rw [whole, arrives, Option.bind_some, decode, decoded]
    rfl

end

/-- What a completed transaction of a user has in the result of its last step is decoded, as what the
handler of this step has encoded, exactly if the handler has answered and the decoder knows its command. -/
theorem result_decoded_iff {d : Deployment M} {outputType : String → String → String} (lossless : d.cc.LosslessMessages)
    {net₀ net : Net M} {tr : List (Net M × Action M)} (idle : net₀.inFlight = [])
    (fresh : ∀ tp, net₀.stores tp = InstanceStore.new) (run : Path d.step net₀ tr net) {before : Net M}
    {tp : TopicPartition} {env : Env} {logic : LogicHandler M} (he : (before, .consume tp env logic) ∈ tr) {call : Call}
    {rslt : StepResult} {q : Publication} (completes : d.Completes before tp env logic call rslt q) :
    d.cc.ResultDecoded outputType q.txn rslt ↔ d.cc.Decodable logic (before.stores tp) call := by
  obtain ⟨front, back, rfl⟩ := List.append_of_mem he
  obtain ⟨first, -⟩ := run.split
  obtain ⟨standing, reads, ordinary⟩ := refreshing_run lossless idle fresh first
  obtain ⟨net', hstep, completed⟩ := completes.completed
  obtain ⟨p, front', back', done, cur, ahead, consumed⟩ := consume_fate standing.sound hstep
  obtain ⟨call', r, txn, handled, isOk, rfl, sent, at', upon⟩ := consumed.completes completed
  have called : some (call', some r) = some (call, some rslt) := by
    rw [← completes.called, ← handled.recorded]
    simp only [Deployment.called, consumed.taken]
  cases called
  have mem : (tp, p) ∈ before.inFlight := by rw [consumed.split]; simp
  have held : Refreshable d.cc p.txn.id done cur [] := standing.at mem consumed.sent
  have callFor := handled.callFor
  have forward : call.direction = .forward := by
    rw [handled.called]
    exact consumed.sent.logged.stands.direction
  have own : p.txn.uponError ≠ .bailout := by
    rw [← upon]
    have own := completes.own
    rwa [sent] at own
  have plain : (call.system = .storage → call.command ≠ updateAsync) ∧ call.system ≠ .storageScnd := by
    rw [callFor.system, callFor.command]
    exact ordinary _ mem own cur consumed.sent.logged.stands.currentStep
  obtain ⟨system, cnc, concern, effect⟩ := process_effect handled.effect isOk plain
  have payload := handleCommand_payload forward system concern isOk handled.handled
  have notValidate : call.command ≠ validateCreate ∧ call.command ≠ validateUpdate := by
    rw [callFor.command]
    exact held.last cur (by simp)
  have which := last_command effect isOk payload notValidate
  have lossless' := lossless.concern concern
  have last := handled.last isOk lossless reads (held.refreshes cur List.mem_cons_self) consumed.sent system concern effect
  have stands := at'.wire
  rw [← sent] at stands
  have step : (wireStep (d.doneStep before tp cur rslt)).result =
      some (wireResult { rslt with payload := rslt.payload <|> call.args.payload }) := by
    rw [wireStep_result, doneStep_result, callFor.payload]
    rfl
  have named : (wireStep (d.doneStep before tp cur rslt)).concern = call.concern ∧
      (wireStep (d.doneStep before tp cur rslt)).system = .process ∧
      (wireStep (d.doneStep before tp cur rslt)).command = call.command := by
    rw [← system]
    simp [callFor.concern, callFor.system, callFor.command]
  have size : ∀ b, rslt.payload = some b → b.length < 2 ^ 32 := result_small completes.fits stands step
  rw [← answer_decoded_iff lossless' concern last payload (fun cmd => (effect.related isOk cmd).2) size which]
  exact resultDecoded_iff stands step isOk named concern

theorem sample_lossless : ClientCode.sample.LosslessMessages := by
  have codec : ∀ codec : Codec Bytes, codec = ⟨.ok, .ok⟩ → codec.Lossless := by
    rintro _ rfl a b ⟨⟩
    rfl
  have concern : ∀ name, (sampleConcern name).LosslessMessages := by
    intro name
    refine ⟨codec _ rfl, codec _ rfl, ?_⟩
    intro cmd hcmd output houtput
    rw [List.mem_singleton.1 hcmd] at houtput
    exact codec output (Option.some.inj houtput).symm
  intro cnc hcnc
  simp only [ClientCode.sample, List.mem_cons, List.not_mem_nil, or_false] at hcnc
  rcases hcnc with rfl | rfl
  · exact concern "Player"
  · exact concern "Guild"

/-- One instance is stored, and the consumers have just started. -/
def storedPlayer : Net Bytes := Net.sample none (some ⟨[107, 1], some [9], ⟨1, 0, 0⟩⟩)

theorem storedPlayer_fresh : ∀ tp, storedPlayer.stores tp = InstanceStore.new := by
  intro tp
  funext key
  simp [storedPlayer, Net.sample, InstanceStore.new]

/-- The read that a cache miss begins with, and a command of the user after it. -/
def consumeRead : List (Action Bytes) :=
  [sampleConsume "Player" .process 0, sampleConsume "Player" .storage 0, sampleConsume "Player" .process 0]

def deletePlayer : List (Action Bytes) :=
  sampleSubmit [1] [sampleStep "Player" delete "k" []] :: consumeRead ++
    [sampleConsume "Player" .process 0, sampleConsume "Player" .storage 0, sampleConsume "Player" .process 0]

def setPlayerAgain : List (Action Bytes) :=
  sampleSubmit [1] [sampleStep "Player" "Set" "k" [5]] :: consumeRead ++ [sampleConsume "Player" .process 0]

/-- What `ApecsTxnResult` makes of the completed transactions of users: whether they succeed, with a
message, and with a payload in their result. -/
def userResults (net : Net Bytes) : List (Bool × Bool × Bool) :=
  (net.completed.filter fun q => q.txn.uponError ≠ .bailout).filterMap fun q =>
    (apecsTxnResult (ClientCode.sample.decodeResultPayload fun _ command => command) q.txn).map fun res =>
      (res.1, res.2.1.isSome, (res.2.2.bind StepResult.payload).isSome)

/-- An instance is deleted: the transaction succeeds, with a payload in its result, and without a
message. Another one sets an instance, and its command answers nil: it succeeds with a message, decoded
from what the step came with. -/
theorem results_not_decoded :
    (runs Deployment.single.step storedPlayer deletePlayer).map userResults = some [(true, false, true)] ∧
      (runs Deployment.single.step storedPlayer setPlayerAgain).map userResults = some [(true, true, true)] ∧
      (Deployment.single.called (after Deployment.single.step storedPlayer setPlayerAgain.dropLast)
        (sampleConsume "Player" .process 0)).map (fun c => c.2.map StepResult.payload) = some (some none) := by
  decide +kernel

/-- The read of an instance that is stored: all but its last step, which caches the instance. -/
def playerRead : Net Bytes :=
  after Deployment.single.step storedPlayer
    [sampleSubmit [1] [sampleStep "Player" read "k" []], sampleConsume "Player" .process 0,
     sampleConsume "Player" .storage 0]

theorem result_decoded_iff_read :
    ∃ (call : Call) (rslt : StepResult) (q : Publication),
      Deployment.single.called playerRead (sampleConsume "Player" .process 0) = some (call, some rslt) ∧
      call.command = refreshInstance ∧
      (after Deployment.single.step playerRead [sampleConsume "Player" .process 0]).completed = [q] ∧
      Deployment.single.cc.ResultDecoded (fun _ command => command) q.txn rslt := by
  have facts : (runs Deployment.single.step storedPlayer
        [sampleSubmit [1] [sampleStep "Player" read "k" []], sampleConsume "Player" .process 0,
         sampleConsume "Player" .storage 0]).isSome = true ∧
      (Deployment.single.step playerRead (sampleConsume "Player" .process 0)).isSome = true ∧
      playerRead.completed.isEmpty = true ∧
      (after Deployment.single.step playerRead [sampleConsume "Player" .process 0]).completed.length = 1 ∧
      (after Deployment.single.step playerRead [sampleConsume "Player" .process 0]).completed.all (fun q =>
        decide (q.txn.uponError ≠ .bailout) && q.fits) = true ∧
      (Deployment.single.called playerRead (sampleConsume "Player" .process 0)).any (fun c =>
        c.2.isSome && decide (c.1.command = refreshInstance) &&
          (playerRead.stores ⟨"Player", .process, 0⟩ c.1.args.key).isNone) = true := by decide +kernel
  obtain ⟨taken, last, before, one, ofUser, refreshes⟩ := facts
  have last := step_after last
  obtain ⟨q, completed⟩ := List.length_eq_one_iff.1 one
  rw [completed, List.all_cons, Bool.and_eq_true, Bool.and_eq_true, decide_eq_true_eq] at ofUser
  obtain ⟨⟨call, rslt⟩, called, refreshes⟩ := (Option.any_eq_true _ _).1 refreshes
  simp only [Bool.and_eq_true, Option.isSome_iff_exists, decide_eq_true_eq, Option.isNone_iff_eq_none] at refreshes
  obtain ⟨⟨⟨rslt, rfl⟩, refresh⟩, uncached⟩ := refreshes
  have completes : Deployment.single.Completes playerRead ⟨"Player", .process, 0⟩ Env.sample sampleLogic call rslt q :=
    ⟨called, ⟨_, last, by rw [completed, List.isEmpty_iff.1 before]; rfl⟩, ofUser.1.1, ofUser.1.2⟩
  have decodable : Deployment.single.cc.Decodable sampleLogic (playerRead.stores ⟨"Player", .process, 0⟩) call := by
    unfold ClientCode.Decodable
    rw [if_neg (by rw [refresh]; decide), if_pos refresh, uncached]
    rintro rec ⟨⟩
  have run := Path.snoc (path_after taken) last
  exact ⟨call, rslt, q, called, refresh, completed,
    (result_decoded_iff sample_lossless rfl storedPlayer_fresh run (List.mem_append_right _ List.mem_cons_self)
      completes).2 decodable⟩

end Rocketcycle
