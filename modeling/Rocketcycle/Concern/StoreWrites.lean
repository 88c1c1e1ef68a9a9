import Rocketcycle.Concern.Applied
import Rocketcycle.Rkcy.StoreCalls

/-!
# The write of a process command

Which call on the instance store each case of `HandleLogicCommand` comes to, if it comes to one: at
most one, and the store after the command is the store after this call.
-/

namespace Rocketcycle

open Early

variable {M : Type}

namespace Logic

section
variable (pb : RelatedCodecs) (cnc : Concern M) (logic : LogicHandler M) (args : StepArgs)
  (instanceStore : InstanceStore)

/-- `REFRESH_INSTANCE` stores the instance of its payload, with the related data beside it or else those of the store. -/
def refreshInstanceWrite : Option StoreCall := do
  let (instBytes, relBytes) ← (parsePayload args.payload).toOption
  let rel ← (cnc.parseRelated relBytes).toOption
  let relBytes := refreshedRelated instanceStore args.key relBytes
  let _ ← (if args.inst.isSome then cnc.refreshRelatedSteps pb rel args.key instBytes relBytes else .ok []).toOption
  some (.set args.key instBytes relBytes args.cmpdOffset)

/-- `FLUSH_INSTANCE` removes an instance that is there. -/
def flushInstanceWrite : Option StoreCall := do
  let packed ← instanceStore.getPacked args.key
  if packed.isSome then some (.remove args.key) else none

/-- `REQUEST_RELATED` stores the related data if the request has changed it. -/
def requestRelatedWrite : Option StoreCall := do
  let relReq ← (pb.request.unmarshalOpt args.payload).toOption
  let (rel, _) ← (cnc.getRelated args.key instanceStore).toOption
  let (rel, changed) ← (cnc.handleRequestRelated rel relReq).toOption
  let relBytes ← (cnc.related.marshal rel).toOption
  let _ ← packPayloads args.inst (some relBytes)
  if changed then some (.setRelated args.key (some relBytes) args.cmpdOffset) else none

/-- `REFRESH_RELATED` stores the related data if the response has changed it. -/
def refreshRelatedWrite : Option StoreCall := do
  let relRsp ← (pb.response.unmarshalOpt args.payload).toOption
  let (rel, _) ← (cnc.getRelated args.key instanceStore).toOption
  let (rel, changed) ← (cnc.handleRefreshRelated rel relRsp).toOption
  let relBytes ← (cnc.related.marshal rel).toOption
  if changed then some (.setRelated args.key (some relBytes) args.cmpdOffset) else none

/-- The result with the output of a command, if it can be marshalled. -/
def outputOf (cmd : ConcernCommand M) (payloadOut : Option M) : Option (Option Bytes) :=
  match cmd.output with
  | none => some none
  | some output => (output.marshalOpt payloadOut).toOption

/-- A changed instance is stored with the related data that stands beside it. -/
def changedWrite (instSer : Bytes) : Option StoreCall := do
  let (rel, relBytes) ← (cnc.getRelated args.key instanceStore).toOption
  let _ ← (cnc.refreshRelatedSteps pb rel args.key (some instSer) relBytes).toOption
  some (.setInstance args.key (some instSer) args.cmpdOffset)

def commandWrite (cmd : ConcernCommand M) : Option StoreCall := do
  let instBytes ← args.inst
  let inst ← (cnc.unmarshal instBytes).toOption
  let (rel, _) ← (cnc.getRelated (cnc.key inst) instanceStore).toOption
  let payloadIn ← (cmd.parse args.payload).toOption
  let (inst, payloadOut) ← (logic.command cmd.name inst rel payloadIn).toOption
  let _ ← outputOf cmd payloadOut
  let instSer ← (cnc.marshal inst).toOption
  if instSer ≠ instBytes then changedWrite pb cnc args instanceStore instSer else none

/-- The write of a case of the switch. The cases that are not listed read only. -/
def write (direction : Direction) (cmd : String) : Option StoreCall :=
  if cmd = Command.refreshInstance then refreshInstanceWrite pb cnc args instanceStore
  else if cmd = Command.flushInstance then flushInstanceWrite args instanceStore
  else if direction ≠ .forward then none
  else if cmd = Command.requestRelated then requestRelatedWrite pb cnc args instanceStore
  else if cmd = Command.refreshRelated then refreshRelatedWrite pb cnc args instanceStore
  else if isReservedCommand cmd then none
  else (cnc.commands.find? fun c => c.name = cmd).bind (commandWrite pb cnc logic args instanceStore)

end

end Logic

/-- The write of `HandleLogicCommand`. -/
def Concern.write (pb : RelatedCodecs) (cnc : Concern M) (logic : LogicHandler M) (call : Call)
    (instanceStore : InstanceStore) : Option StoreCall :=
  if call.direction = .reverse && call.args.forwardResult.isNone || call.system ≠ .process then none
  else Logic.write pb cnc logic call.args instanceStore call.direction call.command

/-! ## It is all that a command does to the store -/

/-- The store after at most one write. -/
def written (store : InstanceStore) : Option StoreCall → InstanceStore
  | none => store
  | some c => c.after store

/-- The command does this write. -/
def Writes {α : Type} (m : Handling InstanceStore α) (store : InstanceStore) (w : Option StoreCall) : Prop :=
  Post m store fun _ store' => store' = written store w

section
variable {env : Env} {pb : RelatedCodecs} {cnc : Concern M} {logic : LogicHandler M} {args : StepArgs}
  {store : InstanceStore} {direction : Direction} {rslt : StepResult} {α β : Type}

/-- A call that fails ends the command before its write. -/
theorem writes_orFail {x : Except GoError α} {f : α → Handling InstanceStore β} {w : α → Option StoreCall}
    (h : ∀ a, x = .ok a → Writes (f a) store (w a)) : Writes (orFail env rslt x >>= f) store (x.toOption >>= w) := by
  apply post_orFail_bind
  · intro a ha
    subst ha
    exact h a rfl
  · rintro e rfl
    rfl

/-- So does one that panics. -/
theorem writes_orPanic {x : Option α} {f : α → Handling InstanceStore β} {w : α → Option StoreCall}
    (h : ∀ a, Writes (f a) store (w a)) : Writes (orPanic x >>= f) store (x >>= w) := by
  apply post_orPanic_bind
  · rintro a rfl
    exact h a
  · rintro rfl
    rfl

/-- So does one that either fails or panics. -/
theorem writes_orStop {x : Reply α} {f : α → Handling InstanceStore β} {w : α → Option StoreCall}
    (h : ∀ a, Writes (f a) store (w a)) : Writes (orStop env rslt x >>= f) store (x.toOption >>= w) := by
  apply post_orStop_bind
  · rintro a rfl
    exact h a
  · rintro e rfl
    rfl
  · rintro g rfl
    rfl

theorem writes_getPacked {key : String} {f : Option Bytes → Handling InstanceStore β} {w : Option Bytes → Option StoreCall}
    (h : ∀ packed, Writes (f packed) store (w packed)) :
    Writes (Logic.getPacked key >>= f) store (store.getPacked key >>= w) := by
  apply post_bind
  unfold Logic.getPacked
  apply post_get_bind
  cases store.getPacked key with
  | some packed => exact h packed
  | none => rfl

/-- What does not write. -/
theorem quiet_orFail {x : Except GoError α} {f : α → Handling InstanceStore β} (h : ∀ a, Writes (f a) store none) :
    Writes (orFail env rslt x >>= f) store none := by
  have all : Writes (orFail env rslt x >>= f) store (x.toOption >>= fun _ => none) := writes_orFail fun a _ => h a
  cases x <;> exact all

theorem quiet_orStop {x : Reply α} {f : α → Handling InstanceStore β} (h : ∀ a, Writes (f a) store none) :
    Writes (orStop env rslt x >>= f) store none := by
  have all : Writes (orStop env rslt x >>= f) store (x.toOption >>= fun _ => none) := writes_orStop h
  cases x <;> exact all

/-- The call of a command that does not write. -/
theorem quiet_orPanic {x : Option α} {f : α → Handling InstanceStore β} (h : ∀ a, Writes (f a) store none) :
    Writes (orPanic x >>= f) store none := by
  have all : Writes (orPanic x >>= f) store (x >>= fun _ => none) := writes_orPanic h
  cases x <;> exact all

theorem quiet_fail {e : GoError} : Writes (orFail env rslt (.error e) : Handling InstanceStore α) store none := rfl

/-- `READ` only looks into the store. -/
theorem read_writes : Writes (Logic.read direction args) store none := by
  unfold Logic.read
  apply post_ite
  · intro _
    apply post_get_bind
    exact quiet_orPanic fun _ => rfl
  · intro _
    rfl

theorem update_writes : Writes (Logic.update cnc args) store none := by
  apply post_get_bind
  exact quiet_orPanic fun _ => rfl

theorem delete_writes : Writes (Logic.delete cnc args) store none := by
  apply post_getPacked_bind
  · intro packed _
    rfl
  · rfl

/-- The validations leave the store to the steps behind them. -/
theorem validateCreate_writes : Writes (Logic.validateCreate env cnc logic direction args) store none := by
  unfold Logic.validateCreate
  apply post_ite
  · intro _
    apply quiet_orFail
    intro payloadIn
    apply quiet_orStop
    intro payloadOut
    exact quiet_orFail fun _ => rfl
  · intro _
    rfl

theorem validateUpdate_writes : Writes (Logic.validateUpdate env cnc logic direction args) store none := by
  unfold Logic.validateUpdate
  apply post_ite
  · intro _
    cases args.inst with
    | none => exact quiet_fail
    | some instBytes =>
      apply quiet_orFail
      intro inst
      apply quiet_orFail
      intro payloadIn
      apply quiet_orFail
      intro _
      apply quiet_orStop
      intro payloadOut
      exact quiet_orFail fun _ => rfl
  · intro _
    rfl

/-- `REFRESH_INSTANCE` does its write. -/
theorem refreshInstance_writes :
    Writes (Logic.refreshInstance env pb cnc args) store (Logic.refreshInstanceWrite pb cnc args store) := by
  apply writes_orFail
  rintro ⟨instBytes, relBytes⟩ _
  apply writes_orFail
  intro rel _
  apply post_get_bind
  apply writes_orStop
  intro relSteps
  apply post_modify_bind
  apply post_getPacked_bind
  · intro packed _
    rfl
  · rfl

/-- `FLUSH_INSTANCE` does its write. -/
theorem flushInstance_writes : Writes (Logic.flushInstance args) store (Logic.flushInstanceWrite args store) := by
  apply writes_getPacked
  intro packed
  cases packed <;> rfl

/-- `storeRelated` writes if something has changed, and its failure is that of the write. -/
theorem storeRelated_writes {relBytes : Bytes} {changed : Bool} {f : Unit → Handling InstanceStore β}
    (h : ∀ store', Writes (f ()) store' none) :
    Writes (Logic.storeRelated env args relBytes changed >>= f) store
      (if changed then some (.setRelated args.key (some relBytes) args.cmpdOffset) else none) := by
  apply post_storeRelated_bind
  · rintro rfl
    exact h store
  · rintro store' rfl ok
    exact (h store').trans (StoreCall.after_setRelated ok).symm
  · intro e he
    have failed : (StoreCall.setRelated args.key (some relBytes) args.cmpdOffset).Fails store := ⟨e, he⟩
    cases changed with
    | false => rfl
    | true => exact (StoreCall.after_failed failed).symm

/-- `REQUEST_RELATED` does its write: nothing behind `storeRelated` writes again. -/
theorem requestRelated_writes :
    Writes (Logic.requestRelated env pb cnc .forward args) store (Logic.requestRelatedWrite pb cnc args store) := by
  unfold Logic.requestRelated
  rw [if_pos rfl]
  apply writes_orFail
  intro relReq _
  apply post_get_bind
  apply writes_orFail
  rintro ⟨rel, _⟩ _
  apply writes_orFail
  rintro ⟨rel', changed⟩ _
  apply writes_orFail
  intro relBytes _
  apply writes_orPanic
  intro relPayload
  apply storeRelated_writes
  intro store'
  exact quiet_orFail fun _ => rfl

/-- `REFRESH_RELATED` does its write. -/
theorem refreshRelated_writes :
    Writes (Logic.refreshRelated env pb cnc .forward args) store (Logic.refreshRelatedWrite pb cnc args store) := by
  unfold Logic.refreshRelated
  rw [if_pos rfl]
  apply writes_orFail
  intro relRsp _
  apply post_get_bind
  apply writes_orFail
  rintro ⟨rel, _⟩ _
  apply writes_orFail
  rintro ⟨rel', changed⟩ _
  apply writes_orFail
  intro relBytes _
  apply storeRelated_writes
  intro store'
  apply post_getPacked_bind
  · intro packed _
    rfl
  · rfl

/-- A command whose output cannot be marshalled ends before its write. -/
theorem commandOutput_writes {cmd : ConcernCommand M} {payloadOut : Option M} {f : StepResult → Handling InstanceStore β}
    {w : Option StoreCall} (h : ∀ r, Writes (f r) store w) :
    Writes (Logic.commandOutput env cmd payloadOut >>= f) store (Logic.outputOf cmd payloadOut >>= fun _ => w) := by
  apply post_bind
  unfold Logic.commandOutput Logic.outputOf
  cases cmd.output with
  | none => exact h _
  | some output =>
    apply post_orFail_bind
    · intro payload ok
      dsimp only
      rw [ok]
      exact h _
    · intro e failed
      dsimp only
      rw [failed]
      rfl

/-- A changed instance is written behind all that can fail. -/
theorem storeChanged_writes {instSer : Bytes} :
    Writes (Logic.storeChanged env pb cnc args rslt instSer) store (Logic.changedWrite pb cnc args store instSer) := by
  apply post_get_bind
  apply writes_orFail
  rintro ⟨rel, relBytes⟩ _
  apply writes_orStop
  intro relSteps
  apply post_modify_bind
  rfl

/-- A command of the concern writes if its handler has changed the instance. -/
theorem command_writes {cmd : ConcernCommand M} :
    Writes (Logic.command env pb cnc logic .forward args cmd) store (Logic.commandWrite pb cnc logic args store cmd) := by
  unfold Logic.command Logic.commandWrite
  rw [if_pos rfl]
  cases args.inst with
  | none => exact quiet_fail
  | some instBytes =>
    apply writes_orFail
    intro inst _
    apply post_get_bind
    apply writes_orFail
    rintro ⟨rel, _⟩ _
    rw [commandInput_eq]
    apply writes_orFail
    intro payloadIn _
    apply writes_orStop
    rintro ⟨inst', payloadOut⟩
    apply commandOutput_writes
    intro r
    apply writes_orFail
    intro instSer _
    apply post_ite
    · intro differs
      rw [if_pos differs]
      exact storeChanged_writes
    · intro same
      rw [if_neg same]
      rfl

/-- The commands of the platform that only read. -/
theorem write_none {cmd : String} (notRefresh : cmd ≠ Command.refreshInstance) (notFlush : cmd ≠ Command.flushInstance)
    (notRequest : cmd ≠ Command.requestRelated) (notRelated : cmd ≠ Command.refreshRelated)
    (reserved : isReservedCommand cmd = true) : Logic.write pb cnc logic args store direction cmd = none := by
  simp [Logic.write, notRefresh, notFlush, notRequest, notRelated, reserved]

/-- A related command runs forward only. -/
theorem requestRelated_write :
    Logic.write pb cnc logic args store direction Command.requestRelated =
      if direction ≠ .forward then none else Logic.requestRelatedWrite pb cnc args store := by
  have notRefresh : Command.requestRelated ≠ Command.refreshInstance := by decide
  have notFlush : Command.requestRelated ≠ Command.flushInstance := by decide
  simp [Logic.write, notRefresh, notFlush]

theorem refreshRelated_write :
    Logic.write pb cnc logic args store direction Command.refreshRelated =
      if direction ≠ .forward then none else Logic.refreshRelatedWrite pb cnc args store := by
  have notRefresh : Command.refreshRelated ≠ Command.refreshInstance := by decide
  have notFlush : Command.refreshRelated ≠ Command.flushInstance := by decide
  have notRequest : Command.refreshRelated ≠ Command.requestRelated := by decide
  simp [Logic.write, notRefresh, notFlush, notRequest]

/-- A command of the concern runs forward only. -/
theorem concernCommand_write {cmd : String} (free : isReservedCommand cmd = false) :
    Logic.write pb cnc logic args store direction cmd =
      if direction ≠ .forward then none
      else (cnc.commands.find? fun c => c.name = cmd).bind (Logic.commandWrite pb cnc logic args store) := by
  simp [Logic.write, not_reserved free, free]

theorem concernCommand_writes {cmd : String} {c : ConcernCommand M}
    (found : cnc.commands.find? (fun c => c.name = cmd) = some c) :
    Writes (Logic.command env pb cnc logic direction args c) store
      (Logic.write pb cnc logic args store direction cmd) := by
  have name : c.name = cmd := by simpa using List.find?_some found
  have free : isReservedCommand cmd = false := name ▸ cnc.commands_free c (List.mem_of_find?_eq_some found)
  rw [concernCommand_write free, found]
  split
  · rename_i other
    unfold Logic.command
    rw [if_neg other]
    exact quiet_fail
  · rename_i forward
    rw [not_not] at forward
    subst forward
    exact command_writes

/-- Each case of the switch does its write. -/
theorem dispatch_writes {cmd : String} :
    Writes (Logic.dispatch env pb cnc logic direction args cmd) store
      (Logic.write pb cnc logic args store direction cmd) := by
  unfold Logic.dispatch
  apply post_ite
  · rintro rfl
    rw [write_none (by decide) (by decide) (by decide) (by decide) (by decide)]
    exact quiet_fail
  intro _
  apply post_ite
  · rintro rfl
    rw [write_none (by decide) (by decide) (by decide) (by decide) (by decide)]
    exact read_writes
  intro _
  apply post_ite
  · rintro rfl
    rw [write_none (by decide) (by decide) (by decide) (by decide) (by decide)]
    exact update_writes
  intro _
  apply post_ite
  · rintro rfl
    rw [write_none (by decide) (by decide) (by decide) (by decide) (by decide)]
    exact delete_writes
  intro _
  apply post_ite
  · rintro rfl
    exact refreshInstance_writes
  intro notRefresh
  apply post_ite
  · rintro rfl
    exact flushInstance_writes
  intro notFlush
  apply post_ite
  · rintro rfl
    rw [write_none (by decide) (by decide) (by decide) (by decide) (by decide)]
    exact validateCreate_writes
  intro _
  apply post_ite
  · rintro rfl
    rw [write_none (by decide) (by decide) (by decide) (by decide) (by decide)]
    exact validateUpdate_writes
  intro _
  apply post_ite
  · rintro rfl
    rw [requestRelated_write]
    split
    · rename_i other
      unfold Logic.requestRelated
      rw [if_neg other]
      rfl
    · rename_i forward
      rw [not_not] at forward
      subst forward
      exact requestRelated_writes
  intro notRequest
  apply post_ite
  · rintro rfl
    rw [refreshRelated_write]
    split
    · rename_i other
      unfold Logic.refreshRelated
      rw [if_neg other]
      rfl
    · rename_i forward
      rw [not_not] at forward
      subst forward
      exact refreshRelated_writes
  intro notRelated
  split
  · rename_i c found
    exact concernCommand_writes found
  · rename_i absent
    have nothing : Logic.write pb cnc logic args store direction cmd = none := by
      cases reserved : isReservedCommand cmd with
      | true => exact write_none notRefresh notFlush notRequest notRelated reserved
      | false =>
        rw [concernCommand_write reserved, absent]
        split <;> rfl
    rw [nothing]
    exact quiet_fail

/-- The store after a process command is the store after its write. -/
theorem handleLogicCommand_write (env : Env) (call : Call) :
    (cnc.handleLogicCommand env pb logic call store).2 = written store (cnc.write pb logic call store) := by
  unfold Concern.handleLogicCommand Concern.write
  by_cases noResult : (call.direction = .reverse && call.args.forwardResult.isNone) = true
  · simp only [noResult, if_true, Bool.true_or]
    rfl
  by_cases system : call.system = .process
  · have ends : Writes (Logic.dispatch env pb cnc logic call.direction call.args call.command) store _ := dispatch_writes
    simp only [noResult, system]
    exact ends
  · simp [noResult, system]
    rfl

end

end Rocketcycle
