import Rocketcycle.Concern.Related

/-!
# Process commands

`HandleLogicCommand` of the template `rkcy.go.tmpl`, one definition a case of its switch. A case
runs on the instance store of its consumer and may end early, with an error in the result or in a
panic; what it has written to the store by then stays.
-/

namespace Rocketcycle

open Command

variable {M : Type}

abbrev Processing := Handling InstanceStore Answer

namespace Logic

section
variable (env : Env) (pb : RelatedCodecs) (cnc : Concern M) (logic : LogicHandler M)
  (direction : Direction) (args : StepArgs)

def getPacked (key : String) : Handling InstanceStore (Option Bytes) := do
  let instanceStore ← get
  orPanic (instanceStore.getPacked key)

/-- What a case answers in a direction that it does not support: it is only logged. -/
def noOp : Processing := pure ({}, [])

def read : Processing :=
  if direction = .forward then do
    let instanceStore ← get
    let payload ← orPanic (packPayloads args.inst (instanceStore.getRelated args.key))
    return ({ payload := some payload }, [])
  else noOp

def update : Processing := do
  let instanceStore ← get
  let payload ← orPanic (packPayloads args.payload (instanceStore.getRelated args.key))
  return ({}, [{ system := .storage, concern := cnc.name, command := Command.update, key := args.key,
                 payload := some payload }])

def delete : Processing := do
  let payload ← getPacked args.key
  return ({}, [{ system := .storage, concern := cnc.name, command := Command.delete, key := args.key,
                 payload := payload }])

/-- The related data a refresh carries: what came with the instance, or else what the store has. -/
def refreshedRelated (instanceStore : InstanceStore) (key : String) (relBytes : Option Bytes) : Option Bytes :=
  match relBytes with
  | some (b :: bs) => some (b :: bs)
  | _ => instanceStore.getRelated key

/-- `REFRESH_INSTANCE` after its payload has been parsed. -/
def storeInstance (rel : M) (instBytes relBytes : Option Bytes) : Processing := do
  let instanceStore ← get
  let relBytes := refreshedRelated instanceStore args.key relBytes
  let relSteps ← orStop env {} <|
    if args.inst.isSome then cnc.refreshRelatedSteps pb rel args.key instBytes relBytes else .ok []
  modify fun instanceStore => instanceStore.set args.key instBytes relBytes args.cmpdOffset
  -- read again, the write may have been out of order
  let payload ← getPacked args.key
  return ({ payload := payload }, relSteps)

def refreshInstance : Processing := do
  let (instBytes, relBytes) ← orFail env {} (parsePayload args.payload)
  let rel ← orFail env {} (cnc.parseRelated relBytes)
  storeInstance env pb cnc args rel instBytes relBytes

def flushInstance : Processing := do
  let packed ← getPacked args.key
  if packed.isSome then
    modify fun instanceStore => instanceStore.remove args.key
  return ({ payload := packed }, [])

def validateCreate : Processing :=
  if direction = .forward then do
    let payloadIn ← orFail env {} (cnc.unmarshalOpt args.payload)
    let payloadOut ← orStop env {} (logic.validateCreate payloadIn)
    let payload ← orFail env {} (cnc.marshalOpt payloadOut)
    return ({ payload := payload }, [])
  else noOp

/-- `PreValidateUpdate` of the instance. -/
def preValidateUpdate (inst updated : M) : Except GoError Unit :=
  if cnc.key updated = "" || cnc.key inst ≠ cnc.key updated then
    .error (.rkcy .invalidArgument s!"Mismatched Keys during PreValidateUpdate for {cnc.name}")
  else .ok ()

def validateUpdate : Processing :=
  if direction = .forward then
    match args.inst with
    | none => orFail env {} (.error (.other "No instance exists during VALIDATE_UPDATE"))
    | some instBytes => do
      let inst ← orFail env {} (cnc.unmarshal instBytes)
      let payloadIn ← orFail env {} (cnc.unmarshalOpt args.payload)
      orFail env {} (preValidateUpdate cnc inst payloadIn)
      let payloadOut ← orStop env {} (logic.validateUpdate inst payloadIn)
      let payload ← orFail env {} (cnc.marshalOpt payloadOut)
      return ({ payload := payload }, [])
  else noOp

/-- Puts the related data back if a handler changed it. -/
def storeRelated (relBytes : Bytes) (changed : Bool) : Handling InstanceStore Unit := do
  if changed then
    let instanceStore ← get
    let instanceStore ← orFail env {} (instanceStore.setRelated args.key (some relBytes) args.cmpdOffset)
    set instanceStore

def requestRelated : Processing :=
  if direction = .forward then do
    let relReq ← orFail env {} (pb.request.unmarshalOpt args.payload)
    let instanceStore ← get
    let (rel, _) ← orFail env {} (cnc.getRelated args.key instanceStore)
    let (rel, changed) ← orFail env {} (cnc.handleRequestRelated rel relReq)
    let relBytes ← orFail env {} (cnc.related.marshal rel)
    let relPayload ← orPanic (packPayloads args.inst (some relBytes))
    storeRelated env args relBytes changed
    let relRspBytes ← orFail env {} (pb.response.marshal ⟨cnc.name, relReq.field, some relPayload⟩)
    return ({ payload := some relRspBytes },
      [{ system := .process, concern := relReq.concern, command := Command.refreshRelated, key := relReq.key,
         payload := some relRspBytes, effectiveTime := some env.now }])
  else noOp

def refreshRelated : Processing :=
  if direction = .forward then do
    let relRsp ← orFail env {} (pb.response.unmarshalOpt args.payload)
    let instanceStore ← get
    let (rel, _) ← orFail env {} (cnc.getRelated args.key instanceStore)
    let (rel, changed) ← orFail env {} (cnc.handleRefreshRelated rel relRsp)
    let relBytes ← orFail env {} (cnc.related.marshal rel)
    storeRelated env args relBytes changed
    let payload ← getPacked args.key
    return ({ payload := payload }, [])
  else noOp

/-- The input of a command. -/
def commandInput (cmd : ConcernCommand M) : Handling InstanceStore (Option M) :=
  match cmd.input with
  | none => pure none
  | some input => do
    let payloadIn ← orFail env {} (input.unmarshalOpt args.payload)
    return some payloadIn

/-- The result that carries the output of a command. -/
def commandOutput (cmd : ConcernCommand M) (payloadOut : Option M) : Handling InstanceStore StepResult :=
  match cmd.output with
  | none => pure {}
  | some output => do
    let payload ← orFail env {} (output.marshalOpt payloadOut)
    return { payload := payload }

/-- What follows a command whose instance has become `instSer`. -/
def storeChanged (rslt : StepResult) (instSer : Bytes) : Processing := do
  let instanceStore ← get
  let (rel, relBytes) ← orFail env rslt (cnc.getRelated args.key instanceStore)
  let relSteps ← orStop env rslt (cnc.refreshRelatedSteps pb rel args.key (some instSer) relBytes)
  modify fun instanceStore => instanceStore.setInstance args.key (some instSer) args.cmpdOffset
  return ({ rslt with inst := some instSer }, relSteps)

/-- A command of the concern's service. -/
def command (cmd : ConcernCommand M) : Processing :=
  if direction = .forward then
    match args.inst with
    | none => orFail env {} (.error (.other "No instance exists during HandleLogicCommand"))
    | some instBytes => do
      let inst ← orFail env {} (cnc.unmarshal instBytes)
      let instanceStore ← get
      let (rel, _) ← orFail env {} (cnc.getRelated (cnc.key inst) instanceStore)
      let payloadIn ← commandInput env args cmd
      let (inst, payloadOut) ← orStop env {} (logic.command cmd.name inst rel payloadIn)
      let rslt ← commandOutput env cmd payloadOut
      let instSer ← orFail env rslt (cnc.marshal inst)
      -- has the command changed the instance?
      if instSer ≠ instBytes then storeChanged env pb cnc args rslt instSer
      else return (rslt, [])
  else orFail env {} (.error (.other s!"Reverse not supported for concern command: {cmd.name}"))

def invalid (cmd : String) : Processing :=
  orFail env {} (.error (.other s!"Invalid process command: {cmd}"))

/-- The switch. -/
def dispatch (cmd : String) : Processing :=
  if cmd = Command.create then invalid env cmd
  else if cmd = Command.read then read direction args
  else if cmd = Command.update then update cnc args
  else if cmd = Command.delete then delete cnc args
  else if cmd = Command.refreshInstance then refreshInstance env pb cnc args
  else if cmd = Command.flushInstance then flushInstance args
  else if cmd = Command.validateCreate then validateCreate env cnc logic direction args
  else if cmd = Command.validateUpdate then validateUpdate env cnc logic direction args
  else if cmd = Command.requestRelated then requestRelated env pb cnc direction args
  else if cmd = Command.refreshRelated then refreshRelated env pb cnc direction args
  else
    match cnc.commands.find? fun c => c.name = cmd with
    | some c => command env pb cnc logic direction args c
    | none => invalid env cmd

end

end Logic

/-- `HandleLogicCommand`. -/
def Concern.handleLogicCommand (env : Env) (pb : RelatedCodecs) (cnc : Concern M) (logic : LogicHandler M)
    (call : Call) : InstanceStore → (Option StepResult × List Step) × InstanceStore :=
  finish do
    if call.direction = .reverse && call.args.forwardResult.isNone then
      orFail env {} (.error (.other "Unable to reverse step with nil ForwardResult"))
    else if call.system ≠ .process then
      orFail env {} (.error (.other s!"Invalid system: {call.system.string}"))
    else Logic.dispatch env pb cnc logic call.direction call.args call.command

end Rocketcycle
