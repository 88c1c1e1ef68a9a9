import Rocketcycle.Concern.Logic
import Rocketcycle.Storage.RamDb

/-!
# Storage commands

`HandleCrudCommand` of the template `rkcy.go.tmpl` over the `RamDb` handlers it generates, and
`handleCommand` of `pkg/apecs/apecs_runner.go`, which chooses between the two kinds of command.
The handlers of a storage type share one database.
-/

namespace Rocketcycle

open Command

variable {M : Type}

/-! ## The handlers of a concern -/

/-- `Read`: the assertion on the type of the related message panics when it is `nil`. -/
def Concern.ramDbRead (cnc : Concern M) (db : RamDb M) (key : String) : Reply (M × M × CompoundOffset) :=
  match db.read cnc.name key with
  | .error e => .error (.err e)
  | .ok ⟨inst, some rel, cmpdOffset⟩ => .ok (inst, rel, cmpdOffset)
  | .ok ⟨_, none, _⟩ => .error (.panic .typeAssertion)

/-- `Create`: an instance without a key is given one. -/
def Concern.ramDbCreate (cnc : Concern M) (newKey : String) (db : RamDb M) (inst : M)
    (cmpdOffset : CompoundOffset) : M × RamDb M :=
  let inst := if cnc.key inst = "" then cnc.setKey inst newKey else inst
  (inst, db.create cnc.name (cnc.key inst) inst cmpdOffset)

def Concern.ramDbUpdate (cnc : Concern M) (db : RamDb M) (inst rel : M) (cmpdOffset : CompoundOffset) : RamDb M :=
  db.update cnc.name (cnc.key inst) inst (some rel) cmpdOffset

def Concern.ramDbDelete (cnc : Concern M) (db : RamDb M) (key : String) (cmpdOffset : CompoundOffset) : RamDb M :=
  db.delete cnc.name key cmpdOffset

/-! ## The commands -/

namespace Crud

section
variable (env : Env) (pb : RelatedCodecs) (cnc : Concern M) (args : StepArgs)

/-- The steps that bring the cache up to date. -/
def refreshStep (key : String) (payload : Option Bytes) : Step :=
  { system := .process, concern := cnc.name, command := refreshInstance, key := key, payload := payload,
    effectiveTime := some args.effectiveTime }

def flushStep (key : String) : Step :=
  { system := .process, concern := cnc.name, command := flushInstance, key := key,
    effectiveTime := some args.effectiveTime }

/-- The instance of the payload, and the bytes of its two parts. -/
def parseInstance : Handling (RamDb M) (M × Option Bytes × Option Bytes) := do
  let (instBytes, relBytes) ← orFail env {} (parsePayload args.payload)
  let inst ← orFail env {} (cnc.unmarshalOpt instBytes)
  return (inst, instBytes, relBytes)

/-- A failure after the instance has been created takes it out again. -/
def cleanUp (rslt : StepResult) (key : String) {α : Type} : Reply α → Handling (RamDb M) α
  | .ok a => pure a
  | .error (.err e) => do
    modify fun db => cnc.ramDbDelete db key args.cmpdOffset
    orFail env rslt (.error e)
  | .error (.panic _) => throw .panic

def create : Handling (RamDb M) Answer := do
  let (inst, _, relBytes) ← parseInstance env cnc args
  let db ← get
  let (instOut, db) := cnc.ramDbCreate env.newKey db inst args.cmpdOffset
  set db
  let key := cnc.key instOut
  if key = "" then
    cleanUp env cnc args {} key (.error (.err (.other s!"No Key set in CREATE {cnc.name}")))
  else
    let instOutBytes ← cleanUp env cnc args {} key (orErr (cnc.marshal instOut))
    let payload ← orPanic (packPayloads (some instOutBytes) relBytes)
    let rslt : StepResult := { key := key, cmpdOffset := some args.cmpdOffset, payload := some payload }
    let relSteps ← cleanUp env cnc args rslt key (cnc.requestRelatedSteps pb instOut (some instOutBytes) none)
    return (rslt, refreshStep cnc args key rslt.payload :: relSteps)

def read : Handling (RamDb M) Answer := do
  let db ← get
  let (inst, rel, cmpdOffset) ← orStop env {} (cnc.ramDbRead db args.key)
  let rslt : StepResult := { cmpdOffset := some cmpdOffset }
  let instBytes ← orFail env rslt (cnc.marshal inst)
  let relBytes ← orFail env rslt (cnc.related.marshal rel)
  let payload ← orPanic (packPayloads (some instBytes) (some relBytes))
  let rslt := { rslt with key := cnc.key inst, payload := some payload }
  return (rslt, [refreshStep cnc args rslt.key rslt.payload])

/-- Shared by `UPDATE` and `UPDATE_ASYNC`, of both kinds of target. -/
def write : Handling (RamDb M) (M × Option Bytes × Option Bytes) := do
  let (inst, instBytes, relBytes) ← parseInstance env cnc args
  let rel ← orFail env {} (cnc.parseRelated relBytes)
  modify fun db => cnc.ramDbUpdate db inst rel args.cmpdOffset
  return (inst, instBytes, relBytes)

def update : Handling (RamDb M) Answer := do
  let (inst, instBytes, relBytes) ← write env cnc args
  let payload ← orPanic (packPayloads instBytes relBytes)
  let rslt : StepResult := { key := cnc.key inst, inst := args.inst, payload := some payload }
  return (rslt, [refreshStep cnc args rslt.key rslt.payload])

def updateAsync : Handling (RamDb M) Answer := do
  let _ ← write env cnc args
  return ({}, [])

def delete : Handling (RamDb M) Answer := do
  modify fun db => cnc.ramDbDelete db args.key args.cmpdOffset
  return ({ key := args.key }, [flushStep cnc args args.key])

def createScnd : Handling (RamDb M) Answer := do
  let (inst, _, _) ← parseInstance env cnc args
  if cnc.key inst = "" then orFail env {} (.error (.other "Empty key in CREATE STORAGE_SCND"))
  else
    modify fun db => (cnc.ramDbCreate env.newKey db inst args.cmpdOffset).2
    return ({ key := cnc.key inst, payload := args.payload }, [])

def deleteScnd : Handling (RamDb M) Answer := do
  modify fun db => cnc.ramDbDelete db args.key args.cmpdOffset
  return ({ key := args.key }, [])

def invalid (cmd : String) : Handling (RamDb M) Answer := orFail env {} (.error (.other s!"Invalid storage command: {cmd}"))

/-- The switch of a primary target. -/
def storage (cmd : String) : Handling (RamDb M) Answer :=
  if cmd = Command.create then create env pb cnc args
  else if cmd = Command.read then read env cnc args
  else if cmd = Command.update then update env cnc args
  else if cmd = Command.updateAsync then updateAsync env cnc args
  else if cmd = Command.delete then delete cnc args
  else invalid env cmd

/-- The switch of a secondary target. -/
def storageScnd (cmd : String) : Handling (RamDb M) Answer :=
  if cmd = Command.create then createScnd env cnc args
  else if cmd = Command.update ∨ cmd = Command.updateAsync then updateAsync env cnc args
  else if cmd = Command.delete then deleteScnd cnc args
  else invalid env cmd

/-- A command on the target that was found. -/
def onTarget (stgTgt : StorageTarget) (system : System) (direction : Direction) (cmd : String) : Handling (RamDb M) Answer :=
  let refuse (msg : String) : Handling (RamDb M) Answer := orFail env {} (.error (.other msg))
  if system = .storage then
    if !stgTgt.isPrimary then
      refuse s!"Storage target is not primary in STORAGE target: {stgTgt.name}, command: {cmd}"
    else storage env pb cnc args cmd
  else if stgTgt.isPrimary then
    refuse s!"Storage target is primary in STORAGE_SCND handler: {stgTgt.name}, command: {cmd}"
  else if direction ≠ .forward then
    refuse s!"Reverse direction not supported in STORAGE_SCND handler: {stgTgt.name}, command: {cmd}"
  else storageScnd env cnc args cmd

end

end Crud

/-- What a consumer works on: its instance store, and the databases by storage type. -/
structure Platform (M : Type) where
  instanceStore : InstanceStore
  ramDbs : String → RamDb M

section
variable (cc : ClientCode M) (env : Env)

/-- A failure before any database is used. -/
def refused (msg : String) (plat : Platform M) : (Option StepResult × List Step) × Platform M :=
  ((some (setStepResult env.sprintf {} (.other msg)), []), plat)

/-- `HandleCrudCommand`. -/
def Concern.handleCrudCommand (cnc : Concern M) (call : Call) (plat : Platform M) :
    (Option StepResult × List Step) × Platform M :=
  if call.direction = .reverse && call.args.forwardResult.isNone then
    refused env "Unable to reverse step with nil ForwardResult" plat
  else if !isStorageSystem call.system then refused env s!"Invalid system: {call.system.string}" plat
  else
    match cc.storageTargets call.storageTarget with
    | none => refused env s!"No matching StorageTarget: {call.storageTarget}, {env.showTargets}" plat
    | some stgTgt =>
      if stgTgt.type ∈ cc.crudHandlers then
        let (answer, db) := finish (Crud.onTarget env cc.pb cnc call.args stgTgt call.system call.direction
          call.command) (plat.ramDbs stgTgt.type)
        (answer, { plat with ramDbs := fun type => if type = stgTgt.type then db else plat.ramDbs type })
      else refused env s!"No CrudHandler for {stgTgt.type}" plat

/-- `handleCommand`. -/
def handleCommand (logic : LogicHandler M) : HandleCommand (Platform M) := fun call plat =>
  match cc.concernHandler call.concern with
  | none => refused env s!"No handler for concern: '{call.concern}'" plat
  | some cnc =>
    if call.system = .process then
      let (answer, instanceStore) := cnc.handleLogicCommand env cc.pb logic call plat.instanceStore
      (answer, { plat with instanceStore := instanceStore })
    else if isStorageSystem call.system then cnc.handleCrudCommand cc env call plat
    else refused env s!"Invalid system: {call.system.string}" plat

end

end Rocketcycle
