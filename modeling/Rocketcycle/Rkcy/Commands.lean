import Rocketcycle.Rkcypb

/-!
# Commands

`pkg/rkcy/commands.go`: the command names the platform reserves, and the step predicates of
`pkg/rkcy/apecs_txn.go` that are about system and command alone.
-/

namespace Rocketcycle

namespace Command

def create : String := "Create"
def read : String := "Read"
def update : String := "Update"
def updateAsync : String := "UpdateAsync"
def delete : String := "Delete"
def validateCreate : String := "ValidateCreate"
def validateUpdate : String := "ValidateUpdate"
def refreshInstance : String := "RefreshInstance"
def flushInstance : String := "FlushInstance"
def requestRelated : String := "RequestRelated"
def refreshRelated : String := "RefreshRelated"

end Command

open Command

def reservedCommands : List String :=
  [create, read, update, updateAsync, delete, validateCreate, validateUpdate,
    refreshInstance, flushInstance, requestRelated, refreshRelated]

def isReservedCommand (cmd : String) : Bool := reservedCommands.contains cmd

/-- Despite its name, true of every command that is not reserved. -/
def isPlatformCommand (cmd : String) : Bool := !isReservedCommand cmd

def txnProhibitedCommands : List String :=
  [validateCreate, validateUpdate, refreshInstance, flushInstance, requestRelated, refreshRelated]

def isTxnProhibitedCommand (cmd : String) : Bool := txnProhibitedCommands.contains cmd

def isStorageSystem (system : System) : Bool := system = .storage || system = .storageScnd

def Step.isKeylessStep (step : Step) : Bool :=
  (step.system = .storage && step.command = create) ||
    (step.system = .process && step.command = validateCreate)

def Step.isInstanceStoreStep (step : Step) : Bool :=
  step.system = .process && (step.command = refreshInstance || step.command = flushInstance)

/-- The writes that a `STORAGE` step makes inline, and that are copied to secondary storage. -/
def Step.isStorageWrite (step : Step) : Bool :=
  step.system = .storage &&
    (step.command = create || step.command = update || step.command = delete)

theorem isReservedCommand_iff {cmd : String} :
    isReservedCommand cmd = true ↔ cmd ∈ reservedCommands := by
  simp [isReservedCommand]

/-- A command that is not reserved is none of the platform's own. -/
theorem not_reserved {cmd : String} (h : isReservedCommand cmd = false) :
    cmd ≠ create ∧ cmd ≠ read ∧ cmd ≠ update ∧ cmd ≠ updateAsync ∧ cmd ≠ delete ∧
      cmd ≠ validateCreate ∧ cmd ≠ validateUpdate ∧ cmd ≠ refreshInstance ∧
      cmd ≠ flushInstance ∧ cmd ≠ requestRelated ∧ cmd ≠ refreshRelated := by
  simpa [isReservedCommand, reservedCommands] using h

@[simp] theorem isKeylessStep_wire (s : Step) : (wireStep s).isKeylessStep = s.isKeylessStep := rfl

@[simp] theorem isStorageWrite_wire (s : Step) : (wireStep s).isStorageWrite = s.isStorageWrite := rfl

end Rocketcycle
