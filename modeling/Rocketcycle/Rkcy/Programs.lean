import Rocketcycle.Rkcy.WellFormed
import Rocketcycle.Rkcy.TopicParts
import Rocketcycle.Lib.Templates
import Rocketcycle.Lib.GoMaps

/-!
# The programs of a definition

`getAllProgs` and `Diff` of `pkg/rkcy/platform_def.go`. The programs of a topic are templates, which are
expanded for each of its partitions. The tags in a string are replaced one after another in the order in
which a loop goes through a map, and each string has a loop of its own.
-/

namespace Rocketcycle.Definition
open Templates

/-! ## Substitution -/

/-- `strings.ReplaceAll`, of a text that is not empty. -/
def stringsReplaceAll (s old new : String) : String := String.ofList (replaceTags [(old.toList, new.toList)] 0 s.toList)

/-- The loop goes through the map in the order of its entries. -/
def substStr (s : String) (substMap : GoMap String String) : String :=
  substMap.entries.foldl (fun s e => stringsReplaceAll s e.1 e.2) s

def gStdTags : List (String × String) :=
  [("service.name", "rkcy.@platform.@environment.@concern.@system"), ("rkcy.environment", "@environment"),
    ("rkcy.concern", "@concern"), ("rkcy.system", "@system"), ("rkcy.topic", "@topic"), ("rkcy.partition", "@partition")]

/-- A string of a program. -/
inductive Field where
  | name
  | arg (j : Nat)
  | abbreviation
  | stdTag (k : String)
  | tag (k : String)

/-- A call of `substStr`: the string of a program for a partition. -/
structure SubstCall where
  concern : Nat
  topics : Nat
  program : Nat
  partition : Nat
  field : Field

/-- What `Diff` is told of the process it runs in. -/
structure AdminArgs where
  streamType : String
  adminBrokers : String
  otelcolEndpoint : String

def tagNames : List String :=
  ["@platform", "@environment", "@stream", "@admin_brokers", "@otelcol_endpoint", "@concern", "@consumer_brokers", "@system", "@topic", "@partition"]

/-- The map `substMap` for a partition. -/
def partitionSubsts (platformName environment : String) (args : AdminArgs) (concernName brokers system topic : String) (i : Nat) : GoMap String String where
  entries :=
    [("@platform", platformName), ("@environment", environment), ("@stream", args.streamType), ("@admin_brokers", args.adminBrokers),
      ("@otelcol_endpoint", args.otelcolEndpoint), ("@concern", concernName), ("@consumer_brokers", brokers), ("@system", system),
      ("@topic", topic), ("@partition", toString i)]
  distinct := by
    show tagNames.Nodup
    decide

/-! ## Expansion -/

/-- The tags of the template come after those of `gStdTags`. -/
def expandProg (order : Field → MapOrder String String) (substMap : GoMap String String) (consProg : Program) : Program where
  name := substStr consProg.name ((order .name).run substMap)
  args := consProg.args.mapIdx fun j arg => substStr arg ((order (.arg j)).run substMap)
  abbreviation := substStr consProg.abbreviation ((order .abbreviation).run substMap)
  tags :=
    let std := gStdTags.map fun e => (e.1, substStr e.2 ((order (.stdTag e.1)).run substMap))
    let own := consProg.tags.map fun e => (e.1, substStr e.2 ((order (.tag e.1)).run substMap))
    ((std ++ own).foldl (fun tags e => tags.assign e.1 e.2) GoMap.empty).entries

/-- The body of the inner loop of `expandProgs`. -/
def expandPartition (order : Field → MapOrder String String) (platformName environment : String) (args : AdminArgs) (concern : Concern)
    (topics : Topics) (current : Topic) (clusters : List (String × Cluster)) (consProg : Option Program) (i : Nat) : Reply Program :=
  match clusters.lookup current.cluster with
  | none => .error (.panic .nilDeref)
  | some cluster => do
    let topic ← buildFullTopicName platformName environment concern.name concern.type topics.name current.generation
    match consProg with
    | none => .error (.panic .nilDeref)
    | some consProg =>
      .ok (expandProg order (partitionSubsts platformName environment args concern.name cluster.brokers topics.name topic i) consProg)

/-- No accepted definition has a negative number of partitions. -/
def expandProgs (order : Nat → Nat → Field → MapOrder String String) (platformName environment : String) (args : AdminArgs) (concern : Concern)
    (topics : Topics) (clusters : List (String × Cluster)) : Reply (List Program) :=
  match topics.current with
  | none => .error (.panic .nilDeref)
  | some current => do
    let progs ← topics.consumerPrograms.zipIdx.mapM fun e => (List.range current.partitionCount.toNat).mapM fun i =>
      expandPartition (order e.2 i) platformName environment args concern topics current clusters e.1 i
    .ok progs.flatten

def progKey : Option Program → String
  | none => "NIL"
  | some prog => prog.name ++ " " ++ " ".intercalate prog.args

/-- The programs that the loops of `getAllProgs` come to, one after the other. -/
def expandAll (order : SubstCall → MapOrder String String) (args : AdminArgs) (rtPlatDef : RtPlatformDef) : Reply (List Program) := do
  let progs ← rtPlatDef.platformDef.concerns.zipIdx.mapM fun c => c.1.topics.zipIdx.mapM fun t =>
    if t.1.consumerPrograms = [] then .ok []
    else
      expandProgs (fun j i field => order ⟨c.2, t.2, j, i, field⟩) rtPlatDef.platformDef.name rtPlatDef.platformDef.environment args c.1 t.1
        rtPlatDef.clusters
  .ok progs.flatten.flatten

/-- Under each key the last program is kept. -/
def keyed (progs : List Program) : GoMap String Program := progs.foldl (fun progs p => progs.assign (progKey (some p)) p) .empty

/-- Also called on a nil definition. -/
def getAllProgs (order : SubstCall → MapOrder String String) (args : AdminArgs) : Option RtPlatformDef → Reply (GoMap String Program)
  | none => .ok .empty
  | some rtPlatDef => do
    let progs ← expandAll order args rtPlatDef
    .ok (keyed progs)

structure PlatformDiff where
  progsToStop : List Program
  progsToStart : List Program

/-- The loops of `Diff`, each in an order of its own. -/
def diffProgs (startOrder stopOrder : MapOrder String Program) (newProgs oldProgs : GoMap String Program) : PlatformDiff where
  progsToStart := (startOrder.run newProgs).entries.filterMap fun e => if (oldProgs.get e.1).isNone then some e.2 else none
  progsToStop := (stopOrder.run oldProgs).entries.filterMap fun e => if (newProgs.get e.1).isNone then some e.2 else none

def diff (order order' : SubstCall → MapOrder String String) (startOrder stopOrder : MapOrder String Program) (args : AdminArgs)
    (lhs rhs : Option RtPlatformDef) : Reply PlatformDiff := do
  let newProgs ← getAllProgs order args lhs
  let oldProgs ← getAllProgs order' args rhs
  .ok (diffProgs startOrder stopOrder newProgs oldProgs)

end Rocketcycle.Definition
