import Rocketcycle.Rkcy.Topics
import Rocketcycle.Lib.EarlyReturn
import Rocketcycle.Concern.Schema

/-!
# Definitions of a platform

`pkg/rkcy/platform_def.go`: a definition is checked, completed by the topics and values it leaves
out, and indexed by the names in it. The maps of the result are lists of their entries, in the
order in which these are entered. A message that is stored in a list is never nil.
-/

namespace Rocketcycle.Definition

/-- `timestamppb.Timestamp`. -/
structure Timestamp where
  seconds : Int
  nanos : Int
  deriving DecidableEq, Repr

/-- Between the years 1 and 9999. -/
def Timestamp.isValid : Option Timestamp → Bool
  | none => false
  | some t => -62135596800 ≤ t.seconds && t.seconds ≤ 253402300799 && 0 ≤ t.nanos && t.nanos < 1000000000

structure Program where
  name : String
  args : List String := []
  abbreviation : String
  tags : List (String × String) := []
  deriving DecidableEq, Repr

/-- `rkcypb.Concern_Topic`. -/
structure Topic where
  generation : Int := 0
  cluster : String := ""
  partitionCount : Int := 0
  deriving DecidableEq, Repr

/-- `rkcypb.Concern_Topics`. -/
structure Topics where
  name : String
  current : Option Topic := none
  future : Option Topic := none
  consumerPrograms : List (Option Program) := []
  deriving DecidableEq, Repr

structure Concern where
  type : ConcernType
  name : String
  topics : List Topics
  deriving DecidableEq, Repr

structure Cluster where
  name : String
  brokers : String
  isAdmin : Bool
  deriving DecidableEq, Repr

structure PlatformDef where
  name : String
  environment : String
  updateTime : Option Timestamp
  concerns : List Concern
  clusters : List Cluster
  storageTargets : List StorageTarget
  deriving DecidableEq, Repr

/-- Where there is no future topic, its name, partition count and cluster are zero values. -/
structure RtTopics where
  topics : Topics
  currentTopic : String
  currentTopicPartitionCount : Int
  currentCluster : Cluster
  futureTopic : String := ""
  futureTopicPartitionCount : Int := 0
  futureCluster : Option Cluster := none
  deriving DecidableEq, Repr

structure RtConcern where
  concern : Concern
  topics : List (String × RtTopics)
  deriving DecidableEq, Repr

structure RtPlatformDef where
  platformDef : PlatformDef
  hash : String
  concerns : List (String × RtConcern) := []
  defaultResponseTopic : Option RtTopics := none
  clusters : List (String × Cluster) := []
  adminCluster : Option Cluster := none
  storageTargets : List (String × StorageTarget) := []
  primaryStorageTarget : String := ""
  deriving DecidableEq, Repr

/-- How a definition is hashed and how times and topics are printed in errors. -/
structure Render where
  hash : PlatformDef → String
  asTime : Option Timestamp → String
  topics : List Topics → String

/-! ## Topics -/

def isACETopic (topic : String) : Bool := topic = "admin" || topic = "error" || topic = "complete"

def maxi32 (x y : Int) : Int := if x < y then y else x

/-- The sum of two numbers of type `int32`. -/
def addInt32 (x y : Int) : Int := (x + y).bmod (2 ^ 32)

/-- A nil topic is initialised like an empty one. -/
def initTopic (topic : Option Topic) (adminCluster : Cluster) : Topic :=
  let topic := topic.getD {}
  { generation := if topic.generation ≤ 0 then 1 else topic.generation
    cluster := if topic.cluster = "" then adminCluster.name else topic.cluster
    partitionCount :=
      if topic.partitionCount ≤ 0 then 1
      else if (maxPartition : Int) < topic.partitionCount then maxPartition else topic.partitionCount }

def processProgram : Program where
  name := "./@platform"
  args := ["process", "-t", "@topic", "-p", "@partition", "-e", "@environment", "--otelcol_endpoint",
    "@otelcol_endpoint", "--admin_brokers", "@admin_brokers", "--consumer_brokers", "@consumer_brokers",
    "--stream", "@stream"]
  abbreviation := "p/@concern/@partition"

/-- The programs of the storage topics differ in their command and abbreviation. -/
def storageProgram (command star : String) (stgTgt : StorageTarget) : Program where
  name := "./@platform"
  args := [command, "-t", "@topic", "-p", "@partition", "--storage_target", stgTgt.name, "-e", "@environment",
    "--otelcol_endpoint", "@otelcol_endpoint", "--admin_brokers", "@admin_brokers", "--consumer_brokers",
    "@consumer_brokers", "--stream", "@stream"]
  abbreviation := s!"s/{star}{stgTgt.name}/@concern/@partition"

def apecsPrograms (name : String) (storageTargets : List StorageTarget) : List (Option Program) :=
  if name = "process" then [some processProgram]
  else if name = "storage" then (storageTargets.filter (·.isPrimary)).map fun t => some (storageProgram "storage" "*" t)
  else if name = "storage-scnd" then
    (storageTargets.filter fun t => !t.isPrimary).map fun t => some (storageProgram "storage-scnd" "" t)
  else []

def initTopics (topics : Topics) (adminCluster : Cluster) (concernType : ConcernType)
    (storageTargets : List StorageTarget) : Topics :=
  { topics with
    current := some (initTopic topics.current adminCluster)
    future := topics.future.map fun future => initTopic (some future) adminCluster
    consumerPrograms :=
      if concernType = .apecs then apecsPrograms topics.name storageTargets else topics.consumerPrograms }

def validateTopic (topic : Topic) (clusters : List (String × Cluster)) : Except String Unit :=
  if topic.generation = 0 then .error "Topic missing Generation field"
  else if topic.cluster = "" then .error "Topic missing Cluster field"
  else if (clusters.lookup topic.cluster).isNone then
    .error s!"Topic refers to non-existent cluster: '{topic.cluster}'"
  else if topic.partitionCount < 1 ∨ (maxPartition : Int) < topic.partitionCount then
    .error s!"Topic with out of bounds PartitionCount {topic.partitionCount}"
  else .ok ()

/-- The loop over the programs of `validateTopics`. -/
def validatePrograms (idx : Nat) : List (Option Program) → Except String Unit
  | [] => .ok ()
  | none :: rest => validatePrograms (idx + 1) rest
  | some consProg :: rest =>
    if consProg.name = "" then .error s!"Program cannot have blank Name: {idx}"
    else if consProg.abbreviation = "" then .error s!"Program cannot have blank Abbrev: {consProg.name}"
    else validatePrograms (idx + 1) rest

/-- `singlePartitionTopics`. -/
def singlePartitionTopics (name : String) : Bool := name = "admin" || name = "error" || name = "complete"

/-- The part of `validateTopics` on the future topic. -/
def validateFuture (current : Topic) (clusters : List (String × Cluster)) : Option Topic → Except String Unit
  | none => .ok ()
  | some future => do
    validateTopic future clusters
    if current.generation ≠ addInt32 future.generation 1 then .error "Future generation not Current + 1"
    else .ok ()

def validateTopics (topics : Topics) (clusters : List (String × Cluster)) : Except String Unit :=
  if topics.name = "" then .error s!"Topics missing Name field: {topics.name}"
  else if singlePartitionTopics topics.name ∧ (topics.current.any fun t => t.partitionCount != 1) then
    .error s!"'{topics.name}' Topics must have exactly 1 partition"
  else if singlePartitionTopics topics.name ∧ (topics.future.any fun t => t.partitionCount != 1) then
    .error s!"'{topics.name}' Topics must have exactly 1 partition"
  else
    match topics.current with
    | none => .error s!"Topics missing Current Topic: {topics.name}"
    | some current => do
      validateTopic current clusters
      validateFuture current clusters topics.future
      validatePrograms 0 topics.consumerPrograms

/-! ## Run time topics and concerns -/

/-- The part of `newRtTopics` on the future topic. -/
def withFuture (rtPlatDef : RtPlatformDef) (rtConc : RtConcern) (pref : String) (rtTops : RtTopics) : Reply RtTopics :=
  match rtTops.topics.future with
  | none => .ok rtTops
  | some future => do
    let futureTopic ← buildTopicName pref rtTops.topics.name future.generation
    match rtPlatDef.clusters.lookup future.cluster with
    | none =>
      errorf s!"Topic '{rtConc.concern.name}.{rtTops.topics.name}' has invalid Future Cluster '{future.cluster}'"
    | some cluster =>
      .ok { rtTops with
        futureTopic := futureTopic
        futureTopicPartitionCount := maxi32 1 future.partitionCount
        futureCluster := some cluster }

/-- The source reads the fields of `Current` without a check. -/
def newRtTopics (rtPlatDef : RtPlatformDef) (rtConc : RtConcern) (topics : Topics) : Reply RtTopics := do
  let pref ← buildTopicNamePrefix rtPlatDef.platformDef.name rtPlatDef.platformDef.environment rtConc.concern.name
    rtConc.concern.type
  match topics.current with
  | none => .error (.panic .nilDeref)
  | some current =>
    let currentTopic ← buildTopicName pref topics.name current.generation
    match rtPlatDef.clusters.lookup current.cluster with
    | none => errorf s!"Topic '{rtConc.concern.name}.{topics.name}' has invalid Current Cluster '{current.cluster}'"
    | some cluster =>
      let rtTops ← withFuture rtPlatDef rtConc pref ⟨topics, currentTopic, maxi32 1 current.partitionCount, cluster, "", 0, none⟩
      if isACETopic rtTops.topics.name ∧ rtTops.currentTopicPartitionCount ≠ 1 then
        errorf s!"Topic '{rtConc.concern.name}.{topics.name}' has invalid partition count current={rtTops.currentTopicPartitionCount}"
      else .ok rtTops

/-- The loop of `newRtConcern`. -/
def addTopics (rtPlatDef : RtPlatformDef) (rtConc : RtConcern) : List Topics → Reply RtConcern
  | [] => .ok rtConc
  | topics :: rest =>
    if (rtConc.topics.lookup topics.name).isSome then
      errorf s!"Topic '{topics.name}' appears more than once in Concern '{rtConc.concern.name}' definition"
    else do
      let rtTops ← newRtTopics rtPlatDef rtConc topics
      addTopics rtPlatDef { rtConc with topics := rtConc.topics ++ [(topics.name, rtTops)] } rest

def newRtConcern (rtPlatDef : RtPlatformDef) (concern : Concern) : Reply RtConcern :=
  addTopics rtPlatDef ⟨concern, []⟩ concern.topics

/-! ## Clusters and storage targets -/

/-- What the loops of `NewRtPlatformDef` over clusters and over storage targets do alike: every
entry has a name and a second field, and one of them is marked. -/
structure Kind (ε μ : Type) where
  name : ε → String
  field : ε → String
  isMarked : ε → Bool
  unset : μ
  mark : ε → μ
  missingName : Nat → String
  missingField : String → String
  twiceMarked : String
  twice : String → String → String

def clusterKind : Kind Cluster (Option Cluster) where
  name := (·.name)
  field := (·.brokers)
  isMarked := (·.isAdmin)
  unset := none
  mark := some
  missingName idx := s!"Cluster {idx} missing name field"
  missingField name := s!"Cluster '{name}' missing brokers field"
  twiceMarked := "More than one admin cluster"
  twice name platform := s!"Cluster '{name}' appears more than once in Platform '{platform}' definition"

def storageTargetKind : Kind StorageTarget String where
  name := (·.name)
  field := (·.type)
  isMarked := (·.isPrimary)
  unset := ""
  mark := (·.name)
  missingName idx := s!"Storage target {idx} missing name field"
  missingField name := s!"Storage target '{name}' missing type field"
  twiceMarked := "More than one primary storage target"
  twice name platform := s!"Storage target '{name}' appears more than once in Platform '{platform}' definition"

section
variable {ε μ : Type} [DecidableEq μ] (k : Kind ε μ) (platform : String)

/-- The loop, with the marked entry and the map so far. -/
def enterAll (idx : Nat) (marked : μ) (entries : List (String × ε)) : List ε → Reply (μ × List (String × ε))
  | [] => .ok (marked, entries)
  | e :: rest =>
    if k.name e = "" then errorf (k.missingName idx)
    else if k.field e = "" then errorf (k.missingField (k.name e))
    else if k.isMarked e ∧ marked ≠ k.unset then errorf k.twiceMarked
    else if (entries.lookup (k.name e)).isSome then errorf (k.twice (k.name e) platform)
    else
      enterAll (idx + 1) (if k.isMarked e then k.mark e else marked) (entries ++ [(k.name e, e)]) rest

end

/-! ## The whole definition -/

def requiredTopics : ConcernType → List String
  | .general => ["admin", "error"]
  | .batch => ["admin", "error"]
  | .apecs => ["admin", "process", "error", "complete", "storage", "storage-scnd"]
  | .other _ => []

/-- The map `requiredTopics` under the verb `%+v`. -/
def requiredTopicsText : String :=
  "map[GENERAL:[admin error] BATCH:[admin error] APECS:[admin process error complete storage storage-scnd]]"

/-- The required topics that are missing are appended, to be initialised with the others. -/
def addRequired (concern : Concern) : List Topics :=
  let topicNames := concern.topics.map (·.name)
  concern.topics ++ ((requiredTopics concern.type).filter fun req => req ∉ topicNames).map fun req => { name := req }

/-- One of the topics is initialised and validated. -/
def prepareTopics (adminCluster : Cluster) (rtPlatDef : RtPlatformDef) (concern : Concern) (topics : Topics) :
    Reply Topics :=
  let topics := initTopics topics adminCluster concern.type rtPlatDef.platformDef.storageTargets
  match validateTopics topics rtPlatDef.clusters with
  | .error err => errorf s!"Concern '{concern.name}' has invalid '{topics.name}' Topics: {err}"
  | .ok () => .ok topics

/-- By convention the topic `response` of a general concern `edge` is the default. -/
def responseTopic (rtConc : RtConcern) : Option RtTopics :=
  if rtConc.concern.name = "edge" ∧ rtConc.concern.type = .general then rtConc.topics.lookup "response" else none

/-- The body of the loop over the concerns. What it makes of the concern takes its place in the
definition. -/
def addConcern (render : Render) (adminCluster : Cluster) (rtPlatDef : RtPlatformDef) (idx : Nat) (concern : Concern) :
    Reply RtPlatformDef :=
  if concern.name = "" then errorf s!"Concern {idx} missing name field"
  else if concern.type = .apecs ∧ (requiredTopics concern.type).length ≠ (addRequired concern).length then
    errorf s!"ApecsConcern {idx} contains invalid command {requiredTopicsText} required vs {render.topics (addRequired concern)} total"
  else do
    let topics ← (addRequired concern).mapM (prepareTopics adminCluster rtPlatDef concern)
    let concern := { concern with topics := topics }
    if (rtPlatDef.concerns.lookup concern.name).isSome then
      errorf s!"Concern '{concern.name}' appears more than once in Platform '{rtPlatDef.platformDef.name}' definition"
    else
      let rtConc ← newRtConcern rtPlatDef concern
      .ok { rtPlatDef with
        platformDef.concerns := rtPlatDef.platformDef.concerns ++ [concern]
        concerns := rtPlatDef.concerns ++ [(concern.name, rtConc)]
        defaultResponseTopic := (responseTopic rtConc).or rtPlatDef.defaultResponseTopic }

def addConcerns (render : Render) (adminCluster : Cluster) (rtPlatDef : RtPlatformDef) (idx : Nat) :
    List Concern → Reply RtPlatformDef
  | [] => .ok rtPlatDef
  | concern :: rest => do
    let rtPlatDef ← addConcern render adminCluster rtPlatDef idx concern
    addConcerns render adminCluster rtPlatDef (idx + 1) rest

def newRtPlatformDef (render : Render) (platDef : PlatformDef) (platformName environment : String) :
    Reply RtPlatformDef :=
  if platDef.name ≠ platformName then errorf s!"Platform Name mismatch, '{platDef.name}' != '{platformName}'"
  else if platDef.environment ≠ environment then
    errorf s!"Environment mismatch, '{platDef.environment}' != '{environment}'"
  else if !Timestamp.isValid platDef.updateTime then errorf s!"Invalid UpdateTime: {render.asTime platDef.updateTime}"
  else if platDef.clusters = [] then errorf "No clusters defined"
  else do
    let (adminCluster, clusters) ← enterAll clusterKind platDef.name 0 none [] platDef.clusters
    match adminCluster with
    | none => errorf "No admin cluster defined"
    | some admin =>
      if platDef.storageTargets = [] then errorf "No storage targets defined"
      else do
        let (primary, storageTargets) ← enterAll storageTargetKind platDef.name 0 "" [] platDef.storageTargets
        if primary = "" then errorf "No primary storage target defined"
        else
          addConcerns render admin
            { platformDef := { platDef with concerns := [] }
              hash := render.hash platDef
              clusters := clusters
              adminCluster := some admin
              storageTargets := storageTargets
              primaryStorageTarget := primary }
            0 platDef.concerns

end Rocketcycle.Definition
