import Rocketcycle.Apecs.Advance
import Rocketcycle.Concern.CrudEffects
import Rocketcycle.Net.Deployment
import Rocketcycle.Rkcy.RelatedWire

/-!
# Who learns of a refresh

`REFRESH_INSTANCE` is to tell the instances that the related data names, if the store has had the
instance before. `RefreshRelatedSteps` does so; but the handler asks for the instance of its
arguments, and the runner looks for none at a step of the instance store.
-/

namespace Rocketcycle

open Command

variable {M : Type}

/-- The concern and the key of the instances that a related message names in some of its fields, as
far as these know the related message of the other side. -/
def relationsOf (fields : List (RelatedField M)) (rel : M) : List (String × String) :=
  fields.flatMap fun fld =>
    if fld.relField.isSome then (fld.get rel).map fun itm => (fld.typeMsg.name, fld.typeMsg.key itm) else []

def Concern.relations (cnc : Concern M) (rel : M) : List (String × String) := relationsOf cnc.related.fields rel

/-- A refresh that carries an instance. -/
def Step.CarriesInstance (s : Step) (pb : RelatedCodecs) (concern : String) (instBytes : Option Bytes) : Prop :=
  ∃ relField relBytes packed relRspBytes, packPayloads instBytes relBytes = some packed ∧
    pb.response.marshal ⟨concern, relField, some packed⟩ = .ok relRspBytes ∧ s.payload = some relRspBytes

def Step.isRefreshRelated (s : Step) : Bool := s.system = .process && s.command = refreshRelated

/-- The steps that tell `relations` of an instance, and read it again. -/
structure Notifies (pb : RelatedCodecs) (concern instKey : String) (instBytes : Option Bytes)
    (relations : List (String × String)) (steps : List Step) : Prop where
  once : ((steps.filter Step.isRefreshRelated).map fun s => (s.concern, s.key)).Perm relations
  carrying : ∀ s ∈ steps, s.isRefreshRelated = true → s.CarriesInstance pb concern instBytes
  reading : relations ≠ [] → ∃ last, steps.getLast? = some last ∧ last.system = .process ∧
    last.concern = concern ∧ last.command = read ∧ last.key = instKey

section
variable {pb : RelatedCodecs} {concern instKey : String} {instBytes : Option Bytes}
  {relations : List (String × String)}

/-- Without steps nobody is told. -/
theorem notifies_nil : Notifies pb concern instKey instBytes relations [] ↔ relations = [] := by
  constructor
  · intro h
    exact h.once.symm.eq_nil
  · rintro rfl
    exact ⟨.nil, by simp, by simp⟩

end

/-! ## The steps inserted by a message -/

/-- The instance in the payload of a refresh. -/
def Step.carriedInstance (s : Step) : Option Bytes :=
  match parsePayload s.payload with
  | .ok (instBytes, _) => instBytes
  | .error _ => none

/-- The instances that the related data in the payload of a refresh names. -/
def ClientCode.namedBy (cc : ClientCode M) (s : Step) : List (String × String) :=
  match cc.concernHandler s.concern, parsePayload s.payload with
  | some cnc, .ok (_, relBytes) =>
    match cnc.parseRelated relBytes with
    | .ok rel => cnc.relations rel
    | .error _ => []
  | _, _ => []

section
variable {env : Env} {pb : RelatedCodecs} {cnc : Concern M} {logic : LogicHandler M} {args : StepArgs}
  {store store' : InstanceStore} {rslt : Option StepResult} {addSteps : List Step}

/-- Without an instance `REFRESH_INSTANCE` adds no step. -/
theorem LogicEffect.refreshInstance_adds
    (h : LogicEffect env pb cnc logic Command.refreshInstance args store rslt addSteps store') : addSteps = [] := by
  generalize hc : Command.refreshInstance = command at h
  cases h with
  | quiet => rfl
  | update _ cmd => rw [cmd] at hc; simp [Command.refreshInstance, Command.update] at hc
  | delete _ cmd => rw [cmd] at hc; simp [Command.refreshInstance, Command.delete] at hc
  | refreshInstance => rfl
  | flushInstance => rfl
  | requestRelated _ _ _ _ _ _ cmd =>
    rw [cmd] at hc
    simp [Command.refreshInstance, Command.requestRelated] at hc
  | refreshRelated => rfl
  | brokenOff => rfl
  | changed cmd _ _ _ _ _ _ _ _ _ mem name =>
    have free := cnc.commands_free cmd mem
    rw [name, ← hc] at free
    exact absurd free (by decide)

end

/-- What the handler adds, and the runner inserts behind the current step. -/
def insertedSteps {σ : Type} (handleCommand : HandleCommand σ) (s : σ) (out : Outcome σ) : List Step :=
  match out.call with
  | some (call, some rslt) => if rslt.code = .ok then (handleCommand call s).1.2 else []
  | _ => []

section
variable {cc : ClientCode M} {env : Env} {logic : LogicHandler M} {plat : Platform M} {storageTarget : String}
  {rtxn : RtApecsTxn} {tp : TopicParts} {cmpdOffset : CompoundOffset} {done rest : List Step} {cur : Step}

/-- The runner gives `REFRESH_INSTANCE` no instance, so nothing is inserted behind it. -/
theorem refreshInstance_inserts (valid : traceParentIsValid rtxn.traceParent = true)
    (at' : rtxn.txn.At done cur rest) (pending : cur.result = none) (system : cur.system = .process)
    (command : cur.command = refreshInstance) :
    insertedSteps (handleCommand cc env logic) plat
      (advanceApecsTxn env cc.pb Platform.instanceStore (handleCommand cc env logic) plat storageTarget rtxn tp
        cmpdOffset) = [] := by
  have ran : ∀ {key out call rslt addSteps},
      Ran (handleCommand cc env logic) storageTarget plat.instanceStore plat rtxn.txn cur key cmpdOffset out call rslt
        addSteps → addSteps = [] := by
    intro key out call rslt addSteps ran
    have given : call.args.inst = none := by
      have lookup : cur.looksUp = false := by
        simp [Step.looksUp, Step.isInstanceStoreStep, system, command]
      rw [ran.called]
      simp [callOf, instanceFor, lookup]
    have fields : call.direction = .forward ∧ call.system = .process ∧ call.command = refreshInstance := by
      rw [ran.called]
      exact ⟨at'.direction, by simp [callOf, system], by simp [callOf, command]⟩
    obtain ⟨forward, process, cmd⟩ := fields
    have effect : CommandEffect cc env logic ⟨"", "", false⟩ call plat rslt addSteps out.state :=
      handleCommand_effect forward (by simp [process, isStorageSystem]) (fun _ => given) ran.handled
    generalize out.state = plat' at effect
    cases effect with
    | refused _ adds => exact adds
    | process cnc store' _ _ effect =>
      rw [cmd] at effect
      exact effect.refreshInstance_adds
    | storage _ _ _ system => rw [process] at system; cases system
    | storageScnd _ _ _ _ adds => exact adds
  cases advance_cases env cc.pb Platform.instanceStore (handleCommand cc env logic) plat storageTarget rtxn tp
    cmpdOffset valid at' pending with
  | rejected _ call => simp [insertedSteps, call]
  | missed _ _ _ _ _ _ _ _ call => simp [insertedSteps, call]
  | failed key call rslt addSteps _ _ _ ran' =>
    have adds := ran ran'
    simp only [insertedSteps, ran'.recorded]
    split
    · rename_i h
      cases h
      rw [ran'.handled, adds, ite_self]
    · rfl
  | succeeded key call r addSteps _ _ _ ran' =>
    have adds := ran ran'
    simp only [insertedSteps, ran'.recorded, ran'.handled, adds, ite_self]

/-- A `REFRESH_INSTANCE` notifies the instances that its payload names exactly if it names none. -/
theorem refresh_notifies_iff {key : String} (valid : traceParentIsValid rtxn.traceParent = true)
    (at' : rtxn.txn.At done cur rest) (pending : cur.result = none) (system : cur.system = .process)
    (command : cur.command = refreshInstance) :
    Notifies cc.pb cur.concern key cur.carriedInstance (cc.namedBy cur)
        (insertedSteps (handleCommand cc env logic) plat
          (advanceApecsTxn env cc.pb Platform.instanceStore (handleCommand cc env logic) plat storageTarget rtxn tp
            cmpdOffset)) ↔
      cc.namedBy cur = [] := by
  rw [refreshInstance_inserts valid at' pending system command]
  exact notifies_nil

end

/-- A concern whose related message names its members, the players of its bytes. -/
def guildConcern : Concern Bytes where
  toMessageType := sampleMessage "Guild"
  related :=
    { encode := .ok, decode := .ok, empty := [],
      fields := [{ nameGo := "Members", typeMsg := sampleMessage "Player", idField := none, relField := some "Guild",
                   isRepeated := true, get := fun rel => rel.map fun b => [b], set := fun _ items => items.flatten }] }
  commands := []
  commands_free := by simp

def ClientCode.guilds : ClientCode Bytes :=
  { ClientCode.sample with concerns := [sampleConcern "Player", guildConcern], pb := relatedCodecs }

/-- The guild has a new name, and two members. -/
def refreshGuild : Step :=
  { system := .process, concern := "Guild", command := refreshInstance, key := "g",
    payload := packPayloads (some [103, 2]) (some [112, 113]) }

def guildRefresh : ApecsTxn := { id := "refresh", uponError := .report, forwardSteps := [refreshGuild] }

def cachedGuild : Platform Bytes where
  instanceStore key := if key = "g" then some ⟨some [103, 1], some [112, 113], ⟨1, 0, 0⟩⟩ else none
  ramDbs _ := RamDb.new

def guildOutcome : Outcome (Platform Bytes) :=
  advanceApecsTxn Env.sample ClientCode.guilds.pb Platform.instanceStore
    (handleCommand ClientCode.guilds Env.sample sampleLogic) cachedGuild "" ⟨guildRefresh, sampleTraceParent⟩
    ⟨"Guild", .process, 1⟩ ⟨1, 0, 1⟩

/-- The refresh of the cached guild takes effect, and its two members are not told. -/
theorem refreshed_guild_is_silent :
    cachedGuild.instanceStore.getInstance "g" = some [103, 1] ∧ guildOutcome.code = .ok ∧
      guildOutcome.state.instanceStore.getInstance "g" = some [103, 2] ∧
      ClientCode.guilds.namedBy refreshGuild = [("Player", "p"), ("Player", "q")] ∧
      ¬Notifies ClientCode.guilds.pb "Guild" "g" refreshGuild.carriedInstance (ClientCode.guilds.namedBy refreshGuild)
        (insertedSteps (handleCommand ClientCode.guilds Env.sample sampleLogic) cachedGuild guildOutcome) := by
  have named : ClientCode.guilds.namedBy refreshGuild = [("Player", "p"), ("Player", "q")] := by decide +kernel
  have silent : insertedSteps (handleCommand ClientCode.guilds Env.sample sampleLogic) cachedGuild guildOutcome = [] := by
    decide +kernel
  refine ⟨by decide +kernel, by decide +kernel, by decide +kernel, named, ?_⟩
  rw [named, silent, notifies_nil]
  exact List.cons_ne_nil _ _

theorem refresh_notifies_iff_guild :
    Notifies ClientCode.guilds.pb "Guild" "g" refreshGuild.carriedInstance (ClientCode.guilds.namedBy refreshGuild)
        (insertedSteps (handleCommand ClientCode.guilds Env.sample sampleLogic) cachedGuild guildOutcome) ↔
      ClientCode.guilds.namedBy refreshGuild = [] := by
  have valid : traceParentIsValid sampleTraceParent = true := by decide +kernel
  have at' : guildRefresh.At [] refreshGuild [] := ⟨rfl, rfl, rfl⟩
  have command : refreshGuild.command = refreshInstance := rfl
  exact refresh_notifies_iff valid at' rfl rfl command

end Rocketcycle
