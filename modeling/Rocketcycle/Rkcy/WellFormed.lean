import Rocketcycle.Rkcy.Acceptance
import Mathlib.Data.List.Perm.Subperm

/-!
# Accepted definitions are well formed

What holds of every definition that `NewRtPlatformDef` accepts: names are distinct, every concern
has its topics, the topics can be created, and the full names of all topics differ.
-/

namespace Rocketcycle.Definition
open Entries

/-- The full names of topics: the current one, and the future one where there is one. -/
def RtTopics.names (rtTops : RtTopics) : List String :=
  rtTops.currentTopic :: if rtTops.topics.future.isSome then [rtTops.futureTopic] else []

def RtConcern.names (rtConc : RtConcern) : List String := rtConc.topics.flatMap fun e => e.2.names

def RtPlatformDef.fullTopicNames (rtPlatDef : RtPlatformDef) : List String :=
  rtPlatDef.concerns.flatMap fun e => e.2.names

/-- A topic that can be created on a platform with these clusters. -/
structure Topic.WellFormed (clusters : List Cluster) (name : String) (t : Topic) : Prop where
  cluster : ∃ c ∈ clusters, c.name = t.cluster
  generation : 1 ≤ t.generation
  partitionCount : 1 ≤ t.partitionCount ∧ t.partitionCount ≤ maxPartition
  single : isACETopic name = true → t.partitionCount = 1

/-- A concern with all the topics it requires. -/
structure Concern.WellFormed (clusters : List Cluster) (concern : Concern) : Prop where
  required : ∀ name ∈ requiredTopics concern.type, (concern.topics.map (·.name)).count name = 1
  apecs : concern.type = .apecs → (concern.topics.map (·.name)).Perm (requiredTopics .apecs)
  topics : ∀ topics ∈ concern.topics, topics.current.isSome = true ∧ ∀ t ∈ topics.each, t.WellFormed clusters topics.name

structure WellFormed (rtPlatDef : RtPlatformDef) : Prop where
  clusters_distinct : (rtPlatDef.platformDef.clusters.map (·.name)).Nodup
  storageTargets_distinct : (rtPlatDef.platformDef.storageTargets.map (·.name)).Nodup
  concerns_distinct : (rtPlatDef.platformDef.concerns.map (·.name)).Nodup
  admin : ∃ c, rtPlatDef.platformDef.clusters.filter (·.isAdmin) = [c] ∧ rtPlatDef.adminCluster = some c
  primary : ∃ t, rtPlatDef.platformDef.storageTargets.filter (·.isPrimary) = [t] ∧
    rtPlatDef.primaryStorageTarget = t.name
  concerns : ∀ c ∈ rtPlatDef.platformDef.concerns, c.WellFormed rtPlatDef.platformDef.clusters
  clusterMap : MapOf rtPlatDef.clusters id (·.name) rtPlatDef.platformDef.clusters
  storageTargetMap : MapOf rtPlatDef.storageTargets id (·.name) rtPlatDef.platformDef.storageTargets
  concernMap : MapOf rtPlatDef.concerns (·.concern) (·.name) rtPlatDef.platformDef.concerns
  topicsMaps : ∀ name rtConc, rtPlatDef.concerns.lookup name = some rtConc →
    MapOf rtConc.topics (·.topics) (·.name) rtConc.concern.topics
  names_distinct : rtPlatDef.fullTopicNames.Nodup

/-! ## Concerns -/

section
variable {admin : Cluster} {targets : List StorageTarget} {concern : Concern} {platform environment : String}
  {clusters : List (String × Cluster)}

/-- The required topics are there, in the concern or added to it. -/
theorem required_mem {name : String} (h : name ∈ requiredTopics concern.type) :
    name ∈ (concern.completed admin targets).topics.map (·.name) := by
  simp only [Concern.completed, addRequired, List.map_map, List.mem_map, List.mem_append, Function.comp, initTopics]
  by_cases there : name ∈ concern.topics.map (·.name)
  · obtain ⟨topics, hm, hname⟩ := List.mem_map.1 there
    exact ⟨topics, .inl hm, hname⟩
  · exact ⟨{ name := name }, .inr ⟨name, by simpa [h] using there, rfl⟩, rfl⟩

theorem ValidConcern.wellFormed (named : admin.name ≠ "") {platDef : PlatformDef}
    (valid : ValidConcern platform environment platDef.clusterMap (concern.completed admin targets)) :
    (concern.completed admin targets).WellFormed platDef.clusters := by
  have required : ∀ name ∈ requiredTopics concern.type, name ∈ (concern.completed admin targets).topics.map (·.name) :=
    fun name h => required_mem h
  constructor
  · intro name h
    exact List.count_eq_one_of_mem valid.distinct (required name h)
  · intro apecs
    have hlen := valid.apecs apecs
    have type : concern.type = .apecs := apecs
    rw [apecs] at hlen
    rw [type] at required
    have sub : (requiredTopics .apecs).Subperm ((concern.completed admin targets).topics.map (·.name)) :=
      List.subperm_of_subset (by decide) required
    refine (sub.perm_of_length_le ?_).symm
    rw [List.length_map, hlen]
  · intro topics hm
    obtain ⟨init, current⟩ := Concern.completed_initialised named targets topics hm
    refine ⟨current, ?_⟩
    intro t ht
    have defined := (valid.topics topics hm).defined t ht
    rw [lookup_isSome, PlatformDef.clusterMap, List.map_map] at defined
    obtain ⟨c, hc, hname⟩ := List.mem_map.1 defined
    exact ⟨⟨c, hc, hname⟩, (init t ht).generation, ⟨(init t ht).atLeast, (init t ht).atMost⟩,
      fun ace => (valid.topics topics hm).single ace t ht⟩

end

/-! ## Full names -/

/-- The full name of a topic of a concern in one of its generations. -/
def IsName (platform environment concern topic : String) (generation : Int) (name : String) : Prop :=
  ∃ type, ValidNames platform environment concern type ∧ isValidName topic = true ∧ 0 < generation ∧
    name = fullTopicName platform environment concern type topic generation

section
variable {platform environment : String} {clusters : List (String × Cluster)} {concern : Concern} {topics : Topics}
  {rtTops : RtTopics} {rtConc : RtConcern} {name : String}

theorem IsName.inj {concern concern' topic topic' : String} {g g' : Int}
    (h : IsName platform environment concern topic g name) (h' : IsName platform environment concern' topic' g' name) :
    concern = concern' ∧ topic = topic' ∧ g = g' := by
  obtain ⟨type, names, valid, pos, hname⟩ := h
  obtain ⟨type', names', valid', pos', hname'⟩ := h'
  exact fullTopicName_inj names names' valid valid' pos pos' (hname.symm.trans hname')

theorem RunsTopics.isName (runs : RunsTopics platform environment clusters concern topics rtTops)
    (h : name ∈ rtTops.names) : ∃ t ∈ topics.each, IsName platform environment concern.name topics.name t.generation name := by
  obtain ⟨t, ht, pos, hcur, -⟩ := runs.current
  rcases List.mem_cons.1 h with rfl | h
  · exact ⟨t, List.mem_append.2 (.inl (Option.mem_toList.2 ht)), concern.type, runs.names, runs.name, pos, hcur⟩
  · split at h
    · rename_i some
      rw [runs.same] at some
      obtain ⟨f, hf⟩ := Option.isSome_iff_exists.1 some
      obtain ⟨pos, hfut, -⟩ := runs.future f hf
      rw [List.mem_singleton] at h
      exact ⟨f, List.mem_append.2 (.inr (Option.mem_toList.2 hf)), concern.type, runs.names, runs.name, pos, h.trans hfut⟩
    · cases h

/-- No number of type `int32` is its own successor. -/
theorem addInt32_one_ne (g : Int) : addInt32 g 1 ≠ g := by
  intro h
  have modulo : addInt32 g 1 % ((2 ^ 32 : Nat) : Int) = (g + 1) % ((2 ^ 32 : Nat) : Int) := Int.bmod_emod
  rw [h] at modulo
  omega

/-- The generation check keeps the names of the current topic and the future one apart. -/
theorem RunsTopics.names_nodup (runs : RunsTopics platform environment clusters concern topics rtTops)
    (checked : topics.GenerationsChecked) : rtTops.names.Nodup := by
  obtain ⟨t, ht, pos, hcur, -⟩ := runs.current
  unfold RtTopics.names
  split
  · rename_i some
    rw [runs.same] at some
    obtain ⟨f, hf⟩ := Option.isSome_iff_exists.1 some
    obtain ⟨fpos, hfut, -⟩ := runs.future f hf
    rw [List.nodup_cons, List.mem_singleton]
    refine ⟨?_, List.nodup_singleton _⟩
    intro same
    rw [hcur, hfut] at same
    obtain ⟨-, -, generations⟩ := fullTopicName_inj runs.names runs.names runs.name runs.name pos fpos same
    exact addInt32_one_ne f.generation ((checked t ht f hf).symm.trans generations)
  · exact List.nodup_singleton _

theorem RunsConcern.isName (runs : RunsConcern platform environment clusters concern rtConc) (h : name ∈ rtConc.names) :
    ∃ topic g, IsName platform environment concern.name topic g name := by
  obtain ⟨e, he, h⟩ := List.mem_flatMap.1 h
  obtain ⟨topics, -, -, r⟩ := forall₂_right runs.topics he
  obtain ⟨t, -, isName⟩ := r.isName h
  exact ⟨topics.name, t.generation, isName⟩

theorem RunsConcern.keys (runs : RunsConcern platform environment clusters concern rtConc) :
    (rtConc.topics.map Prod.fst).Nodup := by
  rw [forall₂_map runs.topics fun _ _ h => h.1]
  exact runs.distinct

theorem RunsConcern.names_nodup (runs : RunsConcern platform environment clusters concern rtConc)
    (checked : ∀ topics ∈ concern.topics, topics.GenerationsChecked) : rtConc.names.Nodup := by
  apply nodup_flatMap runs.keys
  · intro e he
    obtain ⟨topics, hm, -, r⟩ := forall₂_right runs.topics he
    exact r.names_nodup (checked topics hm)
  · intro e he e' he' name h h'
    obtain ⟨topics, -, key, r⟩ := forall₂_right runs.topics he
    obtain ⟨topics', -, key', r'⟩ := forall₂_right runs.topics he'
    obtain ⟨t, -, isName⟩ := r.isName h
    obtain ⟨t', -, isName'⟩ := r'.isName h'
    rw [key, key']
    exact (isName.inj isName').2.1

end

/-! ## The whole definition -/

section
variable {render : Render} {platDef : PlatformDef} {platformName environment : String} {rtPlatDef : RtPlatformDef}

theorem accepted_wellFormed (h : newRtPlatformDef render platDef platformName environment = .ok rtPlatDef) :
    WellFormed rtPlatDef := by
  obtain ⟨valid, checked, idx⟩ := newRtPlatformDef_ok h
  have keys : (rtPlatDef.concerns.map Prod.fst).Nodup := by
    rw [forall₂_map idx.concerns fun _ _ h => h.1, completed_names]
    exact valid.distinct
  constructor
  · rw [idx.platformDef]
    exact valid.clusters.distinct
  · rw [idx.platformDef]
    exact valid.storageTargets.distinct
  · rw [idx.platformDef, completed_names]
    exact valid.distinct
  · obtain ⟨c, hc⟩ := valid.clusters.marked
    rw [idx.platformDef, idx.admin, PlatformDef.admin_eq hc]
    exact ⟨c, hc, rfl⟩
  · rw [idx.platformDef]
    exact idx.primary
  · rw [idx.platformDef]
    intro c hc
    have hvalid := valid.concerns c hc
    obtain ⟨c, -, rfl⟩ := List.mem_map.1 hc
    exact hvalid.wellFormed valid.admin_named
  · rw [idx.platformDef, idx.clusters]
    exact mapOf_map valid.clusters.distinct
  · rw [idx.platformDef, idx.storageTargets]
    exact mapOf_map valid.storageTargets.distinct
  · rw [idx.platformDef]
    refine mapOf_of ?_ (idx.concerns.imp fun c e r => ⟨r.1, r.2.same⟩)
    rw [completed_names]
    exact valid.distinct
  · intro name rtConc found
    obtain ⟨c, -, -, runs⟩ := forall₂_right idx.concerns ((lookup_eq_some keys).1 found)
    rw [runs.same]
    exact mapOf_of runs.distinct (runs.topics.imp fun t e r => ⟨r.1, r.2.same⟩)
  · apply nodup_flatMap keys
    · intro e he
      obtain ⟨c, hc, -, runs⟩ := forall₂_right idx.concerns he
      exact runs.names_nodup (checked c hc)
    · intro e he e' he' name h h'
      obtain ⟨c, -, key, runs⟩ := forall₂_right idx.concerns he
      obtain ⟨c', -, key', runs'⟩ := forall₂_right idx.concerns he'
      obtain ⟨topic, g, isName⟩ := runs.isName h
      obtain ⟨topic', g', isName'⟩ := runs'.isName h'
      rw [key, key']
      exact (isName.inj isName').1

end

/-! A concern whose process topic is being migrated, beside the edge of the platform. -/

def sampleRender : Render := ⟨fun _ => "", fun _ => "", fun _ => ""⟩

def samplePlatform (current : Topic) (future : Option Topic) : PlatformDef where
  name := "rpg"
  environment := "dev"
  updateTime := some ⟨1700000000, 0⟩
  concerns := [⟨.general, "edge", [{ name := "response", current := some { partitionCount := 2 } }]⟩,
    ⟨.apecs, "Player", [{ name := "process", current := some current, future := future }, { name := "storage" }]⟩]
  clusters := [⟨"prim", "localhost:9092", true⟩, ⟨"scnd", "localhost:9093", false⟩]
  storageTargets := [⟨"ram", "ramdb", true⟩, ⟨"pg", "postgresql", false⟩]

theorem eq_ok_get {ε α : Type} : ∀ {x : Except ε α} (h : x.toOption.isSome = true), x = .ok (x.toOption.get h)
  | .ok _, _ => rfl

theorem accepted_wellFormed_migrating :
    WellFormed ((newRtPlatformDef sampleRender (samplePlatform ⟨2, "", 16⟩ (some ⟨1, "scnd", 2000⟩)) "rpg" "dev").toOption.get
      (by decide +kernel)) :=
  accepted_wellFormed (eq_ok_get _)

end Rocketcycle.Definition
