import Rocketcycle.Rkcy.Partitions
import Mathlib.Data.List.Induction

/-!
# All programs of a definition

What `getAllProgs` answers for an accepted definition, in any order of the substitutions.
-/

namespace Rocketcycle.Definition
open Early Templates

/-- No program of the lists is nil. -/
def NoNil (rtPlatDef : RtPlatformDef) : Prop :=
  ∀ concern ∈ rtPlatDef.platformDef.concerns, ∀ topics ∈ concern.topics, none ∉ topics.consumerPrograms

/-- The map `substMap` for a partition of topics of the definition. -/
def topicsSubsts (rtPlatDef : RtPlatformDef) (args : AdminArgs) (concern : Concern) (topics : Topics) (current : Topic) (cluster : Cluster) (i : Nat) :
    GoMap String String :=
  partitionSubsts rtPlatDef.platformDef.name rtPlatDef.platformDef.environment args concern.name cluster.brokers topics.name
    (fullTopicName rtPlatDef.platformDef.name rtPlatDef.platformDef.environment concern.name concern.type topics.name current.generation) i

/-- A program that is expanded from a template of the topics. -/
def Expanded (rtPlatDef : RtPlatformDef) (args : AdminArgs) (concern : Concern) (topics : Topics) (p : Program) : Prop :=
  ∃ current cluster consProg, ∃ i : Nat, ∃ order, Expandable rtPlatDef concern topics current cluster ∧ some consProg ∈ topics.consumerPrograms ∧
    (i : Int) < current.partitionCount ∧ p = expandProg order (topicsSubsts rtPlatDef args concern topics current cluster i) consProg

/-- A program of a concern that is not an APECS concern. -/
def OfOther (rtPlatDef : RtPlatformDef) (args : AdminArgs) (p : Program) : Prop :=
  ∃ concern ∈ rtPlatDef.platformDef.concerns, concern.type ≠ .apecs ∧ ∃ topics ∈ concern.topics, Expanded rtPlatDef args concern topics p

section
variable {rtPlatDef : RtPlatformDef} {args : AdminArgs} {concern : Concern} {topics : Topics} {current : Topic} {cluster : Cluster}

theorem expandPartition_ok (e : Expandable rtPlatDef concern topics current cluster) (order : Field → MapOrder String String) (consProg : Program) (i : Nat) :
    expandPartition order rtPlatDef.platformDef.name rtPlatDef.platformDef.environment args concern topics current rtPlatDef.clusters (some consProg) i =
      .ok (expandProg order (topicsSubsts rtPlatDef args concern topics current cluster i) consProg) := by
  unfold expandPartition
  rw [e.defined, buildFullTopicName_of e.names e.name e.generation]
  rfl

theorem exists_zipIdx {α : Type} {l : List α} {a : α} (h : a ∈ l) : ∃ j, (a, j) ∈ l.zipIdx := by
  obtain ⟨j, inside, rfl⟩ := List.getElem_of_mem h
  refine ⟨j, ?_⟩
  rw [List.mk_mem_zipIdx_iff_getElem?]
  exact List.getElem?_eq_getElem inside

/-- The programs of topics: one for each template and partition. -/
theorem expandProgs_ok (args : AdminArgs) (e : Expandable rtPlatDef concern topics current cluster) (noNil : none ∉ topics.consumerPrograms)
    (order : Nat → Nat → Field → MapOrder String String) :
    ∃ progs, expandProgs order rtPlatDef.platformDef.name rtPlatDef.platformDef.environment args concern topics rtPlatDef.clusters = .ok progs ∧
      (∀ p ∈ progs, Expanded rtPlatDef args concern topics p) ∧
      ∀ consProg, some consProg ∈ topics.consumerPrograms → ∀ i : Nat, (i : Int) < current.partitionCount →
        ∃ order', expandProg order' (topicsSubsts rtPlatDef args concern topics current cluster i) consProg ∈ progs := by
  have inner : ∀ c ∈ topics.consumerPrograms.zipIdx, ∃ progs, (List.range current.partitionCount.toNat).mapM (fun i =>
      expandPartition (order c.2 i) rtPlatDef.platformDef.name rtPlatDef.platformDef.environment args concern topics current rtPlatDef.clusters c.1 i) =
        .ok progs := by
    intro c mem
    obtain ⟨prog, j⟩ := c
    cases prog with
    | none => exact absurd (List.fst_mem_of_mem_zipIdx mem) noNil
    | some consProg => exact mapM_ok fun i _ => ⟨_, expandPartition_ok e (order j i) consProg i⟩
  obtain ⟨lists, hlists⟩ := mapM_ok inner
  obtain ⟨into, back⟩ := mapM_mem hlists
  refine ⟨lists.flatten, ?_, ?_, ?_⟩
  · unfold expandProgs
    rw [e.present]
    exact bind_eq_ok.2 ⟨lists, hlists, rfl⟩
  · intro p mem
    obtain ⟨progs, hprogs, mem⟩ := List.mem_flatten.1 mem
    obtain ⟨⟨prog, j⟩, hc, made⟩ := back progs hprogs
    obtain ⟨i, hi, expanded⟩ := (mapM_mem made).2 p mem
    cases prog with
    | none => exact absurd (List.fst_mem_of_mem_zipIdx hc) noNil
    | some consProg =>
      rw [expandPartition_ok e] at expanded
      refine ⟨current, cluster, consProg, i, order j i, e, List.fst_mem_of_mem_zipIdx hc, ?_, (Except.ok.inj expanded).symm⟩
      have := List.mem_range.1 hi
      omega
  · intro consProg mem i below
    obtain ⟨j, hj⟩ := exists_zipIdx mem
    obtain ⟨progs, hprogs, made⟩ := into (some consProg, j) hj
    have inside : i ∈ List.range current.partitionCount.toNat := List.mem_range.2 (by omega)
    obtain ⟨p, hp, expanded⟩ := (mapM_mem made).1 i inside
    rw [expandPartition_ok e] at expanded
    refine ⟨order j i, List.mem_flatten.2 ⟨progs, hprogs, ?_⟩⟩
    rw [Except.ok.inj expanded]
    exact hp

/-- The programs of a definition: one for each template and partition of its topics. -/
theorem expandAll_ok (args : AdminArgs) (definite : Definite rtPlatDef) (noNil : NoNil rtPlatDef) (order : SubstCall → MapOrder String String) :
    ∃ progs, expandAll order args rtPlatDef = .ok progs ∧
      (∀ p ∈ progs, ∃ concern ∈ rtPlatDef.platformDef.concerns, ∃ topics ∈ concern.topics, Expanded rtPlatDef args concern topics p) ∧
      ∀ concern ∈ rtPlatDef.platformDef.concerns, ∀ topics ∈ concern.topics, ∀ current cluster, Expandable rtPlatDef concern topics current cluster →
        ∀ consProg, some consProg ∈ topics.consumerPrograms → ∀ i : Nat, (i : Int) < current.partitionCount →
          ∃ order', expandProg order' (topicsSubsts rtPlatDef args concern topics current cluster i) consProg ∈ progs := by
  -- the programs of one concern's topics
  have one : ∀ concern ∈ rtPlatDef.platformDef.concerns, ∀ topics ∈ concern.topics, ∀ order : Nat → Nat → Field → MapOrder String String,
      ∃ progs, (if topics.consumerPrograms = [] then .ok []
        else expandProgs order rtPlatDef.platformDef.name rtPlatDef.platformDef.environment args concern topics rtPlatDef.clusters) = .ok progs ∧
      (∀ p ∈ progs, Expanded rtPlatDef args concern topics p) ∧ ∀ current cluster, Expandable rtPlatDef concern topics current cluster →
        ∀ consProg, some consProg ∈ topics.consumerPrograms → ∀ i : Nat, (i : Int) < current.partitionCount →
        ∃ order', expandProg order' (topicsSubsts rtPlatDef args concern topics current cluster i) consProg ∈ progs := by
    intro concern hc topics ht order
    by_cases empty : topics.consumerPrograms = []
    · refine ⟨[], if_pos empty, fun p mem => absurd mem List.not_mem_nil, ?_⟩
      intro current cluster _ consProg mem
      rw [empty] at mem
      cases mem
    · obtain ⟨current, cluster, e⟩ := definite.expandable concern hc topics ht
      obtain ⟨progs, made, all, each⟩ := expandProgs_ok args e (noNil concern hc topics ht) order
      refine ⟨progs, (if_neg empty).trans made, all, ?_⟩
      intro current' cluster' e'
      obtain rfl : current = current' := Option.some.inj (e.present.symm.trans e'.present)
      obtain rfl : cluster = cluster' := Option.some.inj (e.defined.symm.trans e'.defined)
      exact each
  have outer : ∀ c ∈ rtPlatDef.platformDef.concerns.zipIdx, ∃ lists, c.1.topics.zipIdx.mapM (fun t =>
      if t.1.consumerPrograms = [] then .ok []
      else expandProgs (fun j i field => order ⟨c.2, t.2, j, i, field⟩) rtPlatDef.platformDef.name rtPlatDef.platformDef.environment args c.1 t.1
        rtPlatDef.clusters) = .ok lists := by
    intro c mem
    refine mapM_ok fun t ht => ?_
    obtain ⟨progs, made, -⟩ := one c.1 (List.fst_mem_of_mem_zipIdx mem) t.1 (List.fst_mem_of_mem_zipIdx ht) fun j i field => order ⟨c.2, t.2, j, i, field⟩
    exact ⟨progs, made⟩
  obtain ⟨lists, hlists⟩ := mapM_ok outer
  obtain ⟨into, back⟩ := mapM_mem hlists
  refine ⟨lists.flatten.flatten, bind_eq_ok.2 ⟨lists, hlists, rfl⟩, ?_, ?_⟩
  · intro p mem
    obtain ⟨progs, hprogs, mem⟩ := List.mem_flatten.1 mem
    obtain ⟨inner, hinner, hprogs⟩ := List.mem_flatten.1 hprogs
    obtain ⟨c, hc, made⟩ := back inner hinner
    obtain ⟨t, ht, made⟩ := (mapM_mem made).2 progs hprogs
    have hc := List.fst_mem_of_mem_zipIdx hc
    have ht := List.fst_mem_of_mem_zipIdx ht
    obtain ⟨progs', made', all, -⟩ := one c.1 hc t.1 ht fun j i field => order ⟨c.2, t.2, j, i, field⟩
    rw [made'] at made
    obtain rfl := Except.ok.inj made
    exact ⟨c.1, hc, t.1, ht, all p mem⟩
  · intro concern hc topics ht current cluster e consProg mem i below
    obtain ⟨a, ha⟩ := exists_zipIdx hc
    obtain ⟨b, hb⟩ := exists_zipIdx ht
    obtain ⟨inner, hinner, made⟩ := into (concern, a) ha
    obtain ⟨progs, hprogs, made⟩ := (mapM_mem made).1 (topics, b) hb
    obtain ⟨progs', made', -, each⟩ := one concern hc topics ht fun j i field => order ⟨a, b, j, i, field⟩
    rw [made'] at made
    obtain rfl := Except.ok.inj made
    obtain ⟨order', there⟩ := each current cluster e consProg mem i below
    exact ⟨order', List.mem_flatten.2 ⟨_, List.mem_flatten.2 ⟨inner, hinner, hprogs⟩, there⟩⟩

end

/-! ## The map -/

/-- Under a key stands a program that has it, and every program's key has one. -/
theorem keyed_get (progs : List Program) (k : String) :
    (∀ p, (keyed progs).get k = some p → p ∈ progs ∧ progKey (some p) = k) ∧
      ((∃ p ∈ progs, progKey (some p) = k) → ((keyed progs).get k).isSome) := by
  unfold keyed
  induction progs using List.reverseRecOn with
  | nil =>
    constructor
    · intro p h
      cases h
    · intro h
      obtain ⟨p, mem, -⟩ := h
      cases mem
  | append_singleton progs p ih =>
    rw [List.foldl_append, List.foldl_cons, List.foldl_nil, GoMap.get_assign]
    by_cases same : k = progKey (some p)
    · rw [if_pos same]
      constructor
      · intro p' h
        obtain rfl := Option.some.inj h
        exact ⟨List.mem_append_right _ (List.mem_singleton_self p), same.symm⟩
      · intro _
        rfl
    · rw [if_neg same]
      constructor
      · intro p' h
        obtain ⟨mem, key⟩ := ih.1 p' h
        exact ⟨List.mem_append_left _ mem, key⟩
      · intro h
        obtain ⟨p', mem, key⟩ := h
        obtain mem | mem := List.mem_append.1 mem
        · exact ih.2 ⟨p', mem, key⟩
        · rw [List.mem_singleton.1 mem] at key
          exact absurd key.symm same

/-! ## Slots -/

/-- No broker, storage target or endpoint has the marker of a tag. -/
structure PlainDef (rtPlatDef : RtPlatformDef) (args : AdminArgs) : Prop where
  streamType : Plain args.streamType
  adminBrokers : Plain args.adminBrokers
  otelcolEndpoint : Plain args.otelcolEndpoint
  brokers : ∀ cluster ∈ rtPlatDef.platformDef.clusters, Plain cluster.brokers
  targets : ∀ t ∈ rtPlatDef.platformDef.storageTargets, Plain t.name

/-- The programs of a definition: every slot has its program, or else one of another concern that has the same
key; the keys of slots differ; and all other programs are those of other concerns. -/
structure OnePerSlot (rtPlatDef : RtPlatformDef) (args : AdminArgs) (progs : GoMap String Program) : Prop where
  present : ∀ slot : Slot, slot.In rtPlatDef → ∃ p, progs.get (slot.key rtPlatDef args) = some p ∧ (p = slot.program rtPlatDef args ∨ OfOther rtPlatDef args p)
  distinct : ∀ slot slot' : Slot, slot.In rtPlatDef → slot'.In rtPlatDef → slot.key rtPlatDef args = slot'.key rtPlatDef args → slot = slot'
  only : ∀ k p, progs.get k = some p → progKey (some p) = k ∧
    ((∃ slot : Slot, slot.In rtPlatDef ∧ p = slot.program rtPlatDef args) ∨ OfOther rtPlatDef args p)

section
variable {rtPlatDef : RtPlatformDef} {args : AdminArgs} {concern : Concern} {topics : Topics} {current : Topic} {cluster : Cluster}

theorem PlainDef.values (plain : PlainDef rtPlatDef args) (definite : Definite rtPlatDef) (e : Expandable rtPlatDef concern topics current cluster) :
    PlainValues rtPlatDef.platformDef.name rtPlatDef.platformDef.environment args concern.name cluster.brokers topics.name
      (fullTopicName rtPlatDef.platformDef.name rtPlatDef.platformDef.environment concern.name concern.type topics.name current.generation) where
  platformName := plain_of_isValidName e.names.platform
  environment := plain_of_isValidName e.names.environment
  streamType := plain.streamType
  adminBrokers := plain.adminBrokers
  otelcolEndpoint := plain.otelcolEndpoint
  concernName := plain_of_isValidName e.names.concern
  brokers := plain.brokers cluster (definite.clusters _ _ e.defined)
  system := plain_of_isValidName e.name
  topic := not_mem_fullTopicName e.names e.name (by decide) (by decide) (by decide) (by decide)

/-- The template of a slot is among those of its topics, and is expanded to its program. -/
theorem Slot.In.template {slot : Slot} (h : slot.In rtPlatDef) (plain : PlainDef rtPlatDef args) (definite : Definite rtPlatDef) :
    some (slotTemplate slot.topics.name slot.target) ∈ slot.topics.consumerPrograms ∧
      ∀ order, expandProg order (topicsSubsts rtPlatDef args slot.concern slot.topics slot.current slot.cluster slot.partition)
        (slotTemplate slot.topics.name slot.target) = slot.program rtPlatDef args := by
  constructor
  · rw [definite.apecs slot.concern h.concern h.apecs slot.topics h.topics, apecsPrograms_eq]
    exact List.mem_map.2 ⟨slot.target, h.target, rfl⟩
  · intro order
    refine expandProg_slot order (plain.values definite (h.expandable definite)) ?_ ?_
    · intro t ht
      obtain ⟨-, none⟩ | ⟨-, t', mem, some, -⟩ := mem_slotTargets h.target
      · rw [none] at ht
        cases ht
      · rw [some] at ht
        obtain rfl := Option.some.inj ht
        exact plain.targets _ mem
    · obtain ⟨process, none⟩ | ⟨-, t', -, some, -⟩ := mem_slotTargets h.target
      · exact Or.inl ⟨process, none⟩
      · right
        rw [some]
        rfl

/-- A template of an APECS concern is that of a target. -/
theorem Definite.slot (definite : Definite rtPlatDef) (hc : concern ∈ rtPlatDef.platformDef.concerns) (apecs : concern.type = .apecs)
    (ht : topics ∈ concern.topics) (e : Expandable rtPlatDef concern topics current cluster) {consProg : Program}
    (mem : some consProg ∈ topics.consumerPrograms) {i : Nat} (below : (i : Int) < current.partitionCount) :
    ∃ target, consProg = slotTemplate topics.name target ∧ Slot.In rtPlatDef ⟨concern, topics, current, cluster, target, i⟩ := by
  rw [definite.apecs concern hc apecs topics ht, apecsPrograms_eq] at mem
  obtain ⟨target, htarget, same⟩ := List.mem_map.1 mem
  exact ⟨target, (Option.some.inj same).symm, ⟨hc, apecs, ht, e.present, e.defined, htarget, below⟩⟩

theorem expanded_slot (plain : PlainDef rtPlatDef args) (definite : Definite rtPlatDef) (hc : concern ∈ rtPlatDef.platformDef.concerns)
    (apecs : concern.type = .apecs) (ht : topics ∈ concern.topics) {p : Program} (expanded : Expanded rtPlatDef args concern topics p) :
    ∃ slot : Slot, slot.In rtPlatDef ∧ p = slot.program rtPlatDef args := by
  obtain ⟨current, cluster, consProg, i, order, e, mem, below, rfl⟩ := expanded
  obtain ⟨target, rfl, inside⟩ := definite.slot hc apecs ht e mem below
  exact ⟨_, inside, (inside.template plain definite).2 order⟩

theorem getAllProgs_onePerSlot (plain : PlainDef rtPlatDef args) (definite : Definite rtPlatDef) (noNil : NoNil rtPlatDef)
    (order : SubstCall → MapOrder String String) : ∃ progs, getAllProgs order args (some rtPlatDef) = .ok progs ∧ OnePerSlot rtPlatDef args progs := by
  obtain ⟨all, expanded, source, each⟩ := expandAll_ok args definite noNil order
  have source : ∀ p ∈ all, (∃ slot : Slot, slot.In rtPlatDef ∧ p = slot.program rtPlatDef args) ∨ OfOther rtPlatDef args p := by
    intro p mem
    obtain ⟨concern, hc, topics, ht, from'⟩ := source p mem
    by_cases apecs : concern.type = .apecs
    · exact Or.inl (expanded_slot plain definite hc apecs ht from')
    · exact Or.inr ⟨concern, hc, apecs, topics, ht, from'⟩
  have distinct : ∀ slot slot' : Slot, slot.In rtPlatDef → slot'.In rtPlatDef → slot.key rtPlatDef args = slot'.key rtPlatDef args → slot = slot' :=
    fun slot slot' h h' => Slot.key_inj definite h h'
  refine ⟨keyed all, bind_eq_ok.2 ⟨all, expanded, rfl⟩, ?_, distinct, ?_⟩
  · intro slot h
    obtain ⟨template, expands⟩ := h.template plain definite
    obtain ⟨order', there⟩ := each slot.concern h.concern slot.topics h.topics slot.current slot.cluster (h.expandable definite) _ template slot.partition
      h.partition
    rw [expands order'] at there
    have some := (keyed_get all (slot.key rtPlatDef args)).2 ⟨_, there, rfl⟩
    obtain ⟨p, found⟩ := Option.isSome_iff_exists.1 some
    obtain ⟨mem, key⟩ := (keyed_get all _).1 p found
    refine ⟨p, found, ?_⟩
    obtain ⟨slot', h', rfl⟩ | other := source p mem
    · rw [distinct slot' slot h' h key]
      exact Or.inl rfl
    · exact Or.inr other
  · intro k p found
    obtain ⟨mem, key⟩ := (keyed_get all k).1 p found
    exact ⟨key, source p mem⟩

end

/-! ## Any order -/

/-- No tag is left in the strings of a template once all its tags are replaced. -/
structure SettledProgram (substMap : GoMap String String) (consProg : Program) : Prop where
  name : TagFree (substs substMap) consProg.name.toList
  args : ∀ arg ∈ consProg.args, TagFree (substs substMap) arg.toList
  abbreviation : TagFree (substs substMap) consProg.abbreviation.toList
  tags : ∀ e ∈ consProg.tags, TagFree (substs substMap) e.2.toList

instance (substMap : GoMap String String) (consProg : Program) : Decidable (SettledProgram substMap consProg) :=
  decidable_of_iff (TagFree (substs substMap) consProg.name.toList ∧ (∀ arg ∈ consProg.args, TagFree (substs substMap) arg.toList) ∧
      TagFree (substs substMap) consProg.abbreviation.toList ∧ ∀ e ∈ consProg.tags, TagFree (substs substMap) e.2.toList)
    ⟨fun h => ⟨h.1, h.2.1, h.2.2.1, h.2.2.2⟩, fun h => ⟨h.name, h.args, h.abbreviation, h.tags⟩⟩

/-- No tag is left in the programs of concerns that are not APECS concerns. -/
def OthersSettle (rtPlatDef : RtPlatformDef) (args : AdminArgs) : Prop :=
  ∀ concern ∈ rtPlatDef.platformDef.concerns, concern.type ≠ .apecs → ∀ topics ∈ concern.topics, ∀ current cluster,
    Expandable rtPlatDef concern topics current cluster → ∀ consProg, some consProg ∈ topics.consumerPrograms → ∀ i : Nat,
      (i : Int) < current.partitionCount → SettledProgram (topicsSubsts rtPlatDef args concern topics current cluster i) consProg

section
variable {rtPlatDef : RtPlatformDef} {args : AdminArgs} {concern : Concern} {topics : Topics} {current : Topic} {cluster : Cluster}

/-- A template that settles is expanded alike in any order. -/
theorem expandProg_settled {platformName environment concernName brokers system topic : String} {i : Nat}
    (plain : PlainValues platformName environment args concernName brokers system topic) {consProg : Program}
    (settled : SettledProgram (partitionSubsts platformName environment args concernName brokers system topic i) consProg)
    (order order' : Field → MapOrder String String) :
    expandProg order (partitionSubsts platformName environment args concernName brokers system topic i) consProg =
      expandProg order' (partitionSubsts platformName environment args concernName brokers system topic i) consProg := by
  have tags := partitionSubsts_tags (i := i) plain
  have alike : ∀ s, TagFree (substs (partitionSubsts platformName environment args concernName brokers system topic i)) s.toList → ∀ field,
      substStr s ((order field).run (partitionSubsts platformName environment args concernName brokers system topic i)) =
        substStr s ((order' field).run (partitionSubsts platformName environment args concernName brokers system topic i)) := by
    intro s hs field
    rw [substStr_settled tags hs ((order field).same _), substStr_settled tags hs ((order' field).same _)]
  unfold expandProg
  rw [alike _ settled.name, alike _ settled.abbreviation, expand_stdTags plain, expand_stdTags plain]
  have args' : ∀ f : Nat → Field, consProg.args.mapIdx (fun j arg => substStr arg ((order (f j)).run (partitionSubsts platformName environment args concernName brokers system topic i))) =
      consProg.args.mapIdx (fun j arg => substStr arg ((order' (f j)).run (partitionSubsts platformName environment args concernName brokers system topic i))) := by
    intro f
    apply List.ext_getElem
    · rw [List.length_mapIdx, List.length_mapIdx]
    · intro j inside inside'
      rw [List.getElem_mapIdx, List.getElem_mapIdx]
      exact alike _ (settled.args _ (List.getElem_mem _)) (f j)
  have own : consProg.tags.map (fun e => (e.1, substStr e.2 ((order (.tag e.1)).run (partitionSubsts platformName environment args concernName brokers system topic i)))) =
      consProg.tags.map (fun e => (e.1, substStr e.2 ((order' (.tag e.1)).run (partitionSubsts platformName environment args concernName brokers system topic i)))) := by
    apply List.map_congr_left
    intro e mem
    rw [alike _ (settled.tags e mem)]
  rw [args' Field.arg, own]

/-- The programs do not depend on the order of the substitutions. -/
theorem expandAll_eq (plain : PlainDef rtPlatDef args) (definite : Definite rtPlatDef) (noNil : NoNil rtPlatDef) (settle : OthersSettle rtPlatDef args)
    (order order' : SubstCall → MapOrder String String) : expandAll order args rtPlatDef = expandAll order' args rtPlatDef := by
  unfold expandAll
  refine congrArg (· >>= _) (mapM_congr fun c hc => mapM_congr fun t ht => ?_)
  have hc := List.fst_mem_of_mem_zipIdx hc
  have ht := List.fst_mem_of_mem_zipIdx ht
  obtain ⟨current, cluster, e⟩ := definite.expandable c.1 hc t.1 ht
  have values := plain.values definite e
  by_cases empty : t.1.consumerPrograms = []
  · rw [if_pos empty, if_pos empty]
  · rw [if_neg empty, if_neg empty]
    unfold expandProgs
    rw [e.present]
    dsimp only
    refine congrArg (· >>= _) (mapM_congr fun q hq => mapM_congr fun i hi => ?_)
    have hq := List.fst_mem_of_mem_zipIdx hq
    have below : (i : Int) < current.partitionCount := by
      have := List.mem_range.1 hi
      omega
    cases template : q.1 with
    | none =>
      rw [template] at hq
      exact absurd hq (noNil c.1 hc t.1 ht)
    | some consProg =>
      rw [template] at hq
      rw [expandPartition_ok e, expandPartition_ok e]
      by_cases apecs : c.1.type = .apecs
      · obtain ⟨target, rfl, inside⟩ := definite.slot hc apecs ht e hq below
        have expands := (inside.template plain definite).2
        exact congrArg Except.ok ((expands _).trans (expands _).symm)
      · exact congrArg Except.ok (expandProg_settled values (settle c.1 hc apecs t.1 ht current cluster e consProg hq i below) _ _)

theorem getAllProgs_eq (plain : PlainDef rtPlatDef args) (definite : Definite rtPlatDef) (noNil : NoNil rtPlatDef) (settle : OthersSettle rtPlatDef args)
    (order order' : SubstCall → MapOrder String String) : getAllProgs order args (some rtPlatDef) = getAllProgs order' args (some rtPlatDef) := by
  unfold getAllProgs
  dsimp only
  rw [expandAll_eq plain definite noNil settle order order']

end

end Rocketcycle.Definition
