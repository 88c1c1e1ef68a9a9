import Rocketcycle.Rkcy.Expansion

/-!
# A program for every partition

Every partition of a process topic needs a program, and every partition of a storage topic needs one for each
storage target that the topic is for. The programs of a definition are these, and those that are expanded
from the templates of its other concerns.
-/

namespace Rocketcycle.Definition
open Early

/-- A partition that needs a program, and the storage target that the program writes to. -/
structure Slot where
  concern : Concern
  topics : Topics
  current : Topic
  cluster : Cluster
  target : Option StorageTarget
  partition : Nat

/-- The storage targets that a topic of an APECS concern is for. A process topic is for none. -/
def slotTargets (name : String) (storageTargets : List StorageTarget) : List (Option StorageTarget) :=
  if name = "process" then [none]
  else if name = "storage" then (storageTargets.filter (·.isPrimary)).map some
  else if name = "storage-scnd" then (storageTargets.filter fun t => !t.isPrimary).map some
  else []

namespace Slot

/-- The slots of a definition. -/
structure In (rtPlatDef : RtPlatformDef) (slot : Slot) : Prop where
  concern : slot.concern ∈ rtPlatDef.platformDef.concerns
  apecs : slot.concern.type = .apecs
  topics : slot.topics ∈ slot.concern.topics
  current : slot.topics.current = some slot.current
  cluster : rtPlatDef.clusters.lookup slot.current.cluster = some slot.cluster
  target : slot.target ∈ slotTargets slot.topics.name rtPlatDef.platformDef.storageTargets
  partition : (slot.partition : Int) < slot.current.partitionCount

section
variable (rtPlatDef : RtPlatformDef) (args : AdminArgs) (slot : Slot)

def fullTopic : String :=
  fullTopicName rtPlatDef.platformDef.name rtPlatDef.platformDef.environment slot.concern.name slot.concern.type slot.topics.name
    slot.current.generation

def targetArgs : List String :=
  match slot.target with
  | none => []
  | some t => ["--storage_target", t.name]

def abbreviation : String :=
  match slot.target with
  | none => "p/" ++ (slot.concern.name ++ ("/" ++ toString slot.partition))
  | some t => "s/" ++ (if t.isPrimary then "*" else "") ++ t.name ++ "/" ++ (slot.concern.name ++ ("/" ++ toString slot.partition))

def tags : List (String × String) :=
  [("service.name", "rkcy." ++ (rtPlatDef.platformDef.name ++ ("." ++ (rtPlatDef.platformDef.environment ++ ("." ++ (slot.concern.name ++
      ("." ++ slot.topics.name))))))),
    ("rkcy.environment", rtPlatDef.platformDef.environment), ("rkcy.concern", slot.concern.name), ("rkcy.system", slot.topics.name),
    ("rkcy.topic", slot.fullTopic rtPlatDef), ("rkcy.partition", toString slot.partition)]

/-- What follows the topic and the target, the same for all partitions of the topic. -/
def commonArgs : List String :=
  ["-e", rtPlatDef.platformDef.environment, "--otelcol_endpoint", args.otelcolEndpoint, "--admin_brokers", args.adminBrokers, "--consumer_brokers",
    slot.cluster.brokers, "--stream", args.streamType]

/-- The program for the slot: the command is named like the topic. -/
def program : Program where
  name := "./" ++ rtPlatDef.platformDef.name
  args := slot.topics.name :: "-t" :: slot.fullTopic rtPlatDef :: "-p" :: toString slot.partition :: (slot.targetArgs ++ slot.commonArgs rtPlatDef args)
  abbreviation := slot.abbreviation
  tags := ((slot.tags rtPlatDef).foldl (fun tags e => tags.assign e.1 e.2) GoMap.empty).entries

def key : String := progKey (some (slot.program rtPlatDef args))

/-- The map `substMap` for the slot. -/
def substMap : GoMap String String :=
  partitionSubsts rtPlatDef.platformDef.name rtPlatDef.platformDef.environment args slot.concern.name slot.cluster.brokers slot.topics.name
    (slot.fullTopic rtPlatDef) slot.partition

end

end Slot

/-! ## Templates of APECS concerns -/

/-- The template for a target. -/
def slotTemplate (name : String) : Option StorageTarget → Program
  | none => processProgram
  | some t => storageProgram name (if t.isPrimary then "*" else "") t

theorem apecsPrograms_eq (name : String) (storageTargets : List StorageTarget) :
    apecsPrograms name storageTargets = (slotTargets name storageTargets).map fun t => some (slotTemplate name t) := by
  unfold apecsPrograms slotTargets
  by_cases process : name = "process"
  · rw [if_pos process, if_pos process]
    rfl
  · rw [if_neg process, if_neg process]
    by_cases storage : name = "storage"
    · rw [if_pos storage, if_pos storage, List.map_map]
      apply List.map_congr_left
      intro t ht
      have primary : t.isPrimary = true := (List.mem_filter.1 ht).2
      simp [slotTemplate, storage, primary]
    · rw [if_neg storage, if_neg storage]
      by_cases scnd : name = "storage-scnd"
      · rw [if_pos scnd, if_pos scnd, List.map_map]
        apply List.map_congr_left
        intro t ht
        have notPrimary : t.isPrimary = false := by simpa using (List.mem_filter.1 ht).2
        simp [slotTemplate, scnd, notPrimary]
      · rw [if_neg scnd, if_neg scnd]
        rfl

theorem mem_slotTargets {name : String} {storageTargets : List StorageTarget} {target : Option StorageTarget}
    (h : target ∈ slotTargets name storageTargets) :
    (name = "process" ∧ target = none) ∨
      ((name = "storage" ∨ name = "storage-scnd") ∧ ∃ t ∈ storageTargets, target = some t ∧ (t.isPrimary = true ↔ name = "storage")) := by
  unfold slotTargets at h
  by_cases process : name = "process"
  · rw [if_pos process] at h
    exact Or.inl ⟨process, List.mem_singleton.1 h⟩
  · rw [if_neg process] at h
    right
    by_cases storage : name = "storage"
    · rw [if_pos storage] at h
      obtain ⟨t, ht, rfl⟩ := List.mem_map.1 h
      obtain ⟨mem, primary⟩ := List.mem_filter.1 ht
      exact ⟨Or.inl storage, t, mem, rfl, iff_of_true primary storage⟩
    · rw [if_neg storage] at h
      by_cases scnd : name = "storage-scnd"
      · rw [if_pos scnd] at h
        obtain ⟨t, ht, rfl⟩ := List.mem_map.1 h
        obtain ⟨mem, notPrimary⟩ := List.mem_filter.1 ht
        exact ⟨Or.inr scnd, t, mem, rfl, iff_of_false (by simpa using notPrimary) storage⟩
      · rw [if_neg scnd] at h
        cases h

theorem mapIdx_eq_map {α β : Type} {f : Nat → α → β} {g : α → β} {l : List α} (same : ∀ j, ∀ a ∈ l, f j a = g a) : l.mapIdx f = l.map g := by
  apply List.ext_getElem
  · rw [List.length_mapIdx, List.length_map]
  · intro j inside inside'
    rw [List.getElem_mapIdx, List.getElem_map]
    exact same j _ (List.getElem_mem _)

section
variable {order : Field → MapOrder String String} {platformName environment concernName brokers system topic : String} {args : AdminArgs} {i : Nat}

/-- A plain string is no tag. -/
theorem partitionSubsts_get_plain {s : String} (plain : Plain s) : (partitionSubsts platformName environment args concernName brokers system topic i).get s = none := by
  rw [← Option.not_isSome_iff_eq_none]
  unfold GoMap.get
  rw [Entries.lookup_isSome]
  intro mem
  obtain ⟨head, -⟩ := tagNames_marked s mem
  exact plain (List.mem_of_mem_head? head)

/-- The tags that every program has. -/
theorem expand_stdTags (plain : PlainValues platformName environment args concernName brokers system topic) :
    gStdTags.map (fun e => (e.1, substStr e.2 ((order (.stdTag e.1)).run (partitionSubsts platformName environment args concernName brokers system topic i)))) =
      [("service.name", "rkcy." ++ (platformName ++ ("." ++ (environment ++ ("." ++ (concernName ++ ("." ++ system))))))),
        ("rkcy.environment", environment), ("rkcy.concern", concernName), ("rkcy.system", system), ("rkcy.topic", topic),
        ("rkcy.partition", toString i)] := by
  have tags := partitionSubsts_tags (i := i) plain
  have ordered := fun field => (order field).same (partitionSubsts platformName environment args concernName brokers system topic i)
  have entry : ∀ k v, (partitionSubsts platformName environment args concernName brokers system topic i).get k = some v → (k, v) ∈ _ :=
    fun k v h => GoMap.get_eq_some.1 h
  have dot : Plain "." := by decide
  have service := substStr_template tags
    [("rkcy.", "@platform", platformName), (".", "@environment", environment), (".", "@concern", concernName), (".", "@system", system)] "" (fun p hp => by
      simp only [List.mem_cons, List.not_mem_nil, or_false] at hp
      obtain rfl | rfl | rfl | rfl := hp
      · exact ⟨show Plain "rkcy." by decide, entry _ _ rfl⟩
      · exact ⟨dot, entry _ _ rfl⟩
      · exact ⟨dot, entry _ _ rfl⟩
      · exact ⟨dot, entry _ _ rfl⟩) (show Plain "" by decide) (ordered (.stdTag "service.name"))
  have result : filled [("rkcy.", "@platform", platformName), (".", "@environment", environment), (".", "@concern", concernName), (".", "@system", system)] "" =
      "rkcy." ++ (platformName ++ ("." ++ (environment ++ ("." ++ (concernName ++ ("." ++ system)))))) := by simp [filled]
  rw [result] at service
  unfold gStdTags
  simp only [List.map_cons, List.map_nil]
  rw [substStr_tag tags (entry "@environment" environment rfl) (ordered _), substStr_tag tags (entry "@concern" concernName rfl) (ordered _),
    substStr_tag tags (entry "@system" system rfl) (ordered _), substStr_tag tags (entry "@topic" topic rfl) (ordered _),
    substStr_tag tags (entry "@partition" (toString i) rfl) (ordered _)]
  exact congrArg (fun service => [("service.name", service), _, _, _, _, _]) service

/-- What the templates of APECS concerns have in common. -/
theorem expandProg_common (order : Field → MapOrder String String) (i : Nat)
    (plain : PlainValues platformName environment args concernName brokers system topic) (consProg : Program)
    (name : consProg.name = "./@platform") (own : consProg.tags = []) (texts : ∀ arg ∈ consProg.args, Plain arg ∨ arg ∈ tagNames) :
    let substMap := partitionSubsts platformName environment args concernName brokers system topic i
    (expandProg order substMap consProg).name = "./" ++ platformName ∧
    (expandProg order substMap consProg).args = consProg.args.map (fun arg => (substMap.get arg).getD arg) ∧
    (expandProg order substMap consProg).tags =
      (([("service.name", "rkcy." ++ (platformName ++ ("." ++ (environment ++ ("." ++ (concernName ++ ("." ++ system))))))),
        ("rkcy.environment", environment), ("rkcy.concern", concernName), ("rkcy.system", system), ("rkcy.topic", topic),
        ("rkcy.partition", toString i)] : List (String × String)).foldl (fun tags e => tags.assign e.1 e.2) GoMap.empty).entries := by
  have tags := partitionSubsts_tags (i := i) plain
  have ordered := fun field => (order field).same (partitionSubsts platformName environment args concernName brokers system topic i)
  refine ⟨?_, ?_, ?_⟩
  · have whole := substStr_template tags [("./", "@platform", platformName)] "" (fun p hp => by
      rw [List.mem_singleton.1 hp]
      exact ⟨show Plain "./" by decide, GoMap.get_eq_some.1 rfl⟩) (show Plain "" by decide) (ordered .name)
    have result : filled [("./", "@platform", platformName)] "" = "./" ++ platformName := by simp [filled]
    unfold expandProg
    dsimp only
    rw [name, ← result]
    exact whole
  · apply mapIdx_eq_map
    intro j arg mem
    refine substStr_get tags ?_ (ordered (.arg j))
    refine (texts arg mem).imp id ?_
    intro isTag
    unfold GoMap.get
    rw [Entries.lookup_isSome]
    exact isTag
  · unfold expandProg
    dsimp only
    rw [own, List.map_nil, List.append_nil, expand_stdTags plain]

theorem expandProg_abbreviation (plain : PlainValues platformName environment args concernName brokers system topic) {front : String} (plainFront : Plain front)
    {consProg : Program} (same : consProg.abbreviation = front ++ "@concern/@partition") :
    (expandProg order (partitionSubsts platformName environment args concernName brokers system topic i) consProg).abbreviation =
      front ++ (concernName ++ ("/" ++ toString i)) := by
  have tags := partitionSubsts_tags (i := i) plain
  have entry : ∀ k v, (partitionSubsts platformName environment args concernName brokers system topic i).get k = some v → (k, v) ∈ _ :=
    fun k v h => GoMap.get_eq_some.1 h
  have whole := substStr_template tags [(front, "@concern", concernName), ("/", "@partition", toString i)] "" (fun p hp => by
    simp only [List.mem_cons, List.not_mem_nil, or_false] at hp
    obtain rfl | rfl := hp
    · exact ⟨plainFront, entry _ _ rfl⟩
    · exact ⟨show Plain "/" by decide, entry _ _ rfl⟩) (show Plain "" by decide) ((order .abbreviation).same _)
  have before : template [(front, "@concern", concernName), ("/", "@partition", toString i)] "" = front ++ "@concern/@partition" :=
    congrArg (front ++ ·) rfl
  have after : filled [(front, "@concern", concernName), ("/", "@partition", toString i)] "" = front ++ (concernName ++ ("/" ++ toString i)) := by
    simp [filled]
  rw [before, after] at whole
  unfold expandProg
  dsimp only
  rw [same]
  exact whole

/-- A template gives the program of its slot in any order. -/
theorem expandProg_slot {rtPlatDef : RtPlatformDef} {slot : Slot} (order : Field → MapOrder String String)
    (plain : PlainValues rtPlatDef.platformDef.name rtPlatDef.platformDef.environment args slot.concern.name slot.cluster.brokers slot.topics.name
      (slot.fullTopic rtPlatDef))
    (targets : ∀ t ∈ slot.target, Plain t.name) (command : (slot.topics.name = "process" ∧ slot.target = none) ∨ slot.target.isSome) :
    expandProg order (slot.substMap rtPlatDef args) (slotTemplate slot.topics.name slot.target) = slot.program rtPlatDef args := by
  have fields : ∀ prog prog' : Program, prog.name = prog'.name → prog.args = prog'.args → prog.abbreviation = prog'.abbreviation →
      prog.tags = prog'.tags → prog = prog' := by
    intro prog prog' h1 h2 h3 h4
    cases prog
    cases prog'
    simp only at h1 h2 h3 h4
    rw [h1, h2, h3, h4]
  cases target : slot.target with
  | none =>
    have process : slot.topics.name = "process" := by
      obtain ⟨process, -⟩ | some := command
      · exact process
      · rw [target] at some
        cases some
    have texts : ∀ arg ∈ processProgram.args, Plain arg ∨ arg ∈ tagNames := by decide
    obtain ⟨hname, hargs, htags⟩ := expandProg_common order slot.partition plain processProgram rfl rfl texts
    apply fields
    · exact hname
    · refine hargs.trans ?_
      show _ = slot.topics.name :: "-t" :: slot.fullTopic rtPlatDef :: "-p" :: toString slot.partition :: (slot.targetArgs ++ slot.commonArgs rtPlatDef args)
      unfold Slot.targetArgs Slot.commonArgs
      rw [target, process]
      rfl
    · refine (expandProg_abbreviation plain (show Plain "p/" by decide) rfl).trans ?_
      show _ = slot.abbreviation
      unfold Slot.abbreviation
      rw [target]
    · exact htags
  | some t =>
    have plainTarget : Plain t.name := targets t target
    have texts : ∀ arg ∈ (storageProgram slot.topics.name (if t.isPrimary then "*" else "") t).args, Plain arg ∨ arg ∈ tagNames := by
      intro arg mem
      unfold storageProgram at mem
      simp only [List.mem_cons, List.not_mem_nil, or_false] at mem
      obtain rfl | mem := mem
      · exact Or.inl plain.system
      · obtain rfl | rfl | rfl | rfl | rfl | rfl | rest := mem
        · exact Or.inl (by decide)
        · exact Or.inr (by decide)
        · exact Or.inl (by decide)
        · exact Or.inr (by decide)
        · exact Or.inl (by decide)
        · exact Or.inl plainTarget
        · have others : ∀ a ∈ ["-e", "@environment", "--otelcol_endpoint", "@otelcol_endpoint", "--admin_brokers", "@admin_brokers",
              "--consumer_brokers", "@consumer_brokers", "--stream", "@stream"], Plain a ∨ a ∈ tagNames := by decide
          exact others arg (by simp only [List.mem_cons, List.not_mem_nil, or_false]; exact rest)
    obtain ⟨hname, hargs, htags⟩ := expandProg_common order slot.partition plain
      (storageProgram slot.topics.name (if t.isPrimary then "*" else "") t) rfl rfl texts
    apply fields
    · exact hname
    · refine hargs.trans ?_
      show _ = slot.topics.name :: "-t" :: slot.fullTopic rtPlatDef :: "-p" :: toString slot.partition :: (slot.targetArgs ++ slot.commonArgs rtPlatDef args)
      unfold Slot.targetArgs Slot.commonArgs storageProgram
      rw [target]
      simp only [List.map_cons, List.map_nil]
      rw [partitionSubsts_get_plain plain.system, partitionSubsts_get_plain plainTarget]
      rfl
    · have plainFront : Plain ("s/" ++ (if t.isPrimary then "*" else "") ++ t.name ++ "/") := by
        have slash : Plain "/" := by decide
        have start : Plain ("s/" ++ if t.isPrimary then "*" else "") := by
          cases t.isPrimary
          · decide
          · decide
        unfold Plain at *
        rw [String.toList_append, String.toList_append, List.mem_append, List.mem_append]
        rintro ((mem | mem) | mem)
        · exact start mem
        · exact plainTarget mem
        · exact slash mem
      refine (expandProg_abbreviation plain plainFront ?_).trans ?_
      · unfold slotTemplate storageProgram
        rw [← String.toList_inj]
        simp [toString]
      · show _ = slot.abbreviation
        unfold Slot.abbreviation
        rw [target]
    · exact htags

end

/-! ## Keys -/

theorem intercalate_cons (a : String) {l : List String} (some : l ≠ []) :
    (" ".intercalate (a :: l)).toList = a.toList ++ ' ' :: (" ".intercalate l).toList := by
  rw [String.intercalate_cons_of_ne_nil some, String.toList_append, String.toList_append, List.append_assoc]
  rfl

/-- Without a blank. -/
def Word (s : String) : Prop := ' ' ∉ s.toList

instance (s : String) : Decidable (Word s) := inferInstanceAs (Decidable (' ' ∉ s.toList))

theorem word_of_isValidName {name : String} (h : isValidName name = true) : Word name := not_mem_of_isValidName h (by decide) (by decide)

theorem plain_of_isValidName {name : String} (h : isValidName name = true) : Plain name := not_mem_of_isValidName h (by decide) (by decide)

theorem word_toString (i : Nat) : Word (toString i) := by
  intro mem
  have mem : ' ' ∈ (Nat.repr i).toList := mem
  rw [Nat.toList_repr] at mem
  have digit : (' ' : Char).isDigit = true := Nat.isDigit_of_mem_toDigits (by decide) (by decide) mem
  exact absurd digit (by decide)

theorem toString_inj {i i' : Nat} (h : toString i = toString i') : i = i' := by
  have digits : Nat.toDigits 10 i = Nat.toDigits 10 i' := by
    rw [← Nat.toList_repr, ← Nat.toList_repr]
    exact congrArg String.toList h
  have value := congrArg (fun cs => Nat.ofDigitChars 10 cs 0) digits
  simp only [Nat.ofDigitChars_ten_toDigits] at value
  exact value

/-- A full name is made of letters, dashes, dots and digits. -/
theorem not_mem_fullTopicName {platformName environment concernName name : String} {type : ConcernType} {generation : Int} {c : Char}
    (names : ValidNames platformName environment concernName type) (topic : isValidName name = true) (letter : isLetter c = false) (dash : c ≠ '-')
    (dot : c ≠ '.') (digit : c.isDigit = false) : c ∉ (fullTopicName platformName environment concernName type name generation).toList := by
  have one : ".".toList = ['.'] := rfl
  have front : c ∉ "rkcy.".toList := by
    intro mem
    have rkcy : c = 'r' ∨ c = 'k' ∨ c = 'c' ∨ c = 'y' ∨ c = '.' := by simpa using mem
    obtain rfl | rfl | rfl | rfl | rfl := rkcy
    · exact absurd letter (by decide)
    · exact absurd letter (by decide)
    · exact absurd letter (by decide)
    · exact absurd letter (by decide)
    · exact dot rfl
  unfold fullTopicName
  simp only [toString, String.toList_append, one, List.mem_append, List.mem_singleton, not_or]
  have number : c ∉ (fourDigits generation.toNat).toList := by
    intro mem
    rw [isDigit_of_mem_fourDigits mem] at digit
    cases digit
  exact ⟨⟨⟨⟨⟨⟨⟨⟨⟨⟨⟨front, not_mem_of_isValidName names.platform letter dash⟩, dot⟩, not_mem_of_isValidName names.environment letter dash⟩, dot⟩,
    not_mem_of_isValidName names.concern letter dash⟩, dot⟩, not_mem_of_isValidName names.type letter dash⟩, dot⟩, not_mem_of_isValidName topic letter dash⟩, dot⟩,
    number⟩

/-! ## Accepted definitions -/

/-- Topics whose programs can be expanded. -/
structure Expandable (rtPlatDef : RtPlatformDef) (concern : Concern) (topics : Topics) (current : Topic) (cluster : Cluster) : Prop where
  present : topics.current = some current
  generation : 0 < current.generation
  names : ValidNames rtPlatDef.platformDef.name rtPlatDef.platformDef.environment concern.name concern.type
  name : isValidName topics.name = true
  defined : rtPlatDef.clusters.lookup current.cluster = some cluster

/-- What is known of an accepted definition. -/
structure Definite (rtPlatDef : RtPlatformDef) : Prop where
  expandable : ∀ concern ∈ rtPlatDef.platformDef.concerns, ∀ topics ∈ concern.topics, ∃ current cluster,
    Expandable rtPlatDef concern topics current cluster
  apecs : ∀ concern ∈ rtPlatDef.platformDef.concerns, concern.type = .apecs → ∀ topics ∈ concern.topics,
    topics.consumerPrograms = apecsPrograms topics.name rtPlatDef.platformDef.storageTargets
  concerns : (rtPlatDef.platformDef.concerns.map (·.name)).Nodup
  topics : ∀ concern ∈ rtPlatDef.platformDef.concerns, (concern.topics.map (·.name)).Nodup
  targets : (rtPlatDef.platformDef.storageTargets.map (·.name)).Nodup
  clusters : ∀ name cluster, rtPlatDef.clusters.lookup name = some cluster → cluster ∈ rtPlatDef.platformDef.clusters

theorem accepted_definite {render : Render} {platDef : PlatformDef} {platformName environment : String} {rtPlatDef : RtPlatformDef}
    (h : newRtPlatformDef render platDef platformName environment = .ok rtPlatDef) : Definite rtPlatDef := by
  obtain ⟨valid, -, idx⟩ := newRtPlatformDef_ok h
  have wellFormed := accepted_wellFormed h
  constructor
  · intro concern hc topics ht
    rw [idx.platformDef] at hc
    have validConcern := valid.concerns concern hc
    obtain ⟨names, name⟩ := validConcern.names topics ht
    obtain ⟨start, hstart, rfl⟩ := List.mem_map.1 hc
    obtain ⟨init, some⟩ := Concern.completed_initialised valid.admin_named platDef.storageTargets topics ht
    obtain ⟨current, hcur⟩ := Option.isSome_iff_exists.1 some
    have mem : current ∈ topics.each := by simp [Topics.each, hcur]
    obtain ⟨cluster, hcluster⟩ := Option.isSome_iff_exists.1 ((validConcern.topics topics ht).defined current mem)
    refine ⟨current, cluster, hcur, (init current mem).generation, ?_, name, ?_⟩
    · rw [idx.platformDef]
      exact names
    · rw [idx.clusters]
      exact hcluster
  · intro concern hc apecs topics ht
    rw [idx.platformDef] at hc ⊢
    obtain ⟨start, -, rfl⟩ := List.mem_map.1 hc
    obtain ⟨topics, -, rfl⟩ := List.mem_map.1 ht
    have type : start.type = .apecs := apecs
    unfold initTopics
    dsimp only
    rw [if_pos type]
    rfl
  · exact wellFormed.concerns_distinct
  · intro concern hc
    rw [idx.platformDef] at hc
    exact (valid.concerns concern hc).distinct
  · exact wellFormed.storageTargets_distinct
  · intro name cluster found
    rw [idx.clusters] at found
    have mem := Entries.mem_of_lookup found
    obtain ⟨c, hc, same⟩ := List.mem_map.1 mem
    rw [idx.platformDef]
    obtain rfl : c = cluster := congrArg Prod.snd same
    exact hc

theorem buildFullTopicName_of {platformName environment concernName name : String} {type : ConcernType} {generation : Int}
    (names : ValidNames platformName environment concernName type) (valid : isValidName name = true) (positive : 0 < generation) :
    buildFullTopicName platformName environment concernName type name generation =
      .ok (fullTopicName platformName environment concernName type name generation) := by
  have pref : buildTopicNamePrefix platformName environment concernName type =
      .ok s!"rkcy.{platformName}.{environment}.{concernName}.{type.string}" := buildTopicNamePrefix_ok.2 ⟨names, rfl⟩
  have above : ¬generation ≤ 0 := by omega
  unfold buildFullTopicName
  rw [names.platform, names.environment, names.concern, names.type, valid, if_neg above, pref]
  simp only [Bool.not_true, Bool.false_eq_true, if_false]
  exact buildTopicName_ok.2 ⟨valid, positive, rfl⟩

section
variable {rtPlatDef : RtPlatformDef} {args : AdminArgs}

theorem Slot.In.expandable {slot : Slot} (h : slot.In rtPlatDef) (definite : Definite rtPlatDef) :
    Expandable rtPlatDef slot.concern slot.topics slot.current slot.cluster := by
  obtain ⟨current, cluster, expandable⟩ := definite.expandable slot.concern h.concern slot.topics h.topics
  obtain rfl : current = slot.current := Option.some.inj (expandable.present.symm.trans h.current)
  obtain rfl : cluster = slot.cluster := Option.some.inj (expandable.defined.symm.trans h.cluster)
  exact expandable

/-- The programs of different slots have different keys. -/
theorem Slot.key_inj (definite : Definite rtPlatDef) {slot slot' : Slot} (h : slot.In rtPlatDef) (h' : slot'.In rtPlatDef)
    (same : slot.key rtPlatDef args = slot'.key rtPlatDef args) : slot = slot' := by
  have expandable := h.expandable definite
  have expandable' := h'.expandable definite
  have blank : ∀ {slot : Slot}, slot.In rtPlatDef → Word (slot.fullTopic rtPlatDef) := by
    intro slot h
    have e := h.expandable definite
    exact not_mem_fullTopicName e.names e.name (by decide) (by decide) (by decide) (by decide)
  have tail : ∀ slot : Slot, slot.targetArgs ++ slot.commonArgs rtPlatDef args ≠ [] := by
    intro slot
    exact List.append_ne_nil_of_right_ne_nil _ (by simp [Slot.commonArgs])
  -- the words of the keys, one after the other
  have words : (" ".intercalate (slot.program rtPlatDef args).args).toList = (" ".intercalate (slot'.program rtPlatDef args).args).toList := by
    have chars := congrArg String.toList same
    unfold Slot.key progKey at chars
    dsimp only at chars
    rw [String.toList_append, String.toList_append (t := " ".intercalate (slot'.program rtPlatDef args).args)] at chars
    exact List.append_cancel_left chars
  unfold Slot.program at words
  dsimp only at words
  rw [intercalate_cons _ (by simp), intercalate_cons _ (by simp), intercalate_cons _ (by simp), intercalate_cons _ (by simp),
    intercalate_cons _ (tail slot), intercalate_cons slot'.topics.name (by simp), intercalate_cons "-t" (by simp),
    intercalate_cons (slot'.fullTopic rtPlatDef) (by simp), intercalate_cons "-p" (by simp), intercalate_cons (toString slot'.partition) (tail slot')] at words
  have tWord : Word "-t" := by decide
  have pWord : Word "-p" := by decide
  obtain ⟨-, words⟩ := cut_inj (word_of_isValidName expandable.name) (word_of_isValidName expandable'.name) words
  obtain ⟨-, words⟩ := cut_inj tWord tWord words
  obtain ⟨topic, words⟩ := cut_inj (blank h) (blank h') words
  obtain ⟨-, words⟩ := cut_inj pWord pWord words
  obtain ⟨number, words⟩ := cut_inj (word_toString _) (word_toString _) words
  obtain ⟨concern, name, -⟩ := fullTopicName_inj expandable.names expandable'.names expandable.name expandable'.name expandable.generation
    expandable'.generation (String.toList_inj.1 topic)
  have partition := toString_inj (String.toList_inj.1 number)
  obtain ⟨concern1, topics1, current1, cluster1, target1, partition1⟩ := slot
  obtain ⟨concern2, topics2, current2, cluster2, target2, partition2⟩ := slot'
  obtain rfl : concern1 = concern2 := List.inj_on_of_nodup_map definite.concerns h.concern h'.concern concern
  obtain rfl : topics1 = topics2 := List.inj_on_of_nodup_map (definite.topics concern1 h.concern) h.topics h'.topics name
  obtain rfl : current1 = current2 := Option.some.inj (h.current.symm.trans h'.current)
  obtain rfl : cluster1 = cluster2 := Option.some.inj (h.cluster.symm.trans h'.cluster)
  obtain rfl : partition1 = partition2 := partition
  -- the target is what is left
  obtain ⟨process, none1⟩ | ⟨storage, t1, mem1, some1, -⟩ := mem_slotTargets h.target
  · obtain ⟨-, none2⟩ | ⟨storage2, -⟩ := mem_slotTargets h'.target
    · rw [show target1 = none from none1, show target2 = none from none2]
    · rw [show topics1.name = "process" from process] at storage2
      exact absurd storage2 (by decide)
  · obtain ⟨process2, -⟩ | ⟨-, t2, mem2, some2, -⟩ := mem_slotTargets h'.target
    · rw [show topics1.name = "process" from process2] at storage
      exact absurd storage (by decide)
    · obtain rfl : target1 = some t1 := some1
      obtain rfl : target2 = some t2 := some2
      have optionWord : Word "--storage_target" := by decide
      have common : (Slot.mk concern1 topics1 current1 cluster1 (some t1) partition1).commonArgs rtPlatDef args ≠ [] := by simp [Slot.commonArgs]
      have words : (" ".intercalate ("--storage_target" :: t1.name :: Slot.commonArgs rtPlatDef args ⟨concern1, topics1, current1, cluster1, some t1, partition1⟩)).toList =
          (" ".intercalate ("--storage_target" :: t2.name :: Slot.commonArgs rtPlatDef args ⟨concern1, topics1, current1, cluster1, some t1, partition1⟩)).toList := words
      rw [intercalate_cons _ (by simp), intercalate_cons t1.name common, intercalate_cons "--storage_target" (by simp), intercalate_cons t2.name common] at words
      obtain ⟨-, words⟩ := cut_inj optionWord optionWord words
      have names := String.toList_inj.1 (List.append_cancel_right words)
      rw [List.inj_on_of_nodup_map definite.targets mem1 mem2 names]

end

end Rocketcycle.Definition
