import Rocketcycle.Rkcy.PlatformDef
import Rocketcycle.Lib.Entries
import Mathlib.Data.List.Forall2

/-!
# Which definitions are accepted

The checks that a definition passes, said of the definition and of its completed form without the
loops that make them, and the result that is made of an accepted one.
-/

namespace Rocketcycle.Definition
open Early

/-! ## Topics -/

section
variable {admin : Cluster} {clusters : List (String × Cluster)} {topics : Topics} {t : Topic}

/-- What `initTopic` establishes. -/
structure Topic.Initialised (t : Topic) : Prop where
  generation : 1 ≤ t.generation
  cluster : t.cluster ≠ ""
  atLeast : 1 ≤ t.partitionCount
  atMost : t.partitionCount ≤ maxPartition

/-- The current topic and the future one. -/
def Topics.each (topics : Topics) : List Topic := topics.current.toList ++ topics.future.toList

/-- The checks of `validateTopics`, the one of the generations apart. -/
structure ValidTopics (clusters : List (String × Cluster)) (topics : Topics) : Prop where
  name : topics.name ≠ ""
  single : isACETopic topics.name = true → ∀ t ∈ topics.each, t.partitionCount = 1
  defined : ∀ t ∈ topics.each, (clusters.lookup t.cluster).isSome = true
  programs : ∀ p, some p ∈ topics.consumerPrograms → p.name ≠ "" ∧ p.abbreviation ≠ ""

/-- The check of the generations. -/
def Topics.GenerationsChecked (topics : Topics) : Prop :=
  ∀ current ∈ topics.current, ∀ future ∈ topics.future, current.generation = addInt32 future.generation 1

theorem initTopic_initialised (named : admin.name ≠ "") (topic : Option Topic) : (initTopic topic admin).Initialised := by
  generalize ht : topic.getD {} = t
  unfold initTopic maxPartition
  rw [ht]
  dsimp only
  constructor
  · show 1 ≤ if t.generation ≤ 0 then (1 : Int) else t.generation
    split <;> omega
  · show (if t.cluster = "" then admin.name else t.cluster) ≠ ""
    split <;> assumption
  · show 1 ≤ if t.partitionCount ≤ 0 then (1 : Int) else if ((1024 : Nat) : Int) < t.partitionCount then _ else _
    split
    · omega
    · split <;> omega
  · show (if t.partitionCount ≤ 0 then (1 : Int) else if ((1024 : Nat) : Int) < t.partitionCount then _ else _) ≤ ((1024 : Nat) : Int)
    split
    · decide
    · split <;> omega

/-- Both topics are initialised, and there is a current one. -/
theorem initTopics_initialised (named : admin.name ≠ "") (type : ConcernType) (targets : List StorageTarget) :
    ∀ t ∈ (initTopics topics admin type targets).each, t.Initialised := by
  intro t ht
  simp only [Topics.each, initTopics, Option.toList_some, List.singleton_append, List.mem_cons, Option.mem_toList,
    Option.map_eq_some_iff] at ht
  rcases ht with rfl | ⟨future, -, rfl⟩
  · exact initTopic_initialised named _
  · exact initTopic_initialised named _

theorem validateTopic_ok (init : t.Initialised) :
    validateTopic t clusters = .ok () ↔ (clusters.lookup t.cluster).isSome = true := by
  have generation := init.generation
  have atLeast := init.atLeast
  have atMost := init.atMost
  unfold validateTopic
  simp only [ite_error_eq_ok, and_true, Bool.not_eq_true, Option.isNone_eq_false_iff]
  constructor
  · rintro ⟨-, -, defined, -⟩
    exact defined
  · intro defined
    exact ⟨by omega, init.cluster, defined, by omega⟩

theorem validatePrograms_ok {idx : Nat} {progs : List (Option Program)} :
    validatePrograms idx progs = .ok () ↔ ∀ p, some p ∈ progs → p.name ≠ "" ∧ p.abbreviation ≠ "" := by
  induction progs generalizing idx with
  | nil => simp [validatePrograms]
  | cons p rest ih =>
    cases p with
    | none => simp [validatePrograms, ih]
    | some p =>
      unfold validatePrograms
      rw [ite_error_eq_ok, ite_error_eq_ok, ih]
      simp only [List.mem_cons, Option.some.injEq, forall_eq_or_imp, and_assoc, ne_eq]

theorem validateFuture_ok {current : Topic} {future : Option Topic} (init : ∀ t ∈ future, t.Initialised) :
    validateFuture current clusters future = .ok () ↔
      (∀ t ∈ future, (clusters.lookup t.cluster).isSome = true) ∧
        ∀ t ∈ future, current.generation = addInt32 t.generation 1 := by
  cases future with
  | none => simp [validateFuture]
  | some t =>
    unfold validateFuture
    rw [bind_eq_ok]
    simp only [ite_error_eq_ok, validateTopic_ok (init t rfl), Option.mem_def, Option.some.injEq, forall_eq', ne_eq,
      not_not, and_true]
    constructor
    · rintro ⟨-, h⟩
      exact h
    · intro h
      exact ⟨(), h⟩

theorem validateTopics_ok (init : ∀ t ∈ topics.each, t.Initialised) (exists' : topics.current.isSome = true) :
    validateTopics topics clusters = .ok () ↔ ValidTopics clusters topics ∧ topics.GenerationsChecked := by
  obtain ⟨name, current, future, progs⟩ := topics
  obtain ⟨current, rfl⟩ := Option.isSome_iff_exists.1 exists'
  have initCurrent : current.Initialised := init current (by simp [Topics.each])
  have initFuture : ∀ t ∈ future, t.Initialised := fun t ht =>
    init t (List.mem_append.2 (.inr (Option.mem_toList.2 ht)))
  have single : singlePartitionTopics name = isACETopic name := rfl
  unfold validateTopics
  simp only [ite_error_eq_ok, bind_eq_ok, validateTopic_ok initCurrent, validateFuture_ok initFuture,
    validatePrograms_ok, single]
  constructor
  · rintro ⟨hname, hcur, hfut, -, hdef, -, ⟨hfdef, hgen⟩, hprogs⟩
    refine ⟨⟨hname, ?_, ?_, hprogs⟩, ?_⟩
    · intro ace t ht
      simp only [Topics.each, Option.toList_some, List.singleton_append, List.mem_cons, Option.mem_toList] at ht
      simp only [ace, true_and, Option.any_some, bne_iff_ne, ne_eq, not_not, Option.any_eq_true] at hcur hfut
      rcases ht with rfl | ht
      · exact hcur
      · by_contra hne
        exact hfut ⟨t, ht, hne⟩
    · intro t ht
      simp only [Topics.each, Option.toList_some, List.singleton_append, List.mem_cons, Option.mem_toList] at ht
      rcases ht with rfl | ht
      · exact hdef
      · exact hfdef t ht
    · intro c hc f hf
      cases hc
      exact hgen f hf
  · rintro ⟨⟨hname, hsingle, hdef, hprogs⟩, hgen⟩
    have mem : current ∈ (Topics.mk name (some current) future progs).each := by simp [Topics.each]
    have memFuture : ∀ t ∈ future, t ∈ (Topics.mk name (some current) future progs).each := fun t ht =>
      List.mem_append.2 (.inr (Option.mem_toList.2 ht))
    refine ⟨hname, ?_, ?_, (), hdef current mem, (), ⟨fun t ht => hdef t (memFuture t ht), hgen current rfl⟩, hprogs⟩
    · rintro ⟨ace, h⟩
      simp [hsingle ace current mem] at h
    · rintro ⟨ace, h⟩
      obtain ⟨t, ht, hne⟩ := (Option.any_eq_true _ _).1 h
      simp [hsingle ace t (memFuture t ht)] at hne

end

/-! ## Run time topics -/

/-- The run time form of topics of a concern, on the clusters of a platform. -/
structure RunsTopics (platform environment : String) (clusters : List (String × Cluster)) (concern : Concern)
    (topics : Topics) (rtTops : RtTopics) : Prop where
  names : ValidNames platform environment concern.name concern.type
  name : isValidName topics.name = true
  same : rtTops.topics = topics
  current : ∃ t ∈ topics.current, 0 < t.generation ∧
    rtTops.currentTopic = fullTopicName platform environment concern.name concern.type topics.name t.generation ∧
    rtTops.currentTopicPartitionCount = maxi32 1 t.partitionCount ∧
    clusters.lookup t.cluster = some rtTops.currentCluster
  single : isACETopic topics.name = true → rtTops.currentTopicPartitionCount = 1
  future : ∀ t ∈ topics.future, 0 < t.generation ∧
    rtTops.futureTopic = fullTopicName platform environment concern.name concern.type topics.name t.generation ∧
    rtTops.futureTopicPartitionCount = maxi32 1 t.partitionCount ∧
    ∃ c, rtTops.futureCluster = some c ∧ clusters.lookup t.cluster = some c

section
variable {rtPlatDef : RtPlatformDef} {rtConc rtConc' : RtConcern} {topics : Topics} {rtTops : RtTopics}

theorem withFuture_ok {pref : String} {start : RtTopics} (same : start.topics = topics)
    (h : withFuture rtPlatDef rtConc pref start = .ok rtTops) :
    (rtTops.topics = topics ∧ rtTops.currentTopic = start.currentTopic ∧
      rtTops.currentTopicPartitionCount = start.currentTopicPartitionCount ∧
      rtTops.currentCluster = start.currentCluster) ∧
    ∀ t ∈ topics.future, 0 < t.generation ∧ rtTops.futureTopic = s!"{pref}.{topics.name}.{fourDigits t.generation.toNat}" ∧
      rtTops.futureTopicPartitionCount = maxi32 1 t.partitionCount ∧
      ∃ c, rtTops.futureCluster = some c ∧ rtPlatDef.clusters.lookup t.cluster = some c := by
  subst same
  unfold withFuture at h
  cases hf : start.topics.future with
  | none =>
    rw [hf] at h
    cases h
    exact ⟨⟨rfl, rfl, rfl, rfl⟩, by simp⟩
  | some t =>
    rw [hf] at h
    obtain ⟨futureTopic, built, h⟩ := bind_eq_ok.1 h
    obtain ⟨-, pos, rfl⟩ := buildTopicName_ok.1 built
    cases hc : rtPlatDef.clusters.lookup t.cluster with
    | none =>
      rw [hc] at h
      cases h
    | some c =>
      rw [hc] at h
      cases h
      refine ⟨⟨rfl, rfl, rfl, rfl⟩, ?_⟩
      intro t' ht
      cases ht
      exact ⟨pos, rfl, rfl, c, rfl, hc⟩

theorem withFuture_of {pref : String} {start : RtTopics} (valid : isValidName start.topics.name = true)
    (pos : ∀ t ∈ start.topics.future, 0 < t.generation)
    (defined : ∀ t ∈ start.topics.future, (rtPlatDef.clusters.lookup t.cluster).isSome = true) :
    ∃ r, withFuture rtPlatDef rtConc pref start = .ok r := by
  unfold withFuture
  cases hf : start.topics.future with
  | none => exact ⟨start, rfl⟩
  | some t =>
    obtain ⟨c, hc⟩ := Option.isSome_iff_exists.1 (defined t hf)
    have built : buildTopicName pref start.topics.name t.generation = .ok _ :=
      buildTopicName_ok.2 ⟨valid, pos t hf, rfl⟩
    simp only [built, bind, Except.bind, hc]
    exact ⟨_, rfl⟩

theorem newRtTopics_ok (h : newRtTopics rtPlatDef rtConc topics = .ok rtTops) :
    RunsTopics rtPlatDef.platformDef.name rtPlatDef.platformDef.environment rtPlatDef.clusters rtConc.concern topics
      rtTops := by
  unfold newRtTopics at h
  obtain ⟨pref, hpref, h⟩ := bind_eq_ok.1 h
  obtain ⟨names, rfl⟩ := buildTopicNamePrefix_ok.1 hpref
  cases hcur : topics.current with
  | none =>
    rw [hcur] at h
    cases h
  | some current =>
    rw [hcur] at h
    obtain ⟨currentTopic, built, h⟩ := bind_eq_ok.1 h
    obtain ⟨valid, pos, rfl⟩ := buildTopicName_ok.1 built
    cases hc : rtPlatDef.clusters.lookup current.cluster with
    | none =>
      rw [hc] at h
      cases h
    | some cluster =>
      rw [hc] at h
      obtain ⟨r, hr, h⟩ := bind_eq_ok.1 h
      obtain ⟨ace, heq⟩ := ite_error_eq_ok.1 h
      cases heq
      obtain ⟨⟨htopics, hname, hcount, hcluster⟩, hfuture⟩ := withFuture_ok rfl hr
      refine ⟨names, valid, htopics, ⟨current, hcur, pos, hname, hcount, ?_⟩, ?_, ?_⟩
      · rw [hcluster]
        exact hc
      · intro isAce
        by_contra hne
        exact ace ⟨htopics ▸ isAce, hne⟩
      · exact hfuture

theorem newRtTopics_of (names : ValidNames rtPlatDef.platformDef.name rtPlatDef.platformDef.environment
      rtConc.concern.name rtConc.concern.type) (valid : isValidName topics.name = true)
    (init : ∀ t ∈ topics.each, t.Initialised) (exists' : topics.current.isSome = true)
    (valid' : ValidTopics rtPlatDef.clusters topics) : ∃ r, newRtTopics rtPlatDef rtConc topics = .ok r := by
  obtain ⟨current, hcur⟩ := Option.isSome_iff_exists.1 exists'
  have mem : current ∈ topics.each := by simp [Topics.each, hcur]
  have memFuture : ∀ t ∈ topics.future, t ∈ topics.each := fun t ht =>
    List.mem_append.2 (.inr (Option.mem_toList.2 ht))
  have pos : ∀ t ∈ topics.each, 0 < t.generation := by
    intro t ht
    have := (init t ht).generation
    omega
  obtain ⟨c, hc⟩ := Option.isSome_iff_exists.1 (valid'.defined current mem)
  have started (pref currentTopic : String) : ∃ r, withFuture rtPlatDef rtConc pref
      ⟨topics, currentTopic, maxi32 1 current.partitionCount, c, "", 0, none⟩ = .ok r :=
    withFuture_of valid (fun t ht => pos t (memFuture t ht)) fun t ht => valid'.defined t (memFuture t ht)
  obtain ⟨r, hr⟩ := started _ _
  obtain ⟨⟨htopics, -, hcount, -⟩, -⟩ := withFuture_ok rfl hr
  refine ⟨r, bind_eq_ok.2 ⟨_, buildTopicNamePrefix_ok.2 ⟨names, rfl⟩, ?_⟩⟩
  rw [hcur]
  refine bind_eq_ok.2 ⟨_, buildTopicName_ok.2 ⟨valid, pos current mem, rfl⟩, ?_⟩
  rw [hc]
  refine bind_eq_ok.2 ⟨r, hr, ite_error_eq_ok.2 ⟨?_, rfl⟩⟩
  rintro ⟨ace, hne⟩
  rw [htopics] at ace
  rw [hcount, valid'.single ace current mem] at hne
  exact hne rfl

end

/-! ## Concerns -/

/-- The run time form of a concern: one entry for each of its topics. -/
structure RunsConcern (platform environment : String) (clusters : List (String × Cluster)) (concern : Concern)
    (rtConc : RtConcern) : Prop where
  same : rtConc.concern = concern
  distinct : (concern.topics.map (·.name)).Nodup
  topics : List.Forall₂ (fun topics e => e.1 = topics.name ∧
    RunsTopics platform environment clusters concern topics e.2) concern.topics rtConc.topics

/-- The concern with the missing topics, all of them initialised. -/
def Concern.completed (admin : Cluster) (targets : List StorageTarget) (concern : Concern) : Concern :=
  { concern with topics := (addRequired concern).map fun topics => initTopics topics admin concern.type targets }

/-- The checks on a concern that has been completed. -/
structure ValidConcern (platform environment : String) (clusters : List (String × Cluster)) (concern : Concern) :
    Prop where
  name : concern.name ≠ ""
  apecs : concern.type = .apecs → (requiredTopics concern.type).length = concern.topics.length
  topics : ∀ topics ∈ concern.topics, ValidTopics clusters topics
  distinct : (concern.topics.map (·.name)).Nodup
  names : ∀ topics ∈ concern.topics,
    ValidNames platform environment concern.name concern.type ∧ isValidName topics.name = true

section
variable {rtPlatDef rtPlatDef' : RtPlatformDef} {rtConc rtConc' : RtConcern} {concern : Concern} {admin : Cluster}

theorem addTopics_ok {ts : List Topics} (h : addTopics rtPlatDef rtConc ts = .ok rtConc') :
    rtConc'.concern = rtConc.concern ∧ (ts.map (·.name)).Nodup ∧
      (∀ t ∈ ts, t.name ∉ rtConc.topics.map Prod.fst) ∧
      ∃ es, rtConc'.topics = rtConc.topics ++ es ∧ List.Forall₂ (fun t e => e.1 = t.name ∧
        RunsTopics rtPlatDef.platformDef.name rtPlatDef.platformDef.environment rtPlatDef.clusters rtConc.concern t e.2)
        ts es := by
  induction ts generalizing rtConc with
  | nil =>
    cases h
    exact ⟨rfl, by simp, by simp, [], by simp, .nil⟩
  | cons t ts ih =>
    obtain ⟨fresh, h⟩ := ite_error_eq_ok.1 h
    obtain ⟨r, hr, h⟩ := bind_eq_ok.1 h
    obtain ⟨same, distinct, apart, es, hes, all⟩ := ih h
    rw [Entries.lookup_isSome] at fresh
    refine ⟨same, ?_, ?_, (t.name, r) :: es, ?_, .cons ⟨rfl, newRtTopics_ok hr⟩ all⟩
    · rw [List.map_cons, List.nodup_cons]
      refine ⟨?_, distinct⟩
      intro hm
      obtain ⟨t', ht', hname⟩ := List.mem_map.1 hm
      exact apart t' ht' (by simp [hname])
    · intro t' ht' hm
      rcases List.mem_cons.1 ht' with rfl | ht'
      · exact fresh hm
      · exact apart t' ht' (by simp [List.mem_map.1 hm])
    · rw [hes, List.append_assoc]
      rfl

theorem addTopics_of {ts : List Topics} (distinct : (ts.map (·.name)).Nodup)
    (apart : ∀ t ∈ ts, t.name ∉ rtConc.topics.map Prod.fst)
    (make : ∀ t ∈ ts, ∀ rc : RtConcern, rc.concern = rtConc.concern → ∃ r, newRtTopics rtPlatDef rc t = .ok r) :
    ∃ rc, addTopics rtPlatDef rtConc ts = .ok rc := by
  induction ts generalizing rtConc with
  | nil => exact ⟨rtConc, rfl⟩
  | cons t ts ih =>
    rw [List.map_cons, List.nodup_cons] at distinct
    obtain ⟨r, hr⟩ := make t List.mem_cons_self rtConc rfl
    have apart' : ∀ t' ∈ ts, t'.name ∉ (rtConc.topics ++ [(t.name, r)]).map Prod.fst := by
      intro t' ht' hm
      rw [List.map_append, List.mem_append] at hm
      rcases hm with hm | hm
      · exact apart t' (List.mem_cons_of_mem _ ht') hm
      · exact distinct.1 (List.mem_map.2 ⟨t', ht', by simpa using hm⟩)
    have rest : ∃ rc, addTopics rtPlatDef { rtConc with topics := rtConc.topics ++ [(t.name, r)] } ts = .ok rc :=
      ih distinct.2 apart' fun t' ht' => make t' (List.mem_cons_of_mem _ ht')
    obtain ⟨rc, hrc⟩ := rest
    refine ⟨rc, ite_error_eq_ok.2 ⟨?_, bind_eq_ok.2 ⟨r, hr, hrc⟩⟩⟩
    rw [Entries.lookup_isSome]
    exact apart t List.mem_cons_self

theorem newRtConcern_ok (h : newRtConcern rtPlatDef concern = .ok rtConc) :
    RunsConcern rtPlatDef.platformDef.name rtPlatDef.platformDef.environment rtPlatDef.clusters concern rtConc := by
  obtain ⟨same, distinct, -, es, hes, all⟩ := addTopics_ok h
  rw [List.nil_append] at hes
  exact ⟨same, distinct, hes ▸ all⟩

/-- The topics of a completed concern are initialised, and all of them have a current one. -/
theorem Concern.completed_initialised (named : admin.name ≠ "") (targets : List StorageTarget) :
    ∀ topics ∈ (concern.completed admin targets).topics,
      (∀ t ∈ topics.each, t.Initialised) ∧ topics.current.isSome = true := by
  intro topics hm
  obtain ⟨topics, -, rfl⟩ := List.mem_map.1 hm
  exact ⟨initTopics_initialised named _ _, rfl⟩

theorem prepareTopics_ok (named : admin.name ≠ "") (topics topics' : Topics) :
    prepareTopics admin rtPlatDef concern topics = .ok topics' ↔
      (ValidTopics rtPlatDef.clusters (initTopics topics admin concern.type rtPlatDef.platformDef.storageTargets) ∧
        (initTopics topics admin concern.type rtPlatDef.platformDef.storageTargets).GenerationsChecked) ∧
        topics' = initTopics topics admin concern.type rtPlatDef.platformDef.storageTargets := by
  rw [← validateTopics_ok (initTopics_initialised named _ _) rfl]
  unfold prepareTopics
  dsimp only
  cases validateTopics (initTopics topics admin concern.type rtPlatDef.platformDef.storageTargets) rtPlatDef.clusters with
  | error err => simp [errorf]
  | ok u => simp [eq_comm]

/-- The concern takes its place in the definition and in the map. -/
structure Entered (rtPlatDef : RtPlatformDef) (concerns : List Concern) (entries : List (String × RtConcern))
    (rtPlatDef' : RtPlatformDef) : Prop where
  platformDef : rtPlatDef'.platformDef =
    { rtPlatDef.platformDef with concerns := rtPlatDef.platformDef.concerns ++ concerns }
  concerns : rtPlatDef'.concerns = rtPlatDef.concerns ++ entries
  clusters : rtPlatDef'.clusters = rtPlatDef.clusters
  adminCluster : rtPlatDef'.adminCluster = rtPlatDef.adminCluster
  storageTargets : rtPlatDef'.storageTargets = rtPlatDef.storageTargets
  primaryStorageTarget : rtPlatDef'.primaryStorageTarget = rtPlatDef.primaryStorageTarget

theorem addConcern_ok {render : Render} {idx : Nat} (named : admin.name ≠ "")
    (h : addConcern render admin rtPlatDef idx concern = .ok rtPlatDef') :
    ∃ c rc, c = concern.completed admin rtPlatDef.platformDef.storageTargets ∧
      ValidConcern rtPlatDef.platformDef.name rtPlatDef.platformDef.environment rtPlatDef.clusters c ∧
      (∀ topics ∈ c.topics, topics.GenerationsChecked) ∧ c.name ∉ rtPlatDef.concerns.map Prod.fst ∧
      RunsConcern rtPlatDef.platformDef.name rtPlatDef.platformDef.environment rtPlatDef.clusters c rc ∧
      Entered rtPlatDef [c] [(c.name, rc)] rtPlatDef' := by
  unfold addConcern errorf at h
  rw [ite_error_eq_ok, ite_error_eq_ok, bind_eq_ok] at h
  obtain ⟨hname, hlen, topics, hprep, h⟩ := h
  obtain ⟨valid, rfl⟩ := (mapM_eq_ok (prepareTopics_ok named)).1 hprep
  rw [ite_error_eq_ok, bind_eq_ok] at h
  obtain ⟨fresh, rc, hrc, h⟩ := h
  cases h
  have runs := newRtConcern_ok hrc
  refine ⟨_, rc, rfl, ⟨hname, ?_, ?_, runs.distinct, ?_⟩, ?_, ?_, runs, ⟨rfl, rfl, rfl, rfl, rfl, rfl⟩⟩
  · intro apecs
    rw [Concern.completed, List.length_map]
    by_contra hne
    exact hlen ⟨apecs, hne⟩
  · intro topics hm
    obtain ⟨start, hstart, rfl⟩ := List.mem_map.1 hm
    exact (valid start hstart).1
  · intro topics hm
    obtain ⟨e, -, -, he⟩ := Entries.forall₂_left runs.topics hm
    exact ⟨he.names, he.name⟩
  · intro topics hm
    obtain ⟨start, hstart, rfl⟩ := List.mem_map.1 hm
    exact (valid start hstart).2
  · rw [Entries.lookup_isSome] at fresh
    exact fresh

/-- A concern that passes its checks under a new name is entered. -/
theorem addConcern_of {render : Render} {idx : Nat} (named : admin.name ≠ "")
    (valid : ValidConcern rtPlatDef.platformDef.name rtPlatDef.platformDef.environment rtPlatDef.clusters
      (concern.completed admin rtPlatDef.platformDef.storageTargets))
    (checked : ∀ topics ∈ (concern.completed admin rtPlatDef.platformDef.storageTargets).topics,
      topics.GenerationsChecked)
    (fresh : concern.name ∉ rtPlatDef.concerns.map Prod.fst) :
    ∃ rt, addConcern render admin rtPlatDef idx concern = .ok rt := by
  have init : ∀ topics ∈ (concern.completed admin rtPlatDef.platformDef.storageTargets).topics,
      (∀ t ∈ topics.each, t.Initialised) ∧ topics.current.isSome = true :=
    Concern.completed_initialised named _
  have made : ∃ rc, newRtConcern rtPlatDef (concern.completed admin rtPlatDef.platformDef.storageTargets) = .ok rc := by
    apply addTopics_of valid.distinct (by simp)
    intro topics hm rc hrc
    have names := (valid.names topics hm).1
    have hrc : rc.concern = concern.completed admin rtPlatDef.platformDef.storageTargets := hrc
    rw [← hrc] at names
    exact newRtTopics_of names (valid.names topics hm).2 (init topics hm).1 (init topics hm).2 (valid.topics topics hm)
  obtain ⟨rc, hrc⟩ := made
  have prepared : (addRequired concern).mapM (prepareTopics admin rtPlatDef concern) =
      .ok (concern.completed admin rtPlatDef.platformDef.storageTargets).topics := by
    refine (mapM_eq_ok (prepareTopics_ok named)).2 ⟨?_, rfl⟩
    intro topics hm
    exact ⟨valid.topics _ (List.mem_map_of_mem hm), checked _ (List.mem_map_of_mem hm)⟩
  refine ⟨_, ite_error_eq_ok.2 ⟨valid.name, ite_error_eq_ok.2 ⟨?_, bind_eq_ok.2 ⟨_, prepared,
    ite_error_eq_ok.2 ⟨?_, bind_eq_ok.2 ⟨rc, hrc, rfl⟩⟩⟩⟩⟩⟩
  · rintro ⟨apecs, hne⟩
    have := valid.apecs apecs
    rw [Concern.completed, List.length_map] at this
    exact hne this
  · rw [Entries.lookup_isSome]
    exact fresh

theorem addConcerns_ok {render : Render} {idx : Nat} (named : admin.name ≠ "") {cs : List Concern}
    (h : addConcerns render admin rtPlatDef idx cs = .ok rtPlatDef') :
    let completed := cs.map fun c => c.completed admin rtPlatDef.platformDef.storageTargets
    (∀ c ∈ completed, ValidConcern rtPlatDef.platformDef.name rtPlatDef.platformDef.environment rtPlatDef.clusters c ∧
      (∀ topics ∈ c.topics, topics.GenerationsChecked) ∧ c.name ∉ rtPlatDef.concerns.map Prod.fst) ∧
    (completed.map (·.name)).Nodup ∧
    ∃ es, List.Forall₂ (fun c e => e.1 = c.name ∧ RunsConcern rtPlatDef.platformDef.name
      rtPlatDef.platformDef.environment rtPlatDef.clusters c e.2) completed es ∧
      Entered rtPlatDef completed es rtPlatDef' := by
  induction cs generalizing rtPlatDef idx with
  | nil =>
    cases h
    exact ⟨by simp, by simp, [], .nil, ⟨by simp, by simp, rfl, rfl, rfl, rfl⟩⟩
  | cons c cs ih =>
    obtain ⟨rt, hrt, h⟩ := bind_eq_ok.1 h
    obtain ⟨_, rc, rfl, valid, checked, fresh, runs, entered⟩ := addConcern_ok named hrt
    obtain ⟨all, distinct, es, hes, rest⟩ := ih h
    simp only [entered.platformDef, entered.clusters, entered.concerns] at all distinct hes
    dsimp only
    rw [List.map_cons]
    refine ⟨?_, ?_, (c.name, rc) :: es, .cons ⟨rfl, runs⟩ hes, ?_⟩
    · intro c' hc'
      rcases List.mem_cons.1 hc' with rfl | hc'
      · exact ⟨valid, checked, fresh⟩
      · obtain ⟨valid', checked', fresh'⟩ := all c' hc'
        exact ⟨valid', checked', fun hm => fresh' (by simp [List.mem_map.1 hm])⟩
    · rw [List.map_cons, List.nodup_cons]
      refine ⟨?_, distinct⟩
      intro hm
      obtain ⟨c', hc', hname⟩ := List.mem_map.1 hm
      exact (all c' hc').2.2 (by simp [hname])
    · constructor
      · rw [rest.platformDef, entered.platformDef]
        simp
      · rw [rest.concerns, entered.concerns, List.append_assoc]
        rfl
      · rw [rest.clusters, entered.clusters]
      · rw [rest.adminCluster, entered.adminCluster]
      · rw [rest.storageTargets, entered.storageTargets]
      · rw [rest.primaryStorageTarget, entered.primaryStorageTarget]

theorem addConcerns_of {render : Render} {idx : Nat} (named : admin.name ≠ "") {cs : List Concern}
    (valid : ∀ c ∈ cs, ValidConcern rtPlatDef.platformDef.name rtPlatDef.platformDef.environment rtPlatDef.clusters
      (c.completed admin rtPlatDef.platformDef.storageTargets) ∧
      (∀ topics ∈ (c.completed admin rtPlatDef.platformDef.storageTargets).topics, topics.GenerationsChecked) ∧
      c.name ∉ rtPlatDef.concerns.map Prod.fst)
    (distinct : (cs.map (·.name)).Nodup) : ∃ rt, addConcerns render admin rtPlatDef idx cs = .ok rt := by
  induction cs generalizing rtPlatDef idx with
  | nil => exact ⟨rtPlatDef, rfl⟩
  | cons c cs ih =>
    rw [List.map_cons, List.nodup_cons] at distinct
    obtain ⟨valid', checked, fresh⟩ := valid c List.mem_cons_self
    have first : ∃ rt, addConcern render admin rtPlatDef idx c = .ok rt := addConcern_of named valid' checked fresh
    obtain ⟨rt, hrt⟩ := first
    obtain ⟨_, rc, rfl, -, -, -, -, entered⟩ := addConcern_ok named hrt
    have rest : ∃ rt', addConcerns render admin rt (idx + 1) cs = .ok rt' := by
      refine ih ?_ distinct.2
      intro c' hc'
      obtain ⟨valid', checked', fresh'⟩ := valid c' (List.mem_cons_of_mem _ hc')
      simp only [entered.platformDef, entered.clusters, entered.concerns]
      refine ⟨valid', checked', ?_⟩
      rw [List.map_append, List.mem_append]
      rintro (hm | hm)
      · exact fresh' hm
      · rw [List.map_cons, List.map_nil, List.mem_singleton] at hm
        exact distinct.1 (List.mem_map.2 ⟨c', hc', hm⟩)
    obtain ⟨rt', hrt'⟩ := rest
    exact ⟨rt', bind_eq_ok.2 ⟨rt, hrt, hrt'⟩⟩

end

/-! ## Clusters and storage targets -/

section
variable {ε μ : Type} [DecidableEq μ] (k : Kind ε μ)

/-- The entries of one kind in a valid definition: exactly one of them is marked. -/
structure Kind.Valid (es : List ε) : Prop where
  named : ∀ e ∈ es, k.name e ≠ "" ∧ k.field e ≠ ""
  distinct : (es.map k.name).Nodup
  marked : ∃ e, es.filter k.isMarked = [e]

/-- The marked entry, after those that are left. -/
def Kind.Marks (marked : μ) (es : List ε) (marked' : μ) : Prop :=
  match es with
  | [] => marked' = marked
  | [e] => marked = k.unset ∧ marked' = k.mark e
  | _ => False

variable {k} {platform : String} {idx : Nat} {marked marked' : μ} {entries entries' : List (String × ε)} {es : List ε}

omit [DecidableEq μ] in
theorem Kind.marks_cons {e : ε} (set : k.mark e ≠ k.unset) :
    k.Marks marked (e :: es) marked' ↔ marked = k.unset ∧ k.Marks (k.mark e) es marked' := by
  cases es with
  | nil => rfl
  | cons e' es =>
    constructor
    · intro h
      exact absurd h id
    · rintro ⟨-, h⟩
      cases es with
      | nil => exact absurd h.1 set
      | cons => exact absurd h id

theorem enterAll_ok (set : ∀ e, k.name e ≠ "" → k.mark e ≠ k.unset) :
    enterAll k platform idx marked entries es = .ok (marked', entries') ↔
      (∀ e ∈ es, (k.name e ≠ "" ∧ k.field e ≠ "") ∧ k.name e ∉ entries.map Prod.fst) ∧ (es.map k.name).Nodup ∧
        k.Marks marked (es.filter k.isMarked) marked' ∧ entries' = entries ++ es.map fun e => (k.name e, e) := by
  induction es generalizing idx marked entries with
  | nil =>
    constructor
    · intro h
      cases h
      exact ⟨by simp, by simp, rfl, by simp⟩
    · rintro ⟨-, -, marks, rfl⟩
      have same : marked' = marked := marks
      rw [same, List.map_nil, List.append_nil]
      rfl
  | cons e es ih =>
    unfold enterAll errorf
    simp only [ite_error_eq_ok, ih, Entries.lookup_isSome]
    have apart (e' : ε) : k.name e' ∉ (entries ++ [(k.name e, e)]).map Prod.fst ↔
        k.name e' ∉ entries.map Prod.fst ∧ k.name e' ≠ k.name e := by
      simp [not_or]
    have marks (named : k.name e ≠ "") : k.Marks marked ((e :: es).filter k.isMarked) marked' ↔
        ¬(k.isMarked e = true ∧ marked ≠ k.unset) ∧
          k.Marks (if k.isMarked e = true then k.mark e else marked) (es.filter k.isMarked) marked' := by
      rw [List.filter_cons]
      split
      · rename_i hm
        rw [Kind.marks_cons (set e named), hm]
        simp
      · rename_i hm
        simp [hm]
    rw [List.forall_mem_cons, List.map_cons, List.nodup_cons, List.map_cons]
    constructor
    · rintro ⟨named, field, hmark, fresh, all, distinct, rest, rfl⟩
      refine ⟨⟨⟨⟨named, field⟩, fresh⟩, fun e' he' => ⟨(all e' he').1, ((apart e').1 (all e' he').2).1⟩⟩,
        ⟨?_, distinct⟩, (marks named).2 ⟨hmark, rest⟩, by simp⟩
      intro hm
      obtain ⟨e', he', hname⟩ := List.mem_map.1 hm
      exact ((apart e').1 (all e' he').2).2 hname
    · rintro ⟨⟨⟨⟨named, field⟩, fresh⟩, all⟩, ⟨hne, distinct⟩, rest, rfl⟩
      obtain ⟨hmark, rest⟩ := (marks named).1 rest
      refine ⟨named, field, hmark, fresh, fun e' he' => ⟨(all e' he').1, (apart e').2 ⟨(all e' he').2, ?_⟩⟩,
        distinct, rest, by simp⟩
      intro hname
      exact hne (List.mem_map.2 ⟨e', he', hname⟩)

/-- The loop from the beginning, and the check that an entry was marked. -/
theorem enterAll_marked (set : ∀ e, k.name e ≠ "" → k.mark e ≠ k.unset) :
    (enterAll k platform 0 k.unset [] es = .ok (marked', entries) ∧ marked' ≠ k.unset) ↔
      k.Valid es ∧ (∃ e, es.filter k.isMarked = [e] ∧ marked' = k.mark e) ∧
        entries = es.map fun e => (k.name e, e) := by
  rw [enterAll_ok set]
  constructor
  · rintro ⟨⟨all, distinct, marks, rfl⟩, hne⟩
    have one : ∃ e, es.filter k.isMarked = [e] ∧ marked' = k.mark e := by
      match h : es.filter k.isMarked with
      | [] =>
        rw [h] at marks
        exact absurd marks hne
      | [e] =>
        rw [h] at marks
        exact ⟨e, rfl, marks.2⟩
      | _ :: _ :: _ =>
        rw [h] at marks
        exact absurd marks id
    obtain ⟨e, he, hm⟩ := one
    exact ⟨⟨fun e he => (all e he).1, distinct, e, he⟩, ⟨e, he, hm⟩, by simp⟩
  · rintro ⟨valid, ⟨e, he, rfl⟩, rfl⟩
    have mem : e ∈ es := (List.mem_filter.1 (he ▸ List.mem_singleton_self e)).1
    refine ⟨⟨fun e he => ⟨valid.named e he, by simp⟩, valid.distinct, ?_, by simp⟩, set e (valid.named e mem).1⟩
    rw [he]
    exact ⟨rfl, rfl⟩

end

theorem clusterKind_set (c : Cluster) (_ : clusterKind.name c ≠ "") : clusterKind.mark c ≠ clusterKind.unset := by
  simp [clusterKind]

theorem storageTargetKind_set (t : StorageTarget) (named : storageTargetKind.name t ≠ "") :
    storageTargetKind.mark t ≠ storageTargetKind.unset := named

/-! ## The whole definition -/

/-- The cluster that is marked as the admin cluster. -/
def PlatformDef.admin (platDef : PlatformDef) : Cluster := (platDef.clusters.find? (·.isAdmin)).getD ⟨"", "", true⟩

/-- The definition with all of its concerns completed. -/
def PlatformDef.completed (platDef : PlatformDef) : PlatformDef :=
  { platDef with concerns := platDef.concerns.map fun c => c.completed platDef.admin platDef.storageTargets }

def PlatformDef.clusterMap (platDef : PlatformDef) : List (String × Cluster) :=
  platDef.clusters.map fun c => (c.name, c)

/-- All the checks on a definition, the one of the generations apart. -/
structure ValidDef (platDef : PlatformDef) (platformName environment : String) : Prop where
  name : platDef.name = platformName
  environment : platDef.environment = environment
  updateTime : Timestamp.isValid platDef.updateTime = true
  clusters : clusterKind.Valid platDef.clusters
  storageTargets : storageTargetKind.Valid platDef.storageTargets
  distinct : (platDef.concerns.map (·.name)).Nodup
  concerns : ∀ c ∈ platDef.completed.concerns, ValidConcern platDef.name platDef.environment platDef.clusterMap c

/-- The check of the generations, of all topics. -/
def PlatformDef.GenerationsChecked (platDef : PlatformDef) : Prop :=
  ∀ c ∈ platDef.completed.concerns, ∀ topics ∈ c.topics, topics.GenerationsChecked

/-- The run time form of a definition. -/
structure Indexes (platDef : PlatformDef) (rtPlatDef : RtPlatformDef) : Prop where
  platformDef : rtPlatDef.platformDef = platDef.completed
  clusters : rtPlatDef.clusters = platDef.clusterMap
  admin : rtPlatDef.adminCluster = some platDef.admin
  storageTargets : rtPlatDef.storageTargets = platDef.storageTargets.map fun t => (t.name, t)
  primary : ∃ t, platDef.storageTargets.filter (·.isPrimary) = [t] ∧ rtPlatDef.primaryStorageTarget = t.name
  concerns : List.Forall₂ (fun c e => e.1 = c.name ∧
    RunsConcern platDef.name platDef.environment platDef.clusterMap c e.2) platDef.completed.concerns rtPlatDef.concerns

section
variable {render : Render} {platDef : PlatformDef} {platformName environment : String} {rtPlatDef : RtPlatformDef}

theorem PlatformDef.admin_eq {c : Cluster} (h : platDef.clusters.filter clusterKind.isMarked = [c]) :
    platDef.admin = c := by
  have found : platDef.clusters.find? (·.isAdmin) = some c := by
    rw [← List.head?_filter]
    exact congrArg List.head? h
  rw [PlatformDef.admin, found]
  rfl

theorem ValidDef.admin_named (valid : ValidDef platDef platformName environment) : platDef.admin.name ≠ "" := by
  obtain ⟨c, hc⟩ := valid.clusters.marked
  rw [PlatformDef.admin_eq hc]
  exact (valid.clusters.named c (List.mem_filter.1 (hc ▸ List.mem_singleton_self c)).1).1

theorem completed_names : platDef.completed.concerns.map (·.name) = platDef.concerns.map (·.name) := by
  simp [PlatformDef.completed, Concern.completed]

/-- What is accepted is valid, and indexed as it is. -/
theorem newRtPlatformDef_ok (h : newRtPlatformDef render platDef platformName environment = .ok rtPlatDef) :
    ValidDef platDef platformName environment ∧ platDef.GenerationsChecked ∧ Indexes platDef rtPlatDef := by
  unfold newRtPlatformDef errorf at h
  simp only [ite_error_eq_ok, bind_eq_ok, ne_eq, not_not, Bool.not_eq_true, Bool.not_eq_false'] at h
  obtain ⟨hname, henv, htime, -, ⟨marked, clusters⟩, hclusters, h⟩ := h
  cases marked with
  | none => cases h
  | some admin =>
    simp only [ite_error_eq_ok, bind_eq_ok] at h
    obtain ⟨-, ⟨primary, targets⟩, htargets, hprimary, h⟩ := h
    obtain ⟨validClusters, ⟨c, hc, hadmin⟩, rfl⟩ := (enterAll_marked clusterKind_set).1 ⟨hclusters, by simp [clusterKind]⟩
    obtain ⟨validTargets, ⟨t, ht, rfl⟩, rfl⟩ := (enterAll_marked storageTargetKind_set).1 ⟨htargets, hprimary⟩
    obtain rfl : admin = c := Option.some.inj hadmin
    have same := PlatformDef.admin_eq hc
    have named : admin.name ≠ "" :=
      (validClusters.named admin (List.mem_filter.1 (hc ▸ List.mem_singleton_self admin)).1).1
    obtain ⟨all, distinct, es, hes, entered⟩ := addConcerns_ok named h
    subst same
    have distinct : (platDef.completed.concerns.map (·.name)).Nodup := distinct
    rw [completed_names] at distinct
    refine ⟨⟨hname, henv, htime, validClusters, validTargets, distinct, fun c hc => (all c hc).1⟩,
      fun c hc => (all c hc).2.1, ?_⟩
    constructor
    · rw [entered.platformDef]
      rfl
    · exact entered.clusters
    · exact entered.adminCluster
    · exact entered.storageTargets
    · exact ⟨t, ht, entered.primaryStorageTarget⟩
    · rw [entered.concerns]
      exact hes

/-- What passes the checks is accepted. -/
theorem newRtPlatformDef_of (valid : ValidDef platDef platformName environment) (checked : platDef.GenerationsChecked) :
    ∃ rt, newRtPlatformDef render platDef platformName environment = .ok rt := by
  obtain ⟨c, hc⟩ := valid.clusters.marked
  obtain ⟨t, ht⟩ := valid.storageTargets.marked
  have clusters : enterAll clusterKind platDef.name 0 none [] platDef.clusters =
      .ok (some platDef.admin, platDef.clusterMap) ∧ some platDef.admin ≠ none := by
    refine (enterAll_marked clusterKind_set).2 ⟨valid.clusters, ⟨c, hc, ?_⟩, rfl⟩
    rw [PlatformDef.admin_eq hc]
    rfl
  have targets : enterAll storageTargetKind platDef.name 0 "" [] platDef.storageTargets =
      .ok (t.name, platDef.storageTargets.map fun t => (t.name, t)) ∧ t.name ≠ "" :=
    (enterAll_marked storageTargetKind_set).2 ⟨valid.storageTargets, ⟨t, ht, rfl⟩, rfl⟩
  have entered : ∃ rt, addConcerns render platDef.admin
      { platformDef := { platDef with concerns := [] }
        hash := render.hash platDef
        clusters := platDef.clusterMap
        adminCluster := some platDef.admin
        storageTargets := platDef.storageTargets.map fun t => (t.name, t)
        primaryStorageTarget := t.name } 0 platDef.concerns = .ok rt := by
    refine addConcerns_of valid.admin_named ?_ valid.distinct
    intro c hc
    have mem := List.mem_map_of_mem (f := fun c => c.completed platDef.admin platDef.storageTargets) hc
    exact ⟨valid.concerns _ mem, checked _ mem, by simp⟩
  obtain ⟨rt, hrt⟩ := entered
  have someCluster : platDef.clusters ≠ [] := by
    intro hn
    rw [hn] at hc
    cases hc
  have someTarget : platDef.storageTargets ≠ [] := by
    intro hn
    rw [hn] at ht
    cases ht
  refine ⟨rt, ?_⟩
  unfold newRtPlatformDef errorf
  rw [ite_error_eq_ok, ite_error_eq_ok, ite_error_eq_ok, ite_error_eq_ok, bind_eq_ok]
  refine ⟨not_not.2 valid.name, not_not.2 valid.environment, by simp [valid.updateTime], someCluster, _, clusters.1, ?_⟩
  show (if platDef.storageTargets = [] then _ else _) = _
  rw [ite_error_eq_ok, bind_eq_ok]
  exact ⟨someTarget, _, targets.1, ite_error_eq_ok.2 ⟨targets.2, hrt⟩⟩

/-- Exactly these definitions are accepted. -/
theorem newRtPlatformDef_accepts : (∃ rt, newRtPlatformDef render platDef platformName environment = .ok rt) ↔
    ValidDef platDef platformName environment ∧ platDef.GenerationsChecked := by
  constructor
  · rintro ⟨rt, h⟩
    obtain ⟨valid, checked, -⟩ := newRtPlatformDef_ok h
    exact ⟨valid, checked⟩
  · rintro ⟨valid, checked⟩
    exact newRtPlatformDef_of valid checked

end

end Rocketcycle.Definition
