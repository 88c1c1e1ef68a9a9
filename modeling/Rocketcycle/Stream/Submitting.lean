import Rocketcycle.Stream.ManagedProducer
import Rocketcycle.Rkcy.WellFormed
import Mathlib.Data.List.Induction

/-!
# Submitting transactions

What a process goes through that submits transactions while its producers are told of new
definitions of the platform, and when one of its producers crashes it.
-/

namespace Rocketcycle.Stream
open Definition (RtConcern RtTopics)

/-! ## What a producer has been told -/

/-- The topics of a concern in a definition. -/
def topicsIn (rtPlatDef : Definition.RtPlatformDef) (key : Key) : Option RtTopics :=
  (rtPlatDef.concerns.lookup key.1).bind fun concern => concern.topics.lookup (topicString key.2)

/-- The definitions that a producer has been told of when `e` happens to those in `heard`. -/
def hear (key : Key) (heard : List AcceptedDef) : Event → List AcceptedDef
  | .submit sub first => if sub.key = .ok key ∧ heard = [] then [first] else heard
  | .update key' rtPlatDef => if key' = key ∧ heard ≠ [] then heard ++ [rtPlatDef] else heard
  | .take _ => heard

def heardBy (key : Key) (es : List Event) : List AcceptedDef := es.foldl (hear key) []

/-- The topics in the last of the definitions that have the concern. -/
def currentTopics (key : Key) (heard : List AcceptedDef) : Option RtTopics :=
  heard.foldl (fun topics rtPlatDef =>
    if (rtPlatDef.concerns.lookup key.1).isSome then topicsIn rtPlatDef.toRtPlatformDef key else topics) none

/-- The message is published on the current topic, in a partition it has. -/
def PublishedTo (topics : RtTopics) (mprod : ManagedProducer) (msg : Publication) : Prop :=
  ∃ partition, handleMessage mprod msg = .ok (some ⟨topics.currentTopic, partition, msg⟩) ∧
    (partition : Int) < topics.currentTopicPartitionCount

/-- The topics of an accepted definition: they have partitions, and brokers. -/
structure Usable (topics : RtTopics) : Prop where
  current : ∃ t, topics.topics.current = some t ∧ 1 ≤ t.partitionCount ∧ topics.currentTopicPartitionCount = t.partitionCount
  brokers : topics.currentCluster.brokers ≠ ""

section
variable {rtPlatDef : AcceptedDef} {key : Key} {topics : RtTopics} {mprod : ManagedProducer} {heard : List AcceptedDef}

theorem usable_of_topicsIn (h : topicsIn rtPlatDef.toRtPlatformDef key = some topics) : Usable topics := by
  obtain ⟨rtConc, hc, ht⟩ := Option.bind_eq_some_iff.1 h
  obtain ⟨render, platDef, platformName, environment, accepted⟩ := rtPlatDef.accepted
  obtain ⟨valid, -, idx⟩ := Definition.newRtPlatformDef_ok accepted
  obtain ⟨c, hcm, -, runsConcern⟩ := Entries.forall₂_right idx.concerns (Entries.mem_of_lookup hc)
  obtain ⟨tops, htm, -, runs⟩ := Entries.forall₂_right runsConcern.topics (Entries.mem_of_lookup ht)
  obtain ⟨t, hcur, -, -, hcount, hcluster⟩ := runs.current
  obtain ⟨c, -, rfl⟩ := List.mem_map.1 hcm
  have init := (Definition.Concern.completed_initialised valid.admin_named _ tops htm).1 t
    (List.mem_append.2 (.inl (Option.mem_toList.2 hcur)))
  have atLeast := init.atLeast
  constructor
  · refine ⟨t, runs.same ▸ hcur, atLeast, ?_⟩
    rw [hcount]
    unfold Definition.maxi32
    split <;> omega
  · obtain ⟨cl, hcl, heq⟩ := List.mem_map.1 (Entries.mem_of_lookup hcluster)
    have same : cl = topics.currentCluster := congrArg Prod.snd heq
    exact same ▸ (valid.clusters.named cl hcl).2

theorem updatePlatform_names : (updatePlatform mprod rtPlatDef.toRtPlatformDef).1.concernName = mprod.concernName ∧
    (updatePlatform mprod rtPlatDef.toRtPlatformDef).1.topicName = mprod.topicName := by
  unfold updatePlatform
  split
  · exact ⟨rfl, rfl⟩
  · split
    · exact ⟨rfl, rfl⟩
    · dsimp only
      split <;> exact ⟨rfl, rfl⟩

variable (rtPlatDef) in
/-- The topics after an update are those of the definition, if it has the concern. -/
theorem updatePlatform_topics (concern : mprod.concernName = key.1) (topic : mprod.topicName = topicString key.2) :
    (updatePlatform mprod rtPlatDef.toRtPlatformDef).1.topics =
      if (rtPlatDef.concerns.lookup key.1).isSome then topicsIn rtPlatDef.toRtPlatformDef key else mprod.topics := by
  unfold updatePlatform topicsIn
  rw [concern, topic]
  cases rtPlatDef.concerns.lookup key.1 with
  | none => rfl
  | some c =>
    cases ht : c.topics.lookup (topicString key.2) with
    | none => simp [ht]
    | some t =>
      simp only [Option.bind_some, ht]
      split <;> rfl

/-- A channel, once opened, is replaced by that of other brokers only. -/
theorem updatePlatform_channel (opened : mprod.prodCh.isSome = true) :
    (updatePlatform mprod rtPlatDef.toRtPlatformDef).1.prodCh.isSome = true := by
  unfold updatePlatform
  split
  · exact opened
  · split
    · exact opened
    · dsimp only
      split
      · rfl
      · exact opened

/-- What a producer has become by the definitions it was told of. -/
structure Follows (key : Key) (heard : List AcceptedDef) (mprod : ManagedProducer) : Prop where
  concern : mprod.concernName = key.1
  topic : mprod.topicName = topicString key.2
  topics : mprod.topics = currentTopics key heard
  usable : ∀ t, mprod.topics = some t → Usable t
  opened : mprod.prodCh.isSome = true

theorem currentTopics_append : currentTopics key (heard ++ [rtPlatDef]) =
    if (rtPlatDef.concerns.lookup key.1).isSome then topicsIn rtPlatDef.toRtPlatformDef key
    else currentTopics key heard := by
  unfold currentTopics
  rw [List.foldl_append]
  rfl

theorem Follows.update (h : Follows key heard mprod) (rtPlatDef : AcceptedDef) :
    Follows key (heard ++ [rtPlatDef]) (updatePlatform mprod rtPlatDef.toRtPlatformDef).1 := by
  have topics := updatePlatform_topics rtPlatDef h.concern h.topic
  refine ⟨updatePlatform_names.1.trans h.concern, updatePlatform_names.2.trans h.topic, ?_, ?_, updatePlatform_channel h.opened⟩
  · rw [topics, currentTopics_append, h.topics]
  · intro t ht
    rw [topics] at ht
    split at ht
    · exact usable_of_topicsIn ht
    · exact h.usable t ht

/-- A new producer that finds its topics follows the first definition. -/
theorem follows_first (h : topicsIn rtPlatDef.toRtPlatformDef key = some topics) :
    Follows key [rtPlatDef] (newManagedProducer key rtPlatDef.toRtPlatformDef) := by
  have usable := usable_of_topicsIn h
  obtain ⟨c, hc, ht⟩ := Option.bind_eq_some_iff.1 h
  have made : newManagedProducer key rtPlatDef.toRtPlatformDef =
      { concernName := key.1, topicName := topicString key.2, concern := some c, topics := some topics,
        brokers := topics.currentCluster.brokers, prodCh := some topics.currentCluster.brokers } := by
    simp [newManagedProducer, updatePlatform, hc, ht, usable.brokers.symm]
  have first : currentTopics key [rtPlatDef] = some topics := by
    show (if (rtPlatDef.concerns.lookup key.1).isSome then _ else _) = _
    rw [hc, h]
    rfl
  rw [made]
  refine ⟨rfl, rfl, first.symm, ?_, rfl⟩
  intro t ht
  cases ht
  exact usable

/-- A new producer crashes at once unless the first definition has its topics. -/
theorem newManagedProducer_directive :
    (∃ d, producerDirective (newManagedProducer key rtPlatDef.toRtPlatformDef) = .ok d) ↔
      (topicsIn rtPlatDef.toRtPlatformDef key).isSome = true := by
  cases h : topicsIn rtPlatDef.toRtPlatformDef key with
  | some topics =>
    obtain ⟨t, hcur, -, -⟩ := (usable_of_topicsIn h).current
    obtain ⟨c, hc, ht⟩ := Option.bind_eq_some_iff.1 h
    simp [newManagedProducer, updatePlatform, hc, ht, (usable_of_topicsIn h).brokers.symm, producerDirective, hcur]
  | none =>
    unfold topicsIn at h
    have fails : ∀ d, producerDirective (newManagedProducer key rtPlatDef.toRtPlatformDef) ≠ .ok d := by
      intro d
      cases hc : rtPlatDef.concerns.lookup key.1 with
      | none => simp [newManagedProducer, updatePlatform, hc, producerDirective]
      | some c =>
        rw [hc] at h
        simp only [Option.bind_some] at h
        simp [newManagedProducer, updatePlatform, hc, h, producerDirective]
    simp [fails]

/-- A producer that follows the definitions publishes a message on their current topic, if there is
one, and crashes if there is none. -/
theorem Follows.publishes (h : Follows key heard mprod) (found : currentTopics key heard = some topics) (msg : Publication) :
    PublishedTo topics mprod msg := by
  have same := h.topics.trans found
  obtain ⟨t, hcur, atLeast, hcount⟩ := (h.usable topics same).current
  obtain ⟨ch, hch⟩ := Option.isSome_iff_exists.1 h.opened
  refine ⟨fnv64Hash msg.hashKey t.partitionCount.toNat, ?_, ?_⟩
  · simp [handleMessage, prepKafkaMessage, hch, same, hcur, Except.map]
  · have bound : fnv64Hash msg.hashKey t.partitionCount.toNat < t.partitionCount.toNat := fnv64Hash_lt (by omega) _
    rw [hcount]
    omega

theorem Follows.crashes (h : Follows key heard mprod) (lost : currentTopics key heard = none) (msg : Publication) :
    handleMessage mprod msg = .error .nilDeref := by
  have same := h.topics.trans lost
  obtain ⟨ch, hch⟩ := Option.isSome_iff_exists.1 h.opened
  simp [handleMessage, prepKafkaMessage, hch, same, Except.map]

end

/-! ## A process -/

section
variable {s s' : State} {front es : List Event} {e : Event} {key : Key}

/-- The producers are those that have been told of a definition, and follow what they were told. -/
structure Inv (es : List Event) (s : State) : Prop where
  unmade : ∀ key, s.producers key = none → heardBy key es = []
  made : ∀ key mprod, s.producers key = some mprod → heardBy key es ≠ [] ∧ Follows key (heardBy key es) mprod

theorem heardBy_append : heardBy key (front ++ [e]) = hear key (heardBy key front) e := by
  unfold heardBy
  rw [List.foldl_append]
  rfl

/-- What asking for a producer leaves: it is there, and the others are as they were. -/
theorem getManagedProducer_iff {first : AcceptedDef} :
    (∃ s', getManagedProducer s key first.toRtPlatformDef = .ok s') ↔
      (s.producers key = none → (topicsIn first.toRtPlatformDef key).isSome = true) := by
  unfold getManagedProducer
  cases hp : s.producers key with
  | some mprod => simp
  | none =>
    rw [← newManagedProducer_directive]
    dsimp only
    cases hd : producerDirective (newManagedProducer key first.toRtPlatformDef) with
    | error f => simp
    | ok d => simp

theorem Inv.getManagedProducer {sub : Submission} {first : AcceptedDef} (inv : Inv front s) (hkey : sub.key = .ok key)
    (h : getManagedProducer s key first.toRtPlatformDef = .ok s') : Inv (front ++ [.submit sub first]) s' := by
  have told (key' : Key) : heardBy key' (front ++ [.submit sub first]) =
      if key = key' ∧ heardBy key' front = [] then [first] else heardBy key' front := by
    rw [heardBy_append]
    simp only [hear, hkey, Except.ok.injEq]
  unfold Stream.getManagedProducer at h
  cases hp : s.producers key with
  | some mprod =>
    rw [hp] at h
    cases h
    have heard := (inv.made key mprod hp).1
    have same (key' : Key) : heardBy key' (front ++ [.submit sub first]) = heardBy key' front := by
      rw [told, if_neg]
      rintro ⟨rfl, hn⟩
      exact heard hn
    constructor
    · intro key' hn
      rw [same]
      exact inv.unmade key' hn
    · intro key' mprod' hs
      rw [same]
      exact inv.made key' mprod' hs
  | none =>
    have started : ∃ s', Stream.getManagedProducer s key first.toRtPlatformDef = .ok s' := ⟨s', h⟩
    obtain ⟨topics, htopics⟩ := Option.isSome_iff_exists.1 (getManagedProducer_iff.1 started hp)
    rw [hp] at h
    dsimp only at h
    split at h
    · cases h
    cases h
    constructor
    · intro key' hn
      have hne : key' ≠ key := by
        rintro rfl
        simp [State.setProducer] at hn
      rw [told, if_neg fun hc => hne hc.1.symm]
      exact inv.unmade key' (by simpa [State.setProducer, hne] using hn)
    · intro key' mprod hs
      rw [told]
      by_cases hne : key' = key
      · subst hne
        rw [if_pos ⟨rfl, inv.unmade key' hp⟩]
        have made : newManagedProducer key' first.toRtPlatformDef = mprod := by simpa [State.setProducer] using hs
        exact ⟨by simp, made ▸ follows_first htopics⟩
      · rw [if_neg fun hc => hne hc.1.symm]
        exact inv.made key' mprod (by simpa [State.setProducer, hne] using hs)

theorem Inv.step (inv : Inv front s) (h : step s e = some s') : Inv (front ++ [e]) s' := by
  cases e with
  | submit sub first =>
    unfold Stream.step at h
    dsimp only at h
    cases hkey : sub.key with
    | error t =>
      have same (key : Key) : heardBy key (front ++ [.submit sub first]) = heardBy key front := by
        rw [heardBy_append]
        simp [hear, hkey]
      rw [hkey] at h
      cases t with
      | panic f => cases h
      | err e =>
        cases h
        exact ⟨fun key hn => (same key).trans (inv.unmade key hn), fun key mprod hs => (same key).symm ▸ inv.made key mprod hs⟩
    | ok key =>
      rw [hkey] at h
      dsimp only at h
      cases hg : Stream.getManagedProducer s key first.toRtPlatformDef with
      | error f => rw [hg] at h; cases h
      | ok s1 =>
        have next := inv.getManagedProducer hkey hg
        rw [hg] at h
        dsimp only at h
        split at h
        · cases h
        · cases h
          exact next
        · cases h
          exact ⟨next.unmade, next.made⟩
  | update key rtPlatDef =>
    have told (key' : Key) : heardBy key' (front ++ [.update key rtPlatDef]) =
        if key = key' ∧ heardBy key' front ≠ [] then heardBy key' front ++ [rtPlatDef] else heardBy key' front :=
      heardBy_append
    unfold Stream.step at h
    dsimp only at h
    cases hp : s.producers key with
    | none =>
      rw [hp] at h
      cases h
      have same (key' : Key) : heardBy key' (front ++ [.update key rtPlatDef]) = heardBy key' front := by
        rw [told, if_neg]
        rintro ⟨rfl, hne⟩
        exact hne (inv.unmade key hp)
      exact ⟨fun key' hn => (same key').trans (inv.unmade key' hn),
        fun key' mprod hs => (same key').symm ▸ inv.made key' mprod hs⟩
    | some mprod =>
      rw [hp] at h
      cases h
      obtain ⟨heard, follows⟩ := inv.made key mprod hp
      constructor
      · intro key' hn
        have hne : key' ≠ key := by
          rintro rfl
          simp [State.setProducer] at hn
        rw [told, if_neg fun hc => hne hc.1.symm]
        exact inv.unmade key' (by simpa [State.setProducer, hne] using hn)
      · intro key' mprod' hs
        rw [told]
        by_cases hne : key' = key
        · subst hne
          rw [if_pos ⟨rfl, heard⟩]
          have same : (updatePlatform mprod rtPlatDef.toRtPlatformDef).1 = mprod' := by simpa [State.setProducer] using hs
          exact ⟨by simp, same ▸ follows.update rtPlatDef⟩
        · rw [if_neg fun hc => hne hc.1.symm]
          exact inv.made key' mprod' (by simpa [State.setProducer, hne] using hs)
  | take key =>
    have same (key' : Key) : heardBy key' (front ++ [.take key]) = heardBy key' front := heardBy_append
    have kept : s'.producers = s.producers := by
      unfold Stream.step at h
      dsimp only at h
      split at h
      · split at h
        · cases h
        · cases h
          rfl
      · cases h
        rfl
    exact ⟨fun key' hn => (same key').trans (inv.unmade key' (kept ▸ hn)),
      fun key' mprod hs => (same key').symm ▸ inv.made key' mprod (kept ▸ hs)⟩

end

def AcceptedDef.of (platDef : Definition.PlatformDef)
    (h : (Definition.newRtPlatformDef Definition.sampleRender platDef "rpg" "dev").toOption.isSome = true) : AcceptedDef where
  toRtPlatformDef := (Definition.newRtPlatformDef Definition.sampleRender platDef "rpg" "dev").toOption.get h
  accepted := ⟨_, _, _, _, Definition.eq_ok_get h⟩

end Rocketcycle.Stream
