import Rocketcycle.Rkcypb
import Mathlib.Tactic.Common

/-!
# The offline cluster

`pkg/stream/offline/stream.go`: topics kept in memory, with the names and partitions of Kafka's. A
partition is the list of its messages, in the order of their offsets; topics and partitions know their
place in the cluster. What a message carries besides is left open, and so are the times of the
messages and the brokers. `CreateTopics` returns at the first topic that is there, so the topics behind
it are neither created nor named in their results.
-/

namespace Rocketcycle.Offline

/-- A message with the place it has in the cluster. Its topic and partition are those by which
`OfflineProducer.Produce` found the partition. -/
structure Message (V : Type) where
  topic : String
  partition : Int
  offset : Int
  value : V
  deriving DecidableEq, Repr

structure Partition (V : Type) where
  topic : String
  index : Int
  messages : List (Message V)
  places : ∀ (i : Nat) (m : Message V), messages[i]? = some m → m.topic = topic ∧ m.partition = index ∧ m.offset = i

structure Topic (V : Type) where
  name : String
  partitions : List (Partition V)
  places : ∀ (i : Nat) (part : Partition V), partitions[i]? = some part → part.topic = name ∧ part.index = i

structure Cluster (V : Type) where
  topics : String → Option (Topic V)
  names : ∀ name topic, topics name = some topic → topic.name = name

variable {V : Type}

/-! ## Partitions -/

def newPartition (topic : String) (partition : Int) : Partition V := ⟨topic, partition, [], by simp⟩

/-- `Partition.Produce`: the message gets the next offset. -/
def Partition.produce (part : Partition V) (value : V) : Partition V where
  topic := part.topic
  index := part.index
  messages := part.messages ++ [⟨part.topic, part.index, part.messages.length, value⟩]
  places := by
    intro i m h
    rw [List.getElem?_append] at h
    by_cases old : i < part.messages.length
    · rw [if_pos old] at h
      exact part.places i m h
    · rw [if_neg old, List.getElem?_singleton] at h
      by_cases next : i - part.messages.length = 0
      · rw [if_pos next] at h
        obtain rfl := Option.some.inj h
        refine ⟨rfl, rfl, ?_⟩
        show (part.messages.length : Int) = i
        omega
      · rw [if_neg next] at h
        cases h

def Partition.getMessage (part : Partition V) (offset : Int) : Option (Message V) :=
  if offset < 0 then none
  else if offset < part.messages.length then part.messages[offset.toNat]?
  else none

/-- `NewTopic`. A slice of negative length is a panic. -/
def newTopic (name : String) (partitionCount : Int) : Reply (Topic V) :=
  if partitionCount < 0 then .error (.panic .indexOutOfRange)
  else
    .ok {
      name := name
      partitions := (List.range partitionCount.toNat).map fun i : Nat => newPartition name i
      places := by
        intro i part h
        obtain ⟨j, hj, rfl⟩ := Option.map_eq_some_iff.1 (List.getElem?_map.symm.trans h)
        obtain ⟨-, rfl⟩ := List.getElem?_eq_some_iff.1 hj
        refine ⟨rfl, ?_⟩
        rw [List.getElem_range]
        rfl }

/-- A message is produced into one of the partitions. -/
def Topic.produce (topic : Topic V) (i : Nat) (value : V) : Topic V where
  name := topic.name
  partitions := topic.partitions.modify i fun part => part.produce value
  places := by
    intro j part h
    rw [List.getElem?_modify] at h
    obtain ⟨old, hold, rfl⟩ := Option.map_eq_some_iff.1 h
    by_cases here : i = j
    · rw [if_pos here]
      exact topic.places j old hold
    · rw [if_neg here]
      exact topic.places j old hold

/-! ## The cluster -/

/-- `NewCluster`: there are no topics yet. -/
def newCluster : Cluster V := ⟨fun _ => none, fun _ _ h => absurd h (by simp)⟩

/-- `clus.topics[topic.name] = topic`. -/
def Cluster.put (clus : Cluster V) (topic : Topic V) : Cluster V where
  topics n := if n = topic.name then some topic else clus.topics n
  names := by
    intro n t h
    by_cases same : n = topic.name
    · rw [if_pos same] at h
      obtain rfl := Option.some.inj h
      exact same.symm
    · rw [if_neg same] at h
      exact clus.names n t h

/-- `Cluster.GetPartition`. -/
def Cluster.getPartition (clus : Cluster V) (topicName : String) (partition : Int) : Reply (Partition V) :=
  match clus.topics topicName with
  | none => .error (.err (.other s!"Topic not found: {topicName}"))
  | some topic =>
    if partition ≥ topic.partitions.length then .error (.err (.other s!"Partition out of range: {topicName}.{partition}"))
    else if partition < 0 then .error (.panic .indexOutOfRange)
    else
      match topic.partitions[partition.toNat]? with
      | none => .error (.panic .indexOutOfRange)
      | some part => .ok part

/-- What `CreateTopics` reads of a `kafka.TopicSpecification`. -/
structure TopicSpecification where
  topic : String
  numPartitions : Int
  deriving DecidableEq, Repr

inductive ErrorCode where
  | noError
  | topicAlreadyExists
  deriving DecidableEq, Repr

/-- `kafka.TopicResult`, as `make` leaves it. -/
structure TopicResult where
  topic : String := ""
  error : ErrorCode := .noError
  deriving DecidableEq, Repr

/-- `Cluster.CreateTopics`: the cluster and the results, one for each specification. -/
def Cluster.createTopics (clus : Cluster V) : List TopicSpecification → Reply (Cluster V × List TopicResult)
  | [] => .ok (clus, [])
  | topic :: topics =>
    if (clus.topics topic.topic).isSome then
      -- the results behind this one stay as they were made
      .ok (clus, ⟨topic.topic, .topicAlreadyExists⟩ :: topics.map fun _ => {})
    else
      match newTopic topic.topic topic.numPartitions with
      | .error e => .error e
      | .ok created =>
        match (clus.put created).createTopics topics with
        | .error e => .error e
        | .ok (clus, res) => .ok (clus, ⟨topic.topic, .noError⟩ :: res)

/-! ## Results that are true -/

/-- A result says what became of its specification, `before` being the specifications in front. -/
structure Reports (clus clus' : Cluster V) (before : List TopicSpecification) (topic : TopicSpecification) (res : TopicResult) : Prop where
  named : res.topic = topic.topic
  exists_iff : res.error = .topicAlreadyExists ↔ (clus.topics topic.topic).isSome ∨ topic.topic ∈ before.map TopicSpecification.topic
  created : res.error = .noError → ∃ t, clus'.topics topic.topic = some t ∧ (t.partitions.length : Int) = topic.numPartitions

/-- `CreateTopics` returns, and each of its results is true. -/
def Truthful (clus : Cluster V) (topics : List TopicSpecification) : Prop :=
  ∃ clus' res, clus.createTopics topics = .ok (clus', res) ∧ res.length = topics.length ∧
    ∀ before topic after, topics = before ++ topic :: after → ∃ r, res[before.length]? = some r ∧ Reports clus clus' before topic r

/-- A topic that neither exists nor occurs among those in front. -/
def New (clus : Cluster V) (before : List TopicSpecification) (topic : TopicSpecification) : Prop :=
  clus.topics topic.topic = none ∧ topic.topic ∉ before.map TopicSpecification.topic

/-- Every topic but the last is new, and of those that are new none asks for fewer than no partitions. -/
def Creatable (clus : Cluster V) (topics : List TopicSpecification) : Prop :=
  ∀ before topic after, topics = before ++ topic :: after →
    (after ≠ [] → New clus before topic) ∧ (New clus before topic → 0 ≤ topic.numPartitions)

section
variable {clus clus' : Cluster V} {topic t : TopicSpecification} {topics before : List TopicSpecification}
  {res : List TopicResult} {r : TopicResult} {created t' : Topic V}

/-- What holds wherever a list is split, seen from its first element. -/
theorem forall_splits_cons {α : Type} {x : α} {xs : List α} {P : List α → α → List α → Prop} :
    (∀ before y after, x :: xs = before ++ y :: after → P before y after) ↔
      P [] x xs ∧ ∀ before y after, xs = before ++ y :: after → P (x :: before) y after := by
  constructor
  · intro h
    refine ⟨h [] x xs rfl, ?_⟩
    intro before y after split
    exact h (x :: before) y after (by rw [split]; rfl)
  · intro h before y after split
    cases before with
    | nil =>
      obtain ⟨rfl, rfl⟩ := List.cons.inj split
      exact h.1
    | cons b before =>
      obtain ⟨rfl, rest⟩ := List.cons.inj split
      exact h.2 before y after rest

theorem length_newTopic {name : String} {n : Int} {t : Topic V} (h : newTopic name n = .ok t) : (t.partitions.length : Int) = n := by
  unfold newTopic at h
  by_cases negative : n < 0
  · rw [if_pos negative] at h
    cases h
  · rw [if_neg negative] at h
    cases h
    simp only [List.length_map, List.length_range]
    omega

theorem newTopic_ok (name : String) {n : Int} (h : 0 ≤ n) : ∃ t : Topic V, newTopic name n = .ok t := by
  unfold newTopic
  rw [if_neg (by omega)]
  exact ⟨_, rfl⟩

theorem name_newTopic {name : String} {n : Int} {t : Topic V} (h : newTopic name n = .ok t) : t.name = name := by
  unfold newTopic at h
  by_cases negative : n < 0
  · rw [if_pos negative] at h
    cases h
  · rw [if_neg negative] at h
    cases h
    rfl

theorem put_self {name : String} (named : t'.name = name) : (clus.put t').topics name = some t' := if_pos named.symm

theorem put_of_ne {name other : String} (named : t'.name = name) (h : other ≠ name) : (clus.put t').topics other = clus.topics other :=
  if_neg (named ▸ h)

theorem createTopics_known (known : (clus.topics topic.topic).isSome) :
    clus.createTopics (topic :: topics) = .ok (clus, ⟨topic.topic, .topicAlreadyExists⟩ :: topics.map fun _ => {}) := if_pos known

theorem createTopics_new (new : clus.topics topic.topic = none) (hc : newTopic topic.topic topic.numPartitions = .ok created) :
    clus.createTopics (topic :: topics) = .ok (clus', res) ↔
      ∃ rest, (clus.put created).createTopics topics = .ok (clus', rest) ∧ res = ⟨topic.topic, .noError⟩ :: rest := by
  rw [Cluster.createTopics, new, if_neg (by simp), hc]
  dsimp only
  cases (clus.put created).createTopics topics with
  | error e => simp
  | ok p =>
    obtain ⟨c, rest⟩ := p
    simp only [Except.ok.injEq, Prod.mk.injEq]
    constructor
    · intro h
      exact ⟨rest, ⟨h.1, rfl⟩, h.2.symm⟩
    · intro h
      obtain ⟨rest', ⟨hc', rfl⟩, hr⟩ := h
      exact ⟨hc', hr.symm⟩

/-- A topic that is there stays as it is. -/
theorem createTopics_keeps {name : String} {old : Topic V} (h : clus.createTopics topics = .ok (clus', res))
    (there : clus.topics name = some old) : clus'.topics name = some old := by
  induction topics generalizing clus res with
  | nil =>
    cases h
    exact there
  | cons topic topics ih =>
    by_cases known : (clus.topics topic.topic).isSome
    · rw [createTopics_known known] at h
      cases h
      exact there
    · rw [Option.not_isSome_iff_eq_none] at known
      have differ : name ≠ topic.topic := by
        intro same
        rw [same, known] at there
        cases there
      cases hc : (newTopic topic.topic topic.numPartitions : Reply (Topic V)) with
      | error e =>
        rw [Cluster.createTopics, known, hc] at h
        cases h
      | ok created =>
        obtain ⟨rest, hrest, -⟩ := (createTopics_new known hc).1 h
        exact ih hrest ((put_of_ne (name_newTopic hc) differ).trans there)

/-! ## One specification -/

/-- Behind a specification whose topic was created, the cluster has it. -/
theorem new_put (named : created.name = topic.topic) : New clus (topic :: before) t ↔ New (clus.put created) before t := by
  unfold New
  by_cases same : t.topic = topic.topic
  · rw [same, put_self named]
    simp
  · rw [put_of_ne named same]
    simp [same]

theorem reports_put (named : created.name = topic.topic) : Reports clus clus' (topic :: before) t r ↔ Reports (clus.put created) clus' before t r := by
  have there : (clus.topics t.topic).isSome ∨ t.topic ∈ (topic :: before).map TopicSpecification.topic ↔
      ((clus.put created).topics t.topic).isSome ∨ t.topic ∈ before.map TopicSpecification.topic := by
    by_cases same : t.topic = topic.topic
    · rw [same, put_self named]
      simp
    · rw [put_of_ne named same]
      simp [same]
  constructor
  · intro h
    exact ⟨h.named, h.exists_iff.trans there, h.created⟩
  · intro h
    exact ⟨h.named, h.exists_iff.trans there.symm, h.created⟩

theorem truthful_nil : Truthful clus [] := by
  refine ⟨clus, [], rfl, rfl, ?_⟩
  intro before topic after split
  exact absurd split (by simp)

theorem creatable_nil : Creatable clus [] := by
  intro before topic after split
  exact absurd split (by simp)

/-- The early return is right for the last specification only: a result that is left as it was made
says that its topic was created. -/
theorem truthful_known (known : (clus.topics topic.topic).isSome) : Truthful clus (topic :: topics) ↔ topics = [] := by
  constructor
  · intro h
    obtain ⟨clus', res, run, -, all⟩ := h
    rw [createTopics_known known] at run
    cases run
    cases topics with
    | nil => rfl
    | cons t rest =>
      obtain ⟨r, at', reports⟩ := all [topic] t rest rfl
      have made : r = {} := (Option.some.inj at').symm
      subst made
      obtain ⟨there, found, -⟩ := reports.created rfl
      have already := reports.exists_iff.2 (Or.inl (by rw [found]; rfl))
      cases already
  · intro last
    subst last
    refine ⟨clus, _, createTopics_known known, rfl, ?_⟩
    rw [forall_splits_cons]
    constructor
    · refine ⟨_, rfl, rfl, ?_, ?_⟩
      · exact iff_of_true rfl (Or.inl known)
      · intro h
        cases h
    · intro before t after split
      exact absurd split (by simp)

theorem creatable_known (known : (clus.topics topic.topic).isSome) : Creatable clus (topic :: topics) ↔ topics = [] := by
  unfold Creatable
  rw [forall_splits_cons]
  have old : ¬New clus [] topic := by
    intro new
    rw [new.1] at known
    cases known
  constructor
  · intro h
    by_contra more
    exact old (h.1.1 more)
  · intro last
    subst last
    refine ⟨⟨fun more => absurd rfl more, fun new => absurd new old⟩, ?_⟩
    intro before t after split
    exact absurd split (by simp)

theorem truthful_new (new : clus.topics topic.topic = none) (hc : newTopic topic.topic topic.numPartitions = .ok created) :
    Truthful clus (topic :: topics) ↔ Truthful (clus.put created) topics := by
  unfold Truthful
  constructor
  · intro h
    obtain ⟨clus', res, run, len, all⟩ := h
    obtain ⟨rest, hrest, rfl⟩ := (createTopics_new new hc).1 run
    refine ⟨clus', rest, hrest, Nat.succ.inj len, ?_⟩
    intro before t after split
    obtain ⟨r, at', reports⟩ := (forall_splits_cons.1 all).2 before t after split
    exact ⟨r, at', (reports_put (name_newTopic hc)).1 reports⟩
  · intro h
    obtain ⟨clus', rest, hrest, len, all⟩ := h
    refine ⟨clus', _, (createTopics_new new hc).2 ⟨rest, hrest, rfl⟩, congrArg Nat.succ len, ?_⟩
    rw [forall_splits_cons]
    constructor
    · refine ⟨_, rfl, rfl, ?_, ?_⟩
      · rw [new]
        simp
      · intro _
        exact ⟨created, createTopics_keeps hrest (put_self (name_newTopic hc)), length_newTopic hc⟩
    · intro before t after split
      obtain ⟨r, at', reports⟩ := all before t after split
      exact ⟨r, at', (reports_put (name_newTopic hc)).2 reports⟩

theorem creatable_new (new : clus.topics topic.topic = none) (hc : newTopic topic.topic topic.numPartitions = .ok created) :
    Creatable clus (topic :: topics) ↔ Creatable (clus.put created) topics := by
  have positive := length_newTopic hc
  unfold Creatable
  rw [forall_splits_cons]
  have fresh : New clus [] topic := ⟨new, List.not_mem_nil⟩
  constructor
  · intro h before t after split
    rw [← new_put (name_newTopic hc)]
    exact h.2 before t after split
  · intro h
    refine ⟨⟨fun _ => fresh, fun _ => by omega⟩, ?_⟩
    intro before t after split
    rw [new_put (name_newTopic hc)]
    exact h before t after split

/-- A new topic with a negative number of partitions is a panic. -/
theorem not_of_negative (new : clus.topics topic.topic = none) (negative : topic.numPartitions < 0) :
    ¬Truthful clus (topic :: topics) ∧ ¬Creatable clus (topic :: topics) := by
  constructor
  · intro h
    obtain ⟨clus', res, run, -⟩ := h
    rw [Cluster.createTopics, new, if_neg (by simp), newTopic, if_pos negative] at run
    cases run
  · intro h
    have enough := (h [] topic topics rfl).2 ⟨new, List.not_mem_nil⟩
    omega

end

/-- The results of `CreateTopics` are true exactly where no topic but the last is there already. -/
theorem createTopics_truthful_iff (clus : Cluster V) (topics : List TopicSpecification) : Truthful clus topics ↔ Creatable clus topics := by
  induction topics generalizing clus with
  | nil => exact iff_of_true truthful_nil creatable_nil
  | cons topic topics ih =>
    by_cases known : (clus.topics topic.topic).isSome
    · rw [truthful_known known, creatable_known known]
    · rw [Option.not_isSome_iff_eq_none] at known
      by_cases negative : topic.numPartitions < 0
      · obtain ⟨ht, hc⟩ := not_of_negative known negative
        exact iff_of_false ht hc
      · obtain ⟨created, hc⟩ := newTopic_ok topic.topic (Int.not_lt.1 negative)
        rw [truthful_new known hc, creatable_new known hc]
        exact ih _

def ordersTopic : Topic Unit := ⟨"orders", [], by simp⟩

/-- A cluster with the topic `orders`, which is asked for again in front of `invoices`. -/
theorem createTopics_misreports : ¬Truthful (newCluster.put ordersTopic) [⟨"orders", 1⟩, ⟨"invoices", 1⟩] := by
  intro h
  obtain ⟨clus', res, run, -, all⟩ := h
  cases run
  obtain ⟨r, at', reports⟩ := all [⟨"orders", 1⟩] ⟨"invoices", 1⟩ [] rfl
  have made : r = {} := (Option.some.inj at').symm
  have named := reports.named
  rw [made] at named
  exact absurd named (by decide)

end Rocketcycle.Offline
