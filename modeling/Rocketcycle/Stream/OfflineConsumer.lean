import Rocketcycle.Stream.Offline
import Rocketcycle.Lib.AssignedLogs
import Rocketcycle.Lib.Entries

/-!
# The offline consumer

`pkg/stream/offline/offline_consumer.go`. `ReadMessage` goes round the assigned partitions until one has
a message at its offset or the time is up; it holds the consumer meanwhile, but not the partitions, so
that messages may be produced between two of its looks. Seen from outside the consumer is a reader of
assigned logs. `StoreOffsets` gives up at the first assigned partition that is not the one it is
looking for, so that it finds the first one only.
-/

namespace Rocketcycle.Offline

open Assigned

/-- `kafka.TopicPartition`. -/
structure TopicPartition where
  topic : String
  partition : Int
  offset : Int
  deriving DecidableEq, Repr

def TopicPartition.key (tp : TopicPartition) : String × Int := (tp.topic, tp.partition)

/-- A partition, which is pointed to in the code and here given by its topic and index, and the
offset of the next message to read. -/
structure PartitionOffset where
  topic : String
  index : Int
  offset : Int
  deriving DecidableEq, Repr

def PartitionOffset.key (partOff : PartitionOffset) : String × Int := (partOff.topic, partOff.index)

/-- Without an assignment `partOffs` is nil. -/
structure OfflineConsumer where
  readCount : Nat
  partOffs : Option (List PartitionOffset)
  deriving Repr

def newOfflineConsumer : OfflineConsumer := ⟨0, none⟩

variable {V : Type}

/-- The offset of `OffsetBeginning`, `OffsetStored` and `OffsetEnd`; the others stand for themselves. -/
def startOffset (part : Partition V) (offset : Int) : Int :=
  if offset = -2 then 0
  else if offset = -1000 then 0
  else if offset = -1 then part.messages.length
  else offset

def assignPartition (clus : Cluster V) (tp : TopicPartition) : Reply PartitionOffset :=
  match clus.getPartition tp.topic tp.partition with
  | .error e => .error e
  | .ok part => .ok ⟨part.topic, part.index, startOffset part tp.offset⟩

def assignPartitions (clus : Cluster V) : List TopicPartition → Reply (List PartitionOffset)
  | [] => .ok []
  | tp :: partitions =>
    match assignPartition clus tp with
    | .error e => .error e
    | .ok partOff =>
      match assignPartitions clus partitions with
      | .error e => .error e
      | .ok partOffs => .ok (partOff :: partOffs)

/-- `Assign`. A consumer whose assignment failed is not used again. -/
def OfflineConsumer.assign (ocons : OfflineConsumer) (clus : Cluster V) (partitions : List TopicPartition) : Reply OfflineConsumer :=
  match assignPartitions clus partitions with
  | .error e => .error e
  | .ok partOffs => .ok { ocons with partOffs := some partOffs }

/-- The partition that a pointer points to. -/
def Cluster.part (clus : Cluster V) (key : String × Int) : Option (Partition V) :=
  match clus.topics key.1 with
  | none => none
  | some topic => if key.2 < 0 then none else topic.partitions[key.2.toNat]?

/-- One look of `ReadMessage` at the next partition in turn. A remainder by zero is a panic. -/
def OfflineConsumer.look (ocons : OfflineConsumer) (clus : Cluster V) (partOffs : List PartitionOffset) :
    Reply (Option (Message V) × OfflineConsumer) :=
  let readCount := ocons.readCount + 1
  let i := readCount % partOffs.length
  match partOffs[i]? with
  | none => .error (.panic .indexOutOfRange)
  | some partOff =>
    match clus.part partOff.key with
    | none => .error (.panic .nilDeref)
    | some part =>
      match part.getMessage partOff.offset with
      | none => .ok (none, { readCount := readCount, partOffs := some partOffs })
      | some kMsg => .ok (some kMsg, { readCount := readCount, partOffs := some (partOffs.set i { partOff with offset := partOff.offset + 1 }) })

/-- The inner loop of `StoreOffsets` from the `k`-th partition on, `found` being `partOffs[i]`. -/
def findPartOff (tp : TopicPartition) : List PartitionOffset → Nat → Option Nat → Except GoError (Option Nat)
  | [], _, found => .ok found
  | partOff :: partOffs, k, found =>
    if partOff.topic = tp.topic ∧ partOff.index = tp.partition then .ok (some k)
    else if found = none then .error (.other s!"Invalid topic partition to commit, {tp.topic}.{tp.partition}")
    else findPartOff tp partOffs (k + 1) found

/-- The first loop: the partitions that are to be moved. -/
def findPartOffs (assigned : List PartitionOffset) : List TopicPartition → Except GoError (List (Option Nat))
  | [] => .ok []
  | tp :: offsets =>
    match findPartOff tp assigned 0 none with
    | .error e => .error e
    | .ok k =>
      match findPartOffs assigned offsets with
      | .error e => .error e
      | .ok ks => .ok (k :: ks)

/-- The second loop. A pointer that was not set is a panic. -/
def setOffsets : List TopicPartition → List (Option Nat) → List PartitionOffset → Reply (List PartitionOffset)
  | tp :: offsets, k :: ks, partOffs =>
    match k with
    | none => .error (.panic .nilDeref)
    | some k => setOffsets offsets ks (partOffs.modify k fun partOff => { partOff with offset := tp.offset })
  | _, _, partOffs => .ok partOffs

/-- `StoreOffsets`: its error, and the consumer after it. -/
def OfflineConsumer.storeOffsets (ocons : OfflineConsumer) (offsets : List TopicPartition) : Reply (Option GoError × OfflineConsumer) :=
  match findPartOffs (ocons.partOffs.getD []) offsets with
  | .error e => .ok (some e, ocons)
  | .ok ks =>
    match setOffsets offsets ks (ocons.partOffs.getD []) with
    | .error e => .error e
    | .ok partOffs => .ok (none, { ocons with partOffs := ocons.partOffs.map fun _ => partOffs })

/-- `CommitOffsets`. -/
def OfflineConsumer.commitOffsets (ocons : OfflineConsumer) (offsets : List TopicPartition) : Reply (Option GoError × OfflineConsumer) :=
  ocons.storeOffsets offsets

/-- A message on its way to a partition. -/
structure Production (V : Type) where
  topic : String
  partition : Int
  value : V

def Production.key (msg : Production V) : String × Int := (msg.topic, msg.partition)

/-- `OfflineProducer.Produce`, with what comes of it: an unknown topic or partition is refused. -/
def Cluster.produce (clus : Cluster V) (msg : Production V) : Reply (List (Label (String × Int) V) × Cluster V) :=
  match clus.getPartition msg.topic msg.partition with
  | .error (.panic f) => .error (.panic f)
  | .error (.err _) => .ok ([], clus)
  | .ok part =>
    match clus.topics part.topic with
    | none => .error (.panic .nilDeref)
    | some topic => .ok ([.produced msg.key msg.value], clus.put (topic.produce part.index.toNat msg.value))

/-- Messages produced one after the other. -/
def Cluster.produceAll (clus : Cluster V) : List (Production V) → Reply (List (Label (String × Int) V) × Cluster V)
  | [] => .ok ([], clus)
  | msg :: msgs =>
    match clus.produce msg with
    | .error e => .error e
    | .ok (made, clus) =>
      match clus.produceAll msgs with
      | .error e => .error e
      | .ok (more, clus) => .ok (made ++ more, clus)

/-! ## Runs -/

structure State (V : Type) where
  clus : Cluster V
  ocons : OfflineConsumer

/-- The message as it is read. -/
def Message.label (m : Message V) : Label (String × Int) V := .message (m.topic, m.partition) m.offset m.value

/-- The loop of `ReadMessage` until its time is up, with the messages produced in front of each look. -/
def readLoop (clus : Cluster V) (ocons : OfflineConsumer) :
    List (List (Production V)) → Reply (List (Label (String × Int) V) × State V)
  | [] => .ok ([], ⟨clus, ocons⟩)
  | msgs :: looks =>
    match clus.produceAll msgs with
    | .error e => .error e
    | .ok (made, clus) =>
      match ocons.look clus (ocons.partOffs.getD []) with
      | .error e => .error e
      | .ok (some m, ocons) => .ok (made ++ [m.label], ⟨clus, ocons⟩)
      | .ok (none, ocons) =>
        match readLoop clus ocons looks with
        | .error e => .error e
        | .ok (more, s) => .ok (made ++ more, s)

/-- `ReadMessage`. Without an assignment it returns an error at once. -/
def readMessage (s : State V) (looks : List (List (Production V))) : Reply (List (Label (String × Int) V) × State V) :=
  match s.ocons.partOffs with
  | none => .ok ([], s)
  | some _ => readLoop s.clus s.ocons looks

inductive Event (V : Type) where
  | produce (msg : Production V)
  | readMessage (looks : List (List (Production V)))
  | storeOffsets (offsets : List TopicPartition)
  | commitOffsets (offsets : List TopicPartition)

def TopicPartition.move (tp : TopicPartition) : (String × Int) × Int := (tp.key, tp.offset)

/-- Whether offsets were stored is told by the error. -/
def storeLabel (offsets : List TopicPartition) : Option GoError → Label (String × Int) V
  | none => .stored (offsets.map TopicPartition.move)
  | some _ => .notStored (offsets.map TopicPartition.move)

def step (s : State V) : Event V → Reply (List (Label (String × Int) V) × State V)
  | .produce msg => (s.clus.produce msg).map fun (made, clus) => (made, { s with clus := clus })
  | .readMessage looks => readMessage s looks
  | .storeOffsets offsets => (s.ocons.storeOffsets offsets).map fun (err, ocons) => ([storeLabel offsets err], { s with ocons := ocons })
  | .commitOffsets offsets => (s.ocons.commitOffsets offsets).map fun (err, ocons) => ([storeLabel offsets err], { s with ocons := ocons })

/-- The labels of a run, and the state it ends in. -/
def run (s : State V) : List (Event V) → Reply (List (Label (String × Int) V) × State V)
  | [] => .ok ([], s)
  | e :: es =>
    match step s e with
    | .error t => .error t
    | .ok (ls, s) =>
      match run s es with
      | .error t => .error t
      | .ok (more, s) => .ok (ls ++ more, s)

/-! ## The reader -/

/-- The position of an assigned partition. -/
def position (partOffs : List PartitionOffset) (key : String × Int) : Option Int :=
  (partOffs.find? fun partOff => partOff.key = key).map PartitionOffset.offset

/-- The values of the messages of a partition. -/
def Cluster.log (clus : Cluster V) (key : String × Int) : List V :=
  match clus.part key with
  | none => []
  | some part => part.messages.map Message.value

/-- The consumer as a reader of assigned logs. -/
def State.reader (s : State V) : Reader (String × Int) V := ⟨s.clus.log, position (s.ocons.partOffs.getD [])⟩

/-- The partitions `keys` are assigned, each once, and exist. -/
structure Ready (keys : List (String × Int)) (s : State V) : Prop where
  some : keys ≠ []
  distinct : keys.Nodup
  assigned : ∃ partOffs, s.ocons.partOffs = Option.some partOffs ∧ partOffs.map PartitionOffset.key = keys
  exist : ∀ key ∈ keys, ∃ part, s.clus.part key = Option.some part

/-- Whoever names an assigned partition names the first one, or also one that is not assigned. -/
def Answerable (keys : List (String × Int)) (offsets : List TopicPartition) : Prop :=
  (∀ tp ∈ offsets, keys.head? = some tp.key) ∨ ∃ tp ∈ offsets, tp.key ∉ keys

def Event.Answerable (keys : List (String × Int)) : Event V → Prop
  | .storeOffsets offsets => Offline.Answerable keys offsets
  | .commitOffsets offsets => Offline.Answerable keys offsets
  | _ => True

/-! ## Producing -/

section
variable {clus clus' : Cluster V} {msg : Production V} {made : List (Label (String × Int) V)} {key : String × Int} {part : Partition V}

/-- A partition knows where it is. -/
theorem place_of_part (h : clus.part key = some part) : part.topic = key.1 ∧ part.index = key.2 := by
  unfold Cluster.part at h
  cases found : clus.topics key.1 with
  | none =>
    rw [found] at h
    cases h
  | some topic =>
    rw [found] at h
    dsimp only at h
    by_cases negative : key.2 < 0
    · rw [if_pos negative] at h
      cases h
    · rw [if_neg negative] at h
      obtain ⟨ht, hi⟩ := topic.places _ _ h
      refine ⟨ht.trans (clus.names _ _ found), ?_⟩
      omega

theorem getPartition_ok {topic : String} {i : Int} : clus.getPartition topic i = .ok part ↔ clus.part (topic, i) = some part := by
  unfold Cluster.getPartition Cluster.part
  cases found : clus.topics topic with
  | none => simp
  | some t =>
    dsimp only
    by_cases beyond : i ≥ t.partitions.length
    · rw [if_pos beyond]
      by_cases negative : i < 0
      · simp [negative]
      · have none : t.partitions[i.toNat]? = none := List.getElem?_eq_none (by omega)
        rw [if_neg negative, none]
        simp
    · rw [if_neg beyond]
      by_cases negative : i < 0
      · simp [negative]
      · rw [if_neg negative, if_neg negative]
        cases t.partitions[i.toNat]? <;> simp

theorem part_put {topic : Topic V} (there : clus.topics topic.name = some topic) (i : Nat) (v : V) (key : String × Int) :
    (clus.put (topic.produce i v)).part key =
      if key = (topic.name, (i : Int)) then (clus.part key).map fun part => part.produce v else clus.part key := by
  obtain ⟨name, index⟩ := key
  unfold Cluster.part
  dsimp only
  by_cases other : name = topic.name
  · subst other
    have found : (clus.put (topic.produce i v)).topics topic.name = some (topic.produce i v) := if_pos rfl
    rw [found, there]
    dsimp only
    by_cases negative : index < 0
    · simp only [if_pos negative, Option.map_none, ite_self]
    · have modified : (topic.produce i v).partitions = topic.partitions.modify i fun part => part.produce v := rfl
      rw [if_neg negative, if_neg negative, modified, List.getElem?_modify]
      by_cases here : i = index.toNat
      · have same : (topic.name, index) = (topic.name, (i : Int)) := by
          rw [here, Int.toNat_of_nonneg (by omega)]
        simp only [if_pos here, if_pos same]
        rfl
      · have differ : (topic.name, index) ≠ (topic.name, (i : Int)) := by
          intro same
          have eq := (Prod.mk.inj same).2
          omega
        rw [if_neg differ]
        simp only [if_neg here]
        exact Option.map_id'
  · have kept : (clus.put (topic.produce i v)).topics name = clus.topics name := if_neg other
    have differ : (name, index) ≠ (topic.name, (i : Int)) := fun same => other (Prod.mk.inj same).1
    rw [kept, if_neg differ]

/-- Producing to a partition puts the message at the end of its log and touches no other. -/
theorem produce_cases (h : clus.produce msg = .ok (made, clus')) :
    (made = [] ∧ clus' = clus) ∨
      made = [.produced msg.key msg.value] ∧
        clus'.log = (fun key => if key = msg.key then clus.log key ++ [msg.value] else clus.log key) ∧
        ∀ key, (clus'.part key).isSome = (clus.part key).isSome := by
  unfold Cluster.produce at h
  cases got : clus.getPartition msg.topic msg.partition with
  | error e =>
    rw [got] at h
    cases e with
    | panic f => cases h
    | err e =>
      cases h
      exact Or.inl ⟨rfl, rfl⟩
  | ok part =>
    rw [got] at h
    dsimp only at h
    cases found : clus.topics part.topic with
    | none =>
      rw [found] at h
      cases h
    | some topic =>
      rw [found] at h
      cases h
      right
      have here : clus.part msg.key = some part := getPartition_ok.1 got
      obtain ⟨ht, hi⟩ := place_of_part here
      have named : topic.name = part.topic := clus.names _ _ found
      have start : 0 ≤ part.index := by
        unfold Cluster.part at here
        by_contra negative
        have negative : msg.key.2 < 0 := by omega
        cases known : clus.topics msg.key.1 with
        | none =>
          rw [known] at here
          cases here
        | some t =>
          rw [known] at here
          dsimp only at here
          rw [if_pos negative] at here
          cases here
      have key_eq : (topic.name, ((part.index.toNat : Nat) : Int)) = msg.key := by
        rw [named, ht, Int.toNat_of_nonneg start, hi]
      have parts := part_put (named ▸ found) part.index.toNat msg.value
      rw [key_eq] at parts
      refine ⟨rfl, ?_, ?_⟩
      · funext key
        unfold Cluster.log
        rw [parts]
        by_cases same : key = msg.key
        · rw [if_pos same, if_pos same, same, here]
          simp [Partition.produce]
        · rw [if_neg same, if_neg same]
      · intro key
        rw [parts]
        by_cases same : key = msg.key
        · rw [if_pos same, Option.isSome_map]
        · rw [if_neg same]

/-- Messages are refused or reach their logs, one after the other. -/
theorem produceAll_steps {msgs : List (Production V)} (h : clus.produceAll msgs = .ok (made, clus')) (pos : String × Int → Option Int) :
    Steps (⟨clus.log, pos⟩ : Reader (String × Int) V) made ⟨clus'.log, pos⟩ ∧ ∀ key, (clus'.part key).isSome = (clus.part key).isSome := by
  induction msgs generalizing clus made with
  | nil =>
    cases h
    exact ⟨.nil _, fun _ => rfl⟩
  | cons msg msgs ih =>
    unfold Cluster.produceAll at h
    cases one : clus.produce msg with
    | error e =>
      rw [one] at h
      cases h
    | ok p =>
      obtain ⟨made1, clus1⟩ := p
      rw [one] at h
      dsimp only at h
      cases rest : clus1.produceAll msgs with
      | error e =>
        rw [rest] at h
        cases h
      | ok p =>
        obtain ⟨more, clus2⟩ := p
        rw [rest] at h
        cases h
        obtain ⟨steps, parts⟩ := ih rest
        obtain ⟨rfl, rfl⟩ | ⟨rfl, log, parts1⟩ := produce_cases one
        · exact ⟨steps, parts⟩
        · refine ⟨.cons ?_ steps, fun key => (parts key).trans (parts1 key)⟩
          have appended : (⟨clus1.log, pos⟩ : Reader (String × Int) V) = (⟨clus.log, pos⟩ : Reader _ V).append msg.key msg.value := by
            rw [log]
            rfl
          rw [appended]
          exact .produced _ _ _

end

/-! ## Looking -/

section
variable {partOffs : List PartitionOffset} {partOff : PartitionOffset} {key : String × Int}

theorem position_of_mem (distinct : (partOffs.map PartitionOffset.key).Nodup) (h : partOff ∈ partOffs) :
    position partOffs partOff.key = some partOff.offset := by
  unfold position
  induction partOffs with
  | nil => cases h
  | cons first rest ih =>
    rw [List.map_cons, List.nodup_cons] at distinct
    rw [List.find?_cons]
    by_cases same : first.key = partOff.key
    · have here : partOff = first := by
        by_contra differ
        have later := List.mem_of_ne_of_mem differ h
        exact distinct.1 (same ▸ List.mem_map_of_mem later)
      rw [decide_eq_true same, here]
      rfl
    · have later : partOff ∈ rest := List.mem_of_ne_of_mem (fun e => same (by rw [e])) h
      rw [decide_eq_false same]
      exact ih distinct.2 later

theorem position_isSome : (position partOffs key).isSome ↔ key ∈ partOffs.map PartitionOffset.key := by
  unfold position
  rw [Option.isSome_map, List.find?_isSome, List.mem_map]
  simp

theorem map_key_set {i : Nat} (here : partOffs[i]? = some partOff) (offset : Int) :
    (partOffs.set i { partOff with offset := offset }).map PartitionOffset.key = partOffs.map PartitionOffset.key := by
  obtain ⟨inside, rfl⟩ := List.getElem?_eq_some_iff.1 here
  have inside' : i < (partOffs.map PartitionOffset.key).length := by
    rw [List.length_map]
    exact inside
  have kept : ({ partOffs[i] with offset := offset } : PartitionOffset).key = (partOffs.map PartitionOffset.key)[i] := by
    rw [List.getElem_map]
    rfl
  rw [List.map_set, kept, List.set_getElem_self]

/-- The position that is set is that of the partition at the place. -/
theorem position_set {i : Nat} (distinct : (partOffs.map PartitionOffset.key).Nodup) (here : partOffs[i]? = some partOff) (offset : Int) :
    position (partOffs.set i { partOff with offset := offset }) =
      fun key => if key = partOff.key then some offset else position partOffs key := by
  funext key
  induction partOffs generalizing i with
  | nil => simp at here
  | cons first rest ih =>
    rw [List.map_cons, List.nodup_cons] at distinct
    cases i with
    | zero =>
      obtain rfl := Option.some.inj here
      show ((({ first with offset := offset } : PartitionOffset) :: rest).find? fun partOff => partOff.key = key).map PartitionOffset.offset = _
      unfold position
      rw [List.find?_cons, List.find?_cons]
      have kept : ({ first with offset := offset } : PartitionOffset).key = first.key := rfl
      rw [kept]
      by_cases same : first.key = key
      · rw [decide_eq_true same, if_pos same.symm]
        rfl
      · rw [decide_eq_false same, if_neg (Ne.symm same)]
    | succ i =>
      have later : rest[i]? = some partOff := here
      have step := ih distinct.2 later
      have differ : first.key ≠ partOff.key := by
        intro same
        exact distinct.1 (same ▸ List.mem_map_of_mem (List.mem_of_getElem? later))
      unfold position at step ⊢
      rw [List.set_cons_succ, List.find?_cons, List.find?_cons]
      by_cases same : first.key = key
      · have other : key ≠ partOff.key := fun e => differ (same.trans e)
        rw [decide_eq_true same, if_neg other]
      · rw [decide_eq_false same]
        exact step

end

theorem getMessage_some {part : Partition V} {offset : Int} {m : Message V} (h : part.getMessage offset = some m) :
    0 ≤ offset ∧ part.messages[offset.toNat]? = some m := by
  unfold Partition.getMessage at h
  by_cases negative : offset < 0
  · rw [if_pos negative] at h
    cases h
  · rw [if_neg negative] at h
    by_cases within : offset < part.messages.length
    · rw [if_pos within] at h
      exact ⟨by omega, h⟩
    · rw [if_neg within] at h
      cases h

/-- A look finds nothing or reads the message at the position of its partition. -/
theorem look_cases {keys : List (String × Int)} {s : State V} (ready : Ready keys s) :
    ∃ found ocons, s.ocons.look s.clus (s.ocons.partOffs.getD []) = .ok (found, ocons) ∧ Ready keys ⟨s.clus, ocons⟩ ∧
      match found with
      | none => (⟨s.clus, ocons⟩ : State V).reader = s.reader
      | some m => Assigned.Step s.reader m.label (⟨s.clus, ocons⟩ : State V).reader := by
  obtain ⟨partOffs, ho, hkeys⟩ := ready.assigned
  have distinct : (partOffs.map PartitionOffset.key).Nodup := hkeys ▸ ready.distinct
  have pos : 0 < partOffs.length := by
    rw [← List.length_map PartitionOffset.key, hkeys]
    exact List.length_pos_iff.2 ready.some
  have inside : (s.ocons.readCount + 1) % partOffs.length < partOffs.length := Nat.mod_lt _ pos
  unfold OfflineConsumer.look State.reader
  simp only [ho, Option.getD_some]
  generalize (s.ocons.readCount + 1) % partOffs.length = i at inside
  have here : partOffs[i]? = some partOffs[i] := List.getElem?_eq_getElem inside
  generalize partOffs[i] = partOff at here
  have mem : partOff ∈ partOffs := List.mem_of_getElem? here
  obtain ⟨part, hpart⟩ := ready.exist partOff.key (hkeys ▸ List.mem_map_of_mem mem)
  rw [here]
  dsimp only
  rw [hpart]
  dsimp only
  cases got : part.getMessage partOff.offset with
  | none => exact ⟨none, _, rfl, ⟨ready.some, ready.distinct, ⟨partOffs, rfl, hkeys⟩, ready.exist⟩, rfl⟩
  | some m =>
    obtain ⟨start, there⟩ := getMessage_some got
    obtain ⟨mt, mp, mo⟩ := part.places _ _ there
    obtain ⟨ht, hi⟩ := place_of_part hpart
    refine ⟨some m, _, rfl, ⟨ready.some, ready.distinct, ⟨_, rfl, (map_key_set here _).trans hkeys⟩, ready.exist⟩, ?_⟩
    have key : (m.topic, m.partition) = partOff.key := by
      rw [mt, mp, ht, hi]
    have offset : m.offset = partOff.offset := by omega
    have value : (s.clus.log partOff.key)[partOff.offset.toNat]? = some m.value := by
      unfold Cluster.log
      rw [hpart]
      dsimp only
      rw [List.getElem?_map, there]
      rfl
    show Assigned.Step _ (.message (m.topic, m.partition) m.offset m.value) _
    rw [key, offset]
    have moved := position_set distinct here (partOff.offset + 1)
    simp only [Option.getD_some]
    rw [moved]
    exact .message (position_of_mem distinct mem) start value

/-! ## Storing -/

section
variable {first : PartitionOffset} {rest : List PartitionOffset} {offsets : List TopicPartition}

/-- Only the first assigned partition is found. -/
theorem findPartOff_cons (tp : TopicPartition) :
    findPartOff tp (first :: rest) 0 none =
      if first.key = tp.key then .ok (some 0)
      else .error (.other s!"Invalid topic partition to commit, {tp.topic}.{tp.partition}") := by
  unfold findPartOff
  have keys : first.key = tp.key ↔ first.topic = tp.topic ∧ first.index = tp.partition := by
    simp [PartitionOffset.key, TopicPartition.key]
  by_cases same : first.key = tp.key
  · rw [if_pos (keys.1 same), if_pos same]
  · rw [if_neg (fun h => same (keys.2 h)), if_neg same, if_pos rfl]

theorem findPartOffs_first (h : ∀ tp ∈ offsets, first.key = tp.key) :
    findPartOffs (first :: rest) offsets = .ok (offsets.map fun _ => some 0) := by
  induction offsets with
  | nil => rfl
  | cons tp offsets ih =>
    rw [findPartOffs, findPartOff_cons, if_pos (h tp List.mem_cons_self), ih fun tp' h' => h tp' (List.mem_cons_of_mem _ h')]
    rfl

theorem findPartOffs_other (h : ∃ tp ∈ offsets, first.key ≠ tp.key) : ∃ e, findPartOffs (first :: rest) offsets = .error e := by
  induction offsets with
  | nil =>
    obtain ⟨tp, mem, -⟩ := h
    cases mem
  | cons tp offsets ih =>
    rw [findPartOffs, findPartOff_cons]
    by_cases same : first.key = tp.key
    · obtain ⟨tp', mem, differ⟩ := h
      have later : tp' ∈ offsets := List.mem_of_ne_of_mem (fun e => differ (e ▸ same)) mem
      obtain ⟨e, he⟩ := ih ⟨tp', later, differ⟩
      rw [if_pos same, he]
      exact ⟨e, rfl⟩
    · rw [if_neg same]
      exact ⟨_, rfl⟩

/-- The first partition is moved to one offset after the other. -/
theorem setOffsets_first (log : String × Int → List V) (distinct : ((first :: rest).map PartitionOffset.key).Nodup)
    (h : ∀ tp ∈ offsets, first.key = tp.key) :
    ∃ offset, setOffsets offsets (offsets.map fun _ => some 0) (first :: rest) = .ok ({ first with offset := offset } :: rest) ∧
      (⟨log, position ({ first with offset := offset } :: rest)⟩ : Reader (String × Int) V) =
        (⟨log, position (first :: rest)⟩ : Reader _ V).moveAll (offsets.map TopicPartition.move) := by
  induction offsets generalizing first with
  | nil => exact ⟨first.offset, rfl, rfl⟩
  | cons tp offsets ih =>
    have here := h tp List.mem_cons_self
    obtain ⟨offset, run, moved⟩ := @ih { first with offset := tp.offset } distinct fun tp' h' => h tp' (List.mem_cons_of_mem _ h')
    refine ⟨offset, run, moved.trans ?_⟩
    have one : position ({ first with offset := tp.offset } :: rest) = fun key => if key = first.key then some tp.offset else position (first :: rest) key :=
      position_set (i := 0) distinct rfl tp.offset
    show _ = ((⟨log, position (first :: rest)⟩ : Reader _ V).move tp.key tp.offset).moveAll _
    rw [one, ← here]
    rfl

end

section
variable {keys : List (String × Int)} {s s' : State V} {offsets : List TopicPartition}

/-- A store that is answerable moves just what it names, or nothing. -/
theorem storeOffsets_cases (ready : Ready keys s) (offsets : List TopicPartition) :
    ∃ err ocons, s.ocons.storeOffsets offsets = .ok (err, ocons) ∧ Ready keys ⟨s.clus, ocons⟩ ∧
      (Answerable keys offsets → Assigned.Step s.reader (storeLabel offsets err) (⟨s.clus, ocons⟩ : State V).reader) := by
  obtain ⟨partOffs, ho, hkeys⟩ := ready.assigned
  cases partOffs with
  | nil => exact absurd hkeys.symm ready.some
  | cons first rest =>
    have distinct : ((first :: rest).map PartitionOffset.key).Nodup := hkeys ▸ ready.distinct
    have position_eq : s.reader.position = position (first :: rest) := by
      unfold State.reader
      rw [ho]
      rfl
    unfold OfflineConsumer.storeOffsets
    rw [ho, Option.getD_some]
    by_cases all : ∀ tp ∈ offsets, first.key = tp.key
    · obtain ⟨offset, run, moved⟩ := setOffsets_first s.clus.log distinct all
      rw [findPartOffs_first all]
      dsimp only
      rw [run]
      refine ⟨none, _, rfl, ⟨ready.some, ready.distinct, ⟨_, rfl, hkeys⟩, ready.exist⟩, fun _ => ?_⟩
      have reader : s.reader = ⟨s.clus.log, position (first :: rest)⟩ := by
        rw [← position_eq]
        rfl
      show Assigned.Step s.reader (.stored _) ⟨s.clus.log, position ({ first with offset := offset } :: rest)⟩
      rw [moved, reader]
      refine .stored ?_
      intro m hm
      obtain ⟨tp, htp, rfl⟩ := List.mem_map.1 hm
      show (position (first :: rest) tp.key).isSome
      rw [← all tp htp, position_of_mem distinct List.mem_cons_self]
      rfl
    · have other : ∃ tp ∈ offsets, first.key ≠ tp.key := by
        by_contra none
        exact all fun tp htp => by_contra fun differ => none ⟨tp, htp, differ⟩
      obtain ⟨e, he⟩ : ∃ e, findPartOffs (first :: rest) offsets = .error e := findPartOffs_other other
      rw [he]
      refine ⟨some e, _, rfl, ready, fun answerable => ?_⟩
      have foreign : ∃ tp ∈ offsets, tp.key ∉ keys := by
        obtain every | foreign := answerable
        · obtain ⟨tp, htp, differ⟩ := other
          have head := every tp htp
          rw [← hkeys] at head
          exact absurd (Option.some.inj head) differ
        · exact foreign
      obtain ⟨tp, htp, absent⟩ := foreign
      refine .notStored ⟨tp.move, List.mem_map_of_mem htp, ?_⟩
      rw [position_eq]
      rw [← hkeys] at absent
      exact Option.not_isSome_iff_eq_none.1 (fun found => absent (position_isSome.1 found))

/-! ## Runs -/

theorem Ready.of_parts {clus : Cluster V} (ready : Ready keys s) (parts : ∀ key, (clus.part key).isSome = (s.clus.part key).isSome) :
    Ready keys ⟨clus, s.ocons⟩ where
  some := ready.some
  distinct := ready.distinct
  assigned := ready.assigned
  exist := by
    intro key hk
    obtain ⟨part, hpart⟩ := ready.exist key hk
    apply Option.isSome_iff_exists.1
    show (clus.part key).isSome = true
    rw [parts, hpart]
    rfl

theorem readLoop_steps {looks : List (List (Production V))} {ls : List (Label (String × Int) V)} (ready : Ready keys s)
    (h : readLoop s.clus s.ocons looks = .ok (ls, s')) : Steps s.reader ls s'.reader ∧ Ready keys s' := by
  induction looks generalizing s ls with
  | nil =>
    cases h
    exact ⟨.nil _, ready⟩
  | cons msgs looks ih =>
    unfold readLoop at h
    cases one : s.clus.produceAll msgs with
    | error e =>
      rw [one] at h
      cases h
    | ok p =>
      obtain ⟨made, clus⟩ := p
      rw [one] at h
      dsimp only at h
      obtain ⟨before, parts⟩ := produceAll_steps one (position (s.ocons.partOffs.getD []))
      obtain ⟨found, ocons, look, ready', reads⟩ := look_cases (ready.of_parts parts)
      dsimp only at look ready' reads
      rw [look] at h
      cases found with
      | some m =>
        cases h
        exact ⟨before.append (.single reads), ready'⟩
      | none =>
        dsimp only at h
        cases more : readLoop clus ocons looks with
        | error e =>
          rw [more] at h
          cases h
        | ok p =>
          obtain ⟨rest, s2⟩ := p
          rw [more] at h
          cases h
          obtain ⟨steps, ready2⟩ := ih ready' more
          rw [reads] at steps
          exact ⟨before.append steps, ready2⟩

theorem step_steps {e : Event V} {ls : List (Label (String × Int) V)} (ready : Ready keys s) (answerable : e.Answerable keys)
    (h : step s e = .ok (ls, s')) : Steps s.reader ls s'.reader ∧ Ready keys s' := by
  cases e with
  | produce msg =>
    cases one : s.clus.produce msg with
    | error e =>
      rw [step, one] at h
      cases h
    | ok p =>
      obtain ⟨made, clus⟩ := p
      rw [step, one] at h
      cases h
      have all : s.clus.produceAll [msg] = .ok (ls, clus) := by
        rw [Cluster.produceAll, one]
        simp [Cluster.produceAll]
      obtain ⟨steps, parts⟩ := produceAll_steps all s.reader.position
      exact ⟨steps, ready.of_parts parts⟩
  | readMessage looks =>
    obtain ⟨partOffs, ho, -⟩ := ready.assigned
    have loop : readLoop s.clus s.ocons looks = .ok (ls, s') := by
      rw [step, readMessage, ho] at h
      exact h
    exact readLoop_steps ready loop
  | storeOffsets offsets =>
    obtain ⟨err, ocons, run, ready', moves⟩ := storeOffsets_cases ready offsets
    rw [step, run] at h
    cases h
    exact ⟨.single (moves answerable), ready'⟩
  | commitOffsets offsets =>
    obtain ⟨err, ocons, run, ready', moves⟩ := storeOffsets_cases ready offsets
    rw [step, OfflineConsumer.commitOffsets, run] at h
    cases h
    exact ⟨.single (moves answerable), ready'⟩

theorem run_steps {es : List (Event V)} {ls : List (Label (String × Int) V)} (ready : Ready keys s)
    (answerable : ∀ e ∈ es, e.Answerable keys) (h : run s es = .ok (ls, s')) : Steps s.reader ls s'.reader ∧ Ready keys s' := by
  induction es generalizing s ls with
  | nil =>
    cases h
    exact ⟨.nil _, ready⟩
  | cons e es ih =>
    unfold run at h
    cases one : step s e with
    | error t =>
      rw [one] at h
      cases h
    | ok p =>
      obtain ⟨ls1, s1⟩ := p
      rw [one] at h
      dsimp only at h
      cases more : run s1 es with
      | error t =>
        rw [more] at h
        cases h
      | ok p =>
        obtain ⟨ls2, s2⟩ := p
        rw [more] at h
        cases h
        obtain ⟨first, ready1⟩ := step_steps ready (answerable e List.mem_cons_self) one
        obtain ⟨rest, ready2⟩ := ih ready1 (fun e' h' => answerable e' (List.mem_cons_of_mem _ h')) more
        exact ⟨first.append rest, ready2⟩

/-! ## No panics -/

/-- A partition number below zero lets `GetPartition` panic. -/
def Event.Sendable : Event V → Prop
  | .produce msg => 0 ≤ msg.partition
  | .readMessage looks => ∀ msgs ∈ looks, ∀ msg ∈ msgs, 0 ≤ msg.partition
  | _ => True

theorem produce_ok (clus : Cluster V) {msg : Production V} (h : 0 ≤ msg.partition) : ∃ made clus', clus.produce msg = .ok (made, clus') := by
  unfold Cluster.produce
  cases got : clus.getPartition msg.topic msg.partition with
  | error e =>
    cases e with
    | err e => exact ⟨_, _, rfl⟩
    | panic f =>
      unfold Cluster.getPartition at got
      cases found : clus.topics msg.topic with
      | none =>
        rw [found] at got
        cases got
      | some topic =>
        rw [found] at got
        dsimp only at got
        by_cases beyond : msg.partition ≥ topic.partitions.length
        · rw [if_pos beyond] at got
          cases got
        · have inside : msg.partition.toNat < topic.partitions.length := by omega
          rw [if_neg beyond, if_neg (by omega), List.getElem?_eq_getElem inside] at got
          cases got
  | ok part =>
    have here : clus.part msg.key = some part := getPartition_ok.1 got
    have named := (place_of_part here).1
    cases found : clus.topics part.topic with
    | some topic =>
      dsimp only
      rw [found]
      exact ⟨_, _, rfl⟩
    | none =>
      unfold Cluster.part at here
      rw [← named, found] at here
      cases here

theorem produceAll_ok (clus : Cluster V) {msgs : List (Production V)} (h : ∀ msg ∈ msgs, 0 ≤ msg.partition) :
    ∃ made clus', clus.produceAll msgs = .ok (made, clus') := by
  induction msgs generalizing clus with
  | nil => exact ⟨_, _, rfl⟩
  | cons msg msgs ih =>
    obtain ⟨made, clus1, one⟩ := produce_ok clus (h msg List.mem_cons_self)
    obtain ⟨more, clus2, rest⟩ := ih clus1 fun msg' h' => h msg' (List.mem_cons_of_mem _ h')
    rw [Cluster.produceAll, one]
    dsimp only
    rw [rest]
    exact ⟨_, _, rfl⟩

theorem readLoop_ok {looks : List (List (Production V))} (ready : Ready keys s) (h : ∀ msgs ∈ looks, ∀ msg ∈ msgs, 0 ≤ msg.partition) :
    ∃ ls s', readLoop s.clus s.ocons looks = .ok (ls, s') := by
  induction looks generalizing s with
  | nil => exact ⟨_, _, rfl⟩
  | cons msgs looks ih =>
    obtain ⟨made, clus, one⟩ := produceAll_ok s.clus (h msgs List.mem_cons_self)
    obtain ⟨-, parts⟩ := produceAll_steps one s.reader.position
    obtain ⟨found, ocons, look, ready', -⟩ := look_cases (ready.of_parts parts)
    dsimp only at look ready'
    rw [readLoop, one]
    dsimp only
    rw [look]
    cases found with
    | some m => exact ⟨_, _, rfl⟩
    | none =>
      obtain ⟨rest, s2, more⟩ := ih ready' fun msgs' h' => h msgs' (List.mem_cons_of_mem _ h')
      dsimp only at more ⊢
      rw [more]
      exact ⟨_, _, rfl⟩

theorem step_ok {e : Event V} (ready : Ready keys s) (sendable : e.Sendable) : ∃ ls s', step s e = .ok (ls, s') := by
  cases e with
  | produce msg =>
    obtain ⟨made, clus, one⟩ := produce_ok s.clus sendable
    rw [step, one]
    exact ⟨_, _, rfl⟩
  | readMessage looks =>
    obtain ⟨partOffs, ho, -⟩ := ready.assigned
    rw [step, readMessage, ho]
    exact readLoop_ok ready sendable
  | storeOffsets offsets =>
    obtain ⟨err, ocons, run, -⟩ := storeOffsets_cases ready offsets
    rw [step, run]
    exact ⟨_, _, rfl⟩
  | commitOffsets offsets =>
    obtain ⟨err, ocons, run, -⟩ := storeOffsets_cases ready offsets
    rw [step, OfflineConsumer.commitOffsets, run]
    exact ⟨_, _, rfl⟩

theorem run_ok {es : List (Event V)} (ready : Ready keys s) (answerable : ∀ e ∈ es, e.Answerable keys) (sendable : ∀ e ∈ es, e.Sendable) :
    ∃ ls s', run s es = .ok (ls, s') := by
  induction es generalizing s with
  | nil => exact ⟨_, _, rfl⟩
  | cons e es ih =>
    obtain ⟨ls, s1, one⟩ := step_ok ready (sendable e List.mem_cons_self)
    obtain ⟨-, ready1⟩ := step_steps ready (answerable e List.mem_cons_self) one
    obtain ⟨more, s2, rest⟩ := ih ready1 (fun e' h' => answerable e' (List.mem_cons_of_mem _ h')) fun e' h' => sendable e' (List.mem_cons_of_mem _ h')
    rw [run, one]
    dsimp only
    rw [rest]
    exact ⟨_, _, rfl⟩

end

/-! ## An assigned consumer -/

/-- The assigned partitions, with the offsets that were asked for. -/
theorem assignPartitions_ok {clus : Cluster V} {partitions : List TopicPartition}
    (exist : ∀ tp ∈ partitions, (clus.part tp.key).isSome) :
    ∃ partOffs, assignPartitions clus partitions = .ok partOffs ∧
      List.Forall₂ (fun tp partOff => partOff.key = tp.key ∧
        ∃ part, clus.part tp.key = some part ∧ partOff.offset = startOffset part tp.offset) partitions partOffs := by
  induction partitions with
  | nil => exact ⟨[], rfl, .nil⟩
  | cons tp partitions ih =>
    obtain ⟨part, here⟩ := Option.isSome_iff_exists.1 (exist tp List.mem_cons_self)
    obtain ⟨partOffs, rest, all⟩ := ih fun tp' h' => exist tp' (List.mem_cons_of_mem _ h')
    obtain ⟨ht, hi⟩ := place_of_part here
    have got : clus.getPartition tp.topic tp.partition = .ok part := getPartition_ok.2 here
    rw [assignPartitions, assignPartition, got]
    dsimp only
    rw [rest]
    refine ⟨_, rfl, .cons ⟨?_, part, here, rfl⟩ all⟩
    exact Prod.ext ht hi

/-- A consumer with these partitions behaves, over these events, as a reader of assigned logs: it
starts where it was told to, no call panics, every call does what the label says, and of each
partition the messages between two stores have consecutive offsets. -/
def Behaves (clus : Cluster V) (partitions : List TopicPartition) (events : List (Event V)) : Prop :=
  ∃ ocons, newOfflineConsumer.assign clus partitions = .ok ocons ∧
    let start : Reader (String × Int) V := State.reader ⟨clus, ocons⟩
    let keys := partitions.map TopicPartition.key
    (∀ tp ∈ partitions, ∃ part, clus.part tp.key = some part ∧ start.position tp.key = some (startOffset part tp.offset)) ∧
    (∀ key, (start.position key).isSome ↔ key ∈ keys) ∧
    ((∀ e ∈ events, e.Sendable) → ∃ ls s', run ⟨clus, ocons⟩ events = .ok (ls, s')) ∧
    ∀ ls s', run ⟨clus, ocons⟩ events = .ok (ls, s') → Steps start ls s'.reader ∧
      ∀ before segment after, ls = before ++ (segment ++ after) → ∀ key ∈ keys, (∀ l ∈ segment, ¬l.Moves key) →
        ∃ r offset, Steps start before r ∧ r.position key = some offset ∧
          offsetsOf key segment = consecutive offset (offsetsOf key segment).length

/-- Where the partitions are assigned once each and every store names the first of them only, or one
that is not assigned, the consumer behaves. -/
theorem offlineConsumer_behaves {clus : Cluster V} {partitions : List TopicPartition} {events : List (Event V)}
    (some : partitions ≠ []) (exist : ∀ tp ∈ partitions, (clus.part tp.key).isSome)
    (distinct : (partitions.map TopicPartition.key).Nodup)
    (answerable : ∀ e ∈ events, e.Answerable (partitions.map TopicPartition.key)) : Behaves clus partitions events := by
  obtain ⟨partOffs, assigned, all⟩ := assignPartitions_ok exist
  have hkeys : partOffs.map PartitionOffset.key = partitions.map TopicPartition.key := Entries.forall₂_map all fun _ _ h => h.1
  have ready : Ready (partitions.map TopicPartition.key) ⟨clus, ⟨0, Option.some partOffs⟩⟩ :=
    { some := by simpa using some
      distinct := distinct
      assigned := ⟨partOffs, rfl, hkeys⟩
      exist := by
        intro key hk
        obtain ⟨tp, htp, rfl⟩ := List.mem_map.1 hk
        exact Option.isSome_iff_exists.1 (exist tp htp) }
  have known : ∀ key, (position partOffs key).isSome ↔ key ∈ partitions.map TopicPartition.key := by
    intro key
    rw [position_isSome, hkeys]
  refine ⟨⟨0, Option.some partOffs⟩, ?_, ?_, known, run_ok ready answerable, ?_⟩
  · rw [OfflineConsumer.assign, assigned]
    rfl
  · intro tp htp
    obtain ⟨partOff, mem, key, part, here, offset⟩ := Entries.forall₂_left all htp
    refine ⟨part, here, ?_⟩
    rw [← key, ← offset]
    exact position_of_mem (hkeys ▸ distinct) mem
  · intro ls s' h
    obtain ⟨steps, -⟩ := run_steps ready answerable h
    refine ⟨steps, ?_⟩
    intro before segment after split key hk still
    rw [split] at steps
    obtain ⟨r, front, back⟩ := steps.split
    obtain ⟨r', middle, -⟩ := back.split
    have there : (r.position key).isSome := by
      rw [front.assigned]
      exact (known key).2 hk
    obtain ⟨offset, here⟩ := Option.isSome_iff_exists.1 there
    exact ⟨r, offset, front, here, (middle.consecutive here still).1⟩

/-- A cluster with one topic of two partitions. -/
def twoPartitions : Cluster Nat :=
  newCluster.put
    { name := "orders"
      partitions := [newPartition "orders" 0, newPartition "orders" 1]
      places := by
        intro i part h
        match i, h with
        | 0, h =>
          obtain rfl := Option.some.inj h
          exact ⟨rfl, rfl⟩
        | 1, h =>
          obtain rfl := Option.some.inj h
          exact ⟨rfl, rfl⟩ }

/-- Both partitions are assigned, both get a message, and only the first is stored to. -/
theorem offlineConsumer_behaves_stored :
    Behaves twoPartitions [⟨"orders", 0, -2⟩, ⟨"orders", 1, -2⟩]
      [.produce ⟨"orders", 0, 7⟩, .readMessage [[⟨"orders", 1, 8⟩], []], .storeOffsets [⟨"orders", 0, 1⟩],
        .commitOffsets [⟨"orders", 1, 0⟩, ⟨"invoices", 0, 0⟩]] := by
  apply offlineConsumer_behaves
  · decide
  · decide
  · decide
  · intro e he
    simp only [List.mem_cons, List.not_mem_nil, or_false] at he
    obtain rfl | rfl | rfl | rfl := he
    · exact trivial
    · exact trivial
    · exact Or.inl (by decide)
    · exact Or.inr (by decide)

/-- The second of two assigned partitions cannot be stored to. -/
theorem offlineConsumer_misbehaves :
    ¬Behaves twoPartitions [⟨"orders", 0, 0⟩, ⟨"orders", 1, 0⟩] [.storeOffsets [⟨"orders", 1, 5⟩]] := by
  intro h
  obtain ⟨ocons, assigned, positions, -, -, runs⟩ := h
  have here : ocons = ⟨0, some [⟨"orders", 0, 0⟩, ⟨"orders", 1, 0⟩]⟩ := (Except.ok.inj assigned).symm
  subst here
  obtain ⟨steps, -⟩ := runs [.notStored [(("orders", 1), 5)]] _ rfl
  cases steps with
  | cons step rest =>
    cases step with
    | notStored foreign =>
      obtain ⟨m, hm, absent⟩ := foreign
      obtain rfl := List.mem_singleton.1 hm
      have there : (State.reader ⟨twoPartitions, ⟨0, some [⟨"orders", 0, 0⟩, ⟨"orders", 1, 0⟩]⟩⟩).position ("orders", 1) = some 0 := by
        decide
      rw [there] at absent
      cases absent

end Rocketcycle.Offline
