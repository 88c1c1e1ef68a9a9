import Rocketcycle.Apecs.Marshalled
import Rocketcycle.Lib.Lockstep
import Rocketcycle.Lib.Runes
import Rocketcycle.Net.ConsumeTopic
import Rocketcycle.Net.Delivery
import Rocketcycle.Rkcy.TxnWire

/-!
# Records on the topics

The whole system once more, on the level of `pkg/rkcy/kafka.go`: a partition is a log of records, each
with its headers and its bytes, and a consumer makes of the record at its position what
`consumeMessage` makes of it. Offsets count the records of a partition. Related by what is still to
be read, it is in lockstep with the system of messages.
-/

namespace Rocketcycle

open Runs

variable {M : Type}

/-! ## Headers -/

/-- A message as it is appended to a partition, where it gets its offset. -/
structure Record where
  headers : List (String × Option Bytes)
  value : Bytes
  deriving DecidableEq, Repr

def Record.at (r : Record) (offset : Nat) : KafkaMessage := ⟨r.headers, r.value, offset⟩

/-- `IntToBytes`: the low four bytes, the lowest first. -/
def intToBytes (num : Int) : Bytes := [0, 8, 16, 24].map fun k => UInt8.ofNat (num / 2 ^ k % 256).toNat

/-- `StandardHeaders`. -/
def standardHeaders (directive : Int) (traceParent : String) : List (String × Option Bytes) :=
  if traceParentIsValid traceParent then
    [(directiveHeader, some (intToBytes directive)), (traceParentHeader, some (stringBytes traceParent))]
  else [(directiveHeader, some (intToBytes directive))]

/-- `proto.Marshal` and `proto.Unmarshal` of an `ApecsTxn`: what has been written is read as the model
takes both in one step. -/
structure TxnCodec extends TxnDecoder where
  marshal : ApecsTxn → Except GoError Bytes
  roundTrip : ∀ txn, txn.inRange = true → marshal txn >>= unmarshal = marshalTxn txn

/-- `NewKafkaMessage` of a transaction. -/
def newKafkaMessage (codec : TxnCodec) (txn : ApecsTxn) (traceParent : String) : Except GoError Record :=
  (codec.marshal txn).map fun value => ⟨standardHeaders directiveApecsTxn traceParent, value⟩

def isAscii (s : String) : Bool := s.toList.all fun c => decide (c.toNat < 128)

theorem goString_stringBytes {s : String} (ascii : isAscii s = true) : goString (stringBytes s) = s := by
  have bytes : stringBytes s = Utf8.encode s.toList := by
    have encoded : s.toByteArray = s.toList.utf8Encode := by
      conv_lhs => rw [← String.ofList_toList (s := s)]
      exact String.toByteArray_ofList
    unfold stringBytes
    rw [Utf8.toList_eq]
    show s.toByteArray.data.toList = _
    rw [encoded]
    simp [List.utf8Encode, Utf8.encode]
  have chars : ∀ cs : List Char, cs.all (fun c => decide (c.toNat < 128)) = true →
      (Utf8.encode cs).map (fun b => Char.ofNat b.toNat) = cs := by
    intro cs
    induction cs with
    | nil => intro _; rfl
    | cons c cs ih =>
      intro all
      simp only [List.all_cons, Bool.and_eq_true, decide_eq_true_eq] at all
      rcases Utf8.utf8EncodeChar_cases c with ⟨-, one⟩ | ⟨large, -⟩
      · have small : (UInt8.ofNat c.toNat).toNat = c.toNat := by
          rw [UInt8.toNat_ofNat']
          omega
        rw [Utf8.encode_cons, one, List.singleton_append, List.map_cons, ih all.2, small, Char.ofNat_toNat]
      · omega
  unfold goString
  rw [bytes, chars _ ascii, String.ofList_toList]

section
variable {directive : Int} {traceParent : String} {value : Bytes} {offset : Int}

theorem standardHeaders_head (directive : Int) (traceParent : String) :
    ∃ rest, standardHeaders directive traceParent = (directiveHeader, some (intToBytes directive)) :: rest := by
  unfold standardHeaders
  split
  · exact ⟨_, rfl⟩
  · exact ⟨_, rfl⟩

/-- A directive is read as it has been written. -/
theorem getDirective_standardHeaders (inRange : Wire.inBits 32 directive = true) :
    getDirective ⟨standardHeaders directive traceParent, value, offset⟩ = some directive := by
  have found : findHeader ⟨standardHeaders directive traceParent, value, offset⟩ directiveHeader = some (intToBytes directive) := by
    unfold findHeader
    rcases standardHeaders_head directive traceParent with ⟨rest, same⟩
    rw [same]
    rfl
  have digit : ∀ k : Nat, (UInt8.ofNat (directive / 2 ^ k % 256).toNat).toNat = (directive / 2 ^ k % 256).toNat := by
    intro k
    rw [UInt8.toNat_ofNat']
    omega
  rw [Wire.inBits_iff] at inRange
  unfold getDirective
  rw [found]
  have low : intToBytes directive = [UInt8.ofNat (directive / 2 ^ 0 % 256).toNat, UInt8.ofNat (directive / 2 ^ 8 % 256).toNat,
      UInt8.ofNat (directive / 2 ^ 16 % 256).toNat, UInt8.ofNat (directive / 2 ^ 24 % 256).toNat] := rfl
  have sum : bytesToInt (intToBytes directive) = some (directive % ((2 ^ 32 : Nat) : Int)) := by
    rw [low]
    simp only [bytesToInt, digit, Option.some.injEq]
    omega
  show (bytesToInt (intToBytes directive)).map (fun n => n.bmod (2 ^ 32)) = some directive
  rw [sum, Option.map_some, Option.some.injEq, Int.emod_bmod]
  apply Int.bmod_eq_of_le
  · omega
  · omega

theorem getTraceParent_standardHeaders (ascii : isAscii traceParent = true) :
    getTraceParent ⟨standardHeaders directive traceParent, value, offset⟩ =
      if traceParentIsValid traceParent then traceParent else "" := by
  unfold standardHeaders
  split
  · exact goString_stringBytes ascii
  · rfl

end

/-! ## The system of records -/

/-- The state of the system, with the records of every partition and the position of its consumer. -/
structure RecordNet (M : Type) where
  logs : TopicPartition → List Record
  position : TopicPartition → Nat
  stores : TopicPartition → InstanceStore
  ramDbs : String → RamDb M
  complete : List Record
  errors : List Record

def RecordNet.append (c : RecordNet M) (tp : TopicPartition) (r : Record) : RecordNet M :=
  { c with logs := fun t => if t = tp then c.logs t ++ [r] else c.logs t }

namespace Deployment

variable (d : Deployment M) (codec : TxnCodec)

/-- A message is produced. Numbers that the types of the code do not have, and what does not reach its
topic, are no step of the system. -/
def send (c : RecordNet M) (p : Publication) : Option (RecordNet M) :=
  if p.txn.inRange then
    match newKafkaMessage codec p.txn p.traceParent with
    | .error _ => none
    | .ok record =>
      match p.dest with
      | .response _ => some c
      | .topic concern name =>
        match name.system with
        | some system =>
          if d.partitions concern system = 0 || !p.fits then none
          else some (c.append (d.partitionOf concern system p.hashKey) record)
        | none =>
          if name = .complete then some { c with complete := c.complete ++ [record] }
          else some { c with errors := c.errors ++ [record] }
  else none

def sendAll (c : RecordNet M) : List Publication → Option (RecordNet M)
  | [] => some c
  | p :: ps =>
    match d.send codec c p with
    | none => none
    | some c => sendAll c ps

/-- What comes of an iteration of a consumer, `none` being a crash of the process. A restarted consumer
has an empty store and the same record before it. -/
def settle (c : RecordNet M) (tp : TopicPartition) (it : Iteration M) : Option (RecordNet M) :=
  if it.fault.isSome then none
  else if it.bailsOut then
    d.sendAll codec { c with stores := fun t => if t = tp then InstanceStore.new else c.stores t, ramDbs := it.state.ramDbs }
      it.published
  else
    d.sendAll codec
      { c with
        position := fun t => if t = tp then c.position tp + 1 else c.position t,
        stores := fun t => if t = tp then it.state.instanceStore else c.stores t,
        ramDbs := it.state.ramDbs }
      it.published

/-- One record of a consumer. No transaction is cancelled. -/
def consumeRecord (c : RecordNet M) (tp : TopicPartition) (env : Env) (logic : LogicHandler M) : Option (RecordNet M) :=
  match (c.logs tp)[c.position tp]? with
  | none => none
  | some record =>
    d.settle codec c tp (consumeMessage d.cc codec.toTxnDecoder env logic (fun _ => false) (d.target tp.system).name (d.topicParts tp) tp.partition
      ⟨c.stores tp, c.ramDbs⟩ (record.at (c.position tp)))

def recordStep (c : RecordNet M) : Action M → Option (RecordNet M)
  | .submit env traceParent txn respTarget =>
    match executeTxnAsync env traceParent (some txn) respTarget with
    | .error _ => none
    | .ok p => d.send codec c p
  | .consume tp env logic => d.consumeRecord codec c tp env logic

/-- What is published in a step. -/
def sends (net : Net M) : Action M → List Publication
  | .submit env traceParent txn respTarget => (executeTxnAsync env traceParent (some txn) respTarget).toOption.toList
  | .consume tp env logic =>
    match net.take tp with
    | none => []
    | some (p, _) =>
      match newRtApecsTxn p.txn p.traceParent with
      | some (.ok _) => (d.outcome net tp env logic p).published
      | _ => []

def sendsInRange (net : Net M) (a : Action M) : Bool := (d.sends net a).all fun p => p.txn.inRange

end Deployment

/-- The trace parents that a context has are ASCII. -/
def Action.asciiContext : Action M → Bool
  | .submit _ traceParent _ _ => isAscii traceParent
  | .consume .. => true

/-! ## Records and messages -/

/-- A message that can be read off its record. -/
structure Legible (p : Publication) : Prop where
  marshalled : ∃ txn, marshalTxn txn = .ok p.txn
  ascii : isAscii p.traceParent = true

structure WrittenAs (codec : TxnCodec) (p : Publication) (r : Record) : Prop where
  legible : Legible p
  inRange : p.txn.inRange = true
  written : newKafkaMessage codec p.txn p.traceParent = .ok r

/-- The records from the positions of the consumers on are the messages in flight. -/
structure Represents (codec : TxnCodec) (c : RecordNet M) (net : Net M) : Prop where
  position : c.position = net.next
  stores : c.stores = net.stores
  ramDbs : c.ramDbs = net.ramDbs
  inside : ∀ tp, c.position tp ≤ (c.logs tp).length
  unread : ∀ tp, List.Forall₂ (WrittenAs codec) ((net.inFlight.filter fun m => m.1 = tp).map Prod.snd)
    ((c.logs tp).drop (c.position tp))
  complete : List.Forall₂ (WrittenAs codec) net.completed c.complete
  errors : List.Forall₂ (WrittenAs codec) net.errors c.errors

section
variable {d : Deployment M} {codec : TxnCodec} {c : RecordNet M} {net : Net M} {p : Publication} {r : Record}

/-- What a consumer finds in the record of a message. -/
theorem WrittenAs.found (h : WrittenAs codec p r) (offset : Nat) :
    getDirective (r.at offset) = some directiveApecsTxn ∧ codec.unmarshal r.value = .ok p.txn ∧
      newRtApecsTxn p.txn (getTraceParent (r.at offset)) = newRtApecsTxn p.txn p.traceParent := by
  have written := h.written
  unfold newKafkaMessage at written
  cases encoded : codec.marshal p.txn with
  | error e =>
    rw [encoded] at written
    cases written
  | ok value =>
    rw [encoded] at written
    obtain rfl := Except.ok.inj written
    refine ⟨getDirective_standardHeaders (by decide), ?_, ?_⟩
    · obtain ⟨txn, marshalled⟩ := h.legible.marshalled
      have read := codec.roundTrip p.txn h.inRange
      rw [encoded, marshalTxn_again marshalled] at read
      exact read
    · show newRtApecsTxn p.txn (getTraceParent ⟨standardHeaders directiveApecsTxn p.traceParent, value, offset⟩) = _
      have traceParent : getTraceParent ⟨standardHeaders directiveApecsTxn p.traceParent, value, offset⟩ =
          if traceParentIsValid p.traceParent then p.traceParent else "" := getTraceParent_standardHeaders h.legible.ascii
      rw [traceParent]
      split
      · rfl
      · rename_i invalid
        have empty : traceParentIsValid "" = false := by decide
        simp [newRtApecsTxn, invalid, empty]

theorem Legible.written (h : Legible p) (inRange : p.txn.inRange = true) :
    ∃ r, newKafkaMessage codec p.txn p.traceParent = .ok r ∧ WrittenAs codec p r := by
  obtain ⟨txn, marshalled⟩ := h.marshalled
  have again := marshalTxn_again marshalled
  cases encoded : codec.marshal p.txn with
  | error e =>
    have read := codec.roundTrip p.txn inRange
    rw [encoded, again] at read
    cases read
  | ok value =>
    have written : newKafkaMessage codec p.txn p.traceParent = .ok ⟨standardHeaders directiveApecsTxn p.traceParent, value⟩ := by
      unfold newKafkaMessage
      rw [encoded]
      rfl
    exact ⟨_, written, h, inRange, written⟩

/-! ## Deliveries -/

theorem Represents.arrive (h : Represents codec c net) (written : WrittenAs codec p r) (tp : TopicPartition) :
    Represents codec (c.append tp r) { net with inFlight := net.inFlight ++ [(tp, p)] } where
  position := h.position
  stores := h.stores
  ramDbs := h.ramDbs
  inside t := by
    have inside := h.inside t
    show c.position t ≤ (if t = tp then c.logs t ++ [r] else c.logs t).length
    split
    · rw [List.length_append]
      omega
    · exact inside
  unread t := by
    have unread := h.unread t
    show List.Forall₂ (WrittenAs codec) (((net.inFlight ++ [(tp, p)]).filter fun m => m.1 = t).map Prod.snd)
      ((if t = tp then c.logs t ++ [r] else c.logs t).drop (c.position t))
    rw [List.filter_append, List.map_append]
    by_cases here : t = tp
    · have last : ([(tp, p)].filter fun m => m.1 = t).map Prod.snd = [p] := by simp [here]
      rw [if_pos here, last, List.drop_append_of_le_length (h.inside t)]
      exact List.rel_append unread (.cons written .nil)
    · have other : ([(tp, p)].filter fun m => m.1 = t) = [] := by simp [Ne.symm here]
      rw [if_neg here, other, List.map_nil, List.append_nil]
      exact unread
  complete := h.complete
  errors := h.errors

/-- A message is produced in both systems or in neither. -/
theorem Represents.send (h : Represents codec c net) (legible : Legible p) :
    Option.Rel (Represents codec) (d.send codec c p) (if p.txn.inRange then d.deliver net p else none) := by
  unfold Deployment.send
  cases inRange : p.txn.inRange with
  | false => exact .none
  | true =>
    obtain ⟨r, message, written⟩ := legible.written inRange
    rw [if_pos rfl, if_pos rfl, message]
    unfold Deployment.deliver
    dsimp only
    cases p.dest with
    | response target => exact .some h
    | topic concern name =>
      dsimp only
      cases name.system with
      | some system =>
        dsimp only
        split
        · exact .none
        · exact .some (h.arrive written _)
      | none =>
        dsimp only
        split
        · exact .some { h with complete := List.rel_append h.complete (.cons written .nil) }
        · exact .some { h with errors := List.rel_append h.errors (.cons written .nil) }

theorem Represents.sendAll {pubs : List Publication} (h : Represents codec c net) (legible : ∀ p ∈ pubs, Legible p) :
    Option.Rel (Represents codec) (d.sendAll codec c pubs) (if (pubs.all fun p => p.txn.inRange) then d.deliverAll net pubs else none) := by
  induction pubs generalizing c net with
  | nil => exact .some h
  | cons p ps ih =>
    have first := h.send (d := d) (legible p List.mem_cons_self)
    unfold Deployment.sendAll Deployment.deliverAll
    rw [List.all_cons]
    cases inRange : p.txn.inRange with
    | false =>
      rw [inRange] at first
      generalize d.send codec c p = x at first
      cases first
      exact .none
    | true =>
      rw [inRange, if_pos rfl] at first
      rw [Bool.true_and]
      generalize d.send codec c p = x at first
      generalize d.deliver net p = y at first
      cases first with
      | none =>
        dsimp only
        rw [ite_self]
        exact .none
      | some next => exact ih next fun q hq => legible q (List.mem_cons_of_mem _ hq)

/-! ## Consumers -/

theorem take_filter {tp : TopicPartition} {rest : List (TopicPartition × Publication)} (h : net.take tp = some (p, rest)) :
    (net.inFlight.filter fun m => m.1 = tp) = (tp, p) :: rest.filter (fun m => m.1 = tp) ∧
      ∀ t, t ≠ tp → (net.inFlight.filter fun m => m.1 = t) = rest.filter fun m => m.1 = t := by
  obtain ⟨before, after, split, rfl, older⟩ := take_some h
  have first : (before.filter fun m => decide (m.1 = tp)) = [] := by
    apply List.filter_eq_nil_iff.2
    intro m hm
    simpa using older m hm
  rw [split]
  refine ⟨?_, ?_⟩
  · rw [List.filter_append, List.filter_append, first, List.nil_append, List.nil_append]
    exact List.filter_cons_of_pos (by simp)
  · intro t other
    rw [List.filter_append, List.filter_append]
    have skipped : ((tp, p) :: after).filter (fun m => decide (m.1 = t)) = after.filter fun m => decide (m.1 = t) :=
      List.filter_cons_of_neg (by simpa using Ne.symm other)
    rw [skipped]

theorem take_none {tp : TopicPartition} (h : net.take tp = none) : (net.inFlight.filter fun m => m.1 = tp) = [] := by
  unfold Net.take at h
  split at h
  · rename_i found
    exact List.filter_eq_nil_iff.2 (List.find?_eq_none.1 found)
  · cases h

/-- The record that a consumer reads, and what is related once it has been read. -/
theorem Represents.next (h : Represents codec c net) {tp : TopicPartition} {rest : List (TopicPartition × Publication)}
    (taken : net.take tp = some (p, rest)) : ∃ r, (c.logs tp)[c.position tp]? = some r ∧ WrittenAs codec p r ∧
      ∀ plat : Platform M, Represents codec
        { c with
          position := fun t => if t = tp then c.position tp + 1 else c.position t,
          stores := fun t => if t = tp then plat.instanceStore else c.stores t,
          ramDbs := plat.ramDbs }
        { (net.setNext tp (net.next tp + 1)).setStore tp plat.instanceStore with inFlight := rest, ramDbs := plat.ramDbs } := by
  obtain ⟨here, elsewhere⟩ := take_filter taken
  have unread := h.unread tp
  rw [here, List.map_cons] at unread
  generalize remaining : (c.logs tp).drop (c.position tp) = records at unread
  cases unread with
  | @cons _ r _ records written later =>
    have found : (c.logs tp)[c.position tp]? = some r := by
      rw [← List.head?_drop, remaining]
      rfl
    have inside : c.position tp < (c.logs tp).length := (List.getElem?_eq_some_iff.1 found).1
    refine ⟨r, found, written, fun plat => ⟨?_, ?_, rfl, ?_, ?_, h.complete, h.errors⟩⟩
    · funext t
      show (if t = tp then c.position tp + 1 else c.position t) = if t = tp then net.next tp + 1 else net.next t
      rw [h.position]
    · funext t
      show (if t = tp then plat.instanceStore else c.stores t) = if t = tp then plat.instanceStore else net.stores t
      rw [h.stores]
    · intro t
      show (if t = tp then c.position tp + 1 else c.position t) ≤ (c.logs t).length
      split
      · rename_i same
        rw [same]
        omega
      · exact h.inside t
    · intro t
      show List.Forall₂ (WrittenAs codec) ((rest.filter fun m => m.1 = t).map Prod.snd)
        ((c.logs t).drop (if t = tp then c.position tp + 1 else c.position t))
      split
      · rename_i same
        rw [same, ← List.tail_drop, remaining]
        exact later
      · rename_i other
        rw [← elsewhere t other]
        exact h.unread t

/-- What `consumeMessage` makes of the record of a message. -/
theorem WrittenAs.iteration (h : WrittenAs codec p r) {cc : ClientCode M} {env : Env} {logic : LogicHandler M} {storageTarget : String}
    {tp : TopicParts} {partition : Int} {plat : Platform M} {offset : Nat} :
    consumeMessage cc codec.toTxnDecoder env logic (fun _ => false) storageTarget tp partition plat (r.at offset) =
      match newRtApecsTxn p.txn p.traceParent with
      | none => { state := plat, fault := some .invalidTraceParent }
      | some (.error _) => { state := plat }
      | some (.ok _) =>
        let out := advanceApecsTxn env cc.pb Platform.instanceStore (handleCommand cc env logic) plat storageTarget
          ⟨p.txn, p.traceParent⟩ tp ⟨tp.generation, partition, offset⟩
        { state := out.state, published := out.published, asked := out.asked, fault := out.fault, bailsOut := bailsOut p out.code } := by
  obtain ⟨directive, decoded, opened⟩ := h.found offset
  have unmarshalled : codec.unmarshal (r.at offset).value = .ok p.txn := decoded
  unfold consumeMessage
  rw [directive]
  dsimp only
  rw [if_pos rfl, unmarshalled]
  dsimp only
  rw [opened]
  cases valid : newRtApecsTxn p.txn p.traceParent with
  | none => rfl
  | some validated =>
    cases validated with
    | error e => rfl
    | ok rtxn =>
      obtain ⟨rfl, -⟩ := newRtApecsTxn_ok valid
      rfl

theorem Represents.consume (h : Represents codec c net) {tp : TopicPartition} {env : Env} {logic : LogicHandler M} :
    Option.Rel (Represents codec) (d.consumeRecord codec c tp env logic) (guarded d.step d.sendsInRange net (.consume tp env logic)) := by
  show Option.Rel (Represents codec) (d.consumeRecord codec c tp env logic)
    (if d.sendsInRange net (.consume tp env logic) then d.consume net tp env logic else none)
  cases taken : net.take tp with
  | none =>
    have unread := h.unread tp
    rw [take_none taken, List.map_nil] at unread
    have past : (c.logs tp)[c.position tp]? = none := by
      rw [← List.head?_drop, List.forall₂_nil_left_iff.1 unread]
      rfl
    have noRecord : d.consumeRecord codec c tp env logic = none := by
      unfold Deployment.consumeRecord
      rw [past]
    have noMessage : d.consume net tp env logic = none := by
      unfold Deployment.consume
      rw [taken]
    rw [noRecord, noMessage, ite_self]
    exact .none
  | some m =>
    obtain ⟨p, rest⟩ := m
    obtain ⟨r, record, written, later⟩ := h.next taken
    have message : d.consumeRecord codec c tp env logic = d.settle codec c tp
        (match newRtApecsTxn p.txn p.traceParent with
        | none => { state := ⟨c.stores tp, c.ramDbs⟩, fault := some .invalidTraceParent }
        | some (.error _) => { state := ⟨c.stores tp, c.ramDbs⟩ }
        | some (.ok _) =>
          let out := d.outcome net tp env logic p
          { state := out.state, published := out.published, asked := out.asked, fault := out.fault,
            bailsOut := bailsOut p out.code }) := by
      unfold Deployment.consumeRecord
      rw [record]
      dsimp only
      rw [written.iteration, h.stores, h.ramDbs, h.position]
      rfl
    have sends : d.sendsInRange net (.consume tp env logic) =
        (match newRtApecsTxn p.txn p.traceParent with
        | some (.ok _) => (d.outcome net tp env logic p).published
        | _ => []).all fun p => p.txn.inRange := by
      unfold Deployment.sendsInRange Deployment.sends
      dsimp only
      rw [taken]
    unfold Deployment.consume
    rw [message, sends, taken]
    dsimp only
    cases valid : newRtApecsTxn p.txn p.traceParent with
    | none =>
      dsimp only
      rw [ite_self]
      exact .none
    | some validated =>
      cases validated with
      | error e =>
        have stores : (fun t => if t = tp then c.stores tp else net.stores t) = net.stores := by
          funext t
          split
          · rename_i here
            rw [here, h.stores]
          · rfl
        have same : { (net.setNext tp (net.next tp + 1)).setStore tp (c.stores tp) with inFlight := rest, ramDbs := c.ramDbs } =
            { net.setNext tp (net.next tp + 1) with inFlight := rest } := by
          show { net.setNext tp (net.next tp + 1) with
            stores := fun t => if t = tp then c.stores tp else net.stores t, inFlight := rest, ramDbs := c.ramDbs } = _
          rw [stores, h.ramDbs]
          rfl
        have kept := later ⟨c.stores tp, c.ramDbs⟩
        rw [same] at kept
        exact .some kept
      | ok rtxn =>
        dsimp only
        have published : ∀ q ∈ (d.outcome net tp env logic p).published, Legible q := by
          intro q hq
          obtain ⟨traceParent, marshalled⟩ := advance_marshalled q hq
          refine ⟨marshalled, ?_⟩
          rw [traceParent]
          exact written.legible.ascii
        unfold Deployment.settle
        dsimp only
        split
        · rw [ite_self]
          exact .none
        split
        · refine Represents.sendAll ⟨h.position, ?_, rfl, h.inside, h.unread, h.complete, h.errors⟩ published
          funext t
          show (if t = tp then InstanceStore.new else c.stores t) = if t = tp then InstanceStore.new else net.stores t
          rw [h.stores]
        · exact (later (d.outcome net tp env logic p).state).sendAll published

theorem Represents.submit (h : Represents codec c net) {env : Env} {traceParent : String} (ascii : isAscii traceParent = true)
    {txn : Txn} {respTarget : Option TopicTarget} :
    Option.Rel (Represents codec) (d.recordStep codec c (.submit env traceParent txn respTarget))
      (guarded d.step d.sendsInRange net (.submit env traceParent txn respTarget)) := by
  cases submitted : executeTxnAsync env traceParent (some txn) respTarget with
  | error e =>
    have noRecord : d.recordStep codec c (.submit env traceParent txn respTarget) = none := by
      unfold Deployment.recordStep
      dsimp only
      rw [submitted]
    have noMessage : d.step net (.submit env traceParent txn respTarget) = none := by
      unfold Deployment.step
      dsimp only
      rw [submitted]
    unfold guarded
    rw [noRecord, noMessage, ite_self]
    exact .none
  | ok p =>
    obtain ⟨same, marshalled⟩ := executeTxnAsync_marshalled submitted
    have record : d.recordStep codec c (.submit env traceParent txn respTarget) = d.send codec c p := by
      unfold Deployment.recordStep
      dsimp only
      rw [submitted]
    have message : d.step net (.submit env traceParent txn respTarget) = d.deliver net p := by
      unfold Deployment.step
      dsimp only
      rw [submitted]
    have sends : d.sendsInRange net (.submit env traceParent txn respTarget) = p.txn.inRange := by
      unfold Deployment.sendsInRange Deployment.sends
      dsimp only
      rw [submitted]
      simp [Except.toOption]
    unfold guarded
    rw [record, message, sends]
    exact h.send ⟨marshalled, same ▸ ascii⟩

/-- Action by action, the system of records and the system of messages stay together. -/
theorem records_lockstep : Lockstep (fun a => a.asciiContext = true) (Represents codec) (d.recordStep codec) (guarded d.step d.sendsInRange) := by
  intro c net a related ascii
  cases a with
  | submit env traceParent txn respTarget => exact related.submit ascii
  | consume tp env logic => exact related.consume

/-- The system of records runs as the system of messages does, the other way round, and neither ends the
process where the other does not. -/
theorem records_refine (start : Represents codec c net) :
    (∀ tr c', Path (d.recordStep codec) c tr c' → (∀ e ∈ tr, e.2.asciiContext = true) →
      ∃ tr' net', Path d.step net tr' net' ∧ Represents codec c' net' ∧ Together (Represents codec) tr tr' ∧
        ∀ a, a.asciiContext = true → (d.recordStep codec c' a).isSome = (d.sendsInRange net' a && (d.step net' a).isSome)) ∧
    (∀ tr net', Path d.step net tr net' → (∀ e ∈ tr, e.2.asciiContext = true ∧ d.sendsInRange e.1 e.2 = true) →
      ∃ tr' c', Path (d.recordStep codec) c tr' c' ∧ Represents codec c' net' ∧ Together (fun net c => Represents codec c net) tr tr') := by
  refine ⟨?_, ?_⟩
  · intro tr c' run ascii
    obtain ⟨tr', net', run', related, together⟩ := records_lockstep.run start run ascii
    refine ⟨tr', net', (path_guarded_iff.1 run').1, related, together, fun a allowed => ?_⟩
    rw [records_lockstep.isSome related allowed, guarded_isSome]
  · intro tr net' run all
    have guarded := path_guarded_iff.2 ⟨run, fun e he => (all e he).2⟩
    exact records_lockstep.symm.run start guarded fun e he => (all e he).1

end

/-- One such codec. -/
def TxnCodec.wire : TxnCodec where
  unmarshal := decodeTxn
  validUtf8 _ _ h := by
    have same := (decodeTxn_ok h).2
    unfold marshalTxn at same
    split at same
    · rename_i utf8
      exact List.all_eq_true.1 utf8
    · cases same
  marshal := encodeTxn
  roundTrip _ := decode_encodeTxn

/-- The instance is known, and the record at offset 0 of the process topic has been read. -/
def knownInstance : Net Bytes := Net.sample (some ⟨some [107, 1], some [9], ⟨1, 0, 0⟩⟩) (some ⟨[107, 1], some [9], ⟨1, 0, 0⟩⟩)

def knownRecords : RecordNet Bytes where
  logs tp := if tp = ⟨"Player", .process, 0⟩ then [⟨[], []⟩] else []
  position := knownInstance.next
  stores := knownInstance.stores
  ramDbs := knownInstance.ramDbs
  complete := []
  errors := []

theorem knownRecords_represents : Represents .wire knownRecords knownInstance where
  position := rfl
  stores := rfl
  ramDbs := rfl
  inside tp := by
    show (if tp = ⟨"Player", .process, 0⟩ then 1 else 0) ≤ (if tp = ⟨"Player", .process, 0⟩ then [(⟨[], []⟩ : Record)] else []).length
    split <;> simp
  unread tp := by
    show List.Forall₂ (WrittenAs .wire) [] ((if tp = ⟨"Player", .process, 0⟩ then [⟨[], []⟩] else []).drop
      (if tp = ⟨"Player", .process, 0⟩ then 1 else 0))
    split <;> exact .nil
  complete := .nil
  errors := .nil

/-- A command on the cached instance, and the storage update that it leads to. -/
def recordsOnce : List (Action Bytes) :=
  [sampleSubmit [1] [sampleStep "Player" "Set" "k" [2]], sampleConsume "Player" .process 0, sampleConsume "Player" .storage 0]

/-- Both end on `COMPLETE`, with a record each. -/
theorem records_refine_once :
    ∃ tr net, Path Deployment.single.step knownInstance tr net ∧
      Represents .wire (after (Deployment.single.recordStep .wire) knownRecords recordsOnce) net ∧
      (after (Deployment.single.recordStep .wire) knownRecords recordsOnce).complete.length = 2 := by
  have taken : (runs (Deployment.single.recordStep .wire) knownRecords recordsOnce).any (fun c => c.complete.length = 2) = true := by
    decide +kernel
  obtain ⟨run, two⟩ := path_of_any taken
  have ascii : ∀ e ∈ trace (Deployment.single.recordStep .wire) knownRecords recordsOnce, e.2.asciiContext = true := by
    obtain ⟨c, hc, -⟩ := (Option.any_eq_true _ _).1 taken
    intro e he
    have acts : e.2 ∈ recordsOnce := by
      rw [← trace_actions hc]
      exact List.mem_map_of_mem he
    simp only [recordsOnce, List.mem_cons, List.not_mem_nil, or_false] at acts
    rcases acts with h | h | h <;> (rw [h]; decide +kernel)
  obtain ⟨tr, net, run', related, -, -⟩ := (records_refine knownRecords_represents).1 _ _ run ascii
  exact ⟨tr, net, run', related, of_decide_eq_true two⟩

end Rocketcycle
