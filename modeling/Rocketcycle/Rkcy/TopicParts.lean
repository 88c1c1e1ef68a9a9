import Rocketcycle.Rkcy.Topics
import Mathlib.Algebra.Ring.Int.Defs

/-!
# Full names and their parts

`BuildFullTopicName` and `ParseFullTopicName` of `pkg/rkcy/topics.go`. A full name is split at its
dots, so that the parts come back because no valid name has one; the generation is read by
`strconv.Atoi`, which minds neither the zeros in front nor more than four digits.
-/

namespace Rocketcycle.Definition

/-- `strconv.Atoi`: digits with or without a sign, for an `int` of 64 bits. Its errors are not kept. -/
def atoi (s : String) : Option Int :=
  let (negative, digits) :=
    match s.toList with
    | '-' :: cs => (true, cs)
    | '+' :: cs => (false, cs)
    | cs => (false, cs)
  if digits.isEmpty || !digits.all Char.isDigit then none
  else
    let n : Int := if negative then -(Nat.ofDigitChars 10 digits 0 : Int) else Nat.ofDigitChars 10 digits 0
    if -2 ^ 63 ≤ n ∧ n < 2 ^ 63 then some n else none

/-- `Concern_Type_value`. -/
def concernTypeValue (name : String) : Option ConcernType :=
  if name = "GENERAL" then some .general
  else if name = "BATCH" then some .batch
  else if name = "APECS" then some .apecs
  else none

def buildFullTopicName (platformName environment concernName : String) (concernType : ConcernType) (name : String)
    (generation : Int) : Reply String :=
  if !isValidName platformName then fatal s!"Invalid platformName: {platformName}"
  else if !isValidName environment then fatal s!"Invalid environment: {environment}"
  else if !isValidName concernName then fatal s!"Invalid concernName: {concernName}"
  else if !isValidName concernType.string then fatal s!"Invalid concernType: {concernType.string}"
  else if !isValidName name then fatal s!"Invalid topicName: {name}"
  else if generation ≤ 0 then fatal s!"Invalid generation: {generation}"
  else do
    let p ← buildTopicNamePrefix platformName environment concernName concernType
    buildTopicName p name generation

structure TopicParts where
  fullTopic : String
  platform : String
  environment : String
  concern : String
  topic : String
  system : System
  concernType : ConcernType
  generation : Int
  deriving DecidableEq, Repr

/-- The system that a topic of an APECS concern belongs to. -/
def topicSystem (topic : String) : System :=
  if topic = "process" then .process
  else if topic = "storage" then .storage
  else if topic = "storage-scnd" then .storageScnd
  else .noSystem

def parseFullTopicName (fullTopic : String) : Except GoError TopicParts :=
  match (fullTopic.toList.splitOn '.').map String.ofList with
  | [rkcy, platform, environment, concern, type, topic, number] =>
    if rkcy ≠ "rkcy" then .error (.other s!"Invalid rkcy topic: {fullTopic}")
    else if !isValidName platform then .error (.other s!"Invalid tp.Platform: {platform}")
    else if !isValidName environment then .error (.other s!"Invalid tp.Environment: {environment}")
    else if !isValidName concern then .error (.other s!"Invalid tp.Concern: {concern}")
    else if !isValidName topic then .error (.other s!"Invalid tp.Topic: {topic}")
    else
      match concernTypeValue type with
      | none => .error (.other s!"Invalid rkcy topic, unable to parse ConcernType: {fullTopic}")
      | some concernType =>
        match atoi number with
        | none => .error (.other s!"Invalid rkcy topic, unable to parse Generation: {fullTopic}")
        | some n =>
          -- the conversion to `int32`
          let generation := n.bmod (2 ^ 32)
          if generation < 0 then .error (.other s!"Invalid tp.Generation: {generation}")
          else .ok { fullTopic, platform, environment, concern, topic, system := topicSystem topic, concernType, generation }
  | _ => .error (.other s!"Invalid rkcy topic: {fullTopic}")

/-! ## Numbers -/

theorem isDigit_of_mem_fourDigits {n : Nat} {c : Char} (h : c ∈ (fourDigits n).toList) : c.isDigit = true := by
  rw [fourDigits, String.toList_append, String.toList_ofList, Nat.toList_repr, List.mem_append] at h
  obtain h | h := h
  · rw [List.eq_of_mem_replicate h]
    decide
  · exact Nat.isDigit_of_mem_toDigits (by decide) (by decide) h

theorem fourDigits_ne_nil (n : Nat) : (fourDigits n).toList ≠ [] := by
  rw [fourDigits, String.toList_append, Nat.toList_repr]
  exact List.append_ne_nil_of_right_ne_nil _ Nat.toDigits_ne_nil

/-- The value of the digits, whatever zeros stand in front of them. -/
theorem ofDigitChars_fourDigits (n : Nat) : Nat.ofDigitChars 10 (fourDigits n).toList 0 = n := by
  rw [fourDigits, String.toList_append, String.toList_ofList, Nat.ofDigitChars_append, Nat.ofDigitChars_replicate_zero,
    Nat.mul_zero, Nat.toList_repr]
  exact Nat.ofDigitChars_ten_toDigits

theorem atoi_fourDigits {n : Nat} (small : n < 2 ^ 63) : atoi (fourDigits n) = some (n : Int) := by
  have digits : (fourDigits n).toList.all Char.isDigit = true := List.all_eq_true.2 fun c hc => isDigit_of_mem_fourDigits hc
  have some : (fourDigits n).toList.isEmpty = false := List.isEmpty_eq_false_iff.2 (fourDigits_ne_nil n)
  have value := ofDigitChars_fourDigits n
  have unsigned : (match (fourDigits n).toList with
      | '-' :: cs => (true, cs)
      | '+' :: cs => (false, cs)
      | cs => (false, cs)) = (false, (fourDigits n).toList) := by
    have first : ∀ c ∈ (fourDigits n).toList.head?, c.isDigit = true := fun c hc => isDigit_of_mem_fourDigits (List.mem_of_mem_head? hc)
    split
    · rename_i h
      rw [h] at first
      exact absurd (first '-' rfl) (by decide)
    · rename_i h
      rw [h] at first
      exact absurd (first '+' rfl) (by decide)
    · rfl
  unfold atoi
  rw [unsigned]
  dsimp only
  rw [some, digits, value]
  simp only [Bool.not_true, Bool.or_self, Bool.false_eq_true, if_false]
  rw [if_pos (by omega)]

/-! ## The round trip -/

/-- What a full name is made of: valid names, a concern type that has a name, and a generation from
the first to the last that an `int32` holds. -/
structure TopicName where
  platform : String
  environment : String
  concern : String
  concernType : ConcernType
  topic : String
  generation : Int
  validPlatform : isValidName platform = true
  validEnvironment : isValidName environment = true
  validConcern : isValidName concern = true
  defined : concernType = .general ∨ concernType = .batch ∨ concernType = .apecs
  validTopic : isValidName topic = true
  first : 1 ≤ generation
  last : generation ≤ 2 ^ 31 - 1

namespace TopicName

def build (n : TopicName) : Reply String :=
  buildFullTopicName n.platform n.environment n.concern n.concernType n.topic n.generation

/-- The name that is built. -/
def full (n : TopicName) : String :=
  fullTopicName n.platform n.environment n.concern n.concernType n.topic n.generation

/-- The parts that are read back. -/
def parts (n : TopicName) : TopicParts :=
  { fullTopic := n.full, platform := n.platform, environment := n.environment, concern := n.concern, topic := n.topic,
    system := topicSystem n.topic, concernType := n.concernType, generation := n.generation }

theorem concernTypeValue_string (n : TopicName) : concernTypeValue n.concernType.string = some n.concernType := by
  obtain h | h | h := n.defined
  · rw [h]
    rfl
  · rw [h]
    rfl
  · rw [h]
    rfl

theorem validNames (n : TopicName) : ValidNames n.platform n.environment n.concern n.concernType where
  platform := n.validPlatform
  environment := n.validEnvironment
  concern := n.validConcern
  type := by
    obtain h | h | h := n.defined
    · rw [h]
      decide
    · rw [h]
      decide
    · rw [h]
      decide

theorem build_eq (n : TopicName) : n.build = .ok n.full := by
  have valid := n.validNames
  have positive : ¬n.generation ≤ 0 := by
    have first := n.first
    omega
  have pref : buildTopicNamePrefix n.platform n.environment n.concern n.concernType =
      .ok s!"rkcy.{n.platform}.{n.environment}.{n.concern}.{n.concernType.string}" := buildTopicNamePrefix_ok.2 ⟨valid, rfl⟩
  unfold build buildFullTopicName
  rw [valid.platform, valid.environment, valid.concern, valid.type, n.validTopic, if_neg positive, pref]
  simp only [Bool.not_true, Bool.false_eq_true, if_false]
  exact buildTopicName_ok.2 ⟨n.validTopic, n.first, rfl⟩

/-- Splitting at the dots gives the parts back. -/
theorem split_full (n : TopicName) :
    (n.full.toList.splitOn '.').map String.ofList =
      ["rkcy", n.platform, n.environment, n.concern, n.concernType.string, n.topic, fourDigits n.generation.toNat] := by
  have valid := n.validNames
  have joined : n.full.toList = ['.'].intercalate
      (["rkcy", n.platform, n.environment, n.concern, n.concernType.string, n.topic, fourDigits n.generation.toNat].map String.toList) := by
    unfold full fullTopicName
    simp [List.intercalate, toString]
  have noDot : ∀ l ∈ ["rkcy", n.platform, n.environment, n.concern, n.concernType.string, n.topic, fourDigits n.generation.toNat].map
      String.toList, '.' ∉ l := by
    have number : '.' ∉ (fourDigits n.generation.toNat).toList := fun h => absurd (isDigit_of_mem_fourDigits h) (by decide)
    have front : '.' ∉ "rkcy".toList := by decide
    simp only [List.map_cons, List.map_nil, List.forall_mem_cons]
    exact ⟨front, dot_not_mem valid.platform, dot_not_mem valid.environment, dot_not_mem valid.concern, dot_not_mem valid.type,
      dot_not_mem n.validTopic, number, fun _ h => absurd h List.not_mem_nil⟩
  rw [joined, List.splitOn_intercalate '.' noDot (by simp), List.map_map]
  simp

theorem parse_full (n : TopicName) : parseFullTopicName n.full = .ok n.parts := by
  have valid := n.validNames
  have first := n.first
  have last := n.last
  have small : (n.generation.toNat : Int).bmod (2 ^ 32) = n.generation := by
    rw [Int.bmod_eq_of_le (by omega) (by omega)]
    omega
  have positive : ¬n.generation < 0 := by omega
  unfold parseFullTopicName
  rw [n.split_full]
  dsimp only
  rw [valid.platform, valid.environment, valid.concern, n.validTopic, n.concernTypeValue_string, atoi_fourDigits (by omega)]
  simp only [ne_eq, not_true_eq_false, Bool.not_true, Bool.false_eq_true, if_false]
  rw [small, if_neg positive]
  rfl

/-- The system of the topic is told by its name. -/
theorem topicSystem_iff (topic : String) :
    (topicSystem topic = .process ↔ topic = "process") ∧ (topicSystem topic = .storage ↔ topic = "storage") ∧
      (topicSystem topic = .storageScnd ↔ topic = "storage-scnd") := by
  unfold topicSystem
  by_cases process : topic = "process"
  · simp [process]
  · by_cases storage : topic = "storage"
    · simp [storage]
    · by_cases scnd : topic = "storage-scnd"
      · simp [scnd]
      · simp [process, storage, scnd]

/-- A full name that is built is parsed into the parts it was built of, so that different parts have
different names. -/
theorem parseFullTopicName_build :
    (∀ n : TopicName, ∃ fullTopic parts, n.build = .ok fullTopic ∧ parseFullTopicName fullTopic = .ok parts ∧
      parts.fullTopic = fullTopic ∧ parts.platform = n.platform ∧ parts.environment = n.environment ∧
      parts.concern = n.concern ∧ parts.concernType = n.concernType ∧ parts.topic = n.topic ∧
      parts.generation = n.generation ∧ (parts.system = .process ↔ n.topic = "process") ∧
      (parts.system = .storage ↔ n.topic = "storage") ∧ (parts.system = .storageScnd ↔ n.topic = "storage-scnd")) ∧
    ∀ n n' : TopicName, n.build = n'.build → n = n' := by
  constructor
  · intro n
    obtain ⟨process, storage, scnd⟩ := topicSystem_iff n.topic
    exact ⟨n.full, n.parts, n.build_eq, n.parse_full, rfl, rfl, rfl, rfl, rfl, rfl, rfl, process, storage, scnd⟩
  · intro n n' same
    rw [n.build_eq, n'.build_eq] at same
    have parts : n.parts = n'.parts := by
      have read := n.parse_full
      rw [Except.ok.inj same, n'.parse_full] at read
      exact (Except.ok.inj read).symm
    obtain ⟨⟩ := n
    obtain ⟨⟩ := n'
    simp only [TopicName.parts, TopicParts.mk.injEq] at parts
    obtain ⟨-, rfl, rfl, rfl, rfl, -, rfl, rfl⟩ := parts
    rfl

end TopicName

end Rocketcycle.Definition
