import Rocketcycle.Rkcypb
import Rocketcycle.Lib.Cut
import Mathlib.Data.List.Basic

/-!
# Names of topics

`pkg/rkcy/topics.go`. The full name of a topic is put together of the platform, its environment,
the concern, the topic and the generation, separated by dots. A name that is not valid ends the
process. Valid names have no dot, so the parts can be read off the full name.
-/

namespace Rocketcycle

/-- `MAX_PARTITION`. -/
def maxPartition : Nat := 1024

def isLetter (c : Char) : Bool := ('a' ≤ c && c ≤ 'z') || ('A' ≤ c && c ≤ 'Z')

/-- `IsValidName`: a letter, and then one to fifteen letters or dashes. -/
def isValidName (name : String) : Bool :=
  match name.toList with
  | [] => false
  | c :: cs => isLetter c && 1 ≤ cs.length && cs.length ≤ 15 && cs.all fun c => isLetter c || c = '-'

/-- Nothing but letters and dashes. -/
theorem not_mem_of_isValidName {name : String} (h : isValidName name = true) {c : Char} (letter : isLetter c = false)
    (dash : c ≠ '-') : c ∉ name.toList := by
  unfold isValidName at h
  cases hn : name.toList with
  | nil => simp
  | cons c' cs =>
    rw [hn] at h
    simp only [Bool.and_eq_true, List.all_eq_true, Bool.or_eq_true, decide_eq_true_eq] at h
    obtain ⟨⟨⟨first, -⟩, -⟩, rest⟩ := h
    intro hm
    rcases List.mem_cons.1 hm with rfl | hm
    · rw [letter] at first
      cases first
    · rcases rest c hm with h | h
      · rw [letter] at h
        cases h
      · exact dash h

/-- Names of concerns have no underscore. -/
theorem underscore_not_mem {name : String} (h : isValidName name = true) : '_' ∉ name.toList :=
  not_mem_of_isValidName h (by decide) (by decide)

namespace Definition

/-- `rkcypb.Concern_Type`. A number that has no name is kept as it is. -/
inductive ConcernType where
  | general
  | batch
  | apecs
  | other (n : Int)
  deriving DecidableEq, Repr

def ConcernType.string : ConcernType → String
  | .general => "GENERAL"
  | .batch => "BATCH"
  | .apecs => "APECS"
  | .other n => toString n

/-- An error is returned. -/
def errorf {α : Type} (msg : String) : Reply α := .error (.err (.other msg))

/-- `log.Fatal` ends the process. -/
def fatal {α : Type} (msg : String) : Reply α := .error (.panic (.logFatal (.other msg)))

def buildTopicNamePrefix (platformName environment concernName : String) (concernType : ConcernType) : Reply String :=
  if !isValidName platformName then fatal s!"Invalid platformName: {platformName}"
  else if !isValidName environment then fatal s!"Invalid environment: {environment}"
  else if !isValidName concernName then fatal s!"Invalid concernName: {concernName}"
  else if !isValidName concernType.string then fatal s!"Invalid concernType: {concernType.string}"
  else .ok s!"rkcy.{platformName}.{environment}.{concernName}.{concernType.string}"

/-- The verb `%04d`, of a number that is not negative. -/
def fourDigits (n : Nat) : String := String.ofList (List.replicate (4 - n.repr.length) '0') ++ n.repr

def buildTopicName (topicNamePrefix name : String) (generation : Int) : Reply String :=
  if !isValidName name then fatal s!"Invalid topicName: {name}"
  else if generation ≤ 0 then fatal s!"Invalid generation: {generation}"
  else .ok s!"{topicNamePrefix}.{name}.{fourDigits generation.toNat}"

/-! ## Reading a full name -/

/-- The name of a topic, where all its parts are valid. -/
def fullTopicName (platformName environment concernName : String) (concernType : ConcernType) (name : String)
    (generation : Int) : String :=
  s!"rkcy.{platformName}.{environment}.{concernName}.{concernType.string}.{name}.{fourDigits generation.toNat}"

/-- The parts of a full name are valid. -/
structure ValidNames (platformName environment concernName : String) (concernType : ConcernType) : Prop where
  platform : isValidName platformName = true
  environment : isValidName environment = true
  concern : isValidName concernName = true
  type : isValidName concernType.string = true

theorem fourDigits_injective : Function.Injective fourDigits := by
  intro m n h
  have value : ∀ k, Nat.ofDigitChars 10 (fourDigits k).toList 0 = k := by
    intro k
    rw [fourDigits, String.toList_append, String.toList_ofList, Nat.ofDigitChars_append,
      Nat.ofDigitChars_replicate_zero, Nat.mul_zero, Nat.toList_repr]
    exact Nat.ofDigitChars_ten_toDigits
  rw [← value m, h, value n]

theorem dot_not_mem {name : String} (h : isValidName name = true) : '.' ∉ name.toList :=
  not_mem_of_isValidName h (by decide) (by decide)

section
variable {platformName environment concernName concernName' name name' : String} {type type' : ConcernType}
  {generation generation' : Int}

theorem buildTopicNamePrefix_ok {p : String} :
    buildTopicNamePrefix platformName environment concernName type = .ok p ↔
      ValidNames platformName environment concernName type ∧
        p = s!"rkcy.{platformName}.{environment}.{concernName}.{type.string}" := by
  unfold buildTopicNamePrefix fatal
  constructor
  · intro h
    repeat (split at h; · cases h)
    cases h
    exact ⟨⟨by simp_all, by simp_all, by simp_all, by simp_all⟩, rfl⟩
  · rintro ⟨⟨hp, he, hc, ht⟩, rfl⟩
    simp [hp, he, hc, ht]

theorem buildTopicName_ok {p t : String} :
    buildTopicName p name generation = .ok t ↔
      isValidName name = true ∧ 0 < generation ∧ t = s!"{p}.{name}.{fourDigits generation.toNat}" := by
  unfold buildTopicName fatal
  constructor
  · intro h
    repeat (split at h; · cases h)
    cases h
    exact ⟨by simp_all, by omega, rfl⟩
  · rintro ⟨valid, pos, rfl⟩
    rw [valid, if_neg (by decide), if_neg (by omega)]

/-- The concern, the topic and the generation can be read off a full name. -/
theorem fullTopicName_inj (valid : ValidNames platformName environment concernName type)
    (valid' : ValidNames platformName environment concernName' type') (topic : isValidName name = true)
    (topic' : isValidName name' = true) (pos : 0 < generation) (pos' : 0 < generation')
    (same : fullTopicName platformName environment concernName type name generation =
      fullTopicName platformName environment concernName' type' name' generation') :
    concernName = concernName' ∧ name = name' ∧ generation = generation' := by
  have chars : concernName.toList ++ '.' :: (type.string.toList ++ '.' :: (name.toList ++ '.' ::
        (fourDigits generation.toNat).toList)) =
      concernName'.toList ++ '.' :: (type'.string.toList ++ '.' :: (name'.toList ++ '.' ::
        (fourDigits generation'.toNat).toList)) := by
    have dot : ".".toList = ['.'] := rfl
    have chars := congrArg String.toList same
    unfold fullTopicName at chars
    simp only [toString, String.toList_append, List.append_assoc, dot, List.append_cancel_left_eq] at chars
    simp only [List.cons_append, List.nil_append] at chars
    exact chars
  obtain ⟨concern, chars⟩ := cut_inj (dot_not_mem valid.concern) (dot_not_mem valid'.concern) chars
  obtain ⟨-, chars⟩ := cut_inj (dot_not_mem valid.type) (dot_not_mem valid'.type) chars
  obtain ⟨hname, chars⟩ := cut_inj (dot_not_mem topic) (dot_not_mem topic') chars
  have numbers := fourDigits_injective (String.toList_inj.1 chars)
  exact ⟨String.toList_inj.1 concern, String.toList_inj.1 hname, by omega⟩

end

end Definition

end Rocketcycle
