import Rocketcycle.Rkcypb

/-!
# The platform topic

`pkg/mgmt/platform_topic.go` and the use that `pkg/admin/admin.go` makes of it: definitions of the
platform are published on a topic, and every process is told of the ones that are new. What makes
a definition of the bytes of a message is left open.
-/

namespace Rocketcycle

/-- `rkcypb.Program`, as far as it tells programs apart. -/
structure Program where
  name : String
  args : List String
  deriving DecidableEq, Repr

/-- `RtPlatformDef`, with the programs that `expandProgs` makes of its topics for this admin. -/
structure RtPlatformDef where
  hash : String
  updateTime : Int
  programs : List Program
  deriving DecidableEq, Repr

/-- `ProgKey`. -/
def progKey (prog : Program) : String := prog.name ++ " " ++ " ".intercalate prog.args

/-- Assignment to a map, as the list of its entries. -/
def progsInsert (key : String) (prog : Program) : List (String × Program) → List (String × Program)
  | [] => [(key, prog)]
  | (k, p) :: rest => if k = key then (key, prog) :: rest else (k, p) :: progsInsert key prog rest

/-- `getAllProgs`, also called on a nil definition. -/
def getAllProgs (rtPlatDef : Option RtPlatformDef) : List (String × Program) :=
  match rtPlatDef with
  | none => []
  | some rtPlatDef => rtPlatDef.programs.foldl (fun progs p => progsInsert (progKey p) p progs) []

structure PlatformDiff where
  progsToStop : List Program
  progsToStart : List Program
  deriving DecidableEq, Repr

/-- `RtPlatformDef.Diff`. -/
def diff (lhs rhs : Option RtPlatformDef) : PlatformDiff :=
  let newProgs := getAllProgs lhs
  let oldProgs := getAllProgs rhs
  { progsToStart := newProgs.filterMap fun (k, v) => if (oldProgs.lookup k).isNone then some v else none
    progsToStop := oldProgs.filterMap fun (k, v) => if (newProgs.lookup k).isNone then some v else none }

/-- `RawMessage`, as it is handed to the handler of a topic. -/
structure RawMessage where
  directive : Nat
  value : Bytes
  offset : Int
  timestamp : Int
  deriving DecidableEq, Repr

structure PlatformMessage where
  directive : Nat
  timestamp : Int
  offset : Int
  newRtPlatDef : RtPlatformDef
  oldRtPlatDef : Option RtPlatformDef
  deriving DecidableEq, Repr

section
variable (newRtPlatformDef : Bytes → Except GoError RtPlatformDef)

/-- The handler of `ConsumePlatformTopic`: the definition it holds after a message, and what it
sends. The one it holds is compared with, and never assigned. -/
def handlePlatform (currRtPlatDef : Option RtPlatformDef) (rawMsg : RawMessage) :
    Option RtPlatformDef × Option PlatformMessage :=
  match newRtPlatformDef rawMsg.value with
  | .error _ => (currRtPlatDef, none)
  | .ok rtPlatDef =>
    let message : PlatformMessage :=
      ⟨rawMsg.directive, rawMsg.timestamp, rawMsg.offset, rtPlatDef, currRtPlatDef⟩
    match currRtPlatDef with
    | none => (currRtPlatDef, some message)
    | some curr =>
      if rtPlatDef.hash = curr.hash then (currRtPlatDef, none)
      else if !decide (curr.updateTime < rtPlatDef.updateTime) then (currRtPlatDef, none)
      else (currRtPlatDef, some message)

/-- All that is delivered of a sequence of messages, from a held definition on. -/
def deliverFrom (currRtPlatDef : Option RtPlatformDef) : List RawMessage → List PlatformMessage
  | [] => []
  | rawMsg :: rest =>
    let (curr, message) := handlePlatform newRtPlatformDef currRtPlatDef rawMsg
    message.toList ++ deliverFrom curr rest

/-- `ConsumePlatformTopic`. -/
def consumePlatformTopic (rawMsgs : List RawMessage) : List PlatformMessage :=
  deliverFrom newRtPlatformDef none rawMsgs

/-- The definitions that a sequence of messages holds. -/
def acceptedDefs (rawMsgs : List RawMessage) : List RtPlatformDef :=
  rawMsgs.filterMap fun rawMsg => (newRtPlatformDef rawMsg.value).toOption

end

/-- The programs that the admin stops when a message arrives. -/
def PlatformMessage.stops (message : PlatformMessage) : List Program :=
  (diff (some message.newRtPlatDef) message.oldRtPlatDef).progsToStop

/-- `message` follows `prev`: a newer and different definition, which names `prev` as the old one,
so that the programs which are no longer defined are stopped. -/
structure Follows (prev message : PlatformMessage) : Prop where
  newer : prev.newRtPlatDef.updateTime < message.newRtPlatDef.updateTime
  changed : message.newRtPlatDef.hash ≠ prev.newRtPlatDef.hash
  old : message.oldRtPlatDef = some prev.newRtPlatDef
  stopped : ∀ k prog, (k, prog) ∈ getAllProgs (some prev.newRtPlatDef) →
    (getAllProgs (some message.newRtPlatDef)).lookup k = none → prog ∈ message.stops

/-- Deduplicated and monotone. -/
structure InOrder (messages : List PlatformMessage) : Prop where
  first : ∀ message ∈ messages.head?, message.oldRtPlatDef = none
  chain : messages.IsChain Follows

section
variable {newRtPlatformDef : Bytes → Except GoError RtPlatformDef}

/-- Nothing is held, so every definition is delivered, and none as the successor of another. -/
theorem deliverFrom_none (rawMsgs : List RawMessage) :
    (deliverFrom newRtPlatformDef none rawMsgs).map PlatformMessage.newRtPlatDef =
        acceptedDefs newRtPlatformDef rawMsgs ∧
      ∀ message ∈ deliverFrom newRtPlatformDef none rawMsgs, message.oldRtPlatDef = none := by
  induction rawMsgs with
  | nil => simp [deliverFrom, acceptedDefs]
  | cons rawMsg rest ih =>
    obtain ⟨defs, olds⟩ := ih
    cases h : newRtPlatformDef rawMsg.value with
    | error e =>
      have here : acceptedDefs newRtPlatformDef (rawMsg :: rest) = acceptedDefs newRtPlatformDef rest := by
        simp [acceptedDefs, h, Except.toOption]
      unfold deliverFrom handlePlatform
      rw [here, h]
      exact ⟨defs, olds⟩
    | ok rtPlatDef =>
      have here : acceptedDefs newRtPlatformDef (rawMsg :: rest) = rtPlatDef :: acceptedDefs newRtPlatformDef rest := by
        simp [acceptedDefs, h, Except.toOption]
      unfold deliverFrom handlePlatform
      rw [here, h]
      constructor
      · simpa using defs
      · intro message hm
        rcases List.mem_cons.1 hm with rfl | hm
        · rfl
        · exact olds message hm

/-- What is delivered is in order exactly if at most one message holds a definition. -/
theorem platform_stream_in_order_iff (rawMsgs : List RawMessage) :
    InOrder (consumePlatformTopic newRtPlatformDef rawMsgs) ↔ (acceptedDefs newRtPlatformDef rawMsgs).length ≤ 1 := by
  have ⟨defs, olds⟩ : (deliverFrom newRtPlatformDef none rawMsgs).map PlatformMessage.newRtPlatDef =
      acceptedDefs newRtPlatformDef rawMsgs ∧
      ∀ message ∈ deliverFrom newRtPlatformDef none rawMsgs, message.oldRtPlatDef = none := deliverFrom_none rawMsgs
  rw [← defs, List.length_map]
  show InOrder (deliverFrom newRtPlatformDef none rawMsgs) ↔ _
  match h : deliverFrom newRtPlatformDef none rawMsgs with
  | [] => exact ⟨fun _ => by simp, fun _ => ⟨by simp, .nil⟩⟩
  | [message] =>
    refine ⟨fun _ => by simp, fun _ => ⟨?_, .singleton _⟩⟩
    intro m hm
    cases hm
    exact olds message (by simp [h])
  | first :: second :: rest =>
    constructor
    · intro inOrder
      -- the second one names no old definition
      have follows : Follows first second := (List.isChain_cons_cons.1 inOrder.chain).1
      have none := olds second (by simp [h])
      rw [follows.old] at none
      cases none
    · intro short
      simp at short

end

/-- Two definitions, the second newer and without the program of the first. -/
def sampleDefs : List RtPlatformDef :=
  [⟨"a", 1, [⟨"./platform", ["process", "-p", "1"]⟩]⟩, ⟨"b", 2, []⟩]

/-- The first byte of a message picks a definition. -/
def sampleRtPlatformDef (value : Bytes) : Except GoError RtPlatformDef :=
  match value with
  | [] => .error (.other "proto")
  | b :: _ => (sampleDefs[b.toNat]?).elim (.error (.other "proto")) .ok

def sampleRaw (offset : Int) (b : UInt8) : RawMessage := ⟨1, [b], offset, 0⟩

/-- A second message that names no old definition is not in order. -/
theorem not_inOrder_pair {first second : PlatformMessage} (none : second.oldRtPlatDef = none) :
    ¬ InOrder [first, second] := by
  intro inOrder
  have follows : Follows first second := (List.isChain_cons_cons.1 inOrder.chain).1
  rw [follows.old] at none
  cases none

/-- A definition that is published again is delivered again, and one that replaces another stops
none of its programs. -/
theorem platform_stream_repeats :
    let again := consumePlatformTopic sampleRtPlatformDef [sampleRaw 0 0, sampleRaw 1 0]
    let replaced := consumePlatformTopic sampleRtPlatformDef [sampleRaw 0 0, sampleRaw 1 1]
    again.map (fun m => (m.newRtPlatDef.hash, m.oldRtPlatDef)) = [("a", none), ("a", none)] ∧ ¬ InOrder again ∧
      replaced.map PlatformMessage.stops = [[], []] ∧ ¬ InOrder replaced := by
  refine ⟨by decide +kernel, ?_, by decide +kernel, ?_⟩
  · exact not_inOrder_pair rfl
  · exact not_inOrder_pair rfl

end Rocketcycle
