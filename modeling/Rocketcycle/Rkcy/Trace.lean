import Mathlib.Tactic.Common

/-!
# Trace parents

`pkg/rkcy/trace.go`. A trace parent is searched for the pattern of two, thirty two, sixteen and
two hexadecimal digits between dashes; the second group is the transaction id.
-/

namespace Rocketcycle

def isHexDigit (c : Char) : Bool := ('0' ≤ c && c ≤ '9') || ('a' ≤ c && c ≤ 'f')

/-- `n` hexadecimal digits, and what follows them. -/
def hexGroup (n : Nat) (cs : List Char) : Option (List Char × List Char) :=
  if (cs.take n).length = n && (cs.take n).all isHexDigit then some (cs.take n, cs.drop n) else none

def dash : List Char → Option (List Char)
  | '-' :: cs => some cs
  | _ => none

/-- A match of the expression at the head of the text: its four groups. -/
def traceParentAt (cs : List Char) : Option (List (List Char)) := do
  let (version, cs) ← hexGroup 2 cs
  let cs ← dash cs
  let (traceId, cs) ← hexGroup 32 cs
  let cs ← dash cs
  let (spanId, cs) ← hexGroup 16 cs
  let cs ← dash cs
  let (flags, _) ← hexGroup 2 cs
  return [version, traceId, spanId, flags]

/-- `FindAllStringSubmatch`: the matches from the left that do not overlap; `skip` characters
belong to the match before. -/
def findTraceParents (skip : Nat) : List Char → List (List (List Char))
  | [] => []
  | c :: cs =>
    match skip with
    | skip + 1 => findTraceParents skip cs
    | 0 =>
      match traceParentAt (c :: cs) with
      | some groups => groups :: findTraceParents 54 cs
      | none => findTraceParents 0 cs

def traceParentIsValid (traceParent : String) : Bool :=
  !(findTraceParents 0 traceParent.toList).isEmpty

def traceParentParts (traceParent : String) : List String :=
  match findTraceParents 0 traceParent.toList with
  | [groups] => groups.map String.ofList
  | _ => []

def traceIdFromTraceParent (traceParent : String) : String :=
  match traceParentParts traceParent with
  | [_, traceId, _, _] => traceId
  | _ => ""

example : traceIdFromTraceParent "00-0123456789abcdef0123456789abcdef-0123456789abcdef-01" =
    "0123456789abcdef0123456789abcdef" := by decide +kernel

end Rocketcycle
