import Rocketcycle.Jsonutils.Json
import Rocketcycle.Lib.Runes

/-!
# Writing JSON

`marshal` and its callers of `pkg/jsonutils/jsonutils.go`. What `FormatFloat` makes of a number is left
open. A container with at most one entry at every level is written on one line.
-/

namespace Rocketcycle.Jsonutils

section
variable {F : Type} (formatFloat : F → Bytes)

mutual

def isTrivialObject : List (Bytes × Json F) → Bool
  | [] => true
  | [entry] => isTrivialEntry entry
  | _ :: _ :: _ => false
termination_by structural entries => entries

def isTrivialArray : List (Json F) → Bool
  | [] => true
  | [itm] => isTrivialItem itm
  | _ :: _ :: _ => false
termination_by structural arr => arr

def isTrivialEntry : Bytes × Json F → Bool
  | (_, v) => isTrivialItem v
termination_by structural entry => entry

/-- The only value of a container. -/
def isTrivialItem : Json F → Bool
  | .array val => isTrivialArray val
  | .object val => isTrivialObject val
  | _ => true
termination_by structural v => v

end

/-- How a character of a string is written. -/
def encodeRune (c : Char) : Bytes :=
  if c = '"' then [ch '\\', ch '"']
  else if c = '\\' then [ch '\\', ch '\\']
  else if c = Char.ofNat 8 then [ch '\\', ch 'b']
  else if c = Char.ofNat 12 then [ch '\\', ch 'f']
  else if c = '\n' then [ch '\\', ch 'n']
  else if c = '\r' then [ch '\\', ch 'r']
  else if c = '\t' then [ch '\\', ch 't']
  else String.utf8EncodeChar c

/-- `EncodeString`. -/
def encodeString (s : Bytes) : Bytes := ch '"' :: ((Utf8.runes s).flatMap encodeRune ++ [ch '"'])

mutual

def marshal (eol indent currIndent colonSpace : Bytes) : Json F → Bytes
  | .null => word "null"
  | .bool true => word "true"
  | .bool false => word "false"
  | .number val => formatFloat val
  | .string val => encodeString val
  | .array val =>
    if isTrivialArray val then ch '[' :: (marshalElements [] indent [] colonSpace val ++ [ch ']'])
    else ch '[' :: (eol ++ (marshalElements eol indent (currIndent ++ indent) colonSpace val ++ (currIndent ++ [ch ']'])))
  | .object val =>
    if isTrivialObject val then ch '\x7b' :: (marshalMembers [] indent [] colonSpace val ++ [ch '\x7d'])
    else ch '\x7b' :: (eol ++ (marshalMembers eol indent (currIndent ++ indent) colonSpace val ++ (currIndent ++ [ch '\x7d'])))
termination_by structural v => v

/-- The loop over the elements of an array. -/
def marshalElements (eol indent newIndent colonSpace : Bytes) : List (Json F) → Bytes
  | [] => []
  | itm :: rest =>
    newIndent ++ (marshal eol indent newIndent colonSpace itm ++ ((if rest.isEmpty then [] else [ch ',']) ++
      (eol ++ marshalElements eol indent newIndent colonSpace rest)))
termination_by structural arr => arr

/-- The loop over the entries of an object. -/
def marshalMembers (eol indent newIndent colonSpace : Bytes) : List (Bytes × Json F) → Bytes
  | [] => []
  | entry :: rest =>
    newIndent ++ (marshalEntry eol indent newIndent colonSpace entry ++ ((if rest.isEmpty then [] else [ch ',']) ++
      (eol ++ marshalMembers eol indent newIndent colonSpace rest)))
termination_by structural entries => entries

/-- A key, as it is, and its value. -/
def marshalEntry (eol indent newIndent colonSpace : Bytes) : Bytes × Json F → Bytes
  | (key, itmVal) =>
    ch '"' :: (key ++ (ch '"' :: ch ':' :: (colonSpace ++ marshal eol indent newIndent colonSpace itmVal)))
termination_by structural entry => entry

end

/-- `MarshalOrdered`. -/
def marshalOrdered (v : Json F) : Bytes := marshal formatFloat [] [] [] [] v

/-- `MarshalOrderedIndent`. -/
def marshalOrderedIndent (v : Json F) (linePrefix indent : Bytes) : Bytes :=
  marshal formatFloat (ch '\n' :: linePrefix) indent [] (word " ") v

example : marshalOrderedIndent (fun _ : Unit => word "1") (.object [(word "a", .array [.number (), .null]), (word "b", .object [])])
    [] (word "  ") = word "\x7b\n  \"a\": [\n    1,\n    null\n  ],\n  \"b\": \x7b\x7d\n\x7d" := by decide

end

end Rocketcycle.Jsonutils
