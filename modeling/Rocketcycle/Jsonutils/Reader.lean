import Rocketcycle.Jsonutils.Json
import Rocketcycle.Lib.EarlyReturn

/-!
# Reading JSON

`nextToken`, `parse` and `UnmarshalOrdered` of `pkg/jsonutils/jsonutils.go`. What `ParseFloat` makes
of a number is left open. A slice can be read up to its capacity, so the bytes behind the text are
given as well. Every call of the recursion costs one unit of fuel.
-/

namespace Rocketcycle.Jsonutils

/-- The text of an error, and the bytes that are appended to it. -/
structure JsonError where
  text : String
  arg : Bytes
  deriving DecidableEq, Repr

/-- What ends a call other than a value: an error, a panic, or a lack of fuel. -/
inductive Halt where
  | error (e : JsonError)
  | panic
  | stuck
  deriving DecidableEq, Repr

abbrev Read := Except Halt

def failed {α : Type} (text : String) (arg : Bytes) : Read α := .error (.error ⟨text, arg⟩)

inductive TokenType where
  | string
  | number
  | bool
  | null
  | objectStart
  | objectEnd
  | arrayStart
  | arrayEnd
  | comma
  | colon
  deriving DecidableEq, Repr

/-- The number of a type, from `STRING` on. -/
def TokenType.code (t : TokenType) : Nat := t.ctorIdx + 1

inductive Token (F : Type) where
  | string (val : Bytes)
  | number (val : F)
  | bool (val : Bool)
  | null
  | objectStart
  | objectEnd
  | arrayStart
  | arrayEnd
  | comma
  | colon
  deriving DecidableEq, Repr

def Token.type {F : Type} : Token F → TokenType
  | .string _ => .string
  | .number _ => .number
  | .bool _ => .bool
  | .null => .null
  | .objectStart => .objectStart
  | .objectEnd => .objectEnd
  | .arrayStart => .arrayStart
  | .arrayEnd => .arrayEnd
  | .comma => .comma
  | .colon => .colon

def isSpace (c : UInt8) : Bool := c = ch ' ' || c = ch '\n' || c = ch '\r' || c = ch '\t'

def skipSpace (b : Bytes) : Bytes := b.dropWhile isSpace

def isNumber (c : UInt8) : Bool :=
  (ch '0' ≤ c && c ≤ ch '9') || c = ch '-' || c = ch '.' || c = ch 'e' || c = ch 'E'

def skipNumber (b : Bytes) : Bytes := b.dropWhile isNumber

/-- The byte that stands for the one after a backslash. -/
def unescape (c : UInt8) : Option UInt8 :=
  if c = ch '"' then some (ch '"')
  else if c = ch '\\' then some (ch '\\')
  else if c = ch '/' then some (ch '/')
  else if c = ch 'b' then some 8
  else if c = ch 'f' then some 12
  else if c = ch 'n' then some (ch '\n')
  else if c = ch 'r' then some (ch '\r')
  else if c = ch 't' then some (ch '\t')
  else none

section
variable {F : Type} (parseFloat : Bytes → Option F) (behind : Bytes)

/-- The loop over the bytes of a string. The text may end before the string does. Where nothing is
known of an escaped byte, the backslash is left out. -/
def readString (bld : Bytes) : Bytes → Read (Bytes × Option (Token F))
  | [] => .ok ([], none)
  | c :: rest =>
    if c = ch '"' then .ok (rest, some (.string bld))
    else if c = ch '\\' then
      match rest with
      | [] => failed "'\\' as last character in buffer" []
      | e :: rest' =>
        match unescape e with
        | some v => readString (bld ++ [v]) rest'
        | none =>
          if e = ch 'u' then failed "\\u unicode parsing not supported" []
          else readString bld (e :: rest')
    else readString (bld ++ [c]) rest

/-- One of the words `true`, `false` and `null`. The error holds the next ten bytes. -/
def readWord (b : Bytes) (w : Bytes) (tok : Token F) : Read (Bytes × Option (Token F)) :=
  if b.take w.length = w then .ok (b.drop w.length, some tok)
  else if (b ++ behind).length < 10 then .error .panic
  else failed "Unknown token: " ((b ++ behind).take 10)

/-- With no token and no error where a byte starts no token, or a string does not end. -/
def nextToken (b : Bytes) : Read (Bytes × Option (Token F)) :=
  match skipSpace b with
  | [] => .error .panic
  | c :: rest =>
    if isNumber c then
      let numStr := (c :: rest).takeWhile isNumber
      match parseFloat numStr with
      | none => failed "Invalid number: " numStr
      | some num => .ok (skipNumber (c :: rest), some (.number num))
    else if c = ch '\x7b' then .ok (rest, some .objectStart)
    else if c = ch '\x7d' then .ok (rest, some .objectEnd)
    else if c = ch '[' then .ok (rest, some .arrayStart)
    else if c = ch ']' then .ok (rest, some .arrayEnd)
    else if c = ch ',' then .ok (rest, some .comma)
    else if c = ch ':' then .ok (rest, some .colon)
    else if c = ch '"' then readString [] rest
    else if c = ch 't' then readWord behind (c :: rest) (word "true") (.bool true)
    else if c = ch 'f' then readWord behind (c :: rest) (word "false") (.bool false)
    else if c = ch 'n' then readWord behind (c :: rest) (word "null") .null
    else .ok ([], none)

/-- The look at the next token, whose type is read without a check. -/
def peek (b : Bytes) : Read TokenType := do
  let (_, tok) ← nextToken parseFloat behind b
  match tok with
  | none => .error .panic
  | some tok => .ok tok.type

def parseKey (b : Bytes) : Read (Bytes × Bytes) := do
  let (b, tokKey) ← nextToken parseFloat behind b
  match tokKey with
  | some (.string key) => if key = [] then failed "Failed to parse key: " b else .ok (b, key)
  | _ => failed "Failed to parse key: " b

def parseColon (b : Bytes) : Read Bytes := do
  let (b, tokColon) ← nextToken parseFloat behind b
  match tokColon with
  | some .colon => .ok b
  | _ => failed "Failed to parse colon: " b

/-- Whether the end has been read. -/
def commaOrEnd (endType : TokenType) (b : Bytes) : Read (Bytes × Bool) := do
  let (b, tok) ← nextToken parseFloat behind b
  match tok with
  | none => failed "Failed to parse comma or end: " b
  | some tok =>
    if tok.type = endType then .ok (b, true)
    else if tok.type = .comma then .ok (b, false)
    else failed "Failed to parse comma or end: " b

mutual

/-- The loop, with the entries so far. -/
def parseObject : Nat → OrderedMap F → Bytes → Read (Bytes × OrderedMap F)
  | 0, _, _ => .error .stuck
  | fuel + 1, obj, b => do
    let tok ← peek parseFloat behind b
    let (b, obj) ←
      if tok ≠ .objectEnd then do
        let (b, key) ← parseKey parseFloat behind b
        let b ← parseColon parseFloat behind b
        let (b, val) ← parse fuel b
        .ok (b, OrderedMap.set key val obj)
      else .ok (b, obj)
    let (b, atEnd) ← commaOrEnd parseFloat behind .objectEnd b
    if atEnd then .ok (b, obj) else parseObject fuel obj b

def parseArray : Nat → List (Json F) → Bytes → Read (Bytes × List (Json F))
  | 0, _, _ => .error .stuck
  | fuel + 1, arr, b => do
    let tok ← peek parseFloat behind b
    let (b, arr) ←
      if tok ≠ .arrayEnd then do
        let (b, val) ← parse fuel b
        .ok (b, arr ++ [val])
      else .ok (b, arr)
    let (b, atEnd) ← commaOrEnd parseFloat behind .arrayEnd b
    if atEnd then .ok (b, arr) else parseArray fuel arr b

def parse : Nat → Bytes → Read (Bytes × Json F)
  | 0, _ => .error .stuck
  | fuel + 1, b => do
    let (b, tok) ← nextToken parseFloat behind b
    match tok with
    | none => failed "No tokens: " b
    | some .objectStart => do
      let (b, obj) ← parseObject fuel [] b
      .ok (b, .object obj)
    | some .arrayStart => do
      let (b, arr) ← parseArray fuel [] b
      .ok (b, .array arr)
    | some (.string val) => .ok (b, .string val)
    | some (.number val) => .ok (b, .number val)
    | some (.bool val) => .ok (b, .bool val)
    | some .null => .ok (b, .null)
    | some tok => failed s!"Invalid token {tok.type.code}: " b

end

/-- The types to unmarshal into. -/
inductive Target where
  | bool
  | float64
  | string
  | array
  | object
  | other (type : String)
  deriving DecidableEq, Repr

/-- Into an array or a map `null` is read as an empty start, and the text goes on. -/
def unmarshalOrdered (b : Bytes) (target : Target) : Read (Json F) :=
  if b = [] then failed "No data given" []
  else do
    let fuel := 2 * b.length + 2
    let (b, tok) ← nextToken parseFloat behind b
    match tok with
    | none => failed "No tokens: " b
    | some tok =>
      match target with
      | .bool =>
        match tok with
        | .bool val => .ok (.bool val)
        | _ => failed "Invalid token: " b
      | .float64 =>
        match tok with
        | .number val => .ok (.number val)
        | _ => failed "Invalid token: " b
      | .string =>
        match tok with
        | .string val => .ok (.string val)
        | _ => failed "Invalid token: " b
      | .array =>
        if tok.type ≠ .null ∧ tok.type ≠ .arrayStart then failed "Invalid token: " b
        else do
          let (_, arr) ← parseArray parseFloat behind fuel [] b
          .ok (.array arr)
      | .object =>
        if tok.type ≠ .null ∧ tok.type ≠ .objectStart then failed "Invalid token: " b
        else do
          let (_, obj) ← parseObject parseFloat behind fuel [] b
          .ok (.object obj)
      | .other type => failed s!"Invalid type to Unmarshal into: {type}" []

end

end Rocketcycle.Jsonutils
