import Rocketcycle.Jsonutils.Reader

/-!
# A grammar of JSON

Texts and the values they denote, in the form of RFC 8259, with what dialects differ in as
parameters: how numbers and strings are spelled, which keys there may be, and whether a comma may
be followed by the end. A text is read from the front, and what is left of it is given as well.
-/

namespace Rocketcycle.Jsonutils

/-- White space in front of what is left. -/
def Spaces (b r : Bytes) : Prop := ∃ ws, b = ws ++ r ∧ ∀ c ∈ ws, isSpace c = true

/-- What dialects of JSON differ in. -/
structure Dialect (F : Type) where
  number : Bytes → F → Prop
  /-- The characters that a number goes on with. -/
  inNumber : UInt8 → Bool
  string : Bytes → Bytes → Prop
  key : Bytes → Prop
  trailingComma : Prop

section
variable {F : Type}

/-- The spelling of a token in front of what is left. -/
inductive Lexeme (d : Dialect F) : Bytes → Token F → Bytes → Prop where
  | objectStart {r : Bytes} : Lexeme d (ch '\x7b' :: r) .objectStart r
  | objectEnd {r : Bytes} : Lexeme d (ch '\x7d' :: r) .objectEnd r
  | arrayStart {r : Bytes} : Lexeme d (ch '[' :: r) .arrayStart r
  | arrayEnd {r : Bytes} : Lexeme d (ch ']' :: r) .arrayEnd r
  | comma {r : Bytes} : Lexeme d (ch ',' :: r) .comma r
  | colon {r : Bytes} : Lexeme d (ch ':' :: r) .colon r
  | trueWord {r : Bytes} : Lexeme d (word "true" ++ r) (.bool true) r
  | falseWord {r : Bytes} : Lexeme d (word "false" ++ r) (.bool false) r
  | nullWord {r : Bytes} : Lexeme d (word "null" ++ r) .null r
  | number {w r : Bytes} {x : F} (spelled : d.number w x) (ends : ∀ c ∈ r.head?, d.inNumber c = false) :
      Lexeme d (w ++ r) (.number x) r
  | string {w s r : Bytes} (spelled : d.string w s) : Lexeme d (ch '"' :: (w ++ ch '"' :: r)) (.string s) r

/-- A token, with the white space in front of it. -/
def Tok (d : Dialect F) (b : Bytes) (t : Token F) (r : Bytes) : Prop := ∃ b', Spaces b b' ∧ Lexeme d b' t r

/-- What is read: a value, or the rest of an array or an object up to its end, from its start or
from behind a comma. -/
inductive Part (F : Type) where
  | value (v : Json F)
  | elements (afterComma : Bool) (vs : List (Json F))
  | members (afterComma : Bool) (entries : List (Bytes × Json F))

/-- The key of a member and the colon. -/
def KeyColon (d : Dialect F) (b : Bytes) (k : Bytes) (r : Bytes) : Prop :=
  ∃ b', Tok d b (.string k) b' ∧ d.key k ∧ Tok d b' .colon r

inductive Derives (d : Dialect F) : Part F → Bytes → Bytes → Prop where
  | null {b r : Bytes} (h : Tok d b .null r) : Derives d (.value .null) b r
  | bool {v : Bool} {b r : Bytes} (h : Tok d b (.bool v) r) : Derives d (.value (.bool v)) b r
  | number {x : F} {b r : Bytes} (h : Tok d b (.number x) r) : Derives d (.value (.number x)) b r
  | string {s b r : Bytes} (h : Tok d b (.string s) r) : Derives d (.value (.string s)) b r
  | array {vs : List (Json F)} {b b' r : Bytes} (h : Tok d b .arrayStart b')
      (rest : Derives d (.elements false vs) b' r) : Derives d (.value (.array vs)) b r
  | object {es : List (Bytes × Json F)} {b b' r : Bytes} (h : Tok d b .objectStart b')
      (rest : Derives d (.members false es) b' r) : Derives d (.value (.object (OrderedMap.ofEntries es))) b r
  | elementsEnd {afterComma : Bool} {b r : Bytes} (allowed : afterComma = true → d.trailingComma)
      (h : Tok d b .arrayEnd r) : Derives d (.elements afterComma []) b r
  | lastElement {afterComma : Bool} {v : Json F} {b b' r : Bytes} (value : Derives d (.value v) b b')
      (h : Tok d b' .arrayEnd r) : Derives d (.elements afterComma [v]) b r
  | element {afterComma : Bool} {v : Json F} {vs : List (Json F)} {b b' b'' r : Bytes} (value : Derives d (.value v) b b')
      (h : Tok d b' .comma b'') (rest : Derives d (.elements true vs) b'' r) : Derives d (.elements afterComma (v :: vs)) b r
  | membersEnd {afterComma : Bool} {b r : Bytes} (allowed : afterComma = true → d.trailingComma)
      (h : Tok d b .objectEnd r) : Derives d (.members afterComma []) b r
  | lastMember {afterComma : Bool} {k : Bytes} {v : Json F} {b b1 b2 r : Bytes} (key : KeyColon d b k b1)
      (value : Derives d (.value v) b1 b2) (h : Tok d b2 .objectEnd r) : Derives d (.members afterComma [(k, v)]) b r
  | member {afterComma : Bool} {k : Bytes} {v : Json F} {es : List (Bytes × Json F)} {b b1 b2 b3 r : Bytes}
      (key : KeyColon d b k b1) (value : Derives d (.value v) b1 b2) (h : Tok d b2 .comma b3)
      (rest : Derives d (.members true es) b3 r) : Derives d (.members afterComma ((k, v) :: es)) b r

/-- A whole text. -/
def Text (d : Dialect F) (b : Bytes) (v : Json F) : Prop := ∃ r, Derives d (.value v) b r ∧ Spaces r []

/-- Everything that is spelled in `d` is spelled in `d'`. -/
structure Dialect.Within (d d' : Dialect F) : Prop where
  number : ∀ w x, d.number w x → d'.number w x
  inNumber : ∀ c, d.inNumber c = false → d'.inNumber c = false
  string : ∀ w s, d.string w s → d'.string w s
  key : ∀ k, d.key k → d'.key k
  trailingComma : d.trailingComma → d'.trailingComma

variable {d d' : Dialect F}

theorem Tok.mono (h : d.Within d') {b r : Bytes} {t : Token F} (tok : Tok d b t r) : Tok d' b t r := by
  obtain ⟨b', spaces, lexeme⟩ := tok
  refine ⟨b', spaces, ?_⟩
  cases lexeme with
  | objectStart => exact .objectStart
  | objectEnd => exact .objectEnd
  | arrayStart => exact .arrayStart
  | arrayEnd => exact .arrayEnd
  | comma => exact .comma
  | colon => exact .colon
  | trueWord => exact .trueWord
  | falseWord => exact .falseWord
  | nullWord => exact .nullWord
  | number spelled ends => exact .number (h.number _ _ spelled) fun c hc => h.inNumber c (ends c hc)
  | string spelled => exact .string (h.string _ _ spelled)

theorem KeyColon.mono (h : d.Within d') {b k r : Bytes} (key : KeyColon d b k r) : KeyColon d' b k r := by
  obtain ⟨b', tok, allowed, colon⟩ := key
  exact ⟨b', tok.mono h, h.key k allowed, colon.mono h⟩

/-- A text of a dialect denotes the same in a wider one. -/
theorem Derives.mono (h : d.Within d') {p : Part F} {b r : Bytes} (der : Derives d p b r) : Derives d' p b r := by
  induction der with
  | null t => exact .null (t.mono h)
  | bool t => exact .bool (t.mono h)
  | number t => exact .number (t.mono h)
  | string t => exact .string (t.mono h)
  | array t _ ih => exact .array (t.mono h) ih
  | object t _ ih => exact .object (t.mono h) ih
  | elementsEnd allowed t => exact .elementsEnd (fun hc => h.trailingComma (allowed hc)) (t.mono h)
  | lastElement _ t ih => exact .lastElement ih (t.mono h)
  | element _ t _ ih ih' => exact .element ih (t.mono h) ih'
  | membersEnd allowed t => exact .membersEnd (fun hc => h.trailingComma (allowed hc)) (t.mono h)
  | lastMember key _ t ih => exact .lastMember (key.mono h) ih (t.mono h)
  | member key _ t _ ih ih' => exact .member (key.mono h) ih (t.mono h) ih'

theorem Text.mono (h : d.Within d') {b : Bytes} {v : Json F} (text : Text d b v) : Text d' b v := by
  obtain ⟨r, der, spaces⟩ := text
  exact ⟨r, der.mono h, spaces⟩

end

end Rocketcycle.Jsonutils
