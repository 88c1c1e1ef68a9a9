import Rocketcycle.Jsonutils.Total
import Rocketcycle.Lib.Runes

/-!
# JSON as RFC 8259 has it

Numbers and strings in the grammar of the RFC, with three features as options: a plus sign in an
exponent, `\u` escapes, and empty keys. Without them a text is read as what it denotes, and a text
with one of the last two is refused.
-/

namespace Rocketcycle.Jsonutils
open Early

/-! ## The grammar -/

def isDigit (c : UInt8) : Bool := ch '0' ≤ c && c ≤ ch '9'

def Digits (w : Bytes) : Prop := w ≠ [] ∧ ∀ c ∈ w, isDigit c = true

/-- `"0"`, or digits that do not begin with it. -/
def IntPart (w : Bytes) : Prop := w = word "0" ∨ ∃ d ds, w = d :: ds ∧ isDigit d = true ∧ d ≠ ch '0' ∧ ∀ c ∈ ds, isDigit c = true

def FracPart (w : Bytes) : Prop := w = [] ∨ ∃ ds, w = ch '.' :: ds ∧ Digits ds

def ExpPart (plusSign : Bool) (w : Bytes) : Prop :=
  w = [] ∨ ∃ e sign ds, w = e :: (sign ++ ds) ∧ (e = ch 'e' ∨ e = ch 'E') ∧
    (sign = [] ∨ sign = word "-" ∨ (plusSign = true ∧ sign = word "+")) ∧ Digits ds

def RfcNumber (plusSign : Bool) (w : Bytes) : Prop :=
  ∃ minus int frac exp, w = minus ++ (int ++ (frac ++ exp)) ∧ (minus = [] ∨ minus = word "-") ∧
    IntPart int ∧ FracPart frac ∧ ExpPart plusSign exp

/-- The escapes of one character. -/
def escapes : List (UInt8 × UInt8) :=
  [(ch '"', 0x22), (ch '\\', 0x5C), (ch '/', 0x2F), (ch 'b', 0x08), (ch 'f', 0x0C), (ch 'n', 0x0A), (ch 'r', 0x0D), (ch 't', 0x09)]

def hexDigit (c : UInt8) : Option Nat :=
  if isDigit c then some (c.toNat - (ch '0').toNat)
  else if ch 'a' ≤ c ∧ c ≤ ch 'f' then some (c.toNat - (ch 'a').toNat + 10)
  else if ch 'A' ≤ c ∧ c ≤ ch 'F' then some (c.toNat - (ch 'A').toNat + 10)
  else none

/-- Four hexadecimal digits. -/
inductive Hex4 : Bytes → Nat → Prop where
  | intro {a b c d : UInt8} {x y z t : Nat} (ha : hexDigit a = some x) (hb : hexDigit b = some y) (hc : hexDigit c = some z)
      (hd : hexDigit d = some t) : Hex4 [a, b, c, d] (((x * 16 + y) * 16 + z) * 16 + t)

/-- What is between the quotes, and the text it stands for. The RFC gives a surrogate that is not in a
pair no meaning; it is the replacement character here, as for the standard library. -/
inductive RfcBody (unicodeEscapes : Bool) : Bytes → Bytes → Prop where
  | nil : RfcBody unicodeEscapes [] []
  | char {c : Char} {w s : Bytes} (printable : 0x20 ≤ c.toNat) (quote : c ≠ '"') (backslash : c ≠ '\\')
      (rest : RfcBody unicodeEscapes w s) : RfcBody unicodeEscapes (String.utf8EncodeChar c ++ w) (String.utf8EncodeChar c ++ s)
  | escape {e v : UInt8} {w s : Bytes} (known : (e, v) ∈ escapes) (rest : RfcBody unicodeEscapes w s) :
      RfcBody unicodeEscapes (ch '\\' :: e :: w) (v :: s)
  | codePoint {c : Char} {hex w s : Bytes} (allowed : unicodeEscapes = true) (h : Hex4 hex c.toNat)
      (rest : RfcBody unicodeEscapes w s) :
      RfcBody unicodeEscapes (ch '\\' :: ch 'u' :: (hex ++ w)) (String.utf8EncodeChar c ++ s)
  | surrogatePair {c : Char} {hex hex' w s : Bytes} {hi lo : Nat} (allowed : unicodeEscapes = true) (h : Hex4 hex hi)
      (h' : Hex4 hex' lo) (high : 0xD800 ≤ hi ∧ hi < 0xDC00) (low : 0xDC00 ≤ lo ∧ lo < 0xE000)
      (code : c.toNat = 0x10000 + (hi - 0xD800) * 0x400 + (lo - 0xDC00)) (rest : RfcBody unicodeEscapes w s) :
      RfcBody unicodeEscapes (ch '\\' :: ch 'u' :: (hex ++ ch '\\' :: ch 'u' :: (hex' ++ w))) (String.utf8EncodeChar c ++ s)
  | surrogate {hex w s : Bytes} {n : Nat} (allowed : unicodeEscapes = true) (h : Hex4 hex n) (half : 0xD800 ≤ n ∧ n < 0xE000)
      (rest : RfcBody unicodeEscapes w s) :
      RfcBody unicodeEscapes (ch '\\' :: ch 'u' :: (hex ++ w)) (String.utf8EncodeChar '\uFFFD' ++ s)

/-- What a text may make use of. -/
structure Features where
  plusSign : Bool
  unicodeEscapes : Bool
  emptyKeys : Bool
  deriving DecidableEq, Repr

def Features.all : Features := ⟨true, true, true⟩

/-- All but a plus sign in an exponent. -/
def Features.unsigned : Features := ⟨false, true, true⟩

def Features.plain : Features := ⟨false, false, false⟩

section
variable {F : Type} (parseFloat : Bytes → Option F)

/-- RFC 8259 with some of its features. Numbers are worth what `ParseFloat` makes of them. -/
def rfc8259 (features : Features) : Dialect F where
  number w x := RfcNumber features.plusSign w ∧ parseFloat w = some x
  inNumber c := isNumber c || c = ch '+'
  string := RfcBody features.unicodeEscapes
  key k := features.emptyKeys = true ∨ k ≠ []
  trailingComma := False

/-! ## Texts without the features -/

theorem isNumber_of_isDigit {c : UInt8} (h : isDigit c = true) : isNumber c = true := by
  unfold isDigit at h
  simp [isNumber, h]

theorem IntPart.digits {w : Bytes} (h : IntPart w) : w ≠ [] ∧ ∀ c ∈ w, isNumber c = true := by
  rcases h with rfl | ⟨d, ds, rfl, digit, -, digits⟩
  · decide +kernel
  · refine ⟨nofun, ?_⟩
    intro c hc
    rcases List.mem_cons.1 hc with rfl | hc
    · exact isNumber_of_isDigit digit
    · exact isNumber_of_isDigit (digits c hc)

theorem FracPart.digits {w : Bytes} (h : FracPart w) : ∀ c ∈ w, isNumber c = true := by
  rcases h with rfl | ⟨ds, rfl, -, digits⟩
  · nofun
  · intro c hc
    rcases List.mem_cons.1 hc with rfl | hc
    · decide
    · exact isNumber_of_isDigit (digits c hc)

theorem ExpPart.digits {w : Bytes} (h : ExpPart false w) : ∀ c ∈ w, isNumber c = true := by
  rcases h with rfl | ⟨e, sign, ds, rfl, he, hsign, -, digits⟩
  · nofun
  · intro c hc
    simp only [List.mem_cons, List.mem_append] at hc
    rcases hc with rfl | hc | hc
    · rcases he with rfl | rfl
      · decide
      · decide
    · rcases hsign with rfl | rfl | ⟨h, -⟩
      · cases hc
      · exact (List.mem_singleton.1 hc) ▸ by decide
      · cases h
    · exact isNumber_of_isDigit (digits c hc)

/-- A number without a plus sign is made of what the reader takes for one. -/
theorem RfcNumber.digits {w : Bytes} (h : RfcNumber false w) : w ≠ [] ∧ ∀ c ∈ w, isNumber c = true := by
  obtain ⟨minus, int, frac, exp, rfl, hminus, hint, hfrac, hexp⟩ := h
  constructor
  · simp [hint.digits.1]
  · intro c hc
    simp only [List.mem_append] at hc
    rcases hc with hc | hc | hc | hc
    · rcases hminus with rfl | rfl
      · cases hc
      · exact (List.mem_singleton.1 hc) ▸ by decide
    · exact hint.digits.2 c hc
    · exact hfrac.digits c hc
    · exact hexp.digits c hc

theorem unescape_of_escapes {e v : UInt8} (h : (e, v) ∈ escapes) : unescape e = some v := by
  simp only [escapes, List.mem_cons, Prod.mk.injEq, List.not_mem_nil, or_false] at h
  rcases h with ⟨rfl, rfl⟩ | ⟨rfl, rfl⟩ | ⟨rfl, rfl⟩ | ⟨rfl, rfl⟩ | ⟨rfl, rfl⟩ | ⟨rfl, rfl⟩ | ⟨rfl, rfl⟩ | ⟨rfl, rfl⟩
  all_goals decide

/-- Bytes that are neither a quote nor a backslash stand for themselves. -/
theorem Body.append {u w s : Bytes} (ordinary : ∀ b ∈ u, b ≠ ch '"' ∧ b ≠ ch '\\') (h : Body w s) : Body (u ++ w) (u ++ s) := by
  induction u with
  | nil => exact h
  | cons b u ih =>
    obtain ⟨quote, backslash⟩ := ordinary b List.mem_cons_self
    exact .byte quote backslash (ih fun b' hb => ordinary b' (List.mem_cons_of_mem _ hb))

/-- Only a quote and a backslash have their bytes in their encoding. -/
theorem utf8EncodeChar_ordinary {c : Char} (quote : c ≠ '"') (backslash : c ≠ '\\') :
    ∀ b ∈ String.utf8EncodeChar c, b ≠ ch '"' ∧ b ≠ ch '\\' := by
  intro b hb
  rcases Utf8.utf8EncodeChar_cases c with ⟨ascii, single⟩ | ⟨-, high⟩
  · rw [single] at hb
    have heq : b.toNat = c.toNat := by
      rw [List.mem_singleton.1 hb, UInt8.toNat_ofNat']
      omega
    refine ⟨fun h => quote (Char.toNat_inj.1 (heq ▸ h ▸ rfl)), fun h => backslash (Char.toNat_inj.1 (heq ▸ h ▸ rfl))⟩
  · have big := high b hb
    constructor
    · rintro rfl
      exact absurd big (by decide)
    · rintro rfl
      exact absurd big (by decide)

theorem RfcBody.body {w s : Bytes} (h : RfcBody false w s) : Body w s := by
  induction h with
  | nil => exact .nil
  | char _ quote backslash _ ih => exact ih.append (utf8EncodeChar_ordinary quote backslash)
  | escape known _ ih => exact .escape (unescape_of_escapes known) ih
  | codePoint allowed => cases allowed
  | surrogatePair allowed => cases allowed
  | surrogate allowed => cases allowed

/-- Without the features the RFC is within what the reader reads. -/
theorem plain_within : (rfc8259 parseFloat .plain).Within (readerDialect parseFloat) where
  number w x h := ⟨h.1.digits.1, h.1.digits.2, h.2⟩
  inNumber c h := by
    have h : (isNumber c || decide (c = ch '+')) = false := h
    rw [Bool.or_eq_false_iff] at h
    exact h.1
  string _ _ h := h.body
  key k h := by
    rcases h with h | h
    · cases h
    · exact h
  trailingComma := False.elim

/-! ## Texts with them

Where a text of the RFC has one of the features, the reader gets to a place that it cannot read. -/

theorem readString_ordinary {u : Bytes} (ordinary : ∀ b ∈ u, b ≠ ch '"' ∧ b ≠ ch '\\') (bld rest : Bytes) :
    readString (F := F) bld (u ++ rest) = readString (bld ++ u) rest := by
  induction u generalizing bld with
  | nil => rw [List.nil_append, List.append_nil]
  | cons b u ih =>
    obtain ⟨quote, backslash⟩ := ordinary b List.mem_cons_self
    rw [List.cons_append, readString_cons, if_neg quote, if_neg backslash, ih fun b' hb => ordinary b' (List.mem_cons_of_mem _ hb),
      List.append_assoc]
    rfl

theorem readString_unicode (bld rest : Bytes) :
    readString (F := F) bld (ch '\\' :: ch 'u' :: rest) = failed "\\u unicode parsing not supported" [] := by
  rw [readString_cons, if_neg (by decide), if_pos rfl]
  rfl

theorem RfcBody.plain_or {unicodeEscapes : Bool} {w s : Bytes} (h : RfcBody unicodeEscapes w s) :
    RfcBody false w s ∨ ∀ bld r, readString (F := F) bld (w ++ r) = failed "\\u unicode parsing not supported" [] := by
  induction h with
  | nil => exact .inl .nil
  | char printable quote backslash _ ih =>
    rcases ih with plain | fails
    · exact .inl (.char printable quote backslash plain)
    · refine .inr fun bld r => ?_
      rw [List.append_assoc, readString_ordinary (utf8EncodeChar_ordinary quote backslash)]
      exact fails _ r
  | escape known _ ih =>
    rcases ih with plain | fails
    · exact .inl (.escape known plain)
    · refine .inr fun bld r => ?_
      rw [List.cons_append, List.cons_append, readString_cons, if_neg (by decide), if_pos rfl]
      simp only [unescape_of_escapes known]
      exact fails _ r
  | codePoint => exact .inr fun bld r => readString_unicode bld _
  | surrogatePair => exact .inr fun bld r => readString_unicode bld _
  | surrogate => exact .inr fun bld r => readString_unicode bld _

variable {parseFloat}

theorem Tok.plain_or {b r : Bytes} {t : Token F} (h : Tok (rfc8259 parseFloat .unsigned) b t r) :
    Tok (rfc8259 parseFloat .plain) b t r ∨ ∀ t' r', ¬Tok (readerDialect parseFloat) b t' r' := by
  obtain ⟨b', spaces, lexeme⟩ := h
  cases lexeme with
  | objectStart => exact .inl ⟨_, spaces, .objectStart⟩
  | objectEnd => exact .inl ⟨_, spaces, .objectEnd⟩
  | arrayStart => exact .inl ⟨_, spaces, .arrayStart⟩
  | arrayEnd => exact .inl ⟨_, spaces, .arrayEnd⟩
  | comma => exact .inl ⟨_, spaces, .comma⟩
  | colon => exact .inl ⟨_, spaces, .colon⟩
  | trueWord => exact .inl ⟨_, spaces, .trueWord⟩
  | falseWord => exact .inl ⟨_, spaces, .falseWord⟩
  | nullWord => exact .inl ⟨_, spaces, .nullWord⟩
  | number spelled ends => exact .inl ⟨_, spaces, .number spelled ends⟩
  | @string w s _ spelled =>
    rcases RfcBody.plain_or (F := F) spelled with plain | fails
    · exact .inl ⟨_, spaces, .string plain⟩
    · refine .inr fun t' r' tok => ?_
      have answered := nextToken_of_tok [] tok
      unfold nextToken at answered
      rw [skipSpace_cons spaces (by decide)] at answered
      exact nomatch (fails [] (ch '"' :: r)).symm.trans answered

theorem Derives.unique {v v' : Json F} {b r r' : Bytes} (h : Derives (readerDialect parseFloat) (.value v) b r)
    (h' : Derives (readerDialect parseFloat) (.value v') b r') : v = v' ∧ r = r' := by
  have same := (h.read [] _ (Nat.lt_succ_self _)).symm.trans (h'.read [] _ (Nat.lt_succ_self _))
  cases same
  exact ⟨rfl, rfl⟩

theorem KeyColon.unique {k k' b r r' : Bytes} (h : KeyColon (readerDialect parseFloat) b k r)
    (h' : KeyColon (readerDialect parseFloat) b k' r') : k = k' ∧ r = r' := by
  obtain ⟨b1, tok, -, colon⟩ := h
  obtain ⟨b1', tok', -, colon'⟩ := h'
  obtain ⟨key, rfl⟩ := tok.unique tok'
  cases key
  exact ⟨rfl, (colon.unique colon').2⟩

/-- The reader reads no part of a kind. -/
def Unread (parseFloat : Bytes → Option F) (w : Work) (b : Bytes) : Prop :=
  ∀ (p : Part F) r, p.work = w → ¬Derives (readerDialect parseFloat) p b r

/-- Every part begins with a token. -/
theorem Derives.first {p : Part F} {b r : Bytes} (h : Derives (readerDialect parseFloat) p b r) :
    ∃ t r', Tok (readerDialect parseFloat) b t r' := by
  cases h with
  | null t | bool t | number t | string t | array t _ | object t _ => exact ⟨_, _, t⟩
  | elementsEnd _ t | membersEnd _ t => exact ⟨_, _, t⟩
  | lastElement value _ | element value _ _ =>
    obtain ⟨t, r', tok, -⟩ := value.begins
    exact ⟨t, r', tok⟩
  | lastMember key _ _ | member key _ _ _ =>
    obtain ⟨b', tok, -⟩ := key
    exact ⟨_, _, tok⟩

theorem unread_of_noTok {w : Work} {b : Bytes} (h : ∀ t r, ¬Tok (readerDialect parseFloat) b t r) : Unread parseFloat w b := by
  intro p r _ der
  obtain ⟨t, r', tok⟩ := der.first
  exact h t r' tok

theorem unread_array {b b' : Bytes} (h : Tok (readerDialect parseFloat) b .arrayStart b') (rest : Unread parseFloat .elements b') :
    Unread parseFloat .value b := by
  intro p r isValue der
  cases der with
  | null t | bool t | number t | string t | object t _ => cases (h.unique t).1
  | array t der' =>
    obtain ⟨-, rfl⟩ := h.unique t
    exact rest _ _ rfl der'
  | _ => cases isValue

theorem unread_object {b b' : Bytes} (h : Tok (readerDialect parseFloat) b .objectStart b') (rest : Unread parseFloat .members b') :
    Unread parseFloat .value b := by
  intro p r isValue der
  cases der with
  | null t | bool t | number t | string t | array t _ => cases (h.unique t).1
  | object t der' =>
    obtain ⟨-, rfl⟩ := h.unique t
    exact rest _ _ rfl der'
  | _ => cases isValue

/-- Elements are not read where no value is. -/
theorem unread_elements {b : Bytes} (noEnd : ∀ r, ¬Tok (readerDialect parseFloat) b .arrayEnd r)
    (noValue : Unread parseFloat .value b) : Unread parseFloat .elements b := by
  intro p r isElements der
  cases der with
  | elementsEnd _ t => exact noEnd _ t
  | lastElement value _ | element value _ _ => exact noValue _ _ rfl value
  | _ => cases isElements

/-- Behind the only value that can be read. -/
theorem unread_elements_behind {v : Json F} {b b' : Bytes} (value : Derives (readerDialect parseFloat) (.value v) b b')
    (noEnd : ∀ r, ¬Tok (readerDialect parseFloat) b' .arrayEnd r)
    (noRest : ∀ b'', Tok (readerDialect parseFloat) b' .comma b'' → Unread parseFloat .elements b'') :
    Unread parseFloat .elements b := by
  intro p r isElements der
  cases der with
  | elementsEnd _ t =>
    obtain ⟨t', r', tok, begins⟩ := value.begins
    cases (tok.unique t).1
    exact begins rfl
  | lastElement value' t =>
    obtain ⟨-, rfl⟩ := value.unique value'
    exact noEnd _ t
  | element value' t rest =>
    obtain ⟨-, rfl⟩ := value.unique value'
    exact noRest _ t _ _ rfl rest
  | _ => cases isElements

theorem unread_members {b : Bytes} (noEnd : ∀ r, ¬Tok (readerDialect parseFloat) b .objectEnd r)
    (noMember : ∀ k b', KeyColon (readerDialect parseFloat) b k b' → Unread parseFloat .value b') :
    Unread parseFloat .members b := by
  intro p r isMembers der
  cases der with
  | membersEnd _ t => exact noEnd _ t
  | lastMember key value _ | member key value _ _ => exact noMember _ _ key _ _ rfl value
  | _ => cases isMembers

theorem unread_members_behind {k : Bytes} {v : Json F} {b b1 b2 : Bytes} (key : KeyColon (readerDialect parseFloat) b k b1)
    (value : Derives (readerDialect parseFloat) (.value v) b1 b2)
    (noEnd : ∀ r, ¬Tok (readerDialect parseFloat) b2 .objectEnd r)
    (noRest : ∀ b3, Tok (readerDialect parseFloat) b2 .comma b3 → Unread parseFloat .members b3) :
    Unread parseFloat .members b := by
  intro p r isMembers der
  cases der with
  | membersEnd _ t =>
    obtain ⟨b', tok, -⟩ := key
    cases (tok.unique t).1
  | lastMember key' value' t =>
    obtain ⟨-, rfl⟩ := key.unique key'
    obtain ⟨-, rfl⟩ := value.unique value'
    exact noEnd _ t
  | member key' value' t rest =>
    obtain ⟨-, rfl⟩ := key.unique key'
    obtain ⟨-, rfl⟩ := value.unique value'
    exact noRest _ t _ _ rfl rest
  | _ => cases isMembers

theorem Tok.differs {b r r' : Bytes} {t t' : Token F} (h : Tok (rfc8259 parseFloat .unsigned) b t r) (differ : t ≠ t') :
    ¬Tok (readerDialect parseFloat) b t' r' := by
  intro tok
  rcases h.plain_or with plain | none
  · exact differ ((plain.mono (plain_within parseFloat)).unique tok).1
  · exact none _ _ tok

theorem Derives.not_arrayEnd {v : Json F} {b r r' : Bytes} (h : Derives (rfc8259 parseFloat .unsigned) (.value v) b r) :
    ¬Tok (readerDialect parseFloat) b .arrayEnd r' := by
  cases h with
  | null t | bool t | number t | string t | array t _ | object t _ => exact t.differs nofun

theorem KeyColon.not_objectEnd {k b r r' : Bytes} (h : KeyColon (rfc8259 parseFloat .unsigned) b k r) :
    ¬Tok (readerDialect parseFloat) b .objectEnd r' := by
  obtain ⟨b', tok, -⟩ := h
  exact tok.differs nofun

theorem KeyColon.plain_or {k b r : Bytes} (h : KeyColon (rfc8259 parseFloat .unsigned) b k r) :
    KeyColon (rfc8259 parseFloat .plain) b k r ∨ ∀ k' r', ¬KeyColon (readerDialect parseFloat) b k' r' := by
  obtain ⟨b', tok, -, colon⟩ := h
  rcases tok.plain_or with plain | none
  · rcases colon.plain_or with plainColon | noColon
    · by_cases empty : k = []
      · refine .inr fun k' r' ⟨b1, tok', nonempty, _⟩ => ?_
        cases ((plain.mono (plain_within parseFloat)).unique tok').1
        exact nonempty empty
      · exact .inl ⟨b', plain, .inr empty, plainColon⟩
    · refine .inr fun k' r' ⟨b1, tok', _, colon'⟩ => ?_
      obtain ⟨-, rfl⟩ := (plain.mono (plain_within parseFloat)).unique tok'
      exact noColon _ _ colon'
  · exact .inr fun k' r' ⟨b1, tok', _⟩ => none _ _ tok'

/-- A part of a text of the RFC has none of the features, or it is not read. -/
theorem Derives.plain_or {p : Part F} {b r : Bytes} (h : Derives (rfc8259 parseFloat .unsigned) p b r) :
    Derives (rfc8259 parseFloat .plain) p b r ∨ Unread parseFloat p.work b := by
  have within := plain_within (F := F) parseFloat
  induction h with
  | null t => exact t.plain_or.imp .null unread_of_noTok
  | bool t => exact t.plain_or.imp .bool unread_of_noTok
  | number t => exact t.plain_or.imp .number unread_of_noTok
  | string t => exact t.plain_or.imp .string unread_of_noTok
  | array t _ ih =>
    rcases t.plain_or with plain | none
    · exact ih.imp (.array plain) (unread_array (plain.mono within))
    · exact .inr (unread_of_noTok none)
  | object t _ ih =>
    rcases t.plain_or with plain | none
    · exact ih.imp (.object plain) (unread_object (plain.mono within))
    · exact .inr (unread_of_noTok none)
  | elementsEnd allowed t => exact t.plain_or.imp (.elementsEnd allowed) unread_of_noTok
  | lastElement value t ih =>
    rcases ih with plainValue | noValue
    · refine t.plain_or.imp (.lastElement plainValue) fun none => ?_
      exact unread_elements_behind (plainValue.mono within) (fun _ => none _ _) fun _ t' => absurd t' (none _ _)
    · exact .inr (unread_elements (fun _ => value.not_arrayEnd) noValue)
  | element value t _ ih ih' =>
    rcases ih with plainValue | noValue
    · rcases t.plain_or with plain | none
      · refine ih'.imp (.element plainValue plain) fun unread => ?_
        refine unread_elements_behind (plainValue.mono within) (fun _ => t.differs nofun) fun b3 t' => ?_
        obtain ⟨-, rfl⟩ := (plain.mono within).unique t'
        exact unread
      · exact .inr (unread_elements_behind (plainValue.mono within) (fun _ => none _ _) fun _ t' => absurd t' (none _ _))
    · exact .inr (unread_elements (fun _ => value.not_arrayEnd) noValue)
  | membersEnd allowed t => exact t.plain_or.imp (.membersEnd allowed) unread_of_noTok
  | lastMember key value t ih =>
    rcases key.plain_or with plainKey | noKey
    · rcases ih with plainValue | noValue
      · refine t.plain_or.imp (.lastMember plainKey plainValue) fun none => ?_
        exact unread_members_behind (plainKey.mono within) (plainValue.mono within) (fun _ => none _ _)
          fun _ t' => absurd t' (none _ _)
      · refine .inr (unread_members (fun _ => key.not_objectEnd) fun k' b' key' => ?_)
        obtain ⟨-, rfl⟩ := (plainKey.mono within).unique key'
        exact noValue
    · exact .inr (unread_members (fun _ => key.not_objectEnd) fun _ _ key' => absurd key' (noKey _ _))
  | member key value t _ ih ih' =>
    rcases key.plain_or with plainKey | noKey
    · rcases ih with plainValue | noValue
      · rcases t.plain_or with plain | none
        · refine ih'.imp (.member plainKey plainValue plain) fun unread => ?_
          refine unread_members_behind (plainKey.mono within) (plainValue.mono within) (fun _ => t.differs nofun) fun b3 t' => ?_
          obtain ⟨-, rfl⟩ := (plain.mono within).unique t'
          exact unread
        · exact .inr (unread_members_behind (plainKey.mono within) (plainValue.mono within) (fun _ => none _ _)
            fun _ t' => absurd t' (none _ _))
      · refine .inr (unread_members (fun _ => key.not_objectEnd) fun k' b' key' => ?_)
        obtain ⟨-, rfl⟩ := (plainKey.mono within).unique key'
        exact noValue
    · exact .inr (unread_members (fun _ => key.not_objectEnd) fun _ _ key' => absurd key' (noKey _ _))

end

end Rocketcycle.Jsonutils
