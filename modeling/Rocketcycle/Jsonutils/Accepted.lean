import Rocketcycle.Jsonutils.Rfc8259

/-!
# What is accepted as a map

`UnmarshalOrdered` into an `OrderedMap` reads the texts of its own dialect, and of the texts of
RFC 8259 those that do without `\u` escapes and empty keys.
-/

namespace Rocketcycle.Jsonutils
open Early

section
variable {F : Type} {parseFloat : Bytes → Option F} {behind : Bytes}

/-- The members that follow the start of an object, and the map they make. -/
def ReadAsMap (parseFloat : Bytes → Option F) (b : Bytes) (v : Json F) : Prop :=
  ∃ b' r es, StartsWith parseFloat b .objectStart b' ∧ Derives (readerDialect parseFloat) (.members false es) b' r ∧
    v = .object (OrderedMap.ofEntries es)

/-- A map is returned exactly for the texts of the dialect. -/
theorem unmarshalOrdered_object_iff {b : Bytes} {v : Json F} :
    unmarshalOrdered parseFloat behind b .object = .ok v ↔ ReadAsMap parseFloat b v := by
  constructor
  · intro accepted
    by_cases empty : b = []
    · rw [empty] at accepted
      cases accepted
    obtain ⟨-, -, object⟩ := reading_ends parseFloat behind (2 * b.length + 2)
    unfold unmarshalOrdered at accepted
    rw [if_neg empty] at accepted
    obtain ⟨⟨b', tok⟩, token, accepted⟩ := bind_eq_ok.1 accepted
    cases tok with
    | none => cases accepted
    | some t =>
      have read : Tok (readerDialect parseFloat) b t b' := nextToken_some.1 token
      dsimp only at accepted
      by_cases invalid : t.type ≠ .null ∧ t.type ≠ .objectStart
      · rw [if_pos invalid] at accepted
        cases accepted
      · rw [if_neg invalid] at accepted
        obtain ⟨⟨r, obj⟩, parsed, returned⟩ := bind_eq_ok.1 accepted
        cases returned
        have ends := object [] b'
        rw [parsed] at ends
        obtain ⟨es, made, der⟩ := ends
        exact ⟨b', r, es, startsWith_of_type read Token.eq_of_type_objectStart invalid, der false, congrArg Json.object made⟩
  · intro ⟨b', r, es, start, der, made⟩
    have shorter := start.shorter
    have nonempty : b ≠ [] := by
      intro empty
      rw [empty] at shorter
      exact Nat.not_lt_zero _ shorter
    rw [unmarshalOrdered_object nonempty start, der.read behind _ [] (by omega), made]
    rfl

/-- The text of an object. -/
theorem readAsMap_of_derives {es : OrderedMap F} {b r : Bytes} (h : Derives (readerDialect parseFloat) (.value (.object es)) b r) :
    ReadAsMap parseFloat b (.object es) := by
  cases h with
  | object t rest => exact ⟨_, _, _, .inl t, rest, rfl⟩

theorem not_tok_of_spaces {b r : Bytes} {t : Token F} (h : Spaces b []) : ¬Tok (readerDialect parseFloat) b t r := by
  intro tok
  have panics : Panics [] b := .inl h
  exact nomatch (nextToken_of_panics panics).symm.trans (nextToken_of_tok [] tok)

/-- What of the texts of RFC 8259 without a plus sign in an exponent is accepted, and as what. -/
theorem unmarshalOrdered_text {b : Bytes} {v : Json F} (text : Text (rfc8259 parseFloat .unsigned) b v) (v' : Json F) :
    unmarshalOrdered parseFloat behind b .object = .ok v' ↔
      v' = v ∧ (∃ es, v = .object es) ∧ Text (rfc8259 parseFloat .plain) b v := by
  obtain ⟨r, der, spaces⟩ := text
  rw [unmarshalOrdered_object_iff]
  have within := plain_within (F := F) parseFloat
  constructor
  · intro ⟨b', r', es, start, members, made⟩
    rcases start with tok | tok
    · have value : Derives (readerDialect parseFloat) (.value v') b r' := made ▸ .object tok members
      rcases der.plain_or with plain | unread
      · obtain ⟨same, -⟩ := value.unique (plain.mono within)
        exact ⟨same, ⟨_, same ▸ made⟩, r, plain, spaces⟩
      · exact absurd value (unread _ _ rfl)
    · -- the text is `null`, and nothing follows it
      obtain ⟨t', r'', next⟩ := members.first
      cases der with
      | null t =>
        rcases t.plain_or with plain | none
        · obtain ⟨-, rfl⟩ := (plain.mono within).unique tok
          exact absurd next (not_tok_of_spaces spaces)
        · exact absurd tok (none _ _)
      | bool t | number t | string t | array t _ | object t _ => exact absurd tok (t.differs nofun)
  · intro ⟨same, ⟨es, made⟩, r', plain, _⟩
    subst same made
    exact readAsMap_of_derives (plain.mono within)

/-- Of the texts of RFC 8259 without a plus sign in an exponent those are accepted that denote an object
and have neither `\u` escapes nor empty keys. Whatever is accepted is a text of the reader's dialect. -/
theorem unmarshalOrdered_rfc8259 (b : Bytes) (v : Json F) :
    (Text (rfc8259 parseFloat .unsigned) b v → ∀ v', unmarshalOrdered parseFloat behind b .object = .ok v' ↔
      v' = v ∧ (∃ es, v = .object es) ∧ Text (rfc8259 parseFloat .plain) b v) ∧
    (unmarshalOrdered parseFloat behind b .object = .ok v → ReadAsMap parseFloat b v) :=
  ⟨unmarshalOrdered_text, unmarshalOrdered_object_iff.1⟩

end

/-- What a call ended with instead of a value. -/
def halt {α : Type} : Read α → Option Halt
  | .ok _ => none
  | .error h => some h

theorem eq_failed_of_halt {α : Type} {r : Read α} {text : String} {arg : Bytes} (h : halt r = some (.error ⟨text, arg⟩)) :
    r = failed text arg := by
  cases r with
  | ok a => cases h
  | error e =>
    cases h
    rfl

/-- Texts of RFC 8259 with a `\u` escape, as the standard library writes `<`, and with an empty key. -/
theorem rfc8259_refused :
    (Text (rfc8259 (fun _ => none (α := Unit)) .all) (word "\x7b\"a\":\"\\u003c\"\x7d") (.object [(word "a", .string (word "<"))]) ∧
      unmarshalOrdered (fun _ => none (α := Unit)) [] (word "\x7b\"a\":\"\\u003c\"\x7d") .object =
        failed "\\u unicode parsing not supported" []) ∧
    Text (rfc8259 (fun _ => none (α := Unit)) .all) (word "\x7b\"\":null\x7d") (.object [([], .null)]) ∧
      unmarshalOrdered (fun _ => none (α := Unit)) [] (word "\x7b\"\":null\x7d") .object =
        failed "Failed to parse key: " (word ":null\x7d") := by
  have key {w r : Bytes} (w' : Bytes) (spelled : RfcBody true w w') :
      KeyColon (rfc8259 (fun _ => none (α := Unit)) .all) (ch '"' :: (w ++ ch '"' :: ch ':' :: r)) w' r :=
    ⟨_, ⟨_, .refl _, .string spelled⟩, .inl rfl, _, .refl _, .colon⟩
  have object {k s r : Bytes} (v : Json Unit) (member : KeyColon (rfc8259 (fun _ => none) .all) s k r)
      (value : Derives (rfc8259 (fun _ => none) .all) (.value v) r (word "\x7d")) :
      Text (rfc8259 (fun _ => none) .all) (ch '\x7b' :: s) (.object [(k, v)]) :=
    ⟨[], .object ⟨_, .refl _, .objectStart⟩ (.lastMember member value ⟨_, .refl _, .objectEnd⟩), .refl _⟩
  have digits : Hex4 (word "003c") 60 := by
    have spelled : word "003c" = [ch '0', ch '0', ch '3', ch 'c'] := by decide +kernel
    exact spelled ▸ .intro (x := 0) (y := 0) (z := 3) (t := 12) (by decide) (by decide) (by decide) (by decide)
  have escaped : RfcBody true (ch '\\' :: ch 'u' :: (word "003c" ++ [])) (word "<") :=
    .codePoint (c := '<') rfl digits .nil
  have letter : RfcBody true (word "a") (word "a") := .char (c := 'a') (by decide) (by decide) (by decide) .nil
  refine ⟨⟨?_, eq_failed_of_halt (by decide +kernel)⟩, ?_, eq_failed_of_halt (by decide +kernel)⟩
  · have text : word "\x7b\"a\":\"\\u003c\"\x7d" = ch '\x7b' :: (ch '"' :: (word "a" ++ ch '"' :: ch ':' ::
        (ch '"' :: ((ch '\\' :: ch 'u' :: (word "003c" ++ [])) ++ ch '"' :: word "\x7d")))) := by decide +kernel
    rw [text]
    exact object _ (key _ letter) (.string ⟨_, .refl _, .string escaped⟩)
  · have text : word "\x7b\"\":null\x7d" = ch '\x7b' :: (ch '"' :: ([] ++ ch '"' :: ch ':' :: (word "null" ++ word "\x7d"))) := by
      decide +kernel
    rw [text]
    exact object _ (key _ .nil) (.null ⟨_, .refl _, .nullWord⟩)

end Rocketcycle.Jsonutils
