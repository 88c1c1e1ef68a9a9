import Rocketcycle.Jsonutils.Reading

/-!
# When the reader returns

`UnmarshalOrdered` comes to an end on every text, and it panics exactly where the text is cut off:
where nothing is left for a token, where a misspelled word is shorter than what its error message
shows, and where neither an element nor an end follows in an array or an object.
-/

namespace Rocketcycle.Jsonutils
open Early

section
variable {F : Type} (parseFloat : Bytes → Option F) (behind : Bytes)

/-- What follows the start of an array or an object, which may be spelled `null`. -/
def StartsWith (b : Bytes) (start : Token F) (b' : Bytes) : Prop :=
  Tok (readerDialect parseFloat) b start b' ∨ Tok (readerDialect parseFloat) b .null b'

/-- Behind its start, an array or an object is cut off. -/
def CutOff (target : Target) (b : Bytes) : Prop :=
  match target with
  | .array => ∃ b', StartsWith parseFloat b .arrayStart b' ∧ Stopped parseFloat behind .elements b'
  | .object => ∃ b', StartsWith parseFloat b .objectStart b' ∧ Stopped parseFloat behind .members b'
  | _ => False

/-- The texts on which the program panics. -/
def Crashes (target : Target) (b : Bytes) : Prop :=
  b ≠ [] ∧ (Panics behind b ∨ CutOff parseFloat behind target b)

/-- The call ends with a value or an error. -/
def Returns {α : Type} : Read α → Prop := Ends (fun _ => True) (Halts False False)

variable {parseFloat behind}

theorem startsWith_of_type {b b' : Bytes} {t start : Token F} (tok : Tok (readerDialect parseFloat) b t b')
    (isStart : t.type = start.type → t = start) (h : ¬(t.type ≠ .null ∧ t.type ≠ start.type)) :
    StartsWith parseFloat b start b' := by
  by_cases null : t.type = .null
  · have heq : t = .null := by
      cases t with
      | null => rfl
      | _ => cases null
    exact .inr (heq ▸ tok)
  · have type : t.type = start.type := by
      by_contra differs
      exact h ⟨null, differs⟩
    exact .inl (isStart type ▸ tok)

variable (parseFloat behind) in
/-- Only a text that is cut off makes the program panic, and none makes it run on. -/
theorem unmarshalOrdered_ends (b : Bytes) (target : Target) :
    Ends (fun _ => True) (Halts (Crashes parseFloat behind target b) False)
      (unmarshalOrdered parseFloat behind b target) := by
  unfold unmarshalOrdered
  by_cases empty : b = []
  · rw [if_pos empty]
    exact trivial
  rw [if_neg empty]
  refine ((nextToken_ends parseFloat behind b).mono (fun _ => id) (Halts.mono (fun h => ⟨empty, .inl h⟩) id)).bind ?_
  intro (b', tok) read
  cases tok with
  | none => exact trivial
  | some t =>
    have shorter : b'.length < b.length := Tok.shorter read
    obtain ⟨-, array, object⟩ := reading_ends parseFloat behind (2 * b.length + 2)
    cases target with
    | bool =>
      cases t with
      | bool val => exact trivial
      | _ => exact trivial
    | float64 =>
      cases t with
      | number val => exact trivial
      | _ => exact trivial
    | string =>
      cases t with
      | string val => exact trivial
      | _ => exact trivial
    | array =>
      dsimp only
      by_cases invalid : t.type ≠ .null ∧ t.type ≠ .arrayStart
      · rw [if_pos invalid]
        exact trivial
      · rw [if_neg invalid]
        have start : StartsWith parseFloat b .arrayStart b' := startsWith_of_type read Token.eq_of_type_arrayStart invalid
        refine ((array [] b').mono (fun _ => id) (Halts.mono ?_ (by omega))).bind fun _ _ => trivial
        exact fun stopped => ⟨empty, .inr ⟨b', start, stopped⟩⟩
    | object =>
      dsimp only
      by_cases invalid : t.type ≠ .null ∧ t.type ≠ .objectStart
      · rw [if_pos invalid]
        exact trivial
      · rw [if_neg invalid]
        have start : StartsWith parseFloat b .objectStart b' := startsWith_of_type read Token.eq_of_type_objectStart invalid
        refine ((object [] b').mono (fun _ => id) (Halts.mono ?_ (by omega))).bind fun _ _ => trivial
        exact fun stopped => ⟨empty, .inr ⟨b', start, stopped⟩⟩
    | other type => exact trivial

/-- An array is read from behind its start. -/
theorem unmarshalOrdered_array {b b' : Bytes} (nonempty : b ≠ []) (start : StartsWith parseFloat b .arrayStart b') :
    unmarshalOrdered parseFloat behind b .array =
      (parseArray parseFloat behind (2 * b.length + 2) [] b' >>= fun a => .ok (.array a.2)) := by
  unfold unmarshalOrdered
  rw [if_neg nonempty]
  rcases start with tok | tok
  · rw [nextToken_of_tok behind tok]
    rfl
  · rw [nextToken_of_tok behind tok]
    rfl

theorem unmarshalOrdered_object {b b' : Bytes} (nonempty : b ≠ []) (start : StartsWith parseFloat b .objectStart b') :
    unmarshalOrdered parseFloat behind b .object =
      (parseObject parseFloat behind (2 * b.length + 2) [] b' >>= fun a => .ok (.object a.2)) := by
  unfold unmarshalOrdered
  rw [if_neg nonempty]
  rcases start with tok | tok
  · rw [nextToken_of_tok behind tok]
    rfl
  · rw [nextToken_of_tok behind tok]
    rfl

theorem StartsWith.shorter {b b' : Bytes} {start : Token F} (h : StartsWith parseFloat b start b') : b'.length < b.length := by
  rcases h with tok | tok
  · exact tok.shorter
  · exact tok.shorter

theorem unmarshalOrdered_of_crashes {b : Bytes} {target : Target} (h : Crashes parseFloat behind target b) :
    unmarshalOrdered parseFloat behind b target = .error .panic := by
  obtain ⟨nonempty, panics | cutOff⟩ := h
  · unfold unmarshalOrdered
    rw [if_neg nonempty, nextToken_of_panics panics]
    rfl
  · cases target with
    | array =>
      obtain ⟨b', start, peeked, r, reaches, stops⟩ := cutOff
      have shorter := start.shorter
      rw [unmarshalOrdered_array nonempty start, reaches.panics stops _ [] (by omega)]
      rfl
    | object =>
      obtain ⟨b', start, peeked, r, reaches, stops⟩ := cutOff
      have shorter := start.shorter
      rw [unmarshalOrdered_object nonempty start, reaches.panics stops _ [] (by omega)]
      rfl
    | _ => exact cutOff.elim

/-- The reader returns a value or an error on the texts that are not cut off, and on no others. -/
theorem unmarshalOrdered_returns_iff (b : Bytes) (target : Target) :
    Returns (unmarshalOrdered parseFloat behind b target) ↔ ¬Crashes parseFloat behind target b := by
  constructor
  · intro returns crashes
    rw [unmarshalOrdered_of_crashes crashes] at returns
    exact returns
  · intro intact
    exact (unmarshalOrdered_ends parseFloat behind b target).mono (fun _ => id) (Halts.mono intact id)

end

/-- White space, an array that is not closed, no element where one is to follow, and nothing behind
a `null` or the start of an object. -/
theorem unmarshalOrdered_panics :
    unmarshalOrdered (fun _ => none (α := Unit)) [] (word " ") .bool = .error .panic ∧
    unmarshalOrdered (fun _ => none (α := Unit)) [] (word "[true") .array = .error .panic ∧
    unmarshalOrdered (fun _ => none (α := Unit)) [] (word "[x") .array = .error .panic ∧
    unmarshalOrdered (fun _ => none (α := Unit)) [] (word "null") .object = .error .panic ∧
    unmarshalOrdered (fun _ => none (α := Unit)) [] (word "\x7b") .object = .error .panic :=
  ⟨rfl, rfl, rfl, rfl, rfl⟩

end Rocketcycle.Jsonutils
