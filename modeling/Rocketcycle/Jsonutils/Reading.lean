import Rocketcycle.Jsonutils.Tokens

/-!
# What is read

`parse` and the two loops against the grammar of the reader: what they return is what the text
denotes, a text of the grammar is read, and a panic comes from one of the places where the text is
cut off.
-/

namespace Rocketcycle.Jsonutils
open Early

/-- What the reader is at work on. -/
inductive Work where
  | value
  | elements
  | members

def Part.work {F : Type} : Part F → Work
  | .value _ => .value
  | .elements _ _ => .elements
  | .members _ _ => .members

section
variable {F : Type}

/-- The places a reader gets to, and what is left there. At a `peeked` one it looks at a token that may
end an array or an object, without a check that there is one. -/
inductive Reaches (d : Dialect F) : Work → Bool → Bytes → Bytes → Prop where
  | value {b : Bytes} : Reaches d .value false b b
  | inArray {peeked : Bool} {b b' r : Bytes} (h : Tok d b .arrayStart b') (rest : Reaches d .elements peeked b' r) :
      Reaches d .value peeked b r
  | inObject {peeked : Bool} {b b' r : Bytes} (h : Tok d b .objectStart b') (rest : Reaches d .members peeked b' r) :
      Reaches d .value peeked b r
  | elements {b : Bytes} : Reaches d .elements true b b
  | inElement {peeked : Bool} {b r : Bytes} (rest : Reaches d .value peeked b r) : Reaches d .elements peeked b r
  | afterElement {v : Json F} {b b' : Bytes} (value : Derives d (.value v) b b') : Reaches d .elements false b b'
  | nextElement {peeked : Bool} {v : Json F} {b b' b'' r : Bytes} (value : Derives d (.value v) b b')
      (h : Tok d b' .comma b'') (rest : Reaches d .elements peeked b'' r) : Reaches d .elements peeked b r
  | members {b : Bytes} : Reaches d .members true b b
  | afterKey {k b b' : Bytes} (h : Tok d b (.string k) b') (key : d.key k) : Reaches d .members false b b'
  | inMember {peeked : Bool} {k b b' r : Bytes} (key : KeyColon d b k b') (rest : Reaches d .value peeked b' r) :
      Reaches d .members peeked b r
  | afterMember {k : Bytes} {v : Json F} {b b' b'' : Bytes} (key : KeyColon d b k b') (value : Derives d (.value v) b' b'') :
      Reaches d .members false b b''
  | nextMember {peeked : Bool} {k : Bytes} {v : Json F} {b b1 b2 b3 r : Bytes} (key : KeyColon d b k b1)
      (value : Derives d (.value v) b1 b2) (h : Tok d b2 .comma b3) (rest : Reaches d .members peeked b3 r) :
      Reaches d .members peeked b r

/-- What stops the program at a place. -/
def Stops (behind : Bytes) (peeked : Bool) (r : Bytes) : Prop := Panics behind r ∨ (peeked = true ∧ NoToken r)

/-- The text leads to a place where the program stops. -/
def Stopped (parseFloat : Bytes → Option F) (behind : Bytes) (w : Work) (b : Bytes) : Prop :=
  ∃ (peeked : Bool) (r : Bytes), Reaches (readerDialect parseFloat) w peeked b r ∧ Stops behind peeked r

/-- How a call can end without a value. -/
def Halts (panic stuck : Prop) : Halt → Prop
  | .error _ => True
  | .panic => panic
  | .stuck => stuck

theorem Halts.mono {panic panic' stuck stuck' : Prop} (hp : panic → panic') (hs : stuck → stuck') (h : Halt) :
    Halts panic stuck h → Halts panic' stuck' h := by
  cases h with
  | error e => exact id
  | panic => exact hp
  | stuck => exact hs

variable (parseFloat : Bytes → Option F) (behind : Bytes)

/-! ## The calls of a loop -/

/-- A token, or none and nothing to begin one. -/
def TokenRead (b : Bytes) : Bytes × Option (Token F) → Prop
  | (r, some t) => Tok (readerDialect parseFloat) b t r
  | (_, none) => NoToken b

theorem nextToken_ends (b : Bytes) :
    Ends (TokenRead parseFloat b) (Halts (Panics behind b) False) (nextToken parseFloat behind b) := by
  rcases nextToken_cases parseFloat behind b with ⟨t, r, tok, h⟩ | ⟨none, h⟩ | ⟨panics, h⟩ | ⟨e, h⟩
  · rw [h]
    exact tok
  · rw [h]
    exact none
  · rw [h]
    exact panics
  · rw [h]
    exact trivial

theorem peek_ends (b : Bytes) :
    Ends (fun type => ∃ t r, Tok (readerDialect parseFloat) b t r ∧ t.type = type)
      (Halts (Stops behind true b) False) (peek parseFloat behind b) := by
  unfold peek
  refine ((nextToken_ends parseFloat behind b).mono (fun _ => id) (Halts.mono .inl id)).bind ?_
  intro (r, tok) h
  cases tok with
  | none => exact .inr ⟨rfl, h⟩
  | some t => exact ⟨t, r, h, rfl⟩

theorem parseKey_ends (b : Bytes) :
    Ends (fun a => Tok (readerDialect parseFloat) b (.string a.2) a.1 ∧ a.2 ≠ [])
      (Halts (Panics behind b) False) (parseKey parseFloat behind b) := by
  unfold parseKey
  refine (nextToken_ends parseFloat behind b).bind ?_
  intro (r, tok) h
  cases tok with
  | none => exact trivial
  | some t =>
    cases t with
    | string key =>
      show Ends _ _ (if key = [] then _ else _)
      by_cases empty : key = []
      · rw [if_pos empty]
        exact trivial
      · rw [if_neg empty]
        exact ⟨h, empty⟩
    | _ => exact trivial

theorem parseColon_ends (b : Bytes) :
    Ends (fun r => Tok (readerDialect parseFloat) b .colon r) (Halts (Panics behind b) False) (parseColon parseFloat behind b) := by
  unfold parseColon
  refine (nextToken_ends parseFloat behind b).bind ?_
  intro (r, tok) h
  cases tok with
  | none => exact trivial
  | some t =>
    cases t with
    | colon => exact h
    | _ => exact trivial

theorem commaOrEnd_ends (endType : TokenType) (b : Bytes) :
    Ends (fun a => ∃ t, Tok (readerDialect parseFloat) b t a.1 ∧ t.type = if a.2 then endType else .comma)
      (Halts (Panics behind b) False) (commaOrEnd parseFloat behind endType b) := by
  unfold commaOrEnd
  refine (nextToken_ends parseFloat behind b).bind ?_
  intro (r, tok) h
  cases tok with
  | none => exact trivial
  | some t =>
    show Ends _ _ (if t.type = endType then _ else if t.type = .comma then _ else _)
    by_cases atEnd : t.type = endType
    · rw [if_pos atEnd]
      exact ⟨t, h, atEnd⟩
    · by_cases comma : t.type = .comma
      · rw [if_neg atEnd, if_pos comma]
        exact ⟨t, h, comma⟩
      · rw [if_neg atEnd, if_neg comma]
        exact trivial

theorem Token.eq_of_type_comma {t : Token F} (h : t.type = .comma) : t = .comma := by
  cases t with
  | comma => rfl
  | _ => cases h

theorem Token.eq_of_type_arrayStart {t : Token F} (h : t.type = .arrayStart) : t = .arrayStart := by
  cases t with
  | arrayStart => rfl
  | _ => cases h

theorem Token.eq_of_type_objectStart {t : Token F} (h : t.type = .objectStart) : t = .objectStart := by
  cases t with
  | objectStart => rfl
  | _ => cases h

theorem Token.eq_of_type_arrayEnd {t : Token F} (h : t.type = .arrayEnd) : t = .arrayEnd := by
  cases t with
  | arrayEnd => rfl
  | _ => cases h

theorem Token.eq_of_type_objectEnd {t : Token F} (h : t.type = .objectEnd) : t = .objectEnd := by
  cases t with
  | objectEnd => rfl
  | _ => cases h

/-! ## Soundness

Every call of `parse` reads a token before it goes on, so two units of fuel for each byte are enough. -/

variable {parseFloat behind}

theorem KeyColon.length_le {b k r : Bytes} (h : KeyColon (readerDialect parseFloat) b k r) : r.length ≤ b.length := by
  obtain ⟨b', key, -, colon⟩ := h
  have := key.shorter
  have := colon.shorter
  omega

theorem Derives.length_le {p : Part F} {b r : Bytes} (h : Derives (readerDialect parseFloat) p b r) : r.length ≤ b.length := by
  induction h with
  | null t => exact Nat.le_of_lt t.shorter
  | bool t => exact Nat.le_of_lt t.shorter
  | number t => exact Nat.le_of_lt t.shorter
  | string t => exact Nat.le_of_lt t.shorter
  | array t _ ih =>
    have := t.shorter
    omega
  | object t _ ih =>
    have := t.shorter
    omega
  | elementsEnd _ t => exact Nat.le_of_lt t.shorter
  | lastElement _ t ih =>
    have := t.shorter
    omega
  | element _ t _ ih ih' =>
    have := t.shorter
    omega
  | membersEnd _ t => exact Nat.le_of_lt t.shorter
  | lastMember key _ t ih =>
    have := key.length_le
    have := t.shorter
    omega
  | member key _ t _ ih ih' =>
    have := key.length_le
    have := t.shorter
    omega

variable (parseFloat behind)

/-- What `parse` may answer. -/
def ParseEnds (fuel : Nat) : Prop := ∀ b,
  Ends (fun a => Derives (readerDialect parseFloat) (.value a.2) b a.1)
    (Halts (Stopped parseFloat behind .value b) (fuel ≤ 2 * b.length)) (parse parseFloat behind fuel b)

def ParseArrayEnds (fuel : Nat) : Prop := ∀ arr b,
  Ends (fun a => ∃ vs, a.2 = arr ++ vs ∧ ∀ after, Derives (readerDialect parseFloat) (.elements after vs) b a.1)
    (Halts (Stopped parseFloat behind .elements b) (fuel ≤ 2 * b.length + 1)) (parseArray parseFloat behind fuel arr b)

def ParseObjectEnds (fuel : Nat) : Prop := ∀ obj b,
  Ends (fun a => ∃ es, a.2 = OrderedMap.setAll obj es ∧ ∀ after, Derives (readerDialect parseFloat) (.members after es) b a.1)
    (Halts (Stopped parseFloat behind .members b) (fuel ≤ 2 * b.length + 1)) (parseObject parseFloat behind fuel obj b)

variable {parseFloat behind}

theorem parseArray_step {fuel : Nat} (value : ParseEnds parseFloat behind fuel) (rest : ParseArrayEnds parseFloat behind fuel) :
    ParseArrayEnds parseFloat behind (fuel + 1) := by
  intro arr b
  rw [parseArray]
  refine ((peek_ends parseFloat behind b).mono (fun _ => id) (Halts.mono (fun h => ⟨true, b, .elements, h⟩) False.elim)).bind ?_
  intro type ⟨t, r, tok, heq⟩
  dsimp only
  have next (b' : Bytes) (arr' : List (Json F)) (read : ((b', arr') = (b, arr) ∧ t = .arrayEnd) ∨
      ∃ v, arr' = arr ++ [v] ∧ Derives (readerDialect parseFloat) (.value v) b b') :
      Ends (fun a => ∃ vs, a.2 = arr ++ vs ∧ ∀ after, Derives (readerDialect parseFloat) (.elements after vs) b a.1)
        (Halts (Stopped parseFloat behind .elements b) (fuel + 1 ≤ 2 * b.length + 1))
        (commaOrEnd parseFloat behind .arrayEnd b' >>= fun a =>
          if a.2 = true then .ok (a.1, arr') else parseArray parseFloat behind fuel arr' a.1) := by
    refine ((commaOrEnd_ends parseFloat behind .arrayEnd b').mono (fun _ => id) (Halts.mono ?_ False.elim)).bind ?_
    · intro panics
      rcases read with ⟨heq, -⟩ | ⟨v, -, der⟩
      · cases heq
        exact ⟨true, b, .elements, .inl panics⟩
      · exact ⟨false, b', .afterElement der, .inl panics⟩
    intro (b'', atEnd) ⟨t', tok', type'⟩
    cases atEnd with
    | true =>
      have atEnd : t' = .arrayEnd := Token.eq_of_type_arrayEnd type'
      subst atEnd
      rcases read with ⟨heq, -⟩ | ⟨v, appended, der⟩
      · cases heq
        exact ⟨[], (List.append_nil arr).symm, fun _ => .elementsEnd (fun _ => trivial) tok'⟩
      · exact ⟨[v], appended, fun _ => .lastElement der tok'⟩
    | false =>
      have comma : t' = .comma := Token.eq_of_type_comma type'
      subst comma
      rcases read with ⟨heq, arrayEnd⟩ | ⟨v, appended, der⟩
      · cases heq
        subst arrayEnd
        cases (tok.unique tok').1
      · have shorter : b''.length < b'.length := tok'.shorter
        have shrinks : b'.length ≤ b.length := der.length_le
        refine (rest arr' b'').mono ?_ (Halts.mono ?_ (by omega))
        · intro a ⟨vs, heq, der'⟩
          refine ⟨v :: vs, ?_, fun _ => .element der tok' (der' true)⟩
          show a.2 = arr ++ v :: vs
          rw [heq, show arr' = arr ++ [v] from appended, List.append_assoc]
          rfl
        · intro ⟨peeked, r, reaches, stops⟩
          exact ⟨peeked, r, .nextElement der tok' reaches, stops⟩
  by_cases arrayEnd : type = .arrayEnd
  · rw [if_neg (not_not.2 arrayEnd)]
    exact next b arr (.inl ⟨rfl, Token.eq_of_type_arrayEnd (heq.trans arrayEnd)⟩)
  · rw [if_pos arrayEnd]
    refine ((value b).mono (fun _ => id) (Halts.mono ?_ (by omega))).bind fun a der => next a.1 _ (.inr ⟨a.2, rfl, der⟩)
    intro ⟨peeked, r, reaches, stops⟩
    exact ⟨peeked, r, .inElement reaches, stops⟩

theorem parseObject_step {fuel : Nat} (value : ParseEnds parseFloat behind fuel) (rest : ParseObjectEnds parseFloat behind fuel) :
    ParseObjectEnds parseFloat behind (fuel + 1) := by
  intro obj b
  rw [parseObject]
  refine ((peek_ends parseFloat behind b).mono (fun _ => id) (Halts.mono (fun h => ⟨true, b, .members, h⟩) False.elim)).bind ?_
  intro type ⟨t, r, tok, heq⟩
  dsimp only
  have next (b' : Bytes) (obj' : OrderedMap F) (read : ((b', obj') = (b, obj) ∧ t = .objectEnd) ∨
      ∃ k v b1, obj' = OrderedMap.set k v obj ∧ KeyColon (readerDialect parseFloat) b k b1 ∧
        Derives (readerDialect parseFloat) (.value v) b1 b') :
      Ends (fun a => ∃ es, a.2 = OrderedMap.setAll obj es ∧ ∀ after, Derives (readerDialect parseFloat) (.members after es) b a.1)
        (Halts (Stopped parseFloat behind .members b) (fuel + 1 ≤ 2 * b.length + 1))
        (commaOrEnd parseFloat behind .objectEnd b' >>= fun a =>
          if a.2 = true then .ok (a.1, obj') else parseObject parseFloat behind fuel obj' a.1) := by
    refine ((commaOrEnd_ends parseFloat behind .objectEnd b').mono (fun _ => id) (Halts.mono ?_ False.elim)).bind ?_
    · intro panics
      rcases read with ⟨heq, -⟩ | ⟨k, v, b1, -, key, der⟩
      · cases heq
        exact ⟨true, b, .members, .inl panics⟩
      · exact ⟨false, b', .afterMember key der, .inl panics⟩
    intro (b'', atEnd) ⟨t', tok', type'⟩
    cases atEnd with
    | true =>
      have atEnd : t' = .objectEnd := Token.eq_of_type_objectEnd type'
      subst atEnd
      rcases read with ⟨heq, -⟩ | ⟨k, v, b1, set, key, der⟩
      · cases heq
        exact ⟨[], rfl, fun _ => .membersEnd (fun _ => trivial) tok'⟩
      · exact ⟨[(k, v)], set, fun _ => .lastMember key der tok'⟩
    | false =>
      have comma : t' = .comma := Token.eq_of_type_comma type'
      subst comma
      rcases read with ⟨heq, objectEnd⟩ | ⟨k, v, b1, set, key, der⟩
      · cases heq
        subst objectEnd
        cases (tok.unique tok').1
      · have shorter : b''.length < b'.length := tok'.shorter
        have shrinks : b'.length ≤ b1.length := der.length_le
        have behindKey := key.length_le
        refine (rest obj' b'').mono ?_ (Halts.mono ?_ (by omega))
        · intro a ⟨es, heq, der'⟩
          refine ⟨(k, v) :: es, ?_, fun _ => .member key der tok' (der' true)⟩
          rw [heq, set]
          rfl
        · intro ⟨peeked, r, reaches, stops⟩
          exact ⟨peeked, r, .nextMember key der tok' reaches, stops⟩
  by_cases objectEnd : type = .objectEnd
  · rw [if_neg (not_not.2 objectEnd)]
    exact next b obj (.inl ⟨rfl, Token.eq_of_type_objectEnd (heq.trans objectEnd)⟩)
  · rw [if_pos objectEnd]
    refine ((parseKey_ends parseFloat behind b).mono (fun _ => id)
      (Halts.mono (fun panics => ⟨true, b, .members, .inl panics⟩) False.elim)).bind ?_
    intro (b0, key) ⟨tokKey, nonempty⟩
    refine ((parseColon_ends parseFloat behind b0).mono (fun _ => id)
      (Halts.mono (fun panics => ⟨false, b0, .afterKey tokKey nonempty, .inl panics⟩) False.elim)).bind ?_
    intro b1 colon
    have keyColon : KeyColon (readerDialect parseFloat) b key b1 := ⟨b0, tokKey, nonempty, colon⟩
    have behindKey := keyColon.length_le
    refine ((value b1).mono (fun _ => id) (Halts.mono ?_ (by omega))).bind fun a der =>
      next a.1 _ (.inr ⟨key, a.2, b1, rfl, keyColon, der⟩)
    intro ⟨peeked, r, reaches, stops⟩
    exact ⟨peeked, r, .inMember keyColon reaches, stops⟩

theorem parse_step {fuel : Nat} (array : ParseArrayEnds parseFloat behind fuel) (object : ParseObjectEnds parseFloat behind fuel) :
    ParseEnds parseFloat behind (fuel + 1) := by
  intro b
  rw [parse]
  refine ((nextToken_ends parseFloat behind b).mono (fun _ => id)
    (Halts.mono (fun panics => ⟨false, b, .value, .inl panics⟩) False.elim)).bind ?_
  intro (b', tok) read
  cases tok with
  | none => exact trivial
  | some t =>
    have shorter : b'.length < b.length := Tok.shorter read
    cases t with
    | objectStart =>
      refine ((object [] b').mono (fun _ => id) (Halts.mono ?_ (by omega))).bind ?_
      · intro ⟨peeked, r, reaches, stops⟩
        exact ⟨peeked, r, .inObject read reaches, stops⟩
      · intro (r, obj) ⟨es, set, der⟩
        cases set
        exact .object read (der false)
    | arrayStart =>
      refine ((array [] b').mono (fun _ => id) (Halts.mono ?_ (by omega))).bind ?_
      · intro ⟨peeked, r, reaches, stops⟩
        exact ⟨peeked, r, .inArray read reaches, stops⟩
      · intro (r, arr) ⟨vs, appended, der⟩
        cases appended
        exact .array read (der false)
    | string val => exact .string read
    | number val => exact .number read
    | bool val => exact .bool read
    | null => exact .null read
    | _ => exact trivial

variable (parseFloat behind) in
theorem reading_ends (fuel : Nat) : ParseEnds parseFloat behind fuel ∧ ParseArrayEnds parseFloat behind fuel ∧
    ParseObjectEnds parseFloat behind fuel := by
  induction fuel with
  | zero =>
    refine ⟨fun b => ?_, fun arr b => ?_, fun obj b => ?_⟩
    · rw [parse]
      exact Nat.zero_le _
    · rw [parseArray]
      exact Nat.zero_le _
    · rw [parseObject]
      exact Nat.zero_le _
  | succ fuel ih =>
    obtain ⟨value, array, object⟩ := ih
    exact ⟨parse_step array object, parseArray_step value array, parseObject_step value object⟩

/-! ## Completeness -/

theorem peek_of_tok {b r : Bytes} {t : Token F} (h : Tok (readerDialect parseFloat) b t r) :
    peek parseFloat behind b = .ok t.type := by
  unfold peek
  rw [nextToken_of_tok behind h]
  rfl

theorem parseKey_of_tok {b k r : Bytes} (h : Tok (readerDialect parseFloat) b (.string k) r) (key : k ≠ []) :
    parseKey parseFloat behind b = .ok (r, k) := by
  unfold parseKey
  rw [nextToken_of_tok behind h]
  exact if_neg key

theorem parseColon_of_tok {b r : Bytes} (h : Tok (readerDialect parseFloat) b .colon r) :
    parseColon parseFloat behind b = .ok r := by
  unfold parseColon
  rw [nextToken_of_tok behind h]
  rfl

theorem commaOrEnd_of_end {b r : Bytes} {t : Token F} (h : Tok (readerDialect parseFloat) b t r) :
    commaOrEnd parseFloat behind t.type b = .ok (r, true) := by
  unfold commaOrEnd
  rw [nextToken_of_tok behind h]
  exact if_pos rfl

theorem commaOrEnd_of_comma {endType : TokenType} {b r : Bytes} (h : Tok (readerDialect parseFloat) b .comma r)
    (differs : .comma ≠ endType) : commaOrEnd parseFloat behind endType b = .ok (r, false) := by
  unfold commaOrEnd
  rw [nextToken_of_tok behind h]
  exact (if_neg differs).trans (if_pos rfl)

/-- An iteration with an element. -/
theorem parseArray_element {fuel : Nat} {arr : List (Json F)} {b r : Bytes} {t : Token F}
    (h : Tok (readerDialect parseFloat) b t r) (begins : t.type ≠ .arrayEnd) :
    parseArray parseFloat behind (fuel + 1) arr b =
      (parse parseFloat behind fuel b >>= fun a => commaOrEnd parseFloat behind .arrayEnd a.1 >>= fun c =>
        if c.2 = true then .ok (c.1, arr ++ [a.2]) else parseArray parseFloat behind fuel (arr ++ [a.2]) c.1) := by
  rw [parseArray, peek_of_tok h]
  exact if_pos begins

theorem parseArray_end {fuel : Nat} {arr : List (Json F)} {b r : Bytes} (h : Tok (readerDialect parseFloat) b .arrayEnd r) :
    parseArray parseFloat behind (fuel + 1) arr b = .ok (r, arr) := by
  rw [parseArray, peek_of_tok h]
  show (commaOrEnd parseFloat behind (Token.type (F := F) .arrayEnd) b >>= _) = _
  rw [commaOrEnd_of_end h]
  rfl

/-- An iteration with a member. -/
theorem parseObject_member {fuel : Nat} {obj : OrderedMap F} {b k r : Bytes} (h : KeyColon (readerDialect parseFloat) b k r) :
    parseObject parseFloat behind (fuel + 1) obj b =
      (parse parseFloat behind fuel r >>= fun a => commaOrEnd parseFloat behind .objectEnd a.1 >>= fun c =>
        if c.2 = true then .ok (c.1, OrderedMap.set k a.2 obj)
        else parseObject parseFloat behind fuel (OrderedMap.set k a.2 obj) c.1) := by
  obtain ⟨b', tok, key, colon⟩ := h
  rw [parseObject, peek_of_tok tok, parseKey_of_tok tok key]
  show (parseColon parseFloat behind b' >>= _) = _
  rw [parseColon_of_tok colon]
  rfl

theorem parseObject_end {fuel : Nat} {obj : OrderedMap F} {b r : Bytes} (h : Tok (readerDialect parseFloat) b .objectEnd r) :
    parseObject parseFloat behind (fuel + 1) obj b = .ok (r, obj) := by
  rw [parseObject, peek_of_tok h]
  show (commaOrEnd parseFloat behind (Token.type (F := F) .objectEnd) b >>= _) = _
  rw [commaOrEnd_of_end h]
  rfl

/-- A value begins with a token that is not the end of an array. -/
theorem Derives.begins {v : Json F} {b r : Bytes} (h : Derives (readerDialect parseFloat) (.value v) b r) :
    ∃ t r', Tok (readerDialect parseFloat) b t r' ∧ t.type ≠ .arrayEnd := by
  cases h with
  | null t => exact ⟨_, _, t, nofun⟩
  | bool t => exact ⟨_, _, t, nofun⟩
  | number t => exact ⟨_, _, t, nofun⟩
  | string t => exact ⟨_, _, t, nofun⟩
  | array t _ => exact ⟨_, _, t, nofun⟩
  | object t _ => exact ⟨_, _, t, nofun⟩

variable (parseFloat behind) in
/-- With enough fuel the reader returns the part. -/
def Part.Read : Part F → Bytes → Bytes → Prop
  | .value v, b, r => ∀ fuel, 2 * b.length < fuel → parse parseFloat behind fuel b = .ok (r, v)
  | .elements _ vs, b, r => ∀ fuel arr, 2 * b.length + 1 < fuel → parseArray parseFloat behind fuel arr b = .ok (r, arr ++ vs)
  | .members _ es, b, r => ∀ fuel obj, 2 * b.length + 1 < fuel →
      parseObject parseFloat behind fuel obj b = .ok (r, OrderedMap.setAll obj es)

variable (behind) in
theorem Derives.read {p : Part F} {b r : Bytes} (h : Derives (readerDialect parseFloat) p b r) :
    p.Read parseFloat behind b r := by
  induction h with
  | null t | bool t | number t | string t =>
    intro fuel enough
    obtain ⟨fuel, rfl⟩ := Nat.exists_eq_add_one_of_ne_zero (Nat.ne_zero_of_lt enough)
    rw [parse, nextToken_of_tok behind t]
    rfl
  | array t _ ih =>
    intro fuel enough
    obtain ⟨fuel, rfl⟩ := Nat.exists_eq_add_one_of_ne_zero (Nat.ne_zero_of_lt enough)
    have shorter := t.shorter
    rw [parse, nextToken_of_tok behind t]
    show (parseArray parseFloat behind fuel [] _ >>= _) = _
    rw [ih fuel [] (by omega)]
    rfl
  | object t _ ih =>
    intro fuel enough
    obtain ⟨fuel, rfl⟩ := Nat.exists_eq_add_one_of_ne_zero (Nat.ne_zero_of_lt enough)
    have shorter := t.shorter
    rw [parse, nextToken_of_tok behind t]
    show (parseObject parseFloat behind fuel [] _ >>= _) = _
    rw [ih fuel [] (by omega)]
    rfl
  | elementsEnd _ t =>
    intro fuel arr enough
    obtain ⟨fuel, rfl⟩ := Nat.exists_eq_add_one_of_ne_zero (Nat.ne_zero_of_lt enough)
    rw [parseArray_end t, List.append_nil]
  | lastElement value t ih =>
    intro fuel arr enough
    obtain ⟨fuel, rfl⟩ := Nat.exists_eq_add_one_of_ne_zero (Nat.ne_zero_of_lt enough)
    obtain ⟨t', r', tok, begins⟩ := value.begins
    rw [parseArray_element tok begins, ih fuel (by omega)]
    show (commaOrEnd parseFloat behind (Token.type (F := F) .arrayEnd) _ >>= _) = _
    rw [commaOrEnd_of_end t]
    rfl
  | element value t _ ih ih' =>
    intro fuel arr enough
    obtain ⟨fuel, rfl⟩ := Nat.exists_eq_add_one_of_ne_zero (Nat.ne_zero_of_lt enough)
    obtain ⟨t', r', tok, begins⟩ := value.begins
    have shorter := t.shorter
    have shrinks := value.length_le
    rw [parseArray_element tok begins, ih fuel (by omega)]
    show (commaOrEnd parseFloat behind .arrayEnd _ >>= _) = _
    rw [commaOrEnd_of_comma t (by decide)]
    refine (ih' fuel _ (by omega)).trans ?_
    rw [List.append_assoc]
    rfl
  | membersEnd _ t =>
    intro fuel obj enough
    obtain ⟨fuel, rfl⟩ := Nat.exists_eq_add_one_of_ne_zero (Nat.ne_zero_of_lt enough)
    exact parseObject_end t
  | lastMember key value t ih =>
    intro fuel obj enough
    obtain ⟨fuel, rfl⟩ := Nat.exists_eq_add_one_of_ne_zero (Nat.ne_zero_of_lt enough)
    have behindKey := key.length_le
    rw [parseObject_member key, ih fuel (by omega)]
    show (commaOrEnd parseFloat behind (Token.type (F := F) .objectEnd) _ >>= _) = _
    rw [commaOrEnd_of_end t]
    rfl
  | member key value t _ ih ih' =>
    intro fuel obj enough
    obtain ⟨fuel, rfl⟩ := Nat.exists_eq_add_one_of_ne_zero (Nat.ne_zero_of_lt enough)
    have behindKey := key.length_le
    have shorter := t.shorter
    have shrinks := value.length_le
    rw [parseObject_member key, ih fuel (by omega)]
    show (commaOrEnd parseFloat behind .objectEnd _ >>= _) = _
    rw [commaOrEnd_of_comma t (by decide)]
    exact ih' fuel _ (by omega)

/-! ## Panics -/

theorem peek_of_stops {b : Bytes} (h : Stops behind true b) : peek parseFloat behind b = .error .panic := by
  unfold peek
  rcases h with panics | ⟨-, none⟩
  · rw [nextToken_of_panics panics]
    rfl
  · rw [nextToken_of_noToken none]
    rfl

theorem parseColon_of_panics {b : Bytes} (h : Panics behind b) : parseColon parseFloat behind b = .error .panic := by
  unfold parseColon
  rw [nextToken_of_panics h]
  rfl

theorem commaOrEnd_of_panics {endType : TokenType} {b : Bytes} (h : Panics behind b) :
    commaOrEnd parseFloat behind endType b = .error .panic := by
  unfold commaOrEnd
  rw [nextToken_of_panics h]
  rfl

theorem parseArray_of_stops {fuel : Nat} {arr : List (Json F)} {b : Bytes} (h : Stops behind true b) :
    parseArray parseFloat behind (fuel + 1) arr b = .error .panic := by
  rw [parseArray, peek_of_stops h]
  rfl

theorem parseObject_of_stops {fuel : Nat} {obj : OrderedMap F} {b : Bytes} (h : Stops behind true b) :
    parseObject parseFloat behind (fuel + 1) obj b = .error .panic := by
  rw [parseObject, peek_of_stops h]
  rfl

/-- Where the program stops in a value, it stops at once or the value has a beginning. -/
theorem Reaches.begins {peeked : Bool} {b r : Bytes} (h : Reaches (readerDialect parseFloat) .value peeked b r)
    (stops : Stops behind peeked r) :
    Stops behind true b ∨ ∃ t r', Tok (readerDialect parseFloat) b t r' ∧ t.type ≠ .arrayEnd := by
  cases h with
  | value =>
    rcases stops with panics | ⟨h, -⟩
    · exact .inl (.inl panics)
    · cases h
  | inArray t _ => exact .inr ⟨_, _, t, nofun⟩
  | inObject t _ => exact .inr ⟨_, _, t, nofun⟩

variable (parseFloat behind) in
/-- With enough fuel the program stops. -/
def Work.Panics : Work → Bytes → Prop
  | .value, b => ∀ fuel, 2 * b.length < fuel → parse parseFloat behind fuel b = .error .panic
  | .elements, b => ∀ fuel arr, 2 * b.length + 1 < fuel → parseArray parseFloat behind fuel arr b = .error .panic
  | .members, b => ∀ fuel obj, 2 * b.length + 1 < fuel → parseObject parseFloat behind fuel obj b = .error .panic

theorem Reaches.panics {w : Work} {peeked : Bool} {b r : Bytes} (h : Reaches (readerDialect parseFloat) w peeked b r)
    (stops : Stops behind peeked r) : w.Panics parseFloat behind b := by
  have checked {r : Bytes} (h : Stops behind false r) : Panics behind r := by
    rcases h with panics | ⟨h, -⟩
    · exact panics
    · cases h
  induction h with
  | value =>
    intro fuel enough
    obtain ⟨fuel, rfl⟩ := Nat.exists_eq_add_one_of_ne_zero (Nat.ne_zero_of_lt enough)
    rw [parse, nextToken_of_panics (checked stops)]
    rfl
  | inArray t _ ih =>
    intro fuel enough
    obtain ⟨fuel, rfl⟩ := Nat.exists_eq_add_one_of_ne_zero (Nat.ne_zero_of_lt enough)
    have shorter := t.shorter
    rw [parse, nextToken_of_tok behind t]
    show (parseArray parseFloat behind fuel [] _ >>= _) = _
    rw [ih stops fuel [] (by omega)]
    rfl
  | inObject t _ ih =>
    intro fuel enough
    obtain ⟨fuel, rfl⟩ := Nat.exists_eq_add_one_of_ne_zero (Nat.ne_zero_of_lt enough)
    have shorter := t.shorter
    rw [parse, nextToken_of_tok behind t]
    show (parseObject parseFloat behind fuel [] _ >>= _) = _
    rw [ih stops fuel [] (by omega)]
    rfl
  | elements =>
    intro fuel arr enough
    obtain ⟨fuel, rfl⟩ := Nat.exists_eq_add_one_of_ne_zero (Nat.ne_zero_of_lt enough)
    exact parseArray_of_stops stops
  | inElement rest ih =>
    intro fuel arr enough
    obtain ⟨fuel, rfl⟩ := Nat.exists_eq_add_one_of_ne_zero (Nat.ne_zero_of_lt enough)
    rcases rest.begins stops with now | ⟨t, r', tok, begins⟩
    · exact parseArray_of_stops now
    · rw [parseArray_element tok begins, ih stops fuel (by omega)]
      rfl
  | afterElement value =>
    intro fuel arr enough
    obtain ⟨fuel, rfl⟩ := Nat.exists_eq_add_one_of_ne_zero (Nat.ne_zero_of_lt enough)
    obtain ⟨t', r', tok, begins⟩ := value.begins
    rw [parseArray_element tok begins, value.read behind fuel (by omega)]
    show (commaOrEnd parseFloat behind .arrayEnd _ >>= _) = _
    rw [commaOrEnd_of_panics (checked stops)]
    rfl
  | nextElement value t _ ih =>
    intro fuel arr enough
    obtain ⟨fuel, rfl⟩ := Nat.exists_eq_add_one_of_ne_zero (Nat.ne_zero_of_lt enough)
    obtain ⟨t', r', tok, begins⟩ := value.begins
    have shorter := t.shorter
    have shrinks := value.length_le
    rw [parseArray_element tok begins, value.read behind fuel (by omega)]
    show (commaOrEnd parseFloat behind .arrayEnd _ >>= _) = _
    rw [commaOrEnd_of_comma t (by decide)]
    exact ih stops fuel _ (by omega)
  | members =>
    intro fuel obj enough
    obtain ⟨fuel, rfl⟩ := Nat.exists_eq_add_one_of_ne_zero (Nat.ne_zero_of_lt enough)
    exact parseObject_of_stops stops
  | afterKey t key =>
    intro fuel obj enough
    obtain ⟨fuel, rfl⟩ := Nat.exists_eq_add_one_of_ne_zero (Nat.ne_zero_of_lt enough)
    rw [parseObject, peek_of_tok t, parseKey_of_tok t key]
    show (parseColon parseFloat behind _ >>= _) = _
    rw [parseColon_of_panics (checked stops)]
    rfl
  | inMember key _ ih =>
    intro fuel obj enough
    obtain ⟨fuel, rfl⟩ := Nat.exists_eq_add_one_of_ne_zero (Nat.ne_zero_of_lt enough)
    have behindKey := key.length_le
    rw [parseObject_member key, ih stops fuel (by omega)]
    rfl
  | afterMember key value =>
    intro fuel obj enough
    obtain ⟨fuel, rfl⟩ := Nat.exists_eq_add_one_of_ne_zero (Nat.ne_zero_of_lt enough)
    have behindKey := key.length_le
    rw [parseObject_member key, value.read behind fuel (by omega)]
    show (commaOrEnd parseFloat behind .objectEnd _ >>= _) = _
    rw [commaOrEnd_of_panics (checked stops)]
    rfl
  | nextMember key value t _ ih =>
    intro fuel obj enough
    obtain ⟨fuel, rfl⟩ := Nat.exists_eq_add_one_of_ne_zero (Nat.ne_zero_of_lt enough)
    have behindKey := key.length_le
    have shorter := t.shorter
    have shrinks := value.length_le
    rw [parseObject_member key, value.read behind fuel (by omega)]
    show (commaOrEnd parseFloat behind .objectEnd _ >>= _) = _
    rw [commaOrEnd_of_comma t (by decide)]
    exact ih stops fuel _ (by omega)

end

end Rocketcycle.Jsonutils
