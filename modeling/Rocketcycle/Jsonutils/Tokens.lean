import Rocketcycle.Jsonutils.Grammar

/-!
# Tokens

The dialect of JSON that the reader reads, and what `nextToken` can answer: a token of that dialect,
none, an error, or a panic. The dialect is wider than RFC 8259 in the spelling of numbers and strings
and in the commas, and narrower in escapes and keys.
-/

namespace Rocketcycle.Jsonutils
open Early

/-- The bytes between the quotes, and what they stand for. -/
inductive Body : Bytes → Bytes → Prop where
  | nil : Body [] []
  | byte {c : UInt8} {w s : Bytes} (quote : c ≠ ch '"') (backslash : c ≠ ch '\\') (rest : Body w s) :
      Body (c :: w) (c :: s)
  | escape {e v : UInt8} {w s : Bytes} (known : unescape e = some v) (rest : Body w s) :
      Body (ch '\\' :: e :: w) (v :: s)
  | unknown {e : UInt8} {w s : Bytes} (unknown : unescape e = none) (notU : e ≠ ch 'u') (rest : Body (e :: w) s) :
      Body (ch '\\' :: e :: w) s

/-- The dialect of the reader. -/
def readerDialect {F : Type} (parseFloat : Bytes → Option F) : Dialect F where
  number w x := w ≠ [] ∧ (∀ c ∈ w, isNumber c = true) ∧ parseFloat w = some x
  inNumber := isNumber
  string := Body
  key k := k ≠ []
  trailingComma := True

section
variable {F : Type}

/-! ## Strings -/

theorem readString_cons (bld : Bytes) (c : UInt8) (rest : Bytes) :
    readString (F := F) bld (c :: rest) =
      if c = ch '"' then .ok (rest, some (.string bld))
      else if c = ch '\\' then
        match rest with
        | [] => failed "'\\' as last character in buffer" []
        | e :: rest' =>
          match unescape e with
          | some v => readString (bld ++ [v]) rest'
          | none =>
            if e = ch 'u' then failed "\\u unicode parsing not supported" []
            else readString bld (e :: rest')
      else readString (bld ++ [c]) rest := by
  conv => lhs; unfold readString
  cases rest <;> rfl

theorem readString_of_body {w s : Bytes} (body : Body w s) (bld r : Bytes) :
    readString (F := F) bld (w ++ ch '"' :: r) = .ok (r, some (.string (bld ++ s))) := by
  induction body generalizing bld with
  | nil => rw [List.nil_append, readString_cons, if_pos rfl, List.append_nil]
  | byte quote backslash _ ih =>
    rw [List.cons_append, readString_cons, if_neg quote, if_neg backslash, ih, List.append_assoc]
    rfl
  | escape known _ ih =>
    rw [List.cons_append, List.cons_append, readString_cons, if_neg (by decide), if_pos rfl]
    simp only [known, ih, List.append_assoc]
    rfl
  | unknown unknown notU _ ih =>
    rw [List.cons_append, List.cons_append, readString_cons, if_neg (by decide), if_pos rfl]
    simp only [unknown, notU, if_false]
    exact ih bld

/-- Without a quote at the end there is no token. -/
theorem readString_of_unterminated {w s : Bytes} (body : Body w s) (bld : Bytes) :
    readString (F := F) bld w = .ok ([], none) := by
  induction body generalizing bld with
  | nil => unfold readString; rfl
  | byte quote backslash _ ih => rw [readString_cons, if_neg quote, if_neg backslash, ih]
  | escape known _ ih =>
    rw [readString_cons, if_neg (by decide), if_pos rfl]
    simp only [known, ih]
  | unknown unknown notU _ ih =>
    rw [readString_cons, if_neg (by decide), if_pos rfl]
    simp only [unknown, notU, if_false]
    exact ih bld

/-- How the reading of a string can end. -/
theorem readString_cases (bld b : Bytes) :
    (∃ w s r, b = w ++ ch '"' :: r ∧ Body w s ∧ readString (F := F) bld b = .ok (r, some (.string (bld ++ s)))) ∨
    (∃ s, Body b s ∧ readString (F := F) bld b = .ok ([], none)) ∨
    ∃ e, readString (F := F) bld b = .error (.error e) := by
  have all : (∃ w s r, b = w ++ ch '"' :: r ∧ Body w s) ∨ (∃ s, Body b s) ∨
      ∃ e, readString (F := F) bld b = .error (.error e) := by
    fun_induction readString (F := F) bld b with
    | case1 bld => exact .inr (.inl ⟨[], .nil⟩)
    | case2 bld rest => exact .inl ⟨[], [], rest, rfl, .nil⟩
    | case3 bld => exact .inr (.inr ⟨_, rfl⟩)
    | case4 bld e rest v known _ ih =>
      rcases ih with ⟨w, s, r, rfl, body⟩ | ⟨s, body⟩ | failed
      · exact .inl ⟨_, _, r, rfl, .escape known body⟩
      · exact .inr (.inl ⟨_, .escape known body⟩)
      · exact .inr (.inr failed)
    | case5 => exact .inr (.inr ⟨_, rfl⟩)
    | case6 bld e rest unknown notU _ ih =>
      rcases ih with ⟨w, s, r, heq, body⟩ | ⟨s, body⟩ | failed
      · cases w with
        | nil =>
          -- a quote is a known escape
          obtain ⟨rfl, -⟩ := List.cons.inj heq
          exact absurd unknown (by decide)
        | cons e' w =>
          obtain ⟨rfl, rfl⟩ := List.cons.inj heq
          exact .inl ⟨_, s, r, rfl, .unknown unknown notU body⟩
      · exact .inr (.inl ⟨s, .unknown unknown notU body⟩)
      · exact .inr (.inr failed)
    | case7 bld c rest quote backslash ih =>
      rcases ih with ⟨w, s, r, rfl, body⟩ | ⟨s, body⟩ | failed
      · exact .inl ⟨_, _, r, rfl, .byte quote backslash body⟩
      · exact .inr (.inl ⟨_, .byte quote backslash body⟩)
      · exact .inr (.inr failed)
  rcases all with ⟨w, s, r, rfl, body⟩ | ⟨s, body⟩ | failed
  · exact .inl ⟨w, s, r, rfl, body, readString_of_body body bld r⟩
  · exact .inr (.inl ⟨s, body, readString_of_unterminated body bld⟩)
  · exact .inr (.inr failed)

/-! ## Tokens -/

theorem Spaces.refl (b : Bytes) : Spaces b b := ⟨[], rfl, by simp⟩

theorem spaces_skipSpace (b : Bytes) : Spaces b (skipSpace b) :=
  ⟨b.takeWhile isSpace, (List.takeWhile_append_dropWhile).symm, List.all_eq_true.1 List.all_takeWhile⟩

/-- White space ends where something else begins. -/
theorem skipSpace_of_spaces {b r : Bytes} (h : Spaces b r) (start : ∀ c ∈ r.head?, isSpace c = false) : skipSpace b = r := by
  obtain ⟨ws, rfl, all⟩ := h
  unfold skipSpace
  rw [List.dropWhile_append_of_pos all]
  cases r with
  | nil => rfl
  | cons c r => exact List.dropWhile_cons_of_neg (by simp [start c rfl])

theorem skipSpace_cons {b r : Bytes} {c : UInt8} (h : Spaces b (c :: r)) (start : isSpace c = false) : skipSpace b = c :: r := by
  apply skipSpace_of_spaces h
  simpa using start

variable {parseFloat : Bytes → Option F} {behind : Bytes}

/-- There is no way to go on: nothing is left, or one of the three words is misspelled and cut off. -/
def Panics (behind b : Bytes) : Prop :=
  Spaces b [] ∨ ∃ c r, Spaces b (c :: r) ∧
    ((c = ch 't' ∧ ¬word "true" <+: c :: r) ∨ (c = ch 'f' ∧ ¬word "false" <+: c :: r) ∨
      (c = ch 'n' ∧ ¬word "null" <+: c :: r)) ∧ (c :: r).length + behind.length < 10

/-- The bytes a token begins with. -/
def startsToken (c : UInt8) : Bool :=
  isNumber c || c = ch '\x7b' || c = ch '\x7d' || c = ch '[' || c = ch ']' || c = ch ',' || c = ch ':' || c = ch '"' ||
    c = ch 't' || c = ch 'f' || c = ch 'n'

/-- There is no token: a byte begins none, or a string does not end. -/
def NoToken (b : Bytes) : Prop :=
  ∃ c r, Spaces b (c :: r) ∧ isSpace c = false ∧ (startsToken c = false ∨ c = ch '"' ∧ ∃ s, Body r s)

variable (behind) in
theorem readWord_cases (b w : Bytes) (tok : Token F) :
    (∃ r, b = w ++ r ∧ readWord behind b w tok = .ok (r, some tok)) ∨
    (¬w <+: b ∧ b.length + behind.length < 10 ∧ readWord behind b w tok = .error .panic) ∨
    (¬w <+: b ∧ 10 ≤ b.length + behind.length ∧ ∃ e, readWord behind b w tok = .error (.error e)) := by
  unfold readWord
  by_cases h : w <+: b
  · obtain ⟨r, rfl⟩ := h
    exact .inl ⟨r, rfl, by simp⟩
  · have differ : b.take w.length ≠ w := fun heq => h (List.prefix_iff_eq_take.2 heq.symm)
    rw [if_neg differ, List.length_append]
    by_cases hlen : b.length + behind.length < 10
    · rw [if_pos hlen]
      exact .inr (.inl ⟨h, hlen, rfl⟩)
    · rw [if_neg hlen]
      exact .inr (.inr ⟨h, by omega, _, rfl⟩)

variable (behind) in
theorem readWord_append (w r : Bytes) (tok : Token F) : readWord behind (w ++ r) w tok = .ok (r, some tok) := by
  simp [readWord]

theorem not_isSpace_of_isNumber (c : UInt8) (h : isNumber c = true) : isSpace c = false := by
  by_contra hs
  simp only [isSpace, Bool.not_eq_false, Bool.or_eq_true, decide_eq_true_eq] at hs
  rcases hs with ((rfl | rfl) | rfl) | rfl
  all_goals exact absurd h (by decide)

/-- A number is read up to the first byte that does not belong to one. -/
theorem number_span {w r : Bytes} (digits : ∀ c ∈ w, isNumber c = true) (ends : ∀ c ∈ r.head?, isNumber c = false) :
    (w ++ r).takeWhile isNumber = w ∧ skipNumber (w ++ r) = r := by
  unfold skipNumber
  rw [List.takeWhile_append_of_pos digits, List.dropWhile_append_of_pos digits]
  cases r with
  | nil => simp
  | cons c r =>
    have stops : ¬isNumber c = true := by simp [ends c rfl]
    rw [List.takeWhile_cons_of_neg stops, List.dropWhile_cons_of_neg stops, List.append_nil]
    exact ⟨rfl, rfl⟩

/-- No token begins with white space. -/
theorem Lexeme.start {b r : Bytes} {t : Token F} (h : Lexeme (readerDialect parseFloat) b t r) :
    ∀ c ∈ b.head?, isSpace c = false := by
  intro c hc
  cases h with
  | @number w _ _ spelled _ =>
    obtain ⟨nonempty, digits, -⟩ := spelled
    cases w with
    | nil => exact absurd rfl nonempty
    | cons c' w =>
      cases hc
      exact not_isSpace_of_isNumber c (digits c List.mem_cons_self)
  | _ =>
    cases hc
    decide

variable (behind) in
theorem nextToken_of_tok {b r : Bytes} {t : Token F} (h : Tok (readerDialect parseFloat) b t r) :
    nextToken parseFloat behind b = .ok (r, some t) := by
  obtain ⟨b', spaces, lexeme⟩ := h
  unfold nextToken
  rw [skipSpace_of_spaces spaces lexeme.start]
  cases lexeme with
  | objectStart => rfl
  | objectEnd => rfl
  | arrayStart => rfl
  | arrayEnd => rfl
  | comma => rfl
  | colon => rfl
  | trueWord => exact readWord_append behind (word "true") r _
  | falseWord => exact readWord_append behind (word "false") r _
  | nullWord => exact readWord_append behind (word "null") r _
  | @number w _ x spelled ends =>
    obtain ⟨nonempty, digits, parsed⟩ := spelled
    obtain ⟨taken, skipped⟩ := number_span digits ends
    cases w with
    | nil => exact absurd rfl nonempty
    | cons c w =>
      show (if isNumber c = true then _ else _) = _
      rw [if_pos (digits c List.mem_cons_self)]
      have read : parseFloat ((c :: w.append r).takeWhile isNumber) = some x := (congrArg parseFloat taken).trans parsed
      have left : skipNumber (c :: w.append r) = r := skipped
      dsimp only
      rw [read, left]
  | @string w s _ body => exact readString_of_body body [] r

/-- Where something other than white space is left, and what `nextToken` makes of it. -/
theorem skipSpace_cases (b : Bytes) : (skipSpace b = [] ∧ Spaces b []) ∨
    ∃ c r, skipSpace b = c :: r ∧ Spaces b (c :: r) ∧ isSpace c = false := by
  cases h : skipSpace b with
  | nil => exact .inl ⟨rfl, h ▸ spaces_skipSpace b⟩
  | cons c r =>
    refine .inr ⟨c, r, rfl, h ▸ spaces_skipSpace b, ?_⟩
    have head := List.head?_dropWhile_not isSpace b
    unfold skipSpace at h
    rw [h] at head
    simpa using head

theorem nextToken_of_panics {b : Bytes} (h : Panics behind b) : nextToken parseFloat behind b = .error .panic := by
  rcases h with nothing | ⟨c, r, spaces, misspelled, short⟩
  · unfold nextToken
    rw [skipSpace_of_spaces nothing (by simp)]
  · have fails (w : String) (tok : Token F) (h : ¬word w <+: c :: r) :
        readWord behind (c :: r) (word w) tok = .error .panic := by
      rcases readWord_cases behind (c :: r) (word w) tok with ⟨r', heq, -⟩ | ⟨-, -, h'⟩ | ⟨-, long, -⟩
      · exact absurd ⟨r', heq.symm⟩ h
      · exact h'
      · omega
    unfold nextToken
    rcases misspelled with ⟨rfl, h⟩ | ⟨rfl, h⟩ | ⟨rfl, h⟩
    · rw [skipSpace_cons spaces (by decide)]
      exact fails _ _ h
    · rw [skipSpace_cons spaces (by decide)]
      exact fails _ _ h
    · rw [skipSpace_cons spaces (by decide)]
      exact fails _ _ h

theorem nextToken_of_noToken {b : Bytes} (h : NoToken b) : nextToken parseFloat behind b = .ok ([], none) := by
  obtain ⟨c, r, spaces, start, h⟩ := h
  unfold nextToken
  rw [skipSpace_cons spaces start]
  rcases h with none | ⟨rfl, s, body⟩
  · simp only [startsToken, Bool.or_eq_false_iff, decide_eq_false_iff_not] at none
    obtain ⟨⟨⟨⟨⟨⟨⟨⟨⟨⟨h0, h1⟩, h2⟩, h3⟩, h4⟩, h5⟩, h6⟩, h7⟩, h8⟩, h9⟩, h10⟩ := none
    simp only [h0, h1, h2, h3, h4, h5, h6, h7, h8, h9, h10, if_false, Bool.false_eq_true]
  · exact readString_of_unterminated body []

variable (parseFloat behind) in
/-- What `nextToken` can answer. -/
theorem nextToken_cases (b : Bytes) :
    (∃ t r, Tok (readerDialect parseFloat) b t r ∧ nextToken parseFloat behind b = .ok (r, some t)) ∨
    (NoToken b ∧ nextToken parseFloat behind b = .ok ([], none)) ∨
    (Panics behind b ∧ nextToken parseFloat behind b = .error .panic) ∨
    ∃ e, nextToken parseFloat behind b = .error (.error e) := by
  have outcome : (∃ t r, Tok (readerDialect parseFloat) b t r) ∨ NoToken b ∨ Panics behind b ∨
      ∃ e, nextToken parseFloat behind b = .error (.error e) := by
    rcases skipSpace_cases b with ⟨-, nothing⟩ | ⟨c, r, skipped, spaces, start⟩
    · exact .inr (.inr (.inl (.inl nothing)))
    have token {t : Token F} {r' : Bytes} (h : Lexeme (readerDialect parseFloat) (c :: r) t r') :
        ∃ t r, Tok (readerDialect parseFloat) b t r := ⟨t, r', c :: r, spaces, h⟩
    by_cases number : isNumber c = true
    · have split : (c :: r).takeWhile isNumber ++ skipNumber (c :: r) = c :: r := List.takeWhile_append_dropWhile
      have ends : ∀ c' ∈ (skipNumber (c :: r)).head?, isNumber c' = false := by
        intro c' hc'
        have head := List.head?_dropWhile_not isNumber (c :: r)
        unfold skipNumber at hc'
        rw [hc'] at head
        simpa using head
      cases parsed : parseFloat ((c :: r).takeWhile isNumber) with
      | none =>
        refine .inr (.inr (.inr ⟨⟨"Invalid number: ", (c :: r).takeWhile isNumber⟩, ?_⟩))
        unfold nextToken
        rw [skipped]
        dsimp only
        rw [if_pos number, parsed]
        rfl
      | some x =>
        have nonempty : (c :: r).takeWhile isNumber ≠ [] := by simp [number]
        have lexeme := Lexeme.number (d := readerDialect parseFloat) ⟨nonempty, List.all_eq_true.1 List.all_takeWhile, parsed⟩ ends
        rw [split] at lexeme
        exact .inl (token lexeme)
    by_cases objectStart : c = ch '\x7b'
    · subst objectStart
      exact .inl (token .objectStart)
    by_cases objectEnd : c = ch '\x7d'
    · subst objectEnd
      exact .inl (token .objectEnd)
    by_cases arrayStart : c = ch '['
    · subst arrayStart
      exact .inl (token .arrayStart)
    by_cases arrayEnd : c = ch ']'
    · subst arrayEnd
      exact .inl (token .arrayEnd)
    by_cases comma : c = ch ','
    · subst comma
      exact .inl (token .comma)
    by_cases colon : c = ch ':'
    · subst colon
      exact .inl (token .colon)
    by_cases quote : c = ch '"'
    · subst quote
      rcases readString_cases (F := F) [] r with ⟨w, s, r', rfl, body, -⟩ | ⟨s, body, -⟩ | ⟨e, failed⟩
      · exact .inl (token (.string body))
      · exact .inr (.inl ⟨_, r, spaces, start, .inr ⟨rfl, s, body⟩⟩)
      · refine .inr (.inr (.inr ⟨e, ?_⟩))
        unfold nextToken
        rw [skipped]
        exact failed
    have spelled (w : String) (tok : Token F) (reads : nextToken parseFloat behind b = readWord behind (c :: r) (word w) tok)
        (lexeme : ∀ r', Lexeme (readerDialect parseFloat) (word w ++ r') tok r')
        (misspelled : ¬word w <+: c :: r → (c = ch 't' ∧ ¬word "true" <+: c :: r) ∨
          (c = ch 'f' ∧ ¬word "false" <+: c :: r) ∨ (c = ch 'n' ∧ ¬word "null" <+: c :: r)) :
        (∃ t r, Tok (readerDialect parseFloat) b t r) ∨ NoToken b ∨ Panics behind b ∨
          ∃ e, nextToken parseFloat behind b = .error (.error e) := by
      rcases readWord_cases behind (c :: r) (word w) tok with ⟨r', heq, -⟩ | ⟨differs, short, -⟩ | ⟨-, -, e, failed⟩
      · exact .inl (token (heq ▸ lexeme r'))
      · exact .inr (.inr (.inl (.inr ⟨c, r, spaces, misspelled differs, short⟩)))
      · exact .inr (.inr (.inr ⟨e, reads.trans failed⟩))
    by_cases t : c = ch 't'
    · subst t
      exact spelled "true" (.bool true) (by unfold nextToken; rw [skipped]; rfl) (fun _ => .trueWord) fun h => .inl ⟨rfl, h⟩
    by_cases f : c = ch 'f'
    · subst f
      exact spelled "false" (.bool false) (by unfold nextToken; rw [skipped]; rfl) (fun _ => .falseWord)
        fun h => .inr (.inl ⟨rfl, h⟩)
    by_cases n : c = ch 'n'
    · subst n
      exact spelled "null" .null (by unfold nextToken; rw [skipped]; rfl) (fun _ => .nullWord)
        fun h => .inr (.inr ⟨rfl, h⟩)
    have none : startsToken c = false := by
      simp [startsToken, number, objectStart, objectEnd, arrayStart, arrayEnd, comma, colon, quote, t, f, n]
    exact .inr (.inl ⟨c, r, spaces, start, .inl none⟩)
  rcases outcome with ⟨t, r, tok⟩ | none | panics | failed
  · exact .inl ⟨t, r, tok, nextToken_of_tok behind tok⟩
  · exact .inr (.inl ⟨none, nextToken_of_noToken none⟩)
  · exact .inr (.inr (.inl ⟨panics, nextToken_of_panics panics⟩))
  · exact .inr (.inr (.inr failed))

theorem nextToken_some {b r : Bytes} {t : Token F} :
    nextToken parseFloat behind b = .ok (r, some t) ↔ Tok (readerDialect parseFloat) b t r := by
  constructor
  · intro h
    rcases nextToken_cases parseFloat behind b with ⟨t', r', tok, h'⟩ | ⟨-, h'⟩ | ⟨-, h'⟩ | ⟨e, h'⟩
    · rw [h] at h'
      cases h'
      exact tok
    all_goals
      rw [h] at h'
      cases h'
  · exact nextToken_of_tok behind

/-- The text determines the token. -/
theorem Tok.unique {b r r' : Bytes} {t t' : Token F} (h : Tok (readerDialect parseFloat) b t r)
    (h' : Tok (readerDialect parseFloat) b t' r') : t = t' ∧ r = r' := by
  have same := (nextToken_of_tok [] h).symm.trans (nextToken_of_tok [] h')
  cases same
  exact ⟨rfl, rfl⟩

theorem length_lt_append {w r : Bytes} (h : 0 < w.length) : r.length < (w ++ r).length := by
  rw [List.length_append]
  omega

/-- A token takes at least one byte. -/
theorem Tok.shorter {b r : Bytes} {t : Token F} (h : Tok (readerDialect parseFloat) b t r) : r.length < b.length := by
  obtain ⟨b', ⟨ws, rfl, -⟩, lexeme⟩ := h
  have inside : r.length < b'.length := by
    cases lexeme with
    | @number w _ x spelled _ =>
      exact length_lt_append (List.length_pos_iff.2 spelled.1)
    | trueWord => exact length_lt_append (by decide)
    | falseWord => exact length_lt_append (by decide)
    | nullWord => exact length_lt_append (by decide)
    | string _ =>
      simp only [List.length_cons, List.length_append]
      omega
    | _ => exact Nat.lt_succ_self _
  rw [List.length_append]
  omega

end

end Rocketcycle.Jsonutils
