import Rocketcycle.Jsonutils.Accepted
import Rocketcycle.Jsonutils.Writer

/-!
# Writing and reading

A tree whose keys need no escapes is written as a text that denotes it.
-/

namespace Rocketcycle.Jsonutils

section
variable {F : Type}

/-! ## Trees -/

mutual

/-- Strings are in UTF-8, and the keys of an object differ and are not empty. -/
def Json.Valid : Json F → Prop
  | .string val => ∃ cs, val = Utf8.encode cs
  | .array val => ValidElements val
  | .object val => (val.map Prod.fst).Nodup ∧ ValidEntries val
  | _ => True
termination_by structural v => v

def ValidElements : List (Json F) → Prop
  | [] => True
  | itm :: rest => itm.Valid ∧ ValidElements rest
termination_by structural arr => arr

def ValidEntries : List (Bytes × Json F) → Prop
  | [] => True
  | entry :: rest => ValidEntry entry ∧ ValidEntries rest
termination_by structural entries => entries

def ValidEntry : Bytes × Json F → Prop
  | (key, val) => key ≠ [] ∧ val.Valid
termination_by structural entry => entry

end

mutual

/-- The keys at every depth. -/
def Json.keys : Json F → List Bytes
  | .array val => elementKeys val
  | .object val => entriesKeys val
  | _ => []
termination_by structural v => v

def elementKeys : List (Json F) → List Bytes
  | [] => []
  | itm :: rest => itm.keys ++ elementKeys rest
termination_by structural arr => arr

def entriesKeys : List (Bytes × Json F) → List Bytes
  | [] => []
  | entry :: rest => entryKeys entry ++ entriesKeys rest
termination_by structural entries => entries

def entryKeys : Bytes × Json F → List Bytes
  | (key, val) => key :: val.keys
termination_by structural entry => entry

end

/-- Without a quote and a backslash. -/
def Ordinary (u : Bytes) : Prop := ∀ b ∈ u, b ≠ ch '"' ∧ b ≠ ch '\\'

/-- White space only. -/
def Blank (ws : Bytes) : Prop := ∀ c ∈ ws, isSpace c = true

/-- The numbers of the tree are finite: they are written with the characters of a number, and read back. -/
structure FloatsInverse (formatFloat : F → Bytes) (parseFloat : Bytes → Option F) : Prop where
  nonempty : ∀ x, formatFloat x ≠ []
  spelled : ∀ x, ∀ c ∈ formatFloat x, isNumber c = true
  parse_format : ∀ x, parseFloat (formatFloat x) = some x

/-! ## Strings -/

theorem encodeRune_body (c : Char) {w s : Bytes} (h : Body w s) : Body (encodeRune c ++ w) (String.utf8EncodeChar c ++ s) := by
  unfold encodeRune
  by_cases quote : c = '"'
  · subst quote
    exact .escape rfl h
  rw [if_neg quote]
  by_cases backslash : c = '\\'
  · subst backslash
    exact .escape rfl h
  rw [if_neg backslash]
  by_cases backspace : c = Char.ofNat 8
  · subst backspace
    exact .escape rfl h
  rw [if_neg backspace]
  by_cases formFeed : c = Char.ofNat 12
  · subst formFeed
    exact .escape rfl h
  rw [if_neg formFeed]
  by_cases newline : c = '\n'
  · subst newline
    exact .escape rfl h
  rw [if_neg newline]
  by_cases carriage : c = '\r'
  · subst carriage
    exact .escape rfl h
  rw [if_neg carriage]
  by_cases tab : c = '\t'
  · subst tab
    exact .escape rfl h
  rw [if_neg tab]
  exact h.append (utf8EncodeChar_ordinary quote backslash)

theorem encodeRunes_body (cs : List Char) : Body (cs.flatMap encodeRune) (Utf8.encode cs) := by
  induction cs with
  | nil => exact .nil
  | cons c cs ih => exact encodeRune_body c ih

theorem encodeString_encode (cs : List Char) : encodeString (Utf8.encode cs) = ch '"' :: (cs.flatMap encodeRune ++ [ch '"']) := by
  unfold encodeString
  rw [Utf8.runes_encode]

theorem Ordinary.body {u : Bytes} (h : Ordinary u) : Body u u := by
  have whole := Body.nil.append h
  rwa [List.append_nil] at whole

/-! ## White space -/

theorem Tok.behind_blank {d : Dialect F} {ws b r : Bytes} {t : Token F} (blank : Blank ws) (h : Tok d b t r) :
    Tok d (ws ++ b) t r := by
  obtain ⟨b', ⟨ws', rfl, blank'⟩, lexeme⟩ := h
  refine ⟨b', ⟨ws ++ ws', (List.append_assoc ws ws' b').symm, ?_⟩, lexeme⟩
  intro c hc
  rcases List.mem_append.1 hc with hc | hc
  · exact blank c hc
  · exact blank' c hc

theorem KeyColon.behind_blank {d : Dialect F} {ws b k r : Bytes} (blank : Blank ws) (h : KeyColon d b k r) :
    KeyColon d (ws ++ b) k r := by
  obtain ⟨b', tok, key, colon⟩ := h
  exact ⟨b', tok.behind_blank blank, key, colon⟩

theorem Derives.behind_blank {d : Dialect F} {ws b r : Bytes} {p : Part F} (blank : Blank ws) (h : Derives d p b r) :
    Derives d p (ws ++ b) r := by
  induction h with
  | null t => exact .null (t.behind_blank blank)
  | bool t => exact .bool (t.behind_blank blank)
  | number t => exact .number (t.behind_blank blank)
  | string t => exact .string (t.behind_blank blank)
  | array t rest _ => exact .array (t.behind_blank blank) rest
  | object t rest _ => exact .object (t.behind_blank blank) rest
  | elementsEnd allowed t => exact .elementsEnd allowed (t.behind_blank blank)
  | lastElement _ t ih => exact .lastElement ih t
  | element _ t rest ih _ => exact .element ih t rest
  | membersEnd allowed t => exact .membersEnd allowed (t.behind_blank blank)
  | lastMember key value t _ => exact .lastMember (key.behind_blank blank) value t
  | member key value t rest _ _ => exact .member (key.behind_blank blank) value t rest

/-- What may follow a number. -/
def EndsNumber (r : Bytes) : Prop := ∀ c ∈ r.head?, isNumber c = false

theorem endsNumber_cons {c : UInt8} {r : Bytes} (h : isNumber c = false) : EndsNumber (c :: r) := by
  intro c' hc
  cases hc
  exact h

theorem endsNumber_comma (r : Bytes) : EndsNumber (ch ',' :: r) := endsNumber_cons (by decide)

theorem EndsNumber.behind_blank {ws r : Bytes} (blank : Blank ws) (h : EndsNumber r) : EndsNumber (ws ++ r) := by
  cases ws with
  | nil => exact h
  | cons c ws =>
    apply endsNumber_cons
    have space := blank c List.mem_cons_self
    cases number : isNumber c with
    | false => rfl
    | true =>
      rw [not_isSpace_of_isNumber c number] at space
      cases space

/-! ## What is written denotes the tree -/

theorem blank_nil : Blank [] := nofun

theorem Blank.append {ws ws' : Bytes} (h : Blank ws) (h' : Blank ws') : Blank (ws ++ ws') := by
  intro c hc
  rcases List.mem_append.1 hc with hc | hc
  · exact h c hc
  · exact h' c hc

/-- A token that stands by itself. -/
theorem tok_of_lexeme {d : Dialect F} {b r : Bytes} {t : Token F} (h : Lexeme d b t r) : Tok d b t r := ⟨b, .refl b, h⟩

variable {formatFloat : F → Bytes} {parseFloat : Bytes → Option F}

/-- A key without a quote and a backslash is read as it is. -/
theorem keyColon_of_ordinary {key : Bytes} (nonempty : key ≠ []) (ordinary : Ordinary key) (r : Bytes) :
    KeyColon (readerDialect parseFloat) (ch '"' :: (key ++ ch '"' :: ch ':' :: r)) key r :=
  ⟨_, tok_of_lexeme (.string ordinary.body), nonempty, tok_of_lexeme .colon⟩

mutual

theorem marshal_derives (floats : FloatsInverse formatFloat parseFloat) {eol indent currIndent colonSpace : Bytes}
    (heol : Blank eol) (hindent : Blank indent) (hcurr : Blank currIndent) (hcolon : Blank colonSpace) (v : Json F)
    (valid : v.Valid) (ordinary : ∀ k ∈ v.keys, Ordinary k) {r : Bytes} (follow : EndsNumber r) :
    Derives (readerDialect parseFloat) (.value v) (marshal formatFloat eol indent currIndent colonSpace v ++ r) r := by
  cases v with
  | null => exact .null (tok_of_lexeme .nullWord)
  | bool val =>
    cases val with
    | false => exact .bool (tok_of_lexeme .falseWord)
    | true => exact .bool (tok_of_lexeme .trueWord)
  | number val =>
    exact .number (tok_of_lexeme (.number ⟨floats.nonempty val, floats.spelled val, floats.parse_format val⟩ follow))
  | string val =>
    obtain ⟨cs, rfl⟩ := valid
    rw [marshal, encodeString_encode, List.cons_append, List.append_assoc]
    exact .string (tok_of_lexeme (.string (encodeRunes_body cs)))
  | array val =>
    rw [marshal]
    split
    · rw [List.cons_append, List.append_assoc]
      exact .array (tok_of_lexeme .arrayStart)
        (elements_derives floats blank_nil hindent blank_nil hcolon blank_nil val valid ordinary false r)
    · rw [List.cons_append, List.append_assoc, List.append_assoc, List.append_assoc]
      have rest := elements_derives floats heol hindent (hcurr.append hindent) hcolon hcurr val valid ordinary false r
      exact .array (tok_of_lexeme .arrayStart) (rest.behind_blank heol)
  | object val =>
    obtain ⟨nodup, entries⟩ := valid
    have same : OrderedMap.ofEntries val = val := ofEntries_of_nodup nodup
    rw [marshal]
    split
    · rw [List.cons_append, List.append_assoc]
      have rest := members_derives floats blank_nil hindent blank_nil hcolon blank_nil val entries ordinary false r
      have made := Derives.object (tok_of_lexeme .objectStart) rest
      rw [same] at made
      exact made
    · rw [List.cons_append, List.append_assoc, List.append_assoc, List.append_assoc]
      have rest := members_derives floats heol hindent (hcurr.append hindent) hcolon hcurr val entries ordinary false r
      have made := Derives.object (tok_of_lexeme .objectStart) (rest.behind_blank heol)
      rw [same] at made
      exact made

theorem elements_derives (floats : FloatsInverse formatFloat parseFloat) {eol indent newIndent colonSpace ws : Bytes}
    (heol : Blank eol) (hindent : Blank indent) (hnew : Blank newIndent) (hcolon : Blank colonSpace) (hws : Blank ws)
    (arr : List (Json F)) (valid : ValidElements arr) (ordinary : ∀ k ∈ elementKeys arr, Ordinary k) (after : Bool) (r : Bytes) :
    Derives (readerDialect parseFloat) (.elements after arr)
      (marshalElements formatFloat eol indent newIndent colonSpace arr ++ (ws ++ ch ']' :: r)) r := by
  match arr with
  | [] =>
    rw [marshalElements, List.nil_append]
    exact .elementsEnd (fun _ => trivial) ((tok_of_lexeme .arrayEnd).behind_blank hws)
  | [itm] =>
    rw [marshalElements, marshalElements]
    simp only [List.isEmpty_nil, if_true, List.append_assoc, List.nil_append]
    have end' : Tok (readerDialect parseFloat) (eol ++ (ws ++ ch ']' :: r)) .arrayEnd r :=
      ((tok_of_lexeme .arrayEnd).behind_blank hws).behind_blank heol
    have follow : EndsNumber (eol ++ (ws ++ ch ']' :: r)) :=
      ((endsNumber_cons (by decide)).behind_blank hws).behind_blank heol
    have keys : ∀ k ∈ itm.keys, Ordinary k := fun k hk => ordinary k (List.mem_append_left _ hk)
    have value := marshal_derives floats heol hindent hnew hcolon itm valid.1 keys follow
    exact .lastElement (value.behind_blank hnew) end'
  | itm :: itm' :: rest =>
    rw [marshalElements]
    simp only [List.isEmpty_cons, Bool.false_eq_true, if_false, List.append_assoc, List.cons_append, List.nil_append]
    have keys : ∀ k ∈ itm.keys, Ordinary k := fun k hk => ordinary k (List.mem_append_left _ hk)
    have keys' : ∀ k ∈ elementKeys (itm' :: rest), Ordinary k := fun k hk => ordinary k (List.mem_append_right _ hk)
    have elements := elements_derives floats heol hindent hnew hcolon hws (itm' :: rest) valid.2 keys' true r
    have value (r' : Bytes) := marshal_derives floats heol hindent hnew hcolon itm valid.1 keys (endsNumber_comma r')
    exact .element ((value _).behind_blank hnew) (tok_of_lexeme .comma) (elements.behind_blank heol)

theorem members_derives (floats : FloatsInverse formatFloat parseFloat) {eol indent newIndent colonSpace ws : Bytes}
    (heol : Blank eol) (hindent : Blank indent) (hnew : Blank newIndent) (hcolon : Blank colonSpace) (hws : Blank ws)
    (entries : List (Bytes × Json F)) (valid : ValidEntries entries) (ordinary : ∀ k ∈ entriesKeys entries, Ordinary k)
    (after : Bool) (r : Bytes) :
    Derives (readerDialect parseFloat) (.members after entries)
      (marshalMembers formatFloat eol indent newIndent colonSpace entries ++ (ws ++ ch '\x7d' :: r)) r := by
  match entries with
  | [] =>
    rw [marshalMembers, List.nil_append]
    exact .membersEnd (fun _ => trivial) ((tok_of_lexeme .objectEnd).behind_blank hws)
  | [entry] =>
    rw [marshalMembers, marshalMembers]
    simp only [List.isEmpty_nil, if_true, List.append_assoc, List.nil_append]
    have end' : Tok (readerDialect parseFloat) (eol ++ (ws ++ ch '\x7d' :: r)) .objectEnd r :=
      ((tok_of_lexeme .objectEnd).behind_blank hws).behind_blank heol
    have follow : EndsNumber (eol ++ (ws ++ ch '\x7d' :: r)) :=
      ((endsNumber_cons (by decide)).behind_blank hws).behind_blank heol
    have keys : ∀ k ∈ entryKeys entry, Ordinary k := fun k hk => ordinary k (List.mem_append_left _ hk)
    obtain ⟨b', key, value⟩ := entry_derives floats heol hindent hnew hcolon entry valid.1 keys follow
    exact .lastMember (key.behind_blank hnew) value end'
  | entry :: entry' :: rest =>
    rw [marshalMembers]
    simp only [List.isEmpty_cons, Bool.false_eq_true, if_false, List.append_assoc, List.cons_append, List.nil_append]
    have keys : ∀ k ∈ entryKeys entry, Ordinary k := fun k hk => ordinary k (List.mem_append_left _ hk)
    have keys' : ∀ k ∈ entriesKeys (entry' :: rest), Ordinary k := fun k hk => ordinary k (List.mem_append_right _ hk)
    have follow := endsNumber_comma (eol ++ (marshalMembers formatFloat eol indent newIndent colonSpace (entry' :: rest) ++
      (ws ++ ch '\x7d' :: r)))
    obtain ⟨b', key, value⟩ := entry_derives floats heol hindent hnew hcolon entry valid.1 keys follow
    have members := members_derives floats heol hindent hnew hcolon hws (entry' :: rest) valid.2 keys' true r
    exact .member (key.behind_blank hnew) value (tok_of_lexeme .comma) (members.behind_blank heol)

theorem entry_derives (floats : FloatsInverse formatFloat parseFloat) {eol indent newIndent colonSpace : Bytes}
    (heol : Blank eol) (hindent : Blank indent) (hnew : Blank newIndent) (hcolon : Blank colonSpace)
    (entry : Bytes × Json F) (valid : ValidEntry entry) (ordinary : ∀ k ∈ entryKeys entry, Ordinary k) {r : Bytes}
    (follow : EndsNumber r) :
    ∃ b', KeyColon (readerDialect parseFloat) (marshalEntry formatFloat eol indent newIndent colonSpace entry ++ r) entry.1 b' ∧
      Derives (readerDialect parseFloat) (.value entry.2) b' r := by
  obtain ⟨key, val⟩ := entry
  obtain ⟨nonempty, valid⟩ := valid
  rw [marshalEntry]
  simp only [List.append_assoc, List.cons_append]
  have keys : ∀ k ∈ val.keys, Ordinary k := fun k hk => ordinary k (List.mem_cons_of_mem _ hk)
  have value := marshal_derives floats heol hindent hnew hcolon val valid keys follow
  exact ⟨_, keyColon_of_ordinary nonempty (ordinary key List.mem_cons_self) _, value.behind_blank hcolon⟩

end

end

end Rocketcycle.Jsonutils
