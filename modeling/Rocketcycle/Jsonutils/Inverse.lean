import Rocketcycle.Jsonutils.RawKeys

/-!
# Writer and reader

What is written is read back as the same tree if no key in it has a quote or a backslash, and not
otherwise.
-/

namespace Rocketcycle.Jsonutils

section
variable {F : Type} {formatFloat : F → Bytes} {parseFloat : Bytes → Option F} {behind : Bytes}

/-! ## What is written -/

theorem Written.behind_ordinary {K : List Bytes} {u T : Bytes} (ordinary : Ordinary u) (h : Written K T) : Written K (u ++ T) := by
  induction u with
  | nil => exact h
  | cons b u ih =>
    obtain ⟨quote, backslash⟩ := ordinary b List.mem_cons_self
    exact .byte quote backslash (ih fun b' hb => ordinary b' (List.mem_cons_of_mem _ hb))

theorem Written.behind_byte {K : List Bytes} {b : UInt8} {T : Bytes} (h : Written K T) (quote : b ≠ ch '"' := by decide)
    (backslash : b ≠ ch '\\' := by decide) : Written K (b :: T) := .byte quote backslash h

theorem noColon_cons {b : UInt8} (T : Bytes) (notSpace : isSpace b = false) (notColon : b ≠ ch ':') : NoColon (b :: T) := by
  intro ws r blank text
  cases ws with
  | nil => exact notColon (List.cons.inj text).1
  | cons c ws =>
    have space := blank c List.mem_cons_self
    rw [← (List.cons.inj text).1, notSpace] at space
    cases space

theorem ordinary_words : Ordinary (word "null") ∧ Ordinary (word "false") ∧ Ordinary (word "true") := by
  unfold Ordinary
  decide +kernel

theorem ordinary_of_number {w : Bytes} (spelled : ∀ c ∈ w, isNumber c = true) : Ordinary w := by
  intro c hc
  constructor
  · rintro rfl
    exact absurd (spelled _ hc) (by decide)
  · rintro rfl
    exact absurd (spelled _ hc) (by decide)

mutual

theorem marshal_written (floats : FloatsInverse formatFloat parseFloat) {K : List Bytes} (v : Json F) (valid : v.Valid)
    (keys : ∀ k ∈ v.keys, k ∈ K) {T : Bytes} (noColon : NoColon T) (rest : Written K T) :
    Written K (marshal formatFloat [] [] [] [] v ++ T) := by
  cases v with
  | null => exact rest.behind_ordinary ordinary_words.1
  | bool val =>
    cases val with
    | false => exact rest.behind_ordinary ordinary_words.2.1
    | true => exact rest.behind_ordinary ordinary_words.2.2
  | number val => exact rest.behind_ordinary (ordinary_of_number (floats.spelled val))
  | string val =>
    obtain ⟨cs, rfl⟩ := valid
    rw [marshal, encodeString_encode, List.cons_append, List.append_assoc]
    exact .string noColon rest
  | array val =>
    have elements := elements_written floats val valid keys (noColon_cons T (by decide) (by decide))
      (rest.behind_byte (b := ch ']'))
    rw [marshal]
    simpa using elements.behind_byte (b := ch '[')
  | object val =>
    have members := members_written floats val valid.2 keys (noColon_cons T (by decide) (by decide))
      (rest.behind_byte (b := ch '\x7d'))
    rw [marshal]
    simpa using members.behind_byte (b := ch '\x7b')

theorem elements_written (floats : FloatsInverse formatFloat parseFloat) {K : List Bytes} (arr : List (Json F))
    (valid : ValidElements arr) (keys : ∀ k ∈ elementKeys arr, k ∈ K) {T : Bytes} (noColon : NoColon T) (rest : Written K T) :
    Written K (marshalElements formatFloat [] [] [] [] arr ++ T) := by
  match arr with
  | [] => exact rest
  | [itm] =>
    have value := marshal_written floats itm valid.1 (fun k hk => keys k (List.mem_append_left _ hk)) noColon rest
    rw [marshalElements, marshalElements]
    simpa using value
  | itm :: itm' :: more =>
    have elements := elements_written floats (itm' :: more) valid.2 (fun k hk => keys k (List.mem_append_right _ hk)) noColon rest
    have value := marshal_written floats itm valid.1 (fun k hk => keys k (List.mem_append_left _ hk))
      (noColon_cons _ (by decide) (by decide)) (elements.behind_byte (b := ch ','))
    rw [marshalElements]
    simpa using value

theorem members_written (floats : FloatsInverse formatFloat parseFloat) {K : List Bytes} (entries : List (Bytes × Json F))
    (valid : ValidEntries entries) (keys : ∀ k ∈ entriesKeys entries, k ∈ K) {T : Bytes} (noColon : NoColon T)
    (rest : Written K T) : Written K (marshalMembers formatFloat [] [] [] [] entries ++ T) := by
  match entries with
  | [] => exact rest
  | [entry] =>
    have member := entry_written floats entry valid.1 (fun k hk => keys k (List.mem_append_left _ hk)) noColon rest
    rw [marshalMembers, marshalMembers]
    simpa using member
  | entry :: entry' :: more =>
    have members := members_written floats (entry' :: more) valid.2 (fun k hk => keys k (List.mem_append_right _ hk)) noColon rest
    have member := entry_written floats entry valid.1 (fun k hk => keys k (List.mem_append_left _ hk))
      (noColon_cons _ (by decide) (by decide)) (members.behind_byte (b := ch ','))
    rw [marshalMembers]
    simpa using member

theorem entry_written (floats : FloatsInverse formatFloat parseFloat) {K : List Bytes} (entry : Bytes × Json F)
    (valid : ValidEntry entry) (keys : ∀ k ∈ entryKeys entry, k ∈ K) {T : Bytes} (noColon : NoColon T) (rest : Written K T) :
    Written K (marshalEntry formatFloat [] [] [] [] entry ++ T) := by
  obtain ⟨key, val⟩ := entry
  have value := marshal_written floats val valid.2 (fun k hk => keys k (List.mem_cons_of_mem _ hk)) noColon rest
  rw [marshalEntry]
  simpa using Written.key (keys key List.mem_cons_self) value

end

/-! ## What is read -/

theorem Tok.suffix {b r : Bytes} {t : Token F} (h : Tok (readerDialect parseFloat) b t r) : ∃ u, b = u ++ r := by
  obtain ⟨b', ⟨ws, rfl, -⟩, lexeme⟩ := h
  cases lexeme with
  | @string w _ _ _ => exact ⟨ws ++ ch '"' :: (w ++ [ch '"']), by simp⟩
  | @number w _ _ _ _ => exact ⟨ws ++ w, by simp⟩
  | trueWord | falseWord | nullWord => exact ⟨ws ++ _, (List.append_assoc ws _ _).symm⟩
  | _ => exact ⟨ws ++ [_], List.append_cons ws _ _⟩

/-- A key that is read is in quotes, and a colon is behind it. -/
theorem KeyColon.quoted {k b r : Bytes} (h : KeyColon (readerDialect parseFloat) b k r) : QuotedKey k b ∧ ∃ u, b = u ++ r := by
  obtain ⟨b', tok, -, colon⟩ := h
  obtain ⟨u, hu⟩ := tok.suffix
  obtain ⟨u', hu'⟩ := colon.suffix
  refine ⟨?_, u ++ u', by rw [hu, hu', List.append_assoc]⟩
  obtain ⟨b1, ⟨ws, rfl, -⟩, lexeme⟩ := tok
  obtain ⟨b2, ⟨ws', rfl, blank⟩, lexeme'⟩ := colon
  cases lexeme with
  | @string w _ _ spelled =>
    cases lexeme' with
    | colon => exact ⟨ws, w, ws', r, rfl, spelled, blank⟩

theorem mem_setAll {e : Bytes × Json F} {es m : OrderedMap F} (h : e ∈ OrderedMap.setAll m es) : e ∈ m ∨ e ∈ es := by
  induction es generalizing m with
  | nil => exact .inl h
  | cons e' es ih =>
    rcases ih h with h | h
    · rcases mem_set h with rfl | h
      · exact .inr List.mem_cons_self
      · exact .inl h
    · exact .inr (List.mem_cons_of_mem _ h)

theorem mem_entriesKeys {k : Bytes} {es : List (Bytes × Json F)} : k ∈ entriesKeys es ↔ ∃ e ∈ es, k ∈ entryKeys e := by
  induction es with
  | nil => simp [entriesKeys]
  | cons e es ih => simp [entriesKeys, ih]

theorem keys_ofEntries_subset {k : Bytes} {es : List (Bytes × Json F)} (h : k ∈ (Json.object (OrderedMap.ofEntries es)).keys) :
    k ∈ entriesKeys es := by
  obtain ⟨e, he, hk⟩ := mem_entriesKeys.1 h
  rcases mem_setAll he with he | he
  · cases he
  · exact mem_entriesKeys.2 ⟨e, he, hk⟩

/-- The keys in what is read. -/
def Part.keys : Part F → List Bytes
  | .value v => v.keys
  | .elements _ vs => elementKeys vs
  | .members _ es => entriesKeys es

/-- Every key of a tree is read from somewhere in its text. -/
theorem Derives.quoted {p : Part F} {b r : Bytes} (h : Derives (readerDialect parseFloat) p b r) :
    (∃ u, b = u ++ r) ∧ ∀ k ∈ p.keys, QuotedKey k b := by
  have behind {k b b' : Bytes} (suffix : ∃ u, b = u ++ b') (quoted : QuotedKey k b') : QuotedKey k b := by
    obtain ⟨u, rfl⟩ := suffix
    exact quoted.behind u
  have suffix {b b' b'' : Bytes} (h : ∃ u, b = u ++ b') (h' : ∃ u, b' = u ++ b'') : ∃ u, b = u ++ b'' := by
    obtain ⟨u, rfl⟩ := h
    obtain ⟨u', rfl⟩ := h'
    exact ⟨u ++ u', (List.append_assoc u u' b'').symm⟩
  induction h with
  | null t | bool t | number t | string t => exact ⟨t.suffix, nofun⟩
  | array t _ ih => exact ⟨suffix t.suffix ih.1, fun k hk => behind t.suffix (ih.2 k hk)⟩
  | object t _ ih => exact ⟨suffix t.suffix ih.1, fun k hk => behind t.suffix (ih.2 k (keys_ofEntries_subset hk))⟩
  | elementsEnd _ t | membersEnd _ t => exact ⟨t.suffix, nofun⟩
  | lastElement _ t ih =>
    refine ⟨suffix ih.1 t.suffix, fun k hk => ?_⟩
    rcases List.mem_append.1 hk with hk | hk
    · exact ih.2 k hk
    · cases hk
  | element _ t _ ih ih' =>
    refine ⟨suffix ih.1 (suffix t.suffix ih'.1), fun k hk => ?_⟩
    rcases List.mem_append.1 hk with hk | hk
    · exact ih.2 k hk
    · exact behind ih.1 (behind t.suffix (ih'.2 k hk))
  | lastMember key _ t ih =>
    obtain ⟨quoted, keySuffix⟩ := key.quoted
    refine ⟨suffix keySuffix (suffix ih.1 t.suffix), fun k hk => ?_⟩
    rcases List.mem_append.1 hk with hk | hk
    · rcases List.mem_cons.1 hk with rfl | hk
      · exact quoted
      · exact behind keySuffix (ih.2 k hk)
    · cases hk
  | member key _ t _ ih ih' =>
    obtain ⟨quoted, keySuffix⟩ := key.quoted
    refine ⟨suffix keySuffix (suffix ih.1 (suffix t.suffix ih'.1)), fun k hk => ?_⟩
    rcases List.mem_append.1 hk with hk | hk
    · rcases List.mem_cons.1 hk with rfl | hk
      · exact quoted
      · exact behind keySuffix (ih.2 k hk)
    · exact behind keySuffix (behind ih.1 (behind t.suffix (ih'.2 k hk)))

/-! ## Both -/

/-- The tree is read back from a text without its keys being escaped. -/
theorem unmarshalOrdered_marshal (floats : FloatsInverse formatFloat parseFloat) {eol indent colonSpace : Bytes}
    (heol : Blank eol) (hindent : Blank indent) (hcolon : Blank colonSpace) {entries : OrderedMap F}
    (valid : (Json.object entries).Valid) (ordinary : ∀ k ∈ (Json.object entries).keys, Ordinary k) :
    unmarshalOrdered parseFloat behind (marshal formatFloat eol indent [] colonSpace (.object entries)) .object =
      .ok (.object entries) := by
  have der := marshal_derives floats heol hindent blank_nil hcolon (.object entries) valid ordinary (r := []) nofun
  rw [List.append_nil] at der
  exact unmarshalOrdered_object_iff.2 (readAsMap_of_derives der)

/-- A tree that is read back has no key that needs an escape. -/
theorem ordinary_of_unmarshalOrdered (floats : FloatsInverse formatFloat parseFloat) {entries : OrderedMap F}
    (valid : (Json.object entries).Valid)
    (same : unmarshalOrdered parseFloat behind (marshalOrdered formatFloat (.object entries)) .object = .ok (.object entries)) :
    ∀ k ∈ (Json.object entries).keys, Ordinary k := by
  have written := marshal_written floats (.object entries) valid (fun _ => id) (T := [])
    (fun ws r _ h => by cases ws <;> cases h) .nil
  rw [List.append_nil] at written
  obtain ⟨b', r, es, start, members, made⟩ := unmarshalOrdered_object_iff.1 same
  have suffix : ∃ u, marshalOrdered formatFloat (.object entries) = u ++ b' := by
    rcases start with tok | tok
    · exact tok.suffix
    · exact tok.suffix
  refine ordinary_of_quoted written fun k hk => ?_
  obtain ⟨u, text⟩ := suffix
  have read : k ∈ entriesKeys es := keys_ofEntries_subset (made ▸ hk)
  show QuotedKey k (marshalOrdered formatFloat (.object entries))
  rw [text]
  exact (members.quoted.2 k read).behind u

/-- Both writers are undone by the reader exactly where no key, at any depth, has a quote or a backslash. -/
theorem marshalOrdered_inverse_iff (floats : FloatsInverse formatFloat parseFloat) {linePrefix indent : Bytes}
    (hline : Blank linePrefix) (hindent : Blank indent) {entries : OrderedMap F} (valid : (Json.object entries).Valid) :
    (unmarshalOrdered parseFloat behind (marshalOrdered formatFloat (.object entries)) .object = .ok (.object entries) ∧
      unmarshalOrdered parseFloat behind (marshalOrderedIndent formatFloat (.object entries) linePrefix indent) .object =
        .ok (.object entries)) ↔
      ∀ k ∈ (Json.object entries).keys, Ordinary k := by
  constructor
  · intro ⟨same, _⟩
    exact ordinary_of_unmarshalOrdered floats valid same
  · intro ordinary
    have heol : Blank (ch '\n' :: linePrefix) := by
      intro c hc
      rcases List.mem_cons.1 hc with rfl | hc
      · decide +kernel
      · exact hline c hc
    exact ⟨unmarshalOrdered_marshal floats blank_nil blank_nil blank_nil valid ordinary,
      unmarshalOrdered_marshal floats heol hindent (by unfold Blank; decide +kernel) valid ordinary⟩

/-- A format for the number zero. -/
def zeroFormat (_ : Unit) : Bytes := word "0"

def zeroParse (w : Bytes) : Option Unit := if w = word "0" then some () else none

theorem zeroFormat_inverse : FloatsInverse zeroFormat zeroParse where
  nonempty _ := show word "0" ≠ [] by decide +kernel
  spelled _ := show ∀ c ∈ word "0", isNumber c = true by decide +kernel
  parse_format _ := rfl

/-- Objects and lists in each other. -/
def zeroTree : OrderedMap Unit :=
  [(word "a", .object [(word "b", .array [.number (), .object [(word "c", .string (word "d"))], .null])]), (word "e", .bool true)]

theorem zeroTree_valid : (Json.object zeroTree).Valid := by
  have named : ∀ w ∈ [word "a", word "b", word "c", word "e"], w ≠ [] := by decide +kernel
  simp only [List.forall_mem_cons] at named
  obtain ⟨a, b, c, e, -⟩ := named
  refine ⟨by decide +kernel, ⟨a, by decide +kernel, ⟨b, trivial, ⟨by decide +kernel, ⟨c, ?_⟩, trivial⟩, trivial, trivial⟩, trivial⟩,
    ⟨e, trivial⟩, trivial⟩
  exact ⟨['d'], by decide +kernel⟩

theorem marshalOrdered_inverse_zero :
    unmarshalOrdered zeroParse [] (marshalOrdered zeroFormat (.object zeroTree)) .object = .ok (.object zeroTree) ∧
      unmarshalOrdered zeroParse [] (marshalOrderedIndent zeroFormat (.object zeroTree) [] (word "  ")) .object =
        .ok (.object zeroTree) := by
  have ordinary : ∀ k ∈ (Json.object zeroTree).keys, Ordinary k := by
    unfold Ordinary
    decide +kernel
  exact (marshalOrdered_inverse_iff zeroFormat_inverse blank_nil (by unfold Blank; decide +kernel) zeroTree_valid).2 ordinary

/-- A key with a quote is cut short. -/
theorem marshalOrdered_not_inverse :
    unmarshalOrdered zeroParse [] (marshalOrdered zeroFormat (.object [(word "a\"b", .null)])) .object =
      failed "Failed to parse colon: " [] :=
  eq_failed_of_halt (by decide +kernel)

end

end Rocketcycle.Jsonutils
