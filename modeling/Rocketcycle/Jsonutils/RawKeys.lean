import Rocketcycle.Jsonutils.RoundTrip

/-!
# Keys that need an escape

Keys are written as they are. Where one has a quote or a backslash, the text does not give the tree
back: a key that is read has its escapes from inside of a key that is written, where they are further
from the beginning, so that no last one could be.
-/

namespace Rocketcycle.Jsonutils

/-! ## The bytes of a string -/

/-- A byte that needs an escape. -/
def Special (c : UInt8) : Prop := c = ch '"' ∨ c = ch '\\'

theorem unescape_special {e v : UInt8} (known : unescape e = some v) (special : Special v) : e = v := by
  unfold unescape at known
  by_cases quote : e = ch '"'
  · rw [if_pos quote] at known
    exact quote.trans (Option.some.inj known)
  by_cases backslash : e = ch '\\'
  · rw [if_neg quote, if_pos backslash] at known
    exact backslash.trans (Option.some.inj known)
  rw [if_neg quote, if_neg backslash] at known
  have others : ∀ v' ∈ [ch '/', 8, 12, ch '\n', ch '\r', ch '\t'], ¬Special v' := by
    unfold Special
    decide +kernel
  have member : v ∈ [ch '/', 8, 12, ch '\n', ch '\r', ch '\t'] := by
    repeat' split at known
    all_goals cases known
    all_goals decide
  exact absurd special (others v member)

/-- An escaped byte is further behind in the text than in what it stands for. -/
theorem Body.escaped {w s : Bytes} (h : Body w s) {s0 s1 : Bytes} {c : UInt8} (here : s = s0 ++ c :: s1) (special : Special c) :
    ∃ w0 w1, w = w0 ++ ch '\\' :: c :: w1 ∧ s0.length ≤ w0.length := by
  induction h generalizing s0 with
  | nil =>
    cases s0 with
    | nil => cases here
    | cons => cases here
  | byte quote backslash _ ih =>
    cases s0 with
    | nil =>
      obtain ⟨rfl, -⟩ := List.cons.inj here
      rcases special with h | h
      · exact absurd h quote
      · exact absurd h backslash
    | cons c' s0 =>
      obtain ⟨rfl, rest⟩ := List.cons.inj here
      obtain ⟨w0, w1, rfl, shorter⟩ := ih rest
      exact ⟨_ :: w0, w1, rfl, Nat.succ_le_succ shorter⟩
  | @escape e v w s known _ ih =>
    cases s0 with
    | nil =>
      obtain ⟨rfl, -⟩ := List.cons.inj here
      rw [unescape_special known special]
      exact ⟨[], w, rfl, Nat.le_refl _⟩
    | cons c' s0 =>
      obtain ⟨rfl, rest⟩ := List.cons.inj here
      obtain ⟨w0, w1, rfl, shorter⟩ := ih rest
      exact ⟨ch '\\' :: e :: w0, w1, rfl, Nat.succ_le_succ (Nat.le_succ_of_le shorter)⟩
  | unknown _ _ _ ih =>
    obtain ⟨w0, w1, heq, shorter⟩ := ih here
    exact ⟨ch '\\' :: w0, w1, congrArg (ch '\\' :: ·) heq, Nat.le_succ_of_le shorter⟩

/-- A quote in the text of a string ends an escape. -/
theorem Body.behind_quote {w s : Bytes} (h : Body w s) {w0 w1 : Bytes} (here : w = w0 ++ ch '"' :: w1) : ∃ s1, Body w1 s1 := by
  induction h generalizing w0 with
  | nil =>
    cases w0 with
    | nil => cases here
    | cons => cases here
  | byte quote backslash _ ih =>
    cases w0 with
    | nil => exact absurd (List.cons.inj here).1 quote
    | cons c' w0 => exact ih (List.cons.inj here).2
  | @escape e v w s known rest ih =>
    cases w0 with
    | nil => exact absurd (List.cons.inj here).1 (by decide)
    | cons c' w0 =>
      cases w0 with
      | nil =>
        obtain ⟨-, here⟩ := List.cons.inj here
        obtain ⟨-, rfl⟩ := List.cons.inj here
        exact ⟨s, rest⟩
      | cons c'' w0 => exact ih (List.cons.inj (List.cons.inj here).2).2
  | unknown _ _ _ ih =>
    cases w0 with
    | nil => exact absurd (List.cons.inj here).1 (by decide)
    | cons c' w0 => exact ih (List.cons.inj here).2

theorem not_body_quote {w s : Bytes} : ¬Body (ch '"' :: w) s := by
  intro h
  generalize text : ch '"' :: w = w' at h
  cases h with
  | nil => cases text
  | byte quote _ _ => exact quote (List.cons.inj text).1.symm
  | escape | unknown => exact absurd (List.cons.inj text).1 (by decide)

/-- The first quote that is not escaped ends a string. -/
theorem Body.unique {w w' s s' r r' : Bytes} (h : Body w s) (h' : Body w' s') (same : w ++ ch '"' :: r = w' ++ ch '"' :: r') :
    w = w' ∧ r = r' := by
  have read := readString_of_body (F := Unit) h [] r
  rw [same, readString_of_body h' [] r'] at read
  cases read
  exact ⟨List.append_cancel_right same, rfl⟩

/-! ## The text of a tree -/

/-- No colon is next. -/
def NoColon (T : Bytes) : Prop := ∀ ws r, Blank ws → T ≠ ws ++ ch ':' :: r

/-- The texts that are made of bytes other than a quote and a backslash, of keys with their colon, and of
encoded strings that no colon follows. -/
inductive Written (K : List Bytes) : Bytes → Prop where
  | nil : Written K []
  | byte {b : UInt8} {T : Bytes} (quote : b ≠ ch '"') (backslash : b ≠ ch '\\') (rest : Written K T) : Written K (b :: T)
  | key {k T : Bytes} (mem : k ∈ K) (rest : Written K T) : Written K (ch '"' :: (k ++ ch '"' :: ch ':' :: T))
  | string {cs : List Char} {T : Bytes} (noColon : NoColon T) (rest : Written K T) :
      Written K (ch '"' :: (cs.flatMap encodeRune ++ ch '"' :: T))

/-- A string that begins in front of a key or of an encoded string ends at its quote. -/
theorem Written.no_backslash {K : List Bytes} {T : Bytes} (h : Written K T) {w s r : Bytes} (here : T = w ++ ch '"' :: r)
    (body : Body w s) : ch '\\' ∉ w := by
  induction h generalizing w s with
  | nil =>
    cases w with
    | nil => cases here
    | cons => cases here
  | @byte b T _ backslash _ ih =>
    cases w with
    | nil => exact List.not_mem_nil
    | cons b' w =>
      obtain ⟨rfl, tail⟩ := List.cons.inj here
      cases body with
      | byte _ _ rest => simpa [Ne.symm backslash] using ih tail rest
      | escape => exact absurd rfl backslash
      | unknown => exact absurd rfl backslash
  | key | string =>
    cases w with
    | nil => exact List.not_mem_nil
    | cons b' w =>
      obtain ⟨rfl, -⟩ := List.cons.inj here
      exact absurd body not_body_quote

/-- How far an escaped byte is from the beginning, a backslash further than a quote. -/
def weight (front : Bytes) (c : UInt8) : Nat := 2 * front.length + if c = ch '\\' then 1 else 0

/-- In one of the keys there is a byte that needs an escape, with more than `n` in weight. -/
def Heavier (K : List Bytes) (n : Nat) : Prop := ∃ front c back, front ++ c :: back ∈ K ∧ Special c ∧ n < weight front c

/-- A key that is read from behind the first bytes of a written key. -/
theorem heavier_of_key {K : List Bytes} {a y T w s0 s1 r : Bytes} {c : UInt8} (mem : a ++ y ∈ K) (rest : Written K T)
    (here : y ++ ch '"' :: ch ':' :: T = w ++ ch '"' :: r) (body : Body w (s0 ++ c :: s1)) (special : Special c) :
    Heavier K (weight s0 c) := by
  obtain ⟨w0, w1, rfl, shorter⟩ := body.escaped rfl special
  have light : weight s0 c ≤ 2 * s0.length + 1 := by
    unfold weight
    split <;> omega
  -- the whole escape is in the written key
  have inside (z : Bytes) (hy : y = w0 ++ ch '\\' :: c :: z) : Heavier K (weight s0 c) := by
    refine ⟨a ++ (w0 ++ [ch '\\']), c, z, ?_, special, ?_⟩
    · rw [hy] at mem
      simpa using mem
    · have front : 2 * (a ++ (w0 ++ [ch '\\'])).length ≤ weight (a ++ (w0 ++ [ch '\\'])) c := Nat.le_add_right _ _
      simp only [List.length_append, List.length_cons, List.length_nil] at front
      omega
  rcases List.append_eq_append_iff.1 here with ⟨z, hw, hz⟩ | ⟨z, hy, hz⟩
  · cases z with
    | nil =>
      rw [List.append_nil] at hw
      exact inside w1 hw.symm
    | cons b z =>
      obtain ⟨rfl, tail⟩ := List.cons.inj hz
      -- what is read goes on behind the written key, and there is no escape any more
      obtain ⟨s2, behind⟩ := body.behind_quote hw
      have colon : Written K (ch ':' :: T) := .byte (by decide) (by decide) rest
      have none := colon.no_backslash tail behind
      rcases List.append_eq_append_iff.1 hw with ⟨z', hy, hz'⟩ | ⟨z', hw0, hz'⟩
      · match z' with
        | [] => exact absurd (List.cons.inj hz').1 (by decide)
        | [b'] =>
          -- the last byte of the key escapes the quote behind it
          obtain ⟨hb, escaped⟩ := List.cons.inj hz'
          obtain ⟨hc, -⟩ := List.cons.inj escaped
          refine ⟨a ++ w0, ch '\\', [], ?_, .inr rfl, ?_⟩
          · rw [hy, ← hb] at mem
            simpa using mem
          · have front : weight (a ++ w0) (ch '\\') = 2 * (a ++ w0).length + 1 := rfl
            have quote : weight s0 (ch '"') = 2 * s0.length := rfl
            rw [List.length_append] at front
            rw [hc]
            omega
        | b' :: b'' :: z' =>
          obtain ⟨hb, escaped⟩ := List.cons.inj hz'
          obtain ⟨hc, -⟩ := List.cons.inj escaped
          exact inside z' (by rw [hy, hb, hc])
      · match z' with
        | [] => exact absurd (List.cons.inj hz').1 (by decide)
        | b' :: z' =>
          have escape : z = z' ++ ch '\\' :: c :: w1 := (List.cons.inj hz').2
          exact absurd (escape ▸ List.mem_append_right _ List.mem_cons_self) none
  · exact inside (w1 ++ z) (by rw [hy]; simp)

/-- A text in quotes with a colon behind it. -/
def QuotedKey (k T : Bytes) : Prop :=
  ∃ front w ws r, T = front ++ ch '"' :: (w ++ ch '"' :: (ws ++ ch ':' :: r)) ∧ Body w k ∧ Blank ws

theorem QuotedKey.behind {k T : Bytes} (u : Bytes) (h : QuotedKey k T) : QuotedKey k (u ++ T) := by
  obtain ⟨front, w, ws, r, rfl, body, blank⟩ := h
  exact ⟨u ++ front, w, ws, r, (List.append_assoc u front _).symm, body, blank⟩

/-- A key is not read from the text of a string. -/
theorem not_in_string {y T w s s' ws r : Bytes} (noColon : NoColon T) (inner : Body y s') (blank : Blank ws)
    (here : y ++ ch '"' :: T = w ++ ch '"' :: (ws ++ ch ':' :: r)) (body : Body w s) : False :=
  noColon ws r blank (inner.unique body here).2

/-- What needs an escape in a key that is read is in some key that is written, further from its beginning. -/
theorem Written.heavier {K : List Bytes} {T s0 s1 : Bytes} {c : UInt8} (h : Written K T)
    (quoted : QuotedKey (s0 ++ c :: s1) T) (special : Special c) : Heavier K (weight s0 c) := by
  obtain ⟨front, w, ws, r, here, body, blank⟩ := quoted
  have escapes (none : ch '\\' ∉ w) : Heavier K (weight s0 c) := by
    obtain ⟨w0, w1, rfl, -⟩ := body.escaped rfl special
    exact absurd (List.mem_append_right _ List.mem_cons_self) none
  induction h generalizing front with
  | nil =>
    cases front with
    | nil => cases here
    | cons => cases here
  | byte quote _ _ ih =>
    cases front with
    | nil => exact absurd (List.cons.inj here).1 quote
    | cons b front => exact ih front (List.cons.inj here).2
  | @key k T mem rest ih =>
    have colon : Written K (ch ':' :: T) := .byte (by decide) (by decide) rest
    cases front with
    | nil => exact heavier_of_key (a := []) mem rest (List.cons.inj here).2 body special
    | cons b front =>
      obtain ⟨-, here⟩ := List.cons.inj here
      rcases List.append_eq_append_iff.1 here with ⟨z, -, hz⟩ | ⟨z, hk, hz⟩
      · match z with
        | [] => exact escapes (colon.no_backslash (List.cons.inj hz).2 body)
        | [b'] => exact absurd (List.cons.inj (List.cons.inj hz).2).1 (by decide)
        | b' :: b'' :: z => exact ih z (List.cons.inj (List.cons.inj hz).2).2
      · match z with
        | [] => exact escapes (colon.no_backslash (List.cons.inj hz).2.symm body)
        | b' :: z =>
          obtain ⟨hb, tail⟩ := List.cons.inj hz
          rw [hk, ← hb, List.append_cons] at mem
          exact heavier_of_key mem rest tail.symm body special
  | @string cs T noColon rest ih =>
    cases front with
    | nil => exact (not_in_string noColon (encodeRunes_body cs) blank (List.cons.inj here).2 body).elim
    | cons b front =>
      obtain ⟨-, here⟩ := List.cons.inj here
      rcases List.append_eq_append_iff.1 here with ⟨z, -, hz⟩ | ⟨z, hcs, hz⟩
      · match z with
        | [] => exact escapes (rest.no_backslash (List.cons.inj hz).2 body)
        | b' :: z => exact ih z (List.cons.inj hz).2
      · match z with
        | [] => exact escapes (rest.no_backslash (List.cons.inj hz).2.symm body)
        | b' :: z =>
          obtain ⟨hb, tail⟩ := List.cons.inj hz
          obtain ⟨s', inner⟩ := (encodeRunes_body cs).behind_quote (hb ▸ hcs)
          exact (not_in_string noColon inner blank tail.symm body).elim

/-- Where all keys are read from the text they are written to, none needs an escape. -/
theorem ordinary_of_quoted {K : List Bytes} {T : Bytes} (h : Written K T) (quoted : ∀ k ∈ K, QuotedKey k T) :
    ∀ k ∈ K, Ordinary k := by
  have heavier {front back : Bytes} {c : UInt8} (mem : front ++ c :: back ∈ K) (special : Special c) : ∀ n, Heavier K n := by
    intro n
    induction n with
    | zero =>
      obtain ⟨front', c', back', mem', special', heavy⟩ := h.heavier (quoted _ mem) special
      exact ⟨front', c', back', mem', special', Nat.zero_lt_of_lt heavy⟩
    | succ n ih =>
      obtain ⟨front', c', back', mem', special', heavy⟩ := ih
      obtain ⟨front'', c'', back'', mem'', special'', heavier⟩ := h.heavier (quoted _ mem') special'
      exact ⟨front'', c'', back'', mem'', special'', by omega⟩
  have none {front back : Bytes} {c : UInt8} (mem : front ++ c :: back ∈ K) : ¬Special c := by
    intro special
    obtain ⟨front', c', back', mem', -, heavy⟩ := heavier mem special (2 * K.flatten.length)
    have short := (List.sublist_flatten_of_mem mem').length_le
    have light : weight front' c' ≤ 2 * front'.length + 1 := by
      unfold weight
      split <;> omega
    rw [List.length_append, List.length_cons] at short
    omega
  intro k hk b hb
  obtain ⟨front, back, rfl⟩ := List.append_of_mem hb
  exact ⟨fun quote => none hk (.inl quote), fun backslash => none hk (.inr backslash)⟩

end Rocketcycle.Jsonutils
