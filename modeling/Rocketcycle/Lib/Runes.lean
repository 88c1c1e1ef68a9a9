import Rocketcycle.Lib.Utf8

/-!
# The characters of a text in UTF-8

The bytes of a character, and the characters that a loop over the bytes of a text sees: where the
bytes are no encoding, one byte is taken as the replacement character.
-/

namespace Rocketcycle.Utf8

/-- A character of the ASCII code is one byte, and no byte of another is in that code. -/
theorem utf8EncodeChar_cases (c : Char) : (c.toNat < 128 ∧ String.utf8EncodeChar c = [UInt8.ofNat c.toNat]) ∨
    (128 ≤ c.toNat ∧ ∀ b ∈ String.utf8EncodeChar c, 128 ≤ b.toNat) := by
  unfold String.utf8EncodeChar
  dsimp only
  have size : c.val.toNat = c.toNat := rfl
  rw [size]
  split
  · exact .inl ⟨by omega, rfl⟩
  split
  · refine .inr ⟨by omega, ?_⟩
    intro b hb
    simp only [List.mem_cons, List.not_mem_nil, or_false] at hb
    rcases hb with rfl | rfl
    all_goals
      rw [UInt8.toNat_ofNat']
      omega
  split
  · refine .inr ⟨by omega, ?_⟩
    intro b hb
    simp only [List.mem_cons, List.not_mem_nil, or_false] at hb
    rcases hb with rfl | rfl | rfl
    all_goals
      rw [UInt8.toNat_ofNat']
      omega
  · refine .inr ⟨by omega, ?_⟩
    intro b hb
    simp only [List.mem_cons, List.not_mem_nil, or_false] at hb
    rcases hb with rfl | rfl | rfl | rfl
    all_goals
      rw [UInt8.toNat_ofNat']
      omega

/-- The encoding of a text. -/
def encode (cs : List Char) : List UInt8 := cs.flatMap String.utf8EncodeChar

@[simp] theorem encode_nil : encode [] = [] := rfl

@[simp] theorem encode_cons (c : Char) (cs : List Char) : encode (c :: cs) = String.utf8EncodeChar c ++ encode cs := rfl

/-- The first character, and how many bytes it takes. -/
def decodeRune (b : List UInt8) : Char × Nat :=
  match b.toByteArray.utf8DecodeChar? 0 with
  | some c => (c, c.utf8Size)
  | none => ('\uFFFD', 1)

def runesIn : Nat → List UInt8 → List Char
  | 0, _ => []
  | _ + 1, [] => []
  | n + 1, b :: rest =>
    let (c, size) := decodeRune (b :: rest)
    c :: runesIn n ((b :: rest).drop size)

/-- The characters of a text. -/
def runes (b : List UInt8) : List Char := runesIn b.length b

theorem decodeRune_utf8EncodeChar_append (c : Char) (b : List UInt8) :
    decodeRune (String.utf8EncodeChar c ++ b) = (c, c.utf8Size) := by
  unfold decodeRune
  rw [List.toByteArray_append, ByteArray.utf8DecodeChar?_utf8EncodeChar_append]

theorem runesIn_encode (cs : List Char) {n : Nat} (enough : (encode cs).length ≤ n) : runesIn n (encode cs) = cs := by
  induction cs generalizing n with
  | nil =>
    cases n with
    | zero => rfl
    | succ n => rfl
  | cons c cs ih =>
    have size : (String.utf8EncodeChar c).length = c.utf8Size := String.length_utf8EncodeChar c
    have positive := Char.utf8Size_pos c
    rw [encode_cons, List.length_append] at enough
    cases n with
    | zero => omega
    | succ n =>
      have step : runesIn (n + 1) (encode (c :: cs)) = c :: runesIn n ((encode (c :: cs)).drop c.utf8Size) := by
        have decoded := decodeRune_utf8EncodeChar_append c (encode cs)
        rw [encode_cons]
        generalize h : String.utf8EncodeChar c ++ encode cs = b at decoded
        cases b with
        | nil =>
          have empty := congrArg List.length h
          rw [List.length_append, List.length_nil] at empty
          omega
        | cons b rest =>
          show (decodeRune (b :: rest)).1 :: runesIn n ((b :: rest).drop (decodeRune (b :: rest)).2) = _
          rw [decoded]
      rw [step, encode_cons, ← size, List.drop_left, ih (by omega)]

/-- An encoded text is seen as it is. -/
theorem runes_encode (cs : List Char) : runes (encode cs) = cs := runesIn_encode cs (Nat.le_refl _)

theorem validateUTF8_iff {b : List UInt8} : (ByteArray.mk b.toArray).validateUTF8 = true ↔ ∃ cs, b = encode cs := by
  rw [ByteArray.validateUTF8_eq_true_iff]
  constructor
  · rintro ⟨cs, same⟩
    refine ⟨cs, ?_⟩
    have bytes := congrArg (fun a : ByteArray => a.data.toList) same
    simpa [List.utf8Encode, encode] using bytes
  · rintro ⟨cs, rfl⟩
    refine ⟨cs, ?_⟩
    apply ByteArray.ext
    simp [List.utf8Encode, encode]

/-- Nothing is replaced exactly in valid texts. -/
theorem encode_runes_iff {b : List UInt8} : encode (runes b) = b ↔ (ByteArray.mk b.toArray).validateUTF8 = true := by
  rw [validateUTF8_iff]
  constructor
  · intro same
    exact ⟨runes b, same.symm⟩
  · rintro ⟨cs, rfl⟩
    rw [runes_encode]

end Rocketcycle.Utf8
