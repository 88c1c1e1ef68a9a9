import Rocketcycle.Jsonutils.RoundTrip

/-!
# String literals

`EncodeString` goes over the characters of a text and `nextToken` over the bytes of what it has written.
A character is written as bytes that are read back together, whatever stands around it, so that the quote
which ends the literal is the first one that no backslash belongs to.
-/

namespace Rocketcycle.Jsonutils

variable {F : Type} {parseFloat : Bytes → Option F} {behind : Bytes}

/-- A literal in front of anything is read as the characters that `EncodeString` has seen. -/
theorem nextToken_literal (s rest : Bytes) :
    nextToken parseFloat behind (encodeString s ++ rest) = .ok (rest, some (.string (Utf8.encode (Utf8.runes s)))) := by
  have body := encodeRunes_body (Utf8.runes s)
  have literal : Tok (readerDialect parseFloat) (encodeString s ++ rest) (.string (Utf8.encode (Utf8.runes s))) rest := by
    unfold encodeString
    rw [List.cons_append, List.append_assoc]
    exact tok_of_lexeme (.string body)
  exact nextToken_of_tok behind literal

/-- The text comes back, and the bytes behind its literal are left, exactly for texts in UTF-8. -/
theorem nextToken_encodeString_iff (s rest : Bytes) :
    nextToken parseFloat behind (encodeString s ++ rest) = .ok (rest, some (.string s)) ↔
      (ByteArray.mk s.toArray).validateUTF8 = true := by
  rw [nextToken_literal, ← Utf8.encode_runes_iff]
  simp

/-- So a literal ends where it is said to end: no text begins with the literals of two texts. -/
theorem encodeString_append_inj {s s' rest rest' : Bytes} (valid : (ByteArray.mk s.toArray).validateUTF8 = true)
    (valid' : (ByteArray.mk s'.toArray).validateUTF8 = true) (same : encodeString s ++ rest = encodeString s' ++ rest') :
    s = s' ∧ rest = rest' := by
  have read : nextToken (fun _ => some ()) [] (encodeString s ++ rest) = _ := nextToken_literal s rest
  rw [same, nextToken_literal, Utf8.encode_runes_iff.2 valid, Utf8.encode_runes_iff.2 valid'] at read
  cases read
  exact ⟨rfl, rfl⟩

/-- A quote, a line break, a tab, a control character, a character of three bytes, and a backslash right
before the quote that ends the literal. -/
example : nextToken (fun _ : Bytes => some ()) [] (encodeString [34, 10, 9, 1, 0xe2, 0x82, 0xac, 92] ++ [34, 44]) =
    .ok ([34, 44], some (.string [34, 10, 9, 1, 0xe2, 0x82, 0xac, 92])) := by decide +kernel

end Rocketcycle.Jsonutils
