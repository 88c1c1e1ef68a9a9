import Mathlib.Tactic.Common

/-!
# Cutting UTF-8

The bytes of a text as a list, and where they may be cut: a prefix of the encoding is an encoding
itself exactly if the cut falls between two characters.
-/

namespace Rocketcycle.Utf8

/-- The bytes of a byte array, read one by one. -/
theorem toList_eq (b : ByteArray) : b.toList = b.data.toList := by
  have loop : ∀ n i r, b.size - i = n → ByteArray.toList.loop b i r = r.reverse ++ b.data.toList.drop i := by
    intro n
    induction n with
    | zero =>
      intro i r hi
      have size : b.size = b.data.toList.length := rfl
      rw [ByteArray.toList.loop, if_neg (by omega), List.drop_of_length_le (by omega), List.append_nil]
    | succ n ih =>
      intro i r hi
      have size : b.size = b.data.toList.length := rfl
      have inside : i < b.data.toList.length := by omega
      have here : b.get! i = b.data.toList[i] := by
        show b.data[i]! = _
        rw [getElem!_pos b.data i (by simpa using inside), Array.getElem_toList]
      rw [ByteArray.toList.loop, if_pos (by omega), ih _ _ (by omega), here, List.reverse_cons, List.append_assoc,
        List.singleton_append, List.getElem_cons_drop]
  exact loop _ 0 [] rfl

/-- The text has a boundary between characters after `n` bytes. -/
def BoundaryAt (s : String) (n : Nat) : Prop := ∃ front back : String, s = front ++ back ∧ front.utf8ByteSize = n

theorem boundaryAt_iff {s : String} {n : Nat} : BoundaryAt s n ↔ String.Pos.Raw.IsValid s ⟨n⟩ := by
  rw [String.Pos.Raw.isValid_iff_exists_append]
  constructor
  · rintro ⟨front, back, rfl, rfl⟩
    exact ⟨front, back, rfl, rfl⟩
  · rintro ⟨front, back, rfl, same⟩
    exact ⟨front, back, rfl, (String.Pos.Raw.ext_iff.1 same).symm⟩

theorem length_toList (s : String) : s.toUTF8.toList.length = s.utf8ByteSize := by
  rw [toList_eq]
  rfl

theorem extract_eq (b : ByteArray) (n : Nat) : b.extract 0 n = ⟨(b.data.toList.take n).toArray⟩ := by
  apply ByteArray.ext
  rw [ByteArray.data_extract, ← Array.toList_inj]
  simp

/-- A prefix of an encoding is an encoding exactly if it ends between two characters. -/
theorem validateUTF8_take_iff {s : String} {n : Nat} (inside : n ≤ s.utf8ByteSize) :
    (ByteArray.mk (s.toUTF8.toList.take n).toArray).validateUTF8 = true ↔ BoundaryAt s n := by
  have below : (⟨n⟩ : String.Pos.Raw) ≤ s.rawEndPos := inside
  have same : ByteArray.mk (s.toUTF8.toList.take n).toArray = s.toByteArray.extract 0 n := by
    rw [extract_eq, toList_eq]
    rfl
  rw [same, ByteArray.validateUTF8_eq_true_iff, boundaryAt_iff, String.Pos.Raw.isValid_iff_isValidUTF8_extract_zero]
  exact ⟨fun valid => ⟨below, valid⟩, fun h => h.2⟩

/-- The whole text ends at a boundary. -/
theorem boundaryAt_size (s : String) : BoundaryAt s s.utf8ByteSize := ⟨s, "", by simp, rfl⟩

end Rocketcycle.Utf8
