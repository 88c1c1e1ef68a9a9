import Rocketcycle.Lib.Wire

/-!
# Records of every wire type

A protobuf message on the wire: records of a field number, a wire type and a value. What the first
record is can be read off the first bytes.
-/

namespace Rocketcycle.Wire

/-- A value as it is written: a number in base 128, eight or four bytes, a counted byte string, or the
body of a group. -/
inductive Value where
  | varint (n : Nat)
  | i64 (b : Octets) (size : b.length = 8)
  | len (b : Octets)
  | group (body : Octets)
  | i32 (b : Octets) (size : b.length = 4)
  deriving DecidableEq

def Value.wireType : Value → Nat
  | varint _ => 0
  | i64 _ _ => 1
  | len _ => 2
  | group _ => 3
  | i32 _ _ => 5

/-- The bytes after the tag; a group ends in a tag of its own. -/
def Value.put (number : Nat) : Value → Octets
  | varint n => uvarint n
  | i64 b _ => b
  | len b => uvarint b.length ++ b
  | group body => body ++ uvarint (number * 8 + 4)
  | i32 b _ => b

def putRecord (record : Nat × Value) : Octets :=
  uvarint (record.1 * 8 + record.2.wireType) ++ record.2.put record.1

def putRecords (records : List (Nat × Value)) : Octets := records.flatMap putRecord

theorem putRecords_cons (record : Nat × Value) (records : List (Nat × Value)) :
    putRecords (record :: records) =
      uvarint (record.1 * 8 + record.2.wireType) ++ (record.2.put record.1 ++ putRecords records) := by
  unfold putRecords putRecord
  rw [List.flatMap_cons, List.append_assoc]

theorem Value.wireType_le (v : Value) : v.wireType ≤ 5 := by
  cases v <;> simp [wireType]

/-- A small number in front of other bytes is its first byte. -/
theorem uvarint_append_eq {n : Nat} {b : UInt8} {front rest : Octets} (small : b.toNat < 128)
    (h : uvarint n ++ rest = b :: front) : n = b.toNat ∧ rest = front := by
  have read := readUvarint_uvarint n rest
  rw [h] at read
  unfold readUvarint at read
  rw [if_pos small] at read
  obtain ⟨rfl, rfl⟩ := Prod.mk.inj (Option.some.inj read)
  exact ⟨rfl, rfl⟩

theorem uvarint_small {n : Nat} (small : n < 128) : uvarint n = [UInt8.ofNat n] := by
  unfold uvarint
  cases n with
  | zero => rfl
  | succ n =>
    unfold putUvarint
    rw [if_pos small]

end Rocketcycle.Wire
