import Mathlib.Tactic.Common

/-!
# Numbers in base 128

The form in which the wire format of protobuf has its tags, lengths and numbers: base 128 with the low
digits first, the last digit being the one below 128. What is written is read back, with any bytes
behind it.
-/

namespace Rocketcycle.Wire

abbrev Octets := List UInt8

/-- The base 128 form of a number; `fuel` bounds the digits. -/
def putUvarint : Nat → Nat → Octets
  | 0, n => [UInt8.ofNat n]
  | fuel + 1, n => if n < 128 then [UInt8.ofNat n] else UInt8.ofNat (n % 128 + 128) :: putUvarint fuel (n / 128)

def uvarint (n : Nat) : Octets := putUvarint n n

/-- A number in front of other bytes. -/
def readUvarint : Octets → Option (Nat × Octets)
  | [] => none
  | b :: bs =>
    if b.toNat < 128 then some (b.toNat, bs)
    else
      match readUvarint bs with
      | none => none
      | some (n, rest) => some (n * 128 + (b.toNat - 128), rest)

theorem readUvarint_put {fuel n : Nat} (enough : n ≤ fuel) (rest : Octets) :
    readUvarint (putUvarint fuel n ++ rest) = some (n, rest) := by
  induction fuel generalizing n with
  | zero =>
    obtain rfl : n = 0 := by omega
    rfl
  | succ fuel ih =>
    unfold putUvarint
    split
    · rename_i small
      have digit : (UInt8.ofNat n).toNat = n := by
        rw [UInt8.toNat_ofNat']
        omega
      show readUvarint (UInt8.ofNat n :: rest) = _
      unfold readUvarint
      rw [digit, if_pos small]
    · rename_i large
      have digit : (UInt8.ofNat (n % 128 + 128)).toNat = n % 128 + 128 := by
        rw [UInt8.toNat_ofNat']
        omega
      have tail : readUvarint (putUvarint fuel (n / 128) ++ rest) = some (n / 128, rest) := ih (by omega)
      show readUvarint (UInt8.ofNat (n % 128 + 128) :: (putUvarint fuel (n / 128) ++ rest)) = _
      unfold readUvarint
      rw [digit, if_neg (by omega), tail]
      show some (n / 128 * 128 + (n % 128 + 128 - 128), rest) = some (n, rest)
      have : n / 128 * 128 + (n % 128 + 128 - 128) = n := by omega
      rw [this]

/-- What is written is read back. -/
theorem readUvarint_uvarint (n : Nat) (rest : Octets) : readUvarint (uvarint n ++ rest) = some (n, rest) :=
  readUvarint_put (Nat.le_refl n) rest

theorem uvarint_ne_nil (n : Nat) : uvarint n ≠ [] := by
  unfold uvarint
  cases n with
  | zero => simp [putUvarint]
  | succ n =>
    unfold putUvarint
    split <;> simp

end Rocketcycle.Wire
