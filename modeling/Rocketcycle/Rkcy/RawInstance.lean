import Rocketcycle.Lib.WireRecords
import Rocketcycle.Rkcy.Payload

/-!
# Instances that look packed

A payload is packed if it begins with `rkcy`, and an instance is the wire encoding of a message. The
four letters are also the beginning of a record: `r` is the tag of field 14 with a counted value, `k`
is a count of 107, and `cy` are the first two bytes of the value.
-/

namespace Rocketcycle

open Wire

/-- The wire formats of the types a field may have. -/
inductive FieldKind where
  | varint
  | i64
  | len
  | group
  | i32
  deriving DecidableEq, Repr

def FieldKind.wireType : FieldKind → Nat
  | varint => 0
  | i64 => 1
  | len => 2
  | group => 3
  | i32 => 5

/-- A message type of a schema: the fields by their numbers. -/
structure ProtoMessageType where
  fields : List (Nat × FieldKind)
  positive : ∀ f ∈ fields, 0 < f.1
  distinct : (fields.map Prod.fst).Nodup

/-- A message: the records of the fields that are set, in the order in which they are written. -/
structure ProtoMessage (type : ProtoMessageType) where
  records : List (Nat × Value)
  typed : ∀ r ∈ records, ∃ kind, (r.1, kind) ∈ type.fields ∧ r.2.wireType = kind.wireType

variable {type type' : ProtoMessageType}

def ProtoMessage.encode (m : ProtoMessage type) : Bytes := putRecords m.records

/-- The first record of the message is 107 bytes long, begins with `cy` and belongs to field 14. -/
def ProtoMessage.Mimics (m : ProtoMessage type) : Prop :=
  ∃ content rest, m.records = (14, .len content) :: rest ∧ content.length = 107 ∧ content.take 2 = [0x63, 0x79]

theorem isPackedPayload_some {b : Bytes} : isPackedPayload (some b) = true ↔ 4 < b.length ∧ b.take 4 = packedMagic := by
  simp [isPackedPayload]

/-- Exactly these messages are taken for packed payloads. -/
theorem ProtoMessage.packed_iff (m : ProtoMessage type) : isPackedPayload (some m.encode) = true ↔ m.Mimics := by
  rw [isPackedPayload_some]
  unfold ProtoMessage.encode
  constructor
  · rintro ⟨-, magic⟩
    obtain ⟨tail, split⟩ : ∃ tail, putRecords m.records = 0x72 :: 0x6b :: 0x63 :: 0x79 :: tail := by
      refine ⟨(putRecords m.records).drop 4, ?_⟩
      have whole := List.take_append_drop 4 (putRecords m.records)
      rw [magic] at whole
      exact whole.symm
    cases hr : m.records with
    | nil =>
      rw [hr] at split
      cases split
    | cons record rest =>
      obtain ⟨number, value⟩ := record
      rw [hr, putRecords_cons] at split
      obtain ⟨tag, split⟩ := uvarint_append_eq (by decide) split
      have tag : number * 8 + value.wireType = 114 := tag
      have bound := value.wireType_le
      obtain rfl : number = 14 := by omega
      have counted : value.wireType = 2 := by omega
      cases value with
      | len content =>
        have split : uvarint content.length ++ content ++ putRecords rest = _ := split
        rw [List.append_assoc] at split
        obtain ⟨count, split⟩ := uvarint_append_eq (by decide) split
        have count : content.length = 107 := count
        refine ⟨content, rest, hr, count, ?_⟩
        have front : (content ++ putRecords rest).take 2 = content.take 2 := List.take_append_of_le_length (by omega)
        rw [← front, split]
        rfl
      | varint => cases counted
      | i64 => cases counted
      | group => cases counted
      | i32 => cases counted
  · rintro ⟨content, rest, records, count, front⟩
    obtain ⟨more, rfl⟩ : ∃ more, content = 0x63 :: 0x79 :: more := by
      refine ⟨content.drop 2, ?_⟩
      have whole := List.take_append_drop 2 content
      rw [front] at whole
      exact whole.symm
    have written : putRecords m.records = 0x72 :: 0x6b :: 0x63 :: 0x79 :: (more ++ putRecords rest) := by
      rw [records, putRecords_cons]
      show uvarint 114 ++ (uvarint (0x63 :: 0x79 :: more).length ++ 0x63 :: 0x79 :: more ++ putRecords rest) = _
      rw [count, uvarint_small (by decide), uvarint_small (by decide)]
      rfl
    rw [written]
    refine ⟨?_, rfl⟩
    have length : more.length = 105 := by simpa using count
    show 4 < (more ++ putRecords rest).length + 4
    rw [List.length_append, length]
    omega

/-- An instance is taken for what it is, and packed with its related data, exactly if neither of the
two messages begins like a packed payload. -/
theorem raw_instance_iff (m : ProtoMessage type) (related : Option (ProtoMessage type')) :
    (isPackedPayload (some m.encode) = false ∧ parsePayload (some m.encode) = .ok (some m.encode, none) ∧
        (packPayloads (some m.encode) (related.map ProtoMessage.encode)).isSome = true) ↔
      ¬m.Mimics ∧ ∀ rel, related = some rel → ¬rel.Mimics := by
  have relPacked : isPackedPayload (related.map ProtoMessage.encode) = false ↔ ∀ rel, related = some rel → ¬rel.Mimics := by
    cases related with
    | none => simp [isPackedPayload]
    | some rel =>
      rw [← Bool.not_eq_true]
      show ¬isPackedPayload (some rel.encode) = true ↔ _
      rw [rel.packed_iff]
      simp
  rw [← m.packed_iff, Bool.not_eq_true, ← relPacked]
  constructor
  · rintro ⟨raw, -, packs⟩
    obtain ⟨packed, h⟩ := Option.isSome_iff_exists.1 packs
    exact ⟨raw, (packPayloads_eq_some.1 h).2.1⟩
  · rintro ⟨raw, rawRel⟩
    refine ⟨raw, parsePayload_raw raw, ?_⟩
    rw [packPayloads_eq_some.2 ⟨raw, rawRel, rfl⟩]
    rfl

/-- A concern whose key, a string, is field 14. -/
def lateKey : ProtoMessageType where
  fields := [(14, .len)]
  positive := by decide
  distinct := by decide

/-- The instance with the key `cyxxx...` of 107 letters. -/
def cyInstance : ProtoMessage lateKey where
  records := [(14, .len (0x63 :: 0x79 :: List.replicate 105 0x78))]
  typed := by
    intro r hr
    rw [List.mem_singleton.1 hr]
    exact ⟨.len, List.mem_cons_self, rfl⟩

/-- It is taken for a packed payload, cannot be parsed, and packing it panics. -/
theorem raw_instance_mistaken :
    isPackedPayload (some cyInstance.encode) = true ∧
      (parsePayload (some cyInstance.encode)).toOption = none ∧ packPayloads (some cyInstance.encode) none = none := by
  decide +kernel

end Rocketcycle
