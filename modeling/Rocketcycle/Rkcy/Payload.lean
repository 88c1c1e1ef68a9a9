import Rocketcycle.Rkcypb

/-!
# Packed payloads

`pkg/rkcy/payload.go`: an instance and its related data in one byte string, `rkcy`, then the
little endian `uint32` offset of the related data, then the two parts.
-/

namespace Rocketcycle

/-- The four bytes of `rkcy`. -/
def packedMagic : Bytes := [0x72, 0x6b, 0x63, 0x79]

/-- `binary.LittleEndian.PutUint32`. -/
def putUint32 (n : Nat) : Bytes :=
  [UInt8.ofNat n, UInt8.ofNat (n / 256), UInt8.ofNat (n / 65536), UInt8.ofNat (n / 16777216)]

/-- `binary.LittleEndian.Uint32`. -/
def uint32 : Bytes → Nat
  | [a, b, c, d] => a.toNat + 256 * b.toNat + 65536 * c.toNat + 16777216 * d.toNat
  | _ => 0

def base64Alphabet : List Char :=
  "ABCDEFGHIJKLMNOPQRSTUVWXYZabcdefghijklmnopqrstuvwxyz0123456789+/".toList

def base64Char (n : Nat) : Char := base64Alphabet.getD (n % 64) 'A'

/-- `base64.StdEncoding.EncodeToString`. -/
def base64Encode : Bytes → List Char
  | [] => []
  | [a] => [base64Char (a.toNat / 4), base64Char (a.toNat * 16), '=', '=']
  | [a, b] =>
    [base64Char (a.toNat / 4), base64Char (a.toNat * 16 + b.toNat / 16),
      base64Char (b.toNat * 4), '=']
  | a :: b :: c :: rest =>
    base64Char (a.toNat / 4) :: base64Char (a.toNat * 16 + b.toNat / 16) ::
      base64Char (b.toNat * 4 + c.toNat / 64) :: base64Char c.toNat :: base64Encode rest

def encodeToString (b : Option Bytes) : String := String.ofList (base64Encode (b.getD []))

def isPackedPayload (payload : Option Bytes) : Bool :=
  match payload with
  | none => false
  | some b => b.length > 4 && b.take 4 = packedMagic

/-- Packs an instance and its related data; `none` is the panic on an operand that is
already packed. -/
def packPayloads (payload0 payload1 : Option Bytes) : Option Bytes :=
  if isPackedPayload payload0 || isPackedPayload payload1 then none
  else
    let offset := 8 + (payload0.getD []).length
    some (packedMagic ++ putUint32 offset ++ payload0.getD [] ++ payload1.getD [])

def unpackPayloads (packed : Option Bytes) : Except GoError (Option Bytes × Option Bytes) :=
  let b := packed.getD []
  if b.length < 8 then
    .error (.other s!"Not a packed payload, too small: {encodeToString packed}")
  else if b.take 4 ≠ packedMagic then
    .error (.other s!"Not a packed payload, missing rkcy: {encodeToString packed}")
  else
    let offset := uint32 ((b.drop 4).take 4)
    if offset < 8 ∨ offset > b.length % 2 ^ 32 then
      .error (.other s!"Not a packed payload, invalid offset {offset}: {encodeToString packed}")
    else
      let instBytes := (b.take offset).drop 8
      let relBytes := b.drop offset
      -- nils are returned where a slice has no data
      if instBytes.length = 0 then
        .error (.other s!"No instance contained in packed payload: {encodeToString packed}")
      else .ok (some instBytes, if relBytes.length = 0 then none else some relBytes)

/-- Takes a payload that may or may not be packed. -/
def parsePayload (payload : Option Bytes) : Except GoError (Option Bytes × Option Bytes) :=
  if isPackedPayload payload then unpackPayloads payload else .ok (payload, none)

theorem putUint32_length (n : Nat) : (putUint32 n).length = 4 := rfl

theorem uint32_putUint32 {n : Nat} (h : n < 2 ^ 32) : uint32 (putUint32 n) = n := by
  simp only [putUint32, uint32, UInt8.toNat_ofNat']
  omega

/-- The two operands of a pack that does not panic are not packed themselves. -/
theorem packPayloads_eq_some {p0 p1 : Option Bytes} {packed : Bytes} :
    packPayloads p0 p1 = some packed ↔
      isPackedPayload p0 = false ∧ isPackedPayload p1 = false ∧
        packed = packedMagic ++ putUint32 (8 + (p0.getD []).length) ++ p0.getD [] ++ p1.getD [] := by
  simp only [packPayloads]
  split
  · rename_i h
    constructor
    · intro e; cases e
    · rintro ⟨h0, h1, -⟩; simp [h0, h1] at h
  · rename_i h
    simp only [Bool.or_eq_true, not_or, Bool.not_eq_true] at h
    simp [h.1, h.2, eq_comm]

theorem packPayloads_packed {p0 p1 : Option Bytes} {packed : Bytes} (h : packPayloads p0 p1 = some packed) :
    isPackedPayload (some packed) = true := by
  obtain ⟨-, -, rfl⟩ := packPayloads_eq_some.1 h
  simp [isPackedPayload, packedMagic, putUint32]

theorem packPayloads_ne_nil {p0 p1 : Option Bytes} {packed : Bytes} (h : packPayloads p0 p1 = some packed) :
    packed ≠ [] := by
  rintro rfl
  cases packPayloads_packed h

section
variable {p inst rel : Bytes}

theorem packed_header (hp : p.length = 4) : (packedMagic ++ p ++ inst).length = 8 + inst.length := by
  simp [packedMagic, hp]; omega

theorem packed_instance (hp : p.length = 4) :
    ((packedMagic ++ p ++ inst ++ rel).take (8 + inst.length)).drop 8 = inst := by
  have h8 : (packedMagic ++ p).length = 8 := by simp [packedMagic, hp]
  rw [← packed_header hp, List.take_left, ← h8, List.drop_left]

theorem packed_related (hp : p.length = 4) :
    (packedMagic ++ p ++ inst ++ rel).drop (8 + inst.length) = rel := by
  rw [← packed_header hp, List.drop_left]

end

/-- Unpacking what was packed gives back the instance and, unless it is empty, the related
data. -/
theorem unpackPayloads_packPayloads {inst : Bytes} {rel : Option Bytes} {packed : Bytes}
    (h : packPayloads (some inst) rel = some packed) (ne : inst ≠ [])
    (size : packed.length < 2 ^ 32) :
    unpackPayloads (some packed) = .ok (some inst, wireBytes rel) := by
  obtain ⟨-, -, rfl⟩ := packPayloads_eq_some.1 h
  simp only [Option.getD_some] at size ⊢
  have len : 0 < inst.length := List.length_pos_iff.2 ne
  have total : (packedMagic ++ putUint32 (8 + inst.length) ++ inst ++ rel.getD []).length =
      8 + inst.length + (rel.getD []).length := by
    rw [List.length_append, packed_header (putUint32_length _)]
  have off : uint32 (putUint32 (8 + inst.length)) = 8 + inst.length :=
    uint32_putUint32 (by omega)
  have magic : (packedMagic ++ putUint32 (8 + inst.length) ++ inst ++ rel.getD []).take 4 = packedMagic := by
    simp [packedMagic]
  have field : ((packedMagic ++ putUint32 (8 + inst.length) ++ inst ++ rel.getD []).drop 4).take 4 =
      putUint32 (8 + inst.length) := by
    simp [packedMagic, putUint32]
  simp only [unpackPayloads, Option.getD_some, field, off, magic, packed_instance (putUint32_length _),
    packed_related (putUint32_length _)]
  rw [total] at size ⊢
  rw [if_neg (by omega), if_neg (by simp), Nat.mod_eq_of_lt size, if_neg (by omega),
    if_neg (by omega)]
  rcases rel with _ | _ | _ <;> simp [wireBytes]

theorem parsePayload_packPayloads {inst : Bytes} {rel : Option Bytes} {packed : Bytes}
    (h : packPayloads (some inst) rel = some packed) (ne : inst ≠ [])
    (size : packed.length < 2 ^ 32) :
    parsePayload (some packed) = .ok (some inst, wireBytes rel) := by
  rw [parsePayload, if_pos (packPayloads_packed h), unpackPayloads_packPayloads h ne size]

theorem parsePayload_raw {payload : Option Bytes} (h : isPackedPayload payload = false) :
    parsePayload payload = .ok (payload, none) := by
  simp [parsePayload, h]

/-! ## Slices -/

/-- `b[lo:hi]`, which panics beyond the bytes there are. -/
def slice (b : Bytes) (lo hi : Nat) : Reply Bytes :=
  if lo ≤ hi ∧ hi ≤ b.length then .ok ((b.take hi).drop lo) else .error (.panic .indexOutOfRange)

/-- `UnpackPayloads` with each slice that it takes. -/
def unpackPayloadsSliced (packed : Option Bytes) : Reply (Option Bytes × Option Bytes) :=
  let b := packed.getD []
  if b.length < 8 then
    .error (.err (.other s!"Not a packed payload, too small: {encodeToString packed}"))
  else
    slice b 0 4 >>= fun magic =>
    if magic ≠ packedMagic then
      .error (.err (.other s!"Not a packed payload, missing rkcy: {encodeToString packed}"))
    else
      slice b 4 8 >>= fun field =>
      let offset := uint32 field
      if offset < 8 ∨ offset > b.length % 2 ^ 32 then
        .error (.err (.other s!"Not a packed payload, invalid offset {offset}: {encodeToString packed}"))
      else
        slice b 8 offset >>= fun instBytes =>
        slice b offset b.length >>= fun relBytes =>
        if instBytes.length = 0 then
          .error (.err (.other s!"No instance contained in packed payload: {encodeToString packed}"))
        else .ok (some instBytes, if relBytes.length = 0 then none else some relBytes)

section
variable {b : Bytes} {lo hi : Nat}

theorem slice_ok (order : lo ≤ hi) (inside : hi ≤ b.length) : slice b lo hi = .ok ((b.take hi).drop lo) := by
  unfold slice
  rw [if_pos ⟨order, inside⟩]

/-- No slice of a buffer below 2^32 bytes is out of range, whatever its header says. -/
theorem unpackPayloadsSliced_eq {packed : Option Bytes} (size : (packed.getD []).length < 2 ^ 32) :
    unpackPayloadsSliced packed = (unpackPayloads packed).mapError .err := by
  have wraps : (packed.getD []).length % 2 ^ 32 = (packed.getD []).length := Nat.mod_eq_of_lt size
  unfold unpackPayloadsSliced unpackPayloads
  dsimp only
  split
  · rfl
  rename_i large
  have header : ((packed.getD []).take 8).drop 4 = ((packed.getD []).drop 4).take 4 := by rw [List.drop_take]
  rw [slice_ok (by omega) (by omega), slice_ok (by omega) (by omega), header]
  show (if ((packed.getD []).take 4).drop 0 ≠ packedMagic then _ else _) = _
  rw [List.drop_zero]
  split
  · rfl
  show (if _ ∨ _ then _ else _) = _
  rw [wraps]
  split
  · rfl
  rename_i bounds
  rw [slice_ok (by omega) (by omega), slice_ok (by omega) (by omega), List.take_length]
  show (if ((List.take (uint32 _) (packed.getD [])).drop 8).length = 0 then _ else _) = _
  split <;> rfl

theorem putUint32_uint32 {a b c d : UInt8} : putUint32 (uint32 [a, b, c, d]) = [a, b, c, d] := by
  have := a.toNat_lt
  have := b.toNat_lt
  have := c.toNat_lt
  have := d.toNat_lt
  have value : uint32 [a, b, c, d] =
      a.toNat + 256 * b.toNat + 65536 * c.toNat + 16777216 * d.toNat := rfl
  unfold putUint32
  rw [value]
  have digits : ∀ {n : Nat} {x : UInt8}, n % 256 = x.toNat → UInt8.ofNat n = x := by
    intro n x h
    apply UInt8.toNat_inj.1
    rw [UInt8.toNat_ofNat', h]
  rw [digits (show _ % 256 = a.toNat by omega), digits (show _ % 256 = b.toNat by omega),
    digits (show _ % 256 = c.toNat by omega), digits (show _ % 256 = d.toNat by omega)]

/-- What is unpacked fills the buffer: the header tells exactly where the related data begins. -/
theorem unpackPayloads_eq_ok {packed i r : Option Bytes} (size : (packed.getD []).length < 2 ^ 32)
    (h : unpackPayloads packed = .ok (i, r)) :
    ∃ inst, i = some inst ∧ inst ≠ [] ∧ r ≠ some [] ∧
      packed = some (packedMagic ++ putUint32 (8 + inst.length) ++ inst ++ r.getD []) := by
  unfold unpackPayloads at h
  dsimp only at h
  rw [Nat.mod_eq_of_lt size] at h
  cases packed with
  | none => cases h
  | some b =>
    rw [Option.getD_some] at h
    split at h
    · cases h
    rename_i large
    split at h
    · cases h
    rename_i magic
    split at h
    · cases h
    rename_i bounds
    split at h
    · cases h
    rename_i filled
    obtain ⟨rfl, rfl⟩ := Prod.mk.inj (Except.ok.inj h)
    have field : putUint32 (uint32 ((b.drop 4).take 4)) = (b.drop 4).take 4 := by
      have four : ((b.drop 4).take 4).length = 4 := by
        rw [List.length_take, List.length_drop]
        omega
      match hf : (b.drop 4).take 4, four with
      | [_, _, _, _], _ => exact putUint32_uint32
    have length : 8 + ((b.take (uint32 ((b.drop 4).take 4))).drop 8).length = uint32 ((b.drop 4).take 4) := by
      rw [List.length_drop, List.length_take]
      omega
    have related : (if (b.drop (uint32 ((b.drop 4).take 4))).length = 0 then none
        else some (b.drop (uint32 ((b.drop 4).take 4)))).getD [] = b.drop (uint32 ((b.drop 4).take 4)) := by
      split
      · rename_i empty
        exact (List.eq_nil_of_length_eq_zero empty).symm
      · rfl
    refine ⟨_, rfl, ?_, ?_, ?_⟩
    · intro empty
      rw [empty] at filled
      exact filled rfl
    · split
      · simp
      · rename_i more
        intro empty
        rw [Option.some.inj empty] at more
        exact more rfl
    · rw [length, field, related, ← Decidable.not_not.1 magic]
      have front : b.take 4 ++ (b.drop 4).take 4 = b.take 8 := by rw [← List.take_add]
      have inst : b.take 8 ++ (b.take (uint32 ((b.drop 4).take 4))).drop 8 = b.take (uint32 ((b.drop 4).take 4)) := by
        have here := List.take_append_drop 8 (b.take (uint32 ((b.drop 4).take 4)))
        rwa [List.take_take, Nat.min_eq_left (by omega)] at here
      rw [front, inst, List.take_append_drop]

end

/-- Packing is undone by unpacking and by parsing; and whatever bytes are unpacked, no slice is out of
range, and what is returned is what the buffer is packed of. -/
theorem packed_codec_exact :
    (∀ (inst : Bytes) (rel : Option Bytes), inst ≠ [] → isPackedPayload (some inst) = false →
        isPackedPayload rel = false → 8 + inst.length + (rel.getD []).length < 2 ^ 32 →
        ∃ packed, packPayloads (some inst) rel = some packed ∧
          unpackPayloads (some packed) = .ok (some inst, wireBytes rel) ∧
          parsePayload (some packed) = .ok (some inst, wireBytes rel)) ∧
      ∀ packed : Option Bytes, (packed.getD []).length < 2 ^ 32 →
        unpackPayloadsSliced packed = (unpackPayloads packed).mapError .err ∧
          ∀ i r, unpackPayloads packed = .ok (i, r) → ∃ inst, i = some inst ∧ inst ≠ [] ∧ r ≠ some [] ∧
            packed = some (packedMagic ++ putUint32 (8 + inst.length) ++ inst ++ r.getD []) := by
  refine ⟨?_, fun packed size => ⟨unpackPayloadsSliced_eq size, fun i r => unpackPayloads_eq_ok size⟩⟩
  intro inst rel ne raw rawRel size
  have packs := packPayloads_eq_some.2 ⟨raw, rawRel, rfl⟩
  refine ⟨_, packs, ?_⟩
  have small : (packedMagic ++ putUint32 (8 + inst.length) ++ inst ++ rel.getD []).length < 2 ^ 32 := by
    rw [List.length_append, packed_header (putUint32_length _)]
    exact size
  exact ⟨unpackPayloads_packPayloads packs ne small, parsePayload_packPayloads packs ne small⟩

end Rocketcycle
