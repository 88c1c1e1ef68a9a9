import Mathlib
import Rocketcycle.Lib.WireRecords

/-!
# Formats of messages

The wire formats of protobuf messages, put together from those of their fields. A field says which
values it is written as, and what a further value makes of what has been read of it so far; a
message does the same for records. Each carries which of its values can be written, and the form
in which these are read back.
-/

namespace Rocketcycle.Wire

/-! ## Reading records -/

/-- A number below `2 ^ 64`, a byte string of its length, and no group. -/
def Value.Plain : Value → Prop
  | .varint n => n < 2 ^ 64
  | .group _ => False
  | _ => True

/-- A number in base 128. One of 64 bits has at most ten bytes. -/
def readVarint (b : Octets) : Option (Nat × Octets) :=
  (readUvarint b).filter fun (n, rest) => decide (2 ^ 64 ≤ n) || decide (b.length ≤ rest.length + 10)

/-- The value of a wire type in front of other bytes. Groups are refused. -/
def readValue (wireType : Nat) (b : Octets) : Option (Value × Octets) :=
  match wireType with
  | 0 =>
    match readVarint b with
    | some (n, rest) => if n < 2 ^ 64 then some (.varint n, rest) else none
    | none => none
  | 1 => if h : 8 ≤ b.length then some (.i64 (b.take 8) (List.length_take_of_le h), b.drop 8) else none
  | 2 =>
    match readVarint b with
    | some (n, rest) => if n ≤ rest.length then some (.len (rest.take n), rest.drop n) else none
    | none => none
  | 5 => if h : 4 ≤ b.length then some (.i32 (b.take 4) (List.length_take_of_le h), b.drop 4) else none
  | _ => none

/-- The numbers that a field may have. -/
def isNumber (n : Nat) : Bool := decide (0 < n) && decide (n < 2 ^ 29)

def readRecord (b : Octets) : Option ((Nat × Value) × Octets) :=
  match readVarint b with
  | none => none
  | some (tag, b) =>
    if isNumber (tag / 8) then (readValue (tag % 8) b).map fun (v, rest) => ((tag / 8, v), rest) else none

/-- All records of a message, at most `fuel` of them. -/
def readRecords : Nat → Octets → Option (List (Nat × Value))
  | _, [] => some []
  | 0, _ :: _ => none
  | fuel + 1, b :: bs =>
    match readRecord (b :: bs) with
    | none => none
    | some (record, rest) => (readRecords fuel rest).map fun records => record :: records

theorem length_putUvarint {fuel n k : Nat} (small : n < 128 ^ (k + 1)) : (putUvarint fuel n).length ≤ k + 1 := by
  induction fuel generalizing n k with
  | zero => simp [putUvarint]
  | succ fuel ih =>
    unfold putUvarint
    split
    · simp
    · rename_i large
      cases k with
      | zero => omega
      | succ k =>
        have less : n / 128 < 128 ^ (k + 1) := by
          apply Nat.div_lt_of_lt_mul
          rw [Nat.pow_succ] at small
          omega
        have tail := ih less
        simp only [List.length_cons]
        omega

theorem readVarint_uvarint (n : Nat) (rest : Octets) : readVarint (uvarint n ++ rest) = some (n, rest) := by
  unfold readVarint
  rw [readUvarint_uvarint]
  apply Option.filter_eq_some_iff.2
  refine ⟨rfl, ?_⟩
  by_cases large : 2 ^ 64 ≤ n
  · show (decide (2 ^ 64 ≤ n) || _) = true
    rw [decide_eq_true large, Bool.true_or]
  · have short : (uvarint n).length ≤ 10 := by
      apply length_putUvarint
      exact Nat.lt_of_lt_of_le (Nat.not_le.1 large) (show 2 ^ 64 ≤ 128 ^ (9 + 1) by decide)
    simp only [List.length_append, Bool.or_eq_true, decide_eq_true_eq]
    omega

theorem readValue_put {number : Nat} {v : Value} (plain : v.Plain) (rest : Octets) :
    readValue v.wireType (v.put number ++ rest) = some (v, rest) := by
  cases v with
  | varint n =>
    have small : n < 2 ^ 64 := plain
    simp only [Value.wireType, Value.put, readValue, readVarint_uvarint, if_pos small]
  | i64 b size =>
    have long : 8 ≤ (b ++ rest).length := by simp [size]
    show (if h : 8 ≤ (b ++ rest).length then
      some (Value.i64 ((b ++ rest).take 8) (List.length_take_of_le h), (b ++ rest).drop 8) else none) = _
    rw [dif_pos long]
    simp only [List.take_left' size, List.drop_left' size]
  | len b =>
    have long : b.length ≤ (b ++ rest).length := by simp
    simp only [Value.wireType, Value.put, readValue, List.append_assoc, readVarint_uvarint, if_pos long, List.take_left,
      List.drop_left]
  | group body => exact plain.elim
  | i32 b size =>
    have long : 4 ≤ (b ++ rest).length := by simp [size]
    show (if h : 4 ≤ (b ++ rest).length then
      some (Value.i32 ((b ++ rest).take 4) (List.length_take_of_le h), (b ++ rest).drop 4) else none) = _
    rw [dif_pos long]
    simp only [List.take_left' size, List.drop_left' size]

theorem readRecord_put {record : Nat × Value} (isNumber : isNumber record.1 = true) (plain : record.2.Plain) (rest : Octets) :
    readRecord (putRecord record ++ rest) = some (record, rest) := by
  have small := record.2.wireType_le
  have wireType : (record.1 * 8 + record.2.wireType) % 8 = record.2.wireType := by omega
  have number : (record.1 * 8 + record.2.wireType) / 8 = record.1 := by omega
  unfold readRecord putRecord
  rw [List.append_assoc, readVarint_uvarint]
  simp only [wireType, number, readValue_put plain, isNumber, if_true, Option.map_some]

theorem putRecord_ne_nil (record : Nat × Value) : putRecord record ≠ [] := by
  intro h
  exact uvarint_ne_nil _ (List.append_eq_nil_iff.1 h).1

theorem length_le_putRecords (records : List (Nat × Value)) : records.length ≤ (putRecords records).length := by
  induction records with
  | nil => simp
  | cons record records ih =>
    have pos := List.length_pos_iff.2 (putRecord_ne_nil record)
    simp only [putRecords, List.flatMap_cons, List.length_append, List.length_cons] at *
    omega

/-- The records of a message are read back. -/
theorem readRecords_put {fuel : Nat} {records : List (Nat × Value)}
    (plain : ∀ r ∈ records, isNumber r.1 = true ∧ r.2.Plain)
    (enough : records.length ≤ fuel) : readRecords fuel (putRecords records) = some records := by
  induction records generalizing fuel with
  | nil => cases fuel <;> rfl
  | cons record records ih =>
    cases fuel with
    | zero => simp at enough
    | succ fuel =>
      have rest : readRecords fuel (putRecords records) = some records :=
        ih (fun r hr => plain r (List.mem_cons_of_mem _ hr)) (by simpa using enough)
      have first := readRecord_put (plain record List.mem_cons_self).1 (plain record List.mem_cons_self).2 (putRecords records)
      change readRecords (fuel + 1) (putRecord record ++ putRecords records) = _
      cases hb : putRecord record ++ putRecords records with
      | nil => exact absurd (List.append_eq_nil_iff.1 hb).1 (putRecord_ne_nil record)
      | cons b bs =>
        rw [hb] at first
        unfold readRecords
        simp only [first, rest, Option.map_some]

/-! ## Messages -/

/-- A message format: the records of a value, what a further record makes of the value read so far,
and the form in which the values that are `ok` come back. Whatever is read is `ok` and in that
form. -/
structure Format (α : Type) where
  start : α
  put : α → List (Nat × Value)
  add : α → Nat × Value → Option α
  ok : α → Prop
  norm : α → α
  plain : ∀ a, ok a → ∀ r ∈ put a, isNumber r.1 = true ∧ r.2.Plain
  back : ∀ a, ok a → (put a).foldlM add start = some (norm a)
  starts : ok start ∧ norm start = start
  adds : ∀ a r a', ok a ∧ norm a = a → add a r = some a' → ok a' ∧ norm a' = a'

theorem foldlM_keeps {α β : Type} {P : α → Prop} {add : α → β → Option α} (adds : ∀ a b a', P a → add a b = some a' → P a')
    {l : List β} {a a' : α} (start : P a) (h : l.foldlM add a = some a') : P a' := by
  induction l generalizing a with
  | nil =>
    obtain rfl : a = a' := Option.some.inj h
    exact start
  | cons b l ih =>
    rw [List.foldlM_cons] at h
    obtain ⟨next, step, h⟩ := Option.bind_eq_some_iff.1 h
    exact ih (adds _ _ _ start step) h

namespace Format

variable {α : Type} (f : Format α)

def encode (a : α) : Octets := putRecords (f.put a)

/-- Of a message that occurs twice both are read, one on top of the other. -/
def merge (a : α) (b : Octets) : Option α := (readRecords b.length b).bind fun records => records.foldlM f.add a

def decode (b : Octets) : Option α := f.merge f.start b

variable {f}

/-- What is written is read back in its normal form. -/
theorem decode_encode {a : α} (h : f.ok a) : f.decode (f.encode a) = some (f.norm a) := by
  unfold decode merge encode
  rw [readRecords_put (f.plain a h) (length_le_putRecords _)]
  exact f.back a h

theorem merge_ok {a a' : α} {b : Octets} (start : f.ok a ∧ f.norm a = a) (h : f.merge a b = some a') :
    f.ok a' ∧ f.norm a' = a' := by
  obtain ⟨records, -, h⟩ := Option.bind_eq_some_iff.1 h
  exact foldlM_keeps f.adds start h

theorem decode_ok {a : α} {b : Octets} (h : f.decode b = some a) : f.ok a ∧ f.norm a = a := merge_ok f.starts h

end Format

/-! ## Fields -/

/-- The format of a field. Values of another wire type are passed over. -/
structure Field (β : Type) where
  start : β
  put : β → List Value
  add : β → Value → Option β
  ok : β → Prop
  norm : β → β
  plain : ∀ b, ok b → ∀ v ∈ put b, v.Plain
  back : ∀ b, ok b → (put b).foldlM add start = some (norm b)
  starts : ok start ∧ norm start = start
  adds : ∀ b v b', ok b ∧ norm b = b → add b v = some b' → ok b' ∧ norm b' = b'

/-- A signed number of `bits` bits is written with 64. -/
def unsigned (n : Int) : Nat := (n % 2 ^ 64).toNat

def signed (bits n : Nat) : Int := (n : Int).bmod (2 ^ bits)

/-- The numbers that a signed type of `bits` bits has. -/
def inBits (bits : Nat) (n : Int) : Bool := decide (-(2 ^ (bits - 1)) ≤ n) && decide (n < 2 ^ (bits - 1))

theorem inBits_iff {bits : Nat} {n : Int} : inBits bits n = true ↔ -(2 ^ (bits - 1)) ≤ n ∧ n < 2 ^ (bits - 1) := by
  simp [inBits]

theorem unsigned_lt (n : Int) : unsigned n < 2 ^ 64 := by
  unfold unsigned
  omega

theorem inBits_zero (bits : Nat) : inBits bits 0 = true := by
  have pos : (0 : Int) < 2 ^ (bits - 1) := Int.pow_pos (by decide)
  rw [inBits_iff]
  omega

theorem inBits_signed {bits : Nat} (pos : 0 < bits) (n : Nat) : inBits bits (signed bits n) = true := by
  obtain ⟨half, rfl⟩ : ∃ half, bits = half + 1 := ⟨bits - 1, by omega⟩
  have power : ((2 ^ (half + 1) : Nat) : Int) = 2 * 2 ^ half := by rw [Nat.pow_succ, Nat.mul_comm]; rfl
  have positive : 0 < 2 ^ (half + 1) := Nat.two_pow_pos _
  have lower := Int.le_bmod (x := (n : Int)) positive
  have upper := Int.bmod_lt (x := (n : Int)) positive
  rw [power] at lower upper
  rw [inBits_iff, Nat.add_sub_cancel]
  unfold signed
  omega

theorem signed_unsigned {bits : Nat} (pos : 0 < bits) (le : bits ≤ 64) {n : Int} (h : inBits bits n = true) :
    signed bits (unsigned n) = n := by
  rw [inBits_iff] at h
  obtain ⟨half, rfl⟩ : ∃ half, bits = half + 1 := ⟨bits - 1, by omega⟩
  rw [Nat.add_sub_cancel] at h
  have nonneg : 0 ≤ n % 2 ^ 64 := Int.emod_nonneg _ (by decide)
  have power : ((2 ^ (half + 1) : Nat) : Int) = 2 * 2 ^ half := by rw [Nat.pow_succ, Nat.mul_comm]; rfl
  have divides : ((2 ^ (half + 1) : Nat) : Int) ∣ 2 ^ 64 := by
    exact Int.natCast_dvd_natCast.2 (Nat.pow_dvd_pow 2 le)
  unfold signed unsigned
  rw [Int.toNat_of_nonneg nonneg, ← Int.emod_bmod, Int.emod_emod_of_dvd _ divides, Int.emod_bmod]
  apply Int.bmod_eq_of_le
  · rw [power]; omega
  · rw [power]; omega

namespace Field

variable {α β : Type}

/-- A signed number. Zero is not written. -/
def int (bits : Nat) (pos : 0 < bits) (le : bits ≤ 64) : Field Int where
  start := 0
  put n := if n = 0 then [] else [.varint (unsigned n)]
  add n
    | .varint m => some (signed bits m)
    | _ => some n
  ok n := inBits bits n = true
  norm n := n
  plain n _ v hv := by
    split at hv
    · cases hv
    · rw [List.mem_singleton.1 hv]
      exact unsigned_lt n
  back n h := by
    split
    · rename_i hn
      rw [hn]
      rfl
    · show some (signed bits (unsigned n)) = some n
      rw [signed_unsigned pos le h]
  starts := ⟨inBits_zero bits, rfl⟩
  adds n v n' h added := by
    cases v with
    | varint m =>
      obtain rfl := Option.some.inj added
      exact ⟨inBits_signed pos m, rfl⟩
    | _ =>
      obtain rfl := Option.some.inj added
      exact h

/-- An enumeration, by its numbers. -/
def enumeration (number : β → Int) (ofNumber : Int → Option β) (zero : β) (ofNumber_zero : ofNumber 0 = some zero)
    (number_ofNumber : ∀ n b, ofNumber n = some b → number b = n) : Field β where
  start := zero
  put b := if number b = 0 then [] else [.varint (unsigned (number b))]
  add b
    | .varint m => ofNumber (signed 32 m)
    | _ => some b
  ok b := inBits 32 (number b) = true ∧ ofNumber (number b) = some b
  norm b := b
  plain b _ v hv := by
    split at hv
    · cases hv
    · rw [List.mem_singleton.1 hv]
      exact unsigned_lt _
  back b h := by
    split
    · rename_i hb
      have known := h.2
      rw [hb, ofNumber_zero] at known
      exact known
    · show (ofNumber (signed 32 (unsigned (number b)))).bind (fun b => some b) = some b
      rw [signed_unsigned (by decide) (by decide) h.1, h.2]
      rfl
  starts := by
    have none := number_ofNumber 0 zero ofNumber_zero
    rw [none]
    exact ⟨⟨inBits_zero 32, ofNumber_zero⟩, rfl⟩
  adds b v b' h added := by
    cases v with
    | varint m =>
      have known : ofNumber (signed 32 m) = some b' := added
      have number := number_ofNumber _ _ known
      rw [number]
      exact ⟨⟨inBits_signed (by decide) m, known⟩, rfl⟩
    | _ =>
      obtain rfl := Option.some.inj added
      exact h

def ofText (s : String) : Octets := s.toByteArray.data.toList

def toText (b : Octets) : Option String := String.fromUTF8? ⟨b.toArray⟩

theorem toText_ofText (s : String) : toText (ofText s) = some s := by
  have same : (⟨(ofText s).toArray⟩ : ByteArray) = s.toByteArray := by simp [ofText]
  unfold toText String.fromUTF8?
  rw [same, dif_pos s.isValidUTF8]
  rfl

/-- A string. -/
def text : Field String where
  start := ""
  put s := if s = "" then [] else [.len (ofText s)]
  add s
    | .len b => toText b
    | _ => some s
  ok _ := True
  norm s := s
  plain s _ v hv := by
    split at hv
    · cases hv
    · rw [List.mem_singleton.1 hv]
      trivial
  back s _ := by
    split
    · rename_i hs
      rw [hs]
      rfl
    · show (toText (ofText s)).bind (fun s => some s) = some s
      rw [toText_ofText]
      rfl
  starts := ⟨trivial, rfl⟩
  adds _ _ _ _ _ := ⟨trivial, rfl⟩

def isText (b : Octets) : Bool := (ByteArray.mk b.toArray).validateUTF8

/-- A string of which the bytes are kept: they have to be valid UTF-8. -/
def textBytes : Field Octets where
  start := []
  put b := if b = [] then [] else [.len b]
  add b
    | .len b' => if isText b' then some b' else none
    | _ => some b
  ok b := isText b = true
  norm b := b
  plain b _ v hv := by
    split at hv
    · cases hv
    · rw [List.mem_singleton.1 hv]
      trivial
  back b h := by
    split
    · rename_i hb
      rw [hb]
      rfl
    · show (if isText b then some b else none).bind (fun b => some b) = some b
      rw [if_pos h]
      rfl
  starts := ⟨by decide +kernel, rfl⟩
  adds b v b' h added := by
    cases v with
    | len read =>
      obtain ⟨valid, same⟩ := Option.ite_none_right_eq_some.1 added
      obtain rfl := Option.some.inj same
      exact ⟨valid, rfl⟩
    | _ =>
      obtain rfl := Option.some.inj added
      exact h

/-- A byte string, of which an empty one is not written. -/
def bytes : Field (Option Octets) where
  start := none
  put
    | some (b :: bs) => [.len (b :: bs)]
    | _ => []
  add old
    | .len [] => some none
    | .len (b :: bs) => some (some (b :: bs))
    | _ => some old
  ok _ := True
  norm
    | some [] => none
    | b => b
  plain b _ v hv := by
    rcases b with _ | _ | _
    · cases hv
    · cases hv
    · rw [List.mem_singleton.1 hv]
      trivial
  back b _ := by rcases b with _ | _ | _ <;> rfl
  starts := ⟨trivial, rfl⟩
  adds b v b' h added := by
    cases v with
    | len read =>
      cases read <;> (obtain rfl := Option.some.inj added; exact ⟨trivial, rfl⟩)
    | _ =>
      obtain rfl := Option.some.inj added
      exact h

/-- A message that may be missing, written as `send` says. The receiver takes over what `take` makes of it. -/
def messageOf (f : Format α) (send : β → α) (take : α → Option β) (take_send : ∀ b, f.ok (send b) → (take (f.norm (send b))).isSome = true)
    (send_take : ∀ a b, f.ok a ∧ f.norm a = a → take a = some b → f.ok (send b) ∧ f.norm (send b) = send b ∧ take (send b) = some b) :
    Field (Option β) where
  start := none
  put b := b.toList.map fun b => .len (f.encode (send b))
  add old
    | .len b => ((f.merge ((old.map send).getD f.start) b).bind take).map some
    | _ => some old
  ok b := ∀ x ∈ b, f.ok (send x)
  norm b := b.bind fun x => take (f.norm (send x))
  plain b _ v hv := by
    obtain ⟨x, -, rfl⟩ := List.mem_map.1 hv
    trivial
  back b h := by
    cases b with
    | none => rfl
    | some x =>
      have read : f.merge f.start (f.encode (send x)) = some (f.norm (send x)) := f.decode_encode (h x rfl)
      obtain ⟨y, taken⟩ := Option.isSome_iff_exists.1 (take_send x (h x rfl))
      show (((f.merge f.start (f.encode (send x))).bind take).map some).bind (fun b => some b) = some (take (f.norm (send x)))
      rw [read, Option.bind_some, taken]
      rfl
  starts := ⟨fun _ h => (Option.not_mem_none _ h).elim, rfl⟩
  adds b v b' h added := by
    cases v with
    | len read =>
      obtain ⟨x, hx, rfl⟩ := Option.map_eq_some_iff.1 added
      obtain ⟨a, merged, taken⟩ := Option.bind_eq_some_iff.1 hx
      have before : f.ok ((b.map send).getD f.start) ∧ f.norm ((b.map send).getD f.start) = (b.map send).getD f.start := by
        cases b with
        | none => exact f.starts
        | some x =>
          have back := send_take _ x (Format.decode_ok (Format.decode_encode (h.1 x rfl))) h.2
          exact ⟨back.1, back.2.1⟩
      obtain ⟨ok, norm, back⟩ := send_take a x (Format.merge_ok before merged) taken
      refine ⟨?_, ?_⟩
      · rintro y ⟨⟩
        exact ok
      · show take (f.norm (send x)) = some x
        rw [norm, back]
    | _ =>
      obtain rfl := Option.some.inj added
      exact h

/-- A message that may be missing. -/
def message (f : Format α) : Field (Option α) :=
  .messageOf f id some (fun _ _ => rfl) fun a b h same => by
    obtain rfl := Option.some.inj same
    exact ⟨h.1, h.2, rfl⟩

/-- Any number of messages. -/
def messages (f : Format α) : Field (List α) where
  start := []
  put as := as.map fun a => .len (f.encode a)
  add as
    | .len b => (f.decode b).map fun a => as ++ [a]
    | _ => some as
  ok as := ∀ a ∈ as, f.ok a
  norm as := as.map f.norm
  plain as _ v hv := by
    obtain ⟨x, -, rfl⟩ := List.mem_map.1 hv
    trivial
  back as h := by
    have grow : ∀ (as before : List α), (∀ a ∈ as, f.ok a) →
        (as.map fun a => Value.len (f.encode a)).foldlM (fun as v => match v with
          | .len b => (f.decode b).map fun a => as ++ [a]
          | _ => some as) before = some (before ++ as.map f.norm) := by
      intro as
      induction as with
      | nil => simp
      | cons a as ih =>
        intro before h
        simp only [List.map_cons, List.foldlM_cons, Format.decode_encode (h a List.mem_cons_self), Option.map_some,
          Option.bind_eq_bind, Option.bind_some]
        rw [ih _ fun a ha => h a (List.mem_cons_of_mem _ ha)]
        simp
    exact grow as [] h
  starts := ⟨fun _ h => (List.not_mem_nil h).elim, rfl⟩
  adds as v as' h added := by
    cases v with
    | len read =>
      obtain ⟨a, decoded, rfl⟩ := Option.map_eq_some_iff.1 added
      obtain ⟨ok, norm⟩ := Format.decode_ok decoded
      refine ⟨?_, ?_⟩
      · intro x hx
        rcases List.mem_append.1 hx with hx | hx
        · exact h.1 x hx
        · rwa [List.mem_singleton.1 hx]
      · rw [List.map_append, h.2, List.map_singleton, norm]
    | _ =>
      obtain rfl := Option.some.inj added
      exact h

section
variable {number : β → Int} {ofNumber : Int → Option β} {zero : β} {ofNumber_zero : ofNumber 0 = some zero}
  {number_ofNumber : ∀ n b, ofNumber n = some b → number b = n}

@[simp] theorem enumeration_start : (enumeration number ofNumber zero ofNumber_zero number_ofNumber).start = zero := rfl

@[simp] theorem enumeration_ok {b : β} : (enumeration number ofNumber zero ofNumber_zero number_ofNumber).ok b ↔
    inBits 32 (number b) = true ∧ ofNumber (number b) = some b := Iff.rfl

@[simp] theorem enumeration_norm {b : β} : (enumeration number ofNumber zero ofNumber_zero number_ofNumber).norm b = b := rfl

end

section
variable {bits : Nat} {pos : 0 < bits} {le : bits ≤ 64}

@[simp] theorem int_start : (int bits pos le).start = 0 := rfl

@[simp] theorem int_ok {n : Int} : (int bits pos le).ok n ↔ inBits bits n = true := Iff.rfl

@[simp] theorem int_norm {n : Int} : (int bits pos le).norm n = n := rfl

end

@[simp] theorem text_start : text.start = "" := rfl

@[simp] theorem text_ok (s : String) : text.ok s := trivial

@[simp] theorem text_norm (s : String) : text.norm s = s := rfl

@[simp] theorem textBytes_start : textBytes.start = [] := rfl

@[simp] theorem textBytes_ok {b : Octets} : textBytes.ok b ↔ isText b = true := Iff.rfl

@[simp] theorem textBytes_norm (b : Octets) : textBytes.norm b = b := rfl

@[simp] theorem bytes_start : bytes.start = none := rfl

@[simp] theorem bytes_ok (b : Option Octets) : bytes.ok b := trivial

@[simp] theorem message_start (f : Format α) : (message f).start = none := rfl

@[simp] theorem message_ok {f : Format α} {a : Option α} : (message f).ok a ↔ ∀ x ∈ a, f.ok x := Iff.rfl

@[simp] theorem message_norm (f : Format α) (a : Option α) : (message f).norm a = a.map f.norm := by cases a <;> rfl

@[simp] theorem messages_start (f : Format α) : (messages f).start = [] := rfl

@[simp] theorem messages_ok {f : Format α} {as : List α} : (messages f).ok as ↔ ∀ a ∈ as, f.ok a := Iff.rfl

@[simp] theorem messages_norm (f : Format α) (as : List α) : (messages f).norm as = as.map f.norm := rfl

end Field

/-! ## Members -/

/-- A field of a structure, under its number. -/
structure Member (α : Type) where
  number : Nat
  {β : Type}
  field : Field β
  get : α → β
  set : β → α → α
  isNumber : isNumber number = true := by decide
  get_set : ∀ b a, get (set b a) = b := by intros; rfl
  set_get : ∀ a, set (get a) a = a := by intros; rfl
  set_set : ∀ b b' a, set b' (set b a) = set b' a := by intros; rfl

/-- Setting the one leaves the other as it is. -/
def Member.Apart {α : Type} (m m' : Member α) : Prop :=
  (∀ b a, m'.get (m.set b a) = m'.get a) ∧ ∀ b a, m.get (m'.set b a) = m.get a

instance {α : Type} : Std.Symm (@Member.Apart α) where
  symm _ _ apart := ⟨apart.2, apart.1⟩

section
variable {α : Type} (members : List (Member α))

/-- The records of one member. -/
def Member.put (m : Member α) (a : α) : List (Nat × Value) := (m.field.put (m.get a)).map fun v => (m.number, v)

/-- A record of a number that the structure does not have is passed over. -/
def addRecord (a : α) (r : Nat × Value) : Option α :=
  match members.find? fun m => m.number = r.1 with
  | none => some a
  | some m => (m.field.add (m.get a) r.2).map fun b => m.set b a

/-- Setting every member to that of a value gives the value. -/
structure Complete (start : α) : Prop where
  all : ∀ a, members.foldl (fun acc m => m.set (m.get a) acc) start = a

/-- Takes over the members of `a` in their normal form. -/
def takeOver (a start : α) : α := members.foldl (fun acc m => m.set (m.field.norm (m.get a)) acc) start

variable {members}

theorem find_member (distinct : (members.map Member.number).Nodup) {m : Member α} (h : m ∈ members) :
    (members.find? fun m' => m'.number = m.number) = some m := by
  induction members with
  | nil => cases h
  | cons first rest ih =>
    rw [List.map_cons, List.nodup_cons] at distinct
    rcases List.mem_cons.1 h with rfl | h
    · simp
    · have other : first.number ≠ m.number := fun same => distinct.1 (List.mem_map.2 ⟨m, h, same.symm⟩)
      rw [List.find?_cons_of_neg (by simpa using other)]
      exact ih distinct.2 h

/-- The values of one member are read one after the other. -/
theorem addRecords_member (distinct : (members.map Member.number).Nodup) {m : Member α} (h : m ∈ members) (vs : List Value)
    (a : α) :
    (vs.map fun v => (m.number, v)).foldlM (addRecord members) a =
      (vs.foldlM m.field.add (m.get a)).map fun b => m.set b a := by
  induction vs generalizing a with
  | nil => simp [m.set_get]
  | cons v vs ih =>
    have here : addRecord members a (m.number, v) = (m.field.add (m.get a) v).map fun b => m.set b a := by
      unfold addRecord
      rw [find_member distinct h]
    rw [List.map_cons, List.foldlM_cons, List.foldlM_cons, here]
    cases m.field.add (m.get a) v with
    | none => rfl
    | some b =>
      simp only [Option.map_some, Option.bind_eq_bind, Option.bind_some, ih, m.get_set]
      cases vs.foldlM m.field.add b with
      | none => rfl
      | some b' => simp [m.set_set]

/-- Members that have not been read yet are read as they have been written. -/
theorem addRecords_put (distinct : (members.map Member.number).Nodup) (a : α) (ok : ∀ m ∈ members, m.field.ok (m.get a))
    {later : List (Member α)} (sub : ∀ m ∈ later, m ∈ members) (apart : later.Pairwise Member.Apart) {acc : α}
    (fresh : ∀ m ∈ later, m.get acc = m.field.start) :
    (later.flatMap fun m => m.put a).foldlM (addRecord members) acc = some (takeOver later a acc) := by
  induction later generalizing acc with
  | nil => rfl
  | cons m later ih =>
    rw [List.pairwise_cons] at apart
    have mem : m ∈ members := sub m List.mem_cons_self
    have first : (m.put a).foldlM (addRecord members) acc = some (m.set (m.field.norm (m.get a)) acc) := by
      unfold Member.put
      rw [addRecords_member distinct mem, fresh m List.mem_cons_self, m.field.back _ (ok m mem)]
      rfl
    rw [List.flatMap_cons, List.foldlM_append, first]
    simp only [Option.bind_eq_bind, Option.bind_some]
    apply ih (fun m' h => sub m' (List.mem_cons_of_mem _ h)) apart.2
    intro m' h
    rw [(apart.1 m' h).1]
    exact fresh m' (List.mem_cons_of_mem _ h)

theorem get_takeOver_apart {a acc : α} {m : Member α} {later : List (Member α)} (apart : ∀ m' ∈ later, m.Apart m') :
    m.get (takeOver later a acc) = m.get acc := by
  induction later generalizing acc with
  | nil => rfl
  | cons m' later ih =>
    have rest : m.get (takeOver (m' :: later) a acc) = m.get (m'.set (m'.field.norm (m'.get a)) acc) :=
      ih fun m'' h => apart m'' (List.mem_cons_of_mem _ h)
    exact rest.trans ((apart m' List.mem_cons_self).2 _ _)

theorem get_takeOver {a acc : α} {m : Member α} {later : List (Member α)} (apart : later.Pairwise Member.Apart) (h : m ∈ later) :
    m.get (takeOver later a acc) = m.field.norm (m.get a) := by
  induction later generalizing acc with
  | nil => cases h
  | cons m' later ih =>
    rw [List.pairwise_cons] at apart
    rcases List.mem_cons.1 h with rfl | h
    · have rest : m.get (takeOver (m :: later) a acc) = m.get (m.set (m.field.norm (m.get a)) acc) :=
        get_takeOver_apart apart.1
      exact rest.trans (m.get_set _ _)
    · exact ih apart.2 h

/-- A value is in its normal form if its members are. -/
theorem takeOver_eq_iff {start a : α} (apart : members.Pairwise Member.Apart)
    (complete : Complete members start) :
    takeOver members a start = a ↔ ∀ m ∈ members, m.field.norm (m.get a) = m.get a := by
  constructor
  · intro same m h
    have taken : m.get (takeOver members a start) = m.field.norm (m.get a) := get_takeOver apart h
    rw [← taken, same]
  · intro norm
    refine Eq.trans ?_ (complete.all a)
    apply List.foldl_ext
    intro acc m h
    rw [norm m h]

end

/-- The format of a structure that has these members and no others. -/
def Format.ofMembers {α : Type} (start : α) (members : List (Member α)) (distinct : (members.map Member.number).Nodup)
    (fresh : ∀ m ∈ members, m.get start = m.field.start) (apart : members.Pairwise Member.Apart)
    (complete : Complete members start) : Format α where
  start := start
  put a := members.flatMap fun m => m.put a
  add := addRecord members
  ok a := ∀ m ∈ members, m.field.ok (m.get a)
  norm a := takeOver members a start
  plain a h r hr := by
    obtain ⟨m, hm, hr⟩ := List.mem_flatMap.1 hr
    obtain ⟨v, hv, rfl⟩ := List.mem_map.1 hr
    exact ⟨m.isNumber, m.field.plain _ (h m hm) v hv⟩
  back a h := addRecords_put distinct a h (fun _ h => h) apart fresh
  starts := by
    refine ⟨?_, (takeOver_eq_iff apart complete).2 ?_⟩
    · intro m h
      rw [fresh m h]
      exact m.field.starts.1
    · intro m h
      rw [fresh m h]
      exact m.field.starts.2
  adds a r a' h added := by
    rw [takeOver_eq_iff apart complete] at h ⊢
    unfold addRecord at added
    split at added
    · obtain rfl := Option.some.inj added
      exact h
    · rename_i m found
      obtain ⟨b, read, rfl⟩ := Option.map_eq_some_iff.1 added
      have mem := List.mem_of_find?_eq_some found
      have here := m.field.adds _ _ _ ⟨h.1 m mem, h.2 m mem⟩ read
      have member : ∀ m' ∈ members, m'.field.ok (m'.get (m.set b a)) ∧ m'.field.norm (m'.get (m.set b a)) = m'.get (m.set b a) := by
        intro m' mem'
        by_cases same : m = m'
        · subst same
          rw [m.get_set]
          exact here
        · rw [(apart.forall mem mem' same).1]
          exact ⟨h.1 m' mem', h.2 m' mem'⟩
      exact ⟨fun m' h' => (member m' h').1, fun m' h' => (member m' h').2⟩

section
variable {α : Type} {start : α} {members : List (Member α)} {distinct : (members.map Member.number).Nodup}
  {fresh : ∀ m ∈ members, m.get start = m.field.start} {apart : members.Pairwise Member.Apart}
  {complete : Complete members start}

@[simp] theorem Format.ofMembers_ok {a : α} :
    (Format.ofMembers start members distinct fresh apart complete).ok a ↔ ∀ m ∈ members, m.field.ok (m.get a) := Iff.rfl

@[simp] theorem Format.ofMembers_norm {a : α} :
    (Format.ofMembers start members distinct fresh apart complete).norm a = takeOver members a start := rfl

end

end Rocketcycle.Wire
