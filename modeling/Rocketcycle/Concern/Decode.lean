import Rocketcycle.Concern.Related
import Rocketcycle.Rkcy.ApecsTxn

/-!
# Decoding

`DecodeInstance` and `DecodeResult` of the template `rkcy.go.tmpl`, and `DecodeResultPayload` of
`pkg/rkcy/decode.go`: the message in the result of a step, told by the command alone.
-/

namespace Rocketcycle

open Command

variable {M : Type}

/-- `rkcy.ResultProto`. The messages of the platform itself are no messages of a concern. -/
structure ResultProto (M : Type) where
  type : String
  inst : M ⊕ RelatedResponse
  related : Option M := none
  deriving DecidableEq, Repr

def Concern.decodeInstance (cnc : Concern M) (buffer : Bytes) : Except GoError (ResultProto M) :=
  if !isPackedPayload (some buffer) then do
    let inst ← cnc.unmarshal buffer
    return { type := cnc.name, inst := .inl inst }
  else do
    let (instBytes, relBytes) ← unpackPayloads (some buffer)
    let inst ← cnc.unmarshalOpt instBytes
    let rel ← cnc.parseRelated relBytes
    return { type := cnc.name, inst := .inl inst, related := some rel }

/-- `DecodeResult`. `outputType` is the name that the template prints for the output of a command. -/
def Concern.decodeResult (cnc : Concern M) (pb : RelatedCodecs) (outputType : String → String) (system : System)
    (command : String) (buffer : Bytes) : Except GoError (ResultProto M) :=
  let invalid : Except GoError (ResultProto M) :=
    .error (.other s!"ResultDecoder invalid command: {system.number} {command}")
  if isStorageSystem system then
    if command ∈ [read, create, update, updateAsync] then cnc.decodeInstance buffer else invalid
  else if system = .process then
    if command ∈ [read, validateCreate, validateUpdate, refreshInstance, refreshRelated] then cnc.decodeInstance buffer
    else if command = requestRelated then do
      let relRsp ← pb.response.unmarshal buffer
      return { type := "RelatedResponse", inst := .inr relRsp }
    else
      match cnc.commands.find? fun c => c.name = command with
      | none => invalid
      | some cmd =>
        match cmd.output with
        | none => invalid
        | some output => do
          let out ← output.unmarshal buffer
          return { type := outputType command, inst := .inl out }
  else .error (.other s!"ResultDecoder invalid system: {system.string}")

def ClientCode.decodeResultPayload (cc : ClientCode M) (outputType : String → String → String) (concern : String)
    (system : System) (command : String) (buffer : Bytes) : Except GoError (ResultProto M) :=
  match cc.concernHandler concern with
  | none => .error (.other s!"DecodeResultPayload invalid concern: {concern}")
  | some cnc => cnc.decodeResult cc.pb (outputType concern) system command buffer

/-! ## What was encoded -/

/-- Unmarshalling gives back what was marshalled. -/
def Codec.Lossless {α : Type} (codec : Codec α) : Prop := ∀ a b, codec.encode a = .ok b → codec.decode b = .ok a

/-- So do the messages of a concern. -/
structure Concern.LosslessMessages (cnc : Concern M) : Prop where
  inst : cnc.toCodec.Lossless
  related : cnc.related.toCodec.Lossless
  output : ∀ cmd ∈ cnc.commands, ∀ output, cmd.output = some output → output.Lossless

/-- The commands that answer the instance with its related data. -/
def instanceCommands : List String := [read, refreshInstance, flushInstance, refreshRelated]

/-- What the handler of a command has encoded in a payload: an instance with its related data, or the
output of a command of the concern's service. -/
inductive Concern.ResultOf (cnc : Concern M) (outputType : String → String) (command : String) (payload : Bytes) :
    ResultProto M → Prop
  | instance (inst rel : M) (instBytes : Bytes) (relBytes : Option Bytes) (cmd : command ∈ instanceCommands)
      (packed : packPayloads (some instBytes) relBytes = some payload) (parsed : cnc.unmarshal instBytes = .ok inst)
      (related : cnc.parseRelated relBytes = .ok rel) :
      ResultOf cnc outputType command payload { type := cnc.name, inst := .inl inst, related := some rel }
  | output (cmd : ConcernCommand M) (codec : Codec M) (out : M)
      (found : cnc.commands.find? (fun c => c.name = command) = some cmd) (output : cmd.output = some codec)
      (marshalled : codec.marshal out = .ok payload) :
      ResultOf cnc outputType command payload { type := outputType command, inst := .inl out }

section
variable {cnc : Concern M} {pb : RelatedCodecs} {outputType : String → String}

theorem Codec.Lossless.unmarshal {α : Type} {codec : Codec α} (lossless : codec.Lossless) {a : α} {b : Bytes}
    (h : codec.marshal a = .ok b) : codec.unmarshal b = .ok a := by
  unfold Codec.marshal at h
  cases he : codec.encode a with
  | error msg => rw [he] at h; cases h
  | ok b' =>
    rw [he] at h
    cases h
    rw [Codec.unmarshal, lossless a b he]
    rfl

/-- What is unpacked of a pack without an instance is an error. -/
theorem unpackPayloads_empty {relBytes : Option Bytes} {packed : Bytes} (h : packPayloads (some []) relBytes = some packed) :
    ∃ e, unpackPayloads (some packed) = .error e := by
  obtain ⟨-, -, shape⟩ := packPayloads_eq_some.1 h
  have field : (packed.drop 4).take 4 = putUint32 8 := by
    rw [shape]
    simp [packedMagic, putUint32]
  have off : uint32 (putUint32 8) = 8 := by decide
  unfold unpackPayloads
  simp only [Option.getD_some, field, off]
  split
  · exact ⟨_, rfl⟩
  split
  · exact ⟨_, rfl⟩
  split
  · exact ⟨_, rfl⟩
  split
  · exact ⟨_, rfl⟩
  · rename_i ne
    rw [List.length_drop, List.length_take] at ne
    omega

/-- An instance and its related data are decoded from what they were packed into. -/
theorem decodeInstance_packed {inst rel : M} {instBytes packed : Bytes} {relBytes : Option Bytes}
    (h : packPayloads (some instBytes) relBytes = some packed) (ne : instBytes ≠ []) (size : packed.length < 2 ^ 32)
    (parsed : cnc.unmarshal instBytes = .ok inst) (related : cnc.parseRelated relBytes = .ok rel) :
    cnc.decodeInstance packed = .ok { type := cnc.name, inst := .inl inst, related := some rel } := by
  have wire : cnc.parseRelated (wireBytes relBytes) = .ok rel := by
    rw [← related]
    rcases relBytes with _ | _ | _ <;> rfl
  unfold Concern.decodeInstance
  rw [packPayloads_packed h, unpackPayloads_packPayloads h ne size]
  show (cnc.unmarshal instBytes >>= fun inst => cnc.parseRelated (wireBytes relBytes) >>= fun rel => _) = _
  rw [parsed, wire]
  rfl

/-- Nothing is decoded where there is no instance. -/
theorem decodeInstance_empty {packed : Bytes} {relBytes : Option Bytes}
    (h : packPayloads (some []) relBytes = some packed) : ∃ e, cnc.decodeInstance packed = .error e := by
  obtain ⟨e, he⟩ := unpackPayloads_empty h
  unfold Concern.decodeInstance
  rw [packPayloads_packed h, he]
  exact ⟨e, rfl⟩

/-- All commands that answer an instance are decoded, but for one. -/
theorem decodeResult_instance {command : String} {buffer : Bytes} (cmd : command ∈ instanceCommands)
    (notFlush : command ≠ flushInstance) :
    cnc.decodeResult pb outputType .process command buffer = cnc.decodeInstance buffer := by
  have listed : command ∈ [read, validateCreate, validateUpdate, refreshInstance, refreshRelated] := by
    simp only [instanceCommands, List.mem_cons, List.not_mem_nil, or_false] at cmd
    rcases cmd with rfl | rfl | rfl | rfl
    · decide
    · decide
    · exact absurd rfl notFlush
    · decide
  unfold Concern.decodeResult
  rw [if_neg (by decide), if_pos rfl, if_pos listed]

theorem decodeResult_command {command : String} {buffer : Bytes} (free : isReservedCommand command = false) :
    cnc.decodeResult pb outputType .process command buffer =
      match cnc.commands.find? fun c => c.name = command with
      | none => .error (.other s!"ResultDecoder invalid command: {System.process.number} {command}")
      | some cmd =>
        match cmd.output with
        | none => .error (.other s!"ResultDecoder invalid command: {System.process.number} {command}")
        | some output => do
          let out ← output.unmarshal buffer
          return { type := outputType command, inst := .inl out } := by
  obtain ⟨-, hread, -, -, -, hcreate, hupdate, hrefresh, -, hrequest, hrelated⟩ := not_reserved free
  unfold Concern.decodeResult
  rw [if_neg (by decide), if_pos rfl, if_neg (by simp [hread, hcreate, hupdate, hrefresh, hrelated]), if_neg hrequest]

/-- The result of a flush is not among those that are decoded. -/
theorem decodeResult_flush {buffer : Bytes} :
    ∃ e, cnc.decodeResult pb outputType .process flushInstance buffer = .error e := by
  have reserved : cnc.commands.find? (fun c => c.name = flushInstance) = none := by
    rw [List.find?_eq_none]
    intro c hc named
    have free := cnc.commands_free c hc
    rw [of_decide_eq_true named] at free
    exact absurd free (by decide)
  unfold Concern.decodeResult
  rw [if_neg (by decide), if_pos rfl, if_neg (by decide), if_neg (by decide), reserved]
  exact ⟨_, rfl⟩

end

end Rocketcycle
