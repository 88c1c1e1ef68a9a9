import Rocketcycle.Jsonutils.Reader
import Rocketcycle.Jsonutils.Writer

/-!
# Decoding for display

The JSON that `pkg/rkcy/decode.go` makes of payloads and instances. What the concern handlers decode, and
what the libraries for protobuf messages, base64 and JSON answer, is left open. The decoded payload of a
related request is decoded in turn, which costs one unit of fuel.
-/

namespace Rocketcycle.Decode
open Jsonutils

/-- `rkcy.ResultProto`, whose messages may be `nil`. -/
structure ResultProto (Msg : Type) where
  type : Bytes
  inst : Option Msg
  related : Option Msg

/-- The decoders of the interface `rkcy.ConcernHandler`. -/
structure ConcernHandler (Msg : Type) where
  decodeInstance : Bytes → Read (ResultProto Msg)
  decodeArg : System → Bytes → Bytes → Read (ResultProto Msg)
  decodeResult : System → Bytes → Bytes → Read (ResultProto Msg)
  decodeRelatedRequest : RelatedRequest → Read (ResultProto Msg)

abbrev ConcernHandlers (Msg : Type) := Bytes → Option (ConcernHandler Msg)

/-- What is used of the libraries. -/
structure Library (Msg F : Type) where
  /-- `protojson` with `EmitUnpopulated`. -/
  marshal : Msg → Read Bytes
  marshalDefault : Msg → Read Bytes
  asRelatedRequest : Msg → Option RelatedRequest
  asRelatedResponse : Msg → Option RelatedResponse
  decode64 : Bytes → Read Bytes
  /-- The map of type, instance and related message, decoded from and encoded to JSON. -/
  instanceJson : Bytes → Bytes → Option Bytes → Read Bytes
  parseFloat : Bytes → Option F
  formatFloat : F → Bytes
  /-- What a slice holds behind its length. -/
  behind : Bytes → Bytes

/-- The bytes of a string. -/
def bytes (s : String) : Bytes := Utf8.encode s.toList

section
variable {Msg F : Type} (lib : Library Msg F) (concernHandlers : ConcernHandlers Msg)

/-- `UnmarshalOrdered` into an `OrderedMap`. -/
def unmarshalMap (b : Bytes) : Read (OrderedMap F) := do
  let v ← unmarshalOrdered lib.parseFloat (lib.behind b) b .object
  .ok v.entries

def decodeInstance (concern : Bytes) (buffer : Bytes) : Read (ResultProto Msg) :=
  match concernHandlers concern with
  | none => failed "decodeInstance invalid concern: " concern
  | some concernHandler => concernHandler.decodeInstance buffer

def decodeInstanceJson (concern : Bytes) (buffer : Bytes) : Read Bytes := do
  let resProto ← decodeInstance concernHandlers concern buffer
  -- a missing message is marshalled as an empty one
  let instJson ←
    match resProto.inst with
    | none => .ok (bytes "\x7b\x7d")
    | some inst => lib.marshal inst
  match resProto.related with
  | none => lib.instanceJson resProto.type instJson none
  | some related => do
    let relJson ← lib.marshal related
    lib.instanceJson resProto.type instJson (some relJson)

def decodeInstance64Json (concern : Bytes) (buffer64 : Bytes) : Read Bytes := do
  let buffer ← lib.decode64 buffer64
  decodeInstanceJson lib concernHandlers concern buffer

/-- The opaque payload of a platform message is put behind it. -/
def resultProto2OrderedMap (cncHdlr : ConcernHandler Msg) : Nat → ResultProto Msg → Read (OrderedMap F)
  | 0, _ => .error .stuck
  | fuel + 1, resProto => do
    let instOmap ←
      match resProto.inst with
      | none => .ok none
      | some inst => do
        let instJson ← lib.marshal inst
        let instOmap ← unmarshalMap lib instJson
        if resProto.type = word "RelatedRequest" then
          match lib.asRelatedRequest inst with
          | none => .error .panic
          | some relReq => do
            let relReqDec ← cncHdlr.decodeRelatedRequest relReq
            let relReqDecOmap ← resultProto2OrderedMap cncHdlr fuel relReqDec
            .ok (some (instOmap.setAfter (word "payloadDec") (.object relReqDecOmap) (word "payload")))
        else if resProto.type = word "RelatedResponse" then
          match lib.asRelatedResponse inst with
          | none => .error .panic
          | some relRsp => do
            let relRspInst ← decodeInstance concernHandlers (bytes relRsp.concern) (relRsp.payload.getD [])
            let relRspInstOmap ← resultProto2OrderedMap cncHdlr fuel relRspInst
            .ok (some (instOmap.setAfter (word "payloadDec") (.object relRspInstOmap) (word "payload")))
        else .ok (some instOmap)
    let relOmap ←
      match resProto.related with
      | none => .ok none
      | some related => do
        let relJson ← lib.marshalDefault related
        let relOmap ← unmarshalMap lib relJson
        .ok (some relOmap)
    let resOmap := OrderedMap.set (word "type") (.string resProto.type) []
    let resOmap := match instOmap with
      | none => resOmap
      | some omap => OrderedMap.set (word "instance") (.object omap) resOmap
    match relOmap with
    | none => .ok resOmap
    | some omap => .ok (OrderedMap.set (word "related") (.object omap) resOmap)

def resultProto2Json (fuel : Nat) (cncHdlr : ConcernHandler Msg) (resProto : ResultProto Msg) : Read Bytes := do
  let resOmap ← resultProto2OrderedMap lib concernHandlers cncHdlr fuel resProto
  .ok (marshalOrdered lib.formatFloat (.object resOmap))

def decodeArgPayload64Json (fuel : Nat) (concern : Bytes) (system : System) (command buffer64 : Bytes) : Read Bytes := do
  let buffer ← lib.decode64 buffer64
  match concernHandlers concern with
  | none => failed "DecodeArgPayload invalid concern: " concern
  | some cncHdlr => do
    let resProto ← cncHdlr.decodeArg system command buffer
    resultProto2Json lib concernHandlers fuel cncHdlr resProto

def decodeResultPayload64Json (fuel : Nat) (concern : Bytes) (system : System) (command buffer64 : Bytes) : Read Bytes := do
  let buffer ← lib.decode64 buffer64
  match concernHandlers concern with
  | none => failed "DecodeResultPayload invalid concern: " concern
  | some cncHdlr => do
    let resProto ← cncHdlr.decodeResult system command buffer
    resultProto2Json lib concernHandlers fuel cncHdlr resProto

end

end Rocketcycle.Decode
