import Rocketcycle.Apecs.Runner
import Rocketcycle.Rkcy.TxnWire

/-!
# The related messages on the wire

`RelatedRequest` and `RelatedResponse` of `pkg/rkcypb/apecs.pb.go`, as `proto.Marshal` writes them
and `proto.Unmarshal` reads them, except that a group, which neither of them has, is refused. The steps
of a concern carry them to other concerns. A payload without bytes is not written, and so is read as
none.
-/

namespace Rocketcycle

open Wire

/-- What is marshalled is unmarshalled, up to a normal form. -/
def Codec.RoundTrips {α : Type} (codec : Codec α) (norm : α → α) : Prop :=
  ∀ a, ∃ b, codec.encode a = .ok b ∧ codec.decode b = .ok (norm a)

/-- The codecs keep what they are given, an empty payload being read as none. -/
structure RelatedCodecs.Lawful (pb : RelatedCodecs) : Prop where
  request : pb.request.RoundTrips fun relReq => { relReq with payload := wireBytes relReq.payload }
  response : pb.response.RoundTrips fun relRsp => { relRsp with payload := wireBytes relRsp.payload }

/-- A message is written in its format. Records that are read but not taken over have a text that is
no UTF-8. -/
def Codec.ofFormat {α : Type} (f : Format α) : Codec α where
  encode a := .ok (f.encode a)
  decode b :=
    match f.decode b with
    | some a => .ok a
    | none =>
      if (readRecords b.length b).isSome then .error "string field contains invalid UTF-8"
      else .error "cannot parse invalid wire-format data"

/-- A format that can write every value makes a codec that reads them back in their normal form. -/
theorem Codec.ofFormat_roundTrips {α : Type} {f : Format α} (ok : ∀ a, f.ok a) : (ofFormat f).RoundTrips f.norm := by
  intro a
  refine ⟨f.encode a, rfl, ?_⟩
  unfold ofFormat
  simp only [Format.decode_encode (ok a)]

/-! ## Requests and responses -/

theorem relatedRequestFormat_norm (relReq : RelatedRequest) :
    relatedRequestFormat.norm relReq = { relReq with payload := wireBytes relReq.payload } := by
  simp [relatedRequestFormat, takeOver, bytes_norm]

theorem relatedResponseFormat_norm (relRsp : RelatedResponse) :
    relatedResponseFormat.norm relRsp = { relRsp with payload := wireBytes relRsp.payload } := by
  simp [relatedResponseFormat, takeOver, bytes_norm]

/-- The codecs of the two messages. -/
def relatedCodecs : RelatedCodecs := ⟨.ofFormat relatedRequestFormat, .ofFormat relatedResponseFormat⟩

theorem relatedCodecs_lawful : relatedCodecs.Lawful where
  request := by
    rw [← funext relatedRequestFormat_norm]
    exact Codec.ofFormat_roundTrips fun relReq => by simp [relatedRequestFormat]
  response := by
    rw [← funext relatedResponseFormat_norm]
    exact Codec.ofFormat_roundTrips fun relRsp => by simp [relatedResponseFormat]

end Rocketcycle
