import Rocketcycle.Concern.Decode
import Rocketcycle.Concern.StoreWrites

/-!
# Records that can be read

What process commands write to the store can be unmarshalled again: they marshal it themselves, or
have parsed it, the instance of a `REFRESH_INSTANCE` apart, which depends on who has packed it.
-/

namespace Rocketcycle

open Command

variable {M : Type}

/-- Both parts of a record can be unmarshalled. -/
structure Concern.Reads (cnc : Concern M) (rec : InstanceRecord) : Prop where
  inst : ∃ instBytes inst, rec.inst = some instBytes ∧ cnc.unmarshal instBytes = .ok inst
  related : ∃ rel, cnc.parseRelated rec.related = .ok rel

def Concern.ReadsAll (cnc : Concern M) (store : InstanceStore) : Prop := ∀ key rec, store key = some rec → cnc.Reads rec

/-- So can what a call writes. -/
def Concern.ReadsCall (cnc : Concern M) : StoreCall → Prop
  | .set _ inst related o => cnc.Reads ⟨inst, related, o⟩
  | .setInstance _ inst o => cnc.Reads ⟨inst, none, o⟩
  | .setRelated _ related _ => ∃ rel, cnc.parseRelated related = .ok rel
  | .remove _ => True

/-- A payload in which an instance has been packed. -/
def Concern.Packs (cnc : Concern M) (payload : Option Bytes) : Prop :=
  ∃ instBytes relBytes packed inst, payload = some packed ∧ packPayloads (some instBytes) relBytes = some packed ∧
    cnc.unmarshal instBytes = .ok inst

section
variable {cnc : Concern M} {store : InstanceStore} {c : StoreCall} {payload : Option Bytes}

theorem Concern.Packs.wire (h : cnc.Packs payload) : cnc.Packs (wireBytes payload) := by
  obtain ⟨instBytes, relBytes, packed, inst, rfl, pack, parsed⟩ := h
  have ne := packPayloads_ne_nil pack
  have same : wireBytes (some packed) = some packed := wireBytes_eq_some.2 ⟨rfl, ne⟩
  exact ⟨instBytes, relBytes, packed, inst, same, pack, parsed⟩

/-- The instance of such a payload is unpacked as it was packed, unless it has no bytes. -/
theorem Concern.Packs.parse (h : cnc.Packs payload) (size : (payload.getD []).length < 2 ^ 32)
    {instBytes relBytes : Option Bytes} (parse : parsePayload payload = .ok (instBytes, relBytes)) :
    ∃ b inst, instBytes = some b ∧ b ≠ [] ∧ cnc.unmarshal b = .ok inst := by
  obtain ⟨b, rel, packed, inst, rfl, pack, parsed⟩ := h
  by_cases empty : b = []
  · subst empty
    obtain ⟨e, he⟩ := unpackPayloads_empty pack
    rw [parsePayload, if_pos (packPayloads_packed pack), he] at parse
    cases parse
  · rw [parsePayload_packPayloads pack empty size] at parse
    cases parse
    exact ⟨b, inst, rfl, empty, parsed⟩

theorem Concern.ReadsAll.put (h : cnc.ReadsAll store) {key : String} {rec : Option InstanceRecord}
    (hr : ∀ r, rec = some r → cnc.Reads r) : cnc.ReadsAll (store.put key rec) := by
  intro k r hk
  by_cases e : k = key
  · subst e
    exact hr r (by simpa using hk)
  · rw [InstanceStore.put_ne e] at hk
    exact h k r hk

/-- A call that writes what can be read leaves a store that can. -/
theorem Concern.ReadsAll.after (h : cnc.ReadsAll store) (hc : cnc.ReadsCall c) : cnc.ReadsAll (c.after store) := by
  cases c with
  | set key inst related o =>
    show cnc.ReadsAll (store.set key inst related o)
    have written : cnc.ReadsAll (store.put key (some ⟨inst, related, o⟩)) := by
      apply h.put
      rintro r ⟨⟩
      exact hc
    unfold InstanceStore.set
    split
    · split
      · exact h
      · exact written
    · exact written
  | setInstance key inst o =>
    show cnc.ReadsAll (store.setInstance key inst o)
    unfold InstanceStore.setInstance
    split
    · rename_i rec held
      split
      · exact h
      · apply h.put
        rintro r ⟨⟩
        exact ⟨hc.inst, (h key rec held).related⟩
    · apply h.put
      rintro r ⟨⟩
      exact hc
  | setRelated key related o =>
    unfold StoreCall.after StoreCall.perform InstanceStore.setRelated
    dsimp only
    split
    · rename_i store' ok
      split at ok
      · rename_i rec held
        split at ok
        · cases ok
          exact h
        · cases ok
          apply h.put
          rintro r ⟨⟩
          exact ⟨(h key rec held).inst, hc⟩
      · cases ok
    · exact h
  | remove key =>
    apply h.put
    rintro r ⟨⟩

end

/-! ## The writes of process commands -/

section
variable {pb : RelatedCodecs} {cnc : Concern M} {logic : LogicHandler M} {args : StepArgs} {call : Call}
  {store : InstanceStore} {c : StoreCall}

theorem toOption_ok {ε α : Type} {x : Except ε α} {a : α} (h : x.toOption = some a) : x = .ok a := by
  cases x with
  | ok b =>
    cases h
    rfl
  | error e => cases h

theorem parseRelated_nil : cnc.parseRelated none = .ok cnc.related.empty := rfl

/-- The related data of a record that can be read can be. -/
theorem Concern.ReadsAll.getRelated (h : cnc.ReadsAll store) (key : String) :
    ∃ rel, cnc.parseRelated (store.getRelated key) = .ok rel := by
  cases held : store key with
  | none =>
    rw [InstanceStore.getRelated_none held]
    exact ⟨_, parseRelated_nil⟩
  | some rec =>
    rw [InstanceStore.getRelated_some held]
    exact (h key rec held).related

theorem marshal_related (lossless : cnc.LosslessMessages) {rel : M} {relBytes : Bytes}
    (marshalled : cnc.related.marshal rel = .ok relBytes) : ∃ rel', cnc.parseRelated (some relBytes) = .ok rel' := by
  cases relBytes with
  | nil => exact ⟨_, rfl⟩
  | cons b bs => exact ⟨rel, lossless.related.unmarshal marshalled⟩

theorem refreshInstanceWrite_reads (h : cnc.ReadsAll store) (packs : cnc.Packs args.payload)
    (size : (args.payload.getD []).length < 2 ^ 32) (hw : Logic.refreshInstanceWrite pb cnc args store = some c) :
    cnc.ReadsCall c := by
  unfold Logic.refreshInstanceWrite at hw
  obtain ⟨⟨instBytes, relBytes⟩, parse, hw⟩ := Option.bind_eq_some_iff.1 hw
  obtain ⟨rel, related, hw⟩ := Option.bind_eq_some_iff.1 hw
  obtain ⟨relSteps, -, hw⟩ := Option.bind_eq_some_iff.1 hw
  cases hw
  obtain ⟨b, inst, rfl, -, parsed⟩ := packs.parse size (toOption_ok parse)
  refine ⟨⟨b, inst, rfl, parsed⟩, ?_⟩
  show ∃ rel, cnc.parseRelated (Logic.refreshedRelated store args.key relBytes) = .ok rel
  unfold Logic.refreshedRelated
  split
  · exact ⟨rel, toOption_ok related⟩
  · exact h.getRelated args.key

theorem setRelated_reads (lossless : cnc.LosslessMessages) {rel : M} {relBytes : Bytes} {changed : Bool}
    (marshalled : (cnc.related.marshal rel).toOption = some relBytes)
    (hw : (if changed then some (StoreCall.setRelated args.key (some relBytes) args.cmpdOffset) else none) = some c) :
    cnc.ReadsCall c := by
  split at hw
  · cases hw
    exact marshal_related lossless (toOption_ok marshalled)
  · cases hw

theorem commandWrite_reads (lossless : cnc.LosslessMessages) {cmd : ConcernCommand M}
    (hw : Logic.commandWrite pb cnc logic args store cmd = some c) : cnc.ReadsCall c := by
  unfold Logic.commandWrite at hw
  obtain ⟨instBytes, -, hw⟩ := Option.bind_eq_some_iff.1 hw
  obtain ⟨inst, -, hw⟩ := Option.bind_eq_some_iff.1 hw
  obtain ⟨⟨rel, _⟩, -, hw⟩ := Option.bind_eq_some_iff.1 hw
  obtain ⟨payloadIn, -, hw⟩ := Option.bind_eq_some_iff.1 hw
  obtain ⟨⟨inst', payloadOut⟩, -, hw⟩ := Option.bind_eq_some_iff.1 hw
  obtain ⟨payload, -, hw⟩ := Option.bind_eq_some_iff.1 hw
  obtain ⟨instSer, marshalled, hw⟩ := Option.bind_eq_some_iff.1 hw
  split at hw
  · unfold Logic.changedWrite at hw
    obtain ⟨⟨rel', relBytes⟩, -, hw⟩ := Option.bind_eq_some_iff.1 hw
    obtain ⟨relSteps, -, hw⟩ := Option.bind_eq_some_iff.1 hw
    cases hw
    exact ⟨⟨instSer, inst', rfl, lossless.inst.unmarshal (toOption_ok marshalled)⟩, ⟨_, parseRelated_nil⟩⟩
  · cases hw

/-- What a process command writes can be read, where a refresh has a packed instance. -/
theorem write_reads (lossless : cnc.LosslessMessages) (h : cnc.ReadsAll store)
    (refresh : call.command = refreshInstance → cnc.Packs call.args.payload ∧ (call.args.payload.getD []).length < 2 ^ 32)
    (hw : cnc.write pb logic call store = some c) : cnc.ReadsCall c := by
  unfold Concern.write at hw
  split at hw
  · cases hw
  unfold Logic.write at hw
  split at hw
  · rename_i isRefresh
    exact refreshInstanceWrite_reads h (refresh isRefresh).1 (refresh isRefresh).2 hw
  split at hw
  · unfold Logic.flushInstanceWrite at hw
    obtain ⟨packed, -, hw⟩ := Option.bind_eq_some_iff.1 hw
    split at hw
    · cases hw
      trivial
    · cases hw
  split at hw
  · cases hw
  split at hw
  · unfold Logic.requestRelatedWrite at hw
    obtain ⟨relReq, -, hw⟩ := Option.bind_eq_some_iff.1 hw
    obtain ⟨⟨rel, _⟩, -, hw⟩ := Option.bind_eq_some_iff.1 hw
    obtain ⟨⟨rel', changed⟩, -, hw⟩ := Option.bind_eq_some_iff.1 hw
    obtain ⟨relBytes, marshalled, hw⟩ := Option.bind_eq_some_iff.1 hw
    obtain ⟨relPayload, -, hw⟩ := Option.bind_eq_some_iff.1 hw
    exact setRelated_reads lossless marshalled hw
  split at hw
  · unfold Logic.refreshRelatedWrite at hw
    obtain ⟨relRsp, -, hw⟩ := Option.bind_eq_some_iff.1 hw
    obtain ⟨⟨rel, _⟩, -, hw⟩ := Option.bind_eq_some_iff.1 hw
    obtain ⟨⟨rel', changed⟩, -, hw⟩ := Option.bind_eq_some_iff.1 hw
    obtain ⟨relBytes, marshalled, hw⟩ := Option.bind_eq_some_iff.1 hw
    exact setRelated_reads lossless marshalled hw
  split at hw
  · cases hw
  · obtain ⟨cmd, -, hw⟩ := Option.bind_eq_some_iff.1 hw
    exact commandWrite_reads lossless hw

/-- So a store that can be read stays so. -/
theorem Concern.ReadsAll.written (lossless : cnc.LosslessMessages) (h : cnc.ReadsAll store)
    (refresh : call.command = refreshInstance → cnc.Packs call.args.payload ∧ (call.args.payload.getD []).length < 2 ^ 32) :
    cnc.ReadsAll (written store (cnc.write pb logic call store)) := by
  cases hw : cnc.write pb logic call store with
  | none => exact h
  | some c => exact h.after (write_reads lossless h refresh hw)

end

end Rocketcycle
