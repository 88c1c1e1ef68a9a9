import Rocketcycle.Concern.Logic
import Rocketcycle.Gen.Template
import Rocketcycle.Rkcy.RelatedWire
import Mathlib.Data.List.Find

/-!
# Where requests and refreshes go

A request for related data and a refresh of it carry the name of a field, and the concern that gets
them looks for that name among its own fields. What the generator checks of a relation does not see to
it that the name is found there, nor that it is found with the type of the sender.
-/

namespace Rocketcycle

section
variable {M : Type}

/-- The switch of `HandleRequestRelated`: the field that takes the request. Without pure relations the
contents of a request are not captured. -/
def Concern.requestTarget (cnc : Concern M) (relReq : RelatedRequest) : Except GoError (Option (RelatedField M)) :=
  if cnc.related.fields.any RelatedField.isPureRelCnc then
    match cnc.related.fields.find? fun fld => fld.isPureRelCnc && fld.relField = some relReq.field with
    | none => .error (.other s!"HandleRequestRelated: Invalid field '{relReq.field}''")
    | some fld =>
      if relReq.concern = fld.typeMsg.name then .ok (some fld)
      else .error (.other s!"HandleRequestRelated: Invalid type '{relReq.concern}' for field {fld.nameGo}, expecting '{fld.typeMsg.name}'")
  else .ok none

/-- A request that is refused by the switch is refused for that alone. -/
theorem Concern.handleRequestRelated_target (cnc : Concern M) (rel : M) (relReq : RelatedRequest) :
    cnc.handleRequestRelated rel relReq =
      match cnc.requestTarget relReq with
      | .error e => .error e
      | .ok none => .ok (rel, false)
      | .ok (some fld) => (fld.take rel relReq.payload).map fun rel => (rel, true) := by
  unfold Concern.handleRequestRelated Concern.requestTarget
  split
  · cases hf : cnc.related.fields.find? fun fld => fld.isPureRelCnc && fld.relField = some relReq.field with
    | none => rfl
    | some fld => by_cases sender : relReq.concern = fld.typeMsg.name <;> simp [sender]
  · rfl

/-- The switch of `HandleRefreshRelated`. -/
def Concern.refreshTarget (cnc : Concern M) (relRsp : RelatedResponse) : Except GoError (RelatedField M) :=
  match cnc.related.fields.find? fun fld => fld.nameGo = relRsp.field with
  | none => .error (.other s!"HandleRefreshRelated: Invalid field '{relRsp.field}''")
  | some fld =>
    if relRsp.concern = fld.typeMsg.name then .ok fld
    else .error (.other s!"HandleRefreshRelated: Invalid type '{relRsp.concern}' for field {fld.nameGo}, expecting '{fld.typeMsg.name}'")

theorem Concern.handleRefreshRelated_target (cnc : Concern M) (rel : M) (relRsp : RelatedResponse) :
    cnc.handleRefreshRelated rel relRsp =
      match cnc.refreshTarget relRsp with
      | .error e => .error e
      | .ok fld => (fld.take rel relRsp.payload).map fun rel => (rel, true) := by
  unfold Concern.handleRefreshRelated Concern.refreshTarget
  cases hf : cnc.related.fields.find? fun fld => fld.nameGo = relRsp.field with
  | none => rfl
  | some fld => by_cases sender : relRsp.concern = fld.typeMsg.name <;> simp [sender]

/-- What a concern answers a request, with its own instance and related data as the payload. -/
def Concern.reply (cnc : Concern M) (relReq : RelatedRequest) (relPayload : Bytes) : RelatedResponse :=
  ⟨cnc.name, relReq.field, some relPayload⟩

/-- A request that `RequestRelatedSteps` sends to a concern, as that unmarshals it. -/
def Concern.Requests (pb : RelatedCodecs) (cnc : Concern M) (target : String) (relReq : RelatedRequest) : Prop :=
  ∃ inst instBytes relBytes steps, cnc.requestRelatedSteps pb inst instBytes relBytes = .ok steps ∧
    ∃ s ∈ steps, s.concern = target ∧ pb.request.unmarshalOpt s.payload = .ok relReq

/-- A response that `RefreshRelatedSteps` sends to a concern, as that unmarshals it. -/
def Concern.Refreshes (pb : RelatedCodecs) (cnc : Concern M) (target : String) (relRsp : RelatedResponse) : Prop :=
  ∃ rel instKey instBytes relBytes steps, cnc.refreshRelatedSteps pb rel instKey instBytes relBytes = .ok steps ∧
    ∃ s ∈ steps, s.command = Command.refreshRelated ∧ s.concern = target ∧
      pb.response.unmarshalOpt s.payload = .ok relRsp

/-- What `a` sends to `b` about its relations, and `b` back to `a`, finds its field on the other side. -/
structure Routable (pb : RelatedCodecs) (a b : Concern M) : Prop where
  requests : ∀ relReq, a.Requests pb b.name relReq → ∃ target, b.requestTarget relReq = .ok target
  replies : ∀ relReq relPayload, a.Requests pb b.name relReq →
    ∃ target, a.refreshTarget (b.reply relReq relPayload) = .ok target
  refreshes : ∀ relRsp, b.Refreshes pb a.name relRsp → ∃ target, a.refreshTarget relRsp = .ok target

/-! ## What is sent -/

theorem packOrPanic_ok {p0 p1 : Option Bytes} {payload : Bytes} (h : packOrPanic p0 p1 = .ok payload) :
    wireBytes (some payload) = some payload := by
  unfold packOrPanic at h
  split at h
  · rename_i packed hp
    cases h
    obtain ⟨-, -, rfl⟩ := packPayloads_eq_some.1 hp
    rfl
  · cases h

theorem Codec.RoundTrips.marshal {α : Type} {codec : Codec α} {norm : α → α} (h : codec.RoundTrips norm) (a : α) :
    ∃ b, orErr (codec.marshal a) = .ok b ∧ codec.unmarshalOpt (some b) = .ok (norm a) := by
  obtain ⟨b, encoded, decoded⟩ := h a
  refine ⟨b, ?_, ?_⟩
  · unfold Codec.marshal
    rw [encoded]
    rfl
  · show (codec.decode b).mapError _ = _
    rw [decoded]
    rfl

variable {pb : RelatedCodecs} (lawful : pb.Lawful)
include lawful

/-- The request that goes out for one field. -/
theorem requestRelatedStep_sends (concern key id : String) {payload : Bytes}
    (packed : wireBytes (some payload) = some payload) (fld : RelatedField M) : ∃ b, requestRelatedStep pb concern key payload fld id =
        .ok { system := .process, concern := fld.typeMsg.name, command := Command.requestRelated, key := id,
              payload := some b } ∧
      pb.request.unmarshalOpt (some b) = .ok ⟨concern, key, fld.nameGo, some payload⟩ := by
  obtain ⟨b, marshalled, unmarshalled⟩ := lawful.request.marshal ⟨concern, key, fld.nameGo, some payload⟩
  refine ⟨b, ?_, ?_⟩
  · unfold requestRelatedStep
    rw [marshalled]
    rfl
  · rw [unmarshalled]
    simp only [packed]

/-- Requests go out for the fields with an `id_field`, under the names of these. -/
theorem Concern.requests_iff (cnc : Concern M) [Nonempty M] (target : String) :
    (∀ relReq, cnc.Requests pb target relReq →
        ∃ fld ∈ cnc.related.fields, fld.idField.isSome = true ∧ fld.typeMsg.name = target ∧
          relReq.concern = cnc.name ∧ relReq.field = fld.nameGo) ∧
      ∀ fld ∈ cnc.related.fields, fld.idField.isSome = true → fld.typeMsg.name = target →
        ∃ relReq, cnc.Requests pb target relReq ∧ relReq.concern = cnc.name ∧ relReq.field = fld.nameGo := by
  constructor
  · rintro relReq ⟨inst, instBytes, relBytes, steps, hsteps, s, hs, target, received⟩
    unfold Concern.requestRelatedSteps at hsteps
    split at hsteps
    · cases hp : packOrPanic instBytes relBytes with
      | error e => rw [hp] at hsteps; cases hsteps
      | ok payload =>
        rw [hp] at hsteps
        obtain ⟨⟨fld, idField⟩, hfld, step⟩ := (Early.mapM_mem hsteps).2 s hs
        obtain ⟨fld', hmem, hid⟩ := List.mem_filterMap.1 hfld
        obtain ⟨idField', some, same⟩ := Option.map_eq_some_iff.1 hid
        obtain ⟨rfl, rfl⟩ := Prod.mk.inj same
        obtain ⟨b, sent, unmarshalled⟩ :=
          requestRelatedStep_sends lawful cnc.name (cnc.key inst) (idField' inst) (packOrPanic_ok hp) fld'
        have hstep := sent.symm.trans step
        cases hstep
        rw [unmarshalled] at received
        cases received
        exact ⟨fld', hmem, by rw [some]; rfl, target, rfl, rfl⟩
    · cases hsteps
      cases hs
  · intro fld hmem hid target
    obtain ⟨idField, hid'⟩ := Option.isSome_iff_exists.1 hid
    obtain ⟨inst⟩ := ‹Nonempty M›
    have fwd : cnc.related.hasFwdCncs = true := List.any_eq_true.2 ⟨fld, hmem, hid⟩
    obtain ⟨payload, hp⟩ : ∃ payload, packOrPanic none none = .ok payload := ⟨_, rfl⟩
    let forward := cnc.related.fields.filterMap fun fld => fld.idField.map fun idField => (fld, idField)
    let send : RelatedField M × (M → String) → Reply Step := fun fwd =>
      requestRelatedStep pb cnc.name (cnc.key inst) payload fwd.1 (fwd.2 inst)
    have mem : (fld, idField) ∈ forward := List.mem_filterMap.2 ⟨fld, hmem, by rw [hid']; rfl⟩
    obtain ⟨steps, hsteps⟩ : ∃ steps, forward.mapM send = .ok steps := by
      apply Early.mapM_ok
      rintro ⟨fld, idField⟩ -
      obtain ⟨b, sent, -⟩ := requestRelatedStep_sends lawful cnc.name (cnc.key inst) (idField inst)
        (packOrPanic_ok hp) fld
      exact ⟨_, sent⟩
    obtain ⟨s, hs, step⟩ := (Early.mapM_mem hsteps).1 _ mem
    obtain ⟨b, sent, unmarshalled⟩ := requestRelatedStep_sends lawful cnc.name (cnc.key inst) (idField inst)
      (packOrPanic_ok hp) fld
    have hstep := sent.symm.trans step
    cases hstep
    refine ⟨_, ⟨inst, none, none, steps, ?_, _, hs, target, unmarshalled⟩, rfl, rfl⟩
    unfold Concern.requestRelatedSteps
    rw [if_pos fwd, hp]
    exact hsteps

/-- A step that refreshes `fld` on the other side, where it is known as `relField`. -/
structure Step.RefreshesField (pb : RelatedCodecs) (sender relField : String) (payload : Bytes) (fld : RelatedField M)
    (s : Step) : Prop where
  command : s.command = Command.refreshRelated
  concern : s.concern = fld.typeMsg.name
  carries : pb.response.unmarshalOpt s.payload = .ok ⟨sender, relField, some payload⟩

theorem refreshFieldSteps_sends (concern relField : String) {payload : Bytes}
    (packed : wireBytes (some payload) = some payload) (fld : RelatedField M) (items : List M) :
    ∃ more, refreshFieldSteps pb concern payload fld relField items = .ok more ∧
      (∀ s ∈ more, s.RefreshesField pb concern relField payload fld) ∧ (items ≠ [] → more ≠ []) := by
  obtain ⟨b, marshalled, unmarshalled⟩ := lawful.response.marshal ⟨concern, relField, some payload⟩
  simp only [packed] at unmarshalled
  have each : ∀ itm, ∃ s, (do
      let relRspBytes ← orErr (pb.response.marshal ⟨concern, relField, some payload⟩)
      return { system := .process, concern := fld.typeMsg.name, command := Command.refreshRelated,
               key := fld.typeMsg.key itm, payload := some relRspBytes } : Reply Step) = .ok s ∧
        s.RefreshesField pb concern relField payload fld := by
    intro itm
    rw [marshalled]
    exact ⟨_, rfl, rfl, rfl, unmarshalled⟩
  obtain ⟨more, hmore⟩ : ∃ more, refreshFieldSteps pb concern payload fld relField items = .ok more :=
    Early.mapM_ok fun itm _ => (each itm).imp fun _ h => h.1
  refine ⟨more, hmore, fun s hs => ?_, fun some none => ?_⟩
  · obtain ⟨itm, -, step⟩ := (Early.mapM_mem hmore).2 s hs
    obtain ⟨s', step', sends⟩ := each itm
    have same := step'.symm.trans step
    cases same
    exact sends
  · obtain ⟨itm, hitm⟩ := List.exists_mem_of_ne_nil items some
    obtain ⟨s, hs, -⟩ := (Early.mapM_mem hmore).1 itm hitm
    rw [none] at hs
    cases hs

/-- The fields with a `rel_field` are refreshed on the other side, under that name. -/
theorem refreshFieldsSteps_sends (concern instKey : String) {payload : Bytes}
    (packed : wireBytes (some payload) = some payload) (rel : M) (fields : List (RelatedField M)) (steps : List Step) :
    ∃ steps', refreshFieldsSteps pb concern instKey payload rel fields steps = .ok steps' ∧
      (∀ s ∈ steps', s ∈ steps ∨ s.command = Command.read ∨
        ∃ fld ∈ fields, ∃ relField, fld.relField = some relField ∧
          s.RefreshesField pb concern relField payload fld) ∧
      (∀ s ∈ steps, s ∈ steps') ∧
      ∀ fld ∈ fields, ∀ relField, fld.relField = some relField → fld.get rel ≠ [] →
        ∃ s ∈ steps', s.RefreshesField pb concern relField payload fld := by
  induction fields generalizing steps with
  | nil => exact ⟨steps, rfl, fun s hs => .inl hs, fun s hs => hs, by simp⟩
  | cons fld fields ih =>
    unfold refreshFieldsSteps
    cases hrel : fld.relField with
    | none =>
      obtain ⟨steps', run, origin, keeps, refreshed⟩ := ih steps
      refine ⟨steps', run, fun s hs => ?_, keeps, fun fld' hmem relField some => ?_⟩
      · rcases origin s hs with h | h | ⟨fld', hmem, h⟩
        · exact .inl h
        · exact .inr (.inl h)
        · exact .inr (.inr ⟨fld', List.mem_cons_of_mem _ hmem, h⟩)
      · rcases List.mem_cons.1 hmem with rfl | hmem
        · rw [hrel] at some
          cases some
        · exact refreshed fld' hmem relField some
    | some relField =>
      obtain ⟨more, hmore, sends, present⟩ :=
        refreshFieldSteps_sends lawful concern relField packed fld (fld.get rel)
      let read : Step := { system := .process, concern := concern, command := Command.read, key := instKey }
      let steps1 := if (steps ++ more).length > 0 then steps ++ more ++ [read] else steps ++ more
      have inside : ∀ s ∈ steps ++ more, s ∈ steps1 := by
        intro s hs
        show s ∈ if _ then _ else _
        split
        · exact List.mem_append_left _ hs
        · exact hs
      have only : ∀ s ∈ steps1, s ∈ steps ++ more ∨ s.command = Command.read := by
        intro s hs
        change s ∈ (if _ then _ else _) at hs
        split at hs
        · rcases List.mem_append.1 hs with hs | hs
          · exact .inl hs
          · rw [List.mem_singleton.1 hs]
            exact .inr rfl
        · exact .inl hs
      obtain ⟨steps', run, origin, keeps, refreshed⟩ := ih steps1
      refine ⟨steps', ?_, fun s hs => ?_, fun s hs => keeps s (inside s (List.mem_append_left _ hs)),
        fun fld' hmem relField' some some' => ?_⟩
      · show (refreshFieldSteps pb concern payload fld relField (fld.get rel) >>= fun more => _) = _
        rw [hmore]
        exact run
      · rcases origin s hs with h | h | ⟨fld', hmem, h⟩
        · rcases only s h with h | h
          · rcases List.mem_append.1 h with h | h
            · exact .inl h
            · exact .inr (.inr ⟨fld, List.mem_cons_self, relField, hrel, sends s h⟩)
          · exact .inr (.inl h)
        · exact .inr (.inl h)
        · exact .inr (.inr ⟨fld', List.mem_cons_of_mem _ hmem, h⟩)
      · rcases List.mem_cons.1 hmem with rfl | hmem
        · rw [hrel] at some
          cases some
          obtain ⟨s, hs⟩ := List.exists_mem_of_ne_nil more (present some')
          exact ⟨s, keeps s (inside s (List.mem_append_right _ hs)), sends s hs⟩
        · exact refreshed fld' hmem relField' some some'

theorem Concern.refreshes_iff (cnc : Concern M) (target : String) :
    (∀ relRsp, cnc.Refreshes pb target relRsp →
        ∃ fld ∈ cnc.related.fields, fld.relField = some relRsp.field ∧ fld.typeMsg.name = target ∧
          relRsp.concern = cnc.name) ∧
      ∀ fld ∈ cnc.related.fields, ∀ relField, fld.relField = some relField → fld.typeMsg.name = target →
        (∃ rel, fld.get rel ≠ []) →
          ∃ relRsp, cnc.Refreshes pb target relRsp ∧ relRsp.concern = cnc.name ∧ relRsp.field = relField := by
  constructor
  · rintro relRsp ⟨rel, instKey, instBytes, relBytes, steps, hsteps, s, hs, command, target, received⟩
    unfold Concern.refreshRelatedSteps at hsteps
    split at hsteps
    · cases hp : packOrPanic instBytes relBytes with
      | error e => rw [hp] at hsteps; cases hsteps
      | ok payload =>
        rw [hp] at hsteps
        obtain ⟨steps', run, origin, -, -⟩ := refreshFieldsSteps_sends lawful cnc.name instKey
          (packOrPanic_ok hp) rel cnc.related.fields []
        have same := run.symm.trans hsteps
        cases same
        rcases origin s hs with h | h | ⟨fld, hmem, relField, some, sends⟩
        · cases h
        · rw [h] at command
          exact absurd command (by decide)
        · have same := sends.carries.symm.trans received
          cases same
          exact ⟨fld, hmem, some, sends.concern.symm.trans target, rfl⟩
    · cases hsteps
      cases hs
  · rintro fld hmem relField some target ⟨rel, present⟩
    have rvs : cnc.related.hasRvsCncs = true := List.any_eq_true.2 ⟨fld, hmem, by rw [some]; rfl⟩
    obtain ⟨payload, hp⟩ : ∃ payload, packOrPanic none none = .ok payload := ⟨_, rfl⟩
    obtain ⟨steps, run, -, -, refreshed⟩ := refreshFieldsSteps_sends lawful cnc.name ""
      (packOrPanic_ok hp) rel cnc.related.fields []
    obtain ⟨s, hs, sends⟩ := refreshed fld hmem relField some present
    refine ⟨⟨cnc.name, relField, payload⟩, ⟨rel, "", none, none, steps, ?_, s, hs, sends.command,
      sends.concern.trans target, sends.carries⟩, rfl, rfl⟩
    unfold Concern.refreshRelatedSteps
    rw [if_pos rvs, hp]
    exact run

end

namespace Gen

/-- The case of a field name in the generated `HandleRequestRelated`. Go refuses a second case of one
name, so that it does not matter that the first is taken here. -/
def Related.requestCase (rel : Related) (fieldGo : String) : Option RelatedField :=
  rel.fields.find? fun fld => fld.isPureRelCnc && fld.relFieldGo = fieldGo

/-- The case of a field name in the generated `HandleRefreshRelated`. -/
def Related.refreshCase (rel : Related) (fieldGo : String) : Option RelatedField :=
  rel.fields.find? fun fld => fld.typeMsg.isConcern && fld.nameGo = fieldGo

/-- What the relations between two concerns, named `a` and `b`, have to say of each other. -/
structure RelationsAgree (relA relB : Related) (a b : String) : Prop where
  /-- If `b` has pure relations at all, a field of `a` with an `id_field` is the `rel_field` of one to `a`. -/
  requests : relB.hasPureRelCncs = true → ∀ fld ∈ relA.fields, fld.typeMsg.isConcern = true → fld.idFieldGo ≠ "" →
    fld.typeMsg.name = b → ∃ other, relB.requestCase fld.nameGo = some other ∧ other.typeMsg.name = a
  /-- The name of a field of `a` with an `id_field` is not also that of a field of another type. -/
  replies : ∀ fld ∈ relA.fields, fld.typeMsg.isConcern = true → fld.idFieldGo ≠ "" → fld.typeMsg.name = b →
    ∃ other, relA.refreshCase fld.nameGo = some other ∧ other.typeMsg.name = b
  /-- A `rel_field` of `b` is a field of the related message of `a`, and of type `b`. -/
  refreshes : ∀ fld ∈ relB.fields, fld.typeMsg.isConcern = true → fld.relFieldGo ≠ "" → fld.typeMsg.name = a →
    ∃ other, relA.refreshCase fld.relFieldGo = some other ∧ other.typeMsg.name = b

instance (relA relB : Related) (a b : String) : Decidable (RelationsAgree relA relB a b) :=
  let names (found : Option RelatedField) (name : String) : Bool := found.any fun other => other.typeMsg.name = name
  decidable_of_iff
    ((relB.hasPureRelCncs = true → ∀ fld ∈ relA.fields, fld.typeMsg.isConcern = true → fld.idFieldGo ≠ "" →
        fld.typeMsg.name = b → names (relB.requestCase fld.nameGo) a = true) ∧
      (∀ fld ∈ relA.fields, fld.typeMsg.isConcern = true → fld.idFieldGo ≠ "" → fld.typeMsg.name = b →
        names (relA.refreshCase fld.nameGo) b = true) ∧
      ∀ fld ∈ relB.fields, fld.typeMsg.isConcern = true → fld.relFieldGo ≠ "" → fld.typeMsg.name = a →
        names (relA.refreshCase fld.relFieldGo) b = true)
    (by
      simp only [names, Option.any_eq_true, decide_eq_true_eq]
      exact ⟨fun ⟨requests, replies, refreshes⟩ => ⟨requests, replies, refreshes⟩,
        fun h => ⟨h.requests, h.replies, h.refreshes⟩⟩)

section
variable {M : Type} (go : ProtoTypes M)

theorem RelatedField.Built.generate_pure {cat : Catalog} {fld : RelatedField} (built : fld.Built cat) :
    (fld.typeMsg.isConcern && (fld.generate go).isPureRelCnc) = fld.isPureRelCnc := by
  obtain ⟨typeMsg, pbField, rltn, rfl⟩ := built.made
  have rel : (goCamelCase rltn.relField = "") = (rltn.relField = "") := propext goCamelCase_eq_empty
  have id : (goCamelCase rltn.idField = "") = (rltn.idField = "") := propext goCamelCase_eq_empty
  simp only [Rocketcycle.RelatedField.isPureRelCnc, RelatedField.generate, relatedField, rel, id]
  by_cases hrel : rltn.relField = ""
  · simp [hrel]
  · by_cases hid : rltn.idField = "" <;> simp [hrel, hid]

theorem RelatedField.Built.relFieldGo_ne {cat : Catalog} {fld : RelatedField} (built : fld.Built cat)
    (pure : fld.isPureRelCnc = true) : fld.relFieldGo ≠ "" := by
  obtain ⟨typeMsg, pbField, rltn, rfl⟩ := built.made
  intro empty
  have : rltn.relField = "" := goCamelCase_eq_empty.1 empty
  simp [relatedField, this] at pure

/-- The generated fields that match, found among those of the catalog. -/
theorem Related.find_generate (rel : Related) (p : Rocketcycle.RelatedField M → Bool) (q : RelatedField → Bool)
    (same : ∀ fld ∈ rel.fields, (fld.typeMsg.isConcern && p (fld.generate go)) = q fld) :
    (rel.generate go).fields.find? p = (rel.fields.find? q).map (RelatedField.generate go) := by
  show ((rel.fields.filter fun fld => fld.typeMsg.isConcern).map (RelatedField.generate go)).find? p = _
  rw [List.find?_map, List.find?_filter]
  congr 1
  exact List.find?_congr fun fld hmem => by simpa using same fld hmem

theorem Related.Built.generate_any {cat : Catalog} {rel : Related} (built : rel.Built cat) :
    (rel.generate go).fields.any Rocketcycle.RelatedField.isPureRelCnc = rel.hasPureRelCncs := by
  rw [built.pure]
  show ((rel.fields.filter fun fld => fld.typeMsg.isConcern).map (RelatedField.generate go)).any _ = _
  rw [List.any_map, List.any_filter, Bool.eq_iff_iff, List.any_eq_true, List.any_eq_true]
  refine exists_congr fun fld => and_congr_right fun hmem => ?_
  rw [← (built.fields fld hmem).generate_pure go]
  rfl

/-- The generated switch of `HandleRequestRelated`. -/
theorem Related.Built.requestTarget_generate {cat : Catalog} {rel : Related} (built : rel.Built cat) (cnc : Concern)
    (relReq : RelatedRequest) :
    (cnc.generate go rel).requestTarget relReq =
      if rel.hasPureRelCncs then
        match rel.requestCase relReq.field with
        | none => .error (.other s!"HandleRequestRelated: Invalid field '{relReq.field}''")
        | some fld =>
          if relReq.concern = fld.typeMsg.name then .ok (some (fld.generate go))
          else .error (.other s!"HandleRequestRelated: Invalid type '{relReq.concern}' for field {fld.nameGo}, expecting '{fld.typeMsg.name}'")
      else .ok none := by
  have any : (cnc.generate go rel).related.fields.any Rocketcycle.RelatedField.isPureRelCnc = rel.hasPureRelCncs :=
    built.generate_any go
  have found : ((cnc.generate go rel).related.fields.find? fun fld => fld.isPureRelCnc && fld.relField = some relReq.field) =
      (rel.requestCase relReq.field).map (RelatedField.generate go) := by
    refine rel.find_generate go _ _ fun fld hmem => ?_
    have same := (built.fields fld hmem).generate_pure go
    rw [← Bool.and_assoc, same]
    cases pure : fld.isPureRelCnc with
    | false => rfl
    | true =>
      have := (built.fields fld hmem).relFieldGo_ne pure
      simp [RelatedField.generate, this]
  unfold Rocketcycle.Concern.requestTarget
  rw [any, found]
  cases rel.requestCase relReq.field <;> rfl

/-- The generated switch of `HandleRefreshRelated`. -/
theorem Related.refreshTarget_generate (rel : Related) (cnc : Concern) (relRsp : RelatedResponse) :
    (cnc.generate go rel).refreshTarget relRsp =
      match rel.refreshCase relRsp.field with
      | none => .error (.other s!"HandleRefreshRelated: Invalid field '{relRsp.field}''")
      | some fld =>
        if relRsp.concern = fld.typeMsg.name then .ok (fld.generate go)
        else .error (.other s!"HandleRefreshRelated: Invalid type '{relRsp.concern}' for field {fld.nameGo}, expecting '{fld.typeMsg.name}'") := by
  have found : ((cnc.generate go rel).related.fields.find? fun fld => fld.nameGo = relRsp.field) =
      (rel.refreshCase relRsp.field).map (RelatedField.generate go) :=
    rel.find_generate go _ _ fun fld _ => rfl
  unfold Rocketcycle.Concern.refreshTarget
  rw [found]
  cases rel.refreshCase relRsp.field <;> rfl

theorem Related.Built.accepts_request {cat : Catalog} {rel : Related} (built : rel.Built cat) (cnc : Concern)
    (relReq : RelatedRequest) :
    (∃ target, (cnc.generate go rel).requestTarget relReq = .ok target) ↔
      (rel.hasPureRelCncs = true → ∃ other, rel.requestCase relReq.field = some other ∧
        other.typeMsg.name = relReq.concern) := by
  rw [built.requestTarget_generate go]
  cases rel.hasPureRelCncs with
  | false => simp
  | true =>
    cases rel.requestCase relReq.field with
    | none => simp
    | some other => by_cases sender : relReq.concern = other.typeMsg.name <;> simp [sender, eq_comm]

theorem Related.accepts_refresh (rel : Related) (cnc : Concern) (relRsp : RelatedResponse) :
    (∃ target, (cnc.generate go rel).refreshTarget relRsp = .ok target) ↔
      ∃ other, rel.refreshCase relRsp.field = some other ∧ other.typeMsg.name = relRsp.concern := by
  rw [rel.refreshTarget_generate go]
  cases rel.refreshCase relRsp.field with
  | none => simp
  | some other => by_cases sender : relRsp.concern = other.typeMsg.name <;> simp [sender, eq_comm]

/-- The generated fields with an `id_field`. -/
theorem Related.forward_generate {rel : Related} {target : String} {P : String → Prop} :
    (∀ f ∈ (rel.generate go).fields, f.idField.isSome = true → f.typeMsg.name = target → P f.nameGo) ↔
      ∀ fld ∈ rel.fields, fld.typeMsg.isConcern = true → fld.idFieldGo ≠ "" → fld.typeMsg.name = target →
        P fld.nameGo := by
  constructor
  · intro h fld hmem concern id name
    exact h _ ((Related.mem_generate go).2 ⟨fld, hmem, concern, rfl⟩) (by simp [RelatedField.generate, id]) name
  · intro h f hf id name
    obtain ⟨fld, hmem, concern, rfl⟩ := (Related.mem_generate go).1 hf
    refine h fld hmem concern ?_ name
    intro empty
    simp [RelatedField.generate, empty] at id

/-- A field holds a message, of some related message. -/
theorem ProtoTypes.exists_present (fieldGo : String) : ∃ rel, go.getMessages fieldGo rel ≠ [] :=
  ⟨go.setMessages fieldGo go.empty [go.empty], by rw [go.getMessages_set]; simp⟩

variable {pb : RelatedCodecs} (lawful : pb.Lawful)
include lawful

theorem requests_routable_iff {cat : Catalog} (a b : Concern) (relA : Related) {relB : Related} (builtB : relB.Built cat) :
    (∀ relReq, (a.generate go relA).Requests pb b.name relReq →
        ∃ target, (b.generate go relB).requestTarget relReq = .ok target) ↔
      (relB.hasPureRelCncs = true → ∀ fld ∈ relA.fields, fld.typeMsg.isConcern = true → fld.idFieldGo ≠ "" →
        fld.typeMsg.name = b.name → ∃ other, relB.requestCase fld.nameGo = some other ∧ other.typeMsg.name = a.name) := by
  have : Nonempty M := ⟨go.empty⟩
  obtain ⟨sent, sends⟩ := (a.generate go relA).requests_iff lawful b.name
  constructor
  · intro h pure
    rw [← Related.forward_generate go (P := fun fieldGo =>
      ∃ other, relB.requestCase fieldGo = some other ∧ other.typeMsg.name = a.name)]
    intro f hf id name
    obtain ⟨relReq, requests, concern, field⟩ := sends f hf id name
    have := (builtB.accepts_request go b relReq).1 (h relReq requests) pure
    rwa [concern, field] at this
  · intro h relReq requests
    rw [builtB.accepts_request go]
    intro pure
    obtain ⟨f, hf, id, name, concern, field⟩ := sent relReq requests
    rw [concern, field]
    exact (Related.forward_generate go (P := fun fieldGo =>
      ∃ other, relB.requestCase fieldGo = some other ∧ other.typeMsg.name = a.name)).2 (h pure) f hf id name

theorem replies_routable_iff (a b : Concern) (relA relB : Related) :
    (∀ relReq relPayload, (a.generate go relA).Requests pb b.name relReq →
        ∃ target, (a.generate go relA).refreshTarget ((b.generate go relB).reply relReq relPayload) = .ok target) ↔
      ∀ fld ∈ relA.fields, fld.typeMsg.isConcern = true → fld.idFieldGo ≠ "" → fld.typeMsg.name = b.name →
        ∃ other, relA.refreshCase fld.nameGo = some other ∧ other.typeMsg.name = b.name := by
  have : Nonempty M := ⟨go.empty⟩
  obtain ⟨sent, sends⟩ := (a.generate go relA).requests_iff lawful b.name
  rw [← Related.forward_generate go (P := fun fieldGo =>
    ∃ other, relA.refreshCase fieldGo = some other ∧ other.typeMsg.name = b.name)]
  constructor
  · intro h f hf id name
    obtain ⟨relReq, requests, -, field⟩ := sends f hf id name
    have := (relA.accepts_refresh go a _).1 (h relReq [] requests)
    rw [← field]
    exact this
  · intro h relReq relPayload requests
    obtain ⟨f, hf, id, name, -, field⟩ := sent relReq requests
    rw [relA.accepts_refresh go]
    show ∃ other, relA.refreshCase relReq.field = some other ∧ _
    rw [field]
    exact h f hf id name

theorem refreshes_routable_iff (a b : Concern) (relA relB : Related) :
    (∀ relRsp, (b.generate go relB).Refreshes pb a.name relRsp →
        ∃ target, (a.generate go relA).refreshTarget relRsp = .ok target) ↔
      ∀ fld ∈ relB.fields, fld.typeMsg.isConcern = true → fld.relFieldGo ≠ "" → fld.typeMsg.name = a.name →
        ∃ other, relA.refreshCase fld.relFieldGo = some other ∧ other.typeMsg.name = b.name := by
  obtain ⟨sent, sends⟩ := (b.generate go relB).refreshes_iff lawful a.name
  constructor
  · intro h fld hmem concern rel name
    have hf : fld.generate go ∈ (b.generate go relB).related.fields :=
      (Related.mem_generate go).2 ⟨fld, hmem, concern, rfl⟩
    have known : (fld.generate go).relField = some fld.relFieldGo := by simp [RelatedField.generate, rel]
    obtain ⟨relRsp, refreshes, sender, field⟩ := sends _ hf _ known name (go.exists_present fld.nameGo)
    have := (relA.accepts_refresh go a relRsp).1 (h relRsp refreshes)
    rwa [sender, field] at this
  · intro h relRsp refreshes
    obtain ⟨f, hf, known, name, sender⟩ := sent relRsp refreshes
    obtain ⟨fld, hmem, concern, rfl⟩ := (Related.mem_generate go).1 hf
    have rel : fld.relFieldGo ≠ "" := by
      intro empty
      simp [RelatedField.generate, empty] at known
    have field : relRsp.field = fld.relFieldGo := by
      have generated : (fld.generate go).relField = some fld.relFieldGo := by simp [RelatedField.generate, rel]
      exact (Option.some.inj (generated.symm.trans known)).symm
    rw [relA.accepts_refresh go, field, sender]
    exact h fld hmem concern rel name

/-- What the concerns of an accepted catalog send each other is accepted if and only if their
relations agree. The concern that is sent to always has handlers for it. -/
theorem relations_routable_iff {pbFiles : List FileDescriptorProto} {cat : Catalog}
    (accepted : buildCatalog pbFiles = .ok cat) {a b : Concern} (ha : a ∈ cat.concerns) (hb : b ∈ cat.concerns)
    {relA : Related} (hrelA : a.related = some relA) :
    (∀ fld ∈ relA.fields, fld.typeMsg.isConcern = true → fld.typeMsg.name = b.name →
        ∃ relB, b.related = some relB) ∧
      ∀ relB, b.related = some relB →
        (Routable pb (a.generate go relA) (b.generate go relB) ↔ RelationsAgree relA relB a.name b.name) := by
  obtain ⟨built, related⟩ := buildCatalog_accepted accepted
  have builtA := built a ha relA hrelA
  constructor
  · intro fld hmem concern name
    obtain ⟨relMsg, found⟩ := (builtA.fields fld hmem).related concern
    exact related b hb relMsg (name ▸ found)
  · intro relB hrelB
    have requests := requests_routable_iff go lawful a b relA (built b hb relB hrelB)
    have replies := replies_routable_iff go lawful a b relA relB
    have refreshes := refreshes_routable_iff go lawful a b relA relB
    constructor
    · intro h
      exact ⟨requests.1 h.requests, replies.1 h.replies, refreshes.1 h.refreshes⟩
    · intro h
      exact ⟨requests.2 h.requests, replies.2 h.replies, refreshes.2 h.refreshes⟩

end

/-! ## The relations of a game -/

/-- A message by its fields. -/
inductive SampleMessage where
  | mk (strings : List (String × String)) (messages : List (String × List SampleMessage))

/-- Messages of which only the empty ones are ever marshalled. -/
def sampleTypes : ProtoTypes SampleMessage where
  codec _ :=
    { encode := fun
        | .mk [] [] => .ok []
        | _ => .error "not a message of this sample"
      decode := fun
        | [] => .ok (.mk [] [])
        | _ => .error "not a message of this sample" }
  empty := .mk [] []
  getString := fun fieldGo (.mk strings _) => (strings.lookup fieldGo).getD ""
  setString := fun fieldGo (.mk strings messages) value => .mk ((fieldGo, value) :: strings) messages
  getMessages := fun fieldGo (.mk _ messages) => (messages.lookup fieldGo).getD []
  setMessages := fun fieldGo (.mk strings messages) items => .mk strings ((fieldGo, items) :: messages)
  getMessages_set := by
    rintro fieldGo ⟨strings, messages⟩ itm
    simp

def keyField : FieldDescriptorProto := { name := "id", type := .string, isKey := true }

def playerPb : DescriptorProto :=
  { name := "Player", isConcern := true,
    field := [keyField, ⟨"username", .string, "", false, false, none⟩, ⟨"active", .other, "", false, false, none⟩,
      ⟨"limits_id", .string, "", false, false, none⟩] }

def limitsPb : DescriptorProto :=
  { name := "Limits", isConfig := true, field := [keyField, ⟨"max_characters_per_player", .other, "", false, false, none⟩] }

def characterPb : DescriptorProto :=
  { name := "Character", isConcern := true,
    field := [keyField, ⟨"player_id", .string, "", false, false, none⟩, ⟨"fullname", .string, "", false, false, none⟩] }

/-- The related messages of players and characters, with the `rel_field` of the characters. -/
def relationshipsPb (relField : String) : List DescriptorProto :=
  [{ name := "PlayerRelated",
     field := [keyField, ⟨"characters", .message, ".pb.Character", true, false, some { relField := relField }⟩,
       ⟨"limits", .message, ".pb.Limits", false, false, some { idField := "limits_id" }⟩] },
   { name := "CharacterRelated",
     field := [keyField,
       ⟨"player", .message, ".pb.Player", false, false, some { idField := "player_id", relField := "characters" }⟩] }]

/-- A third concern, that refers to players. -/
def guildPb : List DescriptorProto :=
  [{ name := "Guild", isConcern := true, field := [keyField, ⟨"leader_id", .string, "", false, false, none⟩] },
   { name := "GuildRelated",
     field := [keyField, ⟨"leader", .message, ".pb.Player", false, false, some { idField := "leader_id" }⟩] }]

def rpgFiles (relField : String) (more : List DescriptorProto) : List FileDescriptorProto :=
  [⟨some "pb", [playerPb, limitsPb, characterPb] ++ relationshipsPb relField ++ more, []⟩]

def sampleCatalog (relField : String) (more : List DescriptorProto) : Catalog :=
  ((buildCatalog (rpgFiles relField more)).toOption).getD {}

def sampleConcern (cat : Catalog) (name : String) : Concern :=
  (cat.concerns.find? fun cnc => cnc.name = name).getD ⟨"", ⟨"", none, ⟨"", [], false, false⟩, "", "", false, false, false⟩, none, []⟩

def sampleRelated (cat : Catalog) (name : String) : Related :=
  (sampleConcern cat name).related.getD { msg := (sampleConcern cat name).msg }

theorem relations_routable_rpg :
    Routable relatedCodecs
      ((sampleConcern (sampleCatalog "player" []) "Character").generate sampleTypes
        (sampleRelated (sampleCatalog "player" []) "Character"))
      ((sampleConcern (sampleCatalog "player" []) "Player").generate sampleTypes
        (sampleRelated (sampleCatalog "player" []) "Player")) := by
  let cat := sampleCatalog "player" []
  let a := sampleConcern cat "Character"
  let b := sampleConcern cat "Player"
  obtain ⟨accepted, ha, hb, hrelA, hrelB⟩ : buildCatalog (rpgFiles "player" []) = .ok cat ∧ a ∈ cat.concerns ∧
      b ∈ cat.concerns ∧ a.related = some (sampleRelated cat "Character") ∧
      b.related = some (sampleRelated cat "Player") := by decide +kernel
  have agree : RelationsAgree (sampleRelated cat "Character") (sampleRelated cat "Player") a.name b.name := by
    decide +kernel
  exact ((relations_routable_iff sampleTypes relatedCodecs_lawful accepted ha hb hrelA).2 _ hrelB).2 agree

/-- A guild asks its leader, who has characters and so takes requests of characters only. -/
theorem leader_refused :
    ∃ cat a b relA relB relReq, buildCatalog (rpgFiles "player" guildPb) = .ok cat ∧
      a ∈ cat.concerns ∧ b ∈ cat.concerns ∧ a.related = some relA ∧ b.related = some relB ∧
      (a.generate sampleTypes relA).Requests relatedCodecs b.name relReq ∧
      ∀ rel, (b.generate sampleTypes relB).handleRequestRelated rel relReq =
        .error (.other "HandleRequestRelated: Invalid field 'Leader''") := by
  have : Nonempty SampleMessage := ⟨.mk [] []⟩
  let cat := sampleCatalog "player" guildPb
  let a := sampleConcern cat "Guild"
  let b := sampleConcern cat "Player"
  let relA := sampleRelated cat "Guild"
  let relB := sampleRelated cat "Player"
  let leader := relA.fields.getD 0 (relatedField a.msg keyField {})
  obtain ⟨accepted, ha, hb, hrelA, hrelB⟩ : buildCatalog (rpgFiles "player" guildPb) = .ok cat ∧
      a ∈ cat.concerns ∧ b ∈ cat.concerns ∧ a.related = some relA ∧ b.related = some relB := by decide +kernel
  obtain ⟨hmem, concern, id, type, goName⟩ : leader ∈ relA.fields ∧ leader.typeMsg.isConcern = true ∧
      leader.idFieldGo ≠ "" ∧ leader.typeMsg.name = b.name ∧ leader.nameGo = "Leader" := by decide +kernel
  obtain ⟨pure, none⟩ : relB.hasPureRelCncs = true ∧ relB.requestCase "Leader" = none := by decide +kernel
  have generated : leader.generate sampleTypes ∈ (a.generate sampleTypes relA).related.fields :=
    (Related.mem_generate sampleTypes).2 ⟨leader, hmem, concern, rfl⟩
  obtain ⟨relReq, requests, -, field⟩ := ((a.generate sampleTypes relA).requests_iff relatedCodecs_lawful b.name).2
    _ generated (by simp [RelatedField.generate, id]) type
  refine ⟨cat, a, b, relA, relB, relReq, accepted, ha, hb, hrelA, hrelB, requests, fun rel => ?_⟩
  have built := (buildCatalog_accepted accepted).built b hb _ hrelB
  have name : relReq.field = "Leader" := field.trans goName
  rw [Rocketcycle.Concern.handleRequestRelated_target, built.requestTarget_generate sampleTypes, name, pure, none]
  rfl

/-- A `rel_field` that is found in the message of the characters, and not in their related message. -/
theorem player_id_refused :
    ∃ cat a b relA relB relRsp, buildCatalog (rpgFiles "player_id" []) = .ok cat ∧
      a ∈ cat.concerns ∧ b ∈ cat.concerns ∧ a.related = some relA ∧ b.related = some relB ∧
      (b.generate sampleTypes relB).Refreshes relatedCodecs a.name relRsp ∧
      ∀ rel, (a.generate sampleTypes relA).handleRefreshRelated rel relRsp =
        .error (.other "HandleRefreshRelated: Invalid field 'PlayerId''") := by
  let cat := sampleCatalog "player_id" []
  let a := sampleConcern cat "Character"
  let b := sampleConcern cat "Player"
  let relA := sampleRelated cat "Character"
  let relB := sampleRelated cat "Player"
  let characters := relB.fields.getD 0 (relatedField a.msg keyField {})
  obtain ⟨accepted, ha, hb, hrelA, hrelB⟩ : buildCatalog (rpgFiles "player_id" []) = .ok cat ∧
      a ∈ cat.concerns ∧ b ∈ cat.concerns ∧ a.related = some relA ∧ b.related = some relB := by decide +kernel
  obtain ⟨hmem, concern, rel, type⟩ : characters ∈ relB.fields ∧ characters.typeMsg.isConcern = true ∧
      characters.relFieldGo = "PlayerId" ∧ characters.typeMsg.name = a.name := by decide +kernel
  have none : relA.refreshCase "PlayerId" = none := by decide +kernel
  have generated : characters.generate sampleTypes ∈ (b.generate sampleTypes relB).related.fields :=
    (Related.mem_generate sampleTypes).2 ⟨characters, hmem, concern, rfl⟩
  have known : (characters.generate sampleTypes).relField = some "PlayerId" := by
    simp [RelatedField.generate, rel]
  obtain ⟨relRsp, refreshes, -, field⟩ := ((b.generate sampleTypes relB).refreshes_iff relatedCodecs_lawful a.name).2
    _ generated "PlayerId" known type (sampleTypes.exists_present characters.nameGo)
  refine ⟨cat, a, b, relA, relB, relRsp, accepted, ha, hb, hrelA, hrelB, refreshes, fun rel => ?_⟩
  rw [Rocketcycle.Concern.handleRefreshRelated_target, Related.refreshTarget_generate sampleTypes, field, none]
  rfl

/-- The generator accepts schemas whose requests, or whose refreshes, the generated code refuses. -/
theorem relations_refused :
    (∃ pbFiles cat a b relA relB relReq, buildCatalog pbFiles = .ok cat ∧
      a ∈ cat.concerns ∧ b ∈ cat.concerns ∧ a.related = some relA ∧ b.related = some relB ∧
      (a.generate sampleTypes relA).Requests relatedCodecs b.name relReq ∧
      ∀ rel, (b.generate sampleTypes relB).handleRequestRelated rel relReq =
        .error (.other "HandleRequestRelated: Invalid field 'Leader''")) ∧
    ∃ pbFiles cat a b relA relB relRsp, buildCatalog pbFiles = .ok cat ∧
      a ∈ cat.concerns ∧ b ∈ cat.concerns ∧ a.related = some relA ∧ b.related = some relB ∧
      (b.generate sampleTypes relB).Refreshes relatedCodecs a.name relRsp ∧
      ∀ rel, (a.generate sampleTypes relA).handleRefreshRelated rel relRsp =
        .error (.other "HandleRefreshRelated: Invalid field 'PlayerId''") :=
  ⟨⟨_, leader_refused⟩, ⟨_, player_id_refused⟩⟩

end Gen

end Rocketcycle
