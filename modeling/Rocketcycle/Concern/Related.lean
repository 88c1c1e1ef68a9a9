import Rocketcycle.Concern.Schema

/-!
# Related data

The functions of the template `rkcy.go.tmpl` on the related message of a concern: the requests
that go out when an instance is created, the refreshes that go out when one changes, and what a
concern does with either when it arrives.
-/

namespace Rocketcycle

open Command

variable {M : Type}

/-- `GetRelated`: the related message of a key, and its bytes as the store has them. -/
def Concern.getRelated (cnc : Concern M) (instKey : String) (instanceStore : InstanceStore) :
    Except GoError (M × Option Bytes) :=
  match instanceStore.getRelated instKey with
  | none => .ok (cnc.related.empty, none)
  | some relBytes => (cnc.related.unmarshal relBytes).map fun rel => (rel, some relBytes)

/-- The related message of a payload: without bytes it is empty. -/
def Concern.parseRelated (cnc : Concern M) : Option Bytes → Except GoError M
  | some (b :: bs) => cnc.related.unmarshal (b :: bs)
  | _ => .ok cnc.related.empty

theorem Concern.parseRelated_plain (cnc : Concern M) (relBytes : Option Bytes) :
    PlainErrors (cnc.parseRelated relBytes) := by
  unfold Concern.parseRelated
  split
  · exact cnc.related.unmarshal_plain _
  · exact plainErrors_ok _

def RelatedMessage.hasFwdCncs (rel : RelatedMessage M) : Bool := rel.fields.any fun fld => fld.idField.isSome

def RelatedMessage.hasRvsCncs (rel : RelatedMessage M) : Bool := rel.fields.any fun fld => fld.relField.isSome

/-- `PackPayloads` as part of a function that may panic. -/
def packOrPanic (payload0 payload1 : Option Bytes) : Reply Bytes :=
  match packPayloads payload0 payload1 with
  | some packed => .ok packed
  | none => .error (.panic .packedPayload)

def orErr {α : Type} : Except GoError α → Reply α
  | .ok a => .ok a
  | .error e => .error (.err e)

/-- The request for one field. -/
def requestRelatedStep (pb : RelatedCodecs) (concern key : String) (payload : Bytes) (fld : RelatedField M)
    (id : String) : Reply Step := do
  let relReqBytes ← orErr (pb.request.marshal ⟨concern, key, fld.nameGo, some payload⟩)
  return { system := .process, concern := fld.typeMsg.name, command := requestRelated, key := id,
           payload := some relReqBytes }

def Concern.requestRelatedSteps (pb : RelatedCodecs) (cnc : Concern M) (inst : M)
    (instBytes relBytes : Option Bytes) : Reply (List Step) :=
  if cnc.related.hasFwdCncs then do
    let payload ← packOrPanic instBytes relBytes
    let forward := cnc.related.fields.filterMap fun fld => fld.idField.map fun idField => (fld, idField)
    forward.mapM fun (fld, idField) => requestRelatedStep pb cnc.name (cnc.key inst) payload fld (idField inst)
  else .ok []

/-- The refreshes of one field, `relField` being the name the other side knows it by. -/
def refreshFieldSteps (pb : RelatedCodecs) (concern : String) (payload : Bytes) (fld : RelatedField M)
    (relField : String) (items : List M) : Reply (List Step) :=
  items.mapM fun itm => do
    let relRspBytes ← orErr (pb.response.marshal ⟨concern, relField, some payload⟩)
    return { system := .process, concern := fld.typeMsg.name, command := refreshRelated,
             key := fld.typeMsg.key itm, payload := some relRspBytes }

/-- The fields from one on. After every field the instance itself is read again, so that the last
result of the steps has the type of this concern. -/
def refreshFieldsSteps (pb : RelatedCodecs) (concern instKey : String) (payload : Bytes) (rel : M) :
    List (RelatedField M) → List Step → Reply (List Step)
  | [], steps => .ok steps
  | fld :: fields, steps =>
    match fld.relField with
    | none => refreshFieldsSteps pb concern instKey payload rel fields steps
    | some relField => do
      let more ← refreshFieldSteps pb concern payload fld relField (fld.get rel)
      let steps := steps ++ more
      let steps := if steps.length > 0 then
          steps ++ [{ system := .process, concern := concern, command := read, key := instKey }]
        else steps
      refreshFieldsSteps pb concern instKey payload rel fields steps

def Concern.refreshRelatedSteps (pb : RelatedCodecs) (cnc : Concern M) (rel : M) (instKey : String)
    (instBytes relBytes : Option Bytes) : Reply (List Step) :=
  if cnc.related.hasRvsCncs then do
    let payload ← packOrPanic instBytes relBytes
    refreshFieldsSteps pb cnc.name instKey payload rel cnc.related.fields []
  else .ok []

/-- `UpsertRelated`. -/
def upsertRelated (key : M → String) (items : List M) (msg : M) : List M :=
  match items.findIdx? fun itm => key itm = key msg with
  | none => items ++ [msg]
  | some idx => items.set idx msg

/-- The instance of a packed payload takes its place in a field. -/
def RelatedField.take (fld : RelatedField M) (rel : M) (payload : Option Bytes) : Except GoError M := do
  let (instBytes, _) ← unpackPayloads payload
  let inst ← fld.typeMsg.unmarshalOpt instBytes
  return if fld.isRepeated then fld.set rel (upsertRelated fld.typeMsg.key (fld.get rel) inst)
    else fld.set rel [inst]

/-- The related message after a request, and whether it changed. -/
def Concern.handleRequestRelated (cnc : Concern M) (rel : M) (relReq : RelatedRequest) :
    Except GoError (M × Bool) :=
  if cnc.related.fields.any RelatedField.isPureRelCnc then
    match cnc.related.fields.find? fun fld => fld.isPureRelCnc && fld.relField = some relReq.field with
    | none => .error (.other s!"HandleRequestRelated: Invalid field '{relReq.field}''")
    | some fld =>
      if relReq.concern = fld.typeMsg.name then (fld.take rel relReq.payload).map fun rel => (rel, true)
      else .error (.other s!"HandleRequestRelated: Invalid type '{relReq.concern}' for field {fld.nameGo}, expecting '{fld.typeMsg.name}'")
  else .ok (rel, false)

def Concern.handleRefreshRelated (cnc : Concern M) (rel : M) (relRsp : RelatedResponse) :
    Except GoError (M × Bool) :=
  match cnc.related.fields.find? fun fld => fld.nameGo = relRsp.field with
  | none => .error (.other s!"HandleRefreshRelated: Invalid field '{relRsp.field}''")
  | some fld =>
    if relRsp.concern = fld.typeMsg.name then (fld.take rel relRsp.payload).map fun rel => (rel, true)
    else .error (.other s!"HandleRefreshRelated: Invalid type '{relRsp.concern}' for field {fld.nameGo}, expecting '{fld.typeMsg.name}'")

/-! ## The steps they add -/

/-- A step that refreshes an instance's relations, or reads it again. -/
def Step.IsRefresh (concern instKey : String) (s : Step) : Prop :=
  s.system = .process ∧ s.result = none ∧ s.cmpdOffset = none ∧
    (s.command = refreshRelated ∨ s.command = read ∧ s.concern = concern ∧ s.key = instKey)

theorem refreshFieldSteps_all {pb : RelatedCodecs} {concern : String} {payload : Bytes} {fld : RelatedField M}
    {relField instKey : String} {items : List M} {steps : List Step}
    (h : refreshFieldSteps pb concern payload fld relField items = .ok steps) :
    ∀ s ∈ steps, s.IsRefresh concern instKey := by
  refine Early.mapM_forall (Step.IsRefresh concern instKey) ?_ h
  intro itm step hstep
  cases hm : pb.response.marshal ⟨concern, relField, some payload⟩ with
  | error e => rw [hm] at hstep; cases hstep
  | ok b =>
    rw [hm] at hstep
    cases hstep
    exact ⟨rfl, rfl, rfl, .inl rfl⟩

theorem refreshFieldsSteps_all {pb : RelatedCodecs} {concern instKey : String} {payload : Bytes} {rel : M}
    {fields : List (RelatedField M)} {steps steps' : List Step}
    (h : refreshFieldsSteps pb concern instKey payload rel fields steps = .ok steps')
    (before : ∀ s ∈ steps, s.IsRefresh concern instKey) : ∀ s ∈ steps', s.IsRefresh concern instKey := by
  induction fields generalizing steps with
  | nil => cases h; exact before
  | cons fld fields ih =>
    unfold refreshFieldsSteps at h
    split at h
    · exact ih h before
    rename_i relField _
    cases hf : refreshFieldSteps pb concern payload fld relField (fld.get rel) with
    | error e => rw [hf] at h; cases h
    | ok more =>
      rw [hf] at h
      have both : ∀ s ∈ steps ++ more, s.IsRefresh concern instKey := by
        intro s hs
        rcases List.mem_append.1 hs with hs | hs
        · exact before s hs
        · exact refreshFieldSteps_all hf s hs
      apply ih h
      intro s hs
      split at hs
      · rcases List.mem_append.1 hs with hs | hs
        · exact both s hs
        · rw [List.mem_singleton.1 hs]
          exact ⟨rfl, rfl, rfl, .inr ⟨rfl, rfl, rfl⟩⟩
      · exact both s hs

/-- A changed instance is followed by refreshes of its relations, and by reads of itself. -/
theorem refreshRelatedSteps_all {pb : RelatedCodecs} {cnc : Concern M} {rel : M} {instKey : String}
    {instBytes relBytes : Option Bytes} {steps : List Step}
    (h : cnc.refreshRelatedSteps pb rel instKey instBytes relBytes = .ok steps) :
    ∀ s ∈ steps, s.IsRefresh cnc.name instKey := by
  unfold Concern.refreshRelatedSteps at h
  split at h
  · cases hp : packOrPanic instBytes relBytes with
    | error e => rw [hp] at h; cases h
    | ok payload =>
      rw [hp] at h
      exact refreshFieldsSteps_all h (by simp)
  · cases h
    simp

/-- A created instance is followed by requests to those it is related to. -/
theorem requestRelatedSteps_all {pb : RelatedCodecs} {cnc : Concern M} {inst : M}
    {instBytes relBytes : Option Bytes} {steps : List Step}
    (h : cnc.requestRelatedSteps pb inst instBytes relBytes = .ok steps) :
    ∀ s ∈ steps, s.system = .process ∧ s.result = none ∧ s.cmpdOffset = none ∧ s.command = requestRelated := by
  unfold Concern.requestRelatedSteps at h
  split at h
  · cases hp : packOrPanic instBytes relBytes with
    | error e => rw [hp] at h; cases h
    | ok payload =>
      rw [hp] at h
      refine Early.mapM_forall (fun s => s.system = .process ∧ s.result = none ∧ s.cmpdOffset = none ∧
        s.command = requestRelated) ?_ h
      rintro ⟨fld, idField⟩ step hstep
      dsimp only [requestRelatedStep] at hstep
      cases hm : pb.request.marshal ⟨cnc.name, cnc.key inst, fld.nameGo, some payload⟩ with
      | error e => rw [hm] at hstep; cases hstep
      | ok b =>
        rw [hm] at hstep
        cases hstep
        exact ⟨rfl, rfl, rfl, rfl⟩
  · cases h
    simp

end Rocketcycle
