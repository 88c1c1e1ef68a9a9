import Rocketcycle.Concern.Related
import Rocketcycle.Gen.Catalog
import Rocketcycle.Lib.EarlyReturn

/-!
# From the catalog to the generated concerns

What the template `rkcy.go.tmpl` makes of a concern of the catalog, over the types that `protoc-gen-go`
generates for the same messages. `buildCatalog` sees to it that the fields and the commands of a concern
are as the template takes them to be.
-/

namespace Rocketcycle.Gen

/-- The generated Go types, a message type by its name and a field by its Go name. A field that was set
to one message holds that message. -/
structure ProtoTypes (M : Type) where
  codec : String → Codec M
  empty : M
  getString : String → M → String
  setString : String → M → String → M
  getMessages : String → M → List M
  setMessages : String → M → List M → M
  getMessages_set : ∀ fieldGo m itm, getMessages fieldGo (setMessages fieldGo m [itm]) = [itm]

section
variable {M : Type} (go : ProtoTypes M)

/-- The methods `Key` and `SetKey` of a concern's message. -/
def Message.generate (msg : Message) : MessageType M where
  toCodec := go.codec msg.name
  name := msg.name
  key := go.getString msg.keyFieldGo
  setKey := go.setString msg.keyFieldGo

def RelatedField.generate (fld : RelatedField) : Rocketcycle.RelatedField M where
  nameGo := fld.nameGo
  typeMsg := fld.typeMsg.generate go
  idField := if fld.idFieldGo = "" then none else some (go.getString fld.idFieldGo)
  relField := if fld.relFieldGo = "" then none else some fld.relFieldGo
  isRepeated := fld.isRepeated
  get := go.getMessages fld.nameGo
  set := go.setMessages fld.nameGo

def Related.generate (rel : Related) : RelatedMessage M where
  toCodec := go.codec rel.msg.name
  empty := go.empty
  fields := (rel.fields.filter fun fld => fld.typeMsg.isConcern).map (RelatedField.generate go)

def Command.generate (cmd : Command) : ConcernCommand M where
  name := cmd.name
  input := cmd.input.map go.codec
  output := cmd.output.map go.codec

/-- A concern that has related data. -/
def Concern.generate (cnc : Concern) (rel : Related) : Rocketcycle.Concern M where
  toMessageType := { cnc.msg.generate go with name := cnc.name }
  related := rel.generate go
  commands := cnc.commands.map (Command.generate go)
  commands_free := by
    intro cmd hcmd
    obtain ⟨cmd', -, rfl⟩ := List.mem_map.1 hcmd
    exact cmd'.free

@[simp] theorem Concern.generate_name (cnc : Concern) (rel : Related) : (cnc.generate go rel).name = cnc.name := rfl

@[simp] theorem RelatedField.generate_typeMsg_name (fld : RelatedField) :
    (fld.generate go).typeMsg.name = fld.typeMsg.name := rfl

theorem Related.mem_generate {rel : Related} {f : Rocketcycle.RelatedField M} :
    f ∈ (rel.generate go).fields ↔
      ∃ fld ∈ rel.fields, fld.typeMsg.isConcern = true ∧ fld.generate go = f := by
  show f ∈ (rel.fields.filter fun fld => fld.typeMsg.isConcern).map (RelatedField.generate go) ↔ _
  simp only [List.mem_map, List.mem_filter, and_assoc]

end

/-! ## Names in Go -/

theorem goCamelCaseFrom_lower {prev : Option Char} {c : Char} (lower : isASCIILower c = true) (cs : List Char) :
    goCamelCaseFrom prev false (c :: cs) ≠ [] := by
  have bounds : 97 ≤ c.toNat ∧ c.toNat ≤ 122 := by
    simp only [isASCIILower, Bool.and_eq_true, decide_eq_true_eq] at lower
    exact ⟨lower.1, lower.2⟩
  have dot : c ≠ '.' := by
    rintro rfl
    simp at bounds
  have underscore : c ≠ '_' := by
    rintro rfl
    simp at bounds
  unfold goCamelCaseFrom
  rw [if_neg (by simp), if_neg dot, if_neg (by simp [underscore]), if_neg (by simp [underscore])]
  split <;> simp

/-- A name that is not empty stays so. -/
theorem goCamelCaseFrom_eq_nil {prev : Option Char} {word : Bool} {cs : List Char} :
    goCamelCaseFrom prev word cs = [] ↔ cs = [] := by
  constructor
  · intro h
    cases cs with
    | nil => rfl
    | cons c cs =>
      -- a character that is dropped is followed by one that is not
      have kept : ∀ prev, startsLower cs = true → goCamelCaseFrom prev false cs ≠ [] := by
        intro prev lower
        cases cs with
        | nil => cases lower
        | cons d ds => exact goCamelCaseFrom_lower lower ds
      unfold goCamelCaseFrom at h
      split at h
      · cases h
      split at h
      · split at h
        · exact absurd h (kept _ ‹_›)
        · cases h
      split at h
      · cases h
      split at h
      · rename_i both
        exact absurd h (kept _ (by simpa using (Bool.and_eq_true_iff.1 both).2))
      split at h
      · cases h
      · cases h
  · rintro rfl
    rfl

theorem goCamelCase_eq_empty {s : String} : goCamelCase s = "" ↔ s = "" := by
  unfold goCamelCase
  rw [← String.toList_inj, String.toList_ofList]
  show goCamelCaseFrom none false s.toList = [] ↔ s = ""
  rw [goCamelCaseFrom_eq_nil, ← String.toList_inj]
  rfl

/-! ## What the catalog promises -/

/-- A field of a related message that `buildRelated` has let through. -/
structure RelatedField.Built (cat : Catalog) (fld : RelatedField) : Prop where
  made : ∃ typeMsg pbField rltn, fld = relatedField typeMsg pbField rltn
  related : fld.typeMsg.isConcern = true → ∃ relMsg, cat.messageMap (fld.typeMsg.name ++ "Related") = some relMsg

/-- The flags of a related message say what its fields are. -/
structure Related.Built (cat : Catalog) (rel : Related) : Prop where
  fields : ∀ fld ∈ rel.fields, fld.Built cat
  fwd : rel.hasFwdCncs = rel.fields.any fun fld => fld.idField ≠ "" && fld.typeMsg.isConcern
  rvs : rel.hasRvsCncs = rel.fields.any fun fld => fld.relField ≠ "" && fld.typeMsg.isConcern
  pure : rel.hasPureRelCncs = rel.fields.any fun fld => fld.isPureRelCnc

theorem Related.Built.addField {cat : Catalog} {rel : Related} {fld : RelatedField} (h : rel.Built cat)
    (built : fld.Built cat) : (rel.addField fld).Built cat := by
  constructor
  · intro fld' hmem
    rcases List.mem_append.1 hmem with hmem | hmem
    · exact h.fields fld' hmem
    · rw [List.mem_singleton.1 hmem]
      exact built
  · simp [Related.addField, h.fwd]
  · simp [Related.addField, h.rvs]
  · simp [Related.addField, h.pure]

theorem messageMap_name {cat : Catalog} {name : String} {msg : Message} (h : cat.messageMap name = some msg) :
    msg.name = name := by
  simpa using List.find?_some h

/-- The message of a field's type has a related message, if it is a concern. -/
theorem fieldTypes_related {cat : Catalog} {msgName pkgPrefix : String} {pbField : FieldDescriptorProto}
    {typeMsg : Message} {typeMsgRel : Option Message}
    (h : fieldTypes cat msgName pkgPrefix pbField = .ok (typeMsg, typeMsgRel)) (concern : typeMsg.isConcern = true) :
    ∃ relMsg, cat.messageMap (typeMsg.name ++ "Related") = some relMsg := by
  unfold fieldTypes at h
  simp only at h
  split at h
  · cases h
  rename_i found hfound
  split at h
  · cases h
  split at h
  · split at h
    · cases h
    rename_i relMsg hrel
    split at h
    · cases h
    · cases h
      exact ⟨relMsg, by rw [messageMap_name hfound]; exact hrel⟩
  · cases h
    rename_i other
    exact absurd concern other

theorem buildRelatedField_built {cat : Catalog} {cncMsg : DescriptorProto} {pkgPrefix : String} {rel rel' : Related}
    {pbField : FieldDescriptorProto} (built : rel.Built cat)
    (h : buildRelatedField cat cncMsg pkgPrefix rel pbField = .ok rel') : rel'.Built cat := by
  unfold buildRelatedField at h
  simp only at h
  split at h
  · cases h
    exact built
  split at h
  · cases h
  cases types : fieldTypes cat rel.msg.name pkgPrefix pbField with
  | error e => rw [types] at h; cases h
  | ok both =>
    obtain ⟨typeMsg, typeMsgRel⟩ := both
    rw [types] at h
    cases hr : pbField.relation with
    | none => rw [hr] at h; cases h
    | some rltn =>
      rw [hr] at h
      simp only [bind, Except.bind] at h
      split at h
      · cases h
      split at h
      · cases h
      split at h
      · cases h
      split at h
      · cases h
      split at h
      · cases h
      · cases h
        exact built.addField ⟨⟨typeMsg, pbField, rltn, rfl⟩, fieldTypes_related types⟩

theorem buildRelated_built {cat : Catalog} {cncMsg : DescriptorProto} {msg : Message} {pkg : String} {rel : Related}
    (h : buildRelated cat cncMsg msg pkg = .ok rel) : rel.Built cat := by
  unfold buildRelated at h
  cases hk : findKeyField msg.msgPb with
  | error e => rw [hk] at h; cases h
  | ok keyField =>
    rw [hk] at h
    simp only [bind, Except.bind] at h
    split at h
    · cases h
    · exact Early.foldlM_invariant (Related.Built cat) (fun _ _ _ built step => buildRelatedField_built built step)
        ⟨by simp, rfl, rfl, rfl⟩ h

theorem buildConcernRelated_built {cat : Catalog} {cnc : Concern} {related : Option Related}
    (h : buildConcernRelated cat cnc = .ok related) :
    (∀ rel, related = some rel → rel.Built cat) ∧
      ∀ relMsg, cat.messageMap (cnc.name ++ "Related") = some relMsg → ∃ rel, related = some rel := by
  unfold buildConcernRelated at h
  split at h
  · rename_i none
    cases h
    refine ⟨by simp, fun relMsg found => ?_⟩
    rw [none] at found
    cases found
  · rename_i relMsg found
    cases hp : derefOrPanic relMsg.package with
    | error e => rw [hp] at h; cases h
    | ok pkg =>
      cases hb : buildRelated cat cnc.msg.msgPb relMsg pkg with
      | error e => rw [hp] at h; simp only [hb, bind, Except.bind] at h; cases h
      | ok rel =>
        rw [hp] at h
        simp only [hb, bind, Except.bind, pure, Except.pure] at h
        cases h
        refine ⟨?_, fun _ _ => ⟨rel, rfl⟩⟩
        rintro rel' ⟨⟩
        exact buildRelated_built hb

/-- A concern has related data if there is a message for it, and is built from that. -/
theorem buildConcern_related {cat : Catalog} {cnc0 cnc : Concern} (h : buildConcern cat cnc0 = .ok cnc) :
    cnc.name = cnc0.name ∧ buildConcernRelated cat cnc0 = .ok cnc.related := by
  unfold buildConcern at h
  cases hr : buildConcernRelated cat cnc0 with
  | error e => rw [hr] at h; cases h
  | ok related =>
    cases hc : buildConcernCommands cat cnc0 with
    | error e => rw [hr] at h; simp only [hc, bind, Except.bind] at h; cases h
    | ok commands =>
      rw [hr] at h
      simp only [hc, bind, Except.bind, pure, Except.pure] at h
      cases h
      exact ⟨rfl, rfl⟩

/-- What every concern of an accepted catalog is: its relations are as the template takes them, and the
concerns they lead to have related data. -/
structure Catalog.Accepted (cat : Catalog) : Prop where
  built : ∀ cnc ∈ cat.concerns, ∀ rel, cnc.related = some rel → rel.Built cat
  related : ∀ cnc ∈ cat.concerns, ∀ relMsg, cat.messageMap (cnc.name ++ "Related") = some relMsg →
    ∃ rel, cnc.related = some rel

theorem buildCatalog_accepted {pbFiles : List FileDescriptorProto} {cat : Catalog}
    (h : buildCatalog pbFiles = .ok cat) : cat.Accepted := by
  unfold buildCatalog at h
  cases hc : pbFiles.foldlM addFile {} with
  | error e => rw [hc] at h; cases h
  | ok cat0 =>
    rw [hc] at h
    cases hb : cat0.concerns.mapM (buildConcern cat0) with
    | error e => simp only [hb, bind, Except.bind] at h; cases h
    | ok concerns =>
      simp only [hb, bind, Except.bind, pure, Except.pure] at h
      cases h
      have each := Early.mapM_forall (fun cnc => ∃ cnc0, buildConcern cat0 cnc0 = .ok cnc)
        (fun cnc0 _ h => ⟨cnc0, h⟩) hb
      have map : ∀ name, ({ cat0 with concerns := concerns } : Catalog).messageMap name = cat0.messageMap name :=
        fun _ => rfl
      constructor
      · intro cnc hmem rel hrel
        obtain ⟨cnc0, hcnc⟩ := each cnc hmem
        obtain ⟨-, made⟩ := buildConcern_related hcnc
        obtain ⟨fields, fwd, rvs, pure⟩ := (buildConcernRelated_built made).1 rel hrel
        exact ⟨fun fld hfld => ⟨(fields fld hfld).made, (fields fld hfld).related⟩, fwd, rvs, pure⟩
      · intro cnc hmem relMsg hrel
        obtain ⟨cnc0, hcnc⟩ := each cnc hmem
        obtain ⟨name, made⟩ := buildConcern_related hcnc
        rw [map, name] at hrel
        exact (buildConcernRelated_built made).2 relMsg hrel

end Rocketcycle.Gen
