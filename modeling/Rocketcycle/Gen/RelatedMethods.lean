import Rocketcycle.Gen.Routing
import Rocketcycle.Lib.Keyed
import Mathlib.Data.List.Induction

/-!
# The methods of a related message

`HandleRequestRelated` and `HandleRefreshRelated` as the template `rkcy.go.tmpl` has them: methods of a
pointer, which change the related message in place and may return before they do. A repeated field is
changed by `UpsertRelated` only, so the keys of its items stay distinct.
-/

namespace Rocketcycle
open Keyed

variable {M : Type}

/-! ## Methods -/

/-- A method, with the related message that it changes. -/
abbrev Method (M : Type) := ExceptT GoError (StateM M)

namespace Method

/-- Returns the error of a call. -/
def orReturn {α : Type} : Except GoError α → Method M α
  | .ok a => pure a
  | .error e => throw e

def upsertRelated (fld : RelatedField M) (msg : M) : Method M Unit := do
  let rel ← get
  match (fld.get rel).findIdx? fun itm => fld.typeMsg.key itm = fld.typeMsg.key msg with
  | none => set (fld.set rel (fld.get rel ++ [msg]))
  | some idx => set (fld.set rel ((fld.get rel).set idx msg))

/-- The case of a field, the same in both switches. -/
def take (fld : RelatedField M) (payload : Option Bytes) : Method M Bool := do
  let (instBytes, _) ← orReturn (unpackPayloads payload)
  let inst ← orReturn (fld.typeMsg.unmarshalOpt instBytes)
  if fld.isRepeated then upsertRelated fld inst
  else modify fun rel => fld.set rel [inst]
  return true

def handleRequestRelated (cnc : Concern M) (relReq : RelatedRequest) : Method M Bool :=
  if cnc.related.fields.any RelatedField.isPureRelCnc then
    match cnc.related.fields.find? fun fld => fld.isPureRelCnc && fld.relField = some relReq.field with
    | none => throw (.other s!"HandleRequestRelated: Invalid field '{relReq.field}''")
    | some fld =>
      if relReq.concern = fld.typeMsg.name then take fld relReq.payload
      else throw (.other s!"HandleRequestRelated: Invalid type '{relReq.concern}' for field {fld.nameGo}, expecting '{fld.typeMsg.name}'")
  else return false

def handleRefreshRelated (cnc : Concern M) (relRsp : RelatedResponse) : Method M Bool :=
  match cnc.related.fields.find? fun fld => fld.nameGo = relRsp.field with
  | none => throw (.other s!"HandleRefreshRelated: Invalid field '{relRsp.field}''")
  | some fld =>
    if relRsp.concern = fld.typeMsg.name then take fld relRsp.payload
    else throw (.other s!"HandleRefreshRelated: Invalid type '{relRsp.concern}' for field {fld.nameGo}, expecting '{fld.typeMsg.name}'")

end Method

/-- The instance in a packed payload. -/
def RelatedField.unpack (fld : RelatedField M) (payload : Option Bytes) : Except GoError M := do
  let (instBytes, _) ← unpackPayloads payload
  fld.typeMsg.unmarshalOpt instBytes

/-- The related message with an instance in the field. -/
def RelatedField.put (fld : RelatedField M) (rel inst : M) : M :=
  fld.set rel (if fld.isRepeated then upsertRelated fld.typeMsg.key (fld.get rel) inst else [inst])

@[simp] theorem exec_orReturn {α : Type} (x : Except GoError α) (rel : M) :
    Early.exec (Method.orReturn x) rel = (x, rel) := by
  cases x <;> rfl

theorem exec_upsertRelated (fld : RelatedField M) (msg rel : M) :
    Early.exec (Method.upsertRelated fld msg) rel =
      (.ok (), fld.set rel (upsertRelated fld.typeMsg.key (fld.get rel) msg)) := by
  unfold Method.upsertRelated upsertRelated
  rw [Early.exec_bind, Early.exec_get]
  dsimp only
  cases (fld.get rel).findIdx? fun itm => fld.typeMsg.key itm = fld.typeMsg.key msg with
  | none => rfl
  | some idx => rfl

theorem exec_take (fld : RelatedField M) (payload : Option Bytes) (rel : M) :
    Early.exec (Method.take fld payload) rel =
      match fld.unpack payload with
      | .error e => (.error e, rel)
      | .ok inst => (.ok true, fld.put rel inst) := by
  unfold Method.take
  rw [Early.exec_bind, exec_orReturn]
  cases hu : unpackPayloads payload with
  | error e =>
    have unpacked : fld.unpack payload = .error e := by
      unfold RelatedField.unpack
      rw [hu]
      rfl
    rw [unpacked]
  | ok both =>
    obtain ⟨instBytes, relBytes⟩ := both
    have unpacked : fld.unpack payload = fld.typeMsg.unmarshalOpt instBytes := by
      unfold RelatedField.unpack
      rw [hu]
      rfl
    dsimp only
    rw [unpacked, Early.exec_bind, exec_orReturn]
    cases fld.typeMsg.unmarshalOpt instBytes with
    | error e => rfl
    | ok inst =>
      dsimp only
      unfold RelatedField.put
      by_cases repeated : fld.isRepeated = true
      · rw [if_pos repeated, if_pos repeated, Early.exec_bind, exec_upsertRelated]
        rfl
      · rw [if_neg repeated, if_neg repeated]
        rfl

theorem exec_handleRequestRelated (cnc : Concern M) (relReq : RelatedRequest) (rel : M) :
    Early.exec (Method.handleRequestRelated cnc relReq) rel =
      match cnc.requestTarget relReq with
      | .error e => (.error e, rel)
      | .ok none => (.ok false, rel)
      | .ok (some fld) => Early.exec (Method.take fld relReq.payload) rel := by
  unfold Method.handleRequestRelated Concern.requestTarget
  by_cases captured : cnc.related.fields.any RelatedField.isPureRelCnc = true
  · rw [if_pos captured, if_pos captured]
    cases cnc.related.fields.find? fun fld => fld.isPureRelCnc && fld.relField = some relReq.field with
    | none => rfl
    | some fld =>
      dsimp only
      by_cases sender : relReq.concern = fld.typeMsg.name
      · rw [if_pos sender, if_pos sender]
      · rw [if_neg sender, if_neg sender]
        rfl
  · rw [if_neg captured, if_neg captured]
    rfl

theorem exec_handleRefreshRelated (cnc : Concern M) (relRsp : RelatedResponse) (rel : M) :
    Early.exec (Method.handleRefreshRelated cnc relRsp) rel =
      match cnc.refreshTarget relRsp with
      | .error e => (.error e, rel)
      | .ok fld => Early.exec (Method.take fld relRsp.payload) rel := by
  unfold Method.handleRefreshRelated Concern.refreshTarget
  cases cnc.related.fields.find? fun fld => fld.nameGo = relRsp.field with
  | none => rfl
  | some fld =>
    dsimp only
    by_cases sender : relRsp.concern = fld.typeMsg.name
    · rw [if_pos sender, if_pos sender]
    · rw [if_neg sender, if_neg sender]
      rfl

/-! ## The functions of the handlers -/

theorem RelatedField.take_eq (fld : RelatedField M) (rel : M) (payload : Option Bytes) :
    fld.take rel payload = (fld.unpack payload).map (fld.put rel) := by
  unfold RelatedField.take RelatedField.unpack
  cases unpackPayloads payload with
  | error e => rfl
  | ok both =>
    obtain ⟨instBytes, relBytes⟩ := both
    dsimp only [bind, Except.bind]
    cases fld.typeMsg.unmarshalOpt instBytes with
    | error e => rfl
    | ok inst =>
      unfold RelatedField.put
      dsimp only [Except.map]
      by_cases repeated : fld.isRepeated = true
      · rw [if_pos repeated, if_pos repeated]
        rfl
      · rw [if_neg repeated, if_neg repeated]
        rfl

/-- What a method answers together with what it leaves. -/
def answered (r : Except GoError Bool × M) : Except GoError (M × Bool) := r.1.map fun changed => (r.2, changed)

theorem answered_take (fld : RelatedField M) (rel : M) (payload : Option Bytes) :
    answered (Early.exec (Method.take fld payload) rel) = (fld.take rel payload).map fun rel => (rel, true) := by
  rw [exec_take, fld.take_eq]
  cases fld.unpack payload with
  | error e => rfl
  | ok inst => rfl

/-- The handlers of a concern drop the related message that a refused request has left, and keep the one
that is left otherwise. -/
theorem handleRequestRelated_eq (cnc : Concern M) (rel : M) (relReq : RelatedRequest) :
    cnc.handleRequestRelated rel relReq = answered (Early.exec (Method.handleRequestRelated cnc relReq) rel) := by
  rw [cnc.handleRequestRelated_target, exec_handleRequestRelated]
  cases cnc.requestTarget relReq with
  | error e => rfl
  | ok found =>
    cases found with
    | none => rfl
    | some fld => exact (answered_take fld rel relReq.payload).symm

theorem handleRefreshRelated_eq (cnc : Concern M) (rel : M) (relRsp : RelatedResponse) :
    cnc.handleRefreshRelated rel relRsp = answered (Early.exec (Method.handleRefreshRelated cnc relRsp) rel) := by
  rw [cnc.handleRefreshRelated_target, exec_handleRefreshRelated]
  cases cnc.refreshTarget relRsp with
  | error e => rfl
  | ok fld => exact (answered_take fld rel relRsp.payload).symm

/-! ## Calls -/

/-- A call of one of the two methods. -/
inductive RelatedCall where
  | request (relReq : RelatedRequest)
  | refresh (relRsp : RelatedResponse)

namespace RelatedCall

def method (cnc : Concern M) : RelatedCall → Method M Bool
  | request relReq => Method.handleRequestRelated cnc relReq
  | refresh relRsp => Method.handleRefreshRelated cnc relRsp

def payload : RelatedCall → Option Bytes
  | request relReq => relReq.payload
  | refresh relRsp => relRsp.payload

/-- The field that the switch finds, which is none in a concern that does not capture requests. -/
def target (cnc : Concern M) : RelatedCall → Except GoError (Option (RelatedField M))
  | request relReq => cnc.requestTarget relReq
  | refresh relRsp => (cnc.refreshTarget relRsp).map some

/-- Nothing happens to the related message before the instance is there, and then one assignment does. -/
theorem exec_method (cnc : Concern M) (call : RelatedCall) (rel : M) :
    Early.exec (call.method cnc) rel =
      match call.target cnc with
      | .error e => (.error e, rel)
      | .ok none => (.ok false, rel)
      | .ok (some fld) =>
        match fld.unpack call.payload with
        | .error e => (.error e, rel)
        | .ok inst => (.ok true, fld.put rel inst) := by
  cases call with
  | request relReq =>
    dsimp only [method, target, payload]
    rw [exec_handleRequestRelated]
    cases cnc.requestTarget relReq with
    | error e => rfl
    | ok found =>
      cases found with
      | none => rfl
      | some fld => exact exec_take fld relReq.payload rel
  | refresh relRsp =>
    dsimp only [method, target, payload]
    rw [exec_handleRefreshRelated]
    cases cnc.refreshTarget relRsp with
    | error e => rfl
    | ok fld => exact exec_take fld relRsp.payload rel

theorem target_mem {cnc : Concern M} {call : RelatedCall} {fld : RelatedField M} (h : call.target cnc = .ok (some fld)) :
    fld ∈ cnc.related.fields := by
  cases call with
  | request relReq =>
    have found : cnc.requestTarget relReq = .ok (some fld) := h
    unfold Concern.requestTarget at found
    split at found
    · split at found
      · cases found
      rename_i hf
      split at found
      · cases found
        exact List.mem_of_find?_eq_some hf
      · cases found
    · cases found
  | refresh relRsp =>
    have found : (cnc.refreshTarget relRsp).map some = .ok (some fld) := h
    unfold Concern.refreshTarget at found
    split at found
    · cases found
    rename_i hf
    split at found
    · cases found
      exact List.mem_of_find?_eq_some hf
    · cases found

end RelatedCall

/-! ## Fields of a struct -/

/-- The related message as a struct that `protoc-gen-go` has made: a name stands for one field, and a field
holds what was assigned to it last. One that is not repeated is assigned single messages. -/
structure RelatedMessage.IsStruct (msg : RelatedMessage M) : Prop where
  names : (msg.fields.map RelatedField.nameGo).Nodup
  get_set : ∀ fld ∈ msg.fields, ∀ rel items, (fld.isRepeated = true ∨ items.length = 1) → fld.get (fld.set rel items) = items
  get_set_other : ∀ fld ∈ msg.fields, ∀ fld' ∈ msg.fields, fld'.nameGo ≠ fld.nameGo →
    ∀ rel items, fld'.get (fld.set rel items) = fld'.get rel

theorem upsertRelated_upserted (key : M → String) (items : List M) (msg : M) :
    Upserted key msg items (upsertRelated key items msg) := by
  unfold upsertRelated
  cases h : items.findIdx? fun itm => key itm = key msg with
  | none =>
    rw [List.findIdx?_eq_none_iff] at h
    exact .appended fun other hmem => by simpa using h other hmem
  | some idx =>
    obtain ⟨inside, here, before⟩ := List.findIdx?_eq_some_iff_getElem.1 h
    have around : items = items.take idx ++ items[idx] :: items.drop (idx + 1) := by
      rw [← List.drop_eq_getElem_cons inside, List.take_append_drop]
    have replaced : items.set idx msg = items.take idx ++ msg :: items.drop (idx + 1) := by
      rw [List.set_eq_take_append_cons_drop, if_pos inside]
    have first : ∀ other ∈ items.take idx, key other ≠ key msg := by
      intro other hmem
      obtain ⟨j, hj, rfl⟩ := List.mem_take_iff_getElem.1 hmem
      simpa using before j (by omega)
    dsimp only
    rw [replaced]
    nth_rewrite 1 [around]
    exact .replaced (by simpa using here) first

section
variable {cnc : Concern M} (struct : cnc.related.IsStruct) {fld fld' : RelatedField M} (mem : fld ∈ cnc.related.fields)
include struct mem

theorem RelatedField.eq_of_nameGo (mem' : fld' ∈ cnc.related.fields) (same : fld'.nameGo = fld.nameGo) : fld' = fld :=
  List.inj_on_of_nodup_map struct.names mem' mem same

theorem RelatedField.get_put_repeated (repeated : fld.isRepeated = true) (rel inst : M) :
    Upserted fld.typeMsg.key inst (fld.get rel) (fld.get (fld.put rel inst)) := by
  unfold RelatedField.put
  rw [if_pos repeated, struct.get_set fld mem _ _ (.inl repeated)]
  exact upsertRelated_upserted _ _ _

theorem RelatedField.get_put_single (single : fld.isRepeated = false) (rel inst : M) : fld.get (fld.put rel inst) = [inst] := by
  unfold RelatedField.put
  rw [if_neg (by simp [single]), struct.get_set fld mem _ _ (.inr rfl)]

theorem RelatedField.get_put_other (mem' : fld' ∈ cnc.related.fields) (other : fld'.nameGo ≠ fld.nameGo) (rel inst : M) :
    fld'.get (fld.put rel inst) = fld'.get rel :=
  struct.get_set_other fld mem fld' mem' other _ _

end

/-! ## Sequences of calls -/

namespace RelatedCall

/-- The related message after a list of calls. -/
def after (cnc : Concern M) (rel : M) (calls : List RelatedCall) : M :=
  calls.foldl (fun rel call => (Early.exec (call.method cnc) rel).2) rel

/-- What a call answers and leaves: a rejected call leaves everything, and so does a request that is not
captured. A call that is accepted has an instance for a field. In a repeated field that takes its place
among the items with other keys, and the other fields stay as they are. -/
inductive Leaves (cnc : Concern M) (call : RelatedCall) (rel : M) : Except GoError Bool → M → Prop
  | rejected (e : GoError) : Leaves cnc call rel (.error e) rel
  | ignored (target : call.target cnc = .ok none) : Leaves cnc call rel (.ok false) rel
  | taken {fld : RelatedField M} {inst rel' : M} (target : call.target cnc = .ok (some fld))
      (instance' : fld.unpack call.payload = .ok inst)
      (list : fld.isRepeated = true → Upserted fld.typeMsg.key inst (fld.get rel) (fld.get rel'))
      (single : fld.isRepeated = false → fld.get rel' = [inst])
      (others : ∀ fld' ∈ cnc.related.fields, fld'.nameGo ≠ fld.nameGo → fld'.get rel' = fld'.get rel) :
      Leaves cnc call rel (.ok true) rel'

section
variable {cnc : Concern M} {fld : RelatedField M} {rel : M}

theorem after_concat (calls : List RelatedCall) (call : RelatedCall) :
    after cnc rel (calls ++ [call]) = (Early.exec (call.method cnc) (after cnc rel calls)).2 := by
  unfold after
  rw [List.foldl_append]
  rfl

/-- The instance that a call brings to a field. -/
def brings (cnc : Concern M) (fld : RelatedField M) (call : RelatedCall) : Option M :=
  match call.target cnc with
  | .ok (some found) => if found.nameGo = fld.nameGo then (fld.unpack call.payload).toOption else none
  | _ => none

variable (struct : cnc.related.IsStruct)
include struct

theorem method_leaves (call : RelatedCall) (rel : M) :
    call.Leaves cnc rel (Early.exec (call.method cnc) rel).1 (Early.exec (call.method cnc) rel).2 := by
  rw [exec_method]
  cases target : call.target cnc with
  | error e => exact .rejected e
  | ok found =>
    cases found with
    | none => exact .ignored target
    | some fld =>
      have mem := target_mem target
      dsimp only
      cases instance' : fld.unpack call.payload with
      | error e => exact .rejected e
      | ok inst =>
        exact .taken target instance' (fun repeated => RelatedField.get_put_repeated struct mem repeated rel inst)
          (fun single => RelatedField.get_put_single struct mem single rel inst)
          (fun fld' mem' other => RelatedField.get_put_other struct mem mem' other rel inst)

/-- A repeated field after one call. -/
theorem method_field (mem : fld ∈ cnc.related.fields) (repeated : fld.isRepeated = true) (call : RelatedCall) (rel : M) :
    (∃ inst, call.brings cnc fld = some inst ∧
        Upserted fld.typeMsg.key inst (fld.get rel) (fld.get (Early.exec (call.method cnc) rel).2)) ∨
      call.brings cnc fld = none ∧ fld.get (Early.exec (call.method cnc) rel).2 = fld.get rel := by
  rw [exec_method]
  unfold brings
  cases target : call.target cnc with
  | error e => exact .inr ⟨rfl, rfl⟩
  | ok found =>
    cases found with
    | none => exact .inr ⟨rfl, rfl⟩
    | some found =>
      have mem' := target_mem target
      dsimp only
      by_cases here : found.nameGo = fld.nameGo
      · rw [if_pos here]
        obtain rfl := RelatedField.eq_of_nameGo struct mem mem' here
        cases found.unpack call.payload with
        | error e => exact .inr ⟨rfl, rfl⟩
        | ok inst => exact .inl ⟨inst, rfl, RelatedField.get_put_repeated struct mem repeated rel inst⟩
      · rw [if_neg here]
        refine .inr ⟨rfl, ?_⟩
        cases found.unpack call.payload with
        | error e => rfl
        | ok inst => exact RelatedField.get_put_other struct mem' mem (Ne.symm here) rel inst

theorem after_distinct (mem : fld ∈ cnc.related.fields) (repeated : fld.isRepeated = true)
    (distinct : ((fld.get rel).map fld.typeMsg.key).Nodup) (calls : List RelatedCall) :
    ((fld.get (after cnc rel calls)).map fld.typeMsg.key).Nodup := by
  induction calls using List.reverseRecOn with
  | nil => exact distinct
  | append_singleton calls call ih =>
    rw [after_concat]
    obtain ⟨inst, -, upserted⟩ | ⟨-, same⟩ := method_field struct mem repeated call (after cnc rel calls)
    · exact upserted.nodup ih
    · rw [same]
      exact ih

/-- Keys that differ go on to differ, and every call on the way leaves what it should. -/
theorem lists_keep_keys (mem : fld ∈ cnc.related.fields) (repeated : fld.isRepeated = true)
    (distinct : ((fld.get rel).map fld.typeMsg.key).Nodup) (calls : List RelatedCall) :
    ((fld.get (after cnc rel calls)).map fld.typeMsg.key).Nodup ∧
      ∀ front call back, calls = front ++ call :: back →
        call.Leaves cnc (after cnc rel front) (Early.exec (call.method cnc) (after cnc rel front)).1
          (after cnc rel (front ++ [call])) := by
  refine ⟨after_distinct struct mem repeated distinct calls, ?_⟩
  rintro front call back -
  rw [after_concat]
  exact method_leaves struct call (after cnc rel front)

end

end RelatedCall

/-! ## The characters of a player -/

namespace Gen

/-- Generated fields are those of a struct where the generated types are structs. -/
theorem Related.generate_isStruct {go : ProtoTypes M} {rel : Related} (names : (rel.fields.map RelatedField.nameGo).Nodup)
    (get_set : ∀ fieldGo m items, go.getMessages fieldGo (go.setMessages fieldGo m items) = items)
    (get_set_other : ∀ fieldGo fieldGo' m items, fieldGo' ≠ fieldGo →
      go.getMessages fieldGo' (go.setMessages fieldGo m items) = go.getMessages fieldGo' m) :
    (rel.generate go).IsStruct := by
  constructor
  · have same : (rel.generate go).fields.map Rocketcycle.RelatedField.nameGo =
        (rel.fields.filter fun fld => fld.typeMsg.isConcern).map RelatedField.nameGo := List.map_map
    rw [same]
    exact names.sublist (List.filter_sublist.map _)
  · rintro fld mem m items -
    obtain ⟨fld, -, -, rfl⟩ := (Related.mem_generate go).1 mem
    exact get_set _ _ _
  · intro fld mem fld' mem' other m items
    obtain ⟨fld, -, -, rfl⟩ := (Related.mem_generate go).1 mem
    obtain ⟨fld', -, -, rfl⟩ := (Related.mem_generate go).1 mem'
    exact get_set_other _ _ _ _ other

theorem keyNumber : Wire.isNumber 1 = true := by decide

/-- Messages of which nothing but the key in field 1 is read. -/
def keyFormat : Wire.Format String :=
  .ofMembers "" [.mk 1 .text id (fun key _ => key) keyNumber] (by decide) (by simp) (by simp [Wire.Member.Apart]) ⟨by simp⟩

def keyedTypes : ProtoTypes SampleMessage where
  codec _ :=
    { encode := fun m => .ok (keyFormat.encode (sampleTypes.getString "Id" m))
      decode := fun b => (Codec.ofFormat keyFormat).decode b |>.map fun key => .mk [("Id", key)] [] }
  empty := sampleTypes.empty
  getString := sampleTypes.getString
  setString := sampleTypes.setString
  getMessages := sampleTypes.getMessages
  setMessages := sampleTypes.setMessages
  getMessages_set := sampleTypes.getMessages_set

def playerRelated : Related := sampleRelated (sampleCatalog "player" []) "Player"

def playerConcern : Rocketcycle.Concern SampleMessage :=
  (sampleConcern (sampleCatalog "player" []) "Player").generate keyedTypes playerRelated

theorem playerConcern_isStruct : playerConcern.related.IsStruct := by
  apply Related.generate_isStruct
  · decide +kernel
  · rintro fieldGo ⟨strings, messages⟩ items
    simp [keyedTypes, sampleTypes]
  · rintro fieldGo fieldGo' ⟨strings, messages⟩ items other
    have differ : (fieldGo' == fieldGo) = false := by simpa using other
    simp [keyedTypes, sampleTypes, List.lookup_cons, differ]

/-- The field of the characters of a player. -/
def charactersField : Rocketcycle.RelatedField SampleMessage :=
  RelatedField.generate keyedTypes (playerRelated.fields.getD 0 (relatedField playerRelated.msg keyField {}))

theorem charactersField_mem : charactersField ∈ playerConcern.related.fields :=
  (Related.mem_generate keyedTypes).2 ⟨_, by decide +kernel, by decide +kernel, rfl⟩

/-- Two characters that are requested and refreshed, the first of them twice, with calls that name no field,
and with payloads that are not packed or hold no message. -/
def characterCalls : List RelatedCall :=
  let payload (key : String) := packPayloads (some (keyFormat.encode key)) none
  [.request ⟨"Character", "conan", "Player", payload "conan"⟩, .refresh ⟨"Character", "Characters", payload "belit"⟩,
    .refresh ⟨"Character", "Characters", some [1, 2, 3]⟩, .request ⟨"Character", "conan", "Characters", payload "thoth"⟩,
    .refresh ⟨"Character", "Characters", packPayloads (some [255]) none⟩, .refresh ⟨"Player", "Characters", payload "thoth"⟩,
    .refresh ⟨"Character", "Characters", payload "conan"⟩]

theorem lists_keep_keys_rpg :
    (charactersField.get (RelatedCall.after playerConcern keyedTypes.empty characterCalls)).map charactersField.typeMsg.key =
        ["conan", "belit"] ∧
      ((charactersField.get (RelatedCall.after playerConcern keyedTypes.empty characterCalls)).map
        charactersField.typeMsg.key).Nodup ∧
      ∀ front call back, characterCalls = front ++ call :: back →
        call.Leaves playerConcern (RelatedCall.after playerConcern keyedTypes.empty front)
          (Early.exec (call.method playerConcern) (RelatedCall.after playerConcern keyedTypes.empty front)).1
          (RelatedCall.after playerConcern keyedTypes.empty (front ++ [call])) :=
  ⟨by decide +kernel, RelatedCall.lists_keep_keys playerConcern_isStruct charactersField_mem (by decide +kernel)
    (by decide +kernel) characterCalls⟩

end Gen

end Rocketcycle
