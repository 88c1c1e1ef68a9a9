import Rocketcycle.Rkcy.ApecsTxn
import Rocketcycle.Rkcy.Payload
import Rocketcycle.Jsonutils.Inverse
import Rocketcycle.Watch.Display

/-!
# The JSON of a transaction

What `protojson` with `EmitUnpopulated` writes of an `ApecsTxn`: every field under its JSON name, in the
order of the message, a byte field in base 64, an enumeration by name, and a message that is not there as
`null`. Of such a transaction decoding for display adds to the tree, and does nothing else to it.
-/

namespace Rocketcycle.Decode
open Jsonutils

/-! ## The mapping -/

/-- The JSON names of an `ApecsTxn`, in the order of the message. -/
def txnFields : List Bytes :=
  ["id", "assocTxns", "responseTarget", "currentStepIdx", "direction", "uponError", "forwardSteps", "reverseSteps"].map word

/-- Those of a step. -/
def stepFields : List Bytes :=
  ["system", "concern", "command", "key", "payload", "effectiveTime", "cmpdOffset", "instance", "result"].map word

/-- Those of a result. -/
def resultFields : List Bytes := ["code", "processedTime", "logEvents", "key", "payload", "instance", "cmpdOffset"].map word

/-- The enumeration has a name for the number. -/
def isNamed : System → Bool
  | .unknown _ => false
  | _ => true

/-- A byte field. -/
def opaqueJson {F : Type} (b : Option Bytes) : Json F := .string (bytes (encodeToString b))

section
variable {F : Type}

/-- What is written of a result. -/
structure ResultJson (r : StepResult) (rslt : OrderedMap F) : Prop where
  fields : OrderedMap.keys rslt = resultFields
  payload : rslt.lookup (word "payload") = some (opaqueJson r.payload)
  inst : rslt.lookup (word "instance") = some (opaqueJson r.inst)

/-- What is written of a step: the number of its system where that has no name, and `null` for a result
that is not there. -/
structure StepJson (step : Step) (s : OrderedMap F) : Prop where
  fields : OrderedMap.keys s = stepFields
  system : isNamed step.system = true → s.lookup (word "system") = some (.string (word step.system.string))
  number : isNamed step.system = false → ∃ n, s.lookup (word "system") = some (.number n)
  concern : s.lookup (word "concern") = some (.string (bytes step.concern))
  command : s.lookup (word "command") = some (.string (bytes step.command))
  payload : s.lookup (word "payload") = some (opaqueJson step.payload)
  inst : s.lookup (word "instance") = some (opaqueJson step.inst)
  noResult : step.result = none → s.lookup (word "result") = some .null
  result : ∀ r, step.result = some r → ∃ rslt, s.lookup (word "result") = some (.object rslt) ∧ ResultJson r rslt

/-- What is written of a transaction, with its steps in order. -/
structure TxnJson (txn : ApecsTxn) (tree : OrderedMap F) : Prop where
  fields : OrderedMap.keys tree = txnFields
  forward : ∃ steps, tree.lookup (word "forwardSteps") = some (.array (steps.map .object)) ∧ List.Forall₂ StepJson txn.forwardSteps steps
  reverse : ∃ steps, tree.lookup (word "reverseSteps") = some (.array (steps.map .object)) ∧ List.Forall₂ StepJson txn.reverseSteps steps

/-! ## Before anything is added -/

/-- Only no bytes are no text. -/
theorem base64Encode_isEmpty (b : Bytes) : (base64Encode b).isEmpty = b.isEmpty := by
  unfold base64Encode
  split <;> rfl

/-- A byte field is decoded for display if there are bytes in it. -/
theorem hasBytes_opaqueJson (b : Option Bytes) : hasBytes (F := F) (opaqueJson b) = !(b.getD []).isEmpty := by
  rw [← base64Encode_isEmpty]
  unfold opaqueJson encodeToString bytes hasBytes
  rw [String.toList_ofList]
  cases base64Encode (b.getD []) with
  | nil => rfl
  | cons c cs =>
    exact congrArg not (List.isEmpty_eq_false_iff.2 (List.append_ne_nil_of_left_ne_nil String.utf8EncodeChar_ne_nil (Utf8.encode cs)))

/-- No field of a message has a name that is put behind one. -/
theorem plain_of_keys {m : OrderedMap F} {fields : List Bytes} (keys : OrderedMap.keys m = fields) (nodup : fields.Nodup)
    (unadded : ∀ k ∈ fields, ∀ o ∈ opaques, k ∉ [o.dec, o.decErr]) : Plain m := by
  refine ⟨keys ▸ nodup, ?_⟩
  intro e he
  rw [← Bool.not_eq_true, isAdded_iff]
  rintro ⟨o, ho, adds⟩
  have mem : e.1 ∈ OrderedMap.keys m := List.mem_map.2 ⟨e, he, rfl⟩
  exact unadded e.1 (keys ▸ mem) o ho (Opaque.adds_iff.1 adds)

theorem ResultJson.plain {r : StepResult} {rslt : OrderedMap F} (json : ResultJson r rslt) : Plain rslt :=
  plain_of_keys json.fields (by decide +kernel) (by decide +kernel)

/-- A step has no name that decoding adds, nor has its result. -/
theorem StepJson.plain {step : Step} {s : OrderedMap F} (json : StepJson step s) : PlainStep s where
  step := plain_of_keys json.fields (by decide +kernel) (by decide +kernel)
  result rslt found := by
    cases hr : step.result with
    | none => cases (json.noResult hr).symm.trans found
    | some r =>
      obtain ⟨rslt', found', json'⟩ := json.result r hr
      cases found.symm.trans found'
      exact json'.plain

/-- So it is of all steps of a transaction. -/
theorem TxnJson.plain {txn : ApecsTxn} {tree : OrderedMap F} (json : TxnJson txn tree) :
    ∃ fw rev, PlainTxn tree fw rev ∧ List.Forall₂ StepJson txn.forwardSteps fw ∧ List.Forall₂ StepJson txn.reverseSteps rev := by
  obtain ⟨fw, forward, hfw⟩ := json.forward
  obtain ⟨rev, reverse, hrev⟩ := json.reverse
  refine ⟨fw, rev, ⟨json.fields ▸ by decide +kernel, forward, reverse, ?_⟩, hfw, hrev⟩
  intro s hs
  rcases List.mem_append.1 hs with hs | hs
  · obtain ⟨step, -, json⟩ := Entries.forall₂_right hfw hs
    exact json.plain
  · obtain ⟨step, -, json⟩ := Entries.forall₂_right hrev hs
    exact json.plain

/-- A name of the enumeration is read back. -/
theorem systemValue_string {system : System} (named : isNamed system = true) : (systemValue (word system.string)).isSome = true := by
  cases system with
  | unknown n => cases named
  | noSystem | process | storage | storageScnd => decide +kernel

/-- The steps that are decoded are those of a system with a name. -/
theorem StepJson.isDecoded {step : Step} {s : OrderedMap F} (json : StepJson step s) : isDecoded s = isNamed step.system := by
  unfold Decode.isDecoded
  rw [json.concern, json.command]
  cases named : isNamed step.system with
  | false =>
    obtain ⟨n, number⟩ := json.number named
    rw [number]
  | true =>
    rw [json.system named]
    exact systemValue_string named

/-! ## Transactions -/

/-- A step as it is displayed. -/
structure Displayed (step : Step) (s : OrderedMap F) : Prop where
  payload : payloadOpaque.Shown (isNamed step.system && !(step.payload.getD []).isEmpty) s
  inst : instanceOpaque.Shown (isNamed step.system && !(step.inst.getD []).isEmpty) s
  result : ∀ r, step.result = some r → ∃ rslt, s.lookup (word "result") = some (.object rslt) ∧
    payloadOpaque.Shown (isNamed step.system && !(r.payload.getD []).isEmpty) rslt ∧
    instanceOpaque.Shown (isNamed step.system && !(r.inst.getD []).isEmpty) rslt

/-- What is shown beside a step as written is what a display of the step shows. -/
theorem StepShown.displayed {step : Step} {s s' : OrderedMap F} (json : StepJson step s) (shown : StepShown (Decode.isDecoded s) s s') :
    Displayed step s' := by
  have fields := shown.fields
  have result := shown.result
  rw [json.isDecoded] at fields result
  constructor
  · have payload := fields payloadOpaque (by decide)
    rw [show s.lookup payloadOpaque.field = _ from json.payload, Option.any_some, hasBytes_opaqueJson] at payload
    exact payload
  · have inst := fields instanceOpaque (by decide)
    rw [show s.lookup instanceOpaque.field = _ from json.inst, Option.any_some, hasBytes_opaqueJson] at inst
    exact inst
  · intro r hr
    obtain ⟨rslt, found, rjson⟩ := json.result r hr
    obtain ⟨rslt', found', fields'⟩ := result rslt found
    refine ⟨rslt', found', ?_, ?_⟩
    · have payload := fields' payloadOpaque (by decide)
      rw [show rslt.lookup payloadOpaque.field = _ from rjson.payload, Option.any_some, hasBytes_opaqueJson] at payload
      exact payload
    · have inst := fields' instanceOpaque (by decide)
      rw [show rslt.lookup instanceOpaque.field = _ from rjson.inst, Option.any_some, hasBytes_opaqueJson] at inst
      exact inst

/-- Step by step, the same of a list. -/
theorem StepsShown.displayed {steps : List Step} {ss ss' : List (OrderedMap F)} (json : List.Forall₂ StepJson steps ss)
    (shown : StepsShown ss ss') : List.Forall₂ Displayed steps ss' := by
  induction json generalizing ss' with
  | nil =>
    cases shown
    exact .nil
  | cons hs _ ih =>
    cases shown with
    | cons hshown rest => exact .cons (StepShown.displayed hs hshown) (ih rest)

variable {Msg : Type} {lib : Library Msg F} {concernHandlers : ConcernHandlers Msg} {fuel : Nat}

/-- Where `protojson` writes the fields of a transaction, decoding for display only adds to its tree. -/
theorem decodeTxnOpaques_only_adds {pjMarshal : ApecsTxn → Read Bytes} {txn : ApecsTxn} {out : Bytes}
    (written : ∀ json, pjMarshal txn = .ok json →
      ∃ tree, Text (rfc8259 lib.parseFloat .unsigned) json (.object tree) ∧ TxnJson txn tree)
    (h : decodeTxnOpaques lib concernHandlers fuel pjMarshal txn = .ok out) :
    ∃ json parsed tree fw rev, pjMarshal txn = .ok json ∧ unmarshalMap lib json = .ok parsed ∧
      out = marshalOrderedIndent lib.formatFloat (.object tree) [] (word "  ") ∧ txnWithoutAdded tree = parsed ∧
      tree.lookup (word "forwardSteps") = some (.array (fw.map .object)) ∧ List.Forall₂ Displayed txn.forwardSteps fw ∧
      tree.lookup (word "reverseSteps") = some (.array (rev.map .object)) ∧ List.Forall₂ Displayed txn.reverseSteps rev := by
  obtain ⟨json, marshalled, rest⟩ := Early.bind_eq_ok.1 h
  obtain ⟨parsed, read, -⟩ := Early.bind_eq_ok.1 rest
  obtain ⟨tree, text, fields⟩ := written json marshalled
  obtain ⟨v, hv, made⟩ := Early.bind_eq_ok.1 read
  obtain ⟨rfl, -⟩ := (unmarshalOrdered_text text v).1 hv
  cases made
  obtain ⟨fw, rev, plain, hfw, hrev⟩ := fields.plain
  obtain ⟨tree', fw', rev', output, removed, forward, fwShown, reverse, revShown⟩ := decodeTxnOpaques_shown marshalled read plain h
  exact ⟨json, tree, tree', fw', rev', marshalled, read, output, removed, forward, fwShown.displayed hfw, reverse, revShown.displayed hrev⟩

end

/-! ## A sample -/

/-- A character of the ASCII code that needs no escape. -/
def isUnescaped (c : Char) : Bool := 0x20 ≤ c.toNat && c.toNat < 0x80 && c != '"' && c != '\\'

/-- A text of such characters stands for itself. -/
theorem rfcBody_word {unicodeEscapes : Bool} {cs : List Char} (plain : cs.all isUnescaped = true) : RfcBody unicodeEscapes (cs.map ch) (cs.map ch) := by
  induction cs with
  | nil => exact .nil
  | cons c cs ih =>
    simp only [List.all_cons, isUnescaped, Bool.and_eq_true, decide_eq_true_eq, bne_iff_ne] at plain
    obtain ⟨⟨⟨⟨printable, ascii⟩, quote⟩, backslash⟩, others⟩ := plain
    have rest := RfcBody.char printable quote backslash (ih others)
    rcases Utf8.utf8EncodeChar_cases c with ⟨-, single⟩ | ⟨high, -⟩
    · rw [single] at rest
      exact rest
    · omega

/-- The grammar of the sample, whose only number is zero. -/
abbrev sampleDialect : Dialect Unit := rfc8259 zeroParse .unsigned

section
variable {r b b' : Bytes}

theorem sampleString (s : String) (plain : s.toList.all isUnescaped = true := by decide +kernel) :
    Derives sampleDialect (.value (.string (word s))) (ch '"' :: (word s ++ ch '"' :: r)) r :=
  .string ⟨_, .refl _, .string (rfcBody_word plain)⟩

theorem sampleEmpty : Derives sampleDialect (.value (.string [])) (ch '"' :: ch '"' :: r) r :=
  .string ⟨_, .refl _, @Lexeme.string _ sampleDialect [] [] r RfcBody.nil⟩

theorem sampleNull : Derives sampleDialect (.value .null) (word "null" ++ r) r := .null ⟨_, .refl _, .nullWord⟩

/-- A name with its colon behind it. -/
theorem sampleKey (k : String) (plain : k.toList.all isUnescaped = true) :
    KeyColon sampleDialect (ch '"' :: (word k ++ ch '"' :: ch ':' :: r)) (word k) r :=
  ⟨_, ⟨_, .refl _, .string (rfcBody_word plain)⟩, .inl rfl, _, .refl _, .colon⟩

/-- A member with another one behind it. -/
theorem sampleMember {after : Bool} {es : List (Bytes × Json Unit)} {v : Json Unit} (k : String)
    (value : Derives sampleDialect (.value v) b (ch ',' :: b')) (rest : Derives sampleDialect (.members true es) b' r)
    (plain : k.toList.all isUnescaped = true := by decide +kernel) :
    Derives sampleDialect (.members after ((word k, v) :: es)) (ch '"' :: (word k ++ ch '"' :: ch ':' :: b)) r :=
  .member (sampleKey k plain) value ⟨_, .refl _, .comma⟩ rest

/-- The last member of an object. -/
theorem sampleLastMember {after : Bool} {v : Json Unit} (k : String)
    (value : Derives sampleDialect (.value v) b (ch '\x7d' :: r))
    (plain : k.toList.all isUnescaped = true := by decide +kernel) :
    Derives sampleDialect (.members after [(word k, v)]) (ch '"' :: (word k ++ ch '"' :: ch ':' :: b)) r :=
  .lastMember (sampleKey k plain) value ⟨_, .refl _, .objectEnd⟩

theorem sampleZero : Derives sampleDialect (.value (.number ())) (word "0" ++ ch ',' :: r) (ch ',' :: r) := by
  refine .number ⟨_, .refl _, .number ⟨⟨[], word "0", [], [], rfl, .inl rfl, .inl rfl, .inl rfl, .inl rfl⟩, rfl⟩ ?_⟩
  intro c hc
  cases hc
  decide

/-- An object between its braces, in which no name occurs twice. -/
theorem sampleObject {es : List (Bytes × Json Unit)} (members : Derives sampleDialect (.members false es) b r)
    (nodup : (es.map Prod.fst).Nodup) : Derives sampleDialect (.value (.object es)) (ch '\x7b' :: b) r := by
  have made := Derives.object ⟨_, .refl _, .objectStart⟩ members
  rwa [ofEntries_of_nodup nodup] at made

theorem sampleNoSteps : Derives sampleDialect (.value (.array [])) (ch '[' :: ch ']' :: r) r :=
  .array ⟨_, .refl _, .arrayStart⟩ (.elementsEnd nofun ⟨_, .refl _, .arrayEnd⟩)

/-- A list of one step. -/
theorem sampleOneStep {v : Json Unit} (value : Derives sampleDialect (.value v) b (ch ']' :: r)) :
    Derives sampleDialect (.value (.array [v])) (ch '[' :: b) r :=
  .array ⟨_, .refl _, .arrayStart⟩ (.lastElement value ⟨_, .refl _, .arrayEnd⟩)

end

def sampleResult : StepResult := { code := .ok, payload := some [1] }

def sampleStep : Step where
  system := .process
  concern := "C"
  command := "X"
  payload := some [1]
  result := some sampleResult

/-- A step of a concern that has no decoder. -/
def sampleReverse : Step := { sampleStep with concern := "D", result := none }

def sampleTxn : ApecsTxn where
  id := "t"
  uponError := .report
  forwardSteps := [sampleStep]
  reverseSteps := [sampleReverse]

def sampleResultJson : OrderedMap Unit :=
  [(word "code", .string (word "OK")), (word "processedTime", .null), (word "logEvents", .array []), (word "key", .string []),
    (word "payload", .string (word "AQ==")), (word "instance", .string []), (word "cmpdOffset", .null)]

/-- A step of a concern, with its result. -/
def sampleStepJson (concern : String) (result : Json Unit) : OrderedMap Unit :=
  [(word "system", .string (word "PROCESS")), (word "concern", .string (word concern)), (word "command", .string (word "X")),
    (word "key", .string []), (word "payload", .string (word "AQ==")), (word "effectiveTime", .null), (word "cmpdOffset", .null),
    (word "instance", .string []), (word "result", result)]

def sampleForwardJson : OrderedMap Unit := sampleStepJson "C" (.object sampleResultJson)

def sampleReverseJson : OrderedMap Unit := sampleStepJson "D" .null

def sampleTree : OrderedMap Unit :=
  [(word "id", .string (word "t")), (word "assocTxns", .array []), (word "responseTarget", .null), (word "currentStepIdx", .number ()),
    (word "direction", .string (word "FORWARD")), (word "uponError", .string (word "REPORT")),
    (word "forwardSteps", .array [.object sampleForwardJson]), (word "reverseSteps", .array [.object sampleReverseJson])]

/-- What `protojson` writes of the transaction, on one line. -/
def sampleJson : Bytes :=
  ["\x7b", "\"id\":\"t\",", "\"assocTxns\":[],", "\"responseTarget\":null,", "\"currentStepIdx\":0,",
    "\"direction\":\"FORWARD\",", "\"uponError\":\"REPORT\",", "\"forwardSteps\":[\x7b", "\"system\":\"PROCESS\",",
    "\"concern\":\"C\",", "\"command\":\"X\",", "\"key\":\"\",", "\"payload\":\"AQ==\",", "\"effectiveTime\":null,",
    "\"cmpdOffset\":null,", "\"instance\":\"\",", "\"result\":\x7b", "\"code\":\"OK\",", "\"processedTime\":null,",
    "\"logEvents\":[],", "\"key\":\"\",", "\"payload\":\"AQ==\",", "\"instance\":\"\",", "\"cmpdOffset\":null", "\x7d\x7d],",
    "\"reverseSteps\":[\x7b", "\"system\":\"PROCESS\",", "\"concern\":\"D\",", "\"command\":\"X\",", "\"key\":\"\",",
    "\"payload\":\"AQ==\",", "\"effectiveTime\":null,", "\"cmpdOffset\":null,", "\"instance\":\"\",", "\"result\":null",
    "\x7d]\x7d"].flatMap word

theorem sampleJson_text : Text sampleDialect sampleJson (.object sampleTree) := by
  have derived : ∃ text, Derives sampleDialect (.value (.object sampleTree)) text [] ∧ text = sampleJson :=
    ⟨_, sampleObject (sampleMember "id" (sampleString "t") (sampleMember "assocTxns" sampleNoSteps
      (sampleMember "responseTarget" sampleNull (sampleMember "currentStepIdx" sampleZero
      (sampleMember "direction" (sampleString "FORWARD") (sampleMember "uponError" (sampleString "REPORT")
      (sampleMember "forwardSteps" (sampleOneStep (sampleObject (sampleMember "system" (sampleString "PROCESS")
        (sampleMember "concern" (sampleString "C") (sampleMember "command" (sampleString "X")
        (sampleMember "key" sampleEmpty (sampleMember "payload" (sampleString "AQ==")
        (sampleMember "effectiveTime" sampleNull (sampleMember "cmpdOffset" sampleNull
        (sampleMember "instance" sampleEmpty (sampleLastMember "result" (sampleObject (sampleMember "code" (sampleString "OK")
        (sampleMember "processedTime" sampleNull (sampleMember "logEvents" sampleNoSteps (sampleMember "key" sampleEmpty
        (sampleMember "payload" (sampleString "AQ==") (sampleMember "instance" sampleEmpty
        (sampleLastMember "cmpdOffset" sampleNull))))))) (by decide +kernel))))))))))) (by decide +kernel)))
      (sampleLastMember "reverseSteps" (sampleOneStep (sampleObject (sampleMember "system" (sampleString "PROCESS")
        (sampleMember "concern" (sampleString "D") (sampleMember "command" (sampleString "X")
        (sampleMember "key" sampleEmpty (sampleMember "payload" (sampleString "AQ==")
        (sampleMember "effectiveTime" sampleNull (sampleMember "cmpdOffset" sampleNull
        (sampleMember "instance" sampleEmpty (sampleLastMember "result" sampleNull))))))))) (by decide +kernel))))))))))) (by decide +kernel), by decide +kernel⟩
  obtain ⟨text, der, same⟩ := derived
  exact same ▸ ⟨[], der, .refl _⟩

section
variable {concern : String} {result : Json Unit}

theorem sampleStepJson_lookup {k : Bytes} {v : Json Unit} (mem : (k, v) ∈ sampleStepJson concern result) :
    (sampleStepJson concern result).lookup k = some v := by
  have nodup : ((sampleStepJson concern result).map Prod.fst).Nodup := by
    show stepFields.Nodup
    decide +kernel
  exact (Entries.lookup_eq_some nodup).2 mem

/-- The fields of the steps, but for their results. -/
theorem sampleStepJson_fields {step : Step} (hconcern : bytes step.concern = word concern) (hcommand : step.command = "X")
    (hsystem : step.system = .process) (hpayload : step.payload = some [1]) (hinst : step.inst = none)
    (noResult : step.result = none → result = .null)
    (hresult : ∀ r, step.result = some r → ∃ rslt, result = .object rslt ∧ ResultJson r rslt) :
    StepJson step (sampleStepJson concern result) where
  fields := rfl
  system _ := by
    rw [hsystem]
    exact sampleStepJson_lookup List.mem_cons_self
  number named := by
    rw [hsystem] at named
    cases named
  concern := by
    rw [hconcern]
    exact sampleStepJson_lookup (by simp [sampleStepJson])
  command := by
    rw [hcommand, show bytes "X" = word "X" by decide +kernel]
    exact sampleStepJson_lookup (by simp [sampleStepJson])
  payload := by
    rw [opaqueJson, hpayload, show bytes (encodeToString (some [1])) = word "AQ==" by decide +kernel]
    exact sampleStepJson_lookup (by simp [sampleStepJson])
  inst := by
    rw [opaqueJson, hinst, show bytes (encodeToString none) = [] by decide +kernel]
    exact sampleStepJson_lookup (by simp [sampleStepJson])
  noResult h := by
    rw [noResult h]
    exact sampleStepJson_lookup (by simp [sampleStepJson])
  result r h := by
    obtain ⟨rslt, rfl, json⟩ := hresult r h
    exact ⟨rslt, sampleStepJson_lookup (by simp [sampleStepJson]), json⟩

end

theorem sampleResultJson_fields : ResultJson sampleResult sampleResultJson where
  fields := rfl
  payload := by
    rw [opaqueJson, show bytes (encodeToString sampleResult.payload) = word "AQ==" by decide +kernel]
    exact (Entries.lookup_eq_some (by decide +kernel)).2 (by simp [sampleResultJson])
  inst := by
    rw [opaqueJson, show bytes (encodeToString sampleResult.inst) = [] by decide +kernel]
    exact (Entries.lookup_eq_some (by decide +kernel)).2 (by simp [sampleResultJson])

theorem sampleTree_fields : TxnJson sampleTxn sampleTree where
  fields := by decide +kernel
  forward := by
    refine ⟨[sampleForwardJson], (Entries.lookup_eq_some (by decide +kernel)).2 (by simp [sampleTree]), .cons ?_ .nil⟩
    apply sampleStepJson_fields (by decide +kernel) rfl rfl rfl rfl
    · rintro ⟨⟩
    · rintro r ⟨⟩
      exact ⟨sampleResultJson, rfl, sampleResultJson_fields⟩
  reverse := by
    refine ⟨[sampleReverseJson], (Entries.lookup_eq_some (by decide +kernel)).2 (by simp [sampleTree]), .cons ?_ .nil⟩
    apply sampleStepJson_fields (by decide +kernel) rfl rfl rfl rfl
    · exact fun _ => rfl
    · rintro r ⟨⟩

def sampleLibrary : Library Unit Unit where
  marshal _ := .ok (word "\x7b\"a\":0\x7d")
  marshalDefault _ := .ok (word "\x7b\x7d")
  asRelatedRequest _ := none
  asRelatedResponse _ := none
  decode64 b := if b = word "AQ==" then .ok [1] else .ok []
  instanceJson _ _ _ := .ok (word "\x7b\x7d")
  parseFloat := zeroParse
  formatFloat := zeroFormat
  behind _ := []

def sampleHandlers : ConcernHandlers Unit := fun concern =>
  if concern = word "C" then some
    { decodeInstance := fun _ => .ok ⟨word "M", some (), none⟩
      decodeArg := fun _ _ _ => .ok ⟨word "M", some (), none⟩
      decodeResult := fun _ _ _ => .ok ⟨word "M", some (), none⟩
      decodeRelatedRequest := fun _ => .ok ⟨word "M", some (), none⟩ }
  else none

/-- `protojson` at the transaction. -/
def samplePj (_ : ApecsTxn) : Read Bytes := .ok sampleJson

theorem samplePj_written : ∀ json, samplePj sampleTxn = .ok json →
    ∃ tree, Text (rfc8259 sampleLibrary.parseFloat .unsigned) json (.object tree) ∧ TxnJson sampleTxn tree := by
  intro json marshalled
  rw [← Except.ok.inj marshalled]
  exact ⟨sampleTree, sampleJson_text, sampleTree_fields⟩

/-- Payloads that are decoded, in a step and in its result, and one whose decoder fails. -/
theorem decodeTxnOpaques_only_adds_sample : ∃ parsed tree s rslt s', unmarshalMap sampleLibrary sampleJson = .ok parsed ∧
    txnWithoutAdded tree = parsed ∧ tree.lookup (word "forwardSteps") = some (.array [.object s]) ∧
    tree.lookup (word "reverseSteps") = some (.array [.object s']) ∧ s.lookup (word "result") = some (.object rslt) ∧
    payloadOpaque.Shown true s ∧ instanceOpaque.Shown false s ∧ payloadOpaque.Shown true rslt ∧ payloadOpaque.Shown true s' := by
  have ok : (decodeTxnOpaques sampleLibrary sampleHandlers 1 samplePj sampleTxn).isOk = true := by
    decide +kernel
  cases h : decodeTxnOpaques sampleLibrary sampleHandlers 1 samplePj sampleTxn with
  | error e =>
    rw [h] at ok
    cases ok
  | ok out =>
    obtain ⟨json, parsed, tree, fw, rev, marshalled, read, -, removed, forward, shown, reverse, shownBack⟩ :=
      decodeTxnOpaques_only_adds samplePj_written h
    rw [← Except.ok.inj marshalled] at read
    cases shown with
    | @cons _ s _ _ step rest =>
      cases rest
      cases shownBack with
      | @cons _ s' _ _ back rest =>
        cases rest
        obtain ⟨rslt, found, inResult, -⟩ := step.result sampleResult rfl
        exact ⟨parsed, tree, s, rslt, s', read, removed, forward, reverse, found, step.payload, step.inst, inResult, back.payload⟩

/-- The concern of the reverse step has no decoder: the text of the error stands behind its payload. -/
example : (decStep sampleLibrary sampleHandlers 1 (.object sampleReverseJson)).toOption.any (fun v =>
    match v with
    | .object s => (s.lookup payloadOpaque.decErr).isSome
    | _ => false) = true := by decide +kernel

end Rocketcycle.Decode
