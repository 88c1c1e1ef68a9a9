import Rocketcycle.Rkcy.Commands

/-!
# The catalog of the code generator

`cmd/protoc-gen-rkcy/main.go`: the messages and services of the files to generate for are sorted into
configs and concerns, and the relations of every concern are checked. What only finds its way into a
debug print is left out.
-/

namespace Rocketcycle.Gen

/-! ## Descriptors -/

inductive FieldType where
  | string
  | message
  | other
  deriving DecidableEq, Repr

/-- The option `rkcy.relation`. -/
structure Relation where
  idField : String := ""
  relField : String := ""
  pairedWith : String := ""
  deriving DecidableEq, Repr

/-- `isKey` and `relation` are options of the field. -/
structure FieldDescriptorProto where
  name : String
  type : FieldType
  typeName : String := ""
  isRepeated : Bool := false
  isKey : Bool := false
  relation : Option Relation := none
  deriving DecidableEq, Repr

structure DescriptorProto where
  name : String
  field : List FieldDescriptorProto
  isConfig : Bool := false
  isConcern : Bool := false
  deriving DecidableEq, Repr

structure MethodDescriptorProto where
  name : String
  inputType : String
  outputType : String
  deriving DecidableEq, Repr

structure ServiceDescriptorProto where
  name : String
  method : List MethodDescriptorProto
  deriving DecidableEq, Repr

structure FileDescriptorProto where
  package : Option String
  messageType : List DescriptorProto
  service : List ServiceDescriptorProto := []
  deriving DecidableEq, Repr

/-! ## Strings -/

def isASCIILower (c : Char) : Bool := 'a' ≤ c && c ≤ 'z'

def isASCIIDigit (c : Char) : Bool := '0' ≤ c && c ≤ '9'

def startsLower : List Char → Bool
  | [] => false
  | c :: _ => isASCIILower c

/-- The loop of `GoCamelCase`. `prev` is the character before, `word` says that a word has begun, whose
lower case letters are taken as they are. -/
def goCamelCaseFrom (prev : Option Char) (word : Bool) : List Char → List Char
  | [] => []
  | c :: cs =>
    if word && isASCIILower c then c :: goCamelCaseFrom (some c) true cs
    else if c = '.' then
      if startsLower cs then goCamelCaseFrom (some c) false cs else '_' :: goCamelCaseFrom (some c) false cs
    else if c = '_' && (prev.isNone || prev = some '.') then 'X' :: goCamelCaseFrom (some c) false cs
    else if c = '_' && startsLower cs then goCamelCaseFrom (some c) false cs
    else if isASCIIDigit c then c :: goCamelCaseFrom (some c) false cs
    else (if isASCIILower c then c.toUpper else c) :: goCamelCaseFrom (some c) true cs

def goCamelCase (s : String) : String := String.ofList (goCamelCaseFrom none false s.toList)

/-- `strings.TrimPrefix`. -/
def trimPrefix (s pre : String) : String :=
  if pre.toList.isPrefixOf s.toList then String.ofList (s.toList.drop pre.length) else s

def isRelatedName (name : String) : Bool :=
  "Related".toList.isSuffixOf name.toList && name.length > "Related".length

/-! ## The catalog -/

/-- A message of the catalog. The key field is that of a config, a concern or a related message that
has been built. -/
structure Message where
  name : String
  package : Option String
  msgPb : DescriptorProto
  keyField : String := ""
  keyFieldGo : String := ""
  isConfig : Bool
  isConcern : Bool
  isRelated : Bool
  deriving DecidableEq, Repr

structure Service where
  name : String
  package : Option String
  svcPb : ServiceDescriptorProto
  deriving DecidableEq, Repr

structure RelatedField where
  name : String
  nameGo : String
  typeMsg : Message
  idField : String := ""
  idFieldGo : String := ""
  relField : String := ""
  relFieldGo : String := ""
  isPureRelCnc : Bool := false
  pairedWith : Option String := none
  isRepeated : Bool
  deriving DecidableEq, Repr

structure Related where
  msg : Message
  fields : List RelatedField := []
  hasFwdCncs : Bool := false
  hasRvsCncs : Bool := false
  hasPureRelCncs : Bool := false
  hasConfigs : Bool := false
  deriving DecidableEq, Repr

/-- A command of a service. The names the platform reserves are not free to be one. -/
structure Command where
  name : String
  input : Option String
  output : Option String
  free : isReservedCommand name = false
  deriving DecidableEq, Repr

structure Concern where
  name : String
  msg : Message
  related : Option Related := none
  commands : List Command := []
  deriving DecidableEq, Repr

structure Catalog where
  messages : List Message := []
  services : List Service := []
  concerns : List Concern := []
  deriving DecidableEq, Repr

/-- `MessageMap`: of two messages of one name the later one. -/
def Catalog.messageMap (cat : Catalog) (name : String) : Option Message :=
  cat.messages.reverse.find? fun msg => msg.name = name

def Catalog.serviceMap (cat : Catalog) (name : String) : Option Service :=
  cat.services.reverse.find? fun svc => svc.name = name

def fail {α : Type} (msg : String) : Reply α := .error (.err (.other msg))

def derefOrPanic {α : Type} : Option α → Reply α
  | some a => .ok a
  | none => .error (.panic .nilDeref)

def findField (pbMsg : DescriptorProto) (fieldName : String) : Option FieldDescriptorProto :=
  pbMsg.field.find? fun pbField => pbField.name = fieldName

/-- The loop of `findKeyField`, with the key field so far. -/
def findKeyFieldIn (msgName keyField : String) : List FieldDescriptorProto → Reply String
  | [] => .ok keyField
  | pbField :: rest =>
    if pbField.isKey then
      if pbField.type ≠ .string then fail s!"Non string field with is_key=true: {msgName}.{pbField.name}s"
      else if keyField = "" then findKeyFieldIn msgName pbField.name rest
      else fail s!"Multiple fields with is_key=true: {msgName}.s and {keyField}.{pbField.name}s"
    else findKeyFieldIn msgName keyField rest

def findKeyField (pbMsg : DescriptorProto) : Reply String := do
  let keyField ← findKeyFieldIn pbMsg.name "" pbMsg.field
  if keyField = "" then fail s!"No field found with is_key=true: {pbMsg.name}" else return keyField

/-! ## Relations -/

/-- `TypeMsg` of a field, and `TypeMsgRel` when that is a concern. -/
def fieldTypes (cat : Catalog) (msgName pkgPrefix : String) (pbField : FieldDescriptorProto) :
    Reply (Message × Option Message) := do
  let fieldType := trimPrefix pbField.typeName pkgPrefix
  match cat.messageMap fieldType with
  | none => fail s!"Related field type not found: {msgName}.{pbField.name}"
  | some typeMsg =>
    if !typeMsg.isConcern && !typeMsg.isConfig && !typeMsg.isRelated then
      fail s!"Related field not a concern, config, or related message: {msgName}.{pbField.name}"
    else if typeMsg.isConcern then
      match cat.messageMap (fieldType ++ "Related") with
      | none => fail s!"Related concern has no related data: {msgName}.{pbField.name}"
      | some typeMsgRel =>
        if !typeMsgRel.isRelated then
          fail s!"Related concern's related data is not a related message: {msgName}.{pbField.name}"
        else return (typeMsg, some typeMsgRel)
    else return (typeMsg, none)

/-- The `id_field` is a field of the concern's own message. -/
def checkIdField (cncMsg : DescriptorProto) (msgName idField : String) : Reply Unit :=
  if idField ≠ "" && (findField cncMsg idField).isNone then
    fail s!"Related id_field field not found: {msgName}.{idField}"
  else .ok ()

/-- The `rel_field` is looked for in the message of the field's type first, then in the related message
of that, which is nil for a type that is not a concern. -/
def checkRelField (msgName relField : String) (typeMsg : Message) (typeMsgRel : Option Message) : Reply Unit :=
  if relField ≠ "" && (findField typeMsg.msgPb relField).isNone then do
    let typeMsgRel ← derefOrPanic typeMsgRel
    if (findField typeMsgRel.msgPb relField).isNone then
      fail s!"Related rel_id_field not found: {msgName}.{relField}"
    else return ()
  else .ok ()

def checkPairedWith (rel : Related) (msgName fieldName : String) (rltn : Relation) : Reply Unit :=
  if rltn.pairedWith ≠ "" then
    if rltn.idField ≠ "" || rltn.relField ≠ "" then
      fail s!"Invalid rkcy.relation options, no id_field or rel_id_field incompatible with paird_with option: {msgName}.{fieldName}"
    else if rel.fields.any fun fld => fld.name = rltn.pairedWith then .ok ()
    else fail s!"Paired field not found: {msgName}.{fieldName}"
  else if rltn.idField = "" && rltn.relField = "" then
    fail s!"Invalid rkcy.relation options, no id_field or rel_id_field: {msgName}.{fieldName}"
  else .ok ()

/-- The `RelatedField` of a field that passes the checks. -/
def relatedField (typeMsg : Message) (pbField : FieldDescriptorProto) (rltn : Relation) : RelatedField where
  name := pbField.name
  nameGo := goCamelCase pbField.name
  typeMsg := typeMsg
  idField := rltn.idField
  idFieldGo := goCamelCase rltn.idField
  relField := rltn.relField
  relFieldGo := goCamelCase rltn.relField
  isPureRelCnc := rltn.relField ≠ "" && typeMsg.isConcern && rltn.idField = ""
  pairedWith := if rltn.pairedWith ≠ "" then some rltn.pairedWith else none
  isRepeated := pbField.isRepeated

/-- `append` to the fields, with what the field says of the message as a whole. -/
def Related.addField (rel : Related) (fld : RelatedField) : Related :=
  { rel with
    fields := rel.fields ++ [fld]
    hasFwdCncs := rel.hasFwdCncs || (fld.idField ≠ "" && fld.typeMsg.isConcern)
    hasRvsCncs := rel.hasRvsCncs || (fld.relField ≠ "" && fld.typeMsg.isConcern)
    hasPureRelCncs := rel.hasPureRelCncs || fld.isPureRelCnc
    hasConfigs := rel.hasConfigs || fld.typeMsg.isConfig }

/-- One turn of the loop of `buildRelated`. Its last check is of an `ok` that is true by then. -/
def buildRelatedField (cat : Catalog) (cncMsg : DescriptorProto) (pkgPrefix : String) (rel : Related)
    (pbField : FieldDescriptorProto) : Reply Related :=
  let msgName := rel.msg.name
  if pbField.name = rel.msg.keyField then .ok rel
  else if pbField.type ≠ .message then fail s!"Related field is not a message type: {msgName}.{pbField.name}"
  else do
    let (typeMsg, typeMsgRel) ← fieldTypes cat msgName pkgPrefix pbField
    match pbField.relation with
    | none => fail s!"Related field lacking 'rkcy.relation' option: {msgName}.{pbField.name}"
    | some rltn => do
      checkIdField cncMsg msgName rltn.idField
      checkRelField msgName rltn.relField typeMsg typeMsgRel
      checkPairedWith rel msgName pbField.name rltn
      let fld := relatedField typeMsg pbField rltn
      if fld.isRepeated && fld.idField ≠ "" && fld.relField = "" then
        fail s!"Invalid rkcy.relation options, repeated fields must have rel_id_field and no id_field: {msgName}.{pbField.name}"
      else if !fld.isRepeated && fld.idField = "" then
        fail s!"Invalid rkcy.relation options, no id_field for non repeated field: {msgName}.{pbField.name}"
      else return rel.addField fld

def buildRelated (cat : Catalog) (cncMsg : DescriptorProto) (msg : Message) (pkg : String) : Reply Related := do
  let keyField ← findKeyField msg.msgPb
  let rel : Related := { msg := { msg with keyField := keyField, keyFieldGo := goCamelCase keyField } }
  if msg.msgPb.field.isEmpty then fail s!"Related message has no fields: {msg.name}"
  else msg.msgPb.field.foldlM (buildRelatedField cat cncMsg s!".{pkg}.") rel

/-! ## The first pass -/

def addMessage (package : Option String) (cat : Catalog) (pbMsg : DescriptorProto) : Reply Catalog := do
  if pbMsg.isConfig && pbMsg.isConcern then fail s!"Message cannot be both a config and concern: {pbMsg.name}"
  else
    let keyField ← if pbMsg.isConfig || pbMsg.isConcern then findKeyField pbMsg else pure ""
    let msg : Message :=
      { name := pbMsg.name, package := package, msgPb := pbMsg, keyField := keyField, keyFieldGo := goCamelCase keyField,
        isConfig := pbMsg.isConfig, isConcern := pbMsg.isConcern, isRelated := isRelatedName pbMsg.name }
    let concerns := if pbMsg.isConcern then cat.concerns ++ [{ name := pbMsg.name, msg := msg }] else cat.concerns
    return { cat with messages := cat.messages ++ [msg], concerns := concerns }

def addFile (cat : Catalog) (pbFile : FileDescriptorProto) : Reply Catalog := do
  let cat ← pbFile.messageType.foldlM (addMessage pbFile.package) cat
  let svcs := pbFile.service.map fun pbSvc => (⟨pbSvc.name, pbFile.package, pbSvc⟩ : Service)
  return { cat with services := cat.services ++ svcs }

/-! ## The second pass -/

/-- The type of a method's input or output; `Void` is none. -/
def methodType (typePrefix type : String) : Option String :=
  if type = ".rkcy.Void" then none else some (trimPrefix (trimPrefix type ".") typePrefix)

def buildCommand (logicSvc : Service) (method : MethodDescriptorProto) : Reply Command :=
  if reserved : isReservedCommand method.name = true then
    fail s!"Reserved name used as Command: {logicSvc.name}.{method.name}"
  else do
    let typePrefix := (← derefOrPanic logicSvc.package) ++ "."
    return ⟨method.name, methodType typePrefix method.inputType, methodType typePrefix method.outputType,
      Bool.eq_false_iff.2 reserved⟩

def buildConcernRelated (cat : Catalog) (cnc : Concern) : Reply (Option Related) :=
  match cat.messageMap (cnc.name ++ "Related") with
  | none => .ok none
  | some relMsg => do
    let pkg ← derefOrPanic relMsg.package
    return some (← buildRelated cat cnc.msg.msgPb relMsg pkg)

def buildConcernCommands (cat : Catalog) (cnc : Concern) : Reply (List Command) :=
  match cat.serviceMap (cnc.name ++ "Logic") with
  | none => .ok []
  | some logicSvc => logicSvc.svcPb.method.mapM (buildCommand logicSvc)

def buildConcern (cat : Catalog) (cnc : Concern) : Reply Concern := do
  let related ← buildConcernRelated cat cnc
  let commands ← buildConcernCommands cat cnc
  return { cnc with related := related, commands := commands }

def buildCatalog (pbFiles : List FileDescriptorProto) : Reply Catalog := do
  let cat ← pbFiles.foldlM addFile {}
  let concerns ← cat.concerns.mapM (buildConcern cat)
  return { cat with concerns := concerns }

end Rocketcycle.Gen
