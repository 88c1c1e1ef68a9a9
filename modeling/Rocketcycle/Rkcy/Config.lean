import Rocketcycle.Rkcy.Logging
import Rocketcycle.Lib.GoMaps
import Rocketcycle.Lib.Runes

/-!
# Configurations

`pkg/rkcy/config.go`. A configuration is read from the object of a JSON text: strings, booleans and
numbers by their names, and lists of objects of a complex type, which are named after the type. What
`UnmarshalJson` answers is handed to `GetKey` before its error is looked at, so that an item which is
refused ends the process.

`encoding/json`, the protobuf libraries and the registered handlers are left open. An object in a list
is never looked into.
-/

namespace Rocketcycle.Configuration

/-- An item of a list: an object or anything else. -/
inductive Item (O : Type) where
  | object (val : O)
  | other

/-- A value of the object that a configuration is read from. One of another type has the text that an
error shows of it. -/
inductive Value (F O : Type) where
  | string (val : Bytes)
  | bool (val : Bool)
  | float64 (val : F)
  | list (items : List (Item O))
  | other (text : String)

/-- `ComplexConfigHandler`, for messages that are not nil. Where `UnmarshalJson` answers an error its
message is nil. -/
structure Handler (M : Type) where
  key : M → Bytes
  unmarshal : Bytes → Except GoError M
  unmarshalJson : Bytes → Except GoError M

/-- `GetKey` of the generated handlers: the assertion of the message's type fails on nil. -/
def Handler.getKey {M : Type} (h : Handler M) : Option M → Reply Bytes
  | none => .error (.panic .typeAssertion)
  | some msg => .ok (h.key msg)

/-- The libraries and the registered handlers. -/
structure Libraries (F O M : Type) where
  unmarshal : Bytes → Except GoError (GoMap Bytes (Value F O))
  marshal : GoMap Bytes (Value F O) → Except GoError Bytes
  unmarshalObject : Bytes → Except GoError O
  marshalObject : O → Except GoError Bytes
  protoMarshal : M → Except GoError Bytes
  protojsonMarshal : M → Except GoError Bytes
  complexConfigHandler : Bytes → Option (Handler M)

structure Config (F : Type) where
  stringVals : GoMap Bytes Bytes
  boolVals : GoMap Bytes Bool
  float64Vals : GoMap Bytes F
  complexVals : GoMap Bytes (GoMap Bytes Bytes)

variable {F O M : Type}

def newConfig : Config F := ⟨.empty, .empty, .empty, .empty⟩

namespace Config

def getComplexBytes (conf : Config F) (msgType key : Bytes) : Option Bytes :=
  (conf.complexVals.get msgType).bind fun confCmplx => confCmplx.get key

def setComplexBytes (conf : Config F) (msgType key val : Bytes) : Config F :=
  let confCmplx := (conf.complexVals.get msgType).getD .empty
  { conf with complexVals := conf.complexVals.assign msgType (confCmplx.assign key val) }

/-- An error of `proto.Marshal` is only logged. A nil message has no bytes. -/
def setComplexMsg (lib : Libraries F O M) (conf : Config F) (msgType key : Bytes) (msg : Option M) : Config F :=
  match msg with
  | none => conf.setComplexBytes msgType key []
  | some msg =>
    match lib.protoMarshal msg with
    | .error _ => conf
    | .ok msgBytes => conf.setComplexBytes msgType key msgBytes

end Config

/-! ## Names of types -/

/-- `"List"`. -/
def listSuffix : Bytes := [0x4C, 0x69, 0x73, 0x74]

/-- `strings.TrimSuffix(k, "List")`. -/
def trimList (k : Bytes) : Bytes := if listSuffix.isSuffixOf k then k.take (k.length - 4) else k

/-- `unicode.ToUpper` of a character below 256. -/
def upperRune (n : Nat) : Nat :=
  if 0x61 ≤ n ∧ n ≤ 0x7A then n - 32
  else if n = 0xB5 then 0x39C
  else if 0xE0 ≤ n ∧ n ≤ 0xFE ∧ n ≠ 0xF7 then n - 32
  else if n = 0xFF then 0x178
  else n

/-- `unicode.ToLower` of a character below 256. -/
def lowerRune (n : Nat) : Nat :=
  if 0x41 ≤ n ∧ n ≤ 0x5A then n + 32
  else if 0xC0 ≤ n ∧ n ≤ 0xDE ∧ n ≠ 0xD7 then n + 32
  else n

/-- `strings.ToUpper(string(b))`: the byte is taken as a character. -/
def upperByte (b : UInt8) : Bytes := String.utf8EncodeChar (Char.ofNat (upperRune b.toNat))

def lowerByte (b : UInt8) : Bytes := String.utf8EncodeChar (Char.ofNat (lowerRune b.toNat))

/-- The type whose list is named `k`. -/
def msgTypeOf (k : Bytes) : Option Bytes :=
  let msgType := trimList k
  if msgType = k then none
  else
    match msgType with
    | [] => none
    | first :: rest => some (upperByte first ++ rest)

/-! ## Reading -/

/-- Bytes in the text of an error. -/
def shown (b : Bytes) : String := String.ofList (Utf8.runes b)

section
variable (lib : Libraries F O M)

def readItem (k msgType : Bytes) (idx : Nat) (conf : Config F) : Item O → Reply (Config F)
  | .other => .error (.err (.other s!"Complex config not an object, {shown k} idx {idx}"))
  | .object itmMap =>
    match lib.marshalObject itmMap with
    | .error e => .error (.err (.other s!"Error re-marshalling complex config to json, {shown k} idx {idx}, err: '{e.text}'"))
    | .ok itmJsonBytes =>
      match lib.complexConfigHandler msgType with
      | none => .error (.err (.other s!"Complex config type not registered: {shown msgType}"))
      | some confHdlr =>
        -- the error of `UnmarshalJson` is dropped
        let msg := (confHdlr.unmarshalJson itmJsonBytes).toOption
        match confHdlr.getKey msg with
        | .error t => .error t
        | .ok key => .ok (conf.setComplexMsg lib msgType key msg)

def readItems (k msgType : Bytes) : Nat → Config F → List (Item O) → Reply (Config F)
  | _, conf, [] => .ok conf
  | idx, conf, itm :: items =>
    match readItem lib k msgType idx conf itm with
    | .error t => .error t
    | .ok conf => readItems k msgType (idx + 1) conf items

def readValue (conf : Config F) (k : Bytes) : Value F O → Reply (Config F)
  | .string v => .ok { conf with stringVals := conf.stringVals.assign k v }
  | .bool v => .ok { conf with boolVals := conf.boolVals.assign k v }
  | .float64 v => .ok { conf with float64Vals := conf.float64Vals.assign k v }
  | .list v =>
    match msgTypeOf k with
    | none => .error (.err (.other s!"Complex config list not named with form \x7bTypeName\x7dList: {shown k}"))
    | some msgType => readItems lib k msgType 0 conf v
  | .other text => .error (.err (.other s!"Failed to parse config value: {text}"))

/-- The loop over the entries of the object. -/
def readValues (conf : Config F) : List (Bytes × Value F O) → Reply (Config F)
  | [] => .ok conf
  | (k, i) :: rest =>
    match readValue lib conf k i with
    | .error t => .error t
    | .ok conf => readValues conf rest

/-- `JsonToConfig` of the object, which has its entries in the order of the loop. -/
def mapToConfig (confj : GoMap Bytes (Value F O)) : Reply (Config F) := readValues lib newConfig confj.entries

/-- What `JsonToConfig` can answer, the loop going through the object in any order. -/
def JsonToConfig (data : Bytes) (r : Reply (Config F)) : Prop :=
  match lib.unmarshal data with
  | .error e => r = .error (.err e)
  | .ok confj => ∃ confj', confj'.Same confj ∧ r = mapToConfig lib confj'

end

/-! ## Items -/

section
variable (lib : Libraries F O M)

/-- The handler of the type accepts the object as a message with this key. -/
def Accepts (msgType : Bytes) (itmMap : O) (key : Bytes) (msg : M) : Prop :=
  ∃ h b, lib.complexConfigHandler msgType = some h ∧ lib.marshalObject itmMap = .ok b ∧ h.unmarshalJson b = .ok msg ∧ h.key msg = key

/-- The handler of the type refuses the object. -/
def Rejects (msgType : Bytes) (itmMap : O) : Prop :=
  ∃ h b e, lib.complexConfigHandler msgType = some h ∧ lib.marshalObject itmMap = .ok b ∧ h.unmarshalJson b = .error e

/-- The first item that is not accepted is refused by the handler. -/
def Fatal (msgType : Bytes) (items : List (Item O)) : Prop :=
  ∃ before itmMap after, items = before ++ .object itmMap :: after ∧
    (∀ itm ∈ before, ∃ o key msg, itm = .object o ∧ Accepts lib msgType o key msg) ∧ Rejects lib msgType itmMap

/-- An item of one of the lists of complex types. -/
def Listed (confj : List (Bytes × Value F O)) (msgType : Bytes) (itmMap : O) : Prop :=
  ∃ k items, (k, .list items) ∈ confj ∧ msgTypeOf k = some msgType ∧ .object itmMap ∈ items

/-- What protojson accepts can be marshalled: all its strings are valid and nothing required is missing. -/
def AcceptedMarshal : Prop := ∀ msgType itmMap key msg, Accepts lib msgType itmMap key msg → ∃ b, lib.protoMarshal msg = .ok b

/-- `JsonToConfig` of the data never panics; it answers an error wherever an item is refused, and else the
configuration has just the accepted items under their types and keys. -/
def RejectsBad (data : Bytes) : Prop :=
  ∀ r, JsonToConfig lib data r →
    (∀ f, r ≠ .error (.panic f)) ∧
    ((∃ confj msgType itmMap, lib.unmarshal data = .ok confj ∧ Listed confj.entries msgType itmMap ∧ Rejects lib msgType itmMap) →
      ∃ e, r = .error (.err e)) ∧
    ∀ conf, r = .ok conf → ∃ confj, lib.unmarshal data = .ok confj ∧ ∀ msgType key,
      (∀ itmMap msg, Listed confj.entries msgType itmMap → Accepts lib msgType itmMap key msg → (conf.getComplexBytes msgType key).isSome) ∧
      (∀ val, conf.getComplexBytes msgType key = some val → ∃ itmMap msg, Listed confj.entries msgType itmMap ∧
        Accepts lib msgType itmMap key msg ∧ lib.protoMarshal msg = .ok val)

/-- No list has a refused item as the first that is not accepted. -/
def NotFatal (data : Bytes) : Prop :=
  ∀ confj, lib.unmarshal data = .ok confj → ∀ k items msgType, (k, .list items) ∈ confj.entries → msgTypeOf k = some msgType →
    ¬Fatal lib msgType items

end

section
variable {lib : Libraries F O M} {conf conf' : Config F} {msgType msgType' k key key' val : Bytes} {itmMap : O} {items : List (Item O)}
  {msg : M} {idx : Nat}

theorem getComplexBytes_set : (conf.setComplexBytes msgType key val).getComplexBytes msgType' key' =
    if msgType' = msgType ∧ key' = key then some val else conf.getComplexBytes msgType' key' := by
  unfold Config.getComplexBytes Config.setComplexBytes
  dsimp only
  rw [GoMap.get_assign]
  by_cases type : msgType' = msgType
  · subst type
    rw [if_pos rfl, Option.bind_some, GoMap.get_assign]
    by_cases same : key' = key
    · rw [if_pos same, if_pos ⟨rfl, same⟩]
    · rw [if_neg same, if_neg (fun h => same h.2)]
      cases conf.complexVals.get msgType' with
      | none => rfl
      | some confCmplx => rfl
  · rw [if_neg type, if_neg (fun h => type h.1)]

theorem readItem_accepted (h : Accepts lib msgType itmMap key msg) :
    readItem lib k msgType idx conf (.object itmMap) = .ok (conf.setComplexMsg lib msgType key (some msg)) := by
  obtain ⟨hdlr, b, registered, marshalled, accepted, rfl⟩ := h
  rw [readItem, marshalled]
  dsimp only
  rw [registered]
  dsimp only
  rw [accepted]
  rfl

theorem readItem_rejected (h : Rejects lib msgType itmMap) :
    readItem lib k msgType idx conf (.object itmMap) = .error (.panic .typeAssertion) := by
  obtain ⟨hdlr, b, e, registered, marshalled, rejected⟩ := h
  rw [readItem, marshalled]
  dsimp only
  rw [registered]
  dsimp only
  rw [rejected]
  rfl

/-- An item is accepted, refused by its handler, or an error. -/
theorem readItem_cases (lib : Libraries F O M) (k msgType : Bytes) (idx : Nat) (conf : Config F) (itm : Item O) :
    (∃ o key msg, itm = .object o ∧ Accepts lib msgType o key msg) ∨ (∃ o, itm = .object o ∧ Rejects lib msgType o) ∨
      ((∀ o, itm = .object o → ¬Rejects lib msgType o) ∧ ∃ e, readItem lib k msgType idx conf itm = .error (.err e)) := by
  cases itm with
  | other => exact Or.inr (Or.inr ⟨fun _ h => absurd h (by simp), _, rfl⟩)
  | object o =>
    cases marshalled : lib.marshalObject o with
    | error e =>
      right
      right
      constructor
      · intro o' same h
        cases same
        obtain ⟨hdlr, b, e', -, marshalled', -⟩ := h
        rw [marshalled] at marshalled'
        cases marshalled'
      · rw [readItem, marshalled]
        exact ⟨_, rfl⟩
    | ok b =>
      cases registered : lib.complexConfigHandler msgType with
      | none =>
        right
        right
        constructor
        · intro o' same h
          cases same
          obtain ⟨hdlr, b', e', registered', -, -⟩ := h
          rw [registered] at registered'
          cases registered'
        · rw [readItem, marshalled]
          dsimp only
          rw [registered]
          exact ⟨_, rfl⟩
      | some hdlr =>
        cases answer : hdlr.unmarshalJson b with
        | ok msg => exact Or.inl ⟨o, hdlr.key msg, msg, rfl, hdlr, b, registered, marshalled, answer, rfl⟩
        | error e => exact Or.inr (Or.inl ⟨o, rfl, hdlr, b, e, registered, marshalled, answer⟩)

theorem Accepts.unique {msg' : M} (h : Accepts lib msgType itmMap key msg) (h' : Accepts lib msgType itmMap key' msg') : key = key' ∧ msg = msg' := by
  obtain ⟨hdlr, b, registered, marshalled, ok, rfl⟩ := h
  obtain ⟨hdlr', b', registered', marshalled', ok', rfl⟩ := h'
  rw [registered] at registered'
  obtain rfl := Option.some.inj registered'
  rw [marshalled] at marshalled'
  obtain rfl := Except.ok.inj marshalled'
  rw [ok] at ok'
  obtain rfl := Except.ok.inj ok'
  exact ⟨rfl, rfl⟩

theorem not_accepts_of_rejects (h : Rejects lib msgType itmMap) : ¬∃ key msg, Accepts lib msgType itmMap key msg := by
  intro accepted
  obtain ⟨key, msg, hdlr, b, registered, marshalled, ok, -⟩ := accepted
  obtain ⟨hdlr', b', e, registered', marshalled', rejected⟩ := h
  rw [registered] at registered'
  obtain rfl := Option.some.inj registered'
  rw [marshalled] at marshalled'
  obtain rfl := Except.ok.inj marshalled'
  rw [ok] at rejected
  cases rejected

end

/-! ## What is stored -/

/-- A configuration has the messages of another one, and stores those of `new` besides. -/
structure Adds (conf conf' : Config F) (new : Bytes → Bytes → Bytes → Prop) : Prop where
  source : ∀ msgType key val, conf'.getComplexBytes msgType key = some val → conf.getComplexBytes msgType key = some val ∨ new msgType key val
  kept : ∀ msgType key, (conf.getComplexBytes msgType key).isSome → (conf'.getComplexBytes msgType key).isSome
  stored : ∀ msgType key val, new msgType key val → (conf'.getComplexBytes msgType key).isSome

theorem Adds.refl (conf : Config F) : Adds conf conf fun _ _ _ => False where
  source _ _ _ h := Or.inl h
  kept _ _ h := h
  stored _ _ _ h := h.elim

section
variable {conf conf' conf'' : Config F} {new new' new'' : Bytes → Bytes → Bytes → Prop}

theorem Adds.trans (h : Adds conf conf' new) (h' : Adds conf' conf'' new') (both : ∀ msgType key val, new'' msgType key val ↔ new msgType key val ∨ new' msgType key val) :
    Adds conf conf'' new'' where
  source msgType key val found := by
    rw [both]
    obtain before | later := h'.source msgType key val found
    · exact (h.source msgType key val before).imp id Or.inl
    · exact Or.inr (Or.inr later)
  kept msgType key found := h'.kept msgType key (h.kept msgType key found)
  stored msgType key val hn := by
    obtain first | second := (both msgType key val).1 hn
    · exact h'.kept msgType key (h.stored msgType key val first)
    · exact h'.stored msgType key val second

end

section
variable {lib : Libraries F O M} {conf conf' : Config F} {msgType k : Bytes} {items : List (Item O)} {idx : Nat}

/-- The bytes of an accepted message. -/
def StoredItem (lib : Libraries F O M) (msgType : Bytes) (items : List (Item O)) (msgType' key val : Bytes) : Prop :=
  msgType' = msgType ∧ ∃ itmMap msg, .object itmMap ∈ items ∧ Accepts lib msgType itmMap key msg ∧ lib.protoMarshal msg = .ok val

/-- A list that is read to its end has accepted items only, and all of them are stored. -/
theorem readItems_ok (marshals : AcceptedMarshal lib) (h : readItems lib k msgType idx conf items = .ok conf') :
    (∀ o, .object o ∈ items → ¬Rejects lib msgType o) ∧ Adds conf conf' (StoredItem lib msgType items) := by
  induction items generalizing idx conf with
  | nil =>
    cases h
    refine ⟨fun _ mem => absurd mem List.not_mem_nil, (Adds.refl _).trans (Adds.refl _) ?_⟩
    intro msgType' key val
    simp [StoredItem]
  | cons itm items ih =>
    rw [readItems] at h
    obtain ⟨o, key, msg, rfl, accepted⟩ | ⟨o, rfl, rejected⟩ | ⟨-, e, failed⟩ := readItem_cases lib k msgType idx conf itm
    · rw [readItem_accepted accepted] at h
      dsimp only at h
      obtain ⟨fine, adds⟩ := ih h
      obtain ⟨b, marshalled⟩ := marshals _ _ _ _ accepted
      have first : Adds conf (conf.setComplexMsg lib msgType key (some msg)) fun msgType' key' val => msgType' = msgType ∧ key' = key ∧ val = b := by
        have set : conf.setComplexMsg lib msgType key (some msg) = conf.setComplexBytes msgType key b := by
          unfold Config.setComplexMsg
          dsimp only
          rw [marshalled]
        rw [set]
        constructor
        · intro msgType' key' val found
          rw [getComplexBytes_set] at found
          by_cases here : msgType' = msgType ∧ key' = key
          · rw [if_pos here] at found
            exact Or.inr ⟨here.1, here.2, (Option.some.inj found).symm⟩
          · rw [if_neg here] at found
            exact Or.inl found
        · intro msgType' key' found
          rw [getComplexBytes_set]
          by_cases here : msgType' = msgType ∧ key' = key
          · rw [if_pos here]
            rfl
          · rw [if_neg here]
            exact found
        · intro msgType' key' val new
          rw [getComplexBytes_set, if_pos ⟨new.1, new.2.1⟩]
          rfl
      constructor
      · intro o' mem
        obtain same | mem := List.mem_cons.1 mem
        · cases same
          exact fun rejected => not_accepts_of_rejects rejected ⟨key, msg, accepted⟩
        · exact fine o' mem
      · refine first.trans adds ?_
        intro msgType' key' val
        constructor
        · intro stored
          obtain ⟨rfl, o', msg', mem, acc, hm⟩ := stored
          obtain same | mem := List.mem_cons.1 mem
          · cases same
            obtain ⟨rfl, rfl⟩ := accepted.unique acc
            rw [marshalled] at hm
            exact Or.inl ⟨rfl, rfl, (Except.ok.inj hm).symm⟩
          · exact Or.inr ⟨rfl, o', msg', mem, acc, hm⟩
        · intro either
          obtain ⟨rfl, rfl, rfl⟩ | ⟨rfl, o', msg', mem, acc, hm⟩ := either
          · exact ⟨rfl, o, msg, List.mem_cons_self, accepted, marshalled⟩
          · exact ⟨rfl, o', msg', List.mem_cons_of_mem _ mem, acc, hm⟩
    · rw [readItem_rejected rejected] at h
      cases h
    · rw [failed] at h
      cases h

/-- A list panics exactly if it is fatal. -/
theorem readItems_panic : (∃ f, readItems lib k msgType idx conf items = .error (.panic f)) ↔ Fatal lib msgType items := by
  induction items generalizing idx conf with
  | nil =>
    constructor
    · intro h
      obtain ⟨f, h⟩ := h
      cases h
    · intro h
      obtain ⟨before, o, after, split, -⟩ := h
      exact absurd split (by simp)
  | cons itm items ih =>
    rw [readItems]
    obtain ⟨o, key, msg, rfl, accepted⟩ | ⟨o, rfl, rejected⟩ | ⟨fine, e, failed⟩ := readItem_cases lib k msgType idx conf itm
    · rw [readItem_accepted accepted]
      dsimp only
      rw [ih]
      constructor
      · intro h
        obtain ⟨before, o', after, rfl, all, rejected⟩ := h
        refine ⟨.object o :: before, o', after, rfl, ?_, rejected⟩
        intro itm mem
        obtain rfl | mem := List.mem_cons.1 mem
        · exact ⟨o, key, msg, rfl, accepted⟩
        · exact all itm mem
      · intro h
        obtain ⟨before, o', after, split, all, rejected⟩ := h
        cases before with
        | nil =>
          cases split
          exact absurd ⟨key, msg, accepted⟩ (not_accepts_of_rejects rejected)
        | cons first before =>
          obtain ⟨-, rfl⟩ := List.cons.inj split
          exact ⟨before, o', after, rfl, fun itm mem => all itm (List.mem_cons_of_mem _ mem), rejected⟩
    · rw [readItem_rejected rejected]
      refine iff_of_true ⟨_, rfl⟩ ⟨[], o, items, rfl, ?_, rejected⟩
      intro itm mem
      cases mem
    · rw [failed]
      refine iff_of_false ?_ ?_
      · intro h
        obtain ⟨f, h⟩ := h
        cases h
      · intro h
        obtain ⟨before, o', after, split, all, rejected⟩ := h
        cases before with
        | nil =>
          obtain ⟨rfl, -⟩ := List.cons.inj split
          exact fine o' rfl rejected
        | cons first before =>
          obtain ⟨rfl, -⟩ := List.cons.inj split
          obtain ⟨o, key, msg, rfl, accepted⟩ := all itm List.mem_cons_self
          rw [readItem_accepted accepted] at failed
          cases failed

/-! ## The object -/

/-- The bytes of an accepted message of one of the lists. -/
def StoredIn (lib : Libraries F O M) (es : List (Bytes × Value F O)) (msgType key val : Bytes) : Prop :=
  ∃ itmMap msg, Listed es msgType itmMap ∧ Accepts lib msgType itmMap key msg ∧ lib.protoMarshal msg = .ok val

theorem listed_cons {k : Bytes} {i : Value F O} {es : List (Bytes × Value F O)} {itmMap : O} :
    Listed ((k, i) :: es) msgType itmMap ↔
      (∃ items, i = .list items ∧ msgTypeOf k = some msgType ∧ .object itmMap ∈ items) ∨ Listed es msgType itmMap := by
  unfold Listed
  constructor
  · intro h
    obtain ⟨k', items, mem, type, there⟩ := h
    obtain same | mem := List.mem_cons.1 mem
    · obtain ⟨rfl, rfl⟩ := Prod.mk.inj same
      exact Or.inl ⟨items, rfl, type, there⟩
    · exact Or.inr ⟨k', items, mem, type, there⟩
  · intro h
    obtain ⟨items, rfl, type, there⟩ | ⟨k', items, mem, type, there⟩ := h
    · exact ⟨k, items, List.mem_cons_self, type, there⟩
    · exact ⟨k', items, List.mem_cons_of_mem _ mem, type, there⟩

theorem readValue_ok {i : Value F O} (marshals : AcceptedMarshal lib) (h : readValue lib conf k i = .ok conf') :
    (∀ items msgType o, i = .list items → msgTypeOf k = some msgType → .object o ∈ items → ¬Rejects lib msgType o) ∧
      Adds conf conf' (StoredIn lib [(k, i)]) := by
  have unlisted : (∀ items, i ≠ .list items) → ∀ msgType key val, ¬StoredIn lib [(k, i)] msgType key val := by
    intro other msgType key val stored
    obtain ⟨o, msg, listed, -⟩ := stored
    obtain ⟨items, same, -⟩ | ⟨k', items, mem, -⟩ := listed_cons.1 listed
    · exact other items same
    · cases mem
  have plain : (∀ items, i ≠ .list items) → conf'.complexVals = conf.complexVals → Adds conf conf' (StoredIn lib [(k, i)]) := by
    intro other same
    have get : ∀ msgType key, conf'.getComplexBytes msgType key = conf.getComplexBytes msgType key := by
      intro msgType key
      unfold Config.getComplexBytes
      rw [same]
    constructor
    · intro msgType key val found
      rw [get] at found
      exact Or.inl found
    · intro msgType key found
      rw [get]
      exact found
    · intro msgType key val stored
      exact absurd stored (unlisted other msgType key val)
  cases i with
  | string v =>
    cases h
    exact ⟨fun _ _ _ same => by simp at same, plain (fun _ => by simp) rfl⟩
  | bool v =>
    cases h
    exact ⟨fun _ _ _ same => by simp at same, plain (fun _ => by simp) rfl⟩
  | float64 v =>
    cases h
    exact ⟨fun _ _ _ same => by simp at same, plain (fun _ => by simp) rfl⟩
  | other text => cases h
  | list items =>
    rw [readValue] at h
    cases type : msgTypeOf k with
    | none =>
      rw [type] at h
      cases h
    | some msgType =>
      rw [type] at h
      obtain ⟨fine, adds⟩ := readItems_ok marshals h
      constructor
      · intro items' msgType' o same type' mem
        cases same
        cases type'
        exact fine o mem
      · refine (Adds.refl conf).trans adds ?_
        intro msgType' key val
        rw [false_or]
        constructor
        · intro stored
          obtain ⟨o, msg, listed, accepted, hm⟩ := stored
          obtain ⟨items', same, type', mem⟩ | ⟨k', items', mem, -⟩ := listed_cons.1 listed
          · cases same
            rw [type] at type'
            obtain rfl := Option.some.inj type'
            exact ⟨rfl, o, msg, mem, accepted, hm⟩
          · cases mem
        · intro stored
          obtain ⟨rfl, o, msg, mem, accepted, hm⟩ := stored
          exact ⟨o, msg, listed_cons.2 (Or.inl ⟨items, rfl, type, mem⟩), accepted, hm⟩

theorem readValues_ok {es : List (Bytes × Value F O)} (marshals : AcceptedMarshal lib) (h : readValues lib conf es = .ok conf') :
    (∀ msgType o, Listed es msgType o → ¬Rejects lib msgType o) ∧ Adds conf conf' (StoredIn lib es) := by
  induction es generalizing conf with
  | nil =>
    cases h
    have nothing : ∀ msgType o, ¬Listed ([] : List (Bytes × Value F O)) msgType o := by
      intro msgType o listed
      obtain ⟨k, items, mem, -⟩ := listed
      cases mem
    refine ⟨fun msgType o listed => absurd listed (nothing msgType o), (Adds.refl _).trans (Adds.refl _) ?_⟩
    intro msgType key val
    rw [false_or]
    exact iff_of_false (fun ⟨o, msg, listed, _⟩ => nothing msgType o listed) id
  | cons e es ih =>
    obtain ⟨k, i⟩ := e
    rw [readValues] at h
    cases first : readValue lib conf k i with
    | error t =>
      rw [first] at h
      cases h
    | ok conf1 =>
      rw [first] at h
      obtain ⟨fine1, adds1⟩ := readValue_ok marshals first
      obtain ⟨fine2, adds2⟩ := ih h
      constructor
      · intro msgType o listed
        obtain ⟨items, same, type, mem⟩ | later := listed_cons.1 listed
        · exact fine1 items msgType o same type mem
        · exact fine2 msgType o later
      · refine adds1.trans adds2 ?_
        intro msgType key val
        constructor
        · intro stored
          obtain ⟨o, msg, listed, rest⟩ := stored
          obtain here | later := listed_cons.1 listed
          · exact Or.inl ⟨o, msg, listed_cons.2 (Or.inl here), rest⟩
          · exact Or.inr ⟨o, msg, later, rest⟩
        · intro either
          obtain ⟨o, msg, listed, rest⟩ | ⟨o, msg, listed, rest⟩ := either
          · obtain here | ⟨k', items, mem, -⟩ := listed_cons.1 listed
            · exact ⟨o, msg, listed_cons.2 (Or.inl here), rest⟩
            · cases mem
          · exact ⟨o, msg, listed_cons.2 (Or.inr listed), rest⟩

theorem readValues_fatal {es : List (Bytes × Value F O)} (type : msgTypeOf k = some msgType) (fatal : Fatal lib msgType items) :
    ∃ f, readValues lib conf ((k, .list items) :: es) = .error (.panic f) := by
  obtain ⟨f, panics⟩ : ∃ f, readItems lib k msgType 0 conf items = .error (.panic f) := readItems_panic.2 fatal
  rw [readValues, readValue, type]
  dsimp only
  rw [panics]
  exact ⟨f, rfl⟩

theorem readValue_panic {i : Value F O} {f : Fault} (h : readValue lib conf k i = .error (.panic f)) :
    ∃ items msgType, i = .list items ∧ msgTypeOf k = some msgType ∧ Fatal lib msgType items := by
  cases i with
  | string v => cases h
  | bool v => cases h
  | float64 v => cases h
  | other text => cases h
  | list items =>
    rw [readValue] at h
    cases type : msgTypeOf k with
    | none =>
      rw [type] at h
      cases h
    | some msgType =>
      rw [type] at h
      exact ⟨items, msgType, rfl, rfl, readItems_panic.1 ⟨f, h⟩⟩

theorem readValues_panic {es : List (Bytes × Value F O)} {f : Fault} (h : readValues lib conf es = .error (.panic f)) :
    ∃ k items msgType, (k, .list items) ∈ es ∧ msgTypeOf k = some msgType ∧ Fatal lib msgType items := by
  induction es generalizing conf with
  | nil => cases h
  | cons e es ih =>
    obtain ⟨k, i⟩ := e
    rw [readValues] at h
    cases first : readValue lib conf k i with
    | error t =>
      rw [first] at h
      cases h
      obtain ⟨items, msgType, rfl, type, fatal⟩ := readValue_panic first
      exact ⟨k, items, msgType, List.mem_cons_self, type, fatal⟩
    | ok conf1 =>
      rw [first] at h
      obtain ⟨k', items, msgType, mem, type, fatal⟩ := ih h
      exact ⟨k', items, msgType, List.mem_cons_of_mem _ mem, type, fatal⟩

end

theorem Listed.same {confj confj' : GoMap Bytes (Value F O)} {msgType : Bytes} {itmMap : O} (same : confj.Same confj')
    (h : Listed confj.entries msgType itmMap) : Listed confj'.entries msgType itmMap := by
  obtain ⟨k, items, mem, type, there⟩ := h
  exact ⟨k, items, (same.mem_iff _).1 mem, type, there⟩

/-- Bad items are rejected exactly where the first item of a list that is not accepted is not one that its
handler refuses. -/
theorem jsonToConfig_rejectsBad_iff {lib : Libraries F O M} (marshals : AcceptedMarshal lib) (data : Bytes) :
    RejectsBad lib data ↔ NotFatal lib data := by
  unfold RejectsBad NotFatal JsonToConfig
  cases read : lib.unmarshal data with
  | error e =>
    constructor
    · intro _ confj h
      cases h
    · intro _ r hr
      subst hr
      refine ⟨?_, fun _ => ⟨e, rfl⟩, ?_⟩
      · intro f h
        cases h
      · intro conf h
        cases h
  | ok confj =>
    dsimp only
    constructor
    · intro rejects confj0 same k items msgType mem type fatal
      obtain rfl := Except.ok.inj same
      obtain ⟨front, same, rest, entries⟩ := GoMap.exists_front mem
      obtain ⟨f, panics⟩ : ∃ f, mapToConfig lib front = .error (.panic f) := by
        unfold mapToConfig
        rw [entries]
        exact readValues_fatal type fatal
      exact (rejects _ ⟨front, same, rfl⟩).1 f panics
    · intro notFatal r hr
      obtain ⟨confj', same, rfl⟩ := hr
      have noPanic : ∀ f, mapToConfig lib confj' ≠ .error (.panic f) := by
        intro f panics
        obtain ⟨k, items, msgType, mem, type, fatal⟩ := readValues_panic panics
        exact notFatal confj rfl k items msgType ((same.mem_iff _).1 mem) type fatal
      refine ⟨noPanic, ?_, ?_⟩
      · intro h
        obtain ⟨confj0, msgType, o, hc, listed, rejected⟩ := h
        obtain rfl := Except.ok.inj hc
        cases result : mapToConfig lib confj' with
        | ok conf => exact absurd rejected ((readValues_ok marshals result).1 msgType o (listed.same same.symm))
        | error t =>
          cases t with
          | err e => exact ⟨e, rfl⟩
          | panic f => exact absurd result (noPanic f)
      · intro conf hconf
        obtain ⟨-, adds⟩ := readValues_ok marshals hconf
        refine ⟨confj, rfl, ?_⟩
        intro msgType key
        constructor
        · intro o msg listed accepted
          obtain ⟨b, hb⟩ := marshals _ _ _ _ accepted
          exact adds.stored msgType key b ⟨o, msg, listed.same same.symm, accepted, hb⟩
        · intro val found
          obtain before | ⟨o, msg, listed, accepted, hb⟩ := adds.source msgType key val found
          · cases before
          · exact ⟨o, msg, listed.same same, accepted, hb⟩

/-! ## A refused item -/

/-- The objects of the document below: `id` is a string or a number. -/
inductive SampleObject where
  | withString (id : Bytes)
  | withNumber (digit : UInt8)

/-- `{"id":` in front of the value and a brace behind it. -/
def sampleText (val : Bytes) : Bytes := [0x7B, 0x22, 0x69, 0x64, 0x22, 0x3A] ++ val ++ [0x7D]

/-- The handler of a type `Foo` whose key is its string field `id`. -/
def fooHandler : Handler Bytes where
  key msg := msg
  unmarshal b := .ok (b.drop 2)
  unmarshalJson b :=
    match (b.drop 6).dropLast with
    | 0x22 :: id => .ok id.dropLast
    | _ => .error (.other "invalid value for string field id")

/-- `foo` -/
def fooName : Bytes := [0x66, 0x6F, 0x6F]

/-- What the libraries make of a document, and of the objects in it. -/
def sampleLib (document : Bytes) (confj : GoMap Bytes (Value Unit SampleObject)) : Libraries Unit SampleObject Bytes where
  unmarshal data := if data = document then .ok confj else .error (.other "unexpected end of JSON input")
  marshal _ := .ok document
  unmarshalObject b :=
    match (b.drop 6).dropLast with
    | 0x22 :: id => .ok (.withString id.dropLast)
    | digit :: _ => .ok (.withNumber digit)
    | [] => .error (.other "unexpected end of JSON input")
  marshalObject o :=
    match o with
    | .withString id => .ok (sampleText (0x22 :: id ++ [0x22]))
    | .withNumber digit => .ok (sampleText [digit])
  protoMarshal id := .ok (0x0A :: UInt8.ofNat id.length :: id)
  protojsonMarshal id := .ok (sampleText (0x22 :: id ++ [0x22]))
  complexConfigHandler msgType := if msgType = [0x46, 0x6F, 0x6F] then some fooHandler else none

/-- `{"fooList":` and the items. -/
def fooDocument (items : Bytes) : Bytes := [0x7B, 0x22] ++ (fooName ++ listSuffix) ++ [0x22, 0x3A, 0x5B] ++ items ++ [0x5D, 0x7D]

/-- The object of such a document. -/
def fooMap (items : List (Item SampleObject)) : GoMap Bytes (Value Unit SampleObject) := ⟨[(fooName ++ listSuffix, .list items)], List.nodup_singleton _⟩

theorem jsonToConfig_rejectsBad_accepted :
    RejectsBad (sampleLib (fooDocument (sampleText [0x22, 0x61, 0x22])) (fooMap [.object (.withString [0x61])])) (fooDocument (sampleText [0x22, 0x61, 0x22])) ↔
      NotFatal (sampleLib (fooDocument (sampleText [0x22, 0x61, 0x22])) (fooMap [.object (.withString [0x61])])) (fooDocument (sampleText [0x22, 0x61, 0x22])) :=
  jsonToConfig_rejectsBad_iff (fun _ _ _ _ _ => ⟨_, rfl⟩) _

/-- `{"fooList":[{"id":7}]}` ends the process. -/
theorem jsonToConfig_panics :
    ¬RejectsBad (sampleLib (fooDocument (sampleText [0x37])) (fooMap [.object (.withNumber 0x37)])) (fooDocument (sampleText [0x37])) := by
  intro rejects
  have result : JsonToConfig (sampleLib (fooDocument (sampleText [0x37])) (fooMap [.object (.withNumber 0x37)])) (fooDocument (sampleText [0x37]))
      (.error (.panic .typeAssertion)) := by
    unfold JsonToConfig sampleLib
    dsimp only
    rw [if_pos rfl]
    exact ⟨fooMap [.object (.withNumber 0x37)], GoMap.Same.refl _, rfl⟩
  exact (rejects _ result).1 _ rfl

end Rocketcycle.Configuration
