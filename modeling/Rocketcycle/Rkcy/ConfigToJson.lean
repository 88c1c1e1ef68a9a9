import Rocketcycle.Rkcy.Config

/-!
# Writing configurations

`ConfigToJson` of `pkg/rkcy/config.go`. Strings, booleans and numbers keep their names, and the messages
of a complex type become a list named after the type, with a small letter in front. A name that is both
is written once, as the list. What is written is read back as the same configuration where there is no
such name.
-/

namespace Rocketcycle.Configuration

variable {F O M : Type}

/-! ## Writing -/

/-- The name of the list of a type. An empty type has no first byte. -/
def listName : Bytes → Reply Bytes
  | [] => .error (.panic .indexOutOfRange)
  | first :: rest => .ok (lowerByte first ++ rest ++ listSuffix)

section
variable (lib : Libraries F O M)

/-- One message as an object, `ComplexConfigUnmarshal` included. -/
def writeMessage (msgType msgBytes : Bytes) : Except GoError (Item O) :=
  match lib.complexConfigHandler msgType with
  | none => .error (.other s!"No CommandHandler for type: {shown msgType}")
  | some handler =>
    match handler.unmarshal msgBytes with
    | .error e => .error e
    | .ok msg =>
      match lib.protojsonMarshal msg with
      | .error e => .error e
      | .ok msgJsonBytes =>
        match lib.unmarshalObject msgJsonBytes with
        | .error e => .error e
        | .ok msgObj => .ok (.object msgObj)

/-- The loop over the messages of a type. -/
def writeMessages (msgType : Bytes) : List (Bytes × Bytes) → Except GoError (List (Item O))
  | [] => .ok []
  | (_, msgBytes) :: rest =>
    match writeMessage lib msgType msgBytes with
    | .error e => .error e
    | .ok msgObj =>
      match writeMessages msgType rest with
      | .error e => .error e
      | .ok list => .ok (msgObj :: list)

/-- The loop over the types. -/
def writeTypes (jmap : GoMap Bytes (Value F O)) : List (Bytes × GoMap Bytes Bytes) → Reply (GoMap Bytes (Value F O))
  | [] => .ok jmap
  | (msgType, cmplxConf) :: rest =>
    match writeMessages lib msgType cmplxConf.entries with
    | .error e => .error (.err e)
    | .ok list =>
      match listName msgType with
      | .error t => .error t
      | .ok keyName => writeTypes (jmap.assign keyName (.list list)) rest

/-- The strings, booleans and numbers. -/
def writeScalars (conf : Config F) : GoMap Bytes (Value F O) :=
  (((GoMap.empty.assignAll .string conf.stringVals).assignAll .bool conf.boolVals).assignAll .float64 conf.float64Vals)

def configToMap (conf : Config F) : Reply (GoMap Bytes (Value F O)) := writeTypes lib (writeScalars conf) conf.complexVals.entries

end

/-- The configurations have the same entries. -/
structure Config.Same (conf conf' : Config F) : Prop where
  strings : conf.stringVals.Same conf'.stringVals
  bools : conf.boolVals.Same conf'.boolVals
  float64s : conf.float64Vals.Same conf'.float64Vals
  types : ∀ msgType, (conf.complexVals.get msgType).isSome = (conf'.complexVals.get msgType).isSome
  complex : ∀ msgType key, conf.getComplexBytes msgType key = conf'.getComplexBytes msgType key

section
variable (lib : Libraries F O M)

/-- What `ConfigToJson` can answer, its loops going through the maps in any order. -/
def ConfigToJson (conf : Config F) (r : Reply Bytes) : Prop :=
  ∃ conf', conf'.Same conf ∧ r =
    match configToMap lib conf' with
    | .error t => .error t
    | .ok jmap => (lib.marshal jmap).mapError .err

/-- The configuration is written, and what is written is read back as it. -/
def RoundTrips (conf : Config F) : Prop :=
  ∀ r, ConfigToJson lib conf r → ∃ b, r = .ok b ∧ ∀ r', JsonToConfig lib b r' → ∃ conf', r' = .ok conf' ∧ conf'.Same conf

/-- `encoding/json` reads back the maps that are written of the configuration. -/
def JsonRoundTrips (conf : Config F) : Prop :=
  ∀ conf' jmap, conf'.Same conf → configToMap lib conf' = .ok jmap → ∃ b m, lib.marshal jmap = .ok b ∧ lib.unmarshal b = .ok m ∧ m.Same jmap

/-- The binary and the JSON codec of each handler are inverse on the messages it accepts: both give back
the message, with its key. -/
structure Codecs : Prop where
  binary : ∀ msgType itmMap key msg, Accepts lib msgType itmMap key msg →
    ∃ b, lib.protoMarshal msg = .ok b ∧ ∀ h, lib.complexConfigHandler msgType = some h → h.unmarshal b = .ok msg
  json : ∀ msgType itmMap key msg, Accepts lib msgType itmMap key msg →
    ∃ b o, lib.protojsonMarshal msg = .ok b ∧ lib.unmarshalObject b = .ok o ∧ Accepts lib msgType o key msg

end

/-- No string, boolean or number has the name of the list of a type. -/
def Separate (conf : Config F) : Prop :=
  ∀ msgType name, (conf.complexVals.get msgType).isSome → listName msgType = .ok name →
    conf.stringVals.get name = none ∧ conf.boolVals.get name = none ∧ conf.float64Vals.get name = none

def IsAscii : Bytes → Prop
  | [] => False
  | first :: _ => first < 128

/-- The types begin with a character of the ASCII code. -/
def AsciiTypes (conf : Config F) : Prop := ∀ msgType, (conf.complexVals.get msgType).isSome → IsAscii msgType

/-! ## Names -/

theorem trimList_append (s : Bytes) : trimList (s ++ listSuffix) = s := by
  unfold trimList
  rw [if_pos (by simp), List.length_append]
  exact List.take_left

theorem msgTypeOf_append (first : UInt8) (rest : Bytes) : msgTypeOf (first :: rest ++ listSuffix) = some (upperByte first ++ rest) := by
  unfold msgTypeOf
  rw [trimList_append]
  dsimp only
  rw [if_neg]
  intro same
  have len := congrArg List.length same
  simp [listSuffix] at len

/-- A byte of the ASCII code in capitals, and what becomes of it on the way to the list's name and back. -/
theorem upper_ascii : ∀ n < 128, upperRune n < 128 ∧ upperByte (UInt8.ofNat n) = [UInt8.ofNat (upperRune n)] ∧
    lowerByte (UInt8.ofNat (upperRune n)) = [UInt8.ofNat (lowerRune (upperRune n))] ∧
    upperByte (UInt8.ofNat (lowerRune (upperRune n))) = [UInt8.ofNat (upperRune n)] := by
  decide +kernel

/-- Any other byte is taken as a character of two bytes, each time again. -/
theorem upper_other : ∀ n < 256, 128 ≤ n → ∃ x ∈ (upperByte (UInt8.ofNat n)).head?, ¬x < 128 ∧ (upperByte (UInt8.ofNat n)).length = 2 ∧
    ∃ y ∈ (lowerByte x).head?, (lowerByte x).length = 2 ∧ (upperByte y).length = 2 := by
  decide +kernel

theorem listName_ok {msgType : Bytes} (h : msgType ≠ []) : ∃ name, listName msgType = .ok name := by
  cases msgType with
  | nil => exact absurd rfl h
  | cons first rest => exact ⟨_, rfl⟩

/-- The type whose list it is, is read off the name where it begins with a character of the ASCII code, and
else is longer than it was. -/
theorem msgTypeOf_listName {k msgType name : Bytes} (h : msgTypeOf k = some msgType) (named : listName msgType = .ok name) :
    (IsAscii msgType ∧ msgTypeOf name = some msgType) ∨
      (¬IsAscii msgType ∧ ∃ longer, msgTypeOf name = some longer ∧ longer.length = msgType.length + 2) := by
  unfold msgTypeOf at h
  dsimp only at h
  by_cases same : trimList k = k
  · rw [if_pos same] at h
    cases h
  · rw [if_neg same] at h
    cases trimmed : trimList k with
    | nil =>
      rw [trimmed] at h
      cases h
    | cons b rest =>
      rw [trimmed] at h
      obtain rfl := Option.some.inj h
      have byte : b = UInt8.ofNat b.toNat := UInt8.ofNat_toNat.symm
      by_cases small : b.toNat < 128
      · obtain ⟨ascii, up, low, again⟩ := upper_ascii b.toNat small
        rw [← byte] at up
        rw [up] at named ⊢
        left
        constructor
        · show UInt8.ofNat (upperRune b.toNat) < 128
          rw [UInt8.lt_iff_toNat_lt, UInt8.toNat_ofNat']
          show upperRune b.toNat % 2 ^ 8 < 128
          omega
        · have name_eq : lowerByte (UInt8.ofNat (upperRune b.toNat)) ++ rest ++ listSuffix = name := Except.ok.inj named
          rw [low] at name_eq
          rw [← name_eq]
          show msgTypeOf (UInt8.ofNat (lowerRune (upperRune b.toNat)) :: rest ++ listSuffix) = _
          rw [msgTypeOf_append, again]
      · right
        have at128 : 128 ≤ b.toNat := Nat.le_of_not_lt small
        obtain ⟨x, hx, big, len, y, hy, len', len''⟩ := upper_other b.toNat b.toNat_lt at128
        rw [← byte] at hx len
        obtain ⟨more, hmore⟩ : ∃ more, upperByte b = x :: more := by
          cases hb : upperByte b with
          | nil =>
            rw [hb] at hx
            cases hx
          | cons x' more =>
            rw [hb] at hx
            cases hx
            exact ⟨more, rfl⟩
        obtain ⟨more', hmore'⟩ : ∃ more', lowerByte x = y :: more' := by
          cases hb : lowerByte x with
          | nil =>
            rw [hb] at hy
            cases hy
          | cons y' more' =>
            rw [hb] at hy
            cases hy
            exact ⟨more', rfl⟩
        rw [hmore] at named len ⊢
        constructor
        · exact big
        · refine ⟨upperByte y ++ (more' ++ (more ++ rest)), ?_, ?_⟩
          · have name_eq : lowerByte x ++ (more ++ rest) ++ listSuffix = name := Except.ok.inj named
            rw [← name_eq, hmore', List.cons_append]
            exact msgTypeOf_append y _
          · rw [hmore', List.length_cons] at len'
            rw [List.length_cons] at len
            simp only [List.length_append, List.length_cons]
            omega

/-- Types that begin with a character of the ASCII code have lists of different names. -/
theorem listName_injective {k k' msgType msgType' name : Bytes} (h : msgTypeOf k = some msgType) (h' : msgTypeOf k' = some msgType')
    (ascii : IsAscii msgType) (ascii' : IsAscii msgType') (named : listName msgType = .ok name) (named' : listName msgType' = .ok name) :
    msgType = msgType' := by
  obtain ⟨-, back⟩ | ⟨other, -⟩ := msgTypeOf_listName h named
  · obtain ⟨-, back'⟩ | ⟨other, -⟩ := msgTypeOf_listName h' named'
    · rw [back] at back'
      exact Option.some.inj back'
    · exact absurd ascii' other
  · exact absurd ascii other

/-! ## What is read -/

/-- The string, the boolean and the number of a name. -/
def Config.scalars (conf : Config F) (k : Bytes) : Option Bytes × Option Bool × Option F :=
  (conf.stringVals.get k, conf.boolVals.get k, conf.float64Vals.get k)

/-- What an entry of the object stores as a string, a boolean or a number. -/
def Value.scalars : Option (Value F O) → Option Bytes × Option Bool × Option F
  | some (.string v) => (some v, none, none)
  | some (.bool v) => (none, some v, none)
  | some (.float64 v) => (none, none, some v)
  | _ => (none, none, none)

/-- Every type has a message. -/
def Full (conf : Config F) : Prop := ∀ msgType, (conf.complexVals.get msgType).isSome → ∃ key val, conf.getComplexBytes msgType key = some val

theorem Full.new : Full (newConfig : Config F) := by
  intro msgType h
  cases h

theorem Full.set {conf : Config F} (full : Full conf) (msgType key val : Bytes) : Full (conf.setComplexBytes msgType key val) := by
  intro msgType' h
  by_cases same : msgType' = msgType
  · refine ⟨key, val, ?_⟩
    rw [getComplexBytes_set, if_pos ⟨same, rfl⟩]
  · have before : (conf.complexVals.get msgType').isSome := by
      unfold Config.setComplexBytes at h
      dsimp only at h
      rw [GoMap.get_assign, if_neg same] at h
      exact h
    obtain ⟨key', val', found⟩ := full msgType' before
    refine ⟨key', val', ?_⟩
    rw [getComplexBytes_set, if_neg (fun both => same both.1)]
    exact found

section
variable {lib : Libraries F O M} {conf conf' : Config F} {k msgType : Bytes}

/-- Reading a list keeps what setting messages keeps. -/
theorem readItems_keeps {P : Config F → Prop} (set : ∀ conf msgType key val, P conf → P (conf.setComplexBytes msgType key val))
    {items : List (Item O)} {idx : Nat} (h : readItems lib k msgType idx conf items = .ok conf') (start : P conf) : P conf' := by
  induction items generalizing idx conf with
  | nil =>
    cases h
    exact start
  | cons itm items ih =>
    rw [readItems] at h
    obtain ⟨o, key, msg, rfl, accepted⟩ | ⟨o, rfl, rejected⟩ | ⟨-, e, failed⟩ := readItem_cases lib k msgType idx conf itm
    · rw [readItem_accepted accepted] at h
      refine ih h ?_
      unfold Config.setComplexMsg
      dsimp only
      cases lib.protoMarshal msg with
      | error e => exact start
      | ok b => exact set conf msgType key b start
    · rw [readItem_rejected rejected] at h
      cases h
    · rw [failed] at h
      cases h

theorem readValue_full {i : Value F O} (h : readValue lib conf k i = .ok conf') (full : Full conf) : Full conf' := by
  cases i with
  | string v =>
    cases h
    exact full
  | bool v =>
    cases h
    exact full
  | float64 v =>
    cases h
    exact full
  | other text => cases h
  | list items =>
    rw [readValue] at h
    cases type : msgTypeOf k with
    | none =>
      rw [type] at h
      cases h
    | some msgType =>
      rw [type] at h
      exact readItems_keeps (fun _ msgType key val h => h.set msgType key val) h full

/-- An entry stores its own value under its name. -/
theorem readValue_scalars {i : Value F O} (h : readValue lib conf k i = .ok conf') (fresh : conf.scalars k = (none, none, none)) (k' : Bytes) :
    conf'.scalars k' = if k' = k then Value.scalars (some i) else conf.scalars k' := by
  have apart : ∀ c : Config F, c.scalars = conf.scalars → Value.scalars (some i) = (none, none, none) →
      c.scalars k' = if k' = k then Value.scalars (some i) else conf.scalars k' := by
    intro c same none
    rw [same, none, ← fresh]
    by_cases here : k' = k
    · rw [if_pos here, here]
    · rw [if_neg here]
  unfold Config.scalars at fresh
  cases i with
  | string v =>
    cases h
    unfold Config.scalars Value.scalars
    dsimp only
    rw [GoMap.get_assign]
    by_cases here : k' = k
    · subst here
      simp only [Prod.mk.injEq] at fresh
      simp [fresh]
    · simp [here]
  | bool v =>
    cases h
    unfold Config.scalars Value.scalars
    dsimp only
    rw [GoMap.get_assign]
    by_cases here : k' = k
    · subst here
      simp only [Prod.mk.injEq] at fresh
      simp [fresh]
    · simp [here]
  | float64 v =>
    cases h
    unfold Config.scalars Value.scalars
    dsimp only
    rw [GoMap.get_assign]
    by_cases here : k' = k
    · subst here
      simp only [Prod.mk.injEq] at fresh
      simp [fresh]
    · simp [here]
  | other text => cases h
  | list items =>
    rw [readValue] at h
    cases type : msgTypeOf k with
    | none =>
      rw [type] at h
      cases h
    | some msgType =>
      rw [type] at h
      have same : conf'.scalars = conf.scalars := readItems_keeps (P := fun c => c.scalars = conf.scalars) (fun _ _ _ _ h => h) h rfl
      exact apart conf' same rfl

/-- What is read has a message of every type, and the strings, booleans and numbers of the object. -/
theorem readValues_reads {es : List (Bytes × Value F O)} (h : readValues lib conf es = .ok conf') (distinct : (es.map Prod.fst).Nodup)
    (full : Full conf) (fresh : ∀ k ∈ es.map Prod.fst, conf.scalars k = (none, none, none)) :
    Full conf' ∧ ∀ k, conf'.scalars k = if k ∈ es.map Prod.fst then Value.scalars (GoMap.get ⟨es, distinct⟩ k) else conf.scalars k := by
  induction es generalizing conf with
  | nil =>
    cases h
    exact ⟨full, fun k => by simp⟩
  | cons e es ih =>
    obtain ⟨k, i⟩ := e
    rw [readValues] at h
    obtain ⟨new, distinct'⟩ := List.nodup_cons.1 distinct
    cases first : readValue lib conf k i with
    | error t =>
      rw [first] at h
      cases h
    | ok conf1 =>
      rw [first] at h
      have step := readValue_scalars first (fresh k List.mem_cons_self)
      have fresh1 : ∀ k' ∈ es.map Prod.fst, conf1.scalars k' = (none, none, none) := by
        intro k' mem
        have differ : k' ≠ k := by
          intro same
          exact new (same ▸ mem)
        rw [step, if_neg differ]
        exact fresh k' (List.mem_cons_of_mem _ mem)
      obtain ⟨full', rest⟩ := ih h distinct' (readValue_full first full) fresh1
      refine ⟨full', ?_⟩
      intro k'
      rw [rest, step, List.map_cons]
      by_cases same : k' = k
      · subst same
        rw [if_neg new, if_pos rfl, if_pos List.mem_cons_self, GoMap.get_cons_self]
      · rw [if_neg same, GoMap.get_cons_of_ne same]
        simp only [List.mem_cons, same, false_or]

theorem mapToConfig_reads {confj : GoMap Bytes (Value F O)} (h : mapToConfig lib confj = .ok conf) :
    Full conf ∧ ∀ k, conf.scalars k = Value.scalars (confj.get k) := by
  obtain ⟨full, reads⟩ := readValues_reads h confj.distinct Full.new (fun _ _ => rfl)
  refine ⟨full, ?_⟩
  intro k
  rw [reads]
  by_cases mem : k ∈ confj.entries.map Prod.fst
  · rw [if_pos mem]
  · have absent : confj.get k = none := by
      rw [← Option.not_isSome_iff_eq_none, GoMap.get_isSome]
      exact mem
    rw [if_neg mem, absent]
    rfl

/-- An entry that is read without an error. -/
def Readable (lib : Libraries F O M) (k : Bytes) : Value F O → Prop
  | .list items => ∃ msgType, msgTypeOf k = some msgType ∧ ∀ itm ∈ items, ∃ o key msg, itm = .object o ∧ Accepts lib msgType o key msg
  | .other _ => False
  | _ => True

theorem readItems_accepted {items : List (Item O)} (idx : Nat) (conf : Config F)
    (all : ∀ itm ∈ items, ∃ o key msg, itm = .object o ∧ Accepts lib msgType o key msg) : ∃ conf', readItems lib k msgType idx conf items = .ok conf' := by
  induction items generalizing idx conf with
  | nil => exact ⟨conf, rfl⟩
  | cons itm items ih =>
    obtain ⟨o, key, msg, rfl, accepted⟩ := all itm List.mem_cons_self
    rw [readItems, readItem_accepted accepted]
    exact ih (idx + 1) _ (fun itm mem => all itm (List.mem_cons_of_mem _ mem))

theorem readValues_readable {es : List (Bytes × Value F O)} (conf : Config F) (all : ∀ e ∈ es, Readable lib e.1 e.2) :
    ∃ conf', readValues lib conf es = .ok conf' := by
  induction es generalizing conf with
  | nil => exact ⟨conf, rfl⟩
  | cons e es ih =>
    obtain ⟨k, i⟩ := e
    have rest : ∀ e ∈ es, Readable lib e.1 e.2 := fun e mem => all e (List.mem_cons_of_mem _ mem)
    have here : Readable lib k i := all _ List.mem_cons_self
    obtain ⟨conf1, first⟩ : ∃ conf1, readValue lib conf k i = .ok conf1 := by
      cases i with
      | string v => exact ⟨_, rfl⟩
      | bool v => exact ⟨_, rfl⟩
      | float64 v => exact ⟨_, rfl⟩
      | other text => exact here.elim
      | list items =>
        obtain ⟨msgType, type, accepted⟩ := here
        rw [readValue, type]
        exact readItems_accepted 0 conf accepted
    rw [readValues, first]
    exact ih conf1 rest

end

/-! ## What is written -/

section
variable {lib : Libraries F O M} {conf : Config F} {msgType key val : Bytes} {itmMap : O} {msg : M}

theorem Codecs.marshal (codecs : Codecs lib) : AcceptedMarshal lib := by
  intro msgType itmMap key msg accepted
  obtain ⟨b, marshalled, -⟩ := codecs.binary msgType itmMap key msg accepted
  exact ⟨b, marshalled⟩

/-- The bytes of an accepted message are written as an object that is accepted as it. -/
theorem writeMessage_stored (codecs : Codecs lib) (accepted : Accepts lib msgType itmMap key msg) (stored : lib.protoMarshal msg = .ok val) :
    ∃ o, writeMessage lib msgType val = .ok (.object o) ∧ Accepts lib msgType o key msg := by
  obtain ⟨b, marshalled, back⟩ := codecs.binary _ _ _ _ accepted
  rw [stored] at marshalled
  obtain rfl := Except.ok.inj marshalled
  obtain ⟨text, o, written, parsed, again⟩ := codecs.json _ _ _ _ accepted
  obtain ⟨hdlr, -, registered, -⟩ := accepted
  refine ⟨o, ?_, again⟩
  unfold writeMessage
  rw [registered]
  dsimp only
  rw [back hdlr registered]
  dsimp only
  rw [written]
  dsimp only
  rw [parsed]

theorem writeMessages_ok {msgs : List (Bytes × Bytes)} (all : ∀ e ∈ msgs, ∃ itm, writeMessage lib msgType e.2 = .ok itm) :
    ∃ list, writeMessages lib msgType msgs = .ok list := by
  induction msgs with
  | nil => exact ⟨[], rfl⟩
  | cons e msgs ih =>
    obtain ⟨k, b⟩ := e
    obtain ⟨itm, first⟩ : ∃ itm, writeMessage lib msgType b = .ok itm := all _ List.mem_cons_self
    obtain ⟨list, rest⟩ := ih (fun e mem => all e (List.mem_cons_of_mem _ mem))
    rw [writeMessages, first]
    dsimp only
    rw [rest]
    exact ⟨itm :: list, rfl⟩

theorem mem_writeMessages {msgs : List (Bytes × Bytes)} {list : List (Item O)} (h : writeMessages lib msgType msgs = .ok list) (itm : Item O) :
    itm ∈ list ↔ ∃ e ∈ msgs, writeMessage lib msgType e.2 = .ok itm := by
  induction msgs generalizing list with
  | nil =>
    cases h
    simp
  | cons e msgs ih =>
    obtain ⟨k, b⟩ := e
    rw [writeMessages] at h
    cases first : writeMessage lib msgType b with
    | error e =>
      rw [first] at h
      cases h
    | ok itm1 =>
      rw [first] at h
      dsimp only at h
      cases later : writeMessages lib msgType msgs with
      | error e =>
        rw [later] at h
        cases h
      | ok list1 =>
        rw [later] at h
        obtain rfl := Except.ok.inj h
        have here : writeMessage lib msgType b = .ok itm ↔ itm = itm1 := by
          rw [first]
          exact ⟨fun same => (Except.ok.inj same).symm, fun same => same ▸ rfl⟩
        rw [List.mem_cons, List.exists_mem_cons_iff, here, ih later]

/-- The object has the list of a type under its name, and what it had under other names. -/
theorem writeTypes_get {types : List (Bytes × GoMap Bytes Bytes)} {jmap jmap' : GoMap Bytes (Value F O)} (h : writeTypes lib jmap types = .ok jmap')
    (k : Bytes) :
    (∃ msgType cmplxConf list, (msgType, cmplxConf) ∈ types ∧ listName msgType = .ok k ∧ writeMessages lib msgType cmplxConf.entries = .ok list ∧
      jmap'.get k = some (.list list)) ∨
    ((∀ e ∈ types, ∃ name, listName e.1 = .ok name ∧ name ≠ k) ∧ jmap'.get k = jmap.get k) := by
  induction types generalizing jmap with
  | nil =>
    cases h
    right
    exact ⟨fun e mem => absurd mem List.not_mem_nil, rfl⟩
  | cons e types ih =>
    obtain ⟨msgType, cmplxConf⟩ := e
    rw [writeTypes] at h
    cases written : writeMessages lib msgType cmplxConf.entries with
    | error e =>
      rw [written] at h
      cases h
    | ok list =>
      rw [written] at h
      dsimp only at h
      cases named : listName msgType with
      | error t =>
        rw [named] at h
        cases h
      | ok name =>
        rw [named] at h
        obtain ⟨msgType', cmplxConf', list', mem, rest⟩ | ⟨others, same⟩ := ih h
        · exact Or.inl ⟨msgType', cmplxConf', list', List.mem_cons_of_mem _ mem, rest⟩
        · by_cases here : k = name
          · subst here
            left
            refine ⟨msgType, cmplxConf, list, List.mem_cons_self, named, written, ?_⟩
            rw [same, GoMap.get_assign, if_pos rfl]
          · right
            constructor
            · intro e mem
              obtain rfl | mem := List.mem_cons.1 mem
              · exact ⟨name, named, Ne.symm here⟩
              · exact others e mem
            · rw [same, GoMap.get_assign, if_neg here]

theorem writeTypes_ok {types : List (Bytes × GoMap Bytes Bytes)} (jmap : GoMap Bytes (Value F O))
    (all : ∀ e ∈ types, (∃ list, writeMessages lib e.1 e.2.entries = .ok list) ∧ ∃ name, listName e.1 = .ok name) :
    ∃ jmap', writeTypes lib jmap types = .ok jmap' := by
  induction types generalizing jmap with
  | nil => exact ⟨jmap, rfl⟩
  | cons e types ih =>
    obtain ⟨msgType, cmplxConf⟩ := e
    obtain ⟨⟨list, written⟩, name, named⟩ := all _ List.mem_cons_self
    rw [writeTypes, written]
    dsimp only
    rw [named]
    exact ih _ (fun e mem => all e (List.mem_cons_of_mem _ mem))

/-- Where every name is that of one string, boolean or number, these are written under their names. -/
theorem scalars_writeScalars (k : Bytes) {v : Option (Value F O)} (one : conf.scalars k = Value.scalars v) :
    Value.scalars ((writeScalars conf : GoMap Bytes (Value F O)).get k) = conf.scalars k := by
  unfold writeScalars
  rw [GoMap.get_assignAll, GoMap.get_assignAll, GoMap.get_assignAll, GoMap.get_empty, one]
  unfold Config.scalars at one
  cases v with
  | none =>
    simp only [Value.scalars, Prod.mk.injEq] at one
    simp [one, Value.scalars]
  | some v =>
    cases v <;>
    · simp only [Value.scalars, Prod.mk.injEq] at one
      simp [one, Value.scalars]

end

/-! ## Written and read -/

/-- What is known of a configuration that was read. -/
structure WasRead (lib : Libraries F O M) (conf : Config F) : Prop where
  full : Full conf
  one : ∀ k, ∃ v : Option (Value F O), conf.scalars k = Value.scalars v
  messages : ∀ msgType key val, conf.getComplexBytes msgType key = some val →
    ∃ itmMap msg, Accepts lib msgType itmMap key msg ∧ lib.protoMarshal msg = .ok val
  named : ∀ msgType, (conf.complexVals.get msgType).isSome → ∃ k, msgTypeOf k = some msgType

section
variable {lib : Libraries F O M} {conf conf' : Config F} {msgType : Bytes}

theorem msgTypeOf_ne_nil {k : Bytes} (h : msgTypeOf k = some msgType) : msgType ≠ [] := by
  unfold msgTypeOf at h
  dsimp only at h
  by_cases same : trimList k = k
  · rw [if_pos same] at h
    cases h
  · rw [if_neg same] at h
    cases trimmed : trimList k with
    | nil =>
      rw [trimmed] at h
      cases h
    | cons b rest =>
      rw [trimmed] at h
      obtain rfl := Option.some.inj h
      intro empty
      exact String.utf8EncodeChar_ne_nil (List.append_eq_nil_iff.1 empty).1

/-- The types are those of the lists of the object. -/
theorem mapToConfig_type (marshals : AcceptedMarshal lib) {confj : GoMap Bytes (Value F O)} (h : mapToConfig lib confj = .ok conf)
    (type : (conf.complexVals.get msgType).isSome) : ∃ k items, confj.get k = some (.list items) ∧ msgTypeOf k = some msgType := by
  obtain ⟨full, -⟩ := mapToConfig_reads h
  obtain ⟨key, val, found⟩ := full msgType type
  obtain ⟨-, adds⟩ := readValues_ok marshals h
  obtain before | stored := adds.source msgType key val found
  · cases before
  · obtain ⟨o, msg, ⟨k, items, mem, named, -⟩, -⟩ := stored
    exact ⟨k, items, GoMap.get_eq_some.2 mem, named⟩

theorem JsonToConfig.wasRead (marshals : AcceptedMarshal lib) {data : Bytes} (h : JsonToConfig lib data (.ok conf)) : WasRead lib conf := by
  unfold JsonToConfig at h
  cases read : lib.unmarshal data with
  | error e =>
    rw [read] at h
    cases h
  | ok confj =>
    rw [read] at h
    obtain ⟨confj', -, result⟩ := h
    have result := result.symm
    obtain ⟨full, scalars⟩ := mapToConfig_reads result
    obtain ⟨-, adds⟩ := readValues_ok marshals result
    constructor
    · exact full
    · exact fun k => ⟨_, scalars k⟩
    · intro msgType key val found
      obtain before | stored := adds.source msgType key val found
      · cases before
      · obtain ⟨o, msg, -, accepted, marshalled⟩ := stored
        exact ⟨o, msg, accepted, marshalled⟩
    · intro msgType type
      obtain ⟨k, items, -, named⟩ := mapToConfig_type marshals result type
      exact ⟨k, named⟩

theorem Config.Same.scalars (same : conf'.Same conf) : conf'.scalars = conf.scalars := by
  funext k
  unfold Config.scalars
  rw [same.strings k, same.bools k, same.float64s k]

theorem Config.Same.trans {conf'' : Config F} (h : conf''.Same conf') (h' : conf'.Same conf) : conf''.Same conf where
  strings := h.strings.trans h'.strings
  bools := h.bools.trans h'.bools
  float64s := h.float64s.trans h'.float64s
  types msgType := (h.types msgType).trans (h'.types msgType)
  complex msgType key := (h.complex msgType key).trans (h'.complex msgType key)

theorem WasRead.same (read : WasRead lib conf) (same : conf'.Same conf) : WasRead lib conf' where
  full msgType type := by
    rw [same.types] at type
    obtain ⟨key, val, found⟩ := read.full msgType type
    exact ⟨key, val, (same.complex msgType key).trans found⟩
  one k := by
    rw [same.scalars]
    exact read.one k
  messages msgType key val found := by
    rw [same.complex] at found
    exact read.messages msgType key val found
  named msgType type := by
    rw [same.types] at type
    exact read.named msgType type

/-- The messages of a type are its entries. -/
theorem mem_messages {cmplxConf : GoMap Bytes Bytes} (h : conf.complexVals.get msgType = some cmplxConf) {key val : Bytes} :
    (key, val) ∈ cmplxConf.entries ↔ conf.getComplexBytes msgType key = some val := by
  unfold Config.getComplexBytes
  rw [h, Option.bind_some, GoMap.get_eq_some]

theorem WasRead.configToMap_ok (codecs : Codecs lib) (read : WasRead lib conf) : ∃ jmap, configToMap lib conf = .ok jmap := by
  apply writeTypes_ok
  intro e mem
  obtain ⟨msgType, cmplxConf⟩ := e
  have type : conf.complexVals.get msgType = some cmplxConf := GoMap.get_eq_some.2 mem
  constructor
  · apply writeMessages_ok
    intro e mem
    obtain ⟨key, val⟩ := e
    obtain ⟨itmMap, msg, accepted, stored⟩ := read.messages msgType key val ((mem_messages type).1 mem)
    obtain ⟨o, written, -⟩ := writeMessage_stored codecs accepted stored
    exact ⟨_, written⟩
  · obtain ⟨k, named⟩ := read.named msgType (type ▸ rfl)
    exact listName_ok (msgTypeOf_ne_nil named)

/-- The lists of the object that is written, and its other entries. -/
theorem configToMap_get {jmap : GoMap Bytes (Value F O)} (h : configToMap lib conf = .ok jmap) (k : Bytes) :
    (∃ msgType list, (conf.complexVals.get msgType).isSome ∧ listName msgType = .ok k ∧ jmap.get k = some (.list list) ∧
      ∀ itm, itm ∈ list ↔ ∃ key val, conf.getComplexBytes msgType key = some val ∧ writeMessage lib msgType val = .ok itm) ∨
    ((∀ msgType, (conf.complexVals.get msgType).isSome → listName msgType ≠ .ok k) ∧ jmap.get k = (writeScalars conf).get k) := by
  obtain ⟨msgType, cmplxConf, list, mem, named, written, there⟩ | ⟨others, same⟩ := writeTypes_get h k
  · left
    have type : conf.complexVals.get msgType = some cmplxConf := GoMap.get_eq_some.2 mem
    refine ⟨msgType, list, type ▸ rfl, named, there, ?_⟩
    intro itm
    rw [mem_writeMessages written]
    constructor
    · intro h
      obtain ⟨⟨key, val⟩, mem, hitm⟩ := h
      exact ⟨key, val, (mem_messages type).1 mem, hitm⟩
    · intro h
      obtain ⟨key, val, found, hitm⟩ := h
      exact ⟨(key, val), (mem_messages type).2 found, hitm⟩
  · right
    refine ⟨?_, same⟩
    intro msgType type named
    obtain ⟨cmplxConf, hc⟩ := Option.isSome_iff_exists.1 type
    obtain ⟨name, named', differ⟩ := others _ (GoMap.get_eq_some.1 hc)
    rw [named] at named'
    exact differ (Except.ok.inj named').symm

/-- The strings, booleans and numbers are written as such. -/
theorem writeScalars_readable {k : Bytes} {v : Value F O} (h : (writeScalars conf).get k = some v) : Readable lib k v := by
  unfold writeScalars at h
  rw [GoMap.get_assignAll, GoMap.get_assignAll, GoMap.get_assignAll, GoMap.get_empty] at h
  cases hf : conf.float64Vals.get k with
  | some v' =>
    rw [hf] at h
    cases h
    trivial
  | none =>
    cases hb : conf.boolVals.get k with
    | some v' =>
      rw [hf, hb] at h
      cases h
      trivial
    | none =>
      cases hs : conf.stringVals.get k with
      | some v' =>
        rw [hf, hb, hs] at h
        cases h
        trivial
      | none =>
        rw [hf, hb, hs] at h
        cases h

theorem writeScalars_not_list {k : Bytes} {items : List (Item O)} : (writeScalars conf : GoMap Bytes (Value F O)).get k ≠ some (.list items) := by
  unfold writeScalars
  rw [GoMap.get_assignAll, GoMap.get_assignAll, GoMap.get_assignAll, GoMap.get_empty]
  cases conf.float64Vals.get k <;> cases conf.boolVals.get k <;> cases conf.stringVals.get k <;> simp

/-- A message is one of a type. -/
theorem isSome_of_message {key val : Bytes} (h : conf.getComplexBytes msgType key = some val) : (conf.complexVals.get msgType).isSome := by
  unfold Config.getComplexBytes at h
  obtain ⟨cmplxConf, hc, -⟩ := Option.bind_eq_some_iff.1 h
  rw [hc]
  rfl

section
variable {jmap : GoMap Bytes (Value F O)}

/-- A list that is written is named after its type, and its items are accepted as messages of the type. -/
theorem WasRead.list (codecs : Codecs lib) (read : WasRead lib conf) (ascii : AsciiTypes conf) (h : configToMap lib conf = .ok jmap)
    {k : Bytes} {items : List (Item O)} (there : jmap.get k = some (.list items)) :
    ∃ msgType, msgTypeOf k = some msgType ∧ ∀ itm ∈ items, ∃ o key msg val, itm = .object o ∧ Accepts lib msgType o key msg ∧
      conf.getComplexBytes msgType key = some val ∧ lib.protoMarshal msg = .ok val := by
  obtain ⟨msgType, list, type, named, written, members⟩ | ⟨-, scalar⟩ := configToMap_get h k
  · rw [written] at there
    cases there
    obtain ⟨k', hk'⟩ := read.named msgType type
    obtain ⟨-, back⟩ | ⟨other, -⟩ := msgTypeOf_listName hk' named
    · refine ⟨msgType, back, ?_⟩
      intro itm mem
      obtain ⟨key, val, found, hitm⟩ := (members itm).1 mem
      obtain ⟨itmMap, msg, accepted, stored⟩ := read.messages msgType key val found
      obtain ⟨o, hitm', again⟩ := writeMessage_stored codecs accepted stored
      rw [hitm'] at hitm
      exact ⟨o, key, msg, val, (Except.ok.inj hitm).symm, again, found, stored⟩
    · exact absurd (ascii msgType type) other
  · rw [scalar] at there
    exact absurd there writeScalars_not_list

/-- Each message is written in the list of its type. -/
theorem WasRead.listed (codecs : Codecs lib) (read : WasRead lib conf) (ascii : AsciiTypes conf) (h : configToMap lib conf = .ok jmap)
    {key val : Bytes} (found : conf.getComplexBytes msgType key = some val) :
    ∃ o msg, Listed jmap.entries msgType o ∧ Accepts lib msgType o key msg ∧ lib.protoMarshal msg = .ok val := by
  have type := isSome_of_message found
  obtain ⟨itmMap, msg, accepted, stored⟩ := read.messages msgType key val found
  obtain ⟨o, hitm, again⟩ := writeMessage_stored codecs accepted stored
  obtain ⟨k', hk'⟩ := read.named msgType type
  obtain ⟨name, named⟩ := listName_ok (msgTypeOf_ne_nil hk')
  obtain ⟨-, back⟩ | ⟨other, -⟩ := msgTypeOf_listName hk' named
  · obtain ⟨msgType', list, type', named', written, members⟩ | ⟨others, -⟩ := configToMap_get h name
    · obtain ⟨k'', hk''⟩ := read.named msgType' type'
      obtain rfl := listName_injective hk'' hk' (ascii _ type') (ascii _ type) named' named
      refine ⟨o, msg, ⟨name, list, GoMap.get_eq_some.1 written, back, ?_⟩, again, stored⟩
      exact (members _).2 ⟨key, val, found, hitm⟩
    · exact absurd named (others msgType type)
  · exact absurd (ascii msgType type) other

theorem WasRead.readable (codecs : Codecs lib) (read : WasRead lib conf) (ascii : AsciiTypes conf) (h : configToMap lib conf = .ok jmap)
    {k : Bytes} {v : Value F O} (there : jmap.get k = some v) : Readable lib k v := by
  obtain ⟨msgType, list, -, -, written, -⟩ | ⟨-, scalar⟩ := configToMap_get h k
  · rw [written] at there
    obtain rfl := Option.some.inj there
    obtain ⟨msgType', back, members⟩ := read.list codecs ascii h written
    refine ⟨msgType', back, ?_⟩
    intro itm mem
    obtain ⟨o, key, msg, -, same, accepted, -⟩ := members itm mem
    exact ⟨o, key, msg, same, accepted⟩
  · rw [scalar] at there
    exact writeScalars_readable there

/-- With separate names, the strings, booleans and numbers are written as such. -/
theorem WasRead.scalars_written (read : WasRead lib conf) (separate : Separate conf) (h : configToMap lib conf = .ok jmap) (k : Bytes) :
    Value.scalars (jmap.get k) = conf.scalars k := by
  obtain ⟨v, one⟩ := read.one k
  obtain ⟨msgType, list, type, named, written, -⟩ | ⟨-, scalar⟩ := configToMap_get h k
  · obtain ⟨noString, noBool, noFloat64⟩ := separate msgType k type named
    rw [written]
    unfold Config.scalars
    rw [noString, noBool, noFloat64]
    rfl
  · rw [scalar]
    exact scalars_writeScalars k one

/-- With separate names and such types, the object that is written is read back as the configuration. -/
theorem WasRead.reads_back (codecs : Codecs lib) (read : WasRead lib conf) (separate : Separate conf) (ascii : AsciiTypes conf)
    {confj : GoMap Bytes (Value F O)} (h : configToMap lib conf = .ok jmap) (same : confj.Same jmap) :
    ∃ conf', mapToConfig lib confj = .ok conf' ∧ conf'.Same conf := by
  have readable : ∀ e ∈ confj.entries, Readable lib e.1 e.2 := by
    intro e mem
    exact read.readable codecs ascii h ((same e.1).symm.trans (GoMap.get_eq_some.2 mem))
  obtain ⟨conf', result⟩ := readValues_readable newConfig readable
  have result : mapToConfig lib confj = .ok conf' := result
  obtain ⟨full, scalars⟩ := mapToConfig_reads result
  obtain ⟨-, adds⟩ := readValues_ok codecs.marshal result
  have plain : ∀ k, conf'.scalars k = conf.scalars k := by
    intro k
    rw [scalars k, same k]
    exact read.scalars_written separate h k
  have back : ∀ msgType key val, conf'.getComplexBytes msgType key = some val → conf.getComplexBytes msgType key = some val := by
    intro msgType key val found
    obtain before | stored := adds.source msgType key val found
    · cases before
    · obtain ⟨o, msg, ⟨k, items, mem, named, there⟩, accepted, marshalled⟩ := stored
      obtain ⟨msgType', back, members⟩ := read.list codecs ascii h ((same k).symm.trans (GoMap.get_eq_some.2 mem))
      rw [named] at back
      obtain rfl := Option.some.inj back
      obtain ⟨o', key', msg', val', ho, accepted', found', marshalled'⟩ := members _ there
      cases ho
      obtain ⟨rfl, rfl⟩ := accepted.unique accepted'
      rw [marshalled] at marshalled'
      rw [Except.ok.inj marshalled']
      exact found'
  have complex : ∀ msgType key, conf'.getComplexBytes msgType key = conf.getComplexBytes msgType key := by
    intro msgType key
    cases before : conf.getComplexBytes msgType key with
    | some val =>
      obtain ⟨o, msg, listed, accepted, marshalled⟩ := read.listed codecs ascii h before
      have stored : (conf'.getComplexBytes msgType key).isSome :=
        adds.stored msgType key val ⟨o, msg, listed.same same.symm, accepted, marshalled⟩
      obtain ⟨val', found⟩ := Option.isSome_iff_exists.1 stored
      rw [found, ← before]
      exact (back msgType key val' found).symm
    | none =>
      cases after : conf'.getComplexBytes msgType key with
      | none => rfl
      | some val =>
        have found := back msgType key val after
        rw [before] at found
        cases found
  refine ⟨conf', result, ?_⟩
  constructor
  · exact fun k => congrArg (·.1) (plain k)
  · exact fun k => congrArg (·.2.1) (plain k)
  · exact fun k => congrArg (·.2.2) (plain k)
  · intro msgType
    rw [Bool.eq_iff_iff]
    constructor
    · intro type
      obtain ⟨key, val, found⟩ := full msgType type
      rw [complex] at found
      exact isSome_of_message found
    · intro type
      obtain ⟨key, val, found⟩ := read.full msgType type
      rw [← complex] at found
      exact isSome_of_message found
  · exact complex

end

/-- A configuration that is written and read back has no string, boolean or number under the name of a list. -/
theorem separate_of_reads_back {jmap confj : GoMap Bytes (Value F O)} (h : configToMap lib conf = .ok jmap) (same : confj.Same jmap)
    (back : mapToConfig lib confj = .ok conf') (equal : conf'.Same conf) : Separate conf := by
  intro msgType name type named
  obtain ⟨-, scalars⟩ := mapToConfig_reads back
  have none : conf.scalars name = (none, none, none) := by
    rw [← equal.scalars, scalars name, same name]
    obtain ⟨msgType', list, -, -, written, -⟩ | ⟨others, -⟩ := configToMap_get h name
    · rw [written]
      rfl
    · exact absurd named (others msgType type)
  unfold Config.scalars at none
  simp only [Prod.mk.injEq] at none
  exact none

/-- Types that begin with another character are read back longer, so that the shortest one of them is lost. -/
theorem ascii_of_reads_back (marshals : AcceptedMarshal lib) (read : WasRead lib conf) {jmap confj : GoMap Bytes (Value F O)}
    (h : configToMap lib conf = .ok jmap) (same : confj.Same jmap) (back : mapToConfig lib confj = .ok conf') (equal : conf'.Same conf) :
    AsciiTypes conf := by
  have upTo : ∀ n msgType, msgType.length = n → (conf.complexVals.get msgType).isSome → IsAscii msgType := by
    intro n
    induction n using Nat.strongRecOn with
    | ind n ih =>
      intro msgType len type
      have type' : (conf'.complexVals.get msgType).isSome := (equal.types msgType).trans type
      obtain ⟨k, items, there, named⟩ := mapToConfig_type marshals back type'
      rw [same k] at there
      obtain ⟨msgType1, list, type1, named1, -, -⟩ | ⟨-, scalar⟩ := configToMap_get h k
      · obtain ⟨k1, hk1⟩ := read.named msgType1 type1
        obtain ⟨ascii, again⟩ | ⟨other, longer, again, len'⟩ := msgTypeOf_listName hk1 named1
        · rw [named] at again
          rw [Option.some.inj again]
          exact ascii
        · rw [named] at again
          rw [← Option.some.inj again] at len'
          exact absurd (ih msgType1.length (by omega) msgType1 rfl type1) other
      · rw [scalar] at there
        exact absurd there writeScalars_not_list
  exact fun msgType type => upTo msgType.length msgType rfl type

end

theorem Config.Same.refl (conf : Config F) : conf.Same conf := ⟨GoMap.Same.refl _, GoMap.Same.refl _, GoMap.Same.refl _, fun _ => rfl, fun _ _ => rfl⟩

/-- A configuration that was read survives being written and read back exactly where no string, boolean or
number has the name of the list of a type, and the types begin with a character of the ASCII code. -/
theorem jsonToConfig_roundTrips_iff {lib : Libraries F O M} (codecs : Codecs lib) {data : Bytes} {conf : Config F}
    (h : JsonToConfig lib data (.ok conf)) (json : JsonRoundTrips lib conf) : RoundTrips lib conf ↔ Separate conf ∧ AsciiTypes conf := by
  have read := h.wasRead codecs.marshal
  constructor
  · intro roundTrips
    obtain ⟨jmap, written⟩ := read.configToMap_ok codecs
    obtain ⟨b, m, marshalled, unmarshalled, same⟩ := json conf jmap (Config.Same.refl conf) written
    obtain ⟨b', hb, back⟩ := roundTrips _ ⟨conf, Config.Same.refl conf, rfl⟩
    rw [written] at hb
    dsimp only at hb
    rw [marshalled] at hb
    obtain rfl := Except.ok.inj hb
    have answer : JsonToConfig lib b (mapToConfig lib m) := by
      unfold JsonToConfig
      rw [unmarshalled]
      exact ⟨m, GoMap.Same.refl m, rfl⟩
    obtain ⟨conf', result, equal⟩ := back _ answer
    exact ⟨separate_of_reads_back written same result equal, ascii_of_reads_back codecs.marshal read written same result equal⟩
  · intro both r written
    obtain ⟨separate, ascii⟩ := both
    obtain ⟨conf1, equal, rfl⟩ := written
    have read1 := read.same equal
    obtain ⟨jmap, written⟩ := read1.configToMap_ok codecs
    obtain ⟨b, m, marshalled, unmarshalled, same⟩ := json conf1 jmap equal written
    rw [written]
    dsimp only
    rw [marshalled]
    refine ⟨b, rfl, ?_⟩
    intro r' answer
    unfold JsonToConfig at answer
    rw [unmarshalled] at answer
    obtain ⟨confj, same', rfl⟩ := answer
    have separate1 : Separate conf1 := by
      intro msgType name type named
      rw [equal.types] at type
      rw [equal.strings, equal.bools, equal.float64s]
      exact separate msgType name type named
    have ascii1 : AsciiTypes conf1 := by
      intro msgType type
      rw [equal.types] at type
      exact ascii msgType type
    obtain ⟨conf', result, equal'⟩ := read1.reads_back codecs separate1 ascii1 written (same'.trans same)
    exact ⟨conf', result, equal'.trans equal⟩

/-! ## A name that is lost -/

theorem sampleLib_accepts {document : Bytes} {confj : GoMap Bytes (Value Unit SampleObject)} {unmarshal : Bytes → Except GoError (GoMap Bytes (Value Unit SampleObject))}
    (msgType id : Bytes) (h : msgType = [0x46, 0x6F, 0x6F]) : Accepts { sampleLib document confj with unmarshal } msgType (.withString id) id id := by
  refine ⟨fooHandler, sampleText (0x22 :: id ++ [0x22]), if_pos h, rfl, ?_, rfl⟩
  have text : ((sampleText (0x22 :: id ++ [0x22])).drop 6).dropLast = 0x22 :: (id ++ [0x22]) := by
    show (0x22 :: (id ++ [0x22]) ++ [0x7D]).dropLast = _
    rw [List.dropLast_concat]
  unfold fooHandler
  dsimp only
  rw [text]
  exact congrArg Except.ok List.dropLast_concat

theorem sampleLib_codecs (document : Bytes) (confj : GoMap Bytes (Value Unit SampleObject)) (unmarshal : Bytes → Except GoError (GoMap Bytes (Value Unit SampleObject))) :
    Codecs { sampleLib document confj with unmarshal } where
  binary msgType itmMap key msg accepted := by
    refine ⟨0x0A :: UInt8.ofNat msg.length :: msg, rfl, ?_⟩
    intro h registered
    by_cases foo : msgType = [0x46, 0x6F, 0x6F]
    · have handler : some fooHandler = some h := (if_pos foo).symm.trans registered
      obtain rfl := Option.some.inj handler
      rfl
    · have handler : none = some h := (if_neg foo).symm.trans registered
      cases handler
  json msgType itmMap key msg accepted := by
    obtain ⟨h, b, registered, -, -, same⟩ := accepted
    by_cases foo : msgType = [0x46, 0x6F, 0x6F]
    · have handler : some fooHandler = some h := (if_pos foo).symm.trans registered
      obtain rfl := Option.some.inj handler
      obtain rfl : msg = key := same
      refine ⟨sampleText (0x22 :: msg ++ [0x22]), .withString msg, rfl, ?_, sampleLib_accepts msgType msg foo⟩
      have text : ((sampleText (0x22 :: msg ++ [0x22])).drop 6).dropLast = 0x22 :: (msg ++ [0x22]) := by
        show (0x22 :: (msg ++ [0x22]) ++ [0x7D]).dropLast = _
        rw [List.dropLast_concat]
      unfold sampleLib
      dsimp only
      rw [text]
      exact congrArg (fun id => Except.ok (SampleObject.withString id)) List.dropLast_concat
    · have handler : none = some h := (if_neg foo).symm.trans registered
      cases handler

/-- A message `a` of the type `Foo`, and strings. -/
def oneFoo (strings : GoMap Bytes Bytes) : Config Unit :=
  Config.setComplexBytes { newConfig with stringVals := strings } [0x46, 0x6F, 0x6F] [0x61] [0x0A, 0x01, 0x61]

/-- `{"fooList":[{"id":"a"}]}` -/
def oneFooDocument : Bytes := fooDocument (sampleText [0x22, 0x61, 0x22])

def oneFooMap : GoMap Bytes (Value Unit SampleObject) := fooMap [.object (.withString [0x61])]

/-- `{"fooList":"s","FooList":[{"id":"a"}]}` -/
def collidingDocument : Bytes :=
  [0x7B, 0x22] ++ (fooName ++ listSuffix) ++ [0x22, 0x3A, 0x22, 0x73, 0x22, 0x2C, 0x22, 0x46, 0x6F, 0x6F] ++ listSuffix ++ [0x22, 0x3A, 0x5B] ++
    sampleText [0x22, 0x61, 0x22] ++ [0x5D, 0x7D]

def collidingMap : GoMap Bytes (Value Unit SampleObject) :=
  ⟨[(fooName ++ listSuffix, .string [0x73]), ([0x46, 0x6F, 0x6F] ++ listSuffix, .list [.object (.withString [0x61])])], by decide⟩

/-- Both documents are read, and the first one is written. -/
def collidingLib : Libraries Unit SampleObject Bytes :=
  { sampleLib oneFooDocument oneFooMap with
    unmarshal := fun data => if data = collidingDocument then .ok collidingMap else (sampleLib oneFooDocument oneFooMap).unmarshal data }

/-- However it is ordered, such a configuration is written as the first document where its only string, if
any, is named `fooList`. -/
theorem oneFoo_json {unmarshal : Bytes → Except GoError (GoMap Bytes (Value Unit SampleObject))} (known : unmarshal oneFooDocument = .ok oneFooMap)
    {strings : GoMap Bytes Bytes} (only : ∀ k, k ≠ fooName ++ listSuffix → strings.get k = none) :
    JsonRoundTrips { sampleLib oneFooDocument oneFooMap with unmarshal } (oneFoo strings) := by
  intro conf jmap same written
  refine ⟨oneFooDocument, oneFooMap, rfl, known, ?_⟩
  obtain ⟨cmplxConf, types⟩ : ∃ cmplxConf, conf.complexVals.entries = [([0x46, 0x6F, 0x6F], cmplxConf)] :=
    GoMap.entries_of_isSome same.types rfl
  have type : conf.complexVals.get [0x46, 0x6F, 0x6F] = some cmplxConf := by
    rw [GoMap.get_eq_some, types]
    exact List.mem_singleton_self _
  have messages : cmplxConf.entries = [([0x61], [0x0A, 0x01, 0x61])] := by
    have one : cmplxConf.Same ⟨[([0x61], [0x0A, 0x01, 0x61])], List.nodup_singleton _⟩ := by
      intro key
      have equal := same.complex [0x46, 0x6F, 0x6F] key
      unfold Config.getComplexBytes at equal
      rw [type] at equal
      exact equal
    exact GoMap.entries_of_same one rfl
  have result : jmap = (writeScalars conf).assign (fooName ++ listSuffix) (.list [.object (.withString [0x61])]) := by
    unfold configToMap at written
    rw [types, writeTypes, messages] at written
    exact (Except.ok.inj written).symm
  intro k
  rw [result, GoMap.get_assign]
  by_cases here : k = fooName ++ listSuffix
  · rw [if_pos here, here]
    rfl
  · rw [if_neg here]
    have noString : conf.stringVals.get k = none := (same.strings k).trans (only k here)
    have noBool : conf.boolVals.get k = none := same.bools k
    have noFloat64 : conf.float64Vals.get k = none := same.float64s k
    unfold writeScalars
    rw [GoMap.get_assignAll, GoMap.get_assignAll, GoMap.get_assignAll, GoMap.get_empty, noString, noBool, noFloat64]
    exact GoMap.get_cons_of_ne here

theorem oneFoo_unmarshal : (sampleLib oneFooDocument oneFooMap).unmarshal oneFooDocument = .ok oneFooMap := by
  unfold sampleLib
  dsimp only
  rw [if_pos rfl]

theorem jsonToConfig_roundTrips_oneFoo :
    RoundTrips (sampleLib oneFooDocument oneFooMap) (oneFoo .empty) ↔ Separate (oneFoo .empty) ∧ AsciiTypes (oneFoo .empty) := by
  have read : JsonToConfig (sampleLib oneFooDocument oneFooMap) oneFooDocument (.ok (oneFoo .empty)) := by
    unfold JsonToConfig
    rw [oneFoo_unmarshal]
    exact ⟨oneFooMap, GoMap.Same.refl _, rfl⟩
  exact jsonToConfig_roundTrips_iff (sampleLib_codecs _ _ (sampleLib oneFooDocument oneFooMap).unmarshal) read
    (oneFoo_json oneFoo_unmarshal (fun _ _ => rfl))

/-- `{"fooList":"s","FooList":[{"id":"a"}]}` loses its string. -/
theorem jsonToConfig_loses_string :
    ¬∀ conf, JsonToConfig collidingLib collidingDocument (.ok conf) → Codecs collidingLib → JsonRoundTrips collidingLib conf →
      RoundTrips collidingLib conf := by
  intro survives
  have read : JsonToConfig collidingLib collidingDocument (.ok (oneFoo (GoMap.empty.assign (fooName ++ listSuffix) [0x73]))) := by
    unfold JsonToConfig collidingLib
    dsimp only
    rw [if_pos rfl]
    exact ⟨collidingMap, GoMap.Same.refl _, rfl⟩
  have known : collidingLib.unmarshal oneFooDocument = .ok oneFooMap := by
    unfold collidingLib
    dsimp only
    rw [if_neg (by decide)]
    exact oneFoo_unmarshal
  have json : JsonRoundTrips collidingLib (oneFoo (GoMap.empty.assign (fooName ++ listSuffix) [0x73])) := by
    refine oneFoo_json known ?_
    intro k differ
    rw [GoMap.get_assign, if_neg differ]
    rfl
  have codecs : Codecs collidingLib := sampleLib_codecs _ _ _
  have roundTrips := survives _ read codecs json
  obtain ⟨jmap, written⟩ := (read.wasRead codecs.marshal).configToMap_ok codecs
  obtain ⟨b, m, marshalled, unmarshalled, same⟩ := json _ jmap (Config.Same.refl _) written
  obtain ⟨b', hb, back⟩ := roundTrips _ ⟨_, Config.Same.refl _, rfl⟩
  rw [written] at hb
  dsimp only at hb
  rw [marshalled] at hb
  obtain rfl := Except.ok.inj hb
  have answer : JsonToConfig collidingLib b (mapToConfig collidingLib m) := by
    unfold JsonToConfig
    rw [unmarshalled]
    exact ⟨m, GoMap.Same.refl m, rfl⟩
  obtain ⟨conf', result, equal⟩ := back _ answer
  obtain ⟨noString, -⟩ := separate_of_reads_back written same result equal [0x46, 0x6F, 0x6F] (fooName ++ listSuffix) rfl rfl
  cases noString

end Rocketcycle.Configuration
