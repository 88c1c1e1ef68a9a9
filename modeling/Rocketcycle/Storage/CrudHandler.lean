import Rocketcycle.Concern.Crud
import Rocketcycle.Storage.Operations

/-!
# The handlers over a RamDb

`CrudHandlerRamDb` of the template `rkcy.go.tmpl`: the typed wrapper around the untyped records of a
`RamDb`. For a concern without a related message the template's `Read` does not compile, as it returns
a value too many where it fails. That case is read as if it returned what it declares.
-/

namespace Rocketcycle

variable {M : Type}

/-- The handler of one concern. -/
structure CrudHandlerRamDb (M : Type) where
  msg : MessageType M
  /-- `&Related{}`, where the concern has a related message, as the template needs. -/
  related : Option M

namespace CrudHandlerRamDb

variable (ch : CrudHandlerRamDb M)

/-- The type assertions of `Read`: that on the related message panics when it is `nil`. -/
def typed (item : Item M) : Reply (M × Option M × CompoundOffset) :=
  if ch.related.isSome then
    match item.rel with
    | some rel => .ok (item.inst, some rel, item.cmpdOffset)
    | none => .error (.panic .typeAssertion)
  else .ok (item.inst, none, item.cmpdOffset)

def read (db : RamDb M) (key : String) : Reply (M × Option M × CompoundOffset) :=
  match db.read ch.msg.name key with
  | .error e => .error (.err e)
  | .ok item => ch.typed item

/-- The instance that `Create` stores, with a new key if it has none. -/
def created (newKey : String) (inst : M) : M := if ch.msg.key inst = "" then ch.msg.setKey inst newKey else inst

def create (newKey : String) (db : RamDb M) (inst : M) (cmpdOffset : CompoundOffset) : M × RamDb M :=
  let inst := ch.created newKey inst
  (inst, db.create ch.msg.name (ch.msg.key inst) inst cmpdOffset)

/-- `Update`: without a related message there is none to store. -/
def update (db : RamDb M) (inst rel : M) (cmpdOffset : CompoundOffset) : RamDb M :=
  db.update ch.msg.name (ch.msg.key inst) inst (ch.related.map fun _ => rel) cmpdOffset

def delete (db : RamDb M) (key : String) (cmpdOffset : CompoundOffset) : RamDb M :=
  db.delete ch.msg.name key cmpdOffset

/-! ## Calls -/

inductive CrudCall (M : Type) where
  /-- `newKey` is what `uuid.NewString` answers, if it is asked. -/
  | create (newKey : String) (inst : M) (cmpdOffset : CompoundOffset)
  | update (inst rel : M) (cmpdOffset : CompoundOffset)
  | delete (key : String) (cmpdOffset : CompoundOffset)

def CrudCall.cmpdOffset : CrudCall M → CompoundOffset
  | create _ _ o | update _ _ o | delete _ o => o

/-- The key that a call is about. -/
def keyOf : CrudCall M → String
  | .create newKey inst _ => ch.msg.key (ch.created newKey inst)
  | .update inst _ _ => ch.msg.key inst
  | .delete key _ => key

def call (db : RamDb M) : CrudCall M → RamDb M
  | .create newKey inst o => (ch.create newKey db inst o).2
  | .update inst rel o => ch.update db inst rel o
  | .delete key o => ch.delete db key o

def calls (db : RamDb M) (cs : List (CrudCall M)) : RamDb M := cs.foldl ch.call db

/-- The last call on a key. -/
def lastOn (cs : List (CrudCall M)) (key : String) : Option (CrudCall M) :=
  (cs.filter fun c => ch.keyOf c = key).getLast?

/-- A key was created. -/
def Created (cs : List (CrudCall M)) (key : String) : Prop :=
  ∃ newKey inst o, .create newKey inst o ∈ cs ∧ ch.msg.key (ch.created newKey inst) = key

/-- What `Read` should answer after these calls: nothing for a key that was never created or was
deleted last, and otherwise the instance and the related message of the last call. -/
inductive ReadsBack (cs : List (CrudCall M)) (key : String) : Reply (M × Option M × CompoundOffset) → Prop
  | untouched (e : GoError) (none : ch.lastOn cs key = none) : ReadsBack cs key (.error (.err e))
  | deleted (e : GoError) (k : String) (o : CompoundOffset) (last : ch.lastOn cs key = some (.delete k o)) :
      ReadsBack cs key (.error (.err e))
  | neverCreated (e : GoError) (never : ¬ch.Created cs key) : ReadsBack cs key (.error (.err e))
  | created (newKey : String) (inst : M) (o : CompoundOffset) (last : ch.lastOn cs key = some (.create newKey inst o)) :
      ReadsBack cs key (.ok (ch.created newKey inst, ch.related, o))
  | updated (inst rel : M) (o : CompoundOffset) (last : ch.lastOn cs key = some (.update inst rel o))
      (created : ch.Created cs key) : ReadsBack cs key (.ok (inst, ch.related.map fun _ => rel, o))

/-! ## What is read -/

/-- A call as an operation of the `RamDb`. -/
def operation : CrudCall M → RamDb.Operation M
  | .create newKey inst o => .create ch.msg.name (ch.msg.key (ch.created newKey inst)) (ch.created newKey inst) o
  | .update inst rel o => .update ch.msg.name (ch.msg.key inst) inst (ch.related.map fun _ => rel) o
  | .delete key o => .delete ch.msg.name key o

section
variable {ch} {db : RamDb M} {cs : List (CrudCall M)} {c : CrudCall M} {key : String}

@[simp] theorem operation_key : (ch.operation c).key = ch.keyOf c := by
  cases c <;> rfl

@[simp] theorem operation_concern : (ch.operation c).concern = ch.msg.name := by
  cases c <;> rfl

@[simp] theorem operation_offset : (ch.operation c).cmpdOffset = c.cmpdOffset := by
  cases c <;> rfl

theorem operation_on : (ch.operation c).On ch.msg.name key ↔ ch.keyOf c = key := by
  simp [RamDb.Operation.On]

theorem calls_eq : ch.calls db cs = db.applyAll (cs.map ch.operation) := by
  induction cs generalizing db with
  | nil => rfl
  | cons c cs ih =>
    show ch.calls (ch.call db c) cs = ((ch.operation c).apply db).applyAll (cs.map ch.operation)
    rw [ih]
    cases c <;> rfl

/-- With increasing offsets, a key holds what the last call on it has left. -/
theorem calls_at (increasing : cs.Pairwise fun c c' => offsetGT c'.cmpdOffset c.cmpdOffset = true)
    (start : db ch.msg.name key = none) :
    ch.calls db cs ch.msg.name key = (ch.lastOn cs key).bind fun c => (ch.operation c).item := by
  have same : RamDb.entries (cs.map ch.operation) ch.msg.name key =
      (cs.filter fun c => ch.keyOf c = key).map fun c => (ch.operation c).entry := by
    simp only [RamDb.entries, List.filter_map, List.map_map]
    congr 1
    apply List.filter_congr
    intro c _
    simp [operation_on]
  rw [calls_eq, RamDb.applyAll_at, start, same, Register.play_increasing]
  · rw [List.getLast?_map]
    show ((ch.lastOn cs key).map _).bind _ = _
    cases ch.lastOn cs key <;> simp
  · rw [List.pairwise_map]
    apply List.Pairwise.imp _ (increasing.filter _)
    intro c c' h
    simpa using offsetGT_iff.1 h

theorem lastOn_mem (h : ch.lastOn cs key = some c) : c ∈ cs ∧ ch.keyOf c = key := by
  have mem := List.mem_of_getLast? h
  simpa using mem

theorem read_none (h : db ch.msg.name key = none) : ∃ e, ch.read db key = .error (.err e) := by
  simp [read, RamDb.read, h]

theorem read_some {item : Item M} (h : db ch.msg.name key = some item) : ch.read db key = ch.typed item := by
  simp [read, RamDb.read, h]

end

/-- The handler reads back what was written, exactly where the last call on the key is not a
`Create` of a concern with a related message, nor an `Update` of a key that was never created. -/
theorem reads_back_iff (cs : List (CrudCall M)) (key : String) (db : RamDb M)
    (increasing : cs.Pairwise fun c c' => offsetGT c'.cmpdOffset c.cmpdOffset = true)
    (start : ∀ k, db ch.msg.name k = none) :
    ch.ReadsBack cs key (ch.read (ch.calls db cs) key) ↔
      (∀ newKey inst o, ch.lastOn cs key = some (.create newKey inst o) → ch.related = none) ∧
        ∀ inst rel o, ch.lastOn cs key = some (.update inst rel o) → ch.Created cs key := by
  have held := calls_at increasing (start key)
  cases hl : ch.lastOn cs key with
  | none =>
    rw [hl] at held
    obtain ⟨e, he⟩ := read_none held
    rw [he]
    simp only [reduceCtorEq, false_implies, implies_true, and_self, iff_true]
    exact .untouched e hl
  | some c =>
    rw [hl] at held
    cases c with
    | delete k o =>
      obtain ⟨e, he⟩ := read_none held
      rw [he]
      simp only [Option.some.injEq, reduceCtorEq, false_implies, implies_true, and_self, iff_true]
      exact .deleted e k o hl
    | create newKey inst o =>
      rw [read_some held]
      have isCreated : ch.Created cs key := by
        obtain ⟨mem, hkey⟩ := lastOn_mem hl
        exact ⟨newKey, inst, o, mem, hkey⟩
      cases hr : ch.related with
      | none =>
        have answer : ch.typed ⟨ch.created newKey inst, none, o⟩ = .ok (ch.created newKey inst, ch.related, o) := by
          simp [typed, hr]
        show ch.ReadsBack cs key (ch.typed ⟨ch.created newKey inst, none, o⟩) ↔ _
        rw [answer]
        simp only [implies_true, Option.some.injEq, reduceCtorEq, false_implies, and_self, iff_true]
        exact .created newKey inst o hl
      | some rel =>
        have answer : ch.typed ⟨ch.created newKey inst, none, o⟩ = .error (.panic .typeAssertion) := by
          simp [typed, hr]
        show ch.ReadsBack cs key (ch.typed ⟨ch.created newKey inst, none, o⟩) ↔ _
        rw [answer]
        constructor
        · rintro ⟨⟩
        · intro h
          exact absurd (h.1 newKey inst o rfl) (by simp)
    | update inst rel o =>
      have found : ch.read (ch.calls db cs) key = .ok (inst, ch.related.map fun _ => rel, o) := by
        rw [read_some held]
        show ch.typed ⟨inst, ch.related.map fun _ => rel, o⟩ = _
        unfold typed
        cases ch.related <;> rfl
      rw [found]
      constructor
      · intro h
        refine ⟨by simp, fun inst' rel' o' _ => ?_⟩
        generalize ha : (.ok (inst, ch.related.map fun _ => rel, o) : Reply (M × Option M × CompoundOffset)) = answer at h
        cases h with
        | untouched | deleted | neverCreated => cases ha
        | created newKey inst'' o'' last =>
          rw [hl] at last
          cases last
        | updated _ _ _ _ created => exact created
      · intro h
        exact .updated inst rel o hl (h.2 inst rel o rfl)

/-- A handler of messages that are their own keys. -/
def sample : CrudHandlerRamDb String where
  msg := { encode := fun s => .ok (stringBytes s), decode := fun _ => .error "", name := "Player", key := id,
           setKey := fun _ key => key }
  related := some "none"

theorem create_read_panics :
    sample.read (sample.calls RamDb.new [.create "" "k" ⟨1, 0, 1⟩]) "k" = .error (.panic .typeAssertion) ∧
      ¬sample.ReadsBack [.create "" "k" ⟨1, 0, 1⟩] "k"
        (sample.read (sample.calls RamDb.new [.create "" "k" ⟨1, 0, 1⟩]) "k") := by
  refine ⟨rfl, ?_⟩
  rintro ⟨⟩

def createUpdate : List (CrudCall String) := [.create "" "k" ⟨1, 0, 1⟩, .update "k" "guild" ⟨1, 0, 2⟩]

theorem update_reads_back : sample.ReadsBack createUpdate "k" (sample.read (sample.calls RamDb.new createUpdate) "k") := by
  apply (sample.reads_back_iff createUpdate "k" RamDb.new (by decide +kernel) fun _ => rfl).2
  have last : sample.lastOn createUpdate "k" = some (.update "k" "guild" ⟨1, 0, 2⟩) := rfl
  refine ⟨?_, fun _ _ _ _ => ⟨"", "k", ⟨1, 0, 1⟩, List.mem_cons_self, rfl⟩⟩
  intro newKey inst o h
  rw [last] at h
  cases h

end CrudHandlerRamDb

/-! ## The handlers of the concerns -/

/-- The handler of a concern, all of which have a related message here. -/
def Concern.crudHandlerRamDb (cnc : Concern M) : CrudHandlerRamDb M := ⟨cnc.toMessageType, some cnc.related.empty⟩

section
variable (cnc : Concern M) (db : RamDb M)

theorem ramDbRead_eq (key : String) :
    cnc.ramDbRead db key =
      match cnc.crudHandlerRamDb.read db key with
      | .ok (inst, rel, o) => .ok (inst, rel.getD cnc.related.empty, o)
      | .error e => .error e := by
  unfold Concern.ramDbRead CrudHandlerRamDb.read CrudHandlerRamDb.typed Concern.crudHandlerRamDb
  dsimp only
  rcases db.read cnc.name key with e | ⟨inst, _ | rel, o⟩ <;> rfl

theorem ramDbCreate_eq (newKey : String) (inst : M) (o : CompoundOffset) :
    cnc.ramDbCreate newKey db inst o = cnc.crudHandlerRamDb.create newKey db inst o := rfl

theorem ramDbUpdate_eq (inst rel : M) (o : CompoundOffset) :
    cnc.ramDbUpdate db inst rel o = cnc.crudHandlerRamDb.update db inst rel o := rfl

theorem ramDbDelete_eq (key : String) (o : CompoundOffset) :
    cnc.ramDbDelete db key o = cnc.crudHandlerRamDb.delete db key o := rfl

end

end Rocketcycle
