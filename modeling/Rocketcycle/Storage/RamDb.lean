import Rocketcycle.Rkcy.Kafka

/-!
# RamDb

`pkg/storage/ramdb/ramdb.go`. The map of a concern is made by its first write, which shows
nowhere, so the two levels of maps are one function. Messages are values, `proto.Clone` is not
needed. A deletion leaves nothing behind, so the guard of a later write has nothing to compare with.
-/

namespace Rocketcycle

/-- `ramdb.Item`. The related message of a created instance is `nil`. -/
structure Item (M : Type) where
  inst : M
  rel : Option M
  cmpdOffset : CompoundOffset
  deriving DecidableEq, Repr

abbrev RamDb (M : Type) := String → String → Option (Item M)

namespace RamDb

variable {M : Type}

def new : RamDb M := fun _ _ => none

def put (ramdb : RamDb M) (concern key : String) (item : Option (Item M)) : RamDb M :=
  fun c k => if c = concern ∧ k = key then item else ramdb c k

def read (ramdb : RamDb M) (concern key : String) : Except GoError (Item M) :=
  match ramdb concern key with
  | some item => .ok item
  | none => .error (.other s!"RamDb not found: {key}")

def update (ramdb : RamDb M) (concern key : String) (inst : M) (rel : Option M)
    (cmpdOffset : CompoundOffset) : RamDb M :=
  let offsetOk :=
    match ramdb concern key with
    | some item => offsetGT cmpdOffset item.cmpdOffset
    | none => true
  if offsetOk then ramdb.put concern key (some ⟨inst, rel, cmpdOffset⟩) else ramdb

def create (ramdb : RamDb M) (concern key : String) (inst : M) (cmpdOffset : CompoundOffset) : RamDb M :=
  ramdb.update concern key inst none cmpdOffset

def delete (ramdb : RamDb M) (concern key : String) (cmpdOffset : CompoundOffset) : RamDb M :=
  let offsetOk :=
    match ramdb concern key with
    | some item => offsetGT cmpdOffset item.cmpdOffset
    | none => true
  if offsetOk then ramdb.put concern key none else ramdb

section
variable {ramdb : RamDb M} {concern key c k : String} {inst : M} {rel : Option M} {o : CompoundOffset}
  {item : Option (Item M)}

@[simp] theorem put_self : ramdb.put concern key item concern key = item := by simp [put]

theorem put_ne (h : ¬(c = concern ∧ k = key)) : ramdb.put concern key item c k = ramdb c k := by
  simp [put, h]

/-- Other records are left alone. -/
theorem update_ne (h : ¬(c = concern ∧ k = key)) : ramdb.update concern key inst rel o c k = ramdb c k := by
  unfold update
  generalize (match ramdb concern key with | some item => offsetGT o item.cmpdOffset | none => true) = ok
  cases ok with
  | true => exact put_ne h
  | false => rfl

theorem delete_ne (h : ¬(c = concern ∧ k = key)) : ramdb.delete concern key o c k = ramdb c k := by
  unfold delete
  generalize (match ramdb concern key with | some item => offsetGT o item.cmpdOffset | none => true) = ok
  cases ok with
  | true => exact put_ne h
  | false => rfl

theorem update_none (h : ramdb concern key = none) :
    ramdb.update concern key inst rel o concern key = some ⟨inst, rel, o⟩ := by
  simp [update, h]

/-- A write that is newer than the record replaces it, any other is ignored. -/
theorem update_some {old : Item M} (h : ramdb concern key = some old) :
    ramdb.update concern key inst rel o concern key =
      if offsetGT o old.cmpdOffset then some ⟨inst, rel, o⟩ else some old := by
  simp only [update, h]
  split
  · exact put_self
  · exact h

theorem delete_none (h : ramdb concern key = none) : ramdb.delete concern key o concern key = none := by
  simp [delete, h]

theorem delete_some {old : Item M} (h : ramdb concern key = some old) :
    ramdb.delete concern key o concern key = if offsetGT o old.cmpdOffset then none else some old := by
  simp only [delete, h]
  split
  · exact put_self
  · exact h

end

/-- All instances meet a condition on where they are stored. -/
def All (P : String → String → M → Prop) (ramdb : RamDb M) : Prop :=
  ∀ concern key item, ramdb concern key = some item → P concern key item.inst

section
variable {P : String → String → M → Prop} {ramdb : RamDb M} {concern key : String} {inst : M} {rel : Option M} {o : CompoundOffset}

theorem All.update (all : ramdb.All P) (here : P concern key inst) : (ramdb.update concern key inst rel o).All P := by
  intro c k item stored
  by_cases same : c = concern ∧ k = key
  swap
  · rw [update_ne same] at stored
    exact all c k item stored
  obtain ⟨rfl, rfl⟩ := same
  cases found : ramdb c k with
  | none =>
    rw [update_none found] at stored
    cases stored
    exact here
  | some old =>
    rw [update_some found] at stored
    split at stored
    · cases stored
      exact here
    · cases stored
      exact all c k _ found

theorem All.delete (all : ramdb.All P) : (ramdb.delete concern key o).All P := by
  intro c k item stored
  by_cases same : c = concern ∧ k = key
  swap
  · rw [delete_ne same] at stored
    exact all c k item stored
  obtain ⟨rfl, rfl⟩ := same
  cases found : ramdb c k with
  | none =>
    rw [delete_none found] at stored
    cases stored
  | some old =>
    rw [delete_some found] at stored
    split at stored
    · cases stored
    · cases stored
      exact all c k _ found

end

/-- Every record of `ramdb` is still there, or has been replaced by a newer one. -/
def Newer (ramdb ramdb' : RamDb M) : Prop :=
  ∀ concern key, ramdb' concern key = ramdb concern key ∨ ∃ item, ramdb' concern key = some item ∧
    ∀ old, ramdb concern key = some old → offsetGT item.cmpdOffset old.cmpdOffset = true

theorem Newer.refl (ramdb : RamDb M) : ramdb.Newer ramdb := fun _ _ => .inl rfl

theorem update_newer (ramdb : RamDb M) (concern key : String) (inst : M) (rel : Option M) (o : CompoundOffset) :
    ramdb.Newer (ramdb.update concern key inst rel o) := by
  intro c k
  by_cases here : c = concern ∧ k = key
  · obtain ⟨rfl, rfl⟩ := here
    cases old : ramdb c k with
    | none => exact .inr ⟨_, update_none old, by simp⟩
    | some item =>
      rw [update_some old]
      split
      · rename_i newer
        refine .inr ⟨_, rfl, ?_⟩
        rintro _ ⟨⟩
        exact newer
      · exact .inl rfl
  · exact .inl (update_ne here)

end RamDb

end Rocketcycle
