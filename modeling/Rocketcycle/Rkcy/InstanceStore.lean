import Rocketcycle.Rkcy.Kafka
import Rocketcycle.Rkcy.Payload

/-!
# The instance store

`pkg/rkcy/instance_store.go`: the cache a process consumer keeps of its partition. Every write
but a removal is guarded by the offset the record was last written at. `LastAccess` is left out,
nothing reads it.
-/

namespace Rocketcycle

structure InstanceRecord where
  inst : Option Bytes
  related : Option Bytes
  cmpdOffset : CompoundOffset
  deriving DecidableEq, Repr

abbrev InstanceStore := String → Option InstanceRecord

namespace InstanceStore

def new : InstanceStore := fun _ => none

/-- Assignment to one key of the map. -/
def put (store : InstanceStore) (key : String) (rec : Option InstanceRecord) : InstanceStore :=
  fun k => if k = key then rec else store k

def get (store : InstanceStore) (key : String) : Option InstanceRecord := store key

/-- The packed record, the outer `none` being the panic of `PackPayloads`. -/
def getPacked (store : InstanceStore) (key : String) : Option (Option Bytes) :=
  match store key with
  | some rec => (packPayloads rec.inst rec.related).map some
  | none => some none

def getInstance (store : InstanceStore) (key : String) : Option Bytes :=
  match store.get key with
  | some rec => rec.inst
  | none => none

def getRelated (store : InstanceStore) (key : String) : Option Bytes :=
  match store.get key with
  | some rec => rec.related
  | none => none

def set (store : InstanceStore) (key : String) (inst related : Option Bytes)
    (cmpdOffset : CompoundOffset) : InstanceStore :=
  match store key with
  | some rec =>
    -- out of order, the write is dropped
    if !offsetGT cmpdOffset rec.cmpdOffset then store
    else store.put key (some ⟨inst, related, cmpdOffset⟩)
  | none => store.put key (some ⟨inst, related, cmpdOffset⟩)

def setInstance (store : InstanceStore) (key : String) (inst : Option Bytes)
    (cmpdOffset : CompoundOffset) : InstanceStore :=
  match store key with
  | some rec =>
    if !offsetGT cmpdOffset rec.cmpdOffset then store
    else store.put key (some { rec with inst := inst, cmpdOffset := cmpdOffset })
  | none => store.put key (some ⟨inst, none, cmpdOffset⟩)

def setRelated (store : InstanceStore) (key : String) (related : Option Bytes)
    (cmpdOffset : CompoundOffset) : Except GoError InstanceStore :=
  match store key with
  | some rec =>
    if !offsetGT cmpdOffset rec.cmpdOffset then .ok store
    else .ok (store.put key (some { rec with related := related, cmpdOffset := cmpdOffset }))
  | none => .error (.other s!"Unable to set related on missing key: {key}")

def remove (store : InstanceStore) (key : String) : InstanceStore := store.put key none

@[simp] theorem put_self (store : InstanceStore) (key : String) (rec : Option InstanceRecord) :
    store.put key rec key = rec := by simp [put]

theorem put_ne {store : InstanceStore} {key k : String} {rec : Option InstanceRecord} (h : k ≠ key) :
    store.put key rec k = store k := by simp [put, h]

theorem getInstance_some {store : InstanceStore} {key : String} {rec : InstanceRecord}
    (h : store key = some rec) : store.getInstance key = rec.inst := by
  simp [getInstance, get, h]

theorem getRelated_some {store : InstanceStore} {key : String} {rec : InstanceRecord}
    (h : store key = some rec) : store.getRelated key = rec.related := by
  simp [getRelated, get, h]

theorem getRelated_none {store : InstanceStore} {key : String} (h : store key = none) :
    store.getRelated key = none := by
  simp [getRelated, get, h]

/-- An instance that is found is found in a record. -/
theorem getInstance_eq_some {store : InstanceStore} {key : String} {inst : Bytes} :
    store.getInstance key = some inst ↔ ∃ rec, store key = some rec ∧ rec.inst = some inst := by
  unfold getInstance get
  cases store key <;> simp

/-- No write to one key shows at another. -/
theorem set_ne {store : InstanceStore} {key k : String} {inst rel : Option Bytes} {o : CompoundOffset}
    (h : k ≠ key) : store.set key inst rel o k = store k := by
  unfold set
  cases store key with
  | none => exact put_ne h
  | some rec =>
    dsimp only
    split
    · rfl
    · exact put_ne h

theorem setInstance_ne {store : InstanceStore} {key k : String} {inst : Option Bytes} {o : CompoundOffset}
    (h : k ≠ key) : store.setInstance key inst o k = store k := by
  unfold setInstance
  cases store key with
  | none => exact put_ne h
  | some rec =>
    dsimp only
    split
    · rfl
    · exact put_ne h

theorem setRelated_ne {store store' : InstanceStore} {key k : String} {rel : Option Bytes}
    {o : CompoundOffset} (ok : store.setRelated key rel o = .ok store') (h : k ≠ key) :
    store' k = store k := by
  unfold setRelated at ok
  split at ok
  · split at ok
    · cases ok; rfl
    · cases ok; exact put_ne h
  · cases ok

theorem remove_ne {store : InstanceStore} {key k : String} (h : k ≠ key) :
    store.remove key k = store k := put_ne h

/-- A write whose offset is newer than the record's takes effect. -/
theorem set_fresh {store : InstanceStore} {key : String} {inst rel : Option Bytes} {o : CompoundOffset}
    (fresh : ∀ rec, store key = some rec → offsetGT o rec.cmpdOffset = true) :
    store.set key inst rel o = store.put key (some ⟨inst, rel, o⟩) := by
  unfold set
  split
  · rename_i rec h
    rw [fresh rec h]; rfl
  · rfl

theorem setInstance_fresh {store : InstanceStore} {key : String} {rec : InstanceRecord}
    {inst : Option Bytes} {o : CompoundOffset} (h : store key = some rec)
    (fresh : offsetGT o rec.cmpdOffset = true) :
    store.setInstance key inst o = store.put key (some { rec with inst := inst, cmpdOffset := o }) := by
  unfold setInstance
  rw [h]
  simp [fresh]

theorem setRelated_fresh {store : InstanceStore} {key : String} {rec : InstanceRecord}
    {rel : Option Bytes} {o : CompoundOffset} (h : store key = some rec)
    (fresh : offsetGT o rec.cmpdOffset = true) :
    store.setRelated key rel o =
      .ok (store.put key (some { rec with related := rel, cmpdOffset := o })) := by
  unfold setRelated
  rw [h]
  simp [fresh]

/-- Every record is at least as old as `bound`: what holds of the stores of a partition whose
next message has that offset. -/
def Below (store : InstanceStore) (bound : CompoundOffset → Prop) : Prop :=
  ∀ key rec, store key = some rec → bound rec.cmpdOffset

theorem Below.put {store : InstanceStore} {bound : CompoundOffset → Prop} (h : store.Below bound)
    {key : String} {rec : Option InstanceRecord} (hr : ∀ r, rec = some r → bound r.cmpdOffset) :
    (store.put key rec).Below bound := by
  intro k r hk
  by_cases e : k = key
  · subst e
    exact hr r (by simpa using hk)
  · exact h k r (by rwa [put_ne e] at hk)

theorem Below.set {store : InstanceStore} {bound : CompoundOffset → Prop} (h : store.Below bound)
    {key : String} {inst rel : Option Bytes} {o : CompoundOffset} (ho : bound o) :
    (store.set key inst rel o).Below bound := by
  unfold InstanceStore.set
  split
  · split
    · exact h
    · exact h.put (by rintro r ⟨⟩; exact ho)
  · exact h.put (by rintro r ⟨⟩; exact ho)

theorem Below.setInstance {store : InstanceStore} {bound : CompoundOffset → Prop} (h : store.Below bound)
    {key : String} {inst : Option Bytes} {o : CompoundOffset} (ho : bound o) :
    (store.setInstance key inst o).Below bound := by
  unfold InstanceStore.setInstance
  split
  · split
    · exact h
    · exact h.put (by rintro r ⟨⟩; exact ho)
  · exact h.put (by rintro r ⟨⟩; exact ho)

theorem Below.setRelated {store store' : InstanceStore} {bound : CompoundOffset → Prop}
    (h : store.Below bound) {key : String} {rel : Option Bytes} {o : CompoundOffset} (ho : bound o)
    (ok : store.setRelated key rel o = .ok store') : store'.Below bound := by
  unfold InstanceStore.setRelated at ok
  split at ok
  · split at ok
    · cases ok; exact h
    · cases ok; exact h.put (by rintro r ⟨⟩; exact ho)
  · cases ok

theorem Below.remove {store : InstanceStore} {bound : CompoundOffset → Prop} (h : store.Below bound)
    (key : String) : (store.remove key).Below bound :=
  h.put (by rintro r ⟨⟩)

end InstanceStore

end Rocketcycle
