import Rocketcycle.Rkcy.InstanceStore
import Mathlib.Logic.Function.Basic

/-!
# Calls on the instance store

The writes of `pkg/rkcy/instance_store.go` as values: what such a call does to the store, what it
would do to a map without offsets, and what any sequence of calls keeps.
-/

namespace Rocketcycle

inductive StoreCall where
  | set (key : String) (inst related : Option Bytes) (cmpdOffset : CompoundOffset)
  | setInstance (key : String) (inst : Option Bytes) (cmpdOffset : CompoundOffset)
  | setRelated (key : String) (related : Option Bytes) (cmpdOffset : CompoundOffset)
  | remove (key : String)
  deriving DecidableEq, Repr

/-- What the store knows of each key, without the offsets: an instance and its related data. -/
abbrev Contents := String → Option (Option Bytes × Option Bytes)

def InstanceStore.contents (store : InstanceStore) : Contents := fun key =>
  (store key).map fun rec => (rec.inst, rec.related)

namespace StoreCall

def key : StoreCall → String
  | .set key .. => key
  | .setInstance key .. => key
  | .setRelated key .. => key
  | .remove key => key

def cmpdOffset : StoreCall → Option CompoundOffset
  | .set _ _ _ o => some o
  | .setInstance _ _ o => some o
  | .setRelated _ _ o => some o
  | .remove _ => none

def perform (store : InstanceStore) : StoreCall → Except GoError InstanceStore
  | .set key inst related o => .ok (store.set key inst related o)
  | .setInstance key inst o => .ok (store.setInstance key inst o)
  | .setRelated key related o => store.setRelated key related o
  | .remove key => .ok (store.remove key)

/-- The store after a call, which may have failed. -/
def after (store : InstanceStore) (c : StoreCall) : InstanceStore :=
  match c.perform store with
  | .ok store' => store'
  | .error _ => store

def afterAll (store : InstanceStore) (calls : List StoreCall) : InstanceStore := calls.foldl after store

/-- The call is out of order. -/
def Rejected (store : InstanceStore) (c : StoreCall) : Prop :=
  ∃ rec o, store c.key = some rec ∧ c.cmpdOffset = some o ∧ offsetGT o rec.cmpdOffset = false

def Fails (store : InstanceStore) (c : StoreCall) : Prop := ∃ e, c.perform store = .error e

/-- The same write to a map. -/
def assign (m : Contents) : StoreCall → Contents
  | .set key inst related _ => Function.update m key (some (inst, related))
  | .setInstance key inst _ => Function.update m key (some (inst, (m key).bind Prod.snd))
  | .setRelated key related _ => Function.update m key ((m key).map fun rec => (rec.1, related))
  | .remove key => Function.update m key none

/-- What one call keeps. -/
structure Keeps (store : InstanceStore) (c : StoreCall) : Prop where
  refused : c.Rejected store ∨ c.Fails store → c.after store = store
  related : ∀ key inst o, c = .setInstance key inst o → (c.after store).getRelated key = store.getRelated key
  inst : ∀ key related o, c = .setRelated key related o → (c.after store).getInstance key = store.getInstance key
  others : ∀ key, key ≠ c.key → c.after store key = store key

section
variable {store : InstanceStore} {c : StoreCall}

theorem contents_put (key : String) (rec : Option InstanceRecord) :
    (store.put key rec).contents = Function.update store.contents key (rec.map fun rec => (rec.inst, rec.related)) := by
  funext k
  by_cases h : k = key
  · subst h
    simp [InstanceStore.contents]
  · rw [Function.update_of_ne h]
    simp [InstanceStore.contents, InstanceStore.put_ne h]

theorem after_ok {store' : InstanceStore} (h : c.perform store = .ok store') : c.after store = store' := by
  simp only [after, h]

theorem after_setRelated {store' : InstanceStore} {key : String} {related : Option Bytes} {o : CompoundOffset}
    (h : store.setRelated key related o = .ok store') : (setRelated key related o).after store = store' :=
  after_ok h

theorem after_failed (h : c.Fails store) : c.after store = store := by
  obtain ⟨e, he⟩ := h
  simp only [after, he]

theorem after_rejected (h : c.Rejected store) : c.after store = store := by
  obtain ⟨rec, o, held, offset, older⟩ := h
  cases c with
  | set key inst related o' =>
    cases offset
    change store key = some rec at held
    simp [after, perform, InstanceStore.set, held, older]
  | setInstance key inst o' =>
    cases offset
    change store key = some rec at held
    simp [after, perform, InstanceStore.setInstance, held, older]
  | setRelated key related o' =>
    cases offset
    change store key = some rec at held
    simp [after, perform, InstanceStore.setRelated, held, older]
  | remove key => cases offset

theorem after_ne {k : String} (h : k ≠ c.key) : c.after store k = store k := by
  cases c with
  | set key inst related o => exact InstanceStore.set_ne h
  | setInstance key inst o => exact InstanceStore.setInstance_ne h
  | setRelated key related o =>
    cases ok : store.setRelated key related o with
    | ok store' =>
      rw [after_setRelated ok]
      exact InstanceStore.setRelated_ne ok h
    | error e =>
      have failed : (setRelated key related o).Fails store := ⟨e, ok⟩
      rw [after_failed failed]
  | remove key => exact InstanceStore.remove_ne h

/-- A call that is neither rejected nor fails does to the store what it does to a map. -/
theorem contents_after (inOrder : ¬c.Rejected store) (succeeds : ¬c.Fails store) :
    (c.after store).contents = c.assign store.contents := by
  have newer : ∀ rec o, store c.key = some rec → c.cmpdOffset = some o → offsetGT o rec.cmpdOffset = true := by
    intro rec o held offset
    by_contra older
    exact inOrder ⟨rec, o, held, offset, by simpa using older⟩
  cases c with
  | set key inst related o =>
    show (store.set key inst related o).contents = _
    have fresh : ∀ rec, store key = some rec → offsetGT o rec.cmpdOffset = true := fun rec held => newer rec o held rfl
    rw [InstanceStore.set_fresh fresh, contents_put]
    rfl
  | setInstance key inst o =>
    show (store.setInstance key inst o).contents = Function.update store.contents key _
    cases held : store key with
    | none =>
      have absent : store.contents key = none := by simp [InstanceStore.contents, held]
      have created : store.setInstance key inst o = store.put key (some ⟨inst, none, o⟩) := by
        simp [InstanceStore.setInstance, held]
      rw [created, contents_put, absent]
      rfl
    | some rec =>
      have present : store.contents key = some (rec.inst, rec.related) := by simp [InstanceStore.contents, held]
      rw [InstanceStore.setInstance_fresh held (newer rec o held rfl), contents_put, present]
      rfl
  | setRelated key related o =>
    cases held : store key with
    | none =>
      exfalso
      apply succeeds
      exact ⟨.other s!"Unable to set related on missing key: {key}", by simp [perform, InstanceStore.setRelated, held]⟩
    | some rec =>
      have present : store.contents key = some (rec.inst, rec.related) := by simp [InstanceStore.contents, held]
      show ((StoreCall.setRelated key related o).after store).contents = Function.update store.contents key _
      rw [after_setRelated (InstanceStore.setRelated_fresh held (newer rec o held rfl)), contents_put, present]
      rfl
  | remove key => exact contents_put key none

theorem below_after {bound : CompoundOffset → Prop} (h : store.Below bound) (ho : ∀ o, c.cmpdOffset = some o → bound o) :
    (c.after store).Below bound := by
  cases c with
  | set key inst related o => exact h.set (ho o rfl)
  | setInstance key inst o => exact h.setInstance (ho o rfl)
  | setRelated key related o =>
    cases ok : store.setRelated key related o with
    | ok store' =>
      rw [after_setRelated ok]
      exact h.setRelated (ho o rfl) ok
    | error e =>
      have failed : (setRelated key related o).Fails store := ⟨e, ok⟩
      rwa [after_failed failed]
  | remove key => exact h.remove key

theorem keeps (store : InstanceStore) (c : StoreCall) : c.Keeps store := by
  constructor
  · rintro (rejected | failed)
    · exact after_rejected rejected
    · exact after_failed failed
  · rintro key inst o rfl
    show (store.setInstance key inst o).getRelated key = store.getRelated key
    unfold InstanceStore.setInstance
    split
    · rename_i rec held
      split
      · rfl
      · rw [InstanceStore.getRelated_some (InstanceStore.put_self ..), InstanceStore.getRelated_some held]
    · rename_i held
      rw [InstanceStore.getRelated_some (InstanceStore.put_self ..), InstanceStore.getRelated_none held]
  · rintro key related o rfl
    cases ok : store.setRelated key related o with
    | error e =>
      have failed : (setRelated key related o).Fails store := ⟨e, ok⟩
      rw [after_failed failed]
    | ok store' =>
      rw [after_setRelated ok]
      unfold InstanceStore.setRelated at ok
      split at ok
      · rename_i rec held
        split at ok
        · cases ok
          rfl
        · cases ok
          simp [InstanceStore.getInstance, InstanceStore.get, held]
      · cases ok
  · intro key h
    exact after_ne h

/-- A record that is not removed only becomes newer. -/
theorem offset_after {k : String} {rec : InstanceRecord} (held : store k = some rec) (stays : c ≠ .remove k) :
    ∃ rec', c.after store k = some rec' ∧ rec.cmpdOffset.rank ≤ rec'.cmpdOffset.rank := by
  by_cases other : k = c.key
  swap
  · exact ⟨rec, (after_ne other).trans held, le_refl _⟩
  by_cases refused : c.Rejected store ∨ c.Fails store
  · exact ⟨rec, by rw [(keeps store c).refused refused, held], le_refl _⟩
  rw [not_or] at refused
  have newer : ∀ o, c.cmpdOffset = some o → offsetGT o rec.cmpdOffset = true := by
    intro o offset
    by_contra older
    exact refused.1 ⟨rec, o, other ▸ held, offset, by simpa using older⟩
  cases c with
  | set key inst related o =>
    change k = key at other
    subst other
    refine ⟨⟨inst, related, o⟩, ?_, (offsetGT_iff.1 (newer o rfl)).le⟩
    show store.set k inst related o k = _
    have fresh : ∀ r, store k = some r → offsetGT o r.cmpdOffset = true := by
      intro r hr
      rw [held] at hr
      cases hr
      exact newer o rfl
    rw [InstanceStore.set_fresh fresh, InstanceStore.put_self]
  | setInstance key inst o =>
    change k = key at other
    subst other
    refine ⟨{ rec with inst := inst, cmpdOffset := o }, ?_, (offsetGT_iff.1 (newer o rfl)).le⟩
    show store.setInstance k inst o k = _
    rw [InstanceStore.setInstance_fresh held (newer o rfl), InstanceStore.put_self]
  | setRelated key related o =>
    change k = key at other
    subst other
    refine ⟨{ rec with related := related, cmpdOffset := o }, ?_, (offsetGT_iff.1 (newer o rfl)).le⟩
    rw [after_setRelated (InstanceStore.setRelated_fresh held (newer o rfl)), InstanceStore.put_self]
  | remove key => exact absurd (congrArg StoreCall.remove other.symm) stays

/-- Between two removals the offset of a record never decreases. -/
theorem offset_afterAll {k : String} {rec : InstanceRecord} {calls : List StoreCall} (held : store k = some rec)
    (stays : ∀ c ∈ calls, c ≠ .remove k) :
    ∃ rec', afterAll store calls k = some rec' ∧ rec.cmpdOffset.rank ≤ rec'.cmpdOffset.rank := by
  induction calls generalizing store rec with
  | nil => exact ⟨rec, held, le_refl _⟩
  | cons c calls ih =>
    obtain ⟨rec1, held1, newer1⟩ := offset_after held (stays c List.mem_cons_self)
    obtain ⟨rec', held', newer'⟩ := ih held1 fun c' hc' => stays c' (List.mem_cons_of_mem _ hc')
    exact ⟨rec', held', newer1.trans newer'⟩

end

end StoreCall

end Rocketcycle
