import Rocketcycle.Lib.Register
import Rocketcycle.Storage.RamDb
import Mathlib.Data.List.Nodup

/-!
# Operations on a RamDb

Sequences of `Create`, `Update` and `Delete`. Seen from one key, they are entries of a register
that is guarded by their offsets.
-/

namespace Rocketcycle

open Register

variable {M : Type}

namespace RamDb

inductive Operation (M : Type) where
  | create (concern key : String) (inst : M) (cmpdOffset : CompoundOffset)
  | update (concern key : String) (inst : M) (rel : Option M) (cmpdOffset : CompoundOffset)
  | delete (concern key : String) (cmpdOffset : CompoundOffset)
  deriving DecidableEq

namespace Operation

def concern : Operation M → String
  | create concern .. | update concern .. | delete concern .. => concern

def key : Operation M → String
  | create _ key .. | update _ key .. | delete _ key _ => key

def cmpdOffset : Operation M → CompoundOffset
  | create _ _ _ o | update _ _ _ _ o | delete _ _ o => o

/-- What the operation leaves for its key where it takes effect. -/
def item : Operation M → Option (Item M)
  | create _ _ inst o => some ⟨inst, none, o⟩
  | update _ _ inst rel o => some ⟨inst, rel, o⟩
  | delete .. => none

def apply (ramdb : RamDb M) : Operation M → RamDb M
  | create concern key inst o => ramdb.create concern key inst o
  | update concern key inst rel o => ramdb.update concern key inst rel o
  | delete concern key o => ramdb.delete concern key o

/-- An operation is one on this key. -/
def On (op : Operation M) (c k : String) : Prop := op.concern = c ∧ op.key = k

instance (op : Operation M) (c k : String) : Decidable (op.On c k) := inferInstanceAs (Decidable (_ ∧ _))

end Operation

/-- The operations one after the other. -/
def applyAll (ramdb : RamDb M) (ops : List (Operation M)) : RamDb M := ops.foldl Operation.apply ramdb

/-- The operation on a key with the greatest offset. -/
def latest (ops : List (Operation M)) (c k : String) : Option (Operation M) :=
  (ops.filter fun op => op.On c k).argmax fun op => op.cmpdOffset.rank

/-- What each key holds by the operation with the greatest offset. -/
def contents (ops : List (Operation M)) : RamDb M := fun c k => (latest ops c k).bind Operation.item

/-! ## One key -/

def Item.rank (item : Item M) : Int ×ₗ Int ×ₗ Int := item.cmpdOffset.rank

/-- An operation as an entry of the register of its key. -/
def Operation.entry (op : Operation M) : Entry (Item M) (Int ×ₗ Int ×ₗ Int) :=
  match op.item with
  | some item => .write item
  | none => .erase op.cmpdOffset.rank

section
variable {ramdb : RamDb M} {op : Operation M} {ops : List (Operation M)} {c k : String}

@[simp] theorem entry_value : op.entry.value = op.item := by
  cases op <;> rfl

@[simp] theorem entry_time : op.entry.time Item.rank = op.cmpdOffset.rank := by
  cases op <;> rfl

theorem guard_eq {o o' : CompoundOffset} {α : Type} {a b : α} :
    (if offsetGT o o' then a else b) = if o'.rank < o.rank then a else b := by
  simp only [offsetGT_iff]

theorem update_enter {concern key : String} {inst : M} {rel : Option M} {o : CompoundOffset} :
    ramdb.update concern key inst rel o concern key =
      enter Item.rank (ramdb concern key) (.write ⟨inst, rel, o⟩) := by
  cases h : ramdb concern key with
  | none => exact update_none h
  | some old =>
    rw [update_some h, guard_eq]
    rfl

theorem delete_enter {concern key : String} {o : CompoundOffset} :
    ramdb.delete concern key o concern key = enter Item.rank (ramdb concern key) (.erase o.rank) := by
  cases h : ramdb concern key with
  | none => exact delete_none h
  | some old =>
    rw [delete_some h, guard_eq]
    rfl

/-- An operation is an entry for its own key. -/
theorem apply_on (h : op.On c k) : op.apply ramdb c k = enter Item.rank (ramdb c k) op.entry := by
  obtain ⟨rfl, rfl⟩ := h
  cases op with
  | create concern key inst o => exact update_enter
  | update concern key inst rel o => exact update_enter
  | delete concern key o => exact delete_enter

/-- It leaves the other keys alone. -/
theorem apply_elsewhere (h : ¬op.On c k) : op.apply ramdb c k = ramdb c k := by
  have other : ¬(c = op.concern ∧ k = op.key) := fun ⟨hc, hk⟩ => h ⟨hc.symm, hk.symm⟩
  cases op with
  | create concern key inst o => exact update_ne other
  | update concern key inst rel o => exact update_ne other
  | delete concern key o => exact delete_ne other

/-- The entries that a sequence makes for a key. -/
def entries (ops : List (Operation M)) (c k : String) : List (Entry (Item M) (Int ×ₗ Int ×ₗ Int)) :=
  (ops.filter fun op => op.On c k).map Operation.entry

theorem applyAll_at : ramdb.applyAll ops c k = play Item.rank (ramdb c k) (entries ops c k) := by
  induction ops generalizing ramdb with
  | nil => rfl
  | cons op ops ih =>
    show (op.apply ramdb).applyAll ops c k = _
    rw [ih]
    by_cases here : op.On c k
    · rw [apply_on here]
      simp [entries, here, play]
    · rw [apply_elsewhere here]
      simp [entries, here]

theorem applyAll_append (ops' : List (Operation M)) : ramdb.applyAll (ops ++ ops') = (ramdb.applyAll ops).applyAll ops' :=
  List.foldl_append

/-- A suffix of a sequence of operations that is applied a second time changes nothing. -/
theorem redelivery_absorbed (ramdb : RamDb M) (ops suffix : List (Operation M)) :
    (ramdb.applyAll (ops ++ suffix)).applyAll suffix = ramdb.applyAll (ops ++ suffix) := by
  funext c k
  rw [applyAll_append, applyAll_at, applyAll_at]
  exact play_play

theorem mem_entries {e : Entry (Item M) (Int ×ₗ Int ×ₗ Int)} :
    e ∈ entries ops c k ↔ ∃ op ∈ ops, op.On c k ∧ op.entry = e := by
  simp [entries, and_assoc]

/-- The operations that leave something. -/
theorem latest_mem (h : latest ops c k = some op) :
    op ∈ ops ∧ op.On c k ∧ ∀ op' ∈ ops, op'.On c k → op'.cmpdOffset.rank ≤ op.cmpdOffset.rank := by
  have mem := List.argmax_mem h
  rw [List.mem_filter, decide_eq_true_eq] at mem
  refine ⟨mem.1, mem.2, fun op' hop' on => ?_⟩
  have here : op' ∈ ops.filter fun op => op.On c k := List.mem_filter.2 ⟨hop', by simpa using on⟩
  exact List.le_of_mem_argmax (f := fun op => op.cmpdOffset.rank) here h

theorem latest_none (h : latest ops c k = none) : ∀ op ∈ ops, ¬op.On c k := by
  intro op hop on
  have mem : op ∈ ops.filter fun op => op.On c k := List.mem_filter.2 ⟨hop, by simpa using on⟩
  rw [List.argmax_eq_none.1 h] at mem
  cases mem

/-- One order of the operations. The key holds what it should unless its newest operation is a
deletion of something else. -/
theorem applyAll_contents (distinct : (ops.map Operation.cmpdOffset).Nodup)
    (erased : ∀ op, latest ops c k = some op → op.item = none → ∀ op' ∈ ops, op'.On c k → op'.item = none)
    {ops' : List (Operation M)} (perm : ops'.Perm ops) : RamDb.new.applyAll ops' c k = contents ops c k := by
  rw [applyAll_at]
  show play Item.rank none (entries ops' c k) = (latest ops c k).bind Operation.item
  have members : ∀ e ∈ entries ops' c k, ∃ op ∈ ops, op.On c k ∧ op.entry = e := by
    intro e he
    obtain ⟨op, hop, on, rfl⟩ := mem_entries.1 he
    exact ⟨op, perm.mem_iff.1 hop, on, rfl⟩
  cases hl : latest ops c k with
  | none =>
    have nothing : entries ops' c k = [] := by
      rw [List.eq_nil_iff_forall_not_mem]
      intro e he
      obtain ⟨op, hop, on, -⟩ := members e he
      exact latest_none hl op hop on
    rw [nothing]
    rfl
  | some op =>
    obtain ⟨hop, on, newest⟩ := latest_mem hl
    cases hi : op.item with
    | none =>
      show play Item.rank none (entries ops' c k) = op.item
      rw [hi]
      apply play_erasures
      intro e he
      obtain ⟨op', hop', on', rfl⟩ := members e he
      rw [entry_value]
      exact erased op hl hi op' hop' on'
    | some item =>
      have entry : op.entry = .write item := by simp [Operation.entry, hi]
      have time : op.cmpdOffset.rank = item.cmpdOffset.rank := by
        rw [← entry_time, entry]
        rfl
      show play Item.rank none (entries ops' c k) = op.item
      rw [hi]
      apply play_newest_write
      · exact mem_entries.2 ⟨op, perm.mem_iff.2 hop, on, entry⟩
      · have times : (entries ops' c k).map (Entry.time Item.rank) =
            ((ops'.filter fun op => op.On c k).map Operation.cmpdOffset).map CompoundOffset.rank := by
          simp [entries, Function.comp_def]
        rw [times]
        apply List.Nodup.map CompoundOffset.rank_injective
        exact (List.filter_sublist.map _).nodup ((perm.map _).nodup_iff.2 distinct)
      · intro e he
        obtain ⟨op', hop', on', rfl⟩ := members e he
        rw [entry_time]
        exact (newest op' hop' on').trans_eq time

/-- A key that is written last holds something. -/
theorem applyAll_write_last {ramdb : RamDb M} (on : op.On c k) {item : Item M} (writes : op.item = some item) :
    ramdb.applyAll (ops ++ [op]) c k ≠ none := by
  rw [applyAll_append]
  show op.apply (ramdb.applyAll ops) c k ≠ none
  rw [apply_on on]
  simp only [Operation.entry, writes]
  exact enter_write

end

/-- Every order of operations with distinct offsets leaves in each key what its newest operation
says, exactly if no key that is written has a deletion as its newest operation. -/
theorem order_independent_iff (ops : List (Operation M)) (distinct : (ops.map Operation.cmpdOffset).Nodup) :
    (∀ ops' : List (Operation M), ops'.Perm ops → RamDb.new.applyAll ops' = contents ops) ↔
      ∀ c k op, latest ops c k = some op → op.item = none → ∀ op' ∈ ops, op'.On c k → op'.item = none := by
  constructor
  · intro independent c k op hl erases op' hop' on'
    by_contra writes
    obtain ⟨item, hitem⟩ := Option.ne_none_iff_exists'.1 writes
    obtain ⟨before, after, rfl⟩ := List.append_of_mem hop'
    have perm : ((before ++ after) ++ [op']).Perm (before ++ op' :: after) := by
      rw [List.append_assoc]
      exact (List.perm_append_singleton op' after).append_left before
    have held := congrFun (congrFun (independent _ perm) c) k
    have gone : contents (before ++ op' :: after) c k = none := by
      show (latest _ c k).bind Operation.item = none
      rw [hl]
      exact erases
    rw [gone] at held
    exact applyAll_write_last on' hitem held
  · intro erased ops' perm
    funext c k
    exact applyAll_contents distinct (erased c k) perm

/-- A deletion that an older update arrives after. -/
def staleUpdate : List (Operation Unit) := [.delete "Player" "k" ⟨1, 0, 5⟩, .update "Player" "k" () (some ()) ⟨1, 0, 3⟩]

theorem delete_forgets_offset :
    (staleUpdate.map Operation.cmpdOffset).Nodup ∧
      RamDb.new.applyAll staleUpdate "Player" "k" = some ⟨(), some (), ⟨1, 0, 3⟩⟩ ∧
      RamDb.new.applyAll staleUpdate.reverse "Player" "k" = none ∧ contents staleUpdate "Player" "k" = none := by
  decide +kernel

/-- Written keys whose newest operation is a write. -/
def keptUpdate : List (Operation Unit) := [.delete "Player" "k" ⟨1, 0, 3⟩, .update "Player" "k" () (some ()) ⟨1, 0, 5⟩]

theorem keptUpdate_order_independent : RamDb.new.applyAll keptUpdate.reverse = contents keptUpdate := by
  refine (order_independent_iff keptUpdate (by decide +kernel)).2 ?_ _ (List.reverse_perm _)
  intro c k op hl erases
  exfalso
  obtain ⟨mem, ⟨rfl, rfl⟩, newest⟩ := latest_mem hl
  have isDelete : op = .delete "Player" "k" ⟨1, 0, 3⟩ := by
    simp only [keptUpdate, List.mem_cons, List.not_mem_nil, or_false] at mem
    rcases mem with rfl | rfl
    · rfl
    · cases erases
  subst isDelete
  have older := newest (.update "Player" "k" () (some ()) ⟨1, 0, 5⟩) (by simp [keptUpdate]) ⟨rfl, rfl⟩
  exact absurd older (by decide +kernel)

end RamDb

end Rocketcycle
