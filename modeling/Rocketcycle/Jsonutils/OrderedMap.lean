import Rocketcycle.Lib.Slices
import Rocketcycle.Jsonutils.Json
import Mathlib.Data.List.Induction

/-!
# The representation of ordered maps

`OrderedMap` with the two structures it has in `jsonutils.go`: the slice of its keys and the map of its
values, which stay in step over any sequence of `Set` and `SetAfter`. Read as a list of entries it is
the `OrderedMap` that the reader and the writer work on. How far `append` grows an array is left open
as `spare`.
-/

namespace Rocketcycle.Jsonutils.Rep

structure OrderedMap (V : Type) where
  Keys : Slice Bytes
  KeyVals : Bytes → Option V

variable {V : Type}

/-- Assignment to a key of a Go map. -/
def assign (keyVals : Bytes → Option V) (k : Bytes) (v : V) : Bytes → Option V :=
  fun k' => if k' = k then some v else keyVals k'

/-- `NewOrderedMap`. -/
def newOrderedMap : OrderedMap V := ⟨Slice.empty, fun _ => none⟩

namespace OrderedMap

def get (m : OrderedMap V) (k : Bytes) : Option V := m.KeyVals k

def set (spare : Nat → Nat → Nat) (m : OrderedMap V) (k : Bytes) (v : V) : OrderedMap V :=
  { Keys := if (m.KeyVals k).isSome then m.Keys else m.Keys.append spare [] [k]
    KeyVals := assign m.KeyVals k v }

/-- The search for `kbefore` in `SetAfter`: the index behind it, or -1. -/
def behind (kbefore : Bytes) : List Bytes → Int → Int
  | [], _ => -1
  | kc :: rest, i => if kc = kbefore then i + 1 else behind kbefore rest (i + 1)

/-- The keys with `k` put in at `idx`, which is in the middle. -/
def insertKey (spare : Nat → Nat → Nat) (keys : Slice Bytes) (idx : Nat) (middle : idx < keys.len) (k : Bytes) : Slice Bytes :=
  ((keys.upTo (idx + 1) (Nat.le_trans middle keys.fits)).append spare [] (keys.elems.drop idx)).set idx k

theorem behind_or (kbefore : Bytes) (keys : List Bytes) (i : Int) : behind kbefore keys i = -1 ∨ i < behind kbefore keys i := by
  induction keys generalizing i with
  | nil => exact Or.inl rfl
  | cons kc rest ih =>
    rw [behind]
    by_cases here : kc = kbefore
    · rw [if_pos here]
      omega
    · rw [if_neg here]
      have later := ih (i + 1)
      omega

theorem middle_of {kbefore : Bytes} {keys : Slice Bytes}
    (inside : ¬(behind kbefore keys.elems 0 = -1 ∨ behind kbefore keys.elems 0 > keys.len - 1)) :
    (behind kbefore keys.elems 0).toNat < keys.len := by
  have found := behind_or kbefore keys.elems 0
  omega

def setAfter (spare : Nat → Nat → Nat) (m : OrderedMap V) (k : Bytes) (v : V) (kbefore : Bytes) : OrderedMap V :=
  if (m.KeyVals k).isSome then { m with KeyVals := assign m.KeyVals k v }
  else
    let idx := behind kbefore m.Keys.elems 0
    -- not found or at end
    if outside : idx = -1 ∨ idx > m.Keys.len - 1 then
      { Keys := m.Keys.append spare [] [k], KeyVals := assign m.KeyVals k v }
    else
      { Keys := insertKey spare m.Keys idx.toNat (middle_of outside) k, KeyVals := assign m.KeyVals k v }

end OrderedMap

/-! ## Calls -/

inductive Call (V : Type) where
  | set (k : Bytes) (v : V)
  | setAfter (k : Bytes) (v : V) (kbefore : Bytes)

namespace Call

def key : Call V → Bytes
  | .set k _ => k
  | .setAfter k _ _ => k

def value : Call V → V
  | .set _ v => v
  | .setAfter _ v _ => v

def apply (spare : Nat → Nat → Nat) (m : OrderedMap V) : Call V → OrderedMap V
  | .set k v => m.set spare k v
  | .setAfter k v kbefore => m.setAfter spare k v kbefore

end Call

/-- The map after a sequence of calls on a new one. -/
def run (spare : Nat → Nat → Nat) (calls : List (Call V)) : OrderedMap V := calls.foldl (Call.apply spare) newOrderedMap

/-- The value of the last call with a key. -/
def lastWritten (calls : List (Call V)) (k : Bytes) : Option V := (calls.reverse.find? fun c => c.key = k).map Call.value

/-! ## One call -/

namespace OrderedMap

variable {spare : Nat → Nat → Nat} {m : OrderedMap V} {k kbefore : Bytes} {v : V}

/-- The keys are without duplicates and are those of the values. -/
structure InStep (m : OrderedMap V) : Prop where
  nodup : m.Keys.elems.Nodup
  keys : ∀ k, k ∈ m.Keys.elems ↔ (m.KeyVals k).isSome

theorem InStep.new (h : m.InStep) (absent : k ∉ m.Keys.elems) : ¬(m.KeyVals k).isSome := fun found => absent ((h.keys k).2 found)

theorem behind_append (before after : List Bytes) (i : Int) (absent : kbefore ∉ before) :
    behind kbefore (before ++ kbefore :: after) i = i + before.length + 1 := by
  induction before generalizing i with
  | nil => simp [behind]
  | cons kc before ih =>
    rw [List.mem_cons, not_or] at absent
    rw [List.cons_append, behind, if_neg (Ne.symm absent.1), ih (i + 1) absent.2, List.length_cons]
    omega

theorem behind_absent {keys : List Bytes} (i : Int) (absent : kbefore ∉ keys) : behind kbefore keys i = -1 := by
  induction keys generalizing i with
  | nil => rfl
  | cons kc keys ih =>
    rw [List.mem_cons, not_or] at absent
    rw [behind, if_neg (Ne.symm absent.1), ih (i + 1) absent.2]

theorem keys_set_known (known : (m.KeyVals k).isSome) : (m.set spare k v).Keys = m.Keys := if_pos known

theorem keys_set_new (new : ¬(m.KeyVals k).isSome) : (m.set spare k v).Keys.elems = m.Keys.elems ++ [k] := by
  unfold set
  rw [if_neg new, Slice.elems_append]

theorem keys_setAfter_known (known : (m.KeyVals k).isSome) : (m.setAfter spare k v kbefore).Keys = m.Keys := by
  unfold setAfter
  rw [if_pos known]

/-- Without `kbefore` the new key comes last. -/
theorem keys_setAfter_absent (new : ¬(m.KeyVals k).isSome) (absent : kbefore ∉ m.Keys.elems) :
    (m.setAfter spare k v kbefore).Keys.elems = m.Keys.elems ++ [k] := by
  unfold setAfter
  rw [if_neg new]
  dsimp only
  rw [dif_pos (Or.inl (behind_absent 0 absent)), Slice.elems_append]

/-- Behind the first `kbefore`, whether that is the last key or not. -/
theorem keys_setAfter_present {before after : List Bytes} (new : ¬(m.KeyVals k).isSome) (absent : kbefore ∉ before)
    (here : m.Keys.elems = before ++ kbefore :: after) :
    (m.setAfter spare k v kbefore).Keys.elems = before ++ kbefore :: k :: after := by
  have len : m.Keys.len = before.length + after.length + 1 := by
    rw [← Slice.length_elems, here, List.length_append, List.length_cons]
    omega
  have idx : behind kbefore m.Keys.elems 0 = before.length + 1 := by
    rw [here, behind_append before after 0 absent]
    omega
  have split : before ++ kbefore :: after = (before ++ [kbefore]) ++ after := by simp
  have width : (before ++ [kbefore]).length = before.length + 1 := by simp
  unfold setAfter
  rw [if_neg new]
  dsimp only
  by_cases last : after = []
  · subst last
    rw [dif_pos (Or.inr (by rw [idx, len, List.length_nil]; omega)), Slice.elems_append, here, List.append_assoc]
    rfl
  · have more : 0 < after.length := List.length_pos_of_ne_nil last
    have place : (behind kbefore m.Keys.elems 0).toNat = (before ++ [kbefore]).length := by omega
    rw [dif_neg (by omega)]
    unfold insertKey
    rw [Slice.elems_open spare [] m.Keys (by omega), place, here, split, List.take_left, List.drop_left, List.append_assoc]
    rfl

/-- Either call writes the value and leaves the keys or puts the new one somewhere among them. -/
theorem apply_cases (h : m.InStep) (c : Call V) :
    (c.apply spare m).KeyVals = assign m.KeyVals c.key c.value ∧
      (c.key ∈ m.Keys.elems ∧ (c.apply spare m).Keys = m.Keys ∨
        c.key ∉ m.Keys.elems ∧ ∃ before after, m.Keys.elems = before ++ after ∧ (c.apply spare m).Keys.elems = before ++ c.key :: after) := by
  have known {k : Bytes} (hk : k ∈ m.Keys.elems) : (m.KeyVals k).isSome := (h.keys k).1 hk
  cases c with
  | set k v =>
    refine ⟨rfl, ?_⟩
    by_cases hk : k ∈ m.Keys.elems
    · exact Or.inl ⟨hk, keys_set_known (known hk)⟩
    · exact Or.inr ⟨hk, m.Keys.elems, [], (List.append_nil _).symm, keys_set_new (h.new hk)⟩
  | setAfter k v kbefore =>
    have written : (m.setAfter spare k v kbefore).KeyVals = assign m.KeyVals k v := by
      unfold setAfter
      dsimp only
      split
      · rfl
      · split <;> rfl
    refine ⟨written, ?_⟩
    by_cases hk : k ∈ m.Keys.elems
    · exact Or.inl ⟨hk, keys_setAfter_known (known hk)⟩
    · refine Or.inr ⟨hk, ?_⟩
      by_cases hb : kbefore ∈ m.Keys.elems
      · obtain ⟨before, after, here, absent⟩ := List.eq_append_cons_of_mem hb
        refine ⟨before ++ [kbefore], after, ?_, ?_⟩
        · rw [here, List.append_assoc]
          rfl
        · show (m.setAfter spare k v kbefore).Keys.elems = _
          rw [keys_setAfter_present (h.new hk) absent here, List.append_assoc]
          rfl
      · exact ⟨m.Keys.elems, [], (List.append_nil _).symm, keys_setAfter_absent (h.new hk) hb⟩

theorem apply_mem (h : m.InStep) (c : Call V) (k : Bytes) :
    k ∈ (c.apply spare m).Keys.elems ↔ k = c.key ∨ k ∈ m.Keys.elems := by
  obtain ⟨-, ⟨known, same⟩ | ⟨new, before, after, split, opened⟩⟩ := apply_cases (c := c) h
  · rw [same]
    constructor
    · exact Or.inr
    · intro hk
      exact hk.elim (fun e => e ▸ known) id
  · rw [opened, split]
    simp only [List.mem_append, List.mem_cons]
    constructor <;> intro hk <;> tauto

/-- Either call keeps keys and values in step. -/
theorem InStep.apply (h : m.InStep) (c : Call V) : (c.apply spare m).InStep := by
  obtain ⟨written, keys⟩ := apply_cases (c := c) h
  constructor
  · obtain ⟨known, same⟩ | ⟨new, before, after, split, opened⟩ := keys
    · rw [same]
      exact h.nodup
    · have nodup := h.nodup
      rw [split] at nodup new
      rw [opened]
      exact List.nodup_middle.2 (List.nodup_cons.2 ⟨new, nodup⟩)
  · intro k
    rw [apply_mem h, written, assign, h.keys k]
    by_cases same : k = c.key
    · simp [same]
    · simp [same]

end OrderedMap

/-! ## Runs -/

section
variable (spare : Nat → Nat → Nat)

theorem run_concat (calls : List (Call V)) (c : Call V) : run spare (calls ++ [c]) = c.apply spare (run spare calls) := by
  unfold run
  rw [List.foldl_append]
  rfl

theorem run_inStep (calls : List (Call V)) : (run spare calls).InStep := by
  induction calls using List.reverseRecOn with
  | nil =>
    constructor
    · exact List.nodup_nil
    · intro k
      exact iff_of_false List.not_mem_nil Bool.false_ne_true
  | append_singleton calls c ih =>
    rw [run_concat]
    exact ih.apply c

theorem run_get (calls : List (Call V)) (k : Bytes) : (run spare calls).get k = lastWritten calls k := by
  unfold lastWritten
  induction calls using List.reverseRecOn with
  | nil => rfl
  | append_singleton calls c ih =>
    obtain ⟨written, -⟩ := OrderedMap.apply_cases (run_inStep spare calls) c
    rw [run_concat, OrderedMap.get, written, List.reverse_concat, List.find?_cons, assign]
    by_cases same : c.key = k
    · rw [if_pos same.symm, decide_eq_true same]
      rfl
    · rw [if_neg (Ne.symm same), decide_eq_false same]
      exact ih

/-- After any sequence of calls the keys are those of the values, each once, and in the order in which
the calls put them. -/
theorem run_keeps (calls : List (Call V)) :
    let m := run spare calls
    let keys := m.Keys.elems
    keys.Nodup ∧
    (∀ k, k ∈ keys ↔ (m.KeyVals k).isSome) ∧
    (∀ k, m.get k = lastWritten calls k) ∧
    (∀ k v kbefore, k ∈ keys → (m.set spare k v).Keys.elems = keys ∧ (m.setAfter spare k v kbefore).Keys.elems = keys) ∧
    (∀ k v, k ∉ keys → (m.set spare k v).Keys.elems = keys ++ [k]) ∧
    (∀ k v kbefore, k ∉ keys → kbefore ∉ keys → (m.setAfter spare k v kbefore).Keys.elems = keys ++ [k]) ∧
    (∀ k v kbefore, k ∉ keys → kbefore ∈ keys → ∃ before after, keys = before ++ kbefore :: after ∧
      (m.setAfter spare k v kbefore).Keys.elems = before ++ kbefore :: k :: after) := by
  have inStep := run_inStep spare calls
  have written := run_get spare calls
  dsimp only
  generalize run spare calls = m at inStep written
  refine ⟨inStep.nodup, inStep.keys, written, ?_, ?_, ?_, ?_⟩
  · intro k v kbefore known
    have found := (inStep.keys k).1 known
    rw [OrderedMap.keys_set_known found, OrderedMap.keys_setAfter_known found]
    exact ⟨rfl, rfl⟩
  · intro k v new
    exact OrderedMap.keys_set_new (inStep.new new)
  · intro k v kbefore new absent
    exact OrderedMap.keys_setAfter_absent (inStep.new new) absent
  · intro k v kbefore new present
    obtain ⟨before, after, here, absent⟩ := List.eq_append_cons_of_mem present
    exact ⟨before, after, here, OrderedMap.keys_setAfter_present (inStep.new new) absent here⟩

end

/-! ## The map as its entries -/

def entriesOf (keyVals : Bytes → Option V) (keys : List Bytes) : List (Bytes × V) :=
  keys.filterMap fun k => (keyVals k).map fun v => (k, v)

def OrderedMap.entries (m : OrderedMap V) : List (Bytes × V) := entriesOf m.KeyVals m.Keys.elems

section
variable {keyVals : Bytes → Option V} {keys : List Bytes} {k kbefore : Bytes} {v : V}

theorem entriesOf_cons (found : keyVals k = some v) : entriesOf keyVals (k :: keys) = (k, v) :: entriesOf keyVals keys := by
  unfold entriesOf
  rw [List.filterMap_cons, found]
  rfl

theorem entriesOf_append (before after : List Bytes) :
    entriesOf keyVals (before ++ after) = entriesOf keyVals before ++ entriesOf keyVals after := List.filterMap_append

theorem assign_self : assign keyVals k v k = some v := if_pos rfl

/-- A key that is not among them can get any value. -/
theorem entriesOf_assign (absent : k ∉ keys) : entriesOf (assign keyVals k v) keys = entriesOf keyVals keys := by
  unfold entriesOf
  apply List.filterMap_congr
  intro k' hk'
  have other : k' ≠ k := fun same => absent (same ▸ hk')
  rw [assign, if_neg other]

theorem lookup_entriesOf (keys : List Bytes) (k : Bytes) : (entriesOf keyVals keys).lookup k = if k ∈ keys then keyVals k else none := by
  induction keys with
  | nil => rfl
  | cons k' keys ih =>
    cases found : keyVals k' with
    | none =>
      have skip : entriesOf keyVals (k' :: keys) = entriesOf keyVals keys := by
        unfold entriesOf
        rw [List.filterMap_cons, found]
        rfl
      rw [skip, ih]
      by_cases same : k = k'
      · rw [same, found, if_pos List.mem_cons_self, ite_self]
      · simp [same]
    | some v =>
      rw [entriesOf_cons found]
      by_cases same : k = k'
      · rw [same, List.lookup_cons_self, if_pos List.mem_cons_self, found]
      · rw [Entries.lookup_cons_of_ne same, ih]
        simp [same]

end

section
variable {F : Type} {keyVals : Bytes → Option (Json F)} {keys before after : List Bytes} {k kbefore : Bytes} {v : Json F}

/-- Setting a known key changes its entry in its place. -/
theorem entriesOf_set (nodup : keys.Nodup) (full : ∀ k ∈ keys, (keyVals k).isSome) (known : k ∈ keys) :
    entriesOf (assign keyVals k v) keys = Jsonutils.OrderedMap.set k v (entriesOf keyVals keys) := by
  induction keys with
  | nil => cases known
  | cons k' keys ih =>
    rw [List.nodup_cons] at nodup
    obtain ⟨v', found⟩ := Option.isSome_iff_exists.1 (full k' List.mem_cons_self)
    rw [entriesOf_cons found, Jsonutils.OrderedMap.set]
    by_cases here : k' = k
    · subst here
      rw [if_pos rfl, entriesOf_cons assign_self, entriesOf_assign nodup.1]
    · have later : k ∈ keys := List.mem_of_ne_of_mem (Ne.symm here) known
      have kept : assign keyVals k v k' = some v' := (if_neg here).trans found
      rw [if_neg here, entriesOf_cons kept, ih nodup.2 (fun k'' hk => full k'' (List.mem_cons_of_mem _ hk)) later]

theorem keys_entriesOf (full : ∀ k ∈ keys, (keyVals k).isSome) : (entriesOf keyVals keys).map Prod.fst = keys := by
  induction keys with
  | nil => rfl
  | cons k keys ih =>
    obtain ⟨v, found⟩ := Option.isSome_iff_exists.1 (full k List.mem_cons_self)
    rw [entriesOf_cons found, List.map_cons, ih fun k' hk => full k' (List.mem_cons_of_mem _ hk)]

end

namespace OrderedMap

section
variable {F : Type} {spare : Nat → Nat → Nat} {m : OrderedMap (Json F)}

theorem InStep.full (h : m.InStep) : ∀ k ∈ m.Keys.elems, (m.KeyVals k).isSome := fun k hk => (h.keys k).1 hk

theorem InStep.lookup (h : m.InStep) (k : Bytes) : m.entries.lookup k = m.get k := by
  unfold entries get
  rw [lookup_entriesOf]
  by_cases hk : k ∈ m.Keys.elems
  · rw [if_pos hk]
  · rw [if_neg hk]
    exact (Option.not_isSome_iff_eq_none.1 (h.new hk)).symm

theorem InStep.keys_entries (h : m.InStep) : Jsonutils.OrderedMap.keys m.entries = m.Keys.elems := keys_entriesOf h.full

theorem InStep.entries_set (h : m.InStep) (k : Bytes) (v : Json F) :
    (m.set spare k v).entries = Jsonutils.OrderedMap.set k v m.entries := by
  have written : (m.set spare k v).KeyVals = assign m.KeyVals k v := rfl
  by_cases hk : k ∈ m.Keys.elems
  · unfold entries
    rw [keys_set_known (h.full k hk), written, entriesOf_set h.nodup h.full hk]
  · have new : k ∉ Jsonutils.OrderedMap.keys m.entries := by
      rw [h.keys_entries]
      exact hk
    rw [set_of_new new]
    unfold entries
    rw [keys_set_new (h.new hk), written, entriesOf_append, entriesOf_assign hk, entriesOf_cons assign_self]
    rfl

theorem InStep.entries_setAfter (h : m.InStep) (k : Bytes) (v : Json F) (kbefore : Bytes) :
    (m.setAfter spare k v kbefore).entries = Jsonutils.OrderedMap.setAfter m.entries k v kbefore := by
  have written : (m.setAfter spare k v kbefore).KeyVals = assign m.KeyVals k v :=
    (apply_cases h (.setAfter k v kbefore)).1
  unfold Jsonutils.OrderedMap.setAfter
  rw [h.lookup, OrderedMap.get]
  by_cases hk : k ∈ m.Keys.elems
  · rw [if_pos (h.full k hk)]
    unfold entries
    rw [keys_setAfter_known (h.full k hk), written, entriesOf_set h.nodup h.full hk]
  · rw [if_neg (h.new hk)]
    unfold entries
    rw [written]
    by_cases hb : kbefore ∈ m.Keys.elems
    · obtain ⟨before, after, here, absent⟩ := List.eq_append_cons_of_mem hb
      obtain ⟨vb, found⟩ := Option.isSome_iff_exists.1 (h.full kbefore hb)
      have other : kbefore ≠ k := fun same => hk (same ▸ hb)
      have kept : assign m.KeyVals k v kbefore = some vb := (if_neg other).trans found
      have full := h.full
      rw [here] at hk full
      have hbefore : k ∉ before := fun hm => hk (List.mem_append_left _ hm)
      have hafter : k ∉ after := fun hm => hk (List.mem_append_right _ (List.mem_cons_of_mem _ hm))
      rw [keys_setAfter_present (h.new (here ▸ hk)) absent here, here, entriesOf_append, entriesOf_append, entriesOf_cons kept,
        entriesOf_cons assign_self, entriesOf_cons found, entriesOf_assign hbefore, entriesOf_assign hafter, insertAfter_present]
      rw [keys_entriesOf fun k' hk' => full k' (List.mem_append_left _ hk')]
      exact absent
    · rw [keys_setAfter_absent (h.new hk) hb, entriesOf_append, entriesOf_assign hk, entriesOf_cons assign_self,
        insertAfter_absent (by rw [keys_entriesOf h.full]; exact hb)]
      rfl

end

end OrderedMap

/-- A call on the entries. -/
def Call.onEntries {F : Type} (entries : Jsonutils.OrderedMap F) : Call (Json F) → Jsonutils.OrderedMap F
  | .set k v => Jsonutils.OrderedMap.set k v entries
  | .setAfter k v kbefore => Jsonutils.OrderedMap.setAfter entries k v kbefore

/-- Slice and map together make the list of entries that the calls make. -/
theorem entries_run {F : Type} (spare : Nat → Nat → Nat) (calls : List (Call (Json F))) :
    (run spare calls).entries = calls.foldl Call.onEntries [] := by
  induction calls using List.reverseRecOn with
  | nil => rfl
  | append_singleton calls c ih =>
    have inStep := run_inStep spare calls
    rw [run_concat, List.foldl_append, ← ih]
    cases c with
    | set k v => exact inStep.entries_set k v
    | setAfter k v kbefore => exact inStep.entries_setAfter k v kbefore

end Rocketcycle.Jsonutils.Rep
