import Rocketcycle.Rkcypb
import Rocketcycle.Lib.Entries

/-!
# Ordered JSON values

The values of `pkg/jsonutils/jsonutils.go`. An `OrderedMap` is the list of its entries in the order
of `Keys`; one whose keys and values do not match is not built by the reader. Strings are the bytes
they have in Go, and the numbers are left open.
-/

namespace Rocketcycle.Jsonutils

/-- A character of the ASCII code as a byte. -/
def ch (c : Char) : UInt8 := c.toUInt8

/-- A text of such characters. -/
def word (s : String) : Bytes := s.toList.map ch

inductive Json (F : Type) where
  | null
  | bool (val : Bool)
  | number (val : F)
  | string (val : Bytes)
  | array (val : List (Json F))
  | object (val : List (Bytes × Json F))

/-- The entries of an `OrderedMap`. -/
abbrev OrderedMap (F : Type) := List (Bytes × Json F)

section
variable {F : Type}

/-- The entries of an object. -/
def Json.entries : Json F → OrderedMap F
  | .object m => m
  | _ => []

/-- `OrderedMap.Get`. -/
def OrderedMap.get (m : OrderedMap F) (k : Bytes) : Option (Json F) := m.lookup k

/-- `OrderedMap.Set`: a key that is there keeps its place. -/
def OrderedMap.set (k : Bytes) (v : Json F) : OrderedMap F → OrderedMap F
  | [] => [(k, v)]
  | (k', v') :: rest => if k' = k then (k, v) :: rest else (k', v') :: OrderedMap.set k v rest

/-- Insertion after the first entry with a key, or at the end. -/
def insertAfter (k : Bytes) (v : Json F) (kbefore : Bytes) : OrderedMap F → OrderedMap F
  | [] => [(k, v)]
  | (k', v') :: rest => if k' = kbefore then (k', v') :: (k, v) :: rest else (k', v') :: insertAfter k v kbefore rest

/-- `OrderedMap.SetAfter`. -/
def OrderedMap.setAfter (m : OrderedMap F) (k : Bytes) (v : Json F) (kbefore : Bytes) : OrderedMap F :=
  if (m.lookup k).isSome then OrderedMap.set k v m else insertAfter k v kbefore m

/-- Entries are set one after the other. -/
def OrderedMap.setAll (m : OrderedMap F) (entries : List (Bytes × Json F)) : OrderedMap F :=
  entries.foldl (fun m e => OrderedMap.set e.1 e.2 m) m

/-- The map that entries make. -/
def OrderedMap.ofEntries (entries : List (Bytes × Json F)) : OrderedMap F := OrderedMap.setAll [] entries

/-! ## Setting entries -/

def OrderedMap.keys (m : OrderedMap F) : List Bytes := m.map Prod.fst

theorem keys_set (k : Bytes) (v : Json F) (m : OrderedMap F) :
    OrderedMap.keys (OrderedMap.set k v m) = if k ∈ OrderedMap.keys m then OrderedMap.keys m else OrderedMap.keys m ++ [k] := by
  unfold OrderedMap.keys
  induction m with
  | nil => rfl
  | cons e rest ih =>
    obtain ⟨k', v'⟩ := e
    unfold OrderedMap.set
    by_cases here : k' = k
    · simp [here]
    · rw [if_neg here, List.map_cons, ih, List.map_cons]
      by_cases later : k ∈ rest.map Prod.fst
      · rw [if_pos later, if_pos (List.mem_cons_of_mem _ later)]
      · rw [if_neg later, if_neg (by simp [Ne.symm here, later])]
        rfl

theorem lookup_set (k k' : Bytes) (v : Json F) (m : OrderedMap F) :
    (OrderedMap.set k v m).lookup k' = if k' = k then some v else m.lookup k' := by
  induction m with
  | nil =>
    unfold OrderedMap.set
    by_cases same : k' = k
    · rw [same, List.lookup_cons_self, if_pos rfl]
    · rw [Entries.lookup_cons_of_ne same, if_neg same]
  | cons e rest ih =>
    obtain ⟨k1, v1⟩ := e
    unfold OrderedMap.set
    by_cases here : k1 = k
    · subst here
      rw [if_pos rfl]
      by_cases same : k' = k1
      · rw [same, List.lookup_cons_self, if_pos rfl]
      · rw [Entries.lookup_cons_of_ne same, Entries.lookup_cons_of_ne same, if_neg same]
    · rw [if_neg here]
      by_cases first : k' = k1
      · subst first
        rw [List.lookup_cons_self, List.lookup_cons_self, if_neg here]
      · rw [Entries.lookup_cons_of_ne first, Entries.lookup_cons_of_ne first, ih]

theorem mem_set {e : Bytes × Json F} {k : Bytes} {v : Json F} {m : OrderedMap F} (h : e ∈ OrderedMap.set k v m) :
    e = (k, v) ∨ e ∈ m := by
  induction m with
  | nil => exact .inl (List.mem_singleton.1 h)
  | cons e' rest ih =>
    obtain ⟨k', v'⟩ := e'
    unfold OrderedMap.set at h
    by_cases here : k' = k
    · rw [if_pos here] at h
      exact (List.mem_cons.1 h).imp id (List.mem_cons_of_mem _)
    · rw [if_neg here] at h
      rcases List.mem_cons.1 h with rfl | h
      · exact .inr List.mem_cons_self
      · exact (ih h).imp id (List.mem_cons_of_mem _)

/-- A new key is put at the end. -/
theorem set_of_new {k : Bytes} {v : Json F} {m : OrderedMap F} (new : k ∉ OrderedMap.keys m) : OrderedMap.set k v m = m ++ [(k, v)] := by
  induction m with
  | nil => rfl
  | cons e rest ih =>
    obtain ⟨k', v'⟩ := e
    rw [OrderedMap.keys, List.map_cons, List.mem_cons, not_or] at new
    unfold OrderedMap.set
    rw [if_neg (Ne.symm new.1), ih new.2]
    rfl

theorem setAll_of_new {m : OrderedMap F} {es : List (Bytes × Json F)} (nodup : (OrderedMap.keys m ++ es.map Prod.fst).Nodup) :
    OrderedMap.setAll m es = m ++ es := by
  induction es generalizing m with
  | nil => exact (List.append_nil m).symm
  | cons e es ih =>
    obtain ⟨k, v⟩ := e
    have new : k ∉ OrderedMap.keys m := by
      intro hk
      exact (List.nodup_append.1 nodup).2.2 k hk k (by simp) rfl
    show OrderedMap.setAll (OrderedMap.set k v m) es = _
    rw [set_of_new new, ih, List.append_assoc]
    · rfl
    · simpa [OrderedMap.keys] using nodup

/-- Entries with different keys are a map. -/
theorem ofEntries_of_nodup {es : List (Bytes × Json F)} (nodup : (es.map Prod.fst).Nodup) : OrderedMap.ofEntries es = es :=
  setAll_of_new (by simpa [OrderedMap.keys] using nodup)

/-! ## Entries behind others -/

theorem insertAfter_absent {k kbefore : Bytes} {v : Json F} {m : OrderedMap F} (absent : kbefore ∉ m.map Prod.fst) :
    insertAfter k v kbefore m = m ++ [(k, v)] := by
  induction m with
  | nil => rfl
  | cons e m ih =>
    obtain ⟨k', v'⟩ := e
    rw [List.map_cons, List.mem_cons, not_or] at absent
    rw [insertAfter, if_neg (Ne.symm absent.1), ih absent.2]
    rfl

theorem insertAfter_present {k kbefore : Bytes} {v vb : Json F} {before after : OrderedMap F}
    (absent : kbefore ∉ before.map Prod.fst) :
    insertAfter k v kbefore (before ++ (kbefore, vb) :: after) = before ++ (kbefore, vb) :: (k, v) :: after := by
  induction before with
  | nil => exact if_pos rfl
  | cons e before ih =>
    obtain ⟨k', v'⟩ := e
    rw [List.map_cons, List.mem_cons, not_or] at absent
    rw [List.cons_append, insertAfter, if_neg (Ne.symm absent.1), ih absent.2]
    rfl

theorem setAfter_of_new {m : OrderedMap F} {k kbefore : Bytes} {v : Json F} (new : k ∉ OrderedMap.keys m) :
    m.setAfter k v kbefore = insertAfter k v kbefore m := by
  unfold OrderedMap.setAfter
  rw [if_neg fun found => new (Entries.lookup_isSome.1 found)]

end

end Rocketcycle.Jsonutils
