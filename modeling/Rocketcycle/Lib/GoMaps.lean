import Rocketcycle.Lib.Entries
import Mathlib.Data.List.Perm.Basic

/-!
# Go maps

A map is the list of its entries, whose keys differ. A loop over a map goes through the entries in any
order; it goes through the list here, and what holds in every order is said of all maps with the same
entries.
-/

namespace Rocketcycle

structure GoMap (κ α : Type) where
  entries : List (κ × α)
  distinct : (entries.map Prod.fst).Nodup

namespace GoMap

variable {κ α : Type} [DecidableEq κ] {m m' : GoMap κ α} {k k' : κ} {a a' : α}

def get (m : GoMap κ α) (k : κ) : Option α := m.entries.lookup k

def empty : GoMap κ α := ⟨[], List.nodup_nil⟩

/-- `m[k] = a`. -/
def assign (m : GoMap κ α) (k : κ) (a : α) : GoMap κ α where
  entries := (k, a) :: m.entries.filter fun e => e.1 ≠ k
  distinct := by
    rw [List.map_cons, List.nodup_cons]
    constructor
    · intro mem
      obtain ⟨e, he, same⟩ := List.mem_map.1 mem
      have differ := (List.mem_filter.1 he).2
      simp [same] at differ
    · exact m.distinct.sublist (List.Sublist.map Prod.fst List.filter_sublist)

/-- The maps have the same entries. -/
def Same (m m' : GoMap κ α) : Prop := ∀ k, m.get k = m'.get k

theorem get_eq_some : m.get k = some a ↔ (k, a) ∈ m.entries := Entries.lookup_eq_some m.distinct

theorem get_isSome : (m.get k).isSome = true ↔ k ∈ m.entries.map Prod.fst := Entries.lookup_isSome

@[simp] theorem get_empty (k : κ) : (empty : GoMap κ α).get k = none := rfl

@[simp] theorem get_assign : (m.assign k a).get k' = if k' = k then some a else m.get k' := by
  by_cases same : k' = k
  · rw [if_pos same, same]
    exact List.lookup_cons_self
  · rw [if_neg same]
    apply Option.ext
    intro b
    have kept : (k', b) ≠ (k, a) := fun e => same (Prod.mk.inj e).1
    simp only [get_eq_some, assign, List.mem_cons, kept, false_or, List.mem_filter]
    simp [same]

theorem get_cons_self {entries : List (κ × α)} (distinct : (((k, a) :: entries).map Prod.fst).Nodup) :
    get ⟨(k, a) :: entries, distinct⟩ k = some a := List.lookup_cons_self

theorem get_cons_of_ne {entries : List (κ × α)} {distinct : (((k, a) :: entries).map Prod.fst).Nodup} (h : k' ≠ k) :
    get ⟨(k, a) :: entries, distinct⟩ k' = get ⟨entries, (List.nodup_cons.1 distinct).2⟩ k' := Entries.lookup_cons_of_ne h

theorem Same.refl (m : GoMap κ α) : m.Same m := fun _ => rfl

theorem Same.symm (h : m.Same m') : m'.Same m := fun k => (h k).symm

theorem Same.trans {m'' : GoMap κ α} (h : m.Same m') (h' : m'.Same m'') : m.Same m'' := fun k => (h k).trans (h' k)

theorem Same.mem_iff (h : m.Same m') (e : κ × α) : e ∈ m.entries ↔ e ∈ m'.entries := by
  obtain ⟨k, a⟩ := e
  rw [← get_eq_some, ← get_eq_some, h k]

omit [DecidableEq κ] in
theorem nodup_entries (m : GoMap κ α) : m.entries.Nodup := List.Nodup.of_map _ m.distinct

/-- The same entries in another order. -/
theorem same_iff_perm : m.Same m' ↔ m.entries.Perm m'.entries := by
  constructor
  · intro h
    exact (List.perm_ext_iff_of_nodup m.nodup_entries m'.nodup_entries).2 h.mem_iff
  · intro h k
    apply Option.ext
    intro a
    rw [get_eq_some, get_eq_some, h.mem_iff]

theorem entries_of_same (h : m.Same m') (one : m'.entries = [(k, a)]) : m.entries = [(k, a)] := by
  have perm := same_iff_perm.1 h
  rw [one] at perm
  exact List.perm_singleton.1 perm

/-- A map with one key has one entry. -/
theorem entries_of_isSome {β : Type} {m' : GoMap κ β} {b : β} (h : ∀ k, (m.get k).isSome = (m'.get k).isSome) (one : m'.entries = [(k, b)]) :
    ∃ a, m.entries = [(k, a)] := by
  have perm : (m.entries.map Prod.fst).Perm [k] := by
    rw [List.perm_ext_iff_of_nodup m.distinct (List.nodup_singleton k)]
    intro k'
    rw [← get_isSome, h k', get_isSome, one]
    rfl
  obtain ⟨e, entries, rfl⟩ := List.map_eq_singleton_iff.1 (List.perm_singleton.1 perm)
  exact ⟨e.2, entries⟩

/-- The entries of another map are assigned. -/
def assignAll {β : Type} (j : GoMap κ β) (f : α → β) (m : GoMap κ α) : GoMap κ β := m.entries.foldl (fun j e => j.assign e.1 (f e.2)) j

theorem get_assignAll {β : Type} (j : GoMap κ β) (f : α → β) (m : GoMap κ α) (k : κ) :
    (j.assignAll f m).get k = ((m.get k).map f).or (j.get k) := by
  obtain ⟨entries, distinct⟩ := m
  show (entries.foldl (fun j e => j.assign e.1 (f e.2)) j).get k = ((entries.lookup k).map f).or (j.get k)
  induction entries generalizing j with
  | nil => rfl
  | cons e entries ih =>
    obtain ⟨k', a⟩ := e
    rw [List.map_cons, List.nodup_cons] at distinct
    rw [List.foldl_cons, ih _ distinct.2, get_assign]
    by_cases same : k = k'
    · subst same
      have absent : entries.lookup k = none := by
        rw [← Option.not_isSome_iff_eq_none, Entries.lookup_isSome]
        exact distinct.1
      rw [List.lookup_cons_self, absent, if_pos rfl]
      rfl
    · rw [Entries.lookup_cons_of_ne same, if_neg same]

/-- `delete(m, k)`. -/
def erase (m : GoMap κ α) (k : κ) : GoMap κ α where
  entries := m.entries.filter fun e => e.1 ≠ k
  distinct := m.distinct.sublist (List.Sublist.map Prod.fst List.filter_sublist)

@[simp] theorem get_erase : (m.erase k).get k' = if k' = k then none else m.get k' := by
  apply Option.ext
  intro a
  by_cases same : k' = k
  · rw [if_pos same, get_eq_some, erase, List.mem_filter]
    simp [same]
  · rw [if_neg same, get_eq_some, get_eq_some, erase, List.mem_filter]
    simp [same]

/-- A map with any of its entries first. -/
theorem exists_front {e : κ × α} (h : e ∈ m.entries) : ∃ m' : GoMap κ α, m'.Same m ∧ ∃ rest, m'.entries = e :: rest := by
  obtain ⟨before, after, split⟩ := List.append_of_mem h
  have perm : (e :: (before ++ after)).Perm m.entries := by
    rw [split]
    exact List.perm_middle.symm
  exact ⟨⟨e :: (before ++ after), (perm.map Prod.fst).nodup_iff.2 m.distinct⟩, same_iff_perm.2 perm, _, rfl⟩

end GoMap

/-- The order in which a loop goes through a map. -/
structure MapOrder (κ α : Type) [DecidableEq κ] where
  run : GoMap κ α → GoMap κ α
  same : ∀ m, (run m).Same m

end Rocketcycle
