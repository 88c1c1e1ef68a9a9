import Mathlib.Data.List.Nodup
import Mathlib.Data.List.Forall2

/-!
# Lists of entries

A map as the list of its entries, which are entered under keys that are new.
-/

namespace Rocketcycle.Entries

variable {κ α : Type}

section
variable [BEq κ] [LawfulBEq κ] {entries : List (κ × α)} {k k' : κ} {a : α}

theorem lookup_isSome : (entries.lookup k).isSome = true ↔ k ∈ entries.map Prod.fst := by
  simp only [List.lookup_isSome_iff, List.mem_map, beq_iff_eq]
  constructor
  · rintro ⟨p, hp, rfl⟩
    exact ⟨p, hp, rfl⟩
  · rintro ⟨p, hp, rfl⟩
    exact ⟨p, hp, rfl⟩

theorem lookup_cons_of_ne (differ : k ≠ k') : ((k', a) :: entries).lookup k = entries.lookup k := by
  rw [List.lookup_cons, beq_false_of_ne differ]

theorem mem_of_lookup (h : entries.lookup k = some a) : (k, a) ∈ entries := by
  induction entries with
  | nil => cases h
  | cons e rest ih =>
    rw [List.lookup_cons] at h
    split at h
    · rename_i same
      cases h
      rw [LawfulBEq.eq_of_beq same]
      exact List.mem_cons_self
    · exact List.mem_cons_of_mem _ (ih h)

/-- Under distinct keys a lookup finds every entry. -/
theorem lookup_eq_some (distinct : (entries.map Prod.fst).Nodup) : entries.lookup k = some a ↔ (k, a) ∈ entries := by
  induction entries with
  | nil => simp
  | cons e rest ih =>
    rw [List.map_cons, List.nodup_cons] at distinct
    rw [List.lookup_cons, List.mem_cons]
    by_cases h : k = e.1
    · subst h
      have absent : (e.1, a) ∉ rest := fun hm => distinct.1 (List.mem_map.2 ⟨_, hm, rfl⟩)
      simp [absent, Prod.ext_iff, eq_comm]
    · rw [beq_eq_false_iff_ne.2 h, ih distinct.2]
      have other : (k, a) ≠ e := fun he => h (congrArg Prod.fst he)
      simp [other]

end

variable [DecidableEq κ] {entries : List (κ × α)} {k : κ} {a : α}

/-! ## Lists that correspond -/

section
variable {α β : Type} {R : α → β → Prop} {as : List α} {bs : List β}

theorem forall₂_left (h : List.Forall₂ R as bs) {a : α} (mem : a ∈ as) : ∃ b ∈ bs, R a b := by
  induction h with
  | nil => cases mem
  | cons hab _ ih =>
    rcases List.mem_cons.1 mem with rfl | mem
    · exact ⟨_, List.mem_cons_self, hab⟩
    · obtain ⟨b, hb, hr⟩ := ih mem
      exact ⟨b, List.mem_cons_of_mem _ hb, hr⟩

theorem forall₂_right (h : List.Forall₂ R as bs) {b : β} (mem : b ∈ bs) : ∃ a ∈ as, R a b := by
  obtain ⟨a, ha, hr⟩ := forall₂_left h.flip mem
  exact ⟨a, ha, hr⟩

/-- What corresponding elements have in common, the lists have in common. -/
theorem forall₂_map {γ : Type} {f : α → γ} {g : β → γ} (h : List.Forall₂ R as bs) (same : ∀ a b, R a b → g b = f a) :
    bs.map g = as.map f := by
  induction h with
  | nil => rfl
  | cons hab _ ih => rw [List.map_cons, List.map_cons, same _ _ hab, ih]

end

/-! ## Maps -/

/-- The entries are exactly the elements of a list under their names. -/
structure MapOf {β : Type} (entries : List (κ × α)) (element : α → β) (name : β → κ) (elements : List β) : Prop where
  distinct : (entries.map Prod.fst).Nodup
  lookup : ∀ k b, (∃ a, entries.lookup k = some a ∧ element a = b) ↔ b ∈ elements ∧ name b = k

section
variable {β γ : Type} {element : α → β} {name : β → κ} {elements : List β}

theorem mapOf_of (distinct : (elements.map name).Nodup)
    (all : List.Forall₂ (fun b e => e.1 = name b ∧ element e.2 = b) elements entries) :
    MapOf entries element name elements := by
  have keys : (entries.map Prod.fst).Nodup := by
    rw [forall₂_map all fun _ _ h => h.1]
    exact distinct
  refine ⟨keys, ?_⟩
  intro k b
  simp only [lookup_eq_some keys]
  constructor
  · rintro ⟨a, ha, rfl⟩
    obtain ⟨b, hb, key, same⟩ := forall₂_right all ha
    rw [same]
    exact ⟨hb, key.symm⟩
  · rintro ⟨hb, rfl⟩
    obtain ⟨e, he, key, same⟩ := forall₂_left all hb
    exact ⟨e.2, key ▸ he, same⟩

/-- The elements themselves, entered under their names. -/
theorem mapOf_map (distinct : (elements.map name).Nodup) : MapOf (elements.map fun b => (name b, b)) id name elements := by
  apply mapOf_of distinct
  rw [List.forall₂_map_right_iff, List.forall₂_same]
  intro b _
  exact ⟨rfl, rfl⟩

omit [DecidableEq κ] in
/-- Lists that are made of entries have no duplicates where each of their elements tells the key. -/
theorem nodup_flatMap {f : κ × α → List γ} (keys : (entries.map Prod.fst).Nodup) (each : ∀ e ∈ entries, (f e).Nodup)
    (key : ∀ e ∈ entries, ∀ e' ∈ entries, ∀ c, c ∈ f e → c ∈ f e' → e.1 = e'.1) : (entries.flatMap f).Nodup := by
  rw [List.nodup_flatMap]
  refine ⟨each, ?_⟩
  have apart : entries.Pairwise fun e e' => e.1 ≠ e'.1 := List.pairwise_map.1 keys
  refine apart.imp_of_mem ?_
  intro e e' he he' hne c hc hc'
  exact hne (key e he e' he' c hc hc')

end

end Rocketcycle.Entries
