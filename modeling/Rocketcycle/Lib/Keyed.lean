import Mathlib.Data.List.Nodup

/-!
# Lists of items with a key

A list whose items carry their keys, as a map from the keys to the items. An item that is put into the
list takes the place of the one with its key, or the place behind all others.
-/

namespace Rocketcycle.Keyed

variable {α κ : Type} {key : α → κ} {itm : α} {items items' : List α}

/-- The item has taken its place, and the others have kept theirs. -/
inductive Upserted (key : α → κ) (itm : α) : List α → List α → Prop
  | replaced {front back : List α} {old : α} (same : key old = key itm) (first : ∀ other ∈ front, key other ≠ key itm) :
      Upserted key itm (front ++ old :: back) (front ++ itm :: back)
  | appended {items : List α} (fresh : ∀ other ∈ items, key other ≠ key itm) : Upserted key itm items (items ++ [itm])

theorem Upserted.nodup (h : Upserted key itm items items') (distinct : (items.map key).Nodup) : (items'.map key).Nodup := by
  cases h with
  | replaced same first =>
    rw [List.map_append, List.map_cons] at distinct ⊢
    rwa [← same]
  | appended fresh =>
    rw [List.map_append, List.map_cons, List.map_nil]
    refine distinct.append (List.nodup_singleton _) ?_
    intro k hk hk'
    obtain ⟨other, hmem, rfl⟩ := List.mem_map.1 hk
    exact fresh other hmem (List.mem_singleton.1 hk')

end Rocketcycle.Keyed
