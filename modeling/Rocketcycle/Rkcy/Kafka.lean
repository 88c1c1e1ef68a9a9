import Rocketcycle.Rkcypb
import Mathlib.Data.Prod.Lex
import Mathlib.Order.Lattice

/-!
# Compound offsets

`OffsetGT` of `pkg/rkcy/kafka.go`. Generation decides first, then the partition, then the
offset, so the comparison is the lexicographic order (`offsetGT_iff`): offsets of different
partitions of one topic are compared by the partition numbers alone.
-/

namespace Rocketcycle

def offsetGT (lhs rhs : CompoundOffset) : Bool :=
  if lhs.generation = rhs.generation then
    if lhs.partition = rhs.partition then
      lhs.offset > rhs.offset
    else
      lhs.partition > rhs.partition
  else
    lhs.generation > rhs.generation

/-- A compound offset as a point of the lexicographic order. -/
def CompoundOffset.rank (o : CompoundOffset) : Int ×ₗ Int ×ₗ Int :=
  toLex (o.generation, toLex (o.partition, o.offset))

/-- The order in which the ranks are compared. -/
instance rankPreorder : Preorder (Int ×ₗ Int ×ₗ Int) := (inferInstance : LinearOrder (Int ×ₗ Int ×ₗ Int)).toPreorder

theorem CompoundOffset.rank_injective : Function.Injective CompoundOffset.rank := by
  rintro ⟨g, p, o⟩ ⟨g', p', o'⟩ h
  simp only [rank, EmbeddingLike.apply_eq_iff_eq, Prod.mk.injEq] at h
  simp [h.1, h.2.1, h.2.2]

/-- `OffsetGT` is the strict lexicographic order. -/
theorem offsetGT_iff {lhs rhs : CompoundOffset} :
    offsetGT lhs rhs = true ↔ rhs.rank < lhs.rank := by
  simp only [offsetGT, CompoundOffset.rank, Prod.Lex.toLex_lt_toLex]
  split
  · rename_i hg
    split
    · rename_i hp
      simp [hg, hp]
    · rename_i hp
      have hp' : rhs.partition ≠ lhs.partition := fun e => hp e.symm
      simp [hg, hp']
  · rename_i hg
    have hg' : rhs.generation ≠ lhs.generation := fun e => hg e.symm
    simp [hg']

theorem offsetGT_irrefl (o : CompoundOffset) : offsetGT o o = false := by
  simp [offsetGT]

theorem offsetGT_trans {a b c : CompoundOffset} (hab : offsetGT a b = true)
    (hbc : offsetGT b c = true) : offsetGT a c = true :=
  offsetGT_iff.2 ((offsetGT_iff.1 hbc).trans (offsetGT_iff.1 hab))

theorem offsetGT_asymm {a b : CompoundOffset} (h : offsetGT a b = true) : offsetGT b a = false := by
  rw [← Bool.not_eq_true, offsetGT_iff]
  exact (offsetGT_iff.1 h).not_gt

theorem offsetGT_total {a b : CompoundOffset} (h : a ≠ b) (hab : offsetGT a b = false) :
    offsetGT b a = true := by
  rw [← Bool.not_eq_true, offsetGT_iff, not_lt] at hab
  exact offsetGT_iff.2 (lt_of_le_of_ne hab fun e => h (CompoundOffset.rank_injective e))

/-- Within one generation and partition the message offsets decide. -/
theorem offsetGT_same {g p a b : Int} :
    offsetGT ⟨g, p, a⟩ ⟨g, p, b⟩ = true ↔ b < a := by
  simp [offsetGT]

end Rocketcycle
