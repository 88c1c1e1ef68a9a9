import Mathlib.Data.List.Basic

/-!
# Slices

A slice of Go seen from its backing array: the cells up to its length are its elements, those behind
are spare. `append` writes into the spare cells where they suffice and else moves to a new array, so
that a slice may be appended to a part of itself; either way its elements come out the same.
-/

namespace Rocketcycle

/-- A slice that begins where its array begins. -/
structure Slice (α : Type) where
  array : List α
  len : Nat
  fits : len ≤ array.length

namespace Slice

variable {α : Type}

def elems (s : Slice α) : List α := s.array.take s.len

/-- `make([]T, 0)`. -/
def empty : Slice α := ⟨[], 0, Nat.le_refl 0⟩

/-- `s[:n]`, for an `n` within the array. -/
def upTo (s : Slice α) (n : Nat) (h : n ≤ s.array.length) : Slice α := ⟨s.array, n, h⟩

/-- `s[i] = x`. -/
def set (s : Slice α) (i : Nat) (x : α) : Slice α := ⟨s.array.set i x, s.len, by rw [List.length_set]; exact s.fits⟩

/-- `append(s, xs...)`. The elements `xs` are read before a cell is written. Where the array is too
short a new one has `spare` cells more than needed, which hold `zero`. -/
def append (spare : Nat → Nat → Nat) (zero : α) (s : Slice α) (xs : List α) : Slice α :=
  if room : s.len + xs.length ≤ s.array.length then
    { array := s.array.take s.len ++ xs ++ s.array.drop (s.len + xs.length)
      len := s.len + xs.length
      fits := by simp only [List.length_append, List.length_take, List.length_drop]; omega }
  else
    { array := s.elems ++ xs ++ List.replicate (spare s.array.length (s.len + xs.length)) zero
      len := s.len + xs.length
      fits := by
        have fits := s.fits
        simp only [elems, List.length_append, List.length_take]
        omega }

theorem length_elems (s : Slice α) : s.elems.length = s.len := by
  have fits := s.fits
  unfold elems
  rw [List.length_take]
  omega

theorem elems_upTo (s : Slice α) {n : Nat} (h : n ≤ s.array.length) (short : n ≤ s.len) : (s.upTo n h).elems = s.elems.take n := by
  show s.array.take n = (s.array.take s.len).take n
  rw [List.take_take, Nat.min_eq_left short]

theorem elems_set (s : Slice α) (i : Nat) (x : α) : (s.set i x).elems = s.elems.set i x := by
  show (s.array.set i x).take s.len = (s.array.take s.len).set i x
  exact List.take_set

/-- What `append` leaves in the spare cells and whether it moves do not show. -/
theorem elems_append (spare : Nat → Nat → Nat) (zero : α) (s : Slice α) (xs : List α) :
    (s.append spare zero xs).elems = s.elems ++ xs := by
  have len : (s.elems ++ xs).length = s.len + xs.length := by rw [List.length_append, length_elems]
  have cut : ∀ rest, (s.elems ++ xs ++ rest).take (s.len + xs.length) = s.elems ++ xs := by
    intro rest
    rw [← len, List.take_left]
  unfold append
  by_cases room : s.len + xs.length ≤ s.array.length
  · rw [dif_pos room]
    exact cut _
  · rw [dif_neg room]
    exact cut _

/-- A slice whose rest is appended behind one of its cells opens a place there. -/
theorem elems_open (spare : Nat → Nat → Nat) (zero : α) (s : Slice α) {i : Nat} (inside : i < s.len)
    (h : i + 1 ≤ s.array.length) (x : α) :
    (((s.upTo (i + 1) h).append spare zero (s.elems.drop i)).set i x).elems = s.elems.take i ++ x :: s.elems.drop i := by
  have inside' : i < s.elems.length := by
    rw [length_elems]
    exact inside
  have len : (s.elems.take i).length = i := by
    rw [List.length_take]
    omega
  have cell : s.elems.take (i + 1) = s.elems.take i ++ [s.elems[i]] := (List.take_append_getElem _).symm
  rw [elems_set, elems_append, elems_upTo s h inside, cell, List.append_assoc, List.set_append_right i x (by omega), len,
    Nat.sub_self]
  rfl

end Slice

end Rocketcycle
