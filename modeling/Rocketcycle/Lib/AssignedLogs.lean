import Mathlib.Tactic.Common

/-!
# Assigned logs

A consumer of logs as its user sees it. Each log that is assigned has a position; reading returns what
stands there and moves the position one on, and storing offsets moves the positions that it names or,
if one of them is not assigned, none. Labels say what a step did.
-/

namespace Rocketcycle.Assigned

/-- The logs, and the positions of the assigned ones. -/
structure Reader (κ V : Type) where
  log : κ → List V
  position : κ → Option Int

inductive Label (κ V : Type) where
  | produced (p : κ) (v : V)
  | message (p : κ) (offset : Int) (v : V)
  | stored (offsets : List (κ × Int))
  | notStored (offsets : List (κ × Int))

variable {κ V : Type} [DecidableEq κ]

def Reader.append (r : Reader κ V) (p : κ) (v : V) : Reader κ V :=
  { r with log := fun q => if q = p then r.log q ++ [v] else r.log q }

def Reader.move (r : Reader κ V) (p : κ) (offset : Int) : Reader κ V :=
  { r with position := fun q => if q = p then some offset else r.position q }

/-- The last offset for a log counts. -/
def Reader.moveAll (r : Reader κ V) (offsets : List (κ × Int)) : Reader κ V := offsets.foldl (fun r m => r.move m.1 m.2) r

inductive Step : Reader κ V → Label κ V → Reader κ V → Prop
  | produced (r : Reader κ V) (p : κ) (v : V) : Step r (.produced p v) (r.append p v)
  | message {r : Reader κ V} {p : κ} {offset : Int} {v : V} (here : r.position p = some offset) (start : 0 ≤ offset)
      (there : (r.log p)[offset.toNat]? = some v) : Step r (.message p offset v) (r.move p (offset + 1))
  | stored {r : Reader κ V} {offsets : List (κ × Int)} (assigned : ∀ m ∈ offsets, (r.position m.1).isSome) :
      Step r (.stored offsets) (r.moveAll offsets)
  | notStored {r : Reader κ V} {offsets : List (κ × Int)} (foreign : ∃ m ∈ offsets, r.position m.1 = none) :
      Step r (.notStored offsets) r

inductive Steps : Reader κ V → List (Label κ V) → Reader κ V → Prop
  | nil (r : Reader κ V) : Steps r [] r
  | cons {r r' r'' : Reader κ V} {l : Label κ V} {ls : List (Label κ V)} (step : Step r l r') (rest : Steps r' ls r'') :
      Steps r (l :: ls) r''

variable {r r' r'' : Reader κ V} {l : Label κ V} {ls ls' : List (Label κ V)} {p : κ}

theorem Steps.append (h : Steps r ls r') (h' : Steps r' ls' r'') : Steps r (ls ++ ls') r'' := by
  induction h with
  | nil r => exact h'
  | cons step rest ih => exact .cons step (ih h')

theorem Steps.single (h : Step r l r') : Steps r [l] r' := .cons h (.nil r')

theorem Steps.split (h : Steps r (ls ++ ls') r'') : ∃ r', Steps r ls r' ∧ Steps r' ls' r'' := by
  induction ls generalizing r with
  | nil => exact ⟨r, .nil r, h⟩
  | cons l ls ih =>
    cases h with
    | cons step rest =>
      obtain ⟨r', before, after⟩ := ih rest
      exact ⟨r', .cons step before, after⟩

/-! ## What is assigned -/

theorem isSome_moveAll {offsets : List (κ × Int)} (assigned : ∀ m ∈ offsets, (r.position m.1).isSome) (q : κ) :
    ((r.moveAll offsets).position q).isSome = (r.position q).isSome := by
  unfold Reader.moveAll
  induction offsets generalizing r with
  | nil => rfl
  | cons m offsets ih =>
    have kept : ∀ q, ((r.move m.1 m.2).position q).isSome = (r.position q).isSome := by
      intro q
      by_cases same : q = m.1
      · have here := assigned m List.mem_cons_self
        rw [← same] at here
        rw [here]
        exact congrArg Option.isSome (if_pos same)
      · exact congrArg Option.isSome (if_neg same)
    rw [List.foldl_cons, ih, kept]
    intro m' hm'
    rw [kept]
    exact assigned m' (List.mem_cons_of_mem _ hm')

/-- No step assigns a log or takes one away. -/
theorem Steps.assigned (h : Steps r ls r') (q : κ) : (r'.position q).isSome = (r.position q).isSome := by
  induction h with
  | nil r => rfl
  | @cons r r1 r2 l ls step rest ih =>
    rw [ih]
    cases step with
    | produced p v => rfl
    | notStored foreign => rfl
    | stored assigned => exact isSome_moveAll assigned q
    | @message p offset v here start there =>
      by_cases same : q = p
      · subst same
        have moved : (r.move q (offset + 1)).position q = some (offset + 1) := if_pos rfl
        rw [moved, here]
        rfl
      · exact congrArg Option.isSome (if_neg same)

/-! ## Offsets -/

/-- The offsets of the messages that were read of a log. -/
def offsetsOf (p : κ) (ls : List (Label κ V)) : List Int :=
  ls.filterMap fun l =>
    match l with
    | .message q offset _ => if q = p then some offset else none
    | _ => none

/-- The offsets from one on. -/
def consecutive (offset : Int) (n : Nat) : List Int := (List.range n).map fun i : Nat => offset + i

theorem consecutive_succ (offset : Int) (n : Nat) : consecutive offset (n + 1) = offset :: consecutive (offset + 1) n := by
  unfold consecutive
  rw [List.range_succ_eq_map, List.map_cons, List.map_map]
  congr 1
  · exact Int.add_zero offset
  · apply List.map_congr_left
    intro i _
    show offset + ((i + 1 : Nat) : Int) = offset + 1 + i
    omega

/-- A store that moves a log. -/
def Label.Moves (p : κ) : Label κ V → Prop
  | .stored offsets => p ∈ offsets.map Prod.fst
  | _ => False

theorem position_moveAll_of_not_mem {offsets : List (κ × Int)} (h : p ∉ offsets.map Prod.fst) :
    (r.moveAll offsets).position p = r.position p := by
  unfold Reader.moveAll
  induction offsets generalizing r with
  | nil => rfl
  | cons m offsets ih =>
    rw [List.map_cons, List.mem_cons, not_or] at h
    rw [List.foldl_cons, ih h.2]
    exact if_neg h.1

/-- Between two stores the messages of a log come with consecutive offsets from its position on. -/
theorem Steps.consecutive {offset : Int} (h : Steps r ls r') (here : r.position p = some offset) (still : ∀ l ∈ ls, ¬l.Moves p) :
    offsetsOf p ls = Assigned.consecutive offset (offsetsOf p ls).length ∧
      r'.position p = some (offset + (offsetsOf p ls).length) := by
  induction h generalizing offset with
  | nil r =>
    refine ⟨rfl, ?_⟩
    rw [here]
    exact congrArg some (Int.add_zero offset).symm
  | @cons r r1 r2 l ls step rest ih =>
    have still' : ∀ l ∈ ls, ¬l.Moves p := fun l hl => still l (List.mem_cons_of_mem _ hl)
    have first := still l List.mem_cons_self
    cases step with
    | produced q v => exact ih here still'
    | notStored foreign => exact ih here still'
    | @stored offsets assigned =>
      have kept : (r.moveAll offsets).position p = some offset := (position_moveAll_of_not_mem first).trans here
      exact ih kept still'
    | @message q o v at' start there =>
      by_cases same : p = q
      · subst same
        have o_eq : o = offset := Option.some.inj (at'.symm.trans here)
        subst o_eq
        obtain ⟨list, final⟩ := @ih (o + 1) (if_pos rfl) still'
        have offs : offsetsOf p (.message p o v :: ls) = o :: offsetsOf p ls := by
          unfold offsetsOf
          rw [List.filterMap_cons]
          simp
        rw [offs, List.length_cons, consecutive_succ, ← list]
        refine ⟨rfl, final.trans ?_⟩
        congr 1
        omega
      · have offs : offsetsOf p (.message q o v :: ls) = offsetsOf p ls := by
          unfold offsetsOf
          rw [List.filterMap_cons]
          simp [Ne.symm same]
        rw [offs]
        exact ih ((if_neg same).trans here) still'

end Rocketcycle.Assigned
