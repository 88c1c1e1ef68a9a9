import Mathlib.Data.List.Infix
import Mathlib.Data.List.Perm.Basic

/-!
# Tags in a text

A tag is a marker and a name after it. The tags of a text are replaced one after another, in any order. A
marker that begins no tag can come to begin one when the text after it is replaced, and then the order
matters; where this does not happen, the result is the text in which all tags are replaced at once.
-/

namespace Rocketcycle.Templates

variable {α : Type} [DecidableEq α]

/-- The replacement of the tag that a text begins with. -/
def first (subst : List (List α × List α)) (s : List α) : Option (List α × List α) := subst.find? fun e => e.1.isPrefixOf s

/-- All tags are replaced from left to right. `skip` characters of the last one are left. -/
def replaceTags (subst : List (List α × List α)) : Nat → List α → List α
  | _, [] => []
  | skip + 1, _ :: s => replaceTags subst skip s
  | 0, c :: s =>
    match first subst (c :: s) with
    | some e => e.2 ++ replaceTags subst (e.1.length - 1) s
    | none => c :: replaceTags subst 0 s

/-- One tag is replaced after the other. -/
def substAll (order : List (List α × List α)) (s : List α) : List α := order.foldl (fun s e => replaceTags [e] 0 s) s

/-- Tags begin with the marker, and none of them begins another one; the values have no marker. -/
structure Tags (m : α) (subst : List (List α × List α)) : Prop where
  marked : ∀ e ∈ subst, ∃ name, e.1 = m :: name ∧ m ∉ name
  plain : ∀ e ∈ subst, m ∉ e.2
  apart : ∀ e ∈ subst, ∀ e' ∈ subst, e.1 <+: e'.1 → e = e'

/-- No tag is left when all of them are replaced. -/
def TagFree (subst : List (List α × List α)) (s : List α) : Prop := ∀ e ∈ subst, ¬e.1 <:+: replaceTags subst 0 s

instance (subst : List (List α × List α)) (s : List α) : Decidable (TagFree subst s) :=
  inferInstanceAs (Decidable (∀ e ∈ subst, ¬e.1 <:+: replaceTags subst 0 s))

section
variable {m : α} {subst D : List (List α × List α)} {e : List α × List α} {s t u : List α}

omit [DecidableEq α] in
theorem Tags.subset (tags : Tags m subst) (sub : ∀ d ∈ D, d ∈ subst) : Tags m D where
  marked e he := tags.marked e (sub e he)
  plain e he := tags.plain e (sub e he)
  apart e he e' he' := tags.apart e (sub e he) e' (sub e' he')

theorem first_some (h : first D s = some e) : e ∈ D ∧ e.1 <+: s :=
  ⟨List.mem_of_find?_eq_some h, List.isPrefixOf_iff_prefix.1 (List.find?_eq_some_iff_append.1 h).1⟩

theorem first_none (h : first D s = none) : ∀ e ∈ D, ¬e.1 <+: s := by
  intro e he front
  have none := List.find?_eq_none.1 h e he
  exact none (List.isPrefixOf_iff_prefix.2 front)

theorem first_eq_none (h : ∀ e ∈ D, ¬e.1 <+: s) : first D s = none :=
  List.find?_eq_none.2 fun e he front => h e he (List.isPrefixOf_iff_prefix.1 front)

/-- At most one tag stands at the beginning. -/
theorem Tags.first_eq (tags : Tags m D) (he : e ∈ D) (front : e.1 <+: s) : first D s = some e := by
  cases found : first D s with
  | none => exact absurd front (first_none found e he)
  | some d =>
    obtain ⟨hd, front'⟩ := first_some found
    obtain shorter | longer := List.prefix_or_prefix_of_prefix front' front
    · rw [tags.apart d hd e he shorter]
    · rw [tags.apart e he d hd longer]

omit [DecidableEq α] in
/-- A tag begins with the marker. -/
theorem Tags.head (tags : Tags m D) (he : e ∈ D) {c : α} (front : e.1 <+: c :: s) : c = m := by
  obtain ⟨name, named, -⟩ := tags.marked e he
  rw [named] at front
  exact (List.cons_prefix_cons.1 front).1.symm

theorem Tags.first_none_of_ne (tags : Tags m D) {c : α} (differ : c ≠ m) : first D (c :: s) = none :=
  first_eq_none fun _ he front => differ (tags.head he front)

theorem replaceTags_none {c : α} (h : first D (c :: s) = none) : replaceTags D 0 (c :: s) = c :: replaceTags D 0 s := by
  rw [replaceTags, h]

theorem replaceTags_some {c : α} (h : first D (c :: s) = some e) :
    replaceTags D 0 (c :: s) = e.2 ++ replaceTags D (e.1.length - 1) s := by
  rw [replaceTags, h]

theorem replaceTags_skip (D : List (List α × List α)) (u t : List α) : replaceTags D u.length (u ++ t) = replaceTags D 0 t := by
  induction u with
  | nil => rfl
  | cons c u ih => exact ih

/-- A text without a marker stays. -/
theorem Tags.replaceTags_append (tags : Tags m D) (plain : m ∉ u) : replaceTags D 0 (u ++ t) = u ++ replaceTags D 0 t := by
  induction u with
  | nil => rfl
  | cons c u ih =>
    have differ : c ≠ m := fun same => plain (same ▸ List.mem_cons_self)
    rw [List.cons_append, replaceTags_none (tags.first_none_of_ne differ), ih (fun h => plain (List.mem_cons_of_mem _ h)), List.cons_append]

theorem Tags.replaceTags_plain (tags : Tags m D) (plain : m ∉ u) : replaceTags D 0 u = u := by
  have whole : replaceTags D 0 (u ++ []) = u ++ replaceTags D 0 [] := tags.replaceTags_append plain
  rw [List.append_nil] at whole
  rw [whole]
  exact List.append_nil u

/-- A tag gives its value. -/
theorem Tags.replaceTags_tag (tags : Tags m D) (he : e ∈ D) : replaceTags D 0 (e.1 ++ t) = e.2 ++ replaceTags D 0 t := by
  obtain ⟨name, named, -⟩ := tags.marked e he
  have found : first D (m :: (name ++ t)) = some e := tags.first_eq he (by
    rw [named, ← List.cons_append]
    exact List.prefix_append _ t)
  rw [named, List.cons_append, replaceTags_some found, named]
  exact congrArg (e.2 ++ ·) (replaceTags_skip D name t)

omit [DecidableEq α] in
/-- A tag that stands in a text after characters without a marker stands in the rest. -/
theorem infix_of_plain_append {name : List α} (plain : m ∉ u) (h : m :: name <:+: u ++ t) : m :: name <:+: t := by
  induction u with
  | nil => exact h
  | cons c u ih =>
    have differ : c ≠ m := fun same => plain (same ▸ List.mem_cons_self)
    rw [List.cons_append, List.infix_cons_iff] at h
    obtain front | rest := h
    · exact absurd (List.cons_prefix_cons.1 front).1.symm differ
    · exact ih (fun h => plain (List.mem_cons_of_mem _ h)) rest

/-- What stands before the first marker does not change when more tags are replaced. -/
theorem Tags.prefix_replaceTags (tags : Tags m subst) (sub : ∀ d ∈ D, d ∈ subst) {n : Nat} (plain : m ∉ u) (h : u <+: replaceTags D n s) :
    u <+: replaceTags subst n s := by
  induction s generalizing n u with
  | nil =>
    cases n <;> exact h
  | cons c s ih =>
    cases n with
    | succ n => exact ih plain h
    | zero =>
      cases found : first D (c :: s) with
      | some d =>
        obtain ⟨hd, front⟩ := first_some found
        rw [replaceTags_some found] at h
        rw [replaceTags_some (tags.first_eq (sub d hd) front)]
        obtain ⟨rest, whole⟩ := h
        obtain ⟨more, value, -⟩ | ⟨more, here, there⟩ := List.append_eq_append_iff.1 whole
        · rw [value, List.append_assoc]
          exact List.prefix_append _ _
        · rw [here, List.prefix_append_right_inj]
          refine ih (fun h => plain ?_) ⟨rest, there.symm⟩
          rw [here]
          exact List.mem_append_right _ h
      | none =>
        cases u with
        | nil => exact List.nil_prefix
        | cons x u =>
          rw [replaceTags_none found] at h
          obtain ⟨rfl, behind⟩ := List.cons_prefix_cons.1 h
          have differ : x ≠ m := fun same => plain (same ▸ List.mem_cons_self)
          rw [replaceTags_none (tags.first_none_of_ne differ), List.cons_prefix_cons]
          exact ⟨rfl, ih (fun h => plain (List.mem_cons_of_mem _ h)) behind⟩

/-- One more tag is replaced in a text that settles. -/
theorem Tags.replaceTags_step (tags : Tags m subst) (sub : ∀ d ∈ D, d ∈ subst) (he : e ∈ subst) {n : Nat}
    (settled : ∀ e ∈ subst, ¬e.1 <:+: replaceTags subst n s) : replaceTags [e] 0 (replaceTags D n s) = replaceTags (e :: D) n s := by
  have tagsD := tags.subset sub
  have tags1 : Tags m [e] := tags.subset fun d hd => List.mem_singleton.1 hd ▸ he
  have tagsC : Tags m (e :: D) := tags.subset fun d hd => by
    obtain rfl | hd := List.mem_cons.1 hd
    · exact he
    · exact sub d hd
  induction s generalizing n with
  | nil =>
    cases n <;> rfl
  | cons c s ih =>
    cases n with
    | succ n => exact ih settled
    | zero =>
      cases found : first D (c :: s) with
      | some d =>
        obtain ⟨hd, front⟩ := first_some found
        rw [replaceTags_some (tags.first_eq (sub d hd) front)] at settled
        rw [replaceTags_some found, replaceTags_some (tagsC.first_eq (List.mem_cons_of_mem _ hd) front),
          tags1.replaceTags_append (tags.plain d (sub d hd))]
        exact congrArg (d.2 ++ ·) (ih fun e he inside => settled e he (inside.trans (List.suffix_append _ _).isInfix))
      | none =>
        obtain ⟨name, named, plain⟩ := tags.marked e he
        rw [replaceTags_none found]
        by_cases front : e.1 <+: c :: s
        · -- the tag stands here
          have found' := tagsC.first_eq List.mem_cons_self front
          rw [replaceTags_some (tags.first_eq he front)] at settled
          rw [replaceTags_some found']
          have len : e.1.length - 1 = name.length := by rw [named, List.length_cons, Nat.add_sub_cancel]
          rw [len] at settled ⊢
          rw [named] at front
          obtain ⟨rfl, s', rfl⟩ := List.cons_prefix_cons.1 front
          have rest := ih fun e he inside => settled e he (inside.trans (List.suffix_append _ _).isInfix)
          rw [replaceTags_skip] at rest
          have here : first [e] (m :: replaceTags D 0 (name ++ s')) = some e := by
            apply tags1.first_eq (List.mem_singleton_self e)
            rw [named, tagsD.replaceTags_append plain]
            exact List.prefix_append (m :: name) _
          rw [replaceTags_some here, len, tagsD.replaceTags_append plain, replaceTags_skip, rest]
        · have none' : first (e :: D) (c :: s) = none := by
            apply first_eq_none
            intro d hd
            obtain rfl | hd := List.mem_cons.1 hd
            · exact front
            · exact first_none found d hd
          rw [replaceTags_none none']
          cases later : first subst (c :: s) with
          | some d =>
            -- another tag stands here, which is replaced later
            obtain ⟨hd, front'⟩ := first_some later
            obtain ⟨name', named', plain'⟩ := tags.marked d hd
            rw [replaceTags_some later, named', List.length_cons, Nat.add_sub_cancel] at settled
            rw [named'] at front'
            obtain ⟨rfl, s', rfl⟩ := List.cons_prefix_cons.1 front'
            rw [replaceTags_skip] at settled
            have none1 : first [e] (m :: replaceTags D 0 (name' ++ s')) = none := by
              apply first_eq_none
              intro e' he' front1
              obtain rfl := List.mem_singleton.1 he'
              have front2 : d.1 <+: m :: replaceTags D 0 (name' ++ s') := by
                rw [named', tagsD.replaceTags_append plain']
                exact List.prefix_append (m :: name') _
              have same : e' = d := by
                obtain shorter | longer := List.prefix_or_prefix_of_prefix front1 front2
                · exact tags.apart e' he d hd shorter
                · exact (tags.apart d hd e' he longer).symm
              rw [same, named'] at front
              exact front front'
            rw [replaceTags_none none1]
            refine congrArg (m :: ·) (ih fun e he inside => settled e he ?_)
            rw [tags.replaceTags_append plain'] at inside
            obtain ⟨name2, named2, -⟩ := tags.marked e he
            rw [named2] at inside ⊢
            exact (infix_of_plain_append plain' inside).trans (List.suffix_append _ _).isInfix
          | none =>
            -- a marker here begins no tag, and comes to begin none
            rw [replaceTags_none later] at settled
            have none1 : first [e] (c :: replaceTags D 0 s) = none := by
              apply first_eq_none
              intro e' he' front1
              obtain rfl := List.mem_singleton.1 he'
              rw [named] at front1
              obtain ⟨rfl, behind⟩ := List.cons_prefix_cons.1 front1
              apply settled e' he
              rw [named]
              exact (List.cons_prefix_cons.2 ⟨rfl, tags.prefix_replaceTags sub plain behind⟩).isInfix
            rw [replaceTags_none none1]
            exact congrArg (c :: ·) (ih fun e he inside => settled e he (inside.trans (List.suffix_cons _ _).isInfix))

theorem replaceTags_nil (s : List α) : replaceTags [] 0 s = s := by
  induction s with
  | nil => rfl
  | cons c s ih => exact congrArg (c :: ·) ih

/-- The order of the replacements does not matter in a text that settles. -/
theorem Tags.substAll_eq (tags : Tags m subst) (settled : TagFree subst s) {order : List (List α × List α)} (perm : order.Perm subst) :
    substAll order s = replaceTags subst 0 s := by
  have steps : ∀ (order D : List (List α × List α)), (∀ d ∈ order, d ∈ subst) → (∀ d ∈ D, d ∈ subst) →
      substAll order (replaceTags D 0 s) = replaceTags (order.reverse ++ D) 0 s := by
    intro order
    induction order with
    | nil => intro D _ _; rfl
    | cons e order ih =>
      intro D inside sub
      have he := inside e List.mem_cons_self
      have sub' : ∀ d ∈ e :: D, d ∈ subst := fun d hd => by
        obtain rfl | hd := List.mem_cons.1 hd
        · exact he
        · exact sub d hd
      have rest := ih (e :: D) (fun d hd => inside d (List.mem_cons_of_mem _ hd)) sub'
      rw [← tags.replaceTags_step sub he settled] at rest
      rw [List.reverse_cons, List.append_assoc]
      exact rest
  have all := steps order [] (fun d hd => perm.mem_iff.1 hd) (fun d hd => absurd hd List.not_mem_nil)
  rw [replaceTags_nil, List.append_nil] at all
  rw [all]
  -- the tag that a text begins with does not depend on the order
  have perm' : order.reverse.Perm subst := (List.reverse_perm order).trans perm
  have same : ∀ s, first order.reverse s = first subst s := by
    intro s
    cases found : first subst s with
    | none => exact first_eq_none fun e he => first_none found e (perm'.mem_iff.1 he)
    | some e =>
      obtain ⟨he, front⟩ := first_some found
      exact (tags.subset fun d hd => perm'.mem_iff.1 hd).first_eq (perm'.mem_iff.2 he) front
  have equal : ∀ n, replaceTags order.reverse n s = replaceTags subst n s := by
    clear settled all steps
    induction s with
    | nil => intro n; cases n <;> rfl
    | cons c s ih =>
      intro n
      cases n with
      | succ n => exact ih n
      | zero =>
        unfold replaceTags
        rw [same]
        cases first subst (c :: s) with
        | none => exact congrArg (c :: ·) (ih 0)
        | some e => exact congrArg (e.2 ++ ·) (ih _)
  exact equal 0

/-- A text in which no marker is left settles. -/
theorem Tags.settled_of_plain (tags : Tags m subst) (plain : m ∉ replaceTags subst 0 s) : TagFree subst s := by
  intro e he inside
  obtain ⟨name, named, -⟩ := tags.marked e he
  rw [named] at inside
  exact plain (inside.subset List.mem_cons_self)

/-- A template is made of texts with a tag behind each of them, and a rest. -/
theorem Tags.replaceTags_pieces (tags : Tags m subst) {pieces : List (List α × (List α × List α))} (texts : ∀ p ∈ pieces, m ∉ p.1 ∧ p.2 ∈ subst)
    (plain : m ∉ u) :
    replaceTags subst 0 (pieces.flatMap (fun p => p.1 ++ p.2.1) ++ u) = pieces.flatMap (fun p => p.1 ++ p.2.2) ++ u := by
  induction pieces with
  | nil => exact tags.replaceTags_plain plain
  | cons p pieces ih =>
    obtain ⟨text, tag⟩ := texts p List.mem_cons_self
    have rest := ih fun p hp => texts p (List.mem_cons_of_mem _ hp)
    simp only [List.flatMap_cons, List.append_assoc]
    rw [tags.replaceTags_append text, tags.replaceTags_tag tag, rest]

end

end Rocketcycle.Templates
