import Mathlib.Tactic.Common

/-!
# Runs of an executable step function

`step s a = some s'` takes action `a` in state `s`. A run is the list of the states and actions
passed through; what every step keeps, every state of a run has.
-/

namespace Rocketcycle.Runs

variable {S A : Type} (step : S → A → Option S)

/-- The state after a list of actions. -/
def runs : S → List A → Option S
  | s, [] => some s
  | s, a :: as =>
    match step s a with
    | none => none
    | some s' => runs s' as

/-- The states and actions passed through on the way, up to an action that cannot be taken. -/
def trace : S → List A → List (S × A)
  | _, [] => []
  | s, a :: as =>
    match step s a with
    | none => []
    | some s' => (s, a) :: trace s' as

/-- `Path step s₀ tr s`: from `s₀` to `s`, `tr` holding each state together with the action taken
in it. -/
inductive Path (s₀ : S) : List (S × A) → S → Prop
  | nil : Path s₀ [] s₀
  | snoc {tr : List (S × A)} {s s' : S} {a : A} (h : Path s₀ tr s) (hs : step s a = some s') :
      Path s₀ (tr ++ [(s, a)]) s'

variable {step} {s₀ s s' : S} {a : A} {tr : List (S × A)}

theorem Path.cons (hs : step s₀ a = some s') (h : Path step s' tr s) : Path step s₀ ((s₀, a) :: tr) s := by
  induction h with
  | nil => exact .snoc .nil hs
  | snoc _ hs' ih =>
    rw [← List.cons_append]
    exact .snoc ih hs'

/-- Executing a list of actions is walking along a path. -/
theorem path_of_runs {as : List A} (h : runs step s₀ as = some s) : Path step s₀ (trace step s₀ as) s := by
  induction as generalizing s₀ with
  | nil =>
    cases h
    exact .nil
  | cons a as ih =>
    unfold runs at h
    split at h
    · cases h
    · rename_i s1 hs
      unfold trace
      rw [hs]
      exact .cons hs (ih h)

/-- The trace of a list of actions that can be taken holds just these. -/
theorem trace_actions {as : List A} (h : runs step s₀ as = some s) : (trace step s₀ as).map Prod.snd = as := by
  induction as generalizing s₀ with
  | nil => rfl
  | cons a as ih =>
    unfold runs at h
    split at h
    · cases h
    · rename_i s1 hs
      unfold trace
      rw [hs, List.map_cons, ih h]

/-- The state after a list of actions, if they can be taken. -/
def after (step : S → A → Option S) (s : S) (as : List A) : S := (runs step s as).getD s

theorem path_after {as : List A} (h : (runs step s₀ as).isSome = true) :
    Path step s₀ (trace step s₀ as) (after step s₀ as) := by
  obtain ⟨s, hs⟩ := Option.isSome_iff_exists.1 h
  have here : after step s₀ as = s := by simp [after, hs]
  rw [here]
  exact path_of_runs hs

/-- A list of actions that can be taken, with what is computed of the state after it. -/
theorem path_of_any {as : List A} {p : S → Bool} (h : (runs step s₀ as).any p = true) :
    Path step s₀ (trace step s₀ as) (after step s₀ as) ∧ p (after step s₀ as) = true := by
  obtain ⟨s, hs, hp⟩ := (Option.any_eq_true _ _).1 h
  have here : after step s₀ as = s := by simp [after, hs]
  rw [here]
  exact ⟨path_of_runs hs, hp⟩

theorem step_after (h : (step s₀ a).isSome = true) : step s₀ a = some (after step s₀ [a]) := by
  obtain ⟨s, hs⟩ := Option.isSome_iff_exists.1 h
  simp [after, runs, hs]

/-- What holds at the start and is kept by every step that meets `ok` holds at the end of every
run whose steps all do. -/
theorem Path.invariant (inv : S → Prop) (ok : S → A → Prop) (init : inv s₀)
    (keep : ∀ s a s', ok s a → inv s → step s a = some s' → inv s') (h : Path step s₀ tr s)
    (all : ∀ e ∈ tr, ok e.1 e.2) : inv s := by
  induction h with
  | nil => exact init
  | snoc _ hs ih =>
    have last := all _ (List.mem_append_right _ (List.mem_singleton_self _))
    exact keep _ _ _ last (ih fun e he => all e (List.mem_append_left _ he)) hs

/-- The same for a property of the states and actions passed so far. -/
theorem Path.invariant_trace {inv : List (S × A) → S → Prop} (ok : List (S × A) → S → A → Prop)
    (init : inv [] s₀)
    (keep : ∀ tr s a s', ok tr s a → inv tr s → step s a = some s' → inv (tr ++ [(s, a)]) s')
    (h : Path step s₀ tr s)
    (all : ∀ front e back, tr = front ++ e :: back → ok front e.1 e.2) : inv tr s := by
  induction h with
  | nil => exact init
  | @snoc tr s s' a _ hs ih =>
    have before : inv tr s := by
      apply ih
      intro front e back heq
      apply all front e (back ++ [(s, a)])
      simp [heq]
    exact keep _ _ _ _ (all tr (s, a) [] rfl) before hs

/-- A run through an action is a run up to it, the action, and a run from there. -/
theorem Path.split {front back : List (S × A)} {e : S × A} (h : Path step s₀ (front ++ e :: back) s) :
    Path step s₀ front e.1 ∧ ∃ s', step e.1 e.2 = some s' ∧ Path step s' back s := by
  generalize heq : front ++ e :: back = tr at h
  induction h generalizing back with
  | nil => simp at heq
  | @snoc tr s s' a h hs ih =>
    rcases List.eq_nil_or_concat back with rfl | ⟨back', last, rfl⟩
    · obtain ⟨rfl, he⟩ := List.append_inj' heq rfl
      cases he
      exact ⟨h, s', hs, .nil⟩
    · rw [List.concat_eq_append, ← List.cons_append, ← List.append_assoc] at heq
      obtain ⟨hfront, hlast⟩ := List.append_inj' heq rfl
      cases hlast
      obtain ⟨start, s1, hstep, tail⟩ := ih hfront
      refine ⟨start, s1, hstep, ?_⟩
      rw [List.concat_eq_append]
      exact .snoc tail hs

/-- A run without actions stays where it is. -/
theorem Path.of_nil (h : Path step s₀ [] s) : s = s₀ := by
  generalize heq : ([] : List (S × A)) = tr at h
  cases h with
  | nil => rfl
  | snoc => simp at heq

/-- The first action of a run is taken at its start. -/
theorem Path.of_cons {e : S × A} (h : Path step s₀ (e :: tr) s) :
    e.1 = s₀ ∧ ∃ s', step e.1 e.2 = some s' ∧ Path step s' tr s := by
  have whole : Path step s₀ ([] ++ e :: tr) s := h
  obtain ⟨before, rest⟩ := whole.split
  exact ⟨before.of_nil, rest⟩

/-- The same for two actions of a run, by their places in it. -/
theorem Path.pair {i j : Nat} {e e' : S × A} (h : Path step s₀ tr s) (hi : tr[i]? = some e) (hj : tr[j]? = some e')
    (lt : i < j) :
    Path step s₀ (tr.take i) e.1 ∧ ∃ s' mid s'', step e.1 e.2 = some s' ∧ Path step s' mid e'.1 ∧
      step e'.1 e'.2 = some s'' ∧ Path step s'' (tr.drop (j + 1)) s := by
  obtain ⟨hi', rfl⟩ := List.getElem?_eq_some_iff.1 hi
  obtain ⟨hj', rfl⟩ := List.getElem?_eq_some_iff.1 hj
  have outer : tr = tr.take j ++ tr[j] :: tr.drop (j + 1) := by
    rw [← List.drop_eq_getElem_cons hj', List.take_append_drop]
  have inner : tr.take j = tr.take i ++ tr[i] :: (tr.take j).drop (i + 1) := by
    have len : i < (tr.take j).length := by
      rw [List.length_take]
      omega
    have here : (tr.take j)[i] = tr[i] := List.getElem_take
    have before : (tr.take j).take i = tr.take i := by
      rw [List.take_take, Nat.min_eq_left (Nat.le_of_lt lt)]
    rw [← here, ← before, ← List.drop_eq_getElem_cons len, List.take_append_drop]
  rw [outer] at h
  obtain ⟨front, s'', hstep', tail⟩ := h.split
  rw [inner] at front
  obtain ⟨start, s', hstep, mid⟩ := front.split
  exact ⟨start, s', _, s'', hstep, mid, hstep', tail⟩

/-- A property that the start has holds all along a run exactly if every step keeps it. -/
theorem Path.forall_iff {P : S → Prop} {ok : S → A → Prop} (init : P s₀)
    (keep : ∀ s a s', P s → step s a = some s' → (ok s a ↔ P s')) (h : Path step s₀ tr s) :
    (∀ e ∈ tr, ok e.1 e.2) ↔ (∀ e ∈ tr, P e.1) ∧ P s := by
  induction h with
  | nil => simp [init]
  | @snoc tr s s' a h hs ih =>
    simp only [List.mem_append, List.mem_singleton, or_imp, forall_and, forall_eq]
    constructor
    · rintro ⟨before, last⟩
      have ⟨states, here⟩ := ih.1 before
      exact ⟨⟨states, here⟩, (keep s a s' here hs).1 last⟩
    · rintro ⟨⟨states, here⟩, next⟩
      exact ⟨ih.2 ⟨states, here⟩, (keep s a s' here hs).2 next⟩

end Rocketcycle.Runs
