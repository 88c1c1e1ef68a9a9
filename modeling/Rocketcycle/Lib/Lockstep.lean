import Mathlib.Data.List.Forall2
import Mathlib.Data.Option.Basic
import Rocketcycle.Lib.Runs

/-!
# Lockstep

Two executable systems over the same actions. In related states both can take an action or neither
can, and related states follow: a run of the one is then a run of the other, through related states.
-/

namespace Rocketcycle.Runs

variable {S T A : Type}

/-- The steps of `step` that a guard lets through. -/
def guarded (step : S → A → Option S) (guard : S → A → Bool) (s : S) (a : A) : Option S :=
  if guard s a then step s a else none

/-- Taken in related states, an action that is `ok` keeps the two systems together. -/
def Lockstep (ok : A → Prop) (R : S → T → Prop) (step : S → A → Option S) (step' : T → A → Option T) : Prop :=
  ∀ s t a, R s t → ok a → Option.Rel R (step s a) (step' t a)

/-- Two runs, action by action. -/
def Together (R : S → T → Prop) : List (S × A) → List (T × A) → Prop :=
  List.Forall₂ fun e e' => R e.1 e'.1 ∧ e'.2 = e.2

section
variable {ok : A → Prop} {R : S → T → Prop} {step : S → A → Option S} {step' : T → A → Option T} {guard : S → A → Bool}

theorem guarded_eq_some {s s' : S} {a : A} : guarded step guard s a = some s' ↔ guard s a = true ∧ step s a = some s' := by
  unfold guarded
  split <;> simp_all

theorem guarded_isSome {s : S} {a : A} : (guarded step guard s a).isSome = (guard s a && (step s a).isSome) := by
  unfold guarded
  cases guard s a <;> rfl

/-- The runs of the guarded system are those in which the guard lets every step through. -/
theorem path_guarded_iff {s₀ s : S} {tr : List (S × A)} :
    Path (guarded step guard) s₀ tr s ↔ Path step s₀ tr s ∧ ∀ e ∈ tr, guard e.1 e.2 = true := by
  constructor
  · intro run
    induction run with
    | nil => exact ⟨.nil, fun e he => absurd he List.not_mem_nil⟩
    | snoc _ hs ih =>
      obtain ⟨through, taken⟩ := guarded_eq_some.1 hs
      refine ⟨.snoc ih.1 taken, fun e he => ?_⟩
      rcases List.mem_append.1 he with he | he
      · exact ih.2 e he
      · rw [List.mem_singleton.1 he]
        exact through
  · rintro ⟨run, through⟩
    induction run with
    | nil => exact .nil
    | snoc _ hs ih =>
      have last := through _ (List.mem_append_right _ (List.mem_singleton_self _))
      exact .snoc (ih fun e he => through e (List.mem_append_left _ he)) (guarded_eq_some.2 ⟨last, hs⟩)

theorem Lockstep.symm (h : Lockstep ok R step step') : Lockstep ok (fun t s => R s t) step' step := by
  intro t s a related allowed
  have both := h s t a related allowed
  generalize step s a = x at both
  generalize step' t a = y at both
  cases both with
  | some next => exact .some next
  | none => exact .none

/-- Related states can take the same actions. -/
theorem Lockstep.isSome (h : Lockstep ok R step step') {s : S} {t : T} {a : A} (related : R s t) (allowed : ok a) :
    (step s a).isSome = (step' t a).isSome := by
  have both := h s t a related allowed
  generalize step s a = x at both
  generalize step' t a = y at both
  cases both <;> rfl

/-- A run of the one system is a run of the other. -/
theorem Lockstep.run (h : Lockstep ok R step step') {s₀ s : S} {t₀ : T} {tr : List (S × A)} (start : R s₀ t₀)
    (run : Path step s₀ tr s) (all : ∀ e ∈ tr, ok e.2) :
    ∃ tr' t, Path step' t₀ tr' t ∧ R s t ∧ Together R tr tr' := by
  induction run with
  | nil => exact ⟨[], t₀, .nil, start, .nil⟩
  | @snoc tr s s' a _ hs ih =>
    obtain ⟨tr', t, run', related, together⟩ := ih fun e he => all e (List.mem_append_left _ he)
    have both := h s t a related (all _ (List.mem_append_right _ (List.mem_singleton_self _)))
    rw [hs] at both
    generalize hs' : step' t a = y at both
    cases both with
    | some next => exact ⟨tr' ++ [(t, a)], _, .snoc run' hs', next, List.rel_append together (.cons ⟨related, rfl⟩ .nil)⟩

end

end Rocketcycle.Runs
