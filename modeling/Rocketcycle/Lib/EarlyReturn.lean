import Mathlib.Tactic.Common
import Mathlib.Data.List.Forall2

/-!
# State with early return

`ExceptT ε (StateM σ)` run from a state: an early return keeps the state it is made in. The
equations by which a program is executed, and rules for what holds when it ends.
-/

namespace Rocketcycle.Early

variable {ε σ α β : Type}

/-- The run of a program: its value or early return, and the state at that point. -/
def exec (m : ExceptT ε (StateM σ) α) (s : σ) : Except ε α × σ := m.run.run s

@[simp] theorem exec_pure (a : α) (s : σ) : exec (pure a : ExceptT ε (StateM σ) α) s = (.ok a, s) := rfl

@[simp] theorem exec_throw (e : ε) (s : σ) : exec (throw e : ExceptT ε (StateM σ) α) s = (.error e, s) := rfl

@[simp] theorem exec_get (s : σ) : exec (get : ExceptT ε (StateM σ) σ) s = (.ok s, s) := rfl

@[simp] theorem exec_set (s s' : σ) : exec (set s' : ExceptT ε (StateM σ) PUnit) s = (.ok ⟨⟩, s') := rfl

@[simp] theorem exec_modify (f : σ → σ) (s : σ) :
    exec (modify f : ExceptT ε (StateM σ) PUnit) s = (.ok ⟨⟩, f s) := rfl

theorem exec_bind (m : ExceptT ε (StateM σ) α) (f : α → ExceptT ε (StateM σ) β) (s : σ) :
    exec (m >>= f) s =
      match exec m s with
      | (.ok a, s') => exec (f a) s'
      | (.error e, s') => (.error e, s') := by
  unfold exec
  simp only [ExceptT.run_bind, StateT.run_bind]
  change (match (m.run.run s).1 with | _ => _ : StateM σ (Except ε β)).run _ = _
  rcases m.run.run s with ⟨a | e, s'⟩ <;> rfl

/-! ## Postconditions

`Post m s Q`: run from `s`, the program ends with `Q` of its value or early return and of the
state. One rule for each statement, the first statement of a sequence deciding which applies. -/

def Post (m : ExceptT ε (StateM σ) α) (s : σ) (Q : Except ε α → σ → Prop) : Prop :=
  Q (exec m s).1 (exec m s).2

section
variable {m : ExceptT ε (StateM σ) α} {f : α → ExceptT ε (StateM σ) β} {s : σ}
  {Q : Except ε α → σ → Prop} {R : Except ε β → σ → Prop}

theorem post_pure {a : α} (h : Q (.ok a) s) : Post (pure a) s Q := h

theorem post_bind (h : Post m s fun r s' =>
    match r with
    | .ok a => Post (f a) s' R
    | .error e => R (.error e) s') : Post (m >>= f) s R := by
  unfold Post at *
  rw [exec_bind]
  generalize exec m s = r at h ⊢
  rcases r with ⟨_ | _, s'⟩ <;> exact h

theorem post_get_bind {g : σ → ExceptT ε (StateM σ) β} (h : Post (g s) s R) : Post (get >>= g) s R :=
  post_bind h

theorem post_set_bind {s' : σ} {g : PUnit → ExceptT ε (StateM σ) β} (h : Post (g ⟨⟩) s' R) :
    Post (set s' >>= g) s R :=
  post_bind h

theorem post_modify_bind {u : σ → σ} {g : PUnit → ExceptT ε (StateM σ) β} (h : Post (g ⟨⟩) (u s) R) :
    Post (modify u >>= g) s R :=
  post_bind h

theorem post_ite {p : Prop} [Decidable p] {m' : ExceptT ε (StateM σ) α} (h : p → Post m s Q)
    (h' : ¬p → Post m' s Q) : Post (if p then m else m') s Q := by
  split
  · exact h ‹_›
  · exact h' ‹_›

/-- A weaker postcondition holds as well. -/
theorem Post.mono {Q' : Except ε α → σ → Prop} (h : Post m s Q) (weaker : ∀ r s', Q r s' → Q' r s') :
    Post m s Q' :=
  weaker _ _ h

end

/-! ## Fallible calls -/

theorem bind_eq_ok {x : Except ε α} {f : α → Except ε β} {b : β} :
    (x >>= f) = .ok b ↔ ∃ a, x = .ok a ∧ f a = .ok b := by
  cases x with
  | error e => simp [bind, Except.bind]
  | ok a => simp [bind, Except.bind]

/-- How a call ends: with `Q` of its value, or with `E` of its error. -/
def Ends (Q : α → Prop) (E : ε → Prop) : Except ε α → Prop
  | .ok a => Q a
  | .error e => E e

theorem Ends.bind {Q : α → Prop} {R : β → Prop} {E : ε → Prop} {x : Except ε α} {f : α → Except ε β} (h : Ends Q E x)
    (next : ∀ a, Q a → Ends R E (f a)) : Ends R E (x >>= f) := by
  cases x with
  | error e => exact h
  | ok a => exact next a h

theorem Ends.mono {Q Q' : α → Prop} {E E' : ε → Prop} {x : Except ε α} (h : Ends Q E x) (value : ∀ a, Q a → Q' a)
    (error : ∀ e, E e → E' e) : Ends Q' E' x := by
  cases x with
  | error e => exact error e h
  | ok a => exact value a h

/-- What is refused under `p` succeeds only where `p` fails. -/
theorem ite_error_eq_ok {p : Prop} [Decidable p] {e : ε} {x : Except ε α} {a : α} :
    (if p then .error e else x) = .ok a ↔ ¬p ∧ x = .ok a := by
  split <;> simp_all

/-- A traversal with a function that answers `g a` where `P a` holds, and fails elsewhere. -/
theorem mapM_eq_ok {f : α → Except ε β} {P : α → Prop} {g : α → β} (spec : ∀ a b, f a = .ok b ↔ P a ∧ b = g a)
    {as : List α} {bs : List β} : as.mapM f = .ok bs ↔ (∀ a ∈ as, P a) ∧ bs = as.map g := by
  induction as generalizing bs with
  | nil =>
    rw [List.mapM_nil]
    simp [pure, Except.pure, eq_comm]
  | cons a as ih =>
    rw [List.mapM_cons, bind_eq_ok]
    simp only [bind_eq_ok, spec, ih, List.forall_mem_cons, List.map_cons]
    constructor
    · rintro ⟨b, ⟨ha, rfl⟩, bs', ⟨has, rfl⟩, heq⟩
      cases heq
      exact ⟨⟨ha, has⟩, rfl⟩
    · rintro ⟨⟨ha, has⟩, rfl⟩
      exact ⟨g a, ⟨ha, rfl⟩, as.map g, ⟨has, rfl⟩, rfl⟩

/-- A traversal fails where one of the calls fails. -/
theorem mapM_error {f : α → Except ε β} {e : ε} {as : List α} (h : as.mapM f = .error e) :
    ∃ a ∈ as, f a = .error e := by
  induction as with
  | nil =>
    rw [List.mapM_nil] at h
    cases h
  | cons a as ih =>
    rw [List.mapM_cons] at h
    cases ha : f a with
    | error e' =>
      rw [ha] at h
      cases h
      exact ⟨a, List.mem_cons_self, ha⟩
    | ok b =>
      cases has : as.mapM f with
      | error e' =>
        rw [ha, has] at h
        cases h
        obtain ⟨a', hmem, ha'⟩ := ih has
        exact ⟨a', List.mem_cons_of_mem _ hmem, ha'⟩
      | ok bs =>
        rw [ha, has] at h
        cases h

/-- Element by element, a traversal collects what the calls answer. -/
theorem mapM_forall₂ {f : α → Except ε β} {as : List α} {bs : List β} (h : as.mapM f = .ok bs) :
    List.Forall₂ (fun a b => f a = .ok b) as bs := by
  induction as generalizing bs with
  | nil =>
    rw [List.mapM_nil] at h
    cases h
    exact .nil
  | cons a as ih =>
    rw [List.mapM_cons] at h
    obtain ⟨b, ha, h⟩ := bind_eq_ok.1 h
    obtain ⟨bs', has, h⟩ := bind_eq_ok.1 h
    cases h
    exact .cons ha (ih has)

/-- What a traversal collects is what the calls answer. -/
theorem mapM_mem {f : α → Except ε β} {as : List α} {bs : List β} (h : as.mapM f = .ok bs) :
    (∀ a ∈ as, ∃ b ∈ bs, f a = .ok b) ∧ ∀ b ∈ bs, ∃ a ∈ as, f a = .ok b := by
  induction as generalizing bs with
  | nil =>
    rw [List.mapM_nil] at h
    cases h
    simp
  | cons a as ih =>
    rw [List.mapM_cons] at h
    cases ha : f a with
    | error e => rw [ha] at h; cases h
    | ok b =>
      cases has : as.mapM f with
      | error e => rw [ha, has] at h; cases h
      | ok bs' =>
        rw [ha, has] at h
        cases h
        obtain ⟨into, back⟩ := ih has
        constructor
        · intro a' hmem
          rcases List.mem_cons.1 hmem with rfl | hmem
          · exact ⟨b, List.mem_cons_self, ha⟩
          · obtain ⟨b', hb', ha'⟩ := into a' hmem
            exact ⟨b', List.mem_cons_of_mem _ hb', ha'⟩
        · intro b' hmem
          rcases List.mem_cons.1 hmem with rfl | hmem
          · exact ⟨a, List.mem_cons_self, ha⟩
          · obtain ⟨a', ha', hb'⟩ := back b' hmem
            exact ⟨a', List.mem_cons_of_mem _ ha', hb'⟩

/-- What every call of a fallible function answers, a traversal with it collects. -/
theorem mapM_forall (P : β → Prop) {f : α → Except ε β} (hf : ∀ a b, f a = .ok b → P b) {as : List α}
    {bs : List β} (h : as.mapM f = .ok bs) : ∀ b ∈ bs, P b := by
  intro b hb
  obtain ⟨a, -, ha⟩ := (mapM_mem h).2 b hb
  exact hf a b ha

/-- A traversal succeeds where every call does. -/
theorem mapM_ok {f : α → Except ε β} {as : List α} (h : ∀ a ∈ as, ∃ b, f a = .ok b) : ∃ bs, as.mapM f = .ok bs := by
  cases hm : as.mapM f with
  | ok bs => exact ⟨bs, rfl⟩
  | error e =>
    obtain ⟨a, hmem, ha⟩ := mapM_error hm
    obtain ⟨b, hb⟩ := h a hmem
    rw [hb] at ha
    cases ha

/-- Functions that answer alike are alike in a traversal. -/
theorem mapM_congr {f g : α → Except ε β} {as : List α} (h : ∀ a ∈ as, f a = g a) : as.mapM f = as.mapM g := by
  induction as with
  | nil => rfl
  | cons a as ih =>
    rw [List.mapM_cons, List.mapM_cons, h a List.mem_cons_self, ih fun a hmem => h a (List.mem_cons_of_mem _ hmem)]

/-- What every call of a fallible function maintains, a fold with it maintains. -/
theorem foldlM_invariant (P : β → Prop) {f : β → α → Except ε β}
    (hf : ∀ b a b', P b → f b a = .ok b' → P b') {as : List α} {b b' : β} (start : P b)
    (h : as.foldlM f b = .ok b') : P b' := by
  induction as generalizing b with
  | nil =>
    cases h
    exact start
  | cons a as ih =>
    rw [List.foldlM_cons] at h
    cases ha : f b a with
    | error e => rw [ha] at h; cases h
    | ok b1 =>
      rw [ha] at h
      exact ih (hf b a b1 start ha) h

end Rocketcycle.Early
