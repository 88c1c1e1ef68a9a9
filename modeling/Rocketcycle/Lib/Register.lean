import Mathlib.Data.List.MinMax

/-!
# A register guarded by time

A cell that is written and erased by entries with a time. An entry takes effect if it is newer
than the value held; an erasure leaves nothing behind that a later entry could be compared with.
What the order and the repetition of entries make of the cell.
-/

namespace Rocketcycle.Register

inductive Entry (α τ : Type) where
  | write (a : α)
  | erase (t : τ)

variable {α τ : Type}

def Entry.value : Entry α τ → Option α
  | .write a => some a
  | .erase _ => none

section
variable [LinearOrder τ] (stamp : α → τ)

def Entry.time : Entry α τ → τ
  | .write a => stamp a
  | .erase t => t

/-- An entry meets what the cell holds. -/
def enter (held : Option α) (e : Entry α τ) : Option α :=
  match held with
  | none => e.value
  | some a => if stamp a < e.time stamp then e.value else some a

def play (held : Option α) (es : List (Entry α τ)) : Option α := es.foldl (enter stamp) held

/-- Everything held is older than `t`. -/
def Older (t : τ) (held : Option α) : Prop := ∀ a, held = some a → stamp a < t

variable {stamp} {held : Option α} {e : Entry α τ} {es : List (Entry α τ)} {a : α} {t : τ}

theorem older_none : Older stamp t none := by
  rintro a ⟨⟩

theorem enter_newer (h : Older stamp (e.time stamp) held) : enter stamp held e = e.value := by
  cases held with
  | none => rfl
  | some a => exact if_pos (h a rfl)

theorem enter_older (h : e.time stamp ≤ stamp a) : enter stamp (some a) e = some a := if_neg (not_lt.2 h)

theorem enter_older_bound (h : Older stamp t held) (written : Older stamp t e.value) : Older stamp t (enter stamp held e) := by
  cases held with
  | none => exact written
  | some a =>
    unfold enter
    dsimp only
    split
    · exact written
    · exact h

/-- A write leaves something. -/
theorem enter_write : enter stamp held (.write a) ≠ none := by
  cases held with
  | none => simp [enter, Entry.value]
  | some b =>
    unfold enter
    dsimp only
    split <;> simp [Entry.value]

theorem play_append (es' : List (Entry α τ)) : play stamp held (es ++ es') = play stamp (play stamp held es) es' :=
  List.foldl_append

/-- A value as new as all that is entered stays. -/
theorem play_newest (h : ∀ e ∈ es, e.time stamp ≤ stamp a) : play stamp (some a) es = some a := by
  induction es with
  | nil => rfl
  | cons e es ih =>
    show play stamp (enter stamp (some a) e) es = some a
    rw [enter_older (h e List.mem_cons_self)]
    exact ih fun e' he' => h e' (List.mem_cons_of_mem _ he')

/-- Older entries make nothing newer. -/
theorem play_older (h : Older stamp t held) (written : ∀ e ∈ es, Older stamp t e.value) : Older stamp t (play stamp held es) := by
  induction es generalizing held with
  | nil => exact h
  | cons e es ih =>
    show Older stamp t (play stamp (enter stamp held e) es)
    apply ih
    · exact enter_older_bound h (written e List.mem_cons_self)
    · exact fun e' he' => written e' (List.mem_cons_of_mem _ he')

theorem older_value (h : e.time stamp < t) : Older stamp t e.value := by
  cases e with
  | write a =>
    rintro b hb
    cases hb
    exact h
  | erase t' => exact older_none

variable (stamp) in
/-- A newest entry of a list that is not empty. -/
theorem exists_newest (h : es ≠ []) : ∃ e ∈ es, ∀ e' ∈ es, e'.time stamp ≤ e.time stamp := by
  cases hm : es.argmax (Entry.time stamp) with
  | none => exact absurd (List.argmax_eq_none.1 hm) h
  | some e => exact ⟨e, List.argmax_mem hm, fun e' he' => List.le_of_mem_argmax he' hm⟩

/-- Where the newest entry has left nothing as new as itself, it was an erasure. -/
theorem newest_erases (newest : ∀ e' ∈ es, e'.time stamp ≤ t) (gone : Older stamp t (play stamp held es)) (mem : e ∈ es)
    (isNewest : e.time stamp = t) : e.value = none ∧
      ∃ before after, es = before ++ e :: after ∧ play stamp held es = play stamp none after := by
  obtain ⟨before, after, rfl⟩ := List.append_of_mem mem
  have later : ∀ e' ∈ after, e'.time stamp ≤ t := fun e' he' =>
    newest e' (List.mem_append_right _ (List.mem_cons_of_mem _ he'))
  rw [play_append] at gone
  change Older stamp t (play stamp (enter stamp (play stamp held before) e) after) at gone
  -- what is as new as the entry would still be there
  have stays : ∀ a, enter stamp (play stamp held before) e = some a → t ≤ stamp a → False := by
    intro a ha newer
    rw [ha, play_newest fun e' he' => (later e' he').trans newer] at gone
    exact absurd (gone a rfl) (not_lt.2 newer)
  have older : Older stamp t (play stamp held before) := by
    intro a ha
    by_contra newer
    rw [not_lt] at newer
    apply stays a _ newer
    rw [ha]
    exact enter_older (isNewest.trans_le newer)
  have taken : enter stamp (play stamp held before) e = e.value := enter_newer (isNewest ▸ older)
  have erases : e.value = none := by
    cases e with
    | erase t' => rfl
    | write a => exact (stays a taken (le_of_eq isNewest.symm)).elim
  refine ⟨erases, before, after, rfl, ?_⟩
  rw [play_append]
  change play stamp (enter stamp (play stamp held before) e) after = _
  rw [taken, erases]

/-- Entries that are played again change nothing. -/
theorem play_play : play stamp (play stamp held es) es = play stamp held es := by
  by_cases empty : es = []
  · rw [empty]
    rfl
  obtain ⟨e, mem, newest⟩ := exists_newest stamp empty
  by_cases gone : Older stamp (e.time stamp) (play stamp held es)
  · -- everything newest was erased, and so it will be again
    obtain ⟨erases, before, after, split, rest⟩ := newest_erases newest gone mem rfl
    have written : ∀ e' ∈ es, Older stamp (e.time stamp) e'.value := by
      intro e' he'
      rcases lt_or_eq_of_le (newest e' he') with older | same
      · exact older_value older
      · rw [(newest_erases newest gone he' same).1]
        exact older_none
    have again : Older stamp (e.time stamp) (play stamp (play stamp held es) before) :=
      play_older gone fun e' he' => written e' (by rw [split]; exact List.mem_append_left _ he')
    calc play stamp (play stamp held es) es
        = play stamp (enter stamp (play stamp (play stamp held es) before) e) after := by
          conv_lhs => rw [split, play_append, ← split]
          rfl
      _ = play stamp none after := by rw [enter_newer again, erases]
      _ = play stamp held es := rest.symm
  · simp only [Older, not_forall, not_lt] at gone
    obtain ⟨a, held', newer⟩ := gone
    rw [held']
    exact play_newest fun e' he' => (newest e' he').trans newer

/-- Whatever the order, a write that is newer than all other entries is what is held at the end. -/
theorem play_newest_write (mem : .write a ∈ es) (distinct : (es.map (Entry.time stamp)).Nodup)
    (newest : ∀ e ∈ es, e.time stamp ≤ stamp a) : play stamp none es = some a := by
  obtain ⟨before, after, rfl⟩ := List.append_of_mem mem
  have older : Older stamp (stamp a) (play stamp none before) := by
    apply play_older older_none
    intro e he
    apply older_value
    apply lt_of_le_of_ne (newest e (List.mem_append_left _ he))
    intro same
    rw [List.map_append, List.map_cons, List.nodup_append] at distinct
    exact distinct.2.2 _ (List.mem_map_of_mem he) _ List.mem_cons_self same
  rw [play_append]
  show play stamp (enter stamp (play stamp none before) (.write a)) after = some a
  rw [enter_newer older]
  exact play_newest fun e he => newest e (List.mem_append_right _ (List.mem_cons_of_mem _ he))

/-- Entries that come in the order of their times all take effect. -/
theorem play_increasing (increasing : es.Pairwise fun e e' => e.time stamp < e'.time stamp) :
    play stamp none es = es.getLast?.bind Entry.value := by
  rcases List.eq_nil_or_concat es with rfl | ⟨before, e, rfl⟩
  · rfl
  rw [List.concat_eq_append, List.pairwise_append] at increasing
  have older : Older stamp (e.time stamp) (play stamp none before) :=
    play_older older_none fun e' he' => older_value (increasing.2.2 e' he' e (List.mem_singleton_self e))
  rw [List.concat_eq_append, List.getLast?_append, play_append]
  exact enter_newer older

/-- Erasures alone leave nothing. -/
theorem play_erasures (h : ∀ e ∈ es, e.value = none) : play stamp none es = none := by
  induction es with
  | nil => rfl
  | cons e es ih =>
    show play stamp e.value es = none
    rw [h e List.mem_cons_self]
    exact ih fun e' he' => h e' (List.mem_cons_of_mem _ he')

end

end Rocketcycle.Register
