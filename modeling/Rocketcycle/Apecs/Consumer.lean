import Rocketcycle.Apecs.Runner
import Rocketcycle.Lib.Runs

/-!
# Consumers and their committed offsets

The loop of `consumeApecsTopic`, for the consumers that the storage targets run on one
partition. Each consumer has a position and stored offsets of its own; what is committed belongs
to its group, and the group name leaves the storage target out on a `storage-scnd` topic. Offset
storing and committing are manual (`NewConsumer` turns both automatisms off); a consumer that is
assigned without a committed offset starts at the end of the log.
-/

namespace Rocketcycle

open Runs

def groupName (system : System) (fullTopic storageTarget : String) : String :=
  if system = .storage then s!"rkcy_apecs_{fullTopic}_{storageTarget}" else s!"rkcy_apecs_{fullTopic}"

/-- A running consumer. `stored` is the offset of `StoreOffsets`, read by `Commit` only. -/
structure TargetConsumer where
  position : Nat
  stored : Nat
  firstMessage : Bool
  shouldCommit : Bool
  deriving DecidableEq, Repr

/-- The partition and everybody on it: offsets committed by group, consumers by storage target,
and which target has executed which message to a code that does not bail out. -/
structure PartitionState where
  logEnd : Nat
  committed : String → Option Nat
  running : String → Option TargetConsumer
  executed : String → Nat → Bool

inductive ConsumerAction where
  | publish
  | assign (target : String)
  /-- The message is read and `advanceApecsTxn` returns this code. -/
  | message (target : String) (code : Code)
  | commitTick (target : String)
  /-- `ctx.Done`, with the deferred commit. -/
  | stop (target : String)
  | crash (target : String)
  deriving DecidableEq, Repr

section
variable {α : Type}

/-- Assignment to one key of a map. -/
def setAt (m : String → α) (key : String) (v : α) : String → α := fun k => if k = key then v else m k

@[simp] theorem setAt_self (m : String → α) (key : String) (v : α) : setAt m key v key = v := by
  simp [setAt]

theorem setAt_ne {m : String → α} {key k : String} {v : α} (h : k ≠ key) : setAt m key v k = m k := by
  simp [setAt, h]

end

/-- The partition of a topic. -/
structure ConsumedTopic where
  system : System
  fullTopic : String

namespace ConsumedTopic

variable (t : ConsumedTopic)

def group (target : String) : String := groupName t.system t.fullTopic target

/-- Where a consumer assigned at `OffsetStored` starts. -/
def resumeAt (st : PartitionState) (target : String) : Nat :=
  (st.committed (t.group target)).getD st.logEnd

/-- `cons.Commit`, if there is something stored since the last one. -/
def commit (st : PartitionState) (target : String) (c : TargetConsumer) : PartitionState :=
  if c.shouldCommit then
    { st with committed := setAt st.committed (t.group target) (some c.stored) }
  else st

def step (st : PartitionState) : ConsumerAction → Option PartitionState
  | .publish => some { st with logEnd := st.logEnd + 1 }
  | .assign target =>
    match st.running target with
    | some _ => none
    | none =>
      some { st with running := setAt st.running target (some ⟨t.resumeAt st target, 0, true, false⟩) }
  | .message target code =>
    match st.running target with
    | none => none
    | some c =>
      if c.position < st.logEnd then
        -- the first message read is committed at once, so that a restart does not start at the end
        let st := if c.firstMessage then
            { st with committed := setAt st.committed (t.group target) (some c.position) } else st
        if isBailoutableCode code then
          -- the transactions of a secondary topic are all generated to bail out
          let st := { st with committed := setAt st.committed (t.group target) (some c.position) }
          some { t.commit st target c with running := setAt st.running target none }
        else
          some { st with
            executed := setAt st.executed target (fun o => if o = c.position then true else st.executed target o),
            running := setAt st.running target (some ⟨c.position + 1, c.position + 1, false, true⟩) }
      else none
  | .commitTick target =>
    match st.running target with
    | none => none
    | some c =>
      some { t.commit st target c with running := setAt st.running target (some { c with shouldCommit := false }) }
  | .stop target =>
    match st.running target with
    | none => none
    | some c => some { t.commit st target c with running := setAt st.running target none }
  | .crash target =>
    match st.running target with
    | none => none
    | some _ => some { st with running := setAt st.running target none }

end ConsumedTopic

/-- No consumer has a message behind it that its target has not executed. -/
def NoSkip (st : PartitionState) : Prop :=
  ∀ target c, st.running target = some c → ∀ o < c.position, st.executed target o = true

/-- A consumer that is assigned resumes at or before the first message that its target has not
executed. -/
def ResumesInTime (t : ConsumedTopic) (st : PartitionState) (a : ConsumerAction) : Prop :=
  ∀ target, a = .assign target → ∀ o < t.resumeAt st target, st.executed target o = true

section
variable {t : ConsumedTopic} {st st' : PartitionState} {a : ConsumerAction}

@[simp] theorem commit_running (target : String) (c : TargetConsumer) :
    (t.commit st target c).running = st.running := by unfold ConsumedTopic.commit; split <;> rfl
@[simp] theorem commit_executed (target : String) (c : TargetConsumer) :
    (t.commit st target c).executed = st.executed := by unfold ConsumedTopic.commit; split <;> rfl
@[simp] theorem commit_logEnd (target : String) (c : TargetConsumer) :
    (t.commit st target c).logEnd = st.logEnd := by unfold ConsumedTopic.commit; split <;> rfl

/-- Everything a step does to the consumers and to what they have executed: a consumer is
assigned, or executes the message at its position, or keeps its position or goes away. -/
theorem consumer_step_cases (h : t.step st a = some st') :
    (∃ target, a = .assign target ∧ st'.executed = st.executed ∧
      st'.running = setAt st.running target (some ⟨t.resumeAt st target, 0, true, false⟩)) ∨
    ((∀ target, a ≠ .assign target) ∧
      ((st'.running = st.running ∧ st'.executed = st.executed) ∨
        ∃ target c, st.running target = some c ∧
          ((st'.running = setAt st.running target (some ⟨c.position + 1, c.position + 1, false, true⟩) ∧
              st'.executed = setAt st.executed target
                (fun o => if o = c.position then true else st.executed target o)) ∨
            (st'.executed = st.executed ∧ ∃ c', st'.running = setAt st.running target c' ∧
              ∀ c'', c' = some c'' → c''.position = c.position)))) := by
  cases a with
  | publish => cases h; exact .inr ⟨by simp, .inl ⟨rfl, rfl⟩⟩
  | assign target =>
    simp only [ConsumedTopic.step] at h
    split at h
    · cases h
    · cases h
      exact .inl ⟨target, rfl, rfl, rfl⟩
  | message target code =>
    simp only [ConsumedTopic.step] at h
    split at h
    · cases h
    rename_i c hr
    split at h
    · refine .inr ⟨by simp, .inr ⟨target, c, hr, ?_⟩⟩
      split at h
      · cases h
        refine .inr ⟨?_, none, ?_, by simp⟩
        · simp only [commit_executed]
          split <;> rfl
        · dsimp only
          split <;> rfl
      · cases h
        apply Or.inl
        constructor <;> (dsimp only; split <;> rfl)
    · cases h
  | commitTick target =>
    simp only [ConsumedTopic.step] at h
    split at h
    · cases h
    · rename_i c hr
      cases h
      refine .inr ⟨by simp, .inr ⟨target, c, hr, .inr ⟨by simp, _, rfl, ?_⟩⟩⟩
      rintro c'' ⟨⟩
      rfl
  | stop target =>
    simp only [ConsumedTopic.step] at h
    split at h
    · cases h
    · rename_i c hr
      cases h
      exact .inr ⟨by simp, .inr ⟨target, c, hr, .inr ⟨by simp, none, rfl, by simp⟩⟩⟩
  | crash target =>
    simp only [ConsumedTopic.step] at h
    split at h
    · cases h
    · rename_i c hr
      cases h
      exact .inr ⟨by simp, .inr ⟨target, c, hr, .inr ⟨rfl, none, rfl, by simp⟩⟩⟩

/-- Only an assignment can bring a message that has not been executed behind a consumer, and it
does exactly if it resumes too late. -/
theorem noSkip_step (h : NoSkip st) (hs : t.step st a = some st') : ResumesInTime t st a ↔ NoSkip st' := by
  rcases consumer_step_cases hs with ⟨target, rfl, he, hr⟩ | ⟨hne, kept⟩
  · constructor
    · intro ok target' c hc o ho
      rw [he]
      rw [hr] at hc
      by_cases e : target' = target
      · subst e
        rw [setAt_self] at hc
        cases hc
        exact ok target' rfl o ho
      · rw [setAt_ne e] at hc
        exact h target' c hc o ho
    · rintro ok target' heq o ho
      cases heq
      have := ok target _ (by rw [hr, setAt_self]) o ho
      rwa [he] at this
  · have keep : NoSkip st' := by
      intro target' c' hc o ho
      rcases kept with ⟨hr, he⟩ | ⟨target, c, hc0, ⟨hr, he⟩ | ⟨he, c1, hr, hpos⟩⟩
      · rw [hr] at hc
        rw [he]
        exact h target' c' hc o ho
      · rw [hr] at hc
        rw [he]
        by_cases e : target' = target
        · subst e
          rw [setAt_self] at hc ⊢
          cases hc
          by_cases eo : o = c.position
          · simp [eo]
          · simp only [eo, if_false]
            exact h target' c hc0 o (by dsimp only at ho; omega)
        · rw [setAt_ne e] at hc ⊢
          exact h target' c' hc o ho
      · rw [hr] at hc
        rw [he]
        by_cases e : target' = target
        · subst e
          rw [setAt_self] at hc
          exact h target' c hc0 o (hpos c' hc ▸ ho)
        · rw [setAt_ne e] at hc
          exact h target' c' hc o ho
    exact ⟨fun _ => keep, fun _ target he => absurd he (hne target)⟩

/-- In a run that starts without consumers no target skips a message exactly if every
assignment resumes in time. -/
theorem no_skip_iff_resumes_in_time {st₀ : PartitionState} {tr : List (PartitionState × ConsumerAction)}
    (idle : ∀ target, st₀.running target = none) (h : Path t.step st₀ tr st) :
    (∀ e ∈ tr, ResumesInTime t e.1 e.2) ↔ (∀ e ∈ tr, NoSkip e.1) ∧ NoSkip st := by
  apply h.forall_iff
  · intro target c hc
    rw [idle target] at hc
    cases hc
  · intro s a s' hskip hstep
    exact noSkip_step hskip hstep

end

/-- Two secondary targets on a partition. The second one bails out at the first message, the
first one commits past it, and the second one is restarted. -/
def laggingTarget : List ConsumerAction :=
  [.assign "a", .assign "b", .publish, .publish, .message "a" .ok, .message "b" .connection,
   .message "a" .ok, .commitTick "a", .assign "b"]

def freshPartition : PartitionState := ⟨0, fun _ => none, fun _ => none, fun _ _ => false⟩

def secondaryTopic : ConsumedTopic := ⟨.storageScnd, "rkcy.demo.test.player.storage-scnd.0001"⟩

/-- On a `storage-scnd` topic a lagging target is restarted behind a message that it has not
executed. -/
theorem lagging_target_skips :
    ∃ tr st, tr.map Prod.snd = laggingTarget ∧ Path secondaryTopic.step freshPartition tr st ∧ ¬NoSkip st := by
  have last : ((runs secondaryTopic.step freshPartition laggingTarget).bind fun st =>
      (st.running "b").map fun c => (c.position, st.executed "b" 0)) = some (2, false) := by
    decide +kernel
  cases hrun : runs secondaryTopic.step freshPartition laggingTarget with
  | none => rw [hrun] at last; cases last
  | some st =>
    rw [hrun] at last
    refine ⟨_, st, trace_actions hrun, path_of_runs hrun, fun h => ?_⟩
    cases hb : st.running "b" with
    | none => simp [hb] at last
    | some c =>
      simp only [Option.bind_some, hb, Option.map_some, Option.some.injEq, Prod.mk.injEq] at last
      have := h "b" c hb 0 (by omega)
      rw [last.2] at this
      cases this

theorem no_skip_iff_laggingTarget :
    ∃ (tr : List (PartitionState × ConsumerAction)) (st : PartitionState), tr.map Prod.snd = laggingTarget ∧
      ((∀ e ∈ tr, ResumesInTime secondaryTopic e.1 e.2) ↔ (∀ e ∈ tr, NoSkip e.1) ∧ NoSkip st) := by
  obtain ⟨st, hst⟩ : ∃ st, runs secondaryTopic.step freshPartition laggingTarget = some st := by
    rw [← Option.isSome_iff_exists]
    decide +kernel
  exact ⟨_, st, trace_actions hst, no_skip_iff_resumes_in_time (fun _ => rfl) (path_of_runs hst)⟩

/-! ## A group for every target -/

/-- What is committed for a target has been executed by it, and so has all that it would commit. -/
structure CommitsSound (t : ConsumedTopic) (st : PartitionState) : Prop where
  committed : ∀ target o, st.committed (t.group target) = some o → ∀ i < o, st.executed target i = true
  stored : ∀ target c, st.running target = some c → c.shouldCommit = true →
    ∀ i < c.stored, st.executed target i = true
  positions : NoSkip st

theorem group_injective {t : ConsumedTopic} (h : t.system = .storage) : Function.Injective t.group := by
  intro a b hab
  simp only [ConsumedTopic.group, groupName, h, if_true] at hab
  have chars : (toString a).toList = (toString b).toList := by simpa using congrArg String.toList hab
  exact String.toList_inj.1 chars

namespace CommitsSound

variable {t : ConsumedTopic} {st st' : PartitionState} {target : String}

theorem commitAt (inj : Function.Injective t.group) (h : CommitsSound t st) {o : Nat}
    (ho : ∀ i < o, st.executed target i = true) :
    CommitsSound t { st with committed := setAt st.committed (t.group target) (some o) } where
  committed := by
    intro target' o' hc
    dsimp only at hc ⊢
    by_cases e : target' = target
    · subst e
      rw [setAt_self] at hc
      cases hc
      exact ho
    · have ne : t.group target' ≠ t.group target := fun g => e (inj g)
      rw [setAt_ne ne] at hc
      exact h.committed target' o' hc
  stored := h.stored
  positions := h.positions

theorem commit (inj : Function.Injective t.group) (h : CommitsSound t st) {c : TargetConsumer}
    (hr : st.running target = some c) : CommitsSound t (t.commit st target c) := by
  unfold ConsumedTopic.commit
  split
  · rename_i hs
    exact h.commitAt inj (h.stored target c hr hs)
  · exact h

/-- A target whose consumer is gone, or starts anew or stays where it was. -/
theorem setRunning (h : CommitsSound t st) (target : String) (c' : Option TargetConsumer)
    (stored : ∀ c, c' = some c → c.shouldCommit = true → ∀ i < c.stored, st.executed target i = true)
    (position : ∀ c, c' = some c → ∀ i < c.position, st.executed target i = true) :
    CommitsSound t { st with running := setAt st.running target c' } where
  committed := h.committed
  stored := by
    intro target' c hc
    by_cases e : target' = target
    · subst e
      exact stored c (by simpa using hc)
    · exact h.stored target' c (by simpa [setAt_ne e] using hc)
  positions := by
    intro target' c hc
    by_cases e : target' = target
    · subst e
      exact position c (by simpa using hc)
    · exact h.positions target' c (by simpa [setAt_ne e] using hc)

/-- The first message of a target may commit the offset that it is at. -/
theorem firstCommit (inj : Function.Injective t.group) (h : CommitsSound t st) {c : TargetConsumer} (hr : st.running target = some c) :
    CommitsSound t (if c.firstMessage then
      { st with committed := setAt st.committed (t.group target) (some c.position) } else st) := by
  split
  · exact h.commitAt inj (h.positions target c hr)
  · exact h

/-- A message is executed. -/
theorem execute (h : CommitsSound t st) (target : String) (o : Nat) :
    CommitsSound t { st with executed := setAt st.executed target (fun i => if i = o then true else st.executed target i) } := by
  have grown : ∀ target' i, st.executed target' i = true →
      setAt st.executed target (fun i => if i = o then true else st.executed target i) target' i = true := by
    intro target' i hi
    by_cases e : target' = target
    · subst e
      rw [setAt_self]
      split
      · rfl
      · exact hi
    · rwa [setAt_ne e]
  exact ⟨fun target' o hc i hi => grown _ _ (h.committed target' o hc i hi),
    fun target' c' hc hsc i hi => grown _ _ (h.stored target' c' hc hsc i hi),
    fun target' c' hc i hi => grown _ _ (h.positions target' c' hc i hi)⟩

theorem step (inj : Function.Injective t.group) (h : CommitsSound t st) {a : ConsumerAction}
    (first : ∀ target, a = .assign target → st.committed (t.group target) = none →
      ∀ i < st.logEnd, st.executed target i = true)
    (hs : t.step st a = some st') : CommitsSound t st' := by
  cases a with
  | publish =>
    cases hs
    exact ⟨h.committed, h.stored, h.positions⟩
  | assign target =>
    simp only [ConsumedTopic.step] at hs
    split at hs
    · cases hs
    cases hs
    apply h.setRunning target
    · rintro c ⟨⟩ hc
      cases hc
    · rintro c ⟨⟩ i hi
      dsimp only [ConsumedTopic.resumeAt] at hi
      cases hc : st.committed (t.group target) with
      | none => exact first target rfl hc i (by simpa [hc] using hi)
      | some o => exact h.committed target o hc i (by simpa [hc] using hi)
  | message target code =>
    simp only [ConsumedTopic.step] at hs
    split at hs
    · cases hs
    rename_i c hr
    have behind : ∀ i < c.position, st.executed target i = true := h.positions target c hr
    split at hs
    swap
    · cases hs
    have initial := h.firstCommit inj hr
    have running : (if c.firstMessage then
        { st with committed := setAt st.committed (t.group target) (some c.position) } else st).running
        target = some c := by
      split <;> exact hr
    have executed : (if c.firstMessage then
        { st with committed := setAt st.committed (t.group target) (some c.position) } else st).executed =
        st.executed := by
      split <;> rfl
    revert hs
    generalize (if c.firstMessage then
        { st with committed := setAt st.committed (t.group target) (some c.position) } else st) = st1
      at initial running executed
    intro hs
    split at hs
    · -- bailed out: the offset of the message is committed, and the consumer is gone
      cases hs
      have again := initial.commitAt inj (o := c.position) (by rw [executed]; exact behind)
      have deferred := again.commit inj (c := c) running
      have gone := deferred.setRunning target none (by simp) (by simp)
      simpa using gone
    · cases hs
      have done : ∀ i < c.position + 1,
          setAt st1.executed target (fun o => if o = c.position then true else st1.executed target o) target i = true := by
        intro i hi
        rw [setAt_self]
        by_cases e : i = c.position
        · rw [if_pos e]
        · rw [if_neg e, executed]
          exact behind i (by omega)
      apply (initial.execute target c.position).setRunning target
      · rintro c' ⟨⟩ -
        exact done
      · rintro c' ⟨⟩
        exact done
  | commitTick target =>
    simp only [ConsumedTopic.step] at hs
    split at hs
    · cases hs
    rename_i c hr
    cases hs
    have committed := h.commit inj hr
    have kept := committed.setRunning target (some { c with shouldCommit := false })
      (by rintro _ ⟨⟩ hc; cases hc)
      (by rintro _ ⟨⟩; rw [commit_executed]; exact h.positions target c hr)
    simpa using kept
  | stop target =>
    simp only [ConsumedTopic.step] at hs
    split at hs
    · cases hs
    rename_i c hr
    cases hs
    have gone := (h.commit inj hr).setRunning target none (by simp) (by simp)
    simpa using gone
  | crash target =>
    simp only [ConsumedTopic.step] at hs
    split at hs
    · cases hs
    cases hs
    exact h.setRunning target none (by simp) (by simp)

end CommitsSound

/-- On a `storage` topic, where every target has its own group, no target skips a message: a
consumer resumes where its target was, once its first assignment has found nothing to skip. -/
theorem storage_never_skips {t : ConsumedTopic} {st₀ st : PartitionState}
    {tr : List (PartitionState × ConsumerAction)} (h : t.system = .storage) (sound : CommitsSound t st₀)
    (path : Path t.step st₀ tr st)
    (first : ∀ e ∈ tr, ∀ target, e.2 = .assign target → e.1.committed (t.group target) = none →
      ∀ i < e.1.logEnd, e.1.executed target i = true) : NoSkip st := by
  have all : CommitsSound t st := by
    apply path.invariant (CommitsSound t) (fun s a => ∀ target, a = .assign target → s.committed (t.group target) = none →
      ∀ i < s.logEnd, s.executed target i = true) sound _ first
    intro s a s' ok hsound hstep
    exact hsound.step (group_injective h) ok hstep
  exact all.positions

end Rocketcycle
