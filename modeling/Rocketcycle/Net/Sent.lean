import Rocketcycle.Net.Delivery

/-!
# Messages in flight

What holds of every message that waits for its consumer (`Sent`): it stands at a step of the
partition's concern and system, is where its key is routed to, and what lies behind and ahead of
that step has the form the platform gives it.
-/

namespace Rocketcycle

open Command

variable {M : Type}

/-- The steps ahead are process steps, except that a `CREATE` on storage follows its validation. -/
inductive Plan : List Step → Prop
  | nil : Plan []
  | process {s : Step} {rest : List Step} (system : s.system = .process) (h : Plan rest) : Plan (s :: rest)
  | creation {v c : Step} {rest : List Step} (validates : v.system = .process ∧ v.command = validateCreate)
      (creates : c.system = .storage ∧ c.command = create) (concern : c.concern = v.concern)
      (offset : c.cmpdOffset = none) (h : Plan rest) : Plan (v :: c :: rest)

theorem Plan.append {steps rest : List Step} (hs : ∀ s ∈ steps, s.system = .process) (h : Plan rest) :
    Plan (steps ++ rest) := by
  induction steps with
  | nil => exact h
  | cons s steps ih =>
    apply Plan.process (hs s List.mem_cons_self)
    exact ih fun s' hs' => hs s' (List.mem_cons_of_mem _ hs')

theorem Plan.concat {steps rest : List Step} (hs : Plan steps) (h : Plan rest) : Plan (steps ++ rest) := by
  induction hs with
  | nil => exact h
  | process system _ ih => exact .process system ih
  | creation validates creates concern offset _ ih => exact .creation validates creates concern offset ih

theorem Plan.wire {steps : List Step} (h : Plan steps) : Plan (steps.map wireStep) := by
  induction h with
  | nil => exact .nil
  | process system _ ih => exact .process system ih
  | creation validates creates concern offset _ ih => exact .creation validates creates concern offset ih

/-- What follows the first step of a plan: the rest of it, or the creation that was validated. -/
theorem Plan.tail {s : Step} {rest : List Step} (h : Plan (s :: rest)) :
    Plan rest ∨ ∃ c rest', rest = c :: rest' ∧ s.command = validateCreate ∧
      (c.system = .storage ∧ c.command = create) ∧ c.concern = s.concern ∧ c.cmpdOffset = none ∧ Plan rest' := by
  cases h with
  | process _ h => exact .inl h
  | creation validates creates concern offset h => exact .inr ⟨_, _, rfl, validates.2, creates, concern, offset, h⟩

/-- What a plan says of its first step is not changed by giving it a key or a payload. -/
theorem Plan.congr {s s' : Step} {rest : List Step} (h : Plan (s :: rest)) (system : s'.system = s.system)
    (concern : s'.concern = s.concern) (command : s'.command = s.command) : Plan (s' :: rest) := by
  cases h with
  | process hs h => exact .process (system.trans hs) h
  | creation validates creates hconcern offset h =>
    exact .creation ⟨system.trans validates.1, command.trans validates.2⟩ creates (hconcern.trans concern.symm) offset h

theorem Plan.head {s : Step} {rest : List Step} (h : Plan (s :: rest)) : s.system = .process := by
  cases h with
  | process system _ => exact system
  | creation validates _ _ _ _ => exact validates.1

/-- No plan holds a secondary step. -/
theorem Plan.primary {steps : List Step} (h : Plan steps) : ∀ s ∈ steps, s.system ≠ .storageScnd := by
  induction h with
  | nil => simp
  | process system _ ih =>
    intro s hs
    rcases List.mem_cons.1 hs with rfl | hs
    · simp [system]
    · exact ih s hs
  | creation validates creates _ _ _ ih =>
    intro s hs
    rcases List.mem_cons.1 hs with rfl | hs
    · simp [validates.1]
    rcases List.mem_cons.1 hs with rfl | hs
    · simp [creates.1]
    · exact ih s hs

/-- The offset of a step is that of a message which the consumer of its concern has read. Only that
of a creation may have been read elsewhere than where the key is routed to. -/
def Step.Dated (d : Deployment M) (next : TopicPartition → Nat) (s : Step) : Prop :=
  ∃ p n : Nat, s.cmpdOffset = some ⟨d.generation s.concern .process, p, n⟩ ∧
    n < next ⟨s.concern, .process, p⟩ ∧
    (s.system ≠ .storageScnd → s.command ≠ create → s.command ≠ validateCreate →
      p = fnv64Hash (stringBytes s.key) (d.partitions s.concern .process))

theorem Step.Dated.mono {d : Deployment M} {next next' : TopicPartition → Nat} {s : Step} (h : s.Dated d next)
    (le : ∀ tp, next tp ≤ next' tp) : s.Dated d next' := by
  obtain ⟨p, n, ho, hn, hp⟩ := h
  exact ⟨p, n, ho, hn.trans_le (le _), hp⟩

theorem Step.Dated.wire {d : Deployment M} {next : TopicPartition → Nat} {s : Step} (h : s.Dated d next) :
    (wireStep s).Dated d next := h

/-- A message in flight that stands at `cur`. -/
structure Sent (d : Deployment M) (next : TopicPartition → Nat) (m : TopicPartition × Publication)
    (done : List Step) (cur : Step) (ahead : List Step) : Prop where
  logged : Logged m.2.txn done cur ahead
  concern : cur.concern = m.1.concern
  system : cur.system = m.1.system
  partition : m.1.partition = fnv64Hash m.2.hashKey (d.partitions m.1.concern m.1.system)
  hashKey : cur.isKeylessStep = false → m.2.hashKey = stringBytes cur.key
  valid : traceParentIsValid m.2.traceParent = true ∧ (RtApecsTxn.mk m.2.txn m.2.traceParent).validate = .ok ()
  fits : m.2.fits = true
  noReverse : m.2.txn.reverseSteps = []
  topic : 0 < d.partitions m.1.concern m.1.system
  /-- A step without a key of its own finds none in the result before it either. -/
  keyed : cur.key = "" → ∀ prev, done.getLast? = some prev → ∀ r, prev.result = some r → r.key = ""
  plan : if cur.system = .process then Plan (cur :: ahead) else Plan ahead
  dated : ∀ s ∈ done, s.Dated d next
  curDated : cur.system ≠ .process → cur.Dated d next
  /-- Generated transactions, the only ones on a secondary topic, have the one step. -/
  generated : m.2.txn.uponError = .bailout → done = [] ∧ ahead = [] ∧
    (cur.system = .storageScnd ∨ cur.system = .storage ∧ cur.command = updateAsync)
  secondary : cur.system = .storageScnd → done = [] ∧ ahead = []
  /-- A validation changes no instance. -/
  validations : ∀ s ∈ done, s.system = .process → s.command = create ∨ s.command = validateCreate →
    ∀ r, s.result = some r → r.inst = none

/-- Every message in flight is well formed. -/
def Sound (d : Deployment M) (net : Net M) : Prop :=
  ∀ m ∈ net.inFlight, ∃ done cur ahead, Sent d net.next m done cur ahead

theorem Sent.mono {d : Deployment M} {next next' : TopicPartition → Nat} {m : TopicPartition × Publication}
    {done ahead : List Step} {cur : Step} (h : Sent d next m done cur ahead) (le : ∀ tp, next tp ≤ next' tp) :
    Sent d next' m done cur ahead :=
  { h with
    dated := fun s hs => (h.dated s hs).mono le
    curDated := fun hc => (h.curDated hc).mono le }

/-- Where a message stands is determined by it. -/
theorem Sent.unique {d : Deployment M} {next next' : TopicPartition → Nat} {m : TopicPartition × Publication}
    {done done' ahead ahead' : List Step} {cur cur' : Step} (h : Sent d next m done cur ahead)
    (h' : Sent d next' m done' cur' ahead') : done = done' ∧ cur = cur' ∧ ahead = ahead' :=
  h.logged.stands.unique h'.logged.stands

/-- The payload of a step in flight is no longer than a message can be. -/
theorem Sent.small {d : Deployment M} {next : TopicPartition → Nat} {m : TopicPartition × Publication}
    {done ahead : List Step} {cur : Step} (h : Sent d next m done cur ahead) :
    (cur.payload.getD []).length < maxMessageBytes := by
  have fits : cur.fits = true := by
    have all := h.fits
    unfold Publication.fits at all
    rw [h.logged.stands.steps] at all
    exact List.all_eq_true.1 all cur (by simp)
  simp only [Step.fits, Bool.and_eq_true, decide_eq_true_eq] at fits
  exact fits.1.1.1

/-- The key a step runs under is its own. -/
theorem Sent.key {d : Deployment M} {next : TopicPartition → Nat} {m : TopicPartition × Publication}
    {done ahead : List Step} {cur : Step} (h : Sent d next m done cur ahead) {key : String}
    (hk : stepKey m.2.txn cur = .ok (some key)) : key = cur.key ∧ (cur.isKeylessStep = false → cur.key ≠ "") := by
  unfold stepKey at hk
  split at hk
  · rename_i hempty
    simp only [Bool.and_eq_true, decide_eq_true_eq, Bool.not_eq_true'] at hempty
    rw [h.logged.stands.previousStep] at hk
    cases hlast : done.getLast? with
    | none => rw [hlast] at hk; cases hk
    | some prev =>
      rw [hlast] at hk
      dsimp only at hk
      split at hk
      · rename_i r hr
        simp [h.keyed hempty.1 prev hlast r hr] at hk
      · cases hk
  · rename_i hown
    cases hk
    refine ⟨rfl, fun hkeyless hempty => hown ?_⟩
    simp [hempty, hkeyless]

/-- Publishing a step makes a message in flight. -/
theorem Publishes.inFlight {d : Deployment M} {next : TopicPartition → Nat} {env : Env} {txn : ApecsTxn}
    {traceParent : String} {cur : Step} {p : Publication} {done ahead : List Step}
    (h : Publishes env txn traceParent cur p) (logged : Logged txn done cur ahead) (fits : p.fits = true)
    (noReverse : txn.reverseSteps = [])
    (topic : 0 < d.partitions cur.concern cur.system)
    (keyed : cur.key = "" → ∀ prev, done.getLast? = some prev → ∀ r, prev.result = some r → r.key = "")
    (plan : if cur.system = .process then Plan (cur :: ahead) else Plan ahead)
    (dated : ∀ s ∈ done, s.Dated d next) (curDated : cur.system ≠ .process → cur.Dated d next)
    (generated : txn.uponError = .bailout → done = [] ∧ ahead = [] ∧
      (cur.system = .storageScnd ∨ cur.system = .storage ∧ cur.command = updateAsync))
    (secondary : cur.system = .storageScnd → done = [] ∧ ahead = [])
    (validations : ∀ s ∈ done, s.system = .process → s.command = create ∨ s.command = validateCreate →
      ∀ r, s.result = some r → r.inst = none) :
    Sent d next (d.partitionOf cur.concern cur.system p.hashKey, p) (done.map wireStep) (wireStep cur)
      (ahead.map wireStep) where
  logged := h.sent ▸ logged.wire
  concern := rfl
  system := rfl
  partition := rfl
  hashKey := by
    intro hk
    rw [h.hashKey, if_neg]
    · rfl
    · simpa using hk
  valid := by
    rw [h.sent, h.parent]
    exact ⟨h.valid.1, validate_wire logged.stands.direction h.valid.2⟩
  fits := fits
  noReverse := by simp [h.sent, wireTxn, noReverse]
  topic := topic
  keyed := by
    intro hempty prev hprev r hr
    rw [List.getLast?_map, Option.map_eq_some_iff] at hprev
    obtain ⟨prev', hprev', rfl⟩ := hprev
    rw [wireStep_result, Option.map_eq_some_iff] at hr
    obtain ⟨r', hr', rfl⟩ := hr
    exact keyed hempty prev' hprev' r' hr'
  plan := by
    rw [wireStep_system]
    split
    · rename_i hp
      rw [if_pos hp] at plan
      exact plan.wire
    · rename_i hp
      rw [if_neg hp] at plan
      exact plan.wire
  dated := by
    intro s hs
    obtain ⟨s', hs', rfl⟩ := List.mem_map.1 hs
    exact (dated s' hs').wire
  curDated := fun hc => (curDated hc).wire
  generated := by
    intro hb
    rw [h.sent] at hb
    obtain ⟨hd, ha, hc⟩ := generated hb
    exact ⟨by simp [hd], by simp [ha], hc⟩
  secondary := by
    intro hs
    obtain ⟨hd, ha⟩ := secondary hs
    exact ⟨by simp [hd], by simp [ha]⟩
  validations := by
    intro s hs hp hc r hr
    obtain ⟨s', hs', rfl⟩ := List.mem_map.1 hs
    rw [wireStep_result, Option.map_eq_some_iff] at hr
    obtain ⟨r', hr', rfl⟩ := hr
    simp [validations s' hs' hp hc r' hr']

end Rocketcycle
