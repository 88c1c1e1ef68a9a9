import Rocketcycle.Net.Quiescence

/-!
# One writer for each instance

Every command on an instance is run by the consumer that its key is routed to, in the order of its
topic. So an instance has one cache, whatever is in it is older than the command that runs, and no
write to a cache is ever dropped as out of order. A consumer that ends itself is started again, with an
empty cache; that a process crashes and messages are read again is no step of these runs.
-/

namespace Rocketcycle

open Command Runs

variable {M : Type}

/-- The call is one of a process command on the instance. A validation of a creation has no instance yet. -/
structure Call.WorksOn (call : Call) (concern key : String) : Prop where
  process : call.system = .process
  instanced : call.command ≠ validateCreate
  concern : call.concern = concern
  key : call.args.key = key

/-- The calls on an instance in a run. -/
structure Deployment.OneWriter (d : Deployment M) (concern key : String) (tr : List (Net M × Action M)) : Prop where
  owner : ∀ e ∈ tr, ∀ call rslt, d.called e.1 e.2 = some (call, rslt) → call.WorksOn concern key →
    ∃ env logic, e.2 = .consume (d.ownerOf concern key) env logic
  /-- Nobody else has the instance cached. -/
  alone : ∀ e ∈ tr, ∀ tp, tp.concern = concern → tp ≠ d.ownerOf concern key → e.1.stores tp key = none
  ordered : ∀ (i j : ℕ) e e' call call' rslt rslt', tr[i]? = some e → tr[j]? = some e' → i < j →
    d.called e.1 e.2 = some (call, rslt) → d.called e'.1 e'.2 = some (call', rslt') → call.WorksOn concern key →
    call'.WorksOn concern key → offsetGT call'.args.cmpdOffset call.args.cmpdOffset = true
  /-- What is cached gives way to whatever the command writes. -/
  newest : ∀ e ∈ tr, ∀ call rslt, d.called e.1 e.2 = some (call, rslt) → call.WorksOn concern key →
    ∀ k rec, e.1.stores (d.ownerOf concern key) k = some rec → offsetGT call.args.cmpdOffset rec.cmpdOffset = true

section
variable {d : Deployment M} {net net' : Net M} {a : Action M} {call : Call} {rslt : Option StepResult} {concern key : String}

/-- A call on an instance is made by its consumer, at the offset of the message. -/
theorem Call.WorksOn.at_owner (works : call.WorksOn concern key) (sound : Sound d net) (hs : d.step net a = some net')
    (called : d.called net a = some (call, rslt)) :
    (∃ env logic, a = .consume (d.ownerOf concern key) env logic) ∧
      call.args.cmpdOffset = d.offset net (d.ownerOf concern key) ∧
      net'.next (d.ownerOf concern key) = net.next (d.ownerOf concern key) + 1 := by
  obtain ⟨tp, env, logic, p, before, after, done, cur, ahead, adds, rfl, consumed, handled⟩ := called_handled sound hs called
  have process : cur.system = .process := handled.callFor.system.symm.trans works.process
  have keyed : cur.isKeylessStep = false := by
    have instanced := works.instanced
    rw [handled.callFor.command] at instanced
    simp [Step.isKeylessStep, process, instanced]
  have owner := consumed.sent.at_owner process keyed
  rw [← handled.callFor.key, works.key, ← consumed.sent.concern, ← handled.callFor.concern, works.concern] at owner
  subst owner
  refine ⟨⟨env, logic, rfl⟩, handled.process_offset process, ?_⟩
  rcases consumed.offsets with ⟨bails, -⟩ | ⟨-, next⟩
  · rw [consumed.stays rfl] at bails
    cases bails
  · rw [next]
    simp [readNext]

variable {net₀ : Net M} {tr : List (Net M × Action M)}

/-- In every run, whatever is submitted and in whatever order messages are read. -/
theorem one_writer (start : d.Orderly net₀) (home : d.AtHome net₀) (run : Path d.step net₀ tr net) (concern key : String) :
    d.OneWriter concern key tr := by
  have reached : ∀ e ∈ tr, d.Orderly e.1 ∧ d.AtHome e.1 ∧ ∃ after, d.step e.1 e.2 = some after := by
    intro e he
    obtain ⟨front, back, rfl⟩ := List.append_of_mem he
    obtain ⟨first, after, hs, -⟩ := run.split
    exact ⟨start.run first, home.run start.sound first, after, hs⟩
  constructor
  · intro e he call rslt called works
    obtain ⟨orderly, -, after, hs⟩ := reached e he
    exact (works.at_owner orderly.sound hs called).1
  · intro e he tp same other
    cases found : e.1.stores tp key with
    | none => rfl
    | some rec =>
      have owner := (reached e he).2.1 tp key rec found
      rw [same] at owner
      exact absurd owner other
  · intro i j e e' call call' rslt rslt' hi hj lt called called' works works'
    obtain ⟨first, s', mid, s'', hs, between, hs', -⟩ := run.pair hi hj lt
    have orderly : d.Orderly e.1 := start.run first
    have later : d.Orderly s' := orderly.step hs
    obtain ⟨-, offset, next⟩ := works.at_owner orderly.sound hs called
    obtain ⟨-, offset', -⟩ := works'.at_owner (later.run between).sound hs' called'
    have grows := run_next later.sound between (d.ownerOf concern key)
    rw [offset, offset', Deployment.offset, Deployment.offset, offsetGT_same]
    omega
  · intro e he call rslt called works k rec found
    obtain ⟨orderly, -, after, hs⟩ := reached e he
    obtain ⟨-, offset, -⟩ := works.at_owner orderly.sound hs called
    rw [offset]
    exact orderly.older _ rfl k rec found

end

theorem knownPlayer_atHome : Deployment.single.AtHome knownPlayer := by
  intro tp key rec found
  simp only [knownPlayer, Net.sample] at found
  split at found
  · rename_i here
    rw [here.1, here.2]
    decide +kernel
  · cases found

theorem one_writer_twoSets :
    Deployment.single.OneWriter "Player" "k" (trace Deployment.single.step knownPlayer twoSets) :=
  one_writer knownPlayer_orderly knownPlayer_atHome (path_after twoSets_taken) "Player" "k"

end Rocketcycle
