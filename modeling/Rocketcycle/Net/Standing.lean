import Rocketcycle.Net.Sound

/-!
# What every message keeps

A property of where a message stands, that is of the steps behind it, of its current step and of
those ahead, holds along a run if submissions have it and whatever arrives from a consumer has it
once the message that it has read does.
-/

namespace Rocketcycle

open Command Runs

variable {M : Type}

/-- Every message in flight is well formed, and `I` holds of its transaction's id and of where it stands. -/
def Standing (d : Deployment M) (I : String → List Step → Step → List Step → Prop) (net : Net M) : Prop :=
  ∀ m ∈ net.inFlight, ∃ done cur ahead, Sent d net.next m done cur ahead ∧ I m.2.txn.id done cur ahead

/-- Submissions have `I`, and so has what a message with `I` leads to, as long as what happens is `ok`. -/
structure Maintained (d : Deployment M) (ok : Action M → Prop) (I : String → List Step → Step → List Step → Prop) :
    Prop where
  submitted : ∀ {env : Env} {traceParent : String} {txn : Txn} {respTarget : Option TopicTarget} {p : Publication}
    {steps : List Step} {rtxn : ApecsTxn} {cur : Step} {rest : List Step}, ok (.submit env traceParent txn respTarget) →
    Submitted env traceParent txn p steps rtxn cur rest →
    I (traceIdFromTraceParent traceParent) [] (wireStep cur) (rest.map wireStep)
  arrives : ∀ {net : Net M} {tp : TopicPartition} {env : Env} {logic : LogicHandler M} {p : Publication}
    {done : List Step} {cur : Step} {ahead : List Step} {m : TopicPartition × Publication} {done' : List Step}
    {cur' : Step} {ahead' : List Step}, ok (.consume tp env logic) → Sent d net.next (tp, p) done cur ahead →
    I p.txn.id done cur ahead →
    Arrival d net tp env logic p done cur ahead (d.outcome net tp env logic p) m done' cur' ahead' →
    I m.2.txn.id done' cur' ahead'

section
variable {d : Deployment M} {ok : Action M → Prop} {I : String → List Step → Step → List Step → Prop} {net net' : Net M}

theorem Standing.sound (h : Standing d I net) : Sound d net := by
  intro m hm
  obtain ⟨done, cur, ahead, sent, -⟩ := h m hm
  exact ⟨done, cur, ahead, sent⟩

theorem standing_idle (idle : net.inFlight = []) : Standing d I net := by
  intro m hm
  rw [idle] at hm
  cases hm

/-- `I` holds where a message stands, wherever it is found to stand. -/
theorem Standing.at (h : Standing d I net) {m : TopicPartition × Publication} (hm : m ∈ net.inFlight)
    {next : TopicPartition → Nat} {done ahead : List Step} {cur : Step} (sent : Sent d next m done cur ahead) :
    I m.2.txn.id done cur ahead := by
  obtain ⟨done', cur', ahead', sent', held⟩ := h m hm
  obtain ⟨rfl, rfl, rfl⟩ := sent.unique sent'
  exact held

theorem submit_delivered {env : Env} {traceParent : String} {txn : Txn} {respTarget : Option TopicTarget}
    (hs : d.step net (.submit env traceParent txn respTarget) = some net') : ∃ p, Delivered d net [p] net' := by
  simp only [Deployment.step] at hs
  split at hs
  · cases hs
  · exact ⟨_, deliver_some hs⟩

/-- A submission adds one message. -/
theorem Standing.submit (h : Standing d I net) {env : Env} {traceParent : String} {txn : Txn} {respTarget : Option TopicTarget}
    (hs : d.step net (.submit env traceParent txn respTarget) = some net')
    (submitted : ∀ {p steps rtxn cur rest}, Submitted env traceParent txn p steps rtxn cur rest →
      I (traceIdFromTraceParent traceParent) [] (wireStep cur) (rest.map wireStep)) : Standing d I net' := by
  intro m hm
  obtain ⟨done, cur, ahead, sent⟩ := h.sound.step hs m hm
  refine ⟨done, cur, ahead, sent, ?_⟩
  simp only [Deployment.step] at hs
  split at hs
  · cases hs
  rename_i p hp
  obtain ⟨steps, rtxn, first, rest, starts⟩ := executeTxnAsync_ok hp
  have delivered := deliver_some hs
  rw [delivered.inFlight, List.mem_append] at hm
  rcases hm with hm | hm
  · exact h.at hm sent
  · have arrives := starts.publishes.arrival (d := d)
    simp only [List.filterMap_cons, List.filterMap_nil, arrives, List.mem_singleton] at hm
    subst hm
    obtain ⟨fits, topic⟩ := delivered.arrived p (List.mem_singleton_self _) _ arrives
    have atFirst : Sent d net.next (d.partitionOf first.concern first.system p.hashKey, p) [] (wireStep first)
        (rest.map wireStep) := .submit starts fits topic
    obtain ⟨rfl, rfl, rfl⟩ := sent.unique atFirst
    have id : p.txn.id = traceIdFromTraceParent traceParent := by
      rw [starts.publishes.sent]
      exact starts.txnId
    rw [id]
    exact submitted starts

/-- What a consumer reads is left by what it publishes. -/
theorem Standing.consume (h : Standing d I net) {tp : TopicPartition} {env : Env} {logic : LogicHandler M} {p : Publication}
    {before after : List (TopicPartition × Publication)} {done ahead : List Step} {cur : Step}
    (consumed : Consumed d net tp env logic net' p before after done cur ahead)
    (arrives : ∀ {m done' cur' ahead'}, I p.txn.id done cur ahead →
      Arrival d net tp env logic p done cur ahead (d.outcome net tp env logic p) m done' cur' ahead' →
      I m.2.txn.id done' cur' ahead') : Standing d I net' := by
  have held : I p.txn.id done cur ahead := h.at (by rw [consumed.split]; simp) consumed.sent
  intro m hm
  rcases consumed.inFlight consumed.next_le consumed.next_lt hm with hm | ⟨done', cur', ahead', arrival, sent⟩
  · obtain ⟨done', cur', ahead', sent, held'⟩ := h m hm
    exact ⟨done', cur', ahead', sent.mono consumed.next_le, held'⟩
  · exact ⟨done', cur', ahead', sent, arrives held arrival⟩

theorem Standing.step (kept : Maintained d ok I) (h : Standing d I net) {a : Action M} (allowed : ok a)
    (hs : d.step net a = some net') : Standing d I net' := by
  cases a with
  | submit => exact h.submit hs (kept.submitted allowed)
  | consume tp env logic =>
    obtain ⟨p, before, after, done, cur, ahead, consumed⟩ := consume_fate h.sound hs
    exact h.consume consumed (kept.arrives allowed consumed.sent)

theorem Standing.run (kept : Maintained d ok I) (h : Standing d I net) {tr : List (Net M × Action M)}
    (run : Path d.step net tr net') (allowed : ∀ e ∈ tr, ok e.2) : Standing d I net' :=
  run.invariant (Standing d I) (fun _ a => ok a) h (fun _ _ _ allowed held hs => held.step kept allowed hs) allowed

/-- Along a run that starts with nothing in flight, `I` holds wherever a message stands. -/
theorem Standing.read (kept : Maintained d ok I) (idle : net.inFlight = []) {tr : List (Net M × Action M)}
    (run : Path d.step net tr net') (allowed : ∀ e ∈ tr, ok e.2) {e : Net M × Action M} (he : e ∈ tr) :
    Standing d I e.1 ∧ ∃ after, d.step e.1 e.2 = some after := by
  obtain ⟨front, back, rfl⟩ := List.append_of_mem he
  obtain ⟨first, after, hstep, -⟩ := run.split
  refine ⟨(standing_idle idle).run kept first fun e' he' => ?_, after, hstep⟩
  exact allowed e' (List.mem_append_left _ he')

end

/-- The calls of `handleCommand` in a run. -/
def Deployment.calls (d : Deployment M) (tr : List (Net M × Action M)) : List Call :=
  tr.filterMap fun e => (d.called e.1 e.2).map Prod.fst

/-! ## The commands of added steps -/

section
variable {env : Env} {pb : RelatedCodecs} {cnc : Concern M} {logic : LogicHandler M} {args : StepArgs}
  {rslt : Option StepResult} {adds : List Step}

/-- The commands of the steps that handlers add, apart from those that hand on their own command. -/
def addedCommands : List String := [read, refreshInstance, flushInstance, requestRelated, refreshRelated]

theorem logicEffect_commands {command : String} {store store' : InstanceStore}
    (h : LogicEffect env pb cnc logic command args store rslt adds store') :
    ∀ s ∈ adds, s.command = command ∨ s.command ∈ addedCommands := by
  cases h with
  | update _ cmd => simp [toStorage, cmd]
  | delete _ cmd => simp [toStorage, cmd]
  | requestRelated => simp [addedCommands]
  | changed _ _ _ _ _ _ _ _ _ _ _ _ _ _ _ _ _ _ _ _ refreshes =>
    intro s hs
    obtain ⟨-, -, -, refresh | ⟨isRead, -⟩⟩ := refreshes s hs
    · exact .inr (by simp [addedCommands, refresh])
    · exact .inr (by simp [addedCommands, isRead])
  | _ => simp

theorem storageEffect_commands {command : String} {db db' : RamDb M}
    (h : StorageEffect env pb cnc command args db rslt adds db') : ∀ s ∈ adds, s.command ∈ addedCommands := by
  cases h with
  | create _ _ _ _ _ _ _ _ _ _ _ _ requests =>
    intro s hs
    rcases List.mem_cons.1 hs with rfl | hs
    · simp [Crud.refreshStep, addedCommands]
    · simp [(requestRelatedSteps_all requests s hs).2.2.2, addedCommands]
  | read => simp [Crud.refreshStep, addedCommands]
  | update => simp [Crud.refreshStep, addedCommands]
  | delete => simp [Crud.flushStep, addedCommands]
  | _ => simp

/-- A step that is added has the command of the one it is added by, or one of a few. -/
theorem commandEffect_commands {cc : ClientCode M} {stgTgt : StorageTarget} {call : Call} {plat plat' : Platform M}
    (h : CommandEffect cc env logic stgTgt call plat rslt adds plat') :
    ∀ s ∈ adds, s.command = call.command ∨ s.command ∈ addedCommands := by
  cases h with
  | refused _ none => simp [none]
  | storageScnd _ _ _ _ none => simp [none]
  | process cnc store' concern system effect => exact logicEffect_commands effect
  | storage cnc db' concern system effect => exact fun s hs => .inr (storageEffect_commands effect s hs)

end

end Rocketcycle
