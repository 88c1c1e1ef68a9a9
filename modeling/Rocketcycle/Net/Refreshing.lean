import Rocketcycle.Concern.Readable
import Rocketcycle.Net.LastWriter
import Rocketcycle.Net.Standing

/-!
# What refreshes carry

Every refresh in flight has an instance of its concern packed into it, by the storage command that
has added it. So what the consumers of a concern have in their stores can be read.
-/

namespace Rocketcycle

open Command Runs

variable {M : Type}

def ClientCode.LosslessMessages (cc : ClientCode M) : Prop := ∀ cnc ∈ cc.concerns, cnc.LosslessMessages

theorem ClientCode.LosslessMessages.concern {cc : ClientCode M} (lossless : cc.LosslessMessages) {concern : String}
    {cnc : Concern M} (h : cc.concernHandler concern = some cnc) : cnc.LosslessMessages :=
  lossless cnc (List.mem_of_find?_eq_some h)

/-! ## The messages in flight -/

/-- A refresh carries an instance of its concern. -/
def Step.Refreshing (s : Step) (cc : ClientCode M) : Prop :=
  s.command = refreshInstance → ∀ cnc, cc.concernHandler s.concern = some cnc → cnc.Packs s.payload

/-- The last step is no validation. -/
def EndsWell (steps : List Step) : Prop :=
  ∀ s ∈ steps.getLast?, s.command ≠ validateCreate ∧ s.command ≠ validateUpdate

structure Refreshable (cc : ClientCode M) (id : String) (done : List Step) (cur : Step) (ahead : List Step) : Prop where
  refreshes : ∀ s ∈ cur :: ahead, s.Refreshing cc
  last : EndsWell (cur :: ahead)

section
variable {cc : ClientCode M} {env : Env} {logic : LogicHandler M} {stgTgt : StorageTarget} {call : Call}
  {plat plat' : Platform M} {rslt : Option StepResult} {adds : List Step}

theorem refreshing_other {s : Step} (other : s.command ≠ refreshInstance) : s.Refreshing cc :=
  fun h => absurd h other

theorem Step.Refreshing.wire {s : Step} (h : s.Refreshing cc) : (wireStep s).Refreshing cc :=
  fun command cnc concern => (h command cnc concern).wire

/-- The payload of a refresh is not replaced on its way. -/
theorem Step.Refreshing.next {step s : Step} {o : CompoundOffset} (h : s.Refreshing cc) :
    (nextStepOf step s o).Refreshing cc := by
  intro command cnc concern
  rw [nextStepOf_command] at command
  rw [nextStepOf_concern] at concern
  obtain kept | ⟨-, free, -⟩ := nextStepOf_payload step s o
  · rw [kept]
    exact h command cnc concern
  · rw [command] at free
    exact absurd free (by decide)

theorem refreshStep_refreshing {cnc : Concern M} {args : StepArgs} {concern key : String} {payload : Bytes}
    {instBytes relBytes : Option Bytes} {inst : M} (found : cc.concernHandler concern = some cnc)
    (packed : packPayloads instBytes relBytes = some payload) (parsed : cnc.unmarshalOpt instBytes = .ok inst) :
    (Crud.refreshStep cnc args key (some payload)).Refreshing cc := by
  intro _ cnc' same
  change cc.concernHandler cnc.name = some cnc' at same
  rw [ClientCode.concernHandler_name found, found] at same
  cases same
  have pack : packPayloads (some (instBytes.getD [])) relBytes = some payload := by
    rw [packPayloads_eq_some] at packed ⊢
    rcases instBytes with _ | b
    · exact ⟨rfl, packed.2.1, packed.2.2⟩
    · exact packed
  exact ⟨instBytes.getD [], relBytes, payload, inst, rfl, pack, parsed⟩

/-- The refreshes that a command adds carry what it has marshalled or parsed. -/
theorem commandEffect_refreshing (lossless : cc.LosslessMessages)
    (h : CommandEffect cc env logic stgTgt call plat rslt adds plat') : ∀ s ∈ adds, s.Refreshing cc := by
  have others : ∀ s ∈ adds, s.command ∈ [read, update, delete, flushInstance, requestRelated, refreshRelated] →
      s.Refreshing cc := by
    intro s _ command
    apply refreshing_other
    rintro same
    rw [same] at command
    exact absurd command (by decide)
  cases h with
  | refused _ none => simp [none]
  | storageScnd _ _ _ _ none => simp [none]
  | process cnc store' concern system effect =>
    intro s hs
    apply others s hs
    cases effect with
    | update _ cmd => simp_all [toStorage]
    | delete _ cmd => simp_all [toStorage]
    | requestRelated => simp_all
    | changed _ _ _ _ _ _ _ _ _ _ _ _ _ _ _ _ _ _ _ _ refreshes =>
      obtain ⟨-, -, -, refresh | ⟨isRead, -⟩⟩ := refreshes s hs
      · simp [refresh]
      · simp [isRead]
    | _ => cases hs
  | storage cnc db' concern system effect =>
    have messages := lossless.concern concern
    intro s hs
    cases effect with
    | create inst instBytes relBytes instOutBytes payload relSteps cmd parts parsed keyed written packed requests =>
      rcases List.mem_cons.1 hs with rfl | hs'
      · exact refreshStep_refreshing concern packed (messages.inst.unmarshal written)
      · apply others s hs
        simp [(requestRelatedSteps_all requests s hs').2.2.2]
    | read inst rel o instBytes relBytes payload cmd found writtenInst writtenRel packed =>
      rw [List.mem_singleton.1 hs]
      exact refreshStep_refreshing concern packed (messages.inst.unmarshal writtenInst)
    | update inst rel instBytes relBytes payload cmd parsed packed =>
      rw [List.mem_singleton.1 hs]
      exact refreshStep_refreshing concern packed parsed.inst
    | delete cmd =>
      apply others s hs
      simp [List.mem_singleton.1 hs, Crud.flushStep]
    | _ => cases hs

theorem EndsWell.tail {s : Step} {rest : List Step} (h : EndsWell (s :: rest)) (ne : rest ≠ []) : EndsWell rest := by
  obtain ⟨s', rest, rfl⟩ := List.exists_cons_of_ne_nil ne
  unfold EndsWell at h ⊢
  rwa [List.getLast?_cons_cons] at h

theorem EndsWell.append {front rest : List Step} (h : EndsWell rest) (ne : rest ≠ []) : EndsWell (front ++ rest) := by
  intro s hs
  rw [List.getLast?_append_of_ne_nil _ ne] at hs
  exact h s hs

/-- Only the commands matter. -/
theorem EndsWell.congr {steps steps' : List Step} (h : EndsWell steps)
    (same : steps'.map Step.command = steps.map Step.command) : EndsWell steps' := by
  intro s hs
  have last : steps'.getLast?.map Step.command = steps.getLast?.map Step.command := by
    rw [← List.getLast?_map, ← List.getLast?_map, same]
  rw [hs] at last
  obtain ⟨s', hs', command⟩ := Option.map_eq_some_iff.1 last.symm
  rw [← command]
  exact h s' hs'

theorem EndsWell.wire {steps : List Step} (h : EndsWell steps) : EndsWell (steps.map wireStep) := by
  apply h.congr
  rw [List.map_map]
  rfl

/-- What handlers add ends well, and so does what follows a step. -/
theorem EndsWell.follow {cur : Step} {adds ahead : List Step} (h : EndsWell (cur :: ahead))
    (added : ∀ s ∈ adds, s.command = cur.command ∨ s.command ∈ addedCommands) : EndsWell (adds ++ ahead) := by
  by_cases none : ahead = []
  · subst none
    rw [List.append_nil]
    intro s hs
    have here := h cur (by simp)
    obtain same | few := added s (List.mem_of_getLast? hs)
    · rw [same]
      exact here
    · simp only [addedCommands, List.mem_cons, List.not_mem_nil, or_false] at few
      rcases few with hc | hc | hc | hc | hc <;> (rw [hc]; decide)
  · exact (h.tail none).append none

theorem allowed_command {s : Step} (allowed : isTxnProhibitedCommand s.command = false) :
    s.command ≠ validateCreate ∧ s.command ≠ validateUpdate ∧ s.command ≠ refreshInstance := by
  simp only [isTxnProhibitedCommand, txnProhibitedCommands, List.contains_eq_mem, List.mem_cons, List.not_mem_nil,
    or_false, decide_eq_false_iff_not, not_or] at allowed
  exact ⟨allowed.1, allowed.2.1, allowed.2.2.1⟩

/-- The commands a submitted step becomes. -/
theorem expandStep_commands (s : Step) :
    (∃ front, (expandStep s).map Step.command = front ++ [s.command]) ∧
      ∀ s' ∈ expandStep s, s'.command = s.command ∨ s'.command = validateCreate ∨ s'.command = validateUpdate := by
  unfold expandStep
  dsimp only
  split
  · exact ⟨⟨[validateCreate], rfl⟩, by simp⟩
  split
  · exact ⟨⟨[validateUpdate], rfl⟩, by simp⟩
  · exact ⟨⟨[], rfl⟩, by simp⟩

theorem flatMap_endsWell {steps : List Step} (allowed : ∀ s ∈ steps, isTxnProhibitedCommand s.command = false) :
    EndsWell (steps.flatMap expandStep) := by
  induction steps with
  | nil => rintro s ⟨⟩
  | cons s steps ih =>
    have rest := ih fun s' hs' => allowed s' (List.mem_cons_of_mem _ hs')
    rw [List.flatMap_cons]
    by_cases none : steps.flatMap expandStep = []
    · rw [none, List.append_nil]
      intro last hlast
      obtain ⟨⟨front, commands⟩, -⟩ := expandStep_commands s
      have command : last.command = s.command := by
        have same : (expandStep s).getLast?.map Step.command = some s.command := by
          rw [← List.getLast?_map, commands, List.getLast?_concat]
        rw [hlast] at same
        exact Option.some.inj same
      rw [command]
      have free := allowed_command (allowed s List.mem_cons_self)
      exact ⟨free.1, free.2.1⟩
    · exact rest.append none

theorem flatMap_refreshing {steps : List Step} (allowed : ∀ s ∈ steps, isTxnProhibitedCommand s.command = false) :
    ∀ s ∈ steps.flatMap expandStep, s.Refreshing cc := by
  intro s hs
  obtain ⟨u, hu, hs⟩ := List.mem_flatMap.1 hs
  apply refreshing_other
  rcases (expandStep_commands u).2 s hs with hc | hc | hc
  · rw [hc]
    exact (allowed_command (allowed u hu)).2.2
  · rw [hc]
    decide
  · rw [hc]
    decide

end

section
variable {d : Deployment M} {net net' : Net M} {tp : TopicPartition} {env : Env} {logic : LogicHandler M}
  {p : Publication} {done ahead : List Step} {cur : Step}

/-- Steps that refresh well do so behind the wire. -/
theorem refreshable_wire {id : String} (refreshes : ∀ s ∈ cur :: ahead, s.Refreshing d.cc) (last : EndsWell (cur :: ahead)) :
    Refreshable d.cc id done (wireStep cur) (ahead.map wireStep) where
  refreshes := by
    intro s hs
    rw [← List.map_cons] at hs
    obtain ⟨s', hs', rfl⟩ := List.mem_map.1 hs
    exact (refreshes s' hs').wire
  last := last.wire

/-- A submitted transaction has no command but those that clients may use, each with its own steps around it. -/
theorem refreshable_submitted {traceParent id : String} {txn : Txn} {steps rest : List Step} {rtxn : ApecsTxn}
    (h : Submitted env traceParent txn p steps rtxn cur rest) : Refreshable d.cc id [] (wireStep cur) (rest.map wireStep) := by
  have allowed : ∀ s ∈ steps, isTxnProhibitedCommand s.command = false := by
    intro s hs
    obtain ⟨u, hu, prepares⟩ := (Early.mapM_mem h.prepared).2 s hs
    obtain ⟨-, -, -, command, -⟩ := prepareStep_ok prepares
    rw [command]
    exact h.allowed u hu
  have whole : cur :: rest = steps.flatMap expandStep := by rw [← h.forward, h.logged.stands.steps, List.nil_append]
  apply refreshable_wire
  · rw [whole]
    exact flatMap_refreshing allowed
  · rw [whole]
    exact flatMap_endsWell allowed

section
variable {id id' : String} {done' : List Step}

/-- A storage read is put in front, and what it goes on with is refreshed from what it reads. -/
theorem Refreshable.read (h : Refreshable d.cc id done cur ahead) :
    Refreshable d.cc id' done' (wireStep (readStep (d.ran net tp cur) (d.offset net tp)))
      ((missAhead (d.ran net tp cur) ahead).map wireStep) := by
  have isRead : (readStep (d.ran net tp cur) (d.offset net tp)).command = Command.read := rfl
  apply refreshable_wire
  · intro s hs
    rcases List.mem_cons.1 hs with rfl | hs
    · apply refreshing_other
      rw [isRead]
      decide
    rcases mem_missAhead hs with rfl | hs
    · intro command cnc concern
      simp only [ran_command, ran_concern, ran_payload] at command concern ⊢
      exact h.refreshes cur List.mem_cons_self command cnc concern
    · exact h.refreshes s (List.mem_cons_of_mem _ hs)
  · unfold missAhead
    split
    · rename_i hread
      apply h.last.congr
      rw [ran_command] at hread
      rw [List.map_cons, List.map_cons, isRead, hread]
    · have rest : EndsWell (d.ran net tp cur :: ahead) := h.last.congr (by simp)
      show EndsWell ([readStep (d.ran net tp cur) (d.offset net tp)] ++ d.ran net tp cur :: ahead)
      exact rest.append (List.cons_ne_nil _ _)

/-- What a command adds refreshes with a payload that its concern can read. -/
theorem Refreshable.next {call : Call} {r : StepResult} {adds tail : List Step} {nextStep : Step}
    (h : Refreshable d.cc id done cur ahead) (lossless : d.cc.LosslessMessages)
    (handled : Handled d net tp env logic p cur (d.outcome net tp env logic p) call (some r) adds)
    (follows : adds ++ ahead = nextStep :: tail) :
    Refreshable d.cc id' done' (wireStep (nextStepOf (d.doneStep net tp cur r) nextStep (d.offset net tp))) (tail.map wireStep) := by
  have all : ∀ s ∈ nextStep :: tail, s.Refreshing d.cc := by
    rw [← follows]
    intro s hs
    rcases List.mem_append.1 hs with hs | hs
    · exact commandEffect_refreshing lossless handled.effect s hs
    · exact h.refreshes s (List.mem_cons_of_mem _ hs)
  have ends : EndsWell (nextStep :: tail) := by
    rw [← follows]
    apply h.last.follow
    intro s hs
    rw [← handled.callFor.command]
    exact commandEffect_commands handled.effect s hs
  apply refreshable_wire
  · intro s hs
    rcases List.mem_cons.1 hs with rfl | hs
    · exact (all nextStep List.mem_cons_self).next
    · exact all s (List.mem_cons_of_mem _ hs)
  · apply ends.congr
    rw [List.map_cons, List.map_cons, nextStepOf_command]

/-- A generated transaction writes to storage, and refreshes nothing. -/
theorem refreshable_generated {store : InstanceStore} {steps : List Step} {step : Step} (generates : Generates d.cc.pb store steps step) :
    Refreshable d.cc id done (wireStep step) [] := by
  have command : step.command ∈ [create, update, delete, updateAsync] := by
    cases generates with
    | copy s r' mem isWrite =>
      simp only [Step.isStorageWrite, Bool.and_eq_true, Bool.or_eq_true, decide_eq_true_eq] at isWrite
      show s.command ∈ _
      rcases isWrite.2 with (hc | hc) | hc <;> simp [hc]
    | update s payload =>
      show updateAsync ∈ _
      simp
    | updateScnd s payload =>
      show updateAsync ∈ _
      simp
  have other : ∀ {c}, c ∉ [create, update, delete, updateAsync] → step.command ≠ c := by
    rintro c notWrite rfl
    exact notWrite command
  refine @refreshable_wire _ d done [] step id ?_ ?_
  · intro s hs
    rw [List.mem_singleton.1 hs]
    exact refreshing_other (other (by decide))
  · intro s hs
    rw [List.getLast?_singleton, Option.mem_some_iff] at hs
    subst hs
    exact ⟨other (by decide), other (by decide)⟩

end

theorem refreshable_maintained (lossless : d.cc.LosslessMessages) :
    Maintained d (fun _ => True) (Refreshable d.cc) where
  submitted _ h := refreshable_submitted h
  arrives := by
    intro net tp env logic p done cur ahead m done' cur' ahead' _ sent h arrival
    cases arrival with
    | read => exact h.read
    | next q call r adds nextStep tail handled resultOk follows => exact h.next lossless handled follows
    | child call r adds step i handled resultOk last generates => exact refreshable_generated generates

/-! ## The stores -/

/-- What the consumers of a concern have stored can be read. -/
def StoresRead (d : Deployment M) (net : Net M) : Prop :=
  ∀ tp cnc, d.cc.concernHandler tp.concern = some cnc → cnc.ReadsAll (net.stores tp)

theorem readsAll_new {cnc : Concern M} : cnc.ReadsAll InstanceStore.new := by
  rintro key rec ⟨⟩

theorem callWrite_reads (lossless : d.cc.LosslessMessages) {cnc : Concern M} {call : Call} {store : InstanceStore}
    (concern : d.cc.concernHandler call.concern = some cnc) (h : cnc.ReadsAll store)
    (refresh : call.command = refreshInstance → cnc.Packs call.args.payload ∧ (call.args.payload.getD []).length < 2 ^ 32) :
    cnc.ReadsAll (written store (callWrite d.cc logic call store)) := by
  unfold callWrite
  rw [concern]
  exact h.written (lossless.concern concern) refresh

/-- The store after a call can be read if it could before. -/
theorem Handled.reads {out : Outcome (Platform M)} {call : Call} {rslt : Option StepResult} {adds : List Step}
    (handled : Handled d net tp env logic p cur out call rslt adds) (lossless : d.cc.LosslessMessages)
    {next : TopicPartition → Nat} (sent : Sent d next (tp, p) done cur ahead) (refreshing : cur.Refreshing d.cc)
    {cnc : Concern M} (concern : d.cc.concernHandler tp.concern = some cnc) (h : cnc.ReadsAll (net.stores tp)) :
    cnc.ReadsAll out.state.instanceStore := by
  have callFor := handled.callFor
  have found : d.cc.concernHandler call.concern = some cnc := by
    rw [callFor.concern, sent.concern]
    exact concern
  have after : out.state.instanceStore = written (net.stores tp) (callWrite d.cc logic call (net.stores tp)) := by
    have state : (handleCommand d.cc env logic call (Deployment.platform net tp)).2.instanceStore =
        written (net.stores tp) (callWrite d.cc logic call (net.stores tp)) := handleCommand_write env logic call
    rw [handled.handled] at state
    exact state
  rw [after]
  apply callWrite_reads lossless found h
  intro command
  rw [callFor.payload]
  rw [callFor.command] at command
  have limit : maxMessageBytes < 2 ^ 32 := by decide
  refine ⟨refreshing command cnc ?_, sent.small.trans limit⟩
  rw [← callFor.concern]
  exact found

theorem StoresRead.step (lossless : d.cc.LosslessMessages) (h : StoresRead d net)
    (standing : Standing d (Refreshable d.cc) net) {a : Action M} (hs : d.step net a = some net') : StoresRead d net' := by
  cases a with
  | submit env traceParent txn respTarget =>
    simp only [Deployment.step] at hs
    split at hs
    · cases hs
    · intro tp cnc concern
      rw [(deliver_some hs).stores]
      exact h tp cnc concern
  | consume tp env logic =>
    obtain ⟨p, before, after, done, cur, ahead, consumed⟩ := consume_fate standing.sound hs
    have here : cur.Refreshing d.cc := by
      have held : Refreshable d.cc p.txn.id done cur ahead := standing.at (by rw [consumed.split]; simp) consumed.sent
      exact held.refreshes cur List.mem_cons_self
    have state : ∀ cnc, d.cc.concernHandler tp.concern = some cnc →
        cnc.ReadsAll (d.outcome net tp env logic p).state.instanceStore := by
      intro cnc concern
      have held := h tp cnc concern
      cases consumed.fate with
      | rejected state => rw [state]; exact held
      | missed _ _ _ _ state => rw [state]; exact held
      | failed _ _ _ handled => exact handled.reads lossless consumed.sent here concern held
      | next _ _ _ _ _ handled => exact handled.reads lossless consumed.sent here concern held
      | completed _ _ _ _ _ handled => exact handled.reads lossless consumed.sent here concern held
    intro tp' cnc concern
    rcases consumed.delivered with ⟨-, delivered⟩ | ⟨-, delivered⟩
    · rw [delivered.stores]
      show cnc.ReadsAll (if tp' = tp then InstanceStore.new else net.stores tp')
      split
      · exact readsAll_new
      · exact h tp' cnc concern
    · rw [delivered.stores]
      show cnc.ReadsAll (if tp' = tp then (d.outcome net tp env logic p).state.instanceStore else net.stores tp')
      split
      · rename_i same
        rw [same] at concern
        exact state cnc concern
      · exact h tp' cnc concern

/-! ## The transactions of users -/

/-- A step that no transaction of the platform itself is generated for. -/
def Step.Ordinary (s : Step) : Prop := (s.system = .storage → s.command ≠ updateAsync) ∧ s.system ≠ .storageScnd

/-- A transaction that was not generated stands at an ordinary step. -/
def OwnOrdinary (net : Net M) : Prop :=
  ∀ m ∈ net.inFlight, m.2.txn.uponError ≠ .bailout → ∀ s, m.2.txn.currentStep = some s → s.Ordinary

theorem ordinary_process {s : Step} (system : s.system = .process) : s.Ordinary := by
  constructor
  · intro storage
    rw [system] at storage
    cases storage
  · rw [system]
    decide

theorem Arrival.ordinary {m : TopicPartition × Publication} {done' ahead' : List Step} {cur' : Step}
    (sent : Sent d net.next (tp, p) done cur ahead)
    (h : Arrival d net tp env logic p done cur ahead (d.outcome net tp env logic p) m done' cur' ahead') :
    m.2.txn.uponError = .bailout ∨ cur'.Ordinary := by
  cases h with
  | read =>
    right
    constructor
    · intro _
      show Command.read ≠ updateAsync
      decide
    · show System.storage ≠ .storageScnd
      decide
  | next q call r adds nextStep tail handled resultOk follows =>
    right
    rcases next_plan sent (commandEffect_adds resultOk handled.effect) handled.callFor follows with
      ⟨process, -⟩ | ⟨storage, -, -, -, command, -⟩
    · exact ordinary_process (by simpa using process)
    · have other : nextStep.command ≠ updateAsync := by
        rcases command with hc | ⟨-, -, -, other⟩
        · rw [hc]
          decide
        · exact other
      refine ⟨fun _ => by simpa using other, ?_⟩
      rw [wireStep_system, nextStepOf_system, storage]
      decide
  | child => exact .inl rfl

theorem OwnOrdinary.step (h : OwnOrdinary net) (sound : Sound d net) {a : Action M} (hs : d.step net a = some net') :
    OwnOrdinary net' := by
  cases a with
  | submit env traceParent txn respTarget =>
    simp only [Deployment.step] at hs
    split at hs
    · cases hs
    rename_i p hp
    obtain ⟨steps, rtxn, first, rest, submitted⟩ := executeTxnAsync_ok hp
    have delivered := deliver_some hs
    intro m hm own s hs
    rw [delivered.inFlight, List.mem_append] at hm
    rcases hm with hm | hm
    · exact h m hm own s hs
    · have arrives := submitted.publishes.arrival (d := d)
      simp only [List.filterMap_cons, List.filterMap_nil, arrives, List.mem_singleton] at hm
      subst hm
      obtain ⟨fits, topic⟩ := delivered.arrived p (List.mem_singleton_self _) _ arrives
      have sent : Sent d net.next (d.partitionOf first.concern first.system p.hashKey, p) [] (wireStep first)
          (rest.map wireStep) := Sent.submit submitted fits topic
      rw [sent.logged.stands.currentStep] at hs
      cases hs
      exact ordinary_process submitted.plan.head
  | consume tp env logic =>
    obtain ⟨p, before, after, done, cur, ahead, consumed⟩ := consume_fate sound hs
    intro m hm own s hs
    rcases consumed.inFlight consumed.next_le consumed.next_lt hm with hm | ⟨done', cur', ahead', arrival, sent⟩
    · exact h m hm own s hs
    · rw [sent.logged.stands.currentStep] at hs
      cases hs
      exact (arrival.ordinary consumed.sent).resolve_left own

/-- All of this holds along a run that starts with idle consumers. -/
theorem refreshing_run {net₀ : Net M} {tr : List (Net M × Action M)} (lossless : d.cc.LosslessMessages)
    (idle : net₀.inFlight = []) (fresh : ∀ tp, net₀.stores tp = InstanceStore.new) (run : Path d.step net₀ tr net) :
    Standing d (Refreshable d.cc) net ∧ StoresRead d net ∧ OwnOrdinary net := by
  apply run.invariant (fun net => Standing d (Refreshable d.cc) net ∧ StoresRead d net ∧ OwnOrdinary net) (fun _ _ => True)
  · refine ⟨standing_idle idle, ?_, ?_⟩
    · intro tp cnc _
      rw [fresh tp]
      exact readsAll_new
    · intro m hm
      rw [idle] at hm
      cases hm
  · rintro s a s' - ⟨standing, reads, ordinary⟩ hs
    exact ⟨standing.step (refreshable_maintained lossless) trivial hs, reads.step lossless standing hs,
      ordinary.step standing.sound hs⟩
  · intro _ _
    trivial

end

end Rocketcycle
