import Rocketcycle.Net.Fate
import Rocketcycle.Lib.Runs

/-!
# Messages in flight stay well formed

Every step of the system keeps `Sound`: the step lemma, and the run lemma drawn from it.
-/

namespace Rocketcycle

open Command Runs

variable {M : Type}

/-- The steps that a command which succeeded has added. -/
structure AddsOf (call : Call) (r : StepResult) (adds : List Step) : Prop where
  pending : ∀ s ∈ adds, s.result = none
  shape : (∀ s ∈ adds, s.system = .process) ∨
    call.system = .process ∧ (call.command = update ∨ call.command = delete) ∧
      ∃ payload, adds = [toStorage call.concern call.command call.args.key payload]
  /-- The key of a result is that of the step that follows. -/
  key : r.key ≠ "" → call.system = .storageScnd ∨ ∃ a rest, adds = a :: rest ∧ a.key = r.key
  validates : call.command = validateCreate → adds = []
  last : call.system = .storageScnd ∨ call.system = .storage ∧ call.command = updateAsync → adds = []

theorem logicEffect_adds {env : Env} {pb : RelatedCodecs} {cnc : Concern M} {logic : LogicHandler M} {call : Call}
    {store store' : InstanceStore} {r : StepResult} {adds : List Step} (system : call.system = .process)
    (concern : cnc.name = call.concern)
    (h : LogicEffect env pb cnc logic call.command call.args store (some r) adds store') : AddsOf call r adds := by
  have last : call.system = .storageScnd ∨ call.system = .storage ∧ call.command = updateAsync → adds = [] := by
    simp [system]
  cases h with
  | quiet _ plain =>
    exact ⟨by simp, .inl (by simp), fun hk => absurd (plain r rfl).key hk, fun _ => rfl, last⟩
  | update payload cmd =>
    exact ⟨by simp [toStorage], .inr ⟨system, .inl cmd, _, by rw [concern, cmd]⟩, by simp,
      fun hv => absurd (cmd.symm.trans hv) (by decide), last⟩
  | delete payload cmd =>
    exact ⟨by simp [toStorage], .inr ⟨system, .inr cmd, _, by rw [concern, cmd]⟩, by simp,
      fun hv => absurd (cmd.symm.trans hv) (by decide), last⟩
  | refreshInstance _ inst relBytes cmd parsed plain =>
    exact ⟨by simp, .inl (by simp), fun hk => absurd (plain r rfl).key hk, fun _ => rfl, last⟩
  | flushInstance _ cmd isOk plain =>
    exact ⟨by simp, .inl (by simp), fun hk => absurd plain.key hk, fun _ => rfl, last⟩
  | requestRelated _ _ relReq relBytes relPayload relRspBytes cmd stored packed response rslt =>
    exact ⟨by simp, .inl (by simp), by simp [rslt], fun hv => absurd (cmd.symm.trans hv) (by decide), last⟩
  | refreshRelated =>
    exact ⟨by simp, .inl (by simp), by simp, fun _ => rfl, last⟩
  | brokenOff _ _ _ _ _ plain =>
    exact ⟨by simp, .inl (by simp), fun hk => absurd (plain r rfl).key hk, fun _ => rfl, last⟩
  | changed cmd _ _ old new inst rel inst' input output mem name given parsed ran written differs rslt isOk key refreshes =>
    refine ⟨fun s hs => (refreshes s hs).2.1, .inl fun s hs => (refreshes s hs).1, fun hk => absurd key hk, ?_, last⟩
    intro hc
    have free := cnc.commands_free cmd mem
    rw [name, hc] at free
    exact absurd free (by decide)

theorem storageEffect_adds {env : Env} {pb : RelatedCodecs} {cnc : Concern M} {call : Call} {db db' : RamDb M}
    {r : StepResult} {adds : List Step} (system : call.system = .storage) (isOk : r.code = .ok)
    (h : StorageEffect env pb cnc call.command call.args db (some r) adds db') : AddsOf call r adds := by
  have notLast : ∀ {cmd : String}, call.command = cmd → cmd ≠ updateAsync →
      (call.system = .storageScnd ∨ call.system = .storage ∧ call.command = updateAsync → adds = []) := by
    rintro cmd hc ne (hs | ⟨-, ha⟩)
    · rw [system] at hs
      cases hs
    · exact absurd (hc.symm.trans ha) ne
  cases h with
  | refused _ notOk => exact absurd isOk (notOk r rfl)
  | create inst instBytes relBytes instOutBytes payload relSteps cmd parts parsed keyed written packed requests =>
    have all := requestRelatedSteps_all requests
    refine ⟨?_, .inl ?_, fun _ => .inr ⟨_, _, rfl, rfl⟩, fun hv => absurd (cmd.symm.trans hv) (by decide),
      notLast cmd (by decide)⟩
    · intro s hs
      rcases List.mem_cons.1 hs with rfl | hs
      · rfl
      · exact (all s hs).2.1
    · intro s hs
      rcases List.mem_cons.1 hs with rfl | hs
      · rfl
      · exact (all s hs).1
  | createFailed _ _ _ _ _ _ _ notOk => exact absurd isOk (notOk r rfl)
  | read inst rel cmpdOffset instBytes relBytes payload cmd =>
    exact ⟨by simp [Crud.refreshStep], .inl (by simp [Crud.refreshStep]), fun _ => .inr ⟨_, _, rfl, rfl⟩,
      fun hv => absurd (cmd.symm.trans hv) (by decide), notLast cmd (by decide)⟩
  | update inst rel instBytes relBytes payload cmd =>
    exact ⟨by simp [Crud.refreshStep], .inl (by simp [Crud.refreshStep]), fun _ => .inr ⟨_, _, rfl, rfl⟩,
      fun hv => absurd (cmd.symm.trans hv) (by decide), notLast cmd (by decide)⟩
  | updateAsync => exact ⟨by simp, .inl (by simp), by simp, fun _ => rfl, fun _ => rfl⟩
  | delete cmd =>
    exact ⟨by simp [Crud.flushStep], .inl (by simp [Crud.flushStep]), fun _ => .inr ⟨_, _, rfl, rfl⟩,
      fun hv => absurd (cmd.symm.trans hv) (by decide), notLast cmd (by decide)⟩

theorem commandEffect_adds {cc : ClientCode M} {env : Env} {logic : LogicHandler M} {stgTgt : StorageTarget}
    {call : Call} {plat plat' : Platform M} {r : StepResult} {adds : List Step} (isOk : r.code = .ok)
    (h : CommandEffect cc env logic stgTgt call plat (some r) adds plat') : AddsOf call r adds := by
  cases h with
  | refused notOk => exact absurd isOk (notOk r rfl)
  | process cnc store' concern system effect =>
    exact logicEffect_adds system (ClientCode.concernHandler_name concern) effect
  | storage cnc db' concern system effect => exact storageEffect_adds system isOk effect
  | storageScnd cnc db' concern system adds effect =>
    subst adds
    exact ⟨by simp, .inl (by simp), fun _ => .inl system, fun _ => rfl, fun _ => rfl⟩

section
variable {d : Deployment M} {net net' : Net M} {tp : TopicPartition} {env : Env} {logic : LogicHandler M}
  {p : Publication} {done ahead : List Step} {cur : Step}

@[simp] theorem ran_system : (d.ran net tp cur).system = cur.system := keyed_system _ _ _
@[simp] theorem ran_concern : (d.ran net tp cur).concern = cur.concern := keyed_concern _ _ _
@[simp] theorem ran_command : (d.ran net tp cur).command = cur.command := keyed_command _ _ _
@[simp] theorem ran_key : (d.ran net tp cur).key = cur.key := keyed_key _ _ _
@[simp] theorem ran_payload : (d.ran net tp cur).payload = cur.payload := keyed_payload _ _ _

section
variable (r : StepResult)

@[simp] theorem doneStep_system : (d.doneStep net tp cur r).system = cur.system := keyed_system _ _ _
@[simp] theorem doneStep_concern : (d.doneStep net tp cur r).concern = cur.concern := keyed_concern _ _ _
@[simp] theorem doneStep_command : (d.doneStep net tp cur r).command = cur.command := keyed_command _ _ _
@[simp] theorem doneStep_key : (d.doneStep net tp cur r).key = cur.key := keyed_key _ _ _
@[simp] theorem doneStep_cmpdOffset :
    (d.doneStep net tp cur r).cmpdOffset = (d.ran net tp cur).cmpdOffset := rfl
@[simp] theorem doneStep_result :
    (d.doneStep net tp cur r).result = some { r with payload := r.payload <|> cur.payload } := by
  simp [Deployment.doneStep, Step.done]

end

theorem ran_cmpdOffset (h : cur.system = .process) :
    (d.ran net tp cur).cmpdOffset = some (d.offset net tp) := keyed_process_offset h _ _

theorem ran_storage (h : cur.system ≠ .process) : (d.ran net tp cur).cmpdOffset = cur.cmpdOffset :=
  keyed_storage_offset h _ _

section
variable {out : Outcome (Platform M)} {call : Call} {rslt : Option StepResult} {adds : List Step}

/-- The call is one for the current step. -/
structure CallFor (call : Call) (cur : Step) (inst : Option Bytes) : Prop where
  system : call.system = cur.system
  concern : call.concern = cur.concern
  command : call.command = cur.command
  key : call.args.key = cur.key
  payload : call.args.payload = cur.payload
  inst : call.args.inst = inst

theorem Handled.callFor (h : Handled d net tp env logic p cur out call rslt adds) :
    CallFor call cur (instanceFor (net.stores tp) cur cur.key) := by
  constructor <;> (rw [h.called]; simp [callOf])

/-- A process command runs at the offset of its message. -/
theorem Handled.process_offset (h : Handled d net tp env logic p cur out call rslt adds)
    (system : cur.system = .process) : call.args.cmpdOffset = d.offset net tp := by
  have := h.offset
  rw [ran_cmpdOffset system] at this
  exact (Option.some.inj this).symm

theorem Handled.storage_offset (h : Handled d net tp env logic p cur out call rslt adds)
    (system : cur.system ≠ .process) : cur.cmpdOffset = some call.args.cmpdOffset := by
  have := h.offset
  rwa [ran_storage system] at this

/-- A step that succeeds belongs to a concern of the platform. -/
theorem handled_name {r : StepResult} (handled : Handled d net tp env logic p cur out call (some r) adds)
    (isOk : r.code = .ok) : isValidName cur.concern = true := by
  have found : ∃ cnc, d.cc.concernHandler call.concern = some cnc := by
    have effect := handled.effect
    generalize out.state = plat' at effect
    cases effect with
    | refused notOk => exact absurd isOk (notOk r rfl)
    | process cnc _ concern => exact ⟨cnc, concern⟩
    | storage cnc _ concern => exact ⟨cnc, concern⟩
    | storageScnd cnc _ concern => exact ⟨cnc, concern⟩
  obtain ⟨cnc, hcnc⟩ := found
  rw [← handled.callFor.concern, ← ClientCode.concernHandler_name hcnc]
  exact d.names cnc (List.mem_of_find?_eq_some hcnc)

end

/-- The offsets after a message has been read. -/
def readNext (next : TopicPartition → Nat) (tp : TopicPartition) : TopicPartition → Nat :=
  fun t => if t = tp then next tp + 1 else next t

theorem readNext_le (next : TopicPartition → Nat) (tp t : TopicPartition) : next t ≤ readNext next tp t := by
  unfold readNext
  split
  · rename_i h
    rw [h]
    omega
  · exact le_refl _

theorem readNext_lt (next : TopicPartition → Nat) (tp : TopicPartition) : next tp < readNext next tp tp := by
  simp [readNext]

/-- A step that takes the offset of the message read is dated. -/
theorem Sent.message_dated {next next' : TopicPartition → Nat} (sent : Sent d next (tp, p) done cur ahead)
    (read : net.next tp < next' tp) (system : cur.system = .process) {s : Step}
    (concern : s.concern = cur.concern) (offset : s.cmpdOffset = some (d.offset net tp))
    (route : s.command ≠ create → s.command ≠ validateCreate → cur.isKeylessStep = false ∧ s.key = cur.key) :
    s.Dated d next' := by
  have hc : cur.concern = tp.concern := sent.concern
  have hs : cur.system = tp.system := sent.system
  refine ⟨tp.partition, net.next tp, ?_, ?_, ?_⟩
  · rw [offset, concern, Deployment.offset, hc, ← hs, system]
  · have here : (⟨s.concern, .process, tp.partition⟩ : TopicPartition) = tp := by
      rw [concern, hc, ← system, hs]
    rw [here]
    exact read
  · intro _ hcreate hvalidate
    obtain ⟨keyless, key⟩ := route hcreate hvalidate
    have part : tp.partition = fnv64Hash p.hashKey (d.partitions tp.concern tp.system) := sent.partition
    have hashKey : p.hashKey = stringBytes cur.key := sent.hashKey keyless
    rw [part, hashKey, concern, key, hc, ← hs, system]

/-- The step that a consumer has just run is dated. -/
theorem Sent.ran_dated {next next' : TopicPartition → Nat} (sent : Sent d next (tp, p) done cur ahead)
    (seen : ∀ t, next t ≤ next' t) (read : net.next tp < next' tp) : (d.ran net tp cur).Dated d next' := by
  by_cases system : cur.system = .process
  · apply sent.message_dated read system (ran_concern) (ran_cmpdOffset system)
    intro hcreate hvalidate
    rw [ran_command] at hcreate hvalidate
    exact ⟨by simp [Step.isKeylessStep, hcreate, hvalidate], ran_key⟩
  · obtain ⟨part, n, ho, hn, hp⟩ := (sent.curDated system).mono seen
    exact ⟨part, n, by rw [ran_storage system, ran_concern]; exact ho, by rw [ran_concern]; exact hn,
      by rw [ran_system, ran_command, ran_concern, ran_key]; exact hp⟩

theorem Step.Dated.congr {next : TopicPartition → Nat} {s s' : Step} (h : s.Dated d next)
    (concern : s'.concern = s.concern) (offset : s'.cmpdOffset = s.cmpdOffset)
    (route : s'.system ≠ .storageScnd → s'.command ≠ create → s'.command ≠ validateCreate →
      s.system ≠ .storageScnd ∧ s.command ≠ create ∧ s.command ≠ validateCreate ∧ s'.key = s.key) :
    s'.Dated d next := by
  obtain ⟨part, n, ho, hn, hp⟩ := h
  refine ⟨part, n, by rw [offset, concern]; exact ho, by rw [concern]; exact hn, fun hs hc hv => ?_⟩
  obtain ⟨hs', hc', hv', hk⟩ := route hs hc hv
  rw [concern, hk]
  exact hp hs' hc' hv'

theorem Sent.done_dated {next next' : TopicPartition → Nat} (sent : Sent d next (tp, p) done cur ahead)
    (seen : ∀ t, next t ≤ next' t) (read : net.next tp < next' tp) (r : StepResult) :
    ∀ s ∈ done ++ [d.doneStep net tp cur r], s.Dated d next' := by
  intro s hs
  rcases List.mem_append.1 hs with hs | hs
  · exact (sent.dated s hs).mono seen
  · rw [List.mem_singleton.1 hs]
    exact (sent.ran_dated seen read).congr rfl rfl fun hs hc hv =>
      ⟨by simpa using hs, by simpa using hc, by simpa using hv, by simp⟩

/-- The plan from the next step on, and what that step is. -/
theorem next_plan {next : TopicPartition → Nat} {call : Call} {r : StepResult} {adds tail : List Step}
    {nextStep : Step} (sent : Sent d next (tp, p) done cur ahead) (hadds : AddsOf call r adds)
    (callFor : CallFor call cur (instanceFor (net.stores tp) cur cur.key))
    (follows : adds ++ ahead = nextStep :: tail) :
    (nextStep.system = .process ∧ Plan (nextStep :: tail)) ∨
      (nextStep.system = .storage ∧ Plan tail ∧ nextStep.concern = cur.concern ∧ nextStep.cmpdOffset = none ∧
        (nextStep.command = create ∨ nextStep.key = cur.key ∧ cur.command ≠ create ∧ cur.command ≠ validateCreate ∧
          nextStep.command ≠ updateAsync) ∧ cur.system = .process) := by
  have plan := sent.plan
  have whole : Plan ahead ∨ cur.system = .process ∧ ∃ c rest, ahead = c :: rest ∧ cur.command = validateCreate ∧
      (c.system = .storage ∧ c.command = create) ∧ c.concern = cur.concern ∧ c.cmpdOffset = none ∧ Plan rest := by
    split at plan
    · rename_i hp
      exact plan.tail.imp id fun h => ⟨hp, h⟩
    · exact .inl plan
  rcases whole with whole | ⟨process, c, rest, rfl, validates, creates, concern, offset, hrest⟩
  · rcases hadds.shape with all | ⟨hsys, hcmd, payload, hadds'⟩
    · left
      have both := Plan.append all whole
      rw [follows] at both
      exact ⟨both.head, both⟩
    · right
      rw [hadds'] at follows
      cases follows
      rw [callFor.command] at hcmd
      have process : cur.system = .process := by rw [← callFor.system, hsys]
      have others : cur.command ≠ create ∧ cur.command ≠ validateCreate ∧ cur.command ≠ updateAsync := by
        rcases hcmd with h | h <;> (rw [h]; decide)
      exact ⟨rfl, whole, callFor.concern, rfl, .inr ⟨callFor.key, others.1, others.2.1, callFor.command ▸ others.2.2⟩,
        process⟩
  · right
    have none := hadds.validates (by rw [callFor.command, validates])
    rw [none] at follows
    cases follows
    exact ⟨creates.1, hrest, concern, offset, .inl creates.2, process⟩

/-! ## The messages that a step publishes -/

/-- The offset that the next step gets on its way to storage. -/
theorem nextStepOf_storage_offset {step next : Step} {o o' : CompoundOffset} (system : next.system = .storage)
    (offset : next.cmpdOffset = none) (ho : step.cmpdOffset = some o') :
    (nextStepOf step next o).cmpdOffset = some o' := by
  rw [nextStepOf_eq]
  simp [system, offset, ho]

/-- A validation that succeeds leaves the instance alone. -/
theorem validation_inst {cc : ClientCode M} {stgTgt : StorageTarget} {call : Call} {plat plat' : Platform M}
    {r : StepResult} {adds : List Step} (h : CommandEffect cc env logic stgTgt call plat (some r) adds plat')
    (isOk : r.code = .ok) (system : call.system = .process)
    (hc : call.command = create ∨ call.command = validateCreate) : r.inst = none := by
  cases h with
  | refused notOk => exact absurd isOk (notOk r rfl)
  | storage _ _ _ hs => rw [system] at hs; cases hs
  | storageScnd _ _ _ hs => rw [system] at hs; cases hs
  | process cnc store' concern hs effect =>
    have free : call.command ∈ [create, validateCreate] := by simpa using hc
    cases effect with
    | quiet _ plain => exact (plain r rfl).inst
    | update => rfl
    | delete => rfl
    | refreshInstance _ _ _ _ _ plain => exact (plain r rfl).inst
    | flushInstance _ _ _ plain => exact plain.inst
    | requestRelated _ _ _ _ _ _ _ _ _ _ rslt => rw [rslt]
    | refreshRelated => rfl
    | brokenOff _ _ _ _ _ plain => exact (plain r rfl).inst
    | changed cmd _ _ _ _ _ _ _ _ _ mem name =>
      have notReserved := cnc.commands_free cmd mem
      rw [name] at notReserved
      rcases hc with hc | hc <;> (rw [hc] at notReserved; exact absurd notReserved (by decide))

theorem Sent.done_validations {next : TopicPartition → Nat} (sent : Sent d next (tp, p) done cur ahead)
    {out : Outcome (Platform M)} {call : Call} {r : StepResult} {adds : List Step} (handled : Handled d net tp env logic p cur out call (some r) adds)
    (isOk : r.code = .ok) :
    ∀ s ∈ done ++ [d.doneStep net tp cur r], s.system = .process → s.command = create ∨ s.command = validateCreate →
      ∀ r, s.result = some r → r.inst = none := by
  intro s hs hp hc r' hr'
  rcases List.mem_append.1 hs with hs | hs
  · exact sent.validations s hs hp hc r' hr'
  · rw [List.mem_singleton.1 hs] at hp hc hr'
    rw [doneStep_result] at hr'
    cases hr'
    have callFor := handled.callFor
    have none : r.inst = none := by
      apply validation_inst handled.effect isOk
      · rw [callFor.system]
        simpa using hp
      · rw [callFor.command]
        simpa using hc
    exact none

/-- The message of the next step is well formed. -/
theorem Sent.next {next next' : TopicPartition → Nat} (sent : Sent d next (tp, p) done cur ahead)
    (seen : ∀ t, next t ≤ next' t) (read : net.next tp < next' tp) {out : Outcome (Platform M)} {call : Call}
    {r : StepResult} {adds tail : List Step} {nextStep : Step} {q : Publication}
    (handled : Handled d net tp env logic p cur out call (some r) adds) (isOk : r.code = .ok)
    (follows : adds ++ ahead = nextStep :: tail)
    (publishes : Publishes env
      (advanced p.txn done (d.doneStep net tp cur r)
        (nextStepOf (d.doneStep net tp cur r) nextStep (d.offset net tp)) tail)
      p.traceParent (nextStepOf (d.doneStep net tp cur r) nextStep (d.offset net tp)) q)
    (fits : q.fits = true) (topic : 0 < d.partitions nextStep.concern nextStep.system) :
    Sent d next' (d.partitionOf nextStep.concern nextStep.system q.hashKey, q)
      ((done ++ [d.doneStep net tp cur r]).map wireStep)
      (wireStep (nextStepOf (d.doneStep net tp cur r) nextStep (d.offset net tp))) (tail.map wireStep) := by
  have callFor := handled.callFor
  have hadds := commandEffect_adds isOk handled.effect
  have hplan := next_plan sent hadds callFor follows
  have ranStep : d.doneStep net tp cur r =
      (cur.keyed cur.key (d.offset net tp)).done r (instanceFor (net.stores tp) cur cur.key) := rfl
  have logged := sent.logged.next isOk hadds.pending follows ranStep
  have notLast : ¬(cur.system = .storageScnd ∨ cur.system = .storage ∧ cur.command = updateAsync) ∨ ahead ≠ [] := by
    by_contra h
    rw [not_or, not_not, not_not, ← callFor.system, ← callFor.command] at h
    rw [hadds.last h.1, h.2] at follows
    cases follows
  rw [← nextStepOf_concern (d.doneStep net tp cur r) nextStep (d.offset net tp),
    ← nextStepOf_system (d.doneStep net tp cur r) nextStep (d.offset net tp)]
  apply publishes.inFlight logged fits sent.noReverse
  · simpa using topic
  · -- a result with a key is followed by a step with that key
    intro hempty prev hprev r' hr'
    rw [List.getLast?_concat] at hprev
    cases hprev
    rw [doneStep_result] at hr'
    cases hr'
    by_contra hkey
    rcases hadds.key hkey with hs | ⟨a, rest, hcons, ha⟩
    · rw [callFor.system] at hs
      rcases notLast with h | h
      · exact h (.inl hs)
      · exact h (sent.secondary hs).2
    · rw [hcons] at follows
      cases follows
      rw [nextStepOf_key, ha] at hempty
      exact hkey hempty
  · rcases hplan with ⟨hs, plan⟩ | ⟨hs, plan, -⟩
    · rw [if_pos (by simp [hs])]
      exact plan.congr (by simp) (by simp) (by simp)
    · rw [if_neg (by simp [hs])]
      exact plan
  · exact sent.done_dated seen read r
  · intro hs
    rw [nextStepOf_system] at hs
    rcases hplan with ⟨hp, -⟩ | ⟨hst, -, concern, offset, route, process⟩
    · exact absurd hp hs
    · apply (sent.ran_dated seen read).congr (by simpa using concern)
      · rw [nextStepOf_storage_offset hst offset (by rw [doneStep_cmpdOffset, ran_cmpdOffset process]),
          ran_cmpdOffset process]
      · intro _ hcreate _
        rw [nextStepOf_command] at hcreate
        rcases route with route | ⟨hkey, hc, hv, -⟩
        · exact absurd route hcreate
        · exact ⟨by simp [process], by simpa using hc, by simpa using hv, by simpa using hkey⟩
  · intro hb
    obtain ⟨-, ha, hc⟩ := sent.generated hb
    rcases notLast with h | h
    · exact absurd hc h
    · exact absurd ha h
  · intro hs
    rw [nextStepOf_system] at hs
    rcases hplan with ⟨hp, -⟩ | ⟨hst, -⟩
    · rw [hp] at hs
      cases hs
    · rw [hst] at hs
      cases hs
  · exact sent.done_validations handled isOk

/-- So is the storage read that is injected for a step. -/
theorem Sent.miss {next next' : TopicPartition → Nat} (sent : Sent d next (tp, p) done cur ahead)
    (seen : ∀ t, next t ≤ next' t) (read : net.next tp < next' tp) {q : Publication} (looksUp : cur.looksUp = true)
    (key : cur.key ≠ "")
    (publishes : Publishes env
      { p.txn with forwardSteps := done ++ missSteps (d.ran net tp cur) ahead (d.offset net tp) }
      p.traceParent (readStep (d.ran net tp cur) (d.offset net tp)) q)
    (fits : q.fits = true) (topic : 0 < d.partitions cur.concern .storage) :
    Sent d next' (d.partitionOf cur.concern .storage q.hashKey, q)
      (done.map wireStep) (wireStep (readStep (d.ran net tp cur) (d.offset net tp)))
      ((missAhead (d.ran net tp cur) ahead).map wireStep) := by
  have system := looksUp_process looksUp
  have keyless : cur.isKeylessStep = false := by
    simp only [Step.looksUp, Bool.and_eq_true, Bool.not_eq_true'] at looksUp
    exact looksUp.1.2
  have logged : Logged _ done (readStep (d.ran net tp cur) (d.offset net tp)) (missAhead (d.ran net tp cur) ahead) :=
    sent.logged.miss cur.key (d.offset net tp)
  have concern : cur.concern = (readStep (d.ran net tp cur) (d.offset net tp)).concern := by simp [readStep]
  rw [concern]
  apply publishes.inFlight logged fits sent.noReverse _ _ _ _ _ _ _ sent.validations
  · simpa [readStep] using topic
  · intro hempty
    exact absurd (by simpa [readStep] using hempty) key
  · have plan := sent.plan
    rw [if_pos system] at plan
    rw [if_neg (by simp [readStep])]
    unfold missAhead
    split
    · rename_i hread
      rcases plan.tail with plan | ⟨c, rest', -, validates, -⟩
      · exact plan
      · rw [ran_command, validates] at hread
        exact absurd hread (by decide)
    · exact plan.congr (by simp) (by simp) (by simp)
  · intro s hs
    exact (sent.dated s hs).mono seen
  · intro _
    apply sent.message_dated read system
    · simp [readStep]
    · rfl
    · intro _ _
      exact ⟨keyless, by simp [readStep]⟩
  · intro hb
    obtain ⟨-, -, hs | ⟨hs, -⟩⟩ := sent.generated hb
    · rw [system] at hs
      cases hs
    · rw [system] at hs
      cases hs
  · intro hs
    cases hs

/-- A generated transaction is well formed. -/
theorem Sent.child {next : TopicPartition → Nat} {traceParent parent : String} {i : Nat} {step : Step}
    {q : Publication} (eq : q = childPub env traceParent parent i step)
    (system : step.system = .storage ∧ step.command = updateAsync ∨ step.system = .storageScnd)
    (pending : step.result = none) (dated : step.Dated d next)
    (valid : traceParentIsValid q.traceParent = true ∧ (RtApecsTxn.mk q.txn q.traceParent).validate = .ok ())
    (fits : q.fits = true) (topic : 0 < d.partitions step.concern step.system) :
    Sent d next (d.partitionOf step.concern step.system q.hashKey, q) [] (wireStep step) [] where
  logged := by
    subst eq
    exact (childTxn_logged pending).wire
  concern := rfl
  system := rfl
  partition := rfl
  hashKey := by
    subst eq
    intro hk
    have keyless : step.isKeylessStep = false := hk
    simp [childPub, keyless]
  valid := valid
  fits := fits
  noReverse := by simp [eq, childPub, childTxn, wireTxn]
  topic := topic
  keyed := by
    intro _ prev hprev
    cases hprev
  plan := by
    rw [wireStep_system, if_neg]
    · exact .nil
    · rcases system with ⟨hs, -⟩ | hs <;> simp [hs]
  dated := by simp
  curDated := fun _ => dated.wire
  generated := fun _ => ⟨rfl, rfl, system.symm⟩
  secondary := fun _ => ⟨rfl, rfl⟩
  validations := by simp

/-- The steps that transactions are generated for are those of the topics of storage, and dated. -/
theorem generates_dated {pb : RelatedCodecs} {store : InstanceStore} {next : TopicPartition → Nat}
    {steps : List Step} {step : Step} (h : Generates pb store steps step) (dated : ∀ s ∈ steps, s.Dated d next)
    (validations : ∀ s ∈ steps, s.system = .process → s.command = create ∨ s.command = validateCreate →
      ∀ r, s.result = some r → r.inst = none) :
    step.result = none ∧ (step.system = .storage ∧ step.command = updateAsync ∨ step.system = .storageScnd) ∧
      step.Dated d next := by
  cases h with
  | copy s r mem =>
    refine ⟨rfl, .inr rfl, (dated s mem).congr rfl rfl ?_⟩
    intro hs
    exact absurd rfl hs
  | update s payload mem updateOf =>
    refine ⟨rfl, .inl ⟨rfl, rfl⟩, (dated s mem).congr rfl rfl ?_⟩
    intro _ _ _
    have notValidation : ¬(s.command = create ∨ s.command = validateCreate) := by
      intro hc
      obtain ⟨r, hr, change, -⟩ := updateOf.change
      rw [isInstanceChange, validations s mem updateOf.system hc r hr] at change
      rcases hc with hc | hc <;> (rw [hc] at change; exact absurd change (by decide))
    rw [not_or] at notValidation
    exact ⟨by simp [updateOf.system], notValidation.1, notValidation.2, rfl⟩
  | updateScnd s payload mem =>
    refine ⟨rfl, .inr rfl, (dated s mem).congr rfl rfl ?_⟩
    intro hs
    exact absurd rfl hs

end

/-! ## Submission -/

theorem expandStep_plan {step : Step} (system : step.system = .process) (offset : step.cmpdOffset = none) :
    Plan (expandStep step) := by
  unfold expandStep
  dsimp only
  split
  · rename_i hc
    simp only [Bool.and_eq_true, decide_eq_true_eq] at hc
    exact .creation ⟨rfl, rfl⟩ ⟨rfl, hc.2⟩ rfl offset .nil
  split
  · exact .process rfl (.process system .nil)
  · exact .process system .nil

theorem flatMap_plan {steps : List Step} (h : ∀ s ∈ steps, s.system = .process ∧ s.cmpdOffset = none) :
    Plan (steps.flatMap expandStep) := by
  induction steps with
  | nil => exact .nil
  | cons s steps ih =>
    obtain ⟨system, offset⟩ := h s List.mem_cons_self
    exact (expandStep_plan system offset).concat (ih fun s' hs' => h s' (List.mem_cons_of_mem _ hs'))

theorem prepareStep_ok {env : Env} {u : TxnStep} {s : Step} (h : prepareStep env u = .ok s) :
    s.system = .process ∧ s.cmpdOffset = none ∧ s.concern = u.concern ∧ s.command = u.command ∧ s.key = u.key := by
  unfold prepareStep at h
  split at h
  · cases h
  · cases h
    exact ⟨rfl, rfl, rfl, rfl, rfl⟩

theorem prepared_process {env : Env} {user : List TxnStep} {steps : List Step}
    (h : user.mapM (prepareStep env) = .ok steps) : ∀ s ∈ steps, s.system = .process ∧ s.cmpdOffset = none :=
  Early.mapM_forall (fun s => s.system = .process ∧ s.cmpdOffset = none)
    (fun _ _ hs => ⟨(prepareStep_ok hs).1, (prepareStep_ok hs).2.1⟩) h

theorem Submitted.plan {env : Env} {traceParent : String} {txn : Txn} {p : Publication} {steps : List Step}
    {rtxn : ApecsTxn} {cur : Step} {rest : List Step} (h : Submitted env traceParent txn p steps rtxn cur rest) :
    Plan (cur :: rest) := by
  have whole := flatMap_plan (prepared_process h.prepared)
  rwa [← h.forward, h.logged.stands.steps] at whole

/-- A submitted transaction is well formed. -/
theorem Sent.submit {d : Deployment M} {next : TopicPartition → Nat} {env : Env} {traceParent : String} {txn : Txn}
    {p : Publication} {steps : List Step} {rtxn : ApecsTxn} {cur : Step} {rest : List Step}
    (h : Submitted env traceParent txn p steps rtxn cur rest) (fits : p.fits = true)
    (topic : 0 < d.partitions cur.concern cur.system) :
    Sent d next (d.partitionOf cur.concern cur.system p.hashKey, p) [] (wireStep cur) (rest.map wireStep) := by
  have plan := h.plan
  have system := plan.head
  apply h.publishes.inFlight h.logged fits h.noReverse topic
  · intro _ prev hprev
    cases hprev
  · rw [if_pos system]
    exact plan
  · simp
  · intro hs
    exact absurd system hs
  · intro hb
    rw [h.uponError] at hb
    split at hb <;> cases hb
  · intro hs
    rw [system] at hs
    cases hs
  · simp

/-! ## Steps of the system -/

section
variable {d : Deployment M} {net net' : Net M}

theorem after_next {tp : TopicPartition} {plat : Platform M} {inFlight : List (TopicPartition × Publication)} :
    (net.after tp plat inFlight).next = readNext net.next tp := by
  funext t
  rfl

/-- Messages that are well formed, and arrivals that are. -/
theorem Sound.arrive {pubs : List Publication} (delivered : Delivered d net pubs net') {next : TopicPartition → Nat}
    (same : net.next = next) (old : ∀ m ∈ net.inFlight, ∃ done cur ahead, Sent d next m done cur ahead)
    (new : ∀ q ∈ pubs, ∀ m, d.arrival q = some m → q.fits = true → 0 < d.partitions m.1.concern m.1.system →
      ∃ done cur ahead, Sent d next m done cur ahead) : Sound d net' := by
  intro m hm
  rw [delivered.inFlight] at hm
  rw [delivered.next, same]
  rcases List.mem_append.1 hm with hm | hm
  · exact old m hm
  · obtain ⟨q, hq, harr⟩ := List.mem_filterMap.1 hm
    obtain ⟨fits, topic⟩ := delivered.arrived q hq m harr
    exact new q hq m harr fits topic

theorem Sound.submit (sound : Sound d net) {env : Env} {traceParent : String} {txn : Txn}
    {respTarget : Option TopicTarget} (h : d.step net (.submit env traceParent txn respTarget) = some net') :
    Sound d net' := by
  simp only [Deployment.step] at h
  split at h
  · cases h
  rename_i p hp
  obtain ⟨steps, rtxn, cur, rest, submitted⟩ := executeTxnAsync_ok hp
  apply Sound.arrive (deliver_some h) rfl sound
  intro q hq m harr fits topic
  rw [List.mem_singleton.1 hq] at harr fits
  rw [submitted.publishes.arrival] at harr
  cases harr
  exact ⟨[], _, _, Sent.submit submitted fits topic⟩

/-- A message that arrives from the consumer of `p`, with where it stands. -/
inductive Arrival (d : Deployment M) (net : Net M) (tp : TopicPartition) (env : Env) (logic : LogicHandler M)
    (p : Publication) (done : List Step) (cur : Step) (ahead : List Step) (out : Outcome (Platform M)) :
    TopicPartition × Publication → List Step → Step → List Step → Prop
  /-- The instance is not cached: storage reads it first. -/
  | read (q : Publication) (looksUp : cur.looksUp = true) (key : cur.key ≠ "")
      (missing : (net.stores tp).getInstance cur.key = none) (state : out.state = Deployment.platform net tp)
      (id : q.txn.id = p.txn.id) :
      Arrival d net tp env logic p done cur ahead out (d.partitionOf cur.concern .storage q.hashKey, q)
        (done.map wireStep) (wireStep (readStep (d.ran net tp cur) (d.offset net tp)))
        ((missAhead (d.ran net tp cur) ahead).map wireStep)
  | next (q : Publication) (call : Call) (r : StepResult) (adds : List Step) (nextStep : Step) (tail : List Step)
      (handled : Handled d net tp env logic p cur out call (some r) adds) (resultOk : r.code = .ok)
      (follows : adds ++ ahead = nextStep :: tail) (id : q.txn.id = p.txn.id) :
      Arrival d net tp env logic p done cur ahead out (d.partitionOf nextStep.concern nextStep.system q.hashKey, q)
        ((done ++ [d.doneStep net tp cur r]).map wireStep)
        (wireStep (nextStepOf (d.doneStep net tp cur r) nextStep (d.offset net tp))) (tail.map wireStep)
  /-- The transaction has completed and generated another. -/
  | child (call : Call) (r : StepResult) (adds : List Step) (step : Step) (i : Nat)
      (handled : Handled d net tp env logic p cur out call (some r) adds) (resultOk : r.code = .ok)
      (last : adds ++ ahead = [])
      (generates : Generates d.cc.pb out.state.instanceStore (done ++ [d.doneStep net tp cur r]) step) :
      Arrival d net tp env logic p done cur ahead out
        (d.partitionOf step.concern step.system (if step.isKeylessStep then env.uid else stringBytes step.key),
          childPub env p.traceParent p.txn.id i step) [] (wireStep step) []

/-- What a consumer publishes for another is well formed. -/
theorem Taken.arrivals {next next' : TopicPartition → Nat} {tp : TopicPartition} {env : Env} {logic : LogicHandler M} {p : Publication}
    {before after : List (TopicPartition × Publication)} {done ahead : List Step} {cur : Step}
    (h : Taken d next net tp env logic net' p before after done cur ahead) (seen : ∀ t, next t ≤ next' t)
    (read : net.next tp < next' tp) :
    ∀ q ∈ (d.outcome net tp env logic p).published, ∀ m, d.arrival q = some m → q.fits = true →
      0 < d.partitions m.1.concern m.1.system →
      ∃ done' cur' ahead', Arrival d net tp env logic p done cur ahead (d.outcome net tp env logic p) m done' cur' ahead' ∧
        Sent d next' m done' cur' ahead' := by
  intro q hq m harr fits topic
  have errorless : ∀ pubs, ErrorOnly pubs → q ∈ pubs → False := by
    intro pubs only hq
    have := List.filterMap_eq_nil_iff.1 (errorOnly_arrivals (d := d) only) q hq
    rw [harr] at this
    cases this
  have sent := h.sent
  cases h.fate with
  | rejected _ _ errors => exact (errorless _ errors hq).elim
  | failed _ _ _ _ _ errors => exact (errorless _ errors hq).elim
  | missed q' looksUp key missing state call published publishes =>
    rw [published, List.mem_singleton] at hq
    subst hq
    rw [publishes.arrival] at harr
    cases harr
    have concern : (readStep (d.ran net tp cur) (d.offset net tp)).concern = cur.concern := by simp [readStep]
    have system : (readStep (d.ran net tp cur) (d.offset net tp)).system = .storage := rfl
    rw [concern] at topic
    rw [concern, system]
    exact ⟨_, _, _, .read q looksUp key missing state (by rw [publishes.sent]; rfl), sent.miss seen read looksUp key publishes fits topic⟩
  | next call r adds nextStep tail handled resultOk isOk follows published =>
    rcases published with ⟨errors, -⟩ | ⟨q', hpub, publishes⟩
    · exact (errorless _ errors hq).elim
    rw [hpub, List.mem_singleton] at hq
    subst hq
    rw [publishes.arrival] at harr
    cases harr
    rw [nextStepOf_concern, nextStepOf_system] at topic ⊢
    exact ⟨_, _, _, .next q call r adds nextStep tail handled resultOk follows (by rw [publishes.sent]; rfl),
      sent.next seen read handled resultOk follows publishes fits topic⟩
  | completed call r adds c steps handled resultOk isOk last generated published children =>
    have isStep : q.dest.IsStep := by
      unfold Deployment.arrival at harr
      cases hdest : q.dest with
      | response t => rw [hdest] at harr; cases harr
      | topic c name =>
        rw [hdest] at harr
        refine ⟨c, name, rfl, ?_, ?_⟩ <;> (rintro rfl; cases harr)
    have child : q ∈ c.published := by
      rcases published with ⟨first, comp, hpub, only⟩ | ⟨errs, hpub, only⟩
      · rw [hpub] at hq
        rcases List.mem_append.1 hq with hq | hq
        · exact hq
        · have none := List.filterMap_eq_nil_iff.1 (completeOnly_arrivals (d := d) only) q hq
          rw [harr] at none
          cases none
      · rw [hpub] at hq
        rcases List.mem_append.1 hq with hq | hq
        · exact hq
        · exact (errorless _ only hq).elim
    rw [generated.published] at child
    obtain ⟨step, hstep, i, hchild⟩ := mem_childPubs child
    have dated : ∀ s ∈ done ++ [d.doneStep net tp cur r], s.Dated d next' := sent.done_dated seen read r
    have validations := sent.done_validations handled resultOk
    have generates := generated.generates hstep
    obtain ⟨pending, system, stepDated⟩ := generates_dated generates dated validations
    obtain ⟨id, parent, step', -, publishes⟩ := children q hq isStep
    have valid : traceParentIsValid q.traceParent = true ∧ (RtApecsTxn.mk q.txn q.traceParent).validate = .ok () := by
      rw [publishes.sent, publishes.parent]
      exact ⟨publishes.valid.1, validate_wire rfl publishes.valid.2⟩
    have storage : step.system = .storage ∨ step.system = .storageScnd := system.imp And.left fun h => h
    subst hchild
    rw [childPub_arrival storage] at harr
    cases harr
    exact ⟨[], _, [], .child call r adds step i handled resultOk last generates,
      Sent.child rfl system pending stepDated valid fits topic⟩

/-- After a step of a consumer a message has been in flight before, or has just arrived. -/
theorem Taken.inFlight {next next' : TopicPartition → Nat} {tp : TopicPartition} {env : Env} {logic : LogicHandler M} {p : Publication}
    {before after : List (TopicPartition × Publication)} {done ahead : List Step} {cur : Step}
    (h : Taken d next net tp env logic net' p before after done cur ahead) (seen : ∀ t, next t ≤ next' t)
    (read : bailsOut p (d.outcome net tp env logic p).code = false → net.next tp < next' tp)
    {m : TopicPartition × Publication} (hm : m ∈ net'.inFlight) :
    m ∈ net.inFlight ∨ ∃ done' cur' ahead',
      Arrival d net tp env logic p done cur ahead (d.outcome net tp env logic p) m done' cur' ahead' ∧
        Sent d next' m done' cur' ahead' := by
  rcases h.delivered with ⟨bails, delivered⟩ | ⟨stays, delivered⟩ <;>
    rw [delivered.inFlight, List.mem_append] at hm
  · rcases hm with hm | hm
    · exact .inl hm
    · -- nothing but errors has been published
      have errors : ErrorOnly (d.outcome net tp env logic p).published := by
        cases h.fate with
        | rejected _ _ errors => exact errors
        | failed _ _ _ _ _ errors => exact errors
        | missed _ _ _ _ _ _ _ _ isOk => exact absurd isOk (bailsOut_notOk bails)
        | next _ _ _ _ _ _ _ isOk => exact absurd isOk (bailsOut_notOk bails)
        | completed _ _ _ _ _ _ _ isOk => exact absurd isOk (bailsOut_notOk bails)
      rw [errorOnly_arrivals errors] at hm
      cases hm
  · rcases hm with hm | hm
    · left
      rw [h.split]
      rcases List.mem_append.1 hm with hm | hm
      · exact List.mem_append_left _ hm
      · exact List.mem_append_right _ (List.mem_cons_of_mem _ hm)
    · right
      obtain ⟨q, hq, harr⟩ := List.mem_filterMap.1 hm
      obtain ⟨fits, topic⟩ := delivered.arrived q hq m harr
      exact h.arrivals seen (read stays) q hq m harr fits topic

theorem Consumed.next_le {tp : TopicPartition} {env : Env} {logic : LogicHandler M} {p : Publication}
    {before after : List (TopicPartition × Publication)} {done ahead : List Step} {cur : Step}
    (h : Consumed d net tp env logic net' p before after done cur ahead) (t : TopicPartition) :
    net.next t ≤ net'.next t := by
  rcases h.delivered with ⟨-, delivered⟩ | ⟨-, delivered⟩ <;> rw [delivered.next]
  · exact le_refl _
  · rw [after_next]
    exact readNext_le _ _ _

theorem Consumed.next_lt {tp : TopicPartition} {env : Env} {logic : LogicHandler M} {p : Publication}
    {before after : List (TopicPartition × Publication)} {done ahead : List Step} {cur : Step}
    (h : Consumed d net tp env logic net' p before after done cur ahead)
    (stays : bailsOut p (d.outcome net tp env logic p).code = false) : net.next tp < net'.next tp := by
  rcases h.delivered with ⟨bails, -⟩ | ⟨-, delivered⟩
  · rw [stays] at bails
    cases bails
  · rw [delivered.next, after_next]
    simp [readNext]

theorem Sound.consume (sound : Sound d net) {tp : TopicPartition} {env : Env} {logic : LogicHandler M}
    (h : d.step net (.consume tp env logic) = some net') : Sound d net' := by
  obtain ⟨p, before, after, done, cur, ahead, consumed⟩ := consume_fate sound h
  intro m hm
  rcases consumed.inFlight consumed.next_le consumed.next_lt hm with hm | ⟨done', cur', ahead', -, sent⟩
  · obtain ⟨done', cur', ahead', sent⟩ := sound m hm
    exact ⟨done', cur', ahead', sent.mono consumed.next_le⟩
  · exact ⟨done', cur', ahead', sent⟩

/-- Every step of the system leaves only well formed messages in flight. -/
theorem Sound.step (sound : Sound d net) {a : Action M} (h : d.step net a = some net') : Sound d net' := by
  cases a with
  | submit env traceParent txn respTarget => exact sound.submit h
  | consume tp env logic => exact sound.consume h

/-- And so does every run. -/
theorem Sound.run {tr : List (Net M × Action M)} (sound : Sound d net) (run : Path d.step net tr net') :
    Sound d net' :=
  run.invariant (Sound d) (fun _ _ => True) sound (fun _ _ _ _ sound hs => sound.step hs) (by simp)

/-- Consumers only move on. -/
theorem step_next (sound : Sound d net) {a : Action M} (h : d.step net a = some net') (tp : TopicPartition) :
    net.next tp ≤ net'.next tp := by
  cases a with
  | submit env traceParent txn respTarget =>
    simp only [Deployment.step] at h
    split at h
    · cases h
    · rw [(deliver_some h).next]
  | consume tp' env logic =>
    obtain ⟨p, before, after, done, cur, ahead, consumed⟩ := consume_fate sound h
    exact consumed.next_le tp

theorem run_next {tr : List (Net M × Action M)} (sound : Sound d net) (run : Path d.step net tr net')
    (tp : TopicPartition) : net.next tp ≤ net'.next tp := by
  have both : Sound d net' ∧ net.next tp ≤ net'.next tp := by
    apply run.invariant (fun n => Sound d n ∧ net.next tp ≤ n.next tp) (fun _ _ => True) ⟨sound, le_refl _⟩
    · rintro n a n' - ⟨hs, le⟩ hstep
      exact ⟨hs.step hstep, le.trans (step_next hs hstep tp)⟩
    · simp
  exact both.2

/-- A call is made for the message that is read. -/
theorem Taken.handled {next : TopicPartition → Nat} {tp : TopicPartition} {env : Env} {logic : LogicHandler M} {p : Publication}
    {before after : List (TopicPartition × Publication)} {done ahead : List Step} {cur : Step} {call : Call}
    {rslt : Option StepResult} (h : Taken d next net tp env logic net' p before after done cur ahead)
    (hc : d.called net (.consume tp env logic) = some (call, rslt)) :
    ∃ adds, Handled d net tp env logic p cur (d.outcome net tp env logic p) call rslt adds := by
  simp only [Deployment.called, h.taken] at hc
  have same : ∀ {call' rslt' adds}, Handled d net tp env logic p cur (d.outcome net tp env logic p) call' rslt' adds →
      Handled d net tp env logic p cur (d.outcome net tp env logic p) call rslt adds := by
    intro call' rslt' adds handled
    rw [handled.recorded] at hc
    cases hc
    exact handled
  cases h.fate with
  | rejected _ none => rw [none] at hc; cases hc
  | missed _ _ _ _ _ none => rw [none] at hc; cases hc
  | failed _ _ adds handled => exact ⟨adds, same handled⟩
  | next _ _ adds _ _ handled => exact ⟨adds, same handled⟩
  | completed _ _ adds _ _ handled => exact ⟨adds, same handled⟩

/-- The message that a call is made for. -/
theorem called_handled (sound : Sound d net) {a : Action M} (h : d.step net a = some net') {call : Call}
    {rslt : Option StepResult} (hc : d.called net a = some (call, rslt)) :
    ∃ tp env logic p before after done cur ahead adds, a = .consume tp env logic ∧
      Consumed d net tp env logic net' p before after done cur ahead ∧
      Handled d net tp env logic p cur (d.outcome net tp env logic p) call rslt adds := by
  cases a with
  | submit => cases hc
  | consume tp env logic =>
    obtain ⟨p, before, after, done, cur, ahead, consumed⟩ := consume_fate sound h
    obtain ⟨adds, handled⟩ := consumed.handled hc
    exact ⟨tp, env, logic, p, before, after, done, cur, ahead, adds, rfl, consumed, handled⟩

end

end Rocketcycle
