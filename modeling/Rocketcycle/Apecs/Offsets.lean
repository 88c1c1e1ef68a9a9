import Rocketcycle.Apecs.TxnLog

/-!
# The offsets of storage steps

Which process message the offset of a storage step comes from. Handlers are arbitrary but for the
steps that they insert: these have no offset yet, and none of them is for secondary storage, as
`produceNextStep` hands an offset to `STORAGE` steps only.
-/

namespace Rocketcycle

open Command

def InsertsUndated {σ : Type} (handleCommand : HandleCommand σ) : Prop :=
  ∀ call s, ∀ add ∈ (handleCommand call s).1.2, add.cmpdOffset = none ∧ add.system ≠ .storageScnd

/-- The messages of a run, each with the offset of the last process message that was handled for its
transaction. A generated transaction starts with the offset of the step it is generated from. -/
inductive Tracked (traceParent : String) (txn : Txn) (respTarget : Option TopicTarget) :
    Publication → Option CompoundOffset → Prop
  | submit {env : Env} {p : Publication}
      (h : executeTxnAsync env traceParent (some txn) respTarget = .ok p) : Tracked traceParent txn respTarget p none
  /-- The transaction itself goes on: nothing has run, or it stands at a later step. -/
  | moved {reading : Reading} {p q : Publication} {last : Option CompoundOffset}
      (tracked : Tracked traceParent txn respTarget p last) (inserts : InsertsUndated reading.handleCommand)
      (h : q ∈ (reading.outcome p).published) (step : q.dest.IsStep)
      (same : (reading.outcome p).call = none ∨ 0 < q.txn.currentStepIdx) :
      Tracked traceParent txn respTarget q (if reading.tp.system = .process then some reading.cmpdOffset else last)
  /-- The step that has run was the last one, and another transaction is generated for `parent`. -/
  | generated {reading : Reading} {p q : Publication} {last : Option CompoundOffset}
      (tracked : Tracked traceParent txn respTarget p last) (inserts : InsertsUndated reading.handleCommand)
      (h : q ∈ (reading.outcome p).published) (step : q.dest.IsStep) {call : Call} {r : StepResult}
      (called : (reading.outcome p).call = some (call, some r)) (other : q.txn.currentStepIdx = 0)
      {done rest : List Step} {cur parent child : Step} (stands : p.txn.At done cur rest)
      (mem : parent ∈ done ++ [(cur.keyed call.args.key reading.cmpdOffset).done r call.args.inst])
      (generates : Generates reading.pb (reading.instanceStore (reading.outcome p).state) [parent] child)
      (sent : q.txn.forwardSteps = [wireStep child]) :
      Tracked traceParent txn respTarget q parent.cmpdOffset

/-- What the run maintains of the offsets in a transaction. -/
structure OffsetsKept (txn : ApecsTxn) (last : Option CompoundOffset) (done : List Step) (cur : Step)
    (rest : List Step) : Prop where
  stands : txn.At done cur rest
  behind : ∀ s ∈ done, s.cmpdOffset.isSome
  current : cur.system = .process ∨ last.isSome ∧ cur.cmpdOffset = last
  ahead : ∀ s ∈ rest, s.system ≠ .storageScnd ∧ (s.system = .storage → s.cmpdOffset = none)

/-- The same of a message, which has crossed the wire. -/
def OffsetsIn (p : Publication) (last : Option CompoundOffset) : Prop :=
  traceParentIsValid p.traceParent = true ∧ ∃ done cur rest, OffsetsKept p.txn last done cur rest

section
variable {last : Option CompoundOffset} {done rest : List Step} {cur : Step}

theorem OffsetsKept.wire {txn : ApecsTxn} (h : OffsetsKept txn last done cur rest) :
    OffsetsKept (wireTxn txn) last (done.map wireStep) (wireStep cur) (rest.map wireStep) := by
  refine ⟨h.stands.wire, ?_, h.current, ?_⟩
  · intro s hs
    obtain ⟨s', hs', rfl⟩ := List.mem_map.1 hs
    exact h.behind s' hs'
  · intro s hs
    obtain ⟨s', hs', rfl⟩ := List.mem_map.1 hs
    exact h.ahead s' hs'

theorem Publishes.offsetsIn {env : Env} {txn : ApecsTxn} {traceParent : String} {step : Step} {q : Publication}
    (publishes : Publishes env txn traceParent step q) (kept : OffsetsKept txn last done cur rest) :
    OffsetsIn q last := by
  refine ⟨publishes.parent ▸ publishes.valid.1, done.map wireStep, wireStep cur, rest.map wireStep, ?_⟩
  rw [publishes.sent]
  exact kept.wire

/-- A step that has run has an offset, which is the one in `last` once its message counts. -/
theorem OffsetsKept.ran {txn : ApecsTxn} (h : OffsetsKept txn last done cur rest) (key : String) (o : CompoundOffset) :
    (cur.keyed key o).cmpdOffset.isSome ∧
      (cur.keyed key o).cmpdOffset = if cur.system = .process then some o else last := by
  by_cases process : cur.system = .process
  · rw [keyed_process_offset process, if_pos process]
    exact ⟨rfl, rfl⟩
  · obtain ⟨isSome, eq⟩ := h.current.resolve_left process
    rw [keyed_storage_offset process, if_neg process, eq]
    exact ⟨isSome, rfl⟩

/-- The storage read for a miss has the offset of the message that missed. -/
theorem OffsetsKept.miss {txn : ApecsTxn} (h : OffsetsKept txn last done cur rest) (process : cur.system = .process)
    (key : String) (o : CompoundOffset) :
    OffsetsKept { txn with forwardSteps := done ++ missSteps (cur.keyed key o) rest o } (some o) done
      (readStep (cur.keyed key o) o) (missAhead (cur.keyed key o) rest) := by
  refine ⟨h.stands.miss _ _, h.behind, .inr ⟨rfl, rfl⟩, fun s hs => ?_⟩
  rcases mem_missAhead hs with rfl | hs
  · simp [process]
  · exact h.ahead s hs

/-- The step that has run hands its offset on to the next one, if that is a storage step. -/
theorem OffsetsKept.next {txn : ApecsTxn} (h : OffsetsKept txn last done cur rest) {key : String} {o : CompoundOffset}
    {r : StepResult} {inst : Option Bytes} {addSteps tail : List Step} {nextStep step : Step}
    (adds : ∀ s ∈ addSteps, s.cmpdOffset = none ∧ s.system ≠ .storageScnd) (follows : addSteps ++ rest = nextStep :: tail)
    (isDone : step = (cur.keyed key o).done r inst) (system : ∃ name, systemToTopic nextStep.system = some name) :
    OffsetsKept
      { txn with
        currentStepIdx := txn.currentStepIdx + 1,
        forwardSteps := (done ++ [step]) ++ nextStepOf step nextStep o :: tail }
      (if cur.system = .process then some o else last) (done ++ [step]) (nextStepOf step nextStep o) tail := by
  obtain ⟨isSome, ran⟩ := h.ran key o
  have offset : step.cmpdOffset = (cur.keyed key o).cmpdOffset := by rw [isDone]; rfl
  have undated : ∀ s ∈ nextStep :: tail, s.system ≠ .storageScnd ∧ (s.system = .storage → s.cmpdOffset = none) := by
    rw [← follows]
    intro s hs
    rcases List.mem_append.1 hs with hs | hs
    · obtain ⟨none, notScnd⟩ := adds s hs
      exact ⟨notScnd, fun _ => none⟩
    · exact h.ahead s hs
  refine ⟨h.stands.next _ _ _, ?_, ?_, fun s hs => undated s (List.mem_cons_of_mem _ hs)⟩
  · intro s hs
    rcases List.mem_append.1 hs with hs | hs
    · exact h.behind s hs
    · rw [List.mem_singleton.1 hs, offset]
      exact isSome
  · obtain ⟨notScnd, none⟩ := undated nextStep List.mem_cons_self
    obtain ⟨name, topic⟩ := system
    cases hs : nextStep.system with
    | process => exact .inl (by rw [nextStepOf_system, hs])
    | storageScnd => exact absurd hs notScnd
    | noSystem => rw [hs] at topic; cases topic
    | unknown n => rw [hs] at topic; cases topic
    | storage =>
      right
      rw [← ran]
      obtain ⟨o', ho'⟩ := Option.isSome_iff_exists.1 isSome
      refine ⟨isSome, ?_⟩
      rw [nextStepOf_eq, ho']
      simp [hs, none hs, offset, ho']

/-- A generated step is generated from one step of the transaction. -/
theorem Generates.parent {pb : RelatedCodecs} {store : InstanceStore} {steps : List Step} {child : Step}
    (h : Generates pb store steps child) : ∃ parent ∈ steps, Generates pb store [parent] child := by
  cases h with
  | copy s r mem isWrite result => exact ⟨s, mem, .copy s r List.mem_cons_self isWrite result⟩
  | update s payload mem updateOf => exact ⟨s, mem, .update s payload List.mem_cons_self updateOf⟩
  | updateScnd s payload mem updateOf => exact ⟨s, mem, .updateScnd s payload List.mem_cons_self updateOf⟩

/-- It takes the offset of that step. -/
theorem Generates.offset {pb : RelatedCodecs} {store : InstanceStore} {parent child : Step}
    (h : Generates pb store [parent] child) : child.cmpdOffset = parent.cmpdOffset ∧ child.system ≠ .process := by
  cases h with
  | copy s r mem =>
    rw [List.mem_singleton.1 mem]
    exact ⟨rfl, by simp [secondaryStep]⟩
  | update s payload mem =>
    rw [List.mem_singleton.1 mem]
    exact ⟨rfl, by simp [updateAsyncStep]⟩
  | updateScnd s payload mem =>
    rw [List.mem_singleton.1 mem]
    exact ⟨rfl, by simp⟩

end

section
variable {reading : Reading} {p q : Publication} {last : Option CompoundOffset} {done rest : List Step} {cur : Step}

/-- The ways a message is followed, with the offsets kept in each. -/
theorem OffsetsKept.follow (kept : OffsetsKept p.txn last done cur rest)
    (valid : traceParentIsValid p.traceParent = true) (inserts : InsertsUndated reading.handleCommand)
    (hq : q ∈ (reading.outcome p).published) (step : q.dest.IsStep) :
    (((reading.outcome p).call = none ∨ 0 < q.txn.currentStepIdx) ∧
        OffsetsIn q (if reading.tp.system = .process then some reading.cmpdOffset else last)) ∨
      ∃ call r parent child, (reading.outcome p).call = some (call, some r) ∧ q.txn.currentStepIdx = 0 ∧
        parent ∈ done ++ [(cur.keyed call.args.key reading.cmpdOffset).done r call.args.inst] ∧
        Generates reading.pb (reading.instanceStore (reading.outcome p).state) [parent] child ∧
        q.txn.forwardSteps = [wireStep child] ∧ OffsetsIn q parent.cmpdOffset := by
  cases advance_continues valid kept.stands hq step with
  | missed key system keyed process call publishes =>
    left
    rw [← system, if_pos process]
    exact ⟨.inl call, publishes.offsetsIn (kept.miss process key reading.cmpdOffset)⟩
  | next key call r addSteps nextStep tail system keyed ran isOk follows step isDone publishes =>
    left
    have adds : ∀ s ∈ addSteps, s.cmpdOffset = none ∧ s.system ≠ .storageScnd := by
      intro s hs
      have := inserts call reading.s s
      rw [ran.handled] at this
      exact this hs
    have topic : ∃ name, systemToTopic nextStep.system = some name := by
      obtain ⟨name, hname, -⟩ := publishes.dest
      rw [nextStepOf_system] at hname
      exact ⟨name, hname⟩
    rw [← system]
    refine ⟨.inr ?_, publishes.offsetsIn (kept.next adds follows isDone topic)⟩
    rw [publishes.sent]
    show 0 < p.txn.currentStepIdx + 1
    have := kept.stands.idx
    omega
  | generated key call r addSteps system keyed ran isOk last' step isDone id parent child generates publishes =>
    right
    obtain ⟨s, mem, from'⟩ := generates.parent
    have args : call.args.key = key ∧ call.args.inst = instanceFor (reading.instanceStore reading.s) cur key := by
      rw [ran.called]
      exact ⟨keyed_key _ _ _, rfl⟩
    have dated : s.cmpdOffset.isSome := by
      rcases List.mem_append.1 mem with mem | mem
      · exact kept.behind s mem
      · rw [List.mem_singleton.1 mem, isDone]
        exact (kept.ran key reading.cmpdOffset).1
    refine ⟨call, r, s, child, ran.recorded, ?_, ?_, from', ?_, ?_⟩
    · rw [publishes.sent]
      rfl
    · rw [args.1, args.2, ← isDone]
      exact mem
    · rw [publishes.sent]
      rfl
    · have only : OffsetsKept (childTxn id parent child) s.cmpdOffset [] child [] :=
        ⟨childTxn_at _ _ _, by simp, .inr ⟨dated, from'.offset.1⟩, by simp⟩
      exact publishes.offsetsIn only

end

/-! ## Runs -/

/-- A prepared step becomes a process step and at most one step behind it. -/
theorem expandStep_undated {env : Env} {u : TxnStep} {t : Step} (h : prepareStep env u = .ok t) :
    (∀ s ∈ expandStep t, s.cmpdOffset = none ∧ s.system ≠ .storageScnd) ∧
      ∃ s rest, expandStep t = s :: rest ∧ s.system = .process := by
  unfold prepareStep at h
  split at h
  · cases h
  cases h
  by_cases hc : u.command = create
  · simp [expandStep, hc]
  by_cases hu : u.command = update
  · have ne : update ≠ create := by decide
    simp [expandStep, hu, ne]
  · simp [expandStep, hc, hu]

theorem prepared_undated {env : Env} {user : List TxnStep} {steps : List Step}
    (h : user.mapM (prepareStep env) = .ok steps) :
    (∀ s ∈ steps.flatMap expandStep, s.cmpdOffset = none ∧ s.system ≠ .storageScnd) ∧
      ∀ s ∈ (steps.flatMap expandStep).head?, s.system = .process := by
  induction user generalizing steps with
  | nil =>
    rw [List.mapM_nil] at h
    cases h
    simp
  | cons u user ih =>
    rw [List.mapM_cons] at h
    cases hu : prepareStep env u with
    | error e => rw [hu] at h; cases h
    | ok t =>
      cases hrest : user.mapM (prepareStep env) with
      | error e => rw [hu, hrest] at h; cases h
      | ok ts =>
        rw [hu, hrest] at h
        cases h
        obtain ⟨undated, first, more, heads, process⟩ := expandStep_undated hu
        obtain ⟨undated', -⟩ := ih hrest
        refine ⟨fun s hs => ?_, ?_⟩
        · rw [List.flatMap_cons] at hs
          rcases List.mem_append.1 hs with hs | hs
          · exact undated s hs
          · exact undated' s hs
        · intro s hs
          rw [List.flatMap_cons, heads] at hs
          cases hs
          exact process

theorem submit_offsetsIn {env : Env} {traceParent : String} {txn : Txn} {respTarget : Option TopicTarget}
    {p : Publication} (h : executeTxnAsync env traceParent (some txn) respTarget = .ok p) : OffsetsIn p none := by
  obtain ⟨steps, rtxn, cur, rest, submitted⟩ := executeTxnAsync_ok h
  obtain ⟨undated, first⟩ := prepared_undated submitted.prepared
  have stands := submitted.logged.stands
  rw [← submitted.forward, stands.steps] at undated first
  refine submitted.publishes.offsetsIn ⟨stands, by simp, .inl (first cur rfl), fun s hs => ?_⟩
  obtain ⟨none, notScnd⟩ := undated s (List.mem_cons_of_mem _ hs)
  exact ⟨notScnd, fun _ => none⟩

section
variable {traceParent : String} {txn : Txn} {respTarget : Option TopicTarget} {p : Publication}
  {last : Option CompoundOffset}

theorem Tracked.offsetsIn (h : Tracked traceParent txn respTarget p last) : OffsetsIn p last := by
  induction h with
  | submit h => exact submit_offsetsIn h
  | moved tracked inserts h step same ih =>
    obtain ⟨valid, done, cur, rest, kept⟩ := ih
    rcases kept.follow valid inserts h step with ⟨-, offsets⟩ | ⟨call, r, parent, child, called, first, -⟩
    · exact offsets
    · rcases same with none | later
      · rw [none] at called
        cases called
      · omega
  | @generated reading p q last tracked inserts h step call r called other done rest cur parent child stands mem
      generates sent ih =>
    obtain ⟨valid, done', cur', rest', kept⟩ := ih
    rcases kept.follow valid inserts h step with ⟨same, -⟩ | ⟨call', r', parent', child', -, -, -, -, -, offsets⟩
    · rcases same with none | later
      · rw [none] at called
        cases called
      · omega
    · -- the only step of the message is `child`, whichever step it is taken to come from
      obtain ⟨valid', done'', cur'', rest'', kept''⟩ := id offsets
      have none : done'' = [] := by
        have := kept''.stands.idx
        rw [other] at this
        exact List.length_eq_zero_iff.1 (by omega)
      have steps := kept''.stands.steps
      rw [sent, none] at steps
      have isChild : cur'' = wireStep child := (List.cons.inj steps).1.symm
      obtain ⟨offset, notProcess⟩ := generates.offset
      have current := kept''.current
      rw [isChild] at current
      have same : parent.cmpdOffset = parent'.cmpdOffset := offset.symm.trans (current.resolve_left notProcess).2
      rw [same]
      exact offsets

theorem Tracked.follow {reading : Reading} {q : Publication} (tracked : Tracked traceParent txn respTarget p last)
    (inserts : InsertsUndated reading.handleCommand) (hq : q ∈ (reading.outcome p).published) (step : q.dest.IsStep) :
    ∃ last', Tracked traceParent txn respTarget q last' := by
  obtain ⟨valid, done, cur, rest, kept⟩ := tracked.offsetsIn
  rcases kept.follow valid inserts hq step with ⟨same, -⟩ | ⟨call, r, parent, child, called, other, mem, from', sent, -⟩
  · exact ⟨_, .moved tracked inserts hq step same⟩
  · exact ⟨_, .generated tracked inserts hq step called other kept.stands mem from' sent⟩

/-- Over whole runs every storage step has the offset of the last process message handled for its
transaction when it reaches its consumer, a generated one that of the step it was generated from
before there is such a message: the check for a missing offset never fails. -/
theorem storage_step_knows_offset (tracked : Tracked traceParent txn respTarget p last) :
    (∀ step, p.txn.currentStep = some step → isStorageSystem step.system = true →
      step.cmpdOffset.isSome ∧ step.cmpdOffset = last) ∧
    (∀ (reading : Reading) (call : Call) (rslt : Option StepResult),
      (reading.outcome p).call = some (call, rslt) → isStorageSystem call.system = true →
        some call.args.cmpdOffset = last) ∧
    ∀ reading : Reading, InsertsUndated reading.handleCommand → ∀ q ∈ (reading.outcome p).published, q.dest.IsStep →
      ∃ last', Tracked traceParent txn respTarget q last' := by
  obtain ⟨valid, done, cur, rest, kept⟩ := tracked.offsetsIn
  have notProcess : ∀ {system : System}, isStorageSystem system = true → system ≠ .process := by
    rintro _ h rfl
    cases h
  refine ⟨?_, ?_, fun reading inserts q hq step => tracked.follow inserts hq step⟩
  · intro step hs storage
    rw [kept.stands.currentStep] at hs
    cases hs
    obtain ⟨isSome, eq⟩ := kept.current.resolve_left (notProcess storage)
    exact ⟨eq ▸ isSome, eq⟩
  · intro reading call rslt called storage
    obtain ⟨-, key, addSteps, ran⟩ := advance_called valid kept.stands called
    have system : call.system = cur.system := by
      rw [ran.called]
      exact keyed_system _ _ _
    have offset := (kept.ran key reading.cmpdOffset).2
    rw [ran.offset, if_neg (notProcess (system ▸ storage))] at offset
    exact offset

end

/-! ## Small runs -/

/-- The update that is generated for the sample command, consumed at offset 7. -/
def sampleUpdatePub : Publication :=
  { dest := .topic "Player" .storage, hashKey := stringBytes "k", traceParent := sampleTraceParent,
    txn := { id := "child0", assocTxns := [⟨"0123456789abcdef0123456789abcdef", .parent⟩], uponError := .bailout,
             forwardSteps := [{ system := .storage, concern := "Player", command := updateAsync, key := "k",
                                payload := packPayloads (some [2]) none, effectiveTime := some 0,
                                cmpdOffset := some ⟨1, 0, 7⟩ }] } }

theorem sampleUpdatePub_published :
    sampleUpdatePub ∈ ((sampleReading (fun _ => []) .process 7).outcome sampleSetPub).published := by
  decide +kernel

/-- The user command after which a step of that system has been inserted. -/
def sampleInsertedPub (system : System) (name : TopicName) (cmpdOffset : Option CompoundOffset) : Publication :=
  { dest := .topic "Player" name, hashKey := stringBytes "k", traceParent := sampleTraceParent,
    txn := { id := "0123456789abcdef0123456789abcdef", uponError := .report, currentStepIdx := 1,
             forwardSteps := [{ system := .process, concern := "Player", command := "Set", key := "k",
                                effectiveTime := some 0, cmpdOffset := some ⟨1, 0, 7⟩, inst := some [1],
                                result := some { code := .ok, inst := some [2] } },
                              { sampleInsert system with cmpdOffset := cmpdOffset }] } }

theorem storage_step_knows_offset_inserted :
    let p := sampleInsertedPub .storage .storage (some ⟨1, 0, 7⟩)
    let last : Option CompoundOffset := some ⟨1, 0, 7⟩
    (∀ step, p.txn.currentStep = some step → isStorageSystem step.system = true →
      step.cmpdOffset.isSome ∧ step.cmpdOffset = last) ∧
    (∀ (reading : Reading) (call : Call) (rslt : Option StepResult),
      (reading.outcome p).call = some (call, rslt) → isStorageSystem call.system = true →
        some call.args.cmpdOffset = last) ∧
    ∀ reading : Reading, InsertsUndated reading.handleCommand → ∀ q ∈ (reading.outcome p).published, q.dest.IsStep →
      ∃ last', Tracked sampleTraceParent sampleSet none q last' := by
  have inserts : InsertsUndated (sampleReading (fun _ => [sampleInsert .storage]) .process 7).handleCommand := by
    intro call s add h
    rw [List.mem_singleton.1 h]
    exact ⟨rfl, by decide⟩
  have inserted : sampleInsertedPub .storage .storage (some ⟨1, 0, 7⟩) ∈
      ((sampleReading (fun _ => [sampleInsert .storage]) .process 7).outcome sampleSetPub).published := by
    decide +kernel
  have moved := Tracked.moved (.submit sampleSetPub_submitted) inserts inserted ⟨_, _, rfl, by decide, by decide⟩
    (.inr (by decide))
  exact storage_step_knows_offset moved

/-- The update of the instance once its handler has inserted a process and a storage step, and the
process step has been read at offset 9. -/
def sampleTouchPub : Publication :=
  { sampleUpdatePub with
    dest := .topic "Player" .process,
    txn := { sampleUpdatePub.txn with
             currentStepIdx := 1,
             forwardSteps := sampleUpdatePub.txn.forwardSteps.map
                 (fun s => { s with result := some { code := .ok, payload := s.payload } }) ++
               [{ sampleInsert .process with payload := packPayloads (some [2]) none }, sampleInsert .storage] } }

def sampleTouchedPub : Publication :=
  { sampleTouchPub with
    dest := .topic "Player" .storage,
    txn := { sampleTouchPub.txn with
             currentStepIdx := 2,
             forwardSteps := sampleTouchPub.txn.forwardSteps.take 1 ++
               [{ sampleInsert .process with
                  payload := packPayloads (some [2]) none, cmpdOffset := some ⟨1, 0, 9⟩, inst := some [1],
                  result := some { code := .ok, payload := packPayloads (some [2]) none, inst := some [2] } },
                { sampleInsert .storage with
                  payload := packPayloads (some [2]) none, cmpdOffset := some ⟨1, 0, 9⟩ }] } }

theorem sampleReading_inserts {adds : String → List Step} {system : System} {offset : Int}
    (pending : ∀ cmd, ∀ s ∈ adds cmd, s.ValidSystem ∧ s.result = none) :
    InsertsPending (sampleReading adds system offset).handleCommand :=
  fun call _ => pending call.command

/-- An inserted step for secondary storage reaches its consumer without an offset, and fails for that;
a storage step that a generated transaction inserts behind a process step has the offset of that one. -/
theorem storage_offset_nil_or_later :
    (∃ p, Published sampleTraceParent sampleSet none p ∧
      p.txn.currentStep = some (sampleInsert .storageScnd) ∧
      let out := (sampleReading (fun _ => []) .storageScnd 3).outcome p
      out.code = .internal ∧ out.call = none ∧
        (out.published.map fun q => q.txn.currentStep.bind fun s => s.result.map fun r => r.logEvents.map LogEvent.msg) =
          [some [stringBytes "advanceApecsTxn: Nil offset"]]) ∧
    ∃ parent p, Published sampleTraceParent sampleSet none parent ∧ Published sampleTraceParent sampleSet none p ∧
      parent.txn.isGenerated = true ∧ p.txn.id = parent.txn.id ∧
      parent.txn.currentStep.map (fun s => (s.system, s.cmpdOffset)) = some (.storage, some ⟨1, 0, 7⟩) ∧
      p.txn.currentStep.map (fun s => (s.system, s.cmpdOffset)) = some (.storage, some ⟨1, 0, 9⟩) := by
  have submitted : Published sampleTraceParent sampleSet none sampleSetPub := .submit sampleSetPub_submitted
  have valid : ∀ system, (sampleInsert system).result = none := fun _ => rfl
  constructor
  · refine ⟨sampleInsertedPub .storageScnd .storageScnd none, ?_, by decide +kernel, by decide +kernel⟩
    have inserted : sampleInsertedPub .storageScnd .storageScnd none ∈
        ((sampleReading (fun _ => [sampleInsert .storageScnd]) .process 7).outcome sampleSetPub).published := by
      decide +kernel
    refine .consume submitted (sampleReading_inserts ?_) inserted ⟨_, _, rfl, by decide, by decide⟩
    intro cmd s hs
    rw [List.mem_singleton.1 hs]
    exact ⟨.inr rfl, rfl⟩
  · refine ⟨sampleUpdatePub, sampleTouchedPub, ?_, ?_, by decide, rfl, by decide, by decide⟩
    · exact .consume submitted (sampleReading_inserts (by simp)) sampleUpdatePub_published
        ⟨_, _, rfl, by decide, by decide⟩
    · have touch : sampleTouchPub ∈ ((sampleReading (fun _ => [sampleInsert .process, sampleInsert .storage])
          .storage 3).outcome sampleUpdatePub).published := by
        decide +kernel
      have touched : sampleTouchedPub ∈ ((sampleReading (fun _ => []) .process 9).outcome sampleTouchPub).published := by
        decide +kernel
      refine .consume (.consume (.consume submitted (sampleReading_inserts (by simp)) sampleUpdatePub_published ?_)
        (sampleReading_inserts ?_) touch ?_) (sampleReading_inserts (by simp)) touched ?_
      · exact ⟨_, _, rfl, by decide, by decide⟩
      · intro cmd s hs
        simp only [List.mem_cons, List.not_mem_nil, or_false] at hs
        rcases hs with rfl | rfl
        · exact ⟨.inl rfl, rfl⟩
        · exact ⟨.inr rfl, rfl⟩
      · exact ⟨_, _, rfl, by decide, by decide⟩
      · exact ⟨_, _, rfl, by decide, by decide⟩

end Rocketcycle
