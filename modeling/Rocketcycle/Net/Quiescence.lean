import Mathlib
import Rocketcycle.Net.Standing
import Rocketcycle.Net.Work

/-!
# A platform comes to rest

Once no more transactions are submitted, only finitely many messages are read, whatever their order
and whatever the commands do: the ranks of all steps ahead go down, setbacks are as many as there
are deletions ahead. What it takes is that storage has every record under its own key, which it
keeps. Only a consumer that ends itself over a generated transaction, and is started again in front
of the same message, can go on without end.
-/

namespace Rocketcycle

open Command Runs Descent

variable {M : Type}

/-! ## Records under their own keys -/

/-- Every record of a storage target lies under the key of its instance. -/
def ClientCode.Filed (cc : ClientCode M) (db : RamDb M) : Prop :=
  ∀ concern key item cnc, db concern key = some item → cc.concernHandler concern = some cnc → cnc.key item.inst = key

def Deployment.Filed (d : Deployment M) (net : Net M) : Prop := ∀ type, d.cc.Filed (net.ramDbs type)

/-- The instance has the key, going by the message of the concern. -/
def ClientCode.Keyed (cc : ClientCode M) (concern key : String) (inst : M) : Prop :=
  ∀ cnc, cc.concernHandler concern = some cnc → cnc.key inst = key

theorem filed_iff {cc : ClientCode M} {db : RamDb M} : cc.Filed db ↔ db.All cc.Keyed :=
  ⟨fun h concern key item stored cnc handler => h concern key item cnc stored handler,
    fun h concern key item cnc stored handler => h concern key item stored cnc handler⟩

/-- A command writes an instance under its own key. -/
theorem CommandEffect.filed {cc : ClientCode M} {env : Env} {logic : LogicHandler M} {stgTgt : StorageTarget} {call : Call}
    {plat plat' : Platform M} {rslt : Option StepResult} {adds : List Step}
    (h : CommandEffect cc env logic stgTgt call plat rslt adds plat') (filed : ∀ type, cc.Filed (plat.ramDbs type)) (type : String) :
    cc.Filed (plat'.ramDbs type) := by
  refine filed_iff.2 (h.all (fun type => filed_iff.1 (filed type)) ?_ type)
  intro cnc inst found _ _ _ cnc' found'
  rw [found] at found'
  cases found'
  rfl

section
variable {d : Deployment M} {net net' : Net M} {tp : TopicPartition} {env : Env} {logic : LogicHandler M} {p : Publication}
  {before after : List (TopicPartition × Publication)} {done ahead : List Step} {cur : Step} {a : Action M}

theorem Taken.filed {next : TopicPartition → Nat} (h : Taken d next net tp env logic net' p before after done cur ahead)
    (filed : d.Filed net) : d.Filed net' := by
  intro type
  rw [h.ramDbs]
  cases h.fate with
  | rejected state | missed _ _ _ _ state =>
    rw [state]
    exact filed type
  | failed _ _ _ handled | next _ _ _ _ _ handled | completed _ _ _ _ _ handled => exact handled.effect.filed filed type

/-- What a platform that comes to rest starts from, and keeps. -/
structure Deployment.Orderly (d : Deployment M) (net : Net M) : Prop where
  sound : Sound d net
  older : ∀ tp, tp.system = .process → d.StoreOlder net tp
  filed : d.Filed net

theorem Deployment.Orderly.step (h : d.Orderly net) (hs : d.step net a = some net') : d.Orderly net' := by
  refine ⟨h.sound.step hs, ?_, ?_⟩
  · intro tp process
    cases a with
    | submit env traceParent txn respTarget =>
      obtain ⟨p, delivered⟩ := submit_delivered hs
      unfold Deployment.StoreOlder Deployment.offset
      rw [delivered.stores, delivered.next]
      exact h.older tp process
    | consume =>
      obtain ⟨p, before, after, done, cur, ahead, consumed⟩ := consume_fate h.sound hs
      exact consumed.storeOlder process (h.older tp process)
  · cases a with
    | submit env traceParent txn respTarget =>
      obtain ⟨p, delivered⟩ := submit_delivered hs
      unfold Deployment.Filed
      rw [delivered.ramDbs]
      exact h.filed
    | consume =>
      obtain ⟨p, before, after, done, cur, ahead, consumed⟩ := consume_fate h.sound hs
      exact consumed.filed h.filed

theorem Deployment.Orderly.run (h : d.Orderly net) {tr : List (Net M × Action M)} (run : Path d.step net tr net') : d.Orderly net' :=
  run.invariant d.Orderly (fun _ _ => True) h (fun _ _ _ _ held hs => held.step hs) fun _ _ => trivial

end

/-! ## The work of a platform -/

/-- The steps of a message that have not run. -/
def pendingSteps (p : Publication) : List Step := p.txn.forwardSteps.drop p.txn.currentStepIdx.toNat

/-- The instance of the step that is next is cached. -/
def Net.headCached (net : Net M) (m : TopicPartition × Publication) : Bool :=
  (pendingSteps m.2).head?.any fun s => ((net.stores m.1).getInstance s.key).isSome

/-- The work of a message. A generated transaction has one step, and leads to nothing. -/
def Net.workOf (net : Net M) (m : TopicPartition × Publication) : Multiset ℕ :=
  if m.2.txn.uponError = .bailout then {0} else workAhead (net.headCached m) (pendingSteps m.2)

def removalsOf (m : TopicPartition × Publication) : ℕ := (pendingSteps m.2).countP Step.takesAway

/-- What is left to do: the steps that take an instance out of the cache, and the ranks of all. -/
def Net.ahead (net : Net M) : ℕ × Multiset ℕ :=
  ((net.inFlight.map removalsOf).sum, (net.inFlight.map net.workOf).sum)

/-- The consumer ends itself, and is started again in front of the same message. -/
def Deployment.restarts (d : Deployment M) (net : Net M) : Action M → Prop
  | .submit .. => False
  | .consume tp env logic => ∃ p rest, net.take tp = some (p, rest) ∧ bailsOut p (d.outcome net tp env logic p).code = true

section
variable {d : Deployment M} {net net' : Net M} {tp : TopicPartition} {env : Env} {logic : LogicHandler M} {p : Publication}
  {before after : List (TopicPartition × Publication)} {done ahead done' ahead' : List Step} {cur cur' : Step}
  {m : TopicPartition × Publication} {call : Call} {rslt : Option StepResult} {adds : List Step} {next : TopicPartition → Nat}

theorem ApecsTxn.At.pending {txn : ApecsTxn} (h : txn.At done cur ahead) : txn.forwardSteps.drop txn.currentStepIdx.toNat = cur :: ahead := by
  rw [h.steps, h.idx, Int.toNat_natCast, List.drop_left]

theorem Sent.pending (h : Sent d next m done cur ahead) : pendingSteps m.2 = cur :: ahead := ApecsTxn.At.pending h.logged.stands

theorem Sent.headCached (h : Sent d next m done cur ahead) :
    net.headCached m = ((net.stores m.1).getInstance cur.key).isSome := by
  simp [Net.headCached, h.pending]

/-- A generated transaction generates nothing. -/
theorem Arrival.not_generated (sent : Sent d next (tp, p) done cur ahead)
    (arrival : Arrival d net tp env logic p done cur ahead (d.outcome net tp env logic p) m done' cur' ahead') :
    p.txn.uponError ≠ .bailout := by
  intro upon
  obtain ⟨none, last, system⟩ := sent.generated upon
  have notProcess : cur.system ≠ .process := by
    rcases system with h | ⟨h, -⟩ <;> rw [h] <;> decide
  have noWrite : ∀ {r}, (d.doneStep net tp cur r).isStorageWrite = false := by
    intro r
    rcases system with h | ⟨h, cmd⟩
    · simp [Step.isStorageWrite, h]
    · simp [Step.isStorageWrite, cmd, updateAsync, create, update, delete]
  cases arrival with
  | read q looksUp => exact notProcess (looksUp_process looksUp)
  | next q call r adds nextStep tail handled resultOk follows =>
    have nothing : adds = [] := by
      have effect := handled.effect
      generalize (d.outcome net tp env logic p).state = plat' at effect
      cases effect with
      | refused _ none | storageScnd _ _ _ _ none => exact none
      | process _ _ _ process => exact absurd (handled.callFor.system.symm.trans process) notProcess
      | storage _ _ _ storage effect =>
        have async : call.command = updateAsync := by
          rcases system with h | ⟨-, h⟩
          · rw [handled.callFor.system, h] at storage
            cases storage
          · exact handled.callFor.command.trans h
        cases effect with
        | refused | createFailed | updateAsync => rfl
        | create _ _ _ _ _ _ cmd | read _ _ _ _ _ _ cmd | update _ _ _ _ _ cmd | delete cmd =>
          rw [async] at cmd
          exact absurd cmd (by decide)
    rw [nothing, last] at follows
    cases follows
  | child call r adds step i handled resultOk last generates =>
    rw [none, List.nil_append] at generates
    cases generates with
    | copy s r' mem isWrite =>
      rw [List.mem_singleton.1 mem, noWrite] at isWrite
      cases isWrite
    | update s payload mem updateOf | updateScnd s payload mem updateOf =>
      have process := updateOf.system
      rw [List.mem_singleton.1 mem, doneStep_system] at process
      exact notProcess process

/-- The step takes its instance out of the cache when it runs. -/
def Step.drops (s : Step) : Bool :=
  s.system = .process && (s.command = flushInstance || s.command = refreshInstance && (wireBytes s.payload).isNone)

theorem drops_takesAway (h : cur.drops = true) : cur.takesAway = true := by
  simp only [Step.drops, Bool.and_eq_true, Bool.or_eq_true, decide_eq_true_eq] at h
  obtain ⟨system, h | ⟨h, none⟩⟩ := h
  · simp [Step.takesAway, system, h]
  · simp [Step.takesAway, system, h, none]

/-- Nothing is added for a step that drops an instance. -/
theorem Handled.adds_of_drops {out : Outcome (Platform M)} (handled : Handled d net tp env logic p cur out call rslt adds)
    (drops : cur.drops = true) : adds = [] := by
  simp only [Step.drops, Bool.and_eq_true, Bool.or_eq_true, decide_eq_true_eq] at drops
  have command : call.command = flushInstance ∨ call.command = refreshInstance := by
    rw [handled.callFor.command]
    exact drops.2.imp id And.left
  have effect := handled.effect
  generalize out.state = plat' at effect
  cases effect with
  | refused _ none | storageScnd _ _ _ _ none => exact none
  | storage _ _ _ storage =>
    rw [handled.callFor.system, drops.1] at storage
    cases storage
  | process cnc _ _ _ effect =>
    cases effect with
    | quiet | refreshInstance | flushInstance | refreshRelated | brokenOff => rfl
    | update _ cmd | delete _ cmd | requestRelated _ _ _ _ _ _ cmd =>
      rw [cmd] at command
      exact absurd command (by decide)
    | changed c _ _ _ _ _ _ _ _ _ mem name =>
      have free := cnc.commands_free c mem
      rw [name] at free
      rcases command with h | h <;> (rw [h] at free; exact absurd free (by decide))

/-- What is cached stays cached, unless the step drops it. -/
theorem Handled.keeps {out : Outcome (Platform M)} (handled : Handled d net tp env logic p cur out call rslt adds)
    (keeps : cur.drops = false) {key : String} (cached : ((net.stores tp).getInstance key).isSome = true) :
    (out.state.instanceStore.getInstance key).isSome = true := by
  have effect := handled.effect
  generalize out.state = plat' at effect
  cases effect with
  | refused | storage | storageScnd => exact cached
  | process cnc store' _ process effect =>
    have system : cur.system = .process := handled.callFor.system.symm.trans process
    simp only [Step.drops, system, decide_true, Bool.true_and, Bool.or_eq_false_iff, decide_eq_false_iff_not] at keeps
    refine effect.keeps (by rw [handled.callFor.command]; exact keeps.1) (fun refresh => ?_) cached
    rw [handled.callFor.command] at refresh
    have carries := keeps.2
    simp only [refresh, decide_true, Bool.true_and, Option.isNone_eq_false_iff] at carries
    rw [handled.callFor.payload]
    obtain ⟨b, hb⟩ := Option.isSome_iff_exists.1 carries
    rw [(wireBytes_eq_some.1 hb).1]
    rfl

theorem rank_looksUp (looksUp : cur.looksUp = true) : cur.rank true < cur.rank false ∧ 2 < cur.rank false := by
  have process := looksUp_process looksUp
  have notStore : cur.isInstanceStoreStep = false := by
    simp only [Step.looksUp, Bool.and_eq_true, Bool.not_eq_true'] at looksUp
    exact looksUp.2
  simp only [Step.rank, process, notStore, Bool.false_eq_true, if_false, if_true]
  split <;> omega

theorem fetchesFor_looksUp (looksUp : cur.looksUp = true) (t : Step) : cur.fetchesFor t = false := by
  have process := looksUp_process looksUp
  simp only [Step.looksUp, Step.isInstanceStoreStep, process, decide_true, Bool.true_and, Bool.and_eq_true,
    Bool.not_eq_true', Bool.or_eq_false_iff, decide_eq_false_iff_not] at looksUp
  simp [Step.fetchesFor, process, looksUp.2.1]

theorem no_fetches (nothing : ∀ t, cur.fetchesFor t = false) : ahead.head?.any cur.fetchesFor = false := by
  cases ahead with
  | nil => rfl
  | cons t rest => exact nothing t

/-- A step that is put off for a read comes back once, and then finds its instance. -/
theorem workAhead_missed {b : Bool} {o : CompoundOffset} (looksUp : cur.looksUp = true) :
    (workAhead b (readStep (d.ran net tp cur) o :: missAhead (d.ran net tp cur) ahead)).IsDershowitzMannaLT
      (workAhead false (cur :: ahead)) := by
  have read : (readStep (d.ran net tp cur) o).rank b = 2 := rank_storage rfl (show Command.read ≠ create by decide)
  obtain ⟨comesBack, putOff⟩ := rank_looksUp looksUp
  rw [workAhead, workAhead, read, no_fetches (fetchesFor_looksUp looksUp)]
  unfold missAhead
  split
  · exact lowered putOff (workAhead_le (by simp))
  · have same : (d.ran net tp cur).rank true = cur.rank true := by simp [Step.rank, Step.isInstanceStoreStep]
    have ranLooksUp : (d.ran net tp cur).looksUp = true := by
      rw [← looksUp]
      exact keyed_looksUp _ _ _
    have fetches : (readStep (d.ran net tp cur) o).fetchesFor (d.ran net tp cur) = true := by
      simp [Step.fetchesFor, ranLooksUp, readStep]
    rw [List.head?_cons, Option.any_some, fetches, workAhead, same, no_fetches (fetchesFor_looksUp ranLooksUp),
      ← Multiset.singleton_add, ← Multiset.singleton_add, ← add_assoc]
    refine replaced ?_ (.refl _)
    intro n hn
    rw [Multiset.mem_add, Multiset.mem_singleton, Multiset.mem_singleton] at hn
    rcases hn with rfl | rfl
    · exact putOff
    · exact comesBack

/-- A storage read that succeeds leads to a refresh of the instance it was made for. -/
theorem Handled.read_adds {out : Outcome (Platform M)} {r : StepResult} (handled : Handled d net tp env logic p cur out call (some r) adds)
    (filed : d.Filed net) (isOk : r.code = .ok) (storage : cur.system = .storage) (isRead : cur.command = read) :
    ∃ s, adds = [s] ∧ s.rank true = 1 ∧ s.rank false = 1 ∧ ∀ t, cur.fetchesFor t = true → s.fetchesFor t = true := by
  have effect := handled.effect
  generalize out.state = plat' at effect
  cases effect with
  | refused notOk => exact absurd isOk (notOk r rfl)
  | process _ _ _ process =>
    rw [handled.callFor.system, storage] at process
    cases process
  | storageScnd _ _ _ scnd =>
    rw [handled.callFor.system, storage] at scnd
    cases scnd
  | storage cnc db' found _ effect =>
    have cmd' : call.command = read := handled.callFor.command.trans isRead
    cases effect with
    | refused _ notOk => exact absurd isOk (notOk r rfl)
    | create _ _ _ _ _ _ cmd | createFailed _ _ _ _ cmd | update _ _ _ _ _ cmd | updateAsync _ _ _ _ cmd | delete cmd =>
      rw [cmd'] at cmd
      exact absurd cmd (by decide)
    | read inst rel o instBytes relBytes payload _ here _ _ packed =>
      refine ⟨_, rfl, refreshStep_rank, refreshStep_rank, fun t fetches => ?_⟩
      have name : cnc.name = cur.concern := (ClientCode.concernHandler_name found).trans handled.callFor.concern
      have key : cnc.key inst = cur.key := by
        rw [← handled.callFor.key]
        exact filed _ _ _ _ _ here (by rw [name, ← handled.callFor.concern]; exact found)
      have carried : wireBytes (some payload) = some payload := wireBytes_eq_some.2 ⟨rfl, packPayloads_ne_nil packed⟩
      simp only [Step.fetchesFor, Bool.and_eq_true, decide_eq_true_eq] at fetches
      obtain ⟨⟨⟨looksUp, concern⟩, sameKey⟩, -⟩ := fetches
      simp [Step.fetchesFor, Crud.refreshStep, looksUp, concern, sameKey, name, key, carried]

/-- A refresh that succeeds leaves its instance cached. -/
theorem Handled.refresh_caches {out : Outcome (Platform M)} {r : StepResult}
    (handled : Handled d net tp env logic p cur out call (some r) adds) (older : d.StoreOlder net tp) (isOk : r.code = .ok)
    (process : cur.system = .process) (refresh : cur.command = refreshInstance) (keeps : cur.drops = false) :
    adds = [] ∧ (out.state.instanceStore.getInstance cur.key).isSome = true := by
  have effect := handled.effect
  generalize out.state = plat' at effect
  have cmd' : call.command = refreshInstance := handled.callFor.command.trans refresh
  cases effect with
  | refused notOk => exact absurd isOk (notOk r rfl)
  | storage _ _ _ storage | storageScnd _ _ _ storage =>
    rw [handled.callFor.system, process] at storage
    cases storage
  | process cnc store' _ _ effect =>
    cases effect with
    | quiet _ _ writes => exact absurd (by simp [cmd', writingCommands]) (writes r rfl isOk)
    | update _ cmd | delete _ cmd | flushInstance _ cmd | requestRelated _ _ _ _ _ _ cmd | refreshRelated _ _ _ _ cmd =>
      rw [cmd'] at cmd
      exact absurd cmd (by decide)
    | brokenOff _ _ _ cmd =>
      rw [cmd'] at cmd
      exact absurd cmd (by decide)
    | changed c _ _ _ _ _ _ _ _ _ mem name =>
      have free := cnc.commands_free c mem
      rw [name, cmd'] at free
      exact absurd free (by decide)
    | refreshInstance _ inst relBytes _ parsed =>
      refine ⟨rfl, ?_⟩
      have newer : (net.stores tp).Below fun o => offsetGT call.args.cmpdOffset o = true := by
        rw [handled.process_offset process]
        exact older
      have left : ((net.stores tp).set call.args.key inst (Logic.refreshedRelated (net.stores tp) call.args.key relBytes)
          call.args.cmpdOffset).getInstance call.args.key = inst := InstanceStore.getInstance_set newer
      rw [← handled.callFor.key]
      refine (congrArg Option.isSome left).trans (parsePayload_carries parsed ?_)
      simp only [Step.drops, process, refresh, decide_true, Bool.true_and, Bool.or_eq_false_iff,
        Option.isNone_eq_false_iff] at keeps
      obtain ⟨b, hb⟩ := Option.isSome_iff_exists.1 keeps.2
      rw [handled.callFor.payload, (wireBytes_eq_some.1 hb).1]
      rfl

/-- A step fetches for another only as a storage read or a refresh. -/
theorem fetches_cases (cur : Step) : (∀ t, cur.fetchesFor t = false) ∨ cur.system = .storage ∧ cur.command = read ∨
    cur.system = .process ∧ cur.command = refreshInstance ∧ (wireBytes cur.payload).isSome = true := by
  by_cases reads : cur.system = .storage ∧ cur.command = read
  · exact .inr (.inl reads)
  by_cases brings : cur.system = .process ∧ cur.command = refreshInstance ∧ (wireBytes cur.payload).isSome = true
  · exact .inr (.inr brings)
  refine .inl fun t => ?_
  unfold Step.fetchesFor
  rw [Bool.and_eq_false_iff]
  right
  rw [← Bool.not_eq_true]
  simp only [Bool.or_eq_true, Bool.and_eq_true, decide_eq_true_eq]
  tauto

/-- A message that has not been generated. -/
theorem Sent.workOf (sent : Sent d next m done cur ahead) (upon : m.2.txn.uponError ≠ .bailout) :
    net.workOf m = workAhead ((net.stores m.1).getInstance cur.key).isSome (cur :: ahead) := by
  unfold Net.workOf
  rw [if_neg upon, sent.headCached, sent.pending]

theorem Sent.removals (sent : Sent d next m done cur ahead) : removalsOf m = (cur :: ahead).countP Step.takesAway := by
  unfold removalsOf
  rw [sent.pending]

theorem Sent.workOf_generated (sent : Sent d next m done cur ahead) (upon : m.2.txn.uponError = .bailout) :
    net.workOf m = {0} ∧ removalsOf m = 0 := by
  refine ⟨by rw [Net.workOf, if_pos upon], ?_⟩
  obtain ⟨-, rfl, system⟩ := sent.generated upon
  rw [sent.removals, List.countP_singleton, if_neg]
  rw [Bool.not_eq_true]
  have other : updateAsync ≠ delete := by decide
  rcases system with h | ⟨h, cmd⟩
  · simp [Step.takesAway, h]
  · simp [Step.takesAway, h, cmd, other]

/-- What arrives from a message has less work ahead of it, or drops no instance any more. -/
theorem Arrival.goes_down (orderly : d.Orderly net) (consumed : Consumed d net tp env logic net' p before after done cur ahead)
    (arrival : Arrival d net tp env logic p done cur ahead (d.outcome net tp env logic p) m done' cur' ahead')
    (sent' : Sent d net'.next m done' cur' ahead') (notGenerated : m.2.txn.uponError ≠ .bailout) :
    removalsOf m ≤ removalsOf (tp, p) ∧ (cur.drops = true → removalsOf m < removalsOf (tp, p)) ∧
      (cur.drops = false → (net'.workOf m).IsDershowitzMannaLT (net.workOf (tp, p))) := by
  have upon : p.txn.uponError ≠ .bailout := arrival.not_generated consumed.sent
  rw [sent'.workOf notGenerated, consumed.sent.workOf upon, sent'.removals, consumed.sent.removals]
  cases arrival with
  | read q looksUp key missing state =>
    have process := looksUp_process looksUp
    have keeps : cur.drops = false := by
      have notStore : cur.isInstanceStoreStep = false := by
        simp only [Step.looksUp, Bool.and_eq_true, Bool.not_eq_true'] at looksUp
        exact looksUp.2
      simp only [Step.isInstanceStoreStep, process, decide_true, Bool.true_and, Bool.or_eq_false_iff,
        decide_eq_false_iff_not] at notStore
      simp [Step.drops, process, notStore]
    refine ⟨?_, by simp [keeps], fun _ => ?_⟩
    · rw [← List.map_cons, takesAway_wires, List.countP_cons]
      have notAway : (readStep (d.ran net tp cur) (d.offset net tp)).takesAway = false := by
        have other : Command.read ≠ delete := by decide
        simp [Step.takesAway, readStep, other]
      have same : (d.ran net tp cur).takesAway = cur.takesAway := by simp [Step.takesAway]
      rw [notAway]
      unfold missAhead
      split
      · rw [List.countP_cons]
        simp
      · rw [List.countP_cons, List.countP_cons, same]
        simp
    · rw [missing, ← List.map_cons, workAhead_wire]
      exact workAhead_missed looksUp
  | child call r adds step i handled resultOk last generates => exact absurd rfl notGenerated
  | next q call r adds nextStep tail handled resultOk follows =>
    have counted : (wireStep (nextStepOf (d.doneStep net tp cur r) nextStep (d.offset net tp)) :: tail.map wireStep).countP
        Step.takesAway = (adds ++ ahead).countP Step.takesAway := by
      rw [← List.map_cons, takesAway_wires, List.countP_cons, takesAway_next, follows, List.countP_cons]
    have added := commandEffect_takesAway handled.effect handled.callFor.system handled.callFor.command
    have split : (cur :: ahead).countP Step.takesAway = [cur].countP Step.takesAway + ahead.countP Step.takesAway := by
      rw [← List.countP_append]
      rfl
    rw [counted, split, List.countP_append]
    refine ⟨by omega, fun drops => ?_, fun keeps => ?_⟩
    · rw [handled.adds_of_drops drops, List.countP_nil, List.countP_singleton, if_pos (drops_takesAway drops)]
      omega
    rw [← List.map_cons, workAhead_wire, workAhead_next, ← follows]
    rcases fetches_cases cur with nothing | ⟨storage, isRead⟩ | ⟨process, refresh, -⟩
    · exact workAhead_done (commandEffect_ranks handled.effect handled.callFor.system handled.callFor.command _) nothing
    · obtain ⟨s, rfl, low, low', brings⟩ := handled.read_adds orderly.filed resultOk storage isRead
      have rank : ∀ {b}, s.rank b = 1 := by
        intro b
        cases b <;> assumption
      have two : ∀ {b}, cur.rank b = 2 := rank_storage storage (by rw [isRead]; decide)
      rw [List.singleton_append, workAhead, workAhead, rank, two]
      refine lowered (by omega) (workAhead_le fun fetches => ?_)
      cases ahead with
      | nil => exact fetches
      | cons t rest => exact brings t fetches
    · obtain ⟨rfl, cached⟩ := handled.refresh_caches (orderly.older tp (consumed.sent.system.symm.trans process)) resultOk process
        refresh keeps
      rw [List.nil_append] at follows ⊢
      subst follows
      change (workAhead _ (nextStep :: tail)).IsDershowitzMannaLT (cur.rank _ ::ₘ workAhead _ (nextStep :: tail))
      refine removed (workAhead_le fun fetches => ?_)
      -- the next step is read where the instance has just been cached
      rw [List.head?_cons, Option.any_some] at fetches
      simp only [Step.fetchesFor, Bool.and_eq_true, decide_eq_true_eq] at fetches
      obtain ⟨⟨⟨looksUp, sameConcern⟩, sameKey⟩, -⟩ := fetches
      have here : d.partitionOf nextStep.concern nextStep.system q.hashKey = tp := by
        have keyed := sent'.at_owner (by rw [wireStep_system, nextStepOf_system]; exact looksUp_process looksUp) (by
          rw [isKeylessStep_wire]
          simpa [Step.isKeylessStep] using looksUp_keyless looksUp)
        have owner := consumed.sent.at_owner process (by
          have other : refreshInstance ≠ validateCreate := by decide
          simp [Step.isKeylessStep, process, refresh, other])
        rw [keyed, wireStep_key, nextStepOf_key, sameKey]
        change d.ownerOf nextStep.concern cur.key = tp
        rw [sameConcern, consumed.sent.concern]
        exact owner.symm
      rw [here, wireStep_key, nextStepOf_key, sameKey, consumed.store_after (consumed.sent.system.symm.trans process)]
      exact cached

/-! ## What a step of a consumer does to it -/

theorem Consumed.arrivals (consumed : Consumed d net tp env logic net' p before after done cur ahead)
    (stays : bailsOut p (d.outcome net tp env logic p).code = false)
    (hm : m ∈ (d.outcome net tp env logic p).published.filterMap d.arrival) :
    ∃ done' cur' ahead', Arrival d net tp env logic p done cur ahead (d.outcome net tp env logic p) m done' cur' ahead' ∧
      Sent d net'.next m done' cur' ahead' := by
  obtain ⟨q, hq, arrives⟩ := List.mem_filterMap.1 hm
  rcases consumed.delivered with ⟨bails, -⟩ | ⟨-, delivered⟩
  · rw [stays] at bails
    cases bails
  · obtain ⟨fits, topic⟩ := delivered.arrived q hq m arrives
    exact Taken.arrivals consumed consumed.next_le (consumed.next_lt stays) q hq m arrives fits topic

/-- A transaction goes on with one message, or all that arrives has been generated. -/
theorem Consumed.arrivals_cases (consumed : Consumed d net tp env logic net' p before after done cur ahead)
    (stays : bailsOut p (d.outcome net tp env logic p).code = false) :
    (∀ m ∈ (d.outcome net tp env logic p).published.filterMap d.arrival, m.2.txn.uponError = .bailout) ∨
      ∃ m, (d.outcome net tp env logic p).published.filterMap d.arrival = [m] := by
  have single : ∀ {pubs : List Publication} {q}, pubs = [q] →
      (∀ m ∈ pubs.filterMap d.arrival, m.2.txn.uponError = .bailout) ∨ ∃ m, pubs.filterMap d.arrival = [m] := by
    rintro pubs q rfl
    cases h : d.arrival q with
    | none => exact .inl (by simp [h])
    | some m => exact .inr ⟨m, by simp [h]⟩
  cases h : consumed.fate with
  | rejected _ _ errors => exact .inl (by simp [errorOnly_arrivals errors])
  | failed _ _ _ _ _ errors => exact .inl (by simp [errorOnly_arrivals errors])
  | missed _ _ _ _ _ _ published => exact single published
  | next _ _ _ _ _ _ _ _ _ published =>
    rcases published with ⟨errors, -⟩ | ⟨q, published, -⟩
    · exact .inl (by simp [errorOnly_arrivals errors])
    · exact single published
  | completed call r adds c steps handled resultOk isOk last =>
    refine .inl fun m hm => ?_
    obtain ⟨done', cur', ahead', arrival, -⟩ := consumed.arrivals stays hm
    cases arrival with
    | read q looksUp key missing =>
      have found := handled.found looksUp
      rw [missing] at found
      cases found
    | next q call' r' adds' nextStep tail handled' _ follows =>
      have same := handled'.recorded
      rw [handled.recorded] at same
      cases same
      have answers := handled'.handled
      rw [handled.handled] at answers
      cases answers
      rw [last] at follows
      cases follows
    | child => rfl

/-- A message that waits has no more work ahead of it than before. -/
theorem Consumed.waits (consumed : Consumed d net tp env logic net' p before after done cur ahead)
    (stays : bailsOut p (d.outcome net tp env logic p).code = false) (keeps : cur.drops = false) :
    AtMost (net'.workOf m) (net.workOf m) := by
  unfold Net.workOf
  split
  · exact .refl _
  apply workAhead_le
  intro cached
  unfold Net.headCached at cached ⊢
  cases first : (pendingSteps m.2).head? with
  | none =>
    rw [first] at cached
    cases cached
  | some s =>
    rw [first, Option.any_some] at cached
    rw [Option.any_some]
    by_cases here : m.1 = tp
    swap
    · rwa [consumed.store_elsewhere here]
    have store : net'.stores tp = (d.outcome net tp env logic p).state.instanceStore := by
      rcases consumed.delivered with ⟨bails, -⟩ | ⟨-, delivered⟩
      · rw [stays] at bails
        cases bails
      · rw [delivered.stores]
        simp [Net.after, Net.setStore]
    rw [here] at cached ⊢
    rw [store]
    cases consumed.fate with
    | rejected state | missed _ _ _ _ state =>
      rw [state]
      exact cached
    | failed _ _ _ handled | next _ _ _ _ _ handled | completed _ _ _ _ _ handled => exact handled.keeps keeps cached

/-- Every message that is read, and not read again after a restart, brings the platform closer to its rest. -/
theorem Consumed.goes_down (orderly : d.Orderly net) (consumed : Consumed d net tp env logic net' p before after done cur ahead)
    (stays : bailsOut p (d.outcome net tp env logic p).code = false) : Down net'.ahead net.ahead := by
  have inFlight : net'.inFlight = (before ++ after) ++ (d.outcome net tp env logic p).published.filterMap d.arrival := by
    rcases consumed.delivered with ⟨bails, -⟩ | ⟨-, delivered⟩
    · rw [stays] at bails
      cases bails
    · exact delivered.inFlight
  have removalsBefore : (net.inFlight.map removalsOf).sum = ((before ++ after).map removalsOf).sum + removalsOf (tp, p) := by
    rw [consumed.split]
    simp only [List.map_append, List.map_cons, List.sum_append, List.sum_cons]
    omega
  have workBefore : (net.inFlight.map net.workOf).sum = ((before ++ after).map net.workOf).sum + net.workOf (tp, p) := by
    rw [consumed.split]
    simp only [List.map_append, List.map_cons, List.sum_append, List.sum_cons]
    rw [add_assoc, add_comm (net.workOf (tp, p))]
  -- what arrives instead of the message
  have arrive : ((((d.outcome net tp env logic p).published.filterMap d.arrival).map removalsOf).sum ≤ removalsOf (tp, p)) ∧
      (cur.drops = true →
        (((d.outcome net tp env logic p).published.filterMap d.arrival).map removalsOf).sum < removalsOf (tp, p)) ∧
      (cur.drops = false → Multiset.IsDershowitzMannaLT
        (((d.outcome net tp env logic p).published.filterMap d.arrival).map net'.workOf).sum (net.workOf (tp, p))) := by
    by_cases generated : ∀ m ∈ (d.outcome net tp env logic p).published.filterMap d.arrival, m.2.txn.uponError = .bailout
    · have nothing : ∀ m ∈ (d.outcome net tp env logic p).published.filterMap d.arrival,
          net'.workOf m = {0} ∧ removalsOf m = 0 := by
        intro m hm
        obtain ⟨done', cur', ahead', -, sent'⟩ := consumed.arrivals stays hm
        exact sent'.workOf_generated (generated m hm)
      have zero : (((d.outcome net tp env logic p).published.filterMap d.arrival).map removalsOf).sum = 0 := by
        rw [List.map_congr_left fun m hm => (nothing m hm).2]
        simp
      refine ⟨by omega, fun drops => ?_, fun _ => ?_⟩
      · rw [zero, consumed.sent.removals, List.countP_cons, if_pos (drops_takesAway drops)]
        omega
      by_cases upon : p.txn.uponError = .bailout
      · have none : (d.outcome net tp env logic p).published.filterMap d.arrival = [] := by
          rw [List.eq_nil_iff_forall_not_mem]
          intro m hm
          obtain ⟨done', cur', ahead', arrival, -⟩ := consumed.arrivals stays hm
          exact arrival.not_generated consumed.sent upon
        rw [none, (consumed.sent.workOf_generated upon).1]
        exact removed (.refl 0)
      · rw [consumed.sent.workOf upon, workAhead, ← add_zero (List.sum _)]
        refine replaced (fun n hn => ?_) (nothing_atMost _)
        obtain ⟨m, hm, hn⟩ := mem_sum hn
        rw [(nothing m hm).1, Multiset.mem_singleton] at hn
        rw [hn]
        exact rank_pos
    · obtain ⟨m, only⟩ := (consumed.arrivals_cases stays).resolve_left generated
      rw [only] at generated ⊢
      obtain ⟨done', cur', ahead', arrival, sent'⟩ := consumed.arrivals stays (by rw [only]; exact List.mem_singleton_self m)
      obtain ⟨le, lt, down⟩ := arrival.goes_down orderly consumed sent' (by simpa using generated)
      simpa using ⟨le, lt, down⟩
  obtain ⟨le, lt, down⟩ := arrive
  unfold Net.ahead
  have removalsAfter : (net'.inFlight.map removalsOf).sum = ((before ++ after).map removalsOf).sum +
      (((d.outcome net tp env logic p).published.filterMap d.arrival).map removalsOf).sum := by
    rw [inFlight, List.map_append, List.sum_append]
  have workAfter : (net'.inFlight.map net'.workOf).sum = ((before ++ after).map net'.workOf).sum +
      (((d.outcome net tp env logic p).published.filterMap d.arrival).map net'.workOf).sum := by
    rw [inFlight, List.map_append, List.sum_append]
  rw [removalsBefore, workBefore, removalsAfter, workAfter]
  cases drops : cur.drops with
  | true =>
    apply down_setback
    have := lt drops
    omega
  | false =>
    apply down_work (by omega)
    exact lt_add (AtMost.sum fun m _ => consumed.waits stays drops) (down drops)

/-- A restart leaves everything ahead as it is. -/
theorem Consumed.restart_ahead (consumed : Consumed d net tp env logic net' p before after done cur ahead) (sound : Sound d net)
    (bails : bailsOut p (d.outcome net tp env logic p).code = true) : net'.ahead = net.ahead := by
  obtain ⟨-, delivered⟩ := consumed.delivered.resolve_right fun h => by
    rw [bails] at h
    cases h.1
  have errors : ErrorOnly (d.outcome net tp env logic p).published := by
    cases consumed.fate with
    | rejected _ _ errors | failed _ _ _ _ _ errors => exact errors
    | missed _ _ _ _ _ _ _ _ isOk | next _ _ _ _ _ _ _ isOk | completed _ _ _ _ _ _ _ isOk =>
      exact absurd isOk (bailsOut_notOk bails)
  have inFlight : net'.inFlight = net.inFlight := by
    rw [delivered.inFlight, errorOnly_arrivals errors, List.append_nil]
    rfl
  have notProcess : tp.system ≠ .process := by
    intro process
    have stays := consumed.stays process
    rw [bails] at stays
    cases stays
  have same : ∀ m ∈ net.inFlight, net'.workOf m = net.workOf m := by
    intro m hm
    obtain ⟨done', cur', ahead', sent⟩ := sound m hm
    by_cases upon : m.2.txn.uponError = .bailout
    · rw [(sent.workOf_generated upon).1, (sent.workOf_generated upon).1]
    rw [sent.workOf upon, sent.workOf upon]
    by_cases here : m.1 = tp
    · have system : cur'.system ≠ .process := by
        rw [sent.system, here]
        exact notProcess
      have rank : ∀ b b', cur'.rank b = cur'.rank b' := by
        intro b b'
        unfold Step.rank
        split
        · exact absurd ‹_› system
        · rfl
        · rfl
      rw [workAhead, workAhead, rank]
    · rw [consumed.store_elsewhere here]
  unfold Net.ahead
  rw [inFlight, List.map_congr_left same]

/-! ## At rest -/

variable {net₀ : Net M} {tr : List (Net M × Action M)}

/-- From whatever a run has led to, messages cannot be read without end: in every sequence of reads, in any order and with any
commands, all but finitely many are reads of one that its consumer has ended itself over. -/
theorem comes_to_rest (start : d.Orderly net₀) (run : Path d.step net₀ tr net) :
    ¬∃ (nets : ℕ → Net M) (acts : ℕ → Action M), nets 0 = net ∧
      (∀ i, (acts i).isConsume = true ∧ d.step (nets i) (acts i) = some (nets (i + 1))) ∧
      ∀ n, ∃ i, n ≤ i ∧ ¬d.restarts (nets i) (acts i) := by
  rintro ⟨nets, acts, rfl, reads, moves⟩
  have orderly : ∀ i, d.Orderly (nets i) := by
    intro i
    induction i with
    | zero => exact start.run run
    | succ i ih => exact ih.step (reads i).2
  have taken : ∀ i, ((nets (i + 1)).ahead = (nets i).ahead ∧ d.restarts (nets i) (acts i)) ∨
      Down (nets (i + 1)).ahead (nets i).ahead := by
    intro i
    obtain ⟨consume, hs⟩ := reads i
    cases ha : acts i with
    | submit =>
      rw [ha] at consume
      cases consume
    | consume tp env logic =>
      rw [ha] at hs
      obtain ⟨p, before, after, done, cur, ahead, consumed⟩ := consume_fate (orderly i).sound hs
      cases bails : bailsOut p (d.outcome (nets i) tp env logic p).code with
      | true => exact .inl ⟨consumed.restart_ahead (orderly i).sound bails, p, _, consumed.taken, bails⟩
      | false => exact .inr (consumed.goes_down (orderly i) bails)
  obtain ⟨n, rests⟩ := eventually_stays down_wf (f := fun i => (nets i).ahead) fun i => (taken i).imp And.left id
  obtain ⟨i, le, moving⟩ := moves n
  rcases taken i with ⟨-, restarts⟩ | down
  · exact moving restarts
  · exact rests i le down

end

/-! ## A known player -/

theorem Net.new_orderly (d : Deployment M) : d.Orderly (Net.new : Net M) where
  sound := by
    intro m hm
    cases hm
  older := by
    intro tp _ key rec found
    cases found
  filed := by
    intro type concern key item cnc stored
    cases stored

/-- Cached and stored alike. -/
def knownPlayer : Net Bytes := Net.sample (some ⟨some [107, 1], some [9], ⟨1, 0, 0⟩⟩) (some ⟨[107, 1], some [9], ⟨1, 0, 0⟩⟩)

theorem knownPlayer_filed {cc : ClientCode Bytes} (player : cc.concernHandler "Player" = some (sampleConcern "Player")) (type : String) :
    cc.Filed (knownPlayer.ramDbs type) := by
  intro concern key item cnc stored handler
  simp only [knownPlayer, Net.sample] at stored
  split at stored
  · rename_i here
    cases stored
    rw [here.1, player] at handler
    cases handler
    rw [here.2]
    decide +kernel
  · cases stored

theorem knownPlayer_orderly : Deployment.single.Orderly knownPlayer where
  sound := by
    intro m hm
    cases hm
  older := by
    intro tp _ key rec found
    simp only [knownPlayer, Net.sample] at found
    split at found
    · rename_i here
      cases found
      rw [here.1]
      decide +kernel
    · cases found
  filed := knownPlayer_filed rfl

/-- Two transactions, and the first message of each topic has been read. -/
def twoSets : List (Action Bytes) :=
  [sampleSubmit [1] [sampleStep "Player" "Set" "k" [2]], sampleSubmit [2] [sampleStep "Player" "Set" "k" [3], sampleStep "Player" read "l" []],
   sampleConsume "Player" .process 0, sampleConsume "Player" .storage 0, sampleConsume "Player" .process 0]

theorem twoSets_taken : (runs Deployment.single.step knownPlayer twoSets).isSome = true := by decide +kernel

theorem comes_to_rest_twoSets :
    ¬∃ (nets : ℕ → Net Bytes) (acts : ℕ → Action Bytes), nets 0 = after Deployment.single.step knownPlayer twoSets ∧
      (∀ i, (acts i).isConsume = true ∧ Deployment.single.step (nets i) (acts i) = some (nets (i + 1))) ∧
      ∀ n, ∃ i, n ≤ i ∧ ¬Deployment.single.restarts (nets i) (acts i) :=
  comes_to_rest knownPlayer_orderly (path_after twoSets_taken)

end Rocketcycle
