import Rocketcycle.Net.Sound

/-!
# Transactions that fail

A transaction that runs alone has one message in flight until it fails or completes. Where a step
fails or is cancelled it ends, with nothing in flight: `REVERT` is never looked at, and cache and storage are
what the commands that ran have made of them.
-/

namespace Rocketcycle

open Command Runs

variable {M : Type}

/-- Whether a call with this result has written to the cache or to a database. A command of a
concern has when it answers an instance. -/
def Call.writes (call : Call) (rslt : Option StepResult) : Bool :=
  if call.system = .process then
    [refreshInstance, flushInstance, requestRelated, refreshRelated].contains call.command ||
      (rslt.bind StepResult.inst).isSome
  else call.command ≠ read

/-- What a consumer makes of its next message: it runs the step, or cancels the transaction, which an
administrator has asked for. -/
inductive Turn (M : Type) where
  | run (tp : TopicPartition) (env : Env) (logic : LogicHandler M)
  | cancel (tp : TopicPartition) (env : Env)

namespace Deployment

variable (d : Deployment M)

/-- A message whose transaction is cancelled. `none` is a crash of the process. -/
def cancel (net : Net M) (tp : TopicPartition) (env : Env) : Option (Net M) :=
  match net.take tp with
  | none => none
  | some (p, inFlight) =>
    match newRtApecsTxn p.txn p.traceParent with
    | none => none
    | some (.error _) => some { net.setNext tp (net.next tp + 1) with inFlight := inFlight }
    | some (.ok rtxn) =>
      let (published, fault) := cancelApecsTxn env rtxn
      if fault.isSome then none
      else d.deliverAll { net.setNext tp (net.next tp + 1) with inFlight := inFlight } published

def turn (net : Net M) : Turn M → Option (Net M)
  | .run tp env logic => d.step net (.consume tp env logic)
  | .cancel tp env => d.cancel net tp env

/-- The call of `handleCommand` in a turn, with its result. -/
def calledIn (net : Net M) : Turn M → Option (Call × Option StepResult)
  | .run tp env logic => d.called net (.consume tp env logic)
  | .cancel .. => none

/-- The step that a turn runs, if any, writes nothing. -/
def Quiet (net : Net M) (t : Turn M) : Prop :=
  ∀ call rslt, d.calledIn net t = some (call, rslt) → call.writes rslt = false

/-- A turn in which a transaction that no other has generated is cancelled, or its step ends without `OK`,
or nothing but the failure of the transaction is published. -/
def Fails (net : Net M) : Turn M → Prop
  | .run tp env logic => ∃ p rest, net.take tp = some (p, rest) ∧ p.txn.uponError ≠ .bailout ∧
    ((d.outcome net tp env logic p).code ≠ .ok ∨ ErrorOnly (d.outcome net tp env logic p).published)
  | .cancel tp _ => ∃ p rest, net.take tp = some (p, rest) ∧ p.txn.uponError ≠ .bailout

end Deployment

/-- Cache and storage with a command applied to them, by the consumer of a partition. -/
def Net.apply (net : Net M) (cc : ClientCode M) (env : Env) (logic : LogicHandler M) (tp : TopicPartition) (call : Call) :
    Net M :=
  let plat := (handleCommand cc env logic call (Deployment.platform net tp)).2
  { net.setStore tp plat.instanceStore with ramDbs := plat.ramDbs }

namespace Deployment

variable (d : Deployment M)

/-- The command of a turn, if it has called one, applied to `net`. -/
def applied (net : Net M) (e : Net M × Turn M) : Net M :=
  match e.2 with
  | .run tp env logic =>
    match d.called e.1 (.consume tp env logic) with
    | some (call, _) => net.apply d.cc env logic tp call
    | none => net
  | .cancel .. => net

/-- The commands of a run, applied one after another. -/
def replay (net : Net M) (tr : List (Net M × Turn M)) : Net M := tr.foldl d.applied net

end Deployment

/-- The same in every cache and every database. -/
def Net.SameData (net net' : Net M) : Prop := net.stores = net'.stores ∧ net.ramDbs = net'.ramDbs

theorem Net.SameData.trans {net net' net'' : Net M} (h : net.SameData net') (h' : net'.SameData net'') : net.SameData net'' :=
  ⟨h.1.trans h'.1, h.2.trans h'.2⟩

theorem replay_concat {d : Deployment M} {net : Net M} {tr : List (Net M × Turn M)} {e : Net M × Turn M} :
    d.replay net (tr ++ [e]) = d.applied (d.replay net tr) e := by
  simp [Deployment.replay]

/-- A command makes the same of the same data. -/
theorem Net.SameData.applied {d : Deployment M} {net net' : Net M} (h : net.SameData net') (e : Net M × Turn M) :
    (d.applied net e).SameData (d.applied net' e) := by
  obtain ⟨stores, ramDbs⟩ := h
  unfold Deployment.applied
  split
  · rename_i tp env logic _
    split
    · rename_i call _ _
      have same : Deployment.platform net tp = Deployment.platform net' tp := by
        unfold Deployment.platform
        rw [stores, ramDbs]
      refine ⟨?_, ?_⟩
      · simp only [Net.apply, Net.setStore, same, stores]
      · simp only [Net.apply, same]
    · exact ⟨stores, ramDbs⟩
  · exact ⟨stores, ramDbs⟩

instance (d : Deployment M) (net : Net M) (t : Turn M) : Decidable (d.Quiet net t) :=
  decidable_of_iff ((d.calledIn net t).all (fun c => !c.1.writes c.2) = true) <| by
    unfold Deployment.Quiet
    cases d.calledIn net t with
    | none => simp
    | some c =>
      simp only [Option.all_some, Bool.not_eq_true']
      exact ⟨fun quiet _ _ same => by cases same; exact quiet, fun quiet => quiet _ _ rfl⟩

instance : (dest : Dest) → Decidable dest.IsError
  | .topic _ name => decidable_of_iff (name = .error) (by simp [Dest.IsError])
  | .response target => isTrue (.inr ⟨target, rfl⟩)

instance (pubs : List Publication) : Decidable (ErrorOnly pubs) := inferInstanceAs (Decidable (∀ p ∈ pubs, p.dest.IsError))

/-- What holds of the next message of a partition. -/
instance (net : Net M) (tp : TopicPartition) (P : Publication → Prop) [DecidablePred P] :
    Decidable (∃ p rest, net.take tp = some (p, rest) ∧ P p) :=
  decidable_of_iff ((net.take tp).any (fun m => decide (P m.1)) = true) (by
    simp [Option.any_eq_true])

instance (d : Deployment M) (net : Net M) : (t : Turn M) → Decidable (d.Fails net t)
  | .run tp env logic => inferInstanceAs (Decidable (∃ p rest, net.take tp = some (p, rest) ∧ (p.txn.uponError ≠ .bailout ∧
    ((d.outcome net tp env logic p).code ≠ .ok ∨ ErrorOnly (d.outcome net tp env logic p).published))))
  | .cancel tp _ => inferInstanceAs (Decidable (∃ p rest, net.take tp = some (p, rest) ∧ p.txn.uponError ≠ .bailout))

section
variable {cc : ClientCode M} {env : Env} {logic : LogicHandler M} {stgTgt : StorageTarget} {call : Call}
  {plat plat' : Platform M} {rslt : Option StepResult} {adds : List Step}

/-- A call that does not write leaves the platform as it was. -/
theorem quiet_unchanged (h : CommandEffect cc env logic stgTgt call plat rslt adds plat')
    (quiet : call.writes rslt = false) : plat' = plat := by
  cases h with
  | refused => rfl
  | process cnc store' concern system effect =>
    unfold Call.writes at quiet
    rw [if_pos system, Bool.or_eq_false_iff] at quiet
    obtain ⟨command, noInst⟩ := quiet
    have other : ∀ cmd, call.command = cmd →
        cmd ∈ [refreshInstance, flushInstance, requestRelated, refreshRelated] → False := by
      rintro cmd rfl hc
      rw [List.contains_iff_mem.2 hc] at command
      cases command
    cases effect with
    | quiet => rfl
    | update => rfl
    | delete => rfl
    | refreshInstance _ _ _ cmd => exact (other _ cmd (by simp)).elim
    | flushInstance _ cmd => exact (other _ cmd (by simp)).elim
    | requestRelated _ _ _ _ _ _ cmd => exact (other _ cmd (by simp)).elim
    | refreshRelated _ _ _ _ cmd => exact (other _ cmd (by simp)).elim
    | brokenOff _ _ _ cmd =>
      rcases cmd with cmd | cmd <;> exact (other _ cmd (by simp)).elim
    | changed cmd r _ _ new _ _ _ _ _ _ _ _ _ _ _ _ rsltInst =>
      simp [rsltInst] at noInst
  | storage cnc db' concern system effect =>
    unfold Call.writes at quiet
    rw [if_neg (by simp [system])] at quiet
    have isRead : call.command = read := by simpa using quiet
    cases effect with
    | refused => exact setRamDb_same _ _
    | read => exact setRamDb_same _ _
    | create _ _ _ _ _ _ cmd => exact absurd (cmd.symm.trans isRead) (by decide)
    | createFailed _ _ _ _ cmd => exact absurd (cmd.symm.trans isRead) (by decide)
    | update _ _ _ _ _ cmd => exact absurd (cmd.symm.trans isRead) (by decide)
    | updatePanic _ _ _ _ cmd => exact absurd (cmd.symm.trans isRead) (by decide)
    | updateAsync _ _ _ _ cmd => exact absurd (cmd.symm.trans isRead) (by decide)
    | delete cmd => exact absurd (cmd.symm.trans isRead) (by decide)
  | storageScnd cnc db' concern system _ effect =>
    unfold Call.writes at quiet
    rw [if_neg (by simp [system])] at quiet
    have isRead : call.command = read := by simpa using quiet
    cases effect with
    | refused => exact setRamDb_same _ _
    | create _ _ _ cmd => exact absurd (cmd.symm.trans isRead) (by decide)
    | update _ _ _ _ cmd =>
      rcases cmd with cmd | cmd <;> exact absurd (cmd.symm.trans isRead) (by decide)
    | delete cmd => exact absurd (cmd.symm.trans isRead) (by decide)

end

/-! ## A transaction that runs alone -/

section
variable {d : Deployment M} {net net' net₀ : Net M} {tp : TopicPartition} {env : Env} {logic : LogicHandler M}
  {p : Publication} {before after : List (TopicPartition × Publication)} {done ahead : List Step} {cur : Step}

theorem take_idle (idle : net.inFlight = []) : net.take tp = none := by
  simp [Net.take, idle]

/-- Nothing can be read where nothing is in flight. -/
theorem turn_idle (idle : net.inFlight = []) (t : Turn M) : d.turn net t = none := by
  cases t <;> simp [Deployment.turn, Deployment.step, Deployment.consume, Deployment.cancel, take_idle idle]

theorem Consumed.own_delivered (h : Consumed d net tp env logic net' p before after done cur ahead)
    (own : p.txn.uponError ≠ .bailout) :
    Delivered d (net.after tp (d.outcome net tp env logic p).state (before ++ after))
      (d.outcome net tp env logic p).published net' := by
  rcases h.delivered with ⟨bails, -⟩ | ⟨-, delivered⟩
  · simp [bailsOut, own] at bails
  · exact delivered

/-- Where a consumer leaves its platform alone, nothing is written. -/
theorem Consumed.unchanged (h : Consumed d net tp env logic net' p before after done cur ahead)
    (own : p.txn.uponError ≠ .bailout)
    (same : (d.outcome net tp env logic p).state = Deployment.platform net tp) :
    net'.stores = net.stores ∧ net'.ramDbs = net.ramDbs := by
  have delivered := h.own_delivered own
  rw [same] at delivered
  constructor
  · rw [delivered.stores]
    funext t
    show (if t = tp then net.stores tp else net.stores t) = net.stores t
    split
    · rename_i ht
      rw [ht]
    · rfl
  · exact delivered.ramDbs

/-- The platform that a consumer leaves is the one that its command has made. -/
theorem Consumed.state_eq (h : Consumed d net tp env logic net' p before after done cur ahead) :
    (d.called net (.consume tp env logic) = none ∧
      (d.outcome net tp env logic p).state = Deployment.platform net tp) ∨
    ∃ call rslt adds, d.called net (.consume tp env logic) = some (call, rslt) ∧
      Handled d net tp env logic p cur (d.outcome net tp env logic p) call rslt adds := by
  have called : d.called net (.consume tp env logic) = (d.outcome net tp env logic p).call := by
    simp [Deployment.called, h.taken]
  rw [called]
  cases h.fate with
  | rejected state none => exact .inl ⟨none, state⟩
  | missed q looksUp key missing state none => exact .inl ⟨none, state⟩
  | failed call rslt adds handled => exact .inr ⟨call, rslt, adds, handled.recorded, handled⟩
  | next call r adds _ _ handled => exact .inr ⟨call, some r, adds, handled.recorded, handled⟩
  | completed call r adds _ _ handled => exact .inr ⟨call, some r, adds, handled.recorded, handled⟩

theorem Consumed.quiet_state (h : Consumed d net tp env logic net' p before after done cur ahead)
    (quiet : d.Quiet net (.run tp env logic)) : (d.outcome net tp env logic p).state = Deployment.platform net tp := by
  rcases h.state_eq with ⟨-, state⟩ | ⟨call, rslt, adds, called, handled⟩
  · exact state
  · exact quiet_unchanged handled.effect (quiet call rslt called)

/-- What a consumer leaves in cache and storage is what its command has made of it. -/
theorem Consumed.applied (h : Consumed d net tp env logic net' p before after done cur ahead)
    (own : p.txn.uponError ≠ .bailout) : net'.SameData (d.applied net (net, .run tp env logic)) := by
  rcases h.state_eq with ⟨none, state⟩ | ⟨call, rslt, adds, called, handled⟩
  · have same : d.applied net (net, .run tp env logic) = net := by simp [Deployment.applied, none]
    rw [same]
    exact h.unchanged own state
  · have delivered := h.own_delivered own
    have same : d.applied net (net, .run tp env logic) = net.apply d.cc env logic tp call := by
      simp [Deployment.applied, called]
    have state : (handleCommand d.cc env logic call (Deployment.platform net tp)).2 = (d.outcome net tp env logic p).state := by
      rw [handled.handled]
    rw [same]
    refine ⟨?_, ?_⟩
    · rw [delivered.stores]
      simp only [Net.apply, state]
      rfl
    · rw [delivered.ramDbs]
      simp only [Net.apply, state]
      rfl

/-- A message whose transaction is cancelled leaves an error at most. -/
theorem cancel_some (sound : Sound d net) (h : d.cancel net tp env = some net') :
    ∃ p before after pubs, net.inFlight = before ++ (tp, p) :: after ∧ net.take tp = some (p, before ++ after) ∧
      ErrorOnly pubs ∧ Delivered d { net.setNext tp (net.next tp + 1) with inFlight := before ++ after } pubs net' := by
  unfold Deployment.cancel at h
  split at h
  · cases h
  rename_i p inFlight htake
  obtain ⟨before, after, hsplit, rfl, -⟩ := take_some htake
  obtain ⟨done, cur, ahead, sent⟩ := sound (tp, p) (by rw [hsplit]; simp)
  have fresh : newRtApecsTxn p.txn p.traceParent = some (.ok ⟨p.txn, p.traceParent⟩) := by
    unfold newRtApecsTxn
    simp [sent.valid.1, sent.valid.2, Except.map]
  rw [fresh] at h
  simp only [cancelApecsTxn, sent.logged.stands.currentStep, Option.isSome_none, Bool.false_eq_true, if_false] at h
  exact ⟨p, before, after, _, hsplit, htake, produceError_errorOnly, deliverAll_some h⟩

theorem Sound.cancel (sound : Sound d net) (h : d.cancel net tp env = some net') : Sound d net' := by
  obtain ⟨p, before, after, pubs, split, -, errors, delivered⟩ := cancel_some sound h
  intro m hm
  rw [delivered.inFlight, errorOnly_arrivals errors, List.append_nil] at hm
  have here : m ∈ net.inFlight := by
    rw [split]
    rcases List.mem_append.1 hm with hm | hm
    · exact List.mem_append_left _ hm
    · exact List.mem_append_right _ (List.mem_cons_of_mem _ hm)
  obtain ⟨done, cur, ahead, sent⟩ := sound m here
  refine ⟨done, cur, ahead, sent.mono fun t => ?_⟩
  rw [delivered.next]
  exact readNext_le net.next tp t

theorem Sound.turn (sound : Sound d net) {t : Turn M} (h : d.turn net t = some net') : Sound d net' := by
  cases t with
  | run tp env logic =>
    have hs : d.step net (.consume tp env logic) = some net' := h
    exact sound.step hs
  | cancel => exact sound.cancel h

/-- One message in flight, with nothing undone so far and nothing written if `quiet`, or only generated
transactions. -/
inductive Lone (d : Deployment M) (quiet : Prop) (net₀ : Net M) (tr : List (Net M × Turn M)) (net : Net M) : Prop
  | running (m : TopicPartition × Publication) (done : List Step) (cur : Step) (ahead : List Step)
      (inFlight : net.inFlight = [m]) (sent : Sent d net.next m done cur ahead)
      (own : m.2.txn.uponError ≠ .bailout) (replayed : net.SameData (d.replay net₀ tr))
      (unwritten : quiet → net.SameData net₀)
  | ended (generated : ∀ m ∈ net.inFlight, m.2.txn.uponError = .bailout)

theorem childPubs_bailout {traceParent parent : String} {n : Nat} {steps : List Step} {m : TopicPartition × Publication}
    (h : m ∈ (childPubs env traceParent parent n steps).filterMap d.arrival) : m.2.txn.uponError = .bailout := by
  obtain ⟨q, hq, harr⟩ := List.mem_filterMap.1 h
  obtain ⟨step, -, i, rfl⟩ := mem_childPubs hq
  unfold Deployment.arrival at harr
  split at harr
  · cases harr
  · obtain ⟨system, -, rfl⟩ := Option.map_eq_some_iff.1 harr
    rfl

/-- What arrives from a completed transaction has been generated. -/
theorem completed_arrivals {pubs : List Publication} {c : Completion}
    (published : (∃ first comp, pubs = c.published ++ comp ∧ CompleteOnly c.txn first comp) ∨
      ∃ errs, pubs = c.published ++ errs ∧ ErrorOnly errs) :
    pubs.filterMap d.arrival = c.published.filterMap d.arrival := by
  rcases published with ⟨first, comp, hpub, only⟩ | ⟨errs, hpub, only⟩
  · rw [hpub, List.filterMap_append, completeOnly_arrivals only, List.append_nil]
  · rw [hpub, List.filterMap_append, errorOnly_arrivals only, List.append_nil]

/-- The message of a lone transaction, as it is consumed. -/
theorem lone_split {m : TopicPartition × Publication} (inFlight : net.inFlight = [m])
    (h : Consumed d net tp env logic net' p before after done cur ahead) :
    m = (tp, p) ∧ before = [] ∧ after = [] := by
  have split := h.split
  rw [inFlight] at split
  cases before with
  | nil => cases after <;> simp_all
  | cons b before => simp at split

/-- What the one message of a transaction leaves in cache and storage. -/
theorem lone_data {quiet : Prop} {tr : List (Net M × Turn M)}
    (h : Consumed d net tp env logic net' p before after done cur ahead) (own : p.txn.uponError ≠ .bailout)
    (replayed : net.SameData (d.replay net₀ tr)) (unwritten : quiet → net.SameData net₀)
    (silent : quiet → d.Quiet net (.run tp env logic)) :
    net'.SameData (d.replay net₀ (tr ++ [(net, .run tp env logic)])) ∧ (quiet → net'.SameData net₀) := by
  refine ⟨?_, fun hq => ?_⟩
  · rw [replay_concat]
    exact (h.applied own).trans (replayed.applied _)
  · have same : net'.SameData net := h.unchanged own (h.quiet_state (silent hq))
    exact same.trans (unwritten hq)

/-- The one message of a transaction that is still running leads to the next one, or is the last. -/
theorem lone_running {quiet : Prop} {tr : List (Net M × Turn M)}
    (h : Consumed d net tp env logic net' p [] [] done cur ahead) (own : p.txn.uponError ≠ .bailout)
    (replayed : net.SameData (d.replay net₀ tr)) (unwritten : quiet → net.SameData net₀)
    (silent : quiet → d.Quiet net (.run tp env logic)) (sound : Sound d net') :
    Lone d quiet net₀ (tr ++ [(net, .run tp env logic)]) net' := by
  have delivered := h.own_delivered own
  obtain ⟨replayed', unwritten'⟩ := lone_data h own replayed unwritten silent
  have ends : (d.outcome net tp env logic p).published.filterMap d.arrival = [] →
      Lone d quiet net₀ (tr ++ [(net, .run tp env logic)]) net' := by
    intro none
    apply Lone.ended
    rw [delivered.inFlight, none]
    simp [Net.after]
  have goesOn : ∀ {q txn step}, (d.outcome net tp env logic p).published = [q] →
      Publishes env txn p.traceParent step q → txn.uponError = p.txn.uponError →
      Lone d quiet net₀ (tr ++ [(net, .run tp env logic)]) net' := by
    intro q txn step published publishes upon
    have inFlight : net'.inFlight = [(d.partitionOf step.concern step.system q.hashKey, q)] := by
      rw [delivered.inFlight, published]
      simp [Net.after, publishes.arrival]
    obtain ⟨done', cur', ahead', sent⟩ :=
      sound (d.partitionOf step.concern step.system q.hashKey, q) (by rw [inFlight]; exact List.mem_singleton_self _)
    refine .running _ done' cur' ahead' inFlight sent ?_ replayed' unwritten'
    rw [publishes.sent]
    exact fun hb => own (upon ▸ hb)
  cases h.fate with
  | rejected _ _ errors => exact ends (errorOnly_arrivals errors)
  | failed _ _ _ _ _ errors => exact ends (errorOnly_arrivals errors)
  | missed q looksUp key missing state call published publishes => exact goesOn published publishes rfl
  | next call r adds nextStep tail handled resultOk isOk follows published =>
    rcases published with ⟨errors, -⟩ | ⟨q, published, publishes⟩
    · exact ends (errorOnly_arrivals errors)
    · exact goesOn published publishes rfl
  | completed call r adds c m handled resultOk isOk last gen published =>
    apply Lone.ended
    intro m' hm'
    rw [delivered.inFlight, completed_arrivals published, gen.published] at hm'
    have child := (List.mem_append.1 hm').resolve_left (by simp [Net.after])
    exact childPubs_bailout child

/-- Generated transactions lead to generated ones at most. -/
theorem lone_over (h : Consumed d net tp env logic net' p before after done cur ahead)
    (generated : ∀ m ∈ net.inFlight, m.2.txn.uponError = .bailout) :
    ∀ m ∈ net'.inFlight, m.2.txn.uponError = .bailout := by
  have bails : p.txn.uponError = .bailout := generated (tp, p) (by rw [h.split]; simp)
  have others : ∀ m ∈ before ++ after, m.2.txn.uponError = .bailout := by
    intro m hm
    apply generated m
    rw [h.split]
    rcases List.mem_append.1 hm with hm | hm
    · exact List.mem_append_left _ hm
    · exact List.mem_append_right _ (List.mem_cons_of_mem _ hm)
  have arrivals : ∀ m ∈ (d.outcome net tp env logic p).published.filterMap d.arrival, m.2.txn.uponError = .bailout := by
    intro m hm
    obtain ⟨-, noneAhead, system⟩ := h.sent.generated bails
    cases h.fate with
    | rejected _ _ errors => rw [errorOnly_arrivals errors] at hm; cases hm
    | failed _ _ _ _ _ errors => rw [errorOnly_arrivals errors] at hm; cases hm
    | missed q looksUp =>
      have process := looksUp_process looksUp
      rcases system with hs | ⟨hs, -⟩ <;> (rw [process] at hs; cases hs)
    | next call r adds nextStep tail handled resultOk isOk follows =>
      have callFor := handled.callFor
      have none := (commandEffect_adds resultOk handled.effect).last
        (by rw [callFor.system, callFor.command]; exact system)
      rw [none, noneAhead] at follows
      cases follows
    | completed call r adds c steps handled resultOk isOk last gen published =>
      rw [completed_arrivals published, gen.published] at hm
      exact childPubs_bailout hm
  intro m hm
  rcases h.delivered with ⟨-, delivered⟩ | ⟨-, delivered⟩ <;> rw [delivered.inFlight] at hm
  · rcases List.mem_append.1 hm with hm | hm
    · exact generated m hm
    · exact arrivals m hm
  · rcases List.mem_append.1 hm with hm | hm
    · exact others m hm
    · exact arrivals m hm

/-- A transaction that is cancelled leaves the other messages. -/
theorem cancel_inFlight (sound : Sound d net) (h : d.cancel net tp env = some net') :
    (∀ m ∈ net'.inFlight, m ∈ net.inFlight) ∧ net'.SameData net ∧ ∀ m, net.inFlight = [m] → net'.inFlight = [] := by
  obtain ⟨p, before, after, pubs, split, -, errors, delivered⟩ := cancel_some sound h
  have left : net'.inFlight = before ++ after := by
    rw [delivered.inFlight, errorOnly_arrivals errors, List.append_nil]
  refine ⟨fun m hm => ?_, ⟨delivered.stores, delivered.ramDbs⟩, fun m only => ?_⟩
  · rw [left] at hm
    rw [split]
    rcases List.mem_append.1 hm with hm | hm
    · exact List.mem_append_left _ hm
    · exact List.mem_append_right _ (List.mem_cons_of_mem _ hm)
  · rw [left]
    rw [only] at split
    cases before with
    | nil => cases after <;> simp_all
    | cons b before => simp at split

theorem Lone.turn {quiet : Prop} {tr : List (Net M × Turn M)} (h : Lone d quiet net₀ tr net) (sound : Sound d net)
    {t : Turn M} (silent : quiet → d.Quiet net t) (hs : d.turn net t = some net') :
    Lone d quiet net₀ (tr ++ [(net, t)]) net' := by
  cases t with
  | cancel tp env =>
    obtain ⟨kept, -, last⟩ := cancel_inFlight sound hs
    apply Lone.ended
    intro m hm
    cases h with
    | running m' _ _ _ inFlight =>
      rw [last m' inFlight] at hm
      cases hm
    | ended generated => exact generated m (kept m hm)
  | run tp env logic =>
    obtain ⟨p, before, after, done, cur, ahead, consumed⟩ := consume_fate sound hs
    cases h with
    | running m _ _ _ inFlight _ own replayed unwritten =>
      obtain ⟨rfl, rfl, rfl⟩ := lone_split inFlight consumed
      exact lone_running consumed own replayed unwritten silent (sound.turn hs)
    | ended generated => exact .ended (lone_over consumed generated)

theorem Lone.run {quiet : Prop} {tr : List (Net M × Turn M)} (h : Lone d quiet net₀ [] net) (sound : Sound d net)
    (run : Path d.turn net tr net') (silent : quiet → ∀ e ∈ tr, d.Quiet e.1 e.2) :
    Sound d net' ∧ Lone d quiet net₀ tr net' := by
  apply run.invariant_trace (fun _ n t => quiet → d.Quiet n t)
  · exact ⟨sound, h⟩
  · rintro tr n t n' silent ⟨hsound, hlone⟩ hs
    exact ⟨hsound.turn hs, hlone.turn hsound silent hs⟩
  · rintro front e back rfl hq
    exact silent hq e (by simp)

/-- A step that ends without `OK` has nothing published but its error. -/
theorem Fate.errorOnly {out : Outcome (Platform M)} (h : Fate d net tp env logic p done cur ahead out) (notOk : out.code ≠ .ok) :
    ErrorOnly out.published := by
  cases h with
  | rejected _ _ errors => exact errors
  | failed _ _ _ _ _ errors => exact errors
  | missed _ _ _ _ _ _ _ _ isOk => exact absurd isOk notOk
  | next _ _ _ _ _ _ _ isOk => exact absurd isOk notOk
  | completed _ _ _ _ _ _ _ isOk => exact absurd isOk notOk

/-- Where the transaction fails, nothing is in flight any more, and nothing is undone. -/
theorem Lone.fails {quiet : Prop} {tr : List (Net M × Turn M)} (h : Lone d quiet net₀ tr net) (sound : Sound d net)
    {t : Turn M} (fails : d.Fails net t) (silent : quiet → d.Quiet net t) (hs : d.turn net t = some net') :
    net'.inFlight = [] ∧ net'.SameData (d.replay net₀ (tr ++ [(net, t)])) ∧ (quiet → net'.SameData net₀) := by
  cases t with
  | cancel tp env =>
    obtain ⟨p, rest, htake, own⟩ := fails
    obtain ⟨-, same, last⟩ := cancel_inFlight sound hs
    cases h with
    | ended generated =>
      obtain ⟨before, after, split, -⟩ := take_some htake
      exact absurd (generated (tp, p) (by rw [split]; simp)) own
    | running m _ _ _ inFlight _ _ replayed unwritten =>
      refine ⟨last m inFlight, ?_, fun hq => same.trans (unwritten hq)⟩
      rw [replay_concat]
      exact same.trans replayed
  | run tp env logic =>
    obtain ⟨p, before, after, done, cur, ahead, consumed⟩ := consume_fate sound hs
    obtain ⟨p', rest, htake, own, failure⟩ := fails
    cases consumed.taken.symm.trans htake
    cases h with
    | ended generated => exact absurd (generated (tp, p) (by rw [consumed.split]; simp)) own
    | running m _ _ _ inFlight _ _ replayed unwritten =>
      obtain ⟨rfl, rfl, rfl⟩ := lone_split inFlight consumed
      have errors : ErrorOnly (d.outcome net tp env logic p).published := failure.elim consumed.fate.errorOnly id
      refine ⟨?_, lone_data consumed own replayed unwritten silent⟩
      rw [(consumed.own_delivered own).inFlight, errorOnly_arrivals errors]
      simp [Net.after]

/-- A submission with nothing in flight. -/
theorem submit_lone (start : net₀.inFlight = []) {env : Env} {traceParent : String} {txn : Txn}
    {respTarget : Option TopicTarget} (h : d.step net₀ (.submit env traceParent txn respTarget) = some net) :
    ∃ steps rtxn cur rest q, Submitted env traceParent txn q steps rtxn cur rest ∧
      net.inFlight = [(d.partitionOf cur.concern cur.system q.hashKey, q)] ∧
      Sent d net.next (d.partitionOf cur.concern cur.system q.hashKey, q) [] (wireStep cur) (rest.map wireStep) ∧
      q.txn.uponError ≠ .bailout ∧ net.stores = net₀.stores ∧ net.ramDbs = net₀.ramDbs ∧
      net.completed = net₀.completed ∧ net.errors = net₀.errors := by
  simp only [Deployment.step] at h
  split at h
  · cases h
  rename_i q hq
  obtain ⟨steps, rtxn, cur, rest, submitted⟩ := executeTxnAsync_ok hq
  have delivered := deliver_some h
  have arrives := submitted.publishes.arrival (d := d)
  obtain ⟨fits, topic⟩ := delivered.arrived q (List.mem_singleton_self _) _ arrives
  obtain ⟨notComplete, notError⟩ := submitted.publishes.notComplete
  refine ⟨steps, rtxn, cur, rest, q, submitted, ?_, Sent.submit submitted fits topic, ?_, delivered.stores,
    delivered.ramDbs, ?_, ?_⟩
  · rw [delivered.inFlight, start]
    simp [arrives]
  · rw [submitted.publishes.sent]
    show rtxn.uponError ≠ .bailout
    rw [submitted.uponError]
    split <;> simp
  · rw [delivered.completed]
    simp [notComplete]
  · rw [delivered.errors]
    simp [notError]

/-- A transaction that fails, at whatever step and for whatever reason, or is cancelled ends there: nothing is
in flight any more, and nothing is undone. Cache and storage are what the commands that ran have made of
them, and as they were before it if none of these has written. -/
theorem failed_transaction_ends {tr : List (Net M × Turn M)} {env : Env} {traceParent : String} {txn : Txn}
    {respTarget : Option TopicTarget} {net₁ : Net M} (start : net₀.inFlight = [])
    (submitted : d.step net₀ (.submit env traceParent txn respTarget) = some net₁) (run : Path d.turn net₁ tr net)
    (failed : ∃ e ∈ tr, d.Fails e.1 e.2) :
    net.inFlight = [] ∧ (∃ front e, tr = front ++ [e] ∧ d.Fails e.1 e.2) ∧ net.SameData (d.replay net₀ tr) ∧
      ((∀ e ∈ tr, d.Quiet e.1 e.2) → net.stores = net₀.stores ∧ net.ramDbs = net₀.ramDbs) := by
  obtain ⟨steps, rtxn, cur, rest, q, -, inFlight, sent, own, stores, ramDbs, -⟩ := submit_lone start submitted
  have sound : Sound d net₁ := by
    intro m hm
    rw [inFlight, List.mem_singleton] at hm
    subst hm
    exact ⟨_, _, _, sent⟩
  let quiet : Prop := ∀ e ∈ tr, d.Quiet e.1 e.2
  have lone : Lone d quiet net₀ [] net₁ :=
    .running _ _ _ _ inFlight sent own ⟨stores, ramDbs⟩ fun _ => ⟨stores, ramDbs⟩
  obtain ⟨e, he, fails⟩ := failed
  obtain ⟨front, back, rfl⟩ := List.append_of_mem he
  obtain ⟨first, net₂, hstep, tail⟩ := run.split
  -- up to the failing step the transaction has the one message
  obtain ⟨soundHere, loneHere⟩ := lone.run sound first fun hq e' he' => hq e' (List.mem_append_left _ he')
  obtain ⟨idle, replayed, unwritten⟩ := loneHere.fails soundHere fails (fun hq => hq e he) hstep
  cases back with
  | nil =>
    obtain rfl := tail.of_nil
    exact ⟨idle, ⟨front, e, rfl, fails⟩, replayed, unwritten⟩
  | cons e' back =>
    obtain ⟨same, net₃, next, -⟩ := tail.of_cons
    rw [same, turn_idle idle] at next
    cases next

end

/-- The second step of the transaction, which is revertable, finds no instance. -/
def setTwo : List (Action Bytes) :=
  [sampleSubmit [1] [sampleStep "Player" "Set" "k" [2], sampleStep "Player" "Set" "z" [3]],
   sampleConsume "Player" .process 0, sampleConsume "Player" .process 0, sampleConsume "Player" .storage 0]

/-- It ends on an error with nothing in flight, and the first step stays in the cache. -/
theorem revertable_leaves_trace :
    (runs Deployment.single.step (Net.sample (some ⟨some [107, 1], none, ⟨1, 0, 0⟩⟩) none) setTwo).map (fun net =>
        (net.inFlight.length, net.completed.length, net.errors.length, net.stores ⟨"Player", .process, 0⟩ "k")) =
      some (0, 0, 1, some ⟨some [107, 2], none, ⟨1, 0, 1⟩⟩) := by
  decide +kernel

/-- A command on an instance that is nowhere: the storage read fails. -/
def submitMissing : Action Bytes := sampleSubmit [1] [sampleStep "Player" "Set" "z" [3]]

def setMissing : List (Turn Bytes) :=
  [.run ⟨"Player", .process, 0⟩ Env.sample sampleLogic, .run ⟨"Player", .storage, 0⟩ Env.sample sampleLogic]

def missingSent : Net Bytes := after Deployment.single.step Net.new [submitMissing]

theorem failed_transaction_ends_setMissing :
    (after Deployment.single.turn missingSent setMissing).inFlight = [] ∧
      (after Deployment.single.turn missingSent setMissing).stores = (Net.new : Net Bytes).stores ∧
      (after Deployment.single.turn missingSent setMissing).ramDbs = (Net.new : Net Bytes).ramDbs := by
  have submitted : Deployment.single.step Net.new submitMissing = some missingSent := step_after (by decide +kernel)
  have taken : (runs Deployment.single.turn missingSent setMissing).isSome = true := by decide +kernel
  have all : ∀ e ∈ trace Deployment.single.turn missingSent setMissing, Deployment.single.Quiet e.1 e.2 := by decide +kernel
  have failed : ∃ e ∈ trace Deployment.single.turn missingSent setMissing, Deployment.single.Fails e.1 e.2 := by
    decide +kernel
  have ends := failed_transaction_ends rfl submitted (path_after taken) failed
  exact ⟨ends.1, ends.2.2.2 all⟩

/-- A step without a key is turned away in front of its handler, and the command before it is not undone; nor
is that of a transaction that is cancelled. -/
example :
    let sent := after Deployment.single.step (Net.sample (some ⟨some [107, 1], none, ⟨1, 0, 0⟩⟩) none)
      [sampleSubmit [1] [sampleStep "Player" "Set" "k" [2], sampleStep "Player" "Set" "" [3]]]
    let first : Turn Bytes := .run ⟨"Player", .process, 0⟩ Env.sample sampleLogic
    [[first, first], [first, .cancel ⟨"Player", .process, 0⟩ Env.sample]].all fun turns =>
      (runs Deployment.single.turn sent turns).any fun net =>
        net.inFlight.isEmpty && net.errors.length = 1 &&
          net.stores ⟨"Player", .process, 0⟩ "k" = some ⟨some [107, 2], none, ⟨1, 0, 1⟩⟩ := by
  decide +kernel

end Rocketcycle
