import Rocketcycle.Net.Quiescence
import Rocketcycle.Net.Shows

/-!
# Every transaction is accounted for

The messages of a transaction, in flight or on `COMPLETE` and `ERROR`, over whole runs: they are no
more than the transaction has been begun, and one more for each time that a consumer has reported
it and ended itself in front of it. Where the texts that are logged are cut between characters, they are as
many: no transaction disappears.
-/

namespace Rocketcycle

open Command Runs

variable {M : Type}

/-- The messages of a transaction that no consumer has read yet, and those that say how it has ended. -/
def Net.messages (net : Net M) (id : String) : Nat :=
  net.inFlight.countP (fun m => m.2.txn.id = id) + net.completed.countP (fun q => q.txn.id = id) +
    net.errors.countP fun q => q.txn.id = id

/-- What is published of a transaction, apart from responses. -/
def said (id : String) (pubs : List Publication) : Nat := pubs.countP fun q => !q.isResponse && q.txn.id = id

/-- The transactions that are begun: the one that is submitted, and those generated for storage. -/
def Deployment.begun (d : Deployment M) (net : Net M) : Action M → List String
  | .submit _ traceParent _ _ => [traceIdFromTraceParent traceParent]
  | .consume tp env logic =>
    match net.take tp with
    | none => []
    | some (p, _) =>
      ((d.outcome net tp env logic p).published.filter fun q => q.isStep && q.txn.uponError = .bailout).map fun q => q.txn.id

/-- The transaction that a consumer will read again, as it has ended itself in front of it. -/
def Deployment.readAgain (d : Deployment M) (net : Net M) : Action M → List String
  | .submit .. => []
  | .consume tp env logic =>
    match net.take tp with
    | none => []
    | some (p, _) => if bailsOut p (d.outcome net tp env logic p).code then [p.txn.id] else []

def Deployment.begunIn (d : Deployment M) (tr : List (Net M × Action M)) : List String := tr.flatMap fun e => d.begun e.1 e.2

def Deployment.readAgainIn (d : Deployment M) (tr : List (Net M × Action M)) : List String :=
  tr.flatMap fun e => d.readAgain e.1 e.2

/-! ## Counting publications -/

section
variable {d : Deployment M} {net net' : Net M} {id : String} {certain : Prop} {upon : UponError} {pubs own : List Publication}

theorem said_append (pubs' : List Publication) : said id (pubs ++ pubs') = said id pubs + said id pubs' := List.countP_append

theorem said_responses (h : ∀ q ∈ pubs, q.isResponse = true) : said id pubs = 0 := by
  unfold said
  rw [List.countP_eq_zero]
  intro q hq
  simp [h q hq]

theorem OneOf.said {id' : String} (h : OneOf id' upon pubs) : said id pubs = if id' = id then 1 else 0 := by
  obtain ⟨p, responses, rfl, notResponse, frame, all⟩ := h
  have rest : Rocketcycle.said id responses = 0 := said_responses all
  unfold Rocketcycle.said at rest ⊢
  rw [List.countP_cons, rest, notResponse, frame.1]
  simp

theorem Shows.said_le {id' : String} (h : Shows certain id' upon pubs) : said id pubs ≤ if id' = id then 1 else 0 := by
  rcases h.most with rfl | one
  · exact Nat.zero_le _
  · exact one.said.le

/-- The messages that are generated for other transactions. -/
theorem childPub_isStep (env : Env) (traceParent parent : String) (n : Nat) (step : Step) :
    (childPub env traceParent parent n step).isStep = true := by
  rw [isStep_iff]
  refine ⟨_, _, rfl, ?_⟩
  split <;> simp

theorem said_children {env : Env} {traceParent parent : String} {steps : List Step} {n : Nat} :
    said id (childPubs env traceParent parent n steps) =
      (((childPubs env traceParent parent n steps).filter fun q => q.isStep && q.txn.uponError = .bailout).map
        fun q => q.txn.id).count id := by
  have kept : ∀ q ∈ childPubs env traceParent parent n steps, q.isStep = true ∧ q.txn.uponError = .bailout := by
    intro q hq
    obtain ⟨step, -, i, rfl⟩ := mem_childPubs hq
    exact ⟨childPub_isStep .., rfl⟩
  rw [List.filter_eq_self.2 fun q hq => by simp [kept q hq], List.count_eq_countP, List.countP_map]
  unfold said
  apply List.countP_congr
  intro q hq
  have notResponse : q.isResponse = false := by
    have isStep := (kept q hq).1
    unfold Publication.isStep at isStep
    simp only [Bool.and_eq_true, Bool.not_eq_true'] at isStep
    exact isStep.2
  simp [notResponse]

/-- Every publication but a response arrives, completes or reports an error. -/
theorem said_eq (d : Deployment M) (pubs : List Publication) :
    said id pubs = (pubs.filterMap d.arrival).countP (fun m => m.2.txn.id = id) +
      (pubs.filter Publication.isComplete).countP (fun q => q.txn.id = id) +
      (pubs.filter Publication.isError).countP fun q => q.txn.id = id := by
  induction pubs with
  | nil => rfl
  | cons q pubs ih =>
    unfold said at ih ⊢
    rw [List.countP_cons, ih, List.filterMap_cons, List.filter_cons, List.filter_cons]
    unfold Deployment.arrival Publication.isComplete Publication.isError Publication.isResponse
    cases q.dest with
    | response target => simp
    | topic concern name => cases name <;> simp [TopicName.system, List.countP_cons] <;> omega

theorem Delivered.messages (h : Delivered d net pubs net') : net'.messages id = net.messages id + said id pubs := by
  unfold Net.messages
  rw [h.inFlight, h.completed, h.errors, List.countP_append, List.countP_append, List.countP_append, said_eq d pubs]
  omega

end

/-! ## A step of the system -/

section
variable {d : Deployment M} {net net' : Net M} {tp : TopicPartition} {env : Env} {logic : LogicHandler M} {p : Publication}
  {before after : List (TopicPartition × Publication)} {done ahead : List Step} {cur : Step} {id : String} {certain : Prop}

theorem submit_messages {traceParent : String} {txn : Txn} {respTarget : Option TopicTarget}
    (hs : d.step net (.submit env traceParent txn respTarget) = some net') :
    net'.messages id = net.messages id + (d.begun net (.submit env traceParent txn respTarget)).count id := by
  simp only [Deployment.step] at hs
  split at hs
  · cases hs
  rename_i q hq
  obtain ⟨steps, rtxn, cur, rest, submitted⟩ := executeTxnAsync_ok hq
  rw [(deliver_some hs).messages, submitted.publishes.oneOf.said, submitted.txnId]
  simp [Deployment.begun, List.count_singleton, beq_iff_eq]

/-- A generated transaction has no further step. -/
theorem Taken.generated_ends {next : TopicPartition → Nat} (taken : Taken d next net tp env logic net' p before after done cur ahead)
    (upon : p.txn.uponError = .bailout) : ∀ q ∈ (d.outcome net tp env logic p).published, q.isStep = false := by
  intro q hq
  rw [Bool.eq_false_iff]
  intro isStep
  obtain ⟨concern, name, dest, notError, notComplete⟩ := isStep_iff.1 isStep
  obtain ⟨m, arrives⟩ : ∃ m, d.arrival q = some m := by
    unfold Deployment.arrival
    rw [dest]
    cases name with
    | error => exact absurd rfl notError
    | complete => exact absurd rfl notComplete
    | _ => exact ⟨_, rfl⟩
  have arrived : q.fits = true ∧ 0 < d.partitions m.1.concern m.1.system := by
    rcases taken.delivered with ⟨-, delivered⟩ | ⟨-, delivered⟩ <;> exact delivered.arrived q hq m arrives
  obtain ⟨done', cur', ahead', arrival, -⟩ := taken.arrivals (fun t => Nat.le_max_left (next t) (net.next tp + 1))
    (Nat.le_max_right _ _) q hq m arrives arrived.1 arrived.2
  exact arrival.not_generated taken.sent upon

/-- Of what is published just the generated transactions are begun. -/
theorem Taken.begun {next : TopicPartition → Nat} (taken : Taken d next net tp env logic net' p before after done cur ahead)
    {steps : List Step} {own : List Publication}
    (split : (d.outcome net tp env logic p).published = childPubs env p.traceParent p.txn.id 0 steps ++ own)
    (shows : Shows certain p.txn.id p.txn.uponError own) :
    said id (d.outcome net tp env logic p).published = (d.begun net (.consume tp env logic)).count id + said id own := by
  have ownNone : own.filter (fun q => q.isStep && q.txn.uponError = .bailout) = [] := by
    rw [List.filter_eq_nil_iff]
    intro q hq begins
    rw [Bool.and_eq_true, decide_eq_true_eq] at begins
    have ends := taken.generated_ends
    rcases shows.most with rfl | ⟨q', responses, rfl, -, frame, all⟩
    · cases hq
    rcases List.mem_cons.1 hq with rfl | hq
    · rw [ends (frame.2.symm.trans begins.2) q (by rw [split]; simp)] at begins
      cases begins.1
    · have isStep := begins.1
      unfold Publication.isStep at isStep
      rw [all q hq, Bool.not_true, Bool.and_false] at isStep
      cases isStep
  simp only [Deployment.begun, taken.taken]
  rw [split, said_append, said_children, List.filter_append, ownNone, List.append_nil]

/-- The messages after a consumer has read one. -/
theorem Taken.messages {next : TopicPartition → Nat} (taken : Taken d next net tp env logic net' p before after done cur ahead)
    (clean : certain → (∀ call r, (d.outcome net tp env logic p).call = some (call, some r) → r.Clean) ∧
      LogsCleanly env (d.outcome net tp env logic p).asked ∧ ∀ s ∈ done, s.validUtf8 = true)
    (noFault : (d.outcome net tp env logic p).fault = none) :
    net'.messages id ≤ net.messages id + (d.begun net (.consume tp env logic)).count id +
        (d.readAgain net (.consume tp env logic)).count id ∧
      (certain → net'.messages id = net.messages id + (d.begun net (.consume tp env logic)).count id +
        (d.readAgain net (.consume tp env logic)).count id) := by
  obtain ⟨steps, own, split, shows⟩ := taken.sent.outcome_shows clean noFault
  have begun : said id (d.outcome net tp env logic p).published = (d.begun net (.consume tp env logic)).count id + said id own :=
    taken.begun split shows
  have most : said id own ≤ if p.txn.id = id then 1 else 0 := shows.said_le
  have exact' : certain → said id own = if p.txn.id = id then 1 else 0 := fun sure => (shows.certainly sure).said
  have again : (d.readAgain net (.consume tp env logic)).count id =
      if bailsOut p (d.outcome net tp env logic p).code then (if p.txn.id = id then 1 else 0) else 0 := by
    simp only [Deployment.readAgain, taken.taken]
    split <;> simp [List.count_singleton]
  rcases taken.delivered with ⟨bails, delivered⟩ | ⟨stays, delivered⟩
  · -- the message stays where it is
    have same : (net.restarted tp (d.outcome net tp env logic p).state).messages id = net.messages id := rfl
    rw [again, if_pos bails, delivered.messages, begun, same]
    exact ⟨by omega, fun sure => by rw [exact' sure]; omega⟩
  · have gone : (net.after tp (d.outcome net tp env logic p).state (before ++ after)).messages id +
        (if p.txn.id = id then 1 else 0) = net.messages id := by
      unfold Net.messages
      rw [taken.split]
      simp only [Net.after, List.countP_append, List.countP_cons, decide_eq_true_eq]
      change (before.countP _ + after.countP _ + net.completed.countP _ + net.errors.countP _) + _ = _
      omega
    rw [again, stays, delivered.messages, begun]
    simp only [Bool.false_eq_true, if_false]
    exact ⟨by omega, fun sure => by rw [exact' sure]; omega⟩

theorem consume_noFault {next : TopicPartition → Nat} (taken : Taken d next net tp env logic net' p before after done cur ahead)
    (hs : d.step net (.consume tp env logic) = some net') : (d.outcome net tp env logic p).fault = none := by
  have fresh : newRtApecsTxn p.txn p.traceParent = some (.ok ⟨p.txn, p.traceParent⟩) := by
    simp [newRtApecsTxn, taken.sent.valid.1, taken.sent.valid.2, Except.map]
  simp only [Deployment.step, Deployment.consume, taken.taken, fresh] at hs
  split at hs
  · cases hs
  · rename_i hfault
    simpa using hfault

theorem step_messages (sound : Sound d net) (standing : certain → Standing d BehindClean net) {a : Action M}
    (clean : certain → d.LogsCleanly net a) (hs : d.step net a = some net') (id : String) :
    net'.messages id ≤ net.messages id + (d.begun net a).count id + (d.readAgain net a).count id ∧
      (certain → net'.messages id = net.messages id + (d.begun net a).count id + (d.readAgain net a).count id) := by
  cases a with
  | submit =>
    rw [submit_messages hs]
    exact ⟨Nat.le_add_right _ _, fun _ => rfl⟩
  | consume tp env logic =>
    obtain ⟨p, before, after, done, cur, ahead, taken⟩ := consume_fate sound hs
    refine taken.messages (fun sure => ?_) (consume_noFault taken hs)
    obtain ⟨results, texts⟩ := clean sure p _ taken.taken
    exact ⟨results, texts, (standing sure).at (by rw [taken.split]; simp) taken.sent⟩

end

/-! ## Runs -/

section
variable {d : Deployment M} {net₀ net : Net M} {tr : List (Net M × Action M)} {certain : Prop}

/-- What a run keeps: the messages of every transaction are accounted for. -/
structure Accounted (d : Deployment M) (certain : Prop) (net₀ : Net M) (tr : List (Net M × Action M)) (net : Net M) : Prop where
  sound : Sound d net
  standing : certain → Standing d BehindClean net
  most : ∀ id, net.messages id ≤ net₀.messages id + (d.begunIn tr).count id + (d.readAgainIn tr).count id
  exactly : certain → ∀ id, net.messages id = net₀.messages id + (d.begunIn tr).count id + (d.readAgainIn tr).count id

theorem Accounted.step (h : Accounted d certain net₀ tr net) {a : Action M} {net' : Net M} (clean : certain → d.LogsCleanly net a)
    (hs : d.step net a = some net') : Accounted d certain net₀ (tr ++ [(net, a)]) net' := by
  have begun : ∀ id, (d.begunIn (tr ++ [(net, a)])).count id = (d.begunIn tr).count id + (d.begun net a).count id := by
    intro id
    simp [Deployment.begunIn, List.count_append]
  have again : ∀ id, (d.readAgainIn (tr ++ [(net, a)])).count id = (d.readAgainIn tr).count id + (d.readAgain net a).count id := by
    intro id
    simp [Deployment.readAgainIn, List.count_append]
  refine ⟨h.sound.step hs, fun sure => (h.standing sure).behindClean_step (clean sure) hs, fun id => ?_, fun sure id => ?_⟩
  · have here := (step_messages h.sound h.standing clean hs id).1
    have before := h.most id
    rw [begun, again]
    omega
  · have here := (step_messages h.sound h.standing clean hs id).2 sure
    have before := h.exactly sure id
    rw [begun, again]
    omega

theorem run_accounted (idle : net₀.inFlight = []) (run : Path d.step net₀ tr net)
    (clean : certain → ∀ e ∈ tr, d.LogsCleanly e.1 e.2) : Accounted d certain net₀ tr net := by
  apply run.invariant_trace (fun _ s a => certain → d.LogsCleanly s a)
  · have start : Standing d BehindClean net₀ := standing_idle idle
    exact ⟨start.sound, fun _ => start, by simp [Deployment.begunIn, Deployment.readAgainIn],
      by simp [Deployment.begunIn, Deployment.readAgainIn]⟩
  · exact fun tr s a s' clean h hs => h.step clean hs
  · rintro front e back rfl sure
    exact clean sure e (by simp)

/-- In every run the messages of a transaction are at most as many as it has been begun, and one more for
each time that a consumer has ended itself in front of it. Where no text that is logged is cut inside of a
character, they are as many. -/
theorem every_transaction_accounted (idle : net₀.inFlight = []) (run : Path d.step net₀ tr net) (id : String) :
    net.messages id ≤ net₀.messages id + (d.begunIn tr).count id + (d.readAgainIn tr).count id ∧
      ((∀ e ∈ tr, d.LogsCleanly e.1 e.2) →
        net.messages id = net₀.messages id + (d.begunIn tr).count id + (d.readAgainIn tr).count id) := by
  have accounted : Accounted d (∀ e ∈ tr, d.LogsCleanly e.1 e.2) net₀ tr net := run_accounted idle run fun clean => clean
  exact ⟨accounted.most id, fun clean => accounted.exactly clean id⟩

end

/-- A command on a cached instance, with what it generates. -/
def setOnce : List (Action Bytes) :=
  [sampleSubmit [1] [sampleStep "Player" "Set" "k" [2]], sampleConsume "Player" .process 0,
   sampleConsume "Player" .storage 0, sampleConsume "Player" .storageScnd 0]

/-- One on an instance that is nowhere, whose failure is logged. -/
def setNowhere : List (Action Bytes) :=
  [.submit Env.sample "00-11111111111111111111111111111111-0123456789abcdef-01"
      ⟨.revertable, [sampleStep "Player" "Set" "z" [3]]⟩ none,
   sampleConsume "Player" .process 0, sampleConsume "Player" .storage 0]

/-- Of both commands and of the storage update there is one message each. -/
theorem every_transaction_accounted_setOnce :
    (after Deployment.single.step knownPlayer (setOnce ++ setNowhere)).messages (traceIdFromTraceParent sampleTraceParent) = 1 ∧
      (after Deployment.single.step knownPlayer (setOnce ++ setNowhere)).messages "child0" = 1 ∧
      (after Deployment.single.step knownPlayer (setOnce ++ setNowhere)).messages "11111111111111111111111111111111" = 1 := by
  have taken : (runs Deployment.single.step knownPlayer (setOnce ++ setNowhere)).isSome = true := by decide +kernel
  have clean : ∀ e ∈ trace Deployment.single.step knownPlayer (setOnce ++ setNowhere),
      Deployment.single.LogsCleanly e.1 e.2 := by
    decide +kernel
  have accounted := every_transaction_accounted (by rfl) (path_after taken)
  rw [(accounted _).2 clean, (accounted _).2 clean, (accounted _).2 clean]
  decide +kernel

end Rocketcycle
