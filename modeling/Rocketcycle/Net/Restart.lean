import Rocketcycle.Net.Sound

/-!
# Consumers that crash

A consumer commits its offset every few seconds. If it crashes in between, its successor has an
empty instance store, and reads again what has been read since the last commit. The client code
answers as one `logic` throughout, so that a message that is read twice meets the same command.
-/

namespace Rocketcycle

open Command Runs

variable {M : Type}

/-- The system with what crashes bring back: the messages that the consumer of a partition has read
since its last commit. -/
structure Restartable (M : Type) where
  net : Net M
  uncommitted : TopicPartition → List Publication

inductive RestartAction where
  | consume (tp : TopicPartition) (env : Env)
  | commit (tp : TopicPartition)
  | crash (tp : TopicPartition)

namespace Restartable

def setUncommitted (st : Restartable M) (tp : TopicPartition) (ps : List Publication) : Restartable M :=
  { st with uncommitted := fun t => if t = tp then ps else st.uncommitted t }

/-- The state after a message. A consumer that bails out commits what lies before the message, which
stays where it is. -/
def consumed (st : Restartable M) (tp : TopicPartition) (p : Publication) (net : Net M) : Restartable M :=
  { st.setUncommitted tp (if net.next tp = st.net.next tp then [] else st.uncommitted tp ++ [p]) with net := net }

/-- The successor of a crashed consumer begins with the first message that was not committed. -/
def crash (st : Restartable M) (tp : TopicPartition) : Restartable M :=
  { st.setUncommitted tp [] with
    net := { (st.net.setStore tp InstanceStore.new).setNext tp (st.net.next tp - (st.uncommitted tp).length) with
      inFlight := (st.uncommitted tp).map (fun p => (tp, p)) ++ st.net.inFlight } }

/-- A message that is in flight, or that a crash may bring back. -/
def Pending (st : Restartable M) (m : TopicPartition × Publication) : Prop :=
  m ∈ st.net.inFlight ∨ m.2 ∈ st.uncommitted m.1

end Restartable

def Deployment.restartStep (d : Deployment M) (logic : LogicHandler M) (st : Restartable M) :
    RestartAction → Option (Restartable M)
  | .consume tp env =>
    match st.net.take tp with
    | none => none
    | some (p, _) => (d.step st.net (.consume tp env logic)).map fun net => st.consumed tp p net
  | .commit tp => some (st.setUncommitted tp [])
  | .crash tp => some (st.crash tp)

/-- The message that is read is followed by another step, of its transaction or of one that it has
generated, or by `COMPLETE`. A consumer that bails out reads the message again. -/
def Deployment.GoesOn (d : Deployment M) (logic : LogicHandler M) (st : Restartable M) : RestartAction → Prop
  | .consume tp env => ∀ p inFlight, st.net.take tp = some (p, inFlight) →
      bailsOut p (d.outcome st.net tp env logic p).code = false →
      ∃ q ∈ (d.outcome st.net tp env logic p).published, q.dest.IsStep ∨ q.isComplete = true
  | _ => True

section
variable {d : Deployment M} {logic : LogicHandler M} {st st' : Restartable M} {tp : TopicPartition} {env : Env}
  {m : TopicPartition × Publication}

theorem pending_setUncommitted {p : Publication} {ps : List Publication} (hp : m.2 ∈ (st.setUncommitted tp ps).uncommitted m.1)
    (hps : ∀ q ∈ ps, q = p ∨ q ∈ st.uncommitted tp) : m = (tp, p) ∨ m.2 ∈ st.uncommitted m.1 := by
  unfold Restartable.setUncommitted at hp
  dsimp only at hp
  split at hp
  · rename_i same
    rcases hps m.2 hp with hq | hq
    · exact .inl (Prod.ext same hq)
    · exact .inr (same ▸ hq)
  · exact .inr hp

/-- A crash brings back what was pending. -/
theorem crash_pending (h : (st.crash tp).Pending m) : st.Pending m := by
  rcases h with h | h
  · rcases List.mem_append.1 h with h | h
    · obtain ⟨p, hp, rfl⟩ := List.mem_map.1 h
      exact .inr hp
    · exact .inl h
  · unfold Restartable.crash Restartable.setUncommitted at h
    dsimp only at h
    split at h
    · cases h
    · exact .inr h

theorem crash_inFlight (h : m ∈ st.net.inFlight) : m ∈ (st.crash tp).net.inFlight :=
  List.mem_append_right _ h

theorem commit_pending (h : (st.setUncommitted tp []).Pending m) : st.Pending m := by
  rcases h with h | h
  · exact .inl h
  · rcases pending_setUncommitted (p := m.2) h (by simp) with h' | h'
    · unfold Restartable.setUncommitted at h
      rw [h'] at h
      simp at h
    · exact .inr h'

/-- What a consumer does in a step that it survives. -/
theorem restart_consume {next : TopicPartition → Nat}
    (sound : ∀ m ∈ st.net.inFlight, ∃ done cur ahead, Sent d next m done cur ahead)
    (h : d.restartStep logic st (.consume tp env) = some st') :
    ∃ p before after done cur ahead, Taken d next st.net tp env logic st'.net p before after done cur ahead ∧
      st' = st.consumed tp p st'.net := by
  simp only [Deployment.restartStep] at h
  split at h
  · cases h
  rename_i p rest htake
  obtain ⟨net', hnet, rfl⟩ := Option.map_eq_some_iff.1 h
  obtain ⟨p', before, after, done, cur, ahead, taken⟩ := consume_taken sound hnet
  have same := taken.taken
  rw [htake] at same
  cases same
  exact ⟨p, before, after, done, cur, ahead, taken, rfl⟩

end

section
variable {d : Deployment M} {logic : LogicHandler M} {net net' : Net M} {tp : TopicPartition} {env : Env}
  {next : TopicPartition → Nat} {p : Publication} {before after : List (TopicPartition × Publication)}
  {done ahead : List Step} {cur : Step} {m : TopicPartition × Publication}

/-- A message that was in flight still is, unless it is the one that was read. -/
theorem Taken.remains (h : Taken d next net tp env logic net' p before after done cur ahead)
    (hm : m ∈ net.inFlight) : m ∈ net'.inFlight ∨
      m = (tp, p) ∧ bailsOut p (d.outcome net tp env logic p).code = false ∧
        Delivered d (net.after tp (d.outcome net tp env logic p).state (before ++ after))
          (d.outcome net tp env logic p).published net' := by
  rcases h.delivered with ⟨-, delivered⟩ | ⟨stays, delivered⟩
  · exact .inl (by rw [delivered.inFlight]; exact List.mem_append_left _ hm)
  · rw [h.split] at hm
    have others : m ∈ before ++ after → m ∈ net'.inFlight := by
      intro hm
      rw [delivered.inFlight]
      exact List.mem_append_left _ hm
    rcases List.mem_append.1 hm with hm | hm
    · exact .inl (others (List.mem_append_left _ hm))
    rcases List.mem_cons.1 hm with rfl | hm
    · exact .inr ⟨rfl, stays, delivered⟩
    · exact .inl (others (List.mem_append_right _ hm))

theorem Taken.ramDbs (h : Taken d next net tp env logic net' p before after done cur ahead) :
    net'.ramDbs = (d.outcome net tp env logic p).state.ramDbs := by
  rcases h.delivered with ⟨-, delivered⟩ | ⟨-, delivered⟩ <;> exact delivered.ramDbs

/-- The instance store of a partition after a message: untouched on another one. -/
theorem Taken.stores (h : Taken d next net tp env logic net' p before after done cur ahead) (t : TopicPartition) :
    net'.stores t = net.stores t ∨ t = tp ∧ (net'.stores t = InstanceStore.new ∨
      net'.stores t = (d.outcome net tp env logic p).state.instanceStore) := by
  rcases h.delivered with ⟨-, delivered⟩ | ⟨-, delivered⟩ <;> rw [delivered.stores]
  · by_cases same : t = tp
    · exact .inr ⟨same, .inl (by simp [Net.restarted, Net.setStore, same])⟩
    · exact .inl (by simp [Net.restarted, Net.setStore, same])
  · by_cases same : t = tp
    · exact .inr ⟨same, .inr (by simp [Net.after, Net.setStore, same])⟩
    · exact .inl (by simp [Net.after, Net.setStore, Net.setNext, same])

theorem Taken.offsets (h : Taken d next net tp env logic net' p before after done cur ahead) :
    bailsOut p (d.outcome net tp env logic p).code = true ∧ net'.next = net.next ∨
      bailsOut p (d.outcome net tp env logic p).code = false ∧ net'.next = readNext net.next tp := by
  rcases h.delivered with ⟨bails, delivered⟩ | ⟨stays, delivered⟩
  · exact .inl ⟨bails, delivered.next⟩
  · exact .inr ⟨stays, by rw [delivered.next, after_next]⟩

/-- A step that is published arrives. -/
theorem Taken.arrives (h : Taken d next net tp env logic net' p before after done cur ahead) {q : Publication}
    (hq : q ∈ (d.outcome net tp env logic p).published) (arrival : d.arrival q = some m) : m ∈ net'.inFlight := by
  have mem : m ∈ (d.outcome net tp env logic p).published.filterMap d.arrival := List.mem_filterMap.2 ⟨q, hq, arrival⟩
  rcases h.delivered with ⟨-, delivered⟩ | ⟨-, delivered⟩ <;>
    (rw [delivered.inFlight]; exact List.mem_append_right _ mem)

theorem Taken.completed_published {q : Publication} (h : Taken d next net tp env logic net' p before after done cur ahead)
    (completed : net'.completed = net.completed ++ [q]) :
    (d.outcome net tp env logic p).published.filter Publication.isComplete = [q] := by
  rcases h.delivered with ⟨-, delivered⟩ | ⟨-, delivered⟩
  · exact List.append_cancel_left (delivered.completed.symm.trans completed)
  · exact List.append_cancel_left (delivered.completed.symm.trans completed)

/-- A message that completes its transaction has succeeded at its last step, and what the completion generates is
published with it. -/
theorem Taken.completion {q : Publication} (h : Taken d next net tp env logic net' p before after done cur ahead)
    (completed : net'.completed = net.completed ++ [q]) :
    ∃ call r c m first comp, Handled d net tp env logic p cur (d.outcome net tp env logic p) call (some r) [] ∧
      r.code = .ok ∧ (d.outcome net tp env logic p).code = .ok ∧ ahead = [] ∧
      Generated env d.cc.pb (d.outcome net tp env logic p).state.instanceStore
        (stepped p.txn done (d.doneStep net tp cur r) []) p.traceParent c m ∧
      (d.outcome net tp env logic p).published = c.published ++ comp ∧ CompleteOnly c.txn first comp := by
  have published := h.completed_published completed
  have none : ∀ {pubs : List Publication}, ErrorOnly pubs → pubs.filter Publication.isComplete ≠ [q] := by
    intro pubs errors
    rw [errorOnly_completed errors]
    exact List.cons_ne_nil _ _ |>.symm
  cases h.fate with
  | rejected _ _ errors => exact absurd published (none errors)
  | failed _ _ _ _ _ errors => exact absurd published (none errors)
  | missed q' _ _ _ _ _ hpub publishes =>
    rw [hpub, List.filter_cons_of_neg (by simp [publishes.notComplete.1])] at published
    cases published
  | next _ _ _ _ _ _ _ _ _ hpub =>
    rcases hpub with ⟨errors, -⟩ | ⟨q', hpub, publishes⟩
    · exact absurd published (none errors)
    · rw [hpub, List.filter_cons_of_neg (by simp [publishes.notComplete.1])] at published
      cases published
  | completed call r adds c m handled resultOk isOk last generated hpub children =>
    obtain ⟨rfl, rfl⟩ := List.append_eq_nil_iff.1 last
    rcases hpub with ⟨first, comp, hpub, only⟩ | ⟨errs, hpub, errors⟩
    · exact ⟨call, r, c, m, first, comp, handled, resultOk, isOk, rfl, generated, hpub, only⟩
    · have childless : c.published.filter Publication.isComplete = [] := generated.notComplete
      rw [hpub, List.filter_append, childless, List.nil_append] at published
      exact absurd published (none errors)

end

end Rocketcycle
