import Rocketcycle.Net.Deployment
import Rocketcycle.Apecs.TxnLog

/-!
# Deliveries

What becomes of a list of publications, and of the message a consumer takes.
-/

namespace Rocketcycle

variable {M : Type} {d : Deployment M} {net net' : Net M}

/-- The message a publication arrives as, if it is one for a consumer. -/
def Deployment.arrival (d : Deployment M) (p : Publication) : Option (TopicPartition × Publication) :=
  match p.dest with
  | .response _ => none
  | .topic concern name => name.system.map fun system => (d.partitionOf concern system p.hashKey, p)

/-- All that deliveries change. -/
structure Delivered (d : Deployment M) (net : Net M) (pubs : List Publication) (net' : Net M) : Prop where
  inFlight : net'.inFlight = net.inFlight ++ pubs.filterMap d.arrival
  next : net'.next = net.next
  stores : net'.stores = net.stores
  ramDbs : net'.ramDbs = net.ramDbs
  completed : net'.completed = net.completed ++ pubs.filter Publication.isComplete
  errors : net'.errors = net.errors ++ pubs.filter Publication.isError
  /-- A message has a topic, and is no larger than a message can be. -/
  arrived : ∀ p ∈ pubs, ∀ m, d.arrival p = some m → p.fits = true ∧ 0 < d.partitions m.1.concern m.1.system

theorem deliver_some {p : Publication} (h : d.deliver net p = some net') : Delivered d net [p] net' := by
  unfold Deployment.deliver at h
  split at h
  · rename_i target hdest
    cases h
    constructor <;> simp [Deployment.arrival, Publication.isComplete, Publication.isError, hdest]
  rename_i concern name hdest
  split at h
  · rename_i system hsys
    split at h
    · cases h
    rename_i hok
    simp only [Bool.or_eq_true, decide_eq_true_eq, Bool.not_eq_true', not_or, Bool.not_eq_false] at hok
    cases h
    have notEnd : name ≠ .complete ∧ name ≠ .error := by
      constructor <;> (rintro rfl; cases hsys)
    constructor
    · simp [Deployment.arrival, hdest, hsys]
    · rfl
    · rfl
    · rfl
    · have : p.isComplete = false := by
        unfold Publication.isComplete
        rw [hdest]
        cases name <;> simp_all
      simp [this]
    · have : p.isError = false := by
        unfold Publication.isError
        rw [hdest]
        cases name <;> simp_all
      simp [this]
    · intro q hq m hm
      rw [List.mem_singleton.1 hq] at hm ⊢
      simp only [Deployment.arrival, hdest, hsys, Option.map_some, Option.some.injEq] at hm
      rw [← hm]
      exact ⟨hok.2, Nat.pos_of_ne_zero hok.1⟩
  · rename_i hsys
    have ends : name = .complete ∨ name = .error := by
      cases name <;> simp_all [TopicName.system]
    rcases ends with rfl | rfl
    · cases h
      constructor <;> simp [Deployment.arrival, Publication.isComplete, Publication.isError, hdest, TopicName.system]
    · cases h
      constructor <;> simp [Deployment.arrival, Publication.isComplete, Publication.isError, hdest, TopicName.system]

theorem Delivered.trans {net'' : Net M} {ps qs : List Publication} (h : Delivered d net ps net')
    (h' : Delivered d net' qs net'') : Delivered d net (ps ++ qs) net'' where
  inFlight := by rw [h'.inFlight, h.inFlight, List.filterMap_append, List.append_assoc]
  next := h'.next.trans h.next
  stores := h'.stores.trans h.stores
  ramDbs := h'.ramDbs.trans h.ramDbs
  completed := by rw [h'.completed, h.completed, List.filter_append, List.append_assoc]
  errors := by rw [h'.errors, h.errors, List.filter_append, List.append_assoc]
  arrived := by
    intro p hp
    rcases List.mem_append.1 hp with hp | hp
    · exact h.arrived p hp
    · exact h'.arrived p hp

theorem deliverAll_some {pubs : List Publication} (h : d.deliverAll net pubs = some net') :
    Delivered d net pubs net' := by
  induction pubs generalizing net with
  | nil =>
    cases h
    constructor <;> simp
  | cons p ps ih =>
    unfold Deployment.deliverAll at h
    split at h
    · cases h
    · rename_i net1 h1
      exact (deliver_some h1).trans (ih h)

/-- A consumer takes the oldest message of its partition. -/
theorem take_some {tp : TopicPartition} {p : Publication} {rest : List (TopicPartition × Publication)}
    (h : net.take tp = some (p, rest)) :
    ∃ before after, net.inFlight = before ++ (tp, p) :: after ∧ rest = before ++ after ∧
      ∀ m ∈ before, m.1 ≠ tp := by
  unfold Net.take at h
  split at h
  · cases h
  rename_i m hfind
  cases h
  have here := List.find?_some hfind
  obtain ⟨a, before, after, hbefore, ha, hsplit, herase⟩ :=
    List.exists_of_eraseP (p := fun m => decide (m.1 = tp)) (List.mem_of_find?_eq_some hfind) here
  have first : net.inFlight.find? (fun m => m.1 = tp) = some a := by
    have none : before.find? (fun m => m.1 = tp) = none := List.find?_eq_none.2 hbefore
    rw [hsplit, List.find?_append, none]
    simp [of_decide_eq_true ha]
  rw [first] at hfind
  cases hfind
  refine ⟨before, after, ?_, herase, fun m hm => of_decide_eq_false (by simpa using hbefore m hm)⟩
  rw [hsplit, ← of_decide_eq_true ha]

/-! ## The arrivals of the different kinds of publication -/

theorem errorOnly_arrivals {pubs : List Publication} (h : ErrorOnly pubs) : pubs.filterMap d.arrival = [] := by
  rw [List.filterMap_eq_nil_iff]
  intro p hp
  rcases h p hp with ⟨c, hd⟩ | ⟨t, hd⟩ <;> simp [Deployment.arrival, hd, TopicName.system]

theorem errorOnly_completed {pubs : List Publication} (h : ErrorOnly pubs) :
    pubs.filter Publication.isComplete = [] := by
  rw [List.filter_eq_nil_iff]
  intro p hp
  rcases h p hp with ⟨c, hd⟩ | ⟨t, hd⟩ <;> simp [Publication.isComplete, hd]

theorem Publishes.arrival {env : Env} {txn : ApecsTxn} {traceParent : String} {step : Step} {p : Publication}
    (h : Publishes env txn traceParent step p) :
    d.arrival p = some (d.partitionOf step.concern step.system p.hashKey, p) := by
  obtain ⟨name, hname, hdest⟩ := h.dest
  unfold Deployment.arrival
  rw [hdest]
  cases hs : step.system <;> rw [hs] at hname <;> cases hname <;> rfl

theorem Publishes.notComplete {env : Env} {txn : ApecsTxn} {traceParent : String} {step : Step} {p : Publication}
    (h : Publishes env txn traceParent step p) : p.isComplete = false ∧ p.isError = false := by
  obtain ⟨name, hname, hdest⟩ := h.dest
  unfold Publication.isComplete Publication.isError
  rw [hdest]
  cases hs : step.system <;> rw [hs] at hname <;> cases hname <;> exact ⟨rfl, rfl⟩

theorem completeOnly_arrivals {txn : ApecsTxn} {first : Step} {pubs : List Publication}
    (h : CompleteOnly txn first pubs) : pubs.filterMap d.arrival = [] := by
  obtain ⟨p, rest, rfl, hp, -, hrest⟩ := h
  rw [List.filterMap_eq_nil_iff]
  intro q hq
  rcases List.mem_cons.1 hq with rfl | hq
  · simp [Deployment.arrival, hp, TopicName.system]
  · obtain ⟨t, ht⟩ := hrest q hq
    simp [Deployment.arrival, ht]

/-- Where the generated transaction of a storage step arrives. -/
theorem childPub_arrival {env : Env} {traceParent parent : String} {n : Nat} {step : Step}
    (h : step.system = .storage ∨ step.system = .storageScnd) :
    d.arrival (childPub env traceParent parent n step) =
      some (d.partitionOf step.concern step.system (if step.isKeylessStep then env.uid else stringBytes step.key),
        childPub env traceParent parent n step) := by
  rcases h with h | h <;> simp [Deployment.arrival, childPub, h, TopicName.system]

theorem childPub_notComplete {env : Env} {traceParent parent : String} {n : Nat} {step : Step} :
    (childPub env traceParent parent n step).isComplete = false ∧
      (childPub env traceParent parent n step).isError = false := by
  unfold childPub Publication.isComplete Publication.isError
  by_cases h : step.system = .storage <;> simp [h]

theorem Generated.notComplete {env : Env} {pb : RelatedCodecs} {store : InstanceStore} {txn : ApecsTxn} {traceParent : String}
    {c : Completion} {m : List (String × Step)} (h : Generated env pb store txn traceParent c m) :
    c.published.filter Publication.isComplete = [] := by
  rw [List.filter_eq_nil_iff, h.published]
  intro q hq
  obtain ⟨step, -, i, rfl⟩ := mem_childPubs hq
  simp [childPub_notComplete.1]

end Rocketcycle
