import Rocketcycle.Apecs.Completion
import Rocketcycle.Lib.Cut
import Mathlib.Data.List.Nodup

/-!
# The children of a completed transaction

Which transactions a completion generates, said of its steps alone, and which of them it records in
`AssocTxns`: the copies of inline writes and the updates of primary storage, these twice, and none
of the updates of secondary storage.
-/

namespace Rocketcycle

open Command

section
variable {pb : RelatedCodecs} {store : InstanceStore}

/-! ## Last changes -/

/-- The payload of the update that a step with its result calls for, if it has changed an instance. -/
def Step.change (pb : RelatedCodecs) (store : InstanceStore) (s : Step) : Option Bytes :=
  if s.system = .process then
    s.result.bind fun rslt => if isInstanceChange s rslt then (stepInst pb store s rslt).join else none
  else none

/-- The updates that the steps with a property call for, in their order. -/
def changesOf (pb : RelatedCodecs) (store : InstanceStore) (of : Step → Bool) (steps : List Step) : List Step :=
  (steps.filter of).filterMap fun s => (s.change pb store).map (updateAsyncStep s)

def Step.mapKey (s : Step) : String := s!"{s.concern}_{s.key}"

theorem lookup_entry (k : String) (e : String × Step) (m : List (String × Step)) :
    (e :: m).lookup k = if k = e.1 then some e.2 else m.lookup k := by
  obtain ⟨k', s⟩ := e
  rw [List.lookup_cons]
  by_cases h : k = k'
  · simp [h]
  · have other : (k == k') = false := by simpa using h
    simp [h, other]

theorem lookup_storageStepsInsert (key k : String) (step : Step) (m : List (String × Step)) :
    (storageStepsInsert key step m).lookup k = if k = key then some step else m.lookup k := by
  induction m with
  | nil =>
    unfold storageStepsInsert
    rw [lookup_entry]
  | cons entry rest ih =>
    obtain ⟨k', s⟩ := entry
    unfold storageStepsInsert
    split
    · rename_i same
      subst same
      rw [lookup_entry, lookup_entry]
      by_cases h : k = k' <;> simp [h]
    · rename_i other
      rw [lookup_entry, lookup_entry, ih]
      by_cases h : k = k'
      · subst h
        simp [other]
      · simp [h]

theorem storageStepsInsert_nodup {key : String} {step : Step} {m : List (String × Step)}
    (nodup : (m.map Prod.fst).Nodup) : ((storageStepsInsert key step m).map Prod.fst).Nodup := by
  induction m with
  | nil => simp [storageStepsInsert]
  | cons entry rest ih =>
    obtain ⟨k, s⟩ := entry
    rw [List.map_cons, List.nodup_cons] at nodup
    unfold storageStepsInsert
    split
    · rename_i same
      rw [List.map_cons, List.nodup_cons]
      exact same ▸ nodup
    · rename_i other
      rw [List.map_cons, List.nodup_cons]
      refine ⟨?_, ih nodup.2⟩
      intro hk
      obtain ⟨e, he, hek⟩ := List.mem_map.1 hk
      rcases storageStepsInsert_keys.1 ⟨e, he, hek⟩ with h | ⟨e', he', h⟩
      · exact other h.symm
      · exact nodup.1 (h ▸ List.mem_map_of_mem he')

/-- What one step does to the map. -/
theorem storageStepsMap_cons {s : Step} {rest : List Step} {m m' : List (String × Step)}
    (h : storageStepsMap pb store (s :: rest) m = .ok m') :
    storageStepsMap pb store rest (match s.change pb store with
      | some payload => storageStepsInsert s.mapKey (updateAsyncStep s payload) m
      | none => m) = .ok m' := by
  unfold storageStepsMap at h
  split at h
  · rename_i process
    split at h
    · cases h
    rename_i rslt hr
    have change : s.change pb store = if isInstanceChange s rslt then (stepInst pb store s rslt).join else none := by
      rw [Step.change, if_pos process, hr]
      rfl
    rw [change]
    split at h
    · rename_i changed
      rw [if_pos changed]
      split at h
      · cases h
      · rename_i hinst
        rw [hinst]
        exact h
      · rename_i payload hinst
        rw [hinst]
        exact h
    · rename_i unchanged
      rw [if_neg unchanged]
      exact h
  · rename_i other
    rw [Step.change, if_neg other]
    exact h

/-- The map has the last change under a key. -/
theorem storageStepsMap_lookup {steps : List Step} {m m' : List (String × Step)} (k : String)
    (h : storageStepsMap pb store steps m = .ok m') :
    m'.lookup k = (changesOf pb store (fun s => s.mapKey = k) steps).getLast?.or (m.lookup k) := by
  induction steps generalizing m with
  | nil =>
    cases h
    rfl
  | cons s rest ih =>
    have later := ih (storageStepsMap_cons h)
    have split : changesOf pb store (fun s => s.mapKey = k) (s :: rest) =
        changesOf pb store (fun s => s.mapKey = k) [s] ++ changesOf pb store (fun s => s.mapKey = k) rest := by
      show changesOf pb store (fun s => s.mapKey = k) ([s] ++ rest) = _
      simp only [changesOf, List.filter_append, List.filterMap_append]
    rw [later, split, List.getLast?_append, Option.or_assoc]
    congr 1
    cases hc : s.change pb store with
    | none =>
      have none : changesOf pb store (fun s => s.mapKey = k) [s] = [] := by
        unfold changesOf
        by_cases hk : s.mapKey = k <;> simp [hk, hc]
      rw [none]
      rfl
    | some payload =>
      dsimp only
      rw [lookup_storageStepsInsert]
      by_cases hk : k = s.mapKey
      · simp [changesOf, ← hk, hc]
      · have other : ¬s.mapKey = k := fun h => hk h.symm
        simp [changesOf, hk, other]

theorem storageStepsMap_nodup {steps : List Step} {m m' : List (String × Step)} (nodup : (m.map Prod.fst).Nodup)
    (h : storageStepsMap pb store steps m = .ok m') : (m'.map Prod.fst).Nodup := by
  induction steps generalizing m with
  | nil =>
    cases h
    exact nodup
  | cons s rest ih =>
    apply ih _ (storageStepsMap_cons h)
    split
    · exact storageStepsInsert_nodup nodup
    · exact nodup

/-- Without changes there is nothing in the map, and only then. -/
theorem storageStepsMap_nil {steps : List Step} {m : List (String × Step)} (h : storageStepsMap pb store steps [] = .ok m) :
    m = [] ↔ ∀ s ∈ steps, s.change pb store = none := by
  constructor
  · rintro rfl s hs
    have found := storageStepsMap_lookup s.mapKey h
    rw [List.lookup_nil, Option.or_none, eq_comm, List.getLast?_eq_none_iff] at found
    unfold changesOf at found
    rw [List.filterMap_eq_nil_iff] at found
    simpa using found s (List.mem_filter.2 ⟨hs, by simp⟩)
  · intro none
    cases m with
    | nil => rfl
    | cons e m =>
      have found := storageStepsMap_lookup e.1 h
      have nothing : changesOf pb store (fun s => s.mapKey = e.1) steps = [] := by
        unfold changesOf
        rw [List.filterMap_eq_nil_iff]
        intro s hs
        rw [none s (List.mem_filter.1 hs).1]
        rfl
      rw [nothing, lookup_entry, if_pos rfl] at found
      cases found

/-! ## Updates of one instance -/

/-- The step is one for this instance. -/
def Step.isOf (concern key : String) (s : Step) : Bool := s.concern = concern && s.key = key

/-- The instances of changing steps are told apart by the keys of the map. -/
def DistinctChanges (pb : RelatedCodecs) (store : InstanceStore) (steps : List Step) : Prop :=
  ∀ s ∈ steps, ∀ s' ∈ steps, s.change pb store ≠ none → s'.change pb store ≠ none → s.mapKey = s'.mapKey →
    s.concern = s'.concern ∧ s.key = s'.key

theorem mem_changesOf {of : Step → Bool} {steps : List Step} {u : Step} :
    u ∈ changesOf pb store of steps ↔
      ∃ s ∈ steps, of s = true ∧ ∃ payload, s.change pb store = some payload ∧ u = updateAsyncStep s payload := by
  unfold changesOf
  rw [List.mem_filterMap]
  constructor
  · rintro ⟨s, hs, hu⟩
    obtain ⟨payload, hc, rfl⟩ := Option.map_eq_some_iff.1 hu
    obtain ⟨mem, isOf⟩ := List.mem_filter.1 hs
    exact ⟨s, mem, isOf, payload, hc, rfl⟩
  · rintro ⟨s, mem, isOf, payload, hc, rfl⟩
    exact ⟨s, List.mem_filter.2 ⟨mem, isOf⟩, by rw [hc]; rfl⟩

/-- An entry of the map is there for a changing step. -/
theorem storageStepsMap_entry {steps : List Step} {m : List (String × Step)} (h : storageStepsMap pb store steps [] = .ok m)
    {e : String × Step} (he : e ∈ m) :
    ∃ s ∈ steps, ∃ payload, s.change pb store = some payload ∧ e = (s.mapKey, updateAsyncStep s payload) := by
  rcases storageStepsMap_entries h he with he | ⟨s, mem, payload, ⟨system, rslt, hr, changed, hinst⟩, rfl⟩
  · cases he
  · refine ⟨s, mem, payload, ?_, rfl⟩
    rw [Step.change, if_pos system, hr]
    simp [changed, hinst]

theorem filter_lookup {m : List (String × Step)} (nodup : (m.map Prod.fst).Nodup) (k : String) :
    (m.filter fun e => e.1 = k).map Prod.snd = (m.lookup k).toList := by
  induction m with
  | nil => rfl
  | cons e m ih =>
    rw [List.map_cons, List.nodup_cons] at nodup
    rw [lookup_entry]
    by_cases h : k = e.1
    · have others : m.filter (fun e' => e'.1 = k) = [] := by
        rw [List.filter_eq_nil_iff]
        intro e' he' same
        apply nodup.1
        rw [← h, ← of_decide_eq_true same]
        exact List.mem_map_of_mem he'
      rw [List.filter_cons_of_pos (by simp [h]), others, if_pos h]
      rfl
    · rw [List.filter_cons_of_neg (by simpa using fun hk => h hk.symm), if_neg h]
      exact ih nodup.2

/-- The map has one update of an instance that has changed, and none of any other. -/
theorem storageStepsMap_isOf {steps : List Step} {m : List (String × Step)} (distinct : DistinctChanges pb store steps)
    (h : storageStepsMap pb store steps [] = .ok m) (concern key : String) :
    (m.map Prod.snd).filter (Step.isOf concern key) =
      (changesOf pb store (Step.isOf concern key) steps).getLast?.toList := by
  cases hlast : (changesOf pb store (Step.isOf concern key) steps).getLast? with
  | none =>
    rw [List.getLast?_eq_none_iff] at hlast
    show _ = []
    rw [List.filter_eq_nil_iff]
    intro u hu isOf
    obtain ⟨e, he, rfl⟩ := List.mem_map.1 hu
    obtain ⟨s, mem, payload, hc, rfl⟩ := storageStepsMap_entry h he
    have here : updateAsyncStep s payload ∈ changesOf pb store (Step.isOf concern key) steps :=
      mem_changesOf.2 ⟨s, mem, isOf, payload, hc, rfl⟩
    rw [hlast] at here
    cases here
  | some u =>
    obtain ⟨s, mem, isOf, payload, hc, rfl⟩ := mem_changesOf.1 (List.mem_of_getLast? hlast)
    have same : s.concern = concern ∧ s.key = key := by simpa [Step.isOf] using isOf
    have agree : ∀ s' ∈ steps, s'.change pb store ≠ none → (s'.mapKey = s.mapKey ↔ s'.isOf concern key = true) := by
      intro s' mem' hc'
      constructor
      · intro hk
        obtain ⟨hconcern, hkey⟩ := distinct s' mem' s mem hc' (by simp [hc]) hk
        simp [Step.isOf, hconcern, hkey, same]
      · intro hp
        have pair : s'.concern = concern ∧ s'.key = key := by simpa [Step.isOf] using hp
        simp [Step.mapKey, pair, same]
    have byKey : changesOf pb store (fun s' => s'.mapKey = s.mapKey) steps =
        changesOf pb store (Step.isOf concern key) steps := by
      unfold changesOf
      clear hlast h mem
      induction steps with
      | nil => rfl
      | cons s' rest ih =>
        have tail := ih (fun a ha b hb => distinct a (List.mem_cons_of_mem _ ha) b (List.mem_cons_of_mem _ hb))
          fun a ha => agree a (List.mem_cons_of_mem _ ha)
        cases hs' : s'.change pb store with
        | none =>
          rw [List.filter_cons, List.filter_cons]
          split <;> split <;> simp [hs', tail]
        | some payload' =>
          have iff := agree s' List.mem_cons_self (by simp [hs'])
          rw [List.filter_cons, List.filter_cons]
          by_cases hp : s'.isOf concern key = true
          · rw [if_pos (by simpa using iff.2 hp), if_pos hp, List.filterMap_cons, List.filterMap_cons, hs', tail]
          · rw [if_neg (by simpa using mt iff.1 hp), if_neg hp, tail]
    have found := storageStepsMap_lookup s.mapKey h
    rw [byKey, hlast, List.lookup_nil, Option.or_none] at found
    have keys : ∀ e ∈ m, (Step.isOf concern key e.2 = true ↔ e.1 = s.mapKey) := by
      intro e he
      obtain ⟨s', mem', payload', hc', rfl⟩ := storageStepsMap_entry h he
      exact (agree s' mem' (by simp [hc'])).symm
    have filtered : m.filter (fun e => Step.isOf concern key e.2) = m.filter (fun e => e.1 = s.mapKey) := by
      apply List.filter_congr
      intro e he
      have := keys e he
      by_cases hk : e.1 = s.mapKey
      · simp [hk, this.2 hk]
      · simpa [hk] using mt this.1 hk
    rw [List.filter_map]
    show (m.filter fun e => Step.isOf concern key e.2).map Prod.snd = _
    have nodup : (m.map Prod.fst).Nodup := storageStepsMap_nodup (by simp) h
    rw [filtered, filter_lookup nodup, found]

/-! ## The ids that are recorded -/

variable {env : Env} {traceParent : String}

def AssocIds (txn : ApecsTxn) : List String := txn.assocTxns.map AssocTxn.id

theorem executeChild_assoc {assoc : String → AssocTxn} {errStep : Step} {put : ApecsTxn → Step → ApecsTxn}
    {failure : String} {c c' : Completion} {step : Step}
    (h : executeChild env traceParent assoc errStep put failure c step = .ok c') :
    AssocIds c'.txn = AssocIds c.txn ++ [(assoc (env.traceId c.ids)).id] ∧ c'.ids = c.ids + 1 := by
  unfold executeChild at h
  dsimp only at h
  split at h
  · cases h
    exact ⟨by simp [AssocIds], rfl⟩
  · cases h
  · cases h

theorem produceSecondaries_assoc {steps : List Step} {idx : Nat} {c c' : Completion}
    (h : produceSecondaries env traceParent idx steps c = .ok c') :
    ∃ n, AssocIds c'.txn = AssocIds c.txn ++ (List.range' c.ids n).map env.traceId ∧ c'.ids = c.ids + n := by
  induction steps generalizing idx c with
  | nil =>
    cases h
    exact ⟨0, by simp, rfl⟩
  | cons step rest ih =>
    unfold produceSecondaries at h
    split at h
    · cases h
    rename_i c1 h1
    obtain ⟨n, assoc, ids⟩ := ih h
    unfold produceSecondary at h1
    split at h1
    · split at h1
      · cases h1
      obtain ⟨first, firstIds⟩ := executeChild_assoc h1
      refine ⟨n + 1, ?_, by omega⟩
      rw [assoc, first, firstIds, List.range'_succ, List.map_cons, List.append_assoc]
      rfl
    · cases h1
      exact ⟨n, assoc, ids⟩

/-- Of the two ids of an update the first is recorded twice. -/
theorem produceUpdates_assoc {steps : List Step} {c c' : Completion} (h : produceUpdates env traceParent steps c = .ok c') :
    AssocIds c'.txn = AssocIds c.txn ++
      (List.range steps.length).flatMap (fun j => [env.traceId (c.ids + 2 * j), env.traceId (c.ids + 2 * j)]) := by
  induction steps generalizing c with
  | nil =>
    cases h
    simp
  | cons step rest ih =>
    unfold produceUpdates at h
    split at h
    · cases h
    rename_i c2 h2
    unfold produceUpdate at h2
    dsimp only at h2
    split at h2
    · cases h2
    rename_i c1 h1
    obtain ⟨first, firstIds⟩ := executeChild_assoc h1
    obtain ⟨second, secondIds⟩ := executeChild_assoc h2
    have shift : ∀ j, c2.ids + 2 * j = c.ids + 2 * (j + 1) := by
      intro j
      omega
    rw [ih h, second, first, List.length_cons, List.range_succ_eq_map, List.flatMap_cons, List.flatMap_map]
    simp [shift, List.append_assoc]

theorem childPubs_ids {parent : String} {steps : List Step} (n : Nat) :
    (childPubs env traceParent parent n steps).map (fun q => q.txn.id) =
      (List.range' n steps.length).map env.traceId := by
  induction steps generalizing n with
  | nil => rfl
  | cons step rest ih =>
    rw [childPubs, List.map_cons, ih, List.length_cons, List.range'_succ, List.map_cons]
    rfl

theorem childPubs_steps {parent : String} {steps : List Step} (n : Nat) :
    (childPubs env traceParent parent n steps).flatMap (fun q => q.txn.forwardSteps) = steps.map wireStep := by
  induction steps generalizing n with
  | nil => rfl
  | cons step rest ih =>
    rw [childPubs, List.flatMap_cons, ih, List.map_cons]
    rfl

/-! ## Completions -/

/-- A transaction for a storage topic. -/
def Publication.isChild (p : Publication) : Bool :=
  match p.dest with
  | .topic _ .storage => true
  | .topic _ .storageScnd => true
  | _ => false

/-- The steps of what is published for storage. -/
def childSteps (pubs : List Publication) : List Step :=
  (pubs.filter Publication.isChild).flatMap fun q => q.txn.forwardSteps

/-- One transaction for every inline write, and two for every instance that a process step has
changed, of its last change. -/
structure ExactChildren (pb : RelatedCodecs) (store : InstanceStore) (txn : ApecsTxn) (pubs : List Publication) : Prop where
  parent : ∀ q ∈ pubs, q.isChild = true → q.txn.assocTxns = [⟨txn.id, .parent⟩] ∧ q.txn.forwardSteps.length = 1
  copies : (childSteps pubs).filter (fun s => s.command ≠ updateAsync) = (secondarySteps txn.forwardSteps).map wireStep
  updates : ∀ concern key, (childSteps pubs).filter (fun s => s.command = updateAsync && s.isOf concern key) =
    (updateSteps (changesOf pb store (Step.isOf concern key) txn.forwardSteps).getLast?.toList).map wireStep

/-- The children are recorded, each once, and nothing else is. -/
structure RecordsChildren (completed : Publication) (pubs : List Publication) : Prop where
  once : (AssocIds completed.txn).Nodup
  exactly : ∀ id, id ∈ AssocIds completed.txn ↔ ∃ q ∈ pubs, q.isChild = true ∧ q.txn.id = id

variable {txn : ApecsTxn} {done : List Step} {cur : Step} {idx : Int} {cmpdOffset : CompoundOffset} {pubs : List Publication}

theorem childPub_isChild {parent : String} {n : Nat} {step : Step} : (childPub env traceParent parent n step).isChild = true := by
  unfold childPub Publication.isChild
  by_cases h : step.system = .storage <;> simp [h]

theorem childPubs_filter {parent : String} {n : Nat} {steps : List Step} :
    (childPubs env traceParent parent n steps).filter Publication.isChild = childPubs env traceParent parent n steps := by
  rw [List.filter_eq_self]
  intro q hq
  obtain ⟨step, -, i, rfl⟩ := mem_childPubs hq
  exact childPub_isChild

/-- What has been published for storage are the generated transactions. -/
theorem completed_children {c : Completion} {m : List (String × Step)} (gen : Generated env pb store txn traceParent c m)
    (published : (∃ first comp, pubs = c.published ++ comp ∧ CompleteOnly c.txn first comp) ∨
      ∃ errs, pubs = c.published ++ errs ∧ ErrorOnly errs) : pubs.filter Publication.isChild = c.published := by
  have own : c.published.filter Publication.isChild = c.published := by rw [gen.published, childPubs_filter]
  rcases published with ⟨first, comp, rfl, p, rest, rfl, hp, -, hrest⟩ | ⟨errs, rfl, only⟩
  · have others : (p :: rest).filter Publication.isChild = [] := by
      rw [List.filter_eq_nil_iff]
      intro q hq
      rcases List.mem_cons.1 hq with rfl | hq
      · simp [Publication.isChild, hp]
      · obtain ⟨t, ht⟩ := hrest q hq
        simp [Publication.isChild, ht]
    rw [List.filter_append, own, others, List.append_nil]
  · have others : errs.filter Publication.isChild = [] := by
      rw [List.filter_eq_nil_iff]
      intro q hq
      rcases only q hq with ⟨c, hd⟩ | ⟨t, hd⟩ <;> simp [Publication.isChild, hd]
    rw [List.filter_append, own, others, List.append_nil]

theorem secondarySteps_notUpdate {steps : List Step} {s : Step} (h : s ∈ secondarySteps steps) : s.command ≠ updateAsync := by
  obtain ⟨step, -, write, r, -, rfl⟩ := mem_secondarySteps h
  simp only [Step.isStorageWrite, Bool.and_eq_true, Bool.or_eq_true, decide_eq_true_eq] at write
  show step.command ≠ updateAsync
  rcases write.2 with (hc | hc) | hc <;> (rw [hc]; decide)

/-- The updates of one instance among all of them. -/
theorem updateSteps_filter {steps : List Step} (updates : ∀ s ∈ steps, s.command = updateAsync) (concern key : String) :
    (updateSteps steps).filter (fun s => s.command = updateAsync && s.isOf concern key) =
      updateSteps (steps.filter (Step.isOf concern key)) := by
  induction steps with
  | nil => rfl
  | cons s steps ih =>
    have tail := ih fun s' hs' => updates s' (List.mem_cons_of_mem _ hs')
    have isUpdate := updates s List.mem_cons_self
    have pair : updateSteps (s :: steps) = [s, { s with system := .storageScnd }] ++ updateSteps steps := rfl
    have same : (decide (s.command = updateAsync) && s.isOf concern key) = s.isOf concern key := by simp [isUpdate]
    have here : [s, { s with system := .storageScnd }].filter (fun s => s.command = updateAsync && s.isOf concern key) =
        if s.isOf concern key then [s, { s with system := .storageScnd }] else [] := by
      rw [List.filter_cons, List.filter_cons, List.filter_nil]
      show (if (decide (s.command = updateAsync) && s.isOf concern key) = true then
        s :: (if (decide (s.command = updateAsync) && s.isOf concern key) = true then _ else _) else
        if (decide (s.command = updateAsync) && s.isOf concern key) = true then _ else _) = _
      rw [same]
      split <;> rfl
    rw [pair, List.filter_append, tail, here, List.filter_cons]
    split <;> rfl

/-- A list with one element at most is that of any order. -/
theorem perm_toList {α : Type} {l : List α} {o : Option α} (h : l.Perm o.toList) : l = o.toList := by
  cases o with
  | none => exact h.eq_nil
  | some a => exact List.perm_singleton.1 h

/-- The children of a completed transaction are those that it has to have. -/
theorem children_exact {c : Completion} {m : List (String × Step)} (distinct : DistinctChanges pb store txn.forwardSteps)
    (gen : Generated env pb store txn traceParent c m) (children : pubs.filter Publication.isChild = c.published) :
    ExactChildren pb store txn pubs := by
  have steps : childSteps pubs =
      (secondarySteps txn.forwardSteps ++ updateSteps (env.storageOrder (m.map Prod.snd))).map wireStep := by
    rw [childSteps, children, gen.published, childPubs_steps]
  have isUpdate : ∀ s ∈ env.storageOrder (m.map Prod.snd), s.command = updateAsync := by
    intro s hs
    obtain ⟨e, he, rfl⟩ := List.mem_map.1 ((env.storageOrder_perm _).mem_iff.1 hs)
    obtain ⟨s, -, payload, -, rfl⟩ := storageStepsMap_entry gen.map he
    rfl
  constructor
  · intro q hq child
    have mem : q ∈ c.published := by
      rw [← children]
      exact List.mem_filter.2 ⟨hq, child⟩
    rw [gen.published] at mem
    obtain ⟨step, -, i, rfl⟩ := mem_childPubs mem
    exact ⟨rfl, rfl⟩
  · have copies : (secondarySteps txn.forwardSteps).filter (fun s => s.command ≠ updateAsync) =
        secondarySteps txn.forwardSteps := by
      rw [List.filter_eq_self]
      exact fun s hs => by simpa using secondarySteps_notUpdate hs
    have updates : (updateSteps (env.storageOrder (m.map Prod.snd))).filter (fun s => s.command ≠ updateAsync) = [] := by
      rw [List.filter_eq_nil_iff]
      intro s hs
      obtain ⟨s', hs', hmem⟩ := List.mem_flatMap.1 hs
      have command := isUpdate s' hs'
      simp only [List.mem_cons, List.not_mem_nil, or_false] at hmem
      rcases hmem with rfl | rfl <;> simp [command]
    rw [steps, List.filter_map, List.filter_append]
    show ((secondarySteps txn.forwardSteps).filter (fun s => s.command ≠ updateAsync) ++
      (updateSteps (env.storageOrder (m.map Prod.snd))).filter (fun s => s.command ≠ updateAsync)).map wireStep = _
    rw [copies, updates, List.append_nil]
  · intro concern key
    have copies : (secondarySteps txn.forwardSteps).filter (fun s => s.command = updateAsync && s.isOf concern key) = [] := by
      rw [List.filter_eq_nil_iff]
      intro s hs
      simp [secondarySteps_notUpdate hs]
    have one : (env.storageOrder (m.map Prod.snd)).filter (Step.isOf concern key) =
        (changesOf pb store (Step.isOf concern key) txn.forwardSteps).getLast?.toList := by
      apply perm_toList
      rw [← storageStepsMap_isOf distinct gen.map]
      exact (env.storageOrder_perm _).filter _
    rw [steps, List.filter_map, List.filter_append]
    show ((secondarySteps txn.forwardSteps).filter (fun s => s.command = updateAsync && s.isOf concern key) ++
      (updateSteps (env.storageOrder (m.map Prod.snd))).filter (fun s => s.command = updateAsync && s.isOf concern key)).map
        wireStep = _
    rw [copies, List.nil_append, updateSteps_filter isUpdate, one]

/-- What a completion has recorded: the copies, and the first ids of the updates twice. -/
theorem produceStorage_assoc {c : Completion} (forward : txn.direction = .forward)
    (h : produceStorage env pb store ⟨txn, traceParent⟩ = .ok c) :
    ∃ m n, Generated env pb store txn traceParent c m ∧ n = (secondarySteps txn.forwardSteps).length ∧
      AssocIds c.txn = AssocIds txn ++ (List.range' 0 n).map env.traceId ++
        (List.range m.length).flatMap (fun j => [env.traceId (n + 2 * j), env.traceId (n + 2 * j)]) := by
  obtain ⟨m, gen⟩ := produceStorage_ok forward h
  unfold produceStorage at h
  simp only [forward, if_true] at h
  split at h
  · cases h
  rename_i c1 h1
  split at h
  · cases h
  rename_i m' hm
  have same : m' = m := by
    have found := gen.map
    rw [hm] at found
    exact Except.ok.inj found
  subst same
  obtain ⟨n, first, ids⟩ := produceSecondaries_assoc h1
  have count := (produceSecondaries_ok h1).ids
  have number : n = (secondarySteps txn.forwardSteps).length := by
    dsimp only at ids count
    omega
  have second := produceUpdates_assoc h
  have len : (env.storageOrder (m'.map Prod.snd)).length = m'.length := by
    rw [(env.storageOrder_perm _).length_eq, List.length_map]
  refine ⟨m', n, gen, number, ?_⟩
  rw [second, first, ids, len]
  simp

/-- Where the last step has led to a completed transaction. -/
theorem produceNextStep_completed (at' : txn.At done cur [])
    (h : (pubs, none) = produceNextStep env pb store ⟨txn, traceParent⟩ idx cur cmpdOffset) {completed : Publication}
    (mem : completed ∈ pubs) (isComplete : completed.isComplete = true) :
    ∃ c, produceStorage env pb store ⟨txn, traceParent⟩ = .ok c ∧ pubs.filter Publication.isChild = c.published ∧
      completed.txn = wireTxn c.txn := by
  unfold produceNextStep at h
  rw [at'.advanceStepIdx_last] at h
  dsimp only at h
  split at h
  · cases h
  rename_i c hc
  obtain ⟨m, gen⟩ := produceStorage_ok at'.direction hc
  have notChild : completed ∉ c.published := by
    intro hchild
    rw [gen.published] at hchild
    obtain ⟨step, -, i, rfl⟩ := mem_childPubs hchild
    unfold childPub Publication.isComplete at isComplete
    by_cases hs : step.system = .storage <;> simp [hs] at isComplete
  have first : (RtApecsTxn.mk c.txn traceParent).txn.firstForwardStep = some ((done ++ [cur]).head (by simp)) := by
    have hsteps : c.txn.forwardSteps = txn.forwardSteps := by rw [gen.grown]
    rw [← at'.firstForwardStep, ApecsTxn.firstForwardStep, ApecsTxn.firstForwardStep, hsteps]
  rcases produceComplete_cases first with ⟨comp, hcomp, only⟩ | ⟨e, he⟩
  · rw [hcomp] at h
    cases h
    refine ⟨c, hc, completed_children gen (.inl ⟨_, comp, rfl, only⟩), ?_⟩
    obtain ⟨p, rest, rfl, -, sent, responses⟩ := only
    rcases List.mem_cons.1 ((List.mem_append.1 mem).resolve_left notChild) with rfl | hrest
    · exact sent
    · obtain ⟨t, ht⟩ := responses _ hrest
      simp [Publication.isComplete, ht] at isComplete
  · rw [he] at h
    cases h
    rcases produceError_errorOnly completed ((List.mem_append.1 mem).resolve_left notChild) with ⟨c, hd⟩ | ⟨t, hd⟩ <;>
      simp [Publication.isComplete, hd] at isComplete

/-- A completed transaction records its children exactly if it has changed no instance: of an update
it records the first id twice, and the second not at all. -/
theorem completion_exact_iff (ids : Function.Injective env.traceId) (user : txn.assocTxns = []) (at' : txn.At done cur [])
    (h : (pubs, none) = produceNextStep env pb store ⟨txn, traceParent⟩ idx cur cmpdOffset) {completed : Publication}
    (mem : completed ∈ pubs) (isComplete : completed.isComplete = true) :
    ExactChildren pb store txn pubs ∧ RecordsChildren completed pubs ↔
      ∀ s ∈ txn.forwardSteps, s.change pb store = none := by
  obtain ⟨c, hc, children, sent⟩ := produceNextStep_completed at' h mem isComplete
  obtain ⟨m, n, gen, number, assoc⟩ := produceStorage_assoc at'.direction hc
  have recorded : AssocIds completed.txn = (List.range' 0 n).map env.traceId ++
      (List.range m.length).flatMap (fun j => [env.traceId (n + 2 * j), env.traceId (n + 2 * j)]) := by
    have none : AssocIds txn = [] := by rw [AssocIds, user]; rfl
    have same : AssocIds completed.txn = AssocIds c.txn := by rw [sent]; rfl
    rw [same, assoc, none, List.nil_append]
  rw [← storageStepsMap_nil gen.map]
  constructor
  · rintro ⟨-, once, -⟩
    cases hm : m with
    | nil => rfl
    | cons e rest =>
      -- the first update is recorded twice
      rw [recorded, hm, List.length_cons, List.range_succ_eq_map, List.flatMap_cons] at once
      have twice := (List.nodup_append.1 once).2.1
      simp at twice
  · rintro rfl
    have unchanged := (storageStepsMap_nil gen.map).1 rfl
    have distinct : DistinctChanges pb store txn.forwardSteps := fun s hs _ _ changed => absurd (unchanged s hs) changed
    have onlyCopies : AssocIds completed.txn = (List.range' 0 n).map env.traceId := by simp [recorded]
    refine ⟨children_exact distinct gen children, ?_, ?_⟩
    · rw [onlyCopies]
      exact List.Nodup.map ids List.nodup_range'
    · intro id
      have order : env.storageOrder (([] : List (String × Step)).map Prod.snd) = [] :=
        (env.storageOrder_perm _).eq_nil
      have childIds : (c.published.map fun q => q.txn.id) = (List.range' 0 n).map env.traceId := by
        rw [gen.published, order, childPubs_ids, number]
        simp [updateSteps]
      rw [onlyCopies, ← childIds, ← children, List.mem_map]
      constructor
      · rintro ⟨q, hq, hid⟩
        obtain ⟨hmem, child⟩ := List.mem_filter.1 hq
        exact ⟨q, hmem, child, hid⟩
      · rintro ⟨q, hmem, child, hid⟩
        exact ⟨q, List.mem_filter.2 ⟨hmem, child⟩, hid⟩

/-- Concern names have no underscore, so the keys of the map tell instances apart. -/
theorem distinctChanges_of_names {steps : List Step} (names : ∀ s ∈ steps, '_' ∉ s.concern.toList) :
    DistinctChanges pb store steps := by
  intro s hs s' hs' _ _ same
  have chars : s.concern.toList ++ '_' :: s.key.toList = s'.concern.toList ++ '_' :: s'.key.toList := by
    have parts : ∀ s : Step, s.mapKey.toList = s.concern.toList ++ '_' :: s.key.toList := by
      intro s
      simp [Step.mapKey, toString]
    rw [← parts, ← parts, same]
  obtain ⟨concern, key⟩ := cut_inj (names s hs) (names s' hs') chars
  exact ⟨String.toList_inj.1 concern, String.toList_inj.1 key⟩

/-- What is published of a completed transaction are exactly the children that it has to have. -/
theorem completion_children_exact (names : ∀ s ∈ txn.forwardSteps, '_' ∉ s.concern.toList) (at' : txn.At done cur [])
    (h : (pubs, none) = produceNextStep env pb store ⟨txn, traceParent⟩ idx cur cmpdOffset) {completed : Publication}
    (mem : completed ∈ pubs) (isComplete : completed.isComplete = true) : ExactChildren pb store txn pubs := by
  obtain ⟨c, hc, children, -⟩ := produceNextStep_completed at' h mem isComplete
  obtain ⟨m, gen⟩ := produceStorage_ok at'.direction hc
  exact children_exact (distinctChanges_of_names names) gen children

end

/-- A command has changed an instance, and this was the last step. -/
def setPlayer : Step :=
  { system := .process, concern := "Player", command := "Set", key := "k", payload := some [2],
    cmpdOffset := some ⟨1, 0, 3⟩, result := some { code := .ok, inst := some [107, 2] } }

def setTxn : ApecsTxn := { id := "set", uponError := .report, forwardSteps := [setPlayer] }

/-- Trace ids that differ. -/
def countingEnv : Env := { Env.sample with traceId := fun n => String.ofList (List.replicate (n + 1) 'i') }

/-- Nothing is related. -/
def noCodecs : RelatedCodecs := ⟨⟨fun _ => .ok [], fun _ => .error ""⟩, ⟨fun _ => .ok [], fun _ => .error ""⟩⟩

def setCompleted : List Publication × Option Fault :=
  produceNextStep countingEnv noCodecs InstanceStore.new ⟨setTxn, sampleTraceParent⟩ 0 setPlayer ⟨1, 0, 3⟩

/-- Two transactions are generated, and the first is recorded twice. -/
theorem second_update_unrecorded :
    setCompleted.2 = none ∧
      setCompleted.1.map (fun q => (q.isChild, q.isComplete, q.txn.id, AssocIds q.txn)) =
        [(true, false, "i", ["set"]), (true, false, "ii", ["set"]), (false, true, "set", ["i", "i"])] ∧
      ∀ completed ∈ setCompleted.1, completed.isComplete = true → ¬RecordsChildren completed setCompleted.1 := by
  refine ⟨by decide +kernel, by decide +kernel, fun completed mem isComplete h => ?_⟩
  have twice : ∀ q ∈ setCompleted.1, q.isComplete = true → ¬(AssocIds q.txn).Nodup := by decide +kernel
  exact twice completed mem isComplete h.once

theorem completion_exact_iff_set :
    ∃ completed ∈ setCompleted.1, completed.isComplete = true ∧
      (ExactChildren noCodecs InstanceStore.new setTxn setCompleted.1 ∧
          RecordsChildren completed setCompleted.1 ↔
        ∀ s ∈ setTxn.forwardSteps, s.change noCodecs InstanceStore.new = none) := by
  have ids : Function.Injective countingEnv.traceId := by
    intro n n' same
    simpa [countingEnv] using congrArg (fun s => s.toList.length) same
  have at' : setTxn.At [] setPlayer [] := ⟨rfl, rfl, rfl⟩
  have completes : (setCompleted.1, none) = setCompleted := rfl
  have found : ∃ completed ∈ setCompleted.1, completed.isComplete = true := by decide +kernel
  obtain ⟨completed, mem, isComplete⟩ := found
  exact ⟨completed, mem, isComplete, completion_exact_iff ids rfl at' completes mem isComplete⟩

end Rocketcycle
