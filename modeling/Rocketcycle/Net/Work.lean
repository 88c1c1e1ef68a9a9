import Rocketcycle.Lib.Descent
import Rocketcycle.Net.CachedInstance

/-!
# The work ahead of a transaction

A transaction grows while it runs: a cache miss puts a read in front of its step, a storage step or
a changed instance puts further steps behind. What is added ranks below the step that it is added
for, so the ranks of the steps ahead go down as a multiset. The one way back up is that an instance
leaves the cache, and that takes a step which is not added again.
-/

namespace Rocketcycle

open Command Descent

/-- The rank of a step. One that looks its instance up may be put off for a read, once. -/
def Step.rank (cached : Bool) (s : Step) : ℕ :=
  match s.system with
  | .process =>
    if s.isInstanceStoreStep then 1
    else if s.command = read ∨ s.command = refreshRelated then (if cached then 3 else 4)
    else if cached then 5 else 6
  | .storage => if s.command = create then 7 else 2
  | _ => 1

/-- The step brings the instance of the next one into the cache, or leads to one that does. -/
def Step.fetchesFor (s next : Step) : Bool :=
  next.looksUp && next.concern = s.concern && next.key = s.key &&
    (s.system = .storage && s.command = read ||
      s.system = .process && s.command = refreshInstance && (wireBytes s.payload).isSome)

/-- The ranks of the steps ahead, where the instance of the first one is cached or not. -/
def workAhead : Bool → List Step → Multiset ℕ
  | _, [] => 0
  | cached, s :: rest => s.rank cached ::ₘ workAhead (rest.head?.any s.fetchesFor) rest

/-- The step takes an instance out of the cache, or leads to one that does. -/
def Step.takesAway (s : Step) : Bool :=
  match s.system with
  | .process => s.command = delete || s.command = flushInstance || s.command = refreshInstance && (wireBytes s.payload).isNone
  | .storage => s.command = delete
  | _ => false

section
variable {s t : Step} {b b' : Bool} {rest adds ahead l : List Step}

theorem rank_pos : 0 < s.rank b := by
  unfold Step.rank
  repeat' split
  all_goals omega

theorem rank_mono : s.rank true ≤ s.rank false := by
  unfold Step.rank
  split
  · simp only [if_true, Bool.false_eq_true, if_false]
    split
    · exact le_rfl
    · split <;> omega
  · exact le_rfl
  · exact le_rfl

theorem rank_lt (differs : s.rank b ≠ s.rank b') (le : b' = true → b = true) : s.rank b < s.rank b' := by
  cases b <;> cases b'
  · exact absurd rfl differs
  · cases le rfl
  · exact lt_of_le_of_ne rank_mono differs
  · exact absurd rfl differs

theorem workAhead_le (le : b' = true → b = true) : AtMost (workAhead b l) (workAhead b' l) := by
  cases l with
  | nil => exact .refl _
  | cons s rest =>
    unfold workAhead
    by_cases same : s.rank b = s.rank b'
    · rw [same]
      exact .refl _
    · exact .inr (lowered (rank_lt same le) (.refl _))

/-! The wire leaves the work as it is, and so does what a step takes over from the one before it. -/

theorem fetchesFor_wire : (wireStep s).fetchesFor (wireStep t) = s.fetchesFor t := by
  unfold Step.fetchesFor
  rw [wireStep_payload, wireBytes_wireBytes]
  rfl

theorem takesAway_wire : (wireStep s).takesAway = s.takesAway := by
  unfold Step.takesAway
  rw [wireStep_payload, wireBytes_wireBytes]
  rfl

theorem workAhead_wire : workAhead b (l.map wireStep) = workAhead b l := by
  induction l generalizing b with
  | nil => rfl
  | cons s rest ih =>
    have fetches : ((rest.map wireStep).head?.any (wireStep s).fetchesFor) = rest.head?.any s.fetchesFor := by
      cases rest with
      | nil => rfl
      | cons t rest => exact fetchesFor_wire
    rw [List.map_cons, workAhead, workAhead, fetches, ih]
    rfl

theorem takesAway_wires : (l.map wireStep).countP Step.takesAway = l.countP Step.takesAway := by
  rw [List.countP_map]
  congr 1
  funext s
  exact takesAway_wire

/-- A step of the instance store takes over no payload. -/
theorem nextStepOf_refresh {o : CompoundOffset} (h : t.command = refreshInstance) : (nextStepOf s t o).payload = t.payload := by
  rcases nextStepOf_payload s t o with kept | ⟨-, free, -⟩
  · exact kept
  · rw [h] at free
    exact absurd free (by decide)

theorem workAhead_next {o : CompoundOffset} : workAhead b (nextStepOf s t o :: rest) = workAhead b (t :: rest) := by
  have rank : (nextStepOf s t o).rank b = t.rank b := by
    simp [Step.rank, Step.isInstanceStoreStep]
  have fetches : (nextStepOf s t o).fetchesFor = t.fetchesFor := by
    funext next
    by_cases h : t.command = refreshInstance
    · simp [Step.fetchesFor, nextStepOf_refresh h]
    · simp [Step.fetchesFor, h]
  rw [workAhead, workAhead, rank, fetches]

theorem takesAway_next {o : CompoundOffset} : (nextStepOf s t o).takesAway = t.takesAway := by
  by_cases h : t.command = refreshInstance
  · simp [Step.takesAway, nextStepOf_refresh h]
  · simp [Step.takesAway, h]

/-! ## Added steps -/

theorem workAhead_append : AtMost (workAhead b (adds ++ ahead)) (↑(adds.map (Step.rank false)) + workAhead false ahead) := by
  induction adds generalizing b with
  | nil => simpa using workAhead_le (by simp)
  | cons s adds ih =>
    rw [List.cons_append, workAhead, List.map_cons, ← Multiset.cons_coe, Multiset.cons_add]
    by_cases same : s.rank b = s.rank false
    · rw [same]
      exact ih.cons _
    · exact .inr (lowered (rank_lt same (by simp)) ih)

/-- A step that fetches nothing for the next one is done, and all that it adds ranks below it. -/
theorem workAhead_done (below : ∀ a ∈ adds, a.rank false < s.rank b) (nothing : ∀ t, s.fetchesFor t = false) :
    (workAhead b' (adds ++ ahead)).IsDershowitzMannaLT (workAhead b (s :: ahead)) := by
  have none : ahead.head?.any s.fetchesFor = false := by
    cases ahead with
    | nil => rfl
    | cons t rest => exact nothing t
  rw [workAhead, none]
  refine workAhead_append.lt_trans (replaced ?_ (.refl _))
  intro n hn
  obtain ⟨a, ha, rfl⟩ := List.mem_map.1 (Multiset.mem_coe.1 hn)
  exact below a ha

end

/-! ## What a command adds -/

section
variable {s : Step} {b : Bool}

theorem rank_instanceStore (system : s.system = .process) (command : s.command = refreshInstance ∨ s.command = flushInstance) :
    s.rank b = 1 := by
  rcases command with h | h <;> simp [Step.rank, Step.isInstanceStoreStep, system, h]

theorem rank_related (system : s.system = .process) (command : s.command = read ∨ s.command = refreshRelated) :
    s.rank false = 4 := by
  rcases command with h | h <;>
    simp [Step.rank, Step.isInstanceStoreStep, system, h, Command.read, refreshRelated, refreshInstance, flushInstance]

theorem rank_request (system : s.system = .process) (command : s.command = requestRelated) : s.rank false = 6 := by
  simp [Step.rank, Step.isInstanceStoreStep, system, command, Command.read, refreshRelated, refreshInstance, flushInstance,
    requestRelated]

theorem rank_working (system : s.system = .process) (other : s.command ∉ [read, refreshRelated, refreshInstance, flushInstance]) :
    5 ≤ s.rank b := by
  simp only [List.mem_cons, List.not_mem_nil, or_false, not_or] at other
  cases b <;> simp [Step.rank, Step.isInstanceStoreStep, system, other]

theorem rank_storage (system : s.system = .storage) (notCreate : s.command ≠ create) : s.rank b = 2 := by
  simp [Step.rank, system, notCreate]

theorem rank_create (system : s.system = .storage) (isCreate : s.command = create) : s.rank b = 7 := by
  simp [Step.rank, system, isCreate]

theorem refreshStep_rank {M : Type} {cnc : Concern M} {args : StepArgs} {key : String} {payload : Option Bytes} :
    (Crud.refreshStep cnc args key payload).rank b = 1 := rank_instanceStore rfl (.inl rfl)

/-- A packed payload carries an instance. -/
theorem refreshStep_keeps {M : Type} {cnc : Concern M} {args : StepArgs} {key : String} {inst rel : Option Bytes} {payload : Bytes}
    (packed : packPayloads inst rel = some payload) : (Crud.refreshStep cnc args key (some payload)).takesAway = false := by
  have same : wireBytes (some payload) = some payload := wireBytes_eq_some.2 ⟨rfl, packPayloads_ne_nil packed⟩
  have plain : refreshInstance ≠ delete ∧ refreshInstance ≠ flushInstance := by decide
  simp [Step.takesAway, Crud.refreshStep, same, plain]

theorem takesAway_working (system : s.system = .process) (other : s.command ∉ [delete, refreshInstance, flushInstance]) :
    s.takesAway = false := by
  simp only [List.mem_cons, List.not_mem_nil, or_false, not_or] at other
  simp [Step.takesAway, system, other]

end

section
variable {M : Type} {cc : ClientCode M} {env : Env} {logic : LogicHandler M} {stgTgt : StorageTarget} {call : Call}
  {plat plat' : Platform M} {rslt : Option StepResult} {adds : List Step} {cur : Step}

/-- Whatever a command adds ranks below its own step. -/
theorem commandEffect_ranks (h : CommandEffect cc env logic stgTgt call plat rslt adds plat') (system : call.system = cur.system)
    (command : call.command = cur.command) (b : Bool) : ∀ s ∈ adds, s.rank false < cur.rank b := by
  cases h with
  | refused _ none | storageScnd _ _ _ _ none => simp [none]
  | process cnc store' _ process effect =>
    rw [system] at process
    have working : ∀ {c}, call.command = c → c ∉ [read, refreshRelated, refreshInstance, flushInstance] → 5 ≤ cur.rank b := by
      intro c cmd other
      exact rank_working process (by rwa [← command, cmd])
    cases effect with
    | update _ cmd | delete _ cmd =>
      intro s hs
      have large := working cmd (by decide)
      have plain : ∀ c ∈ [update, delete], c ≠ create := by decide
      rw [List.mem_singleton.1 hs, rank_storage rfl (plain _ (by simp [toStorage]))]
      omega
    | requestRelated _ _ _ _ _ _ cmd =>
      intro s hs
      have large := working cmd (by decide)
      rw [List.mem_singleton.1 hs, rank_related rfl (.inr rfl)]
      omega
    | changed c _ _ _ _ _ _ _ _ _ mem name _ _ _ _ _ _ _ _ refreshes =>
      intro s hs
      obtain ⟨isProcess, -, -, either⟩ := refreshes s hs
      have free := not_reserved (cnc.commands_free c mem)
      have large := working name.symm (by simp [free])
      rw [rank_related isProcess (either.elim .inr fun isRead => .inl isRead.1)]
      omega
    | _ => simp
  | storage cnc db' _ storage effect =>
    rw [system] at storage
    cases effect with
    | create _ _ _ _ _ _ cmd _ _ _ _ _ requests =>
      intro s hs
      rw [rank_create storage (command ▸ cmd)]
      rcases List.mem_cons.1 hs with rfl | hs
      · rw [refreshStep_rank]
        omega
      · obtain ⟨process, -, -, request⟩ := requestRelatedSteps_all requests s hs
        rw [rank_request process request]
        omega
    | read _ _ _ _ _ _ cmd | update _ _ _ _ _ cmd =>
      intro s hs
      rw [List.mem_singleton.1 hs, refreshStep_rank, rank_storage storage (by rw [← command, cmd]; decide)]
      omega
    | delete cmd =>
      intro s hs
      rw [List.mem_singleton.1 hs, rank_storage storage (by rw [← command, cmd]; decide),
        rank_instanceStore rfl (.inr rfl)]
      omega
    | _ => simp

/-- A step that takes an instance away comes from one that does. -/
theorem commandEffect_takesAway (h : CommandEffect cc env logic stgTgt call plat rslt adds plat') (system : call.system = cur.system)
    (command : call.command = cur.command) : adds.countP Step.takesAway ≤ [cur].countP Step.takesAway := by
  have zero : (∀ s ∈ adds, s.takesAway = false) → adds.countP Step.takesAway ≤ [cur].countP Step.takesAway := by
    intro none
    have : adds.countP Step.takesAway = 0 := by
      rw [List.countP_eq_zero]
      intro s hs
      simp [none s hs]
    omega
  cases h with
  | refused _ none | storageScnd _ _ _ _ none => exact zero (by simp [none])
  | process cnc store' _ process effect =>
    rw [system] at process
    cases effect with
    | update _ cmd =>
      apply zero
      intro s hs
      rw [List.mem_singleton.1 hs]
      rfl
    | delete _ cmd =>
      have away : cur.takesAway = true := by simp [Step.takesAway, process, ← command, cmd]
      rw [List.countP_singleton, List.countP_singleton, if_pos away]
      split <;> omega
    | requestRelated _ _ _ _ _ _ cmd =>
      apply zero
      intro s hs
      have other : refreshRelated ∉ [delete, refreshInstance, flushInstance] := by decide
      rw [List.mem_singleton.1 hs]
      exact takesAway_working rfl other
    | changed c _ _ _ _ _ _ _ _ _ mem name _ _ _ _ _ _ _ _ refreshes =>
      apply zero
      intro s hs
      obtain ⟨isProcess, -, -, either⟩ := refreshes s hs
      apply takesAway_working isProcess
      rcases either with h | ⟨h, -⟩ <;> rw [h] <;> decide
    | _ => exact zero (by simp)
  | storage cnc db' _ storage effect =>
    rw [system] at storage
    cases effect with
    | create _ _ _ _ _ _ cmd _ _ _ _ packed requests =>
      apply zero
      intro s hs
      rcases List.mem_cons.1 hs with rfl | hs
      · exact refreshStep_keeps packed
      · obtain ⟨process, -, -, request⟩ := requestRelatedSteps_all requests s hs
        exact takesAway_working process (by rw [request]; decide)
    | read _ _ _ _ _ _ _ _ _ _ packed | update _ _ _ _ _ _ _ packed =>
      apply zero
      intro s hs
      rw [List.mem_singleton.1 hs]
      exact refreshStep_keeps packed
    | delete cmd =>
      have away : cur.takesAway = true := by simp [Step.takesAway, storage, ← command, cmd]
      rw [List.countP_singleton, List.countP_singleton, if_pos away]
      split <;> omega
    | _ => exact zero (by simp)

end

/-! ## What stays cached -/

namespace InstanceStore

variable {store store' : InstanceStore} {key k : String} {inst related : Option Bytes} {o : CompoundOffset}

theorem cached_set (some' : inst.isSome = true) (cached : (store.getInstance k).isSome = true) :
    ((store.set key inst related o).getInstance k).isSome = true := by
  by_cases here : k = key
  · subst here
    unfold set
    split
    · split
      · exact cached
      · simpa [getInstance, get] using some'
    · simpa [getInstance, get] using some'
  · simpa [getInstance, get, set_ne here] using cached

theorem cached_setInstance {inst : Bytes} (cached : (store.getInstance k).isSome = true) :
    ((store.setInstance key (some inst) o).getInstance k).isSome = true := by
  by_cases here : k = key
  · subst here
    unfold setInstance
    split
    · split
      · exact cached
      · simp [getInstance, get]
    · simp [getInstance, get]
  · simpa [getInstance, get, setInstance_ne here] using cached

theorem cached_setRelated (ok : store.setRelated key related o = .ok store') : store'.getInstance k = store.getInstance k := by
  by_cases here : k = key
  · rw [here, getInstance_setRelated ok]
  · simp [getInstance, get, setRelated_ne ok here]

end InstanceStore

/-- A payload that is there carries an instance, packed or not. -/
theorem parsePayload_carries {payload inst relBytes : Option Bytes} (parsed : parsePayload payload = .ok (inst, relBytes))
    (present : payload.isSome = true) : inst.isSome = true := by
  unfold parsePayload at parsed
  split at parsed
  · unfold unpackPayloads at parsed
    dsimp only at parsed
    repeat' split at parsed
    all_goals cases parsed
    all_goals rfl
  · cases parsed
    exact present

section
variable {M : Type} {env : Env} {pb : RelatedCodecs} {cnc : Concern M} {logic : LogicHandler M} {command : String} {args : StepArgs}
  {store store' : InstanceStore} {rslt : Option StepResult} {adds : List Step}

/-- What is cached stays cached, unless the command takes it away. -/
theorem LogicEffect.keeps (h : LogicEffect env pb cnc logic command args store rslt adds store')
    (noFlush : command ≠ Command.flushInstance) (carries : command = Command.refreshInstance → args.payload.isSome = true)
    {key : String} (cached : (store.getInstance key).isSome = true) : (store'.getInstance key).isSome = true := by
  cases h with
  | quiet | update | delete => exact cached
  | refreshInstance _ inst relBytes cmd parsed => exact InstanceStore.cached_set (parsePayload_carries parsed (carries cmd)) cached
  | flushInstance _ cmd => exact absurd cmd noFlush
  | requestRelated _ _ _ _ _ _ _ stored =>
    rcases stored with rfl | stored
    · exact cached
    · rwa [InstanceStore.cached_setRelated stored]
  | refreshRelated _ _ _ _ _ stored | brokenOff _ _ _ _ stored => rwa [InstanceStore.cached_setRelated stored]
  | changed => exact InstanceStore.cached_setInstance cached

end

end Rocketcycle
