import Rocketcycle.Apecs.Children
import Rocketcycle.Concern.Decode
import Rocketcycle.Net.CachedInstance
import Rocketcycle.Net.Creation
import Rocketcycle.Net.Standing

/-!
# The related data of generated updates

A completed transaction updates storage with the instances that its commands have left, each with the
related data that the consumer of the last step has under its key. The instance itself lives in the
store of the partition that its key is routed to.
-/

namespace Rocketcycle

open Command Runs

variable {M : Type}

/-! ## What an update carries -/

/-- The step calls for an update of its instance. -/
def Step.changesInstance (s : Step) : Bool := s.system = .process && s.result.any (isInstanceChange s)

/-- The last step to change its instance is a command, which has left it as `inst`. -/
structure LastCommand (steps : List Step) (s : Step) (inst : Bytes) : Prop where
  process : s.system = .process
  left : ∃ r, s.result = some r ∧ r.inst = some inst
  last : ∃ before after, steps = before ++ s :: after ∧
    ∀ s' ∈ after, s'.isOf s.concern s.key = true → s'.changesInstance = false

/-- The updates of an instance among what is published. -/
def updatesOf (pubs : List Publication) (concern key : String) : List Step :=
  (childSteps pubs).filter fun s => s.command = updateAsync && s.isOf concern key

/-- Primary and secondary storage are updated, each with the instance and with this related data. -/
structure CarriesRelated (pubs : List Publication) (s : Step) (inst : Bytes) (related : Option Bytes) : Prop where
  both : (updatesOf pubs s.concern s.key).map Step.system = [.storage, .storageScnd]
  unpacks : ∀ u ∈ updatesOf pubs s.concern s.key, unpackPayloads u.payload = .ok (some inst, wireBytes related)

section
variable {pb : RelatedCodecs} {store : InstanceStore} {steps : List Step} {s : Step} {inst payload : Bytes}
  {pubs : List Publication} {txn : ApecsTxn} {m m' : List (String × Step)}

theorem Step.change_of_unchanged (h : s.changesInstance = false) : s.change pb store = none := by
  unfold Step.change
  split
  · rename_i process
    cases hr : s.result with
    | none => rfl
    | some r =>
      have unchanged : isInstanceChange s r = false := by simpa [Step.changesInstance, process, hr] using h
      rw [Option.bind_some, unchanged]
      rfl
  · rfl

theorem LastCommand.change (h : LastCommand steps s inst) :
    s.change pb store = packPayloads (some inst) (store.getRelated s.key) := by
  obtain ⟨r, hr, hi⟩ := h.left
  have changed : isInstanceChange s r = true := by simp [isInstanceChange, hi]
  rw [Step.change, if_pos h.process, hr, Option.bind_some, if_pos changed, stepInst, hi]
  cases packPayloads (some inst) (store.getRelated s.key) <;> rfl

/-- No instance of the map was packed already. -/
theorem storageStepsMap_packs {r : StepResult} (h : storageStepsMap pb store steps m = .ok m') (mem : s ∈ steps)
    (process : s.system = .process) (result : s.result = some r) (changed : isInstanceChange s r = true) :
    (stepInst pb store s r).isSome = true := by
  induction steps generalizing m with
  | nil => cases mem
  | cons s' rest ih =>
    rcases List.mem_cons.1 mem with rfl | mem
    · unfold storageStepsMap at h
      rw [if_pos process, result] at h
      dsimp only at h
      rw [if_pos changed] at h
      split at h
      · cases h
      · rename_i hinst
        rw [hinst]
        rfl
      · rename_i hinst
        rw [hinst]
        rfl
    · exact ih (storageStepsMap_cons h) mem

theorem LastCommand.packs (h : LastCommand steps s inst) (map : storageStepsMap pb store steps [] = .ok m) :
    ∃ payload, packPayloads (some inst) (store.getRelated s.key) = some payload := by
  obtain ⟨r, hr, hi⟩ := h.left
  obtain ⟨before, after, split, -⟩ := h.last
  have packs := storageStepsMap_packs map (split ▸ List.mem_append_right _ List.mem_cons_self) h.process hr
    (by simp [isInstanceChange, hi])
  rw [stepInst, hi] at packs
  exact Option.isSome_iff_exists.1 (by simpa using packs)

theorem LastCommand.update (h : LastCommand steps s inst)
    (packed : packPayloads (some inst) (store.getRelated s.key) = some payload) :
    (changesOf pb store (Step.isOf s.concern s.key) steps).getLast? = some (updateAsyncStep s payload) := by
  obtain ⟨before, after, split, unchanged⟩ := h.last
  have behind : changesOf pb store (Step.isOf s.concern s.key) after = [] := by
    unfold changesOf
    rw [List.filterMap_eq_nil_iff]
    intro s' hs'
    obtain ⟨mem, isOf⟩ := List.mem_filter.1 hs'
    rw [Step.change_of_unchanged (unchanged s' mem isOf)]
    rfl
  have here : changesOf pb store (Step.isOf s.concern s.key) (s :: after) =
      [updateAsyncStep s payload] ++ changesOf pb store (Step.isOf s.concern s.key) after := by
    have own : s.isOf s.concern s.key = true := by simp [Step.isOf]
    unfold changesOf
    rw [List.filter_cons_of_pos own, List.filterMap_cons, h.change, packed]
    rfl
  have all : changesOf pb store (Step.isOf s.concern s.key) steps =
      changesOf pb store (Step.isOf s.concern s.key) before ++ [updateAsyncStep s payload] := by
    rw [behind, List.append_nil] at here
    rw [split, ← here]
    unfold changesOf
    rw [List.filter_append, List.filterMap_append]
  rw [all, List.getLast?_concat]

theorem ExactChildren.updatesOf (exact : ExactChildren pb store txn pubs) (last : LastCommand txn.forwardSteps s inst)
    (packed : packPayloads (some inst) (store.getRelated s.key) = some payload) :
    updatesOf pubs s.concern s.key =
      [wireStep (updateAsyncStep s payload), wireStep { updateAsyncStep s payload with system := .storageScnd }] := by
  rw [Rocketcycle.updatesOf, exact.updates, last.update packed]
  rfl

/-- An update carries the related data that the store has where it is packed, and an instance that is not empty. -/
theorem ExactChildren.carries_iff (exact : ExactChildren pb store txn pubs) (last : LastCommand txn.forwardSteps s inst)
    (packed : packPayloads (some inst) (store.getRelated s.key) = some payload) (size : payload.length < 2 ^ 32)
    (related : Option Bytes) :
    CarriesRelated pubs s inst related ↔ inst ≠ [] ∧ wireBytes (store.getRelated s.key) = wireBytes related := by
  have updates := exact.updatesOf last packed
  have wired : ∀ u ∈ Rocketcycle.updatesOf pubs s.concern s.key, u.payload = some payload := by
    intro u hu
    rw [updates, List.mem_cons, List.mem_singleton] at hu
    rcases hu with rfl | rfl <;> exact wireBytes_eq_some.2 ⟨rfl, packPayloads_ne_nil packed⟩
  have some : wireStep (updateAsyncStep s payload) ∈ Rocketcycle.updatesOf pubs s.concern s.key := by
    rw [updates]
    exact List.mem_cons_self
  by_cases empty : inst = []
  · subst empty
    refine ⟨fun carries => ?_, fun h => absurd rfl h.1⟩
    obtain ⟨e, he⟩ := unpackPayloads_empty packed
    have unpacks := carries.unpacks _ some
    rw [wired _ some, he] at unpacks
    cases unpacks
  · have unpacked := unpackPayloads_packPayloads packed empty size
    constructor
    · intro carries
      have unpacks := carries.unpacks _ some
      rw [wired _ some, unpacked] at unpacks
      exact ⟨empty, (Prod.mk.inj (Except.ok.inj unpacks)).2⟩
    · rintro ⟨-, same⟩
      constructor
      · rw [updates]
        rfl
      · intro u hu
        rw [wired u hu, unpacked, same]

end

/-! ## Runs -/

/-- What has run belongs to concerns of the platform. -/
def NamedBehind (_id : String) (done : List Step) (_cur : Step) (_ahead : List Step) : Prop :=
  ∀ s ∈ done, isValidName s.concern = true

/-- The message completes its transaction, whose steps these are with their results. -/
structure Deployment.CompletesSteps (d : Deployment M) (net : Net M) (tp : TopicPartition) (env : Env) (logic : LogicHandler M)
    (net' : Net M) (p : Publication) (steps : List Step) : Prop where
  taken : ∃ rest, net.take tp = some (p, rest)
  last : ∃ done cur call r, p.txn.At done cur [] ∧ (d.outcome net tp env logic p).call = some (call, some r) ∧
    steps = done ++ [d.doneStep net tp cur r]
  completed : ∃ q, net'.completed = net.completed ++ [q]

/-- The related data of an instance, as its owner has it. -/
def Deployment.ownedRelated (d : Deployment M) (net : Net M) (concern key : String) : Option Bytes :=
  (net.stores (d.ownerOf concern key)).getRelated key

/-- A consumer has under the key the related data that the owner has. -/
def Deployment.RelatedAtHand (d : Deployment M) (net : Net M) (tp : TopicPartition) (concern key : String) : Prop :=
  wireBytes ((net.stores tp).getRelated key) = wireBytes (d.ownedRelated net concern key)

section
variable {d : Deployment M} {net₀ net₁ net net' : Net M} {tp : TopicPartition} {env : Env} {logic : LogicHandler M}
  {p : Publication} {done ahead steps : List Step} {cur s : Step} {next : TopicPartition → Nat} {inst : Bytes}
  {before after : List (TopicPartition × Publication)} {tr : List (Net M × Action M)}

variable (d) in
theorem named_maintained : Maintained d (fun _ => True) NamedBehind where
  submitted _ _ := by simp [NamedBehind]
  arrives := by
    intro net tp env logic p done cur ahead m done' cur' ahead' _ sent h arrival
    cases arrival with
    | read q looksUp key missing state =>
      intro s hs
      obtain ⟨s', hs', rfl⟩ := List.mem_map.1 hs
      exact h s' hs'
    | next q call r adds nextStep tail handled resultOk follows =>
      intro s hs
      obtain ⟨s', hs', rfl⟩ := List.mem_map.1 hs
      rcases List.mem_append.1 hs' with hs' | hs'
      · exact h s' hs'
      · rw [List.mem_singleton.1 hs', wireStep_concern, doneStep_concern]
        exact handled_name handled resultOk
    | child => simp [NamedBehind]

/-- A step that is published for storage has arrived, and so is no longer than a message. -/
theorem Delivered.childStep_small {pubs : List Publication} (delivered : Delivered d net pubs net') {u : Step}
    (hu : u ∈ childSteps pubs) : (u.payload.getD []).length < maxMessageBytes := by
  obtain ⟨q, hq, mem⟩ := List.mem_flatMap.1 hu
  obtain ⟨hq, child⟩ := List.mem_filter.1 hq
  have arrives : ∃ m, d.arrival q = some m := by
    unfold Publication.isChild at child
    unfold Deployment.arrival
    split at child
    · rename_i hdest
      rw [hdest]
      exact ⟨_, rfl⟩
    · rename_i hdest
      rw [hdest]
      exact ⟨_, rfl⟩
    · cases child
  obtain ⟨m, hm⟩ := arrives
  have fits : u.fits = true := List.all_eq_true.1 (delivered.arrived q hq m hm).1 u mem
  simp only [Step.fits, Bool.and_eq_true, decide_eq_true_eq] at fits
  exact fits.1.1.1

/-- What a message that completes its transaction carries to storage. -/
theorem Taken.carries_iff {q : Publication} (h : Taken d next net tp env logic net' p before after done cur ahead)
    (named : NamedBehind p.txn.id done cur ahead) (completed : net'.completed = net.completed ++ [q]) {call : Call}
    {r : StepResult} (called : (d.outcome net tp env logic p).call = some (call, some r))
    (last : LastCommand (done ++ [d.doneStep net tp cur r]) s inst) (related : Option Bytes) :
    CarriesRelated (d.outcome net tp env logic p).published s inst related ↔
      inst ≠ [] ∧ wireBytes ((net'.stores tp).getRelated s.key) = wireBytes related := by
  obtain ⟨call', r', c, m, first, comp, handled, isOk, noBailout, -, generated, published, only⟩ := h.completion completed
  rw [handled.recorded, Option.some.injEq, Prod.mk.injEq, Option.some.injEq] at called
  obtain ⟨-, rfl⟩ := called
  have names : ∀ s ∈ done ++ [d.doneStep net tp cur r'], '_' ∉ s.concern.toList := by
    intro s hs
    apply underscore_not_mem
    rcases List.mem_append.1 hs with hs | hs
    · exact named s hs
    · rw [List.mem_singleton.1 hs, doneStep_concern]
      exact handled_name handled isOk
  have children := completed_children generated (.inl ⟨first, comp, published, only⟩)
  have exact := children_exact (distinctChanges_of_names names) generated children
  obtain ⟨payload, packed⟩ := last.packs generated.map
  have mem : wireStep (updateAsyncStep s payload) ∈ childSteps (d.outcome net tp env logic p).published := by
    apply List.mem_of_mem_filter (p := fun u => u.command = updateAsync && u.isOf s.concern s.key)
    show _ ∈ updatesOf _ _ _
    rw [exact.updatesOf last packed]
    exact List.mem_cons_self
  have size : payload.length < 2 ^ 32 := by
    have small : (((wireStep (updateAsyncStep s payload)).payload).getD []).length < maxMessageBytes := by
      rcases h.delivered with ⟨-, delivered⟩ | ⟨-, delivered⟩ <;> exact delivered.childStep_small mem
    have same : (wireStep (updateAsyncStep s payload)).payload = some payload :=
      wireBytes_eq_some.2 ⟨rfl, packPayloads_ne_nil packed⟩
    rw [same, Option.getD_some, maxMessageBytes] at small
    omega
  have store : net'.stores tp = (d.outcome net tp env logic p).state.instanceStore := by
    rcases h.delivered with ⟨bails, -⟩ | ⟨-, delivered⟩
    · exact absurd noBailout (bailsOut_notOk bails)
    · rw [delivered.stores]
      simp [Net.after, Net.setStore]
  rw [store]
  exact exact.carries_iff last packed size related

/-- Where a key lives elsewhere, a consumer of its concern has no related data under it. -/
theorem Deployment.AtHome.elsewhere (home : d.AtHome net) {concern key : String} (same : tp.concern = concern)
    (other : tp ≠ d.ownerOf concern key) : (net.stores tp).getRelated key = none := by
  apply InstanceStore.getRelated_none
  cases found : net.stores tp key with
  | none => rfl
  | some rec => exact absurd (same ▸ home tp key rec found) other

/-- In every run: the storage updates of an instance that a command has changed carry the related data that its owner has
exactly if the consumer of the last step has it too, as the owner itself does, and another one of the same concern only of
an instance without related data. -/
theorem update_carries_related_iff (idle : net₀.inFlight = []) (home : d.AtHome net₀) (run : Path d.step net₀ tr net₁)
    (mem : (net, .consume tp env logic) ∈ tr) (hstep : d.step net (.consume tp env logic) = some net')
    (completes : d.CompletesSteps net tp env logic net' p steps) (last : LastCommand steps s inst) :
    (CarriesRelated (d.outcome net tp env logic p).published s inst (d.ownedRelated net' s.concern s.key) ↔
        inst ≠ [] ∧ d.RelatedAtHand net' tp s.concern s.key) ∧
      (tp = d.ownerOf s.concern s.key → d.RelatedAtHand net' tp s.concern s.key) ∧
      (tp ≠ d.ownerOf s.concern s.key → tp.concern = s.concern →
        (d.RelatedAtHand net' tp s.concern s.key ↔ wireBytes (d.ownedRelated net' s.concern s.key) = none)) := by
  obtain ⟨front, back, rfl⟩ := List.append_of_mem mem
  obtain ⟨first, -⟩ := run.split
  have standing : Standing d NamedBehind net := (standing_idle idle).run (named_maintained d) first fun _ _ => trivial
  obtain ⟨p', before, behind, done, cur, ahead, consumed⟩ := consume_fate standing.sound hstep
  obtain ⟨rest, taken⟩ := completes.taken
  rw [consumed.taken, Option.some.injEq, Prod.mk.injEq] at taken
  obtain ⟨rfl, -⟩ := taken
  have named : NamedBehind p'.txn.id done cur ahead := standing.at (by rw [consumed.split]; simp) consumed.sent
  obtain ⟨done', cur', call, r, at', called, rfl⟩ := completes.last
  obtain ⟨q, completed⟩ := completes.completed
  obtain ⟨rfl, rfl, -⟩ := consumed.sent.logged.stands.unique at'
  refine ⟨consumed.carries_iff named completed called last _, ?_, ?_⟩
  · rintro rfl
    rfl
  · intro other same
    have homeAfter : d.AtHome net' := ((home.run (standing_idle (I := NamedBehind) idle).sound first).step standing.sound hstep)
    unfold Deployment.RelatedAtHand
    rw [homeAfter.elsewhere same other, wireBytes_none, eq_comm]

end

/-! ## A transaction over two partitions -/

/-- Partition 0 has cached `k`, with related data, and partition 1 has cached `l`. -/
def cachedApart : Net Bytes :=
  { (Net.new : Net Bytes) with
    next := fun tp => if tp.system = .process then 1 else 0,
    stores := fun tp key =>
      if tp = ⟨"Player", .process, 0⟩ ∧ key = "k" then some ⟨some [107, 1], some [9], ⟨1, 0, 0⟩⟩
      else if tp = ⟨"Player", .process, 1⟩ ∧ key = "l" then some ⟨some [108, 1], none, ⟨1, 1, 0⟩⟩
      else none }

theorem cachedApart_atHome : twoPartitions.AtHome cachedApart := by
  intro tp key rec found
  unfold cachedApart at found
  dsimp only at found
  split at found
  · rename_i here
    rw [here.1, here.2]
    decide +kernel
  split at found
  · rename_i here
    rw [here.1, here.2]
    decide +kernel
  · cases found

/-- A command on `k`, and then a read of `l`. -/
def setThenRead : List (Action Bytes) :=
  [sampleSubmit [1] [sampleStep "Player" "Set" "k" [2], sampleStep "Player" read "l" []],
   sampleConsume "Player" .process 0]

/-- The command, once it has run. -/
def setKnown : Step :=
  { system := .process, concern := "Player", command := "Set", key := "k", payload := some [2], effectiveTime := some 0,
    cmpdOffset := some ⟨1, 0, 1⟩, inst := some [107, 1],
    result := some { code := .ok, payload := some [2], inst := some [107, 2] } }

def readOther : Step := { system := .process, concern := "Player", command := read, key := "l", effectiveTime := some 0 }

/-- The message that completes the transaction. -/
def readNextKey : Publication where
  dest := .topic "Player" .process
  hashKey := stringBytes "l"
  traceParent := sampleTraceParent
  txn :=
    { id := traceIdFromTraceParent sampleTraceParent, currentStepIdx := 1, uponError := .revert,
      forwardSteps := [setKnown, readOther] }

/-- What the read answers: the other instance, which has no related data. -/
def otherInstance : StepResult := { code := .ok, payload := some [114, 107, 99, 121, 10, 0, 0, 0, 108, 1] }

def lastOutcome (net : Net Bytes) : Outcome (Platform Bytes) :=
  twoPartitions.outcome net ⟨"Player", .process, 1⟩ Env.sample sampleLogic readNextKey

/-- The message is read next, completes, and leaves these updates. -/
def completesApart (net : Net Bytes) : Bool :=
  decide (net.take ⟨"Player", .process, 1⟩ = some (readNextKey, []) ∧ net.completed = [] ∧
    twoPartitions.ownedRelated net "Player" "k" = some [9] ∧
    (lastOutcome net).call.map Prod.snd = some (some otherInstance) ∧
    (updatesOf (lastOutcome net).published "Player" "k").map (fun u => (u.system, u.payload)) =
      [(.storage, some [114, 107, 99, 121, 10, 0, 0, 0, 107, 2]), (.storageScnd, some [114, 107, 99, 121, 10, 0, 0, 0, 107, 2])]) &&
    (twoPartitions.step net (sampleConsume "Player" .process 1)).any fun net' =>
      net'.completed.length = 1 && twoPartitions.ownedRelated net' "Player" "k" = some [9]

/-- The run of it, up to the message that completes it. -/
structure RunApart (net net' : Net Bytes) (steps : List Step) : Prop where
  run : Path twoPartitions.step cachedApart (trace twoPartitions.step cachedApart setThenRead) net
  step : twoPartitions.step net (sampleConsume "Player" .process 1) = some net'
  completes : twoPartitions.CompletesSteps net ⟨"Player", .process, 1⟩ Env.sample sampleLogic net' readNextKey steps
  last : LastCommand steps setKnown [107, 2]
  updates : (updatesOf (lastOutcome net).published "Player" "k").map (fun u => (u.system, u.payload)) =
    [(.storage, some [114, 107, 99, 121, 10, 0, 0, 0, 107, 2]), (.storageScnd, some [114, 107, 99, 121, 10, 0, 0, 0, 107, 2])]
  owned : twoPartitions.ownedRelated net "Player" "k" = some [9] ∧ twoPartitions.ownedRelated net' "Player" "k" = some [9]

theorem setThenRead_run : ∃ net net' steps, RunApart net net' steps := by
  have ran : (runs twoPartitions.step cachedApart setThenRead).any completesApart = true := by decide +kernel
  obtain ⟨run, checked⟩ := path_of_any ran
  generalize Runs.after twoPartitions.step cachedApart setThenRead = net at run checked
  unfold completesApart at checked
  simp only [Bool.and_eq_true, decide_eq_true_eq, Option.any_eq_true] at checked
  obtain ⟨⟨taken, fresh, before, answered, updates⟩, net', step, one, after⟩ := checked
  obtain ⟨⟨call, rslt⟩, called, rfl⟩ := Option.map_eq_some_iff.1 answered
  obtain ⟨q, hq⟩ := List.length_eq_one_iff.1 one
  refine ⟨net, net', [setKnown, twoPartitions.doneStep net ⟨"Player", .process, 1⟩ readOther otherInstance], run, step,
    ⟨⟨[], taken⟩, ?_, q, by rw [hq, fresh, List.nil_append]⟩, ?_, updates, before, after⟩
  · exact ⟨[setKnown], readOther, call, otherInstance, ⟨rfl, rfl, rfl⟩, called, rfl⟩
  · refine ⟨rfl, ⟨_, rfl, rfl⟩, [], _, rfl, ?_⟩
    intro s' hs' isOf
    rw [List.mem_singleton.1 hs'] at isOf
    have other : readOther.key = "k" := by simpa [Step.isOf, setKnown] using (Bool.and_eq_true_iff.1 isOf).2
    exact absurd other (by decide)

/-- The command runs where its instance lives, and the transaction completes elsewhere: storage is told that `k` has no related
data, which its owner has had all along. -/
theorem update_loses_related :
    ∃ tr net net' steps, Path twoPartitions.step cachedApart tr net' ∧ (net, sampleConsume "Player" .process 1) ∈ tr ∧
      twoPartitions.step net (sampleConsume "Player" .process 1) = some net' ∧
      twoPartitions.CompletesSteps net ⟨"Player", .process, 1⟩ Env.sample sampleLogic net' readNextKey steps ∧
      LastCommand steps setKnown [107, 2] ∧ (∀ e ∈ tr, twoPartitions.ownedRelated e.1 "Player" "k" = some [9]) ∧
      CarriesRelated (lastOutcome net).published setKnown [107, 2] none ∧
      ¬CarriesRelated (lastOutcome net).published setKnown [107, 2] (twoPartitions.ownedRelated net' "Player" "k") := by
  obtain ⟨net, net', steps, apart⟩ := setThenRead_run
  have unpacked : unpackPayloads (some [114, 107, 99, 121, 10, 0, 0, 0, 107, 2]) = .ok (some [107, 2], none) := rfl
  have payload : ∀ u ∈ updatesOf (lastOutcome net).published "Player" "k", unpackPayloads u.payload = .ok (some [107, 2], none) := by
    intro u hu
    have pair := List.mem_map_of_mem (f := fun u : Step => (u.system, u.payload)) hu
    rw [apart.updates, List.mem_cons, List.mem_singleton, Prod.mk.injEq, Prod.mk.injEq] at pair
    rcases pair with ⟨-, h⟩ | ⟨-, h⟩ <;> rw [h, unpacked]
  have systems : (updatesOf (lastOutcome net).published "Player" "k").map Step.system = [.storage, .storageScnd] := by
    have firsts := congrArg (List.map Prod.fst) apart.updates
    rwa [List.map_map] at firsts
  have ownedBefore : ∀ e ∈ trace twoPartitions.step cachedApart setThenRead, twoPartitions.ownedRelated e.1 "Player" "k" = some [9] := by
    decide +kernel
  refine ⟨_, net, net', steps, .snoc apart.run apart.step, by simp, apart.step, apart.completes, apart.last, ?_,
    ⟨systems, payload⟩, ?_⟩
  · intro e he
    rcases List.mem_append.1 he with he | he
    · exact ownedBefore e he
    · rw [List.mem_singleton.1 he]
      exact apart.owned.1
  · intro carries
    obtain ⟨u, hu⟩ : ∃ u, u ∈ updatesOf (lastOutcome net).published "Player" "k" := by
      apply List.exists_mem_of_ne_nil
      intro empty
      rw [empty] at systems
      cases systems
    have unpacks := carries.unpacks u hu
    rw [payload u hu, apart.owned.2] at unpacks
    cases unpacks

theorem update_carries_related_iff_apart :
    ∃ net net', CarriesRelated (lastOutcome net).published setKnown [107, 2] (twoPartitions.ownedRelated net' "Player" "k") ↔
      [107, 2] ≠ ([] : Bytes) ∧ twoPartitions.RelatedAtHand net' ⟨"Player", .process, 1⟩ "Player" "k" := by
  obtain ⟨net, net', steps, apart⟩ := setThenRead_run
  exact ⟨net, net', (update_carries_related_iff rfl cachedApart_atHome (.snoc apart.run apart.step)
    (List.mem_append_right _ (List.mem_singleton_self _)) apart.step
    apart.completes apart.last).1⟩

end Rocketcycle
