import Rocketcycle.Net.Restart

/-!
# What is cached of a key

The instances with a key are cached by one consumer, that of the partition which the key is routed
to. What a step of the system does to that cache: nothing, or what a command or a refresh has left.
-/

namespace Rocketcycle

open Command Runs

variable {M : Type}

/-! ## Where a key lives -/

/-- The consumer of the instances with a key. -/
def Deployment.ownerOf (d : Deployment M) (concern key : String) : TopicPartition :=
  d.partitionOf concern .process (stringBytes key)

/-- Nothing is cached but by its owner. -/
def Deployment.AtHome (d : Deployment M) (net : Net M) : Prop :=
  ∀ tp key rec, net.stores tp key = some rec → tp = d.ownerOf tp.concern key

theorem RelatedStored.elsewhere {store store' : InstanceStore} {key k : String} {relBytes : Bytes} {o : CompoundOffset}
    (h : RelatedStored store store' key relBytes o) (ne : k ≠ key) : store' k = store k := by
  rcases h with rfl | stored
  · rfl
  · exact InstanceStore.setRelated_ne stored ne

/-- A process command writes at its key only. -/
theorem LogicEffect.elsewhere {env : Env} {pb : RelatedCodecs} {cnc : Concern M} {logic : LogicHandler M} {command k : String}
    {args : StepArgs} {store store' : InstanceStore} {rslt : Option StepResult} {adds : List Step}
    (h : LogicEffect env pb cnc logic command args store rslt adds store') (ne : k ≠ args.key) : store' k = store k := by
  cases h with
  | quiet | update | delete => rfl
  | refreshInstance => exact InstanceStore.set_ne ne
  | flushInstance => exact InstanceStore.remove_ne ne
  | requestRelated _ _ _ _ _ _ _ stored => exact stored.elsewhere ne
  | refreshRelated _ _ _ _ _ stored => exact InstanceStore.setRelated_ne stored ne
  | brokenOff _ _ _ _ stored => exact InstanceStore.setRelated_ne stored ne
  | changed => exact InstanceStore.setInstance_ne ne

/-- A validation of a creation writes nothing. -/
theorem LogicEffect.validates {env : Env} {pb : RelatedCodecs} {cnc : Concern M} {logic : LogicHandler M} {command : String}
    {args : StepArgs} {store store' : InstanceStore} {rslt : Option StepResult} {adds : List Step}
    (h : LogicEffect env pb cnc logic command args store rslt adds store') (cmd : command = validateCreate) : store' = store := by
  cases h with
  | quiet | update | delete => rfl
  | refreshInstance _ _ _ refresh => exact absurd (cmd.symm.trans refresh) (by decide)
  | flushInstance _ flush => exact absurd (cmd.symm.trans flush) (by decide)
  | requestRelated _ _ _ _ _ _ request => exact absurd (cmd.symm.trans request) (by decide)
  | refreshRelated _ _ _ _ refresh => exact absurd (cmd.symm.trans refresh) (by decide)
  | brokenOff _ _ _ either => rcases either with h | h <;> exact absurd (cmd.symm.trans h) (by decide)
  | changed c _ _ _ _ _ _ _ _ _ mem name =>
    have free := cnc.commands_free c mem
    rw [name, cmd] at free
    exact absurd free (by decide)

section
variable {d : Deployment M} {net net' : Net M} {tp : TopicPartition} {env : Env} {logic : LogicHandler M}
  {p : Publication} {done ahead : List Step} {cur : Step} {next : TopicPartition → Nat}
  {before after : List (TopicPartition × Publication)}

/-- A step that is not keyless is read by the owner of its key. -/
theorem Sent.at_owner (sent : Sent d next (tp, p) done cur ahead) (process : cur.system = .process)
    (keyed : cur.isKeylessStep = false) : tp = d.ownerOf tp.concern cur.key := by
  have hashKey : p.hashKey = stringBytes cur.key := sent.hashKey keyed
  have system : tp.system = .process := sent.system.symm.trans process
  have part : tp.partition = fnv64Hash p.hashKey (d.partitions tp.concern tp.system) := sent.partition
  rw [hashKey, system] at part
  obtain ⟨concern, sys, n⟩ := tp
  subst system
  exact congrArg (TopicPartition.mk concern .process) part

/-- What a consumer has in its store after a command it had before, or it owns it. -/
theorem Handled.atHome {out : Outcome (Platform M)} {call : Call} {rslt : Option StepResult} {adds : List Step}
    (handled : Handled d net tp env logic p cur out call rslt adds) (sent : Sent d next (tp, p) done cur ahead)
    (home : d.AtHome net) {key : String} {rec : InstanceRecord} (found : out.state.instanceStore key = some rec) :
    tp = d.ownerOf tp.concern key := by
  have effect := handled.effect
  generalize out.state = plat' at effect found
  cases effect with
  | refused | storage | storageScnd => exact home tp key rec found
  | process cnc store' concern system effect =>
    have process : cur.system = .process := handled.callFor.system.symm.trans system
    by_cases here : key = call.args.key
    · cases keyless : cur.isKeylessStep with
      | false =>
        rw [here, handled.callFor.key]
        exact sent.at_owner process keyless
      | true =>
        have validates : cur.command = validateCreate := by simpa [Step.isKeylessStep, process] using keyless
        have same := effect.validates (handled.callFor.command.trans validates)
        rw [show store' = net.stores tp from same] at found
        exact home tp key rec found
    · exact home tp key rec ((effect.elsewhere here).symm.trans found)

theorem Taken.atHome (h : Taken d next net tp env logic net' p before after done cur ahead) (home : d.AtHome net) :
    d.AtHome net' := by
  intro t key rec found
  rcases h.stores t with same | ⟨rfl, same | same⟩
  · exact home t key rec (same ▸ found)
  · rw [same] at found
    cases found
  · rw [same] at found
    cases h.fate with
    | rejected state | missed _ _ _ _ state =>
      rw [state] at found
      exact home t key rec found
    | failed call rslt adds handled | next call r adds _ _ handled | completed call r adds _ _ handled =>
      exact handled.atHome h.sent home found

theorem Deployment.AtHome.step (home : d.AtHome net) (sound : Sound d net) {a : Action M} (h : d.step net a = some net') :
    d.AtHome net' := by
  cases a with
  | submit env traceParent txn respTarget =>
    simp only [Deployment.step] at h
    split at h
    · cases h
    · intro tp key rec found
      rw [(deliver_some h).stores] at found
      exact home tp key rec found
  | consume tp env logic =>
    obtain ⟨p, before, after, done, cur, ahead, consumed⟩ := consume_fate sound h
    exact consumed.atHome home

theorem Deployment.AtHome.run (home : d.AtHome net) (sound : Sound d net) {tr : List (Net M × Action M)}
    (run : Path d.step net tr net') : d.AtHome net' := by
  have both : Sound d net' ∧ d.AtHome net' :=
    run.invariant (fun net => Sound d net ∧ d.AtHome net) (fun _ _ => True) ⟨sound, home⟩
      (fun _ _ _ _ kept hs => ⟨kept.1.step hs, kept.2.step kept.1 hs⟩) fun _ _ => trivial
  exact both.2

end

/-! ## What a step does to it -/

/-- The instance that is cached for a key. -/
def Deployment.cached (d : Deployment M) (net : Net M) (concern key : String) : Option Bytes :=
  (net.stores (d.ownerOf concern key)).getInstance key

/-- Every record in the store of a consumer is older than the message that it reads next. -/
def Deployment.StoreOlder (d : Deployment M) (net : Net M) (tp : TopicPartition) : Prop :=
  (net.stores tp).Below fun o => offsetGT (d.offset net tp) o = true

/-- The call is one of a process command on the instance. -/
def Call.isFor (concern key : String) (call : Call) : Bool :=
  call.system = .process && call.concern = concern && call.args.key = key

/-- The instance that a step leaves, if it runs a command that changes it. -/
def Deployment.change (d : Deployment M) (concern key : String) (e : Net M × Action M) : Option Bytes :=
  match d.called e.1 e.2 with
  | some (call, some r) => if call.isFor concern key && r.code = .ok then r.inst else none
  | _ => none

/-- The commands that take nothing away: those of the concern, reads, and what these lead to. -/
def Step.Working (s : Step) : Prop :=
  isReservedCommand s.command = false ∨ s.command ∈ [read, refreshInstance, refreshRelated, updateAsync]

/-- What a step does to the cached instance. -/
inductive CachedStep (d : Deployment M) (concern key : String) (net : Net M) (a : Action M) (net' : Net M) : Prop
  | same (unchanged : d.change concern key (net, a) = none) (same : d.cached net' concern key = d.cached net concern key)
  | changed (inst : Bytes) (change : d.change concern key (net, a) = some inst) (left : d.cached net' concern key = some inst)
      (command : ∀ call rslt, d.called net a = some (call, rslt) → isReservedCommand call.command = false)
  | refreshed (call : Call) (rslt : Option StepResult) (inst relBytes : Option Bytes)
      (called : d.called net a = some (call, rslt)) (isFor : call.isFor concern key = true)
      (command : call.command = refreshInstance) (parsed : parsePayload call.args.payload = .ok (inst, relBytes))
      (unchanged : d.change concern key (net, a) = none) (left : d.cached net' concern key = inst)

namespace InstanceStore

variable {store store' : InstanceStore} {key : String} {inst related : Option Bytes} {o : CompoundOffset}

/-- What is written with a newer offset than all that is there is found afterwards. -/
theorem getInstance_set (newer : store.Below fun o' => offsetGT o o' = true) :
    (store.set key inst related o).getInstance key = inst := by
  rw [set_fresh fun rec found => newer key rec found]
  simp [getInstance, get]

theorem getInstance_setInstance (newer : store.Below fun o' => offsetGT o o' = true) :
    (store.setInstance key inst o).getInstance key = inst := by
  cases found : store key with
  | none => simp [setInstance, found, getInstance, get]
  | some rec =>
    rw [setInstance_fresh found (newer key rec found)]
    simp [getInstance, get]

theorem getInstance_setRelated (ok : store.setRelated key related o = .ok store') :
    store'.getInstance key = store.getInstance key := by
  unfold setRelated at ok
  split at ok
  · rename_i rec found
    split at ok
    · cases ok
      rfl
    · cases ok
      simp [getInstance, get, found]
  · cases ok

end InstanceStore

/-- What a process command leaves of the instance at its key. -/
inductive InstanceLeft (command : String) (args : StepArgs) (store store' : InstanceStore) (rslt : Option StepResult) : Prop
  | same (quiet : ∀ r, rslt = some r → r.inst = none) (same : store'.getInstance args.key = store.getInstance args.key)
  | changed (r : StepResult) (inst : Bytes) (result : rslt = some r) (isOk : r.code = .ok) (changed : r.inst = some inst)
      (left : store'.getInstance args.key = some inst) (free : isReservedCommand command = false)
  | refreshed (inst relBytes : Option Bytes) (cmd : command = refreshInstance)
      (parsed : parsePayload args.payload = .ok (inst, relBytes)) (quiet : ∀ r, rslt = some r → r.inst = none)
      (left : store'.getInstance args.key = inst)

section
variable {env : Env} {pb : RelatedCodecs} {cnc : Concern M} {logic : LogicHandler M} {command : String} {args : StepArgs}
  {store store' : InstanceStore} {rslt : Option StepResult} {adds : List Step}

theorem LogicEffect.instanceLeft (h : LogicEffect env pb cnc logic command args store rslt adds store')
    (newer : store.Below fun o => offsetGT args.cmpdOffset o = true)
    (keeps : command ≠ Command.flushInstance) : InstanceLeft command args store store' rslt := by
  cases h with
  | quiet _ plain => exact .same (fun r hr => (plain r hr).inst) rfl
  | update | delete =>
    refine .same (fun r hr => ?_) rfl
    cases hr
    rfl
  | refreshInstance _ inst relBytes cmd parsed plain =>
    exact .refreshed inst relBytes cmd parsed (fun r hr => (plain r hr).inst) (InstanceStore.getInstance_set newer)
  | flushInstance _ cmd => exact absurd cmd keeps
  | requestRelated r _ _ _ _ _ _ stored _ _ result =>
    refine .same (fun r' hr => ?_) ?_
    · cases hr
      rw [result]
    · rcases stored with rfl | stored
      · rfl
      · exact InstanceStore.getInstance_setRelated stored
  | refreshRelated _ _ _ _ _ stored =>
    refine .same (fun r hr => ?_) (InstanceStore.getInstance_setRelated stored)
    cases hr
    rfl
  | brokenOff _ _ _ _ stored plain =>
    exact .same (fun r hr => (plain r hr).inst) (InstanceStore.getInstance_setRelated stored)
  | changed c r _ _ new _ _ _ _ _ mem name _ _ _ _ _ result isOk =>
    exact .changed r new rfl isOk result (InstanceStore.getInstance_setInstance newer) (name ▸ cnc.commands_free c mem)

/-- A command writes at its own offset. -/
theorem LogicEffect.below (h : LogicEffect env pb cnc logic command args store rslt adds store') {bound : CompoundOffset → Prop}
    (below : store.Below bound) (here : bound args.cmpdOffset) : store'.Below bound := by
  cases h with
  | quiet | update | delete => exact below
  | refreshInstance => exact below.set here
  | flushInstance => exact below.remove _
  | requestRelated _ _ _ _ _ _ _ stored =>
    rcases stored with rfl | stored
    · exact below
    · exact below.setRelated here stored
  | refreshRelated _ _ _ _ _ stored => exact below.setRelated here stored
  | brokenOff _ _ _ _ stored => exact below.setRelated here stored
  | changed => exact below.setInstance here

end

section
variable {d : Deployment M} {concern key : String} {net net' : Net M} {tp : TopicPartition} {env : Env} {logic : LogicHandler M}
  {p : Publication} {done ahead : List Step} {cur : Step} {next : TopicPartition → Nat}
  {before after : List (TopicPartition × Publication)}

theorem Call.isFor_iff {call : Call} :
    call.isFor concern key = true ↔ call.system = .process ∧ call.concern = concern ∧ call.args.key = key := by
  simp [Call.isFor, and_assoc]

/-- The call of a step is that of the message which is read. -/
theorem Taken.called (h : Taken d next net tp env logic net' p before after done cur ahead) :
    d.called net (.consume tp env logic) = (d.outcome net tp env logic p).call := by
  simp only [Deployment.called, h.taken]

/-- The consumers of processes do not restart themselves. -/
theorem Taken.stays (h : Taken d next net tp env logic net' p before after done cur ahead) (process : tp.system = .process) :
    bailsOut p (d.outcome net tp env logic p).code = false := by
  cases bails : bailsOut p (d.outcome net tp env logic p).code with
  | false => rfl
  | true =>
    have upon : p.txn.uponError = .bailout := by
      simp only [bailsOut, Bool.and_eq_true, decide_eq_true_eq] at bails
      exact bails.1
    have system : cur.system = .process := h.sent.system.trans process
    rcases (h.sent.generated upon).2.2 with scnd | ⟨storage, -⟩
    · rw [system] at scnd
      cases scnd
    · rw [system] at storage
      cases storage

/-- The store of a process consumer after a message. -/
theorem Taken.store_after (h : Taken d next net tp env logic net' p before after done cur ahead) (process : tp.system = .process) :
    net'.stores tp = (d.outcome net tp env logic p).state.instanceStore := by
  rcases h.delivered with ⟨bails, -⟩ | ⟨-, delivered⟩
  · rw [h.stays process] at bails
    cases bails
  · rw [delivered.stores]
    simp [Net.after, Net.setStore]

theorem Taken.store_elsewhere (h : Taken d next net tp env logic net' p before after done cur ahead) {t : TopicPartition}
    (other : t ≠ tp) : net'.stores t = net.stores t := by
  rcases h.stores t with same | ⟨here, -⟩
  · exact same
  · exact absurd here other

theorem Step.Working.not_mem {s : Step} (h : s.Working) : s.command ∉ [create, update, delete, validateCreate, validateUpdate,
    flushInstance, requestRelated] := by
  intro mem
  rcases h with free | few
  · have none := not_reserved free
    simp only [List.mem_cons, List.not_mem_nil, or_false] at mem
    tauto
  · simp only [List.mem_cons, List.not_mem_nil, or_false] at few
    rcases few with h | h | h | h <;> (rw [h] at mem; exact absurd mem (by decide))

theorem Step.Working.keyed {s : Step} (h : s.Working) (process : s.system = .process) : s.isKeylessStep = false := by
  have notValidation : s.command ≠ validateCreate := by
    intro same
    exact h.not_mem (by simp [same])
  simp [Step.isKeylessStep, process, notValidation]

theorem Step.Working.keeps {s : Step} (h : s.Working) : s.command ≠ flushInstance := by
  intro same
  exact h.not_mem (by simp [same])

/-- A call for the instance is made by its consumer. -/
theorem Handled.at_owner {out : Outcome (Platform M)} {call : Call} {rslt : Option StepResult} {adds : List Step}
    (handled : Handled d net tp env logic p cur out call rslt adds) (sent : Sent d next (tp, p) done cur ahead)
    (working : cur.Working) (isFor : call.isFor concern key = true) :
    cur.system = .process ∧ cur.concern = concern ∧ cur.key = key ∧ tp = d.ownerOf concern key := by
  obtain ⟨system, hconcern, hkey⟩ := Call.isFor_iff.1 isFor
  have process : cur.system = .process := handled.callFor.system.symm.trans system
  have concernHere : cur.concern = concern := handled.callFor.concern.symm.trans hconcern
  have keyHere : cur.key = key := handled.callFor.key.symm.trans hkey
  have owner := sent.at_owner process (working.keyed process)
  rw [keyHere, ← sent.concern, concernHere] at owner
  exact ⟨process, concernHere, keyHere, owner⟩

theorem change_of_quiet {a : Action M} {call : Call} {rslt : Option StepResult} (called : d.called net a = some (call, rslt))
    (quiet : ∀ r, rslt = some r → r.code = .ok → r.inst = none) : d.change concern key (net, a) = none := by
  unfold Deployment.change
  rw [called]
  cases rslt with
  | none => rfl
  | some r =>
    dsimp only
    split
    · rename_i h
      simp only [Bool.and_eq_true, decide_eq_true_eq] at h
      exact quiet r rfl h.2
    · rfl

theorem Taken.cached_elsewhere (h : Taken d next net tp env logic net' p before after done cur ahead)
    (other : tp ≠ d.ownerOf concern key) : d.cached net' concern key = d.cached net concern key := by
  unfold Deployment.cached
  rw [h.store_elsewhere (Ne.symm other)]

/-- A call for another instance leaves this one alone. -/
theorem Handled.cached_other {call : Call} {rslt : Option StepResult} {adds : List Step}
    (h : Taken d next net tp env logic net' p before after done cur ahead)
    (handled : Handled d net tp env logic p cur (d.outcome net tp env logic p) call rslt adds)
    (other : call.isFor concern key = false) : d.cached net' concern key = d.cached net concern key := by
  by_cases owner : tp = d.ownerOf concern key
  swap
  · exact h.cached_elsewhere owner
  have process : tp.system = .process := by rw [owner]; rfl
  have same : (d.outcome net tp env logic p).state.instanceStore key = net.stores tp key := by
    have effect := handled.effect
    generalize (d.outcome net tp env logic p).state = plat' at effect
    cases effect with
    | refused | storage | storageScnd => rfl
    | process cnc store' _ system effect =>
      apply effect.elsewhere
      rintro rfl
      have here : call.concern = concern := by
        rw [handled.callFor.concern, h.sent.concern, owner]
        rfl
      rw [Call.isFor_iff.2 ⟨system, here, rfl⟩] at other
      cases other
  unfold Deployment.cached InstanceStore.getInstance InstanceStore.get
  rw [← owner, h.store_after process, same]

theorem Handled.cachedStep {call : Call} {rslt : Option StepResult} {adds : List Step}
    (h : Taken d next net tp env logic net' p before after done cur ahead) (working : cur.Working)
    (older : d.StoreOlder net (d.ownerOf concern key))
    (handled : Handled d net tp env logic p cur (d.outcome net tp env logic p) call rslt adds) :
    CachedStep d concern key net (.consume tp env logic) net' := by
  have called : d.called net (.consume tp env logic) = some (call, rslt) := h.called.trans handled.recorded
  cases isFor : call.isFor concern key with
  | false =>
    refine .same ?_ (handled.cached_other h isFor)
    unfold Deployment.change
    rw [called]
    cases rslt <;> simp [isFor]
  | true =>
    obtain ⟨process, -, hkey, rfl⟩ := handled.at_owner h.sent working isFor
    have after : d.cached net' concern key = (d.outcome net (d.ownerOf concern key) env logic p).state.instanceStore.getInstance key := by
      unfold Deployment.cached
      rw [h.store_after rfl]
    have effect := handled.effect
    generalize (d.outcome net (d.ownerOf concern key) env logic p).state = plat' at effect after
    cases effect with
    | refused notOk => exact .same (change_of_quiet called fun r hr isOk => absurd isOk (notOk r hr)) after
    | storage _ _ _ system | storageScnd _ _ _ system =>
      rw [(Call.isFor_iff.1 isFor).1] at system
      cases system
    | process cnc store' _ _ effect =>
      have newer : (net.stores (d.ownerOf concern key)).Below fun o => offsetGT call.args.cmpdOffset o = true := by
        rw [handled.process_offset process]
        exact older
      have keyHere : call.args.key = key := (Call.isFor_iff.1 isFor).2.2
      have keeps : call.command ≠ flushInstance := by
        rw [handled.callFor.command]
        exact working.keeps
      cases effect.instanceLeft newer keeps with
      | same quiet same =>
        rw [keyHere] at same
        exact .same (change_of_quiet called fun r hr _ => quiet r hr) (after.trans same)
      | changed r inst result isOk changed left free =>
        rw [keyHere] at left
        refine .changed inst ?_ (after.trans left) fun call' rslt' called' => ?_
        · unfold Deployment.change
          rw [called, result]
          simp [isFor, isOk, changed]
        · rw [called] at called'
          cases called'
          exact free
      | refreshed inst relBytes cmd parsed quiet left =>
        rw [keyHere] at left
        exact .refreshed call rslt inst relBytes called isFor cmd parsed (change_of_quiet called fun r hr _ => quiet r hr)
          (after.trans left)

/-- What reading a message does to the cached instance of a key. -/
theorem Taken.cachedStep (h : Taken d next net tp env logic net' p before after done cur ahead) (working : cur.Working)
    (older : d.StoreOlder net (d.ownerOf concern key)) : CachedStep d concern key net (.consume tp env logic) net' := by
  have idle : (d.outcome net tp env logic p).state = Deployment.platform net tp → (d.outcome net tp env logic p).call = none →
      CachedStep d concern key net (.consume tp env logic) net' := by
    intro state call
    have called := h.called.trans call
    refine .same ?_ ?_
    · unfold Deployment.change
      rw [called]
    · by_cases owner : tp = d.ownerOf concern key
      · unfold Deployment.cached
        rw [← owner, h.store_after (by rw [owner]; rfl), state]
        rfl
      · exact h.cached_elsewhere owner
  cases h.fate with
  | rejected state call => exact idle state call
  | missed _ _ _ _ state call => exact idle state call
  | failed call rslt adds handled | next call r adds _ _ handled | completed call r adds _ _ handled =>
    exact handled.cachedStep h working older

/-- The store of a process consumer stays older than its messages. -/
theorem Taken.storeOlder (h : Taken d next net tp env logic net' p before after done cur ahead) {t : TopicPartition}
    (process : t.system = .process) (older : d.StoreOlder net t) : d.StoreOlder net' t := by
  by_cases here : t = tp
  swap
  · have offset : d.offset net' t = d.offset net t := by
      rcases h.offsets with ⟨-, next⟩ | ⟨-, next⟩ <;> simp [Deployment.offset, next, readNext, here]
    unfold Deployment.StoreOlder
    rw [offset, h.store_elsewhere here]
    exact older
  subst here
  have next : net'.next t = net.next t + 1 := by
    rcases h.offsets with ⟨bails, -⟩ | ⟨-, next⟩
    · rw [h.stays process] at bails
      cases bails
    · rw [next]
      simp [readNext]
  have newer : offsetGT (d.offset net' t) (d.offset net t) = true := by
    unfold Deployment.offset
    rw [offsetGT_same, next]
    omega
  have bound : ((d.outcome net t env logic p).state.instanceStore).Below fun o => offsetGT (d.offset net' t) o = true := by
    have before : (net.stores t).Below fun o => offsetGT (d.offset net' t) o = true :=
      fun key rec found => offsetGT_trans newer (older key rec found)
    have kept : ∀ {call rslt adds}, Handled d net t env logic p cur (d.outcome net t env logic p) call rslt adds →
        ((d.outcome net t env logic p).state.instanceStore).Below fun o => offsetGT (d.offset net' t) o = true := by
      intro call rslt adds handled
      have effect := handled.effect
      generalize (d.outcome net t env logic p).state = plat' at effect
      cases effect with
      | refused | storage | storageScnd => exact before
      | process cnc store' _ system effect =>
        apply effect.below before
        rw [handled.process_offset (handled.callFor.system.symm.trans system)]
        exact newer
    cases h.fate with
    | rejected state | missed _ _ _ _ state =>
      rw [state]
      exact before
    | failed call rslt adds handled | next call r adds _ _ handled | completed call r adds _ _ handled => exact kept handled
  unfold Deployment.StoreOlder
  rw [h.store_after process]
  exact bound

end

end Rocketcycle
