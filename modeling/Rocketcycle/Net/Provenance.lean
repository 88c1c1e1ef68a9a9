import Rocketcycle.Net.Notification
import Rocketcycle.Net.Refreshing
import Rocketcycle.Net.SingleWriter

/-!
# Where instances come from

Instances travel between caches, topics and the storage targets, and a late refresh may bring an old
one back. Still, whatever is cached, stored or given to a command was there at the start, or a
`CREATE` or an `UPDATE` was asked to store it, or a command on the same key has left it. Nothing is
made up on the way, and nothing strays from one key to another.
-/

namespace Rocketcycle

open Command Runs

variable {M : Type}

/-- The step is a `CREATE` or an `UPDATE` on primary storage, of this instance. -/
def Deployment.WritesInstance (d : Deployment M) (concern key : String) (e : Net M × Action M) (inst : M) : Prop :=
  ∃ tp env logic call rslt cnc, e.2 = .consume tp env logic ∧ d.called e.1 e.2 = some (call, rslt) ∧ call.system = .storage ∧
    call.concern = concern ∧ (call.command = create ∨ call.command = update) ∧ d.cc.concernHandler concern = some cnc ∧
    cnc.writes env call = .ok inst ∧ cnc.key inst = key

/-- Where the instance of a key comes from, in a run. -/
inductive Deployment.Origin (d : Deployment M) (net₀ : Net M) (tr : List (Net M × Action M)) (concern key : String) (inst : M) : Prop
  | stored (type : String) (item : Item M) (found : net₀.ramDbs type concern key = some item) (is : item.inst = inst)
  | cached (tp : TopicPartition) (b : Bytes) (cnc : Concern M) (place : tp.concern = concern)
      (found : (net₀.stores tp).getInstance key = some b) (handler : d.cc.concernHandler concern = some cnc)
      (reads : cnc.unmarshal b = .ok inst)
  | written (e : Net M × Action M) (mem : e ∈ tr) (writes : d.WritesInstance concern key e inst)
  /-- A command of the concern has left it. -/
  | changed (e : Net M × Action M) (mem : e ∈ tr) (b : Bytes) (cnc : Concern M) (change : d.change concern key e = some b)
      (handler : d.cc.concernHandler concern = some cnc) (reads : cnc.unmarshal b = .ok inst)

/-- It has one, and has its key. -/
structure Deployment.Genuine (d : Deployment M) (net₀ : Net M) (tr : List (Net M × Action M)) (concern key : String) (inst : M) :
    Prop where
  origin : d.Origin net₀ tr concern key inst
  keyed : d.cc.Keyed concern key inst

/-- The commands of the concerns leave an instance its key. -/
def Deployment.KeepsKeys (d : Deployment M) : Action M → Prop
  | .submit .. => True
  | .consume tp _ logic => ∀ cnc, d.cc.concernHandler tp.concern = some cnc → ∀ name inst rel input inst' output,
      cnc.key inst ≠ "" → logic.command name inst rel input = .ok (inst', output) → cnc.key inst' = cnc.key inst

/-! ## What a message carries -/

section
variable (cc : ClientCode M) (Val : String → String → M → Prop)

/-- The bytes are those of an instance for which `Val` holds. -/
def ClientCode.Reads (concern key : String) (b : Bytes) : Prop :=
  ∃ cnc inst, cc.concernHandler concern = some cnc ∧ cnc.unmarshal b = .ok inst ∧ Val concern key inst

/-- The payload is packed, and of no other instance. -/
def ClientCode.Packs (concern key : String) (packed : Bytes) : Prop :=
  ∃ inst rel, packPayloads inst rel = some packed ∧ ∀ b, inst = some b → cc.Reads Val concern key b

/-- The command takes over the instance of its payload, which the platform has put there. -/
def takesOver (system : System) (command : String) : Bool :=
  match system with
  | .process => command = refreshInstance
  | .storage => command = updateAsync
  | .storageScnd => command ≠ delete
  | _ => false

/-- A step that has not run. -/
def ClientCode.Carries (s : Step) : Prop :=
  takesOver s.system s.command = true → ∃ packed, s.payload = some packed ∧ cc.Packs Val s.concern s.key packed

/-- A step that has run, with what will be generated for it. -/
structure ClientCode.Leaves (s : Step) (r : StepResult) : Prop where
  copied : s.isStorageWrite = true → cc.Carries Val (secondaryStep s r)
  changed : s.system = .process → ∀ b, r.inst = some b → cc.Reads Val s.concern s.key b
  requested : s.system = .process → s.command = requestRelated → ∀ relRsp payload, cc.pb.response.unmarshalOpt r.payload = .ok relRsp →
    relRsp.payload = some payload → cc.Packs Val s.concern s.key payload
  refreshed : s.system = .process → s.command = refreshRelated → ∀ payload, r.payload = some payload →
    cc.Packs Val s.concern s.key payload

structure ClientCode.Carried (done : List Step) (cur : Step) (ahead : List Step) : Prop where
  behind : ∀ s ∈ done, ∀ r, s.result = some r → cc.Leaves Val s r
  front : ∀ s ∈ cur :: ahead, cc.Carries Val s

end

section
variable {cc : ClientCode M} {Val Val' : String → String → M → Prop} {s : Step} {r : StepResult} {concern key : String} {b : Bytes}
  {done ahead : List Step} {cur : Step}

theorem ClientCode.Reads.mono (le : ∀ c k m, Val c k m → Val' c k m) (h : cc.Reads Val concern key b) : cc.Reads Val' concern key b := by
  obtain ⟨cnc, inst, handler, reads, val⟩ := h
  exact ⟨cnc, inst, handler, reads, le _ _ _ val⟩

theorem ClientCode.Packs.mono (le : ∀ c k m, Val c k m → Val' c k m) (h : cc.Packs Val concern key b) : cc.Packs Val' concern key b := by
  obtain ⟨inst, rel, packs, reads⟩ := h
  exact ⟨inst, rel, packs, fun b hb => (reads b hb).mono le⟩

theorem ClientCode.Carries.mono (le : ∀ c k m, Val c k m → Val' c k m) (h : cc.Carries Val s) : cc.Carries Val' s := by
  intro takes
  obtain ⟨packed, payload, packs⟩ := h takes
  exact ⟨packed, payload, packs.mono le⟩

theorem ClientCode.Leaves.mono (le : ∀ c k m, Val c k m → Val' c k m) (h : cc.Leaves Val s r) : cc.Leaves Val' s r where
  copied isWrite := (h.copied isWrite).mono le
  changed process b hb := (h.changed process b hb).mono le
  requested process command relRsp payload response hp := (h.requested process command relRsp payload response hp).mono le
  refreshed process command payload hp := (h.refreshed process command payload hp).mono le

theorem ClientCode.Carried.mono (le : ∀ c k m, Val c k m → Val' c k m) (h : cc.Carried Val done cur ahead) :
    cc.Carried Val' done cur ahead where
  behind s hs r hr := (h.behind s hs r hr).mono le
  front s hs := (h.front s hs).mono le

theorem carries_other (other : takesOver s.system s.command = false) : cc.Carries Val s := by
  intro takes
  rw [other] at takes
  cases takes

/-- A packed payload is not empty, so the wire keeps it. -/
theorem ClientCode.Packs.wire {packed : Bytes} {payload : Option Bytes} (h : cc.Packs Val concern key packed) (hp : payload = some packed) :
    wireBytes payload = some packed := by
  obtain ⟨inst, rel, packs, -⟩ := h
  exact wireBytes_eq_some.2 ⟨hp, packPayloads_ne_nil packs⟩

theorem ClientCode.Carries.wire (h : cc.Carries Val s) : cc.Carries Val (wireStep s) := by
  intro takes
  obtain ⟨packed, payload, packs⟩ := h takes
  exact ⟨packed, packs.wire payload, packs⟩

theorem ClientCode.Leaves.wire (h : cc.Leaves Val s r) : cc.Leaves Val (wireStep s) (wireResult r) where
  copied isWrite takes := by
    obtain ⟨packed, payload, packs⟩ := h.copied isWrite takes
    exact ⟨packed, packs.wire payload, packs⟩
  changed process b hb := h.changed process b (wireBytes_eq_some.1 hb).1
  requested process command relRsp payload response hp := by
    change cc.pb.response.unmarshalOpt (wireBytes r.payload) = .ok relRsp at response
    rw [unmarshalOpt_wire] at response
    exact h.requested process command relRsp payload response hp
  refreshed process command payload hp := h.refreshed process command payload (wireBytes_eq_some.1 hp).1

theorem ClientCode.Carried.wire (h : cc.Carried Val done cur ahead) :
    cc.Carried Val (done.map wireStep) (wireStep cur) (ahead.map wireStep) where
  behind s hs r hr := by
    obtain ⟨s', hs', rfl⟩ := List.mem_map.1 hs
    rw [wireStep_result, Option.map_eq_some_iff] at hr
    obtain ⟨r', hr', rfl⟩ := hr
    exact (h.behind s' hs' r' hr').wire
  front s hs := by
    rw [← List.map_cons] at hs
    obtain ⟨s', hs', rfl⟩ := List.mem_map.1 hs
    exact (h.front s' hs').wire

/-- What a step carries is not replaced on its way to it. -/
theorem ClientCode.Carries.next {step : Step} {o : CompoundOffset} (h : cc.Carries Val s) : cc.Carries Val (nextStepOf step s o) := by
  intro takes
  rw [nextStepOf_system, nextStepOf_command] at takes
  obtain ⟨packed, payload, packs⟩ := h takes
  refine ⟨packed, ?_, ?_⟩
  · rcases nextStepOf_payload step s o with kept | ⟨empty, -⟩
    · rw [kept, payload]
    · rw [payload] at empty
      cases empty
  · rw [nextStepOf_concern, nextStepOf_key]
    exact packs

/-- What is generated for the steps of a transaction carries what they have left. -/
theorem generates_carries {store : InstanceStore} {steps : List Step} {step : Step}
    (left : ∀ s ∈ steps, ∀ r, s.result = some r → cc.Leaves Val s r) (h : Generates cc.pb store steps step) : cc.Carries Val step := by
  have changes : ∀ {s payload}, s ∈ steps → UpdateOf cc.pb store s payload → cc.Packs Val s.concern s.key payload := by
    intro s payload mem updateOf
    obtain ⟨r, hr, -, inst⟩ := updateOf.change
    have leaves := left s mem r hr
    unfold stepInst at inst
    split at inst
    · rename_i changed
      rw [Option.map_eq_some_iff] at inst
      obtain ⟨packed, packs, same⟩ := inst
      cases same
      exact ⟨r.inst, _, packs, leaves.changed updateOf.system⟩
    split at inst
    · rename_i command
      split at inst
      · cases inst
      · rename_i relRsp response
        exact leaves.requested updateOf.system command relRsp payload response (Option.some.inj inst)
    split at inst
    · rename_i command
      exact leaves.refreshed updateOf.system command payload (Option.some.inj inst)
    · cases inst
  cases h with
  | copy s r mem isWrite result => exact (left s mem r result).copied isWrite
  | update s payload mem updateOf | updateScnd s payload mem updateOf =>
    have packs := changes mem updateOf
    exact fun _ => ⟨payload, rfl, packs⟩

end

/-! ## What a command does with it -/

namespace InstanceStore

/-- All cached instances meet a condition on their key. -/
def All (P : String → Bytes → Prop) (store : InstanceStore) : Prop := ∀ key b, store.getInstance key = some b → P key b

variable {P : String → Bytes → Prop} {store store' : InstanceStore} {key : String} {inst related : Option Bytes} {o : CompoundOffset}

theorem All.set (all : store.All P) (here : ∀ b, inst = some b → P key b) : (store.set key inst related o).All P := by
  intro k b found
  by_cases same : k = key
  swap
  · apply all k b
    rwa [getInstance, get, set_ne same] at found
  subst same
  unfold InstanceStore.set at found
  split at found
  · split at found
    · exact all k b found
    · exact here b (by simpa [getInstance, get] using found)
  · exact here b (by simpa [getInstance, get] using found)

theorem All.setInstance (all : store.All P) (here : ∀ b, inst = some b → P key b) : (store.setInstance key inst o).All P := by
  intro k b found
  by_cases same : k = key
  swap
  · apply all k b
    rwa [getInstance, get, setInstance_ne same] at found
  subst same
  unfold InstanceStore.setInstance at found
  split at found
  · split at found
    · exact all k b found
    · exact here b (by simpa [getInstance, get] using found)
  · exact here b (by simpa [getInstance, get] using found)

theorem All.setRelated (all : store.All P) (ok : store.setRelated key related o = .ok store') : store'.All P := by
  intro k b found
  rw [cached_setRelated ok] at found
  exact all k b found

theorem All.remove (all : store.All P) : (store.remove key).All P := by
  intro k b found
  by_cases same : k = key
  · simp [getInstance, get, InstanceStore.remove, same] at found
  · apply all k b
    rwa [getInstance, get, remove_ne same] at found

end InstanceStore

/-- What a call brings along: the instance and the payload that it is given, and those that it makes. -/
structure ClientCode.Given (cc : ClientCode M) (Val : String → String → M → Prop) (env : Env) (call : Call) (rslt : Option StepResult) :
    Prop where
  inst : ∀ b, call.args.inst = some b → cc.Reads Val call.concern call.args.key b
  payload : takesOver call.system call.command = true → ∃ packed, call.args.payload = some packed ∧ packed.length < 2 ^ 32 ∧
    cc.Packs Val call.concern call.args.key packed
  written : call.system = .storage → call.command = create ∨ call.command = update → ∀ cnc inst,
    cc.concernHandler call.concern = some cnc → cnc.writes env call = .ok inst → Val call.concern (cnc.key inst) inst
  changed : call.system = .process → ∀ r b, rslt = some r → r.code = .ok → r.inst = some b →
    cc.Reads Val call.concern call.args.key b

section
variable {cc : ClientCode M} {Val : String → String → M → Prop} {env : Env} {logic : LogicHandler M} {stgTgt : StorageTarget}
  {call : Call} {plat plat' : Platform M} {rslt : Option StepResult} {adds : List Step}

/-- What is parsed is what was packed. -/
theorem ClientCode.Packs.parsed {concern key : String} {packed : Bytes} {inst relBytes : Option Bytes}
    (h : cc.Packs Val concern key packed) (size : packed.length < 2 ^ 32) (parsed : parsePayload (some packed) = .ok (inst, relBytes)) :
    ∃ b, inst = some b ∧ cc.Reads Val concern key b := by
  obtain ⟨inst', rel, packs, reads⟩ := h
  have empty : packPayloads (some []) rel = some packed → False := by
    intro packs
    obtain ⟨e, refused⟩ := unpackPayloads_empty packs
    rw [parsePayload, if_pos (packPayloads_packed packs), refused] at parsed
    cases parsed
  cases inst' with
  | none =>
    refine (empty ?_).elim
    rw [packPayloads_eq_some] at packs ⊢
    exact ⟨rfl, packs.2.1, packs.2.2⟩
  | some b =>
    by_cases ne : b = []
    · subst ne
      exact (empty packs).elim
    · rw [parsePayload_packPayloads packs ne size] at parsed
      cases parsed
      exact ⟨b, rfl, reads b rfl⟩

/-- The steps that are added for a command carry what it was given or has made. -/
theorem commandEffect_carries (h : CommandEffect cc env logic stgTgt call plat rslt adds plat') (lossless : cc.LosslessMessages)
    (keyed : ∀ c k m, Val c k m → cc.Keyed c k m) (given : cc.Given Val env call rslt) (stored : ∀ type, (plat.ramDbs type).All Val) :
    ∀ s ∈ adds, cc.Carries Val s := by
  have process : ∀ s : Step, s.system = .process → s.command ≠ refreshInstance → cc.Carries Val s := by
    intro s system other
    apply carries_other
    simp [takesOver, system, other]
  cases h with
  | refused _ none | storageScnd _ _ _ _ none => simp [none]
  | process cnc store' found system effect =>
    cases effect with
    | update | delete =>
      intro s hs
      rw [List.mem_singleton.1 hs]
      apply carries_other
      simp [takesOver, toStorage, Command.update, Command.delete, updateAsync]
    | requestRelated =>
      intro s hs
      rw [List.mem_singleton.1 hs]
      have other : refreshRelated ≠ refreshInstance := by decide
      exact process _ rfl other
    | changed _ _ _ _ _ _ _ _ _ _ _ _ _ _ _ _ _ _ _ _ refreshes =>
      intro s hs
      obtain ⟨system, -, -, refresh | ⟨isRead, -⟩⟩ := refreshes s hs
      · exact process s system (by rw [refresh]; decide)
      · exact process s system (by rw [isRead]; decide)
    | _ => simp
  | storage cnc db' found system effect =>
    have name := ClientCode.concernHandler_name found
    have messages := lossless.concern found
    have refreshes : ∀ {inst : M} {instBytes relBytes : Option Bytes} {payload : Bytes}, packPayloads instBytes relBytes = some payload →
        (∀ b, instBytes = some b → cnc.unmarshal b = .ok inst) → Val call.concern (cnc.key inst) inst →
        cc.Carries Val (Crud.refreshStep cnc call.args (cnc.key inst) (some payload)) := by
      intro inst instBytes relBytes payload packs reads val _
      refine ⟨payload, rfl, instBytes, relBytes, packs, fun b hb => ⟨cnc, inst, ?_, reads b hb, ?_⟩⟩
      · rw [← found, ← name]
        rfl
      · rw [← name] at val
        exact val
    cases effect with
    | create inst instBytes relBytes instOutBytes payload relSteps cmd parts parsed _ written packs requests =>
      intro s hs
      rcases List.mem_cons.1 hs with rfl | hs
      · refine refreshes packs (fun b hb => ?_) ?_
        · cases hb
          exact messages.inst.unmarshal written
        · exact given.written system (.inl cmd) cnc _ found (writes_created system cmd (createInput_ok.2 ⟨_, _, parts, parsed⟩))
      · exact process s (requestRelatedSteps_all requests s hs).1 (by rw [(requestRelatedSteps_all requests s hs).2.2.2]; decide)
    | read inst rel o instBytes relBytes payload _ here written _ packs =>
      intro s hs
      rw [List.mem_singleton.1 hs]
      have val : Val cnc.name call.args.key inst := stored _ _ _ _ here
      have key : cnc.key inst = call.args.key := keyed _ _ _ val cnc (name ▸ found)
      refine refreshes packs (fun b hb => ?_) ?_
      · cases hb
        exact messages.inst.unmarshal written
      · rw [key, ← name]
        exact val
    | update inst rel instBytes relBytes payload cmd parsed packs =>
      intro s hs
      rw [List.mem_singleton.1 hs]
      refine refreshes packs (fun b hb => ?_) ?_
      · have parsed := parsed.inst
        rw [hb] at parsed
        exact parsed
      · apply given.written system (.inr cmd) cnc _ found
        have other : call.command ≠ create := by rw [cmd]; decide
        rw [writes_other fun same => other same.2, createInput_ok.2 ⟨_, _, parsed.parts, parsed.inst⟩]
    | delete =>
      intro s hs
      rw [List.mem_singleton.1 hs]
      have other : flushInstance ≠ refreshInstance := by decide
      exact process _ rfl other
    | _ => simp

/-- What is cached after a command was cached before, or is known otherwise. -/
theorem commandEffect_reads (h : CommandEffect cc env logic stgTgt call plat rslt adds plat') (given : cc.Given Val env call rslt)
    (cached : plat.instanceStore.All (cc.Reads Val call.concern)) : plat'.instanceStore.All (cc.Reads Val call.concern) := by
  cases h with
  | refused | storage | storageScnd => exact cached
  | process cnc store' found system effect =>
    cases effect with
    | quiet | update | delete => exact cached
    | refreshInstance _ inst relBytes cmd parsed =>
      obtain ⟨packed, payload, size, packs⟩ := given.payload (by simp [takesOver, system, cmd])
      rw [payload] at parsed
      obtain ⟨b', rfl, reads⟩ := packs.parsed size parsed
      apply cached.set
      rintro b ⟨⟩
      exact reads
    | flushInstance => exact cached.remove
    | requestRelated _ _ _ _ _ _ _ stored =>
      rcases stored with rfl | ok
      · exact cached
      · exact cached.setRelated ok
    | refreshRelated _ _ _ _ _ ok | brokenOff _ _ _ _ ok => exact cached.setRelated ok
    | changed _ r _ _ new _ _ _ _ _ _ _ _ _ _ _ _ result isOk =>
      apply cached.setInstance
      rintro b ⟨⟩
      exact given.changed system r new rfl isOk result

/-- What is stored after a command was stored before, or is known otherwise. -/
theorem commandEffect_stored (h : CommandEffect cc env logic stgTgt call plat rslt adds plat')
    (keyed : ∀ c k m, Val c k m → cc.Keyed c k m) (given : cc.Given Val env call rslt) (stored : ∀ type, (plat.ramDbs type).All Val)
    (type : String) : (plat'.ramDbs type).All Val := by
  refine h.all stored (fun cnc inst found storage cmd writes => ?_) type
  have fromPayload : takesOver call.system call.command = true → ¬(call.system = .storage ∧ call.command = create) →
      Val call.concern (cnc.key inst) inst := by
    intro takes other
    obtain ⟨packed, payload, size, packs⟩ := given.payload takes
    rw [writes_other other] at writes
    obtain ⟨instBytes, relBytes, parts, parsed⟩ := createInput_ok.1 writes
    rw [payload] at parts
    obtain ⟨b, rfl, cnc', inst', found', reads, val⟩ := packs.parsed size parts
    rw [found] at found'
    cases found'
    have same : inst' = inst := by
      have both : Except.ok inst' = Except.ok inst := reads.symm.trans parsed
      exact Except.ok.inj both
    rw [same] at val
    rw [keyed _ _ _ val cnc found]
    exact val
  cases system : call.system with
  | storage =>
    simp only [List.mem_cons, List.not_mem_nil, or_false] at cmd
    rcases cmd with cmd | cmd | cmd
    · exact given.written system (.inl cmd) cnc inst found writes
    · exact given.written system (.inr cmd) cnc inst found writes
    · apply fromPayload
      · simp [takesOver, system, cmd]
      · rw [cmd]
        exact fun same => absurd same.2 (by decide)
  | storageScnd =>
    apply fromPayload
    · have other : call.command ≠ delete := by
        intro same
        rw [same] at cmd
        exact absurd cmd (by decide)
      simp [takesOver, system, other]
    · simp [system]
  | _ => simp [isStorageSystem, system] at storage

/-- A write on a primary target answers with an instance of its own key. -/
theorem storageEffect_packs {cnc : Concern M} {db db' : RamDb M} {r : StepResult} (storage : call.system = .storage)
    (found : cc.concernHandler call.concern = some cnc)
    (effect : StorageEffect env cc.pb cnc call.command call.args db (some r) adds db') (isOk : r.code = .ok)
    (writes : call.command = create ∨ call.command = update) (lossless : cc.LosslessMessages) (given : cc.Given Val env call (some r)) :
    ∃ payload, r.payload = some payload ∧ cc.Packs Val call.concern r.key payload := by
  have packs : ∀ {inst : M} {instBytes relBytes : Option Bytes} {payload : Bytes}, packPayloads instBytes relBytes = some payload →
      (∀ b, instBytes = some b → cnc.unmarshal b = .ok inst) → cnc.writes env call = .ok inst →
        cc.Packs Val call.concern (cnc.key inst) payload := by
    intro inst instBytes relBytes payload packs reads written
    exact ⟨instBytes, relBytes, packs, fun b hb => ⟨cnc, inst, found, reads b hb, given.written storage writes cnc inst found written⟩⟩
  cases effect with
  | refused _ notOk | createFailed _ _ _ _ _ _ _ notOk => exact absurd isOk (notOk r rfl)
  | create inst instBytes relBytes instOutBytes payload relSteps cmd parts parsed _ written packed =>
    refine ⟨payload, rfl, packs packed (fun b hb => ?_) (writes_created storage cmd (createInput_ok.2 ⟨_, _, parts, parsed⟩))⟩
    cases hb
    exact (lossless.concern found).inst.unmarshal written
  | update inst rel instBytes relBytes payload cmd parsed packed =>
    have other : call.command ≠ create := by rw [cmd]; decide
    refine ⟨payload, rfl, packs packed (fun b hb => ?_) ?_⟩
    · have parsed := parsed.inst
      rw [hb] at parsed
      exact parsed
    · rw [writes_other fun same => other same.2, createInput_ok.2 ⟨_, _, parsed.parts, parsed.inst⟩]
  | delete cmd | read _ _ _ _ _ _ cmd | updateAsync _ _ _ _ cmd =>
    rw [cmd] at writes
    exact absurd writes (by decide)

/-- The response to a request for related data holds the instance that has been asked. -/
theorem logicEffect_requested {cnc : Concern M} {r : StepResult} {store store' : InstanceStore} {relRsp : RelatedResponse} {payload : Bytes}
    (effect : LogicEffect env cc.pb cnc logic requestRelated call.args store (some r) adds store') (isOk : r.code = .ok)
    (lawful : cc.pb.Lawful) (given : cc.Given Val env call (some r))
    (response : cc.pb.response.unmarshalOpt (r.payload <|> call.args.payload) = .ok relRsp) (relPayload : relRsp.payload = some payload) :
    cc.Packs Val call.concern call.args.key payload := by
  generalize same : requestRelated = command at effect
  cases effect with
  | quiet _ _ writes => exact absurd (by simp [← same, writingCommands]) (writes r rfl isOk)
  | update _ cmd | delete _ cmd | refreshInstance _ _ _ cmd | flushInstance _ cmd | refreshRelated _ _ _ _ cmd =>
    exact absurd (same.trans cmd) (by decide)
  | brokenOff _ _ _ _ _ _ notOk => exact absurd isOk (notOk r rfl)
  | changed c _ _ _ _ _ _ _ _ _ mem name' =>
    have free := cnc.commands_free c mem
    rw [name', ← same] at free
    exact absurd free (by decide)
  | requestRelated _ _ relReq relBytes packed relRspBytes _ _ packs marshalled result =>
    subst result
    obtain ⟨b, encoded, decoded⟩ := lawful.response ⟨cnc.name, relReq.field, some packed⟩
    have written : b = relRspBytes := by
      unfold Codec.marshal at marshalled
      rw [encoded] at marshalled
      exact Except.ok.inj marshalled
    subst written
    have read : cc.pb.response.unmarshalOpt (some b) = .ok ⟨cnc.name, relReq.field, wireBytes (some packed)⟩ := by
      simp only [Codec.unmarshalOpt, Codec.unmarshal, Option.getD_some, decoded]
      rfl
    have both := response.symm.trans read
    cases both
    cases (wireBytes_eq_some.1 relPayload).1
    exact ⟨call.args.inst, some relBytes, packs, given.inst⟩

/-- A refresh of related data answers with the instance that is cached. -/
theorem logicEffect_refreshed {cnc : Concern M} {r : StepResult} {store store' : InstanceStore} {payload : Bytes}
    (effect : LogicEffect env cc.pb cnc logic refreshRelated call.args store (some r) adds store') (isOk : r.code = .ok)
    (after : store'.All (cc.Reads Val call.concern)) (result : (r.payload <|> call.args.payload) = some payload) :
    cc.Packs Val call.concern call.args.key payload := by
  generalize same : refreshRelated = command at effect
  cases effect with
  | quiet _ _ writes => exact absurd (by simp [← same, writingCommands]) (writes r rfl isOk)
  | update _ cmd | delete _ cmd | refreshInstance _ _ _ cmd | flushInstance _ cmd | requestRelated _ _ _ _ _ _ cmd =>
    exact absurd (same.trans cmd) (by decide)
  | brokenOff _ _ _ _ _ _ notOk => exact absurd isOk (notOk r rfl)
  | changed c _ _ _ _ _ _ _ _ _ mem name' =>
    have free := cnc.commands_free c mem
    rw [name', ← same] at free
    exact absurd free (by decide)
  | refreshRelated _ rel relBytes answer _ stored _ packed =>
    obtain ⟨rec, there⟩ : ∃ rec, store' call.args.key = some rec := by
      unfold InstanceStore.setRelated at stored
      split at stored
      · rename_i old found
        split at stored
        · cases stored
          exact ⟨old, found⟩
        · cases stored
          exact ⟨_, InstanceStore.put_self _ _ _⟩
      · cases stored
    simp only [InstanceStore.getPacked, there, Option.map_eq_some_iff] at packed
    obtain ⟨p, packs, rfl⟩ := packed
    cases result
    refine ⟨rec.inst, rec.related, packs, fun b hb => after call.args.key b ?_⟩
    exact InstanceStore.getInstance_eq_some.2 ⟨rec, there, hb⟩

/-- A step that has succeeded leaves no other instances. -/
theorem commandEffect_leaves {r : StepResult} {s : Step} (h : CommandEffect cc env logic stgTgt call plat (some r) adds plat')
    (isOk : r.code = .ok) (lossless : cc.LosslessMessages) (lawful : cc.pb.Lawful) (given : cc.Given Val env call (some r))
    (cached : plat.instanceStore.All (cc.Reads Val call.concern)) (system : s.system = call.system) (concern : s.concern = call.concern)
    (command : s.command = call.command) (key : s.key = call.args.key) :
    cc.Leaves Val s { r with payload := r.payload <|> call.args.payload } := by
  have after := commandEffect_reads h given cached
  have logic' : s.system = .process → ∃ cnc store', cc.concernHandler call.concern = some cnc ∧
      LogicEffect env cc.pb cnc logic s.command call.args plat.instanceStore (some r) adds store' ∧ plat'.instanceStore = store' := by
    intro process
    rw [command]
    obtain ⟨notOk, -, -⟩ | ⟨cnc, store', found, effect, rfl⟩ := h.of_process (system.symm.trans process)
    · exact absurd isOk (notOk r rfl)
    · exact ⟨cnc, store', found, effect, rfl⟩
  constructor
  · intro isWrite takes
    have write : call.system = .storage ∧ (call.command = create ∨ call.command = update ∨ call.command = delete) := by
      simpa [Step.isStorageWrite, system, command, or_assoc] using isWrite
    have notDelete : call.command ≠ delete := by
      rw [← command]
      simpa [takesOver, secondaryStep] using takes
    have writes : call.command = create ∨ call.command = update :=
      write.2.imp_right fun other => other.resolve_right notDelete
    cases h with
    | refused notOk => exact absurd isOk (notOk r rfl)
    | process _ _ _ process =>
      rw [write.1] at process
      cases process
    | storageScnd _ _ _ scnd =>
      rw [write.1] at scnd
      cases scnd
    | storage cnc db' found storage effect =>
      obtain ⟨payload, left, packs⟩ := storageEffect_packs storage found effect isOk writes lossless given
      refine ⟨payload, ?_, concern ▸ packs⟩
      show (r.payload <|> call.args.payload) = some payload
      rw [left]
      rfl
  · intro process b left
    rw [concern, key]
    exact given.changed (system.symm.trans process) r b rfl isOk left
  · intro process request relRsp payload response relPayload
    obtain ⟨cnc, store', -, effect, -⟩ := logic' process
    rw [request] at effect
    rw [concern, key]
    exact logicEffect_requested effect isOk lawful given response relPayload
  · intro process refresh payload result
    obtain ⟨cnc, store', -, effect, rfl⟩ := logic' process
    rw [refresh] at effect
    rw [concern, key]
    exact logicEffect_refreshed effect isOk after result

end

/-! ## Runs -/

/-- Nothing is in flight, and all instances have the keys that they are held under. -/
structure Deployment.WellKept (d : Deployment M) (net : Net M) : Prop where
  idle : net.inFlight = []
  filed : d.Filed net
  cached : ∀ tp, (net.stores tp).All (d.cc.Reads d.cc.Keyed tp.concern)

/-- Wherever there is an instance after a run, it is genuine. -/
structure Deployment.Traced (d : Deployment M) (net₀ : Net M) (tr : List (Net M × Action M)) (net : Net M) : Prop where
  messages : Standing d (fun _ => d.cc.Carried (d.Genuine net₀ tr)) net
  cached : ∀ tp, (net.stores tp).All (d.cc.Reads (d.Genuine net₀ tr) tp.concern)
  stored : ∀ type, (net.ramDbs type).All (d.Genuine net₀ tr)

section
variable {d : Deployment M} {net₀ net net' : Net M} {tr : List (Net M × Action M)} {e : Net M × Action M} {concern key : String} {inst : M}
  {tp : TopicPartition} {env : Env} {logic : LogicHandler M} {p : Publication} {done ahead : List Step} {cur : Step} {call : Call}
  {rslt : Option StepResult} {adds : List Step} {before after : List (TopicPartition × Publication)} {a : Action M}

/-- A longer run has all origins. -/
theorem Deployment.Genuine.mono (h : d.Genuine net₀ tr concern key inst) : d.Genuine net₀ (tr ++ [e]) concern key inst where
  origin := by
    cases h.origin with
    | stored type item found is => exact .stored type item found is
    | cached tp b cnc place found handler reads => exact .cached tp b cnc place found handler reads
    | written e' mem writes => exact .written e' (List.mem_append_left _ mem) writes
    | changed e' mem b cnc change handler reads => exact .changed e' (List.mem_append_left _ mem) b cnc change handler reads
  keyed := h.keyed

theorem Deployment.Traced.mono (h : d.Traced net₀ tr net) : d.Traced net₀ (tr ++ [e]) net where
  messages m hm := by
    obtain ⟨done, cur, ahead, sent, carried⟩ := h.messages m hm
    exact ⟨done, cur, ahead, sent, carried.mono fun _ _ _ val => val.mono⟩
  cached tp key b found := (h.cached tp key b found).mono fun _ _ _ val => val.mono
  stored type concern key item found := (h.stored type concern key item found).mono

theorem Deployment.WellKept.traced (h : d.WellKept net) : d.Traced net [] net where
  messages := standing_idle h.idle
  cached tp key b found := by
    obtain ⟨cnc, inst, handler, reads, keyed⟩ := h.cached tp key b found
    exact ⟨cnc, inst, handler, reads, .cached tp b cnc rfl found handler reads, keyed⟩
  stored type concern key item found := ⟨.stored type item found rfl, filed_iff.1 (h.filed type) concern key item found⟩

/-- What a command of the concern leaves comes from it, and has the key of what it was given. -/
theorem Handled.changed_reads (handled : Handled d net tp env logic p cur (d.outcome net tp env logic p) call rslt adds)
    (called : d.called net (.consume tp env logic) = some (call, rslt)) (here : tp.concern = call.concern)
    (keeps : d.KeepsKeys (.consume tp env logic)) (lossless : d.cc.LosslessMessages)
    (given : ∀ b, call.args.inst = some b → d.cc.Reads d.cc.Keyed call.concern call.args.key b) (process : call.system = .process)
    {r : StepResult} {b : Bytes} (result : rslt = some r) (isOk : r.code = .ok) (left : r.inst = some b) :
    d.cc.Reads (d.Genuine net₀ (tr ++ [(net, .consume tp env logic)])) call.concern call.args.key b := by
  subst result
  have change : d.change call.concern call.args.key (net, .consume tp env logic) = some b := by
    unfold Deployment.change
    rw [called]
    have isFor : call.isFor call.concern call.args.key = true := Call.isFor_iff.2 ⟨process, rfl, rfl⟩
    simp [isFor, isOk, left]
  have effect := handled.effect
  generalize (d.outcome net tp env logic p).state = plat' at effect
  cases effect with
  | refused notOk => exact absurd isOk (notOk r rfl)
  | storage _ _ _ storage | storageScnd _ _ _ storage =>
    rw [process] at storage
    cases storage
  | process cnc store' found _ effect =>
    cases effect with
    | quiet _ plain | refreshInstance _ _ _ _ _ plain | brokenOff _ _ _ _ _ plain =>
      rw [(plain r rfl).inst] at left
      cases left
    | flushInstance _ _ _ plain =>
      rw [plain.inst] at left
      cases left
    | update | delete | refreshRelated => cases left
    | requestRelated _ _ _ _ _ _ _ _ _ _ result =>
      rw [result] at left
      cases left
    | changed c _ _ old new inst rel inst' input output mem name got parsed ran written _ result =>
      obtain ⟨cnc', inst₀, found', reads, key⟩ := given old got
      rw [found] at found'
      cases found'
      cases parsed.symm.trans reads
      have own : cnc.key inst = call.args.key := key cnc found
      have nonempty : cnc.key inst ≠ "" := by
        rw [own, handled.callFor.key]
        apply handled.key
        have free := not_reserved (cnc.commands_free c mem)
        rw [name, handled.callFor.command] at free
        simp [Step.isKeylessStep, free]
      have kept : cnc.key inst' = call.args.key := (keeps cnc (here ▸ found) _ _ _ _ _ _ nonempty ran).trans own
      rw [result] at left
      cases left
      have reads' := (lossless.concern found).inst.unmarshal written
      refine ⟨cnc, inst', found, reads', .changed _ (by simp) b cnc change found reads', ?_⟩
      intro cnc' found'
      rw [found] at found'
      cases found'
      exact kept

/-- What is known of a call, once it counts as part of the run. -/
theorem Deployment.Traced.given (h : d.Traced net₀ tr net) (lossless : d.cc.LosslessMessages)
    (keeps : d.KeepsKeys (.consume tp env logic)) (consumed : Consumed d net tp env logic net' p before after done cur ahead)
    (handled : Handled d net tp env logic p cur (d.outcome net tp env logic p) call rslt adds) :
    d.cc.Given (d.Genuine net₀ (tr ++ [(net, .consume tp env logic)])) env call rslt := by
  have callFor := handled.callFor
  have called : d.called net (.consume tp env logic) = some (call, rslt) := consumed.called.trans handled.recorded
  have here : tp.concern = call.concern := (callFor.concern.trans consumed.sent.concern).symm
  have carried := h.messages.at (by rw [consumed.split]; simp) consumed.sent
  have inst : ∀ b, call.args.inst = some b → d.cc.Reads (d.Genuine net₀ tr) call.concern call.args.key b := by
    intro b given
    rw [callFor.inst, instanceFor] at given
    split at given
    · rw [callFor.key, ← here]
      exact h.cached tp cur.key b given
    · cases given
  refine ⟨fun b given => (inst b given).mono fun _ _ _ val => val.mono, ?_, ?_, ?_⟩
  · intro takes
    rw [callFor.system, callFor.command] at takes
    obtain ⟨packed, payload, packs⟩ := carried.front cur List.mem_cons_self takes
    have size : packed.length < 2 ^ 32 := by
      have small := consumed.sent.small
      rw [payload] at small
      exact lt_trans small (by decide)
    rw [callFor.concern, callFor.key, callFor.payload]
    exact ⟨packed, payload, size, packs.mono fun _ _ _ val => val.mono⟩
  · intro storage cmd cnc inst found writes
    have writing : d.WritesInstance call.concern (cnc.key inst) (net, .consume tp env logic) inst :=
      ⟨tp, env, logic, call, rslt, cnc, rfl, called, storage, rfl, cmd, found, writes, rfl⟩
    refine ⟨.written _ (by simp) writing, ?_⟩
    intro cnc' found'
    rw [found] at found'
    cases found'
    rfl
  · intro process r b result isOk left
    exact handled.changed_reads called here keeps lossless (fun b given => (inst b given).mono fun _ _ _ val => val.keyed) process result
      isOk left

/-- The steps of a submitted transaction carry nothing but what the user gives. -/
theorem Submitted.carries {Val : String → String → M → Prop} {cc : ClientCode M} {traceParent : String} {txn : Txn} {steps rest : List Step}
    {rtxn : ApecsTxn} (h : Submitted env traceParent txn p steps rtxn cur rest) : ∀ s ∈ cur :: rest, cc.Carries Val s := by
  have whole : cur :: rest = steps.flatMap expandStep := by rw [← h.forward, h.logged.stands.steps, List.nil_append]
  intro s hs
  rw [whole] at hs
  obtain ⟨prepared, hprep, hs⟩ := List.mem_flatMap.1 hs
  obtain ⟨u, hu, prepares⟩ := (Early.mapM_mem h.prepared).2 prepared hprep
  obtain ⟨system, -, -, command, -⟩ := prepareStep_ok prepares
  have notRefresh : prepared.command ≠ refreshInstance := by
    have allowed := h.allowed u hu
    rw [← command] at allowed
    exact (allowed_command allowed).2.2
  apply carries_other
  unfold expandStep at hs
  dsimp only at hs
  split at hs
  · rename_i isCreate
    simp only [system, Bool.and_eq_true, decide_eq_true_eq, true_and] at isCreate
    simp only [List.mem_cons, List.not_mem_nil, or_false] at hs
    rcases hs with rfl | rfl
    · rfl
    · rw [takesOver, isCreate]
      rfl
  split at hs
  · simp only [List.mem_cons, List.not_mem_nil, or_false] at hs
    rcases hs with rfl | rfl
    · rfl
    · simp [takesOver, system, notRefresh]
  · rw [List.mem_singleton.1 hs]
    simp [takesOver, system, notRefresh]

/-- The read that is put in front of a step brings nothing along. -/
theorem ClientCode.Carried.miss {Val : String → String → M → Prop} {cc : ClientCode M} {s t : Step} {o : CompoundOffset}
    (h : cc.Carried Val done cur ahead) (same : t.system = cur.system ∧ t.concern = cur.concern ∧ t.command = cur.command ∧
      t.key = cur.key ∧ t.payload = cur.payload) : cc.Carried Val done (readStep s o) (missAhead t ahead) where
  behind := h.behind
  front s' hs := by
    rcases List.mem_cons.1 hs with rfl | hs
    · exact carries_other rfl
    rcases mem_missAhead hs with rfl | hs
    · intro takes
      obtain ⟨system, concern, command, key, payload⟩ := same
      rw [system, command] at takes
      obtain ⟨packed, hp, packs⟩ := h.front cur List.mem_cons_self takes
      exact ⟨packed, payload.trans hp, by rw [concern, key]; exact packs⟩
    · exact h.front s' (List.mem_cons_of_mem _ hs)

/-- One step of the system. -/
theorem Deployment.Traced.step (h : d.Traced net₀ tr net) (lossless : d.cc.LosslessMessages) (lawful : d.cc.pb.Lawful)
    (keeps : d.KeepsKeys a) (hs : d.step net a = some net') : d.Traced net₀ (tr ++ [(net, a)]) net' := by
  have held : d.Traced net₀ (tr ++ [(net, a)]) net := h.mono
  cases a with
  | submit env traceParent txn respTarget =>
    obtain ⟨p, delivered⟩ := submit_delivered hs
    refine ⟨held.messages.submit hs fun {p steps rtxn cur rest} submitted => ?_, ?_, ?_⟩
    · have start : d.cc.Carried (d.Genuine net₀ (tr ++ [(net, .submit env traceParent txn respTarget)])) [] cur rest :=
        ⟨by simp, submitted.carries⟩
      exact start.wire
    · rw [delivered.stores]
      exact held.cached
    · rw [delivered.ramDbs]
      exact held.stored
  | consume tp env logic =>
    obtain ⟨p, before, after, done, cur, ahead, consumed⟩ := consume_fate h.messages.sound hs
    have place : tp.concern = cur.concern := consumed.sent.concern.symm
    have known : ∀ {call rslt adds}, Handled d net tp env logic p cur (d.outcome net tp env logic p) call rslt adds →
        d.cc.Given (d.Genuine net₀ (tr ++ [(net, .consume tp env logic)])) env call rslt :=
      fun handled => h.given lossless keeps consumed handled
    have cached : ∀ {call rslt adds}, Handled d net tp env logic p cur (d.outcome net tp env logic p) call rslt adds →
        (net.stores tp).All (d.cc.Reads (d.Genuine net₀ (tr ++ [(net, .consume tp env logic)])) call.concern) := by
      intro call rslt adds handled
      rw [handled.callFor.concern, ← place]
      exact held.cached tp
    refine ⟨held.messages.consume consumed fun {m done' cur' ahead'} carried arrival => ?_, ?_, ?_⟩
    · have left : ∀ {call r adds}, Handled d net tp env logic p cur (d.outcome net tp env logic p) call (some r) adds → r.code = .ok →
          ∀ s ∈ done ++ [d.doneStep net tp cur r], ∀ r', s.result = some r' →
            d.cc.Leaves (d.Genuine net₀ (tr ++ [(net, .consume tp env logic)])) s r' := by
        intro call r adds handled isOk s hs r' result
        rcases List.mem_append.1 hs with hs | hs
        · exact carried.behind s hs r' result
        rw [List.mem_singleton.1 hs] at result ⊢
        rw [doneStep_result] at result
        cases result
        have callFor := handled.callFor
        rw [← callFor.payload]
        exact commandEffect_leaves handled.effect isOk lossless lawful (known handled) (cached handled)
          ((doneStep_system r).trans callFor.system.symm) ((doneStep_concern r).trans callFor.concern.symm)
          ((doneStep_command r).trans callFor.command.symm) ((doneStep_key r).trans callFor.key.symm)
      cases arrival with
      | read => exact (carried.miss ⟨by simp, by simp, by simp, by simp, by simp⟩).wire
      | next q call r adds nextStep tail handled isOk follows =>
        have added := commandEffect_carries handled.effect lossless (fun _ _ _ val => val.keyed) (known handled) held.stored
        have front : ∀ s ∈ nextStep :: tail, d.cc.Carries (d.Genuine net₀ (tr ++ [(net, .consume tp env logic)])) s := by
          rw [← follows]
          intro s hs
          exact (List.mem_append.1 hs).elim (added s) fun hs => carried.front s (List.mem_cons_of_mem _ hs)
        have next : d.cc.Carried (d.Genuine net₀ (tr ++ [(net, .consume tp env logic)])) (done ++ [d.doneStep net tp cur r])
            (nextStepOf (d.doneStep net tp cur r) nextStep (d.offset net tp)) tail := by
          refine ⟨left handled isOk, fun s hs => ?_⟩
          rcases List.mem_cons.1 hs with rfl | hs
          · exact (front nextStep List.mem_cons_self).next
          · exact front s (List.mem_cons_of_mem _ hs)
        exact next.wire
      | child call r adds step i handled isOk _ generates =>
        have alone : d.cc.Carried (d.Genuine net₀ (tr ++ [(net, .consume tp env logic)])) [] step [] := by
          refine ⟨by simp, fun s hs => ?_⟩
          rw [List.mem_singleton.1 hs]
          exact generates_carries (left handled isOk) generates
        exact alone.wire
    · intro t
      rcases consumed.stores t with same | ⟨rfl, same | same⟩
      · rw [same]
        exact held.cached t
      · rw [same]
        intro key b found
        cases found
      · rw [same]
        cases consumed.fate with
        | rejected state | missed _ _ _ _ state =>
          rw [state]
          exact held.cached t
        | failed call _ _ handled | next call _ _ _ _ handled | completed call _ _ _ _ handled =>
          rw [place, ← handled.callFor.concern]
          exact commandEffect_reads handled.effect (known handled) (cached handled)
    · intro type
      rw [consumed.ramDbs]
      cases consumed.fate with
      | rejected state | missed _ _ _ _ state =>
        rw [state]
        exact held.stored type
      | failed _ _ _ handled | next _ _ _ _ _ handled | completed _ _ _ _ _ handled =>
        exact commandEffect_stored handled.effect (fun _ _ _ val => val.keyed) (known handled) held.stored type

/-- And every run. -/
theorem Deployment.WellKept.run (start : d.WellKept net₀) (lossless : d.cc.LosslessMessages) (lawful : d.cc.pb.Lawful)
    (run : Path d.step net₀ tr net) (keeps : ∀ e ∈ tr, d.KeepsKeys e.2) : d.Traced net₀ tr net :=
  run.invariant_trace (fun _ _ a => d.KeepsKeys a) start.traced (fun _ _ _ _ keeps held hs => held.step lossless lawful keeps hs)
    fun front e back split => keeps e (by simp [split])

/-- All that is held after a run, and all that commands are given in it, is genuine. -/
structure Deployment.NothingMadeUp (d : Deployment M) (net₀ : Net M) (tr : List (Net M × Action M)) (net : Net M) : Prop where
  cached : ∀ tp, (net.stores tp).All (d.cc.Reads (d.Genuine net₀ tr) tp.concern)
  stored : ∀ type, (net.ramDbs type).All (d.Genuine net₀ tr)
  given : ∀ front e back call rslt b, tr = front ++ e :: back → d.called e.1 e.2 = some (call, rslt) → call.args.inst = some b →
    d.cc.Reads (d.Genuine net₀ front) call.concern call.args.key b

/-- Whatever is submitted, and in whatever order messages are read. -/
theorem nothing_made_up (start : d.WellKept net₀) (lossless : d.cc.LosslessMessages) (lawful : d.cc.pb.Lawful)
    (run : Path d.step net₀ tr net) (keeps : ∀ e ∈ tr, d.KeepsKeys e.2) : d.NothingMadeUp net₀ tr net := by
  have whole := start.run lossless lawful run keeps
  refine ⟨whole.cached, whole.stored, fun front e back call rslt b split called given => ?_⟩
  subst split
  obtain ⟨first, after, hs, -⟩ := run.split
  have held := start.run lossless lawful first fun e' he' => keeps e' (List.mem_append_left _ he')
  obtain ⟨tp, env, logic, p, before, behind, done, cur, ahead, adds, -, consumed, handled⟩ :=
    called_handled held.messages.sound hs called
  have callFor := handled.callFor
  rw [callFor.inst, instanceFor] at given
  split at given
  · rw [callFor.concern, callFor.key, consumed.sent.concern]
    exact held.cached tp cur.key b given
  · cases given

end

/-! ## Players and guilds -/

def Deployment.guilds : Deployment Bytes :=
  { Deployment.single with
    cc := .guilds, names := by decide +kernel, primary_found := by decide +kernel, secondary_found := by decide +kernel }

theorem guilds_lossless : ClientCode.guilds.LosslessMessages := by
  have codec : ∀ codec : Codec Bytes, codec = ⟨.ok, .ok⟩ → codec.Lossless := by
    rintro _ rfl a b ⟨⟩
    rfl
  intro cnc hcnc
  simp only [ClientCode.guilds, List.mem_cons, List.not_mem_nil, or_false] at hcnc
  rcases hcnc with rfl | rfl
  · refine ⟨codec _ rfl, codec _ rfl, ?_⟩
    intro cmd hcmd output houtput
    rw [List.mem_singleton.1 hcmd] at houtput
    exact codec output (Option.some.inj houtput).symm
  · exact ⟨codec _ rfl, codec _ rfl, by simp [guildConcern]⟩

/-- The sample commands leave the first byte alone. -/
theorem sampleLogic_keepsKeys (tp : TopicPartition) (env : Env) : Deployment.guilds.KeepsKeys (.consume tp env sampleLogic) := by
  intro cnc found name inst rel input inst' output keyed ran
  have message : ∃ name, cnc.toMessageType = sampleMessage name := by
    have mem := List.mem_of_find?_eq_some found
    simp only [Deployment.guilds, ClientCode.guilds, List.mem_cons, List.not_mem_nil, or_false] at mem
    rcases mem with rfl | rfl
    · exact ⟨"Player", rfl⟩
    · exact ⟨"Guild", rfl⟩
  obtain ⟨name', message⟩ := message
  rw [message] at keyed ⊢
  cases ran
  cases inst with
  | nil => exact absurd rfl keyed
  | cons b bs => simp [sampleMessage]

theorem nothing_made_up_twoSets :
    Deployment.guilds.NothingMadeUp knownPlayer (trace Deployment.guilds.step knownPlayer twoSets)
      (after Deployment.guilds.step knownPlayer twoSets) := by
  have player : Deployment.guilds.cc.concernHandler "Player" = some (sampleConcern "Player") := rfl
  have start : Deployment.guilds.WellKept knownPlayer := by
    refine ⟨rfl, knownPlayer_filed player, fun tp key b found => ?_⟩
    simp only [knownPlayer, Net.sample, InstanceStore.getInstance, InstanceStore.get] at found
    split at found
    · rename_i rec stored
      split at stored
      · rename_i here
        cases stored
        cases found
        rw [here.1, here.2]
        refine ⟨_, [107, 1], player, rfl, ?_⟩
        rintro cnc ⟨⟩
        decide +kernel
      · cases stored
    · cases found
  have run : (runs Deployment.guilds.step knownPlayer twoSets).isSome = true := by decide +kernel
  refine nothing_made_up start guilds_lossless relatedCodecs_lawful (path_after run) fun e he => ?_
  have acts : e.2 ∈ twoSets := by
    rw [← trace_actions (Option.some_get run).symm]
    exact List.mem_map_of_mem he
  simp only [twoSets, List.mem_cons, List.not_mem_nil, or_false] at acts
  rcases acts with h | h | h | h | h <;> rw [h]
  · trivial
  · trivial
  all_goals exact sampleLogic_keepsKeys _ _

end Rocketcycle
