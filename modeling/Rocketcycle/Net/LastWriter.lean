import Rocketcycle.Apecs.Advance
import Rocketcycle.Concern.StoreWrites
import Rocketcycle.Net.Deployment

/-!
# The instance store of a process consumer

A consumer that reads the messages of a process topic in the order of their offsets: every write of
its commands takes effect, so that the store is the map that these writes alone would make.
-/

namespace Rocketcycle

open Command

variable {M : Type}

/-- A message of a process topic, with what surrounds its consumption. -/
structure ProcessMessage (M : Type) where
  env : Env
  logic : LogicHandler M
  rtxn : RtApecsTxn
  cmpdOffset : CompoundOffset

section
variable (cc : ClientCode M) (storageTarget : String) (tp : TopicParts)

def consumeProcess (plat : Platform M) (m : ProcessMessage M) : Outcome (Platform M) :=
  advanceApecsTxn m.env cc.pb Platform.instanceStore (handleCommand cc m.env m.logic) plat storageTarget m.rtxn tp
    m.cmpdOffset

/-- The write of a call of `handleCommand`. -/
def callWrite (logic : LogicHandler M) (call : Call) (store : InstanceStore) : Option StoreCall :=
  (cc.concernHandler call.concern).bind fun cnc => cnc.write cc.pb logic call store

/-- The write that a message leads to. -/
def messageWrite (plat : Platform M) (m : ProcessMessage M) : Option StoreCall :=
  (consumeProcess cc storageTarget tp plat m).call.bind fun call => callWrite cc m.logic call.1 plat.instanceStore

def consumeAll (plat : Platform M) (ms : List (ProcessMessage M)) : Platform M :=
  ms.foldl (fun plat m => (consumeProcess cc storageTarget tp plat m).state) plat

/-- The writes that the messages lead to, each with the store it meets. -/
def messageWrites (plat : Platform M) : List (ProcessMessage M) → List (InstanceStore × StoreCall)
  | [] => []
  | m :: ms =>
    ((messageWrite cc storageTarget tp plat m).map fun c => (plat.instanceStore, c)).toList ++
      messageWrites (consumeProcess cc storageTarget tp plat m).state ms

end

/-! ## What a command finds -/

section
variable {σ : Type} {env : Env} {pb : RelatedCodecs} {instanceStore : σ → InstanceStore}
  {handle : HandleCommand σ} {s : σ} {storageTarget : String} {rtxn : RtApecsTxn} {tp : TopicParts}
  {cmpdOffset : CompoundOffset}

/-- A call that a process step leads to: at the offset of the message, and with the instance that the
store has, unless the command keeps the store itself or has no key. -/
structure CalledAt (store : InstanceStore) (cmpdOffset : CompoundOffset) (call : Call) : Prop where
  offset : call.args.cmpdOffset = cmpdOffset
  found : call.command ≠ refreshInstance → call.command ≠ flushInstance → call.command ≠ validateCreate →
    call.args.inst.isSome = true ∧ store.getInstance call.args.key = call.args.inst

/-- The platform after a message is the one its command has left. -/
inductive Leaves (handle : HandleCommand σ) (instanceStore : σ → InstanceStore) (s : σ) (cmpdOffset : CompoundOffset) :
    Outcome σ → Prop
  | same {out : Outcome σ} (state : out.state = s) (call : out.call = none) : Leaves handle instanceStore s cmpdOffset out
  | ran {out : Outcome σ} (call : Call) (rslt : Option StepResult) (called : out.call = some (call, rslt))
      (state : out.state = (handle call s).2) (at' : CalledAt (instanceStore s) cmpdOffset call) :
      Leaves handle instanceStore s cmpdOffset out

theorem advanceResult_leaves {s' : σ} {step : Step} {call : Call} {rslt : Option StepResult} {addSteps : List Step} :
    (advanceResult env pb instanceStore s' rtxn tp step call rslt addSteps cmpdOffset).state = s' ∧
      ∃ r, (advanceResult env pb instanceStore s' rtxn tp step call rslt addSteps cmpdOffset).call = some (call, r) := by
  unfold advanceResult
  dsimp only
  split
  · split
    · exact ⟨rfl, _, rfl⟩
    · exact ⟨rfl, _, rfl⟩
  · split
    · exact ⟨rfl, _, rfl⟩
    · split
      · exact ⟨rfl, _, rfl⟩
      · split
        · exact ⟨rfl, _, rfl⟩
        · exact ⟨rfl, _, rfl⟩

theorem advanceMiss_same {step : Step} :
    (advanceMiss env s rtxn step cmpdOffset).state = s ∧ (advanceMiss env s rtxn step cmpdOffset).call = none := by
  unfold advanceMiss
  dsimp only
  split
  · split
    · exact ⟨rfl, rfl⟩
    · exact ⟨rfl, rfl⟩
  · split
    · exact ⟨rfl, rfl⟩
    · exact ⟨rfl, rfl⟩
    · split
      · exact ⟨rfl, rfl⟩
      · exact ⟨rfl, rfl⟩

theorem advanceKeyed_leaves {step : Step} (process : step.system = .process) :
    Leaves handle instanceStore s cmpdOffset
      (advanceKeyed env pb instanceStore handle s storageTarget rtxn tp step cmpdOffset) := by
  have keyed : (if step.system = .process then { step with cmpdOffset := some cmpdOffset } else step) =
      step.keyed step.key cmpdOffset := by
    unfold Step.keyed
    split <;> rfl
  have looks : (step.system = .process && !step.isKeylessStep && !step.isInstanceStoreStep) = step.looksUp := rfl
  have given : (if step.looksUp then (instanceStore s).getInstance step.key else none) =
      instanceFor (instanceStore s) step step.key := rfl
  unfold advanceKeyed
  simp only [keyed, keyed_system, keyed_isKeylessStep, keyed_isInstanceStoreStep, keyed_key, keyed_command,
    keyed_concern, keyed_payload, keyed_effectiveTime, looks, given, keyed_process_offset process]
  split
  · exact .same advanceMiss_same.1 advanceMiss_same.2
  rename_i hit
  split
  · exact .same rfl rfl
  obtain ⟨state, r, called⟩ := advanceResult_leaves
  refine .ran _ r called state ⟨rfl, ?_⟩
  intro notRefresh notFlush notValidate
  have lookedUp : step.looksUp = true := by
    change step.command ≠ refreshInstance at notRefresh
    change step.command ≠ flushInstance at notFlush
    change step.command ≠ validateCreate at notValidate
    simp [Step.looksUp, Step.isKeylessStep, Step.isInstanceStoreStep, process, notRefresh, notFlush, notValidate]
  have found : instanceFor (instanceStore s) step step.key = (instanceStore s).getInstance step.key := by
    rw [instanceFor, if_pos lookedUp]
  simp only [lookedUp, Bool.true_and, Option.isNone_iff_eq_none] at hit
  exact ⟨Option.isSome_iff_ne_none.2 hit, found.symm⟩

theorem advance_leaves (process : tp.system = .process) :
    Leaves handle instanceStore s cmpdOffset
      (advanceApecsTxn env pb instanceStore handle s storageTarget rtxn tp cmpdOffset) := by
  unfold advanceApecsTxn
  split
  · exact .same rfl rfl
  rename_i step _
  dsimp only
  split
  · exact .same rfl rfl
  split
  · exact .same rfl rfl
  split
  · exact .same rfl rfl
  rename_i system
  rw [not_not, process] at system
  split
  · exact .same rfl rfl
  · exact .same rfl rfl
  · exact advanceKeyed_leaves system

end

/-! ## What it writes -/

section
variable {pb : RelatedCodecs} {cnc : Concern M} {logic : LogicHandler M} {args : StepArgs} {call : Call}
  {store : InstanceStore} {direction : Direction} {c : StoreCall} {cmpdOffset : CompoundOffset}

/-- A write goes to the key of the step, at its offset. The related data is written alone by the
related commands only. -/
inductive WritesFor (command : String) (args : StepArgs) : StoreCall → Prop
  | set (inst related : Option Bytes) : WritesFor command args (.set args.key inst related args.cmpdOffset)
  | setInstance (inst : Option Bytes) : WritesFor command args (.setInstance args.key inst args.cmpdOffset)
  | setRelated (related : Option Bytes) (cmd : command = requestRelated ∨ command = refreshRelated) :
      WritesFor command args (.setRelated args.key related args.cmpdOffset)
  | remove : WritesFor command args (.remove args.key)

theorem writesFor_bind {α : Type} {command : String} {x : Option α} {w : α → Option StoreCall}
    (h : ∀ a, w a = some c → WritesFor command args c) (hc : (x >>= w) = some c) : WritesFor command args c := by
  obtain ⟨a, -, ha⟩ := Option.bind_eq_some_iff.1 hc
  exact h a ha

theorem writesFor_related {command : String} {related : Option Bytes} {changed : Bool}
    (cmd : command = requestRelated ∨ command = refreshRelated)
    (h : (if changed then some (StoreCall.setRelated args.key related args.cmpdOffset) else none) = some c) :
    WritesFor command args c := by
  split at h
  · cases h
    exact .setRelated related cmd
  · cases h

theorem refreshInstanceWrite_for {command : String} (h : Logic.refreshInstanceWrite pb cnc args store = some c) :
    WritesFor command args c := by
  revert h
  apply writesFor_bind
  rintro ⟨instBytes, relBytes⟩
  apply writesFor_bind
  intro rel
  apply writesFor_bind
  intro relSteps h
  cases h
  exact .set instBytes _

theorem flushInstanceWrite_for {command : String} (h : Logic.flushInstanceWrite args store = some c) :
    WritesFor command args c := by
  revert h
  apply writesFor_bind
  intro packed h
  split at h
  · cases h
    exact .remove
  · cases h

theorem requestRelatedWrite_for (h : Logic.requestRelatedWrite pb cnc args store = some c) :
    WritesFor requestRelated args c := by
  revert h
  apply writesFor_bind
  intro relReq
  apply writesFor_bind
  rintro ⟨rel, _⟩
  apply writesFor_bind
  rintro ⟨rel', changed⟩
  apply writesFor_bind
  intro relBytes
  apply writesFor_bind
  intro relPayload
  exact writesFor_related (.inl rfl)

theorem refreshRelatedWrite_for (h : Logic.refreshRelatedWrite pb cnc args store = some c) :
    WritesFor refreshRelated args c := by
  revert h
  apply writesFor_bind
  intro relRsp
  apply writesFor_bind
  rintro ⟨rel, _⟩
  apply writesFor_bind
  rintro ⟨rel', changed⟩
  apply writesFor_bind
  intro relBytes
  exact writesFor_related (.inr rfl)

theorem commandWrite_for {command : String} {cmd : ConcernCommand M}
    (h : Logic.commandWrite pb cnc logic args store cmd = some c) : WritesFor command args c := by
  revert h
  apply writesFor_bind
  intro instBytes
  apply writesFor_bind
  intro inst
  apply writesFor_bind
  rintro ⟨rel, _⟩
  apply writesFor_bind
  intro payloadIn
  apply writesFor_bind
  rintro ⟨inst', payloadOut⟩
  apply writesFor_bind
  intro output
  apply writesFor_bind
  intro instSer h
  split at h
  · revert h
    apply writesFor_bind
    rintro ⟨rel', relBytes⟩
    apply writesFor_bind
    intro relSteps h
    cases h
    exact .setInstance _
  · cases h

theorem write_for (h : cnc.write pb logic call store = some c) : WritesFor call.command call.args c := by
  unfold Concern.write at h
  split at h
  · cases h
  unfold Logic.write at h
  split at h
  · exact refreshInstanceWrite_for h
  split at h
  · exact flushInstanceWrite_for h
  split at h
  · cases h
  split at h
  · rename_i cmd
    rw [cmd]
    exact requestRelatedWrite_for h
  split at h
  · rename_i cmd
    rw [cmd]
    exact refreshRelatedWrite_for h
  split at h
  · cases h
  · obtain ⟨cmd, -, hc⟩ := Option.bind_eq_some_iff.1 h
    exact commandWrite_for hc

theorem WritesFor.offset {command : String} (h : WritesFor command args c) :
    ∀ o, c.cmpdOffset = some o → o = args.cmpdOffset := by
  cases h with
  | set inst related =>
    rintro o ⟨⟩
    rfl
  | setInstance inst =>
    rintro o ⟨⟩
    rfl
  | setRelated related cmd =>
    rintro o ⟨⟩
    rfl
  | remove => rintro o ⟨⟩

/-- A write of a step that is newer than the store takes effect. -/
theorem WritesFor.inOrder (h : WritesFor call.command call.args c) (called : CalledAt store cmpdOffset call)
    (newer : store.Below fun o => offsetGT cmpdOffset o = true) : ¬c.Rejected store ∧ ¬c.Fails store := by
  constructor
  · rintro ⟨rec, o, held, offset, older⟩
    rw [h.offset o offset, called.offset, newer _ rec held] at older
    cases older
  · rintro ⟨e, he⟩
    cases h with
    | set inst related => cases he
    | setInstance inst => cases he
    | remove => cases he
    | setRelated related cmd =>
      -- the step was given an instance, so that there is a record
      have found := by
        apply called.found <;> (rcases cmd with cmd | cmd <;> (rw [cmd]; decide))
      obtain ⟨inst, hinst⟩ := Option.isSome_iff_exists.1 found.1
      obtain ⟨rec, held, -⟩ := InstanceStore.getInstance_eq_some.1 (found.2.trans hinst)
      have fresh : offsetGT call.args.cmpdOffset rec.cmpdOffset = true := by
        rw [called.offset]
        exact newer _ rec held
      change store.setRelated call.args.key related call.args.cmpdOffset = .error e at he
      rw [InstanceStore.setRelated_fresh held fresh] at he
      cases he

end

/-! ## Runs -/

section
variable {cc : ClientCode M} {storageTarget : String} {tp : TopicParts} {plat : Platform M}

theorem handleCommand_write (env : Env) (logic : LogicHandler M) (call : Call) :
    (handleCommand cc env logic call plat).2.instanceStore =
      written plat.instanceStore (callWrite cc logic call plat.instanceStore) := by
  unfold handleCommand callWrite
  cases cc.concernHandler call.concern with
  | none => rfl
  | some cnc =>
    dsimp only [Option.bind_some]
    by_cases process : call.system = .process
    · rw [if_pos process]
      exact handleLogicCommand_write env call
    · have nothing : cnc.write cc.pb logic call plat.instanceStore = none := by simp [Concern.write, process]
      rw [if_neg process, nothing]
      split
      · unfold Concern.handleCrudCommand
        split
        · rfl
        split
        · rfl
        split
        · rfl
        split
        · rfl
        · rfl
      · rfl

/-- What one message does to the store. -/
theorem message_write {m : ProcessMessage M} (process : tp.system = .process)
    (newer : plat.instanceStore.Below fun o => offsetGT m.cmpdOffset o = true) :
    (consumeProcess cc storageTarget tp plat m).state.instanceStore =
        written plat.instanceStore (messageWrite cc storageTarget tp plat m) ∧
      ∀ c, messageWrite cc storageTarget tp plat m = some c →
        (¬c.Rejected plat.instanceStore ∧ ¬c.Fails plat.instanceStore) ∧
          ∀ o, c.cmpdOffset = some o → o = m.cmpdOffset := by
  have leaves : Leaves (handleCommand cc m.env m.logic) Platform.instanceStore plat m.cmpdOffset
      (consumeProcess cc storageTarget tp plat m) := advance_leaves process
  unfold messageWrite
  cases leaves with
  | same state call =>
    rw [state, call]
    refine ⟨rfl, ?_⟩
    rintro c ⟨⟩
  | ran call rslt called state at' =>
    rw [state, called]
    refine ⟨handleCommand_write m.env m.logic call, ?_⟩
    intro c hc
    change callWrite cc m.logic call plat.instanceStore = some c at hc
    obtain ⟨cnc, -, hw⟩ := Option.bind_eq_some_iff.1 hc
    have writes := write_for hw
    refine ⟨writes.inOrder at' newer, ?_⟩
    intro o ho
    rw [writes.offset o ho, at'.offset]

/-- Messages in the order of their offsets: no write is rejected and none fails, and the store is what
the writes make of a map. -/
theorem consumeAll_writes {ms : List (ProcessMessage M)} (process : tp.system = .process)
    (increasing : ms.Pairwise fun m m' => offsetGT m'.cmpdOffset m.cmpdOffset = true)
    (newer : plat.instanceStore.Below fun o => ∀ m ∈ ms, offsetGT m.cmpdOffset o = true) :
    (∀ w ∈ messageWrites cc storageTarget tp plat ms, ¬w.2.Rejected w.1 ∧ ¬w.2.Fails w.1) ∧
      (consumeAll cc storageTarget tp plat ms).instanceStore.contents =
        (messageWrites cc storageTarget tp plat ms).foldl (fun contents w => w.2.assign contents)
          plat.instanceStore.contents := by
  induction ms generalizing plat with
  | nil => exact ⟨by rintro w ⟨⟩, rfl⟩
  | cons m ms ih =>
    obtain ⟨later, increasing⟩ := List.pairwise_cons.1 increasing
    have here : plat.instanceStore.Below fun o => offsetGT m.cmpdOffset o = true :=
      fun key rec held => newer key rec held m List.mem_cons_self
    obtain ⟨state, taken⟩ : (consumeProcess cc storageTarget tp plat m).state.instanceStore =
        written plat.instanceStore (messageWrite cc storageTarget tp plat m) ∧ _ := message_write process here
    have newer' : (consumeProcess cc storageTarget tp plat m).state.instanceStore.Below
        fun o => ∀ m' ∈ ms, offsetGT m'.cmpdOffset o = true := by
      have before : plat.instanceStore.Below fun o => ∀ m' ∈ ms, offsetGT m'.cmpdOffset o = true :=
        fun key rec held m' hm' => newer key rec held m' (List.mem_cons_of_mem _ hm')
      rw [state]
      cases hw : messageWrite cc storageTarget tp plat m with
      | none => exact before
      | some c =>
        apply StoreCall.below_after before
        intro o ho m' hm'
        rw [(taken c hw).2 o ho]
        exact later m' hm'
    obtain ⟨all, contents⟩ := ih increasing newer'
    have first : (consumeProcess cc storageTarget tp plat m).state.instanceStore.contents =
        (((messageWrite cc storageTarget tp plat m).map fun c => (plat.instanceStore, c)).toList).foldl
          (fun contents w => w.2.assign contents) plat.instanceStore.contents := by
      rw [state]
      cases hw : messageWrite cc storageTarget tp plat m with
      | none => rfl
      | some c => exact StoreCall.contents_after (taken c hw).1.1 (taken c hw).1.2
    constructor
    · intro w hw
      rcases List.mem_append.1 hw with hw | hw
      · obtain ⟨c, hc, rfl⟩ := Option.map_eq_some_iff.1 (Option.mem_toList.1 hw)
        exact (taken c hc).1
      · exact all w hw
    · rw [messageWrites, List.foldl_append, ← first]
      exact contents

/-- The store keeps, of every key, the writes in the order of their offsets: a call that is out of order
or fails changes nothing, and the offset of a record does not decrease until it is removed. Where the
calls are those of messages in order, there is no such call, and the store is a map. -/
theorem lastWriter (cc : ClientCode M) (storageTarget : String) (process : tp.system = .process)
    (ramDbs : String → RamDb M) {ms : List (ProcessMessage M)}
    (increasing : ms.Pairwise fun m m' => offsetGT m'.cmpdOffset m.cmpdOffset = true) :
    (∀ store (c : StoreCall), c.Keeps store) ∧
      (∀ store calls key rec, store key = some rec → (∀ c ∈ calls, c ≠ StoreCall.remove key) →
        ∃ rec', StoreCall.afterAll store calls key = some rec' ∧ offsetGT rec.cmpdOffset rec'.cmpdOffset = false) ∧
      (∀ w ∈ messageWrites cc storageTarget tp ⟨InstanceStore.new, ramDbs⟩ ms, ¬w.2.Rejected w.1 ∧ ¬w.2.Fails w.1) ∧
      (consumeAll cc storageTarget tp ⟨InstanceStore.new, ramDbs⟩ ms).instanceStore.contents =
        (messageWrites cc storageTarget tp ⟨InstanceStore.new, ramDbs⟩ ms).foldl
          (fun contents w => w.2.assign contents) (fun _ => none) := by
  have newer : (Platform.mk InstanceStore.new ramDbs).instanceStore.Below
      fun o => ∀ m ∈ ms, offsetGT m.cmpdOffset o = true := by
    rintro key rec ⟨⟩
  refine ⟨StoreCall.keeps, ?_, consumeAll_writes process increasing newer⟩
  intro store calls key rec held stays
  obtain ⟨rec', held', le⟩ := StoreCall.offset_afterAll held stays
  refine ⟨rec', held', ?_⟩
  rw [← Bool.not_eq_true, offsetGT_iff, not_lt]
  exact le

/-- A refresh, a command that changes the instance, and a flush. -/
def sampleMessages : List (ProcessMessage Bytes) :=
  let message (command : String) (payload : Option Bytes) (offset : Int) : ProcessMessage Bytes :=
    { env := Env.sample, logic := sampleLogic, cmpdOffset := ⟨1, 0, offset⟩,
      rtxn := ⟨{ id := "t", uponError := .report,
                 forwardSteps := [{ system := .process, concern := "Player", command := command, key := "k",
                                    payload := payload }] }, sampleTraceParent⟩ }
  [message refreshInstance (some [107, 1]) 0, message "Set" (some [2]) 1, message flushInstance none 2]

theorem lastWriter_sample :
    let plat : Platform Bytes := ⟨InstanceStore.new, fun _ => RamDb.new⟩
    let writes := messageWrites ClientCode.sample "first" ⟨"Player", .process, 1⟩ plat sampleMessages
    writes.map Prod.snd = [.set "k" (some [107, 1]) none ⟨1, 0, 0⟩, .setInstance "k" (some [107, 2]) ⟨1, 0, 1⟩,
        .remove "k"] ∧
      (∀ w ∈ writes, ¬w.2.Rejected w.1 ∧ ¬w.2.Fails w.1) ∧
      (consumeAll ClientCode.sample "first" ⟨"Player", .process, 1⟩ plat sampleMessages).instanceStore.contents =
        writes.foldl (fun contents w => w.2.assign contents) (fun _ => none) := by
  have process : (TopicParts.mk "Player" .process 1).system = .process := rfl
  have increasing : sampleMessages.Pairwise fun m m' => offsetGT m'.cmpdOffset m.cmpdOffset = true := by decide
  exact ⟨by decide +kernel, (lastWriter ClientCode.sample "first" process (fun _ => RamDb.new) increasing).2.2⟩

end

end Rocketcycle
