import Rocketcycle.Apecs.Children
import Rocketcycle.Net.Failure
import Rocketcycle.Net.LoneCommand

/-!
# Messages that are read twice

A message that is read again after a crash is handled again: nothing remembers what has been
applied. What the redelivery of a user's command leaves behind is the result of applying it once
or more times, and of nothing else.
-/

namespace Rocketcycle

open Command Runs Relation

variable {M : Type}

namespace LoneCommand

variable {d : Deployment M} {logic : LogicHandler M} {net₀ : Net M}

/-! ## The messages that follow -/

section
variable {lone : LoneCommand d logic net₀} {S S' : Prop} {net net' : Net M} {tp : TopicPartition} {env : Env}
  {p : Publication} {done ahead : List Step} {cur : Step} {next next' : TopicPartition → Nat}
  {out : Outcome (Platform M)} {call : Call} {adds : List Step}

/-- A process step on the key is read by the key's consumer. -/
theorem owner_eq (sent : Sent d next (tp, p) done cur ahead) (system : cur.system = .process)
    (concern : cur.concern = lone.cnc.name) (key : cur.key = lone.step.key) (notValidation : cur.command ≠ validateCreate) :
    tp = lone.owner := by
  have keyless : cur.isKeylessStep = false := by simp [Step.isKeylessStep, system, notValidation]
  have hashKey : p.hashKey = stringBytes cur.key := sent.hashKey keyless
  have hc : tp.concern = lone.cnc.name := sent.concern.symm.trans concern
  have hs : tp.system = .process := sent.system.symm.trans system
  have part : tp.partition = fnv64Hash p.hashKey (d.partitions tp.concern tp.system) := sent.partition
  rw [hashKey, key, hc, hs] at part
  obtain ⟨c, sys, n⟩ := tp
  simp only at hc hs part
  simp [owner, Deployment.partitionOf, hc, hs, part]

/-- What the command is given is the cached instance, and what it makes of that is a result. -/
theorem applied_result {inst inst' rel : M} {input : Option M} {old : Bytes} (pending : lone.Ahead S cur)
    (command : cur.command = lone.step.command) (cached : lone.Cached S (net.stores tp)) (key : cur.key = lone.step.key)
    (callFor : CallFor call cur (instanceFor (net.stores tp) cur cur.key)) (given : call.args.inst = some old)
    (parsed : lone.cnc.unmarshal old = .ok inst) (parse : lone.cmd.parse call.args.payload = .ok input)
    (applied : logic.apply lone.cmd.name inst rel input = some inst') :
    lone.Current S inst ∧ lone.cmd.Applies logic lone.payload inst inst' := by
  have current : lone.Current S inst := by
    rw [callFor.inst] at given
    unfold instanceFor at given
    split at given
    · obtain ⟨rec, hrec, hb⟩ := InstanceStore.getInstance_eq_some.1 given
      rw [key] at hrec
      obtain ⟨inst'', parsed', hcurrent⟩ := cached rec old hrec hb
      rw [parsed] at parsed'
      cases parsed'
      exact hcurrent
    · cases given
  refine ⟨current, rel, input, ?_, applied⟩
  have free := mem_stored_command lone
  rw [callFor.payload] at parse
  have same : lone.cmd.input = none ∨ cur.payload = wireBytes lone.payload := by
    cases pending with
    | command _ _ _ _ payload => exact payload
    | read _ _ hread => exact absurd (command.symm.trans hread) (free _ (by simp [reservedCommands]))
    | readStorage _ hread => exact absurd (command.symm.trans hread) (free _ (by simp [reservedCommands]))
    | refreshInstance _ hrefresh => exact absurd (command.symm.trans hrefresh) (free _ (by simp [reservedCommands]))
    | refreshRelated _ hrefresh => exact absurd (command.symm.trans hrefresh) (free _ (by simp [reservedCommands]))
  unfold ConcernCommand.parse at parse ⊢
  cases hinput : lone.cmd.input with
  | none =>
    rw [hinput] at parse
    exact parse
  | some codec =>
    rw [hinput] at parse same
    have payload : cur.payload = wireBytes lone.payload := by simpa using same
    rw [payload] at parse
    dsimp only at parse ⊢
    rwa [unmarshalOpt_wire] at parse

theorem Ahead.storage (pending : lone.Ahead S cur) (system : cur.system ≠ .process) :
    cur.system = .storage ∧ cur.command = Command.read := by
  cases pending with
  | command hs => exact absurd hs system
  | read hs => exact absurd hs system
  | readStorage hs command => exact ⟨hs, command⟩
  | refreshInstance hs => exact absurd hs system
  | refreshRelated hs => exact absurd hs system

theorem Ahead.notValidation (pending : lone.Ahead S cur) : cur.command ≠ validateCreate := by
  cases pending with
  | command _ _ command => rw [command]; exact mem_stored_command lone _ (by simp [reservedCommands])
  | read _ _ command => rw [command]; decide
  | readStorage _ command => rw [command]; decide
  | refreshInstance _ command => rw [command]; decide
  | refreshRelated _ command => rw [command]; decide

/-- A process step on the concern of the command is one on its key. -/
theorem Ahead.own (pending : lone.Ahead S cur) (system : cur.system = .process) (concern : cur.concern = lone.cnc.name) :
    cur.key = lone.step.key ∧ cur.command ≠ Command.requestRelated ∧ cur.command ≠ Command.refreshRelated := by
  have free := mem_stored_command lone
  cases pending with
  | command _ _ command key =>
    exact ⟨key, by rw [command]; exact free _ (by simp [reservedCommands]),
      by rw [command]; exact free _ (by simp [reservedCommands])⟩
  | read _ _ command key => exact ⟨key, by rw [command]; decide, by rw [command]; decide⟩
  | readStorage storage => rw [system] at storage; cases storage
  | refreshInstance _ command own => exact ⟨(own concern).1, by rw [command]; decide, by rw [command]; decide⟩
  | refreshRelated _ _ elsewhere => exact absurd concern elsewhere

/-- A step that has succeeded, as it stays behind. -/
theorem done_behind {r : StepResult} (sent : Sent d next (tp, p) done cur ahead) (pending : lone.Ahead S cur)
    (cached : lone.Cached S (net.stores lone.owner)) (read : net₀.next lone.owner ≤ net.next lone.owner)
    (did : lone.Did S cur call.args (some r) adds (Deployment.platform net tp) out.state)
    (handled : Handled d net tp env logic p cur out call (some r) adds) (isOk : r.code = .ok) :
    lone.Behind (d.doneStep net tp cur r) := by
  refine ⟨by rw [doneStep_concern]; exact handled_name handled isOk, ?_, fun concern system => ?_⟩
  · intro system
    rw [doneStep_system] at system ⊢
    rw [doneStep_command]
    exact pending.storage system
  rw [doneStep_concern] at concern
  rw [doneStep_system] at system
  obtain ⟨key, notRequest, notRefresh⟩ := pending.own system concern
  have owner := owner_eq sent system concern key pending.notValidation
  refine ⟨by simpa using key, by simpa using notRequest, by simpa using notRefresh, ?_, ?_⟩
  · subst owner
    exact ⟨net.next lone.owner, read, by rw [doneStep_cmpdOffset, ran_cmpdOffset system]; rfl⟩
  · intro r' b hr hb
    rw [doneStep_result] at hr
    cases hr
    have none : r.inst = none → lone.cnc.Encodes lone.Result b := by
      intro hn
      rw [show r.inst = some b from hb] at hn
      cases hn
    cases did with
    | failed notOk => exact absurd isOk (notOk r rfl)
    | looked _ _ _ _ _ noInst => exact none (noInst r rfl)
    | readStorage storage => rw [system] at storage; cases storage
    | refreshed _ _ _ noInst => exact none (noInst r rfl)
    | elsewhere _ elsewhere => exact absurd concern elsewhere
    | applied r' _ _ command _ isRslt applied =>
      cases isRslt
      generalize hstore : out.state.instanceStore = store' at applied
      cases applied with
      | kept _ _ _ _ _ _ _ _ _ _ noInst => exact none noInst
      | changed old new inst inst' rel rel' input relBytes given parsed parse applied written differs rsltInst =>
        rw [show r.inst = some b from hb] at rsltInst
        cases rsltInst
        have results := applied_result pending command (owner ▸ cached) key handled.callFor given parsed parse applied
        exact lone.lossless.encodes written (results.1.apply results.2)

/-- The steps that are added. -/
theorem adds_ahead {r : StepResult} (did : lone.Did S cur call.args (some r) adds (Deployment.platform net tp) out.state)
    (callFor : CallFor call cur (instanceFor (net.stores tp) cur cur.key)) (isOk : r.code = .ok) :
    ∀ s ∈ adds, lone.Ahead S s := by
  cases did with
  | failed notOk => exact absurd isOk (notOk r rfl)
  | looked _ _ _ _ adds_nil => simp [adds_nil]
  | readStorage _ _ _ refreshes => exact refreshes
  | refreshed _ _ adds_nil => simp [adds_nil]
  | elsewhere _ _ _ adds_nil => simp [adds_nil]
  | applied r' system concern command key isRslt applied =>
    generalize hstore : out.state.instanceStore = store' at applied
    cases applied with
    | kept _ _ _ _ _ _ _ _ _ _ _ adds_nil => simp [adds_nil]
    | changed old new inst inst' rel rel' input relBytes given parsed parse applied written differs rsltInst refreshes =>
      intro s hs
      obtain ⟨system', -, -, ⟨refresh, fld, hfld, hrel, hconcern⟩ | ⟨isRead, own, hkey⟩⟩ :=
        refreshRelatedSteps_fields refreshes s hs
      · refine .refreshRelated system' refresh ?_
        rw [hconcern]
        exact lone.noCopies fld hfld hrel
      · exact .read system' own isRead (by rw [hkey, callFor.key, key])

/-- The next step gets no payload that it did not have. -/
theorem Ahead.nextStepOf {s : Step} (h : lone.Ahead S s) (step : Step) (o : CompoundOffset) :
    lone.Ahead S (wireStep (Rocketcycle.nextStepOf step s o)) := by
  rcases nextStepOf_payload step s o with payload | ⟨missing, free, -⟩
  · exact h.congr (by simp) (by simp) (by simp) (by simp) (by rw [payload])
  · cases h with
    | command system concern command key payload =>
      have noInput : lone.cmd.input = none := by
        rcases payload with payload | payload
        · exact payload
        · exact lone.carried.resolve_right fun hp => hp (payload.symm.trans missing)
      exact .command (by simpa using system) (by simpa using concern) (by simpa using command) (by simpa using key)
        (.inl noInput)
    | read _ _ command => rw [command] at free; exact absurd free (by decide)
    | readStorage _ command => rw [command] at free; exact absurd free (by decide)
    | refreshInstance _ command => rw [command] at free; exact absurd free (by decide)
    | refreshRelated _ command => rw [command] at free; exact absurd free (by decide)

theorem Ahead.wire {s : Step} (h : lone.Ahead S s) : lone.Ahead S (wireStep s) := h.congr rfl rfl rfl rfl rfl

/-- An update that is generated carries a result. -/
theorem generates_update {pb : RelatedCodecs} {store : InstanceStore} {steps : List Step} {step : Step}
    (behind : ∀ s ∈ steps, lone.Behind s) (h : Generates pb store steps step) (system : step.system = .storage)
    (concern : step.concern = lone.cnc.name) : lone.Update (wireStep step) := by
  cases h with
  | copy s r => cases system
  | updateScnd s payload => cases system
  | update s payload mem updateOf =>
    obtain ⟨key, notRequest, notRefresh, late, encodes⟩ := (behind s mem).own concern updateOf.system
    obtain ⟨r, hr, change, inst⟩ := updateOf.change
    have changed : ∃ b, r.inst = some b := by
      simpa [isInstanceChange, notRequest, notRefresh, Option.isSome_iff_exists] using change
    obtain ⟨b, hb⟩ := changed
    simp only [stepInst, hb, Option.isSome_some, if_true, Option.map_eq_some_iff] at inst
    obtain ⟨packed, hpacked, heq⟩ := inst
    cases heq
    exact ⟨key, late, Packs.wire ⟨b, _, payload, rfl, hpacked, encodes r b hr hb⟩⟩

/-- What follows a message of the transaction is one of its messages, or an update that carries a result. -/
theorem arrival_part {m : TopicPartition × Publication} {done' ahead' : List Step} {cur' : Step}
    (sent : Sent d next (tp, p) done cur ahead) (behind : ∀ s ∈ done, lone.Behind s)
    (pending : ∀ s ∈ cur :: ahead, lone.Ahead S s)
    (stored : ∃ item, net.ramDbs d.primary.type lone.cnc.name lone.step.key = some item ∧ lone.Current S item.inst)
    (cached : lone.Cached S (net.stores lone.owner)) (read : net₀.next lone.owner ≤ net.next lone.owner)
    (weaker : S → S')
    (arrival : Arrival d net tp env logic p done cur ahead out m done' cur' ahead')
    (arrived : Sent d next' m done' cur' ahead') : lone.Part next' S' m := by
  have curAhead := pending cur List.mem_cons_self
  have wires : ∀ {steps : List Step}, (∀ s ∈ steps, lone.Behind s) → ∀ s ∈ steps.map wireStep, lone.Behind s := by
    intro steps h s hs
    obtain ⟨s', hs', rfl⟩ := List.mem_map.1 hs
    exact (h s' hs').wire
  have doneBehind : ∀ {call : Call} {r : StepResult} {adds : List Step},
      Handled d net tp env logic p cur out call (some r) adds → r.code = .ok →
      ∀ s ∈ done ++ [d.doneStep net tp cur r], lone.Behind s := by
    intro call r adds handled isOk s hs
    rcases List.mem_append.1 hs with hs | hs
    · exact behind s hs
    · rw [List.mem_singleton.1 hs]
      exact done_behind sent curAhead cached read (did sent curAhead stored handled) handled isOk
  cases arrival with
  | read q looksUp key missing state =>
    refine .own _ _ _ arrived (fun upon => ?_) (wires behind) fun s hs => ?_
    · obtain ⟨-, -, scnd | ⟨-, async⟩⟩ := arrived.generated upon
      · cases scnd
      · exact absurd async (by show Command.read ≠ updateAsync; decide)
    · rcases List.mem_cons.1 hs with rfl | hs
      · refine .readStorage rfl rfl fun hc => ?_
        have concern : cur.concern = lone.cnc.name := by simpa [readStep] using hc
        have := (curAhead.own (looksUp_process looksUp) concern).1
        simpa [readStep] using this
      · obtain ⟨s', hs', rfl⟩ := List.mem_map.1 hs
        rcases mem_missAhead hs' with rfl | hs'
        · exact (curAhead.mono weaker).congr ran_system ran_concern ran_command ran_key (by rw [ran_payload])
        · exact ((pending s' (List.mem_cons_of_mem _ hs')).mono weaker).wire
  | next q call r adds nextStep tail handled resultOk follows =>
    refine .own _ _ _ arrived (fun upon => ?_) (wires (doneBehind handled resultOk)) fun s hs => ?_
    · obtain ⟨none, -⟩ := arrived.generated upon
      simp at none
    · have all : ∀ s ∈ nextStep :: tail, lone.Ahead S s := by
        rw [← follows]
        intro s hs
        rcases List.mem_append.1 hs with hs | hs
        · exact adds_ahead (did sent curAhead stored handled) handled.callFor resultOk s hs
        · exact pending s (List.mem_cons_of_mem _ hs)
      rcases List.mem_cons.1 hs with rfl | hs
      · exact ((all nextStep List.mem_cons_self).mono weaker).nextStepOf _ _
      · obtain ⟨s', hs', rfl⟩ := List.mem_map.1 hs
        exact ((all s' (List.mem_cons_of_mem _ hs')).mono weaker).wire
  | child call r adds step i handled resultOk last generates =>
    exact .generated _ arrived rfl fun system concern =>
      generates_update (doneBehind handled resultOk) generates system concern

end

/-! ## A message that is read -/

section
variable {lone : LoneCommand d logic net₀} {S S' : Prop} {net net' : Net M} {tp : TopicPartition} {env : Env}
  {p : Publication} {before after : List (TopicPartition × Publication)} {done ahead : List Step} {cur : Step}
  {next : TopicPartition → Nat} {out : Outcome (Platform M)} {call : Call} {rslt : Option StepResult}
  {adds : List Step}

/-- A generated transaction writes a result of the command, or nothing to the key's record. -/
theorem generated_stored (sent : Sent d next (tp, p) [] cur []) (upon : p.txn.uponError = .bailout)
    (update : cur.system = .storage → cur.concern = lone.cnc.name → lone.Update cur)
    (handled : Handled d net tp env logic p cur out call rslt adds) {item : Item M}
    (stored : net.ramDbs d.primary.type lone.cnc.name lone.step.key = some item) :
    ∃ item', out.state.ramDbs d.primary.type lone.cnc.name lone.step.key = some item' ∧
      (item' = item ∨ lone.Result item'.inst) ∧
      (cur.system = .storage → cur.concern = lone.cnc.name → (∃ r, rslt = some r ∧ r.code = .ok) →
        item = lone.item ∨ lone.Result item.inst → lone.Result item'.inst) := by
  obtain ⟨-, -, system⟩ := sent.generated upon
  have callFor := handled.callFor
  have effect := handled.effect
  have notOk : ∀ {Q : Prop}, (∀ r, rslt = some r → r.code ≠ .ok) → (∃ r, rslt = some r ∧ r.code = .ok) → Q := by
    rintro Q notOk ⟨r, hr, isOk⟩
    exact absurd isOk (notOk r hr)
  generalize hs : out.state = plat' at effect
  cases effect with
  | refused no adds_nil => exact ⟨item, stored, .inl rfl, fun _ _ ok _ => notOk no ok⟩
  | process _ _ _ process =>
    rw [callFor.system] at process
    rcases system with hs | ⟨hs, -⟩ <;> (rw [hs] at process; cases process)
  | storageScnd _ db' _ scnd =>
    have notStorage : cur.system ≠ .storage := by rw [← callFor.system, scnd]; simp
    have target : d.target tp.system = d.secondary := by
      have : tp.system ≠ .storage := by rw [← show cur.system = tp.system from sent.system]; exact notStorage
      simp [Deployment.target, this]
    refine ⟨item, ?_, .inl rfl, fun h => absurd h notStorage⟩
    rw [target]
    simp only [Platform.setRamDb, if_neg d.types_ne]
    exact stored
  | storage cnc db' concern storage effect =>
    rw [callFor.system] at storage
    have async : cur.command = updateAsync := by
      rcases system with hs | ⟨-, hc⟩
      · rw [storage] at hs
        cases hs
      · exact hc
    have callCommand : call.command = updateAsync := callFor.command.trans async
    have target : d.target tp.system = d.primary := by
      have : tp.system = .storage := by rw [← storage]; exact sent.system.symm
      simp [Deployment.target, this]
    rw [target] at effect ⊢
    have written : (Platform.setRamDb (Deployment.platform net tp) d.primary.type db').ramDbs d.primary.type = db' := by
      simp [Platform.setRamDb]
    rw [written]
    have found : (Deployment.platform net tp).ramDbs d.primary.type lone.cnc.name lone.step.key = some item := stored
    generalize (Deployment.platform net tp).ramDbs d.primary.type = db at effect found
    cases effect with
    | refused _ no => exact ⟨item, found, .inl rfl, fun _ _ ok _ => notOk no ok⟩
    | create _ _ _ _ _ _ cmd => exact absurd (callCommand.symm.trans cmd) (by decide)
    | createFailed _ _ _ _ cmd => exact absurd (callCommand.symm.trans cmd) (by decide)
    | read _ _ _ _ _ _ cmd => exact absurd (callCommand.symm.trans cmd) (by decide)
    | update _ _ _ _ _ cmd => exact absurd (callCommand.symm.trans cmd) (by decide)
    | updatePanic _ _ _ _ cmd => exact absurd (callCommand.symm.trans cmd) (by decide)
    | delete cmd => exact absurd (callCommand.symm.trans cmd) (by decide)
    | updateAsync inst rel instBytes relBytes cmd parsed =>
      by_cases own : cur.concern = lone.cnc.name
      · rw [handler (callFor.concern.trans own)] at concern
        cases concern
        obtain ⟨-, ⟨n, late, offset⟩, packs⟩ := update storage own
        obtain ⟨b, rel', parse, inst', parsed', result⟩ := packs.parse (fun _ hi => hi.key) sent.small
        have parts := parsed.parts
        rw [callFor.payload, parse] at parts
        cases parts
        have same : inst = inst' := by
          have := parsed.inst
          unfold Codec.unmarshalOpt at this
          rw [Option.getD_some, parsed'] at this
          exact (Except.ok.inj this).symm
        subst same
        rw [result.key, RamDb.update_some found]
        have offset' : call.args.cmpdOffset = ⟨d.generation lone.cnc.name .process, lone.owner.partition, n⟩ := by
          have := handled.storage_offset (by simp [storage])
          rw [offset] at this
          exact (Option.some.inj this).symm
        split
        · exact ⟨_, rfl, .inr result, fun _ _ _ _ => result⟩
        · rename_i older
          refine ⟨item, rfl, .inl rfl, fun _ _ _ known => ?_⟩
          rcases known with rfl | known
          · rw [offset'] at older
            exact absurd (lone.older n late) older
          · exact known
      · have other : cnc.name ≠ lone.cnc.name := by
          rw [ClientCode.concernHandler_name concern, callFor.concern]
          exact own
        refine ⟨item, ?_, .inl rfl, fun _ h => absurd h own⟩
        rw [RamDb.update_ne]
        · exact found
        · rintro ⟨h, -⟩
          exact other h.symm

theorem Did.ramDbs {args : StepArgs} {plat plat' : Platform M} (h : lone.Did S cur args rslt adds plat plat') :
    plat'.ramDbs = plat.ramDbs := by
  cases h with
  | failed _ same => rw [same]
  | applied _ _ _ _ _ _ _ ramDbs => exact ramDbs
  | looked _ _ _ same => rw [same]
  | readStorage _ _ same => rw [same]
  | refreshed _ _ _ _ ramDbs => exact ramDbs
  | elsewhere _ _ _ _ ramDbs => exact ramDbs

/-- What becomes of the stored instance. -/
theorem taken_stored (taken : Taken d next net tp env logic net' p before after done cur ahead)
    (part : lone.Part next S (tp, p)) {item : Item M}
    (stored : net.ramDbs d.primary.type lone.cnc.name lone.step.key = some item) (current : lone.Current S item.inst) :
    ∃ item', net'.ramDbs d.primary.type lone.cnc.name lone.step.key = some item' ∧
      (item' = item ∨ lone.Result item'.inst) := by
  rw [taken.ramDbs]
  have same : (d.outcome net tp env logic p).state.ramDbs = net.ramDbs →
      ∃ item', (d.outcome net tp env logic p).state.ramDbs d.primary.type lone.cnc.name lone.step.key = some item' ∧
        (item' = item ∨ lone.Result item'.inst) := fun h => ⟨item, by rw [h]; exact stored, .inl rfl⟩
  have ran : ∀ {call rslt adds}, Handled d net tp env logic p cur (d.outcome net tp env logic p) call rslt adds →
      ∃ item', (d.outcome net tp env logic p).state.ramDbs d.primary.type lone.cnc.name lone.step.key = some item' ∧
        (item' = item ∨ lone.Result item'.inst) := by
    intro call rslt adds handled
    cases part with
    | own done' cur' ahead' sent own behind pending =>
      obtain ⟨rfl, rfl, rfl⟩ := sent.unique taken.sent
      exact same (did sent (pending cur' List.mem_cons_self) ⟨item, stored, current⟩ handled).ramDbs
    | generated cur' sent upon update =>
      obtain ⟨rfl, rfl, rfl⟩ := sent.unique taken.sent
      obtain ⟨item', hitem', kept, -⟩ := generated_stored sent upon update handled stored
      exact ⟨item', hitem', kept⟩
  cases taken.fate with
  | rejected state => exact same (by rw [state]; rfl)
  | missed _ _ _ _ state => exact same (by rw [state]; rfl)
  | failed _ _ _ handled => exact ran handled
  | next _ _ _ _ _ handled => exact ran handled
  | completed _ _ _ _ _ handled => exact ran handled

/-! ### What keeps a result on its way -/

variable (lone) in
/-- A step that has changed the instance. -/
structure Changed (s : Step) : Prop where
  concern : s.concern = lone.cnc.name
  system : s.system = .process
  inst : ∃ r b, s.result = some r ∧ r.inst = some b

theorem Changed.wire {s : Step} (h : lone.Changed s) (behind : lone.Behind s) : lone.Changed (wireStep s) := by
  obtain ⟨r, b, hr, hb⟩ := h.inst
  obtain ⟨-, -, -, -, encodes⟩ := behind.own h.concern h.system
  have : b ≠ [] := ne_nil (encodes r b hr hb) fun _ hi => hi.key
  refine ⟨h.concern, h.system, wireResult r, b, by simp [hr], ?_⟩
  exact wireBytes_eq_some.2 ⟨hb, this⟩

theorem Changed.brings {s : Step} {m : TopicPartition × Publication} (h : lone.Changed s) (mem : s ∈ m.2.txn.forwardSteps) :
    lone.Brings m := ⟨s, mem, h.concern, .inl ⟨h.system, h.inst⟩⟩

/-- The name of the concern is what stands before the first underscore. -/
theorem storageKey_concern {concern concern2 key key2 : String} (valid : isValidName concern = true)
    (valid2 : isValidName concern2 = true) (same : s!"{concern}_{key}" = s!"{concern2}_{key2}") : concern = concern2 := by
  have chars : concern.toList ++ '_' :: key.toList = concern2.toList ++ '_' :: key2.toList := by
    simpa [toString] using congrArg String.toList same
  exact String.toList_inj.1 (cut_inj (underscore_not_mem valid) (underscore_not_mem valid2) chars).1

/-- A completed transaction that has changed the instance generates an update of it. -/
theorem completed_brings {r : StepResult} {c : Completion} {m : List (String × Step)} {s : Step}
    (taken : Taken d next net tp env logic net' p before after done cur ahead)
    (generated : Generated env d.cc.pb (d.outcome net tp env logic p).state.instanceStore
      (stepped p.txn done (d.doneStep net tp cur r) []) p.traceParent c m)
    (published : ∀ q ∈ c.published, q ∈ (d.outcome net tp env logic p).published)
    (behind : ∀ s ∈ done ++ [d.doneStep net tp cur r], lone.Behind s) (mem : s ∈ done ++ [d.doneStep net tp cur r])
    (changed : lone.Changed s) : ∃ m ∈ net'.inFlight, lone.Brings m := by
  obtain ⟨e, he, hkey⟩ := storageStepsMap_covers generated.map
    (.inr ⟨s, mem, changed.system, rfl, changed.inst⟩)
  rcases storageStepsMap_entries generated.map he with he' | ⟨s', mem', payload, updateOf, rfl⟩
  · cases he'
  have own : s'.concern = lone.cnc.name := by
    rw [← changed.concern]
    exact storageKey_concern (behind s' mem').name (behind s mem).name hkey
  have update : updateAsyncStep s' payload ∈
      secondarySteps (stepped p.txn done (d.doneStep net tp cur r) []).forwardSteps ++
        updateSteps (env.storageOrder (m.map Prod.snd)) := by
    apply List.mem_append_right
    refine List.mem_flatMap.2 ⟨updateAsyncStep s' payload, ?_, List.mem_cons_self⟩
    exact (env.storageOrder_perm _).mem_iff.2 (List.mem_map.2 ⟨_, he, rfl⟩)
  obtain ⟨i, child⟩ :=
    childPub_mem env p.traceParent (stepped p.txn done (d.doneStep net tp cur r) []).id 0 update
  rw [← generated.published] at child
  refine ⟨_, taken.arrives (published _ child) (childPub_arrival (.inl rfl)), wireStep (updateAsyncStep s' payload), ?_, own,
    .inr ⟨rfl, rfl⟩⟩
  exact List.mem_singleton_self _

/-- The message that is read goes on. -/
def FollowedBy (d : Deployment M) (logic : LogicHandler M) (net : Net M) (tp : TopicPartition) (env : Env)
    (p : Publication) : Prop :=
  ∃ q ∈ (d.outcome net tp env logic p).published, q.dest.IsStep ∨ q.isComplete = true

theorem errors_stop (errors : ErrorOnly (d.outcome net tp env logic p).published) :
    ¬FollowedBy d logic net tp env p := by
  rintro ⟨q, hq, step | complete⟩
  · exact not_isStep_of_isError (errors q hq) step
  · have none := errorOnly_completed errors
    rw [List.filter_eq_nil_iff] at none
    exact none q hq complete

/-- A step ahead of a message that goes on, or one that it has run, is in the message that follows. -/
theorem followed_mem {q : Publication} {txn : ApecsTxn} {step s : Step} (publishes : Publishes env txn p.traceParent step q)
    (mem : s ∈ txn.forwardSteps) : wireStep s ∈ q.txn.forwardSteps := by
  rw [publishes.sent]
  exact List.mem_map_of_mem mem

/-- What a step that has run leaves in the messages that follow, if it or one before it has changed the
instance. -/
theorem changed_brings {r : StepResult} (taken : Taken d next net tp env logic net' p before after done cur ahead)
    (goes : FollowedBy d logic net tp env p) (behind : ∀ s ∈ done, lone.Behind s)
    (ran : ∀ call r' adds, Handled d net tp env logic p cur (d.outcome net tp env logic p) call (some r') adds →
      r'.code = .ok → r' = r ∧ lone.Behind (d.doneStep net tp cur r))
    {s : Step} (changed : lone.Changed s)
    (mem : s ∈ done ∨ s = d.doneStep net tp cur r ∧ (d.outcome net tp env logic p).call.isSome) :
    ∃ m ∈ net'.inFlight, lone.Brings m := by
  cases taken.fate with
  | rejected _ _ errors => exact absurd goes (errors_stop errors)
  | failed _ _ _ _ _ errors => exact absurd goes (errors_stop errors)
  | missed q _ _ _ _ call published publishes =>
    have old : s ∈ done := mem.resolve_right (by simp [call])
    refine ⟨_, taken.arrives (by rw [published]; exact List.mem_singleton_self q) publishes.arrival, ?_⟩
    exact (changed.wire (behind s old)).brings (followed_mem publishes (List.mem_append_left _ old))
  | next call r' adds nextStep tail handled resultOk _ follows published =>
    obtain ⟨rfl, last⟩ := ran call r' adds handled resultOk
    have here : s ∈ done ++ [d.doneStep net tp cur r'] := by
      rcases mem with mem | ⟨rfl, -⟩
      · exact List.mem_append_left _ mem
      · exact List.mem_append_right _ (List.mem_singleton_self _)
    have sBehind : lone.Behind s := by
      rcases mem with mem | ⟨rfl, -⟩
      · exact behind s mem
      · exact last
    rcases published with ⟨errors, -⟩ | ⟨q, published, publishes⟩
    · exact absurd goes (errors_stop errors)
    · refine ⟨_, taken.arrives (by rw [published]; exact List.mem_singleton_self q) publishes.arrival, ?_⟩
      exact (changed.wire sBehind).brings (followed_mem publishes (List.mem_append_left _ here))
  | completed call r' adds c m handled resultOk _ last' generated published =>
    obtain ⟨rfl, last⟩ := ran call r' adds handled resultOk
    have all : ∀ q ∈ c.published, q ∈ (d.outcome net tp env logic p).published := by
      intro q hq
      rcases published with ⟨_, _, hpub, -⟩ | ⟨_, hpub, -⟩ <;> (rw [hpub]; exact List.mem_append_left _ hq)
    apply completed_brings taken generated all _ _ changed
    · intro s hs
      rcases List.mem_append.1 hs with hs | hs
      · exact behind s hs
      · rw [List.mem_singleton.1 hs]
        exact last
    · rcases mem with mem | ⟨rfl, -⟩
      · exact List.mem_append_left _ mem
      · exact List.mem_append_right _ (List.mem_singleton_self _)

/-- Steps that have not run have changed nothing, and write nothing. -/
theorem own_brings {m : TopicPartition × Publication} (sent : Sent d next m done cur ahead)
    (behind : ∀ s ∈ done, lone.Behind s) (pending : ∀ s ∈ cur :: ahead, lone.Ahead S s) (brings : lone.Brings m) :
    ∃ s ∈ done, lone.Changed s := by
  obtain ⟨s, mem, concern, kind⟩ := brings
  rw [sent.logged.stands.steps] at mem
  rcases List.mem_append.1 mem with mem | mem
  · rcases kind with ⟨system, inst⟩ | ⟨system, async⟩
    · exact ⟨s, mem, concern, system, inst⟩
    · have isRead := ((behind s mem).read (by simp [system])).2
      rw [async] at isRead
      exact absurd isRead (by decide)
  · have none := sent.logged.pending s mem
    rcases kind with ⟨-, r, b, hr, -⟩ | ⟨system, async⟩
    · rw [none] at hr
      cases hr
    · have isRead := ((pending s mem).storage (by simp [system])).2
      rw [async] at isRead
      exact absurd isRead (by decide)

section
variable (taken : Taken d next net tp env logic net' p before after done cur ahead) (part : lone.Part next S (tp, p))
  (stored : ∃ item, net.ramDbs d.primary.type lone.cnc.name lone.step.key = some item ∧
    (item = lone.item ∨ lone.Result item.inst))
  (current : ∀ item, net.ramDbs d.primary.type lone.cnc.name lone.step.key = some item → lone.Current S item.inst)
  (cached : lone.Cached S (net.stores lone.owner)) (read : net₀.next lone.owner ≤ net.next lone.owner)
  (goes : bailsOut p (d.outcome net tp env logic p).code = false → FollowedBy d logic net tp env p)

include taken stored current cached read

/-- The step that an own message runs stays behind as it should. -/
theorem own_ran (pending : ∀ s ∈ cur :: ahead, lone.Ahead S s) {call : Call}
    {r : StepResult} {adds : List Step}
    (handled : Handled d net tp env logic p cur (d.outcome net tp env logic p) call (some r) adds) (isOk : r.code = .ok) :
    ∀ call' r' adds', Handled d net tp env logic p cur (d.outcome net tp env logic p) call' (some r') adds' →
      r'.code = .ok → r' = r ∧ lone.Behind (d.doneStep net tp cur r) := by
  intro call' r' adds' handled' _
  have same := handled.recorded
  rw [handled'.recorded] at same
  cases same
  obtain ⟨item, hitem, -⟩ := stored
  have did := did taken.sent (pending cur List.mem_cons_self) ⟨item, hitem, current item hitem⟩ handled
  exact ⟨rfl, done_behind taken.sent (pending cur List.mem_cons_self) cached read did handled isOk⟩

/-- A changed instance is on its way to storage. -/
theorem applied_brings (follows : FollowedBy d logic net tp env p) (behind : ∀ s ∈ done, lone.Behind s)
    (pending : ∀ s ∈ cur :: ahead, lone.Ahead S s) {call : Call} {r : StepResult} {adds : List Step}
    (handled : Handled d net tp env logic p cur (d.outcome net tp env logic p) call (some r) adds) (isOk : r.code = .ok)
    (concern : cur.concern = lone.cnc.name) (system : cur.system = .process) {b : Bytes} (inst : r.inst = some b) :
    ∃ m ∈ net'.inFlight, lone.Brings m := by
  apply changed_brings taken follows behind (own_ran taken stored current cached read pending handled isOk)
  · show lone.Changed (d.doneStep net tp cur r)
    exact ⟨by simpa using concern, by simpa using system, _, b, doneStep_result r, inst⟩
  · exact .inr ⟨rfl, by simp [handled.recorded]⟩

include part goes

/-- A result that is stored, or on its way, stays so. -/
theorem taken_secured (secured : lone.Secured net) : lone.Secured net' := by
  obtain ⟨item, hitem, known⟩ := stored
  rcases secured with ⟨item', hitem', result⟩ | ⟨m, hm, brings⟩
  · rw [hitem] at hitem'
    cases hitem'
    obtain ⟨item', hitem', rfl | result'⟩ := taken_stored taken part hitem (current item hitem)
    · exact .inl ⟨item', hitem', result⟩
    · exact .inl ⟨item', hitem', result'⟩
  rcases taken.remains hm with hm | ⟨rfl, stays, -⟩
  · exact .inr ⟨m, hm, brings⟩
  have follows := goes stays
  cases part with
  | own done' cur' ahead' sent own behind pending =>
    obtain ⟨rfl, rfl, rfl⟩ := sent.unique taken.sent
    obtain ⟨s, mem, changed⟩ := own_brings sent behind pending brings
    right
    cases taken.fate with
    | rejected _ _ errors => exact absurd follows (errors_stop errors)
    | failed _ _ _ _ _ errors => exact absurd follows (errors_stop errors)
    | missed q looksUp key missing state call published publishes =>
      refine ⟨_, taken.arrives (by rw [published]; exact List.mem_singleton_self q) publishes.arrival, ?_⟩
      exact (changed.wire (behind s mem)).brings (followed_mem publishes (List.mem_append_left _ mem))
    | next call r adds _ _ handled resultOk =>
      exact changed_brings taken follows behind
        (own_ran taken ⟨item, hitem, known⟩ current cached read pending handled resultOk) changed (.inl mem)
    | completed call r adds _ _ handled resultOk =>
      exact changed_brings taken follows behind
        (own_ran taken ⟨item, hitem, known⟩ current cached read pending handled resultOk) changed (.inl mem)
  | generated cur' sent upon update =>
    obtain ⟨rfl, rfl, rfl⟩ := sent.unique taken.sent
    obtain ⟨s, mem, concern, kind⟩ := brings
    rw [sent.logged.stands.steps, List.nil_append, List.mem_singleton] at mem
    subst mem
    have system : s.system = .storage := by
      rcases kind with ⟨-, r, b, hr, -⟩ | ⟨system, -⟩
      · rw [sent.logged.pending s List.mem_cons_self] at hr
        cases hr
      · exact system
    have written : ∀ {call r adds}, Handled d net tp env logic p s (d.outcome net tp env logic p) call (some r) adds →
        r.code = .ok → lone.Secured net' := by
      intro call r adds handled isOk
      obtain ⟨item', hitem', -, result⟩ := generated_stored sent upon update handled hitem
      refine .inl ⟨item', by rw [taken.ramDbs]; exact hitem', result system concern ⟨r, rfl, isOk⟩ known⟩
    cases taken.fate with
    | rejected _ _ errors => exact absurd follows (errors_stop errors)
    | failed _ _ _ _ _ errors => exact absurd follows (errors_stop errors)
    | missed _ looksUp =>
      have process := looksUp_process looksUp
      rw [system] at process
      cases process
    | next call r adds _ _ handled resultOk => exact written handled resultOk
    | completed call r adds _ _ handled resultOk => exact written handled resultOk

/-- The command itself has run: a result is stored, or on its way. -/
theorem command_secured (safe : S → lone.Secured net) (follows : FollowedBy d logic net tp env p)
    (behind : ∀ s ∈ done, lone.Behind s) (pending : ∀ s ∈ cur :: ahead, lone.Ahead S s)
    (concern : cur.concern = lone.cnc.name) (system : cur.system = .process) (command : cur.command = lone.step.command)
    {call : Call} {r : StepResult} {adds : List Step}
    (handled : Handled d net tp env logic p cur (d.outcome net tp env logic p) call (some r) adds) (isOk : r.code = .ok) :
    lone.Secured net' := by
  obtain ⟨item, hitem, known⟩ := stored
  have curAhead := pending cur List.mem_cons_self
  have free := mem_stored_command lone
  cases did taken.sent curAhead ⟨item, hitem, current item hitem⟩ handled with
  | failed notOk => exact absurd isOk (notOk r rfl)
  | looked _ hread => exact absurd (command.symm.trans hread) (free _ (by simp [reservedCommands]))
  | readStorage storage => rw [system] at storage; cases storage
  | refreshed _ hrefresh => exact absurd (command.symm.trans hrefresh) (free _ (by simp [reservedCommands]))
  | elsewhere _ elsewhere => exact absurd concern elsewhere
  | applied r' _ _ _ key isRslt applied =>
    cases isRslt
    have owner := owner_eq taken.sent system concern key curAhead.notValidation
    generalize hstore : (d.outcome net tp env logic p).state.instanceStore = store' at applied
    cases applied with
    | changed old new inst inst' rel rel' input relBytes given parsed parse applied written differs rsltInst =>
      exact .inr (applied_brings taken ⟨item, hitem, known⟩ current cached read follows behind pending handled isOk
        concern system rsltInst)
    | kept old inst inst' rel input given parsed parse applied same =>
      have results := applied_result curAhead command (owner ▸ cached) key handled.callFor given parsed parse applied
      have unchanged : inst' = inst := by
        rcases same with same | written
        · exact same
        · obtain ⟨inst'', parsed', rfl⟩ := lone.lossless.encodes (P := (· = inst')) written rfl
          rw [parsed] at parsed'
          exact (Except.ok.inj parsed').symm
      obtain ⟨item', hitem', stays⟩ := taken_stored taken part hitem (current item hitem)
      rcases results.1 with rfl | ⟨-, safe'⟩
      · -- the stored instance is a result of the command on itself
        have itself : lone.Result lone.item.inst := .single (unchanged ▸ results.2)
        refine .inl ⟨item', hitem', ?_⟩
        rcases stays with rfl | result
        · rcases known with rfl | result
          · exact itself
          · exact result
        · exact result
      · exact taken_secured taken part ⟨item, hitem, known⟩ current cached read goes (safe safe')

/-- A message that still has the command before it is followed by another, or the command has run. -/
theorem taken_promised (safe : S → lone.Secured net) (promised : lone.Promised net) : lone.Promised net' := by
  rcases promised with secured | ⟨m, hm, asks⟩
  · exact .inl (taken_secured taken part stored current cached read goes secured)
  rcases taken.remains hm with hm | ⟨rfl, stays, -⟩
  · exact .inr ⟨m, hm, asks⟩
  have follows := goes stays
  obtain ⟨s, mem, concern, system, command, notRun⟩ := asks
  cases hpart : part with
  | generated cur' sent upon update =>
    obtain ⟨rfl, rfl, rfl⟩ := sent.unique taken.sent
    rw [sent.logged.stands.steps, List.nil_append, List.mem_singleton] at mem
    subst mem
    obtain ⟨-, -, scnd | ⟨storage, -⟩⟩ := sent.generated upon
    · rw [system] at scnd
      cases scnd
    · rw [system] at storage
      cases storage
  | own done' cur' ahead' sent own behind pending =>
    obtain ⟨rfl, rfl, rfl⟩ := sent.unique taken.sent
    rw [sent.logged.stands.steps] at mem
    have inAhead : s ∈ cur' :: ahead' := by
      rcases List.mem_append.1 mem with mem | mem
      · obtain ⟨r, hr, -⟩ := sent.logged.succeeded s mem
        rw [notRun] at hr
        cases hr
      · exact mem
    have ran : ∀ {call r adds}, s = cur' →
        Handled d net tp env logic p cur' (d.outcome net tp env logic p) call (some r) adds → r.code = .ok →
        lone.Promised net' := by
      rintro call r adds rfl handled isOk
      exact .inl (command_secured taken part stored current cached read goes safe follows behind pending concern system
        command handled isOk)
    have asksAgain : ∀ s' {q txn step}, q ∈ (d.outcome net tp env logic p).published →
        Publishes env txn p.traceParent step q → s' ∈ txn.forwardSteps → s'.concern = s.concern → s'.system = s.system →
        s'.command = s.command → s'.result = none → lone.Promised net' := by
      intro s' q txn step hq publishes mem' hc hs hcmd hr
      refine .inr ⟨_, taken.arrives hq publishes.arrival, wireStep s', followed_mem publishes mem', hc.trans concern,
        hs.trans system, hcmd.trans command, by simp [hr]⟩
    cases taken.fate with
    | rejected _ _ errors => exact absurd follows (errors_stop errors)
    | failed _ _ _ _ _ errors => exact absurd follows (errors_stop errors)
    | missed q looksUp key missing state call published publishes =>
      have notRead : s.command ≠ Command.read := by rw [command]; exact mem_stored_command lone _ (by simp [reservedCommands])
      have hq : q ∈ (d.outcome net tp env logic p).published := by rw [published]; exact List.mem_singleton_self q
      rcases List.mem_cons.1 inAhead with rfl | inAhead
      · apply asksAgain (d.ran net tp s) hq publishes _ ran_concern ran_system ran_command
        · simp [Deployment.ran, notRun]
        · rw [missSteps_eq]
          simp [missAhead, notRead]
      · apply asksAgain s hq publishes _ rfl rfl rfl notRun
        rw [missSteps_eq]
        apply List.mem_append_right
        apply List.mem_cons_of_mem
        unfold missAhead
        split
        · exact inAhead
        · exact List.mem_cons_of_mem _ inAhead
    | next call r adds nextStep tail handled resultOk isOk follows' published =>
      rcases List.mem_cons.1 inAhead with rfl | inAhead
      · exact ran rfl handled resultOk
      rcases published with ⟨errors, -⟩ | ⟨q, published, publishes⟩
      · exact absurd follows (errors_stop errors)
      have hq : q ∈ (d.outcome net tp env logic p).published := by rw [published]; exact List.mem_singleton_self q
      have here : s ∈ nextStep :: tail := by
        rw [← follows']
        exact List.mem_append_right _ inAhead
      rcases List.mem_cons.1 here with rfl | here
      · apply asksAgain (nextStepOf (d.doneStep net tp cur' r) s (d.offset net tp)) hq publishes <;>
          simp [advanced, notRun]
      · apply asksAgain s hq publishes _ rfl rfl rfl notRun
        simp [advanced, here]
    | completed call r adds c m handled resultOk isOk last =>
      rcases List.mem_cons.1 inAhead with rfl | inAhead
      · exact ran rfl handled resultOk
      · have none := (List.append_eq_nil_iff.1 last).2
        rw [none] at inAhead
        cases inAhead

end

/-! ### Every state of a run -/

section
variable {G : Prop} (taken : Taken d next net tp env logic net' p before after done cur ahead)
  (part : lone.Part next (G → lone.Secured net) (tp, p))
  (stored : ∃ item, net.ramDbs d.primary.type lone.cnc.name lone.step.key = some item ∧
    (item = lone.item ∨ lone.Result item.inst))
  (cached : lone.Cached (G → lone.Secured net) (net.stores lone.owner))
  (read : net₀.next lone.owner ≤ net.next lone.owner)
  (goes : G → bailsOut p (d.outcome net tp env logic p).code = false → FollowedBy d logic net tp env p)

include stored in
theorem stored_current (S : Prop) (safe : lone.Secured net → S) : ∀ item,
    net.ramDbs d.primary.type lone.cnc.name lone.step.key = some item → lone.Current S item.inst := by
  intro item hitem
  obtain ⟨item', hitem', known⟩ := stored
  rw [hitem] at hitem'
  cases hitem'
  refine known.imp (congrArg Item.inst) fun result => ⟨result, safe ?_⟩
  exact .inl ⟨item, hitem, result⟩

include taken part stored cached read goes

theorem taken_safe (safe : G → lone.Secured net) (g : G) : lone.Secured net' :=
  taken_secured taken part stored (stored_current stored _ fun h _ => h) cached read (goes g) (safe g)

/-- The instance store of the key's consumer after a message. -/
theorem taken_cached : lone.Cached (G → lone.Secured net') (net'.stores lone.owner) := by
  have weaker := taken_safe taken part stored cached read goes
  have current := stored_current (S := G → lone.Secured net) stored fun h _ => h
  have kept : (d.outcome net tp env logic p).state.instanceStore = net.stores tp → lone.owner = tp →
      lone.Cached (G → lone.Secured net') (d.outcome net tp env logic p).state.instanceStore := by
    intro same owner
    rw [same, ← owner]
    exact cached.mono weaker
  have ran : ∀ {call rslt adds}, Handled d net tp env logic p cur (d.outcome net tp env logic p) call rslt adds →
      lone.owner = tp → lone.Cached (G → lone.Secured net') (d.outcome net tp env logic p).state.instanceStore := by
    intro call rslt adds handled owner
    have concern : cur.concern = lone.cnc.name := by rw [taken.sent.concern, ← owner]; rfl
    have system : cur.system = .process := by rw [taken.sent.system, ← owner]; rfl
    cases part with
    | generated cur' sent upon update =>
      obtain ⟨rfl, rfl, rfl⟩ := sent.unique taken.sent
      obtain ⟨-, -, scnd | ⟨storage, -⟩⟩ := sent.generated upon
      · rw [system] at scnd
        cases scnd
      · rw [system] at storage
        cases storage
    | own done' cur' ahead' sent own behind pending =>
      obtain ⟨rfl, rfl, rfl⟩ := sent.unique taken.sent
      have curAhead := pending cur' List.mem_cons_self
      obtain ⟨item, hitem, known⟩ := stored
      cases did sent curAhead ⟨item, hitem, current item hitem⟩ handled with
      | failed _ same => exact kept (by rw [same]; rfl) owner
      | looked _ _ _ same => exact kept (by rw [same]; rfl) owner
      | readStorage storage => rw [system] at storage; cases storage
      | elsewhere _ elsewhere => exact absurd concern elsewhere
      | refreshed _ _ _ _ _ refreshed =>
        obtain ⟨-, b, rel, encodes, written⟩ := refreshed concern
        rw [written]
        have before : lone.Cached (G → lone.Secured net') (net.stores tp) := owner ▸ cached.mono weaker
        exact before.set (encodes.mono fun _ hi => hi.mono weaker)
      | applied r _ _ command key isRslt applied _ isOk =>
        subst isRslt
        generalize hstore : (d.outcome net tp env logic p).state.instanceStore = store' at applied
        cases applied with
        | kept => exact hstore ▸ kept hstore owner
        | changed old new inst inst' rel rel' input relBytes given parsed parse applied written differs rsltInst =>
          have results := applied_result curAhead command (owner ▸ cached) key handled.callFor given parsed parse applied
          have before : lone.Cached (G → lone.Secured net') (net.stores tp) := owner ▸ cached.mono weaker
          rw [handled.callFor.key, key]
          refine before.setInstance (lone.lossless.encodes written (.inr ⟨results.1.apply results.2, fun g => ?_⟩))
          -- the result has been handed on
          have stays : bailsOut p (d.outcome net tp env logic p).code = false := by simp [bailsOut, own]
          exact .inr (applied_brings taken ⟨item, hitem, known⟩ current cached read (goes g stays) behind pending
            handled isOk concern system rsltInst)
  rcases taken.stores lone.owner with same | ⟨owner, new | state⟩
  · rw [same]
    exact cached.mono weaker
  · rw [new]
    exact .new
  · rw [state]
    cases taken.fate with
    | rejected state' => exact kept (by rw [state']; rfl) owner
    | missed _ _ _ _ state' => exact kept (by rw [state']; rfl) owner
    | failed _ _ _ handled => exact ran handled owner
    | next _ _ _ _ _ handled => exact ran handled owner
    | completed _ _ _ _ _ handled => exact ran handled owner

end

/-- Nothing follows a generated transaction. -/
theorem generated_ends {m : TopicPartition × Publication} {done' ahead' : List Step} {cur' : Step}
    (sent : Sent d next (tp, p) [] cur []) (upon : p.txn.uponError = .bailout)
    (arrival : Arrival d net tp env logic p [] cur [] out m done' cur' ahead') : False := by
  obtain ⟨-, -, system⟩ := sent.generated upon
  have notProcess : cur.system ≠ .process := by
    rcases system with hs | ⟨hs, -⟩ <;> simp [hs]
  cases arrival with
  | read q looksUp => exact notProcess (looksUp_process looksUp)
  | next q call r adds nextStep tail handled resultOk follows =>
    have callFor := handled.callFor
    have none := (commandEffect_adds resultOk handled.effect).last
      (by rw [callFor.system, callFor.command]; exact system)
    rw [none] at follows
    cases follows
  | child call r adds step i handled resultOk last generates =>
    have only : ∀ s ∈ [] ++ [d.doneStep net tp cur r], s.system = cur.system ∧ s.command = cur.command := by
      intro s hs
      rw [List.nil_append, List.mem_singleton] at hs
      subst hs
      exact ⟨doneStep_system r, doneStep_command r⟩
    cases generates with
    | copy s r' mem isWrite =>
      obtain ⟨hsystem, hcommand⟩ := only s mem
      rcases system with hs | ⟨hs, hc⟩
      · simp [Step.isStorageWrite, hsystem, hs] at isWrite
      · rw [hc] at hcommand
        rw [Step.isStorageWrite, hcommand] at isWrite
        simp [updateAsync, create, update, delete] at isWrite
    | update s payload mem updateOf => exact notProcess ((only s mem).1.symm.trans updateOf.system)
    | updateScnd s payload mem updateOf => exact notProcess ((only s mem).1.symm.trans updateOf.system)

end

section
variable {lone : LoneCommand d logic net₀} {G : Prop} {st st' : Restartable M} {tp : TopicPartition} {env : Env}

theorem Holds.commit (h : lone.Holds G st) : lone.Holds G (st.setUncommitted tp []) := by
  obtain ⟨next, seen, parts⟩ := h.pending
  refine ⟨⟨next, seen, fun m hm => parts m (commit_pending hm)⟩, fun t => ?_, h.stored, h.cached, h.promised⟩
  have read := h.read t
  show net₀.next t + ((st.setUncommitted tp []).uncommitted t).length ≤ st.net.next t
  simp only [Restartable.setUncommitted]
  split
  · simp only [List.length_nil]
    omega
  · exact read

theorem Secured.mono {net net' : Net M} (h : lone.Secured net) (ramDbs : net'.ramDbs = net.ramDbs)
    (inFlight : ∀ m ∈ net.inFlight, m ∈ net'.inFlight) : lone.Secured net' := by
  rcases h with ⟨item, hitem, result⟩ | ⟨m, hm, brings⟩
  · exact .inl ⟨item, by rw [ramDbs]; exact hitem, result⟩
  · exact .inr ⟨m, inFlight m hm, brings⟩

theorem Holds.crash (h : lone.Holds G st) : lone.Holds G (st.crash tp) := by
  obtain ⟨next, seen, parts⟩ := h.pending
  have secured : lone.Secured st.net → lone.Secured (st.crash tp).net := fun h =>
    h.mono rfl fun m hm => crash_inFlight hm
  have weaker : (G → lone.Secured st.net) → G → lone.Secured (st.crash tp).net := fun h g => secured (h g)
  refine ⟨⟨next, fun t => ?_, fun m hm => (parts m (crash_pending hm)).mono (fun _ => le_refl _) weaker⟩,
    fun t => ?_, h.stored, ?_, fun g => ?_⟩
  · refine le_trans ?_ (seen t)
    simp only [Restartable.crash, Net.setNext]
    split
    · rename_i same
      rw [same]
      exact Nat.sub_le _ _
    · exact le_refl _
  · have read := h.read t
    show net₀.next t + ((st.crash tp).uncommitted t).length ≤ (st.crash tp).net.next t
    simp only [Restartable.crash, Restartable.setUncommitted, Net.setNext]
    split
    · rename_i same
      subst same
      simp only [List.length_nil]
      omega
    · exact read
  · show lone.Cached (G → lone.Secured (st.crash tp).net) ((st.crash tp).net.stores lone.owner)
    by_cases same : lone.owner = tp
    · have new : (st.crash tp).net.stores lone.owner = InstanceStore.new := by
        simp [Restartable.crash, Net.setNext, Net.setStore, same]
      rw [new]
      exact .new
    · have old : (st.crash tp).net.stores lone.owner = st.net.stores lone.owner := by
        simp [Restartable.crash, Net.setNext, Net.setStore, same]
      rw [old]
      exact h.cached.mono weaker
  · rcases h.promised g with h | ⟨m, hm, asks⟩
    · exact .inl (secured h)
    · exact .inr ⟨m, crash_inFlight hm, asks⟩

theorem Holds.consume (h : lone.Holds G st) (goes : G → d.GoesOn logic st (.consume tp env))
    (hs : d.restartStep logic st (.consume tp env) = some st') : lone.Holds G st' := by
  obtain ⟨next, seen, parts⟩ := h.pending
  obtain ⟨p, before, after, done, cur, ahead, taken, consumed⟩ :=
    restart_consume (fun m hm => (parts m (.inl hm)).sent) hs
  have part := parts (tp, p) (.inl (by rw [taken.split]; simp))
  have follows : G → bailsOut p (d.outcome st.net tp env logic p).code = false → FollowedBy d logic st.net tp env p :=
    fun g stays => goes g p _ taken.taken stays
  have read : net₀.next lone.owner ≤ st.net.next lone.owner := by
    have := h.read lone.owner
    omega
  have current := stored_current (S := G → lone.Secured st.net) h.stored fun h _ => h
  have weaker := taken_safe taken part h.stored h.cached read follows
  refine ⟨⟨fun t => max (next t) (st'.net.next t), fun t => le_max_right _ _, fun m hm => ?_⟩, fun t => ?_, ?_,
    taken_cached taken part h.stored h.cached read follows, fun g => ?_⟩
  · have old : ∀ {m}, lone.Part next (G → lone.Secured st.net) m →
        lone.Part (fun t => max (next t) (st'.net.next t)) (G → lone.Secured st'.net) m := fun h =>
      h.mono (fun t => le_max_left _ _) weaker
    rcases hm with hm | hm
    · have readOn : bailsOut p (d.outcome st.net tp env logic p).code = false →
          st.net.next tp < max (next tp) (st'.net.next tp) := by
        intro stays
        rcases taken.offsets with ⟨bails, -⟩ | ⟨-, offsets⟩
        · rw [stays] at bails
          cases bails
        · rw [offsets]
          exact lt_of_lt_of_le (readNext_lt _ _) (le_max_right _ _)
      rcases taken.inFlight (fun t => le_max_left _ _) readOn hm with hm | ⟨done', cur', ahead', arrival, arrived⟩
      · exact old (parts m (.inl hm))
      · cases part with
        | own done cur ahead sent own behind pending =>
          obtain ⟨rfl, rfl, rfl⟩ := sent.unique taken.sent
          obtain ⟨item, hitem, -⟩ := h.stored
          exact arrival_part sent behind pending ⟨item, hitem, current item hitem⟩ h.cached read weaker arrival arrived
        | generated cur sent upon update =>
          obtain ⟨rfl, rfl, rfl⟩ := sent.unique taken.sent
          exact (generated_ends sent upon arrival).elim
    · rw [consumed] at hm
      have known : m = (tp, p) ∨ m.2 ∈ st.uncommitted m.1 := by
        apply pending_setUncommitted hm
        intro q hq
        split at hq
        · cases hq
        · rcases List.mem_append.1 hq with hq | hq
          · exact .inr hq
          · exact .inl (List.mem_singleton.1 hq)
      rcases known with rfl | known
      · exact old part
      · exact old (parts m (.inr known))
  · have readBefore := h.read t
    rw [consumed]
    simp only [Restartable.consumed, Restartable.setUncommitted]
    rcases taken.offsets with ⟨-, offsets⟩ | ⟨-, offsets⟩ <;> rw [offsets]
    · split
      · simp only [if_true, List.length_nil]
        omega
      · exact readBefore
    · by_cases same : t = tp
      · subst same
        have moved := readNext_lt st.net.next t
        have : readNext st.net.next t t ≠ st.net.next t := by omega
        rw [if_pos rfl, if_neg this, List.length_append, List.length_singleton]
        omega
      · rw [if_neg same]
        exact le_trans readBefore (readNext_le _ _ _)
  · obtain ⟨item, hitem, known⟩ := h.stored
    obtain ⟨item', hitem', rfl | result⟩ := taken_stored taken part hitem (current item hitem)
    · exact ⟨item', hitem', known⟩
    · exact ⟨item', hitem', .inr result⟩
  · exact taken_promised taken part h.stored current h.cached read (follows g) (fun h => h g) (h.promised g)

theorem expandStep_command {s : Step} (h : isReservedCommand s.command = false) : expandStep s = [s] := by
  have notCreate : s.command ≠ create := fun hc => by rw [hc] at h; exact absurd h (by decide)
  have notUpdate : s.command ≠ update := fun hc => by rw [hc] at h; exact absurd h (by decide)
  simp [expandStep, notCreate, notUpdate]

/-- The submission of the command. -/
theorem holds_submit (lone : LoneCommand d logic net₀) {net₁ : Net M} {traceParent : String} {revert : RevertType}
    {respTarget : Option TopicTarget}
    (submitted : d.step net₀ (.submit env traceParent ⟨revert, [lone.step]⟩ respTarget) = some net₁) :
    lone.Holds G ⟨net₁, fun _ => []⟩ := by
  have sound₀ : Sound d net₀ := by
    intro m hm
    rw [lone.idle] at hm
    cases hm
  obtain ⟨steps, rtxn, cur, rest, q, hsubmitted, inFlight, sent, own, stores, ramDbs, -⟩ :=
    submit_lone lone.idle submitted
  -- the transaction has one step, the command
  obtain ⟨s, rfl, system, concern, command, key, payload, result⟩ : ∃ s, steps = [s] ∧ s.system = .process ∧
      s.concern = lone.step.concern ∧ s.command = lone.step.command ∧ s.key = lone.step.key ∧
      s.payload = lone.payload ∧ s.result = none := by
    have prepared := hsubmitted.prepared
    simp only [List.mapM_cons, List.mapM_nil, prepareStep, lone.given] at prepared
    exact ⟨_, (Except.ok.inj prepared).symm, rfl, rfl, rfl, rfl, rfl, rfl⟩
  have expanded := hsubmitted.forward
  rw [List.flatMap_cons, List.flatMap_nil, List.append_nil, expandStep_command (command ▸ not_reserved_command),
    hsubmitted.logged.stands.steps, List.nil_append] at expanded
  obtain ⟨rfl, rfl⟩ := List.cons.inj expanded
  refine ⟨⟨net₁.next, fun t => le_refl _, fun m hm => ?_⟩, fun t => ?_, ?_, ?_, fun _ => .inr ?_⟩
  · have here := hm.resolve_right (by simp)
    rw [show (⟨net₁, fun _ => []⟩ : Restartable M).net.inFlight = _ from inFlight, List.mem_singleton] at here
    subst here
    refine .own _ _ _ sent own (by simp) fun s hs => ?_
    rw [List.map_nil, List.mem_singleton] at hs
    subst hs
    exact .command system (concern.trans name_eq.symm) command key (.inr (by rw [wireStep_payload, payload]))
  · exact step_next sound₀ submitted t
  · exact ⟨lone.item, by rw [show (⟨net₁, fun _ => []⟩ : Restartable M).net.ramDbs = _ from ramDbs]; exact lone.stored,
      .inl rfl⟩
  · intro rec b hrec hb
    rw [show (⟨net₁, fun _ => []⟩ : Restartable M).net.stores = _ from stores] at hrec
    exact ⟨_, lone.cached rec b hrec hb, .inl rfl⟩
  · refine ⟨_, by
      show _ ∈ net₁.inFlight
      rw [inFlight]
      exact List.mem_singleton_self _, wireStep cur, ?_, concern.trans name_eq.symm, system, command, by simp [result]⟩
    rw [sent.logged.stands.steps]
    exact List.mem_append_right _ List.mem_cons_self

theorem Holds.step {a : RestartAction} (h : lone.Holds G st) (goes : G → d.GoesOn logic st a)
    (hs : d.restartStep logic st a = some st') : lone.Holds G st' := by
  cases a with
  | consume tp env => exact h.consume goes hs
  | commit tp =>
    cases hs
    exact h.commit
  | crash tp =>
    cases hs
    exact h.crash

end

end LoneCommand

/-- Where a result does not change when a relation is followed once more, it is reached at once. -/
theorem applied_once {α : Type} {r : α → α → Prop} {a b : α} (h : TransGen r a b)
    (fixed : ∀ x y, TransGen r a x → r x y → y = x) : r a b := by
  induction h with
  | single h => exact h
  | tail before last ih =>
    rw [fixed _ _ before last]
    exact ih

/-- However often consumers crash and read messages again: once nothing is in flight, the instance
stored for the key is what the command makes of it, applied some number of times in a row. If every
message goes on it is applied at least once; and then exactly once in effect if it changes none of its results. -/
theorem redelivered_command_applied {d : Deployment M} {logic : LogicHandler M} {net₀ net₁ : Net M}
    (lone : LoneCommand d logic net₀) {env : Env} {traceParent : String} {revert : RevertType}
    {respTarget : Option TopicTarget} {tr : List (Restartable M × RestartAction)} {st : Restartable M}
    (submitted : d.step net₀ (.submit env traceParent ⟨revert, [lone.step]⟩ respTarget) = some net₁)
    (run : Path (d.restartStep logic) ⟨net₁, fun _ => []⟩ tr st) (idle : st.net.inFlight = []) :
    ∃ item, st.net.ramDbs d.primary.type lone.cnc.name lone.step.key = some item ∧
      ReflTransGen (lone.cmd.Applies logic lone.payload) lone.item.inst item.inst ∧
      ((∀ e ∈ tr, d.GoesOn logic e.1 e.2) →
        TransGen (lone.cmd.Applies logic lone.payload) lone.item.inst item.inst ∧
        ((∀ inst inst', TransGen (lone.cmd.Applies logic lone.payload) lone.item.inst inst →
            lone.cmd.Applies logic lone.payload inst inst' → inst' = inst) →
          lone.cmd.Applies logic lone.payload lone.item.inst item.inst)) := by
  have holds : lone.Holds (∀ e ∈ tr, d.GoesOn logic e.1 e.2) st := by
    apply run.invariant (lone.Holds _) (fun s a => (∀ e ∈ tr, d.GoesOn logic e.1 e.2) → d.GoesOn logic s a)
      (LoneCommand.holds_submit lone submitted) (fun s a s' goes h hs => h.step goes hs)
    exact fun e he all => all e he
  obtain ⟨item, hitem, known⟩ := holds.stored
  refine ⟨item, hitem, ?_, fun all => ?_⟩
  · rcases known with rfl | result
    · exact .refl
    · exact result.to_reflTransGen
  have result : lone.Result item.inst := by
    rcases holds.promised all with (⟨item', hitem', result⟩ | ⟨m, hm, -⟩) | ⟨m, hm, -⟩
    · rw [hitem] at hitem'
      cases hitem'
      exact result
    · rw [idle] at hm
      cases hm
    · rw [idle] at hm
      cases hm
  exact ⟨result, applied_once result⟩

/-! ### A command that appends -/

def appendLogic : LogicHandler Bytes :=
  { sampleLogic with command := fun _ inst _ payload => .ok (inst ++ payload.getD [], none) }

/-- An instance of `Player`, in the cache and in storage. -/
def beforeAppend : Net Bytes :=
  Net.sample (some ⟨some [107, 1], some [9], ⟨1, 0, 0⟩⟩) (some ⟨[107, 1], some [9], ⟨1, 0, 0⟩⟩)

def appendSent : Net Bytes := after Deployment.single.step beforeAppend [sampleSubmit [1] [sampleStep "Player" "Set" "k" [9]]]

def appendAgain : List RestartAction :=
  [.consume ⟨"Player", .process, 0⟩ Env.sample, .consume ⟨"Player", .storage, 0⟩ Env.sample,
   .consume ⟨"Player", .storageScnd, 0⟩ Env.sample, .crash ⟨"Player", .process, 0⟩,
   .consume ⟨"Player", .process, 0⟩ Env.sample, .consume ⟨"Player", .storage, 0⟩ Env.sample,
   .consume ⟨"Player", .process, 0⟩ Env.sample, .consume ⟨"Player", .process, 0⟩ Env.sample,
   .consume ⟨"Player", .storage, 0⟩ Env.sample, .consume ⟨"Player", .storageScnd, 0⟩ Env.sample]

theorem redelivery_applies_twice :
    (runs (Deployment.single.restartStep appendLogic) ⟨appendSent, fun _ => []⟩ appendAgain).map (fun st =>
        (st.net.inFlight.length, (st.net.ramDbs "ramdb" "Player" "k").map Item.inst)) =
      some (0, some [107, 1, 9, 9]) ∧
    appendLogic.apply "Set" [107, 1] [9] (some [9]) = some [107, 1, 9] := by
  decide +kernel

/-- The first byte stays. -/
theorem append_keeps {inst : Bytes} (h : ReflTransGen (ConcernCommand.Applies ⟨"Set", some ⟨.ok, .ok⟩, some ⟨.ok, .ok⟩⟩ appendLogic
    (some [9])) [107, 1] inst) : ∃ more, inst = 107 :: more := by
  induction h with
  | refl => exact ⟨[1], rfl⟩
  | tail _ last ih =>
    obtain ⟨more, rfl⟩ := ih
    obtain ⟨rel, input, -, applied⟩ := last
    cases applied
    exact ⟨more ++ input.getD [], rfl⟩

/-- The submission of the command that appends. -/
def loneAppend : LoneCommand Deployment.single appendLogic beforeAppend where
  step := sampleStep "Player" "Set" "k" [9]
  cnc := sampleConcern "Player"
  cmd := ⟨"Set", some ⟨.ok, .ok⟩, some ⟨.ok, .ok⟩⟩
  payload := some [9]
  item := ⟨[107, 1], some [9], ⟨1, 0, 0⟩⟩
  concern := rfl
  command := rfl
  given := rfl
  carried := .inr (by decide)
  keyed := by decide
  lossless := by
    refine ⟨?_, ?_⟩
    · rintro inst b ⟨⟩
      rfl
    · rintro inst ⟨⟩
      rfl
  noCopies := by simp [sampleConcern]
  keeps := by
    intro inst h
    obtain ⟨more, rfl⟩ := append_keeps h
    rfl
  idle := rfl
  stored := rfl
  older := by
    intro n hn
    have owner : Deployment.single.partitionOf (sampleConcern "Player").name .process (stringBytes "k") =
        ⟨"Player", .process, 0⟩ := by decide +kernel
    have later : 1 ≤ n := by
      rw [show (sampleStep "Player" "Set" "k" [9]).key = "k" from rfl, owner] at hn
      exact hn
    rw [show (sampleStep "Player" "Set" "k" [9]).key = "k" from rfl, owner]
    show offsetGT ⟨1, 0, n⟩ ⟨1, 0, 0⟩ = true
    simp only [offsetGT]
    simp
    omega
  cached := by
    intro rec b hrec hb
    have here : beforeAppend.stores (Deployment.single.partitionOf (sampleConcern "Player").name .process
        (stringBytes "k")) "k" = some ⟨some [107, 1], some [9], ⟨1, 0, 0⟩⟩ := by decide +kernel
    rw [show rec = _ from Option.some.inj (hrec.symm.trans here)] at hb
    cases hb
    rfl

theorem redelivered_append :
    ∃ item, (after (Deployment.single.restartStep appendLogic) ⟨appendSent, fun _ => []⟩ appendAgain).net.ramDbs
        "ramdb" "Player" "k" = some item ∧
      ReflTransGen (ConcernCommand.Applies ⟨"Set", some ⟨.ok, .ok⟩, some ⟨.ok, .ok⟩⟩ appendLogic (some [9])) [107, 1] item.inst := by
  have submitted : Deployment.single.step beforeAppend (sampleSubmit [1] [sampleStep "Player" "Set" "k" [9]]) =
      some appendSent := step_after (by decide +kernel)
  have idle : (runs (Deployment.single.restartStep appendLogic) ⟨appendSent, fun _ => []⟩ appendAgain).any (fun st =>
      st.net.inFlight.isEmpty) = true := by decide +kernel
  obtain ⟨path, idle⟩ := path_of_any idle
  obtain ⟨item, stored, applied, -⟩ := redelivered_command_applied loneAppend submitted path (List.isEmpty_iff.1 idle)
  exact ⟨item, stored, applied⟩

end Rocketcycle
