import Rocketcycle.Concern.Applied
import Rocketcycle.Net.Restart
import Mathlib.Logic.Relation

/-!
# A command on its own

The transaction of one command of a user, from a state in which nothing is in flight: what its
messages look like on their way, with those of the transactions that it generates, and what each
of its steps does.
-/

namespace Rocketcycle

open Command Runs Relation

variable {M : Type}

/-- One application of a command to an instance, whatever its related data. -/
def ConcernCommand.Applies (cmd : ConcernCommand M) (logic : LogicHandler M) (payload : Option Bytes)
    (inst inst' : M) : Prop :=
  ∃ rel input, cmd.parse payload = .ok input ∧ logic.apply cmd.name inst rel input = some inst'

/-- Marshalling loses nothing, and no bytes at all are an instance without a key. -/
structure Concern.Lossless (cnc : Concern M) : Prop where
  roundTrip : ∀ inst b, cnc.encode inst = .ok b → cnc.decode b = .ok inst
  empty : ∀ inst, cnc.decode [] = .ok inst → cnc.key inst = ""

/-- A user's command on an instance, and the state in which it is submitted: nothing is in flight, and
the instance is stored under its key, older than what the key's consumer reads next. -/
structure LoneCommand (d : Deployment M) (logic : LogicHandler M) (net₀ : Net M) where
  step : TxnStep
  cnc : Concern M
  cmd : ConcernCommand M
  payload : Option Bytes
  item : Item M
  concern : d.cc.concernHandler step.concern = some cnc
  command : cnc.commands.find? (fun c => c.name = step.command) = some cmd
  given : step.payload = .ok payload
  /-- An empty payload does not stay empty when the command is retried after a cache miss. -/
  carried : cmd.input = none ∨ wireBytes payload ≠ none
  keyed : step.key ≠ ""
  lossless : cnc.Lossless
  /-- No instance of the concern keeps a copy of another. -/
  noCopies : ∀ fld ∈ cnc.related.fields, fld.relField.isSome = true → fld.typeMsg.name ≠ cnc.name
  keeps : ∀ inst, ReflTransGen (cmd.Applies logic payload) item.inst inst → cnc.key inst = step.key
  idle : net₀.inFlight = []
  stored : net₀.ramDbs d.primary.type cnc.name step.key = some item
  older : ∀ n : Nat, net₀.next (d.partitionOf cnc.name .process (stringBytes step.key)) ≤ n →
    offsetGT ⟨d.generation cnc.name .process,
      (d.partitionOf cnc.name .process (stringBytes step.key)).partition, n⟩ item.cmpdOffset = true
  cached : ∀ rec b, net₀.stores (d.partitionOf cnc.name .process (stringBytes step.key)) step.key = some rec →
    rec.inst = some b → cnc.unmarshal b = .ok item.inst

/-- Bytes of an instance with a property. -/
def Concern.Encodes (cnc : Concern M) (P : M → Prop) (b : Bytes) : Prop := ∃ inst, cnc.unmarshal b = .ok inst ∧ P inst

theorem Concern.Encodes.mono {cnc : Concern M} {P Q : M → Prop} {b : Bytes} (h : cnc.Encodes P b)
    (weaker : ∀ inst, P inst → Q inst) : cnc.Encodes Q b := by
  obtain ⟨inst, parsed, hp⟩ := h
  exact ⟨inst, parsed, weaker inst hp⟩

theorem Concern.Lossless.encodes {cnc : Concern M} (lossless : cnc.Lossless) {P : M → Prop} {inst : M} {b : Bytes}
    (written : cnc.marshal inst = .ok b) (hp : P inst) : cnc.Encodes P b := by
  refine ⟨inst, ?_, hp⟩
  unfold Codec.marshal at written
  cases he : cnc.encode inst with
  | error e => rw [he] at written; cases written
  | ok b' =>
    rw [he] at written
    cases written
    rw [Codec.unmarshal, lossless.roundTrip inst _ he]
    rfl

/-- An instance with a key has bytes. -/
theorem Concern.Lossless.ne_nil {cnc : Concern M} (lossless : cnc.Lossless) {P : M → Prop} {b : Bytes}
    (h : cnc.Encodes P b) (keyed : ∀ inst, P inst → cnc.key inst ≠ "") : b ≠ [] := by
  rintro rfl
  obtain ⟨inst, parsed, hp⟩ := h
  apply keyed inst hp
  apply lossless.empty
  unfold Codec.unmarshal at parsed
  cases hd : cnc.decode [] with
  | error e => rw [hd] at parsed; cases parsed
  | ok inst' =>
    rw [hd] at parsed
    cases parsed
    rfl

namespace LoneCommand

variable {d : Deployment M} {logic : LogicHandler M} {net₀ : Net M}

section
variable (lone : LoneCommand d logic net₀)

/-- The partition of the key's consumer. -/
def owner : TopicPartition := d.partitionOf lone.cnc.name .process (stringBytes lone.step.key)

/-- The command has been applied to the stored instance, once or more times. -/
def Result (inst : M) : Prop := TransGen (lone.cmd.Applies logic lone.payload) lone.item.inst inst

/-- An instance of the key: the stored one, or a result that is safe if `S` says so. -/
def Current (S : Prop) (inst : M) : Prop := inst = lone.item.inst ∨ lone.Result inst ∧ S

/-- The offset of a message that the key's consumer has read since the submission. -/
def Late (o : Option CompoundOffset) : Prop :=
  ∃ n : Nat, net₀.next lone.owner ≤ n ∧
    o = some ⟨d.generation lone.cnc.name .process, lone.owner.partition, n⟩

/-- A packed payload with an instance. -/
def Packs (P : M → Prop) (payload : Option Bytes) : Prop :=
  ∃ b rel packed, payload = some packed ∧ packPayloads (some b) rel = some packed ∧ lone.cnc.Encodes P b

/-- A step of the transaction that has not run. -/
inductive Ahead (S : Prop) (s : Step) : Prop
  | command (system : s.system = .process) (concern : s.concern = lone.cnc.name)
      (command : s.command = lone.step.command) (key : s.key = lone.step.key)
      (payload : lone.cmd.input = none ∨ s.payload = wireBytes lone.payload)
  | read (system : s.system = .process) (concern : s.concern = lone.cnc.name) (command : s.command = read)
      (key : s.key = lone.step.key)
  | readStorage (system : s.system = .storage) (command : s.command = Command.read)
      (key : s.concern = lone.cnc.name → s.key = lone.step.key)
  | refreshInstance (system : s.system = .process) (command : s.command = refreshInstance)
      (own : s.concern = lone.cnc.name → s.key = lone.step.key ∧ lone.Packs (lone.Current S) s.payload)
  | refreshRelated (system : s.system = .process) (command : s.command = refreshRelated)
      (elsewhere : s.concern ≠ lone.cnc.name)

/-- A step of the transaction that has succeeded. -/
structure Behind (s : Step) : Prop where
  name : isValidName s.concern = true
  read : s.system ≠ .process → s.system = .storage ∧ s.command = Command.read
  own : s.concern = lone.cnc.name → s.system = .process →
    s.key = lone.step.key ∧ s.command ≠ requestRelated ∧ s.command ≠ refreshRelated ∧ lone.Late s.cmpdOffset ∧
      ∀ r b, s.result = some r → r.inst = some b → lone.cnc.Encodes lone.Result b

/-- The storage update for the instance. -/
structure Update (s : Step) : Prop where
  key : s.key = lone.step.key
  offset : lone.Late s.cmpdOffset
  packs : lone.Packs lone.Result s.payload

/-- A message of the transaction, or of one that it has generated. -/
inductive Part (next : TopicPartition → Nat) (S : Prop) (m : TopicPartition × Publication) : Prop
  | own (done : List Step) (cur : Step) (ahead : List Step) (sent : Sent d next m done cur ahead)
      (own : m.2.txn.uponError ≠ .bailout) (behind : ∀ s ∈ done, lone.Behind s)
      (pending : ∀ s ∈ cur :: ahead, lone.Ahead S s)
  | generated (cur : Step) (sent : Sent d next m [] cur []) (upon : m.2.txn.uponError = .bailout)
      (update : cur.system = .storage → cur.concern = lone.cnc.name → lone.Update cur)

/-- The message will bring a result of the command to storage. -/
def Brings (m : TopicPartition × Publication) : Prop :=
  ∃ s ∈ m.2.txn.forwardSteps, s.concern = lone.cnc.name ∧
    ((s.system = .process ∧ ∃ r b, s.result = some r ∧ r.inst = some b) ∨
      (s.system = .storage ∧ s.command = updateAsync))

/-- The message still has the command before it. -/
def Asks (m : TopicPartition × Publication) : Prop :=
  ∃ s ∈ m.2.txn.forwardSteps, s.concern = lone.cnc.name ∧ s.system = .process ∧ s.command = lone.step.command ∧
    s.result = none

/-- The instance store of the key's consumer holds a current instance, if any. -/
def Cached (S : Prop) (store : InstanceStore) : Prop :=
  ∀ rec b, store lone.step.key = some rec → rec.inst = some b → lone.cnc.Encodes (lone.Current S) b

/-- A result of the command is stored, or on its way. -/
def Secured (net : Net M) : Prop :=
  (∃ item, net.ramDbs d.primary.type lone.cnc.name lone.step.key = some item ∧ lone.Result item.inst) ∨
    ∃ m ∈ net.inFlight, lone.Brings m

/-- The same, or the command is still going to be run. -/
def Promised (net : Net M) : Prop := lone.Secured net ∨ ∃ m ∈ net.inFlight, lone.Asks m

/-- What holds in every state of a run. With `G` the messages of the run all go on. -/
structure Holds (G : Prop) (st : Restartable M) : Prop where
  pending : ∃ next, (∀ t, st.net.next t ≤ next t) ∧ ∀ m, st.Pending m → lone.Part next (G → lone.Secured st.net) m
  read : ∀ t, net₀.next t + (st.uncommitted t).length ≤ st.net.next t
  stored : ∃ item, st.net.ramDbs d.primary.type lone.cnc.name lone.step.key = some item ∧
    (item = lone.item ∨ lone.Result item.inst)
  cached : lone.Cached (G → lone.Secured st.net) (st.net.stores lone.owner)
  promised : G → lone.Promised st.net

end

section
variable {lone : LoneCommand d logic net₀} {S S' : Prop} {inst : M}

theorem name_eq : lone.cnc.name = lone.step.concern := ClientCode.concernHandler_name lone.concern

theorem handler {concern : String} (h : concern = lone.cnc.name) : d.cc.concernHandler concern = some lone.cnc := by
  rw [h, name_eq]
  exact lone.concern

theorem not_reserved_command : isReservedCommand lone.step.command = false := by
  have name : lone.cmd.name = lone.step.command := by simpa using List.find?_some lone.command
  rw [← name]
  exact lone.cnc.commands_free lone.cmd (List.mem_of_find?_eq_some lone.command)

theorem Result.key (h : lone.Result inst) : lone.cnc.key inst = lone.step.key := lone.keeps inst h.to_reflTransGen

theorem Current.key (h : lone.Current S inst) : lone.cnc.key inst = lone.step.key := by
  rcases h with rfl | ⟨h, -⟩
  · exact lone.keeps _ .refl
  · exact h.key

theorem Current.mono (h : lone.Current S inst) (weaker : S → S') : lone.Current S' inst :=
  h.imp id fun ⟨result, hs⟩ => ⟨result, weaker hs⟩

/-- Another application. -/
theorem Current.apply (h : lone.Current S inst) {inst' : M} (applied : lone.cmd.Applies logic lone.payload inst inst') :
    lone.Result inst' := by
  rcases h with rfl | ⟨h, -⟩
  · exact .single applied
  · exact .tail h applied

theorem ne_nil {P : M → Prop} {b : Bytes} (h : lone.cnc.Encodes P b) (keys : ∀ inst, P inst → lone.cnc.key inst = lone.step.key) :
    b ≠ [] :=
  lone.lossless.ne_nil h fun inst hp => by
    rw [keys inst hp]
    exact lone.keyed

theorem Packs.mono {P Q : M → Prop} {payload : Option Bytes} (h : lone.Packs P payload)
    (weaker : ∀ inst, P inst → Q inst) : lone.Packs Q payload := by
  obtain ⟨b, rel, packed, hpayload, hpacked, encodes⟩ := h
  exact ⟨b, rel, packed, hpayload, hpacked, encodes.mono weaker⟩

theorem Packs.wire {P : M → Prop} {payload : Option Bytes} (h : lone.Packs P payload) :
    lone.Packs P (wireBytes payload) := by
  obtain ⟨b, rel, packed, rfl, hpacked, encodes⟩ := h
  refine ⟨b, rel, packed, ?_, hpacked, encodes⟩
  exact wireBytes_eq_some.2 ⟨rfl, packPayloads_ne_nil hpacked⟩

/-- What a payload packs is what is read from it. -/
theorem Packs.parse {P : M → Prop} {payload : Option Bytes} (h : lone.Packs P payload)
    (keys : ∀ inst, P inst → lone.cnc.key inst = lone.step.key) (fits : (payload.getD []).length < maxMessageBytes) :
    ∃ b rel, parsePayload payload = .ok (some b, rel) ∧ lone.cnc.Encodes P b := by
  obtain ⟨b, rel, packed, rfl, hpacked, encodes⟩ := h
  refine ⟨b, wireBytes rel, parsePayload_packPayloads hpacked (ne_nil encodes keys) ?_, encodes⟩
  have small : (packed.length : Nat) < maxMessageBytes := fits
  have : maxMessageBytes < 2 ^ 32 := by decide
  omega

theorem Ahead.mono {s : Step} (h : lone.Ahead S s) (weaker : S → S') : lone.Ahead S' s := by
  cases h with
  | command system concern command key payload => exact .command system concern command key payload
  | read system concern command key => exact .read system concern command key
  | readStorage system command key => exact .readStorage system command key
  | refreshInstance system command own =>
    refine .refreshInstance system command fun hc => ⟨(own hc).1, (own hc).2.mono fun inst hi => hi.mono weaker⟩
  | refreshRelated system command elsewhere => exact .refreshRelated system command elsewhere

/-- Nothing but these fields counts. -/
theorem Ahead.congr {s s' : Step} (h : lone.Ahead S s) (system : s'.system = s.system) (concern : s'.concern = s.concern)
    (command : s'.command = s.command) (key : s'.key = s.key) (payload : wireBytes s'.payload = wireBytes s.payload) :
    lone.Ahead S (wireStep s') := by
  cases h with
  | command hsystem hconcern hcommand hkey hpayload =>
    refine .command (system.trans hsystem) (concern.trans hconcern) (command.trans hcommand) (key.trans hkey) ?_
    refine hpayload.imp id fun hp => ?_
    rw [wireStep_payload, payload, hp, wireBytes_wireBytes]
  | read hsystem hconcern hcommand hkey =>
    exact .read (system.trans hsystem) (concern.trans hconcern) (command.trans hcommand) (key.trans hkey)
  | readStorage hsystem hcommand hkey =>
    exact .readStorage (system.trans hsystem) (command.trans hcommand) fun hc => key.trans (hkey (concern ▸ hc))
  | refreshInstance hsystem hcommand own =>
    refine .refreshInstance (system.trans hsystem) (command.trans hcommand) fun hc => ?_
    obtain ⟨hkey, packs⟩ := own (concern ▸ hc)
    refine ⟨key.trans hkey, ?_⟩
    rw [wireStep_payload, payload]
    exact packs.wire
  | refreshRelated hsystem hcommand elsewhere =>
    exact .refreshRelated (system.trans hsystem) (command.trans hcommand) (by simpa [concern] using elsewhere)

theorem Behind.wire {s : Step} (h : lone.Behind s) : lone.Behind (wireStep s) := by
  refine ⟨h.name, h.read, fun hc hs => ?_⟩
  obtain ⟨key, notRequest, notRefresh, late, encodes⟩ := h.own hc hs
  refine ⟨key, notRequest, notRefresh, late, ?_⟩
  intro r b hr hb
  rw [wireStep_result, Option.map_eq_some_iff] at hr
  obtain ⟨r', hr', rfl⟩ := hr
  rw [wireResult_inst, wireBytes_eq_some] at hb
  exact encodes r' b hr' hb.1

theorem Part.mono {next next' : TopicPartition → Nat} {m : TopicPartition × Publication} (h : lone.Part next S m)
    (seen : ∀ t, next t ≤ next' t) (weaker : S → S') : lone.Part next' S' m := by
  cases h with
  | own done cur ahead sent own behind pending =>
    exact .own done cur ahead (sent.mono seen) own behind fun s hs => (pending s hs).mono weaker
  | generated cur sent upon update => exact .generated cur (sent.mono seen) upon update

theorem Part.sent {next : TopicPartition → Nat} {m : TopicPartition × Publication} (h : lone.Part next S m) :
    ∃ done cur ahead, Sent d next m done cur ahead := by
  cases h with
  | own done cur ahead sent => exact ⟨done, cur, ahead, sent⟩
  | generated cur sent => exact ⟨[], cur, [], sent⟩

theorem Cached.mono {store : InstanceStore} (h : lone.Cached S store) (weaker : S → S') : lone.Cached S' store :=
  fun rec b hrec hb => (h rec b hrec hb).mono fun _ hi => hi.mono weaker

theorem Cached.new : lone.Cached S InstanceStore.new := by
  intro rec b hrec
  cases hrec

theorem Cached.put {store : InstanceStore} {b : Bytes} (rec : InstanceRecord) (hb : rec.inst = some b)
    (encodes : lone.cnc.Encodes (lone.Current S) b) : lone.Cached S (store.put lone.step.key (some rec)) := by
  intro rec' b' hrec hb'
  rw [InstanceStore.put_self] at hrec
  cases hrec
  rw [hb] at hb'
  cases hb'
  exact encodes

/-- A write keeps the record, or puts its instance there. -/
theorem Cached.set {store : InstanceStore} {b : Bytes} {rel : Option Bytes} {o : CompoundOffset}
    (h : lone.Cached S store) (encodes : lone.cnc.Encodes (lone.Current S) b) :
    lone.Cached S (store.set lone.step.key (some b) rel o) := by
  unfold InstanceStore.set
  split
  · split
    · exact h
    · exact .put _ rfl encodes
  · exact .put _ rfl encodes

theorem Cached.setInstance {store : InstanceStore} {b : Bytes} {o : CompoundOffset} (h : lone.Cached S store)
    (encodes : lone.cnc.Encodes (lone.Current S) b) :
    lone.Cached S (store.setInstance lone.step.key (some b) o) := by
  unfold InstanceStore.setInstance
  split
  · split
    · exact h
    · exact .put _ rfl encodes
  · exact .put _ rfl encodes

end

/-! ## What a step of the transaction does -/

section
variable {lone : LoneCommand d logic net₀} {S : Prop} {net : Net M} {tp : TopicPartition} {env : Env} {p : Publication}
  {done ahead : List Step} {cur : Step} {next : TopicPartition → Nat} {out : Outcome (Platform M)} {call : Call}
  {rslt : Option StepResult} {adds : List Step}

variable (lone S) in
/-- The effect of a step that has been called. -/
inductive Did (cur : Step) (args : StepArgs) (rslt : Option StepResult) (adds : List Step) (plat plat' : Platform M) :
    Prop
  | failed (notOk : ∀ r, rslt = some r → r.code ≠ .ok) (same : plat' = plat)
  | applied (r : StepResult) (system : cur.system = .process) (concern : cur.concern = lone.cnc.name)
      (command : cur.command = lone.step.command) (key : cur.key = lone.step.key) (isRslt : rslt = some r)
      (applied : Applied d.cc.pb lone.cnc logic lone.cmd args plat.instanceStore r adds plat'.instanceStore)
      (ramDbs : plat'.ramDbs = plat.ramDbs) (isOk : r.code = .ok)
  | looked (system : cur.system = .process) (command : cur.command = read) (key : cur.key = lone.step.key)
      (same : plat' = plat) (adds_nil : adds = []) (noInst : ∀ r, rslt = some r → r.inst = none)
  | readStorage (system : cur.system = .storage) (command : cur.command = read) (same : plat' = plat)
      (refreshes : ∀ s ∈ adds, lone.Ahead S s)
  | refreshed (system : cur.system = .process) (command : cur.command = refreshInstance) (adds_nil : adds = [])
      (noInst : ∀ r, rslt = some r → r.inst = none) (ramDbs : plat'.ramDbs = plat.ramDbs)
      (own : cur.concern = lone.cnc.name → cur.key = lone.step.key ∧ ∃ b rel, lone.cnc.Encodes (lone.Current S) b ∧
        plat'.instanceStore = plat.instanceStore.set lone.step.key (some b) rel args.cmpdOffset)
  | elsewhere (system : cur.system = .process) (concern : cur.concern ≠ lone.cnc.name)
      (command : cur.command = refreshRelated) (adds_nil : adds = []) (ramDbs : plat'.ramDbs = plat.ramDbs)

theorem callFor_offset (handled : Handled d net tp env logic p cur out call rslt adds) (forward : p.txn.direction = .forward) :
    call.direction = .forward := by
  rw [handled.called]
  exact forward

theorem mem_stored_command (lone : LoneCommand d logic net₀) : ∀ cmd ∈ reservedCommands, lone.step.command ≠ cmd := by
  rintro cmd mem rfl
  have := isReservedCommand_iff.2 mem
  rw [not_reserved_command] at this
  cases this

theorem did_command (sent : Sent d next (tp, p) done cur ahead) (system : cur.system = .process)
    (concern : cur.concern = lone.cnc.name) (command : cur.command = lone.step.command) (key : cur.key = lone.step.key)
    (handled : Handled d net tp env logic p cur out call rslt adds) :
    lone.Did S cur call.args rslt adds (Deployment.platform net tp) out.state := by
  have callFor := handled.callFor
  have callSystem : call.system = .process := callFor.system.trans system
  have callCommand : call.command = lone.step.command := callFor.command.trans command
  have free := fun cmd mem => callCommand ▸ mem_stored_command lone cmd mem
  by_cases isOk : ∃ r, rslt = some r ∧ r.code = .ok
  · obtain ⟨r, rfl, isOk⟩ := isOk
    obtain ⟨applied, ramDbs⟩ := handleCommand_applied (callFor_offset handled sent.logged.stands.direction) callSystem
      (handler (callFor.concern.trans concern)) (by rw [callCommand]; exact lone.command) isOk handled.handled
    exact .applied r system concern command key rfl applied ramDbs isOk
  · have notOk : ∀ r, rslt = some r → r.code ≠ .ok := fun r hr hok => isOk ⟨r, hr, hok⟩
    rcases handled.effect.of_process callSystem with ⟨-, -, same⟩ | ⟨cnc, store', -, effect, same⟩
    · exact .failed notOk same
    · cases effect with
      | quiet => exact .failed notOk same
      | update _ cmd => exact absurd cmd (free _ (by simp [reservedCommands]))
      | delete _ cmd => exact absurd cmd (free _ (by simp [reservedCommands]))
      | refreshInstance _ _ _ cmd => exact absurd cmd (free _ (by simp [reservedCommands]))
      | flushInstance _ cmd => exact absurd cmd (free _ (by simp [reservedCommands]))
      | requestRelated _ _ _ _ _ _ cmd => exact absurd cmd (free _ (by simp [reservedCommands]))
      | refreshRelated _ _ _ _ cmd => exact absurd cmd (free _ (by simp [reservedCommands]))
      | brokenOff _ _ _ cmd =>
        rcases cmd with cmd | cmd <;> exact absurd cmd (free _ (by simp [reservedCommands]))
      | changed cmd r _ _ _ _ _ _ _ _ _ _ _ _ _ _ _ _ isOk' => exact absurd isOk' (notOk r rfl)

theorem did_read (system : cur.system = .process) (command : cur.command = read) (key : cur.key = lone.step.key)
    (handled : Handled d net tp env logic p cur out call rslt adds) :
    lone.Did S cur call.args rslt adds (Deployment.platform net tp) out.state := by
  have callFor := handled.callFor
  have callCommand : call.command = read := callFor.command.trans command
  rcases handled.effect.of_process (callFor.system.trans system) with ⟨notOk, -, same⟩ | ⟨cnc, store', -, effect, same⟩
  · exact .failed notOk same
  · cases effect with
    | quiet _ plain => exact .looked system command key same rfl fun r hr => (plain r hr).inst
    | update _ cmd => exact absurd (callCommand.symm.trans cmd) (by decide)
    | delete _ cmd => exact absurd (callCommand.symm.trans cmd) (by decide)
    | refreshInstance _ _ _ cmd => exact absurd (callCommand.symm.trans cmd) (by decide)
    | flushInstance _ cmd => exact absurd (callCommand.symm.trans cmd) (by decide)
    | requestRelated _ _ _ _ _ _ cmd => exact absurd (callCommand.symm.trans cmd) (by decide)
    | refreshRelated _ _ _ _ cmd => exact absurd (callCommand.symm.trans cmd) (by decide)
    | brokenOff _ _ _ cmd => rcases cmd with cmd | cmd <;> exact absurd (callCommand.symm.trans cmd) (by decide)
    | changed cmd _ _ _ _ _ _ _ _ _ mem name =>
      have free := cnc.commands_free cmd mem
      rw [name, callCommand] at free
      exact absurd free (by decide)

theorem did_refreshInstance (sent : Sent d next (tp, p) done cur ahead) (system : cur.system = .process)
    (command : cur.command = refreshInstance)
    (own : cur.concern = lone.cnc.name → cur.key = lone.step.key ∧ lone.Packs (lone.Current S) cur.payload)
    (handled : Handled d net tp env logic p cur out call rslt adds) :
    lone.Did S cur call.args rslt adds (Deployment.platform net tp) out.state := by
  have callFor := handled.callFor
  have callCommand : call.command = refreshInstance := callFor.command.trans command
  rcases handled.effect.of_process (callFor.system.trans system) with ⟨notOk, -, same⟩ | ⟨cnc, store', -, effect, same⟩
  · exact .failed notOk same
  · cases effect with
    | quiet _ plain other =>
      refine .failed (fun r hr hok => ?_) same
      apply other r hr hok
      rw [callCommand]
      simp [writingCommands]
    | refreshInstance _ inst relBytes cmd parsed plain =>
      refine .refreshed system command rfl (fun r hr => (plain r hr).inst) (by rw [same]) fun hc => ?_
      obtain ⟨key, packs⟩ := own hc
      obtain ⟨b, rel, parse, encodes⟩ := packs.parse (fun _ hi => hi.key) sent.small
      rw [callFor.payload, parse] at parsed
      cases parsed
      refine ⟨key, b, Logic.refreshedRelated (net.stores tp) lone.step.key relBytes, encodes, ?_⟩
      rw [same, callFor.key, key]
      rfl
    | update _ cmd => exact absurd (callCommand.symm.trans cmd) (by decide)
    | delete _ cmd => exact absurd (callCommand.symm.trans cmd) (by decide)
    | flushInstance _ cmd => exact absurd (callCommand.symm.trans cmd) (by decide)
    | requestRelated _ _ _ _ _ _ cmd => exact absurd (callCommand.symm.trans cmd) (by decide)
    | refreshRelated _ _ _ _ cmd => exact absurd (callCommand.symm.trans cmd) (by decide)
    | brokenOff _ _ _ cmd => rcases cmd with cmd | cmd <;> exact absurd (callCommand.symm.trans cmd) (by decide)
    | changed cmd _ _ _ _ _ _ _ _ _ mem name =>
      have free := cnc.commands_free cmd mem
      rw [name, callCommand] at free
      exact absurd free (by decide)

theorem did_refreshRelated (system : cur.system = .process) (command : cur.command = refreshRelated)
    (elsewhere : cur.concern ≠ lone.cnc.name) (handled : Handled d net tp env logic p cur out call rslt adds) :
    lone.Did S cur call.args rslt adds (Deployment.platform net tp) out.state := by
  have callFor := handled.callFor
  have callCommand : call.command = refreshRelated := callFor.command.trans command
  rcases handled.effect.of_process (callFor.system.trans system) with ⟨notOk, -, same⟩ | ⟨cnc, store', -, effect, same⟩
  · exact .failed notOk same
  · have ramDbs : out.state.ramDbs = (Deployment.platform net tp).ramDbs := by rw [same]
    cases effect with
    | quiet => exact .elsewhere system elsewhere command rfl ramDbs
    | refreshRelated => exact .elsewhere system elsewhere command rfl ramDbs
    | brokenOff => exact .elsewhere system elsewhere command rfl ramDbs
    | update _ cmd => exact absurd (callCommand.symm.trans cmd) (by decide)
    | delete _ cmd => exact absurd (callCommand.symm.trans cmd) (by decide)
    | refreshInstance _ _ _ cmd => exact absurd (callCommand.symm.trans cmd) (by decide)
    | flushInstance _ cmd => exact absurd (callCommand.symm.trans cmd) (by decide)
    | requestRelated _ _ _ _ _ _ cmd => exact absurd (callCommand.symm.trans cmd) (by decide)
    | changed cmd _ _ _ _ _ _ _ _ _ mem name =>
      have free := cnc.commands_free cmd mem
      rw [name, callCommand] at free
      exact absurd free (by decide)

theorem did_readStorage (sent : Sent d next (tp, p) done cur ahead) (system : cur.system = .storage)
    (command : cur.command = read) (key : cur.concern = lone.cnc.name → cur.key = lone.step.key)
    (stored : ∃ item, net.ramDbs d.primary.type lone.cnc.name lone.step.key = some item ∧ lone.Current S item.inst)
    (handled : Handled d net tp env logic p cur out call rslt adds) :
    lone.Did S cur call.args rslt adds (Deployment.platform net tp) out.state := by
  have callFor := handled.callFor
  have callSystem : call.system = .storage := callFor.system.trans system
  have callCommand : call.command = read := callFor.command.trans command
  have target : d.target tp.system = d.primary := by
    have : tp.system = .storage := by rw [← system]; exact sent.system.symm
    simp [Deployment.target, this]
  have effect := handled.effect
  rw [target] at effect
  generalize hs : out.state = plat' at effect
  cases effect with
  | refused notOk adds_nil => exact .failed notOk rfl
  | process _ _ _ process => rw [callSystem] at process; cases process
  | storageScnd _ _ _ scnd => rw [callSystem] at scnd; cases scnd
  | storage cnc db' concern _ effect =>
    cases effect with
    | refused _ notOk => exact .failed notOk (setRamDb_same _ _)
    | create _ _ _ _ _ _ cmd => exact absurd (callCommand.symm.trans cmd) (by decide)
    | createFailed _ _ _ _ cmd => exact absurd (callCommand.symm.trans cmd) (by decide)
    | update _ _ _ _ _ cmd => exact absurd (callCommand.symm.trans cmd) (by decide)
    | updatePanic _ _ _ _ cmd => exact absurd (callCommand.symm.trans cmd) (by decide)
    | updateAsync _ _ _ _ cmd => exact absurd (callCommand.symm.trans cmd) (by decide)
    | delete cmd => exact absurd (callCommand.symm.trans cmd) (by decide)
    | read inst rel cmpdOffset instBytes relBytes payload cmd found writtenInst writtenRel packed =>
      refine .readStorage system command (setRamDb_same _ _) fun s hs => ?_
      rw [List.mem_singleton.1 hs]
      refine .refreshInstance rfl rfl fun hc => ?_
      -- the concern is the command's own, and the record the key's
      have own : cnc.name = lone.cnc.name := hc
      have same : cur.concern = lone.cnc.name := by
        rw [← callFor.concern, ← ClientCode.concernHandler_name concern, own]
      rw [handler (callFor.concern.trans same)] at concern
      cases concern
      obtain ⟨item, hitem, current⟩ := stored
      have record : (Deployment.platform net tp).ramDbs d.primary.type lone.cnc.name call.args.key = some item := by
        rw [callFor.key, key same]
        exact hitem
      rw [record] at found
      cases found
      exact ⟨current.key, instBytes, some relBytes, payload, rfl, packed, lone.lossless.encodes writtenInst current⟩

/-- Every step of the transaction has one of these effects. -/
theorem did (sent : Sent d next (tp, p) done cur ahead) (pending : lone.Ahead S cur)
    (stored : ∃ item, net.ramDbs d.primary.type lone.cnc.name lone.step.key = some item ∧ lone.Current S item.inst)
    (handled : Handled d net tp env logic p cur out call rslt adds) :
    lone.Did S cur call.args rslt adds (Deployment.platform net tp) out.state := by
  cases pending with
  | command system concern command key payload => exact did_command sent system concern command key handled
  | read system concern command key => exact did_read system command key handled
  | readStorage system command key => exact did_readStorage sent system command key stored handled
  | refreshInstance system command own => exact did_refreshInstance sent system command own handled
  | refreshRelated system command elsewhere => exact did_refreshRelated system command elsewhere handled

end

end LoneCommand

end Rocketcycle
