import Rocketcycle.Concern.Crud
import Rocketcycle.Concern.LogicEffects

/-!
# What storage commands do

Every way a storage command can end (`StorageEffect`, `StorageScndEffect`), with the database
after it.
-/

namespace Rocketcycle

open Command Early

variable {M : Type}

/-- The instance as `CREATE` stores it. -/
def Concern.withKey (cnc : Concern M) (newKey : String) (inst : M) : M :=
  if cnc.key inst = "" then cnc.setKey inst newKey else inst

section
variable (env : Env) (pb : RelatedCodecs) (cnc : Concern M) (command : String) (args : StepArgs) (db : RamDb M)

/-- A payload with an instance and its related data. -/
structure Parsed (inst : M) (rel : M) (instBytes relBytes : Option Bytes) : Prop where
  parts : parsePayload args.payload = .ok (instBytes, relBytes)
  inst : cnc.unmarshalOpt instBytes = .ok inst
  rel : cnc.parseRelated relBytes = .ok rel

/-- How a command ends on a primary target. -/
inductive StorageEffect : Option StepResult → List Step → RamDb M → Prop
  /-- A failure, with nothing written. -/
  | refused (rslt : Option StepResult) (notOk : ∀ r, rslt = some r → r.code ≠ .ok) : StorageEffect rslt [] db
  | create (inst : M) (instBytes relBytes : Option Bytes) (instOutBytes payload : Bytes) (relSteps : List Step)
      (cmd : command = Command.create) (parts : parsePayload args.payload = .ok (instBytes, relBytes))
      (parsed : cnc.unmarshalOpt instBytes = .ok inst) (keyed : cnc.key (cnc.withKey env.newKey inst) ≠ "")
      (written : cnc.marshal (cnc.withKey env.newKey inst) = .ok instOutBytes)
      (packed : packPayloads (some instOutBytes) relBytes = some payload)
      (requests : cnc.requestRelatedSteps pb (cnc.withKey env.newKey inst) (some instOutBytes) none = .ok relSteps) :
      StorageEffect
        (some { code := .ok, key := cnc.key (cnc.withKey env.newKey inst), cmpdOffset := some args.cmpdOffset,
                payload := some payload })
        (Crud.refreshStep cnc args (cnc.key (cnc.withKey env.newKey inst)) (some payload) :: relSteps)
        (db.create cnc.name (cnc.key (cnc.withKey env.newKey inst)) (cnc.withKey env.newKey inst) args.cmpdOffset)
  /-- The instance is created, but the step fails; the deletion that follows is ignored, it has
  the offset of the creation. -/
  | createFailed (rslt : Option StepResult) (inst : M) (instBytes relBytes : Option Bytes)
      (cmd : command = Command.create) (parts : parsePayload args.payload = .ok (instBytes, relBytes))
      (parsed : cnc.unmarshalOpt instBytes = .ok inst) (notOk : ∀ r, rslt = some r → r.code ≠ .ok) :
      StorageEffect rslt []
        (db.create cnc.name (cnc.key (cnc.withKey env.newKey inst)) (cnc.withKey env.newKey inst) args.cmpdOffset)
  | read (inst rel : M) (cmpdOffset : CompoundOffset) (instBytes relBytes payload : Bytes)
      (cmd : command = Command.read) (found : db cnc.name args.key = some ⟨inst, some rel, cmpdOffset⟩)
      (writtenInst : cnc.marshal inst = .ok instBytes) (writtenRel : cnc.related.marshal rel = .ok relBytes)
      (packed : packPayloads (some instBytes) (some relBytes) = some payload) :
      StorageEffect
        (some { code := .ok, key := cnc.key inst, cmpdOffset := some cmpdOffset, payload := some payload })
        [Crud.refreshStep cnc args (cnc.key inst) (some payload)] db
  | update (inst rel : M) (instBytes relBytes : Option Bytes) (payload : Bytes) (cmd : command = Command.update)
      (parsed : Parsed cnc args inst rel instBytes relBytes) (packed : packPayloads instBytes relBytes = some payload) :
      StorageEffect
        (some { code := .ok, key := cnc.key inst, inst := args.inst, payload := some payload })
        [Crud.refreshStep cnc args (cnc.key inst) (some payload)]
        (db.update cnc.name (cnc.key inst) inst (some rel) args.cmpdOffset)
  /-- The panic on packing the answer comes after the write. -/
  | updatePanic (inst rel : M) (instBytes relBytes : Option Bytes) (cmd : command = Command.update)
      (parsed : Parsed cnc args inst rel instBytes relBytes) :
      StorageEffect none [] (db.update cnc.name (cnc.key inst) inst (some rel) args.cmpdOffset)
  | updateAsync (inst rel : M) (instBytes relBytes : Option Bytes) (cmd : command = Command.updateAsync)
      (parsed : Parsed cnc args inst rel instBytes relBytes) :
      StorageEffect (some { code := .ok }) [] (db.update cnc.name (cnc.key inst) inst (some rel) args.cmpdOffset)
  | delete (cmd : command = Command.delete) :
      StorageEffect (some { code := .ok, key := args.key }) [Crud.flushStep cnc args args.key]
        (db.delete cnc.name args.key args.cmpdOffset)

/-- How a command ends on a secondary target: it adds no step. -/
inductive StorageScndEffect : Option StepResult → RamDb M → Prop
  | refused (rslt : Option StepResult) (notOk : ∀ r, rslt = some r → r.code ≠ .ok) : StorageScndEffect rslt db
  | create (inst : M) (instBytes relBytes : Option Bytes) (cmd : command = Command.create)
      (parts : parsePayload args.payload = .ok (instBytes, relBytes))
      (parsed : cnc.unmarshalOpt instBytes = .ok inst) (keyed : cnc.key inst ≠ "") :
      StorageScndEffect (some { code := .ok, key := cnc.key inst, payload := args.payload })
        (db.create cnc.name (cnc.key inst) inst args.cmpdOffset)
  | update (inst rel : M) (instBytes relBytes : Option Bytes)
      (cmd : command = Command.update ∨ command = Command.updateAsync)
      (parsed : Parsed cnc args inst rel instBytes relBytes) :
      StorageScndEffect (some { code := .ok }) (db.update cnc.name (cnc.key inst) inst (some rel) args.cmpdOffset)
  | delete (cmd : command = Command.delete) :
      StorageScndEffect (some { code := .ok, key := args.key }) (db.delete cnc.name args.key args.cmpdOffset)

end

section
variable {env : Env} {pb : RelatedCodecs} {cnc : Concern M} {command : String} {args : StepArgs} {db : RamDb M}

/-- The clean up of a failed creation never deletes. -/
theorem delete_create {concern key : String} {inst : M} {o : CompoundOffset} :
    (db.create concern key inst o).delete concern key o = db.create concern key inst o := by
  have old : ∃ item, db.create concern key inst o concern key = some item ∧ offsetGT o item.cmpdOffset = false := by
    unfold RamDb.create
    cases h : db concern key with
    | none => exact ⟨_, RamDb.update_none h, offsetGT_irrefl o⟩
    | some item =>
      rw [RamDb.update_some h]
      split
      · exact ⟨_, rfl, offsetGT_irrefl o⟩
      · rename_i old
        exact ⟨item, rfl, by simpa using old⟩
  obtain ⟨item, hitem, hold⟩ := old
  simp [RamDb.delete, hitem, hold]

abbrev Stored (env : Env) (pb : RelatedCodecs) (cnc : Concern M) (command : String) (args : StepArgs)
    (db : RamDb M) (r : Except Stop Answer) (db' : RamDb M) : Prop :=
  StorageEffect env pb cnc command args db (answerOf r).1 (answerOf r).2 db'

theorem notOk_fail {rslt : StepResult} {α : Type} {x : Except GoError α} {e : GoError} (errors : PlainErrors x)
    (he : x = .error e) : ∀ r, some (setStepResult env.sprintf rslt e) = some r → r.code ≠ .ok := by
  obtain ⟨msg, rfl⟩ := errors e he
  rintro r ⟨⟩ hc
  cases hc

/-- A failure before anything is written. -/
theorem stored_fail {rslt : StepResult} {α : Type} {x : Except GoError α} {e : GoError} (errors : PlainErrors x)
    (he : x = .error e) :
    Stored env pb cnc command args db (.error (.fail (setStepResult env.sprintf rslt e))) db :=
  .refused _ (notOk_fail errors he)

theorem stored_panic : Stored env pb cnc command args db (.error .panic) db := by
  apply StorageEffect.refused
  rintro r ⟨⟩

theorem post_parseInstance_bind {β : Type} {f : M × Option Bytes × Option Bytes → Handling (RamDb M) β}
    {Q : Except Stop β → RamDb M → Prop}
    (ok : ∀ inst instBytes relBytes, parsePayload args.payload = .ok (instBytes, relBytes) →
      cnc.unmarshalOpt instBytes = .ok inst → Post (f (inst, instBytes, relBytes)) db Q)
    (fail : ∀ e, (∃ msg, e = .other msg) → Q (.error (.fail (setStepResult env.sprintf {} e))) db) :
    Post (Crud.parseInstance env cnc args >>= f) db Q := by
  apply post_bind
  unfold Crud.parseInstance
  apply post_orFail_bind
  · rintro ⟨instBytes, relBytes⟩ parts
    apply post_orFail_bind
    · intro inst parsed
      exact ok inst instBytes relBytes parts parsed
    · intro e he
      exact fail e (cnc.unmarshalOpt_plain _ e he)
  · intro e he
    exact fail e (parsePayload_plain _ e he)

theorem post_write_bind {β : Type} {f : M × Option Bytes × Option Bytes → Handling (RamDb M) β}
    {Q : Except Stop β → RamDb M → Prop}
    (ok : ∀ inst rel instBytes relBytes, Parsed cnc args inst rel instBytes relBytes →
      Post (f (inst, instBytes, relBytes)) (db.update cnc.name (cnc.key inst) inst (some rel) args.cmpdOffset) Q)
    (fail : ∀ e, (∃ msg, e = .other msg) → Q (.error (.fail (setStepResult env.sprintf {} e))) db) :
    Post (Crud.write env cnc args >>= f) db Q := by
  apply post_bind
  unfold Crud.write
  apply post_parseInstance_bind
  · intro inst instBytes relBytes parts parsed
    apply post_orFail_bind
    · intro rel hrel
      exact ok inst rel instBytes relBytes ⟨parts, parsed, hrel⟩
    · intro e he
      exact fail e (cnc.parseRelated_plain _ e he)
  · exact fail

theorem notOk_other {rslt : StepResult} {e : GoError} (he : ∃ msg, e = .other msg) :
    ∀ r, some (setStepResult env.sprintf rslt e) = some r → r.code ≠ .ok := by
  obtain ⟨msg, rfl⟩ := he
  rintro r ⟨⟩ hc
  cases hc

theorem update_storage (cmd : command = Command.update) :
    Post (Crud.update env cnc args) db (Stored env pb cnc command args db) := by
  unfold Crud.update
  apply post_write_bind
  · intro inst rel instBytes relBytes parsed
    apply post_orPanic_bind
    · intro payload packed
      exact post_pure (.update inst rel instBytes relBytes payload cmd parsed packed)
    · intro _
      exact .updatePanic inst rel instBytes relBytes cmd parsed
  · intro e he
    exact .refused _ (notOk_other he)

theorem updateAsync_storage (cmd : command = Command.updateAsync) :
    Post (Crud.updateAsync env cnc args) db (Stored env pb cnc command args db) := by
  unfold Crud.updateAsync
  apply post_write_bind
  · intro inst rel instBytes relBytes parsed
    exact post_pure (.updateAsync inst rel instBytes relBytes cmd parsed)
  · intro e he
    exact .refused _ (notOk_other he)

theorem delete_storage (cmd : command = Command.delete) :
    Post (Crud.delete cnc args) db (Stored env pb cnc command args db) := by
  unfold Crud.delete
  apply post_modify_bind
  exact post_pure (.delete cmd)

theorem ramDbRead_ok {key : String} {inst rel : M} {o : CompoundOffset} (h : cnc.ramDbRead db key = .ok (inst, rel, o)) :
    db cnc.name key = some ⟨inst, some rel, o⟩ := by
  unfold Concern.ramDbRead RamDb.read at h
  cases hk : db cnc.name key with
  | none => rw [hk] at h; cases h
  | some item =>
    obtain ⟨inst', rel', o'⟩ := item
    rw [hk] at h
    cases rel' with
    | none => cases h
    | some rel' => cases h; rfl

theorem ramDbRead_plain {key : String} {e : GoError} (h : cnc.ramDbRead db key = .error (.err e)) :
    ∃ msg, e = .other msg := by
  unfold Concern.ramDbRead RamDb.read at h
  cases hk : db cnc.name key with
  | none => rw [hk] at h; cases h; exact ⟨_, rfl⟩
  | some item =>
    obtain ⟨inst', rel', o'⟩ := item
    rw [hk] at h
    cases rel' <;> cases h

theorem read_storage (cmd : command = Command.read) :
    Post (Crud.read env cnc args) db (Stored env pb cnc command args db) := by
  unfold Crud.read
  apply post_get_bind
  apply post_orStop_bind
  · rintro ⟨inst, rel, o⟩ hread
    apply post_orFail_bind
    · intro instBytes hinst
      apply post_orFail_bind
      · intro relBytes hrel
        apply post_orPanic_bind
        · intro payload packed
          exact post_pure (.read inst rel o instBytes relBytes payload cmd (ramDbRead_ok hread) hinst hrel packed)
        · intro _
          exact stored_panic
      · intro e he
        exact stored_fail (cnc.related.marshal_plain _) he
    · intro e he
      exact stored_fail (cnc.marshal_plain _) he
  · intro e he
    exact .refused _ (notOk_other (ramDbRead_plain he))
  · intro g _
    exact stored_panic

/-! ## Creation -/

theorem requestRelatedSteps_plain {inst : M} {instBytes relBytes : Option Bytes} {e : GoError}
    (h : cnc.requestRelatedSteps pb inst instBytes relBytes = .error (.err e)) : ∃ msg, e = .other msg := by
  unfold Concern.requestRelatedSteps at h
  split at h
  · cases hp : packOrPanic instBytes relBytes with
    | error t =>
      rw [hp] at h
      unfold packOrPanic at hp
      split at hp <;> cases hp
      cases h
    | ok payload =>
      rw [hp] at h
      obtain ⟨⟨fld, idField⟩, -, hstep⟩ := mapM_error h
      dsimp only [requestRelatedStep] at hstep
      cases hm : pb.request.marshal ⟨cnc.name, cnc.key inst, fld.nameGo, some payload⟩ with
      | error e' =>
        rw [hm] at hstep
        cases hstep
        exact pb.request.marshal_plain _ _ hm
      | ok b => rw [hm] at hstep; cases hstep
  · cases h

theorem post_cleanUp_bind {α β : Type} {rslt : StepResult} {key : String} {x : Reply α}
    {f : α → Handling (RamDb M) β} {Q : Except Stop β → RamDb M → Prop} (ok : ∀ a, x = .ok a → Post (f a) db Q)
    (error : ∀ e, x = .error (.err e) →
      Q (.error (.fail (setStepResult env.sprintf rslt e))) (cnc.ramDbDelete db key args.cmpdOffset))
    (panic : Q (.error .panic) db) : Post (Crud.cleanUp env cnc args rslt key x >>= f) db Q := by
  apply post_bind
  cases x with
  | ok a => exact ok a rfl
  | error t =>
    cases t with
    | err e => exact error e rfl
    | panic g => exact panic

theorem create_storage (cmd : command = Command.create) :
    Post (Crud.create env pb cnc args) db (Stored env pb cnc command args db) := by
  unfold Crud.create
  apply post_parseInstance_bind
  swap
  · intro e he
    exact .refused _ (notOk_other he)
  intro inst instBytes relBytes parts parsed
  -- a failure from here on finds the instance created
  have broken : ∀ rslt : Option StepResult, (∀ r, rslt = some r → r.code ≠ .ok) →
      StorageEffect env pb cnc command args db rslt []
        (db.create cnc.name (cnc.key (cnc.withKey env.newKey inst)) (cnc.withKey env.newKey inst) args.cmpdOffset) :=
    fun rslt notOk => .createFailed rslt inst instBytes relBytes cmd parts parsed notOk
  have failed : ∀ (rslt : StepResult) (e : GoError), (∃ msg, e = .other msg) →
      Stored env pb cnc command args db (.error (.fail (setStepResult env.sprintf rslt e)))
        (cnc.ramDbDelete (db.create cnc.name (cnc.key (cnc.withKey env.newKey inst)) (cnc.withKey env.newKey inst)
          args.cmpdOffset) (cnc.key (cnc.withKey env.newKey inst)) args.cmpdOffset) := by
    intro rslt e he
    rw [Concern.ramDbDelete, delete_create]
    exact broken _ (notOk_other he)
  apply post_get_bind
  apply post_set_bind
  apply post_ite
  · intro _
    apply failed
    exact ⟨_, rfl⟩
  intro keyed
  apply post_cleanUp_bind
  · intro instOutBytes hout
    apply post_orPanic_bind
    · intro payload packed
      apply post_cleanUp_bind
      · intro relSteps requests
        have written : cnc.marshal (cnc.withKey env.newKey inst) = .ok instOutBytes := by
          unfold Concern.withKey
          cases hm : cnc.marshal (if cnc.key inst = "" then cnc.setKey inst env.newKey else inst) with
          | ok b => rw [hm] at hout; cases hout; rfl
          | error e => rw [hm] at hout; cases hout
        exact post_pure (.create inst instBytes relBytes instOutBytes payload relSteps cmd parts parsed keyed written
          packed requests)
      · intro e he
        exact failed _ e (requestRelatedSteps_plain he)
      · apply broken
        rintro r ⟨⟩
    · intro _
      apply broken
      rintro r ⟨⟩
  · intro e he
    apply failed
    cases hm : cnc.marshal (cnc.withKey env.newKey inst) with
    | ok b => rw [Concern.withKey] at hm; rw [hm] at he; cases he
    | error e' =>
      rw [Concern.withKey] at hm
      rw [hm] at he
      cases he
      exact cnc.marshal_plain _ _ hm
  · apply broken
    rintro r ⟨⟩

/-- The instance that `CREATE` finds in a payload, and passes to `Create`. -/
def Concern.createInput (cnc : Concern M) (payload : Option Bytes) : Except GoError M := do
  let (instBytes, _) ← parsePayload payload
  cnc.unmarshalOpt instBytes

theorem createInput_ok {payload : Option Bytes} {inst : M} :
    cnc.createInput payload = .ok inst ↔
      ∃ instBytes relBytes, parsePayload payload = .ok (instBytes, relBytes) ∧ cnc.unmarshalOpt instBytes = .ok inst := by
  unfold Concern.createInput
  cases parsePayload payload with
  | error e =>
    constructor
    · rintro ⟨⟩
    · rintro ⟨_, _, ⟨⟩, -⟩
  | ok parts =>
    constructor
    · intro h
      exact ⟨parts.1, parts.2, rfl, h⟩
    · rintro ⟨instBytes, relBytes, ⟨⟩, h⟩
      exact h

theorem createInput_wire (payload : Option Bytes) : cnc.createInput (wireBytes payload) = cnc.createInput payload := by
  rcases payload with _ | _ | ⟨b, bs⟩ <;> rfl

theorem storage_effect : Post (Crud.storage env pb cnc args command) db (Stored env pb cnc command args db) := by
  unfold Crud.storage
  apply post_ite create_storage
  intro _
  apply post_ite read_storage
  intro _
  apply post_ite update_storage
  intro _
  apply post_ite updateAsync_storage
  intro _
  apply post_ite delete_storage
  intro _
  exact post_fail (stored_fail (plainErrors_other _ : PlainErrors (.error _ : Except GoError Unit)) rfl)

abbrev StoredScnd (cnc : Concern M) (command : String) (args : StepArgs) (db : RamDb M)
    (r : Except Stop Answer) (db' : RamDb M) : Prop :=
  (answerOf r).2 = [] ∧ StorageScndEffect cnc command args db (answerOf r).1 db'

theorem storageScnd_effect :
    Post (Crud.storageScnd env cnc args command) db (StoredScnd cnc command args db) := by
  unfold Crud.storageScnd
  apply post_ite
  · intro cmd
    unfold Crud.createScnd
    apply post_parseInstance_bind
    · intro inst instBytes relBytes parts parsed
      apply post_ite
      · intro _
        exact post_fail ⟨rfl, .refused _ (notOk_other ⟨_, rfl⟩)⟩
      · intro keyed
        apply post_modify_bind
        have same : (cnc.ramDbCreate env.newKey db inst args.cmpdOffset).2 =
            db.create cnc.name (cnc.key inst) inst args.cmpdOffset := by
          simp [Concern.ramDbCreate, keyed]
        rw [same]
        exact post_pure ⟨rfl, .create inst instBytes relBytes cmd parts parsed keyed⟩
    · intro e he
      exact ⟨rfl, .refused _ (notOk_other he)⟩
  intro _
  apply post_ite
  · intro cmd
    unfold Crud.updateAsync
    apply post_write_bind
    · intro inst rel instBytes relBytes parsed
      exact post_pure ⟨rfl, .update inst rel instBytes relBytes cmd parsed⟩
    · intro e he
      exact ⟨rfl, .refused _ (notOk_other he)⟩
  intro _
  apply post_ite
  · intro cmd
    unfold Crud.deleteScnd
    apply post_modify_bind
    exact post_pure ⟨rfl, .delete cmd⟩
  · intro _
    exact post_fail ⟨rfl, .refused _ (notOk_other ⟨_, rfl⟩)⟩

end

/-! ## Calls -/

section
variable {cc : ClientCode M} {env : Env} {logic : LogicHandler M} {call : Call} {plat plat' : Platform M}
  {rslt : Option StepResult} {addSteps : List Step} {stgTgt : StorageTarget}

/-- One database replaced by another. -/
def Platform.setRamDb (plat : Platform M) (type : String) (db : RamDb M) : Platform M :=
  { plat with ramDbs := fun t => if t = type then db else plat.ramDbs t }

theorem setRamDb_same (plat : Platform M) (type : String) : plat.setRamDb type (plat.ramDbs type) = plat := by
  obtain ⟨store, dbs⟩ := plat
  unfold Platform.setRamDb
  congr
  funext t
  dsimp only
  split
  · rename_i h
    rw [h]
  · rfl

/-- What a forward call of `handleCommand` on a target of the right kind does. -/
inductive CommandEffect (cc : ClientCode M) (env : Env) (logic : LogicHandler M) (stgTgt : StorageTarget)
    (call : Call) (plat : Platform M) (rslt : Option StepResult) (addSteps : List Step) : Platform M → Prop
  /-- No concern, no handler or no system: nothing happens. -/
  | refused (notOk : ∀ r, rslt = some r → r.code ≠ .ok) (adds : addSteps = []) :
      CommandEffect cc env logic stgTgt call plat rslt addSteps plat
  | process (cnc : Concern M) (store' : InstanceStore) (concern : cc.concernHandler call.concern = some cnc)
      (system : call.system = .process)
      (effect : LogicEffect env cc.pb cnc logic call.command call.args plat.instanceStore rslt addSteps store') :
      CommandEffect cc env logic stgTgt call plat rslt addSteps { plat with instanceStore := store' }
  | storage (cnc : Concern M) (db' : RamDb M) (concern : cc.concernHandler call.concern = some cnc)
      (system : call.system = .storage)
      (effect : StorageEffect env cc.pb cnc call.command call.args (plat.ramDbs stgTgt.type) rslt addSteps db') :
      CommandEffect cc env logic stgTgt call plat rslt addSteps (plat.setRamDb stgTgt.type db')
  | storageScnd (cnc : Concern M) (db' : RamDb M) (concern : cc.concernHandler call.concern = some cnc)
      (system : call.system = .storageScnd) (adds : addSteps = [])
      (effect : StorageScndEffect cnc call.command call.args (plat.ramDbs stgTgt.type) rslt db') :
      CommandEffect cc env logic stgTgt call plat rslt addSteps (plat.setRamDb stgTgt.type db')

/-- A process command has been refused, or has had the effect of its case on the instance store. -/
theorem CommandEffect.of_process {plat' : Platform M}
    (h : CommandEffect cc env logic stgTgt call plat rslt addSteps plat') (system : call.system = .process) :
    ((∀ r, rslt = some r → r.code ≠ .ok) ∧ addSteps = [] ∧ plat' = plat) ∨
      ∃ cnc store', cc.concernHandler call.concern = some cnc ∧
        LogicEffect env cc.pb cnc logic call.command call.args plat.instanceStore rslt addSteps store' ∧
        plat' = { plat with instanceStore := store' } := by
  cases h with
  | refused notOk adds_nil => exact .inl ⟨notOk, adds_nil, rfl⟩
  | process cnc store' concern _ effect => exact .inr ⟨cnc, store', concern, effect, rfl⟩
  | storage _ _ _ storage => rw [system] at storage; cases storage
  | storageScnd _ _ _ storage => rw [system] at storage; cases storage

/-- Only a deletion takes a record away, and a write replaces an older one at most. -/
theorem StorageEffect.newer {cnc : Concern M} {command : String} {args : StepArgs} {db db' : RamDb M}
    (h : StorageEffect env cc.pb cnc command args db rslt addSteps db') (notDelete : command ≠ Command.delete) :
    db.Newer db' := by
  cases h with
  | refused => exact .refl db
  | read => exact .refl db
  | create => exact RamDb.update_newer _ _ _ _ _ _
  | createFailed => exact RamDb.update_newer _ _ _ _ _ _
  | update => exact RamDb.update_newer _ _ _ _ _ _
  | updatePanic => exact RamDb.update_newer _ _ _ _ _ _
  | updateAsync => exact RamDb.update_newer _ _ _ _ _ _
  | delete cmd => exact absurd cmd notDelete

theorem StorageScndEffect.newer {cnc : Concern M} {command : String} {args : StepArgs} {db db' : RamDb M}
    (h : StorageScndEffect cnc command args db rslt db') (notDelete : command ≠ Command.delete) : db.Newer db' := by
  cases h with
  | refused => exact .refl db
  | create => exact RamDb.update_newer _ _ _ _ _ _
  | update => exact RamDb.update_newer _ _ _ _ _ _
  | delete cmd => exact absurd cmd notDelete

theorem Platform.setRamDb_newer {type : String} {db : RamDb M} (h : (plat.ramDbs type).Newer db) (t : String) :
    (plat.ramDbs t).Newer ((plat.setRamDb type db).ramDbs t) := by
  unfold Platform.setRamDb
  dsimp only
  split
  · rename_i same
    rw [same]
    exact h
  · exact .refl _

theorem CommandEffect.newer (h : CommandEffect cc env logic stgTgt call plat rslt addSteps plat')
    (notDelete : call.command ≠ Command.delete) (type : String) : (plat.ramDbs type).Newer (plat'.ramDbs type) := by
  cases h with
  | refused => exact .refl _
  | process => exact .refl _
  | storage _ _ _ _ effect => exact Platform.setRamDb_newer (effect.newer notDelete) type
  | storageScnd _ _ _ _ _ effect => exact Platform.setRamDb_newer (effect.newer notDelete) type

/-- The instance that a storage command is to write: the one of its payload, which a creation gives a key. -/
def Concern.writes (cnc : Concern M) (env : Env) (call : Call) : Except GoError M :=
  (cnc.createInput call.args.payload).map fun inst =>
    if call.system = .storage ∧ call.command = create then cnc.withKey env.newKey inst else inst

theorem writes_created {cnc : Concern M} {inst : M} (system : call.system = .storage) (cmd : call.command = create)
    (input : cnc.createInput call.args.payload = .ok inst) : cnc.writes env call = .ok (cnc.withKey env.newKey inst) := by
  simp [Concern.writes, input, system, cmd, Except.map]

theorem writes_other {cnc : Concern M} (other : ¬(call.system = .storage ∧ call.command = create)) :
    cnc.writes env call = cnc.createInput call.args.payload := by
  simp only [Concern.writes, if_neg other]
  cases cnc.createInput call.args.payload <;> rfl

/-- What holds of all records still does once a command has run, if it holds of the instance that the command writes. -/
theorem CommandEffect.all {P : String → String → M → Prop} (h : CommandEffect cc env logic stgTgt call plat rslt addSteps plat')
    (all : ∀ type, (plat.ramDbs type).All P)
    (written : ∀ cnc inst, cc.concernHandler call.concern = some cnc → isStorageSystem call.system = true →
      call.command ∈ [create, update, updateAsync] → cnc.writes env call = .ok inst → P call.concern (cnc.key inst) inst)
    (type : String) : (plat'.ramDbs type).All P := by
  have set : ∀ {db'}, db'.All P → ((plat.setRamDb stgTgt.type db').ramDbs type).All P := by
    intro db' here
    unfold Platform.setRamDb
    dsimp only
    split
    · exact here
    · exact all type
  have before := all stgTgt.type
  cases h with
  | refused | process => exact all type
  | storage cnc db' found system effect =>
    have name := ClientCode.concernHandler_name found
    have storage : isStorageSystem call.system = true := by simp [isStorageSystem, system]
    have input : ∀ {inst instBytes relBytes}, parsePayload call.args.payload = .ok (instBytes, relBytes) →
        cnc.unmarshalOpt instBytes = .ok inst → cnc.createInput call.args.payload = .ok inst :=
      fun parts parsed => createInput_ok.2 ⟨_, _, parts, parsed⟩
    have created : ∀ {inst}, call.command = create → cnc.createInput call.args.payload = .ok inst →
        P cnc.name (cnc.key (cnc.withKey env.newKey inst)) (cnc.withKey env.newKey inst) := by
      intro inst cmd input
      rw [name]
      exact written cnc _ found storage (by simp [cmd]) (writes_created system cmd input)
    have updated : ∀ {inst instBytes relBytes rel}, call.command = update ∨ call.command = updateAsync →
        Parsed cnc call.args inst rel instBytes relBytes → P cnc.name (cnc.key inst) inst := by
      intro inst instBytes relBytes rel cmd parsed
      have other : call.command ≠ create := by
        rcases cmd with cmd | cmd <;> (rw [cmd]; decide)
      rw [name]
      apply written cnc inst found storage
      · rcases cmd with cmd | cmd <;> simp [cmd]
      · rw [writes_other fun same => other same.2, input parsed.parts parsed.inst]
    apply set
    cases effect with
    | refused | read => exact before
    | create _ _ _ _ _ _ cmd parts parsed => exact before.update (created cmd (input parts parsed))
    | createFailed _ _ _ _ cmd parts parsed => exact before.update (created cmd (input parts parsed))
    | update _ _ _ _ _ cmd parsed => exact before.update (updated (.inl cmd) parsed)
    | updatePanic _ _ _ _ cmd parsed => exact before.update (updated (.inl cmd) parsed)
    | updateAsync _ _ _ _ cmd parsed => exact before.update (updated (.inr cmd) parsed)
    | delete => exact before.delete
  | storageScnd cnc db' found system _ effect =>
    have name := ClientCode.concernHandler_name found
    have storage : isStorageSystem call.system = true := by simp [isStorageSystem, system]
    have copied : ∀ {inst instBytes relBytes}, call.command ∈ [create, update, updateAsync] →
        parsePayload call.args.payload = .ok (instBytes, relBytes) → cnc.unmarshalOpt instBytes = .ok inst →
        P cnc.name (cnc.key inst) inst := by
      intro inst instBytes relBytes cmd parts parsed
      rw [name]
      apply written cnc inst found storage cmd
      rw [writes_other (by simp [system]), createInput_ok.2 ⟨_, _, parts, parsed⟩]
    apply set
    cases effect with
    | refused => exact before
    | create _ _ _ cmd parts parsed => exact before.update (copied (by simp [cmd]) parts parsed)
    | update _ _ _ _ cmd parsed =>
      refine before.update (copied ?_ parsed.parts parsed.inst)
      rcases cmd with cmd | cmd <;> simp [cmd]
    | delete => exact before.delete

theorem refused_effect {msg : String} (h : refused env msg plat = ((rslt, addSteps), plat')) :
    CommandEffect cc env logic stgTgt call plat rslt addSteps plat' := by
  cases h
  apply CommandEffect.refused
  · rintro r ⟨⟩ hc
    cases hc
  · rfl

theorem handleCrudCommand_effect {cnc : Concern M} (concern : cc.concernHandler call.concern = some cnc)
    (forward : call.direction = .forward) (target : cc.storageTargets call.storageTarget = some stgTgt)
    (handler : stgTgt.type ∈ cc.crudHandlers) (storage : isStorageSystem call.system = true)
    (primary : stgTgt.isPrimary = decide (call.system = .storage))
    (h : cnc.handleCrudCommand cc env call plat = ((rslt, addSteps), plat')) :
    CommandEffect cc env logic stgTgt call plat rslt addSteps plat' := by
  unfold Concern.handleCrudCommand at h
  simp only [forward, storage, target, handler, if_true] at h
  simp only [reduceCtorEq, decide_false, Bool.false_and, Bool.not_true, Bool.false_eq_true, if_false] at h
  unfold Crud.onTarget at h
  simp only [primary] at h
  by_cases system : call.system = .storage
  · have ends : Post (Crud.storage env cc.pb cnc call.args call.command) (plat.ramDbs stgTgt.type)
        (Stored env cc.pb cnc call.command call.args (plat.ramDbs stgTgt.type)) := storage_effect
    simp only [system, decide_true, Bool.not_true, Bool.false_eq_true, if_true, if_false, finish, Prod.mk.injEq] at h
    unfold Post Stored at ends
    rw [h.1] at ends
    rw [← h.2]
    exact .storage cnc _ concern system ends
  · have scnd : call.system = .storageScnd := by
      simpa [isStorageSystem, system] using storage
    have ends : Post (Crud.storageScnd env cnc call.args call.command) (plat.ramDbs stgTgt.type)
        (StoredScnd cnc call.command call.args (plat.ramDbs stgTgt.type)) := storageScnd_effect
    simp only [scnd, finish, Prod.mk.injEq, reduceCtorEq, decide_false, Bool.false_eq_true, if_false, ne_eq,
      not_true_eq_false] at h
    unfold Post StoredScnd at ends
    rw [h.1] at ends
    rw [← h.2]
    exact .storageScnd cnc _ concern scnd ends.1 ends.2

/-- A forward call ends in one of the cases. -/
theorem handleCommand_effect (forward : call.direction = .forward)
    (target : isStorageSystem call.system = true → cc.storageTargets call.storageTarget = some stgTgt ∧
      stgTgt.type ∈ cc.crudHandlers ∧ stgTgt.isPrimary = decide (call.system = .storage))
    (noInst : call.command = refreshInstance → call.args.inst = none)
    (h : handleCommand cc env logic call plat = ((rslt, addSteps), plat')) :
    CommandEffect cc env logic stgTgt call plat rslt addSteps plat' := by
  unfold handleCommand at h
  cases concern : cc.concernHandler call.concern with
  | none =>
    rw [concern] at h
    exact refused_effect h
  | some cnc =>
    rw [concern] at h
    dsimp only at h
    split at h
    · rename_i system
      rcases hl : cnc.handleLogicCommand env cc.pb logic call plat.instanceStore with ⟨⟨rslt', adds'⟩, store'⟩
      rw [hl] at h
      cases h
      exact .process cnc store' concern system (handleLogicCommand_effect forward system noInst hl)
    split at h
    · rename_i storage
      obtain ⟨htarget, handler, primary⟩ := target storage
      exact handleCrudCommand_effect concern forward htarget handler storage primary h
    · exact refused_effect h

end

end Rocketcycle
