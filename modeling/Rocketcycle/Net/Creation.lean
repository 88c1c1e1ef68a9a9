import Rocketcycle.Net.Sound

/-!
# Creations

A `CREATE` is stored under the offset of its validation, which is routed by a random key, and every
later write to the instance under an offset of the partition that its key is routed to. The two
compare by the numbers of their partitions.
-/

namespace Rocketcycle

open Command Runs

variable {M : Type}

/-- A `CREATE` stores an instance under `key`, at offset `o`. -/
def Deployment.Creates (d : Deployment M) (net : Net M) (a : Action M) (concern key : String) (o : CompoundOffset) :
    Prop :=
  match d.called net a with
  | some (call, some r) =>
    (call.system = .storage ∧ call.command = create ∧ call.concern = concern ∧ call.args.cmpdOffset = o) ∧
      r.code = .ok ∧ r.key = key
  | _ => False

/-- A step that updates or deletes `key` on primary storage runs at offset `o`. -/
def Deployment.Writes (d : Deployment M) (net : Net M) (a : Action M) (concern key : String) (o : CompoundOffset) :
    Prop :=
  match d.called net a with
  | some (call, _) =>
    call.system = .storage ∧ call.command ∈ [update, updateAsync, delete] ∧ call.concern = concern ∧
      call.args.key = key ∧ call.args.cmpdOffset = o
  | none => False

instance (d : Deployment M) (net : Net M) (a : Action M) (concern key : String) (o : CompoundOffset) :
    Decidable (d.Creates net a concern key o) := by
  unfold Deployment.Creates
  split <;> infer_instance

instance (d : Deployment M) (net : Net M) (a : Action M) (concern key : String) (o : CompoundOffset) :
    Decidable (d.Writes net a concern key o) := by
  unfold Deployment.Writes
  split <;> infer_instance

section
variable {d : Deployment M} {net net' : Net M} {a : Action M} {concern key : String} {o : CompoundOffset}

/-- A storage command runs at the offset of a message that has been read. -/
theorem storage_call_dated (sound : Sound d net) (h : d.step net a = some net') {call : Call}
    {rslt : Option StepResult} (hc : d.called net a = some (call, rslt)) (system : call.system = .storage) :
    ∃ p n : Nat, call.args.cmpdOffset = ⟨d.generation call.concern .process, p, n⟩ ∧
      n < net.next ⟨call.concern, .process, p⟩ ∧
      (call.command ≠ create → call.command ≠ validateCreate →
        p = fnv64Hash (stringBytes call.args.key) (d.partitions call.concern .process)) := by
  obtain ⟨tp, env, logic, p, before, after, done, cur, ahead, adds, -, consumed, handled⟩ :=
    called_handled sound h hc
  have callFor := handled.callFor
  have storage : cur.system = .storage := by rw [← callFor.system, system]
  have notProcess : cur.system ≠ .process := by simp [storage]
  obtain ⟨part, n, offset, read, route⟩ := consumed.sent.curDated notProcess
  rw [handled.storage_offset notProcess] at offset
  rw [callFor.concern, callFor.command, callFor.key]
  exact ⟨part, n, Option.some.inj offset, read, route (by simp [storage])⟩

theorem Deployment.Creates.dated (created : d.Creates net a concern key o) (sound : Sound d net)
    (h : d.step net a = some net') :
    ∃ p n : Nat, o = ⟨d.generation concern .process, p, n⟩ ∧ n < net.next ⟨concern, .process, p⟩ := by
  unfold Deployment.Creates at created
  split at created
  · rename_i call r hc
    obtain ⟨⟨system, -, rfl, rfl⟩, -⟩ := created
    obtain ⟨p, n, offset, read, -⟩ := storage_call_dated sound h hc system
    exact ⟨p, n, offset, read⟩
  · exact created.elim

theorem Deployment.Writes.dated (written : d.Writes net a concern key o) (sound : Sound d net)
    (h : d.step net a = some net') :
    ∃ n : Nat, o = ⟨d.generation concern .process,
      (fnv64Hash (stringBytes key) (d.partitions concern .process) : Nat), n⟩ := by
  unfold Deployment.Writes at written
  split at written
  · rename_i call rslt hc
    obtain ⟨system, command, rfl, rfl, rfl⟩ := written
    obtain ⟨p, n, offset, -, route⟩ := storage_call_dated sound h hc system
    have others : call.command ≠ create ∧ call.command ≠ validateCreate := by
      simp only [List.mem_cons, List.not_mem_nil, or_false] at command
      rcases command with hc | hc | hc <;> (rw [hc]; decide)
    rw [route others.1 others.2] at offset
    exact ⟨n, offset⟩
  · exact written.elim

end

/-- A write whose process message was read after the `CREATE` had been stored is the newer one
exactly if the validation was not read on a partition beyond that of the key. -/
theorem write_outranks_create_iff {d : Deployment M} {net₀ net : Net M} {tr : List (Net M × Action M)}
    (start : net₀.inFlight = []) (run : Path d.step net₀ tr net) {i j : Nat} {e e' : Net M × Action M}
    (hi : tr[i]? = some e) (hj : tr[j]? = some e') (before : i < j) {concern key : String} {oc o : CompoundOffset}
    (created : d.Creates e.1 e.2 concern key oc) (written : d.Writes e'.1 e'.2 concern key o)
    (later : (e.1.next ⟨concern, .process, o.partition.toNat⟩ : Int) ≤ o.offset) :
    offsetGT o oc = true ↔ oc.partition ≤ fnv64Hash (stringBytes key) (d.partitions concern .process) := by
  have sound₀ : Sound d net₀ := by
    intro m hm
    rw [start] at hm
    cases hm
  obtain ⟨first, net₁, mid, net₂, hstep, middle, hstep', -⟩ := run.pair hi hj before
  have sound₁ := sound₀.run first
  have sound₂ := (sound₁.step hstep).run middle
  obtain ⟨p, n, rfl, read⟩ := created.dated sound₁ hstep
  obtain ⟨n', rfl⟩ := written.dated sound₂ hstep'
  generalize hq : fnv64Hash (stringBytes key) (d.partitions concern .process) = q at later ⊢
  simp only [Int.toNat_natCast] at later
  simp only [offsetGT, if_true]
  by_cases same : q = p
  · -- on one partition the messages are in the order of their offsets
    subst same
    simp
    omega
  · have ne : ¬((q : Int) = (p : Int)) := by omega
    rw [if_neg ne]
    simp
    omega

/-- Two transactions after one another: a `CREATE` whose validation is read on partition `p`, and a
command on the instance. -/
def createThenSet (uid : Bytes) (p : Nat) : List (Action Bytes) :=
  [sampleSubmit uid [sampleStep "Player" create "" [107, 1]], sampleConsume "Player" .process p,
   sampleConsume "Player" .storage 0, sampleConsume "Player" .process 0,
   sampleSubmit uid [sampleStep "Player" "Set" "k" [2]], sampleConsume "Player" .process 0,
   sampleConsume "Player" .storage 0]

def twoPartitions : Deployment Bytes := .sample 2 (by decide)

/-- The third and the last action of the run run a `CREATE` at `oc`, and a write at `o` that has been
read after it. -/
def storesAt (uid : Bytes) (p : Nat) (oc o : CompoundOffset) : Bool :=
  let tr := trace twoPartitions.step Net.new (createThenSet uid p)
  (runs twoPartitions.step Net.new (createThenSet uid p)).isSome &&
    (tr[2]?.any fun e => decide (twoPartitions.Creates e.1 e.2 "Player" "k" oc ∧
      (e.1.next ⟨"Player", .process, o.partition.toNat⟩ : Int) ≤ o.offset)) &&
    tr[6]?.any fun e => decide (twoPartitions.Writes e.1 e.2 "Player" "k" o)

theorem createThenSet_storage {uid : Bytes} {p : Nat} {oc o : CompoundOffset} (h : storesAt uid p oc o = true) :
    ∃ tr net e e', tr.map Prod.snd = createThenSet uid p ∧ Path twoPartitions.step Net.new tr net ∧
      tr[2]? = some e ∧ tr[6]? = some e' ∧ twoPartitions.Creates e.1 e.2 "Player" "k" oc ∧
      twoPartitions.Writes e'.1 e'.2 "Player" "k" o ∧
      (e.1.next ⟨"Player", .process, o.partition.toNat⟩ : Int) ≤ o.offset := by
  simp only [storesAt, Bool.and_eq_true, Option.any_eq_true, decide_eq_true_eq] at h
  obtain ⟨⟨taken, e, he, created, later⟩, e', he', written⟩ := h
  obtain ⟨net, hnet⟩ := Option.isSome_iff_exists.1 taken
  exact ⟨_, net, e, e', trace_actions hnet, path_of_runs hnet, he, he', created, written, later⟩

/-- The validation is read on partition 1, the command on partition 0: the update is not newer than
the creation, and is discarded. -/
theorem create_outranks_later_update :
    ∃ tr net e e', tr.map Prod.snd = createThenSet [0] 1 ∧ Path twoPartitions.step Net.new tr net ∧
      tr[2]? = some e ∧ tr[6]? = some e' ∧ twoPartitions.Creates e.1 e.2 "Player" "k" ⟨1, 1, 0⟩ ∧
      twoPartitions.Writes e'.1 e'.2 "Player" "k" ⟨1, 0, 1⟩ ∧ (e.1.next ⟨"Player", .process, 0⟩ : Int) ≤ 1 ∧
      offsetGT ⟨1, 0, 1⟩ ⟨1, 1, 0⟩ = false := by
  have run : storesAt [0] 1 ⟨1, 1, 0⟩ ⟨1, 0, 1⟩ = true := by decide +kernel
  obtain ⟨tr, net, e, e', acts, path, he, he', created, written, later⟩ := createThenSet_storage run
  exact ⟨tr, net, e, e', acts, path, he, he', created, written, later, by decide⟩

theorem write_outranks_create_createThenSet :
    offsetGT ⟨1, 0, 2⟩ ⟨1, 0, 0⟩ = true ↔
      (0 : Int) ≤ fnv64Hash (stringBytes "k") (twoPartitions.partitions "Player" .process) := by
  have run : storesAt [1] 0 ⟨1, 0, 0⟩ ⟨1, 0, 2⟩ = true := by decide +kernel
  obtain ⟨tr, net, e, e', -, path, he, he', created, written, later⟩ := createThenSet_storage run
  exact write_outranks_create_iff rfl path he he' (by decide) created written later

end Rocketcycle
