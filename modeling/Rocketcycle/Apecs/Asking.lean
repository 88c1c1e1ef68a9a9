import Rocketcycle.Apecs.Children
import Rocketcycle.Apecs.Faults

/-!
# The producers that a message asks for

Which calls of `GetManagedProducer` a consumer makes over one message, told from the message, the
instance store and the answer of the command. A concern is named by a step, and nothing checks that
the platform has it.
-/

namespace Rocketcycle

open Command

/-- The instance of the step is not in the store. -/
structure Misses (store : InstanceStore) (txn : ApecsTxn) (tp : TopicParts) (cur : Step) (key : String) : Prop
    extends Fits txn tp cur key where
  looksUp : cur.looksUp = true
  missing : store.getInstance key = none

/-- The producers asked for behind a step with its result: that of the next step, or those of a
completion. What cannot be sent on is reported. -/
inductive AsksBehind (pb : RelatedCodecs) (store : InstanceStore) (done : List Step) (cur : Step) :
    List Step → String × TopicName → Prop
  | next {next : Step} {ahead : List Step} {name : TopicName} (valid : ∀ s ∈ next :: ahead, s.ValidSystem)
      (topic : systemToTopic next.system = some name) : AsksBehind pb store done cur (next :: ahead) (next.concern, name)
  | unsent {next : Step} {ahead : List Step}
      (unsendable : ¬∀ s ∈ cur :: next :: ahead, s.ValidSystem ∧ s.validUtf8 = true) :
      AsksBehind pb store done cur (next :: ahead) (next.concern, .error)
  | copy {step : Step} (mem : step ∈ done ++ [cur]) (write : step.isStorageWrite = true) :
      AsksBehind pb store done cur [] (step.concern, .storageScnd)
  | update {mapKey : String} {last : Step} {name : TopicName}
      (changed : (changesOf pb store (fun s => s.mapKey = mapKey) (done ++ [cur])).getLast? = some last)
      (target : name = .storage ∨ name = .storageScnd) : AsksBehind pb store done cur [] (last.concern, name)
  | complete {first : Step} (begins : (done ++ [cur]).head? = some first) :
      AsksBehind pb store done cur [] (first.concern, .complete)
  | incomplete (unsendable : cur.validUtf8 = false) : AsksBehind pb store done cur [] (cur.concern, .error)

/-- The producers asked for over one message: that of a storage read, that of an error, or those behind
a step that has succeeded. -/
inductive AsksFor {σ : Type} (pb : RelatedCodecs) (instanceStore : σ → InstanceStore) (handle : HandleCommand σ)
    (storageTarget : String) (s : σ) (txn : ApecsTxn) (tp : TopicParts) (cmpdOffset : CompoundOffset) :
    String × TopicName → Prop
  | missing {cur : Step} {key : String} (current : txn.currentStep = some cur)
      (misses : Misses (instanceStore s) txn tp cur key) :
      AsksFor pb instanceStore handle storageTarget s txn tp cmpdOffset (cur.concern, .storage)
  | fails {cur : Step} (current : txn.currentStep = some cur) (hit : ∀ key, ¬Misses (instanceStore s) txn tp cur key)
      (stuck : ∀ key stepOffset r adds s',
        ¬Succeeds handle storageTarget (instanceStore s) s txn tp cmpdOffset cur key stepOffset r adds s') :
      AsksFor pb instanceStore handle storageTarget s txn tp cmpdOffset (cur.concern, .error)
  | behind {done rest adds : List Step} {cur : Step} {key : String} {stepOffset : CompoundOffset} {r : StepResult} {s' : σ}
      {producer : String × TopicName} (at' : txn.At done cur rest)
      (succeeds : Succeeds handle storageTarget (instanceStore s) s txn tp cmpdOffset cur key stepOffset r adds s')
      (asks : AsksBehind pb (instanceStore s') done
        ((cur.keyed key cmpdOffset).done r (instanceFor (instanceStore s) cur key)) (adds ++ rest) producer) :
      AsksFor pb instanceStore handle storageTarget s txn tp cmpdOffset producer

section
variable {env : Env} {pb : RelatedCodecs} {store : InstanceStore} {txn : ApecsTxn} {traceParent : String}
  {done ahead rest : List Step} {cur next : Step} {idx : Int} {cmpdOffset : CompoundOffset} {producer : String × TopicName}

/-! ## Behind a step -/

/-- The producer of a generated transaction. -/
def Step.storageProducer (s : Step) : String × TopicName :=
  (s.concern, if s.system = .storage then .storage else .storageScnd)

theorem childPubs_asked {parent : String} {steps : List Step} (n : Nat) :
    ((childPubs env traceParent parent n steps).flatMap childAsked).map Asked.key = steps.map Step.storageProducer := by
  induction steps generalizing n with
  | nil => rfl
  | cons step rest ih =>
    rw [childPubs, List.flatMap_cons, List.map_append, ih]
    rfl

/-- The map has the last change under each of its keys. -/
theorem storageStepsMap_mem {steps : List Step} {m : List (String × Step)} (h : storageStepsMap pb store steps [] = .ok m)
    {u : Step} : u ∈ m.map Prod.snd ↔ ∃ k, (changesOf pb store (fun s => s.mapKey = k) steps).getLast? = some u := by
  have nodup : (m.map Prod.fst).Nodup := storageStepsMap_nodup (by simp) h
  have under : ∀ k, (m.filter fun e => e.1 = k).map Prod.snd =
      ((changesOf pb store (fun s => s.mapKey = k) steps).getLast?).toList := by
    intro k
    rw [filter_lookup nodup, storageStepsMap_lookup k h, List.lookup_nil, Option.or_none]
  constructor
  · intro hu
    obtain ⟨e, he, rfl⟩ := List.mem_map.1 hu
    refine ⟨e.1, Option.mem_toList.1 ?_⟩
    rw [← under]
    exact List.mem_map_of_mem (List.mem_filter.2 ⟨he, by simp⟩)
  · rintro ⟨k, last⟩
    have found : u ∈ (m.filter fun e => e.1 = k).map Prod.snd := by
      rw [under, last]
      exact List.mem_singleton_self _
    obtain ⟨e, he, rfl⟩ := List.mem_map.1 found
    exact List.mem_map_of_mem (List.mem_filter.1 he).1

theorem completeAsked_key (at' : txn.At done cur []) {assocTxns : List AssocTxn} :
    (completeAsked ⟨{ txn with assocTxns := assocTxns }, traceParent⟩).map Asked.key =
      [(((done ++ [cur]).head (by simp)).concern, .complete)] := by
  have first : (RtApecsTxn.mk { txn with assocTxns := assocTxns } traceParent).txn.firstForwardStep =
      some ((done ++ [cur]).head (by simp)) := at'.firstForwardStep
  unfold completeAsked
  rw [first]
  rfl

/-- The generated transactions ask for the producers of the targets that are written again, and of those that the last
changes are stored with. -/
theorem generated_asked (at' : txn.At done cur []) (completable : ∀ s ∈ txn.forwardSteps, s.Completable store) {c : Completion}
    (hc : produceStorage env pb store ⟨txn, traceParent⟩ = .ok c) :
    producer ∈ (c.published.flatMap childAsked).map Asked.key ↔
      (∃ s ∈ done ++ [cur], s.isStorageWrite = true ∧ producer = (s.concern, .storageScnd)) ∨
        ∃ k u, (changesOf pb store (fun s => s.mapKey = k) (done ++ [cur])).getLast? = some u ∧
          (producer = (u.concern, .storage) ∨ producer = (u.concern, .storageScnd)) := by
  obtain ⟨m, gen⟩ := produceStorage_ok at'.direction hc
  have steps : txn.forwardSteps = done ++ [cur] := at'.steps
  rw [gen.published, childPubs_asked, List.map_append, List.mem_append, steps]
  apply or_congr
  · constructor
    · intro h
      obtain ⟨s, hs, rfl⟩ := List.mem_map.1 h
      obtain ⟨step, mem, write, r, -, rfl⟩ := mem_secondarySteps hs
      exact ⟨step, mem, write, rfl⟩
    · rintro ⟨step, mem, write, rfl⟩
      obtain ⟨r, hr⟩ := Option.isSome_iff_exists.1 ((completable step (steps ▸ mem)).result (.inr write))
      refine List.mem_map.2 ⟨secondaryStep step r, ?_, rfl⟩
      exact List.mem_filterMap.2 ⟨step, mem, by rw [if_pos write, hr]; rfl⟩
  · have entry : ∀ u, u ∈ env.storageOrder (m.map Prod.snd) ↔
        ∃ k, (changesOf pb store (fun s => s.mapKey = k) (done ++ [cur])).getLast? = some u := by
      intro u
      rw [(env.storageOrder_perm _).mem_iff, storageStepsMap_mem gen.map, steps]
    have primary : ∀ u ∈ env.storageOrder (m.map Prod.snd), u.system = .storage := fun u hu =>
      storageStepsMap_storage gen.map u ((env.storageOrder_perm _).mem_iff.1 hu)
    constructor
    · intro h
      obtain ⟨s, hs, rfl⟩ := List.mem_map.1 h
      obtain ⟨u, hu, pair⟩ := List.mem_flatMap.1 hs
      obtain ⟨k, last⟩ := (entry u).1 hu
      refine ⟨k, u, last, ?_⟩
      simp only [List.mem_cons, List.not_mem_nil, or_false] at pair
      rcases pair with rfl | rfl
      · left
        rw [Step.storageProducer, if_pos (primary _ hu)]
      · exact .inr rfl
    · rintro ⟨k, u, last, target⟩
      have hu := (entry u).2 ⟨k, last⟩
      rcases target with rfl | rfl
      · refine List.mem_map.2 ⟨u, List.mem_flatMap.2 ⟨u, hu, List.mem_cons_self⟩, ?_⟩
        rw [Step.storageProducer, if_pos (primary _ hu)]
      · exact List.mem_map.2 ⟨{ u with system := .storageScnd }, List.mem_flatMap.2 ⟨u, hu, by simp⟩, rfl⟩

/-- A completion. -/
theorem nextStepAsked_last (at' : txn.At done cur []) (completable : ∀ s ∈ txn.forwardSteps, s.Completable store)
    (valid : traceParentIsValid traceParent = true) (ids : ∀ n, env.traceId n ≠ "")
    (utf8 : ∀ s ∈ done ++ txn.reverseSteps, s.validUtf8 = true) :
    producer ∈ (nextStepAsked env pb store ⟨txn, traceParent⟩ idx cur cmpdOffset).map Asked.key ↔
      AsksBehind pb store done cur [] producer := by
  have succeeds : (∃ c, produceStorage env pb store ⟨txn, traceParent⟩ = .ok c) ↔ _ :=
    produceStorage_succeeds_iff valid ids at'.direction
  obtain ⟨c, hc⟩ := succeeds.2 completable
  obtain ⟨m, gen⟩ := produceStorage_ok at'.direction hc
  have steps : txn.forwardSteps = done ++ [cur] := at'.steps
  have complete : (completeAsked ⟨c.txn, traceParent⟩).map Asked.key = [(((done ++ [cur]).head (by simp)).concern, .complete)] := by
    rw [gen.grown]
    exact completeAsked_key at'
  have marshals : (c.txn.forwardSteps ++ c.txn.reverseSteps).all Step.validUtf8 = cur.validUtf8 := by
    have same : c.txn.forwardSteps ++ c.txn.reverseSteps = done ++ [cur] ++ txn.reverseSteps := by
      rw [gen.grown, ← steps]
    rw [same, Bool.eq_iff_iff, List.all_eq_true]
    constructor
    · exact fun all => all cur (by simp)
    · intro here s hs
      rcases List.mem_append.1 hs with hs | hs
      · rcases List.mem_append.1 hs with hs | hs
        · exact utf8 s (List.mem_append_left _ hs)
        · rwa [List.mem_singleton.1 hs]
      · exact utf8 s (List.mem_append_right _ hs)
  have first : (RtApecsTxn.mk c.txn traceParent).txn.firstForwardStep = some ((done ++ [cur]).head (by simp)) := by
    have same : c.txn.forwardSteps = txn.forwardSteps := by rw [gen.grown]
    rw [← at'.firstForwardStep, ApecsTxn.firstForwardStep, ApecsTxn.firstForwardStep, same]
  have keys : producer ∈ (nextStepAsked env pb store ⟨txn, traceParent⟩ idx cur cmpdOffset).map Asked.key ↔
      producer ∈ (c.published.flatMap childAsked).map Asked.key ∨
        producer = (((done ++ [cur]).head (by simp)).concern, .complete) ∨
          cur.validUtf8 = false ∧ producer = (cur.concern, .error) := by
    unfold nextStepAsked
    rw [at'.advanceStepIdx_last]
    simp only [hc]
    unfold produceComplete
    rw [first]
    dsimp only
    cases clean : cur.validUtf8 with
    | true =>
      simp only [marshalTxn, marshals, clean, if_true, List.map_append, List.mem_append, complete]
      simp
    | false =>
      simp only [marshalTxn, marshals, clean, Bool.false_eq_true, if_false, List.map_append, List.mem_append, complete]
      simp [Asked.key, apecsTxnErrorAsked, errorAsked, or_assoc]
  rw [keys, generated_asked at' completable hc]
  constructor
  · rintro ((⟨step, mem, write, rfl⟩ | ⟨k, u, last, rfl | rfl⟩) | rfl | ⟨unsendable, rfl⟩)
    · exact .copy mem write
    · exact .update last (.inl rfl)
    · exact .update last (.inr rfl)
    · exact .complete (List.head?_eq_some_head _)
    · exact .incomplete unsendable
  · intro asks
    cases asks with
    | copy mem write => exact .inl (.inl ⟨_, mem, write, rfl⟩)
    | update last target =>
      rcases target with rfl | rfl
      · exact .inl (.inr ⟨_, _, last, .inl rfl⟩)
      · exact .inl (.inr ⟨_, _, last, .inr rfl⟩)
    | complete begins =>
      rw [List.head?_eq_some_head (by simp)] at begins
      exact .inr (.inl (by rw [← Option.some.inj begins]))
    | incomplete unsendable => exact .inr (.inr ⟨unsendable, rfl⟩)

variable (env producer) in
/-- A transaction that cannot be sent on asks for the producer all the same, if it is a valid one. -/
theorem currentStepAsked_unsendable (valid : traceParentIsValid traceParent = true) (current : txn.currentStep = some cur)
    (unsendable : ¬Received txn traceParent) : (∃ e, produceCurrentStep env txn traceParent = .error (.err e)) ∧
      (producer ∈ (currentStepAsked env txn traceParent).map Asked.key ↔
        (RtApecsTxn.mk txn traceParent).validate = .ok () ∧
          ∃ name, systemToTopic cur.system = some name ∧ producer = (cur.concern, name)) := by
  cases validated : (RtApecsTxn.mk txn traceParent).validate with
  | error e =>
    have fresh : newRtApecsTxn txn traceParent = some (.error e) := by
      simp [newRtApecsTxn, valid, validated, Except.map]
    refine ⟨⟨e, ?_⟩, ?_⟩
    · simp only [produceCurrentStep, fresh]
    · simp [currentStepAsked, producerKey, fresh]
  | ok u =>
    have fresh : newRtApecsTxn txn traceParent = some (.ok ⟨txn, traceParent⟩) := by
      simp [newRtApecsTxn, valid, validated, Except.map]
    have unmarshalled : ¬(txn.forwardSteps ++ txn.reverseSteps).all Step.validUtf8 = true := fun all =>
      unsendable ⟨valid, validated, List.all_eq_true.1 all⟩
    obtain ⟨name, topic⟩ := ((validate_iff.1 validated).2.2.2.2 cur (currentStep_mem current)).topic
    refine ⟨⟨.other "string field contains invalid UTF-8", ?_⟩, ?_⟩
    · simp only [produceCurrentStep, fresh, current, topic, marshalTxn, if_neg unmarshalled]
    · simp [currentStepAsked, producerKey, fresh, current, topic, Asked.key]

variable (env) in
theorem currentStepAsked_sendable (received : Received txn traceParent) (current : txn.currentStep = some cur) :
    ∃ name p, systemToTopic cur.system = some name ∧
      (currentStepAsked env txn traceParent).map Asked.key = [(cur.concern, name)] ∧
      produceCurrentStep env txn traceParent = .ok p := by
  obtain ⟨name, p, topic, key, published⟩ := received.published env current
  refine ⟨name, p, topic, ?_, published⟩
  simp only [currentStepAsked, key, published]
  rfl

variable (cmpdOffset) in
/-- The transaction on its next step can be sent on exactly if what is ahead is valid, with the result behind. -/
theorem onward_iff (at' : txn.At done cur (next :: ahead)) (valid : traceParentIsValid traceParent = true) (id : txn.id ≠ "")
    (systems : ∀ s ∈ done ++ [cur], s.ValidSystem) (utf8 : ∀ s ∈ done ++ txn.reverseSteps, s.validUtf8 = true) :
    let onward : ApecsTxn := { txn with
      currentStepIdx := txn.currentStepIdx + 1,
      forwardSteps := done ++ [cur] ++ nextStepOf cur next cmpdOffset :: ahead }
    ((RtApecsTxn.mk onward traceParent).validate = .ok () ↔ ∀ s ∈ next :: ahead, s.ValidSystem) ∧
      (Received onward traceParent ↔ ∀ s ∈ cur :: next :: ahead, s.ValidSystem ∧ s.validUtf8 = true) := by
  intro onward
  have stands : onward.At (done ++ [cur]) (nextStepOf cur next cmpdOffset) ahead := at'.next _ _ _
  have steps : onward.getSteps = done ++ [cur] ++ nextStepOf cur next cmpdOffset :: ahead := stands.getSteps
  have nextSystem : (nextStepOf cur next cmpdOffset).ValidSystem ↔ next.ValidSystem := by
    unfold Step.ValidSystem
    rw [nextStepOf_system]
  have nextUtf8 : (nextStepOf cur next cmpdOffset).validUtf8 = next.validUtf8 := by
    unfold Step.validUtf8
    rw [nextStepOf_result]
  have validated : (RtApecsTxn.mk onward traceParent).validate = .ok () ↔ ∀ s ∈ next :: ahead, s.ValidSystem := by
    have inside : 0 ≤ onward.currentStepIdx ∧ onward.currentStepIdx < onward.getSteps.length := by
      rw [steps, stands.idx]
      simp only [List.length_append, List.length_cons, List.length_nil]
      omega
    rw [validate_iff, steps, List.forall_mem_append, List.forall_mem_cons, nextSystem, ← List.forall_mem_cons]
    constructor
    · rintro ⟨-, -, -, -, -, all⟩
      exact all
    · intro all
      exact ⟨id, inside.1, .inl stands.direction, steps ▸ inside.2, systems, all⟩
  refine ⟨validated, ?_⟩
  constructor
  · intro received
    have each := received.each
    rw [steps] at each
    rw [List.forall_mem_cons, List.forall_mem_cons]
    refine ⟨each cur (by simp), ?_, fun s hs => each s (by simp [hs])⟩
    rw [← nextSystem, ← nextUtf8]
    exact each _ (by simp)
  · intro each
    refine ⟨valid, validated.2 fun s hs => (each s (List.mem_cons_of_mem _ hs)).1, ?_⟩
    intro s hs
    rcases List.mem_append.1 hs with hs | hs
    · rw [stands.steps] at hs
      simp only [List.mem_append, List.mem_cons, List.not_mem_nil, or_false] at hs
      rcases hs with (hs | rfl) | rfl | hs
      · exact utf8 s (List.mem_append_left _ hs)
      · exact (each s List.mem_cons_self).2
      · exact nextUtf8.trans (each next (by simp)).2
      · exact (each s (by simp [hs])).2
    · exact utf8 s (List.mem_append_right _ hs)

/-- A next step. -/
theorem nextStepAsked_next (at' : txn.At done cur (next :: ahead)) (valid : traceParentIsValid traceParent = true)
    (id : txn.id ≠ "") (systems : ∀ s ∈ done ++ [cur], s.ValidSystem)
    (utf8 : ∀ s ∈ done ++ txn.reverseSteps, s.validUtf8 = true) :
    producer ∈ (nextStepAsked env pb store ⟨txn, traceParent⟩ idx cur cmpdOffset).map Asked.key ↔
      AsksBehind pb store done cur (next :: ahead) producer := by
  obtain ⟨txn', hadv, rfl, hat⟩ := at'.advanceStepIdx_cons
  have stands := hat.withSteps (nextStepOf cur next cmpdOffset) ahead
  obtain ⟨validated, sends⟩ := onward_iff cmpdOffset at' valid id systems utf8
  unfold nextStepAsked
  simp only [hadv, hat.currentStep, hat.setStep_eq]
  by_cases each : ∀ s ∈ cur :: next :: ahead, s.ValidSystem ∧ s.validUtf8 = true
  · obtain ⟨name, p, topic, asked, published⟩ := currentStepAsked_sendable env (sends.2 each) stands.currentStep
    rw [nextStepOf_system] at topic
    simp only [published, asked, nextStepOf_concern, List.mem_singleton]
    constructor
    · rintro rfl
      exact .next (fun s hs => (each s (List.mem_cons_of_mem _ hs)).1) topic
    · intro asks
      cases asks with
      | next _ topic' => rw [Option.some.inj (topic'.symm.trans topic)]
      | unsent unsendable => exact absurd each unsendable
  · obtain ⟨⟨e, failed⟩, asked⟩ := currentStepAsked_unsendable env producer valid stands.currentStep
      (mt sends.1 each)
    simp only [failed, List.map_append, List.mem_append, asked, validated, nextStepOf_system, nextStepOf_concern]
    constructor
    · rintro (⟨systems, name, topic, rfl⟩ | reported)
      · exact .next systems topic
      · obtain rfl := List.mem_singleton.1 reported
        rw [Asked.key, apecsTxnErrorAsked, errorAsked, nextStepOf_concern]
        exact .unsent each
    · intro asks
      cases asks with
      | next systems topic => exact .inl ⟨systems, _, topic, rfl⟩
      | unsent _ =>
        right
        simp [Asked.key, apecsTxnErrorAsked, errorAsked]

/-! ## Over one message -/

variable {σ : Type} {instanceStore : σ → InstanceStore} {handle : HandleCommand σ} {s s' : σ} {storageTarget : String}
  {rtxn : RtApecsTxn} {tp : TopicParts} {stepOffset : CompoundOffset} {key : String} {r : StepResult} {adds : List Step}

theorem Misses.asked (received : Received rtxn.txn rtxn.traceParent) (current : rtxn.txn.currentStep = some cur)
    (h : Misses (instanceStore s) rtxn.txn tp cur key) :
    (advanceApecsTxn env pb instanceStore handle s storageTarget rtxn tp cmpdOffset).asked.map Asked.key =
      [(cur.concern, .storage)] := by
  have process : (cur.keyed key cmpdOffset).system = .process := by simpa using looksUp_process h.looksUp
  rw [advance_keyed current h.toFits, advanceKeyed_eq, if_pos (by simp [instanceFor, h.looksUp, h.missing]),
    (advanceMiss_sent (received.keyed current h.pending) (keyed_currentStep current) process).2, keyed_concern]

/-- The producers that a step asks for that succeeds. -/
theorem Succeeds.asked (received : Received rtxn.txn rtxn.traceParent) (ids : ∀ n, env.traceId n ≠ "")
    (at' : rtxn.txn.At done cur rest)
    (fault : (advanceApecsTxn env pb instanceStore handle s storageTarget rtxn tp cmpdOffset).fault = none)
    (h : Succeeds handle storageTarget (instanceStore s) s rtxn.txn tp cmpdOffset cur key stepOffset r adds s') :
    producer ∈ (advanceApecsTxn env pb instanceStore handle s storageTarget rtxn tp cmpdOffset).asked.map Asked.key ↔
      AsksBehind pb (instanceStore s') done ((cur.keyed key cmpdOffset).done r (instanceFor (instanceStore s) cur key))
        (adds ++ rest) producer := by
  have systems : ∀ t ∈ done ++ [(cur.keyed key cmpdOffset).done r (instanceFor (instanceStore s) cur key)], t.ValidSystem := by
    have each : ∀ t ∈ done ++ cur :: rest, t.ValidSystem := fun t ht => (received.each t (by rwa [at'.getSteps])).1
    have here : (cur.keyed key cmpdOffset).ValidSystem := by
      unfold Step.ValidSystem
      rw [keyed_system]
      exact each cur (by simp)
    intro t ht
    rcases List.mem_append.1 ht with ht | ht
    · exact each t (List.mem_append_left _ ht)
    · obtain rfl := List.mem_singleton.1 ht
      exact here
  have utf8 : ∀ t ∈ done ++ rtxn.txn.reverseSteps, t.validUtf8 = true := by
    intro t ht
    apply received.utf8 t
    rw [at'.steps]
    rcases List.mem_append.1 ht with ht | ht
    · exact List.mem_append_left _ (List.mem_append_left _ ht)
    · exact List.mem_append_right _ ht
  have stands := at'.withSteps ((cur.keyed key cmpdOffset).done r (instanceFor (instanceStore s) cur key)) (adds ++ rest)
  rw [(h.advance at').2]
  cases onward : adds ++ rest with
  | cons next ahead =>
    rw [onward] at stands
    exact nextStepAsked_next stands received.valid (validate_iff.1 received.validated).1 systems utf8
  | nil =>
    rw [onward] at stands
    obtain ⟨rfl, rfl⟩ := List.append_eq_nil_iff.1 onward
    have completable := (advance_fault_iff received.valid ids at').1 fault key stepOffset r s' ⟨h, at'⟩
    exact nextStepAsked_last stands (by rw [stands.steps]; exact completable) received.valid ids utf8

theorem Succeeds.unique {key' : String} {stepOffset' : CompoundOffset} {r' : StepResult} {adds' : List Step} {s'' : σ}
    (h : Succeeds handle storageTarget (instanceStore s) s rtxn.txn tp cmpdOffset cur key stepOffset r adds s')
    (h' : Succeeds handle storageTarget (instanceStore s) s rtxn.txn tp cmpdOffset cur key' stepOffset' r' adds' s'') :
    key' = key ∧ stepOffset' = stepOffset ∧ r' = r ∧ adds' = adds ∧ s'' = s' := by
  obtain rfl : key = key' := by simpa using h.keyed.symm.trans h'.keyed
  obtain rfl := Option.some.inj (h.offset.symm.trans h'.offset)
  have same := h.answers.symm.trans h'.answers
  simp only [Prod.mk.injEq, Option.some.injEq] at same
  obtain ⟨⟨rfl, rfl⟩, rfl⟩ := same
  exact ⟨rfl, rfl, rfl, rfl, rfl⟩

end

end Rocketcycle
