import Rocketcycle.Watch.DecodeTxn

/-!
# What decoding adds to steps

A step of a known system, and its result, get one entry behind each field that has something to decode.
Without these entries the steps are as they were.
-/

namespace Rocketcycle.Decode
open Jsonutils Early Annotations

/-! ## Annotated maps -/

section
variable {F : Type} {m : OrderedMap F} {note : Bytes × Json F → Option (Bytes × Json F)} {k : Bytes}

theorem lookup_annotate (others : ∀ e b, note e = some b → b.1 ≠ k) : (annotate note m).lookup k = m.lookup k := by
  induction m with
  | nil => rfl
  | cons e m ih =>
    obtain ⟨k', v⟩ := e
    rw [annotate_cons]
    by_cases here : k = k'
    · subst here
      rw [List.lookup_cons_self, List.lookup_cons_self]
    · rw [Entries.lookup_cons_of_ne here, Entries.lookup_cons_of_ne here, ← ih]
      cases noted : note (k', v) with
      | none => rfl
      | some b => exact Entries.lookup_cons_of_ne (Ne.symm (others _ b noted))

/-- A value is set where there are no notes. -/
theorem set_annotate (others : ∀ e b, note e = some b → b.1 ≠ k) (bare : ∀ v, note (k, v) = none) (v : Json F) :
    OrderedMap.set k v (annotate note m) = annotate note (OrderedMap.set k v m) := by
  induction m with
  | nil =>
    unfold OrderedMap.set
    rw [annotate_cons, bare]
    rfl
  | cons e m ih =>
    obtain ⟨k', v'⟩ := e
    rw [annotate_cons]
    unfold OrderedMap.set
    by_cases here : k' = k
    · subst here
      rw [if_pos rfl, if_pos rfl, annotate_cons, bare, bare]
    · rw [if_neg here, if_neg here, annotate_cons, ← ih]
      congr 1
      cases noted : note (k', v') with
      | none => rfl
      | some b => exact if_neg (others _ b noted)

theorem Plain.set (plain : Plain m) (known : k ∈ OrderedMap.keys m) (v : Json F) : Plain (OrderedMap.set k v m) := by
  have keys : OrderedMap.keys (OrderedMap.set k v m) = OrderedMap.keys m := by
    rw [keys_set, if_pos known]
  refine ⟨keys ▸ plain.nodup, ?_⟩
  intro e he
  have mem : e.1 ∈ OrderedMap.keys (OrderedMap.set k v m) := List.mem_map.2 ⟨e, he, rfl⟩
  obtain ⟨e', he', same⟩ := List.mem_map.1 (keys ▸ mem)
  have unadded := plain.unadded e' he'
  unfold isAdded Opaque.adds at unadded ⊢
  rwa [same] at unadded

theorem Plain.withoutAdded (plain : Plain m) : withoutAdded m = m :=
  List.filter_eq_self.2 fun e he => by simp [plain.unadded e he]

theorem Notes.withoutAdded (notes : Notes opaques m note) (plain : Plain m) : withoutAdded (annotate note m) = m :=
  (notes.told plain).filter_annotate

/-- The result of a step is none of the fields, and is put behind none. -/
theorem result_apart : ∀ o ∈ opaques, word "result" ∉ [o.field, o.dec, o.decErr] := by decide +kernel

theorem Notes.not_result (notes : Notes opaques m note) {e b : Bytes × Json F} (noted : note e = some b) :
    e.1 ≠ word "result" ∧ b.1 ≠ word "result" := by
  obtain ⟨o, ho, filled, adds⟩ := notes.only e b noted
  have apart := result_apart o ho
  constructor
  · intro same
    rw [← same, (Opaque.filled_iff.1 filled).1] at apart
    exact apart List.mem_cons_self
  · intro same
    rw [← same] at apart
    exact apart (List.mem_cons_of_mem _ (Opaque.adds_iff.1 adds))

theorem Notes.bare_result (notes : Notes opaques m note) (v : Json F) : note (word "result", v) = none := by
  by_contra noted
  obtain ⟨b, hb⟩ := Option.ne_none_iff_exists'.1 noted
  exact (notes.not_result hb).1 rfl

/-- The result does not matter for the notes of a step. -/
theorem Notes.set_result (notes : Notes opaques m note) (v : Json F) : Notes opaques (OrderedMap.set (word "result") v m) note := by
  refine ⟨?_, notes.only⟩
  intro o ho e he
  rcases mem_set he with rfl | he
  · rw [notes.bare_result v]
    have empty : ¬o.filled (word "result", v) = true := fun filled =>
      result_apart o ho ((Opaque.filled_iff.1 filled).1 ▸ List.mem_cons_self)
    exact (Bool.eq_false_iff.2 empty).symm
  · exact notes.each o ho e he

end

/-! ## Steps -/

section
variable {F : Type} {s s' : OrderedMap F}

/-- A step before anything is added to it or its result. -/
structure PlainStep (s : OrderedMap F) : Prop where
  step : Plain s
  result : ∀ rslt, s.lookup (word "result") = some (.object rslt) → Plain rslt

/-- What is added to a step and its result, where fields are decoded, and that it is all. -/
structure StepShown (decoded : Bool) (s s' : OrderedMap F) : Prop where
  removed : stepWithoutAdded (.object s') = .object s
  fields : ∀ o ∈ opaques, o.Shown (decoded && (s.lookup o.field).any hasBytes) s'
  result : ∀ rslt, s.lookup (word "result") = some (.object rslt) → ∃ rslt', s'.lookup (word "result") = some (.object rslt') ∧
    ∀ o ∈ opaques, o.Shown (decoded && (rslt.lookup o.field).any hasBytes) rslt'

theorem stepWithoutAdded_object (s : OrderedMap F) :
    stepWithoutAdded (.object s) = .object (change (word "result") resultWithoutAdded (withoutAdded s)) := rfl

/-- Nothing is removed from what is plain. -/
theorem PlainStep.removed (plain : PlainStep s) : stepWithoutAdded (.object s) = .object s := by
  rw [stepWithoutAdded_object, plain.step.withoutAdded, change_of_fixed]
  rintro ⟨k, v⟩ he rfl
  have found := (Entries.lookup_eq_some plain.step.nodup).2 he
  cases v with
  | object rslt => exact congrArg Json.object (plain.result rslt found).withoutAdded
  | null | bool _ | number _ | string _ | array _ => rfl

/-- A step that is passed over. -/
theorem PlainStep.shown (plain : PlainStep s) : StepShown false s s where
  removed := plain.removed
  fields _ ho := plain.step.shown ho
  result rslt found := ⟨rslt, found, fun _ ho => (plain.result rslt found).shown ho⟩

variable {Msg : Type} {lib : Library Msg F} {concernHandlers : ConcernHandlers Msg} {fuel : Nat}

theorem decodeStep_shown {concern command : Bytes} {system : System} (plain : PlainStep s)
    (h : decodeStep lib concernHandlers fuel concern system command s = .ok s') : StepShown true s s' := by
  obtain ⟨m1, hp, h⟩ := bind_eq_ok.1 h
  obtain ⟨m2, hi, h⟩ := bind_eq_ok.1 h
  obtain ⟨note, notes, rfl⟩ := decodeOpaque_both plain.step hp hi
  have others : ∀ e b, note e = some b → b.1 ≠ word "result" := fun _ _ noted => (notes.not_result noted).2
  have rest : OrderedMap.get (annotate note s) (word "result") = s.lookup (word "result") := lookup_annotate others
  rw [rest] at h
  split at h
  · rename_i rslt found
    obtain ⟨r1, hp, h⟩ := bind_eq_ok.1 h
    obtain ⟨r2, hi, h⟩ := bind_eq_ok.1 h
    obtain ⟨noteR, notesR, rfl⟩ := decodeOpaque_both (plain.result rslt found) hp hi
    cases h
    have known : word "result" ∈ OrderedMap.keys s := Entries.lookup_isSome.1 (Option.isSome_iff_exists.2 ⟨_, found⟩)
    have plainT := plain.step.set known (.object (annotate noteR rslt))
    have notesT := notes.set_result (.object (annotate noteR rslt))
    rw [set_annotate others notes.bare_result]
    constructor
    · have back : resultWithoutAdded (.object (annotate noteR rslt)) = .object rslt :=
        congrArg Json.object (notesR.withoutAdded (plain.result rslt found))
      rw [stepWithoutAdded_object, notesT.withoutAdded plainT, change_set plain.step.nodup found back]
    · intro o ho
      have differ : o.field ≠ word "result" := fun same => result_apart o ho (same ▸ List.mem_cons_self)
      have shown := notesT.shown plainT ho
      rw [lookup_set, if_neg differ] at shown
      exact shown
    · intro rslt' found'
      cases found.symm.trans found'
      refine ⟨_, ?_, fun o ho => notesR.shown (plain.result rslt found) ho⟩
      rw [lookup_annotate others, lookup_set, if_pos rfl]
  · rename_i noObject
    cases h
    constructor
    · have same := plain.removed
      rw [stepWithoutAdded_object, plain.step.withoutAdded] at same
      rw [stepWithoutAdded_object, notes.withoutAdded plain.step, same]
    · exact fun o ho => notes.shown plain.step ho
    · exact fun rslt found => (noObject rslt found).elim

/-- The loop decodes a step if its concern, system and command are there and the system is known. -/
def isDecoded (s : OrderedMap F) : Bool :=
  match s.lookup (word "concern"), s.lookup (word "system"), s.lookup (word "command") with
  | some (.string _), some (.string systemStr), some (.string _) => (systemValue systemStr).isSome
  | _, _, _ => false

theorem decStep_shown {v : Json F} (plain : PlainStep s) (h : decStep lib concernHandlers fuel (.object s) = .ok v) :
    ∃ s', v = .object s' ∧ StepShown (isDecoded s) s s' := by
  unfold decStep OrderedMap.get at h
  dsimp only at h
  split at h
  · rename_i concern systemStr command hconcern hsystem hcommand
    have named : isDecoded s = (systemValue systemStr).isSome := by
      unfold isDecoded
      rw [hconcern, hsystem, hcommand]
    rw [named]
    split at h
    · rename_i known
      obtain ⟨s', hs, h⟩ := bind_eq_ok.1 h
      cases h
      rw [known]
      exact ⟨s', rfl, decodeStep_shown plain hs⟩
    · rename_i unknown
      cases h
      rw [unknown]
      exact ⟨s, rfl, plain.shown⟩
  · rename_i other
    have passed : isDecoded s = false := by
      unfold isDecoded
      split
      · rename_i hconcern hsystem hcommand
        exact (other _ _ _ hconcern hsystem hcommand).elim
      · rfl
    cases h
    rw [passed]
    exact ⟨s, rfl, plain.shown⟩

/-! ## Transactions -/

/-- A transaction before anything is added to it. -/
structure PlainTxn (txn : OrderedMap F) (forwardSteps reverseSteps : List (OrderedMap F)) : Prop where
  nodup : (OrderedMap.keys txn).Nodup
  forward : txn.lookup (word "forwardSteps") = some (.array (forwardSteps.map .object))
  reverse : txn.lookup (word "reverseSteps") = some (.array (reverseSteps.map .object))
  steps : ∀ s ∈ forwardSteps ++ reverseSteps, PlainStep s

/-- The steps of one direction as they come out. -/
def StepsShown (steps steps' : List (OrderedMap F)) : Prop := List.Forall₂ (fun s s' => StepShown (isDecoded s) s s') steps steps'

theorem StepsShown.removed {steps steps' : List (OrderedMap F)} (shown : StepsShown steps steps') :
    stepsWithoutAdded (.array (steps'.map .object)) = .array (steps.map .object) := by
  show Json.array ((steps'.map Json.object).map stepWithoutAdded) = _
  rw [List.map_map]
  exact congrArg Json.array (Entries.forall₂_map shown fun _ _ h => h.removed)

theorem decSteps_shown {steps : List (OrderedMap F)} {vs : List (Json F)} (plain : ∀ s ∈ steps, PlainStep s)
    (h : (steps.map Json.object).mapM (decStep lib concernHandlers fuel) = .ok vs) :
    ∃ steps', StepsShown steps steps' ∧ vs = steps'.map .object := by
  have each := List.forall₂_map_left_iff.1 (mapM_forall₂ h)
  clear h
  induction each with
  | nil => exact ⟨[], .nil, rfl⟩
  | cons hs _ ih =>
    obtain ⟨s', rfl, shown⟩ := decStep_shown (plain _ List.mem_cons_self) hs
    obtain ⟨steps', shown', rfl⟩ := ih fun s hs => plain s (List.mem_cons_of_mem _ hs)
    exact ⟨s' :: steps', .cons shown shown', rfl⟩

theorem decStepsOf_shown {key : Bytes} {m m' : OrderedMap F} {steps : List (OrderedMap F)}
    (found : m.lookup key = some (.array (steps.map .object))) (plain : ∀ s ∈ steps, PlainStep s)
    (h : decStepsOf lib concernHandlers fuel key m = .ok m') :
    ∃ steps', StepsShown steps steps' ∧ m' = OrderedMap.set key (.array (steps'.map .object)) m := by
  unfold decStepsOf OrderedMap.get at h
  rw [found] at h
  obtain ⟨v, hv, h⟩ := bind_eq_ok.1 h
  obtain ⟨vs, hvs, hv⟩ := bind_eq_ok.1 hv
  cases hv
  cases h
  obtain ⟨steps', shown, rfl⟩ := decSteps_shown plain hvs
  exact ⟨steps', shown, rfl⟩

/-- The tree that is written, from the one that is read. -/
theorem decodeTxnOpaques_shown {pjMarshal : ApecsTxn → Read Bytes} {txn : ApecsTxn} {json out : Bytes} {parsed : OrderedMap F}
    {forwardSteps reverseSteps : List (OrderedMap F)} (marshalled : pjMarshal txn = .ok json)
    (read : unmarshalMap lib json = .ok parsed) (plain : PlainTxn parsed forwardSteps reverseSteps)
    (h : decodeTxnOpaques lib concernHandlers fuel pjMarshal txn = .ok out) :
    ∃ tree fw rev, out = marshalOrderedIndent lib.formatFloat (.object tree) [] (word "  ") ∧ txnWithoutAdded tree = parsed ∧
      tree.lookup (word "forwardSteps") = some (.array (fw.map .object)) ∧ StepsShown forwardSteps fw ∧
      tree.lookup (word "reverseSteps") = some (.array (rev.map .object)) ∧ StepsShown reverseSteps rev := by
  obtain ⟨_, hjson, h⟩ := bind_eq_ok.1 h
  cases marshalled.symm.trans hjson
  obtain ⟨_, hread, h⟩ := bind_eq_ok.1 h
  cases read.symm.trans hread
  obtain ⟨m1, h1, h⟩ := bind_eq_ok.1 h
  obtain ⟨m2, h2, h⟩ := bind_eq_ok.1 h
  cases h
  have differ : word "reverseSteps" ≠ word "forwardSteps" := by decide +kernel
  obtain ⟨fw, forward, rfl⟩ := decStepsOf_shown plain.forward (fun s hs => plain.steps s (List.mem_append_left _ hs)) h1
  have found : (OrderedMap.set (word "forwardSteps") (.array (fw.map .object)) parsed).lookup (word "reverseSteps") =
      some (.array (reverseSteps.map .object)) := by
    rw [lookup_set, if_neg differ, plain.reverse]
  obtain ⟨rev, reverse, rfl⟩ := decStepsOf_shown found (fun s hs => plain.steps s (List.mem_append_right _ hs)) h2
  have known : word "forwardSteps" ∈ OrderedMap.keys parsed := Entries.lookup_isSome.1 (Option.isSome_iff_exists.2 ⟨_, plain.forward⟩)
  refine ⟨_, fw, rev, rfl, ?_, ?_, forward, ?_, reverse⟩
  · unfold txnWithoutAdded
    rw [change_set _ found reverse.removed, change_set plain.nodup plain.forward forward.removed]
    rw [keys_set, if_pos known]
    exact plain.nodup
  · rw [lookup_set, if_neg differ.symm, lookup_set, if_pos rfl]
  · rw [lookup_set, if_pos rfl]

end

end Rocketcycle.Decode
