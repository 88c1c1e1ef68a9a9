import Rocketcycle.Lib.Annotations
import Rocketcycle.Lib.EarlyReturn
import Rocketcycle.Rkcy.Decode

/-!
# Decoding a transaction for display

`DecodeTxnOpaques` of `pkg/watch/watch.go`. The opaque fields of steps and of their results are decoded,
and what comes out is put right behind them. The maps of the tree have no parts in common, so a map that
is changed in place is a new map in the place of the old one here. `protojson` is left open.
-/

namespace Rocketcycle.Decode
open Jsonutils Early Annotations

/-- The string of an error. -/
def errorText (e : JsonError) : Bytes := bytes e.text ++ e.arg

/-- `rkcypb.System_value`. -/
def systemValue (s : Bytes) : Option System :=
  if s = word "NO_SYSTEM" then some .noSystem
  else if s = word "PROCESS" then some .process
  else if s = word "STORAGE" then some .storage
  else if s = word "STORAGE_SCND" then some .storageScnd
  else none

/-- An opaque field, and the keys of what is put behind it. -/
structure Opaque where
  field : Bytes
  dec : Bytes
  decErr : Bytes
  deriving DecidableEq

def payloadOpaque : Opaque := ⟨word "payload", word "payloadDec", word "payloadDecErr"⟩

def instanceOpaque : Opaque := ⟨word "instance", word "instanceDec", word "instanceDecErr"⟩

/-- The bytes of an answer. With an error there are none. -/
def answered : Read Bytes → Read Bytes
  | .error (.error _) => .ok []
  | answer => answer

section
variable {Msg F : Type} (lib : Library Msg F) (concernHandlers : ConcernHandlers Msg) (fuel : Nat)

/-- One of the places where a field is decoded. The error of the decoder itself is not looked at. -/
def decodeOpaque (o : Opaque) (decode64Json : Bytes → Read Bytes) (omap : OrderedMap F) : Read (OrderedMap F) :=
  match OrderedMap.get omap o.field with
  | some (.string b64) =>
    if b64 = [] then .ok omap
    else do
      let argJson ← answered (decode64Json b64)
      match unmarshalMap lib argJson with
      | .ok argOmap => .ok (omap.setAfter o.dec (.object argOmap) o.field)
      | .error (.error err) => .ok (omap.setAfter o.decErr (.string (errorText err)) o.field)
      | .error halt => .error halt
  | _ => .ok omap

/-- The fields of a step, and those of its result. -/
def decodeStep (concern : Bytes) (system : System) (command : Bytes) (step : OrderedMap F) : Read (OrderedMap F) := do
  let step ← decodeOpaque lib payloadOpaque (decodeArgPayload64Json lib concernHandlers fuel concern system command) step
  let step ← decodeOpaque lib instanceOpaque (decodeInstance64Json lib concernHandlers concern) step
  match OrderedMap.get step (word "result") with
  | some (.object rslt) => do
    let rslt ← decodeOpaque lib payloadOpaque (decodeResultPayload64Json lib concernHandlers fuel concern system command) rslt
    let rslt ← decodeOpaque lib instanceOpaque (decodeInstance64Json lib concernHandlers concern) rslt
    .ok (OrderedMap.set (word "result") (.object rslt) step)
  | _ => .ok step

/-- A turn of the loop of `decSteps`. What is no step, or a step of an unknown system, is passed over. -/
def decStep (iStep : Json F) : Read (Json F) :=
  match iStep with
  | .object step =>
    match OrderedMap.get step (word "concern"), OrderedMap.get step (word "system"), OrderedMap.get step (word "command") with
    | some (.string concern), some (.string systemStr), some (.string command) =>
      match systemValue systemStr with
      | some system => do
        let step ← decodeStep lib concernHandlers fuel concern system command step
        .ok (.object step)
      | none => .ok iStep
    | _, _, _ => .ok iStep
  | _ => .ok iStep

def decSteps (iSteps : Json F) : Read (Json F) :=
  match iSteps with
  | .array steps => do
    let steps ← steps.mapM (decStep lib concernHandlers fuel)
    .ok (.array steps)
  | _ => .ok iSteps

/-- The steps under a key of the transaction. -/
def decStepsOf (key : Bytes) (txnTopLvl : OrderedMap F) : Read (OrderedMap F) :=
  match OrderedMap.get txnTopLvl key with
  | some iSteps => do
    let iSteps ← decSteps lib concernHandlers fuel iSteps
    .ok (OrderedMap.set key iSteps txnTopLvl)
  | none => .ok txnTopLvl

def decodeTxnOpaques (pjMarshal : ApecsTxn → Read Bytes) (txn : ApecsTxn) : Read Bytes := do
  let txnJson ← pjMarshal txn
  let txnTopLvl ← unmarshalMap lib txnJson
  let txnTopLvl ← decStepsOf lib concernHandlers fuel (word "forwardSteps") txnTopLvl
  let txnTopLvl ← decStepsOf lib concernHandlers fuel (word "reverseSteps") txnTopLvl
  .ok (marshalOrderedIndent lib.formatFloat (.object txnTopLvl) [] (word "  "))

end

/-! ## What is removed

Where nothing of the kind was there before, removing what was added gives back the tree. -/

section
variable {F : Type}

/-- The key is one of those put behind the field. -/
def Opaque.adds (o : Opaque) (e : Bytes × Json F) : Bool := e.1 = o.dec || e.1 = o.decErr

/-- There is something to decode. -/
def hasBytes : Json F → Bool
  | .string b64 => !b64.isEmpty
  | _ => false

def Opaque.filled (o : Opaque) (e : Bytes × Json F) : Bool := e.1 = o.field && hasBytes e.2

def opaques : List Opaque := [payloadOpaque, instanceOpaque]

def isAdded (e : Bytes × Json F) : Bool := opaques.any fun o => o.adds e

/-- The map with the value of a key changed. -/
def change (k : Bytes) (f : Json F → Json F) (m : OrderedMap F) : OrderedMap F :=
  m.map fun e => if e.1 = k then (e.1, f e.2) else e

def withoutAdded (m : OrderedMap F) : OrderedMap F := m.filter fun e => !isAdded e

def resultWithoutAdded : Json F → Json F
  | .object rslt => .object (withoutAdded rslt)
  | v => v

def stepWithoutAdded : Json F → Json F
  | .object step => .object (change (word "result") resultWithoutAdded (withoutAdded step))
  | v => v

def stepsWithoutAdded : Json F → Json F
  | .array steps => .array (steps.map stepWithoutAdded)
  | v => v

/-- The transaction without what was added to its steps and their results. -/
def txnWithoutAdded (txn : OrderedMap F) : OrderedMap F :=
  change (word "forwardSteps") stepsWithoutAdded (change (word "reverseSteps") stepsWithoutAdded txn)

variable {m : OrderedMap F} {k : Bytes} {f : Json F → Json F}

theorem change_of_fixed (fixed : ∀ e ∈ m, e.1 = k → f e.2 = e.2) : change k f m = m := by
  unfold change
  refine (List.map_congr_left ?_).trans (List.map_id m)
  intro e he
  by_cases key : e.1 = k
  · rw [if_pos key, fixed e he key]
    rfl
  · rw [if_neg key]
    rfl

/-- A value that was set is changed back. -/
theorem change_set {v v' : Json F} (nodup : (OrderedMap.keys m).Nodup) (found : m.lookup k = some v) (back : f v' = v) :
    change k f (OrderedMap.set k v' m) = m := by
  induction m with
  | nil => cases found
  | cons e m ih =>
    obtain ⟨k', w⟩ := e
    rw [OrderedMap.keys, List.map_cons, List.nodup_cons] at nodup
    unfold OrderedMap.set
    by_cases here : k' = k
    · subst here
      rw [List.lookup_cons_self] at found
      cases found
      have rest : change k' f m = m := change_of_fixed fun e he key => absurd (List.mem_map.2 ⟨e, he, key⟩) nodup.1
      rw [if_pos rfl]
      show (if k' = k' then (k', f v') else (k', v')) :: change k' f m = _
      rw [if_pos rfl, back, rest]
    · rw [Entries.lookup_cons_of_ne (Ne.symm here)] at found
      rw [if_neg here]
      show (if k' = k then (k', f w) else (k', w)) :: change k f (OrderedMap.set k v' m) = _
      rw [if_neg here, ih nodup.2 found]

/-! ## What is added -/

/-- What is added for a field stands right behind it. It is one entry if the field is filled, and else none. -/
structure Opaque.Shown (o : Opaque) (filled : Bool) (m : OrderedMap F) : Prop where
  behind : ∀ before e after, m = before ++ e :: after → o.adds e = true →
    ∃ before' b64, before = before' ++ [(o.field, .string b64)] ∧ b64 ≠ []
  count : m.countP o.adds = if filled then 1 else 0

/-- The notes of some opaque fields. -/
structure Notes (os : List Opaque) (m : OrderedMap F) (note : Bytes × Json F → Option (Bytes × Json F)) : Prop where
  each : ∀ o ∈ os, ∀ e ∈ m, (note e).any o.adds = o.filled e
  only : ∀ e b, note e = some b → ∃ o ∈ os, o.filled e = true ∧ o.adds b = true

theorem hasBytes_iff {v : Json F} : hasBytes v = true ↔ ∃ b64, v = .string b64 ∧ b64 ≠ [] := by
  cases v with
  | string b64 => simp [hasBytes]
  | null | bool _ | number _ | array _ | object _ => simp [hasBytes]

variable {o : Opaque} {note : Bytes × Json F → Option (Bytes × Json F)}

theorem isAdded_iff {e : Bytes × Json F} : isAdded e = true ↔ ∃ o ∈ opaques, o.adds e = true := List.any_eq_true

/-- The maps before anything is added to them. -/
structure Plain (m : OrderedMap F) : Prop where
  nodup : (OrderedMap.keys m).Nodup
  unadded : ∀ e ∈ m, isAdded e = false

theorem Notes.told (notes : Notes opaques m note) (plain : Plain m) : Told isAdded note m where
  own := plain.unadded
  notes e _ b noted := by
    obtain ⟨o, ho, -, adds⟩ := notes.only e b noted
    exact isAdded_iff.2 ⟨o, ho, adds⟩

theorem Opaque.filled_iff {e : Bytes × Json F} : o.filled e = true ↔ e.1 = o.field ∧ hasBytes e.2 = true := by
  simp [Opaque.filled]

/-- A field can be filled in the entry that is found under its key. -/
theorem countP_filled (nodup : (OrderedMap.keys m).Nodup) :
    m.countP o.filled = if (m.lookup o.field).any hasBytes then 1 else 0 := by
  induction m with
  | nil => rfl
  | cons e m ih =>
    obtain ⟨k, v⟩ := e
    rw [OrderedMap.keys, List.map_cons, List.nodup_cons] at nodup
    rw [List.countP_cons]
    by_cases here : k = o.field
    · subst here
      have rest : m.countP o.filled = 0 := by
        rw [List.countP_eq_zero]
        intro e he filled
        exact nodup.1 (List.mem_map.2 ⟨e, he, (Opaque.filled_iff.1 filled).1⟩)
      rw [rest, List.lookup_cons_self]
      simp [Opaque.filled]
    · rw [Entries.lookup_cons_of_ne (Ne.symm here), ih nodup.2, if_neg fun filled => here (Opaque.filled_iff.1 filled).1,
        Nat.add_zero]

theorem Notes.shown (notes : Notes opaques m note) (plain : Plain m) (ho : o ∈ opaques) :
    o.Shown ((m.lookup o.field).any hasBytes) (annotate note m) := by
  have told := notes.told plain
  constructor
  · intro before e after split adds
    obtain ⟨before', e', rfl, he', noted⟩ := told.behind split (isAdded_iff.2 ⟨o, ho, adds⟩)
    have filled : o.filled e' = true := by
      rw [← notes.each o ho e' he', noted]
      exact adds
    obtain ⟨key, has⟩ := Opaque.filled_iff.1 filled
    obtain ⟨b64, value, nonempty⟩ := hasBytes_iff.1 has
    exact ⟨before', b64, congrArg (fun e => before' ++ [e]) (Prod.ext key value), nonempty⟩
  · rw [told.countP_annotate fun e adds => isAdded_iff.2 ⟨o, ho, adds⟩, ← countP_filled plain.nodup]
    exact List.countP_congr fun e he => by rw [notes.each o ho e he]

theorem Plain.not_adds (plain : Plain m) (ho : o ∈ opaques) {e : Bytes × Json F} (he : e ∈ m) : ¬o.adds e = true := by
  intro adds
  have added := plain.unadded e he
  rw [isAdded_iff.2 ⟨o, ho, adds⟩] at added
  cases added

/-- Where nothing is added. -/
theorem Plain.shown (plain : Plain m) (ho : o ∈ opaques) : o.Shown false m := by
  constructor
  · rintro before e after rfl adds
    exact (plain.not_adds ho (List.mem_append_right _ List.mem_cons_self) adds).elim
  · exact List.countP_eq_zero.2 fun e he => plain.not_adds ho he

end

/-! ## The places where fields are decoded -/

section
variable {Msg F : Type} {lib : Library Msg F} {concernHandlers : ConcernHandlers Msg} {fuel : Nat}
variable {o : Opaque} {decode64Json : Bytes → Read Bytes} {m m' : OrderedMap F}

theorem adds_dec {v : Json F} : o.adds (o.dec, v) = true := by simp [Opaque.adds]

theorem adds_decErr {v : Json F} : o.adds (o.decErr, v) = true := by simp [Opaque.adds]

theorem not_mem_keys_of_adds {k : Bytes} {v : Json F} (new : ∀ e ∈ m, o.adds e = false) (adds : o.adds (k, v) = true) :
    k ∉ OrderedMap.keys m := by
  intro hk
  obtain ⟨⟨k', v'⟩, he, rfl⟩ := List.mem_map.1 hk
  exact absurd adds (by rw [show o.adds (k', v) = o.adds (k', v') from rfl, new _ he]; decide)

/-- An empty field, or none, is left alone. Behind another one an entry is put. -/
theorem decodeOpaque_cases (h : decodeOpaque lib o decode64Json m = .ok m') (new : ∀ e ∈ m, o.adds e = false) :
    (m' = m ∧ ((m.lookup o.field).any hasBytes) = false) ∨
      ∃ before b64 after note, m = before ++ (o.field, .string b64) :: after ∧ b64 ≠ [] ∧ o.adds note = true ∧
        m' = before ++ (o.field, .string b64) :: note :: after := by
  unfold decodeOpaque OrderedMap.get at h
  split at h
  · rename_i b64 found
    by_cases empty : b64 = []
    · rw [if_pos empty] at h
      cases h
      exact Or.inl ⟨rfl, by simp [found, empty, hasBytes]⟩
    · rw [if_neg empty] at h
      obtain ⟨argJson, -, h⟩ := bind_eq_ok.1 h
      obtain ⟨before, after, split, absent⟩ := List.lookup_eq_some_iff.1 found
      have behind {k : Bytes} {v : Json F} (adds : o.adds (k, v) = true) :
          m.setAfter k v o.field = before ++ (o.field, .string b64) :: (k, v) :: after := by
        rw [setAfter_of_new (not_mem_keys_of_adds new adds), split]
        apply insertAfter_present
        intro hb
        obtain ⟨e, he, same⟩ := List.mem_map.1 hb
        simpa [same] using absent e he
      cases read : unmarshalMap lib argJson with
      | ok argOmap =>
        rw [read] at h
        exact Or.inr ⟨before, b64, after, _, split, empty, adds_dec, (Except.ok.inj h).symm.trans (behind adds_dec)⟩
      | error halt =>
        rw [read] at h
        cases halt with
        | error err =>
          exact Or.inr ⟨before, b64, after, _, split, empty, adds_decErr, (Except.ok.inj h).symm.trans (behind adds_decErr)⟩
        | panic | stuck => cases h
  · rename_i other
    cases h
    refine Or.inl ⟨rfl, ?_⟩
    cases found : m.lookup o.field with
    | none => rfl
    | some v =>
      rw [Option.any_some, ← Bool.not_eq_true, hasBytes_iff]
      rintro ⟨b64, rfl, -⟩
      exact other b64 found

/-- The note of a filled field. -/
def Opaque.noting (o : Opaque) (b : Bytes × Json F) (e : Bytes × Json F) : Option (Bytes × Json F) :=
  if o.filled e then some b else none

theorem Notes.single {b : Bytes × Json F} (adds : o.adds b = true) : Notes [o] m (o.noting b) := by
  constructor
  · intro o' ho e _
    rw [List.mem_singleton.1 ho, Opaque.noting]
    cases filled : o.filled e with
    | false => rfl
    | true => exact adds
  · intro e b' noted
    unfold Opaque.noting at noted
    cases filled : o.filled e with
    | false =>
      rw [filled] at noted
      cases noted
    | true =>
      rw [filled] at noted
      cases noted
      exact ⟨o, List.mem_cons_self, filled, adds⟩

/-- Without a filled field there is nothing to note. -/
theorem Notes.nothing (nodup : (OrderedMap.keys m).Nodup) (empty : ((m.lookup o.field).any hasBytes) = false) :
    Notes [o] m fun _ => none := by
  refine ⟨?_, nofun⟩
  intro o' ho e he
  rw [List.mem_singleton.1 ho]
  cases filled : o.filled e with
  | false => rfl
  | true =>
    obtain ⟨key, has⟩ := Opaque.filled_iff.1 filled
    have found : m.lookup o.field = some e.2 := by
      rw [← key]
      exact (Entries.lookup_eq_some nodup).2 he
    rw [found, Option.any_some, has] at empty
    cases empty

theorem annotate_noting {before after : OrderedMap F} {b64 : Bytes} {b : Bytes × Json F}
    (nodup : (OrderedMap.keys (before ++ (o.field, .string b64) :: after)).Nodup) (nonempty : b64 ≠ []) :
    annotate (o.noting b) (before ++ (o.field, .string b64) :: after) = before ++ (o.field, .string b64) :: b :: after := by
  have others {e : Bytes × Json F} (differ : e.1 ≠ o.field) : o.noting b e = none :=
    if_neg fun filled => differ (Opaque.filled_iff.1 filled).1
  have apart : (before.map Prod.fst ++ o.field :: after.map Prod.fst).Nodup := by
    simpa [OrderedMap.keys] using nodup
  have once := List.nodup_middle.1 apart
  rw [List.nodup_cons, List.mem_append, not_or] at once
  apply annotate_single
  · exact fun e he => others fun same => once.1.1 (List.mem_map.2 ⟨e, he, same⟩)
  · exact if_pos (Opaque.filled_iff.2 ⟨rfl, hasBytes_iff.2 ⟨b64, rfl, nonempty⟩⟩)
  · exact fun e he => others fun same => once.1.2 (List.mem_map.2 ⟨e, he, same⟩)

theorem decodeOpaque_annotates (h : decodeOpaque lib o decode64Json m = .ok m') (nodup : (OrderedMap.keys m).Nodup)
    (new : ∀ e ∈ m, o.adds e = false) : (OrderedMap.keys m').Nodup ∧ ∃ note, Notes [o] m note ∧ m' = annotate note m := by
  rcases decodeOpaque_cases h new with ⟨rfl, empty⟩ | ⟨before, b64, after, b, rfl, nonempty, adds, rfl⟩
  · exact ⟨nodup, _, .nothing nodup empty, (annotate_of_none fun _ _ => rfl).symm⟩
  · have fresh : b.1 ∉ OrderedMap.keys (before ++ (o.field, .string b64) :: after) := not_mem_keys_of_adds (v := b.2) new adds
    have moved := @List.perm_middle _ b (before ++ [(o.field, .string b64)]) after
    simp only [List.append_assoc, List.singleton_append] at moved
    have keys : (OrderedMap.keys (before ++ (o.field, .string b64) :: b :: after)).Nodup :=
      (moved.map Prod.fst).nodup_iff.2 (List.nodup_cons.2 ⟨fresh, nodup⟩)
    exact ⟨keys, _, .single adds, (annotate_noting nodup nonempty).symm⟩

/-- What is put behind one field is not taken for the other field, nor for what is put behind it. -/
structure Opaque.Apart (o o' : Opaque) : Prop where
  fields : o.field ≠ o'.field
  added : ∀ k ∈ [o.dec, o.decErr], k ∉ [o'.field, o'.dec, o'.decErr]

theorem Opaque.adds_iff {e : Bytes × Json F} : o.adds e = true ↔ e.1 ∈ [o.dec, o.decErr] := by
  simp [Opaque.adds]

theorem Opaque.Apart.of_adds {o' : Opaque} (apart : o.Apart o') {b : Bytes × Json F} (adds : o.adds b = true) :
    ¬o'.adds b = true ∧ ¬o'.filled b = true := by
  have key := apart.added b.1 (Opaque.adds_iff.1 adds)
  constructor
  · intro adds'
    exact key (List.mem_cons_of_mem _ (Opaque.adds_iff.1 adds'))
  · intro filled
    rw [(Opaque.filled_iff.1 filled).1] at key
    exact key List.mem_cons_self

theorem Notes.single_only {note : Bytes × Json F → Option (Bytes × Json F)} (notes : Notes [o] m note) {e b : Bytes × Json F}
    (noted : note e = some b) : o.filled e = true ∧ o.adds b = true := by
  obtain ⟨o', ho, filled, adds⟩ := notes.only e b noted
  cases List.mem_singleton.1 ho
  exact ⟨filled, adds⟩

/-- The notes of one field and then of another. -/
theorem Notes.both {o' : Opaque} {note note' : Bytes × Json F → Option (Bytes × Json F)} (notes : Notes [o] m note)
    (notes' : Notes [o'] (annotate note m) note') (apart : o.Apart o') :
    Notes [o, o'] m (both note note') ∧ annotate note' (annotate note m) = annotate (both note note') m := by
  have other {e : Bytes × Json F} (filled : o.filled e = true) : ¬o'.filled e = true := fun filled' =>
    apart.fields ((Opaque.filled_iff.1 filled).1.symm.trans (Opaque.filled_iff.1 filled').1)
  have none' {e : Bytes × Json F} (empty : ¬o'.filled e = true) : note' e = none := by
    by_contra noted
    obtain ⟨b, hb⟩ := Option.ne_none_iff_exists'.1 noted
    exact empty (notes'.single_only hb).1
  refine ⟨⟨?_, ?_⟩, annotate_annotate fun e _ b noted => ?_⟩
  · intro p hp e he
    have own := notes.each o List.mem_cons_self e he
    have own' := notes'.each o' List.mem_cons_self e (mem_annotate.2 (Or.inl he))
    unfold Annotations.both
    cases noted : note e with
    | some b =>
      obtain ⟨filled, adds⟩ := notes.single_only noted
      rcases List.mem_pair.1 hp with rfl | rfl
      · rw [filled]
        exact adds
      · rw [Bool.eq_false_iff.2 (other filled)]
        exact Bool.eq_false_iff.2 (apart.of_adds adds).1
    | none =>
      rw [noted] at own
      rw [Option.none_or]
      rcases List.mem_pair.1 hp with rfl | rfl
      · rw [← own]
        cases noted' : note' e with
        | none => rfl
        | some b =>
          exact Bool.eq_false_iff.2 fun adds => (apart.of_adds adds).1 (notes'.single_only noted').2
      · exact own'
  · intro e b noted
    unfold Annotations.both at noted
    cases first : note e with
    | some b' =>
      rw [first] at noted
      cases noted
      exact ⟨o, List.mem_cons_self, notes.single_only first⟩
    | none =>
      rw [first] at noted
      exact ⟨o', by simp, notes'.single_only noted⟩
  · obtain ⟨filled, adds⟩ := notes.single_only noted
    exact ⟨none' (other filled), none' (apart.of_adds adds).2⟩

theorem payload_apart : payloadOpaque.Apart instanceOpaque := ⟨by decide +kernel, by decide +kernel⟩

/-- The payload and the instance of a map, one after the other. -/
theorem decodeOpaque_both {decodePayload decodeInstance : Bytes → Read Bytes} {m m1 m2 : OrderedMap F} (plain : Plain m)
    (hp : decodeOpaque lib payloadOpaque decodePayload m = .ok m1)
    (hi : decodeOpaque lib instanceOpaque decodeInstance m1 = .ok m2) : ∃ note, Notes opaques m note ∧ m2 = annotate note m := by
  obtain ⟨nodup, note, notes, rfl⟩ := decodeOpaque_annotates hp plain.nodup fun e he =>
    Bool.eq_false_iff.2 (plain.not_adds List.mem_cons_self he)
  have new : ∀ e ∈ annotate note m, instanceOpaque.adds e = false := by
    intro e he
    rcases mem_annotate.1 he with he | ⟨a, -, noted⟩
    · exact Bool.eq_false_iff.2 (plain.not_adds (List.mem_cons_of_mem _ List.mem_cons_self) he)
    · exact Bool.eq_false_iff.2 (payload_apart.of_adds (notes.single_only noted).2).1
  obtain ⟨-, note', notes', rfl⟩ := decodeOpaque_annotates hi nodup new
  exact ⟨_, notes.both notes' payload_apart⟩

end

end Rocketcycle.Decode
